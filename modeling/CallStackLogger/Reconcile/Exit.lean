import CallStackLogger.Reconcile.Rules

/-!
# Which record an exit finds

`exiting_record_index` looks for the topmost run of records of the exiting frame's call site and
picks one of them. `deadAtExit` is the number of records above the one it picks, and the two
lemmas about a run say which one that is: the frame's own record is found in its run when no
other record of the run stands in front of it.
-/

namespace CallStackLogger

variable {ρ : Type*} [Keyed ρ] {records run : List ρ} {key : FrameKey} {bounds : StackBounds}

/-! ### The scan of a tail-called exit -/

lemma closestBelow_some_of_forall {level : Addr} {i : Nat} {best : Nat × Addr}
    (h : ∀ r ∈ run, (Keyed.key r).level < level → (Keyed.key r).level ≤ best.2) :
    closestBelow level run i (some best) = some best := by
  induction run generalizing i with
  | nil => rfl
  | cons r run ih =>
    have hkeep : ¬ ((Keyed.key r).level < level ∧
        ((some best).all fun b => decide (b.2 < (Keyed.key r).level)) = true) := by
      rintro ⟨hbelow, hcloser⟩
      have hle := h r List.mem_cons_self hbelow
      simp only [Option.all_some, decide_eq_true_eq] at hcloser
      exact absurd hcloser (Nat.not_lt.mpr hle)
    simp only [closestBelow, hkeep, if_false]
    exact ih fun r' hr' => h r' (List.mem_cons_of_mem r hr')

/-- The scan returns what it started from, or a record of the run below the level. -/
lemma closestBelow_cases (run : List ρ) (level : Addr) (i : Nat) (best : Option (Nat × Addr)) :
    closestBelow level run i best = best ∨
      ∃ j r, run[j]? = some r ∧ (Keyed.key r).level < level ∧
        closestBelow level run i best = some (i + j, (Keyed.key r).level) := by
  induction run generalizing i best with
  | nil => exact .inl rfl
  | cons r run ih =>
    simp only [closestBelow]
    split_ifs with hcloser
    · rcases ih (i + 1) (some (i, (Keyed.key r).level)) with hsame | ⟨j, r', hr', hbelow, hres⟩
      · exact .inr ⟨0, r, rfl, hcloser.1, hsame⟩
      · exact .inr ⟨j + 1, r', hr', hbelow, by rw [hres, Nat.add_assoc, Nat.add_comm 1 j]⟩
    · rcases ih (i + 1) best with hsame | ⟨j, r', hr', hbelow, hres⟩
      · exact .inl hsame
      · exact .inr ⟨j + 1, r', hr', hbelow, by rw [hres, Nat.add_assoc, Nat.add_comm 1 j]⟩

/-- The record the scan returns is the closest one below the level. -/
lemma le_of_closestBelow {level : Addr} {i : Nat} {best : Option (Nat × Addr)} {b : Nat × Addr}
    (h : closestBelow level run i best = some b) :
    (∀ b' ∈ best, b'.2 ≤ b.2) ∧
      ∀ r ∈ run, (Keyed.key r).level < level → (Keyed.key r).level ≤ b.2 := by
  induction run generalizing i best with
  | nil =>
    obtain rfl : best = some b := h
    exact ⟨fun b' hb' => by rw [Option.mem_some_iff.mp hb'], by simp⟩
  | cons r run ih =>
    simp only [closestBelow] at h
    split_ifs at h with hcloser
    · obtain ⟨hbest, hrun⟩ := ih h
      have hr : (Keyed.key r).level ≤ b.2 := hbest _ rfl
      refine ⟨fun b' hb' => ?_, ?_⟩
      · have hlt := hcloser.2
        rw [Option.mem_def.mp hb'] at hlt
        simp only [Option.all_some, decide_eq_true_eq] at hlt
        exact Nat.le_trans (Nat.le_of_lt hlt) hr
      · intro r' hr' hbelow
        rcases List.mem_cons.mp hr' with rfl | hrest
        · exact hr
        · exact hrun r' hrest hbelow
    · obtain ⟨hbest, hrun⟩ := ih h
      refine ⟨hbest, fun r' hr' hbelow => ?_⟩
      rcases List.mem_cons.mp hr' with rfl | hrest
      · cases best with
        | none => exact absurd ⟨hbelow, rfl⟩ hcloser
        | some b' =>
          have hle := hbest b' rfl
          simp only [hbelow, true_and, Option.all_some, decide_eq_true_eq] at hcloser
          exact Nat.le_trans (Nat.not_lt.mp hcloser) hle
      · exact hrun r' hrest hbelow

/-- In front of a record that is closer than everything before it, the scan keeps nothing that
would stand in its way. -/
lemma closestBelow_append {pre : List ρ} {own : ρ} {level : Addr} (post : List ρ) (i : Nat)
    (best : Option (Nat × Addr)) (hown : (Keyed.key own).level < level)
    (hpre : ∀ r ∈ pre, (Keyed.key r).level < (Keyed.key own).level)
    (hbest : ∀ b ∈ best, b.2 < (Keyed.key own).level) :
    closestBelow level (pre ++ own :: post) i best =
      closestBelow level post (i + pre.length + 1) (some (i + pre.length, (Keyed.key own).level)) := by
  induction pre generalizing i best with
  | nil =>
    have hcloser : (best.all fun b => decide (b.2 < (Keyed.key own).level)) = true := by
      cases best with
      | none => rfl
      | some b => simpa using hbest b rfl
    simp [closestBelow, hown, hcloser]
  | cons r pre ih =>
    simp only [List.cons_append, closestBelow]
    rw [ih _ _ (fun r' hr' => hpre r' (List.mem_cons_of_mem r hr'))]
    · simp [Nat.add_assoc, Nat.add_comm 1]
    · intro b hb
      split_ifs at hb
      · rw [← Option.mem_some_iff.mp hb]
        exact hpre r List.mem_cons_self
      · exact hbest b hb

/-! ### The record of a run -/

lemma bestInRun_lt (hrun : run ≠ []) (level : Addr) (tailCalled : Bool) :
    bestInRun run level tailCalled < run.length := by
  have hpos : 0 < run.length := List.length_pos_iff.mpr hrun
  rw [bestInRun]
  split_ifs
  · rcases closestBelow_cases run level 0 none with hnone | ⟨j, r, hr, -, hsome⟩
    · simpa [hnone] using hpos
    · have hj := (List.getElem?_eq_some_iff.mp hr).1
      simpa [hsome] using hj
  · cases hfound : run.findIdx? fun record => (Keyed.key record).level == level with
    | none => simpa using hpos
    | some j =>
      have hj := (List.findIdx?_eq_some_iff_findIdx_eq.mp hfound).1
      simpa using hj

/-- A normally called exit finds the record of its own level, behind lower ones. -/
lemma bestInRun_called {pre post : List ρ} {own : ρ}
    (hpre : ∀ r ∈ pre, (Keyed.key r).level < (Keyed.key own).level) :
    bestInRun (pre ++ own :: post) (Keyed.key own).level false = pre.length := by
  have hskip : pre.findIdx? (fun record => (Keyed.key record).level == (Keyed.key own).level) = none := by
    rw [List.findIdx?_eq_none_iff]
    intro r hr
    exact beq_eq_false_iff_ne.mpr (Nat.ne_of_lt (hpre r hr))
  simp [bestInRun, List.findIdx?_append, hskip, List.findIdx?_cons]

/-- A tail-called exit finds the record of its own level exactly when no record of the run lies
between it and the level the hook resolved to. -/
lemma bestInRun_tailCalled_iff {pre : List ρ} {own : ρ} {level : Addr} (post : List ρ)
    (hown : (Keyed.key own).level < level)
    (hpre : ∀ r ∈ pre, (Keyed.key r).level < (Keyed.key own).level) :
    bestInRun (pre ++ own :: post) level true = pre.length ↔
      ∀ r ∈ post, (Keyed.key r).level < level → (Keyed.key r).level ≤ (Keyed.key own).level := by
  have hstart := closestBelow_append post 0 none hown hpre (by simp)
  rw [Nat.zero_add] at hstart
  simp only [bestInRun, if_true, hstart]
  constructor
  · intro hbest r hr hbelow
    rcases closestBelow_cases post level (pre.length + 1)
      (some (pre.length, (Keyed.key own).level)) with hsame | ⟨j, r', hr', -, hres⟩
    · exact (le_of_closestBelow hsame).2 r hr hbelow
    · rw [hres] at hbest
      simp only [Option.map_some, Option.getD_some] at hbest
      omega
  · intro hpost
    rw [closestBelow_some_of_forall hpost]
    rfl

/-! ### The records above the one that is found -/

/-- The records above the one an exit finds. -/
def deadAtExit (records : List ρ) (key : FrameKey) (tailCalled : Bool) (bounds : StackBounds) : Nat :=
  if (records.head?.any fun top => onThreadStack bounds (Keyed.key top).level) = true ∧
      onThreadStack bounds key.level = true ∧ (records.any fun r => sameActivationSite r key) = true then
    (records.takeWhile fun record => !sameActivationSite record key).length
      + bestInRun ((records.dropWhile fun record => !sameActivationSite record key).takeWhile
          fun record => sameActivationSite record key) key.level tailCalled
  else 0

/-- The run of a call site is not empty when the site is on the stack, and ends within it. -/
lemma run_of_any (hsite : (records.any fun r => sameActivationSite r key) = true) :
    ((records.dropWhile fun r => !sameActivationSite r key).takeWhile
      fun r => sameActivationSite r key) ≠ [] ∧
    (records.takeWhile fun r => !sameActivationSite r key).length +
      ((records.dropWhile fun r => !sameActivationSite r key).takeWhile
        fun r => sameActivationSite r key).length ≤ records.length := by
  obtain ⟨r, hr, hsame⟩ := List.any_eq_true.mp hsite
  constructor
  · cases hdrop : records.dropWhile fun r => !sameActivationSite r key with
    | nil =>
      have hall := List.dropWhile_eq_nil_iff.mp hdrop r hr
      simp [hsame] at hall
    | cons x rest =>
      have hx : sameActivationSite x key = true := by simpa using Scan.head_dropWhile hdrop
      simp [hx]
  · have hrun := (List.takeWhile_prefix (fun r => sameActivationSite r key)
      (l := records.dropWhile fun r => !sameActivationSite r key)).length_le
    have hsplit := congrArg List.length
      (List.takeWhile_append_dropWhile (p := fun r => !sameActivationSite r key) (l := records))
    rw [List.length_append] at hsplit
    omega

lemma deadAtExit_eq (hne : records ≠ []) (key : FrameKey) (tailCalled : Bool) (bounds : StackBounds) :
    records.length - 1 - exitingRecordIndex records key tailCalled bounds =
      deadAtExit records key tailCalled bounds := by
  cases hrecords : records with
  | nil => exact absurd hrecords hne
  | cons top rest =>
    by_cases hon : onThreadStack bounds (Keyed.key top).level = true ∧
        onThreadStack bounds key.level = true
    · obtain ⟨htop, hkey⟩ := hon
      by_cases hsite : ((top :: rest).any fun r => sameActivationSite r key) = true
      · obtain ⟨hrun, hwithin⟩ := run_of_any hsite
        have hbest := bestInRun_lt hrun key.level tailCalled
        have hfound : (List.takeWhile (fun r => !sameActivationSite r key) (top :: rest)).length ≠
            (top :: rest).length := by
          rw [Ne, Scan.length_takeWhile_eq_iff]
          obtain ⟨r, hr, hsame⟩ := List.any_eq_true.mp hsite
          intro hall
          have hr' := hall r hr
          simp [hsame] at hr'
        have hdead : deadAtExit (top :: rest) key tailCalled bounds =
            (List.takeWhile (fun r => !sameActivationSite r key) (top :: rest)).length +
              bestInRun (((top :: rest).dropWhile fun r => !sameActivationSite r key).takeWhile
                fun r => sameActivationSite r key) key.level tailCalled := by
          simp only [deadAtExit, List.head?_cons, Option.any_some, htop, hkey, hsite, and_self, if_true]
        rw [hdead]
        simp only [exitingRecordIndex, htop, hkey, Bool.not_true, Bool.or_self, Bool.false_eq_true,
          if_false, hfound, Scan.drop_length_takeWhile]
        omega
      · have hnone : (List.takeWhile (fun r => !sameActivationSite r key) (top :: rest)).length =
            (top :: rest).length := by
          rw [Scan.length_takeWhile_eq_iff]
          intro r hr
          by_contra hsame
          exact hsite (List.any_eq_true.mpr ⟨r, hr, by simpa using hsame⟩)
        simp only [exitingRecordIndex, deadAtExit, hnone, hsite, htop, hkey, Bool.not_true,
          Bool.or_self, Bool.false_eq_true, if_false, if_true, and_false]
        omega
    · have hoff : (!onThreadStack bounds key.level || !onThreadStack bounds (Keyed.key top).level) =
          true := by
        rw [not_and_or] at hon
        rcases hon with h | h <;> simp [h]
      have hdead : deadAtExit (top :: rest) key tailCalled bounds = 0 := by
        rw [deadAtExit]
        rw [if_neg]
        rintro ⟨htop, hkey, -⟩
        exact hon ⟨by simpa using htop, hkey⟩
      simp only [exitingRecordIndex, hoff, if_true, hdead]
      omega

/-- No record of another call site stands between the topmost record of the frame's site and what
is under `above`. -/
def siteContiguous (above : List ρ) (key : FrameKey) : Bool :=
  (above.dropWhile fun r => !sameActivationSite r key).all fun r => sameActivationSite r key

/-- No other record of the run lies between the frame's own record and the level its tail-called
hook resolved to. -/
def ClosestInRun (own : ρ) (below : List ρ) (key : FrameKey) : Prop :=
  ∀ r ∈ below.takeWhile fun r => sameActivationSite r key,
    (Keyed.key r).level < key.level → (Keyed.key r).level ≤ (Keyed.key own).level

/-- An exit finds the record of its own frame exactly when the records of its site that stand above
that record are contiguous with it, and a tail-called one when its record is moreover the closest. -/
theorem deadAtExit_eq_length_iff {above below : List ρ} {own : ρ} {tailCalled : Bool}
    (hon : ((above ++ own :: below).head?.any fun top => onThreadStack bounds (Keyed.key top).level) =
      true)
    (hkey : onThreadStack bounds key.level = true) (hsite : sameActivationSite own key = true)
    (habove : ∀ r ∈ above, (Keyed.key r).level < (Keyed.key own).level)
    (hlevel : if tailCalled then (Keyed.key own).level < key.level else (Keyed.key own).level = key.level) :
    deadAtExit (above ++ own :: below) key tailCalled bounds = above.length ↔
      siteContiguous above key = true ∧ (tailCalled = true → ClosestInRun own below key) := by
  have hany : ((above ++ own :: below).any fun r => sameActivationSite r key) = true :=
    List.any_eq_true.mpr ⟨own, by simp, hsite⟩
  have hstop : ∀ r ∈ (own :: below).head?, (!sameActivationSite r key) = false := by
    intro r hr
    obtain rfl : own = r := Option.some.inj hr
    rw [hsite, Bool.not_true]
  have hskip : (above ++ own :: below).takeWhile (fun r => !sameActivationSite r key) =
      above.takeWhile fun r => !sameActivationSite r key := Scan.takeWhile_append_of_head hstop
  have hdrop : (above ++ own :: below).dropWhile (fun r => !sameActivationSite r key) =
      (above.dropWhile fun r => !sameActivationSite r key) ++ own :: below := Scan.dropWhile_append_of_head hstop
  have hdead : deadAtExit (above ++ own :: below) key tailCalled bounds =
      (above.takeWhile fun r => !sameActivationSite r key).length +
        bestInRun (((above.dropWhile fun r => !sameActivationSite r key) ++ own :: below).takeWhile
          fun r => sameActivationSite r key) key.level tailCalled := by
    rw [deadAtExit, if_pos ⟨hon, hkey, hany⟩, hskip, hdrop]
  have hsplit := congrArg List.length
    (List.takeWhile_append_dropWhile (p := fun r => !sameActivationSite r key) (l := above))
  rw [List.length_append] at hsplit
  rw [hdead, siteContiguous]
  generalize hrun : (above.dropWhile fun r => !sameActivationSite r key) = run at hsplit ⊢
  have hlower : ∀ r ∈ run, (Keyed.key r).level < (Keyed.key own).level := by
    intro r hr
    rw [← hrun] at hr
    exact habove r ((List.dropWhile_suffix _).subset hr)
  by_cases hall : (run.all fun r => sameActivationSite r key) = true
  · have hwhole : (run ++ own :: below).takeWhile (fun r => sameActivationSite r key) =
        run ++ own :: below.takeWhile fun r => sameActivationSite r key := by
      rw [List.takeWhile_append_of_pos (List.all_eq_true.mp hall), List.takeWhile_cons, hsite]
      rfl
    rw [hwhole]
    cases tailCalled with
    | false =>
      have hown : (Keyed.key own).level = key.level := by simpa using hlevel
      rw [← hown, bestInRun_called hlower]
      simp only [hall, Bool.false_eq_true, false_implies, and_self, iff_true]
      omega
    | true =>
      have hown : (Keyed.key own).level < key.level := by simpa using hlevel
      have hiff := bestInRun_tailCalled_iff
        (below.takeWhile fun r => sameActivationSite r key) hown hlower
      rw [ClosestInRun, ← hiff]
      simp only [hall, true_and, true_implies]
      omega
  · have hcut : (run ++ own :: below).takeWhile (fun r => sameActivationSite r key) =
        run.takeWhile fun r => sameActivationSite r key := Scan.takeWhile_append_of_not_all hall
    have hshort : (run.takeWhile fun r => sameActivationSite r key).length < run.length := by
      refine Nat.lt_of_le_of_ne (List.takeWhile_prefix _).length_le fun hlen => ?_
      exact hall (List.all_eq_true.mpr (Scan.length_takeWhile_eq_iff.mp hlen))
    have hne : (run.takeWhile fun r => sameActivationSite r key) ≠ [] := by
      cases hcons : run with
      | nil => simp [hcons] at hall
      | cons r rest =>
        have hr : sameActivationSite r key = true := by
          simpa using Scan.head_dropWhile (hrun.trans hcons)
        simp [hr]
    have hbest := bestInRun_lt hne key.level tailCalled
    rw [hcut]
    constructor
    · intro hlen
      omega
    · intro hcontiguous
      exact absurd hcontiguous.1 hall

/-- With nothing above it the frame's own record is found. -/
lemma deadAtExit_top {below : List ρ} {own : ρ} {tailCalled : Bool}
    (hsite : sameActivationSite own key = true)
    (hlevel : onThreadStack bounds (Keyed.key own).level = true → onThreadStack bounds key.level = true →
      if tailCalled then (Keyed.key own).level < key.level else (Keyed.key own).level = key.level)
    (hclosest : tailCalled = true → onThreadStack bounds (Keyed.key own).level = true →
      onThreadStack bounds key.level = true → ClosestInRun own below key) :
    deadAtExit (own :: below) key tailCalled bounds = 0 := by
  by_cases hon : onThreadStack bounds (Keyed.key own).level = true ∧ onThreadStack bounds key.level = true
  · have hiff : deadAtExit ([] ++ own :: below) key tailCalled bounds = ([] : List ρ).length ↔ _ :=
      deadAtExit_eq_length_iff (by simpa using hon.1) hon.2 hsite (by simp) (hlevel hon.1 hon.2)
    exact hiff.mpr ⟨rfl, fun htail => hclosest htail hon.1 hon.2⟩
  · rw [deadAtExit]
    rw [if_neg]
    rintro ⟨htop, hkey, -⟩
    exact hon ⟨by simpa using htop, hkey⟩

/-- What stands at a place of a run stands in the records as far behind the run's start. -/
lemma getElem?_of_run {r : ρ} {j : Nat}
    (h : ((records.dropWhile fun r => !sameActivationSite r key).takeWhile
      fun r => sameActivationSite r key)[j]? = some r) :
    records[(records.takeWhile fun r => !sameActivationSite r key).length + j]? = some r := by
  obtain ⟨tail, htail⟩ := List.takeWhile_prefix (fun r => sameActivationSite r key)
    (l := records.dropWhile fun r => !sameActivationSite r key)
  rw [← List.getElem?_drop, Scan.drop_length_takeWhile, ← htail,
    List.getElem?_append_left (List.getElem?_eq_some_iff.mp h).1, h]

/-- An exit never reaches past the frame's own record, except for a record below the level its
tail-called hook resolved to. -/
lemma deadAtExit_cases {above below : List ρ} {own : ρ} {tailCalled : Bool}
    (hsite : sameActivationSite own key = true)
    (hlevel : tailCalled = false → (Keyed.key own).level = key.level) :
    deadAtExit (above ++ own :: below) key tailCalled bounds ≤ above.length ∨
      ∃ r, (above ++ own :: below)[deadAtExit (above ++ own :: below) key tailCalled bounds]? = some r ∧
        (Keyed.key r).level < key.level := by
  have hstart : ((above ++ own :: below).takeWhile fun r => !sameActivationSite r key).length ≤
      above.length := by
    have hstop : ∀ r ∈ (own :: below).head?, (!sameActivationSite r key) = false := by
      intro r hr
      obtain rfl : own = r := Option.some.inj hr
      rw [hsite, Bool.not_true]
    rw [Scan.takeWhile_append_of_head hstop]
    exact (List.takeWhile_prefix _).length_le
  rw [deadAtExit]
  split_ifs with hguard
  · have hget : ∀ (j : Nat) (r : ρ), (((above ++ own :: below).dropWhile fun r =>
        !sameActivationSite r key).takeWhile fun r => sameActivationSite r key)[j]? = some r →
          (above ++ own :: below)[((above ++ own :: below).takeWhile fun r =>
            !sameActivationSite r key).length + j]? = some r :=
      fun j r hr => getElem?_of_run hr
    generalize ((above ++ own :: below).takeWhile fun r => !sameActivationSite r key).length = start
      at hstart hget ⊢
    generalize (((above ++ own :: below).dropWhile fun r => !sameActivationSite r key).takeWhile
      fun r => sameActivationSite r key) = run at hget ⊢
    cases tailCalled with
    | true =>
      rcases closestBelow_cases run key.level 0 none with hnone | ⟨j, r, hr, hbelow, hsome⟩
      · exact .inl (by simpa [bestInRun, hnone] using hstart)
      · exact .inr ⟨r, by simpa [bestInRun, hsome] using hget j r hr, hbelow⟩
    | false =>
      left
      cases hfound : run.findIdx? fun record => (Keyed.key record).level == key.level with
      | none => simpa [bestInRun, hfound] using hstart
      | some j =>
        obtain ⟨hj, -, hfirst⟩ := List.findIdx?_eq_some_iff_getElem.mp hfound
        by_contra hpast
        simp only [bestInRun, hfound, Bool.false_eq_true, if_false, Option.getD_some] at hpast
        have hown : run[above.length - start]? = some own := by
          have hlt : above.length - start < run.length := by omega
          have hsame := hget _ _ (List.getElem?_eq_getElem hlt)
          rw [Nat.add_sub_cancel' hstart] at hsame
          rw [List.getElem?_eq_getElem hlt, ← hsame]
          simp
        obtain ⟨hlt, hown'⟩ := List.getElem?_eq_some_iff.mp hown
        exact hfirst (above.length - start) (by omega) (by rw [hown']; simpa using hlevel rfl)
  · exact .inl (Nat.zero_le _)

end CallStackLogger
