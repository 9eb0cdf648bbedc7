import CallStackLogger.Core.Run
import CallStackLogger.Trace.Steps

/-!
# Records off the thread's own stack

Frames of fibers, coroutines and signal handlers on a stack of their own share the one record stack of
their thread. An enter and a catch stop at the first such record and an exit stops when one is on top,
but an exit that starts out does not stop at one further down. `off_stack_untouched_iff` is the exact
condition.
-/

namespace CallStackLogger

open Run

variable {ρ : Type*} [Keyed ρ] {records run pre post : List ρ} {key : FrameKey} {level : Addr}
  {tailCalled : Bool} {bounds : StackBounds}

/-! ### How far an exit reaches into its run -/

/-- An exit that resolved to `level` takes `r` for its own rather than `x`. -/
def Beats (level : Addr) (tailCalled : Bool) (r x : ρ) : Prop :=
  if tailCalled then
    (Keyed.key r).level < level ∧ ((Keyed.key x).level < level → (Keyed.key x).level < (Keyed.key r).level)
  else (Keyed.key r).level = level ∧ (Keyed.key x).level ≠ level

lemma closestBelow_append_run (pre post : List ρ) (level : Addr) (i : Nat) (best : Option (Nat × Addr)) :
    closestBelow level (pre ++ post) i best =
      closestBelow level post (i + pre.length) (closestBelow level pre i best) := by
  induction pre generalizing i best with
  | nil => rfl
  | cons r pre ih =>
    rw [List.cons_append, closestBelow, closestBelow, ih, List.length_cons, Nat.add_assoc,
      Nat.add_comm 1]

/-- A scan that finds nothing has seen nothing below the level. -/
lemma not_lt_of_closestBelow_eq_none {i : Nat} (h : closestBelow level run i none = none) :
    ∀ r ∈ run, ¬ (Keyed.key r).level < level := by
  induction run generalizing i with
  | nil => simp
  | cons r run ih =>
    simp only [closestBelow, Option.all_none, and_true] at h
    split_ifs at h with hbelow
    · rcases closestBelow_cases run level (i + 1) (some (i, (Keyed.key r).level)) with
        hsame | ⟨j, r', -, -, hsome⟩
      · exact absurd (hsame.symm.trans h) (by simp)
      · exact absurd (hsome.symm.trans h) (by simp)
    · exact List.forall_mem_cons.mpr ⟨hbelow, ih h⟩

/-- The scan goes on past `pre` exactly when something below beats all of it. -/
lemma le_bestInRun_tailCalled_iff (hpre : pre ≠ []) :
    pre.length ≤ bestInRun (pre ++ post) level true ↔ ∃ r ∈ post, ∀ x ∈ pre, Beats level true r x := by
  have hpos : 0 < pre.length := List.length_pos_iff.mpr hpre
  have hscan := closestBelow_append_run pre post level 0 none
  rw [Nat.zero_add] at hscan
  simp only [bestInRun, if_true, hscan, Beats]
  rcases closestBelow_cases pre level 0 none with hnone | ⟨j, own, hown, hbelow, hsome⟩
  · have hpreAbove := not_lt_of_closestBelow_eq_none hnone
    rw [hnone]
    rcases closestBelow_cases post level pre.length none with hsame | ⟨j, r, hr, hbelow, hsome⟩
    · have hpostAbove := not_lt_of_closestBelow_eq_none hsame
      rw [hsame]
      refine iff_of_false (Nat.not_le.mpr hpos) ?_
      rintro ⟨r, hr, hbeats⟩
      obtain ⟨x, hx⟩ := List.exists_mem_of_ne_nil pre hpre
      exact hpostAbove r hr (hbeats x hx).1
    · rw [hsome]
      exact iff_of_true (Nat.le_add_right _ _) ⟨r, List.mem_of_getElem? hr, fun x hx =>
        ⟨hbelow, fun hlt => absurd hlt (hpreAbove x hx)⟩⟩
  · rw [hsome]
    obtain ⟨hj, -⟩ := List.getElem?_eq_some_iff.mp hown
    have hclosest := (le_of_closestBelow hsome).2
    by_cases hlower : ∀ r ∈ post, (Keyed.key r).level < level → (Keyed.key r).level ≤ (Keyed.key own).level
    · rw [closestBelow_some_of_forall hlower]
      refine iff_of_false (by simpa using hj) ?_
      rintro ⟨r, hr, hbeats⟩
      obtain ⟨hrbelow, hcloser⟩ := hbeats own (List.mem_of_getElem? hown)
      exact absurd (hcloser hbelow) (Nat.not_lt.mpr (hlower r hr hrbelow))
    · obtain ⟨r, hr, hrbelow, hcloser⟩ : ∃ r ∈ post, (Keyed.key r).level < level ∧
          ¬ (Keyed.key r).level ≤ (Keyed.key own).level := by simpa using hlower
      rcases closestBelow_cases post level pre.length (some (0 + j, (Keyed.key own).level)) with
        hsame | ⟨j', r', hr', hbelow', hsome'⟩
      · exact absurd ((le_of_closestBelow hsame).2 r hr hrbelow) hcloser
      · have hbest : (Keyed.key r).level ≤ (Keyed.key r').level := (le_of_closestBelow hsome').2 r hr hrbelow
        rw [hsome']
        refine iff_of_true (Nat.le_add_right _ _) ⟨r', List.mem_of_getElem? hr', fun x hx =>
          ⟨hbelow', fun hlt => ?_⟩⟩
        calc (Keyed.key x).level ≤ (Keyed.key own).level := hclosest x hx hlt
          _ < (Keyed.key r).level := Nat.not_le.mp hcloser
          _ ≤ (Keyed.key r').level := hbest

lemma le_bestInRun_called_iff (hpre : pre ≠ []) :
    pre.length ≤ bestInRun (pre ++ post) level false ↔ ∃ r ∈ post, ∀ x ∈ pre, Beats level false r x := by
  have hpos : 0 < pre.length := List.length_pos_iff.mpr hpre
  simp only [bestInRun, Beats, Bool.false_eq_true, if_false, List.findIdx?_append]
  cases hfirst : pre.findIdx? fun record => (Keyed.key record).level == level with
  | some j =>
    obtain ⟨hj, hlevel, -⟩ := List.findIdx?_eq_some_iff_getElem.mp hfirst
    refine iff_of_false (by simpa using hj) ?_
    rintro ⟨r, -, hbeats⟩
    exact (hbeats pre[j] (List.getElem_mem hj)).2 (by simpa using hlevel)
  | none =>
    have hpreOther : ∀ x ∈ pre, (Keyed.key x).level ≠ level := by
      simpa using List.findIdx?_eq_none_iff.mp hfirst
    cases hnext : post.findIdx? fun record => (Keyed.key record).level == level with
    | some j =>
      obtain ⟨hj, hlevel, -⟩ := List.findIdx?_eq_some_iff_getElem.mp hnext
      exact iff_of_true (by simp) ⟨post[j], List.getElem_mem hj, fun x hx =>
        ⟨by simpa using hlevel, hpreOther x hx⟩⟩
    | none =>
      have hpostOther : ∀ r ∈ post, (Keyed.key r).level ≠ level := by
        simpa using List.findIdx?_eq_none_iff.mp hnext
      refine iff_of_false (by simpa using hpre) ?_
      rintro ⟨r, hr, hbeats⟩
      obtain ⟨x, hx⟩ := List.exists_mem_of_ne_nil pre hpre
      exact hpostOther r hr (hbeats x hx).1

/-- An exit reaches past the upper part of a run exactly when a record below beats all of that. -/
lemma le_bestInRun_iff (hpre : pre ≠ []) :
    pre.length ≤ bestInRun (pre ++ post) level tailCalled ↔
      ∃ r ∈ post, ∀ x ∈ pre, Beats level tailCalled r x := by
  cases tailCalled with
  | true => exact le_bestInRun_tailCalled_iff hpre
  | false => exact le_bestInRun_called_iff hpre

/-! ### What the rules count -/

/-- The topmost run of records of a call site. -/
def siteRun (records : List ρ) (key : FrameKey) : List ρ :=
  (records.dropWhile fun r => !sameActivationSite r key).takeWhile fun r => sameActivationSite r key

/-- No record off the thread stack lies above the topmost record of the exiting frame's call site, nor in
the run of that call site above one that beats everything down to it. -/
structure ClearOfOffStack (records : List ρ) (key : FrameKey) (tailCalled : Bool) (bounds : StackBounds) :
    Prop where
  above : ∀ r ∈ records.takeWhile fun r => !sameActivationSite r key,
    onThreadStack bounds (Keyed.key r).level = true
  within : ∀ pre q post, siteRun records key = pre ++ q :: post →
    onThreadStack bounds (Keyed.key q).level = false →
      ∀ r ∈ post, ∃ x ∈ pre ++ [q], ¬ Beats key.level tailCalled r x

lemma onThreadStack_of_deadOnEnter {r : ρ} (hr : r ∈ records.take (deadRecordsOnEnter records key bounds)) :
    onThreadStack bounds (Keyed.key r).level = true := by
  rw [deadRecordsOnEnter] at hr
  split_ifs at hr
  · have hpass := Scan.forall_mem_take_length_takeWhile hr
    exact (Bool.and_eq_true_iff.mp hpass).1
  · simp at hr

lemma onThreadStack_of_deadOnCatch {r : ρ}
    (hr : r ∈ records.take (deadRecordsOnCatch records level bounds)) :
    onThreadStack bounds (Keyed.key r).level = true := by
  rw [deadRecordsOnCatch] at hr
  split_ifs at hr
  · have hpass := Scan.forall_mem_take_length_takeWhile hr
    exact (Bool.and_eq_true_iff.mp hpass).1
  · simp at hr

lemma take_add_bestInRun (hsite : (records.any fun r => sameActivationSite r key) = true) (level : Addr)
    (tailCalled : Bool) :
    records.take ((records.takeWhile fun r => !sameActivationSite r key).length +
        bestInRun (siteRun records key) level tailCalled) =
      (records.takeWhile fun r => !sameActivationSite r key) ++
        (siteRun records key).take (bestInRun (siteRun records key) level tailCalled) := by
  have hlt : bestInRun (siteRun records key) level tailCalled < (siteRun records key).length :=
    bestInRun_lt (run_of_any hsite).1 level tailCalled
  conv_lhs =>
    enter [2]
    rw [← List.takeWhile_append_dropWhile (p := fun r => !sameActivationSite r key) (l := records),
      ← List.takeWhile_append_dropWhile (p := fun r => sameActivationSite r key)
        (l := records.dropWhile fun r => !sameActivationSite r key)]
  rw [List.take_length_add_append, ← siteRun, List.take_append_of_le_length (Nat.le_of_lt hlt)]

/-- What an exit takes of a run lies on the thread stack exactly when no record of the run that is off
it is above one that beats everything down to it. -/
lemma onThreadStack_of_bestInRun_iff :
    (∀ r ∈ run.take (bestInRun run level tailCalled), onThreadStack bounds (Keyed.key r).level = true) ↔
      ∀ pre q post, run = pre ++ q :: post → onThreadStack bounds (Keyed.key q).level = false →
        ∀ r ∈ post, ∃ x ∈ pre ++ [q], ¬ Beats level tailCalled r x := by
  constructor
  · rintro hon pre q post rfl hoff r hr
    by_contra hbeats
    have hreach : (pre ++ [q]).length ≤ bestInRun (pre ++ [q] ++ post) level tailCalled :=
      (le_bestInRun_iff (by simp)).mpr ⟨r, hr, fun x hx => not_not.mp fun hnot => hbeats ⟨x, hx, hnot⟩⟩
    rw [List.append_assoc, List.singleton_append] at hreach
    have hq : q ∈ (pre ++ q :: post).take (pre ++ [q]).length := by simp [List.take_append]
    have htrue := hon q (List.take_subset_take_left _ hreach hq)
    exact absurd (htrue.symm.trans hoff) (by simp)
  · intro hclear q hq
    obtain ⟨i, hi, rfl⟩ := List.mem_take_iff_getElem.mp hq
    obtain ⟨hreach, hlength⟩ := Nat.lt_min.mp hi
    by_contra hoff
    have hsplit : run = run.take i ++ run[i] :: run.drop (i + 1) := by
      rw [← List.drop_eq_getElem_cons, List.take_append_drop]
    have hfirst : run.take i ++ [run[i]] ++ run.drop (i + 1) = run := by
      rw [List.append_assoc, List.singleton_append, ← hsplit]
    have hle : (run.take i ++ [run[i]]).length ≤
        bestInRun (run.take i ++ [run[i]] ++ run.drop (i + 1)) level tailCalled := by
      rw [hfirst, List.length_append, List.length_take, Nat.min_eq_left (Nat.le_of_lt hlength)]
      exact hreach
    have hne : run.take i ++ [run[i]] ≠ [] := List.concat_ne_nil _ _
    obtain ⟨r, hr, hbeats⟩ := (le_bestInRun_iff hne).mp hle
    obtain ⟨x, hx, hnot⟩ := hclear _ _ _ hsplit (by simpa using hoff) r hr
    exact hnot (hbeats x hx)

/-- An exit counts no record off the thread stack exactly when none is in its way. -/
lemma onThreadStack_of_deadAtExit_iff :
    (∀ r ∈ records.take (deadAtExit records key tailCalled bounds),
        onThreadStack bounds (Keyed.key r).level = true) ↔
      (onThreadStack bounds key.level = true →
        (∀ top ∈ records.head?, onThreadStack bounds (Keyed.key top).level = true) →
        (∃ r ∈ records, sameActivationSite r key = true) →
          ClearOfOffStack records key tailCalled bounds) := by
  by_cases hstart : onThreadStack bounds key.level = true ∧
      (∀ top ∈ records.head?, onThreadStack bounds (Keyed.key top).level = true) ∧
      ∃ r ∈ records, sameActivationSite r key = true
  · obtain ⟨hkey, htop, hsite⟩ := hstart
    have hany : (records.any fun r => sameActivationSite r key) = true := List.any_eq_true.mpr hsite
    have htopAny : (records.head?.any fun top => onThreadStack bounds (Keyed.key top).level) = true := by
      cases records with
      | nil => simp at hany
      | cons top rest => simpa using htop
    rw [deadAtExit, if_pos ⟨htopAny, hkey, hany⟩, ← siteRun, take_add_bestInRun hany]
    simp only [List.forall_mem_append, onThreadStack_of_bestInRun_iff]
    constructor
    · rintro ⟨habove, hwithin⟩ - - -
      exact ⟨habove, hwithin⟩
    · intro hclear
      exact ⟨(hclear hkey htop hsite).above, (hclear hkey htop hsite).within⟩
  · refine iff_of_true ?_ fun hkey htop hsite => absurd ⟨hkey, htop, hsite⟩ hstart
    rw [deadAtExit, if_neg]
    · simp
    · rintro ⟨htop, hkey, hsite⟩
      refine hstart ⟨hkey, fun top hhead => ?_, List.any_eq_true.mp hsite⟩
      rw [Option.mem_def.mp hhead] at htop
      exact htop

lemma onThreadStack_of_exitingRecordIndex_iff :
    (∀ r ∈ records.take (records.length - 1 - exitingRecordIndex records key tailCalled bounds),
        onThreadStack bounds (Keyed.key r).level = true) ↔
      (onThreadStack bounds key.level = true →
        (∀ top ∈ records.head?, onThreadStack bounds (Keyed.key top).level = true) →
        (∃ r ∈ records, sameActivationSite r key = true) →
          ClearOfOffStack records key tailCalled bounds) := by
  by_cases hne : records = []
  · subst hne
    simp
  · rw [deadAtExit_eq hne]
    exact onThreadStack_of_deadAtExit_iff

/-! ### What the hooks reclaim -/

variable {s : ThreadState}

lemma enterDead_of_offStack {e : EnterCall} (hoff : onThreadStack s.stackBounds e.level = false) :
    s.enterDead e = 0 := by
  have hdead : s.deadOnEnter e = 0 :=
    deadOnEnter_eq_zero fun r _ hkey _ => absurd (hkey.symm.trans hoff) (by simp)
  have hparent (base : Option Text) : parentDead s.frames e.key s.stackBounds base = 0 := by
    have hkey : onThreadStack s.stackBounds e.key.level = false := hoff
    unfold parentDead
    split
    · simp [hkey]
    · rfl
  rw [ThreadState.enterDead]
  split_ifs
  · rfl
  · cases s.loggedView e with
    | none => exact hdead
    | some view => simp only [hdead, List.drop_zero, hparent]

/-- The frames of another stack are left alone by the level rules. -/
structure OffStackUntouched (b : Build) (s : ThreadState) (e : EnterCall) (catchLevel : Addr)
    (x : ExitCall) : Prop where
  onEnter : ∀ r ∈ s.frames.take (deadRecordsOnEnter s.frames e.key s.stackBounds),
    onThreadStack s.stackBounds r.level = true
  onCatch : ∀ r ∈ s.frames.take (deadRecordsOnCatch s.frames catchLevel s.stackBounds),
    onThreadStack s.stackBounds r.level = true
  onExit : ∀ r ∈ s.frames.take (s.frames.length - 1 - s.exitIndex x),
    onThreadStack s.stackBounds r.level = true
  enterOff : onThreadStack s.stackBounds e.level = false →
    (s.cygProfileFuncEnter b e).frames = s.frames ∨
      ∃ r, (s.cygProfileFuncEnter b e).frames = r :: s.frames
  exitOff : onThreadStack s.stackBounds x.level = false →
    (s.cygProfileFuncExit b x).frames = s.frames ∨
      ∃ own, s.frames = own :: (s.cygProfileFuncExit b x).frames

lemma enter_of_offStack (b : Build) {e : EnterCall} (hoff : onThreadStack s.stackBounds e.level = false) :
    (s.cygProfileFuncEnter b e).frames = s.frames ∨
      ∃ r, (s.cygProfileFuncEnter b e).frames = r :: s.frames := by
  obtain ⟨-, ⟨-, hcount⟩ | ⟨-, -, r, -, hframes⟩⟩ := (enterStep b e s).frames_eq
  · left
    show (s.enterFrame b e).frames = s.frames
    rw [hcount]
    rfl
  · rw [enterDead_of_offStack hoff] at hframes
    exact .inr ⟨r, hframes⟩

lemma exit_of_offStack (b : Build) {x : ExitCall} (hoff : onThreadStack s.stackBounds x.level = false) :
    (s.cygProfileFuncExit b x).frames = s.frames ∨
      ∃ own, s.frames = own :: (s.cygProfileFuncExit b x).frames := by
  rcases (exitStep b x s).frames_cases with ⟨-, hframes⟩ | ⟨-, hframes⟩
  · exact .inl hframes
  · cases hs : s.frames with
    | nil => exact .inl (hframes.trans (by simp [hs]))
    | cons own rest =>
      have hdead : s.aboveExiting x = 0 := by
        rw [aboveExiting_eq (by simp [hs]), deadAtExit, if_neg]
        rintro ⟨-, hkey, -⟩
        exact absurd (hkey.symm.trans hoff) (by simp)
      rw [hs, hdead] at hframes
      exact .inr ⟨own, congrArg (List.cons own) hframes.symm⟩

/-- The level rules leave the frames of another stack alone exactly when no record of such a frame is in
the way of an exit that starts out on the thread stack. -/
theorem off_stack_untouched_iff (b : Build) (s : ThreadState) (e : EnterCall) (catchLevel : Addr)
    (x : ExitCall) :
    OffStackUntouched b s e catchLevel x ↔
      (onThreadStack s.stackBounds x.level = true →
        (∀ top ∈ s.frames.head?, onThreadStack s.stackBounds top.level = true) →
        (∃ r ∈ s.frames, sameActivationSite r x.key = true) →
          ClearOfOffStack s.frames x.key x.tailCalled s.stackBounds) := by
  constructor
  · intro h
    exact onThreadStack_of_exitingRecordIndex_iff.mp h.onExit
  · intro hclear
    exact ⟨fun r hr => onThreadStack_of_deadOnEnter hr, fun r hr => onThreadStack_of_deadOnCatch hr,
      onThreadStack_of_exitingRecordIndex_iff.mpr hclear, enter_of_offStack b, exit_of_offStack b⟩

/-- `resume` runs a coroutine that yields and then calls `step`, which a jump leaves. -/
def coroutineThread : ThreadState :=
  exec (hookStep ⟨false, false, false⟩) (.fresh ⟨16, 4096, true⟩ [])
    [.enter (.plain ⟨1, 10, 1000⟩ [] (.named "resume".toList none)),
     .enter (.plain ⟨2, 20, 9000⟩ [] (.named "coroutine".toList none)),
     .enter (.plain ⟨3, 30, 900⟩ [] (.named "step".toList none))]

/-- The exit of `resume` takes the record of the coroutine with it. -/
theorem coroutine_reclaimed :
    ¬ OffStackUntouched ⟨false, false, false⟩ coroutineThread (.plain ⟨3, 30, 900⟩ [] .filtered) 1000
      (.plain ⟨1, 10, 1000⟩ 11) := by
  intro h
  have hcoroutine := h.onExit ⟨⟨2, 20, 9000⟩, true, some "coroutine".toList, 0, 0, -1, 0, 1⟩ (by decide)
  exact absurd hcoroutine (by decide)

end CallStackLogger
