import CallStackLogger.Program.Exits
import CallStackLogger.Program.Overflow
import CallStackLogger.Trace.Levels
import CallStackLogger.Trace.Depth

/-!
# The tree after non-local exits

The records of the frames being executed are a lower part of the record stack: what lies above it
was left behind by non-local exits. An enter that reclaims all of that finds itself at its true
depth. It does so exactly when every record left behind has a lower level than the entering frame,
or shares its level with another caller or with the entering function itself.
-/

namespace CallStackLogger

open Run

variable {b : Build} {s : ThreadState} {w : World} {bounds : StackBounds}

/-! ### The reclaim steps as scans -/

/-- What the level step of an enter takes off the top. -/
def diesByLevel (bounds : StackBounds) (key : FrameKey) (r : FrameRecord) : Bool :=
  onThreadStack bounds r.level && (deeper r key || reusedSlot r key)

/-- What a re-entry from the same site takes off the top. -/
def diesByReentry (key : FrameKey) (r : FrameRecord) : Bool :=
  sameActivationSite r key && r.level == key.level

/-- With a chain that names the entering function alone, the first two reclaim steps are two scans. -/
lemma drop_deadOnEnter {e : EnterCall} {base : Text} (hchain : e.inlineChain = some [base])
    (hkey : onThreadStack s.stackBounds e.key.level = true) :
    s.frames.drop (s.deadOnEnter e) =
      (s.frames.dropWhile (diesByLevel s.stackBounds e.key)).dropWhile (diesByReentry e.key) := by
  have hlevel : s.frames.drop (deadRecordsOnEnter s.frames e.key s.stackBounds) =
      s.frames.dropWhile (diesByLevel s.stackBounds e.key) := by
    rw [deadRecordsOnEnter, if_pos hkey]
    exact Scan.drop_length_takeWhile _ _
  simp only [ThreadState.deadOnEnter, hchain, Option.getD_some]
  rw [← List.drop_drop, hlevel]
  generalize s.frames.dropWhile (diesByLevel s.stackBounds e.key) = frames
  have hdead : inlinedDeadOnEnter frames e.key s.stackBounds [base] =
      (frames.takeWhile (diesByReentry e.key)).length := by
    rw [inlinedDeadOnEnter]
    split_ifs with hgroup
    · rfl
    · refine (Scan.length_takeWhile_eq_zero fun r hr => ?_).symm
      have hhead : (r.level == e.key.level) = false := by
        by_contra hlevel
        refine hgroup ⟨?_, by simp⟩
        simp only [groupOnTop, Bool.and_eq_true, Option.mem_def.mp hr, Option.any_some]
        exact ⟨Bool.eq_true_of_not_eq_false hlevel, hkey⟩
      simp only [diesByReentry, hhead, Bool.and_false]
  rw [hdead, Scan.drop_length_takeWhile]

/-- What the parent's step pops, and the record it stops at, share a level. -/
lemma parentDead_group {frames : List FrameRecord} {key : FrameKey} {parentBase : Option Text}
    (hpos : 0 < parentDead frames key bounds parentBase) :
    ∃ level, ∀ i ≤ parentDead frames key bounds parentBase,
      ∃ r, frames[i]? = some r ∧ r.level = level := by
  unfold parentDead at hpos ⊢
  split at hpos
  · rename_i base top rest
    split_ifs at hpos ⊢
    · exact absurd hpos (Nat.lt_irrefl 0)
    · exact absurd hpos (Nat.lt_irrefl 0)
    · exact ⟨top.level, fun i hi => level_of_le_deadRecordsAboveMatch hpos hi⟩
  · exact absurd hpos (Nat.lt_irrefl 0)

/-! ### The run -/

/-- Out-of-line calls of functions that are resolvable and alone in their inline chain, and catches
by a frame that is being executed. -/
def OutOfLineAction (bounds : StackBounds) (w : World) (a : Action) : Prop :=
  OwnStackAction bounds w a ∧
    match a with
    | .call e _ => ∃ view, e.resolved = .found view ∧ e.inlineChain = some [view.calleeBaseName]
    | .caught c => ∀ f ∈ w.live, c.stepLevel ≤ f.key.level
    | _         => True

/-- An enter that gets a record leaves those of the frames being executed under it, and prints its
line at the number of logged ones among them. -/
def TreeExact (b : Build) (w : World) : Action → Prop
  | .call e site => w.tracer.overflows e = false →
      ∃ r, r.activation = w.tracer.entered ∧
        (w.act b (.call e site)).tracer.frames = r :: w.records ∧
        (r.logged = true → ∃ l ∈ (w.act b (.call e site)).tracer.traceFile.lines,
          l.activation = some r.activation ∧ l.depth = loggedCount w.records)
  | _            => True

/-- Every record left behind lies under the entering frame's level, or at it with another caller or
with the entering function as its own. -/
def LeftBehindReplaced (w : World) : Action → Prop
  | .call e _ => w.tracer.overflows e = false → ∀ r ∈ w.tracer.frames, r ∉ w.records →
      r.level < e.level ∨ (r.level = e.level ∧ (r.caller ≠ e.caller ∨ r.callee = e.callee))
  | _         => True

/-- The records of the frames being executed are what lies lowest on the record stack. -/
structure ExactTree (bounds : StackBounds) (w : World) : Prop extends OwnStack bounds w,
    CoversOverflow w where
  suffix : w.records <:+ w.tracer.frames
  depth : DepthExact w.tracer

/-- A rule that pops above a match does not reach into a part whose levels all differ. -/
lemma suffix_drop_deadRecordsAboveMatch {records frames : List FrameRecord} {level : Addr}
    {m : FrameRecord → Bool} (hsuffix : records <:+ frames)
    (hstrict : records.Pairwise fun upper lower => upper.level < lower.level) :
    records <:+ frames.drop (deadRecordsAboveMatch frames level m) := by
  obtain ⟨stale, rfl⟩ := hsuffix
  generalize hn : deadRecordsAboveMatch (stale ++ records) level m = n
  by_cases hle : n ≤ stale.length
  · rw [List.drop_append_of_le_length hle]
    exact List.suffix_append _ _
  · have hpos : 0 < deadRecordsAboveMatch (stale ++ records) level m := by omega
    obtain ⟨r, hr, hrlevel⟩ := level_of_le_deadRecordsAboveMatch hpos (i := stale.length) (by omega)
    obtain ⟨q, hq, hqlevel⟩ := level_of_le_deadRecordsAboveMatch hpos (i := n) (Nat.le_of_eq hn.symm)
    rw [List.getElem?_append_right (Nat.le_refl _), Nat.sub_self] at hr
    rw [List.getElem?_append_right (by omega)] at hq
    obtain ⟨hi, rfl⟩ := List.getElem?_eq_some_iff.mp hr
    obtain ⟨hj, rfl⟩ := List.getElem?_eq_some_iff.mp hq
    have hlt := List.pairwise_iff_getElem.mp hstrict 0 (n - stale.length) hi hj (by omega)
    exact absurd (hrlevel.trans hqlevel.symm) (Nat.ne_of_lt hlt)

namespace ExactTree

variable {e : EnterCall} {site : CallSite} {x : ExitCall} {c : EventCall} {stale : List FrameRecord}

/-- The records of the frames being executed have a level each. -/
lemma strict (h : ExactTree bounds w) :
    w.records.Pairwise fun upper lower => upper.level < lower.level :=
  (h.lower.sublist h.suffix.sublist).imp_of_mem fun _ hlower hlt => hlt hlower

lemma ne_of_stale (h : ExactTree bounds w) (hstale : stale ++ w.records = w.tracer.frames) :
    ∀ r ∈ stale, r ∉ w.records := by
  intro r hr hmem
  have hnewest := h.tracked.newest
  rw [← hstale] at hnewest
  exact Nat.lt_irrefl _ ((List.pairwise_append.mp hnewest).2.2 r hr r hmem)

/-- The entering frame lies under all frames being executed. -/
lemma level_lt (h : ExactTree bounds w) (ha : OutOfLineAction bounds w (.call e site)) :
    ∀ r ∈ w.records, e.level < r.level := by
  intro r hr
  obtain ⟨f, hf, hrecord⟩ := List.mem_filterMap.mp hr
  have hlt := ha.1.2.2 f hf ha.1.2.1 (h.liveOnStack f hf)
  rwa [← h.live.record f hf r hrecord] at hlt

/-- The first two reclaim steps take off a part of what was left behind. -/
lemma drop_deadOnEnter_eq (h : ExactTree bounds w) (ha : OutOfLineAction bounds w (.call e site))
    (hstale : stale ++ w.records = w.tracer.frames) :
    w.tracer.frames.drop (w.tracer.deadOnEnter e) =
      (stale.dropWhile (diesByLevel bounds e.key)).dropWhile (diesByReentry e.key) ++ w.records := by
  obtain ⟨view, -, hchain⟩ := ha.2
  rw [drop_deadOnEnter hchain (h.stack.bounds_eq ▸ ha.1.2.1), h.stack.bounds_eq, ← hstale]
  have hhead : ∀ r ∈ w.records.head?, e.key.level < r.level :=
    fun r hr => h.level_lt ha r (List.mem_of_mem_head? hr)
  rw [Scan.dropWhile_append_of_head, Scan.dropWhile_append_of_head]
  · intro r hr
    have hne : (r.level == e.key.level) = false := beq_eq_false_iff_ne.mpr (Nat.ne_of_gt (hhead r hr))
    simp [diesByReentry, hne]
  · intro r hr
    have hlt := hhead r hr
    have hne : (r.level == e.key.level) = false := beq_eq_false_iff_ne.mpr (Nat.ne_of_gt hlt)
    have hdeeper : deeper r e.key = false := by simpa [deeper] using Nat.le_of_lt hlt
    simp [diesByLevel, hdeeper, reusedSlot, hne]

/-- The first two reclaim steps leave nothing that was left behind exactly when all of it can be
told from the entering frame. -/
lemma stale_cleared_iff (h : ExactTree bounds w) (ha : OutOfLineAction bounds w (.call e site))
    (hstale : stale ++ w.records = w.tracer.frames) :
    (stale.dropWhile (diesByLevel bounds e.key)).dropWhile (diesByReentry e.key) = [] ↔
      ∀ r ∈ stale, r.level < e.level ∨
        (r.level = e.level ∧ (r.caller ≠ e.caller ∨ r.callee = e.callee)) := by
  rw [List.dropWhile_eq_nil_iff]
  constructor
  · intro hcleared r hr
    rw [← List.takeWhile_append_dropWhile (p := diesByLevel bounds e.key) (l := stale)] at hr
    rcases List.mem_append.mp hr with hlevel | hreentry
    · have hdies := List.mem_takeWhile_imp hlevel
      simp only [diesByLevel, deeper, reusedSlot, key_frameRecord, EnterCall.key, Bool.and_eq_true,
        Bool.or_eq_true, beq_iff_eq, bne_iff_ne] at hdies
      rcases hdies.2 with hlt | ⟨heq, hcaller⟩
      · exact .inl (of_decide_eq_true hlt)
      · exact .inr ⟨heq, .inl hcaller⟩
    · have hdies := hcleared r hreentry
      simp only [diesByReentry, sameActivationSite, key_frameRecord, EnterCall.key, Bool.and_eq_true,
        beq_iff_eq] at hdies
      exact .inr ⟨hdies.2, .inr hdies.1.1⟩
  · intro hreplaced r hr
    have hmem : r ∈ w.tracer.frames.drop (deadRecordsOnEnter w.tracer.frames e.key bounds) := by
      have hrest : r ∈ w.tracer.frames.dropWhile (diesByLevel bounds e.key) := by
        rw [← hstale, List.dropWhile_append]
        split_ifs with hnil
        · rw [List.isEmpty_iff.mp hnil] at hr
          exact absurd hr List.not_mem_nil
        · exact List.mem_append_left _ hr
      rw [deadRecordsOnEnter, if_pos (show onThreadStack bounds e.key.level = true from ha.1.2.1),
        Scan.drop_length_takeWhile]
      exact hrest
    obtain ⟨hle, hcaller⟩ := liesOver_of_deadRecordsOnEnter h.stack.ordered h.stack.onStack ha.1.2.1 r hmem
    rcases hreplaced r ((List.dropWhile_suffix _).subset hr) with hlt | ⟨heq, hother | hcallee⟩
    · exact absurd hle (Nat.not_le.mpr hlt)
    · exact absurd (hcaller heq.symm).symm hother
    · have hsame : r.caller = e.caller := (hcaller heq.symm).symm
      simp [diesByReentry, sameActivationSite, EnterCall.key, heq, hcallee, hsame]

/-- The parent's step does not make up for what the first two have left. -/
lemma drop_enterDead_eq_iff (h : ExactTree bounds w) (hover : w.tracer.overflows e = false) :
    w.tracer.frames.drop (w.tracer.enterDead e) = w.records ↔
      w.tracer.frames.drop (w.tracer.deadOnEnter e) = w.records := by
  have hlower := List.Pairwise.sublist (List.drop_sublist (w.tracer.deadOnEnter e) _) h.lower
  simp only [ThreadState.enterDead, hover, Bool.false_eq_true, if_false]
  rw [← List.drop_drop]
  generalize w.tracer.frames.drop (w.tracer.deadOnEnter e) = frames at hlower ⊢
  -- a group that reaches from the top down to a live record holds that record alone
  have halone : ∀ n, (frames.drop n = w.records ∨ frames = w.records) →
      (0 < n → ∃ level, ∀ i ≤ n, ∃ r, frames[i]? = some r ∧ r.level = level) → n = 0 := by
    intro n hlive hgroup
    by_contra hn
    obtain ⟨level, hsame⟩ := hgroup (Nat.pos_of_ne_zero hn)
    obtain ⟨top, htop, htoplevel⟩ := hsame 0 (Nat.zero_le n)
    obtain ⟨r, hr, hrlevel⟩ := hsame n (Nat.le_refl n)
    obtain ⟨hi, rfl⟩ := List.getElem?_eq_some_iff.mp htop
    obtain ⟨hj, rfl⟩ := List.getElem?_eq_some_iff.mp hr
    have hmem : frames[n] ∈ w.records := by
      rcases hlive with hdrop | hall
      · rw [← hdrop, List.drop_eq_getElem_cons hj]
        exact List.mem_cons_self
      · exact hall ▸ List.getElem_mem hj
    have hlt := List.pairwise_iff_getElem.mp hlower 0 n hi hj (Nat.pos_of_ne_zero hn) hmem
    exact absurd (htoplevel.trans hrlevel.symm) (Nat.ne_of_lt hlt)
  cases w.tracer.loggedView e with
  | none => rw [List.drop_zero]
  | some view =>
    change frames.drop (parentDead frames e.key w.tracer.stackBounds view.callerFunctionBase) =
      w.records ↔ frames = w.records
    constructor
    · intro hdrop
      rwa [halone _ (.inl hdrop) parentDead_group, List.drop_zero] at hdrop
    · intro hall
      rw [halone _ (.inr hall) parentDead_group, List.drop_zero, hall]

/-- An enter finds the tree exact exactly when what was left behind can be told from it. -/
lemma treeExact_iff {a : Action} (h : ExactTree bounds w) (ha : OutOfLineAction bounds w a) :
    TreeExact b w a ↔ LeftBehindReplaced w a := by
  cases a with
  | call e site =>
    obtain ⟨stale, hstale⟩ := h.suffix
    have hcleared := h.stale_cleared_iff ha hstale
    have hdrop := h.drop_deadOnEnter_eq ha hstale
    constructor
    · intro hexact hover r hr hdead
      obtain ⟨q, -, hframes, -⟩ := hexact hover
      have hrecords : w.tracer.frames.drop (w.tracer.enterDead e) = w.records := by
        rcases call_cases b w.tracer e site with ⟨hfull, -⟩ | ⟨q', -, -, hframes', -⟩
        · exact absurd (hfull.symm.trans hover) (by simp)
        · exact (List.cons.inj (hframes'.symm.trans hframes)).2
      rw [h.drop_enterDead_eq_iff hover, hdrop, List.append_left_eq_self] at hrecords
      refine hcleared.mp hrecords r ?_
      rcases List.mem_append.mp (hstale ▸ hr) with hr' | hlive
      · exact hr'
      · exact absurd hlive hdead
    · intro hreplaced hover
      have hrecords : w.tracer.frames.drop (w.tracer.enterDead e) = w.records := by
        rw [h.drop_enterDead_eq_iff hover, hdrop, List.append_left_eq_self]
        refine hcleared.mpr fun r hr => ?_
        exact hreplaced hover r (hstale ▸ List.mem_append_left _ hr) (h.ne_of_stale hstale r hr)
      rcases call_cases b w.tracer e site with ⟨hfull, -⟩ | ⟨r, -, hr, hframes, -⟩
      · exact absurd (hfull.symm.trans hover) (by simp)
      · rw [hrecords] at hframes
        refine ⟨r, hr.activation_eq, hframes, fun hlogged => ?_⟩
        exact (h.depth.step (b := b) (.enter e)).lines [] r w.records hframes hlogged
  | callPlain key site => exact Iff.rfl
  | leave x => exact Iff.rfl
  | leavePlain => exact Iff.rfl
  | jump n => exact Iff.rfl
  | thrown kind c => exact Iff.rfl
  | caught c => exact Iff.rfl
  | terminated reason c => exact Iff.rfl

/-! ### The lower part over one step -/

lemma hooksMatch {a : Action} (ha : OutOfLineAction bounds w a) : HooksMatch w a := by
  cases a with
  | leave x =>
    obtain ⟨⟨-, own, outer, hlive, hx⟩, -⟩ := ha
    exact ⟨own, by simp [hlive], hx.hooked⟩
  | leavePlain => exact ha.1.elim
  | call e site => trivial
  | callPlain key site => trivial
  | jump n => trivial
  | thrown kind c => trivial
  | caught c => trivial
  | terminated reason c => trivial

/-- An exit takes the innermost frame's record off the lower part, or leaves it behind. -/
lemma suffix_leave {own : Frame} {outer : List Frame} (h : ExactTree bounds w)
    (hlive : w.live = own :: outer) (hon : onThreadStack bounds x.level = true)
    (hx : ExitsFrom bounds own outer x) :
    (w.act b (.leave x)).records <:+ (w.act b (.leave x)).tracer.frames := by
  have hrecords : (w.act b (.leave x)).records = outer.filterMap Frame.record := by
    simp [World.records, World.liveAfter, hlive]
  have houter : outer.filterMap Frame.record <:+ w.records := by
    rw [World.records, hlive]
    cases hown : own.record with
    | none => rw [List.filterMap_cons_none hown]
    | some r => rw [List.filterMap_cons_some hown]; exact List.suffix_cons r _
  have hstep : ExitStep b x w.tracer (w.act b (.leave x)).tracer := exitStep b x w.tracer
  rw [hrecords]
  rcases hstep.frames_cases with ⟨-, hframes⟩ | ⟨hcount, hframes⟩
  · rw [hframes]
    exact houter.trans h.suffix
  · rw [hframes]
    refine Scan.suffix_drop (houter.trans h.suffix) ?_
    have hcounted : own.counted = false := by
      have hcovered := h.covered
      rw [hcount] at hcovered
      exact countedFrames_eq_zero.mp (Nat.le_zero.mp hcovered) own (by simp [hlive])
    obtain ⟨r, hr⟩ : ∃ r, own.record = some r := by
      have hhooked := hx.hooked
      rwa [Frame.isHooked, hcounted, Bool.false_or, Option.isSome_iff_exists] at hhooked
    have hmem : r ∈ w.tracer.frames := by
      refine h.suffix.subset ?_
      rw [World.records, hlive, List.filterMap_cons_some hr]
      exact List.mem_cons_self
    exact h.exit_spares_outer hlive hr hmem hon hx

/-- A catch by a frame that is being executed leaves the lower part alone. -/
lemma suffix_catch {s' : ThreadState} (h : ExactTree bounds w) (hstep : CatchStep b c w.tracer s')
    (hcatch : ∀ f ∈ w.live, c.stepLevel ≤ f.key.level) : w.records <:+ s'.frames := by
  rw [hstep.frames_eq.2.2]
  rw [ThreadState.catchDead]
  split
  · split_ifs with hstub
    · have hlevel : c.stepLevel = c.level + 1 := by
        simp [EventCall.stepLevel, EventCall.atStub, *]
      rw [hlevel] at hcatch
      exact Scan.suffix_drop h.suffix (h.live.sparesLive_deadRecordsOnCatch hcatch)
    · have hlevel : c.stepLevel = c.level := by
        simp [EventCall.stepLevel, EventCall.atStub, *]
      rw [hlevel] at hcatch
      rw [← List.drop_drop]
      have hspares : SparesLive w (deadRecordsOnCatch w.tracer.frames c.level w.tracer.stackBounds) :=
        h.live.sparesLive_deadRecordsOnCatch hcatch
      have hrest := Scan.suffix_drop h.suffix hspares
      generalize w.tracer.frames.drop _ = frames at hrest ⊢
      unfold inlinedDeadOnCatch
      split
      · exact hrest
      · split_ifs
        · exact suffix_drop_deadRecordsAboveMatch hrest h.strict
        · exact hrest
  · exact h.suffix

lemma suffix_act {a : Action} (h : ExactTree bounds w) (ha : OutOfLineAction bounds w a)
    (hreplaced : LeftBehindReplaced w a) : (w.act b a).records <:+ (w.act b a).tracer.frames := by
  have hexact := (h.treeExact_iff (b := b) ha).mpr hreplaced
  rcases records_act_cases w b a with
    ⟨e, site, r, rfl, hover, -, hframes, -, -, hrecords⟩ |
    ⟨e, site, rfl, -, hframes, -, -, hrecords⟩ | ⟨hcall, -, -, ⟨m, hrecords⟩⟩
  · obtain ⟨q, -, hframes', -⟩ := hexact hover
    obtain ⟨rfl, -⟩ := List.cons.inj (hframes.symm.trans hframes')
    rw [hframes', hrecords]
  · rw [hframes, hrecords]
    exact h.suffix
  · have hsmaller : (w.act b a).records <:+ w.records := hrecords ▸ List.drop_suffix m _
    cases a with
    | call e site => exact absurd rfl (hcall e site)
    | callPlain key site => exact ha.1.elim
    | leave x =>
      obtain ⟨⟨hon, own, outer, hlive, hx⟩, -⟩ := ha
      exact h.suffix_leave hlive hon hx
    | leavePlain => exact ha.1.elim
    | jump n => exact hsmaller.trans h.suffix
    | thrown kind c =>
      rcases thrown_cases b w.tracer kind c with hsame | hline
      · exact (congrArg ThreadState.frames hsame) ▸ h.suffix
      · exact hline.frames_eq.1 ▸ h.suffix
    | caught c =>
      rcases caught_cases b w.tracer c with hsame | hstep
      · exact (congrArg ThreadState.frames hsame) ▸ h.suffix
      · exact h.suffix_catch hstep ha.2
    | terminated reason c =>
      rcases terminated_cases b w.tracer reason c with hsame | hline
      · exact (congrArg ThreadState.frames hsame) ▸ h.suffix
      · exact hline.frames_eq.1 ▸ h.suffix

lemma act {a : Action} (h : ExactTree bounds w) (ha : OutOfLineAction bounds w a)
    (hreplaced : LeftBehindReplaced w a) : ExactTree bounds (w.act b a) where
  toOwnStack := h.toOwnStack.act ha.1
  covered := (h.toCoversOverflow.act (hooksMatch ha)).covered
  above := (h.toCoversOverflow.act (hooksMatch ha)).above
  record := (h.toCoversOverflow.act (hooksMatch ha)).record
  suffix := h.suffix_act ha hreplaced
  depth := by
    rw [World.act_tracer, ThreadState.watch]
    split
    · exact h.depth.step _
    · exact h.depth

lemma fresh (bounds : StackBounds) (earlier : Text) : ExactTree bounds (.fresh bounds earlier) where
  toOwnStack := .fresh bounds earlier
  covered := (CoversOverflow.fresh bounds earlier).covered
  above := (CoversOverflow.fresh bounds earlier).above
  record := (CoversOverflow.fresh bounds earlier).record
  suffix := List.suffix_refl _
  depth := depthExact_fresh bounds earlier

end ExactTree

/-- In every run of resolvable out-of-line functions, the tree is exact at all enters exactly when at
each of them everything left behind can be told from the entering frame. -/
theorem tree_exact_iff (b : Build) (bounds : StackBounds) (earlier : Text) (actions : List Action)
    (hactions : AllSteps (World.act b) (OutOfLineAction bounds) (.fresh bounds earlier) actions) :
    AllSteps (World.act b) (TreeExact b) (.fresh bounds earlier) actions ↔
      AllSteps (World.act b) LeftBehindReplaced (.fresh bounds earlier) actions :=
  allSteps_iff_of_invariant (I := ExactTree bounds) (fun _ _ h ha hreplaced => h.act ha hreplaced)
    (fun _ _ h ha => h.treeExact_iff ha) (ExactTree.fresh bounds earlier) hactions

/-- `run` calls two stages from one call site, the second after a jump out of the first. -/
def stagesFromOneSite : List Action :=
  [.call (.plain ⟨1, 10, 1000⟩ ["run".toList] (.named "run".toList none))
    ⟨2048, 1000, "run".toList, false⟩,
   .call (.plain ⟨2, 20, 900⟩ ["parse".toList] (.named "parse".toList (some "run".toList)))
    ⟨900, 900, "parse".toList, false⟩,
   .jump 1,
   .call (.plain ⟨3, 20, 900⟩ ["check".toList] (.named "check".toList (some "run".toList)))
    ⟨900, 900, "check".toList, false⟩]

lemma stagesFromOneSite_outOfLine (b : Build) (earlier : Text) :
    AllSteps (World.act b) (OutOfLineAction ⟨16, 4096, true⟩) (.fresh ⟨16, 4096, true⟩ earlier)
      stagesFromOneSite := by
  refine ⟨⟨?_, _, rfl, rfl⟩, ⟨?_, _, rfl, rfl⟩, ⟨trivial, trivial⟩, ⟨?_, _, rfl, rfl⟩, trivial⟩
  all_goals
    simp [OwnStackAction, RunsBelow, World.liveAfter, World.fresh, Frame.hooked, EnterCall.plain,
      EnterCall.key, onThreadStack]

theorem tree_exact_iff_stages :
    AllSteps (World.act ⟨false, false, false⟩) (TreeExact ⟨false, false, false⟩)
        (.fresh ⟨16, 4096, true⟩ []) stagesFromOneSite ↔
      AllSteps (World.act ⟨false, false, false⟩) LeftBehindReplaced (.fresh ⟨16, 4096, true⟩ [])
        stagesFromOneSite :=
  tree_exact_iff _ _ _ _ (stagesFromOneSite_outOfLine _ _)

/-- The record of the first stage stays under that of the second. -/
theorem tree_deeper_after_stage_jump :
    AllSteps (World.act ⟨false, false, false⟩) (OutOfLineAction ⟨16, 4096, true⟩)
        (.fresh ⟨16, 4096, true⟩ []) stagesFromOneSite ∧
      ¬ AllSteps (World.act ⟨false, false, false⟩) (TreeExact ⟨false, false, false⟩)
        (.fresh ⟨16, 4096, true⟩ []) stagesFromOneSite := by
  refine ⟨stagesFromOneSite_outOfLine _ _, ?_⟩
  rintro ⟨-, -, -, hcheck, -⟩
  obtain ⟨r, -, hframes, -⟩ := hcheck (by decide)
  exact absurd ((congrArg List.length hframes).trans List.length_cons) (by decide)

end CallStackLogger
