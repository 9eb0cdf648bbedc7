import CallStackLogger.Program.Records

/-!
# The record an exit hook finds

With out-of-line frames on the thread's own stack, everything above the record of the innermost
frame is dead and of a lower level. The exit rule finds that record exactly when the overflow count
does not stand in the way, the dead records of the frame's call site above it are contiguous with
it, and no dead record under it is closer to the level a tail-called hook resolved to.
-/

namespace CallStackLogger

open Run

variable {b : Build} {w : World} {bounds : StackBounds}

/-- Out-of-line calls on the thread stack, exits of the innermost frame, and non-local exits. -/
def OwnStackAction (bounds : StackBounds) (w : World) : Action → Prop
  | .call e site     => site.inlined = false ∧ onThreadStack bounds e.level = true ∧
      RunsBelow bounds e.key w.live
  | .leave x         => onThreadStack bounds x.level = true ∧
      ∃ own outer, w.live = own :: outer ∧ ExitsFrom bounds own outer x
  | .callPlain _ _   => False
  | .leavePlain      => False
  | _                => True

/-- The exit of a frame whose record `r` is on the stack finds `r`, which carries the frame's
identity, pops it along with dead records only, and finishes its line. -/
def ExitsOwnRecord (b : Build) (w : World) : Action → Prop
  | .leave x => ∀ own ∈ w.live.head?, ∀ r ∈ own.record, ∀ above below,
      w.tracer.frames = above ++ r :: below →
        w.tracer.exitIndex x = below.length ∧ r.toFrameKey = own.key ∧
        (∀ q ∈ above, q ∉ w.records) ∧ (w.act b (.leave x)).tracer.frames = below ∧
        (r.logged = true → (w.act b (.leave x)).tracer.traceFile =
          (w.tracer.traceFile.markAll b frameEndJump above).markLeft b x r)
  | _        => True

/-- No overflow frame is counted, the dead records of the call site above `r` reach down to it
without a gap, and no record under it is closer to the level of a tail-called hook. -/
def OwnRecordInReach (w : World) : Action → Prop
  | .leave x => ∀ own ∈ w.live.head?, ∀ r ∈ own.record, ∀ above below,
      w.tracer.frames = above ++ r :: below →
        w.tracer.frameOverflowCount = 0 ∧ siteContiguous above x.key = true ∧
        (x.tailCalled = true → ClosestInRun r below x.key)
  | _        => True

/-- The state of a run on the thread's own stack: what lies above the record of a frame that is being
executed has a lower level. -/
structure OwnStack (bounds : StackBounds) (w : World) : Prop extends Watched bounds w where
  lower : w.tracer.frames.Pairwise fun upper lower => lower ∈ w.records → upper.level < lower.level

namespace OwnStack

variable {x : ExitCall} {own : Frame} {outer : List Frame} {r : FrameRecord}
  {above below : List FrameRecord}

lemma watched_act {a : Action} (h : Watched bounds w) (ha : OwnStackAction bounds w a) :
    Watched bounds (w.act b a) := by
  refine h.act ?_ ?_
  · rintro e site rfl
    obtain ⟨-, hon, hbelow⟩ := ha
    refine ⟨hon, fun f hf => ?_⟩
    have hlt := hbelow f hf hon (h.liveOnStack f hf)
    exact ⟨Nat.le_of_lt hlt, fun heq => absurd heq (Nat.ne_of_lt hlt)⟩
  · rintro key site rfl
    exact ha.elim

lemma act {a : Action} (h : OwnStack bounds w) (ha : OwnStackAction bounds w a) :
    OwnStack bounds (w.act b a) := by
  refine ⟨watched_act h.toWatched ha, h.tracked.pairwise_live_act h.lower ?_⟩
  rintro e site r rfl hr q hq
  obtain ⟨f, hf, hrecord⟩ := List.mem_filterMap.mp hq
  have hlt := ha.2.2 f hf ha.2.1 (h.liveOnStack f hf)
  rwa [← h.live.record f hf q hrecord, ← hr.key_eq] at hlt

lemma fresh (bounds : StackBounds) (earlier : Text) : OwnStack bounds (.fresh bounds earlier) where
  toWatched := .fresh bounds earlier
  lower := .nil

/-- The rule of an exit finds the frame's own record exactly when it is in reach. -/
lemma aboveExiting_eq_iff (h : OwnStack bounds w) (hlive : w.live = own :: outer)
    (hr : own.record = some r) (hframes : w.tracer.frames = above ++ r :: below)
    (hon : onThreadStack bounds x.level = true) (hx : ExitsFrom bounds own outer x) :
    w.tracer.aboveExiting x = above.length ↔
      siteContiguous above x.key = true ∧ (x.tailCalled = true → ClosestInRun r below x.key) := by
  have hkey : r.toFrameKey = own.key := h.live.record own (by simp [hlive]) r hr
  have hlevel : r.level = own.key.level := congrArg FrameKey.level hkey
  have hown : onThreadStack bounds own.key.level = true := h.liveOnStack own (by simp [hlive])
  have hmem : r ∈ w.records := by
    rw [World.records, hlive, List.filterMap_cons_some hr]
    exact List.mem_cons_self
  have hlower := h.lower
  have honStack := h.stack.onStack
  rw [hframes] at hlower honStack
  rw [aboveExiting_eq (by simp [hframes]), hframes, h.stack.bounds_eq]
  refine deadAtExit_eq_length_iff ?_ hon (h.sameActivationSite hlive hr hx) ?_ ?_
  · cases above with
    | nil => simpa using honStack r (by simp)
    | cons top rest => simpa using honStack top (by simp)
  · intro q hq
    exact (List.pairwise_append.mp hlower).2.2 q hq r List.mem_cons_self hmem
  · cases htail : x.tailCalled with
    | false => exact hlevel.trans (hx.called htail).symm
    | true =>
      have hlt := (hx.tailCalled htail hown hon).1
      rwa [← hlevel] at hlt

/-- An exit finds and pops its own record exactly when that is in reach. -/
lemma exitsOwnRecord_iff {a : Action} (h : OwnStack bounds w) (ha : OwnStackAction bounds w a) :
    ExitsOwnRecord b w a ↔ OwnRecordInReach w a := by
  cases a with
  | leave x =>
    obtain ⟨hon, own, outer, hlive, hx⟩ := ha
    constructor
    · intro hexits f hf r hr above below hframes
      obtain rfl : own = f := by simpa [hlive] using hf
      obtain ⟨hindex, -, -, hpopped, -⟩ := hexits own hf r hr above below hframes
      have hstep : ExitStep b x w.tracer (w.act b (.leave x)).tracer := exitStep b x w.tracer
      have hcount : w.tracer.frameOverflowCount = 0 := by
        by_contra hover
        generalize (w.act b (.leave x)).tracer = s' at hstep hpopped
        cases hstep with
        | drained hpos =>
          have hlength := congrArg List.length (hframes.symm.trans hpopped)
          simp at hlength
          omega
        | empty hzero hempty => exact hover hzero
        | left hzero hrec => exact hover hzero
      have habove : w.tracer.aboveExiting x = above.length := by
        simp only [ThreadState.aboveExiting, hindex, hframes, List.length_append, List.length_cons]
        omega
      exact ⟨hcount, (h.aboveExiting_eq_iff hlive hr hframes hon hx).mp habove⟩
    · intro hreach f hf r hr above below hframes
      obtain rfl : own = f := by simpa [hlive] using hf
      obtain ⟨hcount, hsite⟩ := hreach own hf r hr above below hframes
      have habove := (h.aboveExiting_eq_iff hlive hr hframes hon hx).mpr hsite
      have hkey : r.toFrameKey = own.key := h.live.record own (by simp [hlive]) r hr
      have hindex : w.tracer.exitIndex x = below.length := by
        have hle := exitingRecordIndex_le w.tracer.frames x.key x.tailCalled w.tracer.stackBounds
        simp only [ThreadState.aboveExiting, ThreadState.exitIndex] at habove ⊢
        rw [hframes] at habove hle ⊢
        simp only [List.length_append, List.length_cons] at habove hle
        omega
      have hdead : ∀ q ∈ above, q ∉ w.records :=
        fun q hq => h.tracked.notMem_records_of_above hlive hr hframes hq
      have hstep : ExitStep b x w.tracer (w.act b (.leave x)).tracer := exitStep b x w.tracer
      generalize (w.act b (.leave x)).tracer = s' at hstep ⊢
      refine ⟨hindex, hkey, hdead, ?_⟩
      cases hstep with
      | drained hpos => omega
      | empty hzero hempty => exact absurd (hframes.symm.trans hempty) (by simp)
      | @left record rest hzero hrec =>
        rw [leaveFrame_eq (s := w.tracer.popped b frameEndJump (w.tracer.aboveExiting x)) hrec]
        rw [habove, hframes, List.drop_left] at hrec
        obtain ⟨rfl, rfl⟩ := List.cons.inj hrec
        refine ⟨rfl, fun hlogged => ?_⟩
        simp only [hlogged, if_true, ThreadState.popped, habove, hframes, List.take_left]
  | call e site => exact Iff.rfl
  | callPlain key site => exact Iff.rfl
  | leavePlain => exact Iff.rfl
  | jump n => exact Iff.rfl
  | thrown kind c => exact Iff.rfl
  | caught c => exact Iff.rfl
  | terminated reason c => exact Iff.rfl

end OwnStack

/-- In every run of out-of-line frames on the thread's own stack, all exit hooks find and pop their
own records exactly when these are in reach at every exit. -/
theorem exit_finds_own_record_iff (b : Build) (bounds : StackBounds) (earlier : Text)
    (actions : List Action)
    (hactions : AllSteps (World.act b) (OwnStackAction bounds) (.fresh bounds earlier) actions) :
    AllSteps (World.act b) (ExitsOwnRecord b) (.fresh bounds earlier) actions ↔
      AllSteps (World.act b) OwnRecordInReach (.fresh bounds earlier) actions :=
  allSteps_iff_of_invariant (I := OwnStack bounds) (fun _ _ h ha _ => h.act ha)
    (fun _ _ h ha => h.exitsOwnRecord_iff ha) (OwnStack.fresh bounds earlier) hactions

/-- `outer` calls `inner`, which gets back to both through `via`; a jump returns to the first `inner`,
which then leaves. Both calls of `inner` are made from one call site. -/
def mutualRecursion : List Action :=
  [.call (.plain ⟨1, 10, 1000⟩ [] (.named "outer".toList none)) ⟨2048, 1000, "outer".toList, false⟩,
   .call (.plain ⟨2, 20, 900⟩ [] (.named "inner".toList none)) ⟨900, 900, "inner".toList, false⟩,
   .call (.plain ⟨3, 30, 800⟩ [] (.named "via".toList none)) ⟨800, 800, "via".toList, false⟩,
   .call (.plain ⟨1, 40, 700⟩ [] (.named "outer".toList none)) ⟨700, 700, "outer".toList, false⟩,
   .call (.plain ⟨2, 20, 600⟩ [] (.named "inner".toList none)) ⟨600, 600, "inner".toList, false⟩,
   .jump 3,
   .leave (.plain ⟨2, 20, 900⟩ 21)]

lemma mutualRecursion_onOwnStack (b : Build) (earlier : Text) :
    AllSteps (World.act b) (OwnStackAction ⟨16, 4096, true⟩) (.fresh ⟨16, 4096, true⟩ earlier)
      mutualRecursion := by
  refine ⟨?_, ?_, ?_, ?_, ?_, trivial, ⟨by decide, _, _, rfl, isHooked_hooked .., rfl, rfl,
    fun _ => rfl, ?_⟩, trivial⟩
  all_goals
    simp [OwnStackAction, RunsBelow, World.liveAfter, World.fresh, Frame.hooked, EnterCall.plain,
      EnterCall.key, onThreadStack, ExitCall.tailCalled, ExitCall.plain]

theorem exit_finds_own_record_iff_mutual :
    AllSteps (World.act ⟨false, false, false⟩) (ExitsOwnRecord ⟨false, false, false⟩)
        (.fresh ⟨16, 4096, true⟩ []) mutualRecursion ↔
      AllSteps (World.act ⟨false, false, false⟩) OwnRecordInReach (.fresh ⟨16, 4096, true⟩ [])
        mutualRecursion :=
  exit_finds_own_record_iff _ _ _ _ (mutualRecursion_onOwnStack _ _)

/-- The exit of the first `inner` takes the record of the second for its own. -/
theorem exit_misses_own_record_mutual :
    AllSteps (World.act ⟨false, false, false⟩) (OwnStackAction ⟨16, 4096, true⟩)
        (.fresh ⟨16, 4096, true⟩ []) mutualRecursion ∧
      ¬ AllSteps (World.act ⟨false, false, false⟩) (ExitsOwnRecord ⟨false, false, false⟩)
        (.fresh ⟨16, 4096, true⟩ []) mutualRecursion := by
  refine ⟨mutualRecursion_onOwnStack _ _, ?_⟩
  rintro ⟨-, -, -, -, -, -, hexit, -⟩
  have hindex := (hexit _ rfl ⟨⟨2, 20, 900⟩, true, some "inner".toList, 0, 0, -1, 0, 1⟩ rfl
    [⟨⟨2, 20, 600⟩, true, some "inner".toList, 0, 0, -1, 0, 4⟩,
     ⟨⟨1, 40, 700⟩, true, some "outer".toList, 0, 0, -1, 0, 3⟩,
     ⟨⟨3, 30, 800⟩, true, some "via".toList, 0, 0, -1, 0, 2⟩]
    [⟨⟨1, 10, 1000⟩, true, some "outer".toList, 0, 0, -1, 0, 0⟩] rfl).1
  exact absurd hindex (by decide)

end CallStackLogger
