import CallStackLogger.Reconcile.Exit
import CallStackLogger.Reconcile.Order
import CallStackLogger.Trace.Hooks

/-!
# What one step can do

Each hook is taken apart once. `EnterStep` and `ExitStep` list what an enter and an exit can do,
`EventStep` what writing an event line can do, and `CatchStep` what a catch can do before it;
every invariant is proved by cases over them and never unfolds a hook.
-/

namespace CallStackLogger

variable {b : Build} {s s' : ThreadState}

/-! ### The stream -/

/-- Whether `get_thread_fp` has a stream to return. -/
def TraceFile.hasStream (f : TraceFile) (r : FpReply) : Bool :=
  r.traceReady && !r.shutdownComplete &&
    if f.openAttempted then f.fp
    else r.openReply.pathBuilt &&
      if r.openReply.opened && r.openReply.fdopened then
        r.openReply.headerBuilt && !r.openReply.shutdownComplete && r.openReply.registered
      else f.fp

lemma getThreadFp_fst (s : ThreadState) (b : Build) (r : FpReply) :
    (s.getThreadFp b r).1 = some true ↔ s.traceFile.hasStream r = true := by
  rw [ThreadState.getThreadFp, ThreadState.openThisThreadFile, TraceFile.hasStream]
  by_cases hready : r.traceReady <;> by_cases hdown : r.shutdownComplete <;> simp only [hready, hdown]
  · simp
  · by_cases hattempted : s.traceFile.openAttempted
    · simp [hattempted]
    · by_cases hpath : r.openReply.pathBuilt
      · by_cases hheader : r.openReply.headerBuilt
        · rw [ThreadState.registerFile]
          cases hopened : r.openReply.opened <;> cases hfd : r.openReply.fdopened <;>
            cases r.openReply.shutdownComplete <;> cases r.openReply.registered <;>
            simp [hattempted, hpath, hheader, ThreadState.seedCursor, ThreadState.publishFile]
        · cases hopened : r.openReply.opened <;> cases hfd : r.openReply.fdopened <;>
            simp [hattempted, hpath, hheader]
      · simp [hattempted, hpath]
  · simp
  · simp

lemma TraceFile.PatchedTo.hasStream_eq {f f' : TraceFile} (h : f.PatchedTo f') (r : FpReply) :
    f'.hasStream r = f.hasStream r := by
  obtain ⟨_, _, rfl⟩ := h
  rfl

/-! ### Enter -/

/-- The state after the two reclaim steps that come before the stream is asked for. -/
def ThreadState.enterReclaim (s : ThreadState) (b : Build) (e : EnterCall) : ThreadState :=
  let s := s.enterLevelStep b e
  (s.reclaimDeadInlinedRecordsOnEnter b e.key e.inlineChain .atEnter e.uncaught).getD s

/-- The state after all three reclaim steps of an enter that found `view`. -/
def ThreadState.enterParentReclaim (s : ThreadState) (b : Build) (e : EnterCall)
    (view : ResolvedFrameView) : ThreadState :=
  s.reclaimDeadInlinedRecordsAboveParent b e.key view.callerFunctionBase .atEnter e.uncaught

/-- The no-throw zone: the depth goes up and the line is written. -/
def ThreadState.writeCall (s : ThreadState) (b : Build) (e : EnterCall) (view : ResolvedFrameView) :
    ThreadState :=
  ({ s with currentStackDepth := s.currentStackDepth + 1 }).appendLine b (s.callLine b e view)

/-- The records the first two reclaim steps of an enter pop. -/
def ThreadState.deadOnEnter (s : ThreadState) (e : EnterCall) : Nat :=
  let dead := deadRecordsOnEnter s.frames e.key s.stackBounds
  dead + inlinedDeadOnEnter (s.frames.drop dead) e.key s.stackBounds (e.inlineChain.getD [])

/-- Whether the frame is tracked by count only. -/
def ThreadState.overflows (s : ThreadState) (e : EnterCall) : Bool :=
  decide (0 < s.frameOverflowCount) || (s.frames.length == s.capacity && !e.reserved)

/-- Whether looking the chain up throws. -/
def ThreadState.chainThrows (s : ThreadState) (e : EnterCall) : Bool :=
  groupOnTop (s.frames.drop (deadRecordsOnEnter s.frames e.key s.stackBounds)) e.level s.stackBounds
    && e.inlineChain.isNone

/-- The frame an enter writes a line for. -/
def ThreadState.loggedView (s : ThreadState) (e : EnterCall) : Option ResolvedFrameView :=
  if !s.overflows e && !s.chainThrows e && s.traceFile.hasStream e.threadFp then
    match e.resolved with
    | .found view => some view
    | _           => none
  else none

lemma loggedView_eq_some {s : ThreadState} {e : EnterCall} {view : ResolvedFrameView} :
    s.loggedView e = some view ↔ s.overflows e = false ∧ s.chainThrows e = false ∧
      s.traceFile.hasStream e.threadFp = true ∧ e.resolved = .found view := by
  rw [ThreadState.loggedView]
  cases e.resolved <;> simp [and_assoc]

/-- What the enter hook can do. -/
inductive EnterStep (b : Build) (e : EnterCall) (s : ThreadState) : ThreadState → Prop where
  | overflow (hover : s.overflows e = true) : EnterStep b e s s.countOverflow
  | unlogged {s₀ s₁ : ThreadState} (hover : s.overflows e = false)
      (hslot : s.reserveSlot e.reserved = some s₀) (hquiet : s.loggedView e = none)
      (hfp : (s.chainThrows e = true ∧ s₁ = s₀.enterReclaim b e) ∨
        (s.chainThrows e = false ∧ s₁ = ((s₀.enterReclaim b e).getThreadFp b e.threadFp).2)) :
      EnterStep b e s (s₁.push (s₁.newRecord b e { haveSlot := true, level := e.level }))
  | logged {s₀ s₁ : ThreadState} {view : ResolvedFrameView} (hover : s.overflows e = false)
      (hslot : s.reserveSlot e.reserved = some s₀) (hview : s.loggedView e = some view)
      (hopen : ((s₀.enterReclaim b e).getThreadFp b e.threadFp).1 = some true)
      (hs₁ : s₁ = ((s₀.enterReclaim b e).getThreadFp b e.threadFp).2.enterParentReclaim b e view) :
      EnterStep b e s ((s₁.writeCall b e view).push ((s₁.writeCall b e view).newRecord b e
        { haveSlot := true, logged := true, level := e.level, nameBase := some view.calleeBaseName,
          lineStart := s₁.cursor }))

/-- A slot is made by growing the capacity alone. -/
lemma reserveSlot_eq_some {s s₀ : ThreadState} {reserved : Bool} (h : s.reserveSlot reserved = some s₀) :
    ∃ capacity, s₀ = { s with capacity := capacity } ∧
      (s.frames.length ≤ s.capacity → s.frames.length < capacity) := by
  rw [ThreadState.reserveSlot] at h
  split_ifs at h with hfull hres hempty
  · refine ⟨_, (Option.some.inj h).symm, fun _ => ?_⟩
    rw [List.isEmpty_iff.mp hempty]
    decide
  · refine ⟨_, (Option.some.inj h).symm, fun _ => ?_⟩
    have hpos : 0 < s.frames.length := by
      rw [List.length_pos_iff]
      exact fun hnil => hempty (by simp [hnil])
    omega
  · exact ⟨s.capacity, (Option.some.inj h).symm, fun hle => by omega⟩

/-- A slot fails only when the stack is full and cannot grow. -/
lemma reserveSlot_eq_none {s : ThreadState} {reserved : Bool} :
    s.reserveSlot reserved = none ↔ s.frames.length = s.capacity ∧ reserved = false := by
  rw [ThreadState.reserveSlot]
  split_ifs with hfull hres <;> simp_all

/-- An enter gets a record when nothing is on the overflow count and there is room for it. -/
lemma overflows_eq_false_iff {s : ThreadState} {e : EnterCall} :
    s.overflows e = false ↔ s.frameOverflowCount = 0 ∧ ∃ s₀, s.reserveSlot e.reserved = some s₀ := by
  rw [← Option.isSome_iff_exists, Option.isSome_iff_ne_none, ne_eq, reserveSlot_eq_none]
  simp [ThreadState.overflows]

/-- The level step of an enter pops what its rule counts. -/
lemma enterLevelStep_eq (b : Build) (e : EnterCall) (s : ThreadState) :
    s.enterLevelStep b e =
      s.popped b (reclaimMark .atEnter e.uncaught) (deadRecordsOnEnter s.frames e.key s.stackBounds) :=
  reclaimDeadRecords_eq (deadRecordsOnEnter_le _ _ _) b _ _

lemma enterReclaim_eq (b : Build) (e : EnterCall) (s : ThreadState) :
    s.enterReclaim b e = s.popped b (reclaimMark .atEnter e.uncaught) (s.deadOnEnter e) := by
  simp only [ThreadState.enterReclaim, enterLevelStep_eq, reclaimDeadInlinedRecordsOnEnter_eq]
  split_ifs with hthrow
  · have hnone : inlinedDeadOnEnter (s.frames.drop (deadRecordsOnEnter s.frames e.key s.stackBounds))
        e.key s.stackBounds (e.inlineChain.getD []) = 0 := by
      simp [inlinedDeadOnEnter, hthrow.2]
    simp [ThreadState.deadOnEnter, hnone]
  · exact popped_popped s b _ _ _

lemma enterParentReclaim_eq (b : Build) (e : EnterCall) (view : ResolvedFrameView) (s : ThreadState) :
    s.enterParentReclaim b e view = s.popped b (reclaimMark .atEnter e.uncaught)
      (parentDead s.frames e.key s.stackBounds view.callerFunctionBase) :=
  reclaimDeadInlinedRecordsAboveParent_eq s b e.key _ _ _

lemma popped_hasStream (s : ThreadState) (b : Build) (how : Char) (n : Nat) (r : FpReply) :
    (s.popped b how n).traceFile.hasStream r = s.traceFile.hasStream r :=
  (patchedTo_markAll s.traceFile b how (s.frames.take n)).hasStream_eq r

/-- Behind the reclaim steps a call goes unlogged, or it is logged with an open stream and a
resolved frame. -/
lemma traceCall_eq (b : Build) (e : EnterCall) (s : ThreadState) :
    s.traceCall b e =
      match s.traceFile.hasStream e.threadFp, e.resolved with
      | true, .found view => (s.getThreadFp b e.threadFp).2.logCall b e view
      | _, _              => ((s.getThreadFp b e.threadFp).2, { haveSlot := true, level := e.level }) := by
  have hopen := getThreadFp_fst s b e.threadFp
  rw [ThreadState.traceCall]
  generalize s.getThreadFp b e.threadFp = reply at hopen ⊢
  rcases reply with ⟨_ | _ | _, s₁⟩
  · cases hs : s.traceFile.hasStream e.threadFp
    · simp
    · exact absurd (hopen.mpr hs) (by simp)
  · cases hs : s.traceFile.hasStream e.threadFp
    · simp
    · exact absurd (hopen.mpr hs) (by simp)
  · rw [hopen.mp rfl]
    cases e.resolved <;> rfl

/-- The enter hook takes one of the steps. -/
lemma enterStep (b : Build) (e : EnterCall) (s : ThreadState) : EnterStep b e s (s.enterFrame b e) := by
  rw [ThreadState.enterFrame]
  split_ifs with hover
  · exact .overflow (by simp [ThreadState.overflows, hover])
  · cases hslot : s.reserveSlot e.reserved with
    | none =>
      have hbarrier : s.enterBarrier b e = (s, {}) := by simp [ThreadState.enterBarrier, hslot]
      rw [hbarrier]
      have hfull := reserveSlot_eq_none.mp hslot
      exact .overflow (by simp [ThreadState.overflows, hfull])
    | some s₀ =>
      have hoverflows : s.overflows e = false := by
        have hfull : ¬ (s.frames.length = s.capacity ∧ e.reserved = false) := by
          simp [← reserveSlot_eq_none, hslot]
        simp only [ThreadState.overflows, hover, decide_false, Bool.false_or]
        simpa using hfull
      obtain ⟨capacity, hs₀, -⟩ := reserveSlot_eq_some hslot
      have hchain := reclaimDeadInlinedRecordsOnEnter_eq (s₀.enterLevelStep b e) b e.key e.inlineChain
        .atEnter e.uncaught
      have hgroup : (groupOnTop (s₀.enterLevelStep b e).frames e.key.level
          (s₀.enterLevelStep b e).stackBounds = true ∧ e.inlineChain = none) ↔
          s.chainThrows e = true := by
        rw [enterLevelStep_eq, hs₀, ThreadState.chainThrows, Bool.and_eq_true,
          Option.isNone_iff_eq_none]
        rfl
      by_cases hthrows : s.chainThrows e = true
      · rw [if_pos (hgroup.mpr hthrows)] at hchain
        have hbarrier : s.enterBarrier b e =
            (s₀.enterReclaim b e, { haveSlot := true, level := e.level }) := by
          simp [ThreadState.enterBarrier, ThreadState.enterReclaim, hslot, hchain]
        rw [hbarrier]
        exact .unlogged hoverflows hslot (by simp [ThreadState.loggedView, hthrows])
          (.inl ⟨hthrows, rfl⟩)
      · have hreads : s.chainThrows e = false := by simpa using hthrows
        rw [if_neg (fun h => hthrows (hgroup.mp h))] at hchain
        have hbarrier : s.enterBarrier b e = (s₀.enterReclaim b e).traceCall b e := by
          simp [ThreadState.enterBarrier, ThreadState.enterReclaim, hslot, hchain]
        have hstream : (s₀.enterReclaim b e).traceFile.hasStream e.threadFp =
            s.traceFile.hasStream e.threadFp := by
          rw [enterReclaim_eq, popped_hasStream, hs₀]
        rw [hbarrier, traceCall_eq, hstream]
        cases hfp : s.traceFile.hasStream e.threadFp with
        | false =>
          exact .unlogged hoverflows hslot (by simp [ThreadState.loggedView, hfp])
            (.inr ⟨hreads, rfl⟩)
        | true =>
          cases hres : e.resolved with
          | threw =>
            exact .unlogged hoverflows hslot (by simp [ThreadState.loggedView, hres])
              (.inr ⟨hreads, rfl⟩)
          | filtered =>
            exact .unlogged hoverflows hslot (by simp [ThreadState.loggedView, hres])
              (.inr ⟨hreads, rfl⟩)
          | found view =>
            refine .logged hoverflows hslot ?_ ?_ rfl
            · simp [ThreadState.loggedView, hres, hoverflows, hthrows, hfp]
            · rw [getThreadFp_fst, hstream, hfp]

/-- The records an enter pops. -/
def ThreadState.enterDead (s : ThreadState) (e : EnterCall) : Nat :=
  if s.overflows e then 0
  else
    s.deadOnEnter e + match s.loggedView e with
      | some view => parentDead (s.frames.drop (s.deadOnEnter e)) e.key s.stackBounds view.callerFunctionBase
      | none      => 0

/-- The first two reclaim steps find nothing under a frame that is entered above everything that
is on the thread stack with it. -/
lemma deadOnEnter_eq_zero {s : ThreadState} {e : EnterCall}
    (h : ∀ r ∈ s.frames.head?, onThreadStack s.stackBounds e.level = true →
      onThreadStack s.stackBounds r.level = true → e.level < r.level) : s.deadOnEnter e = 0 := by
  have hlevel : deadRecordsOnEnter s.frames e.key s.stackBounds = 0 := by
    refine deadRecordsOnEnter_eq_zero fun r hr hkey hon => ?_
    have hlt := h r hr hkey hon
    exact ⟨Nat.le_of_lt hlt, fun heq => absurd heq (Nat.ne_of_lt hlt)⟩
  have hgroup : groupOnTop s.frames e.key.level s.stackBounds = false := by
    rw [groupOnTop]
    by_cases hkey : onThreadStack s.stackBounds e.key.level = true
    · cases hhead : s.frames.head? with
      | none => rfl
      | some r =>
        have hne : (r.level == e.key.level) = false := by
          rw [beq_eq_false_iff_ne]
          intro heq
          have hlt : e.key.level < r.level := h r hhead hkey (heq ▸ hkey)
          exact absurd heq.symm (Nat.ne_of_lt hlt)
        simp [hne]
    · simp [hkey]
  simp [ThreadState.deadOnEnter, hlevel, inlinedDeadOnEnter, hgroup]

/-- The record an enter pushes, as far as the rules read it. -/
structure PushedBy (s : ThreadState) (e : EnterCall) (r : FrameRecord) : Prop where
  key_eq : r.toFrameKey = e.key
  activation_eq : r.activation = s.entered
  logged_eq : r.logged = (s.loggedView e).isSome
  nameBase_eq : r.nameBase = (s.loggedView e).map (·.calleeBaseName)
  uncaught_eq : r.uncaughtAtEnter = e.uncaught
  time_eq : r.logged = true → r.enterTime = e.time

/-- An enter counts an overflow, or pops dead records and pushes its own. -/
lemma EnterStep.frames_eq {e : EnterCall} (h : EnterStep b e s s') :
    s'.stackBounds = s.stackBounds ∧
    ((s.overflows e = true ∧ s' = s.countOverflow) ∨
      (s.overflows e = false ∧ s'.frameOverflowCount = s.frameOverflowCount ∧
        ∃ r, PushedBy s e r ∧ s'.frames = r :: s.frames.drop (s.enterDead e))) := by
  cases h with
  | overflow hover => exact ⟨rfl, .inl ⟨hover, rfl⟩⟩
  | @unlogged s₀ s₁ hover hslot hquiet hfp =>
    obtain ⟨capacity, rfl, -⟩ := reserveSlot_eq_some hslot
    have hs₁ : ∃ file cursor valid, s₁ =
        { ({ s with capacity := capacity } : ThreadState).enterReclaim b e with
          traceFile := file, cursor := cursor, cursorValid := valid } := by
      rcases hfp with ⟨-, rfl⟩ | ⟨-, rfl⟩
      · exact ⟨_, _, _, rfl⟩
      · obtain ⟨file, cursor, valid, hframe, -⟩ := getThreadFp_frame
          (({ s with capacity := capacity } : ThreadState).enterReclaim b e) b e.threadFp
        exact ⟨file, cursor, valid, hframe⟩
    obtain ⟨file, cursor, valid, rfl⟩ := hs₁
    rw [enterReclaim_eq]
    refine ⟨rfl, .inr ⟨hover, rfl, _, ⟨rfl, rfl, ?_, ?_, rfl, ?_⟩, congrArg (List.cons _) ?_⟩⟩
    · simp [ThreadState.newRecord, hquiet]
    · simp [ThreadState.newRecord, hquiet]
    · simp [ThreadState.newRecord]
    · simp only [ThreadState.enterDead, hover, hquiet, Bool.false_eq_true, if_false, Nat.add_zero]
      rfl
  | @logged s₀ s₁ view hover hslot hview hopen hs₁ =>
    obtain ⟨capacity, rfl, -⟩ := reserveSlot_eq_some hslot
    obtain ⟨file, cursor, valid, hframe, -⟩ := getThreadFp_frame
      (({ s with capacity := capacity } : ThreadState).enterReclaim b e) b e.threadFp
    rw [hframe, enterReclaim_eq, enterParentReclaim_eq] at hs₁
    subst hs₁
    refine ⟨rfl, .inr ⟨hover, rfl, _, ⟨rfl, rfl, ?_, ?_, rfl, fun _ => rfl⟩, congrArg (List.cons _) ?_⟩⟩
    · simp [ThreadState.newRecord, hview]
    · simp [ThreadState.newRecord, hview]
    · simp only [ThreadState.enterDead, hover, hview, Bool.false_eq_true, if_false]
      rw [← List.drop_drop]
      rfl

lemma le_enterDead {s : ThreadState} {e : EnterCall} (hover : s.overflows e = false) :
    deadRecordsOnEnter s.frames e.key s.stackBounds ≤ s.enterDead e := by
  simp only [ThreadState.enterDead, hover, ThreadState.deadOnEnter, Bool.false_eq_true, if_false]
  omega

/-! ### Exit -/

/-- A record that leaves takes a logged frame off the depth and finishes its line. -/
lemma leaveFrame_eq {s : ThreadState} {record : FrameRecord} {rest : List FrameRecord}
    (h : s.frames = record :: rest) (b : Build) (x : ExitCall) :
    s.leaveFrame b x =
      { s with
        frames := rest
        currentStackDepth := if record.logged then s.currentStackDepth - 1 else s.currentStackDepth
        traceFile := if record.logged then s.traceFile.markLeft b x record else s.traceFile } := by
  rw [ThreadState.leaveFrame]
  rw [h]
  by_cases hlog : record.logged <;> simp [hlog]

/-- Number of records above the one the exit hook takes for its own. -/
def ThreadState.aboveExiting (s : ThreadState) (x : ExitCall) : Nat :=
  s.frames.length - 1 - s.exitIndex x

lemma aboveExiting_eq {s : ThreadState} (hne : s.frames ≠ []) (x : ExitCall) :
    s.aboveExiting x = deadAtExit s.frames x.key x.tailCalled s.stackBounds :=
  deadAtExit_eq hne x.key x.tailCalled s.stackBounds

/-- What the exit hook can do. -/
inductive ExitStep (b : Build) (x : ExitCall) (s : ThreadState) : ThreadState → Prop where
  | drained (hover : 0 < s.frameOverflowCount) :
      ExitStep b x s { s with frameOverflowCount := s.frameOverflowCount - 1 }
  | empty (hover : s.frameOverflowCount = 0) (hempty : s.frames = []) : ExitStep b x s s
  | left {record : FrameRecord} {rest : List FrameRecord} (hover : s.frameOverflowCount = 0)
      (hrec : s.frames.drop (s.aboveExiting x) = record :: rest) :
      ExitStep b x s ((s.popped b frameEndJump (s.aboveExiting x)).leaveFrame b x)

/-- The exit hook takes one of the steps. -/
lemma exitStep (b : Build) (x : ExitCall) (s : ThreadState) :
    ExitStep b x s (s.cygProfileFuncExit b x) := by
  rw [ThreadState.cygProfileFuncExit]
  split_ifs with hover hempty
  · exact .drained hover
  · exact .empty (by omega) (List.isEmpty_iff.mp hempty)
  · have hpos : 0 < s.frames.length := by
      rw [List.length_pos_iff]
      exact fun hnil => hempty (by simp [hnil])
    have hlt : s.aboveExiting x < s.frames.length := by
      rw [ThreadState.aboveExiting]
      omega
    have hpop : s.reclaimDeadRecords b (s.frames.length - 1 - s.exitIndex x) .atExit x.uncaught =
        s.popped b frameEndJump (s.aboveExiting x) :=
      reclaimDeadRecords_eq (Nat.le_of_lt hlt) b .atExit x.uncaught
    rw [hpop]
    exact .left (by omega) (List.drop_eq_getElem_cons hlt)

/-- An exit drains the count, or takes the record it found with those above it. -/
lemma ExitStep.frames_cases {x : ExitCall} (h : ExitStep b x s s') :
    (0 < s.frameOverflowCount ∧ s'.frames = s.frames) ∨
      (s.frameOverflowCount = 0 ∧ s'.frames = s.frames.drop (s.aboveExiting x + 1)) := by
  cases h with
  | drained hover => exact .inl ⟨hover, rfl⟩
  | empty hover hempty => exact .inr ⟨hover, by simp [hempty]⟩
  | @left record rest hover hrec =>
    rw [leaveFrame_eq (s := s.popped b frameEndJump (s.aboveExiting x)) hrec]
    refine .inr ⟨hover, ?_⟩
    rw [← List.drop_drop, hrec]
    rfl

/-- An exit leaves a lower part of the record stack. -/
lemma ExitStep.frames_eq {x : ExitCall} (h : ExitStep b x s s') :
    s'.stackBounds = s.stackBounds ∧ ∃ n, s'.frames = s.frames.drop n := by
  constructor
  · cases h with
    | drained hover => rfl
    | empty hover hempty => rfl
    | left hover hrec =>
      rw [leaveFrame_eq (s := s.popped b frameEndJump (s.aboveExiting x)) hrec]
      rfl
  · rcases h.frames_cases with ⟨-, hframes⟩ | ⟨-, hframes⟩
    · exact ⟨0, hframes⟩
    · exact ⟨_, hframes⟩

/-! ### Exception events -/

/-- Whether the site and the type of an event can be named. -/
def EventCall.named (c : EventCall) : Bool :=
  c.site.isSome && (exceptionTypeName c.type c.demangled).isSome

/-- What writing an event line can do. -/
inductive EventStep (b : Build) (r : LineReply) (s : ThreadState) : ThreadState → Prop where
  | silent (hclosed : s.traceFile.hasStream r.threadFp = false) :
      EventStep b r s (s.getThreadFp b r.threadFp).2
  | line {line : Line} (hopen : s.traceFile.hasStream r.threadFp = true)
      (howner : line.activation = none) (hdepth : line.depth = s.currentStackDepth + 1)
      (hshort : line.short = r.written) :
      EventStep b r s ((s.getThreadFp b r.threadFp).2.appendLine b line)

lemma writeEventLine_step (b : Build) (verb siteLabel suffix columnWord typeName : Text)
    (what : Option Text) (site : EventSite) (r : LineReply) (s : ThreadState) :
    EventStep b r s (s.writeEventLine b verb siteLabel suffix columnWord typeName what site r).1 := by
  obtain ⟨file, cursor, valid, hframe, -⟩ := getThreadFp_frame s b r.threadFp
  have hdepth : (s.getThreadFp b r.threadFp).2.currentStackDepth = s.currentStackDepth := by rw [hframe]
  have hopen := getThreadFp_fst s b r.threadFp
  rw [ThreadState.writeEventLine]
  rcases hfp : s.getThreadFp b r.threadFp with ⟨_ | _ | _, s₁⟩
  · rw [← show (s.getThreadFp b r.threadFp).2 = s₁ by rw [hfp]]
    exact .silent (by simpa [hfp] using hopen)
  · rw [← show (s.getThreadFp b r.threadFp).2 = s₁ by rw [hfp]]
    exact .silent (by simpa [hfp] using hopen)
  · rw [← show (s.getThreadFp b r.threadFp).2 = s₁ by rw [hfp]]
    exact .line (hopen.mp (by rw [hfp])) rfl (by simp [hdepth]) rfl

/-- A throw writes at most one event line. -/
lemma onThrow_step (b : Build) (kind : ThrowKind) (c : EventCall) (s : ThreadState) :
    (c.named = false ∧ s.onThrow b kind c = s) ∨
      (c.named = true ∧ EventStep b c.line s (s.onThrow b kind c)) := by
  rw [ThreadState.onThrow, EventCall.named]
  cases c.site with
  | none => exact .inl ⟨rfl, rfl⟩
  | some site =>
    cases exceptionTypeName c.type c.demangled with
    | none => exact .inl ⟨rfl, rfl⟩
    | some typeName => cases kind <;> exact .inr ⟨rfl, writeEventLine_step ..⟩

/-- A terminate event writes at most one event line. -/
lemma onTerminate_step (b : Build) (reason : TerminateReason) (c : EventCall) (s : ThreadState) :
    (c.named = false ∧ s.onTerminate b reason c = s) ∨
      (c.named = true ∧ EventStep b c.line s (s.onTerminate b reason c)) := by
  rw [ThreadState.onTerminate, EventCall.named]
  cases c.site with
  | none => exact .inl ⟨rfl, rfl⟩
  | some site =>
    cases exceptionTypeName c.type c.demangled with
    | none => exact .inl ⟨rfl, rfl⟩
    | some typeName => exact .inr ⟨rfl, writeEventLine_step ..⟩

/-- The records a catch pops. -/
def ThreadState.catchDead (s : ThreadState) (c : EventCall) : Nat :=
  match c.site, exceptionTypeName c.type c.demangled with
  | some site, some _ =>
    if site.callerFunctionBase = some clangTerminateStub then
      deadRecordsOnCatch s.frames (c.level + 1) s.stackBounds
    else
      let dead := deadRecordsOnCatch s.frames c.level s.stackBounds
      dead + inlinedDeadOnCatch (s.frames.drop dead) c.level s.stackBounds (c.inlineChain.getD [])
  | _, _ => 0

/-- Whether the landing pad is that of a terminate stub. -/
def EventCall.atStub (c : EventCall) : Bool :=
  decide ((c.site.bind (·.callerFunctionBase)) = some clangTerminateStub)

/-- Whether looking the chain of the catch site up throws. -/
def ThreadState.catchThrows (s : ThreadState) (c : EventCall) : Bool :=
  !c.atStub && groupOnTop (s.frames.drop (deadRecordsOnCatch s.frames c.level s.stackBounds)) c.level
    s.stackBounds && c.inlineChain.isNone

/-- What a catch can do: pop unwound records, and then write at most one event line. -/
inductive CatchStep (b : Build) (c : EventCall) (s : ThreadState) : ThreadState → Prop where
  | popped (hquiet : c.named = false ∨ s.catchThrows c = true) :
      CatchStep b c s (s.popped b frameEndException (s.catchDead c))
  | written {s' : ThreadState} (hnamed : c.named = true) (hreads : s.catchThrows c = false)
      (hline : EventStep b c.line (s.popped b frameEndException (s.catchDead c)) s') :
      CatchStep b c s s'

lemma catchLevelStep_eq (b : Build) (catchLevel : Addr) (uncaught : Nat) (s : ThreadState) :
    s.catchLevelStep b catchLevel uncaught =
      s.popped b frameEndException (deadRecordsOnCatch s.frames catchLevel s.stackBounds) :=
  reclaimDeadRecords_eq (deadRecordsOnCatch_le _ _ _) b .atCatch uncaught

lemma catchStep (b : Build) (c : EventCall) (s : ThreadState) : CatchStep b c s (s.onCatch b c).1 := by
  rw [ThreadState.onCatch]
  cases hsite : c.site with
  | none =>
    have hnone : s.catchDead c = 0 := by simp [ThreadState.catchDead, hsite]
    have hstep := CatchStep.popped (b := b) (s := s) (c := c) (.inl (by simp [EventCall.named, hsite]))
    simpa [hnone] using hstep
  | some site =>
    cases htype : exceptionTypeName c.type c.demangled with
    | none =>
      have hnone : s.catchDead c = 0 := by simp [ThreadState.catchDead, hsite, htype]
      have hstep := CatchStep.popped (b := b) (s := s) (c := c) (.inl (by simp [EventCall.named, htype]))
      simpa [hnone] using hstep
    | some typeName =>
      have hnamed : c.named = true := by simp [EventCall.named, hsite, htype]
      simp only [catchLevelStep_eq, reclaimDeadInlinedRecordsOnCatch_eq, popped_frames,
        popped_stackBounds, popped_popped]
      by_cases hstub : site.callerFunctionBase = some clangTerminateStub
      · have hatStub : c.atStub = true := by simp [EventCall.atStub, hsite, hstub]
        have hcount : s.catchDead c = deadRecordsOnCatch s.frames (c.level + 1) s.stackBounds := by
          simp [ThreadState.catchDead, hsite, htype, hstub]
        rw [if_pos hstub, ← hcount]
        exact .written hnamed (by simp [ThreadState.catchThrows, hatStub]) (writeEventLine_step ..)
      · have hatStub : c.atStub = false := by simp [EventCall.atStub, hsite, hstub]
        have hcount : s.catchDead c = deadRecordsOnCatch s.frames c.level s.stackBounds +
            inlinedDeadOnCatch (s.frames.drop (deadRecordsOnCatch s.frames c.level s.stackBounds))
              c.level s.stackBounds (c.inlineChain.getD []) := by
          simp [ThreadState.catchDead, hsite, htype, hstub]
        have hthrows : (groupOnTop (s.frames.drop (deadRecordsOnCatch s.frames c.level
            s.stackBounds)) c.level s.stackBounds = true ∧ c.inlineChain = none) ↔
            s.catchThrows c = true := by
          simp [ThreadState.catchThrows, hatStub]
        rw [if_neg hstub]
        by_cases hthrow : s.catchThrows c = true
        · have hsame : s.catchDead c = deadRecordsOnCatch s.frames c.level s.stackBounds := by
            simp [hcount, (hthrows.mpr hthrow).2, inlinedDeadOnCatch]
          rw [if_pos (hthrows.mpr hthrow), ← hsame]
          exact .popped (.inr hthrow)
        · rw [if_neg (fun h => hthrow (hthrows.mp h)), ← hcount]
          exact .written hnamed (by simpa using hthrow) (writeEventLine_step ..)

/-- Writing an event line leaves the record stack alone. -/
lemma EventStep.frames_eq {r : LineReply} (h : EventStep b r s s') :
    s'.frames = s.frames ∧ s'.currentStackDepth = s.currentStackDepth ∧
      s'.frameOverflowCount = s.frameOverflowCount ∧ s'.stackBounds = s.stackBounds ∧
      s'.entered = s.entered ∧ s'.emptyPop = s.emptyPop ∧ s'.capacity = s.capacity ∧
      s'.fullPush = s.fullPush := by
  obtain ⟨file, cursor, valid, hframe, -⟩ := getThreadFp_frame s b r.threadFp
  cases h with
  | silent hclosed =>
    rw [hframe]
    exact ⟨rfl, rfl, rfl, rfl, rfl, rfl, rfl, rfl⟩
  | line hopen howner hdepth hshort =>
    rw [hframe]
    exact ⟨rfl, rfl, rfl, rfl, rfl, rfl, rfl, rfl⟩

/-- A catch leaves a lower part of the record stack. -/
lemma CatchStep.frames_eq {c : EventCall} (h : CatchStep b c s s') :
    s'.stackBounds = s.stackBounds ∧ s'.frameOverflowCount = s.frameOverflowCount ∧
      s'.frames = s.frames.drop (s.catchDead c) := by
  cases h with
  | popped hquiet => exact ⟨rfl, rfl, rfl⟩
  | written hnamed hreads hline =>
    obtain ⟨hframes, -, hover, hbounds, -⟩ := hline.frames_eq
    exact ⟨hbounds, hover, hframes⟩

/-! ### The events as the machine takes them -/

lemma thrown_cases (b : Build) (s : ThreadState) (kind : ThrowKind) (c : EventCall) :
    hookStep b s (.thrown kind c) = s ∨ EventStep b c.line s (hookStep b s (.thrown kind c)) := by
  simp only [hookStep]
  split_ifs
  · rcases onThrow_step b kind c s with ⟨-, hsame⟩ | ⟨-, hline⟩
    · exact .inl hsame
    · exact .inr hline
  · exact .inl rfl

lemma terminated_cases (b : Build) (s : ThreadState) (reason : TerminateReason) (c : EventCall) :
    hookStep b s (.terminated reason c) = s ∨
      EventStep b c.line s (hookStep b s (.terminated reason c)) := by
  simp only [hookStep]
  split_ifs
  · rcases onTerminate_step b reason c s with ⟨-, hsame⟩ | ⟨-, hline⟩
    · exact .inl hsame
    · exact .inr hline
  · exact .inl rfl

lemma caught_cases (b : Build) (s : ThreadState) (c : EventCall) :
    hookStep b s (.caught c) = s ∨ CatchStep b c s (hookStep b s (.caught c)) := by
  simp only [hookStep]
  split_ifs
  · exact .inr (catchStep b c s)
  · exact .inl rfl

/-- An event that is neither an enter nor an exit changes nothing, adds a line, or is a catch. -/
lemma hookStep_cases (b : Build) (s : ThreadState) (ev : HookEvent) :
    (∃ e, ev = .enter e) ∨ (∃ x, ev = .exit x) ∨ hookStep b s ev = s ∨
      (∃ r, EventStep b r s (hookStep b s ev)) ∨
      ∃ c, ev = .caught c ∧ CatchStep b c s (hookStep b s ev) := by
  cases ev with
  | enter e => exact .inl ⟨e, rfl⟩
  | exit x => exact .inr (.inl ⟨x, rfl⟩)
  | thrown kind c =>
    rcases thrown_cases b s kind c with hsame | hline
    · exact .inr (.inr (.inl hsame))
    · exact .inr (.inr (.inr (.inl ⟨c.line, hline⟩)))
  | caught c =>
    rcases caught_cases b s c with hsame | hstep
    · exact .inr (.inr (.inl hsame))
    · exact .inr (.inr (.inr (.inr ⟨c, rfl, hstep⟩)))
  | terminated reason c =>
    rcases terminated_cases b s reason c with hsame | hline
    · exact .inr (.inr (.inl hsame))
    · exact .inr (.inr (.inr (.inl ⟨c.line, hline⟩)))

end CallStackLogger
