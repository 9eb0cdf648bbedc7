import CallStackLogger.Core.Run
import CallStackLogger.Trace.Steps

/-!
# A traced thread of a program

The physical call stack of one thread next to the tracer that watches it. A frame is a function
being executed; several frames share a physical frame when functions were inlined into each
other, and a function that is not instrumented has a frame but runs no hooks. A jump drops
frames without their exit hooks: a `longjmp`, or an exception where the compiler emits none.

The program is free to take any action. What a thread can really do is a condition on the
actions of its run, and each group of results states the one it needs.
-/

namespace CallStackLogger

/-- A call as the machine makes it: the stack pointer it is made at, the CFA of the physical
frame the callee runs in, the callee's base name, and whether it was inlined. -/
structure CallSite where
  sp : Addr
  cfa : Addr
  name : Text
  inlined : Bool
deriving DecidableEq, Repr

/-- A frame that is being executed: its identity with the level its hook records, the record its
enter pushed, whether its enter was counted as overflow, and the tracer's state before it. -/
structure Frame where
  key : FrameKey
  site : CallSite
  record : Option FrameRecord
  counted : Bool
  before : ThreadState
deriving DecidableEq, Repr

/-- The frames being executed, innermost first, those that were dropped without their exit hooks,
and the tracer. -/
structure World where
  live : List Frame := []
  dropped : List Frame := []
  tracer : ThreadState
deriving DecidableEq, Repr

/-- What a thread can do. The plain call and return are those of a function without hooks. -/
inductive Action where
  | call (e : EnterCall) (site : CallSite)
  | callPlain (key : FrameKey) (site : CallSite)
  | leave (x : ExitCall)
  | leavePlain
  | jump (n : Nat)
  | thrown (kind : ThrowKind) (c : EventCall)
  | caught (c : EventCall)
  | terminated (reason : TerminateReason) (c : EventCall)

/-- The event the tracer sees of an action. -/
def Action.hook : Action → Option HookEvent
  | .call e _            => some (.enter e)
  | .callPlain _ _       => none
  | .leave x             => some (.exit x)
  | .leavePlain          => none
  | .jump _              => none
  | .thrown kind c       => some (.thrown kind c)
  | .caught c            => some (.caught c)
  | .terminated reason c => some (.terminated reason c)

/-- The tracer after an action. -/
def ThreadState.watch (s : ThreadState) (b : Build) (a : Action) : ThreadState :=
  match a.hook with
  | some ev => hookStep b s ev
  | none    => s

/-- The frame of an instrumented function whose enter hook took the tracer from `before` to
`after`. -/
def Frame.hooked (e : EnterCall) (site : CallSite) (before after : ThreadState) : Frame :=
  let counted := decide (before.frameOverflowCount < after.frameOverflowCount)
  { key := e.key
    site := site
    record := if counted then none else after.frames.head?
    counted := counted
    before := before }

/-- Whether the function has hooks. -/
def Frame.isHooked (f : Frame) : Bool := f.counted || f.record.isSome

/-- The frame of a function without hooks. -/
def Frame.plain (key : FrameKey) (site : CallSite) (before : ThreadState) : Frame where
  key := key
  site := site
  record := none
  counted := false
  before := before

/-- The frames being executed after an action. -/
def World.liveAfter (w : World) (b : Build) : Action → List Frame
  | .call e site        => .hooked e site w.tracer (w.tracer.watch b (.call e site)) :: w.live
  | .callPlain key site => .plain key site w.tracer :: w.live
  | .leave _            => w.live.tail
  | .leavePlain         => w.live.tail
  | .jump n             => w.live.drop n
  | _                   => w.live

/-- The frames that have been dropped after an action. -/
def World.droppedAfter (w : World) : Action → List Frame
  | .jump n => w.live.take n ++ w.dropped
  | _       => w.dropped

/-- One action of the thread. -/
def World.act (b : Build) (w : World) (a : Action) : World where
  live := w.liveAfter b a
  dropped := w.droppedAfter a
  tracer := w.tracer.watch b a

/-- A thread that has not called anything yet. -/
def World.fresh (bounds : StackBounds) (earlier : Text) : World where
  tracer := .fresh bounds earlier

namespace World

/-- The records of the frames being executed. -/
def records (w : World) : List FrameRecord := w.live.filterMap Frame.record

variable {b : Build} {w : World}

@[simp] lemma act_live (b : Build) (w : World) (a : Action) :
    (w.act b a).live = w.liveAfter b a := rfl

@[simp] lemma act_tracer (b : Build) (w : World) (a : Action) :
    (w.act b a).tracer = w.tracer.watch b a := rfl

@[simp] lemma act_dropped (b : Build) (w : World) (a : Action) :
    (w.act b a).dropped = w.droppedAfter a := rfl

end World

/-! ### What the machine does to a thread -/

/-- A call that runs out of line lies below every frame it shares the thread stack with. -/
def RunsBelow (bounds : StackBounds) (key : FrameKey) (live : List Frame) : Prop :=
  ∀ f ∈ live, onThreadStack bounds key.level = true → onThreadStack bounds f.key.level = true →
    key.level < f.key.level

/-- The exit hook of the frame `own` over the frames `outer`: called from the frame itself it
resolves to the frame's own level, turned into a jump to that of the caller. -/
structure ExitsFrom (bounds : StackBounds) (own : Frame) (outer : List Frame) (x : ExitCall) :
    Prop where
  hooked : own.isHooked = true
  callee_eq : x.callee = own.key.callee
  caller_eq : x.caller = own.key.caller
  called : x.tailCalled = false → x.level = own.key.level
  tailCalled : x.tailCalled = true → onThreadStack bounds own.key.level = true →
    onThreadStack bounds x.level = true →
      own.key.level < x.level ∧ ∀ f ∈ outer, f.record.isSome = true →
        onThreadStack bounds f.key.level = true → x.level ≤ f.key.level

/-! ### What an action does to the record stack -/

variable {b : Build} {s : ThreadState} {w : World}

lemma EnterStep.entered_eq {e : EnterCall} {s' : ThreadState} (h : EnterStep b e s s') :
    s'.entered = s.entered := by
  cases h with
  | overflow hover => rfl
  | @unlogged s₀ s₁ hover hslot hquiet hfp =>
    obtain ⟨capacity, rfl, -⟩ := reserveSlot_eq_some hslot
    rcases hfp with ⟨-, rfl⟩ | ⟨-, rfl⟩
    · rw [enterReclaim_eq]
      rfl
    · obtain ⟨_, _, _, hframe, -⟩ := getThreadFp_frame
        (({ s with capacity := capacity } : ThreadState).enterReclaim b e) b e.threadFp
      rw [hframe, enterReclaim_eq]
      rfl
  | @logged s₀ s₁ view hover hslot hview hopen hs₁ =>
    obtain ⟨capacity, rfl, -⟩ := reserveSlot_eq_some hslot
    obtain ⟨_, _, _, hframe, -⟩ := getThreadFp_frame
      (({ s with capacity := capacity } : ThreadState).enterReclaim b e) b e.threadFp
    rw [hs₁, hframe, enterReclaim_eq, enterParentReclaim_eq]
    rfl

lemma ExitStep.entered_eq {x : ExitCall} {s' : ThreadState} (h : ExitStep b x s s') :
    s'.entered = s.entered := by
  cases h with
  | drained hover => rfl
  | empty hover hempty => rfl
  | left hover hrec =>
    rw [leaveFrame_eq (s := s.popped b frameEndJump (s.aboveExiting x)) hrec]
    rfl

lemma CatchStep.entered_eq {c : EventCall} {s' : ThreadState} (h : CatchStep b c s s') :
    s'.entered = s.entered := by
  cases h with
  | popped hquiet => rfl
  | written hnamed hreads hline => exact hline.frames_eq.2.2.2.2.1

/-- A call is counted as overflow, or pops dead records and pushes its own, which its frame then
remembers. -/
lemma call_cases (b : Build) (s : ThreadState) (e : EnterCall) (site : CallSite) :
    (s.overflows e = true ∧ (s.watch b (.call e site)).frames = s.frames ∧
      (s.watch b (.call e site)).frameOverflowCount = s.frameOverflowCount + 1 ∧
      Frame.hooked e site s (s.watch b (.call e site)) = ⟨e.key, site, none, true, s⟩) ∨
    ∃ r, s.overflows e = false ∧ PushedBy s e r ∧
      (s.watch b (.call e site)).frames = r :: s.frames.drop (s.enterDead e) ∧
      (s.watch b (.call e site)).frameOverflowCount = s.frameOverflowCount ∧
      Frame.hooked e site s (s.watch b (.call e site)) = ⟨e.key, site, some r, false, s⟩ := by
  have hwatch : s.watch b (.call e site) = { s.enterFrame b e with entered := (s.enterFrame b e).entered + 1 } :=
    rfl
  obtain ⟨-, ⟨hover, hcount⟩ | ⟨hover, hcount, r, hpushed, hframes⟩⟩ := (enterStep b e s).frames_eq
  · rw [hwatch, hcount]
    exact .inl ⟨hover, rfl, rfl, by simp [Frame.hooked, ThreadState.countOverflow]⟩
  · rw [hwatch]
    exact .inr ⟨r, hover, hpushed, hframes, hcount, by simp [Frame.hooked, hcount, hframes]⟩

/-- A call of an instrumented function makes a frame with hooks. -/
lemma isHooked_hooked (b : Build) (s : ThreadState) (e : EnterCall) (site : CallSite) :
    (Frame.hooked e site s (s.watch b (.call e site))).isHooked = true := by
  rcases call_cases b s e site with ⟨-, -, -, hframe⟩ | ⟨r, -, -, -, -, hframe⟩
  · rw [hframe]
    rfl
  · rw [hframe]
    rfl

lemma watch_call_entered (b : Build) (s : ThreadState) (e : EnterCall) (site : CallSite) :
    (s.watch b (.call e site)).entered = s.entered + 1 :=
  congrArg (· + 1) (enterStep b e s).entered_eq

/-- An action that is neither a call nor a return of an instrumented function leaves the tracer as it is, adds
a line, or is a catch. -/
lemma watch_cases (b : Build) (s : ThreadState) (a : Action) :
    (∃ e site, a = .call e site) ∨ (∃ x, a = .leave x) ∨ s.watch b a = s ∨
      (∃ r, EventStep b r s (s.watch b a)) ∨ ∃ c, a = .caught c ∧ CatchStep b c s (s.watch b a) := by
  cases a with
  | call e site => exact .inl ⟨e, site, rfl⟩
  | leave x => exact .inr (.inl ⟨x, rfl⟩)
  | callPlain key site => exact .inr (.inr (.inl rfl))
  | leavePlain => exact .inr (.inr (.inl rfl))
  | jump n => exact .inr (.inr (.inl rfl))
  | thrown kind c => simpa [ThreadState.watch, Action.hook] using hookStep_cases b s (.thrown kind c)
  | caught c => simpa [ThreadState.watch, Action.hook] using hookStep_cases b s (.caught c)
  | terminated reason c =>
    simpa [ThreadState.watch, Action.hook] using hookStep_cases b s (.terminated reason c)

lemma watch_stackBounds (b : Build) (s : ThreadState) (a : Action) :
    (s.watch b a).stackBounds = s.stackBounds := by
  rcases watch_cases b s a with ⟨e, site, rfl⟩ | ⟨x, rfl⟩ | hsame | ⟨r, hline⟩ | ⟨c, -, hstep⟩
  · exact (enterStep b e s).frames_eq.1
  · exact (exitStep b x s).frames_eq.1
  · rw [hsame]
  · exact hline.frames_eq.2.2.2.1
  · exact hstep.frames_eq.1

/-- Nothing but a call pushes a record or counts an activation. -/
lemma watch_drop {a : Action} (ha : ∀ e site, a ≠ .call e site) :
    ∃ n, (s.watch b a).frames = s.frames.drop n ∧ (s.watch b a).entered = s.entered := by
  rcases watch_cases b s a with ⟨e, site, rfl⟩ | ⟨x, rfl⟩ | hsame | ⟨r, hline⟩ | ⟨c, -, hstep⟩
  · exact absurd rfl (ha e site)
  · obtain ⟨-, n, hframes⟩ := (exitStep b x s).frames_eq
    exact ⟨n, hframes, (exitStep b x s).entered_eq⟩
  · rw [hsame]
    exact ⟨0, rfl, rfl⟩
  · exact ⟨0, hline.frames_eq.1, hline.frames_eq.2.2.2.2.1⟩
  · exact ⟨s.catchDead c, hstep.frames_eq.2.2, hstep.entered_eq⟩

/-- Nothing but a call adds a frame. -/
lemma liveAfter_drop {a : Action} (hcall : ∀ e site, a ≠ .call e site)
    (hplain : ∀ key site, a ≠ .callPlain key site) : ∃ n, w.liveAfter b a = w.live.drop n := by
  cases a with
  | call e site => exact absurd rfl (hcall e site)
  | callPlain key site => exact absurd rfl (hplain key site)
  | leave x => exact ⟨1, List.drop_one.symm⟩
  | leavePlain => exact ⟨1, List.drop_one.symm⟩
  | jump n => exact ⟨n, rfl⟩
  | thrown kind c => exact ⟨0, rfl⟩
  | caught c => exact ⟨0, rfl⟩
  | terminated reason c => exact ⟨0, rfl⟩

end CallStackLogger
