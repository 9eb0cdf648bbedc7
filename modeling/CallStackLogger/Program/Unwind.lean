import CallStackLogger.Program.Pairing
import CallStackLogger.Trace.Effects

/-!
# Frames left by an exception

Where the unwinder runs the exit hooks as well, a frame has one way to be entered and two to be left: by
returning, or with an exception on its way through. The hook tells these apart by the number of exceptions
in flight. While an exception is on its way, the cleanups it passes run code of their own, which may throw
and catch in turn, to any depth; each of them holds one exception back, and so the count at the exit of a
frame differs from that at its enter exactly when one is leaving it.
-/

namespace CallStackLogger

open Run

variable {b : Build} {w : World} {bounds : StackBounds}

/-! ### Nested runs with exceptions -/

/-- A catch in the innermost frame, or in one without hooks below it. -/
def CaughtInside (bounds : StackBounds) (w : World) (c : EventCall) : Prop :=
  c.atStub = false ∧ ∀ f ∈ w.live, onThreadStack bounds c.level = true →
    onThreadStack bounds f.key.level = true → c.level ≤ f.key.level

/-- Calls that run out of line, exits of the innermost frame, and the events of exceptions. -/
def HookedAction (bounds : StackBounds) (w : World) : Action → Prop
  | .caught c       => CaughtInside bounds w c
  | .thrown _ _     => True
  | .terminated _ _ => True
  | a               => NestedAction bounds w a

/-- The record stack and what goes with it are the same in both states. -/
structure SameStack (s s' : ThreadState) : Prop where
  frames : s'.frames = s.frames
  overflow : s'.frameOverflowCount = s.frameOverflowCount
  stackBounds : s'.stackBounds = s.stackBounds
  capacity : s'.capacity = s.capacity
  fullPush : s'.fullPush = s.fullPush

variable {s s' : ThreadState}

lemma SameStack.of_eq (h : s' = s) : SameStack s s' := by
  rw [h]
  exact ⟨rfl, rfl, rfl, rfl, rfl⟩

lemma EventStep.sameStack {r : LineReply} (h : EventStep b r s s') : SameStack s s' := by
  obtain ⟨hframes, -, hcount, hbounds, -, -, hcapacity, hfull⟩ := h.frames_eq
  exact ⟨hframes, hcount, hbounds, hcapacity, hfull⟩

lemma CatchStep.sameStack {c : EventCall} (h : CatchStep b c s s') (hnone : s.catchDead c = 0) :
    SameStack s s' := by
  cases h with
  | popped hquiet =>
    rw [hnone, popped_zero]
    exact .of_eq rfl
  | written hnamed hreads hline =>
    rw [hnone, popped_zero] at hline
    exact hline.sameStack

/-- A record that does not share its level is alone in its group. -/
lemma inlinedDeadOnCatch_eq_zero {records : List FrameRecord} (h : Separated bounds records)
    (catchLevel : Addr) (chain : List Text) : inlinedDeadOnCatch records catchLevel bounds chain = 0 := by
  cases chain with
  | nil => rfl
  | cons catcher chain =>
    rw [inlinedDeadOnCatch]
    split_ifs with hgroup
    · obtain ⟨htop, hon⟩ := Bool.and_eq_true_iff.mp hgroup
      cases records with
      | nil => simp at htop
      | cons top rest =>
        have hlevel : top.level = catchLevel := by simpa using htop
        rw [← hlevel] at hon ⊢
        refine deadRecordsAboveMatch_eq_zero (ρ := FrameRecord) (fun r hr heq => ?_) _
        have hlt := (List.pairwise_cons.mp h).1 r (List.mem_of_mem_head? hr) hon
          (by rw [show r.level = top.level from heq]; exact hon)
        exact absurd heq (Nat.ne_of_gt hlt)
    · rfl

namespace Nested

variable {c : EventCall}

/-- Every frame on the record stack is alive, and a catch takes none of them. -/
lemma catchDead_eq_zero (h : Nested bounds w) (hc : CaughtInside bounds w c) :
    w.tracer.catchDead c = 0 := by
  have hle : ∀ r ∈ w.tracer.frames, onThreadStack bounds c.level = true →
      onThreadStack bounds r.level = true → c.level ≤ r.level := by
    intro r hr hcatch hon
    obtain ⟨f, hf, -, hkey⟩ := h.paired.exists_frame r hr
    have hlevel : f.key.level = r.level := congrArg FrameKey.level hkey
    rw [← hlevel] at hon ⊢
    exact hc.2 f hf hcatch hon
  have hlevelStep : deadRecordsOnCatch w.tracer.frames c.level w.tracer.stackBounds = 0 := by
    rw [h.bounds_eq, deadRecordsOnCatch]
    split_ifs with hcatch
    · refine Scan.length_takeWhile_eq_zero fun r hr => ?_
      by_cases hon : onThreadStack bounds r.level = true
      · simpa [hon] using hle r (List.mem_of_mem_head? hr) hcatch hon
      · simp [hon]
    · rfl
  have hinlined : ∀ chain, inlinedDeadOnCatch w.tracer.frames c.level w.tracer.stackBounds chain = 0 :=
    inlinedDeadOnCatch_eq_zero (h.bounds_eq ▸ h.separated) c.level
  have hcaught := hc.1
  rw [ThreadState.catchDead]
  split
  · rename_i site typeName hsite htype
    simp only [EventCall.atStub, hsite, Option.bind_some, decide_eq_false_iff_not] at hcaught
    rw [if_neg hcaught, hlevelStep]
    simp only [List.drop_zero, hinlined]
  · rfl

/-- An event that leaves the record stack alone keeps a run nested. -/
lemma of_event (h : Nested bounds w) (ev : HookEvent) (hsame : SameStack w.tracer (hookStep b w.tracer ev)) :
    Nested bounds { w with tracer := hookStep b w.tracer ev } where
  bounds_eq := hsame.stackBounds.trans h.bounds_eq
  paired := h.paired.of_eq hsame.frames hsame.overflow
  separated := by
    rw [hsame.frames]
    exact h.separated
  depth := h.depth.step ev
  room := h.room.of_drop (n := 0) hsame.frames hsame.capacity hsame.fullPush

lemma thrown (h : Nested bounds w) (kind : ThrowKind) (c : EventCall) :
    Nested bounds (w.act b (.thrown kind c)) := by
  apply h.of_event (.thrown kind c)
  rcases thrown_cases b w.tracer kind c with hsame | hline
  · exact .of_eq hsame
  · exact hline.sameStack

lemma terminated (h : Nested bounds w) (reason : TerminateReason) (c : EventCall) :
    Nested bounds (w.act b (.terminated reason c)) := by
  apply h.of_event (.terminated reason c)
  rcases terminated_cases b w.tracer reason c with hsame | hline
  · exact .of_eq hsame
  · exact hline.sameStack

lemma caught (h : Nested bounds w) (hc : CaughtInside bounds w c) :
    Nested bounds (w.act b (.caught c)) := by
  apply h.of_event (.caught c)
  rcases caught_cases b w.tracer c with hsame | hstep
  · exact .of_eq hsame
  · exact hstep.sameStack (h.catchDead_eq_zero hc)

/-- Exceptions do not disturb the pairing. -/
lemma hooked {a : Action} (h : Nested bounds w) (ha : HookedAction bounds w a) :
    Nested bounds (w.act b a) := by
  cases a with
  | caught c => exact h.caught ha
  | thrown kind c => exact h.thrown kind c
  | terminated reason c => exact h.terminated reason c
  | call e site => exact h.act ha
  | leave x => exact h.act ha
  | callPlain _ _ => exact h.act ha
  | leavePlain => exact h.act ha
  | jump _ => exact h.act ha

/-- The exit hook of a logged frame finishes the frame's own line. -/
lemma leave_logged {x : ExitCall} {own : Frame} {r : FrameRecord} (h : Nested bounds w)
    (hx : NestedAction bounds w (.leave x)) (hown : own ∈ w.live.head?) (hr : own.record = some r)
    (hlogged : r.logged = true) :
    w.tracer.exitingRecord x = some r ∧
      (w.act b (.leave x)).tracer.traceFile = w.tracer.traceFile.markLeft b x r := by
  obtain ⟨own', outer, hlive, hexits⟩ := hx
  obtain rfl : own' = own := by simpa [hlive] using hown
  obtain ⟨hcases, -⟩ := h.leave_cases (b := b) hlive hexits
  have hpaired := h.paired
  rw [hlive] at hpaired
  rcases hcases with ⟨hcounted, -, -⟩ | ⟨-, hzero, habove, r', hr', hframes⟩
  · cases hpaired with
    | counted _ hrecord => exact absurd (hr.symm.trans hrecord) (by simp)
    | pushed hpushed => exact absurd (hcounted.symm.trans hpushed) (by simp)
  · obtain rfl : r' = r := Option.some.inj (hr'.symm.trans hr)
    have hstep : ExitStep b x w.tracer (w.act b (.leave x)).tracer := exitStep b x w.tracer
    refine ⟨by simp [ThreadState.exitingRecord, hzero, habove, hframes], ?_⟩
    generalize (w.act b (.leave x)).tracer = s' at hstep
    cases hstep with
    | drained hover => exact absurd hover (by simp [hzero])
    | empty hover hempty => exact absurd (hframes.symm.trans hempty) (by simp)
    | @left record rest hover hrec =>
      rw [leaveFrame_eq (s := w.tracer.popped b frameEndJump (w.tracer.aboveExiting x)) hrec]
      rw [habove, List.drop_zero, hframes] at hrec
      obtain rfl := (List.cons.inj hrec).1
      simp [hlogged, habove]

end Nested

/-! ### Exceptions in flight -/

/-- What the control of a thread is inside of: a frame, or a cleanup that holds an exception back. -/
inductive Marker where
  | frame
  | cleanup
deriving DecidableEq, Repr

/-- A thread with the exceptions it has in flight: whether one is on its way, how deep its control is
nested, and what `std::uncaught_exceptions()` counts. -/
structure CxxThread where
  world : World
  control : List Marker := []
  unwinding : Bool := false
  uncaught : Nat := 0

/-- What a thread can do. A throw or rethrow sets an exception on its way and a catch ends it; a cleanup it
passes runs until it resumes. The events are those the tracer sees, if any. -/
inductive CxxAction where
  | call (e : EnterCall) (site : CallSite)
  | returns (x : ExitCall)
  | unwinds (x : ExitCall)
  | thrown (event : Option (ThrowKind × EventCall))
  | cleanup
  | resume
  | caught (event : Option EventCall)
  | terminated (event : Option (TerminateReason × EventCall))

/-- The action as the tracer sees it. -/
def CxxAction.action : CxxAction → Option Action
  | .call e site      => some (.call e site)
  | .returns x        => some (.leave x)
  | .unwinds x        => some (.leave x)
  | .thrown event     => event.map fun p => .thrown p.1 p.2
  | .cleanup          => none
  | .resume           => none
  | .caught event     => event.map .caught
  | .terminated event => event.map fun p => .terminated p.1 p.2

/-- What becomes of control and exceptions. A terminate handler runs in front of an exception that stays
in flight. -/
def CxxThread.flow (t : CxxThread) : CxxAction → List Marker × Bool × Nat
  | .call _ _     => (.frame :: t.control, t.unwinding, t.uncaught)
  | .returns _    => (t.control.tail, t.unwinding, t.uncaught)
  | .unwinds _    => (t.control.tail, t.unwinding, t.uncaught)
  | .thrown _     => (t.control, true, t.uncaught + 1)
  | .cleanup      => (.cleanup :: t.control, false, t.uncaught)
  | .resume       => (t.control.tail, true, t.uncaught)
  | .caught _     => (t.control, false, t.uncaught - 1)
  | .terminated _ => (if t.unwinding then .cleanup :: t.control else t.control, false, t.uncaught)

/-- One action of the thread. -/
def CxxThread.step (b : Build) (t : CxxThread) (a : CxxAction) : CxxThread where
  world := match a.action with
    | some act => t.world.act b act
    | none     => t.world
  control := (t.flow a).1
  unwinding := (t.flow a).2.1
  uncaught := (t.flow a).2.2

/-- A thread that has not called anything yet. -/
def CxxThread.fresh (bounds : StackBounds) (earlier : Text) : CxxThread where
  world := .fresh bounds earlier

/-- The frames run out of line, control is nested, and the hooks read the count of exceptions in flight. -/
def CxxWellFormed (bounds : StackBounds) (t : CxxThread) (a : CxxAction) : Prop :=
  (∀ act ∈ a.action, HookedAction bounds t.world act) ∧
    match a with
    | .call e _     => t.unwinding = false ∧ e.uncaught = t.uncaught
    | .returns x    => t.unwinding = false ∧ t.control.head? = some .frame ∧ x.uncaught = t.uncaught
    | .unwinds x    => t.unwinding = true ∧ t.control.head? = some .frame ∧ x.uncaught = t.uncaught
    | .thrown _     => t.unwinding = false
    | .cleanup      => t.unwinding = true
    | .resume       => t.unwinding = false ∧ t.control.head? = some .cleanup
    | .caught _     => t.unwinding = true
    | .terminated _ => True

/-- What an exit leaves on the line of its frame, with the mark of an exception or without. -/
def leftFile (b : Build) (f : TraceFile) (x : ExitCall) (r : FrameRecord) (marked : Bool) : TraceFile :=
  let field := formatDuration12chars (x.time - r.enterTime).toNat
  if marked then
    (if b.logElapsed then
      f.patchLineBytes r.activation r.lineStart placeholderOffsetInLine (setDurationFlag field frameEndException)
    else f).markFrameEnd b r frameEndException none
  else if b.logElapsed then f.patchLineBytes r.activation r.lineStart placeholderOffsetInLine field
  else f

/-- The exit hook of a logged frame marks it exactly when an exception is leaving it. -/
def ExitMarkExact (b : Build) (t : CxxThread) (a : CxxAction) : Prop :=
  ∀ x, a.action = some (.leave x) → ∀ own ∈ t.world.live.head?, ∀ r ∈ own.record, r.logged = true →
    t.world.tracer.exitingRecord x = some r ∧ x.byException r = t.unwinding ∧
      (t.step b a).world.tracer.traceFile = leftFile b t.world.tracer.traceFile x r t.unwinding

/-- How many exceptions are held back by cleanups. -/
def heldBack (control : List Marker) : Nat := control.count .cleanup

@[simp] lemma heldBack_cleanup (control : List Marker) :
    heldBack (.cleanup :: control) = heldBack control + 1 := by
  simp [heldBack]

@[simp] lemma heldBack_frame (control : List Marker) : heldBack (.frame :: control) = heldBack control := by
  simp [heldBack]

/-- How many exceptions are in flight. -/
def CxxThread.inFlight (t : CxxThread) : Nat := heldBack t.control + t.unwinding.toNat

/-- The frames of the control are those being executed, and each record remembers how many cleanups were
running when its frame was entered. -/
inductive Balanced : List Marker → List Frame → Prop where
  | nil : Balanced [] []
  | cleanup {control : List Marker} {live : List Frame} (h : Balanced control live) :
      Balanced (.cleanup :: control) live
  | frame {control : List Marker} {live : List Frame} {f : Frame} (h : Balanced control live)
      (hrecord : ∀ r ∈ f.record, r.uncaughtAtEnter = heldBack control) :
      Balanced (.frame :: control) (f :: live)

lemma Balanced.of_frame {control : List Marker} {live : List Frame} (h : Balanced (.frame :: control) live) :
    ∃ f rest, live = f :: rest ∧ Balanced control rest ∧ ∀ r ∈ f.record, r.uncaughtAtEnter = heldBack control := by
  cases h with
  | frame hrest hrecord => exact ⟨_, _, rfl, hrest, hrecord⟩

lemma Balanced.of_cleanup {control : List Marker} {live : List Frame}
    (h : Balanced (.cleanup :: control) live) : Balanced control live := by
  cases h with
  | cleanup hrest => exact hrest

/-- The state of a run with exceptions. -/
structure InFlight (bounds : StackBounds) (t : CxxThread) : Prop where
  nested : Nested bounds t.world
  balanced : Balanced t.control t.world.live
  count : t.uncaught = t.inFlight

namespace InFlight

variable {t : CxxThread} {a : CxxAction}

lemma nested_step (h : InFlight bounds t) (ha : CxxWellFormed bounds t a) :
    Nested bounds (t.step b a).world := by
  simp only [CxxThread.step]
  cases haction : a.action with
  | none => exact h.nested
  | some act => exact h.nested.hooked (ha.1 act haction)

/-- The frame of a call remembers the exceptions held back at its enter. -/
lemma balanced_call (h : InFlight bounds t) {e : EnterCall} {site : CallSite}
    (ha : CxxWellFormed bounds t (.call e site)) :
    Balanced (.frame :: t.control) (t.world.act b (.call e site)).live := by
  apply Balanced.frame h.balanced
  intro r hr
  rcases call_cases b t.world.tracer e site with ⟨-, -, -, hframe⟩ | ⟨r', -, hr', -, -, hframe⟩
  · simp [hframe] at hr
  · rw [hframe] at hr
    obtain rfl : r' = r := by simpa using hr
    rw [hr'.uncaught_eq, ha.2.2, h.count, CxxThread.inFlight, ha.2.1]
    rfl

lemma balanced_step (h : InFlight bounds t) (ha : CxxWellFormed bounds t a) :
    Balanced (t.step b a).control (t.step b a).world.live := by
  have hbalanced := h.balanced
  cases a with
  | call e site => exact h.balanced_call ha
  | returns x =>
    obtain ⟨control, hcontrol⟩ := List.head?_eq_some_iff.mp ha.2.2.1
    rw [hcontrol] at hbalanced
    obtain ⟨f, rest, hlive, hrest, -⟩ := hbalanced.of_frame
    simpa [CxxThread.step, CxxThread.flow, CxxAction.action, World.liveAfter, hcontrol, hlive] using hrest
  | unwinds x =>
    obtain ⟨control, hcontrol⟩ := List.head?_eq_some_iff.mp ha.2.2.1
    rw [hcontrol] at hbalanced
    obtain ⟨f, rest, hlive, hrest, -⟩ := hbalanced.of_frame
    simpa [CxxThread.step, CxxThread.flow, CxxAction.action, World.liveAfter, hcontrol, hlive] using hrest
  | thrown event => cases event <;> exact hbalanced
  | cleanup => exact .cleanup hbalanced
  | resume =>
    obtain ⟨control, hcontrol⟩ := List.head?_eq_some_iff.mp ha.2.2
    rw [hcontrol] at hbalanced
    simpa [CxxThread.step, CxxThread.flow, CxxAction.action, hcontrol] using hbalanced.of_cleanup
  | caught event => cases event <;> exact hbalanced
  | terminated event =>
    have hmarked : Balanced (t.step b (.terminated event)).control t.world.live := by
      simp only [CxxThread.step, CxxThread.flow]
      split_ifs
      · exact .cleanup hbalanced
      · exact hbalanced
    cases event <;> exact hmarked

lemma count_step (h : InFlight bounds t) (ha : CxxWellFormed bounds t a) :
    (t.step b a).uncaught = (t.step b a).inFlight := by
  have hcount := h.count
  rw [CxxThread.inFlight] at hcount
  cases a with
  | call e site => simpa [CxxThread.step, CxxThread.flow, CxxThread.inFlight] using hcount
  | returns x =>
    obtain ⟨control, hcontrol⟩ := List.head?_eq_some_iff.mp ha.2.2.1
    simpa [CxxThread.step, CxxThread.flow, CxxThread.inFlight, hcontrol] using hcount
  | unwinds x =>
    obtain ⟨control, hcontrol⟩ := List.head?_eq_some_iff.mp ha.2.2.1
    simpa [CxxThread.step, CxxThread.flow, CxxThread.inFlight, hcontrol] using hcount
  | thrown event =>
    have hrunning : t.unwinding = false := ha.2
    simp [CxxThread.step, CxxThread.flow, CxxThread.inFlight, hcount, hrunning]
  | cleanup =>
    have hunwinding : t.unwinding = true := ha.2
    simp [CxxThread.step, CxxThread.flow, CxxThread.inFlight, hcount, hunwinding]
  | resume =>
    obtain ⟨control, hcontrol⟩ := List.head?_eq_some_iff.mp ha.2.2
    have hrunning : t.unwinding = false := ha.2.1
    simp [CxxThread.step, CxxThread.flow, CxxThread.inFlight, hcount, hrunning, hcontrol]
  | caught event =>
    have hunwinding : t.unwinding = true := ha.2
    simp [CxxThread.step, CxxThread.flow, CxxThread.inFlight, hcount, hunwinding]
  | terminated event =>
    cases hunwinding : t.unwinding with
    | true => simp [CxxThread.step, CxxThread.flow, CxxThread.inFlight, hcount, hunwinding]
    | false => simp [CxxThread.step, CxxThread.flow, CxxThread.inFlight, hcount, hunwinding]

lemma step (h : InFlight bounds t) (ha : CxxWellFormed bounds t a) : InFlight bounds (t.step b a) :=
  ⟨h.nested_step ha, h.balanced_step ha, h.count_step ha⟩

/-- At the exit of a frame the count is that of its enter, and one more while an exception is leaving. -/
lemma byException_eq (h : InFlight bounds t) {x : ExitCall} (hhead : t.control.head? = some .frame)
    (hx : x.uncaught = t.uncaught) {own : Frame} {r : FrameRecord} (hown : own ∈ t.world.live.head?)
    (hr : own.record = some r) : x.byException r = t.unwinding := by
  obtain ⟨control, hcontrol⟩ := List.head?_eq_some_iff.mp hhead
  have hbalanced := h.balanced
  rw [hcontrol] at hbalanced
  obtain ⟨f, rest, hlive, -, hrecord⟩ := hbalanced.of_frame
  obtain rfl : f = own := by simpa [hlive] using hown
  have hcount := h.count
  rw [CxxThread.inFlight, hcontrol, heldBack_frame] at hcount
  rw [ExitCall.byException, hrecord r hr, hx, hcount]
  cases t.unwinding <;> simp

lemma exitMarkExact (hexceptions : b.logExceptions = true) (h : InFlight bounds t)
    (ha : CxxWellFormed bounds t a) : ExitMarkExact b t a := by
  intro x haction own hown r hr hlogged
  have hleave : NestedAction bounds t.world (.leave x) := ha.1 _ haction
  have hflow : t.control.head? = some .frame ∧ x.uncaught = t.uncaught := by
    cases a with
    | returns x' =>
      obtain rfl : x' = x := by simpa [CxxAction.action] using haction
      exact ha.2.2
    | unwinds x' =>
      obtain rfl : x' = x := by simpa [CxxAction.action] using haction
      exact ha.2.2
    | call e site => simp [CxxAction.action] at haction
    | thrown event => cases event <;> simp [CxxAction.action] at haction
    | cleanup => simp [CxxAction.action] at haction
    | resume => simp [CxxAction.action] at haction
    | caught event => cases event <;> simp [CxxAction.action] at haction
    | terminated event => cases event <;> simp [CxxAction.action] at haction
  obtain ⟨hrecord, hfile⟩ := h.nested.leave_logged (b := b) hleave hown hr hlogged
  have hmark := h.byException_eq hflow.1 hflow.2 hown hr
  refine ⟨hrecord, hmark, ?_⟩
  have hstep : (t.step b a).world = t.world.act b (.leave x) := by simp [CxxThread.step, haction]
  rw [hstep, hfile, TraceFile.markLeft, leftFile]
  cases hunwinding : t.unwinding with
  | true => simp [ExitCall.durationField, hmark, hunwinding, hexceptions]
  | false => simp [ExitCall.durationField, hmark, hunwinding]

lemma fresh (bounds : StackBounds) (earlier : Text) : InFlight bounds (.fresh bounds earlier) where
  nested := Nested.fresh bounds earlier
  balanced := .nil
  count := rfl

end InFlight

/-- In every run in which all frames run their exit hooks, whatever is thrown, caught and thrown again on
the way, an exit hook marks a logged frame exactly when an exception is leaving it. -/
theorem exit_mark_exact (b : Build) (hexceptions : b.logExceptions = true) (bounds : StackBounds)
    (earlier : Text) (acts : List CxxAction)
    (hacts : AllSteps (CxxThread.step b) (CxxWellFormed bounds) (.fresh bounds earlier) acts) :
    AllSteps (CxxThread.step b) (ExitMarkExact b) (.fresh bounds earlier) acts := by
  apply allSteps_of_invariant (I := InFlight bounds) _ _ (InFlight.fresh bounds earlier) hacts
  · exact fun t a h ha => h.step ha
  · exact fun t a h ha => h.exitMarkExact hexceptions ha

/-- `main` calls `run`, which throws; the cleanup of `run` calls `drop`, and the handler is in `main`. -/
theorem exit_mark_exact_cleanup :
    AllSteps (CxxThread.step ⟨true, true, false⟩) (ExitMarkExact ⟨true, true, false⟩)
      (.fresh ⟨16, 4096, true⟩ [])
      [.call (.plain ⟨1, 10, 1000⟩ [] (.named "main".toList none)) ⟨2048, 1000, "main".toList, false⟩,
       .call (.plain ⟨2, 20, 900⟩ [] (.named "run".toList none)) ⟨1000, 900, "run".toList, false⟩,
       .thrown none,
       .cleanup,
       .call { EnterCall.plain ⟨3, 30, 800⟩ [] (.named "drop".toList none) with uncaught := 1 }
        ⟨900, 800, "drop".toList, false⟩,
       .returns { ExitCall.plain ⟨3, 30, 800⟩ 31 with uncaught := 1 },
       .resume,
       .unwinds { ExitCall.plain ⟨2, 20, 900⟩ 21 with uncaught := 1 },
       .caught (some (.plain 1000 [])),
       .returns (.plain ⟨1, 10, 1000⟩ 11)] := by
  apply exit_mark_exact _ rfl
  have hooked {act : Action} {w : World} (h : HookedAction ⟨16, 4096, true⟩ w act) :
      ∀ a ∈ some act, HookedAction ⟨16, 4096, true⟩ w a := by
    intro a ha
    rwa [← Option.some.inj ha]
  refine ⟨⟨hooked ⟨rfl, by simp [RunsBelow, CxxThread.fresh, World.fresh]⟩, rfl, rfl⟩,
    ⟨hooked ⟨rfl, ?_⟩, rfl, rfl⟩, ⟨by simp [CxxAction.action], rfl⟩, ⟨by simp [CxxAction.action], rfl⟩,
    ⟨hooked ⟨rfl, ?_⟩, rfl, rfl⟩, ⟨hooked ?_, rfl, rfl, rfl⟩, ⟨by simp [CxxAction.action], rfl, rfl⟩,
    ⟨hooked ?_, rfl, rfl, rfl⟩, ⟨hooked ⟨by decide, ?_⟩, rfl⟩, ⟨hooked ?_, rfl, rfl, rfl⟩, trivial⟩
  · simp [RunsBelow, CxxThread.step, CxxAction.action, CxxThread.fresh, World.liveAfter, World.fresh,
      Frame.hooked, EnterCall.plain, EnterCall.key]
  · simp [RunsBelow, CxxThread.step, CxxAction.action, CxxThread.fresh, World.liveAfter, World.fresh,
      Frame.hooked, EnterCall.plain, EnterCall.key]
  · exact ⟨_, _, rfl, isHooked_hooked .., rfl, rfl, fun _ => rfl, fun htail => absurd htail (by decide)⟩
  · exact ⟨_, _, rfl, isHooked_hooked .., rfl, rfl, fun _ => rfl, fun htail => absurd htail (by decide)⟩
  · simp [CxxThread.step, CxxAction.action, CxxThread.fresh, World.liveAfter, World.fresh,
      Frame.hooked, EnterCall.plain, EnterCall.key, EventCall.plain]
  · exact ⟨_, _, rfl, isHooked_hooked .., rfl, rfl, fun _ => rfl, fun htail => absurd htail (by decide)⟩

end CallStackLogger
