import CallStackLogger.Core.Run
import CallStackLogger.Reconcile.Order
import CallStackLogger.Trace.Steps

/-!
# The level order over whole runs

With every level on the thread stack, the record stack is level ordered after every event,
whatever the program did, and the level step of an enter or a catch leaves no record under the
level it acts for.
-/

namespace CallStackLogger

open Run

variable {b : Build} {s s' : ThreadState} {bounds : StackBounds}

/-- The level a catch event acts for: a terminate stub covers its own level as well. -/
def EventCall.stepLevel (c : EventCall) : Addr := if c.atStub then c.level + 1 else c.level

/-- The level an event acts for counts as on the thread stack. -/
def LevelOnStack (bounds : StackBounds) : HookEvent → Prop
  | .enter e  => onThreadStack bounds e.level = true
  | .caught c => onThreadStack bounds c.stepLevel = true
  | _         => True

instance (bounds : StackBounds) : DecidablePred (LevelOnStack bounds)
  | .enter e        => inferInstanceAs (Decidable (onThreadStack bounds e.level = true))
  | .caught c       => inferInstanceAs (Decidable (onThreadStack bounds c.stepLevel = true))
  | .exit _         => inferInstanceAs (Decidable True)
  | .thrown _ _     => inferInstanceAs (Decidable True)
  | .terminated _ _ => inferInstanceAs (Decidable True)

/-- The record stack of a thread whose levels are all on its own stack. -/
structure OrderedStack (bounds : StackBounds) (s : ThreadState) : Prop where
  bounds_eq : s.stackBounds = bounds
  onStack : ∀ r ∈ s.frames, onThreadStack bounds r.level = true
  ordered : LevelOrdered s.frames

/-- What the level step of an event leaves on the record stack. -/
def LevelStepClears (b : Build) (s : ThreadState) : HookEvent → Prop
  | .enter e  => ∀ s₀, s.frameOverflowCount = 0 → s.reserveSlot e.reserved = some s₀ →
      ∀ r ∈ (s₀.enterLevelStep b e).frames, e.level ≤ r.level
  | .caught c => ∀ r ∈ (s.catchLevelStep b c.stepLevel c.uncaught).frames, c.stepLevel ≤ r.level
  | _         => True

lemma OrderedStack.of_drop {n : Nat} (h : OrderedStack bounds s) (hbounds : s'.stackBounds = s.stackBounds)
    (hframes : s'.frames = s.frames.drop n) : OrderedStack bounds s' where
  bounds_eq := hbounds.trans h.bounds_eq
  onStack := fun r hr => h.onStack r (List.mem_of_mem_drop (hframes ▸ hr))
  ordered := hframes ▸ h.ordered.drop n

/-- Behind the level step of an enter every record may lie under the entering frame. -/
lemma OrderedStack.liesOver (h : OrderedStack bounds s) (key : FrameKey) {n : Nat}
    (hkey : onThreadStack bounds key.level = true)
    (hn : deadRecordsOnEnter s.frames key s.stackBounds ≤ n) :
    ∀ r ∈ s.frames.drop n, LiesOver key r.toFrameKey := by
  intro r hr
  rw [h.bounds_eq] at hn
  refine liesOver_of_deadRecordsOnEnter h.ordered h.onStack hkey r ?_
  rw [← Nat.add_sub_cancel' hn, ← List.drop_drop] at hr
  exact List.mem_of_mem_drop hr

lemma OrderedStack.enter {e : EnterCall} (h : OrderedStack bounds s)
    (hkey : onThreadStack bounds e.level = true) (hstep : EnterStep b e s s') :
    OrderedStack bounds s' := by
  obtain ⟨hbounds, ⟨-, rfl⟩ | ⟨hover, -, r, hpushed, hframes⟩⟩ := hstep.frames_eq
  · exact ⟨h.bounds_eq, h.onStack, h.ordered⟩
  · have hr := hpushed.key_eq
    refine ⟨hbounds.trans h.bounds_eq, ?_, ?_⟩
    · intro record hrecord
      rw [hframes] at hrecord
      rcases List.mem_cons.mp hrecord with rfl | hrest
      · rw [hr]
        exact hkey
      · exact h.onStack record (List.mem_of_mem_drop hrest)
    · rw [hframes]
      refine List.pairwise_cons.mpr ⟨fun record hrecord => ?_, h.ordered.drop _⟩
      have hlies := h.liesOver e.key hkey (le_enterDead hover) record hrecord
      rwa [← hr] at hlies

lemma OrderedStack.event {r : LineReply} (h : OrderedStack bounds s) (hstep : EventStep b r s s') :
    OrderedStack bounds s' := by
  obtain ⟨hframes, -, -, hbounds, -⟩ := hstep.frames_eq
  exact h.of_drop (n := 0) hbounds hframes

/-- The level order survives every event. -/
lemma OrderedStack.step (h : OrderedStack bounds s) {ev : HookEvent}
    (hlevel : ∀ e, ev = .enter e → onThreadStack bounds e.level = true) :
    OrderedStack bounds (hookStep b s ev) := by
  rcases hookStep_cases b s ev with ⟨e, rfl⟩ | ⟨x, rfl⟩ | hsame | ⟨r, hline⟩ | ⟨c, -, hstep⟩
  · have hstep := h.enter (hlevel e rfl) (enterStep b e s)
    exact ⟨hstep.bounds_eq, hstep.onStack, hstep.ordered⟩
  · obtain ⟨hbounds, n, hframes⟩ := (exitStep b x s).frames_eq
    exact h.of_drop hbounds hframes
  · rwa [hsame]
  · exact h.event hline
  · obtain ⟨hbounds, -, hframes⟩ := hstep.frames_eq
    exact h.of_drop hbounds hframes

lemma OrderedStack.fresh (bounds : StackBounds) (earlier : Text) :
    OrderedStack bounds (.fresh bounds earlier) where
  bounds_eq := rfl
  onStack := by simp [ThreadState.fresh]
  ordered := .nil

/-- The level step of an event clears everything under its level. -/
lemma OrderedStack.levelStepClears (h : OrderedStack bounds s) {ev : HookEvent}
    (hlevel : LevelOnStack bounds ev) : LevelStepClears b s ev := by
  cases ev with
  | enter e =>
    intro s₀ _ hslot r hr
    obtain ⟨capacity, rfl, -⟩ := reserveSlot_eq_some hslot
    rw [enterLevelStep_eq] at hr
    exact (h.liesOver e.key hlevel le_rfl r hr).1
  | caught c =>
    intro r hr
    rw [catchLevelStep_eq, h.bounds_eq] at hr
    exact le_level_of_deadRecordsOnCatch h.ordered h.onStack hlevel r hr
  | exit x => trivial
  | thrown kind c => trivial
  | terminated reason c => trivial

/-- In every run whose levels are on the thread stack, the record stack stays level ordered and
each level step clears everything under the level it acts for. -/
theorem record_stack_ordered (b : Build) (bounds : StackBounds) (earlier : Text) (evs : List HookEvent)
    (hlevels : ∀ ev ∈ evs, LevelOnStack bounds ev) :
    AllSteps (hookStep b)
      (fun s ev => LevelOrdered (hookStep b s ev).frames ∧ LevelStepClears b s ev)
      (ThreadState.fresh bounds earlier) evs := by
  have hstep : ∀ s ev, OrderedStack bounds s → LevelOnStack bounds ev →
      OrderedStack bounds (hookStep b s ev) := by
    intro s ev h hlevel
    refine h.step ?_
    rintro e rfl
    exact hlevel
  exact allSteps_of_invariant (I := OrderedStack bounds) (D := fun _ ev => LevelOnStack bounds ev) hstep
    (fun s ev h hlevel => ⟨(hstep s ev h hlevel).ordered, h.levelStepClears hlevel⟩)
    (OrderedStack.fresh bounds earlier) (allSteps_of_forall_mem hlevels)

/-- The order holds through a call, a jump out of it, another call and a catch. -/
theorem record_stack_ordered_jump :
    AllSteps (hookStep ⟨true, true, false⟩)
      (fun s ev => LevelOrdered (hookStep ⟨true, true, false⟩ s ev).frames ∧
        LevelStepClears ⟨true, true, false⟩ s ev)
      (ThreadState.fresh ⟨16, 4096, true⟩ [])
      [.enter (.plain ⟨1, 10, 1024⟩ [] (.named "run".toList none)),
       .enter (.plain ⟨2, 20, 512⟩ [] (.named "step".toList none)),
       .enter (.plain ⟨3, 30, 768⟩ [] (.named "retry".toList none)),
       .caught (.plain 1024 []),
       .exit (.plain ⟨1, 10, 1024⟩ 11)] :=
  record_stack_ordered _ _ _ _ (by decide)

end CallStackLogger
