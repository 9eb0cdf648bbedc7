import CallStackLogger.Program.Unwind
import Mathlib.Data.Set.Finite.Lattice

/-!
# Nested durations

A run in which every frame runs its exit hook is a tree of calls. The clock is read at the end of the
enter hook and at the start of the exit hook, so the span of a frame holds the spans of everything
entered and left while it was live: those of the frames directly under it do not overlap and add up to
no more than its own, and none of them is displayed as longer.
-/

namespace CallStackLogger

open Run

variable {b : Build} {w : World} {bounds : StackBounds}

/-- An event of an exception between two calls. -/
inductive ExceptionEvent where
  | thrown (kind : ThrowKind) (c : EventCall)
  | caught (c : EventCall)
  | terminated (reason : TerminateReason) (c : EventCall)

def ExceptionEvent.action : ExceptionEvent → Action
  | .thrown kind c       => .thrown kind c
  | .caught c            => .caught c
  | .terminated reason c => .terminated reason c

/-- What runs under one frame, in order: events, and calls with what runs under them in turn. -/
inductive Calls where
  | done
  | event (ev : ExceptionEvent) (rest : Calls)
  | call (e : EnterCall) (site : CallSite) (inner : Calls) (x : ExitCall) (rest : Calls)

namespace Calls

/-- The actions of the thread. -/
def actions : Calls → List Action
  | .done                     => []
  | .event ev rest            => ev.action :: rest.actions
  | .call e site inner x rest => .call e site :: (inner.actions ++ .leave x :: rest.actions)

/-- The times at which the hooks read the clock. -/
def times : Calls → List Int
  | .done                  => []
  | .event _ rest          => rest.times
  | .call e _ inner x rest => e.time :: (inner.times ++ x.time :: rest.times)

end Calls

/-- The record a call pushes when it logs its frame. -/
def World.logs (b : Build) (w : World) (e : EnterCall) (site : CallSite) : Option FrameRecord :=
  (Frame.hooked e site w.tracer (w.tracer.watch b (.call e site))).record.filter (·.logged)

/-- A logged frame that has been left: its record and the exit that found it. -/
structure Measured where
  record : FrameRecord
  exit : ExitCall

/-- The nanoseconds computed at the exit. -/
def Measured.elapsed (m : Measured) : Nat := (m.exit.time - m.record.enterTime).toNat

/-- The duration field written at the exit. -/
def Measured.field (b : Build) (m : Measured) : Text := m.exit.durationField b m.record

/-- Every logged frame of a run. -/
def measured (b : Build) : World → Calls → List Measured
  | _, .done                     => []
  | w, .event ev rest            => measured b (w.act b ev.action) rest
  | w, .call e site inner x rest =>
    let called := w.act b (.call e site)
    let left := (exec (World.act b) called inner.actions).act b (.leave x)
    (w.logs b e site).toList.map (⟨·, x⟩) ++ measured b called inner ++ measured b left rest

/-- The logged frames of a run that have no other logged frame of it around them. -/
def direct (b : Build) : World → Calls → List Measured
  | _, .done                     => []
  | w, .event ev rest            => direct b (w.act b ev.action) rest
  | w, .call e site inner x rest =>
    let called := w.act b (.call e site)
    let left := (exec (World.act b) called inner.actions).act b (.leave x)
    (match w.logs b e site with
      | some r => [⟨r, x⟩]
      | none   => direct b called inner) ++ direct b left rest

/-- The exit of every logged frame finds the frame's own record and writes its field; the elapsed times of
the logged frames directly under it add up to no more than its own, and no frame entered and left while
it was live displays a larger value. -/
def DurationsNest (b : Build) : World → Calls → Prop
  | _, .done                     => True
  | w, .event ev rest            => DurationsNest b (w.act b ev.action) rest
  | w, .call e site inner x rest =>
    let called := w.act b (.call e site)
    let ending := exec (World.act b) called inner.actions
    let left := ending.act b (.leave x)
    (∀ r ∈ w.logs b e site,
      ending.tracer.exitingRecord x = some r ∧
      left.tracer.traceFile = ending.tracer.traceFile.markLeft b x r ∧
      ((direct b called inner).map Measured.elapsed).sum ≤ (Measured.mk r x).elapsed ∧
      ∀ m ∈ measured b called inner,
        fieldValue (m.field b) ≤ fieldValue ((Measured.mk r x).field b)) ∧
    DurationsNest b called inner ∧ DurationsNest b left rest

/-! ### The frame of a call is the one its exit leaves -/

lemma liveAfter_event (b : Build) (w : World) (ev : ExceptionEvent) :
    (w.act b ev.action).live = w.live := by
  cases ev <;> rfl

/-- Whatever runs under a frame leaves the frames around it as they were. -/
lemma Calls.live_exec (b : Build) (w : World) (c : Calls) :
    (exec (World.act b) w c.actions).live = w.live := by
  induction c generalizing w with
  | done => rfl
  | event ev rest ih =>
    rw [Calls.actions, exec_cons, ih, liveAfter_event]
  | call e site inner x rest ihInner ihRest =>
    rw [Calls.actions, exec_cons, exec_append, exec_cons, ihRest]
    show (exec (World.act b) (w.act b (.call e site)) inner.actions).live.tail = w.live
    rw [ihInner]
    rfl

/-- The clock of a logged frame starts at its enter. -/
lemma enterTime_of_logs {e : EnterCall} {site : CallSite} {r : FrameRecord} (hr : r ∈ w.logs b e site) :
    r.enterTime = e.time := by
  obtain ⟨hrecord, hlogged⟩ := Option.mem_filter_iff.mp hr
  rcases call_cases b w.tracer e site with ⟨-, -, -, hframe⟩ | ⟨r', -, hpushed, -, -, hframe⟩
  · rw [hframe] at hrecord
    simp at hrecord
  · rw [hframe] at hrecord
    obtain rfl : r' = r := by simpa using hrecord
    exact hpushed.time_eq hlogged

lemma elapsed_of_logs {e : EnterCall} {site : CallSite} {r : FrameRecord} (hr : r ∈ w.logs b e site)
    (x : ExitCall) : (Measured.mk r x).elapsed = (x.time - e.time).toNat := by
  rw [Measured.elapsed, enterTime_of_logs hr]

/-! ### Spans of time -/

/-- The clock does not run backwards, and what runs takes place between two times. -/
structure Within (lo hi : Int) (c : Calls) : Prop where
  sorted : c.times.Pairwise (· ≤ ·)
  bounded : ∀ t ∈ c.times, lo ≤ t ∧ t ≤ hi

namespace Within

variable {lo hi : Int} {e : EnterCall} {site : CallSite} {x : ExitCall} {c c' : Calls}

lemma enter_le_exit (h : Within lo hi (.call e site c x c')) : e.time ≤ x.time :=
  (List.pairwise_cons.mp h.sorted).1 x.time (List.mem_append_right _ List.mem_cons_self)

lemma enter (h : Within lo hi (.call e site c x c')) : lo ≤ e.time :=
  (h.bounded e.time List.mem_cons_self).1

lemma exit (h : Within lo hi (.call e site c x c')) : x.time ≤ hi :=
  (h.bounded x.time (List.mem_cons_of_mem _ (List.mem_append_right _ List.mem_cons_self))).2

/-- What runs under a frame does so between its enter and its exit. -/
lemma ofInner (h : Within lo hi (.call e site c x c')) : Within e.time x.time c := by
  obtain ⟨hafter, hsorted⟩ := List.pairwise_cons.mp h.sorted
  obtain ⟨hinner, -, hbefore⟩ := List.pairwise_append.mp hsorted
  refine ⟨hinner, fun t ht => ⟨hafter t (List.mem_append_left _ ht), ?_⟩⟩
  exact hbefore t ht x.time List.mem_cons_self

lemma ofRest (h : Within lo hi (.call e site c x c')) : Within x.time hi c' := by
  obtain ⟨-, hsorted⟩ := List.pairwise_cons.mp h.sorted
  obtain ⟨-, hlater, -⟩ := List.pairwise_append.mp hsorted
  obtain ⟨hafter, hrest⟩ := List.pairwise_cons.mp hlater
  refine ⟨hrest, fun t ht => ⟨hafter t ht, (h.bounded t ?_).2⟩⟩
  exact List.mem_cons_of_mem _ (List.mem_append_right _ (List.mem_cons_of_mem _ ht))

end Within

/-- Frames that are not nested into each other share the time between them. -/
lemma sum_direct_le {lo hi : Int} {c : Calls} (h : Within lo hi c) (hle : lo ≤ hi) :
    ((direct b w c).map Measured.elapsed).sum ≤ (hi - lo).toNat := by
  induction c generalizing w lo hi with
  | done => exact Nat.zero_le _
  | event ev rest ih => exact ih ⟨h.sorted, h.bounded⟩ hle
  | call e site inner x rest ihInner ihRest =>
    have henter := h.enter
    have hexit := h.exit
    have hspan := h.enter_le_exit
    rw [direct, List.map_append, List.sum_append]
    have hrest := ihRest (w := (exec (World.act b) (w.act b (.call e site)) inner.actions).act b (.leave x))
      h.ofRest hexit
    have hown : (((match w.logs b e site with
        | some r => [Measured.mk r x]
        | none   => direct b (w.act b (.call e site)) inner).map Measured.elapsed).sum : Nat) ≤
          (x.time - e.time).toNat := by
      cases hlogs : w.logs b e site with
      | none => exact ihInner h.ofInner hspan
      | some r =>
        show (Measured.mk r x).elapsed + 0 ≤ _
        rw [elapsed_of_logs hlogs x]
        exact Nat.le_refl _
    calc
      _ ≤ (x.time - e.time).toNat + (hi - x.time).toNat := Nat.add_le_add hown hrest
      _ ≤ (hi - lo).toNat := by omega

/-- A frame takes no longer than the time it was entered and left in. -/
lemma elapsed_le_of_measured {lo hi : Int} {c : Calls} (h : Within lo hi c) {m : Measured}
    (hm : m ∈ measured b w c) : m.elapsed ≤ (hi - lo).toNat := by
  induction c generalizing w lo hi with
  | done => simp [measured] at hm
  | event ev rest ih => exact ih ⟨h.sorted, h.bounded⟩ hm
  | call e site inner x rest ihInner ihRest =>
    have henter := h.enter
    have hexit := h.exit
    have hspan := h.enter_le_exit
    rw [measured, List.mem_append, List.mem_append] at hm
    rcases hm with (hown | hinner) | hrest
    · obtain ⟨r, hr, rfl⟩ := List.mem_map.mp hown
      rw [elapsed_of_logs (Option.mem_toList.mp hr) x]
      omega
    · have hle := ihInner h.ofInner hinner
      omega
    · have hle := ihRest h.ofRest hrest
      omega

/-- The flag of an exception aside, a frame that took longer displays no smaller value. -/
lemma fieldValue_field_mono {m m' : Measured} (h : m.elapsed ≤ m'.elapsed) :
    fieldValue (m.field b) ≤ fieldValue (m'.field b) := by
  have hvalue : ∀ m : Measured, fieldValue (m.field b) = fieldValue (formatDuration12chars m.elapsed) := by
    intro m
    rw [Measured.field, ExitCall.durationField]
    split_ifs
    · exact fieldValue_setDurationFlag (by decide) _
    · rfl
  rw [hvalue, hvalue]
  exact fieldValue_formatDuration_mono h

/-! ### Nested runs -/

lemma durationsNest_of_nested {lo hi : Int} {c : Calls} (h : Nested bounds w) (htimes : Within lo hi c)
    (hc : AllSteps (World.act b) (HookedAction bounds) w c.actions) : DurationsNest b w c := by
  induction c generalizing w lo hi with
  | done => trivial
  | event ev rest ih => exact ih (h.hooked hc.1) ⟨htimes.sorted, htimes.bounded⟩ hc.2
  | call e site inner x rest ihInner ihRest =>
    obtain ⟨hcall, hinner, hleave, hrest⟩ :
        HookedAction bounds w (.call e site) ∧
        AllSteps (World.act b) (HookedAction bounds) (w.act b (.call e site)) inner.actions ∧
        HookedAction bounds (exec (World.act b) (w.act b (.call e site)) inner.actions) (.leave x) ∧
        AllSteps (World.act b) (HookedAction bounds)
          ((exec (World.act b) (w.act b (.call e site)) inner.actions).act b (.leave x)) rest.actions := by
      obtain ⟨hcall, htail⟩ := hc
      exact ⟨hcall, (allSteps_append _ _ _).mp htail⟩
    have hcalled : Nested bounds (w.act b (.call e site)) := h.hooked hcall
    have hending : Nested bounds (exec (World.act b) (w.act b (.call e site)) inner.actions) :=
      exec_invariant (fun w a hw ha => hw.hooked ha) hcalled hinner
    refine ⟨fun r hr => ?_, ihInner hcalled htimes.ofInner hinner, ihRest (hending.hooked hleave) htimes.ofRest hrest⟩
    obtain ⟨hrecord, hlogged⟩ := Option.mem_filter_iff.mp hr
    have hown : Frame.hooked e site w.tracer (w.tracer.watch b (.call e site)) ∈
        (exec (World.act b) (w.act b (.call e site)) inner.actions).live.head? := by
      rw [Calls.live_exec]
      rfl
    obtain ⟨hfound, hfile⟩ := hending.leave_logged (b := b) hleave hown hrecord hlogged
    refine ⟨hfound, hfile, ?_, fun m hm => fieldValue_field_mono ?_⟩
    · rw [elapsed_of_logs hr x]
      exact sum_direct_le htimes.ofInner htimes.enter_le_exit
    · rw [elapsed_of_logs hr x]
      exact elapsed_le_of_measured htimes.ofInner hm

/-- The durations of every run of calls that all run their exit hooks nest, whichever of them are logged,
as long as the clock does not run backwards. -/
theorem durations_nest (b : Build) (bounds : StackBounds) (earlier : Text) (c : Calls)
    (hclock : c.times.Pairwise (· ≤ ·))
    (hc : AllSteps (World.act b) (HookedAction bounds) (.fresh bounds earlier) c.actions) :
    DurationsNest b (.fresh bounds earlier) c := by
  obtain ⟨lo, hlo⟩ := (List.finite_toSet c.times).bddBelow
  obtain ⟨hi, hhi⟩ := (List.finite_toSet c.times).bddAbove
  exact durationsNest_of_nested (Nested.fresh bounds earlier) ⟨hclock, fun t ht => ⟨hlo ht, hhi ht⟩⟩ hc

/-- `run` takes 900 ns, its callee `step`, which an exception leaves, 250 of them. -/
theorem durations_nest_step :
    DurationsNest ⟨true, true, false⟩ (.fresh ⟨16, 4096, true⟩ [])
      (.call { EnterCall.plain ⟨1, 10, 1024⟩ [] (.named "run".toList none) with time := 1000 }
        ⟨2048, 1024, "run".toList, false⟩
        (.call { EnterCall.plain ⟨2, 20, 512⟩ [] (.named "step".toList none) with time := 1100 }
          ⟨512, 512, "step".toList, false⟩
          (.event (.thrown .primary (.plain 512 [])) .done)
          { ExitCall.plain ⟨2, 20, 512⟩ 21 with time := 1350, uncaught := 1 }
          (.event (.caught (.plain 1024 [])) .done))
        { ExitCall.plain ⟨1, 10, 1024⟩ 11 with time := 1900 } .done) := by
  apply durations_nest _ ⟨16, 4096, true⟩
  · simp [Calls.times]
  · refine ⟨⟨rfl, by simp [RunsBelow, World.fresh]⟩, ⟨rfl, ?_⟩, trivial, ?_, ⟨by decide, ?_⟩, ?_, trivial⟩
    · simp [RunsBelow, World.liveAfter, World.fresh, Frame.hooked, EnterCall.plain, EnterCall.key]
    · exact ⟨_, _, rfl, isHooked_hooked .., rfl, rfl, fun _ => rfl, fun htail => absurd htail (by decide)⟩
    · simp [ExceptionEvent.action, World.liveAfter, World.fresh, Frame.hooked, EnterCall.plain, EnterCall.key,
        EventCall.plain]
    · exact ⟨_, _, rfl, isHooked_hooked .., rfl, rfl, fun _ => rfl, fun htail => absurd htail (by decide)⟩

end CallStackLogger
