import CallStackLogger.Program.LiveLevels
import CallStackLogger.Trace.Levels

/-!
# Records and activations

Records are numbered in the order of their enters, both on the record stack and among the frames
being executed. The record of the innermost frame is therefore the newest one that is alive, and
whatever lies above it on the record stack belongs to frames that are gone.
-/

namespace CallStackLogger

variable {b : Build} {w : World} {bounds : StackBounds} {records : List FrameRecord}

/-- The newer of two records lies above the older one. -/
def NewestFirst (records : List FrameRecord) : Prop :=
  records.Pairwise fun upper lower => lower.activation < upper.activation

/-- Records are newest first and all older than the next one, on the stack and among the live. -/
structure Tracked (w : World) : Prop where
  newest : NewestFirst w.tracer.frames
  entered : ∀ r ∈ w.tracer.frames, r.activation < w.tracer.entered
  liveNewest : NewestFirst w.records
  liveEntered : ∀ r ∈ w.records, r.activation < w.tracer.entered

/-- Newer records exclude older ones. -/
lemma newer_asymm (r q : FrameRecord) (h : q.activation < r.activation) :
    ¬ r.activation < q.activation := Nat.lt_asymm h

lemma NewestFirst.drop (h : NewestFirst records) (n : Nat) : NewestFirst (records.drop n) :=
  List.Pairwise.sublist (List.drop_sublist n _) h

lemma records_drop (n : Nat) (live : List Frame) :
    ∃ m, (live.drop n).filterMap Frame.record = (live.filterMap Frame.record).drop m := by
  refine ⟨((live.take n).filterMap Frame.record).length, ?_⟩
  have hsplit := congrArg (List.filterMap Frame.record) (List.take_append_drop n live)
  rw [List.filterMap_append] at hsplit
  rw [← hsplit, List.drop_left]

/-- The records of the frames being executed after an action. -/
lemma records_act_cases (w : World) (b : Build) (a : Action) :
    (∃ e site r, a = .call e site ∧ w.tracer.overflows e = false ∧ PushedBy w.tracer e r ∧
      (w.act b a).tracer.frames = r :: w.tracer.frames.drop (w.tracer.enterDead e) ∧
      (w.act b a).tracer.frameOverflowCount = w.tracer.frameOverflowCount ∧
      (w.act b a).tracer.entered = w.tracer.entered + 1 ∧ (w.act b a).records = r :: w.records) ∨
    (∃ e site, a = .call e site ∧ w.tracer.overflows e = true ∧
      (w.act b a).tracer.frames = w.tracer.frames ∧
      (w.act b a).tracer.frameOverflowCount = w.tracer.frameOverflowCount + 1 ∧
      (w.act b a).tracer.entered = w.tracer.entered + 1 ∧ (w.act b a).records = w.records) ∨
    ((∀ e site, a ≠ .call e site) ∧
      (∃ n, (w.act b a).tracer.frames = w.tracer.frames.drop n) ∧
      (w.act b a).tracer.entered = w.tracer.entered ∧
      ∃ n, (w.act b a).records = w.records.drop n) := by
  by_cases ha : ∃ e site, a = .call e site
  · obtain ⟨e, site, rfl⟩ := ha
    have hentered := watch_call_entered b w.tracer e site
    rcases call_cases b w.tracer e site with
      ⟨hover, hframes, hcount, hframe⟩ | ⟨r, hover, hr, hframes, hcount, hframe⟩
    · refine .inr (.inl ⟨e, site, rfl, hover, hframes, hcount, hentered, ?_⟩)
      simp [World.records, World.liveAfter, hframe]
    · refine .inl ⟨e, site, r, rfl, hover, hr, hframes, hcount, hentered, ?_⟩
      simp [World.records, World.liveAfter, hframe]
  · have hcall : ∀ e site, a ≠ .call e site := fun e site heq => ha ⟨e, site, heq⟩
    obtain ⟨n, hframes, hentered⟩ := watch_drop (b := b) (s := w.tracer) hcall
    refine .inr (.inr ⟨hcall, ⟨n, hframes⟩, hentered, ?_⟩)
    by_cases hplain : ∃ key site, a = .callPlain key site
    · obtain ⟨key, site, rfl⟩ := hplain
      exact ⟨0, by simp [World.records, World.liveAfter, Frame.plain]⟩
    · obtain ⟨m, hm⟩ := liveAfter_drop (b := b) (w := w) hcall
        (fun key site heq => hplain ⟨key, site, heq⟩)
      obtain ⟨k, hk⟩ := records_drop m w.live
      exact ⟨k, by rw [World.records, World.act_live, hm, hk]; rfl⟩

namespace Tracked

lemma act (h : Tracked w) (a : Action) : Tracked (w.act b a) := by
  rcases records_act_cases w b a with
    ⟨e, site, r, -, -, hr, hframes, -, hentered, hrecords⟩ |
    ⟨e, site, -, -, hframes, -, hentered, hrecords⟩ | ⟨-, ⟨n, hframes⟩, hentered, ⟨m, hrecords⟩⟩
  · have hnew := hr.activation_eq
    refine ⟨?_, ?_, ?_, ?_⟩
    · rw [hframes]
      refine List.pairwise_cons.mpr ⟨fun q hq => ?_, h.newest.drop _⟩
      rw [hnew]
      exact h.entered q (List.mem_of_mem_drop hq)
    · intro q hq
      rw [hframes] at hq
      rw [hentered]
      rcases List.mem_cons.mp hq with rfl | hrest
      · exact hnew ▸ Nat.lt_succ_self _
      · exact Nat.lt_succ_of_lt (h.entered q (List.mem_of_mem_drop hrest))
    · rw [hrecords]
      refine List.pairwise_cons.mpr ⟨fun q hq => ?_, h.liveNewest⟩
      rw [hnew]
      exact h.liveEntered q hq
    · intro q hq
      rw [hrecords] at hq
      rw [hentered]
      rcases List.mem_cons.mp hq with rfl | hrest
      · exact hnew ▸ Nat.lt_succ_self _
      · exact Nat.lt_succ_of_lt (h.liveEntered q hrest)
  · refine ⟨hframes ▸ h.newest, ?_, hrecords ▸ h.liveNewest, ?_⟩
    · intro q hq
      rw [hentered]
      exact Nat.lt_succ_of_lt (h.entered q (hframes ▸ hq))
    · intro q hq
      rw [hentered]
      exact Nat.lt_succ_of_lt (h.liveEntered q (hrecords ▸ hq))
  · refine ⟨hframes ▸ h.newest.drop n, ?_, hrecords ▸ h.liveNewest.drop m, ?_⟩
    · intro q hq
      rw [hentered]
      exact h.entered q (List.mem_of_mem_drop (hframes ▸ hq))
    · intro q hq
      rw [hentered]
      exact h.liveEntered q (List.mem_of_mem_drop (hrecords ▸ hq))

lemma fresh (bounds : StackBounds) (earlier : Text) : Tracked (.fresh bounds earlier) where
  newest := .nil
  entered := by simp [World.fresh, ThreadState.fresh]
  liveNewest := .nil
  liveEntered := by simp [World.fresh, World.records]

/-- Nothing above the record of the innermost frame is alive. -/
lemma notMem_records_of_above {own : Frame} {outer : List Frame} {r q : FrameRecord}
    {above below : List FrameRecord} (h : Tracked w) (hlive : w.live = own :: outer)
    (hr : own.record = some r) (hframes : w.tracer.frames = above ++ r :: below) (hq : q ∈ above) :
    q ∉ w.records := by
  have hnewest := h.newest
  rw [hframes] at hnewest
  have hlt : r.activation < q.activation :=
    (List.pairwise_append.mp hnewest).2.2 q hq r List.mem_cons_self
  have hrecords : w.records = r :: outer.filterMap Frame.record := by
    rw [World.records, hlive, List.filterMap_cons_some hr]
  have holder := h.liveNewest
  rw [hrecords] at holder ⊢
  rintro hmem
  rcases List.mem_cons.mp hmem with rfl | houter
  · exact Nat.lt_irrefl _ hlt
  · exact Nat.lt_asymm hlt ((List.pairwise_cons.mp holder).1 q houter)

/-- How the records on the stack lie over those of the frames being executed is settled when they are
pushed. -/
lemma pairwise_live_act {R : FrameRecord → FrameRecord → Prop} {a : Action} (h : Tracked w)
    (hR : w.tracer.frames.Pairwise fun upper lower => lower ∈ w.records → R upper lower)
    (hnew : ∀ e site r, a = .call e site → PushedBy w.tracer e r → ∀ q ∈ w.records, R r q) :
    (w.act b a).tracer.frames.Pairwise fun upper lower =>
      lower ∈ (w.act b a).records → R upper lower := by
  rcases records_act_cases w b a with
    ⟨e, site, r, rfl, -, hr, hframes, -, -, hrecords⟩ |
    ⟨e, site, rfl, -, hframes, -, -, hrecords⟩ | ⟨-, ⟨n, hframes⟩, -, ⟨m, hrecords⟩⟩
  · rw [hframes, hrecords]
    have hold : ∀ q ∈ w.tracer.frames.drop (w.tracer.enterDead e), q ∈ r :: w.records →
        q ∈ w.records := by
      intro q hq hmem
      rcases List.mem_cons.mp hmem with rfl | hrest
      · have hlt := h.entered q (List.mem_of_mem_drop hq)
        rw [hr.activation_eq] at hlt
        exact absurd hlt (Nat.lt_irrefl _)
      · exact hrest
    refine List.pairwise_cons.mpr ⟨fun q hq hmem => ?_, ?_⟩
    · exact hnew e site r rfl hr q (hold q hq hmem)
    · refine (List.Pairwise.sublist (List.drop_sublist _ _) hR).imp_of_mem ?_
      intro upper lower _ hlower hlt hmem
      exact hlt (hold lower hlower hmem)
  · rw [hframes, hrecords]
    exact hR
  · rw [hframes, hrecords]
    refine (List.Pairwise.sublist (List.drop_sublist _ _) hR).imp ?_
    exact fun hlt hmem => hlt (List.mem_of_mem_drop hmem)

end Tracked

/-! ### A thread on its own stack -/

/-- The state of a run whose levels are on the thread stack and do not increase inwards. -/
structure Watched (bounds : StackBounds) (w : World) : Prop where
  stack : OrderedStack bounds w.tracer
  tracked : Tracked w
  live : LiveOrdered w.live
  liveOnStack : ∀ f ∈ w.live, onThreadStack bounds f.key.level = true

/-- A call on the thread stack, over all frames being executed. -/
def EntersOver (bounds : StackBounds) (w : World) (key : FrameKey) : Prop :=
  onThreadStack bounds key.level = true ∧ ∀ f ∈ w.live, LiesOver key f.key

namespace Watched

variable {own : Frame} {outer : List Frame} {x : ExitCall}

lemma act {a : Action} (h : Watched bounds w)
    (hcall : ∀ e site, a = .call e site → EntersOver bounds w e.key)
    (hplain : ∀ key site, a = .callPlain key site → EntersOver bounds w key) :
    Watched bounds (w.act b a) where
  stack := by
    cases hhook : a.hook with
    | none =>
      simp only [World.act_tracer, ThreadState.watch, hhook]
      exact h.stack
    | some ev =>
      simp only [World.act_tracer, ThreadState.watch, hhook]
      refine h.stack.step ?_
      rintro e rfl
      cases a with
      | call e' site =>
        obtain rfl : e' = e := by simpa [Action.hook] using hhook
        exact (hcall e' site rfl).1
      | callPlain key site => simp [Action.hook] at hhook
      | leave x => simp [Action.hook] at hhook
      | leavePlain => simp [Action.hook] at hhook
      | jump n => simp [Action.hook] at hhook
      | thrown kind c => simp [Action.hook] at hhook
      | caught c => simp [Action.hook] at hhook
      | terminated reason c => simp [Action.hook] at hhook
  tracked := h.tracked.act a
  live := h.live.act (fun e site ha => (hcall e site ha).2) (fun key site ha => (hplain key site ha).2)
  liveOnStack := by
    cases a with
    | call e site =>
      intro f hf
      rcases List.mem_cons.mp hf with rfl | hrest
      · exact (hcall e site rfl).1
      · exact h.liveOnStack f hrest
    | callPlain key site =>
      intro f hf
      rcases List.mem_cons.mp hf with rfl | hrest
      · exact (hplain key site rfl).1
      · exact h.liveOnStack f hrest
    | leave x => exact fun f hf => h.liveOnStack f (List.mem_of_mem_tail hf)
    | leavePlain => exact fun f hf => h.liveOnStack f (List.mem_of_mem_tail hf)
    | jump n => exact fun f hf => h.liveOnStack f (List.mem_of_mem_drop hf)
    | thrown kind c => exact h.liveOnStack
    | caught c => exact h.liveOnStack
    | terminated reason c => exact h.liveOnStack

lemma fresh (bounds : StackBounds) (earlier : Text) : Watched bounds (.fresh bounds earlier) where
  stack := .fresh bounds earlier
  tracked := .fresh bounds earlier
  live := ⟨.nil, by simp [World.fresh]⟩
  liveOnStack := by simp [World.fresh]

/-- The exiting frame's record is of its activation site. -/
lemma sameActivationSite {r : FrameRecord} (h : Watched bounds w) (hlive : w.live = own :: outer)
    (hr : own.record = some r) (hx : ExitsFrom bounds own outer x) :
    CallStackLogger.sameActivationSite r x.key = true := by
  have hkey : r.toFrameKey = own.key := h.live.record own (by simp [hlive]) r hr
  simp only [CallStackLogger.sameActivationSite, key_frameRecord, hkey, ExitCall.key, hx.callee_eq,
    hx.caller_eq, beq_self_eq_true, Bool.and_self]

/-- The level an exit hook resolves to is not above that of an outer frame with a record. -/
lemma level_le (h : Watched bounds w) (hlive : w.live = own :: outer)
    (hon : onThreadStack bounds x.level = true) (hx : ExitsFrom bounds own outer x) :
    ∀ f ∈ outer, f.record.isSome = true → x.level ≤ f.key.level := by
  have hordered := h.live.ordered
  have honStack := h.liveOnStack
  rw [hlive] at hordered honStack
  intro f hf hrecord
  cases htail : x.tailCalled with
  | false =>
    rw [hx.called htail]
    exact ((List.pairwise_cons.mp hordered).1 f hf).1
  | true =>
    have hown := honStack own List.mem_cons_self
    exact (hx.tailCalled htail hown hon).2 f hf hrecord (honStack f (List.mem_cons_of_mem own hf))

/-- An exit pops no record of an outer frame. -/
lemma exit_spares_outer {r : FrameRecord} (h : Watched bounds w) (hlive : w.live = own :: outer)
    (hr : own.record = some r) (hmem : r ∈ w.tracer.frames) (hon : onThreadStack bounds x.level = true)
    (hx : ExitsFrom bounds own outer x) :
    ∀ q ∈ w.tracer.frames.take (w.tracer.aboveExiting x + 1), q ∉ outer.filterMap Frame.record := by
  have hkey : r.toFrameKey = own.key := h.live.record own (by simp [hlive]) r hr
  have hrecords : w.records = r :: outer.filterMap Frame.record := by
    rw [World.records, hlive, List.filterMap_cons_some hr]
  have hown : ∀ q ∈ outer.filterMap Frame.record, q.activation < r.activation := by
    have holder := h.tracked.liveNewest
    rw [hrecords] at holder
    exact (List.pairwise_cons.mp holder).1
  obtain ⟨above, below, hframes⟩ := List.append_of_mem hmem
  have hcases : w.tracer.aboveExiting x ≤ above.length ∨
      ∃ p, w.tracer.frames[w.tracer.aboveExiting x]? = some p ∧ p.level < x.level := by
    rw [aboveExiting_eq (by simp [hframes]), hframes]
    exact deadAtExit_cases (h.sameActivationSite hlive hr hx)
      fun htail => (congrArg FrameKey.level hkey).trans (hx.called htail).symm
  intro q hq houter
  rcases hcases with hle | ⟨p, hp, hplevel⟩
  · have hupper : q ∈ above ++ [r] := by
      have hq' := List.take_subset_take_left w.tracer.frames (Nat.succ_le_succ hle) hq
      rw [hframes, List.take_append, List.take_of_length_le (Nat.le_succ _)] at hq'
      simpa using hq'
    rcases List.mem_append.mp hupper with habove | hself
    · refine h.tracked.notMem_records_of_above hlive hr hframes habove ?_
      rw [hrecords]
      exact List.mem_cons_of_mem r houter
    · exact Nat.lt_irrefl _ (List.mem_singleton.mp hself ▸ hown q houter)
  · have hle : q.level ≤ p.level := by
      obtain ⟨i, hi, rfl⟩ := List.mem_take_iff_getElem.mp hq
      obtain ⟨hd, rfl⟩ := List.getElem?_eq_some_iff.mp hp
      rcases Nat.lt_or_ge i (w.tracer.aboveExiting x) with hlt | hge
      · exact (List.pairwise_iff_getElem.mp h.stack.ordered i _ (by omega) hd hlt).1
      · have heq : i = w.tracer.aboveExiting x := by omega
        subst heq
        exact Nat.le_refl _
    obtain ⟨f, hf, hrecord⟩ := List.mem_filterMap.mp houter
    have hxle := h.level_le hlive hon hx f hf (by simp [hrecord])
    rw [← h.live.record f (by simp [hlive, hf]) q hrecord] at hxle
    exact Nat.lt_irrefl _ (Nat.lt_of_lt_of_le (Nat.lt_of_le_of_lt hle hplevel) hxle)

end Watched

end CallStackLogger
