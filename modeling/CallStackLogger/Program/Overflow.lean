import CallStackLogger.Program.Machine

/-!
# The overflow count and non-local exits

A frame that could not get a record is tracked by count only, and only its exit hook takes it off
the count again. The count is therefore the number of overflow frames that are being executed and
of those a non-local exit has dropped: it is right as long as no overflow frame was dropped, and
from the first one on it is too high at every hook.
-/

namespace CallStackLogger

open Run

variable {b : Build} {s s' : ThreadState} {w : World}

/-- Number of frames whose enter was counted as overflow. -/
def countedFrames (frames : List Frame) : Nat := frames.countP Frame.counted

/-- Only a frame that is being executed leaves, with its exit hook when its function has hooks. -/
def HooksMatch (w : World) : Action → Prop
  | .leave _    => ∃ own ∈ w.live.head?, own.isHooked = true
  | .leavePlain => ∃ own ∈ w.live.head?, own.isHooked = false
  | _           => True

/-- Whether memory is available for the record of an enter. -/
def ThreadState.canReserve (s : ThreadState) (e : EnterCall) : Bool :=
  s.frames.length != s.capacity || e.reserved

/-- An enter pushes its record, which is logged when there is a stream and a name to log. -/
def PushesRecord (b : Build) (w : World) (e : EnterCall) (site : CallSite) : Prop :=
  ∃ r rest, (w.act b (.call e site)).tracer.frames = r :: rest ∧ r.activation = w.tracer.entered ∧
    (w.tracer.chainThrows e = false → w.tracer.traceFile.hasStream e.threadFp = true →
      ∀ view, e.resolved = .found view → r.logged = true)

/-- The count is that of the overflow frames being executed. With none of them an enter pushes its
record when it finds the memory, and the exit of a frame that has a record pops one. -/
def CountsLiveOverflow (b : Build) (w : World) (a : Action) : Prop :=
  a.hook.isSome = true →
    w.tracer.frameOverflowCount = countedFrames w.live ∧
    match a with
    | .call e site => countedFrames w.live = 0 → w.tracer.canReserve e = true → PushesRecord b w e site
    | .leave x     => ∀ own ∈ w.live.head?, ∀ r ∈ own.record, r ∈ w.tracer.frames →
        (w.act b (.leave x)).tracer.frameOverflowCount = w.tracer.frameOverflowCount ∧
        (w.act b (.leave x)).tracer.frames.length < w.tracer.frames.length
    | _            => True

/-- No frame that a non-local exit has dropped was counted as overflow. -/
def NoOverflowDropped (w : World) (a : Action) : Prop :=
  a.hook.isSome = true → ∀ f ∈ w.dropped, f.counted = false

/-- The count covers the overflow frames being executed, and a frame with a record has none of them
under it. -/
structure CoversOverflow (w : World) : Prop where
  covered : countedFrames w.live ≤ w.tracer.frameOverflowCount
  above : w.live.Pairwise fun upper lower => lower.counted = true → upper.record = none
  record : ∀ f ∈ w.live, f.record.isSome = true → f.counted = false

/-- The count is that of all overflow frames that have not left. -/
structure CountsOverflow (w : World) : Prop extends CoversOverflow w where
  count : w.tracer.frameOverflowCount = countedFrames w.live + countedFrames w.dropped

/-! ### The count over one step -/

lemma countedFrames_eq_zero {frames : List Frame} :
    countedFrames frames = 0 ↔ ∀ f ∈ frames, f.counted = false := by
  simp [countedFrames, List.countP_eq_zero]

lemma countedFrames_cons (f : Frame) (frames : List Frame) :
    countedFrames (f :: frames) = countedFrames frames + if f.counted then 1 else 0 := by
  simp [countedFrames, List.countP_cons]

lemma countedFrames_take_add_drop (n : Nat) (frames : List Frame) :
    countedFrames (frames.take n) + countedFrames (frames.drop n) = countedFrames frames := by
  rw [countedFrames, countedFrames, countedFrames, ← List.countP_append, List.take_append_drop]

lemma watch_frameOverflowCount {a : Action} (hcall : ∀ e site, a ≠ .call e site)
    (hleave : ∀ x, a ≠ .leave x) : (s.watch b a).frameOverflowCount = s.frameOverflowCount := by
  rcases watch_cases b s a with ⟨e, site, rfl⟩ | ⟨x, rfl⟩ | hsame | ⟨r, hline⟩ | ⟨c, -, hstep⟩
  · exact absurd rfl (hcall e site)
  · exact absurd rfl (hleave x)
  · rw [hsame]
  · exact hline.frames_eq.2.2.1
  · exact hstep.frames_eq.2.1

lemma ExitStep.frameOverflowCount_eq {x : ExitCall} (h : ExitStep b x s s') :
    s'.frameOverflowCount = s.frameOverflowCount - 1 := by
  cases h with
  | drained hover => rfl
  | empty hover hempty => omega
  | left hover hrec =>
    rw [leaveFrame_eq (s := s.popped b frameEndJump (s.aboveExiting x)) hrec]
    change s.frameOverflowCount = s.frameOverflowCount - 1
    omega

/-- An exit that has nothing to drain pops a record when there is one. -/
lemma ExitStep.length_lt {x : ExitCall} (h : ExitStep b x s s') (hzero : s.frameOverflowCount = 0)
    (hne : s.frames ≠ []) : s'.frames.length < s.frames.length := by
  cases h with
  | drained hover => omega
  | empty hover hempty => exact absurd hempty hne
  | @left record rest hover hrec =>
    rw [leaveFrame_eq (s := s.popped b frameEndJump (s.aboveExiting x)) hrec]
    have hlength := congrArg List.length hrec
    rw [List.length_drop, List.length_cons] at hlength
    change rest.length < s.frames.length
    omega

namespace CoversOverflow

variable {e : EnterCall} {site : CallSite} {x : ExitCall} {own : Frame} {outer : List Frame}

/-- Under a frame with a record no frame is counted. -/
lemma countedFrames_outer (h : CoversOverflow w) (hlive : w.live = own :: outer)
    (hown : own.record.isSome = true) : countedFrames outer = 0 := by
  have habove := h.above
  rw [hlive] at habove
  refine countedFrames_eq_zero.mpr fun f hf => ?_
  by_contra hcounted
  have hnone := (List.pairwise_cons.mp habove).1 f hf (by simpa using hcounted)
  simp [hnone] at hown

lemma tail (h : CoversOverflow w) (hlive : w.live = own :: outer) :
    (outer.Pairwise fun upper lower => lower.counted = true → upper.record = none) ∧
      ∀ f ∈ outer, f.record.isSome = true → f.counted = false := by
  have habove := h.above
  rw [hlive] at habove
  exact ⟨(List.pairwise_cons.mp habove).2, fun f hf => h.record f (by simp [hlive, hf])⟩

lemma call (h : CoversOverflow w) : CoversOverflow (w.act b (.call e site)) := by
  rcases call_cases b w.tracer e site with
    ⟨hover, -, hcount, hframe⟩ | ⟨r, hover, hr, -, hcount, hframe⟩
  · refine ⟨?_, ?_, ?_⟩ <;> simp only [World.act_live, World.liveAfter, hframe]
    · rw [World.act_tracer, hcount, countedFrames_cons]
      exact Nat.add_le_add_right h.covered 1
    · exact List.pairwise_cons.mpr ⟨fun _ _ _ => rfl, h.above⟩
    · simpa using h.record
  · have hcovered := h.covered
    rw [(overflows_eq_false_iff.mp hover).1] at hcovered
    have hnone := countedFrames_eq_zero.mp (Nat.le_zero.mp hcovered)
    refine ⟨?_, ?_, ?_⟩ <;> simp only [World.act_live, World.liveAfter, hframe]
    · rw [World.act_tracer, hcount, countedFrames_cons]
      exact h.covered
    · refine List.pairwise_cons.mpr ⟨fun lower hlower hcounted => ?_, h.above⟩
      exact absurd (hcounted.symm.trans (hnone lower hlower)) (by simp)
    · simpa using h.record

lemma callPlain (h : CoversOverflow w) (key : FrameKey) :
    CoversOverflow (w.act b (.callPlain key site)) where
  covered := by
    change countedFrames (.plain key site w.tracer :: w.live) ≤ w.tracer.frameOverflowCount
    rw [countedFrames_cons]
    exact h.covered
  above := List.pairwise_cons.mpr ⟨fun _ _ _ => rfl, h.above⟩
  record := by simpa [World.liveAfter, Frame.plain] using h.record

lemma leave (h : CoversOverflow w) (hhook : ∃ own ∈ w.live.head?, own.isHooked = true) :
    CoversOverflow (w.act b (.leave x)) := by
  have hcount : (w.act b (.leave x)).tracer.frameOverflowCount = w.tracer.frameOverflowCount - 1 :=
    (exitStep b x w.tracer).frameOverflowCount_eq
  obtain ⟨own, hown, hhooked⟩ := hhook
  obtain ⟨outer, hlive⟩ : ∃ outer, w.live = own :: outer := List.head?_eq_some_iff.mp hown
  obtain ⟨habove, hrecord⟩ := h.tail hlive
  have htail : (w.act b (.leave x)).live = outer := by simp [World.liveAfter, hlive]
  refine ⟨?_, htail ▸ habove, htail ▸ hrecord⟩
  rw [htail, hcount]
  have hcovered := h.covered
  rw [hlive, countedFrames_cons] at hcovered
  cases hcounted : own.counted with
  | true =>
    rw [hcounted, if_pos rfl] at hcovered
    omega
  | false =>
    rw [h.countedFrames_outer hlive (by simpa [Frame.isHooked, hcounted] using hhooked)]
    exact Nat.zero_le _

lemma leavePlain (h : CoversOverflow w) (hplain : ∃ own ∈ w.live.head?, own.isHooked = false) :
    CoversOverflow (w.act b .leavePlain) := by
  obtain ⟨own, hown, hhooked⟩ := hplain
  obtain ⟨outer, hlive⟩ : ∃ outer, w.live = own :: outer := List.head?_eq_some_iff.mp hown
  obtain ⟨habove, hrecord⟩ := h.tail hlive
  have htail : (w.act b .leavePlain).live = outer := by simp [World.liveAfter, hlive]
  refine ⟨?_, htail ▸ habove, htail ▸ hrecord⟩
  have hcovered := h.covered
  rw [hlive, countedFrames_cons] at hcovered
  rw [htail]
  exact Nat.le_trans (Nat.le_add_right _ _) hcovered

lemma jump (h : CoversOverflow w) (n : Nat) : CoversOverflow (w.act b (.jump n)) where
  covered := by
    have hsplit := countedFrames_take_add_drop n w.live
    have hcovered := h.covered
    change countedFrames (w.live.drop n) ≤ w.tracer.frameOverflowCount
    omega
  above := List.Pairwise.sublist (List.drop_sublist n _) h.above
  record := fun f hf => h.record f (List.mem_of_mem_drop hf)

lemma act {a : Action} (h : CoversOverflow w) (ha : HooksMatch w a) : CoversOverflow (w.act b a) := by
  cases a with
  | call e site => exact h.call
  | callPlain key site => exact h.callPlain key
  | leave x => exact h.leave ha
  | leavePlain => exact h.leavePlain ha
  | jump n => exact h.jump n
  | thrown kind c =>
    exact ⟨Nat.le_trans h.covered (watch_frameOverflowCount (by simp) (by simp)).ge, h.above, h.record⟩
  | caught c =>
    exact ⟨Nat.le_trans h.covered (watch_frameOverflowCount (by simp) (by simp)).ge, h.above, h.record⟩
  | terminated reason c =>
    exact ⟨Nat.le_trans h.covered (watch_frameOverflowCount (by simp) (by simp)).ge, h.above, h.record⟩

lemma fresh (bounds : StackBounds) (earlier : Text) : CoversOverflow (.fresh bounds earlier) where
  covered := Nat.le_refl 0
  above := .nil
  record := by simp [World.fresh]

end CoversOverflow

namespace CountsOverflow

variable {e : EnterCall} {site : CallSite} {x : ExitCall}

lemma call_count (h : CountsOverflow w) : (w.act b (.call e site)).tracer.frameOverflowCount =
    countedFrames (w.act b (.call e site)).live + countedFrames (w.act b (.call e site)).dropped := by
  have hsum := h.count
  rcases call_cases b w.tracer e site with ⟨-, -, hcount, hframe⟩ | ⟨r, -, -, -, hcount, hframe⟩
  · simp only [World.act_live, World.act_tracer, World.act_dropped, World.liveAfter,
      World.droppedAfter, hframe, hcount, countedFrames_cons, if_true]
    omega
  · simp only [World.act_live, World.act_tracer, World.act_dropped, World.liveAfter,
      World.droppedAfter, hframe, hcount, countedFrames_cons]
    exact hsum

/-- With no overflow frame dropped, an exit takes its own frame off the count or leaves it alone. -/
lemma leave_count (h : CountsOverflow w) (hhook : ∃ own ∈ w.live.head?, own.isHooked = true)
    (hdropped : ∀ f ∈ w.dropped, f.counted = false) :
    (w.act b (.leave x)).tracer.frameOverflowCount =
      countedFrames (w.act b (.leave x)).live + countedFrames (w.act b (.leave x)).dropped := by
  have hcount : (w.act b (.leave x)).tracer.frameOverflowCount = w.tracer.frameOverflowCount - 1 :=
    (exitStep b x w.tracer).frameOverflowCount_eq
  obtain ⟨own, hown, hhooked⟩ := hhook
  obtain ⟨outer, hlive⟩ : ∃ outer, w.live = own :: outer := List.head?_eq_some_iff.mp hown
  have hsum := h.count
  have hzero := countedFrames_eq_zero.mpr hdropped
  have htail : (w.act b (.leave x)).live = outer := by simp [World.liveAfter, hlive]
  have hkept : (w.act b (.leave x)).dropped = w.dropped := rfl
  rw [htail, hkept, hcount, hsum, hlive, countedFrames_cons, hzero]
  cases hcounted : own.counted with
  | true => simp
  | false =>
    have hrecord : own.record.isSome = true := by simpa [Frame.isHooked, hcounted] using hhooked
    simp [h.countedFrames_outer hlive hrecord]

lemma leavePlain_count (h : CountsOverflow w)
    (hplain : ∃ own ∈ w.live.head?, own.isHooked = false) :
    (w.act b .leavePlain).tracer.frameOverflowCount =
      countedFrames (w.act b .leavePlain).live + countedFrames (w.act b .leavePlain).dropped := by
  obtain ⟨own, hown, hhooked⟩ := hplain
  obtain ⟨outer, hlive⟩ : ∃ outer, w.live = own :: outer := List.head?_eq_some_iff.mp hown
  have hcounted : own.counted = false := (Bool.or_eq_false_iff.mp hhooked).1
  have htail : (w.act b .leavePlain).live = outer := by simp [World.liveAfter, hlive]
  have hsum := h.count
  rw [hlive, countedFrames_cons, hcounted] at hsum
  rw [htail]
  exact hsum

lemma jump_count (h : CountsOverflow w) (n : Nat) : (w.act b (.jump n)).tracer.frameOverflowCount =
    countedFrames (w.act b (.jump n)).live + countedFrames (w.act b (.jump n)).dropped := by
  have hsplit := countedFrames_take_add_drop n w.live
  have hsum := h.count
  have happend : countedFrames (w.live.take n ++ w.dropped) =
      countedFrames (w.live.take n) + countedFrames w.dropped := List.countP_append
  change w.tracer.frameOverflowCount =
    countedFrames (w.live.drop n) + countedFrames (w.live.take n ++ w.dropped)
  omega

/-- Without a dropped overflow frame the sum survives every action. -/
lemma act {a : Action} (h : CountsOverflow w) (ha : HooksMatch w a) (hdropped : NoOverflowDropped w a) :
    CountsOverflow (w.act b a) := by
  refine ⟨h.toCoversOverflow.act ha, ?_⟩
  cases a with
  | call e site => exact h.call_count
  | leave x => exact h.leave_count ha (hdropped rfl)
  | jump n => exact h.jump_count n
  | callPlain key site => exact h.count
  | leavePlain => exact h.leavePlain_count ha
  | thrown kind c => exact (watch_frameOverflowCount (by simp) (by simp)).trans h.count
  | caught c => exact (watch_frameOverflowCount (by simp) (by simp)).trans h.count
  | terminated reason c => exact (watch_frameOverflowCount (by simp) (by simp)).trans h.count

/-- With nothing on the count an enter that finds the memory pushes its record. -/
lemma pushesRecord (h : CountsOverflow w) (hlive : countedFrames w.live = 0)
    (hdropped : countedFrames w.dropped = 0) (hmemory : w.tracer.canReserve e = true) :
    PushesRecord b w e site := by
  have hzero : w.tracer.frameOverflowCount = 0 := by rw [h.count, hlive, hdropped]
  have hover : w.tracer.overflows e = false := by
    simp only [ThreadState.canReserve, Bool.or_eq_true, bne_iff_ne] at hmemory
    simp only [ThreadState.overflows, hzero, Nat.lt_irrefl, decide_false, Bool.false_or]
    rcases hmemory with hroom | hreserved
    · simp [hroom]
    · simp [hreserved]
  rcases call_cases b w.tracer e site with ⟨hfull, -⟩ | ⟨r, -, hr, hframes, -, -⟩
  · exact absurd (hfull.symm.trans hover) (by simp)
  · refine ⟨r, _, hframes, hr.activation_eq, fun hreads hstream view hview => ?_⟩
    rw [hr.logged_eq]
    simp [ThreadState.loggedView, hover, hreads, hstream, hview]

/-- The exit of a frame that has a record pops one. -/
lemma leave_pops (h : CountsOverflow w) (hdropped : countedFrames w.dropped = 0) :
    ∀ own ∈ w.live.head?, ∀ r ∈ own.record, r ∈ w.tracer.frames →
      (w.act b (.leave x)).tracer.frameOverflowCount = w.tracer.frameOverflowCount ∧
      (w.act b (.leave x)).tracer.frames.length < w.tracer.frames.length := by
  intro own hown r hr hmem
  obtain ⟨outer, hlive⟩ : ∃ outer, w.live = own :: outer := List.head?_eq_some_iff.mp hown
  have hrecord : own.record.isSome = true := by simp [Option.mem_def.mp hr]
  have hnone : countedFrames w.live = 0 := by
    rw [hlive, countedFrames_cons, h.countedFrames_outer hlive hrecord,
      h.record own (by simp [hlive]) hrecord]
    rfl
  have hzero : w.tracer.frameOverflowCount = 0 := by rw [h.count, hnone, hdropped]
  have hstep : ExitStep b x w.tracer (w.act b (.leave x)).tracer := exitStep b x w.tracer
  refine ⟨by rw [hstep.frameOverflowCount_eq, hzero], hstep.length_lt hzero ?_⟩
  exact List.ne_nil_of_mem hmem

/-- The count is right at a hook exactly when no overflow frame has been dropped. -/
lemma countsLiveOverflow_iff {a : Action} (h : CountsOverflow w) :
    CountsLiveOverflow b w a ↔ NoOverflowDropped w a := by
  constructor
  · intro hcounts hhook
    have heq := (hcounts hhook).1
    have hsum := h.count
    exact countedFrames_eq_zero.mp (by omega)
  · intro hdropped hhook
    have hzero := countedFrames_eq_zero.mpr (hdropped hhook)
    refine ⟨by rw [h.count, hzero, Nat.add_zero], ?_⟩
    cases a with
    | call e site => exact fun hlive hmemory => h.pushesRecord hlive hzero hmemory
    | leave x => exact h.leave_pops hzero
    | callPlain key site => trivial
    | leavePlain => trivial
    | jump n => trivial
    | thrown kind c => trivial
    | caught c => trivial
    | terminated reason c => trivial

end CountsOverflow

/-- In every run the overflow count is right at all hooks exactly when no hook comes after a
non-local exit that dropped an overflow frame. -/
theorem overflow_recovers_iff (b : Build) (bounds : StackBounds) (earlier : Text)
    (actions : List Action)
    (hactions : AllSteps (World.act b) HooksMatch (.fresh bounds earlier) actions) :
    AllSteps (World.act b) (CountsLiveOverflow b) (.fresh bounds earlier) actions ↔
      AllSteps (World.act b) NoOverflowDropped (.fresh bounds earlier) actions := by
  exact allSteps_iff_of_invariant (I := CountsOverflow) (fun _ _ h ha hdropped => h.act ha hdropped)
    (fun _ _ h _ => h.countsLiveOverflow_iff) ⟨.fresh bounds earlier, rfl⟩ hactions

/-- A call while memory is short, which an exception leaves before the next call. -/
def overflowUnwound : List Action :=
  [.call { EnterCall.plain ⟨1, 10, 1024⟩ [] (.named "run".toList none) with reserved := false }
    ⟨2048, 1024, "run".toList, false⟩,
   .jump 1,
   .call (.plain ⟨2, 20, 1024⟩ [] (.named "retry".toList none)) ⟨2048, 1024, "retry".toList, false⟩]

lemma overflowUnwound_hooked (b : Build) (bounds : StackBounds) (earlier : Text) :
    AllSteps (World.act b) HooksMatch (.fresh bounds earlier) overflowUnwound :=
  ⟨trivial, trivial, trivial, trivial⟩

theorem overflow_recovers_iff_unwound :
    AllSteps (World.act ⟨true, true, false⟩) (CountsLiveOverflow ⟨true, true, false⟩)
        (.fresh ⟨16, 4096, true⟩ []) overflowUnwound ↔
      AllSteps (World.act ⟨true, true, false⟩) NoOverflowDropped (.fresh ⟨16, 4096, true⟩ [])
        overflowUnwound :=
  overflow_recovers_iff _ _ _ _ (overflowUnwound_hooked _ _ _)

/-- The unwound frame stays on the count, and the next call is counted as overflow as well. -/
theorem overflow_kept_after_unwind :
    AllSteps (World.act ⟨true, true, false⟩) HooksMatch (.fresh ⟨16, 4096, true⟩ [])
        overflowUnwound ∧
      ¬ AllSteps (World.act ⟨true, true, false⟩) (CountsLiveOverflow ⟨true, true, false⟩)
        (.fresh ⟨16, 4096, true⟩ []) overflowUnwound := by
  refine ⟨overflowUnwound_hooked _ _ _, ?_⟩
  rintro ⟨-, -, hretry, -⟩
  exact absurd (hretry rfl).1 (by decide)

end CallStackLogger
