import CallStackLogger.Core.Run
import CallStackLogger.Trace.Steps

/-!
# Depth accounting

The depth is changed by the enter hook, the exit hook and every reclaim. `DepthExact` ties it to
the logged records of the stack, and each logged record to the depth its line was printed at. It
is kept by every event, whatever the levels, the call structure and the failures on the way.
-/

namespace CallStackLogger

open Run

variable {b : Build} {s s' : ThreadState}

/-- The line of a logged record was printed at the number of logged records below it. -/
def LoggedAtDepth (s : ThreadState) : Prop :=
  ∀ above r below, s.frames = above ++ r :: below → r.logged = true →
    ∃ l ∈ s.traceFile.lines, l.activation = some r.activation ∧ l.depth = loggedCount below

structure DepthExact (s : ThreadState) : Prop where
  depth : s.currentStackDepth + 1 = loggedCount s.frames
  popped : s.emptyPop = false
  lines : LoggedAtDepth s

/-- An event line sits one level under the line of the innermost logged record. -/
def EventAtDepth (s' : ThreadState) (l : Line) : Prop :=
  (∀ above r below, s'.frames = above ++ r :: below → (∀ x ∈ above, x.logged = false) →
    r.logged = true →
    ∃ l' ∈ s'.traceFile.lines, l'.activation = some r.activation ∧ l.depth = l'.depth + 1) ∧
  ((∀ r ∈ s'.frames, r.logged = false) → l.depth = 0)

/-- A call line sits at the number of logged records below the record just pushed. -/
def CallAtDepth (s' : ThreadState) (l : Line) (a : Nat) : Prop :=
  ∃ r below, s'.frames = r :: below ∧ r.activation = a ∧ r.logged = true ∧
    l.depth = loggedCount below

/-- What one event may print. -/
def PrintsAtDepth (s s' : ThreadState) : Prop :=
  s'.traceFile.lines = s.traceFile.lines ∨
  ∃ l, s'.traceFile.lines = s.traceFile.lines ++ [l] ∧
    match l.activation with
    | some a => CallAtDepth s' l a
    | none   => EventAtDepth s' l

/-! ### The invariant survives every operation -/

lemma LoggedAtDepth.of_drop {n : Nat} (h : LoggedAtDepth s) (hframes : s'.frames = s.frames.drop n)
    (hlines : ∀ l ∈ s.traceFile.lines, l ∈ s'.traceFile.lines) : LoggedAtDepth s' := by
  intro above r below heq hlog
  have hsplit : s.frames = (s.frames.take n ++ above) ++ r :: below := by
    rw [List.append_assoc, ← heq, hframes, List.take_append_drop]
  obtain ⟨l, hl, hrest⟩ := h _ r below hsplit hlog
  exact ⟨l, hlines l hl, hrest⟩

lemma LoggedAtDepth.push {record : FrameRecord} (h : LoggedAtDepth s)
    (hnew : record.logged = true → ∃ l ∈ s.traceFile.lines,
      l.activation = some record.activation ∧ l.depth = loggedCount s.frames) :
    LoggedAtDepth (s.push record) := by
  intro above r below heq hlog
  cases above with
  | nil =>
    obtain ⟨rfl, rfl⟩ := List.cons.inj heq
    exact hnew hlog
  | cons top above => exact h above r below (List.cons.inj heq).2 hlog

lemma DepthExact.pop (h : DepthExact s) (how : Char) (n : Nat) : DepthExact (s.popped b how n) := by
  refine ⟨?_, h.popped, h.lines.of_drop rfl (by simp)⟩
  have hcount := loggedCount_take_add_drop n s.frames
  have hdepth := h.depth
  simp only [ThreadState.popped]
  omega

lemma DepthExact.getThreadFp (h : DepthExact s) (r : FpReply) : DepthExact (s.getThreadFp b r).2 := by
  obtain ⟨file, cursor, valid, hframe, hlines⟩ := getThreadFp_frame s b r
  rw [hframe]
  exact ⟨h.depth, h.popped, h.lines.of_drop (n := 0) rfl (by simp [hlines])⟩

lemma DepthExact.enterReclaim (h : DepthExact s) (e : EnterCall) : DepthExact (s.enterReclaim b e) := by
  rw [enterReclaim_eq]
  exact h.pop _ _

lemma DepthExact.eventStep {r : LineReply} (h : DepthExact s) (hstep : EventStep b r s s') :
    DepthExact s' := by
  obtain ⟨hframes, hdepth, -, -, -, hpopped, -, -⟩ := hstep.frames_eq
  refine ⟨by rw [hframes, hdepth, h.depth], by rw [hpopped, h.popped], ?_⟩
  obtain ⟨file, cursor, valid, hframe, hlines⟩ := getThreadFp_frame s b r.threadFp
  refine h.lines.of_drop (n := 0) hframes fun l hl => ?_
  cases hstep with
  | silent hclosed => rwa [hframe, hlines]
  | line hopen howner hdepth hshort =>
    rw [hframe]
    exact List.mem_append_left _ (hlines ▸ hl)

lemma DepthExact.enterParentReclaim (h : DepthExact s) (e : EnterCall) (view : ResolvedFrameView) :
    DepthExact (s.enterParentReclaim b e view) := by
  rw [enterParentReclaim_eq]
  exact h.pop _ _

lemma DepthExact.reserveSlot {s₀ : ThreadState} {reserved : Bool} (h : DepthExact s)
    (hs₀ : s.reserveSlot reserved = some s₀) : DepthExact s₀ := by
  obtain ⟨capacity, rfl, -⟩ := reserveSlot_eq_some hs₀
  exact ⟨h.depth, h.popped, h.lines⟩

/-- A call is printed at the number of logged records below it, and pushed there. -/
lemma DepthExact.logged {e : EnterCall} {view : ResolvedFrameView} (h : DepthExact s) :
    DepthExact ((s.writeCall b e view).push ((s.writeCall b e view).newRecord b e
      { haveSlot := true, logged := true, level := e.level, nameBase := some view.calleeBaseName,
        lineStart := s.cursor })) := by
  have hlines : LoggedAtDepth (s.writeCall b e view) :=
    h.lines.of_drop (n := 0) rfl fun l hl => List.mem_append_left _ hl
  refine ⟨?_, h.popped, hlines.push fun _ => ?_⟩
  · have hdepth := h.depth
    simp only [ThreadState.push, ThreadState.newRecord, ThreadState.writeCall,
      ThreadState.appendLine, loggedCount_cons, if_true]
    push_cast
    omega
  · exact ⟨{ s.callLine b e view with start := s.traceFile.content.length },
      List.mem_append_right _ (List.mem_singleton.mpr rfl), rfl, h.depth⟩

lemma DepthExact.enter {e : EnterCall} (h : DepthExact s) (hstep : EnterStep b e s s') :
    DepthExact s' := by
  cases hstep with
  | overflow hover => exact ⟨h.depth, h.popped, h.lines⟩
  | @unlogged s₀ s₁ hover hs₀ hquiet hfp =>
    have hs₁ : DepthExact s₁ := by
      rcases hfp with ⟨-, rfl⟩ | ⟨-, rfl⟩
      · exact (h.reserveSlot hs₀).enterReclaim e
      · exact ((h.reserveSlot hs₀).enterReclaim e).getThreadFp e.threadFp
    refine ⟨?_, hs₁.popped, hs₁.lines.push fun hlog => absurd hlog (by simp [ThreadState.newRecord])⟩
    simpa [ThreadState.push, ThreadState.newRecord] using hs₁.depth
  | @logged s₀ s₁ view hover hs₀ hview hopen hs₁ =>
    rw [hs₁]
    exact (((h.reserveSlot hs₀).enterReclaim e).getThreadFp e.threadFp).enterParentReclaim e view
      |>.logged

lemma DepthExact.exit {x : ExitCall} (h : DepthExact s) (hstep : ExitStep b x s s') :
    DepthExact s' := by
  cases hstep with
  | drained hover => exact ⟨h.depth, h.popped, h.lines⟩
  | empty hover hempty => exact h
  | @left record rest hover hrec =>
    have hpop := h.pop (b := b) frameEndJump (s.aboveExiting x)
    have hframes : (s.popped b frameEndJump (s.aboveExiting x)).frames = record :: rest := hrec
    have hdepth := hpop.depth
    rw [hframes, loggedCount_cons] at hdepth
    rw [leaveFrame_eq hframes]
    refine ⟨?_, hpop.popped, hpop.lines.of_drop (n := 1) (by rw [hframes]; rfl) ?_⟩
    · cases hlog : record.logged <;> simp [hlog] at hdepth ⊢ <;> omega
    · intro l hl
      split_ifs
      · rwa [(patchedTo_markLeft _ b x record).lines_eq]
      · exact hl

lemma DepthExact.catch {c : EventCall} (h : DepthExact s) (hstep : CatchStep b c s s') :
    DepthExact s' := by
  cases hstep with
  | popped hquiet => exact h.pop _ _
  | written hnamed hreads hline => exact (h.pop _ _).eventStep hline

/-- Depth accounting survives every event. -/
lemma DepthExact.step (h : DepthExact s) (ev : HookEvent) : DepthExact (hookStep b s ev) := by
  rcases hookStep_cases b s ev with ⟨e, rfl⟩ | ⟨x, rfl⟩ | hsame | ⟨r, hline⟩ | ⟨c, -, hstep⟩
  · have hstep := h.enter (enterStep b e s)
    exact ⟨hstep.depth, hstep.popped, hstep.lines⟩
  · exact h.exit (exitStep b x s)
  · rwa [hsame]
  · exact h.eventStep hline
  · exact h.catch hstep

/-! ### What one event prints -/

lemma getThreadFp_lines (b : Build) (r : FpReply) (s : ThreadState) :
    (s.getThreadFp b r).2.traceFile.lines = s.traceFile.lines := by
  obtain ⟨file, cursor, valid, hframe, hlines⟩ := getThreadFp_frame s b r
  rw [hframe, hlines]

lemma enterReclaim_lines (b : Build) (e : EnterCall) (s : ThreadState) :
    (s.enterReclaim b e).traceFile.lines = s.traceFile.lines := by
  rw [enterReclaim_eq]
  exact popped_lines ..

lemma enterParentReclaim_lines (b : Build) (e : EnterCall) (view : ResolvedFrameView)
    (s : ThreadState) : (s.enterParentReclaim b e view).traceFile.lines = s.traceFile.lines := by
  rw [enterParentReclaim_eq]
  exact popped_lines ..

lemma EnterStep.printsAtDepth {e : EnterCall} (h : DepthExact s) (hstep : EnterStep b e s s') :
    PrintsAtDepth s s' := by
  cases hstep with
  | overflow hover => exact .inl rfl
  | @unlogged s₀ s₁ hover hs₀ hquiet hfp =>
    obtain ⟨capacity, rfl, -⟩ := reserveSlot_eq_some hs₀
    left
    rcases hfp with ⟨-, rfl⟩ | ⟨-, rfl⟩
    · exact enterReclaim_lines b e _
    · exact (getThreadFp_lines b e.threadFp _).trans (enterReclaim_lines b e _)
  | @logged s₀ s₁ view hover hs₀ hview hopen hs₁ =>
    have hdepth : DepthExact s₁ := by
      rw [hs₁]
      exact (((h.reserveSlot hs₀).enterReclaim e).getThreadFp e.threadFp).enterParentReclaim e view
    obtain ⟨capacity, rfl, -⟩ := reserveSlot_eq_some hs₀
    have hlines : s₁.traceFile.lines = s.traceFile.lines := by
      rw [hs₁, enterParentReclaim_lines, getThreadFp_lines, enterReclaim_lines]
    have hentered : s₁.entered = (s₁.callLine b e view).activation := rfl
    refine .inr ⟨{ s₁.callLine b e view with start := s₁.traceFile.content.length }, ?_, ?_⟩
    · rw [← hlines]
      rfl
    · exact ⟨_, _, rfl, rfl, rfl, hdepth.depth⟩

/-- An event line written one below the current depth is a child of the innermost logged record. -/
lemma DepthExact.eventAtDepth {l : Line} (h : DepthExact s) (hl : l.depth = s.currentStackDepth + 1) :
    EventAtDepth s l := by
  rw [h.depth] at hl
  constructor
  · intro above r below heq habove hlog
    obtain ⟨l', hl', howner, hdepth⟩ := h.lines above r below heq hlog
    have hnone : loggedCount above = 0 := List.countP_eq_zero.mpr fun x hx => by simp [habove x hx]
    refine ⟨l', hl', howner, ?_⟩
    rw [hl, hdepth, heq, loggedCount, List.countP_append, ← loggedCount, ← loggedCount, hnone,
      loggedCount_cons, hlog]
    push_cast
    simp
  · intro hnone
    rw [hl, loggedCount, List.countP_eq_zero.mpr fun x hx => by simp [hnone x hx]]
    rfl

/-- An event line is printed one below the current depth. -/
lemma EventStep.depth_eq {r : LineReply} {l : Line} (hstep : EventStep b r s s')
    (hl : s'.traceFile.lines = s.traceFile.lines ++ [l]) : l.depth = s.currentStackDepth + 1 := by
  have hsame := getThreadFp_lines b r.threadFp s
  cases hstep with
  | silent hclosed => simp [hsame] at hl
  | @line line hopen howner hline hshort =>
    have hwritten : ((s.getThreadFp b r.threadFp).2.appendLine b line).traceFile.lines =
        s.traceFile.lines ++ [{ line with
          start := (s.getThreadFp b r.threadFp).2.traceFile.content.length }] :=
      congrArg (· ++ _) hsame
    rw [hwritten] at hl
    obtain rfl := (List.cons.inj (List.append_cancel_left hl)).1
    exact hline

lemma EventStep.printsAtDepth {r : LineReply} (h : DepthExact s) (hstep : EventStep b r s s') :
    PrintsAtDepth s s' := by
  have hs' := h.eventStep hstep
  have hdepth := hstep.frames_eq.2.1
  cases hstep with
  | silent hclosed => exact .inl (getThreadFp_lines b r.threadFp s)
  | @line line hopen howner hline hshort =>
    refine .inr ⟨{ line with start := (s.getThreadFp b r.threadFp).2.traceFile.content.length },
      ?_, ?_⟩
    · rw [← getThreadFp_lines b r.threadFp s]
      rfl
    · simp only [howner]
      exact hs'.eventAtDepth (by rw [hdepth]; exact hline)

lemma ExitStep.lines_eq {x : ExitCall} (h : ExitStep b x s s') :
    s'.traceFile.lines = s.traceFile.lines := by
  cases h with
  | drained hover => rfl
  | empty hover hempty => rfl
  | @left record rest hover hrec =>
    rw [leaveFrame_eq (s := s.popped b frameEndJump (s.aboveExiting x)) hrec]
    simp only
    split_ifs
    · exact (patchedTo_markLeft _ b x record).lines_eq.trans (popped_lines ..)
    · exact popped_lines ..

lemma ExitStep.printsAtDepth {x : ExitCall} (hstep : ExitStep b x s s') : PrintsAtDepth s s' :=
  .inl hstep.lines_eq

lemma CatchStep.printsAtDepth {c : EventCall} (h : DepthExact s) (hstep : CatchStep b c s s') :
    PrintsAtDepth s s' := by
  cases hstep with
  | popped hquiet => exact .inl (popped_lines ..)
  | written hnamed hreads hline =>
    have hprints := hline.printsAtDepth (h.pop frameEndException _)
    rwa [PrintsAtDepth, popped_lines] at hprints

lemma DepthExact.printsAtDepth (h : DepthExact s) (ev : HookEvent) :
    PrintsAtDepth s (hookStep b s ev) := by
  rcases hookStep_cases b s ev with ⟨e, rfl⟩ | ⟨x, rfl⟩ | hsame | ⟨r, hline⟩ | ⟨c, -, hstep⟩
  · have hprints : PrintsAtDepth s (s.enterFrame b e) := (enterStep b e s).printsAtDepth h
    exact hprints
  · exact (exitStep b x s).printsAtDepth
  · exact .inl (by rw [hsame])
  · exact hline.printsAtDepth h
  · exact hstep.printsAtDepth h

lemma depthExact_fresh (bounds : StackBounds) (earlier : Text) :
    DepthExact (ThreadState.fresh bounds earlier) where
  depth := rfl
  popped := rfl
  lines := fun above r below heq => by simp [ThreadState.fresh] at heq

/-- In every run of hooks and events the depth counts the logged records, every line is printed
at its true depth, and nothing is popped off an empty stack. -/
theorem depth_exact (b : Build) (bounds : StackBounds) (earlier : Text) (evs : List HookEvent) :
    AllSteps (hookStep b)
      (fun s ev =>
        (hookStep b s ev).currentStackDepth + 1 = loggedCount (hookStep b s ev).frames ∧
        -1 ≤ (hookStep b s ev).currentStackDepth ∧
        (hookStep b s ev).emptyPop = false ∧
        PrintsAtDepth s (hookStep b s ev))
      (ThreadState.fresh bounds earlier) evs := by
  refine allSteps_of_invariant (I := DepthExact) (D := fun _ _ => True)
    (fun s ev h _ => h.step ev) (fun s ev h _ => ?_) (depthExact_fresh bounds earlier) ?_
  · have hstep := h.step (b := b) ev
    have hdepth := hstep.depth
    exact ⟨hdepth, by omega, hstep.popped, h.printsAtDepth ev⟩
  · exact allSteps_of_forall fun _ _ => trivial

end CallStackLogger
