import CallStackLogger.Core.Forest
import CallStackLogger.Program.Durations
import CallStackLogger.Trace.Growth
import CallStackLogger.Trace.Written

/-!
# The trace file of a nested run

A run in which every frame runs its exit hook is a tree of calls, and what it leaves in the trace file is the
listing of that tree: the logged calls and the events under them, each at the number of logged calls around it, a
call with its duration and the mark of the exception it ended by. The file is written from the front and the
columns of a line are filled in long after it, so that the listing is complete only when its last frame has left.
-/

namespace CallStackLogger

open Run

variable {b : Build} {s s' : ThreadState} {w : World} {bounds : StackBounds}

/-! ### What an event writes -/

def ExceptionEvent.call : ExceptionEvent → EventCall
  | .thrown _ c     => c
  | .caught c       => c
  | .terminated _ c => c

/-- What an event writes when nothing it calls throws. -/
def ExceptionEvent.text (ev : ExceptionEvent) : Option EventText :=
  match ev.call.site, exceptionTypeName ev.call.type ev.call.demangled with
  | some site, some typeName =>
    match ev with
    | .thrown kind c       => some (c.thrownText site typeName kind)
    | .caught c            => some (c.caughtText site typeName)
    | .terminated reason c => some (c.terminatedText site typeName reason)
  | _, _ => none

/-- Whether looking up the chain of the event's site throws. -/
def ThreadState.eventThrows (s : ThreadState) : ExceptionEvent → Bool
  | .caught c => s.catchThrows c
  | _         => false

/-- What an event writes in the state `s`. -/
def ThreadState.eventText (s : ThreadState) (b : Build) (ev : ExceptionEvent) : Option EventText :=
  if b.logExceptions && !s.eventThrows ev then ev.text else none

/-- The state an event leaves behind once it has reclaimed nothing. -/
def ThreadState.afterText (s : ThreadState) (b : Build) : Option EventText → ThreadState
  | some t => s.writeText b t
  | none   => s

lemma onThrow_eq (b : Build) (s : ThreadState) (kind : ThrowKind) (c : EventCall) :
    s.onThrow b kind c = s.afterText b (ExceptionEvent.thrown kind c).text := by
  rw [ThreadState.onThrow, ExceptionEvent.text, ExceptionEvent.call]
  cases c.site with
  | none => rfl
  | some site =>
    cases exceptionTypeName c.type c.demangled with
    | none => rfl
    | some typeName => cases kind <;> rfl

lemma onTerminate_eq (b : Build) (s : ThreadState) (reason : TerminateReason) (c : EventCall) :
    s.onTerminate b reason c = s.afterText b (ExceptionEvent.terminated reason c).text := by
  rw [ThreadState.onTerminate, ExceptionEvent.text, ExceptionEvent.call]
  cases c.site with
  | none => rfl
  | some site =>
    cases exceptionTypeName c.type c.demangled with
    | none => rfl
    | some typeName => rfl

/-- A catch in a frame of the program that reclaims nothing. -/
lemma onCatch_eq {c : EventCall} (hstub : c.atStub = false) (hdead : s.catchDead c = 0) :
    (s.onCatch b c).1 =
      s.afterText b (if !s.catchThrows c then (ExceptionEvent.caught c).text else none) := by
  rw [ThreadState.onCatch, ExceptionEvent.text, ExceptionEvent.call]
  cases hsite : c.site with
  | none =>
    cases s.catchThrows c <;> rfl
  | some site =>
    cases htype : exceptionTypeName c.type c.demangled with
    | none =>
      cases s.catchThrows c <;> rfl
    | some typeName =>
      have hcaught : ¬ site.callerFunctionBase = some clangTerminateStub := by
        simpa [EventCall.atStub, hsite] using hstub
      have hcount : deadRecordsOnCatch s.frames c.level s.stackBounds = 0 ∧
          inlinedDeadOnCatch s.frames c.level s.stackBounds (c.inlineChain.getD []) = 0 := by
        simp only [ThreadState.catchDead, hsite, htype, hcaught, if_false] at hdead
        have hlevel := Nat.eq_zero_of_add_eq_zero_right hdead
        rw [hlevel] at hdead
        exact ⟨hlevel, by simpa using hdead⟩
      have hthrows : s.catchThrows c = true ↔
          groupOnTop s.frames c.level s.stackBounds = true ∧ c.inlineChain = none := by
        simp [ThreadState.catchThrows, hstub, hcount.1]
      simp only [hcaught, if_false, catchLevelStep_eq, hcount.1, popped_zero, reclaimDeadInlinedRecordsOnCatch_eq,
        hcount.2]
      by_cases hthrow : s.catchThrows c = true
      · rw [if_pos (hthrows.mp hthrow)]
        simp [hthrow, ThreadState.afterText]
      · rw [if_neg fun h => hthrow (hthrows.mpr h)]
        simp only [hthrow, Bool.not_false, if_true]
        rfl

/-- An event in a nested run writes its line and does nothing else. -/
lemma Nested.watch_event (h : Nested bounds w) {ev : ExceptionEvent} (hev : HookedAction bounds w ev.action) :
    w.tracer.watch b ev.action = w.tracer.afterText b (w.tracer.eventText b ev) := by
  rw [ThreadState.eventText]
  cases hlogs : b.logExceptions with
  | false => cases ev <;> simp [ThreadState.watch, ExceptionEvent.action, Action.hook, hookStep, hlogs,
      ThreadState.afterText]
  | true =>
    cases ev with
    | thrown kind c =>
      simpa [ThreadState.watch, ExceptionEvent.action, Action.hook, hookStep, hlogs, ThreadState.eventThrows] using
        onThrow_eq b w.tracer kind c
    | terminated reason c =>
      simpa [ThreadState.watch, ExceptionEvent.action, Action.hook, hookStep, hlogs, ThreadState.eventThrows] using
        onTerminate_eq b w.tracer reason c
    | caught c =>
      have hcaught : CaughtInside bounds w c := hev
      simpa [ThreadState.watch, ExceptionEvent.action, Action.hook, hookStep, hlogs, ThreadState.eventThrows] using
        onCatch_eq (b := b) hcaught.1 (h.catchDead_eq_zero hcaught)

lemma text_line {ev : ExceptionEvent} {t : EventText} (h : ev.text = some t) :
    t.line = ev.call.line ∧ t.columnWord.length = durationFieldWidth := by
  rw [ExceptionEvent.text] at h
  cases hsite : ev.call.site with
  | none => simp [hsite] at h
  | some site =>
    cases htype : exceptionTypeName ev.call.type ev.call.demangled with
    | none => simp [hsite, htype] at h
    | some typeName =>
      rw [hsite, htype] at h
      cases ev with
      | thrown kind c =>
        obtain rfl := Option.some.inj h
        cases kind <;> exact ⟨rfl, rfl⟩
      | caught c =>
        obtain rfl := Option.some.inj h
        exact ⟨rfl, rfl⟩
      | terminated reason c =>
        obtain rfl := Option.some.inj h
        exact ⟨rfl, rfl⟩

/-- The entry of an event, if it is written. -/
def ThreadState.eventEntry (s : ThreadState) (b : Build) (ev : ExceptionEvent) : Option Entry :=
  ((s.eventText b ev).filter fun t => s.traceFile.hasStream t.line.threadFp).map fun t => t.entry b s.nextDepth

/-- What a run leaves in its trace: the tree of the logged calls, with the events in it. What runs under a call that
is not logged stands in its place. -/
def traced (b : Build) : World → Calls → Forest Entry
  | _, .done                     => .nil
  | w, .event ev rest            =>
    match w.tracer.eventEntry b ev with
    | some entry => .node entry .nil (traced b (w.act b ev.action) rest)
    | none       => traced b (w.act b ev.action) rest
  | w, .call e site inner x rest =>
    let called := w.act b (.call e site)
    let left := (exec (World.act b) called inner.actions).act b (.leave x)
    match w.tracer.loggedView e with
    | some view =>
      .node (leftEntry b w.tracer.nextDepth e view x) (traced b called inner) (traced b left rest)
    | none      => traced b called inner ++ traced b left rest

/-- The replies a step opens the file with. -/
def ThreadState.openings (s : ThreadState) (b : Build) (a : Action) : List OpenReply :=
  ((a.hook.bind (s.asksForStream b)).map s.traceFile.opening).getD []

/-- The replies a run opens the file with. -/
def openings (b : Build) : World → List Action → List OpenReply
  | _, []        => []
  | w, a :: acts => w.tracer.openings b a ++ openings b (w.act b a) acts

lemma openings_append (b : Build) (w : World) (acts acts' : List Action) :
    openings b w (acts ++ acts') = openings b w acts ++ openings b (exec (World.act b) w acts) acts' := by
  induction acts generalizing w with
  | nil => rfl
  | cons a acts ih => rw [List.cons_append, openings, openings, ih, List.append_assoc, exec_cons]

/-! ### The steps of a nested run -/

/-- The file opens well when it is asked for, lines arrive whole, and the tree has room in its line. -/
structure Recorded (b : Build) (w : World) (a : Action) : Prop where
  opens : ∀ ev ∈ a.hook, ∀ r ∈ ev.fpReply, OpensWell b r.openReply
  whole : ∀ ev ∈ a.hook, ev.written = none
  fits : b.prefixWidth + treeSegmentWidth * w.tracer.nextDepth < formatBufSize

/-- A logged call adds its line to an open file, and its record remembers where. -/
lemma Grown.writeCall {t : ThreadState} {opened : List OpenReply} {e : EnterCall} (view : ResolvedFrameView)
    (h : Grown b s t opened []) (hfp : t.traceFile.fp = true) (hdepth : t.currentStackDepth = s.currentStackDepth)
    (hlow : -1 ≤ s.currentStackDepth) (hwhole : e.written = none)
    (hfits : b.prefixWidth + treeSegmentWidth * s.nextDepth < formatBufSize) :
    Grown b s (t.writeCall b e view) opened
        ((callEntry b s.nextDepth e view durationPlaceholder .returned).body s.nextDepth ++ ['\n']) ∧
      (t.writeCall b e view).traceFile.openAttempted = true ∧ (t.writeCall b e view).traceFile.fp = true ∧
      RecordOf b e (s.traceFile.content ++ opened.flatMap OpenReply.wholeHeader).length s.nextDepth
        ((t.writeCall b e view).newRecord b e
          { haveSlot := true, logged := true, level := e.level, nameBase := some view.calleeBaseName,
            lineStart := t.cursor }) := by
  have hattempted := h.followed.attempted hfp
  have hnext : t.nextDepth = s.nextDepth := by rw [ThreadState.nextDepth, hdepth, ThreadState.nextDepth]
  have hline := h.trans (h.followed.appendLine (l := t.callLine b e view) hfp hwhole)
  rw [List.append_nil, List.nil_append, callLine_text b e view (hnext ▸ hfits), hnext] at hline
  refine ⟨hline.congr rfl rfl rfl rfl, hattempted, hfp, rfl, rfl, rfl, fun hpatching => ?_⟩
  obtain ⟨-, hvalid, hcursor⟩ := h.followed.trusted hpatching hfp
  have hend : t.cursor = (s.traceFile.content ++ opened.flatMap OpenReply.wholeHeader).length := by
    rw [hcursor, h.content, List.append_nil]
  have hnow : (t.writeCall b e view).cursorValid = true := by
    simp [ThreadState.writeCall, ThreadState.appendLine, ThreadState.callLine, hvalid, hwhole]
  constructor
  · simp [ThreadState.newRecord, hpatching, hnow, hend]
  · simp only [ThreadState.newRecord, hpatching, hnow, Bool.and_true, if_true, ThreadState.nextDepth]
    show t.currentStackDepth + 1 = _
    omega

/-- An enter that pops nothing pops nothing in its first two steps. -/
lemma enterReclaim_of_nothing_dead {e : EnterCall} (capacity : Nat) (hover : s.overflows e = false)
    (hdead : s.enterDead e = 0) :
    ({ s with capacity := capacity } : ThreadState).enterReclaim b e = { s with capacity := capacity } := by
  have hnone : ({ s with capacity := capacity } : ThreadState).deadOnEnter e = 0 := by
    show s.deadOnEnter e = 0
    simp only [ThreadState.enterDead, hover, Bool.false_eq_true, if_false] at hdead
    omega
  rw [enterReclaim_eq, hnone, popped_zero]

/-- Nor does it above its parent. -/
lemma parentDead_of_nothing_dead {e : EnterCall} {view : ResolvedFrameView} (hover : s.overflows e = false)
    (hview : s.loggedView e = some view) (hdead : s.enterDead e = 0) :
    parentDead s.frames e.key s.stackBounds view.callerFunctionBase = 0 := by
  simp only [ThreadState.enterDead, hover, Bool.false_eq_true, if_false, hview] at hdead
  have hnone : s.deadOnEnter e = 0 := by omega
  rw [hnone, List.drop_zero] at hdead
  omega

/-- A call that is not logged leaves the file as it is but for the header; one that is logged adds its line, and its
record remembers where. -/
lemma Nested.enter_grown {e : EnterCall} (site : CallSite) (h : Nested bounds w)
    (hbelow : RunsBelow bounds e.key w.live)
    (hfollowed : Followed b w.tracer) (hopens : OpensWell b e.threadFp.openReply) (hwhole : e.written = none)
    (hfits : b.prefixWidth + treeSegmentWidth * w.tracer.nextDepth < formatBufSize) :
    (w.tracer.loggedView e = none ∧
      Grown b w.tracer (hookStep b w.tracer (.enter e)) (w.tracer.openings b (.call e site)) []) ∨
    ∃ view r rest, w.tracer.loggedView e = some view ∧
      Grown b w.tracer (hookStep b w.tracer (.enter e)) (w.tracer.openings b (.call e site))
        ((callEntry b w.tracer.nextDepth e view durationPlaceholder .returned).body w.tracer.nextDepth ++ ['\n']) ∧
      (hookStep b w.tracer (.enter e)).traceFile.openAttempted = true ∧
      (hookStep b w.tracer (.enter e)).traceFile.fp = true ∧
      (hookStep b w.tracer (.enter e)).frames = r :: rest ∧
      RecordOf b e (w.tracer.traceFile.content
        ++ (w.tracer.openings b (.call e site)).flatMap OpenReply.wholeHeader).length w.tracer.nextDepth r := by
  have hdead := h.enterDead_eq_zero hbelow
  have hstep := enterStep b e w.tracer
  have hhook : hookStep b w.tracer (.enter e) =
      { w.tracer.enterFrame b e with entered := (w.tracer.enterFrame b e).entered + 1 } := rfl
  rw [hhook]
  have hopenings : w.tracer.openings b (.call e site) =
      if w.tracer.overflows e || w.tracer.chainThrows e then [] else w.tracer.traceFile.opening e.threadFp := by
    simp only [ThreadState.openings, Action.hook, Option.bind_some, ThreadState.asksForStream]
    split_ifs <;> rfl
  generalize w.tracer.enterFrame b e = s' at hstep ⊢
  cases hstep with
  | overflow hover =>
    have hnone : w.tracer.loggedView e = none := by simp [ThreadState.loggedView, hover]
    rw [hopenings, hover, Bool.true_or, if_pos rfl]
    exact .inl ⟨hnone, (Grown.refl hfollowed).congr rfl rfl rfl rfl⟩
  | @unlogged s₀ s₁ hover hslot hquiet hfp =>
    obtain ⟨capacity, rfl, -⟩ := reserveSlot_eq_some hslot
    have hreclaim := enterReclaim_of_nothing_dead (b := b) capacity hover hdead
    refine .inl ⟨hquiet, ?_⟩
    rw [hopenings, hover, Bool.false_or]
    rcases hfp with ⟨hthrows, rfl⟩ | ⟨hreads, rfl⟩
    · rw [hreclaim, if_pos hthrows]
      exact (Grown.refl hfollowed).congr rfl rfl rfl rfl
    · have hgrown := Followed.getThreadFp (s := { w.tracer with capacity := capacity })
        ⟨hfollowed.unopened, hfollowed.trusted⟩ hopens
      rw [hreclaim, hreads, if_neg Bool.false_ne_true]
      exact hgrown.congr rfl rfl rfl rfl
  | @logged s₀ s₁ view hover hslot hview hopen hs₁ =>
    obtain ⟨capacity, rfl, -⟩ := reserveSlot_eq_some hslot
    rw [enterReclaim_of_nothing_dead (b := b) capacity hover hdead] at hopen hs₁
    have hstack := getThreadFp_frame { w.tracer with capacity := capacity } b e.threadFp
    have hgrown := Followed.getThreadFp (s := { w.tracer with capacity := capacity })
      ⟨hfollowed.unopened, hfollowed.trusted⟩ hopens
    have hfp := getThreadFp_fp hopen
    rw [hopenings, hover, (loggedView_eq_some.mp hview).2.1, Bool.or_false, if_neg Bool.false_ne_true]
    generalize (({ w.tracer with capacity := capacity } : ThreadState).getThreadFp b e.threadFp).2 = s₂
      at hs₁ hstack hgrown hfp
    obtain ⟨hframes, hbounds, hdepth⟩ : s₂.frames = w.tracer.frames ∧ s₂.stackBounds = w.tracer.stackBounds ∧
        s₂.currentStackDepth = w.tracer.currentStackDepth := by
      obtain ⟨file, cursor, valid, rfl, -⟩ := hstack
      exact ⟨rfl, rfl, rfl⟩
    have hparent := parentDead_of_nothing_dead hover hview hdead
    rw [enterParentReclaim_eq, hframes, hbounds, hparent, popped_zero] at hs₁
    subst hs₁
    have hlow : -1 ≤ w.tracer.currentStackDepth := by
      have hexact := h.depth.depth
      omega
    obtain ⟨hline, hattempted, hopened, hrecord⟩ := (hgrown.congr (t := w.tracer) rfl rfl rfl rfl).writeCall view
      hfp hdepth hlow hwhole hfits
    exact .inr ⟨view, _, _, hview, hline.congr rfl rfl rfl rfl, hattempted, hopened, rfl, hrecord⟩

/-- Writing an event adds its line when the stream is there. -/
lemma Followed.writeText {t : EventText} (h : Followed b s) (hopens : OpensWell b t.line.threadFp.openReply)
    (hwhole : t.line.written = none) (hcolumn : t.columnWord.length = durationFieldWidth)
    (hfits : t.width b + treeSegmentWidth * max s.nextDepth 1 < formatBufSize) :
    Grown b s (s.writeText b t) (s.traceFile.opening t.line.threadFp)
      (if s.traceFile.hasStream t.line.threadFp then Entry.print (s.nextDepth, t.entry b s.nextDepth) else []) := by
  have hgrown := h.getThreadFp hopens
  have hstream := getThreadFp_fst s b t.line.threadFp
  obtain ⟨file, cursor, valid, hframe, -⟩ := getThreadFp_frame s b t.line.threadFp
  have hdepth : (s.getThreadFp b t.line.threadFp).2.currentStackDepth = s.currentStackDepth := by rw [hframe]
  rw [ThreadState.writeText, ThreadState.writeEventLine]
  rcases hreply : s.getThreadFp b t.line.threadFp with ⟨_ | _ | _, s₁⟩
  · rw [hreply] at hgrown hstream
    rw [if_neg fun hopen => absurd (hstream.mpr hopen) (by simp)]
    exact hgrown
  · rw [hreply] at hgrown hstream
    rw [if_neg fun hopen => absurd (hstream.mpr hopen) (by simp)]
    exact hgrown
  · have hfp : s₁.traceFile.fp = true := by
      have hopen := getThreadFp_fp (s := s) (b := b) (r := t.line.threadFp) (by rw [hreply])
      rwa [hreply] at hopen
    rw [hreply] at hgrown hstream hdepth
    have hnext : s₁.nextDepth = s.nextDepth := congrArg (fun d : Int => (d + 1).toNat) hdepth
    have hline := hgrown.trans (hgrown.followed.appendLine (l := s₁.textLine b t) hfp hwhole)
    rw [List.append_nil, List.nil_append, textLine_text b t hcolumn (hnext ▸ hfits), hnext] at hline
    rw [if_pos (hstream.mp rfl)]
    exact hline

lemma EventText.width_le (t : EventText) (b : Build) : t.width b ≤ b.prefixWidth := by
  have haddress : (if b.logAddr && t.site.address.isSome then addrColumnWidth else 0) ≤
      if b.logAddr then addrColumnWidth else 0 := by
    cases b.logAddr <;> cases t.site.address <;> simp
  rw [EventText.width, Build.prefixWidth, Build.linePrefixExtra]
  omega

lemma eventText_line {ev : ExceptionEvent} {t : EventText} (h : s.eventText b ev = some t) :
    t.line = ev.call.line ∧ t.columnWord.length = durationFieldWidth := by
  rw [ThreadState.eventText] at h
  split_ifs at h
  exact text_line h

lemma text_isSome (ev : ExceptionEvent) : ev.text.isSome = ev.call.named := by
  rw [ExceptionEvent.text, EventCall.named]
  cases ev.call.site with
  | none => rfl
  | some site =>
    cases exceptionTypeName ev.call.type ev.call.demangled with
    | none => rfl
    | some typeName => cases ev <;> rfl

/-- An event asks for the stream when it has something to write. -/
lemma openings_event (b : Build) (s : ThreadState) (ev : ExceptionEvent) :
    s.openings b ev.action =
      ((s.eventText b ev).map fun t => s.traceFile.opening t.line.threadFp).getD [] := by
  have hasks : ev.action.hook.bind (s.asksForStream b) =
      if b.logExceptions && !s.eventThrows ev && ev.text.isSome then some ev.call.line.threadFp else none := by
    rw [text_isSome]
    cases ev with
    | thrown kind c =>
      simp [ExceptionEvent.action, Action.hook, ThreadState.asksForStream, ThreadState.eventThrows, ExceptionEvent.call]
    | caught c =>
      simp [ExceptionEvent.action, Action.hook, ThreadState.asksForStream, ThreadState.eventThrows, ExceptionEvent.call,
        Bool.and_right_comm]
    | terminated reason c =>
      simp [ExceptionEvent.action, Action.hook, ThreadState.asksForStream, ThreadState.eventThrows, ExceptionEvent.call]
  rw [ThreadState.openings, hasks, ThreadState.eventText]
  by_cases hwrites : (b.logExceptions && !s.eventThrows ev) = true
  · rw [hwrites, if_pos rfl, Bool.true_and]
    cases htext : ev.text with
    | none => rfl
    | some t =>
      rw [Option.isSome_some, if_pos rfl]
      simp only [Option.map_some, Option.getD_some, (text_line htext).1]
  · rw [if_neg hwrites, Bool.eq_false_of_not_eq_true hwrites]
    rfl

/-- An event adds its line, if it is written. -/
lemma Nested.event_grown {ev : ExceptionEvent} (h : Nested bounds w) (hev : HookedAction bounds w ev.action)
    (hfollowed : Followed b w.tracer) (hrecorded : Recorded b w ev.action) :
    Grown b w.tracer (w.act b ev.action).tracer (w.tracer.openings b ev.action)
      (((w.tracer.eventEntry b ev).toList.map fun entry => (w.tracer.nextDepth, entry)).flatMap Entry.print) := by
  have hstep : (w.act b ev.action).tracer = w.tracer.afterText b (w.tracer.eventText b ev) := h.watch_event hev
  rw [hstep, ThreadState.eventEntry, openings_event]
  cases htext : w.tracer.eventText b ev with
  | none => exact .refl hfollowed
  | some t =>
    have hline := eventText_line htext
    have hopens : OpensWell b t.line.threadFp.openReply := by
      rw [hline.1]
      cases ev <;> exact hrecorded.opens _ rfl _ rfl
    have hwhole : t.line.written = none := by
      rw [hline.1]
      cases ev <;> exact hrecorded.whole _ rfl
    have hfits : t.width b + treeSegmentWidth * max w.tracer.nextDepth 1 < formatBufSize := by
      have hwidth := t.width_le b
      have hroom := hrecorded.fits
      have hwidest : b.prefixWidth + treeSegmentWidth < formatBufSize := by
        rcases b with ⟨_ | _, _ | _, _ | _⟩ <;> decide
      simp only [treeSegmentWidth] at hroom hwidest ⊢
      omega
    have hgrown := hfollowed.writeText hopens hwhole hline.2 hfits
    rw [ThreadState.afterText, Option.filter_some]
    split_ifs at hgrown ⊢ with hopen
    · simpa using hgrown
    · exact hgrown

/-- An exit leaves the cursor alone. -/
lemma exit_cursor (b : Build) (s : ThreadState) (x : ExitCall) :
    (hookStep b s (.exit x)).cursor = s.cursor ∧ (hookStep b s (.exit x)).cursorValid = s.cursorValid := by
  have hstep : ExitStep b x s (hookStep b s (.exit x)) := exitStep b x s
  generalize hookStep b s (.exit x) = s' at hstep
  cases hstep with
  | drained hover => exact ⟨rfl, rfl⟩
  | empty hover hempty => exact ⟨rfl, rfl⟩
  | left hover hrec =>
    rw [leaveFrame_eq (s := s.popped b frameEndJump (s.aboveExiting x)) hrec]
    exact ⟨rfl, rfl⟩

/-- The exit hook of a frame that was not logged leaves the file alone. -/
lemma Nested.leave_unlogged {x : ExitCall} {own : Frame} (h : Nested bounds w)
    (hx : NestedAction bounds w (.leave x)) (hown : own ∈ w.live.head?)
    (hquiet : ∀ r ∈ own.record, r.logged = false) :
    (hookStep b w.tracer (.exit x)).traceFile = w.tracer.traceFile := by
  obtain ⟨own', outer, hlive, hexits⟩ := hx
  obtain rfl : own' = own := by simpa [hlive] using hown
  obtain ⟨⟨-, -, hdrained⟩ | ⟨-, hzero, habove, r, hr, hframes⟩, -⟩ := h.leave_cases (b := b) hlive hexits
  · rw [hdrained]
  · have hstep : ExitStep b x w.tracer (hookStep b w.tracer (.exit x)) := exitStep b x w.tracer
    generalize hookStep b w.tracer (.exit x) = s' at hstep hframes ⊢
    cases hstep with
    | drained hover => rfl
    | empty hover hempty => rfl
    | @left record rest hover hrec =>
      rw [leaveFrame_eq (s := w.tracer.popped b frameEndJump (w.tracer.aboveExiting x)) hrec]
      rw [habove, List.drop_zero, hframes] at hrec
      obtain rfl := (List.cons.inj hrec).1
      simp [hquiet r hr, habove]

/-! ### The run -/

/-- The steps of a call are its own, those of what runs under it, and those of what follows. -/
lemma allSteps_call {P : World → Action → Prop} {e : EnterCall} {site : CallSite} {x : ExitCall} {inner rest : Calls}
    (h : AllSteps (World.act b) P w (Calls.call e site inner x rest).actions) :
    P w (.call e site) ∧ AllSteps (World.act b) P (w.act b (.call e site)) inner.actions ∧
      P (exec (World.act b) (w.act b (.call e site)) inner.actions) (.leave x) ∧
      AllSteps (World.act b) P ((exec (World.act b) (w.act b (.call e site)) inner.actions).act b (.leave x))
        rest.actions := by
  obtain ⟨hcall, htail⟩ := h
  exact ⟨hcall, (allSteps_append _ _ _).mp htail⟩

lemma Nested.nextDepth_eq (h : Nested bounds w) : w.tracer.nextDepth = loggedCount w.tracer.frames := by
  have hexact := h.depth.depth
  rw [ThreadState.nextDepth]
  omega

lemma exec_call {e : EnterCall} {site : CallSite} {x : ExitCall} {inner rest : Calls} :
    exec (World.act b) w (Calls.call e site inner x rest).actions =
      exec (World.act b) ((exec (World.act b) (w.act b (.call e site)) inner.actions).act b (.leave x))
        rest.actions := by
  rw [Calls.actions, exec_cons, exec_append, exec_cons]

lemma openings_call {e : EnterCall} {site : CallSite} {x : ExitCall} {inner rest : Calls} :
    openings b w (Calls.call e site inner x rest).actions =
      w.tracer.openings b (.call e site) ++ openings b (w.act b (.call e site)) inner.actions
        ++ openings b ((exec (World.act b) (w.act b (.call e site)) inner.actions).act b (.leave x)) rest.actions := by
  rw [Calls.actions, openings, openings_append, openings, List.append_assoc]
  rfl

/-- What is listed under a logged call, and what the call is listed as. -/
lemma listing_call {site : CallSite} {e : EnterCall} {x : ExitCall} {inner rest : Calls} {view : ResolvedFrameView}
    (hview : w.tracer.loggedView e = some view) (d : Nat) :
    ((traced b w (.call e site inner x rest)).listing d).flatMap Entry.print =
      ((leftEntry b w.tracer.nextDepth e view x).body d ++ ['\n'])
        ++ ((traced b (w.act b (.call e site)) inner).listing (d + 1)).flatMap Entry.print
        ++ ((traced b ((exec (World.act b) (w.act b (.call e site)) inner.actions).act b (.leave x)) rest).listing d
          ).flatMap Entry.print := by
  rw [traced, hview]
  simp only [Forest.listing, List.flatMap_cons, List.flatMap_append, Entry.print, List.append_assoc]

lemma listing_unlogged {site : CallSite} {e : EnterCall} {x : ExitCall} {inner rest : Calls}
    (hview : w.tracer.loggedView e = none) (d : Nat) :
    ((traced b w (.call e site inner x rest)).listing d).flatMap Entry.print =
      ((traced b (w.act b (.call e site)) inner).listing d).flatMap Entry.print
        ++ ((traced b ((exec (World.act b) (w.act b (.call e site)) inner.actions).act b (.leave x)) rest).listing d
          ).flatMap Entry.print := by
  rw [traced, hview]
  simp only [Forest.listing_append, List.flatMap_append]

lemma listing_event {ev : ExceptionEvent} {rest : Calls} (d : Nat) :
    ((traced b w (.event ev rest)).listing d).flatMap Entry.print =
      ((w.tracer.eventEntry b ev).toList.map fun entry => (d, entry)).flatMap Entry.print
        ++ ((traced b (w.act b ev.action) rest).listing d).flatMap Entry.print := by
  rw [traced]
  cases w.tracer.eventEntry b ev with
  | none => rfl
  | some entry => simp [Forest.listing]

/-- Under a logged call the tree is one level deeper. -/
lemma Nested.nextDepth_call {e : EnterCall} {site : CallSite} (h : Nested bounds w)
    (hcall : HookedAction bounds w (.call e site)) :
    (w.act b (.call e site)).tracer.nextDepth =
      w.tracer.nextDepth + if (w.tracer.loggedView e).isSome then 1 else 0 := by
  have hcalled : Nested bounds (w.act b (.call e site)) := h.hooked hcall
  rw [hcalled.nextDepth_eq, h.nextDepth_eq, World.act_tracer]
  rcases call_cases b w.tracer e site with ⟨hover, hframes, -, -⟩ | ⟨r, -, hpushed, hframes, -, -⟩
  · rw [hframes]
    simp [ThreadState.loggedView, hover]
  · rw [hframes, h.enterDead_eq_zero hcall.2, List.drop_zero, loggedCount_cons, hpushed.logged_eq]

/-- Behind a call it is as deep as in front of it. -/
lemma Nested.nextDepth_leave {s₀ : ThreadState} {x : ExitCall} {own : Frame} {outer : List Frame}
    (h : Nested bounds w) (hleave : HookedAction bounds w (.leave x)) (hlive : w.live = own :: outer)
    (hbefore : own.before = s₀) (hexact : DepthExact s₀) : (w.act b (.leave x)).tracer.nextDepth = s₀.nextDepth := by
  have hleft := (h.hooked (b := b) hleave).nextDepth_eq
  obtain ⟨own', outer', hlive', hexits⟩ := hleave
  obtain ⟨rfl, rfl⟩ : own' = own ∧ outer' = outer := by simpa [hlive] using hlive'.symm
  obtain ⟨-, hframes, -⟩ := h.leave_cases (b := b) hlive hexits
  rw [hleft]
  show loggedCount (hookStep b w.tracer (.exit x)).frames = _
  have hcount := hexact.depth
  rw [hframes, hbefore, ThreadState.nextDepth]
  omega

lemma Nested.nextDepth_event {ev : ExceptionEvent} (h : Nested bounds w) (hev : HookedAction bounds w ev.action) :
    (w.act b ev.action).tracer.nextDepth = w.tracer.nextDepth := by
  have hframes : (w.act b ev.action).tracer.frames = w.tracer.frames := by
    rw [World.act_tracer, h.watch_event hev]
    cases w.tracer.eventText b ev with
    | none => rfl
    | some t => exact (writeEventLine_step b t.verb t.siteLabel t.suffix t.columnWord t.typeName t.what t.site t.line
        w.tracer).frames_eq.1
  rw [(h.hooked hev).nextDepth_eq, hframes, h.nextDepth_eq]

/-- The frame of a call is still there when its exit hook runs. -/
lemma live_ending (b : Build) (w : World) (e : EnterCall) (site : CallSite) (inner : Calls) :
    (exec (World.act b) (w.act b (.call e site)) inner.actions).live =
      .hooked e site w.tracer (w.tracer.watch b (.call e site)) :: w.live := by
  rw [Calls.live_exec]
  rfl

/-- A call that was not logged is left without a trace. -/
lemma Nested.leave_grown_unlogged {e : EnterCall} {site : CallSite} {x : ExitCall} {w' : World}
    (h : Nested bounds w') (hleave : HookedAction bounds w' (.leave x))
    (hlive : w'.live = .hooked e site w.tracer (w.tracer.watch b (.call e site)) :: w.live)
    (hview : w.tracer.loggedView e = none) (hfollowed : Followed b w'.tracer) :
    Grown b w'.tracer (w'.act b (.leave x)).tracer [] [] := by
  have hquiet : ∀ r ∈ (Frame.hooked e site w.tracer (w.tracer.watch b (.call e site))).record, r.logged = false := by
    intro r hr
    rcases call_cases b w.tracer e site with ⟨-, -, -, hframe⟩ | ⟨r', -, hpushed, -, -, hframe⟩
    · simp [hframe] at hr
    · obtain rfl : r' = r := by simpa [hframe] using hr
      rw [hpushed.logged_eq, hview]
      rfl
  have hfile := h.leave_unlogged (b := b) hleave (by rw [hlive]; rfl) hquiet
  obtain ⟨hcursor, hvalid⟩ := exit_cursor b w'.tracer x
  exact (Grown.refl hfollowed).congr rfl hfile hcursor hvalid

/-- The exit of a logged call completes the line its enter wrote. -/
lemma Nested.leave_grown_logged {e : EnterCall} {site : CallSite} {x : ExitCall} {w' : World}
    {view : ResolvedFrameView} {opened : List OpenReply} {lines : Text} {r : FrameRecord} {records : List FrameRecord}
    (h : Nested bounds w') (hleave : HookedAction bounds w' (.leave x))
    (hlive : w'.live = .hooked e site w.tracer (w.tracer.watch b (.call e site)) :: w.live)
    (hframes : (w.tracer.watch b (.call e site)).frames = r :: records)
    (hrecord : RecordOf b e (w.tracer.traceFile.content ++ opened.flatMap OpenReply.wholeHeader).length
      w.tracer.nextDepth r) (hview : w.tracer.loggedView e = some view)
    (hopen : w'.tracer.traceFile.openAttempted = true) (hfp : w'.tracer.traceFile.fp = true)
    (hgrown : Grown b w.tracer w'.tracer opened
      ((callEntry b w.tracer.nextDepth e view durationPlaceholder .returned).body w.tracer.nextDepth
        ++ ['\n'] ++ lines)) :
    Grown b w.tracer (w'.act b (.leave x)).tracer opened
      ((leftEntry b w.tracer.nextDepth e view x).body w.tracer.nextDepth ++ ['\n'] ++ lines) := by
  have hown : (Frame.hooked e site w.tracer (w.tracer.watch b (.call e site))).record = some r := by
    rcases call_cases b w.tracer e site with ⟨hover, -, -, -⟩ | ⟨r', -, -, hframes', -, hframe⟩
    · simp [ThreadState.loggedView, hover] at hview
    · rw [hframes] at hframes'
      rw [hframe, (List.cons.inj hframes').1]
  have hfile : (w'.act b (.leave x)).tracer.traceFile = w'.tracer.traceFile.markLeft b x r :=
    (h.leave_logged hleave (by rw [hlive]; rfl) hown hrecord.logged).2
  obtain ⟨hcursor, hvalid⟩ := exit_cursor b w'.tracer x
  have htrusted := hgrown.followed.trusted
  have hbefore : w'.tracer.traceFile.content = (w.tracer.traceFile.content ++ opened.flatMap OpenReply.wholeHeader)
      ++ (callEntry b w.tracer.nextDepth e view durationPlaceholder .returned).body w.tracer.nextDepth
      ++ (['\n'] ++ lines) := by
    rw [hgrown.content]
    simp only [List.append_assoc]
  have hafter := markLeft_content (x := x) hrecord (fun hpatching => (htrusted hpatching hfp).1) hbefore
  obtain ⟨content, patches, hpatched⟩ := patchedTo_markLeft w'.tracer.traceFile b x r
  have hlength : (w'.tracer.traceFile.markLeft b x r).content.length = w'.tracer.traceFile.content.length := by
    have hbody :
        ((callEntry b w.tracer.nextDepth e view durationPlaceholder .returned).body w.tracer.nextDepth).length =
        ((leftEntry b w.tracer.nextDepth e view x).body w.tracer.nextDepth).length :=
      length_body_callEntry rfl (length_durationColumn b e x)
    rw [hafter, hbefore, List.length_append, List.length_append, ← hbody, ← List.length_append, ← List.length_append]
  refine ⟨⟨fun hclosed => ?_, fun hpatching _ => ?_⟩, ?_, fun hfirst => ?_, fun hclosed => ?_,
    fun hclosed hnone => absurd (hgrown.closed hclosed hnone).1 (by simp), hgrown.once⟩
  · rw [hfile, hpatched] at hclosed
    exact absurd (hopen.symm.trans hclosed) (by simp)
  · obtain ⟨hfd, hcursorValid, hend⟩ := htrusted hpatching hfp
    refine ⟨?_, hvalid.trans hcursorValid, hcursor.trans ?_⟩
    · rw [hfile, hpatched]
      exact hfd
    · rw [hfile, hlength, hend]
  · rw [hfile, hafter]
    simp only [List.append_assoc]
  · obtain ⟨hopened, -, hsame⟩ := hgrown.attempted hfirst
    rw [hfile, hpatched]
    exact ⟨hopened, hopen, hsame⟩
  · rw [hfile, hpatched] at hclosed
    exact absurd (hopen.symm.trans hclosed) (by simp)

/-- A nested run leaves the listing of its tree in the file, behind a header if it opened the file. -/
lemma grown_exec {c : Calls} (h : Nested bounds w) (hfollowed : Followed b w.tracer)
    (hc : AllSteps (World.act b) (HookedAction bounds) w c.actions)
    (hrecorded : AllSteps (World.act b) (Recorded b) w c.actions) :
    Grown b w.tracer (exec (World.act b) w c.actions).tracer (openings b w c.actions)
      (((traced b w c).listing w.tracer.nextDepth).flatMap Entry.print) := by
  induction c generalizing w with
  | done => exact .refl hfollowed
  | event ev rest ih =>
    have hgrown := h.event_grown hc.1 hfollowed hrecorded.1
    have hrest := ih (h.hooked hc.1) hgrown.followed hc.2 hrecorded.2
    rw [h.nextDepth_event hc.1] at hrest
    rw [listing_event]
    exact hgrown.trans hrest
  | call e site inner x rest ihInner ihRest =>
    obtain ⟨hcall, hinner, hleave, hrest⟩ := allSteps_call hc
    obtain ⟨hcallRecorded, hinnerRecorded, -, hrestRecorded⟩ := allSteps_call hrecorded
    have hcalled : Nested bounds (w.act b (.call e site)) := h.hooked hcall
    have hending : Nested bounds (exec (World.act b) (w.act b (.call e site)) inner.actions) :=
      exec_invariant (fun w a hw ha => hw.hooked ha) hcalled hinner
    have hlive := live_ending b w e site inner
    have hdepth := h.nextDepth_call (b := b) hcall
    have hback := hending.nextDepth_leave (b := b) hleave hlive rfl h.depth
    have hopens := hcallRecorded.opens _ rfl _ rfl
    have hwhole : e.written = none := hcallRecorded.whole _ rfl
    rw [exec_call, openings_call]
    rcases h.enter_grown site hcall.2 hfollowed hopens hwhole hcallRecorded.fits with
      ⟨hview, hentered⟩ | ⟨view, r, records, hview, hentered, hopen, hfp, hframes, hrecord⟩
    · have hran := ihInner hcalled hentered.followed hinner hinnerRecorded
      have hleft := hending.leave_grown_unlogged hleave hlive hview hran.followed
      have hbehind := ihRest (hending.hooked hleave) hleft.followed hrest hrestRecorded
      rw [hview, Option.isSome_none, if_neg Bool.false_ne_true, Nat.add_zero] at hdepth
      rw [hdepth] at hran
      rw [hback] at hbehind
      have hall := ((hentered.trans hran).trans hleft).trans hbehind
      rw [List.append_nil, List.append_nil, List.nil_append] at hall
      rw [listing_unlogged hview]
      exact hall
    · have hran := ihInner hcalled hentered.followed hinner hinnerRecorded
      obtain ⟨hnone, hopen', hfp'⟩ := hran.attempted hopen
      have hboth := hentered.trans hran
      rw [hnone, List.append_nil] at hboth
      have hleft := hending.leave_grown_logged hleave hlive hframes hrecord hview hopen' (hfp'.trans hfp) hboth
      have hbehind := ihRest (hending.hooked hleave) hleft.followed hrest hrestRecorded
      rw [hview, Option.isSome_some, if_pos rfl] at hdepth
      rw [hback] at hbehind
      have hall := hleft.trans hbehind
      rw [hdepth] at hall
      rw [listing_call hview, hnone, List.append_nil]
      exact hall

/-- No more calls are logged than are being executed. -/
lemma Nested.nextDepth_le (h : Nested bounds w) : w.tracer.nextDepth ≤ w.live.length := by
  obtain ⟨overflowed, pushed, hlive, -, -, -, hrecords⟩ := h.paired.mirrors
  have hlength : pushed.length = w.tracer.frames.length := by simpa using congrArg List.length hrecords
  have hlogged : loggedCount w.tracer.frames ≤ w.tracer.frames.length := List.countP_le_length
  rw [h.nextDepth_eq, hlive, List.length_append]
  omega

/-- What a step needs, told from the frames being executed. -/
def RecordedLive (b : Build) (w : World) (a : Action) : Prop :=
  (∀ ev ∈ a.hook, (∀ r ∈ ev.fpReply, OpensWell b r.openReply) ∧ ev.written = none) ∧
    b.prefixWidth + treeSegmentWidth * w.live.length < formatBufSize

lemma recorded_of_live {acts : List Action} (h : Nested bounds w)
    (hacts : AllSteps (World.act b) (HookedAction bounds) w acts)
    (hlive : AllSteps (World.act b) (RecordedLive b) w acts) : AllSteps (World.act b) (Recorded b) w acts := by
  refine allSteps_of_invariant (I := Nested bounds) (fun w a hw ha => hw.hooked ha.1) (fun w a hw ha => ?_) h
    (allSteps_and.mpr ⟨hacts, hlive⟩)
  obtain ⟨-, hhook, hroom⟩ := ha
  have hdepth := hw.nextDepth_le
  refine ⟨fun ev hev => (hhook ev hev).1, fun ev hev => (hhook ev hev).2, ?_⟩
  simp only [treeSegmentWidth] at hroom ⊢
  omega

/-! ### Frames that are still running -/

/-- Behind a run it is as deep as in front of it. -/
lemma Nested.nextDepth_exec {c : Calls} (h : Nested bounds w)
    (hc : AllSteps (World.act b) (HookedAction bounds) w c.actions) :
    (exec (World.act b) w c.actions).tracer.nextDepth = w.tracer.nextDepth := by
  induction c generalizing w with
  | done => rfl
  | event ev rest ih => exact (ih (h.hooked hc.1) hc.2).trans (h.nextDepth_event hc.1)
  | call e site inner x rest _ ihRest =>
    obtain ⟨hcall, hinner, hleave, hrest⟩ := allSteps_call hc
    have hending : Nested bounds (exec (World.act b) (w.act b (.call e site)) inner.actions) :=
      exec_invariant (fun w a hw ha => hw.hooked ha) (h.hooked hcall) hinner
    have hback := hending.nextDepth_leave (b := b) hleave (live_ending b w e site inner) rfl h.depth
    rw [exec_call]
    exact (ihRest (hending.hooked hleave) hrest).trans hback

/-- A frame that is still running: what its caller ran before, and how it was called. -/
structure Running where
  before : Calls
  enter : EnterCall
  site : CallSite

def Running.actions (r : Running) : List Action := r.before.actions ++ [.call r.enter r.site]

/-- What a thread has run when it is stopped anywhere: the frames that are running, the outermost first, and what
the innermost of them has run. -/
structure CallsSoFar where
  running : List Running
  last : Calls

def CallsSoFar.actions (c : CallsSoFar) : List Action := c.running.flatMap Running.actions ++ c.last.actions

/-- What is in the trace by then: a frame that is running has its line, with what it has run under it. -/
def tracedSoFar (b : Build) : World → List Running → Calls → Forest Entry
  | w, [], last           => traced b w last
  | w, r :: running, last =>
    let here := exec (World.act b) w r.before.actions
    let under := tracedSoFar b (here.act b (.call r.enter r.site)) running last
    traced b w r.before ++
      match here.tracer.loggedView r.enter with
      | some view =>
        .node (callEntry b here.tracer.nextDepth r.enter view durationPlaceholder .returned) under .nil
      | none      => under

/-- The steps up to a running frame are those before it, its call, and those under it. -/
lemma allSteps_running {P : World → Action → Prop} {r : Running} {running : List Running} {last : Calls}
    (h : AllSteps (World.act b) P w (CallsSoFar.mk (r :: running) last).actions) :
    AllSteps (World.act b) P w r.before.actions ∧
      P (exec (World.act b) w r.before.actions) (.call r.enter r.site) ∧
      AllSteps (World.act b) P ((exec (World.act b) w r.before.actions).act b (.call r.enter r.site))
        (CallsSoFar.mk running last).actions := by
  rw [CallsSoFar.actions, List.flatMap_cons, Running.actions, List.append_assoc, List.append_assoc] at h
  obtain ⟨hbefore, hcall, hunder⟩ := (allSteps_append _ _ _).mp h
  exact ⟨hbefore, hcall, hunder⟩

lemma exec_running {r : Running} {running : List Running} {last : Calls} :
    exec (World.act b) w (CallsSoFar.mk (r :: running) last).actions =
      exec (World.act b) ((exec (World.act b) w r.before.actions).act b (.call r.enter r.site))
        (CallsSoFar.mk running last).actions := by
  rw [CallsSoFar.actions, List.flatMap_cons, Running.actions, List.append_assoc, List.append_assoc, exec_append]
  rfl

lemma openings_running {r : Running} {running : List Running} {last : Calls} :
    openings b w (CallsSoFar.mk (r :: running) last).actions =
      openings b w r.before.actions
        ++ ((exec (World.act b) w r.before.actions).tracer.openings b (.call r.enter r.site)
        ++ openings b ((exec (World.act b) w r.before.actions).act b (.call r.enter r.site))
          (CallsSoFar.mk running last).actions) := by
  rw [CallsSoFar.actions, List.flatMap_cons, Running.actions, List.append_assoc, List.append_assoc, openings_append]
  rfl

/-- Stopped anywhere, a nested run has left the listing of what it has run so far. -/
lemma grown_soFar {running : List Running} {last : Calls} (h : Nested bounds w) (hfollowed : Followed b w.tracer)
    (hc : AllSteps (World.act b) (HookedAction bounds) w (CallsSoFar.mk running last).actions)
    (hrecorded : AllSteps (World.act b) (Recorded b) w (CallsSoFar.mk running last).actions) :
    Grown b w.tracer (exec (World.act b) w (CallsSoFar.mk running last).actions).tracer
      (openings b w (CallsSoFar.mk running last).actions)
      (((tracedSoFar b w running last).listing w.tracer.nextDepth).flatMap Entry.print) := by
  induction running generalizing w with
  | nil => exact grown_exec h hfollowed hc hrecorded
  | cons r running ih =>
    obtain ⟨hbefore, hcall, hunder⟩ := allSteps_running hc
    obtain ⟨hbeforeRecorded, hcallRecorded, hunderRecorded⟩ := allSteps_running hrecorded
    have hran := grown_exec h hfollowed hbefore hbeforeRecorded
    have hhere : Nested bounds (exec (World.act b) w r.before.actions) :=
      exec_invariant (fun w a hw ha => hw.hooked ha) h hbefore
    have hdepth := h.nextDepth_exec (b := b) hbefore
    have hdeeper := hhere.nextDepth_call (b := b) hcall
    have hopens := hcallRecorded.opens _ rfl _ rfl
    have hwhole : r.enter.written = none := hcallRecorded.whole _ rfl
    rw [exec_running, openings_running, tracedSoFar, Forest.listing_append, List.flatMap_append]
    refine hran.trans ?_
    rcases hhere.enter_grown r.site hcall.2 hran.followed hopens hwhole hcallRecorded.fits with
      ⟨hview, hentered⟩ | ⟨view, record, records, hview, hentered, -, -, -, -⟩
    · have hrest := ih (hhere.hooked hcall) hentered.followed hunder hunderRecorded
      rw [hdeeper, hview, Option.isSome_none, if_neg Bool.false_ne_true, Nat.add_zero, hdepth] at hrest
      rw [hview]
      exact hentered.trans hrest
    · have hrest := ih (hhere.hooked hcall) hentered.followed hunder hunderRecorded
      rw [hdeeper, hview, Option.isSome_some, if_pos rfl, hdepth] at hrest
      rw [hdepth] at hentered
      rw [hview, hdepth]
      simp only [Forest.listing, List.append_nil, List.flatMap_cons]
      exact hentered.trans hrest

/-! ### The whole file -/

lemma Followed.fresh (b : Build) (bounds : StackBounds) (earlier : Text) :
    Followed b (ThreadState.fresh bounds earlier) where
  unopened := fun _ => ⟨rfl, rfl⟩
  trusted := fun _ hfp => absurd (show false = true from hfp) (by decide)

lemma grown_fresh {earlier : Text} {c : CallsSoFar}
    (hc : AllSteps (World.act b) (HookedAction bounds) (.fresh bounds earlier) c.actions)
    (hrecorded : AllSteps (World.act b) (Recorded b) (.fresh bounds earlier) c.actions) :
    Grown b (.fresh bounds earlier) (exec (World.act b) (.fresh bounds earlier) c.actions).tracer
      (openings b (.fresh bounds earlier) c.actions)
      (((tracedSoFar b (.fresh bounds earlier) c.running c.last).listing 0).flatMap Entry.print) :=
  grown_soFar (Nested.fresh bounds earlier) (.fresh b bounds earlier) hc hrecorded

/-- Wherever a thread is stopped whose calls run their exit hooks, its file holds what it held before, the header if
the thread opened it, which it does once at most, and the listing of the calls so far. -/
theorem file_lists_calls (b : Build) (bounds : StackBounds) (earlier : Text) (c : CallsSoFar)
    (hc : AllSteps (World.act b) (HookedAction bounds) (.fresh bounds earlier) c.actions)
    (hrecorded : AllSteps (World.act b) (Recorded b) (.fresh bounds earlier) c.actions) :
    (exec (World.act b) (.fresh bounds earlier) c.actions).tracer.traceFile.content =
        earlier ++ (openings b (.fresh bounds earlier) c.actions).flatMap OpenReply.wholeHeader
          ++ ((tracedSoFar b (.fresh bounds earlier) c.running c.last).listing 0).flatMap Entry.print ∧
      (openings b (.fresh bounds earlier) c.actions).length ≤ 1 := by
  have hgrown := grown_fresh hc hrecorded
  exact ⟨hgrown.content, hgrown.once⟩

/-- `run` is running; it has caught what `step` threw. -/
def runCatches : CallsSoFar where
  running := [⟨.done, { EnterCall.plain ⟨1, 10, 1024⟩ [] (.named "run".toList none) with time := 1000 },
    ⟨2048, 1024, "run".toList, false⟩⟩]
  last :=
    .call { EnterCall.plain ⟨2, 20, 512⟩ [] (.named "step".toList none) with time := 1100 }
      ⟨512, 512, "step".toList, false⟩
      (.event (.thrown .primary (.plain 512 [])) .done)
      { ExitCall.plain ⟨2, 20, 512⟩ 21 with time := 1350, uncaught := 1 }
      (.event (.caught (.plain 1024 [])) .done)

lemma opensWell_succeeds : OpensWell b OpenReply.succeeds := ⟨rfl, rfl, by decide, fun _ => ⟨rfl, rfl⟩⟩

lemma hooked_runCatches (b : Build) (earlier : Text) :
    AllSteps (World.act b) (HookedAction ⟨16, 4096, true⟩) (.fresh ⟨16, 4096, true⟩ earlier) runCatches.actions := by
  refine ⟨⟨rfl, by simp [RunsBelow, World.fresh]⟩, ⟨rfl, ?_⟩, trivial, ?_, ⟨by decide, ?_⟩, trivial⟩
  · simp [RunsBelow, World.liveAfter, World.fresh, Frame.hooked, EnterCall.plain, EnterCall.key]
  · exact ⟨_, _, rfl, isHooked_hooked .., rfl, rfl, fun _ => rfl, fun htail => absurd htail (by decide)⟩
  · simp [ExceptionEvent.action, World.liveAfter, World.fresh, Frame.hooked, EnterCall.plain, EnterCall.key,
      EventCall.plain]

lemma recorded_runCatches (earlier : Text) :
    AllSteps (World.act ⟨true, true, false⟩) (Recorded ⟨true, true, false⟩) (.fresh ⟨16, 4096, true⟩ earlier)
      runCatches.actions := by
  have hopens : OpensWell ⟨true, true, false⟩ OpenReply.succeeds := opensWell_succeeds
  refine recorded_of_live (Nested.fresh ⟨16, 4096, true⟩ earlier) (hooked_runCatches _ earlier) ?_
  simp [runCatches, CallsSoFar.actions, Running.actions, Calls.actions, World.fresh, World.liveAfter, RecordedLive,
    Action.hook, HookEvent.fpReply, HookEvent.written, ExceptionEvent.action, EnterCall.plain, EventCall.plain,
    LineReply.full, FpReply.ready, hopens, Build.prefixWidth, Build.linePrefixExtra]
  decide

theorem file_lists_calls_caught :
    (exec (World.act ⟨true, true, false⟩) (.fresh ⟨16, 4096, true⟩ []) runCatches.actions).tracer.traceFile.content =
        [] ++ (openings ⟨true, true, false⟩ (.fresh ⟨16, 4096, true⟩ []) runCatches.actions).flatMap
            OpenReply.wholeHeader
          ++ ((tracedSoFar ⟨true, true, false⟩ (.fresh ⟨16, 4096, true⟩ []) runCatches.running runCatches.last).listing
            0).flatMap Entry.print ∧
      (openings ⟨true, true, false⟩ (.fresh ⟨16, 4096, true⟩ []) runCatches.actions).length ≤ 1 :=
  file_lists_calls _ _ _ _ (hooked_runCatches _ _) (recorded_runCatches _)

end CallStackLogger
