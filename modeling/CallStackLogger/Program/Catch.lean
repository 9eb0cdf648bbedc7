import CallStackLogger.Program.Records
import CallStackLogger.Trace.Depth
import CallStackLogger.Trace.Patching

/-!
# Where a catch lands

Between out-of-line frames of the thread's own stack, whatever lies above the record of the catching
frame was entered after it and has a lower level. The level step of a catch takes exactly that off, so
that the catch line is a child of the catcher's line, and what it takes off is marked as left by an
exception. As long as the marks of a run stay inside the file, they are on the lines of their frames.
-/

namespace CallStackLogger

open Run

variable {b : Build} {w : World} {bounds : StackBounds}

/-- Out-of-line calls, exits of the innermost frame, non-local exits, and catches by the innermost
frame. -/
def CatchAction (bounds : StackBounds) (w : World) : Action → Prop
  | .call e site        => site.inlined = false ∧ RunsBelow bounds e.key w.live ∧
      ∀ view, e.resolved = .found view → view.calleeBaseName = site.name
  | .callPlain key site => site.inlined = false ∧ RunsBelow bounds key w.live
  | .leave x            => ∃ own outer, w.live = own :: outer ∧ ExitsFrom bounds own outer x
  | .leavePlain         => ∃ own ∈ w.live.head?, own.isHooked = false
  | .caught c           => c.atStub = false → ∃ catcher ∈ w.live.head?, c.level = catcher.key.level ∧
      ∀ chain, c.inlineChain = some chain → chain = [] ∨ chain = [catcher.site.name]
  | _                   => True

/-- The catch of an action, with the record `r` of the catcher and the records `above` and `below` it. -/
structure CatchOver (b : Build) (w : World) (c : EventCall) (r : FrameRecord)
    (above below : List FrameRecord) : Prop where
  exceptions : b.logExceptions = true
  named : c.named = true
  caught : c.atStub = false
  catcher : ∃ own ∈ w.live.head?, own.record = some r
  frames : w.tracer.frames = above ++ r :: below

/-- The catcher and the frames of the records above it run on the thread's own stack. -/
def OnOwnStack (bounds : StackBounds) (r : FrameRecord) (above : List FrameRecord) : Prop :=
  onThreadStack bounds r.level = true ∧ ∀ q ∈ above, onThreadStack bounds q.level = true

/-- The level step leaves the catcher's record on top, pops records of dead frames entered after it
and marks the logged ones, and the line of the catch goes under that of the catcher. -/
def LandsUnderCatcher (b : Build) (w : World) (c : EventCall) (r : FrameRecord)
    (above below : List FrameRecord) : Prop :=
  let s₁ := w.tracer.catchLevelStep b c.level c.uncaught
  s₁.frames = r :: below ∧ (∀ q ∈ above, r.activation < q.activation ∧ q ∉ w.records) ∧
    s₁.traceFile = w.tracer.traceFile.markAll b frameEndException above ∧
    (r.logged = true → ∀ line,
      (w.act b (.caught c)).tracer.traceFile.lines = w.tracer.traceFile.lines ++ [line] →
      ∃ own ∈ w.tracer.traceFile.lines, own.activation = some r.activation ∧ line.depth = own.depth + 1)

def CatchLands (b : Build) (bounds : StackBounds) (w : World) : Action → Prop
  | .caught c => ∀ r above below, CatchOver b w c r above below → OnOwnStack bounds r above →
      LandsUnderCatcher b w c r above below
  | _         => True

/-- The marks of an unwound frame whose line start is known are on its own line: the flagged field in
the place of its duration, and the mark on the glyph if the buffer held that. -/
def MarkedOnOwnLine (b : Build) (f : TraceFile) (q : FrameRecord) : Prop :=
  ∃ l ∈ f.lines, l.activation = some q.activation ∧ q.lineStart = l.start ∧
    l.start + l.text.length ≤ f.content.length ∧
    (b.logElapsed = true → ⟨q.activation, l.start + placeholderOffsetInLine,
      setDurationFlag durationUnwound frameEndException⟩ ∈ f.patches) ∧
    (1 ≤ q.depth → b.prefixWidth + treeSegmentWidth * q.depth < formatBufSize →
      ∃ g, l.glyph = some g ∧ ⟨q.activation, l.start + g, [frameEndException]⟩ ∈ f.patches)

def CatchMarks (b : Build) (bounds : StackBounds) (w : World) : Action → Prop
  | .caught c => ∀ r above below, CatchOver b w c r above below → OnOwnStack bounds r above →
      ∀ q ∈ above, q.logged = true → 0 ≤ q.lineStart →
        MarkedOnOwnLine b (w.tracer.catchLevelStep b c.level c.uncaught).traceFile q
  | _         => True

/-- The run header of the file could be built, and while the cursor is to stay valid every mark lands
inside the file. -/
def MarksInside (b : Build) (w : World) (a : Action) : Prop :=
  ∀ ev ∈ a.hook, HeaderBuilt ev ∧ MarksInFile b w.tracer ev

/-- The state of a run of out-of-line frames. -/
structure CatchStack (bounds : StackBounds) (w : World) : Prop where
  bounds_eq : w.tracer.stackBounds = bounds
  tracked : Tracked w
  depth : DepthExact w.tracer
  record : ∀ f ∈ w.live, ∀ r ∈ f.record,
    r.toFrameKey = f.key ∧ (r.logged = true → r.nameBase = some f.site.name)
  lower : w.tracer.frames.Pairwise fun upper lower => lower ∈ w.records →
    onThreadStack bounds upper.level = true → onThreadStack bounds lower.level = true →
      upper.level < lower.level

lemma Traced.watch {a : Action} (hpatching : b.linePatching = true) (h : Traced b w.tracer)
    (ha : MarksInside b w a) : Traced b (w.act b a).tracer := by
  rw [World.act_tracer, ThreadState.watch]
  cases hhook : a.hook with
  | none => exact h
  | some ev =>
    obtain ⟨hheader, hinside⟩ := ha ev hhook
    exact h.step hpatching hheader hinside

namespace CatchStack

variable {c : EventCall} {r : FrameRecord} {above below : List FrameRecord}

lemma record_act {a : Action} (h : CatchStack bounds w) (ha : CatchAction bounds w a) :
    ∀ f ∈ (w.act b a).live, ∀ r ∈ f.record,
      r.toFrameKey = f.key ∧ (r.logged = true → r.nameBase = some f.site.name) := by
  by_cases hcall : ∃ e site, a = .call e site
  · obtain ⟨e, site, rfl⟩ := hcall
    intro f hf r hr
    rcases List.mem_cons.mp hf with rfl | hrest
    · rcases call_cases b w.tracer e site with ⟨-, -, -, hframe⟩ | ⟨r', -, hr', -, -, hframe⟩
      · simp [hframe] at hr
      · rw [hframe] at hr ⊢
        obtain rfl : r' = r := by simpa using hr
        refine ⟨hr'.key_eq, fun hlogged => ?_⟩
        rw [hr'.logged_eq, Option.isSome_iff_exists] at hlogged
        obtain ⟨view, hview⟩ := hlogged
        rw [hr'.nameBase_eq, hview]
        exact congrArg some (ha.2.2 view (loggedView_eq_some.mp hview).2.2.2)
    · exact h.record f hrest r hr
  · by_cases hplain : ∃ key site, a = .callPlain key site
    · obtain ⟨key, site, rfl⟩ := hplain
      intro f hf r hr
      rcases List.mem_cons.mp hf with rfl | hrest
      · simp [Frame.plain] at hr
      · exact h.record f hrest r hr
    · obtain ⟨n, hn⟩ := liveAfter_drop (b := b) (w := w) (a := a)
        (fun e site heq => hcall ⟨e, site, heq⟩) (fun key site heq => hplain ⟨key, site, heq⟩)
      intro f hf
      rw [World.act_live, hn] at hf
      exact h.record f (List.mem_of_mem_drop hf)

lemma act {a : Action} (h : CatchStack bounds w) (ha : CatchAction bounds w a) :
    CatchStack bounds (w.act b a) where
  bounds_eq := (watch_stackBounds b w.tracer a).trans h.bounds_eq
  tracked := h.tracked.act a
  depth := by
    rw [World.act_tracer, ThreadState.watch]
    split
    · exact h.depth.step _
    · exact h.depth
  record := h.record_act ha
  lower := by
    refine h.tracked.pairwise_live_act h.lower ?_
    rintro e site r rfl hr q hq hupper hlower
    obtain ⟨f, hf, hrecord⟩ := List.mem_filterMap.mp hq
    have hkey := (h.record f hf q hrecord).1
    rw [hr.key_eq] at hupper ⊢
    rw [hkey] at hlower ⊢
    exact ha.2.1 f hf hupper hlower

lemma fresh (bounds : StackBounds) (earlier : Text) : CatchStack bounds (.fresh bounds earlier) where
  bounds_eq := rfl
  tracked := .fresh bounds earlier
  depth := depthExact_fresh bounds earlier
  record := by simp [World.fresh]
  lower := .nil

/-- The level step of the catch counts exactly the records above the catcher's. -/
lemma deadRecordsOnCatch_eq (h : CatchStack bounds w) (ha : CatchAction bounds w (.caught c))
    (hc : CatchOver b w c r above below) (hon : OnOwnStack bounds r above) :
    c.level = r.level ∧
      deadRecordsOnCatch w.tracer.frames c.level w.tracer.stackBounds = above.length := by
  obtain ⟨own, hown, hr⟩ := hc.catcher
  obtain ⟨catcher, hcatcher, hlevel, -⟩ := ha hc.caught
  obtain rfl : own = catcher := Option.mem_unique hown hcatcher
  have hlive : own ∈ w.live := List.mem_of_mem_head? hown
  have hrlevel : c.level = r.level := by rw [hlevel, ← (h.record own hlive r hr).1]
  have hrecord : r ∈ w.records := List.mem_filterMap.mpr ⟨own, hlive, hr⟩
  have hlower := h.lower
  rw [hc.frames] at hlower ⊢
  refine ⟨hrlevel, ?_⟩
  rw [deadRecordsOnCatch, h.bounds_eq, hrlevel, if_pos hon.1]
  refine Scan.length_takeWhile_append above (r :: below) (fun q hq => ?_) ?_
  · have hlt := (List.pairwise_append.mp hlower).2.2 q hq r List.mem_cons_self hrecord
      (hon.2 q hq) hon.1
    simpa [hon.2 q hq] using hlt
  · simp

/-- A logged catcher's own record stops the search for its name. -/
lemma catchDead_eq (h : CatchStack bounds w) (ha : CatchAction bounds w (.caught c))
    (hc : CatchOver b w c r above below) (hon : OnOwnStack bounds r above) (hlogged : r.logged = true) :
    w.tracer.catchDead c = above.length := by
  obtain ⟨own, hown, hr⟩ := hc.catcher
  obtain ⟨catcher, hcatcher, -, hchain⟩ := ha hc.caught
  obtain rfl : own = catcher := Option.mem_unique hown hcatcher
  obtain ⟨hlevel, hdead⟩ := h.deadRecordsOnCatch_eq ha hc hon
  have hname : r.nameBase = some own.site.name := (h.record own (List.mem_of_mem_head? hown) r hr).2 hlogged
  have hnone : inlinedDeadOnCatch (r :: below) c.level w.tracer.stackBounds (c.inlineChain.getD []) = 0 := by
    cases hlookup : c.inlineChain with
    | none => rfl
    | some chain =>
      rcases hchain chain hlookup with rfl | rfl
      · rfl
      · rw [hlevel]
        simp only [Option.getD_some, inlinedDeadOnCatch, deadRecordsAboveMatch_top hname, ite_self]
  have hnamed := hc.named
  have hcaught := hc.caught
  simp only [EventCall.named, Bool.and_eq_true, Option.isSome_iff_exists] at hnamed
  obtain ⟨⟨site, hsite⟩, typeName, htype⟩ := hnamed
  simp only [EventCall.atStub, hsite, Option.bind_some, decide_eq_false_iff_not] at hcaught
  simp only [ThreadState.catchDead, hsite, htype, if_neg hcaught, hdead]
  rw [hc.frames, List.drop_left, hnone, Nat.add_zero]

lemma landsUnderCatcher (h : CatchStack bounds w) (ha : CatchAction bounds w (.caught c))
    (hc : CatchOver b w c r above below) (hon : OnOwnStack bounds r above) :
    LandsUnderCatcher b w c r above below := by
  obtain ⟨-, hdead⟩ := h.deadRecordsOnCatch_eq ha hc hon
  have hnewest := h.tracked.newest
  rw [hc.frames] at hnewest
  refine ⟨?_, fun q hq => ⟨?_, ?_⟩, ?_, fun hlogged line hline => ?_⟩
  · rw [catchLevelStep_eq, hdead, popped_frames, hc.frames, List.drop_left]
  · exact (List.pairwise_append.mp hnewest).2.2 q hq r List.mem_cons_self
  · obtain ⟨own, hown, hr⟩ := hc.catcher
    obtain ⟨outer, hlive⟩ : ∃ outer, w.live = own :: outer := List.head?_eq_some_iff.mp hown
    exact h.tracked.notMem_records_of_above hlive hr hc.frames hq
  · rw [catchLevelStep_eq, hdead, ThreadState.popped, hc.frames, List.take_left]
  · have hcatch := h.catchDead_eq ha hc hon hlogged
    have hpopped := h.depth.pop (b := b) frameEndException above.length
    have hframes : (w.tracer.popped b frameEndException above.length).frames = r :: below := by
      rw [popped_frames, hc.frames, List.drop_left]
    obtain ⟨own, hown, howner, hdepth⟩ := hpopped.lines [] r below hframes hlogged
    rw [popped_lines] at hown
    refine ⟨own, hown, howner, ?_⟩
    have hcaught : (w.act b (.caught c)).tracer = (w.tracer.onCatch b c).1 := by
      simp [ThreadState.watch, Action.hook, hookStep, hc.exceptions]
    have hstep := catchStep b c w.tracer
    rw [hcaught] at hline
    generalize (w.tracer.onCatch b c).1 = s' at hline hstep
    cases hstep with
    | popped hquiet =>
      rw [popped_lines] at hline
      exact absurd hline (by simp)
    | written hnamed hreads hwritten =>
      rw [hcatch] at hwritten
      rw [← popped_lines w.tracer b frameEndException above.length] at hline
      rw [hwritten.depth_eq hline, hpopped.depth, hframes, loggedCount_cons, hlogged, hdepth]
      rfl

/-- The patches of a popped record go to its own line. -/
lemma catchMarks (h : CatchStack bounds w) (htraced : Traced b w.tracer)
    (ha : CatchAction bounds w (.caught c)) (hc : CatchOver b w c r above below)
    (hon : OnOwnStack bounds r above) {q : FrameRecord} (hq : q ∈ above) (hlogged : q.logged = true)
    (hplaced : 0 ≤ q.lineStart) :
    MarkedOnOwnLine b (w.tracer.catchLevelStep b c.level c.uncaught).traceFile q := by
  obtain ⟨-, -, hfile, -⟩ := h.landsUnderCatcher ha hc hon
  have hframe : q ∈ w.tracer.frames := by
    rw [hc.frames]
    exact List.mem_append_left _ hq
  obtain ⟨l, hl, hown, -, hinside⟩ := htraced.own hframe hplaced
  have hfd : w.tracer.traceFile.patchFd = true := by
    rcases htraced.patchable q hframe with hneg | hfd
    · exact absurd hplaced (by simp [hneg])
    · exact hfd
  have hpatch : ∀ p ∈ framePatches b q frameEndException (unwoundField b frameEndException),
      p ∈ (w.tracer.catchLevelStep b c.level c.uncaught).traceFile.patches := by
    intro p hp
    rw [hfile, markAll_eq]
    simp only [TraceFile.patchAll, hfd, Bool.true_eq_false, if_false]
    refine List.mem_append_right _ (List.mem_flatMap.mpr ⟨q, hq, ?_⟩)
    rwa [deadPatches, if_pos hc.exceptions]
  have hstart : ¬ q.lineStart < 0 := Int.not_lt.mpr hplaced
  have hoffset : q.lineStart.toNat = l.start := by simp [hown.start]
  have hgrows := le_length_patchAll w.tracer.traceFile (above.flatMap (deadPatches b frameEndException))
  rw [← markAll_eq, ← hfile] at hgrows
  refine ⟨l, ?_, hown.owner, hown.start, Nat.le_trans hinside hgrows, fun helapsed => hpatch _ ?_,
    fun hdepth hfits => ?_⟩
  · rw [hfile, (patchedTo_markAll _ _ _ _).lines_eq]
    exact hl
  · simp [framePatches, hlogged, fieldPatches, unwoundField, helapsed, linePatch, hstart, hoffset]
  · obtain ⟨l', hl', hown', -, hglyph, -⟩ := htraced.glyph_of_fits hframe hplaced hdepth
    obtain rfl := htraced.unique hl hl' hown.owner hown'.owner
    refine ⟨_, hglyph.mpr hfits, hpatch _ ?_⟩
    simp [framePatches, hlogged, markPatches, hdepth, linePatch, hstart, hoffset]

end CatchStack

/-- A catch in a frame of the thread's own stack lands under its catcher, and as long as the marks of
the run stay inside the file, those of the popped frames are on their own lines. -/
theorem catch_lands_under_catcher (b : Build) (bounds : StackBounds) (earlier : Text)
    (acts : List Action) (hacts : AllSteps (World.act b) (CatchAction bounds) (.fresh bounds earlier) acts) :
    AllSteps (World.act b) (CatchLands b bounds) (.fresh bounds earlier) acts ∧
      (AllSteps (World.act b) (MarksInside b) (.fresh bounds earlier) acts →
        AllSteps (World.act b) (CatchMarks b bounds) (.fresh bounds earlier) acts) := by
  constructor
  · refine allSteps_of_invariant (I := CatchStack bounds) (fun _ _ h ha => h.act ha) ?_
      (CatchStack.fresh bounds earlier) hacts
    intro w a h ha
    cases a with
    | caught c => exact fun r above below hc hon => h.landsUnderCatcher ha hc hon
    | _ => trivial
  · intro hmarks
    by_cases hexceptions : b.logExceptions = true
    · have hpatching : b.linePatching = true := by simp [Build.linePatching, hexceptions]
      refine allSteps_of_invariant (I := fun w => CatchStack bounds w ∧ Traced b w.tracer) ?_ ?_
        ⟨CatchStack.fresh bounds earlier, traced_fresh b bounds earlier⟩ (allSteps_and.mpr ⟨hacts, hmarks⟩)
      · rintro w a ⟨h, htraced⟩ ⟨ha, hinside⟩
        exact ⟨h.act ha, htraced.watch hpatching hinside⟩
      · rintro w a ⟨h, htraced⟩ ⟨ha, -⟩
        cases a with
        | caught c =>
          exact fun r above below hc hon q hq hlogged hplaced =>
            h.catchMarks htraced ha hc hon hq hlogged hplaced
        | _ => trivial
    · refine allSteps_of_forall fun w a => ?_
      cases a with
      | caught c => exact fun r above below hc => absurd hc.exceptions hexceptions
      | _ => trivial

/-- `main` calls `run`, which throws; the handler is in `main`. -/
def runThrows (main : Resolution) : List Action :=
  [.call (.plain ⟨1, 10, 1000⟩ ["main".toList] main) ⟨2048, 1000, "main".toList, false⟩,
   .call (.plain ⟨2, 11, 900⟩ ["run".toList] (.named "run".toList (some "main".toList)))
    ⟨1000, 900, "run".toList, false⟩,
   .jump 1,
   .caught (.plain 1000 ["main".toList])]

lemma runThrows_catchAction (b : Build) (bounds : StackBounds) (earlier : Text) {main : Resolution}
    (hmain : ∀ view, main = .found view → view.calleeBaseName = "main".toList) :
    AllSteps (World.act b) (CatchAction bounds) (.fresh bounds earlier) (runThrows main) := by
  refine ⟨⟨rfl, ?_, ?_⟩, ⟨rfl, ?_, ?_⟩, trivial, fun _ => ⟨_, rfl, rfl, ?_⟩, trivial⟩
  · simp [RunsBelow, World.fresh]
  · exact hmain
  · intro f hf _ _
    obtain rfl := List.mem_singleton.mp hf
    show (900 : Nat) < 1000
    decide
  · simp [EnterCall.plain, Resolution.named]
  · simp [EventCall.plain, Frame.hooked]

lemma runThrows_marksInside :
    AllSteps (World.act ⟨true, false, false⟩) (MarksInside ⟨true, false, false⟩)
      (.fresh ⟨16, 4096, true⟩ []) (runThrows (.named "main".toList none)) := by
  have hinside : ∀ (w : World) (a : Action) (ev : HookEvent), a.hook = some ev →
      ev.fpReply = some .ready → MarksInFile ⟨true, false, false⟩ w.tracer ev →
      MarksInside ⟨true, false, false⟩ w a := by
    intro w a ev hhook hreply hmarks ev' hev'
    obtain rfl := Option.mem_unique hhook hev'
    refine ⟨fun r hr => ?_, hmarks⟩
    obtain rfl := Option.mem_unique hreply hr
    rfl
  refine ⟨hinside _ _ _ rfl rfl ?_, hinside _ _ _ rfl rfl ?_, ?_, hinside _ _ _ rfl rfl ?_, trivial⟩
  · unfold MarksInFile
    decide
  · unfold MarksInFile
    decide +kernel
  · simp [MarksInside, Action.hook]
  · unfold MarksInFile
    decide +kernel

theorem catch_lands_under_main :
    AllSteps (World.act ⟨true, false, false⟩) (CatchLands ⟨true, false, false⟩ ⟨16, 4096, true⟩)
        (.fresh ⟨16, 4096, true⟩ []) (runThrows (.named "main".toList none)) ∧
      AllSteps (World.act ⟨true, false, false⟩) (CatchMarks ⟨true, false, false⟩ ⟨16, 4096, true⟩)
        (.fresh ⟨16, 4096, true⟩ []) (runThrows (.named "main".toList none)) :=
  (catch_lands_under_catcher _ _ _ _ (runThrows_catchAction _ _ _ (by simp [Resolution.named]))).imp_right
    fun hmarks => hmarks runThrows_marksInside

/-- Whatever the stack it runs on, a catcher takes every record above its own off the stack, and each
logged one is marked. -/
def CatchMarksAll (b : Build) (w : World) : Action → Prop
  | .caught c => ∀ r above below, CatchOver b w c r above below →
      (w.tracer.catchLevelStep b c.level c.uncaught).frames = r :: below ∧
      ∀ q ∈ above, q.logged = true →
        ∃ p ∈ (w.tracer.catchLevelStep b c.level c.uncaught).traceFile.patches,
          p.activation = q.activation
  | _         => True

/-- A line at depth 0 has no glyph to mark, and off the thread's own stack levels say nothing. -/
theorem catch_marks_not_all :
    (AllSteps (World.act ⟨true, false, false⟩) (CatchAction ⟨16, 4096, true⟩)
        (.fresh ⟨16, 4096, true⟩ []) (runThrows .filtered) ∧
      ¬ AllSteps (World.act ⟨true, false, false⟩) (CatchMarksAll ⟨true, false, false⟩)
        (.fresh ⟨16, 4096, true⟩ []) (runThrows .filtered)) ∧
    (AllSteps (World.act ⟨true, false, false⟩) (CatchAction ⟨16, 512, true⟩)
        (.fresh ⟨16, 512, true⟩ []) (runThrows (.named "main".toList none)) ∧
      ¬ AllSteps (World.act ⟨true, false, false⟩) (CatchMarksAll ⟨true, false, false⟩)
        (.fresh ⟨16, 512, true⟩ []) (runThrows (.named "main".toList none))) := by
  refine ⟨⟨runThrows_catchAction _ _ _ (by simp), ?_⟩,
    ⟨runThrows_catchAction _ _ _ (by simp [Resolution.named]), ?_⟩⟩
  · rintro ⟨-, -, -, hcaught, -⟩
    obtain ⟨-, hmarked⟩ := hcaught _ [_] [] ⟨rfl, by decide, by decide, ⟨_, rfl, rfl⟩, rfl⟩
    obtain ⟨p, hp, -⟩ := hmarked _ List.mem_cons_self rfl
    exact absurd (List.length_pos_of_mem hp) (by decide +kernel)
  · rintro ⟨-, -, -, hcaught, -⟩
    obtain ⟨hframes, -⟩ := hcaught _ [_] [] ⟨rfl, by decide, by decide, ⟨_, rfl, rfl⟩, rfl⟩
    exact absurd (congrArg List.length hframes) (by decide)

end CallStackLogger
