import CallStackLogger.Trace.Opening

/-!
# In-place patching

A trace file is what was written to it, line after line, up to the bytes the patches were meant
for: the duration field of a logged frame's line, and the `'|'` of its own glyph. Two things spoil it.
A line whose tree filled the buffer has no glyph, and its mark lands on another byte. And a file that
was opened without its header has its cursor at 0 whatever it held, so that every patch lands that many
bytes in front of its line. `patched_in_place_iff` is the exact condition.
-/

namespace CallStackLogger

open Run Overwrite

variable {b : Build} {s s' : ThreadState} {ev : HookEvent}

/-- The bytes of a line that may be rewritten later. -/
def Patchable (b : Build) (l : Line) (i : Nat) : Prop :=
  l.activation.isSome = true ∧
    ((b.logElapsed = true ∧ l.start + placeholderOffsetInLine ≤ i ∧
        i < l.start + placeholderOffsetInLine + durationFieldWidth) ∨
      ∃ g, l.glyph = some g ∧ i = l.start + g)

/-- The file as it was written. -/
def TraceFile.written (f : TraceFile) : Text := f.preamble ++ f.lines.flatMap (·.text)

structure PatchedInPlace (b : Build) (f : TraceFile) : Prop where
  agree : AgreeOff (fun i => ∃ l ∈ f.lines, Patchable b l i) f.content f.written
  starts : ∀ pre l post, f.lines = pre ++ l :: post →
    l.start = f.preamble.length + (pre.flatMap (·.text)).length
  glyph : ∀ l ∈ f.lines, l.activation.isSome = true → ∀ g, l.glyph = some g →
    ∃ before after, l.text = before ++ callGlyph ++ after ∧ before.length = g
  owned : ∀ p ∈ f.patches, ∃ l ∈ f.lines, l.activation = some p.activation ∧
    p.stop ≤ l.start + l.text.length ∧ ∀ i, p.offset ≤ i → i < p.stop → Patchable b l i

/-- The patches go to patchable bytes of the lines of their own frames, inside the file. -/
def OwnPatches (b : Build) (f : TraceFile) (ps : List Patch) : Prop :=
  ∀ p ∈ ps, ∃ l ∈ f.lines, l.activation = some p.activation ∧ p.stop ≤ l.start + l.text.length ∧
    l.start + l.text.length ≤ f.content.length ∧ ∀ i, p.offset ≤ i → i < p.stop → Patchable b l i

/-- Every line the step marks has its glyph. -/
def MarksHaveGlyphs (b : Build) (s : ThreadState) (ev : HookEvent) : Prop :=
  ∀ r ∈ s.markedRecords b ev, 0 ≤ r.lineStart → 1 ≤ r.depth →
    b.prefixWidth + treeSegmentWidth * r.depth < formatBufSize

/-- The step rewrites no line: it marks no nested one, and in a `LOG_ELAPSED` build it ends no logged
frame. -/
structure RewritesNothing (b : Build) (s : ThreadState) (ev : HookEvent) : Prop where
  noField : b.logElapsed = true → ∀ r ∈ s.endedRecords ev, r.logged = true → r.lineStart < 0
  noMark : ∀ r ∈ s.markedRecords b ev, 0 ≤ r.lineStart → r.depth < 1

/-- Whether the event leaves a file open without its header although the file had content. -/
def ThreadState.opensBehind (s : ThreadState) (b : Build) (ev : HookEvent) : Bool :=
  s.opensHeadless b ev && !s.traceFile.content.isEmpty

/-- A step of a thread that remembers whether its file was opened behind earlier content. -/
def openStep (b : Build) (p : ThreadState × Bool) (ev : HookEvent) : ThreadState × Bool :=
  (hookStep b p.1 ev, p.2 || p.1.opensBehind b ev)

@[simp] lemma openStep_fst (b : Build) (p : ThreadState × Bool) (ev : HookEvent) :
    (openStep b p ev).1 = hookStep b p.1 ev := rfl

/-- No file is opened behind earlier content when every header is built. -/
lemma exec_openStep {evs : List HookEvent} (hheaders : ∀ ev ∈ evs, HeaderBuilt ev) (s : ThreadState) :
    exec (openStep b) (s, false) evs = (exec (hookStep b) s evs, false) := by
  induction evs generalizing s with
  | nil => rfl
  | cons ev evs ih =>
    have hheader := hheaders ev List.mem_cons_self
    have hstep : openStep b (s, false) ev = (hookStep b s ev, false) := by
      simp [openStep, ThreadState.opensBehind, hheader.opensHeadless]
    rw [exec_cons, exec_cons, hstep]
    exact ih (fun ev' hev' => hheaders ev' (List.mem_cons_of_mem ev hev')) _

/-- As long as there is a descriptor to patch through, the step rewrites nothing of a file that was
opened behind earlier content, and in any other file every line it marks has its glyph. -/
def PatchesStay (b : Build) (p : ThreadState × Bool) (ev : HookEvent) : Prop :=
  p.1.traceFile.patchFd = true →
    (p.2 = true → RewritesNothing b p.1 ev) ∧ (p.2 = false → MarksHaveGlyphs b p.1 ev)

/-- The duration field stands in front of the tree. -/
lemma field_le_prefixWidth (helapsed : b.logElapsed = true) :
    placeholderOffsetInLine + durationFieldWidth ≤ b.prefixWidth := by
  simp only [Build.prefixWidth, Build.linePrefixExtra, helapsed, if_true, placeholderOffsetInLine,
    timestampPrefixWidth]
  omega

/-- The glyph of a call's line stands in the column its depth gives. -/
lemma CallLayout.glyph_eq {l : Line} {g : Nat} (h : CallLayout b l) (hg : l.glyph = some g) :
    g = treeGlyphOffset l.depth b.linePrefixExtra := by
  obtain ⟨linePre, hwidth, hlayout⟩ := h
  rw [hlayout.glyph_eq, hwidth] at hg
  split_ifs at hg
  exact (Option.some.inj hg).symm

/-- The line of a marked record with a glyph has it in the column the mark goes to. -/
lemma Tied.glyph_of_fits {r : FrameRecord} (h : Tied b s) (hr : r ∈ s.frames)
    (hplaced : 0 ≤ r.lineStart) (hdepth : 1 ≤ r.depth) :
    ∃ l ∈ s.traceFile.lines, OwnLine r l ∧ l.start + l.text.length ≤ s.traceFile.content.length ∧
      (l.glyph = some (treeGlyphOffset r.depth b.linePrefixExtra) ↔
        b.prefixWidth + treeSegmentWidth * r.depth < formatBufSize) ∧
      ∀ g, l.glyph = some g → ∃ before after, l.text = before ++ callGlyph ++ after ∧ before.length = g := by
  obtain ⟨l, hl, hown, ⟨linePre, hwidth, hlayout⟩, hinside⟩ := h.own hr hplaced
  refine ⟨l, hl, hown, hinside, ?_, hlayout.glyph_bytes⟩
  rw [hlayout.glyph_eq, hwidth, ← hown.depth]
  constructor
  · intro hsome
    by_contra hfits
    rw [if_neg fun hcol => hfits hcol.2] at hsome
    exact absurd hsome (by simp)
  · intro hfits
    rw [if_pos ⟨hdepth, hfits⟩]
    rfl

/-! ### Where the patches of a step go -/

/-- The patches of a step whose marks have their glyphs stay on the patchable bytes of their own
lines. -/
lemma Tied.ownPatches (h : Tied b s) (hglyphs : MarksHaveGlyphs b s ev) :
    OwnPatches b s.traceFile (s.stepPatches b ev) := by
  intro p hp
  rcases stepPatches_cases hp with ⟨r, hr, hfield⟩ | ⟨r, hr, hmark⟩
  · obtain ⟨l, hl, hown, ⟨linePre, hwidth, hlayout⟩, hinside⟩ := h.own (mem_frames_of_mem_endedRecords hr) hfield.placed
    obtain ⟨rest, -, htext⟩ := hlayout.starts
    have hprefix := field_le_prefixWidth hfield.elapsed
    have hlength : l.text.length = b.prefixWidth + rest.length := by
      rw [htext, List.length_append, hwidth]
    have hstart := hown.start
    have hoffset := hfield.offset
    have hbytes := hfield.length
    refine ⟨l, hl, by rw [hown.owner, hfield.owner], ?_, hinside, fun i hle hlt => ?_⟩
    · rw [Patch.stop]
      omega
    · rw [Patch.stop] at hlt
      exact ⟨by simp [hown.owner], .inl ⟨hfield.elapsed, by omega, by omega⟩⟩
  · obtain ⟨l, hl, hown, hinside, hfits, hbytes⟩ :=
      h.glyph_of_fits (mem_frames_of_mem_markedRecords hr) hmark.placed hmark.deep
    have hglyph := hfits.mpr (hglyphs r hr hmark.placed hmark.deep)
    obtain ⟨before, after, htext, hbefore⟩ := hbytes _ hglyph
    have hlength : l.text.length = before.length + (callGlyph.length + after.length) := by
      rw [htext, List.append_assoc, List.length_append, List.length_append]
    have hglyphLength : callGlyph.length = 3 := rfl
    have hstart := hown.start
    have hoffset := hmark.offset
    have hbytes := hmark.length
    refine ⟨l, hl, by rw [hown.owner, hmark.owner], ?_, hinside, fun i hle hlt => ?_⟩
    · rw [Patch.stop]
      omega
    · rw [Patch.stop] at hlt
      exact ⟨by simp [hown.owner], .inr ⟨_, hglyph, by omega⟩⟩

/-- Marks that go to their own glyphs land inside the file. -/
lemma Tied.marksInFile_of_glyphs (h : Tied b s) (hglyphs : MarksHaveGlyphs b s ev) :
    MarksInFile b s ev := by
  intro _ _ _
  refine h.patches_inside_iff.mp fun p hp => ?_
  obtain ⟨l, -, -, hstop, hinside, -⟩ := h.ownPatches hglyphs p hp
  exact Nat.le_trans hstop hinside

/-- A step that rewrites nothing leaves no patches. -/
lemma RewritesNothing.stepPatches_eq_nil (h : RewritesNothing b s ev) : s.stepPatches b ev = [] := by
  rw [List.eq_nil_iff_forall_not_mem]
  intro p hp
  rcases stepPatches_cases hp with ⟨r, hr, hfield⟩ | ⟨r, hr, hmark⟩
  · have hneg := h.noField hfield.elapsed r hr hfield.logged
    have hplaced := hfield.placed
    omega
  · have hroot := h.noMark r hr hmark.placed
    have hdeep := hmark.deep
    omega

/-! ### Each part of a step leaves the rest of the file alone -/

variable {f f' : TraceFile} {cursor cursor' : Nat} {valid valid' headless : Bool}

lemma PatchedInPlace.stream (h : PatchedInPlace b f) (hlines : f.openAttempted = false → f.lines = [])
    (hstream : StreamStep headless f cursor valid f' cursor' valid') : PatchedInPlace b f' := by
  cases hstream with
  | same => exact h
  | headless _ _ _ => exact ⟨h.agree, h.starts, h.glyph, h.owned⟩
  | opened header _ hfirst hattempted hcontent hpreamble hsame hpatches _ _ =>
    have hnone := hlines hfirst
    have hagree := h.agree
    simp only [TraceFile.written, hnone, List.flatMap_nil, List.append_nil] at hagree
    refine ⟨?_, by simp [hsame, hnone], by simp [hsame, hnone], ?_⟩
    · rw [hsame, hnone, hcontent, TraceFile.written, hsame, hnone, hpreamble, List.flatMap_nil,
        List.append_nil]
      exact hagree.append _
    · rw [hpatches, hsame]
      exact h.owned

lemma PatchedInPlace.patched {ps : List Patch} (h : PatchedInPlace b f)
    (hps : f.patchFd = true → OwnPatches b f ps) : PatchedInPlace b (f.patchAll ps) := by
  rw [TraceFile.patchAll]
  split_ifs with hfd
  · exact h
  · have hps := hps (by simpa using hfd)
    refine ⟨?_, h.starts, h.glyph, ?_⟩
    · refine h.agree.overwriteAll '\x00' ?_ ?_
      · intro w hw
        obtain ⟨p, hp, rfl⟩ := List.mem_map.mp hw
        obtain ⟨l, -, -, hstop, hinside, -⟩ := hps p hp
        exact Nat.le_trans hstop hinside
      · intro w hw i hle hlt
        obtain ⟨p, hp, rfl⟩ := List.mem_map.mp hw
        obtain ⟨l, hl, -, -, -, hzone⟩ := hps p hp
        exact ⟨l, hl, hzone i hle hlt⟩
    · intro p hp
      rcases List.mem_append.mp hp with hp | hp
      · exact h.owned p hp
      · obtain ⟨l, hl, howner, hstop, -, hzone⟩ := hps p hp
        exact ⟨l, hl, howner, hstop, hzone⟩

lemma PatchedInPlace.writeLine {line : Option Line} (h : PatchedInPlace b f)
    (hwhole : ∀ l ∈ line, l.short = none)
    (hglyph : ∀ l ∈ line, l.activation.isSome = true → ∀ g, l.glyph = some g →
      ∃ before after, l.text = before ++ callGlyph ++ after ∧ before.length = g) :
    PatchedInPlace b (f.writeLine line) := by
  cases line with
  | none => exact h
  | some l =>
    have hshort := hwhole l rfl
    have hlines : (f.fwrite l).lines = f.lines ++ [{ l with start := f.content.length }] := rfl
    have hcontent : (f.fwrite l).content = f.content ++ l.text := by simp [TraceFile.fwrite, hshort]
    refine ⟨?_, ?_, ?_, ?_⟩
    · rw [TraceFile.writeLine, hcontent, TraceFile.written, hlines, List.flatMap_append]
      have hmore := (h.agree.append l.text).mono (W := fun i => ∃ l' ∈ (f.fwrite l).lines,
        Patchable b l' i) (fun i hi => hi.imp fun l' hl' => ⟨List.mem_append_left _ hl'.1, hl'.2⟩)
      simpa [TraceFile.written, hlines, TraceFile.fwrite] using hmore
    · intro pre x post hsplit
      rw [TraceFile.writeLine, hlines] at hsplit
      rcases List.eq_nil_or_concat post with rfl | ⟨post', last, rfl⟩
      · obtain ⟨rfl, hx⟩ := List.append_inj' hsplit rfl
        obtain rfl := (List.cons.inj hx).1
        have hlength := h.agree.1
        rw [TraceFile.written, List.length_append] at hlength
        exact hlength
      · rw [List.concat_eq_append, ← List.cons_append, ← List.append_assoc] at hsplit
        exact h.starts pre x post' (List.append_inj' hsplit rfl).1
    · intro x hx howner g hg
      rcases List.mem_append.mp hx with hx | hx
      · exact h.glyph x hx howner g hg
      · obtain rfl := List.mem_singleton.mp hx
        exact hglyph l rfl howner g hg
    · intro p hp
      obtain ⟨x, hx, hrest⟩ := h.owned p hp
      exact ⟨x, List.mem_append_left _ hx, hrest⟩

/-! ### One step -/

/-- The file stays in place through a step whose patches go to their own lines. -/
lemma PatchedInPlace.step (hpatching : b.linePatching = true) (h : PatchedInPlace b s.traceFile)
    (hunplaced : Unplaced s) (hwhole : ev.written = none)
    (hfirst : s.traceFile.openAttempted = false → s.traceFile.lines = [] ∧ s.stepPatches b ev = [])
    (hps : s.traceFile.patchFd = true → OwnPatches b s.traceFile (s.stepPatches b ev)) :
    PatchedInPlace b (hookStep b s ev).traceFile := by
  obtain ⟨f, cursor, valid, line, hstream, heffect⟩ := step_effect hpatching ev hunplaced
  have hpatched : PatchedInPlace b (f.patchAll (s.stepPatches b ev)) := by
    refine (h.stream (fun hfirst' => (hfirst hfirst').1) hstream).patched fun hfd => ?_
    cases hstream with
    | same => exact hps hfd
    | headless _ _ hfirst' => simp [OwnPatches, (hfirst hfirst').2]
    | opened _ _ hfirst' => simp [OwnPatches, (hfirst hfirst').2]
  rw [heffect.file_eq]
  refine hpatched.writeLine (fun l hl => (heffect.short_eq l hl).trans hwhole) fun l hl howner g hg => ?_
  obtain ⟨a, ha⟩ := Option.isSome_iff_exists.mp howner
  obtain ⟨-, -, linePre, -, hlayout⟩ := heffect.owner l hl a ha
  exact hlayout.glyph_bytes g hg

/-- When the file is in place after a step, each patch of the step went to a line that stood there
before. -/
lemma Numbered.patch_owned (hpatching : b.linePatching = true) (h : Numbered b s)
    (hattempted : s.traceFile.openAttempted = true) (hfd : s.traceFile.patchFd = true)
    (hinPlace : PatchedInPlace b (hookStep b s ev).traceFile) {p : Patch} (hp : p ∈ s.stepPatches b ev)
    {r : FrameRecord} (hr : r ∈ s.frames) (howner : p.activation = r.activation) :
    ∃ l ∈ s.traceFile.lines, l.activation = some r.activation ∧
      ∀ i, p.offset ≤ i → i < p.stop → Patchable b l i := by
  obtain ⟨f, cursor, valid, line, hstream, heffect⟩ :=
    step_effect hpatching ev (fun hfirst => absurd (hattempted.symm.trans hfirst) (by simp))
  cases hstream with
  | headless _ _ hfirst => exact absurd (hattempted.symm.trans hfirst) (by simp)
  | opened _ _ hfirst => exact absurd (hattempted.symm.trans hfirst) (by simp)
  | same =>
    have hpatches : (s.traceFile.patchAll (s.stepPatches b ev)).patches =
        s.traceFile.patches ++ s.stepPatches b ev := by simp [TraceFile.patchAll, hfd]
    have hlines := (patchedTo_patchAll s.traceFile (s.stepPatches b ev)).lines_eq
    have hp' : p ∈ (hookStep b s ev).traceFile.patches := by
      rw [heffect.file_eq]
      cases line with
      | none => exact hpatches ▸ List.mem_append_right _ hp
      | some new => exact hpatches ▸ List.mem_append_right _ hp
    obtain ⟨l, hl, howner', -, hzone⟩ := hinPlace.owned p hp'
    rw [howner] at howner'
    refine ⟨l, ?_, howner', hzone⟩
    rw [heffect.file_eq] at hl
    cases line with
    | none => exact hlines ▸ hl
    | some new =>
      rcases List.mem_append.mp hl with hl | hl
      · exact hlines ▸ hl
      · obtain rfl := List.mem_singleton.mp hl
        obtain ⟨hnew, -⟩ := heffect.owner new rfl r.activation howner'
        exact absurd (h.frames_lt r hr) (by omega)

/-! ### A file whose cursor is at its end -/

/-- When the file is in place after a step, every line the step marked had its glyph. -/
lemma Tied.marksHaveGlyphs (hpatching : b.linePatching = true) (h : Tied b s)
    (hfd : s.traceFile.patchFd = true) (hinPlace : PatchedInPlace b (hookStep b s ev).traceFile) :
    MarksHaveGlyphs b s ev := by
  intro r hr hplaced hdepth
  have hframe := mem_frames_of_mem_markedRecords hr
  obtain ⟨l, hl, hown, -, hfits, -⟩ := h.glyph_of_fits hframe hplaced hdepth
  obtain ⟨p, hp, hmark⟩ := exists_markPatch hr hplaced hdepth
  have hattempted : s.traceFile.openAttempted = true := by
    by_contra hfirst
    rw [h.closed (h.unopened (by simpa using hfirst))] at hl
    simp at hl
  obtain ⟨l', hl', howner', hzone⟩ :=
    h.toNumbered.patch_owned hpatching hattempted hfd hinPlace hp hframe hmark.owner
  obtain rfl := h.unique hl hl' hown.owner howner'
  have hstart := hown.start
  have hoffset := hmark.offset
  have hstop : p.offset < p.stop := by
    rw [Patch.stop, hmark.length]
    omega
  rcases (hzone p.offset (Nat.le_refl _) hstop).2 with ⟨helapsed, -, hlt⟩ | ⟨g, hg, hat⟩
  · have hprefix := field_le_prefixWidth helapsed
    have hcolumn : treeGlyphOffset r.depth b.linePrefixExtra =
        b.prefixWidth + treeSegmentWidth * (r.depth - 1).toNat := rfl
    omega
  · have hcolumn : g = treeGlyphOffset r.depth b.linePrefixExtra := by omega
    rw [hcolumn] at hg
    exact hfits.mp hg

/-! ### A file that was opened behind earlier content -/

/-- The cursor and the line starts are `gap` bytes short. -/
structure Behind (b : Build) (gap : Nat) (s : ThreadState) : Prop extends Numbered b s where
  attempted : s.traceFile.openAttempted = true
  short : s.cursor + gap = s.traceFile.content.length
  placed : ∀ r ∈ s.frames, 0 ≤ r.lineStart → ∃ l ∈ s.traceFile.lines,
    l.activation = some r.activation ∧ r.lineStart + gap = l.start ∧ r.depth = l.depth

/-- The step that opens the file leaves the cursor at 0. -/
lemma Tied.behind (hpatching : b.linePatching = true) (h : Tied b s)
    (hopens : s.opensBehind b ev = true) :
    0 < s.traceFile.content.length ∧ Behind b s.traceFile.content.length (hookStep b s ev) := by
  obtain ⟨hheadless, hcontent⟩ := Bool.and_eq_true_iff.mp hopens
  refine ⟨List.length_pos_iff.mpr (by simpa using hcontent), ?_⟩
  obtain ⟨f, cursor, valid, line, hstream, heffect⟩ := step_effect hpatching ev h.unplaced
  have hnone : line = none := by
    have hquiet := heffect.isSome_eq
    rw [writesLine_of_opensHeadless hheadless] at hquiet
    simpa using hquiet
  subst hnone
  cases hstream with
  | same hheader => exact absurd (hheadless.symm.trans hheader) (by simp)
  | opened _ hheader => exact absurd (hheadless.symm.trans hheader) (by simp)
  | headless patchFd _ hfirst =>
    have hunpatched : s.stepPatches b ev = [] := h.stepPatches_of_unopened hfirst
    have hfile := heffect.file_eq
    rw [hunpatched, patchAll_nil, TraceFile.writeLine] at hfile
    refine ⟨Numbered.effect ?_ heffect, by rw [hfile], ?_, ?_⟩
    · rw [ThreadState.patchedState, hunpatched, patchAll_nil]
      exact { h.toNumbered with }
    · rw [hfile, heffect.cursor_eq, (h.unread hfirst).1]
      exact Nat.zero_add _
    · intro r hr hplaced
      rcases heffect.records r hr with hold | ⟨-, -, hneg | ⟨-, l, hl, -⟩⟩
      · have hneg := h.unplaced hfirst r hold
        omega
      · omega
      · simp at hl

/-- As long as nothing is rewritten, it stays that far behind. -/
lemma Behind.step {gap : Nat} (hpatching : b.linePatching = true) (h : Behind b gap s)
    (hwhole : ev.written = none)
    (hquiet : s.traceFile.patchAll (s.stepPatches b ev) = s.traceFile) :
    Behind b gap (hookStep b s ev) := by
  obtain ⟨f, cursor, valid, line, hstream, heffect⟩ :=
    step_effect hpatching ev (fun hfirst => absurd (h.attempted.symm.trans hfirst) (by simp))
  cases hstream with
  | headless _ _ hfirst => exact absurd (h.attempted.symm.trans hfirst) (by simp)
  | opened _ _ hfirst => exact absurd (h.attempted.symm.trans hfirst) (by simp)
  | same =>
    have hnumbered : Numbered b (hookStep b s ev) := by
      refine Numbered.effect ?_ heffect
      rw [ThreadState.patchedState, hquiet]
      exact { h.toNumbered with }
    have hfile := heffect.file_eq
    have hcursor := heffect.cursor_eq
    rw [hquiet] at hfile
    have hshort := h.short
    cases line with
    | none =>
      rw [TraceFile.writeLine] at hfile
      refine ⟨hnumbered, hfile ▸ h.attempted, ?_, ?_⟩
      · rw [hfile, hcursor]
        exact hshort
      · intro r hr hplaced
        rw [hfile]
        rcases heffect.records r hr with hold | ⟨-, -, hneg | ⟨-, l, hl, -⟩⟩
        · exact h.placed r hold hplaced
        · omega
        · simp at hl
    | some new =>
      have hnew : new.short = none := (heffect.short_eq new rfl).trans hwhole
      have hlines : (hookStep b s ev).traceFile.lines =
          s.traceFile.lines ++ [{ new with start := s.traceFile.content.length }] := by rw [hfile]; rfl
      refine ⟨hnumbered, by rw [hfile]; exact h.attempted, ?_, ?_⟩
      · rw [hfile, hcursor]
        simp only [cursorShift, hnew, Option.isNone_none, if_true, TraceFile.writeLine, TraceFile.fwrite,
          List.length_append]
        omega
      · intro r hr hplaced
        rw [hlines]
        rcases heffect.records r hr with hold | ⟨-, -, hneg | ⟨-, l, hl, hmine, hstart, hdepth, -⟩⟩
        · obtain ⟨l, hl, hrest⟩ := h.placed r hold hplaced
          exact ⟨l, List.mem_append_left _ hl, hrest⟩
        · omega
        · obtain rfl := Option.mem_some_iff.mp hl
          refine ⟨_, List.mem_append_right _ List.mem_cons_self, hmine, ?_, hdepth⟩
          rw [hstart]
          simp only
          omega

/-- When the file is in place after a step, the step rewrote nothing. -/
lemma Behind.rewritesNothing {gap : Nat} (hexceptions : b.logExceptions = true) (h : Behind b gap s)
    (hgap : 0 < gap) (hfd : s.traceFile.patchFd = true)
    (hinPlace : PatchedInPlace b (hookStep b s ev).traceFile) : RewritesNothing b s ev := by
  have hpatching : b.linePatching = true := by simp [Build.linePatching, hexceptions]
  have howned : ∀ p ∈ s.stepPatches b ev, ∀ r ∈ s.frames, p.activation = r.activation →
      0 ≤ r.lineStart → 0 < p.bytes.length → ∃ l, CallLayout b l ∧ r.lineStart + gap = l.start ∧
        r.depth = l.depth ∧ Patchable b l p.offset := by
    intro p hp r hr howner hplaced hbytes
    obtain ⟨l, hl, hmine, hstart, hdepth⟩ := h.placed r hr hplaced
    obtain ⟨l', hl', howner', hzone⟩ :=
      h.toNumbered.patch_owned hpatching h.attempted hfd hinPlace hp hr howner
    obtain rfl := h.unique hl hl' hmine howner'
    exact ⟨l', h.layout l' hl _ hmine, hstart, hdepth, hzone p.offset (Nat.le_refl _)
      (by rw [Patch.stop]; omega)⟩
  have hfield : b.logElapsed = true → ∀ r ∈ s.endedRecords ev, r.logged = true → r.lineStart < 0 := by
    intro helapsed r hr hlog
    by_contra hplaced
    have hplaced := Int.not_lt.mp hplaced
    obtain ⟨p, hp, hfield⟩ := exists_fieldPatch hexceptions helapsed hr hlog hplaced
    obtain ⟨l, hlayout, hstart, -, -, hzone⟩ := howned p hp r (mem_frames_of_mem_endedRecords hr)
      hfield.owner hplaced (by rw [hfield.length]; decide)
    have hoffset := hfield.offset
    rcases hzone with ⟨-, hle, -⟩ | ⟨g, hg, hat⟩
    · omega
    · have hprefix := field_le_prefixWidth helapsed
      have hcolumn := hlayout.glyph_eq hg
      rw [treeGlyphOffset] at hcolumn
      rw [Build.prefixWidth] at hprefix
      omega
  refine ⟨hfield, fun r hr hplaced => ?_⟩
  by_contra hroot
  obtain ⟨hended, hlog⟩ := mem_endedRecords_of_mem_markedRecords hr
  obtain ⟨p, hp, hmark⟩ := exists_markPatch hr hplaced (by omega)
  obtain ⟨l, hlayout, hstart, hdepth, -, hzone⟩ := howned p hp r (mem_frames_of_mem_endedRecords hended)
    hmark.owner hplaced (by rw [hmark.length]; decide)
  have hoffset := hmark.offset
  rcases hzone with ⟨helapsed, -, -⟩ | ⟨g, hg, hat⟩
  · have hneg := hfield helapsed r hended hlog
    omega
  · have hcolumn := hlayout.glyph_eq hg
    rw [← hdepth] at hcolumn
    omega

/-! ### The file over a run -/

/-- A thread with an undamaged file. -/
structure Undamaged (b : Build) (p : ThreadState × Bool) : Prop where
  inPlace : PatchedInPlace b p.1.traceFile
  tied : p.2 = false → Tied b p.1
  behind : p.2 = true → ∃ gap, 0 < gap ∧ Behind b gap p.1

variable {p : ThreadState × Bool}

lemma Undamaged.step (hpatching : b.linePatching = true) (h : Undamaged b p) (hwhole : ev.written = none)
    (hstay : PatchesStay b p ev) : Undamaged b (openStep b p ev) := by
  obtain ⟨s, behind⟩ := p
  cases behind with
  | true =>
    obtain ⟨gap, hgap, hbehind⟩ := h.behind rfl
    have hquiet : s.traceFile.patchFd = true → s.stepPatches b ev = [] :=
      fun hfd => ((hstay hfd).1 rfl).stepPatches_eq_nil
    have hsame : s.traceFile.patchAll (s.stepPatches b ev) = s.traceFile := by
      cases hfd : s.traceFile.patchFd with
      | false => simp [TraceFile.patchAll, hfd]
      | true => rw [hquiet hfd, patchAll_nil]
    refine ⟨?_, by simp [openStep], fun _ => ⟨gap, hgap, hbehind.step hpatching hwhole hsame⟩⟩
    refine h.inPlace.step hpatching (fun hfirst => absurd (hbehind.attempted.symm.trans hfirst) (by simp))
      hwhole (fun hfirst => absurd (hbehind.attempted.symm.trans hfirst) (by simp)) fun hfd => ?_
    simp [OwnPatches, hquiet hfd]
  | false =>
    have htied := h.tied rfl
    have hglyphs := fun hfd => (hstay hfd).2 rfl
    refine ⟨?_, ?_, ?_⟩
    · exact h.inPlace.step hpatching htied.unplaced hwhole
        (fun hfirst => ⟨htied.closed (htied.unopened hfirst), htied.stepPatches_of_unopened hfirst⟩)
        fun hfd => htied.ownPatches (hglyphs hfd)
    · intro hopens
      refine htied.step hpatching (fun hheadless => ?_) fun hfd => htied.marksInFile_of_glyphs (hglyphs hfd)
      simpa [openStep, ThreadState.opensBehind, hheadless] using hopens
    · intro hopens
      have hopens : s.opensBehind b ev = true := by simpa [openStep] using hopens
      obtain ⟨hgap, hbehind⟩ := htied.behind hpatching hopens
      exact ⟨_, hgap, hbehind⟩

lemma Undamaged.patchesStay (hexceptions : b.logExceptions = true) (h : Undamaged b p)
    (hinPlace : PatchedInPlace b (hookStep b p.1 ev).traceFile) : PatchesStay b p ev := by
  have hpatching : b.linePatching = true := by simp [Build.linePatching, hexceptions]
  intro hfd
  constructor
  · intro hbehind
    obtain ⟨gap, hgap, hbehind⟩ := h.behind hbehind
    exact hbehind.rewritesNothing hexceptions hgap hfd hinPlace
  · intro hend
    exact (h.tied hend).marksHaveGlyphs hpatching hfd hinPlace

lemma undamaged_fresh (b : Build) (bounds : StackBounds) (earlier : Text) :
    Undamaged b (ThreadState.fresh bounds earlier, false) where
  inPlace := by
    refine ⟨?_, ?_, ?_, ?_⟩
    · simpa [TraceFile.written, ThreadState.fresh] using AgreeOff.refl _ earlier
    all_goals simp [ThreadState.fresh]
  tied _ := tied_fresh b bounds earlier
  behind := by simp

/-- A run that leaves the file in place leaves it undamaged. -/
lemma Undamaged.exec (hexceptions : b.logExceptions = true) {evs : List HookEvent} (h : Undamaged b p)
    (hwhole : ∀ ev ∈ evs, ev.written = none)
    (hinPlace : AllSteps (hookStep b) (fun s ev => PatchedInPlace b (hookStep b s ev).traceFile) p.1 evs) :
    Undamaged b (exec (openStep b) p evs) := by
  have hpatching : b.linePatching = true := by simp [Build.linePatching, hexceptions]
  exact exec_invariant
    (fun _ _ h hstep => h.step hpatching hstep.1 (h.patchesStay hexceptions hstep.2)) h
    (allSteps_and.mpr ⟨allSteps_of_forall_mem hwhole,
      (allSteps_of_semiconj Prod.fst (openStep_fst b) p evs).mp hinPlace⟩)

/-- Patching leaves the file as it was written, up to the bytes meant for it, throughout a run
exactly when every line the run marks has its glyph, and nothing is rewritten in a file that was opened
behind earlier content. -/
theorem patched_in_place_iff (b : Build) (hexceptions : b.logExceptions = true) (bounds : StackBounds)
    (earlier : Text) (evs : List HookEvent) (hwhole : ∀ ev ∈ evs, ev.written = none) :
    AllSteps (hookStep b) (fun s ev => PatchedInPlace b (hookStep b s ev).traceFile)
        (ThreadState.fresh bounds earlier) evs ↔
      AllSteps (openStep b) (PatchesStay b) (ThreadState.fresh bounds earlier, false) evs := by
  have hpatching : b.linePatching = true := by simp [Build.linePatching, hexceptions]
  refine (allSteps_of_semiconj Prod.fst (openStep_fst b) (ThreadState.fresh bounds earlier, false)
    evs).trans ?_
  exact allSteps_iff_of_invariant (I := Undamaged b) (D := fun _ ev => ev.written = none)
    (fun _ _ h hwhole hstay => h.step hpatching hwhole hstay)
    (fun _ _ h hwhole => ⟨h.patchesStay hexceptions,
      fun hstay => (h.step hpatching hwhole hstay).inPlace⟩)
    (undamaged_fresh b bounds earlier) (allSteps_of_forall_mem hwhole)

lemma written_descent (n : Nat) : ∀ ev ∈ descent n, ev.written = none := by
  intro ev hev
  obtain ⟨i, -, rfl⟩ := List.mem_map.mp hev
  rfl

theorem patched_in_place_iff_descent :
    AllSteps (hookStep ⟨true, false, false⟩)
        (fun s ev => PatchedInPlace ⟨true, false, false⟩ (hookStep ⟨true, false, false⟩ s ev).traceFile)
        (ThreadState.fresh {} []) (descent 3) ↔
      AllSteps (openStep ⟨true, false, false⟩) (PatchesStay ⟨true, false, false⟩)
        (ThreadState.fresh {} [], false) (descent 3) :=
  patched_in_place_iff ⟨true, false, false⟩ rfl {} [] (descent 3) (written_descent 3)

/-- An exception that leaves a frame whose line lost its glyph damages the trace. -/
lemma not_patchedInPlace_descent (hexceptions : b.logExceptions = true) {n : Nat}
    (hdeep : formatBufSize ≤ b.prefixWidth + treeSegmentWidth * n) (hpos : 1 ≤ n) (hn : n < 4096) :
    ¬ AllSteps (hookStep b) (fun s ev => PatchedInPlace b (hookStep b s ev).traceFile)
      (ThreadState.fresh {} []) (descent (n + 1) ++ [.exit (descentThrow n)]) := by
  intro hinPlace
  obtain ⟨hdescent, hthrow, -⟩ := (allSteps_append _ _ _).mp hinPlace
  have hpatching : b.linePatching = true := by simp [Build.linePatching, hexceptions]
  have hstate := exec_descent hpatching [] n hn
  have hundamaged := (undamaged_fresh b {} []).exec hexceptions (written_descent (n + 1)) hdescent
  rw [exec_openStep (headerBuilt_descent (n + 1))] at hundamaged
  have hglyphs := (hundamaged.tied rfl).marksHaveGlyphs hpatching hstate.patchFd hthrow
  obtain ⟨r, hr, hplaced, hdepth, -⟩ := hstate.marked hexceptions
  have hfits := hglyphs r hr hplaced (by omega)
  rw [hdepth] at hfits
  omega

/-- It happens at depth 674 of a trace without columns. -/
theorem damaged_by_deep_mark :
    ¬ AllSteps (hookStep ⟨true, false, false⟩)
      (fun s ev => PatchedInPlace ⟨true, false, false⟩ (hookStep ⟨true, false, false⟩ s ev).traceFile)
      (ThreadState.fresh {} []) (descent 675 ++ [.exit (descentThrow 674)]) :=
  not_patchedInPlace_descent rfl (Nat.le_refl 2048) (by omega) (by omega)

end CallStackLogger
