import CallStackLogger.Core.Run
import CallStackLogger.Trace.Effects

/-!
# The byte cursor

`Traced` ties the cursor, the records and the lines of a thread to its file. Opening the file keeps
it, and so does appending a line; patching keeps it as long as no patch reaches past the end of
the file. A mark does so when its record is so deep that the line it belongs to was cut short in
front of its glyph, and from then on the cursor is behind the file. `cursor_trusted_iff` is the
exact condition.
-/

namespace CallStackLogger

open Run Overwrite

variable {b : Build} {s s' : ThreadState}

/-- The line a record points to. -/
structure OwnLine (r : FrameRecord) (l : Line) : Prop where
  owner : l.activation = some r.activation
  start : r.lineStart = l.start
  depth : r.depth = l.depth
  logged : r.logged = true

/-- The record's own line arrived whole, and so did every line in front of it. -/
def PlacedIn (lines : List Line) (r : FrameRecord) : Prop :=
  ∃ pre l post, lines = pre ++ l :: post ∧ OwnLine r l ∧ ∀ x ∈ pre ++ [l], x.short = none

/-- Every activation has at most one line, and that is laid out as a call's. -/
structure Numbered (b : Build) (s : ThreadState) : Prop where
  frames_lt : ∀ r ∈ s.frames, r.activation < s.entered
  lines_lt : ∀ l ∈ s.traceFile.lines, ∀ a ∈ l.activation, a < s.entered
  distinct : s.traceFile.lines.Pairwise fun l l' => ∀ a ∈ l.activation, a ∉ l'.activation
  layout : ∀ l ∈ s.traceFile.lines, ∀ a ∈ l.activation, CallLayout b l

/-- The cursor, the records and the lines of a thread fit its file. -/
structure Tied (b : Build) (s : ThreadState) : Prop extends Numbered b s where
  unopened : s.traceFile.openAttempted = false → s.traceFile.fp = false
  unread : s.traceFile.openAttempted = false → s.cursor = 0 ∧ s.cursorValid = true
  closed : s.traceFile.fp = false → s.traceFile.lines = []
  aligned : s.traceFile.fp = true → s.cursorValid = true → s.cursor = s.traceFile.content.length
  full : s.cursorValid = true → ∀ l ∈ s.traceFile.lines, l.short = none
  placed : ∀ r ∈ s.frames, r.lineStart = -1 ∨ PlacedIn s.traceFile.lines r
  inside : ∀ l ∈ s.traceFile.lines, l.short = none →
    l.start + l.text.length ≤ s.traceFile.content.length

/-- And what is patched goes through a second descriptor that is open. -/
structure Traced (b : Build) (s : ThreadState) : Prop extends Tied b s where
  ready : s.traceFile.fp = true → s.cursorValid = true → s.traceFile.patchFd = true
  patchable : ∀ r ∈ s.frames, r.lineStart = -1 ∨ s.traceFile.patchFd = true

lemma PlacedIn.append {lines : List Line} {r : FrameRecord} (h : PlacedIn lines r) (more : List Line) :
    PlacedIn (lines ++ more) r := by
  obtain ⟨pre, l, post, rfl, hown, hfull⟩ := h
  exact ⟨pre, l, post ++ more, by simp, hown, hfull⟩

lemma Tied.unplaced (h : Tied b s) : Unplaced s := by
  intro hfirst r hr
  rcases h.placed r hr with hneg | ⟨pre, l, post, hlines, -⟩
  · omega
  · rw [h.closed (h.unopened hfirst)] at hlines
    simp at hlines

/-! ### Each part of a step keeps the tie -/

/-- A file left without its header is in order when nothing had been written to it before. -/
lemma Tied.stream {f : TraceFile} {cursor : Nat} {valid headless : Bool} (h : Tied b s)
    (hheadless : headless = true → s.traceFile.content = [])
    (hstream : StreamStep headless s.traceFile s.cursor s.cursorValid f cursor valid) :
    Tied b { s with traceFile := f, cursor := cursor, cursorValid := valid } := by
  cases hstream with
  | same hheader => exact { h with }
  | headless patchFd hheader hfirst =>
    have hnone : s.traceFile.lines = [] := h.closed (h.unopened hfirst)
    refine { h with unopened := ?_, unread := ?_, closed := ?_, aligned := ?_ }
    · intro hfalse
      exact absurd hfalse (by simp)
    · intro hfalse
      exact absurd hfalse (by simp)
    · intro _
      exact hnone
    · intro _ _
      rw [(h.unread hfirst).1, hheadless hheader]
      rfl
  | opened header hheader hfirst hattempted hcontent hpreamble hlines hpatches hvalid hcursor =>
    have hnone : f.lines = [] := hlines.trans (h.closed (h.unopened hfirst))
    refine ⟨⟨h.frames_lt, ?_, ?_, ?_⟩, ?_, ?_, fun _ => hnone,
      fun hfp hvalid => (hcursor (h.unopened hfirst) hfp hvalid).1, ?_, ?_, ?_⟩
    · simp [hnone]
    · simp [hnone]
    · simp [hnone]
    · intro hfalse
      exact absurd (hattempted.symm.trans hfalse) (by simp)
    · intro hfalse
      exact absurd (hattempted.symm.trans hfalse) (by simp)
    · simp [hnone]
    · intro r hr
      left
      rcases h.placed r hr with hneg | ⟨pre, l, post, hold, -⟩
      · exact hneg
      · rw [h.closed (h.unopened hfirst)] at hold
        simp at hold
    · simp [hnone]

/-- Patches that stay inside the file leave its length alone. -/
lemma length_patchAll_eq_iff {f : TraceFile} (hfd : f.patchFd = true) (ps : List Patch) :
    (f.patchAll ps).content.length = f.content.length ↔ ∀ p ∈ ps, p.stop ≤ f.content.length := by
  simp only [TraceFile.patchAll, hfd, Bool.true_eq_false, if_false]
  rw [length_overwriteAll_eq_iff]
  simp [Patch.stop]

lemma le_length_patchAll (f : TraceFile) (ps : List Patch) :
    f.content.length ≤ (f.patchAll ps).content.length := by
  rw [TraceFile.patchAll]
  split_ifs
  · exact Nat.le_refl _
  · exact le_length_overwriteAll _ _ _

lemma Tied.patched {ps : List Patch} (h : Tied b s)
    (hps : s.traceFile.patchFd = true → s.traceFile.fp = true → s.cursorValid = true →
      ∀ p ∈ ps, p.stop ≤ s.traceFile.content.length) :
    Tied b { s with traceFile := s.traceFile.patchAll ps } := by
  have hgrows := le_length_patchAll s.traceFile ps
  have hlength : s.traceFile.fp = true → s.cursorValid = true →
      (s.traceFile.patchAll ps).content.length = s.traceFile.content.length := by
    intro hfp hvalid
    by_cases hfd : s.traceFile.patchFd = true
    · exact (length_patchAll_eq_iff hfd ps).mpr (hps hfd hfp hvalid)
    · simp [TraceFile.patchAll, hfd]
  obtain ⟨content, patches, hfile⟩ := patchedTo_patchAll s.traceFile ps
  rw [hfile] at hgrows hlength ⊢
  refine { h with aligned := ?_, inside := ?_ }
  · intro hfp hvalid
    exact (h.aligned hfp hvalid).trans (hlength hfp hvalid).symm
  · intro l hl hfull
    exact Nat.le_trans (h.inside l hl hfull) hgrows

/-- The state in front of a step's line: the stream has been asked for and the patches are in. -/
def ThreadState.patchedState (s : ThreadState) (b : Build) (ev : HookEvent) (f : TraceFile)
    (cursor : Nat) (valid : Bool) : ThreadState :=
  { s with traceFile := f.patchAll (s.stepPatches b ev), cursor := cursor, cursorValid := valid }

variable {ev : HookEvent} {f : TraceFile} {cursor : Nat} {valid : Bool}

/-- A line that is written belongs to the activation that is entered. -/
lemma Numbered.effect {line : Option Line} (h : Numbered b (s.patchedState b ev f cursor valid))
    (heffect : FileEffect b ev s s' f cursor valid line) : Numbered b s' := by
  have howner := heffect.owner
  have hentered := heffect.entered_le
  obtain ⟨content, patches, hpatched⟩ := patchedTo_patchAll f (s.stepPatches b ev)
  rw [ThreadState.patchedState, hpatched] at h
  have hfile : s'.traceFile = ({ f with content := content, patches := patches } : TraceFile).writeLine line := by
    rw [← hpatched]
    exact heffect.file_eq
  have hframes : ∀ r ∈ s'.frames, r.activation < s'.entered := by
    intro r hr
    rcases heffect.records r hr with hold | ⟨hactivation, hlt, -⟩
    · exact Nat.lt_of_lt_of_le (h.frames_lt r hold) hentered
    · omega
  cases line with
  | none =>
    rw [TraceFile.writeLine] at hfile
    refine ⟨hframes, ?_, hfile ▸ h.distinct, hfile ▸ h.layout⟩
    intro l hl a ha
    rw [hfile] at hl
    exact Nat.lt_of_lt_of_le (h.lines_lt l hl a ha) hentered
  | some l =>
    have hlines : s'.traceFile.lines = f.lines ++ [{ l with start := content.length }] := by rw [hfile]; rfl
    have howner := howner l rfl
    refine ⟨hframes, ?_, ?_, ?_⟩
    · intro x hx a ha
      rw [hlines] at hx
      rcases List.mem_append.mp hx with hx | hx
      · exact Nat.lt_of_lt_of_le (h.lines_lt x hx a ha) hentered
      · obtain rfl := List.mem_singleton.mp hx
        obtain ⟨rfl, hlt', -⟩ := howner a ha
        exact hlt'
    · rw [hlines]
      refine List.pairwise_append.mpr ⟨h.distinct, List.pairwise_singleton _ _, ?_⟩
      intro x hx y hy a ha hay
      obtain rfl := List.mem_singleton.mp hy
      obtain ⟨rfl, -, -⟩ := howner a hay
      exact absurd (h.lines_lt x hx s.entered ha) (Nat.lt_irrefl _)
    · intro x hx a ha
      rw [hlines] at hx
      rcases List.mem_append.mp hx with hx | hx
      · exact h.layout x hx a ha
      · obtain rfl := List.mem_singleton.mp hx
        exact (howner a ha).2.2

/-- A step without a line. -/
lemma Tied.quiet (h : Tied b (s.patchedState b ev f cursor valid))
    (heffect : FileEffect b ev s s' f cursor valid none) : Tied b s' := by
  have hfile : s'.traceFile = f.patchAll (s.stepPatches b ev) := heffect.file_eq
  have hvalid : s'.cursorValid = valid := by simpa using heffect.valid_eq
  have hcursor : s'.cursor = cursor := heffect.cursor_eq
  refine ⟨h.toNumbered.effect heffect, hfile ▸ h.unopened, ?_, hfile ▸ h.closed, ?_, ?_, ?_,
    hfile ▸ h.inside⟩
  · rw [hfile, hvalid, hcursor]
    exact h.unread
  · rw [hfile, hvalid, hcursor]
    exact h.aligned
  · rw [hfile, hvalid]
    exact h.full
  · intro r hr
    rw [hfile]
    rcases heffect.records r hr with hold | ⟨-, -, hneg | ⟨-, l, hl, -⟩⟩
    · exact h.placed r hold
    · exact .inl hneg
    · simp at hl

/-- A step with a line. -/
lemma Tied.line {l : Line} (h : Tied b (s.patchedState b ev f cursor valid))
    (heffect : FileEffect b ev s s' f cursor valid (some l)) : Tied b s' := by
  have hnumbered := h.toNumbered.effect heffect
  have hrecords := heffect.records
  have hvalid : s'.cursorValid = (valid && l.short.isNone) := by simpa using heffect.valid_eq
  have hcursor : s'.cursor = cursor + cursorShift (some l) := heffect.cursor_eq
  obtain ⟨content, patches, hpatched⟩ := patchedTo_patchAll f (s.stepPatches b ev)
  rw [ThreadState.patchedState, hpatched] at h
  have hfile : s'.traceFile = ({ f with content := content, patches := patches } : TraceFile).fwrite l := by
    rw [← hpatched]
    exact heffect.file_eq
  have hlines : s'.traceFile.lines = f.lines ++ [{ l with start := content.length }] := by rw [hfile]; rfl
  have hfp : f.fp = true := heffect.fp_eq rfl
  have hfull : s'.cursorValid = true → valid = true ∧ l.short = none := by
    intro h'
    rw [hvalid] at h'
    simpa using h'
  have hcontent : l.short = none → s'.traceFile.content = content ++ l.text := by
    intro hshort
    rw [hfile]
    simp [TraceFile.fwrite, hshort]
  have hgrows : content.length ≤ s'.traceFile.content.length := by
    rw [hfile]
    simp [TraceFile.fwrite]
  refine ⟨hnumbered, ?_, ?_, ?_, ?_, ?_, ?_, ?_⟩
  · rw [hfile]
    exact h.unopened
  · intro hfirst
    rw [hfile] at hfirst
    exact absurd (hfp.symm.trans (h.unopened hfirst)) (by simp)
  · rw [hfile]
    intro hclosed
    exact absurd (hfp.symm.trans hclosed) (by simp)
  · intro _ hvalid'
    obtain ⟨hvalid', hshort⟩ := hfull hvalid'
    rw [hcursor, hcontent hshort, List.length_append,
      show cursor = content.length from h.aligned hfp hvalid']
    simp [cursorShift, hshort]
  · intro hvalid' x hx
    obtain ⟨hvalid', hshort⟩ := hfull hvalid'
    rw [hlines] at hx
    rcases List.mem_append.mp hx with hx | hx
    · exact h.full hvalid' x hx
    · rw [List.mem_singleton.mp hx]
      exact hshort
  · intro r hr
    rw [hlines]
    rcases hrecords r hr with hold | ⟨-, -, hneg | ⟨hvalid', l', hl', hmine, hstart, hdepth, hlog⟩⟩
    · rcases h.placed r hold with hneg | hplaced
      · exact .inl hneg
      · exact .inr (hplaced.append _)
    · exact .inl hneg
    · obtain rfl := Option.mem_some_iff.mp hl'
      obtain ⟨hvalid', hshort⟩ := hfull hvalid'
      refine .inr ⟨f.lines, { l with start := content.length }, [], rfl, ⟨hmine, ?_, hdepth, hlog⟩, ?_⟩
      · rw [hstart]
        exact congrArg Int.ofNat (h.aligned hfp hvalid')
      · intro x hx
        rcases List.mem_append.mp hx with hx | hx
        · exact h.full hvalid' x hx
        · rw [List.mem_singleton.mp hx]
          exact hshort
  · intro x hx hshort
    rw [hlines] at hx
    rcases List.mem_append.mp hx with hx | hx
    · exact Nat.le_trans (h.inside x hx hshort) hgrows
    · obtain rfl := List.mem_singleton.mp hx
      rw [hcontent hshort, List.length_append]

/-! ### Where the patches of a step land -/

/-- A record whose line start is known has its line in the file. -/
lemma Tied.own {r : FrameRecord} (h : Tied b s) (hr : r ∈ s.frames) (hplaced : 0 ≤ r.lineStart) :
    ∃ l ∈ s.traceFile.lines, OwnLine r l ∧ CallLayout b l ∧
      l.start + l.text.length ≤ s.traceFile.content.length := by
  rcases h.placed r hr with hneg | ⟨pre, l, post, hlines, hown, hfull⟩
  · omega
  · have hl : l ∈ s.traceFile.lines := by simp [hlines]
    exact ⟨l, hl, hown, h.layout l hl _ hown.owner, h.inside l hl (hfull l (by simp))⟩

/-- The duration field of a line lies inside the file. -/
lemma Tied.fieldPatch_inside {r : FrameRecord} {p : Patch} (h : Tied b s) (hr : r ∈ s.frames)
    (hp : FieldPatch b r p) : p.stop ≤ s.traceFile.content.length := by
  obtain ⟨l, -, hown, ⟨linePre, hwidth, hlayout⟩, hinside⟩ := h.own hr hp.placed
  obtain ⟨rest, -, htext⟩ := hlayout.starts
  have hstart := hown.start
  have hlength : l.text.length = b.prefixWidth + rest.length := by
    rw [htext, List.length_append, hwidth]
  have hprefix : placeholderOffsetInLine + durationFieldWidth ≤ b.prefixWidth := by
    simp only [Build.prefixWidth, Build.linePrefixExtra, hp.elapsed, if_true, placeholderOffsetInLine,
      timestampPrefixWidth]
    omega
  rw [Patch.stop, hp.offset, hp.length]
  omega

/-- While the cursor is to stay valid, every mark of the step lands inside the file. -/
def MarksInFile (b : Build) (s : ThreadState) (ev : HookEvent) : Prop :=
  s.traceFile.fp = true → s.cursorValid = true → (s.writesLine b ev = true → ev.written = none) →
    ∀ r ∈ s.markedRecords b ev, 0 ≤ r.lineStart → 1 ≤ r.depth →
      r.lineStart.toNat + treeGlyphOffset r.depth b.linePrefixExtra < s.traceFile.content.length

lemma Tied.patches_inside_iff (h : Tied b s) :
    (∀ p ∈ s.stepPatches b ev, p.stop ≤ s.traceFile.content.length) ↔
      ∀ r ∈ s.markedRecords b ev, 0 ≤ r.lineStart → 1 ≤ r.depth →
        r.lineStart.toNat + treeGlyphOffset r.depth b.linePrefixExtra <
          s.traceFile.content.length := by
  constructor
  · intro hinside r hr hplaced hdepth
    obtain ⟨p, hp, hmark⟩ := exists_markPatch hr hplaced hdepth
    have hstop := hinside p hp
    rw [Patch.stop, hmark.offset, hmark.length] at hstop
    exact hstop
  · intro hmarks p hp
    rcases stepPatches_cases hp with ⟨r, hr, hfield⟩ | ⟨r, hr, hmark⟩
    · exact h.fieldPatch_inside (mem_frames_of_mem_endedRecords hr) hfield
    · rw [Patch.stop, hmark.offset, hmark.length]
      exact hmarks r hr hmark.placed hmark.deep

/-- Before the file is opened there is nothing to patch. -/
lemma Tied.stepPatches_of_unopened (h : Tied b s) (hfirst : s.traceFile.openAttempted = false) :
    s.stepPatches b ev = [] := by
  rw [List.eq_nil_iff_forall_not_mem]
  intro p hp
  rcases stepPatches_cases hp with ⟨r, hr, hfield⟩ | ⟨r, hr, hmark⟩
  · have hneg := h.unplaced hfirst r (mem_frames_of_mem_endedRecords hr)
    have hplaced := hfield.placed
    omega
  · have hneg := h.unplaced hfirst r (mem_frames_of_mem_markedRecords hr)
    have hplaced := hmark.placed
    omega

/-! ### The cursor over a step -/

/-- Once the cursor has been given up, nothing is claimed of it. -/
lemma Tied.invalid (h : Tied b s) (hattempted : s.traceFile.openAttempted = true) :
    Tied b { s with cursorValid := false } :=
  { h with
    unread := fun hfirst => absurd (hattempted.symm.trans hfirst) (by simp)
    aligned := fun _ hvalid => absurd hvalid (by simp)
    full := fun hvalid => absurd hvalid (by simp) }

lemma FileEffect.invalid {line : Option Line} (heffect : FileEffect b ev s s' f cursor valid line)
    (hvalid : s'.cursorValid = false) : FileEffect b ev s s' f cursor false line :=
  { heffect with valid_eq := by simp [hvalid] }

lemma Tied.effect {line : Option Line} (h : Tied b (s.patchedState b ev f cursor valid))
    (heffect : FileEffect b ev s s' f cursor valid line) : Tied b s' := by
  cases line with
  | none => exact h.quiet heffect
  | some l => exact h.line heffect

/-- A step whose line does not fall short. -/
lemma FileEffect.writesWhole {line : Option Line} (heffect : FileEffect b ev s s' f cursor valid line)
    (hvalid : s'.cursorValid = true) : s.writesLine b ev = true → ev.written = none := by
  intro hwrites
  rw [← heffect.isSome_eq] at hwrites
  obtain ⟨l, rfl⟩ := Option.isSome_iff_exists.mp hwrites
  have hshort := heffect.valid_eq
  rw [hvalid] at hshort
  rw [← heffect.short_eq l rfl]
  simpa using (Bool.and_eq_true_iff.mp hshort.symm).2

lemma FileEffect.fp_after {line : Option Line} (heffect : FileEffect b ev s s' f cursor valid line) :
    s'.traceFile.fp = f.fp := by
  obtain ⟨_, _, hpatched⟩ := patchedTo_patchAll f (s.stepPatches b ev)
  rw [heffect.file_eq, hpatched]
  cases line <;> rfl

lemma FileEffect.patchFd_after {line : Option Line} (heffect : FileEffect b ev s s' f cursor valid line) :
    s'.traceFile.patchFd = f.patchFd := by
  obtain ⟨_, _, hpatched⟩ := patchedTo_patchAll f (s.stepPatches b ev)
  rw [heffect.file_eq, hpatched]
  cases line <;> rfl

/-- A step keeps the tie when its marks land inside the file, and a file it leaves without a header was
empty. -/
lemma Tied.step (hpatching : b.linePatching = true) (h : Tied b s)
    (hheadless : s.opensHeadless b ev = true → s.traceFile.content = [])
    (hmarks : s.traceFile.patchFd = true → MarksInFile b s ev) : Tied b (hookStep b s ev) := by
  obtain ⟨f, cursor, valid, line, hstream, heffect⟩ := step_effect hpatching ev h.unplaced
  have hopen := h.stream hheadless hstream
  by_cases hvalid : (hookStep b s ev).cursorValid = true
  · have hpatched : Tied b (s.patchedState b ev f cursor valid) := by
      refine hopen.patched fun hfd hfp hvalid₁ => ?_
      cases hstream with
      | same hheader => exact h.patches_inside_iff.mpr (hmarks hfd hfp hvalid₁ (heffect.writesWhole hvalid))
      | headless _ _ hfirst => simp [h.stepPatches_of_unopened hfirst]
      | opened _ _ hfirst => simp [h.stepPatches_of_unopened hfirst]
    exact hpatched.effect heffect
  · have hvalid : (hookStep b s ev).cursorValid = false := by simpa using hvalid
    -- an unopened file has lost no line
    have hattempted : f.openAttempted = true := by
      by_contra hfirst
      have hfirst : f.openAttempted = false := by simpa using hfirst
      have hnone : line = none := by
        cases line with
        | none => rfl
        | some l => exact absurd ((heffect.fp_eq rfl).symm.trans (hopen.unopened hfirst)) (by simp)
      rw [heffect.valid_eq, hnone, show valid = true from (hopen.unread hfirst).2] at hvalid
      exact absurd hvalid (by simp)
    have hpatched : Tied b (s.patchedState b ev f cursor false) :=
      (hopen.invalid hattempted).patched fun _ _ hvalid₁ => absurd hvalid₁ (by simp)
    exact hpatched.effect (heffect.invalid hvalid)

/-- The second descriptor stays open as well when no header fails. -/
lemma Traced.step (hpatching : b.linePatching = true) (h : Traced b s) (hheader : HeaderBuilt ev)
    (hmarks : MarksInFile b s ev) : Traced b (hookStep b s ev) := by
  have htied := h.toTied.step hpatching (fun hheadless => absurd (hheader.opensHeadless.symm.trans hheadless)
    (by simp)) (fun _ => hmarks)
  obtain ⟨f, cursor, valid, line, hstream, heffect⟩ := step_effect hpatching ev h.unplaced
  rw [hheader.opensHeadless] at hstream
  have hready : f.fp = true → valid = true → f.patchFd = true := by
    cases hstream with
    | same => exact h.ready
    | headless _ hheadless => exact absurd hheadless (by simp)
    | opened _ _ hfirst _ _ _ _ _ _ hcursor =>
      exact fun hfp hvalid => (hcursor (h.unopened hfirst) hfp hvalid).2
  have hvalid : (hookStep b s ev).cursorValid = true → valid = true := by
    intro hvalid'
    rw [heffect.valid_eq] at hvalid'
    exact (Bool.and_eq_true_iff.mp hvalid').1
  refine { htied with ready := ?_, patchable := ?_ }
  · intro hfp hvalid'
    rw [heffect.fp_after] at hfp
    rw [heffect.patchFd_after]
    exact hready hfp (hvalid hvalid')
  · intro r hr
    rw [heffect.patchFd_after]
    rcases heffect.records r hr with hold | ⟨-, -, hneg | ⟨hvalid', l, hl, -⟩⟩
    · cases hstream with
      | same => exact h.patchable r hold
      | headless _ hheadless => exact absurd hheadless (by simp)
      | opened _ _ hfirst =>
        rcases h.placed r hold with hneg | ⟨pre, l, post, hlines, -⟩
        · exact .inl hneg
        · rw [h.closed (h.unopened hfirst)] at hlines
          simp at hlines
    · exact .inl hneg
    · exact .inr (hready (heffect.fp_eq (by rw [Option.mem_def.mp hl]; rfl)) (hvalid hvalid'))

lemma length_writeLine {g : TraceFile} {line : Option Line} (hshort : line.all (·.short.isNone) = true) :
    (g.writeLine line).content.length = g.content.length + cursorShift line := by
  cases line with
  | none => rfl
  | some l =>
    have hshort : l.short = none := by simpa using hshort
    simp [TraceFile.writeLine, TraceFile.fwrite, cursorShift, hshort]

/-- When the cursor equals the length of the file after a step, its marks landed inside the file. -/
lemma Tied.marksInFile (hpatching : b.linePatching = true) (h : Tied b s)
    (hfd : s.traceFile.patchFd = true)
    (hcursor : (hookStep b s ev).traceFile.fp = true → (hookStep b s ev).cursorValid = true →
      (hookStep b s ev).cursor = (hookStep b s ev).traceFile.content.length) :
    MarksInFile b s ev := by
  intro hfp hvalid hwhole
  obtain ⟨f, cursor, valid, line, hstream, heffect⟩ := step_effect hpatching ev h.unplaced
  have haligned := h.aligned hfp hvalid
  have hshort : line.all (·.short.isNone) = true := by
    cases line with
    | none => rfl
    | some l =>
      have hnone := heffect.short_eq l rfl
      rw [hwhole heffect.isSome_eq.symm] at hnone
      simpa using hnone
  cases hstream with
  | headless _ _ hfirst => exact absurd (h.unopened hfirst) (by simp [hfp])
  | opened _ _ hfirst => exact absurd (h.unopened hfirst) (by simp [hfp])
  | same =>
    have hvalid' : (hookStep b s ev).cursorValid = true := by rw [heffect.valid_eq, hvalid, hshort]; rfl
    have hlength := hcursor (heffect.fp_after.trans hfp) hvalid'
    rw [heffect.cursor_eq, heffect.file_eq, length_writeLine hshort, haligned] at hlength
    refine h.patches_inside_iff.mp ((length_patchAll_eq_iff hfd _).mp ?_)
    omega

lemma Traced.marksInFile (hpatching : b.linePatching = true) (h : Traced b s)
    (hcursor : (hookStep b s ev).traceFile.fp = true → (hookStep b s ev).cursorValid = true →
      (hookStep b s ev).cursor = (hookStep b s ev).traceFile.content.length) :
    MarksInFile b s ev :=
  fun hfp hvalid => h.toTied.marksInFile hpatching (h.ready hfp hvalid) hcursor hfp hvalid

/-! ### The cursor over a run -/

/-- What is promised of the cursor and the line starts after a step. -/
structure CursorTrusted (s s' : ThreadState) : Prop where
  cursor : s'.traceFile.fp = true → s'.cursorValid = true → s'.cursor = s'.traceFile.content.length
  givenUp : s.cursorValid = false → s'.cursorValid = false
  own : ∀ r ∈ s'.frames, 0 ≤ r.lineStart → ∃ l ∈ s'.traceFile.lines,
    l.activation = some r.activation ∧ r.lineStart = l.start ∧
    ∀ l' ∈ s'.traceFile.lines, l'.activation = some r.activation → l' = l
  sentinel : ∀ r ∈ s'.frames, ∀ pre l post, s'.traceFile.lines = pre ++ l :: post →
    l.activation = some r.activation → (∃ x ∈ pre ++ [l], x.short ≠ none) → r.lineStart = -1

/-- The line of an activation stands at one place only. -/
lemma distinct_split {pre post pre' post' : List Line} {l l' : Line} {a : Nat}
    (hdistinct : (pre ++ l :: post).Pairwise fun l l' => ∀ a ∈ l.activation, a ∉ l'.activation)
    (hsplit : pre ++ l :: post = pre' ++ l' :: post') (hl : l.activation = some a)
    (hl' : l'.activation = some a) : pre = pre' ∧ l = l' := by
  induction pre generalizing pre' with
  | nil =>
    cases pre' with
    | nil => exact ⟨rfl, (List.cons.inj hsplit).1⟩
    | cons x pre' =>
      obtain ⟨rfl, rfl⟩ := List.cons.inj hsplit
      have hne := (List.pairwise_cons.mp hdistinct).1 l' (by simp)
      exact absurd hl' (hne a hl)
  | cons x pre ih =>
    cases pre' with
    | nil =>
      obtain ⟨rfl, rfl⟩ := List.cons.inj hsplit
      have hne := (List.pairwise_cons.mp hdistinct).1 l (by simp)
      exact absurd hl (hne a hl')
    | cons y pre' =>
      obtain ⟨rfl, htail⟩ := List.cons.inj hsplit
      obtain ⟨hpre, hline⟩ := ih (List.pairwise_cons.mp hdistinct).2 htail
      exact ⟨congrArg (List.cons x) hpre, hline⟩

lemma Numbered.unique {l l' : Line} {a : Nat} (h : Numbered b s) (hl : l ∈ s.traceFile.lines)
    (hl' : l' ∈ s.traceFile.lines) (ha : l.activation = some a) (ha' : l'.activation = some a) :
    l' = l := by
  obtain ⟨pre, post, hsplit⟩ := List.append_of_mem hl
  obtain ⟨pre', post', hsplit'⟩ := List.append_of_mem hl'
  have hdistinct := h.distinct
  rw [hsplit] at hdistinct
  exact (distinct_split hdistinct (hsplit.symm.trans hsplit') ha ha').2.symm

/-- The cursor is not taken back once it has been given up. -/
lemma StreamStep.valid_of_valid {f' : TraceFile} {cursor' : Nat} {valid' headless : Bool}
    (h : StreamStep headless f cursor valid f' cursor' valid') (hvalid : valid' = true) : valid = true := by
  cases h with
  | same => exact hvalid
  | headless => exact hvalid
  | opened _ _ _ _ _ _ _ _ hback _ => exact hback hvalid

lemma Tied.cursorTrusted (hpatching : b.linePatching = true) (h : Tied b s)
    (hstep : Tied b (hookStep b s ev)) : CursorTrusted s (hookStep b s ev) := by
  obtain ⟨f, cursor, valid, line, hstream, heffect⟩ := step_effect hpatching ev h.unplaced
  refine ⟨hstep.aligned, ?_, ?_, ?_⟩
  · intro hgiven
    rw [heffect.valid_eq]
    cases hvalid : valid with
    | false => rfl
    | true => exact absurd (hstream.valid_of_valid hvalid) (by simp [hgiven])
  · intro r hr hplaced
    obtain ⟨l, hl, hown, -⟩ := hstep.own hr hplaced
    exact ⟨l, hl, hown.owner, hown.start, fun l' hl' howner => hstep.unique hl hl' hown.owner howner⟩
  · intro r hr pre l post hsplit howner hshort
    rcases hstep.placed r hr with hneg | ⟨pre', l', post', hsplit', hown', hfull⟩
    · exact hneg
    · have hdistinct := hstep.distinct
      rw [hsplit] at hdistinct
      obtain ⟨rfl, rfl⟩ := distinct_split hdistinct (hsplit.symm.trans hsplit') howner hown'.owner
      obtain ⟨x, hx, hx'⟩ := hshort
      exact absurd (hfull x hx) hx'

lemma tied_fresh (b : Build) (bounds : StackBounds) (earlier : Text) :
    Tied b (ThreadState.fresh bounds earlier) := by
  refine ⟨⟨?_, ?_, List.Pairwise.nil, ?_⟩, fun _ => rfl, fun _ => ⟨rfl, rfl⟩, fun _ => rfl, ?_, ?_, ?_,
    ?_⟩ <;>
    simp [ThreadState.fresh]

lemma traced_fresh (b : Build) (bounds : StackBounds) (earlier : Text) :
    Traced b (ThreadState.fresh bounds earlier) :=
  { tied_fresh b bounds earlier with
    ready := by simp [ThreadState.fresh]
    patchable := by simp [ThreadState.fresh] }

/-- Along a run on which the cursor is trustworthy the tie holds. -/
lemma Traced.exec (hpatching : b.linePatching = true) {evs : List HookEvent} (h : Traced b s)
    (hheaders : ∀ ev ∈ evs, HeaderBuilt ev)
    (htrusted : AllSteps (hookStep b) (fun s ev => CursorTrusted s (hookStep b s ev)) s evs) :
    Traced b (exec (hookStep b) s evs) :=
  exec_invariant
    (fun _ _ h hstep => h.step hpatching hstep.1 (h.marksInFile hpatching hstep.2.cursor)) h
    (allSteps_and.mpr ⟨allSteps_of_forall_mem hheaders, htrusted⟩)

/-- The cursor is the length of the file throughout a run exactly when each mark of the run lands
inside the file. -/
theorem cursor_trusted_iff (b : Build) (hpatching : b.linePatching = true) (bounds : StackBounds)
    (earlier : Text) (evs : List HookEvent) (hheaders : ∀ ev ∈ evs, HeaderBuilt ev) :
    AllSteps (hookStep b) (fun s ev => CursorTrusted s (hookStep b s ev))
        (ThreadState.fresh bounds earlier) evs ↔
      AllSteps (hookStep b) (MarksInFile b) (ThreadState.fresh bounds earlier) evs :=
  allSteps_iff_of_invariant (I := Traced b) (D := fun _ ev => HeaderBuilt ev)
    (fun _ _ h hheader hmarks => h.step hpatching hheader hmarks)
    (fun _ _ h hheader => ⟨fun htrusted => h.marksInFile hpatching htrusted.cursor,
      fun hmarks => h.cursorTrusted hpatching (h.step hpatching hheader hmarks).toTied⟩)
    (traced_fresh b bounds earlier) (allSteps_of_forall_mem hheaders)

/-! ### A descent

One function that calls itself ever deeper. Past the depth at which its lines lose their glyph an
exception that leaves the innermost frame still marks the column the glyph would have had. -/

/-- The enter of the frame at depth `n` of a descent. -/
def descentEnter (n : Nat) : EnterCall := .plain ⟨1, 10, 4096 - n⟩ [] (.named "f".toList none)

/-- The frames at the depths below `n` are entered. -/
def descent (n : Nat) : List HookEvent := (List.range n).map fun i => .enter (descentEnter i)

/-- An exception leaves the frame at depth `n`: its exit hook runs with one more in flight. -/
def descentThrow (n : Nat) : ExitCall := { ExitCall.plain ⟨1, 10, 4096 - n⟩ 11 with uncaught := 1 }

/-- The thread after the frame at depth `n` has been entered. -/
structure Descended (n : Nat) (s : ThreadState) : Prop where
  stream : s.traceFile.openAttempted = true ∧ s.traceFile.fp = true
  valid : s.cursorValid = true
  bounds : s.stackBounds = {}
  overflow : s.frameOverflowCount = 0
  depth : s.currentStackDepth = n
  aligned : s.cursor = s.traceFile.content.length
  patchFd : s.traceFile.patchFd = true
  top : ∃ r rest, s.frames = r :: rest ∧ r.toFrameKey = ⟨1, 10, 4096 - n⟩ ∧ r.logged = true ∧
    0 ≤ r.lineStart ∧ r.depth = n ∧ r.uncaughtAtEnter = 0 ∧
    s.traceFile.content.length ≤ r.lineStart.toNat + formatBufSize

/-- An enter of a descent pops nothing and logs its frame. -/
lemma descentEnter_logged (hpatching : b.linePatching = true) {n : Nat} (hover : s.frameOverflowCount = 0)
    (hbounds : s.stackBounds = {}) (htop : ∀ r ∈ s.frames.head?, 4096 - n < r.level)
    (hstream : s.traceFile.hasStream .ready = true) (hdepth : s.currentStackDepth + 1 = n)
    (hfile : ∀ capacity : Nat,
      (({ s with capacity := capacity } : ThreadState).getThreadFp b .ready).2.cursorValid = true ∧
      (({ s with capacity := capacity } : ThreadState).getThreadFp b .ready).2.traceFile.openAttempted =
        true ∧
      (({ s with capacity := capacity } : ThreadState).getThreadFp b .ready).2.cursor =
        (({ s with capacity := capacity } : ThreadState).getThreadFp b
          .ready).2.traceFile.content.length ∧
      (({ s with capacity := capacity } : ThreadState).getThreadFp b .ready).2.traceFile.patchFd = true) :
    Descended n (hookStep b s (.enter (descentEnter n))) := by
  have hoverflows : s.overflows (descentEnter n) = false := by
    simp [ThreadState.overflows, hover, descentEnter, EnterCall.plain]
  have hdead : s.deadOnEnter (descentEnter n) = 0 := by
    refine deadOnEnter_eq_zero fun r hr _ _ => ?_
    exact htop r hr
  generalize hs' : s.enterFrame b (descentEnter n) = s'
  have hstep : EnterStep b (descentEnter n) s s' := hs' ▸ enterStep b (descentEnter n) s
  have hhook : hookStep b s (.enter (descentEnter n)) = { s' with entered := s'.entered + 1 } := by
    simp only [hookStep, ThreadState.cygProfileFuncEnter, hs']
  have hview : s.loggedView (descentEnter n) ≠ none := by
    have hchain : (descentEnter n).inlineChain.isNone = false := rfl
    simp only [ThreadState.loggedView, ThreadState.chainThrows, hoverflows, hchain]
    simp only [Bool.and_false, Bool.not_false, Bool.and_self, Bool.true_and]
    rw [show (descentEnter n).threadFp = .ready from rfl, if_pos hstream]
    simp [descentEnter, EnterCall.plain, Resolution.named]
  rw [hhook]
  cases hstep with
  | overflow hfull => exact absurd (hoverflows.symm.trans hfull) (by simp)
  | unlogged _ _ hquiet _ => exact absurd hquiet hview
  | @logged s₀ s₁ view _ hslot hlogged hopen hs₁ =>
    obtain ⟨capacity, rfl, -⟩ := reserveSlot_eq_some hslot
    have hbase : view.callerFunctionBase = none := by
      rw [ThreadState.loggedView] at hlogged
      split_ifs at hlogged
      exact (Option.some.inj hlogged) ▸ rfl
    have hsame : ({ s with capacity := capacity } : ThreadState).enterReclaim b (descentEnter n) =
        { s with capacity := capacity } := by
      rw [enterReclaim_eq, show ({ s with capacity := capacity } : ThreadState).deadOnEnter
        (descentEnter n) = s.deadOnEnter (descentEnter n) from rfl, hdead, popped_zero]
    rw [hsame, show (descentEnter n).threadFp = .ready from rfl] at hs₁ hopen
    rw [enterParentReclaim_eq, hbase, parentDead_none, popped_zero] at hs₁
    obtain ⟨hvalid, hattempted, haligned, hpatchFd⟩ := hfile capacity
    have hfp := getThreadFp_fp hopen
    obtain ⟨file, cursor, valid, hframe, -⟩ :=
      getThreadFp_frame { s with capacity := capacity } b .ready
    rw [hframe] at hs₁ hvalid hattempted hfp haligned hpatchFd
    simp only at hvalid hattempted hfp haligned hpatchFd
    obtain ⟨linePre, -, hlayout⟩ := callLine_layout b (descentEnter n) view s₁
    subst hs₁
    have hwhole : (descentEnter n).written = none := rfl
    refine ⟨⟨hattempted, hfp⟩, ?_, hbounds, hover, hdepth, ?_, hpatchFd, _, _, rfl, rfl, rfl, ?_, ?_, rfl, ?_⟩
    · simp [ThreadState.push, ThreadState.writeCall, ThreadState.appendLine, ThreadState.callLine,
        hvalid, hwhole]
    · simp [ThreadState.push, ThreadState.writeCall, ThreadState.appendLine, ThreadState.callLine,
        TraceFile.fwrite, hpatching, haligned, hwhole]
    · simp [ThreadState.newRecord, ThreadState.writeCall, ThreadState.appendLine, ThreadState.callLine,
        hvalid, hpatching, hwhole]
    · simp [ThreadState.newRecord, ThreadState.writeCall, ThreadState.appendLine, ThreadState.callLine,
        hvalid, hpatching, hwhole, hdepth]
    · have hle := hlayout.length_le
      simp only [ThreadState.callLine] at hle
      simp [ThreadState.newRecord, ThreadState.writeCall, ThreadState.appendLine, ThreadState.callLine,
        ThreadState.push, TraceFile.fwrite, hvalid, hpatching, hwhole, haligned]
      exact hle

lemma descended_zero (hpatching : b.linePatching = true) (earlier : Text) :
    Descended 0 (hookStep b (ThreadState.fresh {} earlier) (.enter (descentEnter 0))) := by
  refine descentEnter_logged hpatching rfl rfl (by simp [ThreadState.fresh]) rfl rfl fun capacity => ?_
  refine ⟨?_, rfl, ?_, ?_⟩ <;>
    simp [ThreadState.getThreadFp, ThreadState.openThisThreadFile, ThreadState.fresh, FpReply.ready,
      OpenReply.succeeds, ThreadState.registerFile, ThreadState.seedCursor, ThreadState.publishFile,
      hpatching]

lemma Descended.succ (hpatching : b.linePatching = true) {n : Nat} (h : Descended n s)
    (hn : n < 4096) : Descended (n + 1) (hookStep b s (.enter (descentEnter (n + 1)))) := by
  obtain ⟨r, rest, hframes, hkey, -⟩ := h.top
  refine descentEnter_logged hpatching h.overflow h.bounds ?_ ?_ (by rw [h.depth]; rfl) ?_
  · rw [hframes]
    intro r' hr'
    obtain rfl := Option.mem_some_iff.mp hr'
    rw [hkey]
    simp only
    omega
  · simp [TraceFile.hasStream, FpReply.ready, h.stream]
  · intro capacity
    rw [getThreadFp_of_openAttempted { s with capacity := capacity } b _ h.stream.1]
    exact ⟨h.valid, h.stream.1, h.aligned, h.patchFd⟩

lemma exec_descent (hpatching : b.linePatching = true) (earlier : Text) (n : Nat) (hn : n < 4096) :
    Descended n (exec (hookStep b) (ThreadState.fresh {} earlier) (descent (n + 1))) := by
  induction n with
  | zero => exact descended_zero hpatching earlier
  | succ n ih =>
    have hlast : descent (n + 1 + 1) = descent (n + 1) ++ [.enter (descentEnter (n + 1))] := by
      simp [descent, List.range_succ]
    rw [hlast, exec_append]
    exact (ih (by omega)).succ hpatching (by omega)

/-- The exit hook that an exception runs marks the record on top. -/
lemma Descended.marked (hexceptions : b.logExceptions = true) {n : Nat} (h : Descended n s) :
    ∃ r ∈ s.markedRecords b (.exit (descentThrow n)), 0 ≤ r.lineStart ∧ r.depth = n ∧
      s.traceFile.content.length ≤ r.lineStart.toNat + formatBufSize := by
  obtain ⟨r, rest, hframes, hkey, hlog, hplaced, hdepth, hcaught, hlast⟩ := h.top
  refine ⟨r, ?_, hplaced, hdepth, hlast⟩
  have habove : s.aboveExiting (descentThrow n) = 0 := by
    rw [aboveExiting_eq (by simp [hframes]), hframes]
    refine deadAtExit_top ?_ (fun _ _ => ?_) fun htail => absurd htail
      (by simp [ExitCall.tailCalled, descentThrow, ExitCall.plain])
    · simp [sameActivationSite, hkey, descentThrow, ExitCall.plain, ExitCall.key]
    · simp [hkey, descentThrow, ExitCall.plain, ExitCall.key, ExitCall.tailCalled]
  have hexiting : s.exitingRecord (descentThrow n) = some r := by
    simp [ThreadState.exitingRecord, h.overflow, habove, hframes]
  simp only [ThreadState.markedRecords, hexceptions, if_true, hexiting]
  refine List.mem_filter.mpr ⟨List.mem_append_right _ ?_, hlog⟩
  simp [ExitCall.byException, hcaught, descentThrow]

lemma headerBuilt_descent (n : Nat) : ∀ ev ∈ descent n, HeaderBuilt ev := by
  intro ev hev
  obtain ⟨i, -, rfl⟩ := List.mem_map.mp hev
  intro r hr
  obtain rfl := Option.mem_some_iff.mp hr
  rfl

theorem cursor_trusted_iff_descent :
    AllSteps (hookStep ⟨true, false, false⟩)
        (fun s ev => CursorTrusted s (hookStep ⟨true, false, false⟩ s ev))
        (ThreadState.fresh {} []) (descent 3) ↔
      AllSteps (hookStep ⟨true, false, false⟩) (MarksInFile ⟨true, false, false⟩)
        (ThreadState.fresh {} []) (descent 3) :=
  cursor_trusted_iff ⟨true, false, false⟩ rfl {} [] (descent 3) (headerBuilt_descent 3)

/-- An exception that leaves a frame whose line lost its glyph makes the file longer than the cursor
says. -/
lemma not_cursorTrusted_descent (hexceptions : b.logExceptions = true) {n : Nat}
    (hdeep : formatBufSize ≤ treeGlyphOffset n b.linePrefixExtra) (hpos : 1 ≤ n) (hn : n < 4096) :
    ¬ AllSteps (hookStep b) (fun s ev => CursorTrusted s (hookStep b s ev))
      (ThreadState.fresh {} []) (descent (n + 1) ++ [.exit (descentThrow n)]) := by
  intro htrusted
  obtain ⟨hdescent, hthrow, -⟩ := (allSteps_append _ _ _).mp htrusted
  have hpatching : b.linePatching = true := by simp [Build.linePatching, hexceptions]
  have hstate := exec_descent hpatching [] n hn
  have htraced := (traced_fresh b {} []).exec hpatching (headerBuilt_descent (n + 1)) hdescent
  have hmarks := htraced.marksInFile hpatching hthrow.cursor
  obtain ⟨r, hr, hplaced, hdepth, hlast⟩ := hstate.marked hexceptions
  have hinside := hmarks hstate.stream.2 hstate.valid (by simp [ThreadState.writesLine]) r hr hplaced
    (by omega)
  rw [hdepth] at hinside
  omega

/-- It happens at depth 675 of a trace without columns. -/
theorem cursor_behind_after_deep_mark :
    ¬ AllSteps (hookStep ⟨true, false, false⟩)
      (fun s ev => CursorTrusted s (hookStep ⟨true, false, false⟩ s ev))
      (ThreadState.fresh {} []) (descent 676 ++ [.exit (descentThrow 675)]) :=
  not_cursorTrusted_descent rfl (Nat.le_refl 2048) (by omega) (by omega)

end CallStackLogger
