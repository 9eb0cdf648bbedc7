import CallStackLogger.Trace.State

/-!
# The trace file: appending, patching and opening

A line is appended through the stream, which was opened for appending; a patch goes through
the second descriptor to an explicit offset. `openThisThreadFile` is called lazily by the first
traced call; every call it makes may fail, and the calls that build strings may throw, which
leaves the state as it is at that point.
-/

namespace CallStackLogger

open Overwrite

/-! ### Appending and patching -/

/-- `fwrite` of one line; `short` is how many bytes arrived when the write fell short. -/
def TraceFile.fwrite (f : TraceFile) (line : Line) : TraceFile :=
  { f with
    content := f.content ++ (match line.short with
      | none   => line.text
      | some k => line.text.take k)
    lines := f.lines ++ [{ line with start := f.content.length }] }

/-- `patch_line_bytes`: rewrites bytes of the line that starts at `lineStart`. -/
def TraceFile.patchLineBytes (f : TraceFile) (activation : Nat) (lineStart : Int)
    (offsetInLine : Nat) (bytes : Text) : TraceFile :=
  if f.patchFd = false ∨ lineStart < 0 then f
  else
    { f with
      content := overwrite '\x00' f.content (lineStart.toNat + offsetInLine) bytes
      patches := f.patches ++ [⟨activation, lineStart.toNat + offsetInLine, bytes⟩] }

/-- `mark_frame_end`: marks a logged frame's line as ended abnormally. -/
def TraceFile.markFrameEnd (f : TraceFile) (b : Build) (record : FrameRecord) (how : Char)
    (field : Option Text) : TraceFile :=
  if record.logged = false ∨ record.lineStart < 0 then f
  else
    let f := match field with
      | some bytes =>
        if b.logElapsed then
          f.patchLineBytes record.activation record.lineStart placeholderOffsetInLine bytes
        else f
      | none => f
    if 1 ≤ record.depth then
      f.patchLineBytes record.activation record.lineStart
        (treeGlyphOffset record.depth b.linePrefixExtra) [how]
    else f

/-- A line written by the thread: in a patching build the cursor follows a full write and is
given up for good after a short one. -/
def ThreadState.appendLine (s : ThreadState) (b : Build) (line : Line) : ThreadState :=
  { s with
    traceFile := s.traceFile.fwrite line
    cursor := if b.linePatching && line.short.isNone then s.cursor + line.text.length else s.cursor
    cursorValid := s.cursorValid && !(b.linePatching && line.short.isSome) }

/-! ### Opening -/

/-- What the calls made by `open_this_thread_file` answer. A `false` for `pathBuilt`,
`headerBuilt` or `registered` is an exception, elsewhere it is an error return. -/
structure OpenReply where
  pathBuilt : Bool
  opened : Bool
  fdopened : Bool
  reopened : Bool
  headerBuilt : Bool
  time : Timestamp
  tid : Nat
  headerShort : Option Nat
  sought : Bool
  shutdownComplete : Bool
  registered : Bool

/-- `write_run_separator_header`: the three lines that open a run. -/
def runSeparatorHeader (time : Timestamp) (tid : Nat) : Text :=
  let middle := "=== New trace run: ".toList ++ time.text ++ ", thread ID: ".toList ++ decimal tid
    ++ " ===".toList
  let frame := List.replicate middle.length '='
  '\n' :: frame ++ '\n' :: middle ++ '\n' :: frame ++ ['\n']

/-- The header as it reached the file. -/
def OpenReply.header (r : OpenReply) : Text :=
  match r.headerShort with
  | none   => runSeparatorHeader r.time r.tid
  | some k => (runSeparatorHeader r.time r.tid).take k

/-- Publishes the two descriptors. -/
def ThreadState.publishFile (s : ThreadState) (b : Build) (r : OpenReply) : ThreadState :=
  { s with traceFile :=
    { s.traceFile with fp := true, patchFd := b.linePatching && r.reopened } }

/-- Writes the header and seeds the cursor from the end of the file. -/
def ThreadState.seedCursor (s : ThreadState) (b : Build) (r : OpenReply) : ThreadState :=
  let content := s.traceFile.content ++ r.header
  { s with
    traceFile :=
      { s.traceFile with content := content, preamble := s.traceFile.preamble ++ r.header }
    cursor := if b.linePatching && r.reopened then (if r.sought then content.length else 0)
      else s.cursor
    cursorValid := if b.linePatching then s.cursorValid && r.reopened && r.sought
      else s.cursorValid }

/-- Registers the file, or closes it when the shutdown has completed. -/
def ThreadState.registerFile (s : ThreadState) (r : OpenReply) : Option Unit × ThreadState :=
  if r.shutdownComplete then
    (some (), { s with traceFile := { s.traceFile with fp := false, patchFd := false } })
  else if r.registered then
    (some (), { s with traceFile := { s.traceFile with registered := true } })
  else (none, s)

/-- `open_this_thread_file`: `none` when an exception leaves it. -/
def ThreadState.openThisThreadFile (s : ThreadState) (b : Build) (r : OpenReply) :
    Option Unit × ThreadState :=
  if s.traceFile.openAttempted then (some (), s)
  else
    let s := { s with traceFile := { s.traceFile with openAttempted := true } }
    if !r.pathBuilt then (none, s)
    else if !r.opened || !r.fdopened then (some (), s)
    else
      let s := s.publishFile b r
      if !r.headerBuilt then (none, s)
      else (s.seedCursor b r).registerFile r

/-- What `get_thread_fp` meets: the two global flags, and the calls an open makes. -/
structure FpReply where
  traceReady : Bool
  shutdownComplete : Bool
  openReply : OpenReply

/-- `get_thread_fp`: whether there is a stream to write to, `none` when it throws. -/
def ThreadState.getThreadFp (s : ThreadState) (b : Build) (r : FpReply) : Option Bool × ThreadState :=
  if !r.traceReady || r.shutdownComplete then (some false, s)
  else
    match s.openThisThreadFile b r.openReply with
    | (none, s)   => (none, s)
    | (some _, s) => (some s.traceFile.fp, s)

/-! ### What these steps leave alone -/

variable (s : ThreadState) (b : Build)

/-- Opening touches the file, the cursor and nothing else, and writes no line. -/
lemma openThisThreadFile_frame (r : OpenReply) :
    ∃ file cursor valid, (s.openThisThreadFile b r).2 =
      { s with traceFile := file, cursor := cursor, cursorValid := valid } ∧
      file.lines = s.traceFile.lines := by
  rw [ThreadState.openThisThreadFile]
  split_ifs
  · exact ⟨_, _, _, rfl, rfl⟩
  · exact ⟨_, _, _, rfl, rfl⟩
  · exact ⟨_, _, _, rfl, rfl⟩
  · exact ⟨_, _, _, rfl, rfl⟩
  · rw [ThreadState.registerFile]
    split_ifs <;> exact ⟨_, _, _, rfl, rfl⟩

lemma getThreadFp_frame (r : FpReply) :
    ∃ file cursor valid, (s.getThreadFp b r).2 =
      { s with traceFile := file, cursor := cursor, cursorValid := valid } ∧
      file.lines = s.traceFile.lines := by
  obtain ⟨file, cursor, valid, h, hlines⟩ := openThisThreadFile_frame s b r.openReply
  rw [ThreadState.getThreadFp]
  split_ifs
  · exact ⟨_, _, _, rfl, rfl⟩
  · rcases hopen : s.openThisThreadFile b r.openReply with ⟨_ | _, s'⟩ <;>
      exact ⟨file, cursor, valid, by rw [hopen] at h; exact h, hlines⟩

@[simp] lemma getThreadFp_frames (r : FpReply) : (s.getThreadFp b r).2.frames = s.frames := by
  obtain ⟨_, _, _, h, -⟩ := getThreadFp_frame s b r
  rw [h]

@[simp] lemma getThreadFp_stackBounds (r : FpReply) :
    (s.getThreadFp b r).2.stackBounds = s.stackBounds := by
  obtain ⟨_, _, _, h, -⟩ := getThreadFp_frame s b r
  rw [h]

/-- Once the open has been attempted, asking for the stream changes nothing. -/
lemma getThreadFp_of_openAttempted (r : FpReply) (h : s.traceFile.openAttempted = true) :
    (s.getThreadFp b r).2 = s := by
  rw [ThreadState.getThreadFp, ThreadState.openThisThreadFile]
  rw [if_pos h]
  split_ifs <;> rfl

/-! ### Patches touch the content alone -/

/-- `f'` is what some patches make of `f`. -/
def TraceFile.PatchedTo (f f' : TraceFile) : Prop :=
  ∃ content patches, f' = { f with content := content, patches := patches }

namespace TraceFile.PatchedTo

variable {f f' f'' : TraceFile}

lemma refl (f : TraceFile) : f.PatchedTo f := ⟨_, _, rfl⟩

lemma trans (h : f.PatchedTo f') (h' : f'.PatchedTo f'') : f.PatchedTo f'' := by
  obtain ⟨_, _, rfl⟩ := h
  obtain ⟨_, _, rfl⟩ := h'
  exact ⟨_, _, rfl⟩

lemma lines_eq (h : f.PatchedTo f') : f'.lines = f.lines := by
  obtain ⟨_, _, rfl⟩ := h
  rfl

end TraceFile.PatchedTo

/-- The writes of a list of patches, through the second descriptor. -/
def TraceFile.patchAll (f : TraceFile) (patches : List Patch) : TraceFile :=
  if f.patchFd = false then f
  else
    { f with
      content := overwriteAll '\x00' f.content (patches.map fun p => (p.offset, p.bytes))
      patches := f.patches ++ patches }

@[simp] lemma patchAll_nil (f : TraceFile) : f.patchAll [] = f := by
  simp [TraceFile.patchAll]

lemma patchAll_append (f : TraceFile) (ps ps' : List Patch) :
    f.patchAll (ps ++ ps') = (f.patchAll ps).patchAll ps' := by
  unfold TraceFile.patchAll
  by_cases hfd : f.patchFd = false
  · simp [hfd]
  · simp [hfd, overwriteAll_append]

lemma patchedTo_patchAll (f : TraceFile) (ps : List Patch) : f.PatchedTo (f.patchAll ps) := by
  rw [TraceFile.patchAll]
  split_ifs
  · exact .refl f
  · exact ⟨_, _, rfl⟩

/-- The patch of `patch_line_bytes`, if the record's line start is known. -/
def linePatch (activation : Nat) (lineStart : Int) (offsetInLine : Nat) (bytes : Text) : List Patch :=
  if lineStart < 0 then [] else [⟨activation, lineStart.toNat + offsetInLine, bytes⟩]

lemma patchLineBytes_eq (f : TraceFile) (activation : Nat) (lineStart : Int) (offset : Nat)
    (bytes : Text) :
    f.patchLineBytes activation lineStart offset bytes =
      f.patchAll (linePatch activation lineStart offset bytes) := by
  by_cases hstart : lineStart < 0
  · simp [TraceFile.patchLineBytes, linePatch, hstart]
  · by_cases hfd : f.patchFd = false
    · simp [TraceFile.patchLineBytes, TraceFile.patchAll, hfd]
    · simp [TraceFile.patchLineBytes, TraceFile.patchAll, linePatch, hfd, hstart]

/-- The rewrite of a record's duration field. -/
def fieldPatches (b : Build) (record : FrameRecord) : Option Text → List Patch
  | some bytes =>
    if b.logElapsed then
      linePatch record.activation record.lineStart placeholderOffsetInLine bytes
    else []
  | none       => []

/-- The mark in a record's glyph column. -/
def markPatches (b : Build) (record : FrameRecord) (how : Char) : List Patch :=
  if 1 ≤ record.depth then
    linePatch record.activation record.lineStart (treeGlyphOffset record.depth b.linePrefixExtra) [how]
  else []

/-- The patches of `mark_frame_end`. -/
def framePatches (b : Build) (record : FrameRecord) (how : Char) (field : Option Text) : List Patch :=
  if record.logged then fieldPatches b record field ++ markPatches b record how else []

lemma markFrameEnd_eq (f : TraceFile) (b : Build) (record : FrameRecord) (how : Char)
    (field : Option Text) :
    f.markFrameEnd b record how field = f.patchAll (framePatches b record how field) := by
  unfold TraceFile.markFrameEnd framePatches
  by_cases hlog : record.logged
  · by_cases hstart : record.lineStart < 0
    · cases field <;> simp [hlog, hstart, fieldPatches, markPatches, linePatch]
    · have hmarked : ¬ (record.logged = false ∨ record.lineStart < 0) := by simp [hlog, hstart]
      rw [if_neg hmarked, if_pos hlog, patchAll_append]
      cases field with
      | none => simp only [fieldPatches, markPatches]; split_ifs <;> simp [patchLineBytes_eq]
      | some bytes => simp only [fieldPatches, markPatches]; split_ifs <;> simp [patchLineBytes_eq]
  · simp [hlog]

end CallStackLogger
