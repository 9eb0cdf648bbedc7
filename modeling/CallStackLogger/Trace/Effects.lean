import CallStackLogger.Format.Layout
import CallStackLogger.Trace.Steps

/-!
# What a step does to the file

Seen from the file, every event does the same: the stream may be opened, the lines of some records
are patched, and at most one line is appended. `stepPatches` and `writesLine` compute from the
state before the event what is patched and whether a line is written; `FileEffect` says that
this is all that happens, and what the records on the stack have to do with it.
-/

namespace CallStackLogger

open Overwrite

variable {b : Build} {s s' : ThreadState}

/-! ### What a step reads -/

/-- How many bytes of the event's line arrive when its write falls short. -/
def HookEvent.written : HookEvent → Option Nat
  | .enter e        => e.written
  | .exit _         => none
  | .thrown _ c     => c.line.written
  | .caught c       => c.line.written
  | .terminated _ c => c.line.written

def HookEvent.fpReply : HookEvent → Option FpReply
  | .enter e        => some e.threadFp
  | .exit _         => none
  | .thrown _ c     => some c.line.threadFp
  | .caught c       => some c.line.threadFp
  | .terminated _ c => some c.line.threadFp

/-- A file the event opens gets its header. -/
def HeaderBuilt (ev : HookEvent) : Prop := ∀ r ∈ ev.fpReply, r.openReply.headerBuilt = true

/-- The reply to an event that gets as far as asking for the stream. -/
def ThreadState.asksForStream (s : ThreadState) (b : Build) : HookEvent → Option FpReply
  | .enter e        => if s.overflows e || s.chainThrows e then none else some e.threadFp
  | .exit _         => none
  | .thrown _ c     => if b.logExceptions && c.named then some c.line.threadFp else none
  | .caught c       =>
    if b.logExceptions && c.named && !s.catchThrows c then some c.line.threadFp else none
  | .terminated _ c => if b.logExceptions && c.named then some c.line.threadFp else none

/-- Whether a file is opened whose header then fails to be built. -/
def TraceFile.opensHeadless (f : TraceFile) (r : FpReply) : Bool :=
  !f.openAttempted && r.traceReady && !r.shutdownComplete && r.openReply.pathBuilt &&
    r.openReply.opened && r.openReply.fdopened && !r.openReply.headerBuilt

/-- Whether the event leaves a file open without its header. -/
def ThreadState.opensHeadless (s : ThreadState) (b : Build) (ev : HookEvent) : Bool :=
  (s.asksForStream b ev).any s.traceFile.opensHeadless

lemma asksForStream_reply {ev : HookEvent} {r : FpReply} (h : s.asksForStream b ev = some r) :
    ev.fpReply = some r := by
  cases ev <;> simp_all [ThreadState.asksForStream, HookEvent.fpReply]

/-- When every header is built, no file is left without one. -/
lemma HeaderBuilt.opensHeadless {ev : HookEvent} (h : HeaderBuilt ev) : s.opensHeadless b ev = false := by
  rw [ThreadState.opensHeadless]
  cases hasks : s.asksForStream b ev with
  | none => rfl
  | some r => simp [TraceFile.opensHeadless, h r (asksForStream_reply hasks)]

/-- Whether the event writes a line. -/
def ThreadState.writesLine (s : ThreadState) (b : Build) : HookEvent → Bool
  | .enter e        => (s.loggedView e).isSome
  | .exit _         => false
  | .thrown _ c     => b.logExceptions && c.named && s.traceFile.hasStream c.line.threadFp
  | .caught c       =>
    b.logExceptions && c.named && !s.catchThrows c && s.traceFile.hasStream c.line.threadFp
  | .terminated _ c => b.logExceptions && c.named && s.traceFile.hasStream c.line.threadFp

/-- The record the exit hook takes for its own. -/
def ThreadState.exitingRecord (s : ThreadState) (x : ExitCall) : Option FrameRecord :=
  if 0 < s.frameOverflowCount then none else (s.frames.drop (s.aboveExiting x)).head?

/-- The records the exit hook reclaims. -/
def ThreadState.exitDead (s : ThreadState) (x : ExitCall) : List FrameRecord :=
  if 0 < s.frameOverflowCount then [] else s.frames.take (s.aboveExiting x)

/-- The records an event ends: those it reclaims and the one whose exit hook runs. -/
def ThreadState.endedRecords (s : ThreadState) : HookEvent → List FrameRecord
  | .enter e        => s.frames.take (s.enterDead e)
  | .exit x         => s.exitDead x ++ (s.exitingRecord x).toList
  | .thrown _ _     => []
  | .caught c       => s.frames.take (s.catchDead c)
  | .terminated _ _ => []

/-- The records whose lines an event marks as ended abnormally. -/
def ThreadState.markedRecords (s : ThreadState) (b : Build) (ev : HookEvent) : List FrameRecord :=
  if b.logExceptions then
    (match ev with
      | .enter e        => s.frames.take (s.enterDead e)
      | .exit x         => s.exitDead x ++ (s.exitingRecord x).toList.filter x.byException
      | .thrown _ _     => []
      | .caught c       => s.frames.take (s.catchDead c)
      | .terminated _ _ => []).filter (·.logged)
  else []

/-- The patches of an event. -/
def ThreadState.stepPatches (s : ThreadState) (b : Build) : HookEvent → List Patch
  | .enter e        =>
    (s.frames.take (s.enterDead e)).flatMap (deadPatches b (reclaimMark .atEnter e.uncaught))
  | .exit x         =>
    (s.exitDead x).flatMap (deadPatches b frameEndJump)
      ++ ((s.exitingRecord x).toList.filter (·.logged)).flatMap (leftPatches b x)
  | .thrown _ _     => []
  | .caught c       =>
    if b.logExceptions then
      (s.frames.take (s.catchDead c)).flatMap (deadPatches b frameEndException)
    else []
  | .terminated _ _ => []

/-! ### The two kinds of patches -/

/-- A rewrite of the record's duration field. -/
structure FieldPatch (b : Build) (r : FrameRecord) (p : Patch) : Prop where
  elapsed : b.logElapsed = true
  placed : 0 ≤ r.lineStart
  logged : r.logged = true
  owner : p.activation = r.activation
  offset : p.offset = r.lineStart.toNat + placeholderOffsetInLine
  length : p.bytes.length = durationFieldWidth

/-- A mark in the glyph column of the record's line. -/
structure MarkPatch (b : Build) (r : FrameRecord) (p : Patch) : Prop where
  placed : 0 ≤ r.lineStart
  deep : 1 ≤ r.depth
  owner : p.activation = r.activation
  offset : p.offset = r.lineStart.toNat + treeGlyphOffset r.depth b.linePrefixExtra
  length : p.bytes.length = 1

lemma mem_linePatch {activation offset : Nat} {lineStart : Int} {bytes : Text} {p : Patch} :
    p ∈ linePatch activation lineStart offset bytes ↔
      0 ≤ lineStart ∧ p = ⟨activation, lineStart.toNat + offset, bytes⟩ := by
  rw [linePatch]
  split_ifs with hstart
  · simp only [List.not_mem_nil, false_iff, not_and]
    intro hplaced
    omega
  · simp only [List.mem_singleton]
    exact ⟨fun h => ⟨by omega, h⟩, fun h => h.2⟩

/-- The patches of a marked frame are its field and its mark. -/
lemma framePatches_cases {r : FrameRecord} {how : Char} {field : Option Text} {p : Patch}
    (hfield : ∀ bytes ∈ field, bytes.length = durationFieldWidth)
    (hp : p ∈ framePatches b r how field) :
    r.logged = true ∧ (FieldPatch b r p ∨ MarkPatch b r p) := by
  rw [framePatches] at hp
  split_ifs at hp with hlog
  · refine ⟨hlog, ?_⟩
    rcases List.mem_append.mp hp with hp | hp
    · cases field with
      | none => simp [fieldPatches] at hp
      | some bytes =>
        rw [fieldPatches] at hp
        split_ifs at hp with helapsed
        · obtain ⟨hplaced, rfl⟩ := mem_linePatch.mp hp
          exact .inl ⟨helapsed, hplaced, hlog, rfl, rfl, hfield bytes rfl⟩
        · simp at hp
    · rw [markPatches] at hp
      split_ifs at hp with hdepth
      · obtain ⟨hplaced, rfl⟩ := mem_linePatch.mp hp
        exact .inr ⟨hplaced, hdepth, rfl, rfl, rfl⟩
      · simp at hp
  · simp at hp

/-- A logged frame of a nested line is marked whenever its line start is known. -/
lemma framePatches_mark {r : FrameRecord} (how : Char) (field : Option Text) (hlog : r.logged = true)
    (hplaced : 0 ≤ r.lineStart) (hdepth : 1 ≤ r.depth) :
    ∃ p ∈ framePatches b r how field, MarkPatch b r p := by
  refine ⟨⟨r.activation, r.lineStart.toNat + treeGlyphOffset r.depth b.linePrefixExtra, [how]⟩, ?_,
    hplaced, hdepth, rfl, rfl, rfl⟩
  simp only [framePatches, markPatches, hlog, hdepth, if_true]
  exact List.mem_append_right _ (mem_linePatch.mpr ⟨hplaced, rfl⟩)

lemma length_unwoundField {how : Char} :
    ∀ bytes ∈ unwoundField b how, bytes.length = durationFieldWidth := by
  intro bytes hbytes
  rw [unwoundField] at hbytes
  split_ifs at hbytes
  · obtain rfl := Option.mem_some_iff.mp hbytes
    rw [length_setDurationFlag, length_durationUnwound]
  · simp at hbytes

lemma length_durationField (b : Build) (x : ExitCall) (r : FrameRecord) :
    (x.durationField b r).length = durationFieldWidth := by
  unfold ExitCall.durationField
  simp only
  split_ifs
  · rw [length_setDurationFlag, length_formatDuration12chars]
  · exact length_formatDuration12chars _

/-- What a patch of a reclaimed record is. -/
lemma deadPatches_cases {dead : List FrameRecord} {how : Char} {p : Patch}
    (hp : p ∈ dead.flatMap (deadPatches b how)) :
    b.logExceptions = true ∧ ∃ r ∈ dead, r.logged = true ∧ (FieldPatch b r p ∨ MarkPatch b r p) := by
  obtain ⟨r, hr, hp⟩ := List.mem_flatMap.mp hp
  rw [deadPatches] at hp
  split_ifs at hp with hexceptions
  · exact ⟨hexceptions, r, hr, framePatches_cases length_unwoundField hp⟩
  · simp at hp

lemma mem_frames_of_mem_endedRecords {ev : HookEvent} {r : FrameRecord} (hr : r ∈ s.endedRecords ev) :
    r ∈ s.frames := by
  cases ev with
  | enter e => exact List.mem_of_mem_take hr
  | exit x =>
    rcases List.mem_append.mp hr with hr | hr
    · rw [ThreadState.exitDead] at hr
      split_ifs at hr
      · simp at hr
      · exact List.mem_of_mem_take hr
    · rw [ThreadState.exitingRecord] at hr
      split_ifs at hr
      · simp at hr
      · exact List.mem_of_mem_drop (List.mem_of_mem_head? (by simpa using hr))
  | thrown kind c => simp [ThreadState.endedRecords] at hr
  | caught c => exact List.mem_of_mem_take hr
  | terminated reason c => simp [ThreadState.endedRecords] at hr

/-- Only records that end are marked. -/
lemma mem_endedRecords_of_mem_markedRecords {ev : HookEvent} {r : FrameRecord}
    (hr : r ∈ s.markedRecords b ev) : r ∈ s.endedRecords ev ∧ r.logged = true := by
  unfold ThreadState.markedRecords at hr
  split_ifs at hr
  · obtain ⟨hr, hlog⟩ := List.mem_filter.mp hr
    refine ⟨?_, hlog⟩
    cases ev with
    | enter e => exact hr
    | exit x =>
      rcases List.mem_append.mp hr with hr | hr
      · exact List.mem_append_left _ hr
      · exact List.mem_append_right _ (List.mem_of_mem_filter hr)
    | thrown kind c => simp at hr
    | caught c => exact hr
    | terminated reason c => simp at hr
  · simp at hr

lemma mem_frames_of_mem_markedRecords {ev : HookEvent} {r : FrameRecord}
    (hr : r ∈ s.markedRecords b ev) : r ∈ s.frames :=
  mem_frames_of_mem_endedRecords (mem_endedRecords_of_mem_markedRecords hr).1

/-- Every patch of a step rewrites the field of a record that ends, or marks one of the marked
records. -/
lemma stepPatches_cases {ev : HookEvent} {p : Patch} (hp : p ∈ s.stepPatches b ev) :
    (∃ r ∈ s.endedRecords ev, FieldPatch b r p) ∨ ∃ r ∈ s.markedRecords b ev, MarkPatch b r p := by
  have hdead : ∀ {dead : List FrameRecord} {how : Char}, (∀ r ∈ dead, r ∈ s.endedRecords ev) →
      (∀ r ∈ dead, b.logExceptions = true → r.logged = true → r ∈ s.markedRecords b ev) →
      p ∈ dead.flatMap (deadPatches b how) →
      (∃ r ∈ s.endedRecords ev, FieldPatch b r p) ∨ ∃ r ∈ s.markedRecords b ev, MarkPatch b r p := by
    intro dead how hended hmarked hp
    obtain ⟨hexceptions, r, hr, hlog, hfield | hmark⟩ := deadPatches_cases hp
    · exact .inl ⟨r, hended r hr, hfield⟩
    · exact .inr ⟨r, hmarked r hr hexceptions hlog, hmark⟩
  cases ev with
  | enter e =>
    refine hdead (fun r hr => hr) (fun r hr hexceptions hlog => ?_) hp
    simp only [ThreadState.markedRecords, hexceptions, if_true]
    exact List.mem_filter.mpr ⟨hr, hlog⟩
  | exit x =>
    rcases List.mem_append.mp hp with hp | hp
    · refine hdead (fun r hr => List.mem_append_left _ hr) (fun r hr hexceptions hlog => ?_) hp
      simp only [ThreadState.markedRecords, hexceptions, if_true]
      exact List.mem_filter.mpr ⟨List.mem_append_left _ hr, hlog⟩
    · obtain ⟨r, hr, hp⟩ := List.mem_flatMap.mp hp
      obtain ⟨hr, hlog⟩ := List.mem_filter.mp hr
      have hended : r ∈ s.endedRecords (.exit x) := List.mem_append_right _ hr
      rcases List.mem_append.mp hp with hp | hp
      · split_ifs at hp with helapsed
        · obtain ⟨hplaced, rfl⟩ := mem_linePatch.mp hp
          exact .inl ⟨r, hended, helapsed, hplaced, hlog, rfl, rfl, length_durationField b x r⟩
        · simp at hp
      · split_ifs at hp with hmarks
        · simp only [Bool.and_eq_true] at hmarks
          obtain ⟨-, hfield | hmark⟩ := framePatches_cases (by simp) hp
          · exact .inl ⟨r, hended, hfield⟩
          · refine .inr ⟨r, ?_, hmark⟩
            simp only [ThreadState.markedRecords, hmarks.1, if_true]
            exact List.mem_filter.mpr ⟨List.mem_append_right _ (List.mem_filter.mpr ⟨hr, hmarks.2⟩), hlog⟩
        · simp at hp
  | thrown kind c => simp [ThreadState.stepPatches] at hp
  | caught c =>
    simp only [ThreadState.stepPatches] at hp
    split_ifs at hp with hexceptions
    · refine hdead (fun r hr => hr) (fun r hr _ hlog => ?_) hp
      simp only [ThreadState.markedRecords, hexceptions, if_true]
      exact List.mem_filter.mpr ⟨hr, hlog⟩
    · simp at hp
  | terminated reason c => simp [ThreadState.stepPatches] at hp

/-- Every marked record whose line start is known is marked by a patch of the step. -/
lemma exists_markPatch {ev : HookEvent} {r : FrameRecord} (hr : r ∈ s.markedRecords b ev)
    (hplaced : 0 ≤ r.lineStart) (hdepth : 1 ≤ r.depth) :
    ∃ p ∈ s.stepPatches b ev, MarkPatch b r p := by
  unfold ThreadState.markedRecords at hr
  split_ifs at hr with hexceptions
  · obtain ⟨hr, hlog⟩ := List.mem_filter.mp hr
    have hdead : ∀ {dead : List FrameRecord} (how : Char), r ∈ dead →
        ∃ p ∈ dead.flatMap (deadPatches b how), MarkPatch b r p := by
      intro dead how hr
      obtain ⟨p, hp, hmark⟩ := framePatches_mark how (unwoundField b how) hlog hplaced hdepth
      refine ⟨p, List.mem_flatMap.mpr ⟨r, hr, ?_⟩, hmark⟩
      simpa [deadPatches, hexceptions] using hp
    cases ev with
    | enter e => exact hdead _ hr
    | exit x =>
      rcases List.mem_append.mp hr with hr | hr
      · obtain ⟨p, hp, hmark⟩ := hdead frameEndJump hr
        exact ⟨p, List.mem_append_left _ hp, hmark⟩
      · obtain ⟨hr, hby⟩ := List.mem_filter.mp hr
        obtain ⟨p, hp, hmark⟩ := framePatches_mark frameEndException none hlog hplaced hdepth
        refine ⟨p, List.mem_append_right _ (List.mem_flatMap.mpr ⟨r, ?_, ?_⟩), hmark⟩
        · exact List.mem_filter.mpr ⟨hr, hlog⟩
        · refine List.mem_append_right _ ?_
          simpa [hexceptions, hby] using hp
    | thrown kind c => simp at hr
    | caught c =>
      obtain ⟨p, hp, hmark⟩ := hdead frameEndException hr
      exact ⟨p, by simpa [ThreadState.stepPatches, hexceptions] using hp, hmark⟩
    | terminated reason c => simp at hr
  · simp at hr

/-- In a `LOG_ELAPSED` build the field of every logged record that ends is rewritten, whenever its line
start is known. -/
lemma exists_fieldPatch {ev : HookEvent} {r : FrameRecord} (hexceptions : b.logExceptions = true)
    (helapsed : b.logElapsed = true) (hr : r ∈ s.endedRecords ev) (hlog : r.logged = true)
    (hplaced : 0 ≤ r.lineStart) : ∃ p ∈ s.stepPatches b ev, FieldPatch b r p := by
  have hdead : ∀ {dead : List FrameRecord} (how : Char), r ∈ dead →
      ∃ p ∈ dead.flatMap (deadPatches b how), FieldPatch b r p := by
    intro dead how hr
    refine ⟨⟨r.activation, r.lineStart.toNat + placeholderOffsetInLine,
      setDurationFlag durationUnwound how⟩, List.mem_flatMap.mpr ⟨r, hr, ?_⟩, helapsed, hplaced, hlog, rfl,
      rfl, ?_⟩
    · simp only [deadPatches, hexceptions, framePatches, hlog, unwoundField, helapsed, fieldPatches, if_true]
      exact List.mem_append_left _ (mem_linePatch.mpr ⟨hplaced, rfl⟩)
    · rw [length_setDurationFlag, length_durationUnwound]
  cases ev with
  | enter e => exact hdead _ hr
  | exit x =>
    rcases List.mem_append.mp hr with hr | hr
    · obtain ⟨p, hp, hfield⟩ := hdead frameEndJump hr
      exact ⟨p, List.mem_append_left _ hp, hfield⟩
    · refine ⟨⟨r.activation, r.lineStart.toNat + placeholderOffsetInLine, x.durationField b r⟩,
        List.mem_append_right _ (List.mem_flatMap.mpr ⟨r, List.mem_filter.mpr ⟨hr, hlog⟩, ?_⟩), helapsed,
        hplaced, hlog, rfl, rfl, length_durationField b x r⟩
      refine List.mem_append_left _ ?_
      simpa [helapsed] using mem_linePatch.mpr ⟨hplaced, rfl⟩
  | thrown kind c => simp [ThreadState.endedRecords] at hr
  | caught c =>
    obtain ⟨p, hp, hfield⟩ := hdead frameEndException hr
    refine ⟨p, ?_, hfield⟩
    rw [ThreadState.stepPatches, if_pos hexceptions]
    exact hp
  | terminated reason c => simp [ThreadState.endedRecords] at hr

/-! ### Opening the stream -/

/-- What asking for the stream makes of file and cursor: nothing, an attempt to open, or a file that is
open without its header. -/
inductive StreamStep (headless : Bool) (f : TraceFile) (cursor : Nat) (valid : Bool) :
    TraceFile → Nat → Bool → Prop where
  | same (hheader : headless = false) : StreamStep headless f cursor valid f cursor valid
  | headless (patchFd : Bool) (hheader : headless = true) (hfirst : f.openAttempted = false) :
      StreamStep headless f cursor valid { f with openAttempted := true, fp := true, patchFd := patchFd }
        cursor valid
  | opened {f' : TraceFile} {cursor' : Nat} {valid' : Bool} (header : Text) (hheader : headless = false)
      (hfirst : f.openAttempted = false) (hattempted : f'.openAttempted = true)
      (hcontent : f'.content = f.content ++ header)
      (hpreamble : f'.preamble = f.preamble ++ header) (hlines : f'.lines = f.lines)
      (hpatches : f'.patches = f.patches) (hvalid : valid' = true → valid = true)
      (hcursor : f.fp = false → f'.fp = true → valid' = true →
        cursor' = f'.content.length ∧ f'.patchFd = true) :
      StreamStep headless f cursor valid f' cursor' valid'

lemma getThreadFp_stream (hpatching : b.linePatching = true) (s : ThreadState) (r : FpReply) :
    StreamStep (s.traceFile.opensHeadless r) s.traceFile s.cursor s.cursorValid (s.getThreadFp b r).2.traceFile
      (s.getThreadFp b r).2.cursor (s.getThreadFp b r).2.cursorValid := by
  by_cases hattempted : s.traceFile.openAttempted = true
  · rw [getThreadFp_of_openAttempted s b r hattempted]
    exact .same (by simp [TraceFile.opensHeadless, hattempted])
  · have hfirst : s.traceFile.openAttempted = false := by simpa using hattempted
    rw [ThreadState.getThreadFp]
    split_ifs with hready
    · refine .same ?_
      rcases Bool.or_eq_true_iff.mp hready with hunready | hdown
      · simp [TraceFile.opensHeadless, show r.traceReady = false by simpa using hunready]
      · simp [TraceFile.opensHeadless, hdown]
    · have hopen : StreamStep (s.traceFile.opensHeadless r) s.traceFile s.cursor s.cursorValid
          (s.openThisThreadFile b r.openReply).2.traceFile
          (s.openThisThreadFile b r.openReply).2.cursor
          (s.openThisThreadFile b r.openReply).2.cursorValid := by
        have hready : r.traceReady = true ∧ r.shutdownComplete = false := by simpa using hready
        have hheadless : s.traceFile.opensHeadless r = (r.openReply.pathBuilt && r.openReply.opened &&
            r.openReply.fdopened && !r.openReply.headerBuilt) := by
          simp [TraceFile.opensHeadless, hfirst, hready]
        rw [hheadless]
        rw [ThreadState.openThisThreadFile]
        rw [if_neg hattempted]
        simp only
        split_ifs with hpath hopened hheader
        · exact .opened [] (by simp_all) hfirst rfl (by simp) (by simp) rfl rfl id
            fun hfp hfp' => by simp_all
        · refine .opened [] ?_ hfirst rfl (by simp) (by simp) rfl rfl id fun hfp hfp' => by simp_all
          rcases Bool.or_eq_true_iff.mp hopened with hfd | hstream
          · simp [show r.openReply.opened = false by simpa using hfd]
          · simp [show r.openReply.fdopened = false by simpa using hstream]
        · exact .headless _ (by simp_all) hfirst
        · rw [ThreadState.registerFile]
          have hheader : r.openReply.headerBuilt = true := by simpa using hheader
          have hvalid : (s.cursorValid && r.openReply.reopened && r.openReply.sought) = true →
              s.cursorValid = true := by
            intro h
            simp only [Bool.and_eq_true] at h
            exact h.1.1
          split_ifs
          · refine .opened r.openReply.header (by simp [hheader]) hfirst rfl rfl rfl rfl rfl ?_ ?_
            · simpa [ThreadState.seedCursor, ThreadState.publishFile, hpatching] using hvalid
            · intro _ hfp
              exact absurd hfp (by simp)
          all_goals
            refine .opened r.openReply.header (by simp [hheader]) hfirst rfl rfl rfl rfl rfl ?_ ?_
            · simpa [ThreadState.seedCursor, ThreadState.publishFile, hpatching] using hvalid
            · intro _ _ hvalid'
              simp only [ThreadState.seedCursor, ThreadState.publishFile, hpatching, if_true,
                Bool.and_eq_true, Bool.true_and] at hvalid' ⊢
              simp [hvalid'.1.2, hvalid'.2]
      rcases hreply : s.openThisThreadFile b r.openReply with ⟨_ | _, s₁⟩ <;>
        · rw [hreply] at hopen
          exact hopen

lemma getThreadFp_fp {r : FpReply} (h : (s.getThreadFp b r).1 = some true) :
    (s.getThreadFp b r).2.traceFile.fp = true := by
  rw [ThreadState.getThreadFp] at h ⊢
  split_ifs at h ⊢
  · exact absurd h (by simp)
  · rcases hreply : s.openThisThreadFile b r.openReply with ⟨_ | _, s₁⟩
    · simp [hreply] at h
    · simpa [hreply] using h

/-- Records whose line start is not known leave no patch. -/
lemma deadPatches_of_unplaced (b : Build) (frames : List FrameRecord) (h : ∀ r ∈ frames, r.lineStart < 0)
    (how : Char) : frames.flatMap (deadPatches b how) = [] := by
  rw [List.flatMap_eq_nil_iff]
  intro r hr
  cases hfield : unwoundField b how <;>
    simp [deadPatches, framePatches, fieldPatches, markPatches, linePatch, h r hr, hfield]

/-- Nothing on the stack has a line before the file is opened. -/
def Unplaced (s : ThreadState) : Prop :=
  s.traceFile.openAttempted = false → ∀ r ∈ s.frames, r.lineStart < 0

/-- Reclaiming around the moment the stream is asked for: the stream opens first or there is
nothing to patch. -/
lemma popped_getThreadFp_popped (hpatching : b.linePatching = true) (hunplaced : Unplaced s)
    (how : Char) (n m : Nat) (r : FpReply) :
    ∃ f cursor valid, StreamStep (s.traceFile.opensHeadless r) s.traceFile s.cursor s.cursorValid f cursor valid ∧
      (((s.popped b how n).getThreadFp b r).1 = some true → f.fp = true) ∧
      ((s.popped b how n).getThreadFp b r).2.popped b how m =
        { s.popped b how (n + m) with
          traceFile := f.patchAll ((s.frames.take (n + m)).flatMap (deadPatches b how))
          cursor := cursor
          cursorValid := valid } := by
  by_cases hattempted : s.traceFile.openAttempted = true
  · have hsame : ((s.popped b how n).getThreadFp b r).2 = s.popped b how n := by
      refine getThreadFp_of_openAttempted _ b r ?_
      obtain ⟨_, _, hfile⟩ := patchedTo_markAll s.traceFile b how (s.frames.take n)
      simpa [ThreadState.popped, hfile] using hattempted
    refine ⟨_, _, _, .same (by simp [TraceFile.opensHeadless, hattempted]), fun hopen => ?_, ?_⟩
    · have hfp := getThreadFp_fp hopen
      obtain ⟨_, _, hfile⟩ := patchedTo_markAll s.traceFile b how (s.frames.take n)
      rw [hsame] at hfp
      simpa [ThreadState.popped, hfile] using hfp
    · rw [hsame, popped_popped, ← markAll_eq]
      rfl
  · have hquiet := hunplaced (by simpa using hattempted)
    have hfile : (s.popped b how n).traceFile = s.traceFile := by
      have hnone := deadPatches_of_unplaced b (s.frames.take n)
        (fun r hr => hquiet r (List.mem_of_mem_take hr)) how
      simp [ThreadState.popped, markAll_eq, hnone]
    have hstream := getThreadFp_stream hpatching (s.popped b how n) r
    rw [hfile] at hstream
    refine ⟨_, _, _, hstream, getThreadFp_fp, ?_⟩
    obtain ⟨file, cursor, valid, hframe, -⟩ := getThreadFp_frame (s.popped b how n) b r
    have hpop := popped_popped s b how n m
    have hnone := deadPatches_of_unplaced b (s.frames.take (n + m))
      (fun r hr => hquiet r (List.mem_of_mem_take hr)) how
    have hnone' := deadPatches_of_unplaced b ((s.frames.drop n).take m)
      (fun r hr => hquiet r (List.mem_of_mem_drop (List.mem_of_mem_take hr))) how
    rw [hframe]
    simp only [ThreadState.popped, markAll_eq, hnone, hnone', patchAll_nil, ThreadState.mk.injEq,
      and_true, true_and] at hpop ⊢
    exact ⟨hpop.1, hpop.2.1⟩

/-! ### The effect of a step -/

/-- Appends a line, if there is one. -/
def TraceFile.writeLine (f : TraceFile) : Option Line → TraceFile
  | some line => f.fwrite line
  | none      => f

/-- By how much a line moves the cursor. -/
def cursorShift : Option Line → Nat
  | some line => if line.short.isNone then line.text.length else 0
  | none      => 0

/-- The layout of a logged call's line. -/
def CallLayout (b : Build) (l : Line) : Prop :=
  ∃ linePre : Text, linePre.length = b.prefixWidth ∧
    LineLayout formatBufSize linePre l.depth l.text l.glyph

/-- From the file `f` on, the event patches, writes its line and pushes its record. -/
structure FileEffect (b : Build) (ev : HookEvent) (s s' : ThreadState) (f : TraceFile) (cursor : Nat)
    (valid : Bool) (line : Option Line) : Prop where
  file_eq : s'.traceFile = (f.patchAll (s.stepPatches b ev)).writeLine line
  cursor_eq : s'.cursor = cursor + cursorShift line
  valid_eq : s'.cursorValid = (valid && line.all (·.short.isNone))
  isSome_eq : line.isSome = s.writesLine b ev
  fp_eq : line.isSome = true → f.fp = true
  short_eq : ∀ l ∈ line, l.short = ev.written
  entered_le : s.entered ≤ s'.entered
  owner : ∀ l ∈ line, ∀ a ∈ l.activation, a = s.entered ∧ s.entered < s'.entered ∧ CallLayout b l
  records : ∀ r ∈ s'.frames, r ∈ s.frames ∨
    (r.activation = s.entered ∧ s.entered < s'.entered ∧
      (r.lineStart = -1 ∨ s'.cursorValid = true ∧ ∃ l ∈ line, l.activation = some r.activation ∧
        r.lineStart = cursor ∧ r.depth = l.depth ∧ r.logged = true))

lemma length_durationSplice (b : Build) :
    b.durationSplice.length = if b.logElapsed then durationFieldWidth + 1 else 0 := by
  rw [Build.durationSplice]
  split_ifs <;> rfl

/-- The line of a call is laid out behind a prefix of the build's width. -/
lemma callLine_layout (b : Build) (e : EnterCall) (view : ResolvedFrameView) (s : ThreadState) :
    CallLayout b (s.callLine b e view) := by
  have hwidth : (linePrefix e.timestamp.text b.durationSplice (if b.logAddr then some e.callee else none)).length =
      b.prefixWidth := by
    rw [length_linePrefix, e.timestamp.length_text, length_durationSplice, Build.prefixWidth,
      Build.linePrefixExtra, timestampPrefixWidth]
    cases b.logAddr <;> simp [addrColumn, Nat.add_assoc]
  have hfit : b.prefixWidth < formatBufSize := by
    rcases b with ⟨_ | _, _ | _, _ | _⟩ <;> decide
  have hlayout := formatInto_layout formatBufSize e.timestamp.text
    { view with calleeAddress := if b.logAddr then some e.callee else none }
    (s.currentStackDepth + 1) b.durationSplice (by decide) (hwidth ▸ hfit)
  exact ⟨_, hwidth, hlayout⟩

/-- The stream step and the effect of an event, together. -/
def HasEffect (b : Build) (ev : HookEvent) (s s' : ThreadState) : Prop :=
  ∃ f cursor valid line, StreamStep (s.opensHeadless b ev) s.traceFile s.cursor s.cursorValid f cursor valid ∧
    FileEffect b ev s s' f cursor valid line

/-- An event that writes no line. -/
lemma FileEffect.silent {ev : HookEvent} {f : TraceFile} {cursor : Nat} {valid : Bool}
    (hfile : s'.traceFile = f.patchAll (s.stepPatches b ev)) (hcursor : s'.cursor = cursor)
    (hvalid : s'.cursorValid = valid) (hquiet : s.writesLine b ev = false)
    (hentered : s.entered ≤ s'.entered)
    (hrecords : ∀ r ∈ s'.frames, r ∈ s.frames ∨
      (r.activation = s.entered ∧ s.entered < s'.entered ∧ r.lineStart = -1)) :
    FileEffect b ev s s' f cursor valid none where
  file_eq := hfile
  cursor_eq := hcursor
  valid_eq := by simp [hvalid]
  isSome_eq := hquiet.symm
  fp_eq := by simp
  short_eq := by simp
  entered_le := hentered
  owner := by simp
  records := by
    intro r hr
    rcases hrecords r hr with hold | ⟨hactivation, hlt, hunplaced⟩
    · exact .inl hold
    · exact .inr ⟨hactivation, hlt, .inl hunplaced⟩

/-- An event that appends an event line and leaves the stack alone. -/
lemma FileEffect.eventLine {ev : HookEvent} {f : TraceFile} {cursor n : Nat} {valid : Bool} {l : Line}
    (hpatching : b.linePatching = true)
    (hs' : ∃ t : ThreadState, s' = t.appendLine b l ∧ t.cursor = cursor ∧ t.cursorValid = valid ∧
      t.traceFile = f.patchAll (s.stepPatches b ev) ∧ t.entered = s.entered ∧
      t.frames = s.frames.drop n)
    (hwrites : s.writesLine b ev = true) (hfp : f.fp = true) (howner : l.activation = none)
    (hshort : l.short = ev.written) : FileEffect b ev s s' f cursor valid (some l) := by
  obtain ⟨t, rfl, rfl, rfl, hfile, hentered, hframes⟩ := hs'
  refine ⟨?_, ?_, ?_, hwrites.symm, fun _ => hfp, ?_, hentered ▸ Nat.le_refl _, ?_, ?_⟩
  · simp [ThreadState.appendLine, TraceFile.writeLine, hfile]
  · cases hl : l.short <;> simp [ThreadState.appendLine, cursorShift, hpatching, hl]
  · cases hl : l.short <;> simp [ThreadState.appendLine, hpatching, hl]
  · simpa using hshort
  · simp [howner]
  · intro r hr
    exact .inl (List.mem_of_mem_drop (hframes ▸ hr))

/-- An event that appends the line of a call and pushes its record. -/
lemma FileEffect.callLine {e : EnterCall} {view : ResolvedFrameView} {f : TraceFile} {cursor n : Nat}
    {valid : Bool} (hpatching : b.linePatching = true)
    (hs' : ∃ t : ThreadState, s' = { (t.writeCall b e view).push ((t.writeCall b e view).newRecord b e
        { haveSlot := true, logged := true, level := e.level, nameBase := some view.calleeBaseName,
          lineStart := t.cursor }) with entered := s.entered + 1 } ∧
      t.cursor = cursor ∧ t.cursorValid = valid ∧
      t.traceFile = f.patchAll (s.stepPatches b (.enter e)) ∧ t.entered = s.entered ∧
      t.frames = s.frames.drop n)
    (hwrites : s.writesLine b (.enter e) = true) (hfp : f.fp = true) :
    ∃ l, FileEffect b (.enter e) s s' f cursor valid (some l) := by
  obtain ⟨t, rfl, rfl, rfl, hfile, hentered, hframes⟩ := hs'
  refine ⟨t.callLine b e view, ?_, ?_, ?_, hwrites.symm, fun _ => hfp, ?_, Nat.le_succ _, ?_, ?_⟩
  · simp [ThreadState.writeCall, ThreadState.push, ThreadState.appendLine, TraceFile.writeLine, hfile]
  · cases hl : e.written <;>
      simp [ThreadState.writeCall, ThreadState.push, ThreadState.appendLine, ThreadState.callLine,
        cursorShift, hpatching, hl]
  · cases hl : e.written <;>
      simp [ThreadState.writeCall, ThreadState.push, ThreadState.appendLine, ThreadState.callLine,
        hpatching, hl]
  · simp [ThreadState.callLine, HookEvent.written]
  · intro l hl a ha
    obtain rfl := Option.mem_some_iff.mp hl
    obtain rfl := Option.mem_some_iff.mp ha
    exact ⟨hentered, Nat.lt_succ_self _, callLine_layout b e view t⟩
  · intro r hr
    rcases List.mem_cons.mp hr with rfl | hrest
    · refine .inr ⟨hentered, Nat.lt_succ_self _, ?_⟩
      by_cases hvalid : (t.writeCall b e view).cursorValid = true
      · refine .inr ⟨hvalid, _, rfl, rfl, ?_, ?_, rfl⟩
        · simp [ThreadState.newRecord, hpatching, hvalid]
        · simp only [ThreadState.newRecord, hpatching, hvalid, Bool.and_self, if_true]
          rfl
      · left
        simp [ThreadState.newRecord, hvalid]
    · exact .inl (List.mem_of_mem_drop (hframes ▸ hrest))

/-! ### The effect of each event -/

lemma enter_effect (hpatching : b.linePatching = true) (e : EnterCall) (hunplaced : Unplaced s) :
    HasEffect b (.enter e) s (s.cygProfileFuncEnter b e) := by
  generalize hs' : s.enterFrame b e = s'
  have hstep : EnterStep b e s s' := hs' ▸ enterStep b e s
  have hentered : s.cygProfileFuncEnter b e = { s' with entered := s'.entered + 1 } := by
    simp only [ThreadState.cygProfileFuncEnter, hs']
  rw [hentered]
  cases hstep with
  | overflow hover =>
    have hpatches : s.stepPatches b (.enter e) = [] := by
      simp [ThreadState.stepPatches, ThreadState.enterDead, hover]
    have hquiet : s.writesLine b (.enter e) = false := by
      simp [ThreadState.writesLine, ThreadState.loggedView, hover]
    refine ⟨_, _, _, none, .same ?_, .silent (by rw [hpatches, patchAll_nil]; rfl) rfl rfl hquiet
      (Nat.le_succ _) fun r hr => .inl hr⟩
    simp [ThreadState.opensHeadless, ThreadState.asksForStream, hover]
  | @unlogged s₀ s₁ hover hslot hquiet hfp =>
    obtain ⟨capacity, rfl, -⟩ := reserveSlot_eq_some hslot
    have hdead : s.enterDead e = s.deadOnEnter e := by
      simp [ThreadState.enterDead, hover, hquiet]
    have hwrites : s.writesLine b (.enter e) = false := by
      simp [ThreadState.writesLine, hquiet]
    have hunlogged : ∀ t : ThreadState, ((t.newRecord b e
        { haveSlot := true, level := e.level }).lineStart = -1) := by simp [ThreadState.newRecord]
    rcases hfp with ⟨hthrows, rfl⟩ | ⟨hreads, rfl⟩
    · rw [enterReclaim_eq]
      refine ⟨_, _, _, none, .same ?_, .silent ?_ rfl rfl hwrites (Nat.le_succ _) ?_⟩
      · simp [ThreadState.opensHeadless, ThreadState.asksForStream, hthrows]
      · rw [ThreadState.stepPatches, hdead, ← markAll_eq]
        rfl
      · intro r hr
        rcases List.mem_cons.mp hr with rfl | hrest
        · exact .inr ⟨rfl, Nat.lt_succ_self _, hunlogged _⟩
        · exact .inl (List.mem_of_mem_drop hrest)
    · have hheadless : s.opensHeadless b (.enter e) = s.traceFile.opensHeadless e.threadFp := by
        simp [ThreadState.opensHeadless, ThreadState.asksForStream, hover, hreads]
      rw [enterReclaim_eq]
      obtain ⟨f, cursor, valid, hstream, -, hpop⟩ :=
        popped_getThreadFp_popped (s := { s with capacity := capacity }) hpatching hunplaced
          (reclaimMark .atEnter e.uncaught) (s.deadOnEnter e) 0 e.threadFp
      rw [popped_zero] at hpop
      rw [show ({ s with capacity := capacity } : ThreadState).deadOnEnter e = s.deadOnEnter e from rfl,
        hpop]
      refine ⟨f, cursor, valid, none, hheadless ▸ hstream, .silent ?_ rfl rfl hwrites (Nat.le_succ _) ?_⟩
      · rw [ThreadState.stepPatches, hdead]
        rfl
      · intro r hr
        rcases List.mem_cons.mp hr with rfl | hrest
        · exact .inr ⟨rfl, Nat.lt_succ_self _, hunlogged _⟩
        · exact .inl (List.mem_of_mem_drop hrest)
  | @logged s₀ s₁ view hover hslot hview hopen hs₁ =>
    obtain ⟨capacity, rfl, -⟩ := reserveSlot_eq_some hslot
    have hdead : s.enterDead e = s.deadOnEnter e +
        parentDead (s.frames.drop (s.deadOnEnter e)) e.key s.stackBounds view.callerFunctionBase := by
      simp [ThreadState.enterDead, hover, hview]
    have hwrites : s.writesLine b (.enter e) = true := by
      simp [ThreadState.writesLine, hview]
    rw [enterReclaim_eq] at hopen hs₁
    obtain ⟨f, cursor, valid, hstream, hfp, hpop⟩ :=
      popped_getThreadFp_popped (s := { s with capacity := capacity }) hpatching hunplaced
        (reclaimMark .atEnter e.uncaught) (s.deadOnEnter e)
        (parentDead (s.frames.drop (s.deadOnEnter e)) e.key s.stackBounds view.callerFunctionBase)
        e.threadFp
    rw [enterParentReclaim_eq, getThreadFp_frames, getThreadFp_stackBounds] at hs₁
    have hs₁ := hs₁.trans hpop
    have hentered : s₁.entered = s.entered := by
      rw [hs₁]
      rfl
    obtain ⟨l, heffect⟩ := FileEffect.callLine (n := s.enterDead e) hpatching
      ⟨s₁, rfl, by rw [hs₁], by rw [hs₁], by rw [hs₁, ThreadState.stepPatches, hdead], hentered,
        by rw [hs₁, hdead]; rfl⟩ hwrites (hfp hopen)
    rw [← hentered] at heffect
    have hheadless : s.opensHeadless b (.enter e) = s.traceFile.opensHeadless e.threadFp := by
      simp [ThreadState.opensHeadless, ThreadState.asksForStream, hover, (loggedView_eq_some.mp hview).2.1]
    exact ⟨f, cursor, valid, some l, hheadless ▸ hstream, heffect⟩

lemma exit_effect (b : Build) (x : ExitCall) (s : ThreadState) :
    HasEffect b (.exit x) s (s.cygProfileFuncExit b x) := by
  generalize hs' : s.cygProfileFuncExit b x = s'
  have hstep : ExitStep b x s s' := hs' ▸ exitStep b x s
  cases hstep with
  | drained hover =>
    refine ⟨_, _, _, none, .same rfl, .silent ?_ rfl rfl rfl (Nat.le_refl _) fun r hr => .inl hr⟩
    simp [ThreadState.stepPatches, ThreadState.exitDead, ThreadState.exitingRecord, hover]
  | empty hover hempty =>
    refine ⟨_, _, _, none, .same rfl, .silent ?_ rfl rfl rfl (Nat.le_refl _) fun r hr => .inl hr⟩
    simp [ThreadState.stepPatches, ThreadState.exitDead, ThreadState.exitingRecord, hover, hempty]
  | @left record rest hover hrec =>
    have hpatches : s.stepPatches b (.exit x) =
        (s.frames.take (s.aboveExiting x)).flatMap (deadPatches b frameEndJump) ++
          if record.logged then leftPatches b x record else [] := by
      simp only [ThreadState.stepPatches, ThreadState.exitDead, ThreadState.exitingRecord, hover,
        Nat.lt_irrefl, if_false, hrec, List.head?_cons]
      cases hlog : record.logged <;> simp [hlog]
    rw [leaveFrame_eq (s := s.popped b frameEndJump (s.aboveExiting x)) hrec]
    refine ⟨_, _, _, none, .same rfl, .silent ?_ rfl rfl rfl (Nat.le_refl _) fun r hr => .inl ?_⟩
    · rw [hpatches, patchAll_append, ← markAll_eq]
      cases record.logged
      · simp [ThreadState.popped]
      · simp [ThreadState.popped, markLeft_eq]
    · exact List.mem_of_mem_drop (hrec ▸ List.mem_cons_of_mem _ hr)

/-- Writing an event line behind the reclaim of `n` records. -/
lemma EventStep.effect (hpatching : b.linePatching = true) {ev : HookEvent} {r : LineReply} {n : Nat}
    {how : Char} (hunplaced : Unplaced s) (hasks : s.asksForStream b ev = some r.threadFp)
    (hpatches : s.stepPatches b ev = (s.frames.take n).flatMap (deadPatches b how))
    (hwrites : s.writesLine b ev = s.traceFile.hasStream r.threadFp) (hshort : ev.written = r.written)
    (hstep : EventStep b r (s.popped b how n) s') : HasEffect b ev s s' := by
  obtain ⟨f, cursor, valid, hstream, hfp, hpop⟩ :=
    popped_getThreadFp_popped hpatching hunplaced how n 0 r.threadFp
  rw [popped_zero, Nat.add_zero, ← hpatches] at hpop
  have hstream : StreamStep (s.opensHeadless b ev) s.traceFile s.cursor s.cursorValid f cursor valid := by
    rw [ThreadState.opensHeadless, hasks]
    exact hstream
  have hhas := popped_hasStream s b how n r.threadFp
  cases hstep with
  | silent hclosed =>
    refine ⟨f, cursor, valid, none, hstream, .silent ?_ ?_ ?_ ?_ ?_ ?_⟩
    · rw [hpop]
    · rw [hpop]
    · rw [hpop]
    · rw [hwrites, ← hhas, hclosed]
    · rw [hpop]
      exact Nat.le_refl _
    · intro r hr
      rw [hpop] at hr
      exact .inl (List.mem_of_mem_drop hr)
  | @line l hopen howner hdepth hline =>
    refine ⟨f, cursor, valid, some l, hstream, .eventLine (n := n) hpatching ?_ ?_ ?_ howner ?_⟩
    · exact ⟨_, rfl, by rw [hpop], by rw [hpop], by rw [hpop], by rw [hpop]; rfl, by rw [hpop]; rfl⟩
    · rw [hwrites, ← hhas, hopen]
    · exact hfp ((getThreadFp_fst _ b _).mpr hopen)
    · rw [hline, hshort]

/-- An event that leaves the state alone. -/
lemma HasEffect.nothing {ev : HookEvent} (hpatches : s.stepPatches b ev = [])
    (hquiet : s.writesLine b ev = false) (hasks : s.asksForStream b ev = none) : HasEffect b ev s s :=
  ⟨_, _, _, none, .same (by simp [ThreadState.opensHeadless, hasks]),
    .silent (by rw [hpatches, patchAll_nil]) rfl rfl hquiet (Nat.le_refl _) fun _ hr => .inl hr⟩

lemma caught_effect (hpatching : b.linePatching = true) (hexceptions : b.logExceptions = true)
    (c : EventCall) (hunplaced : Unplaced s) :
    HasEffect b (.caught c) s (s.onCatch b c).1 := by
  have hpatches : s.stepPatches b (.caught c) =
      (s.frames.take (s.catchDead c)).flatMap (deadPatches b frameEndException) := by
    simp [ThreadState.stepPatches, hexceptions]
  generalize hs' : (s.onCatch b c).1 = s'
  have hstep : CatchStep b c s s' := hs' ▸ catchStep b c s
  cases hstep with
  | popped hquiet =>
    refine ⟨_, _, _, none, .same ?_, .silent ?_ rfl rfl ?_ (Nat.le_refl _) fun r hr => .inl ?_⟩
    · rcases hquiet with hquiet | hquiet <;>
        simp [ThreadState.opensHeadless, ThreadState.asksForStream, hquiet]
    · rw [hpatches, ← markAll_eq]
      rfl
    · rcases hquiet with hquiet | hquiet <;> simp [ThreadState.writesLine, hquiet]
    · exact List.mem_of_mem_drop hr
  | written hnamed hreads hline =>
    refine hline.effect hpatching hunplaced ?_ hpatches ?_ rfl
    · simp [ThreadState.asksForStream, hexceptions, hnamed, hreads]
    · simp [ThreadState.writesLine, hexceptions, hnamed, hreads]

/-- What an event line alone does to the file. -/
lemma EventStep.lineEffect (hpatching : b.linePatching = true) {ev : HookEvent} {r : LineReply}
    (hunplaced : Unplaced s) (hasks : s.asksForStream b ev = some r.threadFp)
    (hpatches : s.stepPatches b ev = []) (hwrites : s.writesLine b ev = s.traceFile.hasStream r.threadFp)
    (hshort : ev.written = r.written) (hstep : EventStep b r s s') : HasEffect b ev s s' := by
  rw [← popped_zero s b frameEndJump] at hstep
  exact hstep.effect hpatching hunplaced hasks (by simpa using hpatches) hwrites hshort

/-- Every event has an effect of this form on the file. -/
theorem step_effect (hpatching : b.linePatching = true) (ev : HookEvent) (hunplaced : Unplaced s) :
    HasEffect b ev s (hookStep b s ev) := by
  cases ev with
  | enter e => exact enter_effect hpatching e hunplaced
  | exit x => exact exit_effect b x s
  | thrown kind c =>
    simp only [hookStep]
    split_ifs with hexceptions
    · rcases onThrow_step b kind c s with ⟨hnamed, hsame⟩ | ⟨hnamed, hline⟩
      · rw [hsame]
        exact .nothing rfl (by simp [ThreadState.writesLine, hnamed])
          (by simp [ThreadState.asksForStream, hnamed])
      · exact hline.lineEffect hpatching hunplaced
          (by simp [ThreadState.asksForStream, hexceptions, hnamed]) rfl
          (by simp [ThreadState.writesLine, hexceptions, hnamed]) rfl
    · exact .nothing rfl (by simp [ThreadState.writesLine, hexceptions])
        (by simp [ThreadState.asksForStream, hexceptions])
  | caught c =>
    simp only [hookStep]
    split_ifs with hexceptions
    · exact caught_effect hpatching hexceptions c hunplaced
    · exact .nothing (by simp [ThreadState.stepPatches, hexceptions])
        (by simp [ThreadState.writesLine, hexceptions]) (by simp [ThreadState.asksForStream, hexceptions])
  | terminated reason c =>
    simp only [hookStep]
    split_ifs with hexceptions
    · rcases onTerminate_step b reason c s with ⟨hnamed, hsame⟩ | ⟨hnamed, hline⟩
      · rw [hsame]
        exact .nothing rfl (by simp [ThreadState.writesLine, hnamed])
          (by simp [ThreadState.asksForStream, hnamed])
      · exact hline.lineEffect hpatching hunplaced
          (by simp [ThreadState.asksForStream, hexceptions, hnamed]) rfl
          (by simp [ThreadState.writesLine, hexceptions, hnamed]) rfl
    · exact .nothing rfl (by simp [ThreadState.writesLine, hexceptions])
        (by simp [ThreadState.asksForStream, hexceptions])

end CallStackLogger
