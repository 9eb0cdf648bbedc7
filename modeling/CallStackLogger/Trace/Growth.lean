import CallStackLogger.Trace.Effects
import CallStackLogger.Trace.Entry

/-!
# How the trace file grows

As long as the file opens well and every line arrives whole, the file of a thread grows at its end only: by the header
when it is opened, and by a line each time one is written behind it.
-/

namespace CallStackLogger

variable {b : Build} {s s' : ThreadState}

/-- What the calls of an open have to answer for the file to be followed: if it opens, the header is built with a
time that can be read and arrives whole, and a build that patches lines gets its second descriptor and the end of
the file. -/
structure OpensWell (b : Build) (r : OpenReply) : Prop where
  headerBuilt : r.headerBuilt = true
  headerWhole : r.headerShort = none
  readable : r.time.text.all Entry.quiet = true
  patchable : b.linePatching = true → r.reopened = true ∧ r.sought = true

/-- The reply with which the file is opened when the stream is asked for. -/
def TraceFile.opening (f : TraceFile) (r : FpReply) : List OpenReply :=
  if !f.openAttempted && r.traceReady && !r.shutdownComplete && r.openReply.pathBuilt && r.openReply.opened
    && r.openReply.fdopened then [r.openReply] else []

/-- The header it gets then. -/
def OpenReply.wholeHeader (r : OpenReply) : Text := runSeparatorHeader r.time r.tid

/-- The cursor is at the end of an open file, and the lines of a build that patches them can be patched. -/
structure Followed (b : Build) (s : ThreadState) : Prop where
  unopened : s.traceFile.openAttempted = false → s.traceFile.fp = false ∧ s.cursorValid = true
  trusted : b.linePatching = true → s.traceFile.fp = true →
    s.traceFile.patchFd = true ∧ s.cursorValid = true ∧ s.cursor = s.traceFile.content.length

/-- From `s` to `s'` the file has been opened with some reply, if at all, and has grown by some lines behind its
header. -/
structure Grown (b : Build) (s s' : ThreadState) (opened : List OpenReply) (lines : Text) : Prop where
  followed : Followed b s'
  content : s'.traceFile.content = s.traceFile.content ++ opened.flatMap OpenReply.wholeHeader ++ lines
  attempted : s.traceFile.openAttempted = true →
    opened = [] ∧ s'.traceFile.openAttempted = true ∧ s'.traceFile.fp = s.traceFile.fp
  unattempted : s'.traceFile.openAttempted = false → opened = [] ∧ lines = []
  closed : s.traceFile.fp = false → opened = [] → lines = [] ∧ s'.traceFile.fp = false
  once : opened.length ≤ 1

namespace Grown

variable {s'' : ThreadState} {opened opened' : List OpenReply} {lines lines' : Text}

lemma refl (h : Followed b s) : Grown b s s [] [] :=
  ⟨h, by simp, fun hopen => ⟨rfl, hopen, rfl⟩, fun _ => ⟨rfl, rfl⟩, fun hfp _ => ⟨rfl, hfp⟩, Nat.zero_le 1⟩

/-- The header is written before the first line, and only once. -/
lemma trans (h : Grown b s s' opened lines) (h' : Grown b s' s'' opened' lines') :
    Grown b s s'' (opened ++ opened') (lines ++ lines') := by
  have hclosed : s.traceFile.fp = false → opened ++ opened' = [] →
      lines ++ lines' = [] ∧ s''.traceFile.fp = false := by
    intro hfp hnone
    obtain ⟨hfirst, hsecond⟩ := List.append_eq_nil_iff.mp hnone
    obtain ⟨rfl, hfp'⟩ := h.closed hfp hfirst
    exact h'.closed hfp' hsecond
  by_cases hopen : s'.traceFile.openAttempted = true
  · obtain ⟨rfl, hopen', hfp⟩ := h'.attempted hopen
    refine ⟨h'.followed, ?_, fun hfirst => ?_, fun hclosed => ?_, hclosed, ?_⟩
    · rw [h'.content, h.content]
      simp
    · obtain ⟨rfl, -, hfp'⟩ := h.attempted hfirst
      exact ⟨rfl, hopen', hfp.trans hfp'⟩
    · exact absurd (hopen'.symm.trans hclosed) (by simp)
    · rw [List.append_nil]
      exact h.once
  · obtain ⟨rfl, rfl⟩ := h.unattempted (by simpa using hopen)
    refine ⟨h'.followed, ?_, fun hfirst => absurd (h.attempted hfirst).2.1 hopen, fun hclosed => ?_, hclosed, h'.once⟩
    · rw [h'.content, h.content]
      simp
    · obtain ⟨rfl, rfl⟩ := h'.unattempted hclosed
      exact ⟨rfl, rfl⟩

/-- Nothing but the file and the cursor matters. -/
lemma congr {t t' : ThreadState} (h : Grown b s s' opened lines) (hfile : t.traceFile = s.traceFile)
    (hfile' : t'.traceFile = s'.traceFile) (hcursor : t'.cursor = s'.cursor)
    (hvalid : t'.cursorValid = s'.cursorValid) : Grown b t t' opened lines := by
  refine ⟨⟨?_, ?_⟩, ?_, ?_, ?_, ?_, h.once⟩
  · rw [hfile', hvalid]
    exact h.followed.unopened
  · rw [hfile', hcursor, hvalid]
    exact h.followed.trusted
  · rw [hfile, hfile']
    exact h.content
  · rw [hfile, hfile']
    exact h.attempted
  · rw [hfile']
    exact h.unattempted
  · rw [hfile, hfile']
    exact h.closed

end Grown

/-- An open stream is that of a file whose open has been attempted. -/
lemma Followed.attempted (h : Followed b s) (hfp : s.traceFile.fp = true) : s.traceFile.openAttempted = true := by
  by_contra hclosed
  exact absurd ((h.unopened (by simpa using hclosed)).1.symm.trans hfp) (by simp)

/-- An open that goes well writes its header. -/
lemma Followed.openThisThreadFile {r : OpenReply} (h : Followed b s) (hr : OpensWell b r)
    (hfirst : s.traceFile.openAttempted = false) :
    Grown b s (s.openThisThreadFile b r).2 (if r.pathBuilt && r.opened && r.fdopened then [r] else []) [] := by
  have hattempted : ¬ s.traceFile.openAttempted = true := by simp [hfirst]
  have hvalid := (h.unopened hfirst).2
  have hclosed : Grown b s { s with traceFile := { s.traceFile with openAttempted := true } } [] [] := by
    refine ⟨⟨fun hfalse => absurd hfalse (by simp), h.trusted⟩, by simp, fun hopened => absurd hopened hattempted,
      fun hfalse => absurd hfalse (by simp), fun hfp _ => ⟨rfl, hfp⟩, Nat.zero_le 1⟩
  have hheader : r.header = r.wholeHeader := by rw [OpenReply.header, hr.headerWhole, OpenReply.wholeHeader]
  rw [ThreadState.openThisThreadFile, if_neg hattempted]
  cases hpath : r.pathBuilt with
  | false => exact hclosed
  | true =>
    cases hopened : r.opened with
    | false => exact hclosed
    | true =>
      cases hstream : r.fdopened with
      | false => exact hclosed
      | true =>
        simp only [hr.headerBuilt, Bool.not_true, Bool.or_false, Bool.false_eq_true, if_false, Bool.and_true, if_true]
        rw [ThreadState.registerFile]
        split_ifs
        · refine ⟨⟨fun hfalse => absurd (show true = false from hfalse) (by decide),
            fun _ hfalse => absurd (show false = true from hfalse) (by decide)⟩, ?_, ?_, ?_,
            fun _ hnone => absurd hnone (by simp), Nat.le_refl 1⟩
          · simp [ThreadState.seedCursor, ThreadState.publishFile, hheader]
          · exact fun hopened => absurd hopened hattempted
          · exact fun hfalse => absurd (show true = false from hfalse) (by decide)
        all_goals
          refine ⟨⟨fun hfalse => absurd (show true = false from hfalse) (by decide), ?_⟩, ?_, ?_, ?_,
            fun _ hnone => absurd hnone (by simp), Nat.le_refl 1⟩
          · intro hpatching _
            obtain ⟨hreopened, hsought⟩ := hr.patchable hpatching
            simp [ThreadState.seedCursor, ThreadState.publishFile, hpatching, hreopened, hsought, hvalid]
          · simp [ThreadState.seedCursor, ThreadState.publishFile, hheader]
          · exact fun hopened => absurd hopened hattempted
          · exact fun hfalse => absurd (show true = false from hfalse) (by decide)

/-- Asking for the stream writes the header at most. -/
lemma Followed.getThreadFp {r : FpReply} (h : Followed b s) (hr : OpensWell b r.openReply) :
    Grown b s (s.getThreadFp b r).2 (s.traceFile.opening r) [] := by
  rw [TraceFile.opening]
  by_cases hattempted : s.traceFile.openAttempted = true
  · rw [getThreadFp_of_openAttempted s b r hattempted]
    simp only [hattempted, Bool.not_true, Bool.false_and, Bool.false_eq_true, if_false]
    exact .refl h
  have hfirst : s.traceFile.openAttempted = false := by simpa using hattempted
  rw [ThreadState.getThreadFp]
  by_cases hready : (!r.traceReady || r.shutdownComplete) = true
  · have hnone : (r.traceReady && !r.shutdownComplete) = false := by
      rw [← Bool.not_not (r.traceReady && !r.shutdownComplete), Bool.not_and, Bool.not_not, hready]
      rfl
    rw [if_pos hready]
    simp only [hfirst, Bool.not_false, Bool.true_and, hnone, Bool.false_and, Bool.false_eq_true, if_false]
    exact .refl h
  · have hboth : (r.traceReady && !r.shutdownComplete) = true := by
      rw [← Bool.not_not (r.traceReady && !r.shutdownComplete), Bool.not_and, Bool.not_not]
      simpa using hready
    rw [if_neg hready]
    simp only [hfirst, Bool.not_false, Bool.true_and, hboth]
    have hopen := h.openThisThreadFile hr hfirst
    rcases hreply : s.openThisThreadFile b r.openReply with ⟨_ | _, s₁⟩ <;>
      · rw [hreply] at hopen
        exact hopen

/-- A whole line moves the cursor on. -/
lemma Followed.appendLine {l : Line} (h : Followed b s) (hfp : s.traceFile.fp = true) (hshort : l.short = none) :
    Grown b s (s.appendLine b l) [] l.text := by
  have hopen := h.attempted hfp
  refine ⟨⟨fun hfalse => absurd (hopen.symm.trans hfalse) (by simp), fun hpatching hfp => ?_⟩, ?_,
    fun _ => ⟨rfl, hopen, rfl⟩, fun hfalse => absurd (hopen.symm.trans hfalse) (by simp),
    fun hclosed => absurd (hfp.symm.trans hclosed) (by simp), Nat.zero_le 1⟩
  · obtain ⟨hfd, hvalid, hcursor⟩ := h.trusted hpatching hfp
    refine ⟨hfd, ?_, ?_⟩
    · simp [ThreadState.appendLine, hvalid, hshort]
    · simp [ThreadState.appendLine, TraceFile.fwrite, hpatching, hshort, hcursor]
  · simp [ThreadState.appendLine, TraceFile.fwrite, hshort]

end CallStackLogger
