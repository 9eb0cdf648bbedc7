import CallStackLogger.Trace.Cursor

/-!
# A failing open

Opening a trace file publishes its stream, its second descriptor and its cursor one after the other, and
what fails in between stays as it is for good. All of that is harmless but one: when the header of the run
cannot be built, the stream is open and the cursor is still 0. `lazy_open_safe_iff` is the exact condition.
-/

namespace CallStackLogger

open Run

variable {b : Build} {s s' : ThreadState} {ev : HookEvent}

/-- What is promised after a step, whatever failed on the way: a thread whose file did not open never gets
a stream, an open one has its cursor at the end of the file or has given it up, and the line start of every
record is that of its own line. -/
structure OpenSafe (s s' : ThreadState) : Prop where
  closed : s.traceFile.openAttempted = true → s.traceFile.fp = false → s'.traceFile.fp = false
  cursor : s'.traceFile.fp = true → s'.cursorValid = true → s'.cursor = s'.traceFile.content.length
  own : ∀ r ∈ s'.frames, 0 ≤ r.lineStart → ∃ l ∈ s'.traceFile.lines,
    l.activation = some r.activation ∧ r.lineStart = l.start ∧
    ∀ l' ∈ s'.traceFile.lines, l'.activation = some r.activation → l' = l

/-- The step leaves no file with content open without its header, and while the second descriptor is open
its marks land inside the file. -/
def OpensInOrder (b : Build) (s : ThreadState) (ev : HookEvent) : Prop :=
  (s.opensHeadless b ev = true → s.traceFile.content = []) ∧
    (s.traceFile.patchFd = true → MarksInFile b s ev)

/-- A file left without its header gives no stream to the event that opened it. -/
lemma hasStream_of_opensHeadless {f : TraceFile} {r : FpReply} (h : f.opensHeadless r = true) :
    f.hasStream r = false := by
  simp only [TraceFile.opensHeadless, Bool.and_eq_true, Bool.not_eq_true'] at h
  obtain ⟨⟨⟨⟨⟨⟨hfirst, hready⟩, hup⟩, hpath⟩, hopened⟩, hfd⟩, hheader⟩ := h
  simp [TraceFile.hasStream, hfirst, hready, hup, hpath, hopened, hfd, hheader]

lemma writesLine_of_opensHeadless (h : s.opensHeadless b ev = true) : s.writesLine b ev = false := by
  rw [ThreadState.opensHeadless] at h
  cases hasks : s.asksForStream b ev with
  | none => simp [hasks] at h
  | some r =>
    rw [hasks, Option.any_some] at h
    have hclosed := hasStream_of_opensHeadless h
    have hreply := asksForStream_reply hasks
    cases ev with
    | enter e =>
      obtain rfl := Option.some.inj hreply
      show (s.loggedView e).isSome = false
      rw [Option.isSome_eq_false_iff, Option.isNone_iff_eq_none, Option.eq_none_iff_forall_ne_some]
      intro view hview
      exact absurd ((loggedView_eq_some.mp hview).2.2.1.symm.trans hclosed) (by simp)
    | exit x => rfl
    | thrown kind c =>
      obtain rfl := Option.some.inj hreply
      simp [ThreadState.writesLine, hclosed]
    | caught c =>
      obtain rfl := Option.some.inj hreply
      simp [ThreadState.writesLine, hclosed]
    | terminated reason c =>
      obtain rfl := Option.some.inj hreply
      simp [ThreadState.writesLine, hclosed]

/-- Without a stream after the attempt there will be none. -/
lemma fp_of_attempted (hpatching : b.linePatching = true) (h : Tied b s)
    (hattempted : s.traceFile.openAttempted = true) : (hookStep b s ev).traceFile.fp = s.traceFile.fp := by
  obtain ⟨f, cursor, valid, line, hstream, heffect⟩ := step_effect hpatching ev h.unplaced
  rw [heffect.fp_after]
  cases hstream with
  | same => rfl
  | headless _ _ hfirst => exact absurd (hattempted.symm.trans hfirst) (by simp)
  | opened _ _ hfirst => exact absurd (hattempted.symm.trans hfirst) (by simp)

/-- When the cursor is in order after a step that left its file without a header, the file was empty. -/
lemma Tied.content_of_headless (hpatching : b.linePatching = true) (h : Tied b s)
    (hheadless : s.opensHeadless b ev = true)
    (hcursor : (hookStep b s ev).traceFile.fp = true → (hookStep b s ev).cursorValid = true →
      (hookStep b s ev).cursor = (hookStep b s ev).traceFile.content.length) :
    s.traceFile.content = [] := by
  obtain ⟨f, cursor, valid, line, hstream, heffect⟩ := step_effect hpatching ev h.unplaced
  have hnone : line = none := by
    have hquiet := heffect.isSome_eq
    rw [writesLine_of_opensHeadless hheadless] at hquiet
    simpa using hquiet
  subst hnone
  cases hstream with
  | same hheader => exact absurd (hheadless.symm.trans hheader) (by simp)
  | opened _ hheader => exact absurd (hheadless.symm.trans hheader) (by simp)
  | headless patchFd _ hfirst =>
    obtain ⟨hread, hvalid⟩ := h.unread hfirst
    have hlength := hcursor heffect.fp_after (heffect.valid_eq.trans (by simp [hvalid]))
    rw [heffect.cursor_eq, heffect.file_eq, h.stepPatches_of_unopened hfirst, patchAll_nil, hread] at hlength
    exact List.length_eq_zero_iff.mp hlength.symm

/-- Whatever fails while the file is opened, the thread's file is in order throughout a run exactly when no
file with content is left open without its header and every mark of the run lands inside the file. -/
theorem lazy_open_safe_iff (b : Build) (hpatching : b.linePatching = true) (bounds : StackBounds)
    (earlier : Text) (evs : List HookEvent) :
    AllSteps (hookStep b) (fun s ev => OpenSafe s (hookStep b s ev)) (ThreadState.fresh bounds earlier) evs ↔
      AllSteps (hookStep b) (OpensInOrder b) (ThreadState.fresh bounds earlier) evs := by
  refine allSteps_iff_of_invariant (I := Tied b) (D := fun _ _ => True)
    (fun s ev h _ horder => h.step hpatching horder.1 horder.2) (fun s ev h _ => ?_)
    (tied_fresh b bounds earlier) (allSteps_of_forall fun _ _ => trivial)
  constructor
  · intro hsafe
    exact ⟨fun hheadless => h.content_of_headless hpatching hheadless hsafe.cursor,
      fun hfd => h.marksInFile hpatching hfd hsafe.cursor⟩
  · intro horder
    have htrusted := h.cursorTrusted hpatching (h.step hpatching horder.1 horder.2)
    refine ⟨fun hattempted hclosed => ?_, htrusted.cursor, htrusted.own⟩
    rw [fp_of_attempted hpatching h hattempted, hclosed]

/-- The first enter of a thread meets a failure while it builds the header of its file. -/
def headlessOpen : List HookEvent :=
  [.enter { EnterCall.plain ⟨1, 10, 1000⟩ [] (.named "main".toList none) with
     threadFp := ⟨true, false, { OpenReply.succeeds with headerBuilt := false }⟩ },
   .enter (.plain ⟨2, 20, 900⟩ [] (.named "run".toList none))]

theorem lazy_open_safe_iff_headless :
    AllSteps (hookStep ⟨true, false, false⟩) (fun s ev => OpenSafe s (hookStep ⟨true, false, false⟩ s ev))
        (ThreadState.fresh {} "earlier run".toList) headlessOpen ↔
      AllSteps (hookStep ⟨true, false, false⟩) (OpensInOrder ⟨true, false, false⟩)
        (ThreadState.fresh {} "earlier run".toList) headlessOpen :=
  lazy_open_safe_iff _ rfl _ _ _

/-- Behind it the cursor is 0 in a file that holds an earlier run, and the next record has that for the
start of its line. -/
theorem headless_open_misplaces_records :
    ¬ AllSteps (hookStep ⟨true, false, false⟩) (fun s ev => OpenSafe s (hookStep ⟨true, false, false⟩ s ev))
        (ThreadState.fresh {} "earlier run".toList) headlessOpen ∧
      (∃ r ∈ (exec (hookStep ⟨true, false, false⟩) (ThreadState.fresh {} "earlier run".toList)
          headlessOpen).frames, r.lineStart = 0 ∧
        ∃ l ∈ (exec (hookStep ⟨true, false, false⟩) (ThreadState.fresh {} "earlier run".toList)
          headlessOpen).traceFile.lines, l.activation = some r.activation ∧ l.start = 11) := by
  constructor
  · rintro ⟨hopen, -⟩
    exact absurd (hopen.cursor rfl rfl) (by decide)
  · exact ⟨_, List.mem_cons_self, rfl, _, List.mem_singleton.mpr rfl, rfl, rfl⟩

end CallStackLogger
