import CallStackLogger.Core.Run
import CallStackLogger.Trace.Depth

/-!
# The interposers of the C++ runtime

`src/exceptions.cpp`: what the tracer puts in front of `__cxa_throw`, `__cxa_rethrow`,
`std::rethrow_exception`, `__cxa_begin_catch` and `std::terminate`. Each reports its event and forwards to
the runtime, and the tracer checks at its start that there is a runtime to forward to. Once the program is
terminating they report nothing, so the terminate line is the last event of its thread. Calls are another
matter: `silent_after_terminate_iff`.
-/

namespace CallStackLogger

open Run

/-! ### Exceptions as the runtime hands them over -/

/-- `exception_class_of`: the bytes of a class, the first one the most significant. -/
def exceptionClassOf (text : Text) : UInt64 :=
  text.foldl (fun value c => value <<< 8 ||| UInt64.ofNat c.toNat) 0

def primaryExceptionClass : UInt64 := exceptionClassOf "GNUCC++\x00".toList

def dependentExceptionClass : UInt64 := exceptionClassOf "GNUCC++\x01".toList

/-- The class of an exception object, of which nothing else is read; 0 without one. -/
def exceptionClass (exceptionObject : Option UInt64) : UInt64 := exceptionObject.getD 0

def isNativePrimaryException (exceptionObject : Option UInt64) : Bool :=
  exceptionClass exceptionObject == primaryExceptionClass

def isNativeDependentException (exceptionObject : Option UInt64) : Bool :=
  exceptionClass exceptionObject == dependentExceptionClass

/-- The label of an exception the C++ runtime did not throw. -/
def foreignExceptionLabel (exceptionObject : Option UInt64) : Option Text :=
  let cls := exceptionClass exceptionObject
  if cls = primaryExceptionClass ∨ cls = dependentExceptionClass then none
  else if cls = 0 then some "(forced unwind)".toList
  else some "(foreign exception)".toList

/-! ### Catches of the runtime itself -/

/-- The code of one function of the runtime, empty when it is not found. -/
structure CodeRange where
  start : Addr := 0
  stop : Addr := 0
deriving DecidableEq, Repr

def CodeRange.contains (range : CodeRange) (address : Addr) : Bool :=
  decide (range.start ≤ address) && decide (address < range.stop)

/-- The functions of the runtime that give up on an exception. -/
structure RuntimeRanges where
  cxaThrow : CodeRange := {}
  cxaRethrow : CodeRange := {}
  rethrowException : CodeRange := {}
  cxaCallTerminate : CodeRange := {}
  gxxPersonality : CodeRange := {}
deriving DecidableEq, Repr

def RuntimeRanges.sites (ranges : RuntimeRanges) : List (CodeRange × TerminateReason) :=
  [(ranges.cxaThrow, .noHandler),
   (ranges.cxaRethrow, .noHandler),
   (ranges.rethrowException, .noHandler),
   (ranges.cxaCallTerminate, .noexceptBoundary),
   (ranges.gxxPersonality, .noexceptBoundary)]

/-- The reason, when the catch was called from where the runtime gives up. -/
def catchMeansTerminate (ranges : RuntimeRanges) (returnAddress : Addr) : Option TerminateReason :=
  (ranges.sites.find? (·.1.contains returnAddress)).map (·.2)

/-! ### The five interposers -/

/-- A thread with what the interposers remember of it. -/
structure TracedThread where
  tracer : ThreadState
  lastCaughtLabel : Option Text := none
  terminating : Bool := false

/-- What one call of an interposer meets: whether the thread is inside the tracer, what
`__cxa_current_exception_type()` answers, and what reporting the event then meets. -/
structure Interposed where
  insideTracer : Bool
  currentType : Option Addr
  event : EventCall

namespace TracedThread

variable (t : TracedThread) (b : Build)

/-- `!inside_tracer() && !t_terminating`. -/
def reports (i : Interposed) : Bool := !i.insideTracer && !t.terminating

/-- `cslg_cxa_throw`. -/
def cslgCxaThrow (type : Option Addr) (i : Interposed) : TracedThread :=
  if t.reports i then
    { t with tracer := t.tracer.onThrow b .primary { i.event with type := ⟨type, none⟩ } }
  else t

/-- How a rethrow names the exception being handled. -/
def rethrowType (currentType : Option Addr) : EventType where
  info := currentType
  label := if currentType.isNone then t.lastCaughtLabel else none

/-- `cslg_cxa_rethrow`. -/
def cslgCxaRethrow (i : Interposed) : TracedThread :=
  if t.reports i then
    { t with
      lastCaughtLabel := none
      tracer := t.tracer.onThrow b .rethrow
        { i.event with type := t.rethrowType i.currentType, what := none } }
  else t

/-- `cslg_rethrow_exception`. -/
def cslgRethrowException (type : Option Addr) (i : Interposed) : TracedThread :=
  if t.reports i then
    { t with
      tracer := t.tracer.onThrow b .exceptionPtr { i.event with type := ⟨type, none⟩, what := none } }
  else t

/-- What a catch reports of the exception caught. -/
def caughtEvent (exceptionObject : Option UInt64) (i : Interposed) : EventCall :=
  { i.event with
    type := ⟨i.currentType, foreignExceptionLabel exceptionObject⟩
    what := if isNativePrimaryException exceptionObject then i.event.what else none
    dependent := isNativeDependentException exceptionObject }

/-- `cslg_cxa_begin_catch`. -/
def cslgCxaBeginCatch (ranges : RuntimeRanges) (exceptionObject : Option UInt64) (returnAddress : Addr)
    (i : Interposed) : TracedThread :=
  if t.reports i then
    let c := caughtEvent exceptionObject i
    match catchMeansTerminate ranges returnAddress with
    | some reason =>
      { t with
        lastCaughtLabel := c.type.label
        terminating := true
        tracer := t.tracer.onTerminate b reason { c with site := some {} } }
    | none =>
      { t with
        lastCaughtLabel := c.type.label
        terminating := t.terminating || (t.tracer.onCatch b c).2
        tracer := (t.tracer.onCatch b c).1 }
  else t

/-- `cslg_terminate`. -/
def cslgTerminate (i : Interposed) : TracedThread :=
  if t.reports i then
    { t with
      terminating := true
      tracer := t.tracer.onTerminate b .terminateCalled
        { i.event with type := ⟨i.currentType, none⟩, what := none } }
  else t

end TracedThread

/-- A call that reaches an interposer. -/
inductive RuntimeCall where
  | cxaThrow (type : Option Addr) (i : Interposed)
  | cxaRethrow (i : Interposed)
  | rethrowException (type : Option Addr) (i : Interposed)
  | beginCatch (exceptionObject : Option UInt64) (returnAddress : Addr) (i : Interposed)
  | terminate (i : Interposed)

/-- What can happen on a thread. -/
inductive ThreadEvent where
  | enter (e : EnterCall)
  | exit (x : ExitCall)
  | runtime (call : RuntimeCall)

namespace TracedThread

def interpose (b : Build) (ranges : RuntimeRanges) (t : TracedThread) : RuntimeCall → TracedThread
  | .cxaThrow type i                              => t.cslgCxaThrow b type i
  | .cxaRethrow i                                 => t.cslgCxaRethrow b i
  | .rethrowException type i                      => t.cslgRethrowException b type i
  | .beginCatch exceptionObject returnAddress i   =>
    t.cslgCxaBeginCatch b ranges exceptionObject returnAddress i
  | .terminate i                                  => t.cslgTerminate b i

/-- One event. The interposers exist in `LOG_EXCEPTIONS` builds only. -/
def step (b : Build) (ranges : RuntimeRanges) (t : TracedThread) : ThreadEvent → TracedThread
  | .enter e      => { t with tracer := t.tracer.cygProfileFuncEnter b e }
  | .exit x       => { t with tracer := t.tracer.cygProfileFuncExit b x }
  | .runtime call => if b.logExceptions then t.interpose b ranges call else t

/-- A thread that has not done anything yet. -/
def fresh (bounds : StackBounds) (earlier : Text) : TracedThread where
  tracer := .fresh bounds earlier

/-- The lines written so far. -/
def lines (t : TracedThread) : List Line := t.tracer.traceFile.lines

end TracedThread

variable {b : Build} {ranges : RuntimeRanges} {t : TracedThread}

namespace TracedThread

/-! ### The label of the exception caught last -/

variable {i : Interposed}

lemma lastCaughtLabel_throw (type : Option Addr) :
    (t.cslgCxaThrow b type i).lastCaughtLabel = t.lastCaughtLabel := by
  rw [cslgCxaThrow]
  split_ifs <;> rfl

lemma lastCaughtLabel_rethrowException (type : Option Addr) :
    (t.cslgRethrowException b type i).lastCaughtLabel = t.lastCaughtLabel := by
  rw [cslgRethrowException]
  split_ifs <;> rfl

lemma lastCaughtLabel_rethrow :
    (t.cslgCxaRethrow b i).lastCaughtLabel = if t.reports i then none else t.lastCaughtLabel := by
  rw [cslgCxaRethrow]
  split_ifs <;> rfl

lemma lastCaughtLabel_beginCatch (exceptionObject : Option UInt64) (returnAddress : Addr) :
    (t.cslgCxaBeginCatch b ranges exceptionObject returnAddress i).lastCaughtLabel =
      if t.reports i then foreignExceptionLabel exceptionObject else t.lastCaughtLabel := by
  rw [cslgCxaBeginCatch]
  split_ifs
  · cases catchMeansTerminate ranges returnAddress <;> rfl
  · rfl

end TracedThread

/-! ### Every event is one of the tracer, or nothing -/

lemma step_tracer (b : Build) (ranges : RuntimeRanges) (t : TracedThread) (ev : ThreadEvent) :
    (t.step b ranges ev).tracer = t.tracer ∨
      ∃ hook, (t.step b ranges ev).tracer = hookStep b t.tracer hook := by
  cases ev with
  | enter e => exact .inr ⟨.enter e, rfl⟩
  | exit x => exact .inr ⟨.exit x, rfl⟩
  | runtime call =>
    simp only [TracedThread.step]
    split_ifs with hexceptions
    · cases call with
      | cxaThrow type i =>
        simp only [TracedThread.interpose, TracedThread.cslgCxaThrow]
        split_ifs
        · exact .inr ⟨.thrown .primary _, by rw [hookStep, if_pos hexceptions]⟩
        · exact .inl rfl
      | cxaRethrow i =>
        simp only [TracedThread.interpose, TracedThread.cslgCxaRethrow]
        split_ifs
        · exact .inr ⟨.thrown .rethrow _, by rw [hookStep, if_pos hexceptions]⟩
        · exact .inl rfl
      | rethrowException type i =>
        simp only [TracedThread.interpose, TracedThread.cslgRethrowException]
        split_ifs
        · exact .inr ⟨.thrown .exceptionPtr _, by rw [hookStep, if_pos hexceptions]⟩
        · exact .inl rfl
      | beginCatch exceptionObject returnAddress i =>
        simp only [TracedThread.interpose, TracedThread.cslgCxaBeginCatch]
        split_ifs
        · cases catchMeansTerminate ranges returnAddress with
          | some reason => exact .inr ⟨.terminated reason _, by rw [hookStep, if_pos hexceptions]⟩
          | none => exact .inr ⟨.caught _, by rw [hookStep, if_pos hexceptions]⟩
        · exact .inl rfl
      | terminate i =>
        simp only [TracedThread.interpose, TracedThread.cslgTerminate]
        split_ifs
        · exact .inr ⟨.terminated .terminateCalled _, by rw [hookStep, if_pos hexceptions]⟩
        · exact .inl rfl
    · exact .inl rfl

/-! ### After the terminate line -/

/-- The event is reported as the end of the program: at a site where the runtime gives up, at Clang's stub,
or at a call of `std::terminate`. -/
def TracedThread.givesUp (ranges : RuntimeRanges) (t : TracedThread) : ThreadEvent → Bool
  | .runtime (.beginCatch _ returnAddress i) =>
    t.reports i && ((catchMeansTerminate ranges returnAddress).isSome || i.event.atStub)
  | .runtime (.terminate i)                  => t.reports i
  | _                                        => false

/-- `on_terminate`, or `on_catch` in its place, writes the terminate line. -/
def WritesTerminateLine (b : Build) (ranges : RuntimeRanges) (t : TracedThread) (ev : ThreadEvent) : Prop :=
  t.givesUp ranges ev = true ∧ (t.step b ranges ev).lines ≠ t.lines

/-- No event of the run appends a line to the trace behind its terminate line. -/
def SilentAfterTerminate (b : Build) (ranges : RuntimeRanges) (t : TracedThread) (evs : List ThreadEvent) :
    Prop :=
  ∀ before ev after, evs = before ++ ev :: after →
    WritesTerminateLine b ranges (exec (TracedThread.step b ranges) t before) ev →
    AllSteps (TracedThread.step b ranges) (fun t ev => (t.step b ranges ev).lines = t.lines)
      (exec (TracedThread.step b ranges) t (before ++ [ev])) after

/-- No function with a line of its own is entered behind the terminate line. -/
def NoLoggedCallAfterTerminate (b : Build) (ranges : RuntimeRanges) (t : TracedThread)
    (evs : List ThreadEvent) : Prop :=
  ∀ before ev after, evs = before ++ ev :: after →
    WritesTerminateLine b ranges (exec (TracedThread.step b ranges) t before) ev →
    AllSteps (TracedThread.step b ranges) (fun t ev => ∀ e, ev = .enter e → t.tracer.loggedView e = none)
      (exec (TracedThread.step b ranges) t (before ++ [ev])) after

lemma EnterStep.lines_eq_iff {e : EnterCall} {s s' : ThreadState} (h : EnterStep b e s s') :
    s'.traceFile.lines = s.traceFile.lines ↔ s.loggedView e = none := by
  cases h with
  | overflow hover => simp [ThreadState.countOverflow, ThreadState.loggedView, hover]
  | @unlogged s₀ s₁ hover hslot hquiet hfp =>
    obtain ⟨capacity, rfl, -⟩ := reserveSlot_eq_some hslot
    refine ⟨fun _ => hquiet, fun _ => ?_⟩
    rcases hfp with ⟨-, rfl⟩ | ⟨-, rfl⟩
    · exact enterReclaim_lines b e _
    · exact (getThreadFp_lines b e.threadFp _).trans (enterReclaim_lines b e _)
  | @logged s₀ s₁ view hover hslot hview hopen hs₁ =>
    obtain ⟨capacity, rfl, -⟩ := reserveSlot_eq_some hslot
    have hlines : s₁.traceFile.lines = s.traceFile.lines := by
      rw [hs₁, enterParentReclaim_lines, getThreadFp_lines, enterReclaim_lines]
    have hwritten : (s₁.writeCall b e view).traceFile.lines =
        s.traceFile.lines ++ [{ s₁.callLine b e view with start := s₁.traceFile.content.length }] := by
      rw [← hlines]
      rfl
    simp [ThreadState.push, hwritten, hview]

/-- Once the program is terminating the interposers do nothing. -/
lemma interpose_of_terminating (h : t.terminating = true) (call : RuntimeCall) :
    t.interpose b ranges call = t := by
  have hquiet : ∀ i, t.reports i = false := by simp [TracedThread.reports, h]
  cases call with
  | cxaThrow type i => simp [TracedThread.interpose, TracedThread.cslgCxaThrow, hquiet]
  | cxaRethrow i => simp [TracedThread.interpose, TracedThread.cslgCxaRethrow, hquiet]
  | rethrowException type i => simp [TracedThread.interpose, TracedThread.cslgRethrowException, hquiet]
  | beginCatch exceptionObject returnAddress i =>
    simp [TracedThread.interpose, TracedThread.cslgCxaBeginCatch, hquiet]
  | terminate i => simp [TracedThread.interpose, TracedThread.cslgTerminate, hquiet]

lemma terminating_step (h : t.terminating = true) (ev : ThreadEvent) :
    (t.step b ranges ev).terminating = true := by
  cases ev with
  | enter e => exact h
  | exit x => exact h
  | runtime call =>
    rw [TracedThread.step, interpose_of_terminating h, ite_self]
    exact h

/-- What is left to be written while the program is terminating are the lines of calls. -/
lemma lines_step_of_terminating (h : t.terminating = true) (ev : ThreadEvent) :
    (t.step b ranges ev).lines = t.lines ↔ ∀ e, ev = .enter e → t.tracer.loggedView e = none := by
  cases ev with
  | enter e =>
    have henter : (t.step b ranges (.enter e)).lines = t.lines ↔ t.tracer.loggedView e = none :=
      (enterStep b e t.tracer).lines_eq_iff
    rw [henter]
    constructor
    · rintro hview e' heq
      obtain rfl : e = e' := by simpa using heq
      exact hview
    · exact fun hview => hview e rfl
  | exit x => exact iff_of_true (exitStep b x t.tracer).lines_eq fun e heq => by simp at heq
  | runtime call =>
    rw [TracedThread.step, interpose_of_terminating h, ite_self]
    exact iff_of_true rfl fun e heq => by simp at heq

/-- An event line that is written is written without an exception. -/
lemma writeEventLine_snd {s : ThreadState} {verb siteLabel suffix columnWord typeName : Text}
    {what : Option Text} {site : EventSite} {r : LineReply}
    (hline : (s.writeEventLine b verb siteLabel suffix columnWord typeName what site r).1.traceFile.lines ≠
      s.traceFile.lines) :
    (s.writeEventLine b verb siteLabel suffix columnWord typeName what site r).2 = true := by
  have hlines := getThreadFp_lines b r.threadFp s
  rw [ThreadState.writeEventLine] at hline ⊢
  rcases hfp : s.getThreadFp b r.threadFp with ⟨_ | _ | _, s₁⟩
  · rw [hfp] at hlines hline
    exact absurd hlines hline
  · rfl
  · rfl

/-- A catch at Clang's stub that writes its line says so. -/
lemma onCatch_atStub {s : ThreadState} {c : EventCall} (hstub : c.atStub = true)
    (hline : (s.onCatch b c).1.traceFile.lines ≠ s.traceFile.lines) : (s.onCatch b c).2 = true := by
  rw [ThreadState.onCatch] at hline ⊢
  cases hsite : c.site with
  | none => simp [hsite] at hline
  | some site =>
    cases htype : exceptionTypeName c.type c.demangled with
    | none => simp [hsite, htype] at hline
    | some typeName =>
      have hbase : site.callerFunctionBase = some clangTerminateStub := by
        simpa [EventCall.atStub, hsite] using hstub
      simp only [hsite, htype, hbase, if_true] at hline ⊢
      apply writeEventLine_snd
      intro hsame
      apply hline
      rw [hsame, catchLevelStep_eq, popped_lines]

/-- Whoever writes the terminate line leaves the thread terminating. -/
lemma WritesTerminateLine.terminating {ev : ThreadEvent} (h : WritesTerminateLine b ranges t ev) :
    (t.step b ranges ev).terminating = true := by
  obtain ⟨hgives, hline⟩ := h
  by_cases hexceptions : b.logExceptions = true
  · simp only [TracedThread.step, if_pos hexceptions] at hline ⊢
    cases ev with
    | enter e => simp [TracedThread.givesUp] at hgives
    | exit x => simp [TracedThread.givesUp] at hgives
    | runtime call =>
      cases call with
      | cxaThrow type i => simp [TracedThread.givesUp] at hgives
      | cxaRethrow i => simp [TracedThread.givesUp] at hgives
      | rethrowException type i => simp [TracedThread.givesUp] at hgives
      | beginCatch exceptionObject returnAddress i =>
        simp only [TracedThread.givesUp, Bool.and_eq_true, Bool.or_eq_true] at hgives
        obtain ⟨hreports, hgives⟩ := hgives
        simp only [TracedThread.interpose, TracedThread.cslgCxaBeginCatch, if_pos hreports] at hline ⊢
        cases hreason : catchMeansTerminate ranges returnAddress with
        | some reason => rfl
        | none =>
          have hevent : i.event.atStub = true := by simpa [hreason] using hgives
          have hstub : (TracedThread.caughtEvent exceptionObject i).atStub = true := hevent
          rw [hreason] at hline
          simp [onCatch_atStub hstub hline]
      | terminate i =>
        have hreports : t.reports i = true := hgives
        simp only [TracedThread.interpose, TracedThread.cslgTerminate, if_pos hreports]
  · cases ev with
    | enter e => simp [TracedThread.givesUp] at hgives
    | exit x => simp [TracedThread.givesUp] at hgives
    | runtime call =>
      rw [TracedThread.step, if_neg hexceptions] at hline
      exact absurd rfl hline

/-- No line follows the terminate line of a thread exactly when no function with a line of its own is
entered behind it: the interposers write none. -/
theorem silent_after_terminate_iff (b : Build) (ranges : RuntimeRanges) (bounds : StackBounds)
    (earlier : Text) (evs : List ThreadEvent) :
    SilentAfterTerminate b ranges (.fresh bounds earlier) evs ↔
      NoLoggedCallAfterTerminate b ranges (.fresh bounds earlier) evs := by
  rw [SilentAfterTerminate, NoLoggedCallAfterTerminate]
  have hiff : ∀ before ev after,
      WritesTerminateLine b ranges (exec (TracedThread.step b ranges) (.fresh bounds earlier) before) ev →
      (AllSteps (TracedThread.step b ranges) (fun t ev => (t.step b ranges ev).lines = t.lines)
        (exec (TracedThread.step b ranges) (.fresh bounds earlier) (before ++ [ev])) after ↔
      AllSteps (TracedThread.step b ranges) (fun t ev => ∀ e, ev = .enter e → t.tracer.loggedView e = none)
        (exec (TracedThread.step b ranges) (.fresh bounds earlier) (before ++ [ev])) after) := by
    intro before ev after hline
    apply allSteps_iff_of_invariant (I := fun t => t.terminating = true) (D := fun _ _ => True)
    · exact fun t ev ht _ _ => terminating_step ht ev
    · exact fun t ev ht _ => lines_step_of_terminating ht ev
    · rw [exec_append]
      exact hline.terminating
    · exact allSteps_of_forall fun _ _ => trivial
  exact forall_congr' fun before => forall_congr' fun ev => forall_congr' fun after =>
    forall_congr' fun _ => forall_congr' fun hline => hiff before ev after hline

/-- `main` calls `std::terminate`, and the program's own terminate handler is instrumented: the line of
`on_terminate` comes behind the terminate line. -/
theorem handler_traced_after_terminate :
    ¬ SilentAfterTerminate ⟨true, false, false⟩ {} (.fresh ⟨16, 4096, true⟩ [])
      [.enter (.plain ⟨1, 10, 1024⟩ [] (.named "main".toList none)),
       .runtime (.terminate ⟨false, none, .plain 1024 []⟩),
       .enter (.plain ⟨2, 20, 512⟩ [] (.named "on_terminate".toList none))] := by
  intro h
  have hsilent := h [_] (.runtime (.terminate ⟨false, none, .plain 1024 []⟩)) [_] rfl
    ⟨by decide, by decide +kernel⟩
  exact absurd hsilent.1 (by decide +kernel)

end CallStackLogger
