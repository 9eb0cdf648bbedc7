import CallStackLogger.Trace.Interposers

/-!
# Exceptions being handled

The exceptions a thread handles form a stack of the runtime. The tracer remembers one label beside it, that
of the exception caught last, and gives it to the next `throw;`. The two agree as long as a handler that
has to name its exception by the label runs `throw;` before anything else is caught.
-/

namespace CallStackLogger

open Run

/-- An exception caught by the program: one the C++ runtime threw, primary or dependent, or another. -/
inductive Handled where
  | native (dependent : Bool) (type : Addr)
  | other (cls : UInt64) (hother : cls ≠ primaryExceptionClass ∧ cls ≠ dependentExceptionClass)

namespace Handled

/-- The class of the exception object. -/
def cls : Handled → UInt64
  | .native dependent _ => if dependent then dependentExceptionClass else primaryExceptionClass
  | .other cls _        => cls

/-- The type the runtime knows. -/
def info : Handled → Option Addr
  | .native _ type => some type
  | .other _ _     => none

/-- The label given at the catch. -/
def label (x : Handled) : Option Text := foreignExceptionLabel (some x.cls)

lemma label_native (dependent : Bool) (type : Addr) : (Handled.native dependent type).label = none := by
  cases dependent <;> rfl

end Handled

/-- `__cxa_current_exception_type()`. -/
def currentExceptionType (handled : List Handled) : Option Addr := handled.head?.bind Handled.info

/-- How an event names the exception being handled, if any. -/
def handledType (handled : List Handled) : EventType where
  info := handled.head?.bind Handled.info
  label := handled.head?.bind Handled.label

/-- What a thread does with exceptions. `ended` is the end of the innermost handler. -/
inductive HandlerEvent where
  | thrown (type : Option Addr) (i : Interposed)
  | thrownPointer (type : Option Addr) (i : Interposed)
  | rethrown (i : Interposed)
  | caught (x : Handled) (returnAddress : Addr) (i : Interposed)
  | ended

/-- A thread with the exceptions it handles, innermost first. `unspent` is ghost: the exception reported as
caught last, unless a `throw;` has been reported since. -/
structure HandlerThread where
  thread : TracedThread
  handled : List Handled := []
  unspent : Option Handled := none

namespace HandlerThread

/-- The call an interposer sees of an event. The runtime has taken the exception over before a catch is
reported. -/
def runtimeCall (t : HandlerThread) : HandlerEvent → Option RuntimeCall
  | .thrown type i            => some (.cxaThrow type i)
  | .thrownPointer type i     => some (.rethrowException type i)
  | .rethrown i               => some (.cxaRethrow { i with currentType := currentExceptionType t.handled })
  | .caught x returnAddress i => some (.beginCatch (some x.cls) returnAddress
      { i with currentType := currentExceptionType (x :: t.handled) })
  | .ended                    => none

/-- The exceptions being handled after an event. -/
def handledAfter (t : HandlerThread) : HandlerEvent → List Handled
  | .caught x _ _ => x :: t.handled
  | .ended        => t.handled.tail
  | _             => t.handled

/-- What is unspent after an event. -/
def unspentAfter (t : HandlerThread) : HandlerEvent → Option Handled
  | .caught x _ i => if t.thread.reports i then some x else t.unspent
  | .rethrown i   => if t.thread.reports i then none else t.unspent
  | _             => t.unspent

/-- One event. -/
def step (b : Build) (ranges : RuntimeRanges) (t : HandlerThread) (ev : HandlerEvent) : HandlerThread where
  thread := match t.runtimeCall ev with
    | some call => t.thread.interpose b ranges call
    | none      => t.thread
  handled := t.handledAfter ev
  unspent := t.unspentAfter ev

/-- A thread that has not done anything yet. -/
def fresh (bounds : StackBounds) (earlier : Text) : HandlerThread where
  thread := .fresh bounds earlier

end HandlerThread

/-- A `throw;` that is reported names the exception being handled. -/
def RethrowNamesHandled (t : HandlerThread) : HandlerEvent → Prop
  | .rethrown i => t.thread.reports i = true →
      t.thread.rethrowType (currentExceptionType t.handled) = handledType t.handled
  | _           => True

/-- At a `throw;` that is reported the exception being handled is native, or has the label of the exception
caught last, no other `throw;` having come between; and while none is handled, no label is left. -/
def LabelUnspent (t : HandlerThread) : HandlerEvent → Prop
  | .rethrown i => t.thread.reports i = true →
      (currentExceptionType t.handled).isSome = true ∨
        t.unspent.bind Handled.label = t.handled.head?.bind Handled.label
  | _           => True

variable {b : Build} {ranges : RuntimeRanges} {t : HandlerThread}

/-- The label the tracer remembers is that of the exception caught last. -/
def RemembersLast (t : HandlerThread) : Prop := t.thread.lastCaughtLabel = t.unspent.bind Handled.label

lemma RemembersLast.step (h : RemembersLast t) (ev : HandlerEvent) : RemembersLast (t.step b ranges ev) := by
  rw [RemembersLast] at h ⊢
  cases ev with
  | thrown type i => exact (TracedThread.lastCaughtLabel_throw type).trans h
  | thrownPointer type i => exact (TracedThread.lastCaughtLabel_rethrowException type).trans h
  | rethrown i =>
    have hunspent : (t.unspentAfter (.rethrown i)).bind Handled.label =
        if t.thread.reports i then none else t.unspent.bind Handled.label := by
      rw [HandlerThread.unspentAfter]
      split_ifs <;> rfl
    apply TracedThread.lastCaughtLabel_rethrow.trans
    exact (congrArg (fun label => if t.thread.reports i then none else label) h).trans hunspent.symm
  | caught x returnAddress i =>
    have hunspent : (t.unspentAfter (.caught x returnAddress i)).bind Handled.label =
        if t.thread.reports i then x.label else t.unspent.bind Handled.label := by
      rw [HandlerThread.unspentAfter]
      split_ifs <;> rfl
    apply (TracedThread.lastCaughtLabel_beginCatch _ _).trans
    exact (congrArg (fun label => if t.thread.reports i then x.label else label) h).trans hunspent.symm
  | ended => exact h

/-- With a native exception being handled the type names it and no label is given. -/
lemma rethrowType_of_isSome (h : (currentExceptionType t.handled).isSome = true) :
    t.thread.rethrowType (currentExceptionType t.handled) = handledType t.handled := by
  cases hhandled : t.handled with
  | nil => simp [currentExceptionType, hhandled] at h
  | cons x rest =>
    cases x with
    | native dependent type =>
      simp [TracedThread.rethrowType, currentExceptionType, handledType, Handled.info, Handled.label_native]
    | other cls hother => simp [currentExceptionType, hhandled, Handled.info] at h

lemma rethrowNames_iff (h : RemembersLast t) (ev : HandlerEvent) :
    RethrowNamesHandled t ev ↔ LabelUnspent t ev := by
  cases ev with
  | rethrown i =>
    rw [RethrowNamesHandled, LabelUnspent]
    refine imp_congr_right fun _ => ?_
    by_cases hnative : (currentExceptionType t.handled).isSome = true
    · exact iff_of_true (rethrowType_of_isSome hnative) (.inl hnative)
    · have hnone : (currentExceptionType t.handled).isNone = true := by simpa using hnative
      have hreported : t.thread.rethrowType (currentExceptionType t.handled) =
          ⟨currentExceptionType t.handled, t.unspent.bind Handled.label⟩ := by
        rw [TracedThread.rethrowType, if_pos hnone, h]
      rw [hreported]
      constructor
      · exact fun heq => .inr (congrArg EventType.label heq)
      · rintro (hsome | hlabel)
        · exact absurd hsome hnative
        · rw [hlabel]
          rfl
  | thrown type i => exact Iff.rfl
  | thrownPointer type i => exact Iff.rfl
  | caught x returnAddress i => exact Iff.rfl
  | ended => exact Iff.rfl

/-- Every `throw;` of a run is reported under the name of the exception being handled exactly when each
that has to use the label finds it as its own catch left it. -/
theorem rethrow_names_handled_iff (b : Build) (ranges : RuntimeRanges) (bounds : StackBounds)
    (earlier : Text) (evs : List HandlerEvent) :
    AllSteps (HandlerThread.step b ranges) RethrowNamesHandled (.fresh bounds earlier) evs ↔
      AllSteps (HandlerThread.step b ranges) LabelUnspent (.fresh bounds earlier) evs := by
  apply allSteps_iff_of_invariant (I := RemembersLast) (D := fun _ _ => True)
  · exact fun t ev h _ _ => h.step ev
  · exact fun t ev h _ => rethrowNames_iff h ev
  · rfl
  · exact allSteps_of_forall fun _ _ => trivial

/-- A handler of a cancellation catches an exception of its cleanup before its own `throw;`. -/
theorem cancellation_loses_label :
    ¬ AllSteps (HandlerThread.step ⟨true, false, false⟩ {}) RethrowNamesHandled (.fresh ⟨16, 4096, true⟩ [])
      [.caught (.other 0 (by decide)) 0 ⟨false, none, .plain 1024 []⟩,
       .thrown (some 7) ⟨false, none, .plain 1024 []⟩,
       .caught (.native false 7) 0 ⟨false, none, .plain 1024 []⟩,
       .ended,
       .rethrown ⟨false, none, .plain 1024 []⟩] := by
  intro h
  have hnamed := congrArg EventType.label (h.2.2.2.2.1 (by decide +kernel))
  exact absurd hnamed (by decide +kernel)

end CallStackLogger
