import CallStackLogger.Core.Overwrite
import CallStackLogger.Format.Event
import CallStackLogger.Format.Duration
import CallStackLogger.Reconcile.Rules

/-!
# The state of one traced thread

`PerThreadState` of `src/trace.cpp`, the record it pushes for every instrumented frame, and the
thread's trace file as the kernel holds it.

Three pieces of ghost state are carried along; no hook reads them. The file remembers every line
handed to it and every positioned write, each with the activation it belongs to; a record
remembers the activation it was pushed for; and two flags remember whether a pop ever met an
empty vector or a push a full one, both of which the source rules out without checking.
-/

namespace CallStackLogger

/-- The build options that change what the hooks do. -/
structure Build where
  logExceptions : Bool
  logElapsed : Bool
  logAddr : Bool
deriving DecidableEq, Repr

namespace Build

variable (b : Build)

/-- `CSLG_LINE_PATCHING`. -/
def linePatching : Bool := b.logElapsed || b.logExceptions

/-- `CSLG_DURATION_SPLICE`. -/
def durationSplice : Text := if b.logElapsed then "[  pending ] ".toList else []

/-- `LINE_PREFIX_EXTRA`: the bytes between the timestamp and the tree. -/
def linePrefixExtra : Nat :=
  (if b.logElapsed then durationFieldWidth + 1 else 0) + (if b.logAddr then addrColumnWidth else 0)

/-- The width of everything in front of the tree. -/
def prefixWidth : Nat := timestampPrefixWidth + b.linePrefixExtra

end Build

/-- `PLACEHOLDER_OFFSET_IN_LINE`. -/
def placeholderOffsetInLine : Nat := prettyTimeLength + 3

/-- `INITIAL_FRAME_CAPACITY`. -/
def initialFrameCapacity : Nat := 2048

/-- One record for an instrumented frame; `activation` is ghost. -/
structure FrameRecord extends FrameKey where
  logged : Bool
  nameBase : Option Text
  uncaughtAtEnter : Nat
  enterTime : Int
  lineStart : Int
  depth : Int
  activation : Nat
deriving DecidableEq, Repr

instance : Keyed FrameRecord := ⟨FrameRecord.toFrameKey⟩

@[simp] lemma key_frameRecord (r : FrameRecord) : Keyed.key r = r.toFrameKey := rfl

/-- One line handed to `fwrite`: whose it is (`none` for an event line), the depth it was printed
at, where the formatter put its `"|_ "`, the offset it landed at, and how many of its bytes
arrived when the write fell short. -/
structure Line where
  activation : Option Nat
  depth : Int
  text : Text
  glyph : Option Nat
  start : Nat
  short : Option Nat
deriving DecidableEq, Repr

/-- One positioned write into the file. -/
structure Patch where
  activation : Nat
  offset : Nat
  bytes : Text
deriving DecidableEq, Repr

def Patch.stop (p : Patch) : Nat := p.offset + p.bytes.length

/-- `PerThreadTraceFile` and the file behind it. `fp` and `patchFd` say whether the stream and
the second descriptor are open; `preamble`, what the file held in front of the first line, `lines`
and `patches` are ghost. -/
structure TraceFile where
  fp : Bool := false
  openAttempted : Bool := false
  registered : Bool := false
  patchFd : Bool := false
  content : Text := []
  preamble : Text := []
  lines : List Line := []
  patches : List Patch := []
deriving DecidableEq, Repr

/-- `PerThreadState`. `frames` is kept top first. `entered` counts the enter hooks so far and
numbers the activations; it and the two flags are ghost. -/
structure ThreadState where
  currentStackDepth : Int := -1
  frames : List FrameRecord := []
  capacity : Nat := 0
  frameOverflowCount : Nat := 0
  stackBounds : StackBounds := {}
  cursor : Nat := 0
  cursorValid : Bool := true
  traceFile : TraceFile := {}
  entered : Nat := 0
  emptyPop : Bool := false
  fullPush : Bool := false
deriving DecidableEq, Repr

/-- A thread before its first hook, with what earlier runs left in its trace file. -/
def ThreadState.fresh (bounds : StackBounds) (earlier : Text) : ThreadState :=
  { stackBounds := bounds, traceFile := { content := earlier, preamble := earlier } }

/-- Number of logged records. -/
def loggedCount (frames : List FrameRecord) : Nat := frames.countP (·.logged)

@[simp] lemma loggedCount_nil : loggedCount [] = 0 := rfl

@[simp] lemma loggedCount_cons (r : FrameRecord) (frames : List FrameRecord) :
    loggedCount (r :: frames) = loggedCount frames + if r.logged then 1 else 0 := by
  simp [loggedCount, List.countP_cons]

lemma loggedCount_take_add_drop (n : Nat) (frames : List FrameRecord) :
    loggedCount (frames.take n) + loggedCount (frames.drop n) = loggedCount frames := by
  rw [loggedCount, loggedCount, loggedCount, ← List.countP_append, List.take_append_drop]

end CallStackLogger
