import CallStackLogger.Trace.Reclaim

/-!
# The hooks and the exception events

`__cyg_profile_func_enter`, `__cyg_profile_func_exit` and the events of `LOG_EXCEPTIONS`, each as
a function from the thread's state to the state it leaves. What a hook is told by the program
(callee, caller, its own site and level) and what the code it calls answers (the unwinder, the
resolver, the file) are the fields of its call; a `none` among the answers is an exception, which
the hook's barrier swallows. A call stands for a hook that passed the re-entrancy guard.
-/

namespace CallStackLogger

/-! ### Enter -/

/-- The answer of `instrumentation::resolve`. -/
inductive Resolution where
  | threw
  | filtered
  | found (view : ResolvedFrameView)

/-- One call of the enter hook. `level` is what `frame_level` derives for it, `reserved` whether
growing the stack succeeds, `inlineChain` the chain at the hook's site, `written` how many bytes
of the line arrive when its write falls short. -/
structure EnterCall where
  callee : Addr
  caller : Addr
  level : Addr
  reserved : Bool
  inlineChain : Option (List Text)
  threadFp : FpReply
  resolved : Resolution
  timestamp : Timestamp
  written : Option Nat
  uncaught : Nat
  time : Int

def EnterCall.key (e : EnterCall) : FrameKey := ⟨e.callee, e.caller, e.level⟩

/-- What the barrier leaves for the push behind it. -/
structure Entered where
  haveSlot : Bool := false
  logged : Bool := false
  level : Addr := 0
  nameBase : Option Text := none
  lineStart : Nat := 0

/-- Room for this frame's record: the stack doubles when it is full. -/
def ThreadState.reserveSlot (s : ThreadState) (reserved : Bool) : Option ThreadState :=
  if s.frames.length = s.capacity then
    if reserved then
      some { s with
        capacity := if s.frames.isEmpty then initialFrameCapacity else s.capacity * 2 }
    else none
  else some s

/-- The level step of an enter. -/
def ThreadState.enterLevelStep (s : ThreadState) (b : Build) (e : EnterCall) : ThreadState :=
  s.reclaimDeadRecords b (deadRecordsOnEnter s.frames e.key s.stackBounds) .atEnter e.uncaught

/-- The line of a call, formatted at the prospective depth. -/
def ThreadState.callLine (s : ThreadState) (b : Build) (e : EnterCall) (view : ResolvedFrameView) :
    Line :=
  let view := { view with calleeAddress := if b.logAddr then some e.callee else none }
  let line := formatInto formatBufSize e.timestamp.text view (s.currentStackDepth + 1) b.durationSplice true
  ⟨some s.entered, s.currentStackDepth + 1, line.bytes, line.glyph, 0, e.written⟩

/-- The part of the barrier that logs a resolved frame. -/
def ThreadState.logCall (s : ThreadState) (b : Build) (e : EnterCall) (view : ResolvedFrameView) :
    ThreadState × Entered :=
  let s := s.reclaimDeadInlinedRecordsAboveParent b e.key view.callerFunctionBase .atEnter e.uncaught
  (({ s with currentStackDepth := s.currentStackDepth + 1 }).appendLine b (s.callLine b e view),
    { haveSlot := true, logged := true, level := e.level, nameBase := some view.calleeBaseName,
      lineStart := s.cursor })

/-- The barrier behind the reclaim steps: the stream, the resolver and the line. -/
def ThreadState.traceCall (s : ThreadState) (b : Build) (e : EnterCall) : ThreadState × Entered :=
  match s.getThreadFp b e.threadFp with
  | (some true, s) =>
    match e.resolved with
    | .found view => s.logCall b e view
    | .filtered   => (s, { haveSlot := true, level := e.level })
    | .threw      => (s, { haveSlot := true, level := e.level })
  | (_, s) => (s, { haveSlot := true, level := e.level })

/-- The exception barrier of the enter hook. -/
def ThreadState.enterBarrier (s : ThreadState) (b : Build) (e : EnterCall) : ThreadState × Entered :=
  match s.reserveSlot e.reserved with
  | none   => (s, {})
  | some s =>
    let s := s.enterLevelStep b e
    match s.reclaimDeadInlinedRecordsOnEnter b e.key e.inlineChain .atEnter e.uncaught with
    | none   => (s, { haveSlot := true, level := e.level })
    | some s => s.traceCall b e

/-- The record pushed behind the barrier. -/
def ThreadState.newRecord (s : ThreadState) (b : Build) (e : EnterCall) (entered : Entered) :
    FrameRecord where
  callee := e.callee
  caller := e.caller
  level := entered.level
  logged := entered.logged
  nameBase := if entered.logged then entered.nameBase else none
  uncaughtAtEnter := e.uncaught
  enterTime := if entered.logged then e.time else 0
  lineStart := if b.linePatching && entered.logged && s.cursorValid then entered.lineStart else -1
  depth := if b.linePatching && entered.logged && s.cursorValid then s.currentStackDepth else 0
  activation := s.entered

/-- `frames.push_back(record)`. -/
def ThreadState.push (s : ThreadState) (record : FrameRecord) : ThreadState :=
  { s with
    frames := record :: s.frames
    fullPush := s.fullPush || decide (s.capacity ≤ s.frames.length) }

/-- `frame_overflow_count++`. -/
def ThreadState.countOverflow (s : ThreadState) : ThreadState :=
  { s with frameOverflowCount := s.frameOverflowCount + 1 }

/-- Behind the barrier: the record is pushed, or the frame is tracked by count only. -/
def ThreadState.finishEnter (s : ThreadState) (b : Build) (e : EnterCall) (entered : Entered) :
    ThreadState :=
  if entered.haveSlot then s.push (s.newRecord b e entered) else s.countOverflow

/-- The enter hook, before the activation is counted. -/
def ThreadState.enterFrame (s : ThreadState) (b : Build) (e : EnterCall) : ThreadState :=
  if 0 < s.frameOverflowCount then s.countOverflow
  else (s.enterBarrier b e).1.finishEnter b e (s.enterBarrier b e).2

/-- `__cyg_profile_func_enter`. -/
def ThreadState.cygProfileFuncEnter (s : ThreadState) (b : Build) (e : EnterCall) : ThreadState :=
  let s := s.enterFrame b e
  { s with entered := s.entered + 1 }

/-! ### Exit -/

/-- One call of the exit hook; `hookSite` is its own return address. -/
structure ExitCall where
  callee : Addr
  caller : Addr
  level : Addr
  hookSite : Addr
  uncaught : Nat
  time : Int

def ExitCall.key (x : ExitCall) : FrameKey := ⟨x.callee, x.caller, x.level⟩

/-- `hook_site == caller`: the compiler turned the hook call into a jump. -/
def ExitCall.tailCalled (x : ExitCall) : Bool := x.hookSite == x.caller

/-- More exceptions are in flight than when the frame was entered. -/
def ExitCall.byException (x : ExitCall) (record : FrameRecord) : Bool :=
  decide (record.uncaughtAtEnter < x.uncaught)

/-- The measured duration, flagged when an exception left the frame. -/
def ExitCall.durationField (x : ExitCall) (b : Build) (record : FrameRecord) : Text :=
  let buf := formatDuration12chars (x.time - record.enterTime).toNat
  if b.logExceptions && x.byException record then setDurationFlag buf frameEndException else buf

/-- What the exit hook leaves on a logged frame's line. -/
def TraceFile.markLeft (f : TraceFile) (b : Build) (x : ExitCall) (record : FrameRecord) : TraceFile :=
  let f := if b.logElapsed then
      f.patchLineBytes record.activation record.lineStart placeholderOffsetInLine
        (x.durationField b record)
    else f
  if b.logExceptions && x.byException record then
    f.markFrameEnd b record frameEndException none
  else f

/-- The patches an exit hook leaves on a logged frame's line. -/
def leftPatches (b : Build) (x : ExitCall) (record : FrameRecord) : List Patch :=
  (if b.logElapsed then
    linePatch record.activation record.lineStart placeholderOffsetInLine (x.durationField b record)
  else []) ++
  if b.logExceptions && x.byException record then framePatches b record frameEndException none
  else []

lemma markLeft_eq (f : TraceFile) (b : Build) (x : ExitCall) (record : FrameRecord) :
    f.markLeft b x record = f.patchAll (leftPatches b x record) := by
  rw [leftPatches, patchAll_append]
  rw [TraceFile.markLeft]
  split_ifs <;> simp [patchLineBytes_eq, markFrameEnd_eq]

lemma patchedTo_markLeft (f : TraceFile) (b : Build) (x : ExitCall) (record : FrameRecord) :
    f.PatchedTo (f.markLeft b x record) := by
  rw [markLeft_eq]
  exact patchedTo_patchAll f _

/-- The record on top leaves with its exit hook. -/
def ThreadState.leaveFrame (s : ThreadState) (b : Build) (x : ExitCall) : ThreadState :=
  match s.frames with
  | [] => { s with emptyPop := true }
  | record :: rest =>
    if record.logged then
      { s with
        frames := rest
        currentStackDepth := s.currentStackDepth - 1
        traceFile := s.traceFile.markLeft b x record }
    else { s with frames := rest }

/-- Index of the exiting frame's record, as the hook looks for it. -/
def ThreadState.exitIndex (s : ThreadState) (x : ExitCall) : Nat :=
  exitingRecordIndex s.frames x.key x.tailCalled s.stackBounds

/-- `__cyg_profile_func_exit`. -/
def ThreadState.cygProfileFuncExit (s : ThreadState) (b : Build) (x : ExitCall) : ThreadState :=
  if 0 < s.frameOverflowCount then { s with frameOverflowCount := s.frameOverflowCount - 1 }
  else if s.frames.isEmpty then s
  else
    (s.reclaimDeadRecords b (s.frames.length - 1 - s.exitIndex x) .atExit x.uncaught).leaveFrame b x

/-! ### Exception events -/

/-- How an event names its exception: the address of a type, or a label. -/
structure EventType where
  info : Option Addr
  label : Option Text

inductive ThrowKind where
  | primary
  | rethrow
  | exceptionPtr
deriving DecidableEq, Repr

inductive TerminateReason where
  | noHandler
  | noexceptBoundary
  | terminateCalled
deriving DecidableEq, Repr

/-- The resolved location of an event's site. -/
structure EventSite where
  address : Option Addr := none
  callerFilename : Option Text := none
  callerLineNumber : Option Nat := none
  callerFunctionBase : Option Text := none

/-- `exception_type_name`; `demangled` is `none` when demangling throws. -/
def exceptionTypeName (type : EventType) (demangled : Option Text) : Option Text :=
  match type.label with
  | some label => some label
  | none       => if type.info.isNone then some "<unknown type>".toList else demangled

/-- What writing one event line meets. -/
structure LineReply where
  threadFp : FpReply
  timestamp : Timestamp
  written : Option Nat

/-- One exception event. `site` and `demangled` are `none` when computing them throws,
`currentWhat` is the text `current_exception_what` finds, `level` and `inlineChain` are what the
unwinder and the resolver answer at a catch. -/
structure EventCall where
  type : EventType
  demangled : Option Text
  what : Option Text
  currentWhat : Option Text
  dependent : Bool
  site : Option EventSite
  level : Addr
  inlineChain : Option (List Text)
  uncaught : Nat
  line : LineReply

/-- `write_event_line`: a child of the innermost logged frame. The flag is `false` when an
exception leaves it. -/
def ThreadState.writeEventLine (s : ThreadState) (b : Build) (verb siteLabel suffix columnWord : Text)
    (typeName : Text) (what : Option Text) (site : EventSite) (r : LineReply) : ThreadState × Bool :=
  match s.getThreadFp b r.threadFp with
  | (some true, s) =>
    let event : EventLine :=
      { siteAddress := if b.logAddr then site.address else none
        depth := s.currentStackDepth + 1
        verb := verb
        typeName := typeName
        what := what
        siteLabel := siteLabel
        siteFile := site.callerFilename
        siteLine := site.callerLineNumber
        suffix := suffix }
    let column := if b.logElapsed then columnWord ++ [' '] else []
    let line := formatEventInto formatBufSize r.timestamp.text event column true
    (s.appendLine b ⟨none, event.depth, line.bytes, none, 0, r.written⟩, true)
  | (some false, s) => (s, true)
  | (none, s)       => (s, false)

/-- `on_throw`. -/
def ThreadState.onThrow (s : ThreadState) (b : Build) (kind : ThrowKind) (c : EventCall) : ThreadState :=
  match c.site, exceptionTypeName c.type c.demangled with
  | some site, some typeName =>
    match kind with
    | .primary =>
      (s.writeEventLine b "throw".toList "thrown at".toList [] durationEventThrow typeName c.what
        site c.line).1
    | .rethrow =>
      (s.writeEventLine b "rethrow".toList "rethrown at".toList [] durationEventRethrow typeName
        c.what site c.line).1
    | .exceptionPtr =>
      (s.writeEventLine b "rethrow".toList "rethrown at".toList " via std::rethrow_exception".toList
        durationEventRethrow typeName c.what site c.line).1
  | _, _ => s

/-- The label of a terminate line. -/
def terminateLabel : TerminateReason → Text
  | .noHandler        => "no handler found".toList
  | .noexceptBoundary => "thrown across a noexcept boundary".toList
  | .terminateCalled  => "std::terminate called at".toList

/-- The exception a terminate line names. -/
def terminateTypeName (reason : TerminateReason) (c : EventCall) (typeName : Text) : Text :=
  if reason = .terminateCalled ∧ c.type.info = none ∧ c.type.label = none then
    if 0 < c.uncaught then "(exception in flight)".toList else "(no active exception)".toList
  else typeName

/-- `on_terminate`. -/
def ThreadState.onTerminate (s : ThreadState) (b : Build) (reason : TerminateReason) (c : EventCall) :
    ThreadState :=
  match c.site, exceptionTypeName c.type c.demangled with
  | some site, some typeName =>
    let what := if c.type.info.isSome && c.what.isNone then c.currentWhat else c.what
    (s.writeEventLine b "terminate".toList (terminateLabel reason) [] durationEventTerminate
      (terminateTypeName reason c typeName) what site c.line).1
  | _, _ => s

/-- `CLANG_TERMINATE_STUB`. -/
def clangTerminateStub : Text := "__clang_call_terminate".toList

/-- The level step of a catch. -/
def ThreadState.catchLevelStep (s : ThreadState) (b : Build) (catchLevel : Addr) (uncaught : Nat) :
    ThreadState :=
  s.reclaimDeadRecords b (deadRecordsOnCatch s.frames catchLevel s.stackBounds) .atCatch uncaught

/-- `on_catch`: the state, and whether the program turned out to be terminating. -/
def ThreadState.onCatch (s : ThreadState) (b : Build) (c : EventCall) : ThreadState × Bool :=
  match c.site, exceptionTypeName c.type c.demangled with
  | some site, some typeName =>
    let what := if c.dependent && c.what.isNone then c.currentWhat else c.what
    if site.callerFunctionBase = some clangTerminateStub then
      -- not a catch: every record at or below the stub's level belongs to an unwound frame
      (s.catchLevelStep b (c.level + 1) c.uncaught).writeEventLine b "terminate".toList
        "thrown across a noexcept boundary".toList [] durationEventTerminate typeName what {} c.line
    else
      let s := s.catchLevelStep b c.level c.uncaught
      match s.reclaimDeadInlinedRecordsOnCatch b c.level c.inlineChain c.uncaught with
      | none   => (s, false)
      | some s =>
        ((s.writeEventLine b "catch".toList "caught at".toList [] durationEventCatch typeName what
          site c.line).1, false)
  | _, _ => (s, false)

/-! ### The thread as a machine -/

/-- What can happen to a thread's trace. -/
inductive HookEvent where
  | enter (e : EnterCall)
  | exit (x : ExitCall)
  | thrown (kind : ThrowKind) (c : EventCall)
  | caught (c : EventCall)
  | terminated (reason : TerminateReason) (c : EventCall)

/-- One event. The exception events exist in `LOG_EXCEPTIONS` builds only. -/
def hookStep (b : Build) (s : ThreadState) : HookEvent → ThreadState
  | .enter e             => s.cygProfileFuncEnter b e
  | .exit x              => s.cygProfileFuncExit b x
  | .thrown kind c       => if b.logExceptions then s.onThrow b kind c else s
  | .caught c            => if b.logExceptions then (s.onCatch b c).1 else s
  | .terminated reason c => if b.logExceptions then s.onTerminate b reason c else s

/-! ### Calls during which nothing fails -/

def Timestamp.midnight : Timestamp := ⟨"01-01-2025 00:00:00.000".toList, by decide⟩

/-- The file opens, takes the header and is registered. -/
def OpenReply.succeeds : OpenReply where
  pathBuilt := true
  opened := true
  fdopened := true
  reopened := true
  headerBuilt := true
  time := .midnight
  tid := 1
  headerShort := none
  sought := true
  shutdownComplete := false
  registered := true

def FpReply.ready : FpReply := ⟨true, false, .succeeds⟩

def LineReply.full : LineReply := ⟨.ready, .midnight, none⟩

/-- An enter of the frame `key` that resolves to `resolved` at a site with the given chain. -/
def EnterCall.plain (key : FrameKey) (inlineChain : List Text) (resolved : Resolution) : EnterCall where
  callee := key.callee
  caller := key.caller
  level := key.level
  reserved := true
  inlineChain := some inlineChain
  threadFp := .ready
  resolved := resolved
  timestamp := .midnight
  written := none
  uncaught := 0
  time := 0

/-- A frame whose own name and caller are known by these base names. -/
def Resolution.named (base : Text) (callerBase : Option Text) : Resolution :=
  .found ⟨none, base, base, "main.cpp".toList, some 1, callerBase⟩

/-- An exit of the frame `key` from a hook called at `hookSite`. -/
def ExitCall.plain (key : FrameKey) (hookSite : Addr) : ExitCall where
  callee := key.callee
  caller := key.caller
  level := key.level
  hookSite := hookSite
  uncaught := 0
  time := 0

/-- An exception of unknown type caught at a level. -/
def EventCall.plain (level : Addr) (inlineChain : List Text) : EventCall where
  type := ⟨none, none⟩
  demangled := none
  what := none
  currentWhat := none
  dependent := false
  site := some {}
  level := level
  inlineChain := some inlineChain
  uncaught := 0
  line := .full

end CallStackLogger
