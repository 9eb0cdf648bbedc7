import CallStackLogger.Trace.File

/-!
# Reclaiming the records of dead frames

`reclaimDeadRecords` pops records whose frames are gone without having run their exit hook,
lowers the depth for the logged ones and, with `LOG_EXCEPTIONS`, marks their lines. The inlined
variants decide by the inline chain of a site which records of one physical frame are dead.

`reclaimDeadRecords_eq` is what every later proof uses of the loop: popping `n` of the records
that are there drops them, takes the logged ones off the depth and leaves the marks behind. Each
inlined variant is such a pop, of a number its rule computes from the records.
-/

namespace CallStackLogger

/-- Where the hooks found the records they reclaim. -/
inductive Reclaim where
  | atEnter
  | atExit
  | atCatch
deriving DecidableEq, Repr

/-- The mark the lines of reclaimed records get. -/
def reclaimMark (place : Reclaim) (uncaught : Nat) : Char :=
  match place with
  | .atCatch => frameEndException
  | .atEnter => if 0 < uncaught then frameEndException else frameEndJump
  | .atExit  => frameEndJump

/-- The flagged `"[  unwound ]"` that replaces the placeholder, in a `LOG_ELAPSED` build. -/
def unwoundField (b : Build) (how : Char) : Option Text :=
  if b.logElapsed then some (setDurationFlag durationUnwound how) else none

/-- What a popped record leaves in the file. -/
def TraceFile.markDead (f : TraceFile) (b : Build) (how : Char) (record : FrameRecord) : TraceFile :=
  if b.logExceptions && record.logged then f.markFrameEnd b record how (unwoundField b how) else f

/-- One round of the loop: `frames.back()`, `pop_back()`, and the depth and mark of a logged
record. -/
def ThreadState.popDead (s : ThreadState) (b : Build) (how : Char) : ThreadState :=
  match s.frames with
  | [] => { s with emptyPop := true }
  | dead :: rest =>
    { s with
      frames := rest
      currentStackDepth := if dead.logged then s.currentStackDepth - 1 else s.currentStackDepth
      traceFile := s.traceFile.markDead b how dead }

/-- `while (count-- > 0)`. -/
def ThreadState.popDeadLoop (s : ThreadState) (b : Build) (how : Char) : Nat → ThreadState
  | 0     => s
  | n + 1 => (s.popDead b how).popDeadLoop b how n

/-- `reclaim_dead_records`. -/
def ThreadState.reclaimDeadRecords (s : ThreadState) (b : Build) (count : Nat) (place : Reclaim)
    (uncaught : Nat) : ThreadState :=
  s.popDeadLoop b (reclaimMark place uncaught) count

/-- `record_has_base_name`. -/
def recordHasBaseName (record : FrameRecord) (base : Text) : Bool :=
  match record.nameBase with
  | some name => !name.isEmpty && name == base
  | none      => false

/-- `reclaim_dead_inlined_records_above_parent`. -/
def ThreadState.reclaimDeadInlinedRecordsAboveParent (s : ThreadState) (b : Build) (key : FrameKey)
    (parentBase : Option Text) (place : Reclaim) (uncaught : Nat) : ThreadState :=
  match parentBase, s.frames with
  | some base, top :: _ =>
    if base.isEmpty then s
    else if !(decide (key.level < top.level)) || !onThreadStack s.stackBounds top.level
        || !onThreadStack s.stackBounds key.level then s
    else
      s.reclaimDeadRecords b
        (deadRecordsAboveMatch s.frames top.level fun record => recordHasBaseName record base)
        place uncaught
  | _, _ => s

/-- The records a re-entry from the very same site finds dead at the top. -/
def reenteredRecords (frames : List FrameRecord) (key : FrameKey) : Nat :=
  (frames.takeWhile fun record =>
    sameActivationSite record key && record.level == key.level).length

/-- `chain->size() >= 2 && (*chain)[0] == (*chain)[1]`. -/
def recursiveInline (chain : List Text) : Bool :=
  match chain with
  | f :: host :: _ => f == host
  | _              => false

/-- The records above that of the inline host the chain names. -/
def recordsAboveHost (frames : List FrameRecord) (level : Addr) (chain : List Text) : Nat :=
  match chain with
  | _ :: host :: _ => deadRecordsAboveMatch frames level fun record => recordHasBaseName record host
  | _              => 0

/-- The body of `reclaim_dead_inlined_records_on_enter` once the chain has been read. -/
def ThreadState.reclaimByChain (s : ThreadState) (b : Build) (key : FrameKey) (chain : List Text)
    (place : Reclaim) (uncaught : Nat) : ThreadState :=
  let s := if recursiveInline chain then s
    else s.reclaimDeadRecords b (reenteredRecords s.frames key) place uncaught
  s.reclaimDeadRecords b (recordsAboveHost s.frames key.level chain) place uncaught

/-- The guard of the two functions that look a chain up: a record of the level on top. -/
def groupOnTop (frames : List FrameRecord) (level : Addr) (bounds : StackBounds) : Bool :=
  (frames.head?.any fun top => top.level == level) && onThreadStack bounds level

/-- `reclaim_dead_inlined_records_on_enter`; `none` when looking the chain up throws. -/
def ThreadState.reclaimDeadInlinedRecordsOnEnter (s : ThreadState) (b : Build) (key : FrameKey)
    (inlineChain : Option (List Text)) (place : Reclaim) (uncaught : Nat) : Option ThreadState :=
  if groupOnTop s.frames key.level s.stackBounds then
    match inlineChain with
    | none       => none
    | some []    => some s
    | some chain => some (s.reclaimByChain b key chain place uncaught)
  else some s

/-- `reclaim_dead_inlined_records_on_catch`; `none` when looking the chain up throws. -/
def ThreadState.reclaimDeadInlinedRecordsOnCatch (s : ThreadState) (b : Build) (catchLevel : Addr)
    (inlineChain : Option (List Text)) (uncaught : Nat) : Option ThreadState :=
  if groupOnTop s.frames catchLevel s.stackBounds then
    match inlineChain with
    | none                => none
    | some []             => some s
    | some (catcher :: _) =>
      some (s.reclaimDeadRecords b
        (deadRecordsAboveMatch s.frames catchLevel fun record => recordHasBaseName record catcher)
        .atCatch uncaught)
  else some s

/-! ### What a reclaim does -/

/-- The marks of a run of records popped from the top. -/
def TraceFile.markAll (f : TraceFile) (b : Build) (how : Char) (dead : List FrameRecord) : TraceFile :=
  dead.foldl (fun f record => f.markDead b how record) f

/-- The state after `n` records have left the top of the stack. -/
def ThreadState.popped (s : ThreadState) (b : Build) (how : Char) (n : Nat) : ThreadState :=
  { s with
    frames := s.frames.drop n
    currentStackDepth := s.currentStackDepth - loggedCount (s.frames.take n)
    traceFile := s.traceFile.markAll b how (s.frames.take n) }

@[simp] lemma popped_frames (s : ThreadState) (b : Build) (how : Char) (n : Nat) :
    (s.popped b how n).frames = s.frames.drop n := rfl

@[simp] lemma popped_stackBounds (s : ThreadState) (b : Build) (how : Char) (n : Nat) :
    (s.popped b how n).stackBounds = s.stackBounds := rfl

lemma popDeadLoop_eq (b : Build) (how : Char) (n : Nat) (s : ThreadState)
    (h : n ≤ s.frames.length) : s.popDeadLoop b how n = s.popped b how n := by
  induction n generalizing s with
  | zero => simp [ThreadState.popDeadLoop, ThreadState.popped, TraceFile.markAll]
  | succ n ih =>
    cases hs : s.frames with
    | nil => simp [hs] at h
    | cons dead rest =>
      have hrest : n ≤ rest.length := by simpa [hs] using h
      have hpop : s.popDead b how =
          { s with
            frames := rest
            currentStackDepth :=
              if dead.logged then s.currentStackDepth - 1 else s.currentStackDepth
            traceFile := s.traceFile.markDead b how dead } := by
        simp [ThreadState.popDead, hs]
      rw [ThreadState.popDeadLoop, hpop, ih _ hrest]
      simp only [ThreadState.popped, TraceFile.markAll, hs, List.drop_succ_cons,
        List.take_succ_cons, List.foldl_cons, loggedCount_cons, ThreadState.mk.injEq, and_true]
      cases dead.logged with
      | false => simp
      | true => simp; omega

/-- Reclaiming records that are there pops exactly them. -/
lemma reclaimDeadRecords_eq {s : ThreadState} {n : Nat} (h : n ≤ s.frames.length) (b : Build)
    (place : Reclaim) (uncaught : Nat) :
    s.reclaimDeadRecords b n place uncaught = s.popped b (reclaimMark place uncaught) n :=
  popDeadLoop_eq b _ n s h

/-- The patches a reclaimed record leaves. -/
def deadPatches (b : Build) (how : Char) (record : FrameRecord) : List Patch :=
  if b.logExceptions then framePatches b record how (unwoundField b how) else []

lemma markDead_eq (f : TraceFile) (b : Build) (how : Char) (record : FrameRecord) :
    f.markDead b how record = f.patchAll (deadPatches b how record) := by
  rw [TraceFile.markDead, deadPatches]
  by_cases hexc : b.logExceptions
  · by_cases hlog : record.logged
    · simp [hexc, hlog, markFrameEnd_eq]
    · simp [hexc, hlog, framePatches]
  · simp [hexc]

lemma markAll_eq (f : TraceFile) (b : Build) (how : Char) (dead : List FrameRecord) :
    f.markAll b how dead = f.patchAll (dead.flatMap (deadPatches b how)) := by
  induction dead generalizing f with
  | nil => simp [TraceFile.markAll]
  | cons record dead ih =>
    rw [List.flatMap_cons, patchAll_append, ← markDead_eq]
    exact ih (f.markDead b how record)

lemma patchedTo_markAll (f : TraceFile) (b : Build) (how : Char) (dead : List FrameRecord) :
    f.PatchedTo (f.markAll b how dead) := by
  rw [markAll_eq]
  exact patchedTo_patchAll f _

@[simp] lemma popped_lines (s : ThreadState) (b : Build) (how : Char) (n : Nat) :
    (s.popped b how n).traceFile.lines = s.traceFile.lines :=
  (patchedTo_markAll s.traceFile b how (s.frames.take n)).lines_eq

@[simp] lemma popped_zero (s : ThreadState) (b : Build) (how : Char) : s.popped b how 0 = s := by
  simp [ThreadState.popped, TraceFile.markAll]

/-- Pops from the top add up. -/
lemma popped_popped (s : ThreadState) (b : Build) (how : Char) (m n : Nat) :
    (s.popped b how m).popped b how n = s.popped b how (m + n) := by
  have hcount : loggedCount (s.frames.take (m + n)) =
      loggedCount (s.frames.take m) + loggedCount ((s.frames.drop m).take n) := by
    rw [List.take_add, loggedCount, loggedCount, loggedCount, List.countP_append]
  simp only [ThreadState.popped, List.drop_drop, TraceFile.markAll, ThreadState.mk.injEq,
    true_and, and_true]
  refine ⟨by omega, ?_⟩
  rw [List.take_add, List.foldl_append]

lemma reenteredRecords_le (frames : List FrameRecord) (key : FrameKey) :
    reenteredRecords frames key ≤ frames.length :=
  (List.takeWhile_prefix _).length_le

lemma recordsAboveHost_le (frames : List FrameRecord) (level : Addr) (chain : List Text) :
    recordsAboveHost frames level chain ≤ frames.length := by
  unfold recordsAboveHost
  split
  · exact deadRecordsAboveMatch_le _ _ _
  · exact Nat.zero_le _

/-! ### How many records each of the inlined variants pops -/

/-- The records an enter pops by its chain. -/
def chainDead (frames : List FrameRecord) (key : FrameKey) (chain : List Text) : Nat :=
  let reentered := if recursiveInline chain then 0 else reenteredRecords frames key
  reentered + recordsAboveHost (frames.drop reentered) key.level chain

/-- The records `reclaim_dead_inlined_records_on_enter` pops. -/
def inlinedDeadOnEnter (frames : List FrameRecord) (key : FrameKey) (bounds : StackBounds)
    (chain : List Text) : Nat :=
  if groupOnTop frames key.level bounds = true ∧ chain ≠ [] then chainDead frames key chain else 0

/-- The records `reclaim_dead_inlined_records_above_parent` pops. -/
def parentDead (frames : List FrameRecord) (key : FrameKey) (bounds : StackBounds)
    (parentBase : Option Text) : Nat :=
  match parentBase, frames with
  | some base, top :: _ =>
    if base.isEmpty then 0
    else if !(decide (key.level < top.level)) || !onThreadStack bounds top.level
        || !onThreadStack bounds key.level then 0
    else deadRecordsAboveMatch frames top.level fun record => recordHasBaseName record base
  | _, _ => 0

@[simp] lemma parentDead_none (frames : List FrameRecord) (key : FrameKey) (bounds : StackBounds) :
    parentDead frames key bounds none = 0 := rfl

/-- The records `reclaim_dead_inlined_records_on_catch` pops. -/
def inlinedDeadOnCatch (frames : List FrameRecord) (catchLevel : Addr) (bounds : StackBounds)
    (chain : List Text) : Nat :=
  match chain with
  | []           => 0
  | catcher :: _ =>
    if groupOnTop frames catchLevel bounds then
      deadRecordsAboveMatch frames catchLevel fun record => recordHasBaseName record catcher
    else 0

lemma recordHasBaseName_nil (r : FrameRecord) : recordHasBaseName r [] = false := by
  rw [recordHasBaseName]
  split
  · rename_i name _
    cases name <;> rfl
  · rfl

/-- A named record on top is the first match of its own name. -/
lemma deadRecordsAboveMatch_top {r : FrameRecord} {below : List FrameRecord} {base : Text}
    (hname : r.nameBase = some base) :
    deadRecordsAboveMatch (r :: below) r.level (fun record => recordHasBaseName record base) = 0 := by
  cases base with
  | nil =>
    have hnone : ((r :: below).takeWhile fun record => record.level == r.level).findIdx?
        (fun record => recordHasBaseName record []) = none :=
      List.findIdx?_eq_none_iff.mpr fun q _ => recordHasBaseName_nil q
    exact congrArg (Option.getD · 0) hnone
  | cons ch base =>
    have hmatch : recordHasBaseName r (ch :: base) = true := by simp [recordHasBaseName, hname]
    simp [deadRecordsAboveMatch, List.findIdx?_cons, hmatch]

/-- Without a record of the level on top there is nothing to pop. -/
lemma chainDead_eq_zero {frames : List FrameRecord} {key : FrameKey} (chain : List Text)
    (h : ∀ r ∈ frames.head?, r.level ≠ key.level) : chainDead frames key chain = 0 := by
  have hhead : ∀ r ∈ frames.head?, (r.level == key.level) = false :=
    fun r hr => beq_eq_false_iff_ne.mpr (h r hr)
  have hreentered : reenteredRecords frames key = 0 :=
    Scan.length_takeWhile_eq_zero fun r hr => by rw [hhead r hr, Bool.and_false]
  have hgroup : frames.takeWhile (fun r => r.level == key.level) = [] :=
    List.length_eq_zero_iff.mp (Scan.length_takeWhile_eq_zero hhead)
  have hhost : recordsAboveHost frames key.level chain = 0 := by
    unfold recordsAboveHost deadRecordsAboveMatch
    split
    · simp only [key_frameRecord, hgroup]
      rfl
    · rfl
  simp [chainDead, hreentered, hhost]

/-- On the thread stack the guard makes no difference to what a chain pops. -/
lemma inlinedDeadOnEnter_eq {frames : List FrameRecord} {key : FrameKey} {bounds : StackBounds}
    {chain : List Text} (hkey : onThreadStack bounds key.level = true) :
    inlinedDeadOnEnter frames key bounds chain = if chain = [] then 0 else chainDead frames key chain := by
  rw [inlinedDeadOnEnter]
  by_cases hgroup : groupOnTop frames key.level bounds = true
  · simp [hgroup]
  · have hnone : chainDead frames key chain = 0 := by
      refine chainDead_eq_zero chain fun r hr hlevel => hgroup ?_
      simp [groupOnTop, Option.mem_def.mp hr, hlevel, hkey]
    simp [hgroup, hnone]

lemma reclaimByChain_eq (s : ThreadState) (b : Build) (key : FrameKey) (chain : List Text)
    (place : Reclaim) (uncaught : Nat) :
    s.reclaimByChain b key chain place uncaught =
      s.popped b (reclaimMark place uncaught) (chainDead s.frames key chain) := by
  have hfirst : (if recursiveInline chain then s
      else s.reclaimDeadRecords b (reenteredRecords s.frames key) place uncaught) =
      s.popped b (reclaimMark place uncaught)
        (if recursiveInline chain then 0 else reenteredRecords s.frames key) := by
    split_ifs
    · exact (popped_zero s b _).symm
    · exact reclaimDeadRecords_eq (reenteredRecords_le _ _) b place uncaught
  simp only [ThreadState.reclaimByChain, hfirst]
  rw [reclaimDeadRecords_eq (recordsAboveHost_le _ _ _), popped_popped]
  rfl

lemma reclaimDeadInlinedRecordsOnEnter_eq (s : ThreadState) (b : Build) (key : FrameKey)
    (inlineChain : Option (List Text)) (place : Reclaim) (uncaught : Nat) :
    s.reclaimDeadInlinedRecordsOnEnter b key inlineChain place uncaught =
      if groupOnTop s.frames key.level s.stackBounds = true ∧ inlineChain = none then none
      else some (s.popped b (reclaimMark place uncaught)
        (inlinedDeadOnEnter s.frames key s.stackBounds (inlineChain.getD []))) := by
  unfold ThreadState.reclaimDeadInlinedRecordsOnEnter inlinedDeadOnEnter
  by_cases hgroup : groupOnTop s.frames key.level s.stackBounds = true
  · cases inlineChain with
    | none => simp [hgroup]
    | some chain =>
      cases chain with
      | nil => simp [hgroup]
      | cons f rest => simp [hgroup, reclaimByChain_eq]
  · simp [hgroup]

lemma reclaimDeadInlinedRecordsAboveParent_eq (s : ThreadState) (b : Build) (key : FrameKey)
    (parentBase : Option Text) (place : Reclaim) (uncaught : Nat) :
    s.reclaimDeadInlinedRecordsAboveParent b key parentBase place uncaught =
      s.popped b (reclaimMark place uncaught)
        (parentDead s.frames key s.stackBounds parentBase) := by
  unfold ThreadState.reclaimDeadInlinedRecordsAboveParent parentDead
  cases parentBase with
  | none => exact (popped_zero s b _).symm
  | some base =>
    cases hframes : s.frames with
    | nil => exact (popped_zero s b _).symm
    | cons top rest =>
      simp only
      split_ifs
      · exact (popped_zero s b _).symm
      · exact (popped_zero s b _).symm
      · exact reclaimDeadRecords_eq (hframes ▸ deadRecordsAboveMatch_le _ _ _) b place uncaught

lemma reclaimDeadInlinedRecordsOnCatch_eq (s : ThreadState) (b : Build) (catchLevel : Addr)
    (inlineChain : Option (List Text)) (uncaught : Nat) :
    s.reclaimDeadInlinedRecordsOnCatch b catchLevel inlineChain uncaught =
      if groupOnTop s.frames catchLevel s.stackBounds = true ∧ inlineChain = none then none
      else some (s.popped b frameEndException
        (inlinedDeadOnCatch s.frames catchLevel s.stackBounds (inlineChain.getD []))) := by
  unfold ThreadState.reclaimDeadInlinedRecordsOnCatch inlinedDeadOnCatch
  by_cases hgroup : groupOnTop s.frames catchLevel s.stackBounds = true
  · cases inlineChain with
    | none => simp [hgroup]
    | some chain =>
      cases chain with
      | nil => simp [hgroup]
      | cons catcher rest =>
        simp only [hgroup, if_true, true_and, reduceCtorEq, if_false, Option.getD_some]
        rw [reclaimDeadRecords_eq (deadRecordsAboveMatch_le _ _ _)]
        rfl
  · simp only [hgroup]
    cases inlineChain.getD [] <;> simp

end CallStackLogger
