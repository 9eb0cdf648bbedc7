import CallStackLogger.Core.Scan
import CallStackLogger.Format.Buffer

/-!
# Frame-stack reconciliation rules

The pure rules of `include/frameReconcile.h`. They compute what to pop from the record stack;
the hooks apply it. A record stack is a list kept top first: its head is `records[count - 1]`
of the source. The rules are generic over the record type, of which they read the frame's
identity only.
-/

namespace CallStackLogger

/-- Identity of one instrumented frame as the hooks see it. -/
structure FrameKey where
  callee : Addr
  caller : Addr
  level : Addr
deriving DecidableEq, Repr

/-- A record type the rules apply to. -/
class Keyed (ρ : Type*) where
  key : ρ → FrameKey

instance : Keyed FrameKey := ⟨id⟩

/-- Extent `[lo, hi)` of the thread's own stack; unknown bounds count every level as on it. -/
structure StackBounds where
  lo : Addr := 0
  hi : Addr := 0
  known : Bool := false
deriving DecidableEq, Repr

variable {ρ : Type*} [Keyed ρ]

open Keyed

def onThreadStack (bounds : StackBounds) (p : Addr) : Bool :=
  !bounds.known || (decide (bounds.lo ≤ p) && decide (p < bounds.hi))

def sameActivationSite (record : ρ) (key : FrameKey) : Bool :=
  (Keyed.key record).callee == key.callee && (Keyed.key record).caller == key.caller

/-- A record of a frame that was deeper than the one entering. -/
def deeper (record : ρ) (key : FrameKey) : Bool := decide ((Keyed.key record).level < key.level)

/-- A record of the entering frame's level that was called from another place. -/
def reusedSlot (record : ρ) (key : FrameKey) : Bool :=
  (Keyed.key record).level == key.level && (Keyed.key record).caller != key.caller

/-- Number of records at the top that are dead when the frame `key` is entered. -/
def deadRecordsOnEnter (records : List ρ) (key : FrameKey) (bounds : StackBounds) : Nat :=
  if onThreadStack bounds key.level then
    (records.takeWhile fun record =>
      onThreadStack bounds (Keyed.key record).level
        && (deeper record key || reusedSlot record key)).length
  else 0

/-- Number of records at the top that an exception caught at `catchLevel` unwound. -/
def deadRecordsOnCatch (records : List ρ) (catchLevel : Addr) (bounds : StackBounds) : Nat :=
  if onThreadStack bounds catchLevel then
    (records.takeWhile fun record =>
      onThreadStack bounds (Keyed.key record).level
        && decide ((Keyed.key record).level < catchLevel)).length
  else 0

/-- The scan of a tail-called exit over the run of records of one activation site, from the
top down: `best` is the closest record below `level` found so far, at distance `best.1` from
the start of the run and with level `best.2`. -/
def closestBelow (level : Addr) : List ρ → Nat → Option (Nat × Addr) → Option (Nat × Addr)
  | [], _, best => best
  | record :: run, i, best =>
    let below := (Keyed.key record).level < level
    let closer := best.all fun b => decide (b.2 < (Keyed.key record).level)
    closestBelow level run (i + 1) (if below ∧ closer then some (i, (Keyed.key record).level) else best)

/-- Distance from the start of a run to the record an exit at `level` belongs to. -/
def bestInRun (run : List ρ) (level : Addr) (tailCalled : Bool) : Nat :=
  if tailCalled then ((closestBelow level run 0 none).map Prod.fst).getD 0
  else (run.findIdx? fun record => (Keyed.key record).level == level).getD 0

/-- Index, from the bottom, of the record of the frame `key` that exits. Records above it are
dead. `records` is not empty. -/
def exitingRecordIndex (records : List ρ) (key : FrameKey) (tailCalled : Bool)
    (bounds : StackBounds) : Nat :=
  let top := records.length - 1
  match records with
  | [] => top
  | topRecord :: _ =>
    if !onThreadStack bounds key.level || !onThreadStack bounds (Keyed.key topRecord).level then top
    else
      let above := (records.takeWhile fun record => !sameActivationSite record key).length
      if above = records.length then top
      else
        let run := (records.drop above).takeWhile fun record => sameActivationSite record key
        top - above - bestInRun run key.level tailCalled

/-- Number of records at the top that share `level` and sit above the first one that
matches; 0 when none of the group does. -/
def deadRecordsAboveMatch (records : List ρ) (level : Addr) (isMatch : ρ → Bool) : Nat :=
  ((records.takeWhile fun record => (Keyed.key record).level == level).findIdx? isMatch).getD 0

/-! ### The rules count records that are there -/

lemma deadRecordsOnEnter_le (records : List ρ) (key : FrameKey) (bounds : StackBounds) :
    deadRecordsOnEnter records key bounds ≤ records.length := by
  rw [deadRecordsOnEnter]
  split_ifs
  · exact (List.takeWhile_prefix _).length_le
  · exact Nat.zero_le _

lemma deadRecordsOnCatch_le (records : List ρ) (catchLevel : Addr) (bounds : StackBounds) :
    deadRecordsOnCatch records catchLevel bounds ≤ records.length := by
  rw [deadRecordsOnCatch]
  split_ifs
  · exact (List.takeWhile_prefix _).length_le
  · exact Nat.zero_le _

lemma deadRecordsAboveMatch_le (records : List ρ) (level : Addr) (m : ρ → Bool) :
    deadRecordsAboveMatch records level m ≤ records.length := by
  rw [deadRecordsAboveMatch]
  cases h : (records.takeWhile fun record => (Keyed.key record).level == level).findIdx? m with
  | none => exact Nat.zero_le _
  | some i =>
    have hi := (List.findIdx?_eq_some_iff_findIdx_eq.mp h).1
    have hle := (List.takeWhile_prefix (l := records) fun record => (Keyed.key record).level == level).length_le
    simp only [Option.getD_some]
    omega

/-- What is popped above a match, and the match itself, belong to the group. -/
lemma level_of_le_deadRecordsAboveMatch {records : List ρ} {level : Addr} {m : ρ → Bool} {i : Nat}
    (hpos : 0 < deadRecordsAboveMatch records level m) (hi : i ≤ deadRecordsAboveMatch records level m) :
    ∃ r, records[i]? = some r ∧ (Keyed.key r).level = level := by
  rw [deadRecordsAboveMatch] at hpos hi
  cases h : (records.takeWhile fun record => (Keyed.key record).level == level).findIdx? m with
  | none => simp [h] at hpos
  | some n =>
    rw [h, Option.getD_some] at hi
    have hn := (List.findIdx?_eq_some_iff_findIdx_eq.mp h).1
    have hlt : i < (records.takeWhile fun record => (Keyed.key record).level == level).length :=
      Nat.lt_of_le_of_lt hi hn
    refine ⟨_, List.getElem?_eq_some_iff.mpr
      ⟨Nat.lt_of_lt_of_le hlt (List.takeWhile_prefix _).length_le, rfl⟩, ?_⟩
    rw [← (List.takeWhile_prefix _).getElem hlt]
    simpa using List.mem_takeWhile_imp (List.getElem_mem hlt)

/-- A record alone in its group has nothing above it to pop. -/
lemma deadRecordsAboveMatch_eq_zero {top : ρ} {rest : List ρ}
    (h : ∀ r ∈ rest.head?, (Keyed.key r).level ≠ (Keyed.key top).level) (m : ρ → Bool) :
    deadRecordsAboveMatch (top :: rest) (Keyed.key top).level m = 0 := by
  have hgroup : (top :: rest).takeWhile (fun r => (Keyed.key r).level == (Keyed.key top).level) =
      [top] := by
    cases rest with
    | nil => simp
    | cons r rest => simp [h r rfl]
  rw [deadRecordsAboveMatch, hgroup, List.findIdx?_singleton]
  split_ifs <;> rfl

lemma exitingRecordIndex_le (records : List ρ) (key : FrameKey) (tailCalled : Bool)
    (bounds : StackBounds) : exitingRecordIndex records key tailCalled bounds ≤ records.length - 1 := by
  unfold exitingRecordIndex
  cases records with
  | nil => simp
  | cons r rs => 
    simp only
    split_ifs <;> omega

end CallStackLogger
