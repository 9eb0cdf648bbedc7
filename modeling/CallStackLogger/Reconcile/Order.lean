import CallStackLogger.Reconcile.Rules

/-!
# The order of a record stack

Levels do not increase from the bottom of a record stack to its top, and records of one level
belong to one physical frame, so that they have one caller. Every rule that looks at levels
relies on it; a push keeps it because the scan in front of the push has removed every record
that would stand in its way.
-/

namespace CallStackLogger

variable {ρ : Type*} [Keyed ρ] {records : List ρ} {key : FrameKey} {bounds : StackBounds}

/-- How a record lies over one that is further down. -/
def LiesOver (upper lower : FrameKey) : Prop :=
  upper.level ≤ lower.level ∧ (upper.level = lower.level → upper.caller = lower.caller)

/-- Levels do not increase towards the top, and equal levels have equal callers. -/
def LevelOrdered (records : List ρ) : Prop :=
  records.Pairwise fun upper lower => LiesOver (Keyed.key upper) (Keyed.key lower)

lemma LevelOrdered.drop (h : LevelOrdered records) (n : Nat) : LevelOrdered (records.drop n) :=
  List.Pairwise.sublist (List.drop_sublist n records) h

/-- What the level step of an enter leaves may lie under the entering frame. -/
lemma liesOver_of_deadRecordsOnEnter (h : LevelOrdered records)
    (hrecords : ∀ r ∈ records, onThreadStack bounds (Keyed.key r).level = true)
    (hkey : onThreadStack bounds key.level = true) :
    ∀ r ∈ records.drop (deadRecordsOnEnter records key bounds), LiesOver key (Keyed.key r) := by
  rw [deadRecordsOnEnter, if_pos hkey, Scan.drop_length_takeWhile]
  refine Scan.forall_mem_dropWhile h ?_ ?_
  · intro r hr hstop
    simp only [hrecords r hr, Bool.true_and, deeper, reusedSlot, Bool.or_eq_false_iff,
      decide_eq_false_iff_not, Bool.and_eq_false_iff, beq_eq_false_iff_ne, bne_eq_false_iff_eq] at hstop
    refine ⟨Nat.not_lt.mp hstop.1, fun heq => ?_⟩
    rcases hstop.2 with hne | hcaller
    · exact absurd heq.symm hne
    · exact hcaller.symm
  · intro upper lower _ hover hupper
    refine ⟨Nat.le_trans hupper.1 hover.1, fun heq => ?_⟩
    have hlevel : key.level = (Keyed.key upper).level :=
      Nat.le_antisymm hupper.1 (heq ▸ hover.1)
    rw [hupper.2 hlevel, hover.2 (hlevel ▸ heq)]

/-- Nothing is dead when the record on top may lie under the entering frame, or one of the two is
off the thread stack. -/
lemma deadRecordsOnEnter_eq_zero
    (h : ∀ r ∈ records.head?, onThreadStack bounds key.level = true →
      onThreadStack bounds (Keyed.key r).level = true → LiesOver key (Keyed.key r)) :
    deadRecordsOnEnter records key bounds = 0 := by
  rw [deadRecordsOnEnter]
  split_ifs with hkey
  · refine Scan.length_takeWhile_eq_zero fun r hr => ?_
    by_cases hon : onThreadStack bounds (Keyed.key r).level = true
    · obtain ⟨hle, hcaller⟩ := h r hr hkey hon
      have hdeeper : deeper r key = false := by simpa [deeper] using hle
      have hreused : reusedSlot r key = false := by
        simp only [reusedSlot, Bool.and_eq_false_iff, beq_eq_false_iff_ne, bne_eq_false_iff_eq]
        by_cases hlevel : (Keyed.key r).level = key.level
        · exact .inr (hcaller hlevel.symm).symm
        · exact .inl hlevel
      simp [hdeeper, hreused]
    · simp [hon]
  · rfl

/-- What the level step of a catch leaves lies at the catch level or over it. -/
lemma le_level_of_deadRecordsOnCatch {catchLevel : Addr} (h : LevelOrdered records)
    (hrecords : ∀ r ∈ records, onThreadStack bounds (Keyed.key r).level = true)
    (hcatch : onThreadStack bounds catchLevel = true) :
    ∀ r ∈ records.drop (deadRecordsOnCatch records catchLevel bounds),
      catchLevel ≤ (Keyed.key r).level := by
  rw [deadRecordsOnCatch, if_pos hcatch, Scan.drop_length_takeWhile]
  refine Scan.forall_mem_dropWhile h ?_ ?_
  · intro r hr hstop
    simpa [hrecords r hr] using hstop
  · intro upper lower _ hover hupper
    exact Nat.le_trans hupper hover.1

end CallStackLogger
