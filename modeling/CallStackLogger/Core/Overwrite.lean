import Mathlib.Data.List.Basic

/-!
# Overwriting a segment of a sequence

`overwrite fill xs off ys` is what a positioned write of `ys` at offset `off` makes of the
sequence `xs`: the elements from `off` on are replaced, the sequence grows when the segment
reaches past its end, and a gap in front of the segment is filled with `fill`.

`AgreeOff Z xs ys` says that two sequences have one length and differ at most at the positions
in `Z`. It is kept by every overwrite that stays inside `Z` and by appending to both.
-/

namespace Overwrite

variable {α : Type*} (fill : α)

/-- Write `ys` over `xs` from offset `off` on. -/
def overwrite (xs : List α) (off : Nat) (ys : List α) : List α :=
  (xs ++ List.replicate (off - xs.length) fill).take off ++ ys ++ xs.drop (off + ys.length)

lemma length_overwrite (xs : List α) (off : Nat) (ys : List α) :
    (overwrite fill xs off ys).length = max xs.length (off + ys.length) := by
  simp only [overwrite, List.length_append, List.length_take, List.length_replicate,
    List.length_drop]
  omega

/-- A write that stays inside the sequence does not change its length. -/
lemma length_overwrite_of_le {xs : List α} {off : Nat} {ys : List α}
    (h : off + ys.length ≤ xs.length) : (overwrite fill xs off ys).length = xs.length := by
  rw [length_overwrite, Nat.max_eq_left h]

lemma le_length_overwrite (xs : List α) (off : Nat) (ys : List α) :
    xs.length ≤ (overwrite fill xs off ys).length := by
  rw [length_overwrite]
  exact Nat.le_max_left _ _

/-- Outside the written segment nothing changes. -/
lemma getElem?_overwrite_of_notMem {xs : List α} {off i : Nat} {ys : List α}
    (hi : i < off ∨ off + ys.length ≤ i) (h : off ≤ xs.length) :
    (overwrite fill xs off ys)[i]? = xs[i]? := by
  have hgap : off - xs.length = 0 := by omega
  have hlen : (List.take off xs).length = off := by simp [h]
  simp only [overwrite, hgap, List.replicate_zero, List.append_nil, List.append_assoc]
  rcases hi with hi | hi
  · rw [List.getElem?_append_left (by omega), List.getElem?_take_of_lt hi]
  · rw [List.getElem?_append_right (by omega), List.getElem?_append_right (by omega),
      List.getElem?_drop]
    congr 1
    omega

/-- A write over a segment of its own length puts itself in its place. -/
lemma overwrite_segment {front old ys : List α} (back : List α) {off : Nat} (hoff : front.length = off)
    (hlength : ys.length = old.length) :
    overwrite fill (front ++ old ++ back) off ys = front ++ ys ++ back := by
  have hgap : off - (front ++ old ++ back).length = 0 := by
    simp only [List.length_append]
    omega
  have hback : (front ++ old).length = off + ys.length := by
    rw [List.length_append, hoff, hlength]
  rw [overwrite, hgap, List.replicate_zero, List.append_nil, List.drop_left' hback, List.append_assoc front,
    List.take_left' hoff]

/-- Two sequences of one length that differ at most at the positions in `Z`. -/
def AgreeOff (Z : Nat → Prop) (xs ys : List α) : Prop :=
  xs.length = ys.length ∧ ∀ i, ¬ Z i → xs[i]? = ys[i]?

lemma AgreeOff.refl (Z : Nat → Prop) (xs : List α) : AgreeOff Z xs xs :=
  ⟨rfl, fun _ _ => rfl⟩

lemma AgreeOff.mono {Z W : Nat → Prop} {xs ys : List α} (h : AgreeOff Z xs ys)
    (hZ : ∀ i, Z i → W i) : AgreeOff W xs ys :=
  ⟨h.1, fun i hi => h.2 i fun hz => hi (hZ i hz)⟩

lemma AgreeOff.append {Z : Nat → Prop} {xs ys : List α} (h : AgreeOff Z xs ys) (zs : List α) :
    AgreeOff Z (xs ++ zs) (ys ++ zs) := by
  refine ⟨by simp [h.1], fun i hi => ?_⟩
  by_cases hlt : i < xs.length
  · rw [List.getElem?_append_left hlt, List.getElem?_append_left (h.1 ▸ hlt), h.2 i hi]
  · rw [List.getElem?_append_right (by omega), List.getElem?_append_right (by have := h.1; omega),
      h.1]

/-- An overwrite inside the sequence whose segment lies in `Z` keeps the agreement. -/
lemma AgreeOff.overwrite {Z : Nat → Prop} {xs ys : List α} (h : AgreeOff Z xs ys)
    {off : Nat} {zs : List α} (hle : off + zs.length ≤ xs.length)
    (hZ : ∀ i, off ≤ i → i < off + zs.length → Z i) :
    AgreeOff Z (overwrite fill xs off zs) ys := by
  refine ⟨by rw [length_overwrite_of_le fill hle, h.1], fun i hi => ?_⟩
  have hout : i < off ∨ off + zs.length ≤ i := by
    by_contra hc
    rw [not_or, Nat.not_lt, Nat.not_le] at hc
    exact hi (hZ i hc.1 hc.2)
  rw [getElem?_overwrite_of_notMem fill hout (by omega), h.2 i hi]

/-! ### Several overwrites -/

/-- The writes of a list, one after another. -/
def overwriteAll (xs : List α) (writes : List (Nat × List α)) : List α :=
  writes.foldl (fun xs w => overwrite fill xs w.1 w.2) xs

@[simp] lemma overwriteAll_nil (xs : List α) : overwriteAll fill xs [] = xs := rfl

@[simp] lemma overwriteAll_cons (xs : List α) (w : Nat × List α) (writes : List (Nat × List α)) :
    overwriteAll fill xs (w :: writes) = overwriteAll fill (overwrite fill xs w.1 w.2) writes := rfl

lemma overwriteAll_append (xs : List α) (ws ws' : List (Nat × List α)) :
    overwriteAll fill xs (ws ++ ws') = overwriteAll fill (overwriteAll fill xs ws) ws' := by
  simp [overwriteAll, List.foldl_append]

lemma le_length_overwriteAll (xs : List α) (writes : List (Nat × List α)) :
    xs.length ≤ (overwriteAll fill xs writes).length := by
  induction writes generalizing xs with
  | nil => exact Nat.le_refl _
  | cons w writes ih => exact Nat.le_trans (le_length_overwrite fill xs w.1 w.2) (ih _)

/-- The sequence keeps its length exactly when every write stays inside it. -/
lemma length_overwriteAll_eq_iff (xs : List α) (writes : List (Nat × List α)) :
    (overwriteAll fill xs writes).length = xs.length ↔
      ∀ w ∈ writes, w.1 + w.2.length ≤ xs.length := by
  induction writes generalizing xs with
  | nil => simp
  | cons w writes ih =>
    have hgrows := le_length_overwriteAll fill (overwrite fill xs w.1 w.2) writes
    have hfirst := length_overwrite fill xs w.1 w.2
    rw [overwriteAll_cons, List.forall_mem_cons]
    constructor
    · intro h
      have hin : w.1 + w.2.length ≤ xs.length := by omega
      have hlen := length_overwrite_of_le fill hin
      exact ⟨hin, hlen ▸ (ih _).mp (h.trans hlen.symm)⟩
    · rintro ⟨hin, hrest⟩
      have hlen := length_overwrite_of_le fill hin
      exact ((ih _).mpr (hlen ▸ hrest)).trans hlen

/-- Writes that stay inside the sequence and inside `Z` keep the agreement. -/
lemma AgreeOff.overwriteAll {Z : Nat → Prop} {xs ys : List α} (h : AgreeOff Z xs ys)
    {writes : List (Nat × List α)} (hle : ∀ w ∈ writes, w.1 + w.2.length ≤ xs.length)
    (hZ : ∀ w ∈ writes, ∀ i, w.1 ≤ i → i < w.1 + w.2.length → Z i) :
    AgreeOff Z (overwriteAll fill xs writes) ys := by
  induction writes generalizing xs with
  | nil => exact h
  | cons w writes ih =>
    rw [List.forall_mem_cons] at hle hZ
    have hlen := length_overwrite_of_le fill hle.1
    exact ih (h.overwrite fill hle.1 hZ.1) (hlen.symm ▸ hle.2) hZ.2

end Overwrite
