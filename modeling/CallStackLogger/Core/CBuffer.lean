import CallStackLogger.Core.Checked

/-!
# Filling a caller's buffer

A buffer is what it has room for; a store that does not stay inside it is a fault. A routine that fills a buffer
from its start on is described by all it has put there so far.
-/

namespace Checked

section Store

variable {α : Type*} {front items out : List α}

/-- `memcpy(out + offset, items, n)`. -/
def store (out : List α) (offset : Nat) (items : List α) : Except Fault (List α) :=
  if offset + items.length ≤ out.length then .ok (out.take offset ++ items ++ out.drop (offset + items.length))
  else .error .outside

/-- The buffer when it starts with `front` and is untouched behind it. -/
def filled (front out : List α) : List α := front ++ out.drop front.length

@[simp] lemma filled_nil (out : List α) : filled [] out = out := rfl

lemma length_filled (h : front.length ≤ out.length) : (filled front out).length = out.length := by
  rw [filled, List.length_append, List.length_drop]
  omega

/-- A store right behind what is filled fills more. -/
lemma store_filled (h : front.length + items.length ≤ out.length) :
    store (filled front out) front.length items = .ok (filled (front ++ items) out) := by
  have hlength : (filled front out).length = out.length := length_filled (by omega)
  have htake : (filled front out).take front.length = front := List.take_left
  have hdrop : (filled front out).drop (front.length + items.length) =
      out.drop (front.length + items.length) := by
    rw [filled, List.drop_append, List.drop_of_length_le (Nat.le_add_right _ _), List.nil_append,
      Nat.add_sub_cancel_left, List.drop_drop]
  rw [store, if_pos (by omega), htake, hdrop, filled, List.length_append]

lemma store_front (h : items.length ≤ out.length) : store out 0 items = .ok (filled items out) := by
  have hfits : ([] : List α).length + items.length ≤ out.length := by simpa using h
  exact store_filled hfits

/-- What is stored once more stays. -/
lemma store_again (h : (front ++ items).length ≤ out.length) :
    store (filled (front ++ items) out) front.length items = .ok (filled (front ++ items) out) := by
  have hlength : (filled (front ++ items) out).length = out.length := length_filled h
  have htake : (filled (front ++ items) out).take front.length = front := by
    rw [filled, List.append_assoc, List.take_left]
  have hdrop : (filled (front ++ items) out).drop (front.length + items.length) =
      out.drop (front ++ items).length := by
    rw [filled, ← List.length_append, List.drop_left]
  rw [List.length_append] at h
  rw [store, if_pos (by omega), htake, hdrop, filled]

/-- `memcpy(out, source, n)`. -/
def copy (out source : List α) (n : Nat) : Except Fault (List α) :=
  if n ≤ source.length then store out 0 (source.take n) else .error .outside

lemma copy_of_le {source : List α} {n : Nat} (hsource : n ≤ source.length) (h : n ≤ out.length) :
    copy out source n = .ok (filled (source.take n) out) := by
  rw [copy, if_pos hsource, store_front]
  rwa [List.length_take_of_le hsource]

/-- `out[i]`. -/
def load (out : List α) (i : Nat) : Except Fault α :=
  match out[i]? with
  | some item => .ok item
  | none      => .error .outside

lemma load_of_getElem? {i : Nat} {item : α} (h : out[i]? = some item) : load out i = .ok item := by
  rw [load, h]

/-- `std::vector::resize`: what is cut off is gone, what is added is `zero`. -/
def resize (zero : α) (out : List α) (n : Nat) : List α := out.take n ++ List.replicate (n - out.length) zero

@[simp] lemma length_resize (zero : α) (out : List α) (n : Nat) : (resize zero out n).length = n := by
  rw [resize, List.length_append, List.length_take, List.length_replicate]
  omega

/-- A buffer cut behind what is filled is what was put there. -/
lemma resize_filled (zero : α) (h : front.length ≤ out.length) :
    resize zero (filled front out) front.length = front := by
  rw [resize, length_filled h, Nat.sub_eq_zero_of_le h, List.replicate_zero, List.append_nil, filled,
    List.take_left]

end Store

section String

variable {text out : List Char}

/-- `snprintf(out, size, "%s", text)`: what there is room for, and a NUL. -/
def print (out : List Char) (size : Nat) (text : List Char) : Except Fault (List Char) :=
  if size = 0 then .ok out else store out 0 (text.take (size - 1) ++ ['\x00'])

/-- A text that has room is printed whole. -/
lemma print_of_lt {size : Nat} (hsize : text.length < size) (h : text.length < out.length) :
    print out size text = .ok (filled (text ++ ['\x00']) out) := by
  have hfits : (text ++ ['\x00']).length ≤ out.length := by
    rw [List.length_append]
    exact h
  rw [print, if_neg (by omega), List.take_of_length_le (by omega), store_front hfits]

/-- `snprintf(out + offset, size, "%s", text)`. -/
def printAt (out : List Char) (offset size : Nat) (text : List Char) : Except Fault (List Char) :=
  if size = 0 then .ok out else store out offset (text.take (size - 1) ++ ['\x00'])

/-- What is printed right behind what is filled fills more, as far as there is room. -/
lemma printAt_filled {front : List Char} {size : Nat} (hsize : 0 < size) (h : front.length + size ≤ out.length) :
    printAt (filled front out) front.length size text =
      .ok (filled (front ++ text.take (size - 1) ++ ['\x00']) out) := by
  have hfits : front.length + (text.take (size - 1) ++ ['\x00']).length ≤ out.length := by
    rw [List.length_append, List.length_take, List.length_singleton]
    omega
  rw [printAt, if_neg (by omega), store_filled hfits, List.append_assoc]

/-- The string in a buffer ends at its NUL. -/
lemma takeWhile_filled (h : '\x00' ∉ text) (out : List Char) :
    (filled (text ++ ['\x00']) out).takeWhile (· ≠ '\x00') = text := by
  have hkept : ∀ c ∈ text, decide (c ≠ '\x00') = true := by
    rintro c hc
    exact decide_eq_true fun heq => h (heq ▸ hc)
  rw [filled, List.append_assoc, List.takeWhile_append_of_pos hkept]
  simp

end String

end Checked
