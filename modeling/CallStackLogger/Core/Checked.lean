import Mathlib.Algebra.Group.Nat.Defs
import Mathlib.Data.List.Basic

/-!
# Checked computations on words and bytes

Arithmetic of 64-bit words and reads of little-endian fields, as a computation that stops with a fault where
the machine would wrap around, read a byte that is not there, or not come to an end. A computation that ends
without a fault is one in which nothing of this happens.
-/

namespace Checked

inductive Fault where
  | wraps
  | outside
  | unending
deriving DecidableEq, Repr

/-- A computation in two parts has a result when both have. -/
lemma exists_of_bind_eq_ok {α β : Type} {x : Except Fault α} {f : α → Except Fault β} {b : β}
    (h : x >>= f = .ok b) : ∃ a, x = .ok a ∧ f a = .ok b := by
  cases x with
  | error e => contradiction
  | ok a => exact ⟨a, rfl, h⟩

/-! ### Words -/

def add (m n : Nat) : Except Fault Nat := if m + n < 2 ^ 64 then .ok (m + n) else .error .wraps

def sub (m n : Nat) : Except Fault Nat := if n ≤ m then .ok (m - n) else .error .wraps

def mul (m n : Nat) : Except Fault Nat := if m * n < 2 ^ 64 then .ok (m * n) else .error .wraps

/-- `(n + align - 1) / align * align`. -/
def roundUp (n align : Nat) : Except Fault Nat := do
  let t ← add n align
  let t ← sub t 1
  mul (t / align) align

/-- The first multiple of `align` from `n` on. -/
def ceil (n align : Nat) : Nat := (n + align - 1) / align * align

/-- The conversion of a word to a signed 32-bit number. -/
def toInt (n : Nat) : Int := (n : Int).bmod (2 ^ 32)

/-- The conversion of a signed number to a word. -/
def toSize (n : Int) : Nat := (n % (2 ^ 64 : Nat)).toNat

variable {m n align : Nat}

lemma add_of_lt (h : m + n < 2 ^ 64) : add m n = .ok (m + n) := if_pos h

lemma sub_of_le (h : n ≤ m) : sub m n = .ok (m - n) := if_pos h

lemma mul_of_lt (h : m * n < 2 ^ 64) : mul m n = .ok (m * n) := if_pos h

lemma toInt_of_lt (h : n < 2 ^ 31) : toInt n = n := by
  apply Int.bmod_eq_of_le_mul_two
  · omega
  · omega

lemma toSize_natCast (h : n < 2 ^ 64) : toSize n = n := by
  rw [toSize, ← Int.natCast_emod, Int.toNat_natCast, Nat.mod_eq_of_lt h]

lemma le_ceil (halign : 0 < align) : n ≤ ceil n align := by
  have hdiv := Nat.div_add_mod (n + align - 1) align
  have hmod := Nat.mod_lt (n + align - 1) halign
  rw [ceil, Nat.mul_comm]
  omega

lemma ceil_lt (halign : 0 < align) : ceil n align < n + align := by
  have hle := Nat.div_mul_le_self (n + align - 1) align
  rw [ceil]
  omega

lemma roundUp_eq (halign : 0 < align) (h : n + align < 2 ^ 64) : roundUp n align = .ok (ceil n align) := by
  have hlt : (n + align - 1) / align * align < 2 ^ 64 := Nat.lt_trans (ceil_lt halign) h
  have hone : 1 ≤ n + align := by omega
  rw [roundUp, add_of_lt h]
  show (sub (n + align) 1 >>= fun t => mul (t / align) align) = _
  rw [sub_of_le hone]
  exact mul_of_lt hlt

/-! ### Bytes -/

def littleEndian : List UInt8 → Nat
  | []      => 0
  | b :: bs => b.toNat + 256 * littleEndian bs

lemma littleEndian_lt (bs : List UInt8) : littleEndian bs < 256 ^ bs.length := by
  induction bs with
  | nil => decide
  | cons b bs ih =>
    have hb := b.toNat_lt
    rw [littleEndian, List.length_cons, Nat.pow_succ]
    omega

/-- The field of the given width at an offset. -/
def field (width : Nat) (bytes : List UInt8) (offset : Nat) : Except Fault Nat :=
  if offset + width ≤ bytes.length then .ok (littleEndian ((bytes.drop offset).take width))
  else .error .outside

lemma field_of_le {width offset : Nat} {bytes : List UInt8} (h : offset + width ≤ bytes.length) :
    field width bytes offset = .ok (littleEndian ((bytes.drop offset).take width)) := if_pos h

end Checked
