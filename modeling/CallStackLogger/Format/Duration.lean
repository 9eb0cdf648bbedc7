import CallStackLogger.Format.Line
import Mathlib.Data.Nat.Digits.Defs

/-!
# The duration field

`include/durationFormat.h`: the fixed-width field a call line reserves for its duration, the
words an event line carries in its place, and `formatDuration12chars`, which renders a
nanosecond count into the field. Whatever is patched over the field has its width.
-/

namespace CallStackLogger

def durationFieldWidth : Nat := 12

def durationPlaceholder : Text := "[  pending ]".toList

def durationSaturation : Text := "[  >999.9s ]".toList

def durationUnwound : Text := "[  unwound ]".toList

def durationEventThrow : Text := "[  throw   ]".toList

def durationEventRethrow : Text := "[ rethrow  ]".toList

def durationEventCatch : Text := "[  catch   ]".toList

def durationEventTerminate : Text := "[ terminate]".toList

/-- Byte 1 of every field is free to carry a flag saying how the frame ended. -/
def setDurationFlag (field : Text) (flag : Char) : Text := field.set 1 flag

/-- `"%<width>d"` with the given padding character. -/
def padLeft (width : Nat) (pad : Char) (n : Nat) : Text :=
  List.replicate (width - (decimal n).length) pad ++ decimal n

/-- `"[%4" PRIu64 ".%03" PRIu64 "%s]"`. -/
def durationText (whole frac : Nat) (unit : Text) : Text :=
  '[' :: padLeft 4 ' ' whole ++ '.' :: padLeft 3 '0' frac ++ unit ++ [']']

/-- The defensive fallback for a text of another width. -/
def durationOrSaturation (written : Text) : Text :=
  if written.length = durationFieldWidth then written else durationSaturation

/-- Formats a nanosecond duration into the fixed-width field, scaled to a unit. -/
def formatDuration12chars (ns : Nat) : Text :=
  if ns < 1000 then durationOrSaturation (durationText ns 0 "ns".toList)
  else if ns < 1000000 then
    durationOrSaturation (durationText (ns / 1000) (ns % 1000) "us".toList)
  else if ns < 1000000000 then
    durationOrSaturation (durationText (ns / 1000000) (ns % 1000000 / 1000) "ms".toList)
  else if ns < 1000000000000 then
    durationOrSaturation (durationText (ns / 1000000000) (ns % 1000000000 / 1000000) "s ".toList)
  else durationSaturation

/-! ### Every field has the width of the placeholder -/

@[simp] lemma length_durationUnwound : durationUnwound.length = durationFieldWidth := rfl

@[simp] lemma length_setDurationFlag (field : Text) (flag : Char) :
    (setDurationFlag field flag).length = field.length := by
  simp [setDurationFlag]

lemma length_durationOrSaturation (written : Text) :
    (durationOrSaturation written).length = durationFieldWidth := by
  rw [durationOrSaturation]
  split_ifs with h
  · exact h
  · rfl

@[simp] lemma length_formatDuration12chars (ns : Nat) :
    (formatDuration12chars ns).length = durationFieldWidth := by
  rw [formatDuration12chars]
  split_ifs <;> first | exact length_durationOrSaturation _ | rfl

/-! ### The value a field displays -/

/-- The number the digits of a text make. -/
def digitsValue (t : Text) : Nat := Nat.ofDigitChars 10 (t.filter Char.isDigit) 0

/-- The unit at the end of a field, in nanoseconds. -/
def unitNanoseconds (unit : Text) : Nat :=
  if unit = "ns".toList then 1
  else if unit = "us".toList then 1000
  else if unit = "ms".toList then 1000000
  else 1000000000

/-- The value a field displays, in nanoseconds; the saturated field counts as larger than any other. A
flag makes no difference. -/
def fieldValue (field : Text) : WithTop Nat :=
  if field.drop 2 = durationSaturation.drop 2 then ⊤
  else
    ((digitsValue ((field.drop 1).take 4) * 1000 + digitsValue ((field.drop 6).take 3)) *
      unitNanoseconds ((field.drop 9).take 2) / 1000 : Nat)

lemma digitsValue_decimal (n : Nat) : digitsValue (decimal n) = n := by
  have hdigits : (decimal n).filter Char.isDigit = decimal n :=
    List.filter_eq_self.mpr fun c hc => isDigit_of_mem_decimal hc
  rw [digitsValue, hdigits]
  exact Nat.ofDigitChars_ten_toDigits

/-- Blanks and zeros in front of a number do not change it. -/
lemma digitsValue_padLeft {pad : Char} (hpad : pad = ' ' ∨ pad = '0') (width n : Nat) :
    digitsValue (padLeft width pad n) = n := by
  have hskip : ∀ (k : Nat) (t : Text), digitsValue (List.replicate k pad ++ t) = digitsValue t := by
    intro k t
    induction k with
    | zero => rfl
    | succ k ih =>
      rw [List.replicate_succ, List.cons_append, ← ih]
      rcases hpad with rfl | rfl <;> rfl
  rw [padLeft, hskip, digitsValue_decimal]

lemma length_decimal_le {n : Nat} (h : n < 1000) : (decimal n).length ≤ 3 :=
  (Nat.length_toDigits_le_iff (by decide) (by decide)).mpr h

lemma length_padLeft {width n : Nat} (pad : Char) (hwidth : 3 ≤ width) (h : n < 1000) :
    (padLeft width pad n).length = width := by
  have hlength := length_decimal_le h
  rw [padLeft, List.length_append, List.length_replicate]
  omega

/-- The text of a duration below a thousand units displays it. -/
lemma fieldValue_durationText {whole frac : Nat} {unit : Text} (hwhole : whole < 1000) (hfrac : frac < 1000)
    (hunit : unit.length = 2) :
    fieldValue (durationOrSaturation (durationText whole frac unit)) =
      ((whole * 1000 + frac) * unitNanoseconds unit / 1000 : Nat) := by
  have hp := length_padLeft ' ' (by decide : 3 ≤ 4) hwhole
  have hq := length_padLeft '0' (Nat.le_refl 3) hfrac
  have hwholeValue := digitsValue_padLeft (.inl rfl) 4 whole
  have hfracValue := digitsValue_padLeft (.inr rfl) 3 frac
  have hwidth : (durationText whole frac unit).length = durationFieldWidth := by
    simp [durationText, hp, hq, hunit, durationFieldWidth]
  rw [durationOrSaturation, if_pos hwidth, durationText]
  generalize padLeft 4 ' ' whole = p at hp hwholeValue ⊢
  generalize padLeft 3 '0' frac = q at hq hfracValue ⊢
  obtain ⟨a, b, c, d, rfl⟩ := List.length_eq_four.mp hp
  obtain ⟨x, y, z, rfl⟩ := List.length_eq_three.mp hq
  obtain ⟨u, v, rfl⟩ := List.length_eq_two.mp hunit
  have hopen : ¬ [b, c, d, '.', x, y, z, u, v, ']'] = durationSaturation.drop 2 := by
    intro heq
    have hpoint : some '.' = some '9' := congrArg (fun t : Text => t[3]?) heq
    exact absurd hpoint (by decide)
  show (if [b, c, d, '.', x, y, z, u, v, ']'] = durationSaturation.drop 2 then (⊤ : WithTop Nat) else
    ((digitsValue [a, b, c, d] * 1000 + digitsValue [x, y, z]) * unitNanoseconds [u, v] / 1000 : Nat)) = _
  rw [if_neg hopen, hwholeValue, hfracValue]

/-- What the field of a duration displays: the duration, cut to three digits behind the point of its
unit. -/
def displayed (ns : Nat) : WithTop Nat :=
  if ns < 1000000 then (ns : Nat)
  else if ns < 1000000000 then (ns / 1000 * 1000 : Nat)
  else if ns < 1000000000000 then (ns / 1000000 * 1000000 : Nat)
  else ⊤

lemma fieldValue_formatDuration (ns : Nat) : fieldValue (formatDuration12chars ns) = displayed ns := by
  rw [formatDuration12chars]
  split_ifs with hnano hmicro hmilli hsecond
  · rw [fieldValue_durationText hnano (by decide) rfl, displayed, if_pos (by omega)]
    exact congrArg _ (by show (ns * 1000 + 0) * 1 / 1000 = ns; omega)
  · rw [fieldValue_durationText (by omega) (Nat.mod_lt _ (by decide)) rfl, displayed, if_pos hmicro]
    exact congrArg _ (by show (ns / 1000 * 1000 + ns % 1000) * 1000 / 1000 = ns; omega)
  · rw [fieldValue_durationText (by omega) (by omega) rfl, displayed, if_neg hmicro, if_pos hmilli]
    exact congrArg _ (by
      show (ns / 1000000 * 1000 + ns % 1000000 / 1000) * 1000000 / 1000 = ns / 1000 * 1000
      omega)
  · rw [fieldValue_durationText (by omega) (by omega) rfl, displayed, if_neg hmicro, if_neg hmilli,
      if_pos hsecond]
    exact congrArg _ (by
      show (ns / 1000000000 * 1000 + ns % 1000000000 / 1000000) * 1000000000 / 1000 =
        ns / 1000000 * 1000000
      omega)
  · rw [displayed, if_neg hmicro, if_neg hmilli, if_neg hsecond]
    rfl

/-- The cut is finer for a shorter duration, and no unit starts below the last one. -/
lemma displayed_mono {ns ns' : Nat} (h : ns ≤ ns') : displayed ns ≤ displayed ns' := by
  simp only [displayed]
  by_cases hsecond : ns' < 1000000000000
  · by_cases hmilli : ns' < 1000000000
    · by_cases hmicro : ns' < 1000000
      · rw [if_pos (Nat.lt_of_le_of_lt h hmicro), if_pos hmicro]
        exact WithTop.coe_le_coe.mpr h
      · rw [if_neg hmicro, if_pos hmilli, if_pos (Nat.lt_of_le_of_lt h hmilli)]
        split_ifs
        · exact WithTop.coe_le_coe.mpr (show ns ≤ ns' / 1000 * 1000 by omega)
        · exact WithTop.coe_le_coe.mpr (Nat.mul_le_mul_right _ (Nat.div_le_div_right h))
    · rw [if_neg (by omega : ¬ ns' < 1000000), if_neg hmilli, if_pos hsecond,
        if_pos (Nat.lt_of_le_of_lt h hsecond)]
      split_ifs
      · exact WithTop.coe_le_coe.mpr (show ns ≤ ns' / 1000000 * 1000000 by omega)
      · exact WithTop.coe_le_coe.mpr (show ns / 1000 * 1000 ≤ ns' / 1000000 * 1000000 by omega)
      · exact WithTop.coe_le_coe.mpr (Nat.mul_le_mul_right _ (Nat.div_le_div_right h))
  · rw [if_neg (by omega : ¬ ns' < 1000000), if_neg (by omega : ¬ ns' < 1000000000), if_neg hsecond]
    exact le_top

/-- A longer duration is never displayed as a shorter one. -/
lemma fieldValue_formatDuration_mono {ns ns' : Nat} (h : ns ≤ ns') :
    fieldValue (formatDuration12chars ns) ≤ fieldValue (formatDuration12chars ns') := by
  rw [fieldValue_formatDuration, fieldValue_formatDuration]
  exact displayed_mono h

/-- Every field starts with its bracket and a blank. -/
lemma formatDuration_head (ns : Nat) : ∃ rest, formatDuration12chars ns = '[' :: ' ' :: rest := by
  have hpadded : ∀ {whole frac : Nat} {unit : Text}, whole < 1000 →
      ∃ rest, durationOrSaturation (durationText whole frac unit) = '[' :: ' ' :: rest := by
    intro whole frac unit hwhole
    have hlength := length_decimal_le hwhole
    rw [durationOrSaturation]
    split_ifs
    · obtain ⟨k, hk⟩ : ∃ k, 4 - (decimal whole).length = k + 1 := ⟨3 - (decimal whole).length, by omega⟩
      rw [durationText, padLeft, hk]
      exact ⟨_, rfl⟩
    · exact ⟨_, rfl⟩
  rw [formatDuration12chars]
  split_ifs with hnano hmicro hmilli hsecond
  · exact hpadded hnano
  · exact hpadded (by omega)
  · exact hpadded (by omega)
  · exact hpadded (by omega)
  · exact ⟨_, rfl⟩

/-- A flag leaves the displayed value alone. -/
lemma fieldValue_setDurationFlag {flag : Char} (hflag : flag.isDigit = false) (ns : Nat) :
    fieldValue (setDurationFlag (formatDuration12chars ns) flag) = fieldValue (formatDuration12chars ns) := by
  obtain ⟨rest, hrest⟩ := formatDuration_head ns
  have hblank : ' '.isDigit = false := by decide
  rw [hrest]
  simp [setDurationFlag, fieldValue, digitsValue, hflag, hblank]

end CallStackLogger
