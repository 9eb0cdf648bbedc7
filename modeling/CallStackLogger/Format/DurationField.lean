import CallStackLogger.Core.CBuffer
import CallStackLogger.Format.Duration

/-!
# The duration field in its buffer

`format_duration_12chars` as it fills the caller's buffer, and a reader of the field: what is read back is the
duration, cut at the last digit its unit displays.
-/

namespace CallStackLogger

open Checked

/-! ### The formatter -/

inductive DurationUnit where
  | nanoseconds
  | microseconds
  | milliseconds
  | seconds
deriving DecidableEq, Repr

def DurationUnit.text : DurationUnit → Text
  | .nanoseconds  => "ns".toList
  | .microseconds => "us".toList
  | .milliseconds => "ms".toList
  | .seconds      => "s ".toList

/-- A duration split into the whole and the three-digit fractional part of its unit. -/
structure DurationParts where
  whole : Nat
  frac : Nat
  unit : DurationUnit
deriving DecidableEq, Repr

/-- The unit is picked by the range; a duration above the last one has no parts. -/
def durationParts (ns : Nat) : Option DurationParts :=
  if ns < 1000 then some ⟨ns, 0, .nanoseconds⟩
  else if ns < 1000000 then some ⟨ns / 1000, ns % 1000, .microseconds⟩
  else if ns < 1000000000 then some ⟨ns / 1000000, ns % 1000000 / 1000, .milliseconds⟩
  else if ns < 1000000000000 then some ⟨ns / 1000000000, ns % 1000000000 / 1000000, .seconds⟩
  else none

/-- What the field is asked to be. -/
def DurationParts.text (p : DurationParts) : Text := durationText p.whole p.frac p.unit.text

/-- `format_duration_12chars` with its buffer `out`. -/
def formatDuration12charsInto (ns : Nat) (out : Text) : Except Fault Text :=
  match durationParts ns with
  | none => store out 0 (durationSaturation ++ ['\x00'])
  | some p => do
    let out ← print out (durationFieldWidth + 1) p.text
    if snprintfResult p.text ≠ durationFieldWidth then store out 0 (durationSaturation ++ ['\x00']) else .ok out

/-! ### Reading the field back -/

/-- What the third digit behind the point stands for, in picoseconds. -/
def DurationUnit.lastDigit : DurationUnit → Nat
  | .nanoseconds  => 1
  | .microseconds => 1000
  | .milliseconds => 1000000
  | .seconds      => 1000000000

def DurationParts.picoseconds (p : DurationParts) : Nat := (p.whole * 1000 + p.frac) * p.unit.lastDigit

def readNumber (t : Text) : Option Nat :=
  if t ≠ [] ∧ t.all Char.isDigit = true then some (digitsValue t) else none

def readUnit (t : Text) : Option DurationUnit :=
  [DurationUnit.nanoseconds, .microseconds, .milliseconds, .seconds].find? fun unit => unit.text = t

/-- The parts a field shows. -/
def readDuration (field : Text) : Option DurationParts :=
  if field.length = durationFieldWidth ∧ field[0]? = some '[' ∧ field[5]? = some '.' ∧ field[11]? = some ']' then do
    let whole ← readNumber (((field.drop 1).take 4).dropWhile (· = ' '))
    let frac ← readNumber ((field.drop 6).take 3)
    let unit ← readUnit ((field.drop 9).take 2)
    return ⟨whole, frac, unit⟩
  else none

/-- The duration a field shows, in picoseconds. A field that shows none is saturated: longer than any other. -/
def shownDuration (field : Text) : WithTop Nat :=
  match readDuration field with
  | some p => (p.picoseconds : Nat)
  | none   => ⊤

/-! ### The parts -/

section Parts

variable {ns ns' : Nat} {p p' : DurationParts}

/-- The parts in each of the four ranges. -/
lemma durationParts_cases (h : durationParts ns = some p) :
    (ns < 1000 ∧ p = ⟨ns, 0, .nanoseconds⟩) ∨
    (1000 ≤ ns ∧ ns < 1000000 ∧ p = ⟨ns / 1000, ns % 1000, .microseconds⟩) ∨
    (1000000 ≤ ns ∧ ns < 1000000000 ∧ p = ⟨ns / 1000000, ns % 1000000 / 1000, .milliseconds⟩) ∨
    1000000000 ≤ ns ∧ ns < 1000000000000 ∧ p = ⟨ns / 1000000000, ns % 1000000000 / 1000000, .seconds⟩ := by
  rw [durationParts] at h
  split_ifs at h with hnano hmicro hmilli hsecond
  · exact .inl ⟨hnano, (Option.some.inj h).symm⟩
  · exact .inr (.inl ⟨Nat.le_of_not_lt hnano, hmicro, (Option.some.inj h).symm⟩)
  · exact .inr (.inr (.inl ⟨Nat.le_of_not_lt hmicro, hmilli, (Option.some.inj h).symm⟩))
  · exact .inr (.inr (.inr ⟨Nat.le_of_not_lt hmilli, hsecond, (Option.some.inj h).symm⟩))

/-- Neither part outgrows its three digits. -/
lemma durationParts_lt (h : durationParts ns = some p) : p.whole < 1000 ∧ p.frac < 1000 := by
  rcases durationParts_cases h with ⟨hlt, rfl⟩ | ⟨-, hlt, rfl⟩ | ⟨-, hlt, rfl⟩ | ⟨-, hlt, rfl⟩
  · exact ⟨hlt, Nat.succ_pos 999⟩
  · exact ⟨Nat.div_lt_of_lt_mul hlt, Nat.mod_lt _ (by decide)⟩
  · exact ⟨Nat.div_lt_of_lt_mul hlt, Nat.div_lt_of_lt_mul (Nat.mod_lt _ (by decide))⟩
  · exact ⟨Nat.div_lt_of_lt_mul hlt, Nat.div_lt_of_lt_mul (Nat.mod_lt _ (by decide))⟩

/-- A whole and its thousandths put together again. -/
lemma thousandths_eq (n s : Nat) : n / (s * 1000) * 1000 + n % (s * 1000) / s = n / s := by
  rw [Nat.mod_mul_right_div_self, ← Nat.div_div_eq_div_mul]
  exact Nat.div_add_mod' (n / s) 1000

/-- Together the parts are the duration, cut at the last digit. -/
lemma picoseconds_eq (h : durationParts ns = some p) :
    p.picoseconds = ns * 1000 / p.unit.lastDigit * p.unit.lastDigit := by
  rcases durationParts_cases h with ⟨-, rfl⟩ | ⟨-, -, rfl⟩ | ⟨-, -, rfl⟩ | ⟨-, -, rfl⟩
  · show (ns * 1000 + 0) * 1 = ns * 1000 / 1 * 1
    rw [Nat.div_one, Nat.add_zero]
  · show (ns / 1000 * 1000 + ns % 1000) * 1000 = ns * 1000 / 1000 * 1000
    rw [Nat.div_add_mod', Nat.mul_div_cancel ns (by decide)]
  · show (ns / 1000000 * 1000 + ns % 1000000 / 1000) * 1000000 = ns * 1000 / 1000000 * 1000000
    rw [thousandths_eq ns 1000, Nat.mul_div_mul_right ns 1000 (by decide)]
  · show (ns / 1000000000 * 1000 + ns % 1000000000 / 1000000) * 1000000000 = ns * 1000 / 1000000000 * 1000000000
    rw [thousandths_eq ns 1000000, Nat.mul_div_mul_right ns 1000000 (by decide)]

/-- What the parts show is the displayed value. -/
lemma exists_displayed_eq (h : durationParts ns = some p) :
    ∃ value : Nat, displayed ns = value ∧ p.picoseconds = value * 1000 := by
  rw [picoseconds_eq h]
  rcases durationParts_cases h with ⟨hlt, rfl⟩ | ⟨-, hlt, rfl⟩ | ⟨hle, hlt, rfl⟩ | ⟨hle, hlt, rfl⟩
  · refine ⟨ns, if_pos (Nat.lt_trans hlt (by decide)), ?_⟩
    show ns * 1000 / 1 * 1 = ns * 1000
    omega
  · refine ⟨ns, if_pos hlt, ?_⟩
    show ns * 1000 / 1000 * 1000 = ns * 1000
    omega
  · refine ⟨ns / 1000 * 1000, ?_, ?_⟩
    · rw [displayed, if_neg (Nat.not_lt.mpr hle), if_pos hlt]
    · show ns * 1000 / 1000000 * 1000000 = ns / 1000 * 1000 * 1000
      omega
  · refine ⟨ns / 1000000 * 1000000, ?_, ?_⟩
    · rw [displayed, if_neg (by omega), if_neg (Nat.not_lt.mpr hle), if_pos hlt]
    · show ns * 1000 / 1000000000 * 1000000000 = ns / 1000000 * 1000000 * 1000
      omega

lemma durationParts_eq_none_iff : durationParts ns = none ↔ 1000000000000 ≤ ns := by
  rw [durationParts]
  split_ifs with hnano hmicro hmilli hsecond
  · exact iff_of_false id (by omega)
  · exact iff_of_false id (by omega)
  · exact iff_of_false id (by omega)
  · exact iff_of_false id (by omega)
  · exact iff_of_true rfl (by omega)

lemma formatDuration12chars_eq (ns : Nat) :
    formatDuration12chars ns = match durationParts ns with
      | some p => durationOrSaturation p.text
      | none   => durationSaturation := by
  rw [formatDuration12chars, durationParts]
  split_ifs <;> rfl

lemma length_text (hwhole : p.whole < 1000) (hfrac : p.frac < 1000) : p.text.length = durationFieldWidth := by
  have hunit : p.unit.text.length = 2 := by cases p.unit <;> rfl
  simp [DurationParts.text, durationText, length_padLeft ' ' (by decide : 3 ≤ 4) hwhole,
    length_padLeft '0' (Nat.le_refl 3) hfrac, hunit, durationFieldWidth]

/-- The width the formatter checks is the one it gets. -/
lemma snprintfResult_text (h : durationParts ns = some p) : snprintfResult p.text = durationFieldWidth := by
  obtain ⟨hwhole, hfrac⟩ := durationParts_lt h
  rw [snprintfResult, length_text hwhole hfrac, if_pos (by decide)]

lemma formatDuration12chars_of_parts (h : durationParts ns = some p) : formatDuration12chars ns = p.text := by
  obtain ⟨hwhole, hfrac⟩ := durationParts_lt h
  rw [formatDuration12chars_eq, h]
  exact if_pos (length_text hwhole hfrac)

lemma formatDuration12chars_of_none (h : durationParts ns = none) : formatDuration12chars ns = durationSaturation := by
  rw [formatDuration12chars_eq, h]

/-- The field and its NUL are put at the start of the buffer. -/
lemma formatDuration12charsInto_eq {out : Text} (hout : durationFieldWidth + 1 ≤ out.length) :
    formatDuration12charsInto ns out = .ok (filled (formatDuration12chars ns ++ ['\x00']) out) := by
  rw [formatDuration12charsInto]
  cases hparts : durationParts ns with
  | none =>
    rw [formatDuration12chars_of_none hparts]
    exact store_front hout
  | some p =>
    obtain ⟨hwhole, hfrac⟩ := durationParts_lt hparts
    have hlength := length_text hwhole hfrac
    have hprint : print out (durationFieldWidth + 1) p.text = .ok (filled (p.text ++ ['\x00']) out) :=
      print_of_lt (by omega) (by omega)
    rw [formatDuration12chars_of_parts hparts]
    simp only [hprint, snprintfResult_text hparts, ne_eq, not_true_eq_false, if_false]
    rfl

end Parts

/-! ### The reader -/

section Reader

variable {ns ns' : Nat} {p : DurationParts}

lemma readNumber_of_digits {t : Text} (hne : t ≠ []) (h : ∀ c ∈ t, c.isDigit = true) :
    readNumber t = some (digitsValue t) := if_pos ⟨hne, List.all_eq_true.mpr h⟩

lemma readNumber_decimal (n : Nat) : readNumber (decimal n) = some n := by
  have hdigits : ∀ c ∈ decimal n, c.isDigit = true := fun c => isDigit_of_mem_decimal
  have hne : decimal n ≠ [] := Nat.toDigits_ne_nil
  rw [readNumber_of_digits hne hdigits, digitsValue_decimal]

lemma readNumber_padLeft_zero (width n : Nat) : readNumber (padLeft width '0' n) = some n := by
  have hdigits : ∀ c ∈ padLeft width '0' n, c.isDigit = true := by
    intro c hc
    rcases List.mem_append.mp hc with hpad | hdecimal
    · rw [List.eq_of_mem_replicate hpad]
      decide
    · exact isDigit_of_mem_decimal hdecimal
  have hne : padLeft width '0' n ≠ [] := List.append_ne_nil_of_right_ne_nil _ Nat.toDigits_ne_nil
  rw [readNumber_of_digits hne hdigits, digitsValue_padLeft (.inr rfl)]

/-- The blanks in front of a number end at its first digit. -/
lemma dropWhile_padLeft_blank (width n : Nat) : (padLeft width ' ' n).dropWhile (· = ' ') = decimal n := by
  have hdecimal : (decimal n).dropWhile (· = ' ') = decimal n := by
    cases hdigits : decimal n with
    | nil => rfl
    | cons c t =>
      have hc : c.isDigit = true := isDigit_of_mem_decimal (n := n) (hdigits ▸ List.mem_cons_self)
      have hblank : c ≠ ' ' := by
        rintro rfl
        exact absurd hc (by decide)
      simp [hblank]
  rw [padLeft, List.dropWhile_append_of_pos, hdecimal]
  intro c hc
  rw [List.eq_of_mem_replicate hc]
  rfl

lemma readUnit_text (unit : DurationUnit) : readUnit unit.text = some unit := by
  cases unit <;> rfl

/-- The reader undoes the formatter. -/
lemma readDuration_text (hwhole : p.whole < 1000) (hfrac : p.frac < 1000) : readDuration p.text = some p := by
  have hp := length_padLeft ' ' (by decide : 3 ≤ 4) hwhole
  have hq := length_padLeft '0' (Nat.le_refl 3) hfrac
  have hunit : p.unit.text.length = 2 := by cases p.unit <;> rfl
  have hreadWhole : readNumber ((padLeft 4 ' ' p.whole).dropWhile (· = ' ')) = some p.whole := by
    rw [dropWhile_padLeft_blank, readNumber_decimal]
  have hreadFrac := readNumber_padLeft_zero 3 p.frac
  have hreadUnit := readUnit_text p.unit
  rw [DurationParts.text, durationText]
  generalize padLeft 4 ' ' p.whole = w at hp hreadWhole ⊢
  generalize padLeft 3 '0' p.frac = f at hq hreadFrac ⊢
  generalize p.unit.text = u at hunit hreadUnit ⊢
  obtain ⟨a, b, c, d, rfl⟩ := List.length_eq_four.mp hp
  obtain ⟨x, y, z, rfl⟩ := List.length_eq_three.mp hq
  obtain ⟨s, t, rfl⟩ := List.length_eq_two.mp hunit
  show (do
    let whole ← readNumber ([a, b, c, d].dropWhile (· = ' '))
    let frac ← readNumber [x, y, z]
    let unit ← readUnit [s, t]
    return (⟨whole, frac, unit⟩ : DurationParts)) = some p
  rw [hreadWhole, hreadFrac, hreadUnit]
  rfl

lemma readDuration_of_parts (h : durationParts ns = some p) : readDuration (formatDuration12chars ns) = some p := by
  obtain ⟨hwhole, hfrac⟩ := durationParts_lt h
  rw [formatDuration12chars_of_parts h]
  exact readDuration_text hwhole hfrac

lemma readDuration_saturation : readDuration durationSaturation = none := by decide

/-- A longer duration is never shown as a shorter one. -/
lemma shownDuration_mono (h : ns ≤ ns') :
    shownDuration (formatDuration12chars ns) ≤ shownDuration (formatDuration12chars ns') := by
  have hdisplayed := displayed_mono h
  cases hparts' : durationParts ns' with
  | none =>
    rw [formatDuration12chars_of_none hparts', shownDuration, shownDuration, readDuration_saturation]
    exact le_top
  | some p' =>
    cases hparts : durationParts ns with
    | none =>
      have hlarge : durationParts ns' = none :=
        durationParts_eq_none_iff.mpr (Nat.le_trans (durationParts_eq_none_iff.mp hparts) h)
      exact absurd (hparts'.symm.trans hlarge) (Option.some_ne_none p')
    | some p =>
      obtain ⟨value, hvalue, hp⟩ := exists_displayed_eq hparts
      obtain ⟨value', hvalue', hp'⟩ := exists_displayed_eq hparts'
      rw [hvalue, hvalue'] at hdisplayed
      rw [shownDuration, shownDuration, readDuration_of_parts hparts, readDuration_of_parts hparts']
      show (p.picoseconds : WithTop Nat) ≤ (p'.picoseconds : WithTop Nat)
      rw [hp, hp']
      exact WithTop.coe_le_coe.mpr (Nat.mul_le_mul_right _ (WithTop.coe_le_coe.mp hdisplayed))

end Reader

/-! ### The field -/

/-- Twelve characters between brackets, a blank behind the first one. -/
structure IsDurationField (field : Text) : Prop where
  length_eq : field.length = durationFieldWidth
  head : field[0]? = some '['
  blank : field[1]? = some ' '
  last : field.getLast? = some ']'
  notMem_nul : '\x00' ∉ field

lemma isDurationField_saturation : IsDurationField durationSaturation :=
  ⟨rfl, rfl, rfl, rfl, by decide⟩

lemma notMem_nul_padLeft {pad : Char} (hpad : pad ≠ '\x00') (width n : Nat) : '\x00' ∉ padLeft width pad n := by
  intro hmem
  rcases List.mem_append.mp hmem with hleft | hdecimal
  · exact hpad (List.eq_of_mem_replicate hleft).symm
  · exact absurd (isDigit_of_mem_decimal hdecimal) (by decide)

/-- Whatever the duration, the field is whole. -/
lemma isDurationField_formatDuration (ns : Nat) : IsDurationField (formatDuration12chars ns) := by
  cases hparts : durationParts ns with
  | none =>
    rw [formatDuration12chars_of_none hparts]
    exact isDurationField_saturation
  | some p =>
    obtain ⟨rest, hhead⟩ := formatDuration_head ns
    have htext := formatDuration12chars_of_parts hparts
    refine ⟨length_formatDuration12chars ns, ?_, ?_, ?_, ?_⟩
    · rw [hhead]
      rfl
    · rw [hhead]
      rfl
    · rw [htext, DurationParts.text, durationText, List.getLast?_append]
      rfl
    · have hunit : '\x00' ∉ p.unit.text := by cases p.unit <;> decide
      rw [htext, DurationParts.text, durationText]
      simp [notMem_nul_padLeft, hunit]

/-- The field of a duration: what is read back is the duration cut at the last digit of its unit, up to the end of the
seconds. -/
structure ShowsDuration (ns : Nat) (field : Text) : Prop where
  isDurationField : IsDurationField field
  exact : ns < 10 ^ 12 → ∃ p, readDuration field = some p ∧ p.whole ≤ 999 ∧ p.frac ≤ 999 ∧
    p.picoseconds = ns * 1000 / p.unit.lastDigit * p.unit.lastDigit
  saturated : 10 ^ 12 ≤ ns → field = durationSaturation

lemma showsDuration_formatDuration (ns : Nat) : ShowsDuration ns (formatDuration12chars ns) := by
  refine ⟨isDurationField_formatDuration ns, fun hns => ?_, fun hns => ?_⟩
  · cases hparts : durationParts ns with
    | none => exact absurd (durationParts_eq_none_iff.mp hparts) (by omega)
    | some p =>
      obtain ⟨hwhole, hfrac⟩ := durationParts_lt hparts
      exact ⟨p, readDuration_of_parts hparts, Nat.le_of_lt_succ hwhole, Nat.le_of_lt_succ hfrac, picoseconds_eq hparts⟩
  · exact formatDuration12chars_of_none (durationParts_eq_none_iff.mpr hns)

/-- The duration field is exact and keeps the order of durations: every duration fills twelve bytes of its buffer
with its field and the thirteenth with the NUL, without the fallback, and a shorter duration is never shown as a longer
one. -/
theorem duration_field_exact (ns : Nat) (out : Text) (hout : durationFieldWidth + 1 ≤ out.length) :
    (∃ field, formatDuration12charsInto ns out = .ok (field ++ '\x00' :: out.drop (durationFieldWidth + 1)) ∧
      ShowsDuration ns field ∧
      ∀ (ns' : Nat) (field' : Text), ns ≤ ns' →
        formatDuration12charsInto ns' out = .ok (field' ++ '\x00' :: out.drop (durationFieldWidth + 1)) →
        shownDuration field ≤ shownDuration field') ∧
    ∀ p, durationParts ns = some p → snprintfResult p.text = durationFieldWidth := by
  have hfilled : ∀ ns : Nat, formatDuration12charsInto ns out =
      .ok (formatDuration12chars ns ++ '\x00' :: out.drop (durationFieldWidth + 1)) := by
    intro ns
    rw [formatDuration12charsInto_eq hout, filled, List.length_append, length_formatDuration12chars, List.append_assoc]
    rfl
  refine ⟨⟨formatDuration12chars ns, hfilled ns, showsDuration_formatDuration ns, ?_⟩, fun p => snprintfResult_text⟩
  intro ns' field' hle hfield'
  obtain rfl : formatDuration12chars ns' = field' :=
    List.append_cancel_right (Except.ok.inj ((hfilled ns').symm.trans hfield'))
  exact shownDuration_mono hle

/-- Just below a second. -/
theorem duration_field_exact_milliseconds :
    (∃ field, formatDuration12charsInto 999999999 (List.replicate 13 '?') =
        .ok (field ++ '\x00' :: (List.replicate 13 '?').drop (durationFieldWidth + 1)) ∧
      ShowsDuration 999999999 field ∧
      ∀ (ns' : Nat) (field' : Text), 999999999 ≤ ns' →
        formatDuration12charsInto ns' (List.replicate 13 '?') =
          .ok (field' ++ '\x00' :: (List.replicate 13 '?').drop (durationFieldWidth + 1)) →
        shownDuration field ≤ shownDuration field') ∧
    ∀ p, durationParts 999999999 = some p → snprintfResult p.text = durationFieldWidth :=
  duration_field_exact 999999999 (List.replicate 13 '?') (by decide)

end CallStackLogger
