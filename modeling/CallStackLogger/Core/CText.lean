import Mathlib.Algebra.Group.Nat.Defs
import Mathlib.Data.List.Basic

/-!
# Reading lines and numbers of a text

`getline` and `strtoull` of the C++ library. A position in a text is the rest of the text from it on. The lines of
a text that ends each of them are read back, and so is a number written in hexadecimal digits.
-/

namespace CText

/-! ### Lines -/

/-- What `while (std::getline(stream, line))` reads of a stream. -/
def readLines : List Char → List (List Char)
  | []     => []
  | c :: t =>
    if c = '\n' then [] :: readLines t
    else match readLines t with
      | []            => [[c]]
      | line :: lines => (c :: line) :: lines

lemma readLines_append {line : List Char} (h : '\n' ∉ line) (t : List Char) :
    readLines (line ++ '\n' :: t) = line :: readLines t := by
  induction line with
  | nil => simp [readLines]
  | cons c line ih =>
    obtain ⟨hc, hline⟩ := not_or.mp (mt List.mem_cons.mpr h)
    rw [List.cons_append, readLines, if_neg (Ne.symm hc), ih hline]

/-- Lines that are ended one by one are read one by one. -/
lemma readLines_flatMap {lines : List (List Char)} (h : ∀ line ∈ lines, '\n' ∉ line) :
    readLines (lines.flatMap (· ++ ['\n'])) = lines := by
  induction lines with
  | nil => rfl
  | cons line lines ih =>
    obtain ⟨hline, hlines⟩ := List.forall_mem_cons.mp h
    rw [List.flatMap_cons, List.append_assoc, List.singleton_append, readLines_append hline, ih hlines]

/-- Blocks that are each opened by a separator are split apart again. -/
lemma splitOn_flatMap {α : Type*} [BEq α] [LawfulBEq α] {sep : α} {blocks : List (List α)}
    (h : ∀ block ∈ blocks, sep ∉ block) : (blocks.flatMap (sep :: ·)).splitOn sep = [] :: blocks := by
  have hfirst : ∀ block, sep ∉ block →
      (block ++ blocks.flatMap (sep :: ·)).splitOn sep = block :: blocks := by
    induction blocks with
    | nil =>
      intro block hblock
      rw [List.flatMap_nil, List.append_nil, List.splitOn_eq_singleton hblock]
    | cons next blocks ih =>
      intro block hblock
      obtain ⟨hnext, hblocks⟩ := List.forall_mem_cons.mp h
      rw [List.flatMap_cons, List.cons_append, List.splitOn_append_cons_self_of_not_mem hblock, ih hblocks next hnext]
  exact hfirst [] (by simp)

/-! ### Hexadecimal numbers -/

def hexDigitValue? (c : Char) : Option Nat :=
  if '0' ≤ c ∧ c ≤ '9' then some (c.toNat - '0'.toNat)
  else if 'a' ≤ c ∧ c ≤ 'f' then some (c.toNat - 'a'.toNat + 10)
  else if 'A' ≤ c ∧ c ≤ 'F' then some (c.toNat - 'A'.toNat + 10)
  else none

def isHexDigit (c : Char) : Bool := (hexDigitValue? c).isSome

/-- The digits in front, behind a number that was read already. -/
def readHex : Nat → List Char → Nat × List Char
  | n, []     => (n, [])
  | n, c :: p =>
    match hexDigitValue? c with
    | some d => readHex (16 * n + d) p
    | none   => (n, c :: p)

def spaces : List Char := [' ', '\t', '\n', '\x0b', '\x0c', '\r']

/-- `isspace`. -/
def isSpace (c : Char) : Bool := spaces.contains c

/-- The sign in front. -/
def readSign (p : List Char) : Bool × List Char :=
  if p.head? = some '-' then (true, p.tail)
  else if p.head? = some '+' then (false, p.tail)
  else (false, p)

def startsNumber (p : List Char) : Bool := (p.head?.map isHexDigit).getD false

/-- The mark of a hexadecimal number, when a digit follows it. -/
def skipHexMark (p : List Char) : List Char :=
  if p.head? = some '0' ∧ (p.tail.head? = some 'x' ∨ p.tail.head? = some 'X') ∧ startsNumber p.tail.tail = true then
    p.tail.tail
  else p

/-- `strtoull(p, &end, 16)`: the number, the largest one when it does not fit, and where it ends. Nothing is read
where no number starts. -/
def strtoull (p : List Char) : Nat × List Char :=
  let (negative, q) := readSign (p.dropWhile isSpace)
  let q := skipHexMark q
  if startsNumber q = true then
    let (n, rest) := readHex 0 q
    (if n < 2 ^ 64 then if negative then (2 ^ 64 - n) % 2 ^ 64 else n else 2 ^ 64 - 1, rest)
  else (0, p)

/-- The number that digits make. -/
def hexValue (digits : List Char) : Nat := digits.foldl (fun n c => 16 * n + (hexDigitValue? c).getD 0) 0

section Digits

variable {digits rest : List Char} {c d : Char}

lemma ne_of_isHexDigit (hc : isHexDigit c = true) (hd : isHexDigit d = false) : c ≠ d := by
  rintro rfl
  exact absurd (hc.symm.trans hd) (by decide)

lemma isSpace_of_isHexDigit (hc : isHexDigit c = true) : isSpace c = false := by
  have hspaces : spaces.all (fun d => !isHexDigit d) = true := by decide
  rw [isSpace, List.contains_eq_mem, decide_eq_false_iff_not]
  intro hmem
  have hnot := List.all_eq_true.mp hspaces c hmem
  rw [hc] at hnot
  contradiction

lemma readHex_append (n : Nat) (hdigits : ∀ c ∈ digits, isHexDigit c = true)
    (hrest : ∀ c ∈ rest.head?, isHexDigit c = false) :
    readHex n (digits ++ rest) = (digits.foldl (fun n c => 16 * n + (hexDigitValue? c).getD 0) n, rest) := by
  induction digits generalizing n with
  | nil =>
    cases rest with
    | nil => rfl
    | cons c rest =>
      have hc : hexDigitValue? c = none := Option.not_isSome_iff_eq_none.mp (by simpa [isHexDigit] using hrest c rfl)
      rw [List.nil_append, readHex, hc]
      rfl
  | cons c digits ih =>
    obtain ⟨hc, hdigits⟩ := List.forall_mem_cons.mp hdigits
    obtain ⟨d, hd⟩ := Option.isSome_iff_exists.mp hc
    rw [List.cons_append, readHex, hd, List.foldl_cons, hd]
    exact ih _ hdigits

/-- A number is read up to what follows it. -/
lemma strtoull_digits (hne : digits ≠ []) (hdigits : ∀ c ∈ digits, isHexDigit c = true) (hlt : hexValue digits < 2 ^ 64)
    (hrest : ∀ c ∈ rest.head?, isHexDigit c = false ∧ c ≠ 'x' ∧ c ≠ 'X') :
    strtoull (digits ++ rest) = (hexValue digits, rest) := by
  obtain ⟨c, t, rfl⟩ := List.exists_cons_of_ne_nil hne
  obtain ⟨hc, ht⟩ := List.forall_mem_cons.mp hdigits
  have hspace : (c :: t ++ rest).dropWhile isSpace = c :: t ++ rest :=
    List.dropWhile_cons_of_neg (by rw [isSpace_of_isHexDigit hc]; exact Bool.false_ne_true)
  have hsign : readSign (c :: t ++ rest) = (false, c :: t ++ rest) := by
    have hminus : (c :: t ++ rest).head? ≠ some '-' := fun h =>
      ne_of_isHexDigit hc (d := '-') (by decide) (Option.some.inj h)
    have hplus : (c :: t ++ rest).head? ≠ some '+' := fun h =>
      ne_of_isHexDigit hc (d := '+') (by decide) (Option.some.inj h)
    rw [readSign, if_neg hminus, if_neg hplus]
  -- The mark's letter is no digit, so neither another digit nor what follows is taken for it.
  have hletter : ∀ x ∈ (t ++ rest).head?, x ≠ 'x' ∧ x ≠ 'X' := by
    intro x hx
    cases t with
    | nil => exact (hrest x hx).2
    | cons d t =>
      obtain rfl : d = x := Option.some.inj hx
      have hd : isHexDigit d = true := ht d List.mem_cons_self
      exact ⟨ne_of_isHexDigit hd (by decide), ne_of_isHexDigit hd (by decide)⟩
  have hmark : skipHexMark (c :: t ++ rest) = c :: t ++ rest := by
    refine if_neg ?_
    rintro ⟨-, hx | hX, -⟩
    · exact (hletter 'x' hx).1 rfl
    · exact (hletter 'X' hX).2 rfl
  have hstarts : startsNumber (c :: t ++ rest) = true := hc
  have hread := readHex_append 0 hdigits fun x hx => (hrest x hx).1
  simp only [strtoull, hspace, hsign, hmark, hstarts, if_true, hread, Bool.false_eq_true, if_false]
  exact congrArg (·, rest) (if_pos hlt)

end Digits

end CText
