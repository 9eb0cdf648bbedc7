import Mathlib.Data.List.Basic

/-!
# Texts whose brackets nest

Texts in which every parenthesis and every brace is closed by one of its kind. `Bracketed` is such a text
with its structure, for definitions that go into a bracket or over it. Angle brackets are characters like any
other: they are operators too.
-/

namespace Brackets

inductive BracketKind where
  | paren
  | brace
deriving DecidableEq, Repr

namespace BracketKind

def openChar : BracketKind → Char
  | paren => '('
  | brace => '{'

def closeChar : BracketKind → Char
  | paren => ')'
  | brace => '}'

end BracketKind

def isBracket (c : Char) : Bool := "(){}".toList.contains c

/-- A text whose brackets nest. -/
inductive Bracketed where
  | nil
  | char (c : Char) (plain : isBracket c = false) (rest : Bracketed)
  | group (b : BracketKind) (inner rest : Bracketed)

lemma ne_openChar {c : Char} (h : isBracket c = false) (b : BracketKind) : c ≠ b.openChar := by
  rintro rfl
  cases b <;> simp [isBracket, BracketKind.openChar] at h

lemma ne_closeChar {c : Char} (h : isBracket c = false) (b : BracketKind) : c ≠ b.closeChar := by
  rintro rfl
  cases b <;> simp [isBracket, BracketKind.closeChar] at h

lemma openChar_ne_closeChar (b b' : BracketKind) : b.openChar ≠ b'.closeChar := by
  cases b <;> cases b' <;> decide

lemma openChar_inj {b b' : BracketKind} : b.openChar = b'.openChar ↔ b = b' := by
  cases b <;> cases b' <;> decide

lemma closeChar_inj {b b' : BracketKind} : b.closeChar = b'.closeChar ↔ b = b' := by
  cases b <;> cases b' <;> decide

namespace Bracketed

def text : Bracketed → List Char
  | nil                => []
  | char c _ rest      => c :: rest.text
  | group b inner rest => b.openChar :: (inner.text ++ b.closeChar :: rest.text)

/-- A text without brackets. -/
def plain : (t : List Char) → t.all (!isBracket ·) = true → Bracketed
  | [], _     => nil
  | c :: t, h =>
    have hall : isBracket c = false ∧ t.all (!isBracket ·) = true := by simpa using h
    char c hall.1 (plain t hall.2)

@[simp] lemma text_plain (t : List Char) (h : t.all (!isBracket ·) = true) : (plain t h).text = t := by
  induction t with
  | nil => rfl
  | cons c t ih => exact congrArg (c :: ·) (ih _)

def append : Bracketed → Bracketed → Bracketed
  | nil, t                => t
  | char c plain rest, t  => char c plain (rest.append t)
  | group b inner rest, t => group b inner (rest.append t)

instance : Append Bracketed := ⟨append⟩

@[simp] lemma nil_append (t : Bracketed) : nil ++ t = t := rfl

@[simp] lemma char_append (c : Char) (plain : isBracket c = false) (rest t : Bracketed) :
    char c plain rest ++ t = char c plain (rest ++ t) := rfl

@[simp] lemma group_append (b : BracketKind) (inner rest t : Bracketed) :
    group b inner rest ++ t = group b inner (rest ++ t) := rfl

@[simp] lemma text_append (s t : Bracketed) : (s ++ t).text = s.text ++ t.text := by
  induction s with
  | nil => rfl
  | char c plain rest ih => exact congrArg (c :: ·) ih
  | group b inner rest _ ih => simp [text, ih]

lemma append_assoc (s t u : Bracketed) : s ++ t ++ u = s ++ (t ++ u) := by
  induction s with
  | nil => rfl
  | char c plain rest ih => exact congrArg (char c plain ·) ih
  | group b inner rest _ ih => exact congrArg (group b inner ·) ih

end Bracketed

end Brackets
