import CallStackLogger.Core.Scan
import CallStackLogger.Reconcile.Demangled
import Mathlib.Data.List.TakeWhile

/-!
# What the first scan keeps

The first scan of `functionBaseName`, one character or one bracketed group at a time, and the end of an
operator's name: the next parenthesis behind it, that of the call operator apart.
-/

namespace CallStackLogger

open Brackets

/-! ### Prefixes -/

/-- What follows a part of a name does not go on with a word. -/
def Detached (k r : Text) : Prop := ∀ c, r.head? = some c → c ∉ k

lemma Detached.nil (k : Text) : Detached k [] := by
  intro c hc
  simp at hc

lemma Detached.cons {k r : Text} {c : Char} (h : c ∉ k) : Detached k (c :: r) := by
  intro c' hc'
  rwa [← Option.some.inj hc']

/-- No prefix begins in a text and ends in what follows it. -/
lemma isPrefixOf_append {k r : Text} (h : Detached k r) (t : Text) :
    k.isPrefixOf (t ++ r) = k.isPrefixOf t := by
  induction k generalizing t with
  | nil => simp
  | cons x k ih =>
    have hk : Detached k r := fun c hc hmem => h c hc (List.mem_cons_of_mem x hmem)
    cases t with
    | cons c t => simp only [List.cons_append, List.isPrefixOf_cons_cons, ih hk]
    | nil =>
      cases r with
      | nil => rfl
      | cons c r =>
        have hne : x ≠ c := fun heq => h c rfl (heq ▸ List.mem_cons_self)
        simp [List.isPrefixOf_cons_cons, hne]

/-- The keyword does not begin with another letter than its own. -/
lemma isPrefixOf_keyword_cons {c : Char} (h : c ≠ 'o') (t : Text) :
    operatorKeyword.isPrefixOf (c :: t) = false := by
  have hkeyword : operatorKeyword = 'o' :: "perator".toList := rfl
  rw [hkeyword, List.isPrefixOf_cons_cons]
  simp [h.symm]

lemma drop_append_cons {α : Type*} (a : List α) (c : α) (r : List α) : (a ++ c :: r).drop (a.length + 1) = r := by
  induction a with
  | nil => rfl
  | cons x a ih => exact ih

/-! ### Matching brackets -/

section MatchingBracket

variable (b : BracketKind) {d : Int} {c : Char} (r : Text)

lemma matchingBracket_other (hopen : c ≠ b.openChar) (hclose : c ≠ b.closeChar) :
    matchingBracket b.openChar b.closeChar d (c :: r) =
      (matchingBracket b.openChar b.closeChar d r).map (· + 1) := by
  rw [matchingBracket, if_neg hopen, if_neg hclose]

lemma matchingBracket_open :
    matchingBracket b.openChar b.closeChar d (b.openChar :: r) =
      (matchingBracket b.openChar b.closeChar (d + 1) r).map (· + 1) := by
  rw [matchingBracket, if_pos rfl]

lemma matchingBracket_close (hd : 1 < d) :
    matchingBracket b.openChar b.closeChar d (b.closeChar :: r) =
      (matchingBracket b.openChar b.closeChar (d - 1) r).map (· + 1) := by
  have hne : d - 1 ≠ 0 := by omega
  rw [matchingBracket, if_neg (openChar_ne_closeChar b b).symm, if_pos rfl, if_neg hne]

/-- A text whose brackets nest is passed as a whole. -/
lemma matchingBracket_text (t : Bracketed) (hd : 0 < d) :
    matchingBracket b.openChar b.closeChar d (t.text ++ r) =
      (matchingBracket b.openChar b.closeChar d r).map (· + t.text.length) := by
  induction t generalizing d r with
  | nil => simp [Bracketed.text]
  | char c plain rest ih =>
    rw [Bracketed.text, List.cons_append, matchingBracket_other b _ (ne_openChar plain b) (ne_closeChar plain b),
      ih r hd, Option.map_map]
    rfl
  | group b' inner rest ihinner ihrest =>
    simp only [Bracketed.text, List.cons_append, List.append_assoc]
    by_cases hb : b' = b
    · subst hb
      have hd' : 0 < d + 1 := by omega
      rw [matchingBracket_open, ihinner _ hd', matchingBracket_close _ _ (by omega), Int.add_sub_cancel,
        ihrest r hd]
      simp only [Option.map_map, List.length_cons, List.length_append]
      congr 1
      funext n
      simp only [Function.comp_apply]
      omega
    · have hopen : b'.openChar ≠ b.openChar := fun h => hb (openChar_inj.mp h)
      have hclose : b'.closeChar ≠ b.closeChar := fun h => hb (closeChar_inj.mp h)
      rw [matchingBracket_other b _ hopen (openChar_ne_closeChar _ _), ihinner _ hd,
        matchingBracket_other b _ (openChar_ne_closeChar _ _).symm hclose, ihrest r hd]
      simp only [Option.map_map, List.length_cons, List.length_append]
      congr 1
      funext n
      simp only [Function.comp_apply]
      omega

lemma matchingBracket_group (t : Bracketed) :
    matchingBracket b.openChar b.closeChar 0 (b.openChar :: (t.text ++ b.closeChar :: r)) =
      some (t.text.length + 1) := by
  rw [matchingBracket_open, matchingBracket_text b _ t (by decide), matchingBracket,
    if_neg (openChar_ne_closeChar b b).symm, if_pos rfl, if_pos (by decide)]
  simp

end MatchingBracket

/-! ### One character of the first scan -/

section Equations

-- The scan has many equations: they are made once, before the proofs below ask for them all at the same time.
attribute [local simp] cutOffset

end Equations

section Steps

variable {p : Option Char} {d : Int} {c : Char} {r : Text}

/-- Where no keyword begins, the scan sees nothing of what was before. -/
lemma cutOffset_detached (h : Detached operatorKeyword r) (p : Option Char) :
    cutOffset p d 0 r = cutOffset none d 0 r := by
  cases r with
  | nil => simp only [cutOffset]
  | cons c r =>
    have hc : c ≠ 'o' := by
      rintro rfl
      exact h 'o' rfl (by decide)
    simp only [cutOffset, isPrefixOf_keyword_cons hc, Bool.false_and]

/-- Characters that are passed over as a whole. -/
lemma cutOffset_skip (a : Text) :
    cutOffset p d (a.length + 1) (a ++ c :: r) = cutOffset (some c) d 0 r + (a.length + 1) := by
  induction a generalizing p with
  | nil => simp only [List.length_nil, List.nil_append, cutOffset]
  | cons x a ih =>
    rw [List.length_cons, List.cons_append, cutOffset, ih]
    rfl

lemma cutOffset_keyword (h : operatorKeyword.isPrefixOf r = true) (hp : startsWord p = true) :
    cutOffset p d 0 r = operatorEnd r := by
  cases r with
  | nil => exact absurd h (by decide)
  | cons c r =>
    have hc : c = 'o' := by
      by_contra hne
      exact Bool.false_ne_true ((isPrefixOf_keyword_cons hne r).symm.trans h)
    have hbrace : c ≠ '{' := by
      rw [hc]
      decide
    have hword : (operatorKeyword.isPrefixOf (c :: r) && startsWord p) = true := by
      rw [h, hp, Bool.and_self]
    simp only [cutOffset, if_neg hbrace, hword, if_true]

/-- A character that is no bracket and begins no keyword. -/
lemma cutOffset_char (plain : isBracket c = false)
    (h : ¬ (operatorKeyword.isPrefixOf (c :: r) && startsWord p) = true) :
    cutOffset p d 0 (c :: r) = cutOffset (some c) (d + angleStep c) 0 r + 1 := by
  have hword := (Bool.not_eq_true _).mp h
  have hbrace : c ≠ '{' := ne_openChar plain .brace
  have hparen : c ≠ '(' := ne_openChar plain .paren
  simp only [cutOffset, hword, hbrace, hparen, false_and, if_false, Bool.false_eq_true, angleStep]
  split_ifs
  · rfl
  · rfl
  · rw [Int.add_zero]

lemma not_keyword {c : Char} (hletter : c ≠ 'o') (p : Option Char) (r : Text) :
    ¬ (operatorKeyword.isPrefixOf (c :: r) && startsWord p) = true := by
  rw [isPrefixOf_keyword_cons hletter, Bool.false_and]
  exact Bool.false_ne_true

lemma cutOffset_colon : cutOffset p d 0 (':' :: r) = cutOffset (some ':') d 0 r + 1 := by
  rw [cutOffset_char (by decide) (not_keyword (by decide) p r)]
  simp [angleStep]

lemma cutOffset_paren_open (hd : d ≠ 0) :
    cutOffset p d 0 ('(' :: r) = cutOffset (some '(') d 0 r + 1 := by
  rw [cutOffset, isPrefixOf_keyword_cons (by decide)]
  simp [hd]

lemma cutOffset_paren_close : cutOffset p d 0 (')' :: r) = cutOffset (some ')') d 0 r + 1 := by
  rw [cutOffset, isPrefixOf_keyword_cons (by decide)]
  simp

lemma cutOffset_brace (t : Bracketed) :
    cutOffset p d 0 ('{' :: (t.text ++ '}' :: r)) = cutOffset (some '}') d 0 r + (t.text.length + 2) := by
  have hmatch : matchingBracket '{' '}' 0 ('{' :: (t.text ++ '}' :: r)) = some (t.text.length + 1) :=
    matchingBracket_group .brace r t
  rw [cutOffset, if_pos rfl, hmatch]
  simp only [cutOffset_skip]
  omega

/-- A parameter list that a scope separator follows is passed. -/
lemma cutOffset_paren_scope (t : Bracketed) (h : scopeSeparator.isPrefixOf r = true) :
    cutOffset p 0 0 ('(' :: (t.text ++ ')' :: r)) = cutOffset (some ')') 0 0 r + (t.text.length + 2) := by
  have hmatch : matchingBracket '(' ')' 0 ('(' :: (t.text ++ ')' :: r)) = some (t.text.length + 1) :=
    matchingBracket_group .paren r t
  have hdrop := drop_append_cons t.text ')' r
  obtain ⟨r', rfl⟩ := List.isPrefixOf_iff_prefix.mp h
  -- the scan goes on at the second colon
  have hskip : cutOffset (some '(') 0 (t.text.length + 1 + 1) (t.text ++ ')' :: (scopeSeparator ++ r')) =
      cutOffset (some ':') 0 0 (':' :: r') + (t.text.length + 2) := by
    have hsplit : t.text ++ ')' :: (scopeSeparator ++ r') = (t.text ++ [')']) ++ ':' :: ':' :: r' := by
      simp [scopeSeparator]
    have hlength : t.text.length + 1 = (t.text ++ [')']).length := by simp
    rw [hsplit, hlength, cutOffset_skip]
    simp
  have hcolon : cutOffset (some ')') 0 0 (scopeSeparator ++ r') = cutOffset (some ':') 0 0 (':' :: r') + 1 :=
    cutOffset_colon
  have hstart : "::".toList.isPrefixOf (scopeSeparator ++ r') = true := h
  rw [cutOffset, isPrefixOf_keyword_cons (by decide), hmatch, hcolon]
  simp only [hdrop, hstart, hskip]
  simp
  omega

/-- Any other is where the name is cut. -/
lemma cutOffset_paren_cut (t : Bracketed) (h : scopeSeparator.isPrefixOf r = false) :
    cutOffset p 0 0 ('(' :: (t.text ++ ')' :: r)) = 0 := by
  have hmatch : matchingBracket '(' ')' 0 ('(' :: (t.text ++ ')' :: r)) = some (t.text.length + 1) :=
    matchingBracket_group .paren r t
  have hstart : "::".toList.isPrefixOf r = false := h
  rw [cutOffset, isPrefixOf_keyword_cons (by decide), hmatch]
  simp only [drop_append_cons, hstart]
  simp

end Steps

/-! ### What is kept -/

/-- The name as the first scan leaves it. -/
def kept (name : Text) : Text := name.take (cutOffset none 0 0 name)

lemma functionBaseName_eq (name : Text) : functionBaseName name = lastComponent (kept name) 0 0 (kept name) := rfl

/-! ### The end of an operator -/

/-- Nothing is taken behind a parenthesis. -/
lemma takeWhile_paren (t r : Text) : (t ++ '(' :: r).takeWhile (· != '(') = t.takeWhile (· != '(') := by
  refine Scan.takeWhile_append_of_head fun c hc => ?_
  obtain rfl : '(' = c := Option.some.inj hc
  rfl

lemma isPrefixOf_callOperator {t : Text} (r : Text) (hne : t ≠ []) :
    callOperator.isPrefixOf (t ++ '(' :: r) = callOperator.isPrefixOf t := by
  have hcall : callOperator = ['(', ')'] := rfl
  cases t with
  | nil => contradiction
  | cons x t =>
    cases t with
    | nil => simp [hcall, List.isPrefixOf_cons_cons]
    | cons y t => simp [hcall, List.isPrefixOf_cons_cons]

/-- The call operator's own parentheses belong to its name. -/
lemma operatorEnd_call (t : Text) : operatorEnd (operatorKeyword ++ (callOperator ++ t)) =
    operatorKeyword.length + (callOperator.length + (t.takeWhile (· != '(')).length) := by
  have hstart : callOperator.isPrefixOf (callOperator ++ t) = true :=
    List.isPrefixOf_iff_prefix.mpr (List.prefix_append _ _)
  simp only [operatorEnd, List.drop_left, hstart, if_true, Nat.add_assoc]

/-- Any other operator's name is all that stands before a parenthesis. -/
lemma operatorEnd_symbol {t : Text} (h : callOperator.isPrefixOf t = false) :
    operatorEnd (operatorKeyword ++ t) = operatorKeyword.length + (t.takeWhile (· != '(')).length := by
  simp only [operatorEnd, List.drop_left, h, Bool.false_eq_true, if_false, List.drop_zero, Nat.add_zero]

/-- An operator's name is the keyword with one of the two behind it. -/
lemma operator_cases {t : Text} (h : operatorKeyword.isPrefixOf t = true) :
    (∃ s, t = operatorKeyword ++ (callOperator ++ s)) ∨
      ∃ s, t = operatorKeyword ++ s ∧ callOperator.isPrefixOf s = false := by
  obtain ⟨symbol, rfl⟩ := List.isPrefixOf_iff_prefix.mp h
  cases hcall : callOperator.isPrefixOf symbol with
  | false => exact .inr ⟨symbol, rfl, hcall⟩
  | true =>
    obtain ⟨s, rfl⟩ := List.isPrefixOf_iff_prefix.mp hcall
    exact .inl ⟨s, rfl⟩

/-- An operator's own name ends with it where a parameter list follows. -/
lemma operatorEnd_append {t : Text} (r : Text) (h : operatorKeyword.isPrefixOf t = true)
    (hlength : operatorKeyword.length < t.length) : operatorEnd (t ++ '(' :: r) = operatorEnd t := by
  obtain ⟨s, rfl⟩ | ⟨s, rfl, hcall⟩ := operator_cases h
  · rw [List.append_assoc, List.append_assoc, operatorEnd_call, operatorEnd_call, takeWhile_paren]
  · have hne : s ≠ [] := by
      rintro rfl
      exact absurd hlength (by decide)
    rw [List.append_assoc, operatorEnd_symbol hcall, operatorEnd_symbol ((isPrefixOf_callOperator r hne).trans hcall),
      takeWhile_paren]

/-- The end lies in the name. -/
lemma operatorEnd_le {t : Text} (h : operatorKeyword.isPrefixOf t = true) : operatorEnd t ≤ t.length := by
  obtain ⟨s, rfl⟩ | ⟨s, rfl, hcall⟩ := operator_cases h
  · rw [operatorEnd_call, List.length_append, List.length_append]
    exact Nat.add_le_add_left (Nat.add_le_add_left (List.takeWhile_prefix _).length_le _) _
  · rw [operatorEnd_symbol hcall, List.length_append]
    exact Nat.add_le_add_left (List.takeWhile_prefix _).length_le _

/-- No more is kept than there is. -/
lemma cutOffset_le (p : Option Char) (d : Int) (k : Nat) (t : Text) : cutOffset p d k t ≤ t.length := by
  fun_induction cutOffset p d k t with
  | case1 => exact Nat.le_refl 0
  | case2 _ _ _ _ _ ih => exact Nat.succ_le_succ ih
  | case3 => exact Nat.le_refl _
  | case4 _ _ _ _ _ ih => exact Nat.succ_le_succ ih
  | case5 _ _ c rest _ hword =>
    rw [Bool.and_eq_true] at hword
    exact operatorEnd_le hword.1
  | case6 _ _ _ _ _ ih => exact Nat.succ_le_succ ih
  | case7 _ _ _ _ _ _ ih => exact Nat.succ_le_succ ih
  | case8 => exact Nat.zero_le _
  | case9 _ _ _ _ _ _ _ _ _ _ _ _ ih => exact Nat.succ_le_succ ih
  | case10 => exact Nat.zero_le _
  | case11 _ _ _ _ _ _ _ _ _ ih => exact Nat.succ_le_succ ih

/-- The name is cut at a parenthesis, or kept to its end. -/
lemma cutsBefore_dropWhile (t : Text) : cutsBefore (t.dropWhile (· != '(')) = true := by
  have hfails := List.head?_dropWhile_not (· != '(') t
  rw [cutsBefore]
  cases hhead : (t.dropWhile (· != '(')).head? with
  | none => rfl
  | some c =>
    rw [hhead] at hfails
    simpa using hfails

lemma cutsBefore_operatorEnd {t : Text} (h : operatorKeyword.isPrefixOf t = true) :
    cutsBefore (t.drop (operatorEnd t)) = true := by
  obtain ⟨s, rfl⟩ | ⟨s, rfl, hcall⟩ := operator_cases h
  · rw [operatorEnd_call, ← List.drop_drop, List.drop_left, ← List.drop_drop, List.drop_left,
      Scan.drop_length_takeWhile]
    exact cutsBefore_dropWhile s
  · rw [operatorEnd_symbol hcall, ← List.drop_drop, List.drop_left, Scan.drop_length_takeWhile]
    exact cutsBefore_dropWhile s

lemma cutsBefore_cutOffset (p : Option Char) (d : Int) (k : Nat) (t : Text) :
    cutsBefore (t.drop (cutOffset p d k t)) = true := by
  fun_induction cutOffset p d k t with
  | case1 => rfl
  | case2 _ _ _ _ _ ih => exact ih
  | case3 => simp [cutsBefore]
  | case4 _ _ _ _ _ ih => exact ih
  | case5 _ _ _ _ _ hword =>
    rw [Bool.and_eq_true] at hword
    exact cutsBefore_operatorEnd hword.1
  | case6 _ _ _ _ _ ih => exact ih
  | case7 _ _ _ _ _ _ ih => exact ih
  | case8 _ _ _ _ _ _ _ _ hparen => simp [cutsBefore, hparen.1]
  | case9 _ _ _ _ _ _ _ _ _ _ _ _ ih => exact ih
  | case10 _ _ _ _ _ _ _ _ hparen => simp [cutsBefore, hparen.1]
  | case11 _ _ _ _ _ _ _ _ _ ih => exact ih

/-- Nothing is left out where there is no parenthesis. -/
lemma length_takeWhile_iff (t : Text) :
    (t.takeWhile (· != '(')).length = t.length ↔ t.contains '(' = false := by
  rw [Bool.eq_false_iff, ne_eq, List.contains_iff_mem]
  constructor
  · intro hlength hmem
    have hself := (List.takeWhile_prefix (· != '(')).eq_of_length hlength
    rw [List.takeWhile_eq_self_iff] at hself
    simpa using hself '(' hmem
  · intro hparen
    have hself : t.takeWhile (· != '(') = t := by
      rw [List.takeWhile_eq_self_iff]
      intro c hc
      have hne : c ≠ '(' := fun heq => hparen (heq ▸ hc)
      simpa using hne
    rw [hself]

/-- It is the end of the word when no parenthesis is behind it. -/
lemma operatorEnd_eq_length_iff {t : Text} (h : operatorKeyword.isPrefixOf t = true) :
    operatorEnd t = t.length ↔ uncalled t = true := by
  obtain ⟨s, rfl⟩ | ⟨s, rfl, hcall⟩ := operator_cases h
  · have hstart : callOperator.isPrefixOf (callOperator ++ s) = true :=
      List.isPrefixOf_iff_prefix.mpr (List.prefix_append _ _)
    have huncalled : uncalled (operatorKeyword ++ (callOperator ++ s)) = !s.contains '(' := by
      simp only [uncalled, List.drop_left, hstart, if_true]
    rw [operatorEnd_call, huncalled, List.length_append, List.length_append, Bool.not_eq_true', ← length_takeWhile_iff]
    omega
  · have huncalled : uncalled (operatorKeyword ++ s) = !s.contains '(' := by
      simp only [uncalled, List.drop_left, hcall, Bool.false_eq_true, if_false]
    rw [operatorEnd_symbol hcall, huncalled, List.length_append, Bool.not_eq_true', ← length_takeWhile_iff]
    omega

end CallStackLogger
