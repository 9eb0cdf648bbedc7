import CallStackLogger.Reconcile.Kept
import Mathlib.Data.List.Infix

/-!
# How the first scan passes a text

What `passage` says of a text is what the first scan does with it, whatever follows: it comes through, or it is
stopped at the same character of the text. Behind a blank or a separator it starts anew.
-/

namespace CallStackLogger

open Brackets

/-! ### The character seen last -/

section LastChar

variable {p : Option Char} {c : Char} {t : Text}

def lastChar : Option Char → Text → Option Char
  | p, []     => p
  | _, c :: t => lastChar (some c) t

lemma lastChar_append (p : Option Char) (s t : Text) : lastChar p (s ++ t) = lastChar (lastChar p s) t := by
  induction s generalizing p with
  | nil => rfl
  | cons c s ih => exact ih (some c)

@[simp] lemma lastChar_group (p : Option Char) (b : BracketKind) (inner rest : Bracketed) :
    lastChar p (Bracketed.group b inner rest).text = lastChar (some b.closeChar) rest.text :=
  lastChar_append (some b.openChar) inner.text (b.closeChar :: rest.text)

/-- No keyword begins in a text that ends where a word can start, and ends in what follows. -/
lemma isPrefixOf_append_of_startsWord {k : Text} (hk : ∀ x ∈ k, startsWord (some x) = false)
    (h : startsWord (lastChar (some c) t) = true) (r : Text) :
    k.isPrefixOf (c :: (t ++ r)) = k.isPrefixOf (c :: t) := by
  induction k generalizing c t with
  | nil => rfl
  | cons x k ih =>
    have hk' : ∀ x ∈ k, startsWord (some x) = false := fun x' hx' => hk x' (List.mem_cons_of_mem x hx')
    cases t with
    | nil =>
      have hne : x ≠ c := by
        rintro rfl
        exact Bool.false_ne_true ((hk x List.mem_cons_self).symm.trans h)
      rw [List.isPrefixOf_cons_cons, List.isPrefixOf_cons_cons, beq_eq_false_iff_ne.mpr hne, Bool.false_and,
        Bool.false_and]
    | cons c' t =>
      rw [List.isPrefixOf_cons_cons, List.isPrefixOf_cons_cons]
      exact congrArg (x == c && ·) (ih hk' h)

end LastChar

/-! ### What the scan does -/

/-- No word and no scope separator goes on in what follows. -/
def Separate (r : Text) : Prop := Detached operatorKeyword r ∧ Detached scopeSeparator r

lemma Separate.nil : Separate [] := ⟨Detached.nil _, Detached.nil _⟩

lemma Separate.openParen (r : Text) : Separate ('(' :: r) := ⟨Detached.cons (by decide), Detached.cons (by decide)⟩

lemma Separate.closeParen (r : Text) : Separate (')' :: r) := ⟨Detached.cons (by decide), Detached.cons (by decide)⟩

/-- How much of a name the scan keeps, whatever follows the text. -/
def Outcome.Scans (prev : Option Char) (depth : Int) (t : Text) : Outcome → Prop
  | through inside =>
    ∀ r, Separate r → cutOffset prev depth 0 (t ++ r) = cutOffset none inside 0 r + t.length
  | word rest      =>
    operatorKeyword.isPrefixOf rest = true ∧ ∃ a, a ++ rest = t ∧ startsWord (lastChar prev a) = true ∧
      ∀ r, Separate r → cutOffset prev depth 0 (t ++ r) = operatorEnd (rest ++ r) + a.length
  | paren rest     =>
    rest ≠ [] ∧ ∃ a, a ++ rest = t ∧ ∀ r, Separate r → cutOffset prev depth 0 (t ++ r) = a.length

section Scans

variable {p : Option Char} {d d' : Int} {a t : Text} {o : Outcome}

/-- Behind what is passed the scan goes on. -/
lemma Outcome.Scans.behind (h : o.Scans (lastChar p a) d' t)
    (hpassed : ∀ r, Separate r → cutOffset p d 0 (a ++ (t ++ r)) = cutOffset (lastChar p a) d' 0 (t ++ r) + a.length) :
    o.Scans p d (a ++ t) := by
  cases o with
  | through inside =>
    intro r hr
    rw [List.append_assoc, hpassed r hr, h r hr, List.length_append]
    omega
  | word rest =>
    obtain ⟨hkeyword, b, rfl, hstart, hcut⟩ := h
    refine ⟨hkeyword, a ++ b, List.append_assoc a b rest, by rwa [lastChar_append], fun r hr => ?_⟩
    rw [List.append_assoc a, hpassed r hr, hcut r hr, List.length_append]
    omega
  | paren rest =>
    obtain ⟨hne, b, rfl, hcut⟩ := h
    refine ⟨hne, a ++ b, List.append_assoc a b rest, fun r hr => ?_⟩
    rw [List.append_assoc a, hpassed r hr, hcut r hr, List.length_append, Nat.add_comm]

/-- A stop inside a parenthesis is one in the text with it. -/
lemma Outcome.Scans.inside {inner rest : Text} {goOn : Int → Outcome} (h : o.Scans (some '(') d inner) (hd : d ≠ 0)
    (hthrough : ∀ inside, o = .through inside → (goOn inside).Scans p d ('(' :: (inner ++ ')' :: rest))) :
    (o.andThen goOn (')' :: rest)).Scans p d ('(' :: (inner ++ ')' :: rest)) := by
  have hopen : ∀ r, cutOffset p d 0 ('(' :: (inner ++ ')' :: rest) ++ r) =
      cutOffset (some '(') d 0 (inner ++ (')' :: rest ++ r)) + 1 := by
    intro r
    rw [List.cons_append, List.append_assoc]
    exact cutOffset_paren_open hd
  cases o with
  | through inside => exact hthrough inside rfl
  | word w =>
    obtain ⟨hkeyword, b, rfl, hstart, hcut⟩ := h
    refine ⟨List.isPrefixOf_iff_prefix.mpr ((List.isPrefixOf_iff_prefix.mp hkeyword).trans (List.prefix_append _ _)),
      '(' :: b, by simp, hstart, fun r hr => ?_⟩
    rw [hopen, hcut (')' :: rest ++ r) (Separate.closeParen _), List.append_assoc w]
    rfl
  | paren w =>
    obtain ⟨-, b, rfl, hcut⟩ := h
    refine ⟨by simp, '(' :: b, by simp, fun r hr => ?_⟩
    rw [hopen, hcut (')' :: rest ++ r) (Separate.closeParen _)]
    rfl

end Scans

/-- The scan does with a text what is said of it. -/
lemma passage_scans (t : Bracketed) (p : Option Char) (d : Int) : (passage p d t).Scans p d t.text := by
  induction t generalizing p d with
  | nil => exact fun r hr => cutOffset_detached hr.1 p
  | char c plain rest ih =>
    have hword : ∀ r, Separate r → operatorKeyword.isPrefixOf (c :: (rest.text ++ r)) =
        operatorKeyword.isPrefixOf (c :: rest.text) := fun r hr => isPrefixOf_append hr.1 (c :: rest.text)
    by_cases hstart : (operatorKeyword.isPrefixOf (c :: rest.text) && startsWord p) = true
    · rw [passage, if_pos hstart]
      rw [Bool.and_eq_true] at hstart
      refine ⟨hstart.1, [], rfl, hstart.2, fun r hr => ?_⟩
      exact cutOffset_keyword ((hword r hr).trans hstart.1) hstart.2
    · rw [passage, if_neg hstart]
      apply Outcome.Scans.behind (a := [c]) (ih (some c) (d + angleStep c))
      intro r hr
      rw [← hword r hr] at hstart
      exact cutOffset_char plain hstart
  | group b inner rest ihinner ihrest =>
    -- a group that is passed as a whole
    have hbehind : ∀ d', (∀ r, Separate r →
        cutOffset p d 0 (b.openChar :: (inner.text ++ b.closeChar :: (rest.text ++ r))) =
          cutOffset (some b.closeChar) d' 0 (rest.text ++ r) + (inner.text.length + 2)) →
        (passage (some b.closeChar) d' rest).Scans p d (Bracketed.group b inner rest).text := by
      intro d' hpassed
      have htext : (Bracketed.group b inner rest).text =
          (b.openChar :: (inner.text ++ [b.closeChar])) ++ rest.text := by
        simp [Bracketed.text]
      have hlast : lastChar p (b.openChar :: (inner.text ++ [b.closeChar])) = some b.closeChar :=
        lastChar_append (some b.openChar) inner.text [b.closeChar]
      rw [htext]
      apply Outcome.Scans.behind
      · rw [hlast]
        exact ihrest (some b.closeChar) d'
      · intro r hr
        rw [hlast, List.cons_append, List.append_assoc, List.singleton_append, hpassed r hr]
        simp
    cases b with
    | brace => exact hbehind d fun r _ => cutOffset_brace inner
    | paren =>
      have hscope : ∀ r, Separate r →
          scopeSeparator.isPrefixOf (rest.text ++ r) = scopeSeparator.isPrefixOf rest.text :=
        fun r hr => isPrefixOf_append hr.2 rest.text
      by_cases hd : d = 0
      · subst hd
        by_cases hfollows : scopeSeparator.isPrefixOf rest.text = true
        · rw [passage, if_pos rfl, if_pos hfollows]
          exact hbehind 0 fun r hr => cutOffset_paren_scope inner ((hscope r hr).trans hfollows)
        · rw [passage, if_pos rfl, if_neg hfollows]
          refine ⟨List.cons_ne_nil _ _, [], rfl, fun r hr => ?_⟩
          have hcut := cutOffset_paren_cut (p := p) inner ((hscope r hr).trans ((Bool.not_eq_true _).mp hfollows))
          simpa [Bracketed.text, BracketKind.openChar, BracketKind.closeChar] using hcut
      · rw [passage, if_neg hd]
        apply (ihinner (some '(') d).inside hd
        intro inside hinside
        have hinner := ihinner (some '(') d
        rw [hinside] at hinner
        apply hbehind inside
        intro r hr
        have hclose := hinner (')' :: (rest.text ++ r)) (Separate.closeParen _)
        simp only [BracketKind.openChar, BracketKind.closeChar]
        rw [cutOffset_paren_open hd, hclose, cutOffset_paren_close]
        omega

/-! ### One text behind another -/

section Append

variable {p q : Option Char} {d : Int}

/-- Of what was before, it is only seen whether a word can start. -/
lemma passage_congr (h : startsWord p = startsWord q) (t : Bracketed) : passage p d t = passage q d t := by
  cases t with
  | nil => rfl
  | char c plain rest => simp only [passage, h]
  | group b inner rest => cases b <;> rfl

/-- A word that starts with the keyword is where the scan is stopped. -/
lemma passage_keyword {t : Bracketed} (h : operatorKeyword.isPrefixOf t.text = true) (hp : startsWord p = true) :
    passage p d t = .word t.text := by
  cases t with
  | nil => exact absurd h (by decide)
  | char c plain rest =>
    rw [Bracketed.text] at h
    rw [passage, h, hp]
    rfl
  | group b inner rest =>
    have hletter : b.openChar ≠ 'o' := by cases b <;> decide
    exact absurd h (by simp [Bracketed.text, isPrefixOf_keyword_cons hletter])

lemma startsWord_keyword {x : Char} (hx : x ∈ operatorKeyword) : startsWord (some x) = false := by
  have hall : operatorKeyword.all (fun x => !startsWord (some x)) = true := rfl
  simpa using List.all_eq_true.mp hall x hx

/-- Behind a text that ends where a word can start, the scan goes on as it does there. -/
lemma passage_append {s t : Bracketed} (hlast : startsWord (lastChar p s.text) = true)
    (ht : Detached scopeSeparator t.text) :
    passage p d (s ++ t) = (passage p d s).andThen (fun inside => passage none inside t) t.text := by
  induction s generalizing p d with
  | nil => exact passage_congr hlast t
  | char c plain rest ih =>
    have hword : operatorKeyword.isPrefixOf (c :: (rest ++ t).text) = operatorKeyword.isPrefixOf (c :: rest.text) := by
      rw [Bracketed.text_append]
      exact isPrefixOf_append_of_startsWord (fun _ => startsWord_keyword) hlast t.text
    rw [Bracketed.char_append, passage, passage, hword]
    split_ifs
    · rw [Bracketed.text_append]
      rfl
    · exact ih hlast
  | group b inner rest _ ihrest =>
    rw [lastChar_group] at hlast
    have hrest := fun d => ihrest (d := d) hlast
    cases b with
    | brace => exact hrest d
    | paren =>
      rw [Bracketed.group_append, passage, passage, Bracketed.text_append, isPrefixOf_append ht]
      split_ifs
      · exact hrest 0
      · simp [Outcome.andThen]
      · cases passage (some '(') d inner with
        | through inside => exact hrest inside
        | word w => simp [Outcome.andThen]
        | paren w => simp [Outcome.andThen]

end Append

end CallStackLogger
