import CallStackLogger.Reconcile.Passage

/-!
# Where a full name is cut

What the first scan keeps of a full name is what stands in front of the function's own name and what is kept of
that, when it gets there.
-/

namespace CallStackLogger

open Brackets

/-! ### Unqualified names -/

section Unqualified

variable {u : Unqualified} {d : Int} {w a : Text}

/-- A text that starts a component of its own. -/
def StartsComponent (t : Text) : Prop := t.head? ≠ some ':'

lemma StartsComponent.detached {t : Text} (h : StartsComponent t) : Detached scopeSeparator t := by
  intro c hc hmem
  obtain rfl : c = ':' := by simpa [scopeSeparator] using hmem
  exact h hc

/-- An operator's name starts with the keyword, and is more than it. -/
lemma keyword_cases (u : Unqualified) : (∃ s : Text, s ≠ [] ∧ u.text = operatorKeyword ++ s) ∨
    (∃ id args, u = .named id args) ∨ ∃ id, u = .destructor id := by
  cases u with
  | named id args => exact .inr (.inl ⟨id, args, rfl⟩)
  | operator symbol args =>
    refine .inl ⟨_, ?_, Bracketed.text_append _ _⟩
    rw [Bracketed.text_append]
    apply List.append_ne_nil_of_left_ne_nil
    cases symbol with
    | call => exact List.cons_ne_nil _ _
    | token t nonempty plain => simpa [OperatorSymbol.spelled] using nonempty
  | conversion target => exact .inl ⟨_, List.cons_ne_nil _ _, Bracketed.text_append _ _⟩
  | destructor id => exact .inr (.inr ⟨id, rfl⟩)

lemma Ident.startsComponent (id : Ident) (t : Text) : StartsComponent (id.text ++ t) := by
  cases htext : id.text with
  | nil => exact absurd htext id.nonempty
  | cons c u =>
    rintro heq
    obtain rfl : c = ':' := Option.some.inj heq
    have hcolon := id.identChar_of_mem (htext ▸ List.mem_cons_self)
    exact absurd hcolon (by decide)

lemma text_named (id : Ident) (args : Option Bracketed) :
    (Unqualified.named id args).text = id.text ++ (argsSpelled args).text := by
  simp [Unqualified.text, Unqualified.spelled, Ident.spelled]

lemma Unqualified.startsComponent (u : Unqualified) : StartsComponent u.text := by
  obtain ⟨s, -, hs⟩ | ⟨id, args, rfl⟩ | ⟨id, rfl⟩ := keyword_cases u
  · rw [hs]
    exact fun heq => absurd (Option.some.inj heq) (by decide)
  · rw [text_named]
    exact id.startsComponent _
  · exact fun heq => absurd (Option.some.inj heq) (by decide)

lemma Unqualified.text_ne_nil (u : Unqualified) : u.text ≠ [] := by
  obtain ⟨s, -, hs⟩ | ⟨id, args, rfl⟩ | ⟨id, rfl⟩ := keyword_cases u
  · rw [hs]
    exact List.cons_ne_nil _ _
  · rw [text_named]
    exact List.append_ne_nil_of_left_ne_nil id.nonempty _
  · exact List.cons_ne_nil _ _

lemma startsWord_identChar {c : Char} (h : identChar c = true) : startsWord (some c) = false := by
  cases hstart : startsWord (some c) with
  | false => rfl
  | true =>
    simp only [startsWord, Bool.or_eq_true, beq_iff_eq, reduceCtorEq, false_or, Option.some.injEq] at hstart
    rcases hstart with rfl | rfl <;> exact absurd h (by decide)

/-- Behind the first letter of an identifier no word starts. -/
lemma startsWord_identChars {c : Char} (hc : startsWord (some c) = false) (h : ∀ x ∈ a, identChar x = true) :
    startsWord (lastChar (some c) a) = false := by
  induction a generalizing c with
  | nil => exact hc
  | cons x a ih =>
    have hx := startsWord_identChar (h x List.mem_cons_self)
    exact ih hx fun y hy => h y (List.mem_cons_of_mem x hy)

/-- A word that starts in an identifier and is the keyword starts with it. -/
lemma eq_nil_of_append_keyword {c : Char} {t : Text} (hc : startsWord (some c) = false)
    (h : ∀ x ∈ t, identChar x = true) (heq : a ++ operatorKeyword = c :: t)
    (hstart : startsWord (lastChar none a) = true) : a = [] := by
  cases a with
  | nil => rfl
  | cons x a =>
    obtain ⟨rfl, rfl⟩ := List.cons.inj heq
    have hidle := startsWord_identChars hc fun y hy => h y (List.mem_append_left _ hy)
    exact absurd (hidle.symm.trans hstart) Bool.false_ne_true

/-- A word in a name, where the scan is stopped, is more than the keyword. -/
lemma length_word (h : passage none d u.spelled = .word w) : operatorKeyword.length < w.length := by
  have hscans := passage_scans u.spelled none d
  rw [h] at hscans
  obtain ⟨hkeyword, a, ha, hstart, -⟩ := hscans
  have hprefix := List.isPrefixOf_iff_prefix.mp hkeyword
  apply Nat.lt_of_le_of_ne hprefix.length_le
  intro hlength
  obtain rfl := hprefix.eq_of_length hlength
  change a ++ operatorKeyword = u.text at ha
  obtain ⟨s, hne, hs⟩ | ⟨id, args, rfl⟩ | ⟨id, rfl⟩ := keyword_cases u
  · have hstop : passage none d u.spelled = .word u.text := by
      apply passage_keyword _ rfl
      exact List.isPrefixOf_iff_prefix.mpr ⟨s, hs.symm⟩
    have hself : operatorKeyword = operatorKeyword ++ s := by
      rw [← hs]
      exact Outcome.word.inj (h.symm.trans hstop)
    exact hne (List.self_eq_append_right.mp hself)
  · rw [text_named] at ha
    cases args with
    | none =>
      have hid : a ++ operatorKeyword = id.text := ha.trans (List.append_nil _)
      have hchars : ∀ c ∈ id.text, identChar c = true := fun c hc => id.identChar_of_mem hc
      cases htext : id.text with
      | nil => exact id.nonempty htext
      | cons c t =>
        rw [htext] at hid hchars
        have hc := startsWord_identChar (hchars c List.mem_cons_self)
        obtain rfl := eq_nil_of_append_keyword hc (fun x hx => hchars x (List.mem_cons_of_mem c hx)) hid hstart
        exact id.notKeyword (htext.trans hid.symm)
    | some args =>
      have hargs : id.text ++ (argsSpelled (some args)).text = (id.text ++ '<' :: args.text) ++ ['>'] := by
        simp [argsSpelled]
      have hlast : (a ++ operatorKeyword).getLast? = some 'r' := by
        rw [List.getLast?_append]
        rfl
      rw [ha, hargs, List.getLast?_concat] at hlast
      exact absurd hlast (by decide)
  · have hid : a ++ operatorKeyword = '~' :: id.text := by
      simpa [Unqualified.text, Unqualified.spelled, Bracketed.text, Ident.spelled] using ha
    obtain rfl := eq_nil_of_append_keyword (by decide) (fun _ => id.identChar_of_mem) hid hstart
    exact absurd (List.cons.inj hid).1 (by decide)

/-- A name that no parenthesis in it cuts is kept as a whole. -/
lemma kept_unqualified (h : u.uncut = true) : kept u.text = u.text := by
  have hscans := passage_scans u.spelled none 0
  have hall : cutOffset none 0 0 u.text = u.text.length := by
    rw [Unqualified.uncut] at h
    cases hpassage : passage none 0 u.spelled with
    | through d =>
      rw [hpassage] at hscans
      have hthrough := hscans [] Separate.nil
      rw [List.append_nil] at hthrough
      simp only [cutOffset, Nat.zero_add] at hthrough
      exact hthrough
    | word w =>
      rw [hpassage] at h hscans
      obtain ⟨hkeyword, a, ha, -, hcut⟩ := hscans
      have hword := hcut [] Separate.nil
      rw [List.append_nil, List.append_nil, (operatorEnd_eq_length_iff hkeyword).mpr h] at hword
      rw [Unqualified.text, hword, ← ha, List.length_append, Nat.add_comm]
    | paren w =>
      rw [hpassage] at h
      contradiction
  rw [kept, hall, List.take_length]

end Unqualified

/-! ### Full names -/

section Signature

variable {d : Int}

lemma isPrefixOf_qualifiersSpelled (qualifiers : List Qualifier) :
    scopeSeparator.isPrefixOf (qualifiersSpelled qualifiers).text = false := by
  have hblank : ∀ t : Text, scopeSeparator.isPrefixOf (' ' :: t) = false := fun t => rfl
  cases qualifiers with
  | nil => rfl
  | cons q qualifiers =>
    rw [qualifiersSpelled, Bracketed.text_append, Bracketed.text_plain]
    cases q <;> exact hblank _

/-- A function's own parameter list cuts its name outside angle brackets only. -/
lemma cutOffset_signature_iff (params : Bracketed) (qualifiers : List Qualifier) :
    cutOffset none d 0 (signatureSpelled params qualifiers).text = 0 ↔ d = 0 := by
  constructor
  · intro hcut
    by_contra hd
    have hopen : cutOffset none d 0 (signatureSpelled params qualifiers).text = _ := cutOffset_paren_open hd
    rw [hopen] at hcut
    exact absurd hcut (Nat.succ_ne_zero _)
  · rintro rfl
    exact cutOffset_paren_cut params (isPrefixOf_qualifiersSpelled qualifiers)

lemma separate_signature (params : Bracketed) (qualifiers : List Qualifier) :
    Separate (signatureSpelled params qualifiers).text := Separate.openParen _

end Signature

namespace FullName

variable (n : FullName) {w : Text}

lemma text_eq : n.text = n.head.text ++ (signatureSpelled n.params n.qualifiers).text := by
  rw [text, Bracketed.text_append]

lemma head_text : n.head.text = n.context.text ++ n.name.text := by
  rw [head, Bracketed.text_append]
  rfl

lemma startsWord_scopesSpelled {p : Option Char} (ss : List Scope) (h : startsWord p = true) :
    startsWord (lastChar p (scopesSpelled ss).text) = true := by
  induction ss generalizing p with
  | nil => exact h
  | cons s ss ih =>
    rw [scopesSpelled, Bracketed.text_append, Bracketed.text_append, lastChar_append, lastChar_append]
    exact ih rfl

/-- The function's own name stands where a word can start. -/
lemma startsWord_context : startsWord (lastChar none n.context.text) = true := by
  rw [context]
  cases n.returnType with
  | none => exact startsWord_scopesSpelled n.scopes rfl
  | some returnType =>
    rw [Bracketed.text_append, lastChar_append]
    exact startsWord_scopesSpelled n.scopes rfl

lemma passage_head : passage none 0 n.head =
    (passage none 0 n.context).andThen (fun inside => passage none inside n.name.spelled) n.name.text :=
  passage_append n.startsWord_context n.name.startsComponent.detached

lemma length_word_head (h : passage none 0 n.head = .word w) : operatorKeyword.length < w.length := by
  rw [passage_head] at h
  have hscans := passage_scans n.context none 0
  cases hcontext : passage none 0 n.context with
  | through inside =>
    rw [hcontext] at h
    exact length_word h
  | word rest =>
    rw [hcontext] at h hscans
    have hle := (List.isPrefixOf_iff_prefix.mp hscans.1).length_le
    have hpos := List.length_pos_iff.mpr n.name.text_ne_nil
    rw [← Outcome.word.inj h, List.length_append]
    omega
  | paren rest =>
    rw [hcontext] at h
    contradiction

/-- The name is cut at the function's own parameter list exactly when the scan of what is in front gets there. -/
lemma cutOffset_text_iff :
    cutOffset none 0 0 n.text = n.head.text.length ↔ (passage none 0 n.head).atEnd = true := by
  have hscans := passage_scans n.head none 0
  have hsignature := separate_signature n.params n.qualifiers
  rw [text_eq]
  cases hpassage : passage none 0 n.head with
  | through inside =>
    rw [hpassage] at hscans
    rw [hscans _ hsignature, Nat.add_eq_right, cutOffset_signature_iff]
    exact beq_iff_eq.symm
  | word w =>
    have hlength := n.length_word_head hpassage
    rw [hpassage] at hscans
    obtain ⟨hkeyword, a, ha, -, hcut⟩ := hscans
    have hend : operatorEnd (w ++ (signatureSpelled n.params n.qualifiers).text) = operatorEnd w :=
      operatorEnd_append _ hkeyword hlength
    rw [hcut _ hsignature, hend, ← ha, List.length_append, Nat.add_comm a.length, Nat.add_right_cancel_iff]
    exact operatorEnd_eq_length_iff hkeyword
  | paren w =>
    rw [hpassage] at hscans
    obtain ⟨hne, a, ha, hcut⟩ := hscans
    have hpos := List.length_pos_iff.mpr hne
    rw [hcut _ hsignature, ← ha, List.length_append]
    exact ⟨fun h => by omega, fun h => absurd h Bool.false_ne_true⟩

/-- A parenthesis in the function's own name cuts the full name as it cuts that. -/
lemma cutOffset_text_of_cut (h : n.name.uncut = false) (hcontext : passage none 0 n.context = .through 0) :
    cutOffset none 0 0 n.text = n.context.text.length + cutOffset none 0 0 n.name.text := by
  have hsignature := separate_signature n.params n.qualifiers
  have hpassage : passage none 0 n.head = passage none 0 n.name.spelled := by
    rw [passage_head, hcontext]
    rfl
  have hhead := passage_scans n.head none 0
  have hname := passage_scans n.name.spelled none 0
  rw [hpassage] at hhead
  have hlength {a b w : Text} (ha : a ++ w = n.head.text) (hb : b ++ w = n.name.text) :
      a.length = n.context.text.length + b.length := by
    rw [head_text, ← hb, ← List.append_assoc] at ha
    rw [List.append_cancel_right ha, List.length_append]
  rw [Unqualified.uncut] at h
  rw [text_eq]
  cases ho : passage none 0 n.name.spelled with
  | through inside =>
    rw [ho] at h
    contradiction
  | word w =>
    have hlonger := length_word ho
    rw [ho] at hhead hname
    obtain ⟨hkeyword, a, ha, -, hcut⟩ := hhead
    obtain ⟨-, b, hb, -, hown⟩ := hname
    have hnone := hown [] Separate.nil
    have hend : operatorEnd (w ++ (signatureSpelled n.params n.qualifiers).text) = operatorEnd w :=
      operatorEnd_append _ hkeyword hlonger
    rw [List.append_nil, List.append_nil] at hnone
    rw [hcut _ hsignature, hend, hlength ha hb, Unqualified.text, hnone]
    omega
  | paren w =>
    rw [ho] at hhead hname
    obtain ⟨-, a, ha, hcut⟩ := hhead
    obtain ⟨-, b, hb, hown⟩ := hname
    have hnone := hown [] Separate.nil
    rw [List.append_nil] at hnone
    rw [hcut _ hsignature, hlength ha hb, Unqualified.text, hnone]

/-- What the first scan keeps when it gets to the function's own name. -/
lemma kept_text (h : n.NameReached) : kept n.text = n.context.text ++ kept n.name.text := by
  have hcut := h.cut
  split_ifs at hcut with huncut
  · rw [kept_unqualified huncut, ← head_text, kept, n.cutOffset_text_iff.mpr hcut, text_eq, List.take_left]
  · rw [kept, n.cutOffset_text_of_cut ((Bool.not_eq_true _).mp huncut) hcut, text_eq, head_text, List.append_assoc,
      List.take_length_add_append, kept, List.take_append_of_le_length (cutOffset_le _ _ _ _)]

end FullName

end CallStackLogger
