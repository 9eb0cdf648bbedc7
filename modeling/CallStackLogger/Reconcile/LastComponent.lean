import CallStackLogger.Reconcile.Cut

/-!
# The last component of a name

The second scan of `functionBaseName` over what the first has kept. It comes out of a text with the angle
brackets of the text counted, and what it has found by then ends with all that follows: behind the last scope
nothing is seen of what was before, and a return type is only dropped when a scope follows it.
-/

namespace CallStackLogger

open Brackets

variable {l : Text} {d : Int} {c : Char} {r : Text}

/-! ### One character of the second scan -/

lemma lastComponent_nil (k : Nat) : lastComponent l d k [] = l := by
  cases k <;> simp only [lastComponent]

lemma lastComponent_singleton (c : Char) : lastComponent l d 0 [c] = l := by
  simp only [lastComponent]

lemma lastComponent_cons (hr : r ≠ []) : lastComponent l d 0 (c :: r) =
    if c = '{' then
      match matchingBracket '{' '}' 0 (c :: r) with
      | none       => l
      | some close => lastComponent l d close r
    else if c = '<' then lastComponent l (d + 1) 0 r
    else if c = '>' then lastComponent l (d - 1) 0 r
    else if c = ':' ∧ r.head? = some ':' ∧ d = 0 then lastComponent r.tail d 0 r
    else lastComponent l d 0 r := by
  cases r with
  | nil => contradiction
  | cons x r =>
    have hscope : c = ':' ∧ (x :: r).head? = some ':' ∧ d = 0 ↔ c = ':' ∧ x = ':' ∧ d = 0 := by
      rw [List.head?_cons, Option.some_inj]
    rw [if_congr hscope rfl rfl]
    rfl

/-- A character that begins no brace block and no separator outside angle brackets. -/
lemma lastComponent_char (hbrace : c ≠ '{') (hscope : ¬ (c = ':' ∧ r.head? = some ':' ∧ d = 0)) :
    lastComponent l d 0 (c :: r) = lastComponent l (d + angleStep c) 0 r := by
  cases r with
  | nil => rw [lastComponent_singleton, lastComponent_nil]
  | cons x r =>
    rw [lastComponent_cons (List.cons_ne_nil x r), if_neg hbrace, if_neg hscope, angleStep]
    split_ifs
    · rfl
    · rfl
    · rw [Int.add_zero]

lemma lastComponent_separator (r : Text) : lastComponent l 0 0 (':' :: ':' :: r) = lastComponent r 0 0 (':' :: r) := by
  rw [lastComponent_cons (List.cons_ne_nil ':' r)]
  simp

/-- A parenthesis is passed over, into it and out of it. -/
lemma lastComponent_paren (hc : c = '(' ∨ c = ')') : lastComponent l d 0 (c :: r) = lastComponent l d 0 r := by
  have hstep : angleStep c = 0 := by rcases hc with rfl | rfl <;> rfl
  have hbrace : c ≠ '{' := by rcases hc with rfl | rfl <;> decide
  have hcolon : c ≠ ':' := by rcases hc with rfl | rfl <;> decide
  rw [lastComponent_char hbrace fun h => hcolon h.1, hstep, Int.add_zero]

lemma lastComponent_skip (a : Text) :
    lastComponent l d (a.length + 1) (a ++ c :: r) = lastComponent l d 0 r := by
  induction a with
  | nil => simp only [List.length_nil, List.nil_append, lastComponent]
  | cons x a ih =>
    rw [List.length_cons, List.cons_append, lastComponent]
    exact ih

lemma lastComponent_brace (t : Bracketed) :
    lastComponent l d 0 ('{' :: (t.text ++ '}' :: r)) = lastComponent l d 0 r := by
  have hmatch : matchingBracket '{' '}' 0 ('{' :: (t.text ++ '}' :: r)) = some (t.text.length + 1) :=
    matchingBracket_group .brace r t
  rw [lastComponent_cons (by simp), if_pos rfl, hmatch]
  exact lastComponent_skip t.text

/-- After a character the scan is done, or goes on with what it has found, or has found a component. -/
lemma lastComponent_cases (d : Int) (k : Nat) (c : Char) (t : Text) :
    (∀ l, lastComponent l d k (c :: t) = l) ∨
      (∃ d' k', ∀ l, lastComponent l d k (c :: t) = lastComponent l d' k' t) ∨
        ∃ d' k' t', c :: t = ':' :: ':' :: t' ∧ ∀ l, lastComponent l d k (c :: t) = lastComponent t' d' k' t := by
  cases k with
  | succ k => exact .inr (.inl ⟨d, k, fun l => by rw [lastComponent]⟩)
  | zero =>
    by_cases ht : t = []
    · subst ht
      exact .inl fun l => lastComponent_singleton c
    · by_cases hbrace : c = '{'
      · subst hbrace
        cases hmatch : matchingBracket '{' '}' 0 ('{' :: t) with
        | none => exact .inl fun l => by rw [lastComponent_cons ht, if_pos rfl, hmatch]
        | some close => exact .inr (.inl ⟨d, close, fun l => by rw [lastComponent_cons ht, if_pos rfl, hmatch]⟩)
      · by_cases hscope : c = ':' ∧ t.head? = some ':' ∧ d = 0
        · obtain ⟨rfl, hhead, rfl⟩ := hscope
          obtain ⟨t', rfl⟩ := List.head?_eq_some_iff.mp hhead
          exact .inr (.inr ⟨0, 0, t', rfl, fun l => lastComponent_separator t'⟩)
        · exact .inr (.inl ⟨_, 0, fun l => lastComponent_char hbrace hscope⟩)

/-- Either no scope is found in a text, or what is found does not depend on what was before. -/
lemma lastComponent_const (d : Int) (k : Nat) (t : Text) :
    (∀ l, lastComponent l d k t = l) ∨
      ∃ found : Text, found.length < t.length ∧ ∀ l, lastComponent l d k t = found := by
  induction t generalizing d k with
  | nil => exact .inl fun l => lastComponent_nil k
  | cons c t ih =>
    obtain hdone | ⟨d', k', hnext⟩ | ⟨d', k', t', ht, hscope⟩ := lastComponent_cases d k c t
    · exact .inl hdone
    · rcases ih d' k' with hnone | ⟨found, hlength, hfound⟩
      · exact .inl fun l => (hnext l).trans (hnone l)
      · exact .inr ⟨found, Nat.lt_succ_of_lt hlength, fun l => (hnext l).trans (hfound l)⟩
    · have hlonger : t'.length < (c :: t).length := by
        rw [ht, List.length_cons]
        exact Nat.lt_succ_of_lt (Nat.lt_succ_self _)
      rcases ih d' k' with hnone | ⟨found, hlength, hfound⟩
      · exact .inr ⟨t', hlonger, fun l => (hscope l).trans (hnone _)⟩
      · exact .inr ⟨found, Nat.lt_succ_of_lt hlength, fun l => (hscope l).trans (hfound _)⟩

/-- What is found is an end of the name where a component starts. -/
lemma lastComponent_component {k : Nat} {name t : Text}
    (hl : ∃ front, front ++ l = name ∧ startsComponentBehind front = true) (ht : t <:+ name) :
    ∃ front, front ++ lastComponent l d k t = name ∧ startsComponentBehind front = true := by
  induction t generalizing l d k with
  | nil => rwa [lastComponent_nil]
  | cons c t ih =>
    have htail := (List.suffix_cons c t).trans ht
    obtain hdone | ⟨d', k', hnext⟩ | ⟨d', k', t', hcons, hscope⟩ := lastComponent_cases d k c t
    · rwa [hdone]
    · rw [hnext]
      exact ih hl htail
    · rw [hscope]
      obtain ⟨front, rfl⟩ := ht
      refine ih ⟨front ++ scopeSeparator, ?_, ?_⟩ htail
      · rw [hcons, List.append_assoc]
        rfl
      · rw [startsComponentBehind, List.getLast?_append]
        rfl

/-! ### Texts whose brackets nest -/

lemma balance_append (s t : Bracketed) : balance (s ++ t) = balance s + balance t := by
  induction s with
  | nil => exact (Int.zero_add _).symm
  | char c plain rest ih => simp only [Bracketed.char_append, balance, ih, Int.add_assoc]
  | group b inner rest _ ih =>
    cases b with
    | brace => exact ih
    | paren => simp only [Bracketed.group_append, balance, ih, Int.add_assoc]

/-- Over a text the scan goes on with the text's angle brackets counted. What it has found by then is what it
had found before, or ends with all that follows; without a scope in the text it has found nothing. -/
lemma lastComponent_text (t : Bracketed) (l : Text) (d : Int) (hr : r ≠ []) :
    ∃ l', lastComponent l d 0 (t.text ++ r) = lastComponent l' (d + balance t) 0 r ∧
      (l' = l ∨ (∃ u, l' = u ++ r) ∨ r.head? = some ':' ∧ l' = r.tail) ∧
        (hasTopScope d t = false → StartsComponent r → l' = l) := by
  induction t generalizing l d r with
  | nil => exact ⟨l, by rw [balance, Int.add_zero]; rfl, .inl rfl, fun _ _ => rfl⟩
  | char c plain rest ih =>
    have hbrace : c ≠ '{' := ne_openChar plain .brace
    rw [Bracketed.text, List.cons_append, balance, ← Int.add_assoc]
    by_cases hscope : c = ':' ∧ (rest.text ++ r).head? = some ':' ∧ d = 0
    · obtain ⟨rfl, hhead, rfl⟩ := hscope
      obtain ⟨l', heq, hfound, -⟩ := ih (rest.text ++ r).tail (0 + angleStep ':') hr
      obtain ⟨t', ht'⟩ : ∃ t', rest.text ++ r = ':' :: t' := by
        cases h : rest.text ++ r with
        | nil => exact absurd (List.append_eq_nil_iff.mp h).2 hr
        | cons x t' =>
          rw [h] at hhead
          exact ⟨t', by rw [Option.some.inj hhead]⟩
      have hstep : lastComponent l 0 0 (':' :: (rest.text ++ r)) =
          lastComponent (rest.text ++ r).tail (0 + angleStep ':') 0 (rest.text ++ r) := by
        rw [ht', lastComponent_separator]
        rfl
      refine ⟨l', hstep.trans heq, .inr ?_, fun hnone hstarts => ?_⟩
      · rcases hfound with rfl | hends
        · cases htext : rest.text with
          | nil =>
            rw [htext, List.nil_append] at hhead
            exact .inr ⟨hhead, rfl⟩
          | cons x u => exact .inl ⟨u, rfl⟩
        · exact hends
      · cases htext : rest.text with
        | nil =>
          rw [htext, List.nil_append] at hhead
          exact absurd hhead hstarts
        | cons x u =>
          rw [htext, List.cons_append] at hhead
          simp [hasTopScope, htext, Option.some.inj hhead] at hnone
    · obtain ⟨l', heq, hfound, hnone⟩ := ih l (d + angleStep c) hr
      refine ⟨l', (lastComponent_char hbrace hscope).trans heq, hfound, fun h => ?_⟩
      rw [hasTopScope, Bool.or_eq_false_iff] at h
      exact hnone h.2
  | group b inner rest ihinner ihrest =>
    cases b with
    | brace =>
      obtain ⟨l', heq, hfound, hnone⟩ := ihrest l d hr
      have htext : (Bracketed.group .brace inner rest).text ++ r = '{' :: (inner.text ++ '}' :: (rest.text ++ r)) := by
        simp [Bracketed.text, BracketKind.openChar, BracketKind.closeChar]
      rw [htext, lastComponent_brace]
      exact ⟨l', heq, hfound, hnone⟩
    | paren =>
      obtain ⟨mid, hmid, hmidFound, hmidNone⟩ := ihinner l d (List.cons_ne_nil ')' (rest.text ++ r))
      obtain ⟨l', heq, hfound, hnone⟩ := ihrest mid (d + balance inner) hr
      have htext : (Bracketed.group .paren inner rest).text ++ r = '(' :: (inner.text ++ ')' :: (rest.text ++ r)) := by
        simp [Bracketed.text, BracketKind.openChar, BracketKind.closeChar]
      refine ⟨l', ?_, ?_, fun h hstarts => ?_⟩
      · rw [htext, lastComponent_paren (.inl rfl), hmid, lastComponent_paren (.inr rfl), heq, balance, Int.add_assoc]
      · rcases hfound with rfl | hends
        · rcases hmidFound with rfl | ⟨u, rfl⟩ | ⟨hhead, -⟩
          · exact .inl rfl
          · exact .inr (.inl ⟨u ++ ')' :: rest.text, by simp⟩)
          · exact absurd (Option.some.inj hhead) (by decide)
        · exact .inr hends
      · rw [hasTopScope, Bool.or_eq_false_iff] at h
        rw [hnone h.2 hstarts]
        exact hmidNone h.1 fun heq => absurd (Option.some.inj heq) (by decide)

/-- A text without a scope is its own last component. -/
lemma lastComponent_whole (t : Bracketed) (h : hasTopScope d t = false) : lastComponent l d 0 t.text = l := by
  induction t generalizing d with
  | nil => exact lastComponent_nil 0
  | char c plain rest ih =>
    rw [hasTopScope, Bool.or_eq_false_iff] at h
    have hscope : ¬ (c = ':' ∧ rest.text.head? = some ':' ∧ d = 0) := by
      rintro ⟨rfl, hhead, rfl⟩
      simp [hhead] at h
    exact (lastComponent_char (ne_openChar plain .brace) hscope).trans (ih h.2)
  | group b inner rest _ ih =>
    cases b with
    | brace => exact (lastComponent_brace inner).trans (ih h)
    | paren =>
      rw [hasTopScope, Bool.or_eq_false_iff] at h
      obtain ⟨mid, hmid, -, hsame⟩ := lastComponent_text inner l d (List.cons_ne_nil ')' rest.text)
      obtain rfl := hsame h.1 fun heq => absurd (Option.some.inj heq) (by decide)
      have hbehind := (lastComponent_paren (.inr rfl)).trans (ih h.2)
      exact (lastComponent_paren (.inl rfl)).trans (hmid.trans hbehind)

/-! ### What is found in front of a name -/

section Front

variable {l' own : Text}

/-- What is found in a name is not the name when more was found in front of it. -/
lemma lastComponent_ne (d : Int) (h : own.length < l.length) : lastComponent l d 0 own ≠ own := by
  rcases lastComponent_const d 0 own with hnone | ⟨found, hlength, hfound⟩
  · rw [hnone]
    rintro rfl
    exact absurd h (Nat.lt_irrefl _)
  · rw [hfound]
    rintro rfl
    exact absurd hlength (Nat.lt_irrefl _)

/-- What is found in a text in front of a separator or a blank has that and the name at its end. -/
lemma length_lt_of_found (hl : own.length < l.length) (hr : own.length < r.length)
    (htail : r.head? = some ':' → own.length < r.tail.length)
    (hfound : l' = l ∨ (∃ u, l' = u ++ r) ∨ r.head? = some ':' ∧ l' = r.tail) : own.length < l'.length := by
  rcases hfound with rfl | ⟨u, rfl⟩ | ⟨hhead, rfl⟩
  · exact hl
  · rw [List.length_append]
    omega
  · exact htail hhead

/-- A text that a blank parts from the name stays in front of it. -/
lemma lastComponent_blank_ne (t : Bracketed) (own : Text) :
    lastComponent (t.text ++ ' ' :: own) 0 0 (t.text ++ ' ' :: own) ≠ own := by
  intro h
  obtain ⟨l', heq, hfound, -⟩ := lastComponent_text t (t.text ++ ' ' :: own) 0 (List.cons_ne_nil ' ' own)
  have hlonger : own.length < l'.length := by
    refine length_lt_of_found ?_ (Nat.lt_succ_self _) ?_ hfound
    · rw [List.length_append, List.length_cons]
      omega
    · exact fun hhead => absurd (Option.some.inj hhead) (by decide)
  rw [h, lastComponent_char (by decide) (by simp)] at heq
  exact lastComponent_ne _ hlonger heq.symm

/-- So does one that a separator parts from the name, unless its angle brackets are closed. -/
lemma balance_eq_zero_of_lastComponent {t : Bracketed}
    (h : lastComponent (t.text ++ ':' :: ':' :: own) 0 0 (t.text ++ ':' :: ':' :: own) = own) : balance t = 0 := by
  by_contra hopen
  obtain ⟨l', heq, hfound, -⟩ :=
    lastComponent_text t (t.text ++ ':' :: ':' :: own) 0 (List.cons_ne_nil ':' (':' :: own))
  have hlonger : own.length < l'.length := by
    refine length_lt_of_found ?_ ?_ (fun _ => Nat.lt_succ_self _) hfound
    · rw [List.length_append, List.length_cons, List.length_cons]
      omega
    · exact Nat.lt_succ_of_lt (Nat.lt_succ_self _)
  have hcolon : ∀ r : Text, lastComponent l' (balance t) 0 (':' :: r) = lastComponent l' (balance t) 0 r := by
    intro r
    rw [lastComponent_char (by decide) fun h => hopen h.2.2, angleStep, if_neg (by decide), if_neg (by decide),
      Int.add_zero]
  rw [h, Int.zero_add, hcolon, hcolon] at heq
  exact lastComponent_ne _ hlonger heq.symm

end Front

/-! ### Full names -/

namespace FullName

variable (n : FullName)

/-- Scopes end with a separator. -/
lemma exists_scopesSpelled {ss : List Scope} (h : ss ≠ []) : ∃ t, scopesSpelled ss = t ++ separatorSpelled := by
  induction ss with
  | nil => contradiction
  | cons s ss ih =>
    by_cases hss : ss = []
    · subst hss
      exact ⟨s.spelled, rfl⟩
    · obtain ⟨t, ht⟩ := ih hss
      exact ⟨s.spelled ++ (separatorSpelled ++ t), by simp only [scopesSpelled, ht, Bracketed.append_assoc]⟩

lemma exists_context (h : n.scopes ≠ []) :
    ∃ t : Bracketed, n.context.text = t.text ++ scopeSeparator ∧ balance t = balance n.context := by
  obtain ⟨t, ht⟩ := exists_scopesSpelled h
  have hends : ∀ t : Bracketed, (t ++ separatorSpelled).text = t.text ++ scopeSeparator ∧
      balance t = balance (t ++ separatorSpelled) := by
    intro t
    rw [balance_append]
    exact ⟨Bracketed.text_append t separatorSpelled, (Int.add_zero _).symm⟩
  cases hreturn : n.returnType with
  | none =>
    have hcontext : n.context = t ++ separatorSpelled := by simp only [context, hreturn, ht]
    exact ⟨t, hcontext ▸ hends t⟩
  | some returnType =>
    have hcontext : n.context = returnType ++ (blankSpelled ++ t) ++ separatorSpelled := by
      simp only [context, hreturn, ht, Bracketed.append_assoc]
    exact ⟨returnType ++ (blankSpelled ++ t), hcontext ▸ hends _⟩

lemma startsComponent_kept (u : Unqualified) : StartsComponent (kept u.text) := by
  intro hhead
  apply u.startsComponent
  rw [← List.take_append_drop (cutOffset none 0 0 u.text) u.text, List.head?_append]
  rw [kept] at hhead
  rw [hhead]
  rfl

/-- When the scans get to the function's own name, the base name is that of the name. -/
lemma functionBaseName_text (h : n.NameReached) : functionBaseName n.text = functionBaseName n.name.text := by
  rw [functionBaseName_eq, functionBaseName_eq, n.kept_text h]
  by_cases hss : n.scopes = []
  · have hnil : n.context = .nil := by
      rw [context, h.scopeBehind.resolve_right (not_not_intro hss), hss]
      rfl
    rw [hnil]
    rfl
  · obtain ⟨t, ht, hbalance⟩ := n.exists_context hss
    generalize hown : kept n.name.text = own
    have hstarts : StartsComponent own := hown ▸ startsComponent_kept n.name
    obtain ⟨l', heq, -⟩ := lastComponent_text t (n.context.text ++ own) 0 (List.cons_ne_nil ':' (':' :: own))
    rw [hbalance, h.closed, Int.add_zero] at heq
    have hbehind : lastComponent own 0 0 (':' :: own) = lastComponent own 0 0 own := by
      rw [lastComponent_char (by decide) fun h => hstarts h.2.1]
      rfl
    have hname : n.context.text ++ own = t.text ++ ':' :: ':' :: own := by
      rw [ht, List.append_assoc]
      rfl
    rw [← hname] at heq
    exact heq.trans ((lastComponent_separator own).trans hbehind)

/-- A name that is its own last component is its own base name. -/
lemma functionBaseName_whole {u : Unqualified} (h : u.Whole) : functionBaseName u.text = u.text := by
  rw [functionBaseName_eq, kept_unqualified h.1]
  exact lastComponent_whole u.spelled h.2

end FullName

end CallStackLogger
