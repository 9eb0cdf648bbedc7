import CallStackLogger.Core.Brackets
import CallStackLogger.Reconcile.BaseName

/-!
# Demangled names

What the demangler prints for a function: a return type for a template function, the scopes the function is
in, its unqualified name, its parameter list and its qualifiers. Types, template arguments and parameter
lists are any texts whose parentheses and braces nest; an angle bracket in them may be an operator's.
-/

namespace CallStackLogger

open Brackets

/-! ### Names -/

def identChar (c : Char) : Bool := !isBracket c && !"<>: ".toList.contains c

lemma identChar_plain {c : Char} (h : identChar c = true) : isBracket c = false := by
  simp only [identChar, Bool.and_eq_true] at h
  simpa using h.1

/-- An identifier. It may begin with the letters of the keyword, but is not the keyword. -/
structure Ident where
  text : Text
  nonempty : text ≠ [] := by decide
  notKeyword : text ≠ operatorKeyword := by decide
  chars : text.all identChar = true := by rfl

namespace Ident

variable (id : Ident)

lemma identChar_of_mem {c : Char} (hc : c ∈ id.text) : identChar c = true := List.all_eq_true.mp id.chars c hc

lemma plain : id.text.all (!isBracket ·) = true := by
  rw [List.all_eq_true]
  intro c hc
  rw [identChar_plain (id.identChar_of_mem hc)]
  rfl

def spelled : Bracketed := .plain id.text id.plain

end Ident

/-- The symbol of an operator: the only one with a parenthesis is that of a call. -/
inductive OperatorSymbol where
  | call
  | token (t : Text) (nonempty : t ≠ []) (plain : t.all (!isBracket ·) = true)

def OperatorSymbol.spelled : OperatorSymbol → Bracketed
  | call            => .group .paren .nil .nil
  | token t _ plain => .plain t plain

def blankSpelled : Bracketed := .plain " ".toList rfl

/-- The template arguments of a name. -/
def argsSpelled : Option Bracketed → Bracketed
  | none      => .nil
  | some args => .plain "<".toList rfl ++ (args ++ .plain ">".toList rfl)

def keywordSpelled : Bracketed := .plain operatorKeyword rfl

/-- The unqualified name of a function. -/
inductive Unqualified where
  | named (id : Ident) (args : Option Bracketed)
  | operator (symbol : OperatorSymbol) (args : Option Bracketed)
  | conversion (target : Bracketed)
  | destructor (id : Ident)

/-- The demangler keeps the `'<'` of an operator and that of its template arguments apart. -/
def Unqualified.spelled : Unqualified → Bracketed
  | named id args        => id.spelled ++ argsSpelled args
  | operator symbol args =>
    let blank := if args.isSome && symbol.spelled.text.getLast? == some '<' then blankSpelled else .nil
    keywordSpelled ++ (symbol.spelled ++ (blank ++ argsSpelled args))
  | conversion target    => keywordSpelled ++ (blankSpelled ++ target)
  | destructor id        => .plain "~".toList rfl ++ id.spelled

def Unqualified.text (u : Unqualified) : Text := u.spelled.text

inductive Qualifier where
  | const
  | volatile
  | lvalue
  | rvalue
deriving DecidableEq, Repr

def Qualifier.text : Qualifier → Text
  | const    => " const".toList
  | volatile => " volatile".toList
  | lvalue   => " &".toList
  | rvalue   => " &&".toList

def qualifiersSpelled : List Qualifier → Bracketed
  | []      => .nil
  | q :: qs => .plain q.text (by cases q <;> rfl) ++ qualifiersSpelled qs

/-- A parameter list and the qualifiers behind it. -/
def signatureSpelled (params : Bracketed) (qualifiers : List Qualifier) : Bracketed :=
  .group .paren params (qualifiersSpelled qualifiers)

/-- A scope component: a namespace or a class, an enclosing function, or a brace block. -/
inductive Scope where
  | named (id : Ident) (args : Option Bracketed)
  | anonymousNamespace
  | function (name : Unqualified) (params : Bracketed) (qualifiers : List Qualifier)
  | block (inner : Bracketed)

def Scope.spelled : Scope → Bracketed
  | named id args                   => id.spelled ++ argsSpelled args
  | anonymousNamespace              => .group .paren (.plain "anonymous namespace".toList rfl) .nil
  | function name params qualifiers => name.spelled ++ signatureSpelled params qualifiers
  | block inner                     => .group .brace inner .nil

def scopeSeparator : Text := "::".toList

def separatorSpelled : Bracketed := .plain scopeSeparator rfl

def scopesSpelled : List Scope → Bracketed
  | []      => .nil
  | s :: ss => s.spelled ++ (separatorSpelled ++ scopesSpelled ss)

structure FullName where
  returnType : Option Bracketed
  scopes : List Scope
  name : Unqualified
  params : Bracketed
  qualifiers : List Qualifier

namespace FullName

variable (n : FullName)

/-- What stands in front of the function's own name. -/
def context : Bracketed :=
  match n.returnType with
  | none            => scopesSpelled n.scopes
  | some returnType => returnType ++ (blankSpelled ++ scopesSpelled n.scopes)

/-- The name up to its parameter list. -/
def head : Bracketed := n.context ++ n.name.spelled

def text : Text := (n.head ++ signatureSpelled n.params n.qualifiers).text

end FullName

/-! ### Getting to the function's own name -/

/-- How an angle bracket changes the depth. -/
def angleStep (c : Char) : Int := if c = '<' then 1 else if c = '>' then -1 else 0

/-- How the first scan comes out of a text: through it, with so many angle brackets open; at a word that
starts with the keyword; or at a parenthesis outside angle brackets that no scope separator follows. The last
two have the text from there on. -/
inductive Outcome where
  | through (depth : Int)
  | word (rest : Text)
  | paren (rest : Text)
deriving DecidableEq, Repr

/-- Going on behind a text that is passed; a stop is seen with what is behind the text. -/
def Outcome.andThen (goOn : Int → Outcome) (behind : Text) : Outcome → Outcome
  | through depth => goOn depth
  | word rest     => word (rest ++ behind)
  | paren rest    => paren (rest ++ behind)

def passage : Option Char → Int → Bracketed → Outcome
  | _, depth, .nil                     => .through depth
  | prev, depth, .char c _ rest        =>
    if operatorKeyword.isPrefixOf (c :: rest.text) && startsWord prev then .word (c :: rest.text)
    else passage (some c) (depth + angleStep c) rest
  | _, depth, .group .brace _ rest     => passage (some '}') depth rest
  | _, depth, .group .paren inner rest =>
    if depth = 0 then
      if scopeSeparator.isPrefixOf rest.text then passage (some ')') 0 rest
      else .paren ('(' :: (inner.text ++ ')' :: rest.text))
    else
      (passage (some '(') depth inner).andThen (fun inside => passage (some ')') inside rest) (')' :: rest.text)

/-- No parenthesis stands behind a word, those of the call operator apart. -/
def uncalled (word : Text) : Bool :=
  let symbol := word.drop operatorKeyword.length
  !(if callOperator.isPrefixOf symbol then symbol.drop callOperator.length else symbol).contains '('

/-- The next parenthesis behind the text is where the scan cuts. -/
def Outcome.atEnd : Outcome → Bool
  | through depth => depth == 0
  | word rest     => uncalled rest
  | paren _       => false

/-- No parenthesis in the name itself cuts it. -/
def Unqualified.uncut (u : Unqualified) : Bool :=
  match passage none 0 u.spelled with
  | .through _ => true
  | .word rest => uncalled rest
  | .paren _   => false

/-- How many more angle brackets are opened than closed, brace blocks apart. -/
def balance : Bracketed → Int
  | .nil                     => 0
  | .char c _ rest           => angleStep c + balance rest
  | .group .brace _ rest     => balance rest
  | .group .paren inner rest => balance inner + balance rest

/-- A scope separator outside angle brackets and brace blocks. -/
def hasTopScope : Int → Bracketed → Bool
  | _, .nil                         => false
  | depth, .char c _ rest           =>
    c == ':' && rest.text.head? == some ':' && depth == 0 || hasTopScope (depth + angleStep c) rest
  | depth, .group .brace _ rest     => hasTopScope depth rest
  | depth, .group .paren inner rest => hasTopScope depth inner || hasTopScope (depth + balance inner) rest

/-- A component starts where the name does, or behind a separator. -/
def startsComponentBehind (front : Text) : Bool := front.getLast?.all (· == ':')

/-- A name is cut at a parenthesis, or kept to its end. -/
def cutsBefore (rest : Text) : Bool := rest.head?.all (· == '(')

/-- The name as a whole is its last component. -/
def Unqualified.Whole (u : Unqualified) : Prop := u.uncut = true ∧ hasTopScope 0 u.spelled = false

instance (u : Unqualified) : Decidable u.Whole := inferInstanceAs (Decidable (_ ∧ _))

namespace FullName

variable (n : FullName)

/-- The scans get to the function's own name: the first is cut by the name's own parameter list, or, where a
parenthesis in the name cuts it, comes to the name outside angle brackets; for the second every angle bracket
in front is closed, and a return type has a scope behind it. -/
structure NameReached : Prop where
  cut : if n.name.uncut then (passage none 0 n.head).atEnd = true else passage none 0 n.context = .through 0
  closed : balance n.context = 0
  scopeBehind : n.returnType = none ∨ n.scopes ≠ []

/-- Nowhere else in the full name is the function's own name spelled as a component that the scan can cut behind. -/
def SpelledOnce : Prop :=
  ∀ i < n.text.length, n.name.text.isPrefixOf (n.text.drop i) → startsComponentBehind (n.text.take i) →
    cutsBefore (n.text.drop (i + n.name.text.length)) → i = n.context.text.length

instance : Decidable n.SpelledOnce :=
  inferInstanceAs (Decidable (∀ i < n.text.length, n.name.text.isPrefixOf (n.text.drop i) →
    startsComponentBehind (n.text.take i) → cutsBefore (n.text.drop (i + n.name.text.length)) →
      i = n.context.text.length))

end FullName

end CallStackLogger
