import CallStackLogger.Format.Buffer

/-!
# Base names

`function_base_name` of `include/frameReconcile.h`: the last component of a demangled function name, without
namespaces, class scope, enclosing functions or parameter list. The first scan finds where the name is cut,
the second the component behind the last scope. Both are written as recursions over what is left of the
name; `skip` counts the characters that are passed over as a whole.
-/

namespace CallStackLogger

/-- `matching_bracket`: how far the bracket closing the first one is away, nesting counted. -/
def matchingBracket (openChar closeChar : Char) : Int → Text → Option Nat
  | _, []            => none
  | depth, c :: rest =>
    if c = openChar then (matchingBracket openChar closeChar (depth + 1) rest).map (· + 1)
    else if c = closeChar then
      if depth - 1 = 0 then some 0
      else (matchingBracket openChar closeChar (depth - 1) rest).map (· + 1)
    else (matchingBracket openChar closeChar depth rest).map (· + 1)

/-- `OPERATOR_KEYWORD`. -/
def operatorKeyword : Text := "operator".toList

/-- `CALL_OPERATOR`. -/
def callOperator : Text := "()".toList

/-- Where an operator's own name ends: at the `'('` of its parameter list. -/
def operatorEnd (name : Text) : Nat :=
  let symbol := name.drop operatorKeyword.length
  let call := if callOperator.isPrefixOf symbol then callOperator.length else 0
  operatorKeyword.length + call + ((symbol.drop call).takeWhile (· != '(')).length

/-- A keyword starts a component, a word, or the name. -/
def startsWord (prev : Option Char) : Bool := prev == none || prev == some ':' || prev == some ' '

/-- The first scan: how much of the name is kept. -/
def cutOffset : Option Char → Int → Nat → Text → Nat
  | _, _, _, []                       => 0
  | _, depth, skip + 1, c :: rest     => cutOffset (some c) depth skip rest + 1
  | prev, depth, 0, c :: rest         =>
    if c = '{' then
      match matchingBracket '{' '}' 0 (c :: rest) with
      | none       => (c :: rest).length
      | some close => cutOffset (some c) depth close rest + 1
    else if operatorKeyword.isPrefixOf (c :: rest) && startsWord prev then operatorEnd (c :: rest)
    else if c = '<' then cutOffset (some c) (depth + 1) 0 rest + 1
    else if c = '>' then cutOffset (some c) (depth - 1) 0 rest + 1
    else if c = '(' ∧ depth = 0 then
      match matchingBracket '(' ')' 0 (c :: rest) with
      | none       => 0
      | some close =>
        -- a scope component, not the parameter list
        if "::".toList.isPrefixOf (rest.drop close) then cutOffset (some c) depth (close + 1) rest + 1
        else 0
    else cutOffset (some c) depth 0 rest + 1

/-- The second scan: what is behind the last scope, `last` until another is found. -/
def lastComponent (last : Text) : Int → Nat → Text → Text
  | depth, skip + 1, _ :: rest => lastComponent last depth skip rest
  | depth, 0, c :: d :: rest   =>
    if c = '{' then
      match matchingBracket '{' '}' 0 (c :: d :: rest) with
      | none       => last
      | some close => lastComponent last depth close (d :: rest)
    else if c = '<' then lastComponent last (depth + 1) 0 (d :: rest)
    else if c = '>' then lastComponent last (depth - 1) 0 (d :: rest)
    else if c = ':' ∧ d = ':' ∧ depth = 0 then lastComponent rest depth 0 (d :: rest)
    else lastComponent last depth 0 (d :: rest)
  | _, _, _                    => last

/-- `function_base_name`. -/
def functionBaseName (name : Text) : Text :=
  let kept := name.take (cutOffset none 0 0 name)
  lastComponent kept 0 0 kept

example : functionBaseName "host(int)::{lambda(auto:1)#2}::operator()<int>(int) const".toList =
    "operator()<int>".toList := by decide +kernel

example : functionBaseName "std::operator<< <char>(std::ostream&, char const*)".toList =
    "operator<< <char>".toList := by decide +kernel

end CallStackLogger
