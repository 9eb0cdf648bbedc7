import CallStackLogger.Reconcile.LastComponent
import CallStackLogger.Resolve.Resolver

/-!
# The two ways to a base name

A record's base name is that of the demangled full name, `cache_name` of `src/callStack.cpp`; an inline chain
has the base name of what DWARF calls the function, `innermost_base_name`. The two agree on a function when the
scans of the full name get to the function's own name and the demangler does not take that name for a mangled
one; otherwise only by chance, where the name is spelled as a component a second time.
-/

namespace CallStackLogger

open Brackets

/-! ### What DWARF and the symbol table say -/

/-- `MANGLED_NAME_PREFIX`. -/
def mangledNamePrefix : Text := "_Z".toList

/-- `CLONE_SUFFIX_SEPARATOR`. -/
def cloneSuffixSeparator : Char := '.'

/-- A function DWARF has at an address. -/
structure DwarfEntry where
  function : Text

/-- The functions DWARF has at an address, innermost first, and the symbol that contains it. -/
structure Lookup where
  entries : List DwarfEntry
  symbol : Text

/-- `demangle_cxa`: a name the demangler refuses stays as it is. -/
def demangleCxa (cxaDemangle : Text → Option Text) (mangled : Text) : Text :=
  (cxaDemangle mangled).getD mangled

/-- `function_name_of`. -/
def functionNameOf (lookup : Lookup) (nameOf : NameOf) : Text :=
  let dwarf := match nameOf with
    | .outermostFunction => (lookup.entries.getLast?.map (·.function)).getD []
    | .innermostFunction => (lookup.entries.head?.map (·.function)).getD []
  if dwarf ≠ [] ∧ mangledNamePrefix.isPrefixOf dwarf then dwarf
  else if lookup.symbol = [] then dwarf
  else if dwarf ≠ [] ∧ dwarf.isPrefixOf lookup.symbol ∧
      (lookup.symbol.length = dwarf.length ∨ lookup.symbol[dwarf.length]? = some cloneSuffixSeparator) then dwarf
  else lookup.symbol

/-- `innermost_base_name`. -/
def innermostBaseName (cxaDemangle : Text → Option Text) (lookup : Lookup) : Text :=
  let dwarf := (lookup.entries.head?.map (·.function)).getD []
  let name := if dwarf = [] then functionNameOf lookup .innermostFunction else dwarf
  if name = [] then [] else functionBaseName (demangleCxa cxaDemangle name)

/-! ### When they agree -/

namespace FullName

variable (n : FullName)

/-- A name spelled once is only the base name of the full name when that is cut behind it. -/
lemma cutOffset_of_spelledOnce (honce : n.SpelledOnce) (h : functionBaseName n.text = n.name.text) :
    cutOffset none 0 0 n.text = n.head.text.length := by
  have hfound : ∃ front, front ++ functionBaseName n.text = kept n.text ∧ startsComponentBehind front = true :=
    lastComponent_component ⟨[], rfl, rfl⟩ List.suffix_rfl
  rw [h] at hfound
  obtain ⟨front, hfront, hstarts⟩ := hfound
  have hkept : (kept n.text).length = cutOffset none 0 0 n.text := by
    rw [kept, List.length_take, Nat.min_eq_left (cutOffset_le _ _ _ _)]
  have hcut : cutOffset none 0 0 n.text = front.length + n.name.text.length := by
    rw [← hkept, ← hfront, List.length_append]
  have htext : n.text = front ++ (n.name.text ++ n.text.drop (cutOffset none 0 0 n.text)) := by
    rw [← List.append_assoc, hfront, kept, List.take_append_drop]
  have hpos := List.length_pos_iff.mpr n.name.text_ne_nil
  have hplace : front.length = n.context.text.length := by
    apply honce
    · rw [htext, List.length_append, List.length_append]
      omega
    · rw [htext, List.drop_left]
      exact List.isPrefixOf_iff_prefix.mpr (List.prefix_append _ _)
    · rw [htext, List.take_left]
      exact hstarts
    · rw [← hcut]
      exact cutsBefore_cutOffset _ _ _ _
  rw [hcut, head_text, List.length_append, hplace]

/-- The second scan finds the function's own name only behind closed angle brackets and a scope. -/
lemma closed_of_lastComponent {own : Text}
    (h : lastComponent (n.context.text ++ own) 0 0 (n.context.text ++ own) = own) :
    balance n.context = 0 ∧ (n.returnType = none ∨ n.scopes ≠ []) := by
  by_cases hss : n.scopes = []
  · cases hreturn : n.returnType with
    | none =>
      have hnil : n.context = .nil := by simp only [context, hreturn, hss, scopesSpelled]
      rw [hnil]
      exact ⟨rfl, .inl rfl⟩
    | some returnType =>
      have hcontext : n.context.text ++ own = returnType.text ++ ' ' :: own := by
        simp [context, hreturn, hss, scopesSpelled, blankSpelled, Bracketed.text]
      rw [hcontext] at h
      exact absurd h (lastComponent_blank_ne returnType own)
  · obtain ⟨t, ht, hbalance⟩ := n.exists_context hss
    have hcontext : n.context.text ++ own = t.text ++ ':' :: ':' :: own := by
      rw [ht, List.append_assoc]
      rfl
    rw [hcontext] at h
    exact ⟨hbalance ▸ balance_eq_zero_of_lastComponent h, .inr hss⟩

/-- A name that is its own last component and spelled once is the base name only when the scans get to it. -/
lemma nameReached_of_agrees (hwhole : n.name.Whole) (honce : n.SpelledOnce)
    (h : functionBaseName n.text = functionBaseName n.name.text) : n.NameReached := by
  rw [functionBaseName_whole hwhole] at h
  have hcut := n.cutOffset_of_spelledOnce honce h
  have hkept : kept n.text = n.context.text ++ n.name.text := by
    rw [kept, hcut, text_eq, List.take_left, head_text]
  rw [functionBaseName_eq, hkept] at h
  obtain ⟨hclosed, hscope⟩ := n.closed_of_lastComponent h
  refine ⟨?_, hclosed, hscope⟩
  rw [if_pos hwhole.1]
  exact n.cutOffset_text_iff.mp hcut

end FullName

/-- The name DWARF has, or what the demangler takes it for. -/
lemma innermostBaseName_eq {cxaDemangle : Text → Option Text} {lookup : Lookup} {name : Text} (hne : name ≠ [])
    (hfirst : lookup.entries.head? = some ⟨name⟩) :
    innermostBaseName cxaDemangle lookup = functionBaseName ((cxaDemangle name).getD name) := by
  simp [innermostBaseName, demangleCxa, hfirst, hne]

/-- A lambda in a function. -/
def lambdaIn (qualifiers : List Qualifier) : FullName where
  returnType := none
  scopes := [.named { text := "A".toList } none, .function (.named { text := "bar".toList } none) .nil qualifiers,
    .block (.plain "lambda".toList rfl ++ .group .paren .nil (.plain "#1".toList rfl))]
  name := .operator .call none
  params := .nil
  qualifiers := [.const]

/-- A function whose name is the code of a type to the demangler. -/
def typeCode : FullName where
  returnType := none
  scopes := []
  name := .named { text := "f".toList } none
  params := .nil
  qualifiers := []

-- a '>' that is an operator closes the template arguments for the scan
example : functionBaseName "enable_if<((3)>(2)), int>::type foo<3>()".toList = "enable_if<((3)>".toList := by
  decide +kernel

end CallStackLogger
