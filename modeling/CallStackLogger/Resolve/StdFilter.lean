import CallStackLogger.Core.Checked
import CallStackLogger.Format.Line
import Mathlib.Data.List.TakeWhile

/-!
# The standard-library filter

`include/stdSymbolFilter.h`: a mangled name belongs to the library when the outermost name that encloses it
does. A pointer into a C string is the rest of the string, empty at the NUL that ends it; reading behind the NUL
is a fault.
-/

namespace CallStackLogger

open Checked

/-! ### Reading a C string -/

/-- `*p`. -/
def charAt (p : Text) : Char := p.headD '\x00'

/-- `p + 1`. -/
def next : Text → Except Fault Text
  | []     => .error .outside
  | _ :: p => .ok p

/-- `starts_with`: `strncmp` compares up to the first difference. -/
def startsWith : Text → Text → Except Fault Bool
  | _, []     => .ok true
  | p, c :: w => do
    if charAt p ≠ c then return false
    startsWith (← next p) w

/-- `while (*p == 'K' || *p == 'V' || *p == 'r') p++;` -/
def skipCvQualifiers : Text → Text
  | []     => []
  | c :: p => if c = 'K' ∨ c = 'V' ∨ c = 'r' then skipCvQualifiers p else c :: p

/-! ### The filter -/

/-- `"__cxa_"`. -/
def cxaPrefix : Text := "__cxa_".toList

/-- A local entity is in the library when the function that encloses it is: its marker is skipped. -/
def skipLocalMarker (p : Text) : Except Fault Text := if charAt p = 'Z' then next p else .ok p

/-- Behind `N`, the cv-qualifiers and the ref-qualifier of a nested name. -/
def skipNestedName (p : Text) : Except Fault Text :=
  if charAt p = 'N' then do
    let q ← next p
    let q := skipCvQualifiers q
    if charAt q = 'R' ∨ charAt q = 'O' then next q else .ok q
  else .ok p

/-- The letters behind `S` that stand for a name of the library. -/
def standardLetters : Text := "tabsiod".toList

/-- Whether an abbreviation for a name of the library is at `p`. -/
def abbreviatesLibrary (p : Text) : Except Fault Bool := do
  if charAt p = 'S' then
    let q ← next p
    return standardLetters.contains (charAt q)
  return false

/-- `"9__gnu_cxx"`. -/
def gnuCxxPrefix : Text := "9__gnu_cxx".toList

/-- `"10__cxxabiv1"`. -/
def cxxabiPrefix : Text := "10__cxxabiv1".toList

/-- `"11__gnu_debug"`. -/
def gnuDebugPrefix : Text := "11__gnu_debug".toList

/-- Whether the name component at `p` is one of the library's. -/
def namesLibrary (p : Text) : Except Fault Bool := do
  if ← abbreviatesLibrary p then return true
  if ← startsWith p gnuCxxPrefix then return true
  if ← startsWith p cxxabiPrefix then return true
  startsWith p gnuDebugPrefix

/-- `is_std_library_symbol`. -/
def isStdLibrarySymbol (mangledName : Text) : Except Fault Bool := do
  if ← startsWith mangledName cxaPrefix then return true
  if charAt mangledName ≠ '_' then return false
  let p ← next mangledName
  if charAt p ≠ 'Z' then return false
  let p ← next p
  let p ← skipLocalMarker p
  let p ← skipNestedName p
  namesLibrary p

/-! ### Mangled names -/

inductive CvQualifier where
  | const
  | volatile
  | restrict
deriving DecidableEq, Repr

def CvQualifier.char : CvQualifier → Char
  | .const    => 'K'
  | .volatile => 'V'
  | .restrict => 'r'

inductive RefQualifier where
  | lvalue
  | rvalue
deriving DecidableEq, Repr

def RefQualifier.char : RefQualifier → Char
  | .lvalue => 'R'
  | .rvalue => 'O'

/-- The start of a nested name. -/
structure Nesting where
  cv : List CvQualifier
  ref : Option RefQualifier
deriving DecidableEq, Repr

def Nesting.text (n : Nesting) : Text := 'N' :: n.cv.map CvQualifier.char ++ n.ref.toList.map RefQualifier.char

/-- An identifier does not start with a digit. -/
structure SourceName where
  text : Text
  head : ∃ c t, text = c :: t ∧ c.isDigit = false

/-- A component that is neither a source name nor an abbreviation of the library: it may be a substitution. -/
def OtherComponent (w : Text) : Prop :=
  ∃ c t, w = c :: t ∧ c.isDigit = false ∧ (c = 'S' → ∃ d t', t = d :: t' ∧ d ∉ standardLetters)

/-- The first component of a name. -/
inductive FirstComponent where
  | std
  | substitution (c : Char) (h : c ∈ "absiod".toList)
  | source (name : SourceName)
  | other (w : Text) (h : OtherComponent w)

namespace FirstComponent

def text : FirstComponent → Text
  | .std              => "St".toList
  | .substitution c _ => ['S', c]
  | .source name      => decimal name.text.length ++ name.text
  | .other w _        => w

/-- The namespaces of the library that have no abbreviation. -/
def libraryNamespaces : List Text := ["__gnu_cxx".toList, "__cxxabiv1".toList, "__gnu_debug".toList]

/-- The component is a name of the library. -/
def IsLibrary : FirstComponent → Prop
  | .std              => True
  | .substitution _ _ => True
  | .source name      => name.text ∈ libraryNamespaces
  | .other _ _        => False

end FirstComponent

/-- What may start behind `nesting` without being taken for a part of it. -/
def StartsBehind (nesting : Option Nesting) (c : Char) : Prop :=
  match nesting with
  | none   => c ≠ 'Z' ∧ c ≠ 'N'
  | some n => n.ref = none → c ≠ 'K' ∧ c ≠ 'V' ∧ c ≠ 'r' ∧ c ≠ 'R' ∧ c ≠ 'O'

/-- `_Z`, a marker for each local name, the start of a nested name if it is one, its first component, and more. -/
structure MangledName where
  markers : Nat
  nesting : Option Nesting
  component : FirstComponent
  rest : Text
  startsBehind : ∀ c ∈ component.text.head?, StartsBehind nesting c

def MangledName.text (m : MangledName) : Text :=
  "_Z".toList ++ List.replicate m.markers 'Z' ++ (m.nesting.map Nesting.text).getD [] ++ m.component.text ++ m.rest

/-! ### What the readers find -/

section Readers

variable {p w v : Text} {c : Char}

/-- A comparison with a literal stays in front of the NUL and finds whether the string starts with it. -/
lemma startsWith_eq (p : Text) (hw : '\x00' ∉ w) : startsWith p w = .ok (w.isPrefixOf p) := by
  induction w generalizing p with
  | nil => cases p <;> rfl
  | cons c w ih =>
    obtain ⟨hc, hrest⟩ := not_or.mp (mt List.mem_cons.mpr hw)
    cases p with
    | nil =>
      have hend : charAt [] ≠ c := hc
      rw [startsWith, if_pos hend]
      rfl
    | cons d p =>
      by_cases hd : d = c
      · have hread : ¬ charAt (d :: p) ≠ c := not_not.mpr hd
        rw [startsWith, if_neg hread, hd, List.isPrefixOf_cons_cons_self]
        exact ih p hrest
      · have hread : charAt (d :: p) ≠ c := hd
        rw [startsWith, if_pos hread, List.isPrefixOf_cons_cons, beq_eq_false_iff_ne.mpr (Ne.symm hd)]
        rfl

lemma isPrefixOf_of_head_ne {d : Char} (h : d ≠ c) : (d :: w).isPrefixOf (c :: p) = false := by
  rw [List.isPrefixOf_cons_cons, beq_eq_false_iff_ne.mpr h, Bool.false_and]

lemma skipCvQualifiers_cv (cv : List CvQualifier) (hp : charAt p ≠ 'K' ∧ charAt p ≠ 'V' ∧ charAt p ≠ 'r') :
    skipCvQualifiers (cv.map CvQualifier.char ++ p) = p := by
  induction cv with
  | nil =>
    cases p with
    | nil => rfl
    | cons c p => exact if_neg (by simpa [charAt] using hp)
  | cons q cv ih =>
    have hq : q.char = 'K' ∨ q.char = 'V' ∨ q.char = 'r' := by cases q <;> simp [CvQualifier.char]
    rw [List.map_cons, List.cons_append, skipCvQualifiers, if_pos hq]
    exact ih

lemma charAt_append_of_ne_nil (h : w ≠ []) (v : Text) : charAt (w ++ v) = charAt w := by
  cases w with
  | nil => exact absurd rfl h
  | cons c w => rfl

/-- A number that is followed by something else can be read back. -/
lemma takeWhile_decimal (n : Nat) (hw : ∀ c ∈ w.head?, c.isDigit = false) :
    (decimal n ++ w).takeWhile Char.isDigit = decimal n := by
  have hdigits : ∀ c ∈ decimal n, c.isDigit = true := fun c hc => isDigit_of_mem_decimal hc
  rw [List.takeWhile_append_of_pos hdigits]
  cases w with
  | nil => simp
  | cons c w => simp [hw c rfl]

lemma decimal_append_inj {m n : Nat} (hw : ∀ c ∈ w.head?, c.isDigit = false)
    (hv : ∀ c ∈ v.head?, c.isDigit = false) (h : decimal m ++ w = decimal n ++ v) : m = n ∧ w = v := by
  have hdigits : decimal m = decimal n := by
    rw [← takeWhile_decimal m hw, h, takeWhile_decimal n hv]
  refine ⟨?_, ?_⟩
  · rw [← Nat.ofDigitChars_ten_toDigits (n := m), ← Nat.ofDigitChars_ten_toDigits (n := n)]
    exact congrArg (Nat.ofDigitChars 10 · 0) hdigits
  · rw [hdigits] at h
    exact List.append_cancel_left h

/-- A source name starts with another one only when it is the same. -/
lemma sourceName_isPrefixOf_iff (name name' : SourceName) (rest : Text) :
    (decimal name'.text.length ++ name'.text).isPrefixOf (decimal name.text.length ++ name.text ++ rest) = true ↔
      name.text = name'.text := by
  obtain ⟨w, c, t, rfl, hc⟩ := name
  obtain ⟨w', c', t', rfl, hc'⟩ := name'
  rw [List.isPrefixOf_iff_prefix]
  constructor
  · rintro ⟨tail, htail⟩
    rw [List.append_assoc, List.append_assoc] at htail
    obtain ⟨hlength, hnames⟩ := decimal_append_inj (by simpa using hc') (by simpa using hc) htail
    exact (List.append_inj hnames hlength).1.symm
  · intro heq
    rw [heq]
    exact List.prefix_append _ _

lemma abbreviatesLibrary_eq (p : Text) :
    abbreviatesLibrary p = .ok (charAt p = 'S' && standardLetters.contains (charAt p.tail)) := by
  cases p with
  | nil => rfl
  | cons c t =>
    by_cases hc : charAt (c :: t) = 'S'
    · rw [abbreviatesLibrary, if_pos hc, decide_eq_true hc]
      rfl
    · rw [abbreviatesLibrary, if_neg hc, decide_eq_false hc]
      rfl

/-- The tests at the first component read nothing behind the NUL. -/
lemma namesLibrary_eq (p : Text) :
    namesLibrary p = .ok ((charAt p = 'S' && standardLetters.contains (charAt p.tail)) ||
      gnuCxxPrefix.isPrefixOf p || cxxabiPrefix.isPrefixOf p || gnuDebugPrefix.isPrefixOf p) := by
  have hcxx := startsWith_eq p (w := gnuCxxPrefix) (by decide)
  have hcxxabi := startsWith_eq p (w := cxxabiPrefix) (by decide)
  have hdebug := startsWith_eq p (w := gnuDebugPrefix) (by decide)
  rw [namesLibrary, abbreviatesLibrary_eq, hcxx, hcxxabi, hdebug]
  generalize (charAt p = 'S' && standardLetters.contains (charAt p.tail)) = a
  generalize gnuCxxPrefix.isPrefixOf p = b
  generalize cxxabiPrefix.isPrefixOf p = c
  generalize gnuDebugPrefix.isPrefixOf p = d
  cases a <;> cases b <;> cases c <;> cases d <;> rfl

end Readers

/-! ### The first component -/

section Component

variable {m : MangledName}

lemma FirstComponent.text_ne_nil (k : FirstComponent) : k.text ≠ [] := by
  cases k with
  | std => exact List.cons_ne_nil _ _
  | substitution c h => exact List.cons_ne_nil _ _
  | source name => exact List.append_ne_nil_of_left_ne_nil Nat.toDigits_ne_nil _
  | other w h =>
    obtain ⟨c, t, rfl, -⟩ := h
    exact List.cons_ne_nil c t

/-- A source name starts with a digit. -/
lemma exists_isDigit_source (name : SourceName) :
    ∃ c t, (FirstComponent.source name).text = c :: t ∧ c.isDigit = true := by
  cases hdecimal : decimal name.text.length with
  | nil => exact absurd hdecimal Nat.toDigits_ne_nil
  | cons c t =>
    refine ⟨c, t ++ name.text, by rw [FirstComponent.text, hdecimal]; rfl, ?_⟩
    have hmem : c ∈ decimal name.text.length := hdecimal ▸ List.mem_cons_self
    exact isDigit_of_mem_decimal hmem

/-- The literals of the filter are source names. -/
def gnuCxx : SourceName := ⟨"__gnu_cxx".toList, '_', "_gnu_cxx".toList, rfl, rfl⟩

def cxxabiv1 : SourceName := ⟨"__cxxabiv1".toList, '_', "_cxxabiv1".toList, rfl, rfl⟩

def gnuDebug : SourceName := ⟨"__gnu_debug".toList, '_', "_gnu_debug".toList, rfl, rfl⟩

/-- Where no source name starts, only an abbreviation is found. -/
lemma namesLibrary_of_not_digit {c : Char} (hc : c.isDigit = false) (p : Text) :
    namesLibrary (c :: p) = .ok (c = 'S' && standardLetters.contains (charAt p)) := by
  have hprefix : ∀ (d : Char) (w : Text), d.isDigit = true → (d :: w).isPrefixOf (c :: p) = false := by
    intro d w hd
    refine isPrefixOf_of_head_ne ?_
    rintro rfl
    exact absurd (hd.symm.trans hc) (by decide)
  have hcxx : gnuCxxPrefix.isPrefixOf (c :: p) = false := hprefix '9' _ (by decide)
  have hcxxabi : cxxabiPrefix.isPrefixOf (c :: p) = false := hprefix '1' _ (by decide)
  have hdebug : gnuDebugPrefix.isPrefixOf (c :: p) = false := hprefix '1' _ (by decide)
  rw [namesLibrary_eq, hcxx, hcxxabi, hdebug, Bool.or_false, Bool.or_false, Bool.or_false]
  rfl

lemma namesLibrary_abbreviation {c : Char} (hc : c ∈ standardLetters) (p : Text) :
    namesLibrary ('S' :: c :: p) = .ok true := by
  have hletter : standardLetters.contains (charAt (c :: p)) = true := List.contains_iff_mem.mpr hc
  rw [namesLibrary_of_not_digit (by decide), hletter]
  rfl

/-- Each literal of the filter is found where its name stands, and nowhere else. -/
lemma namesLibrary_source (name : SourceName) (rest : Text) :
    ∃ found, namesLibrary ((FirstComponent.source name).text ++ rest) = .ok found ∧
      (found = true ↔ (FirstComponent.source name).IsLibrary) := by
  refine ⟨_, namesLibrary_eq _, ?_⟩
  obtain ⟨c, t, htext, hdigit⟩ := exists_isDigit_source name
  have hS : charAt ((FirstComponent.source name).text ++ rest) ≠ 'S' := by
    rw [htext]
    rintro rfl
    exact absurd hdigit (by decide)
  have hcxx : gnuCxxPrefix.isPrefixOf ((FirstComponent.source name).text ++ rest) = true ↔
      name.text = gnuCxx.text := sourceName_isPrefixOf_iff name gnuCxx rest
  have hcxxabi : cxxabiPrefix.isPrefixOf ((FirstComponent.source name).text ++ rest) = true ↔
      name.text = cxxabiv1.text := sourceName_isPrefixOf_iff name cxxabiv1 rest
  have hdebug : gnuDebugPrefix.isPrefixOf ((FirstComponent.source name).text ++ rest) = true ↔
      name.text = gnuDebug.text := sourceName_isPrefixOf_iff name gnuDebug rest
  rw [decide_eq_false hS, Bool.false_and, Bool.false_or, Bool.or_eq_true, Bool.or_eq_true, hcxx, hcxxabi, hdebug]
  simp only [FirstComponent.IsLibrary, FirstComponent.libraryNamespaces, List.mem_cons, List.not_mem_nil, or_false,
    or_assoc]
  rfl

lemma namesLibrary_other {w : Text} (h : OtherComponent w) (rest : Text) : namesLibrary (w ++ rest) = .ok false := by
  obtain ⟨c, t, rfl, hdigit, hsubstitution⟩ := h
  rw [List.cons_append, namesLibrary_of_not_digit hdigit]
  by_cases hc : c = 'S'
  · obtain ⟨d, t', rfl, hd⟩ := hsubstitution hc
    have hletter : standardLetters.contains (charAt (d :: t' ++ rest)) = false := by
      simpa [charAt] using hd
    rw [hletter, Bool.and_false]
  · rw [decide_eq_false hc, Bool.false_and]

/-- The tests decide whether the first component is a name of the library. -/
lemma namesLibrary_component (k : FirstComponent) (rest : Text) :
    ∃ found, namesLibrary (k.text ++ rest) = .ok found ∧ (found = true ↔ k.IsLibrary) := by
  cases k with
  | std => exact ⟨true, namesLibrary_abbreviation List.mem_cons_self rest, iff_of_true rfl trivial⟩
  | substitution c h =>
    have hc : c ∈ standardLetters := List.mem_of_mem_tail (l := standardLetters) h
    exact ⟨true, namesLibrary_abbreviation hc rest, iff_of_true rfl trivial⟩
  | source name => exact namesLibrary_source name rest
  | other w h => exact ⟨false, namesLibrary_other h rest, iff_of_false Bool.false_ne_true id⟩

/-- The tests find nothing at a marker that was not skipped. -/
lemma namesLibrary_marker (p : Text) : namesLibrary ('Z' :: p) = .ok false :=
  namesLibrary_of_not_digit (by decide) p

end Component

/-! ### The whole name -/

section Name

variable {p : Text}

lemma exists_next_of_charAt {c : Char} (h : charAt p = c) (hc : c ≠ '\x00') : ∃ t, p = c :: t ∧ next p = .ok t := by
  cases p with
  | nil => exact absurd h.symm hc
  | cons d t =>
    obtain rfl : d = c := h
    exact ⟨t, rfl, rfl⟩

lemma exists_skipLocalMarker (p : Text) : ∃ q, skipLocalMarker p = .ok q := by
  rw [skipLocalMarker]
  split_ifs with hZ
  · obtain ⟨t, -, ht⟩ := exists_next_of_charAt hZ (by decide)
    exact ⟨t, ht⟩
  · exact ⟨p, rfl⟩

lemma exists_skipNestedName (p : Text) : ∃ q, skipNestedName p = .ok q := by
  rw [skipNestedName]
  split_ifs with hN
  · obtain ⟨t, -, ht⟩ := exists_next_of_charAt hN (by decide)
    rw [ht]
    show ∃ q, (if charAt (skipCvQualifiers t) = 'R' ∨ charAt (skipCvQualifiers t) = 'O' then
      next (skipCvQualifiers t) else .ok (skipCvQualifiers t)) = .ok q
    split_ifs with href
    · rcases href with hR | hO
      · obtain ⟨u, -, hu⟩ := exists_next_of_charAt hR (by decide)
        exact ⟨u, hu⟩
      · obtain ⟨u, -, hu⟩ := exists_next_of_charAt hO (by decide)
        exact ⟨u, hu⟩
    · exact ⟨_, rfl⟩
  · exact ⟨p, rfl⟩

/-- Behind `_Z` the rest is read. -/
lemma isStdLibrarySymbol_mangled (p : Text) :
    isStdLibrarySymbol ('_' :: 'Z' :: p) = (do
      let p ← skipLocalMarker p
      let p ← skipNestedName p
      namesLibrary p) := by
  have hcxa : startsWith ('_' :: 'Z' :: p) cxaPrefix = .ok false := by
    rw [startsWith_eq _ (by decide)]
    rfl
  rw [isStdLibrarySymbol, hcxa]
  rfl

/-- Any other name is in the library when it is one of the ABI runtime. -/
lemma isStdLibrarySymbol_plain (h : "_Z".toList.isPrefixOf p = false) :
    isStdLibrarySymbol p = .ok (cxaPrefix.isPrefixOf p) := by
  rw [isStdLibrarySymbol, startsWith_eq _ (by decide)]
  cases hcxa : cxaPrefix.isPrefixOf p with
  | true => rfl
  | false =>
    cases p with
    | nil => rfl
    | cons c p =>
      by_cases hc : c = '_'
      · subst hc
        cases p with
        | nil => rfl
        | cons d p =>
          by_cases hd : d = 'Z'
          · subst hd
            exact absurd h (by simp)
          · have hread : charAt (d :: p) ≠ 'Z' := hd
            show (if charAt (d :: p) ≠ 'Z' then pure false else _) = _
            rw [if_pos hread]
            rfl
      · have hread : charAt (c :: p) ≠ '_' := hc
        show (if charAt (c :: p) ≠ '_' then pure false else _) = _
        rw [if_pos hread]
        rfl

/-- No name makes the filter read behind its NUL. -/
lemma exists_isStdLibrarySymbol (p : Text) : ∃ found, isStdLibrarySymbol p = .ok found := by
  cases hZ : "_Z".toList.isPrefixOf p with
  | false => exact ⟨_, isStdLibrarySymbol_plain hZ⟩
  | true =>
    obtain ⟨t, rfl⟩ := List.isPrefixOf_iff_prefix.mp hZ
    obtain ⟨q, hq⟩ := exists_skipLocalMarker t
    obtain ⟨r, hr⟩ := exists_skipNestedName q
    obtain ⟨found, hfound⟩ : ∃ found, namesLibrary r = .ok found := ⟨_, namesLibrary_eq r⟩
    refine ⟨found, (isStdLibrarySymbol_mangled t).trans ?_⟩
    rw [hq]
    show (skipNestedName q >>= namesLibrary) = .ok found
    rw [hr]
    exact hfound

lemma skipLocalMarker_of_ne (h : charAt p ≠ 'Z') : skipLocalMarker p = .ok p := if_neg h

lemma skipNestedName_of_ne (h : charAt p ≠ 'N') : skipNestedName p = .ok p := if_neg h

/-- The start of a nested name is passed over, up to a component that cannot be taken for a part of it. -/
lemma skipNestedName_nesting (n : Nesting) (h : StartsBehind (some n) (charAt p)) :
    skipNestedName (n.text ++ p) = .ok p := by
  obtain ⟨cv, ref⟩ := n
  have hnext : skipNestedName (Nesting.text ⟨cv, ref⟩ ++ p) =
      (let q := skipCvQualifiers (cv.map CvQualifier.char ++ (ref.toList.map RefQualifier.char ++ p))
        if charAt q = 'R' ∨ charAt q = 'O' then next q else .ok q) := by
    rw [Nesting.text, List.cons_append, List.cons_append, List.append_assoc]
    rfl
  rw [hnext]
  cases ref with
  | none =>
    obtain ⟨hK, hV, hr, hR, hO⟩ := h rfl
    rw [Option.toList_none, List.map_nil, List.nil_append, skipCvQualifiers_cv cv ⟨hK, hV, hr⟩]
    exact if_neg (not_or.mpr ⟨hR, hO⟩)
  | some ref =>
    have hread : ref.char ≠ 'K' ∧ ref.char ≠ 'V' ∧ ref.char ≠ 'r' := by
      cases ref
      · exact ⟨by decide, by decide, by decide⟩
      · exact ⟨by decide, by decide, by decide⟩
    have href : ref.char = 'R' ∨ ref.char = 'O' := by
      cases ref
      · exact .inl rfl
      · exact .inr rfl
    rw [Option.toList_some, List.map_singleton, List.singleton_append,
      skipCvQualifiers_cv (p := ref.char :: p) cv hread]
    exact if_pos href

end Name

/-! ### The outermost name decides -/

namespace MangledName

variable (m : MangledName)

/-- What stands behind the markers. -/
def body : Text := (m.nesting.map Nesting.text).getD [] ++ (m.component.text ++ m.rest)

lemma text_eq : m.text = '_' :: 'Z' :: (List.replicate m.markers 'Z' ++ m.body) := by
  rw [text, body, List.append_assoc, List.append_assoc, List.append_assoc]
  rfl

lemma startsBehind_charAt : StartsBehind m.nesting (charAt (m.component.text ++ m.rest)) := by
  rw [charAt_append_of_ne_nil m.component.text_ne_nil]
  obtain ⟨c, t, htext⟩ := List.exists_cons_of_ne_nil m.component.text_ne_nil
  rw [htext]
  exact m.startsBehind c (by rw [htext]; exact rfl)

/-- Neither a nested name nor the component of a plain one starts like a marker. -/
lemma charAt_body_ne : charAt m.body ≠ 'Z' := by
  have hbehind := m.startsBehind_charAt
  rw [body]
  cases hnesting : m.nesting with
  | none =>
    rw [hnesting] at hbehind
    exact hbehind.1
  | some n =>
    show 'N' ≠ 'Z'
    decide

lemma skipNestedName_body : skipNestedName m.body = .ok (m.component.text ++ m.rest) := by
  have hbehind := m.startsBehind_charAt
  rw [body]
  cases hnesting : m.nesting with
  | none =>
    rw [hnesting] at hbehind
    exact skipNestedName_of_ne hbehind.2
  | some n =>
    rw [hnesting] at hbehind
    exact skipNestedName_nesting n hbehind

/-- With at most one marker the tests are made at the first component. -/
lemma isStdLibrarySymbol_of_le (h : m.markers ≤ 1) :
    isStdLibrarySymbol m.text = namesLibrary (m.component.text ++ m.rest) := by
  rw [text_eq, isStdLibrarySymbol_mangled]
  have hmarker : skipLocalMarker (List.replicate m.markers 'Z' ++ m.body) = .ok m.body := by
    obtain hnone | hone : m.markers = 0 ∨ m.markers = 1 := by omega
    · rw [hnone]
      exact skipLocalMarker_of_ne m.charAt_body_ne
    · rw [hone]
      rfl
  rw [hmarker]
  show (skipNestedName m.body >>= namesLibrary) = _
  rw [m.skipNestedName_body]
  rfl

/-- The second marker stops the search. -/
lemma isStdLibrarySymbol_of_lt (h : 1 < m.markers) : isStdLibrarySymbol m.text = .ok false := by
  obtain ⟨k, hk⟩ : ∃ k, m.markers = k + 1 + 1 := ⟨m.markers - 2, by omega⟩
  rw [text_eq, isStdLibrarySymbol_mangled, hk, List.replicate_succ, List.replicate_succ]
  exact namesLibrary_marker (List.replicate k 'Z' ++ m.body)

/-- The outermost name decides whether a symbol is the library's, except inside the second local name: only the
first marker is passed over. A name that is not mangled is the library's when it is one of the ABI runtime, and no
name is read behind its end. -/
theorem outermost_name_decides_iff (name : Text) :
    ((isStdLibrarySymbol m.text = .ok true ↔ m.component.IsLibrary) ↔ (m.markers ≤ 1 ∨ ¬ m.component.IsLibrary)) ∧
    ("_Z".toList.isPrefixOf name = false → isStdLibrarySymbol name = .ok (cxaPrefix.isPrefixOf name)) ∧
    ∃ found, isStdLibrarySymbol name = .ok found := by
  refine ⟨?_, isStdLibrarySymbol_plain, exists_isStdLibrarySymbol name⟩
  by_cases hmarkers : m.markers ≤ 1
  · obtain ⟨found, hfound, hlibrary⟩ := namesLibrary_component m.component m.rest
    rw [m.isStdLibrarySymbol_of_le hmarkers, hfound, Except.ok.injEq, hlibrary]
    exact iff_of_true Iff.rfl (.inl hmarkers)
  · rw [m.isStdLibrarySymbol_of_lt (by omega), Except.ok.injEq]
    simp [hmarkers]

end MangledName

/-- `_ZZZNSt3foo3barEvENKUlvE_clEvENKUlvE_clEv`: a lambda inside a lambda of `std::foo::bar()`. -/
def nestedLambda : MangledName where
  markers := 2
  nesting := some ⟨[], none⟩
  component := .std
  rest := "3foo3barEvENKUlvE_clEvENKUlvE_clEv".toList
  startsBehind := by simp [FirstComponent.text, StartsBehind]

theorem nested_lambda_missed : nestedLambda.text = "_ZZZNSt3foo3barEvENKUlvE_clEvENKUlvE_clEv".toList ∧
    nestedLambda.component.IsLibrary ∧ isStdLibrarySymbol nestedLambda.text = .ok false :=
  ⟨by decide, trivial, nestedLambda.isStdLibrarySymbol_of_lt (by decide)⟩

end CallStackLogger
