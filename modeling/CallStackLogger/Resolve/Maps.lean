import CallStackLogger.Core.CText
import CallStackLogger.Format.Buffer

/-!
# The file an object is read from

`mapped_object_path` and `object_file_path` of `src/callStack.cpp`: the path the kernel reports, in `/proc/self/maps`,
for the mapping that contains an object's base.
-/

namespace CallStackLogger

open CText

/-! ### The lookup -/

/-- What the kernel appends to the path of a mapping whose file has been unlinked. -/
def deletedMappingSuffix : Text := " (deleted)".toList

def executableFile : Text := "/proc/self/exe".toList

/-- Permissions, offset, device and inode. -/
def mapsColumnsBeforePath : Nat := 4

/-- A position that was searched for; at the end of the line it is `npos`. -/
def found (p : Text) : Option Text := if p = [] then none else some p

/-- Behind the given number of columns. -/
def skipColumns : Nat → Text → Option Text
  | 0, p     => some p
  | n + 1, p => do
    let p ← found (p.dropWhile (· = ' '))
    let p ← found (p.dropWhile (· ≠ ' '))
    skipColumns n p

/-- The absolute path behind the blanks. -/
def pathBehindBlanks (p : Text) : Option Text := do
  let p ← found (p.dropWhile (· = ' '))
  if p.head? = some '/' then some p else none

/-- The path behind the range of a line. -/
def pathColumn (p : Text) : Option Text := do
  let p ← skipColumns mapsColumnsBeforePath p
  pathBehindBlanks p

/-- What a line makes the lookup return, if it does not go on. -/
def returnedAt (line : Text) (target : Addr) : Option (Option Text) :=
  let (start, cursor) := strtoull line
  if cursor = line ∨ cursor.head? ≠ some '-' then none else
  let rangeEnd := cursor.tail
  let (stop, cursor) := strtoull rangeEnd
  if cursor = rangeEnd ∨ target < start ∨ stop ≤ target then none else
  some (pathColumn cursor)

def mappedObjectPathIn (target : Addr) : List Text → Option Text
  | []            => none
  | line :: lines =>
    match returnedAt line target with
    | some path => path
    | none      => mappedObjectPathIn target lines

/-- `mapped_object_path`, of the content of `/proc/self/maps`. -/
def mappedObjectPath (maps : Text) (base : Addr) : Option Text := mappedObjectPathIn base (readLines maps)

/-- `object_file_path`: `dliFname` and `dliFbase` are the answer of `dladdr`. -/
def objectFilePath (maps argv0 : Text) (dliFname : Option Text) (dliFbase : Addr) : Text :=
  if dliFname = some argv0 then executableFile else
  match mappedObjectPath maps dliFbase with
  | some mapped => if deletedMappingSuffix.isSuffixOf mapped then [] else mapped
  | none        =>
    match dliFname with
    | some name => if name.head? = some '/' then name else []
    | none      => []

/-! ### The kernel's lines -/

/-- An end of a range. -/
structure HexNumber where
  text : Text
  text_ne_nil : text ≠ []
  digits : text.all isHexDigit = true
  value_lt : hexValue text < 2 ^ 64

def HexNumber.value (n : HexNumber) : Addr := hexValue n.text

/-- A column, behind one blank and more. -/
structure MapsColumn where
  blanks : Nat
  word : Text
  word_ne_nil : word ≠ []
  blank_notMem : ' ' ∉ word
  newline_notMem : '\n' ∉ word

def MapsColumn.text (k : MapsColumn) : Text := List.replicate (k.blanks + 1) ' ' ++ k.word

/-- What a line ends with. -/
inductive MapsName where
  | anonymous (blanks : Nat)
  | pseudo (blanks : Nat) (name : Text) (h : '\n' ∉ name)
  | file (blanks : Nat) (path : Text) (h : '\n' ∉ path)

namespace MapsName

def text : MapsName → Text
  | .anonymous n     => List.replicate n ' '
  | .pseudo n name _ => List.replicate (n + 1) ' ' ++ '[' :: name ++ [']']
  | .file n path _   => List.replicate (n + 1) ' ' ++ '/' :: path

/-- The absolute path. -/
def path? : MapsName → Option Text
  | .anonymous _   => none
  | .pseudo _ _ _  => none
  | .file _ path _ => some ('/' :: path)

end MapsName

/-- A line of the kernel. -/
structure MapsLine where
  start : HexNumber
  stop : HexNumber
  columns : List MapsColumn
  length_columns : columns.length = mapsColumnsBeforePath
  name : MapsName

namespace MapsLine

variable (l : MapsLine)

def text : Text := l.start.text ++ '-' :: l.stop.text ++ l.columns.flatMap MapsColumn.text ++ l.name.text

def Contains (a : Addr) : Prop := l.start.value ≤ a ∧ a < l.stop.value

instance (a : Addr) : Decidable (l.Contains a) := inferInstanceAs (Decidable (_ ∧ _))

def path? : Option Text := l.name.path?

/-- The kernel reports the file as unlinked. -/
def Deleted : Prop := ∃ path, l.path? = some (path ++ deletedMappingSuffix)

/-- No address is in both ranges. -/
def Apart (l l' : MapsLine) : Prop := ∀ a, ¬ (l.Contains a ∧ l'.Contains a)

end MapsLine

/-- The content of `/proc/self/maps`. -/
def mapsText (ls : List MapsLine) : Text := (ls.map MapsLine.text).flatMap (· ++ ['\n'])

/-! ### A line is read back -/

section Columns

variable {p : Text}

lemma found_of_ne_nil (h : p ≠ []) : found p = some p := if_neg h

lemma blanks_append_ne_nil (n : Nat) (p : Text) : List.replicate (n + 1) ' ' ++ p ≠ [] := List.cons_ne_nil _ _

lemma dropWhile_blanks (n : Nat) (h : ∀ c ∈ p.head?, c ≠ ' ') :
    (List.replicate n ' ' ++ p).dropWhile (· = ' ') = p := by
  rw [List.dropWhile_append_of_pos fun c hc => decide_eq_true (List.eq_of_mem_replicate hc)]
  cases p with
  | nil => rfl
  | cons c p => exact List.dropWhile_cons_of_neg (by simpa using h c rfl)

/-- A column is passed over up to the blank that follows it. -/
lemma skipColumns_succ (k : MapsColumn) (n : Nat) (hp : ∀ c ∈ p.head?, c = ' ') :
    skipColumns (n + 1) (k.text ++ p) = (found p).bind (skipColumns n) := by
  obtain ⟨blanks, word, hne, hblank, -⟩ := k
  have hhead : ∀ c ∈ (word ++ p).head?, c ≠ ' ' := by
    obtain ⟨c, t, rfl⟩ := List.exists_cons_of_ne_nil hne
    rintro d hd rfl
    obtain rfl : c = ' ' := Option.some.inj hd
    exact hblank List.mem_cons_self
  have hword : (word ++ p).dropWhile (· ≠ ' ') = p := by
    have hkept : ∀ c ∈ word, decide (c ≠ ' ') = true := by
      intro c hc
      exact decide_eq_true fun heq => hblank (heq ▸ hc)
    rw [List.dropWhile_append_of_pos hkept]
    cases p with
    | nil => rfl
    | cons c p => exact List.dropWhile_cons_of_neg (by simpa using hp c rfl)
  have hfirst : found ((MapsColumn.text ⟨blanks, word, hne, hblank, ‹_›⟩ ++ p).dropWhile (· = ' ')) =
      some (word ++ p) := by
    rw [MapsColumn.text, List.append_assoc, dropWhile_blanks _ hhead]
    exact found_of_ne_nil (List.append_ne_nil_of_left_ne_nil hne p)
  rw [skipColumns, hfirst]
  show (found ((word ++ p).dropWhile (· ≠ ' ')) >>= skipColumns n) = _
  rw [hword]
  rfl

/-- The search ends behind the columns, or at the end of a line that ends there. -/
lemma skipColumns_columns {columns : List MapsColumn} (hne : columns ≠ []) (hp : ∀ c ∈ p.head?, c = ' ') :
    skipColumns columns.length (columns.flatMap MapsColumn.text ++ p) = found p := by
  induction columns with
  | nil => exact absurd rfl hne
  | cons k columns ih =>
    have hhead : ∀ c ∈ (columns.flatMap MapsColumn.text ++ p).head?, c = ' ' := by
      cases columns with
      | nil => exact hp
      | cons k' columns =>
        intro c hc
        exact (Option.some.inj hc).symm
    rw [List.flatMap_cons, List.append_assoc, List.length_cons, skipColumns_succ k _ hhead]
    cases columns with
    | nil =>
      exact Option.bind_fun_some (found p)
    | cons k' columns =>
      have hne' : (k' :: columns).flatMap MapsColumn.text ++ p ≠ [] := by
        rw [List.flatMap_cons, MapsColumn.text]
        exact List.cons_ne_nil _ _
      rw [found_of_ne_nil hne']
      exact ih (List.cons_ne_nil _ _)

lemma pathBehindBlanks_blanks (n : Nat) (hne : p ≠ []) (hblank : ∀ c ∈ p.head?, c ≠ ' ') :
    pathBehindBlanks (List.replicate n ' ' ++ p) = if p.head? = some '/' then some p else none := by
  rw [pathBehindBlanks, dropWhile_blanks n hblank, found_of_ne_nil hne]
  rfl

/-- Behind the range of a line there is its path, if it has one. -/
lemma pathColumn_line (l : MapsLine) :
    pathColumn (l.columns.flatMap MapsColumn.text ++ l.name.text) = l.path? := by
  have hne : l.columns ≠ [] := by
    intro hnil
    have hlength := l.length_columns
    rw [hnil] at hlength
    contradiction
  have hblank : ∀ c ∈ l.name.text.head?, c = ' ' := by
    intro c hc
    cases hname : l.name with
    | anonymous n =>
      rw [hname] at hc
      exact List.eq_of_mem_replicate (List.mem_of_mem_head? hc)
    | pseudo n name h =>
      rw [hname] at hc
      exact (Option.some.inj hc).symm
    | file n path h =>
      rw [hname] at hc
      exact (Option.some.inj hc).symm
  rw [pathColumn, ← l.length_columns, skipColumns_columns hne hblank, MapsLine.path?]
  show (found l.name.text).bind pathBehindBlanks = l.name.path?
  cases l.name with
  | anonymous n =>
    have hend : (List.replicate n ' ').dropWhile (· = ' ') = [] := by simp
    cases n with
    | zero => rfl
    | succ n =>
      have hne : List.replicate (n + 1) ' ' ≠ [] := List.cons_ne_nil _ _
      rw [MapsName.text, found_of_ne_nil hne, Option.bind_some, pathBehindBlanks, hend]
      rfl
  | pseudo n name h =>
    rw [MapsName.text, List.append_assoc, found_of_ne_nil (blanks_append_ne_nil n _), Option.bind_some,
      pathBehindBlanks_blanks (n + 1) (by simp) (by simp)]
    exact if_neg (by simp)
  | file n path h =>
    rw [MapsName.text, found_of_ne_nil (blanks_append_ne_nil n _), Option.bind_some,
      pathBehindBlanks_blanks (n + 1) (List.cons_ne_nil _ _) (by simp)]
    exact if_pos rfl

end Columns

/-! ### The whole content -/

section Content

variable {l : MapsLine} {ls : List MapsLine} {base : Addr}

/-- What stands behind the range. -/
def MapsLine.behindRange (l : MapsLine) : Text := l.columns.flatMap MapsColumn.text ++ l.name.text

lemma MapsLine.text_eq (l : MapsLine) : l.text = l.start.text ++ '-' :: (l.stop.text ++ l.behindRange) := by
  simp [MapsLine.text, behindRange]

lemma MapsLine.head?_behindRange (l : MapsLine) : l.behindRange.head? = some ' ' := by
  have hlength := l.length_columns
  rw [behindRange]
  cases hcolumns : l.columns with
  | nil =>
    rw [hcolumns] at hlength
    contradiction
  | cons k columns => rfl

lemma strtoull_number (n : HexNumber) {rest : Text} (hrest : ∀ c ∈ rest.head?, c = '-' ∨ c = ' ') :
    strtoull (n.text ++ rest) = (n.value, rest) := by
  refine strtoull_digits n.text_ne_nil (List.all_eq_true.mp n.digits) n.value_lt fun c hc => ?_
  rcases hrest c hc with rfl | rfl
  · decide
  · decide

/-- The numbers on both sides of the dash are the range. -/
lemma returnedAt_text (l : MapsLine) (base : Addr) :
    returnedAt l.text base = if l.Contains base then some l.path? else none := by
  have hstart : strtoull l.text = (l.start.value, '-' :: (l.stop.text ++ l.behindRange)) := by
    rw [l.text_eq]
    exact strtoull_number l.start fun c hc => .inl (Option.some.inj hc).symm
  have hstop : strtoull (l.stop.text ++ l.behindRange) = (l.stop.value, l.behindRange) :=
    strtoull_number l.stop fun c hc => .inr (Option.some.inj (l.head?_behindRange.symm.trans hc)).symm
  have hdigits : '-' :: (l.stop.text ++ l.behindRange) ≠ l.text := by
    intro heq
    have hlength := congrArg List.length (heq.trans l.text_eq)
    rw [List.length_append] at hlength
    exact l.start.text_ne_nil (List.length_eq_zero_iff.mp (by omega))
  have hdigits' : l.behindRange ≠ l.stop.text ++ l.behindRange := by
    intro heq
    exact l.stop.text_ne_nil (List.self_eq_append_left.mp heq)
  simp only [returnedAt, hstart, hstop, hdigits, hdigits', List.head?_cons, List.tail_cons, ne_eq, not_true_eq_false,
    or_self, false_or, if_false]
  rw [show pathColumn l.behindRange = l.path? from pathColumn_line l]
  by_cases hcontains : l.Contains base
  · rw [if_pos hcontains, if_neg]
    exact not_or.mpr ⟨Nat.not_lt.mpr hcontains.1, Nat.not_le.mpr hcontains.2⟩
  · rw [if_neg hcontains, if_pos]
    rcases not_and_or.mp hcontains with hbelow | habove
    · exact .inl (Nat.lt_of_not_le hbelow)
    · exact .inr (Nat.le_of_not_lt habove)

lemma mappedObjectPathIn_text (ls : List MapsLine) (base : Addr) :
    mappedObjectPathIn base (ls.map MapsLine.text) =
      (ls.find? fun l => l.Contains base).bind MapsLine.path? := by
  induction ls with
  | nil => rfl
  | cons l ls ih =>
    rw [List.map_cons, mappedObjectPathIn, returnedAt_text, List.find?_cons]
    by_cases hcontains : l.Contains base
    · simp [hcontains]
    · simp [hcontains, ih]

lemma newline_notMem_flatMap_columns {columns : List MapsColumn} : '\n' ∉ columns.flatMap MapsColumn.text := by
  intro hmem
  obtain ⟨k, -, hk⟩ := List.mem_flatMap.mp hmem
  rcases List.mem_append.mp hk with hblank | hword
  · exact absurd (List.eq_of_mem_replicate hblank) (by decide)
  · exact k.newline_notMem hword

lemma MapsName.newline_notMem_text (name : MapsName) : '\n' ∉ name.text := by
  cases name with
  | anonymous n => simp [text]
  | pseudo n name h => simp [text, h]
  | file n path h => simp [text, h]

lemma HexNumber.newline_notMem_text (n : HexNumber) : '\n' ∉ n.text := fun hmem =>
  absurd (List.all_eq_true.mp n.digits '\n' hmem) (by decide)

lemma MapsLine.newline_notMem_text (l : MapsLine) : '\n' ∉ l.text := by
  rw [l.text_eq, behindRange]
  have hcolumns : '\n' ∉ l.columns.flatMap MapsColumn.text := newline_notMem_flatMap_columns
  simp only [List.mem_append, List.mem_cons, l.start.newline_notMem_text, l.stop.newline_notMem_text, hcolumns,
    l.name.newline_notMem_text, or_self, or_false, false_or]
  decide

/-- The first mapping that contains the base is the one whose path is returned. -/
lemma mappedObjectPath_mapsText (ls : List MapsLine) (base : Addr) :
    mappedObjectPath (mapsText ls) base = (ls.find? fun l => l.Contains base).bind MapsLine.path? := by
  have hlines : ∀ line ∈ ls.map MapsLine.text, '\n' ∉ line := by
    intro line hline
    obtain ⟨l, -, rfl⟩ := List.mem_map.mp hline
    exact l.newline_notMem_text
  rw [mappedObjectPath, mapsText, readLines_flatMap hlines, mappedObjectPathIn_text]

/-- Where no two ranges meet, it is the only one. -/
lemma find?_contains_iff (h : ls.Pairwise MapsLine.Apart) :
    (ls.find? fun l => l.Contains base) = some l ↔ l ∈ ls ∧ l.Contains base := by
  constructor
  · intro hfind
    have hcontains := List.find?_some (p := fun l => decide (MapsLine.Contains l base)) hfind
    exact ⟨List.mem_of_find?_eq_some hfind, of_decide_eq_true hcontains⟩
  · rintro ⟨hmem, hcontains⟩
    induction ls with
    | nil => contradiction
    | cons l' ls ih =>
      obtain ⟨hapart, hls⟩ := List.pairwise_cons.mp h
      rcases List.mem_cons.mp hmem with rfl | hmem
      · exact List.find?_cons_of_pos (decide_eq_true hcontains)
      · have hother : ¬ l'.Contains base := fun hcontains' => hapart l hmem base ⟨hcontains', hcontains⟩
        rw [List.find?_cons_of_neg (by simpa using hother)]
        exact ih hls hmem

/-- The lookup finds the path of the mapping that contains the base. -/
lemma mappedObjectPath_eq_some_iff (h : ls.Pairwise MapsLine.Apart) (path : Text) :
    mappedObjectPath (mapsText ls) base = some path ↔ ∃ l ∈ ls, l.Contains base ∧ l.path? = some path := by
  rw [mappedObjectPath_mapsText, Option.bind_eq_some_iff]
  constructor
  · rintro ⟨l, hfind, hpath⟩
    obtain ⟨hmem, hcontains⟩ := (find?_contains_iff h).mp hfind
    exact ⟨l, hmem, hcontains, hpath⟩
  · rintro ⟨l, hmem, hcontains, hpath⟩
    exact ⟨l, (find?_contains_iff h).mpr ⟨hmem, hcontains⟩, hpath⟩

end Content

/-! ### The file -/

section File

variable {ls : List MapsLine}

lemma MapsLine.head?_path {l : MapsLine} {path : Text} (h : l.path? = some path) : path.head? = some '/' := by
  rw [path?] at h
  cases hname : l.name with
  | anonymous n =>
    rw [hname] at h
    contradiction
  | pseudo n name hn =>
    rw [hname] at h
    contradiction
  | file n p hn =>
    rw [hname] at h
    exact congrArg List.head? (Option.some.inj h).symm

lemma MapsLine.deleted_iff {l : MapsLine} {path : Text} (h : l.path? = some path) :
    l.Deleted ↔ deletedMappingSuffix.isSuffixOf path = true := by
  rw [List.isSuffixOf_iff_suffix]
  constructor
  · rintro ⟨p, hp⟩
    exact ⟨p, Option.some.inj (hp.symm.trans h)⟩
  · rintro ⟨p, rfl⟩
    exact ⟨p, h⟩

/-- Where the file comes from: it is the executable, the file of a mapping that is not reported as unlinked, or what
the dynamic linker loaded by an absolute name and no mapping has a file for; otherwise there is none. -/
lemma objectFilePath_cases (h : ls.Pairwise MapsLine.Apart) (argv0 : Text) (dliFname : Option Text) (base : Addr) :
    (dliFname = some argv0 ∧ objectFilePath (mapsText ls) argv0 dliFname base = executableFile) ∨
    (∃ l ∈ ls, l.Contains base ∧ l.Deleted ∧ objectFilePath (mapsText ls) argv0 dliFname base = []) ∨
    (∃ l ∈ ls, l.Contains base ∧ ¬ l.Deleted ∧
      l.path? = some (objectFilePath (mapsText ls) argv0 dliFname base)) ∨
    ((∀ l ∈ ls, l.Contains base → l.path? = none) ∧
      (objectFilePath (mapsText ls) argv0 dliFname base = [] ∨
        (objectFilePath (mapsText ls) argv0 dliFname base).head? = some '/' ∧
          dliFname = some (objectFilePath (mapsText ls) argv0 dliFname base))) := by
  by_cases hexecutable : dliFname = some argv0
  · exact .inl ⟨hexecutable, if_pos hexecutable⟩
  · simp only [objectFilePath, hexecutable, if_false]
    cases hmapped : mappedObjectPath (mapsText ls) base with
    | some mapped =>
      obtain ⟨l, hmem, hcontains, hpath⟩ := (mappedObjectPath_eq_some_iff h mapped).mp hmapped
      by_cases hdeleted : deletedMappingSuffix.isSuffixOf mapped = true
      · exact .inr (.inl ⟨l, hmem, hcontains, (l.deleted_iff hpath).mpr hdeleted, if_pos hdeleted⟩)
      · refine .inr (.inr (.inl ⟨l, hmem, hcontains, mt (l.deleted_iff hpath).mp hdeleted, ?_⟩))
        rw [hpath]
        exact congrArg some (if_neg hdeleted).symm
    | none =>
      refine .inr (.inr (.inr ⟨?_, ?_⟩))
      · intro l hmem hcontains
        refine Option.eq_none_iff_forall_ne_some.mpr fun path hpath => ?_
        have hfound := (mappedObjectPath_eq_some_iff h path).mpr ⟨l, hmem, hcontains, hpath⟩
        exact absurd (hmapped.symm.trans hfound) (Option.some_ne_none path).symm
      · cases dliFname with
        | none => exact .inl rfl
        | some name =>
          by_cases habsolute : name.head? = some '/'
          · have hname : (if name.head? = some '/' then name else []) = name := if_pos habsolute
            exact .inr ⟨(congrArg List.head? hname).trans habsolute, congrArg some hname.symm⟩
          · exact .inl (if_neg habsolute)

/-- The executable's own link is no path of an unlinked file. -/
lemma MapsLine.path?_ne_executableFile {l : MapsLine} (h : l.Deleted) : l.path? ≠ some executableFile := by
  intro hpath
  have hsuffix := (l.deleted_iff hpath).mp h
  exact absurd hsuffix (by decide)

/-- The lookup finds the file of the mapping that contains the base. The executable is read from its own link, and any
other object from an absolute path or not at all: not at all when the mapping that contains its base is reported as
unlinked. A path reported so is returned only when it is the name the object was loaded by and the base is in no
file's mapping. -/
theorem maps_lookup_exact (ls : List MapsLine) (h : ls.Pairwise MapsLine.Apart) (base : Addr) (argv0 : Text)
    (dliFname : Option Text) :
    (∀ path, mappedObjectPath (mapsText ls) base = some path ↔ ∃ l ∈ ls, l.Contains base ∧ l.path? = some path) ∧
    (dliFname = some argv0 → objectFilePath (mapsText ls) argv0 dliFname base = executableFile) ∧
    ((dliFname = some argv0 ∧ objectFilePath (mapsText ls) argv0 dliFname base = executableFile) ∨
      objectFilePath (mapsText ls) argv0 dliFname base = [] ∨
      (objectFilePath (mapsText ls) argv0 dliFname base).head? = some '/') ∧
    (∀ l ∈ ls, l.Contains base → l.Deleted → dliFname ≠ some argv0 →
      objectFilePath (mapsText ls) argv0 dliFname base = []) ∧
    ∀ l ∈ ls, l.Deleted → l.path? = some (objectFilePath (mapsText ls) argv0 dliFname base) →
      dliFname = some (objectFilePath (mapsText ls) argv0 dliFname base) ∧
        ∀ l' ∈ ls, l'.Contains base → l'.path? = none := by
  have hcases := objectFilePath_cases h argv0 dliFname base
  have hexecutable : dliFname = some argv0 → objectFilePath (mapsText ls) argv0 dliFname base = executableFile :=
    fun hname => if_pos hname
  generalize objectFilePath (mapsText ls) argv0 dliFname base = file at hcases hexecutable ⊢
  refine ⟨mappedObjectPath_eq_some_iff h, hexecutable, ?_, ?_, ?_⟩
  · rcases hcases with hexecutable | ⟨_, _, _, _, hempty⟩ | ⟨l, _, _, _, hpath⟩ | ⟨_, hempty | ⟨habsolute, _⟩⟩
    · exact .inl hexecutable
    · exact .inr (.inl hempty)
    · exact .inr (.inr (MapsLine.head?_path hpath))
    · exact .inr (.inl hempty)
    · exact .inr (.inr habsolute)
  · intro l hmem hcontains hdeleted hother
    have hfind := (find?_contains_iff h).mpr ⟨hmem, hcontains⟩
    rcases hcases with hexecutable | ⟨_, _, _, _, hempty⟩ | ⟨l', hmem', hcontains', hkept, _⟩ | ⟨hnone, _⟩
    · exact absurd hexecutable.1 hother
    · exact hempty
    · have hfind' := (find?_contains_iff h).mpr ⟨hmem', hcontains'⟩
      obtain rfl : l = l' := Option.some.inj (hfind.symm.trans hfind')
      exact absurd hdeleted hkept
    · obtain ⟨path, hpath⟩ := hdeleted
      exact absurd ((hnone l hmem hcontains).symm.trans hpath) (Option.some_ne_none _).symm
  · intro l hmem hdeleted hpath
    rcases hcases with ⟨_, rfl⟩ | ⟨_, _, _, _, rfl⟩ | ⟨l', _, _, hkept, hpath'⟩ | ⟨hnone, rfl | ⟨_, hname⟩⟩
    · exact absurd hpath (MapsLine.path?_ne_executableFile hdeleted)
    · exact absurd (MapsLine.head?_path hpath) (by simp)
    · exact absurd ((l'.deleted_iff hpath').mpr ((l.deleted_iff hpath).mp hdeleted)) hkept
    · exact absurd (MapsLine.head?_path hpath) (by simp)
    · exact ⟨hname, hnone⟩

end File

/-! ### A mapping without a file -/

def mapsColumns : List MapsColumn :=
  [⟨0, "r-xp".toList, by decide, by decide, by decide⟩, ⟨0, "00000000".toList, by decide, by decide, by decide⟩,
    ⟨0, "08:01".toList, by decide, by decide, by decide⟩, ⟨0, "42".toList, by decide, by decide, by decide⟩]

def anonymousMapping : MapsLine where
  start := ⟨"00001000".toList, by decide, by decide, by decide⟩
  stop := ⟨"00002000".toList, by decide, by decide, by decide⟩
  columns := mapsColumns
  length_columns := rfl
  name := .anonymous 1

def unlinkedMapping : MapsLine where
  start := ⟨"00002000".toList, by decide, by decide, by decide⟩
  stop := ⟨"00003000".toList, by decide, by decide, by decide⟩
  columns := mapsColumns
  length_columns := rfl
  name := .file 4 "tmp/p.so (deleted)".toList (by decide)

lemma apart_mappings : [anonymousMapping, unlinkedMapping].Pairwise MapsLine.Apart := by
  have hstop : anonymousMapping.stop.value = unlinkedMapping.start.value := by decide
  refine List.pairwise_cons.mpr ⟨fun l hl => ?_, List.pairwise_singleton _ _⟩
  obtain rfl := List.mem_singleton.mp hl
  rintro a ⟨hfirst, hsecond⟩
  exact absurd (Nat.lt_of_lt_of_le hfirst.2 (hstop ▸ hsecond.1)) (Nat.lt_irrefl a)

/-- The base in the mapping of the unlinked file. -/
theorem maps_lookup_exact_unlinked :
    objectFilePath (mapsText [anonymousMapping, unlinkedMapping]) "app".toList (some "/tmp/p.so".toList) 8192 = [] :=
  (maps_lookup_exact [anonymousMapping, unlinkedMapping] apart_mappings 8192 "app".toList
    (some "/tmp/p.so".toList)).2.2.2.1 unlinkedMapping (by simp) (by decide) ⟨"/tmp/p.so".toList, by decide⟩ (by decide)

/-- The base in a mapping without a file, of an object whose other mapping is reported as unlinked: the name it was
loaded by is returned, whether or not it carries the kernel's mark. -/
theorem unlinked_name_returned :
    [anonymousMapping, unlinkedMapping].Pairwise MapsLine.Apart ∧ unlinkedMapping.Deleted ∧
    objectFilePath (mapsText [anonymousMapping, unlinkedMapping]) "app".toList (some "/tmp/p.so".toList) 4096 =
      "/tmp/p.so".toList ∧
    unlinkedMapping.path? = some (objectFilePath (mapsText [anonymousMapping, unlinkedMapping]) "app".toList
      (some "/tmp/p.so (deleted)".toList) 4096) :=
  ⟨apart_mappings, ⟨"/tmp/p.so".toList, by decide⟩, by decide, by decide⟩

end CallStackLogger
