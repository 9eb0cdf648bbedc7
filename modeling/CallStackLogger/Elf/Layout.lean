import CallStackLogger.Elf.Notes
import CallStackLogger.Format.Buffer

/-!
# The layout check of object files

`cslg_elf_layout_fits_file` of `src/backtraceExtension.c`, the check every file passes before libbacktrace
maps parts of it, on a little-endian 64-bit ELF file. libbacktrace reads the section header table, the
section-name table, the symbol tables with their string tables, and the notes; what of these the check finds
inside the file is the subject here.
-/

namespace CallStackLogger

open Checked

/-! ### Files and their headers -/

/-- A file, whose size is an `off_t`. -/
structure ObjectFile where
  bytes : List UInt8
  length_lt : bytes.length < 2 ^ 63

/-- `b_elf_ehdr`, as far as it is read. -/
structure ElfHeader where
  shoff : Nat
  shentsize : Nat
  shnum : Nat
  shstrndx : Nat
deriving DecidableEq, Repr

/-- `b_elf_shdr`, as far as it is read. -/
structure SectionHeader where
  name : Nat
  type : Nat
  offset : Nat
  size : Nat
  link : Nat
  addralign : Nat
deriving DecidableEq, Repr

def elfHeaderSize : Nat := 64

def sectionHeaderSize : Nat := 64

def shtNull : Nat := 0

def shtSymtab : Nat := 2

def shtNote : Nat := 7

def shtNobits : Nat := 8

def shtDynsym : Nat := 11

def shnLoreserve : Nat := 0xFF00

def shnXindex : Nat := 0xFFFF

/-- `CSLG_MAX_SECTION_HEADERS`. -/
def maxSectionHeaders : Nat := 65536

/-- The member of a struct that lies in memory as a whole. -/
def member (width : Nat) (t : List UInt8) (offset : Nat) : Nat := littleEndian ((t.drop offset).take width)

def ElfHeader.ofBytes (t : List UInt8) : ElfHeader where
  shoff := member 8 t 40
  shentsize := member 2 t 58
  shnum := member 2 t 60
  shstrndx := member 2 t 62

def SectionHeader.ofBytes (t : List UInt8) : SectionHeader where
  name := member 4 t 0
  type := member 4 t 4
  offset := member 8 t 24
  size := member 8 t 32
  link := member 4 t 40
  addralign := member 8 t 48

/-- Which reads and mappings of a range the system lets pass. -/
structure FileReplies where
  reads : Nat → Nat → Bool
  maps : Nat → Nat → Bool

namespace ObjectFile

variable (f : ObjectFile)

/-- `st_size`. -/
def size : Nat := f.bytes.length

/-- The bytes of a range that are in the file. -/
def range (offset size : Nat) : List UInt8 := (f.bytes.drop offset).take size

/-- `pread` of a whole struct. -/
def pread (r : FileReplies) (offset size : Nat) : Option (List UInt8) :=
  if r.reads offset size = true ∧ offset + size ≤ f.size then some (f.range offset size) else none

lemma length_range_lt (offset size : Nat) : (f.range offset size).length < 2 ^ 64 := by
  have hle : (f.range offset size).length ≤ f.bytes.length := by
    rw [range, List.length_take, List.length_drop]
    omega
  have hlt := f.length_lt
  omega

/-- The contents of a section, as they are mapped. -/
def contents (s : SectionHeader) : SectionContents := ⟨f.range s.offset s.size, f.length_range_lt _ _⟩

end ObjectFile

/-- `shdrs[i]` of the mapped table. -/
def headerAt (table : List UInt8) (i : Nat) : Except Fault SectionHeader :=
  if sectionHeaderSize * i + sectionHeaderSize ≤ table.length then
    .ok (.ofBytes (table.drop (sectionHeaderSize * i)))
  else .error .outside

/-! ### One section -/

namespace SectionHeader

variable (s : SectionHeader)

def isSymbolTable : Prop := s.type = shtSymtab ∨ s.type = shtDynsym

/-- Types whose contents are not looked at. -/
def isExempt : Prop := s.type = shtNobits ∨ s.type = shtNull

instance : Decidable s.isSymbolTable := inferInstanceAs (Decidable (_ ∨ _))

instance : Decidable s.isExempt := inferInstanceAs (Decidable (_ ∨ _))

/-- The contents lie inside the file. -/
def InFile (f : ObjectFile) : Prop := s.offset + s.size ≤ f.size

instance (f : ObjectFile) : Decidable (s.InFile f) := inferInstanceAs (Decidable (_ ≤ _))

/-- What is wrong with a section, if anything: one round of the loop over the table. -/
def problem (f : ObjectFile) (r : FileReplies) (shnum : Nat) : Except Fault (Option Text) :=
  if s.isSymbolTable ∧ (s.link = 0 ∨ shnum ≤ s.link) then
    return some "ELF symbol table string table index out of range".toList
  else if s.isExempt then return none
  else if f.size < s.offset ∨ f.size - s.offset < s.size then
    return some "ELF section contents beyond end of file".toList
  else if s.type = shtNote then do
    let fits ← cslgNotesFitSection (r.maps s.offset s.size) (f.contents s) s.addralign
    return if fits then none else some "ELF note larger than its section".toList
  else return none

end SectionHeader

/-! ### The table -/

/-- The loop over the section headers, with `n` rounds left: the problem it stops at, and whether it met a
symbol table of the file's own. -/
def sectionsLoop (f : ObjectFile) (r : FileReplies) (table : List UInt8) (shnum : Nat) :
    Nat → Nat → Bool → Except Fault (Option Text × Bool)
  | 0, _, symtab     => return (none, symtab)
  | n + 1, i, symtab => do
    let s ← headerAt table i
    let symtab := symtab || s.type == shtSymtab
    let problem ← s.problem f r shnum
    if problem.isSome then return (problem, symtab)
    sectionsLoop f r table shnum n (i + 1) symtab

/-- The loop of `cslg_has_section_named`, with `n` rounds left. -/
def namedLoop (table names : List UInt8) (namesSize : Nat) (name : List UInt8) : Nat → Nat → Except Fault Bool
  | 0, _     => return false
  | n + 1, i => do
    let s ← headerAt table i
    if s.name < namesSize ∧ name.length ≤ namesSize - s.name then
      if names.length < s.name + name.length then .error .outside
      else if (names.drop s.name).take name.length = name then return true
      else namedLoop table names namesSize name n (i + 1)
    else namedLoop table names namesSize name n (i + 1)

/-- `cslg_has_section_named`; the name comes with its NUL. -/
def cslgHasSectionNamed (f : ObjectFile) (r : FileReplies) (table : List UInt8) (shnum shstrndx : Nat)
    (name : List UInt8) : Except Fault Bool := do
  let names ← headerAt table shstrndx
  if names.type = shtNobits ∨ names.size = 0 then return false
  if !r.maps names.offset names.size then return false
  namedLoop table (f.range names.offset names.size) names.size name (shnum - 1) 1

/-- `CSLG_MINIDEBUGINFO_SECTION`, with its NUL. -/
def miniDebugInfoSection : List UInt8 := [46, 103, 110, 117, 95, 100, 101, 98, 117, 103, 100, 97, 116, 97, 0]

/-! ### The file -/

/-- What the check returns, what it says of the file's own symbol table, and what it reports. -/
structure LayoutReport where
  fits : Bool
  hasOwnSymtab : Bool
  problem : Option Text
deriving DecidableEq, Repr

def LayoutReport.refused (problem : String) : LayoutReport := ⟨false, false, some problem.toList⟩

/-- The number of sections and the index of the section-name table, which are in section header 0 when they
do not fit the ELF header. Old binutils counted the index too high by 256. -/
def correctedCounts (e : ElfHeader) (shdr0 : SectionHeader) : Nat × Nat :=
  let shnum := if e.shnum = 0 then shdr0.size else e.shnum
  let shstrndx :=
    if e.shstrndx = shnXindex then
      if shnum ≤ shdr0.link ∧ shnLoreserve + 0x100 ≤ shdr0.link then shdr0.link - 0x100 else shdr0.link
    else e.shstrndx
  (shnum, shstrndx)

/-- The counts, with section header 0 read where it is needed. -/
def readCounts (f : ObjectFile) (r : FileReplies) (e : ElfHeader) : Option (Nat × Nat) :=
  if e.shnum = 0 ∨ e.shstrndx = shnXindex then
    (f.pread r e.shoff sectionHeaderSize).map fun t => correctedCounts e (.ofBytes t)
  else some (e.shnum, e.shstrndx)

/-- The sections of a file whose table is inside it. -/
def checkSections (f : ObjectFile) (r : FileReplies) (table : List UInt8) (shnum shstrndx : Nat) :
    Except Fault LayoutReport := do
  let (problem, symtab) ← sectionsLoop f r table shnum shnum 0 false
  if problem.isSome then return ⟨false, symtab, problem⟩
  if symtab then return ⟨true, true, none⟩
  let named ← cslgHasSectionNamed f r table shnum shstrndx miniDebugInfoSection
  return ⟨true, named, none⟩

/-- The table of a file, and its sections. -/
def checkTable (f : ObjectFile) (r : FileReplies) (e : ElfHeader) (shnum shstrndx : Nat) :
    Except Fault LayoutReport :=
  if maxSectionHeaders < shnum then return .refused "ELF section headers beyond end of file"
  else do
    let tableSize ← mul shnum e.shentsize
    if f.size - e.shoff < tableSize then return .refused "ELF section headers beyond end of file"
    if shstrndx = 0 ∨ shnum ≤ shstrndx then return .refused "ELF section-name table index out of range"
    if !r.maps e.shoff tableSize then return ⟨false, false, none⟩
    checkSections f r (f.range e.shoff tableSize) shnum shstrndx

/-- `cslg_elf_layout_fits_file`. -/
def cslgElfLayoutFitsFile (f : ObjectFile) (r : FileReplies) : Except Fault LayoutReport :=
  match f.pread r 0 elfHeaderSize with
  | none   => return .refused "ELF header beyond end of file"
  | some t =>
    let e := ElfHeader.ofBytes t
    if e.shoff = 0 then return ⟨true, false, none⟩
    else if e.shentsize ≠ sectionHeaderSize ∨ f.size < e.shoff ∨ f.size - e.shoff < e.shentsize then
      return .refused "ELF section headers beyond end of file"
    else
      match readCounts f r e with
      | none                   => return .refused "ELF section headers beyond end of file"
      | some (shnum, shstrndx) => checkTable f r e shnum shstrndx

/-! ### What libbacktrace reads -/

namespace ObjectFile

variable (f : ObjectFile)

def header : ElfHeader := .ofBytes (f.range 0 elfHeaderSize)

def sectionAt (i : Nat) : SectionHeader := .ofBytes (f.range (f.header.shoff + sectionHeaderSize * i) sectionHeaderSize)

def shnum : Nat := (correctedCounts f.header (f.sectionAt 0)).1

def shstrndx : Nat := (correctedCounts f.header (f.sectionAt 0)).2

end ObjectFile

/-- Everything libbacktrace reads through the section header table is inside the file. -/
structure LayoutCovered (f : ObjectFile) : Prop where
  table : f.header.shoff + sectionHeaderSize * f.shnum ≤ f.size
  names : f.shstrndx < f.shnum ∧ (f.sectionAt f.shstrndx).InFile f
  symbols : ∀ i < f.shnum, (f.sectionAt i).isSymbolTable → (f.sectionAt i).InFile f
  strings : ∀ i < f.shnum, (f.sectionAt i).isSymbolTable →
    (f.sectionAt i).link < f.shnum ∧ (f.sectionAt (f.sectionAt i).link).InFile f
  notes : ∀ i < f.shnum, (f.sectionAt i).type = shtNote → (f.sectionAt i).InFile f

/-- The section-name table and the string tables of symbol tables that have a type whose contents are not
looked at are inside the file all the same. -/
structure ExemptTablesInFile (f : ObjectFile) : Prop where
  names : (f.sectionAt f.shstrndx).isExempt → (f.sectionAt f.shstrndx).InFile f
  strings : ∀ i < f.shnum, (f.sectionAt i).isSymbolTable →
    (f.sectionAt (f.sectionAt i).link).isExempt → (f.sectionAt (f.sectionAt i).link).InFile f

/-- The file passes the check. -/
def Accepts (f : ObjectFile) (r : FileReplies) : Prop :=
  ∃ report, cslgElfLayoutFitsFile f r = .ok report ∧ report.fits = true

/-! ### What the check finds out -/

section Check

variable {f : ObjectFile} {r : FileReplies} {t table : List UInt8} {s : SectionHeader}
  {shnum shstrndx i j n width offset : Nat} {symtab : Bool}

lemma member_take (h : offset + width ≤ n) : member width (t.take n) offset = member width t offset := by
  rw [member, member, List.drop_take, List.take_take, Nat.min_eq_left (by omega)]

lemma ofBytes_take : SectionHeader.ofBytes (t.take sectionHeaderSize) = .ofBytes t := by
  simp only [SectionHeader.ofBytes]
  rw [member_take (by decide), member_take (by decide), member_take (by decide), member_take (by decide),
    member_take (by decide), member_take (by decide)]

/-- The entries of the mapped table are the section headers of the file. -/
lemma sectionAt_of_headerAt {tableSize : Nat}
    (h : headerAt (f.range f.header.shoff tableSize) i = .ok s) : s = f.sectionAt i := by
  rw [headerAt] at h
  split_ifs at h with hle
  have hlength : (f.range f.header.shoff tableSize).length ≤ tableSize := List.length_take_le _ _
  rw [← Except.ok.inj h, ObjectFile.sectionAt, ← ofBytes_take, ObjectFile.range, ObjectFile.range, List.drop_take,
    List.drop_drop, List.take_take, Nat.min_eq_left (by omega)]

/-- What is known of a section without a problem. -/
structure SectionChecked (f : ObjectFile) (shnum : Nat) (s : SectionHeader) : Prop where
  link : s.isSymbolTable → s.link < shnum
  contents : ¬ s.isExempt → s.InFile f

lemma sectionChecked_of_problem (h : s.problem f r shnum = .ok none) : SectionChecked f shnum s := by
  rw [SectionHeader.problem] at h
  by_cases hlink : s.isSymbolTable ∧ (s.link = 0 ∨ shnum ≤ s.link)
  · rw [if_pos hlink] at h
    exact absurd (Except.ok.inj h) (by simp)
  · have hindex : s.isSymbolTable → s.link < shnum := by
      intro hsym
      by_contra hge
      exact hlink ⟨hsym, .inr (Nat.not_lt.mp hge)⟩
    refine ⟨hindex, fun hexempt => ?_⟩
    rw [if_neg hlink, if_neg hexempt] at h
    by_cases houtside : f.size < s.offset ∨ f.size - s.offset < s.size
    · rw [if_pos houtside] at h
      exact absurd (Except.ok.inj h) (by simp)
    · rw [SectionHeader.InFile]
      omega

/-- A loop that met no problem has met none in any of its rounds. -/
lemma sectionChecked_of_loop (hloop : ∃ symtab', sectionsLoop f r table shnum n i symtab = .ok (none, symtab'))
    (hij : i ≤ j) (hj : j < i + n) : ∃ s, headerAt table j = .ok s ∧ SectionChecked f shnum s := by
  induction n generalizing i symtab with
  | zero => omega
  | succ n ih =>
    obtain ⟨symtab', hloop⟩ := hloop
    rw [sectionsLoop] at hloop
    obtain ⟨s, hs, hloop⟩ := exists_of_bind_eq_ok hloop
    obtain ⟨problem, hproblem, hloop⟩ := exists_of_bind_eq_ok hloop
    cases problem with
    | some text => exact absurd (congrArg Prod.fst (Except.ok.inj hloop)) (by simp)
    | none =>
      rcases Nat.eq_or_lt_of_le hij with rfl | hlt
      · exact ⟨s, hs, sectionChecked_of_problem hproblem⟩
      · exact ih ⟨symtab', hloop⟩ hlt (by omega)

/-- What is known of a file that passed the check. -/
structure FileChecked (f : ObjectFile) : Prop where
  table : f.header.shoff + sectionHeaderSize * f.shnum ≤ f.size
  index : f.shstrndx < f.shnum
  sections : ∀ i < f.shnum, SectionChecked f f.shnum (f.sectionAt i)

/-- The counts the check works with are those of the file. -/
lemma readCounts_eq {counts : Nat × Nat} (h : readCounts f r f.header = some counts) :
    counts = (f.shnum, f.shstrndx) := by
  rw [readCounts] at h
  split_ifs at h with hextended
  · rw [ObjectFile.pread] at h
    split_ifs at h with hread
    · rw [← Option.some.inj h]
      rfl
    · contradiction
  · obtain ⟨hcount, hindex⟩ := not_or.mp hextended
    rw [← Option.some.inj h, ObjectFile.shnum, ObjectFile.shstrndx, correctedCounts, if_neg hcount, if_neg hindex]

lemma fileChecked_of_checkTable {report : LayoutReport} (hsize : f.header.shentsize = sectionHeaderSize)
    (hoff : f.header.shoff ≤ f.size) (h : checkTable f r f.header f.shnum f.shstrndx = .ok report)
    (hfits : report.fits = true) : FileChecked f := by
  have hrefused : ∀ {problem : String}, (.ok (.refused problem) : Except Fault LayoutReport) = .ok report → False := by
    intro problem heq
    rw [← Except.ok.inj heq] at hfits
    exact absurd hfits (by simp [LayoutReport.refused])
  rw [checkTable] at h
  by_cases hmany : maxSectionHeaders < f.shnum
  · rw [if_pos hmany] at h
    exact (hrefused h).elim
  · rw [if_neg hmany, hsize] at h
    have hmul : mul f.shnum sectionHeaderSize = .ok (f.shnum * sectionHeaderSize) := by
      simp only [maxSectionHeaders] at hmany
      exact mul_of_lt (by simp only [sectionHeaderSize]; omega)
    simp only [hmul, bind, Except.bind, pure, Except.pure] at h
    by_cases hbeyond : f.size - f.header.shoff < f.shnum * sectionHeaderSize
    · rw [if_pos hbeyond] at h
      exact (hrefused h).elim
    · rw [if_neg hbeyond] at h
      by_cases hindex : f.shstrndx = 0 ∨ f.shnum ≤ f.shstrndx
      · rw [if_pos hindex] at h
        exact (hrefused h).elim
      · rw [if_neg hindex] at h
        by_cases hmapped : (!r.maps f.header.shoff (f.shnum * sectionHeaderSize)) = true
        · rw [if_pos hmapped] at h
          rw [← Except.ok.inj h] at hfits
          contradiction
        · rw [if_neg hmapped, checkSections] at h
          obtain ⟨⟨problem, symtab⟩, hloop, h⟩ := exists_of_bind_eq_ok h
          cases problem with
          | some text =>
            rw [← Except.ok.inj h] at hfits
            contradiction
          | none =>
            refine ⟨?_, Nat.not_le.mp fun hge => hindex (.inr hge), fun i hi => ?_⟩
            · rw [Nat.mul_comm]
              omega
            · obtain ⟨s, hs, hchecked⟩ := sectionChecked_of_loop ⟨symtab, hloop⟩ (Nat.zero_le i) (by omega)
              rwa [sectionAt_of_headerAt hs] at hchecked

lemma fileChecked_of_accepts (h : Accepts f r) (htable : f.header.shoff ≠ 0) : FileChecked f := by
  obtain ⟨report, h, hfits⟩ := h
  rw [cslgElfLayoutFitsFile] at h
  cases hread : f.pread r 0 elfHeaderSize with
  | none =>
    rw [hread] at h
    rw [← Except.ok.inj h] at hfits
    contradiction
  | some t =>
    have ht : ElfHeader.ofBytes t = f.header := by
      rw [ObjectFile.pread] at hread
      split_ifs at hread
      rw [ObjectFile.header, Option.some.inj hread]
    simp only [hread, ht, if_neg htable] at h
    split_ifs at h with hheaders
    · rw [← Except.ok.inj h] at hfits
      contradiction
    · simp only [not_or, not_not, Nat.not_lt] at hheaders
      cases hcounts : readCounts f r f.header with
      | none =>
        rw [hcounts] at h
        rw [← Except.ok.inj h] at hfits
        contradiction
      | some counts =>
        rw [hcounts, readCounts_eq hcounts] at h
        exact fileChecked_of_checkTable hheaders.1 hheaders.2.1 h hfits

end Check

/-- Of a file that passes the check, everything libbacktrace reads through the section header table is inside
the file exactly when the tables whose type exempts them are. -/
theorem layout_covered_iff (f : ObjectFile) (r : FileReplies) (haccepts : Accepts f r)
    (htable : f.header.shoff ≠ 0) : LayoutCovered f ↔ ExemptTablesInFile f := by
  obtain ⟨hinside, hindex, hsections⟩ := fileChecked_of_accepts haccepts htable
  have hcontents : ∀ i < f.shnum, ((f.sectionAt i).isExempt → (f.sectionAt i).InFile f) →
      (f.sectionAt i).InFile f := by
    intro i hi hexempt
    by_cases h : (f.sectionAt i).isExempt
    · exact hexempt h
    · exact (hsections i hi).contents h
  constructor
  · intro h
    exact ⟨fun _ => h.names.2, fun i hi hsym _ => (h.strings i hi hsym).2⟩
  · intro h
    refine ⟨hinside, ⟨hindex, hcontents _ hindex h.names⟩, fun i hi hsym => ?_, fun i hi hsym => ?_, fun i hi hnote => ?_⟩
    · refine (hsections i hi).contents fun hexempt => ?_
      rcases hsym with hsym | hsym <;> rcases hexempt with hexempt | hexempt <;>
        exact absurd (hsym.symm.trans hexempt) (by decide)
    · have hlink := (hsections i hi).link hsym
      exact ⟨hlink, hcontents _ hlink (h.strings i hi hsym)⟩
    · refine (hsections i hi).contents fun hexempt => ?_
      rcases hexempt with hexempt | hexempt <;> exact absurd (hnote.symm.trans hexempt) (by decide)

/-- The little-endian bytes of a field. -/
def fieldBytes : Nat → Nat → List UInt8
  | 0, _         => []
  | width + 1, n => UInt8.ofNat (n % 256) :: fieldBytes width (n / 256)

def SectionHeader.bytes (s : SectionHeader) : List UInt8 :=
  fieldBytes 4 s.name ++ fieldBytes 4 s.type ++ fieldBytes 16 0 ++ fieldBytes 8 s.offset ++ fieldBytes 8 s.size ++
    fieldBytes 4 s.link ++ fieldBytes 4 0 ++ fieldBytes 8 s.addralign ++ fieldBytes 8 0

/-- A file of three sections: none, the section-name table, and a symbol table that has it as its string
table. -/
def namedBy (names : SectionHeader) : List UInt8 :=
  fieldBytes 40 0 ++ fieldBytes 8 64 ++ fieldBytes 10 0 ++ fieldBytes 2 64 ++ fieldBytes 2 3 ++ fieldBytes 2 1 ++
    SectionHeader.bytes ⟨0, shtNull, 0, 0, 0, 0⟩ ++ names.bytes ++ SectionHeader.bytes ⟨0, shtSymtab, 256, 0, 1, 8⟩ ++ [0]

/-- Whatever is asked of the system is granted. -/
def FileReplies.granted : FileReplies := ⟨fun _ _ => true, fun _ _ => true⟩

def stringTableFile : ObjectFile := ⟨namedBy ⟨0, 3, 256, 1, 0, 1⟩, by decide +kernel⟩

/-- The section-name table has no contents in the file, and its offset is far behind the end. -/
def nobitsTableFile : ObjectFile := ⟨namedBy ⟨0, shtNobits, 4096, 1, 0, 1⟩, by decide +kernel⟩

theorem layout_covered_string_table : LayoutCovered stringTableFile := by
  refine (layout_covered_iff stringTableFile .granted ⟨⟨true, true, none⟩, by decide +kernel, rfl⟩
    (by decide +kernel)).mpr ⟨fun _ => by decide +kernel, ?_⟩
  decide +kernel

/-- The check lets a section-name table pass that is behind the end of the file. -/
theorem nobits_table_not_covered :
    ¬ (Accepts nobitsTableFile .granted → nobitsTableFile.header.shoff ≠ 0 → LayoutCovered nobitsTableFile) := by
  intro h
  have hcovered := h ⟨⟨true, true, none⟩, by decide +kernel, rfl⟩ (by decide +kernel)
  exact absurd hcovered.names.2 (by decide +kernel)

end CallStackLogger
