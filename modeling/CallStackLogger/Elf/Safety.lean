import CallStackLogger.Elf.Layout

/-!
# The layout check on any bytes

The check reads the section header table, the notes and the section names of a file it knows nothing about. Whatever
the bytes are, it reads inside the file, its arithmetic does not wrap around, and it ends; but it trusts a
section-name table whose type exempts it.
-/

namespace CallStackLogger

open Checked

variable {f : ObjectFile} {r : FileReplies} {table : List UInt8} {shnum shstrndx n i : Nat}

lemma exists_headerAt (htable : table.length = shnum * sectionHeaderSize) (hi : i < shnum) :
    ∃ s, headerAt table i = .ok s := by
  refine ⟨_, if_pos ?_⟩
  rw [htable]
  simp only [sectionHeaderSize]
  omega

lemma SectionHeader.exists_problem (s : SectionHeader) (f : ObjectFile) (r : FileReplies) (shnum : Nat) :
    ∃ problem, s.problem f r shnum = .ok problem := by
  rw [SectionHeader.problem]
  split_ifs
  · exact ⟨_, rfl⟩
  · exact ⟨_, rfl⟩
  · exact ⟨_, rfl⟩
  · obtain ⟨fits, hfits, -⟩ := cslgNotesFitSection_ok (r.maps s.offset s.size) (f.contents s) s.addralign
    rw [hfits]
    exact ⟨_, rfl⟩
  · exact ⟨_, rfl⟩

lemma exists_sectionsLoop (f : ObjectFile) (r : FileReplies) (symtab : Bool)
    (htable : table.length = shnum * sectionHeaderSize) (hn : i + n ≤ shnum) :
    ∃ result, sectionsLoop f r table shnum n i symtab = .ok result := by
  induction n generalizing i symtab with
  | zero => exact ⟨_, rfl⟩
  | succ n ih =>
    obtain ⟨s, hs⟩ := exists_headerAt htable (i := i) (by omega)
    obtain ⟨problem, hproblem⟩ := s.exists_problem f r shnum
    obtain ⟨result, hresult⟩ := ih (symtab || s.type == shtSymtab) (i := i + 1) (by omega)
    simp only [sectionsLoop, hs, hproblem, bind, Except.bind, pure, Except.pure, hresult]
    split_ifs
    · exact ⟨_, rfl⟩
    · exact ⟨_, rfl⟩

/-- The names that are compared lie in a name table that is there as a whole. -/
lemma exists_namedLoop (names name : List UInt8) (htable : table.length = shnum * sectionHeaderSize)
    (hn : i + n ≤ shnum) :
    ∃ found, namedLoop table names names.length name n i = .ok found := by
  induction n generalizing i with
  | zero => exact ⟨_, rfl⟩
  | succ n ih =>
    obtain ⟨s, hs⟩ := exists_headerAt htable (i := i) (by omega)
    obtain ⟨found, hfound⟩ := ih (i := i + 1) (by omega)
    simp only [namedLoop, hs, bind, Except.bind, pure, Except.pure, hfound]
    split_ifs with hinside houtside
    · omega
    · exact ⟨_, rfl⟩
    · exact ⟨_, rfl⟩
    · exact ⟨_, rfl⟩

lemma length_range {f : ObjectFile} {offset size : Nat} (h : offset + size ≤ f.size) :
    (f.range offset size).length = size := by
  rw [ObjectFile.size] at h
  rw [ObjectFile.range, List.length_take, List.length_drop]
  omega

lemma exists_hasSectionNamed (htable : table.length = shnum * sectionHeaderSize) {s : SectionHeader}
    (hs : headerAt table shstrndx = .ok s) (hpos : 0 < shnum) (hinside : s.type ≠ shtNobits → s.InFile f)
    (name : List UInt8) : ∃ found, cslgHasSectionNamed f r table shnum shstrndx name = .ok found := by
  simp only [cslgHasSectionNamed, hs, bind, Except.bind, pure, Except.pure]
  split_ifs with hexempt
  · exact ⟨_, rfl⟩
  · exact ⟨_, rfl⟩
  · have hlength := length_range (hinside (not_or.mp hexempt).1)
    obtain ⟨found, hfound⟩ := exists_namedLoop (f.range s.offset s.size) name htable (i := 1) (n := shnum - 1)
      (by omega)
    rw [hlength] at hfound
    exact ⟨found, hfound⟩

/-- The section-name table has a type that exempts it from the check of its range, and it is not inside the file. -/
def NamesUnchecked (f : ObjectFile) : Prop :=
  (f.sectionAt f.shstrndx).type = shtNull ∧ ¬ (f.sectionAt f.shstrndx).InFile f

lemma exists_checkSections (hnames : ¬ NamesUnchecked f) (hindex : f.shstrndx < f.shnum)
    (htable : (f.range f.header.shoff (f.shnum * sectionHeaderSize)).length = f.shnum * sectionHeaderSize) :
    ∃ report, checkSections f r (f.range f.header.shoff (f.shnum * sectionHeaderSize)) f.shnum f.shstrndx =
      .ok report := by
  obtain ⟨⟨problem, symtab⟩, hloop⟩ :=
    exists_sectionsLoop f r false htable (i := 0) (n := f.shnum) (by omega)
  obtain ⟨s, hs⟩ := exists_headerAt htable hindex
  have hsection := sectionAt_of_headerAt hs
  simp only [checkSections, hloop, bind, Except.bind, pure, Except.pure]
  cases problem with
  | some text => exact ⟨_, rfl⟩
  | none =>
    obtain ⟨s', hs', hchecked⟩ := sectionChecked_of_loop ⟨symtab, hloop⟩ (Nat.zero_le _) (by omega : f.shstrndx < _)
    obtain rfl := Except.ok.inj (hs.symm.trans hs')
    have hinside : s.type ≠ shtNobits → s.InFile f := by
      intro hnobits
      by_cases hnull : s.type = shtNull
      · rw [NamesUnchecked, ← hsection, not_and, not_not] at hnames
        exact hnames hnull
      · exact hchecked.contents (not_or.mpr ⟨hnobits, hnull⟩)
    obtain ⟨found, hfound⟩ := exists_hasSectionNamed (r := r) htable hs (by omega) hinside miniDebugInfoSection
    rw [hfound]
    cases symtab <;> exact ⟨_, rfl⟩

lemma exists_checkTable (hnames : ¬ NamesUnchecked f) (hsize : f.header.shentsize = sectionHeaderSize)
    (hoff : f.header.shoff ≤ f.size) : ∃ report, checkTable f r f.header f.shnum f.shstrndx = .ok report := by
  rw [checkTable, hsize]
  by_cases hmany : maxSectionHeaders < f.shnum
  · rw [if_pos hmany]
    exact ⟨_, rfl⟩
  · have hmul : mul f.shnum sectionHeaderSize = .ok (f.shnum * sectionHeaderSize) := by
      simp only [maxSectionHeaders] at hmany
      exact mul_of_lt (by simp only [sectionHeaderSize]; omega)
    rw [if_neg hmany]
    simp only [hmul, bind, Except.bind, pure, Except.pure]
    split_ifs with hbeyond hindex
    · exact ⟨_, rfl⟩
    · exact ⟨_, rfl⟩
    · exact ⟨_, rfl⟩
    · exact exists_checkSections hnames (by omega) (length_range (by omega))

lemma exists_report (r : FileReplies) (hnames : ¬ NamesUnchecked f) :
    ∃ report, cslgElfLayoutFitsFile f r = .ok report := by
  rw [cslgElfLayoutFitsFile]
  cases hread : f.pread r 0 elfHeaderSize with
  | none => exact ⟨_, rfl⟩
  | some t =>
    have ht : ElfHeader.ofBytes t = f.header := by
      rw [ObjectFile.pread] at hread
      split_ifs at hread
      rw [ObjectFile.header, Option.some.inj hread]
    simp only [ht]
    split_ifs with htable hheaders
    · exact ⟨_, rfl⟩
    · exact ⟨_, rfl⟩
    · simp only [not_or, not_not, Nat.not_lt] at hheaders
      cases hcounts : readCounts f r f.header with
      | none => exact ⟨_, rfl⟩
      | some counts =>
        rw [readCounts_eq hcounts]
        exact exists_checkTable hnames hheaders.1 hheaders.2.1

/-- Whatever a file holds and whichever reads and mappings fail, the check comes to an end, without a read outside the
file and without arithmetic that wraps around, unless the section-name table escaped it. -/
theorem layout_check_safe (f : ObjectFile) (r : FileReplies) (hnames : ¬ NamesUnchecked f) :
    ∃ report, cslgElfLayoutFitsFile f r = .ok report := exists_report r hnames

/-- A file whose section-name table has no type and lies behind the end of the file. -/
def nullTableFile : ObjectFile where
  bytes := fieldBytes 40 0 ++ fieldBytes 8 64 ++ fieldBytes 10 0 ++ fieldBytes 2 64 ++ fieldBytes 2 2 ++
    fieldBytes 2 1 ++ SectionHeader.bytes ⟨0, shtNull, 0, 0, 0, 0⟩ ++ SectionHeader.bytes ⟨0, shtNull, 4096, 64, 0, 1⟩
  length_lt := by decide +kernel

example : cslgElfLayoutFitsFile nullTableFile .granted = .error .outside := by decide +kernel

theorem layout_check_safe_string_table : ∃ report, cslgElfLayoutFitsFile stringTableFile .granted = .ok report :=
  layout_check_safe stringTableFile .granted fun h => absurd h.1 (by decide +kernel)

end CallStackLogger
