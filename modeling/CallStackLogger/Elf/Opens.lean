import Mathlib.Data.List.TakeWhile
import CallStackLogger.Core.CBuffer
import CallStackLogger.Elf.Safety
import CallStackLogger.Trace.Paths

/-!
# The files libbacktrace opens

`cslg_open_checked` of `src/backtraceExtension.c` stands in for libbacktrace's own open. A registration opens an object
file by its absolute path, and libbacktrace then opens what names in that file lead to: debug files, and the files
these link to. A relative name is taken from the directory of the file opened last, which is kept in a buffer; it
never depends on the directory the program is in.
-/

namespace CallStackLogger

open Checked

/-! ### What is opened -/

/-- `PATH_MAX`. -/
def pathMax : Nat := 4096

def nul : Char := '\x00'

/-- A string in memory. -/
abbrev CString := {t : Text // nul ∉ t}

/-- A descriptor; whether `fstat` finds a regular file behind it, with its bytes and what of them can be read; and
what `readlink` answers. -/
structure OpenedFile where
  descriptor : Nat
  descriptor_lt : descriptor < 2 ^ 31
  regular : Bool
  file : ObjectFile
  replies : FileReplies
  readlink : Text → Option CString

/-- Why an open fails: `ENOENT`, `EACCES` or `ENOTDIR`, or anything else. -/
inductive OpenError where
  | missing
  | other
deriving DecidableEq, Repr

/-- The local buffers of a call, with whatever is in them. -/
structure OpenBuffers where
  resolved : List Char
  link : List Char
  target : List Char
  length_resolved : resolved.length = pathMax
  length_link : link.length = 32
  length_target : target.length = pathMax

/-- One call: the name, whether `does_not_exist` is asked for, and what `open` answers for a path. -/
structure OpenCall where
  filename : CString
  asks : Bool
  openAt : Text → Except OpenError OpenedFile
  buffers : OpenBuffers

/-- `cslg_last_open`. -/
structure LastOpen where
  directory : List Char
  hasOwnSymtab : Bool

/-- What a call returns, and the path it opened. -/
structure OpenResult where
  opened : Option Text
  descriptor : Option Nat
  doesNotExist : Bool
deriving DecidableEq, Repr

def fdDirectory : Text := "/proc/self/fd/".toList

/-- `strrchr`: where the last separator is. -/
def lastSeparator (t : Text) : Option Nat := if directoryOf t = [] then none else some ((directoryOf t).length - 1)

/-- The end of `cslg_remember_directory`: the name in `target` is cut at its last separator and kept. -/
def keepDirectory (directory target : List Char) (length : Nat) : Except Fault (List Char) := do
  let target ← store target length [nul]
  match lastSeparator (cStr target) with
  | none       => .error .outside
  | some slash =>
    let target ← store target (if slash = 0 then 1 else slash) [nul]
    store directory 0 (target.take ((cStr target).length + 1))

/-- `cslg_remember_directory`. -/
def cslgRememberDirectory (directory : List Char) (buffers : OpenBuffers) (o : OpenedFile) (path : Text) :
    Except Fault (List Char) := do
  let link ← print buffers.link 32 (fdDirectory ++ decimal o.descriptor)
  let name := ((o.readlink (cStr link)).map Subtype.val).getD []
  let target ← store buffers.target 0 (name.take (pathMax - 1))
  let length := (name.take (pathMax - 1)).length
  if length = 0 ∨ target.head? ≠ some '/' then
    if pathMax ≤ path.length ∨ path.head? ≠ some '/' then store directory 0 [nul]
    else
      let target ← store target 0 path
      keepDirectory directory target path.length
  else keepDirectory directory target length

/-- `cslg_open_checked`, once the path is known. -/
def openPath (last : LastOpen) (c : OpenCall) (path : Text) : Except Fault (LastOpen × OpenResult) :=
  match c.openAt path with
  | .error e => return (last, ⟨some path, none, c.asks && e == .missing⟩)
  | .ok o    => do
    if !o.regular then return (last, ⟨some path, none, c.asks⟩)
    let report ← cslgElfLayoutFitsFile o.file o.replies
    if !report.fits then return (last, ⟨some path, none, c.asks⟩)
    let directory ← cslgRememberDirectory last.directory c.buffers o path
    return (⟨directory, report.hasOwnSymtab⟩, ⟨some path, some o.descriptor, false⟩)

/-- `cslg_open_checked`. -/
def cslgOpenChecked (last : LastOpen) (c : OpenCall) : Except Fault (LastOpen × OpenResult) := do
  if c.filename.1.head? = some '/' then openPath last c c.filename.1
  else if cStr last.directory = [] then return (last, ⟨none, none, c.asks⟩)
  else
    let text := cStr last.directory ++ ['/'] ++ c.filename.1
    let resolved ← print c.buffers.resolved pathMax text
    if pathMax ≤ text.length then return (last, ⟨none, none, c.asks⟩)
    openPath last c (cStr resolved)

/-- One open after the other. -/
def openAll : LastOpen → List OpenCall → Except Fault (LastOpen × List OpenResult)
  | last, []      => return (last, [])
  | last, c :: cs => do
    let (last, result) ← cslgOpenChecked last c
    let (last, results) ← openAll last cs
    return (last, result :: results)

/-! ### What is opened next to what -/

/-- A directory that can be kept. -/
abbrev Directory := {t : Text // IsAbsolute t ∧ nul ∉ t ∧ t.length < pathMax}

/-- What a name stands for next to a file in the directory. -/
def pathIn (dir : Option Directory) (filename : Text) : Option Text :=
  if IsAbsolute filename then some filename
  else (dir.map fun dir => dir.1 ++ ['/'] ++ filename).filter (·.length < pathMax)

/-- The layout check passes. -/
def OpenedFile.fits (o : OpenedFile) : Bool := (cslgElfLayoutFitsFile o.file o.replies).toOption.any LayoutReport.fits

def OpenedFile.hasOwnSymtab (o : OpenedFile) : Bool :=
  (cslgElfLayoutFitsFile o.file o.replies).toOption.any LayoutReport.hasOwnSymtab

/-- What the kernel calls the open file. -/
def OpenedFile.kernelName (o : OpenedFile) : Text :=
  (((o.readlink (fdDirectory ++ decimal o.descriptor)).map Subtype.val).getD []).take (pathMax - 1)

/-- The file at a path; one that is refused counts as missing. -/
def OpenCall.fileAt (c : OpenCall) (path : Text) : Except OpenError OpenedFile :=
  (c.openAt path).bind fun o => if o.regular && o.fits then .ok o else .error .missing

/-! ### Directories -/

/-- The directory an absolute name is in. -/
def dirname (t : Text) : Text := if (directoryOf t).length ≤ 1 then ['/'] else (directoryOf t).dropLast

section Directories

variable {t name rest : Text}

lemma exists_directoryOf (t : Text) : ∃ rest, t = directoryOf t ++ rest ∧ '/' ∉ rest := by
  refine ⟨(t.reverse.takeWhile (· ≠ '/')).reverse, ?_, ?_⟩
  · rw [directoryOf, ← List.reverse_append, List.takeWhile_append_dropWhile, List.reverse_reverse]
  · intro hmem
    have hkept := List.mem_takeWhile_imp (List.mem_reverse.mp hmem)
    simp at hkept

lemma isAbsolute_directoryOf (h : IsAbsolute t) : IsAbsolute (directoryOf t) := by
  obtain ⟨rest, hrest, hnot⟩ := exists_directoryOf t
  rw [IsAbsolute, hrest] at h
  cases hdir : directoryOf t with
  | nil =>
    rw [hdir, List.nil_append] at h
    exact absurd (List.mem_of_mem_head? h) hnot
  | cons c dir =>
    rw [hdir] at h
    exact h

/-- The length of the directory's name. -/
def dirnameLength (t : Text) : Nat := if (directoryOf t).length ≤ 1 then 1 else (directoryOf t).length - 1

lemma dirname_eq_take (h : IsAbsolute t) : dirname t = t.take (dirnameLength t) ∧ dirnameLength t ≤ t.length := by
  obtain ⟨rest, hrest, -⟩ := exists_directoryOf t
  obtain ⟨dir, hdir⟩ := List.head?_eq_some_iff.mp (isAbsolute_directoryOf h)
  have hlength := congrArg List.length hrest
  rw [List.length_append] at hlength
  rw [dirname, dirnameLength]
  split_ifs with hroot
  · have hnil : dir = [] := by
      rw [hdir, List.length_cons] at hroot
      exact List.length_eq_zero_iff.mp (by omega)
    have ht : t = '/' :: rest := by
      rw [hrest, hdir, hnil]
      rfl
    rw [ht]
    exact ⟨rfl, by simp⟩
  · have hle : (directoryOf t).length - 1 ≤ (directoryOf t).length := Nat.sub_le _ _
    have htake : t.take ((directoryOf t).length - 1) = (directoryOf t).take ((directoryOf t).length - 1) :=
      (congrArg (List.take _) hrest).trans (List.take_append_of_le_length hle)
    rw [List.dropLast_eq_take]
    exact ⟨htake.symm, by omega⟩

lemma isAbsolute_dirname (h : IsAbsolute t) : IsAbsolute (dirname t) := by
  obtain ⟨dir, hdir⟩ := List.head?_eq_some_iff.mp (isAbsolute_directoryOf h)
  rw [dirname]
  split_ifs with hroot
  · rfl
  · rw [hdir] at hroot ⊢
    cases dir with
    | nil => exact absurd le_rfl hroot
    | cons c dir => rfl

lemma lastSeparator_eq (h : IsAbsolute t) :
    lastSeparator t = some ((directoryOf t).length - 1) ∧
      (if (directoryOf t).length - 1 = 0 then 1 else (directoryOf t).length - 1) =
        dirnameLength t := by
  obtain ⟨dir, hdir⟩ := List.head?_eq_some_iff.mp (isAbsolute_directoryOf h)
  have hne : directoryOf t ≠ [] := by
    rw [hdir]
    exact List.cons_ne_nil _ _
  refine ⟨if_neg hne, ?_⟩
  have hpos := List.length_pos_iff.mpr hne
  rw [dirnameLength]
  split_ifs <;> omega

lemma nul_notMem_dirname (h : IsAbsolute t) (hnul : nul ∉ t) : nul ∉ dirname t := by
  rw [(dirname_eq_take h).1]
  exact fun hmem => hnul (List.mem_of_mem_take hmem)

lemma length_dirname (h : IsAbsolute t) : (dirname t).length = dirnameLength t := by
  obtain ⟨htake, hle⟩ := dirname_eq_take h
  rw [htake, List.length_take, Nat.min_eq_left hle]

/-- The directory of a file with the given name. -/
def parentDirectory (name : Text) : Option Directory :=
  if h : IsAbsolute name ∧ nul ∉ name ∧ name.length < pathMax then
    some ⟨dirname name, isAbsolute_dirname h.1, nul_notMem_dirname h.1 h.2.1, by
      rw [length_dirname h.1]
      exact lt_of_le_of_lt (dirname_eq_take h.1).2 h.2.2⟩
  else none

/-- The name of a directory, where one is known. -/
def directoryText (dir : Option Directory) : Text := (dir.map Subtype.val).getD []

lemma directoryText_parentDirectory (h : IsAbsolute t) (hnul : nul ∉ t) (hfits : t.length < pathMax) :
    directoryText (parentDirectory t) = dirname t := by
  rw [parentDirectory, dif_pos ⟨h, hnul, hfits⟩]
  rfl

end Directories

/-! ### The directory that is kept -/

section Kept

variable {directory target out name path : List Char} {buffers : OpenBuffers} {o : OpenedFile}

/-- The buffer holds a string. -/
structure HoldsString (buffer : List Char) (t : Text) : Prop where
  length : buffer.length = pathMax
  cStr : cStr buffer = t

lemma cStr_of_nul (hname : nul ∉ name) (rest : Text) : cStr (name ++ nul :: rest) = name := by
  have hkept : ∀ c ∈ name, decide (c ≠ '\x00') = true := by
    intro c hc
    refine decide_eq_true ?_
    rintro rfl
    exact hname hc
  rw [CallStackLogger.cStr, List.takeWhile_append_of_pos hkept]
  simp [nul]

lemma holdsString_filled (hlength : directory.length = pathMax) (hname : nul ∉ name) (hfits : name.length < pathMax) :
    store directory 0 (name ++ [nul]) = .ok (filled (name ++ [nul]) directory) ∧
      HoldsString (filled (name ++ [nul]) directory) name := by
  have hle : (name ++ [nul]).length ≤ directory.length := by
    rw [List.length_append, List.length_singleton]
    omega
  refine ⟨store_front hle, ⟨(length_filled hle).trans hlength, ?_⟩⟩
  rw [filled, List.append_assoc]
  exact cStr_of_nul hname _

/-- The buffer holds the name of the directory, where one is known. -/
abbrev Keeps (buffer : List Char) (dir : Option Directory) : Prop := HoldsString buffer (directoryText dir)

/-- A name that is in the buffer is cut to its directory. -/
lemma keepDirectory_eq (hdirectory : directory.length = pathMax) (hout : out.length = pathMax) (hname : nul ∉ name)
    (hfits : name.length < pathMax) (habsolute : IsAbsolute name) :
    ∃ directory', keepDirectory directory (filled name out) name.length = .ok directory' ∧
      HoldsString directory' (dirname name) := by
  obtain ⟨hdirname, hle⟩ := dirname_eq_take habsolute
  obtain ⟨hslash, hcut⟩ := lastSeparator_eq habsolute
  have hterminated : store (filled name out) name.length [nul] = .ok (filled (name ++ [nul]) out) :=
    store_filled (by rw [List.length_singleton]; omega)
  have hbuffer : (filled (name ++ [nul]) out).length = pathMax := by
    rw [length_filled, hout]
    rw [List.length_append, List.length_singleton]
    omega
  have hwhole : cStr (filled (name ++ [nul]) out) = name := by
    rw [filled, List.append_assoc]
    exact cStr_of_nul hname _
  have hfront : (filled (name ++ [nul]) out).take (dirnameLength name) = dirname name := by
    rw [filled, List.append_assoc, List.take_append_of_le_length hle, hdirname]
  have hnul := nul_notMem_dirname habsolute hname
  have hlength := length_dirname habsolute
  have hstored : store (filled (name ++ [nul]) out) (dirnameLength name) [nul] =
      .ok (dirname name ++ nul :: (filled (name ++ [nul]) out).drop (dirnameLength name + 1)) := by
    rw [store, if_pos (by rw [List.length_singleton]; omega), hfront, List.length_singleton, List.append_assoc]
    rfl
  have hkept := holdsString_filled hdirectory hnul (by omega)
  refine ⟨_, ?_, hkept.2⟩
  simp only [keepDirectory, hterminated, bind, Except.bind, hwhole, hslash, hcut, hstored, cStr_of_nul hnul]
  rw [List.append_cons, List.take_left' (by rw [List.length_append, List.length_singleton])]
  exact hkept.1

lemma nul_notMem_fdPath (n : Nat) : nul ∉ fdDirectory ++ decimal n := by
  have hdirectory : nul ∉ fdDirectory := by decide
  rw [List.mem_append, not_or]
  exact ⟨hdirectory, fun hmem => absurd (isDigit_of_mem_decimal hmem) (by decide)⟩

/-- A descriptor has ten digits at most. -/
lemma length_fdPath_lt {n : Nat} (h : n < 2 ^ 31) : (fdDirectory ++ decimal n).length < 32 := by
  have hdirectory : fdDirectory.length = 14 := by decide
  have hdigits : (decimal n).length ≤ 10 := (Nat.length_toDigits_le_iff (by decide) (by decide)).mpr (by omega)
  rw [List.length_append]
  omega

lemma OpenedFile.nul_notMem_kernelName (o : OpenedFile) : nul ∉ o.kernelName := by
  intro hmem
  have hmem := List.mem_of_mem_take hmem
  cases hname : o.readlink (fdDirectory ++ decimal o.descriptor) with
  | none =>
    rw [hname] at hmem
    exact List.not_mem_nil hmem
  | some name =>
    rw [hname] at hmem
    exact name.2 hmem

lemma OpenedFile.length_kernelName_lt (o : OpenedFile) : o.kernelName.length < pathMax := by
  have hle : o.kernelName.length ≤ pathMax - 1 := List.length_take_le _ _
  exact lt_of_le_of_lt hle (by decide)

/-- The directory that is known once the file is open. -/
def rememberedDirectory (o : OpenedFile) (path : Text) : Option Directory :=
  (parentDirectory o.kernelName).or (parentDirectory path)

lemma keeps_none (h : directory.length = pathMax) :
    store directory 0 [nul] = .ok (filled [nul] directory) ∧ Keeps (filled [nul] directory) none :=
  holdsString_filled h List.not_mem_nil (by decide)

/-- A name in the buffer leaves its directory. -/
lemma keeps_parentDirectory (hdirectory : directory.length = pathMax) (hout : out.length = pathMax) (hname : nul ∉ name)
    (hfits : name.length < pathMax) (habsolute : IsAbsolute name) :
    ∃ directory', keepDirectory directory (filled name out) name.length = .ok directory' ∧
      Keeps directory' (parentDirectory name) := by
  obtain ⟨directory', hkept, hholds⟩ := keepDirectory_eq hdirectory hout hname hfits habsolute
  rw [← directoryText_parentDirectory habsolute hname hfits] at hholds
  exact ⟨directory', hkept, hholds⟩

lemma rememberedDirectory_of_isAbsolute (h : IsAbsolute o.kernelName) :
    rememberedDirectory o path = parentDirectory o.kernelName := by
  rw [rememberedDirectory, parentDirectory, dif_pos ⟨h, o.nul_notMem_kernelName, o.length_kernelName_lt⟩,
    Option.some_or]

lemma rememberedDirectory_of_not_isAbsolute (h : ¬ IsAbsolute o.kernelName) :
    rememberedDirectory o path = parentDirectory path := by
  have hnone : parentDirectory o.kernelName = none := dif_neg fun habsolute => h habsolute.1
  rw [rememberedDirectory, hnone, Option.none_or]

/-- What is kept is the directory of the name the kernel has for the file, or of the path. -/
lemma cslgRememberDirectory_eq (buffers : OpenBuffers) (o : OpenedFile) (hdirectory : directory.length = pathMax)
    (hpath : nul ∉ path) :
    ∃ directory', cslgRememberDirectory directory buffers o path = .ok directory' ∧
      Keeps directory' (rememberedDirectory o path) := by
  have hlink : print buffers.link 32 (fdDirectory ++ decimal o.descriptor) =
      .ok (filled (fdDirectory ++ decimal o.descriptor ++ [nul]) buffers.link) := by
    have hlength := length_fdPath_lt o.descriptor_lt
    exact print_of_lt hlength (by rw [buffers.length_link]; exact hlength)
  have hread : cStr (filled (fdDirectory ++ decimal o.descriptor ++ [nul]) buffers.link) =
      fdDirectory ++ decimal o.descriptor := takeWhile_filled (nul_notMem_fdPath _) _
  have hname := o.nul_notMem_kernelName
  have hfits := o.length_kernelName_lt
  have htarget : store buffers.target 0 o.kernelName = .ok (filled o.kernelName buffers.target) :=
    store_front (by rw [buffers.length_target]; exact hfits.le)
  have hout : (filled o.kernelName buffers.target).length = pathMax := by
    rw [length_filled (by rw [buffers.length_target]; exact hfits.le), buffers.length_target]
  simp only [cslgRememberDirectory, hlink, hread, bind, Except.bind]
  rw [show (((o.readlink (fdDirectory ++ decimal o.descriptor)).map Subtype.val).getD []).take (pathMax - 1) =
    o.kernelName from rfl, htarget]
  simp only
  by_cases habsolute : IsAbsolute o.kernelName
  · have hkernel : ¬ (o.kernelName.length = 0 ∨ (filled o.kernelName buffers.target).head? ≠ some '/') := by
      obtain ⟨tail, htail⟩ := List.head?_eq_some_iff.mp habsolute
      rw [filled, htail]
      simp
    rw [if_neg hkernel, rememberedDirectory_of_isAbsolute habsolute]
    exact keeps_parentDirectory hdirectory buffers.length_target hname hfits habsolute
  · have hkernel : o.kernelName.length = 0 ∨ (filled o.kernelName buffers.target).head? ≠ some '/' := by
      cases hcases : o.kernelName with
      | nil => exact .inl rfl
      | cons c tail =>
        rw [hcases] at habsolute
        exact .inr habsolute
    rw [if_pos hkernel, rememberedDirectory_of_not_isAbsolute habsolute]
    by_cases hfallback : pathMax ≤ path.length ∨ path.head? ≠ some '/'
    · have hunknown : parentDirectory path = none := by
        refine dif_neg ?_
        rintro ⟨hslash, -, hshort⟩
        exact hfallback.elim (by omega) (absurd hslash)
      rw [if_pos hfallback, hunknown]
      exact ⟨_, keeps_none hdirectory⟩
    · rw [not_or, Nat.not_le, not_not] at hfallback
      have hcopied : store (filled o.kernelName buffers.target) 0 path =
          .ok (filled path (filled o.kernelName buffers.target)) := store_front (by rw [hout]; exact hfallback.1.le)
      rw [if_neg (by rw [not_or, Nat.not_le, not_not]; exact hfallback), hcopied]
      exact keeps_parentDirectory hdirectory hout hpath hfallback.1 hfallback.2

end Kept

/-! ### One open, and one after the other -/

section Run

variable {last : LastOpen} {dir : Option Directory} {c : OpenCall} {path : Text}

/-- The file at a path is opened, when the one before is in the directory. -/
def openFile (dir : Option Directory) (c : OpenCall) (path : Text) : Option Directory × OpenResult :=
  match c.fileAt path with
  | .error e => (dir, ⟨some path, none, c.asks && e == .missing⟩)
  | .ok o    => (rememberedDirectory o path, ⟨some path, some o.descriptor, false⟩)

def openIn (dir : Option Directory) (c : OpenCall) : Option Directory × OpenResult :=
  match pathIn dir c.filename.1 with
  | none      => (dir, ⟨none, none, c.asks⟩)
  | some path => openFile dir c path

def openAllIn : Option Directory → List OpenCall → List OpenResult
  | _, []        => []
  | dir, c :: cs => (openIn dir c).2 :: openAllIn (openIn dir c).1 cs

/-- No file that can be opened has a section-name table the layout check lets escape. -/
def OpenCall.Checkable (c : OpenCall) : Prop := ∀ path o, c.openAt path = .ok o → ¬ NamesUnchecked o.file

lemma OpenedFile.exists_report {o : OpenedFile} (h : ¬ NamesUnchecked o.file) :
    ∃ report, cslgElfLayoutFitsFile o.file o.replies = .ok report ∧ o.fits = report.fits ∧
      o.hasOwnSymtab = report.hasOwnSymtab := by
  obtain ⟨report, hreport⟩ := CallStackLogger.exists_report o.replies h
  refine ⟨report, hreport, ?_, ?_⟩
  · rw [OpenedFile.fits, hreport]
    rfl
  · rw [OpenedFile.hasOwnSymtab, hreport]
    rfl

lemma openPath_eq (hkeeps : Keeps last.directory dir) (hpath : nul ∉ path) (hcheck : c.Checkable) :
    ∃ last', openPath last c path = .ok (last', (openFile dir c path).2) ∧
      Keeps last'.directory (openFile dir c path).1 ∧
      ∀ o, c.fileAt path = .ok o → last'.hasOwnSymtab = o.hasOwnSymtab := by
  rw [openPath, openFile, OpenCall.fileAt]
  cases hopen : c.openAt path with
  | error e => exact ⟨last, rfl, hkeeps, nofun⟩
  | ok o =>
    obtain ⟨report, hreport, hfits, hown⟩ := OpenedFile.exists_report (hcheck path o hopen)
    simp only [Except.bind, bind, pure, Except.pure, hreport, hfits]
    cases hregular : o.regular with
    | false => exact ⟨last, by simp, hkeeps, nofun⟩
    | true =>
      cases hpass : report.fits with
      | false => exact ⟨last, by simp, hkeeps, nofun⟩
      | true =>
        obtain ⟨directory', hkept, hholds⟩ := cslgRememberDirectory_eq c.buffers o hkeeps.length hpath
        refine ⟨⟨directory', report.hasOwnSymtab⟩, ?_, hholds, ?_⟩
        · simp [hkept]
        · intro o' ho'
          obtain rfl := Except.ok.inj ho'
          exact hown.symm

lemma pathIn_of_isAbsolute (h : IsAbsolute path) : pathIn dir path = some path := if_pos h

lemma pathIn_none (h : ¬ IsAbsolute path) : pathIn none path = none := if_neg h

lemma pathIn_some (h : ¬ IsAbsolute path) (dir : Directory) :
    pathIn (some dir) path =
      if (dir.1 ++ ['/'] ++ path).length < pathMax then some (dir.1 ++ ['/'] ++ path) else none := by
  rw [pathIn, if_neg h, Option.map_some, Option.filter_some]
  simp only [decide_eq_true_eq]

lemma isAbsolute_of_pathIn {filename : Text} (h : pathIn dir filename = some path) : IsAbsolute path := by
  by_cases habsolute : IsAbsolute filename
  · rw [pathIn_of_isAbsolute habsolute] at h
    rwa [← Option.some.inj h]
  · cases dir with
    | none =>
      rw [pathIn_none habsolute] at h
      contradiction
    | some dir =>
      rw [pathIn_some habsolute] at h
      split_ifs at h
      rw [← Option.some.inj h]
      exact (dir.2.1.append ['/']).append filename

lemma directoryText_ne_nil (dir : Directory) : directoryText (some dir) ≠ [] := by
  intro hnil
  have habsolute := dir.2.1
  rw [show dir.1 = [] from hnil] at habsolute
  exact absurd habsolute (by decide)

/-- What is printed into a buffer of its size stays inside it. -/
lemma exists_print (text : List Char) {out : List Char} {size : Nat} (h : out.length = size) :
    ∃ out', print out size text = .ok out' := by
  rw [print]
  split_ifs with hzero
  · exact ⟨_, rfl⟩
  · refine ⟨_, store_front ?_⟩
    rw [List.length_append, List.length_take, List.length_singleton]
    omega

/-- A name is opened where it stands for a path, and what is kept is the directory of that. -/
lemma cslgOpenChecked_eq (hkeeps : Keeps last.directory dir) (hcheck : c.Checkable) :
    ∃ last', cslgOpenChecked last c = .ok (last', (openIn dir c).2) ∧ Keeps last'.directory (openIn dir c).1 := by
  rw [cslgOpenChecked, openIn]
  by_cases habsolute : IsAbsolute c.filename.1
  · obtain ⟨last', hopened, hkept, -⟩ := openPath_eq hkeeps c.filename.2 hcheck
    have hslash : c.filename.1.head? = some '/' := habsolute
    rw [if_pos hslash, pathIn_of_isAbsolute habsolute]
    exact ⟨last', hopened, hkept⟩
  · have hrelative : ¬ c.filename.1.head? = some '/' := habsolute
    rw [if_neg hrelative, hkeeps.cStr]
    cases dir with
    | none =>
      rw [pathIn_none habsolute]
      exact ⟨last, rfl, hkeeps⟩
    | some dir =>
      have htext : directoryText (some dir) = dir.1 := rfl
      rw [if_neg (directoryText_ne_nil dir), pathIn_some habsolute, htext]
      by_cases hshort : (dir.1 ++ ['/'] ++ c.filename.1).length < pathMax
      · have hnul : nul ∉ dir.1 ++ ['/'] ++ c.filename.1 := by
          simp only [List.mem_append, not_or]
          exact ⟨⟨dir.2.2.1, by decide⟩, c.filename.2⟩
        obtain ⟨last', hopened, hkept, -⟩ := openPath_eq hkeeps hnul hcheck
        have hprint : print c.buffers.resolved pathMax (dir.1 ++ ['/'] ++ c.filename.1) = _ :=
          print_of_lt hshort (by rw [c.buffers.length_resolved]; exact hshort)
        have hread : cStr (filled (dir.1 ++ ['/'] ++ c.filename.1 ++ ['\x00']) c.buffers.resolved) =
            dir.1 ++ ['/'] ++ c.filename.1 := takeWhile_filled hnul _
        refine ⟨last', ?_, ?_⟩
        · simp only [hprint, bind, Except.bind, hread, if_neg (Nat.not_le.mpr hshort), if_pos hshort]
          exact hopened
        · rw [if_pos hshort]
          exact hkept
      · obtain ⟨resolved, hprint⟩ :=
          exists_print (dir.1 ++ ['/'] ++ c.filename.1) c.buffers.length_resolved
        rw [if_neg hshort]
        refine ⟨last, ?_, hkeeps⟩
        simp only [hprint, bind, Except.bind, if_pos (Nat.le_of_not_lt hshort)]
        rfl

lemma openAll_eq {cs : List OpenCall} (hkeeps : Keeps last.directory dir) (hcheck : ∀ c ∈ cs, c.Checkable) :
    ∃ last', openAll last cs = .ok (last', openAllIn dir cs) ∧ ∃ dir', Keeps last'.directory dir' := by
  induction cs generalizing last dir with
  | nil => exact ⟨last, rfl, dir, hkeeps⟩
  | cons c cs ih =>
    obtain ⟨hc, hcs⟩ := List.forall_mem_cons.mp hcheck
    obtain ⟨opened, hopened, hkept⟩ := cslgOpenChecked_eq hkeeps hc
    obtain ⟨last', hall, hlast'⟩ := ih hkept hcs
    refine ⟨last', ?_, hlast'⟩
    simp only [openAll, hopened, hall, bind, Except.bind]
    rfl

/-- What is opened is named by an absolute path, and a descriptor is one of a regular file that passes the check. -/
structure OpenResult.Sound (cs : List OpenCall) (result : OpenResult) : Prop where
  absolute : ∀ path ∈ result.opened, IsAbsolute path
  checked : ∀ fd ∈ result.descriptor, ∃ c ∈ cs, ∃ path ∈ result.opened, ∃ o, c.openAt path = .ok o ∧
    o.regular = true ∧ Accepts o.file o.replies ∧ o.descriptor = fd

lemma OpenResult.Sound.mono {cs cs' : List OpenCall} {result : OpenResult} (h : result.Sound cs) (hsub : cs ⊆ cs') :
    result.Sound cs' := by
  refine ⟨h.absolute, fun fd hfd => ?_⟩
  obtain ⟨c, hc, hfile⟩ := h.checked fd hfd
  exact ⟨c, hsub hc, hfile⟩

lemma OpenedFile.accepts_of_fits {o : OpenedFile} (h : o.fits = true) : Accepts o.file o.replies := by
  rw [OpenedFile.fits] at h
  cases hreport : cslgElfLayoutFitsFile o.file o.replies with
  | error e =>
    rw [hreport] at h
    contradiction
  | ok report =>
    rw [hreport] at h
    exact ⟨report, hreport, h⟩

lemma exists_of_fileAt {o : OpenedFile} (h : c.fileAt path = .ok o) :
    c.openAt path = .ok o ∧ o.regular = true ∧ Accepts o.file o.replies := by
  rw [OpenCall.fileAt] at h
  cases hopen : c.openAt path with
  | error e =>
    rw [hopen] at h
    contradiction
  | ok o' =>
    simp only [hopen, Except.bind] at h
    split_ifs at h with hpass
    obtain rfl := Except.ok.inj h
    obtain ⟨hregular, hfits⟩ := Bool.and_eq_true_iff.mp hpass
    exact ⟨rfl, hregular, OpenedFile.accepts_of_fits hfits⟩

lemma sound_openFile (hpath : IsAbsolute path) : (openFile dir c path).2.Sound [c] := by
  rw [openFile]
  cases hfile : c.fileAt path with
  | error e =>
    refine ⟨?_, nofun⟩
    rintro path' ⟨⟩
    exact hpath
  | ok o =>
    obtain ⟨hopen, hregular, haccepts⟩ := exists_of_fileAt hfile
    refine ⟨?_, ?_⟩
    · rintro path' ⟨⟩
      exact hpath
    · rintro fd ⟨⟩
      exact ⟨c, List.mem_singleton_self c, path, rfl, o, hopen, hregular, haccepts, rfl⟩

lemma sound_openIn : (openIn dir c).2.Sound [c] := by
  rw [openIn]
  cases hpath : pathIn dir c.filename.1 with
  | none => exact ⟨nofun, nofun⟩
  | some path => exact sound_openFile (isAbsolute_of_pathIn hpath)

lemma sound_openAllIn {cs : List OpenCall} {result : OpenResult} (h : result ∈ openAllIn dir cs) : result.Sound cs := by
  induction cs generalizing dir with
  | nil => contradiction
  | cons c cs ih =>
    rcases List.mem_cons.mp h with rfl | hrest
    · exact sound_openIn.mono ((List.cons_subset_cons _ (List.nil_subset _)))
    · exact (ih hrest).mono (List.subset_cons_self c cs)

end Run

end CallStackLogger
