import CallStackLogger.Elf.Opens
import CallStackLogger.Resolve.Maps

/-!
# Registering a file

`cslg_backtrace_add_file` of `src/backtraceExtension.c` registers an object file with libbacktrace. What it opens starts
with the object file itself and is decided by that registration alone, whatever was opened before.
-/

namespace CallStackLogger

open Checked

/-! ### A registration -/

/-- What `elf_add` does with a file: what it opens on the way, whether it succeeds, and what it has found. -/
structure ElfAdd where
  opens : List OpenCall
  succeeds : Bool
  foundSym : Bool
  foundDwarf : Bool
  filelineFn : Bool

/-- Whether the lookup functions of the `backtrace_state` walk what is registered. -/
structure LookupFunctions where
  syminfoFn : Bool
  filelineFn : Bool
deriving DecidableEq, Repr

/-- `cslg_backtrace_create_state`. -/
def cslgBacktraceCreateState : LookupFunctions := ⟨false, false⟩

/-- What a registration returns. -/
structure AddedFile where
  added : Bool
  hasSymtab : Bool
  hasDwarf : Bool
  hasOwnSymtab : Bool
deriving DecidableEq, Repr

/-- The end of `cslg_backtrace_add_file`, after `elf_add`. -/
def installLookups (state : LookupFunctions) (elf : ElfAdd) (hasOwnSymtab : Bool) : LookupFunctions × AddedFile :=
  if !elf.succeeds && !elf.foundSym then (state, ⟨false, false, false, hasOwnSymtab⟩)
  else
    -- When the debug information is unusable, the symbol table stays registered.
    let foundDwarf := elf.succeeds && elf.foundDwarf
    let filelineFn := elf.succeeds && elf.filelineFn
    ({ syminfoFn := state.syminfoFn || elf.foundSym
       filelineFn := state.filelineFn || (foundDwarf && filelineFn) },
      ⟨true, elf.foundSym, foundDwarf, hasOwnSymtab⟩)

/-- `cslg_backtrace_add_file`, with what it opens. -/
def cslgBacktraceAddFile (state : LookupFunctions) (last : LastOpen) (object : OpenCall) (elf : ElfAdd) :
    Except Fault (LookupFunctions × LastOpen × AddedFile × List OpenResult) := do
  let directory ← store last.directory 0 [nul]
  let (last, result) ← cslgOpenChecked { last with directory := directory } object
  if result.descriptor.isNone then return (state, last, ⟨false, false, false, false⟩, [result])
  let hasOwnSymtab := last.hasOwnSymtab
  let (last, results) ← openAll last elf.opens
  let (state, added) := installLookups state elf hasOwnSymtab
  return (state, last, added, result :: results)

/-- A registration: the resolver passes the path it has found for an object, unless it has found none. -/
structure AddRequest where
  maps : Text
  argv0 : Text
  dliFname : Option Text
  dliFbase : Addr
  object : OpenCall
  elf : ElfAdd
  filename_eq : object.filename.1 = objectFilePath maps argv0 dliFname dliFbase
  filename_ne_nil : object.filename.1 ≠ []

/-- One registration after the other. -/
def addFiles : LookupFunctions → LastOpen → List AddRequest →
    Except Fault (LookupFunctions × LastOpen × List (AddedFile × List OpenResult))
  | state, last, []      => return (state, last, [])
  | state, last, q :: qs => do
    let (state, last, added, results) ← cslgBacktraceAddFile state last q.object q.elf
    let (state, last, rest) ← addFiles state last qs
    return (state, last, (added, results) :: rest)

/-- Before anything is opened. -/
def LastOpen.initial : LastOpen := ⟨List.replicate pathMax nul, false⟩

/-- What a registration returns and opens; nothing of the ones before has a part in it. -/
def AddRequest.outcome (q : AddRequest) : AddedFile × List OpenResult :=
  match q.object.fileAt q.object.filename.1 with
  | .error _ => (⟨false, false, false, false⟩, [(openFile none q.object q.object.filename.1).2])
  | .ok o    =>
    ((installLookups cslgBacktraceCreateState q.elf o.hasOwnSymtab).2,
      (openFile none q.object q.object.filename.1).2 ::
        openAllIn (rememberedDirectory o q.object.filename.1) q.elf.opens)

section Run

variable {last : LastOpen} {dir : Option Directory} {path : Text} {q : AddRequest}

lemma installLookups_eq (state : LookupFunctions) (elf : ElfAdd) (own : Bool) :
    installLookups state elf own =
      (⟨state.syminfoFn || (installLookups cslgBacktraceCreateState elf own).2.hasSymtab,
        state.filelineFn || ((installLookups cslgBacktraceCreateState elf own).2.hasDwarf && elf.filelineFn)⟩,
        (installLookups cslgBacktraceCreateState elf own).2) := by
  obtain ⟨opens, succeeds, foundSym, foundDwarf, filelineFn⟩ := elf
  cases succeeds <;> cases foundSym <;> cases foundDwarf <;> simp [installLookups]

lemma isAbsolute_of_pathBehindBlanks {p : Text} (h : pathBehindBlanks p = some path) : IsAbsolute path := by
  obtain ⟨p', -, h⟩ := Option.bind_eq_some_iff.mp h
  split_ifs at h with hslash
  rwa [← Option.some.inj h]

lemma isAbsolute_of_returnedAt {line : Text} {target : Addr} (h : returnedAt line target = some (some path)) :
    IsAbsolute path := by
  simp only [returnedAt] at h
  split_ifs at h
  obtain ⟨p, -, h⟩ := Option.bind_eq_some_iff.mp (Option.some.inj h)
  exact isAbsolute_of_pathBehindBlanks h

lemma isAbsolute_of_mappedObjectPathIn {target : Addr} {lines : List Text}
    (h : mappedObjectPathIn target lines = some path) : IsAbsolute path := by
  induction lines with
  | nil => contradiction
  | cons line lines ih =>
    rw [mappedObjectPathIn] at h
    cases hreturned : returnedAt line target with
    | none =>
      rw [hreturned] at h
      exact ih h
    | some found =>
      rw [hreturned] at h
      exact isAbsolute_of_returnedAt (hreturned.trans (congrArg some h))

/-- The resolver passes no other path than an absolute one. -/
lemma AddRequest.isAbsolute (q : AddRequest) : IsAbsolute q.object.filename.1 := by
  have hne := q.filename_ne_nil
  rw [q.filename_eq] at hne ⊢
  simp only [objectFilePath] at hne ⊢
  split_ifs at hne ⊢ with hexecutable
  · decide
  · cases hmapped : mappedObjectPath q.maps q.dliFbase with
    | some mapped =>
      rw [hmapped] at hne
      simp only at hne ⊢
      split_ifs at hne ⊢
      · contradiction
      · exact isAbsolute_of_mappedObjectPathIn hmapped
    | none =>
      rw [hmapped] at hne
      cases hname : q.dliFname with
      | none =>
        rw [hname] at hne
        contradiction
      | some name =>
        rw [hname] at hne
        simp only at hne ⊢
        split_ifs at hne ⊢ with hslash
        · exact hslash
        · contradiction

lemma cslgBacktraceAddFile_eq (state : LookupFunctions) (hkeeps : Keeps last.directory dir)
    (hcheck : ∀ c ∈ q.object :: q.elf.opens, c.Checkable) :
    ∃ last', cslgBacktraceAddFile state last q.object q.elf =
        .ok (⟨state.syminfoFn || q.outcome.1.hasSymtab, state.filelineFn || (q.outcome.1.hasDwarf && q.elf.filelineFn)⟩,
          last', q.outcome) ∧
      ∃ dir', Keeps last'.directory dir' := by
  obtain ⟨hobject, hopens⟩ := List.forall_mem_cons.mp hcheck
  obtain ⟨hcleared, hnone⟩ := keeps_none hkeeps.length
  have hstart : Keeps (LastOpen.mk (filled [nul] last.directory) last.hasOwnSymtab).directory none := hnone
  obtain ⟨first, hfirst, hkept, hown⟩ := openPath_eq hstart q.object.filename.2 hobject
  have hopened : cslgOpenChecked ⟨filled [nul] last.directory, last.hasOwnSymtab⟩ q.object = _ :=
    (if_pos q.isAbsolute).trans hfirst
  simp only [cslgBacktraceAddFile, hcleared, hopened, bind, Except.bind, AddRequest.outcome]
  cases hfile : q.object.fileAt q.object.filename.1 with
  | error e =>
    refine ⟨first, ?_, _, hkept⟩
    simp [openFile, hfile, pure, Except.pure]
  | ok o =>
    have hdirectory : (openFile none q.object q.object.filename.1).1 = rememberedDirectory o q.object.filename.1 := by
      rw [openFile, hfile]
    obtain ⟨last', hall, hlast'⟩ := openAll_eq (hdirectory ▸ hkept) hopens
    refine ⟨last', ?_, hlast'⟩
    rw [hown o hfile, installLookups_eq]
    simp [openFile, hfile, hall, pure, Except.pure]

lemma AddRequest.sound_outcome (q : AddRequest) {result : OpenResult} (h : result ∈ q.outcome.2) :
    result.Sound (q.object :: q.elf.opens) := by
  have hobject : (openFile none q.object q.object.filename.1).2.Sound (q.object :: q.elf.opens) :=
    (sound_openFile q.isAbsolute).mono ((List.cons_subset_cons _ (List.nil_subset _)))
  rw [AddRequest.outcome] at h
  cases hfile : q.object.fileAt q.object.filename.1 with
  | error e =>
    rw [hfile] at h
    obtain rfl := List.mem_singleton.mp h
    exact hobject
  | ok o =>
    rw [hfile] at h
    rcases List.mem_cons.mp h with rfl | hrest
    · exact hobject
    · exact (sound_openAllIn hrest).mono (List.subset_cons_self _ _)

lemma addFiles_eq (state : LookupFunctions) (requests : List AddRequest) (hkeeps : Keeps last.directory dir)
    (hcheck : ∀ q ∈ requests, ∀ c ∈ q.object :: q.elf.opens, c.Checkable) :
    ∃ last', addFiles state last requests = .ok
      (⟨state.syminfoFn || requests.any fun q => q.outcome.1.hasSymtab,
        state.filelineFn || requests.any fun q => q.outcome.1.hasDwarf && q.elf.filelineFn⟩,
        last', requests.map AddRequest.outcome) := by
  induction requests generalizing state last dir with
  | nil => exact ⟨last, by simp [addFiles, pure, Except.pure]⟩
  | cons q qs ih =>
    obtain ⟨hq, hqs⟩ := List.forall_mem_cons.mp hcheck
    obtain ⟨next, hadded, dir', hnext⟩ := cslgBacktraceAddFile_eq state hkeeps hq
    obtain ⟨last', hall⟩ := ih ⟨state.syminfoFn || q.outcome.1.hasSymtab,
      state.filelineFn || (q.outcome.1.hasDwarf && q.elf.filelineFn)⟩ hnext hqs
    refine ⟨last', ?_⟩
    simp only [addFiles, hadded, hall, bind, Except.bind, pure, Except.pure, List.any_cons, List.map_cons,
      Bool.or_assoc]

/-- Over any number of registrations no buffer is overrun, and what is opened follows the files alone: a relative
name is looked up next to the file opened last within the same registration, every path is absolute, only regular files
that pass the layout check are handed on, and the flag about an object's own symbol table is never that of a debug file.
The lookups walk what is registered as soon as one file has brought something to look up. -/
theorem opens_follow_the_files (requests : List AddRequest)
    (hcheck : ∀ q ∈ requests, ∀ c ∈ q.object :: q.elf.opens, c.Checkable) :
    (∃ last, addFiles cslgBacktraceCreateState .initial requests = .ok
      (⟨requests.any fun q => q.outcome.1.hasSymtab, requests.any fun q => q.outcome.1.hasDwarf && q.elf.filelineFn⟩,
        last, requests.map AddRequest.outcome)) ∧
    ∀ q ∈ requests, ∀ result ∈ q.outcome.2, result.Sound (q.object :: q.elf.opens) := by
  have hinitial : Keeps LastOpen.initial.directory none := ⟨List.length_replicate, by decide +kernel⟩
  refine ⟨?_, fun q _ _ hresult => q.sound_outcome hresult⟩
  exact addFiles_eq cslgBacktraceCreateState requests hinitial hcheck

/-- Whatever is opened is the same file, and the kernel has one name for it. -/
def openCallOf (filename kernel : CString) : OpenCall where
  filename := filename
  asks := true
  openAt _ := .ok ⟨3, by decide, true, stringTableFile, .granted, fun _ => some kernel⟩
  buffers := ⟨.replicate pathMax nul, .replicate 32 nul, .replicate pathMax nul,
    List.length_replicate, List.length_replicate, List.length_replicate⟩

/-- The executable, its debug file found through a link, and what that links to. -/
def linkedRequest : AddRequest where
  maps := []
  argv0 := "./app".toList
  dliFname := some "./app".toList
  dliFbase := 0
  object := openCallOf ⟨"/proc/self/exe".toList, by decide⟩ ⟨"/srv/app".toList, by decide⟩
  elf := ⟨[openCallOf ⟨"/usr/lib/debug/.build-id/ab/c.debug".toList, by decide⟩
      ⟨"/usr/lib/debug/app.debug".toList, by decide⟩,
    openCallOf ⟨"../.dwz/app".toList, by decide⟩ ⟨"/usr/lib/.dwz/app".toList, by decide⟩], true, true, true, true⟩
  filename_eq := by decide
  filename_ne_nil := by decide

lemma openCallOf_checkable (filename kernel : CString) : (openCallOf filename kernel).Checkable := by
  have htype : (stringTableFile.sectionAt stringTableFile.shstrndx).type ≠ shtNull := by decide +kernel
  rintro path o ⟨⟩ ⟨hnull, -⟩
  exact htype hnull

example : linkedRequest.outcome.2.map OpenResult.opened =
    [some "/proc/self/exe".toList, some "/usr/lib/debug/.build-id/ab/c.debug".toList,
      some "/usr/lib/debug/../.dwz/app".toList] := by decide +kernel

theorem opens_follow_the_files_linked :
    (∃ last, addFiles cslgBacktraceCreateState .initial [linkedRequest, linkedRequest] = .ok
      (⟨true, true⟩, last, [linkedRequest.outcome, linkedRequest.outcome])) ∧
    ∀ q ∈ [linkedRequest, linkedRequest], ∀ result ∈ q.outcome.2, result.Sound (q.object :: q.elf.opens) := by
  have hany : ([linkedRequest, linkedRequest].any fun q => q.outcome.1.hasSymtab) = true := by decide +kernel
  have hdwarf : ([linkedRequest, linkedRequest].any fun q => q.outcome.1.hasDwarf && q.elf.filelineFn) = true := by
    decide +kernel
  have hcheck : ∀ q ∈ [linkedRequest, linkedRequest], ∀ c ∈ q.object :: q.elf.opens, c.Checkable := by
    simp [linkedRequest, openCallOf_checkable]
  have hopens := opens_follow_the_files [linkedRequest, linkedRequest] hcheck
  rwa [hany, hdwarf] at hopens

end Run

end CallStackLogger
