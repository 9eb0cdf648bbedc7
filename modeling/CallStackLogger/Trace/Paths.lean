import CallStackLogger.Format.DurationField

/-!
# The paths of the trace files

`include/traceFilePath.h`: the base path comes from the environment and is anchored to the directory the program was
started in; the file of the main thread has this path, that of another thread its number behind it. The tests read
the number back from the name.
-/

namespace CallStackLogger

/-- `DEFAULT_TRACE_FILENAME`. -/
def defaultTraceFilename : Text := "trace.out".toList

/-- `resolve_base_trace_path`. -/
def resolveBaseTracePath (envValue : Option Text) : Text :=
  match envValue with
  | none     => defaultTraceFilename
  | some env => if env = [] then defaultTraceFilename else env

/-- `make_absolute_trace_path`. -/
def makeAbsoluteTracePath (path : Text) (cwd : Option Text) : Text :=
  match cwd with
  | none     => path
  | some cwd =>
    if path = [] ∨ path.head? = some '/' ∨ cwd = [] then path
    else (if cwd.getLast? = some '/' then cwd else cwd ++ ['/']) ++ path

def tidMark : Text := "_tid_".toList

/-- `build_trace_filename`. -/
def buildTraceFilename (base : Text) (isMain : Bool) (tid : Nat) : Text :=
  if isMain then base else base ++ tidMark ++ decimal tid

/-- `parse_tid_suffix` of the tests; `none` for its -1. -/
def parseTidSuffix (filename base : Text) : Option Nat :=
  if (base ++ tidMark).isPrefixOf filename then readNumber (filename.drop (base ++ tidMark).length) else none

/-! ### The paths are absolute -/

def IsAbsolute (path : Text) : Prop := path.head? = some '/'

instance : DecidablePred IsAbsolute := fun path => inferInstanceAs (Decidable (path.head? = some '/'))

variable {base path cwd : Text} {tid tid' : Nat} {isMain isMain' : Bool}

lemma resolveBaseTracePath_ne_nil (envValue : Option Text) : resolveBaseTracePath envValue ≠ [] := by
  have hdefault : defaultTraceFilename ≠ [] := by decide
  cases envValue with
  | none => exact hdefault
  | some env =>
    simp only [resolveBaseTracePath]
    split_ifs with hempty
    · exact hdefault
    · exact hempty

lemma IsAbsolute.append (h : IsAbsolute base) (rest : Text) : IsAbsolute (base ++ rest) := by
  obtain ⟨tail, rfl⟩ := List.head?_eq_some_iff.mp h
  rfl

/-- A path is anchored when the directory is known, and an absolute one is anchored already. -/
lemma isAbsolute_makeAbsoluteTracePath (hpath : path ≠ []) (hcwd : IsAbsolute cwd) :
    IsAbsolute (makeAbsoluteTracePath path (some cwd)) := by
  have hne : cwd ≠ [] := by
    rintro rfl
    exact absurd hcwd (by decide)
  simp only [makeAbsoluteTracePath]
  split_ifs with hkept hslash
  · rcases hkept with hnil | habsolute | hnil
    · exact absurd hnil hpath
    · exact habsolute
    · exact absurd hnil hne
  · exact hcwd.append path
  · exact (hcwd.append ['/']).append path

lemma makeAbsoluteTracePath_of_isAbsolute (h : IsAbsolute path) (cwd : Option Text) :
    makeAbsoluteTracePath path cwd = path := by
  cases cwd with
  | none => rfl
  | some cwd => exact if_pos (.inr (.inl h))

lemma IsAbsolute.buildTraceFilename (h : IsAbsolute base) (isMain : Bool) (tid : Nat) :
    IsAbsolute (buildTraceFilename base isMain tid) := by
  rw [CallStackLogger.buildTraceFilename]
  split_ifs
  · exact h
  · exact (h.append tidMark).append (decimal tid)

/-! ### Every thread has its own path -/

/-- The number of a thread is read back from the name of its file. -/
lemma parseTidSuffix_worker (base : Text) (tid : Nat) :
    parseTidSuffix (buildTraceFilename base false tid) base = some tid := by
  have hprefix : (base ++ tidMark).isPrefixOf (base ++ tidMark ++ decimal tid) = true :=
    List.isPrefixOf_iff_prefix.mpr (List.prefix_append _ _)
  have hname : buildTraceFilename base false tid = base ++ tidMark ++ decimal tid := rfl
  rw [hname, parseTidSuffix, if_pos hprefix, List.drop_left, readNumber_decimal]

/-- The file of the main thread has no number. -/
lemma parseTidSuffix_main (base : Text) (tid : Nat) :
    parseTidSuffix (buildTraceFilename base true tid) base = none := by
  have hlong : ¬ (base ++ tidMark).isPrefixOf base = true := by
    intro hprefix
    have hlength := (List.isPrefixOf_iff_prefix.mp hprefix).length_le
    have hmark : tidMark.length = 5 := rfl
    rw [List.length_append] at hlength
    omega
  have hname : buildTraceFilename base true tid = base := rfl
  rw [hname, parseTidSuffix, if_neg hlong]

/-- Two threads with one path are both the main thread, or have the same number. -/
lemma buildTraceFilename_inj (h : buildTraceFilename base isMain tid = buildTraceFilename base isMain' tid') :
    isMain = isMain' ∧ (isMain = false → tid = tid') := by
  have hparsed := congrArg (parseTidSuffix · base) h
  cases isMain <;> cases isMain' <;>
    simp only [parseTidSuffix_worker, parseTidSuffix_main, Option.some.injEq, reduceCtorEq] at hparsed
  · exact ⟨rfl, fun _ => hparsed⟩
  · exact ⟨rfl, fun hworker => absurd hworker (by decide)⟩

/-! ### They are all in one directory -/

/-- The path up to its last separator. -/
def directoryOf (path : Text) : Text := (path.reverse.dropWhile (· ≠ '/')).reverse

lemma directoryOf_append {name : Text} (h : '/' ∉ name) (path : Text) :
    directoryOf (path ++ name) = directoryOf path := by
  have hskip : ∀ c ∈ name.reverse, decide (c ≠ '/') = true := by
    intro c hc
    refine decide_eq_true ?_
    rintro rfl
    exact h (List.mem_reverse.mp hc)
  rw [directoryOf, List.reverse_append, List.dropWhile_append_of_pos hskip, directoryOf]

lemma directoryOf_buildTraceFilename (base : Text) (isMain : Bool) (tid : Nat) :
    directoryOf (buildTraceFilename base isMain tid) = directoryOf base := by
  have hdigits : '/' ∉ decimal tid := fun hmem => absurd (isDigit_of_mem_decimal hmem) (by decide)
  have hmark : '/' ∉ tidMark := by decide
  rw [buildTraceFilename]
  split_ifs
  · rfl
  · rw [directoryOf_append hdigits, directoryOf_append hmark]

end CallStackLogger
