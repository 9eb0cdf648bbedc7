import CallStackLogger.Core.Run
import CallStackLogger.Trace.Hooks
import Mathlib.Data.List.Nodup
import Mathlib.Logic.Function.Basic

/-!
# The registry of open files and the shutdown

Threads open their trace files, register them, and close them when they end, while `trace_shutdown` may run
on any thread. Everything that touches `open_files` does so in one critical section, and what a thread does
between two of them interleaves with the other threads. A step is one critical section or one stretch of
code between two; what a step reads of the world is the `OpenReply` of the open it belongs to, the flag of
the shutdown aside, which is read from the state.
-/

namespace CallStackLogger

open Run

/-! ### Threads and their files -/

/-- Where the thread is: outside, on the way through `open_this_thread_file`, or in the destructor of its
file. -/
inductive Stage where
  | idle
  | opening
  | published
  | registering
  | closing
  | destroyed
deriving DecidableEq, Repr

/-- Inside `open_this_thread_file`. -/
def Stage.opens : Stage → Bool
  | .opening     => true
  | .published   => true
  | .registering => true
  | _            => false

/-- `PerThreadTraceFile` as the other threads can see it, and the thread that owns it. `fp` and `patchFd`
number what was opened; `guarded` says that the thread has its re-entrancy guard set for good. -/
structure OwnedFile where
  stage : Stage := .idle
  openAttempted : Bool := false
  fp : Option Nat := none
  patchFd : Option Nat := none
  registered : Bool := false
  guarded : Bool := false
  shuttingDown : Bool := false
deriving DecidableEq, Repr

/-- The stream and the descriptor that are open. -/
def OwnedFile.handles (f : OwnedFile) : List Nat := f.fp.toList ++ f.patchFd.toList

/-- `TraceGlobals`, and the files of all threads. What was opened, what was closed and by whom, and the
streams flushed by each shutdown are ghost. -/
structure Registry (τ : Type*) where
  owned : τ → OwnedFile := fun _ => {}
  traceReady : Bool := false
  shutdownStarted : Bool := false
  shutdownComplete : Bool := false
  openFiles : List τ := []
  opened : List (Nat × τ) := []
  closed : List (Nat × τ) := []
  flushed : List (List Nat) := []

variable {τ : Type*} [DecidableEq τ]

namespace Registry

/-- One field of one thread's file is another. -/
def set (s : Registry τ) (i : τ) (f : OwnedFile) : Registry τ :=
  { s with owned := Function.update s.owned i f }

/-- `get_thread_fp` of a hook: whether it goes on to open the file. -/
def getThreadFp (s : Registry τ) (i : τ) : Registry τ :=
  let f := s.owned i
  if f.guarded || f.stage != .idle || !s.traceReady || s.shutdownComplete || f.openAttempted then s
  else s.set i { f with openAttempted := true, stage := .opening }

/-- The calls that open the file, and the publication of what they opened. -/
def openCalls (s : Registry τ) (b : Build) (i : τ) (r : OpenReply) : Registry τ :=
  let f := s.owned i
  if f.stage != .opening then s
  else if !r.pathBuilt || !r.opened || !r.fdopened then s.set i { f with stage := .idle }
  else
    let fp := s.opened.length
    let patchFd := if b.linePatching && r.reopened then some (fp + 1) else none
    { s.set i { f with stage := .published, fp := some fp, patchFd := patchFd } with
      opened := s.opened ++ (fp :: patchFd.toList).map (·, i) }

/-- `write_run_separator_header`, and the cursor behind it. -/
def writeHeader (s : Registry τ) (i : τ) (r : OpenReply) : Registry τ :=
  let f := s.owned i
  if f.stage != .published then s
  else s.set i { f with stage := if r.headerBuilt then .registering else .idle }

/-- The critical section of `open_this_thread_file`. -/
def register (s : Registry τ) (i : τ) (r : OpenReply) : Registry τ :=
  let f := s.owned i
  if f.stage != .registering then s
  else if s.shutdownComplete then
    { s.set i { f with stage := .idle, fp := none, patchFd := none } with
      closed := s.closed ++ f.handles.map (·, i) }
  else if r.registered then
    { s.set i { f with stage := .idle, registered := true } with openFiles := s.openFiles ++ [i] }
  else s.set i { f with stage := .idle }

/-- `~PerThreadTraceFile` up to its critical section. -/
def exit (s : Registry τ) (i : τ) : Registry τ :=
  let f := s.owned i
  if f.stage != .idle then s
  else s.set i { f with guarded := true, stage := if f.fp.isNone then .destroyed else .closing }

/-- The critical section of `~PerThreadTraceFile`. -/
def close (s : Registry τ) (i : τ) : Registry τ :=
  let f := s.owned i
  if f.stage != .closing then s
  else if f.fp.isNone then s.set i { f with stage := .destroyed, patchFd := none }
  else
    { s.set i { f with stage := .destroyed, fp := none, patchFd := none, registered := false } with
      closed := s.closed ++ f.handles.map (·, i)
      openFiles := if f.registered then s.openFiles.erase i else s.openFiles }

/-- `trace_shutdown` up to its critical section: the first call wins. -/
def shutdown (s : Registry τ) (i : τ) : Registry τ :=
  let f := s.owned i
  if s.shutdownStarted then s.set i { f with guarded := true }
  else { s.set i { f with guarded := true, shuttingDown := true } with shutdownStarted := true }

/-- The critical section of `trace_shutdown`. -/
def finishShutdown (s : Registry τ) (i : τ) : Registry τ :=
  let f := s.owned i
  if !f.shuttingDown then s
  else
    { s.set i { f with shuttingDown := false } with
      flushed := s.flushed ++ [s.openFiles.filterMap fun j => (s.owned j).fp]
      openFiles := []
      shutdownComplete := true }

end Registry

/-- What a thread can do next. An event that the thread is not at changes nothing. -/
inductive RegistryEvent (τ : Type*) where
  | traceBegin
  | getThreadFp (i : τ)
  | openCalls (i : τ) (r : OpenReply)
  | writeHeader (i : τ) (r : OpenReply)
  | register (i : τ) (r : OpenReply)
  | exit (i : τ)
  | close (i : τ)
  | shutdown (i : τ)
  | finishShutdown (i : τ)

/-- One step of one thread. -/
def Registry.step (b : Build) (s : Registry τ) : RegistryEvent τ → Registry τ
  | .traceBegin       => { s with traceReady := true }
  | .getThreadFp i    => s.getThreadFp i
  | .openCalls i r    => s.openCalls b i r
  | .writeHeader i r  => s.writeHeader i r
  | .register i r     => s.register i r
  | .exit i           => s.exit i
  | .close i          => s.close i
  | .shutdown i       => s.shutdown i
  | .finishShutdown i => s.finishShutdown i

/-! ### The invariant -/

/-- The file of one thread. -/
structure FileSound (s : Registry τ) (i : τ) : Prop where
  live : ∀ h ∈ (s.owned i).handles, (h, i) ∈ s.opened ∧ h ∉ s.closed.map Prod.fst
  distinct : (s.owned i).handles.Nodup
  patched : (s.owned i).fp = none → (s.owned i).patchFd = none
  listed : i ∈ s.openFiles → (s.owned i).fp.isSome = true ∧ (s.owned i).registered = true ∧
    ((s.owned i).stage = .idle ∨ (s.owned i).stage = .closing)
  unattempted : (s.owned i).openAttempted = false → (s.owned i).fp = none
  opening : (s.owned i).stage = .opening → (s.owned i).openAttempted = true ∧ (s.owned i).fp = none
  published : (s.owned i).stage = .published ∨ (s.owned i).stage = .registering →
    (s.owned i).fp.isSome = true
  pending : (s.owned i).shuttingDown = true → s.shutdownStarted = true ∧ s.shutdownComplete = false

/-- What holds in every state a run reaches. -/
structure RegistrySound (s : Registry τ) : Prop where
  files : ∀ i, FileSound s i
  numbered : s.opened.map Prod.fst = List.range s.opened.length
  closedOnce : (s.closed.map Prod.fst).Nodup
  closedByOwner : ∀ p ∈ s.closed, p ∈ s.opened
  registeredOnce : s.openFiles.Nodup
  cleared : s.shutdownComplete = true → s.openFiles = []
  started : s.shutdownComplete = true → s.shutdownStarted = true
  flushes : s.flushed.length = s.shutdownComplete.toNat
  winner : ∀ i j, (s.owned i).shuttingDown = true → (s.owned j).shuttingDown = true → i = j

section Frames

omit [DecidableEq τ]

variable {s s' : Registry τ} {i j : τ}

/-- A step that leaves the file of a thread alone. -/
lemma FileSound.frame (h : FileSound s j) (howned : s'.owned j = s.owned j)
    (hopened : ∀ p ∈ s.opened, p ∈ s'.opened)
    (hclosed : ∀ n ∈ (s.owned j).handles, n ∉ s.closed.map Prod.fst → n ∉ s'.closed.map Prod.fst)
    (hlisted : j ∈ s'.openFiles → j ∈ s.openFiles)
    (hpending : (s.owned j).shuttingDown = true → s'.shutdownStarted = true ∧ s'.shutdownComplete = false) :
    FileSound s' j where
  live := by
    rw [howned]
    intro n hn
    obtain ⟨hopen, hlive⟩ := h.live n hn
    exact ⟨hopened _ hopen, hclosed n hn hlive⟩
  distinct := howned ▸ h.distinct
  patched := howned ▸ h.patched
  listed := by
    rw [howned]
    exact fun hj => h.listed (hlisted hj)
  unattempted := howned ▸ h.unattempted
  opening := howned ▸ h.opening
  published := howned ▸ h.published
  pending := by
    rw [howned]
    exact hpending

/-- What is open belongs to one thread. -/
lemma RegistrySound.owner_unique (h : RegistrySound s) {n : Nat} (hi : (n, i) ∈ s.opened)
    (hj : (n, j) ∈ s.opened) : i = j := by
  have hnodup : (s.opened.map Prod.fst).Nodup := by
    rw [h.numbered]
    exact List.nodup_range
  exact congrArg Prod.snd (List.inj_on_of_nodup_map hnodup hi hj rfl)

lemma RegistrySound.lt_of_opened (h : RegistrySound s) {p : Nat × τ} (hp : p ∈ s.opened) :
    p.1 < s.opened.length := by
  have hmem := List.mem_map_of_mem (f := Prod.fst) hp
  rw [h.numbered] at hmem
  exact List.mem_range.mp hmem

end Frames

variable {b : Build} {s : Registry τ} {i j : τ} {f : OwnedFile} {r : OpenReply}

namespace Registry

@[simp] lemma set_owned_same (s : Registry τ) (i : τ) (f : OwnedFile) : (s.set i f).owned i = f := by
  simp [set]

@[simp] lemma set_owned_ne (s : Registry τ) (f : OwnedFile) (h : j ≠ i) :
    (s.set i f).owned j = s.owned j := by
  simp [set, h]

end Registry

namespace RegistrySound

/-- Threads shut down as before. -/
lemma winner_set (h : RegistrySound s) (hdown : f.shuttingDown = (s.owned i).shuttingDown) (j k : τ)
    (hj : ((s.set i f).owned j).shuttingDown = true) (hk : ((s.set i f).owned k).shuttingDown = true) :
    j = k := by
  have hsame : ∀ j, ((s.set i f).owned j).shuttingDown = (s.owned j).shuttingDown := by
    intro j
    by_cases hj : j = i
    · rw [hj, Registry.set_owned_same, hdown]
    · rw [Registry.set_owned_ne s f hj]
  rw [hsame] at hj hk
  exact h.winner j k hj hk

/-- A step within one thread that opens and closes nothing. -/
lemma set (h : RegistrySound s) (hfp : f.fp = (s.owned i).fp) (hpatchFd : f.patchFd = (s.owned i).patchFd)
    (hdown : f.shuttingDown = (s.owned i).shuttingDown)
    (hattempted : f.openAttempted = false → (s.owned i).openAttempted = false)
    (hlisted : i ∈ s.openFiles → f.registered = true ∧ (f.stage = .idle ∨ f.stage = .closing))
    (hopening : f.stage = .opening → f.openAttempted = true ∧ f.fp = none)
    (hpublished : f.stage = .published ∨ f.stage = .registering → f.fp.isSome = true) :
    RegistrySound (s.set i f) where
  files := by
    intro j
    by_cases hj : j = i
    · subst hj
      have hfile := h.files j
      have hhandles : f.handles = (s.owned j).handles := by
        rw [OwnedFile.handles, OwnedFile.handles, hfp, hpatchFd]
      constructor <;> rw [Registry.set_owned_same]
      · rw [hhandles]
        exact hfile.live
      · rw [hhandles]
        exact hfile.distinct
      · rw [hfp, hpatchFd]
        exact hfile.patched
      · intro hj
        rw [hfp]
        exact ⟨(hfile.listed hj).1, hlisted hj⟩
      · intro hnone
        rw [hfp]
        exact hfile.unattempted (hattempted hnone)
      · exact hopening
      · exact hpublished
      · rw [hdown]
        exact hfile.pending
    · exact (h.files j).frame (Registry.set_owned_ne s f hj) (fun _ hp => hp) (fun _ _ hn => hn) id
        (h.files j).pending
  numbered := h.numbered
  closedOnce := h.closedOnce
  closedByOwner := h.closedByOwner
  registeredOnce := h.registeredOnce
  cleared := h.cleared
  started := h.started
  flushes := h.flushes
  winner := h.winner_set hdown

lemma getThreadFp (h : RegistrySound s) (i : τ) : RegistrySound (s.getThreadFp i) := by
  simp only [Registry.getThreadFp]
  split_ifs with hstop
  · exact h
  · simp only [Bool.or_eq_true, not_or, Bool.not_eq_true, bne_eq_false_iff_eq] at hstop
    have hnone := (h.files i).unattempted hstop.2
    apply RegistrySound.set h
    · rfl
    · rfl
    · rfl
    · simp
    · intro hi
      have hopen := ((h.files i).listed hi).1
      simp [hnone] at hopen
    · exact fun _ => ⟨rfl, hnone⟩
    · simp

lemma writeHeader (h : RegistrySound s) (i : τ) (r : OpenReply) : RegistrySound (s.writeHeader i r) := by
  simp only [Registry.writeHeader]
  split_ifs with hother hbuilt
  · exact h
  all_goals
    have hstage : (s.owned i).stage = .published := by simpa using hother
    have hopen := (h.files i).published (.inl hstage)
    have hunlisted : i ∉ s.openFiles := by
      intro hi
      have hlisted := ((h.files i).listed hi).2.2
      simp [hstage] at hlisted
    apply RegistrySound.set h
    · rfl
    · rfl
    · rfl
    · exact id
    · exact fun hi => absurd hi hunlisted
    · simp
    · exact fun _ => hopen

lemma exit (h : RegistrySound s) (i : τ) : RegistrySound (s.exit i) := by
  simp only [Registry.exit]
  split_ifs with hother hclosed
  · exact h
  · have hnone : (s.owned i).fp = none := by simpa using hclosed
    apply RegistrySound.set h
    · rfl
    · rfl
    · rfl
    · exact id
    · intro hi
      have hopen := ((h.files i).listed hi).1
      simp [hnone] at hopen
    · simp
    · simp
  · apply RegistrySound.set h
    · rfl
    · rfl
    · rfl
    · exact id
    · exact fun hi => ⟨((h.files i).listed hi).2.1, .inr rfl⟩
    · simp
    · simp

/-- Publishing what was opened. -/
lemma publish (h : RegistrySound s) (hstage : (s.owned i).stage = .opening) {patchFd : Option Nat}
    (hpatchFd : ∀ n ∈ patchFd, n = s.opened.length + 1) :
    RegistrySound
      { s.set i { s.owned i with stage := .published, fp := some s.opened.length, patchFd := patchFd } with
        opened := s.opened ++ (s.opened.length :: patchFd.toList).map (·, i) } where
  files := by
    intro j
    by_cases hj : j = i
    · subst hj
      have hopening := (h.files j).opening hstage
      have hnew : ∀ n, s.opened.length ≤ n → n ∉ s.closed.map Prod.fst := by
        intro n hn hclosed
        obtain ⟨p, hp, rfl⟩ := List.mem_map.mp hclosed
        exact absurd (h.lt_of_opened (h.closedByOwner p hp)) (Nat.not_lt.mpr hn)
      constructor <;> simp only [Registry.set_owned_same, OwnedFile.handles]
      · intro n hn
        have hn : n ∈ s.opened.length :: patchFd.toList := hn
        refine ⟨List.mem_append_right _ (List.mem_map_of_mem hn), hnew n ?_⟩
        rcases List.mem_cons.mp hn with rfl | hn
        · exact Nat.le_refl _
        · rw [hpatchFd n (Option.mem_toList.mp hn)]
          exact Nat.le_succ _
      · cases patchFd with
        | none => simp
        | some n => simp [hpatchFd n rfl]
      · simp
      · intro hlisted
        have hopen := ((h.files j).listed hlisted).1
        simp [hopening.2] at hopen
      · simp [hopening.1]
      · simp
      · simp
      · exact (h.files j).pending
    · apply FileSound.frame (h.files j)
      · exact Registry.set_owned_ne s _ hj
      · exact fun p hp => List.mem_append_left _ hp
      · exact fun _ _ hn => hn
      · exact id
      · exact (h.files j).pending
  numbered := by
    cases patchFd with
    | none => simp [h.numbered, List.range_succ]
    | some n => simp [h.numbered, List.range_succ, hpatchFd n rfl]
  closedOnce := h.closedOnce
  closedByOwner := fun p hp => List.mem_append_left _ (h.closedByOwner p hp)
  registeredOnce := h.registeredOnce
  cleared := h.cleared
  started := h.started
  flushes := h.flushes
  winner := h.winner_set rfl

lemma openCalls (h : RegistrySound s) (b : Build) (i : τ) (r : OpenReply) : RegistrySound (s.openCalls b i r) := by
  simp only [Registry.openCalls]
  split_ifs with hother hfailed
  · exact h
  · have hopening := (h.files i).opening (by simpa using hother)
    apply RegistrySound.set h
    · rfl
    · rfl
    · rfl
    · exact id
    · intro hlisted
      have hopen := ((h.files i).listed hlisted).1
      simp [hopening.2] at hopen
    · simp
    · simp
  all_goals
    apply h.publish (by simpa using hother)
    simp

/-- Closing what the thread has open, wherever it goes from there. -/
lemma closeFile (h : RegistrySound s) {stage : Stage} {registered : Bool} {openFiles : List τ}
    (hstage : stage = .idle ∨ stage = .destroyed) (hsublist : openFiles.Sublist s.openFiles)
    (hunlisted : i ∉ openFiles) :
    RegistrySound
      { s.set i { s.owned i with stage := stage, fp := none, patchFd := none, registered := registered } with
        closed := s.closed ++ (s.owned i).handles.map (·, i)
        openFiles := openFiles } where
  files := by
    intro j
    by_cases hj : j = i
    · subst hj
      constructor <;> simp only [Registry.set_owned_same, OwnedFile.handles]
      · simp
      · simp
      · simp
      · exact fun hlisted => absurd hlisted hunlisted
      · simp
      · rcases hstage with rfl | rfl <;> simp
      · rcases hstage with rfl | rfl <;> simp
      · exact (h.files j).pending
    · apply FileSound.frame (h.files j)
      · exact Registry.set_owned_ne s _ hj
      · exact fun _ hp => hp
      · intro n hn hlive hclosed
        rw [List.map_append, List.mem_append, List.map_map] at hclosed
        rcases hclosed with hclosed | hclosed
        · exact hlive hclosed
        · obtain ⟨m, hm, rfl⟩ := List.mem_map.mp hclosed
          exact hj (h.owner_unique ((h.files j).live m hn).1 ((h.files i).live m hm).1)
      · exact fun hlisted => hsublist.subset hlisted
      · exact (h.files j).pending
  numbered := h.numbered
  closedOnce := by
    have hhandles : ((s.owned i).handles.map (·, i)).map Prod.fst = (s.owned i).handles := by
      simp [List.map_map, Function.comp_def]
    rw [List.map_append, hhandles]
    refine List.nodup_append.mpr ⟨h.closedOnce, (h.files i).distinct, ?_⟩
    rintro n hclosed m hm rfl
    exact ((h.files i).live n hm).2 hclosed
  closedByOwner := by
    intro p hp
    rcases List.mem_append.mp hp with hp | hp
    · exact h.closedByOwner p hp
    · obtain ⟨n, hn, rfl⟩ := List.mem_map.mp hp
      exact ((h.files i).live n hn).1
  registeredOnce := hsublist.nodup h.registeredOnce
  cleared := by
    intro hdown
    have hnil := h.cleared hdown
    rw [hnil] at hsublist
    exact List.sublist_nil.mp hsublist
  started := h.started
  flushes := h.flushes
  winner := h.winner_set rfl

omit [DecidableEq τ] in
/-- A thread in its critical section is not registered yet. -/
lemma notMem_of_registering (h : RegistrySound s) (hstage : (s.owned i).stage = .registering) :
    i ∉ s.openFiles := by
  intro hi
  have hlisted := ((h.files i).listed hi).2.2
  simp [hstage] at hlisted

lemma register (h : RegistrySound s) (i : τ) (r : OpenReply) : RegistrySound (s.register i r) := by
  simp only [Registry.register]
  split_ifs with hother hdown hroom
  · exact h
  · have hstage : (s.owned i).stage = .registering := by simpa using hother
    exact h.closeFile (.inl rfl) (List.Sublist.refl _) (h.notMem_of_registering hstage)
  · have hstage : (s.owned i).stage = .registering := by simpa using hother
    have hopen := (h.files i).published (.inr hstage)
    have hunlisted := h.notMem_of_registering hstage
    exact {
      files := by
        intro j
        by_cases hj : j = i
        · subst hj
          have hfile := h.files j
          constructor <;> simp only [Registry.set_owned_same]
          · exact hfile.live
          · exact hfile.distinct
          · exact hfile.patched
          · exact fun _ => ⟨hopen, trivial, .inl trivial⟩
          · exact hfile.unattempted
          · simp
          · simp
          · exact hfile.pending
        · apply FileSound.frame (h.files j)
          · exact Registry.set_owned_ne s _ hj
          · exact fun _ hp => hp
          · exact fun _ _ hn => hn
          · intro hlisted
            rcases List.mem_append.mp hlisted with hlisted | hlisted
            · exact hlisted
            · exact absurd (List.mem_singleton.mp hlisted) hj
          · exact (h.files j).pending
      numbered := h.numbered
      closedOnce := h.closedOnce
      closedByOwner := h.closedByOwner
      registeredOnce := by
        refine List.nodup_append.mpr ⟨h.registeredOnce, by simp, ?_⟩
        rintro j hj k hk rfl
        exact hunlisted (List.mem_singleton.mp hk ▸ hj)
      cleared := fun hdown' => absurd hdown' hdown
      started := h.started
      flushes := h.flushes
      winner := h.winner_set rfl }
  · have hstage : (s.owned i).stage = .registering := by simpa using hother
    apply RegistrySound.set h
    · rfl
    · rfl
    · rfl
    · exact id
    · exact fun hlisted => absurd hlisted (h.notMem_of_registering hstage)
    · simp
    · simp

lemma close (h : RegistrySound s) (i : τ) : RegistrySound (s.close i) := by
  simp only [Registry.close]
  split_ifs with hother hclosed hregistered
  · exact h
  · have hnone : (s.owned i).fp = none := by simpa using hclosed
    have hpatchFd := (h.files i).patched hnone
    apply RegistrySound.set h
    · rfl
    · exact hpatchFd.symm
    · rfl
    · exact id
    · intro hlisted
      have hopen := ((h.files i).listed hlisted).1
      simp [hnone] at hopen
    · simp
    · simp
  · exact h.closeFile (.inr rfl) List.erase_sublist h.registeredOnce.not_mem_erase
  · apply h.closeFile (.inr rfl) (List.Sublist.refl _)
    exact fun hlisted => hregistered ((h.files i).listed hlisted).2.1

/-- Nothing but the guards of the shutdown changes. -/
lemma shutdown (h : RegistrySound s) (i : τ) : RegistrySound (s.shutdown i) := by
  simp only [Registry.shutdown]
  split_ifs with hstarted
  · apply RegistrySound.set h
    · rfl
    · rfl
    · rfl
    · exact id
    · exact fun hlisted => ((h.files i).listed hlisted).2
    · exact (h.files i).opening
    · exact (h.files i).published
  · have hquiet : ∀ j, (s.owned j).shuttingDown = false := by
      intro j
      by_contra hdown
      exact hstarted ((h.files j).pending (by simpa using hdown)).1
    have hup : s.shutdownComplete = false := by
      by_contra hdown
      exact hstarted (h.started (by simpa using hdown))
    exact {
      files := by
        intro j
        by_cases hj : j = i
        · subst hj
          have hfile := h.files j
          constructor <;> simp only [Registry.set_owned_same]
          · exact hfile.live
          · exact hfile.distinct
          · exact hfile.patched
          · exact hfile.listed
          · exact hfile.unattempted
          · exact hfile.opening
          · exact hfile.published
          · exact fun _ => ⟨trivial, hup⟩
        · apply FileSound.frame (h.files j)
          · exact Registry.set_owned_ne s _ hj
          · exact fun _ hp => hp
          · exact fun _ _ hn => hn
          · exact id
          · intro hdown
            simp [hquiet j] at hdown
      numbered := h.numbered
      closedOnce := h.closedOnce
      closedByOwner := h.closedByOwner
      registeredOnce := h.registeredOnce
      cleared := h.cleared
      started := fun _ => rfl
      flushes := h.flushes
      winner := by
        have honly : ∀ f j, ((s.set i f).owned j).shuttingDown = true → j = i := by
          intro f j hdown
          by_contra hj
          rw [Registry.set_owned_ne s f hj] at hdown
          simp [hquiet j] at hdown
        exact fun j k hj hk => (honly _ j hj).trans (honly _ k hk).symm }

lemma finishShutdown (h : RegistrySound s) (i : τ) : RegistrySound (s.finishShutdown i) := by
  simp only [Registry.finishShutdown]
  split_ifs with hother
  · exact h
  · have hdown : (s.owned i).shuttingDown = true := by simpa using hother
    have hup := ((h.files i).pending hdown).2
    have hflushes := h.flushes
    rw [hup] at hflushes
    exact {
      files := by
        intro j
        by_cases hj : j = i
        · subst hj
          have hfile := h.files j
          constructor <;> simp only [Registry.set_owned_same]
          · exact hfile.live
          · exact hfile.distinct
          · exact hfile.patched
          · simp
          · exact hfile.unattempted
          · exact hfile.opening
          · exact hfile.published
          · simp
        · apply FileSound.frame (h.files j)
          · exact Registry.set_owned_ne s _ hj
          · exact fun _ hp => hp
          · exact fun _ _ hn => hn
          · simp
          · exact fun hdown' => absurd (h.winner j i hdown' hdown) hj
      numbered := h.numbered
      closedOnce := h.closedOnce
      closedByOwner := h.closedByOwner
      registeredOnce := List.nodup_nil
      cleared := fun _ => rfl
      started := fun _ => ((h.files i).pending hdown).1
      flushes := by simpa using hflushes
      winner := by
        have hnone : ∀ j, ((s.set i { s.owned i with shuttingDown := false }).owned j).shuttingDown = false := by
          intro j
          by_cases hj : j = i
          · rw [hj, Registry.set_owned_same]
          · rw [Registry.set_owned_ne s _ hj]
            by_contra hdown'
            exact hj (h.winner j i (by simpa using hdown') hdown)
        intro j k hj
        exact absurd (hj.symm.trans (hnone j)) (by simp) }

lemma step (h : RegistrySound s) (ev : RegistryEvent τ) : RegistrySound (s.step b ev) := by
  cases ev with
  | traceBegin =>
    exact ⟨fun i => (h.files i).frame rfl (fun _ hp => hp) (fun _ _ hn => hn) id (h.files i).pending,
      h.numbered, h.closedOnce, h.closedByOwner, h.registeredOnce, h.cleared, h.started, h.flushes, h.winner⟩
  | getThreadFp i => exact h.getThreadFp i
  | openCalls i r => exact h.openCalls b i r
  | writeHeader i r => exact h.writeHeader i r
  | register i r => exact h.register i r
  | exit i => exact h.exit i
  | close i => exact h.close i
  | shutdown i => exact h.shutdown i
  | finishShutdown i => exact h.finishShutdown i

omit [DecidableEq τ] in
lemma fresh : RegistrySound ({} : Registry τ) where
  files := fun i => by constructor <;> simp [OwnedFile.handles]
  numbered := rfl
  closedOnce := List.nodup_nil
  closedByOwner := by simp
  registeredOnce := List.nodup_nil
  cleared := fun _ => rfl
  started := by simp
  flushes := rfl
  winner := by simp

end RegistrySound

end CallStackLogger
