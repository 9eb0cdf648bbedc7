import CallStackLogger.Trace.Registry

/-!
# The shutdown protocol

What every step of every interleaving leads to: no pointer of the registry dangles, nothing is closed twice
or by another thread, the shutdown flushes once whatever is registered then, and behind it nothing is
registered and no open leaves a file open. The last of these fails where a run header cannot be built;
`registry_protocol_iff` says that nothing else can go wrong.
-/

namespace CallStackLogger

open Run

variable {τ : Type*} [DecidableEq τ]

/-! ### What is promised -/

/-- What a step leads to. -/
structure RegistryProtocol (b : Build) (s : Registry τ) (ev : RegistryEvent τ) : Prop where
  pointers : ∀ i ∈ (s.step b ev).openFiles,
    ((s.step b ev).owned i).stage ≠ .destroyed ∧ ((s.step b ev).owned i).fp.isSome = true
  registeredOnce : (s.step b ev).openFiles.Nodup
  openedOnce : ((s.step b ev).opened.map Prod.fst).Nodup
  closedOnce : ((s.step b ev).closed.map Prod.fst).Nodup
  closedByOwner : ∀ p ∈ (s.step b ev).closed, p ∈ (s.step b ev).opened
  flushesOnce : (s.step b ev).flushed.length = (s.step b ev).shutdownComplete.toNat
  flushesAll : s.shutdownComplete = false → (s.step b ev).shutdownComplete = true →
    ∃ streams, (s.step b ev).flushed = s.flushed ++ [streams] ∧
      s.openFiles.map (fun i => (s.owned i).fp) = streams.map some ∧
      ∀ h ∈ streams, h ∉ s.closed.map Prod.fst
  staysDown : s.shutdownComplete = true → (s.step b ev).shutdownComplete = true
  cleared : (s.step b ev).shutdownComplete = true → (s.step b ev).openFiles = []
  noNewOpen : s.shutdownComplete = true → ∀ i, ((s.step b ev).owned i).stage.opens = true →
    (s.owned i).stage.opens = true
  nothingLeftOpen : s.shutdownComplete = true → ∀ i, (s.owned i).stage.opens = true →
    ((s.step b ev).owned i).stage.opens = false → ((s.step b ev).owned i).handles = []

/-- No file that is open without its header is left so behind the shutdown. -/
def HeaderBuiltBehindShutdown (s : Registry τ) : RegistryEvent τ → Prop
  | .writeHeader i r => s.shutdownComplete = true → (s.owned i).stage = .published → r.headerBuilt = true
  | _                => True

variable {b : Build} {s : Registry τ} {i j : τ} {f : OwnedFile} {r : OpenReply}

/-! ### Behind the shutdown -/

/-- The thread that takes the step. -/
def RegistryEvent.thread : RegistryEvent τ → Option τ
  | .traceBegin       => none
  | .getThreadFp i    => some i
  | .openCalls i _    => some i
  | .writeHeader i _  => some i
  | .register i _     => some i
  | .exit i           => some i
  | .close i          => some i
  | .shutdown i       => some i
  | .finishShutdown i => some i

/-- A step changes the file of the thread that takes it, and no other. -/
lemma step_owned_ne {ev : RegistryEvent τ} (h : ev.thread ≠ some j) :
    (s.step b ev).owned j = s.owned j := by
  have hne : ∀ {i}, ev.thread = some i → j ≠ i := by
    rintro i hi rfl
    exact h hi
  cases ev with
  | traceBegin => rfl
  | getThreadFp i =>
    simp only [Registry.step, Registry.getThreadFp]
    split_ifs <;> simp [hne rfl]
  | openCalls i r =>
    simp only [Registry.step, Registry.openCalls]
    split_ifs <;> simp [hne rfl]
  | writeHeader i r =>
    simp only [Registry.step, Registry.writeHeader]
    split_ifs <;> simp [hne rfl]
  | register i r =>
    simp only [Registry.step, Registry.register]
    split_ifs <;> simp [hne rfl]
  | exit i =>
    simp only [Registry.step, Registry.exit]
    split_ifs <;> simp [hne rfl]
  | close i =>
    simp only [Registry.step, Registry.close]
    split_ifs <;> simp [hne rfl]
  | shutdown i =>
    simp only [Registry.step, Registry.shutdown]
    split_ifs <;> simp [hne rfl]
  | finishShutdown i =>
    simp only [Registry.step, Registry.finishShutdown]
    split_ifs <;> simp [hne rfl]

/-- How a thread comes out of `open_this_thread_file` once the shutdown is complete: with nothing open,
unless the header could not be built. -/
lemma opens_step (h : RegistrySound s) (hdown : s.shutdownComplete = true) (ev : RegistryEvent τ) (j : τ) :
    (((s.step b ev).owned j).stage.opens = true → (s.owned j).stage.opens = true) ∧
    (HeaderBuiltBehindShutdown s ev → (s.owned j).stage.opens = true →
      ((s.step b ev).owned j).stage.opens = false → ((s.step b ev).owned j).handles = []) := by
  by_cases hthread : ev.thread = some j
  · cases ev with
    | traceBegin => simp [RegistryEvent.thread] at hthread
    | getThreadFp i =>
      have hsame : s.step b (.getThreadFp i) = s := by simp [Registry.step, Registry.getThreadFp, hdown]
      rw [hsame]
      exact ⟨id, fun _ hopens hidle => by simp [hopens] at hidle⟩
    | openCalls i r =>
      obtain rfl : i = j := by simpa [RegistryEvent.thread] using hthread
      simp only [Registry.step, Registry.openCalls]
      split_ifs with hother hfailed
      · exact ⟨id, fun _ hopens hidle => by simp [hopens] at hidle⟩
      · have hnone := ((h.files i).opening (by simpa using hother)).2
        refine ⟨by simp [Stage.opens], fun _ _ _ => ?_⟩
        simp [OwnedFile.handles, hnone, (h.files i).patched hnone]
      all_goals
        have hstage : (s.owned i).stage = .opening := by simpa using hother
        exact ⟨fun _ => by rw [hstage]; rfl, by simp [Stage.opens]⟩
    | writeHeader i r =>
      obtain rfl : i = j := by simpa [RegistryEvent.thread] using hthread
      simp only [Registry.step, Registry.writeHeader]
      split_ifs with hother hbuilt
      · exact ⟨id, fun _ hopens hidle => by simp [hopens] at hidle⟩
      · have hstage : (s.owned i).stage = .published := by simpa using hother
        exact ⟨fun _ => by rw [hstage]; rfl, by simp [Stage.opens]⟩
      · have hstage : (s.owned i).stage = .published := by simpa using hother
        exact ⟨by simp [Stage.opens], fun hheader => absurd (hheader hdown hstage) hbuilt⟩
    | register i r =>
      obtain rfl : i = j := by simpa [RegistryEvent.thread] using hthread
      simp only [Registry.step, Registry.register, hdown, if_true]
      split_ifs with hother
      · exact ⟨id, fun _ hopens hidle => by simp [hopens] at hidle⟩
      · exact ⟨by simp [Stage.opens], fun _ _ _ => by simp [OwnedFile.handles]⟩
    | exit i =>
      obtain rfl : i = j := by simpa [RegistryEvent.thread] using hthread
      simp only [Registry.step, Registry.exit]
      split_ifs with hother hclosed
      · exact ⟨id, fun _ hopens hidle => by simp [hopens] at hidle⟩
      all_goals
        have hstage : (s.owned i).stage = .idle := by simpa using hother
        exact ⟨by simp [Stage.opens], by simp [Stage.opens, hstage]⟩
    | close i =>
      obtain rfl : i = j := by simpa [RegistryEvent.thread] using hthread
      simp only [Registry.step, Registry.close]
      split_ifs with hother hclosed hregistered
      · exact ⟨id, fun _ hopens hidle => by simp [hopens] at hidle⟩
      all_goals
        have hstage : (s.owned i).stage = .closing := by simpa using hother
        exact ⟨by simp [Stage.opens], by simp [Stage.opens, hstage]⟩
    | shutdown i =>
      obtain rfl : i = j := by simpa [RegistryEvent.thread] using hthread
      simp only [Registry.step, Registry.shutdown]
      split_ifs
      all_goals
        simp only [Registry.set_owned_same]
        exact ⟨id, fun _ hopens hidle => by simp [hopens] at hidle⟩
    | finishShutdown i =>
      obtain rfl : i = j := by simpa [RegistryEvent.thread] using hthread
      simp only [Registry.step, Registry.finishShutdown]
      split_ifs
      · exact ⟨id, fun _ hopens hidle => by simp [hopens] at hidle⟩
      · simp only [Registry.set_owned_same]
        exact ⟨id, fun _ hopens hidle => by simp [hopens] at hidle⟩
  · rw [step_owned_ne hthread]
    exact ⟨id, fun _ hopens hidle => by simp [hopens] at hidle⟩

/-- No step but the critical section of the shutdown sets its flag. -/
lemma shutdownComplete_step (b : Build) (s : Registry τ) (ev : RegistryEvent τ) :
    (s.step b ev).shutdownComplete = s.shutdownComplete ∨
      ∃ i, ev = .finishShutdown i ∧ (s.step b ev).shutdownComplete = true ∧
        (s.step b ev).flushed = s.flushed ++ [s.openFiles.filterMap fun j => (s.owned j).fp] := by
  cases ev with
  | traceBegin => exact .inl rfl
  | getThreadFp i =>
    simp only [Registry.step, Registry.getThreadFp]
    split_ifs <;> exact .inl rfl
  | openCalls i r =>
    simp only [Registry.step, Registry.openCalls]
    split_ifs <;> exact .inl rfl
  | writeHeader i r =>
    simp only [Registry.step, Registry.writeHeader]
    split_ifs <;> exact .inl rfl
  | register i r =>
    simp only [Registry.step, Registry.register]
    split_ifs <;> exact .inl rfl
  | exit i =>
    simp only [Registry.step, Registry.exit]
    split_ifs <;> exact .inl rfl
  | close i =>
    simp only [Registry.step, Registry.close]
    split_ifs <;> exact .inl rfl
  | shutdown i =>
    simp only [Registry.step, Registry.shutdown]
    split_ifs <;> exact .inl rfl
  | finishShutdown i =>
    simp only [Registry.step, Registry.finishShutdown]
    split_ifs
    · exact .inl rfl
    · exact .inr ⟨i, rfl, rfl, rfl⟩

omit [DecidableEq τ] in
/-- Every registered file has a stream, and it is still open. -/
lemma RegistrySound.streams (h : RegistrySound s) :
    s.openFiles.map (fun i => (s.owned i).fp) =
        (s.openFiles.filterMap fun i => (s.owned i).fp).map some ∧
      ∀ n ∈ s.openFiles.filterMap fun i => (s.owned i).fp, n ∉ s.closed.map Prod.fst := by
  constructor
  · have hopen : ∀ i ∈ s.openFiles, (s.owned i).fp.isSome = true := fun i hi => ((h.files i).listed hi).1
    generalize s.openFiles = files at hopen
    induction files with
    | nil => rfl
    | cons i files ih =>
      obtain ⟨n, hn⟩ := Option.isSome_iff_exists.mp (hopen i List.mem_cons_self)
      have hrest := ih fun j hj => hopen j (List.mem_cons_of_mem i hj)
      simp [hn, hrest]
  · intro n hn
    obtain ⟨i, -, hfp⟩ := List.mem_filterMap.mp hn
    apply ((h.files i).live n _).2
    simp [OwnedFile.handles, hfp]

lemma registryProtocol_iff (h : RegistrySound s) (ev : RegistryEvent τ) :
    RegistryProtocol b s ev ↔ HeaderBuiltBehindShutdown s ev := by
  constructor
  · intro hprotocol
    cases ev with
    | writeHeader i r =>
      intro hdown hstage
      by_contra hbuilt
      have hleft := hprotocol.nothingLeftOpen hdown i (by rw [hstage]; rfl)
      obtain ⟨n, hn⟩ := Option.isSome_iff_exists.mp ((h.files i).published (.inl hstage))
      simp [Registry.step, Registry.writeHeader, hstage, hbuilt, Stage.opens, OwnedFile.handles, hn] at hleft
    | traceBegin => trivial
    | getThreadFp i => trivial
    | openCalls i r => trivial
    | register i r => trivial
    | exit i => trivial
    | close i => trivial
    | shutdown i => trivial
    | finishShutdown i => trivial
  · intro hheader
    have hnext : RegistrySound (s.step b ev) := h.step ev
    refine ⟨fun i hi => ?_, hnext.registeredOnce, ?_, hnext.closedOnce, hnext.closedByOwner, hnext.flushes,
      fun hup hdown => ?_, fun hdown => ?_, hnext.cleared, fun hdown i => (opens_step h hdown ev i).1,
      fun hdown i => (opens_step h hdown ev i).2 hheader⟩
    · obtain ⟨hopen, -, hstage⟩ := (hnext.files i).listed hi
      refine ⟨?_, hopen⟩
      rcases hstage with hstage | hstage <;> simp [hstage]
    · rw [hnext.numbered]
      exact List.nodup_range
    · rcases shutdownComplete_step b s ev with hsame | ⟨i, -, -, hflushed⟩
      · rw [hsame, hup] at hdown
        simp at hdown
      · exact ⟨_, hflushed, h.streams⟩
    · rcases shutdownComplete_step b s ev with hsame | ⟨i, -, hcomplete, -⟩
      · rwa [hsame]
      · exact hcomplete

/-! ### The open of one thread -/

/-- The file as its own thread sees it. -/
structure Owns (f : OwnedFile) (t : TraceFile) : Prop where
  openAttempted : f.openAttempted = t.openAttempted
  fp : f.fp.isSome = t.fp
  patchFd : f.patchFd.isSome = t.patchFd
  registered : f.registered = t.registered

variable {t : ThreadState}

lemma Owns.of_stage (h : Owns f t.traceFile) (stage : Stage) : Owns { f with stage := stage } t.traceFile :=
  ⟨h.openAttempted, h.fp, h.patchFd, h.registered⟩

lemma openCalls_owns (h : Owns (s.owned i) t.traceFile) (hstage : (s.owned i).stage = .opening)
    (hopened : (!r.pathBuilt || !r.opened || !r.fdopened) = false) :
    ((s.openCalls b i r).owned i).stage = .published ∧
      Owns ((s.openCalls b i r).owned i) (t.publishFile b r).traceFile := by
  simp only [Registry.openCalls, hstage, hopened, bne_self_eq_false, Bool.false_eq_true, if_false,
    Registry.set_owned_same]
  refine ⟨trivial, h.openAttempted, rfl, ?_, h.registered⟩
  simp only [ThreadState.publishFile]
  split_ifs with hreopened
  · exact hreopened.symm
  · simpa using hreopened

lemma register_owns (h : Owns (s.owned i) t.traceFile) (hstage : (s.owned i).stage = .registering)
    (hflag : r.shutdownComplete = s.shutdownComplete) :
    Owns ((s.register i r).owned i) (t.registerFile r).2.traceFile := by
  simp only [Registry.register, ThreadState.registerFile, hstage, ← hflag, bne_self_eq_false, Bool.false_eq_true,
    if_false]
  split_ifs
  · rw [Registry.set_owned_same]
    exact ⟨h.openAttempted, rfl, rfl, h.registered⟩
  · rw [Registry.set_owned_same]
    exact ⟨h.openAttempted, h.fp, h.patchFd, rfl⟩
  · rw [Registry.set_owned_same]
    exact h.of_stage .idle

/-- The three steps of an open leave the file as `openThisThreadFile` does. -/
lemma openThisThreadFile_owns (hstage : (s.owned i).stage = .opening)
    (hattempted : t.traceFile.openAttempted = false)
    (howns : Owns (s.owned i) { t.traceFile with openAttempted := true })
    (hflag : r.shutdownComplete = s.shutdownComplete) :
    Owns ((((s.openCalls b i r).writeHeader i r).register i r).owned i)
      (t.openThisThreadFile b r).2.traceFile := by
  have hattempt : Owns (s.owned i)
      ({ t with traceFile := { t.traceFile with openAttempted := true } } : ThreadState).traceFile := howns
  simp only [ThreadState.openThisThreadFile, hattempted, Bool.false_eq_true, if_false]
  cases hopened : (!r.pathBuilt || !r.opened || !r.fdopened) with
  | true =>
    have hidle : s.openCalls b i r = s.set i { s.owned i with stage := .idle } := by
      simp [Registry.openCalls, hstage, hopened]
    have hleft : ((s.openCalls b i r).writeHeader i r).register i r = s.openCalls b i r := by
      simp [hidle, Registry.writeHeader, Registry.register]
    rw [hleft, hidle, Registry.set_owned_same]
    cases hpath : r.pathBuilt with
    | false => exact hattempt.of_stage .idle
    | true =>
      have hfailed : (!r.opened || !r.fdopened) = true := by simpa [hpath] using hopened
      simp only [hfailed, Bool.not_true, Bool.false_eq_true, if_false, if_true]
      exact hattempt.of_stage .idle
  | false =>
    obtain ⟨hpublished, howned⟩ := openCalls_owns (b := b) hattempt hstage hopened
    have hpath : r.pathBuilt = true := by
      cases hpath : r.pathBuilt with
      | true => rfl
      | false => simp [hpath] at hopened
    have hcalls : (!r.opened || !r.fdopened) = false := by simpa [hpath] using hopened
    have hflag' : r.shutdownComplete = (s.openCalls b i r).shutdownComplete := by
      rcases shutdownComplete_step b s (.openCalls i r) with hsame | ⟨_, hev, -⟩
      · exact hflag.trans hsame.symm
      · exact absurd hev (by simp)
    simp only [hpath, hcalls, Bool.not_true, Bool.false_eq_true, if_false]
    generalize s.openCalls b i r = s₁ at hpublished howned hflag'
    cases hheader : r.headerBuilt with
    | false =>
      have hidle : (s₁.writeHeader i r).register i r = s₁.set i { s₁.owned i with stage := .idle } := by
        simp [Registry.writeHeader, Registry.register, hpublished, hheader]
      rw [hidle, Registry.set_owned_same]
      exact howned.of_stage .idle
    | true =>
      have hheld : s₁.writeHeader i r = s₁.set i { s₁.owned i with stage := .registering } := by
        simp [Registry.writeHeader, hpublished, hheader]
      rw [hheld]
      apply register_owns
      · rw [Registry.set_owned_same]
        exact ⟨howned.openAttempted, howned.fp, howned.patchFd, howned.registered⟩
      · rw [Registry.set_owned_same]
      · exact hflag'

/-- In every interleaving of opens, ends of threads and shutdowns the registry is in order, and nothing is
left open behind the shutdown, exactly when no run header fails to be built there. -/
theorem registry_protocol_iff (b : Build) (evs : List (RegistryEvent τ)) :
    AllSteps (Registry.step b) (RegistryProtocol b) {} evs ↔
      AllSteps (Registry.step b) HeaderBuiltBehindShutdown ({} : Registry τ) evs := by
  apply allSteps_iff_of_invariant (I := RegistrySound) (D := fun _ _ => True)
  · exact fun s ev h _ _ => h.step ev
  · exact fun s ev h _ => registryProtocol_iff h ev
  · exact RegistrySound.fresh
  · exact allSteps_of_forall fun _ _ => trivial

/-- A thread that was let in before the shutdown opens its file behind it, and the header cannot be
built: the file stays open. -/
theorem file_left_open_behind_shutdown :
    ¬ AllSteps (Registry.step ⟨false, true, false⟩) (RegistryProtocol ⟨false, true, false⟩) {}
      [.traceBegin,
       .getThreadFp 1,
       .shutdown 0,
       .finishShutdown 0,
       .openCalls 1 .succeeds,
       .writeHeader (1 : Nat) { OpenReply.succeeds with headerBuilt := false }] := by
  intro h
  have hleft := h.2.2.2.2.2.1.nothingLeftOpen (by decide) 1 (by decide) (by decide)
  exact absurd hleft (by decide)

end CallStackLogger
