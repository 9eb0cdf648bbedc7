import CallStackLogger.Program.Reading
import CallStackLogger.Trace.Paths

/-!
# The files of a process

The threads of a process write to files of their own: `trace_begin` fixes the base path, and a thread opens the file
of its number when it traces its first call. However the threads take turns, and wherever the program changes its
directory in between, every file is what the threads that opened it would have left in it alone, one after the
other; a number the kernel gives again is that of a thread that has ended.
-/

namespace CallStackLogger

open Run

variable {b : Build} {s s' : ThreadState} {w : World} {bounds : StackBounds}

/-! ### Before the file is opened -/

lemma patchLineBytes_of_closed {f : TraceFile} (h : f.patchFd = false) (activation : Nat) (lineStart : Int)
    (offset : Nat) (bytes : Text) : f.patchLineBytes activation lineStart offset bytes = f := if_pos (.inl h)

lemma markFrameEnd_of_closed {f : TraceFile} (h : f.patchFd = false) (b : Build) (r : FrameRecord) (how : Char)
    (field : Option Text) : f.markFrameEnd b r how field = f := by
  simp only [TraceFile.markFrameEnd]
  cases field <;> simp [patchLineBytes_of_closed h]

/-- Nothing can be patched without the second descriptor. -/
lemma popped_of_closed (h : s.traceFile.patchFd = false) (b : Build) (how : Char) (n : Nat) :
    (s.popped b how n).traceFile = s.traceFile := by
  show s.traceFile.markAll b how (s.frames.take n) = s.traceFile
  generalize s.frames.take n = dead
  rw [TraceFile.markAll]
  induction dead with
  | nil => rfl
  | cons r dead ih =>
    have hdead : s.traceFile.markDead b how r = s.traceFile := by
      rw [TraceFile.markDead]
      split_ifs
      · exact markFrameEnd_of_closed h b r how _
      · rfl
    rw [List.foldl_cons, hdead]
    exact ih

lemma popped_openAttempted (s : ThreadState) (b : Build) (how : Char) (n : Nat) :
    (s.popped b how n).traceFile.openAttempted = s.traceFile.openAttempted := by
  obtain ⟨content, patches, hpatched⟩ := patchedTo_markAll s.traceFile b how (s.frames.take n)
  show (s.traceFile.markAll b how (s.frames.take n)).openAttempted = _
  rw [hpatched]

lemma markLeft_of_closed {f : TraceFile} (h : f.patchFd = false) (b : Build) (x : ExitCall) (r : FrameRecord) :
    f.markLeft b x r = f := by
  simp [TraceFile.markLeft, patchLineBytes_of_closed h, markFrameEnd_of_closed h]

lemma openThisThreadFile_attempted (s : ThreadState) (b : Build) (r : OpenReply) :
    (s.openThisThreadFile b r).2.traceFile.openAttempted = true := by
  rw [ThreadState.openThisThreadFile]
  simp only [ThreadState.registerFile]
  split_ifs with hattempted <;> first | exact hattempted | rfl

/-- Asking for the stream tries to open the file or does nothing. -/
lemma getThreadFp_file (s : ThreadState) (b : Build) (r : FpReply) :
    (s.getThreadFp b r).2.traceFile.openAttempted = true ∨ (s.getThreadFp b r).2.traceFile = s.traceFile := by
  have hattempted := openThisThreadFile_attempted s b r.openReply
  rw [ThreadState.getThreadFp]
  split_ifs
  · exact .inr rfl
  · refine .inl ?_
    rcases hopen : s.openThisThreadFile b r.openReply with ⟨_ | _, s'⟩ <;>
      · rw [hopen] at hattempted
        exact hattempted

/-- A stream comes from an attempt to open the file. -/
lemma getThreadFp_attempted (b : Build) {r : FpReply} (h : s.traceFile.hasStream r = true) :
    (s.getThreadFp b r).2.traceFile.openAttempted = true := by
  have hopen := (getThreadFp_fst s b r).mpr h
  have hattempted := openThisThreadFile_attempted s b r.openReply
  rw [ThreadState.getThreadFp] at hopen ⊢
  split_ifs at hopen ⊢
  · simp at hopen
  · rcases hreply : s.openThisThreadFile b r.openReply with ⟨_ | _, s'⟩ <;>
      · rw [hreply] at hattempted
        exact hattempted

/-- Nothing in a step touches the file but an attempt to open it. -/
def OpensOrLeaves (s s' : ThreadState) : Prop :=
  s'.traceFile.openAttempted = true ∨ s'.traceFile = s.traceFile

lemma EnterStep.opensOrLeaves {e : EnterCall} (h : EnterStep b e s s') (hclosed : s.traceFile.patchFd = false) :
    OpensOrLeaves s s' := by
  cases h with
  | overflow hover => exact .inr rfl
  | @unlogged s₀ s₁ hover hslot hquiet hfp =>
    obtain ⟨capacity, rfl, -⟩ := reserveSlot_eq_some hslot
    have hreclaim : (({ s with capacity := capacity } : ThreadState).enterReclaim b e).traceFile = s.traceFile := by
      rw [enterReclaim_eq]
      exact popped_of_closed (s := { s with capacity := capacity }) hclosed b _ _
    rcases hfp with ⟨-, rfl⟩ | ⟨-, rfl⟩
    · exact .inr hreclaim
    · rcases getThreadFp_file (({ s with capacity := capacity } : ThreadState).enterReclaim b e) b e.threadFp with
        hattempted | hsame
      · exact .inl hattempted
      · exact .inr (hsame.trans hreclaim)
  | @logged s₀ s₁ view hover hslot hview hopen hs₁ =>
    have hattempted := getThreadFp_attempted b ((getThreadFp_fst _ b _).mp hopen)
    refine .inl ?_
    rw [hs₁, enterParentReclaim_eq]
    exact (popped_openAttempted _ b _ _).trans hattempted

lemma ExitStep.leaves {x : ExitCall} (h : ExitStep b x s s') (hclosed : s.traceFile.patchFd = false) :
    s'.traceFile = s.traceFile := by
  cases h with
  | drained hover => rfl
  | empty hover hempty => rfl
  | @left record rest hover hrec =>
    have hpopped := popped_of_closed hclosed b frameEndJump (s.aboveExiting x)
    rw [leaveFrame_eq (s := s.popped b frameEndJump (s.aboveExiting x)) hrec]
    simp only [hpopped, markLeft_of_closed hclosed, ite_self]

lemma EventStep.opensOrLeaves {r : LineReply} (h : EventStep b r s s') : OpensOrLeaves s s' := by
  cases h with
  | silent hclosed => exact getThreadFp_file s b r.threadFp
  | line hopen howner hdepth hshort => exact .inl (getThreadFp_attempted b hopen)

lemma CatchStep.opensOrLeaves {c : EventCall} (h : CatchStep b c s s') (hclosed : s.traceFile.patchFd = false) :
    OpensOrLeaves s s' := by
  have hpopped := popped_of_closed hclosed b frameEndException (s.catchDead c)
  cases h with
  | popped hquiet => exact .inr hpopped
  | written hnamed hreads hline =>
    rcases hline.opensOrLeaves with hattempted | hsame
    · exact .inl hattempted
    · exact .inr (hsame.trans hpopped)

/-- What a hook does to a file that is not open. -/
lemma hookStep_opensOrLeaves (b : Build) (ev : HookEvent) (hclosed : s.traceFile.patchFd = false) :
    OpensOrLeaves s (hookStep b s ev) := by
  rcases hookStep_cases b s ev with ⟨e, rfl⟩ | ⟨x, rfl⟩ | hsame | ⟨r, hline⟩ | ⟨c, rfl, hcatch⟩
  · exact (enterStep b e s).opensOrLeaves hclosed
  · exact .inr ((exitStep b x s).leaves hclosed)
  · exact .inr (congrArg ThreadState.traceFile hsame)
  · exact hline.opensOrLeaves
  · exact hcatch.opensOrLeaves hclosed

lemma act_opensOrLeaves (b : Build) (w : World) (a : Action) (hclosed : w.tracer.traceFile.patchFd = false) :
    OpensOrLeaves w.tracer (w.act b a).tracer := by
  rw [World.act_tracer, ThreadState.watch]
  cases a.hook with
  | none => exact .inr rfl
  | some ev => exact hookStep_opensOrLeaves b ev hclosed

lemma getThreadFp_stays (b : Build) (r : FpReply) (h : s.traceFile.openAttempted = true) :
    (s.getThreadFp b r).2.traceFile.openAttempted = true := by
  rw [getThreadFp_of_openAttempted s b r h]
  exact h

lemma EnterStep.attempted {e : EnterCall} (h : EnterStep b e s s') (hattempted : s.traceFile.openAttempted = true) :
    s'.traceFile.openAttempted = true := by
  cases h with
  | overflow hover => exact hattempted
  | @unlogged s₀ s₁ hover hslot hquiet hfp =>
    obtain ⟨capacity, rfl, -⟩ := reserveSlot_eq_some hslot
    have hreclaim : (({ s with capacity := capacity } : ThreadState).enterReclaim b e).traceFile.openAttempted =
        true := by
      rw [enterReclaim_eq]
      exact (popped_openAttempted _ b _ _).trans hattempted
    rcases hfp with ⟨-, rfl⟩ | ⟨-, rfl⟩
    · exact hreclaim
    · exact getThreadFp_stays b e.threadFp hreclaim
  | @logged s₀ s₁ view hover hslot hview hopen hs₁ =>
    have hopened := getThreadFp_attempted b ((getThreadFp_fst _ b _).mp hopen)
    rw [hs₁, enterParentReclaim_eq]
    exact (popped_openAttempted _ b _ _).trans hopened

lemma ExitStep.attempted {x : ExitCall} (h : ExitStep b x s s') (hattempted : s.traceFile.openAttempted = true) :
    s'.traceFile.openAttempted = true := by
  have hpopped := (popped_openAttempted s b frameEndJump (s.aboveExiting x)).trans hattempted
  cases h with
  | drained hover => exact hattempted
  | empty hover hempty => exact hattempted
  | @left record rest hover hrec =>
    rw [leaveFrame_eq (s := s.popped b frameEndJump (s.aboveExiting x)) hrec]
    simp only
    split_ifs
    · obtain ⟨content, patches, hpatched⟩ :=
        patchedTo_markLeft (s.popped b frameEndJump (s.aboveExiting x)).traceFile b x record
      rw [hpatched]
      exact hpopped
    · exact hpopped

lemma EventStep.attempted {r : LineReply} (h : EventStep b r s s') (hattempted : s.traceFile.openAttempted = true) :
    s'.traceFile.openAttempted = true := by
  cases h with
  | silent hclosed => exact getThreadFp_stays b r.threadFp hattempted
  | line hopen howner hdepth hshort => exact getThreadFp_stays b r.threadFp hattempted

lemma CatchStep.attempted {c : EventCall} (h : CatchStep b c s s') (hattempted : s.traceFile.openAttempted = true) :
    s'.traceFile.openAttempted = true := by
  have hpopped := (popped_openAttempted s b frameEndException (s.catchDead c)).trans hattempted
  cases h with
  | popped hquiet => exact hpopped
  | written hnamed hreads hline => exact hline.attempted hpopped

/-- An open that was tried is not tried again. -/
lemma hookStep_attempted (b : Build) (ev : HookEvent) (h : s.traceFile.openAttempted = true) :
    (hookStep b s ev).traceFile.openAttempted = true := by
  rcases hookStep_cases b s ev with ⟨e, rfl⟩ | ⟨x, rfl⟩ | hsame | ⟨r, hline⟩ | ⟨c, rfl, hcatch⟩
  · exact (enterStep b e s).attempted h
  · exact (exitStep b x s).attempted h
  · exact (congrArg (fun s => s.traceFile.openAttempted) hsame).trans h
  · exact hline.attempted h
  · exact hcatch.attempted h

lemma act_attempted (b : Build) (w : World) (a : Action) (h : w.tracer.traceFile.openAttempted = true) :
    (w.act b a).tracer.traceFile.openAttempted = true := by
  rw [World.act_tracer, ThreadState.watch]
  cases a.hook with
  | none => exact h
  | some ev => exact hookStep_attempted b ev h

/-! ### The process -/

/-- A thread the kernel has given a number: its tracer with its frames, the path its open was tried with, and whether
it lives. What it has run is ghost. -/
structure ProcessThread where
  tid : Nat
  bounds : StackBounds
  world : World
  openedAt : Option Text := none
  alive : Bool := true
  ran : List Action := []

def ProcessThread.ended (t : ProcessThread) : ProcessThread := { t with alive := false }

/-- `TraceGlobals` as `trace_begin` leaves it, the directory the program is in, the files by their paths, and the
threads in the order in which they were started. -/
structure Process where
  basePath : Text
  mainTid : Nat
  cwd : Text
  files : Text → Text
  threads : List ProcessThread := []

/-- `trace_begin`, as far as it chooses the base path; `getcwd` may fail. -/
def traceBegin (envValue : Option Text) (mainTid : Nat) (cwd : Text) (getcwdFails : Bool) (files : Text → Text) :
    Process where
  basePath := makeAbsoluteTracePath (resolveBaseTracePath envValue) (if getcwdFails then none else some cwd)
  mainTid := mainTid
  cwd := cwd
  files := files

/-- Where the kernel looks for a path. -/
def kernelPath (cwd path : Text) : Text := if IsAbsolute path then path else cwd ++ ['/'] ++ path

/-- What an open of the file would find in it. -/
def World.loadFile (w : World) (content : Text) : World :=
  { w with
    tracer := { w.tracer with
      traceFile := { w.tracer.traceFile with content := content, preamble := content } } }

inductive ProcessEvent where
  | start (tid : Nat) (bounds : StackBounds)
  | act (i : Nat) (a : Action)
  | exit (i : Nat)
  | chdir (directory : Text)

namespace Process

/-- The path of a thread's file. -/
def traceFilename (p : Process) (tid : Nat) : Text := buildTraceFilename p.basePath (tid = p.mainTid) tid

/-- A thread takes a step; the file it tries to open is looked for from the directory the program is in then. -/
def run (b : Build) (p : Process) (i : Nat) (t : ProcessThread) (a : Action) : Process :=
  let path := t.openedAt.getD (kernelPath p.cwd (p.traceFilename t.tid))
  let before := if t.openedAt.isNone then t.world.loadFile (p.files path) else t.world
  let after := before.act b a
  let attempted := after.tracer.traceFile.openAttempted
  { p with
    files := if attempted then Function.update p.files path after.tracer.traceFile.content else p.files
    threads := p.threads.set i
      { t with world := after, ran := t.ran ++ [a], openedAt := if attempted then some path else none } }

/-- The number of a new thread is that of no living one, and only living threads run. -/
def step (b : Build) (p : Process) : ProcessEvent → Process
  | .start tid bounds =>
    if p.threads.any fun t => t.alive && t.tid = tid then p
    else { p with threads := p.threads ++ [{ tid := tid, bounds := bounds, world := .fresh bounds [] }] }
  | .act i a          =>
    match p.threads[i]? with
    | some t => if t.alive then p.run b i t a else p
    | none   => p
  | .exit i           => { p with threads := p.threads.modify i .ended }
  | .chdir directory  => { p with cwd := directory }

/-- The threads that tried to open the file of a path. -/
def openers (p : Process) (path : Text) : List ProcessThread := p.threads.filter fun t => t.openedAt = some path

end Process

/-- What a thread leaves in a file it has for itself. -/
def ProcessThread.leavesIn (b : Build) (earlier : Text) (t : ProcessThread) : Text :=
  (exec (World.act b) (.fresh t.bounds earlier) t.ran).tracer.traceFile.content

/-- What threads leave in a file one after the other. -/
def replay (b : Build) (earlier : Text) (threads : List ProcessThread) : Text :=
  threads.foldl (ProcessThread.leavesIn b) earlier

/-! ### The threads of a list -/

lemma filter_set_of_not {α : Type*} {q : α → Bool} {l : List α} {i : ℕ} {x y : α} (h : l[i]? = some x)
    (hx : q x = false) (hy : q y = false) : (l.set i y).filter q = l.filter q := by
  induction l generalizing i with
  | nil => rfl
  | cons z l ih =>
    cases i with
    | zero =>
      obtain rfl : z = x := by simpa using h
      simp [hx, hy]
    | succ i => simp only [List.set_cons_succ, List.filter_cons, ih (by simpa using h)]

/-- The threads before one that has none after it. -/
lemma filter_set_of_last {α : Type*} {q : α → Bool} {l : List α} {i : ℕ} {x : α} (hi : i < l.length)
    (hlater : ∀ y ∈ l.drop (i + 1), q y = false) :
    (l.set i x).filter q = (l.take i).filter q ++ if q x then [x] else [] := by
  have hdrop : (l.drop (i + 1)).filter q = [] := by
    rw [List.filter_eq_nil_iff]
    simpa using hlater
  rw [List.set_eq_take_append_cons_drop, if_pos hi, List.filter_append, List.filter_cons, hdrop]

/-! ### The files are those of threads that take turns -/

/-- Between two events: the files are what their threads leave in turn, a path is that of its thread, and a thread
that has not opened its file is as it would be with that file. -/
structure Serial (b : Build) (earlier : Text → Text) (p : Process) : Prop where
  absolute : IsAbsolute p.basePath
  placed : ∀ t ∈ p.threads, ∀ path ∈ t.openedAt, path = p.traceFilename t.tid
  exclusive : ∀ (i j : Nat) (t t' : ProcessThread), i < j → p.threads[i]? = some t → p.threads[j]? = some t' →
    t.tid = t'.tid → t.alive = false
  files_eq : ∀ path, p.files path = replay b (earlier path) (p.openers path)
  idle : ∀ t ∈ p.threads, t.openedAt = none → t.alive = true →
    t.world.tracer.traceFile.openAttempted = false ∧ t.world.tracer.traceFile.patchFd = false ∧
      t.world.loadFile (p.files (p.traceFilename t.tid)) =
        exec (World.act b) (.fresh t.bounds (p.files (p.traceFilename t.tid))) t.ran
  opened : ∀ (i : Nat) (t : ProcessThread), p.threads[i]? = some t → ∀ path ∈ t.openedAt, t.alive = true →
    t.world.tracer.traceFile.openAttempted = true ∧
      t.world = exec (World.act b) (.fresh t.bounds
        (replay b (earlier path) ((p.threads.take i).filter fun t => t.openedAt = some path))) t.ran

variable {earlier : Text → Text} {p : Process}

lemma Serial.begin {envValue : Option Text} {cwd : Text} {getcwdFails : Bool} (mainTid : Nat)
    (habsolute : IsAbsolute (resolveBaseTracePath envValue) ∨ IsAbsolute cwd ∧ getcwdFails = false) :
    Serial b earlier (traceBegin envValue mainTid cwd getcwdFails earlier) where
  absolute := by
    rcases habsolute with henv | ⟨hcwd, hknown⟩
    · rw [traceBegin, makeAbsoluteTracePath_of_isAbsolute henv]
      exact henv
    · rw [traceBegin, hknown]
      exact isAbsolute_makeAbsoluteTracePath (resolveBaseTracePath_ne_nil envValue) hcwd
  placed := by simp [traceBegin]
  exclusive := by simp [traceBegin]
  files_eq := by simp [traceBegin, Process.openers, replay]
  idle := by simp [traceBegin]
  opened := by simp [traceBegin]

lemma loadFile_of_found {content : Text} (hcontent : w.tracer.traceFile.content = content)
    (hpreamble : w.tracer.traceFile.preamble = content) : w.loadFile content = w := by
  subst hcontent
  cases w with
  | mk live dropped tracer =>
    cases tracer with
    | mk depth frames capacity overflow stackBounds cursor cursorValid traceFile entered emptyPop fullPush =>
      cases traceFile
      simp_all [World.loadFile]

namespace Process

lemma traceFilename_inj {tid tid' : Nat} (h : p.traceFilename tid = p.traceFilename tid') : tid = tid' := by
  obtain ⟨hmain, hworker⟩ := buildTraceFilename_inj h
  by_cases htid : tid = p.mainTid
  · simp only [htid, decide_true] at hmain
    rw [htid, of_decide_eq_true hmain.symm]
  · exact hworker (decide_eq_false htid)

end Process

namespace Serial

variable {i j : Nat} {t t' : ProcessThread}

/-- Two living threads have different numbers. -/
lemma alone (h : Serial b earlier p) (hi : p.threads[i]? = some t) (hj : p.threads[j]? = some t')
    (halive : t.alive = true) (halive' : t'.alive = true) (htid : t.tid = t'.tid) : i = j := by
  rcases Nat.lt_trichotomy i j with hlt | heq | hgt
  · simp [h.exclusive i j t t' hlt hi hj htid] at halive
  · exact heq
  · simp [h.exclusive j i t' t hgt hj hi htid.symm] at halive'

/-- The directory the program is in does not matter. -/
lemma path_eq (h : Serial b earlier p) (ht : t ∈ p.threads) :
    t.openedAt.getD (kernelPath p.cwd (p.traceFilename t.tid)) = p.traceFilename t.tid := by
  cases hopened : t.openedAt with
  | none => exact if_pos (h.absolute.buildTraceFilename _ _)
  | some path => exact h.placed t ht path hopened

/-- No thread behind a living one has opened its file. -/
lemma later (h : Serial b earlier p) (hi : p.threads[i]? = some t) (halive : t.alive = true) :
    ∀ t' ∈ p.threads.drop (i + 1), decide (t'.openedAt = some (p.traceFilename t.tid)) = false := by
  intro t' ht'
  obtain ⟨k, hk⟩ := List.mem_iff_getElem?.mp ht'
  rw [List.getElem?_drop] at hk
  refine decide_eq_false fun hopened => ?_
  have htid := p.traceFilename_inj (h.placed t' (List.mem_of_mem_drop ht') _ hopened)
  have hdead := h.exclusive i (i + 1 + k) t t' (by omega) hi hk htid
  simp [hdead] at halive

/-- What a living thread finds in its file, or found there, is what the threads before it left. -/
lemma before_eq (h : Serial b earlier p) (hi : p.threads[i]? = some t) (halive : t.alive = true) :
    (if t.openedAt.isNone then t.world.loadFile (p.files (p.traceFilename t.tid)) else t.world) =
      exec (World.act b) (.fresh t.bounds (replay b (earlier (p.traceFilename t.tid))
        ((p.threads.take i).filter fun t' => t'.openedAt = some (p.traceFilename t.tid)))) t.ran := by
  have ht := List.mem_of_getElem? hi
  cases hopened : t.openedAt with
  | none =>
    have hopeners : p.openers (p.traceFilename t.tid) =
        (p.threads.take i).filter fun t' => t'.openedAt = some (p.traceFilename t.tid) := by
      obtain ⟨hlt, rfl⟩ := List.getElem?_eq_some_iff.mp hi
      have hsplit := filter_set_of_last (x := p.threads[i]) hlt (h.later hi halive)
      rw [List.set_getElem_self] at hsplit
      simpa [Process.openers, hopened] using hsplit
    rw [← hopeners, ← h.files_eq]
    exact (h.idle t ht hopened halive).2.2
  | some path =>
    obtain rfl := h.placed t ht path hopened
    exact (h.opened i t hi _ hopened halive).2

/-- A thread after a step. -/
structure Stepped (b : Build) (earlier : Text → Text) (p : Process) (i : Nat) (t t' : ProcessThread) : Prop where
  same : t'.tid = t.tid ∧ t'.alive = t.alive ∧ t'.bounds = t.bounds
  ran : t'.world = exec (World.act b) (.fresh t'.bounds (replay b (earlier (p.traceFilename t.tid))
    ((p.threads.take i).filter fun t' => t'.openedAt = some (p.traceFilename t.tid)))) t'.ran
  file : t'.openedAt = some (p.traceFilename t.tid) ∧ t'.world.tracer.traceFile.openAttempted = true ∨
    t'.openedAt = none ∧ t.openedAt = none ∧ t'.world.tracer.traceFile.openAttempted = false ∧
      t'.world.tracer.traceFile.patchFd = false ∧
        t'.world.loadFile (p.files (p.traceFilename t.tid)) = t'.world

lemma run_eq (h : Serial b earlier p) (hi : p.threads[i]? = some t) (halive : t.alive = true) (a : Action) :
    ∃ t', Stepped b earlier p i t t' ∧
      p.run b i t a = { p with
        files := if t'.openedAt = none then p.files
          else Function.update p.files (p.traceFilename t.tid) t'.world.tracer.traceFile.content
        threads := p.threads.set i t' } := by
  have ht := List.mem_of_getElem? hi
  have hpath := h.path_eq ht
  have hbefore := h.before_eq hi halive
  rw [Process.run]
  simp only [hpath]
  generalize hb : (if t.openedAt.isNone then t.world.loadFile (p.files (p.traceFilename t.tid)) else t.world) = before
  rw [hb] at hbefore
  have hafter : before.act b a = exec (World.act b) (.fresh t.bounds (replay b (earlier (p.traceFilename t.tid))
      ((p.threads.take i).filter fun t' => t'.openedAt = some (p.traceFilename t.tid)))) (t.ran ++ [a]) := by
    rw [exec_append, ← hbefore]
    rfl
  refine ⟨{ t with
    world := before.act b a
    ran := t.ran ++ [a]
    openedAt := if (before.act b a).tracer.traceFile.openAttempted then some (p.traceFilename t.tid) else none },
    ⟨⟨rfl, rfl, rfl⟩, hafter, ?_⟩, ?_⟩
  · cases hattempted : (before.act b a).tracer.traceFile.openAttempted with
    | true => exact .inl ⟨rfl, rfl⟩
    | false =>
      have hidle : t.openedAt = none := by
        cases hopened : t.openedAt with
        | none => rfl
        | some path =>
          rw [hopened] at hb
          subst hb
          have hstays := act_attempted b t.world a (h.opened i t hi path hopened halive).1
          simp_all
      rw [hidle] at hb
      subst hb
      have hclosed : (t.world.loadFile (p.files (p.traceFilename t.tid))).tracer.traceFile.patchFd = false :=
        (h.idle t ht hidle halive).2.1
      obtain hopens | hleaves := act_opensOrLeaves b _ a hclosed
      · exact absurd (hopens.symm.trans hattempted) (by decide)
      · refine .inr ⟨rfl, hidle, rfl, ?_, loadFile_of_found ?_ ?_⟩
        · exact (congrArg TraceFile.patchFd hleaves).trans hclosed
        · exact congrArg TraceFile.content hleaves
        · exact congrArg TraceFile.preamble hleaves
  · cases (before.act b a).tracer.traceFile.openAttempted <;> rfl

namespace Stepped

/-- The openers of the other paths stay. -/
lemma filter_take (hstep : Stepped b earlier p i t t') (h : Serial b earlier p) (hi : p.threads[i]? = some t)
    {path : Text} (hother : path ≠ p.traceFilename t.tid) (j : Nat) :
    ((p.threads.set i t').take j).filter (fun t => t.openedAt = some path) =
      (p.threads.take j).filter fun t => t.openedAt = some path := by
  have ht : decide (t.openedAt = some path) = false := by
    refine decide_eq_false fun hopened => hother ?_
    exact h.placed t (List.mem_of_getElem? hi) path hopened
  have ht' : decide (t'.openedAt = some path) = false := by
    rcases hstep.file with ⟨hopened, -⟩ | ⟨hopened, -⟩ <;> simp [hopened, Ne.symm hother]
  rcases Nat.lt_or_ge i j with hlt | hle
  · rw [List.take_set]
    exact filter_set_of_not (by rw [List.getElem?_take_of_lt hlt, hi]) ht ht'
  · rw [List.take_set_of_le hle]

lemma files_eq (hstep : Stepped b earlier p i t t') (h : Serial b earlier p) (hi : p.threads[i]? = some t)
    (halive : t.alive = true) (path : Text) :
    (if t'.openedAt = none then p.files
      else Function.update p.files (p.traceFilename t.tid) t'.world.tracer.traceFile.content) path =
      replay b (earlier path) ((p.threads.set i t').filter fun t => t.openedAt = some path) := by
  have hlt := (List.getElem?_eq_some_iff.mp hi).1
  by_cases hother : path = p.traceFilename t.tid
  · subst hother
    rcases hstep.file with ⟨hopened, -⟩ | ⟨hnone, hbefore, -⟩
    · have hleft : t'.world.tracer.traceFile.content = t'.leavesIn b (replay b (earlier (p.traceFilename t.tid))
          ((p.threads.take i).filter fun t' => t'.openedAt = some (p.traceFilename t.tid))) :=
        congrArg (fun w : World => w.tracer.traceFile.content) hstep.ran
      rw [filter_set_of_last hlt (h.later hi halive)]
      simp [hopened, hleft, replay]
    · rw [if_pos hnone, h.files_eq, Process.openers, filter_set_of_not hi (by simp [hbefore]) (by simp [hnone])]
  · have hsame := hstep.filter_take h hi hother p.threads.length
    rw [List.take_of_length_le (by simp), List.take_length] at hsame
    rw [hsame, ← Process.openers, ← h.files_eq]
    split_ifs
    · rfl
    · exact Function.update_of_ne hother _ _

lemma idle (hstep : Stepped b earlier p i t t') (h : Serial b earlier p) (hi : p.threads[i]? = some t)
    (halive : t.alive = true) (hidle : t'.openedAt = none) :
    t'.world.tracer.traceFile.openAttempted = false ∧ t'.world.tracer.traceFile.patchFd = false ∧
      t'.world.loadFile (p.files (p.traceFilename t.tid)) =
        exec (World.act b) (.fresh t'.bounds (p.files (p.traceFilename t.tid))) t'.ran := by
  rcases hstep.file with ⟨hopened, -⟩ | ⟨-, hbefore, hunattempted, hclosed, hloaded⟩
  · simp [hidle] at hopened
  · have hsplit := hstep.files_eq h hi halive (p.traceFilename t.tid)
    rw [if_pos hidle, filter_set_of_last (List.getElem?_eq_some_iff.mp hi).1 (h.later hi halive)] at hsplit
    refine ⟨hunattempted, hclosed, hloaded.trans (hstep.ran.trans ?_)⟩
    simp [hsplit, hidle]

end Stepped

/-- A step of a thread keeps the files as threads that take turns leave them. -/
lemma run (h : Serial b earlier p) (hi : p.threads[i]? = some t) (halive : t.alive = true) (a : Action) :
    Serial b earlier (p.run b i t a) := by
  obtain ⟨t', hstep, hrun⟩ := h.run_eq hi halive a
  obtain ⟨htid, hlives, -⟩ := hstep.same
  have hget : ∀ {j : Nat} {t₂ : ProcessThread}, (p.threads.set i t')[j]? = some t₂ →
      i = j ∧ t₂ = t' ∨ i ≠ j ∧ p.threads[j]? = some t₂ := by
    intro j t₂ hj
    rw [List.getElem?_set] at hj
    split_ifs at hj with hij
    · exact .inl ⟨hij, (Option.some.inj hj).symm⟩
    · exact .inr ⟨hij, hj⟩
  rw [hrun]
  refine ⟨h.absolute, ?_, ?_, hstep.files_eq h hi halive, ?_, ?_⟩
  · intro t₂ ht₂ path hopened
    rcases List.mem_or_eq_of_mem_set ht₂ with hmem | rfl
    · exact h.placed t₂ hmem path hopened
    · rcases hstep.file with ⟨hfile, -⟩ | ⟨hfile, -⟩
      · rw [hfile] at hopened
        rw [← Option.some.inj hopened, ← htid]
        rfl
      · rw [hfile] at hopened
        simp at hopened
  · intro j k t₂ t₃ hjk hj hk hsame
    rcases hget hj with ⟨rfl, rfl⟩ | ⟨-, hj'⟩ <;> rcases hget hk with ⟨rfl, rfl⟩ | ⟨-, hk'⟩
    · omega
    · rw [hlives]
      exact h.exclusive i k t t₃ hjk hi hk' (htid.symm.trans hsame)
    · exact h.exclusive j i t₂ t hjk hj' hi (hsame.trans htid)
    · exact h.exclusive j k t₂ t₃ hjk hj' hk' hsame
  · intro t₂ ht₂ hidle hlive
    obtain ⟨j, hj⟩ := List.mem_iff_getElem?.mp ht₂
    rcases hget hj with ⟨rfl, rfl⟩ | ⟨hij, hj'⟩
    · have hkept := hstep.idle h hi halive hidle
      simpa only [hidle, if_true, Process.traceFilename, htid] using hkept
    · have hother : p.traceFilename t₂.tid ≠ p.traceFilename t.tid := by
        intro hsame
        exact hij (h.alone hi hj' halive hlive (p.traceFilename_inj hsame).symm)
      have hfile : (if t'.openedAt = none then p.files else Function.update p.files (p.traceFilename t.tid)
          t'.world.tracer.traceFile.content) (p.traceFilename t₂.tid) = p.files (p.traceFilename t₂.tid) := by
        split_ifs
        · rfl
        · exact Function.update_of_ne hother _ _
      have hkept := h.idle t₂ (List.mem_of_getElem? hj') hidle hlive
      rw [← hfile] at hkept
      exact hkept
  · intro j t₂ hj path hopened hlive
    rcases hget hj with ⟨rfl, rfl⟩ | ⟨hij, hj'⟩
    · rcases hstep.file with ⟨hfile, hattempted⟩ | ⟨hfile, -⟩
      · obtain rfl : p.traceFilename t.tid = path := Option.some.inj (hfile.symm.trans hopened)
        refine ⟨hattempted, ?_⟩
        rw [List.take_set_of_le le_rfl]
        exact hstep.ran
      · rw [hfile] at hopened
        simp at hopened
    · have hother : path ≠ p.traceFilename t.tid := by
        rw [h.placed t₂ (List.mem_of_getElem? hj') path hopened]
        intro hsame
        exact hij (h.alone hi hj' halive hlive (p.traceFilename_inj hsame).symm)
      rw [hstep.filter_take h hi hother]
      exact h.opened j t₂ hj' path hopened hlive

lemma chdir (h : Serial b earlier p) (directory : Text) : Serial b earlier (p.step b (.chdir directory)) :=
  ⟨h.absolute, h.placed, h.exclusive, h.files_eq, h.idle, h.opened⟩

/-- A new thread has a number of its own and has not opened its file. -/
lemma start (h : Serial b earlier p) (tid : Nat) (bounds : StackBounds) :
    Serial b earlier (p.step b (.start tid bounds)) := by
  rw [Process.step]
  split_ifs with hused
  · exact h
  have hfree : ∀ t ∈ p.threads, t.tid = tid → t.alive = false := by
    intro t ht htid
    by_contra hlive
    exact hused (List.any_eq_true.mpr ⟨t, ht, by simp [htid, Bool.eq_true_of_not_eq_false hlive]⟩)
  generalize hnew : ({ tid := tid, bounds := bounds, world := .fresh bounds [] } : ProcessThread) = new
  have hopened : new.openedAt = none := by rw [← hnew]
  have hget : ∀ {j : Nat} {t₂ : ProcessThread}, (p.threads ++ [new])[j]? = some t₂ →
      j = p.threads.length ∧ t₂ = new ∨ j < p.threads.length ∧ p.threads[j]? = some t₂ := by
    intro j t₂ hj
    rw [List.getElem?_append] at hj
    split_ifs at hj with hlt
    · exact .inr ⟨hlt, hj⟩
    · rw [List.getElem?_singleton] at hj
      split_ifs at hj
      exact .inl ⟨by omega, (Option.some.inj hj).symm⟩
  refine ⟨h.absolute, ?_, ?_, ?_, ?_, ?_⟩
  · intro t₂ ht₂ path hpath
    rcases List.mem_append.mp ht₂ with hmem | hmem
    · exact h.placed t₂ hmem path hpath
    · rw [List.mem_singleton.mp hmem, hopened] at hpath
      simp at hpath
  · intro j k t₂ t₃ hjk hj hk hsame
    rcases hget hj with ⟨rfl, rfl⟩ | ⟨hjlt, hj'⟩ <;> rcases hget hk with ⟨rfl, rfl⟩ | ⟨hklt, hk'⟩
    · omega
    · omega
    · refine hfree t₂ (List.mem_of_getElem? hj') (hsame.trans ?_)
      rw [← hnew]
    · exact h.exclusive j k t₂ t₃ hjk hj' hk' hsame
  · intro path
    rw [Process.openers, List.filter_append]
    simpa [hopened, Process.openers] using h.files_eq path
  · intro t₂ ht₂ hidle hlive
    rcases List.mem_append.mp ht₂ with hmem | hmem
    · exact h.idle t₂ hmem hidle hlive
    · rw [List.mem_singleton.mp hmem, ← hnew]
      exact ⟨rfl, rfl, rfl⟩
  · intro j t₂ hj path hpath hlive
    rcases hget hj with ⟨-, rfl⟩ | ⟨hjlt, hj'⟩
    · rw [hopened] at hpath
      simp at hpath
    · rw [List.take_append_of_le_length hjlt.le]
      exact h.opened j t₂ hj' path hpath hlive

lemma replay_ended (earlier path : Text) (threads : List ProcessThread) (i : Nat) :
    replay b earlier ((threads.modify i .ended).filter fun t => t.openedAt = some path) =
      replay b earlier (threads.filter fun t => t.openedAt = some path) := by
  induction threads generalizing i earlier with
  | nil => simp
  | cons t threads ih =>
    have hopened : t.ended.openedAt = t.openedAt := rfl
    cases i with
    | zero =>
      rw [List.modify_zero_cons, List.filter_cons, List.filter_cons, hopened]
      split_ifs <;> rfl
    | succ i =>
      rw [List.modify_succ_cons, List.filter_cons, List.filter_cons]
      split_ifs
      · exact ih _ i
      · exact ih _ i

/-- A thread that ends leaves its file as it is. -/
lemma exit (h : Serial b earlier p) (i : Nat) : Serial b earlier (p.step b (.exit i)) := by
  have hget : ∀ {j : Nat} {t₂ : ProcessThread}, (p.threads.modify i .ended)[j]? = some t₂ →
      ∃ t, p.threads[j]? = some t ∧ (t₂ = t ∨ t₂ = t.ended) := by
    intro j t₂ hj
    rw [List.getElem?_modify] at hj
    obtain ⟨t, ht, rfl⟩ := Option.map_eq_some_iff.mp hj
    refine ⟨t, ht, ?_⟩
    split_ifs <;> simp
  have hmem : ∀ {t₂ : ProcessThread}, t₂ ∈ p.threads.modify i .ended → ∃ t ∈ p.threads, t₂ = t ∨ t₂ = t.ended := by
    intro t₂ ht₂
    obtain ⟨j, hj⟩ := List.mem_iff_getElem?.mp ht₂
    obtain ⟨t, ht, hsame⟩ := hget hj
    exact ⟨t, List.mem_of_getElem? ht, hsame⟩
  refine ⟨h.absolute, ?_, ?_, ?_, ?_, ?_⟩
  · intro t₂ ht₂ path hpath
    obtain ⟨t, ht, rfl | rfl⟩ := hmem ht₂
    · exact h.placed t₂ ht path hpath
    · exact h.placed t ht path hpath
  · intro j k t₂ t₃ hjk hj hk hsame
    obtain ⟨t, ht, rfl | rfl⟩ := hget hj
    · obtain ⟨t', ht', rfl | rfl⟩ := hget hk
      · exact h.exclusive j k t₂ t₃ hjk ht ht' hsame
      · exact h.exclusive j k t₂ t' hjk ht ht' hsame
    · rfl
  · intro path
    exact (h.files_eq path).trans (replay_ended _ path p.threads i).symm
  · intro t₂ ht₂ hidle hlive
    obtain ⟨t, ht, rfl | rfl⟩ := hmem ht₂
    · exact h.idle t₂ ht hidle hlive
    · exact absurd hlive Bool.false_ne_true
  · intro j t₂ hj path hpath hlive
    obtain ⟨t, ht, rfl | rfl⟩ := hget hj
    · have hkept := h.opened j t₂ ht path hpath hlive
      rw [Process.step, List.take_modify, replay_ended]
      exact hkept
    · exact absurd hlive Bool.false_ne_true

lemma step (h : Serial b earlier p) (e : ProcessEvent) : Serial b earlier (p.step b e) := by
  cases e with
  | start tid bounds => exact h.start tid bounds
  | act i a =>
    rw [Process.step]
    cases hi : p.threads[i]? with
    | none => exact h
    | some t =>
      simp only
      split_ifs with halive
      · exact h.run hi halive a
      · exact h
  | exit i => exact h.exit i
  | chdir directory => exact h.chdir directory

end Serial

/-! ### Whole runs of a process -/

lemma step_basePath (b : Build) (p : Process) (e : ProcessEvent) :
    (p.step b e).basePath = p.basePath ∧ (p.step b e).mainTid = p.mainTid := by
  cases e with
  | start tid bounds =>
    rw [Process.step]
    split_ifs <;> exact ⟨rfl, rfl⟩
  | act i a =>
    rw [Process.step]
    cases p.threads[i]? with
    | none => exact ⟨rfl, rfl⟩
    | some t =>
      simp only
      split_ifs <;> exact ⟨rfl, rfl⟩
  | exit i => exact ⟨rfl, rfl⟩
  | chdir directory => exact ⟨rfl, rfl⟩

lemma exec_basePath (b : Build) (p : Process) (events : List ProcessEvent) :
    (exec (Process.step b) p events).basePath = p.basePath ∧ (exec (Process.step b) p events).mainTid = p.mainTid :=
  exec_invariant (I := fun p' => p'.basePath = p.basePath ∧ p'.mainTid = p.mainTid) (D := fun _ _ => True)
    (fun p' e h _ => ⟨(step_basePath b p' e).1.trans h.1, (step_basePath b p' e).2.trans h.2⟩) ⟨rfl, rfl⟩
    (allSteps_of_forall fun _ _ => trivial)

lemma serial_exec {envValue : Option Text} {cwd : Text} {getcwdFails : Bool} (mainTid : Nat)
    (habsolute : IsAbsolute (resolveBaseTracePath envValue) ∨ IsAbsolute cwd ∧ getcwdFails = false)
    (events : List ProcessEvent) :
    Serial b earlier (exec (Process.step b) (traceBegin envValue mainTid cwd getcwdFails earlier) events) :=
  exec_invariant (D := fun _ _ => True) (fun _ e h _ => h.step e) (.begin mainTid habsolute)
    (allSteps_of_forall fun _ _ => trivial)

/-- Threads write their files as if they took turns. -/
theorem files_in_turn (b : Build) (envValue : Option Text) (mainTid : Nat) (cwd : Text) (getcwdFails : Bool)
    (earlier : Text → Text) (events : List ProcessEvent)
    (habsolute : IsAbsolute (resolveBaseTracePath envValue) ∨ IsAbsolute cwd ∧ getcwdFails = false) :
    let begun := traceBegin envValue mainTid cwd getcwdFails earlier
    let p := exec (Process.step b) begun events
    (∀ path, p.files path = replay b (earlier path) (p.openers path)) ∧
      (∀ t ∈ p.threads, ∀ path ∈ t.openedAt,
        path = begun.traceFilename t.tid ∧ directoryOf path = directoryOf begun.basePath) ∧
      p.threads.Pairwise fun t t' => t.alive = true → t.openedAt.isSome → t.openedAt ≠ t'.openedAt := by
  intro begun p
  have hserial : Serial b earlier p := serial_exec mainTid habsolute events
  obtain ⟨hbase, hmain⟩ := exec_basePath b begun events
  have hname : p.traceFilename = begun.traceFilename := by
    funext tid
    rw [Process.traceFilename, Process.traceFilename, hbase, hmain]
  refine ⟨hserial.files_eq, ?_, ?_⟩
  · intro t ht path hopened
    obtain rfl := hserial.placed t ht path hopened
    rw [hname]
    exact ⟨rfl, directoryOf_buildTraceFilename _ _ _⟩
  · rw [List.pairwise_iff_getElem]
    intro i j hi hj hij hlive hsome hsame
    obtain ⟨path, hopened⟩ := Option.isSome_iff_exists.mp hsome
    have hplaced := hserial.placed _ (List.getElem_mem hi) path hopened
    have hplaced' := hserial.placed _ (List.getElem_mem hj) path (hsame.symm.trans hopened)
    have htid := p.traceFilename_inj (hplaced.symm.trans hplaced')
    have hdead := hserial.exclusive i j _ _ hij (List.getElem?_eq_getElem hi) (List.getElem?_eq_getElem hj) htid
    exact absurd (hdead.symm.trans hlive) Bool.false_ne_true

/-- A worker runs between the steps of the main thread, the program changes its directory, and a second worker is
given the number of the first. -/
def turns : List ProcessEvent :=
  [.start 2 ⟨16, 4096, true⟩, .start 1 ⟨16, 4096, true⟩] ++
    (runCatches.actions.take 2).map (.act 0) ++ runCatches.actions.map (.act 1) ++
      [.chdir "/elsewhere".toList, .exit 1, .start 1 ⟨16, 4096, true⟩] ++
        (runCatches.actions.drop 2).map (.act 0) ++ runCatches.actions.map (.act 2)

theorem files_in_turn_recycled :
    let begun := traceBegin none 2 "/work".toList false fun _ => []
    let p := exec (Process.step ⟨true, true, false⟩) begun turns
    (∀ path, p.files path = replay ⟨true, true, false⟩ [] (p.openers path)) ∧
      (∀ t ∈ p.threads, ∀ path ∈ t.openedAt,
        path = begun.traceFilename t.tid ∧ directoryOf path = directoryOf begun.basePath) ∧
      p.threads.Pairwise fun t t' => t.alive = true → t.openedAt.isSome → t.openedAt ≠ t'.openedAt :=
  files_in_turn _ _ _ _ _ _ turns (.inr ⟨by decide, rfl⟩)

/-- A thread asks the kernel for its number when it opens its file. -/
def Action.Numbered (tid : Nat) (a : Action) : Prop := ∀ ev ∈ a.hook, ∀ r ∈ ev.fpReply, r.openReply.tid = tid

lemma replay_eq_appendTo {threads : List ProcessThread} {sessions : List Session} (before : Text)
    (hran : (threads.map fun t => (t.bounds, t.ran)) =
      sessions.map fun session => (session.bounds, session.calls.actions)) :
    replay b before threads = exec (Session.appendTo b) before sessions := by
  let leave : Text → StackBounds × List Action → Text :=
    fun before x => (exec (World.act b) (.fresh x.1 before) x.2).tracer.traceFile.content
  have hthreads : replay b before threads = (threads.map fun t => (t.bounds, t.ran)).foldl leave before := by
    rw [List.foldl_map]
    rfl
  have hsessions : exec (Session.appendTo b) before sessions =
      (sessions.map fun session => (session.bounds, session.calls.actions)).foldl leave before := by
    rw [List.foldl_map]
    rfl
  rw [hthreads, hran, hsessions]

lemma tid_of_mem_sessionRuns {tid : Nat} {sessions : List Session}
    (h : ∀ session ∈ sessions, ∀ a ∈ session.calls.actions, a.Numbered tid) (before : Text) :
    ∀ r ∈ sessionRuns b before sessions, r.tid = tid := by
  induction sessions generalizing before with
  | nil => simp [sessionRuns]
  | cons session sessions ih =>
    obtain ⟨hsession, hsessions⟩ := List.forall_mem_cons.mp h
    refine List.forall_mem_append.mpr ⟨fun r hr => ?_, ih hsessions _⟩
    obtain ⟨reply, hreply, rfl⟩ := List.mem_map.mp hr
    exact Session.of_mem_openings (P := fun reply => reply.tid = tid) (allSteps_of_forall_mem hsession) reply hreply

/-- The file of a thread reads back as the runs of the threads that had its number, and its name tells the number. -/
theorem thread_file_reads_back (b : Build) (envValue : Option Text) (mainTid : Nat) (cwd : Text) (getcwdFails : Bool)
    (earlier : Text → Text) (events : List ProcessEvent) (path : Text) (sessions : List Session)
    (habsolute : IsAbsolute (resolveBaseTracePath envValue) ∨ IsAbsolute cwd ∧ getcwdFails = false)
    (hnew : earlier path = [])
    (hran : ((exec (Process.step b) (traceBegin envValue mainTid cwd getcwdFails earlier) events).openers path).map
      (fun t => (t.bounds, t.ran)) = sessions.map fun session => (session.bounds, session.calls.actions))
    (hreadable : AllSteps (Session.appendTo b) (fun earlier session => session.Readable b earlier) [] sessions)
    (hnumbered : ∀ t ∈
      (exec (Process.step b) (traceBegin envValue mainTid cwd getcwdFails earlier) events).openers path,
        ∀ a ∈ t.ran, a.Numbered t.tid) :
    let begun := traceBegin envValue mainTid cwd getcwdFails earlier
    let runs := readRuns b ((exec (Process.step b) begun events).files path)
    runs = sessionRuns b [] sessions ∧
      ∀ r ∈ runs, parseTidSuffix path begun.basePath = if r.tid = mainTid then none else some r.tid := by
  intro begun runs
  have hserial : Serial b earlier (exec (Process.step b) begun events) := serial_exec mainTid habsolute events
  obtain ⟨hbase, hmain⟩ := exec_basePath b begun events
  obtain ⟨hcontent, hlegible⟩ := sessionRuns_spec hreadable
  have hfile : (exec (Process.step b) begun events).files path =
      (sessionRuns b [] sessions).flatMap TraceRun.print := by
    rw [hserial.files_eq, hnew, replay_eq_appendTo [] hran, hcontent, List.nil_append]
  have hruns : runs = sessionRuns b [] sessions := (congrArg (readRuns b) hfile).trans (readRuns_print hlegible)
  refine ⟨hruns, hruns ▸ fun r hr => ?_⟩
  have hthreads : ∀ session ∈ sessions, ∃ t ∈ (exec (Process.step b) begun events).openers path,
      t.ran = session.calls.actions := by
    intro session hsession
    have hmem := List.mem_map_of_mem (f := fun session : Session => (session.bounds, session.calls.actions)) hsession
    rw [← hran] at hmem
    obtain ⟨t, ht, hsame⟩ := List.mem_map.mp hmem
    exact ⟨t, ht, congrArg Prod.snd hsame⟩
  have hname : ∀ t ∈ (exec (Process.step b) begun events).openers path, path = begun.traceFilename t.tid := by
    intro t ht
    obtain ⟨ht, hopened⟩ := List.mem_filter.mp ht
    rw [hserial.placed t ht path (of_decide_eq_true hopened), Process.traceFilename, Process.traceFilename, hbase,
      hmain]
  obtain ⟨session, hsession⟩ : ∃ session, session ∈ sessions := by
    cases sessions with
    | nil => simp [sessionRuns] at hr
    | cons session sessions => exact ⟨session, List.mem_cons_self⟩
  obtain ⟨t, ht, -⟩ := hthreads session hsession
  have hall : ∀ session ∈ sessions, ∀ a ∈ session.calls.actions, a.Numbered t.tid := by
    intro session hsession a ha
    obtain ⟨t', ht', hactions⟩ := hthreads session hsession
    rw [begun.traceFilename_inj ((hname t ht).symm.trans (hname t' ht'))]
    exact hnumbered t' ht' a (hactions ▸ ha)
  have hpath : path = buildTraceFilename begun.basePath (t.tid = mainTid) t.tid := hname t ht
  rw [tid_of_mem_sessionRuns hall [] r hr, hpath]
  split_ifs with htid
  · rw [decide_eq_true htid, parseTidSuffix_main]
  · rw [decide_eq_false htid, parseTidSuffix_worker]

lemma numbered_runCatches : ∀ a ∈ runCatches.actions, a.Numbered 1 := by
  simp [runCatches, CallsSoFar.actions, Running.actions, Calls.actions, Action.Numbered, Action.hook,
    HookEvent.fpReply, ExceptionEvent.action, EnterCall.plain, EventCall.plain, LineReply.full, FpReply.ready,
    OpenReply.succeeds]

set_option maxRecDepth 20000 in
lemma ran_turns :
    ((exec (Process.step ⟨true, true, false⟩) (traceBegin none 2 "/work".toList false fun _ => []) turns).openers
      "/work/trace.out_tid_1".toList).map (fun t => (t.tid, t.bounds, t.ran)) =
      [(1, catchSession.bounds, runCatches.actions), (1, catchSession.bounds, runCatches.actions)] := rfl

set_option maxRecDepth 20000 in
theorem thread_file_reads_back_recycled :
    let begun := traceBegin none 2 "/work".toList false fun _ => []
    let runs := readRuns ⟨true, true, false⟩
      ((exec (Process.step ⟨true, true, false⟩) begun turns).files "/work/trace.out_tid_1".toList)
    runs = sessionRuns ⟨true, true, false⟩ [] [catchSession, catchSession] ∧
      ∀ r ∈ runs, parseTidSuffix "/work/trace.out_tid_1".toList begun.basePath =
        if r.tid = 2 then none else some r.tid := by
  refine thread_file_reads_back _ _ _ _ _ _ turns _ [catchSession, catchSession] (.inr ⟨by decide, rfl⟩) rfl
    (List.map_map.symm.trans (congrArg (List.map Prod.snd) ran_turns))
    ⟨readable_catchSession (by decide +kernel) (by decide +kernel),
      readable_catchSession (by decide +kernel) (by decide +kernel), trivial⟩ fun t ht => ?_
  have hmem := List.mem_map_of_mem (f := fun t : ProcessThread => (t.tid, t.bounds, t.ran)) ht
  rw [ran_turns] at hmem
  obtain ⟨htid, -, hran⟩ : t.tid = 1 ∧ t.bounds = catchSession.bounds ∧ t.ran = runCatches.actions := by
    simpa using hmem
  rw [htid, hran]
  exact numbered_runCatches

end CallStackLogger
