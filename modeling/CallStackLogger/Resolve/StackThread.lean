import CallStackLogger.Resolve.Agreement
import CallStackLogger.Resolve.CallStack

/-!
# The call stack of a thread

`get_call_stack` over the cached resolver: a thread resolves its frames one by one while the other threads go
on with their own calls. Its entries are those of a resolver that has no cache, in whatever order the steps of
the threads are taken.
-/

namespace CallStackLogger

open Run

variable {τ : Type} {slotBits : Nat}

/-- The thread that takes the step. -/
def ResolverEvent.thread : ResolverEvent τ → τ
  | .call i _  => i
  | .advance i => i

/-- The resolver, and what the other threads are going to do before each of the next steps of one thread. -/
structure Schedule (τ : Type) (slotBits : Nat) where
  resolver : Resolver τ slotBits
  others : List (List (ResolverEvent τ))

namespace Schedule

variable [DecidableEq τ] (a : ObjectAnswers) (b : Build) (i : τ)

/-- The other threads take their steps, and the thread takes its own. -/
def take (ev : ResolverEvent τ) (sch : Schedule τ slotBits) : Schedule τ slotBits where
  resolver := (exec (Resolver.step a b) sch.resolver (sch.others.headD [])).step a b ev
  others := sch.others.tail

/-- A call of `resolve_no_unwind` in thread `i`, from its first step to its return. -/
def resolveNoUnwind (c : ResolveCall) (sch : Schedule τ slotBits) : Resolved × Schedule τ slotBits :=
  let called := sch.take a b (.call i c)
  let done := ((called.take a b (.advance i)).take a b (.advance i)).take a b (.advance i)
  let returned := (done.resolver.threads i).returned.getLast?
  ((returned.map Prod.snd).getD (false, c.out), done)

end Schedule

/-- `get_call_stack` in thread `i`. -/
def CallStackEnv.cached [DecidableEq τ] {σ : Type} (frames : List Addr) (a : ObjectAnswers) (b : Build) (i : τ)
    (prettyTime : σ → Text × σ) : CallStackEnv (Schedule τ slotBits × σ) where
  backtrace buffer size := captured frames buffer size.toNat
  resolveNoUnwind c s := ((s.1.resolveNoUnwind a b i c).1, ((s.1.resolveNoUnwind a b i c).2, s.2))
  prettyTime s := ((prettyTime s.2).1, (s.1, (prettyTime s.2).2))

lemma backtraces_cached [DecidableEq τ] {σ : Type} (frames : List Addr) (a : ObjectAnswers) (b : Build) (i : τ)
    (prettyTime : σ → Text × σ) :
    Backtraces frames
      (CallStackEnv.cached frames a b i prettyTime : CallStackEnv (Schedule τ slotBits × σ)).backtrace :=
  fun _ _ _ => rfl

section Thread

variable {a : ObjectAnswers} {b : Build} {i : τ} {c : ResolveCall} {n : Nat}
  {returned : List (ResolveCall × Resolved)} {s : Resolver τ slotBits} {sch : Schedule τ slotBits}

/-- The resolver is sound, and the steps of the others are none of thread `i`. -/
structure Schedule.Sound (a : ObjectAnswers) (b : Build) (i : τ) (sch : Schedule τ slotBits) : Prop where
  resolver : ResolverSound a b sch.resolver
  others : ∀ evs ∈ sch.others, ∀ ev ∈ evs, ev.thread ≠ i

/-- Thread `i` is outside the resolver. -/
structure Schedule.Idle (a : ObjectAnswers) (b : Build) (i : τ) (sch : Schedule τ slotBits) : Prop where
  sound : sch.Sound a b i
  idle : (sch.resolver.threads i).resolving = none

/-- Thread `i` is in a call, which has returned or needs fewer than so many steps. -/
structure Schedule.Within (a : ObjectAnswers) (b : Build) (i : τ) (c : ResolveCall) (n : Nat)
    (returned : List (ResolveCall × Resolved)) (sch : Schedule τ slotBits) : Prop where
  sound : sch.Sound a b i
  outcome : ((sch.resolver.threads i).resolving = none ∧
      (sch.resolver.threads i).returned = returned ++ [(c, resolveUncached a b c)]) ∨
    ((sch.resolver.threads i).returned = returned ∧
      ∃ r, (sch.resolver.threads i).resolving = some r ∧ r.call = c ∧ r.stepsLeft < n)

variable [DecidableEq τ]

/-- A thread is not changed by the steps of the others. -/
lemma threads_step_of_ne {ev : ResolverEvent τ} (h : ev.thread ≠ i) :
    (s.step a b ev).threads i = s.threads i := by
  cases ev with
  | call j c =>
    simp only [Resolver.step]
    split_ifs
    · exact Function.update_of_ne (Ne.symm h) _ _
    · rfl
  | advance j => exact Function.update_of_ne (Ne.symm h) _ _

lemma exec_others (hsound : ResolverSound a b s) {evs : List (ResolverEvent τ)}
    (hothers : ∀ ev ∈ evs, ev.thread ≠ i) :
    ResolverSound a b (exec (Resolver.step a b) s evs) ∧
      (exec (Resolver.step a b) s evs).threads i = s.threads i := by
  induction evs generalizing s with
  | nil => exact ⟨hsound, rfl⟩
  | cons ev evs ih =>
    obtain ⟨hsound', hsame⟩ := ih (hsound.step ev).1 fun ev' hev' => hothers ev' (List.mem_cons_of_mem ev hev')
    refine ⟨hsound', hsame.trans ?_⟩
    exact threads_step_of_ne (hothers ev List.mem_cons_self)

/-- When the thread takes its step, it is where it was. -/
lemma Schedule.Sound.exec_others (h : sch.Sound a b i) :
    ResolverSound a b (exec (Resolver.step a b) sch.resolver (sch.others.headD [])) ∧
      (exec (Resolver.step a b) sch.resolver (sch.others.headD [])).threads i = sch.resolver.threads i := by
  apply CallStackLogger.exec_others h.resolver
  intro ev hev
  cases hothers : sch.others with
  | nil => simp [hothers] at hev
  | cons evs rest =>
    have hmem : evs ∈ sch.others := hothers ▸ List.mem_cons_self
    rw [hothers, List.headD_cons] at hev
    exact h.others evs hmem ev hev

lemma Schedule.Sound.take (h : sch.Sound a b i) (ev : ResolverEvent τ) : (sch.take a b ev).Sound a b i where
  resolver := (h.exec_others.1.step ev).1
  others evs hevs := h.others evs (List.mem_of_mem_tail hevs)

/-- The thread enters the resolver. -/
lemma Schedule.Idle.take_call (h : sch.Idle a b i) (c : ResolveCall) :
    (sch.take a b (.call i c)).Within a b i c 4 (sch.resolver.threads i).returned where
  sound := h.sound.take _
  outcome := by
    obtain ⟨hsound, hsame⟩ := h.sound.exec_others
    have hserves := (resolvesPlainly_step hsound (.call i c)).called i c rfl (hsame ▸ h.idle)
    rw [← hsame]
    exact hserves.outcome

/-- The thread goes on with its call, or has returned. -/
lemma Schedule.Within.take_advance (h : sch.Within a b i c (n + 1) returned) :
    (sch.take a b (.advance i)).Within a b i c n returned where
  sound := h.sound.take _
  outcome := by
    obtain ⟨hsound, hsame⟩ := h.sound.exec_others
    rcases h.outcome with ⟨hidle, hreturned⟩ | ⟨hreturned, r, hr, hcall, hleft⟩
    · have hstays : ((sch.take a b (.advance i)).resolver.threads i) = sch.resolver.threads i := by
        simp only [Schedule.take, Resolver.step, Function.update_self, hsame, ResolverThread.advance, hidle]
      rw [hstays]
      exact .inl ⟨hidle, hreturned⟩
    · have hserves := (resolvesPlainly_step hsound (.advance i)).advanced i r rfl (hsame ▸ hr)
      rcases hserves.outcome with ⟨hidle', hreturned'⟩ | ⟨hreturned', r', hr', hcall', hleft'⟩
      · rw [hsame, hreturned, hcall] at hreturned'
        exact .inl ⟨hidle', hreturned'⟩
      · rw [hsame, hreturned] at hreturned'
        exact .inr ⟨hreturned', r', hr', hcall'.trans hcall, by omega⟩

/-- Every call has a step left. -/
lemma Resolving.stepsLeft_pos (r : Resolving) : 0 < r.stepsLeft := by
  cases r <;> exact Nat.succ_pos _

/-- A call returns what a resolver without a cache returns, and the thread is outside the resolver again. -/
lemma Schedule.Idle.resolveNoUnwind (h : sch.Idle a b i) (c : ResolveCall) :
    (sch.resolveNoUnwind a b i c).1 = resolveUncached a b c ∧ (sch.resolveNoUnwind a b i c).2.Idle a b i := by
  have hdone := (((h.take_call c).take_advance).take_advance).take_advance
  rcases hdone.outcome with ⟨hidle, hreturned⟩ | ⟨-, r, -, -, hleft⟩
  · refine ⟨?_, hdone.sound, hidle⟩
    simp only [Schedule.resolveNoUnwind, hreturned, List.getLast?_concat, Option.map_some, Option.getD_some]
  · have hpos := r.stepsLeft_pos
    omega

end Thread

/-! ### The entries of the thread -/

section Entries

variable [DecidableEq τ] {σ : Type} {a : ObjectAnswers} {b : Build} {i : τ} {frames : List Addr}
  {prettyTime : σ → Text × σ} {sch : Schedule τ slotBits}

/-- One frame. -/
lemma resolvePhysicalFrame_cached (h : sch.Idle a b i) (frames : List Addr) (prettyTime : σ → Text × σ)
    (address caller : Addr) (now : σ) :
    ∃ sch', sch'.Idle a b i ∧
      (CallStackEnv.cached frames a b i prettyTime).resolvePhysicalFrame address caller (sch, now) =
        (((CallStackEnv.plain frames a b prettyTime).resolvePhysicalFrame address caller now).1,
          (sch', ((CallStackEnv.plain frames a b prettyTime).resolvePhysicalFrame address caller now).2)) := by
  obtain ⟨hresult, hidle⟩ := h.resolveNoUnwind
    ⟨insideCallInstruction address, caller, .unwritten, .outermostFunction⟩
  refine ⟨_, hidle, ?_⟩
  simp only [CallStackEnv.resolvePhysicalFrame, CallStackEnv.cached, CallStackEnv.plain, hresult]
  cases resolveUncached a b ⟨insideCallInstruction address, caller, .unwritten, .outermostFunction⟩ with
  | mk found view => cases found <;> rfl

/-- All frames, one after the other. -/
lemma resolveAll_cached (h : sch.Idle a b i) (frames : List Addr) (prettyTime : σ → Text × σ)
    (sites : List (Addr × Addr)) (now : σ) :
    ∃ sch', sch'.Idle a b i ∧
      (CallStackEnv.cached frames a b i prettyTime).resolveAll sites (sch, now) =
        (((CallStackEnv.plain frames a b prettyTime).resolveAll sites now).1,
          (sch', ((CallStackEnv.plain frames a b prettyTime).resolveAll sites now).2)) := by
  induction sites generalizing sch now with
  | nil => exact ⟨sch, h, rfl⟩
  | cons site sites ih =>
    obtain ⟨sch₁, hidle₁, hframe⟩ := resolvePhysicalFrame_cached h frames prettyTime site.1 site.2 now
    obtain ⟨sch₂, hidle₂, hbehind⟩ := ih hidle₁
      ((CallStackEnv.plain frames a b prettyTime).resolvePhysicalFrame site.1 site.2 now).2
    refine ⟨sch₂, hidle₂, ?_⟩
    simp only [CallStackEnv.resolveAll, hframe, hbehind]

/-- In every interleaving with the calls of other threads, a thread gets the entries that a resolver without a
cache gives for its stack. -/
theorem get_call_stack_cached (h : sch.Idle a b i) (prettyTime : σ → Text × σ) (hdepth : 1 ≤ frames.length)
    {fuel : Nat} (hfuel : 23 ≤ fuel) (now : σ) :
    ∃ entries sch' now', sch'.Idle a b i ∧
      (CallStackEnv.cached frames a b i prettyTime).getCallStack fuel (sch, now) =
        .ok (.ok (entries, (sch', now'))) ∧
      (CallStackEnv.plain frames a b prettyTime).getCallStack fuel now = .ok (.ok (entries, now')) := by
  have hcached : Backtraces frames
      (CallStackEnv.cached frames a b i prettyTime : CallStackEnv (Schedule τ slotBits × σ)).backtrace :=
    backtraces_cached frames a b i prettyTime
  have hplain := backtraces_plain frames a b prettyTime
  by_cases hlt : frames.length < doubled 21
  · obtain ⟨sch', hidle, hentries⟩ := resolveAll_cached h frames prettyTime (callSites frames.tail) now
    refine ⟨_, sch', _, hidle, ?_, getCallStack_of_lt hplain hdepth hfuel hlt now⟩
    rw [getCallStack_of_lt hcached hdepth hfuel hlt, hentries]
  · have hle := Nat.not_lt.mp hlt
    exact ⟨[], sch, now, h, getCallStack_of_le hcached hfuel hle _, getCallStack_of_le hplain hfuel hle now⟩

end Entries

end CallStackLogger
