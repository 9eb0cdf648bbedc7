import CallStackLogger.Resolve.Objects

/-!
# The resolver over files that are registered on the way

The critical sections of `resolve_no_unwind`, `resolve_location` and `resolve_inline_chain` of `src/callStack.cpp`, as
the threads of a program go through them, with the object files registered when they are first needed. Whatever the
disk holds at each of these moments, every run is one over files that were all known from the start.
-/

namespace CallStackLogger

open Run Growing

variable {τ : Type} {slotBits : Nat}

/-! ### The second critical section of `resolve_no_unwind` -/

namespace ResolverThread

variable (t : ResolverThread slotBits) (m : SharedMaps) (c : ResolveCall) (l : Loader) (r r' : LoadReply)

def insertLocationM (name : Nat) (location : Option Nat) :
    StateM ObjectTable (SharedMaps × ResolverThread slotBits) := do
  match location with
  | some place => return (m, { t with resolving := some (.fill c name place) })
  | none       =>
    let (locations, place) ← Growing.emplace m.locationCache c.callerAddress
      (l.resolveFilenameAndLine r' c.callerAddress)
    return ({ m with locationCache := locations },
      { t.storeLocation c place with resolving := some (.fill c name place) })

def insertM (name location : Option Nat) : StateM ObjectTable (SharedMaps × ResolverThread slotBits) := do
  match name with
  | some n => t.insertLocationM m c l r' n location
  | none   =>
    let (names, n) ← Growing.emplace (m.names c.nameOf) c.calleeAddress
      (do return cacheName (← l.resolveFunctionName r c.nameOf c.calleeAddress))
    let m := m.setNames names c.nameOf
    if filtered m c n then return (m, (t.storeName c n).returns c (false, c.out))
    (t.storeName c n).insertLocationM m c l r' n location

def advanceM (b : Build) : StateM ObjectTable (SharedMaps × ResolverThread slotBits) := do
  match t.resolving with
  | none                           => return (m, t)
  | some (.lookUp c name location) => return (m, t.lookUp m c name location)
  | some (.insert c name location) => t.insertM m c l r r' name location
  | some (.fill c name location)   => return (m, t.fill m c b name location)

variable {t m c l r r'}

lemma reads_insertLocationM (name : Nat) (location : Option Nat) :
    Reads ObjectTable.Sound (t.insertLocationM m c l r' name location) fun table =>
      t.insertLocation m c (l.files table).answers name location := by
  cases location with
  | some place => exact .pure _
  | none =>
    exact ((Loader.reads_resolveFilenameAndLine r' c.callerAddress).emplace m.locationCache c.callerAddress).bind
      (g := fun p _ => ({ m with locationCache := p.1 },
        { t.storeLocation c p.2 with resolving := some (.fill c name p.2) })) fun p => .pure _

lemma reads_insertM (name location : Option Nat) :
    Reads ObjectTable.Sound (t.insertM m c l r r' name location) fun table =>
      t.insert m c (l.files table).answers name location := by
  cases name with
  | some n => exact reads_insertLocationM n location
  | none =>
    have hname : Reads ObjectTable.Sound (do return cacheName (← l.resolveFunctionName r c.nameOf c.calleeAddress))
        fun table => (l.files table).answers.cachedName c.nameOf c.calleeAddress :=
      (Loader.reads_resolveFunctionName r c.nameOf c.calleeAddress).bind (g := fun name _ => cacheName name)
        fun name => .pure _
    refine (hname.emplace (m.names c.nameOf) c.calleeAddress).bind (g := fun p table =>
      if filtered (m.setNames p.1 c.nameOf) c p.2 then
        (m.setNames p.1 c.nameOf, (t.storeName c p.2).returns c (false, c.out))
      else (t.storeName c p.2).insertLocation (m.setNames p.1 c.nameOf) c (l.files table).answers p.2 location)
      fun p => ?_
    simp only
    split_ifs
    · exact .pure _
    · exact reads_insertLocationM p.2 location

lemma reads_advanceM (b : Build) :
    Reads ObjectTable.Sound (t.advanceM m l r r' b) fun table => t.advance m (l.files table).answers b := by
  simp only [advanceM, advance]
  cases t.resolving with
  | none => exact .pure _
  | some resolving =>
    cases resolving with
    | lookUp c name location => exact .pure _
    | insert c name location => exact reads_insertM name location
    | fill c name location => exact .pure _

end ResolverThread

/-! ### The threads -/

variable [DecidableEq τ] (l : Loader) (r r' : LoadReply)

def Resolver.stepM (b : Build) (s : Resolver τ slotBits) : ResolverEvent τ → StateM ObjectTable (Resolver τ slotBits)
  | .call i c  =>
    return if (s.threads i).resolving.isNone then
      { s with threads := Function.update s.threads i ((s.threads i).warm s.maps c) }
    else s
  | .advance i => do
    let (maps, t) ← (s.threads i).advanceM s.maps l r r' b
    return { maps := maps, threads := Function.update s.threads i t }

lemma reads_resolverStep (b : Build) (s : Resolver τ slotBits) (ev : ResolverEvent τ) :
    Reads ObjectTable.Sound (s.stepM l r r' b ev) fun table => s.step (l.files table).answers b ev := by
  cases ev with
  | call i c => exact .pure _
  | advance i =>
    exact (ResolverThread.reads_advanceM b).bind (g := fun p _ =>
      ({ maps := p.1, threads := Function.update s.threads i p.2 } : Resolver τ slotBits)) fun p => .pure _

namespace Locator

def goOnM (s : Locator τ slotBits) (i : τ) : Locating → StateM ObjectTable (Locator τ slotBits)
  | .lookUp address =>
    return match s.resolver.maps.locationCache.find? address with
    | some place => s.locates i address place
    | none       => { s with locating := Function.update s.locating i (some (.insert address)) }
  | .insert address => do
    let (locations, place) ← Growing.emplace s.resolver.maps.locationCache address
      (l.resolveEventSiteLocation r r' address)
    let s := { s with
      resolver := { s.resolver with maps := { s.resolver.maps with locationCache := locations } }
      addedBy := markAdded .eventSite s.addedBy locations }
    return s.locates i address place

def stepM (b : Build) (s : Locator τ slotBits) (ev : LocatorEvent τ) : StateM ObjectTable (Locator τ slotBits) := do
  let s := { s with resolver := s.resolver.forget, located := fun _ => [] }
  match ev with
  | .resolve (.call i c)  =>
    if (s.locating i).isNone then
      let resolver ← s.resolver.stepM l r r' b (.call i c)
      return { s with resolver := resolver }
    else return s
  | .resolve (.advance i) =>
    let resolver ← s.resolver.stepM l r r' b (.advance i)
    return { s with
      resolver := resolver
      addedBy := markAdded .callSite s.addedBy resolver.maps.locationCache }
  | .locate i address     =>
    return if (s.locating i).isNone && (s.resolver.threads i).resolving.isNone then
      { s with locating := Function.update s.locating i (some (.lookUp address)) }
    else s
  | .advance i            =>
    match s.locating i with
    | some locating => s.goOnM l r r' i locating
    | none          => return s

lemma reads_goOnM (s : Locator τ slotBits) (i : τ) (locating : Locating) :
    Reads ObjectTable.Sound (s.goOnM l r r' i locating) fun table => s.goOn (l.files table) i locating := by
  cases locating with
  | lookUp address => exact .pure _
  | insert address =>
    exact ((Loader.reads_resolveEventSiteLocation r r' address).emplace s.resolver.maps.locationCache address).bind
      (g := fun p _ => ({ s with
        resolver := { s.resolver with maps := { s.resolver.maps with locationCache := p.1 } }
        addedBy := markAdded .eventSite s.addedBy p.1 } : Locator τ slotBits).locates i address p.2) fun p => .pure _

lemma reads_stepM (b : Build) (s : Locator τ slotBits) (ev : LocatorEvent τ) :
    Reads ObjectTable.Sound (s.stepM l r r' b ev) fun table => s.step (l.files table) b ev := by
  cases ev with
  | resolve ev =>
    cases ev with
    | call i c =>
      simp only [stepM, step]
      split_ifs
      · exact (reads_resolverStep l r r' b _ _).bind (g := fun resolver _ =>
          ({ s with located := fun _ => [], resolver := resolver } : Locator τ slotBits)) fun resolver => .pure _
      · exact .pure _
    | advance i =>
      exact (reads_resolverStep l r r' b _ _).bind (g := fun resolver _ => ({ s with
        located := fun _ => []
        resolver := resolver
        addedBy := markAdded .callSite s.addedBy resolver.maps.locationCache } : Locator τ slotBits))
        fun resolver => .pure _
  | locate i address => exact .pure _
  | advance i =>
    simp only [stepM, step]
    cases s.locating i with
    | none => exact .pure _
    | some locating => exact reads_goOnM l r r' _ i locating

end Locator

/-! ### Inline chains -/

/-- The calls of `resolve_inline_chain`. What those that ended in the last step returned is ghost. -/
structure ChainCache (τ : Type) where
  inlineChainCache : NodeMap Addr (List Text) := {}
  reading : τ → Option Locating := fun _ => none
  returned : τ → List (Addr × Option (List Text)) := fun _ => []

/-- A thread calls `resolve_inline_chain`, or goes on with its call. -/
inductive ChainEvent (τ : Type) where
  | call (i : τ) (address : Addr)
  | advance (i : τ)

namespace ChainCache

/-- The call returns what is at a place of the map. -/
def returns (s : ChainCache τ) (i : τ) (address : Addr) (place : Nat) : ChainCache τ :=
  { s with
    reading := Function.update s.reading i none
    returned := Function.update s.returned i [(address, s.inlineChainCache.get? place)] }

/-- The first critical section. -/
def lookUp (s : ChainCache τ) (i : τ) (address : Addr) : ChainCache τ :=
  match s.inlineChainCache.find? address with
  | some place => s.returns i address place
  | none       => { s with reading := Function.update s.reading i (some (.insert address)) }

/-- `resolve_inline_chain`, with the chains a rule gives. -/
def step (chain : Addr → List Text) (s : ChainCache τ) (ev : ChainEvent τ) : ChainCache τ :=
  let s := { s with returned := fun _ => [] }
  match ev with
  | .call i address =>
    if (s.reading i).isNone then { s with reading := Function.update s.reading i (some (.lookUp address)) } else s
  | .advance i      =>
    match s.reading i with
    | none                   => s
    | some (.lookUp address) => s.lookUp i address
    | some (.insert address) =>
      let (chains, place) := s.inlineChainCache.emplace address (chain address)
      ({ s with inlineChainCache := chains } : ChainCache τ).returns i address place

def stepM (s : ChainCache τ) (ev : ChainEvent τ) : StateM ObjectTable (ChainCache τ) := do
  let s := { s with returned := fun _ => [] }
  match ev with
  | .call i address =>
    return if (s.reading i).isNone then { s with reading := Function.update s.reading i (some (.lookUp address)) }
    else s
  | .advance i      =>
    match s.reading i with
    | none                   => return s
    | some (.lookUp address) => return s.lookUp i address
    | some (.insert address) =>
      let (chains, place) ← Growing.emplace s.inlineChainCache address (l.readInlineChain r address)
      return ({ s with inlineChainCache := chains } : ChainCache τ).returns i address place

lemma reads_stepM (s : ChainCache τ) (ev : ChainEvent τ) :
    Reads ObjectTable.Sound (s.stepM l r ev) fun table => s.step (l.inlineChain table) ev := by
  cases ev with
  | call i address => exact .pure _
  | advance i =>
    simp only [stepM, step]
    cases s.reading i with
    | none => exact .pure _
    | some reading =>
      cases reading with
      | lookUp address => exact .pure _
      | insert address =>
        exact ((Loader.reads_readInlineChain r address).emplace s.inlineChainCache address).bind (g := fun p _ =>
          ({ s with returned := fun _ => [], inlineChainCache := p.1 } : ChainCache τ).returns i address p.2)
          fun p => .pure _

end ChainCache

/-! ### All of them -/

/-- The three functions of the resolver, with what their threads share. -/
structure AddressResolver (τ : Type) (slotBits : Nat) where
  locator : Locator τ slotBits := {}
  chains : ChainCache τ := {}

inductive AddressEvent (τ : Type) where
  | location (ev : LocatorEvent τ)
  | chain (ev : ChainEvent τ)

/-- The thread that makes a call. -/
def AddressEvent.caller : AddressEvent τ → Option τ
  | .location (.resolve (.call i _)) => some i
  | .location (.locate i _)          => some i
  | .chain (.call i _)               => some i
  | _                                => none

namespace AddressResolver

/-- A thread is inside a call. -/
def busy (s : AddressResolver τ slotBits) (i : τ) : Bool :=
  (s.locator.locating i).isSome || (s.locator.resolver.threads i).resolving.isSome || (s.chains.reading i).isSome

/-- A step over objects that are known. -/
def step (table : ObjectTable) (b : Build) (s : AddressResolver τ slotBits) (ev : AddressEvent τ) :
    AddressResolver τ slotBits :=
  if ev.caller.any s.busy then s else
  match ev with
  | .location ev => { s with locator := s.locator.step (l.files table) b ev }
  | .chain ev    => { s with chains := s.chains.step (l.inlineChain table) ev }

/-- A step that registers the objects it needs, from what the system holds then. -/
def stepM (b : Build) (s : AddressResolver τ slotBits) (ev : AddressEvent τ × LoadReply × LoadReply) :
    StateM ObjectTable (AddressResolver τ slotBits) := do
  if ev.1.caller.any s.busy then return s
  match ev.1 with
  | .location e =>
    let locator ← s.locator.stepM l ev.2.1 ev.2.2 b e
    return { s with locator := locator }
  | .chain e    =>
    let chains ← s.chains.stepM l ev.2.1 e
    return { s with chains := chains }

lemma reads_stepM (b : Build) (s : AddressResolver τ slotBits) (ev : AddressEvent τ × LoadReply × LoadReply) :
    Reads ObjectTable.Sound (s.stepM l b ev) fun table => s.step l table b ev.1 := by
  obtain ⟨ev, r, r'⟩ := ev
  simp only [stepM, step]
  split_ifs
  · exact .pure _
  · cases ev with
    | location e =>
      exact (Locator.reads_stepM l r r' b s.locator e).bind (g := fun locator _ =>
        ({ s with locator := locator } : AddressResolver τ slotBits)) fun locator => .pure _
    | chain e =>
      exact (ChainCache.reads_stepM l r s.chains e).bind (g := fun chains _ =>
        ({ s with chains := chains } : AddressResolver τ slotBits)) fun chains => .pure _

/-- The threads' steps, from an empty resolver and an empty table. -/
def run (slotBits : Nat) (b : Build) (evs : List (AddressEvent τ × LoadReply × LoadReply)) :
    AddressResolver τ slotBits × ObjectTable :=
  outcome (evs.foldlM (stepM l b) {}) {}

end AddressResolver

/-! ### Any run -/

/-- Every chain in the map is that of its address, and what a call has returned is. -/
structure ChainCache.Sound (chain : Addr → List Text) (s : ChainCache τ) : Prop where
  cache : s.inlineChainCache.Agrees chain
  returned : ∀ i, ∀ p ∈ s.returned i, p.2 = some (chain p.1)

lemma ChainCache.Sound.returns {chain : Addr → List Text} {s : ChainCache τ} (h : s.Sound chain) (i : τ)
    {address : Addr} {place : Nat} (hholds : s.inlineChainCache.Holds place address (chain address)) :
    (s.returns i address place).Sound chain where
  cache := h.cache
  returned j p hp := by
    rw [ChainCache.returns] at hp
    by_cases hj : j = i
    · subst hj
      simp only [Function.update_self, List.mem_singleton] at hp
      rw [hp, hholds.get?]
    · simp only [ne_eq, hj, not_false_eq_true, Function.update_of_ne] at hp
      exact h.returned j p hp

lemma ChainCache.Sound.step {chain : Addr → List Text} {s : ChainCache τ} (h : s.Sound chain) (ev : ChainEvent τ) :
    (s.step chain ev).Sound chain := by
  have hforgot : ChainCache.Sound chain { s with returned := fun _ => [] } := ⟨h.cache, by simp⟩
  cases ev with
  | call i address =>
    simp only [ChainCache.step]
    split_ifs
    · exact ⟨hforgot.cache, hforgot.returned⟩
    · exact hforgot
  | advance i =>
    simp only [ChainCache.step]
    cases s.reading i with
    | none => exact hforgot
    | some reading =>
      cases reading with
      | lookUp address =>
        simp only [ChainCache.lookUp]
        cases hfound : s.inlineChainCache.find? address with
        | none => exact ⟨hforgot.cache, hforgot.returned⟩
        | some place => exact hforgot.returns i (h.cache.find? hfound)
      | insert address =>
        have hcache := h.cache.emplace address
        have hadded : ChainCache.Sound chain { s with
            returned := fun _ => []
            inlineChainCache := (s.inlineChainCache.emplace address (chain address)).1 } := ⟨hcache, by simp⟩
        exact hadded.returns i (h.cache.holds_emplace address)

namespace AddressResolver

lemma chains_step {table : ObjectTable} {s : AddressResolver τ slotBits} (h : s.chains.Sound (l.inlineChain table))
    (b : Build) (ev : AddressEvent τ) : (s.step l table b ev).chains.Sound (l.inlineChain table) := by
  simp only [step]
  split_ifs
  · exact h
  · cases ev with
    | location e => exact h
    | chain e => exact h.step e

lemma chains_exec (table : ObjectTable) (b : Build) (evs : List (AddressEvent τ)) :
    (exec (step l table b) ({} : AddressResolver τ slotBits) evs).chains.Sound (l.inlineChain table) :=
  exec_invariant (I := fun s : AddressResolver τ slotBits => s.chains.Sound (l.inlineChain table))
    (D := fun _ _ => True) (fun _ ev h _ => chains_step l h b ev) ⟨by simp [NodeMap.Agrees], by simp⟩
    (allSteps_of_forall fun _ _ => trivial)

/-- The table grows along a run. -/
lemma table_le (b : Build) (evs : List (AddressEvent τ × LoadReply × LoadReply)) (n : Nat) :
    (run l slotBits b (evs.take n)).2 ≤ (run l slotBits b evs).2 := by
  have hsplit : evs.foldlM (stepM l b) ({} : AddressResolver τ slotBits) =
      (evs.take n).foldlM (stepM l b) {} >>= (evs.drop n).foldlM (stepM l b) := by
    rw [← List.foldlM_append, List.take_append_drop]
  rw [run, run, hsplit, outcome_bind]
  exact (Reads.foldlM (reads_stepM l b) _ (evs.drop n)).grows _
    ((Reads.foldlM (reads_stepM l b) _ (evs.take n)).keeps _ ObjectTable.sound_empty)

end AddressResolver

/-- Whatever is found when an object is first seen, a run is one over the objects of its end. -/
theorem objects_known_from_the_start {τ : Type} [DecidableEq τ] (slotBits : Nat) (l : Loader) (b : Build)
    (evs : List (AddressEvent τ × LoadReply × LoadReply)) (n : Nat) :
    let table := (AddressResolver.run l slotBits b evs).2
    let s := (AddressResolver.run l slotBits b (evs.take n)).1
    table.Sound ∧ s = exec (AddressResolver.step l table b) {} ((evs.take n).map Prod.fst) ∧
      ∀ i, ∀ p ∈ s.chains.returned i, p.2 = some (l.inlineChain table p.1) := by
  intro table s
  have hreads := Reads.foldlM (AddressResolver.reads_stepM l b) ({} : AddressResolver τ slotBits)
  have hrun : s = exec (AddressResolver.step l table b) {} ((evs.take n).map Prod.fst) := by
    rw [exec, List.foldl_map]
    exact (hreads (evs.take n)).reads {} ObjectTable.sound_empty table (AddressResolver.table_le l b evs n)
  refine ⟨(hreads evs).keeps {} ObjectTable.sound_empty, hrun, ?_⟩
  rw [hrun]
  exact (AddressResolver.chains_exec l table b _).returned

end CallStackLogger
