import CallStackLogger.Core.NodeMap
import CallStackLogger.Core.Run
import CallStackLogger.Reconcile.BaseName
import CallStackLogger.Trace.State
import Mathlib.Logic.Function.Basic

/-!
# The cached resolver

`resolve_no_unwind` of `src/callStack.cpp` as the threads of a program run it, with the front caches of
`include/frontCache.h`. Each thread has two direct-mapped caches of places in the maps all threads share; it
takes the lock of the maps once to look an address up and, when that fails, once more to add it, and between
the two anything can happen. What the object files answer for an address is a parameter.
-/

namespace CallStackLogger

open Run

/-! ### Front caches -/

/-- The entry of one slot: a key, and the place in the shared map, null until something is stored. -/
structure FrontEntry where
  key : Addr := 0
  value : Option Nat := none
deriving DecidableEq, Repr

/-- `FrontCache` with `2 ^ slotBits` slots. -/
structure FrontCache (slotBits : Nat) where
  entries : Nat → FrontEntry := fun _ => {}

namespace FrontCache

variable {slotBits : Nat}

/-- `slot_of`: the top bits of the key times the 64-bit golden-ratio constant. -/
def slotOf (slotBits : Nat) (key : Addr) : Nat := key * 0x9E3779B97F4A7C15 % 2 ^ 64 / 2 ^ (64 - slotBits)

def find (c : FrontCache slotBits) (key : Addr) : Option Nat :=
  let entry := c.entries (slotOf slotBits key)
  if entry.key = key then entry.value else none

def store (c : FrontCache slotBits) (key : Addr) (value : Nat) : FrontCache slotBits :=
  ⟨Function.update c.entries (slotOf slotBits key) ⟨key, some value⟩⟩

/-- Every slot that holds a key points to that key's node. -/
def PointsInto {ν : Type*} (c : FrontCache slotBits) (m : NodeMap Addr ν) (value : Addr → ν) : Prop :=
  ∀ slot n, (c.entries slot).value = some n → m.Holds n (c.entries slot).key (value (c.entries slot).key)

variable {ν : Type*} {c : FrontCache slotBits} {m m' : NodeMap Addr ν} {value : Addr → ν} {key : Addr} {n : Nat}

lemma PointsInto.find (h : c.PointsInto m value) (hfound : c.find key = some n) : m.Holds n key (value key) := by
  simp only [FrontCache.find] at hfound
  split_ifs at hfound with hkey
  have hholds := h _ n hfound
  rwa [hkey] at hholds

lemma PointsInto.mono (h : c.PointsInto m value) (hextends : m.Extends m') : c.PointsInto m' value :=
  fun slot n hn => (h slot n hn).mono hextends

lemma PointsInto.store (h : c.PointsInto m value) (hholds : m.Holds n key (value key)) :
    (c.store key n).PointsInto m value := by
  intro slot n' hn
  by_cases hslot : slot = slotOf slotBits key
  · simp only [FrontCache.store, hslot, Function.update_self] at hn ⊢
    rwa [← Option.some.inj hn]
  · simp only [FrontCache.store, ne_eq, hslot, not_false_eq_true, Function.update_of_ne] at hn ⊢
    exact h slot n' hn

lemma pointsInto_empty (m : NodeMap Addr ν) (value : Addr → ν) : ({} : FrontCache slotBits).PointsInto m value := by
  intro slot n hn
  simp at hn

end FrontCache

/-! ### What is cached -/

/-- Which of the functions at an address is named: the hooks' rule and that of `get_call_stack`. -/
inductive NameOf where
  | innermostFunction
  | outermostFunction
deriving DecidableEq, Repr

/-- A name, `none` when the function is filtered, and its base name. -/
structure CachedName where
  name : Option Text
  base : Text := []
deriving DecidableEq, Repr

structure CachedLocation where
  file : Text
  line : Option Nat
  functionBase : Text
deriving DecidableEq, Repr

/-- `cache_name`. -/
def cacheName (name : Option Text) : CachedName where
  name := name
  base := match name with
    | some name => functionBaseName name
    | none      => []

/-- What the object files answer for an address. -/
structure ObjectAnswers where
  resolveFunctionName : NameOf → Addr → Option Text
  resolveFilenameAndLine : Addr → CachedLocation

/-- The value that belongs to an address in the map of names. -/
def ObjectAnswers.cachedName (a : ObjectAnswers) (nameOf : NameOf) (address : Addr) : CachedName :=
  cacheName (a.resolveFunctionName nameOf address)

/-- The maps all threads share. -/
structure SharedMaps where
  nameCache : NodeMap Addr CachedName := {}
  frameNameCache : NodeMap Addr CachedName := {}
  locationCache : NodeMap Addr CachedLocation := {}

namespace SharedMaps

/-- The map of the names a rule gives. -/
def names (m : SharedMaps) : NameOf → NodeMap Addr CachedName
  | .innermostFunction => m.nameCache
  | .outermostFunction => m.frameNameCache

def setNames (m : SharedMaps) (names : NodeMap Addr CachedName) : NameOf → SharedMaps
  | .innermostFunction => { m with nameCache := names }
  | .outermostFunction => { m with frameNameCache := names }

end SharedMaps

/-! ### One call -/

/-- The arguments of one call of `resolve_no_unwind`. -/
structure ResolveCall where
  calleeAddress : Addr
  callerAddress : Addr
  out : ResolvedFrameView
  nameOf : NameOf

def ResolveCall.hooks (c : ResolveCall) : Bool := c.nameOf == .innermostFunction

/-- What a call returns, and what it leaves in `out`. -/
abbrev Resolved := Bool × ResolvedFrameView

/-- Where a call is: about to take the lock, for the first or the second time, with the places it has
found, or about to fill `out`. -/
inductive Resolving where
  | lookUp (c : ResolveCall) (name location : Option Nat)
  | insert (c : ResolveCall) (name location : Option Nat)
  | fill (c : ResolveCall) (name location : Nat)

namespace Resolving

def call : Resolving → ResolveCall
  | .lookUp c ..  => c
  | .insert c ..  => c
  | .fill c ..    => c

/-- How many steps of its thread the call needs at most. -/
def stepsLeft : Resolving → Nat
  | .lookUp ..  => 3
  | .insert ..  => 2
  | .fill ..    => 1

end Resolving

/-- A thread with its front caches. What its calls have returned is ghost. -/
structure ResolverThread (slotBits : Nat) where
  nameFront : FrontCache slotBits := {}
  locationFront : FrontCache slotBits := {}
  resolving : Option Resolving := none
  returned : List (ResolveCall × Resolved) := []

/-- All threads and what they share. -/
structure Resolver (τ : Type*) (slotBits : Nat) where
  maps : SharedMaps := {}
  threads : τ → ResolverThread slotBits := fun _ => {}

namespace ResolverThread

variable {slotBits : Nat} (t : ResolverThread slotBits) (m : SharedMaps) (c : ResolveCall)

/-- The call returns. -/
def returns (result : Resolved) : ResolverThread slotBits :=
  { t with resolving := none, returned := t.returned ++ [(c, result)] }

/-- Whether the node of a name says that the function is filtered. -/
def filtered (name : Nat) : Bool := (((m.names c.nameOf).get? name).map (·.name)) == some none

/-- The warm path, without the lock. -/
def warm : ResolverThread slotBits :=
  let name := if c.hooks then t.nameFront.find c.calleeAddress else none
  let location := if c.hooks then t.locationFront.find c.callerAddress else none
  match name, location with
  | some n, some l =>
    if filtered m c n then t.returns c (false, c.out) else { t with resolving := some (.fill c n l) }
  | some n, none   =>
    if filtered m c n then t.returns c (false, c.out)
    else { t with resolving := some (.lookUp c (some n) none) }
  | none, location => { t with resolving := some (.lookUp c none location) }

/-- A hook remembers the place of a name. -/
def storeName (name : Nat) : ResolverThread slotBits :=
  if c.hooks then { t with nameFront := t.nameFront.store c.calleeAddress name } else t

/-- A hook remembers the place of a location. -/
def storeLocation (location : Nat) : ResolverThread slotBits :=
  if c.hooks then { t with locationFront := t.locationFront.store c.callerAddress location } else t

/-- The location under the lock. -/
def lookUpLocation (name location : Option Nat) : ResolverThread slotBits :=
  match name, location with
  | some n, some l => { t with resolving := some (.fill c n l) }
  | none, some l   => { t with resolving := some (.insert c none (some l)) }
  | name, none     =>
    match m.locationCache.find? c.callerAddress with
    | none   => { t with resolving := some (.insert c name none) }
    | some l =>
      match name with
      | some n => { t.storeLocation c l with resolving := some (.fill c n l) }
      | none   => { t.storeLocation c l with resolving := some (.insert c none (some l)) }

/-- The first critical section. -/
def lookUp (name location : Option Nat) : ResolverThread slotBits :=
  match name with
  | some n => t.lookUpLocation m c (some n) location
  | none   =>
    match (m.names c.nameOf).find? c.calleeAddress with
    | none   => t.lookUpLocation m c none location
    | some n =>
      if filtered m c n then (t.storeName c n).returns c (false, c.out)
      else (t.storeName c n).lookUpLocation m c (some n) location

/-- The location in the second critical section. -/
def insertLocation (a : ObjectAnswers) (name : Nat) (location : Option Nat) :
    SharedMaps × ResolverThread slotBits :=
  match location with
  | some l => (m, { t with resolving := some (.fill c name l) })
  | none   =>
    let (locations, l) := m.locationCache.emplace c.callerAddress (a.resolveFilenameAndLine c.callerAddress)
    ({ m with locationCache := locations }, { t.storeLocation c l with resolving := some (.fill c name l) })

/-- The second critical section: another thread may have been faster. -/
def insert (a : ObjectAnswers) (name location : Option Nat) : SharedMaps × ResolverThread slotBits :=
  match name with
  | some n => t.insertLocation m c a n location
  | none   =>
    let (names, n) := (m.names c.nameOf).emplace c.calleeAddress (a.cachedName c.nameOf c.calleeAddress)
    let m := m.setNames names c.nameOf
    if filtered m c n then (m, (t.storeName c n).returns c (false, c.out))
    else (t.storeName c n).insertLocation m c a n location

/-- The nodes are read, without the lock. There is no node at a place that was never handed out; the last
branch stands for such a read. -/
def fill (b : Build) (name location : Nat) : ResolverThread slotBits :=
  match (m.names c.nameOf).get? name, m.locationCache.get? location with
  | some ⟨some calleeName, base⟩, some loc =>
    t.returns c (true,
      { calleeAddress := if b.logAddr then some c.calleeAddress else c.out.calleeAddress
        calleeFunctionName := calleeName
        calleeBaseName := base
        callerFilename := loc.file
        callerLineNumber := loc.line
        callerFunctionBase := some loc.functionBase })
  | _, _ => t.returns c (false, c.out)

/-- A thread takes its next step. -/
def advance (a : ObjectAnswers) (b : Build) : SharedMaps × ResolverThread slotBits :=
  match t.resolving with
  | none                          => (m, t)
  | some (.lookUp c name location) => (m, t.lookUp m c name location)
  | some (.insert c name location) => t.insert m c a name location
  | some (.fill c name location)   => (m, t.fill m c b name location)

end ResolverThread

/-- A thread calls `resolve_no_unwind`, or goes on with its call. -/
inductive ResolverEvent (τ : Type*) where
  | call (i : τ) (c : ResolveCall)
  | advance (i : τ)

namespace Resolver

variable {τ : Type*} [DecidableEq τ] {slotBits : Nat}

/-- A thread inside a call makes no other. -/
def step (a : ObjectAnswers) (b : Build) (s : Resolver τ slotBits) : ResolverEvent τ → Resolver τ slotBits
  | .call i c  =>
    if (s.threads i).resolving.isNone then
      { s with threads := Function.update s.threads i ((s.threads i).warm s.maps c) }
    else s
  | .advance i =>
    let (maps, t) := (s.threads i).advance s.maps a b
    { maps := maps, threads := Function.update s.threads i t }

end Resolver

/-- `resolve_no_unwind` without any cache. -/
def resolveUncached (a : ObjectAnswers) (b : Build) (c : ResolveCall) : Resolved :=
  match a.resolveFunctionName c.nameOf c.calleeAddress with
  | none            => (false, c.out)
  | some calleeName =>
    let loc := a.resolveFilenameAndLine c.callerAddress
    (true,
      { calleeAddress := if b.logAddr then some c.calleeAddress else c.out.calleeAddress
        calleeFunctionName := calleeName
        calleeBaseName := functionBaseName calleeName
        callerFilename := loc.file
        callerLineNumber := loc.line
        callerFunctionBase := some loc.functionBase })

end CallStackLogger
