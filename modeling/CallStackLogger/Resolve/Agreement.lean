import CallStackLogger.Resolve.Resolver

/-!
# The cached resolver agrees with plain resolution

The places a call has found are places of its own addresses in the right maps, and the maps are only added
to: whatever the other threads do between two critical sections, what a place holds is what the object files
answer for the address.
-/

namespace CallStackLogger

open Run

/-! ### The shared maps -/

/-- Every map holds what the object files answer. -/
structure SharedMaps.Agrees (m : SharedMaps) (a : ObjectAnswers) : Prop where
  nameCache : m.nameCache.Agrees (a.cachedName .innermostFunction)
  frameNameCache : m.frameNameCache.Agrees (a.cachedName .outermostFunction)
  locationCache : m.locationCache.Agrees a.resolveFilenameAndLine

/-- Every entry stays, at its place. -/
structure SharedMaps.Extends (m m' : SharedMaps) : Prop where
  nameCache : m.nameCache.Extends m'.nameCache
  frameNameCache : m.frameNameCache.Extends m'.frameNameCache
  locationCache : m.locationCache.Extends m'.locationCache

namespace SharedMaps

variable {a : ObjectAnswers} {m m' m'' : SharedMaps}

lemma Extends.refl (m : SharedMaps) : m.Extends m := ⟨.refl _, .refl _, .refl _⟩

lemma Extends.trans (h : m.Extends m') (h' : m'.Extends m'') : m.Extends m'' :=
  ⟨h.nameCache.trans h'.nameCache, h.frameNameCache.trans h'.frameNameCache,
    h.locationCache.trans h'.locationCache⟩

lemma Extends.names (h : m.Extends m') (nameOf : NameOf) : (m.names nameOf).Extends (m'.names nameOf) := by
  cases nameOf with
  | innermostFunction => exact h.nameCache
  | outermostFunction => exact h.frameNameCache

lemma Agrees.names (h : m.Agrees a) (nameOf : NameOf) : (m.names nameOf).Agrees (a.cachedName nameOf) := by
  cases nameOf with
  | innermostFunction => exact h.nameCache
  | outermostFunction => exact h.frameNameCache

@[simp] lemma names_setNames (m : SharedMaps) (names : NodeMap Addr CachedName) (nameOf : NameOf) :
    (m.setNames names nameOf).names nameOf = names := by
  cases nameOf <;> rfl

lemma Extends.setNames {names : NodeMap Addr CachedName} {nameOf : NameOf}
    (h : (m.names nameOf).Extends names) : m.Extends (m.setNames names nameOf) := by
  cases nameOf with
  | innermostFunction => exact ⟨h, .refl _, .refl _⟩
  | outermostFunction => exact ⟨.refl _, h, .refl _⟩

lemma Agrees.setNames (h : m.Agrees a) {names : NodeMap Addr CachedName} {nameOf : NameOf}
    (hnames : names.Agrees (a.cachedName nameOf)) : (m.setNames names nameOf).Agrees a := by
  cases nameOf with
  | innermostFunction => exact ⟨hnames, h.frameNameCache, h.locationCache⟩
  | outermostFunction => exact ⟨h.nameCache, hnames, h.locationCache⟩

end SharedMaps

/-! ### The places a call has found -/

section Found

variable {a : ObjectAnswers} {m m' : SharedMaps} {c : ResolveCall} {n l : Nat} {name location : Option Nat}

/-- The place of the callee's name, in the map of the call's rule. -/
def NamePlace (a : ObjectAnswers) (m : SharedMaps) (c : ResolveCall) (n : Nat) : Prop :=
  (m.names c.nameOf).Holds n c.calleeAddress (a.cachedName c.nameOf c.calleeAddress)

/-- The place of the call site. -/
def LocationPlace (a : ObjectAnswers) (m : SharedMaps) (c : ResolveCall) (l : Nat) : Prop :=
  m.locationCache.Holds l c.callerAddress (a.resolveFilenameAndLine c.callerAddress)

/-- A filtered callee has no place: the call has returned by then. -/
structure PlacesFound (a : ObjectAnswers) (m : SharedMaps) (c : ResolveCall) (name location : Option Nat) :
    Prop where
  atName : ∀ n, name = some n → NamePlace a m c n
  loggable : name ≠ none → a.resolveFunctionName c.nameOf c.calleeAddress ≠ none
  atLocation : ∀ l, location = some l → LocationPlace a m c l

/-- The places of a call on its way. -/
def Resolving.Found (a : ObjectAnswers) (m : SharedMaps) : Resolving → Prop
  | .lookUp c name location => PlacesFound a m c name location
  | .insert c name location => PlacesFound a m c name location
  | .fill c name location   => PlacesFound a m c (some name) (some location)

lemma PlacesFound.mono (h : PlacesFound a m c name location) (hm : m.Extends m') :
    PlacesFound a m' c name location where
  atName n hn := (h.atName n hn).mono (hm.names c.nameOf)
  loggable := h.loggable
  atLocation l hl := (h.atLocation l hl).mono hm.locationCache

lemma Resolving.Found.mono {r : Resolving} (h : r.Found a m) (hm : m.Extends m') : r.Found a m' := by
  cases r with
  | lookUp c name location => exact PlacesFound.mono h hm
  | insert c name location => exact PlacesFound.mono h hm
  | fill c name location => exact PlacesFound.mono h hm

/-- The name's place is found, and the callee is not filtered. -/
lemma PlacesFound.withName (h : PlacesFound a m c none location) (hn : NamePlace a m c n)
    (hloggable : a.resolveFunctionName c.nameOf c.calleeAddress ≠ none) :
    PlacesFound a m c (some n) location where
  atName n' hn' := by
    rwa [← Option.some.inj hn']
  loggable _ := hloggable
  atLocation := h.atLocation

lemma PlacesFound.withLocation (h : PlacesFound a m c name none) (hl : LocationPlace a m c l) :
    PlacesFound a m c name (some l) where
  atName := h.atName
  loggable := h.loggable
  atLocation l' hl' := by
    rwa [← Option.some.inj hl']

/-- What the node of a name says of the filter is what the object files say. -/
lemma filtered_iff (h : NamePlace a m c n) :
    ResolverThread.filtered m c n = true ↔ a.resolveFunctionName c.nameOf c.calleeAddress = none := by
  rw [ResolverThread.filtered, h.get?]
  simp [ObjectAnswers.cachedName, cacheName]

/-- The result of a call whose callee is filtered. -/
lemma resolveUncached_of_none (b : Build) (h : a.resolveFunctionName c.nameOf c.calleeAddress = none) :
    resolveUncached a b c = (false, c.out) := by
  rw [resolveUncached, h]

end Found

/-! ### One thread -/

/-- A thread's slots and places are those of the maps, and it has returned what plain resolution gives. -/
structure ResolverThread.Agrees {slotBits : Nat} (t : ResolverThread slotBits) (m : SharedMaps)
    (a : ObjectAnswers) (b : Build) : Prop where
  nameFront : t.nameFront.PointsInto m.nameCache (a.cachedName .innermostFunction)
  locationFront : t.locationFront.PointsInto m.locationCache a.resolveFilenameAndLine
  resolving : ∀ r, t.resolving = some r → r.Found a m
  returned : ∀ p ∈ t.returned, p.2 = resolveUncached a b p.1

/-- The thread goes on with its call: it returns what plain resolution gives, or has less left to do. -/
structure Serves {slotBits : Nat} (m : SharedMaps) (a : ObjectAnswers) (b : Build) (c : ResolveCall)
    (bound : Nat) (t t' : ResolverThread slotBits) : Prop where
  agrees : t'.Agrees m a b
  outcome : (t'.resolving = none ∧ t'.returned = t.returned ++ [(c, resolveUncached a b c)]) ∨
    (t'.returned = t.returned ∧ ∃ r, t'.resolving = some r ∧ r.call = c ∧ r.stepsLeft < bound)

section Thread

variable {slotBits : Nat} {t t' : ResolverThread slotBits} {a : ObjectAnswers} {b : Build} {m m' : SharedMaps}
  {c : ResolveCall} {n l bound : Nat} {name location : Option Nat}

lemma ResolverThread.Agrees.mono (h : t.Agrees m a b) (hm : m.Extends m') : t.Agrees m' a b where
  nameFront := h.nameFront.mono hm.nameCache
  locationFront := h.locationFront.mono hm.locationCache
  resolving r hr := (h.resolving r hr).mono hm
  returned := h.returned

lemma ResolverThread.agrees_fresh (m : SharedMaps) (a : ObjectAnswers) (b : Build) :
    ({} : ResolverThread slotBits).Agrees m a b where
  nameFront := FrontCache.pointsInto_empty _ _
  locationFront := FrontCache.pointsInto_empty _ _
  resolving r hr := by simp at hr
  returned p hp := by simp at hp

/-- The call returns what it should. -/
lemma Serves.returns (h : t.Agrees m a b) {result : Resolved} (hresult : result = resolveUncached a b c) :
    Serves m a b c bound t (t.returns c result) := by
  subst hresult
  refine ⟨⟨h.nameFront, h.locationFront, ?_, ?_⟩, .inl ⟨rfl, rfl⟩⟩
  · intro r hr
    simp [ResolverThread.returns] at hr
  · intro p hp
    rcases List.mem_append.mp hp with hp | hp
    · exact h.returned p hp
    · rw [List.mem_singleton.mp hp]

/-- The call goes on. -/
lemma Serves.goesOn (h : t.Agrees m a b) {r : Resolving} (hfound : r.Found a m) (hcall : r.call = c)
    (hbound : r.stepsLeft < bound) : Serves m a b c bound t { t with resolving := some r } := by
  refine ⟨⟨h.nameFront, h.locationFront, ?_, h.returned⟩, .inr ⟨rfl, r, rfl, hcall, hbound⟩⟩
  intro r' hr'
  rwa [← Option.some.inj hr']

lemma Serves.looksUp (h : t.Agrees m a b) (hfound : PlacesFound a m c name location) :
    Serves m a b c 4 t { t with resolving := some (.lookUp c name location) } :=
  Serves.goesOn h (r := .lookUp c name location) hfound rfl (Nat.lt_succ_self 3)

lemma Serves.inserts (h : t.Agrees m a b) (hfound : PlacesFound a m c name location) :
    Serves m a b c 3 t { t with resolving := some (.insert c name location) } :=
  Serves.goesOn h (r := .insert c name location) hfound rfl (Nat.lt_succ_self 2)

lemma Serves.fills (h : t.Agrees m a b) (hfound : PlacesFound a m c (some n) (some l)) (hbound : 1 < bound) :
    Serves m a b c bound t { t with resolving := some (.fill c n l) } :=
  Serves.goesOn h (r := .fill c n l) hfound rfl hbound

/-- What a thread remembers of the places is not seen from outside. -/
lemma Serves.of_returned_eq {u : ResolverThread slotBits} (h : Serves m a b c bound u t')
    (heq : u.returned = t.returned) : Serves m a b c bound t t' := by
  refine ⟨h.agrees, ?_⟩
  rw [← heq]
  exact h.outcome

lemma ResolverThread.Agrees.storeName (h : t.Agrees m a b) (hn : NamePlace a m c n) :
    (t.storeName c n).Agrees m a b := by
  rw [ResolverThread.storeName]
  split_ifs with hhooks
  · have hnameOf : c.nameOf = .innermostFunction := by simpa [ResolveCall.hooks] using hhooks
    rw [NamePlace, hnameOf] at hn
    exact ⟨h.nameFront.store hn, h.locationFront, h.resolving, h.returned⟩
  · exact h

lemma ResolverThread.Agrees.storeLocation (h : t.Agrees m a b) (hl : LocationPlace a m c l) :
    (t.storeLocation c l).Agrees m a b := by
  rw [ResolverThread.storeLocation]
  split_ifs
  · exact ⟨h.nameFront, h.locationFront.store hl, h.resolving, h.returned⟩
  · exact h

@[simp] lemma ResolverThread.returned_storeName : (t.storeName c n).returned = t.returned := by
  rw [ResolverThread.storeName]
  split_ifs <;> rfl

@[simp] lemma ResolverThread.returned_storeLocation : (t.storeLocation c l).returned = t.returned := by
  rw [ResolverThread.storeLocation]
  split_ifs <;> rfl

/-- The node of a filtered callee ends the call, any other does not. -/
lemma Serves.filterName (h : t.Agrees m a b) (hn : NamePlace a m c n)
    (hgoesOn : a.resolveFunctionName c.nameOf c.calleeAddress ≠ none → Serves m a b c bound t t') :
    Serves m a b c bound t (if ResolverThread.filtered m c n then t.returns c (false, c.out) else t') := by
  split_ifs with hfiltered
  · have hnone := (filtered_iff hn).mp hfiltered
    exact Serves.returns h (resolveUncached_of_none b hnone).symm
  · exact hgoesOn fun hnone => hfiltered ((filtered_iff hn).mpr hnone)

/-! ### The stretches between two unlocks -/

lemma serves_warm (h : t.Agrees m a b) (c : ResolveCall) : Serves m a b c 4 t (t.warm m c) := by
  have hnamePlace : ∀ n, (if c.hooks then t.nameFront.find c.calleeAddress else none) = some n →
      NamePlace a m c n := by
    intro n hn
    split_ifs at hn with hhooks
    have hnameOf : c.nameOf = .innermostFunction := by simpa [ResolveCall.hooks] using hhooks
    rw [NamePlace, hnameOf]
    exact h.nameFront.find hn
  have hlocationPlace : ∀ l, (if c.hooks then t.locationFront.find c.callerAddress else none) = some l →
      LocationPlace a m c l := by
    intro l hl
    split_ifs at hl
    exact h.locationFront.find hl
  rw [ResolverThread.warm]
  generalize (if c.hooks then t.nameFront.find c.calleeAddress else none) = name at hnamePlace ⊢
  generalize (if c.hooks then t.locationFront.find c.callerAddress else none) = location at hlocationPlace ⊢
  have hfound : PlacesFound a m c none location := ⟨by simp, by simp, hlocationPlace⟩
  cases name with
  | none => exact Serves.looksUp h hfound
  | some n =>
    have hn := hnamePlace n rfl
    cases location with
    | none =>
      apply Serves.filterName h hn
      intro hloggable
      exact Serves.looksUp h (hfound.withName hn hloggable)
    | some l =>
      apply Serves.filterName h hn
      intro hloggable
      exact Serves.fills h (hfound.withName hn hloggable) (by decide)

lemma serves_lookUpLocation (h : t.Agrees m a b) (hm : m.Agrees a) (hfound : PlacesFound a m c name location) :
    Serves m a b c 3 t (t.lookUpLocation m c name location) := by
  unfold ResolverThread.lookUpLocation
  cases location with
  | some l =>
    cases name with
    | none => exact Serves.inserts h hfound
    | some n => exact Serves.fills h hfound (by decide)
  | none =>
    cases hl : m.locationCache.find? c.callerAddress with
    | none =>
      cases name with
      | none => exact Serves.inserts h hfound
      | some n => exact Serves.inserts h hfound
    | some l =>
      have hplace : LocationPlace a m c l := hm.locationCache.find? hl
      have hstored := h.storeLocation hplace
      apply Serves.of_returned_eq (u := t.storeLocation c l) _ ResolverThread.returned_storeLocation
      cases name with
      | none => exact Serves.inserts hstored (hfound.withLocation hplace)
      | some n => exact Serves.fills hstored (hfound.withLocation hplace) (by decide)

lemma serves_lookUp (h : t.Agrees m a b) (hm : m.Agrees a) (hfound : PlacesFound a m c name location) :
    Serves m a b c 3 t (t.lookUp m c name location) := by
  unfold ResolverThread.lookUp
  cases name with
  | some n => exact serves_lookUpLocation h hm hfound
  | none =>
    cases hn : (m.names c.nameOf).find? c.calleeAddress with
    | none => exact serves_lookUpLocation h hm hfound
    | some n =>
      have hplace : NamePlace a m c n := (hm.names c.nameOf).find? hn
      have hstored := h.storeName hplace
      apply Serves.of_returned_eq (u := t.storeName c n) _ ResolverThread.returned_storeName
      apply Serves.filterName hstored hplace
      intro hloggable
      exact serves_lookUpLocation hstored hm (hfound.withName hplace hloggable)

/-- The nodes of a call that has found its places hold what plain resolution gives. -/
lemma serves_fill (h : t.Agrees m a b) (hfound : PlacesFound a m c (some n) (some l)) :
    Serves m a b c 1 t (t.fill m c b n l) := by
  have hname := (hfound.atName n rfl).get?
  have hlocation := (hfound.atLocation l rfl).get?
  obtain ⟨calleeName, hsome⟩ := Option.ne_none_iff_exists'.mp (hfound.loggable (by simp))
  rw [ObjectAnswers.cachedName, hsome] at hname
  rw [ResolverThread.fill, hname, hlocation]
  apply Serves.returns h
  rw [resolveUncached, hsome]

/-- What a step does to the maps and to the thread that takes it. -/
structure Advances (m : SharedMaps) (a : ObjectAnswers) (b : Build) (c : ResolveCall) (bound : Nat)
    (t : ResolverThread slotBits) (p : SharedMaps × ResolverThread slotBits) : Prop where
  extend : m.Extends p.1
  agree : p.1.Agrees a
  serves : Serves p.1 a b c bound t p.2

lemma Advances.of_serves (hm : m.Agrees a) (h : Serves m a b c bound t t') :
    Advances m a b c bound t (m, t') := ⟨.refl m, hm, h⟩

/-- Under a lock the maps are added to first. -/
lemma Advances.after {p : SharedMaps × ResolverThread slotBits} (hm : m.Extends m')
    (h : Advances m' a b c bound t p) : Advances m a b c bound t p := ⟨hm.trans h.extend, h.agree, h.serves⟩

lemma Advances.of_returned_eq {u : ResolverThread slotBits} {p : SharedMaps × ResolverThread slotBits}
    (h : Advances m a b c bound u p) (heq : u.returned = t.returned) : Advances m a b c bound t p :=
  ⟨h.extend, h.agree, h.serves.of_returned_eq heq⟩

lemma Advances.filterName {p : SharedMaps × ResolverThread slotBits} (h : t.Agrees m a b) (hm : m.Agrees a)
    (hn : NamePlace a m c n)
    (hgoesOn : a.resolveFunctionName c.nameOf c.calleeAddress ≠ none → Advances m a b c bound t p) :
    Advances m a b c bound t
      (if ResolverThread.filtered m c n then (m, t.returns c (false, c.out)) else p) := by
  split_ifs with hfiltered
  · have hnone := (filtered_iff hn).mp hfiltered
    exact .of_serves hm (Serves.returns h (resolveUncached_of_none b hnone).symm)
  · exact hgoesOn fun hnone => hfiltered ((filtered_iff hn).mpr hnone)

lemma advances_insertLocation (h : t.Agrees m a b) (hm : m.Agrees a)
    (hfound : PlacesFound a m c (some n) location) :
    Advances m a b c 2 t (t.insertLocation m c a n location) := by
  unfold ResolverThread.insertLocation
  cases location with
  | some l => exact .of_serves hm (Serves.fills h hfound (by decide))
  | none =>
    have hplace := hm.locationCache.holds_emplace c.callerAddress
    have hagrees := hm.locationCache.emplace c.callerAddress
    have hlocations := NodeMap.extends_emplace m.locationCache c.callerAddress
      (a.resolveFilenameAndLine c.callerAddress)
    simp only
    generalize m.locationCache.emplace c.callerAddress (a.resolveFilenameAndLine c.callerAddress) = e
      at hplace hagrees hlocations ⊢
    have hextends : m.Extends { m with locationCache := e.1 } := ⟨.refl _, .refl _, hlocations⟩
    apply Advances.after hextends
    have hstored := (h.mono hextends).storeLocation (c := c) hplace
    apply Advances.of_returned_eq (u := t.storeLocation c e.2) _ ResolverThread.returned_storeLocation
    have hm' : SharedMaps.Agrees { m with locationCache := e.1 } a :=
      ⟨hm.nameCache, hm.frameNameCache, hagrees⟩
    apply Advances.of_serves hm'
    exact Serves.fills hstored ((hfound.mono hextends).withLocation hplace) (by decide)

lemma advances_insert (h : t.Agrees m a b) (hm : m.Agrees a) (hfound : PlacesFound a m c name location) :
    Advances m a b c 2 t (t.insert m c a name location) := by
  unfold ResolverThread.insert
  cases name with
  | some n => exact advances_insertLocation h hm hfound
  | none =>
    have hplace := (hm.names c.nameOf).holds_emplace c.calleeAddress
    have hagrees := (hm.names c.nameOf).emplace c.calleeAddress
    have hnames := NodeMap.extends_emplace (m.names c.nameOf) c.calleeAddress
      (a.cachedName c.nameOf c.calleeAddress)
    simp only
    generalize (m.names c.nameOf).emplace c.calleeAddress (a.cachedName c.nameOf c.calleeAddress) = e
      at hplace hagrees hnames ⊢
    have hextends : m.Extends (m.setNames e.1 c.nameOf) := .setNames hnames
    apply Advances.after hextends
    have hplace : NamePlace a (m.setNames e.1 c.nameOf) c e.2 := by
      rwa [NamePlace, SharedMaps.names_setNames]
    have hstored := (h.mono hextends).storeName hplace
    have hm' := hm.setNames hagrees
    apply Advances.of_returned_eq (u := t.storeName c e.2) _ ResolverThread.returned_storeName
    apply Advances.filterName hstored hm' hplace
    intro hloggable
    exact advances_insertLocation hstored hm' ((hfound.mono hextends).withName hplace hloggable)

/-- A call goes on, wherever it is. -/
lemma advances_advance (h : t.Agrees m a b) (hm : m.Agrees a) {r : Resolving} (hr : t.resolving = some r) :
    Advances m a b r.call r.stepsLeft t (t.advance m a b) := by
  have hfound := h.resolving r hr
  rw [ResolverThread.advance, hr]
  cases r with
  | lookUp c name location => exact .of_serves hm (serves_lookUp h hm hfound)
  | insert c name location => exact advances_insert h hm hfound
  | fill c name location => exact .of_serves hm (serves_fill h hfound)

end Thread

/-! ### All threads -/

/-- What holds of the maps and of every thread. -/
structure ResolverSound {τ : Type*} {slotBits : Nat} (a : ObjectAnswers) (b : Build)
    (s : Resolver τ slotBits) : Prop where
  maps : s.maps.Agrees a
  threads : ∀ i, (s.threads i).Agrees s.maps a b

/-- The contract of the resolver, of one step: what the maps and the front caches hold behind it, and what
the calls return. -/
structure ResolvesPlainly {τ : Type*} [DecidableEq τ] {slotBits : Nat} (a : ObjectAnswers) (b : Build)
    (s : Resolver τ slotBits) (ev : ResolverEvent τ) : Prop where
  oneEntry : ((s.step a b ev).maps.nameCache.nodes.map Prod.fst).Nodup ∧
    ((s.step a b ev).maps.frameNameCache.nodes.map Prod.fst).Nodup ∧
    ((s.step a b ev).maps.locationCache.nodes.map Prod.fst).Nodup
  entriesStay : s.maps.Extends (s.step a b ev).maps
  nameSlots : ∀ i, ((s.step a b ev).threads i).nameFront.PointsInto (s.step a b ev).maps.nameCache
    (a.cachedName .innermostFunction)
  locationSlots : ∀ i, ((s.step a b ev).threads i).locationFront.PointsInto
    (s.step a b ev).maps.locationCache a.resolveFilenameAndLine
  returned : ∀ i, ∀ p ∈ ((s.step a b ev).threads i).returned, p.2 = resolveUncached a b p.1
  refused : ∀ i, ∀ p ∈ ((s.step a b ev).threads i).returned,
    (p.2.1 = false ↔ a.resolveFunctionName p.1.nameOf p.1.calleeAddress = none) ∧
      (p.2.1 = false → p.2.2 = p.1.out)
  called : ∀ i c, ev = .call i c → (s.threads i).resolving = none →
    Serves (s.step a b ev).maps a b c 4 (s.threads i) ((s.step a b ev).threads i)
  advanced : ∀ i r, ev = .advance i → (s.threads i).resolving = some r →
    Serves (s.step a b ev).maps a b r.call r.stepsLeft (s.threads i) ((s.step a b ev).threads i)

section Run

variable {τ : Type*} {slotBits : Nat} {a : ObjectAnswers} {b : Build} {s : Resolver τ slotBits}

lemma resolveUncached_fst (a : ObjectAnswers) (b : Build) (c : ResolveCall) :
    (resolveUncached a b c).1 = false ↔ a.resolveFunctionName c.nameOf c.calleeAddress = none := by
  rw [resolveUncached]
  cases a.resolveFunctionName c.nameOf c.calleeAddress <;> simp

lemma resolveUncached_snd {c : ResolveCall} (h : (resolveUncached a b c).1 = false) :
    (resolveUncached a b c).2 = c.out := by
  rw [resolveUncached_of_none b ((resolveUncached_fst a b c).mp h)]

lemma ResolverSound.fresh (a : ObjectAnswers) (b : Build) : ResolverSound a b ({} : Resolver τ slotBits) where
  maps := by
    refine ⟨?_, ?_, ?_⟩ <;> intro p hp <;> simp at hp
  threads _ := ResolverThread.agrees_fresh _ a b

variable [DecidableEq τ]

/-- The other threads keep what they have; the one that takes the step agrees by what it did. -/
lemma ResolverSound.update (h : ResolverSound a b s) {maps : SharedMaps} {i : τ} {t : ResolverThread slotBits}
    (hextends : s.maps.Extends maps) (hmaps : maps.Agrees a) (ht : t.Agrees maps a b) :
    ResolverSound a b { maps := maps, threads := Function.update s.threads i t } := by
  refine ⟨hmaps, fun j => ?_⟩
  by_cases hj : j = i
  · simpa only [hj, Function.update_self] using ht
  · simpa only [ne_eq, hj, not_false_eq_true, Function.update_of_ne] using (h.threads j).mono hextends

/-- What one step does: the thread it belongs to serves its call, if there is one. -/
lemma ResolverSound.step (h : ResolverSound a b s) (ev : ResolverEvent τ) :
    ResolverSound a b (s.step a b ev) ∧ s.maps.Extends (s.step a b ev).maps := by
  cases ev with
  | call i c =>
    simp only [Resolver.step]
    split_ifs with hidle
    · exact ⟨h.update (.refl _) h.maps (serves_warm (h.threads i) c).agrees, .refl _⟩
    · exact ⟨h, .refl _⟩
  | advance i =>
    cases hr : (s.threads i).resolving with
    | none =>
      have hstep : (s.threads i).advance s.maps a b = (s.maps, s.threads i) := by
        rw [ResolverThread.advance, hr]
      simp only [Resolver.step, hstep]
      exact ⟨h.update (.refl _) h.maps (h.threads i), .refl _⟩
    | some r =>
      have hadvances := advances_advance (h.threads i) h.maps hr
      exact ⟨h.update hadvances.extend hadvances.agree hadvances.serves.agrees, hadvances.extend⟩

lemma resolvesPlainly_step (h : ResolverSound a b s) (ev : ResolverEvent τ) : ResolvesPlainly a b s ev := by
  obtain ⟨hsound, hextends⟩ := h.step ev
  refine ⟨⟨NodeMap.distinct _, NodeMap.distinct _, NodeMap.distinct _⟩, hextends,
    fun i => (hsound.threads i).nameFront, fun i => (hsound.threads i).locationFront,
    fun i => (hsound.threads i).returned, ?_, ?_, ?_⟩
  · intro i p hp
    rw [(hsound.threads i).returned p hp]
    exact ⟨resolveUncached_fst a b p.1, resolveUncached_snd⟩
  · rintro i c rfl hidle
    simp only [Resolver.step, hidle, Option.isNone_none, if_true, Function.update_self]
    exact serves_warm (h.threads i) c
  · rintro i r rfl hr
    simp only [Resolver.step, Function.update_self]
    exact (advances_advance (h.threads i) h.maps hr).serves

end Run

/-- In every interleaving of any calls, the maps hold one entry for an address and keep it, the front caches
point to the entries, and every call returns what a resolver without a cache returns. -/
theorem cached_resolver_agrees {τ : Type*} [DecidableEq τ] (slotBits : Nat) (a : ObjectAnswers) (b : Build)
    (evs : List (ResolverEvent τ)) :
    AllSteps (Resolver.step a b) (ResolvesPlainly a b) ({} : Resolver τ slotBits) evs := by
  apply allSteps_of_invariant (I := ResolverSound a b) (D := fun _ _ => True)
  · exact fun s ev h _ => (h.step ev).1
  · exact fun s ev h _ => resolvesPlainly_step h ev
  · exact ResolverSound.fresh a b
  · exact allSteps_of_forall fun _ _ => trivial

end CallStackLogger
