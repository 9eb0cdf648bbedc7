import CallStackLogger.Resolve.Agreement
import CallStackLogger.Resolve.NamingPaths

/-!
# Call sites and event sites in one cache

`resolve_no_unwind` of `src/callStack.cpp` resolves the location of a call site, `resolve_location` that of an
event. The two have rules of their own, which differ where a line row leaked into a function from the code in
front of it, and one map for both: who asks first decides what the others are told.
-/

namespace CallStackLogger

open Run

/-! ### What the object files say of an address -/

/-- An entry of DWARF with its position; the file is empty and the line 0 where DWARF has none. -/
structure PositionedEntry extends DwarfEntry where
  file : Text
  line : Nat

/-- `Lookup`. -/
structure AddressLookup where
  entries : List PositionedEntry
  symbol : Text
  symbolValue : Addr

/-- The names of a lookup, without the positions. -/
def AddressLookup.names (lookup : AddressLookup) : Lookup where
  entries := lookup.entries.map (·.toDwarfEntry)
  symbol := lookup.symbol

/-- The innermost entry, when it has both a file and a line. -/
def AddressLookup.position? (lookup : AddressLookup) : Option PositionedEntry :=
  match lookup.entries with
  | []             => none
  | innermost :: _ => if innermost.file ≠ [] ∧ innermost.line ≠ 0 then some innermost else none

/-- A registered object file and what `look_up` answers for it. -/
structure LoadedObject where
  hasSymtab : Bool
  lookUp : Addr → AddressLookup

/-- What `dladdr` says of an address it knows. -/
structure AddressInfo where
  dliFbase : Addr
  dliSname : Option Text

/-- The loader, the object files and the demangler. -/
structure ObjectFiles where
  queryAddress : Addr → Option AddressInfo
  ensureObjectLoaded : AddressInfo → Option LoadedObject
  cxaDemangle : Text → Option Text
  resolveFunctionName : NameOf → Addr → Option Text

/-! ### The two rules -/

def noObjectForCaller : Text := "<caller address to object not found>".toList

def unreadableCallerObject : Text := "<could not open caller object file>".toList

def unnamedFunction : Text := "<unknown function>".toList

namespace ObjectFiles

variable (o : ObjectFiles)

/-- `resolve_filename_and_line`. -/
def resolveFilenameAndLine (address : Addr) : CachedLocation :=
  match o.queryAddress address with
  | none      => ⟨noObjectForCaller, none, []⟩
  | some info =>
    let symbolBase := match info.dliSname with
      | some sname => functionBaseName (demangleCxa o.cxaDemangle sname)
      | none       => []
    match o.ensureObjectLoaded info with
    | none        => ⟨unreadableCallerObject, none, symbolBase⟩
    | some object =>
      let lookup := object.lookUp address
      let function := functionNameOf lookup.names .innermostFunction
      let base := innermostBaseName o.cxaDemangle lookup.names
      let functionBase := if base = [] then symbolBase else base
      match lookup.position? with
      | some innermost => ⟨innermost.file, some innermost.line, functionBase⟩
      | none           =>
        if function ≠ [] then ⟨demangleCxa o.cxaDemangle function, none, functionBase⟩
        else match info.dliSname with
          | some sname => ⟨demangleCxa o.cxaDemangle sname, none, functionBase⟩
          | none       => ⟨unnamedFunction, none, functionBase⟩

end ObjectFiles

/-- One line-table answer for an address. -/
structure LineRow where
  file : Text := []
  line : Nat := 0
deriving DecidableEq, Repr

/-- `same_as`. -/
def LineRow.sameAs (row other : LineRow) : Bool :=
  row.line ≠ 0 && row.line = other.line && row.file ≠ [] && row.file = other.file

/-- `line_row_at`. -/
def lineRowAt (lookup : AddressLookup) : LineRow :=
  match lookup.entries with
  | []             => {}
  | innermost :: _ => ⟨innermost.file, innermost.line⟩

/-- `outermost_line_row_at`. -/
def outermostLineRowAt (lookup : AddressLookup) : LineRow :=
  let row := lineRowAt lookup
  if row.line = 0 then row
  else lookup.entries.foldl (fun row entry =>
    if entry.file ≠ [] ∧ entry.line ≠ 0 then ⟨entry.file, entry.line⟩ else row) row

namespace ObjectFiles

variable (o : ObjectFiles)

/-- `resolve_event_site_location`. -/
def resolveEventSiteLocation (address : Addr) : CachedLocation :=
  let location := o.resolveFilenameAndLine address
  match location.line, o.queryAddress address with
  | some _, some info =>
    match o.ensureObjectLoaded info with
    | none        => location
    | some object =>
      if !object.hasSymtab then location else
      let lookup := object.lookUp address
      if lookup.symbol = [] ∨ lookup.symbolValue = 0 then location else
      let atSite := lineRowAt lookup
      if !atSite.sameAs (lineRowAt (object.lookUp lookup.symbolValue))
          || !atSite.sameAs (lineRowAt (object.lookUp (lookup.symbolValue - 1))) then location else
      let afterCall := outermostLineRowAt (object.lookUp ((address + 1) % 2 ^ 64))
      if afterCall.line = 0 || afterCall.sameAs atSite then { location with line := none }
      else { location with file := afterCall.file, line := some afterCall.line }
  | _, _              => location

/-- The row of the address covers the first byte of its symbol and the byte in front of it. -/
structure RowLeaksFrom (object : LoadedObject) (address : Addr) : Prop where
  hasSymtab : object.hasSymtab = true
  symbol : (object.lookUp address).symbol ≠ []
  symbolValue : (object.lookUp address).symbolValue ≠ 0
  first : (lineRowAt (object.lookUp address)).sameAs
    (lineRowAt (object.lookUp (object.lookUp address).symbolValue)) = true
  before : (lineRowAt (object.lookUp address)).sameAs
    (lineRowAt (object.lookUp ((object.lookUp address).symbolValue - 1))) = true

def RowLeaks (address : Addr) : Prop :=
  ∃ info object, o.queryAddress address = some info ∧ o.ensureObjectLoaded info = some object ∧
    RowLeaksFrom object address

end ObjectFiles

/-! ### Where the rules differ -/

section Rules

variable {o : ObjectFiles} {address : Addr} {info : AddressInfo} {object : LoadedObject}

lemma LineRow.sameAs_iff {row other : LineRow} :
    row.sameAs other = true ↔ row.line ≠ 0 ∧ row.file ≠ [] ∧ row = other := by
  obtain ⟨file, line⟩ := row
  obtain ⟨file', line'⟩ := other
  simp only [sameAs, Bool.and_eq_true, decide_eq_true_eq, LineRow.mk.injEq]
  tauto

/-- A row with a file and a line is the position of the call site. -/
lemma resolveFilenameAndLine_of_row (hinfo : o.queryAddress address = some info)
    (hobject : o.ensureObjectLoaded info = some object) (hline : (lineRowAt (object.lookUp address)).line ≠ 0)
    (hfile : (lineRowAt (object.lookUp address)).file ≠ []) :
    (o.resolveFilenameAndLine address).line = some (lineRowAt (object.lookUp address)).line ∧
      (o.resolveFilenameAndLine address).file = (lineRowAt (object.lookUp address)).file := by
  cases hentries : (object.lookUp address).entries with
  | nil => simp [lineRowAt, hentries] at hline
  | cons innermost outer =>
    simp only [lineRowAt, hentries] at hline hfile ⊢
    have hposition : (object.lookUp address).position? = some innermost := by
      rw [AddressLookup.position?, hentries]
      exact if_pos ⟨hfile, hline⟩
    simp only [ObjectFiles.resolveFilenameAndLine, hinfo, hobject, hposition, and_self]

/-- The rule of event sites finds another position exactly where the row leaks. -/
lemma resolveEventSiteLocation_eq_iff :
    o.resolveEventSiteLocation address = o.resolveFilenameAndLine address ↔ ¬ o.RowLeaks address := by
  constructor
  · rintro heq ⟨info, object, hinfo, hobject, hleaks⟩
    obtain ⟨hline, hfile, -⟩ := LineRow.sameAs_iff.mp hleaks.first
    obtain ⟨hsiteLine, hsiteFile⟩ := resolveFilenameAndLine_of_row hinfo hobject hline hfile
    simp only [ObjectFiles.resolveEventSiteLocation, hsiteLine, hinfo, hobject, hleaks.hasSymtab, hleaks.symbol,
      hleaks.symbolValue, hleaks.first, hleaks.before, Bool.not_true, Bool.or_self, Bool.false_eq_true, if_false,
      or_self] at heq
    split_ifs at heq with hafter
    · have hlost := congrArg CachedLocation.line heq
      simp [hsiteLine] at hlost
    · have hsame := congrArg CachedLocation.line heq
      have hsameFile := congrArg CachedLocation.file heq
      rw [hsiteLine] at hsame
      rw [hsiteFile] at hsameFile
      apply hafter
      have hrow : outermostLineRowAt (object.lookUp ((address + 1) % 2 ^ 64)) = lineRowAt (object.lookUp address) := by
        rw [LineRow.mk.injEq]
        exact ⟨hsameFile, Option.some.inj hsame⟩
      rw [hrow, LineRow.sameAs_iff.mpr ⟨hline, hfile, rfl⟩, Bool.or_true]
  · intro hsound
    simp only [ObjectFiles.resolveEventSiteLocation]
    split
    · rename_i info _ hinfo
      split
      · rfl
      · rename_i object hobject
        split_ifs with hsymtab hsymbol hrow
        · rfl
        · rfl
        · rfl
        -- The two branches behind a leaked row.
        all_goals
          obtain ⟨hname, hvalue⟩ := not_or.mp hsymbol
          simp only [Bool.or_eq_true, Bool.not_eq_true', not_or, Bool.not_eq_false] at hsymtab hrow
          exact absurd ⟨info, object, hinfo, hobject, hsymtab, hname, hvalue, hrow.1, hrow.2⟩ hsound
    · rfl

end Rules

/-! ### The threads -/

/-- Who asks for a location. -/
inductive LocationRule where
  | callSite
  | eventSite
deriving DecidableEq, Repr

namespace ObjectFiles

variable (o : ObjectFiles)

/-- What each rule answers. -/
def location : LocationRule → Addr → CachedLocation
  | .callSite  => o.resolveFilenameAndLine
  | .eventSite => o.resolveEventSiteLocation

/-- What `resolve_no_unwind` asks for. -/
def answers : ObjectAnswers where
  resolveFunctionName := o.resolveFunctionName
  resolveFilenameAndLine := o.resolveFilenameAndLine

end ObjectFiles

/-- Where a call of `resolve_location` is: about to take the lock, for the first or the second time. -/
inductive Locating where
  | lookUp (address : Addr)
  | insert (address : Addr)
deriving DecidableEq, Repr

def Locating.address : Locating → Addr
  | .lookUp address => address
  | .insert address => address

/-- All threads, in calls of either function. What the calls that ended in the last step returned is ghost, and
so is the rule of the call that added an address to the map. -/
structure Locator (τ : Type*) (slotBits : Nat) where
  resolver : Resolver τ slotBits := {}
  locating : τ → Option Locating := fun _ => none
  located : τ → List (Addr × Option CachedLocation) := fun _ => []
  addedBy : Addr → Option LocationRule := fun _ => none

/-- A thread calls `resolve_location`, or goes on with its call; or one of the two of `resolve_no_unwind`. -/
inductive LocatorEvent (τ : Type*) where
  | resolve (ev : ResolverEvent τ)
  | locate (i : τ) (address : Addr)
  | advance (i : τ)

/-- What the calls returned is forgotten. -/
def Resolver.forget {τ : Type*} {slotBits : Nat} (s : Resolver τ slotBits) : Resolver τ slotBits :=
  { s with threads := fun i => { s.threads i with returned := [] } }

/-- The ghost rule of every address the map has now. -/
def markAdded (rule : LocationRule) (addedBy : Addr → Option LocationRule) (m : NodeMap Addr CachedLocation)
    (address : Addr) : Option LocationRule :=
  match addedBy address with
  | some rule => some rule
  | none      => if (m.find? address).isSome then some rule else none

namespace Locator

variable {τ : Type*} [DecidableEq τ] {slotBits : Nat}

/-- The call of `resolve_location` returns what is at a place of the map. -/
def locates (s : Locator τ slotBits) (i : τ) (address : Addr) (place : Nat) : Locator τ slotBits :=
  { s with
    locating := Function.update s.locating i none
    located := Function.update s.located i [(address, s.resolver.maps.locationCache.get? place)] }

/-- The critical sections of `resolve_location`; the second one finds or adds the address. -/
def goOn (o : ObjectFiles) (s : Locator τ slotBits) (i : τ) : Locating → Locator τ slotBits
  | .lookUp address =>
    match s.resolver.maps.locationCache.find? address with
    | some place => s.locates i address place
    | none       => { s with locating := Function.update s.locating i (some (.insert address)) }
  | .insert address =>
    let (locations, place) := s.resolver.maps.locationCache.emplace address (o.resolveEventSiteLocation address)
    let s := { s with
      resolver := { s.resolver with maps := { s.resolver.maps with locationCache := locations } }
      addedBy := markAdded .eventSite s.addedBy locations }
    s.locates i address place

/-- A thread inside a call makes no other. -/
def step (o : ObjectFiles) (b : Build) (s : Locator τ slotBits) (ev : LocatorEvent τ) : Locator τ slotBits :=
  let s := { s with resolver := s.resolver.forget, located := fun _ => [] }
  match ev with
  | .resolve (.call i c)  =>
    if (s.locating i).isNone then { s with resolver := s.resolver.step o.answers b (.call i c) } else s
  | .resolve (.advance i) =>
    let resolver := s.resolver.step o.answers b (.advance i)
    { s with
      resolver := resolver
      addedBy := markAdded .callSite s.addedBy resolver.maps.locationCache }
  | .locate i address     =>
    if (s.locating i).isNone && (s.resolver.threads i).resolving.isNone then
      { s with locating := Function.update s.locating i (some (.lookUp address)) }
    else s
  | .advance i            =>
    match s.locating i with
    | some l => s.goOn o i l
    | none   => s

end Locator

/-! ### Every call gets the answer of its own rule -/

/-- The call ends with what its rule answers, or goes on. -/
def Served {slotBits : Nat} (o : ObjectFiles) (b : Build) (c : ResolveCall) (bound : Nat)
    (t : ResolverThread slotBits) : Prop :=
  (t.resolving = none ∧ t.returned = [(c, resolveUncached o.answers b c)]) ∨
    (t.returned = [] ∧ ∃ r, t.resolving = some r ∧ r.call = c ∧ r.stepsLeft < bound)

/-- What a step owes the call it belongs to. -/
structure AnswersOwnRule {τ : Type*} [DecidableEq τ] {slotBits : Nat} (o : ObjectFiles) (b : Build)
    (s : Locator τ slotBits) (ev : LocatorEvent τ) : Prop where
  called : ∀ i c, ev = .resolve (.call i c) → s.locating i = none → (s.resolver.threads i).resolving = none →
    Served o b c 4 ((s.step o b ev).resolver.threads i)
  resolved : ∀ i r, ev = .resolve (.advance i) → (s.resolver.threads i).resolving = some r →
    Served o b r.call r.stepsLeft ((s.step o b ev).resolver.threads i)
  located : ∀ i l, ev = .advance i → s.locating i = some l →
    ((s.step o b ev).locating i = none ∧
        (s.step o b ev).located i = [(l.address, some (o.resolveEventSiteLocation l.address))]) ∨
      (l = .lookUp l.address ∧ (s.step o b ev).locating i = some (.insert l.address) ∧
        (s.step o b ev).located i = [])

/-- The address was added by a call of the same rule, or its row does not leak. -/
def AddedAlike {τ : Type*} {slotBits : Nat} (o : ObjectFiles) (s : Locator τ slotBits) (rule : LocationRule)
    (address : Addr) : Prop :=
  ∀ rule', s.addedBy address = some rule' → rule' = rule ∨ ¬ o.RowLeaks address

/-- The location the step hands out, if it does, was added alike. -/
def HandsOutAlike {τ : Type*} {slotBits : Nat} (o : ObjectFiles) (s : Locator τ slotBits) :
    LocatorEvent τ → Prop
  | .resolve (.advance i) =>
    match (s.resolver.threads i).resolving with
    | some (.fill c _ _) => AddedAlike o s .callSite c.callerAddress
    | _                  => True
  | .advance i =>
    match s.locating i with
    | some l => AddedAlike o s .eventSite l.address
    | none   => True
  | _ => True

/-! ### Whose answer an address has -/

/-- The map as if one rule was asked for each address: that of the call that added it. -/
def ObjectFiles.answersFor (o : ObjectFiles) (addedBy : Addr → Option LocationRule) : ObjectAnswers where
  resolveFunctionName := o.resolveFunctionName
  resolveFilenameAndLine address := o.location ((addedBy address).getD .callSite) address

section Ghost

variable {o : ObjectFiles} {b : Build} {g : Addr → Option LocationRule} {m m' : NodeMap Addr CachedLocation}
  {rule : LocationRule} {address : Addr}

/-- The ghost rules are those of the addresses in the map. -/
def Marks (g : Addr → Option LocationRule) (m : NodeMap Addr CachedLocation) : Prop :=
  ∀ address, g address = none ↔ m.find? address = none

lemma markAdded_of_some (h : g address = some rule) (rule' : LocationRule) (m : NodeMap Addr CachedLocation) :
    markAdded rule' g m address = some rule := by
  rw [markAdded, h]

lemma Marks.extend (h : Marks g m) (hextends : m.Extends m') (rule : LocationRule) :
    Marks (markAdded rule g m') m' := by
  intro address
  cases hg : g address with
  | some rule' =>
    have hfound : m.find? address ≠ none := by
      rw [Ne, ← h address, hg]
      simp
    rw [markAdded_of_some hg]
    simp only [reduceCtorEq, false_iff]
    exact NodeMap.find?_ne_none_mono hfound hextends
  | none =>
    rw [markAdded, hg]
    cases m'.find? address <;> simp

lemma answersFor_markAdded_callSite (o : ObjectFiles) (g : Addr → Option LocationRule)
    (m : NodeMap Addr CachedLocation) : o.answersFor (markAdded .callSite g m) = o.answersFor g := by
  simp only [ObjectFiles.answersFor, ObjectAnswers.mk.injEq, true_and]
  funext address
  rw [markAdded]
  cases g address with
  | some rule => rfl
  | none => split_ifs <;> rfl

/-- The two rules are asked for the same answer. -/
lemma location_eq_iff (rule rule' : LocationRule) :
    o.location rule' address = o.location rule address ↔ rule' = rule ∨ ¬ o.RowLeaks address := by
  cases rule <;> cases rule' <;>
    simp [ObjectFiles.location, resolveEventSiteLocation_eq_iff, eq_comm (a := o.resolveFilenameAndLine address)]

end Ghost

/-! ### One step -/

section Step

variable {slotBits : Nat} {t : ResolverThread slotBits} {a a' : ObjectAnswers} {b : Build} {m : SharedMaps}
  {c : ResolveCall} {name location : Option Nat}

/-- What a thread has returned in one step, other than that a callee is filtered, is what it had before. -/
def OnlyFiltered (t t' : ResolverThread slotBits) : Prop := ∀ p ∈ t'.returned, p ∈ t.returned ∨ p.2.1 = false

lemma onlyFiltered_of_returned_eq {t' : ResolverThread slotBits} (h : t'.returned = t.returned) :
    OnlyFiltered t t' := by
  intro p hp
  rw [h] at hp
  exact .inl hp

lemma onlyFiltered_returns (t : ResolverThread slotBits) (c : ResolveCall) (out : ResolvedFrameView) :
    OnlyFiltered t (t.returns c (false, out)) := by
  intro p hp
  rcases List.mem_append.mp hp with hp | hp
  · exact .inl hp
  · rw [List.mem_singleton.mp hp]
    exact .inr rfl

lemma onlyFiltered_warm (m : SharedMaps) (t : ResolverThread slotBits) (c : ResolveCall) :
    OnlyFiltered t (t.warm m c) := by
  rw [ResolverThread.warm]
  generalize (if c.hooks then t.nameFront.find c.calleeAddress else none) = name
  generalize (if c.hooks then t.locationFront.find c.callerAddress else none) = location
  cases name with
  | none => exact onlyFiltered_of_returned_eq rfl
  | some n =>
    cases location with
    | none =>
      simp only
      split_ifs
      · exact onlyFiltered_returns t c c.out
      · exact onlyFiltered_of_returned_eq rfl
    | some l =>
      simp only
      split_ifs
      · exact onlyFiltered_returns t c c.out
      · exact onlyFiltered_of_returned_eq rfl

lemma returned_lookUpLocation (t : ResolverThread slotBits) (m : SharedMaps) (c : ResolveCall)
    (name location : Option Nat) : (t.lookUpLocation m c name location).returned = t.returned := by
  unfold ResolverThread.lookUpLocation
  cases location with
  | some l => cases name <;> rfl
  | none =>
    cases m.locationCache.find? c.callerAddress with
    | none => cases name <;> rfl
    | some l =>
      cases name with
      | none => exact ResolverThread.returned_storeLocation
      | some n => exact ResolverThread.returned_storeLocation

lemma onlyFiltered_lookUp (m : SharedMaps) (t : ResolverThread slotBits) (c : ResolveCall)
    (name location : Option Nat) : OnlyFiltered t (t.lookUp m c name location) := by
  unfold ResolverThread.lookUp
  cases name with
  | some n => exact onlyFiltered_of_returned_eq (returned_lookUpLocation t m c (some n) location)
  | none =>
    cases (m.names c.nameOf).find? c.calleeAddress with
    | none => exact onlyFiltered_of_returned_eq (returned_lookUpLocation t m c none location)
    | some n =>
      simp only
      split_ifs
      · intro p hp
        rw [← ResolverThread.returned_storeName (t := t) (c := c) (n := n)]
        exact onlyFiltered_returns (t.storeName c n) c c.out p hp
      · apply onlyFiltered_of_returned_eq
        rw [returned_lookUpLocation, ResolverThread.returned_storeName]

lemma returned_insertLocation (t : ResolverThread slotBits) (m : SharedMaps) (c : ResolveCall) (a : ObjectAnswers)
    (n : Nat) (location : Option Nat) : (t.insertLocation m c a n location).2.returned = t.returned := by
  unfold ResolverThread.insertLocation
  cases location with
  | some l => rfl
  | none => exact ResolverThread.returned_storeLocation

lemma onlyFiltered_insert (m : SharedMaps) (t : ResolverThread slotBits) (c : ResolveCall) (a : ObjectAnswers)
    (name location : Option Nat) : OnlyFiltered t (t.insert m c a name location).2 := by
  unfold ResolverThread.insert
  cases name with
  | some n => exact onlyFiltered_of_returned_eq (returned_insertLocation t m c a n location)
  | none =>
    simp only
    split_ifs
    · intro p hp
      rw [← ResolverThread.returned_storeName (t := t) (c := c)]
      exact onlyFiltered_returns (t.storeName c _) c c.out p hp
    · apply onlyFiltered_of_returned_eq
      rw [returned_insertLocation, ResolverThread.returned_storeName]

/-- An answer that is not asked for makes no difference. -/
lemma insertLocation_congr (h : m.locationCache.find? c.callerAddress = none →
      a.resolveFilenameAndLine c.callerAddress = a'.resolveFilenameAndLine c.callerAddress) (n : Nat) :
    t.insertLocation m c a n location = t.insertLocation m c a' n location := by
  unfold ResolverThread.insertLocation
  cases location with
  | some l => rfl
  | none => simp only [NodeMap.emplace_congr h]

lemma locationCache_setNames (m : SharedMaps) (names : NodeMap Addr CachedName) (nameOf : NameOf) :
    (m.setNames names nameOf).locationCache = m.locationCache := by
  cases nameOf <;> rfl

lemma insert_congr (hnames : a.resolveFunctionName = a'.resolveFunctionName)
    (h : m.locationCache.find? c.callerAddress = none →
      a.resolveFilenameAndLine c.callerAddress = a'.resolveFilenameAndLine c.callerAddress) :
    t.insert m c a name location = t.insert m c a' name location := by
  unfold ResolverThread.insert
  cases name with
  | some n => exact insertLocation_congr h n
  | none =>
    simp only [ObjectAnswers.cachedName, hnames]
    refine ite_congr rfl (fun _ => rfl) fun _ => insertLocation_congr ?_ _
    rwa [locationCache_setNames]

/-- What the maps already have is not asked for. -/
lemma advance_congr (hnames : a.resolveFunctionName = a'.resolveFunctionName)
    (h : ∀ address, m.locationCache.find? address = none →
      a.resolveFilenameAndLine address = a'.resolveFilenameAndLine address) :
    t.advance m a b = t.advance m a' b := by
  unfold ResolverThread.advance
  cases t.resolving with
  | none => rfl
  | some r =>
    cases r with
    | lookUp c name location => rfl
    | insert c name location => exact insert_congr hnames (h c.callerAddress)
    | fill c name location => rfl

end Step

/-! ### Any run -/

/-- What holds of the maps and of every thread, with each address at the answer of the rule that added it. -/
structure LocatorSound {τ : Type*} {slotBits : Nat} (o : ObjectFiles) (b : Build) (s : Locator τ slotBits) :
    Prop where
  resolver : ResolverSound (o.answersFor s.addedBy) b s.resolver.forget
  marks : Marks s.addedBy s.resolver.maps.locationCache

section Relocate

variable {τ : Type*} {slotBits : Nat} {o : ObjectFiles} {b : Build} {g g' : Addr → Option LocationRule}
  {s : Resolver τ slotBits} {locations : NodeMap Addr CachedLocation}

lemma ResolverSound.forget {a : ObjectAnswers} (h : ResolverSound a b s) : ResolverSound a b s.forget where
  maps := h.maps
  threads i :=
    { nameFront := (h.threads i).nameFront
      locationFront := (h.threads i).locationFront
      resolving := (h.threads i).resolving
      returned := by simp [Resolver.forget] }

/-- What was there keeps its value when the map of the locations is added to. -/
lemma holds_relocate (hmarks : Marks g s.maps.locationCache) (hkeeps : ∀ x rule, g x = some rule → g' x = some rule)
    (hextends : s.maps.locationCache.Extends locations) {l : Nat} {x : Addr}
    (h : s.maps.locationCache.Holds l x ((o.answersFor g).resolveFilenameAndLine x)) :
    locations.Holds l x ((o.answersFor g').resolveFilenameAndLine x) := by
  obtain ⟨rule, hrule⟩ := Option.ne_none_iff_exists'.mp (mt (hmarks x).mp h.find?_ne_none)
  have hvalue : (o.answersFor g').resolveFilenameAndLine x = (o.answersFor g).resolveFilenameAndLine x := by
    simp only [ObjectFiles.answersFor, hrule, hkeeps x rule hrule]
  rw [hvalue]
  exact h.mono hextends

lemma ResolverSound.relocate (h : ResolverSound (o.answersFor g) b s) (hmarks : Marks g s.maps.locationCache)
    (hkeeps : ∀ x rule, g x = some rule → g' x = some rule) (hextends : s.maps.locationCache.Extends locations)
    (hagrees : locations.Agrees (o.answersFor g').resolveFilenameAndLine) :
    ResolverSound (o.answersFor g') b { s with maps := { s.maps with locationCache := locations } }.forget where
  maps := ⟨h.maps.nameCache, h.maps.frameNameCache, hagrees⟩
  threads i := by
    have hfound : ∀ {c name location}, PlacesFound (o.answersFor g) s.maps c name location →
        PlacesFound (o.answersFor g') { s.maps with locationCache := locations } c name location := by
      intro c name location hplaces
      have hnames : PlacesFound (o.answersFor g) { s.maps with locationCache := locations } c name location :=
        hplaces.mono ⟨.refl _, .refl _, hextends⟩
      exact ⟨hnames.atName, hnames.loggable, fun l hl =>
        holds_relocate hmarks hkeeps hextends (hplaces.atLocation l hl)⟩
    refine ⟨(h.threads i).nameFront, ?_, ?_, by simp [Resolver.forget]⟩
    · intro slot n hn
      exact holds_relocate hmarks hkeeps hextends ((h.threads i).locationFront slot n hn)
    · intro r hr
      have hplaces := (h.threads i).resolving r hr
      cases r with
      | lookUp c name location => exact hfound hplaces
      | insert c name location => exact hfound hplaces
      | fill c name location => exact hfound hplaces

/-- The address of an event site joins the map with the answer of its rule. -/
lemma agrees_emplace_eventSite {m : NodeMap Addr CachedLocation} (hmarks : Marks g m)
    (hagrees : m.Agrees (o.answersFor g).resolveFilenameAndLine) (x : Addr) :
    let m' := (m.emplace x (o.resolveEventSiteLocation x)).1
    m'.Agrees (o.answersFor (markAdded .eventSite g m')).resolveFilenameAndLine := by
  intro m' p hp
  have hold : ∀ p ∈ m.nodes, p.2 = (o.answersFor (markAdded .eventSite g m')).resolveFilenameAndLine p.1 := by
    intro p hp
    have hmem : p.1 ∈ m.nodes.map Prod.fst := List.mem_map.mpr ⟨p, hp, rfl⟩
    have hfound : m.find? p.1 ≠ none := by
      rwa [Ne, NodeMap.find?_eq_none_iff, not_not]
    obtain ⟨rule, hrule⟩ := Option.ne_none_iff_exists'.mp (mt (hmarks p.1).mp hfound)
    rw [hagrees p hp]
    simp only [ObjectFiles.answersFor, markAdded_of_some hrule, hrule]
  cases hx : m.find? x with
  | some n =>
    have hsame : m' = m := by
      simp only [m', NodeMap.emplace_of_some hx]
    rw [hsame] at hp
    exact hold p hp
  | none =>
    have hnodes : m'.nodes = m.nodes ++ [(x, o.resolveEventSiteLocation x)] := (NodeMap.emplace_of_none hx).1
    rw [hnodes] at hp
    rcases List.mem_append.mp hp with hp | hp
    · exact hold p hp
    · obtain rfl := List.mem_singleton.mp hp
      have hadded : (m'.find? x).isSome = true :=
        Option.isSome_iff_ne_none.mpr (NodeMap.holds_emplace_of_none hx).find?_ne_none
      have hnone := (hmarks x).mpr hx
      simp only [ObjectFiles.answersFor, markAdded, hnone, hadded, if_true, Option.getD_some, ObjectFiles.location]

end Relocate

section Run

variable {τ : Type*} {slotBits : Nat} {o : ObjectFiles} {b : Build} {s : Locator τ slotBits}

lemma LocatorSound.fresh (o : ObjectFiles) (b : Build) : LocatorSound o b ({} : Locator τ slotBits) where
  resolver := (ResolverSound.fresh _ b).forget
  marks x := by simp [NodeMap.find?]

lemma LocatorSound.forgotten (h : LocatorSound o b s) :
    LocatorSound o b { s with resolver := s.resolver.forget, located := fun _ => [] } := ⟨h.resolver, h.marks⟩

/-- What the maps hold for a call, and what its own rule answers. -/
lemma resolveUncached_answersFor_iff (g : Addr → Option LocationRule) (b : Build) (c : ResolveCall) :
    resolveUncached (o.answersFor g) b c = resolveUncached o.answers b c ↔
      o.resolveFunctionName c.nameOf c.calleeAddress = none ∨
        o.location ((g c.callerAddress).getD .callSite) c.callerAddress = o.location .callSite c.callerAddress := by
  simp only [resolveUncached, ObjectFiles.answersFor, ObjectFiles.answers, ObjectFiles.location]
  cases o.resolveFunctionName c.nameOf c.calleeAddress with
  | none => simp
  | some calleeName =>
    simp only [reduceCtorEq, false_or, Prod.mk.injEq, true_and]
    constructor
    · intro heq
      rw [ResolvedFrameView.mk.injEq] at heq
      obtain ⟨-, -, -, hfile, hline, hbase⟩ := heq
      rw [CachedLocation.mk.injEq]
      exact ⟨hfile, hline, Option.some.inj hbase⟩
    · intro heq
      rw [heq]

lemma addedAlike_iff {rule rule' : LocationRule} {x : Addr} (h : s.addedBy x = some rule') :
    AddedAlike o s rule x ↔ o.location ((s.addedBy x).getD .callSite) x = o.location rule x := by
  rw [h, Option.getD_some, location_eq_iff, AddedAlike]
  constructor
  · intro halike
    exact halike rule' h
  · rintro halike rule'' h''
    rwa [← Option.some.inj (h.symm.trans h'')]

/-- A call that ends without a location ends as its own rule has it. -/
lemma served_of_onlyFiltered {t t' : ResolverThread slotBits} {m : SharedMaps} {c : ResolveCall} {bound : Nat}
    (hserves : Serves m (o.answersFor s.addedBy) b c bound t t') (hempty : t.returned = [])
    (honly : OnlyFiltered t t') : Served o b c bound t' := by
  rcases hserves.outcome with ⟨hends, hreturned⟩ | ⟨hreturned, hgoesOn⟩
  · rw [hempty, List.nil_append] at hreturned
    have hfalse : (resolveUncached (o.answersFor s.addedBy) b c).1 = false := by
      have hmem : (c, resolveUncached (o.answersFor s.addedBy) b c) ∈ t'.returned := by
        rw [hreturned]
        exact List.mem_singleton_self _
      rcases honly _ hmem with hold | hfalse
      · rw [hempty] at hold
        exact absurd hold List.not_mem_nil
      · exact hfalse
    have hnone := (resolveUncached_fst _ b c).mp hfalse
    rw [(resolveUncached_answersFor_iff s.addedBy b c).mpr (.inl hnone)] at hreturned
    exact .inl ⟨hends, hreturned⟩
  · rw [hempty] at hreturned
    exact .inr ⟨hreturned, hgoesOn⟩

/-- A call that reads the location ends as its own rule has it when the location was added alike. -/
lemma served_fill_iff {t : ResolverThread slotBits} {m : SharedMaps} {c : ResolveCall} {n l : Nat}
    (h : t.Agrees m (o.answersFor s.addedBy) b) (hempty : t.returned = [])
    (hfound : PlacesFound (o.answersFor s.addedBy) m c (some n) (some l)) (hmarks : Marks s.addedBy m.locationCache) :
    Served o b c 1 (t.fill m c b n l) ↔ AddedAlike o s .callSite c.callerAddress := by
  obtain ⟨rule, hrule⟩ := Option.ne_none_iff_exists'.mp
    (mt (hmarks c.callerAddress).mp (hfound.atLocation l rfl).find?_ne_none)
  have hsome : o.resolveFunctionName c.nameOf c.calleeAddress ≠ none := hfound.loggable (by simp)
  have hiff := resolveUncached_answersFor_iff (o := o) s.addedBy b c
  rw [or_iff_right hsome] at hiff
  rw [addedAlike_iff hrule, ← hiff]
  rcases (serves_fill h hfound).outcome with ⟨hends, hreturned⟩ | ⟨-, r, -, -, hleft⟩
  · rw [hempty, List.nil_append] at hreturned
    constructor
    · rintro (⟨-, hown⟩ | ⟨hown, -⟩)
      · rw [hreturned] at hown
        exact congrArg Prod.snd (List.singleton_injective hown)
      · rw [hreturned] at hown
        exact absurd hown (List.cons_ne_nil _ _)
    · intro heq
      rw [heq] at hreturned
      exact .inl ⟨hends, hreturned⟩
  · cases r <;> simp [Resolving.stepsLeft] at hleft

/-- A call of `resolve_location` that finds the address gets what its own rule answers when it was added alike. -/
lemma located_iff (h : LocatorSound o b s) {x : Addr} {n : Nat}
    (hfound : s.resolver.maps.locationCache.find? x = some n) :
    s.resolver.maps.locationCache.get? n = some (o.resolveEventSiteLocation x) ↔ AddedAlike o s .eventSite x := by
  have hholds := h.resolver.maps.locationCache.find? hfound
  obtain ⟨rule, hrule⟩ := Option.ne_none_iff_exists'.mp (mt (h.marks x).mp hholds.find?_ne_none)
  rw [addedAlike_iff hrule]
  have hget : s.resolver.maps.locationCache.get? n = _ := hholds.get?
  rw [hget, Option.some_inj]
  rfl

/-- The rule of the call that added an address is as good as the call site's: it is only asked for what is not in
the map. -/
lemma LocatorSound.advance_answersFor (h : LocatorSound o b s) (t : ResolverThread slotBits) :
    t.advance s.resolver.maps (o.answersFor s.addedBy) b = t.advance s.resolver.maps o.answers b := by
  refine advance_congr (a := o.answersFor s.addedBy) rfl ?_
  intro x hx
  simp only [ObjectFiles.answersFor, (h.marks x).mpr hx, Option.getD_none]
  rfl

variable [DecidableEq τ]

lemma LocatorSound.step_answersFor (h : LocatorSound o b s) (ev : ResolverEvent τ) :
    s.resolver.forget.step (o.answersFor s.addedBy) b ev = s.resolver.forget.step o.answers b ev := by
  cases ev with
  | call i c => rfl
  | advance i =>
    have hadvance := h.advance_answersFor (s.resolver.forget.threads i)
    simp only [Resolver.step]
    rw [show s.resolver.forget.maps = s.resolver.maps from rfl, hadvance]

lemma maps_call (s : Resolver τ slotBits) (a : ObjectAnswers) (b : Build) (i : τ) (c : ResolveCall) :
    (s.step a b (.call i c)).maps = s.maps := by
  simp only [Resolver.step]
  split_ifs <;> rfl

lemma LocatorSound.goOn (h : LocatorSound o b s) (i : τ) (l : Locating) : LocatorSound o b (s.goOn o i l) := by
  cases l with
  | lookUp x =>
    simp only [Locator.goOn]
    cases s.resolver.maps.locationCache.find? x with
    | some place => exact ⟨h.resolver, h.marks⟩
    | none => exact ⟨h.resolver, h.marks⟩
  | insert x =>
    have hextends := NodeMap.extends_emplace s.resolver.maps.locationCache x (o.resolveEventSiteLocation x)
    have hagrees := agrees_emplace_eventSite h.marks h.resolver.maps.locationCache x
    exact ⟨h.resolver.relocate h.marks (fun _ _ hx => markAdded_of_some hx _ _) hextends hagrees,
      h.marks.extend hextends .eventSite⟩

lemma LocatorSound.step (h : LocatorSound o b s) (ev : LocatorEvent τ) : LocatorSound o b (s.step o b ev) := by
  cases ev with
  | resolve ev =>
    obtain ⟨hsound, hextends⟩ := h.resolver.step ev
    rw [h.step_answersFor] at hsound hextends
    cases ev with
    | call i c =>
      simp only [Locator.step]
      split_ifs
      · refine ⟨hsound.forget, ?_⟩
        simp only [maps_call]
        exact h.marks
      · exact h.forgotten
    | advance i =>
      refine ⟨?_, h.marks.extend hextends.locationCache .callSite⟩
      simp only [Locator.step, answersFor_markAdded_callSite]
      exact hsound.forget
  | locate i x =>
    simp only [Locator.step]
    split_ifs
    · exact ⟨h.resolver, h.marks⟩
    · exact h.forgotten
  | advance i =>
    simp only [Locator.step]
    cases s.locating i with
    | some l => exact h.forgotten.goOn i l
    | none => exact h.forgotten

lemma located_goOn_iff (h : LocatorSound o b s) {i : τ} (hempty : s.located i = []) (l : Locating) :
    (((s.goOn o i l).locating i = none ∧
        (s.goOn o i l).located i = [(l.address, some (o.resolveEventSiteLocation l.address))]) ∨
      (l = .lookUp l.address ∧ (s.goOn o i l).locating i = some (.insert l.address) ∧
        (s.goOn o i l).located i = [])) ↔ AddedAlike o s .eventSite l.address := by
  cases l with
  | lookUp x =>
    simp only [Locator.goOn, Locating.address]
    cases hx : s.resolver.maps.locationCache.find? x with
    | some n =>
      rw [← located_iff h hx]
      simp [Locator.locates]
    | none =>
      simp only [AddedAlike, (h.marks x).mpr hx]
      simp [hempty]
  | insert x =>
    simp only [Locator.goOn, Locating.address]
    cases hx : s.resolver.maps.locationCache.find? x with
    | some n =>
      rw [← located_iff h hx]
      simp [Locator.locates, NodeMap.emplace_of_some hx]
    | none =>
      simp only [AddedAlike, (h.marks x).mpr hx]
      have hget := (NodeMap.holds_emplace_of_none (v := o.resolveEventSiteLocation x) hx).get?
      simp [Locator.locates, hget]

/-- The steps of `resolve_no_unwind`. -/
lemma served_advance_iff (h : LocatorSound o b s) {i : τ} {r : Resolving}
    (hr : (s.resolver.threads i).resolving = some r) :
    Served o b r.call r.stepsLeft ((s.step o b (.resolve (.advance i))).resolver.threads i) ↔
      HandsOutAlike o s (.resolve (.advance i)) := by
  have hadvances := advances_advance (h.resolver.threads i) h.resolver.maps hr
  have hagrees := h.resolver.threads i
  have hfound := hagrees.resolving r hr
  have hstep : (s.step o b (.resolve (.advance i))).resolver.threads i =
      ((s.resolver.forget.threads i).advance s.resolver.maps o.answers b).2 := by
    simp only [Locator.step, Resolver.step, Function.update_self]
    rfl
  have hserves := hadvances.serves
  rw [show s.resolver.forget.maps = s.resolver.maps from rfl, h.advance_answersFor] at hserves
  have hforget : (s.resolver.forget.threads i).resolving = some r := hr
  simp only [HandsOutAlike, hr]
  rw [hstep]
  cases r with
  | lookUp c name location =>
    simp only [iff_true]
    apply served_of_onlyFiltered hserves rfl
    simp only [ResolverThread.advance, hforget]
    exact onlyFiltered_lookUp _ _ c name location
  | insert c name location =>
    simp only [iff_true]
    apply served_of_onlyFiltered hserves rfl
    simp only [ResolverThread.advance, hforget]
    exact onlyFiltered_insert _ _ c _ name location
  | fill c name location =>
    simp only [ResolverThread.advance, hforget]
    exact served_fill_iff hagrees rfl hfound h.marks

lemma answersOwnRule_iff (h : LocatorSound o b s) (ev : LocatorEvent τ) :
    AnswersOwnRule o b s ev ↔ HandsOutAlike o s ev := by
  cases ev with
  | resolve ev =>
    cases ev with
    | call i c =>
      simp only [HandsOutAlike, iff_true]
      refine ⟨?_, by rintro _ _ ⟨⟩, by rintro _ _ ⟨⟩⟩
      rintro i' c' ⟨⟩ hlocating hidle
      have hthread : (s.step o b (.resolve (.call i c))).resolver.threads i =
          (s.resolver.forget.threads i).warm s.resolver.maps c := by
        have hforget : (s.resolver.forget.threads i).resolving = none := hidle
        simp only [Locator.step, hlocating, Resolver.step, hforget, Option.isNone_none, if_true, Function.update_self]
        rfl
      rw [hthread]
      exact served_of_onlyFiltered (serves_warm (h.resolver.threads i) c) rfl (onlyFiltered_warm _ _ c)
    | advance i =>
      cases hr : (s.resolver.threads i).resolving with
      | none =>
        simp only [HandsOutAlike, hr, iff_true]
        refine ⟨by rintro _ _ ⟨⟩, ?_, by rintro _ _ ⟨⟩⟩
        rintro i' r ⟨⟩ hr'
        exact absurd (hr'.symm.trans hr) (Option.some_ne_none r)
      | some r =>
        constructor
        · intro hanswers
          exact (served_advance_iff h hr).mp (hanswers.resolved i r rfl hr)
        · intro halike
          refine ⟨by rintro _ _ ⟨⟩, ?_, by rintro _ _ ⟨⟩⟩
          rintro i' r' ⟨⟩ hr'
          obtain rfl := Option.some.inj (hr'.symm.trans hr)
          exact (served_advance_iff h hr).mpr halike
  | locate i x =>
    simp only [HandsOutAlike, iff_true]
    exact ⟨by rintro _ _ ⟨⟩, by rintro _ _ ⟨⟩, by rintro _ _ ⟨⟩⟩
  | advance i =>
    cases hl : s.locating i with
    | none =>
      simp only [HandsOutAlike, hl, iff_true]
      refine ⟨by rintro _ _ ⟨⟩, by rintro _ _ ⟨⟩, ?_⟩
      rintro i' l ⟨⟩ hl'
      exact absurd (hl'.symm.trans hl) (Option.some_ne_none l)
    | some l =>
      have hiff := located_goOn_iff h.forgotten (i := i) rfl l
      have hstep : s.step o b (.advance i) =
          Locator.goOn o { s with resolver := s.resolver.forget, located := fun _ => [] } i l := by
        simp only [Locator.step, hl]
      simp only [HandsOutAlike, hl]
      constructor
      · intro hanswers
        have hlocated := hanswers.located i l rfl hl
        rw [hstep] at hlocated
        exact hiff.mp hlocated
      · intro halike
        refine ⟨by rintro _ _ ⟨⟩, by rintro _ _ ⟨⟩, ?_⟩
        rintro i' l' ⟨⟩ hl'
        obtain rfl := Option.some.inj (hl'.symm.trans hl)
        rw [hstep]
        exact hiff.mpr halike

end Run

/-- In a run every call gets the answer of its own rule exactly when each location that is handed out was added by
a call of the same rule, or at an address whose row does not leak. -/
theorem own_rule_answers_iff {τ : Type*} [DecidableEq τ] (slotBits : Nat) (o : ObjectFiles) (b : Build)
    (evs : List (LocatorEvent τ)) :
    AllSteps (Locator.step o b) (AnswersOwnRule o b) ({} : Locator τ slotBits) evs ↔
      AllSteps (Locator.step o b) (fun s ev => HandsOutAlike o s ev) ({} : Locator τ slotBits) evs := by
  apply allSteps_iff_of_invariant (I := LocatorSound o b) (D := fun _ _ => True)
  · exact fun s ev h _ _ => h.step ev
  · exact fun s ev h _ => answersOwnRule_iff h ev
  · exact LocatorSound.fresh o b
  · exact allSteps_of_forall fun _ _ => trivial

/-- A landing pad at 101, the entry of the cold part of `f`, with the row of `g` in front of it. -/
def landingPad : ObjectFiles where
  queryAddress _ := some ⟨0, none⟩
  ensureObjectLoaded _ := some
    { hasSymtab := true
      lookUp := fun address =>
        if address ≤ 101 then ⟨[⟨⟨"g".toList⟩, "g.cpp".toList, 7⟩], "f".toList, 100⟩
        else ⟨[⟨⟨"f".toList⟩, "f.cpp".toList, 3⟩], "f".toList, 100⟩ }
  cxaDemangle _ := none
  resolveFunctionName _ _ := some "h".toList

/-- A call of `h` made at the landing pad. -/
def callAtPad : ResolveCall := ⟨200, 101, ⟨none, [], [], [], none, none⟩, .outermostFunction⟩

/-- The call is resolved first, the event at the same address behind it. -/
def padEvents : List (LocatorEvent Unit) :=
  [.resolve (.call () callAtPad), .resolve (.advance ()), .resolve (.advance ()), .resolve (.advance ()),
    .locate () 101, .advance ()]

/-- A build that logs exceptions. -/
def exceptionBuild : Build := ⟨true, false, false⟩

/-- The event gets the line of the other function. -/
theorem event_gets_call_site_answer :
    ¬ AllSteps (Locator.step landingPad exceptionBuild) (AnswersOwnRule landingPad exceptionBuild) ({} : Locator Unit 10)
      padEvents := by
  rintro ⟨-, -, -, -, -, hlast, -⟩
  have hlocated := hlast.located () (.lookUp 101) rfl (by decide +kernel)
  revert hlocated
  decide +kernel

end CallStackLogger
