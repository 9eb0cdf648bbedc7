import CallStackLogger.Core.Growing
import CallStackLogger.Resolve.Locations
import CallStackLogger.Resolve.Maps
import CallStackLogger.Resolve.StdFilter

/-!
# The object files

`ensure_object_loaded` of `src/callStack.cpp` registers a file when an address in it is first seen, from whatever the
disk and the memory map hold at that moment, and remembers what came of it. The functions that resolve addresses go
through it; what they answer is what the rules say with the objects that are registered in the end.
-/

namespace CallStackLogger

open Growing

/-! ### A registered file -/

/-- What one call of `collect_pcinfo` is told. -/
structure PcInfo where
  file : Option Text
  line : Int
  function : Option Text

/-- `collect_pcinfo`. -/
def PcInfo.entry (r : PcInfo) : PositionedEntry where
  function := r.function.getD []
  file := r.file.getD []
  line := if 0 < r.line then r.line.toNat else 0

/-- `addressResolver::ObjectFile`, with what libbacktrace reports from the file for an address. -/
structure RegisteredObject where
  hasSymtab : Bool
  hasDwarf : Bool
  hasOwnSymtab : Bool
  pcinfo : Addr → List PcInfo
  syminfo : Addr → Option (Text × Addr)

/-- `look_up`. -/
def RegisteredObject.lookUp (object : RegisteredObject) (address : Addr) : AddressLookup :=
  let entries := if object.hasDwarf then (object.pcinfo address).map PcInfo.entry else []
  -- A single empty entry is what libbacktrace reports when nothing describes the address.
  let nothing := entries.length = 1 ∧ ∀ e ∈ entries, e.function = [] ∧ e.file = [] ∧ e.line = 0
  let symbol := if object.hasSymtab then object.syminfo address else none
  { entries := if nothing then [] else entries
    symbol := (symbol.map Prod.fst).getD []
    symbolValue := (symbol.map Prod.snd).getD 0 }

def RegisteredObject.loaded (object : RegisteredObject) : LoadedObject := ⟨object.hasSymtab, object.lookUp⟩

/-! ### The table of objects -/

/-- What `dladdr1` says of an address it knows. -/
structure SymbolInfo extends AddressInfo where
  dliFname : Option Text
  loadBias : Nat

/-- What the system answers when a file is registered: the content of `/proc/self/cmdline` and `/proc/self/maps`,
whether `cslg_backtrace_create_state` succeeds, and what `cslg_backtrace_add_file` finds at a path. -/
structure LoadReply where
  cmdline : Text
  maps : Text
  created : Bool
  addFile : Text → Nat → Option RegisteredObject

/-- A registration that was tried. -/
structure Registration where
  info : SymbolInfo
  path : Text
  reply : LoadReply

def Registration.base (r : Registration) : Addr := r.info.dliFbase

/-- What a registration finds. -/
def Registration.found (r : Registration) : Option RegisteredObject :=
  if r.path = [] ∨ r.reply.created = false then none else r.reply.addFile r.path r.info.loadBias

/-- The executable itself has neither a symbol table nor debug information. -/
def Registration.warns (r : Registration) : Bool :=
  match r.found with
  | some object => decide (r.path = executableFile) && !object.hasDwarf && !object.hasOwnSymtab
  | none        => false

/-- `objects`, `object_load_failed` and `argv0`; the bases for which the warning was printed, and the registrations
that were tried, are ghost. -/
structure ObjectTable where
  objects : Addr → Option RegisteredObject := fun _ => none
  objectLoadFailed : Addr → Bool := fun _ => false
  argv0 : Option Text := none
  warned : List Addr := []
  tried : List Registration := []

namespace ObjectTable

/-- `argv0`: read when it is first asked for. -/
def readArgv0 (t : ObjectTable) (r : LoadReply) (info : SymbolInfo) : ObjectTable :=
  if info.dliFname.isSome ∧ t.argv0 = none then { t with argv0 := some (cStr r.cmdline) } else t

/-- `object_file_path`. -/
def pathOf (t : ObjectTable) (r : LoadReply) (info : SymbolInfo) : Text :=
  objectFilePath r.maps (t.argv0.getD []) info.dliFname info.dliFbase

/-- A registration is tried, and what came of it is remembered. -/
def register (t : ObjectTable) (r : Registration) : ObjectTable :=
  match r.found with
  | some object =>
    { t with
      objects := Function.update t.objects r.base (some object)
      warned := if r.warns then t.warned ++ [r.base] else t.warned
      tried := t.tried ++ [r] }
  | none        =>
    { t with
      objectLoadFailed := Function.update t.objectLoadFailed r.base true
      tried := t.tried ++ [r] }

/-- `ensure_object_loaded`. -/
def ensureObjectLoaded (r : LoadReply) (info : SymbolInfo) : StateM ObjectTable (Option RegisteredObject) := do
  let t ← get
  match t.objects info.dliFbase with
  | some object => return some object
  | none        =>
    if t.objectLoadFailed info.dliFbase then return none
    let t := t.readArgv0 r info
    let registration : Registration := ⟨info, t.pathOf r info, r⟩
    set (t.register registration)
    return registration.found

/-- What is registered stays so, and what failed is never registered. -/
instance : Preorder ObjectTable where
  le t t' := (∀ base object, t.objects base = some object → t'.objects base = some object) ∧
    ∀ base, t.objectLoadFailed base = true → t.objects base = none →
      t'.objectLoadFailed base = true ∧ t'.objects base = none
  le_refl _ := ⟨fun _ _ h => h, fun _ h h' => ⟨h, h'⟩⟩
  le_trans _ _ _ h h' := by
    refine ⟨fun base object hobject => h'.1 base object (h.1 base object hobject), fun base hfailed hnone => ?_⟩
    obtain ⟨hfailed, hnone⟩ := h.2 base hfailed hnone
    exact h'.2 base hfailed hnone

variable {t t' : ObjectTable} {r : LoadReply} {info : SymbolInfo}

@[simp] lemma readArgv0_objects (t : ObjectTable) (r : LoadReply) (info : SymbolInfo) :
    (t.readArgv0 r info).objects = t.objects := by
  rw [readArgv0]
  split_ifs <;> rfl

@[simp] lemma readArgv0_failed (t : ObjectTable) (r : LoadReply) (info : SymbolInfo) :
    (t.readArgv0 r info).objectLoadFailed = t.objectLoadFailed := by
  rw [readArgv0]
  split_ifs <;> rfl

lemma register_objects (t : ObjectTable) (r : Registration) (hnone : t.objects r.base = none) :
    (t.register r).objects = Function.update t.objects r.base r.found := by
  rw [register]
  cases hfound : r.found with
  | some object => rfl
  | none => exact (Function.update_eq_self_iff.mpr hnone.symm).symm

lemma register_failed (t : ObjectTable) (r : Registration) (hnew : t.objectLoadFailed r.base = false) :
    (t.register r).objectLoadFailed = Function.update t.objectLoadFailed r.base r.found.isNone := by
  rw [register]
  cases hfound : r.found with
  | some object => exact (Function.update_eq_self_iff.mpr hnew.symm).symm
  | none => rfl

/-- The registration `ensure_object_loaded` tries. -/
def registration (t : ObjectTable) (r : LoadReply) (info : SymbolInfo) : Registration :=
  ⟨info, (t.readArgv0 r info).pathOf r info, r⟩

lemma ensureObjectLoaded_registered {object : RegisteredObject} (h : t.objects info.dliFbase = some object) :
    outcome (ensureObjectLoaded r info) t = (some object, t) := by
  simp only [outcome, ensureObjectLoaded, StateT.run, bind, StateT.bind, get, getThe, MonadStateOf.get, StateT.get,
    pure, h]
  rfl

lemma ensureObjectLoaded_failed (h : t.objects info.dliFbase = none)
    (hfailed : t.objectLoadFailed info.dliFbase = true) : outcome (ensureObjectLoaded r info) t = (none, t) := by
  simp only [outcome, ensureObjectLoaded, StateT.run, bind, StateT.bind, get, getThe, MonadStateOf.get, StateT.get,
    pure, h, hfailed]
  rfl

lemma ensureObjectLoaded_new (h : t.objects info.dliFbase = none) (hnew : t.objectLoadFailed info.dliFbase = false) :
    outcome (ensureObjectLoaded r info) t =
      ((t.registration r info).found, (t.readArgv0 r info).register (t.registration r info)) := by
  simp only [outcome, ensureObjectLoaded, StateT.run, bind, StateT.bind, get, getThe, MonadStateOf.get, StateT.get,
    pure, h, hnew]
  rfl

/-! ### One registration for a base -/

/-- The table is what the registrations found, of which there is one at most for a base. -/
structure Sound (t : ObjectTable) : Prop where
  once : (t.tried.map Registration.base).Nodup
  objects : ∀ r ∈ t.tried, t.objects r.base = r.found ∧ t.objectLoadFailed r.base = r.found.isNone
  untried : ∀ base, base ∉ t.tried.map Registration.base →
    t.objects base = none ∧ t.objectLoadFailed base = false
  warned : t.warned = (t.tried.filter Registration.warns).map Registration.base
  path : ∀ r ∈ t.tried, r.path = objectFilePath r.reply.maps (t.argv0.getD []) r.info.dliFname r.base
  argv0 : ∀ r ∈ t.tried, r.info.dliFname.isSome → t.argv0.isSome

lemma sound_empty : Sound {} where
  once := List.nodup_nil
  objects := by simp
  untried _ _ := ⟨rfl, rfl⟩
  warned := rfl
  path := by simp
  argv0 := by simp

/-- The name the program was started by matters only where the loader has a name. -/
lemma objectFilePath_unnamed (maps argv0 argv0' : Text) (base : Addr) :
    objectFilePath maps argv0 none base = objectFilePath maps argv0' none base := by
  simp [objectFilePath]

lemma Sound.readArgv0 (h : t.Sound) (r : LoadReply) (info : SymbolInfo) : (t.readArgv0 r info).Sound := by
  rw [ObjectTable.readArgv0]
  split_ifs with hread
  · refine ⟨h.once, h.objects, h.untried, h.warned, fun x hx => ?_, fun x hx _ => rfl⟩
    cases hname : x.info.dliFname with
    | none =>
      rw [h.path x hx, hname]
      exact objectFilePath_unnamed _ _ _ _
    | some name =>
      have hargv0 := h.argv0 x hx (by rw [hname, Option.isSome_some])
      rw [hread.2] at hargv0
      exact absurd hargv0 (by decide)
  · exact h

/-- The first registration for a base. -/
lemma Sound.register (h : t.Sound) {x : Registration} (hnew : x.base ∉ t.tried.map Registration.base)
    (hpath : x.path = objectFilePath x.reply.maps (t.argv0.getD []) x.info.dliFname x.base)
    (hargv0 : x.info.dliFname.isSome → t.argv0.isSome) : (t.register x).Sound := by
  obtain ⟨hnone, hunfailed⟩ := h.untried x.base hnew
  have hobjects := register_objects t x hnone
  have hfailures := register_failed t x hunfailed
  have htried : (t.register x).tried = t.tried ++ [x] := by
    rw [ObjectTable.register]
    cases x.found <;> rfl
  have hsame : (t.register x).argv0 = t.argv0 := by
    rw [ObjectTable.register]
    cases x.found <;> rfl
  have hwarned : (t.register x).warned = t.warned ++ if x.warns then [x.base] else [] := by
    rw [ObjectTable.register, Registration.warns]
    cases hfound : x.found with
    | none => simp
    | some object =>
      simp only
      split_ifs <;> simp
  have hother : ∀ y ∈ t.tried, y.base ≠ x.base := fun y hy hbase => hnew (hbase ▸ List.mem_map_of_mem hy)
  refine ⟨?_, ?_, ?_, ?_, ?_, ?_⟩
  · rw [htried, List.map_append, List.nodup_append]
    refine ⟨h.once, List.nodup_singleton _, fun base hbase base' hbase' => ?_⟩
    rw [List.map_singleton, List.mem_singleton] at hbase'
    rintro rfl
    exact hnew (hbase' ▸ hbase)
  · rw [htried]
    refine List.forall_mem_append.mpr ⟨fun y hy => ?_, List.forall_mem_singleton.mpr ?_⟩
    · rw [hobjects, hfailures, Function.update_of_ne (hother y hy), Function.update_of_ne (hother y hy)]
      exact h.objects y hy
    · rw [hobjects, hfailures, Function.update_self, Function.update_self]
      exact ⟨rfl, rfl⟩
  · intro base hbase
    rw [htried, List.map_append, List.mem_append, not_or, List.map_singleton, List.mem_singleton] at hbase
    rw [hobjects, hfailures, Function.update_of_ne hbase.2, Function.update_of_ne hbase.2]
    exact h.untried base hbase.1
  · rw [hwarned, htried, List.filter_append, List.map_append, ← h.warned]
    cases hwarns : x.warns <;> simp [hwarns]
  · rw [htried, hsame]
    exact List.forall_mem_append.mpr ⟨h.path, List.forall_mem_singleton.mpr hpath⟩
  · rw [htried, hsame]
    exact List.forall_mem_append.mpr ⟨h.argv0, List.forall_mem_singleton.mpr hargv0⟩

lemma Sound.ensureObjectLoaded (h : t.Sound) (r : LoadReply) (info : SymbolInfo) :
    (outcome (ensureObjectLoaded r info) t).2.Sound := by
  cases hobject : t.objects info.dliFbase with
  | some object => rwa [ensureObjectLoaded_registered hobject]
  | none =>
    cases hfailed : t.objectLoadFailed info.dliFbase with
    | true => rwa [ensureObjectLoaded_failed hobject hfailed]
    | false =>
      rw [ensureObjectLoaded_new hobject hfailed]
      have hread := h.readArgv0 r info
      refine hread.register ?_ rfl fun hname => ?_
      · intro htried
        obtain ⟨x, hx, hbase⟩ := List.mem_map.mp htried
        obtain ⟨hsome, hnone⟩ := hread.objects x hx
        rw [hbase, readArgv0_objects, show (t.registration r info).base = info.dliFbase from rfl, hobject] at hsome
        rw [hbase, readArgv0_failed, show (t.registration r info).base = info.dliFbase from rfl, hfailed,
          ← hsome] at hnone
        simp at hnone
      · have hname : info.dliFname.isSome := hname
        rw [ObjectTable.readArgv0]
        split_ifs with hunread
        · rfl
        · exact Option.isSome_iff_ne_none.mpr fun hnone => hunread ⟨hname, hnone⟩

/-- The object of a base is what the first registration for it found. -/
lemma reads_ensureObjectLoaded (r : LoadReply) (info : SymbolInfo) :
    Reads Sound (ensureObjectLoaded r info) fun t => t.objects info.dliFbase := by
  suffices h : ∀ t, t ≤ (outcome (ensureObjectLoaded r info) t).2 ∧
      ∀ t', (outcome (ensureObjectLoaded r info) t).2 ≤ t' →
        (outcome (ensureObjectLoaded r info) t).1 = t'.objects info.dliFbase from
    ⟨fun t ht => ht.ensureObjectLoaded r info, fun t _ => (h t).1, fun t _ => (h t).2⟩
  intro t
  cases hobject : t.objects info.dliFbase with
  | some object =>
    rw [ensureObjectLoaded_registered hobject]
    exact ⟨le_rfl, fun t' ht' => (ht'.1 _ object hobject).symm⟩
  | none =>
    cases hfailed : t.objectLoadFailed info.dliFbase with
    | true =>
      rw [ensureObjectLoaded_failed hobject hfailed]
      exact ⟨le_rfl, fun t' ht' => (ht'.2 _ hfailed hobject).2.symm⟩
    | false =>
      rw [ensureObjectLoaded_new hobject hfailed]
      have hbase : (t.registration r info).base = info.dliFbase := rfl
      have hobjects := register_objects (t.readArgv0 r info) (t.registration r info)
        (by rw [readArgv0_objects, hbase, hobject])
      have hfailures := register_failed (t.readArgv0 r info) (t.registration r info)
        (by rw [readArgv0_failed, hbase, hfailed])
      rw [readArgv0_objects, hbase] at hobjects
      rw [readArgv0_failed, hbase] at hfailures
      refine ⟨⟨fun base object hold => ?_, fun base hold hnone => ?_⟩, fun t' ht' => ?_⟩
      · have hne : base ≠ info.dliFbase := by
          rintro rfl
          simp [hobject] at hold
        rw [hobjects, Function.update_of_ne hne, hold]
      · have hne : base ≠ info.dliFbase := by
          rintro rfl
          simp [hfailed] at hold
        rw [hobjects, hfailures, Function.update_of_ne hne, Function.update_of_ne hne]
        exact ⟨hold, hnone⟩
      · cases hfound : (t.registration r info).found with
        | some object => exact (ht'.1 _ object (by rw [hobjects, hfound, Function.update_self])).symm
        | none =>
          refine (ht'.2 _ ?_ ?_).2.symm
          · rw [hfailures, hfound, Function.update_self, Option.isNone_none]
          · rw [hobjects, hfound, Function.update_self]

end ObjectTable

/-! ### What is resolved -/

def noObjectForCallee : Text := "<address to object not found>".toList

def unreadableCalleeObject : Text := "<could not open object file>".toList

/-- What the loader and the demangler answer, and whether the tracer is built by Clang. -/
structure Loader where
  queryAddress : Addr → Option SymbolInfo
  cxaDemangle : Text → Option Text
  clang : Bool

namespace Loader

variable (l : Loader)

/-- Clang's builds leave out the functions of the standard library. -/
def filters (name : Text) : Bool :=
  l.clang && match isStdLibrarySymbol name with
    | .ok found => found
    | .error _  => false

/-- The name a registered object has for an address. -/
def nameIn (object : RegisteredObject) (info : SymbolInfo) (nameOf : NameOf) (address : Addr) : Option Text :=
  let name := functionNameOf (object.lookUp address).names nameOf
  if name = [] then info.dliSname.map (demangleCxa l.cxaDemangle)
  else if l.filters name then none
  else
    let demangled := demangleCxa l.cxaDemangle name
    if demangled = [] then none else some demangled

/-- The part of `resolve_event_site_location` behind the object. -/
def siteIn (location : CachedLocation) (object : LoadedObject) (address : Addr) : CachedLocation :=
  if !object.hasSymtab then location else
  let lookup := object.lookUp address
  if lookup.symbol = [] ∨ lookup.symbolValue = 0 then location else
  let atSite := lineRowAt lookup
  if !atSite.sameAs (lineRowAt (object.lookUp lookup.symbolValue))
      || !atSite.sameAs (lineRowAt (object.lookUp (lookup.symbolValue - 1))) then location else
  let afterCall := outermostLineRowAt (object.lookUp ((address + 1) % 2 ^ 64))
  if afterCall.line = 0 || afterCall.sameAs atSite then { location with line := none }
  else { location with file := afterCall.file, line := some afterCall.line }

/-- The part of `read_inline_chain` behind the object. -/
def chainIn (object : RegisteredObject) (address : Addr) : List Text :=
  let lookup := object.lookUp address
  if lookup.position?.isNone then [] else
  let innermost := innermostBaseName l.cxaDemangle lookup.names
  if innermost = [] then [] else
  innermost :: (lookup.entries.tail.filter fun e => e.function ≠ []).map fun e =>
    functionBaseName (demangleCxa l.cxaDemangle e.function)

/-- The rules with the objects of some bases. -/
def filesOf (objects : Addr → Option RegisteredObject) : ObjectFiles where
  queryAddress address := (l.queryAddress address).map (·.toAddressInfo)
  ensureObjectLoaded info := (objects info.dliFbase).map RegisteredObject.loaded
  cxaDemangle := l.cxaDemangle
  resolveFunctionName nameOf address :=
    match l.queryAddress address with
    | none      => some noObjectForCallee
    | some info =>
      if info.dliSname.any l.filters then none
      else match objects info.dliFbase with
        | none        => some unreadableCalleeObject
        | some object => l.nameIn object info nameOf address

/-- `resolve_function_name`. -/
def resolveFunctionName (r : LoadReply) (nameOf : NameOf) (address : Addr) : StateM ObjectTable (Option Text) := do
  match l.queryAddress address with
  | none      => return some noObjectForCallee
  | some info =>
    if info.dliSname.any l.filters then return none
    match ← ObjectTable.ensureObjectLoaded r info with
    | none        => return some unreadableCalleeObject
    | some object => return l.nameIn object info nameOf address

/-- `resolve_filename_and_line`. -/
def resolveFilenameAndLine (r : LoadReply) (address : Addr) : StateM ObjectTable CachedLocation := do
  match l.queryAddress address with
  | none      => return ⟨noObjectForCaller, none, []⟩
  | some info =>
    let object ← ObjectTable.ensureObjectLoaded r info
    return (l.filesOf fun _ => object).resolveFilenameAndLine address

/-- `resolve_event_site_location`. -/
def resolveEventSiteLocation (r r' : LoadReply) (address : Addr) : StateM ObjectTable CachedLocation := do
  let location ← l.resolveFilenameAndLine r address
  match location.line, l.queryAddress address with
  | some _, some info =>
    match ← ObjectTable.ensureObjectLoaded r' info with
    | none        => return location
    | some object => return siteIn location object.loaded address
  | _, _              => return location

/-- `read_inline_chain`. -/
def readInlineChain (r : LoadReply) (address : Addr) : StateM ObjectTable (List Text) := do
  match l.queryAddress address with
  | none      => return []
  | some info =>
    match ← ObjectTable.ensureObjectLoaded r info with
    | none        => return []
    | some object => return l.chainIn object address

/-! ### They read the table -/

/-- The object files, with those that are registered in a table. -/
def files (t : ObjectTable) : ObjectFiles := l.filesOf t.objects

/-- The rule of the inline chains. -/
def inlineChain (t : ObjectTable) (address : Addr) : List Text :=
  match l.queryAddress address with
  | none      => []
  | some info => ((t.objects info.dliFbase).map (l.chainIn · address)).getD []

/-- What the rule of event sites makes of a location. -/
def siteFor (t : ObjectTable) (address : Addr) (location : CachedLocation) : CachedLocation :=
  match location.line, l.queryAddress address with
  | some _, some info => (t.objects info.dliFbase).elim location (siteIn location ·.loaded address)
  | _, _              => location

variable {l} (r r' : LoadReply) (nameOf : NameOf) (address : Addr)

lemma reads_resolveFunctionName :
    Reads ObjectTable.Sound (l.resolveFunctionName r nameOf address) fun t =>
      (l.files t).resolveFunctionName nameOf address := by
  simp only [resolveFunctionName, files, filesOf]
  cases l.queryAddress address with
  | none => exact .pure _
  | some info =>
    simp only
    split_ifs
    · exact .pure _
    · refine ((ObjectTable.reads_ensureObjectLoaded r info).bind (g := fun object _ =>
        object.elim (some unreadableCalleeObject) (l.nameIn · info nameOf address)) fun object => ?_).congr fun t => ?_
      · cases object with
        | none => exact .pure _
        | some object => exact .pure _
      · cases t.objects info.dliFbase <;> rfl

lemma reads_resolveFilenameAndLine :
    Reads ObjectTable.Sound (l.resolveFilenameAndLine r address) fun t =>
      (l.files t).resolveFilenameAndLine address := by
  simp only [resolveFilenameAndLine, files, filesOf, ObjectFiles.resolveFilenameAndLine]
  cases l.queryAddress address with
  | none => exact .pure _
  | some info =>
    exact (ObjectTable.reads_ensureObjectLoaded r info).bind fun object => .pure _

/-- The rule of event sites in its two parts. -/
lemma resolveEventSiteLocation_files (t : ObjectTable) :
    (l.files t).resolveEventSiteLocation address =
      l.siteFor t address ((l.files t).resolveFilenameAndLine address) := by
  have hquery : (l.files t).queryAddress address = (l.queryAddress address).map (·.toAddressInfo) := rfl
  have hobject : ∀ info, (l.files t).ensureObjectLoaded info = (t.objects info.dliFbase).map RegisteredObject.loaded :=
    fun info => rfl
  rw [ObjectFiles.resolveEventSiteLocation, hquery, siteFor]
  cases ((l.files t).resolveFilenameAndLine address).line with
  | none => rfl
  | some line =>
    cases l.queryAddress address with
    | none => rfl
    | some info =>
      simp only [Option.map_some, hobject]
      cases t.objects info.dliFbase <;> rfl

lemma reads_resolveEventSiteLocation :
    Reads ObjectTable.Sound (l.resolveEventSiteLocation r r' address) fun t =>
      (l.files t).resolveEventSiteLocation address := by
  simp only [resolveEventSiteLocation_files]
  refine (reads_resolveFilenameAndLine r address).bind (g := fun location t => l.siteFor t address location)
    fun location => ?_
  simp only [siteFor]
  cases location.line with
  | none => exact .pure _
  | some line =>
    cases l.queryAddress address with
    | none => exact .pure _
    | some info =>
      refine (ObjectTable.reads_ensureObjectLoaded r' info).bind (g := fun object _ =>
        object.elim location (siteIn location ·.loaded address)) fun object => ?_
      cases object with
      | none => exact .pure _
      | some object => exact .pure _

lemma reads_readInlineChain :
    Reads ObjectTable.Sound (l.readInlineChain r address) fun t => l.inlineChain t address := by
  simp only [readInlineChain, inlineChain]
  cases l.queryAddress address with
  | none => exact .pure _
  | some info =>
    refine (ObjectTable.reads_ensureObjectLoaded r info).bind (g := fun object _ =>
      (object.map (l.chainIn · address)).getD []) fun object => ?_
    cases object with
    | none => exact .pure _
    | some object => exact .pure _

end Loader

end CallStackLogger
