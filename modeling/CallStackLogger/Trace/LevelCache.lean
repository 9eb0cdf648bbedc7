import CallStackLogger.Core.Run
import CallStackLogger.Reconcile.Rules
import Mathlib.Algebra.Group.Nat.Defs
import Mathlib.Logic.Function.Basic

/-!
# The level of the frame that called a hook

`frame_level` of `src/trace.cpp` on x86-64: the CFA of the frame that called a hook derives from the hook's own
frame through a rule, which is measured once for a hook site and then kept in a map and, in front of it, in a
direct-mapped cache. For frames whose layout stays, the rule in use is right whatever was evicted or lost.
-/

namespace CallStackLogger

open Run

/-! ### Rules and how they are measured -/

/-- `MIN_LEVEL_DISTANCE`. -/
def minLevelDistance : Nat := 24

/-- The largest `std::int32_t`. -/
def int32Max : Nat := 2147483647

/-- `2 * sizeof(void*)`. -/
def twoWords : Nat := 16

structure LevelRule where
  distance : Nat
  fromSavedFramePointer : Bool
deriving DecidableEq, Repr

/-- What the unwinder says of one frame. -/
structure UnwindContext where
  ip : Addr
  cfa : Addr
deriving DecidableEq, Repr

/-- A hook's return address. It follows a call instruction, so it is not null. -/
structure HookSite where
  address : Addr
  nonnull : address ≠ 0
deriving DecidableEq, Repr

/-- One call of a hook: its site, its frame address, the word it pushed first, the frames an unwinder walk passes,
and whether a new entry of the map can be allocated. The true CFA of the frame that called is ghost. -/
structure HookFrame where
  site : HookSite
  frame : Addr
  savedFramePointer : Addr
  contexts : List UnwindContext
  inserted : Bool
  cfa : Addr
deriving DecidableEq, Repr

/-- `LevelSearch`. -/
structure LevelSearch where
  cfa : Addr := 0
  isMatched : Bool := false
  found : Bool := false
deriving DecidableEq, Repr

/-- `level_search_step`; the flag is set when the walk stops. -/
def levelSearchStep (site : Addr) (search : LevelSearch) (context : UnwindContext) : LevelSearch × Bool :=
  if search.isMatched then ({ search with cfa := context.cfa, found := true }, true)
  else if context.ip = site then ({ search with isMatched := true }, false)
  else (search, false)

/-- `_Unwind_Backtrace` with `level_search_step`. -/
def unwindBacktrace (site : Addr) (search : LevelSearch) : List UnwindContext → LevelSearch
  | []                  => search
  | context :: contexts =>
    let (search, stops) := levelSearchStep site search context
    if stops then search else unwindBacktrace site search contexts

namespace HookFrame

variable (h : HookFrame)

def search : LevelSearch := unwindBacktrace h.site.address {} h.contexts

/-- `measure_level_rule`. -/
def measureLevelRule (bounds : StackBounds) : LevelRule :=
  if !h.search.found || h.search.cfa ≤ h.frame || !onThreadStack bounds h.search.cfa then
    ⟨minLevelDistance, false⟩
  else if h.search.cfa = (h.savedFramePointer + twoWords) % 2 ^ 64 then ⟨twoWords, true⟩
  else if int32Max < h.search.cfa - h.frame then ⟨minLevelDistance, false⟩
  else ⟨h.search.cfa - h.frame, false⟩

/-- `apply_level_rule`. -/
def applyLevelRule (rule : LevelRule) : Addr :=
  ((if rule.fromSavedFramePointer then h.savedFramePointer else h.frame) + rule.distance) % 2 ^ 64

/-- `measured_frame_level`. -/
def measuredFrameLevel (bounds : StackBounds) : Addr := h.applyLevelRule (h.measureLevelRule bounds)

end HookFrame

/-! ### The caches -/

/-- One slot of the front cache; the site is null until something is stored. -/
structure LevelCacheSlot where
  site : Addr := 0
  rule : LevelRule := ⟨0, false⟩
deriving DecidableEq, Repr

/-- `level_rules` and `level_cache` of a thread. -/
structure LevelCache where
  levelRules : Addr → Option LevelRule := fun _ => none
  slots : Nat → LevelCacheSlot := fun _ => {}

namespace LevelCache

/-- `LEVEL_CACHE_SLOTS`. -/
def levelCacheSlots : Nat := 256

def slotOf (site : Addr) : Nat := site / 4 % levelCacheSlots

/-- The slot of the site takes its rule. -/
def store (c : LevelCache) (site : Addr) (rule : LevelRule) : LevelCache :=
  { c with slots := Function.update c.slots (slotOf site) ⟨site, rule⟩ }

/-- The rule `frame_level` applies, and the caches behind it. -/
def ruleFor (c : LevelCache) (bounds : StackBounds) (h : HookFrame) : LevelCache × LevelRule :=
  let site := h.site.address
  let slot := c.slots (slotOf site)
  if slot.site = site then (c, slot.rule)
  else match c.levelRules site with
    | some rule => (c.store site rule, rule)
    | none      =>
      let rule := h.measureLevelRule bounds
      let c := if h.inserted then { c with levelRules := Function.update c.levelRules site (some rule) } else c
      (c.store site rule, rule)

/-- `frame_level`. -/
def frameLevel (c : LevelCache) (bounds : StackBounds) (h : HookFrame) : Addr :=
  h.applyLevelRule (c.ruleFor bounds h).2

def step (bounds : StackBounds) (c : LevelCache) (h : HookFrame) : LevelCache := (c.ruleFor bounds h).1

/-- The caches have the rule for a site. -/
def Stores (c : LevelCache) (site : HookSite) (rule : LevelRule) : Prop :=
  c.levelRules site.address = some rule ∨
    (c.slots (slotOf site.address)).site = site.address ∧ (c.slots (slotOf site.address)).rule = rule

end LevelCache

/-! ### What the unwinder reports -/

/-- The walk finds the true CFA, on the thread's stack and less than 2 GiB over the hook's frame. -/
structure ReportsTrueCfa (bounds : StackBounds) (h : HookFrame) : Prop where
  found : h.search.found = true
  reported : h.search.cfa = h.cfa
  address : h.cfa < 2 ^ 64
  onStack : onThreadStack bounds h.cfa = true
  above : h.frame < h.cfa
  near : h.cfa - h.frame < 2 ^ 31

instance (bounds : StackBounds) (h : HookFrame) : Decidable (ReportsTrueCfa bounds h) :=
  decidable_of_iff (h.search.found = true ∧ h.search.cfa = h.cfa ∧ h.cfa < 2 ^ 64 ∧
      onThreadStack bounds h.cfa = true ∧ h.frame < h.cfa ∧ h.cfa - h.frame < 2 ^ 31)
    ⟨fun ⟨h₁, h₂, h₃, h₄, h₅, h₆⟩ => ⟨h₁, h₂, h₃, h₄, h₅, h₆⟩,
      fun ⟨h₁, h₂, h₃, h₄, h₅, h₆⟩ => ⟨h₁, h₂, h₃, h₄, h₅, h₆⟩⟩

section Measured

variable {bounds : StackBounds} {h : HookFrame}

lemma measureLevelRule_eq (hcfa : ReportsTrueCfa bounds h) :
    h.measureLevelRule bounds =
      if h.cfa = (h.savedFramePointer + twoWords) % 2 ^ 64 then ⟨twoWords, true⟩ else ⟨h.cfa - h.frame, false⟩ := by
  have hnear : ¬ int32Max < h.cfa - h.frame := Nat.not_lt.mpr (Nat.le_of_lt_succ hcfa.near)
  simp [HookFrame.measureLevelRule, hcfa.found, hcfa.reported, hcfa.onStack, Nat.not_le.mpr hcfa.above, hnear]

lemma applyLevelRule_distance (hcfa : ReportsTrueCfa bounds h) :
    h.applyLevelRule ⟨h.cfa - h.frame, false⟩ = h.cfa := by
  simp only [HookFrame.applyLevelRule, Bool.false_eq_true, if_false, Nat.add_sub_cancel' (Nat.le_of_lt hcfa.above),
    Nat.mod_eq_of_lt hcfa.address]

end Measured

/-! ### What the caches hold -/

namespace LevelCache

variable {Q : HookSite → LevelRule → Prop} {bounds : StackBounds} {c : LevelCache} {h : HookFrame} {site : HookSite}
  {rule : LevelRule}

/-- Every rule the caches have is right for its site. -/
def StoresOnly (c : LevelCache) (Q : HookSite → LevelRule → Prop) : Prop :=
  ∀ site rule, c.Stores site rule → Q site rule

lemma storesOnly_empty (Q : HookSite → LevelRule → Prop) : ({} : LevelCache).StoresOnly Q := by
  rintro site rule (hmap | ⟨hslot, -⟩)
  · exact absurd hmap (Option.some_ne_none rule).symm
  · exact absurd hslot.symm site.nonnull

lemma HookSite.ext_address {site site' : HookSite} (h : site.address = site'.address) : site = site' := by
  cases site
  cases site'
  simpa using h

/-- A slot that is overwritten holds one rule, which is right for its site. -/
lemma StoresOnly.store (hc : c.StoresOnly Q) (hrule : Q site rule) : (c.store site.address rule).StoresOnly Q := by
  rintro site' rule' (hmap | ⟨hslot, hstored⟩)
  · exact hc site' rule' (.inl hmap)
  · by_cases hsame : slotOf site'.address = slotOf site.address
    · simp only [LevelCache.store, hsame, Function.update_self] at hslot hstored
      rwa [← hstored, ← HookSite.ext_address hslot]
    · simp only [LevelCache.store, Function.update_of_ne hsame] at hslot hstored
      exact hc site' rule' (.inr ⟨hslot, hstored⟩)

lemma StoresOnly.insert (hc : c.StoresOnly Q) (hrule : Q site rule) :
    { c with levelRules := Function.update c.levelRules site.address (some rule) }.StoresOnly Q := by
  rintro site' rule' (hmap | hslot)
  · by_cases hsame : site'.address = site.address
    · simp only [hsame, Function.update_self, Option.some.injEq] at hmap
      rwa [← hmap, HookSite.ext_address hsame]
    · simp only [Function.update_of_ne hsame] at hmap
      exact hc site' rule' (.inl hmap)
  · exact hc site' rule' (.inr hslot)

/-- A call applies a right rule when the one it would measure is right, and leaves only right rules behind. -/
lemma StoresOnly.ruleFor (hc : c.StoresOnly Q) (hmeasured : Q h.site (h.measureLevelRule bounds)) :
    Q h.site (c.ruleFor bounds h).2 ∧ (c.ruleFor bounds h).1.StoresOnly Q := by
  simp only [LevelCache.ruleFor]
  by_cases hslot : (c.slots (slotOf h.site.address)).site = h.site.address
  · rw [if_pos hslot]
    exact ⟨hc h.site _ (.inr ⟨hslot, rfl⟩), hc⟩
  · rw [if_neg hslot]
    cases hmap : c.levelRules h.site.address with
    | some rule =>
      have hrule := hc h.site rule (.inl hmap)
      exact ⟨hrule, hc.store hrule⟩
    | none =>
      refine ⟨hmeasured, ?_⟩
      simp only
      split_ifs
      · exact (hc.insert hmeasured).store hmeasured
      · exact hc.store hmeasured

end LevelCache

/-! ### Frames whose layout stays -/

/-- Where the CFA is at every activation: over the saved frame pointer, or at one distance over the hook's frame. -/
inductive FrameLayout where
  | framePointer
  | fixed (distance : Nat)
deriving DecidableEq, Repr

namespace FrameLayout

def Describes (h : HookFrame) : FrameLayout → Prop
  | .framePointer   => h.cfa = (h.savedFramePointer + twoWords) % 2 ^ 64
  | .fixed distance => h.cfa = h.frame + distance ∧ h.cfa ≠ (h.savedFramePointer + twoWords) % 2 ^ 64

instance (h : HookFrame) : DecidablePred (Describes h)
  | .framePointer   => inferInstanceAs (Decidable (h.cfa = (h.savedFramePointer + twoWords) % 2 ^ 64))
  | .fixed distance => inferInstanceAs (Decidable (h.cfa = h.frame + distance ∧
      h.cfa ≠ (h.savedFramePointer + twoWords) % 2 ^ 64))

/-- The rule that is right for a layout. -/
def rule : FrameLayout → LevelRule
  | .framePointer   => ⟨twoWords, true⟩
  | .fixed distance => ⟨distance, false⟩

variable {layout : FrameLayout} {bounds : StackBounds} {h : HookFrame}

lemma Describes.measure (hlayout : layout.Describes h) (hcfa : ReportsTrueCfa bounds h) :
    h.measureLevelRule bounds = layout.rule := by
  rw [measureLevelRule_eq hcfa]
  cases layout with
  | framePointer => exact if_pos hlayout
  | fixed distance =>
    rw [if_neg hlayout.2, hlayout.1, Nat.add_sub_cancel_left]
    rfl

lemma Describes.apply (hlayout : layout.Describes h) (hcfa : ReportsTrueCfa bounds h) :
    h.applyLevelRule layout.rule = h.cfa := by
  cases layout with
  | framePointer => exact Eq.symm hlayout
  | fixed distance =>
    have hdistance : distance = h.cfa - h.frame := by rw [hlayout.1, Nat.add_sub_cancel_left]
    rw [rule, hdistance]
    exact applyLevelRule_distance hcfa

end FrameLayout

/-- In every run of hook calls whose frames keep the layout of their site, each level is the true CFA. -/
theorem frame_level_exact (bounds : StackBounds) (layout : HookSite → FrameLayout) (calls : List HookFrame)
    (hcfa : ∀ h ∈ calls, ReportsTrueCfa bounds h) (hlayout : ∀ h ∈ calls, (layout h.site).Describes h) :
    AllSteps (LevelCache.step bounds) (fun c h => c.frameLevel bounds h = h.cfa) {} calls := by
  have hstep : ∀ (c : LevelCache) h, c.StoresOnly (fun site rule => rule = (layout site).rule) →
      ReportsTrueCfa bounds h ∧ (layout h.site).Describes h →
      (c.ruleFor bounds h).2 = (layout h.site).rule ∧
        (c.ruleFor bounds h).1.StoresOnly fun site rule => rule = (layout site).rule := by
    intro c h hc hh
    exact hc.ruleFor (hh.2.measure hh.1)
  apply allSteps_of_invariant (I := fun c : LevelCache => c.StoresOnly fun site rule => rule = (layout site).rule)
    (D := fun _ h => ReportsTrueCfa bounds h ∧ (layout h.site).Describes h)
  · exact fun c h hc hh => (hstep c h hc hh).2
  · intro c h hc hh
    rw [LevelCache.frameLevel, (hstep c h hc hh).1]
    exact hh.2.apply hh.1
  · exact LevelCache.storesOnly_empty _
  · exact allSteps_of_forall_mem fun h hh => ⟨hcfa h hh, hlayout h hh⟩

/-- A call of a hook whose rule has to be measured, with one frame between it and the frame that called. -/
def HookFrame.plain (site : HookSite) (frame savedFramePointer cfa : Addr) (inserted : Bool) : HookFrame where
  site := site
  frame := frame
  savedFramePointer := savedFramePointer
  contexts := [⟨1, frame⟩, ⟨site.address, frame⟩, ⟨2, cfa⟩]
  inserted := inserted
  cfa := cfa

/-- Two sites take turns in one slot, and the rule of the first is lost when it is evicted. -/
theorem frame_level_exact_evicted :
    AllSteps (LevelCache.step ⟨16, 65536, true⟩) (fun c h => c.frameLevel ⟨16, 65536, true⟩ h = h.cfa) {}
      [.plain ⟨4, by decide⟩ 1000 1040 1056 false, .plain ⟨1028, by decide⟩ 900 7 980 true,
       .plain ⟨4, by decide⟩ 2000 2200 2216 true, .plain ⟨1028, by decide⟩ 500 7 580 true] :=
  frame_level_exact _ (fun site => if site.address = 4 then .framePointer else .fixed 80) _ (by decide) (by decide)

end CallStackLogger
