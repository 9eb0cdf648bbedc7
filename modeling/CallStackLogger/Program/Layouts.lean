import CallStackLogger.Program.Records
import CallStackLogger.Trace.LevelCache

/-!
# Frames whose layout varies

The thread with the level cache in front of its hooks: an enter and an exit go by the rule of their hook site,
which another activation of the function was measured for, a catch by a fresh measurement. Where the stack
pointer is realigned the rule is off by the difference in padding. A level that is too high makes the level step
of an enter reclaim the record of a live caller, one that is too low that of the catcher at its catch.
-/

namespace CallStackLogger

open Run

/-! ### Layouts -/

namespace HookFrame

variable (h : HookFrame) (bounds : StackBounds)

/-- The CFA is two words over the saved frame pointer. -/
def KeepsFramePointer : Prop := h.cfa = (h.savedFramePointer + twoWords) % 2 ^ 64

/-- The unwinder gets to the frame and finds its CFA on the thread's stack. -/
def Described : Prop := h.search.found = true ∧ onThreadStack bounds h.cfa = true

instance : Decidable h.KeepsFramePointer := inferInstanceAs (Decidable (h.cfa = _))

instance : Decidable (h.Described bounds) := inferInstanceAs (Decidable (_ ∧ _))

/-- How far the CFA is over the hook's frame; the smallest distance any frame can have when that is not known
or too far to keep. -/
def distance : Nat :=
  if h.Described bounds ∧ h.cfa - h.frame ≤ int32Max then h.cfa - h.frame else minLevelDistance

/-- The CFA itself, as far as it is known. -/
def trueLevel : Addr :=
  if h.Described bounds ∧ (h.KeepsFramePointer ∨ h.cfa - h.frame ≤ int32Max) then h.cfa
  else (h.frame + minLevelDistance) % 2 ^ 64

end HookFrame

/-- A call of a hook, and the activation its rule was measured for. -/
structure Placement where
  measured : HookFrame
  hook : HookFrame
deriving DecidableEq, Repr

/-- Where the CFA is if the frame has the layout of the activation that was measured. -/
def Placement.level (p : Placement) (bounds : StackBounds) : Addr :=
  if p.measured.Described bounds ∧ p.measured.KeepsFramePointer then
    (p.hook.savedFramePointer + twoWords) % 2 ^ 64
  else (p.hook.frame + p.measured.distance bounds) % 2 ^ 64

/-- What the unwinder reports of the frame is its true CFA, which lies over the hook's frame. -/
structure ReportsCfa (h : HookFrame) : Prop where
  reported : h.search.found = true → h.search.cfa = h.cfa
  above : h.frame < h.cfa
  address : h.cfa < 2 ^ 64

instance (h : HookFrame) : Decidable (ReportsCfa h) :=
  decidable_of_iff ((h.search.found = true → h.search.cfa = h.cfa) ∧ h.frame < h.cfa ∧ h.cfa < 2 ^ 64)
    ⟨fun ⟨h₁, h₂, h₃⟩ => ⟨h₁, h₂, h₃⟩, fun ⟨h₁, h₂, h₃⟩ => ⟨h₁, h₂, h₃⟩⟩

section Layout

variable {h : HookFrame} {p : Placement} {bounds : StackBounds}

lemma measureLevelRule_of_reports (hcfa : ReportsCfa h) :
    h.measureLevelRule bounds =
      if h.Described bounds ∧ h.KeepsFramePointer then ⟨twoWords, true⟩ else ⟨h.distance bounds, false⟩ := by
  by_cases hfound : h.search.found = true
  · have hreported := hcfa.reported hfound
    have habove := Nat.not_le.mpr hcfa.above
    by_cases hon : onThreadStack bounds h.cfa = true
    · by_cases hnear : int32Max < h.cfa - h.frame
      · have hfar := Nat.not_le.mpr hnear
        simp [HookFrame.measureLevelRule, HookFrame.Described, HookFrame.KeepsFramePointer, HookFrame.distance,
          hfound, hreported, habove, hon, hnear, hfar]
      · have hclose := Nat.not_lt.mp hnear
        simp [HookFrame.measureLevelRule, HookFrame.Described, HookFrame.KeepsFramePointer, HookFrame.distance,
          hfound, hreported, habove, hon, hnear, hclose]
    · simp [HookFrame.measureLevelRule, HookFrame.Described, HookFrame.distance, hfound, hreported, habove, hon]
  · simp [HookFrame.measureLevelRule, HookFrame.Described, HookFrame.distance, hfound]

/-- The rule of an activation gives another the level it would have with the same layout. -/
lemma applyLevelRule_of_reports (hcfa : ReportsCfa p.measured) :
    p.hook.applyLevelRule (p.measured.measureLevelRule bounds) = p.level bounds := by
  rw [measureLevelRule_of_reports hcfa, Placement.level]
  by_cases hkeeps : p.measured.Described bounds ∧ p.measured.KeepsFramePointer
  · rw [if_pos hkeeps, if_pos hkeeps]
    rfl
  · rw [if_neg hkeeps, if_neg hkeeps]
    rfl

/-- A level that is measured afresh is exact, whatever the frame's layout. -/
lemma measuredFrameLevel_eq (hcfa : ReportsCfa h) : h.measuredFrameLevel bounds = h.trueLevel bounds := by
  have hself : h.applyLevelRule (h.measureLevelRule bounds) = Placement.level ⟨h, h⟩ bounds :=
    applyLevelRule_of_reports (p := ⟨h, h⟩) hcfa
  rw [HookFrame.measuredFrameLevel, hself, Placement.level, HookFrame.trueLevel]
  by_cases hkeeps : h.Described bounds ∧ h.KeepsFramePointer
  · rw [if_pos hkeeps, if_pos ⟨hkeeps.1, .inl hkeeps.2⟩]
    exact hkeeps.2.symm
  · rw [if_neg hkeeps, HookFrame.distance]
    by_cases hnear : h.Described bounds ∧ h.cfa - h.frame ≤ int32Max
    · rw [if_pos hnear, if_pos ⟨hnear.1, .inr hnear.2⟩, Nat.add_sub_cancel' (Nat.le_of_lt hcfa.above),
        Nat.mod_eq_of_lt hcfa.address]
    · have hunknown : ¬ (h.Described bounds ∧ (h.KeepsFramePointer ∨ h.cfa - h.frame ≤ int32Max)) := by
        rintro ⟨hdescribed, hfp | hclose⟩
        · exact hkeeps ⟨hdescribed, hfp⟩
        · exact hnear ⟨hdescribed, hclose⟩
      rw [if_neg hnear, if_neg hunknown]

end Layout

/-! ### Which activation a rule was measured for -/

/-- The activation behind each rule of the caches. -/
structure RuleOrigins where
  kept : Addr → Option HookFrame := fun _ => none
  slots : Nat → Option HookFrame := fun _ => none

namespace RuleOrigins

variable (m : RuleOrigins) (h : HookFrame)

/-- The activation behind the rule that the caches have for a site. -/
def stored : Option HookFrame :=
  ((m.slots (LevelCache.slotOf h.site.address)).filter (·.site == h.site)).or (m.kept h.site.address)

/-- A site without a rule is measured at once. -/
def inUse : HookFrame := (m.stored h).getD h

/-- The activations behind the rules after a call of a hook. -/
def after : RuleOrigins where
  kept :=
    if (m.stored h).isNone && h.inserted then Function.update m.kept h.site.address (some h) else m.kept
  slots := Function.update m.slots (LevelCache.slotOf h.site.address) (some (m.inUse h))

/-- All of them have the property `P`. -/
structure All (P : HookFrame → Prop) : Prop where
  kept : ∀ site, ∀ measured ∈ m.kept site, P measured
  slots : ∀ i, ∀ measured ∈ m.slots i, P measured

end RuleOrigins

/-- Each rule of the caches was measured at its activation. -/
structure RulesMeasured (bounds : StackBounds) (c : LevelCache) (m : RuleOrigins) : Prop where
  map : ∀ site, c.levelRules site = (m.kept site).map (·.measureLevelRule bounds)
  slot : ∀ i, c.slots i =
    ((m.slots i).map fun measured => ⟨measured.site.address, measured.measureLevelRule bounds⟩).getD {}
  site : ∀ site, ∀ measured ∈ m.kept site, measured.site.address = site

section RulesMeasured

variable {P : HookFrame → Prop} {bounds : StackBounds} {c : LevelCache} {m : RuleOrigins} {h measured : HookFrame}

lemma RuleOrigins.stored_of_hit (hslot : m.slots (LevelCache.slotOf h.site.address) = some measured)
    (hsite : measured.site = h.site) : m.stored h = some measured := by
  simp [RuleOrigins.stored, hslot, hsite]

lemma RuleOrigins.stored_of_miss
    (hmiss : ∀ measured ∈ m.slots (LevelCache.slotOf h.site.address), measured.site ≠ h.site) :
    m.stored h = m.kept h.site.address := by
  cases hslot : m.slots (LevelCache.slotOf h.site.address) with
  | none => simp [RuleOrigins.stored, hslot]
  | some measured =>
    have hother : (measured.site == h.site) = false := beq_eq_false_iff_ne.mpr (hmiss measured hslot)
    simp [RuleOrigins.stored, hslot, Option.filter, hother]

/-- What is behind the rule in use was there before, or is the call itself. -/
lemma RuleOrigins.All.stored (hall : m.All P) : ∀ measured ∈ m.stored h, P measured := by
  intro measured hstored
  rw [RuleOrigins.stored, Option.mem_def, Option.or_eq_some_iff] at hstored
  rcases hstored with hslot | ⟨-, hkept⟩
  · exact hall.slots _ measured (Option.filter_eq_some_iff.mp hslot).1
  · exact hall.kept _ measured hkept

lemma RuleOrigins.All.inUse (hall : m.All P) (hh : P h) : P (m.inUse h) := by
  rw [RuleOrigins.inUse]
  cases hstored : m.stored h with
  | none => exact hh
  | some measured => exact hall.stored measured hstored

lemma RuleOrigins.All.after (hall : m.All P) (hh : P h) : (m.after h).All P where
  kept := by
    intro site measured hkept
    rw [RuleOrigins.after] at hkept
    simp only at hkept
    split_ifs at hkept
    · by_cases hsite : site = h.site.address
      · subst hsite
        obtain rfl : h = measured := by simpa using hkept
        exact hh
      · rw [Function.update_of_ne hsite] at hkept
        exact hall.kept site measured hkept
    · exact hall.kept site measured hkept
  slots := by
    intro i measured hslot
    by_cases hi : i = LevelCache.slotOf h.site.address
    · subst hi
      obtain rfl : m.inUse h = measured := by simpa [RuleOrigins.after] using hslot
      exact hall.inUse hh
    · exact hall.slots i measured (by simpa [RuleOrigins.after, Function.update_of_ne hi] using hslot)

lemma mirrors_empty (bounds : StackBounds) : RulesMeasured bounds {} {} where
  map _ := rfl
  slot _ := rfl
  site := by simp

namespace RulesMeasured

/-- Overwriting a slot overwrites the activation behind it. -/
lemma store (hm : RulesMeasured bounds c m) (hsite : measured.site = h.site) :
    RulesMeasured bounds (c.store h.site.address (measured.measureLevelRule bounds))
      { m with slots := Function.update m.slots (LevelCache.slotOf h.site.address) (some measured) } where
  map := hm.map
  slot := by
    intro i
    by_cases hi : i = LevelCache.slotOf h.site.address
    · subst hi
      simp [LevelCache.store, hsite]
    · simpa [LevelCache.store, Function.update_of_ne hi] using hm.slot i
  site := hm.site

/-- Keeping a rule in the map keeps the activation behind it. -/
lemma insert (hm : RulesMeasured bounds c m) :
    RulesMeasured bounds
      { c with levelRules := Function.update c.levelRules h.site.address (some (h.measureLevelRule bounds)) }
      { m with kept := Function.update m.kept h.site.address (some h) } where
  map := by
    intro site
    by_cases hsite : site = h.site.address
    · subst hsite
      simp
    · simpa [Function.update_of_ne hsite] using hm.map site
  slot := hm.slot
  site := by
    intro site measured hkept
    by_cases hsite : site = h.site.address
    · subst hsite
      obtain rfl : h = measured := by simpa using hkept
      rfl
    · exact hm.site site measured (by simpa [Function.update_of_ne hsite] using hkept)

/-- The front cache misses where no activation of the site is behind its slot. -/
lemma miss (hm : RulesMeasured bounds c m)
    (hmiss : ∀ measured ∈ m.slots (LevelCache.slotOf h.site.address), measured.site ≠ h.site) :
    (c.slots (LevelCache.slotOf h.site.address)).site ≠ h.site.address := by
  rw [hm.slot]
  cases hslot : m.slots (LevelCache.slotOf h.site.address) with
  | none => exact h.site.nonnull.symm
  | some measured => exact fun heq => hmiss measured hslot (LevelCache.HookSite.ext_address heq)

/-- A call goes by the rule of the activation that is in use. -/
lemma ruleFor (hm : RulesMeasured bounds c m) :
    (c.ruleFor bounds h).2 = (m.inUse h).measureLevelRule bounds ∧
      RulesMeasured bounds (c.ruleFor bounds h).1 (m.after h) := by
  by_cases hhit : ∃ measured ∈ m.slots (LevelCache.slotOf h.site.address), measured.site = h.site
  · obtain ⟨measured, hslot, hsite⟩ := hhit
    have hstored := RuleOrigins.stored_of_hit hslot hsite
    have hc : c.slots (LevelCache.slotOf h.site.address) =
        ⟨h.site.address, measured.measureLevelRule bounds⟩ := by
      rw [hm.slot, Option.mem_def.mp hslot, ← hsite]
      rfl
    have hsame : m.after h = m := by
      have hslots : Function.update m.slots (LevelCache.slotOf h.site.address) (some measured) = m.slots := by
        rw [← Option.mem_def.mp hslot, Function.update_eq_self]
      simp [RuleOrigins.after, RuleOrigins.inUse, hstored, hslots]
    rw [hsame, LevelCache.ruleFor]
    simp only [hc, if_true, RuleOrigins.inUse, hstored]
    exact ⟨rfl, hm⟩
  · have hmiss : ∀ measured ∈ m.slots (LevelCache.slotOf h.site.address), measured.site ≠ h.site :=
      fun measured hslot hsite => hhit ⟨measured, hslot, hsite⟩
    have hstored := RuleOrigins.stored_of_miss hmiss
    rw [LevelCache.ruleFor]
    simp only [if_neg (hm.miss hmiss), hm.map]
    cases hkept : m.kept h.site.address with
    | some measured =>
      have hsite : measured.site = h.site :=
        LevelCache.HookSite.ext_address (hm.site _ measured hkept)
      have hafter : m.after h = { m with
          slots := Function.update m.slots (LevelCache.slotOf h.site.address) (some measured) } := by
        simp [RuleOrigins.after, RuleOrigins.inUse, hstored, hkept]
      rw [hafter, RuleOrigins.inUse, hstored, hkept]
      exact ⟨rfl, hm.store hsite⟩
    | none =>
      rw [RuleOrigins.inUse, hstored, hkept]
      refine ⟨rfl, ?_⟩
      simp only [Option.map_none, RuleOrigins.after, RuleOrigins.inUse, hstored, hkept, Option.isNone_none,
        Option.getD_none, Bool.true_and]
      split_ifs
      · exact hm.insert.store rfl
      · exact hm.store rfl

end RulesMeasured

end RulesMeasured

/-! ### Hooks that take their level from the cache -/

/-- A thread and the level cache of its hooks. The activations that the rules were measured for, and how the
level of each activation came about, are ghost. -/
structure LevelWorld where
  world : World
  cache : LevelCache := {}
  measured : RuleOrigins := {}
  placements : Nat → Option Placement := fun _ => none

/-- What a thread can do, with the frames of the hooks; the levels of the calls are not used. -/
inductive LevelAction where
  | call (h : HookFrame) (e : EnterCall) (site : CallSite)
  | callPlain (key : FrameKey) (site : CallSite)
  | leave (h : HookFrame) (x : ExitCall)
  | leavePlain
  | jump (n : Nat)
  | thrown (kind : ThrowKind) (c : EventCall)
  | caught (h : HookFrame) (c : EventCall)
  | terminated (reason : TerminateReason) (c : EventCall)

/-- The hook's frame. -/
def LevelAction.hookFrame : LevelAction → Option HookFrame
  | .call h _ _ => some h
  | .leave h _  => some h
  | .caught h _ => some h
  | _           => none

namespace LevelWorld

variable (w : LevelWorld)

abbrev live : List Frame := w.world.live

abbrev frames : List FrameRecord := w.world.tracer.frames

abbrev bounds : StackBounds := w.world.tracer.stackBounds

/-- An enter with its level, from the rule in use. -/
def enterCall (h : HookFrame) (e : EnterCall) : EnterCall :=
  { e with level := w.cache.frameLevel w.bounds h }

/-- A catch with its level, measured afresh. -/
def catchCall (h : HookFrame) (c : EventCall) : EventCall := { c with level := h.measuredFrameLevel w.bounds }

/-- The action with the levels the hooks derive. -/
def action : LevelAction → Action
  | .call h e site       => .call (w.enterCall h e) site
  | .callPlain key site  => .callPlain key site
  | .leave h x           => .leave { x with level := w.cache.frameLevel w.bounds h }
  | .leavePlain          => .leavePlain
  | .jump n              => .jump n
  | .thrown kind c       => .thrown kind c
  | .caught h c          => .caught (w.catchCall h c)
  | .terminated reason c => .terminated reason c

/-- The hook that looks a rule up: one that only counts does not. -/
def lookup : LevelAction → Option HookFrame
  | .call h e _ => if w.world.tracer.overflows e then none else some h
  | .leave h _  => if 0 < w.world.tracer.frameOverflowCount ∨ w.frames = [] then none else some h
  | _           => none

/-- A call of a hook next to the activation whose rule it goes by. -/
def placement (h : HookFrame) : Placement := ⟨w.measured.inUse h, h⟩

def act (b : Build) (w : LevelWorld) (a : LevelAction) : LevelWorld where
  world := w.world.act b (w.action a)
  cache := (w.lookup a).elim w.cache (w.cache.step w.bounds)
  measured := (w.lookup a).elim w.measured w.measured.after
  placements :=
    match a with
    | .call h _ _ => Function.update w.placements w.world.tracer.entered (some (w.placement h))
    | _           => w.placements

/-- A thread that has not called anything yet. -/
def fresh (bounds : StackBounds) (earlier : Text) : LevelWorld where
  world := .fresh bounds earlier

/-- The record, or one above it, stops a level step: it is off the thread's stack, or its level passes. -/
def Shields (r : FrameRecord) (passes : FrameRecord → Addr → Prop) : Prop :=
  ∃ q ∈ w.frames, (q = r ∨ r.activation < q.activation) ∧ ∃ p ∈ w.placements q.activation,
    onThreadStack w.bounds (p.level w.bounds) = true → passes q (p.level w.bounds)

end LevelWorld

/-! ### When the levels are safe -/

/-- The level step of an enter takes no record of a live frame, and that of a catch not the catcher's. -/
def LevelsSafe (w : LevelWorld) : LevelAction → Prop
  | .call h e _ => w.world.tracer.overflows e = false →
      SparesLive w.world (deadRecordsOnEnter w.frames (w.enterCall h e).key w.bounds)
  | .caught h c => c.named = true → c.atStub = false → ∀ catcher ∈ w.live.head?, ∀ r ∈ catcher.record,
      r ∉ w.frames.take (deadRecordsOnCatch w.frames (w.catchCall h c).level w.bounds)
  | _           => True

/-- Each live frame is shielded from an enter by a level that is not under that of the entering frame, and with
its caller where they are equal; all levels are those that the measured layouts give. The catcher is shielded
from its catch by a level that is not under its true CFA. -/
def LayoutsInPlace (w : LevelWorld) : LevelAction → Prop
  | .call h e _ => w.world.tracer.overflows e = false →
      onThreadStack w.bounds ((w.placement h).level w.bounds) = true →
      ∀ r ∈ w.world.records, r ∈ w.frames → w.Shields r fun q level =>
        (w.placement h).level w.bounds ≤ level ∧ ((w.placement h).level w.bounds = level → e.caller = q.caller)
  | .caught h c => c.named = true → c.atStub = false →
      onThreadStack w.bounds (h.trueLevel w.bounds) = true → ∀ catcher ∈ w.live.head?, ∀ r ∈ catcher.record,
        r ∈ w.frames → w.Shields r fun _ level => h.trueLevel w.bounds ≤ level
  | _           => True

/-- The caches and the recorded levels are those of the activations that were measured. -/
structure LevelsKnown (bounds : StackBounds) (w : LevelWorld) : Prop where
  bounds_eq : w.bounds = bounds
  tracked : Tracked w.world
  mirrors : RulesMeasured bounds w.cache w.measured
  reports : w.measured.All ReportsCfa
  levels : ∀ r ∈ w.frames, ∃ p ∈ w.placements r.activation, r.level = p.level bounds

/-- A count from the top stops at a record or over it exactly when one of these fails. -/
lemma notMem_take_iff {records : List FrameRecord} (h : NewestFirst records) {pass : FrameRecord → Bool}
    {r : FrameRecord} (hr : r ∈ records) :
    r ∉ records.take (records.takeWhile pass).length ↔
      ∃ q ∈ records, (q = r ∨ r.activation < q.activation) ∧ pass q = false := by
  have htaken : records.take (records.takeWhile pass).length = records.takeWhile pass :=
    (List.prefix_iff_eq_take.mp (List.takeWhile_prefix _)).symm
  rw [htaken, Scan.mem_takeWhile_iff newer_asymm h hr]
  constructor
  · intro hnot
    by_cases hself : pass r = true
    · simp only [hself, true_and, not_forall, exists_prop] at hnot
      obtain ⟨q, hq, hover, hfails⟩ := hnot
      exact ⟨q, hq, .inr hover, by simpa using hfails⟩
    · exact ⟨r, hr, .inl rfl, by simpa using hself⟩
  · rintro ⟨q, hq, rfl | hover, hfails⟩ ⟨hself, habove⟩
    · exact absurd (hself.symm.trans hfails) (by simp)
    · exact absurd ((habove q hq hover).symm.trans hfails) (by simp)

namespace LevelsKnown

variable {b : Build} {bounds : StackBounds} {w : LevelWorld} {h : HookFrame} {e : EnterCall} {c : EventCall}

lemma frameLevel_eq (hw : LevelsKnown bounds w) (hh : ReportsCfa h) :
    w.cache.frameLevel w.bounds h = (w.placement h).level bounds := by
  rw [LevelCache.frameLevel, hw.bounds_eq, hw.mirrors.ruleFor.1]
  exact applyLevelRule_of_reports (p := w.placement h) (hw.reports.inUse hh)

/-- What shields a record is a record at or over it that fails the test of a level step. -/
lemma shields_iff (hw : LevelsKnown bounds w) {r : FrameRecord} {passes : FrameRecord → Addr → Prop} :
    w.Shields r passes ↔ ∃ q ∈ w.frames, (q = r ∨ r.activation < q.activation) ∧
      (onThreadStack bounds q.level = true → passes q q.level) := by
  refine exists_congr fun q => and_congr_right fun hq => and_congr_right fun _ => ?_
  obtain ⟨p, hp, hlevel⟩ := hw.levels q hq
  rw [hw.bounds_eq, hlevel]
  constructor
  · rintro ⟨p', hp', hpasses⟩
    obtain rfl := Option.mem_unique hp hp'
    exact hpasses
  · exact fun hpasses => ⟨p, hp, hpasses⟩

lemma fresh (bounds : StackBounds) (earlier : Text) : LevelsKnown bounds (.fresh bounds earlier) where
  bounds_eq := rfl
  tracked := .fresh bounds earlier
  mirrors := mirrors_empty bounds
  reports := ⟨by simp [LevelWorld.fresh], by simp [LevelWorld.fresh]⟩
  levels := by simp [LevelWorld.fresh, LevelWorld.frames, World.fresh, ThreadState.fresh]

lemma act {a : LevelAction} (hw : LevelsKnown bounds w) (ha : ∀ h ∈ a.hookFrame, ReportsCfa h) :
    LevelsKnown bounds (w.act b a) := by
  have hlookup : ∀ h ∈ w.lookup a, ReportsCfa h := by
    intro h hh
    apply ha
    cases a with
    | call h' e site =>
      simp only [LevelWorld.lookup] at hh
      split_ifs at hh
      · simp at hh
      · exact hh
    | leave h' x =>
      simp only [LevelWorld.lookup] at hh
      split_ifs at hh
      · simp at hh
      · exact hh
    | _ => simp [LevelWorld.lookup] at hh
  refine ⟨(watch_stackBounds b w.world.tracer (w.action a)).trans hw.bounds_eq, hw.tracked.act _, ?_, ?_, ?_⟩
  · cases hfound : w.lookup a with
    | none => simpa [LevelWorld.act, hfound] using hw.mirrors
    | some h =>
      have hstep := (hw.mirrors.ruleFor (h := h)).2
      simpa [LevelWorld.act, hfound, LevelCache.step, hw.bounds_eq] using hstep
  · cases hfound : w.lookup a with
    | none => simpa [LevelWorld.act, hfound] using hw.reports
    | some h => simpa [LevelWorld.act, hfound] using hw.reports.after (hlookup h hfound)
  · -- a record keeps its placement, the next activation gets a new one
    have hold : ∀ r ∈ w.frames, ∃ p ∈ (w.act b a).placements r.activation, r.level = p.level bounds := by
      intro r hr
      obtain ⟨p, hp, hlevel⟩ := hw.levels r hr
      refine ⟨p, ?_, hlevel⟩
      cases a with
      | call h e site =>
        have hne : r.activation ≠ w.world.tracer.entered := Nat.ne_of_lt (hw.tracked.entered r hr)
        simpa [LevelWorld.act, Function.update_of_ne hne] using hp
      | _ => exact hp
    have hafter : (w.act b a).frames = (w.world.act b (w.action a)).tracer.frames := rfl
    rcases records_act_cases w.world b (w.action a) with
      ⟨e, site, new, haction, -, hnew, hframes, -⟩ | ⟨e, site, -, -, hframes, -⟩ | ⟨-, ⟨n, hframes⟩, -⟩
    · intro r hr
      rw [hafter, hframes] at hr
      rcases List.mem_cons.mp hr with rfl | hrest
      · cases a with
        | call h e' site' =>
          obtain ⟨rfl, -⟩ := Action.call.inj haction
          refine ⟨w.placement h, ?_, ?_⟩
          · simp [LevelWorld.act, hnew.activation_eq]
          · rw [hnew.key_eq]
            exact hw.frameLevel_eq (ha h rfl)
        | _ => simp [LevelWorld.action] at haction
      · exact hold r (List.mem_of_mem_drop hrest)
    · intro r hr
      rw [hafter, hframes] at hr
      exact hold r hr
    · intro r hr
      rw [hafter, hframes] at hr
      exact hold r (List.mem_of_mem_drop hr)

/-- The level step of an enter spares the live frames exactly when these are shielded. -/
lemma sparesLive_iff (hw : LevelsKnown bounds w) (hh : ReportsCfa h) :
    SparesLive w.world (deadRecordsOnEnter w.frames (w.enterCall h e).key w.bounds) ↔
      (onThreadStack w.bounds ((w.placement h).level w.bounds) = true →
        ∀ r ∈ w.world.records, r ∈ w.frames → w.Shields r fun q level =>
          (w.placement h).level w.bounds ≤ level ∧
            ((w.placement h).level w.bounds = level → e.caller = q.caller)) := by
  have hlevel : (w.enterCall h e).key.level = (w.placement h).level w.bounds := by
    rw [hw.bounds_eq]
    exact hw.frameLevel_eq hh
  have hcaller : (w.enterCall h e).key.caller = e.caller := rfl
  by_cases hon : onThreadStack w.bounds ((w.placement h).level w.bounds) = true
  · have hspares : SparesLive w.world (deadRecordsOnEnter w.frames (w.enterCall h e).key w.bounds) ↔
        ∀ r ∈ w.world.records, r ∈ w.frames →
          r ∉ w.frames.take (deadRecordsOnEnter w.frames (w.enterCall h e).key w.bounds) := by
      constructor
      · exact fun hspares r hlive _ htaken => hspares r htaken hlive
      · exact fun hspares r htaken hlive => hspares r hlive (List.mem_of_mem_take htaken) htaken
    rw [hspares]
    simp only [hon, true_imp_iff]
    refine forall₃_congr fun r _ hr => ?_
    rw [deadRecordsOnEnter, hlevel, if_pos hon, notMem_take_iff hw.tracked.newest hr, hw.shields_iff]
    refine exists_congr fun q => and_congr_right fun _ => and_congr_right fun _ => ?_
    simp only [deeper, reusedSlot, hlevel, hcaller, key_frameRecord, ← hw.bounds_eq]
    generalize (w.placement h).level w.bounds = level
    cases hq : onThreadStack w.bounds q.level with
    | false => simp
    | true =>
      simp only [Bool.true_and, Bool.or_eq_false_iff, decide_eq_false_iff_not, Nat.not_lt,
        Bool.and_eq_false_iff, beq_eq_false_iff_ne, bne_eq_false_iff_eq, true_imp_iff]
      refine and_congr_right fun _ => ?_
      rw [← imp_iff_not_or]
      exact ⟨fun hslot heq => (hslot heq.symm).symm, fun hslot heq => (hslot heq.symm).symm⟩
  · have hnone : deadRecordsOnEnter w.frames (w.enterCall h e).key w.bounds = 0 := by
      rw [deadRecordsOnEnter, hlevel, if_neg hon]
    rw [hnone]
    exact iff_of_true (by simp [SparesLive]) fun hon' => absurd hon' hon

/-- That of a catch spares a record exactly when this is shielded. -/
lemma notMem_take_catch_iff (hw : LevelsKnown bounds w) (hh : ReportsCfa h) {r : FrameRecord} :
    r ∉ w.frames.take (deadRecordsOnCatch w.frames (w.catchCall h c).level w.bounds) ↔
      (onThreadStack w.bounds (h.trueLevel w.bounds) = true → r ∈ w.frames →
        w.Shields r fun _ level => h.trueLevel w.bounds ≤ level) := by
  have hlevel : (w.catchCall h c).level = h.trueLevel w.bounds := measuredFrameLevel_eq hh
  rw [deadRecordsOnCatch, hlevel]
  by_cases hon : onThreadStack w.bounds (h.trueLevel w.bounds) = true
  · by_cases hr : r ∈ w.frames
    · rw [if_pos hon, notMem_take_iff hw.tracked.newest hr, hw.shields_iff]
      simp only [hon, hr, true_imp_iff]
      refine exists_congr fun q => and_congr_right fun _ => and_congr_right fun _ => ?_
      rw [← hw.bounds_eq, key_frameRecord, Bool.and_eq_false_imp, decide_eq_false_iff_not, Nat.not_lt]
    · exact iff_of_true (fun htaken => hr (List.mem_of_mem_take htaken)) fun _ hr' => absurd hr' hr
  · rw [if_neg hon]
    exact iff_of_true (by simp) fun hon' => absurd hon' hon

lemma levelsSafe_iff {a : LevelAction} (hw : LevelsKnown bounds w) (ha : ∀ h ∈ a.hookFrame, ReportsCfa h) :
    LevelsSafe w a ↔ LayoutsInPlace w a := by
  cases a with
  | call h e site => exact imp_congr_right fun _ => hw.sparesLive_iff (ha h rfl)
  | caught h c =>
    refine imp_congr_right fun _ => imp_congr_right fun _ => ?_
    simp only [hw.notMem_take_catch_iff (ha h rfl)]
    constructor
    · exact fun hsafe hon catcher hcatcher r hr hmem => hsafe catcher hcatcher r hr hon hmem
    · exact fun hplaced catcher hcatcher r hr hon hmem => hplaced hon catcher hcatcher r hr hmem
  | _ => exact Iff.rfl

end LevelsKnown

/-- In a run the level step of no enter takes the record of a live frame, and that of no catch the catcher's,
exactly when the layouts that the rules go by keep the frames in their order. -/
theorem varying_layouts_safe_iff (b : Build) (bounds : StackBounds) (earlier : Text) (actions : List LevelAction)
    (hreports : ∀ a ∈ actions, ∀ h ∈ a.hookFrame, ReportsCfa h) :
    AllSteps (LevelWorld.act b) LevelsSafe (.fresh bounds earlier) actions ↔
      AllSteps (LevelWorld.act b) LayoutsInPlace (.fresh bounds earlier) actions :=
  allSteps_iff_of_invariant (I := LevelsKnown bounds) (D := fun _ a => ∀ h ∈ a.hookFrame, ReportsCfa h)
    (fun _ _ hw ha _ => hw.act ha) (fun _ _ hw ha => hw.levelsSafe_iff ha) (.fresh bounds earlier)
    (allSteps_of_forall_mem hreports)

/-! ### A realigned stack pointer -/

/-- `f` aligns its stack pointer to 128 bytes: called by `main` that takes 32 bytes more than when `g` calls it. -/
def realignedCalls : List LevelAction :=
  [.call (.plain ⟨4, by decide⟩ 60000 60192 60208 true) (.plain ⟨1, 10, 0⟩ ["main".toList] .filtered)
    ⟨60208, 60208, "main".toList, false⟩,
   .call (.plain ⟨8, by decide⟩ 58992 59120 59184 true) (.plain ⟨2, 20, 0⟩ ["f".toList] .filtered)
    ⟨59184, 59184, "f".toList, false⟩,
   .leave (.plain ⟨12, by decide⟩ 58992 59120 59184 true) (.plain ⟨2, 20, 0⟩ 12),
   .call (.plain ⟨16, by decide⟩ 56960 60192 56992 true) (.plain ⟨3, 30, 0⟩ ["g".toList] .filtered)
    ⟨56992, 56992, "g".toList, false⟩,
   .call (.plain ⟨8, by decide⟩ 56816 56944 56976 true) (.plain ⟨2, 40, 0⟩ ["f".toList] .filtered)
    ⟨56976, 56976, "f".toList, false⟩]

/-- `f` takes 32 bytes more to align its stack pointer at its second call, in which it catches. -/
def realignedCatch : List LevelAction :=
  [.call (.plain ⟨8, by decide⟩ 56816 56944 56976 true) (.plain ⟨2, 40, 0⟩ ["f".toList] .filtered)
    ⟨56976, 56976, "f".toList, false⟩,
   .leave (.plain ⟨12, by decide⟩ 56816 56944 56976 true) (.plain ⟨2, 40, 0⟩ 12),
   .call (.plain ⟨8, by decide⟩ 58992 59120 59184 true) (.plain ⟨2, 20, 0⟩ ["f".toList] .filtered)
    ⟨59184, 59184, "f".toList, false⟩,
   .caught (.plain ⟨24, by decide⟩ 58992 59120 59184 true) (.plain 0 ["f".toList])]

/-- The unwinder is right about the frames of these calls. -/
lemma realignedCalls_report : ∀ a ∈ realignedCalls, ∀ h ∈ a.hookFrame, ReportsCfa h := by
  simp only [realignedCalls, List.forall_mem_cons, List.not_mem_nil, false_imp_iff, implies_true, and_true,
    LevelAction.hookFrame, Option.mem_some_iff, forall_eq']
  decide

theorem varying_layouts_safe_iff_realigned :
    AllSteps (LevelWorld.act ⟨true, true, false⟩) LevelsSafe (.fresh ⟨16, 65536, true⟩ []) realignedCalls ↔
      AllSteps (LevelWorld.act ⟨true, true, false⟩) LayoutsInPlace (.fresh ⟨16, 65536, true⟩ []) realignedCalls :=
  varying_layouts_safe_iff _ _ _ _ realignedCalls_report

instance (w : World) (n : Nat) : Decidable (SparesLive w n) :=
  inferInstanceAs (Decidable (∀ r ∈ w.tracer.frames.take n, r ∉ w.records))

/-- The rule of the first activation is too high for the second one of `f`, whose enter reclaims its live caller
`g`, and too low where `f` catches, which reclaims `f` itself. -/
theorem realigned_frame_reclaimed :
    ¬ AllSteps (LevelWorld.act ⟨true, true, false⟩) LevelsSafe (.fresh ⟨16, 65536, true⟩ []) realignedCalls ∧
      ¬ AllSteps (LevelWorld.act ⟨true, true, false⟩) LevelsSafe (.fresh ⟨16, 65536, true⟩ []) realignedCatch := by
  constructor
  · rintro ⟨-, -, -, -, hcall, -⟩
    exact absurd (hcall rfl) (by decide)
  · rintro ⟨-, -, -, hcatch, -⟩
    have hkept := hcatch rfl rfl _ rfl _ rfl
    exact absurd hkept (by decide)

end CallStackLogger
