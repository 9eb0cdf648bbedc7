import CallStackLogger.Program.Exits
import CallStackLogger.Program.Overflow

/-!
# The inline chains and the frames being executed

Frames that were inlined into each other share level and caller, and only the inline chain of a site
tells which of their records are alive. The three functions that go by it look for a base name among
the records on top that share a level. They spare the live ones exactly when the names lead there: a
match lies at or above each of them, and none is mistaken for a re-entered one.
-/

namespace CallStackLogger

open Run

variable {b : Build} {s : ThreadState} {w : World} {bounds : StackBounds} {names : Addr → Text}
  {frames : List FrameRecord}

/-! ### Functions inlined into each other -/

/-- The functions inlined into each other around the innermost frame, innermost first. -/
def inlineNames : List Frame → List Text
  | []         => []
  | f :: outer => f.site.name :: if f.site.inlined then inlineNames outer else []

/-- The frames under the innermost physical frame. -/
def callersOf : List Frame → List Frame
  | []         => []
  | f :: outer => if f.site.inlined then callersOf outer else outer

/-- The frame of a function, called `names` its address, that was inlined into the innermost frame or
runs below all of them. -/
structure CallsInto (names : Addr → Text) (bounds : StackBounds) (live : List Frame) (key : FrameKey)
    (site : CallSite) : Prop where
  name : site.name = names key.callee
  inlined : site.inlined = true →
    ∃ host ∈ live.head?, key.level = host.key.level ∧ key.caller = host.key.caller
  outOfLine : site.inlined = false → RunsBelow bounds key live

/-- What a thread does when the debug information is right: an inline chain is that of its site or
missing, an enter resolves to the function's own base name and to that of its direct parent, and a catch
has the catcher's level. -/
def InlineAction (names : Addr → Text) (bounds : StackBounds) (w : World) : Action → Prop
  | .call e site        =>
    let entered := Frame.plain e.key site w.tracer :: w.live
    CallsInto names bounds w.live e.key site ∧
      (∀ chain, e.inlineChain = some chain → chain = [] ∨ chain = inlineNames entered) ∧
      ∀ view, e.resolved = .found view → view.calleeBaseName = site.name ∧
        ∀ base ∈ view.callerFunctionBase, ∀ parent ∈ (callersOf entered).head?, base = parent.site.name
  | .callPlain key site => CallsInto names bounds w.live key site
  | .leave x            => ∃ own outer, w.live = own :: outer ∧ ExitsFrom bounds own outer x
  | .leavePlain         => ∃ own ∈ w.live.head?, own.isHooked = false
  | .caught c           => c.atStub = false → ∃ catcher ∈ w.live.head?, c.level = catcher.key.level ∧
      ∀ chain, c.inlineChain = some chain → chain = [] ∨ chain = inlineNames w.live
  | _                   => True

/-- What a reclaim step took from `s` to `s'` were no records of frames that are being executed. -/
def KeepsLive (w : World) (s s' : ThreadState) : Prop := ∀ r ∈ w.records, r ∈ s.frames → r ∈ s'.frames

instance (w : World) (s s' : ThreadState) : Decidable (KeepsLive w s s') :=
  inferInstanceAs (Decidable (∀ r ∈ w.records, r ∈ s.frames → r ∈ s'.frames))

/-- The three functions that go by inline chains pop no record of a live frame. -/
def InlineReclaimsSpareLive (b : Build) (w : World) : Action → Prop
  | .call e _ => ∀ s₀, w.tracer.frameOverflowCount = 0 → w.tracer.reserveSlot e.reserved = some s₀ →
      ∀ s₁ s₂, s₁ = s₀.enterLevelStep b e →
        s₁.reclaimDeadInlinedRecordsOnEnter b e.key e.inlineChain .atEnter e.uncaught = some s₂ →
        KeepsLive w s₁ s₂ ∧
          ∀ s₃ view, s₂.getThreadFp b e.threadFp = (some true, s₃) → e.resolved = .found view →
            KeepsLive w s₃ (s₃.reclaimDeadInlinedRecordsAboveParent b e.key view.callerFunctionBase
              .atEnter e.uncaught)
  | .caught c => b.logExceptions = true → c.named = true → c.atStub = false →
      ∀ s₁ s₂, s₁ = w.tracer.catchLevelStep b c.level c.uncaught →
        s₁.reclaimDeadInlinedRecordsOnCatch b c.level c.inlineChain c.uncaught = some s₂ →
        KeepsLive w s₁ s₂
  | _         => True

/-- The records `reclaim_dead_inlined_records_on_enter` finds. -/
def ThreadState.foundOnEnter (s : ThreadState) (e : EnterCall) : List FrameRecord :=
  s.frames.drop (deadRecordsOnEnter s.frames e.key s.stackBounds)

/-- The records `reclaim_dead_inlined_records_above_parent` finds. -/
def ThreadState.foundAboveParent (s : ThreadState) (e : EnterCall) : List FrameRecord :=
  s.frames.drop (s.deadOnEnter e)

/-- The records `reclaim_dead_inlined_records_on_catch` finds. -/
def ThreadState.foundOnCatch (s : ThreadState) (c : EventCall) : List FrameRecord :=
  s.frames.drop (deadRecordsOnCatch s.frames c.level s.stackBounds)

/-! ### When the names lead to the live records -/

/-- The records on top that share a level. -/
def levelGroup (frames : List FrameRecord) (level : Addr) : List FrameRecord :=
  frames.takeWhile fun r => r.level == level

/-- When the group on top has a record of the name, none of its live ones lies above all of these. -/
def NameSparesLive (w : World) (frames : List FrameRecord) (level : Addr) (base : Text) : Prop :=
  ∀ l ∈ levelGroup frames level, l ∈ w.records →
    (∃ r ∈ levelGroup frames level, recordHasBaseName r base = true) →
      ∃ r ∈ levelGroup frames level, (r = l ∨ l.activation < r.activation) ∧
        recordHasBaseName r base = true

/-- A live record with the identity of the entering frame has one of another frame above it. -/
def ReentrySparesLive (w : World) (frames : List FrameRecord) (key : FrameKey) : Prop :=
  ∀ l ∈ frames, l ∈ w.records → l.toFrameKey = key →
    ∃ r ∈ frames, l.activation < r.activation ∧ r.toFrameKey ≠ key

/-- The chain of an enter leads to the live records: no re-entry is seen where there is none, and the
host's name spares them. -/
def ChainSparesLive (w : World) (frames : List FrameRecord) (key : FrameKey) : List Text → Prop
  | []             => True
  | [_]            => ReentrySparesLive w frames key
  | f :: host :: _ => (f ≠ host → ReentrySparesLive w frames key) ∧ NameSparesLive w frames key.level host

/-- The base names that the three functions go by lead to the live ones of the records they find. -/
def NamesLeadToLive (b : Build) (w : World) : Action → Prop
  | .call e _ => w.tracer.overflows e = false → onThreadStack w.tracer.stackBounds e.level = true →
      (∀ chain, e.inlineChain = some chain → ChainSparesLive w (w.tracer.foundOnEnter e) e.key chain) ∧
      ∀ view, w.tracer.loggedView e = some view → ∀ base ∈ view.callerFunctionBase,
        ∀ top ∈ (w.tracer.foundAboveParent e).head?, e.level < top.level →
          onThreadStack w.tracer.stackBounds top.level = true →
            NameSparesLive w (w.tracer.foundAboveParent e) top.level base
  | .caught c => b.logExceptions = true → c.named = true → c.atStub = false →
      onThreadStack w.tracer.stackBounds c.level = true →
      ∀ chain, c.inlineChain = some chain → ∀ catcher ∈ chain.head?,
        NameSparesLive w (w.tracer.foundOnCatch c) c.level catcher
  | _         => True

/-! ### Counts that spare the live records -/

/-- Dropping `n` records from the top takes none that is alive. -/
def DropSparesLive (w : World) (frames : List FrameRecord) (n : Nat) : Prop :=
  ∀ r ∈ w.records, r ∈ frames → r ∈ frames.drop n

lemma keepsLive_popped {how : Char} {n : Nat} :
    KeepsLive w s (s.popped b how n) ↔ DropSparesLive w s.frames n := Iff.rfl

lemma dropSparesLive_zero (w : World) (frames : List FrameRecord) : DropSparesLive w frames 0 :=
  fun _ _ hr => hr

lemma dropSparesLive_add {m n : Nat} : DropSparesLive w frames (m + n) ↔
    DropSparesLive w frames m ∧ DropSparesLive w (frames.drop m) n := by
  rw [DropSparesLive]
  rw [← List.drop_drop]
  constructor
  · intro h
    refine ⟨fun r hr hmem => List.mem_of_mem_drop (h r hr hmem), fun r hr hmem => ?_⟩
    exact h r hr (List.mem_of_mem_drop hmem)
  · rintro ⟨hm, hn⟩ r hr hmem
    exact hn r hr (hm r hr hmem)

lemma dropSparesLive_iff (h : NewestFirst frames) {n : Nat} :
    DropSparesLive w frames n ↔ ∀ l ∈ frames, l ∈ w.records → l ∉ frames.take n := by
  rw [← List.take_append_drop n frames] at h
  have hdisjoint := (List.pairwise_append.mp h).2.2
  constructor
  · intro hspares l hl hlive htaken
    exact Nat.lt_irrefl _ (hdisjoint l htaken l (hspares l hlive hl))
  · intro hspares l hlive hl
    have hl' := hl
    rw [← List.take_append_drop n frames] at hl'
    exact (List.mem_append.mp hl').resolve_left (hspares l hl hlive)

lemma sameActivationSite_and_level {r : FrameRecord} {key : FrameKey} :
    (sameActivationSite r key && r.level == key.level) = true ↔ r.toFrameKey = key := by
  rcases r with ⟨⟨callee, caller, level⟩, _⟩
  cases key
  simp [sameActivationSite, and_assoc]

/-- What a re-entry pops spares the live records exactly when another frame's record lies over each of
the same identity. -/
lemma dropSparesLive_reenteredRecords (h : NewestFirst frames) (key : FrameKey) :
    DropSparesLive w frames (reenteredRecords frames key) ↔ ReentrySparesLive w frames key := by
  rw [dropSparesLive_iff h]
  refine forall₃_congr fun l hl _ => ?_
  have htaken : frames.take (reenteredRecords frames key) =
      frames.takeWhile fun r => sameActivationSite r key && r.level == key.level :=
    (List.prefix_iff_eq_take.mp (List.takeWhile_prefix _)).symm
  rw [htaken, Scan.mem_takeWhile_iff newer_asymm h hl]
  simp only [sameActivationSite_and_level, not_and, not_forall, exists_prop]

/-- What lies above a match of the name spares the live records exactly when the name leads to them. -/
lemma dropSparesLive_deadRecordsAboveMatch (h : NewestFirst frames) (level : Addr) (base : Text) :
    DropSparesLive w frames (deadRecordsAboveMatch frames level fun r => recordHasBaseName r base) ↔
      NameSparesLive w frames level base := by
  have hgroup : levelGroup frames level <+: frames := List.takeWhile_prefix _
  have htaken : frames.take (deadRecordsAboveMatch frames level fun r => recordHasBaseName r base) =
      (levelGroup frames level).take
        (((levelGroup frames level).findIdx? fun r => recordHasBaseName r base).getD 0) := by
    have hle : ((levelGroup frames level).findIdx? fun r => recordHasBaseName r base).getD 0 ≤
        (levelGroup frames level).length := by
      cases hfound : (levelGroup frames level).findIdx? fun r => recordHasBaseName r base with
      | none => exact Nat.zero_le _
      | some i => exact Nat.le_of_lt (List.findIdx?_eq_some_iff_getElem.mp hfound).1
    obtain ⟨rest, hrest⟩ := hgroup
    have happend : (levelGroup frames level ++ rest).take _ = (levelGroup frames level).take _ :=
      List.take_append_of_le_length hle
    rw [hrest] at happend
    exact happend
  rw [dropSparesLive_iff h, htaken]
  constructor
  · intro hspares l hl hlive
    exact (Scan.notMem_take_findIdx_iff newer_asymm (h.sublist hgroup.sublist) hl).mp
      (hspares l (hgroup.subset hl) hlive)
  · intro hname l hl hlive htaken
    have hl' := List.mem_of_mem_take htaken
    exact (Scan.notMem_take_findIdx_iff newer_asymm (h.sublist hgroup.sublist) hl').mpr
      (hname l hl' hlive) htaken

/-- Records on top that are neither alive nor of the name do not matter to the search for it. -/
lemma nameSparesLive_append {dead : List FrameRecord} {level : Addr} {base : Text}
    (hlevel : ∀ r ∈ dead, r.level = level) (hdead : ∀ r ∈ dead, r ∉ w.records)
    (hname : ∀ r ∈ dead, recordHasBaseName r base = false) :
    NameSparesLive w (dead ++ frames) level base ↔ NameSparesLive w frames level base := by
  have hgroup : levelGroup (dead ++ frames) level = dead ++ levelGroup frames level :=
    List.takeWhile_append_of_pos fun r hr => beq_iff_eq.mpr (hlevel r hr)
  have hmatch : ∀ r ∈ dead ++ levelGroup frames level, recordHasBaseName r base = true →
      r ∈ levelGroup frames level := by
    intro r hr hfound
    refine (List.mem_append.mp hr).resolve_left fun hmem => ?_
    exact absurd (hfound.symm.trans (hname r hmem)) (by simp)
  rw [NameSparesLive]
  rw [hgroup]
  constructor
  · rintro h l hl hlive ⟨r, hr, hfound⟩
    obtain ⟨q, hq, hover, hqfound⟩ := h l (List.mem_append_right dead hl) hlive
      ⟨r, List.mem_append_right dead hr, hfound⟩
    exact ⟨q, hmatch q hq hqfound, hover, hqfound⟩
  · rintro h l hl hlive ⟨r, hr, hfound⟩
    have hl' : l ∈ levelGroup frames level :=
      (List.mem_append.mp hl).resolve_left fun hmem => hdead l hmem hlive
    obtain ⟨q, hq, hover, hqfound⟩ := h l hl' hlive ⟨r, hmatch r hr hfound, hfound⟩
    exact ⟨q, List.mem_append_right dead hq, hover, hqfound⟩

/-- A function has one base name, which its records carry when they carry one. -/
def RecordsNamed (names : Addr → Text) (frames : List FrameRecord) : Prop :=
  ∀ r ∈ frames, ∀ base ∈ r.nameBase, base = names r.callee

lemma RecordsNamed.eq_of_hasBaseName {r : FrameRecord} {base : Text} (h : RecordsNamed names frames)
    (hr : r ∈ frames) (hbase : recordHasBaseName r base = true) : base = names r.callee := by
  rw [recordHasBaseName] at hbase
  split at hbase
  · rename_i name hname
    simp only [Bool.and_eq_true, beq_iff_eq] at hbase
    exact hbase.2 ▸ h r hr name hname
  · simp at hbase

/-- What an enter pops by the chain spares the live records exactly when the chain leads to them. -/
lemma dropSparesLive_chainDead {key : FrameKey} {f : Text} {hosts : List Text}
    (h : NewestFirst frames) (hnamed : RecordsNamed names frames) (hf : f = names key.callee) :
    DropSparesLive w frames (chainDead frames key (f :: hosts)) ↔
      ChainSparesLive w frames key (f :: hosts) := by
  cases hosts with
  | nil => exact dropSparesLive_reenteredRecords h key
  | cons host rest =>
    by_cases hrecursive : f = host
    · have hcount : chainDead frames key (f :: host :: rest) =
          deadRecordsAboveMatch frames key.level fun r => recordHasBaseName r host := by
        simp [chainDead, recursiveInline, recordsAboveHost, hrecursive]
      rw [hcount, dropSparesLive_deadRecordsAboveMatch h]
      simp [ChainSparesLive, hrecursive]
    · have hcount : chainDead frames key (f :: host :: rest) = reenteredRecords frames key +
          deadRecordsAboveMatch (frames.drop (reenteredRecords frames key)) key.level
            fun r => recordHasBaseName r host := by
        simp [chainDead, recursiveInline, recordsAboveHost, hrecursive]
      rw [hcount, dropSparesLive_add, dropSparesLive_deadRecordsAboveMatch (h.drop _),
        dropSparesLive_reenteredRecords h]
      simp only [ChainSparesLive, ne_eq, hrecursive, not_false_eq_true, true_imp_iff]
      refine and_congr_right fun hreentry => ?_
      -- the re-entered records are of the entering function, which has another name
      have hreentered : ∀ r ∈ frames.take (reenteredRecords frames key), r.toFrameKey = key := by
        intro r hr
        have hpass := Scan.forall_mem_take_length_takeWhile hr
        exact sameActivationSite_and_level.mp hpass
      conv_rhs => rw [← List.take_append_drop (reenteredRecords frames key) frames]
      refine (nameSparesLive_append ?_ ?_ ?_).symm
      · intro r hr
        rw [hreentered r hr]
      · intro r hr hlive
        refine (dropSparesLive_iff h).mp ((dropSparesLive_reenteredRecords h key).mpr hreentry) r ?_ hlive hr
        exact List.mem_of_mem_take hr
      · intro r hr
        by_contra hfound
        have hhost := hnamed.eq_of_hasBaseName (List.mem_of_mem_take hr) (Bool.eq_true_of_not_eq_false hfound)
        rw [hreentered r hr] at hhost
        exact hrecursive (hf.trans hhost.symm)

lemma nameSparesLive_of_head {level : Addr} (base : Text)
    (h : ∀ r ∈ frames.head?, r.level ≠ level) : NameSparesLive w frames level base := by
  have hgroup : levelGroup frames level = [] := by
    rw [← List.length_eq_zero_iff]
    exact Scan.length_takeWhile_eq_zero fun r hr => beq_eq_false_iff_ne.mpr (h r hr)
  intro l hl
  rw [hgroup] at hl
  exact absurd hl List.not_mem_nil

/-- `reclaim_dead_inlined_records_on_enter` spares the live records exactly when the chain leads to them. -/
lemma dropSparesLive_inlinedDeadOnEnter {key : FrameKey} {chain : List Text} (h : NewestFirst frames)
    (hnamed : RecordsNamed names frames) (hchain : ∀ f ∈ chain.head?, f = names key.callee) :
    DropSparesLive w frames (inlinedDeadOnEnter frames key bounds chain) ↔
      (onThreadStack bounds key.level = true → ChainSparesLive w frames key chain) := by
  cases chain with
  | nil => exact iff_of_true (by simpa [inlinedDeadOnEnter] using dropSparesLive_zero w frames) fun _ => trivial
  | cons f hosts =>
    have hf : f = names key.callee := hchain f rfl
    by_cases hon : onThreadStack bounds key.level = true
    · rw [inlinedDeadOnEnter_eq hon, if_neg (List.cons_ne_nil f hosts), dropSparesLive_chainDead h hnamed hf]
      simp [hon]
    · simp [inlinedDeadOnEnter, groupOnTop, hon, dropSparesLive_zero]

/-- `reclaim_dead_inlined_records_above_parent` spares the live records exactly when the parent's name
leads to them. -/
lemma dropSparesLive_parentDead {key : FrameKey} {parentBase : Option Text} (h : NewestFirst frames) :
    DropSparesLive w frames (parentDead frames key bounds parentBase) ↔
      (onThreadStack bounds key.level = true → ∀ base ∈ parentBase, ∀ top ∈ frames.head?,
        key.level < top.level → onThreadStack bounds top.level = true →
          NameSparesLive w frames top.level base) := by
  cases parentBase with
  | none => simp [dropSparesLive_zero]
  | some base =>
    cases frames with
    | nil => simp [parentDead, dropSparesLive_zero]
    | cons top rest =>
      by_cases hbase : base.isEmpty = true
      · have hnone : parentDead (top :: rest) key bounds (some base) = 0 := by simp [parentDead, hbase]
        rw [hnone]
        refine iff_of_true (dropSparesLive_zero w _) ?_
        rintro - base' hbase' _ - - - l - - ⟨r, -, hfound⟩
        obtain rfl : base = base' := Option.some.inj hbase'
        rw [List.isEmpty_iff.mp hbase, recordHasBaseName_nil] at hfound
        exact absurd hfound (by simp)
      · by_cases hguard : key.level < top.level ∧ onThreadStack bounds top.level = true ∧
          onThreadStack bounds key.level = true
        · have hcount : parentDead (top :: rest) key bounds (some base) =
              deadRecordsAboveMatch (top :: rest) top.level fun r => recordHasBaseName r base := by
            simp [parentDead, hbase, hguard]
          rw [hcount, dropSparesLive_deadRecordsAboveMatch h]
          simp [hguard]
        · have hnone : parentDead (top :: rest) key bounds (some base) = 0 := by
            rw [parentDead]
            simp only [Bool.or_eq_true, Bool.not_eq_true', decide_eq_false_iff_not]
            split_ifs with hout
            · rfl
            · simp only [not_or, not_not, Bool.not_eq_false] at hout
              exact absurd ⟨hout.1.1, hout.1.2, hout.2⟩ hguard
          rw [hnone]
          refine iff_of_true (dropSparesLive_zero w _) ?_
          rintro hkey _ - top' htop hlt hon
          obtain rfl : top = top' := Option.some.inj htop
          exact absurd ⟨hlt, hon, hkey⟩ hguard

/-- `reclaim_dead_inlined_records_on_catch` spares the live records exactly when the catcher's name
leads to them. -/
lemma dropSparesLive_inlinedDeadOnCatch {level : Addr} {chain : List Text} (h : NewestFirst frames) :
    DropSparesLive w frames (inlinedDeadOnCatch frames level bounds chain) ↔
      (onThreadStack bounds level = true → ∀ catcher ∈ chain.head?,
        NameSparesLive w frames level catcher) := by
  cases chain with
  | nil => simp [inlinedDeadOnCatch, dropSparesLive_zero]
  | cons catcher rest =>
    by_cases hgroup : groupOnTop frames level bounds = true
    · have hon : onThreadStack bounds level = true := (Bool.and_eq_true_iff.mp hgroup).2
      simp only [inlinedDeadOnCatch, if_pos hgroup, dropSparesLive_deadRecordsAboveMatch h]
      simp [hon]
    · have hnone : inlinedDeadOnCatch frames level bounds (catcher :: rest) = 0 := if_neg hgroup
      rw [hnone]
      refine iff_of_true (dropSparesLive_zero w _) fun hon name _ => ?_
      refine nameSparesLive_of_head name fun r hr hlevel => hgroup ?_
      simp [groupOnTop, Option.mem_def.mp hr, hlevel, hon]

/-! ### One step -/

/-- The records on the stack are newest first and carry the base names of their functions. -/
structure NamedStack (names : Addr → Text) (w : World) : Prop where
  tracked : Tracked w
  named : RecordsNamed names w.tracer.frames

namespace NamedStack

variable {e : EnterCall} {site : CallSite} {c : EventCall}

lemma act {a : Action} (h : NamedStack names w) (ha : InlineAction names bounds w a) :
    NamedStack names (w.act b a) := by
  refine ⟨h.tracked.act a, ?_⟩
  rcases records_act_cases w b a with
    ⟨e, site, r, rfl, -, hr, hframes, -⟩ | ⟨e, site, -, -, hframes, -⟩ | ⟨-, ⟨n, hframes⟩, -⟩
  · rw [hframes]
    intro q hq base hbase
    rcases List.mem_cons.mp hq with rfl | hrest
    · obtain ⟨hinto, -, hresolved⟩ := ha
      rw [hr.nameBase_eq] at hbase
      obtain ⟨view, hview, rfl⟩ := Option.map_eq_some_iff.mp hbase
      obtain ⟨-, -, -, hfound⟩ := loggedView_eq_some.mp hview
      rw [(hresolved view hfound).1, hinto.name, hr.key_eq, EnterCall.key]
    · exact h.named q (List.mem_of_mem_drop hrest) base hbase
  · exact hframes ▸ h.named
  · rw [hframes]
    exact fun q hq => h.named q (List.mem_of_mem_drop hq)

lemma fresh (bounds : StackBounds) (earlier : Text) : NamedStack names (.fresh bounds earlier) where
  tracked := .fresh bounds earlier
  named := by simp [RecordsNamed, World.fresh, ThreadState.fresh]

end NamedStack

lemma foundAboveParent_eq (s : ThreadState) (e : EnterCall) : s.foundAboveParent e =
    (s.foundOnEnter e).drop (inlinedDeadOnEnter (s.foundOnEnter e) e.key s.stackBounds
      (e.inlineChain.getD [])) := by
  simp only [ThreadState.foundAboveParent, ThreadState.foundOnEnter, List.drop_drop]
  rfl

/-- Once it has a slot, an enter calls the first of its two functions on what the level step leaves. -/
lemma enterLevelStep_found {e : EnterCall} {s₀ : ThreadState}
    (hslot : s.reserveSlot e.reserved = some s₀) :
    (s₀.enterLevelStep b e).frames = s.foundOnEnter e ∧
      (s₀.enterLevelStep b e).stackBounds = s.stackBounds := by
  obtain ⟨capacity, rfl, -⟩ := reserveSlot_eq_some hslot
  rw [enterLevelStep_eq]
  exact ⟨rfl, rfl⟩

/-- The second one is called on what the first leaves. -/
lemma enterReclaim_found {e : EnterCall} {s₀ : ThreadState}
    (hslot : s.reserveSlot e.reserved = some s₀) :
    (s₀.enterReclaim b e).frames = s.foundAboveParent e ∧
      (s₀.enterReclaim b e).stackBounds = s.stackBounds ∧
      (s₀.enterReclaim b e).traceFile.hasStream e.threadFp = s.traceFile.hasStream e.threadFp := by
  obtain ⟨capacity, rfl, -⟩ := reserveSlot_eq_some hslot
  rw [enterReclaim_eq, popped_hasStream]
  exact ⟨rfl, rfl, rfl⟩

lemma reclaimOnEnter_eq_some {e : EnterCall} {s₀ s₂ : ThreadState}
    (hslot : s.reserveSlot e.reserved = some s₀) :
    (s₀.enterLevelStep b e).reclaimDeadInlinedRecordsOnEnter b e.key e.inlineChain .atEnter e.uncaught =
        some s₂ ↔ s.chainThrows e = false ∧ s₂ = s₀.enterReclaim b e := by
  obtain ⟨hframes, hbounds⟩ := enterLevelStep_found (b := b) hslot
  have hthrows : (groupOnTop (s.foundOnEnter e) e.key.level s.stackBounds = true ∧
      e.inlineChain = none) ↔ s.chainThrows e = true := by
    rw [ThreadState.chainThrows, Bool.and_eq_true, Option.isNone_iff_eq_none]
    rfl
  have hnone := reclaimDeadInlinedRecordsOnEnter_eq (s₀.enterLevelStep b e) b e.key e.inlineChain
    .atEnter e.uncaught
  simp only [hframes, hbounds, hthrows] at hnone
  rw [ThreadState.enterReclaim]
  simp only [hnone]
  split_ifs with hthrow
  · simp [hthrow]
  · simp [hthrow, eq_comm]

/-- What the two functions of an enter pop, as counts on the records they find. -/
lemma inlineReclaimsSpareLive_call {e : EnterCall} {site : CallSite} :
    InlineReclaimsSpareLive b w (.call e site) ↔
      (w.tracer.overflows e = false → w.tracer.chainThrows e = false →
        DropSparesLive w (w.tracer.foundOnEnter e) (inlinedDeadOnEnter (w.tracer.foundOnEnter e) e.key
          w.tracer.stackBounds (e.inlineChain.getD [])) ∧
        ∀ view, w.tracer.loggedView e = some view →
          DropSparesLive w (w.tracer.foundAboveParent e) (parentDead (w.tracer.foundAboveParent e) e.key
            w.tracer.stackBounds view.callerFunctionBase)) := by
  have hfirst : ∀ s₀, w.tracer.reserveSlot e.reserved = some s₀ →
      (KeepsLive w (s₀.enterLevelStep b e) (s₀.enterReclaim b e) ↔
        DropSparesLive w (w.tracer.foundOnEnter e) (inlinedDeadOnEnter (w.tracer.foundOnEnter e) e.key
          w.tracer.stackBounds (e.inlineChain.getD []))) := by
    intro s₀ hslot
    rw [KeepsLive]
    rw [(enterLevelStep_found hslot).1, (enterReclaim_found hslot).1, foundAboveParent_eq]
    rfl
  have hsecond : ∀ s₀, w.tracer.reserveSlot e.reserved = some s₀ → ∀ view : ResolvedFrameView,
      let s₃ := ((s₀.enterReclaim b e).getThreadFp b e.threadFp).2
      KeepsLive w s₃ (s₃.reclaimDeadInlinedRecordsAboveParent b e.key view.callerFunctionBase
        .atEnter e.uncaught) ↔
        DropSparesLive w (w.tracer.foundAboveParent e) (parentDead (w.tracer.foundAboveParent e) e.key
          w.tracer.stackBounds view.callerFunctionBase) := by
    intro s₀ hslot view
    obtain ⟨hframes, hbounds, -⟩ := enterReclaim_found (b := b) hslot
    simp only [reclaimDeadInlinedRecordsAboveParent_eq, keepsLive_popped, getThreadFp_frames,
      getThreadFp_stackBounds, hframes, hbounds]
  constructor
  · intro h hover hthrows
    obtain ⟨hcount, s₀, hslot⟩ := overflows_eq_false_iff.mp hover
    obtain ⟨hchain, hparents⟩ := h s₀ hcount hslot _ _ rfl
      ((reclaimOnEnter_eq_some hslot).mpr ⟨hthrows, rfl⟩)
    refine ⟨(hfirst s₀ hslot).mp hchain, fun view hview => (hsecond s₀ hslot view).mp ?_⟩
    obtain ⟨-, -, hstream, hresolved⟩ := loggedView_eq_some.mp hview
    refine hparents _ view (Prod.ext ?_ rfl) hresolved
    rw [getThreadFp_fst, (enterReclaim_found hslot).2.2, hstream]
  · rintro h s₀ hcount hslot s₁ s₂ rfl hs₂
    obtain ⟨hthrows, rfl⟩ := (reclaimOnEnter_eq_some hslot).mp hs₂
    have hover := overflows_eq_false_iff.mpr ⟨hcount, s₀, hslot⟩
    obtain ⟨hchain, hparents⟩ := h hover hthrows
    refine ⟨(hfirst s₀ hslot).mpr hchain, fun s₃ view hopen hresolved => ?_⟩
    obtain rfl : _ = s₃ := congrArg Prod.snd hopen
    refine (hsecond s₀ hslot view).mpr (hparents view ?_)
    refine loggedView_eq_some.mpr ⟨hover, hthrows, ?_, hresolved⟩
    rw [← (enterReclaim_found (b := b) hslot).2.2, ← getThreadFp_fst, hopen]

/-- What the function of a catch pops, as a count on the records it finds. -/
lemma inlineReclaimsSpareLive_caught {c : EventCall} :
    InlineReclaimsSpareLive b w (.caught c) ↔
      (b.logExceptions = true → c.named = true → c.atStub = false → ∀ chain, c.inlineChain = some chain →
        DropSparesLive w (w.tracer.foundOnCatch c) (inlinedDeadOnCatch (w.tracer.foundOnCatch c) c.level
          w.tracer.stackBounds chain)) := by
  have hkeeps : ∀ chain, KeepsLive w (w.tracer.catchLevelStep b c.level c.uncaught)
      ((w.tracer.catchLevelStep b c.level c.uncaught).popped b frameEndException
        (inlinedDeadOnCatch (w.tracer.foundOnCatch c) c.level w.tracer.stackBounds chain)) ↔
      DropSparesLive w (w.tracer.foundOnCatch c) (inlinedDeadOnCatch (w.tracer.foundOnCatch c) c.level
        w.tracer.stackBounds chain) := by
    intro chain
    rw [keepsLive_popped, catchLevelStep_eq]
    rfl
  have hfound : (w.tracer.catchLevelStep b c.level c.uncaught).frames = w.tracer.foundOnCatch c ∧
      (w.tracer.catchLevelStep b c.level c.uncaught).stackBounds = w.tracer.stackBounds := by
    rw [catchLevelStep_eq]
    exact ⟨rfl, rfl⟩
  constructor
  · intro h hexc hnamed hstub chain hchain
    rw [← hkeeps]
    refine h hexc hnamed hstub _ _ rfl ?_
    simp [reclaimDeadInlinedRecordsOnCatch_eq, hfound, hchain]
  · rintro h hexc hnamed hstub s₁ s₂ rfl hs₂
    rw [reclaimDeadInlinedRecordsOnCatch_eq, hfound.1, hfound.2] at hs₂
    split_ifs at hs₂
    obtain rfl := Option.some.inj hs₂
    rw [hkeeps]
    cases hchain : c.inlineChain with
    | none => exact dropSparesLive_zero w _
    | some chain => exact h hexc hnamed hstub chain hchain

lemma inlineReclaimsSpareLive_iff {a : Action} (h : NamedStack names w)
    (ha : InlineAction names bounds w a) : InlineReclaimsSpareLive b w a ↔ NamesLeadToLive b w a := by
  cases a with
  | call e site =>
    obtain ⟨hinto, hchain, -⟩ := ha
    have hnewest : NewestFirst (w.tracer.foundOnEnter e) := h.tracked.newest.drop _
    have hnewest' : NewestFirst (w.tracer.foundAboveParent e) := h.tracked.newest.drop _
    have hnamed : RecordsNamed names (w.tracer.foundOnEnter e) :=
      fun r hr => h.named r (List.mem_of_mem_drop hr)
    have hhead : ∀ f ∈ (e.inlineChain.getD []).head?, f = names e.key.callee := by
      intro f hf
      cases heq : e.inlineChain with
      | none => simp [heq] at hf
      | some chain =>
        rw [heq, Option.getD_some] at hf
        rcases hchain chain heq with rfl | rfl
        · simp at hf
        · obtain rfl : site.name = f := by simpa [inlineNames, Frame.plain] using hf
          exact hinto.name
    rw [inlineReclaimsSpareLive_call, dropSparesLive_inlinedDeadOnEnter hnewest hnamed hhead]
    simp only [dropSparesLive_parentDead hnewest']
    refine imp_congr_right fun hover => ?_
    cases hthrows : w.tracer.chainThrows e with
    | true =>
      have hnone : e.inlineChain = none := by
        simp only [ThreadState.chainThrows, Bool.and_eq_true, Option.isNone_iff_eq_none] at hthrows
        exact hthrows.2
      have hquiet : w.tracer.loggedView e = none := by simp [ThreadState.loggedView, hthrows]
      simp [hnone, hquiet]
    | false =>
      have hreads : (∀ chain, e.inlineChain = some chain →
          ChainSparesLive w (w.tracer.foundOnEnter e) e.key chain) ↔
          ChainSparesLive w (w.tracer.foundOnEnter e) e.key (e.inlineChain.getD []) := by
        cases e.inlineChain with
        | none => simp [ChainSparesLive]
        | some chain => simp
      rw [hreads]
      constructor
      · intro hspares hon
        exact ⟨(hspares rfl).1 hon, fun view hview => (hspares rfl).2 view hview hon⟩
      · intro hlead _
        exact ⟨fun hon => (hlead hon).1, fun view hview hon => (hlead hon).2 view hview⟩
  | caught c =>
    have hnewest : NewestFirst (w.tracer.foundOnCatch c) := h.tracked.newest.drop _
    rw [inlineReclaimsSpareLive_caught]
    simp only [dropSparesLive_inlinedDeadOnCatch hnewest]
    constructor
    · intro hspares hexc hnamed hstub hon chain hchain
      exact hspares hexc hnamed hstub chain hchain hon
    · intro hlead hexc hnamed hstub chain hchain hon
      exact hlead hexc hnamed hstub hon chain hchain
  | callPlain key site => exact Iff.rfl
  | leave x => exact Iff.rfl
  | leavePlain => exact Iff.rfl
  | jump n => exact Iff.rfl
  | thrown kind c => exact Iff.rfl
  | terminated reason c => exact Iff.rfl

/-- In every run with right debug information, the functions that go by inline chains spare the frames
being executed exactly when the base names lead to these, on the records each function finds. -/
theorem inline_reclaims_spare_live_iff (b : Build) (names : Addr → Text) (bounds : StackBounds)
    (earlier : Text) (actions : List Action)
    (hactions : AllSteps (World.act b) (InlineAction names bounds) (.fresh bounds earlier) actions) :
    AllSteps (World.act b) (InlineReclaimsSpareLive b) (.fresh bounds earlier) actions ↔
      AllSteps (World.act b) (NamesLeadToLive b) (.fresh bounds earlier) actions :=
  allSteps_iff_of_invariant (I := NamedStack names) (fun _ _ h ha _ => h.act ha)
    (fun _ _ h ha => inlineReclaimsSpareLive_iff h ha) (NamedStack.fresh bounds earlier) hactions

/-- `walk` calls `visit`, which has no hooks and is inlined into it, and `visit` calls `walk`, inlined as
well. -/
def walkThroughVisit : List Action :=
  [.call (.plain ⟨1, 10, 1000⟩ ["walk".toList] (.named "walk".toList none))
    ⟨2048, 1000, "walk".toList, false⟩,
   .callPlain ⟨2, 10, 1000⟩ ⟨900, 1000, "visit".toList, true⟩,
   .call (.plain ⟨1, 10, 1000⟩ ["walk".toList, "visit".toList, "walk".toList]
    (.named "walk".toList none)) ⟨900, 1000, "walk".toList, true⟩]

/-- The base names of `walkThroughVisit`. -/
def walkNames (callee : Addr) : Text := if callee = 1 then "walk".toList else "visit".toList

lemma walkThroughVisit_inline (b : Build) (earlier : Text) :
    AllSteps (World.act b) (InlineAction walkNames ⟨16, 4096, true⟩)
      (.fresh ⟨16, 4096, true⟩ earlier) walkThroughVisit := by
  refine ⟨⟨⟨rfl, ?_, ?_⟩, ?_, ?_⟩, ⟨rfl, ?_, ?_⟩, ⟨⟨rfl, ?_, ?_⟩, ?_, ?_⟩, trivial⟩
  all_goals
    simp [RunsBelow, World.liveAfter, World.fresh, Frame.hooked, Frame.plain, EnterCall.plain,
      EnterCall.key, inlineNames, callersOf, Resolution.named]

theorem inline_reclaims_spare_live_iff_visit :
    AllSteps (World.act ⟨false, false, false⟩) (InlineReclaimsSpareLive ⟨false, false, false⟩)
        (.fresh ⟨16, 4096, true⟩ []) walkThroughVisit ↔
      AllSteps (World.act ⟨false, false, false⟩) (NamesLeadToLive ⟨false, false, false⟩)
        (.fresh ⟨16, 4096, true⟩ []) walkThroughVisit :=
  inline_reclaims_spare_live_iff _ _ _ _ _ (walkThroughVisit_inline _ _)

/-- The inner `walk` takes the record of the outer one for its own, left behind by a jump. -/
theorem live_walk_reclaimed :
    AllSteps (World.act ⟨false, false, false⟩) (InlineAction walkNames ⟨16, 4096, true⟩)
        (.fresh ⟨16, 4096, true⟩ []) walkThroughVisit ∧
      ¬ AllSteps (World.act ⟨false, false, false⟩) (InlineReclaimsSpareLive ⟨false, false, false⟩)
        (.fresh ⟨16, 4096, true⟩ []) walkThroughVisit := by
  refine ⟨walkThroughVisit_inline _ _, ?_⟩
  rintro ⟨-, -, hwalk, -⟩
  have hspared := (hwalk _ rfl rfl _ _ rfl rfl).1
  exact absurd hspared (by decide)

end CallStackLogger
