import CallStackLogger.Program.Machine
import CallStackLogger.Trace.Depth

/-!
# Enter and exit pairing

In a properly nested run every exit hook acts on what its own enter left behind, whatever became
of the enters: `Paired` relates the frames being executed to the tracer, each by the state its
enter found, and a call adds one link of that chain which the exit takes off again.
-/

namespace CallStackLogger

open Run

variable {b : Build} {s s' : ThreadState} {w : World} {bounds : StackBounds}

/-! ### The push finds room -/

/-- The record stack never outgrows its capacity. -/
structure HasRoom (s : ThreadState) : Prop where
  fits : s.frames.length ≤ s.capacity
  fullPush : s.fullPush = false

lemma HasRoom.of_drop {n : Nat} (h : HasRoom s) (hframes : s'.frames = s.frames.drop n)
    (hcapacity : s'.capacity = s.capacity) (hfull : s'.fullPush = s.fullPush) : HasRoom s' := by
  refine ⟨?_, hfull.trans h.fullPush⟩
  rw [hframes, hcapacity, List.length_drop]
  exact Nat.le_trans (Nat.sub_le _ _) h.fits

lemma HasRoom.push (h : s.frames.length < s.capacity) (hfull : s.fullPush = false)
    (record : FrameRecord) : HasRoom (s.push record) where
  fits := h
  fullPush := by simp [ThreadState.push, hfull, h]

lemma HasRoom.enter {e : EnterCall} (h : HasRoom s) (hstep : EnterStep b e s s') : HasRoom s' := by
  cases hstep with
  | overflow hover => exact ⟨h.fits, h.fullPush⟩
  | @unlogged s₀ s₁ hover hslot hquiet hfp =>
    obtain ⟨capacity, rfl, hroom⟩ := reserveSlot_eq_some hslot
    have hlt := hroom h.fits
    have hs₁ : s₁.frames.length ≤ s.frames.length ∧ s₁.capacity = capacity ∧
        s₁.fullPush = s.fullPush := by
      rcases hfp with ⟨-, rfl⟩ | ⟨-, rfl⟩
      · rw [enterReclaim_eq]
        exact ⟨by simp, rfl, rfl⟩
      · obtain ⟨_, _, _, hframe, -⟩ := getThreadFp_frame
          (({ s with capacity := capacity } : ThreadState).enterReclaim b e) b e.threadFp
        rw [hframe, enterReclaim_eq]
        exact ⟨by simp, rfl, rfl⟩
    obtain ⟨hle, hcap, hfull⟩ := hs₁
    exact .push (hcap ▸ Nat.lt_of_le_of_lt hle hlt) (hfull.trans h.fullPush) _
  | @logged s₀ s₁ view hover hslot hview hopen hs₁ =>
    obtain ⟨capacity, rfl, hroom⟩ := reserveSlot_eq_some hslot
    have hlt := hroom h.fits
    obtain ⟨_, _, _, hframe, -⟩ := getThreadFp_frame
      (({ s with capacity := capacity } : ThreadState).enterReclaim b e) b e.threadFp
    rw [hframe, enterReclaim_eq, enterParentReclaim_eq] at hs₁
    have hle : (s₁.writeCall b e view).frames.length ≤ s.frames.length := by
      rw [hs₁]
      simp only [ThreadState.writeCall, ThreadState.appendLine, popped_frames, List.length_drop]
      omega
    have hcap : (s₁.writeCall b e view).capacity = capacity := by
      rw [hs₁]
      rfl
    have hfull : (s₁.writeCall b e view).fullPush = s.fullPush := by
      rw [hs₁]
      rfl
    exact .push (hcap ▸ Nat.lt_of_le_of_lt hle hlt) (hfull.trans h.fullPush) _

lemma HasRoom.exit {x : ExitCall} (h : HasRoom s) (hstep : ExitStep b x s s') : HasRoom s' := by
  obtain ⟨-, n, hframes⟩ := hstep.frames_eq
  cases hstep with
  | drained hover => exact ⟨h.fits, h.fullPush⟩
  | empty hover hempty => exact h
  | left hover hrec =>
    rw [leaveFrame_eq (s := s.popped b frameEndJump (s.aboveExiting x)) hrec] at hframes ⊢
    exact h.of_drop hframes rfl rfl

/-! ### The chain of entries -/

/-- The frames being executed and the tracer agree on every entry: a frame counted as overflow
raised the count, any other pushed its record, and both found the state the outer frames had left. -/
inductive Paired : List Frame → ThreadState → Prop where
  | nil {s : ThreadState} (hframes : s.frames = []) (hcount : s.frameOverflowCount = 0) : Paired [] s
  | counted {s : ThreadState} {f : Frame} {rest : List Frame} (hcounted : f.counted = true)
      (hrecord : f.record = none) (hframes : s.frames = f.before.frames)
      (hcount : s.frameOverflowCount = f.before.frameOverflowCount + 1) (hdepth : DepthExact f.before)
      (hrest : Paired rest f.before) : Paired (f :: rest) s
  | pushed {s : ThreadState} {f : Frame} {rest : List Frame} {r : FrameRecord}
      (hcounted : f.counted = false) (hrecord : f.record = some r) (hkey : r.toFrameKey = f.key)
      (hframes : s.frames = r :: f.before.frames) (hcount : s.frameOverflowCount = 0)
      (hbefore : f.before.frameOverflowCount = 0) (hdepth : DepthExact f.before)
      (hrest : Paired rest f.before) : Paired (f :: rest) s

/-- Overflow frames sit above all pushed ones, whose records are the record stack. -/
def Mirrors (live : List Frame) (s : ThreadState) : Prop :=
  ∃ overflowed pushed, live = overflowed ++ pushed ∧ (∀ f ∈ overflowed, f.counted = true) ∧
    (∀ f ∈ pushed, f.counted = false) ∧ s.frameOverflowCount = overflowed.length ∧
    pushed.map Frame.record = s.frames.map some

namespace Paired

variable {live : List Frame}

lemma mirrors (h : Paired live s) : Mirrors live s := by
  induction h with
  | nil hframes hcount => exact ⟨[], [], rfl, by simp, by simp, hcount, by simp [hframes]⟩
  | @counted s f rest hcounted hrecord hframes hcount hdepth hrest ih =>
    obtain ⟨overflowed, pushed, rfl, hover, hpushed, hlength, hrecords⟩ := ih
    refine ⟨f :: overflowed, pushed, rfl, ?_, hpushed, by rw [hcount, hlength]; rfl, by rw [hframes, hrecords]⟩
    intro g hg
    rcases List.mem_cons.mp hg with rfl | hover'
    · exact hcounted
    · exact hover g hover'
  | @pushed s f rest r hcounted hrecord hkey hframes hcount hbefore hdepth hrest ih =>
    obtain ⟨overflowed, pushed, rfl, hover, hpushed, hlength, hrecords⟩ := ih
    have hnone : overflowed = [] := List.length_eq_zero_iff.mp (hlength.symm.trans hbefore)
    subst hnone
    refine ⟨[], f :: pushed, rfl, by simp, ?_, hcount, ?_⟩
    · intro g hg
      rcases List.mem_cons.mp hg with rfl | hrest'
      · exact hcounted
      · exact hpushed g hrest'
    · rw [hframes, List.map_cons, List.map_cons, hrecord, hrecords]

/-- Every record on the stack is that of a frame being executed. -/
lemma exists_frame (h : Paired live s) :
    ∀ r ∈ s.frames, ∃ f ∈ live, f.record = some r ∧ f.key = r.toFrameKey := by
  induction h with
  | nil hframes hcount => simp [hframes]
  | @counted s f rest hcounted hrecord hframes hcount hdepth hrest ih =>
    intro r hr
    obtain ⟨g, hg, hkey⟩ := ih r (hframes ▸ hr)
    exact ⟨g, List.mem_cons_of_mem f hg, hkey⟩
  | @pushed s f rest r' hcounted hrecord hkey' hframes hcount hbefore hdepth hrest ih =>
    intro r hr
    rw [hframes] at hr
    rcases List.mem_cons.mp hr with rfl | hr
    · exact ⟨f, List.mem_cons_self, hrecord, hkey'.symm⟩
    · obtain ⟨g, hg, hkey⟩ := ih r hr
      exact ⟨g, List.mem_cons_of_mem f hg, hkey⟩

lemma of_eq (h : Paired live s) (hframes : s'.frames = s.frames)
    (hcount : s'.frameOverflowCount = s.frameOverflowCount) : Paired live s' := by
  cases h with
  | nil hframes' hcount' => exact .nil (hframes.trans hframes') (hcount.trans hcount')
  | counted hcounted hrecord hframes' hcount' hdepth hrest =>
    exact .counted hcounted hrecord (hframes.trans hframes') (hcount.trans hcount') hdepth hrest
  | pushed hcounted hrecord hkey hframes' hcount' hbefore hdepth hrest =>
    exact .pushed hcounted hrecord hkey (hframes.trans hframes') (hcount.trans hcount') hbefore hdepth
      hrest

end Paired

/-! ### Nothing is reclaimed -/

/-- Records that share the thread stack have different levels, the newer the lower. -/
def Separated (bounds : StackBounds) (records : List FrameRecord) : Prop :=
  records.Pairwise fun upper lower => onThreadStack bounds upper.level = true →
    onThreadStack bounds lower.level = true → upper.level < lower.level

lemma parentDead_eq_zero {records : List FrameRecord} (h : Separated bounds records) (key : FrameKey)
    (parentBase : Option Text) : parentDead records key bounds parentBase = 0 := by
  unfold parentDead
  split
  · rename_i base top rest
    split_ifs with hbase hguard
    · rfl
    · rfl
    · refine deadRecordsAboveMatch_eq_zero (ρ := FrameRecord) (fun r hr heq => ?_) _
      have hon : onThreadStack bounds top.level = true := by
        simp only [Bool.or_eq_true, not_or] at hguard
        simpa using hguard.1.2
      have hlt := (List.pairwise_cons.mp h).1 r (List.mem_of_mem_head? hr) hon
        (by rw [show r.level = top.level from heq]; exact hon)
      exact absurd heq (Nat.ne_of_gt hlt)
  · rfl

/-- A frame that runs below everything it shares the stack with reclaims nothing. -/
lemma enterDead_eq_zero {e : EnterCall} (h : Separated s.stackBounds s.frames)
    (hbelow : ∀ r ∈ s.frames, onThreadStack s.stackBounds e.level = true →
      onThreadStack s.stackBounds r.level = true → e.level < r.level) : s.enterDead e = 0 := by
  have hdead : s.deadOnEnter e = 0 :=
    deadOnEnter_eq_zero fun r hr => hbelow r (List.mem_of_mem_head? hr)
  rw [ThreadState.enterDead]
  split_ifs
  · rfl
  · rw [hdead, List.drop_zero]
    cases s.loggedView e with
    | none => rfl
    | some view => exact (Nat.zero_add _).trans (parentDead_eq_zero h e.key _)

/-- A level off the thread stack does not lie between two levels on it. -/
lemma le_of_offThreadStack {own level p : Addr} (hown : onThreadStack bounds own = true)
    (hlevel : onThreadStack bounds level = true) (hp : onThreadStack bounds p ≠ true) (hlt : p < level) :
    p ≤ own := by
  simp only [onThreadStack, Bool.or_eq_true, Bool.not_eq_true', Bool.and_eq_true,
    decide_eq_true_eq] at hown hlevel hp
  grind

/-! ### Properly nested runs -/

/-- Calls that run out of line, and exits of the innermost frame. -/
def NestedAction (bounds : StackBounds) (w : World) : Action → Prop
  | .call e site => site.inlined = false ∧ RunsBelow bounds e.key w.live
  | .leave x     => ∃ own outer, w.live = own :: outer ∧ ExitsFrom bounds own outer x
  | _            => False

/-- The state of a properly nested run. -/
structure Nested (bounds : StackBounds) (w : World) : Prop where
  bounds_eq : w.tracer.stackBounds = bounds
  paired : Paired w.live w.tracer
  separated : Separated bounds w.tracer.frames
  depth : DepthExact w.tracer
  room : HasRoom w.tracer

/-- An enter reclaims nothing. An exit drains the count when its own frame was counted, and pops its
own frame's record with nothing above it otherwise; either way it restores what its enter found. -/
def ActsOnOwnEntry (b : Build) (w : World) (a : Action) : Prop :=
  match a with
  | .call _ _ => w.tracer.frames <:+ (w.act b a).tracer.frames
  | .leave x  => ∀ own ∈ w.live.head?,
      (own.counted = true → 0 < w.tracer.frameOverflowCount ∧ (w.act b a).tracer =
        { w.tracer with frameOverflowCount := w.tracer.frameOverflowCount - 1 }) ∧
      (own.counted = false → w.tracer.frameOverflowCount = 0 ∧ w.tracer.aboveExiting x = 0 ∧
        ∃ r, own.record = some r ∧ w.tracer.frames = r :: (w.act b a).tracer.frames) ∧
      (w.act b a).tracer.frames = own.before.frames ∧
      (w.act b a).tracer.frameOverflowCount = own.before.frameOverflowCount ∧
      (w.act b a).tracer.currentStackDepth = own.before.currentStackDepth
  | _         => True

/-- What a properly nested run is like at every step. -/
structure PairsByStructure (b : Build) (w : World) (a : Action) : Prop where
  ownEntry : ActsOnOwnEntry b w a
  mirrors : Mirrors (w.act b a).live (w.act b a).tracer
  fullPush : (w.act b a).tracer.fullPush = false

lemma depth_eq_of_frames_eq (h : DepthExact s) (h' : DepthExact s') (hframes : s'.frames = s.frames) :
    s'.currentStackDepth = s.currentStackDepth := by
  have hdepth := h.depth
  have hdepth' := h'.depth
  rw [hframes] at hdepth'
  omega

namespace Nested

variable {e : EnterCall} {site : CallSite} {x : ExitCall} {own : Frame} {outer : List Frame}

lemma enterDead_eq_zero (h : Nested bounds w) (hbelow : RunsBelow bounds e.key w.live) :
    w.tracer.enterDead e = 0 := by
  refine CallStackLogger.enterDead_eq_zero (h.bounds_eq ▸ h.separated) fun r hr hkey hon => ?_
  obtain ⟨f, hf, -, hfkey⟩ := h.paired.exists_frame r hr
  have hlt := hbelow f hf (h.bounds_eq ▸ hkey) (by rw [hfkey, ← h.bounds_eq]; exact hon)
  rwa [hfkey] at hlt

lemma call (h : Nested bounds w) (hbelow : RunsBelow bounds e.key w.live) :
    Nested bounds (w.act b (.call e site)) := by
  have hdead := h.enterDead_eq_zero hbelow
  have hroom : HasRoom (hookStep b w.tracer (.enter e)) :=
    ⟨(h.room.enter (enterStep b e w.tracer)).fits, (h.room.enter (enterStep b e w.tracer)).fullPush⟩
  refine ⟨(watch_stackBounds b _ _).trans h.bounds_eq, ?_, ?_, h.depth.step (.enter e), hroom⟩
  · rcases call_cases b w.tracer e site with
      ⟨hover, hframes, hcount, hframe⟩ | ⟨r, hover, hr, hframes, hcount, hframe⟩
    · simp only [World.act_live, World.liveAfter, hframe]
      exact .counted rfl rfl hframes hcount h.depth h.paired
    · have hzero : w.tracer.frameOverflowCount = 0 := by
        simp only [ThreadState.overflows, Bool.or_eq_false_iff, decide_eq_false_iff_not] at hover
        omega
      simp only [World.act_live, World.liveAfter, hframe]
      rw [hdead, List.drop_zero] at hframes
      exact .pushed rfl rfl hr.key_eq hframes (hcount.trans hzero) hzero h.depth h.paired
  · rw [World.act_tracer]
    rcases call_cases b w.tracer e site with ⟨-, hframes, -⟩ | ⟨r, -, hr, hframes, -⟩
    · rw [hframes]
      exact h.separated
    · rw [hframes, hdead, List.drop_zero]
      refine List.pairwise_cons.mpr ⟨fun lower hlower hon hlow => ?_, h.separated⟩
      obtain ⟨f, hf, -, hfkey⟩ := h.paired.exists_frame lower hlower
      have hlt := hbelow f hf (by rw [← hr.key_eq]; exact hon) (by rw [hfkey]; exact hlow)
      rwa [← hr.key_eq, hfkey] at hlt

/-- The exit of a frame that pushed its record finds that record on top. -/
lemma aboveExiting_eq_zero {r : FrameRecord} {below : List FrameRecord} (h : Nested bounds w)
    (hframes : w.tracer.frames = r :: below) (hkey : r.toFrameKey = own.key)
    (hbelow : ∀ q ∈ below, ∃ f ∈ outer, f.record = some q ∧ f.key = q.toFrameKey)
    (hx : ExitsFrom bounds own outer x) :
    w.tracer.aboveExiting x = 0 := by
  have hlevel : r.level = own.key.level := congrArg FrameKey.level hkey
  have hsite : sameActivationSite r x.key = true := by
    simp only [sameActivationSite, key_frameRecord, hkey, ExitCall.key, hx.callee_eq, hx.caller_eq,
      beq_self_eq_true, Bool.and_self]
  rw [aboveExiting_eq (by simp [hframes]), hframes, h.bounds_eq]
  refine deadAtExit_top hsite ?_ ?_
  · intro hown hon
    cases htail : x.tailCalled with
    | false => exact hlevel.trans (hx.called htail).symm
    | true =>
      have hlt := (hx.tailCalled htail (hlevel ▸ hown) hon).1
      rwa [← hlevel] at hlt
  · intro htail hown hon q hq hlt
    obtain ⟨f, hf, hrecord, hfkey⟩ := hbelow q ((List.takeWhile_prefix _).subset hq)
    by_cases hoff : onThreadStack bounds q.level = true
    · have hle := (hx.tailCalled htail (hlevel ▸ hown) hon).2 f hf (by simp [hrecord])
        (by rw [hfkey]; exact hoff)
      rw [hfkey] at hle
      exact absurd hlt (Nat.not_lt.mpr hle)
    · exact le_of_offThreadStack hown hon hoff hlt

/-- What the exit hook makes of the tracer, by what became of the frame's enter. -/
lemma leave_cases (h : Nested bounds w) (hlive : w.live = own :: outer)
    (hx : ExitsFrom bounds own outer x) :
    ((own.counted = true ∧ 0 < w.tracer.frameOverflowCount ∧ hookStep b w.tracer (.exit x) =
        { w.tracer with frameOverflowCount := w.tracer.frameOverflowCount - 1 }) ∨
      (own.counted = false ∧ w.tracer.frameOverflowCount = 0 ∧ w.tracer.aboveExiting x = 0 ∧
        ∃ r, own.record = some r ∧ w.tracer.frames = r :: (hookStep b w.tracer (.exit x)).frames)) ∧
    (hookStep b w.tracer (.exit x)).frames = own.before.frames ∧
    (hookStep b w.tracer (.exit x)).frameOverflowCount = own.before.frameOverflowCount ∧
    Paired outer own.before ∧ DepthExact own.before := by
  have hpaired := h.paired
  have hstep : ExitStep b x w.tracer (hookStep b w.tracer (.exit x)) := exitStep b x w.tracer
  generalize hookStep b w.tracer (.exit x) = s' at hstep ⊢
  rw [hlive] at hpaired
  cases hpaired with
  | counted hcounted hrecord hframes hcount hdepth hrest =>
    cases hstep with
    | drained hover =>
      exact ⟨.inl ⟨hcounted, hover, rfl⟩, hframes, by simp [hcount], hrest, hdepth⟩
    | empty hover hempty => omega
    | left hover hrec => omega
  | @pushed _ _ _ r hcounted hrecord hkey hframes hcount hbefore hdepth hrest =>
    have habove := h.aboveExiting_eq_zero hframes hkey hrest.exists_frame hx
    cases hstep with
    | drained hover => omega
    | empty hover hempty => exact absurd (hframes.symm.trans hempty) (by simp)
    | @left record rest hover hrec =>
      rw [leaveFrame_eq (s := w.tracer.popped b frameEndJump (w.tracer.aboveExiting x)) hrec]
      rw [habove, List.drop_zero, hframes] at hrec
      obtain ⟨rfl, rfl⟩ := List.cons.inj hrec
      exact ⟨.inr ⟨hcounted, hcount, habove, r, hrecord, hframes⟩, rfl, hcount.trans hbefore.symm, hrest,
        hdepth⟩

lemma leave (h : Nested bounds w) (hlive : w.live = own :: outer) (hx : ExitsFrom bounds own outer x) :
    Nested bounds (w.act b (.leave x)) := by
  obtain ⟨-, hframes, hcount, hpaired, -⟩ := h.leave_cases (b := b) hlive hx
  obtain ⟨-, n, hdrop⟩ := (exitStep b x w.tracer).frames_eq
  have hdrop' : (w.act b (.leave x)).tracer.frames = w.tracer.frames.drop n := hdrop
  refine ⟨(watch_stackBounds b _ _).trans h.bounds_eq, ?_, ?_, h.depth.step (.exit x),
    h.room.exit (exitStep b x w.tracer)⟩
  · simp only [World.act_live, World.liveAfter, hlive, List.tail_cons]
    exact hpaired.of_eq hframes hcount
  · rw [hdrop']
    exact List.Pairwise.sublist (List.drop_sublist n _) h.separated

lemma act {a : Action} (h : Nested bounds w) (ha : NestedAction bounds w a) :
    Nested bounds (w.act b a) := by
  cases a with
  | call e site => exact h.call ha.2
  | leave x =>
    obtain ⟨own, outer, hlive, hx⟩ := ha
    exact h.leave hlive hx
  | callPlain _ _ => exact ha.elim
  | leavePlain => exact ha.elim
  | jump _ => exact ha.elim
  | thrown _ _ => exact ha.elim
  | caught _ => exact ha.elim
  | terminated _ _ => exact ha.elim

lemma actsOnOwnEntry {a : Action} (h : Nested bounds w) (ha : NestedAction bounds w a) :
    ActsOnOwnEntry b w a := by
  cases a with
  | call e site =>
    simp only [ActsOnOwnEntry, World.act_tracer]
    rcases call_cases b w.tracer e site with ⟨-, hframes, -⟩ | ⟨r, -, -, hframes, -⟩
    · rw [hframes]
    · rw [hframes, h.enterDead_eq_zero ha.2]
      exact List.suffix_cons _ _
  | leave x =>
    obtain ⟨own, outer, hlive, hx⟩ := ha
    obtain ⟨hcases, hframes, hcount, -, hdepth⟩ := h.leave_cases (b := b) hlive hx
    intro f hf
    obtain rfl : own = f := by simpa [hlive] using hf
    refine ⟨fun hcounted => ?_, fun hcounted => ?_, hframes, hcount, ?_⟩
    · rcases hcases with ⟨-, hover, hstep⟩ | ⟨hpushed, -⟩
      · exact ⟨hover, hstep⟩
      · exact absurd (hcounted.symm.trans hpushed) (by simp)
    · rcases hcases with ⟨hover, -⟩ | ⟨-, hzero, habove, hrecord⟩
      · exact absurd (hover.symm.trans hcounted) (by simp)
      · exact ⟨hzero, habove, hrecord⟩
    · exact depth_eq_of_frames_eq hdepth (h.depth.step (.exit x)) hframes
  | callPlain _ _ => trivial
  | leavePlain => trivial
  | jump _ => trivial
  | thrown _ _ => trivial
  | caught _ => trivial
  | terminated _ _ => trivial

lemma fresh (bounds : StackBounds) (earlier : Text) : Nested bounds (.fresh bounds earlier) where
  bounds_eq := rfl
  paired := .nil rfl rfl
  separated := .nil
  depth := depthExact_fresh bounds earlier
  room := ⟨Nat.le_refl 0, rfl⟩

end Nested

/-- In every properly nested run, whatever each enter meets, the exits act on their own frames'
entries and restore what the enters found. -/
theorem pairing_by_call_structure (b : Build) (bounds : StackBounds) (earlier : Text)
    (actions : List Action)
    (hnested : AllSteps (World.act b) (NestedAction bounds) (.fresh bounds earlier) actions) :
    AllSteps (World.act b) (PairsByStructure b) (.fresh bounds earlier) actions := by
  refine allSteps_of_invariant (I := Nested bounds) (fun w a h ha => h.act ha) (fun w a h ha => ?_)
    (Nested.fresh bounds earlier) hnested
  have hnext : Nested bounds (w.act b a) := h.act ha
  exact ⟨h.actsOnOwnEntry ha, hnext.paired.mirrors, hnext.room.fullPush⟩

/-- The pairing holds while growing the stack fails, names are filtered and an exit is tail-called. -/
theorem pairing_by_call_structure_mixed :
    AllSteps (World.act ⟨true, true, false⟩) (PairsByStructure ⟨true, true, false⟩)
      (.fresh ⟨16, 4096, true⟩ [])
      [.call { EnterCall.plain ⟨1, 10, 1024⟩ [] .filtered with reserved := false }
        ⟨2048, 1024, "run".toList, false⟩,
       .call (.plain ⟨2, 20, 512⟩ [] (.named "step".toList none)) ⟨512, 512, "step".toList, false⟩,
       .leave (.plain ⟨2, 20, 512⟩ 21),
       .leave (.plain ⟨1, 10, 1024⟩ 11),
       .call (.plain ⟨1, 10, 1024⟩ [] (.named "run".toList none)) ⟨2048, 1024, "run".toList, false⟩,
       .call (.plain ⟨2, 20, 512⟩ [] .filtered) ⟨512, 512, "step".toList, false⟩,
       .leave (.plain ⟨2, 20, 1024⟩ 20),
       .leave (.plain ⟨1, 10, 1024⟩ 11)] := by
  have outermost {key : FrameKey} : RunsBelow ⟨16, 4096, true⟩ key [] := by simp [RunsBelow]
  have inner {f : Frame} (hf : f.key = ⟨1, 10, 1024⟩) : RunsBelow ⟨16, 4096, true⟩ ⟨2, 20, 512⟩ [f] := by
    simp [RunsBelow, hf]
  refine pairing_by_call_structure _ _ _ _ ⟨⟨rfl, outermost⟩, ⟨rfl, inner rfl⟩, ?_, ?_, ⟨rfl, outermost⟩,
    ⟨rfl, inner rfl⟩, ?_, ?_, trivial⟩
  · exact ⟨_, _, rfl, isHooked_hooked .., rfl, rfl, fun _ => rfl, fun htail => absurd htail (by decide)⟩
  · exact ⟨_, _, rfl, isHooked_hooked .., rfl, rfl, fun _ => rfl, fun htail => absurd htail (by decide)⟩
  · refine ⟨_, _, rfl, isHooked_hooked .., rfl, rfl, fun htail => absurd htail (by decide),
      fun _ _ _ => ⟨by decide, ?_⟩⟩
    intro f hf _ _
    rw [List.mem_singleton.mp hf]
    exact Nat.le_refl 1024
  · exact ⟨_, _, rfl, isHooked_hooked .., rfl, rfl, fun _ => rfl, fun htail => absurd htail (by decide)⟩

end CallStackLogger
