import CallStackLogger.Program.Machine

/-!
# The level rules and the frames being executed

The stack pointer at a call lies between the level of the calling physical frame and the CFA of
the one the call makes, so levels fall from each physical frame to the next; frames of one
physical frame share level and caller. A level rule counts records from the top while their
levels lie below its own: it never counts the record of a frame that is being executed.
-/

namespace CallStackLogger

open Run

variable {b : Build} {w : World} {bounds : StackBounds} {key : FrameKey} {live : List Frame}

/-- None of the `n` records on top belongs to a frame that is being executed. -/
def SparesLive (w : World) (n : Nat) : Prop := ∀ r ∈ w.tracer.frames.take n, r ∉ w.records

/-! ### What the level rules count -/

section Counted

variable {frames : List FrameRecord} {r : FrameRecord}

/-- A record the level rule of an enter counts does not lie under the entering frame. -/
lemma not_liesOver_of_mem_take (hr : r ∈ frames.take (deadRecordsOnEnter frames key bounds)) :
    onThreadStack bounds key.level = true ∧ ¬ LiesOver key r.toFrameKey := by
  rw [deadRecordsOnEnter] at hr
  split_ifs at hr with hkey
  · refine ⟨hkey, fun hover => ?_⟩
    have hcounted := Scan.forall_mem_take_length_takeWhile hr
    simp only [Bool.and_eq_true, Bool.or_eq_true, deeper, reusedSlot, key_frameRecord,
      decide_eq_true_eq, beq_iff_eq, bne_iff_ne] at hcounted
    rcases hcounted.2 with hdeeper | ⟨hlevel, hother⟩
    · exact absurd hdeeper (Nat.not_lt.mpr hover.1)
    · exact hother (hover.2 hlevel.symm).symm
  · simp at hr

/-- A record the level rule of a catch counts was recorded under the catch level. -/
lemma lt_of_mem_take_catch {catchLevel : Addr}
    (hr : r ∈ frames.take (deadRecordsOnCatch frames catchLevel bounds)) :
    onThreadStack bounds catchLevel = true ∧ r.level < catchLevel := by
  rw [deadRecordsOnCatch] at hr
  split_ifs at hr with hcatch
  · have hcounted := Scan.forall_mem_take_length_takeWhile hr
    simp only [Bool.and_eq_true, key_frameRecord, decide_eq_true_eq] at hcounted
    exact ⟨hcatch, hcounted.2⟩
  · simp at hr

end Counted

/-! ### The order of the frames being executed -/

/-- Levels do not increase inwards, frames of one level have one caller, and a frame's record carries
its identity. -/
structure LiveOrdered (live : List Frame) : Prop where
  ordered : live.Pairwise fun upper lower => LiesOver upper.key lower.key
  record : ∀ f ∈ live, ∀ r ∈ f.record, r.toFrameKey = f.key

namespace LiveOrdered

variable {e : EnterCall} {site : CallSite}

lemma drop (h : LiveOrdered live) (n : Nat) : LiveOrdered (live.drop n) where
  ordered := List.Pairwise.sublist (List.drop_sublist n _) h.ordered
  record := fun f hf => h.record f (List.mem_of_mem_drop hf)

lemma cons {f : Frame} (h : LiveOrdered live) (hover : ∀ g ∈ live, LiesOver f.key g.key)
    (hrecord : ∀ r ∈ f.record, r.toFrameKey = f.key) : LiveOrdered (f :: live) where
  ordered := List.pairwise_cons.mpr ⟨hover, h.ordered⟩
  record := by
    intro g hg
    rcases List.mem_cons.mp hg with rfl | hrest
    · exact hrecord
    · exact h.record g hrest

lemma call (h : LiveOrdered w.live) (hover : ∀ g ∈ w.live, LiesOver e.key g.key) :
    LiveOrdered (w.act b (.call e site)).live := by
  rcases call_cases b w.tracer e site with ⟨-, -, -, hframe⟩ | ⟨r, -, hr, -, -, hframe⟩
  · simp only [World.act_live, World.liveAfter, hframe]
    exact h.cons hover (by simp)
  · simp only [World.act_live, World.liveAfter, hframe]
    refine h.cons hover fun r' hr' => ?_
    obtain rfl : r = r' := by simpa using hr'
    exact hr.key_eq

lemma act {a : Action} (h : LiveOrdered w.live)
    (hcall : ∀ e site, a = .call e site → ∀ g ∈ w.live, LiesOver e.key g.key)
    (hplain : ∀ key site, a = .callPlain key site → ∀ g ∈ w.live, LiesOver key g.key) :
    LiveOrdered (w.act b a).live := by
  by_cases ha : ∃ e site, a = .call e site
  · obtain ⟨e, site, rfl⟩ := ha
    exact h.call (hcall e site rfl)
  · by_cases ha' : ∃ key site, a = .callPlain key site
    · obtain ⟨key, site, rfl⟩ := ha'
      exact h.cons (hplain key site rfl) (by simp [Frame.plain])
    · obtain ⟨n, hn⟩ := liveAfter_drop (b := b) (w := w) (a := a)
        (fun e site heq => ha ⟨e, site, heq⟩) (fun key site heq => ha' ⟨key, site, heq⟩)
      rw [World.act_live, hn]
      exact h.drop n

/-- A live record lies under whatever runs over all live frames. -/
lemma liesOver_record (h : LiveOrdered w.live) (hover : ∀ g ∈ w.live, LiesOver key g.key) :
    ∀ r ∈ w.records, LiesOver key r.toFrameKey := by
  intro r hr
  obtain ⟨f, hf, hrecord⟩ := List.mem_filterMap.mp hr
  rw [h.record f hf r hrecord]
  exact hover f hf

/-- The level rule of an enter counts no record of a live frame. -/
lemma sparesLive_deadRecordsOnEnter (h : LiveOrdered w.live)
    (hover : ∀ g ∈ w.live, LiesOver key g.key) :
    SparesLive w (deadRecordsOnEnter w.tracer.frames key bounds) := by
  intro r hr hlive
  obtain ⟨-, hnot⟩ := not_liesOver_of_mem_take hr
  exact hnot (h.liesOver_record hover r hlive)

/-- The level rule of a catch counts no record of a live frame when all of these are at the catch
level or over it. -/
lemma sparesLive_deadRecordsOnCatch (h : LiveOrdered w.live) {catchLevel : Addr}
    (hover : ∀ g ∈ w.live, catchLevel ≤ g.key.level) :
    SparesLive w (deadRecordsOnCatch w.tracer.frames catchLevel bounds) := by
  intro r hr hlive
  obtain ⟨f, hf, hrecord⟩ := List.mem_filterMap.mp hlive
  have hle := hover f hf
  rw [← h.record f hf r hrecord] at hle
  exact absurd (lt_of_mem_take_catch hr).2 (Nat.not_lt.mpr hle)

/-- The innermost frame has the lowest level. -/
lemma head_le {f : Frame} (h : LiveOrdered live) (hf : f ∈ live.head?) :
    ∀ g ∈ live, f.key.level ≤ g.key.level := by
  cases live with
  | nil => simp at hf
  | cons head rest =>
    obtain rfl : head = f := by simpa using hf
    intro g hg
    rcases List.mem_cons.mp hg with rfl | hrest
    · exact Nat.le_refl _
    · exact ((List.pairwise_cons.mp h.ordered).1 g hrest).1

/-- What lies over the innermost frame lies over all of them. -/
lemma liesOver_of_head (h : LiveOrdered live) (hhead : ∀ f ∈ live.head?, LiesOver key f.key) :
    ∀ g ∈ live, LiesOver key g.key := by
  cases live with
  | nil => simp
  | cons head rest =>
    have hover := hhead head rfl
    intro g hg
    rcases List.mem_cons.mp hg with rfl | hrest
    · exact hover
    · have hnext := (List.pairwise_cons.mp h.ordered).1 g hrest
      refine ⟨Nat.le_trans hover.1 hnext.1, fun heq => ?_⟩
      have hlevel : key.level = head.key.level := Nat.le_antisymm hover.1 (heq ▸ hnext.1)
      rw [hover.2 hlevel, hnext.2 (hlevel ▸ heq)]

end LiveOrdered

/-! ### Levels between stack pointer and CFA -/

/-- A call is inlined into the physical frame of the innermost frame, or makes a physical frame of
its own under the stack pointer, which is under the recorded level of the caller's. -/
def CallsDown (live : List Frame) (key : FrameKey) (site : CallSite) : Prop :=
  match live with
  | []     => key.level ≤ site.cfa
  | f :: _ =>
    if site.inlined then
      key.level = f.key.level ∧ key.caller = f.key.caller ∧ site.cfa = f.site.cfa
    else site.cfa ≤ site.sp ∧ site.sp < f.key.level ∧ key.level ≤ site.cfa

/-- Calls go down the stack. -/
def PhysicalAction (w : World) : Action → Prop
  | .call e site        => CallsDown w.live e.key site
  | .callPlain key site => CallsDown w.live key site
  | _                   => True

/-- The level rules count no record of a live frame: at an enter, and at a catch that is given the
catcher's level while all levels are exact. -/
def LevelRulesSpareLive (w : World) : Action → Prop
  | .call e _ => SparesLive w (deadRecordsOnEnter w.tracer.frames e.key w.tracer.stackBounds)
  | .caught c => (∀ f ∈ w.live, f.key.level = f.site.cfa) →
      (∀ catcher ∈ w.live.head?, c.level = catcher.site.cfa) → w.live ≠ [] →
      SparesLive w (deadRecordsOnCatch w.tracer.frames c.level w.tracer.stackBounds)
  | _         => True

lemma CallsDown.liesOver {site : CallSite} (h : LiveOrdered live) (hcall : CallsDown live key site) :
    ∀ g ∈ live, LiesOver key g.key := by
  refine h.liesOver_of_head fun f hf => ?_
  cases live with
  | nil => simp at hf
  | cons head rest =>
    obtain rfl : head = f := by simpa using hf
    simp only [CallsDown] at hcall
    split_ifs at hcall
    · obtain ⟨hlevel, hcaller, -⟩ := hcall
      exact ⟨Nat.le_of_eq hlevel, fun _ => hcaller⟩
    · obtain ⟨hcfa, hsp, hlevel⟩ := hcall
      have hlt : key.level < head.key.level :=
        Nat.lt_of_le_of_lt (Nat.le_trans hlevel hcfa) hsp
      exact ⟨Nat.le_of_lt hlt, fun heq => absurd heq (Nat.ne_of_lt hlt)⟩

lemma levelRulesSpareLive {a : Action} (h : LiveOrdered w.live) (ha : PhysicalAction w a) :
    LevelRulesSpareLive w a := by
  cases a with
  | call e site => exact h.sparesLive_deadRecordsOnEnter (ha.liesOver h)
  | caught c =>
    intro hexact hcatcher hne
    refine h.sparesLive_deadRecordsOnCatch fun g hg => ?_
    obtain ⟨f, hf⟩ : ∃ f, f ∈ w.live.head? := ⟨w.live.head hne, List.head?_eq_some_head hne⟩
    rw [hcatcher f hf, ← hexact f (List.mem_of_mem_head? hf)]
    exact h.head_le hf g hg
  | callPlain key site => trivial
  | leave x => trivial
  | leavePlain => trivial
  | jump n => trivial
  | thrown kind c => trivial
  | terminated reason c => trivial

/-- In every run whose calls go down the stack, the level rules count no record of a frame that is
being executed. -/
theorem level_rules_spare_live (b : Build) (bounds : StackBounds) (earlier : Text)
    (actions : List Action)
    (hphysical : AllSteps (World.act b) PhysicalAction (.fresh bounds earlier) actions) :
    AllSteps (World.act b) LevelRulesSpareLive (.fresh bounds earlier) actions := by
  refine allSteps_of_invariant (I := fun w => LiveOrdered w.live) (fun w a h ha => ?_)
    (fun w a h ha => levelRulesSpareLive h ha) ⟨.nil, by simp [World.fresh]⟩ hphysical
  refine h.act ?_ ?_
  · rintro e site rfl
    exact CallsDown.liesOver h ha
  · rintro key site rfl
    exact CallsDown.liesOver h ha

/-- The rules spare the live frames through an inlined call, a call whose level is underestimated, an
exception that drops both, its catch and another call. -/
theorem level_rules_spare_live_retry :
    AllSteps (World.act ⟨true, true, false⟩) LevelRulesSpareLive (.fresh ⟨16, 4096, true⟩ [])
      [.call (.plain ⟨1, 10, 1024⟩ ["run".toList] .filtered) ⟨2048, 1024, "run".toList, false⟩,
       .call (.plain ⟨2, 10, 1024⟩ ["step".toList, "run".toList] .filtered)
        ⟨768, 1024, "step".toList, true⟩,
       .call (.plain ⟨3, 20, 704⟩ ["leaf".toList] .filtered) ⟨768, 768, "leaf".toList, false⟩,
       .jump 2,
       .caught (.plain 1024 ["run".toList]),
       .call (.plain ⟨3, 30, 768⟩ ["leaf".toList] .filtered) ⟨768, 768, "leaf".toList, false⟩,
       .leave (.plain ⟨3, 30, 768⟩ 31)] := by
  refine level_rules_spare_live _ _ _ _ ?_
  simp [PhysicalAction, CallsDown, World.liveAfter, Frame.hooked, World.fresh, EnterCall.plain,
    EnterCall.key]

end CallStackLogger
