import CallStackLogger.Core.CText
import CallStackLogger.Format.DurationField
import CallStackLogger.Format.Sanitize
import CallStackLogger.Program.Listing

/-!
# Reading a trace file

Every process appends to the file of its thread: a header behind an empty line, and the listing of the calls. A
reader that parts the file at the empty lines and takes the depth of a line from its tree finds the runs again, each
with its time, its thread and the tree of its calls, as long as no name looks like a line or a tree.
-/

namespace CallStackLogger

open Run

variable {b : Build} {s : ThreadState} {w : World} {bounds : StackBounds}

/-! ### Names that can be read -/

/-- A text behind a tree of the given depth: it neither ends the line nor prolongs the tree, and where there is no
tree it does not hold one. -/
structure PlainText (depth : Nat) (text : Text) : Prop where
  newline : '\n' ∉ text
  treeless : isTreeElement text = false
  flat : depth = 0 → TreeFree text []

lemma isTreeElement_take {text : Text} (h : isTreeElement text = false) (n : Nat) :
    isTreeElement (text.take n) = false := by
  match text, n with
  | [], _                          => simp [isTreeElement]
  | _ :: _, 0                      => rfl
  | [_], _ + 1                     => simp [isTreeElement]
  | _ :: _ :: _, 1                 => rfl
  | [_, _], _ + 2                  => simp [isTreeElement]
  | _ :: _ :: _ :: _, 2            => rfl
  | c :: d :: e :: text', n + 3    => exact h

/-- A text that is cut is as plain. -/
lemma PlainText.take {depth : Nat} {text : Text} (h : PlainText depth text) (n : Nat) :
    PlainText depth (text.take n) where
  newline := fun hmem => h.newline (List.mem_of_mem_take hmem)
  treeless := isTreeElement_take h.treeless n
  flat := by
    rintro hdepth front hne ⟨before, hbefore⟩
    have hcut : front = (text.drop before.length).take (n - before.length) := by
      rw [← List.drop_take, ← hbefore, List.drop_left]
    have hbehind : text.drop before.length ≠ [] := by
      intro hnil
      rw [hcut, hnil, List.take_nil] at hne
      exact hne rfl
    have hwhole := h.flat hdepth (text.drop before.length) hbehind (List.drop_suffix _ _)
    rw [List.append_nil] at hwhole ⊢
    rw [hcut]
    exact isTreeElement_take hwhole _

lemma PlainText.shown {depth : Nat} {text : Text} (h : PlainText depth text) (used : Nat) :
    PlainText depth (shownText used text) := by
  rw [shownText]
  split_ifs
  · exact h.take _
  · have hcut := h.take 0
    rwa [List.take_zero] at hcut

/-! ### Columns -/

/-- What no column has apart from its mark. -/
def inColumn (c : Char) : Bool := Entry.quiet c && c != '_'

lemma inColumn_of_isDigit {c : Char} (h : c.isDigit = true) : inColumn c = true := by
  have hne : ∀ {d : Char}, d.isDigit = false → c ≠ d := by
    rintro d hd rfl
    exact absurd (h.symm.trans hd) (by decide)
  have hbar : c ≠ '|' := hne (by decide)
  have hmark : c ≠ '!' := hne (by decide)
  have hjump : c ≠ '~' := hne (by decide)
  have hnewline : c ≠ '\n' := hne (by decide)
  have hline : c ≠ '_' := hne (by decide)
  simp [inColumn, Entry.quiet, opensElement, hbar, hmark, hjump, hnewline, hline]

lemma all_inColumn_padLeft {pad : Char} (hpad : inColumn pad = true) (width n : Nat) :
    (padLeft width pad n).all inColumn = true := by
  refine List.all_eq_true.mpr fun c hc => ?_
  rcases List.mem_append.mp hc with hmem | hmem
  · rw [List.eq_of_mem_replicate hmem]
    exact hpad
  · exact inColumn_of_isDigit (isDigit_of_mem_decimal hmem)

/-- Nothing in a duration ends a line or belongs to a tree. -/
lemma all_inColumn_formatDuration (ns : Nat) : (formatDuration12chars ns).all inColumn = true := by
  have hsaturation : durationSaturation.all inColumn = true := by decide
  cases hparts : durationParts ns with
  | none => rwa [formatDuration12chars_of_none hparts]
  | some p =>
    have hpads : inColumn ' ' = true ∧ inColumn '0' = true := by decide
    have hunit : p.unit.text.all inColumn = true := by cases p.unit <;> decide
    have hends : inColumn '[' = true ∧ inColumn '.' = true ∧ inColumn ']' = true := by decide
    rw [formatDuration12chars_of_parts hparts, DurationParts.text, durationText]
    simp [all_inColumn_padLeft hpads.1, all_inColumn_padLeft hpads.2, hunit, hends]

/-- A column whose second character was set can be read back, whatever it was set to but a bar. -/
lemma isColumn_of_all {mark c : Char} {rest : Text} (hlength : (c :: mark :: rest).length = durationFieldWidth)
    (hopen : c = '[') (hrest : rest.all inColumn = true) (hmark : mark ≠ '\n' ∧ mark ≠ '|') :
    Entry.IsColumn (c :: mark :: rest) := by
  have hquiet : ∀ d ∈ rest, Entry.quiet d = true ∧ d ≠ '_' := by
    intro d hd
    simpa [inColumn] using List.all_eq_true.mp hrest d hd
  have hall : rest.all Entry.quiet = true := List.all_eq_true.mpr fun d hd => (hquiet d hd).1
  exact ⟨hlength, mark, rest, by rw [hopen], hall,
    .inr ⟨hmark.1, hmark.2, fun d hd => (hquiet d (List.mem_of_mem_head? hd)).2⟩⟩

/-- The column of a call that has left can be read back. -/
lemma isColumn_durationColumn (b : Build) (e : EnterCall) (x : ExitCall) :
    Entry.IsColumn (durationColumn b e x) := by
  have hlength := length_durationColumn b e x
  have hcolumn := all_inColumn_formatDuration (x.time - e.time).toNat
  obtain ⟨rest, hfield⟩ := formatDuration_head (x.time - e.time).toNat
  rw [durationColumn, hfield] at hlength ⊢
  rw [hfield, List.all_cons, List.all_cons, Bool.and_eq_true, Bool.and_eq_true] at hcolumn
  split_ifs at hlength ⊢
  · exact isColumn_of_all hlength rfl hcolumn.2.2 (by decide)
  · exact isColumn_of_all hlength rfl hcolumn.2.2 (by decide)

/-! ### Calls and events that can be read -/

/-- The time of a call and the names its line shows. -/
structure ReadableCall (depth : Nat) (e : EnterCall) (view : ResolvedFrameView) : Prop where
  stamp : e.timestamp.text.all Entry.quiet = true
  text : PlainText depth (calleePiece view)

lemma legible_callEntry {depth : Nat} {e : EnterCall} {view : ResolvedFrameView} {column : Text} {ending : Ending}
    (h : ReadableCall depth e view) (hcolumn : Entry.IsColumn column) (hending : ending ≠ .returned → 1 ≤ depth) :
    Entry.Legible b depth (callEntry b depth e view column ending) := by
  have hshown := h.text.shown (b.prefixWidth + treeSegmentWidth * depth)
  refine ⟨⟨e.timestamp.length_text, h.stamp⟩, ⟨?_, ?_⟩, ?_, ?_, ?_, ⟨hshown.newline, hshown.treeless⟩, hshown.flat⟩
  · cases helapsed : b.logElapsed <;> simp [callEntry, helapsed]
  · intro column' hcolumn'
    cases helapsed : b.logElapsed with
    | false => simp [callEntry, helapsed] at hcolumn'
    | true =>
      obtain rfl : column = column' := by simpa [callEntry, helapsed] using hcolumn'
      exact hcolumn
  · intro digits hdigits
    cases haddr : b.logAddr with
    | false => simp [callEntry, haddr] at hdigits
    | true =>
      obtain rfl : hexDigits e.callee = digits := by simpa [callEntry, haddr] using hdigits
      exact ⟨rfl, _, rfl⟩
  · intro last _
    cases haddr : b.logAddr <;> simp [callEntry, haddr]
  · intro hkind
    exact hending fun hreturned => hkind (congrArg EntryKind.call hreturned)

/-- The line of a call that has left can be read, and so can that of a call that has not. -/
lemma legible_leftEntry {depth : Nat} {e : EnterCall} {view : ResolvedFrameView} (x : ExitCall)
    (h : ReadableCall depth e view) : Entry.Legible b depth (leftEntry b depth e view x) := by
  refine legible_callEntry h (isColumn_durationColumn b e x) fun hending => ?_
  by_contra hflat
  exact hending (by simp [shownEnding, hflat])

lemma legible_pendingEntry {depth : Nat} {e : EnterCall} {view : ResolvedFrameView} (h : ReadableCall depth e view) :
    Entry.Legible b depth (callEntry b depth e view durationPlaceholder .returned) :=
  legible_callEntry h (isColumn_of_all rfl rfl (by decide) (by decide)) fun hending => absurd rfl hending

/-- The texts an event line is made of end no line. -/
structure EventText.OneLine (t : EventText) : Prop where
  typeName : '\n' ∉ t.typeName
  what : ∀ what ∈ t.what, '\n' ∉ what
  file : ∀ file ∈ t.site.callerFilename, '\n' ∉ file

/-- The words of an event line. -/
structure EventText.Worded (t : EventText) : Prop where
  verb : t.verb ≠ [] ∧ t.verb.all Entry.quiet = true
  siteLabel : t.siteLabel.all Entry.quiet = true
  suffix : t.suffix.all Entry.quiet = true
  column : Entry.IsColumn t.columnWord

lemma worded_text {ev : ExceptionEvent} {t : EventText} (h : ev.text = some t) : t.Worded := by
  have hlabel : "thrown at".toList.all Entry.quiet = true := by decide
  have hagain : "rethrown at".toList.all Entry.quiet = true := by decide
  rw [ExceptionEvent.text] at h
  cases hsite : ev.call.site with
  | none => simp [hsite] at h
  | some site =>
    cases htype : exceptionTypeName ev.call.type ev.call.demangled with
    | none => simp [hsite, htype] at h
    | some typeName =>
      rw [hsite, htype] at h
      cases ev with
      | thrown kind c =>
        have hthrow : "throw".toList ≠ [] ∧ "throw".toList.all Entry.quiet = true := by decide
        have hrethrow : "rethrow".toList ≠ [] ∧ "rethrow".toList.all Entry.quiet = true := by decide
        have hvia : " via std::rethrow_exception".toList.all Entry.quiet = true := by decide
        have hcolumn : Entry.IsColumn durationEventThrow := isColumn_of_all rfl rfl (by decide) (by decide)
        have hcolumn' : Entry.IsColumn durationEventRethrow := isColumn_of_all rfl rfl (by decide) (by decide)
        obtain rfl := Option.some.inj h
        cases kind with
        | primary => exact ⟨hthrow, hlabel, rfl, hcolumn⟩
        | rethrow => exact ⟨hrethrow, hagain, rfl, hcolumn'⟩
        | exceptionPtr => exact ⟨hrethrow, hagain, hvia, hcolumn'⟩
      | caught c =>
        have hcatch : "catch".toList ≠ [] ∧ "catch".toList.all Entry.quiet = true := by decide
        have hat : "caught at".toList.all Entry.quiet = true := by decide
        obtain rfl := Option.some.inj h
        exact ⟨hcatch, hat, rfl, isColumn_of_all rfl rfl (by decide) (by decide)⟩
      | terminated reason c =>
        have hterminate : "terminate".toList ≠ [] ∧ "terminate".toList.all Entry.quiet = true := by decide
        have hreason : (terminateLabel reason).all Entry.quiet = true := by cases reason <;> decide
        obtain rfl := Option.some.inj h
        exact ⟨hterminate, hreason, rfl, isColumn_of_all rfl rfl (by decide) (by decide)⟩

/-- An event whose texts hold no newline is shown as a plain text. -/
lemma plainText_piece {t : EventText} {depth : Nat} (hwords : t.Worded) (h : t.OneLine) (hdepth : 1 ≤ depth) :
    PlainText depth (t.event b depth).piece where
  newline := by
    have hquiet : ∀ {u : Text}, u.all Entry.quiet = true → '\n' ∉ u :=
      fun hu hmem => absurd (List.all_eq_true.mp hu _ hmem) (by decide)
    have hdigits : ∀ n, '\n' ∉ decimal n := fun n hmem => controlFree_decimal n _ hmem (by decide)
    have hsite : '\n' ∉ (t.event b depth).sitePiece := by
      rw [EventLine.sitePiece]
      cases hfile : t.site.callerFilename with
      | none => simp [EventText.event, hfile, hquiet hwords.siteLabel, hquiet hwords.suffix]
      | some file =>
        have hname : '\n' ∉ cStr file := fun hmem => h.file file hfile ((List.takeWhile_prefix _).subset hmem)
        cases hline : t.site.callerLineNumber <;>
          simp [EventText.event, hfile, hline, hquiet hwords.siteLabel, hquiet hwords.suffix, hname, hdigits]
    cases hw : t.what with
    | none =>
      have hnone : (t.event b depth).what = none := hw
      simp only [EventLine.piece, hnone, List.mem_append, not_or]
      exact ⟨⟨⟨⟨⟨⟨hquiet hwords.verb.2, by decide⟩, h.typeName⟩, List.not_mem_nil⟩, by decide⟩, hsite⟩, by decide⟩
    | some what =>
      have hsome : (t.event b depth).what = some what := hw
      simp only [EventLine.piece, hsome, List.mem_append, not_or]
      exact ⟨⟨⟨⟨⟨⟨hquiet hwords.verb.2, by decide⟩, h.typeName⟩, ⟨by decide, h.what what hw⟩, by decide⟩, by decide⟩,
        hsite⟩, by decide⟩
  treeless := by
    obtain ⟨c, rest, hverb⟩ := List.exists_cons_of_ne_nil hwords.verb.1
    have hall := hwords.verb.2
    rw [hverb, List.all_cons, Bool.and_eq_true, Entry.quiet, Bool.and_eq_true] at hall
    rw [EventLine.piece]
    simp only [EventText.event, hverb, List.cons_append]
    exact isTreeElement_of_not_opens (by simpa using hall.1.2)
  flat := fun hflat => absurd hdepth (by omega)

lemma legible_eventEntry {t : EventText} {depth : Nat} (hwords : t.Worded) (h : t.OneLine) (hdepth : 1 ≤ depth)
    (hstamp : t.line.timestamp.text.all Entry.quiet = true) : Entry.Legible b depth (t.entry b depth) := by
  have hshown := (plainText_piece (b := b) hwords h hdepth).shown (t.width b + treeSegmentWidth * max depth 1)
  refine ⟨⟨t.line.timestamp.length_text, hstamp⟩, ⟨?_, ?_⟩, ?_, ?_, fun _ => hdepth,
    ⟨hshown.newline, hshown.treeless⟩, hshown.flat⟩
  · cases helapsed : b.logElapsed <;> simp [EventText.entry, helapsed]
  · intro column hcolumn
    cases helapsed : b.logElapsed with
    | false => simp [EventText.entry, helapsed] at hcolumn
    | true =>
      obtain rfl : t.columnWord = column := by simpa [EventText.entry, helapsed] using hcolumn
      exact hwords.column
  · intro digits hdigits
    cases haddr : b.logAddr with
    | false => simp [EventText.entry, haddr] at hdigits
    | true =>
      obtain ⟨a, -, rfl⟩ : ∃ a, t.site.address = some a ∧ hexDigits a = digits := by
        simpa [EventText.entry, haddr] using hdigits
      exact ⟨rfl, a, rfl⟩
  · intro ending hcall
    exact absurd hcall (by simp [EventText.entry])

/-- What an event writes can be read: it stands under a call, and its texts hold no newline. -/
def ReadableEvent (b : Build) (s : ThreadState) (ev : ExceptionEvent) : Prop :=
  ∀ t ∈ s.eventText b ev, 1 ≤ s.nextDepth ∧ t.line.timestamp.text.all Entry.quiet = true ∧ t.OneLine

/-- What a step writes can be read. -/
def Readable (b : Build) (w : World) : Action → Prop
  | .call e _            => ∀ view ∈ w.tracer.loggedView e, ReadableCall w.tracer.nextDepth e view
  | .thrown kind c       => ReadableEvent b w.tracer (.thrown kind c)
  | .caught c            => ReadableEvent b w.tracer (.caught c)
  | .terminated reason c => ReadableEvent b w.tracer (.terminated reason c)
  | _                    => True

lemma readable_event {ev : ExceptionEvent} (h : Readable b w ev.action) : ReadableEvent b w.tracer ev := by
  cases ev <;> exact h

lemma text_of_eventText {ev : ExceptionEvent} {t : EventText} (h : s.eventText b ev = some t) : ev.text = some t := by
  rw [ThreadState.eventText] at h
  split_ifs at h
  exact h

/-! ### The listing of a run can be read -/

/-- Every line of the tree of a run can be read back. -/
lemma legible_traced {c : Calls} (h : Nested bounds w)
    (hc : AllSteps (World.act b) (HookedAction bounds) w c.actions)
    (hreadable : AllSteps (World.act b) (Readable b) w c.actions) :
    ∀ line ∈ (traced b w c).listing w.tracer.nextDepth, Entry.Legible b line.1 line.2 := by
  induction c generalizing w with
  | done => simp [traced]
  | event ev rest ih =>
    have hrest := ih (h.hooked hc.1) hc.2 hreadable.2
    rw [h.nextDepth_event hc.1] at hrest
    rw [traced, ThreadState.eventEntry]
    cases htext : w.tracer.eventText b ev with
    | none => exact hrest
    | some t =>
      obtain ⟨hdepth, hstamp, hline⟩ := readable_event hreadable.1 t htext
      have hentry := legible_eventEntry (b := b) (worded_text (text_of_eventText htext)) hline hdepth hstamp
      rw [Option.filter_some]
      split_ifs with hopen
      · exact List.forall_mem_cons.mpr ⟨hentry, hrest⟩
      · exact hrest
  | call e site inner x rest ihInner ihRest =>
    obtain ⟨hcall, hinner, hleave, hrest⟩ := allSteps_call hc
    obtain ⟨hcallReadable, hinnerReadable, -, hrestReadable⟩ := allSteps_call hreadable
    have hending : Nested bounds (exec (World.act b) (w.act b (.call e site)) inner.actions) :=
      exec_invariant (fun w a hw ha => hw.hooked ha) (h.hooked hcall) hinner
    have hback := hending.nextDepth_leave (b := b) hleave (live_ending b w e site inner) rfl h.depth
    have hdepth := h.nextDepth_call (b := b) hcall
    have hunder := ihInner (h.hooked hcall) hinner hinnerReadable
    have hbehind := ihRest (hending.hooked hleave) hrest hrestReadable
    rw [hback] at hbehind
    rw [hdepth] at hunder
    rw [traced]
    cases hview : w.tracer.loggedView e with
    | none =>
      rw [hview] at hunder
      simp only [Forest.listing_append, List.mem_append]
      exact fun line hline => hline.elim (hunder line) (hbehind line)
    | some view =>
      rw [hview] at hunder
      simp only [Forest.listing, List.mem_cons, List.mem_append]
      rintro line (rfl | hline | hline)
      · exact legible_leftEntry x (hcallReadable view hview)
      · exact hunder line hline
      · exact hbehind line hline

/-- So can those of a run that is stopped anywhere. -/
lemma legible_soFar {running : List Running} {last : Calls} (h : Nested bounds w)
    (hc : AllSteps (World.act b) (HookedAction bounds) w (CallsSoFar.mk running last).actions)
    (hreadable : AllSteps (World.act b) (Readable b) w (CallsSoFar.mk running last).actions) :
    ∀ line ∈ (tracedSoFar b w running last).listing w.tracer.nextDepth, Entry.Legible b line.1 line.2 := by
  induction running generalizing w with
  | nil => exact legible_traced h hc hreadable
  | cons r running ih =>
    obtain ⟨hbefore, hcall, hunder⟩ := allSteps_running hc
    obtain ⟨hbeforeReadable, hcallReadable, hunderReadable⟩ := allSteps_running hreadable
    have hhere : Nested bounds (exec (World.act b) w r.before.actions) :=
      exec_invariant (fun w a hw ha => hw.hooked ha) h hbefore
    have hdepth := h.nextDepth_exec (b := b) hbefore
    have hfirst := legible_traced h hbefore hbeforeReadable
    have hrest := ih (hhere.hooked hcall) hunder hunderReadable
    rw [hhere.nextDepth_call (b := b) hcall, hdepth] at hrest
    rw [tracedSoFar, Forest.listing_append]
    refine List.forall_mem_append.mpr ⟨hfirst, ?_⟩
    cases hview : (exec (World.act b) w r.before.actions).tracer.loggedView r.enter with
    | none =>
      rw [hview] at hrest
      exact hrest
    | some view =>
      rw [hview] at hrest
      have hpending := legible_pendingEntry (b := b) (hcallReadable view hview)
      rw [hdepth] at hpending ⊢
      simp only [Forest.listing, List.append_nil]
      exact List.forall_mem_cons.mpr ⟨hpending, hrest⟩

/-- The lines of a listing are read back one by one. -/
lemma read_listing {lines : List (Nat × Entry)} (h : ∀ line ∈ lines, Entry.Legible b line.1 line.2) :
    (lines.map fun line => line.2.body line.1).map (Entry.read b) = lines := by
  induction lines with
  | nil => rfl
  | cons line lines ih =>
    obtain ⟨hline, hlines⟩ := List.forall_mem_cons.mp h
    rw [List.map_cons, List.map_cons, hline.read_body, ih hlines]

/-! ### Runs -/

/-- What one process left in the file of a thread. -/
structure TraceRun where
  time : Timestamp
  tid : Nat
  calls : Forest Entry

namespace TraceRun

variable {r : TraceRun}

def titleOpen : Text := "=== New trace run: ".toList

def titleThread : Text := ", thread ID: ".toList

def titleEnd : Text := " ===".toList

/-- The middle line of a header. -/
def title (r : TraceRun) : Text := titleOpen ++ r.time.text ++ titleThread ++ decimal r.tid ++ titleEnd

/-- The lines of a run behind its empty line. -/
def block (r : TraceRun) : List Text :=
  let frame := List.replicate r.title.length '='
  frame :: r.title :: frame :: (r.calls.listing 0).map fun line => line.2.body line.1

def print (r : TraceRun) : Text := runSeparatorHeader r.time r.tid ++ (r.calls.listing 0).flatMap Entry.print

/-- A run that can be read: its time and its lines are. -/
structure Legible (b : Build) (r : TraceRun) : Prop where
  time : r.time.text.all Entry.quiet = true
  lines : ∀ line ∈ r.calls.listing 0, Entry.Legible b line.1 line.2

/-- The time and the thread in the middle line of a header. -/
def readTitle (title : Text) : Option (Timestamp × Nat) :=
  let time := (title.drop titleOpen.length).take prettyTimeLength
  let rest := title.drop (titleOpen.length + prettyTimeLength + titleThread.length)
  if h : time.length = prettyTimeLength then
    some (⟨time, h⟩, Nat.ofDigitChars 10 (rest.takeWhile Char.isDigit) 0)
  else none

/-- A run from its lines behind the empty one. -/
def read (b : Build) : List Text → Option TraceRun
  | _ :: title :: _ :: lines =>
    (readTitle title).map fun header => ⟨header.1, header.2, Forest.rebuild (lines.map (Entry.read b))⟩
  | _                        => none

lemma readTitle_title (r : TraceRun) : readTitle r.title = some (r.time, r.tid) := by
  have hend : ∀ c ∈ titleEnd.head?, c.isDigit = false := by
    intro c hc
    obtain rfl : ' ' = c := Option.some.inj hc
    rfl
  have hlength := r.time.length_text
  have hdigits : (decimal r.tid ++ titleEnd).takeWhile Char.isDigit = decimal r.tid := by
    rw [Scan.takeWhile_append_of_head hend, List.takeWhile_eq_self_iff]
    exact fun c hc => isDigit_of_mem_decimal hc
  have hnumber : Nat.ofDigitChars 10 (decimal r.tid) 0 = r.tid := Nat.ofDigitChars_ten_toDigits
  rw [title, readTitle]
  generalize titleOpen = front
  generalize titleThread = between
  have htime : ((front ++ r.time.text ++ between ++ decimal r.tid ++ titleEnd).drop front.length).take
      prettyTimeLength = r.time.text := by
    simp only [List.append_assoc, List.drop_left]
    exact List.take_left' hlength
  have hrest : (front ++ r.time.text ++ between ++ decimal r.tid ++ titleEnd).drop
      (front.length + prettyTimeLength + between.length) = decimal r.tid ++ titleEnd := by
    rw [List.append_assoc _ (decimal r.tid)]
    refine List.drop_left' ?_
    rw [List.length_append, List.length_append, hlength]
  simp only [htime, hrest, hdigits, hnumber, hlength, dif_pos]

lemma Legible.read_block (h : r.Legible b) : read b r.block = some r := by
  rw [block, read, readTitle_title, Option.map_some, read_listing h.lines, Forest.rebuild_listing]

/-- A run is printed line by line. -/
lemma print_eq (r : TraceRun) : r.print = ([] :: r.block).flatMap (· ++ ['\n']) := by
  have hlines : (r.calls.listing 0).flatMap Entry.print =
      ((r.calls.listing 0).map fun line => line.2.body line.1).flatMap (· ++ ['\n']) := by
    rw [List.flatMap_map]
    rfl
  have hheader : runSeparatorHeader r.time r.tid = '\n' :: List.replicate r.title.length '=' ++ '\n' :: r.title ++
      '\n' :: List.replicate r.title.length '=' ++ ['\n'] := rfl
  rw [print, hheader, hlines, block]
  simp only [List.flatMap_cons, List.nil_append, List.append_assoc, List.cons_append]

lemma Legible.notMem_newline (h : r.Legible b) : ∀ line ∈ [] :: r.block, '\n' ∉ line := by
  have hframe : '\n' ∉ List.replicate r.title.length '=' :=
    fun hmem => absurd (List.eq_of_mem_replicate hmem) (by decide)
  have htime : '\n' ∉ r.time.text := fun hmem => absurd (List.all_eq_true.mp h.time _ hmem) (by decide)
  have hdigits : '\n' ∉ decimal r.tid := fun hmem => controlFree_decimal _ _ hmem (by decide)
  have htitle : '\n' ∉ r.title := by
    have hwords : '\n' ∉ titleOpen ∧ '\n' ∉ titleThread ∧ '\n' ∉ titleEnd := by decide
    simp only [title, List.mem_append, not_or]
    exact ⟨⟨⟨⟨hwords.1, htime⟩, hwords.2.1⟩, hdigits⟩, hwords.2.2⟩
  have hlines : ∀ line ∈ (r.calls.listing 0).map fun line => line.2.body line.1, '\n' ∉ line := by
    intro line hline
    obtain ⟨entry, hentry, rfl⟩ := List.mem_map.mp hline
    exact (h.lines entry hentry).notMem_newline
  simp only [block, List.forall_mem_cons]
  exact ⟨List.not_mem_nil, hframe, htitle, hframe, hlines⟩

/-- No line of a run is empty but its first. -/
lemma nil_notMem_block (r : TraceRun) : [] ∉ r.block := by
  have hopen : titleOpen ≠ [] := by decide
  have htitle : r.title ≠ [] := by simp [title, hopen]
  have hframe : List.replicate r.title.length '=' ≠ [] := by simpa [List.replicate_eq_nil_iff] using htitle
  have hlines : [] ∉ (r.calls.listing 0).map fun line => line.2.body line.1 := by
    intro hmem
    obtain ⟨entry, -, hentry⟩ := List.mem_map.mp hmem
    simp [Entry.body, Entry.front, timestampPiece] at hentry
  simp only [block, List.mem_cons, not_or]
  exact ⟨hframe.symm, htitle.symm, hframe.symm, hlines⟩

end TraceRun

/-- The runs in a file. -/
def readRuns (b : Build) (file : Text) : List TraceRun :=
  ((CText.readLines file).splitOn []).tail.filterMap (TraceRun.read b)

/-- The runs that were printed to a file are read back from it. -/
lemma readRuns_print {runs : List TraceRun} (h : ∀ r ∈ runs, r.Legible b) :
    readRuns b (runs.flatMap TraceRun.print) = runs := by
  have hlines : runs.flatMap TraceRun.print =
      ((runs.map TraceRun.block).flatMap ([] :: ·)).flatMap (· ++ ['\n']) := by
    rw [List.flatMap_map, List.flatMap_assoc]
    exact congrArg (List.flatMap · runs) (funext TraceRun.print_eq)
  have hnewline : ∀ line ∈ (runs.map TraceRun.block).flatMap ([] :: ·), '\n' ∉ line := by
    intro line hline
    obtain ⟨block, hblock, hline⟩ := List.mem_flatMap.mp hline
    obtain ⟨r, hr, rfl⟩ := List.mem_map.mp hblock
    exact (h r hr).notMem_newline line hline
  have hempty : ∀ block ∈ runs.map TraceRun.block, [] ∉ block := by
    intro block hblock
    obtain ⟨r, -, rfl⟩ := List.mem_map.mp hblock
    exact r.nil_notMem_block
  have hread : ∀ r ∈ runs, TraceRun.read b r.block = some r := fun r hr => (h r hr).read_block
  rw [readRuns, hlines, CText.readLines_flatMap hnewline, CText.splitOn_flatMap hempty, List.tail_cons,
    List.filterMap_map]
  have hread : ∀ r ∈ runs, (TraceRun.read b ∘ TraceRun.block) r = some r := fun r hr => (h r hr).read_block
  rw [List.filterMap_congr hread, List.filterMap_some]

/-! ### Processes one after the other -/

/-- What the thread of one process has run when the process ends, wherever that is. -/
structure Session where
  bounds : StackBounds
  calls : CallsSoFar

namespace Session

/-- The thread before its first hook. -/
def start (session : Session) (earlier : Text) : World := .fresh session.bounds earlier

/-- The file when the thread has ended. -/
def appendTo (b : Build) (earlier : Text) (session : Session) : Text :=
  (exec (World.act b) (session.start earlier) session.calls.actions).tracer.traceFile.content

/-- What the thread leaves in the file: a run, if it opened it. -/
def runs (b : Build) (earlier : Text) (session : Session) : List TraceRun :=
  (openings b (session.start earlier) session.calls.actions).map fun r =>
    ⟨r.time, r.tid, tracedSoFar b (session.start earlier) session.calls.running session.calls.last⟩

/-- Every call runs its exit hook, and what is written arrives and can be read. -/
def Readable (b : Build) (earlier : Text) (session : Session) : Prop :=
  AllSteps (World.act b) (fun w a => HookedAction session.bounds w a ∧ Recorded b w a ∧ CallStackLogger.Readable b w a)
    (session.start earlier) session.calls.actions

variable {earlier : Text} {session : Session}

lemma Readable.steps (h : session.Readable b earlier) :
    AllSteps (World.act b) (HookedAction session.bounds) (session.start earlier) session.calls.actions ∧
      AllSteps (World.act b) (Recorded b) (session.start earlier) session.calls.actions ∧
      AllSteps (World.act b) (CallStackLogger.Readable b) (session.start earlier) session.calls.actions := by
  obtain ⟨hhooked, hrest⟩ := allSteps_and.mp h
  exact ⟨hhooked, allSteps_and.mp hrest⟩

/-- What holds of the replies to every hook holds of those the file is opened with. -/
lemma of_mem_openings {P : OpenReply → Prop} {w : World} {acts : List Action}
    (h : AllSteps (World.act b) (fun _ a => ∀ ev ∈ a.hook, ∀ r ∈ ev.fpReply, P r.openReply) w acts) :
    ∀ r ∈ openings b w acts, P r := by
  induction acts generalizing w with
  | nil => simp [openings]
  | cons a acts ih =>
    refine List.forall_mem_append.mpr ⟨fun r hr => ?_, ih h.2⟩
    obtain ⟨opened, hopened, hr⟩ : ∃ opened, (a.hook.bind (w.tracer.asksForStream b)).map
        w.tracer.traceFile.opening = some opened ∧ r ∈ opened := by
      rw [ThreadState.openings] at hr
      cases hopened : (a.hook.bind (w.tracer.asksForStream b)).map w.tracer.traceFile.opening with
      | none => simp [hopened] at hr
      | some opened => exact ⟨opened, rfl, by simpa [hopened] using hr⟩
    obtain ⟨reply, hreply, rfl⟩ := Option.map_eq_some_iff.mp hopened
    obtain ⟨ev, hev, hasks⟩ := Option.bind_eq_some_iff.mp hreply
    have hP := h.1 ev hev reply (asksForStream_reply hasks)
    rw [TraceFile.opening] at hr
    split_ifs at hr
    · rwa [List.mem_singleton.mp hr]
    · simp at hr

/-- A thread appends what it leaves. -/
lemma Readable.appendTo_eq (h : session.Readable b earlier) :
    session.appendTo b earlier = earlier ++ (session.runs b earlier).flatMap TraceRun.print := by
  obtain ⟨hhooked, hrecorded, -⟩ := h.steps
  have hgrown := grown_fresh hhooked hrecorded
  have hcontent : session.appendTo b earlier = earlier ++
      (openings b (session.start earlier) session.calls.actions).flatMap OpenReply.wholeHeader ++
        ((tracedSoFar b (session.start earlier) session.calls.running session.calls.last).listing 0).flatMap
          Entry.print := hgrown.content
  have honce : (openings b (session.start earlier) session.calls.actions).length ≤ 1 := hgrown.once
  have hclosed := hgrown.closed rfl
  rw [hcontent, runs]
  rcases hopened : openings b (session.start earlier) session.calls.actions with _ | ⟨r, _ | ⟨r', opened⟩⟩
  · have hlines : ((tracedSoFar b (session.start earlier) session.calls.running session.calls.last).listing 0).flatMap
        Entry.print = [] := (hclosed hopened).1
    simp [hlines]
  · simp [TraceRun.print, OpenReply.wholeHeader]
  · rw [hopened] at honce
    simp at honce

lemma Readable.legible (h : session.Readable b earlier) : ∀ r ∈ session.runs b earlier, r.Legible b := by
  obtain ⟨hhooked, hrecorded, hreadable⟩ := h.steps
  have hopens : AllSteps (World.act b) (fun _ a => ∀ ev ∈ a.hook, ∀ r ∈ ev.fpReply, OpensWell b r.openReply)
      (session.start earlier) session.calls.actions :=
    allSteps_of_invariant (I := fun _ => True) (fun _ _ _ _ => trivial) (fun _ _ _ h => h.opens) trivial hrecorded
  intro r hr
  obtain ⟨reply, hreply, rfl⟩ := List.mem_map.mp hr
  exact ⟨(of_mem_openings hopens reply hreply).readable,
    legible_soFar (Nested.fresh session.bounds earlier) hhooked hreadable⟩

end Session

/-- What some threads leave in a file one after the other. -/
def sessionRuns (b : Build) : Text → List Session → List TraceRun
  | _, []                         => []
  | earlier, session :: sessions =>
    session.runs b earlier ++ sessionRuns b (session.appendTo b earlier) sessions

lemma sessionRuns_spec {earlier : Text} {sessions : List Session}
    (h : AllSteps (Session.appendTo b) (fun earlier session => session.Readable b earlier) earlier sessions) :
    exec (Session.appendTo b) earlier sessions = earlier ++ (sessionRuns b earlier sessions).flatMap TraceRun.print ∧
      ∀ r ∈ sessionRuns b earlier sessions, r.Legible b := by
  induction sessions generalizing earlier with
  | nil => simp [sessionRuns]
  | cons session sessions ih =>
    obtain ⟨hcontent, hlegible⟩ := ih h.2
    refine ⟨?_, List.forall_mem_append.mpr ⟨h.1.legible, hlegible⟩⟩
    rw [exec_cons, hcontent, sessionRuns, List.flatMap_append, ← List.append_assoc, ← h.1.appendTo_eq]

/-- The runs of a file are read back from it. -/
theorem file_reads_back (b : Build) (sessions : List Session)
    (h : AllSteps (Session.appendTo b) (fun earlier session => session.Readable b earlier) [] sessions) :
    readRuns b (exec (Session.appendTo b) [] sessions) = sessionRuns b [] sessions := by
  obtain ⟨hcontent, hlegible⟩ := sessionRuns_spec h
  rw [hcontent, List.nil_append]
  exact readRuns_print hlegible

/-- A process that ends when `run` has caught what `step` threw. -/
def catchSession : Session := ⟨⟨16, 4096, true⟩, runCatches⟩

lemma plainText_of_all {depth : Nat} {text : Text} (h : text.all Entry.quiet = true) : PlainText depth text := by
  have hquiet : ∀ c ∈ text, c ≠ '\n' ∧ opensElement c = false := by
    intro c hc
    simpa [Entry.quiet] using List.all_eq_true.mp h c hc
  have hfree : ∀ line, TreeFree text line := treeFree_of_not_opens fun c hc => (hquiet c hc).2
  refine ⟨fun hmem => (hquiet _ hmem).1 rfl, ?_, fun _ => hfree []⟩
  cases text with
  | nil => rfl
  | cons c text => exact isTreeElement_of_not_opens (hquiet c List.mem_cons_self).2

lemma readableCall_of_all {e : EnterCall} {view : ResolvedFrameView} (hresolved : e.resolved = .found view)
    (hstamp : e.timestamp.text.all Entry.quiet = true) (htext : (calleePiece view).all Entry.quiet = true) :
    ∀ view' ∈ w.tracer.loggedView e, ReadableCall w.tracer.nextDepth e view' := by
  intro view' hview'
  have hfound := (loggedView_eq_some.mp hview').2.2.2
  obtain rfl : view = view' := by simpa [hresolved] using hfound
  exact ⟨hstamp, plainText_of_all htext⟩

lemma readable_catchSession {earlier : Text}
    (hthrown : 1 ≤ (exec (World.act ⟨true, true, false⟩) (catchSession.start earlier)
      (runCatches.actions.take 2)).tracer.nextDepth)
    (hcaught : 1 ≤ (exec (World.act ⟨true, true, false⟩) (catchSession.start earlier)
      (runCatches.actions.take 4)).tracer.nextDepth) : catchSession.Readable ⟨true, true, false⟩ earlier := by
  have hstamp : Timestamp.midnight.text.all Entry.quiet = true := by decide
  have hunknown : '\n' ∉ "<unknown type>".toList := by decide
  have hreadable : AllSteps (World.act ⟨true, true, false⟩) (CallStackLogger.Readable ⟨true, true, false⟩)
      (catchSession.start earlier) catchSession.calls.actions := by
    have hnone : ∀ u : Text, (none : Option Text) ≠ some u := by simp
    refine ⟨readableCall_of_all rfl hstamp (by decide), readableCall_of_all rfl hstamp (by decide),
      fun t ht => ⟨hthrown, ?_⟩, trivial, fun t ht => ⟨hcaught, ?_⟩, trivial⟩
    · obtain rfl := Option.some.inj (text_of_eventText ht)
      exact ⟨hstamp, hunknown, fun u hu => absurd hu (hnone u), fun u hu => absurd hu (hnone u)⟩
    · obtain rfl := Option.some.inj (text_of_eventText ht)
      exact ⟨hstamp, hunknown, fun u hu => absurd hu (hnone u), fun u hu => absurd hu (hnone u)⟩
  exact allSteps_and.mpr ⟨hooked_runCatches _ earlier, allSteps_and.mpr ⟨recorded_runCatches earlier, hreadable⟩⟩

theorem file_reads_back_twice :
    readRuns ⟨true, true, false⟩ (exec (Session.appendTo ⟨true, true, false⟩) [] [catchSession, catchSession]) =
      sessionRuns ⟨true, true, false⟩ [] [catchSession, catchSession] :=
  file_reads_back _ _ ⟨readable_catchSession (by decide +kernel) (by decide +kernel),
    readable_catchSession (by decide +kernel) (by decide +kernel), trivial⟩

end CallStackLogger
