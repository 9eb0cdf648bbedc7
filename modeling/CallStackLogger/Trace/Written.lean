import CallStackLogger.Trace.Effects
import CallStackLogger.Trace.Entry

/-!
# What the hooks write

The line of a call as its enter writes it and as its exit leaves it, and the line of an event, each as the entry it
prints. Between the two hooks of a call its line holds a placeholder and a plain glyph; the exit patches both where
they stand.
-/

namespace CallStackLogger

open Overwrite

variable {b : Build} {s : ThreadState}

/-! ### Calls -/

/-- The text of a line that has used up some of its buffer already. -/
def shownText (used : Nat) (w : Text) : Text :=
  if w.length ≤ intMax then w.take (formatBufSize - 1 - used) else []

/-- The column of a call that has left. -/
def durationColumn (b : Build) (e : EnterCall) (x : ExitCall) : Text :=
  let field := formatDuration12chars (x.time - e.time).toNat
  if b.logExceptions && decide (e.uncaught < x.uncaught) then setDurationFlag field frameEndException else field

/-- How a call ended, as far as its line can show it. -/
def shownEnding (b : Build) (depth : Nat) (e : EnterCall) (x : ExitCall) : Ending :=
  if b.logExceptions && decide (e.uncaught < x.uncaught) && decide (1 ≤ depth) then .exception else .returned

/-- The entry of a logged call with a column and an ending. -/
def callEntry (b : Build) (depth : Nat) (e : EnterCall) (view : ResolvedFrameView) (column : Text) (ending : Ending) :
    Entry where
  stamp := e.timestamp.text
  column := if b.logElapsed then some column else none
  address := if b.logAddr then some (hexDigits e.callee) else none
  kind := .call ending
  text := shownText (b.prefixWidth + treeSegmentWidth * depth) (calleePiece view)

/-- The entry of a call that has left. -/
def leftEntry (b : Build) (depth : Nat) (e : EnterCall) (view : ResolvedFrameView) (x : ExitCall) : Entry :=
  callEntry b depth e view (durationColumn b e x) (shownEnding b depth e x)

/-! ### Events -/

/-- What an event line says, and what writing it meets. -/
structure EventText where
  verb : Text
  siteLabel : Text
  suffix : Text
  columnWord : Text
  typeName : Text
  what : Option Text
  site : EventSite
  line : LineReply

def ThreadState.writeText (s : ThreadState) (b : Build) (t : EventText) : ThreadState :=
  (s.writeEventLine b t.verb t.siteLabel t.suffix t.columnWord t.typeName t.what t.site t.line).1

/-- What a throw writes about the type it names. -/
def EventCall.thrownText (c : EventCall) (site : EventSite) (typeName : Text) : ThrowKind → EventText
  | .primary      => ⟨"throw".toList, "thrown at".toList, [], durationEventThrow, typeName, c.what, site, c.line⟩
  | .rethrow      =>
    ⟨"rethrow".toList, "rethrown at".toList, [], durationEventRethrow, typeName, c.what, site, c.line⟩
  | .exceptionPtr =>
    ⟨"rethrow".toList, "rethrown at".toList, " via std::rethrow_exception".toList, durationEventRethrow, typeName,
      c.what, site, c.line⟩

def EventCall.terminatedText (c : EventCall) (site : EventSite) (typeName : Text) (reason : TerminateReason) :
    EventText :=
  ⟨"terminate".toList, terminateLabel reason, [], durationEventTerminate, terminateTypeName reason c typeName,
    if c.type.info.isSome && c.what.isNone then c.currentWhat else c.what, site, c.line⟩

/-- What a catch writes in a frame of the program. -/
def EventCall.caughtText (c : EventCall) (site : EventSite) (typeName : Text) : EventText :=
  ⟨"catch".toList, "caught at".toList, [], durationEventCatch, typeName,
    if c.dependent && c.what.isNone then c.currentWhat else c.what, site, c.line⟩

/-- The event as it is formatted. -/
def EventText.event (t : EventText) (b : Build) (depth : Int) : EventLine where
  siteAddress := if b.logAddr then t.site.address else none
  depth := depth
  verb := t.verb
  typeName := t.typeName
  what := t.what
  siteLabel := t.siteLabel
  siteFile := t.site.callerFilename
  siteLine := t.site.callerLineNumber
  suffix := t.suffix

/-- The width of what stands in front of the tree of an event. -/
def EventText.width (t : EventText) (b : Build) : Nat :=
  timestampPrefixWidth + (if b.logElapsed then durationFieldWidth + 1 else 0)
    + (if b.logAddr && t.site.address.isSome then addrColumnWidth else 0)

def EventText.entry (t : EventText) (b : Build) (depth : Nat) : Entry where
  stamp := t.line.timestamp.text
  column := if b.logElapsed then some t.columnWord else none
  address := if b.logAddr then t.site.address.map hexDigits else none
  kind := .event
  text := shownText (t.width b + treeSegmentWidth * max depth 1) (t.event b depth).piece

/-- The depth the next line is written at. -/
def ThreadState.nextDepth (s : ThreadState) : Nat := (s.currentStackDepth + 1).toNat

/-! ### Lines as they are written -/

/-- A line whose tree fits its buffer. -/
lemma buildLine_bytes {glyph : Text} {d : Nat} (timestamp afterTimestamp : Text) (address : Option Addr)
    (hglyph : glyph.length = treeSegmentWidth)
    (hfit : (linePrefix timestamp afterTimestamp address).length + treeSegmentWidth * d < formatBufSize) (w : Text) :
    (buildLine formatBufSize timestamp afterTimestamp address glyph d w true).bytes =
      linePrefix timestamp afterTimestamp address ++ treeText glyph d ++
        shownText ((linePrefix timestamp afterTimestamp address).length + treeSegmentWidth * d) w ++ ['\n'] := by
  have hpos : 0 < formatBufSize := by decide
  have hcap : formatBufSize ≤ intMax := by decide
  have hline : LineFaithful formatBufSize (linePrefix timestamp afterTimestamp address) glyph d w true
      (buildLine formatBufSize timestamp afterTimestamp address glyph d w true) :=
    lineFaithful_buildLine hpos hcap hglyph w true
  rw [shownText]
  by_cases hint : w.length ≤ intMax
  · have hlength : (linePrefix timestamp afterTimestamp address ++ treeText glyph d).length =
        (linePrefix timestamp afterTimestamp address).length + treeSegmentWidth * d := by
      rw [List.length_append, length_treeText hglyph]
    rw [hline.text hfit hint, if_pos hint, List.take_append, hlength, List.take_of_length_le (by omega), if_pos rfl]
  · rw [hline.overlong hfit (Nat.not_le.mp hint), if_neg hint, List.append_nil, if_pos rfl]

lemma durationSplice_eq (b : Build) :
    b.durationSplice = Entry.columnPiece (if b.logElapsed then some durationPlaceholder else none) := by
  rw [Build.durationSplice]
  split_ifs <;> rfl

/-- The line of a call as it is written when its frame is entered. -/
lemma callLine_text (b : Build) (e : EnterCall) (view : ResolvedFrameView)
    (hfit : b.prefixWidth + treeSegmentWidth * s.nextDepth < formatBufSize) :
    (s.callLine b e view).text =
      (callEntry b s.nextDepth e view durationPlaceholder .returned).body s.nextDepth ++ ['\n'] := by
  have hwidth : (linePrefix e.timestamp.text b.durationSplice (if b.logAddr then some e.callee else none)).length =
      b.prefixWidth := by
    rw [length_linePrefix, e.timestamp.length_text, length_durationSplice, Build.prefixWidth, Build.linePrefixExtra,
      timestampPrefixWidth]
    cases b.logAddr <;> simp [addrColumn, Nat.add_assoc]
  have hbytes := buildLine_bytes e.timestamp.text b.durationSplice (if b.logAddr then some e.callee else none)
    (d := s.nextDepth) length_callGlyph (hwidth.symm ▸ hfit) (calleePiece view)
  have haddress : addrColumn (if b.logAddr then some e.callee else none) =
      Entry.addressPiece (if b.logAddr then some (hexDigits e.callee) else none) := by
    cases b.logAddr <;> rfl
  have hline : (s.callLine b e view).text = (buildLine formatBufSize e.timestamp.text b.durationSplice
      (if b.logAddr then some e.callee else none) callGlyph s.nextDepth (calleePiece view) true).bytes := by
    simp only [ThreadState.callLine]
    rw [formatInto_eq_buildLine (by decide)]
    rfl
  rw [hline, hbytes, hwidth, linePrefix, haddress, durationSplice_eq]
  rfl

/-- The line of an event. -/
def ThreadState.textLine (s : ThreadState) (b : Build) (t : EventText) : Line :=
  let event := t.event b (s.currentStackDepth + 1)
  let column := if b.logElapsed then t.columnWord ++ [' '] else []
  ⟨none, event.depth, (formatEventInto formatBufSize t.line.timestamp.text event column true).bytes, none, 0,
    t.line.written⟩

lemma textLine_text (b : Build) (t : EventText) (hcolumn : t.columnWord.length = durationFieldWidth)
    (hfit : t.width b + treeSegmentWidth * max s.nextDepth 1 < formatBufSize) :
    (s.textLine b t).text = (t.entry b s.nextDepth).body s.nextDepth ++ ['\n'] := by
  have hsplice : (if b.logElapsed then t.columnWord ++ [' '] else []) =
      Entry.columnPiece (if b.logElapsed then some t.columnWord else none) := by
    split_ifs <;> rfl
  have haddress : addrColumn (if b.logAddr then t.site.address else none) =
      Entry.addressPiece (if b.logAddr then t.site.address.map hexDigits else none) := by
    cases b.logAddr with
    | false => rfl
    | true => cases t.site.address <;> rfl
  have hwidth : (linePrefix t.line.timestamp.text (if b.logElapsed then t.columnWord ++ [' '] else [])
      (if b.logAddr then t.site.address else none)).length = t.width b := by
    rw [length_linePrefix, t.line.timestamp.length_text, EventText.width, timestampPrefixWidth]
    cases b.logElapsed <;> cases b.logAddr <;> cases t.site.address <;> simp [addrColumn, hcolumn]
  have hsegments : eventSegments (s.currentStackDepth + 1) = max s.nextDepth 1 := by
    rw [eventSegments, ThreadState.nextDepth]
    omega
  have hbytes := buildLine_bytes t.line.timestamp.text (if b.logElapsed then t.columnWord ++ [' '] else [])
    (if b.logAddr then t.site.address else none) (d := max s.nextDepth 1) length_eventGlyph
    (hwidth.symm ▸ hfit) (t.event b s.nextDepth).piece
  have hline : (s.textLine b t).text = (buildLine formatBufSize t.line.timestamp.text
      (if b.logElapsed then t.columnWord ++ [' '] else []) (if b.logAddr then t.site.address else none) eventGlyph
      (max s.nextDepth 1) (t.event b s.nextDepth).piece true).bytes := by
    simp only [ThreadState.textLine]
    rw [formatEventInto_eq_buildLine (by decide), ← hsegments]
    rfl
  rw [hline, hbytes, hwidth, linePrefix, haddress, hsplice]
  rfl

/-! ### A line is completed -/

section Completed

variable {e : EnterCall} {view : ResolvedFrameView} {x : ExitCall} {depth : Nat} {column column' : Text}
  {ending ending' : Ending} {front rest : Text}

lemma length_front_callEntry (hcolumn : column.length = durationFieldWidth) :
    (callEntry b depth e view column ending).front.length = b.prefixWidth := by
  rw [Entry.front, List.length_append, List.length_append, callEntry, length_timestampPiece, e.timestamp.length_text,
    Build.prefixWidth, Build.linePrefixExtra, timestampPrefixWidth]
  cases b.logElapsed <;> cases b.logAddr <;>
    simp [Entry.columnPiece, Entry.addressPiece, hcolumn, addrColumnWidth, Nat.add_assoc]

lemma length_body_callEntry (hcolumn : column.length = durationFieldWidth)
    (hcolumn' : column'.length = durationFieldWidth) :
    ((callEntry b depth e view column ending).body depth).length =
      ((callEntry b depth e view column' ending').body depth).length := by
  have hlength : ∀ {column : Text} {ending : Ending}, column.length = durationFieldWidth →
      ((callEntry b depth e view column ending).body depth).length = b.prefixWidth + treeSegmentWidth * depth +
        (shownText (b.prefixWidth + treeSegmentWidth * depth) (calleePiece view)).length := by
    intro column ending hcolumn
    rw [Entry.body, List.length_append, List.length_append, length_front_callEntry hcolumn,
      length_treeText (Entry.isGlyph_glyph _).length_eq]
    rfl
  rw [hlength hcolumn, hlength hcolumn']

/-- The duration replaces the placeholder. -/
lemma overwrite_column (helapsed : b.logElapsed = true) (hcolumn : column.length = durationFieldWidth)
    (hcolumn' : column'.length = durationFieldWidth) :
    overwrite '\x00' (front ++ (callEntry b depth e view column ending).body depth ++ rest)
        (front.length + placeholderOffsetInLine) column' =
      front ++ (callEntry b depth e view column' ending).body depth ++ rest := by
  have hoff : (front ++ timestampPiece e.timestamp.text).length = front.length + placeholderOffsetInLine := by
    rw [List.length_append, length_timestampPiece, e.timestamp.length_text]
    rfl
  have h := overwrite_segment '\x00' ([' '] ++ Entry.addressPiece (callEntry b depth e view column ending).address
    ++ (callEntry b depth e view column ending).tree depth ++ rest) hoff (hcolumn'.trans hcolumn.symm)
  have hbody : ∀ word : Text, front ++ (callEntry b depth e view word ending).body depth ++ rest =
      front ++ timestampPiece e.timestamp.text ++ word ++ ([' '] ++ Entry.addressPiece
        (callEntry b depth e view column ending).address ++ (callEntry b depth e view column ending).tree depth ++
          rest) := by
    intro word
    simp only [Entry.body_eq, Entry.front, callEntry, helapsed, if_true, Entry.columnPiece, Entry.tree,
      List.append_assoc]
  rw [hbody, hbody]
  exact h

/-- The glyph of a nested call is marked. -/
lemma overwrite_mark (ending ending' : Ending) (hdepth : 1 ≤ depth) (hcolumn : column.length = durationFieldWidth) :
    overwrite '\x00' (front ++ (callEntry b depth e view column ending).body depth ++ rest)
        (front.length + treeGlyphOffset depth b.linePrefixExtra) [ending'.mark] =
      front ++ (callEntry b depth e view column ending').body depth ++ rest := by
  obtain ⟨n, rfl⟩ : ∃ n, depth = n + 1 := ⟨depth - 1, by omega⟩
  have hlength : (callEntry b (n + 1) e view column ending).front.length = b.prefixWidth :=
    length_front_callEntry hcolumn
  have hoff : (front ++ (callEntry b (n + 1) e view column ending).front ++
      (List.replicate n treeBar).flatten).length = front.length + treeGlyphOffset (n + 1 : Nat) b.linePrefixExtra := by
    rw [List.length_append, List.length_append, hlength, length_flatten_replicate, length_treeBar, treeGlyphOffset,
      Build.prefixWidth]
    simp only [treeSegmentWidth]
    omega
  have hmark : [ending'.mark].length = [ending.mark].length := rfl
  have h := overwrite_segment '\x00' ("_ ".toList ++ (callEntry b (n + 1) e view column ending).text ++ rest) hoff hmark
  have hbody : ∀ last : Ending, front ++ (callEntry b (n + 1) e view column last).body (n + 1) ++ rest =
      front ++ (callEntry b (n + 1) e view column ending).front ++ (List.replicate n treeBar).flatten ++ [last.mark] ++
        ("_ ".toList ++ (callEntry b (n + 1) e view column ending).text ++ rest) := by
    intro last
    simp only [Entry.body, Entry.front, callEntry, EntryKind.segments, EntryKind.glyph, treeText, List.append_assoc,
      List.cons_append, List.nil_append]
  rw [hbody, hbody]
  exact h

/-- The record of a call that was logged, as far as its exit reads it. -/
structure RecordOf (b : Build) (e : EnterCall) (start depth : Nat) (r : FrameRecord) : Prop where
  logged : r.logged = true
  time_eq : r.enterTime = e.time
  uncaught_eq : r.uncaughtAtEnter = e.uncaught
  placed : b.linePatching = true → r.lineStart = start ∧ r.depth = depth

variable {f : TraceFile} {r : FrameRecord}

lemma RecordOf.durationField_eq {start : Nat} (h : RecordOf b e start depth r) :
    x.durationField b r = durationColumn b e x := by
  rw [ExitCall.durationField, durationColumn, ExitCall.byException, h.time_eq, h.uncaught_eq]

lemma length_durationColumn (b : Build) (e : EnterCall) (x : ExitCall) :
    (durationColumn b e x).length = durationFieldWidth := by
  rw [durationColumn]
  split_ifs
  · rw [length_setDurationFlag, length_formatDuration12chars]
  · exact length_formatDuration12chars _

/-- The first patch of an exit puts the duration into the line. -/
lemma patchLineBytes_column (hrecord : RecordOf b e front.length depth r)
    (hfd : b.linePatching = true → f.patchFd = true)
    (hcontent : f.content = front ++ (callEntry b depth e view durationPlaceholder .returned).body depth ++ rest) :
    (if b.logElapsed then
        f.patchLineBytes r.activation r.lineStart placeholderOffsetInLine (x.durationField b r) else f).content =
      front ++ (callEntry b depth e view (durationColumn b e x) .returned).body depth ++ rest := by
  by_cases helapsed : b.logElapsed = true
  · have hpatching : b.linePatching = true := by simp [Build.linePatching, helapsed]
    have hstart := (hrecord.placed hpatching).1
    have hplaced : ¬ (f.patchFd = false ∨ r.lineStart < 0) := by
      rw [hfd hpatching, hstart]
      simp
    rw [if_pos helapsed, TraceFile.patchLineBytes, if_neg hplaced, hrecord.durationField_eq, hstart]
    show overwrite '\x00' f.content _ _ = _
    rw [hcontent, Int.toNat_natCast]
    exact overwrite_column helapsed rfl (length_durationColumn b e x)
  · rw [if_neg helapsed, hcontent]
    simp [callEntry, helapsed]

/-- The second marks the glyph of a nested line when an exception ended the call. -/
lemma markFrameEnd_mark (hrecord : RecordOf b e front.length depth r) (hfd : b.linePatching = true → f.patchFd = true)
    (hcontent : f.content = front ++ (callEntry b depth e view column .returned).body depth ++ rest)
    (hcolumn : column.length = durationFieldWidth) :
    (if b.logExceptions && x.byException r then f.markFrameEnd b r frameEndException none else f).content =
      front ++ (callEntry b depth e view column (shownEnding b depth e x)).body depth ++ rest := by
  have hbyException : x.byException r = decide (e.uncaught < x.uncaught) := by
    rw [ExitCall.byException, hrecord.uncaught_eq]
  rw [shownEnding, hbyException]
  by_cases hmarks : (b.logExceptions && decide (e.uncaught < x.uncaught)) = true
  · have hpatching : b.linePatching = true := by
      simp [Build.linePatching, (Bool.and_eq_true_iff.mp hmarks).1]
    obtain ⟨hstart, hdepth⟩ := hrecord.placed hpatching
    have hplaced : ¬ (r.logged = false ∨ r.lineStart < 0) := by
      rw [hrecord.logged, hstart]
      simp
    have hopen : ¬ (f.patchFd = false ∨ r.lineStart < 0) := by
      rw [hfd hpatching, hstart]
      simp
    rw [if_pos hmarks, hmarks, TraceFile.markFrameEnd, if_neg hplaced]
    simp only [Bool.true_and, decide_eq_true_eq]
    by_cases hnested : 1 ≤ depth
    · have hmarked : (1 : Int) ≤ r.depth := by omega
      rw [if_pos hmarked, if_pos hnested, TraceFile.patchLineBytes, if_neg hopen]
      show overwrite '\x00' f.content _ _ = _
      rw [hcontent, hstart, hdepth, Int.toNat_natCast]
      exact overwrite_mark .returned .exception hnested hcolumn
    · have hflat : ¬ (1 : Int) ≤ r.depth := by omega
      rw [if_neg hflat, if_neg hnested, hcontent]
  · rw [if_neg hmarks, hcontent]
    simp [hmarks]

/-- An exit completes the line of its call. -/
lemma markLeft_content (hrecord : RecordOf b e front.length depth r) (hfd : b.linePatching = true → f.patchFd = true)
    (hcontent : f.content = front ++ (callEntry b depth e view durationPlaceholder .returned).body depth ++ rest) :
    (f.markLeft b x r).content = front ++ (leftEntry b depth e view x).body depth ++ rest := by
  have hfirst := patchLineBytes_column (x := x) hrecord hfd hcontent
  have hpatched : b.linePatching = true → (if b.logElapsed then
      f.patchLineBytes r.activation r.lineStart placeholderOffsetInLine (x.durationField b r) else f).patchFd =
        true := by
    intro hpatching
    split_ifs
    · rw [patchLineBytes_eq]
      obtain ⟨_, _, hpatches⟩ := patchedTo_patchAll f
        (linePatch r.activation r.lineStart placeholderOffsetInLine (x.durationField b r))
      rw [hpatches]
      exact hfd hpatching
    · exact hfd hpatching
  exact markFrameEnd_mark hrecord hpatched hfirst (length_durationColumn b e x)

end Completed

end CallStackLogger
