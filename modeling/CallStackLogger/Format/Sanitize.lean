import CallStackLogger.Core.CBuffer
import CallStackLogger.Format.Ideal

/-!
# One event, one line

`sanitize_what_into` of `include/eventFormat.h` and the event lines its text goes into. A byte is compared without its
sign, so only the controls of ASCII are replaced.
-/

namespace CallStackLogger

open Checked

/-! ### The text of an exception -/

def ellipsis : Text := "...".toList

/-- `c < 0x20 || c == 0x7f`, of the byte as an `unsigned char`. -/
def IsControl (c : Char) : Prop := c.toNat < 0x20 ∨ c.toNat = 0x7f

instance : DecidablePred IsControl := fun c => inferInstanceAs (Decidable (c.toNat < 0x20 ∨ c.toNat = 0x7f))

def sanitizedChar (c : Char) : Char := if IsControl c then ' ' else c

/-- The replacement loop at `i`, with `n` bytes left to copy. -/
def sanitizeLoop (what : Text) : Nat → Nat → Text → Except Fault Text
  | 0, _, out     => .ok out
  | n + 1, i, out =>
    match what[i]? with
    | none   => .error .outside
    | some c => do
      let out ← store out i [sanitizedChar c]
      sanitizeLoop what n (i + 1) out

/-- The bytes copied of a text of the given length: room for the ellipsis is left when cutting. -/
def copiedLength (length limit : Nat) : Nat :=
  if limit < length then if ellipsis.length < limit then limit - ellipsis.length else limit else length

/-- `out[size] = '\0'`: the buffer in the end, and the size of its text. -/
def terminated (out : Text) (size : Nat) : Except Fault (Text × Nat) := do
  let out ← store out size ['\x00']
  return (out, size)

/-- `sanitize_what_into`. -/
def sanitizeWhatInto (what : Option Text) (out : Text) (cap : Nat) : Except Fault (Text × Nat) :=
  if cap = 0 then .ok (out, 0) else
  match what with
  | none      => terminated out 0
  | some what => do
    let length := (cStr what).length
    let limit := cap - 1
    let copied := copiedLength length limit
    let out ← sanitizeLoop what copied 0 out
    if limit < length ∧ ellipsis.length < limit then
      let out ← store out copied ellipsis
      terminated out (copied + ellipsis.length)
    else
      terminated out copied

/-- What becomes of a text: its controls are blanks, and behind the capacity it is cut. -/
structure Sanitized (what : Text) (cap : Nat) (text : Text) : Prop where
  length_lt : text.length < cap
  fits : what.length ≤ cap - 1 → text = what.map sanitizedChar
  ellipsis : cap - 1 < what.length → 3 < cap - 1 →
    text = (what.map sanitizedChar).take (cap - 1 - 3) ++ "...".toList ∧ text.length = cap - 1
  plain : cap - 1 < what.length → cap - 1 ≤ 3 →
    text = (what.map sanitizedChar).take (cap - 1) ∧ text.length = cap - 1

/-! ### The replacement loop -/

section Loop

variable {what out front : Text}

/-- What the loop copies is put behind what it has copied before. -/
lemma sanitizeLoop_eq (n : Nat) (hread : front.length + n ≤ what.length) (hroom : front.length + n ≤ out.length) :
    sanitizeLoop what n front.length (filled front out) =
      .ok (filled (front ++ ((what.drop front.length).take n).map sanitizedChar) out) := by
  induction n generalizing front with
  | zero => simp [sanitizeLoop]
  | succ n ih =>
    have hlt : front.length < what.length := by omega
    have hstore : store (filled front out) front.length [sanitizedChar what[front.length]] =
        .ok (filled (front ++ [sanitizedChar what[front.length]]) out) := by
      refine store_filled ?_
      rw [List.length_singleton]
      omega
    have hlength : (front ++ [sanitizedChar what[front.length]]).length = front.length + 1 := by simp
    have hread' : (front ++ [sanitizedChar what[front.length]]).length + n ≤ what.length := by omega
    have hnext := ih hread' (by omega)
    rw [hlength] at hnext
    rw [sanitizeLoop, List.getElem?_eq_getElem hlt]
    show (store (filled front out) front.length [sanitizedChar what[front.length]] >>=
      fun out => sanitizeLoop what n (front.length + 1) out) = _
    rw [hstore]
    refine hnext.trans ?_
    rw [List.drop_eq_getElem_cons hlt, List.take_succ_cons, List.map_cons, List.append_assoc, List.singleton_append]

/-- From the start of the text on, the loop copies a beginning of the string in it. -/
lemma sanitizeLoop_cStr {n : Nat} (hread : n ≤ (cStr what).length) (hroom : n ≤ out.length) :
    sanitizeLoop what n 0 out = .ok (filled (((cStr what).map sanitizedChar).take n) out) := by
  have hprefix : (cStr what) <+: what := List.takeWhile_prefix _
  have htake : what.take n = (cStr what).take n := by
    rw [List.prefix_iff_eq_take.mp hprefix, List.take_take, Nat.min_eq_left hread]
  have hread' : ([] : Text).length + n ≤ what.length := by simpa using Nat.le_trans hread hprefix.length_le
  have hroom' : ([] : Text).length + n ≤ out.length := by simpa using hroom
  have hloop := sanitizeLoop_eq n hread' hroom'
  rw [List.nil_append, List.length_nil, List.drop_zero, htake, filled_nil] at hloop
  rw [hloop, List.map_take]

/-- The text that is put into the buffer. -/
def sanitizedText (what : Text) (cap : Nat) : Text :=
  if cap - 1 < what.length ∧ ellipsis.length < cap - 1 then
    (what.map sanitizedChar).take (cap - 1 - ellipsis.length) ++ ellipsis
  else (what.map sanitizedChar).take (cap - 1)

lemma sanitized_sanitizedText {cap : Nat} (hcap : 1 ≤ cap) (what : Text) :
    Sanitized what cap (sanitizedText what cap) := by
  have hellipsis : ellipsis.length = 3 := rfl
  rw [sanitizedText]
  split_ifs with hcut
  · refine ⟨?_, fun hfits => ?_, fun _ _ => ⟨rfl, ?_⟩, fun _ hplain => ?_⟩
    · simp only [List.length_append, List.length_take, List.length_map]
      omega
    · exact absurd hcut.1 (by omega)
    · simp only [List.length_append, List.length_take, List.length_map]
      omega
    · exact absurd hcut.2 (by omega)
  · refine ⟨?_, fun hfits => ?_, fun hlong hroom => ?_, fun _ _ => ⟨rfl, ?_⟩⟩
    · simp only [List.length_take, List.length_map]
      omega
    · exact List.take_of_length_le (by rw [List.length_map]; exact hfits)
    · exact absurd ⟨hlong, hroom⟩ hcut
    · simp only [List.length_take, List.length_map]
      omega

lemma terminated_filled (h : front.length < out.length) :
    terminated (filled front out) front.length = .ok (filled (front ++ ['\x00']) out, front.length) := by
  have hstore : store (filled front out) front.length ['\x00'] = .ok (filled (front ++ ['\x00']) out) :=
    store_filled h
  rw [terminated, hstore]
  rfl

/-- A text that is cut with an ellipsis. -/
lemma sanitizeWhatInto_of_cut {cap : Nat} (hout : cap ≤ out.length)
    (hcut : cap - 1 < (cStr what).length ∧ ellipsis.length < cap - 1) :
    sanitizeWhatInto (some what) out cap =
      terminated (filled (sanitizedText (cStr what) cap) out) (sanitizedText (cStr what) cap).length := by
  have hpos : ¬ cap = 0 := by omega
  have hcopied : copiedLength (cStr what).length (cap - 1) = cap - 1 - ellipsis.length := by
    rw [copiedLength, if_pos hcut.1, if_pos hcut.2]
  have hfront : (((cStr what).map sanitizedChar).take (cap - 1 - ellipsis.length)).length =
      cap - 1 - ellipsis.length := by
    rw [List.length_take, List.length_map]
    omega
  have htext : sanitizedText (cStr what) cap =
      ((cStr what).map sanitizedChar).take (cap - 1 - ellipsis.length) ++ ellipsis := if_pos hcut
  have hread : cap - 1 - ellipsis.length ≤ (cStr what).length := by omega
  have hroom : (((cStr what).map sanitizedChar).take (cap - 1 - ellipsis.length)).length + ellipsis.length ≤
      out.length := by omega
  have hloop : sanitizeLoop what (cap - 1 - ellipsis.length) 0 out = _ := sanitizeLoop_cStr hread (by omega)
  have hellipsis := store_filled hroom
  rw [hfront] at hellipsis
  simp only [sanitizeWhatInto, hpos, if_false]
  rw [hcopied, hloop]
  show (if cap - 1 < (cStr what).length ∧ ellipsis.length < cap - 1 then _ else _) = _
  rw [if_pos hcut, hellipsis, htext, List.length_append, hfront]
  rfl

/-- A text that fits, or is cut without one. -/
lemma sanitizeWhatInto_of_not_cut {cap : Nat} (hcap : 1 ≤ cap) (hout : cap ≤ out.length)
    (hcut : ¬ (cap - 1 < (cStr what).length ∧ ellipsis.length < cap - 1)) :
    sanitizeWhatInto (some what) out cap =
      terminated (filled (sanitizedText (cStr what) cap) out) (sanitizedText (cStr what) cap).length := by
  have hpos : ¬ cap = 0 := by omega
  have hcopied : copiedLength (cStr what).length (cap - 1) = min (cap - 1) (cStr what).length := by
    rw [copiedLength]
    split_ifs <;> omega
  have htext : sanitizedText (cStr what) cap =
      ((cStr what).map sanitizedChar).take (min (cap - 1) (cStr what).length) := by
    rw [sanitizedText, if_neg hcut, List.take_eq_take_min, List.length_map]
  have hlength : (sanitizedText (cStr what) cap).length = min (cap - 1) (cStr what).length := by
    rw [htext, List.length_take, List.length_map]
    omega
  have hread : min (cap - 1) (cStr what).length ≤ (cStr what).length := Nat.min_le_right _ _
  have hloop : sanitizeLoop what (min (cap - 1) (cStr what).length) 0 out = _ := sanitizeLoop_cStr hread (by omega)
  rw [← htext] at hloop
  simp only [sanitizeWhatInto, hpos, if_false]
  rw [hcopied, hloop, hlength]
  exact if_neg hcut

/-- The text and its NUL are put at the start of the buffer. -/
lemma sanitizeWhatInto_eq (what : Option Text) {cap : Nat} (hcap : 1 ≤ cap) (hout : cap ≤ out.length) :
    sanitizeWhatInto what out cap =
      .ok (filled (sanitizedText (cStr (what.getD [])) cap ++ ['\x00']) out,
        (sanitizedText (cStr (what.getD [])) cap).length) := by
  have hsized := (sanitized_sanitizedText hcap (cStr (what.getD []))).length_lt
  refine Eq.trans ?_ (terminated_filled (Nat.lt_of_lt_of_le hsized hout))
  cases what with
  | none =>
    have hempty : sanitizedText (cStr ((none : Option Text).getD [])) cap = [] := by
      simp [sanitizedText, cStr]
    rw [hempty]
    simp only [sanitizeWhatInto, show ¬ cap = 0 by omega, if_false]
    rfl
  | some what =>
    by_cases hcut : cap - 1 < (cStr what).length ∧ ellipsis.length < cap - 1
    · exact sanitizeWhatInto_of_cut hout hcut
    · exact sanitizeWhatInto_of_not_cut hcap hout hcut

end Loop

/-! ### Texts without controls -/

def ControlFree (t : Text) : Prop := ∀ c ∈ t, ¬ IsControl c

instance : DecidablePred ControlFree := fun t => List.decidableBAll (fun c => ¬ IsControl c) t

section ControlFree

variable {t u : Text} {B : LineBuffer}

@[simp] lemma controlFree_nil : ControlFree [] := List.forall_mem_nil _

@[simp] lemma controlFree_cons {c : Char} : ControlFree (c :: t) ↔ ¬ IsControl c ∧ ControlFree t :=
  List.forall_mem_cons

@[simp] lemma controlFree_append : ControlFree (t ++ u) ↔ ControlFree t ∧ ControlFree u :=
  List.forall_mem_append

lemma ControlFree.take (h : ControlFree t) (n : Nat) : ControlFree (t.take n) :=
  fun c hc => h c (List.mem_of_mem_take hc)

lemma ControlFree.cStr (h : ControlFree t) : ControlFree (cStr t) :=
  fun c hc => h c ((List.takeWhile_prefix _).subset hc)

lemma ControlFree.notMem_nul (h : ControlFree t) : '\x00' ∉ t := fun hc => h '\x00' hc (by decide)

/-- A character that is printed as a digit is no control. -/
lemma not_isControl_of_isDigit {c : Char} (h : c.isDigit = true) : ¬ IsControl c := by
  simp only [Char.isDigit, Bool.and_eq_true, decide_eq_true_eq, UInt32.le_iff_toNat_le] at h
  have hlow : 48 ≤ c.toNat := h.1
  have hhigh : c.toNat ≤ 57 := h.2
  rw [IsControl]
  omega

lemma controlFree_decimal (n : Nat) : ControlFree (decimal n) := fun _ hc =>
  not_isControl_of_isDigit (isDigit_of_mem_decimal hc)

lemma controlFree_hexDigits (a : Addr) : ControlFree (hexDigits a) := by
  have hdigit : ∀ n < 16, ¬ IsControl (Nat.digitChar n) := by decide
  intro c hc
  obtain ⟨i, -, rfl⟩ := List.mem_map.mp hc
  exact hdigit _ (Nat.mod_lt _ (by decide))

/-- What is put for a character is no control. -/
lemma not_isControl_sanitizedChar (c : Char) : ¬ IsControl (sanitizedChar c) := by
  rw [sanitizedChar]
  split_ifs with hc
  · decide
  · exact hc

lemma controlFree_sanitizedText (what : Text) (cap : Nat) : ControlFree (sanitizedText what cap) := by
  have hmap : ControlFree (what.map sanitizedChar) := by
    intro c hc
    obtain ⟨d, -, rfl⟩ := List.mem_map.mp hc
    exact not_isControl_sanitizedChar d
  have hellipsis : ControlFree ellipsis := by decide
  rw [sanitizedText]
  split_ifs
  · exact controlFree_append.mpr ⟨hmap.take _, hellipsis⟩
  · exact hmap.take _

/-! ### The pieces of a line -/

lemma ControlFree.piece (h : ControlFree B.bytes) (ht : ControlFree t) : ControlFree (B.piece t).bytes := by
  rw [LineBuffer.piece]
  split_ifs
  · exact controlFree_append.mpr ⟨h, ht⟩
  · exact h

lemma ControlFree.clampedPiece (h : ControlFree B.bytes) (ht : ControlFree t) :
    ControlFree (B.clampedPiece t).bytes := by
  rw [LineBuffer.clampedPiece]
  split_ifs
  · exact controlFree_append.mpr ⟨h, ht.take _⟩
  · exact h

lemma ControlFree.indent (h : ControlFree B.bytes) (ht : ControlFree t) (n : Nat) :
    ControlFree (B.indent t n).bytes :=
  indent_keeps (P := fun B => ControlFree B.bytes) (fun _ _ hB => controlFree_append.mpr ⟨hB, ht⟩) n h

lemma ControlFree.treeGlyph (h : ControlFree B.bytes) (ht : ControlFree t) : ControlFree (B.treeGlyph t).bytes := by
  rw [LineBuffer.treeGlyph]
  split_ifs
  · exact controlFree_append.mpr ⟨h, ht⟩
  · exact h

lemma ControlFree.formatPrefix {timestamp afterTimestamp : Text} (h : ControlFree B.bytes)
    (htimestamp : ControlFree timestamp) (hafter : ControlFree afterTimestamp) (address : Option Addr) :
    ControlFree (formatPrefix B timestamp afterTimestamp address).bytes := by
  have htimestampPiece : ControlFree (timestampPiece timestamp) := by
    rw [timestampPiece, controlFree_append, controlFree_cons]
    exact ⟨⟨by decide, htimestamp⟩, by decide⟩
  have haddrPiece : ∀ a, ControlFree (addrPiece a) := by
    intro a
    rw [addrPiece, controlFree_append, controlFree_append]
    exact ⟨⟨by decide, controlFree_hexDigits a⟩, by decide⟩
  exact formatPrefix_keeps (P := fun B => ControlFree B.bytes) (fun _ hB => hB.piece htimestampPiece)
    (fun _ hB => hB.piece hafter) (fun a _ hB => hB.piece (haddrPiece a)) h

end ControlFree

/-! ### Event lines -/

/-- The texts of an event that are not its `what()` are free of controls. -/
structure EventLine.ControlFree (event : EventLine) : Prop where
  verb : CallStackLogger.ControlFree event.verb
  typeName : CallStackLogger.ControlFree event.typeName
  siteLabel : CallStackLogger.ControlFree event.siteLabel
  siteFile : ∀ file ∈ event.siteFile, CallStackLogger.ControlFree file
  suffix : CallStackLogger.ControlFree event.suffix

/-- The newline at the end is the only control of a line. -/
structure IsOneLine (line : Text) : Prop where
  count_newline : line.count '\n' = 1
  getLast : line.getLast? = some '\n'
  control : ∀ c ∈ line, IsControl c → c = '\n'

lemma isOneLine_append {body : Text} (h : ControlFree body) : IsOneLine (body ++ ['\n']) := by
  have hnewline : '\n' ∉ body := fun hmem => h '\n' hmem (by decide)
  refine ⟨?_, by simp, ?_⟩
  · rw [List.count_append, List.count_eq_zero_of_not_mem hnewline]
    rfl
  · intro c hc hcontrol
    rcases List.mem_append.mp hc with hbody | hend
    · exact absurd hcontrol (h c hbody)
    · exact List.mem_singleton.mp hend

lemma EventLine.ControlFree.piece {event : EventLine} (h : event.ControlFree)
    (hwhat : ∀ w ∈ event.what, CallStackLogger.ControlFree w) : CallStackLogger.ControlFree event.piece := by
  obtain ⟨hverb, htypeName, hsiteLabel, hsiteFile, hsuffix⟩ := h
  have hsite : CallStackLogger.ControlFree event.sitePiece := by
    rw [sitePiece]
    cases hfile : event.siteFile with
    | none => exact controlFree_append.mpr ⟨hsiteLabel, hsuffix⟩
    | some file =>
      have hcolon : CallStackLogger.ControlFree ": ".toList ∧ CallStackLogger.ControlFree ":".toList := by decide
      simp only [controlFree_append]
      refine ⟨⟨⟨⟨⟨hsiteLabel, hcolon.1⟩, (hsiteFile file hfile).cStr⟩, hcolon.2⟩, ?_⟩, hsuffix⟩
      cases event.siteLine with
      | none => exact (by decide : CallStackLogger.ControlFree "???".toList)
      | some n => exact controlFree_decimal n
  simp only [EventLine.piece, controlFree_append]
  refine ⟨⟨⟨⟨⟨⟨hverb, by decide⟩, htypeName⟩, ?_⟩, by decide⟩, hsite⟩, by decide⟩
  cases hw : event.what with
  | none => exact controlFree_nil
  | some w =>
    have hquote : CallStackLogger.ControlFree " \"".toList ∧ CallStackLogger.ControlFree "\"".toList := by decide
    simp only [controlFree_append]
    exact ⟨⟨hquote.1, hwhat w hw⟩, hquote.2⟩

lemma isOneLine_formatEventInto {cap : Nat} {timestamp afterTimestamp : Text} {event : EventLine} (hcap : 1 ≤ cap)
    (htimestamp : ControlFree timestamp) (hafter : ControlFree afterTimestamp) (hevent : event.ControlFree)
    (hwhat : ∀ w ∈ event.what, ControlFree w) :
    IsOneLine (formatEventInto cap timestamp event afterTimestamp true).bytes := by
  have hstart : ControlFree (formatPrefix { cap := cap } timestamp afterTimestamp event.siteAddress).bytes :=
    ControlFree.formatPrefix controlFree_nil htimestamp hafter event.siteAddress
  have htree := (hstart.indent (t := treeBar) (by decide) (event.depth - 1).toNat).treeGlyph (t := eventGlyph)
    (by decide)
  have hpiece := hevent.piece hwhat
  have hpos : ¬ cap = 0 := by omega
  simp only [formatEventInto, hpos, if_false, if_true, LineBuffer.newline]
  split_ifs
  · exact isOneLine_append (htree.clampedPiece hpiece)
  · exact isOneLine_append htree

/-- One event is one line: any text of an exception is put into its buffer without controls and cut where the
buffer ends, and the line that shows it, however it is clamped, has its newline at the end and no other control. -/
theorem one_event_one_line (what : Option Text) (out : Text) (cap lineCap : Nat) (timestamp afterTimestamp : Text)
    (hcap : 1 ≤ cap) (hout : cap ≤ out.length) (hlineCap : 1 ≤ lineCap) (htimestamp : ControlFree timestamp)
    (hafter : ControlFree afterTimestamp) :
    ∃ text out', sanitizeWhatInto what out cap = .ok (out', text.length) ∧
      out' = text ++ '\x00' :: out.drop (text.length + 1) ∧ cStr out' = text ∧
      Sanitized (cStr (what.getD [])) cap text ∧
      ∀ event : EventLine, event.ControlFree → (∀ w ∈ event.what, w = cStr out') →
        IsOneLine (formatEventInto lineCap timestamp event afterTimestamp true).bytes := by
  have hfree := controlFree_sanitizedText (cStr (what.getD [])) cap
  have htext : cStr (filled (sanitizedText (cStr (what.getD [])) cap ++ ['\x00']) out) =
      sanitizedText (cStr (what.getD [])) cap := takeWhile_filled hfree.notMem_nul out
  refine ⟨sanitizedText (cStr (what.getD [])) cap, _, sanitizeWhatInto_eq what hcap hout, ?_, htext,
    sanitized_sanitizedText hcap _, ?_⟩
  · rw [filled, List.length_append, List.append_assoc]
    rfl
  · intro event hevent hwhat
    refine isOneLine_formatEventInto hlineCap htimestamp hafter hevent fun w hw => ?_
    rw [hwhat w hw, htext]
    exact hfree

/-- A text of two lines that does not fit. -/
theorem one_event_one_line_cut :
    ∃ text out', sanitizeWhatInto (some "line one\nline two".toList) (List.replicate 12 'z') 12 =
        .ok (out', text.length) ∧
      out' = text ++ '\x00' :: (List.replicate 12 'z').drop (text.length + 1) ∧ cStr out' = text ∧
      Sanitized (cStr ((some "line one\nline two".toList).getD [])) 12 text ∧
      ∀ event : EventLine, event.ControlFree → (∀ w ∈ event.what, w = cStr out') →
        IsOneLine (formatEventInto 40 "12:00".toList event "[  throw   ] ".toList true).bytes :=
  one_event_one_line (some "line one\nline two".toList) (List.replicate 12 'z') 12 40 "12:00".toList
    "[  throw   ] ".toList (by decide) (by decide) (by decide) (by decide) (by decide)

end CallStackLogger
