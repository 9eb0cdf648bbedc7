import CallStackLogger.Format.Event
import CallStackLogger.Format.Layout

/-!
# Formatted lines and the ideal line

The line of an unbounded buffer is its prefix, its tree and its last piece. Both formatters stay inside their
buffer whatever they are given, and as long as the tree leaves room they write the beginning of that line.
-/

namespace CallStackLogger

open LineBuffer

/-! ### One builder for call and event lines -/

/-- A tree of `d` segments, the last of which is the glyph. -/
def treeText (glyph : Text) : Nat → Text
  | 0     => []
  | d + 1 => (List.replicate d treeBar).flatten ++ glyph

/-- The buffer behind the prefix and a tree of `d` segments. -/
def buildTree (cap : Nat) (timestamp afterTimestamp : Text) (address : Option Addr) (glyph : Text) (d : Nat) :
    LineBuffer :=
  let B := (formatPrefix { cap := cap } timestamp afterTimestamp address).indent treeBar (d - 1)
  if 0 < d then B.treeGlyph glyph else B

/-- A line with `d` tree segments and the last piece `w`. -/
def buildLine (cap : Nat) (timestamp afterTimestamp : Text) (address : Option Addr) (glyph : Text) (d : Nat) (w : Text)
    (appendNewline : Bool) : LineBuffer :=
  let B := buildTree cap timestamp afterTimestamp address glyph d
  let B := if 0 < B.remaining then B.clampedPiece w else B
  if appendNewline then B.newline else B

/-- The tree segments of a call line. -/
def callSegments (depth : Int) : Nat := depth.toNat

/-- The tree segments of an event line, which has its glyph at depth 0, too. -/
def eventSegments (depth : Int) : Nat := (max depth 1).toNat

lemma formatInto_eq_buildLine {cap : Nat} (hcap : 0 < cap) (timestamp : Text) (frame : ResolvedFrameView) (depth : Int)
    (afterTimestamp : Text) (appendNewline : Bool) :
    formatInto cap timestamp frame depth afterTimestamp appendNewline =
      buildLine cap timestamp afterTimestamp frame.calleeAddress callGlyph (callSegments depth) (calleePiece frame)
        appendNewline := by
  have hbars : (depth - 1).toNat = callSegments depth - 1 := by
    rw [callSegments]
    omega
  have hglyph : 0 < depth ↔ 0 < callSegments depth := by
    rw [callSegments]
    omega
  simp only [formatInto, Nat.ne_of_gt hcap, if_false, hbars]
  rw [if_congr hglyph rfl rfl]
  rfl

lemma formatEventInto_eq_buildLine {cap : Nat} (hcap : 0 < cap) (timestamp : Text) (event : EventLine)
    (afterTimestamp : Text) (appendNewline : Bool) :
    formatEventInto cap timestamp event afterTimestamp appendNewline =
      buildLine cap timestamp afterTimestamp event.siteAddress eventGlyph (eventSegments event.depth) event.piece
        appendNewline := by
  have hbars : (event.depth - 1).toNat = eventSegments event.depth - 1 := by
    rw [eventSegments]
    omega
  have hglyph : 0 < eventSegments event.depth := by
    rw [eventSegments]
    omega
  simp only [formatEventInto, buildLine, buildTree, Nat.ne_of_gt hcap, if_false, hbars, hglyph, if_true]

/-! ### What every piece keeps -/

section Keeps

variable {P : LineBuffer → Prop} {timestamp afterTimestamp w : Text} {address : Option Addr} {B : LineBuffer}

/-- What each piece of the prefix keeps, the prefix keeps. -/
lemma formatPrefix_keeps (htimestamp : ∀ B, P B → P (B.piece (timestampPiece timestamp)))
    (hafter : ∀ B, P B → P (B.piece afterTimestamp)) (haddress : ∀ a B, P B → P (B.piece (addrPiece a))) (h : P B) :
    P (formatPrefix B timestamp afterTimestamp address) := by
  have hspliced : ∀ B, P B → P (if afterTimestamp ≠ [] ∧ 0 < B.remaining then B.piece afterTimestamp else B) := by
    intro B hB
    split_ifs
    · exact hafter B hB
    · exact hB
  have hcolumn : ∀ a B, P B → P (if 0 < B.remaining then B.piece (addrPiece a) else B) := by
    intro a B hB
    split_ifs
    · exact haddress a B hB
    · exact hB
  cases address with
  | none => exact hspliced _ (htimestamp B h)
  | some a => exact hcolumn a _ (hspliced _ (htimestamp B h))

/-- What a segment that has room keeps, the indentation keeps. -/
lemma indent_keeps (hsegment : ∀ B, treeSegmentWidth < B.remaining → P B → P (B.segment w)) (n : Nat) (h : P B) :
    P (B.indent w n) := by
  induction n generalizing B with
  | zero => exact h
  | succ n ih =>
    rw [LineBuffer.indent]
    split_ifs with hfits
    · exact ih (hsegment B hfits h)
    · exact h

end Keeps

/-! ### Inside the buffer -/

/-- There is room for one more byte, and nothing was written behind the buffer. -/
structure WithinBounds (B : LineBuffer) : Prop where
  room : B.HasRoom
  touched_le : B.touched ≤ B.cap

namespace WithinBounds

variable {B : LineBuffer} {w : Text}

lemma printed_le (h : WithinBounds B) (w : Text) : max B.touched (B.printed w) ≤ B.cap := by
  have hroom : B.pos < B.cap := h.room
  have htouched := h.touched_le
  rw [printed, remaining]
  omega

lemma piece (h : WithinBounds B) (w : Text) : WithinBounds (B.piece w) := by
  have hprinted := h.printed_le w
  simp only [LineBuffer.piece]
  split_ifs with hkept
  · refine ⟨?_, hprinted⟩
    have hlength : snprintfResult w = w.length := by
      rw [snprintfResult] at hkept ⊢
      split_ifs at hkept ⊢ with hint
      · rfl
      · exact absurd hkept.1 (by decide)
    rw [hlength, remaining] at hkept
    simp only [HasRoom, pos, List.length_append]
    simp only [pos] at hkept
    omega
  · exact ⟨h.room, hprinted⟩

lemma segment (h : WithinBounds B) (hw : w.length = treeSegmentWidth) (hfits : treeSegmentWidth < B.remaining) :
    WithinBounds (B.segment w) := by
  have htouched := h.touched_le
  simp only [remaining, pos] at hfits
  constructor
  · simp only [HasRoom, pos, LineBuffer.segment, List.length_append, hw]
    omega
  · simp only [LineBuffer.segment, pos, hw]
    omega

lemma indent (h : WithinBounds B) (hw : w.length = treeSegmentWidth) (n : Nat) : WithinBounds (B.indent w n) :=
  indent_keeps (fun _ hfits hB => hB.segment hw hfits) n h

lemma treeGlyph (h : WithinBounds B) (hw : w.length = treeSegmentWidth) : WithinBounds (B.treeGlyph w) := by
  rw [LineBuffer.treeGlyph]
  split_ifs with hfits
  · exact ⟨(h.segment hw hfits).room, (h.segment hw hfits).touched_le⟩
  · exact h

lemma clampedPiece (h : WithinBounds B) (w : Text) : WithinBounds (B.clampedPiece w) := by
  have hprinted := h.printed_le w
  obtain ⟨-, -, hroom⟩ := B.clampedPiece_bytes h.room w
  refine ⟨hroom, ?_⟩
  rw [clampedPiece_cap, LineBuffer.clampedPiece]
  split_ifs
  · exact hprinted
  · exact hprinted

lemma formatPrefix (h : WithinBounds B) (timestamp afterTimestamp : Text) (address : Option Addr) :
    WithinBounds (formatPrefix B timestamp afterTimestamp address) :=
  formatPrefix_keeps (fun _ hB => hB.piece _) (fun _ hB => hB.piece _) (fun _ _ hB => hB.piece _) h

end WithinBounds

@[simp] lemma formatPrefix_cap (B : LineBuffer) (timestamp afterTimestamp : Text) (address : Option Addr) :
    (formatPrefix B timestamp afterTimestamp address).cap = B.cap := by
  have hpiece : ∀ (w : Text) (B' : LineBuffer), B'.cap = B.cap → (B'.piece w).cap = B.cap := by
    intro w B' hB'
    rw [piece_cap, hB']
  exact formatPrefix_keeps (P := fun B' => B'.cap = B.cap) (hpiece _) (hpiece _) (fun _ => hpiece _) rfl

@[simp] lemma indent_cap (B : LineBuffer) (w : Text) (n : Nat) : (B.indent w n).cap = B.cap :=
  indent_keeps (P := fun B' => B'.cap = B.cap) (fun _ _ hB' => hB') n rfl

/-! ### The tree with room for it -/

lemma length_flatten_replicate (n : Nat) (w : Text) : (List.replicate n w).flatten.length = n * w.length := by
  simp

/-- An indentation that leaves room for more is whole. -/
lemma indent_of_fits {B : LineBuffer} {w : Text} (hw : w.length = treeSegmentWidth) (n : Nat)
    (hfit : B.pos + treeSegmentWidth * n < B.cap) :
    (B.indent w n).bytes = B.bytes ++ (List.replicate n w).flatten ∧ (B.indent w n).glyph = B.glyph := by
  induction n generalizing B with
  | zero => exact ⟨by simp [LineBuffer.indent], rfl⟩
  | succ n ih =>
    have hfits : treeSegmentWidth < B.remaining := by
      rw [remaining]
      rw [Nat.mul_succ] at hfit
      simp only [treeSegmentWidth] at hfit ⊢
      omega
    have hpos : (B.segment w).pos = B.pos + treeSegmentWidth := by
      simp only [pos, LineBuffer.segment, List.length_append, hw]
    obtain ⟨hbytes, hglyph⟩ := ih (B := B.segment w) (by
      rw [hpos, Nat.add_assoc, Nat.add_comm treeSegmentWidth, ← Nat.mul_succ]
      exact hfit)
    rw [LineBuffer.indent, if_pos hfits, hbytes, hglyph, List.replicate_succ, List.flatten_cons]
    exact ⟨by simp [LineBuffer.segment], rfl⟩

/-- Where the last segment of a tree starts. -/
def glyphStart (width d : Nat) : Nat := width + treeSegmentWidth * (d - 1)

lemma length_treeText {glyph : Text} (hglyph : glyph.length = treeSegmentWidth) (d : Nat) :
    (treeText glyph d).length = treeSegmentWidth * d := by
  cases d with
  | zero => rfl
  | succ n =>
    rw [treeText, List.length_append, length_flatten_replicate, length_treeBar, hglyph, Nat.mul_succ, Nat.mul_comm]

/-- The glyph ends the tree. -/
lemma exists_treeText_eq (glyph : Text) {d : Nat} (hd : 1 ≤ d) :
    ∃ bars : Text, treeText glyph d = bars ++ glyph ∧ bars.length = treeSegmentWidth * (d - 1) := by
  obtain ⟨n, rfl⟩ : ∃ n, d = n + 1 := ⟨d - 1, by omega⟩
  refine ⟨(List.replicate n treeBar).flatten, rfl, ?_⟩
  rw [length_flatten_replicate, length_treeBar, Nat.add_sub_cancel, Nat.mul_comm]

/-! ### The line -/

/-- What a formatter promises of a line with the prefix `P`, `d` tree segments and the last piece `w`. The last
piece of a line is dropped when it is longer than `snprintf` can say. -/
structure LineFaithful (cap : Nat) (P glyph : Text) (d : Nat) (w : Text) (appendNewline : Bool) (B : LineBuffer) :
    Prop where
  touched_le : B.touched ≤ cap
  length_le : B.bytes.length ≤ cap
  newline : appendNewline = true → B.bytes.getLast? = some '\n'
  text : P.length + treeSegmentWidth * d < cap → w.length ≤ intMax →
    B.bytes = (P ++ treeText glyph d ++ w).take (cap - 1) ++ if appendNewline then ['\n'] else []
  overlong : P.length + treeSegmentWidth * d < cap → intMax < w.length →
    B.bytes = P ++ treeText glyph d ++ if appendNewline then ['\n'] else []
  glyph : P.length + treeSegmentWidth * d < cap → 1 ≤ d →
    ∃ before after, B.bytes = before ++ glyph ++ after ∧ before.length = glyphStart P.length d

section Line

variable {cap d : Nat} {timestamp afterTimestamp glyph : Text} {address : Option Addr}

lemma withinBounds_buildTree (hcap : 0 < cap) (hglyph : glyph.length = treeSegmentWidth) :
    WithinBounds (buildTree cap timestamp afterTimestamp address glyph d) := by
  have hempty : WithinBounds { cap := cap } := ⟨hcap, Nat.zero_le cap⟩
  have hindented := (hempty.formatPrefix timestamp afterTimestamp address).indent length_treeBar (d - 1)
  simp only [buildTree]
  split_ifs
  · exact hindented.treeGlyph hglyph
  · exact hindented

@[simp] lemma buildTree_cap : (buildTree cap timestamp afterTimestamp address glyph d).cap = cap := by
  simp only [buildTree]
  split_ifs <;> simp

/-- A tree that fits is written whole. -/
lemma buildTree_bytes (hcap : cap ≤ intMax) (hglyph : glyph.length = treeSegmentWidth)
    (hfit : (linePrefix timestamp afterTimestamp address).length + treeSegmentWidth * d < cap) :
    (buildTree cap timestamp afterTimestamp address glyph d).bytes =
      linePrefix timestamp afterTimestamp address ++ treeText glyph d := by
  have hholds := formatPrefix_holds timestamp afterTimestamp address
    (Nat.lt_of_le_of_lt (Nat.le_add_right _ _) hfit) hcap
  simp only [buildTree]
  generalize formatPrefix { cap := cap } timestamp afterTimestamp address = B at hholds ⊢
  have hpos : B.pos = (linePrefix timestamp afterTimestamp address).length := by rw [pos, hholds.bytes_eq]
  cases d with
  | zero => simp [treeText, LineBuffer.indent, hholds.bytes_eq]
  | succ n =>
    rw [Nat.mul_succ, ← hpos, ← hholds.cap_eq] at hfit
    obtain ⟨hbytes, -⟩ := indent_of_fits (B := B) length_treeBar n (by omega)
    have hindented : (B.indent treeBar n).pos = B.pos + treeSegmentWidth * n := by
      rw [pos, hbytes, List.length_append, length_flatten_replicate, length_treeBar, Nat.mul_comm, pos]
    have hfits : treeSegmentWidth < (B.indent treeBar n).remaining := by
      rw [remaining, indent_cap, hindented]
      omega
    rw [if_pos (Nat.succ_pos n), Nat.add_sub_cancel, (treeGlyph_of_fits _ hfits).1, hbytes, treeText, hholds.bytes_eq,
      List.append_assoc]

/-- The newline takes the byte that is left. -/
lemma buildLine_eq (hcap : 0 < cap) (hglyph : glyph.length = treeSegmentWidth) (w : Text) (appendNewline : Bool) :
    buildLine cap timestamp afterTimestamp address glyph d w appendNewline =
      let B := (buildTree cap timestamp afterTimestamp address glyph d).clampedPiece w
      if appendNewline then B.newline else B := by
  have hroom : 0 < (buildTree cap timestamp afterTimestamp address glyph d).remaining :=
    Nat.sub_pos_of_lt (withinBounds_buildTree hcap hglyph).room
  simp only [buildLine, if_pos hroom]

/-- The last piece is cut where the line ends, and dropped when it is too long to be printed. -/
lemma clampedPiece_eq (B : LineBuffer) (w : Text) :
    (B.clampedPiece w).bytes = B.bytes ++ if w.length ≤ intMax then w.take (B.remaining - 1) else [] := by
  simp only [LineBuffer.clampedPiece, snprintfResult]
  by_cases hint : w.length ≤ intMax
  · simp only [hint, if_true]
    split_ifs with hpos
    · rfl
    · have hnil : w = [] := List.length_eq_zero_iff.mp (by omega)
      simp [hnil]
  · simp [hint]

lemma lineFaithful_buildLine (hpos : 0 < cap) (hcap : cap ≤ intMax) (hglyph : glyph.length = treeSegmentWidth)
    (w : Text) (appendNewline : Bool) :
    LineFaithful cap (linePrefix timestamp afterTimestamp address) glyph d w appendNewline
      (buildLine cap timestamp afterTimestamp address glyph d w appendNewline) := by
  have htree : WithinBounds (buildTree cap timestamp afterTimestamp address glyph d) :=
    withinBounds_buildTree hpos hglyph
  have hline := htree.clampedPiece w
  have hlineCap : ((buildTree cap timestamp afterTimestamp address glyph d).clampedPiece w).cap = cap := by simp
  have hroom : ((buildTree cap timestamp afterTimestamp address glyph d).clampedPiece w).bytes.length < cap := by
    have hlt := hline.room
    rwa [HasRoom, pos, hlineCap] at hlt
  have htouched := hline.touched_le
  rw [hlineCap] at htouched
  have hbytes : (buildLine cap timestamp afterTimestamp address glyph d w appendNewline).bytes =
      ((buildTree cap timestamp afterTimestamp address glyph d).clampedPiece w).bytes ++
        if appendNewline then ['\n'] else [] := by
    rw [buildLine_eq hpos hglyph]
    cases appendNewline <;> simp
  refine ⟨?_, ?_, ?_, fun hfit hint => ?_, fun hfit hlong => ?_, fun hfit hd => ?_⟩
  · rw [buildLine_eq hpos hglyph]
    cases appendNewline with
    | false => exact htouched
    | true =>
      simp only [if_true, LineBuffer.newline, pos]
      omega
  · rw [hbytes, List.length_append]
    cases appendNewline <;> simp <;> omega
  · intro hnewline
    rw [hbytes, hnewline]
    simp
  · have hlength : (linePrefix timestamp afterTimestamp address ++ treeText glyph d).length ≤ cap - 1 := by
      rw [List.length_append, length_treeText hglyph]
      omega
    have hremaining : (buildTree cap timestamp afterTimestamp address glyph d).remaining - 1 =
        cap - 1 - (linePrefix timestamp afterTimestamp address ++ treeText glyph d).length := by
      rw [remaining, pos, buildTree_cap, buildTree_bytes hcap hglyph hfit]
      omega
    rw [hbytes, clampedPiece_eq, if_pos hint, hremaining, buildTree_bytes hcap hglyph hfit, List.take_append,
      List.take_of_length_le hlength]
  · rw [hbytes, clampedPiece_eq, if_neg (Nat.not_le.mpr hlong), buildTree_bytes hcap hglyph hfit, List.append_nil]
  · obtain ⟨bars, hbars, hlength⟩ := exists_treeText_eq glyph hd
    obtain ⟨part, hpart, -⟩ := (buildTree cap timestamp afterTimestamp address glyph d).clampedPiece_bytes htree.room w
    refine ⟨linePrefix timestamp afterTimestamp address ++ bars, part ++ if appendNewline then ['\n'] else [], ?_, ?_⟩
    · rw [hbytes, hpart, buildTree_bytes hcap hglyph hfit, hbars]
      simp only [List.append_assoc]
    · rw [List.length_append, hlength, glyphStart]

end Line

lemma length_eventGlyph : eventGlyph.length = treeSegmentWidth := rfl

/-- Both line formatters stay inside their buffer, end the line with the newline and write the beginning of the
ideal line. -/
theorem formatters_faithful (cap : Nat) (hpos : 0 < cap) (hcap : cap ≤ intMax) (timestamp afterTimestamp : Text)
    (appendNewline : Bool) :
    (∀ (frame : ResolvedFrameView) (depth : Int), 0 ≤ depth →
      LineFaithful cap (linePrefix timestamp afterTimestamp frame.calleeAddress) callGlyph depth.toNat (calleePiece frame)
        appendNewline (formatInto cap timestamp frame depth afterTimestamp appendNewline)) ∧
    ∀ event : EventLine, 0 ≤ event.depth →
      LineFaithful cap (linePrefix timestamp afterTimestamp event.siteAddress) eventGlyph (max event.depth 1).toNat
        event.piece appendNewline (formatEventInto cap timestamp event afterTimestamp appendNewline) := by
  constructor
  · intro frame depth _
    rw [formatInto_eq_buildLine hpos]
    exact lineFaithful_buildLine hpos hcap length_callGlyph _ _
  · intro event _
    rw [formatEventInto_eq_buildLine hpos]
    exact lineFaithful_buildLine hpos hcap length_eventGlyph _ _

/-- A frame whose function is called from line 7. -/
def calledFrame (name : Text) : ResolvedFrameView := ⟨none, name, name, "main.cpp".toList, some 7, none⟩

/-- A line at depth 2 whose tree just fits its buffer. -/
theorem formatters_faithful_cut :
    LineFaithful 20 (linePrefix "12:00".toList [] none) callGlyph 2 (calleePiece (calledFrame "run".toList)) true
      (formatInto 20 "12:00".toList (calledFrame "run".toList) 2 [] true) :=
  (formatters_faithful 20 (by decide) (by decide) "12:00".toList [] true).1 (calledFrame "run".toList) 2 (by decide)

/-- A name longer than an `int` can count is not the beginning of anything that is printed. -/
theorem overlong_name_dropped :
    ¬ ((linePrefix [] [] none).length + treeSegmentWidth * 0 < 64 →
      (formatInto 64 [] (calledFrame (List.replicate 2147483648 'a')) 0 [] false).bytes =
        (linePrefix [] [] none ++ treeText callGlyph 0 ++
          calleePiece (calledFrame (List.replicate 2147483648 'a'))).take 63) := by
  intro h
  have hname : cStr (List.replicate 2147483648 'a') = List.replicate 2147483648 'a' :=
    (List.takeWhile_replicate ..).trans (if_pos (by decide))
  have hlong : intMax < (calleePiece (calledFrame (List.replicate 2147483648 'a'))).length := by
    simp only [calleePiece, calledFrame, hname, List.length_append, List.length_replicate, intMax]
    omega
  have hline := ((formatters_faithful 64 (by decide) (by decide) [] [] false).1
    (calledFrame (List.replicate 2147483648 'a')) 0 (by decide)).overlong (by decide) hlong
  have hlength := congrArg List.length (hline.symm.trans (h (by decide)))
  simp only [List.length_append, List.length_take, Int.toNat_zero, treeText, List.length_nil, if_neg Bool.false_ne_true]
    at hlength
  have hprefix : (linePrefix [] [] none).length = 3 := by decide
  have hcolumn : (linePrefix [] [] (calledFrame (List.replicate 2147483648 'a')).calleeAddress).length = 3 := by decide
  simp only [intMax] at hlong
  omega

end CallStackLogger
