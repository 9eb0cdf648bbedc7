import CallStackLogger.Format.Line

/-!
# The layout of a call line

Where the pieces of a formatted call line end up. Everything in front of the tree has a fixed
width, so that the tree starts at a known column; the tree is cut short when the buffer runs
out, and then the line has no `"|_ "`. `formatInto_layout` says so for every depth and capacity.
-/

namespace CallStackLogger

namespace LineBuffer

variable (B : LineBuffer)

/-- The committed bytes leave room for one more. -/
def HasRoom : Prop := B.pos < B.cap

@[simp] lemma piece_cap (w : Text) : (B.piece w).cap = B.cap := by
  simp only [piece]
  split_ifs <;> rfl

@[simp] lemma piece_glyph (w : Text) : (B.piece w).glyph = B.glyph := by
  simp only [piece]
  split_ifs <;> rfl

@[simp] lemma clampedPiece_cap (w : Text) : (B.clampedPiece w).cap = B.cap := by
  simp only [clampedPiece]
  split_ifs <;> rfl

@[simp] lemma clampedPiece_glyph (w : Text) : (B.clampedPiece w).glyph = B.glyph := by
  simp only [clampedPiece]
  split_ifs <;> rfl

@[simp] lemma treeGlyph_cap (w : Text) : (B.treeGlyph w).cap = B.cap := by
  simp only [treeGlyph]
  split_ifs <;> rfl

@[simp] lemma newline_bytes : B.newline.bytes = B.bytes ++ ['\n'] := rfl

@[simp] lemma newline_glyph : B.newline.glyph = B.glyph := rfl

/-- The buffer holds the text `w` and no tree yet. -/
structure Holds (cap : Nat) (w : Text) : Prop where
  cap_eq : B.cap = cap
  bytes_eq : B.bytes = w
  glyph_eq : B.glyph = none

variable {B} in
/-- A piece that fits is kept. -/
lemma Holds.piece {cap : Nat} {w v : Text} (h : B.Holds cap w) (hv : v ≠ [])
    (hfit : w.length + v.length < cap) (hcap : cap ≤ intMax) : (B.piece v).Holds cap (w ++ v) := by
  obtain ⟨hcap_eq, hbytes, hglyph⟩ := h
  have hpos : 0 < v.length := List.length_pos_iff.mpr hv
  have hint : v.length ≤ intMax := by omega
  have hkept : 0 < snprintfResult v ∧ snprintfResult v < B.remaining := by
    simp only [snprintfResult, hint, if_true, remaining, pos, hbytes, hcap_eq]
    omega
  refine ⟨by simpa using hcap_eq, ?_, by simpa using hglyph⟩
  simp only [LineBuffer.piece, hkept, and_self, if_true, hbytes]

/-- A clamped piece appends a part of its text and leaves room for the newline. -/
lemma clampedPiece_bytes (h : B.HasRoom) (w : Text) :
    ∃ part, (B.clampedPiece w).bytes = B.bytes ++ part ∧ (B.clampedPiece w).HasRoom := by
  simp only [HasRoom, pos, clampedPiece, remaining] at h ⊢
  split_ifs
  · refine ⟨_, rfl, ?_⟩
    simp only [List.length_append, List.length_take]
    omega
  · exact ⟨[], by simp, h⟩

/-- `B'` is `B` with `k` segments of the tree behind it. -/
structure Indented (B B' : LineBuffer) (k : Nat) : Prop where
  cap_eq : B'.cap = B.cap
  glyph_eq : B'.glyph = B.glyph
  room : B'.HasRoom
  bars : ∃ bars : Text, bars.length = treeSegmentWidth * k ∧ B'.bytes = B.bytes ++ bars

/-- The indentation stops after its rounds, or when no segment fits any more. -/
lemma indent_indented {w : Text} (hw : w.length = treeSegmentWidth) (h : B.HasRoom) (n : Nat) :
    ∃ k ≤ n, Indented B (B.indent w n) k ∧
      (k = n ∨ (B.indent w n).remaining ≤ treeSegmentWidth) := by
  induction n generalizing B with
  | zero => exact ⟨0, Nat.le_refl 0, ⟨rfl, rfl, h, [], by simp, by simp [indent]⟩, .inl rfl⟩
  | succ n ih =>
    by_cases hfits : treeSegmentWidth < B.remaining
    · have hroom : (B.segment w).HasRoom := by
        simp only [HasRoom, pos, segment, List.length_append, hw]
        simp only [remaining, pos] at hfits
        omega
      obtain ⟨k, hk, ⟨hcap, hglyph, hroom', bars, hbars, hbytes⟩, hstop⟩ := ih (B.segment w) hroom
      simp only [indent, hfits, if_true]
      refine ⟨k + 1, by omega, ⟨hcap, hglyph, hroom', w ++ bars, ?_, ?_⟩, ?_⟩
      · rw [List.length_append, hw, hbars, Nat.mul_succ, Nat.add_comm]
      · rw [hbytes]
        simp [segment]
      · rcases hstop with rfl | hstop
        · exact .inl rfl
        · exact .inr hstop
    · have hstop : B.indent w (n + 1) = B := by simp [indent, hfits]
      rw [hstop]
      exact ⟨0, Nat.zero_le _, ⟨rfl, rfl, h, [], by simp, by simp⟩, .inr (Nat.not_lt.mp hfits)⟩

/-- The glyph goes where the indentation stopped when there is room for it. -/
lemma treeGlyph_of_fits {w : Text} (hfits : treeSegmentWidth < B.remaining) :
    (B.treeGlyph w).bytes = B.bytes ++ w ∧ (B.treeGlyph w).glyph = some B.pos := by
  simp [treeGlyph, hfits, segment]

lemma treeGlyph_of_not_fits {w : Text} (hfits : ¬ treeSegmentWidth < B.remaining) :
    B.treeGlyph w = B := by
  simp [treeGlyph, hfits]

end LineBuffer

open LineBuffer

/-! ### The prefix -/

@[simp] lemma length_columnEnd : columnEnd.length = 2 := rfl

@[simp] lemma length_addrLabel : addrLabel.length = 9 := rfl

@[simp] lemma length_hexDigits (a : Addr) : (hexDigits a).length = 16 := by
  simp [hexDigits]

@[simp] lemma length_timestampPiece (timestamp : Text) :
    (timestampPiece timestamp).length = timestamp.length + 3 := by
  simp [timestampPiece]

@[simp] lemma length_addrPiece (a : Addr) : (addrPiece a).length = addrColumnWidth := by
  simp [addrPiece, addrColumnWidth]

/-- The optional address column. -/
def addrColumn : Option Addr → Text
  | some a => addrPiece a
  | none   => []

/-- Everything in front of the tree. -/
def linePrefix (timestamp afterTimestamp : Text) (address : Option Addr) : Text :=
  timestampPiece timestamp ++ afterTimestamp ++ addrColumn address

/-- A prefix that fits is written whole. -/
lemma formatPrefix_holds {cap : Nat} (timestamp afterTimestamp : Text) (address : Option Addr)
    (hfit : (linePrefix timestamp afterTimestamp address).length < cap)
    (hcap : cap ≤ intMax) :
    (formatPrefix { cap := cap } timestamp afterTimestamp address).Holds cap
      (linePrefix timestamp afterTimestamp address) := by
  simp only [linePrefix, List.length_append, length_timestampPiece] at hfit
  have hempty : ({ cap := cap } : LineBuffer).Holds cap [] := ⟨rfl, rfl, rfl⟩
  have hstamp := hempty.piece (v := timestampPiece timestamp) (by simp [timestampPiece])
    (by simp only [List.length_nil, length_timestampPiece]; omega) hcap
  have hafter : ∀ B : LineBuffer, B.Holds cap (timestampPiece timestamp) →
      (if afterTimestamp ≠ [] ∧ 0 < B.remaining then B.piece afterTimestamp else B).Holds cap
        (timestampPiece timestamp ++ afterTimestamp) := by
    intro B hB
    by_cases hnil : afterTimestamp = []
    · simpa [hnil] using hB
    · have hroom : 0 < B.remaining := by
        rw [remaining, pos, hB.cap_eq, hB.bytes_eq, length_timestampPiece]
        omega
      rw [if_pos ⟨hnil, hroom⟩]
      exact hB.piece hnil (by rw [length_timestampPiece]; omega) hcap
  have hcolumn : ∀ B : LineBuffer, B.Holds cap (timestampPiece timestamp ++ afterTimestamp) →
      (match address with
        | some a => if 0 < B.remaining then B.piece (addrPiece a) else B
        | none   => B).Holds cap (linePrefix timestamp afterTimestamp address) := by
    intro B hB
    cases address with
    | none => simpa [linePrefix, addrColumn] using hB
    | some a =>
      simp only [addrColumn, length_addrPiece] at hfit
      have hroom : 0 < B.remaining := by
        rw [remaining, pos, hB.cap_eq, hB.bytes_eq, List.length_append, length_timestampPiece]
        omega
      have hne : addrPiece a ≠ [] := List.ne_nil_of_length_pos (by simp [addrColumnWidth])
      simp only [if_pos hroom]
      refine hB.piece hne ?_ hcap
      rw [List.length_append, length_timestampPiece, length_addrPiece]
      exact hfit
  exact hcolumn _ (hafter _ hstamp)

@[simp] lemma length_linePrefix (timestamp afterTimestamp : Text) (address : Option Addr) :
    (linePrefix timestamp afterTimestamp address).length =
      timestamp.length + 3 + afterTimestamp.length + (addrColumn address).length := by
  simp [linePrefix, Nat.add_assoc]

/-! ### The tree and the line -/

lemma length_treeBar : treeBar.length = treeSegmentWidth := rfl

lemma length_callGlyph : callGlyph.length = treeSegmentWidth := rfl

/-- The column of the glyph of a line at `depth` whose tree starts at `width`. -/
def glyphColumn (width : Nat) (depth : Int) : Nat := width + treeSegmentWidth * (depth - 1).toNat

/-- A line at `depth` has its glyph when the tree leaves room for the rest. -/
def GlyphFits (cap width : Nat) (depth : Int) : Prop :=
  1 ≤ depth ∧ width + treeSegmentWidth * depth < cap

instance (cap width : Nat) (depth : Int) : Decidable (GlyphFits cap width depth) :=
  inferInstanceAs (Decidable (_ ∧ _))

/-- The layout of a line: its prefix, the tree with the glyph where it fits, and the end. -/
structure LineLayout (cap : Nat) (linePre : Text) (depth : Int) (text : Text)
    (glyph : Option Nat) : Prop where
  length_le : text.length ≤ cap
  starts : ∃ rest, rest ≠ [] ∧ text = linePre ++ rest
  glyph_eq : glyph =
    if GlyphFits cap linePre.length depth then some (glyphColumn linePre.length depth) else none
  glyph_bytes : ∀ g, glyph = some g → ∃ before after, text = before ++ callGlyph ++ after ∧
    before.length = g

/-- The tree of a line: its bars and its glyph. -/
def formatTree (B : LineBuffer) (depth : Int) : LineBuffer :=
  let B := B.indent treeBar (depth - 1).toNat
  if 0 < depth then B.treeGlyph callGlyph else B

/-- A buffer that holds a prefix and the tree behind it. -/
structure HoldsTree (B : LineBuffer) (cap : Nat) (w : Text) (depth : Int) : Prop where
  cap_eq : B.cap = cap
  room : B.HasRoom
  starts : ∃ tree, B.bytes = w ++ tree
  glyph_eq : B.glyph = if GlyphFits cap w.length depth then some (glyphColumn w.length depth) else none
  glyph_bytes : ∀ g, B.glyph = some g → ∃ before, B.bytes = before ++ callGlyph ∧ before.length = g

/-- The glyph goes behind `k` of the `n` bars of a line at depth `n + 1`, unless it is there that
the room ends. -/
lemma treeGlyph_holdsTree {cap n k : Nat} {w bars : Text} {B : LineBuffer} (hcap : B.cap = cap)
    (hglyph : B.glyph = none) (hroom : B.HasRoom) (hbars : bars.length = treeSegmentWidth * k)
    (hbytes : B.bytes = w ++ bars) (hk : k ≤ n) (hstop : k = n ∨ B.remaining ≤ treeSegmentWidth) :
    HoldsTree (B.treeGlyph callGlyph) cap w (n + 1) := by
  have hpos : B.pos = w.length + treeSegmentWidth * k := by
    rw [pos, hbytes, List.length_append, hbars]
  have hremaining : B.remaining = cap - (w.length + treeSegmentWidth * k) := by
    rw [remaining, hcap, hpos]
  by_cases hfits : treeSegmentWidth < B.remaining
  · obtain ⟨hglyphBytes, hglyphAt⟩ := B.treeGlyph_of_fits (w := callGlyph) hfits
    have hk : k = n := hstop.resolve_right (Nat.not_le.mpr hfits)
    rw [hremaining] at hfits
    have hcol : GlyphFits cap w.length (n + 1) := by
      simp only [treeSegmentWidth] at hfits
      refine ⟨by omega, ?_⟩
      simp only [treeSegmentWidth]
      omega
    refine ⟨by rw [treeGlyph_cap, hcap], ?_, ?_, ?_, ?_⟩
    · rw [HasRoom, treeGlyph_cap, pos, hglyphBytes, hbytes, List.length_append, List.length_append,
        hbars, length_callGlyph, hcap]
      omega
    · exact ⟨bars ++ callGlyph, by rw [hglyphBytes, hbytes, List.append_assoc]⟩
    · rw [hglyphAt, if_pos hcol, hpos, hk, glyphColumn]
      simp
    · intro g hg
      exact ⟨_, hglyphBytes, Option.some.inj (hglyphAt.symm.trans hg)⟩
  · have hcol : ¬ GlyphFits cap w.length (n + 1) := by
      intro h
      have hlt := h.2
      rw [hremaining] at hfits
      simp only [treeSegmentWidth] at hfits hlt
      omega
    rw [B.treeGlyph_of_not_fits hfits]
    refine ⟨hcap, hroom, ⟨bars, hbytes⟩, by rw [hglyph, if_neg hcol], ?_⟩
    intro g hg
    exact absurd (hglyph.symm.trans hg) (by simp)

/-- The tree behind a prefix that fits. -/
lemma formatTree_holdsTree {cap : Nat} {w : Text} {B : LineBuffer} (hB : B.Holds cap w)
    (hw : w.length < cap) (depth : Int) : HoldsTree (formatTree B depth) cap w depth := by
  have hroom : B.HasRoom := by
    rw [HasRoom, pos, hB.bytes_eq, hB.cap_eq]
    exact hw
  obtain ⟨k, hk, ⟨hcap, hglyph, hroom', bars, hbars, hbytes⟩, hstop⟩ :=
    B.indent_indented length_treeBar hroom (depth - 1).toNat
  rw [hB.cap_eq] at hcap
  rw [hB.glyph_eq] at hglyph
  rw [hB.bytes_eq] at hbytes
  by_cases hdepth : 0 < depth
  · have htree := treeGlyph_holdsTree hcap hglyph hroom' hbars hbytes hk hstop
    have hsucc : (((depth - 1).toNat : Nat) : Int) + 1 = depth := by omega
    rw [hsucc] at htree
    simpa only [formatTree, if_pos hdepth] using htree
  · have hcol : ¬ GlyphFits cap w.length depth := fun h => hdepth h.1
    simp only [formatTree, if_neg hdepth]
    refine ⟨hcap, hroom', ⟨bars, hbytes⟩, by rw [hglyph, if_neg hcol], ?_⟩
    intro g hg
    exact absurd (hglyph.symm.trans hg) (by simp)

/-- A formatted call line is laid out as its depth and its prefix say. -/
theorem formatInto_layout (cap : Nat) (timestamp : Text) (frame : ResolvedFrameView)
    (depth : Int) (afterTimestamp : Text) (hcap : cap ≤ intMax)
    (hfit : (linePrefix timestamp afterTimestamp frame.calleeAddress).length < cap) :
    LineLayout cap (linePrefix timestamp afterTimestamp frame.calleeAddress) depth
      (formatInto cap timestamp frame depth afterTimestamp true).bytes
      (formatInto cap timestamp frame depth afterTimestamp true).glyph := by
  have hpre := formatPrefix_holds timestamp afterTimestamp frame.calleeAddress hfit hcap
  obtain ⟨hcap', hroom, ⟨tree, htree⟩, hglyph, hbytes⟩ := formatTree_holdsTree hpre hfit depth
  generalize hT : formatTree (formatPrefix { cap := cap } timestamp afterTimestamp
    frame.calleeAddress) depth = T at hcap' hroom htree hglyph hbytes
  have hline : formatInto cap timestamp frame depth afterTimestamp true =
      (T.clampedPiece (calleePiece frame)).newline := by
    have hpos : cap ≠ 0 := by omega
    have hremaining : 0 < T.remaining := Nat.sub_pos_of_lt hroom
    rw [← hT] at hremaining ⊢
    simp only [formatInto, hpos, if_false, if_true]
    exact if_pos hremaining ▸ rfl
  obtain ⟨part, hpart, hroom'⟩ := T.clampedPiece_bytes hroom (calleePiece frame)
  rw [hline, newline_glyph, clampedPiece_glyph, newline_bytes, hpart]
  refine ⟨?_, ?_, hglyph, ?_⟩
  · rw [HasRoom, pos, hpart, clampedPiece_cap, hcap'] at hroom'
    simp only [List.length_append, List.length_singleton] at hroom' ⊢
    omega
  · exact ⟨tree ++ part ++ ['\n'], by simp, by simp [htree]⟩
  · intro g hg
    obtain ⟨before, hbefore, hlen⟩ := hbytes g hg
    exact ⟨before, part ++ ['\n'], by simp [hbefore], hlen⟩

end CallStackLogger
