import CallStackLogger.Format.Reader
import CallStackLogger.Trace.State

/-!
# The entries of a trace

A finished line of a trace says when it was written, what its column holds, where the code is, how deep it stands
and what it is about: a call that returned, one that ended otherwise, or an event. An entry holds the same apart
from the depth. Its line is printed from it, and read back from the line whenever nothing else in it looks like a
tree.
-/

namespace CallStackLogger

/-- How a call ended. -/
inductive Ending where
  | returned
  | exception
  | jump
deriving DecidableEq, Repr

/-- The character its line has for a glyph. -/
def Ending.mark : Ending → Char
  | .returned  => '|'
  | .exception => frameEndException
  | .jump      => frameEndJump

inductive EntryKind where
  | call (ending : Ending)
  | event
deriving DecidableEq, Repr

def EntryKind.glyph : EntryKind → Text
  | .call ending => ending.mark :: "_ ".toList
  | .event       => eventGlyph

/-- The tree segments of an entry: an event has its glyph at depth 0, too. -/
def EntryKind.segments (depth : Nat) : EntryKind → Nat
  | .call _ => depth
  | .event  => max depth 1

/-- One line of a trace. The column is the duration of a call or the word of an event. -/
structure Entry where
  stamp : Text
  column : Option Text
  address : Option Text
  kind : EntryKind
  text : Text
deriving DecidableEq, Repr

namespace Entry

def columnPiece : Option Text → Text
  | some column => column ++ [' ']
  | none        => []

def addressPiece : Option Text → Text
  | some digits => addrLabel ++ digits ++ columnEnd
  | none        => []

/-- Everything in front of the tree. -/
def front (e : Entry) : Text := timestampPiece e.stamp ++ columnPiece e.column ++ addressPiece e.address

/-- The line of an entry, without its newline. -/
def body (depth : Nat) (e : Entry) : Text := e.front ++ treeText e.kind.glyph (e.kind.segments depth) ++ e.text

def print (line : Nat × Entry) : Text := line.2.body line.1 ++ ['\n']

/-! ### Reading -/

/-- The ending a glyph stands for. -/
def endingOf (mark : Char) : Ending :=
  if mark = frameEndException then .exception else if mark = frameEndJump then .jump else .returned

/-- What stands behind the timestamp and the column. -/
def behindColumn (b : Build) (line : Text) : Text :=
  line.drop (timestampPrefixWidth + if b.logElapsed then durationFieldWidth + 1 else 0)

def readAddress (b : Build) (rest : Text) : Option Text :=
  if b.logAddr && addrLabel.isPrefixOf rest then some ((rest.drop addrLabel.length).take 16) else none

def readKind (depth : Nat) (mark : Char) (tree : Text) : EntryKind :=
  if depth = 0 then .call .returned
  else if tree[treeSegmentWidth * (depth - 1) + 1]? = some '!' then .event else .call (endingOf mark)

/-- The depth and the entry of a line. -/
def read (b : Build) (line : Text) : Nat × Entry :=
  let rest := behindColumn b line
  let tree := if (readAddress b rest).isSome then rest.drop addrColumnWidth else rest
  let depth := countIndentationDepth line
  (depth, {
    stamp := (line.drop 1).take prettyTimeLength
    column := if b.logElapsed then some ((line.drop timestampPrefixWidth).take durationFieldWidth) else none
    address := readAddress b rest
    kind := readKind depth (treeGlyphOf line) tree
    text := tree.drop (treeSegmentWidth * depth) })

/-! ### What can be read back -/

/-- A character that ends no line and starts no element of a tree. -/
def quiet (c : Char) : Bool := c != '\n' && !opensElement c

/-- The column of a call or of an event: twelve characters, the second of which may be a mark. -/
structure IsColumn (column : Text) : Prop where
  length_eq : column.length = durationFieldWidth
  shape : ∃ mark rest, column = '[' :: mark :: rest ∧ rest.all quiet = true ∧
    (quiet mark = true ∨ mark ≠ '\n' ∧ mark ≠ '|' ∧ ∀ c ∈ rest.head?, c ≠ '_')

/-- The entry can be read back from its line at `depth`: its parts have the widths of the build, and neither its
text nor what stands in front of its tree looks like an element of the tree. -/
structure Legible (b : Build) (depth : Nat) (e : Entry) : Prop where
  stamp : e.stamp.length = prettyTimeLength ∧ e.stamp.all quiet = true
  column : e.column.isSome = b.logElapsed ∧ ∀ column ∈ e.column, IsColumn column
  address : ∀ digits ∈ e.address, b.logAddr = true ∧ ∃ a, digits = hexDigits a
  addressed : ∀ ending, e.kind = .call ending → e.address.isSome = b.logAddr
  nested : e.kind ≠ .call .returned → 1 ≤ depth
  text : '\n' ∉ e.text ∧ isTreeElement e.text = false
  flat : depth = 0 → TreeFree e.text []

section Legible

variable {b : Build} {depth : Nat} {e : Entry}

lemma isGlyph_glyph (kind : EntryKind) : IsGlyph kind.glyph := by
  cases kind with
  | event => exact ⟨rfl, fun _ => rfl, .inr rfl⟩
  | call ending => cases ending <;> exact ⟨rfl, fun _ => rfl, .inl rfl⟩

/-- An entry that can be read back is shown as deep as it stands. -/
lemma Legible.segments_eq (h : Legible b depth e) : e.kind.segments depth = depth := by
  cases hkind : e.kind with
  | call ending => rfl
  | event =>
    have hnested := h.nested (by simp [hkind])
    simp only [EntryKind.segments]
    omega

/-! ### In front of the tree -/

lemma all_quiet_hexDigits (a : Addr) : (hexDigits a).all quiet = true := by
  have hdigit : ∀ n < 16, quiet (Nat.digitChar n) = true := by decide
  refine List.all_eq_true.mpr fun c hc => ?_
  obtain ⟨i, -, rfl⟩ := List.mem_map.mp hc
  exact hdigit _ (Nat.mod_lt _ (by decide))

lemma Legible.all_quiet_stamp (h : Legible b depth e) : (timestampPiece e.stamp).all quiet = true := by
  have hend : columnEnd.all quiet = true := by decide
  have hopen : quiet '[' = true := by decide
  simp [timestampPiece, h.stamp.2, hend, hopen]

lemma Legible.all_quiet_address (h : Legible b depth e) : (addressPiece e.address).all quiet = true := by
  cases haddress : e.address with
  | none => rfl
  | some digits =>
    obtain ⟨-, a, rfl⟩ := h.address digits haddress
    have hlabel : addrLabel.all quiet = true := by decide
    have hend : columnEnd.all quiet = true := by decide
    simp [addressPiece, hlabel, hend, all_quiet_hexDigits]

lemma treeFree_of_quiet {front : Text} (h : front.all quiet = true) (line : Text) : TreeFree front line := by
  refine treeFree_of_not_opens (fun c hc => ?_) line
  have hquiet := List.all_eq_true.mp h c hc
  simp only [quiet, Bool.and_eq_true] at hquiet
  simpa using hquiet.2

/-- The mark in a column does not start an element: what follows it is no part of one. -/
lemma IsColumn.treeFree {column : Text} (h : IsColumn column) (line : Text) :
    TreeFree (column ++ [' ']) line := by
  obtain ⟨mark, rest, rfl, hrest, hmark⟩ := h.shape
  have hblank : (rest ++ [' ']).all quiet = true := by
    have hquiet : quiet ' ' = true := by decide
    simp [hrest, hquiet]
  have hbehind : isTreeElement (mark :: (rest ++ [' '] ++ line)) = false := by
    rcases hmark with hquiet | ⟨-, hbar, hhead⟩
    · simp only [quiet, Bool.and_eq_true] at hquiet
      exact isTreeElement_of_not_opens (by simpa using hquiet.2)
    · obtain ⟨c, rest', rfl⟩ : ∃ c rest', rest = c :: rest' := by
        cases rest with
        | nil => exact absurd h.length_eq (by simp [durationFieldWidth])
        | cons c rest' => exact ⟨c, rest', rfl⟩
      have hc : c ≠ '!' := by
        rintro rfl
        simp [quiet, opensElement] at hrest
      have hbar' : c ≠ '_' := hhead c rfl
      rcases hline : rest' ++ [' '] ++ line with _ | ⟨d, line'⟩
      · simp at hline
      · rw [List.cons_append, List.cons_append, hline]
        simp [isTreeElement, hbar, hbar', hc]
  exact ((treeFree_of_quiet hblank line).cons hbehind).cons (isTreeElement_of_not_opens rfl)

/-- Neither a timestamp nor a column nor an address looks like a tree. -/
lemma Legible.treeFree_front (h : Legible b depth e) (line : Text) : TreeFree e.front line := by
  have hcolumn : TreeFree (columnPiece e.column) (addressPiece e.address ++ line) := by
    cases hcolumn : e.column with
    | none => exact fun s hs hsuffix => absurd (List.suffix_nil.mp hsuffix) hs
    | some column => exact (h.column.2 column hcolumn).treeFree _
  rw [front, List.append_assoc]
  refine (treeFree_of_quiet h.all_quiet_stamp _).append ?_
  exact hcolumn.append (treeFree_of_quiet h.all_quiet_address line)

lemma IsColumn.notMem_newline {column : Text} (h : IsColumn column) : '\n' ∉ column := by
  obtain ⟨mark, rest, rfl, hrest, hmark⟩ := h.shape
  have hrest' : '\n' ∉ rest := fun hmem => absurd (List.all_eq_true.mp hrest _ hmem) (by decide)
  have hmark' : '\n' ≠ mark := by
    rintro rfl
    rcases hmark with hquiet | ⟨hne, -⟩
    · exact absurd hquiet (by decide)
    · exact hne rfl
  simp [hrest', hmark']

/-- An entry that can be read back is one line. -/
lemma Legible.notMem_newline (h : Legible b depth e) : '\n' ∉ e.body depth := by
  have hquiet : ∀ {t : Text}, t.all quiet = true → '\n' ∉ t :=
    fun ht hmem => absurd (List.all_eq_true.mp ht _ hmem) (by decide)
  have hcolumn : '\n' ∉ columnPiece e.column := by
    cases hcolumn : e.column with
    | none => simp [columnPiece]
    | some column => simp [columnPiece, (h.column.2 column hcolumn).notMem_newline]
  have hglyph : '\n' ∉ e.kind.glyph := by
    cases e.kind with
    | event => decide
    | call ending => cases ending <;> decide
  have htree : '\n' ∉ treeText e.kind.glyph (e.kind.segments depth) := by
    cases e.kind.segments depth with
    | zero => simp [treeText]
    | succ n =>
      have hbar : '\n' ∉ treeBar := by decide
      have hbars : '\n' ∉ (List.replicate n treeBar).flatten := by
        intro hmem
        obtain ⟨bar, hbar', hmem⟩ := List.mem_flatten.mp hmem
        rw [List.eq_of_mem_replicate hbar'] at hmem
        exact hbar hmem
      simp [treeText, hbars, hglyph]
  simp only [body, front, List.mem_append, not_or]
  exact ⟨⟨⟨⟨hquiet h.all_quiet_stamp, hcolumn⟩, hquiet h.all_quiet_address⟩, htree⟩, h.text.1⟩

/-! ### The line is read back -/

/-- The tree of an entry with the text behind it. -/
def tree (depth : Nat) (e : Entry) : Text := treeText e.kind.glyph (e.kind.segments depth) ++ e.text

lemma body_eq (depth : Nat) (e : Entry) : e.body depth = e.front ++ e.tree depth := by
  rw [body, tree, List.append_assoc]

lemma Legible.length_column (h : Legible b depth e) :
    (columnPiece e.column).length = if b.logElapsed then durationFieldWidth + 1 else 0 := by
  rw [← h.column.1]
  cases hcolumn : e.column with
  | none => rfl
  | some column => simp [columnPiece, (h.column.2 column hcolumn).length_eq]

lemma Legible.behindColumn_body (h : Legible b depth e) :
    behindColumn b (e.body depth) = addressPiece e.address ++ e.tree depth := by
  have hlength : (timestampPiece e.stamp ++ columnPiece e.column).length =
      timestampPrefixWidth + if b.logElapsed then durationFieldWidth + 1 else 0 := by
    rw [List.length_append, h.length_column, length_timestampPiece, h.stamp.1]
    rfl
  rw [behindColumn, body_eq, front, List.append_assoc, List.drop_left' hlength]

/-- A tree does not start like an address. -/
lemma not_isPrefixOf_treeText (kind : EntryKind) (n : Nat) (text : Text) :
    addrLabel.isPrefixOf (treeText kind.glyph (n + 1) ++ text) = false := by
  cases n with
  | succ n => rfl
  | zero =>
    cases kind with
    | event => rfl
    | call ending => cases ending <;> rfl

lemma Legible.readAddress_eq (h : Legible b depth e) :
    readAddress b (addressPiece e.address ++ e.tree depth) = e.address := by
  cases haddress : e.address with
  | some digits =>
    obtain ⟨hlogs, a, rfl⟩ := h.address digits haddress
    have hlength : (hexDigits a).length = 16 := length_hexDigits a
    have hprefix : addrLabel.isPrefixOf (addrLabel ++ (hexDigits a ++ (columnEnd ++ e.tree depth))) = true :=
      List.isPrefixOf_iff_prefix.mpr (List.prefix_append _ _)
    simp only [addressPiece, List.append_assoc, readAddress, hlogs, hprefix, Bool.and_self, if_true, List.drop_left]
    rw [List.take_left' hlength]
  | none =>
    by_cases hlogs : b.logAddr = true
    · have hevent : e.kind = .event := by
        cases hkind : e.kind with
        | event => rfl
        | call ending =>
          have haddressed := h.addressed ending hkind
          rw [haddress, hlogs] at haddressed
          exact absurd haddressed (by simp)
      obtain ⟨n, hn⟩ : ∃ n, depth = n + 1 := ⟨depth - 1, by have := h.nested (by simp [hevent]); omega⟩
      have hprefix : addrLabel.isPrefixOf (e.tree depth) = false := by
        rw [tree, h.segments_eq, hn]
        exact not_isPrefixOf_treeText e.kind n e.text
      simp [addressPiece, readAddress, hprefix]
    · simp [addressPiece, readAddress, hlogs]

/-- The readers find the depth of an entry and the character of its glyph. -/
lemma Legible.readers (h : Legible b depth e) :
    countIndentationDepth (e.body depth) = depth ∧
      (1 ≤ depth → some (treeGlyphOf (e.body depth)) = e.kind.glyph.head?) := by
  rw [body, h.segments_eq]
  cases depth with
  | zero =>
    have hfront := h.treeFree_front (e.text ++ [])
    have hfree := hfront.append (h.flat rfl)
    refine ⟨?_, fun hdepth => absurd hdepth (by omega)⟩
    rw [treeText, List.append_nil]
    exact (readers_no_tree hfree).1
  | succ n =>
    obtain ⟨hdepth, hglyph⟩ := readers_tree (isGlyph_glyph e.kind) (Nat.succ_pos n) h.text.2
      (h.treeFree_front (treeText e.kind.glyph (n + 1) ++ e.text))
    exact ⟨hdepth, fun _ => hglyph⟩

lemma endingOf_mark (ending : Ending) : endingOf ending.mark = ending := by
  cases ending <;> rfl

/-- The glyph behind the bars of a tree. -/
lemma getElem?_tree (glyph text : Text) (hglyph : IsGlyph glyph) (n : Nat) :
    (treeText glyph (n + 1) ++ text)[treeSegmentWidth * n + 1]? = glyph[1]? := by
  have hbars : ((List.replicate n treeBar).flatten).length = treeSegmentWidth * n := by
    rw [length_flatten_replicate, length_treeBar, Nat.mul_comm]
  have hlength := hglyph.length_eq
  simp only [treeSegmentWidth] at hlength hbars ⊢
  rw [treeText, List.append_assoc, List.getElem?_append_right (by omega), hbars, Nat.add_sub_cancel_left,
    List.getElem?_append_left (by omega)]

lemma Legible.readKind_eq (h : Legible b depth e) :
    readKind depth (treeGlyphOf (e.body depth)) (e.tree depth) = e.kind := by
  rw [readKind]
  cases depth with
  | zero =>
    by_contra hkind
    exact absurd (h.nested (Ne.symm hkind)) (by omega)
  | succ n =>
    have hglyph := h.readers.2 (Nat.succ_pos n)
    rw [if_neg (Nat.succ_ne_zero n), tree, h.segments_eq, Nat.add_sub_cancel, getElem?_tree _ _ (isGlyph_glyph e.kind)]
    cases hkind : e.kind with
    | event => rfl
    | call ending =>
      rw [hkind] at hglyph
      have hmark : treeGlyphOf (e.body (n + 1)) = ending.mark := Option.some.inj hglyph
      have hsecond : (EntryKind.call ending).glyph[1]? ≠ some '!' := by simp [EntryKind.glyph]
      rw [if_neg hsecond, hmark, endingOf_mark]

/-- An entry is what its line is read back as, with the depth it was printed at. -/
lemma Legible.read_body (h : Legible b depth e) : read b (e.body depth) = (depth, e) := by
  have hdepth := h.readers.1
  have hstamp : ((e.body depth).drop 1).take prettyTimeLength = e.stamp := by
    rw [body_eq, front, timestampPiece]
    simp only [List.cons_append, List.append_assoc, List.drop_succ_cons, List.drop_zero]
    exact List.take_left' h.stamp.1
  have hcolumn : (if b.logElapsed then
      some (((e.body depth).drop timestampPrefixWidth).take durationFieldWidth) else none) = e.column := by
    rw [← h.column.1]
    cases hcolumn : e.column with
    | none => rfl
    | some column =>
      have hlength : (timestampPiece e.stamp).length = timestampPrefixWidth := by
        rw [length_timestampPiece, h.stamp.1]
        rfl
      rw [Option.isSome_some, if_pos rfl, body_eq, front, hcolumn, columnPiece, List.append_assoc, List.append_assoc,
        List.append_assoc, List.drop_left' hlength, List.take_left' (h.column.2 column hcolumn).length_eq]
  have htree : (if e.address.isSome = true then (addressPiece e.address ++ e.tree depth).drop addrColumnWidth
      else addressPiece e.address ++ e.tree depth) = e.tree depth := by
    cases haddress : e.address with
    | none => rfl
    | some digits =>
      obtain ⟨-, a, rfl⟩ := h.address digits haddress
      have hlength : (addressPiece (some (hexDigits a))).length = addrColumnWidth := by
        simp [addressPiece, addrColumnWidth]
      rw [Option.isSome_some, if_pos rfl, List.drop_left' hlength]
  have htext : (e.tree depth).drop (treeSegmentWidth * depth) = e.text := by
    rw [tree, h.segments_eq]
    exact List.drop_left' (length_treeText (isGlyph_glyph e.kind).length_eq depth)
  simp only [read, h.behindColumn_body, h.readAddress_eq, hdepth, hstamp, hcolumn, htree, htext, h.readKind_eq]

end Legible

end Entry

end CallStackLogger
