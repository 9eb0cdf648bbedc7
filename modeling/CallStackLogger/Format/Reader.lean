import CallStackLogger.Format.Ideal

/-!
# Reading the tree of a line

`is_tree_element`, `count_indentation_depth` and `tree_glyph_of`, which the tests of the repository read a trace
with: both look for the first three characters that are an element of a tree and count on from there. They find
the tree of a line as long as nothing in front of it looks like an element.
-/

namespace CallStackLogger

/-- `is_tree_element`, of what stands from a position on. -/
def isTreeElement : Text → Bool
  | c :: d :: e :: _ =>
    (c == '|' && d == ' ' && e == ' ') || (c == '!' && d == '!' && e == ' ')
      || ((c == '|' || c == '!' || c == '~') && d == '_' && e == ' ')
  | _                => false

/-- `while (pos + 2 < line.size() && !is_tree_element(line, pos)) ++pos`: what is left of the line. -/
def skipToTree : Text → Text
  | []        => []
  | c :: line => if 2 ≤ line.length ∧ isTreeElement (c :: line) = false then skipToTree line else c :: line

/-- `while (is_tree_element(line, pos)) { ++depth; pos += 3; }`. -/
def countElements : Text → Nat
  | c :: d :: e :: line => if isTreeElement (c :: d :: e :: line) then countElements line + 1 else 0
  | _                   => 0

/-- `count_indentation_depth`. -/
def countIndentationDepth (line : Text) : Nat := countElements (skipToTree line)

/-- The first of the elements that is not a bar. -/
def glyphOfElements : Text → Char
  | c :: d :: e :: line =>
    if isTreeElement (c :: d :: e :: line) then
      if d = '_' ∨ d = '!' then c else glyphOfElements line
    else '\x00'
  | _                   => '\x00'

/-- `tree_glyph_of`. -/
def treeGlyphOf (line : Text) : Char := glyphOfElements (skipToTree line)

/-! ### Behind what is no element -/

/-- Nothing from a position of `front` on is an element, whatever of `line` it needs for that. -/
def TreeFree (front line : Text) : Prop := ∀ s, s ≠ [] → s <:+ front → isTreeElement (s ++ line) = false

variable {front line : Text} {c : Char}

lemma countElements_of_not (h : isTreeElement line = false) : countElements line = 0 := by
  match line with
  | []               => rfl
  | [_]              => rfl
  | [_, _]           => rfl
  | c :: d :: e :: _ => rw [countElements, h, if_neg Bool.false_ne_true]

lemma glyphOfElements_of_not (h : isTreeElement line = false) : glyphOfElements line = '\x00' := by
  match line with
  | []               => rfl
  | [_]              => rfl
  | [_, _]           => rfl
  | c :: d :: e :: _ => rw [glyphOfElements, h, if_neg Bool.false_ne_true]

lemma isTreeElement_of_short (h : line.length < 3) : isTreeElement line = false := by
  match line with
  | []               => rfl
  | [_]              => rfl
  | [_, _]           => rfl
  | _ :: _ :: _ :: _ =>
    simp only [List.length_cons] at h
    omega

/-- What is too short for an element is not skipped, and holds none. -/
lemma isTreeElement_skipToTree_of_short (h : line.length < 3) : isTreeElement (skipToTree line) = false := by
  cases line with
  | nil => rfl
  | cons c line =>
    have hshort : ¬ (2 ≤ line.length ∧ isTreeElement (c :: line) = false) := by
      rw [List.length_cons] at h
      omega
    rw [skipToTree, if_neg hshort]
    exact isTreeElement_of_short h

/-- A position that is no element is passed by both readers. -/
lemma readers_cons (h : isTreeElement (c :: line) = false) :
    countIndentationDepth (c :: line) = countIndentationDepth line ∧ treeGlyphOf (c :: line) = treeGlyphOf line := by
  by_cases hlong : 2 ≤ line.length
  · simp only [countIndentationDepth, treeGlyphOf, skipToTree, hlong, h, if_true, and_self]
  · have hskip : isTreeElement (skipToTree line) = false := isTreeElement_skipToTree_of_short (by omega)
    have hstay : skipToTree (c :: line) = c :: line := by
      rw [skipToTree, if_neg fun hcond => hlong hcond.1]
    rw [countIndentationDepth, countIndentationDepth, treeGlyphOf, treeGlyphOf, hstay, countElements_of_not h,
      countElements_of_not hskip, glyphOfElements_of_not h, glyphOfElements_of_not hskip]
    exact ⟨rfl, rfl⟩

lemma TreeFree.tail (h : TreeFree (c :: front) line) : TreeFree front line :=
  fun s hs hsuffix => h s hs (hsuffix.trans (List.suffix_cons c front))

/-- The readers do not see what stands in front of the tree. -/
lemma TreeFree.readers (h : TreeFree front line) :
    countIndentationDepth (front ++ line) = countIndentationDepth line ∧
      treeGlyphOf (front ++ line) = treeGlyphOf line := by
  induction front with
  | nil => exact ⟨rfl, rfl⟩
  | cons c front ih =>
    obtain ⟨hdepth, hglyph⟩ := readers_cons (h (c :: front) (by simp) (List.suffix_refl _))
    obtain ⟨hdepth', hglyph'⟩ := ih h.tail
    exact ⟨hdepth.trans hdepth', hglyph.trans hglyph'⟩

/-- The characters an element can start with. -/
def opensElement (c : Char) : Bool := c == '|' || c == '!' || c == '~'

lemma isTreeElement_of_not_opens (h : opensElement c = false) : isTreeElement (c :: line) = false := by
  have hne : c ≠ '|' ∧ c ≠ '!' ∧ c ≠ '~' := by simpa [opensElement, and_assoc] using h
  obtain ⟨hbar, hmark, htilde⟩ := hne
  match line with
  | []          => rfl
  | [_]         => rfl
  | _ :: _ :: _ => simp [isTreeElement, hbar, hmark, htilde]

/-- Only what can start an element has to be looked at. -/
lemma treeFree_of_not_opens (h : ∀ c ∈ front, opensElement c = false) (line : Text) : TreeFree front line := by
  intro s hs hsuffix
  cases s with
  | nil => exact absurd rfl hs
  | cons c s => exact isTreeElement_of_not_opens (h c (hsuffix.subset List.mem_cons_self))

lemma TreeFree.cons (h : TreeFree front line) (hc : isTreeElement (c :: (front ++ line)) = false) :
    TreeFree (c :: front) line := by
  intro s hs hsuffix
  rcases List.suffix_cons_iff.mp hsuffix with rfl | hsuffix
  · exact hc
  · exact h s hs hsuffix

lemma TreeFree.append {front' : Text} (h : TreeFree front (front' ++ line)) (h' : TreeFree front' line) :
    TreeFree (front ++ front') line := by
  induction front with
  | nil => exact h'
  | cons c front ih =>
    have hc : isTreeElement (c :: (front ++ front' ++ line)) = false := by
      rw [List.append_assoc]
      exact h (c :: front) (by simp) (List.suffix_refl _)
    exact (ih h.tail).cons hc

/-! ### The tree -/

/-- A glyph: three characters that end the tree of a line. -/
structure IsGlyph (glyph : Text) : Prop where
  length_eq : glyph.length = treeSegmentWidth
  element : ∀ text, isTreeElement (glyph ++ text) = true
  ends : glyph[1]? = some '_' ∨ glyph[1]? = some '!'

variable {glyph text : Text}

lemma countElements_treeText (hglyph : IsGlyph glyph) (htext : isTreeElement text = false) (d : Nat) :
    countElements (treeText glyph d ++ text) = d := by
  have hlast : countElements (glyph ++ text) = 1 := by
    obtain ⟨c, d, e, rfl⟩ := List.length_eq_three.mp hglyph.length_eq
    have helement : isTreeElement (c :: d :: e :: text) = true := hglyph.element text
    rw [List.cons_append, List.cons_append, List.cons_append, List.nil_append, countElements, if_pos helement,
      countElements_of_not htext]
  cases d with
  | zero => exact countElements_of_not htext
  | succ n =>
    rw [treeText, List.append_assoc]
    induction n with
    | zero => exact hlast
    | succ n ih =>
      rw [List.replicate_succ, List.flatten_cons, List.append_assoc]
      show (countElements ((List.replicate n treeBar).flatten ++ (glyph ++ text))) + 1 = n + 1 + 1
      rw [ih]

lemma glyphOfElements_treeText (hglyph : IsGlyph glyph) (n : Nat) (text : Text) :
    some (glyphOfElements (treeText glyph (n + 1) ++ text)) = glyph.head? := by
  rw [treeText, List.append_assoc]
  induction n with
  | zero =>
    obtain ⟨c, d, e, rfl⟩ := List.length_eq_three.mp hglyph.length_eq
    have helement : isTreeElement (c :: d :: e :: text) = true := hglyph.element text
    have hends : d = '_' ∨ d = '!' := by simpa using hglyph.ends
    simp [glyphOfElements, helement, hends]
  | succ n ih =>
    rw [List.replicate_succ, List.flatten_cons, List.append_assoc]
    exact ih

/-- A tree that is not empty starts with an element. -/
lemma isTreeElement_treeText (hglyph : IsGlyph glyph) (n : Nat) (text : Text) :
    isTreeElement (treeText glyph (n + 1) ++ text) = true := by
  rw [treeText, List.append_assoc]
  cases n with
  | zero => exact hglyph.element text
  | succ n => rfl

lemma skipToTree_of_element (h : isTreeElement line = true) : skipToTree line = line := by
  cases line with
  | nil => rfl
  | cons c line => rw [skipToTree, if_neg fun hcond => absurd (h.symm.trans hcond.2) (by simp)]

/-- The readers find depth and glyph of a line with a tree. -/
lemma readers_tree (hglyph : IsGlyph glyph) {d : Nat} (hd : 1 ≤ d) (htext : isTreeElement text = false)
    (hfree : TreeFree front (treeText glyph d ++ text)) :
    countIndentationDepth (front ++ treeText glyph d ++ text) = d ∧
      some (treeGlyphOf (front ++ treeText glyph d ++ text)) = glyph.head? := by
  obtain ⟨n, rfl⟩ : ∃ n, d = n + 1 := ⟨d - 1, by omega⟩
  obtain ⟨hdepth, hmark⟩ := hfree.readers
  have htree := isTreeElement_treeText hglyph n text
  rw [List.append_assoc, hdepth, hmark, countIndentationDepth, treeGlyphOf, skipToTree_of_element htree]
  exact ⟨countElements_treeText hglyph htext _, glyphOfElements_treeText hglyph n text⟩

/-- They find no tree in a line that has none. -/
lemma readers_no_tree (hfree : TreeFree line []) :
    countIndentationDepth line = 0 ∧ treeGlyphOf line = '\x00' := by
  have h := hfree.readers
  rw [List.append_nil] at h
  exact h

end CallStackLogger
