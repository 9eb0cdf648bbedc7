import CallStackLogger.Core.Scan

/-!
# Forests and their listings

A forest listed line by line, every label with its depth, a node in front of what is under it. The listing
holds the whole forest: `rebuild` reads the lines from the last to the first and puts under each of them
the trees that follow it at a greater depth.
-/

universe u

/-- An ordered forest: the first tree, by its label and what is under it, and the trees behind it. -/
inductive Forest (α : Type u) where
  | nil
  | node (label : α) (children rest : Forest α)
deriving DecidableEq, Repr

namespace Forest

variable {α : Type u}

/-- The trees of one forest and then those of another. -/
def append : Forest α → Forest α → Forest α
  | nil, g                   => g
  | node a children rest, g  => node a children (rest.append g)

instance : Append (Forest α) := ⟨append⟩

@[simp] lemma nil_append (g : Forest α) : nil ++ g = g := rfl

@[simp] lemma node_append (a : α) (children rest g : Forest α) :
    node a children rest ++ g = node a children (rest ++ g) := rfl

/-- Every label with its depth, from the first line to the last. -/
def listing : Nat → Forest α → List (Nat × α)
  | _, nil                  => []
  | d, node a children rest => (d, a) :: (listing (d + 1) children ++ listing d rest)

@[simp] lemma listing_nil (d : Nat) : listing d (nil : Forest α) = [] := rfl

lemma listing_append (d : Nat) (f g : Forest α) : listing d (f ++ g) = listing d f ++ listing d g := by
  induction f with
  | nil => rfl
  | node a children rest _ ih => simp [listing, ih]

/-! ### Reading a listing back -/

/-- A tree that stands at some depth of a listing. -/
structure Placed (α : Type u) where
  depth : Nat
  label : α
  children : Forest α

/-- The trees of a forest that starts at the depth `d`. -/
def placed (d : Nat) : Forest α → List (Placed α)
  | nil                  => []
  | node a children rest => ⟨d, a, children⟩ :: placed d rest

/-- The forest of some trees, wherever they stand. -/
def gather : List (Placed α) → Forest α
  | []      => nil
  | t :: ts => node t.label t.children (gather ts)

/-- One more line in front: the deeper trees that follow it go under it. -/
def plant (line : Nat × α) (trees : List (Placed α)) : List (Placed α) :=
  ⟨line.1, line.2, gather (trees.takeWhile fun t => line.1 < t.depth)⟩
    :: trees.dropWhile fun t => line.1 < t.depth

/-- The forest of a listing. -/
def rebuild (lines : List (Nat × α)) : Forest α := gather (lines.foldr plant [])

@[simp] lemma gather_placed (d : Nat) (f : Forest α) : gather (placed d f) = f := by
  induction f with
  | nil => rfl
  | node a children rest _ ih => simp [placed, gather, ih]

lemma depth_of_mem_placed {d : Nat} {f : Forest α} {t : Placed α} (ht : t ∈ placed d f) : t.depth = d := by
  induction f with
  | nil => simp [placed] at ht
  | node a children rest _ ih =>
    rcases List.mem_cons.mp ht with rfl | ht
    · rfl
    · exact ih ht

/-- The trees that stand under a line end in front of the next one that is no deeper. -/
lemma plant_placed {d : Nat} (a : α) (children : Forest α) {trees : List (Placed α)}
    (htrees : ∀ t ∈ trees.head?, t.depth ≤ d) :
    plant (d, a) (placed (d + 1) children ++ trees) = ⟨d, a, children⟩ :: trees := by
  have hdeeper : ∀ t ∈ placed (d + 1) children, decide (d < t.depth) = true := by
    intro t ht
    simp [depth_of_mem_placed ht]
  have hstop : ∀ t ∈ trees.head?, decide (d < t.depth) = false :=
    fun t ht => decide_eq_false (Nat.not_lt.mpr (htrees t ht))
  rw [plant, Scan.takeWhile_append_of_head hstop, Scan.dropWhile_append_of_head hstop,
    List.takeWhile_eq_self_iff.mpr hdeeper, List.dropWhile_eq_nil_iff.mpr hdeeper, List.nil_append, gather_placed]

/-- A listed forest is put back in front of whatever stands behind it. -/
lemma foldr_plant_listing {d : Nat} (f : Forest α) {trees : List (Placed α)}
    (htrees : ∀ t ∈ trees.head?, t.depth ≤ d) :
    (listing d f).foldr plant trees = placed d f ++ trees := by
  induction f generalizing d trees with
  | nil => rfl
  | node a children rest ihChildren ihRest =>
    have hrest : ∀ t ∈ (placed d rest ++ trees).head?, t.depth ≤ d := by
      intro t ht
      cases hplaced : placed d rest with
      | nil => exact htrees t (by simpa [hplaced] using ht)
      | cons first others =>
        obtain rfl : first = t := by simpa [hplaced] using ht
        exact Nat.le_of_eq (depth_of_mem_placed (hplaced ▸ List.mem_cons_self))
    have hchildren : ∀ t ∈ (placed d rest ++ trees).head?, t.depth ≤ d + 1 :=
      fun t ht => Nat.le_succ_of_le (hrest t ht)
    rw [listing, List.foldr_cons, List.foldr_append, ihRest htrees, ihChildren hchildren, plant_placed a _ hrest]
    rfl

/-- A forest is what its listing is read back as. -/
lemma rebuild_listing (d : Nat) (f : Forest α) : rebuild (listing d f) = f := by
  have h : (listing d f).foldr plant [] = placed d f ++ [] := foldr_plant_listing f (by simp)
  rw [rebuild, h, List.append_nil, gather_placed]

end Forest
