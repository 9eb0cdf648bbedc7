import Mathlib.Data.List.Nodup

/-!
# Maps whose nodes stay

A map that is only ever added to, and whose nodes keep their places: a place that was handed out once can
be read ever after. `find?` gives the place of a key, `emplace` finds it or makes one.
-/

/-- At most one node for every key. -/
structure NodeMap (κ ν : Type*) where
  nodes : List (κ × ν) := []
  distinct : (nodes.map Prod.fst).Nodup := by exact List.nodup_nil

namespace NodeMap

variable {κ ν : Type*} {m m' m'' : NodeMap κ ν} {k : κ} {v : ν} {n : Nat}

/-- The value at a place. -/
def get? (m : NodeMap κ ν) (n : Nat) : Option ν := (m.nodes[n]?).map Prod.snd

/-- What is found at a place. -/
def Holds (m : NodeMap κ ν) (n : Nat) (k : κ) (v : ν) : Prop := m.nodes[n]? = some (k, v)

/-- The nodes of the one map are nodes of the other, at their places. -/
def Extends (m m' : NodeMap κ ν) : Prop := m.nodes <+: m'.nodes

/-- Every node of the map has the value that belongs to its key. -/
def Agrees (m : NodeMap κ ν) (value : κ → ν) : Prop := ∀ p ∈ m.nodes, p.2 = value p.1

lemma Extends.refl (m : NodeMap κ ν) : m.Extends m := List.prefix_refl _

lemma Extends.trans (h : m.Extends m') (h' : m'.Extends m'') : m.Extends m'' := List.IsPrefix.trans h h'

/-- A place can be read ever after. -/
lemma Holds.mono (h : m.Holds n k v) (hextends : m.Extends m') : m'.Holds n k v := by
  obtain ⟨later, hlater⟩ := hextends
  have hlt : n < m.nodes.length := (List.getElem?_eq_some_iff.mp h).1
  rw [Holds, ← hlater, List.getElem?_append_left hlt]
  exact h

lemma Holds.get? (h : m.Holds n k v) : m.get? n = some v := by
  rw [NodeMap.get?, show m.nodes[n]? = some (k, v) from h, Option.map_some]

lemma Holds.mem (h : m.Holds n k v) : (k, v) ∈ m.nodes := List.mem_of_getElem? h

section Emplace

variable [DecidableEq κ] {value : κ → ν}

/-- The place of a key. -/
def find? (m : NodeMap κ ν) (k : κ) : Option Nat := m.nodes.findIdx? fun p => decide (p.1 = k)

lemma notMem_of_find?_eq_none (h : m.find? k = none) : k ∉ m.nodes.map Prod.fst := by
  intro hk
  obtain ⟨p, hp, rfl⟩ := List.mem_map.mp hk
  have hne := List.findIdx?_eq_none_iff.mp h p hp
  simp at hne

lemma find?_eq_none_iff : m.find? k = none ↔ k ∉ m.nodes.map Prod.fst := by
  refine ⟨notMem_of_find?_eq_none, fun h => List.findIdx?_eq_none_iff.mpr fun p hp => ?_⟩
  exact decide_eq_false fun hk => h (List.mem_map.mpr ⟨p, hp, hk⟩)

lemma find?_ne_none_mono (h : m.find? k ≠ none) (hextends : m.Extends m') : m'.find? k ≠ none := by
  rw [Ne, find?_eq_none_iff, not_not] at h ⊢
  exact (hextends.map Prod.fst).subset h

lemma Holds.find?_ne_none (h : m.Holds n k v) : m.find? k ≠ none := by
  rw [Ne, find?_eq_none_iff, not_not]
  exact List.mem_map.mpr ⟨(k, v), h.mem, rfl⟩

lemma holds_of_find? (h : m.find? k = some n) : ∃ v, m.Holds n k v := by
  obtain ⟨hlt, hkey, -⟩ := List.findIdx?_eq_some_iff_getElem.mp h
  have hkey : m.nodes[n].1 = k := by simpa using hkey
  refine ⟨m.nodes[n].2, ?_⟩
  rw [Holds, List.getElem?_eq_getElem hlt, ← hkey]

/-- The place of a key, made for the value if there is none. -/
def emplace (m : NodeMap κ ν) (k : κ) (v : ν) : NodeMap κ ν × Nat :=
  match h : m.find? k with
  | some n => (m, n)
  | none   =>
    ({ nodes := m.nodes ++ [(k, v)]
       distinct := by simpa using (List.Nodup.concat (notMem_of_find?_eq_none h) m.distinct) },
      m.nodes.length)

lemma emplace_of_some (h : m.find? k = some n) : m.emplace k v = (m, n) := by
  rw [emplace]
  split
  · rename_i n' heq
    obtain rfl : n' = n := Option.some.inj (heq.symm.trans h)
    rfl
  · rename_i heq
    exact absurd (heq.symm.trans h) (by simp)

lemma emplace_of_none (h : m.find? k = none) :
    (m.emplace k v).1.nodes = m.nodes ++ [(k, v)] ∧ (m.emplace k v).2 = m.nodes.length := by
  rw [emplace]
  split
  · rename_i heq
    exact absurd (heq.symm.trans h) (by simp)
  · exact ⟨rfl, rfl⟩

/-- The value of a key that is there is not used. -/
lemma emplace_congr {v' : ν} (h : m.find? k = none → v = v') : m.emplace k v = m.emplace k v' := by
  cases hk : m.find? k with
  | some n => rw [emplace_of_some hk, emplace_of_some hk]
  | none => rw [h hk]

lemma holds_emplace_of_none (h : m.find? k = none) : (m.emplace k v).1.Holds (m.emplace k v).2 k v := by
  obtain ⟨hnodes, hplace⟩ := emplace_of_none (v := v) h
  rw [Holds, hnodes, hplace]
  exact List.getElem?_concat_length

lemma extends_emplace (m : NodeMap κ ν) (k : κ) (v : ν) : m.Extends (m.emplace k v).1 := by
  cases h : m.find? k with
  | some n =>
    rw [emplace_of_some h]
    exact Extends.refl m
  | none =>
    rw [Extends, (emplace_of_none h).1]
    exact List.prefix_append _ _

lemma Agrees.find? (hm : m.Agrees value) (h : m.find? k = some n) : m.Holds n k (value k) := by
  obtain ⟨v, hv⟩ := holds_of_find? h
  have hvalue : v = value k := hm _ hv.mem
  rwa [← hvalue]

lemma Agrees.emplace (hm : m.Agrees value) (k : κ) : (m.emplace k (value k)).1.Agrees value := by
  cases h : m.find? k with
  | some n => rwa [emplace_of_some h]
  | none =>
    intro p hp
    rw [(emplace_of_none h).1] at hp
    rcases List.mem_append.mp hp with hp | hp
    · exact hm p hp
    · rw [List.mem_singleton.mp hp]

lemma Agrees.holds_emplace (hm : m.Agrees value) (k : κ) :
    (m.emplace k (value k)).1.Holds (m.emplace k (value k)).2 k (value k) := by
  cases h : m.find? k with
  | some n =>
    rw [emplace_of_some h]
    exact hm.find? h
  | none => exact holds_emplace_of_none h

end Emplace

end NodeMap
