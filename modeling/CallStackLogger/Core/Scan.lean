import Mathlib.Data.List.TakeWhile
import Mathlib.Data.List.Infix

/-!
# Scanning a stack from the top

A stack is a list kept top first, and a scan counts the elements at the top that satisfy a test:
`(xs.takeWhile p).length`. These are the facts about such counts that the rules of a reclaiming
stack need: what is left when the counted elements go, and how the count is found out.
-/

namespace Scan

variable {α : Type*} {p : α → Bool} {xs : List α}

/-- What is left when the counted elements are dropped. -/
lemma drop_length_takeWhile (p : α → Bool) (xs : List α) :
    xs.drop (xs.takeWhile p).length = xs.dropWhile p := by
  conv_lhs => rw [← List.takeWhile_append_dropWhile (p := p) (l := xs)]
  rw [List.drop_left' (by simp)]

/-- What the count takes passes the test. -/
lemma forall_mem_take_length_takeWhile {x : α} (hx : x ∈ xs.take (xs.takeWhile p).length) :
    p x = true := by
  have htake : xs.take (xs.takeWhile p).length = xs.takeWhile p :=
    (List.prefix_iff_eq_take.mp (List.takeWhile_prefix p)).symm
  rw [htake] at hx
  exact List.mem_takeWhile_imp hx

/-- A scan does not go past an element that fails the test. -/
lemma dropWhile_append_of_head {ys : List α} (h : ∀ y ∈ ys.head?, p y = false) :
    (xs ++ ys).dropWhile p = xs.dropWhile p ++ ys := by
  have hys : ys.dropWhile p = ys := by
    cases ys with
    | nil => rfl
    | cons y ys => simp [h y rfl]
  rw [List.dropWhile_append]
  split_ifs with hnil
  · rw [hys, List.isEmpty_iff.mp hnil, List.nil_append]
  · rfl

lemma takeWhile_append_of_head {ys : List α} (h : ∀ y ∈ ys.head?, p y = false) :
    (xs ++ ys).takeWhile p = xs.takeWhile p := by
  have hys : ys.takeWhile p = [] := by
    cases ys with
    | nil => rfl
    | cons y ys => simp [h y rfl]
  rw [List.takeWhile_append]
  split_ifs with hall
  · rw [hys, List.append_nil, (List.takeWhile_prefix p).eq_of_length hall]
  · rfl

/-- A scan that stops does not see what comes behind. -/
lemma takeWhile_append_of_not_all {ys : List α} (h : ¬ xs.all p = true) :
    (xs ++ ys).takeWhile p = xs.takeWhile p := by
  rw [List.takeWhile_append]
  split_ifs with hlength
  · have hself : xs.takeWhile p = xs := (List.takeWhile_prefix p).eq_of_length hlength
    exact absurd (List.all_eq_true.mpr (List.takeWhile_eq_self_iff.mp hself)) h
  · rfl

/-- The scan stops at an element that fails the test. -/
lemma head_dropWhile {x : α} {rest : List α} (h : xs.dropWhile p = x :: rest) : p x = false := by
  have hhead := List.head?_dropWhile_not p xs
  simpa [h] using hhead

/-- A scan over elements that all pass, up to one that fails, counts exactly these. -/
lemma length_takeWhile_append (above rest : List α) (habove : ∀ x ∈ above, p x = true)
    (hrest : ∀ x ∈ rest.head?, p x = false) : ((above ++ rest).takeWhile p).length = above.length := by
  rw [List.takeWhile_append_of_pos habove]
  cases rest with
  | nil => simp
  | cons x rest =>
    have hx : ¬ p x = true := by simp [hrest x rfl]
    simp [hx]

/-- A test that the first element fails is never passed. -/
lemma length_takeWhile_eq_zero (h : ∀ x ∈ xs.head?, p x = false) : (xs.takeWhile p).length = 0 :=
  length_takeWhile_append [] xs (by simp) h

lemma length_takeWhile_eq_iff : (xs.takeWhile p).length = xs.length ↔ ∀ x ∈ xs, p x = true := by
  rw [← List.takeWhile_eq_self_iff]
  constructor
  · intro h
    exact (List.takeWhile_prefix p).eq_of_length h
  · intro h
    rw [h]

/-- When the elements are related to everything under them, what an element the scan stops at
excludes of the ones below it is excluded of all that are left. -/
lemma forall_mem_dropWhile {R : α → α → Prop} {q : α → Prop} (hR : xs.Pairwise R)
    (hhead : ∀ x ∈ xs, p x = false → q x) (hbelow : ∀ x y, x ∈ xs → R x y → q x → q y) :
    ∀ x ∈ xs.dropWhile p, q x := by
  intro x hx
  cases hdrop : xs.dropWhile p with
  | nil => simp [hdrop] at hx
  | cons y rest =>
    have hsuffix : (y :: rest) <:+ xs := hdrop ▸ List.dropWhile_suffix p
    have hy : y ∈ xs := hsuffix.subset List.mem_cons_self
    have hqy : q y := hhead y hy (head_dropWhile hdrop)
    rw [hdrop] at hx
    rcases List.mem_cons.mp hx with rfl | hrest
    · exact hqy
    · exact hbelow y x hy (List.rel_of_pairwise_cons (hR.sublist hsuffix.sublist) hrest) hqy

/-! ### Dropping above a part of a stack -/

variable {ys : List α} {n : ℕ}

/-- A part that lies lowest stays in place when what is dropped does not belong to it. -/
lemma suffix_drop (h : ys <:+ xs) (hn : ∀ x ∈ xs.take n, x ∉ ys) : ys <:+ xs.drop n := by
  obtain ⟨above, rfl⟩ := h
  by_cases hle : n ≤ above.length
  · rw [List.drop_append_of_le_length hle]
    exact List.suffix_append _ _
  · cases ys with
    | nil => exact List.nil_suffix
    | cons y ys =>
      have hmem : y ∈ (above ++ y :: ys).take n := by
        obtain ⟨k, hk⟩ : ∃ k, n - above.length = k + 1 := ⟨n - above.length - 1, by omega⟩
        rw [List.take_append, hk, List.take_succ_cons]
        exact List.mem_append_right _ List.mem_cons_self
      exact absurd List.mem_cons_self (hn y hmem)

/-! ### Scans of an ordered stack -/

variable {R : α → α → Prop} {x : α}

/-- A count takes an element exactly when that one and all above it pass. -/
lemma mem_takeWhile_iff (hR : ∀ x y, R x y → ¬ R y x) (hxs : xs.Pairwise R) (hx : x ∈ xs) :
    x ∈ xs.takeWhile p ↔ p x = true ∧ ∀ y ∈ xs, R y x → p y = true := by
  induction xs with
  | nil => simp at hx
  | cons top rest ih =>
    obtain ⟨htop, hrest⟩ := List.pairwise_cons.mp hxs
    by_cases hpass : p top = true
    · rw [List.takeWhile_cons_of_pos hpass, List.mem_cons, List.forall_mem_cons]
      rcases List.mem_cons.mp hx with rfl | hxrest
      · refine iff_of_true (.inl rfl) ⟨hpass, fun _ => hpass, fun y hy hyx => ?_⟩
        exact absurd hyx (hR _ _ (htop y hy))
      · have hne : x ≠ top := by
          rintro rfl
          exact hR _ _ (htop x hxrest) (htop x hxrest)
        simp [ih hrest hxrest, hne, hpass]
    · rw [List.takeWhile_cons_of_neg hpass]
      refine iff_of_false List.not_mem_nil ?_
      rintro ⟨hxpass, habove⟩
      rcases List.mem_cons.mp hx with rfl | hxrest
      · exact hpass hxpass
      · exact hpass (habove top List.mem_cons_self (htop x hxrest))

/-- Dropping what lies above the first match spares an element exactly when there is no match, or
one that is not under it. -/
lemma notMem_take_findIdx_iff (hR : ∀ x y, R x y → ¬ R y x) (hxs : xs.Pairwise R) (hx : x ∈ xs) :
    x ∉ xs.take ((xs.findIdx? p).getD 0) ↔
      ((∃ y ∈ xs, p y = true) → ∃ y ∈ xs, (y = x ∨ R y x) ∧ p y = true) := by
  induction xs with
  | nil => simp at hx
  | cons top rest ih =>
    obtain ⟨htop, hrest⟩ := List.pairwise_cons.mp hxs
    by_cases hmatch : p top = true
    · have hcount : ((top :: rest).findIdx? p).getD 0 = 0 := by simp [List.findIdx?_cons, hmatch]
      rw [hcount]
      refine iff_of_true (by simp) fun _ => ⟨top, List.mem_cons_self, ?_, hmatch⟩
      rcases List.mem_cons.mp hx with rfl | hxrest
      · exact .inl rfl
      · exact .inr (htop x hxrest)
    · cases hrestCount : rest.findIdx? p with
      | none =>
        have hcount : ((top :: rest).findIdx? p).getD 0 = 0 := by
          simp [List.findIdx?_cons, hmatch, hrestCount]
        have hnone : ∀ y ∈ rest, p y = false := by simpa using List.findIdx?_eq_none_iff.mp hrestCount
        rw [hcount]
        refine iff_of_true (by simp) ?_
        rintro ⟨y, hy, hymatch⟩
        rcases List.mem_cons.mp hy with rfl | hy
        · exact absurd hymatch hmatch
        · exact absurd (hymatch.symm.trans (hnone y hy)) (by simp)
      | some n =>
        have hcount : ((top :: rest).findIdx? p).getD 0 = n + 1 := by
          simp [List.findIdx?_cons, hmatch, hrestCount]
        rw [hcount, List.take_succ_cons, List.mem_cons]
        rcases List.mem_cons.mp hx with rfl | hxrest
        · -- the top lies above every match
          refine iff_of_false (fun h => h (.inl rfl)) fun h => ?_
          obtain ⟨hn, hfound, -⟩ := List.findIdx?_eq_some_iff_getElem.mp hrestCount
          obtain ⟨y, hy, hyx, hymatch⟩ := h ⟨rest[n], List.mem_cons_of_mem x (List.getElem_mem hn), hfound⟩
          rcases hyx with rfl | hyx
          · exact hmatch hymatch
          · rcases List.mem_cons.mp hy with rfl | hy
            · exact hmatch hymatch
            · exact hR _ _ (htop y hy) hyx
        · have hne : x ≠ top := by
            rintro rfl
            exact hR _ _ (htop x hxrest) (htop x hxrest)
          have hih := ih hrest hxrest
          rw [hrestCount, Option.getD_some] at hih
          simp [hne, hih, hmatch]

end Scan
