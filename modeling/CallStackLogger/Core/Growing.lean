import CallStackLogger.Core.NodeMap
import CallStackLogger.Core.Run
import Mathlib.Order.Basic

/-!
# Computations over a state that only grows

A state that is only ever added to, as a table of what was looked up once. A computation over it asks for what it
needs and adds what is missing; its result can be read off every later state. A run of such computations is a run
in which the last state was known from the start.
-/

namespace Growing

open Run

variable {σ α β τ ε : Type}

/-- The result of the computation, and its state. -/
def outcome (x : StateM σ α) (s : σ) : α × σ := (x.run s).run

lemma outcome_bind (x : StateM σ α) (f : α → StateM σ β) (s : σ) :
    outcome (x >>= f) s = outcome (f (outcome x s).1) (outcome x s).2 := rfl

variable [Preorder σ]

/-- From a sound state, the computation adds to it and leaves it sound, and what it returns can be read off any later
state. -/
structure Reads (I : σ → Prop) (x : StateM σ α) (read : σ → α) : Prop where
  keeps : ∀ s, I s → I (outcome x s).2
  grows : ∀ s, I s → s ≤ (outcome x s).2
  reads : ∀ s, I s → ∀ s', (outcome x s).2 ≤ s' → (outcome x s).1 = read s'

variable {I : σ → Prop} {x : StateM σ α} {read read' : σ → α}

lemma Reads.pure (a : α) : Reads I (pure a : StateM σ α) fun _ => a where
  keeps _ hs := hs
  grows _ _ := le_rfl
  reads _ _ _ _ := rfl

lemma Reads.bind {f : α → StateM σ β} {g : α → σ → β} (hx : Reads I x read) (hf : ∀ a, Reads I (f a) (g a)) :
    Reads I (x >>= f) fun s => g (read s) s where
  keeps s hs := (hf _).keeps _ (hx.keeps s hs)
  grows s hs := (hx.grows s hs).trans ((hf _).grows _ (hx.keeps s hs))
  reads s hs s' hs' := by
    rw [outcome_bind] at hs' ⊢
    have hmid := hx.keeps s hs
    rw [(hf _).reads _ hmid s' hs', hx.reads s hs s' (((hf _).grows _ hmid).trans hs')]

lemma Reads.congr (h : Reads I x read) (hread : ∀ s, read s = read' s) : Reads I x read' where
  keeps := h.keeps
  grows := h.grows
  reads s hs s' hs' := (h.reads s hs s' hs').trans (hread s')

/-- A run of computations is the run that reads the last state. -/
lemma Reads.foldlM {step : τ → ε → StateM σ τ} {stepOff : σ → τ → ε → τ}
    (h : ∀ t e, Reads I (step t e) fun s => stepOff s t e) (t : τ) (es : List ε) :
    Reads I (es.foldlM step t) fun s => exec (stepOff s) t es := by
  induction es generalizing t with
  | nil => exact .pure t
  | cons e es ih => exact (h t e).bind fun t' => ih t'

/-! ### Maps that are filled on the way -/

section Emplace

variable {κ ν : Type} [DecidableEq κ] {v : StateM σ ν} {value : σ → ν}

/-- Finds a key, or computes its value and adds it. -/
def emplace (m : NodeMap κ ν) (k : κ) (v : StateM σ ν) : StateM σ (NodeMap κ ν × Nat) :=
  match m.find? k with
  | some n => return (m, n)
  | none   => return m.emplace k (← v)

/-- What is found or added is the value read off the state. -/
lemma Reads.emplace (h : Reads I v value) (m : NodeMap κ ν) (k : κ) :
    Reads I (Growing.emplace m k v) fun s => m.emplace k (value s) := by
  rw [Growing.emplace]
  cases hk : m.find? k with
  | none => exact h.bind (g := fun v _ => m.emplace k v) fun v => .pure _
  | some n => exact (Reads.pure (m, n)).congr fun s => (NodeMap.emplace_of_some hk).symm

end Emplace

end Growing
