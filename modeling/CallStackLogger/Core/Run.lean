import Mathlib.Data.List.Basic

/-!
# Runs of a step function

A machine is given by a step function `step : σ → ε → σ`: the state it reaches after one event.
`exec` runs it over a list of events and `AllSteps` says of a run that each of its steps has a
property of the state before the step and the event. Every statement about all prefixes of a
run, and about all steps of it, goes through the two rules at the end.
-/

namespace Run

variable {σ ε : Type*} {step : σ → ε → σ} {I : σ → Prop} {D P C : σ → ε → Prop}

/-- The state a run ends in. -/
def exec (step : σ → ε → σ) (s : σ) (es : List ε) : σ := es.foldl step s

@[simp] lemma exec_nil (s : σ) : exec step s [] = s := rfl

@[simp] lemma exec_cons (s : σ) (e : ε) (es : List ε) :
    exec step s (e :: es) = exec step (step s e) es := rfl

lemma exec_append (s : σ) (es es' : List ε) :
    exec step s (es ++ es') = exec step (exec step s es) es' := by
  simp [exec, List.foldl_append]

/-- Every step of the run has the property `P` of the state before it and its event. -/
def AllSteps (step : σ → ε → σ) (P : σ → ε → Prop) : σ → List ε → Prop
  | _, []      => True
  | s, e :: es => P s e ∧ AllSteps step P (step s e) es

@[simp] lemma allSteps_nil (s : σ) : AllSteps step P s [] := trivial

@[simp] lemma allSteps_cons (s : σ) (e : ε) (es : List ε) :
    AllSteps step P s (e :: es) ↔ P s e ∧ AllSteps step P (step s e) es := Iff.rfl

lemma allSteps_append (s : σ) (es es' : List ε) :
    AllSteps step P s (es ++ es') ↔
      AllSteps step P s es ∧ AllSteps step P (exec step s es) es' := by
  induction es generalizing s with
  | nil => simp
  | cons e es ih => simp [ih, and_assoc]

lemma allSteps_of_forall (h : ∀ s e, P s e) {s : σ} {es : List ε} : AllSteps step P s es := by
  induction es generalizing s with
  | nil => trivial
  | cons e es ih => exact ⟨h s e, ih⟩

lemma allSteps_and {s : σ} {es : List ε} :
    AllSteps step (fun s e => D s e ∧ P s e) s es ↔ AllSteps step D s es ∧ AllSteps step P s es := by
  induction es generalizing s with
  | nil => simp
  | cons e es ih => simp only [allSteps_cons, ih, and_assoc, and_left_comm]

/-- The runs of a machine that carries more than the state `π` shows are runs of that state. -/
lemma allSteps_of_semiconj {τ : Type*} {stepτ : τ → ε → τ} (π : τ → σ)
    (hπ : ∀ t e, π (stepτ t e) = step (π t) e) (t : τ) (es : List ε) :
    AllSteps step P (π t) es ↔ AllSteps stepτ (fun t e => P (π t) e) t es := by
  induction es generalizing t with
  | nil => simp
  | cons e es ih => rw [allSteps_cons, allSteps_cons, ← hπ, ih]

/-- What is said of the events alone. -/
lemma allSteps_of_forall_mem {Q : ε → Prop} {s : σ} {es : List ε} (h : ∀ e ∈ es, Q e) :
    AllSteps step (fun _ e => Q e) s es := by
  induction es generalizing s with
  | nil => trivial
  | cons e es ih =>
    exact ⟨h e List.mem_cons_self, ih fun e' he' => h e' (List.mem_cons_of_mem e he')⟩

/-- Invariant rule: what every step keeps holds in the state the run ends in. -/
lemma exec_invariant (hstep : ∀ s e, I s → D s e → I (step s e))
    {s : σ} {es : List ε} (h0 : I s) (hD : AllSteps step D s es) : I (exec step s es) := by
  induction es generalizing s with
  | nil => exact h0
  | cons e es ih => exact ih (hstep s e h0 hD.1) hD.2

/-- Step rule: what the invariant gives of one step holds of every step of the run. -/
lemma allSteps_of_invariant (hstep : ∀ s e, I s → D s e → I (step s e))
    (hP : ∀ s e, I s → D s e → P s e)
    {s : σ} {es : List ε} (h0 : I s) (hD : AllSteps step D s es) : AllSteps step P s es := by
  induction es generalizing s with
  | nil => trivial
  | cons e es ih => exact ⟨hP s e h0 hD.1, ih (hstep s e h0 hD.1) hD.2⟩

/-- Exactness rule: when the invariant survives the steps that meet a condition, and makes the
property of one step equivalent to the condition, then a run has the property throughout
exactly when it meets the condition throughout. -/
lemma allSteps_iff_of_invariant (hstep : ∀ s e, I s → D s e → C s e → I (step s e))
    (hiff : ∀ s e, I s → D s e → (P s e ↔ C s e))
    {s : σ} {es : List ε} (h0 : I s) (hD : AllSteps step D s es) :
    AllSteps step P s es ↔ AllSteps step C s es := by
  induction es generalizing s with
  | nil => simp
  | cons e es ih =>
    rw [allSteps_cons, allSteps_cons, hiff s e h0 hD.1]
    refine and_congr_right fun hC => ih (hstep s e h0 hD.1 hC) hD.2

end Run
