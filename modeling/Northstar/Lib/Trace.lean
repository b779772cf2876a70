import Mathlib.Logic.Basic

/-! # Runs of a machine

A deterministic machine takes a list of events. A property that holds throughout a run is related to
a condition on its steps, each taken in the state before the step. -/

namespace Northstar

variable {σ ε : Type} (step : σ → ε → σ)

/-- The property holds before and after every event of the run. -/
def Always (p : σ → Prop) : σ → List ε → Prop
  | s, [] => p s
  | s, e :: es => p s ∧ Always p (step s e) es

/-- Every event of the run meets the condition in the state before it. -/
def AllSteps (c : σ → ε → Prop) : σ → List ε → Prop
  | _, [] => True
  | s, e :: es => c s e ∧ AllSteps c (step s e) es

variable {step} {p : σ → Prop} {c : σ → ε → Prop}

instance Always.decidable [DecidablePred p] (s : σ) :
    (es : List ε) → Decidable (Always step p s es)
  | [] => inferInstanceAs (Decidable (p s))
  | e :: es =>
    haveI := Always.decidable (step s e) es
    inferInstanceAs (Decidable (p s ∧ Always step p (step s e) es))

variable {s : σ} {es : List ε}

/-- What always holds, holds at the start. -/
lemma Always.head (h : Always step p s es) : p s := by
  cases es with
  | nil => exact h
  | cons e es => exact h.1

/-- What always holds, holds at the end. -/
lemma Always.last (h : Always step p s es) : p (es.foldl step s) := by
  induction es generalizing s with
  | nil => exact h
  | cons e es ih => exact ih h.2

/-- Steps that meet the condition keep an invariant that implies the property, and a step that does
not meet it breaks the property at once. -/
lemma always_iff_allSteps (inv : σ → Prop) (himp : ∀ s, inv s → p s)
    (hkeep : ∀ s e, inv s → c s e → inv (step s e))
    (hbreak : ∀ s e, inv s → ¬c s e → ¬p (step s e)) (hs : inv s) (es : List ε) :
    Always step p s es ↔ AllSteps step c s es := by
  induction es generalizing s with
  | nil => exact iff_of_true (himp s hs) trivial
  | cons e es ih =>
    constructor
    · rintro ⟨-, htail⟩
      have hc : c s e := not_not.1 fun hnot => hbreak s e hs hnot htail.head
      exact ⟨hc, (ih (hkeep s e hs hc)).1 htail⟩
    · rintro ⟨hc, htail⟩
      exact ⟨himp s hs, (ih (hkeep s e hs hc)).2 htail⟩

/-- Steps that meet the condition keep an invariant that implies the property. -/
lemma AllSteps.always (inv : σ → Prop) (himp : ∀ s, inv s → p s)
    (hkeep : ∀ s e, inv s → c s e → inv (step s e)) (hs : inv s) (h : AllSteps step c s es) :
    Always step p s es := by
  induction es generalizing s with
  | nil => exact himp s hs
  | cons e es ih => exact ⟨himp s hs, ih (hkeep s e hs h.1) h.2⟩

/-- An invariant of all steps holds throughout. -/
lemma always_of_inv (hkeep : ∀ s e, p s → p (step s e)) (hs : p s) (es : List ε) :
    Always step p s es := by
  induction es generalizing s with
  | nil => exact hs
  | cons e es ih => exact ⟨hs, ih (hkeep s e hs)⟩

/-- What holds throughout a run says what its steps are like. -/
lemma Always.allSteps (hstep : ∀ s e, p s → c s e) (h : Always step p s es) :
    AllSteps step c s es := by
  induction es generalizing s with
  | nil => trivial
  | cons e es ih => exact ⟨hstep s e h.1, ih h.2⟩

/-- Where an invariant holds, a step has the property just if it meets the condition, and then it
keeps the invariant. -/
lemma allSteps_iff_allSteps {q : σ → ε → Prop} (inv : σ → Prop)
    (hkeep : ∀ s e, inv s → c s e → inv (step s e))
    (hiff : ∀ s e, inv s → (q s e ↔ c s e)) (hs : inv s) (es : List ε) :
    AllSteps step q s es ↔ AllSteps step c s es := by
  induction es generalizing s with
  | nil => exact Iff.rfl
  | cons e es ih =>
    constructor
    · intro h
      have hc : c s e := (hiff s e hs).1 h.1
      exact ⟨hc, (ih (hkeep s e hs hc)).1 h.2⟩
    · intro h
      exact ⟨(hiff s e hs).2 h.1, (ih (hkeep s e hs h.1)).2 h.2⟩

/-- Steps that meet the condition keep an invariant and have the property. -/
lemma AllSteps.imp {q : σ → ε → Prop} (inv : σ → Prop)
    (hstep : ∀ s e, inv s → c s e → q s e ∧ inv (step s e)) (hs : inv s)
    (h : AllSteps step c s es) : AllSteps step q s es := by
  induction es generalizing s with
  | nil => trivial
  | cons e es ih =>
    obtain ⟨hq, hinv⟩ := hstep s e hs h.1
    exact ⟨hq, ih hinv h.2⟩

/-- The steps of a run in two parts. -/
lemma allSteps_append {fs : List ε} :
    AllSteps step c s (es ++ fs) ↔ AllSteps step c s es ∧ AllSteps step c (es.foldl step s) fs := by
  induction es generalizing s with
  | nil => exact (and_iff_right trivial).symm
  | cons e es ih => exact (and_congr_right fun _ => ih).trans and_assoc.symm

instance AllSteps.decidable [∀ s e, Decidable (c s e)] (s : σ) :
    (es : List ε) → Decidable (AllSteps step c s es)
  | [] => .isTrue trivial
  | e :: es =>
    haveI := AllSteps.decidable (step s e) es
    inferInstanceAs (Decidable (c s e ∧ AllSteps step c (step s e) es))

/-- Steps that meet the condition lead from an invariant to itself. -/
lemma AllSteps.last (inv : σ → Prop) (hkeep : ∀ s e, inv s → c s e → inv (step s e))
    (hs : inv s) (h : AllSteps step c s es) : inv (es.foldl step s) := by
  induction es generalizing s with
  | nil => exact hs
  | cons e es ih => exact ih (hkeep s e hs h.1) h.2

end Northstar
