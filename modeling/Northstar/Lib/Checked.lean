import Northstar.Lib.Action

/-! # Word arithmetic that notes when it wraps

Machine words are natural numbers below a power of two. The operations here compute what the
machine computes, the exact value modulo the size of the word, and note in the state whether the
exact value was lost. A computation that ends with nothing noted has computed with exact values
throughout. -/

namespace Northstar

variable {ε : Type}

/-- A word of `bits` bits for the value `exact`; the state notes that the value does not fit. -/
def noteWord (bits : ℕ) (exact : ℤ) : EStateM ε Bool ℕ := do
  modify fun wrapped => wrapped || decide (exact < 0 ∨ (2 : ℤ) ^ bits ≤ exact)
  pure (exact % (2 : ℤ) ^ bits).toNat

/-- Addition of words. -/
def addWord (bits a b : ℕ) : EStateM ε Bool ℕ := noteWord bits (a + b)

/-- Subtraction of words. -/
def subWord (bits a b : ℕ) : EStateM ε Bool ℕ := noteWord bits (a - b)

/-- Multiplication of words. -/
def mulWord (bits a b : ℕ) : EStateM ε Bool ℕ := noteWord bits (a * b)

/-- If `m` returns from a state with nothing noted, nothing has wrapped and the result satisfies
`Q`. -/
def Exact {α : Type} (m : EStateM ε Bool α) (Q : α → Prop) : Prop :=
  Sat m false (fun a wrapped => wrapped = false ∧ Q a) fun _ _ => True

namespace Exact

variable {α β : Type} {m : EStateM ε Bool α} {f : α → EStateM ε Bool β} {P P' : α → Prop}
  {Q : β → Prop}

/-- Returning at once is exact. -/
lemma pure {a : α} (h : P a) : Exact (pure a : EStateM ε Bool α) P := ⟨rfl, h⟩

lemma mono (h : Exact m P) (hP : ∀ a, P a → P' a) : Exact m P' :=
  Sat.mono h (fun a _ ha => ⟨ha.1, hP a ha.2⟩) fun _ _ h => h

/-- A sequence of exact computations is exact. -/
lemma bind (h : Exact m P) (hf : ∀ a, P a → Exact (f a) Q) : Exact (m >>= f) Q := by
  unfold Exact
  rw [sat_bind]
  refine Sat.mono h ?_ fun _ _ h => h
  rintro a w ⟨rfl, ha⟩
  exact hf a ha

/-- Behind a check its condition is known. -/
lemma require {c : Prop} [Decidable c] {e : ε} {g : Unit → EStateM ε Bool β}
    (h : c → Exact (g ()) Q) : Exact (require c e >>= g) Q := by
  unfold Exact
  rw [sat_bind, sat_require]
  exact ⟨h, fun _ => trivial⟩

lemma check {c : Prop} [Decidable c] {e : ε} : Exact (Northstar.require c e) fun _ => c := by
  unfold Exact
  rw [sat_require]
  exact ⟨fun hc => ⟨rfl, hc⟩, fun _ => trivial⟩

/-- Both branches are to be exact. -/
lemma ite {c : Prop} [Decidable c] {m' : EStateM ε Bool α} (h : c → Exact m P)
    (h' : ¬ c → Exact m' P) : Exact (if c then m else m') P := by
  unfold Exact
  rw [sat_ite]
  exact ⟨h, h'⟩

/-- Another error makes no difference. -/
lemma failAs {e : ε} (h : Exact m P) : Exact (failAs e m) P := by
  unfold Exact
  rw [sat_failAs]
  exact Sat.mono h (fun _ _ h => h) fun _ _ _ => trivial

end Exact

section

variable {bits a b : ℕ}

/-- A value that fits is computed exactly. -/
lemma exact_noteWord {v : ℕ} (h : v < 2 ^ bits) :
    Exact (noteWord bits v : EStateM ε Bool ℕ) (· = v) := by
  have hlt : (v : ℤ) < (2 : ℤ) ^ bits := by exact_mod_cast h
  have hnot : ¬ ((v : ℤ) < 0 ∨ (2 : ℤ) ^ bits ≤ v) := by omega
  have hmod : ((v : ℤ) % (2 : ℤ) ^ bits).toNat = v := by
    rw [Int.emod_eq_of_lt (by omega) hlt, Int.toNat_natCast]
  simp only [Exact, noteWord, sat_bind, sat_modify, sat_pure, hmod, decide_eq_false hnot,
    Bool.or_false, and_self]

/-- A sum that fits does not wrap. -/
lemma exact_addWord (h : a + b < 2 ^ bits) :
    Exact (addWord bits a b : EStateM ε Bool ℕ) (· = a + b) := by
  unfold addWord
  exact exact_noteWord h

/-- A product that fits does not wrap. -/
lemma exact_mulWord (h : a * b < 2 ^ bits) :
    Exact (mulWord bits a b : EStateM ε Bool ℕ) (· = a * b) := by
  unfold mulWord
  exact exact_noteWord h

/-- A difference that is not negative does not wrap. -/
lemma exact_subWord (h : b ≤ a) (ha : a < 2 ^ bits) :
    Exact (subWord bits a b : EStateM ε Bool ℕ) (· = a - b) := by
  unfold subWord
  rw [← Nat.cast_sub h]
  exact exact_noteWord (by omega)

/-- A sum that does not come out smaller than its first term has not wrapped. -/
lemma exact_addWord_check (ha : a < 2 ^ bits) (hb : b < 2 ^ bits) (e : ε) :
    Exact (addWord bits a b >>= fun sum => do require (¬ sum < a) e; pure sum)
      fun sum => sum = a + b ∧ a + b < 2 ^ bits := by
  rcases Nat.lt_or_ge (a + b) (2 ^ bits) with hlt | hge
  · refine (exact_addWord hlt).bind fun sum hsum => .require fun _ => .pure ⟨hsum, hlt⟩
  · -- the wrapped sum is smaller by the size of the word
    have hval : (((a : ℤ) + b) % (2 : ℤ) ^ bits).toNat < a := by
      have hpow : ((2 ^ bits : ℕ) : ℤ) = (2 : ℤ) ^ bits := by push_cast; rfl
      have heq : ((a : ℤ) + b) % (2 : ℤ) ^ bits = ((a + b - 2 ^ bits : ℕ) : ℤ) := by
        rw [← hpow, ← Nat.cast_add, ← Int.natCast_mod, Nat.mod_eq_sub_mod hge,
          Nat.mod_eq_of_lt (by omega)]
      omega
    simp only [Exact, addWord, noteWord, sat_bind, sat_modify, sat_pure, sat_require]
    exact ⟨fun hn => absurd hval hn, fun _ => trivial⟩

end

end Northstar
