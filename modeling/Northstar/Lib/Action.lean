import Mathlib

/-! # State-passing computations that may fail, and their postconditions

C code that mutates a state and returns a status is modelled in `EStateM ε σ`: a computation
either returns a value or stops with an error, and in both cases the state it reached is kept,
since nothing undoes the writes made before an error.

`Sat m s Q E` says that running `m` from `s` ends in a state with `Q` if it returns and with `E`
if it stops. `Runs R m s Q E` is the form used for code that works towards one goal inside a
larger operation: whatever happens, the state reached is related to the start by `R`; if the code
returns, `Q` holds as well, and if it stops, the error is one of `E`. For a reflexive and
transitive `R` (a frame: what the operation never touches) the rule for sequencing carries the
frame along, so that a proof about a long function states the frame once.

`Maintains I m Q` is for code of which nothing has to be known but that it keeps an invariant of the
state, on whatever data it works. -/

namespace Northstar

variable {σ ε α β : Type}

/-- Stop with `e` unless `c` holds. -/
def require (c : Prop) [Decidable c] (e : ε) : EStateM ε σ Unit :=
  if c then pure () else throw e

/-- Run `m` and hand its status to the caller instead of stopping. -/
def observe (m : EStateM ε σ α) : EStateM ε σ (Except ε α) := fun s =>
  match m s with
  | .ok a s' => .ok (.ok a) s'
  | .error e s' => .ok (.error e) s'

/-- Run `m`; on an error run `cleanup` before passing the error on, as a `goto failed` does. -/
def onFailure (m : EStateM ε σ α) (cleanup : EStateM ε σ Unit) : EStateM ε σ α := fun s =>
  match m s with
  | .ok a s' => .ok a s'
  | .error e s' =>
    match cleanup s' with
    | .ok _ s'' => .error e s''
    | .error _ s'' => .error e s''

/-- Run `m`, reporting every error as `e`. -/
def failAs (e : ε) (m : EStateM ε σ α) : EStateM ε σ α := fun s =>
  match m s with
  | .ok a s' => .ok a s'
  | .error _ s' => .error e s'

/-- The status computed by pure code, as a computation. -/
def liftExcept : Except ε α → EStateM ε σ α
  | .ok a => pure a
  | .error e => throw e

/-- The outcome of `m` from `s` satisfies `Q` if it returns and `E` if it stops. -/
def Sat (m : EStateM ε σ α) (s : σ) (Q : α → σ → Prop) (E : ε → σ → Prop) : Prop :=
  match m s with
  | .ok a s' => Q a s'
  | .error e s' => E e s'

/-- The state in which `m` ends from `s`, whether it returns or stops. -/
def stateAfter (m : EStateM ε σ α) (s : σ) : σ :=
  match m s with
  | .ok _ s' => s'
  | .error _ s' => s'

/-! ### Rules for `Sat` -/

section Sat

variable {m : EStateM ε σ α} {s s' : σ} {Q Q' : α → σ → Prop} {E E' : ε → σ → Prop}

/-- What is promised of a computation holds if it returns. -/
lemma Sat.ok {a : α} (h : Sat m s Q E) (hm : m s = .ok a s') : Q a s' := by
  simpa [Sat, hm] using h

variable {e : ε}

/-- What is promised of a computation holds if it stops. -/
lemma Sat.error (h : Sat m s Q E) (hm : m s = .error e s') : E e s' := by
  simpa [Sat, hm] using h

/-- A computation has a postcondition when each of its two outcomes has it. -/
lemma Sat.intro (hok : ∀ a s', m s = .ok a s' → Q a s')
    (herr : ∀ e s', m s = .error e s' → E e s') : Sat m s Q E := by
  unfold Sat
  split
  · exact hok _ _ ‹_›
  · exact herr _ _ ‹_›

lemma Sat.mono (h : Sat m s Q E) (hQ : ∀ a s', Q a s' → Q' a s')
    (hE : ∀ e s', E e s' → E' e s') : Sat m s Q' E' :=
  Sat.intro (fun a s' hm => hQ a s' (h.ok hm)) fun e s' hm => hE e s' (h.error hm)

/-- A promise on the state alone, the same for both outcomes. -/
lemma Sat.imp_state {P P' : σ → Prop} (h : Sat m s (fun _ => P) fun _ => P)
    (hP : ∀ s', P s' → P' s') : Sat m s (fun _ => P') fun _ => P' :=
  h.mono (fun _ => hP) fun _ => hP

/-- Two promises of one computation hold together. -/
lemma Sat.and (h : Sat m s Q E) (h' : Sat m s Q' E') :
    Sat m s (fun a s' => Q a s' ∧ Q' a s') fun e s' => E e s' ∧ E' e s' :=
  Sat.intro (fun _ _ hm => ⟨h.ok hm, h'.ok hm⟩) fun _ _ hm => ⟨h.error hm, h'.error hm⟩

/-- What holds after both outcomes holds of the state reached. -/
lemma Sat.stateAfter {P : σ → Prop} (h : Sat m s (fun _ => P) fun _ => P) :
    P (stateAfter m s) := by
  unfold Sat at h
  unfold Northstar.stateAfter
  cases hm : m s <;> simpa [hm] using h

@[simp] lemma sat_pure {a : α} : Sat (pure a : EStateM ε σ α) s Q E ↔ Q a s := Iff.rfl

@[simp] lemma sat_throw : Sat (throw e : EStateM ε σ α) s Q E ↔ E e s := Iff.rfl

@[simp] lemma sat_get {Q : σ → σ → Prop} : Sat (get : EStateM ε σ σ) s Q E ↔ Q s s := Iff.rfl

@[simp] lemma sat_set {Q : PUnit → σ → Prop} : Sat (set s' : EStateM ε σ PUnit) s Q E ↔ Q ⟨⟩ s' :=
  Iff.rfl

@[simp] lemma sat_modify {Q : PUnit → σ → Prop} {f : σ → σ} :
    Sat (modify f : EStateM ε σ PUnit) s Q E ↔ Q ⟨⟩ (f s) := Iff.rfl

/-- A sequence promises what its second part does, from wherever the first one returns. -/
@[simp] lemma sat_bind {f : α → EStateM ε σ β} {Q : β → σ → Prop} :
    Sat (m >>= f) s Q E ↔ Sat m s (fun a s' => Sat (f a) s' Q E) E := by
  change (match EStateM.bind m f s with | .ok a s' => Q a s' | .error e s' => E e s') ↔ _
  unfold EStateM.bind
  cases h : m s <;> simp [Sat, h]

/-- A check lets the computation go on, or stops it. -/
@[simp] lemma sat_require {c : Prop} [Decidable c] {Q : Unit → σ → Prop} :
    Sat (require c e : EStateM ε σ Unit) s Q E ↔ (c → Q () s) ∧ (¬c → E e s) := by
  unfold require
  by_cases hc : c <;> simp [hc]

/-- A check that is known to pass. -/
lemma Sat.require_pos {c : Prop} [Decidable c] {f : Unit → EStateM ε σ β} {Q : β → σ → Prop}
    (hc : c) (h : Sat (f ()) s Q E) : Sat (require c e >>= f) s Q E := by
  rw [sat_bind, sat_require]
  exact ⟨fun _ => h, fun hn => absurd hc hn⟩

/-- An observed computation always returns. -/
@[simp] lemma sat_observe {Q : Except ε α → σ → Prop} :
    Sat (observe m) s Q E ↔ Sat m s (fun a => Q (.ok a)) fun e => Q (.error e) := by
  unfold Sat observe
  cases h : m s <;> simp

/-- The cleanup runs behind a failure, which stays the outcome. -/
lemma sat_onFailure {cleanup : EStateM ε σ Unit} :
    Sat (onFailure m cleanup) s Q E ↔
      Sat m s Q fun e s' => Sat cleanup s' (fun _ => E e) fun _ => E e := by
  unfold Sat onFailure
  cases h : m s with
  | ok a s' => simp
  | error e s' => cases h' : cleanup s' <;> simp [h']

/-- Any failure becomes the given one. -/
@[simp] lemma sat_failAs :
    Sat (failAs e m) s Q E ↔ Sat m s Q fun _ => E e := by
  unfold Sat failAs
  cases h : m s <;> simp

/-- A result that is there already is returned, or stops the computation. -/
@[simp] lemma sat_liftExcept {r : Except ε α} :
    Sat (liftExcept r : EStateM ε σ α) s Q E ↔
      (∀ a, r = .ok a → Q a s) ∧ ∀ e, r = .error e → E e s := by
  cases r <;> simp [liftExcept]

/-- Both branches are to keep the promise. -/
@[simp] lemma sat_ite {c : Prop} [Decidable c] {m' : EStateM ε σ α} :
    Sat (if c then m else m') s Q E ↔ (c → Sat m s Q E) ∧ (¬c → Sat m' s Q E) := by
  by_cases hc : c <;> simp [hc]

/-- Changing the result only. -/
@[simp] lemma sat_map {f : α → β} {Q : β → σ → Prop} :
    Sat (f <$> m) s Q E ↔ Sat m s (fun a => Q (f a)) E := by
  change (match EStateM.map f m s with | .ok a s' => Q a s' | .error e s' => E e s') ↔ _
  unfold EStateM.map
  cases h : m s <;> simp [Sat, h]

end Sat

/-! ### Rules for `Runs` -/

/-- From `s`, whatever happens, `m` stays within the frame `R`; if it returns, `Q` holds, and if it
stops, its error is one of `E`. -/
def Runs (R : σ → σ → Prop) (m : EStateM ε σ α) (s : σ) (Q : α → σ → Prop) (E : ε → Prop) : Prop :=
  Sat m s (fun a s' => R s s' ∧ Q a s') fun e s' => R s s' ∧ E e

section Runs

variable {R : σ → σ → Prop} {m : EStateM ε σ α} {s s' : σ} {Q Q' : α → σ → Prop} {E E' : ε → Prop}

section

variable (h : Runs R m s Q E)
include h

lemma Runs.mono (hQ : ∀ a s', R s s' → Q a s' → Q' a s')
    (hE : ∀ e, E e → E' e) : Runs R m s Q' E' :=
  Sat.mono h (fun a s' hr => ⟨hr.1, hQ a s' hr.1 hr.2⟩) fun e _ hr => ⟨hr.1, hE e hr.2⟩

/-- Saying less about the result. -/
lemma Runs.imp (hQ : ∀ a s', R s s' → Q a s' → Q' a s') : Runs R m s Q' E :=
  h.mono hQ fun _ he => he

/-- Allowing more errors. -/
lemma Runs.weaken (hE : ∀ e, E e → E' e) : Runs R m s Q E' :=
  h.mono (fun _ _ _ hq => hq) hE

/-- Widening the frame. -/
lemma Runs.frame {R' : σ → σ → Prop} (hR : ∀ s', R s s' → R' s s') : Runs R' m s Q E :=
  Sat.mono h (fun _ s' hr => ⟨hR s' hr.1, hr.2⟩) fun _ s' hr => ⟨hR s' hr.1, hr.2⟩

/-- A frame may be exchanged for a weaker one and remembered in the result. -/
lemma Runs.strengthen {R' : σ → σ → Prop} (hR : ∀ s s', R s s' → R' s s') :
    Runs R' m s (fun a s' => Q a s' ∧ R s s') E :=
  Sat.mono h (fun _ _ hr => ⟨hR _ _ hr.1, hr.2, hr.1⟩) fun _ _ hr => ⟨hR _ _ hr.1, hr.2⟩

end

variable {f : α → EStateM ε σ β} {e : ε}

/-- Sequencing: the frame is carried along by transitivity. -/
lemma Runs.bind [IsTrans σ R] {P : α → σ → Prop} {Q : β → σ → Prop}
    (h : Runs R m s P E) (hf : ∀ a s', R s s' → P a s' → Runs R (f a) s' Q E) :
    Runs R (m >>= f) s Q E := by
  unfold Runs
  rw [sat_bind]
  refine Sat.mono h (fun a s' hr => ?_) fun e s' hr => hr
  refine Sat.mono (hf a s' hr.1 hr.2) ?_ ?_
  · rintro b t ⟨ht, hq⟩
    exact ⟨IsTrans.trans _ _ _ hr.1 ht, hq⟩
  · rintro e t ⟨ht, he⟩
    exact ⟨IsTrans.trans _ _ _ hr.1 ht, he⟩

/-- Returning at once changes nothing. -/
lemma Runs.pure [Std.Refl R] {a : α} (h : Q a s) : Runs R (pure a) s Q E :=
  ⟨Std.Refl.refl s, h⟩

/-- Stopping at once changes nothing. -/
lemma Runs.throw [Std.Refl R] (h : E e) : Runs R (throw e) s Q E :=
  ⟨Std.Refl.refl s, h⟩

/-- Reading the state and going on with it. -/
lemma Runs.get_bind {f : σ → EStateM ε σ β} {Q : β → σ → Prop} (h : Runs R (f s) s Q E) :
    Runs R (get >>= f) s Q E := h

lemma Runs.require_pos {c : Prop} [Decidable c] {f : Unit → EStateM ε σ β}
    {Q : β → σ → Prop} (hc : c) (h : Runs R (f ()) s Q E) : Runs R (require c e >>= f) s Q E :=
  Sat.require_pos hc h

/-- A check that may stop the computation. -/
lemma Runs.require [Std.Refl R] {c : Prop} [Decidable c] {f : Unit → EStateM ε σ β}
    {Q : β → σ → Prop} (he : ¬ c → E e) (h : c → Runs R (f ()) s Q E) :
    Runs R (require c e >>= f) s Q E := by
  unfold Runs
  rw [sat_bind, sat_require]
  exact ⟨h, fun hn => ⟨Std.Refl.refl s, he hn⟩⟩

/-- A check at the end. -/
lemma Runs.check [Std.Refl R] {c : Prop} [Decidable c] {Q : Unit → σ → Prop}
    (he : ¬ c → E e) (h : c → Q () s) : Runs R (Northstar.require c e) s Q E := by
  unfold Runs
  rw [sat_require]
  exact ⟨fun hc => ⟨Std.Refl.refl s, h hc⟩, fun hn => ⟨Std.Refl.refl s, he hn⟩⟩

/-- Both branches are to run in the frame. -/
lemma Runs.ite {c : Prop} [Decidable c] {m' : EStateM ε σ α} (h : c → Runs R m s Q E)
    (h' : ¬ c → Runs R m' s Q E) : Runs R (if c then m else m') s Q E := by
  unfold Runs
  rw [sat_ite]
  exact ⟨h, h'⟩

/-- The status of a computation as a value: an error is an outcome like any other. -/
lemma Runs.observe {Q : Except ε α → σ → Prop} {P : α → σ → Prop} {F : ε → Prop}
    (h : Runs R m s P F) (hok : ∀ a s', R s s' → P a s' → Q (.ok a) s')
    (herr : ∀ e s', R s s' → F e → Q (.error e) s') : Runs R (observe m) s Q E := by
  unfold Runs
  rw [sat_observe]
  exact Sat.mono h (fun a s' hr => ⟨hr.1, hok a s' hr.1 hr.2⟩)
    fun e s' hr => ⟨hr.1, herr e s' hr.1 hr.2⟩

/-- Cleaning up after an error keeps the frame; nothing else is said about the failed state. -/
lemma Runs.onFailure [IsTrans σ R] {cleanup : EStateM ε σ Unit} (h : Runs R m s Q E)
    (hc : ∀ s', R s s' → Runs R cleanup s' (fun _ _ => True) fun _ => True) :
    Runs R (onFailure m cleanup) s Q E := by
  unfold Runs
  rw [sat_onFailure]
  refine Sat.mono h (fun a s' hr => hr) fun e s' hr => ?_
  refine Sat.mono (hc s' hr.1) ?_ ?_
  · rintro - t ⟨ht, -⟩
    exact ⟨IsTrans.trans _ _ _ hr.1 ht, hr.2⟩
  · rintro - t ⟨ht, -⟩
    exact ⟨IsTrans.trans _ _ _ hr.1 ht, hr.2⟩

/-- Going on with a result that is there. -/
lemma Runs.liftExcept_bind {r : Except ε α} {Q : β → σ → Prop} {a : α}
    (hr : r = .ok a) (h : Runs R (f a) s Q E) : Runs R (liftExcept r >>= f) s Q E := by
  subst hr
  exact h

end Runs

/-! ### Invariants -/

/-- From a state with `I`, whatever happens, `m` ends in a state with `I`; a value that it returns
satisfies `Q`. -/
def Maintains (I : σ → Prop) (m : EStateM ε σ α) (Q : α → Prop) : Prop :=
  ∀ s, I s → Sat m s (fun a s' => I s' ∧ Q a) fun _ s' => I s'

namespace Maintains

variable {I : σ → Prop} {m : EStateM ε σ α} {Q P : α → Prop}

lemma mono (h : Maintains I m P) (hQ : ∀ a, P a → Q a) : Maintains I m Q := by
  intro s hs
  exact (h s hs).mono (fun a s' hr => ⟨hr.1, hQ a hr.2⟩) fun _ _ hr => hr

/-- Code that stays within a frame keeps an invariant that the frame keeps. -/
lemma of_runs {R : σ → σ → Prop} {F : σ → α → σ → Prop} {E : σ → ε → Prop}
    (h : ∀ s, I s → Runs R m s (F s) (E s)) (hR : ∀ s s', I s → R s s' → I s')
    (hQ : ∀ s a s', I s → F s a s' → Q a) : Maintains I m Q := by
  intro s hs
  exact Sat.mono (h s hs) (fun a s' hr => ⟨hR s s' hs hr.1, hQ s a s' hs hr.2⟩)
    fun _ s' hr => hR s s' hs hr.1

/-- Returning at once keeps the invariant. -/
lemma pure {a : α} (h : Q a) : Maintains I (Pure.pure a : EStateM ε σ α) Q :=
  fun _ hs => ⟨hs, h⟩

/-- Stopping at once keeps the invariant. -/
lemma throw (e : ε) : Maintains I (MonadExcept.throw e : EStateM ε σ α) Q :=
  fun _ hs => hs

/-- A sequence keeps what its parts keep. -/
lemma bind {f : α → EStateM ε σ β} {Q : β → Prop} (h : Maintains I m P)
    (hf : ∀ a, P a → Maintains I (f a) Q) : Maintains I (m >>= f) Q := by
  intro s hs
  rw [sat_bind]
  exact (h s hs).mono (fun a s' hr => hf a hr.2 s' hr.1) fun _ _ hr => hr

variable {m' : EStateM ε σ β} {e : ε}

/-- What the first part returns does not matter to the second. -/
lemma seq {Q : β → Prop} (h : Maintains I m P) (h' : Maintains I m' Q) :
    Maintains I (m >>= fun _ => m') Q :=
  bind h fun _ _ => h'

/-- Going on with the state, of which the invariant is known. -/
lemma get_bind {f : σ → EStateM ε σ β} {Q : β → Prop}
    (h : ∀ s, I s → Maintains I (f s) Q) : Maintains I (get >>= f) Q :=
  fun s hs => h s hs s hs

/-- A check keeps the invariant, and is known to have succeeded. -/
lemma require {c : Prop} [Decidable c] {Q : Unit → Prop} (h : c → Q ()) :
    Maintains I (Northstar.require c e : EStateM ε σ Unit) Q := by
  intro s hs
  rw [sat_require]
  exact ⟨fun hc => ⟨hs, h hc⟩, fun _ => hs⟩

/-- A check that stops the computation or tells its condition to the rest. -/
lemma require_bind {c : Prop} [Decidable c] {f : Unit → EStateM ε σ β} {Q : β → Prop}
    (h : c → Maintains I (f ()) Q) : Maintains I (Northstar.require c e >>= f) Q :=
  bind (require fun hc => hc) fun _ hc => h hc

/-- A check whose condition does not matter to the rest. -/
lemma check {c : Prop} [Decidable c] {Q : β → Prop}
    (h : Maintains I m' Q) : Maintains I (Northstar.require c e >>= fun _ => m') Q :=
  require_bind fun _ => h

/-- Both branches are to keep the invariant. -/
lemma ite {c : Prop} [Decidable c] {m' : EStateM ε σ α} (h : c → Maintains I m Q)
    (h' : ¬ c → Maintains I m' Q) : Maintains I (if c then m else m') Q := by
  split_ifs with hc
  · exact h hc
  · exact h' hc

/-- Observing a computation keeps what it keeps. -/
lemma observe (h : Maintains I m P) :
    Maintains I (Northstar.observe m) fun r => ∀ a, r = .ok a → P a := by
  intro s hs
  rw [sat_observe]
  refine (h s hs).mono ?_ ?_
  · rintro a s' ⟨hs', ha⟩
    exact ⟨hs', fun b hb => Except.ok.inj hb ▸ ha⟩
  · intro e s' hs'
    exact ⟨hs', fun a ha => nomatch ha⟩

/-- Another error keeps the invariant too. -/
lemma failAs (e : ε) (h : Maintains I m Q) : Maintains I (Northstar.failAs e m) Q := by
  intro s hs
  rw [sat_failAs]
  exact h s hs

/-- A cleanup that keeps the invariant, behind a computation that does. -/
lemma onFailure {cleanup : EStateM ε σ Unit} (h : Maintains I m Q)
    (hc : Maintains I cleanup fun _ => True) : Maintains I (Northstar.onFailure m cleanup) Q := by
  intro s hs
  rw [sat_onFailure]
  refine (h s hs).mono (fun _ _ hr => hr) fun e s' hs' => ?_
  exact (hc s' hs').mono (fun _ _ hr => hr.1) fun _ _ hr => hr

/-- A result that is there already keeps the invariant. -/
lemma liftExcept {r : Except ε α} (h : ∀ a, r = .ok a → Q a) :
    Maintains I (Northstar.liftExcept r : EStateM ε σ α) Q := by
  intro s hs
  rw [sat_liftExcept]
  exact ⟨fun a ha => ⟨hs, h a ha⟩, fun _ _ => hs⟩

end Maintains

end Northstar
