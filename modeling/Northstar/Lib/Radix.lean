import Mathlib

/-! # Forests of linked tables

Tables hold slots, and a slot may link to another table. A table is addressed by a root and the
list of slots followed from it, and `walk` finds the table at an address. A set `A` of addresses,
closed under taking prefixes, is a forest when no two of its addresses lead to the same table.

In a forest a change of one slot is seen only by the addresses that pass through that slot:
`Forest.walk_setLink_off` is the frame lemma behind every edit. The edits are those of a radix
tree that grows and shrinks on demand: hanging an empty table into a slot (`Forest.graft`), taking
an empty table out (`Forest.prune`), and adding or removing an empty root. Each says what becomes
of the set `tables` of the tables in use. -/

namespace Northstar

variable {T I : Type*}

/-- The table reached from `t` by following the slots of a path. -/
def walk (l : T → I → Option T) : T → List I → Option T
  | t, [] => some t
  | t, i :: p => (l t i).bind fun c => walk l c p

section

variable (l : T → I → Option T) (t : T)

@[simp] lemma walk_nil : walk l t [] = some t := rfl

lemma walk_cons (i : I) (p : List I) : walk l t (i :: p) = (l t i).bind fun c => walk l c p := rfl

lemma walk_append (p q : List I) : walk l t (p ++ q) = (walk l t p).bind fun c => walk l c q := by
  induction p generalizing t with
  | nil => rfl
  | cons i p ih =>
    rw [List.cons_append, walk_cons, walk_cons, Option.bind_assoc]
    exact congrArg _ (funext fun c => ih c)

/-- A walk with one more slot. -/
lemma walk_concat (p : List I) (i : I) :
    walk l t (p ++ [i]) = (walk l t p).bind fun c => l c i := by
  rw [walk_append]
  refine congrArg _ (funext fun c => ?_)
  rw [walk_cons]
  cases l c i <;> rfl

end

/-- Links that agree on the slots that a walk follows give the same walk. -/
lemma walk_congr {l l' : T → I → Option T} {r : T} {p : List I}
    (h : ∀ q i t, q ++ [i] <+: p → walk l r q = some t → l' t i = l t i) :
    walk l' r p = walk l r p := by
  induction p using List.reverseRecOn with
  | nil => rfl
  | append_singleton p i ih =>
    rw [walk_concat, walk_concat, ih fun q j t hpre =>
      h q j t (hpre.trans (List.prefix_append p [i]))]
    cases hw : walk l r p with
    | none => rfl
    | some t => exact h p i t (List.prefix_refl _) hw

/-- No two addresses of `A` lead to one table. -/
structure Forest (A : Set (T × List I)) (l : T → I → Option T) : Prop where
  closed : ∀ r p i, (r, p ++ [i]) ∈ A → (r, p) ∈ A
  inj : ∀ a ∈ A, ∀ b ∈ A, ∀ t, walk l a.1 a.2 = some t → walk l b.1 b.2 = some t → a = b

/-- The tables at the addresses of `A`. -/
def tables (A : Set (T × List I)) (l : T → I → Option T) : Set T :=
  {t | ∃ a ∈ A, walk l a.1 a.2 = some t}

section

variable {A B : Set (T × List I)} {l l' : T → I → Option T}

variable {p : List I} {t' r' c : T}

/-- What a walk leads to is a table. -/
lemma mem_tables {r : T} {t : T} (ha : (r, p) ∈ A) (hw : walk l r p = some t) :
    t ∈ tables A l := ⟨(r, p), ha, hw⟩

/-- Fewer addresses make a forest too. -/
lemma Forest.mono (h : Forest B l) (hA : A ⊆ B)
    (hclosed : ∀ r p i, (r, p ++ [i]) ∈ A → (r, p) ∈ A) :
    Forest A l :=
  ⟨hclosed, fun a ha b hb => h.inj a (hA ha) b (hA hb)⟩

/-- A prefix of an address is an address. -/
lemma Forest.closed_append (h : Forest A l) {r : T} {q : List I} (ha : (r, p ++ q) ∈ A) :
    (r, p) ∈ A := by
  induction q using List.reverseRecOn with
  | nil => simpa using ha
  | append_singleton q i ih =>
    rw [← List.append_assoc] at ha
    exact ih (h.closed r (p ++ q) i ha)

/-- Links that agree on every slot that is followed give the same walks. -/
lemma Forest.walk_congr (h : Forest A l)
    (hl : ∀ r p i t, (r, p ++ [i]) ∈ A → walk l r p = some t → l' t i = l t i)
    {r : T} (ha : (r, p) ∈ A) : walk l' r p = walk l r p := by
  refine Northstar.walk_congr fun q i t hpre hw => hl r q i t ?_ hw
  obtain ⟨s, rfl⟩ := hpre
  exact h.closed_append ha

lemma Forest.congr (h : Forest A l)
    (hl : ∀ r p i t, (r, p ++ [i]) ∈ A → walk l r p = some t → l' t i = l t i) :
    Forest A l' ∧ tables A l' = tables A l := by
  have hw : ∀ a ∈ A, walk l' a.1 a.2 = walk l a.1 a.2 := fun a ha => h.walk_congr hl ha
  refine ⟨⟨h.closed, fun a ha b hb t h1 h2 => ?_⟩, ?_⟩
  · rw [hw a ha] at h1
    rw [hw b hb] at h2
    exact h.inj a ha b hb t h1 h2
  · ext t
    constructor
    · rintro ⟨a, ha, ht⟩
      exact ⟨a, ha, by rwa [hw a ha] at ht⟩
    · rintro ⟨a, ha, ht⟩
      exact ⟨a, ha, by rwa [hw a ha]⟩

/-- Links that agree on the tables in use give the same forest. -/
lemma Forest.congr_tables (h : Forest A l) (hl : ∀ t ∈ tables A l, ∀ i, l' t i = l t i) :
    Forest A l' ∧ tables A l' = tables A l :=
  h.congr fun r p i t ha hw => hl t (mem_tables (h.closed r p i ha) hw) i

/-- Behind a slot that holds an empty table there is only that table. -/
lemma Forest.walk_behind (h : Forest A l) {r : T} {q s : List I} {i : I}
    (hb : (r, q ++ [i] ++ s) ∈ A)
    (hempty : ∀ j, (r, q ++ [i] ++ [j]) ∈ A → l' c j = none) :
    walk l' c s = if s = [] then some c else none := by
  cases s with
  | nil => rfl
  | cons j s =>
    have hj : (r, q ++ [i] ++ [j]) ∈ A := by
      refine h.closed_append (q := s) ?_
      simpa using hb
    rw [walk_cons, hempty j hj]
    rfl

/-! ### Roots -/

/-- A new root, behind whose slots there is nothing. -/
lemma Forest.addRoot (h : Forest A l) (hfresh : c ∉ tables A l)
    (hclosed : ∀ r p i, (r, p ++ [i]) ∈ B → (r, p) ∈ B) (hroot : (c, []) ∈ B)
    (hB : ∀ a, a ∈ B ↔ a ∈ A ∨ a.1 = c ∧ a ∈ B)
    (hempty : ∀ p, (c, p) ∈ B → p ≠ [] → walk l c p = none) :
    Forest B l ∧ tables B l = insert c (tables A l) := by
  have hview : ∀ a ∈ B, ∀ t, walk l a.1 a.2 = some t → a ∈ A ∨ a = (c, []) ∧ t = c := by
    rintro ⟨r, p⟩ hb t hw
    rcases (hB _).mp hb with ha | ⟨rfl, -⟩
    · exact .inl ha
    · by_cases hp : p = []
      · subst hp
        exact .inr ⟨rfl, (Option.some.inj hw).symm⟩
      · rw [hempty p hb hp] at hw
        cases hw
  refine ⟨⟨hclosed, fun a ha b hb t hwa hwb => ?_⟩, ?_⟩
  · rcases hview a ha t hwa with ha' | ⟨ha', hta⟩ <;>
      rcases hview b hb t hwb with hb' | ⟨hb', htb⟩
    · exact h.inj a ha' b hb' t hwa hwb
    · exact absurd ⟨a, ha', htb ▸ hwa⟩ hfresh
    · exact absurd ⟨b, hb', hta ▸ hwb⟩ hfresh
    · rw [ha', hb']
  · ext t
    constructor
    · rintro ⟨a, ha, hw⟩
      rcases hview a ha t hw with ha' | ⟨-, rfl⟩
      · exact .inr ⟨a, ha', hw⟩
      · exact .inl rfl
    · rintro (rfl | ⟨a, ha, hw⟩)
      · exact ⟨(t, []), hroot, rfl⟩
      · exact ⟨a, (hB a).mpr (.inl ha), hw⟩

/-- Forgetting a root behind whose slots there is nothing. -/
lemma Forest.dropRoot (h : Forest B l)
    (hclosed : ∀ r p i, (r, p ++ [i]) ∈ A → (r, p) ∈ A) (hroot : (c, []) ∈ B)
    (hA : ∀ a, a ∈ A ↔ a ∈ B ∧ a.1 ≠ c) (hempty : ∀ p, (c, p) ∈ B → p ≠ [] → walk l c p = none) :
    Forest A l ∧ tables A l = tables B l \ {c} := by
  refine ⟨h.mono (fun a ha => ((hA a).mp ha).1) hclosed, ?_⟩
  ext t
  constructor
  · rintro ⟨a, ha, hw⟩
    refine ⟨⟨a, ((hA a).mp ha).1, hw⟩, ?_⟩
    rintro rfl
    have heq := h.inj a ((hA a).mp ha).1 (t, []) hroot t hw rfl
    exact ((hA a).mp ha).2 (congrArg Prod.fst heq)
  · rintro ⟨⟨⟨r, p⟩, hb, hw⟩, hne⟩
    refine ⟨(r, p), (hA _).mpr ⟨hb, ?_⟩, hw⟩
    rintro rfl
    by_cases hp : p = []
    · subst hp
      exact hne (Option.some.inj hw).symm
    · rw [hempty p hb hp] at hw
      cases hw

/-! ### Changing one slot -/

variable [DecidableEq T] [DecidableEq I]

/-- The links with slot `i` of `t` set to `o`. -/
def setLink (l : T → I → Option T) (t : T) (i : I) (o : Option T) : T → I → Option T :=
  fun t' i' => if t' = t ∧ i' = i then o else l t' i'

@[simp] lemma setLink_self (t : T) (i : I) (o : Option T) : setLink l t i o t i = o := by
  simp [setLink]

/-- The other slots are as before. -/
lemma setLink_of_ne {t : T} {i i' : I} (o : Option T) (h : ¬ (t' = t ∧ i' = i)) :
    setLink l t i o t' i' = l t' i' := by
  simp [setLink, h]

/-- Setting a slot to what it holds changes nothing. -/
lemma setLink_eq_self (l : T → I → Option T) (t : T) (i : I) : setLink l t i (l t i) = l := by
  funext t' i'
  unfold setLink
  split_ifs with h
  · rw [h.1, h.2]
  · rfl

variable {r t : T} {q : List I} {i : I} {o : Option T}

section

variable (h : Forest A l) (ha : (r, q) ∈ A) (hw : walk l r q = some t)
include h ha hw

/-- Addresses that do not pass through the changed slot lead where they led. -/
lemma Forest.walk_setLink_off (hb : (r', p) ∈ A) (hoff : ¬ (r' = r ∧ q ++ [i] <+: p)) :
    walk (setLink l t i o) r' p = walk l r' p := by
  induction p using List.reverseRecOn with
  | nil => rfl
  | append_singleton p j ih =>
    have hbp := h.closed r' p j hb
    have hstep := ih hbp fun hpre => hoff ⟨hpre.1, hpre.2.trans (List.prefix_append p [j])⟩
    rw [walk_concat, walk_concat, hstep]
    cases hw' : walk l r' p with
    | none => rfl
    | some t' =>
      refine setLink_of_ne o fun hslot => hoff ?_
      obtain ⟨rfl, rfl⟩ := hslot
      obtain ⟨rfl, rfl⟩ := Prod.mk.inj (h.inj (r', p) hbp (r, q) ha t' hw' hw)
      exact ⟨rfl, List.prefix_refl _⟩

/-- The walk up to the changed slot, and one step through it. -/
lemma Forest.walk_setLink_on (s : List I) :
    walk (setLink l t i o) r (q ++ [i] ++ s) = o.bind fun c => walk (setLink l t i o) c s := by
  have hq : walk (setLink l t i o) r q = some t := by
    rw [h.walk_setLink_off ha hw ha, hw]
    rintro ⟨-, hpre⟩
    have hlen := hpre.length_le
    simp at hlen
  rw [walk_append, walk_concat, hq, Option.bind_some, setLink_self]

/-- A slot that is never followed may hold anything. -/
lemma Forest.leaf (hleaf : (r, q ++ [i]) ∉ A) :
    Forest A (setLink l t i o) ∧ tables A (setLink l t i o) = tables A l := by
  refine h.congr fun r' p j t' hb hw' => setLink_of_ne o ?_
  rintro ⟨rfl, rfl⟩
  obtain ⟨rfl, rfl⟩ := Prod.mk.inj (h.inj (r', p) (h.closed r' p j hb) (r, q) ha t' hw' hw)
  exact hleaf hb

end

/-- Every address is off the changed slot, or behind it. -/
lemma prefix_or_off (r r' : T) (q : List I) (i : I) (p : List I) :
    (∃ s, r' = r ∧ p = q ++ [i] ++ s) ∨ ¬ (r' = r ∧ q ++ [i] <+: p) := by
  by_cases h : r' = r ∧ q ++ [i] <+: p
  · obtain ⟨rfl, s, rfl⟩ := h
    exact .inl ⟨s, rfl, rfl⟩
  · exact .inr h

section

variable (h : Forest A l) (ha : (r, q ++ [i]) ∈ A) (hw : walk l r q = some t)
include h ha hw

section

variable (hfresh : c ∉ tables A l) (hempty : ∀ j, (r, q ++ [i] ++ [j]) ∈ A → l c j = none)
  (hnone : l t i = none)
include hfresh hempty hnone

/-- What each address leads to once an empty table hangs in a slot that held none: that table at
the slot, nothing behind it, and elsewhere what it led to before. -/
lemma Forest.walk_graft (hb : (r', p) ∈ A) : walk (setLink l t i (some c)) r' p = some t' ↔
      (r' = r ∧ p = q ++ [i] ∧ t' = c) ∨ walk l r' p = some t' := by
  have haq := h.closed r q i ha
  have htc : c ≠ t := fun heq => hfresh (heq ▸ mem_tables haq hw)
  have hempty' : ∀ j, (r, q ++ [i] ++ [j]) ∈ A → setLink l t i (some c) c j = none := fun j hj => by
    rw [setLink_of_ne _ fun hs => htc hs.1, hempty j hj]
  rcases prefix_or_off r r' q i p with ⟨s, rfl, rfl⟩ | hoff
  · rw [h.walk_setLink_on haq hw, Option.bind_some, h.walk_behind hb hempty']
    have hold : walk l r' (q ++ [i] ++ s) = none := by
      rw [walk_append, walk_concat, hw, Option.bind_some, hnone]
      rfl
    rw [hold]
    by_cases hs : s = [] <;> simp [hs, eq_comm]
  · rw [h.walk_setLink_off haq hw hb hoff]
    constructor
    · exact .inr
    · rintro (⟨rfl, rfl, -⟩ | hold)
      · exact absurd ⟨rfl, List.prefix_refl _⟩ hoff
      · exact hold

/-- Hanging an empty table into a slot that held none. -/
lemma Forest.graft :
    Forest A (setLink l t i (some c)) ∧
      tables A (setLink l t i (some c)) = insert c (tables A l) := by
  have hview : ∀ r' p, (r', p) ∈ A → ∀ t', walk (setLink l t i (some c)) r' p = some t' ↔
      (r' = r ∧ p = q ++ [i] ∧ t' = c) ∨ walk l r' p = some t' :=
    fun r' p hb t' => h.walk_graft ha hw hfresh hempty hnone hb
  refine ⟨⟨h.closed, ?_⟩, ?_⟩
  · rintro ⟨r1, p1⟩ h1 ⟨r2, p2⟩ h2 t' hw1 hw2
    rcases (hview r1 p1 h1 t').mp hw1 with ⟨rfl, rfl, rfl⟩ | hold1 <;>
      rcases (hview r2 p2 h2 t').mp hw2 with ⟨rfl, rfl, htc'⟩ | hold2
    · rfl
    · exact absurd (mem_tables h2 hold2) hfresh
    · exact absurd (mem_tables h1 hold1) (htc' ▸ hfresh)
    · exact h.inj _ h1 _ h2 t' hold1 hold2
  · ext t'
    constructor
    · rintro ⟨⟨r', p⟩, hb, hw'⟩
      rcases (hview r' p hb t').mp hw' with ⟨-, -, rfl⟩ | hold
      · exact .inl rfl
      · exact .inr (mem_tables hb hold)
    · rintro (rfl | ⟨⟨r', p⟩, hb, hold⟩)
      · exact mem_tables ha ((hview r (q ++ [i]) ha t').mpr (.inl ⟨rfl, rfl, rfl⟩))
      · exact mem_tables hb ((hview r' p hb t').mpr (.inr hold))

end

section

variable (hsome : l t i = some c) (hempty : ∀ j, (r, q ++ [i] ++ [j]) ∈ A → l c j = none)
include hsome hempty

/-- What each address leads to once an empty table is out of its slot. -/
lemma Forest.walk_prune (hb : (r', p) ∈ A) : walk (setLink l t i none) r' p = some t' ↔
      walk l r' p = some t' ∧ ¬ (r' = r ∧ p = q ++ [i]) := by
  have haq := h.closed r q i ha
  have hwc : walk l r (q ++ [i]) = some c := by rw [walk_concat, hw, Option.bind_some, hsome]
  rcases prefix_or_off r r' q i p with ⟨s, rfl, rfl⟩ | hoff
  · have hold : walk l r' (q ++ [i] ++ s) = if s = [] then some c else none := by
      rw [walk_append, hwc, Option.bind_some, h.walk_behind hb hempty]
    rw [h.walk_setLink_on haq hw, hold]
    by_cases hs : s = [] <;> simp [hs]
  · rw [h.walk_setLink_off haq hw hb hoff]
    refine ⟨fun hold => ⟨hold, ?_⟩, And.left⟩
    rintro ⟨rfl, rfl⟩
    exact hoff ⟨rfl, List.prefix_refl _⟩

/-- Taking an empty table out of its slot. -/
lemma Forest.prune :
    Forest A (setLink l t i none) ∧ tables A (setLink l t i none) = tables A l \ {c} := by
  have hwc : walk l r (q ++ [i]) = some c := by rw [walk_concat, hw, Option.bind_some, hsome]
  have hview : ∀ r' p, (r', p) ∈ A → ∀ t', walk (setLink l t i none) r' p = some t' ↔
      walk l r' p = some t' ∧ ¬ (r' = r ∧ p = q ++ [i]) :=
    fun r' p hb t' => h.walk_prune ha hw hsome hempty hb
  refine ⟨⟨h.closed, ?_⟩, ?_⟩
  · rintro ⟨r1, p1⟩ h1 ⟨r2, p2⟩ h2 t' hw1 hw2
    exact h.inj _ h1 _ h2 t' ((hview r1 p1 h1 t').mp hw1).1 ((hview r2 p2 h2 t').mp hw2).1
  · ext t'
    constructor
    · rintro ⟨⟨r', p⟩, hb, hw'⟩
      obtain ⟨hold, hne⟩ := (hview r' p hb t').mp hw'
      refine ⟨mem_tables hb hold, ?_⟩
      rintro rfl
      exact hne (Prod.mk.inj (h.inj (r', p) hb (r, q ++ [i]) ha t' hold hwc))
    · rintro ⟨⟨⟨r', p⟩, hb, hold⟩, hne⟩
      refine mem_tables hb ((hview r' p hb t').mpr ⟨hold, ?_⟩)
      rintro ⟨rfl, rfl⟩
      exact hne (Option.some.inj (hold.symm.trans hwc))

end

end

end

end Northstar
