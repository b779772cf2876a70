import Northstar.Mm.VmmShape

/-! # Walking to a leaf slot

What `walk_create_leaf`, `walk_leaf` and the reclaiming loop of `unmap_unlocked` do, as sequences
of `Shape` steps. The specifications are stated for an arbitrary invariant that implies the tables
and that the steps keep (`Keeps`), so that a development with a stronger invariant need not look
at the walks again. -/

namespace Northstar

open Domain List

/-- An invariant that implies `VmmTables` and is kept by the steps. -/
structure Keeps (d : Domain) (r : ℕ) (j : Index) (keep : Prop) (Inv : Vmm × Set ℕ → Prop) :
    Prop where
  tables : ∀ x, Inv x → VmmTables d x
  step : ∀ x y, Inv x → Shape d r j keep x y → Inv y

/-- An invariant of the steps holds after sequences of them. -/
lemma Keeps.run {d : Domain} {r : ℕ} {j : Index} {keep : Prop} {Inv : Vmm × Set ℕ → Prop}
    (hk : Keeps d r j keep Inv) {x y : Vmm × Set ℕ} (h : Inv x) (hs : Shapes d r j keep x y) :
    Inv y := by
  induction hs with
  | refl => exact h
  | tail _ st ih => exact hk.step _ _ ih st

/-- The slots above the leaf slot of a page. -/
abbrev pathUp (virt : ℕ) : List Index := [tableIndex virt 4, tableIndex virt 3, tableIndex virt 2]

/-- The path of a page ends with the slot of its own entry. -/
lemma pathFrom_eq (virt : ℕ) : pathFrom virt 4 = pathUp virt ++ [tableIndex virt 1] := rfl

variable {q : List Index}

/-- The slots on the way to a page lie under its top slot. -/
lemma head_of_path {virt : ℕ} {i : Index} (h : q ++ [i] <+: pathFrom virt 4) :
    (q ++ [i]).head? = some (tableIndex virt 4) := by
  cases q with
  | nil => exact congrArg some (cons_prefix_cons.mp h).1
  | cons k q => exact congrArg some (cons_prefix_cons.mp h).1

/-- The addresses on the way to a page are managed if its top slot is. -/
lemma addr_of_path {d : Domain} {r virt n : ℕ} (hr : r ∈ d.roots)
    (htop : tableIndex virt 4 ∈ d.slots r) (h : q <+: pathFrom virt 4)
    (hn : q.length ≤ n) : (r, q) ∈ d.addrs n := by
  refine mem_addrs.mpr ⟨hr, hn, fun k hk => ?_⟩
  cases q with
  | nil => cases hk
  | cons k' q =>
    obtain rfl := Option.some.inj hk
    exact (cons_prefix_cons.mp h).1 ▸ htop

section

variable {d : Domain} {r : ℕ} {virt : ℕ} {keep : Prop} {Inv : Vmm × Set ℕ → Prop}

/-! ### Taking a table -/

variable {s : Vmm} {pend : Set ℕ} {mem mem' : PhysMem} {q : List Index}
  {created : List (ℕ × Index × ℕ)} {table : ℕ} {slots : List (ℕ × Index)}

/-- `allocate_table` takes a page and clears it, or it changes nothing. -/
lemma allocateTable_spec {j : Index} (hk : Keeps d r j keep Inv) (hinv : Inv (s, pend)) :
    Sat allocateTable s
      (fun c s' => Shapes d r j keep (s, pend) (s', insert c pend) ∧ c ∉ pend ∧
        c ∉ d.inUse s.mem ∧ s'.mem = s.mem.zero c ∧ tablePointer s'.config c = true)
      (fun _ s' => Shapes d r j keep (s, pend) (s', pend) ∧ s'.mem = s.mem) := by
  have htab := hk.tables _ hinv
  unfold Sat allocateTable
  split
  · next c s' hcall =>
    split at hcall
    · cases hcall
    · next phys pmm halloc =>
      dsimp only at hcall
      split_ifs at hcall with hp
      obtain ⟨rfl, rfl⟩ := EStateM.Result.ok.inj hcall
      obtain ⟨-, -, hfree, -⟩ := htab.sound.allocPage halloc
      refine ⟨?_, fun hin => (htab.pending phys hin).2.1 hfree, fun hin => htab.held phys hin hfree,
        rfl, hp⟩
      exact (Relation.ReflTransGen.single (.alloc halloc)).tail (.zero (Set.mem_insert _ _))
  · next e s' hcall =>
    split at hcall
    · next e' pmm halloc =>
      obtain ⟨-, rfl⟩ := EStateM.Result.error.inj hcall
      obtain rfl := nsPmmAllocPage_error halloc
      exact ⟨.refl, rfl⟩
    · next phys pmm halloc =>
      dsimp only at hcall
      split_ifs at hcall with hp
      obtain ⟨-, rfl⟩ := EStateM.Result.error.inj hcall
      obtain ⟨-, -, hfree, -⟩ := htab.sound.allocPage halloc
      have hout : phys ∉ pend := fun hin => (htab.pending phys hin).2.1 hfree
      exact ⟨(Relation.ReflTransGen.single (.alloc halloc)).tail (.giveBack_insert hout), rfl⟩

/-! ### Undoing -/

/-- The tables created on the way to the address `q`, the last one first: each hangs in the slot
above it, and a created table that holds another one holds nothing else. -/
def Chain (keep : Prop) (mem : PhysMem) (r : ℕ) : List Index → List (ℕ × Index × ℕ) → Prop
  | _, [] => True
  | q, (t, i, c) :: rest => ∃ q', q = q' ++ [i] ∧ (keep → q' ≠ []) ∧
      walk (link mem) r q' = some t ∧ link mem t i = some c ∧
      (rest ≠ [] → ∀ k, k ≠ i → (mem t k).testBit ptePresent = false) ∧ Chain keep mem r q' rest

lemma Chain.congr (h : Chain keep mem r q created) (hsame : SameAbove mem mem' r q) :
    Chain keep mem' r q created := by
  induction created generalizing q with
  | nil => trivial
  | cons e rest ih =>
    obtain ⟨t, i, c⟩ := e
    obtain ⟨q', rfl, hkeep, hw, hl, hothers, hrest⟩ := h
    obtain ⟨hwalk, hent⟩ := hsame q' (prefix_append q' [i]) (by simp)
    have he := hent t hw
    refine ⟨q', rfl, hkeep, hwalk.trans hw, ?_, fun hne k hki => ?_,
      ih hrest (hsame.shorten (prefix_append q' [i]))⟩
    · rw [link, he]
      exact hl
    · rw [he]
      exact hothers hne k hki

/-- The rollback takes the created tables out again, by steps. -/
lemma undoCreated_spec (hk : Keeps d r (tableIndex virt 4) keep Inv) (hr : r ∈ d.roots)
    (htop : tableIndex virt 4 ∈ d.slots r)
    (hinv : Inv (s, pend))
    (hq : q <+: pathFrom virt 4) (hlen : q.length ≤ 3) (hw : walk (link s.mem) r q = some table)
    (hchain : Chain keep s.mem r q created)
    (hfresh : created ≠ [] → ∀ k, (s.mem table k).testBit ptePresent = false) :
    Shapes d r (tableIndex virt 4) keep (s, pend) (undoCreated created s, pend) := by
  induction created generalizing s q table with
  | nil => exact .refl
  | cons e rest ih =>
    obtain ⟨t, i, c⟩ := e
    obtain ⟨q', rfl, hkeep, hwt, hl, hothers, hrest⟩ := hchain
    have htab := hk.tables _ hinv
    obtain rfl : table = c := by
      rw [walk_concat, hwt, Option.bind_some, hl] at hw
      exact (Option.some.inj hw).symm
    have ha : (r, q' ++ [i]) ∈ d.addrs 3 := addr_of_path hr htop hq hlen
    have hout : table ∉ pend := fun hin =>
      (htab.pending table hin).1 (.inl (mem_tables ha hw))
    -- Take the last table out, give it back, and go on with the one above it.
    have hprune : Shape d r (tableIndex virt 4) keep (s, pend) (s.store t i 0, insert table pend) :=
      .prune ha (head_of_path hq) hkeep hwt hl (hfresh (by simp))
    have hsteps : Shapes d r (tableIndex virt 4) keep (s, pend)
        ((s.store t i 0).freePage table, pend) :=
      (Relation.ReflTransGen.single hprune).tail (.giveBack_insert hout)
    have hsame : SameAbove s.mem (s.mem.set t i 0) r q' :=
      .set htab.layout (addrs_deeper ha) hwt 0
    rw [length_append] at hlen
    refine hsteps.trans (ih (hk.run hinv hsteps) ((prefix_append q' [i]).trans hq) (by omega)
      (hsame.walk_eq.trans hwt) (hrest.congr hsame) fun hne k => ?_)
    change ((s.mem.set t i 0) t k).testBit ptePresent = false
    by_cases hki : k = i
    · rw [hki, set_self, Nat.zero_testBit]
    · rw [set_of_ne _ _ fun hs => hki hs.2]
      exact hothers hne k hki

/-! ### Creating the way to a leaf -/

/-- Every slot passed on the way to the address `q` admits user pages. -/
def UserAbove (mem : PhysMem) (r : ℕ) (q : List Index) : Prop :=
  ∀ p i t, p ++ [i] <+: q → walk (link mem) r p = some t → (mem t i).testBit pteUser = true

/-- One more slot admits user pages. -/
lemma UserAbove.concat {i : Index} {t : ℕ}
    (h : UserAbove mem r q) (hsame : SameAbove mem mem' r q) (hw : walk (link mem) r q = some t)
    (hi : (mem' t i).testBit pteUser = true) : UserAbove mem' r (q ++ [i]) := by
  intro p k t' hpre hw'
  have hlen := hpre.length_le
  rw [length_append, length_append, length_singleton, length_singleton] at hlen
  rcases Nat.lt_or_ge p.length q.length with hlt | hge
  · have hpq : p ++ [k] <+: q := by
      refine prefix_of_prefix_length_le hpre (prefix_append q [i]) ?_
      rw [length_append]
      exact hlt
    obtain ⟨hwalk, hent⟩ := hsame p ((prefix_append p [k]).trans hpq) hlt
    rw [hwalk] at hw'
    rw [hent t' hw']
    exact h p k t' hpq hw'
  · obtain ⟨rfl, hk⟩ := append_inj (hpre.eq_of_length (by simp; omega)) (by omega)
    obtain rfl := singleton_injective hk
    rw [hsame.walk_eq, hw] at hw'
    exact Option.some.inj hw' ▸ hi

/-- The step that lets user pages through a link, if the flags ask for it. -/
def widenFor (flags t : ℕ) (i : Index) (s : Vmm) : Vmm :=
  if flags.testBit pageUser then s.store t i (s.mem t i ||| 2 ^ pteUser) else s

/-- Widening a link is a step, and keeps the way. -/
lemma widenFor_spec (hk : Keeps d r (tableIndex virt 4) keep Inv) (flags : ℕ)
    {i : Index} {t c : ℕ} (hinv : Inv (s, pend))
    (ha : (r, q ++ [i]) ∈ d.addrs 3) (hj : (q ++ [i]).head? = some (tableIndex virt 4))
    (hnouser : keep → flags.testBit pageUser = false)
    (hw : walk (link s.mem) r q = some t) (hl : link s.mem t i = some c) :
    Shapes d r (tableIndex virt 4) keep (s, pend) (widenFor flags t i s, pend) ∧
      SameAbove s.mem (widenFor flags t i s).mem r q ∧
      link (widenFor flags t i s).mem t i = some c ∧
      (flags.testBit pageUser = true → ((widenFor flags t i s).mem t i).testBit pteUser = true) ∧
      ∀ t' k, ¬ (t' = t ∧ k = i) → (widenFor flags t i s).mem t' k = s.mem t' k := by
  unfold widenFor
  split_ifs with huser
  · have hkeep : keep → q ≠ [] := fun hkp => by
      rw [hnouser hkp] at huser
      cases huser
    refine ⟨.single (.widen ha hj hkeep hw hl),
      .set (hk.tables _ hinv).layout (addrs_deeper ha) hw _, ?_, fun _ => ?_,
      fun t' k hne => set_of_ne s.mem _ hne⟩
    · change link (s.mem.set t i _) t i = some c
      rw [link, set_self]
      exact linkOf_widen hl
    · change (s.mem.set t i _ t i).testBit pteUser = true
      simp
  · exact ⟨.refl, fun p _ _ => ⟨rfl, fun _ _ _ => rfl⟩, hl, fun h => absurd h huser,
      fun _ _ _ => rfl⟩

/-- The walk has come to the slot for the page, and to user pages with the right to pass. -/
structure Arrives (d : Domain) (r virt : ℕ) (keep : Prop) (flags : ℕ) (s : Vmm) (pend : Set ℕ)
    (leaf : ℕ × Index) (s' : Vmm) : Prop where
  shapes : Shapes d r (tableIndex virt 4) keep (s, pend) (s', pend)
  index : leaf.2 = tableIndex virt 1
  walk : walk (link s'.mem) r (pathUp virt) = some leaf.1
  user : flags.testBit pageUser = true → UserAbove s'.mem r (pathUp virt)

/-- How far the walk has come: it stands at `table`, at the address `q` and `level` levels above the
last tables, and has created the tables `created` on its way, the last of them empty. -/
structure Walking (r virt : ℕ) (keep : Prop) (flags level table : ℕ) (q : List Index)
    (created : List (ℕ × Index × ℕ)) (s : Vmm) : Prop where
  path : q ++ pathFrom virt (level + 1) = pathFrom virt 4
  stands : walk (link s.mem) r q = some table
  chain : Chain keep s.mem r q created
  fresh : created ≠ [] → ∀ k, (s.mem table k).testBit ptePresent = false
  keep : keep → q = [] → (s.mem table (tableIndex virt (level + 1))).testBit ptePresent = true
  user : flags.testBit pageUser = true → UserAbove s.mem r q

section

variable {flags level : ℕ}

/-- The slots passed and those to pass make the path. -/
lemma Walking.path_concat (h : Walking r virt keep flags (level + 1) table q created s) :
    q ++ [tableIndex virt (level + 2)] ++ pathFrom virt (level + 1) = pathFrom virt 4 := by
  rw [← h.path, append_assoc]
  rfl

/-- The next slot is on the path. -/
lemma Walking.prefix_path (h : Walking r virt keep flags (level + 1) table q created s) :
    q ++ [tableIndex virt (level + 2)] <+: pathFrom virt 4 := ⟨_, h.path_concat⟩

/-- Above the last tables the next slot is a managed one. -/
lemma Walking.addr (h : Walking r virt keep flags (level + 1) table q created s)
    (hr : r ∈ d.roots) (htop : tableIndex virt 4 ∈ d.slots r) :
    (r, q ++ [tableIndex virt (level + 2)]) ∈ d.addrs 3 := by
  refine addr_of_path hr htop h.prefix_path ?_
  have hlen := congrArg length h.path_concat
  rw [length_append, length_pathFrom, length_pathFrom] at hlen
  omega

variable (hk : Keeps d r (tableIndex virt 4) keep Inv) (hr : r ∈ d.roots)
  (htop : tableIndex virt 4 ∈ d.slots r)
include hk hr htop

/-- The walk goes down one level once the slot holds a link, wherever that came from. -/
lemma Walking.down (h : Walking r virt keep flags (level + 1) table q created s)
    {s₁ : Vmm} {c : ℕ} {l : List (ℕ × Index × ℕ)} (hinv : Inv (s₁, pend))
    (hsame : SameAbove s.mem s₁.mem r q)
    (hl : link s₁.mem table (tableIndex virt (level + 2)) = some c)
    (hnouser : keep → flags.testBit pageUser = false)
    (hfresh : l ≠ [] → ∀ k, (s₁.mem c k).testBit ptePresent = false)
    (hchain : ∀ mem', SameAbove s₁.mem mem' r q →
      link mem' table (tableIndex virt (level + 2)) = some c →
      (∀ t' k, ¬ (t' = table ∧ k = tableIndex virt (level + 2)) → mem' t' k = s₁.mem t' k) →
      Chain keep mem' r (q ++ [tableIndex virt (level + 2)]) l) :
    Shapes d r (tableIndex virt 4) keep (s₁, pend)
        (widenFor flags table (tableIndex virt (level + 2)) s₁, pend) ∧
      Walking r virt keep flags level c (q ++ [tableIndex virt (level + 2)]) l
        (widenFor flags table (tableIndex virt (level + 2)) s₁) := by
  have ha := h.addr hr htop
  have hw₁ : walk (link s₁.mem) r q = some table := hsame.walk_eq.trans h.stands
  obtain ⟨hwide, hsame', hl', hbit, hother⟩ :=
    widenFor_spec hk flags hinv ha (head_of_path h.prefix_path) hnouser hw₁ hl
  have hne : c ≠ table := by
    rintro rfl
    have hwc : walk (link s₁.mem) r (q ++ [tableIndex virt (level + 2)]) = some c := by
      rw [walk_concat, hw₁]
      exact hl
    have heq := ((hk.tables _ hinv).layout.unique (addrs_closed ha) hw₁ (.inl ha) hwc).2
    simpa using congrArg length heq
  refine ⟨hwide, h.path_concat, ?_, hchain _ hsame' hl' hother, fun hcr k => ?_, fun _ hq => ?_,
    fun hu => (h.user hu).concat (hsame.trans hsame') h.stands (hbit hu)⟩
  · rw [walk_concat, hsame'.walk_eq, hw₁]
    exact hl'
  · rw [hother c k fun h => hne h.1]
    exact hfresh hcr k
  · simp at hq

/-- An empty table is hung into the empty slot, and the walk goes down to it. -/
lemma Walking.create (h : Walking r virt keep flags (level + 1) table q created s)
    (hinv : Inv (s, pend)) (hnouser : keep → flags.testBit pageUser = false)
    (habs : (s.mem table (tableIndex virt (level + 2))).testBit ptePresent = false)
    {s₁ : Vmm} {c : ℕ} (hsteps : Shapes d r (tableIndex virt 4) keep (s, pend) (s₁, insert c pend))
    (hc : c ∉ pend) (hout : c ∉ d.inUse s.mem) (hmem : s₁.mem = s.mem.zero c)
    (hp : tablePointer s₁.config c = true) :
    let s₂ := widenFor flags table (tableIndex virt (level + 2))
      (s₁.store table (tableIndex virt (level + 2)) (linkWord c))
    Shapes d r (tableIndex virt 4) keep (s, pend) (s₂, pend) ∧
      Walking r virt keep flags level c (q ++ [tableIndex virt (level + 2)])
        ((table, tableIndex virt (level + 2), c) :: created) s₂ := by
  have ha := h.addr hr htop
  have hnt : table ≠ c := fun heq => hout (.inl (heq ▸ mem_tables (addrs_closed ha) h.stands))
  have hzero : ∀ k, s₁.mem c k = 0 := fun k => by rw [hmem, zero_self]
  have hslot : ∀ k, s₁.mem table k = s.mem table k := fun k => by rw [hmem, zero_of_ne _ hnt]
  have hsame : SameAbove s.mem s₁.mem r q := by
    rw [hmem]
    exact .zero (hk.tables _ hinv).layout (addrs_closed ha) hout
  have hw₁ := hsame.walk_eq.trans h.stands
  have hnotkeep : keep → q ≠ [] := fun hkp hq => by
    rw [h.keep hkp hq] at habs
    cases habs
  have hinv₁ := hk.run hinv hsteps
  have haddr := ((hk.tables _ hinv₁).pending c (Set.mem_insert c pend)).2.2
  have hgraft : Shape d r (tableIndex virt 4) keep (s₁, insert c pend)
      (s₁.store table (tableIndex virt (level + 2)) (linkWord c), pend) :=
    .graft_insert hc ha (head_of_path h.prefix_path) hnotkeep hw₁ (by rw [hslot]; exact habs) hzero
      hp
  have hsame' : SameAbove s.mem
      (s₁.store table (tableIndex virt (level + 2)) (linkWord c)).mem r q :=
    hsame.trans (.set (hk.tables _ hinv₁).layout (addrs_deeper ha) hw₁ _)
  obtain ⟨hwide, hwalking⟩ := h.down hk hr htop (hk.run hinv (hsteps.tail hgraft)) hsame'
    (c := c) (l := (table, tableIndex virt (level + 2), c) :: created)
    (by rw [link, Vmm.store_mem, set_self]; exact linkOf_linkWord haddr) hnouser
    (fun _ k => by
      rw [Vmm.store_mem, set_of_ne _ _ fun heq => hnt heq.1.symm, hzero k, Nat.zero_testBit])
    (fun mem' hs hl hother => by
      refine ⟨q, rfl, hnotkeep, (hsame'.trans hs).walk_eq.trans h.stands, hl, fun hne k hki => ?_,
        h.chain.congr (hsame'.trans hs)⟩
      rw [hother table k fun heq => hki heq.2, Vmm.store_mem, set_of_ne _ _ fun heq => hki heq.2,
        hslot]
      exact h.fresh hne k)
  exact ⟨(hsteps.tail hgraft).trans hwide, hwalking⟩

/-- `walk_create_leaf` from any table on its way. -/
lemma walkCreateFrom_spec (hinv : Inv (s, pend))
    (hnouser : keep → flags.testBit pageUser = false)
    (h : Walking r virt keep flags level table q created s) :
    Sat (walkCreateFrom virt flags level table created) s
      (Arrives d r virt keep flags s pend)
      (fun _ s' => Shapes d r (tableIndex virt 4) keep (s, pend) (s', pend)) := by
  induction level generalizing table q created s with
  | zero =>
    obtain ⟨rfl, -⟩ := append_inj' (h.path.trans (pathFrom_eq virt)) rfl
    exact ⟨.refl, rfl, h.stands, h.user⟩
  | succ level ih =>
    have hnext : ∀ {s₂ : Vmm} {c : ℕ} {created' : List (ℕ × Index × ℕ)},
        Shapes d r (tableIndex virt 4) keep (s, pend) (s₂, pend) ∧
          Walking r virt keep flags level c (q ++ [tableIndex virt (level + 2)]) created' s₂ →
        Sat (walkCreateFrom virt flags level c created') s₂ (Arrives d r virt keep flags s pend)
          (fun _ s' => Shapes d r (tableIndex virt 4) keep (s, pend) (s', pend)) :=
      fun ⟨hsteps, hwalking⟩ => (ih (hk.run hinv hsteps) hwalking).mono
        (fun leaf s' h => { h with shapes := hsteps.trans h.shapes }) fun e s' h => hsteps.trans h
    simp only [walkCreateFrom, sat_bind, sat_get, sat_ite, sat_observe, sat_modify, sat_throw,
      sat_require]
    refine ⟨fun habs => ?_, fun hpres => ⟨fun _ => .refl, fun hhuge => ?_⟩⟩
    · -- the slot is empty: take a page and hang it in, or undo what was created so far
      refine (allocateTable_spec hk hinv).mono (fun c s₁ halloc => ?_) fun e s₁ halloc => ?_
      · obtain ⟨hsteps, hc, hout, hmem, hp⟩ := halloc
        have hres := hnext (h.create hk hr htop hinv hnouser habs hsteps hc hout hmem hp)
        unfold widenFor at hres
        refine ⟨fun hu => ?_, fun hu => ?_⟩
        · rw [if_pos hu, Vmm.store_mem, set_self] at hres
          exact hres
        · rw [if_neg hu] at hres
          exact hres
      · obtain ⟨hsteps, hmem⟩ := halloc
        have hlen := (mem_addrs.mp (h.addr hr htop)).2.1
        rw [length_append, length_singleton] at hlen
        refine hsteps.trans (undoCreated_spec hk hr htop (hk.run hinv hsteps)
          ((prefix_append q _).trans h.prefix_path) (by omega) (hmem ▸ h.stands)
            (hmem ▸ h.chain) ?_)
        rw [hmem]
        exact h.fresh
    · -- the slot holds a table already, so nothing was created above it
      rw [Bool.not_eq_false] at hpres
      rw [Bool.not_eq_true] at hhuge
      have hnil : created = [] := by
        by_contra hne
        rw [h.fresh hne] at hpres
        cases hpres
      have hdown := h.down hk hr htop (l := created) hinv
        (fun p _ _ => ⟨rfl, fun _ _ _ => rfl⟩) (linkOf_of_link hpres hhuge) hnouser
        (fun hne => absurd hnil hne) fun mem' _ _ _ => hnil ▸ trivial
      have hres := hnext hdown
      have hwide := hdown.1
      unfold widenFor at hres hwide
      refine ⟨fun hu => ?_, fun hu => ?_⟩
      · rw [if_pos hu] at hres hwide
        exact ⟨fun _ => hres, fun _ => hwide⟩
      · rw [if_neg hu] at hres
        exact ⟨fun _ => hres, fun _ => .refl⟩

/-- `walk_create_leaf` arrives at the slot of the page, or it stops after steps. -/
lemma walkCreateLeaf_spec {space : VmmSpace} (hspace : space.rootPhys = r)
    {flags : ℕ} (hinv : Inv (s, pend))
    (hkeep : keep → (s.mem r (tableIndex virt 4)).testBit ptePresent = true ∧
      flags.testBit pageUser = false) :
    Sat (walkCreateLeaf space virt flags) s
      (Arrives d r virt keep flags s pend)
      (fun _ s' => Shapes d r (tableIndex virt 4) keep (s, pend) (s', pend)) := by
  subst hspace
  simp only [walkCreateLeaf, sat_bind, sat_get, sat_require]
  refine ⟨fun _ => walkCreateFrom_spec (q := []) hk hr htop hinv (fun h => (hkeep h).2) ⟨rfl, rfl,
    trivial, by simp, fun h _ => (hkeep h).1, fun _ p i t hpre => ?_⟩, fun _ => .refl⟩
  simpa using hpre.length_le

end

/-! ### Finding a leaf and reclaiming the tables above it -/

/-- The slots passed on the way to the address `q`, the last one first. -/
def Passed (mem : PhysMem) (r : ℕ) : List Index → List (ℕ × Index) → Prop
  | q, [] => q = []
  | q, (t, i) :: rest => ∃ q', q = q' ++ [i] ∧ walk (link mem) r q' = some t ∧ Passed mem r q' rest

lemma Passed.congr
    (h : Passed mem r q slots) (hsame : SameAbove mem mem' r q) : Passed mem' r q slots := by
  induction slots generalizing q with
  | nil => exact h
  | cons e rest ih =>
    obtain ⟨q', rfl, hw, hrest⟩ := h
    have hshort := hsame.shorten (prefix_append q' [e.2])
    exact ⟨q', rfl, hshort.walk_eq.trans hw, ih hrest hshort⟩

/-- What `walk_leaf` finds. -/
lemma walkLeafFrom_ok {config : VmmConfig} {level : ℕ} {above : List (ℕ × Index)}
    (hok : walkLeafFrom config mem virt level table above = .ok slots)
    (hpath : q ++ pathFrom virt (level + 1) = pathFrom virt 4)
    (hw : walk (link mem) r q = some table) (habove : Passed mem r q above) :
    Passed mem r (pathFrom virt 4) slots ∧ ∃ t rest, slots = (t, tableIndex virt 1) :: rest ∧
      walk (link mem) r (pathUp virt) = some t ∧
      (mem t (tableIndex virt 1)).testBit ptePresent = true := by
  induction level generalizing table q above with
  | zero =>
    simp only [walkLeafFrom] at hok
    split_ifs at hok with hp
    obtain rfl := Except.ok.inj hok
    obtain ⟨rfl, -⟩ := append_inj' (hpath.trans (pathFrom_eq virt)) rfl
    exact ⟨⟨_, rfl, hw, habove⟩, table, above, rfl, hw, by simpa using hp⟩
  | succ level ih =>
    simp only [walkLeafFrom] at hok
    split_ifs at hok with hp hh hptr
    have hl : link mem table (tableIndex virt (level + 2)) =
        some (mem table (tableIndex virt (level + 2)) &&& pteAddr) :=
      linkOf_of_link (by simpa using hp) (by simpa using hh)
    refine ih (q := q ++ [tableIndex virt (level + 2)]) hok ?_ ?_ ⟨q, rfl, hw, habove⟩
    · rw [← hpath, append_assoc]
      rfl
    · rw [walk_concat, hw]
      exact hl

/-- The loop of `unmap_unlocked` reclaims empty tables. -/
lemma reclaimEmpty_spec (hr : r ∈ d.roots) (htop : tableIndex virt 4 ∈ d.slots r)
    (htab : VmmTables d (s, pend)) (hq : q <+: pathFrom virt 4) (hpassed : Passed s.mem r q slots) :
    Reclaims d r (tableIndex virt 4) s (reclaimEmpty slots s) := by
  fun_induction reclaimEmpty slots s generalizing q with
  | case1 t i0 parent i above s hempty parentEntry =>
    rename_i ih
    obtain ⟨q1, rfl, hwt, q', rfl, hwp, habove⟩ := hpassed
    have hlen := hq.length_le
    rw [length_append, length_singleton, length_pathFrom] at hlen
    have hpre : q' ++ [i] <+: pathFrom virt 4 := (prefix_append _ _).trans hq
    have ha : (r, q' ++ [i]) ∈ d.addrs 3 := addr_of_path hr htop hpre (by omega)
    have hl : link s.mem parent i = some t := by
      rw [walk_concat, hwp] at hwt
      exact hwt
    have hstep : Reclaim d r (tableIndex virt 4) s ((s.store parent i 0).freePage t) := by
      refine .mk ha (head_of_path hpre) hwp hl fun k => ?_
      simpa using all_eq_true.mp hempty k (mem_finRange k)
    have hentry : parentEntry &&& pteAddr = t := (linkOf_eq_some hl).2.2
    rw [hentry] at ih ⊢
    have hsame : SameAbove s.mem (s.mem.set parent i 0) r q' :=
      .set htab.layout (addrs_deeper ha) hwp 0
    exact (ih (htab.shapes (htab.shapes_of_reclaim hstep)) hpre
      ⟨q', rfl, hsame.walk_eq.trans hwp, habove.congr hsame⟩).head hstep
  | case2 => exact .refl
  | case3 => exact .refl

/-! ### Translating -/

/-- `ns_vmm_translate` on a managed page. -/
lemma VmmTables.translate (h : VmmTables d (s, pend)) (hr : r ∈ d.roots)
    (htop : tableIndex virt 4 ∈ d.slots r) (hcan : canonicalAddress virt = true) (owns : Bool) :
    nsVmmTranslate s ⟨r, owns⟩ virt =
      match look s.mem virt 4 r with
      | none => .error .enoent
      | some (l, w) => .ok (leafAddr virt l w, ((trail s.mem virt 4 r).foldl Effective.narrow
          { write := true, user := true, nx := false }).flags w) := by
  have hroot : tablePointer s.config r = true := h.reached r (root_mem_managed hr s.mem)
  unfold nsVmmTranslate translateUnlocked
  rw [if_neg (by simp [hcan, show s.initialized = true from h.ready]), if_neg (by simp [hroot])]
  refine translateFrom_eq le_rfl (by decide) (fun _ => h.layout.top r _ hr (.inl htop))
    (fun p c hpre hlen _ hw => ?_) _
  exact h.reached c (mem_tables (addr_of_path hr htop hpre (by omega)) hw)

end

end Northstar
