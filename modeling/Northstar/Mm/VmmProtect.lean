import Northstar.Mm.VmmConserve

/-! # Refused protections

`ns_vmm_protect` checks and changes one page after the other. When it comes to a page that it
refuses it returns an error, and the pages in front of that page keep what was written to them.
So a refused call leaves the flags of every page alone exactly when each page in front of the first
refused one had the flags asked for already (`protect_error_keeps_flags_iff`).

The statement is about page tables that keep their levels apart (`Levelled`): the last table on the
way to a page is nowhere a table of an upper level, and what the upper levels take away from the
pages of a table is the same on every way to it. The tables of owned spaces are of this kind after
every run of calls, next to the boot tables of the kernel (`OwnedRun.Ok.levelled`). -/

namespace Northstar

open List

/-! ### The entries above a page -/

/-- The entries passed on the way to the address `q`. -/
def along (mem : PhysMem) : ℕ → List Index → List ℕ
  | _, [] => []
  | t, i :: q =>
    mem t i :: match link mem t i with
      | some c => along mem c q
      | none => []

/-- What the levels above the page of `virt` let through. -/
def above (mem : PhysMem) (r virt : ℕ) : Effective :=
  (along mem r (pathUp virt)).foldl Effective.narrow { write := true, user := true, nx := false }

/-- Whether a flag of a page is let through. -/
def Effective.admits (e : Effective) (flag : ℕ) : Bool :=
  if flag = pageWrite then e.write
  else if flag = pageUser then e.user
  else if flag = pageExec then !e.nx
  else true

section

variable {mem mem' : PhysMem} {r t virt : ℕ} {q : List Index}

/-- A trail goes along the way to any table that it passes. -/
lemma trail_walk {m n : ℕ} (hpath : q ++ pathFrom virt (n + 1) = pathFrom virt m)
    (hw : walk (link mem) r q = some t) :
    trail mem virt m r = along mem r q ++ trail mem virt (n + 1) t := by
  refine walk_induction
    (P := fun q m r => trail mem virt m r = along mem r q ++ trail mem virt (n + 1) t) rfl
    (fun q m r c hl ih => ?_) hpath hw
  obtain ⟨hp, hh, rfl⟩ := linkOf_eq_some hl
  rw [trail, if_neg (by simp [stops, hp, hh]), along, hl, ih, cons_append]

/-- The trail of a page that has an entry of its own. -/
lemma trail_page (hw : walk (link mem) r (pathUp virt) = some t) :
    trail mem virt 4 r = along mem r (pathUp virt) ++ [mem t (tableIndex virt 1)] := by
  rw [trail_walk (n := 0) rfl hw, trail, if_pos (.inr (by simp [stops]))]

/-- Memories that agree on the tables passed have the same entries along the way. -/
lemma along_congr (h : ∀ p i t, p ++ [i] <+: q → walk (link mem) r p = some t →
    mem' t i = mem t i) :
    along mem' r q = along mem r q := by
  induction q generalizing r with
  | nil => rfl
  | cons i q ih =>
    have hhead : mem' r i = mem r i := h [] i r (cons_prefix_cons.mpr ⟨rfl, nil_prefix⟩) rfl
    have hlink : link mem' r i = link mem r i := by rw [link, link, hhead]
    rw [along, along, hhead, hlink]
    cases hl : link mem r i with
    | none => rfl
    | some c =>
      refine congrArg _ (ih fun p k t hpre hw => h (i :: p) k t ?_ ?_)
      · exact cons_prefix_cons.mpr ⟨rfl, hpre⟩
      · rw [walk_cons, hl]
        exact hw

/-- The entries on the way to a table are links. -/
lemma link_of_mem_along (hw : walk (link mem) r q = some t) :
    ∀ w ∈ along mem r q, (linkOf w).isSome = true := by
  induction q generalizing r with
  | nil => simp [along]
  | cons i q ih =>
    obtain ⟨c, hl, hw⟩ := Option.bind_eq_some_iff.mp hw
    intro w hmem
    rw [along, hl, mem_cons] at hmem
    rcases hmem with rfl | hmem
    · exact Option.isSome_of_eq_some hl
    · exact ih hw w hmem

end

/-! ### What is reported for a page -/

/-- The bits of a word with one bit cleared under a condition. -/
lemma testBit_clearIf (c : Bool) (bit word i : ℕ) :
    (clearIf c bit word).testBit i = (word.testBit i && !(c && decide (bit = i))) := by
  unfold clearIf
  cases c
  · simp
  · rw [if_pos rfl, Nat.testBit_xor, Nat.testBit_and, Nat.testBit_two_pow]
    cases word.testBit i <;> simp

/-- The bits reported for a page: those of its entry that the levels above let through. -/
lemma testBit_narrow_flags (e : Effective) (w i : ℕ) :
    ((e.narrow w).flags w).testBit i = ((flagsFromEntry w).testBit i && e.admits i) := by
  simp only [Effective.flags, testBit_clearIf, Effective.narrow, Effective.admits]
  rw [testBit_flagsFromEntry]
  rcases Nat.lt_or_ge i 3 with hi | hi
  · interval_cases i <;> simp <;> grind
  · have hne : ∀ k < 3, k ≠ i := fun k hk => by omega
    simp [hne pageWrite (by decide), hne pageUser (by decide), hne pageExec (by decide),
      (hne pageWrite (by decide)).symm, (hne pageUser (by decide)).symm,
      (hne pageExec (by decide)).symm]

/-- The flags of an entry written by `ns_vmm_protect`. -/
lemma testBit_flags_protectedEntry (old flags : ℕ) {i : ℕ} (hi : i ≤ pageOwned) :
    (flagsFromEntry (protectedEntry old flags)).testBit i =
      (flags.testBit i || (old.testBit pteOwned && decide (pageOwned = i))) := by
  rw [testBit_flagsFromEntry]
  simp only [protectedEntry_testBit]
  rw [testBit_entryFromFlags _ _ (by decide), testBit_entryFromFlags _ _ (by decide),
    testBit_entryFromFlags _ _ (by decide), testBit_entryFromFlags _ _ (by decide),
    testBit_entryFromFlags _ _ (by decide), testBit_entryFromFlags _ _ (by decide),
    testBit_entryFromFlags _ _ (by decide)]
  unfold pageOwned at hi
  interval_cases i <;> simp

/-- The report `reported` for a page gives the flags asked for: of those that the levels `e` above
let through it has exactly the ones in `flags`, except that `OWNED` may be there besides. -/
def Effective.Grants (e : Effective) (flags reported : ℕ) : Prop :=
  (∀ i < pageOwned, reported.testBit i = (flags.testBit i && e.admits i)) ∧
    (flags.testBit pageOwned = true → reported.testBit pageOwned = true)

/-- What `ns_vmm_protect` writes gives the flags asked for. -/
lemma grants_protectedEntry (e : Effective) (old flags : ℕ) :
    e.Grants flags ((e.narrow (protectedEntry old flags)).flags (protectedEntry old flags)) := by
  constructor
  · intro i hi
    rw [testBit_narrow_flags, testBit_flags_protectedEntry _ _ hi.le]
    simp [hi.ne']
  · intro howned
    rw [testBit_narrow_flags, testBit_flags_protectedEntry _ _ le_rfl, howned]
    simp [Effective.admits]

/-- What `ns_vmm_protect` writes is reported as before if the flags asked for were there. -/
lemma Effective.Grants.flags_eq {e : Effective} {old flags : ℕ}
    (h : e.Grants flags ((e.narrow old).flags old)) :
    (e.narrow (protectedEntry old flags)).flags (protectedEntry old flags) =
      (e.narrow old).flags old := by
  obtain ⟨hflags, howned⟩ := h
  refine Nat.eq_of_testBit_eq fun i => ?_
  rcases Nat.lt_trichotomy i pageOwned with hi | rfl | hi
  · rw [hflags i hi]
    exact (grants_protectedEntry e old flags).1 i hi
  · rw [testBit_narrow_flags] at howned ⊢
    rw [testBit_flags_protectedEntry _ _ le_rfl, testBit_narrow_flags]
    have hbit : (flagsFromEntry old).testBit pageOwned = old.testBit pteOwned := by
      rw [testBit_flagsFromEntry]
      simp
    rw [hbit] at howned ⊢
    simp only [Effective.admits] at howned ⊢
    cases hf : flags.testBit pageOwned <;> simp_all
  · have hne : ∀ k ≤ pageOwned, k ≠ i := fun k hk => by omega
    rw [testBit_narrow_flags, testBit_narrow_flags, testBit_flagsFromEntry, testBit_flagsFromEntry]
    simp [hne pageWrite (by decide), hne pageUser (by decide), hne pageExec (by decide),
      hne pageGlobal (by decide), hne pageNocache (by decide), hne pageOwned le_rfl]

/-- The end of `translate_unlocked` behind links, which it can follow or not. -/
lemma translateTrail_concat (config : VmmConfig) (virt : ℕ) {w : ℕ} {ws : List ℕ}
    (hlinks : ∀ w ∈ ws, (linkOf w).isSome = true) (hp : w.testBit ptePresent = true)
    (e : Effective) :
    translateTrail config virt (ws.length + 1) (ws ++ [w]) e =
      if ∀ w ∈ ws, tablePointer config (w &&& pteAddr) = true then
        .ok (leafAddr virt 1 w, ((ws.foldl Effective.narrow e).narrow w).flags w)
      else .error .ecorrupt := by
  induction ws generalizing e with
  | nil => simp [translateTrail, stops, hp]
  | cons w' ws ih =>
    obtain ⟨c, hc⟩ := Option.isSome_iff_exists.mp (hlinks w' mem_cons_self)
    obtain ⟨hp', hh', rfl⟩ := linkOf_eq_some hc
    rw [cons_append, length_cons, translateTrail, if_neg (by simp [hp']),
      if_neg (by simp [stops, hh']), foldl_cons]
    by_cases hptr : tablePointer config (w' &&& pteAddr) = true
    · rw [if_neg (by simp [hptr]), ih fun w hw => hlinks w (mem_cons_of_mem w' hw)]
      simp [hptr]
    · rw [if_pos (by simpa using hptr), if_neg fun h => hptr (h w' mem_cons_self)]

/-! ### Pages with an entry of their own -/

/-- `walk_leaf` comes to the table `t` that holds the entry of the page of `virt`. -/
structure PageAt (s : Vmm) (space : VmmSpace) (virt t : ℕ) : Prop where
  root : tablePointer s.config space.rootPhys = true
  walk : walk (link s.mem) space.rootPhys (pathUp virt) = some t
  reach : ∀ w ∈ along s.mem space.rootPhys (pathUp virt),
    tablePointer s.config (w &&& pteAddr) = true
  present : (s.mem t (tableIndex virt 1)).testBit ptePresent = true

/-- `ns_vmm_protect` takes the page of `virt`: the page has an entry of its own, and user access is
asked for only if that entry gives it and the frame is not permanently reserved. -/
def Protectable (s : Vmm) (space : VmmSpace) (flags virt : ℕ) : Prop :=
  ∃ t rest, walkLeaf s space virt = .ok ((t, tableIndex virt 1) :: rest) ∧
    (flags.testBit pageUser = true → (s.mem t (tableIndex virt 1)).testBit pteUser = true ∧
      nsPmmIsPermanentlyReserved s.pmm (s.mem t (tableIndex virt 1) &&& pteAddr) = false)

/-- The page of `virt` is reported with the flags asked for. -/
def HasFlags (s : Vmm) (space : VmmSpace) (flags virt : ℕ) : Prop :=
  ∃ phys reported, translateUnlocked s space virt = .ok (phys, reported) ∧
    (above s.mem space.rootPhys virt).Grants flags reported

/-- Where `walk_leaf` comes to. -/
lemma walkLeafFrom_iff {config : VmmConfig} {mem : PhysMem} {virt t level table : ℕ}
    {q : List Index} {passed : List (ℕ × Index)}
    (hq : q ++ [tableIndex virt 1] = pathFrom virt (level + 1)) :
    (∃ rest, walkLeafFrom config mem virt level table passed =
        .ok ((t, tableIndex virt 1) :: rest)) ↔
      walk (link mem) table q = some t ∧
      (∀ w ∈ along mem table q, tablePointer config (w &&& pteAddr) = true) ∧
      (mem t (tableIndex virt 1)).testBit ptePresent = true := by
  induction level generalizing table q passed with
  | zero =>
    obtain rfl : q = [] := by simpa using congrArg length hq
    rw [walkLeafFrom]
    split_ifs with hp
    · simp only [exists_false, walk_nil, Option.some.injEq, false_iff, not_and]
      rintro rfl -
      simp [hp]
    · simp only [Except.ok.injEq, cons.injEq, Prod.mk.injEq, and_true, exists_and_left,
        exists_eq', walk_nil, Option.some.injEq, along, not_mem_nil, false_implies, implies_true,
        true_and]
      refine ⟨fun h => ⟨h, ?_⟩, And.left⟩
      subst h
      simpa using hp
  | succ level ih =>
    cases q with
    | nil => simpa using congrArg length hq
    | cons i q =>
      obtain ⟨rfl, hrest⟩ : i = tableIndex virt (level + 2) ∧
          q ++ [tableIndex virt 1] = pathFrom virt (level + 1) := cons.inj hq
      rw [walkLeafFrom, walk_cons, along]
      cases hl : link mem table (tableIndex virt (level + 2)) with
      | none =>
        have hstop : ¬ ((mem table (tableIndex virt (level + 2))).testBit ptePresent = true ∧
            (mem table (tableIndex virt (level + 2))).testBit pteHuge = false) := fun h => by
          rw [link, linkOf_of_link h.1 h.2] at hl
          cases hl
        split_ifs with hp hh
        · simp
        · simp
        all_goals exact absurd ⟨by simpa using hp, by simpa using hh⟩ hstop
      | some c =>
        obtain ⟨hp, hh, rfl⟩ := linkOf_eq_some hl
        rw [if_neg (by simp [hp]), if_neg (by simp [hh]), Option.bind_some]
        split_ifs with hptr
        · simp [hptr]
        · rw [ih hrest]
          simp [hptr]

section

variable {s s' : Vmm} {space : VmmSpace} {flags virt t : ℕ}

/-- `walk_leaf` comes to the entry of a page that has one. -/
lemma walkLeaf_iff :
    (∃ rest, walkLeaf s space virt = .ok ((t, tableIndex virt 1) :: rest)) ↔
      PageAt s space virt t := by
  unfold walkLeaf
  split_ifs with hroot
  · refine ⟨fun ⟨rest, h⟩ => (nomatch h), fun h => ?_⟩
    rw [h.root] at hroot
    cases hroot
  · rw [walkLeafFrom_iff (q := pathUp virt) rfl]
    exact ⟨fun ⟨hw, hreach, hp⟩ => ⟨by simpa using hroot, hw, hreach, hp⟩,
      fun h => ⟨h.walk, h.reach, h.present⟩⟩

/-- When `ns_vmm_protect` takes a page. -/
lemma protectable_iff :
    Protectable s space flags virt ↔ ∃ t, PageAt s space virt t ∧
      (flags.testBit pageUser = true → (s.mem t (tableIndex virt 1)).testBit pteUser = true ∧
        nsPmmIsPermanentlyReserved s.pmm (s.mem t (tableIndex virt 1) &&& pteAddr) = false) := by
  refine exists_congr fun t => ?_
  rw [exists_and_right, walkLeaf_iff]

/-- What `translate_unlocked` says about a page with an entry of its own. -/
lemma translateUnlocked_page (hw : walk (link s.mem) space.rootPhys (pathUp virt) = some t)
    (hp : (s.mem t (tableIndex virt 1)).testBit ptePresent = true) :
    translateUnlocked s space virt =
      if tablePointer s.config space.rootPhys = true ∧
          ∀ w ∈ along s.mem space.rootPhys (pathUp virt),
            tablePointer s.config (w &&& pteAddr) = true then
        .ok (leafAddr virt 1 (s.mem t (tableIndex virt 1)),
          ((above s.mem space.rootPhys virt).narrow (s.mem t (tableIndex virt 1))).flags
            (s.mem t (tableIndex virt 1)))
      else .error .ecorrupt := by
  have hlen : (along s.mem space.rootPhys (pathUp virt)).length = 3 := by
    obtain ⟨c₄, h₄, hw⟩ := Option.bind_eq_some_iff.mp hw
    obtain ⟨c₃, h₃, hw⟩ := Option.bind_eq_some_iff.mp hw
    obtain ⟨c₂, h₂, hw⟩ := Option.bind_eq_some_iff.mp hw
    simp [along, h₄, h₃, h₂]
  have hconcat := translateTrail_concat s.config virt
    (link_of_mem_along hw) hp { write := true, user := true, nx := false }
  rw [hlen] at hconcat
  unfold translateUnlocked
  rw [translateFrom_eq_trail, trail_page hw, hconcat]
  by_cases hroot : tablePointer s.config space.rootPhys = true
  · rw [if_neg (by simp [hroot])]
    simp only [hroot, true_and]
    rfl
  · rw [if_pos (by simpa using hroot), if_neg fun h => hroot h.1]

/-- What is reported for a page with an entry of its own. -/
lemma PageAt.translate (h : PageAt s space virt t) :
    translateUnlocked s space virt =
      .ok (leafAddr virt 1 (s.mem t (tableIndex virt 1)),
        ((above s.mem space.rootPhys virt).narrow (s.mem t (tableIndex virt 1))).flags
          (s.mem t (tableIndex virt 1))) := by
  rw [translateUnlocked_page h.walk h.present, if_pos ⟨h.root, h.reach⟩]

/-- When a page with an entry of its own is reported with the flags. -/
lemma PageAt.hasFlags_iff (h : PageAt s space virt t) :
    HasFlags s space flags virt ↔ (above s.mem space.rootPhys virt).Grants flags
      (((above s.mem space.rootPhys virt).narrow (s.mem t (tableIndex virt 1))).flags
        (s.mem t (tableIndex virt 1))) := by
  unfold HasFlags
  rw [h.translate]
  simp

/-- One round of `ns_vmm_protect`, with both ways to leave it. -/
lemma protectOne_iff :
    Sat (protectOne space virt flags) s
      (fun _ s' => Protectable s space flags virt ∧ ∃ t, PageAt s space virt t ∧
        s' = protectPage space.rootPhys virt flags t s)
      (fun _ s' => ¬ Protectable s space flags virt ∧ s' = s) := by
  simp only [protectOne, sat_bind, sat_get, sat_liftExcept]
  refine ⟨fun slots hok => ?_, fun e herr => ⟨?_, trivial⟩⟩
  · obtain ⟨-, t, rest, rfl, -⟩ := walkLeaf_ok hok
    have hpage := walkLeaf_iff.mp ⟨rest, hok⟩
    simp only [sat_bind, sat_require, sat_modify]
    refine ⟨fun hperm => ⟨⟨t, rest, hok, fun hu => ?_⟩, t, hpage, rfl⟩, fun hperm => ⟨?_, trivial⟩⟩
    · simpa [not_or] using not_and.mp hperm hu
    · rintro ⟨t', rest', hok', huser⟩
      obtain ⟨rfl, rfl⟩ : t' = t ∧ rest' = rest := by
        have heq := Except.ok.inj (hok'.symm.trans hok)
        simpa using heq
      refine hperm fun hboth => ?_
      obtain ⟨hu, hbad⟩ := hboth
      obtain ⟨hold, hres⟩ := huser hu
      simp [hold, hres] at hbad
  · rintro ⟨t, rest, hok, -⟩
    cases herr.symm.trans hok

end

/-! ### Tables of different levels -/

/-- The page tables under the roots `R` keep their levels apart: no entry at the top is huge, the
last table on the way to a page is not a table of an upper level, and what the upper levels let
through to it is the same on every way. -/
structure Levelled (R : Set ℕ) (mem : PhysMem) : Prop where
  top : ∀ r ∈ R, ∀ i, (mem r i).testBit ptePresent = true → (mem r i).testBit pteHuge = false
  apart : ∀ r ∈ R, ∀ r' ∈ R, ∀ p p' t, p.length = 3 → p'.length < 3 →
    walk (link mem) r p = some t → walk (link mem) r' p' ≠ some t
  alike : ∀ r ∈ R, ∀ r' ∈ R, ∀ v v' t, walk (link mem) r (pathUp v) = some t →
    walk (link mem) r' (pathUp v') = some t → above mem r v = above mem r' v'

/-- Between two states the tables of the upper levels under `R` keep their entries, and so does
everything but memory that a walk depends on. -/
structure KeepsUpper (R : Set ℕ) (s s' : Vmm) : Prop where
  config : s'.config = s.config
  pmm : s'.pmm = s.pmm
  initialized : s'.initialized = s.initialized
  entry : ∀ r ∈ R, ∀ p t, p.length < 3 → walk (link s.mem) r p = some t →
    ∀ i, s'.mem t i = s.mem t i

namespace KeepsUpper

variable {R : Set ℕ} {s s' s'' : Vmm} {r virt : ℕ} {p : List Index}

lemma refl (R : Set ℕ) (s : Vmm) : KeepsUpper R s s := ⟨rfl, rfl, rfl, fun _ _ _ _ _ _ _ => rfl⟩

/-- Walks to tables are the same. -/
lemma walk_eq (h : KeepsUpper R s s') (hr : r ∈ R) (hp : p.length ≤ 3) :
    walk (link s'.mem) r p = walk (link s.mem) r p := by
  refine walk_congr fun q i t hpre hw => ?_
  have hlen := hpre.length_le
  rw [length_append, length_singleton] at hlen
  rw [link, link, h.entry r hr q t (by omega) hw]

/-- So are the entries that they pass. -/
lemma along_eq (h : KeepsUpper R s s') (hr : r ∈ R) (hp : p.length ≤ 3) :
    along s'.mem r p = along s.mem r p := by
  refine along_congr fun q i t hpre hw => ?_
  have hlen := hpre.length_le
  rw [length_append, length_singleton] at hlen
  exact h.entry r hr q t (by omega) hw i

/-- What the upper levels let through is the same. -/
lemma above_eq (h : KeepsUpper R s s') (hr : r ∈ R) :
    above s'.mem r virt = above s.mem r virt := by
  unfold above
  rw [h.along_eq hr (by simp)]

lemma trans (h : KeepsUpper R s s') (h' : KeepsUpper R s' s'') : KeepsUpper R s s'' := by
  refine ⟨h'.config.trans h.config, h'.pmm.trans h.pmm, h'.initialized.trans h.initialized,
    fun r hr p t hp hw i => ?_⟩
  rw [h'.entry r hr p t hp ((h.walk_eq hr hp.le).trans hw), h.entry r hr p t hp hw]

/-- The levels are still apart. -/
lemma levelled (h : KeepsUpper R s s') (hlev : Levelled R s.mem) : Levelled R s'.mem := by
  refine ⟨fun r hr i => ?_, fun r hr r' hr' p p' t hp hp' => ?_, fun r hr r' hr' v v' t => ?_⟩
  · rw [h.entry r hr [] r (by simp) rfl]
    exact hlev.top r hr i
  · rw [h.walk_eq hr hp.le, h.walk_eq hr' hp'.le]
    exact hlev.apart r hr r' hr' p p' t hp hp'
  · rw [h.walk_eq hr (by simp), h.walk_eq hr' (by simp), h.above_eq hr, h.above_eq hr']
    exact hlev.alike r hr r' hr' v v' t

/-- A page has its entry in the same table. -/
lemma pageAt_iff (h : KeepsUpper R s s') {space : VmmSpace} (hr : space.rootPhys ∈ R) {t : ℕ}
    (hp : (s'.mem t (tableIndex virt 1)).testBit ptePresent =
      (s.mem t (tableIndex virt 1)).testBit ptePresent) :
    PageAt s' space virt t ↔ PageAt s space virt t := by
  constructor
  · rintro ⟨hroot, hw, hreach, hpres⟩
    rw [h.config] at hroot hreach
    rw [h.walk_eq hr (by simp)] at hw
    rw [h.along_eq hr (by simp)] at hreach
    exact ⟨hroot, hw, hreach, hp ▸ hpres⟩
  · rintro ⟨hroot, hw, hreach, hpres⟩
    refine ⟨h.config ▸ hroot, (h.walk_eq hr (by simp)).trans hw, ?_, hp.trans hpres⟩
    rw [h.along_eq hr (by simp), h.config]
    exact hreach

end KeepsUpper

/-- A store to the entry of a page keeps the upper levels. -/
lemma Levelled.keepsUpper {R : Set ℕ} {s : Vmm} {space : VmmSpace} {virt t : ℕ}
    (hlev : Levelled R s.mem) (hr : space.rootPhys ∈ R) (hpage : PageAt s space virt t)
    (flags : ℕ) : KeepsUpper R s (protectPage space.rootPhys virt flags t s) := by
  refine ⟨by simp [protectPage], by simp [protectPage], by simp [protectPage, Vmm.store],
    fun r hr' p t' hp hw i => ?_⟩
  rw [protectPage_mem]
  refine set_of_ne _ _ ?_
  rintro ⟨rfl, -⟩
  exact hlev.apart _ hr r hr' _ p t' (by simp) hp hpage.walk hw

/-! ### The loop -/

/-- The entry of the page of `virt` is in slot `i` of the table `t`. -/
def EntryOf (mem : PhysMem) (r virt t : ℕ) (i : Index) : Prop :=
  walk (link mem) r (pathUp virt) = some t ∧ tableIndex virt 1 = i

/-- What `ns_vmm_protect` has done when it has passed `n` pages from `virt`: it has written to their
entries, and to nothing else. -/
structure Passes (R : Set ℕ) (space : VmmSpace) (flags virt n : ℕ) (s s' : Vmm) : Prop where
  upper : KeepsUpper R s s'
  taken : ∀ k < n, Protectable s space flags (virt + k * nsPageSize)
  front : ∀ k < n, ∀ t i, EntryOf s.mem space.rootPhys (virt + k * nsPageSize) t i →
    s'.mem t i = protectedEntry (s.mem t i) flags
  rest : ∀ t i, (∀ k < n, ¬ EntryOf s.mem space.rootPhys (virt + k * nsPageSize) t i) →
    s'.mem t i = s.mem t i

/-- Writing the same flags once more changes nothing. -/
lemma protectedEntry_twice (old flags : ℕ) :
    protectedEntry (protectedEntry old flags) flags = protectedEntry old flags := by
  refine Nat.eq_of_testBit_eq fun i => ?_
  rw [protectedEntry_testBit, protectedEntry_addr, protectedEntry_owned, protectedEntry_testBit]
  cases hi : decide (pteOwned = i) with
  | false => simp
  | true =>
    obtain rfl := of_decide_eq_true hi
    rw [entryFromFlags_owned]
    cases flags.testBit pageOwned <;> simp

/-- A protected entry admits user access if that is asked for. -/
lemma protectedEntry_user (old flags : ℕ) :
    (protectedEntry old flags).testBit pteUser = flags.testBit pageUser := by
  rw [protectedEntry_testBit, testBit_entryFromFlags _ _ (by decide)]
  simp

namespace Passes

variable {R : Set ℕ} {space : VmmSpace} {flags virt n : ℕ} {s s' s'' : Vmm}

/-- An entry is the old one, or the entry of a page that was passed. -/
lemma entry (h : Passes R space flags virt n s s') (t : ℕ) (i : Index) :
    s'.mem t i = s.mem t i ∨ s'.mem t i = protectedEntry (s.mem t i) flags ∧
      ∃ k < n, EntryOf s.mem space.rootPhys (virt + k * nsPageSize) t i := by
  by_cases hk : ∃ k < n, EntryOf s.mem space.rootPhys (virt + k * nsPageSize) t i
  · obtain ⟨k, hlt, hat⟩ := hk
    exact .inr ⟨h.front k hlt t i hat, k, hlt, hat⟩
  · exact .inl (h.rest t i fun k hlt hat => hk ⟨k, hlt, hat⟩)

/-- What the loop asks about an entry is not changed by what was written to it. -/
lemma same_tests (h : Passes R space flags virt n s s') (t : ℕ) (i : Index) :
    (s'.mem t i).testBit ptePresent = (s.mem t i).testBit ptePresent ∧
      s'.mem t i &&& pteAddr = s.mem t i &&& pteAddr ∧
      (flags.testBit pageUser = true →
        (s'.mem t i).testBit pteUser = (s.mem t i).testBit pteUser) := by
  rcases h.entry t i with heq | ⟨heq, k, hk, hw, rfl⟩
  · simp [heq]
  · obtain ⟨t', hpage, huser⟩ := Northstar.protectable_iff.mp (h.taken k hk)
    obtain rfl := Option.some.inj (hw.symm.trans hpage.walk)
    rw [heq, protectedEntry_present, protectedEntry_addr, protectedEntry_user]
    exact ⟨hpage.present.symm, rfl, fun hu => hu.trans (huser hu).1.symm⟩

/-- So it takes and refuses the same pages. -/
lemma protectable_iff (h : Passes R space flags virt n s s') (hr : space.rootPhys ∈ R) (v : ℕ) :
    Protectable s' space flags v ↔ Protectable s space flags v := by
  rw [Northstar.protectable_iff, Northstar.protectable_iff]
  refine exists_congr fun t => ?_
  obtain ⟨hpres, haddr, huser⟩ := h.same_tests t (tableIndex v 1)
  rw [h.upper.pageAt_iff hr hpres, haddr, h.upper.pmm]
  refine and_congr_right fun _ => forall_congr' fun hu => ?_
  rw [huser hu]

/-- No page has been passed. -/
lemma zero (R : Set ℕ) (space : VmmSpace) (flags virt : ℕ) (s : Vmm) :
    Passes R space flags virt 0 s s :=
  ⟨.refl R s, fun k hk => absurd hk k.not_lt_zero, fun k hk => absurd hk k.not_lt_zero,
    fun _ _ _ => rfl⟩

/-- A single page. -/
lemma one (hlev : Levelled R s.mem) (hr : space.rootPhys ∈ R) {t : ℕ}
    (htake : Protectable s space flags virt) (hpage : PageAt s space virt t) :
    Passes R space flags virt 1 s (protectPage space.rootPhys virt flags t s) := by
  refine ⟨hlev.keepsUpper hr hpage flags, fun k hk => ?_, fun k hk t' i hat => ?_,
    fun t' i hnot => ?_⟩
  · obtain rfl : k = 0 := by omega
    simpa using htake
  · obtain rfl : k = 0 := by omega
    rw [Nat.zero_mul, Nat.add_zero] at hat
    obtain ⟨hw, rfl⟩ := hat
    obtain rfl := Option.some.inj (hpage.walk.symm.trans hw)
    rw [protectPage_mem, set_self]
  · rw [protectPage_mem]
    refine set_of_ne _ _ ?_
    rintro ⟨rfl, rfl⟩
    exact hnot 0 one_pos (by simpa [EntryOf] using hpage.walk)

/-- One page, and then the pages behind it. -/
lemma cons (hlev : Levelled R s.mem) (hr : space.rootPhys ∈ R) {t : ℕ}
    (htake : Protectable s space flags virt) (hpage : PageAt s space virt t)
    (h : Passes R space flags (virt + nsPageSize) n
      (protectPage space.rootPhys virt flags t s) s') :
    Passes R space flags virt (n + 1) s s' := by
  have hone := one hlev hr htake hpage
  have hnext : ∀ k, virt + (k + 1) * nsPageSize = virt + nsPageSize + k * nsPageSize :=
    fun k => by ring
  -- the pages behind have their entries where they had them
  have hat : ∀ k t' i, EntryOf (protectPage space.rootPhys virt flags t s).mem space.rootPhys
        (virt + nsPageSize + k * nsPageSize) t' i ↔
      EntryOf s.mem space.rootPhys (virt + (k + 1) * nsPageSize) t' i := fun k t' i => by
    rw [hnext, EntryOf, EntryOf, hone.upper.walk_eq hr (by simp)]
  refine ⟨hone.upper.trans h.upper, fun k hk => ?_, fun k hk t' i hk' => ?_, fun t' i hnot => ?_⟩
  · cases k with
    | zero => simpa using htake
    | succ k =>
      rw [hnext]
      exact (hone.protectable_iff hr _).mp (h.taken k (by omega))
  · cases k with
    | zero =>
      have hfirst := hone.front 0 one_pos t' i hk'
      rcases h.entry t' i with heq | ⟨heq, -⟩
      · rw [heq, hfirst]
      · rw [heq, hfirst, protectedEntry_twice]
    | succ k =>
      rw [h.front k (by omega) t' i ((hat k t' i).mpr hk')]
      rcases hone.entry t' i with heq | ⟨heq, -⟩
      · rw [heq]
      · rw [heq, protectedEntry_twice]
  · rw [h.rest t' i fun k hk hbehind => hnot (k + 1) (by omega) ((hat k t' i).mp hbehind)]
    refine hone.rest t' i fun k hk hfirst => hnot k (by omega) hfirst

end Passes

section

variable {R : Set ℕ} {space : VmmSpace} {s s' : Vmm} {flags : ℕ}

/-- A loop that returns an error has passed the pages in front of the first one that it refuses. -/
lemma protectPages_spec (pages virt : ℕ) (hlev : Levelled R s.mem) (hr : space.rootPhys ∈ R) :
    Sat (protectPages space flags pages virt) s (fun _ _ => True) fun _ s' =>
      ∃ n, Passes R space flags virt n s s' ∧
        ¬ Protectable s space flags (virt + n * nsPageSize) := by
  induction pages generalizing s virt with
  | zero => trivial
  | succ pages ih =>
    rw [protectPages_succ, sat_bind]
    refine protectOne_iff.mono ?_ ?_
    · rintro u s₁ ⟨htake, t, hpage, rfl⟩
      have hupper := hlev.keepsUpper hr hpage flags
      refine (ih (virt + nsPageSize) (hupper.levelled hlev)).mono (fun _ _ _ => trivial) ?_
      rintro e s' ⟨n, hpass, hrefused⟩
      refine ⟨n + 1, hpass.cons hlev hr htake hpage, ?_⟩
      have hone := (Passes.zero R space flags (virt + nsPageSize)
        (protectPage space.rootPhys virt flags t s)).cons hlev hr htake hpage
      rwa [← hone.protectable_iff hr, show virt + (n + 1) * nsPageSize =
        virt + nsPageSize + n * nsPageSize by ring]
    · rintro e s' ⟨hrefused, rfl⟩
      exact ⟨0, .zero .., by simpa using hrefused⟩

/-- `ns_vmm_protect` comes to its loop. -/
def ProtectStarts (space : VmmSpace) (virt length : ℕ) : Prop :=
  validatePageRange virt length ≠ none ∧ ¬ (space.ownsRoot = true ∧ virt ≥ kernelHalfBase)

/-- What a call that returns an error has done. -/
lemma nsVmmProtect_error {e : VmmError} {virt length : ℕ} (hlev : Levelled R s.mem)
    (hr : space.rootPhys ∈ R) (h : nsVmmProtect space virt length flags s = .error e s') :
    ¬ ProtectStarts space virt length ∧ s' = s ∨ ProtectStarts space virt length ∧
      ∃ n, Passes R space flags virt n s s' ∧
        ¬ Protectable s space flags (virt + n * nsPageSize) := by
  have hspec : Sat (nsVmmProtect space virt length flags) s (fun _ _ => True) fun _ s' =>
      ¬ ProtectStarts space virt length ∧ s' = s ∨ ProtectStarts space virt length ∧
        ∃ n, Passes R space flags virt n s s' ∧
          ¬ Protectable s space flags (virt + n * nsPageSize) := by
    unfold nsVmmProtect
    split
    · next hnone => exact .inl ⟨fun hstarts => hstarts.1 hnone, rfl⟩
    · next finish hrange =>
      simp only [sat_bind, sat_require]
      refine ⟨fun hhalf => ?_, fun hhalf => .inl ⟨fun hstarts => hhalf hstarts.2, trivial⟩⟩
      refine (protectPages_spec _ virt hlev hr).mono (fun _ _ _ => trivial) fun e s' hpass => ?_
      exact .inr ⟨⟨by simp [hrange], hhalf⟩, hpass⟩
  exact hspec.error h

end

/-! ### Reports -/

/-- Every page has a canonical address. -/
lemma exists_canonical (v : ℕ) :
    ∃ a : UInt64, canonicalAddress a.toNat = true ∧ pathUp a.toNat = pathUp v ∧
      tableIndex a.toNat 1 = tableIndex v 1 := by
  have hcut : ∀ a : ℕ, a < 2 ^ 64 → a % 2 ^ 48 = v % 2 ^ 48 →
      (UInt64.ofNat a).toNat = a ∧ pathUp (UInt64.ofNat a).toNat = pathUp v ∧
        tableIndex (UInt64.ofNat a).toNat 1 = tableIndex v 1 := by
    intro a ha hmod
    have hval : (UInt64.ofNat a).toNat = a := UInt64.toNat_ofNat_of_lt' ha
    rw [hval]
    refine ⟨rfl, ?_, ?_⟩
    · simp only [pathUp, cons.injEq, Fin.ext_iff, tableIndex_val, and_true]
      omega
    · simp only [Fin.ext_iff, tableIndex_val]
      omega
  rcases Nat.lt_or_ge (v % 2 ^ 48) nsVmmUserTop with hlow | hhigh
  · obtain ⟨hval, hpath⟩ := hcut (v % 2 ^ 48) (by omega) (by omega)
    refine ⟨_, ?_, hpath⟩
    rw [hval, canonicalAddress, Bool.or_eq_true, decide_eq_true_eq]
    exact .inl hlow
  · obtain ⟨hval, hpath⟩ := hcut (v % 2 ^ 48 + 0xffff000000000000) (by omega) (by omega)
    refine ⟨_, ?_, hpath⟩
    rw [hval, canonicalAddress, Bool.or_eq_true, decide_eq_true_eq, decide_eq_true_eq]
    unfold nsVmmUserTop at hhigh
    unfold kernelHalfBase
    omega

/-! ### Owned spaces next to the boot tables -/

/-- The boot tables of the kernel: none of them is a free frame, and they keep their levels
apart. -/
structure BootTables (s₀ : Vmm) : Prop where
  taken : ∀ p t, p.length ≤ 3 → walk (link s₀.mem) s₀.config.kernelRootPhys p = some t →
    ¬ s₀.pmm.IsFree t
  levelled : Levelled {s₀.config.kernelRootPhys} s₀.mem

section

variable {s₀ s : Vmm} {live : Set ℕ} {r : ℕ} {p : List Index}

/-- The address `p` under `r` leads into the boot tables. -/
def LeadsToBoot (s₀ : Vmm) (live : Set ℕ) (r : ℕ) (p : List Index) : Prop :=
  r = s₀.config.kernelRootPhys ∨ r ∈ live ∧ ∃ i q, p = i :: q ∧ i ∉ lowerSlots

/-- Every address leads into the tables of an owned space or into the boot tables. -/
lemma owned_or_boot (hr : r ∈ insert s₀.config.kernelRootPhys live) (hp : p.length ≤ 3) :
    (r, p) ∈ (ownedDomain live).addrs 3 ∨ LeadsToBoot s₀ live r p := by
  rcases hr with hr | hr
  · exact .inr (.inl hr)
  · cases p with
    | nil => exact .inl (Domain.root_mem_addrs (d := ownedDomain live) hr 3)
    | cons i q =>
      by_cases hi : i ∈ lowerSlots
      · exact .inl (Domain.mem_addrs.mpr ⟨hr, hp, by simpa [ownedDomain] using hi⟩)
      · exact .inr (.inr ⟨hr, i, q, rfl, hi⟩)

/-- Walks into the boot tables go where they went under the root of the kernel at the start. -/
lemma Accounted.walk_boot (h : Accounted s₀ live (s, ∅)) (hboot : BootTables s₀)
    (hlead : LeadsToBoot s₀ live r p) (hp : p.length ≤ 3) :
    walk (link s.mem) r p = walk (link s₀.mem) s₀.config.kernelRootPhys p ∧
      along s.mem r p = along s₀.mem s₀.config.kernelRootPhys p := by
  have hkernel : ¬ s₀.pmm.IsFree s₀.config.kernelRootPhys := hboot.taken [] _ (by simp) rfl
  -- the entries passed are those of the start
  have hsame : ∀ q i t, q ++ [i] <+: p →
      walk (link s₀.mem) s₀.config.kernelRootPhys q = some t → s.mem t i = s₀.mem t i := by
    intro q i t hpre hw
    have hlen := hpre.length_le
    rw [length_append, length_singleton] at hlen
    exact h.kept.boot t (hboot.taken q t (by omega) hw) i
  rcases hlead with rfl | ⟨hr, i, q, rfl, hi⟩
  · exact ⟨walk_congr fun q i t hpre hw => by rw [link, link, hsame q i t hpre hw],
      along_congr hsame⟩
  · have hentry : s.mem r i = s₀.mem s₀.config.kernelRootPhys i := h.kept.upper hkernel r hr i hi
    have hlink : link s.mem r i = link s₀.mem s₀.config.kernelRootPhys i := by
      rw [link, link, hentry]
    rw [walk_cons, walk_cons, along, along, hentry, hlink]
    cases hl : link s₀.mem s₀.config.kernelRootPhys i with
    | none => exact ⟨rfl, rfl⟩
    | some c =>
      have hbehind : ∀ q' j t, q' ++ [j] <+: q → walk (link s₀.mem) c q' = some t →
          s.mem t j = s₀.mem t j := fun q' j t hpre hw =>
        hsame (i :: q') j t (cons_prefix_cons.mpr ⟨rfl, hpre⟩) (by rw [walk_cons, hl]; exact hw)
      exact ⟨walk_congr fun q' j t hpre hw => by rw [link, link, hbehind q' j t hpre hw],
        congrArg _ (along_congr hbehind)⟩

/-- No table of an owned space is a boot table. -/
lemma Accounted.owned_ne_boot (h : Accounted s₀ live (s, ∅)) (hboot : BootTables s₀) {r' t : ℕ}
    {p' : List Index} (ha : (r, p) ∈ (ownedDomain live).addrs 3)
    (hlead : LeadsToBoot s₀ live r' p') (hp' : p'.length ≤ 3)
    (hw : walk (link s.mem) r p = some t) : walk (link s.mem) r' p' ≠ some t := by
  intro hw'
  rw [(h.walk_boot hboot hlead hp').1] at hw'
  exact hboot.taken p' t hp' hw'
    ((h.account t).mpr (.inr (.inl (managed_subset_frames (mem_tables ha hw)))))

/-- The tables of owned spaces keep their levels apart, together with the boot tables. -/
lemma Accounted.levelled (h : Accounted s₀ live (s, ∅)) (hboot : BootTables s₀) :
    Levelled (insert s₀.config.kernelRootPhys live) s.mem := by
  have hroot : s₀.config.kernelRootPhys ∈ ({s₀.config.kernelRootPhys} : Set ℕ) := rfl
  refine ⟨fun r hr i hpres => ?_, fun r hr r' hr' p p' t hp hp' hw hw' => ?_,
    fun r hr r' hr' v v' t hw hw' => ?_⟩
  · have hkernel : ¬ s₀.pmm.IsFree s₀.config.kernelRootPhys := hboot.taken [] _ (by simp) rfl
    rcases hr with rfl | hr
    · rw [h.kept.boot _ hkernel] at hpres ⊢
      exact hboot.levelled.top _ hroot i hpres
    · by_cases hi : i ∈ lowerSlots
      · exact h.tables.layout.top r i hr (.inl hi) hpres
      · rw [h.kept.upper hkernel r hr i hi] at hpres ⊢
        exact hboot.levelled.top _ hroot i hpres
  · rcases owned_or_boot hr hp.le with ha | ha <;> rcases owned_or_boot hr' hp'.le with hb | hb
    · have heq := congrArg (fun a => a.2.length) (h.tables.layout.forest.inj _ ha _ hb t hw hw')
      dsimp only at heq
      omega
    · exact h.owned_ne_boot hboot ha hb hp'.le hw hw'
    · exact h.owned_ne_boot hboot hb ha hp.le hw' hw
    · rw [(h.walk_boot hboot ha hp.le).1] at hw
      rw [(h.walk_boot hboot hb hp'.le).1] at hw'
      exact hboot.levelled.apart _ hroot _ hroot p p' t hp hp' hw hw'
  · have hlen : ∀ v, (pathUp v).length ≤ 3 := fun v => le_rfl
    rcases owned_or_boot hr (hlen v) with ha | ha <;>
      rcases owned_or_boot hr' (hlen v') with hb | hb
    · obtain ⟨rfl, hpath⟩ := Prod.mk.inj (h.tables.layout.forest.inj _ ha _ hb t hw hw')
      unfold above
      rw [hpath]
    · exact absurd hw' (h.owned_ne_boot hboot ha hb (hlen v') hw)
    · exact absurd hw (h.owned_ne_boot hboot hb ha (hlen v) hw')
    · obtain ⟨hwalk, halong⟩ := h.walk_boot hboot ha (hlen v)
      obtain ⟨hwalk', halong'⟩ := h.walk_boot hboot hb (hlen v')
      rw [hwalk] at hw
      rw [hwalk'] at hw'
      have halike := hboot.levelled.alike _ hroot _ hroot v v' t hw hw'
      unfold above at halike ⊢
      rwa [halong, halong']

end

/-- After every run of calls on owned spaces the page tables keep their levels apart. -/
lemma OwnedRun.Ok.levelled {s₀ : Vmm} {run : OwnedRun} (h : run.Ok s₀) (hboot : BootTables s₀) :
    Levelled (insert s₀.config.kernelRootPhys {root | root ∈ run.live}) run.vmm.mem :=
  h.accounted.levelled hboot

/-! ### The pages in front of a refused one -/

section

variable {R : Set ℕ} {space : VmmSpace} {s s' : Vmm} {flags virt : ℕ}

/-- What `ns_vmm_translate` reports depends on the trail of the page. -/
lemma nsVmmTranslate_congr (h : KeepsUpper R s s')
    (htrail : trail s'.mem virt 4 space.rootPhys = trail s.mem virt 4 space.rootPhys) :
    nsVmmTranslate s' space virt = nsVmmTranslate s space virt := by
  unfold nsVmmTranslate translateUnlocked
  rw [translateFrom_eq_trail, translateFrom_eq_trail, htrail, h.config, h.initialized]

/-- The report for a page with an entry of its own, at a canonical address. -/
lemma PageAt.nsVmmTranslate {t : ℕ} (h : PageAt s space virt t) (hinit : s.initialized = true)
    (hcan : canonicalAddress virt = true) :
    (nsVmmTranslate s space virt).map Prod.snd =
      .ok (((above s.mem space.rootPhys virt).narrow (s.mem t (tableIndex virt 1))).flags
        (s.mem t (tableIndex virt 1))) := by
  unfold Northstar.nsVmmTranslate
  rw [if_neg (by simp [hinit, hcan]), h.translate]
  rfl

/-- If the pages passed had the flags asked for, every report is the same. -/
lemma Passes.reports {n : ℕ} (h : Passes R space flags virt n s s') (hlev : Levelled R s.mem)
    (hr : space.rootPhys ∈ R)
    (hfront : ∀ k < n, HasFlags s space flags (virt + k * nsPageSize))
    {space' : VmmSpace} (hr' : space'.rootPhys ∈ R) (address : ℕ) :
    (nsVmmTranslate s' space' address).map Prod.snd =
      (nsVmmTranslate s space' address).map Prod.snd := by
  have hlen : (pathUp address).length ≤ 3 := le_rfl
  cases hw : walk (link s.mem) space'.rootPhys (pathUp address) with
  | none =>
    -- the walk ends above the last level
    refine congrArg _ (nsVmmTranslate_congr h.upper (trail_congr le_rfl
      (fun _ => hlev.top _ hr' _) fun p i t hpre hwp => ?_))
    refine h.upper.entry _ hr' p t ?_ hwp i
    by_contra hlong
    have hle := hpre.length_le
    rw [length_append, length_singleton, length_pathFrom] at hle
    have hp : p ++ [i] = pathUp address ++ [tableIndex address 1] :=
      hpre.eq_of_length (by rw [length_append, length_singleton, length_pathFrom]; omega)
    obtain ⟨rfl, -⟩ := append_inj' hp rfl
    cases hwp.symm.trans hw
  | some t =>
    have hw' := (h.upper.walk_eq hr' hlen).trans hw
    rcases h.entry t (tableIndex address 1) with hsame | ⟨hwritten, k, hk, hwk, hik⟩
    · refine congrArg _ (nsVmmTranslate_congr h.upper ?_)
      rw [trail_page hw, trail_page hw', h.upper.along_eq hr' hlen, hsame]
    · -- the entry is that of a page passed
      obtain ⟨t', hpage, -⟩ := Northstar.protectable_iff.mp (h.taken k hk)
      obtain rfl := Option.some.inj (hwk.symm.trans hpage.walk)
      have hgrants := hpage.hasFlags_iff.mp (hfront k hk)
      rw [hik, hlev.alike _ hr _ hr' _ address t hwk hw] at hgrants
      have hpres := hpage.present
      rw [hik] at hpres
      unfold Northstar.nsVmmTranslate
      rw [h.upper.initialized, translateUnlocked_page hw hpres, translateUnlocked_page hw'
        (by rw [hwritten]; exact protectedEntry_present _ _), h.upper.config,
        h.upper.along_eq hr' hlen, h.upper.above_eq hr', hwritten, hgrants.flags_eq]
      split_ifs <;> rfl

/-- If every report is the same, the pages passed had the flags asked for. -/
lemma Passes.hasFlags {n k : ℕ} (h : Passes R space flags virt n s s')
    (hr : space.rootPhys ∈ R) (hinit : s.initialized = true)
    (hsame : ∀ address : UInt64, (nsVmmTranslate s' space address.toNat).map Prod.snd =
      (nsVmmTranslate s space address.toNat).map Prod.snd) (hk : k < n) :
    HasFlags s space flags (virt + k * nsPageSize) := by
  obtain ⟨t, hpage, -⟩ := Northstar.protectable_iff.mp (h.taken k hk)
  have hwritten := h.front k hk t _ ⟨hpage.walk, rfl⟩
  rw [hpage.hasFlags_iff]
  -- the page is reported at its canonical address
  obtain ⟨a, hcan, hpath, hindex⟩ := exists_canonical (virt + k * nsPageSize)
  have habove : above s.mem space.rootPhys a.toNat =
      above s.mem space.rootPhys (virt + k * nsPageSize) := by
    unfold above
    rw [hpath]
  have hpage' : PageAt s space a.toNat t := by
    refine ⟨hpage.root, hpath ▸ hpage.walk, hpath ▸ hpage.reach, hindex ▸ hpage.present⟩
  have hafter := (h.upper.pageAt_iff hr (h.same_tests t _).1).mpr hpage'
  have hreport := hsame a
  rw [hpage'.nsVmmTranslate hinit hcan,
    hafter.nsVmmTranslate (h.upper.initialized.trans hinit) hcan, h.upper.above_eq hr, habove,
    hindex, hwritten] at hreport
  rw [← Except.ok.inj hreport]
  exact grants_protectedEntry _ _ _

end

/-! ### One mapped page in front of an unmapped one -/

/-- `ns_vmm_protect` on the mapped page of `OneUserPage` and the next page leaves `s'`. -/
def ProtectTwo (flags : ℕ) (s s' : Vmm) : Prop :=
  (∃ pmm s₀, OneUserPage pmm s₀ s) ∧
    nsVmmProtect ⟨0x101000, true⟩ 0 0x2000 flags s = .error .enoent s'

/-- The state that `ns_vmm_protect` on these pages leaves, if it fails as in `ProtectTwo`. -/
def protectTwo (flags : ℕ) (s : Vmm) : Option Vmm :=
  match nsVmmProtect ⟨0x101000, true⟩ 0 0x2000 flags s with
  | .error .enoent s' => some s'
  | _ => none

/-- A test that succeeds after the two pages. -/
lemma exists_protectTwo {flags : ℕ} {s : Vmm} {p : Vmm → Bool}
    (h : (protectTwo flags s).any p = true) :
    ∃ s', nsVmmProtect ⟨0x101000, true⟩ 0 0x2000 flags s = .error .enoent s' ∧ p s' = true := by
  unfold protectTwo at h
  split at h
  · next s' herr => exact ⟨s', herr, h⟩
  · cases h

/-- Under a root without entries there are no tables. -/
lemma bootTables_of_blank {s₀ : Vmm} (hmem : ∀ t i, s₀.mem t i = 0)
    (hfree : ¬ s₀.pmm.IsFree s₀.config.kernelRootPhys) : BootTables s₀ := by
  have hwalk : ∀ p t, walk (link s₀.mem) s₀.config.kernelRootPhys p = some t →
      p = [] ∧ s₀.config.kernelRootPhys = t := by
    intro p t hw
    cases p with
    | nil => exact ⟨rfl, Option.some.inj hw⟩
    | cons i p =>
      rw [walk_cons, link, hmem, linkOf_of_absent (Nat.zero_testBit _)] at hw
      cases hw
  refine ⟨fun p t _ hw => ?_, fun r _ i hp => ?_, ?_, ?_⟩
  · obtain ⟨-, rfl⟩ := hwalk p t hw
    exact hfree
  · rw [hmem, Nat.zero_testBit] at hp
    cases hp
  · rintro r rfl r' rfl p p' t hp - hw
    obtain ⟨rfl, -⟩ := hwalk p t hw
    cases hp
  · rintro r rfl r' rfl v v' t hw
    cases (hwalk _ t hw).1

end Northstar
