import Northstar.Lib.Radix
import Northstar.Mm.Vmm

/-! # What a page-table walk sees

The walks of the source (`translate_unlocked`, the processor's own) read one entry per level until
they meet an entry that is not present or that maps memory. `trail` is the list of entries met,
and the results of both walks are functions of the trail. `look` is the entry that ends the walk,
if it maps memory.

The tables passed are those of `walk` over the links that entries make (`linkOf`), so a trail is
unchanged by any store that misses the slots it passes (`trail_congr`), and the first entries of a
trail may be skipped by walking (`look_walk`). -/

namespace Northstar

open List

/-- The table that an entry of an upper level refers to. -/
def linkOf (w : ℕ) : Option ℕ :=
  if w.testBit ptePresent && !w.testBit pteHuge then some (w &&& pteAddr) else none

/-- The links in memory. -/
def link (mem : PhysMem) (t : ℕ) (i : Index) : Option ℕ := linkOf (mem t i)

/-- The slots passed on the way to the page of `virt`, from `level` levels above the pages. -/
def pathFrom (virt : ℕ) : ℕ → List Index
  | 0 => []
  | level + 1 => tableIndex virt (level + 1) :: pathFrom virt level

/-- Whether an entry met `level` levels above the pages maps memory, if it is present. -/
def stops (level w : ℕ) : Bool :=
  decide (level = 1) || ((decide (level = 3) || decide (level = 2)) && w.testBit pteHuge)

/-- The entries met by a walk to `virt` from `table`. -/
def trail (mem : PhysMem) (virt : ℕ) : ℕ → ℕ → List ℕ
  | 0, _ => []
  | level + 1, table =>
    let w := mem table (tableIndex virt (level + 1))
    w :: if w.testBit ptePresent = false ∨ stops (level + 1) w = true then []
      else trail mem virt level (w &&& pteAddr)

/-- The entry that maps the page of `virt`, with the level at which it was met. -/
def look (mem : PhysMem) (virt : ℕ) : ℕ → ℕ → Option (ℕ × ℕ)
  | 0, _ => none
  | level + 1, table =>
    let w := mem table (tableIndex virt (level + 1))
    if w.testBit ptePresent = false then none
    else if stops (level + 1) w = true then some (level + 1, w)
    else look mem virt level (w &&& pteAddr)

/-! ### Links -/

/-- An entry that is present and not huge is a link. -/
lemma linkOf_of_link {w : ℕ} (hp : w.testBit ptePresent = true) (hh : w.testBit pteHuge = false) :
    linkOf w = some (w &&& pteAddr) := by
  simp [linkOf, hp, hh]

lemma linkOf_eq_some {w c : ℕ} (h : linkOf w = some c) :
    w.testBit ptePresent = true ∧ w.testBit pteHuge = false ∧ w &&& pteAddr = c := by
  unfold linkOf at h
  split_ifs at h with hc
  simp only [Bool.and_eq_true, Bool.not_eq_true'] at hc
  exact ⟨hc.1, hc.2, Option.some.inj h⟩

/-- An entry that is not present is no link. -/
lemma linkOf_of_absent {w : ℕ} (hp : w.testBit ptePresent = false) : linkOf w = none := by
  simp [linkOf, hp]

/-- Storing a word sets a link. -/
lemma link_set (mem : PhysMem) (t : ℕ) (i : Index) (w : ℕ) :
    link (mem.set t i w) = setLink (link mem) t i (linkOf w) := by
  funext t' i'
  unfold link PhysMem.set setLink
  split_ifs <;> rfl

variable {t t' level virt table : ℕ} {mem : PhysMem} {q : List Index}

section

variable (mem : PhysMem)

/-- Clearing a page does not change the links of other pages. -/
lemma link_zero (h : t' ≠ t) (i : Index) : link (mem.zero t) t' i = link mem t' i := by
  simp [link, PhysMem.zero, h]

/-- The slot that was stored to. -/
@[simp] lemma set_self (t : ℕ) (i : Index) (w : ℕ) : mem.set t i w t i = w := by
  simp [PhysMem.set]

/-- The other slots are as before. -/
lemma set_of_ne {i i' : Index} (w : ℕ) (h : ¬ (t' = t ∧ i' = i)) :
    mem.set t i w t' i' = mem t' i' := by
  simp [PhysMem.set, h]

@[simp] lemma zero_self (t : ℕ) (i : Index) : mem.zero t t i = 0 := by
  simp [PhysMem.zero]

/-- The other pages are as before. -/
lemma zero_of_ne (h : t' ≠ t) (i : Index) : mem.zero t t' i = mem t' i := by
  simp [PhysMem.zero, h]

end

/-! ### Trails -/

/-- A path has a slot for each level. -/
@[simp] lemma length_pathFrom (virt level : ℕ) : (pathFrom virt level).length = level := by
  induction level with
  | zero => rfl
  | succ level ih => simp [pathFrom, ih]

/-- An upper-level entry that is present and maps nothing is a link, except that nothing may be
huge at the top. -/
lemma link_of_continues {i : Index} (hlevel : level ≤ 4)
    (hp : (mem t i).testBit ptePresent = true) (hs : stops level (mem t i) = false)
    (htop : level = 4 → (mem t i).testBit ptePresent = true → (mem t i).testBit pteHuge = false)
    (hpos : level ≠ 0) :
    link mem t i = some (mem t i &&& pteAddr) := by
  refine linkOf_of_link hp ?_
  unfold stops at hs
  interval_cases level <;> simp_all

/-- Two memories give the same trail when they agree on the slots it passes. -/
lemma trail_congr {mem' : PhysMem} (hlevel : level ≤ 4)
    (htop : level = 4 → (mem table (tableIndex virt 4)).testBit ptePresent = true →
      (mem table (tableIndex virt 4)).testBit pteHuge = false)
    (h : ∀ p i t, p ++ [i] <+: pathFrom virt level → walk (link mem) table p = some t →
      mem' t i = mem t i) :
    trail mem' virt level table = trail mem virt level table := by
  induction level generalizing table with
  | zero => rfl
  | succ level ih =>
    have hhead : mem' table (tableIndex virt (level + 1)) =
      mem table (tableIndex virt (level + 1)) :=
      h [] _ table (by simp [pathFrom]) rfl
    unfold trail
    simp only [hhead]
    split_ifs with hstop
    · rfl
    · simp only [not_or, Bool.not_eq_false, Bool.not_eq_true] at hstop
      have hlink := link_of_continues hlevel hstop.1 hstop.2
        (fun h4 => by rw [h4]; exact htop h4) (by omega)
      rw [ih (by omega) (fun h4 => by omega) fun p i t hpre hw => ?_]
      refine h (tableIndex virt (level + 1) :: p) i t ?_ ?_
      · rw [cons_append, pathFrom]
        exact cons_prefix_cons.mpr ⟨rfl, hpre⟩
      · rw [walk_cons, hlink, Option.bind_some]
        exact hw

/-- The entry that ends a walk, read off the trail. -/
def lookTrail : ℕ → List ℕ → Option (ℕ × ℕ)
  | level + 1, w :: rest =>
    if w.testBit ptePresent = false then none
    else if stops (level + 1) w = true then some (level + 1, w)
    else lookTrail level rest
  | _, _ => none

/-- Looking a page up is reading its trail. -/
lemma look_eq_lookTrail (mem : PhysMem) (virt level table : ℕ) :
    look mem virt level table = lookTrail level (trail mem virt level table) := by
  induction level generalizing table with
  | zero => rfl
  | succ level ih =>
    unfold look trail lookTrail
    dsimp only
    split_ifs with h1 h2 h3
    · rfl
    · rfl
    · exact absurd h3 (by simp [h1, h2])
    · exact ih _

/-- A walk through a link. -/
lemma look_link {n c : ℕ} (hl : link mem t (tableIndex virt (n + 2)) = some c) :
    look mem virt (n + 2) t = look mem virt (n + 1) c := by
  obtain ⟨hp, hh, rfl⟩ := linkOf_eq_some hl
  rw [look, if_neg (by simp [hp]), if_neg (by simp [stops, hh])]

/-- Induction along the links that a walk passes. -/
lemma walk_induction {P : List Index → ℕ → ℕ → Prop} {m n r : ℕ} (hnil : P [] (n + 1) t)
    (hcons : ∀ q m r c, link mem r (tableIndex virt (m + 2)) = some c → P q (m + 1) c →
      P (tableIndex virt (m + 2) :: q) (m + 2) r)
    (hpath : q ++ pathFrom virt (n + 1) = pathFrom virt m) (hw : walk (link mem) r q = some t) :
    P q m r := by
  induction q generalizing m r with
  | nil =>
    obtain rfl : n + 1 = m := by simpa using congrArg length hpath
    obtain rfl := Option.some.inj hw
    exact hnil
  | cons i q ih =>
    match m, hpath with
    | 1, hpath => simpa [pathFrom] using congrArg length hpath
    | m + 2, hpath =>
      obtain ⟨rfl, hrest⟩ : i = tableIndex virt (m + 2) ∧
          q ++ pathFrom virt (n + 1) = pathFrom virt (m + 1) := cons.inj hpath
      obtain ⟨c, hc, hw⟩ := Option.bind_eq_some_iff.mp hw
      exact hcons q m r c hc (ih hrest hw)

/-- A walk may start at any table that it passes. -/
lemma look_walk {m n r : ℕ}
    (hpath : q ++ pathFrom virt (n + 1) = pathFrom virt m) (hw : walk (link mem) r q = some t) :
    look mem virt m r = look mem virt (n + 1) t :=
  walk_induction (P := fun _ m r => look mem virt m r = look mem virt (n + 1) t) rfl
    (fun _ _ _ _ hl ih => (look_link hl).trans ih) hpath hw

/-- Where no upper entry is huge, a walk ends at the slot of the page or at an absent entry. -/
lemma look_of_walk_none (hpath : q ++ [tableIndex virt 1] = pathFrom virt (level + 1))
    (hhuge : ∀ p i t, p ++ [i] <+: q → walk (link mem) table p = some t →
      (mem t i).testBit ptePresent = true → (mem t i).testBit pteHuge = false)
    (hnone : walk (link mem) table q = none) : look mem virt (level + 1) table = none := by
  induction level generalizing table q with
  | zero =>
    obtain rfl : q = [] := by simpa using congrArg length hpath
    cases hnone
  | succ level ih =>
    cases q with
    | nil => simpa using congrArg length hpath
    | cons i q =>
      obtain ⟨rfl, hrest⟩ : i = tableIndex virt (level + 2) ∧
          q ++ [tableIndex virt 1] = pathFrom virt (level + 1) := cons.inj hpath
      rw [look]
      split_ifs with hp hs
      · rfl
      · have hh := hhuge [] _ table (cons_prefix_cons.mpr ⟨rfl, nil_prefix⟩) rfl
          (by simpa using hp)
        simp [stops, hh] at hs
      · have hh := hhuge [] _ table (cons_prefix_cons.mpr ⟨rfl, nil_prefix⟩) rfl
          (by simpa using hp)
        have hl : link mem table (tableIndex virt (level + 2)) =
            some (mem table (tableIndex virt (level + 2)) &&& pteAddr) :=
          linkOf_of_link (by simpa using hp) hh
        rw [walk_cons, hl, Option.bind_some] at hnone
        refine ih hrest (fun p k t hpre hw => ?_) hnone
        refine hhuge (tableIndex virt (level + 2) :: p) k t ?_ ?_
        · exact cons_prefix_cons.mpr ⟨rfl, hpre⟩
        · rw [walk_cons, hl]
          exact hw

/-- The entry of a page that has its own slot. -/
lemma look_leaf :
    look mem virt 1 table =
      if (mem table (tableIndex virt 1)).testBit ptePresent = false then none
      else some (1, mem table (tableIndex virt 1)) := by
  simp [look, stops]

/-! ### Pages and paths -/

lemma tableIndex_val (virt level : ℕ) :
    (tableIndex virt level).val = virt / 2 ^ (12 + (level - 1) * 9) % 512 := rfl

/-- Pages of the lower half with the same path are the same page. -/
lemma pathFrom_inj {v w : ℕ} (hv : v % 4096 = 0) (hw : w % 4096 = 0) (hv' : v < 2 ^ 48)
    (hw' : w < 2 ^ 48) (h : pathFrom v 4 = pathFrom w 4) : v = w := by
  simp only [pathFrom, cons.injEq, Fin.ext_iff, tableIndex_val] at h
  omega

/-- Every path of the lower half is the path of a page. -/
lemma exists_page {p : List Index} (hp : p.length = 4) (hhead : ∀ i ∈ p.head?, i.val < 256) :
    ∃ v, v % nsPageSize = 0 ∧ v < nsVmmUserTop ∧ pathFrom v 4 = p := by
  match p, hp with
  | [i4, i3, i2, i1], _ =>
    have h₄ : i4.val < 256 := hhead i4 rfl
    have h3 := i3.isLt
    have h2 := i2.isLt
    have h1 := i1.isLt
    refine ⟨i4.val * 2 ^ 39 + i3.val * 2 ^ 30 + i2.val * 2 ^ 21 + i1.val * 2 ^ 12, ?_, ?_, ?_⟩
    · unfold nsPageSize
      omega
    · unfold nsVmmUserTop
      omega
    · simp only [pathFrom, cons.injEq, Fin.ext_iff, tableIndex_val, and_true]
      norm_num
      omega

/-! ### The walks of the source -/

/-- The address that an entry met `level` levels above the pages gives to `virt`. -/
def leafAddr (virt level w : ℕ) : ℕ :=
  if level = 3 then (w &&& pte1gAddr) ||| (virt % 2 ^ 30)
  else if level = 2 then (w &&& pte2mAddr) ||| (virt % 2 ^ 21)
  else (w &&& pteAddr) ||| (virt % nsPageSize)

/-- The frame that an entry met `level` levels above the pages gives to the page of `virt`. -/
def leafFrame (virt level w : ℕ) : ℕ :=
  if level = 3 then (w &&& pte1gAddr) + virt % 2 ^ 30 / nsPageSize * nsPageSize
  else if level = 2 then (w &&& pte2mAddr) + virt % 2 ^ 21 / nsPageSize * nsPageSize
  else w &&& pteAddr

/-- The processor maps a page to the frame of the entry that ends the walk. -/
lemma hwTranslate_eq (mem : PhysMem) (virt level table : ℕ) :
    hwTranslate mem virt level table =
      (look mem virt level table).map fun e => leafFrame virt e.1 e.2 := by
  induction level generalizing table with
  | zero => rfl
  | succ level ih =>
    unfold hwTranslate look
    dsimp only
    generalize mem table (tableIndex virt (level + 1)) = w
    unfold stops
    split_ifs with h1 h2 h3 h₄ h5 h6 h7 h8 <;> simp_all [leafFrame]

/-- The result of `translate_unlocked`, read off the trail. -/
def translateTrail (config : VmmConfig) (virt : ℕ) :
    ℕ → List ℕ → Effective → Except VmmError (ℕ × ℕ)
  | level + 1, w :: rest, effective =>
    if w.testBit ptePresent = false then .error .enoent
    else if stops (level + 1) w = true then
      .ok (leafAddr virt (level + 1) w, (effective.narrow w).flags w)
    else if tablePointer config (w &&& pteAddr) = false then .error .ecorrupt
    else translateTrail config virt level rest (effective.narrow w)
  | _, _, _ => .error .ecorrupt

section

variable (config : VmmConfig) (mem : PhysMem) (virt level table : ℕ)

/-- One round of `translate_unlocked`, with the three kinds of leaf taken together. -/
lemma translateFrom_succ (effective : Effective) :
    translateFrom config mem virt (level + 1) table effective =
      let w := mem table (tableIndex virt (level + 1))
      if w.testBit ptePresent = false then .error .enoent
      else if stops (level + 1) w = true then
        .ok (leafAddr virt (level + 1) w, (effective.narrow w).flags w)
      else if tablePointer config (w &&& pteAddr) = false then .error .ecorrupt
      else translateFrom config mem virt level (w &&& pteAddr) (effective.narrow w) := by
  rw [translateFrom]
  generalize mem table (tableIndex virt (level + 1)) = w
  unfold stops leafAddr
  by_cases hh : w.testBit pteHuge = true
  · by_cases h3 : level + 1 = 3
    · simp [h3, hh]
    by_cases h2 : level + 1 = 2
    · simp [h2, hh]
    by_cases h1 : level = 0
    · simp [h1]
    · simp [h3, h2, h1]
  · by_cases h1 : level = 0
    · simp [h1]
    · simp [hh, h1]

/-- Translating is reading the trail. -/
lemma translateFrom_eq_trail (effective : Effective) :
    translateFrom config mem virt level table effective =
      translateTrail config virt level (trail mem virt level table) effective := by
  induction level generalizing table effective with
  | zero => rfl
  | succ level ih =>
    rw [translateFrom_succ]
    unfold trail translateTrail
    dsimp only
    split_ifs with hp hs hptr hend
    · rfl
    · rfl
    · rfl
    · exact absurd hend (by simp [hp, hs])
    · exact ih _ _

end

/-- `translate_unlocked` reports the address of the entry that ends the walk, with the permissions
in effect along it, if it can reach every table that it passes. -/
lemma translateFrom_eq {config : VmmConfig} (hlevel : level ≤ 4) (hpos : level ≠ 0)
    (htop : level = 4 → (mem table (tableIndex virt 4)).testBit ptePresent = true →
      (mem table (tableIndex virt 4)).testBit pteHuge = false)
    (hreach : ∀ p c, p <+: pathFrom virt level → p.length < level → p ≠ [] →
      walk (link mem) table p = some c → tablePointer config c = true) (effective : Effective) :
    translateFrom config mem virt level table effective =
      match look mem virt level table with
      | none => .error .enoent
      | some (l, w) =>
        .ok (leafAddr virt l w,
          ((trail mem virt level table).foldl Effective.narrow effective).flags w)
      := by
  induction level generalizing table effective with
  | zero => exact absurd rfl hpos
  | succ level ih =>
    rw [translateFrom_succ]
    unfold look trail
    dsimp only
    set w := mem table (tableIndex virt (level + 1)) with hw
    by_cases hp : w.testBit ptePresent = false
    · rw [if_pos hp, if_pos hp]
    by_cases hs : stops (level + 1) w = true
    · rw [if_neg hp, if_neg hp, if_pos hs, if_pos hs, if_pos (.inr hs)]
      rfl
    have hlink : link mem table (tableIndex virt (level + 1)) = some (w &&& pteAddr) :=
      link_of_continues hlevel (by simpa using hp) (by simpa using hs)
        (fun h4 => by rw [h4]; exact htop h4) (by omega)
    have hlevel0 : level ≠ 0 := by
      rintro rfl
      exact hs (by simp [stops])
    have hptr : tablePointer config (w &&& pteAddr) = true := by
      refine hreach [tableIndex virt (level + 1)] _ ?_ (by simp; omega) (by simp) ?_
      · exact ⟨pathFrom virt level, rfl⟩
      · rw [walk_cons, hlink]
        rfl
    rw [if_neg hp, if_neg hp, if_neg hs, if_neg hs, if_neg (by simp [hptr]),
      if_neg (not_or.mpr ⟨hp, hs⟩), foldl_cons]
    refine ih (by omega) hlevel0 (fun h4 => by omega) (fun p c hpre hlen hne hwalk => ?_) _
    refine hreach (tableIndex virt (level + 1) :: p) c ?_ (by simp; omega) (by simp) ?_
    · exact cons_prefix_cons.mpr ⟨rfl, hpre⟩
    · rw [walk_cons, hlink]
      exact hwalk

end Northstar
