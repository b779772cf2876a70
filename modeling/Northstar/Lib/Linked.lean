import Mathlib

/-! # Linked lists through fields of their nodes

A `LinkedList` is a singly linked list: the head, and the link of every node. Loops over such a list
hold a cursor, the place of a link: that of the head (`none`) or that of a node. `Lists` says which
nodes the chain runs through, in order. A chain that lists anything at all is acyclic and lists each
node once (`Lists.nodup`).

A `Cycle` is a circular doubly linked list, with its representation `Runs`. -/

namespace Northstar

open Function List

variable {α : Type} [DecidableEq α]

/-! ### Singly linked lists -/

/-- A singly linked list. -/
structure LinkedList (α : Type) where
  head : Option α
  next : α → Option α

/-- The links lead from the given one through exactly the nodes of the list. -/
def Follows (next : α → Option α) : Option α → List α → Prop
  | link, [] => link = none
  | link, x :: xs => link = some x ∧ Follows next (next x) xs

namespace Follows

variable {next next' : α → Option α} {link : Option α} {l l' : List α}

omit [DecidableEq α] in
lemma congr (h : Follows next link l) (hnext : ∀ x ∈ l, next' x = next x) :
    Follows next' link l := by
  induction l generalizing link with
  | nil => exact h
  | cons x xs ih =>
    refine ⟨h.1, ?_⟩
    rw [hnext x mem_cons_self]
    exact ih h.2 fun y hy => hnext y (mem_cons_of_mem x hy)

omit [DecidableEq α] in
/-- Links are followed in one way only. -/
lemma unique (h : Follows next link l) (h' : Follows next link l') : l = l' := by
  induction l generalizing link l' with
  | nil =>
    cases l' with
    | nil => rfl
    | cons y ys =>
      rw [h] at h'
      cases h'.1
  | cons x xs ih =>
    cases l' with
    | nil =>
      rw [h'] at h
      cases h.1
    | cons y ys =>
      have hxy : x = y := Option.some.inj (h.1.symm.trans h'.1)
      subst hxy
      rw [ih h.2 h'.2]

omit [DecidableEq α] in
/-- The second part of a list is followed from the last node of the first. -/
lemma of_append {xs : List α} (h : Follows next link (xs ++ l)) :
    Follows next (xs.getLast?.elim link next) l := by
  induction xs generalizing link with
  | nil => exact h
  | cons x xs ih =>
    have htail := ih h.2
    cases xs with
    | nil => exact htail
    | cons y ys =>
      rw [getLast?_cons_cons]
      obtain ⟨z, hz⟩ := Option.ne_none_iff_exists'.1
        (mt getLast?_eq_none_iff.1 (cons_ne_nil y ys))
      exact htail

omit [DecidableEq α] in
/-- The link in front of a list is its first node. -/
lemma head_eq (h : Follows next link l) : link = l.head? := by
  cases l with
  | nil => exact h
  | cons x xs => exact h.1

omit [DecidableEq α] in
/-- Links that lead to an end pass every node once. -/
lemma nodup (h : Follows next link l) : l.Nodup := by
  induction l generalizing link with
  | nil => exact nodup_nil
  | cons x xs ih =>
    refine nodup_cons.2 ⟨fun hmem => ?_, ih h.2⟩
    -- from `x` the links would lead through `xs` and through its part behind `x`
    obtain ⟨ys, zs, rfl⟩ := append_of_mem hmem
    have hback : Follows next (next x) zs := (of_append h.2).2
    have heq := congrArg length (unique h.2 hback)
    rw [length_append, length_cons] at heq
    omega

end Follows

namespace LinkedList

variable (c : LinkedList α)

/-- The link at a cursor. -/
def read : Option α → Option α
  | none => c.head
  | some x => c.next x

/-- Set the link at a cursor. -/
def write (cursor link : Option α) : LinkedList α :=
  match cursor with
  | none => { c with head := link }
  | some x => { c with next := update c.next x link }

/-- Take the node at the cursor out. -/
def unlink (cursor : Option α) (x : α) : LinkedList α :=
  (c.write cursor (c.next x)).write (some x) none

/-- Put a node in at the cursor. -/
def link (cursor : Option α) (x : α) : LinkedList α :=
  (c.write (some x) (c.read cursor)).write cursor (some x)

/-- Move the cursor, for so many rounds at most, to a node that stops it or to the end. -/
def seek (c : LinkedList α) (stop : α → Bool) : ℕ → Option α → Option α
  | 0, cursor => cursor
  | rounds + 1, cursor =>
    match c.read cursor with
    | none => cursor
    | some x => if stop x then cursor else c.seek stop rounds (some x)

/-- Look for a node and take it out. -/
def remove (rounds : ℕ) (target : α) : LinkedList α :=
  let cursor := c.seek (fun x => decide (x = target)) rounds none
  if c.read cursor = some target then c.unlink cursor target else c

/-- The nodes of the list, in order. -/
def Lists (l : List α) : Prop := Follows c.next c.head l

variable {c} {l xs ys : List α} {x : α}

omit [DecidableEq α] in
/-- A linked list has no node twice. -/
lemma Lists.nodup (h : c.Lists l) : l.Nodup := Follows.nodup h

omit [DecidableEq α] in
/-- Reading the link behind a cursor. -/
lemma read_eq_elim (c : LinkedList α) (cursor : Option α) :
    c.read cursor = cursor.elim c.head c.next := by
  cases cursor <;> rfl

omit [DecidableEq α] in
/-- Behind the nodes of `xs` stands the first node of `ys`. -/
lemma Lists.read_getLast (h : c.Lists (xs ++ ys)) : c.read xs.getLast? = ys.head? := by
  rw [read_eq_elim]
  exact (Follows.of_append h).head_eq

/-- A list through `xs` whose last link is redirected to a list through `zs`. -/
lemma follows_redirect {next : α → Option α} {link : Option α} (h : Follows next link (xs ++ ys))
    {zs : List α} {link' : Option α} (hzs : Follows next link' zs)
    (hout : ∀ z ∈ zs, z ∉ xs) :
    match xs.getLast? with
    | none => Follows next link' zs
    | some last => Follows (update next last link') link (xs ++ zs) := by
  induction xs generalizing link with
  | nil => exact hzs
  | cons x xs ih =>
    have hnodup := h.nodup
    cases xs with
    | nil =>
      show Follows (update next x link') link (x :: zs)
      refine ⟨h.1, ?_⟩
      rw [update_self]
      exact hzs.congr fun z hz => update_of_ne
        (ne_of_mem_of_not_mem (mem_singleton_self x) (hout z hz)).symm _ _
    | cons y xs =>
      have hstep := ih h.2 fun z hz hmem => hout z hz (mem_cons_of_mem x hmem)
      rw [getLast?_cons_cons]
      cases hlast : (y :: xs).getLast? with
      | none => exact absurd (getLast?_eq_none_iff.1 hlast) (cons_ne_nil y xs)
      | some last =>
        rw [hlast] at hstep
        have hne : x ≠ last := by
          rintro rfl
          have hmem := mem_of_getLast? hlast
          exact (nodup_cons.1 hnodup).1 (mem_append_left ys hmem)
        refine ⟨h.1, ?_⟩
        rw [update_of_ne hne]
        exact hstep

/-- Redirecting the link at the cursor behind `xs`. -/
lemma Lists.write (h : c.Lists (xs ++ ys)) {zs : List α} {link' : Option α}
    (hzs : Follows c.next link' zs) (hout : ∀ z ∈ zs, z ∉ xs) :
    (c.write xs.getLast? link').Lists (xs ++ zs) := by
  have hred := follows_redirect h hzs hout
  cases hlast : xs.getLast? with
  | none =>
    rw [hlast] at hred
    rw [getLast?_eq_none_iff.1 hlast]
    exact hred
  | some last =>
    rw [hlast] at hred
    exact hred

/-- A node that is neither taken out nor at the cursor keeps its link. -/
lemma unlink_next_of_ne {cursor : Option α} {z : α} (hzx : z ≠ x) (hcursor : cursor ≠ some z) :
    (c.unlink cursor x).next z = c.next z := by
  cases cursor with
  | none => exact update_of_ne hzx _ _
  | some y =>
    have hzy : z ≠ y := fun h => hcursor (congrArg some h.symm)
    exact (update_of_ne hzx _ _).trans (update_of_ne hzy _ _)

/-- Taking out the node at the cursor. -/
lemma Lists.unlink (h : c.Lists (xs ++ x :: ys)) : (c.unlink xs.getLast? x).Lists (xs ++ ys) := by
  have hnodup := h.nodup
  have hrest : Follows c.next (c.next x) ys := (Follows.of_append h).2
  have hout : ∀ z ∈ ys, z ∉ xs := fun z hz hmem =>
    (nodup_append.1 hnodup).2.2 z hmem z (mem_cons_of_mem x hz) rfl
  have hwrite := h.write hrest hout
  have hx : x ∉ xs ++ ys := by
    have hperm : (xs ++ x :: ys).Perm (x :: (xs ++ ys)) := perm_middle
    exact (nodup_cons.1 (hperm.nodup_iff.1 hnodup)).1
  exact Follows.congr hwrite fun z hz => update_of_ne (ne_of_mem_of_not_mem hz hx) _ _

/-- Putting a new node in at the cursor. -/
lemma Lists.link (h : c.Lists (xs ++ ys)) (hx : x ∉ xs ++ ys) :
    (c.link xs.getLast? x).Lists (xs ++ x :: ys) := by
  have hread := h.read_getLast
  have hfirst : (c.write (some x) (c.read xs.getLast?)).Lists (xs ++ ys) :=
    Follows.congr h fun z hz => update_of_ne (ne_of_mem_of_not_mem hz hx) _ _
  refine hfirst.write ⟨rfl, ?_⟩ ?_
  · have hrest := Follows.of_append hfirst
    have hself : (c.write (some x) (c.read xs.getLast?)).next x = c.read xs.getLast? :=
      update_self ..
    rw [hread] at hself hrest ⊢
    rw [hself]
    rwa [hrest.head_eq] at hrest
  · intro z hz hmem
    rcases mem_cons.1 hz with rfl | hz
    · exact hx (mem_append_left ys hmem)
    · exact (nodup_append.1 h.nodup).2.2 z hmem z hz rfl

omit [DecidableEq α] in
/-- The cursor comes to stand before the first node that stops it. -/
lemma Lists.seek (h : c.Lists (xs ++ ys)) (stop : α → Bool) {rounds : ℕ}
    (hrounds : ys.length ≤ rounds) :
    c.seek stop rounds xs.getLast? = (xs ++ ys.takeWhile fun y => !stop y).getLast? := by
  induction rounds generalizing xs ys with
  | zero =>
    rw [eq_nil_of_length_eq_zero (Nat.le_zero.1 hrounds)]
    simp [LinkedList.seek]
  | succ rounds ih =>
    rw [LinkedList.seek, h.read_getLast]
    cases ys with
    | nil => simp
    | cons y ys =>
      simp only [head?_cons, takeWhile_cons]
      cases hstop : stop y with
      | true => simp
      | false =>
        have hcons : c.Lists ((xs ++ [y]) ++ ys) := by simpa using h
        have hstep := ih hcons (by simpa using hrounds)
        simpa using hstep

/-- Removal takes out the node it looks for. -/
lemma Lists.remove (h : c.Lists l) {rounds : ℕ} (hrounds : l.length ≤ rounds) (target : α) :
    (c.remove rounds target).Lists (l.erase target) := by
  have hnil : c.Lists ([] ++ l) := h
  have hseek := hnil.seek (fun x => decide (x = target)) hrounds
  rw [getLast?_nil, nil_append] at hseek
  rw [LinkedList.remove]
  by_cases hmem : target ∈ l
  · obtain ⟨xs, ys, rfl, hxs⟩ := eq_append_cons_of_mem hmem
    have hwhile : (xs ++ target :: ys).takeWhile (fun y => !decide (y = target)) = xs := by
      rw [takeWhile_append_of_pos fun y hy => by simp [ne_of_mem_of_not_mem hy hxs]]
      simp
    rw [hwhile] at hseek
    have hread : c.read xs.getLast? = some target := h.read_getLast
    rw [hseek, if_pos hread, erase_append_right _ hxs, erase_cons_head]
    exact h.unlink
  · have hwhile : l.takeWhile (fun y => !decide (y = target)) = l :=
      takeWhile_eq_self_iff.2 fun y hy => by simp [ne_of_mem_of_not_mem hy hmem]
    rw [hwhile] at hseek
    have hend : c.Lists (l ++ []) := by rwa [append_nil]
    have hread : c.read l.getLast? = none := hend.read_getLast
    rw [hseek, if_neg (by rw [hread]; nofun), erase_of_not_mem hmem]
    exact h

end LinkedList

/-! ### Cycles -/

/-- A circular doubly linked list. -/
structure Cycle (α : Type) where
  head : Option α
  prev : α → Option α
  next : α → Option α

/-- The links lead both ways between the first node, the nodes of the list and the last node. -/
def Path (next prev : α → Option α) : α → List α → α → Prop
  | x, [], y => next x = some y ∧ prev y = some x
  | x, z :: zs, y => next x = some z ∧ prev z = some x ∧ Path next prev z zs y

namespace Path

variable {next prev next' prev' : α → Option α} {x y z : α} {l l' : List α}

omit [DecidableEq α] in
lemma congr (h : Path next prev x l y) (hnext : ∀ z ∈ x :: l, next' z = next z)
    (hprev : ∀ z ∈ l ++ [y], prev' z = prev z) : Path next' prev' x l y := by
  induction l generalizing x with
  | nil =>
    refine ⟨?_, ?_⟩
    · rw [hnext x (mem_singleton_self x)]
      exact h.1
    · rw [hprev y (mem_singleton_self y)]
      exact h.2
  | cons w l ih =>
    refine ⟨?_, ?_, ih h.2.2 (fun z hz => hnext z (mem_cons_of_mem x hz))
      (fun z hz => hprev z (mem_cons_of_mem w hz))⟩
    · rw [hnext x mem_cons_self]
      exact h.1
    · rw [hprev w mem_cons_self]
      exact h.2.1

omit [DecidableEq α] in
/-- A path through a node is a path to it and a path from it. -/
lemma append_iff : Path next prev x (l ++ z :: l') y ↔
    Path next prev x l z ∧ Path next prev z l' y := by
  induction l generalizing x with
  | nil => simp [Path, and_assoc]
  | cons w l ih => simp [Path, ih, and_assoc]

omit [DecidableEq α] in
/-- The link behind the first end of a path. -/
lemma next_eq (h : Path next prev x l y) : next x = some (l.headD y) := by
  cases l with
  | nil => exact h.1
  | cons w l => exact h.1

omit [DecidableEq α] in
/-- The link in front of the second end of a path. -/
lemma prev_eq (h : Path next prev x l y) : prev y = some (l.getLastD x) := by
  induction l generalizing x with
  | nil => exact h.2
  | cons w l ih => exact (ih h.2.2).trans (congrArg some getLastD_cons.symm)

omit [DecidableEq α] in
/-- The last node of a path is one of its nodes. -/
lemma getLastD_mem (x : α) (l : List α) : l.getLastD x ∈ x :: l := by
  induction l generalizing x with
  | nil => exact mem_singleton_self x
  | cons w l ih =>
    rw [getLastD_cons]
    exact mem_cons_of_mem x (ih w)

/-- A path whose last link is turned to another node. -/
lemma redirect (h : Path next prev x l z) (hnodup : (x :: l).Nodup) (hy : y ∉ l) :
    Path (update next (l.getLastD x) (some y))
      (update prev y (some (l.getLastD x))) x l y := by
  induction l generalizing x with
  | nil => exact ⟨update_self .., update_self ..⟩
  | cons w l ih =>
    rw [getLastD_cons]
    have hx : x ≠ l.getLastD w :=
      (ne_of_mem_of_not_mem (getLastD_mem w l) (nodup_cons.1 hnodup).1).symm
    have hw : w ≠ y := fun hwy => hy (hwy ▸ mem_cons_self)
    refine ⟨?_, ?_, ih h.2.2 (nodup_cons.1 hnodup).2 fun hmem => hy (mem_cons_of_mem w hmem)⟩
    · rw [update_of_ne hx]
      exact h.1
    · rw [update_of_ne hw]
      exact h.2.1

end Path

namespace Cycle

/-- Put a node in before the head. -/
def insertTail (c : Cycle α) (x : α) : Cycle α :=
  match c.head with
  | none =>
    { head := some x
      prev := update c.prev x (some x)
      next := update c.next x (some x) }
  | some head =>
    match c.prev head with
    | none => c
    | some tail =>
      { head := some head
        prev := update (update c.prev x (some tail)) head (some x)
        next := update (update c.next tail (some x)) x (some head) }

/-- Take a node out and clear its links. -/
def remove (c : Cycle α) (x : α) : Cycle α :=
  match c.prev x, c.next x with
  | some before, some after =>
    if after = x then
      { head := none
        prev := update c.prev x none
        next := update c.next x none }
    else
      { head := if c.head = some x then some after else c.head
        prev := update (update c.prev after (some before)) x none
        next := update (update c.next before (some after)) x none }
  | _, _ => c

/-- The nodes of the cycle, in order from its head. -/
def Runs (c : Cycle α) : List α → Prop
  | [] => c.head = none
  | x :: xs => c.head = some x ∧ (x :: xs).Nodup ∧ Path c.next c.prev x xs x

variable {c : Cycle α} {l xs ys : List α} {x y : α}

omit [DecidableEq α] in
/-- A ring has no node twice. -/
lemma Runs.nodup (h : c.Runs l) : l.Nodup := by
  cases l with
  | nil => exact nodup_nil
  | cons x xs => exact h.2.1

omit [DecidableEq α] in
/-- The head of a ring is its first node. -/
lemma Runs.head_eq (h : c.Runs l) : c.head = l.head? := by
  cases l with
  | nil => exact h
  | cons x xs => exact h.1

/-- A node is added at the tail. -/
lemma Runs.insertTail (h : c.Runs l) (hy : y ∉ l) : (c.insertTail y).Runs (l ++ [y]) := by
  cases l with
  | nil =>
    have hhead : c.head = none := h
    rw [Cycle.insertTail, hhead]
    exact ⟨rfl, nodup_singleton y, update_self .., update_self ..⟩
  | cons x xs =>
    obtain ⟨hhead, hnodup, hpath⟩ := h
    rw [Cycle.insertTail, hhead]
    dsimp only
    rw [hpath.prev_eq]
    have hyx : x ≠ y := fun hxy => hy (hxy ▸ mem_cons_self)
    have hyxs : y ∉ xs := fun hmem => hy (mem_cons_of_mem x hmem)
    have hxs : x ∉ xs := (nodup_cons.1 hnodup).1
    refine ⟨rfl, ?_, Path.append_iff.2 ⟨?_, update_self .., update_self ..⟩⟩
    · show (x :: xs ++ [y]).Nodup
      exact nodup_append.2 ⟨hnodup, nodup_singleton y, fun a ha b hb =>
        ne_of_mem_of_not_mem ha (mem_singleton.1 hb ▸ hy)⟩
    · refine (hpath.redirect hnodup hyxs).congr (fun z hz => ?_) fun z hz => ?_
      · exact update_of_ne (ne_of_mem_of_not_mem hz hy) _ _
      · refine update_of_ne (fun hzx => ?_) _ _
        subst hzx
        rcases mem_append.1 hz with hz | hz
        · exact hxs hz
        · exact hyx (mem_singleton.1 hz)

/-- The cycle without a node behind its head. -/
lemma Runs.remove_behind (h : c.Runs (x :: (xs ++ y :: ys))) :
    (c.remove y).Runs (x :: (xs ++ ys)) := by
  obtain ⟨hhead, hnodup, hpath⟩ := h
  obtain ⟨hfirst, hsecond⟩ := Path.append_iff.1 hpath
  have hperm : (x :: (xs ++ y :: ys)).Perm (y :: (x :: xs ++ ys)) := by
    rw [← cons_append]
    exact perm_middle
  obtain ⟨hy, hrest⟩ := nodup_cons.1 (hperm.nodup_iff.1 hnodup)
  have hxs : (x :: xs).Nodup := (nodup_append.1 hrest).1
  have hyx : y ≠ x := fun hyx => hy (hyx ▸ mem_cons_self)
  have hafter : ys.headD x ≠ y := by
    cases ys with
    | nil => exact hyx.symm
    | cons w ys => exact fun hwy => hy (by simp [← hwy])
  rw [Cycle.remove, hfirst.prev_eq, hsecond.next_eq]
  dsimp only
  rw [if_neg hafter, if_neg (by rw [hhead]; exact fun h => hyx (Option.some.inj h).symm)]
  refine ⟨hhead, hrest, ?_⟩
  have hturned : Path (update c.next (xs.getLastD x) (some (ys.headD x)))
      (update c.prev (ys.headD x) (some (xs.getLastD x))) x (xs ++ ys) x := by
    cases ys with
    | nil =>
      rw [append_nil]
      exact hfirst.redirect hxs (nodup_cons.1 hxs).1
    | cons w ws =>
      have hdisjoint := (nodup_append.1 hrest).2.2
      obtain ⟨-, hws, -⟩ := nodup_append.1 hrest
      have hw : w ∉ xs := fun hmem =>
        hdisjoint w (mem_cons_of_mem x hmem) w mem_cons_self rfl
      refine Path.append_iff.2 ⟨hfirst.redirect hxs hw, hsecond.2.2.congr (fun z hz => ?_)
        fun z hz => ?_⟩
      · exact update_of_ne (hdisjoint _ (Path.getLastD_mem x xs) z hz).symm _ _
      · refine update_of_ne ?_ _ _
        rcases mem_append.1 hz with hz | hz
        · exact ne_of_mem_of_not_mem hz (nodup_cons.1 hws).1
        · rw [mem_singleton.1 hz]
          exact hdisjoint x mem_cons_self w mem_cons_self
  refine hturned.congr (fun z hz => ?_) fun z hz => ?_
  · exact update_of_ne (ne_of_mem_of_not_mem hz hy) _ _
  · refine update_of_ne (ne_of_mem_of_not_mem (b := y) (?_ : z ∈ x :: xs ++ ys) hy) _ _
    rcases mem_append.1 hz with hz | hz
    · exact mem_cons_of_mem x hz
    · exact mem_singleton.1 hz ▸ mem_cons_self

/-- The cycle without its head. -/
lemma Runs.remove_head (h : c.Runs (x :: xs)) : (c.remove x).Runs xs := by
  obtain ⟨hhead, hnodup, hpath⟩ := h
  rw [Cycle.remove, hpath.prev_eq, hpath.next_eq]
  dsimp only
  cases xs with
  | nil =>
    rw [headD_nil, if_pos rfl]
    exact rfl
  | cons w ws =>
    obtain ⟨hx, hws⟩ := nodup_cons.1 hnodup
    have hwx : w ≠ x := fun hwx => hx (hwx ▸ mem_cons_self)
    rw [headD_cons, if_neg hwx, if_pos hhead, getLastD_cons]
    refine ⟨rfl, hws, (hpath.2.2.redirect hws (nodup_cons.1 hws).1).congr (fun z hz => ?_)
      fun z hz => ?_⟩
    · exact update_of_ne (ne_of_mem_of_not_mem hz hx) _ _
    · refine update_of_ne (ne_of_mem_of_not_mem (b := x) (?_ : z ∈ w :: ws) hx) _ _
      rcases mem_append.1 hz with hz | hz
      · exact mem_cons_of_mem w hz
      · exact mem_singleton.1 hz ▸ mem_cons_self

/-- The cycle without one of its nodes. -/
lemma Runs.remove (h : c.Runs l) (hx : x ∈ l) : (c.remove x).Runs (l.erase x) := by
  cases l with
  | nil => cases hx
  | cons y l =>
    by_cases hxy : y = x
    · subst hxy
      rw [erase_cons_head]
      exact h.remove_head
    · rw [erase_cons_tail (by simpa using hxy)]
      have hmem : x ∈ l := (mem_cons.1 hx).resolve_left fun heq => hxy heq.symm
      obtain ⟨xs, ys, rfl, hxs⟩ := eq_append_cons_of_mem hmem
      rw [erase_append_right _ hxs, erase_cons_head]
      exact h.remove_behind

end Cycle

end Northstar
