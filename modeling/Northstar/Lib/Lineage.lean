import Northstar.Lib.Linked
import Mathlib.Data.Finset.Insert
import Mathlib.Data.Finset.Erase

/-! # Lineages

Trees kept as in a table of processes: each node has a link to its parent, to its first child and to
its next sibling. All lists of children share the links between siblings, so an operation on one of
them has to leave the others alone.

A node may float: it is in the forest, but taken out of every list of children and not yet put into
another. -/

namespace Northstar

open Function List

variable {α : Type} [DecidableEq α]

/-- The links of a forest. -/
structure Lineage (α : Type) where
  parent : α → Option α
  children : α → Option α
  siblingNext : α → Option α

namespace Lineage

variable (f : Lineage α)

/-- The list of the children of a node. -/
def childList (p : α) : LinkedList α :=
  { head := f.children p, next := f.siblingNext }

/-- The node becomes the first child of another. -/
def attach (p c : α) : Lineage α :=
  { parent := update f.parent c (some p)
    children := update f.children p (some c)
    siblingNext := update f.siblingNext c (f.children p) }

/-- The node becomes a root. -/
def orphan (c : α) : Lineage α :=
  { f with
    parent := update f.parent c none
    siblingNext := update f.siblingNext c none }

/-- The node at the cursor of the list of children is taken out and becomes a root. -/
def detach (p : α) (cursor : Option α) (c : α) : Lineage α :=
  { parent := update f.parent c none
    children := update f.children p ((f.childList p).unlink cursor c).head
    siblingNext := ((f.childList p).unlink cursor c).next }

/-- The links of a node that has neither parent nor children. -/
def clear (c : α) : Lineage α :=
  { parent := update f.parent c none
    children := update f.children c none
    siblingNext := update f.siblingNext c none }

/-- The list of children of a node is forgotten. -/
def abandon (p : α) : Lineage α :=
  { f with children := update f.children p none }

/-- The lists of children are those given, and hold each node that does not float under its parent.
-/
structure Holds (f : Lineage α) (nodes : Finset α) (floating : List α) (kids : α → List α) :
    Prop where
  follows : ∀ p ∈ nodes, Follows f.siblingNext (f.children p) (kids p)
  mem_kids_iff : ∀ p ∈ nodes, ∀ c,
    c ∈ kids p ↔ c ∈ nodes ∧ f.parent c = some p ∧ c ∉ floating
  parent_mem : ∀ c ∈ nodes, ∀ p, f.parent c = some p → p ∈ nodes

namespace Holds

variable {f} {nodes : Finset α} {floating : List α} {kids : α → List α} {p c : α}

omit [DecidableEq α] in
/-- A floating node is no child of any node. -/
lemma not_mem_kids_of_floating (h : f.Holds nodes floating kids) (hc : c ∈ floating) :
    ∀ q ∈ nodes, c ∉ kids q :=
  fun q hq hmem => ((h.mem_kids_iff q hq c).1 hmem).2.2 hc

omit [DecidableEq α] in
/-- What is no node is no child of any node. -/
lemma not_mem_kids_of_not_mem (h : f.Holds nodes floating kids) (hc : c ∉ nodes) :
    ∀ q ∈ nodes, c ∉ kids q :=
  fun q hq hmem => hc ((h.mem_kids_iff q hq c).1 hmem).1

/-- The lists that a node is not in do not see its link. -/
lemma follows_update (h : f.Holds nodes floating kids) (hc : ∀ q ∈ nodes, c ∉ kids q)
    (link : Option α) {q : α} (hq : q ∈ nodes) :
    Follows (update f.siblingNext c link) (f.children q) (kids q) :=
  (h.follows q hq).congr fun _ hz =>
    update_of_ne (ne_of_mem_of_not_mem hz (hc q hq)) _ _

/-- A floating node is attached to a parent. -/
lemma attach (h : f.Holds nodes (c :: floating) kids) (hp : p ∈ nodes) (hcn : c ∈ nodes)
    (hc : c ∉ floating) :
    (f.attach p c).Holds nodes floating (update kids p (c :: kids p)) := by
  have hout := h.not_mem_kids_of_floating (mem_cons_self (a := c) (l := floating))
  refine ⟨fun q hq => ?_, fun q hq d => ?_, fun d hd q hparent => ?_⟩
  · have hrest := h.follows_update hout (f.children p) hq
    by_cases hqp : q = p
    · subst hqp
      simp only [Lineage.attach, update_self]
      exact ⟨rfl, by rwa [update_self]⟩
    · simpa only [Lineage.attach, update_of_ne hqp] using hrest
  · have hiff := h.mem_kids_iff q hq d
    by_cases hdc : d = c
    · subst hdc
      have hnot := hout q hq
      by_cases hqp : q = p
      · subst hqp
        simp [Lineage.attach, hcn, hc]
      · simp [Lineage.attach, update_of_ne hqp, hnot, Ne.symm hqp]
    · by_cases hqp : q = p
      · subst hqp
        simpa [Lineage.attach, update_of_ne hdc, hdc] using hiff
      · simpa [Lineage.attach, update_of_ne hdc, update_of_ne hqp, hdc] using hiff
  · by_cases hdc : d = c
    · subst hdc
      simp only [Lineage.attach, update_self] at hparent
      exact Option.some.inj hparent ▸ hp
    · simp only [Lineage.attach, update_of_ne hdc] at hparent
      exact h.parent_mem d hd q hparent

/-- A floating node is made an orphan, and floats no more. -/
lemma orphan (h : f.Holds nodes (c :: floating) kids) :
    (f.orphan c).Holds nodes floating kids := by
  have hout := h.not_mem_kids_of_floating (mem_cons_self (a := c) (l := floating))
  refine ⟨fun q hq => h.follows_update hout none hq, fun q hq d => ?_, fun d hd q hparent => ?_⟩
  · have hiff := h.mem_kids_iff q hq d
    by_cases hdc : d = c
    · subst hdc
      simp [Lineage.orphan, hout q hq]
    · simpa [Lineage.orphan, update_of_ne hdc, hdc] using hiff
  · by_cases hdc : d = c
    · subst hdc
      simp [Lineage.orphan] at hparent
    · simp only [Lineage.orphan, update_of_ne hdc] at hparent
      exact h.parent_mem d hd q hparent

/-- The children of a node whose list is forgotten float. -/
lemma abandon (h : f.Holds nodes [] kids) (hp : p ∈ nodes) :
    (f.abandon p).Holds nodes (kids p) (update kids p []) := by
  refine ⟨fun q hq => ?_, fun q hq d => ?_, h.parent_mem⟩
  · by_cases hqp : q = p
    · subst hqp
      simp only [Lineage.abandon, update_self]
      rfl
    · simpa only [Lineage.abandon, update_of_ne hqp] using h.follows q hq
  · have hiff := h.mem_kids_iff q hq d
    have hown := h.mem_kids_iff p hp d
    by_cases hqp : q = p
    · subst hqp
      simp only [update_self, not_mem_nil, false_iff]
      rintro ⟨hd, hparent, hnot⟩
      exact hnot (hown.2 ⟨hd, hparent, not_mem_nil⟩)
    · rw [update_of_ne hqp, hiff]
      refine and_congr_right fun _ => and_congr_right fun hparent => ?_
      have hnot : d ∉ kids p := fun hmem =>
        hqp (Option.some.inj (hparent.symm.trans (hown.1 hmem).2.1))
      simp [hnot]

/-- The links of a node outside do not matter. -/
lemma clear (h : f.Holds nodes [] kids) (hc : c ∉ nodes) : (f.clear c).Holds nodes [] kids := by
  have hout := h.not_mem_kids_of_not_mem hc
  have hne : ∀ q ∈ nodes, q ≠ c := fun q hq => ne_of_mem_of_not_mem hq hc
  refine ⟨fun q hq => ?_, fun q hq d => ?_, fun d hd q hparent => ?_⟩
  · simp only [Lineage.clear, update_of_ne (hne q hq)]
    exact h.follows_update hout none hq
  · rw [h.mem_kids_iff q hq d]
    refine and_congr_right fun hd => ?_
    simp only [Lineage.clear, update_of_ne (hne d hd)]
  · simp only [Lineage.clear, update_of_ne (hne d hd)] at hparent
    exact h.parent_mem d hd q hparent

/-- A new node with neither parent nor children enters. -/
lemma insert (h : f.Holds nodes [] kids) (hc : c ∉ nodes) (hroot : f.parent c = none)
    (hchildren : f.children c = none) :
    f.Holds (insert c nodes) [] (update kids c []) := by
  refine ⟨fun q hq => ?_, fun q hq d => ?_, fun d hd q hparent => ?_⟩
  · by_cases hqc : q = c
    · subst hqc
      rw [update_self]
      exact hchildren
    · rw [update_of_ne hqc]
      exact h.follows q (Finset.mem_of_mem_insert_of_ne hq hqc)
  · have hold : f.parent d = some q → (d ∈ Insert.insert c nodes ↔ d ∈ nodes) := fun hparent => by
      have hdc : d ≠ c := by
        rintro rfl
        exact Option.some_ne_none q (hparent.symm.trans hroot)
      simp [hdc]
    by_cases hqc : q = c
    · subst hqc
      simp only [update_self, not_mem_nil, false_iff]
      rintro ⟨hd, hparent, -⟩
      exact hc (h.parent_mem d ((hold hparent).1 hd) q hparent)
    · rw [update_of_ne hqc, h.mem_kids_iff q (Finset.mem_of_mem_insert_of_ne hq hqc) d]
      exact and_congr_left fun hparent => (hold hparent.1).symm
  · have hdc : d ≠ c := by
      rintro rfl
      exact Option.some_ne_none q (hparent.symm.trans hroot)
    exact Finset.mem_insert_of_mem
      (h.parent_mem d (Finset.mem_of_mem_insert_of_ne hd hdc) q hparent)

omit [DecidableEq α] in
/-- A root may be taken to float. -/
lemma float (h : f.Holds nodes [] kids) (hroot : f.parent c = none) : f.Holds nodes [c] kids := by
  refine ⟨h.follows, fun q hq d => ?_, h.parent_mem⟩
  rw [h.mem_kids_iff q hq d]
  refine and_congr_right fun _ => and_congr_right fun hparent => ?_
  have hdc : d ≠ c := by
    rintro rfl
    exact Option.some_ne_none q (hparent.symm.trans hroot)
  simp [hdc]

/-- A child that is taken out of its list becomes a root. -/
lemma detach (h : f.Holds nodes [] kids) (hp : p ∈ nodes) {xs ys : List α}
    (hkids : kids p = xs ++ c :: ys) :
    (f.detach p xs.getLast? c).Holds nodes [] (update kids p (xs ++ ys)) := by
  have hlist : (f.childList p).Lists (xs ++ c :: ys) := hkids ▸ h.follows p hp
  have hnodup : c ∉ xs ++ ys := (nodup_middle.1 hlist.nodup).notMem
  have hc := (h.mem_kids_iff p hp c).1 (hkids ▸ mem_append_right xs mem_cons_self)
  refine ⟨fun q hq => ?_, fun q hq d => ?_, fun d hd q hparent => ?_⟩
  · by_cases hqp : q = p
    · subst hqp
      simp only [Lineage.detach, update_self]
      exact hlist.unlink
    · simp only [Lineage.detach, update_of_ne hqp]
      -- the nodes of another list have another parent
      have hother : ∀ z ∈ kids q, z ∉ kids p := fun z hz hzp =>
        hqp (Option.some.inj (((h.mem_kids_iff q hq z).1 hz).2.1.symm.trans
          ((h.mem_kids_iff p hp z).1 hzp).2.1))
      refine (h.follows q hq).congr fun z hz => LinkedList.unlink_next_of_ne ?_ fun hlast => ?_
      · rintro rfl
        exact hother z hz (hkids ▸ mem_append_right xs mem_cons_self)
      · exact hother z hz (hkids ▸ mem_append_left _ (mem_of_getLast? hlast))
  · have hiff := h.mem_kids_iff q hq d
    by_cases hdc : d = c
    · subst hdc
      by_cases hqp : q = p
      · subst hqp
        simp [Lineage.detach, mem_append.not.1 hnodup]
      · have hnot : d ∉ kids q := fun hmem =>
          hqp (Option.some.inj ((hiff.1 hmem).2.1.symm.trans hc.2.1))
        simp [Lineage.detach, update_of_ne hqp, hnot]
    · by_cases hqp : q = p
      · subst hqp
        rw [hkids] at hiff
        simpa [Lineage.detach, update_of_ne hdc, hdc] using hiff
      · simpa [Lineage.detach, update_of_ne hdc, update_of_ne hqp] using hiff
  · by_cases hdc : d = c
    · subst hdc
      simp [Lineage.detach] at hparent
    · simp only [Lineage.detach, update_of_ne hdc] at hparent
      exact h.parent_mem d hd q hparent

/-- A root without children leaves. -/
lemma erase (h : f.Holds nodes [] kids) (hcn : c ∈ nodes) (hroot : f.parent c = none)
    (hkids : kids c = []) : f.Holds (nodes.erase c) [] kids := by
  refine ⟨fun q hq => h.follows q (Finset.mem_of_mem_erase hq), fun q hq d => ?_,
    fun d hd q hparent => ?_⟩
  · rw [h.mem_kids_iff q (Finset.mem_of_mem_erase hq) d]
    refine and_congr_left fun hparent => ?_
    have hdc : d ≠ c := by
      rintro rfl
      exact Option.some_ne_none q (hparent.1.symm.trans hroot)
    simp [hdc]
  · have hdn := Finset.mem_of_mem_erase hd
    refine Finset.mem_erase.2 ⟨?_, h.parent_mem d hdn q hparent⟩
    rintro rfl
    have hmem := (h.mem_kids_iff q hcn d).2 ⟨hdn, hparent, not_mem_nil⟩
    rw [hkids] at hmem
    exact not_mem_nil hmem

end Holds

end Lineage

end Northstar
