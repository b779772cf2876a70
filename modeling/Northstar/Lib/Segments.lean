import Mathlib

/-! # Segments of a list

The segments of a list are the maximal runs between the occurrences of a separator that are not
empty: repeated, leading and trailing separators do not count. `segments` is `List.splitOn` without
the empty pieces; a list in which each segment follows one separator has those segments again.

A scanner that skips separators, takes a run and goes on behind it meets the segments in order: one
round of it is `segments_of_head_ne`, after `segments_dropWhile` for the skipping. -/

namespace Northstar

open List

variable {α : Type*} [DecidableEq α]

/-- The nonempty runs between separators. -/
def segments (sep : α) (l : List α) : List (List α) :=
  (l.splitOn sep).filter fun segment => segment ≠ []

variable {sep : α}

@[simp] lemma segments_nil : segments sep ([] : List α) = [] := rfl

/-- A separator cuts the segments before it from those behind it. -/
lemma segments_append_sep (a b : List α) :
    segments sep (a ++ sep :: b) = segments sep a ++ segments sep b := by
  rw [segments, splitOn_append_cons_self, filter_append]
  rfl

/-- A separator in front makes no segment. -/
@[simp] lemma segments_sep_cons (b : List α) : segments sep (sep :: b) = segments sep b := by
  have h : segments sep ([] ++ sep :: b) = segments sep [] ++ segments sep b :=
    segments_append_sep [] b
  simpa using h

/-- A run without separators is its only segment. -/
lemma segments_of_notMem {a : List α} (ha : a ≠ []) (hsep : sep ∉ a) : segments sep a = [a] := by
  rw [segments, splitOn_eq_singleton hsep]
  simp [ha]

/-- Leading separators do not count. -/
lemma segments_dropWhile (l : List α) :
    segments sep (l.dropWhile (· == sep)) = segments sep l := by
  induction l with
  | nil => rfl
  | cons x l ih =>
    by_cases hx : x = sep
    · rw [hx, dropWhile_cons_of_pos (by simp), ih, segments_sep_cons]
    · rw [dropWhile_cons_of_neg (by simp [hx])]

/-- The first segment is the run at the head of a list that does not begin with a separator. -/
lemma segments_of_head_ne {l : List α} (hne : l ≠ []) (hhead : l.head? ≠ some sep) :
    segments sep l = l.takeWhile (· != sep) :: segments sep (l.dropWhile (· != sep)) := by
  have hrun : l.takeWhile (· != sep) ≠ [] := by
    cases l with
    | nil => exact absurd rfl hne
    | cons x l =>
      have hx : x ≠ sep := fun h => hhead (by simp [h])
      simp [hx]
  have hsep : sep ∉ l.takeWhile (· != sep) := by
    intro h
    simpa using mem_takeWhile_imp h
  have hsplit : l = l.takeWhile (· != sep) ++ l.dropWhile (· != sep) :=
    (takeWhile_append_dropWhile).symm
  cases hrest : l.dropWhile (· != sep) with
  | nil =>
    rw [hrest, append_nil] at hsplit
    rw [segments_nil, ← hsplit]
    exact segments_of_notMem hne (hsplit ▸ hsep)
  | cons x rest =>
    have hx : x = sep := by
      have := head?_dropWhile_not (fun y => y != sep) l
      rw [hrest] at this
      simpa using this
    rw [hx] at hrest ⊢
    conv_lhs => rw [hsplit, hrest]
    rw [segments_append_sep, segments_of_notMem hrun hsep, segments_sep_cons]
    rfl

/-- No segment holds the separator. -/
lemma sep_notMem_of_mem_splitOn {l c : List α} (h : c ∈ l.splitOn sep) : sep ∉ c := by
  induction l generalizing c with
  | nil =>
    rw [splitOn_nil, mem_singleton] at h
    simp [h]
  | cons x l ih =>
    rw [splitOn_cons_eq_if_modifyHead] at h
    by_cases hx : x = sep
    · rw [if_pos (by simp [hx]), mem_cons] at h
      rcases h with rfl | h
      · exact not_mem_nil
      · exact ih h
    · rw [if_neg (by simp [hx])] at h
      cases hpieces : l.splitOn sep with
      | nil => exact absurd hpieces (splitOn_ne_nil sep l)
      | cons piece pieces =>
        rw [hpieces] at h ih
        rw [modifyHead_cons, mem_cons] at h
        rcases h with rfl | h
        · rw [mem_cons, not_or]
          exact ⟨fun h => hx h.symm, ih mem_cons_self⟩
        · exact ih (mem_cons_of_mem piece h)

/-- A segment is a nonempty run without separators. -/
lemma of_mem_segments {l c : List α} (h : c ∈ segments sep l) : c ≠ [] ∧ sep ∉ c := by
  obtain ⟨hmem, hne⟩ := mem_filter.mp h
  exact ⟨of_decide_eq_true hne, sep_notMem_of_mem_splitOn hmem⟩

/-- Segments that each follow a separator are read back. -/
lemma segments_flatMap_cons {cs : List (List α)} (h : ∀ c ∈ cs, c ≠ [] ∧ sep ∉ c) :
    segments sep (cs.flatMap (sep :: ·)) = cs := by
  induction cs with
  | nil => rfl
  | cons c cs ih =>
    obtain ⟨hne, hsep⟩ := h c mem_cons_self
    have hrest := ih fun d hd => h d (mem_cons_of_mem c hd)
    rw [flatMap_cons, cons_append, segments_sep_cons]
    cases cs with
    | nil => simpa using segments_of_notMem hne hsep
    | cons d cs =>
      rw [flatMap_cons, cons_append] at hrest ⊢
      rw [segments_append_sep, segments_of_notMem hne hsep, ← segments_sep_cons, hrest]
      rfl

omit [DecidableEq α] in
/-- Runs that each follow a separator are the runs joined by single separators, after one more. -/
lemma flatMap_cons_eq_intercalate {cs : List (List α)} (h : cs ≠ []) :
    cs.flatMap (sep :: ·) = sep :: [sep].intercalate cs := by
  induction cs with
  | nil => exact absurd rfl h
  | cons c cs ih =>
    cases cs with
    | nil => simp
    | cons d cs =>
      rw [flatMap_cons, ih (cons_ne_nil d cs), intercalate_cons_cons]
      simp

end Northstar
