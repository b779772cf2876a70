import Northstar.Lib.Segments
import Northstar.Nsfs.Ondisk

/-! # Canonical paths

A model of `append_component`, `pop_component`, `consume_path` and `ns_vfs_canonicalize` of `vfs.c`.
A string is the list of its bytes before the terminating zero, and the result buffer is the list of
its first `used` bytes.

The buffer is edited in place: a component is copied to its end, and `..` scans back to the last
slash. `render` relates the buffer to a stack of components, and each edit to a push or a pop of
that stack, so that a whole call is a left fold over the components of its paths. -/

namespace Northstar

open List

abbrev nsPathMax : ℕ := 4096
abbrev nsVfsNameMax : ℕ := 255

/-- The character `/`. -/
abbrev slash : UInt8 := 0x2f

/-- The character `.`. -/
abbrev dot : UInt8 := 0x2e

/-! ### The code -/

/-- `append_component`. -/
def appendComponent (resultSize : ℕ) (result component : List UInt8) :
    Except Errno (List UInt8) :=
  if nsVfsNameMax < component.length then .error .enametoolong
  else
    let required := result.length + (if 1 < result.length then 1 else 0) + component.length + 1
    if resultSize < required ∨ nsPathMax < required then .error .enametoolong
    else .ok ((if 1 < result.length then result ++ [slash] else result) ++ component)

/-- The loop of `pop_component`. -/
def scanBack (result : List UInt8) : ℕ → ℕ
  | 0 => 0
  | used + 1 =>
    if 1 < used + 1 ∧ result.getD used 0 ≠ slash then scanBack result used else used + 1

/-- `pop_component`. -/
def popComponent (result : List UInt8) : List UInt8 :=
  if result.length ≤ 1 then result.take 1
  else
    let used := scanBack result result.length
    result.take (if 1 < used then used - 1 else used)

/-- `consume_path`, from the cursor on. Each round reads at least one byte of the path. -/
def consumePath (resultSize : ℕ) : ℕ → List UInt8 → List UInt8 → Except Errno (List UInt8)
  | 0, _, result => .ok result
  | rounds + 1, path, result =>
    let path := path.dropWhile (· == slash)
    if path = [] then .ok result
    else
      let component := path.takeWhile (· != slash)
      let path := path.dropWhile (· != slash)
      if component = [dot] then consumePath resultSize rounds path result
      else if component = [dot, dot] then
        consumePath resultSize rounds path (popComponent result)
      else
        match appendComponent resultSize result component with
        | .error e => .error e
        | .ok result => consumePath resultSize rounds path result

/-- `ns_vfs_canonicalize`. -/
def nsVfsCanonicalize (cwd path : List UInt8) (resultSize : ℕ) : Except Errno (List UInt8) :=
  if resultSize < 2 then .error .einval
  else if path = [] then .error .enoent
  else if nsPathMax ≤ path.length ∨ nsPathMax ≤ cwd.length then .error .enametoolong
  else if cwd.head? ≠ some slash then .error .einval
  else do
    let result ←
      if path.head? ≠ some slash then consumePath resultSize cwd.length cwd [slash]
      else .ok [slash]
    consumePath resultSize path.length path result

/-! ### Stacks of components -/

/-- The path of a stack of components, the last of which is the innermost. -/
def render (stack : List (List UInt8)) : List UInt8 :=
  if stack = [] then [slash] else stack.flatMap (slash :: ·)

/-- One component is read: `.` stands for nothing and `..` for the parent, which at the root is the
root. -/
def applyComponent (stack : List (List UInt8)) (component : List UInt8) : List (List UInt8) :=
  if component = [dot] then stack
  else if component = [dot, dot] then stack.dropLast
  else stack ++ [component]

/-- The components of a path, after those of the working directory if it is relative. Empty
components do not count. -/
def pathComponents (cwd path : List UInt8) : List (List UInt8) :=
  if path.head? = some slash then segments slash path
  else segments slash cwd ++ segments slash path

/-- A component that can stand in a canonical path. -/
def Proper (component : List UInt8) : Prop :=
  component ≠ [] ∧ slash ∉ component ∧ component ≠ [dot] ∧ component ≠ [dot, dot]

instance (component : List UInt8) : Decidable (Proper component) :=
  inferInstanceAs (Decidable (_ ∧ _))

/-- The result that the stack stands for fits, with its terminating zero, in a buffer of the size
and in the longest path. -/
def PathFits (resultSize : ℕ) (stack : List (List UInt8)) : Prop :=
  (render stack).length < resultSize ∧ (render stack).length < nsPathMax

instance (resultSize : ℕ) (stack : List (List UInt8)) : Decidable (PathFits resultSize stack) :=
  inferInstanceAs (Decidable (_ ∧ _))

/-- One component is read into a buffer, if it is `.` or `..` or the name is short enough and fits.
-/
def pushComponent (resultSize : ℕ) (stack : List (List UInt8)) (component : List UInt8) :
    Except Errno (List (List UInt8)) :=
  if component = [dot] ∨ component = [dot, dot] ∨
      (component.length ≤ nsVfsNameMax ∧ PathFits resultSize (stack ++ [component])) then
    .ok (applyComponent stack component)
  else .error .enametoolong

/-- No component that is a name is too long, and every intermediate result fits. -/
structure Foldable (resultSize : ℕ) (stack components : List (List UInt8)) : Prop where
  names : ∀ c ∈ components, c ≠ [dot] → c ≠ [dot, dot] → c.length ≤ nsVfsNameMax
  fits : ∀ read, read <+: components → PathFits resultSize (read.foldl applyComponent stack)

@[simp] lemma render_nil : render [] = [slash] := rfl

variable {stack components : List (List UInt8)} {c front path cwd : List UInt8} {resultSize : ℕ}

/-- A path is its components, each behind a slash. -/
lemma render_of_ne_nil (h : stack ≠ []) :
    render stack = stack.flatMap (slash :: ·) := if_neg h

/-- A path begins with a slash. -/
lemma render_head? (stack : List (List UInt8)) : (render stack).head? = some slash := by
  cases stack with
  | nil => rfl
  | cons c stack => simp [render]

section

variable (hproper : ∀ c ∈ stack, Proper c)
include hproper

/-- A path with components is longer than the slash. -/
lemma one_lt_length_render (h : stack ≠ []) : 1 < (render stack).length := by
  cases stack with
  | nil => exact absurd rfl h
  | cons c stack =>
    have hc : 0 < c.length := length_pos_iff.mpr (hproper c mem_cons_self).1
    rw [render_of_ne_nil h, flatMap_cons, length_append, length_cons]
    omega

/-- A component is pushed: the buffer gets a slash, unless it is the root, and the component. -/
lemma render_concat (c : List UInt8) : render (stack ++ [c]) =
      (if 1 < (render stack).length then render stack ++ [slash] else render stack) ++ c := by
  by_cases h : stack = []
  · subst h
    simp [render]
  · rw [if_pos (one_lt_length_render hproper h), render_of_ne_nil h,
      render_of_ne_nil (by simp), flatMap_append]
    simp

/-- The components of a rendered stack are its own. -/
lemma segments_render : segments slash (render stack) = stack := by
  by_cases h : stack = []
  · subst h
    rfl
  · rw [render_of_ne_nil h]
    exact segments_flatMap_cons fun c hc => ⟨(hproper c hc).1, (hproper c hc).2.1⟩

end

lemma proper_nil : ∀ c ∈ ([] : List (List UInt8)), Proper c :=
  nofun

/-- A component keeps the stack proper. -/
lemma applyComponent_proper (hproper : ∀ d ∈ stack, Proper d) (hne : c ≠ []) (hslash : slash ∉ c) :
    ∀ d ∈ applyComponent stack c, Proper d := by
  intro d hd
  unfold applyComponent at hd
  by_cases hdot : c = [dot]
  · rw [if_pos hdot] at hd
    exact hproper d hd
  by_cases hdots : c = [dot, dot]
  · rw [if_neg hdot, if_pos hdots] at hd
    exact hproper d (mem_of_mem_dropLast hd)
  rw [if_neg hdot, if_neg hdots, mem_append, mem_singleton] at hd
  rcases hd with hd | rfl
  · exact hproper d hd
  · exact ⟨hne, hslash, hdot, hdots⟩

/-- The stack that the components of a path leave is one of proper components. -/
lemma foldl_applyComponent_proper
    (hproper : ∀ d ∈ stack, Proper d) (h : ∀ c ∈ components, c ≠ [] ∧ slash ∉ c) :
    ∀ d ∈ components.foldl applyComponent stack, Proper d := by
  induction components generalizing stack with
  | nil => exact hproper
  | cons c components ih =>
    obtain ⟨hne, hslash⟩ := h c mem_cons_self
    exact ih (applyComponent_proper hproper hne hslash) fun d hd =>
      h d (mem_cons_of_mem c hd)

/-- Proper components are pushed one after the other. -/
lemma foldl_applyComponent_of_proper (h : ∀ c ∈ components, Proper c) :
    components.foldl applyComponent stack = stack ++ components := by
  induction components generalizing stack with
  | nil => simp
  | cons c components ih =>
    obtain ⟨-, -, hdot, hdots⟩ := h c mem_cons_self
    rw [foldl_cons, ih fun d hd => h d (mem_cons_of_mem c hd), applyComponent,
      if_neg hdot, if_neg hdots, append_assoc, singleton_append]

/-! ### The edits of the buffer -/

/-- The scan stops behind the last slash. -/
lemma scanBack_append (hc : slash ∉ c) {k : ℕ} (hk : k ≤ c.length) :
    scanBack (front ++ slash :: c) (front.length + 1 + k) = front.length + 1 := by
  induction k with
  | zero =>
    rw [Nat.add_zero, scanBack, if_neg]
    simp
  | succ k ih =>
    have hget : (front ++ slash :: c).getD (front.length + 1 + k) 0 ≠ slash := by
      intro h
      apply hc
      rw [getD_append_right _ _ _ _ (by omega)] at h
      rw [show front.length + 1 + k - front.length = k + 1 by omega, getD_cons_succ,
        getD_eq_getElem _ _ hk] at h
      exact h ▸ getElem_mem hk
    rw [← Nat.add_assoc, scanBack, if_pos ⟨by omega, hget⟩, ih (by omega)]

/-- Popping the last component. -/
lemma popComponent_append (hc : slash ∉ c) (hne : c ≠ []) :
    popComponent (front ++ slash :: c) = if front = [] then [slash] else front := by
  have hpos : 0 < c.length := length_pos_iff.mpr hne
  have hlength : (front ++ slash :: c).length = front.length + 1 + c.length := by
    rw [length_append, length_cons]
    omega
  rw [popComponent, if_neg (by omega)]
  dsimp only
  rw [hlength, scanBack_append hc le_rfl]
  by_cases hfront : front = []
  · rw [if_pos hfront]
    subst hfront
    rfl
  · have : 0 < front.length := length_pos_iff.mpr hfront
    rw [if_neg hfront, if_pos (by omega), Nat.add_sub_cancel]
    exact take_left

/-- `..` leaves the path of the parent. -/
lemma popComponent_render (hproper : ∀ c ∈ stack, Proper c) :
    popComponent (render stack) = render stack.dropLast := by
  rcases eq_nil_or_concat stack with rfl | ⟨stack, c, rfl⟩
  · rfl
  rw [concat_eq_append] at hproper ⊢
  have hstack : ∀ d ∈ stack, Proper d := fun d hd => hproper d (mem_append_left [c] hd)
  obtain ⟨hne, hslash, -⟩ := hproper c (by simp)
  rw [dropLast_concat, render_of_ne_nil (by simp), flatMap_append]
  simp only [flatMap_cons, flatMap_nil, append_nil]
  rw [popComponent_append hslash hne]
  cases stack with
  | nil => rfl
  | cons d stack => rw [if_neg (by simp), render_of_ne_nil (by simp)]

/-- A component is copied if it is no longer than a name and the result fits. -/
lemma appendComponent_render (hproper : ∀ d ∈ stack, Proper d) (c : List UInt8) :
    appendComponent resultSize (render stack) c =
      if c.length ≤ nsVfsNameMax ∧ PathFits resultSize (stack ++ [c]) then
        .ok (render (stack ++ [c]))
      else .error .enametoolong := by
  have hlength : (render (stack ++ [c])).length =
      (render stack).length + (if 1 < (render stack).length then 1 else 0) + c.length := by
    rw [render_concat hproper, length_append]
    split_ifs <;> simp
  have hfits : PathFits resultSize (stack ++ [c]) ↔
      (render stack).length + (if 1 < (render stack).length then 1 else 0) + c.length <
          resultSize ∧
        (render stack).length + (if 1 < (render stack).length then 1 else 0) + c.length <
          nsPathMax := by
    rw [PathFits, hlength]
  rw [appendComponent, ← render_concat hproper]
  by_cases hname : nsVfsNameMax < c.length
  · rw [if_pos hname, if_neg (by omega)]
  · rw [if_neg hname]
    by_cases hroom : PathFits resultSize (stack ++ [c])
    · have := hfits.mp hroom
      rw [if_neg (by omega), if_pos ⟨by omega, hroom⟩]
    · have := mt hfits.mpr hroom
      rw [if_pos (by omega), if_neg fun h => hroom h.2]

/-! ### A path is read component by component -/

/-- The scan of a path reads its components onto the stack. -/
lemma consumePath_render {rounds : ℕ} (hrounds : path.length ≤ rounds)
    (hproper : ∀ c ∈ stack, Proper c) :
    consumePath resultSize rounds path (render stack) =
      render <$> (segments slash path).foldlM (pushComponent resultSize) stack := by
  induction rounds generalizing path stack with
  | zero =>
    have hpath : path = [] := length_eq_zero_iff.mp (by omega)
    subst hpath
    rfl
  | succ rounds ih =>
    rw [← segments_dropWhile path, consumePath]
    have hle : (path.dropWhile (· == slash)).length ≤ path.length :=
      (dropWhile_sublist _).length_le
    have hstart : (path.dropWhile (· == slash)).head? ≠ some slash := by
      intro h
      have := head?_dropWhile_not (· == slash) path
      rw [h] at this
      simp at this
    generalize path.dropWhile (· == slash) = path at hle hstart
    split_ifs with hend
    · rw [hend]
      rfl
    have hsegments := segments_of_head_ne hend hstart
    -- the component is not empty, so the rest of the path is shorter
    obtain ⟨hne, hslash⟩ : path.takeWhile (· != slash) ≠ [] ∧
        slash ∉ path.takeWhile (· != slash) :=
      of_mem_segments (hsegments ▸ mem_cons_self)
    have hrest : (path.dropWhile (· != slash)).length ≤ rounds := by
      have hsplit := congrArg length
        (takeWhile_append_dropWhile (p := (· != slash)) (l := path))
      have := length_pos_iff.mpr hne
      rw [length_append] at hsplit
      omega
    rw [hsegments, foldlM_cons]
    generalize path.takeWhile (· != slash) = component at hne hslash
    generalize path.dropWhile (· != slash) = path at hrest
    have hproper' := applyComponent_proper hproper hne hslash
    by_cases hdot : component = [dot]
    · rw [if_pos hdot, ih hrest hproper, pushComponent, if_pos (.inl hdot), applyComponent,
        if_pos hdot]
      rfl
    by_cases hdots : component = [dot, dot]
    · rw [applyComponent, if_neg hdot, if_pos hdots] at hproper'
      rw [if_neg hdot, if_pos hdots, popComponent_render hproper, ih hrest hproper',
        pushComponent, if_pos (.inr (.inl hdots)), applyComponent, if_neg hdot, if_pos hdots]
      rfl
    rw [applyComponent, if_neg hdot, if_neg hdots] at hproper'
    rw [if_neg hdot, if_neg hdots, appendComponent_render hproper, pushComponent]
    by_cases hfits : component.length ≤ nsVfsNameMax ∧ PathFits resultSize (stack ++ [component])
    · rw [if_pos hfits, if_pos (.inr (.inr hfits)), applyComponent, if_neg hdot, if_neg hdots]
      exact ih hrest hproper'
    · rw [if_neg hfits, if_neg (by tauto)]
      rfl

/-- A path is no longer than one that goes on. -/
lemma length_render_append_le (stack rest : List (List UInt8)) :
    (render stack).length ≤ (render (stack ++ rest)).length := by
  cases stack with
  | nil =>
    have := length_pos_iff.mpr (ne_nil_of_mem (mem_of_head? (render_head? rest)))
    exact this
  | cons c stack => simp [render]

/-- The parent's path is no longer. -/
lemma PathFits.dropLast (h : PathFits resultSize stack) :
    PathFits resultSize stack.dropLast := by
  have hle : (render stack.dropLast).length ≤ (render stack).length := by
    rcases eq_nil_or_concat stack with rfl | ⟨stack, c, rfl⟩
    · exact le_rfl
    rw [concat_eq_append, dropLast_concat]
    exact length_render_append_le stack [c]
  exact ⟨hle.trans_lt h.1, hle.trans_lt h.2⟩

lemma pathFits_nil (h : 2 ≤ resultSize) : PathFits resultSize [] :=
  ⟨h, by decide⟩

/-- Without components there is nothing to fold. -/
lemma foldable_nil (h : PathFits resultSize stack) :
    Foldable resultSize stack [] := by
  refine ⟨nofun, fun read hread => ?_⟩
  rw [prefix_nil.mp hread]
  exact h

/-- The components can be read if the first can and then the others. -/
lemma foldable_cons (h : PathFits resultSize stack) :
    Foldable resultSize stack (c :: components) ↔
      (c = [dot] ∨ c = [dot, dot] ∨
          (c.length ≤ nsVfsNameMax ∧ PathFits resultSize (stack ++ [c]))) ∧
        Foldable resultSize (applyComponent stack c) components := by
  constructor
  · intro hfold
    refine ⟨?_, fun d hd => hfold.names d (mem_cons_of_mem c hd), fun read hread => ?_⟩
    · by_cases hdot : c = [dot]
      · exact .inl hdot
      by_cases hdots : c = [dot, dot]
      · exact .inr (.inl hdots)
      have hfirst := hfold.fits [c] (prefix_append [c] components)
      rw [foldl_cons, foldl_nil, applyComponent, if_neg hdot, if_neg hdots] at hfirst
      exact .inr (.inr ⟨hfold.names c mem_cons_self hdot hdots, hfirst⟩)
    · exact hfold.fits (c :: read) ((prefix_cons_inj c).mpr hread)
  · rintro ⟨hc, hnames, hfits⟩
    refine ⟨fun d hd hdot hdots => ?_, fun read hread => ?_⟩
    · rcases mem_cons.mp hd with rfl | hd
      · rcases hc with hc | hc | hc
        · exact absurd hc hdot
        · exact absurd hc hdots
        · exact hc.1
      · exact hnames d hd hdot hdots
    · cases read with
      | nil => exact h
      | cons d read =>
        obtain ⟨hd, hread⟩ := cons_prefix_cons.mp hread
        rw [hd]
        exact hfits read hread

/-- The fold succeeds exactly when every step of it does. -/
lemma foldlM_pushComponent_eq_ok {stack' : List (List UInt8)} (hfits : PathFits resultSize stack) :
    components.foldlM (pushComponent resultSize) stack = .ok stack' ↔
      Foldable resultSize stack components ∧ stack' = components.foldl applyComponent stack := by
  induction components generalizing stack with
  | nil =>
    constructor
    · rintro ⟨⟩
      exact ⟨foldable_nil hfits, rfl⟩
    · rintro ⟨-, rfl⟩
      rfl
  | cons c components ih =>
    rw [foldlM_cons, foldable_cons hfits, pushComponent]
    by_cases hc : c = [dot] ∨ c = [dot, dot] ∨
        (c.length ≤ nsVfsNameMax ∧ PathFits resultSize (stack ++ [c]))
    · have hnext : PathFits resultSize (applyComponent stack c) := by
        unfold applyComponent
        split_ifs with hdot hdots
        · exact hfits
        · exact hfits.dropLast
        · exact ((hc.resolve_left hdot).resolve_left hdots).2
      rw [if_pos hc, and_iff_right hc]
      exact ih hnext
    · rw [if_neg hc]
      constructor
      · intro h
        cases h
      · exact fun h => absurd h.1.1 hc

/-- A call with arguments in range is the fold over the components. -/
lemma nsVfsCanonicalize_eq (hsize : 2 ≤ resultSize)
    (hcwd : cwd.head? = some slash) (hcwdLength : cwd.length < nsPathMax) (hpath : path ≠ [])
    (hpathLength : path.length < nsPathMax) :
    nsVfsCanonicalize cwd path resultSize =
      render <$> (pathComponents cwd path).foldlM (pushComponent resultSize) [] := by
  rw [nsVfsCanonicalize, if_neg (by omega), if_neg hpath, if_neg (by omega),
    if_neg (not_not_intro hcwd), ← render_nil, pathComponents]
  by_cases habsolute : path.head? = some slash
  · rw [if_pos habsolute, if_neg (not_not_intro habsolute)]
    exact consumePath_render le_rfl proper_nil
  · rw [if_neg habsolute, if_pos habsolute, consumePath_render le_rfl proper_nil, foldlM_append]
    cases hfold : (segments slash cwd).foldlM (pushComponent resultSize) [] with
    | error e => rfl
    | ok stack =>
      obtain ⟨-, rfl⟩ := (foldlM_pushComponent_eq_ok (pathFits_nil hsize)).mp hfold
      exact consumePath_render le_rfl
        (foldl_applyComponent_proper proper_nil fun c hc => of_mem_segments hc)

/-! ### Canonical paths -/

/-- The path starts with a slash and, unless it is the root, its components are not empty, `.` or
`..` and it does not end in a slash. -/
structure Canonical (path : List UInt8) : Prop where
  absolute : path.head? = some slash
  components : path ≠ [slash] →
    ∀ c ∈ path.tail.splitOn slash, c ≠ [] ∧ c ≠ [dot] ∧ c ≠ [dot, dot]
  noTrailingSlash : path ≠ [slash] → path.getLast? ≠ some slash

/-- A path of proper components is canonical. -/
lemma render_canonical (hproper : ∀ c ∈ stack, Proper c) :
    Canonical (render stack) := by
  by_cases hroot : stack = []
  · subst hroot
    exact ⟨rfl, fun h => absurd rfl h, fun h => absurd rfl h⟩
  refine ⟨render_head? stack, fun _ c hc => ?_, fun _ hlast => ?_⟩
  · rw [render_of_ne_nil hroot, flatMap_cons_eq_intercalate hroot, tail_cons,
      splitOn_intercalate slash (fun c hc => (hproper c hc).2.1) hroot] at hc
    obtain ⟨hne, -, hdot, hdots⟩ := hproper c hc
    exact ⟨hne, hdot, hdots⟩
  · obtain ⟨stack, c, rfl⟩ := (eq_nil_or_concat stack).resolve_left hroot
    obtain ⟨hne, hslash, -⟩ := hproper c (by simp)
    rw [render_of_ne_nil hroot, concat_eq_append, flatMap_append] at hlast
    simp only [flatMap_cons, flatMap_nil, append_nil] at hlast
    rw [getLast?_append_of_ne_nil _ (by simp), getLast?_cons_of_ne_nil hne] at hlast
    exact hslash (mem_of_getLast? hlast)

/-- Components are not empty and have no slash. -/
lemma of_mem_pathComponents (h : c ∈ pathComponents cwd path) :
    c ≠ [] ∧ slash ∉ c := by
  unfold pathComponents at h
  split_ifs at h
  · exact of_mem_segments h
  · rcases mem_append.mp h with h | h <;> exact of_mem_segments h

/-- What is on the stack has been read. -/
lemma mem_of_mem_foldl_applyComponent
    (h : c ∈ components.foldl applyComponent stack) : c ∈ stack ∨ c ∈ components := by
  induction components generalizing stack with
  | nil => exact .inl h
  | cons d components ih =>
    rcases ih h with h | h
    · unfold applyComponent at h
      split_ifs at h
      · exact .inl h
      · exact .inl (mem_of_mem_dropLast h)
      · rcases mem_append.mp h with h | h
        · exact .inl h
        · exact .inr (by simp_all)
    · exact .inr (mem_cons_of_mem d h)

/-- The components of a canonical path that was reached by a fold can be read again. -/
lemma Foldable.again
    (h : Foldable resultSize [] components) (hcomponents : ∀ c ∈ components, c ≠ [] ∧ slash ∉ c) :
    Foldable resultSize [] (components.foldl applyComponent []) := by
  have hproper := foldl_applyComponent_proper proper_nil hcomponents
  have hfits := h.fits components (prefix_refl components)
  refine ⟨fun c hc => ?_, ?_⟩
  · exact h.names c ((mem_of_mem_foldl_applyComponent hc).resolve_left not_mem_nil)
  · rintro read ⟨rest, hread⟩
    rw [← hread] at hproper hfits
    rw [foldl_applyComponent_of_proper fun c hc => hproper c (mem_append_left rest hc),
      nil_append]
    have hle := length_render_append_le read rest
    exact ⟨hle.trans_lt hfits.1, hle.trans_lt hfits.2⟩

/-- The call succeeds exactly when the components can be read, and then with their fold. -/
lemma nsVfsCanonicalize_eq_ok {result : List UInt8} (hcwd : cwd.head? = some slash)
    (hcwdLength : cwd.length < nsPathMax) (hpath : path ≠ [])
    (hpathLength : path.length < nsPathMax) :
    nsVfsCanonicalize cwd path nsPathMax = .ok result ↔
      Foldable nsPathMax [] (pathComponents cwd path) ∧
        result = render ((pathComponents cwd path).foldl applyComponent []) := by
  have hroot : PathFits nsPathMax [] := pathFits_nil (by decide)
  rw [nsVfsCanonicalize_eq (by decide) hcwd hcwdLength hpath hpathLength]
  constructor
  · intro h
    cases hfold : (pathComponents cwd path).foldlM (pushComponent nsPathMax) [] with
    | error e =>
      rw [hfold] at h
      cases h
    | ok stack =>
      rw [hfold] at h
      obtain ⟨hfoldable, rfl⟩ := (foldlM_pushComponent_eq_ok hroot).mp hfold
      cases h
      exact ⟨hfoldable, rfl⟩
  · rintro ⟨hfoldable, rfl⟩
    rw [(foldlM_pushComponent_eq_ok hroot).mpr ⟨hfoldable, rfl⟩]
    rfl

/-- The call succeeds exactly when the names are short enough and every intermediate result of the
fold over the components fits. The result is the fold; it is canonical, and canonical paths are
fixed. A relative path is read like the path that has the working directory in front. -/
theorem nsVfsCanonicalize_spec (cwd path : List UInt8) (hcwd : cwd.head? = some slash)
    (hcwdLength : cwd.length < nsPathMax) (hpath : path ≠ [])
    (hpathLength : path.length < nsPathMax) :
    ((∃ result, nsVfsCanonicalize cwd path nsPathMax = .ok result) ↔
        Foldable nsPathMax [] (pathComponents cwd path)) ∧
      (∀ result, nsVfsCanonicalize cwd path nsPathMax = .ok result →
        result = render ((pathComponents cwd path).foldl applyComponent []) ∧
          Canonical result ∧
          ∀ cwd' : List UInt8, cwd'.head? = some slash → cwd'.length < nsPathMax →
            nsVfsCanonicalize cwd' result nsPathMax = .ok result) ∧
      (path.head? ≠ some slash → (cwd ++ slash :: path).length < nsPathMax →
        ∀ cwd' : List UInt8, cwd'.head? = some slash → cwd'.length < nsPathMax →
          nsVfsCanonicalize cwd path nsPathMax =
            nsVfsCanonicalize cwd' (cwd ++ slash :: path) nsPathMax) := by
  have hok : ∀ result, nsVfsCanonicalize cwd path nsPathMax = .ok result ↔
      Foldable nsPathMax [] (pathComponents cwd path) ∧
        result = render ((pathComponents cwd path).foldl applyComponent []) :=
    fun result => nsVfsCanonicalize_eq_ok hcwd hcwdLength hpath hpathLength
  refine ⟨⟨?_, fun hfold => ⟨_, (hok _).mpr ⟨hfold, rfl⟩⟩⟩, fun result hresult => ?_, ?_⟩
  · rintro ⟨result, hresult⟩
    exact ((hok result).mp hresult).1
  · obtain ⟨hfold, rfl⟩ := (hok result).mp hresult
    have hproper : ∀ c ∈ (pathComponents cwd path).foldl applyComponent [], Proper c :=
      foldl_applyComponent_proper proper_nil fun c hc => of_mem_pathComponents hc
    refine ⟨rfl, render_canonical hproper, fun cwd' hcwd' hlength' => ?_⟩
    have hhead := render_head? ((pathComponents cwd path).foldl applyComponent [])
    have hcomponents : pathComponents cwd'
      (render ((pathComponents cwd path).foldl applyComponent []))
        = (pathComponents cwd path).foldl applyComponent [] := by
      rw [pathComponents, if_pos hhead, segments_render hproper]
    rw [nsVfsCanonicalize_eq_ok hcwd' hlength' (ne_nil_of_mem (mem_of_head? hhead))
      (hfold.fits _ (prefix_refl _)).1, hcomponents,
      foldl_applyComponent_of_proper hproper, nil_append]
    exact ⟨hfold.again fun c hc => of_mem_pathComponents hc, rfl⟩
  · intro hrelative hlength cwd' hcwd' hlength'
    have hhead : (cwd ++ slash :: path).head? = some slash := by
      rw [head?_append, hcwd]
      rfl
    rw [nsVfsCanonicalize_eq (by decide) hcwd hcwdLength hpath hpathLength,
      nsVfsCanonicalize_eq (by decide) hcwd' hlength' (by simp) hlength,
      pathComponents, pathComponents, if_neg hrelative, if_pos hhead, segments_append_sep]

/-- A path with `..` and a slash at its end. -/
theorem nsVfsCanonicalize_parent :
    nsVfsCanonicalize [slash, 0x61] [dot, dot, slash, 0x62, slash] nsPathMax =
        .ok [slash, 0x62] ∧
      Canonical [slash, 0x62] := by
  have hresult : nsVfsCanonicalize [slash, 0x61] [dot, dot, slash, 0x62, slash] nsPathMax =
      .ok [slash, 0x62] := by rfl
  obtain ⟨-, hspec, -⟩ := nsVfsCanonicalize_spec [slash, 0x61] [dot, dot, slash, 0x62, slash] rfl
    (by decide) (by decide) (by decide)
  exact ⟨hresult, (hspec _ hresult).2.1⟩

end Northstar
