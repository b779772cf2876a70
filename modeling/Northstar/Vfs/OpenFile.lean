import Northstar.Lib.Refcount
import Northstar.Lib.Trace
import Northstar.Proc.FdTable

/-! # Open files and the tables that share them

A model of the open-file descriptions and descriptor tables of `vfs.c`, for any number of tables. An
entry of a table holds one reference of its file, so the books of the references are balanced
between calls when the holders are the entries of all tables (`OpenFiles.held`). Within a call,
references that are in no entry come on top. -/

namespace Northstar

open Function Multiset

/-- A descriptor table with the VFS it belongs to. -/
structure VfsTable where
  vfs : ℕ
  table : FdTable

/-- The open files, with their VFS, and the tables. A table that was destroyed is `none`. -/
structure OpenFiles where
  refs : Refs
  fileVfs : ℕ → ℕ
  tables : List (Option VfsTable)

namespace OpenFiles

/-- The table with a number. -/
def table? (w : OpenFiles) (i : ℕ) : Option VfsTable := w.tables[i]?.join

/-- An entry of a table is set. -/
def setEntry (w : OpenFiles) (i : ℕ) (t : VfsTable) (fd : ℕ) (entry : Option (ℕ × Bool)) :
    OpenFiles :=
  { w with tables := w.tables.set i (some { t with table := t.table.setEntry fd entry }) }

/-- `ns_vfs_file_retain`. -/
def nsVfsFileRetain (w : OpenFiles) (file : ℕ) : OpenFiles := { w with refs := w.refs.retain file }

/-- `ns_vfs_file_release`. The hook is run and the file is freed with the last reference. -/
def nsVfsFileRelease (w : OpenFiles) (file : ℕ) : OpenFiles :=
  { w with refs := w.refs.release file }

/-- `ns_vfs_fd_install` for one of the tables. -/
def nsVfsFdInstall (w : OpenFiles) (i : ℕ) (t : VfsTable) (file : ℕ) (minimumFd : ℤ)
    (closeOnExec : Bool) : ℤ × OpenFiles :=
  if w.fileVfs file ≠ t.vfs ∨ minimumFd < 0 then (-nsEinval, w)
  else
    let index := t.table.search t.table.maximum minimumFd.toNat
    if index = t.table.maximum then (-nsEmfile, w)
    else (index, (w.nsVfsFileRetain file).setEntry i t index (some (file, closeOnExec)))

/-- The end of `ns_vfs_open`, which has a file that no entry points to. -/
def openInstall (w : OpenFiles) (i : ℕ) (t : VfsTable) (closeOnExec : Bool) : ℤ × OpenFiles :=
  let file := w.refs.created
  let w := { w with refs := w.refs.create, fileVfs := update w.fileVfs file t.vfs }
  let installed := w.nsVfsFdInstall i t file 0 closeOnExec
  (installed.1, installed.2.nsVfsFileRelease file)

/-- `ns_vfs_dup`. -/
def nsVfsDup (w : OpenFiles) (i : ℕ) (t : VfsTable) (oldFd minimumFd : ℤ) (closeOnExec : Bool) :
    ℤ × OpenFiles :=
  match t.table.fdGet oldFd with
  | none => (-nsEbadf, w)
  | some file =>
    let installed := (w.nsVfsFileRetain file).nsVfsFdInstall i t file minimumFd closeOnExec
    (installed.1, installed.2.nsVfsFileRelease file)

/-- `ns_vfs_dup2`. -/
def nsVfsDup2 (w : OpenFiles) (i : ℕ) (t : VfsTable) (oldFd newFd : ℤ) (closeOnExec : Bool) :
    ℤ × OpenFiles :=
  if newFd < 0 ∨ t.table.maximum ≤ newFd.toNat then (-nsEbadf, w)
  else
    match t.table.fdGet oldFd with
    | none => (-nsEbadf, w)
    | some source =>
      if oldFd = newFd then (newFd, w)
      else
        let w := (w.nsVfsFileRetain source).setEntry i t newFd.toNat (some (source, closeOnExec))
        match t.table.entries newFd.toNat with
        | none => (newFd, w)
        | some (replaced, _) => (newFd, w.nsVfsFileRelease replaced)

/-- `ns_vfs_close`. -/
def nsVfsClose (w : OpenFiles) (i : ℕ) (t : VfsTable) (fd : ℤ) : ℤ × OpenFiles :=
  match t.table.fdGet fd with
  | none => (-nsEbadf, w)
  | some file => (0, (w.setEntry i t fd.toNat none).nsVfsFileRelease file)

/-- One round of the loop of `ns_vfs_fdtable_clone`, with the copy and the references so far. -/
def cloneRound (source : FdTable) (closeOnExec : Bool) (state : FdTable × Refs) (index : ℕ) :
    FdTable × Refs :=
  match source.entries index with
  | none => state
  | some (file, flag) =>
    if closeOnExec && flag then state
    else (state.1.setEntry index (some (file, flag)), state.2.retain file)

/-- `ns_vfs_fdtable_create`, and whether its allocations succeed. -/
def nsVfsFdtableCreate (w : OpenFiles) (vfs maximumFds : ℕ) (allocated : Bool) : OpenFiles :=
  if maximumFds = 0 ∨ 65536 < maximumFds ∨ allocated = false then w
  else { w with tables := w.tables ++ [some ⟨vfs, ⟨maximumFds, fun _ => none⟩⟩] }

/-- `ns_vfs_fdtable_clone`, and whether its allocations succeed. -/
def nsVfsFdtableClone (w : OpenFiles) (t : VfsTable) (closeOnExec allocated : Bool) : OpenFiles :=
  if allocated = false then w
  else
    let copied := (List.range t.table.maximum).foldl (cloneRound t.table closeOnExec)
      (⟨t.table.maximum, fun _ => none⟩, w.refs)
    { w with refs := copied.2, tables := w.tables ++ [some ⟨t.vfs, copied.1⟩] }

/-- One round of the loop of `ns_vfs_fdtable_close_cloexec`. -/
def closeCloexecRound (i : ℕ) (w : OpenFiles) (index : ℕ) : OpenFiles :=
  match w.table? i with
  | none => w
  | some t =>
    match t.table.entries index with
    | some (file, true) => (w.setEntry i t index none).nsVfsFileRelease file
    | _ => w

/-- `ns_vfs_fdtable_close_cloexec`. -/
def nsVfsFdtableCloseCloexec (w : OpenFiles) (i : ℕ) (t : VfsTable) : OpenFiles :=
  (List.range t.table.maximum).foldl (closeCloexecRound i) w

/-- One round of the loop of `ns_vfs_fdtable_destroy`. -/
def destroyRound (table : FdTable) (refs : Refs) (index : ℕ) : Refs :=
  match table.entries index with
  | none => refs
  | some (file, _) => refs.release file

/-- `ns_vfs_fdtable_destroy`. -/
def nsVfsFdtableDestroy (w : OpenFiles) (i : ℕ) (t : VfsTable) : OpenFiles :=
  { w with
    refs := (List.range t.table.maximum).foldl (destroyRound t.table) w.refs
    tables := w.tables.set i none }

end OpenFiles

/-! ### What the entries hold -/

/-- The file of an entry. -/
def heldBy (entry : Option (ℕ × Bool)) : Multiset ℕ :=
  match entry with
  | none => 0
  | some (file, _) => {file}

/-- The files that the entries of a table point to, each as often as it is pointed to. -/
def FdTable.held (table : FdTable) : Multiset ℕ :=
  (range table.maximum).filterMap fun fd => (table.entries fd).map Prod.fst

/-- The files of a place for a table. -/
def heldIn (place : Option VfsTable) : Multiset ℕ := place.elim 0 fun t => t.table.held

/-- The files that the entries of all tables point to, each as often as it is pointed to. -/
def OpenFiles.held (w : OpenFiles) : Multiset ℕ := (w.tables.map heldIn).sum

/-- The files that the entries hold, with one entry more. -/
lemma filterMap_cons_heldBy (f : ℕ → Option (ℕ × Bool)) (fd : ℕ) (s : Multiset ℕ) :
    ((fd ::ₘ s).filterMap fun i => (f i).map Prod.fst) =
      heldBy (f fd) + s.filterMap fun i => (f i).map Prod.fst := by
  cases hentry : f fd with
  | none =>
    rw [filterMap_cons_none _ _ (by rw [hentry]; rfl)]
    exact (zero_add _).symm
  | some entry =>
    rw [filterMap_cons_some _ _ _ (by rw [hentry]; rfl)]
    exact (singleton_add _ _).symm

/-- The files that the entries hold depend on the entries only. -/
lemma filterMap_entries_congr {f g : ℕ → Option (ℕ × Bool)} {s : Multiset ℕ}
    (h : ∀ i ∈ s, f i = g i) :
    (s.filterMap fun i => (f i).map Prod.fst) = s.filterMap fun i => (g i).map Prod.fst := by
  induction s using Multiset.induction_on with
  | empty => rfl
  | cons fd s ih =>
    rw [filterMap_cons_heldBy, filterMap_cons_heldBy, h fd (mem_cons_self fd s),
      ih fun i hi => h i (mem_cons_of_mem hi)]

/-- One entry is taken apart from the others. -/
lemma FdTable.exists_held (table : FdTable) {fd : ℕ} (hfd : fd < table.maximum) :
    ∃ rest, table.held = heldBy (table.entries fd) + rest ∧
      ∀ entry, (table.setEntry fd entry).held = heldBy entry + rest := by
  have hrange : range table.maximum = fd ::ₘ (range table.maximum).erase fd :=
    (cons_erase (mem_range.2 hfd)).symm
  refine ⟨((range table.maximum).erase fd).filterMap fun i =>
    (table.entries i).map Prod.fst, ?_, fun entry => ?_⟩
  · rw [FdTable.held]
    nth_rewrite 1 [hrange]
    exact filterMap_cons_heldBy table.entries fd _
  · have hnot : fd ∉ (range table.maximum).erase fd :=
      (nodup_range table.maximum).notMem_erase
    rw [FdTable.held, FdTable.setEntry]
    dsimp only
    nth_rewrite 1 [hrange]
    rw [filterMap_cons_heldBy, update_self]
    refine congrArg _ (filterMap_entries_congr fun i hi => update_of_ne ?_ _ _)
    rintro rfl
    exact hnot hi

/-- One place of a list is taken apart from the others. -/
lemma exists_sum_map_set {α : Type} (f : α → Multiset ℕ) {l : List α} {i : ℕ} {a : α}
    (h : l[i]? = some a) :
    ∃ rest, (l.map f).sum = f a + rest ∧ ∀ b, ((l.set i b).map f).sum = f b + rest := by
  induction l generalizing i with
  | nil => cases h
  | cons x l ih =>
    cases i with
    | zero =>
      obtain rfl : x = a := Option.some.inj h
      exact ⟨(l.map f).sum, by simp, fun b => by simp⟩
    | succ i =>
      obtain ⟨rest, heq, hset⟩ := ih h
      refine ⟨f x + rest, ?_, fun b => ?_⟩
      · rw [List.map_cons, List.sum_cons, heq, add_left_comm]
      · rw [List.set_cons_succ, List.map_cons, List.sum_cons, hset, add_left_comm]

namespace OpenFiles

variable {w : OpenFiles} {i : ℕ} {t : VfsTable}

lemma getElem?_of_table? (h : w.table? i = some t) : w.tables[i]? = some (some t) :=
  Option.join_eq_some_iff.1 h

variable {fd : ℕ} {minimumFd : ℤ}

/-- One entry of one table is taken apart from the others. -/
lemma exists_held (h : w.table? i = some t) (hfd : fd < t.table.maximum) :
    ∃ rest, w.held = heldBy (t.table.entries fd) + rest ∧
      ∀ entry, (w.setEntry i t fd entry).held = heldBy entry + rest := by
  obtain ⟨others, hheld, hset⟩ := exists_sum_map_set heldIn (getElem?_of_table? h)
  obtain ⟨rest, heq, hentry⟩ := t.table.exists_held hfd
  refine ⟨rest + others, ?_, fun entry => ?_⟩
  · rw [held, hheld, ← add_assoc, ← heq]
    rfl
  · rw [held, setEntry, hset, ← add_assoc, ← hentry]
    rfl

/-- One table is taken apart from the others. -/
lemma exists_held_table (h : w.table? i = some t) :
    ∃ rest, w.held = t.table.held + rest ∧
      ((w.tables.set i none).map heldIn).sum = rest := by
  obtain ⟨rest, hheld, hset⟩ := exists_sum_map_set heldIn (getElem?_of_table? h)
  exact ⟨rest, hheld, by rw [hset]; exact zero_add rest⟩

/-! ### The books are kept by each call -/

variable {file : ℕ} {closeOnExec : Bool}

/-- The books are balanced with the entries as holders, and every count fits. -/
structure Sound (w : OpenFiles) : Prop where
  balanced : w.refs.Balanced w.held
  fits : ∀ x, w.held.count x < 2 ^ 32

/-- A descriptor that names a file holds it. -/
lemma fdGet_eq_some {fd : ℤ} (h : t.table.fdGet fd = some file) :
    fd.toNat < t.table.maximum ∧ heldBy (t.table.entries fd.toNat) = {file} := by
  obtain ⟨hlt, flag, hentry⟩ := FdSpace.exists_entry_of_fdGet h
  exact ⟨hlt, by rw [hentry]; rfl⟩

/-- The file of an entry is held. -/
lemma mem_held (ht : w.table? i = some t) (hfd : fd < t.table.maximum)
    (hfile : heldBy (t.table.entries fd) = {file}) : file ∈ w.held := by
  obtain ⟨rest, hheld, -⟩ := exists_held ht hfd
  rw [hheld, hfile]
  exact mem_add.2 (.inl (mem_singleton_self file))

section

variable (ht : w.table? i = some t) (hminimum : minimumFd.toNat ≤ t.table.maximum)
include ht hminimum

/-- An installation adds the file to an entry, or changes nothing. -/
lemma nsVfsFdInstall_cases (file : ℕ) (closeOnExec : Bool) :
    (w.nsVfsFdInstall i t file minimumFd closeOnExec).2 = w ∨
      (w.nsVfsFdInstall i t file minimumFd closeOnExec).2.refs = w.refs.retain file ∧
      (w.nsVfsFdInstall i t file minimumFd closeOnExec).2.held = file ::ₘ w.held := by
  unfold nsVfsFdInstall
  split_ifs with hargs
  · exact .inl rfl
  · dsimp only
    obtain ⟨-, -, hfree, hend⟩ :=
      t.table.search_spec t.table.maximum minimumFd.toNat (Nat.le_add_left _ _)
    split_ifs with hfull
    · exact .inl rfl
    · have hlt := lt_of_le_of_ne (hend hminimum) hfull
      obtain ⟨rest, hheld, hset⟩ := exists_held ht hlt
      refine .inr ⟨rfl, ?_⟩
      rw [hfree hlt] at hheld
      rw [hheld]
      exact (hset (some (file, closeOnExec))).trans (by simp [heldBy])

/-- With a reference of the caller, an installation keeps the books. -/
lemma nsVfsFdInstall_balanced (h : w.refs.Balanced (file ::ₘ w.held))
    (closeOnExec : Bool) : (w.nsVfsFdInstall i t file minimumFd closeOnExec).2.refs.Balanced
      (file ::ₘ (w.nsVfsFdInstall i t file minimumFd closeOnExec).2.held) := by
  rcases nsVfsFdInstall_cases ht hminimum file closeOnExec with heq | ⟨hrefs, hheld⟩
  · rw [heq]
    exact h
  · rw [hrefs, hheld]
    exact h.retain (mem_cons_self file w.held)

/-- A file that is installed for a caller who then gives up the reference. -/
lemma sound_installed (h : w.refs.Balanced (file ::ₘ w.held))
    (hfits : ∀ x, w.held.count x < 2 ^ 32) (hroom : w.held.count file + 1 < 2 ^ 32) :
    ((w.nsVfsFdInstall i t file minimumFd closeOnExec).2.nsVfsFileRelease file).Sound := by
  have hbalanced := nsVfsFdInstall_balanced ht hminimum h closeOnExec
  have hfits' : ∀ x, (w.nsVfsFdInstall i t file minimumFd closeOnExec).2.held.count x < 2 ^ 32 := by
    intro x
    rcases nsVfsFdInstall_cases ht hminimum file closeOnExec with heq | ⟨-, hheld⟩
    · rw [heq]
      exact hfits x
    · rw [hheld]
      by_cases hx : x = file
      · rw [hx, count_cons_self]
        exact hroom
      · rw [count_cons_of_ne hx]
        exact hfits x
  exact ⟨hbalanced.release (hfits' file), hfits'⟩

end

section

variable (h : w.Sound) (ht : w.table? i = some t)
include h ht

/-- Installing a new file keeps the open files sound. -/
lemma openInstall_sound : (w.openInstall i t closeOnExec).2.Sound := by
  have hnew : w.held.count w.refs.created = 0 :=
    count_eq_zero.2 fun hmem => lt_irrefl _ (h.balanced.lt_created _ hmem)
  have hroom : w.held.count w.refs.created + 1 < 2 ^ 32 := by
    rw [hnew]
    norm_num
  exact sound_installed
    (w := ⟨w.refs.create, update w.fileVfs w.refs.created t.vfs, w.tables⟩) ht
    (Nat.zero_le _) h.balanced.create h.fits hroom

/-- `ns_vfs_dup` keeps the open files sound. -/
lemma nsVfsDup_sound {oldFd : ℤ} (hminimum : minimumFd.toNat ≤ t.table.maximum)
    (hroom : ∀ file, t.table.fdGet oldFd = some file → w.held.count file + 1 < 2 ^ 32) :
    (w.nsVfsDup i t oldFd minimumFd closeOnExec).2.Sound := by
  unfold nsVfsDup
  cases hget : t.table.fdGet oldFd with
  | none => exact h
  | some file =>
    obtain ⟨hfd, hfile⟩ := fdGet_eq_some hget
    have hmem : file ∈ w.held := mem_held ht hfd hfile
    exact sound_installed (w := w.nsVfsFileRetain file) ht hminimum (h.balanced.retain hmem) h.fits
      (hroom file hget)

/-- An entry is emptied and its reference is given up. -/
lemma sound_emptied (hfd : fd < t.table.maximum) (hfile : heldBy (t.table.entries fd) = {file}) :
    ((w.setEntry i t fd none).nsVfsFileRelease file).Sound := by
  obtain ⟨rest, hheld, hset⟩ := exists_held ht hfd
  rw [hfile, singleton_add] at hheld
  have hrest : (w.setEntry i t fd none).held = rest := (hset none).trans (zero_add rest)
  have hfits : ∀ x, rest.count x < 2 ^ 32 := fun x =>
    lt_of_le_of_lt (count_le_of_le x (hheld ▸ le_cons_self rest file)) (h.fits x)
  have hbalanced : w.refs.Balanced (file ::ₘ rest) := hheld ▸ h.balanced
  refine ⟨?_, ?_⟩
  · show (w.refs.release file).Balanced (w.setEntry i t fd none).held
    rw [hrest]
    exact hbalanced.release (hfits file)
  · show ∀ x, (w.setEntry i t fd none).held.count x < 2 ^ 32
    rw [hrest]
    exact hfits

/-- `ns_vfs_close` keeps the open files sound. -/
lemma nsVfsClose_sound (fd : ℤ) : (w.nsVfsClose i t fd).2.Sound := by
  unfold nsVfsClose
  cases hget : t.table.fdGet fd with
  | none => exact h
  | some file =>
    obtain ⟨hfd, hfile⟩ := fdGet_eq_some hget
    exact sound_emptied h ht hfd hfile

/-- `ns_vfs_dup2` keeps the open files sound. -/
lemma nsVfsDup2_sound {oldFd newFd : ℤ}
    (hroom : ∀ file, t.table.fdGet oldFd = some file → w.held.count file + 1 < 2 ^ 32) :
    (w.nsVfsDup2 i t oldFd newFd closeOnExec).2.Sound := by
  unfold nsVfsDup2
  by_cases hrange : newFd < 0 ∨ t.table.maximum ≤ newFd.toNat
  · rw [if_pos hrange]
    exact h
  rw [if_neg hrange]
  cases hget : t.table.fdGet oldFd with
  | none => exact h
  | some source =>
    dsimp only
    split_ifs with hsame
    · exact h
    obtain ⟨hfd, hfile⟩ := fdGet_eq_some hget
    have hmem : source ∈ w.held := mem_held ht hfd hfile
    rw [not_or] at hrange
    obtain ⟨rest, hheld, hset⟩ := exists_held ht (Nat.lt_of_not_le hrange.2)
    have hnew : (w.setEntry i t newFd.toNat (some (source, closeOnExec))).held = source ::ₘ rest :=
      (hset _).trans (singleton_add source rest)
    -- the old entry gives up its reference, the new one has that of the call
    have hbalanced : (w.refs.retain source).Balanced
        (heldBy (t.table.entries newFd.toNat) + (source ::ₘ rest)) := by
      rw [← singleton_add, add_left_comm, ← hheld, singleton_add]
      exact h.balanced.retain hmem
    have hfits : ∀ x, (source ::ₘ rest).count x < 2 ^ 32 := by
      intro x
      have hle : rest.count x ≤ w.held.count x :=
        count_le_of_le x (hheld ▸ le_add_left rest _)
      by_cases hx : x = source
      · have := hroom source hget
        rw [hx, count_cons_self]
        rw [hx] at hle
        omega
      · rw [count_cons_of_ne hx]
        exact lt_of_le_of_lt hle (h.fits x)
    cases hentry : t.table.entries newFd.toNat with
    | none =>
      rw [hentry] at hbalanced
      have hbooks : (w.refs.retain source).Balanced (source ::ₘ rest) :=
        (zero_add (source ::ₘ rest)) ▸ hbalanced
      exact ⟨hnew.symm ▸ hbooks, hnew.symm ▸ hfits⟩
    | some entry =>
      rw [hentry] at hbalanced
      have hbooks : (w.refs.retain source).Balanced (entry.1 ::ₘ source ::ₘ rest) :=
        (singleton_add entry.1 (source ::ₘ rest)) ▸ hbalanced
      exact ⟨hnew.symm ▸ hbooks.release (hfits entry.1), hnew.symm ▸ hfits⟩

end

/-! #### Tables -/

/-- The files that are held, with a new table. -/
lemma held_append (w : OpenFiles) (refs : Refs) (t : VfsTable) :
    ({ w with refs := refs, tables := w.tables ++ [some t] } : OpenFiles).held =
      w.held + t.table.held := by
  simp [held, heldIn]

/-- A table without entries holds nothing. -/
lemma held_empty (maximum : ℕ) : (⟨maximum, fun _ => none⟩ : FdTable).held = 0 := by
  unfold FdTable.held
  induction maximum with
  | zero => rfl
  | succ maximum ih =>
    rw [range_succ, filterMap_cons_heldBy, ih]
    rfl

/-- `ns_vfs_fdtable_create` keeps the open files sound. -/
lemma nsVfsFdtableCreate_sound (h : w.Sound) (vfs maximumFds : ℕ) (allocated : Bool) :
    (w.nsVfsFdtableCreate vfs maximumFds allocated).Sound := by
  unfold nsVfsFdtableCreate
  split_ifs
  · exact h
  · have hheld := held_append w w.refs ⟨vfs, ⟨maximumFds, fun _ => none⟩⟩
    rw [held_empty, add_zero] at hheld
    exact ⟨hheld.symm ▸ h.balanced, hheld.symm ▸ h.fits⟩

/-- The files that a copy of the table adds to the holders. -/
def inherited (t : VfsTable) (closeOnExec : Bool) : Multiset ℕ :=
  (⟨t.table.maximum, fun fd => FdTable.keptEntry closeOnExec (t.table.entries fd)⟩ : FdTable).held

section

variable (t : VfsTable) (closeOnExec : Bool)

lemma copied_zero : t.table.copied closeOnExec 0 = ⟨t.table.maximum, fun _ => none⟩ := by
  simp [FdTable.copied]

/-- One entry more is copied. -/
lemma copied_succ (n : ℕ) : t.table.copied closeOnExec (n + 1) =
      (t.table.copied closeOnExec n).setEntry n
        (FdTable.keptEntry closeOnExec (t.table.entries n)) := by
  rw [FdTable.copied, FdTable.copied, FdTable.setEntry]
  congr 1
  funext fd
  by_cases hfd : fd = n
  · rw [hfd, update_self, if_pos (Nat.lt_succ_self n)]
  · rw [update_of_ne hfd]
    exact if_congr (by omega) rfl rfl

/-- An entry that is not kept is empty in the copy already. -/
lemma copied_setEntry_none (n : ℕ) :
    (t.table.copied closeOnExec n).setEntry n none = t.table.copied closeOnExec n := by
  rw [FdTable.copied, FdTable.setEntry]
  congr 1
  exact update_eq_self_iff.2 (if_neg (lt_irrefl n)).symm

/-- A round leaves the state alone, or puts the entry into the copy and takes a reference for it. -/
lemma cloneRound_cases (n : ℕ) (refs : Refs) :
    cloneRound t.table closeOnExec (t.table.copied closeOnExec n, refs) n =
        (t.table.copied closeOnExec (n + 1), refs) ∧
        t.table.copied closeOnExec (n + 1) = t.table.copied closeOnExec n ∨
      ∃ file flag, t.table.entries n = some (file, flag) ∧
        FdTable.keptEntry closeOnExec (t.table.entries n) = some (file, flag) ∧
        cloneRound t.table closeOnExec (t.table.copied closeOnExec n, refs) n =
          (t.table.copied closeOnExec (n + 1), refs.retain file) := by
  rw [copied_succ, cloneRound]
  cases hentry : t.table.entries n with
  | none =>
    have hsame := copied_setEntry_none t closeOnExec n
    exact .inl ⟨congrArg (·, refs) hsame.symm, hsame⟩
  | some entry =>
    obtain ⟨file, flag⟩ := entry
    dsimp only [FdTable.keptEntry]
    split_ifs with hskip
    · have hsame := copied_setEntry_none t closeOnExec n
      exact .inl ⟨congrArg (·, refs) hsame.symm, hsame⟩
    · exact .inr ⟨file, flag, rfl, rfl, rfl⟩

/-- The loop of `ns_vfs_fdtable_clone` copies the entries. -/
lemma cloneLoop_table (refs : Refs) (n : ℕ) : ((List.range n).foldl (cloneRound t.table closeOnExec)
      (⟨t.table.maximum, fun _ => none⟩, refs)).1 = t.table.copied closeOnExec n := by
  induction n with
  | zero => exact (copied_zero t closeOnExec).symm
  | succ n ih =>
    rw [List.range_succ, List.foldl_append, List.foldl_cons, List.foldl_nil]
    generalize (List.range n).foldl (cloneRound t.table closeOnExec)
      (⟨t.table.maximum, fun _ => none⟩, refs) = state at ih ⊢
    obtain ⟨copy, refs'⟩ := state
    obtain rfl : copy = t.table.copied closeOnExec n := ih
    rcases cloneRound_cases t closeOnExec n refs' with ⟨hround, -⟩ | ⟨file, flag, -, -, hround⟩
    · rw [hround]
    · rw [hround]

end

/-- The references of the entries that were copied so far are taken. -/
lemma cloneLoop_balanced (h : w.Sound) (ht : w.table? i = some t) (closeOnExec : Bool) (n : ℕ)
    (hn : n ≤ t.table.maximum) :
    ((List.range n).foldl (cloneRound t.table closeOnExec)
      (⟨t.table.maximum, fun _ => none⟩, w.refs)).2.Balanced
      (w.held + (t.table.copied closeOnExec n).held) := by
  induction n with
  | zero =>
    rw [copied_zero, held_empty, add_zero]
    exact h.balanced
  | succ n ih =>
    have hbalanced := ih (Nat.le_of_succ_le hn)
    have htable := cloneLoop_table t closeOnExec w.refs n
    rw [List.range_succ, List.foldl_append, List.foldl_cons, List.foldl_nil]
    generalize (List.range n).foldl (cloneRound t.table closeOnExec)
      (⟨t.table.maximum, fun _ => none⟩, w.refs) = state at hbalanced htable ⊢
    obtain ⟨copy, refs⟩ := state
    obtain rfl : copy = t.table.copied closeOnExec n := htable
    rcases cloneRound_cases t closeOnExec n refs with
      ⟨hround, hsame⟩ | ⟨file, flag, hentry, hkept, hround⟩
    · rw [hround, hsame]
      exact hbalanced
    · have hmem : file ∈ w.held := mem_held ht hn (by rw [hentry]; rfl)
      have hlt : n < (t.table.copied closeOnExec n).maximum := hn
      obtain ⟨rest, hheld, hset⟩ := (t.table.copied closeOnExec n).exists_held hlt
      have hfree : (t.table.copied closeOnExec n).entries n = none := if_neg (lt_irrefl n)
      rw [hfree] at hheld
      have hrest : (t.table.copied closeOnExec n).held = rest := hheld.trans (zero_add rest)
      have hnew : (t.table.copied closeOnExec (n + 1)).held = {file} + rest := by
        rw [copied_succ, hset, hkept]
        rfl
      rw [hround, hnew, ← hrest, add_left_comm, singleton_add]
      exact hbalanced.retain (mem_add.2 (.inl hmem))

/-- A copy holds the files that are inherited. -/
lemma held_copied (t : VfsTable) (closeOnExec : Bool) :
    (t.table.copied closeOnExec t.table.maximum).held = inherited t closeOnExec :=
  filterMap_entries_congr fun _ hfd => if_pos (mem_range.1 hfd)

/-- The tables after a clone that finds memory. -/
lemma nsVfsFdtableClone_eq (w : OpenFiles) (t : VfsTable) (closeOnExec : Bool) :
    ∃ refs, w.nsVfsFdtableClone t closeOnExec true =
        { w with
          refs := refs
          tables := w.tables ++ [some ⟨t.vfs, t.table.copied closeOnExec t.table.maximum⟩] } ∧
      refs = ((List.range t.table.maximum).foldl (cloneRound t.table closeOnExec)
        (⟨t.table.maximum, fun _ => none⟩, w.refs)).2 := by
  refine ⟨_, ?_, rfl⟩
  rw [nsVfsFdtableClone, if_neg (by decide), ← cloneLoop_table t closeOnExec w.refs]

/-- `ns_vfs_fdtable_clone` keeps the open files sound. -/
lemma nsVfsFdtableClone_sound (h : w.Sound) (ht : w.table? i = some t) (allocated : Bool)
    (hroom : ∀ x, w.held.count x + (inherited t closeOnExec).count x < 2 ^ 32) :
    (w.nsVfsFdtableClone t closeOnExec allocated).Sound := by
  cases allocated with
  | false => exact h
  | true =>
    obtain ⟨refs, heq, hrefs⟩ := nsVfsFdtableClone_eq w t closeOnExec
    have hbalanced := cloneLoop_balanced h ht closeOnExec t.table.maximum le_rfl
    have hheld := held_append w refs ⟨t.vfs, t.table.copied closeOnExec t.table.maximum⟩
    rw [held_copied] at hbalanced hheld
    rw [← hrefs] at hbalanced
    rw [heq]
    refine ⟨hheld.symm ▸ hbalanced, fun x => ?_⟩
    rw [hheld, count_add]
    exact hroom x

/-- The table after a change of an entry. -/
lemma table?_setEntry (ht : w.table? i = some t) (fd : ℕ) (entry : Option (ℕ × Bool)) :
    (w.setEntry i t fd entry).table? i = some { t with table := t.table.setEntry fd entry } := by
  have hlt : i < w.tables.length := (List.getElem?_eq_some_iff.1 (getElem?_of_table? ht)).1
  rw [table?, setEntry, List.getElem?_set_self hlt]
  rfl

/-- A round empties an entry or does nothing, and the table keeps its size. -/
lemma closeCloexecRound_sound (h : w.Sound) (ht : w.table? i = some t) {index : ℕ}
    (hindex : index < t.table.maximum) :
    (closeCloexecRound i w index).Sound ∧
      ∃ t', (closeCloexecRound i w index).table? i = some t' ∧
        t'.table.maximum = t.table.maximum := by
  rw [closeCloexecRound, ht]
  dsimp only
  split
  · rename_i file hentry
    exact ⟨sound_emptied h ht hindex (by rw [hentry]; rfl), _, table?_setEntry ht index none, rfl⟩
  · exact ⟨h, t, ht, rfl⟩

/-- `ns_vfs_fdtable_close_cloexec` keeps the open files sound. -/
lemma nsVfsFdtableCloseCloexec_sound (h : w.Sound) (ht : w.table? i = some t) :
    (w.nsVfsFdtableCloseCloexec i t).Sound := by
  have hloop : ∀ (indices : List ℕ) (w : OpenFiles), (∀ index ∈ indices, index < t.table.maximum) →
      w.Sound → (∃ t', w.table? i = some t' ∧ t'.table.maximum = t.table.maximum) →
      (indices.foldl (closeCloexecRound i) w).Sound := by
    intro indices
    induction indices with
    | nil => exact fun _ _ h _ => h
    | cons index indices ih =>
      rintro w hindices h ⟨t', ht', hmaximum⟩
      have hindex : index < t'.table.maximum := hmaximum ▸ hindices index List.mem_cons_self
      obtain ⟨hsound, t'', ht'', hmaximum'⟩ := closeCloexecRound_sound h ht' hindex
      exact ih _ (fun j hj => hindices j (List.mem_cons_of_mem index hj)) hsound
        ⟨t'', ht'', hmaximum'.trans hmaximum⟩
  exact hloop _ w (fun index hindex => List.mem_range.1 hindex) h ⟨t, ht, rfl⟩

/-- The references of a list of entries are given up one after the other. -/
lemma destroyLoop_balanced {table : FdTable} {refs : Refs} {rest : Multiset ℕ} (indices : List ℕ)
    (h : refs.Balanced (((indices : Multiset ℕ).filterMap fun fd =>
      (table.entries fd).map Prod.fst) + rest))
    (hfits : ∀ x, (((indices : Multiset ℕ).filterMap fun fd =>
      (table.entries fd).map Prod.fst) + rest).count x < 2 ^ 32) :
    (indices.foldl (destroyRound table) refs).Balanced rest := by
  induction indices generalizing refs with
  | nil =>
    rw [coe_nil, filterMap_zero, zero_add] at h
    exact h
  | cons index indices ih =>
    rw [← cons_coe, filterMap_cons_heldBy, add_assoc] at h hfits
    have hle : ∀ x, (((indices : Multiset ℕ).filterMap fun fd =>
        (table.entries fd).map Prod.fst) + rest).count x < 2 ^ 32 := fun x =>
      lt_of_le_of_lt (count_le_of_le x (le_add_left _ _)) (hfits x)
    refine ih ?_ hle
    rw [destroyRound]
    cases hentry : table.entries index with
    | none =>
      rw [hentry] at h
      exact (zero_add _).subst h
    | some entry =>
      rw [hentry] at h
      have hbalanced : refs.Balanced (entry.1 ::ₘ (((indices : Multiset ℕ).filterMap fun fd =>
          (table.entries fd).map Prod.fst) + rest)) := by
        exact h
      exact hbalanced.release (hle entry.1)

/-- `ns_vfs_fdtable_destroy` keeps the open files sound. -/
lemma nsVfsFdtableDestroy_sound (h : w.Sound) (ht : w.table? i = some t) :
    (w.nsVfsFdtableDestroy i t).Sound := by
  obtain ⟨rest, hheld, hset⟩ := exists_held_table ht
  have hrest : (w.nsVfsFdtableDestroy i t).held = rest := hset
  have hbalanced : w.refs.Balanced (t.table.held + rest) := hheld ▸ h.balanced
  have hfits : ∀ x, (t.table.held + rest).count x < 2 ^ 32 := hheld ▸ h.fits
  refine ⟨?_, fun x => ?_⟩
  · rw [hrest]
    exact destroyLoop_balanced (List.range t.table.maximum) hbalanced hfits
  · rw [hrest]
    exact lt_of_le_of_lt (count_le_of_le x (le_add_left rest _)) (hfits x)

/-! ### The other models of the calls

`FdSpace` has one of the tables, and `Vfs` has the calls of several threads at a time. -/

/-- The table `i` with the files, as `FdSpace` has them. -/
structure Shows (w : OpenFiles) (i : ℕ) (t : VfsTable) (s : FdSpace) : Prop where
  place : w.table? i = some t
  vfs : s.vfs = t.vfs
  table : s.table = t.table
  files : ∀ file, s.files file = ⟨w.fileVfs file, w.refs.references file⟩

section

variable {s : FdSpace} (h : w.Shows i t s)
include h

/-- A change of one count of references. -/
lemma Shows.setReferences (file : ℕ) {refs : Refs} {references : UInt32}
    (hrefs : refs.references = update w.refs.references file references) :
    ({ w with refs := refs } : OpenFiles).Shows i t (s.setReferences file references) := by
  refine ⟨h.place, h.vfs, h.table, fun other => ?_⟩
  show update s.files file _ other = ⟨w.fileVfs other, refs.references other⟩
  rw [hrefs]
  by_cases hfile : other = file
  · rw [hfile, update_self, update_self, h.files]
  · rw [update_of_ne hfile, update_of_ne hfile, h.files]

/-- Retaining a file in both models. -/
lemma Shows.retain (file : ℕ) : (w.nsVfsFileRetain file).Shows i t (s.fileRetain file) :=
  h.setReferences file (by rw [h.files]; rfl)

/-- Releasing a file in both models. -/
lemma Shows.release (file : ℕ) : (w.nsVfsFileRelease file).Shows i t (s.fileRelease file) :=
  h.setReferences file (by rw [h.files]; rfl)

/-- An installation does to the table what it does to the table alone. -/
lemma Shows.nsVfsFdInstall (file : ℕ) (minimumFd : ℤ) (closeOnExec : Bool) :
    (w.nsVfsFdInstall i t file minimumFd closeOnExec).1 =
        (s.nsVfsFdInstall file minimumFd closeOnExec).1 ∧
      ∃ t', (w.nsVfsFdInstall i t file minimumFd closeOnExec).2.Shows i t'
        (s.nsVfsFdInstall file minimumFd closeOnExec).2 := by
  have hvfs : (s.files file).vfs = w.fileVfs file := by rw [h.files]
  unfold OpenFiles.nsVfsFdInstall FdSpace.nsVfsFdInstall
  rw [← hvfs, ← h.vfs, ← h.table]
  by_cases hargs : (s.files file).vfs ≠ s.vfs ∨ minimumFd < 0
  · rw [if_pos hargs, dif_pos hargs]
    exact ⟨rfl, t, h⟩
  rw [if_neg hargs, dif_neg hargs]
  dsimp only
  split_ifs
  · exact ⟨rfl, t, h⟩
  · have hretained := h.retain file
    refine ⟨rfl, _, table?_setEntry hretained.place _ _, h.vfs, ?_, hretained.files⟩
    exact congrArg (fun table : FdTable => table.setEntry _ _) h.table

/-- The same for a duplicate. -/
lemma Shows.nsVfsDup (oldFd minimumFd : ℤ) (closeOnExec : Bool) :
    (w.nsVfsDup i t oldFd minimumFd closeOnExec).1 =
        (s.nsVfsDup oldFd minimumFd closeOnExec).1 ∧
      ∃ t', (w.nsVfsDup i t oldFd minimumFd closeOnExec).2.Shows i t'
        (s.nsVfsDup oldFd minimumFd closeOnExec).2 := by
  unfold OpenFiles.nsVfsDup FdSpace.nsVfsDup FdSpace.fdGet
  rw [h.table]
  cases t.table.fdGet oldFd with
  | none => exact ⟨rfl, t, h⟩
  | some file =>
    obtain ⟨hresult, t', hshows⟩ := (h.retain file).nsVfsFdInstall file minimumFd closeOnExec
    exact ⟨hresult, t', hshows.release file⟩

end

/-- A clone takes the same references whether its loop is one call or the end of a call of a thread
among others. -/
lemma cloneLoop_references {v : Vfs} {refs : Refs}
    (h : ∀ file, refs.references file = (v.files file).references) (t : VfsTable)
    (closeOnExec : Bool) {n : ℕ} (hn : n ≤ t.table.maximum) (file : ℕ) :
    ((List.range n).foldl (cloneRound t.table closeOnExec)
        (⟨t.table.maximum, fun _ => none⟩, refs)).2.references file =
      ((Vfs.retainLoop (t.table.copied closeOnExec t.table.maximum).entries n v).files
        file).references := by
  induction n generalizing file with
  | zero => exact h file
  | succ n ih =>
    have hsame := ih (Nat.le_of_succ_le hn)
    have hentry : (t.table.copied closeOnExec t.table.maximum).entries n =
        FdTable.keptEntry closeOnExec (t.table.entries n) := if_pos hn
    rw [List.range_succ, List.foldl_append, List.foldl_cons, List.foldl_nil, cloneRound,
      Vfs.retainLoop, hentry]
    cases t.table.entries n with
    | none => exact hsame file
    | some entry =>
      dsimp only [FdTable.keptEntry]
      split_ifs
      · exact hsame file
      · dsimp only [Refs.retain, Vfs.nsVfsFileRetain, Vfs.setFile]
        by_cases hfile : file = entry.1
        · rw [hfile, update_self, update_self, hsame]
        · rw [update_of_ne hfile, update_of_ne hfile, hsame]

/-- The two models of `ns_vfs_fdtable_clone` agree on the new table and on the references. -/
lemma nsVfsFdtableClone_agrees {v : Vfs} {thread : Tid} (child : Tid) {copy : ℕ}
    (hcopy : copy ∉ v.usedTables) (closeOnExec : Bool)
    (ht : t.table = v.tables (v.tableOf thread))
    (hrefs : ∀ file, w.refs.references file = (v.files file).references) :
    (w.nsVfsFdtableClone t closeOnExec true).tables =
        w.tables ++
          [some ⟨t.vfs, (v.nsVfsFdtableClone thread child copy closeOnExec).tables copy⟩] ∧
      ∀ file, (w.nsVfsFdtableClone t closeOnExec true).refs.references file =
        ((v.nsVfsFdtableClone thread child copy closeOnExec).files file).references := by
  obtain ⟨refs, heq, hloop⟩ := nsVfsFdtableClone_eq w t closeOnExec
  rw [heq, Vfs.nsVfsFdtableClone, if_neg hcopy, ← ht]
  refine ⟨?_, fun file => ?_⟩
  · dsimp only
    rw [update_self]
  · dsimp only
    rw [hloop]
    exact cloneLoop_references hrefs t closeOnExec le_rfl file

end OpenFiles

end Northstar
