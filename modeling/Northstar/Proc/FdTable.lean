import Northstar.Proc.Descriptor

/-! # The descriptor that a file is installed under

A model of `ns_vfs_fd_install` and `ns_vfs_dup` of `vfs.c`. The entries of a table are a function of
the index: the memory after the table is there too, and a write to it is a write to an entry that
the table does not have.

The search for a free entry stops at the end of the table, but only a search that arrives there from
below is recognised. -/

namespace Northstar

open Function

abbrev nsEmfile : ℤ := 24

/-- `struct ns_vfs_file` as far as a descriptor table is concerned. -/
structure FileRefs where
  vfs : ℕ
  references : UInt32
  deriving DecidableEq, Repr

/-- A descriptor table with the files, all of whose entries are files of the VFS of the table. -/
structure FdSpace where
  vfs : ℕ
  table : FdTable
  files : ℕ → FileRefs
  owned : ∀ fd file closeOnExec, table.entries fd = some (file, closeOnExec) →
    (files file).vfs = vfs

variable (s : FdSpace)

namespace FdSpace

/-- The count of references of a file is changed. -/
def setReferences (file : ℕ) (references : UInt32) : FdSpace :=
  { s with
    files := update s.files file { s.files file with references := references }
    owned := by
      intro fd other closeOnExec hentry
      by_cases hfile : other = file
      · rw [hfile, update_self]
        exact s.owned fd file closeOnExec (hfile ▸ hentry)
      · rw [update_of_ne hfile]
        exact s.owned fd other closeOnExec hentry }

/-- `ns_vfs_file_retain`. -/
def fileRetain (file : ℕ) : FdSpace :=
  s.setReferences file ((s.files file).references + 1)

/-- `ns_vfs_file_release`. What is done for the last reference does not concern the table. -/
def fileRelease (file : ℕ) : FdSpace :=
  s.setReferences file ((s.files file).references - 1)

/-- An entry is set to a file of the VFS. -/
def setEntry (fd file : ℕ) (closeOnExec : Bool) (h : (s.files file).vfs = s.vfs) : FdSpace :=
  { s with
    table := s.table.setEntry fd (some (file, closeOnExec))
    owned := by
      intro other otherFile flag hentry
      dsimp only [FdTable.setEntry] at hentry
      by_cases hfd : other = fd
      · rw [hfd, update_self] at hentry
        obtain ⟨rfl, -⟩ := Prod.mk.inj (Option.some.inj hentry)
        exact h
      · rw [update_of_ne hfd] at hentry
        exact s.owned other otherFile flag hentry }

end FdSpace

/-- The loop of `ns_vfs_fd_install`. -/
def FdTable.search (table : FdTable) : ℕ → ℕ → ℕ
  | 0, index => index
  | rounds + 1, index =>
    if index < table.maximum ∧ (table.entries index).isSome = true then
      table.search rounds (index + 1)
    else index

namespace FdSpace

/-- `ns_vfs_fd_install`. The loop makes at most as many rounds as the table has entries. -/
def nsVfsFdInstall (file : ℕ) (minimumFd : ℤ) (closeOnExec : Bool) : ℤ × FdSpace :=
  if h : (s.files file).vfs ≠ s.vfs ∨ minimumFd < 0 then (-nsEinval, s)
  else
    let index := s.table.search s.table.maximum minimumFd.toNat
    if index = s.table.maximum then (-nsEmfile, s)
    else (index, ((s.setEntry index file closeOnExec (by omega)).fileRetain file))

/-- `fd_get`: the file, which has been retained. -/
def fdGet (fd : ℤ) : Option (ℕ × FdSpace) :=
  (s.table.fdGet fd).map fun file => (file, s.fileRetain file)

/-- `ns_vfs_dup`. -/
def nsVfsDup (oldFd minimumFd : ℤ) (closeOnExec : Bool) : ℤ × FdSpace :=
  match s.fdGet oldFd with
  | none => (-nsEbadf, s)
  | some (file, s) =>
    let installed := s.nsVfsFdInstall file minimumFd closeOnExec
    (installed.1, installed.2.fileRelease file)

end FdSpace

/-! ### The search -/

/-- The entry is the first free one of a table from an index on. -/
structure FdTable.FirstFree (table : FdTable) (minimum fd : ℕ) : Prop where
  minimum_le : minimum ≤ fd
  lt_maximum : fd < table.maximum
  free : table.entries fd = none
  first : ∀ index, minimum ≤ index → index < fd → table.entries index ≠ none

/-- The meaning of the two calls: the file is in the first free entry and nothing else has changed,
or there is no free entry and nothing has changed. -/
def FdTable.Installed (table table' : FdTable) (file : ℕ) (closeOnExec : Bool) (minimum : ℕ)
    (result : ℤ) : Prop :=
  (∃ fd, table.FirstFree minimum fd ∧ result = fd ∧
      table' = table.setEntry fd (some (file, closeOnExec))) ∨
    ((∀ fd, minimum ≤ fd → fd < table.maximum → table.entries fd ≠ none) ∧
      result = -nsEmfile ∧ table' = table)

/-- The entries that the search has passed are in use, and it stops at a free one or at the end. -/
lemma FdTable.search_spec (table : FdTable) (rounds index : ℕ)
    (hrounds : table.maximum ≤ index + rounds) :
    index ≤ table.search rounds index ∧
      (∀ i, index ≤ i → i < table.search rounds index → table.entries i ≠ none) ∧
      (table.search rounds index < table.maximum →
        table.entries (table.search rounds index) = none) ∧
      (index ≤ table.maximum → table.search rounds index ≤ table.maximum) := by
  induction rounds generalizing index with
  | zero =>
    rw [FdTable.search]
    exact ⟨le_rfl, fun i hle hlt => absurd hlt (by omega), fun hlt => absurd hlt (by omega), id⟩
  | succ rounds ih =>
    rw [FdTable.search]
    split_ifs with hused
    · obtain ⟨hle, hpassed, hstop, hend⟩ := ih (index + 1) (by omega)
      refine ⟨by omega, fun i hi hlt => ?_, hstop, fun _ => hend hused.1⟩
      rcases hi.eq_or_lt with rfl | hi
      · exact Option.isSome_iff_ne_none.mp hused.2
      · exact hpassed i hi hlt
    · refine ⟨le_rfl, fun i hle hlt => absurd hlt (by omega), fun hlt => ?_, id⟩
      by_contra hsome
      exact hused ⟨hlt, Option.isSome_iff_ne_none.mpr hsome⟩

/-- The search starts above the end of the table and stays there. -/
lemma FdTable.search_of_maximum_lt {table : FdTable} {rounds index : ℕ}
    (h : table.maximum < index) : table.search rounds index = index := by
  cases rounds with
  | zero => rfl
  | succ rounds => rw [FdTable.search, if_neg (by omega)]

namespace FdSpace

/-! ### Installation -/

variable (file : ℕ) (closeOnExec : Bool)

@[simp] lemma fileRetain_table : (s.fileRetain file).table = s.table := rfl

@[simp] lemma fileRelease_table : (s.fileRelease file).table = s.table := rfl

variable {minimum : ℕ}

/-- From an index within the table the call does what it is for. -/
lemma nsVfsFdInstall_installed (hvfs : (s.files file).vfs = s.vfs)
    (hminimum : minimum ≤ s.table.maximum) :
    s.table.Installed (s.nsVfsFdInstall file minimum closeOnExec).2.table file closeOnExec minimum
      (s.nsVfsFdInstall file minimum closeOnExec).1 := by
  have hargs : ¬((s.files file).vfs ≠ s.vfs ∨ (minimum : ℤ) < 0) := by omega
  obtain ⟨hle, hpassed, hstop, hend⟩ := s.table.search_spec s.table.maximum minimum (by omega)
  unfold nsVfsFdInstall
  rw [dif_neg hargs, Int.toNat_natCast]
  by_cases hfull : s.table.search s.table.maximum minimum = s.table.maximum
  · rw [if_pos hfull]
    exact .inr ⟨fun fd hfd hlt => hpassed fd hfd (hlt.trans_eq hfull.symm), rfl, rfl⟩
  · rw [if_neg hfull]
    have hlt : s.table.search s.table.maximum minimum < s.table.maximum :=
      lt_of_le_of_ne (hend hminimum) hfull
    exact .inl ⟨_, ⟨hle, hlt, hstop hlt, hpassed⟩, rfl, rfl⟩

/-- From an index above the table the call returns that index. -/
lemma nsVfsFdInstall_of_maximum_lt (hvfs : (s.files file).vfs = s.vfs)
    (hminimum : s.table.maximum < minimum) :
    (s.nsVfsFdInstall file minimum closeOnExec).1 = minimum := by
  have hargs : ¬((s.files file).vfs ≠ s.vfs ∨ (minimum : ℤ) < 0) := by omega
  unfold nsVfsFdInstall
  rw [dif_neg hargs, Int.toNat_natCast]
  rw [FdTable.search_of_maximum_lt hminimum, if_neg (by omega)]

/-- An index above the table is not the result of a proper installation. -/
lemma not_installed_of_maximum_lt {table table' : FdTable} (hminimum : table.maximum < minimum) :
    ¬table.Installed table' file closeOnExec minimum minimum := by
  rintro (⟨fd, hfirst, hresult, -⟩ | ⟨-, hresult, -⟩)
  · have := hfirst.lt_maximum
    omega
  · unfold nsEmfile at hresult
    omega

/-- The file is installed in the first free entry just if the minimum is not behind the table. -/
lemma nsVfsFdInstall_installed_iff (hvfs : (s.files file).vfs = s.vfs) :
    s.table.Installed (s.nsVfsFdInstall file minimum closeOnExec).2.table file closeOnExec minimum
        (s.nsVfsFdInstall file minimum closeOnExec).1 ↔ minimum ≤ s.table.maximum := by
  constructor
  · intro hinstalled
    by_contra hminimum
    rw [nsVfsFdInstall_of_maximum_lt s file closeOnExec hvfs (by omega)] at hinstalled
    exact not_installed_of_maximum_lt file closeOnExec (by omega) hinstalled
  · exact nsVfsFdInstall_installed s file closeOnExec hvfs

/-- A file of another VFS is refused. -/
lemma not_installed_of_vfs_ne (hvfs : (s.files file).vfs ≠ s.vfs) :
    ¬s.table.Installed (s.nsVfsFdInstall file minimum closeOnExec).2.table file closeOnExec minimum
      (s.nsVfsFdInstall file minimum closeOnExec).1 := by
  unfold nsVfsFdInstall
  rw [dif_pos (.inl hvfs)]
  rintro (⟨fd, -, hresult, -⟩ | ⟨-, hresult, -⟩)
  · change -nsEinval = (fd : ℤ) at hresult
    unfold nsEinval at hresult
    omega
  · change -nsEinval = -nsEmfile at hresult
    exact absurd hresult (by decide)

/-- What `ns_vfs_dup` does on an open descriptor. -/
lemma nsVfsDup_eq {oldFd : ℤ} {s' : FdSpace} (hget : s.fdGet oldFd = some (file, s'))
    (minimum : ℤ) :
    (s.nsVfsDup oldFd minimum closeOnExec).1 = (s'.nsVfsFdInstall file minimum closeOnExec).1 ∧
      (s.nsVfsDup oldFd minimum closeOnExec).2.table =
        (s'.nsVfsFdInstall file minimum closeOnExec).2.table := by
  unfold nsVfsDup
  rw [hget]
  exact ⟨rfl, rfl⟩

/-- The file of an open descriptor is in an entry of the table. -/
lemma exists_entry_of_fdGet {table : FdTable} {fd : ℤ} {file : ℕ}
    (h : table.fdGet fd = some file) :
    fd.toNat < table.maximum ∧ ∃ flag, table.entries fd.toNat = some (file, flag) := by
  unfold FdTable.fdGet at h
  split_ifs at h with hrange
  rw [not_or] at hrange
  obtain ⟨⟨file', flag⟩, hentry, rfl⟩ := Option.map_eq_some_iff.1 h
  exact ⟨Nat.lt_of_not_le hrange.2, flag, hentry⟩

/-- The file of an open descriptor is one of the VFS of the table. -/
lemma fdGet_some {oldFd : ℤ} {s' : FdSpace} (hget : s.fdGet oldFd = some (file, s')) :
    s'.table = s.table ∧ (s'.files file).vfs = s'.vfs := by
  obtain ⟨file', hfile, hresult⟩ := Option.map_eq_some_iff.1 hget
  obtain ⟨rfl, rfl⟩ := Prod.mk.inj hresult
  obtain ⟨-, flag, hentry⟩ := exists_entry_of_fdGet hfile
  exact ⟨rfl, (s.fileRetain file').owned oldFd.toNat file' flag hentry⟩

end FdSpace

/-- `ns_vfs_fd_install` and `ns_vfs_dup` install a file in the first free entry from `minimum_fd`
on, or report that there is none, just if `minimum_fd` is not above the end of the table. -/
theorem fd_install_first_free_iff (s : FdSpace) (minimumFd : ℤ) (closeOnExec : Bool)
    (hminimum : 0 ≤ minimumFd) :
    (∀ file, s.table.Installed (s.nsVfsFdInstall file minimumFd closeOnExec).2.table
      file closeOnExec minimumFd.toNat (s.nsVfsFdInstall file minimumFd closeOnExec).1 ↔
      (s.files file).vfs = s.vfs ∧ minimumFd ≤ s.table.maximum) ∧
    (∀ oldFd file s', s.fdGet oldFd = some (file, s') →
      (s.table.Installed (s.nsVfsDup oldFd minimumFd closeOnExec).2.table file closeOnExec
        minimumFd.toNat (s.nsVfsDup oldFd minimumFd closeOnExec).1 ↔
      minimumFd ≤ s.table.maximum)) := by
  obtain ⟨minimum, rfl⟩ := Int.eq_ofNat_of_zero_le hminimum
  rw [Int.toNat_natCast, Int.ofNat_le]
  constructor
  · intro file
    by_cases hvfs : (s.files file).vfs = s.vfs
    · rw [FdSpace.nsVfsFdInstall_installed_iff s file closeOnExec hvfs, and_iff_right hvfs]
    · exact iff_of_false (FdSpace.not_installed_of_vfs_ne s file closeOnExec hvfs)
        fun h => hvfs h.1
  · intro oldFd file s' hget
    obtain ⟨hresult, htable⟩ := FdSpace.nsVfsDup_eq s file closeOnExec hget minimum
    obtain ⟨hsame, hvfs⟩ := FdSpace.fdGet_some s file hget
    rw [hresult, htable, ← hsame]
    exact FdSpace.nsVfsFdInstall_installed_iff s' file closeOnExec hvfs

/-- A table of four entries, of which only the entry 2 is free. -/
def FdSpace.gap : FdSpace :=
  { vfs := 0
    table := { maximum := 4,
               entries := fun fd => if fd = 2 ∨ 4 ≤ fd then none else some (fd, true) }
    files := fun _ => ⟨0, 1⟩
    owned := fun _ _ _ _ => rfl }

/-- The theorem at a table with a gap: a new file, and the file of the entry 3, go to the gap. -/
theorem fd_install_first_free_gap :
    (FdSpace.gap.nsVfsFdInstall 7 1 false).1 = 2 ∧ (FdSpace.gap.nsVfsDup 3 0 false).1 = 2 ∧
      FdSpace.gap.table.Installed (FdSpace.gap.nsVfsFdInstall 7 1 false).2.table 7 false 1
        (FdSpace.gap.nsVfsFdInstall 7 1 false).1 ∧
      FdSpace.gap.table.Installed (FdSpace.gap.nsVfsDup 3 0 false).2.table 3 false 0
        (FdSpace.gap.nsVfsDup 3 0 false).1 := by
  refine ⟨by decide, by decide, ?_, ?_⟩
  · exact ((fd_install_first_free_iff FdSpace.gap 1 false (by decide)).1 7).mpr ⟨rfl, by decide⟩
  · exact ((fd_install_first_free_iff FdSpace.gap 0 false le_rfl).2 3 3 _ rfl).mpr (by decide)

/-- An empty table of one entry. -/
def FdSpace.single : FdSpace :=
  { vfs := 0
    table := { maximum := 1, entries := fun _ => none }
    files := fun _ => ⟨0, 1⟩
    owned := fun _ _ _ _ => rfl }

/-- A file is installed in the entry 2 of a table that has the entry 0 only, and the caller is told
so; the table has a free entry from no index above 0 on. -/
theorem fd_install_beyond_table :
    (FdSpace.single.nsVfsFdInstall 0 2 false).1 = 2 ∧
      (FdSpace.single.nsVfsFdInstall 0 2 false).2.table.entries 2 = some (0, false) ∧
      FdSpace.single.table.maximum = 1 ∧
      ¬FdSpace.single.table.Installed (FdSpace.single.nsVfsFdInstall 0 2 false).2.table 0 false 2
        (FdSpace.single.nsVfsFdInstall 0 2 false).1 := by
  have hresult : (FdSpace.single.nsVfsFdInstall 0 2 false).1 = 2 := by decide
  refine ⟨hresult, by decide, rfl, ?_⟩
  exact FdSpace.not_installed_of_maximum_lt 0 false (by decide)

end Northstar
