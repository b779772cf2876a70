import Northstar.Vfs.OpenFile

/-! # The lifetime of an open file

The calls on descriptor tables in any order. Between calls the reference count of every open file is
the number of entries that point to it, and the close hook has run just if there is none, once. The
counts have 32 bits and nothing bounds the number of tables, so this holds as long as no call brings
the entries of one file to `2 ^ 32`. -/

namespace Northstar

open Function

/-- The calls on descriptor tables. `ns_vfs_open` may fail before it has a file to install, and an
allocation may fail. -/
inductive FdCall
  | create (vfs maximumFds : ℕ) (allocated : Bool)
  | openFile (table : ℕ) (closeOnExec reached : Bool)
  | dup (table : ℕ) (oldFd minimumFd : ℤ) (closeOnExec : Bool)
  | dup2 (table : ℕ) (oldFd newFd : ℤ) (closeOnExec : Bool)
  | close (table : ℕ) (fd : ℤ)
  | clone (table : ℕ) (closeOnExec allocated : Bool)
  | closeCloexec (table : ℕ)
  | destroy (table : ℕ)

namespace OpenFiles

/-- No files and no tables. -/
def start : OpenFiles where
  refs := ⟨0, fun _ => 0, fun _ => 0⟩
  fileVfs := fun _ => 0
  tables := []

/-- One call. -/
def step (w : OpenFiles) (call : FdCall) : OpenFiles :=
  match call with
  | .create vfs maximumFds allocated => w.nsVfsFdtableCreate vfs maximumFds allocated
  | .openFile i closeOnExec reached =>
    match w.table? i with
    | none => w
    | some t => if reached then (w.openInstall i t closeOnExec).2 else w
  | .dup i oldFd minimumFd closeOnExec =>
    match w.table? i with
    | none => w
    | some t => (w.nsVfsDup i t oldFd minimumFd closeOnExec).2
  | .dup2 i oldFd newFd closeOnExec =>
    match w.table? i with
    | none => w
    | some t => (w.nsVfsDup2 i t oldFd newFd closeOnExec).2
  | .close i fd =>
    match w.table? i with
    | none => w
    | some t => (w.nsVfsClose i t fd).2
  | .clone i closeOnExec allocated =>
    match w.table? i with
    | none => w
    | some t => w.nsVfsFdtableClone t closeOnExec allocated
  | .closeCloexec i =>
    match w.table? i with
    | none => w
    | some t => w.nsVfsFdtableCloseCloexec i t
  | .destroy i =>
    match w.table? i with
    | none => w
    | some t => w.nsVfsFdtableDestroy i t

/-- `ns_vfs_dup` is called with a minimum below the size of the table. -/
def WithinTable (w : OpenFiles) : FdCall → Prop
  | .dup i _ minimumFd _ => ∀ t, w.table? i = some t → minimumFd < t.table.maximum
  | _ => True

/-- The call brings the entries of no file to `2 ^ 32`. -/
def RoomFor (w : OpenFiles) : FdCall → Prop
  | .dup i oldFd _ _ | .dup2 i oldFd _ _ => ∀ t file, w.table? i = some t →
    t.table.fdGet oldFd = some file → w.held.count file + 1 < 2 ^ 32
  | .clone i closeOnExec _ => ∀ t x, w.table? i = some t →
    w.held.count x + (inherited t closeOnExec).count x < 2 ^ 32
  | _ => True

/-- The reference count of every open file is the number of entries that point to it, its close hook
has run once if there is none and has not run otherwise, and no entry points to a file whose hook
has run. -/
structure Accounted (w : OpenFiles) : Prop where
  references : ∀ file < w.refs.created, (w.refs.references file).toNat = w.held.count file
  closes : ∀ file < w.refs.created, w.refs.closes file = if w.held.count file = 0 then 1 else 0
  entry : ∀ file ∈ w.held, file < w.refs.created ∧ w.refs.closes file = 0

variable {w : OpenFiles}

/-- Sound open files are accounted for. -/
lemma Sound.accounted (h : w.Sound) : w.Accounted where
  references file hfile := by
    rw [h.balanced.references file hfile, UInt32.toNat_ofNat', Nat.mod_eq_of_lt (h.fits file)]
  closes file hfile := by
    rw [h.balanced.closes file hfile]
    by_cases hmem : file ∈ w.held
    · rw [if_pos hmem, if_neg (Multiset.count_ne_zero.2 hmem)]
    · rw [if_neg hmem, if_pos (Multiset.count_eq_zero.2 hmem)]
  entry file hmem := ⟨h.balanced.lt_created file hmem, h.balanced.closes_eq_zero hmem⟩

/-- At the start the open files are sound. -/
lemma sound_start : start.Sound := ⟨Refs.balanced_zero rfl, fun x => by simp [start, held]⟩

/-- Each call keeps the books. -/
lemma Sound.step (h : w.Sound) {call : FdCall} (hminimum : w.WithinTable call)
    (hroom : w.RoomFor call) : (w.step call).Sound := by
  cases call with
  | create vfs maximumFds allocated => exact nsVfsFdtableCreate_sound h vfs maximumFds allocated
  | openFile i closeOnExec reached =>
    rw [OpenFiles.step]
    cases ht : w.table? i with
    | none => exact h
    | some t =>
      split_ifs
      · exact openInstall_sound h ht
      · exact h
  | dup i oldFd minimumFd closeOnExec =>
    rw [OpenFiles.step]
    cases ht : w.table? i with
    | none => exact h
    | some t =>
      have hlt := hminimum t ht
      exact nsVfsDup_sound h ht (by omega) fun file => hroom t file ht
  | dup2 i oldFd newFd closeOnExec =>
    rw [OpenFiles.step]
    cases ht : w.table? i with
    | none => exact h
    | some t => exact nsVfsDup2_sound h ht fun file => hroom t file ht
  | close i fd =>
    rw [OpenFiles.step]
    cases ht : w.table? i with
    | none => exact h
    | some t => exact nsVfsClose_sound h ht fd
  | clone i closeOnExec allocated =>
    rw [OpenFiles.step]
    cases ht : w.table? i with
    | none => exact h
    | some t => exact nsVfsFdtableClone_sound h ht allocated fun x => hroom t x ht
  | closeCloexec i =>
    rw [OpenFiles.step]
    cases ht : w.table? i with
    | none => exact h
    | some t => exact nsVfsFdtableCloseCloexec_sound h ht
  | destroy i =>
    rw [OpenFiles.step]
    cases ht : w.table? i with
    | none => exact h
    | some t => exact nsVfsFdtableDestroy_sound h ht

/-! ### Tables that are filled with one file -/

/-- A table whose first entries point to the file 0. -/
def filled (maximum k : ℕ) : VfsTable :=
  ⟨0, ⟨maximum, fun fd => if fd < k then some (0, false) else none⟩⟩

variable {maximum k : ℕ}

/-- The search finds the first entry that is not filled. -/
lemma search_filled (hk : k < maximum) : (filled maximum k).table.search maximum 0 = k := by
  obtain ⟨-, hpassed, hfree, hend⟩ :=
    (filled maximum k).table.search_spec maximum 0 (Nat.le_add_left _ _)
  generalize (filled maximum k).table.search maximum 0 = index at hpassed hfree hend ⊢
  have hentry : ∀ fd, (filled maximum k).table.entries fd = none ↔ k ≤ fd := by
    intro fd
    simp [filled]
  have hle : index ≤ k := by
    by_contra hlt
    exact hpassed k (Nat.zero_le k) (Nat.lt_of_not_le hlt) ((hentry k).2 le_rfl)
  exact le_antisymm hle ((hentry index).1 (hfree (lt_of_le_of_lt hle hk)))

lemma setEntry_filled (maximum k : ℕ) :
    ({ filled maximum k with table := (filled maximum k).table.setEntry k (some (0, false)) } :
      VfsTable) = filled maximum (k + 1) := by
  have hentries : update (filled maximum k).table.entries k (some (0, false)) =
      (filled maximum (k + 1)).table.entries := by
    funext fd
    by_cases hfd : fd = k
    · rw [hfd, update_self]
      exact (if_pos (Nat.lt_succ_self k)).symm
    · rw [update_of_ne hfd]
      exact if_congr (by omega) rfl rfl
  exact congrArg (fun entries => (⟨0, ⟨maximum, entries⟩⟩ : VfsTable)) hentries

/-- A duplicate of the first entry goes to the first free one. -/
lemma step_dup_filled (htables : w.tables = [some (filled maximum k)])
    (hvfs : w.fileVfs 0 = 0) (hpos : 0 < k) (hk : k < maximum) :
    (w.step (.dup 0 0 0 false)).tables = [some (filled maximum (k + 1))] ∧
      (w.step (.dup 0 0 0 false)).fileVfs = w.fileVfs := by
  have ht : w.table? 0 = some (filled maximum k) := by
    rw [table?, htables]
    rfl
  have hget : (filled maximum k).table.fdGet 0 = some 0 := by
    have hrange : ¬((0 : ℤ) < 0 ∨ (filled maximum k).table.maximum ≤ (0 : ℤ).toNat) := by
      rintro (hlt | hle)
      · exact absurd hlt (lt_irrefl 0)
      · exact absurd hle (Nat.not_le_of_lt (Nat.zero_lt_of_lt hk))
    rw [FdTable.fdGet, if_neg hrange]
    simp [filled, hpos]
  have hargs : ¬((w.nsVfsFileRetain 0).fileVfs 0 ≠ (filled maximum k).vfs ∨ (0 : ℤ) < 0) := by
    rintro (hne | hlt)
    · exact hne hvfs
    · exact absurd hlt (lt_irrefl 0)
  have hsearch : (filled maximum k).table.search (filled maximum k).table.maximum
    (0 : ℤ).toNat = k :=
    search_filled hk
  rw [step, ht]
  dsimp only
  rw [nsVfsDup, hget]
  dsimp only
  rw [nsVfsFdInstall, if_neg hargs]
  have hfull : ¬k = (filled maximum k).table.maximum := Nat.ne_of_lt hk
  rw [hsearch, if_neg hfull]
  refine ⟨?_, rfl⟩
  show w.tables.set 0 _ = _
  rw [htables, List.set_cons_zero, setEntry_filled]

/-- Calls of `ns_vfs_dup` fill the table. -/
lemma run_dups (n : ℕ) (htables : w.tables = [some (filled maximum k)])
    (hvfs : w.fileVfs 0 = 0) (hpos : 0 < k) (hk : k + n ≤ maximum) :
    AllSteps step WithinTable w (List.replicate n (.dup 0 0 0 false)) ∧
      ((List.replicate n (FdCall.dup 0 0 0 false)).foldl step w).tables =
        [some (filled maximum (k + n))] := by
  induction n generalizing w k with
  | zero => exact ⟨trivial, htables⟩
  | succ n ih =>
    obtain ⟨htables', hvfs'⟩ := step_dup_filled htables hvfs hpos (by omega)
    obtain ⟨hsteps, hend⟩ := ih htables' (hvfs' ▸ hvfs) (Nat.succ_pos k) (by omega)
    rw [List.replicate_succ, List.foldl_cons]
    refine ⟨⟨fun t ht => ?_, hsteps⟩, by rw [hend, Nat.succ_add_eq_add_succ]⟩
    rw [table?, htables] at ht
    obtain rfl : filled maximum k = t := Option.some.inj ht
    show (0 : ℤ) < (maximum : ℤ)
    omega

/-- A copy of a filled table. -/
lemma copied_filled (maximum : ℕ) :
    (filled maximum maximum).table.copied false maximum = (filled maximum maximum).table := by
  have hentries : ((filled maximum maximum).table.copied false maximum).entries =
      (filled maximum maximum).table.entries := by
    funext fd
    by_cases hfd : fd < maximum
    · simp [FdTable.copied, filled, hfd, FdTable.keptEntry]
    · simp [FdTable.copied, filled, hfd]
  exact congrArg (FdTable.mk maximum) hentries

/-- A clone of a full table is another one. -/
lemma run_clones (n m : ℕ)
    (htables : w.tables = List.replicate (m + 1) (some (filled maximum maximum))) :
    AllSteps step WithinTable w (List.replicate n (.clone 0 false true)) ∧
      ((List.replicate n (FdCall.clone 0 false true)).foldl step w).tables =
        List.replicate (m + 1 + n) (some (filled maximum maximum)) := by
  induction n generalizing w m with
  | zero => exact ⟨trivial, htables⟩
  | succ n ih =>
    have ht : w.table? 0 = some (filled maximum maximum) := by
      rw [table?, htables]
      rfl
    have hstep : (w.step (.clone 0 false true)).tables =
        List.replicate (m + 1 + 1) (some (filled maximum maximum)) := by
      obtain ⟨refs, heq, -⟩ := nsVfsFdtableClone_eq w (filled maximum maximum) false
      have hcopy : (⟨(filled maximum maximum).vfs, (filled maximum maximum).table.copied false
          (filled maximum maximum).table.maximum⟩ : VfsTable) = filled maximum maximum :=
        congrArg (VfsTable.mk 0) (copied_filled maximum)
      rw [step, ht]
      dsimp only
      rw [heq, hcopy]
      show w.tables ++ _ = _
      rw [htables, ← List.replicate_succ']
    obtain ⟨hsteps, hend⟩ := ih (m + 1) hstep
    rw [List.replicate_succ, List.foldl_cons]
    exact ⟨⟨trivial, hsteps⟩, by rw [hend, Nat.succ_add_eq_add_succ]⟩

/-- The entries of a full table. -/
lemma held_filled (maximum : ℕ) :
    (filled maximum maximum).table.held = Multiset.replicate maximum 0 := by
  have hconst : (filled maximum maximum).table.held =
      (Multiset.range maximum).filterMap fun _ => some 0 := by
    refine filterMap_entries_congr (g := fun _ => some (0, false)) fun fd hfd => ?_
    exact if_pos (Multiset.mem_range.1 hfd)
  rw [hconst]
  refine (congrFun (Multiset.filterMap_eq_map fun _ : ℕ => 0) (Multiset.range maximum)).trans ?_
  rw [Multiset.map_const', Multiset.card_range]

/-- Filled tables hold the file as often as they have entries. -/
lemma count_held_of_filled {n : ℕ}
    (htables : w.tables = List.replicate n (some (filled maximum maximum))) :
    w.held.count 0 = n * maximum := by
  have hone : (heldIn (some (filled maximum maximum))).count 0 = maximum := by
    show (filled maximum maximum).table.held.count 0 = maximum
    rw [held_filled, Multiset.count_replicate_self]
  rw [held, htables, List.map_replicate, List.sum_replicate, Multiset.count_nsmul, hone]

/-- A table is created, and a file is opened in it. -/
lemma run_openFile (hpos : 0 < maximum) (hle : maximum ≤ 65536) :
    ((start.step (.create 0 maximum true)).step (.openFile 0 false true)).tables =
        [some (filled maximum 1)] ∧
      ((start.step (.create 0 maximum true)).step (.openFile 0 false true)).fileVfs 0 = 0 := by
  have hargs : ¬(maximum = 0 ∨ 65536 < maximum ∨ true = false) := by
    rintro (h | h | h)
    · omega
    · omega
    · cases h
  have hempty : (⟨0, ⟨maximum, fun _ => none⟩⟩ : VfsTable) = filled maximum 0 := by
    simp [filled]
  have hcreated : start.step (.create 0 maximum true) =
      { start with tables := [some (filled maximum 0)] } := by
    rw [step, nsVfsFdtableCreate, if_neg hargs, hempty]
    rfl
  have hsearch : (filled maximum 0).table.search (filled maximum 0).table.maximum
    (0 : ℤ).toNat = 0 :=
    search_filled hpos
  have hfull : ¬0 = (filled maximum 0).table.maximum := Nat.ne_of_lt hpos
  rw [hcreated]
  show ((openInstall { start with tables := [some (filled maximum 0)] } 0 (filled maximum 0)
      false).2).tables = _ ∧
    ((openInstall { start with tables := [some (filled maximum 0)] } 0 (filled maximum 0)
      false).2).fileVfs 0 = 0
  unfold openInstall nsVfsFdInstall
  dsimp only
  rw [if_neg (by simp [start]), hsearch, if_neg hfull]
  refine ⟨congrArg (fun t => [some t]) (setEntry_filled maximum 0), ?_⟩
  exact update_self (f := start.fileVfs) 0 0

/-- A file is opened in a table and duplicated until the table is full, and the table is cloned. -/
lemma exists_filled_run {n : ℕ} (hle : n + 1 ≤ 65536) (clones : ℕ) :
    ∃ calls : List FdCall, AllSteps step WithinTable start calls ∧
      (calls.foldl step start).held.count 0 = (clones + 1) * (n + 1) := by
  obtain ⟨htables, hvfs⟩ := run_openFile (Nat.succ_pos n) hle
  obtain ⟨hdups, htables'⟩ := run_dups n htables hvfs Nat.one_pos (Nat.add_comm 1 n).le
  rw [Nat.add_comm 1 n] at htables'
  obtain ⟨hclones, hend⟩ := run_clones clones 0 htables'
  refine ⟨.create 0 (n + 1) true :: .openFile 0 false true ::
    (List.replicate n (.dup 0 0 0 false) ++ List.replicate clones (.clone 0 false true)),
    ⟨trivial, trivial, allSteps_append.2 ⟨hdups, hclones⟩⟩, ?_⟩
  rw [List.foldl_cons, List.foldl_cons, List.foldl_append]
  rw [count_held_of_filled hend, Nat.zero_add, Nat.add_comm 1 clones]

/-- In every run whose calls meet the conditions every open file is accounted for in every state. -/
theorem open_files_accounted (calls : List FdCall)
    (hcalls : AllSteps step (fun w call => w.WithinTable call ∧ w.RoomFor call) start calls) :
    Always step Accounted start calls :=
  hcalls.always Sound (fun _ h => h.accounted) (fun _ _ h hcall => h.step hcall.1 hcall.2)
    sound_start

/-- A file is opened and duplicated, and its table is destroyed. -/
theorem open_files_accounted_destroy :
    Always step Accounted start [.create 0 4 true, .openFile 0 false true, .dup 0 0 2 true,
      .destroy 0] := by
  refine open_files_accounted _ ⟨⟨trivial, trivial⟩, ⟨trivial, trivial⟩,
    ⟨fun t ht => ?_, fun t file ht hget => ?_⟩, ⟨trivial, trivial⟩, trivial⟩
  · obtain rfl := Option.some.inj ht
    decide
  · have hcard : ((start.step (.create 0 4 true)).step (.openFile 0 false true)).held.card = 1 :=
      rfl
    have hle := Multiset.count_le_card file
      ((start.step (.create 0 4 true)).step (.openFile 0 false true)).held
    omega

/-- A file is opened in a table of 65536 entries, duplicated until the table is full, and the table
is cloned 65535 times. The count of 32 bits is back at zero. -/
theorem open_files_overflow :
    ∃ calls : List FdCall, AllSteps step WithinTable start calls ∧
      (calls.foldl step start).held.count 0 = 2 ^ 32 ∧ ¬(calls.foldl step start).Accounted := by
  obtain ⟨calls, hcalls, hcount⟩ := exists_filled_run (n := 65535) le_rfl 65535
  have hcount' : (calls.foldl step start).held.count 0 = 2 ^ 32 := hcount
  refine ⟨calls, hcalls, hcount', fun haccounted => ?_⟩
  have hmem : 0 ∈ (calls.foldl step start).held := by
    rw [← Multiset.count_pos, hcount']
    norm_num
  have hreferences := haccounted.references 0 (haccounted.entry 0 hmem).1
  rw [hcount'] at hreferences
  exact absurd (UInt32.toNat_lt _) (by rw [hreferences]; norm_num)

end OpenFiles

end Northstar
