import Northstar.Lib.Trace
import Northstar.Vfs.Path
import Northstar.Vfs.RamfsFile

/-! # Reading a directory of the bootstrap filesystem

A model of `ramfs_create`, `ramfs_unlink` and `ramfs_readdir` of `vfs.c` on one directory, and of
`ns_vfs_getdents` on a file that is open on it. The children are a list with the newest at its head,
and the cookie of the open file is a position in that list. Whatever is inserted before the position
moves the entries that were returned back into view, and whatever is removed before it hides the
next one. -/

namespace Northstar

open List

/-- The VFS hands a filesystem the components of canonical paths only. -/
abbrev Component := { c : List UInt8 // Proper c }

/-- `struct ns_abi_dirent`. -/
structure NsDirent where
  inode : ℕ
  recordSize : ℕ
  type : NsFileType
  nameLength : ℕ
  name : List UInt8
  deriving DecidableEq, Repr

/-- `fill_dirent`. -/
def fillDirent (inode : ℕ) (type : NsFileType) (name : List UInt8) : NsDirent where
  inode := inode
  recordSize := 272
  type := type
  nameLength := name.length % 256
  name := name

/-- A `struct ramfs_node` as its directory shows it. -/
structure RamfsChild where
  name : Component
  inode : ℕ
  type : NsFileType
  deriving DecidableEq

/-- A directory with the inode numbers that `.` and `..` show and the counter of the filesystem. -/
structure RamfsDir where
  inode : ℕ
  parentInode : ℕ
  nextInode : ℕ
  children : List RamfsChild
  distinct : (children.map RamfsChild.name).Nodup

namespace RamfsDir

variable (dir : RamfsDir)

/-! ### The code -/

/-- `ramfs_find_locked`. -/
def ramfsFindLocked (name : Component) : Option RamfsChild :=
  dir.children.find? fun child => child.name = name

/-- A name that is not found is none of the children. -/
lemma name_notMem_of_ramfsFindLocked {name : Component} (h : dir.ramfsFindLocked name = none) :
    name ∉ dir.children.map RamfsChild.name := by
  intro hmem
  obtain ⟨child, hchild, rfl⟩ := mem_map.mp hmem
  simpa using find?_eq_none.mp h child hchild

/-- A child that is found has the name. -/
lemma of_ramfsFindLocked {name : Component} {child : RamfsChild}
    (h : dir.ramfsFindLocked name = some child) : child ∈ dir.children ∧ child.name = name := by
  refine ⟨mem_of_find?_eq_some h, ?_⟩
  simpa using find?_some h

/-- `ramfs_create`. The inode number is taken before the name is looked up. -/
def ramfsCreate (name : Component) (type : NsFileType) (allocates : Bool) :
    Except Errno Unit × RamfsDir :=
  if nsVfsNameMax < name.1.length then (.error .einval, dir)
  else if type ≠ .regular ∧ type ≠ .directory ∧ type ≠ .char ∧ type ≠ .block then
    (.error .einval, dir)
  else if allocates = false then (.error .enomem, dir)
  else
    if h : dir.ramfsFindLocked name = none then
      (.ok (), { dir with
        nextInode := dir.nextInode + 1
        children := { name := name, inode := dir.nextInode + 1, type := type } :: dir.children
        distinct := List.nodup_cons.mpr
          ⟨dir.name_notMem_of_ramfsFindLocked h, dir.distinct⟩ })
    else (.error .eexist, { dir with nextInode := dir.nextInode + 1 })

/-- `ramfs_unlink`; `vacant` tells whether a child that is a directory has no children. -/
def ramfsUnlink (name : Component) (removeDirectory vacant : Bool) :
    Except Errno Unit × RamfsDir :=
  match dir.ramfsFindLocked name with
  | none => (.error .enoent, dir)
  | some child =>
    if child.type = .directory ∧ removeDirectory = false then (.error .eisdir, dir)
    else if child.type = .directory ∧ vacant = false then (.error .enotempty, dir)
    else if child.type ≠ .directory ∧ removeDirectory = true then (.error .enotdir, dir)
    else
      (.ok (), { dir with
        children := dir.children.eraseP fun child => child.name = name
        distinct := dir.distinct.sublist (List.eraseP_sublist.map RamfsChild.name) })

/-- `ramfs_readdir`: the entry and the next cookie, or nothing at the end. -/
def ramfsReaddir (cookie : ℕ) : Option (NsDirent × ℕ) :=
  if cookie = 0 then some (fillDirent dir.inode .directory [dot], cookie + 1)
  else if cookie = 1 then some (fillDirent dir.parentInode .directory [dot, dot], cookie + 1)
  else
    match dir.children[cookie - 2]? with
    | none => none
    | some child => some (fillDirent child.inode child.type child.name.1, cookie + 1)

/-- The loop of `ns_vfs_getdents`: the entries that are stored and the cookie that is left. -/
def nsVfsGetdents : ℕ → ℕ → List NsDirent × ℕ
  | 0, cookie => ([], cookie)
  | capacity + 1, cookie =>
    match dir.ramfsReaddir cookie with
    | none => ([], cookie)
    | some (entry, cookie) =>
      let rest := nsVfsGetdents capacity cookie
      (entry :: rest.1, rest.2)

end RamfsDir

/-- A call on the directory or on the file that is open on it. -/
inductive DirEvent where
  | create (name : Component) (type : NsFileType) (allocates : Bool)
  | unlink (name : Component) (removeDirectory vacant : Bool)
  | getdents (capacity : ℕ)

/-- The directory, the cookie of the open file and the entries that were returned so far. -/
structure DirRun where
  dir : RamfsDir
  cookie : ℕ
  returned : List NsDirent

namespace DirRun

/-- The directory is opened. -/
def start (dir : RamfsDir) : DirRun := { dir := dir, cookie := 0, returned := [] }

def step (r : DirRun) : DirEvent → DirRun
  | .create name type allocates => { r with dir := (r.dir.ramfsCreate name type allocates).2 }
  | .unlink name removeDirectory vacant =>
    { r with dir := (r.dir.ramfsUnlink name removeDirectory vacant).2 }
  | .getdents capacity =>
    { r with
      cookie := (r.dir.nsVfsGetdents capacity r.cookie).2
      returned := r.returned ++ (r.dir.nsVfsGetdents capacity r.cookie).1 }

end DirRun

/-! ### Positions in the listing -/

namespace RamfsDir

variable (dir : RamfsDir)

/-- The entries of the directory in the order of their positions. -/
def listing : List NsDirent :=
  fillDirent dir.inode .directory [dot] :: fillDirent dir.parentInode .directory [dot, dot] ::
    dir.children.map fun child => fillDirent child.inode child.type child.name.1

/-- No entry is listed twice. -/
lemma listing_nodup : dir.listing.Nodup := by
  have hname : (dir.listing.map NsDirent.name).Nodup := by
    have hmap : dir.listing.map NsDirent.name =
        [dot] :: [dot, dot] :: (dir.children.map RamfsChild.name).map Subtype.val := by
      rw [listing, map_cons, map_cons, map_map, map_map]
      rfl
    rw [hmap, nodup_cons, nodup_cons]
    refine ⟨?_, ?_, dir.distinct.map Subtype.val_injective⟩
    · intro h
      rcases mem_cons.mp h with h | h
      · cases h
      · obtain ⟨name, -, hname⟩ := mem_map.mp h
        exact name.2.2.2.1 hname
    · intro h
      obtain ⟨name, -, hname⟩ := mem_map.mp h
      exact name.2.2.2.2 hname
  exact hname.of_map

/-- `ramfs_readdir` returns the next entry of the listing. -/
lemma ramfsReaddir_eq (cookie : ℕ) :
    dir.ramfsReaddir cookie = dir.listing[cookie]?.map fun entry => (entry, cookie + 1) := by
  match cookie with
  | 0 => rfl
  | 1 => rfl
  | cookie + 2 =>
    rw [ramfsReaddir, if_neg (by omega), if_neg (by omega), Nat.add_sub_cancel, listing,
      getElem?_cons_succ, getElem?_cons_succ, getElem?_map]
    cases dir.children[cookie]? <;> rfl

/-- A call returns the entries from the cookie on, as many as there are and as it has room for. -/
lemma nsVfsGetdents_eq (capacity cookie : ℕ) :
    dir.nsVfsGetdents capacity cookie =
      ((dir.listing.drop cookie).take capacity,
        cookie + ((dir.listing.drop cookie).take capacity).length) := by
  induction capacity generalizing cookie with
  | zero => simp [nsVfsGetdents]
  | succ capacity ih =>
    rw [nsVfsGetdents, ramfsReaddir_eq]
    cases hentry : dir.listing[cookie]? with
    | none =>
      rw [drop_eq_nil_of_le (getElem?_eq_none_iff.mp hentry)]
      rfl
    | some entry =>
      obtain ⟨hlt, rfl⟩ := List.getElem?_eq_some_iff.mp hentry
      rw [List.drop_eq_getElem_cons hlt, List.take_succ_cons, List.length_cons]
      simp only [Option.map_some]
      rw [ih]
      simp only [Prod.mk.injEq, true_and]
      omega

/-- The positions before the cookie show what they showed, and the cookie is still a position. -/
def Stable (cookie : ℕ) (dir' : RamfsDir) : Prop :=
  dir'.listing.take cookie = dir.listing.take cookie ∧ cookie ≤ dir'.listing.length

/-- A new child is listed behind `.` and `..` only. -/
lemma stable_ramfsCreate {cookie : ℕ} {name : Component} {type : NsFileType} {allocates : Bool}
    (hcookie : cookie ≤ dir.listing.length)
    (h : cookie ≤ 2 ∨ (dir.ramfsCreate name type allocates).1 ≠ .ok ()) :
    dir.Stable cookie (dir.ramfsCreate name type allocates).2 := by
  unfold ramfsCreate at h ⊢
  split_ifs at h ⊢
  · exact ⟨rfl, hcookie⟩
  · exact ⟨rfl, hcookie⟩
  · exact ⟨rfl, hcookie⟩
  · have hfront : cookie ≤ 2 := h.resolve_right fun hne => hne rfl
    refine ⟨?_, hfront.trans ?_⟩
    · match cookie, hfront with
      | 0, _ => rfl
      | 1, _ => rfl
      | 2, _ => rfl
    · simp [listing]
  · exact ⟨rfl, hcookie⟩

/-- Removing an element leaves the positions before it. -/
lemma take_eraseP {α : Type*} {p : α → Bool} {l : List α} {n : ℕ} (h : n ≤ l.findIdx p) :
    (l.eraseP p).take n = l.take n := by
  induction l generalizing n with
  | nil => rfl
  | cons x l ih =>
    rw [findIdx_cons] at h
    cases hx : p x with
    | true =>
      rw [hx] at h
      rw [Nat.le_zero.mp h, take_zero, take_zero]
    | false =>
      rw [hx] at h
      rw [eraseP_cons_of_neg (by simp [hx])]
      cases n with
      | zero => rfl
      | succ n => rw [List.take_succ_cons, List.take_succ_cons, ih (Nat.le_of_succ_le_succ h)]

/-- A child that is removed at a position behind the cookie is one of those to come. -/
lemma stable_ramfsUnlink {cookie : ℕ} {name : Component} {removeDirectory vacant : Bool}
    (hcookie : cookie ≤ dir.listing.length)
    (h : cookie ≤ dir.children.findIdx (fun child => child.name = name) + 2 ∨
      (dir.ramfsUnlink name removeDirectory vacant).1 ≠ .ok ()) :
    dir.Stable cookie (dir.ramfsUnlink name removeDirectory vacant).2 := by
  unfold ramfsUnlink at h ⊢
  cases hfind : dir.ramfsFindLocked name with
  | none => exact ⟨rfl, hcookie⟩
  | some child =>
    rw [hfind] at h
    dsimp only at h ⊢
    split_ifs at h ⊢
    · exact ⟨rfl, hcookie⟩
    · exact ⟨rfl, hcookie⟩
    · exact ⟨rfl, hcookie⟩
    · have hfront := h.resolve_right fun hne => hne rfl
      obtain ⟨hmem, hname⟩ := dir.of_ramfsFindLocked hfind
      match cookie with
      | 0 => exact ⟨rfl, Nat.zero_le _⟩
      | 1 => exact ⟨rfl, by simp [listing]⟩
      | n + 2 =>
        have hpos : decide (child.name = name) = true := decide_eq_true hname
        have hlt : dir.children.findIdx (fun child => child.name = name) < dir.children.length :=
          findIdx_lt_length_of_exists ⟨child, hmem, hpos⟩
        have hlength : (dir.children.eraseP fun child => child.name = name).length =
            dir.children.length - 1 := length_eraseP_of_mem hmem hpos
        have hn : n ≤ dir.children.findIdx fun child => child.name = name := by omega
        refine ⟨?_, ?_⟩
        · simp only [listing, List.take_succ_cons, ← map_take, take_eraseP hn]
        · simp only [listing, List.length_cons, length_map]
          omega

end RamfsDir

namespace DirRun

/-- The entries returned are those at the positions before the cookie. -/
structure Exact (r : DirRun) : Prop where
  cookie_le : r.cookie ≤ r.dir.listing.length
  returned : r.returned = r.dir.listing.take r.cookie

/-- A child is created before the first child has been returned, and one that is removed has not
been returned yet, unless the call fails. -/
def Steady (r : DirRun) : DirEvent → Prop
  | .create name type allocates =>
    r.cookie ≤ 2 ∨ (r.dir.ramfsCreate name type allocates).1 ≠ .ok ()
  | .unlink name removeDirectory vacant =>
    r.cookie ≤ r.dir.children.findIdx (fun child => child.name = name) + 2 ∨
      (r.dir.ramfsUnlink name removeDirectory vacant).1 ≠ .ok ()
  | .getdents _ => True

/-- A change behind the cookie keeps the listing exact. -/
lemma Exact.of_stable {r : DirRun} (h : r.Exact) {dir : RamfsDir}
    (hdir : r.dir.Stable r.cookie dir) : Exact { r with dir := dir } :=
  ⟨hdir.2, h.returned.trans hdir.1.symm⟩

/-- A steady event keeps the listing exact. -/
lemma Exact.step {r : DirRun} (h : r.Exact) {event : DirEvent} (hsteady : r.Steady event) :
    (r.step event).Exact := by
  cases event with
  | create name type allocates =>
    exact h.of_stable (r.dir.stable_ramfsCreate h.cookie_le hsteady)
  | unlink name removeDirectory vacant =>
    exact h.of_stable (r.dir.stable_ramfsUnlink h.cookie_le hsteady)
  | getdents capacity =>
    have hle := h.cookie_le
    rw [DirRun.step, r.dir.nsVfsGetdents_eq]
    refine ⟨?_, ?_⟩
    · dsimp only
      rw [length_take, length_drop]
      omega
    · dsimp only
      rw [h.returned, take_add, append_cancel_left_eq, take_eq_take_iff,
        length_take]
      omega

/-- A directory with the children `b` and `a`, of which `b` is the newer. -/
def couple : RamfsDir where
  inode := 1
  parentInode := 1
  nextInode := 3
  children :=
    [{ name := ⟨[0x62], by decide⟩, inode := 3, type := .regular },
      { name := ⟨[0x61], by decide⟩, inode := 2, type := .regular }]
  distinct := by decide

/-- Every entry that is there throughout is returned just once by the time the end is reached, if
the steps are steady. -/
theorem ramfs_readdir_exactly_once (dir : RamfsDir) (events : List DirEvent)
    (hsteady : AllSteps step Steady (start dir) events)
    (hend : (events.foldl step (start dir)).dir.ramfsReaddir
      (events.foldl step (start dir)).cookie = none)
    (entry : NsDirent)
    (hpresent : Always step (fun r => entry ∈ r.dir.listing) (start dir) events) :
    (events.foldl step (start dir)).returned.count entry = 1 := by
  have hexact : (events.foldl step (start dir)).Exact :=
    hsteady.last Exact (fun _ _ h hc => h.step hc) ⟨Nat.zero_le _, rfl⟩
  have hmem := hpresent.last
  generalize events.foldl step (start dir) = r at hend hexact hmem
  rw [RamfsDir.ramfsReaddir_eq, Option.map_eq_none_iff, getElem?_eq_none_iff] at hend
  rw [hexact.returned, take_of_length_le hend]
  exact count_eq_one_of_mem r.dir.listing_nodup hmem

/-- A directory with two children that changes between two calls. -/
theorem ramfs_readdir_exactly_once_couple :
    ([DirEvent.getdents 2, .create ⟨[0x63], by decide⟩ .regular true,
        .unlink ⟨[0x61], by decide⟩ false true, .getdents 5].foldl step
      (start couple)).returned.count (fillDirent 3 .regular [0x62]) = 1 :=
  ramfs_readdir_exactly_once couple
    [.getdents 2, .create ⟨[0x63], by decide⟩ .regular true,
      .unlink ⟨[0x61], by decide⟩ false true, .getdents 5]
    ⟨trivial, .inl (by decide), .inl (by decide), trivial, trivial⟩ rfl _ (by decide)

/-- The entry of the child `a`. -/
def entryOfA : NsDirent := fillDirent 2 .regular [0x61]

/-- The iteration reaches the end, the entry is there all the time, and it is returned the number of
times. -/
def ReturnsTimes (dir : RamfsDir) (events : List DirEvent) (entry : NsDirent) (times : ℕ) : Prop :=
  (events.foldl step (start dir)).dir.ramfsReaddir (events.foldl step (start dir)).cookie =
      none ∧
    Always step (fun r => entry ∈ r.dir.listing) (start dir) events ∧
    (events.foldl step (start dir)).returned.count entry = times

/-- The child `a` is returned twice if `c` is created after the first time, and not at all if `b` is
removed after it has been returned. -/
theorem ramfs_readdir_repeats_and_skips :
    ReturnsTimes couple
        [.getdents 4, .create ⟨[0x63], by decide⟩ .regular true, .getdents 4] entryOfA 2 ∧
      ReturnsTimes couple
        [.getdents 3, .unlink ⟨[0x62], by decide⟩ false true, .getdents 3] entryOfA 0 := by
  exact ⟨⟨rfl, by decide, rfl⟩, ⟨rfl, by decide, rfl⟩⟩

end DirRun

end Northstar
