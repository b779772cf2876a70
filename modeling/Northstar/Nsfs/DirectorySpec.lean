import Northstar.Nsfs.Dirents
import Northstar.Nsfs.InodeSpec

/-! # What the directory functions do

`IsDir n c i R`: in the contents `c`, inode `i` is a directory, and the records of its `k`-th block
are `R[k]`. The reading functions are stated once for both ways of reading, through the transaction
and from the device (`Reads`); the changing ones, which always run in a transaction, with `Holds`.
-/

namespace Northstar

open Function List

/-- All entries of a directory. -/
def allEntries (R : List (List Rec)) : List DirEntry := R.flatMap entriesOf

/-- Inode `i` is a directory with the records `R`. -/
structure IsDir (n : ℕ) (c : Content) (i : ℕ) (R : List (List Rec)) : Prop where
  live : c.live i = true
  type : (c.attr i).type = nsfsInodeDirectory
  size : (c.attr i).size = 4096 * R.length
  nonempty : R ≠ []
  bound : R.length ≤ 1036
  blocks : ∀ k rs, R[k]? = some rs → ∃ block, c.blk i k = some block ∧ Fills n block rs

/-- Blocks are read through the transaction or from the device, and either way they are the ones
of the volume `v`. -/
structure Reads (inTx : Bool) (env : Env) (l : Layout) (v : Vol) (s : St) : Prop where
  ready : Ready env l s
  active : inTx = true → Active env l s
  data : ∀ b, l.dataStart ≤ b → b < l.totalBlocks →
    (if inTx then view s b else s.device.current b) = v.data b

variable {U D : Set ℕ} {s s' : St} {env : Env} {l : Layout} {v : Vol} {fb i k : ℕ} {inTx : Bool}
  {R : List (List Rec)} {name : Name} {I : ℕ → DiskInode} {c : Content}

/-- Blocks are read the same after looking things up. -/
lemma Reads.of_looks (h : Reads inTx env l v s) (hk : Looks U s s') : Reads inTx env l v s' where
  ready := hk.frame.ready h.ready
  active := fun hin => hk.frame.active env l (h.active hin)
  data := fun b h1 h2 => by
    rw [hk.loads.view, hk.loads.device]
    exact h.data b h1 h2

/-- Inside a transaction blocks are read through it. -/
lemma Holds.reads (h : Holds env l D I c s) : Reads true env l (cur l I s) s where
  ready := h.ready
  active := fun _ => h.active
  data := fun _ h1 h2 => view_eq_data ⟨h1, h2⟩ s

/-! ### Reading -/

/-- The pointer to a block of a directory. -/
lemma directoryBlock_looks (U : Set ℕ) (h : Reads inTx env l v s) (hm : v.Mapped l fb)
    (hi : v.Live l i) (hk : k < 1036) (h0 : v.ptr i k ≠ 0) :
    Runs (Looks U) (directoryBlock inTx (v.inode i) k) s (fun p _ => p = v.ptr i k)
      (Excuse env l) := by
  have hdata := h.data
  have hactive := h.active
  refine .bind (P := fun p _ => p = v.ptr i k) ?_ ?_
  · cases inTx with
    | true =>
      refine .bind (nsfsTxInodeDataBlock_looks U (hactive rfl) (by simpa using hdata) hm hi
        hk true) ?_
      rintro ⟨r, p⟩ s1 - hx
      exact .pure (Prod.mk.inj hx).2
    | false =>
      exact (nsfsInodeDataBlock_looks U h.ready (by simpa using hdata) hm hi hk).imp
        fun p s1 _ hp => hp.1
  · rintro p s1 - rfl
    exact .require_pos h0 (Runs.pure rfl)

/-- The image of a block of a directory. -/
lemma directoryImage_looks (U : Set ℕ) (h : Reads inTx env l v s) {p : ℕ}
    (hp : l.dataStart ≤ p ∧ p < l.totalBlocks) :
    Runs (Looks U) (directoryImage inTx p) s
      (fun x s' => x = v.data p ∧ (inTx = true → Loaded s' p)) (Excuse env l) := by
  have hr := h.ready.layout.regions
  have hdata := h.data p hp.1 hp.2
  have hactive := h.active
  cases inTx with
  | true =>
    refine (nsfsTxImage_looks U (hactive rfl) ⟨by omega, hp.2⟩).imp ?_
    rintro x s1 - ⟨rfl, -, hload⟩
    exact ⟨by simpa using hdata, fun _ => hload⟩
  | false =>
    refine (nsfsReadBlock_looks U h.ready hp.2 _).imp ?_
    rintro x s1 - ⟨rfl, rfl⟩
    exact ⟨by simpa using hdata, by simp⟩

/-- The test of a lookup on records. -/
def Rec.hasName (name : Name) (r : Rec) : Bool := r.inode ≠ 0 ∧ r.name = name

variable {n : ℕ} {block : Block} {r : Rec} {rs rs' : List Rec} {e : DirEntry} {p : Rec → Bool}
  {l₁ l₂ : List DirEntry}

/-- The comparison of names is that of the records. -/
lemma nameMatches_of_recAt {off : ℕ} (h : RecAt n block off r) :
    nameMatches block name off (block.slice off) = r.hasName name := by
  unfold nameMatches Rec.hasName
  rw [h.slice_inode, h.slice_nameLen, h.direntName]
  refine decide_eq_decide.mpr ⟨fun hx => ⟨hx.1, hx.2.2⟩, fun hx => ⟨hx.1, ?_, hx.2⟩⟩
  rw [hx.2]

/-- A record with the name is an entry. -/
lemma Rec.hasName_entry (h : r.hasName name = true) :
    r.entry = some ⟨r.inode, r.type, name⟩ := by
  obtain ⟨h0, rfl⟩ := of_decide_eq_true h
  simp [Rec.entry, h0]

/-- What holds of the records in use holds of the entries. -/
lemma forall_entriesOf {P : DirEntry → Prop}
    (h : ∀ r ∈ rs, r.inode ≠ 0 → P ⟨r.inode, r.type, r.name⟩) : ∀ e ∈ entriesOf rs, P e := by
  intro e he
  obtain ⟨r, hr, hre⟩ := mem_filterMap.mp he
  unfold Rec.entry at hre
  split_ifs at hre with h0
  cases hre
  exact h r hr h0

/-- No record with the name means no entry with the name. -/
lemma entriesOf_name_ne (h : ∀ r ∈ rs, r.hasName name = false) :
    ∀ e ∈ entriesOf rs, e.name ≠ name :=
  forall_entriesOf fun r hr h0 hname => of_decide_eq_false (h r hr) ⟨h0, hname⟩

namespace IsDir

variable {n : ℕ}

/-- The block of a list of records. -/
lemma ptr (h : IsDir n (v.content l) i R) (hi : v.Live l i) {rs : List Rec} (hk : R[k]? = some rs) :
    k < 1036 ∧ v.ptr i k ≠ 0 ∧ Fills n (v.data (v.ptr i k)) rs := by
  have hbound := h.bound
  have hlt : k < R.length := (List.getElem?_eq_some_iff.mp hk).1
  obtain ⟨block, hblk, hfills⟩ := h.blocks k rs hk
  rw [Vol.content_blk hi (by omega)] at hblk
  have h0 : v.ptr i k ≠ 0 := fun h0 => by
    rw [Vol.blk_eq_none.mpr h0] at hblk
    exact absurd hblk (by simp)
  rw [Vol.blk_of_ptr h0, Option.some.injEq] at hblk
  exact ⟨by omega, h0, hblk ▸ hfills⟩

/-- The record of a directory has the size of its blocks. -/
lemma inode_size (h : IsDir n (v.content l) i R) (hi : v.Live l i) :
    (v.inode i).type = nsfsInodeDirectory ∧ (v.inode i).size = 4096 * R.length := by
  have htype := h.type
  have hsize := h.size
  rw [Vol.content_attr hi] at htype hsize
  exact ⟨(DiskInode.le_attrs _ (by omega)).symm.trans htype,
    (DiskInode.le_attrs _ (by omega)).symm.trans hsize⟩

end IsDir

section Scan

variable {X : St → St → Prop} [IsTrans St X] {β : Type} {test : Block → ℕ → Dirent → Bool}
  {Q : β → St → Prop} {E : Errno → Prop} (hX : ∀ s s', Looks U s s' → X s s')
  (h : Reads inTx env l v s) (hm : v.Mapped l fb) (hi : v.Live l i)
  (hdir : IsDir l.inodeCount (v.content l) i R)
  (htest : ∀ block off r, RecAt l.inodeCount block off r → test block off (block.slice off) = p r)
  (hE : ∀ e, Excuse env l e → E e)
include hX h hm hi hdir htest hE

/-- One round of the loops over directory blocks: read the block, scan it and go on with the record
found. The round itself only looks; what follows may keep less, `X`. -/
lemma scanDirectory_runs {f : ℕ → Block → Option Found → NsM β} (hk : R[k]? = some rs)
    (hnone : ∀ s1, Looks U s s1 → (∀ r ∈ rs, p r = false) →
      Runs X (f (v.ptr i k) (v.data (v.ptr i k)) none) s1 Q E)
    (hsome : ∀ s1 found pre r post, Looks U s s1 → (inTx = true → Loaded s1 (v.ptr i k)) →
      Hit l.inodeCount (v.data (v.ptr i k)) 0 rs p none found pre r post →
      Runs X (f (v.ptr i k) (v.data (v.ptr i k)) (some found)) s1 Q E) :
    Runs X (do
      let physical ← directoryBlock inTx (v.inode i) k
      let block ← directoryImage inTx physical
      let s ← get
      let found ← liftExcept (scanBlock s.fs.superblock.totalInodes block (test block))
      f physical block found) s Q E := by
  obtain ⟨hk', h0, hfills⟩ := hdir.ptr hi hk
  have harea := hm.area hi (by omega) h0
  refine .bind (((directoryBlock_looks U h hm hi hk' h0).weaken hE).strengthen hX) ?_
  rintro physical s1 - ⟨rfl, hk1⟩
  refine .bind (((directoryImage_looks U (h.of_looks hk1) ⟨harea.1, harea.2.1⟩).weaken
    hE).strengthen hX) ?_
  rintro block s2 - ⟨⟨rfl, hload2⟩, hk2⟩
  have hk12 : Looks U s s2 := IsTrans.trans _ _ _ hk1 hk2
  refine .get_bind ?_
  rw [(hk12.frame.ready h.ready).describes.totalInodes]
  rcases scanBlock_of_fills (htest _) hfills with ⟨hall, hscan⟩ | ⟨found, pre, r, post, hscan, hit⟩
  · exact .liftExcept_bind hscan (hnone s2 hk12 hall)
  · exact .liftExcept_bind hscan (hsome s2 found pre r post hk12 hload2 hit)

/-- The loops over directory blocks go on until a record passes the test. -/
lemma scanBlocks_runs {loop : ℕ → ℕ → NsM β} {f : ℕ → ℕ → ℕ → Block → Option Found → NsM β}
    (hloop : ∀ remaining k, loop (remaining + 1) k = do
      let physical ← directoryBlock inTx (v.inode i) k
      let block ← directoryImage inTx physical
      let s ← get
      let found ← liftExcept (scanBlock s.fs.superblock.totalInodes block (test block))
      f remaining k physical block found)
    (hnext : ∀ remaining k physical block,
      f remaining k physical block none = loop remaining (k + 1))
    (hend : ∀ k s1, Looks U s s1 → (∀ rs ∈ R, ∀ r ∈ rs, p r = false) → Runs X (loop 0 k) s1 Q E)
    (hsome : ∀ remaining k rs s1 found pre r post, R[k]? = some rs → Looks U s s1 →
      (inTx = true → Loaded s1 (v.ptr i k)) →
      Hit l.inodeCount (v.data (v.ptr i k)) 0 rs p none found pre r post →
      Runs X (f remaining k (v.ptr i k) (v.data (v.ptr i k)) (some found)) s1 Q E) :
    Runs X (loop R.length 0) s Q E := by
  have hrun : ∀ remaining k s1, Looks U s s1 → k + remaining = R.length →
      (∀ rs ∈ R.take k, ∀ r ∈ rs, p r = false) → Runs X (loop remaining k) s1 Q E := by
    intro remaining
    induction remaining with
    | zero =>
      intro k s1 hk1 hk hbefore
      rw [take_of_length_le (by omega)] at hbefore
      exact hend k s1 hk1 hbefore
    | succ remaining ih =>
      intro k s1 hk1 hk hbefore
      have hget : R[k]? = some R[k] := getElem?_eq_getElem (by omega)
      rw [hloop]
      refine scanDirectory_runs hX (h.of_looks hk1) hm hi hdir htest hE hget ?_ ?_
      · intro s2 hk2 hnone
        rw [hnext]
        refine ih (k + 1) s2 (IsTrans.trans _ _ _ hk1 hk2) (by omega) ?_
        rw [take_add_one, hget]
        exact forall_mem_append.mpr ⟨hbefore, forall_mem_singleton.mpr hnone⟩
      · intro s2 found pre r post hk2
        exact hsome remaining k _ s2 found pre r post hget (IsTrans.trans _ _ _ hk1 hk2)
  exact hrun R.length 0 s (Looks.refl U s) (by omega) (by simp)

end Scan

/-- The errors of a lookup. -/
def LookupExcuse (env : Env) (l : Layout) (R : List (List Rec)) (name : Name) (e : Errno) : Prop :=
  Excuse env l e ∨ (e = .enoent ∧ ∀ x ∈ allEntries R, x.name ≠ name)

/-- The entry of the record that was found. -/
lemma Hit.entry_mem {pre post : List Rec} {previous : Option ℕ} {found : Found}
    (hit : Hit n block 0 rs p previous found pre r post) (hget : R[k]? = some rs)
    (he : r.entry = some e) : e ∈ allEntries R := by
  refine mem_flatMap.mpr ⟨rs, mem_of_getElem? hget, ?_⟩
  rw [hit.entries, he]
  simp

/-- `nsfs_directory_lookup_loaded` finds an entry with the name, if there is one. -/
lemma nsfsDirectoryLookupLoaded_looks (U : Set ℕ) (h : Reads inTx env l v s) (hm : v.Mapped l fb)
    (hi : v.Live l i) (hdir : IsDir l.inodeCount (v.content l) i R) (name : Name) :
    Runs (Looks U) (nsfsDirectoryLookupLoaded inTx (v.inode i) name) s
      (fun x _ => ∃ e ∈ allEntries R, e.name = name ∧ x = (e.inode, e.type))
      (LookupExcuse env l R name) := by
  obtain ⟨htype, hsize⟩ := hdir.inode_size hi
  have hbound := hdir.bound
  have hpos : 0 < R.length := length_pos_iff.mpr hdir.nonempty
  unfold nsfsDirectoryLookupLoaded
  rw [htype, hsize]
  refine .require_pos rfl (Runs.require_pos ⟨by omega, by omega, by omega⟩ ?_)
  refine .bind ((nsfsAllocate_looks U h.ready).weaken fun _ he => Or.inl he) ?_
  rintro - s1 hk1 -
  rw [Nat.mul_div_cancel_left _ (by norm_num)]
  refine scanBlocks_runs (fun _ _ hl => hl) (h.of_looks hk1) hm hi hdir
    (fun _ _ _ => nameMatches_of_recAt) (fun _ he => Or.inl he) (fun _ _ => rfl)
    (fun _ _ _ _ => rfl) ?_ ?_
  · intro k s2 _ hnone
    exact .throw (Or.inr ⟨rfl, forall_mem_flatMap.mpr fun rs hrs =>
      entriesOf_name_ne (hnone rs hrs)⟩)
  · intro _ k rs s2 found pre r post hget _ _ hit
    refine .pure ⟨_, hit.entry_mem hget (Rec.hasName_entry hit.passed), rfl, ?_⟩
    rw [hit.entry, hit.at_.slice_inode, hit.at_.slice_type]

/-- The status of a lookup that is looked at by the caller. -/
lemma observe_lookup_looks (U : Set ℕ) (h : Reads inTx env l v s) (hm : v.Mapped l fb)
    (hi : v.Live l i) (hdir : IsDir l.inodeCount (v.content l) i R) (name : Name)
    (E : Errno → Prop) :
    Runs (Looks U) (observe (nsfsDirectoryLookupLoaded inTx (v.inode i) name)) s
      (fun present _ => (∃ x ∈ allEntries R, x.name = name ∧ present = .ok (x.inode, x.type)) ∨
        ∃ e, present = .error e ∧ LookupExcuse env l R name e) E := by
  refine (nsfsDirectoryLookupLoaded_looks U h hm hi hdir name).observe ?_ ?_
  · rintro - s1 - ⟨x, hx, hname, rfl⟩
    exact .inl ⟨x, hx, hname, rfl⟩
  · exact fun e s1 _ he => Or.inr ⟨e, rfl, he⟩

/-- A lookup that stops with `ENOENT` has not found the name. -/
lemma LookupExcuse.absent {e : Errno} (h : LookupExcuse env l R name e) (he : e = .enoent) :
    ∀ x ∈ allEntries R, x.name ≠ name := by
  subst he
  rcases h with (⟨h1, -⟩ | ⟨h1, -⟩ | h1) | h
  · exact absurd h1 (by simp)
  · exact absurd h1 (by simp)
  · exact absurd h1 (by simp)
  · exact h.2

/-- The test of `nsfs_directory_empty` on records. -/
def Rec.isOther (r : Rec) : Bool := r.inode ≠ 0 ∧ r.name ≠ dotName ∧ r.name ≠ dotdotName

/-- The test for other entries is that of the records. -/
lemma otherEntry_of_recAt {off : ℕ} (h : RecAt n block off r) :
    otherEntry block off (block.slice off) = r.isOther := by
  unfold otherEntry Rec.isOther
  rw [h.slice_inode, h.slice_nameLen, h.direntName]

/-- `nsfs_directory_empty` tells whether there are other entries than `.` and `..`. -/
lemma nsfsDirectoryEmpty_looks (U : Set ℕ) (h : Reads true env l v s) (hm : v.Mapped l fb)
    (hi : v.Live l i) (hdir : IsDir l.inodeCount (v.content l) i R) :
    Runs (Looks U) (nsfsDirectoryEmpty (v.inode i)) s
      (fun x _ => x = true ↔ ∀ e ∈ allEntries R, e.name = dotName ∨ e.name = dotdotName)
      (Excuse env l) := by
  unfold nsfsDirectoryEmpty
  rw [(hdir.inode_size hi).2, Nat.mul_div_cancel_left _ (by norm_num)]
  refine scanBlocks_runs (fun _ _ hl => hl) h hm hi hdir (fun _ _ _ => otherEntry_of_recAt)
    (fun _ he => he) (fun _ _ => rfl) (fun _ _ _ _ => rfl) ?_ ?_
  · intro k s1 _ hnone
    refine .pure ⟨fun _ => forall_mem_flatMap.mpr fun rs hrs =>
      forall_entriesOf fun r hr h0 => ?_, fun _ => rfl⟩
    have hother := of_decide_eq_false (hnone rs hrs r hr)
    tauto
  · intro _ k rs s1 found pre r post hget _ _ hit
    refine .pure ⟨fun hx => absurd hx (by simp), fun hall => ?_⟩
    have hpassed := of_decide_eq_true hit.passed
    have hentry : r.entry = some ⟨r.inode, r.type, r.name⟩ := by simp [Rec.entry, hpassed.1]
    have := hall _ (hit.entry_mem hget hentry)
    tauto

/-! ### Changing -/

/-- The first block of a directory has the `..` entry. -/
def Rooted (R : List (List Rec)) : Prop := ∃ x ∈ entriesOf (R.headD []), x.name = dotdotName

/-- From the contents `c` to `c'` only directory `i` has changed, in its blocks and its size. -/
structure DirEdit (n : ℕ) (c c' : Content) (i : ℕ) (R' : List (List Rec)) : Prop where
  dir : IsDir n c' i R'
  live : c'.live = c.live
  attr : ∀ j, j ≠ i → c'.attr j = c.attr j
  size : c'.attr i = (c.attr i).setSize (4096 * R'.length)
  blk : ∀ j, j ≠ i → c'.blk j = c.blk j

/-- A new image of one directory block. -/
lemma IsDir.set_block (h : IsDir n c i R) (hk : R[k]? = some rs) (hfills : Fills n block rs') :
    DirEdit n c (c.set i k (some block)) i (R.set k rs') := by
  have hlt : k < R.length := (List.getElem?_eq_some_iff.mp hk).1
  have hsize : (c.attr i).setSize (4096 * (R.set k rs').length) = c.attr i := by
    rw [List.length_set, ← h.size]
    exact Bytes.putLe_le_self _ _ _
  refine ⟨⟨h.live, h.type, ?_, ?_, ?_, ?_⟩, rfl, fun _ _ => rfl, hsize.symm, fun j hj => ?_⟩
  · rw [List.length_set]
    exact h.size
  · intro he
    rw [set_eq_nil_iff] at he
    exact h.nonempty he
  · rw [List.length_set]
    exact h.bound
  · intro m x hm
    rw [Content.set_blk]
    by_cases hmk : m = k
    · subst hmk
      rw [getElem?_set_self hlt] at hm
      cases hm
      exact ⟨block, by simp, hfills⟩
    · rw [getElem?_set_ne (Ne.symm hmk)] at hm
      rw [if_neg fun he => hmk he.2]
      exact h.blocks m x hm
  · funext m
    rw [Content.set_blk, if_neg fun he => hj he.1]

/-- The entries after a change of one block. -/
lemma allEntries_set (rs' : List Rec) (hk : R[k]? = some rs) :
    ∃ l₁ l₂, allEntries R = l₁ ++ (entriesOf rs ++ l₂) ∧
      allEntries (R.set k rs') = l₁ ++ (entriesOf rs' ++ l₂) := by
  obtain ⟨hlt, hrs⟩ := List.getElem?_eq_some_iff.mp hk
  refine ⟨allEntries (R.take k), allEntries (R.drop (k + 1)), ?_, ?_⟩
  · have hsplit : R = R.take k ++ rs :: R.drop (k + 1) := by
      rw [← hrs, ← List.drop_eq_getElem_cons hlt, List.take_append_drop]
    conv_lhs => rw [hsplit]
    simp [allEntries]
  · rw [set_eq_take_append_cons_drop, if_pos hlt]
    simp [allEntries]

/-- One entry more in one block. -/
lemma allEntries_insert
    (hk : R[k]? = some rs) (hrs : entriesOf rs = l₁ ++ l₂) (hrs' : entriesOf rs' = l₁ ++ e :: l₂) :
    (allEntries (R.set k rs')).Perm (e :: allEntries R) := by
  obtain ⟨m1, m2, hR, hR'⟩ := allEntries_set rs' hk
  have hmid : ((m1 ++ l₁) ++ e :: (l₂ ++ m2)).Perm (e :: ((m1 ++ l₁) ++ (l₂ ++ m2))) :=
    perm_middle
  rw [hR, hR', hrs, hrs']
  simpa using hmid

/-- One entry less in one block. -/
lemma allEntries_erase
    (hk : R[k]? = some rs) (hrs : entriesOf rs = l₁ ++ e :: l₂) (hrs' : entriesOf rs' = l₁ ++ l₂) :
    (allEntries R).Perm (e :: allEntries (R.set k rs')) := by
  obtain ⟨hlt, hget⟩ := List.getElem?_eq_some_iff.1 hk
  have hback := allEntries_insert (R := R.set k rs') (k := k) (by simp [hlt]) hrs' hrs
  rwa [set_set, ← hget, set_getElem_self] at hback

/-- The first block keeps its `..` entry. -/
lemma Rooted.set (h : Rooted R) (hk : R[k]? = some rs)
    (hsub : ∀ x ∈ entriesOf rs, x.name = dotdotName → ∃ y ∈ entriesOf rs', y.name = dotdotName) :
    Rooted (R.set k rs') := by
  obtain ⟨x, hx, hname⟩ := h
  cases R with
  | nil => simp at hk
  | cons r R =>
    cases k with
    | zero =>
      cases hk
      exact hsub x hx hname
    | succ k => exact ⟨x, hx, hname⟩

/-- A store to a directory block that the transaction has loaded. -/
lemma txStore_directory (hl : Looks U s s')
    (h : Holds env l D I c s) (hdir : IsDir l.inodeCount c i R) (hk : R[k]? = some rs)
    (hload : Loaded s' ((cur l I s).ptr i k)) (hfills : Fills l.inodeCount block rs')
    (E : Errno → Prop) :
    Runs (Frame U) (txStore ((cur l I s).ptr i k) block) s'
      (fun _ s' => Holds env l D I (c.set i k (some block)) s' ∧
        DirEdit l.inodeCount c (c.set i k (some block)) i (R.set k rs')) E := by
  have hcur : cur l I s' = cur l I s := by rw [cur, hl.loads.vol l]
  replace h := h.of_loads hl.frame hl.loads
  rw [← hcur] at hload ⊢
  have hlive := h.live_iff.mp hdir.live
  have hdir' := hdir
  rw [← h.content] at hdir'
  obtain ⟨hk', h0, -⟩ := hdir'.ptr hlive hk
  refine (txStore_runs U hload block E).imp ?_
  rintro - s2 hf ⟨hv, hsb, -, -⟩
  exact ⟨(h.store hf hdir.live hk' h0 hv hsb).1, hdir.set_block hk hfills⟩

/-- Inode numbers have 32 bits. -/
lemma Ready.inodeCount_lt (h : Ready env l s) : l.inodeCount < 256 ^ 4 := by
  have htotal : s.fs.superblock.totalInodes < 256 ^ 4 := Bytes.le_lt _ _ _
  rwa [h.describes.totalInodes] at htotal

lemma Ready.inodeCount_le (h : Ready env l s) : l.inodeCount ≤ 256 ^ 4 := h.inodeCount_lt.le

/-- What an operation that changes one directory leaves behind: the contents `c'` with the records
`R'` of the directory satisfy `P`. -/
def Changed (env : Env) (l : Layout) (D : Set ℕ) (I : ℕ → DiskInode) (c : Content) (i : ℕ)
    (P : List (List Rec) → Prop) (s : St) : Prop :=
  ∃ c' R', Holds env l D I c' s ∧ DirEdit l.inodeCount c c' i R' ∧ P R'

/-- One entry was added. -/
def Added (e : DirEntry) (R R' : List (List Rec)) : Prop :=
  (allEntries R').Perm (e :: allEntries R) ∧ (Rooted R → Rooted R')

/-- No record of these blocks has room for an entry with this name. -/
def Packed (name : Name) (R : List (List Rec)) : Prop :=
  ∀ rs ∈ R, ∀ r ∈ rs, r.room < nsfsAlign4 (8 + name.length)

/-- A directory of the contents is one of the volume. -/
lemma Holds.isDir (h : Holds env l D I c s) (hdir : IsDir l.inodeCount c i R) :
    (cur l I s).Live l i ∧ IsDir l.inodeCount ((cur l I s).content l) i R ∧
      (I i).size = 4096 * R.length := by
  have hlive := h.live_iff.mp hdir.live
  rw [← h.content] at hdir
  exact ⟨hlive, hdir, (hdir.inode_size hlive).2⟩

/-- A place for the entry is found in a block, or there is none. -/
lemma addToBlocks_runs (U : Set ℕ) (h : Holds env l D I c s)
    (hdir : IsDir l.inodeCount c i R) (he : e.Ok l.inodeCount) :
    Runs (Frame U) (addToBlocks (I i) e.name e.inode e.type R.length 0) s
      (fun placed s' => (placed = false ∧ Holds env l D I c s' ∧ Packed e.name R) ∨
        (placed = true ∧ Changed env l D I c i (Added e R) s')) (Excuse env l) := by
  obtain ⟨hlive, hdir', -⟩ := h.isDir hdir
  refine scanBlocks_runs (v := cur l I s) (p := fun r => nsfsAlign4 (8 + e.name.length) ≤ r.room)
    (fun _ _ hl => hl.frame) h.reads h.mapped hlive hdir'
    (fun block off r hr => by rw [hr.direntRoom]) (fun _ he => he) (fun _ _ => rfl)
    (fun _ _ _ _ => rfl) ?_ ?_
  · intro k s1 hk1 hnone
    exact .pure (Or.inl ⟨rfl, h.of_loads hk1.frame hk1.loads, by simpa [Packed] using hnone⟩)
  · intro _ k rs s1 found pre r post hget hk1 hload hit
    obtain ⟨rs', hfills, l₁, l₂, hl, hl'⟩ :=
      placeDirent_fills h.ready.inodeCount_le hit he (of_decide_eq_true hit.passed)
    refine .bind (txStore_directory hk1 h hdir hget (hload rfl) hfills _) ?_
    rintro - s2 - ⟨h₂, hedit⟩
    refine .pure (Or.inr ⟨rfl, _, _, h₂, hedit, allEntries_insert hget hl hl', ?_⟩)
    refine fun hroot => hroot.set hget fun x hx hname => ⟨x, ?_, hname⟩
    rw [hl] at hx
    rw [hl']
    simp only [mem_append, mem_cons] at hx ⊢
    tauto

/-- A new block at the end of a directory. -/
lemma addInNewBlock_runs (U : Set ℕ) (h : Holds env l D I c s) (hD : i ∈ D)
    (hdir : IsDir l.inodeCount c i R) (he : e.Ok l.inodeCount) :
    Runs (Frame U) (addInNewBlock (I i) e.name e.inode e.type) s
      (fun r' s' => Changed env l D (update I i r') c i (Added e R) s')
      (SpaceExcuse env l) := by
  have hr := h.ready.layout.regions
  obtain ⟨hlive, hdir', hsize⟩ := h.isDir hdir
  have hn := h.ready.inodeCount_le
  unfold addInNewBlock
  simp only [hsize, Nat.mul_div_cancel_left _ (by norm_num : 0 < 4096)]
  refine .require (fun _ => Or.inr rfl) fun hlt => ?_
  rw [hsize, Nat.mul_div_cancel_left _ (by norm_num)] at hlt
  refine .bind (nsfsTxInodeDataBlock_runs h hD hdir.live hlt
    fun hj : true = false => absurd hj (by simp)) ?_
  rintro ⟨r, p⟩ s1 hf1 ⟨h₁, hptr, hne, -⟩
  have hlive1 := h₁.live_iff.mp hdir.live
  have harea := h₁.mapped.area hlive1 (by omega : R.length < 1037) (by rw [hptr]; exact hne)
  rw [hptr] at harea
  refine .bind ((nsfsTxImage_runs U h₁.active ⟨by omega, harea.2.1⟩).weaken Excuse.space) ?_
  rintro block s2 hf2 ⟨rfl, hl2, hload2⟩
  have h₂ := h₁.of_loads hf2 hl2
  have hptr2 : (cur l (update I i r) s2).ptr i R.length = p := by
    rw [cur, hl2.vol l]
    exact hptr
  refine .bind (txStore_runs U hload2 _ _) ?_
  rintro - s3 hf3 ⟨hv3, hsb3, -, -⟩
  set block := nsfsWriteDirent (view s1 p) 0 e.inode 4096 e.type e.name
  have hfills : Fills l.inodeCount block [e.toRec 4096] := by
    have hname := he.name.2.1
    have hlt := nsfsAlign4_lt (8 + e.name.length)
    refine tiled_singleton.mpr ⟨recAt_nsfsWriteDirent hn (he.toRec (by omega) (by omega)) ?_, rfl⟩
    simp [DirEntry.toRec]
  have h3 := (h₂.store hf3 hdir.live hlt (by rw [hptr2]; exact hne) (by rw [hptr2]; exact hv3)
    hsb3).1
  rw [Content.set_set] at h3
  have hself : update I i r i = r := update_self ..
  have h4 := h3.setRecord (r := r.setSize (4096 * R.length + 4096)) hD hdir.live
    (by rw [hself]; exact DiskInode.sameMap_putLe _ (by omega))
  rw [update_idem] at h4
  have hattr : r.attrs = c.attr i := by
    have := h3.attr_eq (i := i) hdir.live
    rw [hself] at this
    exact this.symm
  have hattr' : (r.setSize (4096 * R.length + 4096)).attrs =
      (c.attr i).setSize (4096 * (R ++ [[e.toRec 4096]]).length) := by
    rw [DiskInode.attrs_putLe _ (by omega), hattr, List.length_append]
    rfl
  refine .pure ⟨_, R ++ [[e.toRec 4096]], h4,
    ⟨⟨hdir.live, ?_, ?_, by simp, ?_, ?_⟩, rfl, ?_, ?_, ?_⟩, ?_, ?_⟩
  · simp only [Content.setAttr, update_self, hattr']
    exact (Bytes.le_putLe_of_disjoint).trans hdir.type
  · simp only [Content.setAttr, update_self, hattr']
    refine Bytes.le_putLe (by omega) ?_
    simp only [List.length_append, List.length_singleton]
    omega
  · simp only [List.length_append, List.length_singleton]
    omega
  · intro m rs hm
    rw [Content.setAttr_blk, Content.set_blk]
    by_cases hmk : m = R.length
    · subst hmk
      rw [getElem?_concat_length] at hm
      cases hm
      exact ⟨block, by simp, hfills⟩
    · have hmlt : m < R.length := by
        have := (List.getElem?_eq_some_iff.mp hm).1
        simp only [List.length_append, List.length_singleton] at this
        omega
      rw [List.getElem?_append_left hmlt] at hm
      rw [if_neg fun he => hmk he.2]
      exact hdir.blocks m rs hm
  · intro j hj
    simp only [Content.setAttr, update_of_ne hj, Content.set_attr]
  · simp only [Content.setAttr, update_self, hattr']
  · intro j hj
    rw [Content.setAttr_blk]
    funext m
    rw [Content.set_blk, if_neg fun he => hj he.1]
  · have hentries : allEntries (R ++ [[e.toRec 4096]]) = allEntries R ++ [e] := by
      simp [allEntries, entriesOf_cons, he.entry]
    rw [hentries]
    exact perm_append_singleton e (allEntries R)
  · rintro ⟨x, hx, hname⟩
    refine ⟨x, ?_, hname⟩
    cases R with
    | nil => exact absurd rfl hdir.nonempty
    | cons => exact hx

/-- The errors of `nsfs_directory_add`. -/
def AddExcuse (env : Env) (l : Layout) (R : List (List Rec)) (name : Name) (e : Errno) : Prop :=
  Excuse env l e ∨ (e = .eexist ∧ ∃ x ∈ allEntries R, x.name = name) ∨
    (e = .enospc ∧ Packed name R)

/-- `nsfs_directory_add` adds one entry under a new name. -/
lemma nsfsDirectoryAdd_runs (U : Set ℕ) (h : Holds env l D I c s) (hD : i ∈ D)
    (hdir : IsDir l.inodeCount c i R) (he : e.Ok l.inodeCount) :
    Runs (Frame U) (nsfsDirectoryAdd (I i) e.name e.inode e.type) s
      (fun r' s' => Changed env l D (update I i r') c i (Added e R) s' ∧
        ∀ x ∈ allEntries R, x.name ≠ e.name) (AddExcuse env l R e.name) := by
  obtain ⟨hlive, hdir', hsize⟩ := h.isDir hdir
  have hE : ∀ x, Excuse env l x → AddExcuse env l R e.name x := fun _ hx => Or.inl hx
  refine .bind ((observe_lookup_looks U h.reads h.mapped hlive hdir' e.name _).strengthen
    fun _ _ hl => hl.frame) ?_
  rintro present s1 - ⟨⟨x, hx, hname, rfl⟩ | ⟨x, rfl, hx⟩, hk1⟩
  · exact .throw (Or.inr (Or.inl ⟨rfl, x, hx, hname⟩))
  · refine .require (fun hne => ?_) fun hx' => ?_
    · rcases hx with hx | hx
      · exact hE x hx
      · exact absurd hx.1 hne
    · have habsent := hx.absent hx'
      have h₁ := h.of_loads hk1.frame hk1.loads
      rw [hsize, Nat.mul_div_cancel_left _ (by norm_num)]
      refine .bind ((addToBlocks_runs U h₁ hdir he).weaken hE) ?_
      rintro placed s2 hf2 (⟨rfl, h₂, hpacked⟩ | ⟨rfl, hchanged⟩)
      · refine .ite (fun hp => absurd hp (by simp)) fun _ => ?_
        refine (addInNewBlock_runs U h₂ hD hdir he).mono (fun r' s' _ hq => ⟨hq, habsent⟩) ?_
        rintro x (hx | hx)
        · exact hE x hx
        · exact .inr (Or.inr ⟨hx, hpacked⟩)
      · refine .ite (fun _ => Runs.pure ⟨?_, habsent⟩) fun hp => absurd rfl hp
        rw [update_eq_self]
        exact hchanged

/-- One entry was removed. -/
def Removed (name : Name) (R R' : List (List Rec)) : Prop :=
  ∃ e, e.name = name ∧ (allEntries R).Perm (e :: allEntries R') ∧
    (name ≠ dotdotName → Rooted R → Rooted R')

/-- The entries around the record that was found. -/
lemma Hit.entries_of_hasName {pre post : List Rec} {previous : Option ℕ} {found : Found}
    (hit : Hit n block 0 rs (Rec.hasName name) previous found pre r post) :
    entriesOf rs = entriesOf pre ++ ⟨r.inode, r.type, name⟩ :: entriesOf post := by
  rw [hit.entries, Rec.hasName_entry hit.passed]
  simp

/-- `nsfs_directory_remove` removes an entry with the name. -/
lemma nsfsDirectoryRemove_runs (U : Set ℕ) (h : Holds env l D I c s)
    (hdir : IsDir l.inodeCount c i R) (name : Name) :
    Runs (Frame U) (nsfsDirectoryRemove (I i) name) s
      (fun _ s' => Changed env l D I c i (Removed name R) s') (LookupExcuse env l R name) := by
  obtain ⟨hlive, hdir', hsize⟩ := h.isDir hdir
  unfold nsfsDirectoryRemove
  rw [hsize, Nat.mul_div_cancel_left _ (by norm_num)]
  refine scanBlocks_runs (v := cur l I s) (fun _ _ hl => hl.frame) h.reads h.mapped hlive hdir'
    (fun _ _ _ => nameMatches_of_recAt) (fun _ he => Or.inl he) (fun _ _ => rfl)
    (fun _ _ _ _ => rfl) ?_ ?_
  · intro k s1 _ hnone
    exact .throw (Or.inr ⟨rfl, forall_mem_flatMap.mpr fun rs hrs =>
      entriesOf_name_ne (hnone rs hrs)⟩)
  · intro _ k rs s1 found pre r post hget hk1 hload hit
    obtain ⟨rs', hfills, hrs'⟩ := eraseDirent_fills hit
    have hrs := hit.entries_of_hasName
    refine (txStore_directory hk1 h hdir hget (hload rfl) hfills _).imp ?_
    rintro - s2 - ⟨h₂, hedit⟩
    refine ⟨_, _, h₂, hedit, _, rfl, allEntries_erase hget hrs hrs', fun hname hroot => ?_⟩
    refine hroot.set hget fun x hx hx' => ⟨x, ?_, hx'⟩
    rw [hrs] at hx
    rw [hrs']
    simp only [mem_append, mem_cons] at hx ⊢
    rcases hx with hx | rfl | hx
    · exact .inl hx
    · exact absurd hx' hname
    · exact .inr hx

/-- The `..` entry was redirected. -/
def Redirected (parent : ℕ) (R R' : List (List Rec)) : Prop :=
  Rooted R' ∧ ∃ e rest, e.name = dotdotName ∧ (allEntries R).Perm (e :: rest) ∧
    (allEntries R').Perm (⟨parent, e.type, dotdotName⟩ :: rest)

/-- `nsfs_directory_set_dotdot` redirects the `..` entry of the first block. -/
lemma nsfsDirectorySetDotdot_runs (U : Set ℕ) (h : Holds env l D I c s)
    (hdir : IsDir l.inodeCount c i R) (hroot : Rooted R) {parent : ℕ} (h0 : parent ≠ 0)
    (hlt : parent < l.inodeCount) :
    Runs (Frame U) (nsfsDirectorySetDotdot (I i) parent) s
      (fun _ s' => Changed env l D I c i (Redirected parent R) s') (Excuse env l) := by
  obtain ⟨hlive, hdir', -⟩ := h.isDir hdir
  obtain ⟨rs, R0, rfl⟩ := exists_cons_of_ne_nil hdir.nonempty
  have hget : (rs :: R0)[0]? = some rs := rfl
  refine scanDirectory_runs (v := cur l I s) (fun _ _ hl => hl.frame) h.reads h.mapped hlive hdir'
    (fun _ _ _ => nameMatches_of_recAt) (fun _ he => he) hget ?_ ?_
  · intro s1 _ hnone
    obtain ⟨x, hx, hname⟩ := hroot
    exact absurd hname (entriesOf_name_ne hnone x hx)
  · intro s1 found pre r post hk1 hload hit
    have hused : r.inode ≠ 0 := (of_decide_eq_true hit.passed).1
    have hname : r.name = dotdotName := (of_decide_eq_true hit.passed).2
    have hfills := redirect_fills h.ready.inodeCount_le hit hused h0 hlt
    refine (txStore_directory hk1 h hdir hget (hload rfl) hfills _).imp ?_
    rintro - s2 - ⟨h₂, hedit⟩
    have hrs := hit.entries_of_hasName
    have hrs' : entriesOf (pre ++ { r with inode := parent } :: post) =
        entriesOf pre ++ ⟨parent, r.type, dotdotName⟩ :: entriesOf post := by
      simp [entriesOf_cons, Rec.entry, h0, hname]
    refine ⟨_, _, h₂, hedit, ?_, ⟨r.inode, r.type, dotdotName⟩,
      entriesOf pre ++ (entriesOf post ++ allEntries R0), rfl, ?_, ?_⟩
    · refine hroot.set hget fun x hx hx' => ⟨⟨parent, r.type, dotdotName⟩, ?_, rfl⟩
      rw [hrs']
      simp
    · have : allEntries (rs :: R0) = entriesOf pre ++ ⟨r.inode, r.type, dotdotName⟩ ::
          (entriesOf post ++ allEntries R0) := by
        simp [allEntries, hrs]
      rw [this]
      exact perm_middle
    · have : allEntries ((rs :: R0).set 0 (pre ++ { r with inode := parent } :: post)) =
          entriesOf pre ++ ⟨parent, r.type, dotdotName⟩ ::
          (entriesOf post ++ allEntries R0) := by
        simp only [set_cons_zero, allEntries, flatMap_cons, hrs']
        simp
      rw [this]
      exact perm_middle

end Northstar
