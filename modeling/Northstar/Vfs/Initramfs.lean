import Northstar.Vfs.Path
import Northstar.Vfs.RamfsFile

/-! # The initramfs

A model of `parse_archive` of `initramfs.c` and of the functions that it calls. A node of the tree
is named by the components that lead to it from the root, so that `find_child` is a lookup one
component further. All allocations succeed. The checks of `add_size` and `align4` for an overflow
are left out: an archive has at most `SIZE_MAX` bytes, and what would overflow is behind its end. -/

namespace Northstar

open Function

/-- The components that lead to a node. -/
abbrev InitPath := List (List UInt8)

/-- What can be seen of a `struct initfs_node`. -/
structure InitView where
  type : NsFileType
  mode : ℕ
  data : List UInt8
  implicit : Bool
  deriving DecidableEq, Repr

/-- `struct initfs_node`. -/
structure InitNode extends InitView where
  inode : ℕ
  mtimeNs : ℕ
  deriving DecidableEq, Repr

/-- `struct initfs`. -/
structure InitFs where
  nodes : InitPath → Option InitNode
  syntheticInode : ℕ

/-- A member of an archive. -/
structure InitMember where
  inode : ℕ
  mode : ℕ
  mtime : ℕ
  name : List UInt8
  data : List UInt8
  deriving DecidableEq, Repr

/-! ### The tree -/

/-- `archive_type`. -/
def archiveType (mode : ℕ) : Except Errno NsFileType :=
  if mode &&& 0o170000 = 0o100000 then .ok .regular
  else if mode &&& 0o170000 = 0o040000 then .ok .directory
  else if mode &&& 0o170000 = 0o020000 then .ok .char
  else if mode &&& 0o170000 = 0o060000 then .ok .block
  else .error .enosys

/-- A directory that no member has asked for. -/
def implicitView : InitView := ⟨.directory, 0o755, [], true⟩

variable (archive : List UInt8) (member : InitMember)

/-- What is seen of the node of a member. -/
def InitMember.view (type : NsFileType) : InitView where
  type := type
  mode := member.mode &&& 0o7777
  data := if type = .regular then member.data else []
  implicit := false

namespace InitFs

/-- The filesystem that `ns_vfs_mount_initramfs` hands to `parse_archive`. -/
def start : InitFs where
  nodes := update (fun _ => none) []
    (some { type := .directory, mode := 0o755, data := [], implicit := false,
            inode := 0x100000001, mtimeNs := 0 })
  syntheticInode := 0x100000001

/-- `get_directory`. -/
def getDirectory (fs : InitFs) (parent : InitPath) (name : List UInt8) : Except Errno InitFs :=
  match fs.nodes (parent ++ [name]) with
  | some node => if node.type ≠ .directory then .error .enotdir else .ok fs
  | none =>
    .ok { nodes := update fs.nodes (parent ++ [name])
            (some { implicitView with inode := fs.syntheticInode + 1, mtimeNs := 0 })
          syntheticInode := fs.syntheticInode + 1 }

/-- The branch of `insert_member` for the last component. An inode number is made up for a new node,
and again for a member without one. -/
def putMember (fs : InitFs) (member : InitMember) (type : NsFileType) (path : InitPath) :
    Except Errno InitFs :=
  let store (synthetic : ℕ) : InitFs :=
    let used := if member.inode = 0 then synthetic + 1 else synthetic
    { nodes := update fs.nodes path
        (some { member.view type with
          inode := if member.inode = 0 then used else member.inode
          mtimeNs := member.mtime * 1000000000 })
      syntheticInode := used }
  match fs.nodes path with
  | some node =>
    if node.implicit = true ∧ node.type = .directory ∧ type = .directory then
      .ok (store fs.syntheticInode)
    else .error .eexist
  | none => .ok (store (fs.syntheticInode + 1))

/-- The loop of `insert_member` over the pieces between the slashes, of which only the last may be
empty: then the path has ended in a slash. It returns whether a component was seen, too. -/
def insertLoop (member : InitMember) (type : NsFileType) (fs : InitFs) (directory : InitPath)
    (sawComponent : Bool) : InitPath → Except Errno (InitFs × Bool)
  | [] => .ok (fs, sawComponent)
  | piece :: rest =>
    if piece = [] then if rest = [] then .ok (fs, sawComponent) else .error .einval
    else if nsVfsNameMax < piece.length then .error .enametoolong
    else if piece = [dot] then
      if rest = [] ∧ sawComponent = true then .error .einval
      else insertLoop member type fs directory sawComponent rest
    else if piece = [dot, dot] then .error .einval
    else if rest = [] then (fs.putMember member type (directory ++ [piece])).map fun fs =>
      (fs, true)
    else
      match fs.getDirectory directory piece with
      | .error e => .error e
      | .ok fs => insertLoop member type fs (directory ++ [piece]) true rest

/-- The end of `insert_member` for a member that names the root. -/
def setRoot (fs : InitFs) (member : InitMember) : InitFs :=
  { fs with nodes := update fs.nodes [] ((fs.nodes []).map fun root =>
      { root with
        mode := member.mode &&& 0o7777
        implicit := false
        inode := if member.inode = 0 then root.inode else member.inode
        mtimeNs := member.mtime * 1000000000 }) }

/-- `insert_member`. -/
def insertMember (fs : InitFs) (member : InitMember) : Except Errno InitFs :=
  if member.name = [] ∨ member.name.head? = some slash then .error .einval
  else
    match archiveType member.mode with
    | .error e => .error e
    | .ok type =>
      match insertLoop member type fs [] false (member.name.splitOn slash) with
      | .error e => .error e
      | .ok (fs, sawComponent) =>
        if sawComponent = false ∧ type = .directory then .ok (fs.setRoot member)
        else if sawComponent = true then .ok fs
        else .error .einval

end InitFs

/-! ### The archive -/

/-- `hex_value`. -/
def hexValue (character : UInt8) : Option ℕ :=
  if 0x30 ≤ character ∧ character ≤ 0x39 then some (character.toNat - 0x30)
  else if 0x61 ≤ character ∧ character ≤ 0x66 then some (10 + (character.toNat - 0x61))
  else if 0x41 ≤ character ∧ character ≤ 0x46 then some (10 + (character.toNat - 0x41))
  else none

/-- `parse_hex8`. -/
def parseHex8 (field : List UInt8) : Except Errno ℕ :=
  match field.foldlM (fun value character => (hexValue character).map (value * 16 + ·)) 0 with
  | none => .error .einval
  | some value => .ok value

/-- `align4`. -/
def align4 (value : ℕ) : ℕ := (value + 3) / 4 * 4

/-- The magic `"070701"`, and `"070702"` of archives with checksums. -/
def newcMagic : List UInt8 := [0x30, 0x37, 0x30, 0x37, 0x30, 0x31]

def crcMagic : List UInt8 := [0x30, 0x37, 0x30, 0x37, 0x30, 0x32]

/-- The name `"TRAILER!!!"`. -/
def trailerName : List UInt8 := [0x54, 0x52, 0x41, 0x49, 0x4c, 0x45, 0x52, 0x21, 0x21, 0x21]

abbrev newcHeaderSize : ℕ := 110

/-- The bytes from an offset on, as many as are asked for. -/
def slice (offset count : ℕ) : List UInt8 := (archive.drop offset).take count

/-- The part of the loop of `parse_archive` that reads a member: the member and the next cursor. -/
def parseMember (cursor : ℕ) : Except Errno (InitMember × ℕ) := do
  let headerEnd := cursor + newcHeaderSize
  if archive.length < headerEnd then throw .einval
  let magic := slice archive cursor 6
  if magic ≠ crcMagic ∧ magic ≠ newcMagic then throw .einval
  let fields ← (List.range 13).mapM fun field =>
    parseHex8 (slice archive (cursor + 6 + field * 8) 8)
  let fileSize := fields.getD 6 0
  let nameSize := fields.getD 11 0
  let check := fields.getD 12 0
  if nameSize = 0 then throw .einval
  if nsPathMax < nameSize then throw .enametoolong
  let nameEnd := headerEnd + nameSize
  if archive.length < nameEnd then throw .einval
  let name := slice archive headerEnd nameSize
  if name.getLast? ≠ some 0 ∨ 0 ∈ name.dropLast then throw .einval
  let dataStart := align4 nameEnd
  let dataEnd := dataStart + fileSize
  let next := align4 dataEnd
  if archive.length < dataStart ∨ archive.length < dataEnd ∨ archive.length < next then
    throw .einval
  let data := slice archive dataStart fileSize
  if magic = crcMagic then
    if (data.map UInt8.toNat).sum % 2 ^ 32 ≠ check then throw .eio
  else if check ≠ 0 then throw .einval
  return ({ inode := fields.getD 0 0, mode := fields.getD 1 0, mtime := fields.getD 5 0,
            name := name.dropLast, data := data }, next)

/-- The loop of `parse_archive`, with the cursor behind the trailer. Every member is longer than its
header, so the length of the archive bounds the rounds. -/
def parseLoop (archive : List UInt8) : ℕ → ℕ → InitFs → Except Errno (InitFs × ℕ)
  | 0, _, _ => .error .einval
  | rounds + 1, cursor, fs =>
    if cursor < archive.length then
      match parseMember archive cursor with
      | .error e => .error e
      | .ok (member, next) =>
        if member.name = trailerName then
          if member.data = [] then .ok (fs, next) else .error .einval
        else
          match fs.insertMember member with
          | .error e => .error e
          | .ok fs => parseLoop archive rounds next fs
    else .error .einval

/-- `parse_archive`. -/
def parseArchive : Except Errno InitFs :=
  match parseLoop archive archive.length 0 .start with
  | .error e => .error e
  | .ok (fs, cursor) => if ∀ byte ∈ archive.drop cursor, byte = 0 then .ok fs else .error .einval

/-- The members of an archive before its trailer, as the loop reads them. -/
def readMembers (archive : List UInt8) : ℕ → ℕ → List InitMember
  | 0, _ => []
  | rounds + 1, cursor =>
    if cursor < archive.length then
      match parseMember archive cursor with
      | .error _ => []
      | .ok (member, next) =>
        if member.name = trailerName then [] else member :: readMembers archive rounds next
    else []

def archiveMembers : List InitMember :=
  readMembers archive archive.length 0

/-- The loop inserts the members one after another. -/
lemma foldlM_of_parseLoop {archive : List UInt8} {rounds cursor cursor' : ℕ} {fs fs' : InitFs}
    (h : parseLoop archive rounds cursor fs = .ok (fs', cursor')) :
    (readMembers archive rounds cursor).foldlM InitFs.insertMember fs = .ok fs' := by
  induction rounds generalizing cursor fs with
  | zero => cases h
  | succ rounds ih =>
    rw [parseLoop] at h
    rw [readMembers]
    split_ifs at h ⊢ with hcursor
    cases hmember : parseMember archive cursor with
    | error e => rw [hmember] at h; cases h
    | ok read =>
      obtain ⟨member, next⟩ := read
      rw [hmember] at h
      dsimp only at h ⊢
      by_cases htrailer : member.name = trailerName
      · rw [if_pos htrailer] at h ⊢
        split_ifs at h
        cases h
        rfl
      · rw [if_neg htrailer] at h ⊢
        rw [List.foldlM_cons]
        cases hinsert : fs.insertMember member with
        | error e => rw [hinsert] at h; cases h
        | ok inserted =>
          rw [hinsert] at h
          exact ih h

/-- An archive that was parsed, member by member. -/
lemma foldlM_of_parseArchive {archive : List UInt8} {fs : InitFs}
    (h : parseArchive archive = .ok fs) :
    (archiveMembers archive).foldlM InitFs.insertMember .start = .ok fs := by
  unfold parseArchive at h
  cases hloop : parseLoop archive archive.length 0 .start with
  | error e => rw [hloop] at h; cases h
  | ok result =>
    rw [hloop] at h
    dsimp only at h
    split_ifs at h
    cases h
    exact foldlM_of_parseLoop hloop

end Northstar
