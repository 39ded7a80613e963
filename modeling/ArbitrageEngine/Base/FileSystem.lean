import ArbitrageEngine.Base.Bytes
import Mathlib.Logic.Function.Basic

/-!
# Files under names

Names lead to inodes and open files stay with theirs: an inode can be written to while its name
is gone or leads elsewhere. Inodes are numbered in the order of their creation and are not used
again. An inode is synced if everything written to it has reached the device.
-/

namespace Base

/-- The contents of a file. -/
structure Inode where
  content : Bytes
  synced : Bool
  deriving DecidableEq, Repr

/-- A file system; every name leads to an inode that there is. -/
structure FileSystem (Name : Type) where
  entries : Name → Option Nat
  inodes : List Inode
  bounded : ∀ name i, entries name = some i → i < inodes.length

namespace FileSystem

variable {Name : Type}

/-- The inode under a name. -/
def inode (files : FileSystem Name) (name : Name) : Option Inode :=
  files.entries name >>= fun i ↦ files.inodes[i]?

/-! ### Open files -/

/-- A change to an inode. -/
def modify (files : FileSystem Name) (fd : Nat) (f : Inode → Inode) : FileSystem Name where
  entries := files.entries
  inodes := files.inodes.modify fd f
  bounded := by
    intro name i h
    rw [List.length_modify]
    exact files.bounded name i h

/-- `write` at the end of an open file. -/
def append (files : FileSystem Name) (fd : Nat) (bytes : Bytes) : FileSystem Name :=
  files.modify fd fun inode ↦ ⟨inode.content ++ bytes, false⟩

/-- `fsync`. -/
def sync (files : FileSystem Name) (fd : Nat) : FileSystem Name :=
  files.modify fd fun inode ↦ { inode with synced := true }

/-- A change of a file makes no new one. -/
@[simp] theorem length_modify (files : FileSystem Name) (fd : Nat) (f : Inode → Inode) :
    (files.modify fd f).inodes.length = files.inodes.length :=
  List.length_modify ..

/-- The file that is changed. -/
theorem modify_self (files : FileSystem Name) (fd : Nat) (f : Inode → Inode) :
    (files.modify fd f).inodes[fd]? = files.inodes[fd]?.map f := by
  simp [modify]

/-- The other files stay as they are. -/
theorem modify_of_ne (files : FileSystem Name) {fd i : Nat} (h : i ≠ fd) (f : Inode → Inode) :
    (files.modify fd f).inodes[i]? = files.inodes[i]? := by
  simp [modify, Ne.symm h]

/-! ### Names -/

variable [DecidableEq Name]

private theorem bounded_update {entries : Name → Option Nat} {n m : Nat} (hnm : n ≤ m)
    (old : ∀ name i, entries name = some i → i < n) {entry : Option Nat}
    (new : ∀ i, entry = some i → i < m) (name other : Name) (i : Nat)
    (h : Function.update entries name entry other = some i) : i < m := by
  by_cases same : other = name
  · rw [same, Function.update_self] at h
    exact new i h
  · rw [Function.update_of_ne same] at h
    exact Nat.lt_of_lt_of_le (old other i h) hnm

/-- A new file under a name, open under the number of its inode: `open` with `O_CREAT`. -/
def create (files : FileSystem Name) (name : Name) (content : Bytes) : FileSystem Name where
  entries := Function.update files.entries name (some files.inodes.length)
  inodes := files.inodes ++ [⟨content, false⟩]
  bounded := by
    apply bounded_update (n := files.inodes.length) (by simp) files.bounded
    rintro i ⟨⟩
    simp

/-- `unlink`, which leaves the inode to those who have it open. -/
def unlink (files : FileSystem Name) (name : Name) : FileSystem Name where
  entries := Function.update files.entries name none
  inodes := files.inodes
  bounded := by
    apply bounded_update (Nat.le_refl _) files.bounded
    rintro i ⟨⟩

/-- The file under the old name gets the new one. -/
def rename (files : FileSystem Name) (old new : Name) : FileSystem Name where
  entries := Function.update (Function.update files.entries new (files.entries old)) old none
  inodes := files.inodes
  bounded := by
    apply bounded_update (Nat.le_refl _)
    · exact bounded_update (Nat.le_refl _) files.bounded (files.bounded old) new
    · rintro i ⟨⟩

/-- `renameat2` with `RENAME_NOREPLACE`: fails if there is no old name or if there is a new one. -/
def renameNoReplace (files : FileSystem Name) (old new : Name) : Option (FileSystem Name) :=
  if files.entries old ≠ none ∧ files.entries new = none then some (files.rename old new) else none

/-- A created file has the next number. -/
theorem entries_create_self (files : FileSystem Name) (name : Name) (content : Bytes) :
    (files.create name content).entries name = some files.inodes.length :=
  Function.update_self ..

/-- The creation of a file leaves the other names alone. -/
theorem entries_create_of_ne (files : FileSystem Name) {name other : Name} (h : other ≠ name)
    (content : Bytes) : (files.create name content).entries other = files.entries other :=
  Function.update_of_ne h ..

/-- A name is gone once it is unlinked. -/
theorem entries_unlink_self (files : FileSystem Name) (name : Name) :
    (files.unlink name).entries name = none :=
  Function.update_self ..

/-- The other names stay. -/
theorem entries_unlink_of_ne (files : FileSystem Name) {name other : Name} (h : other ≠ name) :
    (files.unlink name).entries other = files.entries other :=
  Function.update_of_ne h ..

/-- The new name leads where the old one led. -/
theorem entries_rename_new (files : FileSystem Name) {old new : Name} (h : new ≠ old) :
    (files.rename old new).entries new = files.entries old := by
  dsimp only [rename]
  rw [Function.update_of_ne h, Function.update_self]

/-- A rename leaves the other names alone. -/
theorem entries_rename_of_ne (files : FileSystem Name) {old new other : Name} (hold : other ≠ old)
    (hnew : other ≠ new) : (files.rename old new).entries other = files.entries other := by
  dsimp only [rename]
  rw [Function.update_of_ne hold, Function.update_of_ne hnew]

/-- A created file comes behind the others, and is not synced. -/
@[simp] theorem inodes_create (files : FileSystem Name) (name : Name) (content : Bytes) :
    (files.create name content).inodes = files.inodes ++ [⟨content, false⟩] := rfl

/-- The file stays when its name is unlinked. -/
@[simp] theorem inodes_unlink (files : FileSystem Name) (name : Name) :
    (files.unlink name).inodes = files.inodes := rfl

/-- A rename moves no file. -/
@[simp] theorem inodes_rename (files : FileSystem Name) (old new : Name) :
    (files.rename old new).inodes = files.inodes := rfl

/-- When a rename that replaces nothing succeeds, the old name was there and the new one was not. -/
theorem renameNoReplace_eq_some {files after : FileSystem Name} {old new : Name}
    (h : files.renameNoReplace old new = some after) :
    files.entries old ≠ none ∧ files.entries new = none ∧ after = files.rename old new := by
  unfold renameNoReplace at h
  split at h
  · next free => exact ⟨free.1, free.2, (Option.some.inj h).symm⟩
  · cases h

end FileSystem

end Base
