import DimmBus.Error
import DimmBus.FileTree
/-!
# Lock files

The bus lock as an advisory lock on a file. It belongs to the handle that took it: two handles on a
file exclude each other, also within one process and whichever paths they were opened by.
-/

namespace DimmBus

/-- An open lock file. -/
structure LockHandle where
  file : Route
  /-- Whether this handle has the lock of its file. -/
  holds : Bool
deriving DecidableEq, Repr, Inhabited

/-- The files that can be locked, and the handles on them by number. -/
structure LockFiles where
  /-- The directory that paths start from. -/
  directory : Route
  tree : FileTree
  /-- A handle that was closed is none. -/
  handles : Array (Option LockHandle)
deriving DecidableEq, Repr, Inhabited

namespace LockFiles

/-- A new directory for lock files. -/
def fresh (directory : Route) : LockFiles := ⟨directory, .withDirectory directory, #[]⟩

/-- Whether there is something at a path. -/
def existsAt (l : LockFiles) (path : String) : Bool := l.tree.existsAt l.directory path

/-- Opens a file and creates it if need be. -/
def openFile (l : LockFiles) (path : String) : Except Error Unit × LockFiles :=
  match l.tree.openAt l.directory path with
  | some (file, tree) =>
    (.ok (), { l with tree, handles := l.handles.push (some ⟨file, false⟩) })
  | none => (.error (.access (.lockFile path)), l)

/-- The open handle with a number. -/
def handle? (l : LockFiles) (number : Nat) : Option LockHandle := (l.handles[number]?).join

/-- Whether a handle with another number has the lock of a file. -/
def heldByOther (l : LockFiles) (number : Nat) (file : Route) : Bool :=
  (List.range l.handles.size).any fun other =>
    other ≠ number ∧ (l.handle? other).any fun h => h.file = file ∧ h.holds

/-- Changes an open handle. -/
def set (l : LockFiles) (number : Nat) (handle : Option LockHandle) : LockFiles :=
  { l with handles := l.handles.setIfInBounds number handle }

/-- Takes the lock of a handle's file. If another handle has it, every wait for it is in vain;
taking it again is no failure. -/
def acquire (l : LockFiles) (number : Nat) (h : LockHandle) : Except Error Unit × LockFiles :=
  if l.heldByOther number h.file then (.error (.busy 0), l)
  else (.ok (), l.set number (some ⟨h.file, true⟩))

/-- Gives the lock back; it need not be held. -/
def release (l : LockFiles) (number : Nat) (h : LockHandle) : LockFiles :=
  l.set number (some ⟨h.file, false⟩)

/-- Closes a handle, and with that gives its lock back. -/
def close (l : LockFiles) (number : Nat) : LockFiles := l.set number none

end LockFiles

end DimmBus
