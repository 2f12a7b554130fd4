import TableSnapshots.Fault
import TableSnapshots.Path.Basic

/-!
# Files, as the library sees them

What the library asks of a file system. Decisions are made apart from it, so that they run on a real
file system as on a `Tree`.
-/

namespace TableSnapshots

/-- What a listing tells of an entry. -/
inductive EntryKind where
  | directory
  /-- A file of this many bytes. -/
  | file (size : Nat)
  /-- A link, or anything else that is neither a directory nor a file. -/
  | other
  deriving DecidableEq, Repr

/-- The bytes of an entry; only a file has any. -/
def EntryKind.size : EntryKind → Nat
  | file n => n
  | _ => 0

/-- An entry in the listing of a directory. -/
structure DirectoryEntry where
  /-- The name, which is a text. Nothing is said of entries whose names are other bytes. -/
  name : String
  kind : EntryKind
  deriving DecidableEq, Repr

/-- A file system. -/
structure Files (m : Type → Type) where
  /-- The bytes of a file. Links are followed. -/
  readFile : Path → m (Except Fault ByteArray)
  /-- The entries of a directory, in any order. Links are followed to the directory, and an entry
  that is a link is listed as one. -/
  listDirectory : Path → m (Except Fault (List DirectoryEntry))
  /-- Whether a path leads to an entry. Links are followed. -/
  isPresent : Path → m Bool
  /-- Remove a directory with everything in it, or a link. -/
  removeAll : Path → m (Except Fault Unit)
  /-- Give everything below a directory to a user and a group. -/
  changeOwnership : Path → (user group : String) → m (Except Fault Unit)

end TableSnapshots
