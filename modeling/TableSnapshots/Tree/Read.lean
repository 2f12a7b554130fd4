import TableSnapshots.Files
import TableSnapshots.Tree.Resolve

/-!
# Reading a tree

The content of a file and the entries of a directory, through links, and whether there is anything
at all. A listing tells of each entry what it is itself, without following it.
-/

namespace TableSnapshots

/-- What a listing tells of some content. -/
def Content.kind : Content → EntryKind
  | directory => .directory
  | file bytes => .file bytes.size
  | link _ => .other

namespace Tree

/-- The bytes of the file that a path leads to. -/
def readFile (t : Tree) (p : Path) : Except Fault ByteArray := do
  let loc ← t.resolve true p
  match t.content? loc with
  | some (.file bytes) => return bytes
  | some .directory => throw .directory
  | _ => throw .missing

/-- The entries of the directory that a path leads to. -/
def listDirectory (t : Tree) (p : Path) : Except Fault (List DirectoryEntry) := do
  let loc ← t.resolve true p
  match t.content? loc with
  | some .directory =>
    return (t.children loc).map fun (name, n) => { name, kind := n.content.kind }
  | some _ => throw .notDirectory
  | none => throw .missing

/-- Whether a path leads to an entry. -/
def isPresent (t : Tree) (p : Path) : Bool :=
  (t.resolve true p).isOk

end Tree

end TableSnapshots
