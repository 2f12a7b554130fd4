import TableSnapshots.Text.Blank
import TableSnapshots.Tree.Read
import TableSnapshots.Tree.Remove

/-!
# Edits of a tree

The changes to files that prepare a rehearsal, and those that a rehearsed engine makes when it
answers. Paths are relative to the engine's directory, and in them a placeholder stands for the
number of the latest freeze.
-/

namespace TableSnapshots.Rehearsal

/-- One change to the files. -/
inductive Edit where
  /-- Make a directory, and those above it. -/
  | directory (path : String)
  /-- Write a file. -/
  | file (path : String) (bytes : ByteArray)
  /-- Make a link. -/
  | link (path target : String)
  /-- Remove an entry with everything below it. -/
  | remove (path : String)
  /-- Give an entry another path. -/
  | rename (source target : String)
  /-- Count one freeze more. -/
  | bump

namespace Edit

/-- The file with the number of the latest freeze. -/
def counter (root : Path) : Path :=
  (root.entry "shadow").entry "increment.txt"

/-- The number of the latest freeze, zero if there is none to read. -/
def latest (root : Path) (t : Tree) : Nat :=
  match t.readFile (counter root) with
  | .error _ => 0
  | .ok bytes =>
    ((String.fromUTF8? bytes).bind fun s =>
      Text.readUnsigned? 64 (Text.trimChars s.toList)).getD 0

/-- What stands for the number of the latest freeze. -/
def placeholder : String := "\x7bGEN\x7d"

/-- Put the number of the latest freeze into a text. -/
def fill (root : Path) (t : Tree) (s : String) : String :=
  s.replace placeholder (Text.decimal (latest root t))

/-- Follow steps from a directory and make the directories that are not there. -/
def makeDirectories (t : Tree) : Location → List Step → Except Fault (Tree × Location)
  | dir, [] => .ok (t, dir)
  | dir, .here :: rest => makeDirectories t dir rest
  | dir, .up :: rest => makeDirectories t dir.dropLast rest
  | dir, .name s :: rest => do
    if Tree.nameLimit < s.utf8ByteSize then throw .nameTooLong
    match t.content? (dir ++ [s]) with
    | none => makeDirectories (t.put (dir ++ [s]) { content := .directory }) (dir ++ [s]) rest
    | some .directory => makeDirectories t (dir ++ [s]) rest
    | some (.file _) => throw .notDirectory
    | some (.link target) =>
      let loc ← t.walk true Tree.linkLimit (Tree.origin dir target) (Step.ofText target)
      match t.content? loc with
      | some .directory => makeDirectories t loc rest
      | _ => throw .notDirectory

/-- Make the directories above the end of a path; also the location of the end. -/
def makeParents (t : Tree) (p : Path) : Except Fault (Tree × Location) := do
  match (Step.ofText p.text).reverse.dropWhile (· = .here) with
  | .name s :: above =>
    let (t, dir) ← makeDirectories t [] above.reverse
    return (t, dir ++ [s])
  | _ => throw .invalid

/-- Write a file, through a link if there is one. -/
def writeFile (t : Tree) (p : Path) (bytes : ByteArray) : Except Fault Tree := do
  let (t, loc) ← makeParents t p
  match t.content? loc with
  | some .directory => throw .directory
  | some (.link target) =>
    match t.walk true Tree.linkLimit (Tree.origin loc.dropLast target) (Step.ofText target) with
    | .ok found =>
      match t.node? found with
      | some ⟨.file _, owner, inode⟩ => return t.put found ⟨.file bytes, owner, inode⟩
      | _ => throw .directory
    | .error f => throw f
  | some (.file _) =>
    return t.put loc { (t.node? loc).getD Tree.top with content := .file bytes }
  | none => return t.put loc { content := .file bytes }

/-- Make one change to the files below `root`. -/
def perform (root : Path) (t : Tree) : Edit → Except Fault Tree
  | directory path => do
    let p := root.join ⟨fill root t path⟩
    let (t, _) ← makeDirectories t [] (Step.ofText p.text)
    return t
  | file path bytes => writeFile t (root.join ⟨fill root t path⟩) bytes
  | link path target => do
    let target := fill root t target
    let (t, loc) ← makeParents t (root.join ⟨fill root t path⟩)
    return t.put loc { content := .link target }
  | remove path => do
    let loc ← t.resolve false (root.join ⟨fill root t path⟩)
    return t.without loc
  | rename source target => do
    let source ← t.resolve false (root.join ⟨fill root t source⟩)
    let (t, loc) ← makeParents t (root.join ⟨fill root t target⟩)
    return (t.without loc).moved source loc
  | bump =>
    writeFile t (counter root) (Text.decimal (latest root t + 1) ++ "\n").toUTF8

/-- The files after one change; they stay as they are if it cannot be made. -/
def apply (root : Path) (t : Tree) (e : Edit) : Tree :=
  match e.perform root t with
  | .ok changed => changed
  | .error _ => t

/-- The files after some changes, made one after the other. -/
def applyAll (root : Path) (edits : List Edit) (t : Tree) : Tree :=
  edits.foldl (apply root) t

end Edit

end TableSnapshots.Rehearsal
