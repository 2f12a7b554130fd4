import TableSnapshots.Tree.Resolve

/-!
# Removing a directory

A directory is removed with everything in it. Links in it are removed and not followed, and a link
given as the path is removed itself. A path that ends in a slash or in a `.` leads through a link to
its directory, which is emptied, and then the path turns out to name no directory that could be
removed, or to lead nowhere any more if the link was among what was removed.
-/

namespace TableSnapshots.Tree

/-- The last piece of a path that is not empty. -/
def lastPiece? (p : Path) : Option (List Char) :=
  p.pieces.reverse.find? (· ≠ [])

/-- The path without the slashes at its end. -/
def withoutLastSlashes (p : Path) : Path :=
  ⟨String.ofList (p.text.toList.reverse.dropWhile (· = '/')).reverse⟩

/-- The path up to its last piece: the directory that the piece is an entry of. -/
def directoryPath (p : Path) : Path :=
  match ((withoutLastSlashes p).text.toList.reverse.dropWhile (· ≠ '/')).reverse with
  | [] => ⟨"."⟩
  | cs => ⟨String.ofList cs⟩

/-- Remove the directory that a path names, if it is empty. A `.` and a `..` at the end name none,
which shows only after the path has been followed up to there. -/
def removeDirectory (t : Tree) (p : Path) : Except Fault Tree := do
  match lastPiece? p with
  | none => throw .busy
  | some ['.'] =>
    let _ ← t.resolve true (directoryPath p)
    throw .invalid
  | some ['.', '.'] =>
    let _ ← t.resolve true (directoryPath p)
    throw .notEmpty
  | some _ =>
    let loc ← t.resolve false (withoutLastSlashes p)
    match t.content? loc with
    | some .directory =>
      if (t.children loc).isEmpty then return t.without loc else throw .notEmpty
    | some _ => throw .notDirectory
    | none => throw .missing

/-- Remove what a path leads to, with everything in it. Also the tree that is left, since a removal
that fails may have emptied the directory. -/
def removeAll (t : Tree) (p : Path) : Except Fault Unit × Tree :=
  match t.resolve false p with
  | .error f => (.error f, t)
  | .ok loc =>
    match t.content? loc with
    | some (.link _) => (.ok (), t.without loc)
    | some (.file _) => (.error .notDirectory, t)
    | none => (.error .missing, t)
    | some .directory =>
      let emptied := t.emptied loc
      match emptied.removeDirectory p with
      | .ok rest => (.ok (), rest)
      | .error f => (.error f, emptied)

end TableSnapshots.Tree
