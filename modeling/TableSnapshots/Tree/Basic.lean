/-!
# File trees

A tree of directories, files and links, as a list of entries with their locations. A location is the
list of names from the top down, so that what lies below a directory are the locations that its own
location starts. The order of the list is the order in which directories list their entries; nothing
that the library answers depends on it.

A file can have several names, its hard links. Each of them is an entry, and the number of the file
tells that they are names of one file. Names are texts: a file system takes other bytes in a name as
well, but a tree has no entries with such names.
-/

namespace TableSnapshots

/-- Where an entry is: the names from the top of the tree down to it. The bytes of a name are those
of a text, its UTF-8. -/
abbrev Location := List String

/-- Whom an entry belongs to. -/
structure Owner where
  user : Nat
  group : Nat
  deriving DecidableEq, Repr

/-- What an entry is. -/
inductive Content where
  | directory
  | file (bytes : ByteArray)
  /-- A symbolic link and the path that it leads to. -/
  | link (target : String)

/-- An entry. -/
structure Node where
  content : Content
  owner : Owner := ⟨0, 0⟩
  /-- The number of a file that has other names as well: its names are the entries with it. -/
  inode : Option Nat := none

/-- The number by which the other names of an entry are known. A directory has no other name. -/
def Node.number? (n : Node) : Option Nat :=
  match n.content with
  | .directory => none
  | .file _ | .link _ => n.inode

/-- A tree. Its top is a directory that is not listed. -/
structure Tree where
  entries : List (Location × Node)

namespace Tree

/-- A tree with nothing in it. -/
def empty : Tree := ⟨[]⟩

/-- The top of the tree. -/
def top : Node := { content := .directory }

/-- The entry at a location. -/
def node? (t : Tree) (loc : Location) : Option Node :=
  if loc = [] then some top else (t.entries.find? (·.1 = loc)).map (·.2)

/-- What the entry at a location is. -/
def content? (t : Tree) (loc : Location) : Option Content :=
  (t.node? loc).map Node.content

/-- The number of what is at a location, if it can have other names. -/
def number? (t : Tree) (loc : Location) : Option Nat :=
  (t.node? loc).bind Node.number?

/-- Whether two locations are names of one entry: they are the same, or two names of one file. -/
def sameEntry (t : Tree) (loc loc' : Location) : Bool :=
  loc = loc' || (t.number? loc).isSome && t.number? loc = t.number? loc'

/-- Whether `loc` is `dir` or lies below it. -/
def atOrBelow (dir loc : Location) : Bool :=
  dir.isPrefixOf loc

/-- Whether `loc` lies below `dir`. -/
def below (dir loc : Location) : Bool :=
  atOrBelow dir loc && dir ≠ loc

/-- The name of `loc` as an entry right in `dir`, if it is one. -/
def childName? (dir loc : Location) : Option String :=
  if loc ≠ [] && loc.dropLast = dir then loc.getLast? else none

/-- The entries right in a directory, with their names. -/
def children (t : Tree) (dir : Location) : List (String × Node) :=
  t.entries.filterMap fun (loc, n) => (childName? dir loc).map (·, n)

/-- The tree after the entries at some locations went to another owner. -/
def owned (t : Tree) (owner : Owner) (chosen : Location → Bool) : Tree :=
  ⟨t.entries.map fun e => (e.1, if chosen e.1 then { e.2 with owner } else e.2)⟩

/-- The tree with `n` at a location, whatever was there before. -/
def put (t : Tree) (loc : Location) (n : Node) : Tree :=
  if t.entries.any (·.1 = loc) then
    ⟨t.entries.map fun e => if e.1 = loc then (loc, n) else e⟩
  else ⟨t.entries ++ [(loc, n)]⟩

/-- The tree without the entry at a location and without what lies below it. -/
def without (t : Tree) (loc : Location) : Tree :=
  ⟨t.entries.filter fun e => !atOrBelow loc e.1⟩

/-- The tree without what lies below a location. -/
def emptied (t : Tree) (loc : Location) : Tree :=
  ⟨t.entries.filter fun e => !below loc e.1⟩

/-- The tree with what was at and below `source` at and below `target`. -/
def moved (t : Tree) (source target : Location) : Tree :=
  ⟨t.entries.map fun (loc, n) =>
    (if atOrBelow source loc then target ++ loc.drop source.length else loc, n)⟩

end Tree

end TableSnapshots
