import TableSnapshots.Text.Pieces

/-!
# Paths

A path is the text that spells it. Two spellings mean the same place when they have the same
components: doubled slashes, a slash at the end and a `.` in the middle add none. Joining and
cutting keep the spelling, since messages and results show it.
-/

namespace TableSnapshots

/-- A path, as spelled. -/
structure Path where
  text : String
  deriving DecidableEq, Repr

namespace Path

/-- One part of a path. -/
inductive Component where
  /-- The start of an absolute path. -/
  | root
  /-- A `.` at the start of a relative path. -/
  | here
  /-- A `..`. -/
  | up
  /-- A name. -/
  | name (s : String)
  deriving DecidableEq, Repr

/-- The text between the slashes. -/
def pieces (p : Path) : List (List Char) :=
  Text.pieces '/' p.text.toList

/-- Whether a path starts at the root. -/
def isAbsolute (p : Path) : Bool :=
  p.text.toList.head? = some '/'

/-- Whether a piece adds no component: nothing between two slashes, or a `.`. -/
def isIdle (piece : List Char) : Bool :=
  piece = [] || piece = ['.']

/-- The component of a piece that is not the first one. -/
def component? (piece : List Char) : Option Component :=
  if isIdle piece then none
  else if piece = ['.', '.'] then some .up
  else some (.name (String.ofList piece))

/-- The component of the first piece. A slash before the other pieces is the root, and a `.` counts
here alone. -/
def leading? (first : List Char) (rest : List (List Char)) : Option Component :=
  if first = [] then (if rest = [] then none else some .root)
  else if first = ['.'] then some .here
  else component? first

/-- The components of a path, in order. -/
def components (p : Path) : List Component :=
  match p.pieces with
  | [] => []
  | first :: rest => (leading? first rest).toList ++ rest.filterMap component?

/-- The path `q` seen from `p`: `q` itself if it is absolute, else `p` and `q` with one slash
between them, unless `p` is empty or ends in a slash. -/
def join (p q : Path) : Path :=
  if q.isAbsolute then q
  else match p.text.toList.getLast? with
    | none => q
    | some c => if c = '/' then ⟨p.text ++ q.text⟩ else ⟨p.text ++ "/" ++ q.text⟩

/-- The path of the entry `name` in the directory `p`. -/
def entry (p : Path) (name : String) : Path :=
  p.join ⟨name⟩

/-- The pieces after the first `n` components. -/
def dropComponents : Nat → List (List Char) → List (List Char)
  | 0, ps => ps
  | _ + 1, [] => []
  | n + 1, p :: ps => if isIdle p then dropComponents (n + 1) ps else dropComponents n ps

/-- The pieces without those at the end that add no component. -/
def trimEnd (ps : List (List Char)) : List (List Char) :=
  (ps.reverse.dropWhile isIdle).reverse

/-- The path of some pieces. -/
def ofPieces (ps : List (List Char)) : Path :=
  ⟨String.ofList (Text.joinPieces '/' ps)⟩

/-- What is left of a path after its first `n` components, in its own spelling. Pieces that add no
component are dropped at both ends, except that a path that loses nothing keeps its start. -/
def remainder (p : Path) (n : Nat) : Path :=
  match p.pieces, n with
  | [], _ => p
  | first :: rest, 0 =>
    if isIdle first && !(first = [] && rest = []) then
      if trimEnd rest = [] then ⟨if first = [] then "/" else "."⟩
      else ofPieces (first :: trimEnd rest)
    else ofPieces (trimEnd (first :: rest))
  | _ :: rest, n + 1 => ofPieces (trimEnd ((dropComponents n rest).dropWhile isIdle))

/-- Whether the components of `root` are the first components of `p`. -/
def startsWith (p root : Path) : Bool :=
  root.components.isPrefixOf p.components

/-- What is left of `p` after the components of `root`, if `p` starts with them. -/
def stripPrefix? (p root : Path) : Option Path :=
  if p.startsWith root then some (p.remainder root.components.length) else none

end Path

end TableSnapshots
