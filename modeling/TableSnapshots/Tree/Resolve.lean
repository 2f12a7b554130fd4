import TableSnapshots.Fault
import TableSnapshots.Path.Basic
import TableSnapshots.Tree.Basic

/-!
# Finding a path in a tree

A path is followed name by name from the top of the tree, which is also where relative paths
start. A link on the way leads on to its target, which takes the link's place in the path; at the
end of the path it depends on the operation whether a link is followed. A slash or a `.` at the
end asks for a directory and therefore follows a link. After forty links the path is given up.
-/

namespace TableSnapshots

/-- One step along a path. -/
inductive Step where
  /-- Stay in the directory. -/
  | here
  /-- Go to the directory above. -/
  | up
  /-- Go to the entry of this name. -/
  | name (s : String)
  deriving DecidableEq, Repr

namespace Step

/-- The steps of the pieces after the first one: a piece between two slashes is no step, an empty
one at the end is. -/
def ofPieces : List (List Char) → List Step
  | [] => []
  | [p] => [ofLast p]
  | p :: q :: ps => if p = [] then ofPieces (q :: ps) else ofLast p :: ofPieces (q :: ps)
where
  /-- The step of a piece that is one. -/
  ofLast (p : List Char) : Step :=
    if p = [] || p = ['.'] then .here
    else if p = ['.', '.'] then .up
    else .name (String.ofList p)

/-- The steps of the text of a path. -/
def ofText (s : String) : List Step :=
  match Text.pieces '/' s.toList with
  | [] :: rest => ofPieces rest
  | ps => ofPieces ps

end Step

namespace Tree

/-- The longest name that a directory can hold, in bytes. -/
def nameLimit : Nat := 255

/-- The length from which on paths are refused, in bytes. -/
def pathLimit : Nat := 4096

/-- How many links a path may lead through. -/
def linkLimit : Nat := 40

/-- Where following a path comes to a halt. -/
inductive Halt where
  /-- The path ends here. -/
  | arrived (loc : Location)
  /-- A link in the directory `dir` leads on to `target`, from where `rest` is still to go. -/
  | detour (dir : Location) (target : String) (rest : List Step)

/-- Follow steps from a directory up to the end or to the next link. -/
def advance (t : Tree) (followLast : Bool) : Location → List Step → Except Fault Halt
  | dir, [] => .ok (.arrived dir)
  | dir, .here :: rest => advance t followLast dir rest
  | dir, .up :: rest => advance t followLast dir.dropLast rest
  | dir, .name s :: rest =>
    if nameLimit < s.utf8ByteSize then .error .nameTooLong
    else match t.node? (dir ++ [s]) with
      | none => .error .missing
      | some n =>
        match n.content with
        | .directory => advance t followLast (dir ++ [s]) rest
        | .file _ => if rest = [] then .ok (.arrived (dir ++ [s])) else .error .notDirectory
        | .link target =>
          if rest = [] && !followLast then .ok (.arrived (dir ++ [s]))
          else .ok (.detour dir target rest)

/-- Where the path `s` starts, seen from a directory. -/
def origin (dir : Location) (s : String) : Location :=
  if (Path.mk s).isAbsolute then [] else dir

/-- Follow steps from a directory through at most `links` links. -/
def walk (t : Tree) (followLast : Bool) :
    (links : Nat) → Location → List Step → Except Fault Location
  | 0, dir, steps => do
    match ← advance t followLast dir steps with
    | .arrived loc => return loc
    | .detour .. => throw .linkLoop
  | links + 1, dir, steps => do
    match ← advance t followLast dir steps with
    | .arrived loc => return loc
    | .detour dir target rest =>
      walk t followLast links (origin dir target) (Step.ofText target ++ rest)

/-- Refuse the texts that no path of the operating system can have. -/
def checkText (s : String) : Except Fault Unit :=
  if s.toList.contains '\x00' then .error .zeroInPath
  else if s = "" then .error .missing
  else if pathLimit ≤ s.utf8ByteSize then .error .nameTooLong
  else .ok ()

/-- The location that a path leads to. A link at the end is followed if `followLast`. -/
def resolve (t : Tree) (followLast : Bool) (p : Path) : Except Fault Location := do
  checkText p.text
  walk t followLast linkLimit [] (Step.ofText p.text)

end Tree

end TableSnapshots
