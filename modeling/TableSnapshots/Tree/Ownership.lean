import TableSnapshots.Tree.Resolve

/-!
# Changing owners

Everything below a directory is given to one user and group. The directory itself keeps its owner,
and a link is changed itself and not followed, except that a link given as the path leads to its
directory. The names of the user and the group are looked up before anything is changed. Each entry
is changed by its path, which is that of the directory with the names below it, so an entry that
lies too deep for a path is refused.

The owner is the file's and not the name's: a file that has another name outside of the directory
shows the new owner there as well.

Only a process with the right to do so gives entries away. Any other one can change the group of
what is its user's own, to a group that it is in. The modes of entries are not looked at: a process
that does not own a directory is taken to be able to list it.
-/

namespace TableSnapshots

/-- The users and groups that have names, with their numbers. -/
structure Accounts where
  users : List (String × Nat)
  groups : List (String × Nat)

/-- Who the process is, what it may do, and whom it knows. -/
structure Authority where
  accounts : Accounts
  /-- Whether the process may give anything to anyone. -/
  mayGive : Bool
  /-- The user and the group that the process acts as. -/
  process : Owner := ⟨0, 0⟩
  /-- The other groups that the process is in. -/
  groups : List Nat := []

namespace Authority

/-- Whether the process is in a group. -/
def isIn (a : Authority) (group : Nat) : Bool :=
  group = a.process.group || a.groups.contains group

/-- Whether the process may give what belongs to `old` to `new`. Without the right to give anything
away it must be the user's own and stay so, and the group is the same or one of the process's. -/
def mayChange (a : Authority) (old new : Owner) : Bool :=
  a.mayGive || old.user = a.process.user && new.user = old.user &&
    (new.group = old.group || a.isIn new.group)

end Authority

namespace Accounts

/-- The number of a name. -/
def find? (names : List (String × Nat)) (name : String) : Option Nat :=
  (names.find? (·.1 = name)).map (·.2)

/-- The owner that a user and a group are together; the user is looked up first. -/
def owner (a : Accounts) (user group : String) : Except Fault Owner :=
  match find? a.users user, find? a.groups group with
  | none, _ => .error (.described .notFound ("no such user: " ++ user))
  | some _, none => .error (.described .notFound ("no such group: " ++ group))
  | some u, some g => .ok ⟨u, g⟩

end Accounts

namespace Tree

/-- The path of what is at `loc` below a directory that the path `p` leads to. -/
def pathBelow (p : Path) (dir loc : Location) : Path :=
  (loc.drop dir.length).foldl Path.entry p

/-- Give one entry to another owner by its path. All names of a file show its new owner. -/
def giveEntry (authority : Authority) (owner : Owner) (p : Path) (t : Tree) (loc : Location) :
    Except Fault Tree :=
  if pathLimit ≤ p.text.utf8ByteSize then .error .nameTooLong
  else match t.node? loc with
    | none => .error .missing
    | some n =>
      if authority.mayChange n.owner owner then .ok (t.owned owner (t.sameEntry loc))
      else .error .notPermitted

/-- Give the entries at some locations to another owner, each by its path, up to the first one that
cannot be given. -/
def giveEntries (authority : Authority) (owner : Owner) (path : Location → Path) :
    Tree → List Location → Except Fault Unit × Tree
  | t, [] => (.ok (), t)
  | t, loc :: locs =>
    match giveEntry authority owner (path loc) t loc with
    | .error f => (.error f, t)
    | .ok t' => giveEntries authority owner path t' locs

/-- A fault on the way to the entries below a path. -/
def walkFault (p : Path) (f : Fault) : Fault :=
  .described f.kind ("IO error for operation on " ++ p.text ++ ": " ++ f.message)

/-- The locations of the entries below a directory, in the order of the tree. -/
def locationsBelow (t : Tree) (dir : Location) : List Location :=
  (t.entries.map (·.1)).filter (below dir)

/-- Give everything below a path to another owner. Nothing lies below a file. -/
def giveBelow (t : Tree) (authority : Authority) (owner : Owner) (p : Path) :
    Except Fault Unit × Tree :=
  match t.resolve true p with
  | .error f => (.error (walkFault p f), t)
  | .ok dir => giveEntries authority owner (pathBelow p dir) t (t.locationsBelow dir)

/-- Give everything below a path to a user and a group. -/
def changeOwnership (t : Tree) (authority : Authority) (p : Path) (user group : String) :
    Except Fault Unit × Tree :=
  match authority.accounts.owner user group with
  | .error f => (.error f, t)
  | .ok owner => t.giveBelow authority owner p

end Tree

end TableSnapshots
