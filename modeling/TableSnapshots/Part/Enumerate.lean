import TableSnapshots.Digest.Hex
import TableSnapshots.Digest.Xxh3
import TableSnapshots.Files
import TableSnapshots.Part.Basic
import TableSnapshots.Text.Lossy

/-!
# Finding frozen parts

A freeze leaves one directory for each data part and no list of them, so the directory listing is
the catalog. A part is told apart by the digest of its manifest, and its data files are only
counted. What vanishes while it is looked at is left out.

Directories are taken to have texts as names. A name of other bytes would be told with replacement
characters, so that it does not lead back to the directory.
-/

namespace TableSnapshots

/-- The name of the manifest that the engine writes into each part. -/
def manifestName : String := "checksums.txt"

/-- The fingerprint of the bytes of a manifest. -/
def fingerprint (bytes : ByteArray) : String :=
  Digest.hex (Digest.xxh3 bytes)

namespace FrozenPart

variable {m : Type → Type} [Monad m]

/-- The fingerprint of the part in a directory. -/
def checksumAt (files : Files m) (dir : Path) : m (Except Fault String) := do
  match ← files.readFile (dir.entry manifestName) with
  | .ok bytes => return .ok (fingerprint bytes)
  | .error fault => return .error fault

/-- The bytes of the files right in a directory. -/
def sizeAt (files : Files m) (dir : Path) : m (Except Fault Nat) := do
  match ← files.listDirectory dir with
  | .ok entries => return .ok (entries.foldr (·.kind.size + ·) 0)
  | .error fault => return .error fault

/-- How the name of a directory is told in a record: its bytes are read as a text in any case. -/
def toldName (name : ByteArray) : String :=
  Text.lossy name

/-- The frozen part of this name in `dir`. -/
def describe (files : Files m) (dir : Path) (database table name : String) :
    m (Except Fault FrozenPart) := do
  let path := dir.entry name
  match ← checksumAt files path with
  | .error fault => return .error fault
  | .ok checksum =>
    match ← sizeAt files path with
    | .error fault => return .error fault
    | .ok size => return .ok { database, table, name := toldName name.toUTF8, path, checksum, size }

/-- The frozen parts of these names in `dir`, without those of which something is missing. -/
def describeAll (files : Files m) (dir : Path) (database table : String) :
    List String → m (Except Fault (List FrozenPart))
  | [] => return .ok []
  | name :: names => do
    match ← describe files dir database table name with
    | .error fault =>
      if fault.kind = .notFound then describeAll files dir database table names
      else return .error fault
    | .ok part =>
      match ← describeAll files dir database table names with
      | .error fault => return .error fault
      | .ok parts => return .ok (part :: parts)

/-- The names of the directories in a listing, in the order of their bytes. -/
def directoryNames (entries : List DirectoryEntry) : List String :=
  ((entries.filter (·.kind = .directory)).map (·.name)).mergeSort fun a b => decide (a ≤ b)

/-- The frozen parts in a directory, in the order of their names. A directory that is not there has
none. -/
def enumerate (files : Files m) (dir : Path) (database table : String) :
    m (Except Fault (List FrozenPart)) := do
  match ← files.listDirectory dir with
  | .error fault => return if fault.kind = .notFound then .ok [] else .error fault
  | .ok entries => describeAll files dir database table (directoryNames entries)

end FrozenPart

end TableSnapshots
