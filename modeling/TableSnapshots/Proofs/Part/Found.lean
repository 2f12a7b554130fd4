import TableSnapshots.Part.Enumerate
import TableSnapshots.Proofs.Text.Bytes
import TableSnapshots.Proofs.World.Session

/-!
# The parts that a tree holds

Which parts a directory of a file tree holds, said of the tree alone (`Tree.parts`). Looking for
them finds exactly these in every file system that shows the tree (`Files.Shows`), in whatever order
it lists the entries of a directory, since the names are sorted and the sizes are added up
(`enumerate_shows`). The host of a world shows its tree, and looking for parts changes nothing there
(`enumerate_host`).
-/

namespace TableSnapshots

namespace Tree

/-- The part of this name in a directory. -/
def part (t : Tree) (dir : Path) (database table name : String) : Except Fault FrozenPart := do
  let path := dir.entry name
  let manifest ← t.readFile (path.entry manifestName)
  let entries ← t.listDirectory path
  return {
    database, table, name, path
    checksum := fingerprint manifest
    size := entries.foldr (·.kind.size + ·) 0 }

/-- Whether something was missing. -/
def isMissing {α : Type} : Except Fault α → Bool
  | .error fault => fault.kind = .notFound
  | .ok _ => false

/-- The parts in a directory, in the order of their names. What is missing is left out, and so are
all parts if the directory is missing. Any other fault is the answer. -/
def parts (t : Tree) (dir : Path) (database table : String) : Except Fault (List FrozenPart) :=
  match t.listDirectory dir with
  | .error fault => if fault.kind = .notFound then .ok [] else .error fault
  | .ok entries =>
    (((FrozenPart.directoryNames entries).map (t.part dir database table)).filter
      fun r => !isMissing r).mapM id

end Tree

/-! ## File systems that show a tree -/

/-- Two listings tell the same entries, each in its own order, or have the same fault. -/
inductive Relisted : Except Fault (List DirectoryEntry) → Except Fault (List DirectoryEntry) → Prop
  /-- Neither tells anything. -/
  | error (fault : Fault) : Relisted (.error fault) (.error fault)
  /-- They tell the same. -/
  | ok {entries entries' : List DirectoryEntry} (perm : entries.Perm entries') :
      Relisted (.ok entries) (.ok entries')

/-- In the states of `I` a file system shows a tree. Files are read as they are there, and the
entries of a directory are listed in any order, which may be another one each time. -/
structure Files.Shows {S : Type} (files : Files (StateM S)) (I : S → Prop) (t : Tree) : Prop where
  /-- Files are read as in the tree. -/
  readFile : ∀ {s : S}, I s → ∀ p, ∃ s', (files.readFile p).run s = (t.readFile p, s') ∧ I s'
  /-- Directories are listed as in the tree, but for the order. -/
  listDirectory : ∀ {s : S}, I s → ∀ p, ∃ answer s',
    (files.listDirectory p).run s = (answer, s') ∧ Relisted (t.listDirectory p) answer ∧ I s'

/-- The host of a world shows its tree and leaves the world as it is. -/
theorem World.shows_host {σ : Type} (engine : Engine σ) (delegate : Delegate) (w : World σ) :
    (World.host engine delegate).toFiles.Shows (· = w) w.tree where
  readFile := by
    rintro s rfl p
    exact ⟨s, rfl, rfl⟩
  listDirectory := by
    rintro s rfl p
    refine ⟨s.tree.listDirectory p, s, rfl, ?_, rfl⟩
    cases s.tree.listDirectory p with
    | error fault => exact .error fault
    | ok entries => exact .ok (.refl entries)

/-- Sorted names are in order. -/
theorem pairwise_mergeSort_le (names : List String) :
    (names.mergeSort fun a b => decide (a ≤ b)).Pairwise (· ≤ ·) := by
  refine (List.pairwise_mergeSort (fun a b c hab hbc => ?_) (fun a b => ?_) names).imp
    of_decide_eq_true
  · rw [decide_eq_true_eq] at *
    exact String.le_trans hab hbc
  · rw [Bool.or_eq_true, decide_eq_true_eq, decide_eq_true_eq]
    exact String.le_total a b

/-- The same names are sorted to the same list. -/
theorem eq_of_perm_of_pairwise_le {names names' : List String} (h : names.Perm names')
    (hnames : names.Pairwise (· ≤ ·)) (hnames' : names'.Pairwise (· ≤ ·)) : names = names' :=
  h.eq_of_pairwise (fun _ _ _ _ => String.le_antisymm) hnames hnames'

namespace FrozenPart

/-- The order of a listing does not count for the directories in it. -/
theorem directoryNames_of_perm {entries entries' : List DirectoryEntry}
    (h : entries.Perm entries') : directoryNames entries = directoryNames entries' := by
  refine eq_of_perm_of_pairwise_le ?_ (pairwise_mergeSort_le _) (pairwise_mergeSort_le _)
  exact (List.mergeSort_perm _ _).trans
    (((h.filter _).map _).trans (List.mergeSort_perm _ _).symm)

/-- Nor does it count for the bytes. -/
theorem sizes_of_perm {entries entries' : List DirectoryEntry} (h : entries.Perm entries') :
    entries.foldr (·.kind.size + ·) 0 = entries'.foldr (·.kind.size + ·) 0 := by
  refine h.foldr_eq' ?_ 0
  intro e _ e' _ n
  exact Nat.add_left_comm _ _ _

/-- A name that is a text is told as it is. -/
theorem toldName_toUTF8 (name : String) : toldName name.toUTF8 = name :=
  Text.lossy_toUTF8 name

section Shows

variable {S : Type} {files : Files (StateM S)} {I : S → Prop} {t : Tree}
  (hfiles : files.Shows I t) {s : S} (hs : I s) (dir : Path) (database table : String)
include hfiles hs

/-- The fingerprint of a part is that of its manifest in the tree. -/
theorem checksumAt_shows : ∃ s', (checksumAt files dir).run s
    = ((t.readFile (dir.entry manifestName)).map fingerprint, s') ∧ I s' := by
  obtain ⟨s', hread, hs'⟩ := hfiles.readFile hs (dir.entry manifestName)
  refine ⟨s', ?_, hs'⟩
  unfold checksumAt
  rw [run_bind_of_eq hread]
  cases t.readFile (dir.entry manifestName) <;> rfl

/-- The size of a part is that of the files right in its directory in the tree. -/
theorem sizeAt_shows : ∃ s', (sizeAt files dir).run s
    = ((t.listDirectory dir).map fun entries => entries.foldr (·.kind.size + ·) 0, s') ∧ I s' := by
  obtain ⟨answer, s', hlist, hanswer, hs'⟩ := hfiles.listDirectory hs dir
  refine ⟨s', ?_, hs'⟩
  unfold sizeAt
  rw [run_bind_of_eq hlist]
  generalize t.listDirectory dir = told at hanswer ⊢
  cases hanswer with
  | error fault => rfl
  | ok hperm => exact congrArg (fun n => (Except.ok n, s')) (sizes_of_perm hperm).symm

/-- A part is described as it is in the tree. -/
theorem describe_shows (name : String) : ∃ s', (describe files dir database table name).run s
    = (t.part dir database table name, s') ∧ I s' := by
  obtain ⟨s₁, hchecksum, hs₁⟩ := checksumAt_shows hfiles hs (dir.entry name)
  unfold describe Tree.part
  dsimp only
  rw [run_bind_of_eq hchecksum]
  cases t.readFile ((dir.entry name).entry manifestName) with
  | error fault => exact ⟨s₁, rfl, hs₁⟩
  | ok manifest =>
    obtain ⟨s₂, hsize, hs₂⟩ := sizeAt_shows hfiles hs₁ (dir.entry name)
    refine ⟨s₂, ?_, hs₂⟩
    dsimp only [Except.map]
    rw [run_bind_of_eq hsize]
    rw [toldName_toUTF8]
    cases t.listDirectory (dir.entry name) <;> rfl

/-- Parts are described one after the other as they are in the tree, without the missing ones. -/
theorem describeAll_shows (names : List String) :
    ∃ s', (describeAll files dir database table names).run s
      = (((names.map (t.part dir database table)).filter
          fun r => !Tree.isMissing r).mapM id, s') ∧ I s' := by
  induction names generalizing s with
  | nil => exact ⟨s, rfl, hs⟩
  | cons name names ih =>
    obtain ⟨s₁, hpart, hs₁⟩ := describe_shows hfiles hs dir database table name
    unfold describeAll
    rw [run_bind_of_eq hpart, List.map_cons]
    cases t.part dir database table name with
    | error fault =>
      by_cases hmissing : fault.kind = .notFound
      · rw [List.filter_cons_of_neg (by simp [Tree.isMissing, hmissing])]
        dsimp only
        rw [if_pos hmissing]
        exact ih hs₁
      · rw [List.filter_cons_of_pos (by simp [Tree.isMissing, hmissing]), List.mapM_cons]
        dsimp only
        rw [if_neg hmissing]
        exact ⟨s₁, rfl, hs₁⟩
    | ok part =>
      obtain ⟨s₂, hrest, hs₂⟩ := ih hs₁
      refine ⟨s₂, ?_, hs₂⟩
      rw [List.filter_cons_of_pos (by rfl), List.mapM_cons]
      dsimp only
      rw [run_bind_of_eq hrest]
      cases ((names.map (t.part dir database table)).filter
        fun r => !Tree.isMissing r).mapM id <;> rfl

/-- The parts that are found are those in the tree. -/
theorem enumerate_shows : ∃ s', (enumerate files dir database table).run s
    = (t.parts dir database table, s') ∧ I s' := by
  obtain ⟨answer, s₁, hlist, hanswer, hs₁⟩ := hfiles.listDirectory hs dir
  unfold enumerate Tree.parts
  rw [run_bind_of_eq hlist]
  generalize t.listDirectory dir = told at hanswer ⊢
  cases hanswer with
  | error fault => exact ⟨s₁, rfl, hs₁⟩
  | ok hperm =>
    dsimp only
    rw [directoryNames_of_perm hperm]
    exact describeAll_shows hfiles hs₁ dir database table _

end Shows

/-- In a world nothing changes while parts are looked for. -/
theorem enumerate_host {σ : Type} (engine : Engine σ) (delegate : Delegate) (w : World σ)
    (dir : Path) (database table : String) :
    (enumerate (World.host engine delegate).toFiles dir database table).run w
      = (w.tree.parts dir database table, w) := by
  obtain ⟨w', hrun, rfl⟩ :=
    enumerate_shows (World.shows_host engine delegate w) rfl dir database table
  exact hrun

end FrozenPart

end TableSnapshots
