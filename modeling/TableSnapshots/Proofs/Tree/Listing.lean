import TableSnapshots.Proofs.Tree.Confined
import TableSnapshots.Tree.Read

/-!
# Reading what is there

In a tree whose entries all lie in directories, a path that never leads up leads to what there is at
its names (`resolve_of_content`), and nowhere if nothing is there
(`resolve_of_missing`), as long as the operating system takes the path. A directory of a tree as a
file system has it lists each of its entries once (`WellFormed.mem_listing`,
`WellFormed.nodup_listing`), so two directories with the same contents list the same
(`listing_perm`).
-/

namespace TableSnapshots

/-- Only a directory is told to be one. -/
theorem Content.kind_eq_directory_iff {c : Content} : c.kind = .directory ↔ c = .directory := by
  cases c with
  | directory => exact iff_of_true rfl rfl
  | file bytes => exact ⟨nofun, nofun⟩
  | link target => exact ⟨nofun, nofun⟩

namespace Tree

variable {t : Tree} {followLast : Bool}

/-! ## Following a path to its names -/

section Steps

variable {dir : Location} {steps : List Step}

/-- Steps that do not lead up arrive at the directory that is there at their names, or at the file
if the last step goes to a name. -/
theorem advance_of_content (ht : t.Nested) (hup : .up ∉ steps)
    (hshort : ∀ s ∈ steps.filterMap Step.name?, s.utf8ByteSize ≤ nameLimit)
    (h : t.content? (dir ++ steps.filterMap Step.name?) = some .directory ∨
      (∃ bytes, t.content? (dir ++ steps.filterMap Step.name?) = some (.file bytes)) ∧
        ∃ s, steps.getLast? = some (.name s)) :
    t.advance followLast dir steps = .ok (.arrived (dir ++ steps.filterMap Step.name?)) := by
  induction steps generalizing dir with
  | nil => rw [advance, List.filterMap_nil, List.append_nil]
  | cons step rest ih =>
    have hup' : .up ∉ rest := fun hmem => hup (List.mem_cons_of_mem step hmem)
    cases step with
    | here =>
      refine ih hup' hshort (h.imp_right fun hfile => ⟨hfile.1, ?_⟩)
      obtain ⟨-, s, hlast⟩ := hfile
      refine ⟨s, ?_⟩
      cases rest with
      | nil => cases hlast
      | cons next rest => rwa [List.getLast?_cons_cons] at hlast
    | up => exact absurd List.mem_cons_self hup
    | name s =>
      rw [List.filterMap_cons_some (show (Step.name s).name? = some s from rfl)] at *
      have hs : ¬ nameLimit < s.utf8ByteSize := Nat.not_lt.mpr (hshort s List.mem_cons_self)
      have hsplit := List.append_cons dir s (rest.filterMap Step.name?)
      rw [advance_name, if_neg hs, hsplit]
      rw [hsplit] at h
      by_cases hrest : rest = []
      · subst hrest
        rw [List.filterMap_nil, List.append_nil] at h ⊢
        rcases h with hdirectory | ⟨⟨bytes, hfile⟩, -⟩
        · rw [hdirectory]
          rfl
        · rw [hfile]
          rfl
      · -- There is more of the path to go, so this name is one of a directory.
        have hdirectory : t.content? (dir ++ [s]) = some .directory := by
          by_cases hnames : rest.filterMap Step.name? = []
          · rw [hnames, List.append_nil] at h
            refine h.resolve_right fun hfile => ?_
            obtain ⟨-, s', hlast⟩ := hfile
            rw [List.getLast?_cons_of_ne_nil hrest] at hlast
            have hmem : s' ∈ rest.filterMap Step.name? :=
              List.mem_filterMap.mpr ⟨_, List.mem_of_getLast? hlast, rfl⟩
            rw [hnames] at hmem
            cases hmem
          · rcases h with hdirectory | ⟨⟨bytes, hfile⟩, -⟩
            · exact ht.directory hnames (node?_ne_none hdirectory)
            · exact ht.directory hnames (node?_ne_none hfile)
        rw [hdirectory]
        refine ih hup' (fun s' hs' => hshort s' (List.mem_cons_of_mem s hs')) ?_
        rwa [List.getLast?_cons_of_ne_nil hrest] at h

/-- Steps that do not lead up end at a name that is not there, after those of a directory. -/
theorem advance_of_missing (ht : t.Nested) (hup : .up ∉ steps) {q r : List String} {s : String}
    (hsteps : steps.filterMap Step.name? = q ++ s :: r)
    (hshort : ∀ s ∈ steps.filterMap Step.name?, s.utf8ByteSize ≤ nameLimit)
    (hdirectory : t.content? (dir ++ q) = some .directory)
    (hnone : t.node? (dir ++ q ++ [s]) = none) :
    t.advance followLast dir steps = .error .missing := by
  induction steps generalizing dir q with
  | nil => cases q <;> cases hsteps
  | cons step rest ih =>
    have hup' : .up ∉ rest := fun hmem => hup (List.mem_cons_of_mem step hmem)
    cases step with
    | here => exact ih hup' hsteps hshort hdirectory hnone
    | up => exact absurd List.mem_cons_self hup
    | name s' =>
      rw [List.filterMap_cons_some (show (Step.name s').name? = some s' from rfl)] at *
      have hs : ¬ nameLimit < s'.utf8ByteSize := Nat.not_lt.mpr (hshort s' List.mem_cons_self)
      rw [advance_name, if_neg hs]
      cases q with
      | nil =>
        obtain ⟨rfl, -⟩ := List.cons.inj hsteps
        rw [List.append_nil] at hnone
        rw [content?, hnone]
        rfl
      | cons s'' q =>
        obtain ⟨rfl, hrest⟩ := List.cons.inj hsteps
        rw [List.append_cons dir s' q] at hdirectory hnone
        have hnext : t.content? (dir ++ [s']) = some .directory := by
          by_cases hq : q = []
          · rwa [hq, List.append_nil] at hdirectory
          · exact ht.directory hq (node?_ne_none hdirectory)
        rw [hnext]
        exact ih hup' hrest (fun s hs => hshort s (List.mem_cons_of_mem s' hs)) hdirectory hnone

end Steps

section Paths

variable {p : Path} (ht : t.Nested) (hp : p.text ≠ "") (hup : .up ∉ p.components)
  (hadmissible : Admissible p)
include ht hp hup hadmissible

/-- A path leads to its names if a directory is there, or a file and the path ends in a name. -/
theorem resolve_of_content (h : t.content? p.names = some .directory ∨
      (∃ bytes, t.content? p.names = some (.file bytes)) ∧ p.EndsInName) :
    t.resolve followLast p = .ok p.names := by
  have hadvance : t.advance followLast [] (Step.ofText p.text) = .ok (.arrived p.names) := by
    have hlast := h.imp_right fun hfile => And.imp_right (·.getLast?_ofText hp hup) hfile
    rw [← Step.filterMap_name?_ofText] at hlast ⊢
    refine advance_of_content ht (mt Step.up_mem_ofText hup) ?_ hlast
    rw [Step.filterMap_name?_ofText]
    exact hadmissible.short
  rw [resolve_eq_walk (checkText_eq_ok hadmissible.zero hp hadmissible.length)]
  exact walk_of_arrived hadvance

/-- A path with the names of a directory leads there. -/
theorem resolve_of_directory (h : t.content? p.names = some .directory) :
    t.resolve followLast p = .ok p.names :=
  resolve_of_content ht hp hup hadmissible (.inl h)

/-- A path with a name that a directory on its way does not have leads nowhere. -/
theorem resolve_of_missing {q r : List String} {s : String} (hnames : p.names = q ++ s :: r)
    (hdirectory : t.content? q = some .directory) (hnone : t.node? (q ++ [s]) = none) :
    t.resolve followLast p = .error .missing := by
  have hadvance : t.advance followLast [] (Step.ofText p.text) = .error .missing := by
    rw [← Step.filterMap_name?_ofText] at hnames
    refine advance_of_missing ht (mt Step.up_mem_ofText hup) hnames ?_ hdirectory hnone
    rw [Step.filterMap_name?_ofText]
    exact hadmissible.short
  rw [resolve_eq_walk (checkText_eq_ok hadmissible.zero hp hadmissible.length)]
  exact walk_of_error hadvance

/-- Nothing is listed where nothing is. -/
theorem listDirectory_of_missing {q r : List String} {s : String} (hnames : p.names = q ++ s :: r)
    (hdirectory : t.content? q = some .directory) (hnone : t.node? (q ++ [s]) = none) :
    t.listDirectory p = .error .missing := by
  unfold listDirectory
  rw [resolve_of_missing ht hp hup hadmissible hnames hdirectory hnone]
  rfl

end Paths

/-- The bytes that are read are those of the file that the path leads to. -/
theorem readFile_eq_ok_iff {p : Path} {bytes : ByteArray} : t.readFile p = .ok bytes ↔
    ∃ loc, t.resolve true p = .ok loc ∧ t.content? loc = some (.file bytes) := by
  unfold readFile
  constructor
  · intro h
    cases hloc : t.resolve true p with
    | error fault =>
      rw [hloc] at h
      cases h
    | ok loc =>
      rw [hloc] at h
      dsimp only [bind, Except.bind] at h
      split at h
      · next hfile =>
        cases h
        exact ⟨loc, rfl, hfile⟩
      · cases h
      · cases h
  · rintro ⟨loc, hloc, hfile⟩
    rw [hloc]
    dsimp only [bind, Except.bind]
    rw [hfile]
    rfl

/-- Reading the file at the names of a path gives its bytes, if the path ends in a name. -/
theorem readFile_of_file {p : Path} (ht : t.Nested) (hp : p.Direct) (hadmissible : Admissible p)
    {bytes : ByteArray} (h : t.content? p.names = some (.file bytes)) :
    t.readFile p = .ok bytes := by
  have hresolve : t.resolve true p = .ok p.names :=
    resolve_of_content ht hp.text hp.up hadmissible (.inr ⟨⟨bytes, h⟩, hp.toEndsInName⟩)
  exact readFile_eq_ok_iff.mpr ⟨p.names, hresolve, h⟩

/-! ## The entries of a directory -/

/-- What a directory tells of its entries. -/
def listing (t : Tree) (dir : Location) : List DirectoryEntry :=
  (t.children dir).map fun (name, n) => { name, kind := n.content.kind }

/-- An entry of a directory is where its name leads from there. -/
theorem childName?_eq_some_iff {dir l : Location} {s : String} :
    childName? dir l = some s ↔ l = dir ++ [s] := by
  unfold childName?
  constructor
  · intro h
    split at h
    · next hchild =>
      rw [Bool.and_eq_true, decide_eq_true_eq, decide_eq_true_eq] at hchild
      obtain ⟨ys, rfl⟩ := List.getLast?_eq_some_iff.mp h
      rw [← hchild.2, List.dropLast_concat]
    · cases h
  · rintro rfl
    simp

/-- The names that a directory tells are those of the locations right in it. -/
theorem map_name_listing (t : Tree) (dir : Location) :
    (t.listing dir).map (·.name) = (t.entries.map (·.1)).filterMap (childName? dir) := by
  unfold listing children
  rw [List.map_map, List.map_filterMap, List.filterMap_map]
  refine List.filterMap_congr fun e _ => ?_
  rw [Option.map_map]
  exact Option.map_id'

/-- Listing a directory tells its entries. -/
theorem listDirectory_of_resolve {p : Path} {l : Location} (hl : t.resolve true p = .ok l)
    (h : t.content? l = some .directory) : t.listDirectory p = .ok (t.listing l) := by
  unfold listDirectory
  rw [hl]
  dsimp only [bind, Except.bind]
  rw [h]
  rfl

/-- What can be listed is a directory. -/
theorem exists_of_listDirectory {p : Path} {entries : List DirectoryEntry}
    (h : t.listDirectory p = .ok entries) :
    ∃ loc, t.resolve true p = .ok loc ∧ t.content? loc = some .directory := by
  unfold listDirectory at h
  cases hloc : t.resolve true p with
  | error fault =>
    rw [hloc] at h
    cases h
  | ok loc =>
    rw [hloc] at h
    dsimp only [bind, Except.bind] at h
    split at h
    · next hcontent => exact ⟨loc, rfl, hcontent⟩
    · cases h
    · cases h

namespace WellFormed

variable {dir : Location}

/-- The entries right in a directory are the nodes one name further on. -/
theorem mem_children (ht : t.WellFormed) {s : String} {n : Node} :
    (s, n) ∈ t.children dir ↔ t.node? (dir ++ [s]) = some n := by
  rw [ht.node?_eq_some_iff (by simp)]
  unfold children
  rw [List.mem_filterMap]
  constructor
  · rintro ⟨⟨l, n'⟩, he, hchild⟩
    obtain ⟨s', hs', hpair⟩ := Option.map_eq_some_iff.mp hchild
    cases hpair
    rwa [← childName?_eq_some_iff.mp hs']
  · intro he
    refine ⟨_, he, ?_⟩
    dsimp only
    rw [childName?_eq_some_iff.mpr rfl]
    rfl

/-- A directory tells what there is one name further on. -/
theorem mem_listing (ht : t.WellFormed) {e : DirectoryEntry} :
    e ∈ t.listing dir ↔ ∃ c, t.content? (dir ++ [e.name]) = some c ∧ c.kind = e.kind := by
  unfold listing content?
  rw [List.mem_map]
  constructor
  · rintro ⟨⟨s, n⟩, hchild, rfl⟩
    exact ⟨n.content, by rw [ht.mem_children.mp hchild]; rfl, rfl⟩
  · rintro ⟨c, hc, hkind⟩
    obtain ⟨n, hn, rfl⟩ := Option.map_eq_some_iff.mp hc
    refine ⟨(e.name, n), ht.mem_children.mpr hn, ?_⟩
    dsimp only
    rw [hkind]

/-- No name is listed twice, since a name is that of one location only. -/
theorem nodup_listing (ht : t.WellFormed) : ((t.listing dir).map (·.name)).Nodup := by
  rw [map_name_listing]
  refine ht.distinct.filterMap fun l l' s hs hs' => ?_
  rw [childName?_eq_some_iff.mp hs, childName?_eq_some_iff.mp hs']

end WellFormed

/-- Directories with the same contents list the same. -/
theorem listing_perm {t' : Tree} (ht : t.WellFormed) (ht' : t'.WellFormed) {dir dir' : Location}
    (h : ∀ s, t.content? (dir ++ [s]) = t'.content? (dir' ++ [s])) :
    (t.listing dir).Perm (t'.listing dir') := by
  have hnodup : ∀ es : List DirectoryEntry, (es.map (·.name)).Nodup → es.Nodup :=
    fun es => List.Nodup.of_map _
  rw [List.perm_ext_iff_of_nodup (hnodup _ ht.nodup_listing) (hnodup _ ht'.nodup_listing)]
  intro e
  rw [ht.mem_listing, ht'.mem_listing, h]

end Tree

end TableSnapshots
