import TableSnapshots.Proofs.Part.Apart
import TableSnapshots.Proofs.Text.Bytes
import TableSnapshots.Proofs.Tree.Entry

/-!
# The catalog of parts

A directory is the catalog of the parts in it: each directory right in it whose manifest can be read
is a part, and no other entry is one. The parts are listed once each, in the order of the bytes of
their names, whatever the order in which the file system lists the entries
(`enumerate_catalog`). A directory without a manifest is left out (`readFile_of_vacant`). A manifest
that cannot be read for another reason than being missing spoils the whole catalog
(`Tree.Spoils`), also if it is a link that leads nowhere because a file stands on its way
(`not_left_out_of_link`).

All this is about trees in which the names of entries are texts. Of other bytes two names could be
told as the same one.
-/

namespace TableSnapshots

namespace Tree

variable {t : Tree} {dir : Path} {loc : Location} {database table name : String}

/-- What is read as the manifest of the directory `name` in `dir`. -/
def manifest (t : Tree) (dir : Path) (name : String) : Except Fault ByteArray :=
  t.readFile ((dir.entry name).entry manifestName)

/-- The bytes of the files right in a directory. Links and directories have none, and what lies
further below does not count. -/
def bytesIn (t : Tree) (dir : Location) : Nat :=
  (t.entries.filter fun e => (childName? dir e.1).isSome).foldr (·.2.content.kind.size + ·) 0

/-- A directory right in `loc`, where `dir` leads, has a manifest that cannot be read for another
reason than being missing. -/
structure Spoils (t : Tree) (dir : Path) (loc : Location) (name : String) (fault : Fault) :
    Prop where
  /-- It is a directory itself, and no link to one. -/
  directory : t.content? (loc ++ [name]) = some .directory
  /-- Reading the manifest has this fault. -/
  unread : t.manifest dir name = .error fault
  /-- The fault is another one than that nothing is there. -/
  kind : fault.kind ≠ .notFound

/-! ## The part of a directory -/

/-- A listing adds up to the bytes of the files right in the directory. -/
theorem sizes_listing (t : Tree) (dir : Location) :
    (t.listing dir).foldr (·.kind.size + ·) 0 = t.bytesIn dir := by
  unfold listing children bytesIn
  rw [List.foldr_map]
  induction t.entries with
  | nil => rfl
  | cons e entries ih =>
    obtain ⟨l, n⟩ := e
    dsimp only at ih ⊢
    cases hname : childName? dir l with
    | none =>
      rw [List.filterMap_cons_none (by rw [hname]; rfl),
        List.filter_cons_of_neg (by rw [hname]; exact Bool.false_ne_true)]
      exact ih
    | some s =>
      rw [List.filterMap_cons_some (by rw [hname]; rfl),
        List.filter_cons_of_pos (by rw [hname]; rfl), List.foldr_cons, List.foldr_cons, ih]

/-- A directory right in another one is a part if its manifest can be read. -/
theorem WellFormed.part_eq (ht : t.WellFormed) (h : t.resolve true dir = .ok loc)
    (hloc : t.content? loc = some .directory)
    (hname : t.content? (loc ++ [name]) = some .directory) :
    t.part dir database table name = (t.manifest dir name).map fun bytes =>
      { database, table, name
        path := dir.entry name
        checksum := fingerprint bytes
        size := t.bytesIn (loc ++ [name]) } := by
  unfold part
  dsimp only
  change (t.manifest dir name >>= _) = _
  cases hread : t.manifest dir name with
  | error fault => rfl
  | ok bytes =>
    -- The way to the manifest leads through the directory, so it can be listed as well.
    have hentry := resolve_of_readFile_entry (ht.isName (node?_ne_none hname)) (by decide) h hloc
      hname hread
    dsimp only [bind, Except.bind]
    rw [listDirectory_of_resolve hentry hname, ← sizes_listing]
    rfl

/-! ## Attempts to describe parts -/

section Attempts

variable {α : Type} {f : String → Except Fault α} {names : List String}

/-- If what fails is missing, the others are the result. -/
theorem mapM_filter_of_missing
    (h : ∀ name ∈ names, ∀ fault, f name = .error fault → fault.kind = .notFound) :
    ((names.map f).filter fun r => !isMissing r).mapM id
      = .ok (names.filterMap fun name => (f name).toOption) := by
  rw [mapM_id_eq_ok_iff]
  induction names with
  | nil => rfl
  | cons name names ih =>
    have hrest := ih fun name' hname' => h name' (List.mem_cons_of_mem name hname')
    rw [List.map_cons]
    cases hf : f name with
    | error fault =>
      have hkind := h name List.mem_cons_self fault hf
      rw [List.filter_cons_of_neg (by simp [isMissing_error hkind]), hrest,
        List.filterMap_cons_none (by rw [hf]; rfl)]
    | ok a =>
      rw [List.filter_cons_of_pos (by rfl), hrest, List.filterMap_cons_some (by rw [hf]; rfl)]
      rfl

/-- Any other fault is the result if nothing else failed before, other than for being missing. -/
theorem mapM_filter_of_fault {before after : List String} {name : String} {fault : Fault}
    (h : ∀ name ∈ before, ∀ fault, f name = .error fault → fault.kind = .notFound)
    (hname : f name = .error fault) (hkind : fault.kind ≠ .notFound) :
    (((before ++ name :: after).map f).filter fun r => !isMissing r).mapM id = .error fault := by
  have hstay : (!isMissing (f name)) = true := by
    rw [hname]
    simpa [isMissing] using hkind
  rw [List.map_append, List.filter_append, List.mapM_append, mapM_filter_of_missing h, List.map_cons,
    List.filter_cons_of_pos (by exact hstay), List.mapM_cons, hname]
  rfl

/-- There is a first such fault if there is one. -/
theorem exists_first_fault
    (h : ∃ name ∈ names, ∃ fault, f name = .error fault ∧ fault.kind ≠ .notFound) :
    ∃ before first after fault, names = before ++ first :: after ∧
      (∀ name ∈ before, ∀ fault, f name = .error fault → fault.kind = .notFound) ∧
      f first = .error fault ∧ fault.kind ≠ .notFound := by
  induction names with
  | nil =>
    obtain ⟨_, hnil, -⟩ := h
    cases hnil
  | cons name names ih =>
    -- Either the first name has such a fault, or all of them are those of the other names.
    by_cases hhead : ∃ fault, f name = .error fault ∧ fault.kind ≠ .notFound
    · obtain ⟨fault, hname, hkind⟩ := hhead
      exact ⟨[], name, names, fault, rfl, nofun, hname, hkind⟩
    · have hrest : ∃ name ∈ names, ∃ fault, f name = .error fault ∧ fault.kind ≠ .notFound := by
        obtain ⟨name', hname', hfault⟩ := h
        refine ⟨name', (List.mem_cons.mp hname').resolve_left ?_, hfault⟩
        rintro rfl
        exact hhead hfault
      obtain ⟨before, first, after, fault, rfl, hbefore, hfirst, hkind⟩ := ih hrest
      refine ⟨name :: before, first, after, fault, rfl, fun name' hname' fault' hfault' => ?_,
        hfirst, hkind⟩
      rcases List.mem_cons.mp hname' with rfl | hmem
      · by_contra hne
        exact hhead ⟨fault', hfault', hne⟩
      · exact hbefore name' hmem fault' hfault'

end Attempts

/-! ## The parts of a directory -/

section Catalog

variable (ht : t.WellFormed) (h : t.resolve true dir = .ok loc)
  (hloc : t.content? loc = some .directory)
include ht

/-- The directories in another one are told in the order of their names, once each. -/
theorem WellFormed.pairwise_directoryNames (loc : Location) :
    (FrozenPart.directoryNames (t.listing loc)).Pairwise (· < ·) := by
  have hle := pairwise_mergeSort_le
    (((t.listing loc).filter (·.kind = .directory)).map (·.name))
  exact (hle.and (ht.nodup_directoryNames loc)).imp fun hab =>
    String.not_le.mp fun hba => hab.2 (String.le_antisymm hab.1 hba)

include h hloc

/-- A part that is described with a fault is that of a directory whose manifest is read with it. -/
theorem WellFormed.manifest_of_part (hname : name ∈ FrozenPart.directoryNames (t.listing loc))
    {fault : Fault} (hpart : t.part dir database table name = .error fault) :
    t.content? (loc ++ [name]) = some .directory ∧ t.manifest dir name = .error fault := by
  have hdirectory := ht.mem_directoryNames.mp hname
  rw [ht.part_eq h hloc hdirectory] at hpart
  cases hread : t.manifest dir name with
  | error fault' =>
    rw [hread] at hpart
    cases hpart
    exact ⟨hdirectory, rfl⟩
  | ok bytes =>
    rw [hread] at hpart
    cases hpart

/-- The parts in a directory, as long as nothing spoils them. -/
theorem WellFormed.parts_of_unspoiled (hspoils : ∀ name fault, ¬ t.Spoils dir loc name fault) :
    ∃ listed, t.parts dir database table = .ok listed ∧
      listed.Pairwise (fun part part' => Text.bytes part.name < Text.bytes part'.name) ∧
      ∀ part, part ∈ listed ↔ ∃ name bytes, t.content? (loc ++ [name]) = some .directory ∧
        t.manifest dir name = .ok bytes ∧ part = {
          database, table, name
          path := dir.entry name
          checksum := fingerprint bytes
          size := t.bytesIn (loc ++ [name]) } := by
  have hmissing : ∀ name ∈ FrozenPart.directoryNames (t.listing loc), ∀ fault,
      t.part dir database table name = .error fault → fault.kind = .notFound := by
    intro name hname fault hpart
    obtain ⟨hdirectory, hread⟩ := ht.manifest_of_part h hloc hname hpart
    by_contra hkind
    exact hspoils name fault ⟨hdirectory, hread, hkind⟩
  have hlisted := mapM_filter_of_missing hmissing
  have hparts : t.parts dir database table = .ok ((FrozenPart.directoryNames
      (t.listing loc)).filterMap fun name => (t.part dir database table name).toOption) := by
    unfold parts
    rw [listDirectory_of_resolve h hloc]
    exact hlisted
  refine ⟨_, hparts, ?_, fun part => ?_⟩
  · have hnames := (ht.pairwise_directoryNames loc).sublist
      (sublist_of_parts (mapM_id_eq_ok_iff.mp hlisted))
    exact (List.pairwise_map.mp hnames).imp Text.lt_iff_bytes_lt.mp
  · rw [List.mem_filterMap]
    constructor
    · rintro ⟨name, hname, hpart⟩
      have hdirectory := ht.mem_directoryNames.mp hname
      rw [ht.part_eq h hloc hdirectory] at hpart
      cases hread : t.manifest dir name with
      | error fault =>
        rw [hread] at hpart
        cases hpart
      | ok bytes =>
        rw [hread] at hpart
        exact ⟨name, bytes, hdirectory, hread, (Option.some.inj hpart).symm⟩
    · rintro ⟨name, bytes, hdirectory, hread, rfl⟩
      refine ⟨name, ht.mem_directoryNames.mpr hdirectory, ?_⟩
      rw [ht.part_eq h hloc hdirectory, hread]
      rfl

/-- The first of those that spoil them decides what the fault is. -/
theorem WellFormed.parts_of_spoiled {fault : Fault} (hspoils : t.Spoils dir loc name fault) :
    ∃ first fault', t.Spoils dir loc first fault' ∧
      (∀ other fault'', t.Spoils dir loc other fault'' →
        ¬ Text.bytes other < Text.bytes first) ∧
      t.parts dir database table = .error fault' := by
  have hfault : ∀ {name fault}, t.Spoils dir loc name fault →
      name ∈ FrozenPart.directoryNames (t.listing loc) ∧
        t.part dir database table name = .error fault := by
    intro name fault hname
    refine ⟨ht.mem_directoryNames.mpr hname.directory, ?_⟩
    rw [ht.part_eq h hloc hname.directory, hname.unread]
    rfl
  obtain ⟨before, first, after, fault', hnames, hbefore, hfirst, hkind⟩ :=
    exists_first_fault ⟨name, (hfault hspoils).1, fault, (hfault hspoils).2, hspoils.kind⟩
  have hmem : first ∈ FrozenPart.directoryNames (t.listing loc) := by
    rw [hnames]
    exact List.mem_append_right _ List.mem_cons_self
  obtain ⟨hdirectory, hread⟩ := ht.manifest_of_part h hloc hmem hfirst
  refine ⟨first, fault', ⟨hdirectory, hread, hkind⟩, fun other fault'' hother hlt => ?_, ?_⟩
  · -- A lower name comes before the first one, but those before it do not spoil anything.
    obtain ⟨hin, hpart⟩ := hfault hother
    have hsorted := ht.pairwise_directoryNames loc
    rw [hnames] at hin hsorted
    have hlower := Text.lt_iff_bytes_lt.mpr hlt
    rcases List.mem_append.mp hin with hin | hin
    · exact hother.kind (hbefore other hin fault'' hpart)
    · rcases List.mem_cons.mp hin with rfl | hin
      · exact String.lt_irrefl _ hlower
      · have hafter := (List.pairwise_cons.mp (List.pairwise_append.mp hsorted).2.1).1 other hin
        exact String.lt_asymm hlower hafter
  · unfold parts
    rw [listDirectory_of_resolve h hloc]
    dsimp only
    rw [hnames]
    exact mapM_filter_of_fault hbefore hfirst hkind

end Catalog

end Tree

namespace FrozenPart

/-- Looking for parts in a directory finds none if opening it says that nothing is there, and any
other fault of opening it is the result. In a directory that can be listed there is one part for
each directory right in it whose manifest can be read, with the fingerprint of the manifest and the
bytes of the files right in that directory; they are listed in the order of the bytes of their
names, and no other parts are. If a manifest cannot be read for another reason than being missing,
the fault of the first such one is the result. A manifest is missing if nothing is there or if a
link dangles there, as long as the operating system takes the path and follows all links on it. The
names of all entries are texts. -/
theorem enumerate_catalog {S : Type} {files : Files (StateM S)} {I : S → Prop} {t : Tree}
    (hfiles : files.Shows I t) (ht : t.WellFormed) {s : S} (hs : I s) (dir : Path)
    (database table : String) :
    ∃ answer s', (enumerate files dir database table).run s = (answer, s') ∧
      (∀ fault, t.listDirectory dir = .error fault →
        answer = if fault.kind = .notFound then .ok [] else .error fault) ∧
      ∀ entries, t.listDirectory dir = .ok entries →
        ∃ loc, t.resolve true dir = .ok loc ∧ t.content? loc = some .directory ∧
          ((∀ name fault, ¬ t.Spoils dir loc name fault) →
            ∃ listed, answer = .ok listed ∧
              listed.Pairwise (fun part part' => Text.bytes part.name < Text.bytes part'.name) ∧
              ∀ part, part ∈ listed ↔
                ∃ name bytes, t.content? (loc ++ [name]) = some .directory ∧
                  t.manifest dir name = .ok bytes ∧ part = {
                    database, table, name
                    path := dir.entry name
                    checksum := fingerprint bytes
                    size := t.bytesIn (loc ++ [name]) }) ∧
          (∀ name fault, t.Spoils dir loc name fault →
            ∃ first fault', t.Spoils dir loc first fault' ∧
              (∀ other fault'', t.Spoils dir loc other fault'' →
                ¬ Text.bytes other < Text.bytes first) ∧
              answer = .error fault') ∧
          ∀ name, t.content? (loc ++ [name]) = some .directory →
            Tree.Admissible ((dir.entry name).entry manifestName) →
            t.resolve true ((dir.entry name).entry manifestName) ≠ .error .linkLoop →
            t.node? (loc ++ [name] ++ [manifestName]) = none ∨
              t.Dangles (loc ++ [name] ++ [manifestName]) →
            t.manifest dir name = .error .missing := by
  obtain ⟨s', hrun, -⟩ := enumerate_shows hfiles hs dir database table
  refine ⟨_, s', hrun, fun fault hlist => ?_, fun entries hlist => ?_⟩
  · unfold Tree.parts
    rw [hlist]
  · obtain ⟨loc, hloc, hcontent⟩ := Tree.exists_of_listDirectory hlist
    refine ⟨loc, hloc, hcontent, ht.parts_of_unspoiled hloc hcontent,
      fun _ _ => ht.parts_of_spoiled hloc hcontent, fun name hname => ?_⟩
    exact Tree.readFile_of_vacant (ht.isName (Tree.node?_ne_none hname)) (by decide) hloc hcontent
      hname

/-! ## A directory with two parts -/

/-- A file system that lists the last entry of a directory first. -/
def reversed {S : Type} (files : Files (StateM S)) : Files (StateM S) :=
  { files with
    listDirectory := fun p => do
      return (← files.listDirectory p).map List.reverse }

/-- It shows the same tree. -/
theorem shows_reversed {S : Type} {files : Files (StateM S)} {I : S → Prop} {t : Tree}
    (h : files.Shows I t) : (reversed files).Shows I t where
  readFile := h.readFile
  listDirectory := by
    intro s hs p
    obtain ⟨answer, s', hrun, hanswer, hs'⟩ := h.listDirectory hs p
    refine ⟨answer.map List.reverse, s', run_bind_of_eq hrun, ?_, hs'⟩
    generalize t.listDirectory p = told at hanswer ⊢
    cases hanswer with
    | error fault => exact .error fault
    | ok hperm => exact .ok (hperm.trans (List.reverse_perm _).symm)

/-- A directory `p1` with a manifest and a file of two bytes, a directory `p2` with any manifest,
and a directory without one. -/
def twoManifests (manifest : Content) : Tree := ⟨[
  (["p2"], { content := .directory }),
  (["p2", "checksums.txt"], { content := manifest }),
  (["p1"], { content := .directory }),
  (["p1", "checksums.txt"], { content := .file ⟨#[1]⟩ }),
  (["p1", "a.bin"], { content := .file ⟨#[0, 0]⟩ }),
  (["q"], { content := .directory })]⟩

/-- The names of its directories. -/
theorem mem_of_directory_twoManifests {manifest : Content}
    (ht : (twoManifests manifest).WellFormed) {name : String}
    (h : (twoManifests manifest).content? ([] ++ [name]) = some .directory) :
    name = "p2" ∨ name = "p1" ∨ name = "q" := by
  have hmem : ⟨name, .directory⟩ ∈ (twoManifests manifest).listing [] :=
    ht.mem_listing.mpr ⟨.directory, h, rfl⟩
  have hlisting : (twoManifests manifest).listing []
      = [⟨"p2", .directory⟩, ⟨"p1", .directory⟩, ⟨"q", .directory⟩] := by rfl
  rw [hlisting] at hmem
  simpa using hmem

/-- With two manifests that can be read, two parts are found in whatever order they are listed. -/
theorem enumerate_catalog_reversed :
    let w : World Unit := ⟨(), twoManifests (.file ⟨#[2, 3]⟩), [], [], [], [], []⟩
    let host := World.host (constantEngine (.ok (.text ""))) (.noted (.ok ()))
    ∃ listed s', (enumerate (reversed host.toFiles) ⟨"/"⟩ "db" "t").run w = (.ok listed, s') ∧
      ∃ part ∈ listed, part.name = "p1" ∧ part.size = 3 := by
  intro w host
  have hwell : w.tree.WellFormed := by decide +kernel
  obtain ⟨answer, s', hrun, -, hlisted⟩ := enumerate_catalog
    (shows_reversed (World.shows_host (constantEngine (.ok (.text ""))) (.noted (.ok ())) w))
    hwell rfl ⟨"/"⟩ "db" "t"
  obtain ⟨loc, hloc, -, hfound, -, -⟩ := hlisted (w.tree.listing []) rfl
  obtain rfl : loc = [] := Except.ok.inj (hloc.symm.trans rfl)
  have hspoils : ∀ name fault, ¬ w.tree.Spoils ⟨"/"⟩ [] name fault := by
    intro name fault hname
    have hunread := hname.unread
    rcases mem_of_directory_twoManifests hwell hname.directory with rfl | rfl | rfl
    · cases hunread.symm.trans (show w.tree.manifest ⟨"/"⟩ "p2" = .ok ⟨#[2, 3]⟩ from rfl)
    · cases hunread.symm.trans (show w.tree.manifest ⟨"/"⟩ "p1" = .ok ⟨#[1]⟩ from rfl)
    · cases hunread.symm.trans (show w.tree.manifest ⟨"/"⟩ "q" = .error .missing from rfl)
      exact hname.kind rfl
  obtain ⟨listed, rfl, -, hmem⟩ := hfound hspoils
  exact ⟨listed, s', hrun, _, (hmem _).mpr ⟨"p1", ⟨#[1]⟩, rfl, rfl, rfl⟩, rfl, rfl⟩

/-- A manifest that is a link through a file leads nowhere, but its directory is not left out: no
parts are found at all. And directories whose names are no texts would not be told apart: two names
can be told as the same one. -/
theorem not_left_out_of_link :
    (¬ ∀ (w : World Unit) (dir : Path) (loc : Location) (database table : String),
      w.tree.WellFormed → w.tree.resolve true dir = .ok loc →
      w.tree.content? loc = some .directory →
      (∀ name, w.tree.content? (loc ++ [name]) = some .directory →
        (∃ bytes, w.tree.manifest dir name = .ok bytes) ∨
          w.tree.node? (loc ++ [name] ++ [manifestName]) = none ∨
          (∃ target, w.tree.content? (loc ++ [name] ++ [manifestName]) = some (.link target)) ∧
            w.tree.isPresent ((dir.entry name).entry manifestName) = false) →
      ∃ listed, ((enumerate (World.host (constantEngine (.ok (.text "")))
        (.noted (.ok ()))).toFiles dir database table).run w).1 = .ok listed) ∧
    ∃ name name', name ≠ name' ∧ toldName name = toldName name' := by
  refine ⟨fun h => ?_, ⟨#[0xfe]⟩, ⟨#[0xff]⟩, by decide, by decide +kernel⟩
  let t := twoManifests (.link "../p1/checksums.txt/x")
  have hwell : t.WellFormed := by decide +kernel
  have hfault : t.manifest ⟨"/"⟩ "p2" = .error .notDirectory := by rfl
  obtain ⟨listed, hlisted⟩ := h ⟨(), t, [], [], [], [], []⟩ ⟨"/"⟩ [] "db" "t" hwell rfl rfl (by
    intro name hname
    rcases mem_of_directory_twoManifests hwell hname with rfl | rfl | rfl
    · exact .inr (.inr ⟨⟨"../p1/checksums.txt/x", rfl⟩, rfl⟩)
    · exact .inl ⟨⟨#[1]⟩, rfl⟩
    · exact .inr (.inl rfl))
  obtain ⟨first, fault, -, -, hparts⟩ :=
    hwell.parts_of_spoiled (show t.resolve true ⟨"/"⟩ = .ok [] from rfl) rfl
      ⟨rfl, hfault, by decide⟩
  rw [enumerate_host] at hlisted
  cases hlisted.symm.trans hparts

end FrozenPart

end TableSnapshots
