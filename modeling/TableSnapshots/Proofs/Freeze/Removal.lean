import TableSnapshots.Proofs.Freeze.Place
import TableSnapshots.Proofs.Part.Remaining

/-!
# Removing what was frozen

A part that a freeze returned was found in a directory below `shadow` (`exists_of_mem_freezeTable`),
so the guard of the shadow directory accepts its path, and the operating system took this path, so
it takes it again. Where the part's directory is still in place, the part can be removed, and the
other parts of its directory are listed as before (`freezeTable_then_removeSnapshot`), unless their
manifest is read through the part that is gone (`not_listed_as_before_of_link`).
-/

namespace TableSnapshots

/-- An engine leaves a tree as a file system has it. -/
def Engine.KeepsWellFormed {σ : Type} (engine : Engine σ) : Prop :=
  ∀ query state tree, tree.WellFormed → (engine query state tree).2.2.WellFormed

/-- Then it is one after any queries. -/
theorem World.wellFormed_after {σ : Type} {engine : Engine σ} (hengine : engine.KeepsWellFormed)
    {w : World σ} (hw : w.tree.WellFormed) (queries : List String) :
    (w.after engine queries).tree.WellFormed := by
  induction queries generalizing w with
  | nil => exact hw
  | cons query queries ih =>
    rw [after_cons]
    exact ih (hengine query w.engine w.tree hw)

/-! ## Where returned parts were found -/

namespace Tree

variable {t : Tree} {dir : Path} {database table : String}

/-- A part that a directory lists is one of an entry in it that is a directory, and the path of that
was found. -/
theorem WellFormed.of_mem_parts (ht : t.WellFormed) {listed : List FrozenPart}
    (h : t.parts dir database table = .ok listed) {part : FrozenPart} (hpart : part ∈ listed) :
    part.path = dir.entry part.name ∧ Path.IsName part.name ∧
      (∃ l, t.resolve true dir = .ok l ∧ t.content? (l ++ [part.name]) = some .directory) ∧
      ∃ loc, t.resolve true part.path = .ok loc := by
  unfold parts at h
  cases hlist : t.listDirectory dir with
  | error fault =>
    rw [hlist] at h
    dsimp only at h
    split at h <;> cases h
    cases hpart
  | ok entries =>
    rw [hlist] at h
    dsimp only at h
    rw [mapM_id_eq_ok_iff] at h
    have hmem : .ok part ∈ (FrozenPart.directoryNames entries).map (t.part dir database table) := by
      refine (List.mem_filter.mp (?_ : _ ∈ List.filter (fun r => !isMissing r) _)).1
      rw [h]
      exact List.mem_map_of_mem hpart
    obtain ⟨name, hname, hok⟩ := List.mem_map.mp hmem
    obtain ⟨rfl, hpath⟩ := of_part_eq_ok hok
    obtain ⟨l, hl, -, hentries⟩ := ht.of_listDirectory hlist
    have hentry := hentries _ hname
    refine ⟨hpath, hentry.1, ⟨l, hl, hentry.2⟩, ?_⟩
    · rw [hpath]
      unfold Tree.part at hok
      dsimp only at hok
      cases hread : t.readFile ((dir.entry part.name).entry manifestName) with
      | error fault =>
        rw [hread] at hok
        cases hok
      | ok manifest =>
        rw [hread] at hok
        dsimp only [bind, Except.bind] at hok
        cases hl : t.resolve true (dir.entry part.name) with
        | error fault =>
          unfold listDirectory at hok
          rw [hl] at hok
          cases hok
        | ok l => exact ⟨l, rfl⟩

/-- A part whose manifest is read through another part of the same directory has a link for it. -/
theorem WellFormed.exists_link_of_mem_parts (ht : t.WellFormed) (hdir : dir.text ≠ "")
    (hup : .up ∉ dir.components) {name : String}
    (hcontent : t.content? (dir.names ++ [name]) = some .directory) {listed : List FrozenPart}
    (h : t.parts dir database table = .ok listed) {other : FrozenPart} (hother : other ∈ listed)
    (hne : other.name ≠ name)
    (hlooks : dir.names ++ [name] ∈ t.looks true (other.path.entry manifestName)) :
    ∃ target, t.content? (other.path.names ++ [manifestName]) = some (.link target) := by
  obtain ⟨hpath, hname, ⟨l, hl, hcontentOther⟩, -⟩ := ht.of_mem_parts h hother
  have hparent := ht.nested.directory (List.cons_ne_nil name []) (node?_ne_none hcontent)
  obtain rfl := eq_names_of_resolve hdir hup (ht.nested.unlinked hparent) hl
  have hnames : other.path.names = dir.names ++ [other.name] := by
    rw [hpath, Path.names_entry hname hdir]
  have hdirect : other.path.Direct := by
    rw [hpath]
    exact Path.direct_entry hname hdir hup
  refine exists_link_of_mem_looks ht.nested hdirect.text hdirect.up (by rwa [hnames]) ?_ ?_ hlooks
  · simp [hnames]
  · rw [hnames]
    simpa using hne.symm

end Tree

namespace Controller

open TableSnapshots.Tree (atOrBelow)

variable {σ : Type} {engine : Engine σ} {delegate : Delegate} {config : Config}
  {c : Controller (StateM (World σ))} {db table : String} {w w' : World σ}
  {parts : List FrozenPart}

/-- A part that a freeze returned is an entry of a directory whose path goes on from the shadow
directory with names, and its path was found. -/
theorem exists_of_mem_freezeTable (hc : c.Serves (World.host engine delegate) config)
    (hdata : config.dataPath.text ≠ "") (hengine : engine.KeepsWellFormed)
    (hw : w.tree.WellFormed) (h : (c.freezeTable db table).run.run w = (.ok parts, w'))
    {part : FrozenPart} (hpart : part ∈ parts) :
    ∃ dir : Path, part.path = dir.entry part.name ∧ Path.IsName part.name ∧ dir.text ≠ "" ∧
      (config.dataPath.entry "shadow").components <+: dir.components ∧ .up ∉ dir.components ∧
      Tree.Admissible part.path := by
  obtain ⟨text, -, hbelow, -, hparts⟩ := exists_of_freezeTable hc h
  obtain ⟨queries, ps, hps, hfound⟩ := hparts part hpart
  obtain ⟨number, -, hlisted⟩ := Reference.exists_of_frozenParts hfound
  obtain ⟨hpath, hname, -, loc, hloc⟩ :=
    (World.wellFormed_after hengine hw queries).of_mem_parts hlisted hps
  refine ⟨_, hpath, hname, Config.frozenPath_text_ne_empty hdata hbelow number, ?_,
    Config.up_not_mem_frozenPath hdata hbelow number, Tree.admissible_of_resolve hloc⟩
  rw [Config.components_frozenPath hdata hbelow]
  exact List.prefix_append _ _

/-! ## Removing a returned part -/

/-- The way to what was removed is passable still. -/
theorem passable_without {t : Tree} (ht : t.Nested) {loc : Location} (hloc : loc ≠ [])
    (h : t.node? loc ≠ none) : (t.without loc).Passable loc := by
  rintro q r hr hqr content hcontent
  rw [Tree.content?_without hloc] at hcontent
  split at hcontent
  · cases hcontent
  · exact ht.passable h q r hr hqr content hcontent

/-- A directory in place is removed, and removing it again does nothing more. -/
theorem removeSnapshotPath_of_directory (hc : c.Serves (World.host engine delegate) config)
    {p : Path} (haccepts : c.shadowRoot.accepts p = true) (hp : p.Direct)
    (hadmissible : Tree.Admissible p) (ht : w.tree.Nested)
    (hplace : w.tree.content? p.names = some .directory) :
    (c.removeSnapshotPath p).run.run w
        = (.ok (), { w with tree := w.tree.without p.names }) ∧
      (c.removeSnapshotPath p).run.run { w with tree := w.tree.without p.names }
        = (.ok (), { w with tree := w.tree.without p.names }) := by
  have hloc := hp.names_ne_nil
  constructor
  · refine removeSnapshotPath_of_settled hc haccepts ?_
    rw [Tree.removeAll_of_directory ht hp (hadmissible.takes w.tree) hplace]
    rfl
  · have hgone : (w.tree.without p.names).node? p.names = none := by
      rw [Tree.node?_without hloc, if_pos]
      exact List.isPrefixOf_iff_prefix.mpr List.prefix_rfl
    refine removeSnapshotPath_of_settled hc haccepts (w := { w with tree := _ }) ?_
    rw [Tree.removeAll_of_none hp (hadmissible.takes _)
      (passable_without ht hloc (Tree.node?_ne_none hplace)) hgone]
    rfl

/-- After a freeze each part that it returned and whose directory is in place can be removed, under
any policy: the guard accepts its path, exactly the entries at and below its directory are removed,
and removing it again changes nothing. A list of its directory from before turns into one without
the part, and without those other parts whose manifest is a link that leads through the part. -/
theorem freezeTable_then_removeSnapshot (hc : c.Serves (World.host engine delegate) config)
    (hdata : config.dataPath.text ≠ "") (hengine : engine.KeepsWellFormed)
    (hw : w.tree.WellFormed) (h : (c.freezeTable db table).run.run w = (.ok parts, w')) :
    ∀ part ∈ parts, w'.tree.content? part.path.names = some .directory →
      ∀ retry retry' : RetryPolicy,
        let gone := part.path.names
        let w'' := { w' with tree := w'.tree.without gone }
        c.shadowRoot.accepts part.path = true ∧
        ((c.withRetryPolicy retry).removeSnapshot part).run.run w' = (.ok (), w'') ∧
        (∀ loc, w''.tree.node? loc = if atOrBelow gone loc then none else w'.tree.node? loc) ∧
        ((c.withRetryPolicy retry').removeSnapshot part).run.run w'' = (.ok (), w'') ∧
        (∃ dir : Path, dir.entry part.name = part.path) ∧
        ∀ dir : Path, dir.entry part.name = part.path → ∀ listed,
          (FrozenPart.enumerate c.host.toFiles dir db table).run w' = (.ok listed, w') →
            (FrozenPart.enumerate c.host.toFiles dir db table).run w''
              = (.ok (listed.filter fun other => other.name ≠ part.name ∧
                  gone ∉ w'.tree.looks true (other.path.entry "checksums.txt")), w'') ∧
            ∀ other ∈ listed, other.name ≠ part.name →
              gone ∈ w'.tree.looks true (other.path.entry "checksums.txt") →
              ∃ target, w'.tree.content? (other.path.names ++ ["checksums.txt"])
                = some (.link target) := by
  intro part hpart hplace retry retry' gone w''
  obtain ⟨dir₀, hpath, hname, hdir₀, hshadow, hup₀, hadmissible⟩ :=
    exists_of_mem_freezeTable hc hdata hengine hw h hpart
  obtain ⟨_, -, -, ⟨queries, rfl⟩, -⟩ := exists_of_freezeTable hc h
  have ht := World.wellFormed_after hengine hw queries
  have hcomponents : part.path.components = dir₀.components ++ [.name part.name] := by
    rw [hpath, Path.components_entry hname hdir₀]
  have hp : part.path.Direct := by
    rw [hpath]
    exact Path.direct_entry hname hdir₀ hup₀
  have haccepts : c.shadowRoot.accepts part.path = true := by
    rw [show c.shadowRoot = ⟨config.dataPath.entry "shadow"⟩ from
      congrArg PathGuard.mk hc.shadowRoot, PathGuard.accepts_iff]
    refine ⟨?_, hp.up⟩
    rw [hcomponents]
    exact hshadow.trans (List.prefix_append _ _)
  have hremove : ∀ retry, _ := fun retry =>
    removeSnapshotPath_of_directory (hc.withRetryPolicy retry) haccepts hp hadmissible ht.nested
      hplace
  refine ⟨haccepts, (hremove retry).1, Tree.node?_without hp.names_ne_nil, (hremove retry').2,
    ⟨dir₀, hpath.symm⟩, fun dir hdir listed hlisted => ?_⟩
  -- Any directory that the part is an entry of has the components of the one that it was found in.
  have hsame : dir.components = dir₀.components := by
    rw [← hdir, Path.components_entry_name dir hname] at hcomponents
    exact List.append_inj_left' hcomponents rfl
  have hupDir : .up ∉ dir.components := by rwa [hsame]
  have hdirText : dir.text ≠ "" := by
    refine Path.text_ne_empty_of_mem (c := .name "shadow") ?_
    rw [hsame]
    refine hshadow.subset ?_
    rw [Path.components_entry_name _ PathGuard.isName_shadow]
    exact List.mem_append_right _ List.mem_cons_self
  have hgone : gone = dir.names ++ [part.name] := by
    change part.path.names = _
    rw [← hdir, Path.names_entry hname hdirText]
  rw [hc.host, FrozenPart.enumerate_host] at hlisted
  have hparts := (Prod.mk.inj hlisted).1
  have hcontent : (w.after engine queries).tree.content? (dir.names ++ [part.name])
      = some .directory := by rwa [← hgone]
  constructor
  · rw [hc.host, FrozenPart.enumerate_host]
    refine congrArg (·, w'') ?_
    change ((w.after engine queries).tree.without gone).parts dir db table = _
    rw [hgone]
    exact Tree.parts_without ht hdirText hupDir hcontent hparts
  · intro other hother hne hlooks
    rw [hgone] at hlooks
    exact ht.exists_link_of_mem_parts hdirText hupDir hcontent hparts hother hne hlooks

/-! ## A freeze of two parts -/

/-- An engine whose freeze of one table leaves a certain tree. -/
def freezesTo (tree : Tree) : Engine Unit := fun query state t =>
  if query = Query.freezeTable "db" "t" then (.ok (.text ""), state, tree)
  else (.ok (.text "/ch/data/db/t"), state, t)

/-- It leaves trees as a file system has them if that tree is one. -/
theorem freezesTo_keepsWellFormed {t' : Tree} (h : t'.WellFormed) :
    (freezesTo t').KeepsWellFormed := by
  intro query state t ht
  unfold freezesTo
  split
  · exact h
  · exact ht

/-- Two frozen parts. The manifest of the second one is to be told. -/
def twoParts (manifest : Content) : Tree :=
  let t := ["ch", "shadow", "1", "data", "db", "t"]
  ⟨[(["ch"], { content := .directory }), (["ch", "shadow"], { content := .directory }),
    (["ch", "shadow", "increment.txt"], { content := .file "1".toUTF8 }),
    (["ch", "shadow", "1"], { content := .directory }),
    (["ch", "shadow", "1", "data"], { content := .directory }),
    (["ch", "shadow", "1", "data", "db"], { content := .directory }),
    (t, { content := .directory }), (t ++ ["p1"], { content := .directory }),
    (t ++ ["p1", "checksums.txt"], { content := .file ⟨#[1]⟩ }),
    (t ++ ["p2"], { content := .directory }),
    (t ++ ["p2", "checksums.txt"], { content := manifest })]⟩

/-- The directory of these parts. -/
def twoPartsDirectory : Path :=
  ((Path.mk "/ch").entry "shadow" |>.entry (Text.decimal 1)).join ⟨"data/db/t"⟩

/-- One of these parts, as it is found. -/
def onePart (name : String) (manifest : ByteArray) (size : Nat) : FrozenPart where
  database := "db"
  table := "t"
  name := name
  path := twoPartsDirectory.entry name
  checksum := fingerprint manifest
  size := size

/-- The directory holds the two parts. -/
theorem parts_twoParts (manifest : Content) {part : FrozenPart}
    (h : (twoParts manifest).part twoPartsDirectory "db" "t" "p2" = .ok part) :
    (twoParts manifest).parts twoPartsDirectory "db" "t" = .ok [onePart "p1" ⟨#[1]⟩ 1, part] := by
  have hlist : (twoParts manifest).listDirectory twoPartsDirectory
      = .ok [⟨"p1", .directory⟩, ⟨"p2", .directory⟩] := by
    rfl
  have hnames : FrozenPart.directoryNames [⟨"p1", .directory⟩, ⟨"p2", .directory⟩]
      = ["p1", "p2"] := by
    unfold FrozenPart.directoryNames
    exact List.mergeSort_of_pairwise (by decide)
  have hfirst : (twoParts manifest).part twoPartsDirectory "db" "t" "p1"
      = .ok (onePart "p1" ⟨#[1]⟩ 1) := by
    rfl
  unfold Tree.parts
  rw [hlist]
  dsimp only
  rw [hnames, List.map_cons, List.map_cons, hfirst, h]
  rfl

/-- The controller for the engine that freezes them. -/
def twoPartsController (manifest : Content) : Controller (StateM (World Unit)) :=
  { serving (World.host (freezesTo (twoParts manifest)) (.noted (.ok ())))
      ⟨⟨"/ch"⟩, "u", "g", {}, {}⟩ ⟨[21, 8], "21.8"⟩ with strategy := .wholeTable }

/-- It is for that engine. -/
theorem twoPartsController_serves (manifest : Content) :
    (twoPartsController manifest).Serves
      (World.host (freezesTo (twoParts manifest)) (.noted (.ok ())))
      ⟨⟨"/ch"⟩, "u", "g", {}, {}⟩ :=
  serving_serves_of _ _ (ofVersion_of_lt (n := 21) (by decide) [8] "21.8")

/-- The world after the two queries of the freeze. -/
def twoPartsWorld (manifest : Content) : World Unit :=
  ⟨(), twoParts manifest, [Query.tableDataPath "db" "t", Query.freezeTable "db" "t"],
    [], [], [], []⟩

/-- The freeze returns the two parts. -/
theorem freezeTable_twoParts (manifest : Content) {part : FrozenPart}
    (h : (twoParts manifest).part twoPartsDirectory "db" "t" "p2" = .ok part) :
    ((twoPartsController manifest).freezeTable "db" "t").run.run ⟨(), .empty, [], [], [], [], []⟩
      = (.ok [onePart "p1" ⟨#[1]⟩ 1, part], twoPartsWorld manifest) := by
  have hrelative : (twoPartsController manifest).relativePath ⟨"/ch/data/db/t"⟩
      = .ok ⟨"data/db/t"⟩ := by
    have hremainder : (Path.mk "/ch/data/db/t").remainder
        (twoPartsController manifest).root.root.components.length = ⟨"data/db/t"⟩ := by
      change (Path.mk "/ch/data/db/t").remainder (Path.mk "/ch").components.length = _
      decide +kernel
    rw [relativePath_of_accepts (by
      change (PathGuard.mk ⟨"/ch"⟩).accepts ⟨"/ch/data/db/t"⟩ = true
      decide +kernel), hremainder]
    rfl
  have hfound : Reference.frozenParts ⟨⟨"/ch"⟩, "u", "g", {}, {}⟩ "db" "t" ⟨"data/db/t"⟩
      (twoParts manifest) = .ok [onePart "p1" ⟨#[1]⟩ 1, part] := by
    have hnumber : (twoParts manifest).readFile (((Path.mk "/ch").entry "shadow").entry
        "increment.txt") >>= readGeneration = .ok 1 := by
      rfl
    unfold Reference.frozenParts
    dsimp only
    rw [hnumber]
    dsimp only [Except.mapError, bind, Except.bind]
    rw [show ((Path.mk "/ch").entry "shadow" |>.entry (Text.decimal 1)).join ⟨"data/db/t"⟩
      = twoPartsDirectory from rfl, parts_twoParts manifest h]
  rw [run_freezeTable (twoPartsController_serves manifest)
    (show World.answer _ _ _ = .ok (.text "/ch/data/db/t") from rfl) (by decide) hrelative]
  refine Prod.ext ((Reference.inOrder_singleton _).trans hfound) ?_
  change World.after (freezesTo (twoParts manifest)) ⟨(), .empty, [], [], [], [], []⟩
    ([Query.tableDataPath "db" "t"] ++ [Query.freezeTable "db" "t"].take _) = _
  rw [List.take_succ_cons, List.take_nil]
  rfl

/-- Of two frozen parts with manifests of their own the second one is listed as before when the
first one was removed. -/
theorem freezeTable_then_removeSnapshot_twoParts :
    let manifest : Content := .file ⟨#[2, 3]⟩
    let c := twoPartsController manifest
    let w' := twoPartsWorld manifest
    let w'' := { w' with tree := w'.tree.without (onePart "p1" ⟨#[1]⟩ 1).path.names }
    (c.freezeTable "db" "t").run.run ⟨(), .empty, [], [], [], [], []⟩
        = (.ok [onePart "p1" ⟨#[1]⟩ 1, onePart "p2" ⟨#[2, 3]⟩ 2], w') ∧
      ((c.withRetryPolicy .once).removeSnapshot (onePart "p1" ⟨#[1]⟩ 1)).run.run w'
        = (.ok (), w'') ∧
      (FrozenPart.enumerate c.host.toFiles twoPartsDirectory "db" "t").run w''
        = (.ok [onePart "p2" ⟨#[2, 3]⟩ 2], w'') := by
  intro manifest c w' w''
  have hpart : (twoParts manifest).part twoPartsDirectory "db" "t" "p2"
      = .ok (onePart "p2" ⟨#[2, 3]⟩ 2) := by
    rfl
  have hfreeze := freezeTable_twoParts manifest hpart
  have hwell : (twoParts manifest).WellFormed := by decide +kernel
  have hgone : (onePart "p1" ⟨#[1]⟩ 1).path.names
      = ["ch", "shadow", "1", "data", "db", "t", "p1"] := by decide +kernel
  have hplace : (twoParts manifest).content? (onePart "p1" ⟨#[1]⟩ 1).path.names
      = some .directory := by
    rw [hgone]
    rfl
  obtain ⟨-, hremove, -, -, -, hlist⟩ := freezeTable_then_removeSnapshot
    (twoPartsController_serves manifest) (by decide)
    (freezesTo_keepsWellFormed hwell) (by decide +kernel) hfreeze (onePart "p1" ⟨#[1]⟩ 1)
    List.mem_cons_self hplace .once .once
  obtain ⟨hlisted, -⟩ := hlist twoPartsDirectory rfl [onePart "p1" ⟨#[1]⟩ 1,
    onePart "p2" ⟨#[2, 3]⟩ 2] (by
      rw [(twoPartsController_serves manifest).host, FrozenPart.enumerate_host]
      exact congrArg (·, _) (parts_twoParts manifest hpart))
  refine ⟨hfreeze, hremove, hlisted.trans (congrArg (Except.ok ·, w'') ?_)⟩
  rw [List.filter_cons_of_neg (by simp), List.filter_cons_of_pos ?_, List.filter_nil]
  decide +kernel

/-- A part whose manifest is a link to that of another one is not listed any more when this one was
removed. -/
theorem not_listed_as_before_of_link :
    ¬ ∀ (engine : Engine Unit) (delegate : Delegate) (config : Config)
        (c : Controller (StateM (World Unit))), c.Serves (World.host engine delegate) config →
      config.dataPath.text ≠ "" → engine.KeepsWellFormed →
      ∀ (w w' : World Unit) (db table : String) (parts : List FrozenPart), w.tree.WellFormed →
        (c.freezeTable db table).run.run w = (.ok parts, w') →
        ∀ part ∈ parts, w'.tree.content? part.path.names = some .directory →
          ∀ dir : Path, dir.entry part.name = part.path → ∀ listed,
            w'.tree.parts dir db table = .ok listed →
            ((c.removeSnapshot part).run.run w').2.tree.parts dir db table
              = .ok (listed.filter fun other => other.name ≠ part.name) := by
  intro h
  let manifest : Content := .link "../p1/checksums.txt"
  have hpart : (twoParts manifest).part twoPartsDirectory "db" "t" "p2"
      = .ok (onePart "p2" ⟨#[1]⟩ 0) := by
    rfl
  have hwell : (twoParts manifest).WellFormed := by decide +kernel
  have hgone : (onePart "p1" ⟨#[1]⟩ 1).path.names
      = ["ch", "shadow", "1", "data", "db", "t", "p1"] := by decide +kernel
  have hplace : (twoParts manifest).content? (onePart "p1" ⟨#[1]⟩ 1).path.names
      = some .directory := by
    rw [hgone]
    rfl
  have hlisted := h _ _ _ _ (twoPartsController_serves manifest) (by decide)
    (freezesTo_keepsWellFormed hwell) ⟨(), .empty, [], [], [], [], []⟩ _ "db" "t" _
    (by decide +kernel) (freezeTable_twoParts manifest hpart) (onePart "p1" ⟨#[1]⟩ 1)
    List.mem_cons_self hplace twoPartsDirectory rfl _ (parts_twoParts manifest hpart)
  have hp : (onePart "p1" ⟨#[1]⟩ 1).path.Direct :=
    ⟨by decide +kernel, by decide +kernel, by decide +kernel⟩
  have hadmissible : Tree.Admissible (onePart "p1" ⟨#[1]⟩ 1).path :=
    ⟨by decide +kernel, by decide +kernel, by
      rw [hgone]
      decide +kernel⟩
  have haccepts : (twoPartsController manifest).shadowRoot.accepts
      (onePart "p1" ⟨#[1]⟩ 1).path = true := by
    change (PathGuard.mk ((Path.mk "/ch").entry "shadow")).accepts _ = true
    decide +kernel
  have hrun := (removeSnapshotPath_of_directory (w := twoPartsWorld manifest)
    (twoPartsController_serves manifest) haccepts hp hadmissible hwell.nested hplace).1
  have hdirectory : twoPartsDirectory.names = ["ch", "shadow", "1", "data", "db", "t"] := by
    decide +kernel
  have hsplit : (onePart "p1" ⟨#[1]⟩ 1).path.names = twoPartsDirectory.names ++ ["p1"] := by
    rw [hgone, hdirectory]
    rfl
  rw [hsplit] at hplace hrun
  have hremaining := Tree.parts_without hwell (by decide +kernel) (by decide +kernel) hplace
    (parts_twoParts manifest hpart)
  rw [show (twoPartsController manifest).removeSnapshot (onePart "p1" ⟨#[1]⟩ 1)
    = (twoPartsController manifest).removeSnapshotPath (onePart "p1" ⟨#[1]⟩ 1).path from rfl,
    hrun] at hlisted
  -- The link leads through the part that was removed, so only one of the two lists has its part.
  have hlooks : twoPartsDirectory.names ++ ["p1"] ∈ (twoParts manifest).looks true
      ((onePart "p2" ⟨#[1]⟩ 0).path.entry manifestName) := by
    rw [hdirectory]
    decide +kernel
  have hsame := Except.ok.inj (hremaining.symm.trans hlisted)
  rw [List.filter_cons_of_neg (by simp [onePart]), List.filter_cons_of_neg (by simp [hlooks]),
    List.filter_cons_of_neg (by simp [onePart]), List.filter_cons_of_pos (by simp [onePart])]
    at hsame
  cases hsame

end Controller

end TableSnapshots
