import TableSnapshots.Proofs.Freeze.Counter
import TableSnapshots.Proofs.Freeze.Place
import TableSnapshots.Proofs.Part.Remaining

/-!
# Freezes that copy parts

What a freeze does to the files when the engine works as it should (`Tree.Freezes`): it counts one
freeze more and copies parts of the table to the directory of that number, which was not there
before. The next freeze finds the files ready again (`Freezes.ready`), and looking for the parts
right after a freeze finds those that it copied, each of them once (`Freezes.frozenParts`).
-/

namespace TableSnapshots

/-- There is no link in a tree. -/
def Tree.NoLinks (t : Tree) : Prop :=
  ∀ l target, t.content? l ≠ some (.link target)

/-- There is none if no entry is one. -/
theorem Tree.noLinks_of_kind {t : Tree} (h : ∀ e ∈ t.entries, e.2.content.kind ≠ .other) :
    t.NoLinks := by
  intro l target hlink
  obtain ⟨n, hn, hcontent⟩ := Option.map_eq_some_iff.mp hlink
  have hl : l ≠ [] := by
    rintro rfl
    cases hn
    cases hcontent
  exact h _ (mem_of_node? hl hn) (by rw [hcontent]; rfl)

/-! ## The parts of a table -/

/-- A part of a table as the engine keeps it. Its directory is a tree of its own. -/
structure LivePart where
  name : String
  partition : String
  /-- What there is in the part's directory. -/
  files : Tree
  /-- The bytes of the manifest. -/
  manifest : ByteArray
  /-- A directory can have the name. -/
  named : Path.IsName name
  wellFormed : files.WellFormed
  noLinks : files.NoLinks
  /-- The manifest is among the files. -/
  manifest_content : files.content? [manifestName] = some (.file manifest)

/-- The parts of a table. No two of them have the same name. -/
structure LiveTable where
  parts : List LivePart
  distinct : (parts.map (·.name)).Nodup

/-- What a frozen part tells of its content. -/
def FrozenPart.summary (p : FrozenPart) : String × String × Nat :=
  (p.name, p.checksum, p.size)

namespace LivePart

/-- A part as it is found when it was copied to a directory. -/
def frozen (p : LivePart) (dir : Path) (database table : String) : FrozenPart where
  database := database
  table := table
  name := p.name
  path := dir.entry p.name
  checksum := fingerprint p.manifest
  size := (p.files.listing []).foldr (·.kind.size + ·) 0

/-- What a copy of a part tells of its content: the name, the fingerprint of the manifest, and the
bytes of the files right in the directory. -/
def summary (p : LivePart) : String × String × Nat :=
  (p.name, fingerprint p.manifest, (p.files.listing []).foldr (·.kind.size + ·) 0)

end LivePart

namespace Tree

open Controller (incrementName)

/-! ## Freezes -/

/-- The files are ready for the next freeze: the engine can write its counter, and no freeze has a
number above it. -/
structure Ready (t : Tree) (shadow : Location) : Prop where
  wellFormed : t.WellFormed
  noLinks : t.NoLinks
  /-- No file is in the way to the counter. -/
  passable : t.Passable (shadow ++ [incrementName])
  /-- The counter's place is not taken by a directory. -/
  writable : t.content? (shadow ++ [incrementName]) ≠ some .directory
  /-- No directory of a freeze has a number above the counter. -/
  fresh : ∀ number, t.counter shadow < number → t.node? (shadow ++ [Text.decimal number]) = none

/-- Below the top of an empty tree there is nothing. -/
theorem node?_empty {l : Location} (hl : l ≠ []) : empty.node? l = none :=
  node?_of_ne_nil hl

/-- No freeze was counted in it. -/
theorem counter_empty (shadow : Location) : empty.counter shadow = 0 := by
  unfold counter content?
  rw [node?_empty (by simp)]
  rfl

/-- It is ready for the first freeze. -/
theorem ready_empty {shadow : Location} : empty.Ready shadow where
  wellFormed := by decide
  noLinks := noLinks_of_kind fun _ he => absurd he List.not_mem_nil
  passable := by
    intro q r _ _ c hc
    by_cases hq : q = []
    · subst hq
      exact (Option.some.inj hc).symm
    · rw [content?, node?_empty hq] at hc
      cases hc
  writable := by
    rw [content?, node?_empty (by simp)]
    simp
  fresh := fun number _ => node?_empty (by simp)

/-- Where the next freeze puts the parts of a table that lies at `relative`. -/
def nextPlace (t : Tree) (shadow relative : Location) : Location :=
  shadow ++ Text.decimal (t.counter shadow + 1) :: relative

/-- What goes on from the shadow directory to that place goes through the directory of the next
number. -/
theorem eq_of_prefix_nextPlace {t : Tree} {shadow relative l more : Location} {s : String}
    (h : shadow ++ s :: l <+: t.nextPlace shadow relative ++ more) :
    s = Text.decimal (t.counter shadow + 1) := by
  unfold nextPlace at h
  rw [List.append_assoc, List.prefix_append_right_inj, List.cons_append, List.cons_prefix_cons] at h
  exact h.1

/-- So does what goes on from that place. -/
theorem eq_of_nextPlace_le {t : Tree} {shadow relative l more : Location} {s : String}
    (h : t.nextPlace shadow relative ++ more <+: shadow ++ s :: l) :
    s = Text.decimal (t.counter shadow + 1) := by
  unfold nextPlace at h
  rw [List.append_assoc, List.prefix_append_right_inj, List.cons_append, List.cons_prefix_cons] at h
  exact h.1.symm

/-- The counter is not in the directory of a freeze. -/
theorem not_prefix_counter {shadow : Location} (number : Nat) :
    ¬ shadow ++ [Text.decimal number] <+: shadow ++ [incrementName] := by
  intro hle
  rw [List.prefix_append_right_inj, List.cons_prefix_cons] at hle
  exact Controller.decimal_ne_incrementName number hle.1

/-- A tree is another one after a freeze of some parts of a table that lies at `relative`. -/
structure Freezes (t : Tree) (shadow relative : Location) (parts : List LivePart) (t' : Tree) :
    Prop where
  wellFormed : t'.WellFormed
  /-- The counter is one more than before. -/
  counted : t'.content? (shadow ++ [incrementName])
    = some (.file (Text.decimal (t.counter shadow + 1) ++ "\n").toUTF8)
  /-- Each part is there with everything in it. -/
  copied : ∀ p ∈ parts, ∀ l,
    t'.content? (t.nextPlace shadow relative ++ p.name :: l) = p.files.content? l
  /-- Everything else is as before, but for the directories above the counter and the copies. -/
  other : ∀ l, ¬ l <+: shadow ++ [incrementName] →
    (∀ p ∈ parts, ¬ l <+: t.nextPlace shadow relative ++ [p.name] ∧
      ¬ t.nextPlace shadow relative ++ [p.name] <+: l) → t'.node? l = t.node? l

namespace Freezes

variable {t t' : Tree} {shadow relative : Location} {parts : List LivePart}

/-- A part that was copied has a directory. -/
theorem content_part (h : t.Freezes shadow relative parts t') {p : LivePart} (hp : p ∈ parts) :
    t'.content? (t.nextPlace shadow relative ++ [p.name]) = some .directory :=
  h.copied p hp []

/-- The shadow directory is there. -/
theorem content_shadow (h : t.Freezes shadow relative parts t') :
    t'.content? shadow = some .directory :=
  h.wellFormed.nested.directory (List.cons_ne_nil incrementName []) (node?_ne_none h.counted)

/-- The counter of the tree is one more. -/
theorem counter_eq (h : t.Freezes shadow relative parts t')
    (hcount : t.counter shadow + 1 < wordCount 64) : t'.counter shadow = t.counter shadow + 1 := by
  have hread := Controller.readGeneration_decimal hcount
  rw [counter, h.counted]
  dsimp only
  rw [hread]

/-- There are no links afterwards. -/
theorem noLinks (h : t.Freezes shadow relative parts t') (ht : t.NoLinks) : t'.NoLinks := by
  intro l target hlink
  have hnot : ∀ {loc content}, t'.content? loc = some content →
      (∀ target, content ≠ .link target) → ¬ l <+: loc := by
    rintro loc content hloc hcontent ⟨r, rfl⟩
    by_cases hr : r = []
    · rw [hr, List.append_nil, hlink] at hloc
      exact hcontent target (Option.some.inj hloc).symm
    · have hdirectory := h.wellFormed.nested.directory hr (node?_ne_none hloc)
      rw [hlink] at hdirectory
      cases hdirectory
  have hsame : t'.node? l = t.node? l := by
    refine h.other l (hnot h.counted nofun) fun p hp => ⟨hnot (h.content_part hp) nofun, ?_⟩
    rintro ⟨r, rfl⟩
    rw [List.append_assoc, List.singleton_append, h.copied p hp r] at hlink
    exact p.noLinks r target hlink
  rw [content?, hsame] at hlink
  exact ht l target hlink

/-- The directory of any other number is as before. -/
theorem node?_number (h : t.Freezes shadow relative parts t') {number : Nat}
    (hnumber : number ≠ t.counter shadow + 1) :
    t'.node? (shadow ++ [Text.decimal number]) = t.node? (shadow ++ [Text.decimal number]) := by
  have hdecimal : Text.decimal number ≠ Text.decimal (t.counter shadow + 1) :=
    fun heq => hnumber (Text.decimal_injective heq)
  exact h.other _ (not_prefix_counter number) fun p _ =>
    ⟨fun hle => hdecimal (eq_of_prefix_nextPlace hle), fun hle => hdecimal (eq_of_nextPlace_le hle)⟩

/-- The files are ready for one more freeze. -/
theorem ready (h : t.Freezes shadow relative parts t') (ht : t.Ready shadow)
    (hcount : t.counter shadow + 1 < wordCount 64) : t'.Ready shadow where
  wellFormed := h.wellFormed
  noLinks := h.noLinks ht.noLinks
  passable := h.wellFormed.nested.passable (node?_ne_none h.counted)
  writable := by
    rw [h.counted]
    nofun
  fresh := by
    intro number hnumber
    rw [h.counter_eq hcount] at hnumber
    rw [h.node?_number (by omega)]
    exact ht.fresh number (by omega)

/-! ## Finding the copies -/

/-- At the place of the copies there is nothing else. -/
theorem exists_of_node? (h : t.Freezes shadow relative parts t') (ht : t.Ready shadow) {s : String}
    (hs : t'.node? (t.nextPlace shadow relative ++ [s]) ≠ none) : ∃ p ∈ parts, p.name = s := by
  by_contra hnot
  push Not at hnot
  have hsame : t'.node? (t.nextPlace shadow relative ++ [s])
      = t.node? (t.nextPlace shadow relative ++ [s]) := by
    refine h.other _ (fun hle => ?_) fun p hp => ⟨fun hle => ?_, fun hle => ?_⟩
    · exact Controller.decimal_ne_incrementName _ (eq_of_nextPlace_le hle).symm
    · rw [List.prefix_append_right_inj, List.cons_prefix_cons] at hle
      exact hnot p hp hle.1.symm
    · rw [List.prefix_append_right_inj, List.cons_prefix_cons] at hle
      exact hnot p hp hle.1
  -- Before the freeze the directory of its number was not there, and nothing in it.
  have hfresh := ht.fresh (t.counter shadow + 1) (Nat.lt_succ_self _)
  refine ht.wellFormed.nested.exists_above (q := shadow ++ [Text.decimal (t.counter shadow + 1)])
    (r := relative ++ [s]) ?_ hfresh
  rwa [hsame, nextPlace, List.append_assoc, List.cons_append, List.append_cons] at hs

/-- The directories at the place of the copies are those of the parts. -/
theorem directoryNames_perm (h : t.Freezes shadow relative parts t') (ht : t.Ready shadow)
    (hdistinct : (parts.map (·.name)).Nodup) :
    (FrozenPart.directoryNames (t'.listing (t.nextPlace shadow relative))).Perm
      (parts.map (·.name)) := by
  rw [List.perm_ext_iff_of_nodup (h.wellFormed.nodup_directoryNames _) hdistinct]
  intro s
  rw [h.wellFormed.mem_directoryNames, List.mem_map]
  constructor
  · exact fun hs => h.exists_of_node? ht (node?_ne_none hs)
  · rintro ⟨p, hp, rfl⟩
    exact h.content_part hp

section Found

variable {dir : Path} (database table : String)

/-- A copy is found as the part that it is a copy of. -/
theorem part_eq (h : t.Freezes shadow relative parts t') (hdir : dir.text ≠ "")
    (hup : .up ∉ dir.components) (hnames : dir.names = t.nextPlace shadow relative) {p : LivePart}
    (hp : p ∈ parts) (hadmissible : Admissible ((dir.entry p.name).entry manifestName)) :
    t'.part dir database table p.name = .ok (p.frozen dir database table) := by
  have hmanifest : Path.IsName manifestName := by decide
  have hpart : (dir.entry p.name).text ≠ "" := dir.entry_text_ne_empty p.named.ne_empty
  have hpartUp := Path.up_not_mem_entry p.named hup
  have hpartNames : (dir.entry p.name).names = t.nextPlace shadow relative ++ [p.name] := by
    rw [Path.names_entry p.named hdir, hnames]
  have hread : t'.readFile ((dir.entry p.name).entry manifestName) = .ok p.manifest := by
    refine readFile_of_file h.wellFormed.nested
      (Path.direct_entry hmanifest hpart hpartUp) hadmissible ?_
    rw [Path.names_entry hmanifest hpart, hpartNames, List.append_assoc, List.singleton_append,
      h.copied p hp, p.manifest_content]
  have hlist : t'.listDirectory (dir.entry p.name)
      = .ok (t'.listing (t.nextPlace shadow relative ++ [p.name])) := by
    refine listDirectory_of_resolve ?_ (h.content_part hp)
    rw [← hpartNames]
    refine resolve_of_directory h.wellFormed.nested hpart hpartUp
      (hadmissible.of_entry hmanifest hpart) ?_
    rw [hpartNames]
    exact h.content_part hp
  -- The copy has the same files in its directory, so they have as many bytes.
  have hsize : (t'.listing (t.nextPlace shadow relative ++ [p.name])).foldr (·.kind.size + ·) 0
      = (p.files.listing []).foldr (·.kind.size + ·) 0 := by
    refine FrozenPart.sizes_of_perm (listing_perm h.wellFormed p.wellFormed fun s => ?_)
    rw [List.append_assoc, List.singleton_append]
    exact h.copied p hp [s]
  unfold Tree.part
  dsimp only
  rw [hread, hlist]
  dsimp only [bind, Except.bind]
  rw [hsize]
  rfl

/-- Attempts that all succeeded are still such in another order. -/
theorem exists_of_perm_ok {ε α : Type} {rs : List (Except ε α)} {as : List α}
    (h : rs.Perm (as.map .ok)) : ∃ bs : List α, rs = bs.map .ok ∧ bs.Perm as := by
  refine ⟨rs.filterMap Except.toOption, ?_, ?_⟩
  · rw [List.map_filterMap, List.filterMap_congr (g := some), List.filterMap_some]
    intro r hr
    obtain ⟨a, -, rfl⟩ := List.mem_map.mp (h.mem_iff.mp hr)
    rfl
  · have hsame : (as.map (Except.ok (ε := ε))).filterMap Except.toOption = as := by
      rw [List.filterMap_map]
      exact List.filterMap_some
    exact hsame ▸ h.filterMap Except.toOption

/-- In the directory of the copies each part is found once, and nothing else. -/
theorem parts_perm (h : t.Freezes shadow relative parts t') (ht : t.Ready shadow)
    (hdistinct : (parts.map (·.name)).Nodup) (hdir : dir.text ≠ "") (hup : .up ∉ dir.components)
    (hnames : dir.names = t.nextPlace shadow relative) (hadmissible : Admissible dir)
    (hmanifests : ∀ p ∈ parts, Admissible ((dir.entry p.name).entry manifestName)) :
    ∃ ps, t'.parts dir database table = .ok ps ∧
      (ps.map FrozenPart.summary).Perm (parts.map LivePart.summary) := by
  unfold Tree.parts
  by_cases hparts : parts = []
  · -- Nothing was copied, so there is no directory of this freeze.
    subst hparts
    have hmissing : t'.node? (shadow ++ [Text.decimal (t.counter shadow + 1)]) = none := by
      rw [h.other _ (not_prefix_counter _) nofun]
      exact ht.fresh _ (Nat.lt_succ_self _)
    rw [listDirectory_of_missing h.wellFormed.nested hdir hup hadmissible hnames h.content_shadow
      hmissing]
    exact ⟨[], rfl, .nil⟩
  · -- A part that was copied makes the directory of the table there.
    obtain ⟨first, hfirst⟩ := List.exists_mem_of_ne_nil parts hparts
    have hplace : t'.content? (t.nextPlace shadow relative) = some .directory :=
      h.wellFormed.nested.directory (List.cons_ne_nil first.name [])
        (node?_ne_none (h.content_part hfirst))
    have hlist : t'.listDirectory dir = .ok (t'.listing (t.nextPlace shadow relative)) := by
      refine listDirectory_of_resolve ?_ hplace
      rw [← hnames] at hplace ⊢
      exact resolve_of_directory h.wellFormed.nested hdir hup hadmissible hplace
    have hfound : ((parts.map (·.name)).map (t'.part dir database table))
        = (parts.map fun p => p.frozen dir database table).map .ok := by
      rw [List.map_map, List.map_map]
      exact List.map_congr_left fun p hp => h.part_eq _ _ hdir hup hnames hp (hmanifests p hp)
    -- The directory tells the parts by their names in order, which are those that were copied.
    obtain ⟨ps, hps, hperm⟩ := exists_of_perm_ok
      (((h.directoryNames_perm ht hdistinct).map (t'.part dir database table)).trans
        (.of_eq hfound))
    rw [hlist]
    dsimp only
    rw [hps, List.filter_eq_self.mpr]
    · refine ⟨ps, mapM_id_eq_ok_iff.mpr rfl, (hperm.map FrozenPart.summary).trans (.of_eq ?_)⟩
      rw [List.map_map]
      rfl
    · intro r hr
      obtain ⟨p, -, rfl⟩ := List.mem_map.mp hr
      rfl

end Found

end Freezes

end Tree

/-- An engine that freezes a table by copying its parts, wherever the files are ready for it and the
number of the freeze is one of 64 bits. Freezes go to `shadow`, and the table lies at `relative`
below the engine's directory. -/
structure Engine.Copies {σ : Type} (engine : Engine σ) (db table text : String) (live : LiveTable)
    (shadow relative : Location) : Prop where
  /-- The engine tells the table's directory. -/
  dataPath : ∀ state t, ∃ state',
    engine (Query.tableDataPath db table) state t = (.ok (.text text), state', t)
  /-- The engine lists each partition of the parts once, and no other. -/
  partitions : ∀ state t, ∃ reply state' names,
    engine (Query.tablePartitions db table) state t = (.ok reply, state', t) ∧
      reply.column "partition" = .ok names ∧ names.Nodup ∧
      ∀ name, name ∈ names ↔ ∃ p ∈ live.parts, p.partition = name
  /-- Freezing the table copies all of its parts. -/
  freezeTable : ∀ state t, t.Ready shadow → t.counter shadow + 1 < wordCount 64 →
    ∃ reply state' t', engine (Query.freezeTable db table) state t = (.ok reply, state', t') ∧
      t.Freezes shadow relative live.parts t'
  /-- Freezing a partition copies the parts of that partition. -/
  freezePartition : ∀ name, (∃ p ∈ live.parts, p.partition = name) → ∀ state t, t.Ready shadow →
    t.counter shadow + 1 < wordCount 64 → ∃ reply state' t',
      engine (Query.freezePartition db table name) state t = (.ok reply, state', t') ∧
        t.Freezes shadow relative (live.parts.filter (·.partition = name)) t'

/-- The operating system takes the paths that are read after freezes of some parts of a table at
`relative`, which have the numbers after `first` up to `last`. -/
structure Config.Reads (config : Config) (relative : Path) (parts : List LivePart)
    (first last : Nat) : Prop where
  counter : Tree.Admissible config.counterPath
  directory : ∀ number, first < number → number ≤ last →
    Tree.Admissible (config.frozenPath number relative)
  manifest : ∀ number, first < number → number ≤ last → ∀ p ∈ parts,
    Tree.Admissible (((config.frozenPath number relative).entry p.name).entry manifestName)

/-- It takes those of fewer parts and of some of the freezes. -/
theorem Config.Reads.mono {config : Config} {relative : Path} {parts parts' : List LivePart}
    {first last first' last' : Nat} (h : config.Reads relative parts first last)
    (hparts : parts' ⊆ parts) (hfirst : first ≤ first') (hlast : last' ≤ last) :
    config.Reads relative parts' first' last' where
  counter := h.counter
  directory number hlow hhigh := h.directory number (hfirst.trans_lt hlow) (hhigh.trans hlast)
  manifest number hlow hhigh p hp :=
    h.manifest number (hfirst.trans_lt hlow) (hhigh.trans hlast) p (hparts hp)

/-- Right after a freeze the parts that it copied are found, each of them once. -/
theorem Tree.Freezes.frozenParts {config : Config} {p : Path} {t t' : Tree}
    {parts : List LivePart} (hdata : config.dataPath.text ≠ "")
    (hbelow : p.LiesBelow config.dataPath)
    (ht : t.Ready config.shadow)
    (h : t.Freezes config.shadow (p.namesBelow config.dataPath) parts t')
    (hcount : t.counter config.shadow + 1 < wordCount 64)
    (hdistinct : (parts.map (·.name)).Nodup)
    (hreads : config.Reads (p.remainder config.dataPath.components.length) parts
      (t.counter config.shadow) (t.counter config.shadow + 1)) (db table : String) :
    ∃ ps, Reference.frozenParts config db table (p.remainder config.dataPath.components.length) t'
        = .ok ps ∧ (ps.map FrozenPart.summary).Perm (parts.map LivePart.summary) := by
  have hup : .up ∉ config.dataPath.components := by
    obtain ⟨⟨rest, -, hcomponents⟩, hup⟩ := hbelow
    rw [hcomponents, List.mem_append, not_or] at hup
    exact hup.1
  have hpath := Config.direct_counterPath hup
  have hbytes : t'.readFile config.counterPath
      = .ok (Text.decimal (t.counter config.shadow + 1) ++ "\n").toUTF8 := by
    refine readFile_of_file h.wellFormed.nested hpath hreads.counter ?_
    rw [Config.names_counterPath]
    exact h.counted
  have hnumber : t'.readFile config.counterPath >>= Controller.readGeneration
      = .ok (t.counter config.shadow + 1) := by
    rw [hbytes]
    exact Controller.readGeneration_decimal hcount
  have hrange := Nat.lt_succ_self (t.counter config.shadow)
  obtain ⟨ps, hps, hperm⟩ := h.parts_perm db table ht hdistinct
    (Config.frozenPath_text_ne_empty hdata hbelow _) (Config.up_not_mem_frozenPath hdata hbelow _)
    (Config.names_frozenPath hdata hbelow _) (hreads.directory _ hrange le_rfl)
    (hreads.manifest _ hrange le_rfl)
  exact ⟨ps, by rw [Reference.frozenParts_of_number hnumber, hps]; rfl, hperm⟩

end TableSnapshots
