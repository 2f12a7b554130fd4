import Mathlib.Data.List.Dedup
import TableSnapshots.Proofs.Freeze.Copier

/-!
# The two ways to freeze a table

A table is frozen by one statement, or by one for each of its partitions. With an engine that copies
the parts of what it freezes, both return the same parts: the statements for the partitions find the
parts of one partition after the other (`exists_of_outcomes`), each in the directory of a number of
its own, and every part is in one partition (`flatMap_filter_perm`).
-/

namespace TableSnapshots

/-- Items taken together by keys that are all different are the items, if each has one of the
keys. -/
theorem flatMap_filter_perm {α κ : Type} [DecidableEq κ] (key : α → κ) {keys : List κ}
    {items : List α} (hkeys : keys.Nodup) (hitems : ∀ a ∈ items, key a ∈ keys) :
    (keys.flatMap fun k => items.filter (key · = k)).Perm items := by
  induction keys generalizing items with
  | nil =>
    have hnone : items = [] :=
      List.eq_nil_iff_forall_not_mem.mpr fun a ha => List.not_mem_nil (hitems a ha)
    rw [hnone]
    exact .nil
  | cons k keys ih =>
    obtain ⟨hk, hkeys⟩ := List.nodup_cons.mp hkeys
    -- The items of other keys are the same when those of this key are left out.
    have hothers : ∀ k' ∈ keys, items.filter (key · = k')
        = (items.filter (fun a => !decide (key a = k))).filter (key · = k') := by
      intro k' hk'
      rw [List.filter_filter]
      refine List.filter_congr fun a _ => ?_
      by_cases hkey : key a = k'
      · have hne : key a ≠ k := fun heq => hk (by rwa [← heq, hkey])
        simp [hkey, hkey ▸ hne]
      · simp [hkey]
    have hrest : (keys.flatMap fun k' => items.filter (key · = k')).Perm
        (items.filter fun a => !decide (key a = k)) := by
      rw [List.flatMap_congr hothers]
      refine ih hkeys fun a ha => ?_
      obtain ⟨hmem, hne⟩ := List.mem_filter.mp ha
      exact (List.mem_cons.mp (hitems a hmem)).resolve_left (by simpa using hne)
    rw [List.flatMap_cons]
    exact (hrest.append_left _).trans (List.filter_append_perm _ items)

namespace World

/-- A query gets what the engine answers, and the files are those that it leaves. -/
theorem answer_of_eq {σ : Type} {engine : Engine σ} {w : World σ} {query : String}
    {answer : Except GatewayError Reply} {state : σ} {t : Tree}
    (h : engine query w.engine w.tree = (answer, state, t)) :
    w.answer engine query = answer ∧ (w.after engine [query]).tree = t := by
  have hask : ask engine query w
      = (answer, { w with engine := state, tree := t, queries := w.queries ++ [query] }) := by
    unfold ask
    rw [h]
  constructor
  · exact congrArg (·.1) hask
  · exact congrArg (·.2.tree) hask

end World

namespace Reference

variable {σ : Type} {engine : Engine σ} {config : Config} {db table text : String} {p : Path}
  {live : LiveTable} {w : World σ}

/-- A statement that freezes some parts gives these, each of them once. -/
theorem exists_of_outcome (db table : String) {parts : List LivePart}
    (hdata : config.dataPath.text ≠ "") (hbelow : p.LiesBelow config.dataPath) {statement : String}
    {reply : Reply} {state : σ} {t : Tree}
    (hstatement : engine statement w.engine w.tree = (.ok reply, state, t))
    (hw : w.tree.Ready config.shadow)
    (hfreezes : w.tree.Freezes config.shadow (p.namesBelow config.dataPath) parts t)
    (hcount : w.tree.counter config.shadow + 1 < wordCount 64)
    (hdistinct : (parts.map (·.name)).Nodup)
    (hreads : config.Reads (p.remainder config.dataPath.components.length) parts
      (w.tree.counter config.shadow) (w.tree.counter config.shadow + 1)) :
    ∃ ps, outcome engine config db table (p.remainder config.dataPath.components.length) w statement
        = .ok ps ∧ (ps.map FrozenPart.summary).Perm (parts.map LivePart.summary) := by
  obtain ⟨hanswer, htree⟩ := World.answer_of_eq hstatement
  obtain ⟨ps, hps, hperm⟩ :=
    hfreezes.frozenParts hdata hbelow hw hcount hdistinct hreads db table
  refine ⟨ps, ?_, hperm⟩
  unfold outcome
  rw [hanswer, htree]
  exact hps

/-- Statements that freeze partitions one after the other give the parts of each, in the directories
of the numbers that follow the counter. -/
theorem exists_of_outcomes (hdata : config.dataPath.text ≠ "")
    (hbelow : p.LiesBelow config.dataPath)
    (hengine : engine.Copies db table text live config.shadow (p.namesBelow config.dataPath))
    {names : List String} (hnames : ∀ name ∈ names, ∃ p ∈ live.parts, p.partition = name)
    (hw : w.tree.Ready config.shadow)
    (hcount : w.tree.counter config.shadow + names.length < wordCount 64)
    (hreads : config.Reads (p.remainder config.dataPath.components.length) live.parts
      (w.tree.counter config.shadow) (w.tree.counter config.shadow + names.length)) :
    ∃ ps, inOrder (outcomes engine config db table
        (p.remainder config.dataPath.components.length) w
        (names.map (Query.freezePartition db table))) = .ok ps ∧
      (ps.map FrozenPart.summary).Perm
        ((names.flatMap fun name => live.parts.filter (·.partition = name)).map
          LivePart.summary) := by
  induction names generalizing w with
  | nil => exact ⟨[], rfl, .nil⟩
  | cons name names ih =>
    rw [List.length_cons] at hcount hreads
    have hfirstCount : w.tree.counter config.shadow + 1 < wordCount 64 := by omega
    obtain ⟨reply, state, t, hstatement, hfreezes⟩ := hengine.freezePartition name
      (hnames name List.mem_cons_self) w.engine w.tree hw hfirstCount
    obtain ⟨ps, hps, hperm⟩ := exists_of_outcome db table hdata hbelow hstatement hw
      hfreezes hfirstCount ((List.filter_sublist.map _).nodup live.distinct)
      (hreads.mono (List.filter_subset_self _) le_rfl (by omega))
    -- The next statement finds the files ready, and the counter one higher.
    have htree := (World.answer_of_eq hstatement).2
    have hready := hfreezes.ready hw hfirstCount
    have hcounter := hfreezes.counter_eq hfirstCount
    rw [← htree] at hready hcounter
    obtain ⟨rest, hrest, hrestPerm⟩ := ih
      (fun name' hname' => hnames name' (List.mem_cons_of_mem name hname')) hready
      (by rw [hcounter]; omega) (hreads.mono (List.Subset.refl _) (by omega) (by omega))
    refine ⟨ps ++ rest, ?_, ?_⟩
    · rw [List.map_cons, outcomes_cons, hps, inOrder_cons_ok, hrest]
      rfl
    · rw [List.flatMap_cons, List.map_append, List.map_append]
      exact hperm.append hrestPerm

section Freeze

variable (hdata : config.dataPath.text ≠ "") (hbelow : p.LiesBelow config.dataPath)
  (hengine : engine.Copies db table text live config.shadow (p.namesBelow config.dataPath))
  (hw : w.tree.Ready config.shadow)
include hdata hbelow hengine hw

/-- The freeze of a whole table gives its parts, each of them once. -/
theorem exists_of_freeze_wholeTable (hcount : w.tree.counter config.shadow + 1 < wordCount 64)
    (hreads : config.Reads (p.remainder config.dataPath.components.length) live.parts
      (w.tree.counter config.shadow) (w.tree.counter config.shadow + 1)) :
    ∃ ps, (freeze engine config db table (p.remainder config.dataPath.components.length) w
        .wholeTable).result = .ok ps ∧
      (ps.map FrozenPart.summary).Perm (live.parts.map LivePart.summary) := by
  obtain ⟨_, hpath⟩ := hengine.dataPath w.engine w.tree
  have htree := (World.answer_of_eq hpath).2
  rw [← htree] at hw hcount hreads
  obtain ⟨reply, state, t, hstatement, hfreezes⟩ := hengine.freezeTable _ _ hw hcount
  obtain ⟨ps, hps, hperm⟩ := exists_of_outcome db table hdata hbelow hstatement hw hfreezes hcount
    live.distinct hreads
  refine ⟨ps, ?_, hperm⟩
  dsimp only [freeze, ofStatements]
  rw [outcomes_cons, hps]
  exact inOrder_singleton _

/-- The freeze of the partitions of a table gives its parts as well, each of them once. -/
theorem exists_of_freeze_perPartition
    (hcount : w.tree.counter config.shadow + (live.parts.map (·.partition)).dedup.length
      < wordCount 64)
    (hreads : config.Reads (p.remainder config.dataPath.components.length) live.parts
      (w.tree.counter config.shadow)
      (w.tree.counter config.shadow + (live.parts.map (·.partition)).dedup.length)) :
    ∃ ps, (freeze engine config db table (p.remainder config.dataPath.components.length) w
        .perPartition).result = .ok ps ∧
      (ps.map FrozenPart.summary).Perm (live.parts.map LivePart.summary) := by
  obtain ⟨_, hpath⟩ := hengine.dataPath w.engine w.tree
  have htree := (World.answer_of_eq hpath).2
  obtain ⟨reply, state, names, hlisting, hcolumn, hnodup, hnames⟩ :=
    hengine.partitions (w.after engine [Query.tableDataPath db table]).engine
      (w.after engine [Query.tableDataPath db table]).tree
  obtain ⟨hanswer, hlistTree⟩ := World.answer_of_eq hlisting
  rw [← World.after_append, htree] at hlistTree
  -- The partitions that the engine lists are those of the parts, so there are as many of them.
  have hlength : names.length = (live.parts.map (·.partition)).dedup.length := by
    refine ((List.perm_ext_iff_of_nodup hnodup (List.nodup_dedup _)).mpr fun name => ?_).length_eq
    rw [hnames, List.mem_dedup, List.mem_map]
  rw [← hlength, ← hlistTree] at hcount hreads
  rw [← hlistTree] at hw
  obtain ⟨ps, hps, hperm⟩ := exists_of_outcomes hdata hbelow hengine
    (fun name hname => (hnames name).mp hname) hw hcount hreads
  have hparts : (names.flatMap fun name => live.parts.filter (·.partition = name)).Perm
      live.parts :=
    flatMap_filter_perm _ hnodup fun p hp => (hnames p.partition).mpr ⟨p, hp, rfl⟩
  refine ⟨ps, ?_, hperm.trans (hparts.map _)⟩
  have hcell : (w.after engine [Query.tableDataPath db table]).answer engine
      (Query.tablePartitions db table) >>= Reply.column "partition" = .ok names := by
    rw [hanswer]
    exact hcolumn
  dsimp only [freeze]
  rw [hcell]
  exact hps

end Freeze

end Reference

namespace Controller

variable {σ : Type} {engine : Engine σ} {delegate : Delegate} {config : Config}
  {db table text : String} {live : LiveTable} {w : World σ}

/-- With an engine that copies the parts of what it freezes, freezing a table partition by partition
succeeds and returns every part of the table once, and so does freezing it as a whole: from the same
files both return parts with the same names, fingerprints and sizes. -/
theorem freezeTable_strategies_agree {whole partitioned : Controller (StateM (World σ))}
    (hwhole : whole.Serves (World.host engine delegate) config)
    (hwholeStrategy : whole.strategy = .wholeTable)
    (hpartitioned : partitioned.Serves (World.host engine delegate) config)
    (hpartitionedStrategy : partitioned.strategy = .perPartition)
    (hdata : config.dataPath.text ≠ "") (hbelow : (Path.mk text).LiesBelow config.dataPath)
    (hengine : engine.Copies db table text live config.shadow
      ((Path.mk text).namesBelow config.dataPath))
    (hw : w.tree.Ready config.shadow)
    (hcount : w.tree.counter config.shadow
      + max 1 (live.parts.map (·.partition)).dedup.length < wordCount 64)
    (hreads : config.Reads ((Path.mk text).remainder config.dataPath.components.length) live.parts
      (w.tree.counter config.shadow)
      (w.tree.counter config.shadow + max 1 (live.parts.map (·.partition)).dedup.length)) :
    ∃ parts parts' w₁ w₂,
      (whole.freezeTable db table).run.run w = (.ok parts, w₁) ∧
        (partitioned.freezeTable db table).run.run w = (.ok parts', w₂) ∧
        (parts'.map FrozenPart.summary).Perm (live.parts.map LivePart.summary) ∧
        (parts'.map FrozenPart.summary).Perm (parts.map FrozenPart.summary) := by
  have htext : text ≠ "" := Config.text_ne_empty_of_liesBelow hdata hbelow
  obtain ⟨_, hpath⟩ := hengine.dataPath w.engine w.tree
  have hanswer := (World.answer_of_eq hpath).1
  have hrelative : ∀ {c : Controller (StateM (World σ))},
      c.Serves (World.host engine delegate) config → c.relativePath ⟨text⟩
        = .ok ((Path.mk text).remainder config.dataPath.components.length) := by
    intro c hc
    rw [← hc.root]
    exact relativePath_of_liesBelow htext (by rwa [hc.root])
  obtain ⟨parts, hparts, hperm⟩ := Reference.exists_of_freeze_wholeTable hdata hbelow hengine hw
    (by omega) (hreads.mono (List.Subset.refl _) le_rfl (by omega))
  obtain ⟨parts', hparts', hperm'⟩ := Reference.exists_of_freeze_perPartition hdata hbelow hengine
    hw (by omega) (hreads.mono (List.Subset.refl _) le_rfl (by omega))
  have hrun := run_freezeTable hwhole hanswer htext (hrelative hwhole)
  have hrun' := run_freezeTable hpartitioned hanswer htext (hrelative hpartitioned)
  rw [hwholeStrategy, hparts] at hrun
  rw [hpartitionedStrategy, hparts'] at hrun'
  exact ⟨parts, parts', _, _, hrun, hrun', hperm', hperm'.trans hperm.symm⟩

/-- A part with a manifest and one file of data. -/
def partOfTwoFiles (name partition : String) (manifest data : ByteArray) (h : Path.IsName name) :
    LivePart where
  name := name
  partition := partition
  files := ⟨[([manifestName], { content := .file manifest }),
    (["data.bin"], { content := .file data })]⟩
  manifest := manifest
  named := h
  wellFormed := by
    refine ⟨fun e he => ?_, show [[manifestName], ["data.bin"]].Nodup by decide, fun e he => ?_⟩
    · rcases List.mem_pair.mp he with rfl | rfl <;> rfl
    · rcases List.mem_pair.mp he with rfl | rfl
      · exact fun s hs => List.mem_singleton.mp hs ▸ (by decide : Path.IsName manifestName)
      · exact fun s hs => List.mem_singleton.mp hs ▸ (by decide : Path.IsName "data.bin")
  noLinks := by
    refine Tree.noLinks_of_kind fun e he => ?_
    rcases List.mem_pair.mp he with rfl | rfl <;> nofun
  manifest_content := rfl

/-- A table of three parts in two partitions. -/
def threeParts : LiveTable where
  parts := [partOfTwoFiles "p1" "1" ⟨#[1]⟩ ⟨#[7, 7]⟩ (by decide),
    partOfTwoFiles "p2" "2" ⟨#[2]⟩ ⟨#[8]⟩ (by decide),
    partOfTwoFiles "p3" "1" ⟨#[3]⟩ ⟨#[]⟩ (by decide)]
  distinct := by decide

/-- The files after four freezes, of which the last one is still there. -/
def fourFreezes : Tree :=
  ⟨[(["ch"], { content := .directory }), (["ch", "shadow"], { content := .directory }),
    (["ch", "shadow", "increment.txt"],
      { content := .file (Text.decimal 4 ++ "\n").toUTF8 }),
    (["ch", "shadow", "4"], { content := .directory })]⟩

/-- The counter is read as four. -/
theorem counter_fourFreezes : fourFreezes.counter ["ch", "shadow"] = 4 := by
  have hcontent : fourFreezes.content? (["ch", "shadow"] ++ [incrementName])
      = some (.file (Text.decimal 4 ++ "\n").toUTF8) := rfl
  unfold Tree.counter
  rw [hcontent]
  dsimp only
  rw [readGeneration_decimal (by decide)]

/-- They are ready for the next freeze. -/
theorem ready_fourFreezes : fourFreezes.Ready ["ch", "shadow"] where
  wellFormed := by decide +kernel
  noLinks := Tree.noLinks_of_kind (by decide +kernel)
  passable := by
    have hnested : fourFreezes.Nested := by decide +kernel
    exact hnested.passable (Tree.node?_ne_none (show _ = some (.file _) from rfl))
  writable := nofun
  fresh := by
    intro number hnumber
    rw [counter_fourFreezes] at hnumber
    by_contra hnode
    obtain ⟨e, he, hloc⟩ := Tree.exists_entry (by simp) hnode
    simp only [fourFreezes, List.mem_cons, List.not_mem_nil, or_false] at he
    rcases he with rfl | rfl | rfl | rfl
    · simp at hloc
    · simp at hloc
    · have hname : "increment.txt" = Text.decimal number := by simpa using hloc
      exact decimal_ne_incrementName number hname.symm
    · have hname : "4" = Text.decimal number := by simpa using hloc
      have hfour : Text.decimal 4 = "4" := by decide
      have heq := Text.decimal_injective (hfour.trans hname)
      omega

/-- Three parts in two partitions are found by both ways to freeze them, after four other
freezes. -/
theorem freezeTable_strategies_agree_threeParts :
    let config : Config := ⟨⟨"/ch"⟩, "u", "g", {}, {}⟩
    let host := World.host (copier "db" "t" "/ch/data/db/t/" threeParts config.shadow
      ((Path.mk "/ch/data/db/t/").namesBelow config.dataPath)) (.noted (.ok ()))
    let whole : Controller (StateM (World Unit)) :=
      { serving host config ⟨[21, 8], "21.8"⟩ with strategy := .wholeTable }
    let partitioned : Controller (StateM (World Unit)) :=
      { serving host config ⟨[17, 2], "17.2"⟩ with strategy := .perPartition }
    let w : World Unit := ⟨(), fourFreezes, [], [], [], [], []⟩
    ∃ parts parts' w₁ w₂,
      (whole.freezeTable "db" "t").run.run w = (.ok parts, w₁) ∧
        (partitioned.freezeTable "db" "t").run.run w = (.ok parts', w₂) ∧
        (parts'.map FrozenPart.summary).Perm [("p1", fingerprint ⟨#[1]⟩, 3),
          ("p2", fingerprint ⟨#[2]⟩, 2), ("p3", fingerprint ⟨#[3]⟩, 1)] ∧
        (parts'.map FrozenPart.summary).Perm (parts.map FrozenPart.summary) := by
  intro config host whole partitioned w
  have hshadow : config.shadow = ["ch", "shadow"] := by decide +kernel
  have hcounter : w.tree.counter config.shadow = 4 := by
    rw [hshadow]
    exact counter_fourFreezes
  have hready : w.tree.Ready config.shadow := by
    rw [hshadow]
    exact ready_fourFreezes
  have hlength : max 1 (threeParts.parts.map (·.partition)).dedup.length = 2 := by decide
  have hreads : config.Reads
      ((Path.mk "/ch/data/db/t/").remainder config.dataPath.components.length)
      threeParts.parts 4 (4 + 2) := by
    refine ⟨by decide +kernel, fun number hlow hhigh => ?_, fun number hlow hhigh => ?_⟩
    · obtain rfl | rfl : number = 5 ∨ number = 6 := by omega
      · decide +kernel
      · decide +kernel
    · obtain rfl | rfl : number = 5 ∨ number = 6 := by omega
      · decide +kernel
      · decide +kernel
  exact freezeTable_strategies_agree (serving_serves_of _ _ (ofVersion_of_lt (by decide) _ _)) rfl
    (serving_serves_of _ _ (ofVersion_of_gt (by decide) _ _)) rfl (by decide) (by decide +kernel)
    (copier_copies _ _ _ _ (fun _ => Path.isName_of_mem_names)
      fun _ => Path.isName_of_mem_namesBelow)
    hready (by
      rw [hcounter, hlength]
      decide) (by rwa [hcounter, hlength])

/-- The root, spelled with this many slashes. -/
def slashes (n : Nat) : Path :=
  ⟨String.ofList (List.replicate n '/')⟩

/-- There are as many bytes in it. -/
theorem le_utf8ByteSize_slashes (n : Nat) : n ≤ (slashes n).text.utf8ByteSize := by
  unfold slashes
  induction n with
  | zero => exact Nat.zero_le _
  | succ n ih =>
    rw [List.replicate_succ', String.ofList_append, String.utf8ByteSize_append]
    exact Nat.add_le_add ih (by decide)

/-- It has the components of the root. -/
theorem components_slashes (n : Nat) : (slashes (n + 1)).components = [.root] := by
  have hpieces : (slashes (n + 1)).pieces = [] :: List.replicate (n + 1) [] := by
    have hsplit := Text.pieces_append_replicate '/' [] (n + 1)
    rw [List.nil_append] at hsplit
    unfold Path.pieces slashes
    rw [String.toList_ofList, hsplit]
    rfl
  have hidle : (List.replicate (n + 1) []).filterMap Path.component? = [] :=
    Path.filterMap_component?_eq_nil_iff.mpr fun piece hpiece => by
      rw [List.eq_of_mem_replicate hpiece]
      rfl
  rw [Path.components_of_pieces hpieces, hidle]
  rfl

/-- No freeze returns a part if the path of the engine's directory is too long for the operating
system. -/
theorem eq_nil_of_longPath {c : Controller (StateM (World σ))}
    (hc : c.Serves (World.host engine delegate) config) (hdata : config.dataPath.text ≠ "")
    (hlong : Tree.pathLimit ≤ config.dataPath.text.utf8ByteSize) {w' : World σ}
    {parts : List FrozenPart} (h : (c.freezeTable db table).run.run w = (.ok parts, w')) :
    parts = [] := by
  by_contra hparts
  obtain ⟨part, hpart⟩ := List.exists_mem_of_ne_nil parts hparts
  obtain ⟨_, -, -, -, hfound⟩ := exists_of_freezeTable hc h
  obtain ⟨_, _, -, hok⟩ := hfound part hpart
  -- The counter was read, so its path was taken, and so are those of the directories above.
  have hcounter := Reference.admissible_counterPath hok
  have hshadow : Tree.Admissible (config.dataPath.entry "shadow") :=
    Tree.Admissible.of_entry hcounter (by decide)
      (config.dataPath.entry_text_ne_empty (by decide))
  have hroot := hshadow.of_entry PathGuard.isName_shadow hdata
  exact Nat.not_lt.mpr hlong hroot.length

/-- Without the limits of the operating system on paths the two ways would have to find the parts
wherever the engine's directory is, but under a path of 4096 slashes nothing is found. -/
theorem not_agree_of_longPath :
    ¬ ∀ (engine : Engine Unit) (delegate : Delegate) (config : Config)
        (whole partitioned : Controller (StateM (World Unit))) (db table text : String)
        (live : LiveTable) (w : World Unit),
      whole.Serves (World.host engine delegate) config → whole.strategy = .wholeTable →
      partitioned.Serves (World.host engine delegate) config →
      partitioned.strategy = .perPartition →
      config.dataPath.text ≠ "" → (Path.mk text).LiesBelow config.dataPath →
      engine.Copies db table text live config.shadow
        ((Path.mk text).namesBelow config.dataPath) →
      w.tree.Ready config.shadow →
      w.tree.counter config.shadow
        + max 1 (live.parts.map (·.partition)).dedup.length < wordCount 64 →
      ∃ parts parts' w₁ w₂,
        (whole.freezeTable db table).run.run w = (.ok parts, w₁) ∧
          (partitioned.freezeTable db table).run.run w = (.ok parts', w₂) ∧
          (parts'.map FrozenPart.summary).Perm (live.parts.map LivePart.summary) ∧
          (parts'.map FrozenPart.summary).Perm (parts.map FrozenPart.summary) := by
  intro h
  let config : Config := ⟨slashes 4096, "u", "g", {}, {}⟩
  let host := World.host (copier "db" "t" "/data/db/t" threeParts config.shadow
    ((Path.mk "/data/db/t").namesBelow config.dataPath)) (.noted (.ok ()))
  have hlong : Tree.pathLimit ≤ config.dataPath.text.utf8ByteSize := le_utf8ByteSize_slashes 4096
  have hdata : config.dataPath.text ≠ "" := by
    intro hempty
    rw [hempty] at hlong
    exact absurd hlong (by decide)
  have hbelow : (Path.mk "/data/db/t").LiesBelow config.dataPath := by
    rw [Path.LiesBelow, show config.dataPath.components = [.root] from components_slashes 4095]
    exact ⟨⟨[.name "data", .name "db", .name "t"], by simp, by decide +kernel⟩, by decide +kernel⟩
  have hserves := serving_serves_of host config (ofVersion_of_gt (n := 17) (by decide) [2] "17.2")
  obtain ⟨_, parts', _, _, -, hrun, hperm, -⟩ := h _ _ config
    _ _ "db" "t" "/data/db/t" threeParts ⟨(), .empty, [], [], [], [], []⟩
    (serving_serves_of host config (ofVersion_of_lt (n := 21) (by decide) [8] "21.8")) rfl hserves
    rfl hdata hbelow (copier_copies _ _ _ _ (fun _ => Path.isName_of_mem_names)
      fun _ => Path.isName_of_mem_namesBelow) Tree.ready_empty (by
      rw [Tree.counter_empty]
      decide)
  rw [eq_nil_of_longPath hserves hdata hlong hrun] at hperm
  cases hperm.length_eq

end Controller

end TableSnapshots
