import TableSnapshots.Proofs.Controller.Guards
import TableSnapshots.Proofs.Freeze.Reference
import TableSnapshots.Proofs.Part.Remaining
import TableSnapshots.Proofs.Path.Extension

/-!
# Where a freeze lies

The directory in which the parts of a table lie after the freeze of some number: below the shadow
directory, in that of the number, and from there at the place that the table has below the engine's
directory (`Config.components_frozenPath`). It goes on with names only, whatever the spelling of the
paths that it is put together from. The parts of the latest freeze are looked up there
(`Reference.frozenParts_of_number`), and every part that a freeze returns was found in this way
(`Controller.exists_of_freezeTable`).
-/

namespace TableSnapshots

/-- The names of a path after the components of another one. -/
def Path.namesBelow (p root : Path) : Location :=
  (p.components.drop root.components.length).filterMap Component.name?

/-- They are names of entries. -/
theorem Path.isName_of_mem_namesBelow {p root : Path} {s : String} (h : s ∈ p.namesBelow root) :
    IsName s :=
  isName_of_mem_names (((List.drop_sublist _ _).filterMap _).subset h)

namespace Config

/-- Where freezes go. -/
def shadow (config : Config) : Location :=
  (config.dataPath.entry "shadow").names

/-- The file with the number of the latest freeze. -/
def counterPath (config : Config) : Path :=
  (config.dataPath.entry "shadow").entry "increment.txt"

/-- The directory of the parts in the freeze of this number of a table at `relative`. -/
def frozenPath (config : Config) (number : Nat) (relative : Path) : Path :=
  ((config.dataPath.entry "shadow").entry (Text.decimal number)).join relative

/-- The counter lies in the shadow directory. -/
theorem names_counterPath (config : Config) :
    config.counterPath.names = config.shadow ++ ["increment.txt"] :=
  Path.names_entry (by decide) (config.dataPath.entry_text_ne_empty (by decide))

/-- The counter's path ends in its name and leads up nowhere. -/
theorem direct_counterPath {config : Config} (hup : .up ∉ config.dataPath.components) :
    config.counterPath.Direct := by
  have hshadow : (config.dataPath.entry "shadow").text ≠ "" :=
    config.dataPath.entry_text_ne_empty (by decide)
  exact Path.direct_entry (by decide) hshadow (Path.up_not_mem_entry PathGuard.isName_shadow hup)

variable {config : Config} (hdata : config.dataPath.text ≠ "")
include hdata

/-- The engine's directory has a first component. -/
theorem exists_length : ∃ n, config.dataPath.components.length = n + 1 := by
  obtain ⟨first, pieces, hpieces⟩ := config.dataPath.exists_pieces
  obtain ⟨lead, hlead⟩ := Path.exists_leading? hpieces hdata
  refine ⟨(pieces.filterMap Path.component?).length, ?_⟩
  rw [Path.components_of_pieces hpieces, hlead]
  rfl

/-- A path below the engine's directory has a text. -/
theorem text_ne_empty_of_liesBelow {p : Path} (h : p.LiesBelow config.dataPath) : p.text ≠ "" :=
  PathGuard.text_ne_empty_of_accepts hdata (Path.liesBelow_iff.mp h).1

/-- A path to a table's parts has the components of the shadow directory, the number, and the
components of the table's path after those of the engine's directory. -/
theorem components_frozenPath {p : Path} (h : p.LiesBelow config.dataPath) (number : Nat) :
    (config.frozenPath number (p.remainder config.dataPath.components.length)).components
      = (config.dataPath.entry "shadow").components
        ++ .name (Text.decimal number) :: p.components.drop config.dataPath.components.length := by
  obtain ⟨n, hn⟩ := exists_length hdata
  have hroot : (config.dataPath.entry "shadow").text ≠ "" :=
    config.dataPath.entry_text_ne_empty (by decide)
  have hname := Path.isName_decimal number
  unfold frozenPath
  rw [hn, Path.components_join_remainder (Path.entry_text_ne_empty _ hname.ne_empty)
      (text_ne_empty_of_liesBelow hdata h), Path.components_entry hname hroot, List.append_assoc,
    List.singleton_append]

variable {p : Path} (h : p.LiesBelow config.dataPath) (number : Nat)
include h

/-- It never leads up. -/
theorem up_not_mem_frozenPath :
    .up ∉ (config.frozenPath number (p.remainder config.dataPath.components.length)).components := by
  have hplace := components_frozenPath hdata h number
  obtain ⟨⟨rest, -, hcomponents⟩, hup⟩ := h
  rw [hcomponents, List.mem_append, not_or] at hup
  have hshadow := Path.up_not_mem_entry PathGuard.isName_shadow hup.1
  rw [hplace, hcomponents, List.drop_left]
  simp [hshadow, hup.2]

/-- It has a text. -/
theorem frozenPath_text_ne_empty :
    (config.frozenPath number (p.remainder config.dataPath.components.length)).text ≠ "" := by
  refine Path.text_ne_empty_of_mem (c := .name (Text.decimal number)) ?_
  rw [components_frozenPath hdata h]
  exact List.mem_append_right _ List.mem_cons_self

/-- Its names are those of the shadow directory, the number, and those of the table's path after the
engine's directory. -/
theorem names_frozenPath :
    (config.frozenPath number (p.remainder config.dataPath.components.length)).names
      = config.shadow ++ Text.decimal number :: p.namesBelow config.dataPath := by
  unfold Path.names
  rw [components_frozenPath hdata h, List.filterMap_append]
  rfl

/-- It goes on from the shadow directory with the number. -/
theorem exists_extends_frozenPath :
    ∃ names, (config.frozenPath number (p.remainder config.dataPath.components.length)).Extends
      (config.dataPath.entry "shadow") (Text.decimal number :: names) := by
  have hname := Path.isName_decimal number
  have hshadow : (config.dataPath.entry "shadow").text ≠ "" :=
    config.dataPath.entry_text_ne_empty (by decide)
  have hnumber : ((config.dataPath.entry "shadow").entry (Text.decimal number)).Extends
      (config.dataPath.entry "shadow") [Text.decimal number] :=
    Path.extends_entry (Path.endsInName_entry PathGuard.isName_shadow hdata) hshadow hname
  obtain ⟨names, hnames⟩ :=
    Path.exists_names_of_accepts (g := ⟨config.dataPath⟩) hdata (Path.liesBelow_iff.mp h).1
  obtain ⟨n, hn⟩ := exists_length hdata
  have hp := text_ne_empty_of_liesBelow hdata h
  refine ⟨names, hnumber.join ?_ ?_⟩
  · rw [hn]
    exact Path.not_isAbsolute_remainder hp n
  · rw [hn, Path.components_join_remainder hnumber.text_ne_empty hp, ← hn, hnames, List.drop_left]

end Config

namespace Reference

variable {config : Config} {db table : String} {relative : Path} {t : Tree}

/-- The parts of the latest freeze are those in the directory of its number. -/
theorem frozenParts_of_number {number : Nat}
    (h : t.readFile config.counterPath >>= Controller.readGeneration = .ok number) :
    frozenParts config db table relative t
      = (t.parts (config.frozenPath number relative) db table).mapError
          (.file (config.frozenPath number relative)) := by
  unfold Config.counterPath at h
  unfold frozenParts
  dsimp only
  rw [h]
  rfl

/-- Parts that were found were found in the directory of the number that was read. -/
theorem exists_of_frozenParts {ps : List FrozenPart}
    (h : frozenParts config db table relative t = .ok ps) :
    ∃ number, t.readFile config.counterPath >>= Controller.readGeneration = .ok number ∧
      t.parts (config.frozenPath number relative) db table = .ok ps := by
  cases hnumber : t.readFile config.counterPath >>= Controller.readGeneration with
  | error fault =>
    unfold Config.counterPath at hnumber
    unfold frozenParts at h
    dsimp only at h
    rw [hnumber] at h
    cases h
  | ok number =>
    rw [frozenParts_of_number hnumber] at h
    refine ⟨number, rfl, ?_⟩
    cases hparts : t.parts (config.frozenPath number relative) db table with
    | error fault =>
      rw [hparts] at h
      cases h
    | ok ps' =>
      rw [hparts] at h
      cases h
      rfl

/-- So the operating system takes the path of the counter. -/
theorem admissible_counterPath {ps : List FrozenPart}
    (h : frozenParts config db table relative t = .ok ps) : Tree.Admissible config.counterPath := by
  obtain ⟨number, hnumber, -⟩ := exists_of_frozenParts h
  cases hresolve : t.resolve true config.counterPath with
  | error fault =>
    unfold Tree.readFile at hnumber
    rw [hresolve] at hnumber
    cases hnumber
  | ok loc => exact Tree.admissible_of_resolve hresolve

/-! ## Where returned parts were found -/

variable {σ : Type} {engine : Engine σ}

/-- A part of some attempts in order is one of an attempt. -/
theorem exists_of_mem_inOrder {rs : List (Except Error (List FrozenPart))}
    {parts : List FrozenPart} (h : inOrder rs = .ok parts) {part : FrozenPart}
    (hpart : part ∈ parts) : ∃ ps, .ok ps ∈ rs ∧ part ∈ ps := by
  unfold inOrder at h
  cases hall : rs.mapM id with
  | error e =>
    rw [hall] at h
    cases h
  | ok pss =>
    rw [hall] at h
    cases h
    obtain ⟨ps, hps, hmem⟩ := List.mem_flatten.mp hpart
    exact ⟨ps, mapM_id_eq_ok_iff.mp hall ▸ List.mem_map_of_mem hps, hmem⟩

/-- A statement gives parts that it finds in the files after some queries. -/
theorem exists_of_mem_outcomes {w : World σ} {statements : List String} {ps : List FrozenPart}
    (h : .ok ps ∈ outcomes engine config db table relative w statements) :
    ∃ queries, frozenParts config db table relative (w.after engine queries).tree = .ok ps := by
  unfold outcomes at h
  rw [List.mem_mapIdx] at h
  obtain ⟨i, hi, hok⟩ := h
  refine ⟨statements.take i ++ [statements[i]], ?_⟩
  unfold outcome at hok
  split at hok
  · cases hok
  · rwa [← World.after_append] at hok

/-- A part that a freeze gives was found in the files after some queries. -/
theorem exists_of_mem_freeze {w : World σ} {strategy : FreezeStrategy} {parts : List FrozenPart}
    (h : (freeze engine config db table relative w strategy).result = .ok parts)
    {part : FrozenPart} (hpart : part ∈ parts) :
    ∃ queries ps, part ∈ ps ∧
      frozenParts config db table relative (w.after engine queries).tree = .ok ps := by
  have hstatements : ∀ before statements,
      (ofStatements engine config db table relative w before statements).result = .ok parts →
        ∃ queries ps, part ∈ ps ∧
          frozenParts config db table relative (w.after engine queries).tree = .ok ps := by
    intro before statements hresult
    obtain ⟨ps, hps, hmem⟩ := exists_of_mem_inOrder hresult hpart
    obtain ⟨queries, hqueries⟩ := exists_of_mem_outcomes hps
    rw [← World.after_append] at hqueries
    exact ⟨before ++ queries, ps, hmem, hqueries⟩
  cases strategy with
  | wholeTable => exact hstatements _ _ h
  | perPartition =>
    dsimp only [freeze] at h
    split at h
    · cases h
    · exact hstatements _ _ h

end Reference

namespace Controller

variable {σ : Type} {engine : Engine σ} {delegate : Delegate} {config : Config}
  {c : Controller (StateM (World σ))} {db table : String} {w w' : World σ}
  {parts : List FrozenPart}

/-- A freeze that succeeded was of a table that lies properly below the engine's directory, and left
the world that some queries leave. Its parts were found after some of these queries. -/
theorem exists_of_freezeTable (hc : c.Serves (World.host engine delegate) config)
    (h : (c.freezeTable db table).run.run w = (.ok parts, w')) :
    ∃ text, text ≠ "" ∧ (Path.mk text).LiesBelow config.dataPath ∧
      (∃ queries, w' = w.after engine queries) ∧
      ∀ part ∈ parts, ∃ queries ps, part ∈ ps ∧
        Reference.frozenParts config db table
          ((Path.mk text).remainder config.dataPath.components.length)
          (w.after engine queries).tree = .ok ps := by
  by_cases hadmits : Admits config.dataPath (w.answer engine (Query.tableDataPath db table))
  · obtain ⟨text, hanswer, htext, hbelow⟩ := exists_of_admits hadmits
    have hrelative := relativePath_of_liesBelow (c := c) htext (by rwa [hc.root])
    rw [run_freezeTable hc hanswer htext hrelative] at h
    obtain ⟨hresult, hworld⟩ := Prod.mk.inj h
    refine ⟨text, htext, hbelow, ⟨_, hworld.symm⟩, fun part hpart => ?_⟩
    rw [← hc.root]
    exact Reference.exists_of_mem_freeze hresult hpart
  · rw [freezeTable_of_not_admits hc (s := w) hadmits] at h
    cases h

end Controller

end TableSnapshots
