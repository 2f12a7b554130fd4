import TableSnapshots.Proofs.Freeze.Place

/-!
# Where parts are looked for

The parts of a freeze are looked for in one directory, which is put together from the shadow
directory, the number of the freeze and what is left of the table's path after the engine's
directory. If that directory has a text, nothing absolute can be left, and the result lies below the
shadow directory for every spelling of the two paths. From an engine's directory without a text
nothing is taken away: an absolute path stays absolute, joining it drops everything before it, and
the parts are looked for in the live directory of the table (`collectParts_place`).
-/

namespace TableSnapshots

namespace Path

/-! ## What starts at the root -/

/-- Joining a path that starts at the root gives this path. -/
theorem join_of_isAbsolute (p : Path) {q : Path} (h : q.isAbsolute = true) : p.join q = q :=
  if_pos h

/-- The components of a path that is put together from pieces. -/
theorem components_ofPieces {first : List Char} {rest : List (List Char)}
    (hslash : ∀ piece ∈ first :: rest, '/' ∉ piece) :
    (ofPieces (first :: rest)).components
      = (leading? first rest).toList ++ rest.filterMap component? := by
  refine components_of_pieces ?_
  unfold pieces ofPieces
  rw [String.toList_ofList, Text.pieces_joinPieces (List.cons_ne_nil first rest) hslash]

/-- A first piece that is not idle adds its component like any other. -/
theorem toList_leading?_append {first : List Char} (h : ¬ isIdle first = true)
    (rest : List (List Char)) :
    (leading? first rest).toList ++ rest.filterMap component?
      = (first :: rest).filterMap component? := by
  rw [leading?_of_not_idle h]
  cases hc : component? first with
  | none => exact absurd (component?_eq_none_iff.mp hc) h
  | some c => exact (List.filterMap_cons_some hc).symm

/-- A path of which no component is taken away keeps its components. -/
theorem components_remainder_zero (p : Path) : (p.remainder 0).components = p.components := by
  obtain ⟨first, rest, hpieces⟩ := p.exists_pieces
  have hslash : ∀ piece ∈ first :: rest, '/' ∉ piece := fun piece hmem =>
    Text.not_mem_of_mem_pieces (hpieces ▸ hmem : piece ∈ p.pieces)
  have hcomponents := components_of_pieces hpieces
  unfold remainder
  rw [hpieces, hcomponents]
  dsimp only
  by_cases hidle : isIdle first = true
  · by_cases hempty : first = [] ∧ rest = []
    · obtain ⟨rfl, rfl⟩ := hempty
      rfl
    · rw [if_pos (by simpa [hidle, imp_iff_not_or] using hempty)]
      by_cases htrim : trimEnd rest = []
      · -- The first piece stays alone, with the slash after it if it is empty.
        have hfilter := filterMap_trimEnd rest
        rw [htrim] at hfilter
        rw [if_pos htrim, ← hfilter]
        by_cases hfirst : first = []
        · have hrest : rest ≠ [] := fun hrest => hempty ⟨hfirst, hrest⟩
          rw [if_pos hfirst, leading?, if_pos hfirst, if_neg hrest]
          rfl
        · obtain rfl : first = ['.'] := by simpa [isIdle, hfirst] using hidle
          rfl
      · have hrest : rest ≠ [] := by
          rintro rfl
          exact htrim rfl
        rw [if_neg htrim, components_ofPieces fun piece hmem => hslash piece
            (List.cons_subset_cons first (fun _ => mem_of_mem_trimEnd) hmem),
          filterMap_trimEnd, leading?_congr (iff_of_false htrim hrest)]
  · obtain ⟨qs, hqs⟩ := exists_trimEnd_cons rest hidle
    rw [if_neg (by simp [hidle]), hqs, components_ofPieces fun piece hmem => hslash piece
        (mem_of_mem_trimEnd (hqs ▸ hmem)),
      toList_leading?_append hidle, toList_leading?_append hidle, ← hqs, filterMap_trimEnd]

/-- Nor does it start elsewhere. -/
theorem isAbsolute_remainder_zero (p : Path) : (p.remainder 0).isAbsolute = p.isAbsolute := by
  rw [Bool.eq_iff_iff, isAbsolute_iff, isAbsolute_iff, components_remainder_zero]

end Path

namespace Controller

/-! ## The directory of the latest freeze -/

section Place

variable {m : Type → Type} {host : Host m} {config : Config} {c : Controller m} {p relative : Path}

/-- What is taken of an accepted path is what is left after the engine's directory. -/
theorem eq_remainder_of_relativePath (hc : c.Serves host config)
    (h : c.relativePath p = .ok relative) :
    (PathGuard.mk config.dataPath).accepts p = true ∧
      relative = p.remainder config.dataPath.components.length := by
  have hroot : c.root = ⟨config.dataPath⟩ := congrArg PathGuard.mk hc.root
  by_cases haccepts : c.root.accepts p = true
  · rw [relativePath_of_accepts haccepts] at h
    split at h
    · cases h
    · cases h
      exact ⟨hroot ▸ haccepts, by rw [hc.root]⟩
  · have hcheck : c.root.check p = .error (.pathViolation p c.root.root) := if_neg haccepts
    unfold relativePath at h
    rw [hcheck] at h
    cases h

/-- Below an engine's directory with a text, nothing absolute is taken. -/
theorem liesBelow_of_relativePath (hc : c.Serves host config) (htext : config.dataPath.text ≠ "")
    (h : c.relativePath p = .ok relative) : p.LiesBelow config.dataPath := by
  have hp : p.text ≠ "" :=
    PathGuard.text_ne_empty_of_accepts htext (eq_remainder_of_relativePath hc h).1
  by_contra hbelow
  rw [← hc.root] at hbelow
  rw [relativePath_of_not_liesBelow hp hbelow] at h
  cases h

/-- The directory of a freeze is put together as the configuration says. -/
theorem Serves.frozenPath (hc : c.Serves host config) (number : Nat) (relative : Path) :
    c.frozenPath number relative = config.frozenPath number relative := by
  unfold Controller.frozenPath Config.frozenPath
  rw [hc.shadowRoot]

variable (hc : c.Serves host config) (h : c.relativePath p = .ok relative) (number : Nat)
include hc h

/-- A directory that goes on from the shadow directory with the number and components that do not
lead up is accepted by the guard of the shadow directory. -/
theorem accepts_of_components {dir : Path} {rest : List Path.Component} (hrest : .up ∉ rest)
    (hdir : dir.components
      = c.shadowRoot.root.components ++ .name (Text.decimal number) :: rest) :
    c.shadowRoot.accepts dir = true := by
  obtain ⟨hstart, hup⟩ := PathGuard.accepts_iff.mp (eq_remainder_of_relativePath hc h).1
  have hdata : .up ∉ config.dataPath.components := fun hmem => hup (hstart.subset hmem)
  have hshadow : .up ∉ c.shadowRoot.root.components := by
    rw [hc.shadowRoot]
    exact Path.up_not_mem_entry PathGuard.isName_shadow hdata
  rw [PathGuard.accepts_iff, hdir]
  refine ⟨List.prefix_append _ _, ?_⟩
  simp [hshadow, hrest]

/-- From an engine's directory with a text, the directory of a freeze goes on from the shadow
directory with the number and with what is left of the table's path. It is not that path. -/
theorem frozenPath_of_text (htext : config.dataPath.text ≠ "") :
    (c.frozenPath number relative).components
        = c.shadowRoot.root.components
          ++ .name (Text.decimal number)
            :: p.components.drop config.dataPath.components.length ∧
      c.shadowRoot.accepts (c.frozenPath number relative) = true ∧
      (c.frozenPath number relative).components ≠ p.components := by
  have hbelow := liesBelow_of_relativePath hc htext h
  have hcomponents : (c.frozenPath number relative).components
      = c.shadowRoot.root.components
        ++ .name (Text.decimal number) :: p.components.drop config.dataPath.components.length := by
    rw [hc.frozenPath, (eq_remainder_of_relativePath hc h).2, hc.shadowRoot]
    exact Config.components_frozenPath htext hbelow number
  have hup : .up ∉ p.components.drop config.dataPath.components.length := fun hmem =>
    hbelow.2 (List.mem_of_mem_drop hmem)
  refine ⟨hcomponents, accepts_of_components hc h number hup hcomponents, fun heq => ?_⟩
  -- It has two components more: the name of the shadow directory and the number.
  have hlength := congrArg List.length (hcomponents.symm.trans heq)
  rw [hc.shadowRoot, Path.components_entry_name _ PathGuard.isName_shadow] at hlength
  obtain ⟨rest, -, hp⟩ := hbelow.1
  rw [hp, List.drop_left] at hlength
  simp only [List.length_append, List.length_cons, List.length_nil] at hlength
  omega

/-- From an engine's directory without a text, the same holds of a relative path, of which a `.` at
the start adds nothing. -/
theorem frozenPath_of_relative (htext : config.dataPath.text = "") (hp : p.isAbsolute = false) :
    (c.frozenPath number relative).components
        = c.shadowRoot.root.components
          ++ .name (Text.decimal number) :: p.components.filter (· ≠ .here) ∧
      c.shadowRoot.accepts (c.frozenPath number relative) = true ∧
      (c.frozenPath number relative).components ≠ p.components := by
  obtain ⟨haccepts, hrelative⟩ := eq_remainder_of_relativePath hc h
  have hempty := Path.components_of_text_eq_empty htext
  rw [hempty, List.length_nil] at hrelative
  have hshadow : (config.dataPath.entry "shadow").text ≠ "" :=
    config.dataPath.entry_text_ne_empty (by decide)
  have hname := Path.isName_decimal number
  have hcomponents : (c.frozenPath number relative).components
      = c.shadowRoot.root.components
        ++ .name (Text.decimal number) :: p.components.filter (· ≠ .here) := by
    unfold Controller.frozenPath
    rw [hrelative, hc.shadowRoot, Path.components_join (by rw [Path.isAbsolute_remainder_zero, hp])
        (Path.entry_text_ne_empty _ hname.ne_empty),
      Path.filterMap_component?_pieces (by rw [Path.isAbsolute_remainder_zero, hp]),
      Path.components_remainder_zero, Path.components_entry hname hshadow, List.append_assoc,
      List.singleton_append]
  have hup : .up ∉ p.components.filter (· ≠ .here) := fun hmem =>
    (PathGuard.accepts_iff.mp haccepts).2 (List.mem_filter.mp hmem).1
  refine ⟨hcomponents, accepts_of_components hc h number hup hcomponents, fun heq => ?_⟩
  -- Neither side would have a `.`, and one would have two components more than the other.
  have hfilter := congrArg (List.filter (· ≠ .here)) (hcomponents.symm.trans heq)
  rw [hc.shadowRoot, Path.components_entry_name _ PathGuard.isName_shadow, hempty] at hfilter
  have hlength := congrArg List.length hfilter
  simp at hlength
  omega

/-- From an engine's directory without a text an absolute path leads to itself. -/
theorem frozenPath_of_absolute (htext : config.dataPath.text = "") (hp : p.isAbsolute = true) :
    (c.frozenPath number relative).components = p.components ∧
      c.shadowRoot.accepts (c.frozenPath number relative) = false := by
  have hrelative := (eq_remainder_of_relativePath hc h).2
  have hempty := Path.components_of_text_eq_empty htext
  rw [hempty, List.length_nil] at hrelative
  have hcomponents : (c.frozenPath number relative).components = p.components := by
    unfold Controller.frozenPath
    rw [hrelative, Path.join_of_isAbsolute _ (by rw [Path.isAbsolute_remainder_zero, hp]),
      Path.components_remainder_zero]
  refine ⟨hcomponents, ?_⟩
  rw [Bool.eq_false_iff, ne_eq, PathGuard.accepts_iff, hcomponents, hc.shadowRoot,
    Path.components_entry_name _ PathGuard.isName_shadow, hempty]
  rintro ⟨⟨rest, hrest⟩, -⟩
  have hhead := Path.isAbsolute_iff.mp hp
  rw [← hrest] at hhead
  cases hhead

end Place

section Runs

variable {σ : Type} {engine : Engine σ} {delegate : Delegate} {config : Config}
  {c : Controller (StateM (World σ))} {p relative : Path}

/-- The parts of the latest freeze are looked for in one directory, and nothing is changed. From an
engine's directory with a text, whatever its spelling and that of the table's path, this directory
has the components of the shadow directory, the number, and the components of the table's path after
those of the engine's directory; the guard of the shadow directory accepts it, and it is not the
table's path. The same holds without a text for a relative path, but for a `.` at its start. An
absolute path is then looked for as it is, where the guard would refuse it. -/
theorem collectParts_place (hc : c.Serves (World.host engine delegate) config)
    (h : c.relativePath p = .ok relative) (db table : String) (number : Nat) :
    (∀ w : World σ, w.tree.readFile c.incrementPath >>= readGeneration = .ok number →
      (c.collectParts db table relative).run.run w
        = ((w.tree.parts (c.frozenPath number relative) db table).mapError
            (.file (c.frozenPath number relative)), w)) ∧
    (config.dataPath.text ≠ "" →
      (c.frozenPath number relative).components
          = c.shadowRoot.root.components
            ++ .name (Text.decimal number)
              :: p.components.drop config.dataPath.components.length ∧
        c.shadowRoot.accepts (c.frozenPath number relative) = true ∧
        (c.frozenPath number relative).components ≠ p.components) ∧
    (config.dataPath.text = "" → p.isAbsolute = false →
      (c.frozenPath number relative).components
          = c.shadowRoot.root.components
            ++ .name (Text.decimal number) :: p.components.filter (· ≠ .here) ∧
        c.shadowRoot.accepts (c.frozenPath number relative) = true ∧
        (c.frozenPath number relative).components ≠ p.components) ∧
    (config.dataPath.text = "" → p.isAbsolute = true →
      (c.frozenPath number relative).components = p.components ∧
        c.shadowRoot.accepts (c.frozenPath number relative) = false) := by
  refine ⟨fun w hnumber => ?_, frozenPath_of_text hc h number, frozenPath_of_relative hc h number,
    frozenPath_of_absolute hc h number⟩
  rw [run_collectParts hc, hc.frozenPath]
  rw [hc.incrementPath] at hnumber
  rw [Reference.frozenParts_of_number hnumber]

end Runs

/-- What is left of an absolute path after an engine's directory without a text. -/
theorem relativePath_ch (host : Host (StateM (World Unit))) (version : EngineVersion) :
    (serving host ⟨⟨""⟩, "u", "g", {}, {}⟩ version).relativePath ⟨"/ch/data/db/t/"⟩
      = .ok ⟨"/ch/data/db/t"⟩ := by
  have haccepts : (PathGuard.mk ⟨""⟩).accepts ⟨"/ch/data/db/t/"⟩ = true := by decide +kernel
  have hremainder : (Path.mk "/ch/data/db/t/").remainder (Path.mk "").components.length
      = ⟨"/ch/data/db/t"⟩ := by decide +kernel
  refine (relativePath_of_accepts haccepts).trans ?_
  change (if ((Path.mk "/ch/data/db/t/").remainder (Path.mk "").components.length).text = ""
    then _ else Except.ok ((Path.mk "/ch/data/db/t/").remainder (Path.mk "").components.length)) = _
  rw [hremainder, if_neg (by decide)]

/-- Without a text, parts of the first freeze are looked for where the table is. -/
theorem collectParts_place_live :
    ((serving (World.host (constantEngine (.ok (.text ""))) (.noted (.ok ())))
        ⟨⟨""⟩, "u", "g", {}, {}⟩ ⟨[21, 8], "21.8"⟩).frozenPath 1 ⟨"/ch/data/db/t"⟩).components
      = (Path.mk "/ch/data/db/t/").components :=
  ((collectParts_place (serving_serves _ ⟨⟨""⟩, "u", "g", {}, {}⟩ ⟨[21, 8], "21.8"⟩)
    (relativePath_ch _ _) "db" "t" 1).2.2.2 rfl (by decide +kernel)).1

/-- So it does not hold of every engine's directory that parts are looked for below the shadow
directory. -/
theorem not_below_shadow_of_noText :
    ¬ ∀ (config : Config) (c : Controller (StateM (World Unit))) (p relative : Path) (number : Nat),
      c.Serves (World.host (constantEngine (.ok (.text ""))) (.noted (.ok ()))) config →
        c.relativePath p = .ok relative →
        (c.frozenPath number relative).components
            = c.shadowRoot.root.components
              ++ .name (Text.decimal number)
                :: p.components.drop config.dataPath.components.length ∧
          c.shadowRoot.accepts (c.frozenPath number relative) = true ∧
          (c.frozenPath number relative).components ≠ p.components := by
  intro hall
  have hserves := serving_serves (World.host (constantEngine (.ok (.text ""))) (.noted (.ok ())))
    ⟨⟨""⟩, "u", "g", {}, {}⟩ ⟨[21, 8], "21.8"⟩
  obtain ⟨-, -, hlive⟩ := hall _ _ _ _ 1 hserves (relativePath_ch _ _)
  exact hlive (frozenPath_of_absolute hserves (relativePath_ch _ _) 1 rfl (by decide +kernel)).1

end Controller

end TableSnapshots
