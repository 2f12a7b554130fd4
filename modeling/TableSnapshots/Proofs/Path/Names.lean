import TableSnapshots.Proofs.Path.Components
import TableSnapshots.Tree.Remove

/-!
# Names along a path

The steps that are taken along a path go through its names (`filterMap_name?_ofText`). A path that
ends in a name (`Path.EndsInName`) and does not lead up takes a name as its last step, and has
nothing at its end that removing a directory would have to look at.
-/

namespace TableSnapshots

/-- The name that a component is. -/
def Path.Component.name? : Path.Component → Option String
  | .name s => some s
  | _ => none

/-- The name that a step goes to. -/
def Step.name? : Step → Option String
  | .name s => some s
  | _ => none

namespace Path

/-- The names of a path, from its start on. -/
def names (p : Path) : Location :=
  p.components.filterMap Component.name?

/-- A path whose text ends neither in a slash nor in a `.`. -/
structure EndsInName (p : Path) : Prop where
  /-- The last character is no slash. -/
  slash : p.text.toList.getLast? ≠ some '/'
  /-- The last piece is no `.`. -/
  dot : p.pieces.getLast? ≠ some ['.']

instance (p : Path) : Decidable p.EndsInName :=
  decidable_of_iff (p.text.toList.getLast? ≠ some '/' ∧ p.pieces.getLast? ≠ some ['.'])
    ⟨fun h => ⟨h.1, h.2⟩, fun h => ⟨h.1, h.2⟩⟩

end Path

namespace Step

open TableSnapshots.Path (Component component? leading?)

/-! ## Steps and components -/

/-- A piece takes a step to the name that it adds as a component. -/
theorem name?_ofLast (piece : List Char) :
    (ofPieces.ofLast piece).name? = (component? piece).bind Component.name? := by
  unfold ofPieces.ofLast component? Path.isIdle
  split
  · rfl
  · split <;> rfl

/-- A piece leads up only if its component does. -/
theorem ofLast_eq_up_iff {piece : List Char} :
    ofPieces.ofLast piece = .up ↔ component? piece = some .up := by
  unfold ofPieces.ofLast component? Path.isIdle
  split
  · simp
  · split <;> simp

/-- Pieces take steps to the names that they add. -/
theorem filterMap_name?_ofPieces (ps : List (List Char)) :
    (ofPieces ps).filterMap name? = (ps.filterMap component?).filterMap Component.name? := by
  rw [List.filterMap_filterMap]
  fun_induction ofPieces ps with
  | case1 => rfl
  | case2 p =>
    rw [List.filterMap_cons, List.filterMap_cons, name?_ofLast]
    rfl
  | case3 q ps ih =>
    rw [ih]
    rfl
  | case4 p q ps hp ih =>
    rw [List.filterMap_cons, List.filterMap_cons, name?_ofLast, ih]

/-- The steps lead up only if a component does. -/
theorem up_mem_ofPieces {ps : List (List Char)} (h : .up ∈ ofPieces ps) :
    .up ∈ ps.filterMap component? := by
  rw [List.mem_filterMap]
  fun_induction ofPieces ps with
  | case1 => cases h
  | case2 p => exact ⟨p, by simp, ofLast_eq_up_iff.mp (List.mem_singleton.mp h).symm⟩
  | case3 q ps ih =>
    obtain ⟨piece, hpiece, hup⟩ := ih h
    exact ⟨piece, List.mem_cons_of_mem _ hpiece, hup⟩
  | case4 p q ps hp ih =>
    rcases List.mem_cons.mp h with h | h
    · exact ⟨p, by simp, ofLast_eq_up_iff.mp h.symm⟩
    · obtain ⟨piece, hpiece, hup⟩ := ih h
      exact ⟨piece, List.mem_cons_of_mem _ hpiece, hup⟩

/-- Some pieces take some steps. -/
theorem ofPieces_ne_nil (p : List Char) (ps : List (List Char)) : ofPieces (p :: ps) ≠ [] := by
  induction ps generalizing p with
  | nil => simp [ofPieces]
  | cons q ps ih =>
    rw [ofPieces]
    split
    · exact ih q
    · simp

/-- After a last piece that is not empty the steps of other pieces are taken. -/
theorem ofPieces_append {ps qs : List (List Char)} {last : List Char}
    (hlast : ps.getLast? = some last) (hne : last ≠ []) (hqs : qs ≠ []) :
    ofPieces (ps ++ qs) = ofPieces ps ++ ofPieces qs := by
  obtain ⟨q, qs, rfl⟩ := List.exists_cons_of_ne_nil hqs
  induction ps with
  | nil => cases hlast
  | cons p ps ih =>
    cases ps with
    | nil =>
      cases hlast
      exact if_neg hne
    | cons p' ps =>
      rw [List.getLast?_cons_cons] at hlast
      have hrest := ih hlast
      rw [List.cons_append] at hrest
      rw [List.cons_append, List.cons_append, ofPieces, ofPieces, hrest]
      split <;> rfl

/-- The last piece takes the last step. -/
theorem getLast?_ofPieces (ps : List (List Char)) :
    (ofPieces ps).getLast? = ps.getLast?.map ofPieces.ofLast := by
  fun_induction ofPieces ps with
  | case1 => rfl
  | case2 p => rfl
  | case3 q ps ih => rw [ih, List.getLast?_cons_cons]
  | case4 p q ps hp ih =>
    rw [List.getLast?_cons_cons, ← ih]
    exact List.getLast?_cons_of_ne_nil (ofPieces_ne_nil q ps)

/-- The pieces that take the steps: an empty one at the start is the root and takes none. -/
theorem ofText_of_pieces {p : Path} {first : List Char} {rest : List (List Char)}
    (h : p.pieces = first :: rest) :
    ofText p.text = if first = [] then ofPieces rest else ofPieces (first :: rest) := by
  unfold ofText
  rw [show Text.pieces '/' p.text.toList = first :: rest from h]
  cases first <;> rfl

/-- The last piece goes to the entry that it names. -/
theorem ofLast_of_isName {s : String} (h : Path.IsName s) :
    ofPieces.ofLast s.toList = .name s :=
  (if_neg (Bool.eq_false_iff.mp h.idle)).trans
    ((if_neg h.up).trans (congrArg Step.name String.ofList_toList))

/-- A name alone is one step. -/
theorem ofText_of_isName {s : String} (h : Path.IsName s) : ofText s = [.name s] := by
  have hfirst : s.toList ≠ [] := fun hnil => h.ne_empty (String.toList_inj.mp hnil)
  have hsteps := ofText_of_pieces h.pieces
  rw [if_neg hfirst] at hsteps
  exact hsteps.trans (congrArg (fun step => [step]) (ofLast_of_isName h))

/-- The steps along a path go through its names. -/
theorem filterMap_name?_ofText (p : Path) : (ofText p.text).filterMap name? = p.names := by
  obtain ⟨first, rest, h⟩ := p.exists_pieces
  unfold Path.names
  rw [ofText_of_pieces h, Path.components_of_pieces h, List.filterMap_append]
  by_cases hfirst : first = []
  · -- The root is a component, but it is no name and takes no step.
    have hlead : (leading? first rest).toList.filterMap Component.name? = [] := by
      unfold leading?
      rw [if_pos hfirst]
      split <;> rfl
    rw [if_pos hfirst, filterMap_name?_ofPieces, hlead, List.nil_append]
  · -- A first piece that is a `.` is a component, and no other such piece is; it has no name.
    have hlead : (leading? first rest).toList.filterMap Component.name?
        = (component? first).toList.filterMap Component.name? := by
      unfold leading?
      rw [if_neg hfirst]
      split
      · next hdot =>
        rw [hdot]
        rfl
      · rfl
    rw [if_neg hfirst, filterMap_name?_ofPieces, hlead, ← List.filterMap_append]
    cases hc : component? first with
    | none => rw [List.filterMap_cons_none hc]; rfl
    | some c => rw [List.filterMap_cons_some hc]; rfl

/-- The steps along a path lead up only if one of its components does. -/
theorem up_mem_ofText {p : Path} (h : .up ∈ ofText p.text) : .up ∈ p.components := by
  obtain ⟨first, rest, hp⟩ := p.exists_pieces
  rw [Path.components_of_pieces hp, List.mem_append]
  rw [ofText_of_pieces hp] at h
  split at h
  · exact .inr (up_mem_ofPieces h)
  · next hfirst =>
    have hup := up_mem_ofPieces h
    cases hc : component? first with
    | none =>
      rw [List.filterMap_cons_none hc] at hup
      exact .inr hup
    | some c =>
      rw [List.filterMap_cons_some hc, List.mem_cons] at hup
      refine hup.imp (fun hceq => ?_) id
      have hdot : first ≠ ['.'] := by
        rintro rfl
        cases hc
      unfold leading?
      rw [if_neg hfirst, if_neg hdot, hc, hceq]
      exact List.mem_singleton_self _

/-- The steps along a path that never leads up are those to its names, but for the stays. -/
theorem filter_ofText {p : Path} (hup : .up ∉ p.components) :
    (ofText p.text).filter (· ≠ .here) = p.names.map .name := by
  have hsteps : ∀ steps : List Step, .up ∉ steps →
      steps.filter (· ≠ .here) = (steps.filterMap name?).map .name := by
    intro steps h
    induction steps with
    | nil => rfl
    | cons step steps ih =>
      have hrest := ih fun hmem => h (List.mem_cons_of_mem step hmem)
      cases step with
      | here => exact hrest
      | up => exact absurd List.mem_cons_self h
      | name s => exact congrArg (Step.name s :: ·) hrest
  rw [hsteps _ (mt up_mem_ofText hup), filterMap_name?_ofText]

end Step

/-! ## The end of a path -/

namespace Path

variable {p : Path}

/-- The last piece of a path that ends in a name is one that adds a component. -/
theorem EndsInName.exists_piece (h : p.EndsInName) (hp : p.text ≠ "") :
    ∃ piece, p.pieces.getLast? = some piece ∧ piece ≠ [] ∧ piece ≠ ['.'] := by
  obtain ⟨first, rest, hpieces⟩ := p.exists_pieces
  obtain ⟨piece, hpiece⟩ : ∃ piece, p.pieces.getLast? = some piece := by
    rw [hpieces]
    exact ⟨_, List.getLast?_eq_some_getLast (List.cons_ne_nil _ _)⟩
  refine ⟨piece, hpiece, ?_, ?_⟩
  · rintro rfl
    rcases Text.getLast?_of_pieces hpiece with hempty | hslash
    · exact hp (String.toList_inj.mp hempty)
    · exact h.slash hslash
  · rintro rfl
    exact h.dot hpiece

/-- A piece that is a `..` leads up. -/
theorem up_mem_components (h : ['.', '.'] ∈ p.pieces) : .up ∈ p.components := by
  obtain ⟨first, rest, hpieces⟩ := p.exists_pieces
  rw [hpieces, List.mem_cons] at h
  rw [components_of_pieces hpieces, List.mem_append, List.mem_filterMap]
  rcases h with rfl | h
  · exact .inl (List.mem_singleton_self _)
  · exact .inr ⟨_, h, rfl⟩

/-- The last step along a path that ends in a name and does not lead up goes to a name. -/
theorem EndsInName.getLast?_ofText (h : p.EndsInName) (hp : p.text ≠ "")
    (hup : .up ∉ p.components) : ∃ s, (Step.ofText p.text).getLast? = some (.name s) := by
  obtain ⟨piece, hpiece, hempty, hdot⟩ := h.exists_piece hp
  obtain ⟨first, rest, hpieces⟩ := p.exists_pieces
  have hdots : piece ≠ ['.', '.'] := by
    rintro rfl
    exact hup (up_mem_components (List.mem_of_getLast? hpiece))
  refine ⟨String.ofList piece, ?_⟩
  have hlast : Step.ofPieces.ofLast piece = .name (String.ofList piece) := by
    unfold Step.ofPieces.ofLast
    rw [if_neg (by simp [hempty, hdot]), if_neg hdots]
  rw [hpieces] at hpiece
  rw [Step.ofText_of_pieces hpieces, ← hlast]
  split
  · next hfirst =>
    -- The root alone is no name, so there is a piece after it.
    cases rest with
    | nil => simp [hfirst, hempty.symm] at hpiece
    | cons q qs =>
      rw [List.getLast?_cons_cons] at hpiece
      rw [Step.getLast?_ofPieces, hpiece]
      rfl
  · rw [Step.getLast?_ofPieces, hpiece]
    rfl

/-- The last step along a path that does not end in a name is to stay. -/
theorem getLast?_ofText_of_not_endsInName (hp : p.text ≠ "") (h : ¬ p.EndsInName) :
    (Step.ofText p.text).getLast? = some .here := by
  obtain ⟨piece, hpiece, hidle⟩ :
      ∃ piece, p.pieces.getLast? = some piece ∧ Step.ofPieces.ofLast piece = .here := by
    by_cases hslash : p.text.toList.getLast? = some '/'
    · exact ⟨[], Text.getLast?_pieces_of_sep hslash, rfl⟩
    · refine ⟨['.'], ?_, rfl⟩
      by_contra hdot
      exact h ⟨hslash, hdot⟩
  obtain ⟨first, rest, hpieces⟩ := p.exists_pieces
  rw [Step.ofText_of_pieces hpieces, ← hidle]
  rw [hpieces] at hpiece
  split
  · next hfirst =>
    -- The root alone is empty, so there is a piece after it.
    cases rest with
    | nil => exact absurd (text_eq_empty_iff.mpr (hfirst ▸ hpieces)) hp
    | cons q qs =>
      rw [List.getLast?_cons_cons] at hpiece
      rw [Step.getLast?_ofPieces, hpiece]
      rfl
  · rw [Step.getLast?_ofPieces, hpiece]
    rfl

/-- Nothing has to be cut off a path that ends in a name. -/
theorem EndsInName.withoutLastSlashes (h : p.EndsInName) : Tree.withoutLastSlashes p = p := by
  have hkeep : p.text.toList.reverse.dropWhile (· = '/') = p.text.toList.reverse := by
    rw [List.dropWhile_eq_self_iff]
    intro hlength hslash
    refine h.slash ?_
    rw [← List.head?_reverse, List.head?_eq_getElem?, List.getElem?_eq_getElem hlength]
    exact congrArg some (of_decide_eq_true hslash)
  unfold Tree.withoutLastSlashes
  rw [hkeep, List.reverse_reverse, String.ofList_toList]

/-- The last piece that is not empty is the last one. -/
theorem EndsInName.lastPiece? (h : p.EndsInName) (hp : p.text ≠ "") (hup : .up ∉ p.components) :
    ∃ piece, Tree.lastPiece? p = some piece ∧ piece ≠ ['.'] ∧ piece ≠ ['.', '.'] := by
  obtain ⟨piece, hpiece, hempty, hdot⟩ := h.exists_piece hp
  refine ⟨piece, ?_, hdot, ?_⟩
  · rw [← List.head?_reverse] at hpiece
    obtain ⟨qs, hqs⟩ := List.head?_eq_some_iff.mp hpiece
    unfold Tree.lastPiece?
    rw [hqs]
    exact List.find?_cons_of_pos (by simpa using hempty)
  · rintro rfl
    exact hup (up_mem_components (List.mem_of_getLast? hpiece))

/-- Names after the components of another path are the names after its names. -/
theorem names_of_components {p root : Path} {rest : List String}
    (h : p.components = root.components ++ rest.map .name) : p.names = root.names ++ rest := by
  unfold names
  rw [h, List.filterMap_append, List.filterMap_map]
  exact congrArg _ List.filterMap_some

/-- An entry has one name more than its directory. -/
theorem names_entry {p : Path} {s : String} (h : IsName s) (hp : p.text ≠ "") :
    (p.entry s).names = p.names ++ [s] := by
  unfold names
  rw [components_entry h hp, List.filterMap_append]
  rfl

/-- An entry ends in its name. -/
theorem endsInName_entry {p : Path} {s : String} (h : IsName s) (hp : p.text ≠ "") :
    (p.entry s).EndsInName := by
  have hlast : (p.entry s).pieces.getLast? = some s.toList := by
    rcases pieces_join h.not_isAbsolute hp with hentry | ⟨ps, -, -, hentry⟩ <;>
      rw [entry, hentry, h.pieces, List.getLast?_concat]
  have hbusy : ∀ piece, isIdle piece = true → (p.entry s).pieces.getLast? ≠ some piece := by
    intro piece hpiece hsome
    rw [hlast, Option.some.injEq] at hsome
    rw [← hsome, h.idle] at hpiece
    cases hpiece
  exact ⟨fun hslash => hbusy [] rfl (Text.getLast?_pieces_of_sep hslash), hbusy ['.'] rfl⟩

/-- A component after the first one is a name unless it leads up. -/
theorem exists_name_of_mem_filterMap {ps : List (List Char)} {c : Component}
    (h : c ∈ ps.filterMap component?) (hup : c ≠ .up) : ∃ s, c = .name s := by
  obtain ⟨piece, -, hpiece⟩ := List.mem_filterMap.mp h
  unfold component? at hpiece
  split at hpiece
  · cases hpiece
  · split at hpiece
    · exact absurd (Option.some.inj hpiece).symm hup
    · exact ⟨_, (Option.some.inj hpiece).symm⟩

/-- A path that a guard accepts goes on with names after the components of the guard's
directory. -/
theorem exists_names_of_accepts {g : PathGuard} (hroot : g.root.text ≠ "")
    (h : g.accepts p = true) :
    ∃ rest : List String, p.components = g.root.components ++ rest.map .name := by
  obtain ⟨⟨cs, hcs⟩, hup⟩ := PathGuard.accepts_iff.mp h
  obtain ⟨first, ps, hpieces⟩ := p.exists_pieces
  obtain ⟨first', ps', hpieces'⟩ := g.root.exists_pieces
  obtain ⟨c', hc'⟩ := exists_leading? hpieces' hroot
  -- The guard's directory has a first component, so the others come from pieces after the first.
  have hmem : ∀ c ∈ cs, c ∈ ps.filterMap component? := by
    intro c hc
    have hall := hcs
    rw [components_of_pieces hpieces, components_of_pieces hpieces', hc'] at hall
    cases hlead : leading? first ps with
    | none =>
      rw [hlead] at hall
      exact (show _ = ps.filterMap component? from hall) ▸ List.mem_append_right _ hc
    | some _ =>
      rw [hlead] at hall
      obtain ⟨-, htail⟩ := List.cons.inj hall
      exact (show _ = ps.filterMap component? from htail) ▸ List.mem_append_right _ hc
  have hnames : ∀ c ∈ cs, ∃ s, c = .name s := fun c hc =>
    exists_name_of_mem_filterMap (hmem c hc) fun heq => hup (by simp [← hcs, ← heq, hc])
  have hmap : ∀ cs : List Component, (∀ c ∈ cs, ∃ s, c = .name s) →
      ∃ rest : List String, cs = rest.map .name := by
    intro cs
    induction cs with
    | nil => exact fun _ => ⟨[], rfl⟩
    | cons c cs ih =>
      intro hall
      obtain ⟨s, rfl⟩ := hall c List.mem_cons_self
      obtain ⟨rest, rfl⟩ := ih fun c hc => hall c (List.mem_cons_of_mem _ hc)
      exact ⟨s :: rest, rfl⟩
  obtain ⟨rest, rfl⟩ := hmap cs hnames
  exact ⟨rest, hcs.symm⟩

/-- A path that ends in a name and does not lead up anywhere. -/
structure Direct (p : Path) : Prop extends EndsInName p where
  /-- The path is not empty. -/
  text : p.text ≠ ""
  /-- No component is a `..`. -/
  up : .up ∉ p.components

/-- Such a path has a name. -/
theorem Direct.names_ne_nil (h : p.Direct) : p.names ≠ [] := by
  obtain ⟨s, hs⟩ := h.toEndsInName.getLast?_ofText h.text h.up
  rw [← Step.filterMap_name?_ofText]
  exact List.ne_nil_of_mem (List.mem_filterMap.mpr ⟨_, List.mem_of_getLast? hs, rfl⟩)

end Path

end TableSnapshots
