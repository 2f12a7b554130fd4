import TableSnapshots.Proofs.Path.Relative

/-!
# Paths that go on from another one

A path whose text goes on after that of `root`, with a slash between them and names only after it
(`Path.Extends`). The entries of such a path go on from `root` as well (`Extends.entry`), and the
steps along it are those along `root` and then others, through these names
(`Extends.exists_steps`). Two paths that go on with different names do not lie in each other
(`Extends.not_prefix`).
-/

namespace TableSnapshots

/-- After a path that ends in a name come the steps of what follows the next slash. -/
theorem Step.ofText_append {p : Path} (h : p.EndsInName) (hp : p.text ≠ "") (more : String) :
    ofText (p.text ++ "/" ++ more) = ofText p.text ++ ofPieces (Text.pieces '/' more.toList) := by
  obtain ⟨last, hlast, hne, -⟩ := h.exists_piece hp
  obtain ⟨first, rest, hpieces⟩ := p.exists_pieces
  have hmore := Text.pieces_ne_nil '/' more.toList
  have hall : (Path.mk (p.text ++ "/" ++ more)).pieces
      = first :: (rest ++ Text.pieces '/' more.toList) := by
    change Text.pieces '/' (p.text ++ "/" ++ more).toList = _
    rw [String.toList_append, String.toList_append, List.append_assoc]
    refine (Text.pieces_append_cons '/' p.text.toList more.toList).trans ?_
    rw [← List.cons_append, ← hpieces]
    rfl
  have hsteps := ofText_of_pieces hall
  dsimp only at hsteps
  rw [hpieces] at hlast
  rw [hsteps, ofText_of_pieces hpieces]
  by_cases hfirst : first = []
  · -- The root alone takes no step, so the last piece comes after it.
    rw [if_pos hfirst, if_pos hfirst]
    cases rest with
    | nil =>
      rw [List.getLast?_singleton, Option.some.injEq] at hlast
      exact absurd (hlast.symm.trans hfirst) hne
    | cons q qs =>
      rw [List.getLast?_cons_cons] at hlast
      exact ofPieces_append hlast hne hmore
  · rw [if_neg hfirst, if_neg hfirst, ← List.cons_append]
    exact ofPieces_append hlast hne hmore

namespace Path

variable {p q root : Path} {rest rest' : List String} {s : String}

/-- After a path that ends in a name comes a slash. -/
theorem EndsInName.entry_text (h : p.EndsInName) (hp : p.text ≠ "") (hs : IsName s) :
    (p.entry s).text = p.text ++ "/" ++ s := by
  unfold entry join
  rw [if_neg (by simp [hs.not_isAbsolute])]
  split
  · next hnone => exact absurd (String.toList_inj.mp (List.getLast?_eq_none_iff.mp hnone)) hp
  · next c hc =>
    rw [if_neg]
    rintro rfl
    exact h.slash hc

/-- A path goes on from `root` with these names. -/
structure Extends (p root : Path) (rest : List String) : Prop where
  /-- Its text does, after a slash. -/
  text : ∃ more, p.text = root.text ++ "/" ++ more
  /-- Its components are those of `root` and these names. -/
  components : p.components = root.components ++ rest.map .name

/-- An entry of a path goes on from it. -/
theorem extends_entry (hroot : root.EndsInName) (htext : root.text ≠ "") (hs : IsName s) :
    (root.entry s).Extends root [s] :=
  ⟨⟨s, hroot.entry_text htext hs⟩, components_entry hs htext⟩

namespace Extends

/-- It has a text. -/
theorem text_ne_empty (h : p.Extends root rest) : p.text ≠ "" := by
  obtain ⟨more, hmore⟩ := h.text
  intro hempty
  rw [hempty] at hmore
  have hslash := congrArg String.toList hmore
  simp at hslash

/-- A path that is joined to it goes on further. -/
theorem join (h : p.Extends root rest) (hq : q.isAbsolute = false)
    (hcomponents : (p.join q).components = p.components ++ rest'.map .name) :
    (p.join q).Extends root (rest ++ rest') := by
  obtain ⟨more, hmore⟩ := h.text
  obtain ⟨more', hmore'⟩ := exists_join_text hq h.text_ne_empty
  refine ⟨⟨more ++ more', by rw [hmore', hmore, String.append_assoc]⟩, ?_⟩
  rw [hcomponents, h.components, List.map_append, List.append_assoc]

/-- So does an entry of it. -/
theorem entry (h : p.Extends root rest) (hs : IsName s) : (p.entry s).Extends root (rest ++ [s]) :=
  h.join hs.not_isAbsolute (components_entry hs h.text_ne_empty)

/-- It never leads up if `root` does not. -/
theorem up (h : p.Extends root rest) (hroot : .up ∉ root.components) : .up ∉ p.components := by
  rw [h.components]
  simp [hroot]

/-- Its names are those of `root` and the others. -/
theorem names (h : p.Extends root rest) : p.names = root.names ++ rest :=
  names_of_components h.components

/-- The steps along it are those along `root` and others, which go through the other names. -/
theorem exists_steps (h : p.Extends root rest) (hroot : root.Direct) :
    ∃ steps, Step.ofText p.text = Step.ofText root.text ++ steps ∧ steps ≠ [] ∧ .up ∉ steps ∧
      steps.filterMap Step.name? = rest := by
  obtain ⟨more, hmore⟩ := h.text
  have hsteps := Step.ofText_append hroot.toEndsInName hroot.text more
  rw [← hmore] at hsteps
  refine ⟨_, hsteps, ?_, fun hup => ?_, ?_⟩
  · obtain ⟨piece, ps, hpieces⟩ :=
      List.exists_cons_of_ne_nil (Text.pieces_ne_nil '/' more.toList)
    rw [hpieces]
    exact Step.ofPieces_ne_nil piece ps
  · -- A step up would be a component of the path, in which there is none.
    refine mt Step.up_mem_ofText (h.up hroot.up) ?_
    rw [hsteps]
    exact List.mem_append_right _ hup
  · have hnames := Step.filterMap_name?_ofText p
    rw [hsteps, List.filterMap_append, Step.filterMap_name?_ofText, h.names] at hnames
    exact List.append_cancel_left hnames

/-- Paths that go on with different names do not lie in each other. -/
theorem not_prefix {s' : String} (h : p.Extends root (s :: rest))
    (h' : q.Extends root (s' :: rest')) (hne : s ≠ s') : ¬ p.components <+: q.components := by
  rw [h.components, h'.components, List.prefix_append_right_inj, List.map_cons, List.map_cons,
    List.cons_prefix_cons]
  exact fun hle => hne (Component.name.inj hle.1)

end Extends

end Path

end TableSnapshots
