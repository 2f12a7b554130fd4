import TableSnapshots.Proofs.Path.Names

/-!
# What a guard decides

The components of a path, read off its text (`Path.components_eq`): a root marker, a `.` at the very
start, and what the pieces that are not idle add. A guard looks at nothing else, of the path as of
its own directory, so it does not matter how they are spelled (`PathGuard.accepts_congr`), and a
guard within a guard accepts no more than that one (`PathGuard.accepts_trans`).
-/

namespace TableSnapshots

namespace Path

/-- The component of a piece that is not idle. -/
def busyComponent (piece : List Char) : Component :=
  if piece = ['.', '.'] then .up else .name (String.ofList piece)

/-- The pieces that are not idle, taken one by one. -/
theorem filterMap_component?_eq (ps : List (List Char)) :
    ps.filterMap component? = (ps.filter fun piece => !isIdle piece).map busyComponent := by
  induction ps with
  | nil => rfl
  | cons piece ps ih =>
    cases hidle : isIdle piece with
    | true =>
      rw [List.filterMap_cons_none (component?_eq_none_iff.mpr hidle), ih,
        List.filter_cons_of_neg (by simp [hidle])]
    | false =>
      have hpiece : component? piece = some (busyComponent piece) := by
        unfold component? busyComponent
        rw [if_neg (by simp [hidle])]
        split <;> rfl
      rw [List.filterMap_cons_some hpiece, ih, List.filter_cons_of_pos (by simp [hidle]),
        List.map_cons]

/-- The components of a path: the root if the text starts with a slash, a `.` if that is the first
piece, and what the pieces add that are neither empty nor a `.`. -/
theorem components_eq (p : Path) :
    p.components = (if p.isAbsolute then [.root] else [])
      ++ (if p.pieces.head? = some ['.'] then [.here] else [])
      ++ (p.pieces.filter fun piece => !isIdle piece).map busyComponent := by
  obtain ⟨first, rest, h⟩ := p.exists_pieces
  have habsolute := isAbsolute_iff_of_pieces h
  rw [components_of_pieces h, ← filterMap_component?_eq, h]
  unfold leading?
  by_cases hfirst : first = []
  · subst hfirst
    by_cases hrest : rest = []
    · simp [hrest, habsolute, component?, isIdle]
    · simp [hrest, habsolute, component?, isIdle]
  · have hrelative : p.isAbsolute = false := by
      rw [Bool.eq_false_iff]
      exact fun hp => hfirst (habsolute.mp hp).1
    by_cases hdot : first = ['.']
    · subst hdot
      simp [hrelative, component?, isIdle]
    · cases hc : component? first <;> simp [hfirst, hdot, hrelative, hc]

end Path

namespace PathGuard

variable {g g' : PathGuard} {p p' : Path}

/-- A check returns the path exactly if the guard accepts it. -/
theorem check_eq_ok_iff {q : Path} : g.check p = .ok q ↔ q = p ∧ g.accepts p = true := by
  unfold check
  split
  · next h => simp [h, eq_comm]
  · next h => simp [h]

/-- Otherwise it reports the path and the directory of the guard. -/
theorem check_of_refused (h : g.accepts p = false) : g.check p = .error (.pathViolation p g.root) :=
  if_neg (by simp [h])

/-- What a guard decides depends on components alone. -/
theorem accepts_congr (hroot : g.root.components = g'.root.components)
    (hp : p.components = p'.components) : g.accepts p = g'.accepts p' := by
  unfold accepts Path.startsWith
  rw [hroot, hp]

/-- A guard whose directory is accepted by another one accepts no more than that one. -/
theorem accepts_trans (hroot : g.accepts g'.root = true) (hp : g'.accepts p = true) :
    g.accepts p = true := by
  rw [accepts_iff] at hroot hp ⊢
  exact ⟨hroot.1.trans hp.1, hp.2⟩

/-- A check returns the path unchanged exactly if the components of the guard's directory start
those of the path and none of these leads up, and else reports the two. The components are those
that the text spells: a root, a `.` at the very start, and the pieces between slashes that are
neither empty nor a `.`. So other spellings of the same components are treated alike, a guard within
a guard accepts no more than that one, and what is accepted goes on from the directory with names
only, unless the text of the directory is empty. -/
theorem check_by_components :
    (∀ p : Path,
      ((∀ piece ∈ p.pieces, '/' ∉ piece) ∧ Text.joinPieces '/' p.pieces = p.text.toList) ∧
      p.components = (if p.isAbsolute then [.root] else [])
        ++ (if p.pieces.head? = some ['.'] then [.here] else [])
        ++ (p.pieces.filter fun piece => !Path.isIdle piece).map Path.busyComponent) ∧
    (∀ (g : PathGuard) (p : Path),
      (∀ q, g.check p = .ok q ↔
        q = p ∧ g.root.components <+: p.components ∧ .up ∉ p.components) ∧
      (¬ (g.root.components <+: p.components ∧ .up ∉ p.components) →
        g.check p = .error (.pathViolation p g.root))) ∧
    (∀ (g g' : PathGuard) (p p' : Path), g.root.components = g'.root.components →
      p.components = p'.components → (g.check p = .ok p ↔ g'.check p' = .ok p')) ∧
    (∀ (g g' : PathGuard) (p : Path), g.check g'.root = .ok g'.root → g'.check p = .ok p →
      g.check p = .ok p) ∧
    ∀ (g : PathGuard) (p : Path), g.root.text ≠ "" → g.check p = .ok p →
      ∃ rest : List String, p.components = g.root.components ++ rest.map .name := by
  have hok : ∀ (g : PathGuard) (p : Path), g.check p = .ok p ↔ g.accepts p = true :=
    fun g p => check_eq_ok_iff.trans (and_iff_right rfl)
  refine ⟨fun p => ⟨⟨fun piece => Text.not_mem_of_mem_pieces, Text.joinPieces_pieces '/' _⟩,
    p.components_eq⟩, fun g p => ⟨fun q => ?_, fun h => ?_⟩, ?_, ?_, ?_⟩
  · rw [check_eq_ok_iff, accepts_iff]
  · refine check_of_refused ?_
    rwa [Bool.eq_false_iff, ne_eq, accepts_iff]
  · intro g g' p p' hroot hp
    rw [hok, hok, accepts_congr hroot hp]
  · intro g g' p hroot hp
    rw [hok] at hroot hp ⊢
    exact accepts_trans hroot hp
  · intro g p hroot hp
    exact Path.exists_names_of_accepts hroot ((hok g p).mp hp)

/-- A directory spelled with doubled slashes and dots is accepted below another one, and so is what
its own guard accepts; a path that leads up is refused whatever it starts with. -/
theorem check_by_components_spelled :
    let outer : PathGuard := ⟨⟨"/d/shadow/"⟩⟩
    let inner : PathGuard := ⟨⟨"//d/./shadow//1"⟩⟩
    let p : Path := ⟨"/d/shadow/1/./data/"⟩
    outer.check inner.root = .ok inner.root ∧ inner.check p = .ok p ∧ outer.check p = .ok p ∧
      (∃ rest : List String, p.components = outer.root.components ++ rest.map .name) ∧
      outer.check ⟨"/d/shadow/../x"⟩ = .error (.pathViolation ⟨"/d/shadow/../x"⟩ outer.root) := by
  intro outer inner p
  obtain ⟨-, hcheck, -, htrans, hnames⟩ := check_by_components
  have hinner : outer.check inner.root = .ok inner.root :=
    ((hcheck outer inner.root).1 _).mpr ⟨rfl, by decide +kernel, by decide +kernel⟩
  have hp : inner.check p = .ok p :=
    ((hcheck inner p).1 _).mpr ⟨rfl, by decide +kernel, by decide +kernel⟩
  have hboth : outer.check p = .ok p := htrans outer inner p hinner hp
  refine ⟨hinner, hp, hboth, hnames outer p (by decide) hboth, ?_⟩
  exact (hcheck outer ⟨"/d/shadow/../x"⟩).2 (by decide +kernel)

end PathGuard

end TableSnapshots
