import Mathlib.Data.List.TakeWhile
import TableSnapshots.Path.Guard
import TableSnapshots.Proofs.Text.Pieces

/-!
# Components of a path

What a guard accepts, and what is left of a path after its first components, in terms of its
components alone. The pieces of a text are its components but for the idle ones, and the first piece
counts even if it is idle, unless it is the whole of an empty text. So what is left of a path after
`n` components is empty only if the path has no more than `n` (`remainder_text_eq_empty_iff`), and
an entry of a directory has one component more than the directory (`components_entry`).
-/

namespace TableSnapshots

namespace Path

/-! ## Pieces -/

/-- A piece adds no component exactly if it is idle. -/
theorem component?_eq_none_iff {piece : List Char} :
    component? piece = none ↔ isIdle piece = true := by
  unfold component?
  split
  · simp [*]
  · next h => split <;> simp [h]

/-- Pieces that are all idle add no components, and others do. -/
theorem filterMap_component?_eq_nil_iff {ps : List (List Char)} :
    ps.filterMap component? = [] ↔ ∀ p ∈ ps, isIdle p = true := by
  simp [List.filterMap_eq_nil_iff, component?_eq_none_iff]

/-- The pieces after `n` components add the components after the first `n`. -/
theorem filterMap_dropComponents (n : Nat) (ps : List (List Char)) :
    (dropComponents n ps).filterMap component? = (ps.filterMap component?).drop n := by
  induction ps generalizing n with
  | nil => cases n <;> simp [dropComponents]
  | cons p ps ih =>
    cases n with
    | zero => simp [dropComponents]
    | succ n =>
      by_cases hp : isIdle p = true
      · have hnone := component?_eq_none_iff.mpr hp
        simp only [dropComponents, hp, if_true]
        rw [ih, List.filterMap_cons_none hnone]
      · obtain ⟨c, hc⟩ := Option.ne_none_iff_exists'.mp (mt component?_eq_none_iff.mp hp)
        simp only [dropComponents, hp]
        rw [if_neg (by simp), ih, List.filterMap_cons_some hc, List.drop_succ_cons]

/-- Idle pieces at the start add no components. -/
theorem filterMap_dropWhile_isIdle (ps : List (List Char)) :
    (ps.dropWhile isIdle).filterMap component? = ps.filterMap component? := by
  induction ps with
  | nil => rfl
  | cons p ps ih =>
    by_cases hp : isIdle p = true
    · rw [List.dropWhile_cons_of_pos hp, ih,
        List.filterMap_cons_none (component?_eq_none_iff.mpr hp)]
    · rw [List.dropWhile_cons_of_neg hp]

/-- A first piece that is not idle is never trimmed away. -/
theorem exists_trimEnd_cons {p : List Char} (ps : List (List Char)) (hp : ¬ isIdle p = true) :
    ∃ qs, trimEnd (p :: ps) = p :: qs := by
  unfold trimEnd
  rw [List.reverse_cons, List.dropWhile_append]
  split
  · exact ⟨[], by simp [hp]⟩
  · exact ⟨_, by rw [List.reverse_append]; rfl⟩

/-- A text put together from pieces is empty only if there are none, or a single empty one. -/
theorem joinPieces_eq_nil_iff {ps : List (List Char)} :
    Text.joinPieces '/' ps = [] ↔ ps = [] ∨ ps = [[]] := by
  cases ps with
  | nil => simp [Text.joinPieces]
  | cons p ps => cases ps <;> simp [Text.joinPieces]

/-- The same of the text of a path. -/
theorem ofPieces_text_eq_empty_iff {ps : List (List Char)} :
    (ofPieces ps).text = "" ↔ ps = [] ∨ ps = [[]] := by
  rw [← joinPieces_eq_nil_iff]
  simp [ofPieces, ← String.toList_inj]

/-- Pieces of which the first one is not idle make a text that is not empty. -/
theorem ofPieces_trimEnd_text_ne_empty {p : List Char} (ps : List (List Char))
    (hp : ¬ isIdle p = true) : (ofPieces (trimEnd (p :: ps))).text ≠ "" := by
  obtain ⟨qs, hqs⟩ := exists_trimEnd_cons ps hp
  rw [hqs, ne_eq, ofPieces_text_eq_empty_iff]
  rintro (h | h)
  · simp at h
  · simp only [List.cons.injEq] at h
    exact hp (by simp [isIdle, h.1])

/-! ## Components -/

/-- The first piece of a path, and the others. -/
theorem exists_pieces (p : Path) : ∃ first rest, p.pieces = first :: rest :=
  List.exists_cons_of_ne_nil (Text.pieces_ne_nil '/' p.text.toList)

/-- The components, by the pieces. -/
theorem components_of_pieces {p : Path} {first : List Char} {rest : List (List Char)}
    (h : p.pieces = first :: rest) :
    p.components = (leading? first rest).toList ++ rest.filterMap component? := by
  unfold components
  rw [h]

/-- Only the empty path has a single empty piece. -/
theorem text_eq_empty_iff {p : Path} : p.text = "" ↔ p.pieces = [[]] := by
  unfold pieces
  constructor
  · intro h
    rw [h]
    rfl
  · intro h
    have hjoin := Text.joinPieces_pieces '/' p.text.toList
    rw [h] at hjoin
    rw [← String.toList_inj, ← hjoin]
    rfl

/-- A path starts at the root if its first piece is empty and not the only one. -/
theorem isAbsolute_iff_of_pieces {p : Path} {first : List Char} {rest : List (List Char)}
    (h : p.pieces = first :: rest) : p.isAbsolute = true ↔ first = [] ∧ rest ≠ [] := by
  have hjoin := Text.joinPieces_pieces '/' p.text.toList
  rw [show Text.pieces '/' p.text.toList = first :: rest from h] at hjoin
  have hfirst : '/' ∉ first := by
    have hmem : first ∈ p.pieces := by
      rw [h]
      exact List.mem_cons_self
    exact Text.not_mem_of_mem_pieces hmem
  unfold isAbsolute
  rw [decide_eq_true_eq, ← hjoin]
  cases first with
  | nil => cases rest <;> simp [Text.joinPieces]
  | cons c cs =>
    have hc : c ≠ '/' := fun hc => hfirst (hc ▸ List.mem_cons_self)
    cases rest <;> simp [Text.joinPieces, hc]

/-- The empty path has no component. -/
theorem text_ne_empty_of_mem {p : Path} {c : Component} (h : c ∈ p.components) : p.text ≠ "" := by
  intro hp
  rw [components_of_pieces (text_eq_empty_iff.mp hp)] at h
  exact List.not_mem_nil h

/-- The first piece of a path that is not empty adds a component, idle or not. -/
theorem exists_leading? {p : Path} {first : List Char} {rest : List (List Char)}
    (h : p.pieces = first :: rest) (hp : p.text ≠ "") : ∃ c, leading? first rest = some c := by
  unfold leading?
  split
  · split
    · exact absurd (text_eq_empty_iff.mpr (by simp [*])) hp
    · exact ⟨_, rfl⟩
  · split
    · exact ⟨_, rfl⟩
    · refine Option.ne_none_iff_exists'.mp (mt component?_eq_none_iff.mp ?_)
      simp [isIdle, *]

/-- What is left of a path after its first `n` components is empty exactly if it has no more. -/
theorem remainder_text_eq_empty_iff {p : Path} (hp : p.text ≠ "") (n : Nat) :
    (p.remainder n).text = "" ↔ p.components.length ≤ n := by
  obtain ⟨first, rest, h⟩ := p.exists_pieces
  obtain ⟨c, hc⟩ := exists_leading? h hp
  rw [components_of_pieces h, hc]
  unfold remainder
  rw [h]
  cases n with
  | zero =>
    -- Nothing is cut off, so the first piece is there and keeps the text from being empty.
    refine iff_of_false ?_ (by simp)
    dsimp only
    split
    · split
      · split <;> decide
      · next htrim =>
        rw [ofPieces_text_eq_empty_iff]
        simp [htrim]
    · next hidle =>
      refine ofPieces_trimEnd_text_ne_empty rest fun hfirst => hp (text_eq_empty_iff.mpr ?_)
      simpa [h, hfirst] using hidle
  | succ n =>
    have hlength : ((Option.some c).toList ++ rest.filterMap component?).length ≤ n + 1
        ↔ (rest.filterMap component?).drop n = [] := by
      rw [List.drop_eq_nil_iff]
      simp
    rw [hlength, ← filterMap_dropComponents, ← filterMap_dropWhile_isIdle]
    dsimp only
    rcases hcut : (dropComponents n rest).dropWhile isIdle with _ | ⟨p, ps⟩
    · exact iff_of_true rfl rfl
    · have hp : ¬ isIdle p = true := by
        simpa [hcut] using List.head?_dropWhile_not isIdle (dropComponents n rest)
      refine iff_of_false (ofPieces_trimEnd_text_ne_empty ps hp) ?_
      rw [filterMap_component?_eq_nil_iff]
      exact fun hall => hp (hall p (by simp))

/-! ## Joined paths -/

/-- The pieces of a joined path are those of its two parts, but for an empty piece that the first
part ends in. -/
theorem pieces_join {p q : Path} (hq : q.isAbsolute = false) (hp : p.text ≠ "") :
    (p.join q).pieces = p.pieces ++ q.pieces ∨
      ∃ ps, ps ≠ [] ∧ p.pieces = ps ++ [[]] ∧ (p.join q).pieces = ps ++ q.pieces := by
  have hne : p.text.toList ≠ [] := fun hnil => hp (String.toList_inj.mp hnil)
  rcases List.eq_nil_or_concat p.text.toList with hnil | ⟨cs, c, hcs⟩
  · exact absurd hnil hne
  · rw [List.concat_eq_append] at hcs
    have hlast : p.text.toList.getLast? = some c := by rw [hcs, List.getLast?_concat]
    unfold join pieces
    rw [if_neg (by simp [hq]), hlast]
    dsimp only
    by_cases hc : c = '/'
    · rw [if_pos hc, String.toList_append, hcs, hc, List.append_assoc]
      exact .inr ⟨Text.pieces '/' cs, Text.pieces_ne_nil '/' cs, Text.pieces_append_cons '/' cs [],
        by rw [List.singleton_append, Text.pieces_append_cons]⟩
    · rw [if_neg hc, String.toList_append, String.toList_append, List.append_assoc]
      exact .inl (Text.pieces_append_cons '/' p.text.toList q.text.toList)

/-- The text of a joined path goes on after that of its first part. -/
theorem exists_join_text {p q : Path} (hq : q.isAbsolute = false) (hp : p.text ≠ "") :
    ∃ more, (p.join q).text = p.text ++ more := by
  unfold join
  rw [if_neg (by simp [hq])]
  split
  · next hnone => exact absurd (String.toList_inj.mp (List.getLast?_eq_none_iff.mp hnone)) hp
  · split
    · exact ⟨q.text, rfl⟩
    · exact ⟨"/" ++ q.text, String.append_assoc⟩

/-- Whether there are other pieces is all that counts for the first one. -/
theorem leading?_congr {first : List Char} {rest rest' : List (List Char)}
    (h : rest = [] ↔ rest' = []) : leading? first rest = leading? first rest' := by
  unfold leading?
  simp only [h]

/-- The first piece of a path that is not empty adds the same component whatever is added to the
path. -/
theorem leading?_append {p : Path} {first : List Char} {rest : List (List Char)}
    (h : p.pieces = first :: rest) (hp : p.text ≠ "") (more : List (List Char)) :
    leading? first (rest ++ more) = leading? first rest := by
  by_cases hrest : rest = []
  · -- A first piece that is alone is not empty, so it does not matter what comes after it.
    subst hrest
    have hfirst : first ≠ [] := by
      rintro rfl
      exact hp (text_eq_empty_iff.mpr h)
    unfold leading?
    rw [if_neg hfirst, if_neg hfirst]
  · exact leading?_congr (by simp [hrest])

/-- A joined path has the components of its first part, and then those that the pieces of its second
part add. -/
theorem components_join {p q : Path} (hq : q.isAbsolute = false) (hp : p.text ≠ "") :
    (p.join q).components = p.components ++ q.pieces.filterMap component? := by
  rcases pieces_join hq hp with hjoin | ⟨ps, hps, hpieces, hjoin⟩
  · obtain ⟨first, rest, hpieces⟩ := p.exists_pieces
    have hlead := leading?_append hpieces hp q.pieces
    rw [hpieces, List.cons_append] at hjoin
    rw [components_of_pieces hjoin, components_of_pieces hpieces, hlead, List.filterMap_append,
      List.append_assoc]
  · obtain ⟨first, rest, rfl⟩ := List.exists_cons_of_ne_nil hps
    obtain ⟨first', rest', hq'⟩ := q.exists_pieces
    have hlead : leading? first (rest ++ q.pieces) = leading? first (rest ++ [[]]) :=
      leading?_congr (by simp [hq'])
    rw [List.cons_append] at hpieces hjoin
    rw [components_of_pieces hjoin, components_of_pieces hpieces, hlead, List.filterMap_append,
      List.filterMap_append, List.append_assoc, List.append_assoc]
    rfl

/-! ## Entries of a directory -/

/-- A text that names an entry: one piece that is not idle and does not lead up. -/
structure IsName (s : String) : Prop where
  slash : '/' ∉ s.toList
  idle : isIdle s.toList = false
  up : s.toList ≠ ['.', '.']

instance : DecidablePred IsName := fun s =>
  decidable_of_iff ('/' ∉ s.toList ∧ isIdle s.toList = false ∧ s.toList ≠ ['.', '.'])
    ⟨fun h => ⟨h.1, h.2.1, h.2.2⟩, fun h => ⟨h.slash, h.idle, h.up⟩⟩

/-- Such a text is not empty. -/
theorem IsName.ne_empty {s : String} (h : IsName s) : s ≠ "" := by
  rintro rfl
  exact absurd h.idle (by decide)

/-- Such a text is one component. -/
theorem IsName.component? {s : String} (h : IsName s) :
    Path.component? s.toList = some (.name s) := by
  unfold Path.component?
  rw [if_neg (by simp [h.idle]), if_neg h.up, String.ofList_toList]

/-- It does not start at the root. -/
theorem IsName.not_isAbsolute {s : String} (h : IsName s) : (Path.mk s).isAbsolute = false := by
  unfold isAbsolute
  rw [decide_eq_false_iff_not]
  exact fun hhead => h.slash (List.mem_of_head? hhead)

/-- It is one piece. -/
theorem IsName.pieces {s : String} (h : IsName s) : (Path.mk s).pieces = [s.toList] :=
  Text.pieces_of_not_mem h.slash

/-- It adds its name. -/
theorem IsName.filterMap_component? {s : String} (h : IsName s) :
    (Path.mk s).pieces.filterMap Path.component? = [.name s] := by
  rw [h.pieces, List.filterMap_cons_some h.component?]
  rfl

/-- An entry has one component more than its directory: its name. -/
theorem components_entry {p : Path} {s : String} (h : IsName s) (hp : p.text ≠ "") :
    (p.entry s).components = p.components ++ [.name s] :=
  (components_join h.not_isAbsolute hp).trans (by rw [h.filterMap_component?])

/-! ## Paths below a directory -/

/-- A path lies properly below `root`: its components go on after those of `root`, and none of them
leads up again. -/
def LiesBelow (p root : Path) : Prop :=
  (∃ rest, rest ≠ [] ∧ p.components = root.components ++ rest) ∧ .up ∉ p.components

end Path

/-- A guard accepts the paths that begin with the components of its directory and never lead up. -/
theorem PathGuard.accepts_iff {g : PathGuard} {p : Path} :
    g.accepts p = true ↔ g.root.components <+: p.components ∧ .up ∉ p.components := by
  unfold accepts Path.startsWith
  simp [and_comm]

/-- An entry has a text if its name has one. -/
theorem Path.entry_text_ne_empty {name : String} (p : Path) (h : name ≠ "") :
    (p.entry name).text ≠ "" := by
  have happend : ∀ s : String, s ++ name ≠ "" := by
    intro s hs
    rw [String.append_eq_empty_iff] at hs
    exact h hs.2
  unfold entry join
  split
  · exact h
  · split
    · exact h
    · split
      · exact happend p.text
      · exact happend (p.text ++ "/")

/-- The empty path is below no directory that has a text. -/
theorem PathGuard.text_ne_empty_of_accepts {g : PathGuard} {p : Path} (hroot : g.root.text ≠ "")
    (h : g.accepts p = true) : p.text ≠ "" := by
  intro hp
  obtain ⟨first, rest, hpieces⟩ := g.root.exists_pieces
  obtain ⟨c, hc⟩ := Path.exists_leading? hpieces hroot
  have hprefix := (accepts_iff.mp h).1
  have hempty : p.components = [] := by
    rw [Path.components_of_pieces (Path.text_eq_empty_iff.mp hp)]
    rfl
  rw [hempty, List.prefix_nil, Path.components_of_pieces hpieces, hc] at hprefix
  cases hprefix

/-- The paths properly below a directory are those that its guard accepts and that have more
components. -/
theorem Path.liesBelow_iff {p root : Path} :
    p.LiesBelow root ↔
      (PathGuard.mk root).accepts p = true ∧ root.components.length < p.components.length := by
  rw [PathGuard.accepts_iff]
  constructor
  · rintro ⟨⟨rest, hrest, hp⟩, hup⟩
    have hpos := List.length_pos_iff.mpr hrest
    refine ⟨⟨⟨rest, hp.symm⟩, hup⟩, ?_⟩
    rw [hp, List.length_append]
    omega
  · rintro ⟨⟨⟨rest, hp⟩, hup⟩, hlt⟩
    refine ⟨⟨rest, ?_, hp.symm⟩, hup⟩
    rintro rfl
    rw [← hp, List.append_nil] at hlt
    exact Nat.lt_irrefl _ hlt

instance (p root : Path) : Decidable (p.LiesBelow root) :=
  decidable_of_iff _ Path.liesBelow_iff.symm

end TableSnapshots
