import TableSnapshots.Proofs.Tree.Resolve

/-!
# What removing a path leaves

Removing what a path leads to takes away the entries at and below its location and no others
(`node?_without`). A directory is emptied first, and then found again to be removed itself: neither
changes what lies along the path, so the second lookup finds what the first one did
(`resolve_emptied`). The operating system takes only some texts as paths, and only some names for
entries (`Takes`); what it does not take is never removed.
-/

namespace TableSnapshots.Tree

variable {t : Tree}

/-! ## Entries that stay -/

/-- A selection of entries by their locations is one of nodes. -/
theorem node?_filter (t : Tree) (keep : Location → Bool) {loc : Location} (hloc : loc ≠ []) :
    (Tree.mk (t.entries.filter fun e => keep e.1)).node? loc
      = if keep loc then t.node? loc else none := by
  rw [node?_of_ne_nil hloc, node?_of_ne_nil hloc, List.find?_filter]
  split
  · next hkeep =>
    have hsame : (fun e : Location × Node => decide (keep e.1 = true ∧ decide (e.1 = loc) = true))
        = fun e => decide (e.1 = loc) := by
      funext e
      by_cases he : e.1 = loc <;> simp [he, hkeep]
    rw [hsame]
  · next hkeep =>
    rw [List.find?_eq_none.mpr]
    · rfl
    · rintro e - he
      simp only [decide_eq_true_eq] at he
      exact hkeep (he.2 ▸ he.1)

/-- Below a location other than the top there is not the top. -/
theorem not_atOrBelow_nil {loc : Location} (h : loc ≠ []) : atOrBelow loc [] = false := by
  cases loc with
  | nil => exact absurd rfl h
  | cons _ _ => rfl

/-- What is at a location or below is gone without it, and everything else is as before. -/
theorem node?_without {loc : Location} (hloc : loc ≠ []) (l : Location) :
    (t.without loc).node? l = if atOrBelow loc l then none else t.node? l := by
  by_cases hl : l = []
  · rw [hl, not_atOrBelow_nil hloc]
    rfl
  · refine (node?_filter t (fun l => !atOrBelow loc l) hl).trans ?_
    cases atOrBelow loc l <;> rfl

/-- What is not below a location is there when it has been emptied. -/
theorem node?_emptied {loc l : Location} (h : below loc l = false) :
    (t.emptied loc).node? l = t.node? l := by
  by_cases hl : l = []
  · rw [hl]
    rfl
  · refine (node?_filter t (fun l => !below loc l) hl).trans ?_
    rw [h]
    rfl

/-- A location is not below what it lies in. -/
theorem below_append (q r : Location) : below (q ++ r) q = false := by
  unfold below atOrBelow
  rw [Bool.and_eq_false_iff]
  by_cases hr : r = []
  · exact .inr (by simp [hr])
  · refine .inl (Bool.eq_false_iff.mpr fun hprefix => hr ?_)
    have hle := (List.isPrefixOf_iff_prefix.mp hprefix).length_le
    rw [List.length_append] at hle
    exact List.eq_nil_of_length_eq_zero (by omega)

/-- An emptied directory is empty. -/
theorem children_emptied (t : Tree) (loc : Location) : (t.emptied loc).children loc = [] := by
  unfold children emptied
  rw [List.filterMap_eq_nil_iff]
  intro e he
  have hbelow : ¬ below loc e.1 = true := by
    simpa using (List.mem_filter.mp he).2
  have hname : childName? loc e.1 = none := by
    refine if_neg fun hchild => hbelow ?_
    rw [Bool.and_eq_true, decide_eq_true_eq, decide_eq_true_eq] at hchild
    obtain ⟨hne, hlast⟩ := hchild
    unfold below atOrBelow
    rw [Bool.and_eq_true, decide_eq_true_eq, List.isPrefixOf_iff_prefix, ← hlast]
    refine ⟨List.dropLast_prefix e.1, fun heq => ?_⟩
    have hlength := congrArg List.length heq
    rw [List.length_dropLast] at hlength
    have hpos := List.length_pos_iff.mpr hne
    omega
  simp [hname]

/-- Emptying a directory before it is removed makes no difference to what is left. -/
theorem without_emptied (t : Tree) (loc : Location) :
    (t.emptied loc).without loc = t.without loc := by
  unfold without emptied
  rw [List.filter_filter]
  refine congrArg Tree.mk (List.filter_congr fun e _ => ?_)
  unfold below
  cases atOrBelow loc e.1 <;> rfl

/-- Nothing lies below what is no directory, so only this one entry is gone without it. -/
theorem node?_without_of_not_directory (ht : t.Nested) {loc : Location} (hloc : loc ≠ [])
    (h : t.content? loc ≠ some .directory) (l : Location) :
    (t.without loc).node? l = if l = loc then none else t.node? l := by
  rw [node?_without hloc]
  by_cases hl : l = loc
  · rw [if_pos hl, if_pos]
    rw [hl]
    exact List.isPrefixOf_iff_prefix.mpr List.prefix_rfl
  · rw [if_neg hl]
    split
    · next hbelow =>
      obtain ⟨r, rfl⟩ := List.isPrefixOf_iff_prefix.mp hbelow
      by_contra hsome
      refine h (ht.directory (fun hr => hl ?_) (Ne.symm hsome))
      rw [hr, List.append_nil]
    · rfl

/-! ## Paths that are taken -/

/-- The operating system takes a path: its text can be one, and no name is looked up in a directory
that cannot hold it. -/
structure Takes (t : Tree) (p : Path) : Prop where
  /-- There is no zero character in the text. -/
  zero : '\x00' ∉ p.text.toList
  /-- The text is short enough. -/
  length : p.text.utf8ByteSize < pathLimit
  /-- The names are short enough for the directories that they are looked up in. -/
  fits : t.Fits p.names

/-- The text of a path that is taken is not refused. -/
theorem checkText_eq_ok {s : String} (hzero : '\x00' ∉ s.toList) (hs : s ≠ "")
    (hlength : s.utf8ByteSize < pathLimit) : checkText s = .ok () := by
  unfold checkText
  rw [if_neg (by simpa using hzero), if_neg hs, if_neg (Nat.not_le.mpr hlength)]

section Remove

variable {p : Path}

/-- A node of this content is there. -/
theorem node?_ne_none {loc : Location} {c : Content} (h : t.content? loc = some c) :
    t.node? loc ≠ none := by
  intro hnone
  rw [content?, hnone] at h
  cases h

/-- The way to what is there is passable. -/
theorem Nested.passable (ht : t.Nested) {loc : Location} (h : t.node? loc ≠ none) :
    t.Passable loc := by
  rintro q r hr rfl c hc
  rw [ht.directory hr h] at hc
  exact (Option.some.inj hc).symm

/-- What is there is found. -/
theorem resolve_of_some (ht : t.Nested) (hp : p.Direct) (htakes : t.Takes p)
    (hsome : t.node? p.names ≠ none) : t.resolve false p = .ok p.names := by
  rw [resolve_eq_lookUp hp (checkText_eq_ok htakes.zero hp.text htakes.length) (ht.passable hsome)]
  exact lookUp_of_some ht (by simp) htakes.fits hsome

/-- A directory that has been emptied is found where it was. -/
theorem resolve_emptied (ht : t.Nested) (hp : p.Direct) (htakes : t.Takes p)
    (hsome : t.node? p.names ≠ none) : (t.emptied p.names).resolve false p = .ok p.names := by
  -- Nothing along the path is below its end, so emptying that leaves all of it.
  have hsame : ∀ q r, p.names = q ++ r → (t.emptied p.names).node? q = t.node? q := by
    intro q r hqr
    refine node?_emptied ?_
    rw [hqr]
    exact below_append q r
  have htext := checkText_eq_ok htakes.zero hp.text htakes.length
  have hpass := ht.passable hsome
  have hpass' : (t.emptied p.names).Passable p.names := by
    intro q r hr hqr c hc
    rw [content?, hsame q r hqr] at hc
    exact hpass q r hr hqr c hc
  rw [resolve_eq_lookUp hp htext hpass', lookUp_congr hsame, ← resolve_eq_lookUp hp htext hpass]
  exact resolve_of_some ht hp htakes hsome

/-! ## Removing -/

/-- A path that is not found is not removed. -/
theorem removeAll_of_error {fault : Fault} (h : t.resolve false p = .error fault) :
    t.removeAll p = (.error fault, t) := by
  unfold removeAll
  rw [h]

/-- Nor is one at whose end nothing is. -/
theorem removeAll_of_nothing {loc : Location} (h : t.resolve false p = .ok loc)
    (hnone : t.content? loc = none) : t.removeAll p = (.error .missing, t) := by
  unfold removeAll
  rw [h]
  dsimp only
  rw [hnone]

/-- A directory that cannot be removed when it has been emptied stays empty. -/
theorem removeAll_of_stuck {loc : Location} {fault : Fault} (h : t.resolve false p = .ok loc)
    (hcontent : t.content? loc = some .directory)
    (hstuck : (t.emptied loc).removeDirectory p = .error fault) :
    t.removeAll p = (.error fault, t.emptied loc) := by
  unfold removeAll
  rw [h]
  dsimp only
  rw [hcontent]
  dsimp only
  rw [hstuck]

/-- Removing nothing fails as missing and changes nothing. -/
theorem removeAll_of_none (hp : p.Direct) (htakes : t.Takes p) (hpass : t.Passable p.names)
    (hnone : t.node? p.names = none) : t.removeAll p = (.error .missing, t) := by
  have hresolve : t.resolve false p = .error .missing := by
    rw [resolve_eq_lookUp hp (checkText_eq_ok htakes.zero hp.text htakes.length) hpass]
    exact lookUp_of_none (by simp) htakes.fits hnone
  exact removeAll_of_error hresolve

section RemoveDirectory

variable {piece : List Char} (hpiece : lastPiece? p = some piece) (hdot : piece ≠ ['.'])
  (hdots : piece ≠ ['.', '.'])
include hpiece hdot hdots

/-- A directory whose path ends in a name is looked for without the slashes at the end. -/
theorem removeDirectory_eq (t : Tree) :
    t.removeDirectory p = (t.resolve false (withoutLastSlashes p)).bind fun loc =>
      match t.content? loc with
      | some .directory =>
        if (t.children loc).isEmpty then .ok (t.without loc) else .error .notEmpty
      | some _ => .error .notDirectory
      | none => .error .missing := by
  unfold removeDirectory
  rw [hpiece]
  split
  · next hnone => cases hnone
  · next heq => exact absurd (Option.some.inj heq) hdot
  · next heq => exact absurd (Option.some.inj heq) hdots
  · rfl

/-- It is not removed if it is not found. -/
theorem removeDirectory_of_error {fault : Fault}
    (h : t.resolve false (withoutLastSlashes p) = .error fault) :
    t.removeDirectory p = .error fault := by
  rw [removeDirectory_eq hpiece hdot hdots, h]
  rfl

/-- It is removed if it is empty. -/
theorem removeDirectory_of_empty {loc : Location}
    (h : t.resolve false (withoutLastSlashes p) = .ok loc)
    (hcontent : t.content? loc = some .directory) (hempty : t.children loc = []) :
    t.removeDirectory p = .ok (t.without loc) := by
  rw [removeDirectory_eq hpiece hdot hdots, h]
  dsimp only [Except.bind]
  rw [hcontent]
  dsimp only
  rw [hempty]
  rfl

end RemoveDirectory

/-- A directory is there when it has been emptied. -/
theorem content?_emptied_self (t : Tree) (loc : Location) :
    (t.emptied loc).content? loc = t.content? loc := by
  have hself := below_append loc []
  rw [List.append_nil] at hself
  rw [content?, node?_emptied hself]
  rfl

/-- A directory that is found is removed with what is below it, if it is found once more when it has
been emptied. -/
theorem removeAll_of_found {piece : List Char} {loc : Location}
    (hpiece : lastPiece? p = some piece) (hdot : piece ≠ ['.']) (hdots : piece ≠ ['.', '.'])
    (hresolve : t.resolve false p = .ok loc) (hcontent : t.content? loc = some .directory)
    (hagain : (t.emptied loc).resolve false (withoutLastSlashes p) = .ok loc) :
    t.removeAll p = (.ok (), t.without loc) := by
  have hremove := removeDirectory_of_empty hpiece hdot hdots hagain
    ((content?_emptied_self t loc).trans hcontent) (children_emptied t loc)
  unfold removeAll
  rw [hresolve]
  dsimp only
  rw [hcontent]
  dsimp only
  rw [hremove, without_emptied]

/-- Removing a directory takes away what is at and below it. -/
theorem removeAll_of_directory (ht : t.Nested) (hp : p.Direct) (htakes : t.Takes p)
    (h : t.content? p.names = some .directory) :
    t.removeAll p = (.ok (), t.without p.names) := by
  have hsome := node?_ne_none h
  obtain ⟨piece, hpiece, hdot, hdots⟩ := hp.toEndsInName.lastPiece? hp.text hp.up
  refine removeAll_of_found hpiece hdot hdots (resolve_of_some ht hp htakes hsome) h ?_
  rw [hp.toEndsInName.withoutLastSlashes]
  exact resolve_emptied ht hp htakes hsome

/-- Removing a link takes away what is at and below it, which is the link alone. -/
theorem removeAll_of_link (ht : t.Nested) (hp : p.Direct) (htakes : t.Takes p) {target : String}
    (h : t.content? p.names = some (.link target)) :
    t.removeAll p = (.ok (), t.without p.names) := by
  unfold removeAll
  rw [resolve_of_some ht hp htakes (node?_ne_none h)]
  dsimp only
  rw [h]

/-- Removing a file fails, since it is no directory, and changes nothing. -/
theorem removeAll_of_file (ht : t.Nested) (hp : p.Direct) (htakes : t.Takes p) {bytes : ByteArray}
    (h : t.content? p.names = some (.file bytes)) :
    t.removeAll p = (.error .notDirectory, t) := by
  unfold removeAll
  rw [resolve_of_some ht hp htakes (node?_ne_none h)]
  dsimp only
  rw [h]

/-- A path that is not taken fails and changes nothing. -/
theorem removeAll_of_not_takes (ht : t.Nested) (hp : p.Direct) (hpass : t.Passable p.names)
    (h : ¬ t.Takes p) :
    ∃ fault, (fault = .zeroInPath ∨ fault = .nameTooLong) ∧ t.removeAll p = (.error fault, t) := by
  -- The text is looked at before the tree, and its characters before its length.
  by_cases hzero : '\x00' ∈ p.text.toList
  · have htext : checkText p.text = .error .zeroInPath := if_pos (by simpa using hzero)
    exact ⟨.zeroInPath, .inl rfl, removeAll_of_error (resolve_of_refused htext)⟩
  · refine ⟨.nameTooLong, .inr rfl, removeAll_of_error ?_⟩
    by_cases hlength : p.text.utf8ByteSize < pathLimit
    · have hlong : ¬ t.Fits p.names := fun hfits => h ⟨hzero, hlength, hfits⟩
      unfold Fits at hlong
      push Not at hlong
      obtain ⟨q, s, r, hnames, hq, hs⟩ := hlong
      rw [resolve_eq_lookUp hp (checkText_eq_ok hzero hp.text hlength) hpass, hnames]
      exact lookUp_of_long ht (by rwa [List.nil_append]) hs
    · have htext : checkText p.text = .error .nameTooLong := by
        unfold checkText
        rw [if_neg (by simpa using hzero), if_neg hp.text, if_pos (Nat.not_lt.mp hlength)]
      exact resolve_of_refused htext

end Remove

end TableSnapshots.Tree
