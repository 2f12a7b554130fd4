import TableSnapshots.Proofs.Tree.Footprint

/-!
# Entries of a directory that was found

The path of an entry goes on from where the path of its directory leads to, through those links that
the directory has left (`resolve_entry`), also if the directory is spelled with a slash or a `.` at
its end, or with a `..`. So an entry that is a directory is found where it is
(`resolve_of_readFile_entry`), and what is read at a name in it is decided by what is there
(`readFile_of_vacant`). A file in the directory is found without looking up anything else in it than
the way to the directory does (`mem_looks_entry_of_file`).
-/

namespace TableSnapshots

namespace Step

/-- One piece more takes its step after those of the other pieces, but for a stay at their end. -/
theorem exists_ofPieces_concat (ps : List (List Char)) :
    ∃ steps, (ofPieces ps = steps ∨ ofPieces ps = steps ++ [.here]) ∧
      ∀ piece, ofPieces (ps ++ [piece]) = steps ++ [ofPieces.ofLast piece] := by
  induction ps with
  | nil => exact ⟨[], .inl rfl, fun _ => rfl⟩
  | cons p ps ih =>
    cases ps with
    | nil =>
      -- An empty last piece is a stay, but it takes no step any more if a piece comes after it.
      by_cases hp : p = []
      · subst hp
        exact ⟨[], .inr rfl, fun _ => rfl⟩
      · exact ⟨[ofPieces.ofLast p], .inl rfl, fun _ => if_neg hp⟩
    | cons q ps =>
      obtain ⟨steps, hsteps, hconcat⟩ := ih
      simp only [List.cons_append] at hconcat ⊢
      simp only [ofPieces]
      split
      · exact ⟨steps, hsteps, hconcat⟩
      · refine ⟨ofPieces.ofLast p :: steps, hsteps.imp (congrArg _) (congrArg _), fun piece => ?_⟩
        rw [hconcat, List.cons_append]

/-- The last step to an entry goes to its name, after the steps to the directory. -/
theorem exists_ofText_entry {p : Path} {s : String} (hs : Path.IsName s) (hp : p.text ≠ "") :
    ∃ steps, (ofText p.text = steps ∨ ofText p.text = steps ++ [.here]) ∧
      ofText (p.entry s).text = steps ++ [.name s] := by
  have hlast := ofLast_of_isName hs
  have hentry : (p.entry s).pieces = p.pieces ++ (Path.mk s).pieces ∨ ∃ ps, ps ≠ [] ∧
      p.pieces = ps ++ [[]] ∧ (p.entry s).pieces = ps ++ (Path.mk s).pieces :=
    Path.pieces_join hs.not_isAbsolute hp
  rw [hs.pieces] at hentry
  rcases hentry with hentry | ⟨ps, hps, hpieces, hentry⟩
  · obtain ⟨first, rest, hpieces⟩ := p.exists_pieces
    rw [hpieces, List.cons_append] at hentry
    rw [ofText_of_pieces hpieces, ofText_of_pieces hentry, ← hlast]
    split
    · obtain ⟨steps, hsteps, hconcat⟩ := exists_ofPieces_concat rest
      exact ⟨steps, hsteps, hconcat _⟩
    · obtain ⟨steps, hsteps, hconcat⟩ := exists_ofPieces_concat (first :: rest)
      exact ⟨steps, hsteps, hconcat _⟩
  · -- The directory ends in a slash, and the name takes the place of the empty piece after it.
    obtain ⟨first, rest, rfl⟩ := List.exists_cons_of_ne_nil hps
    rw [List.cons_append] at hpieces hentry
    rw [ofText_of_pieces hpieces, ofText_of_pieces hentry, ← hlast]
    split
    · obtain ⟨steps, -, hconcat⟩ := exists_ofPieces_concat rest
      exact ⟨steps, .inr (hconcat []), hconcat _⟩
    · obtain ⟨steps, -, hconcat⟩ := exists_ofPieces_concat (first :: rest)
      exact ⟨steps, .inr (hconcat []), hconcat _⟩

end Step

namespace Tree

variable {t : Tree} {followLast : Bool}

/-! ## On from a directory -/

section Append

variable {dir mid : Location} {xs ys : List Step}

/-- Steps that arrive at a directory go on from there. -/
theorem advance_append_of_arrived (h : t.advance true dir xs = .ok (.arrived mid))
    (hmid : t.content? mid = some .directory) :
    t.advance followLast dir (xs ++ ys) = t.advance followLast mid ys := by
  induction xs generalizing dir with
  | nil =>
    cases h
    rfl
  | cons step xs ih =>
    cases step with
    | here => exact ih h
    | up => exact ih h
    | name s =>
      rw [advance_name] at h
      rw [List.cons_append, advance_name]
      split at h
      · cases h
      · next hlong =>
        rw [if_neg hlong]
        split at h
        · cases h
        · exact ih h
        · -- The steps could end at a file, but then they would not arrive at a directory.
          next hfile =>
          split at h <;> cases h
          rw [hfile] at hmid
          cases hmid
        · -- A link is followed at the end as well, so the steps do not arrive with it.
          rw [Bool.not_true, Bool.and_false, if_neg Bool.false_ne_true] at h
          cases h

/-- Steps that come to a link come to it as well if others follow. -/
theorem advance_append_of_detour (hys : ys ≠ []) {dir' : Location} {target : String}
    {rest : List Step} (h : t.advance true dir xs = .ok (.detour dir' target rest)) :
    t.advance followLast dir (xs ++ ys) = .ok (.detour dir' target (rest ++ ys)) := by
  induction xs generalizing dir with
  | nil => cases h
  | cons step xs ih =>
    cases step with
    | here => exact ih h
    | up => exact ih h
    | name s =>
      rw [advance_name] at h
      rw [List.cons_append, advance_name]
      split at h
      · cases h
      · next hlong =>
        rw [if_neg hlong]
        split at h
        · cases h
        · exact ih h
        · split at h <;> cases h
        · split at h <;> cases h
          exact if_neg (by simp [hys])

/-- Where steps come to next decides what is found through links. -/
theorem walk_of_advance_eq {links : Nat} {dir' : Location} {steps steps' : List Step}
    (h : t.advance followLast dir steps = t.advance followLast dir' steps') :
    t.walk followLast links dir steps = t.walk followLast links dir' steps' := by
  cases links <;> rw [walk, walk, h]

/-- Steps that find a directory go on from there, through the links that are left. -/
theorem walk_append (hys : ys ≠ []) {links : Nat} (h : t.walk true links dir xs = .ok mid)
    (hmid : t.content? mid = some .directory) :
    ∃ fewer, t.walk followLast links dir (xs ++ ys) = t.walk followLast fewer mid ys := by
  induction links generalizing dir xs with
  | zero =>
    rcases of_walk_eq_ok h with harrived | ⟨_, _, _, _, hlinks, -⟩
    · exact ⟨0, walk_of_advance_eq (advance_append_of_arrived harrived hmid)⟩
    · cases hlinks
  | succ links ih =>
    rcases of_walk_eq_ok h with harrived | ⟨_, dir', target, rest, hlinks, hdetour, hnext⟩
    · exact ⟨links + 1, walk_of_advance_eq (advance_append_of_arrived harrived hmid)⟩
    · -- The target of the link takes its place before the steps that follow.
      cases hlinks
      obtain ⟨fewer, hfewer⟩ := ih hnext
      refine ⟨fewer, ?_⟩
      rw [walk, advance_append_of_detour hys hdetour, ← hfewer, List.append_assoc]
      rfl

/-- Steps that arrive have arrived somewhere before the last ones. -/
theorem of_arrived_append (hys : ys ≠ []) {loc : Location}
    (h : t.advance followLast dir (xs ++ ys) = .ok (.arrived loc)) :
    ∃ mid, t.advance true dir xs = .ok (.arrived mid) ∧
      t.advance followLast mid ys = .ok (.arrived loc) := by
  induction xs generalizing dir with
  | nil => exact ⟨dir, rfl, h⟩
  | cons step xs ih =>
    cases step with
    | here => exact ih h
    | up => exact ih h
    | name s =>
      rw [List.cons_append, advance_name] at h
      rw [advance_name]
      split at h
      · cases h
      · next hlong =>
        rw [if_neg hlong]
        split at h
        · cases h
        · exact ih h
        · rw [if_neg (by simp [hys])] at h
          cases h
        · rw [if_neg (by simp [hys])] at h
          cases h

/-- A stay at the end finds what is found without it if a link at the end is followed. -/
theorem walk_of_concat_here {links : Nat}
    (h : t.walk followLast links dir (xs ++ [.here]) = .ok mid) :
    t.walk true links dir xs = .ok mid := by
  induction links generalizing dir xs with
  | zero =>
    rcases of_walk_eq_ok h with harrived | ⟨_, _, _, _, hlinks, -⟩
    · obtain ⟨mid', hxs, hstay⟩ := of_arrived_append (List.cons_ne_nil _ _) harrived
      cases hstay
      exact walk_of_arrived hxs
    · cases hlinks
  | succ links ih =>
    rcases of_walk_eq_ok h with harrived | ⟨_, dir', target, rest, hlinks, hdetour, hnext⟩
    · obtain ⟨mid', hxs, hstay⟩ := of_arrived_append (List.cons_ne_nil _ _) harrived
      cases hstay
      exact walk_of_arrived hxs
    · cases hlinks
      rcases of_detour_append hdetour with ⟨rest', rfl, hxs⟩ | ⟨mid', -, hstay⟩
      · rw [← List.append_assoc] at hnext
        rw [walk, hxs]
        exact ih hnext
      · cases hstay

end Append

/-! ## Entries -/

section Entry

variable {p : Path} {loc : Location} {s : String}

/-- A path that leads somewhere has a text. -/
theorem text_ne_empty_of_resolve (h : t.resolve followLast p = .ok loc) : p.text ≠ "" := by
  intro hp
  have hrefused : checkText p.text = .error .missing := by
    rw [hp]
    rfl
  rw [resolve_of_refused hrefused] at h
  cases h

/-- The path of an entry goes on from where the directory was found. -/
theorem resolve_entry (hs : Path.IsName s) (h : t.resolve true p = .ok loc)
    (hloc : t.content? loc = some .directory) (hadmissible : Admissible (p.entry s)) :
    ∃ links, t.resolve followLast (p.entry s) = t.walk followLast links loc [.name s] := by
  have hp := text_ne_empty_of_resolve h
  have hdir := hadmissible.of_entry hs hp
  obtain ⟨steps, hsteps, hentry⟩ := Step.exists_ofText_entry hs hp
  rw [resolve_eq_walk (checkText_eq_ok hdir.zero hp hdir.length)] at h
  rw [resolve_eq_walk (checkText_eq_ok hadmissible.zero (p.entry_text_ne_empty hs.ne_empty)
    hadmissible.length), hentry]
  refine walk_append (List.cons_ne_nil _ _) ?_ hloc
  rcases hsteps with hsteps | hsteps
  · rwa [hsteps] at h
  · rw [hsteps] at h
    exact walk_of_concat_here h

/-- A directory in it is found at its name. -/
theorem resolve_entry_of_directory (hs : Path.IsName s) (h : t.resolve true p = .ok loc)
    (hloc : t.content? loc = some .directory) (hadmissible : Admissible (p.entry s))
    (hcontent : t.content? (loc ++ [s]) = some .directory) :
    t.resolve followLast (p.entry s) = .ok (loc ++ [s]) := by
  have hshort : s.utf8ByteSize ≤ nameLimit := by
    refine hadmissible.short s ?_
    rw [Path.names_entry hs (text_ne_empty_of_resolve h)]
    exact List.mem_append_right _ (List.mem_singleton_self s)
  obtain ⟨links, hlinks⟩ : ∃ links,
      t.resolve followLast (p.entry s) = t.walk followLast links loc [.name s] :=
    resolve_entry hs h hloc hadmissible
  rw [hlinks]
  refine walk_of_arrived ?_
  rw [advance_name, if_neg (Nat.not_lt.mpr hshort), hcontent]
  rfl

end Entry

/-! ## What is looked up on the way to an entry -/

section Looks

variable {dir l : Location} {xs ys : List Step}

/-- What steps look up is looked up as well if others follow. -/
theorem mem_advanceLooks_append_left (h : l ∈ t.advanceLooks dir xs) :
    l ∈ t.advanceLooks dir (xs ++ ys) := by
  induction xs generalizing dir with
  | nil => cases h
  | cons step xs ih =>
    cases step with
    | here => exact ih h
    | up => exact ih h
    | name s =>
      rw [advanceLooks] at h
      rw [List.cons_append, advanceLooks]
      split
      · next hlong =>
        rw [if_pos hlong] at h
        cases h
      · next hlong =>
        rw [if_neg hlong, List.mem_cons] at h
        rw [List.mem_cons]
        refine h.imp_right fun hrest => ?_
        split at hrest
        · exact ih hrest
        · cases hrest

/-- This holds through links, if a link at the end of the first steps is followed. -/
theorem mem_walkLooks_append_left (hys : ys ≠ []) {links : Nat}
    (h : l ∈ t.walkLooks true links dir xs) :
    l ∈ t.walkLooks followLast links dir (xs ++ ys) := by
  induction links generalizing dir xs with
  | zero => exact mem_advanceLooks_append_left h
  | succ links ih =>
    rw [walkLooks, List.mem_append] at h ⊢
    refine h.imp mem_advanceLooks_append_left fun hrest => ?_
    split at hrest
    · next hdetour =>
      rw [advance_append_of_detour hys hdetour]
      have hnext := ih hrest
      rwa [List.append_assoc] at hnext
    · cases hrest

variable {p : Path} {loc : Location} {s : String}

/-- On the way to an entry everything on the way to the directory is looked up, and then what the
entry's name asks for in the directory that was found. -/
theorem mem_looks_entry (hs : Path.IsName s) (h : t.resolve true p = .ok loc)
    (hl : l ∈ t.looks followLast (p.entry s)) :
    l ∈ t.looks true p ∨ ∃ fewer, l ∈ t.walkLooks followLast fewer loc [.name s] := by
  obtain ⟨steps, hsteps, hentry⟩ := Step.exists_ofText_entry hs (text_ne_empty_of_resolve h)
  unfold looks at hl ⊢
  cases hrefused : checkText p.text with
  | error fault =>
    rw [resolve_of_refused hrefused] at h
    cases h
  | ok _ =>
    rw [resolve_eq_walk hrefused] at h
    split at hl
    · cases hl
    · rw [hentry] at hl
      rcases mem_walkLooks_append hl with hl | ⟨mid, fewer, hmid, hl⟩
      · left
        rcases hsteps with hsteps | hsteps
        · rwa [hsteps]
        · rw [hsteps]
          exact mem_walkLooks_append_left (List.cons_ne_nil _ _) hl
      · -- The steps before the name lead to the directory, also without a stay at their end.
        have hloc : t.Leads true [] steps loc := by
          rcases hsteps with hsteps | hsteps
          · rw [hsteps] at h
            exact leads_of_walk h
          · rw [hsteps] at h
            exact leads_of_walk (walk_of_concat_here h)
        rw [hmid.unique hloc] at hl
        exact .inr ⟨fewer, hl⟩

/-- Of an entry that is a file nothing else is asked for than its own location. -/
theorem mem_looks_entry_of_file (hs : Path.IsName s) (h : t.resolve true p = .ok loc)
    {bytes : ByteArray} (hfile : t.content? (loc ++ [s]) = some (.file bytes))
    (hl : l ∈ t.looks followLast (p.entry s)) : l ∈ t.looks true p ∨ l = loc ++ [s] := by
  refine (mem_looks_entry hs h hl).imp_right fun ⟨fewer, hname⟩ => ?_
  have hfirst : l ∈ t.advanceLooks loc [.name s] := by
    cases fewer with
    | zero => exact hname
    | succ fewer =>
      rw [walkLooks, List.mem_append] at hname
      refine hname.resolve_right fun hrest => ?_
      rw [advance_name, hfile] at hrest
      split at hrest
      · next hdetour => split at hdetour <;> cases hdetour
      · cases hrest
  rw [advanceLooks, hfile] at hfirst
  split at hfirst
  · cases hfirst
  · exact List.mem_singleton.mp hfirst

end Looks

/-! ## Reading in a directory -/

/-- A link leads to a name that is missing from a directory. -/
def Dangles (t : Tree) (loc : Location) : Prop :=
  ∃ target links, t.content? loc = some (.link target) ∧
    t.walk true links (origin loc.dropLast target) (Step.ofText target) = .error .missing

/-- What leads to a missing name leads there whatever the number of links that may be followed,
unless these are too few. -/
theorem walk_missing_or_linkLoop {links : Nat} {dir : Location} {steps : List Step}
    (h : t.walk followLast links dir steps = .error .missing) (links' : Nat) :
    t.walk followLast links' dir steps = .error .missing ∨
      t.walk followLast links' dir steps = .error .linkLoop := by
  induction links generalizing links' dir steps with
  | zero =>
    rw [walk] at h
    cases hadvance : t.advance followLast dir steps with
    | error fault =>
      rw [hadvance] at h
      cases h
      exact .inl (walk_of_error hadvance)
    | ok halt => cases halt <;> rw [hadvance] at h <;> cases h
  | succ links ih =>
    rw [walk] at h
    cases hadvance : t.advance followLast dir steps with
    | error fault =>
      rw [hadvance] at h
      cases h
      exact .inl (walk_of_error hadvance)
    | ok halt =>
      rw [hadvance] at h
      cases halt with
      | arrived loc => cases h
      | detour dir' target rest =>
        -- Without a link left to follow, this one is already one too many.
        cases links' with
        | zero =>
          right
          rw [walk, hadvance]
          rfl
        | succ links' =>
          rw [walk, hadvance]
          exact ih h links'

section Read

variable {p : Path} {loc : Location} {s m : String} (hs : Path.IsName s) (hm : Path.IsName m)
  (h : t.resolve true p = .ok loc) (hloc : t.content? loc = some .directory)
  (hcontent : t.content? (loc ++ [s]) = some .directory)
include hs hm h hloc hcontent

/-- A directory in which a file was read is found at its name. -/
theorem resolve_of_readFile_entry {bytes : ByteArray}
    (hread : t.readFile ((p.entry s).entry m) = .ok bytes) :
    t.resolve true (p.entry s) = .ok (loc ++ [s]) := by
  obtain ⟨l, hfile, -⟩ := readFile_eq_ok_iff.mp hread
  have hentry := (admissible_of_resolve hfile).of_entry hm (p.entry_text_ne_empty hs.ne_empty)
  exact resolve_entry_of_directory hs h hloc hentry hcontent

/-- Nothing is there to be read where nothing is, nor through a link that dangles, as long as the
operating system takes the path and no more links are met than it follows. -/
theorem readFile_of_vacant (hadmissible : Admissible ((p.entry s).entry m))
    (hloop : t.resolve true ((p.entry s).entry m) ≠ .error .linkLoop)
    (hvacant : t.node? (loc ++ [s] ++ [m]) = none ∨ t.Dangles (loc ++ [s] ++ [m])) :
    t.readFile ((p.entry s).entry m) = .error .missing := by
  have hp := p.entry_text_ne_empty hs.ne_empty
  have hdir : t.resolve true (p.entry s) = .ok (loc ++ [s]) :=
    resolve_entry_of_directory hs h hloc (hadmissible.of_entry hm hp) hcontent
  have hshort : m.utf8ByteSize ≤ nameLimit := by
    refine hadmissible.short m ?_
    rw [Path.names_entry hm hp]
    exact List.mem_append_right _ (List.mem_singleton_self m)
  obtain ⟨links, hlinks⟩ : ∃ links, t.resolve true ((p.entry s).entry m)
      = t.walk true links (loc ++ [s]) [.name m] := resolve_entry hm hdir hcontent hadmissible
  suffices hmissing : t.resolve true ((p.entry s).entry m) = .error .missing by
    unfold readFile
    rw [hmissing]
    rfl
  -- Only the last name is left to look up, in the directory itself.
  rw [hlinks] at hloop ⊢
  rcases hvacant with hnone | ⟨target, fewer, hlink, hmissing⟩
  · refine walk_of_error ?_
    rw [advance_name, if_neg (Nat.not_lt.mpr hshort), content?, hnone]
    rfl
  · have hdetour : t.advance true (loc ++ [s]) [.name m]
        = .ok (.detour (loc ++ [s]) target []) := by
      rw [advance_name, if_neg (Nat.not_lt.mpr hshort), hlink]
      rfl
    cases links with
    | zero =>
      rw [walk, hdetour] at hloop
      exact absurd rfl hloop
    | succ links =>
      rw [walk, hdetour] at hloop ⊢
      rw [List.dropLast_concat, ← List.append_nil (Step.ofText target)] at hmissing
      exact (walk_missing_or_linkLoop hmissing links).resolve_right hloop

end Read

end Tree

end TableSnapshots
