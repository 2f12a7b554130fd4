import Mathlib.Data.List.Induction
import Mathlib.Data.List.Nodup
import TableSnapshots.Proofs.Path.Names

/-!
# Looking up a path without links

A path that does not lead up and has only directories on its way (`Tree.Passable`) is followed by
looking up its names one after the other (`resolve_eq_lookUp`). In a tree whose entries all lie in
directories (`Tree.Nested`) what is found is decided by the names alone: the entry that they lead
to, or that nothing is there (`lookUp_of_none`, `lookUp_of_some`), unless one of them is longer than
the directory that it is looked up in can hold (`lookUp_of_long`).
-/

namespace TableSnapshots.Tree

variable {t : Tree}

/-! ## Entries in directories -/

instance (t : Tree) (loc : Location) : Decidable (t.content? loc = some .directory) :=
  match t.content? loc with
  | some .directory => isTrue rfl
  | some (.file _) | some (.link _) | none => isFalse (by simp)

/-- Every entry lies in a directory. -/
def Nested (t : Tree) : Prop :=
  ∀ e ∈ t.entries, t.content? e.1.dropLast = some .directory

instance (t : Tree) : Decidable t.Nested :=
  inferInstanceAs (Decidable (∀ e ∈ t.entries, t.content? e.1.dropLast = some .directory))

/-- The top is always there. -/
@[simp]
theorem node?_nil (t : Tree) : t.node? [] = some top := rfl

/-- Below the top the first entry of a location counts. -/
theorem node?_of_ne_nil {loc : Location} (h : loc ≠ []) :
    t.node? loc = (t.entries.find? (·.1 = loc)).map (·.2) :=
  if_neg h

/-- A node below the top is an entry. -/
theorem mem_of_node? {loc : Location} {n : Node} (hloc : loc ≠ []) (h : t.node? loc = some n) :
    (loc, n) ∈ t.entries := by
  rw [node?_of_ne_nil hloc] at h
  obtain ⟨⟨l, n'⟩, he, rfl⟩ := Option.map_eq_some_iff.mp h
  have hkey : l = loc := by simpa using List.find?_some he
  exact hkey ▸ List.mem_of_find?_eq_some he

/-- What is there below the top has an entry. -/
theorem exists_entry {loc : Location} (hloc : loc ≠ []) (h : t.node? loc ≠ none) :
    ∃ e ∈ t.entries, e.1 = loc := by
  obtain ⟨n, hn⟩ := Option.ne_none_iff_exists'.mp h
  exact ⟨_, mem_of_node? hloc hn, rfl⟩

/-- At the location of an entry something is there. -/
theorem node?_ne_none_of_mem {loc : Location} {n : Node} (h : (loc, n) ∈ t.entries) :
    t.node? loc ≠ none := by
  by_cases hloc : loc = []
  · simp [hloc]
  · rw [node?_of_ne_nil hloc, ne_eq, Option.map_eq_none_iff, List.find?_eq_none]
    exact fun hnone => hnone _ h (decide_eq_true rfl)

/-- Above an entry there are directories. -/
theorem Nested.directory (ht : t.Nested) {q r : Location} (hr : r ≠ [])
    (h : t.node? (q ++ r) ≠ none) : t.content? q = some .directory := by
  induction r using List.reverseRecOn with
  | nil => exact absurd rfl hr
  | append_singleton r s ih =>
    obtain ⟨e, he, hloc⟩ := exists_entry (by simp) h
    have hparent : t.content? (q ++ r) = some .directory := by
      have := ht e he
      rwa [hloc, ← List.append_assoc, List.dropLast_concat] at this
    -- The directory of the entry is the one in question, or it lies below it as well.
    by_cases hr' : r = []
    · rwa [hr', List.append_nil] at hparent
    · refine ih hr' fun hnone => ?_
      rw [content?, hnone] at hparent
      cases hparent

/-- What lies above an entry is there. -/
theorem Nested.exists_above (ht : t.Nested) {q r : Location} (h : t.node? (q ++ r) ≠ none) :
    t.node? q ≠ none := by
  by_cases hr : r = []
  · rwa [hr, List.append_nil] at h
  · intro hnone
    have hdirectory := ht.directory hr h
    rw [content?, hnone] at hdirectory
    cases hdirectory

/-- A tree as a file system has it: every entry lies in a directory, no location has two entries,
and no name has a slash in it or stands for something else than an entry. -/
structure WellFormed (t : Tree) : Prop where
  nested : t.Nested
  distinct : (t.entries.map (·.1)).Nodup
  named : ∀ e ∈ t.entries, ∀ s ∈ e.1, Path.IsName s

instance (t : Tree) : Decidable t.WellFormed :=
  decidable_of_iff (t.Nested ∧ (t.entries.map (·.1)).Nodup ∧
      ∀ e ∈ t.entries, ∀ s ∈ e.1, Path.IsName s)
    ⟨fun h => ⟨h.1, h.2.1, h.2.2⟩, fun h => ⟨h.nested, h.distinct, h.named⟩⟩

/-- Where no location has two entries, an entry is what there is at its location. -/
theorem node?_of_mem (ht : (t.entries.map (·.1)).Nodup) {loc : Location} {n : Node}
    (hloc : loc ≠ []) (h : (loc, n) ∈ t.entries) : t.node? loc = some n := by
  rw [node?_of_ne_nil hloc]
  cases hfind : t.entries.find? (·.1 = loc) with
  | none =>
    have hnot := List.find?_eq_none.mp hfind _ h
    simp at hnot
  | some e =>
    have hmem := List.mem_of_find?_eq_some hfind
    have hkey : e.1 = loc := by simpa using List.find?_some hfind
    have hsame : e = (loc, n) := List.inj_on_of_nodup_map ht hmem h hkey
    rw [hsame]
    rfl

/-- So a location below the top has those nodes that are entries. -/
theorem WellFormed.node?_eq_some_iff (ht : t.WellFormed) {loc : Location} {n : Node}
    (hloc : loc ≠ []) : t.node? loc = some n ↔ (loc, n) ∈ t.entries :=
  ⟨mem_of_node? hloc, node?_of_mem ht.distinct hloc⟩

/-- An entry above another one is a directory. -/
theorem WellFormed.directory_of_prefix (ht : t.WellFormed) {loc loc' : Location} {n n' : Node}
    (hloc : loc ≠ []) (h : (loc, n) ∈ t.entries) (h' : (loc', n') ∈ t.entries)
    (hle : loc <+: loc') (hne : loc ≠ loc') : n.content = .directory := by
  obtain ⟨r, rfl⟩ := hle
  have hr : r ≠ [] := by
    rintro rfl
    exact hne (List.append_nil loc).symm
  have hdirectory := ht.nested.directory hr (node?_ne_none_of_mem h')
  rw [content?, (ht.node?_eq_some_iff hloc).mpr h] at hdirectory
  exact Option.some.inj hdirectory

/-! ## Looking up names -/

/-- Look up names one after the other, each in what the one before it led to. -/
def lookUp (t : Tree) : Location → List String → Except Fault Location
  | dir, [] => .ok dir
  | dir, s :: names =>
    if nameLimit < s.utf8ByteSize then .error .nameTooLong
    else match t.node? (dir ++ [s]) with
      | none => .error .missing
      | some _ => lookUp t (dir ++ [s]) names

/-- What there is above a location are directories. -/
def Passable (t : Tree) (loc : Location) : Prop :=
  ∀ q r, r ≠ [] → loc = q ++ r → ∀ c, t.content? q = some c → c = .directory

/-- No name of a location is looked up in something that cannot hold it. -/
def Fits (t : Tree) (loc : Location) : Prop :=
  ∀ q s r, loc = q ++ s :: r → t.node? q ≠ none → s.utf8ByteSize ≤ nameLimit

/-- Names that every directory can hold fit. -/
theorem fits_of_short {loc : Location} (h : ∀ s ∈ loc, s.utf8ByteSize ≤ nameLimit) :
    t.Fits loc := by
  rintro q s r rfl -
  exact h s (by simp)

/-- Steps that do not lead up and end in a name look up their names. -/
theorem advance_eq_lookUp {dir : Location} {steps : List Step} (hup : .up ∉ steps)
    (hlast : ∃ s, steps.getLast? = some (.name s))
    (hpass : t.Passable (dir ++ steps.filterMap Step.name?)) :
    t.advance false dir steps = (t.lookUp dir (steps.filterMap Step.name?)).map .arrived := by
  induction steps generalizing dir with
  | nil =>
    obtain ⟨s, hs⟩ := hlast
    cases hs
  | cons step steps ih =>
    have hup' : .up ∉ steps := fun h => hup (List.mem_cons_of_mem _ h)
    cases step with
    | here =>
      refine ih hup' ?_ hpass
      obtain ⟨s, hs⟩ := hlast
      cases steps with
      | nil => cases hs
      | cons _ _ => exact ⟨s, by rwa [List.getLast?_cons_cons] at hs⟩
    | up => exact absurd (List.mem_cons_self) hup
    | name s =>
      rw [List.filterMap_cons_some (show (Step.name s).name? = some s from rfl)] at hpass ⊢
      rw [advance, lookUp]
      split
      · rfl
      · cases hnode : t.node? (dir ++ [s]) with
        | none => rfl
        | some n =>
          by_cases hsteps : steps = []
          · -- The path ends at this name, and what is there is not looked into.
            subst hsteps
            dsimp only
            cases n.content <;> rfl
          · obtain ⟨s', hs'⟩ := hlast
            rw [List.getLast?_cons_of_ne_nil hsteps] at hs'
            have hnames : steps.filterMap Step.name? ≠ [] :=
              List.ne_nil_of_mem (List.mem_filterMap.mpr ⟨_, List.mem_of_getLast? hs', rfl⟩)
            have hsplit : dir ++ s :: steps.filterMap Step.name?
                = (dir ++ [s]) ++ steps.filterMap Step.name? := by simp
            have hdirectory : n.content = .directory :=
              hpass _ _ hnames hsplit _ (by rw [content?, hnode]; rfl)
            rw [hsplit] at hpass
            dsimp only
            rw [hdirectory]
            exact ih hup' ⟨s', hs'⟩ hpass

/-- Steps that come to no link need none. -/
theorem walk_of_arrived {followLast : Bool} {links : Nat} {dir loc : Location} {steps : List Step}
    (h : t.advance followLast dir steps = .ok (.arrived loc)) :
    t.walk followLast links dir steps = .ok loc := by
  cases links <;> rw [walk, h] <;> rfl

/-- Steps that fail before the first link fail so. -/
theorem walk_of_error {followLast : Bool} {links : Nat} {dir : Location} {steps : List Step}
    {fault : Fault} (h : t.advance followLast dir steps = .error fault) :
    t.walk followLast links dir steps = .error fault := by
  cases links <;> rw [walk, h] <;> rfl

/-- A path whose text is not refused is followed from the top. -/
theorem resolve_eq_walk {followLast : Bool} {p : Path} (h : checkText p.text = .ok ()) :
    t.resolve followLast p = t.walk followLast linkLimit [] (Step.ofText p.text) := by
  unfold resolve
  rw [h]
  rfl

/-- A path whose text is refused leads nowhere. -/
theorem resolve_of_refused {followLast : Bool} {p : Path} {fault : Fault}
    (h : checkText p.text = .error fault) : t.resolve followLast p = .error fault := by
  unfold resolve
  rw [h]
  rfl

/-- A passable path that leads up nowhere looks up its names. -/
theorem resolve_eq_lookUp {p : Path} (hp : p.Direct) (htext : checkText p.text = .ok ())
    (hpass : t.Passable p.names) : t.resolve false p = t.lookUp [] p.names := by
  have hadvance : t.advance false [] (Step.ofText p.text) = (t.lookUp [] p.names).map .arrived := by
    rw [← Step.filterMap_name?_ofText] at hpass ⊢
    exact advance_eq_lookUp (mt Step.up_mem_ofText hp.up)
      (hp.toEndsInName.getLast?_ofText hp.text hp.up) hpass
  rw [resolve_eq_walk htext]
  cases hlookUp : t.lookUp [] p.names with
  | error fault =>
    rw [hlookUp] at hadvance
    exact walk_of_error hadvance
  | ok loc =>
    rw [hlookUp] at hadvance
    exact walk_of_arrived hadvance

/-! ## What is found -/

/-- Looking up names depends only on what is along them. -/
theorem lookUp_congr {t' : Tree} {dir : Location} {names : List String}
    (h : ∀ q r, names = q ++ r → t'.node? (dir ++ q) = t.node? (dir ++ q)) :
    t'.lookUp dir names = t.lookUp dir names := by
  induction names generalizing dir with
  | nil => rfl
  | cons s names ih =>
    have hrest : t'.lookUp (dir ++ [s]) names = t.lookUp (dir ++ [s]) names := by
      refine ih fun q r hqr => ?_
      have := h (s :: q) r (by rw [hqr]; rfl)
      simpa using this
    rw [lookUp, lookUp, h [s] names rfl, hrest]

/-- Nothing is found where nothing is. -/
theorem lookUp_of_none {dir : Location} {names : List String} (hdir : t.node? dir ≠ none)
    (hfits : t.Fits (dir ++ names)) (hnone : t.node? (dir ++ names) = none) :
    t.lookUp dir names = .error .missing := by
  induction names generalizing dir with
  | nil => exact absurd (by rwa [List.append_nil] at hnone) hdir
  | cons s names ih =>
    have hs : ¬ nameLimit < s.utf8ByteSize := Nat.not_lt.mpr (hfits dir s names rfl hdir)
    rw [lookUp, if_neg hs]
    cases hnode : t.node? (dir ++ [s]) with
    | none => rfl
    | some n =>
      rw [List.append_cons] at hfits hnone
      exact ih (by simp [hnode]) hfits hnone

/-- What is there is found. -/
theorem lookUp_of_some (ht : t.Nested) {dir : Location} {names : List String}
    (hdir : t.node? dir ≠ none) (hfits : t.Fits (dir ++ names))
    (hsome : t.node? (dir ++ names) ≠ none) : t.lookUp dir names = .ok (dir ++ names) := by
  induction names generalizing dir with
  | nil => rw [lookUp, List.append_nil]
  | cons s names ih =>
    have hs : ¬ nameLimit < s.utf8ByteSize := Nat.not_lt.mpr (hfits dir s names rfl hdir)
    rw [List.append_cons] at hfits hsome ⊢
    have hnode := ht.exists_above hsome
    obtain ⟨n, hn⟩ := Option.ne_none_iff_exists'.mp hnode
    rw [lookUp, if_neg hs, hn]
    exact ih hnode hfits hsome

/-- A name that is too long for the directory that it is looked up in ends the lookup. -/
theorem lookUp_of_long (ht : t.Nested) {dir q r : Location} {s : String}
    (hq : t.node? (dir ++ q) ≠ none) (hs : nameLimit < s.utf8ByteSize) :
    t.lookUp dir (q ++ s :: r) = .error .nameTooLong := by
  induction q generalizing dir with
  | nil => rw [List.nil_append, lookUp, if_pos hs]
  | cons s' q ih =>
    rw [List.cons_append, lookUp]
    split
    · rfl
    · rw [List.append_cons] at hq
      obtain ⟨n, hn⟩ := Option.ne_none_iff_exists'.mp (ht.exists_above hq)
      rw [hn]
      exact ih hq

end TableSnapshots.Tree
