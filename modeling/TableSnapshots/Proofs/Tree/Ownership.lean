import TableSnapshots.Proofs.Tree.Leads
import TableSnapshots.Proofs.Tree.Resolve
import TableSnapshots.Tree.Ownership

/-!
# Owners after a change

A change of owners gives the entries below a directory away one after the other, up to the first one
that is refused. What it leaves is the tree in which these entries belong to the new owner, under
each name that they have (`exists_given`). So nothing changes but owners, and only of what has a
name below the location that the path leads to (`givenAlong_changeOwnership`). A change that
succeeds gave all of that to the new owner (`exists_of_changeOwnership`), and what lies at and below
an entry of the directory is among it (`below_of_atOrBelow_entry`). The names of one file show the
same entry after any change if they did before it (`NamesAgree.changeOwnership`).
-/

namespace TableSnapshots.Tree

variable {t t' : Tree} {authority : Authority} {owner old : Owner} {p : Path} {user group : String}
  {path : Location → Path} {chosen chosen' : Location → Bool} {loc l l' : Location}
  {locs : List Location}

/-! ## Trees with other owners -/

/-- An entry is what it was, and belongs to the new owner if it was chosen. -/
theorem node?_owned (t : Tree) (owner : Owner) (chosen : Location → Bool) (hl : l ≠ []) :
    (t.owned owner chosen).node? l
      = (t.node? l).map fun n => if chosen l then { n with owner } else n := by
  rw [node?_of_ne_nil hl, node?_of_ne_nil hl, owned, List.find?_map, Option.map_map,
    Option.map_map]
  refine Option.map_congr fun e he => ?_
  have hloc : e.1 = l := by simpa using List.find?_some he
  rw [← hloc]
  rfl

/-- An entry that was not chosen is as before. -/
theorem node?_owned_of_not_chosen (h : chosen l = false) :
    (t.owned owner chosen).node? l = t.node? l := by
  by_cases hl : l = []
  · rw [hl]
    rfl
  · rw [node?_owned t owner chosen hl, h]
    exact congrFun Option.map_id _

/-- What an entry is does not depend on its owner. -/
@[simp]
theorem content?_owned (t : Tree) (owner : Owner) (chosen : Location → Bool) (l : Location) :
    (t.owned owner chosen).content? l = t.content? l := by
  by_cases hl : l = []
  · rw [hl]
    rfl
  · unfold content?
    rw [node?_owned t owner chosen hl, Option.map_map]
    refine Option.map_congr fun n _ => ?_
    dsimp only [Function.comp_apply]
    split <;> rfl

/-- Nor does the number of a file. -/
@[simp]
theorem number?_owned (t : Tree) (owner : Owner) (chosen : Location → Bool) (l : Location) :
    (t.owned owner chosen).number? l = t.number? l := by
  by_cases hl : l = []
  · rw [hl]
    rfl
  · unfold number?
    rw [node?_owned t owner chosen hl, Option.bind_map]
    refine Option.bind_congr fun n _ => ?_
    dsimp only [Function.comp_apply]
    split <;> rfl

/-- So names of one entry stay names of one entry. -/
@[simp]
theorem sameEntry_owned (t : Tree) (owner : Owner) (chosen : Location → Bool) :
    (t.owned owner chosen).sameEntry = t.sameEntry := by
  funext l l'
  unfold sameEntry
  rw [number?_owned, number?_owned]

/-- Choosing once more is choosing both. -/
theorem owned_owned (t : Tree) (owner : Owner) (chosen chosen' : Location → Bool) :
    (t.owned owner chosen).owned owner chosen'
      = t.owned owner fun l => chosen l || chosen' l := by
  unfold owned
  rw [List.map_map]
  refine congrArg Tree.mk (List.map_congr_left fun e _ => ?_)
  by_cases hfirst : chosen e.1 = true <;> by_cases hsecond : chosen' e.1 = true <;>
    simp [hfirst, hsecond]

/-! ## Names -/

/-- A location is a name of what is there. -/
@[simp]
theorem sameEntry_self (t : Tree) (l : Location) : t.sameEntry l l = true := by
  simp [sameEntry]

/-- Two locations are names of one entry iff they are equal, or a file of one number is at both. -/
theorem sameEntry_iff :
    t.sameEntry l l' = true ↔ l = l' ∨ ∃ i, t.number? l = some i ∧ t.number? l' = some i := by
  unfold sameEntry
  rw [Bool.or_eq_true, Bool.and_eq_true, decide_eq_true_eq, decide_eq_true_eq,
    Option.isSome_iff_exists]
  refine or_congr_right ⟨?_, ?_⟩
  · rintro ⟨⟨i, hi⟩, heq⟩
    exact ⟨i, hi, heq ▸ hi⟩
  · rintro ⟨i, hi, hi'⟩
    exact ⟨⟨i, hi⟩, hi.trans hi'.symm⟩

/-- The other names of names of one entry are the same. -/
theorem sameEntry_congr (h : t.sameEntry l l' = true) (loc : Location) :
    t.sameEntry loc l = t.sameEntry loc l' := by
  rw [Bool.eq_iff_iff, sameEntry_iff, sameEntry_iff]
  rcases sameEntry_iff.mp h with rfl | ⟨i, hi, hi'⟩
  · rfl
  · constructor
    · rintro (rfl | ⟨j, hj, hl⟩)
      · exact .inr ⟨i, hi, hi'⟩
      · obtain rfl : i = j := Option.some.inj (hi.symm.trans hl)
        exact .inr ⟨i, hj, hi'⟩
    · rintro (rfl | ⟨j, hj, hl⟩)
      · exact .inr ⟨i, hi', hi⟩
      · obtain rfl : i = j := Option.some.inj (hi'.symm.trans hl)
        exact .inr ⟨i, hj, hi⟩

/-- The top has no other name. -/
theorem eq_nil_of_sameEntry_nil (h : t.sameEntry loc [] = true) : loc = [] := by
  rcases sameEntry_iff.mp h with hloc | ⟨i, -, hi⟩
  · exact hloc
  · cases hi

/-- A directory has no other name. -/
theorem number?_of_directory (h : t.content? l = some .directory) : t.number? l = none := by
  obtain ⟨n, hn, hcontent⟩ := Option.map_eq_some_iff.mp h
  rw [number?, hn, Option.bind_some, Node.number?, hcontent]

/-- What is at a location has a name below a directory: the location lies there, or a file is at the
location and another of its names lies there. -/
def HasNameBelow (t : Tree) (dir l : Location) : Prop :=
  ∃ l', below dir l' = true ∧ t.sameEntry l' l = true

/-- What lies there has. -/
theorem hasNameBelow_of_below {dir : Location} (h : below dir l = true) : t.HasNameBelow dir l :=
  ⟨l, h, sameEntry_self t l⟩

/-- What can have no other name must lie there itself. -/
theorem HasNameBelow.below {dir : Location} (h : t.HasNameBelow dir l) (hl : t.number? l = none) :
    below dir l = true := by
  obtain ⟨l', hbelow, hsame⟩ := h
  rcases sameEntry_iff.mp hsame with rfl | ⟨i, -, hi⟩
  · exact hbelow
  · rw [hl] at hi
    cases hi

/-- Nothing lies below itself. -/
theorem below_self (dir : Location) : below dir dir = false := by
  simp [below]

/-- The top lies below nothing. -/
theorem ne_nil_of_below {dir : Location} (h : below dir l = true) : l ≠ [] := by
  rintro rfl
  cases dir <;> cases h

/-- It has no name below anything either. -/
theorem HasNameBelow.ne_nil {dir : Location} (h : t.HasNameBelow dir l) : l ≠ [] := by
  rintro rfl
  obtain ⟨l', hbelow, hsame⟩ := h
  exact ne_nil_of_below hbelow (eq_nil_of_sameEntry_nil hsame)

/-- A directory has no name below itself. -/
theorem not_hasNameBelow_self {dir : Location} (h : t.content? dir = some .directory) :
    ¬ t.HasNameBelow dir dir := by
  intro hname
  have hbelow := hname.below (number?_of_directory h)
  rw [below_self] at hbelow
  cases hbelow

/-- The locations of the entries below a directory are below it, and there is something at them. -/
theorem mem_locationsBelow {dir : Location} :
    l ∈ t.locationsBelow dir ↔ (∃ e ∈ t.entries, e.1 = l) ∧ below dir l = true := by
  rw [locationsBelow, List.mem_filter, List.mem_map]

/-- Something there has a name that one of these locations is iff it has a name below the
directory. -/
theorem any_locationsBelow_iff {dir : Location} (hl : t.node? l ≠ none) :
    ((t.locationsBelow dir).any fun loc => t.sameEntry loc l) = true ↔ t.HasNameBelow dir l := by
  rw [List.any_eq_true]
  constructor
  · rintro ⟨loc, hloc, hsame⟩
    exact ⟨loc, (mem_locationsBelow.mp hloc).2, hsame⟩
  · rintro ⟨loc, hbelow, hsame⟩
    refine ⟨loc, mem_locationsBelow.mpr ⟨?_, hbelow⟩, hsame⟩
    -- Where another name of something is, there is something.
    refine exists_entry (ne_nil_of_below hbelow) ?_
    rcases sameEntry_iff.mp hsame with rfl | ⟨i, hi, -⟩
    · exact hl
    · rintro hnone
      rw [number?, hnone] at hi
      cases hi

/-! ## Giving entries away -/

/-- Without the right to give anything away the process can give what belongs to its user, to the
same user, and to the same group or one that it is in. -/
theorem mayChange_iff : authority.mayChange old owner = true ↔ authority.mayGive = true ∨
    old.user = authority.process.user ∧ owner.user = old.user ∧
      (owner.group = old.group ∨ owner.group = authority.process.group ∨
        owner.group ∈ authority.groups) := by
  simp [Authority.mayChange, Authority.isIn, and_assoc]

/-- Nothing is in the way of giving what is at a path to `owner`. -/
structure Giveable (authority : Authority) (owner : Owner) (p : Path) (n : Node) : Prop where
  /-- The path is short enough. -/
  length : p.text.utf8ByteSize < pathLimit
  /-- The process may give anything away, or what is there is its user's and stays so, and it stays
  in its group or goes to one of the process. -/
  right : authority.mayGive = true ∨
    n.owner.user = authority.process.user ∧ owner.user = n.owner.user ∧
      (owner.group = n.owner.group ∨ owner.group = authority.process.group ∨
        owner.group ∈ authority.groups)

/-- An entry can be given iff it is there and nothing is in the way. Then nothing else changes. -/
theorem giveEntry_eq_ok_iff : giveEntry authority owner p t loc = .ok t' ↔
    (∃ n, t.node? loc = some n ∧ Giveable authority owner p n) ∧
      t' = t.owned owner (t.sameEntry loc) := by
  unfold giveEntry
  by_cases hlength : pathLimit ≤ p.text.utf8ByteSize
  · rw [if_pos hlength]
    exact ⟨nofun, fun ⟨⟨n, _, hgiveable⟩, _⟩ => absurd hgiveable.length (Nat.not_lt.mpr hlength)⟩
  · rw [if_neg hlength]
    cases t.node? loc with
    | none => exact ⟨nofun, fun ⟨⟨n, hn, _⟩, _⟩ => nomatch hn⟩
    | some n =>
      by_cases hmay : authority.mayChange n.owner owner = true
      · have hgiveable : Giveable authority owner p n :=
          ⟨Nat.not_le.mp hlength, mayChange_iff.mp hmay⟩
        dsimp only
        rw [if_pos hmay, Except.ok.injEq, eq_comm]
        exact ⟨fun h => ⟨⟨n, rfl, hgiveable⟩, h⟩, And.right⟩
      · dsimp only
        rw [if_neg hmay]
        refine ⟨nofun, fun ⟨⟨n', hn, hgiveable⟩, _⟩ => ?_⟩
        cases hn
        exact absurd (mayChange_iff.mpr hgiveable.right) hmay

/-- A run ends at an entry that is refused. -/
theorem giveEntries_cons_of_error {fault : Fault}
    (h : giveEntry authority owner (path loc) t loc = .error fault) (locs : List Location) :
    giveEntries authority owner path t (loc :: locs) = (.error fault, t) := by
  rw [giveEntries, h]

/-- From an entry that is given it goes on with the others. -/
theorem giveEntries_cons_of_ok (h : giveEntry authority owner (path loc) t loc = .ok t')
    (locs : List Location) :
    giveEntries authority owner path t (loc :: locs)
      = giveEntries authority owner path t' locs := by
  rw [giveEntries, h]

/-- The tree after the entries at some locations went to another owner, under all their names. -/
def ownedAt (t : Tree) (owner : Owner) (locs : List Location) : Tree :=
  t.owned owner fun l => locs.any fun loc => t.sameEntry loc l

/-- Without a location it is the same tree. -/
theorem ownedAt_nil (t : Tree) (owner : Owner) : t.ownedAt owner [] = t := by
  simp [ownedAt, owned]

/-- A first location can go before the others. -/
theorem ownedAt_cons (t : Tree) (owner : Owner) (loc : Location) (locs : List Location) :
    t.ownedAt owner (loc :: locs) = (t.owned owner (t.sameEntry loc)).ownedAt owner locs := by
  rw [ownedAt, ownedAt, owned_owned, sameEntry_owned]
  rfl

/-- A run gives the first ones of the entries away, all of them if it succeeds. -/
theorem exists_given (authority : Authority) (owner : Owner) (path : Location → Path) (t : Tree)
    (locs : List Location) :
    ∃ given rest, locs = given ++ rest ∧
      (giveEntries authority owner path t locs).2 = t.ownedAt owner given ∧
      ((giveEntries authority owner path t locs).1 = .ok () → rest = []) := by
  induction locs generalizing t with
  | nil => exact ⟨[], [], rfl, (ownedAt_nil t owner).symm, fun _ => rfl⟩
  | cons loc locs ih =>
    cases hgive : giveEntry authority owner (path loc) t loc with
    | error fault =>
      rw [giveEntries_cons_of_error hgive]
      exact ⟨[], loc :: locs, rfl, (ownedAt_nil t owner).symm, nofun⟩
    | ok t' =>
      rw [giveEntries_cons_of_ok hgive]
      obtain ⟨given, rest, hsplit, hrun, hdone⟩ := ih t'
      obtain ⟨-, rfl⟩ := giveEntry_eq_ok_iff.mp hgive
      refine ⟨loc :: given, rest, by rw [hsplit, List.cons_append], ?_, hdone⟩
      rw [hrun, ownedAt_cons]

/-! ## Changing owners -/

/-- A change of owners that looks anything up gives away the first ones of the entries below where
its path leads, all of them if it succeeds. -/
theorem exists_given_of_changeOwnership (t : Tree) (authority : Authority) (p : Path)
    (user group : String) :
    let run := t.changeOwnership authority p user group
    (run.2 = t ∧ run.1 ≠ .ok ()) ∨
      ∃ owner dir given rest, authority.accounts.owner user group = .ok owner ∧
        t.resolve true p = .ok dir ∧ t.locationsBelow dir = given ++ rest ∧
        run.2 = t.ownedAt owner given ∧ (run.1 = .ok () → rest = []) := by
  intro run
  have hrun : run = t.changeOwnership authority p user group := rfl
  unfold changeOwnership at hrun
  cases howner : authority.accounts.owner user group with
  | error fault =>
    rw [howner] at hrun
    exact .inl (by rw [hrun]; exact ⟨rfl, nofun⟩)
  | ok owner =>
    rw [howner] at hrun
    dsimp only [giveBelow] at hrun
    cases hdir : t.resolve true p with
    | error fault =>
      rw [hdir] at hrun
      exact .inl (by rw [hrun]; exact ⟨rfl, nofun⟩)
    | ok dir =>
      rw [hdir] at hrun
      obtain ⟨given, rest, hsplit, htree, hdone⟩ :=
        exists_given authority owner (pathBelow p dir) t (t.locationsBelow dir)
      exact .inr ⟨owner, dir, given, rest, rfl, rfl, hsplit, by rw [hrun]; exact htree,
        by rw [hrun]; exact hdone⟩

/-- A tree is another one after entries were given away along a path: every entry is there as before
but for its owner, and that is the same too unless the entry has a name below where the path
leads. -/
def GivenAlong (t : Tree) (p : Path) (t' : Tree) : Prop :=
  ∀ l, t'.content? l = t.content? l ∧
    (t'.node? l = t.node? l ∨ ∃ loc, t.LeadsTo true p loc ∧ t.HasNameBelow loc l)

/-- Giving away what a path leads to changes nothing but owners of what has a name below there. -/
theorem givenAlong_changeOwnership (t : Tree) (authority : Authority) (p : Path)
    (user group : String) :
    t.GivenAlong p (t.changeOwnership authority p user group).2 := by
  intro l
  rcases exists_given_of_changeOwnership t authority p user group with
    ⟨hsame, -⟩ | ⟨owner, dir, given, rest, -, hdir, hsplit, hrun, -⟩
  · rw [hsame]
    exact ⟨rfl, .inl rfl⟩
  · rw [hrun]
    refine ⟨content?_owned t owner _ l, ?_⟩
    cases hchosen : given.any fun loc => t.sameEntry loc l with
    | false => exact .inl (node?_owned_of_not_chosen hchosen)
    | true =>
      obtain ⟨loc, hloc, hsame⟩ := List.any_eq_true.mp hchosen
      have hmem : loc ∈ t.locationsBelow dir := hsplit ▸ List.mem_append_left rest hloc
      exact .inr ⟨dir, leadsTo_of_resolve hdir, loc, (mem_locationsBelow.mp hmem).2, hsame⟩

/-- A change of owners that succeeds found the names of the user and the group and the directory,
and gave away all that has a name below where the directory leads, and nothing else. -/
theorem exists_of_changeOwnership (h : (t.changeOwnership authority p user group).1 = .ok ()) :
    ∃ owner dir, authority.accounts.owner user group = .ok owner ∧ t.resolve true p = .ok dir ∧
      let t' := (t.changeOwnership authority p user group).2
      (∀ l, t.HasNameBelow dir l → t'.node? l = (t.node? l).map ({ · with owner })) ∧
      ∀ l, ¬ t.HasNameBelow dir l → t'.node? l = t.node? l := by
  rcases exists_given_of_changeOwnership t authority p user group with
    ⟨-, herror⟩ | ⟨owner, dir, given, rest, howner, hdir, hsplit, hrun, hdone⟩
  · exact absurd h herror
  · rw [hdone h, List.append_nil] at hsplit
    subst hsplit
    refine ⟨owner, dir, howner, hdir, fun l hname => ?_, fun l hname => ?_⟩
    · rw [hrun, ownedAt, node?_owned t owner _ hname.ne_nil]
      refine Option.map_congr fun n hn => if_pos ?_
      exact (any_locationsBelow_iff (by rw [hn]; exact Option.some_ne_none n)).mpr hname
    · rw [hrun]
      by_cases hnode : t.node? l = none
      · by_cases hl : l = []
        · rw [hl]
          rfl
        · rw [ownedAt, node?_owned t owner _ hl, hnode]
          rfl
      · refine node?_owned_of_not_chosen (Bool.eq_false_iff.mpr fun hany => hname ?_)
        exact (any_locationsBelow_iff hnode).mp hany

/-- What is at or below an entry of a directory is below the directory. -/
theorem below_of_atOrBelow_entry {dir l : Location} {name : String}
    (h : atOrBelow (dir ++ [name]) l = true) : below dir l = true := by
  unfold below atOrBelow at *
  rw [List.isPrefixOf_iff_prefix] at h
  rw [Bool.and_eq_true, List.isPrefixOf_iff_prefix, decide_eq_true_eq]
  refine ⟨(List.prefix_append dir [name]).trans h, ?_⟩
  rintro rfl
  have hlength := h.length_le
  rw [List.length_append, List.length_singleton] at hlength
  omega

/-! ## Names of one file -/

/-- All names of a file show the same entry. -/
def NamesAgree (t : Tree) : Prop :=
  ∀ l l', t.sameEntry l l' = true → t.node? l = t.node? l'

/-- They do so after other owners were chosen, if with one name all are chosen. -/
theorem NamesAgree.owned (h : t.NamesAgree)
    (hchosen : ∀ l l', t.sameEntry l l' = true → chosen l = chosen l') :
    (t.owned owner chosen).NamesAgree := by
  intro l l' hsame
  rw [sameEntry_owned] at hsame
  by_cases hl' : l' = []
  · subst hl'
    rw [eq_nil_of_sameEntry_nil hsame]
  · have hl : l ≠ [] := by
      rintro rfl
      rcases sameEntry_iff.mp hsame with heq | ⟨i, hi, -⟩
      · exact hl' heq.symm
      · cases hi
    rw [node?_owned t owner chosen hl, node?_owned t owner chosen hl', h l l' hsame,
      hchosen l l' hsame]

/-- A change of owners, even one that is refused on the way, gives a file away under all its names
or under none. -/
theorem NamesAgree.changeOwnership (h : t.NamesAgree) (authority : Authority) (p : Path)
    (user group : String) : (t.changeOwnership authority p user group).2.NamesAgree := by
  rcases exists_given_of_changeOwnership t authority p user group with
    ⟨hsame, -⟩ | ⟨owner, dir, given, rest, -, -, -, hrun, -⟩
  · rw [hsame]
    exact h
  · rw [hrun]
    refine h.owned fun l l' hsame => ?_
    simp only [sameEntry_congr hsame]

end TableSnapshots.Tree
