import Mathlib.Data.List.Infix
import TableSnapshots.Proofs.Tree.Footprint
import TableSnapshots.Proofs.Tree.Ownership

/-!
# What is given away

Everything below a directory is given to a user and a group, and nothing else changes but what is
another name of a file there (`changeOwnership_gives_everything_below`). Where a path goes is told
by its steps alone as long as it comes to directories only (`advance_of_open`), so this needs no
word of how a path is followed. Nothing lies below a file, and what is not there cannot be given
away, nor can it be if one of the two names is unknown. Otherwise the change succeeds iff nothing is
in the way of giving each entry away (`changeOwnership_eq_ok_iff`). What could be given to an owner
can be given to the same one again, so after a change the same change leaves everything as it is
(`changeOwnership_changeOwnership`).
-/

namespace TableSnapshots

/-- Where steps go from a directory, whatever is on the way. -/
def Step.place : Location → List Step → Location
  | dir, [] => dir
  | dir, .here :: rest => place dir rest
  | dir, .up :: rest => place dir.dropLast rest
  | dir, .name s :: rest => place (dir ++ [s]) rest

namespace Tree

variable {t : Tree}

/-! ## Following a path through directories -/

/-- Steps come to directories only, from the one where they start to the one where they end. -/
def Open (t : Tree) (dir : Location) (steps : List Step) : Prop :=
  ∀ q, q <+: steps → t.content? (Step.place dir q) = some .directory

instance (t : Tree) (dir : Location) (steps : List Step) : Decidable (t.Open dir steps) :=
  decidable_of_iff (∀ q ∈ steps.inits, t.content? (Step.place dir q) = some .directory)
    (forall_congr' fun q => by rw [List.mem_inits])

/-- No name of an entry is longer than a directory can hold. -/
def Short (t : Tree) : Prop :=
  ∀ e ∈ t.entries, ∀ s ∈ e.1, s.utf8ByteSize ≤ nameLimit

instance (t : Tree) : Decidable t.Short :=
  inferInstanceAs (Decidable (∀ e ∈ t.entries, ∀ s ∈ e.1, s.utf8ByteSize ≤ nameLimit))

/-- So a name with something behind it is not. -/
theorem Short.name (ht : t.Short) {dir : Location} {s : String} {content : Content}
    (h : t.content? (dir ++ [s]) = some content) : s.utf8ByteSize ≤ nameLimit := by
  have hnode : t.node? (dir ++ [s]) ≠ none := by
    intro hnone
    rw [content?, hnone] at h
    cases h
  obtain ⟨e, he, hloc⟩ := exists_entry (by simp) hnode
  exact ht e he s (by simp [hloc])

/-- Steps through directories go where they go in any case, and others go on from there. -/
theorem advance_of_open (ht : t.Short) (followLast : Bool) {dir : Location} {xs : List Step}
    (h : t.Open dir xs) (ys : List Step) :
    t.advance followLast dir (xs ++ ys) = t.advance followLast (Step.place dir xs) ys := by
  induction xs generalizing dir with
  | nil => rfl
  | cons step xs ih =>
    cases step with
    | here => exact ih fun q hq => h (.here :: q) (List.cons_prefix_cons.mpr ⟨rfl, hq⟩)
    | up => exact ih fun q hq => h (.up :: q) (List.cons_prefix_cons.mpr ⟨rfl, hq⟩)
    | name s =>
      have hdirectory : t.content? (dir ++ [s]) = some .directory :=
        h [.name s] (List.cons_prefix_cons.mpr ⟨rfl, List.nil_prefix⟩)
      have hshort : s.utf8ByteSize ≤ nameLimit := ht.name hdirectory
      rw [List.cons_append, advance_name, if_neg (Nat.not_lt.mpr hshort), hdirectory]
      exact ih fun q hq => h (.name s :: q) (List.cons_prefix_cons.mpr ⟨rfl, hq⟩)

section Path

variable {p : Path} (htext : checkText p.text = .ok ()) (ht : t.Short)
include htext ht

/-- A path through directories leads to the last one. -/
theorem resolve_of_open (h : t.Open [] (Step.ofText p.text)) :
    t.resolve true p = .ok (Step.place [] (Step.ofText p.text)) := by
  have hadvance := advance_of_open ht true h []
  rw [List.append_nil] at hadvance
  rw [resolve_eq_walk htext]
  exact walk_of_arrived hadvance

/-- A path to a file in the last directory leads there. -/
theorem resolve_of_file {xs : List Step} {s : String} {bytes : ByteArray}
    (hsteps : Step.ofText p.text = xs ++ [.name s]) (h : t.Open [] xs)
    (hfile : t.content? (Step.place [] xs ++ [s]) = some (.file bytes)) :
    t.resolve true p = .ok (Step.place [] xs ++ [s]) := by
  have hshort : s.utf8ByteSize ≤ nameLimit := ht.name hfile
  have hadvance := advance_of_open ht true h [.name s]
  rw [advance_name, if_neg (Nat.not_lt.mpr hshort), hfile] at hadvance
  rw [resolve_eq_walk htext, hsteps]
  exact walk_of_arrived hadvance

/-- A path to what the last directory lacks leads nowhere. -/
theorem resolve_of_absent {xs ys : List Step} {s : String}
    (hsteps : Step.ofText p.text = xs ++ .name s :: ys) (h : t.Open [] xs)
    (hnone : t.content? (Step.place [] xs ++ [s]) = none) (hshort : s.utf8ByteSize ≤ nameLimit) :
    t.resolve true p = .error .missing := by
  have hadvance := advance_of_open ht true h (.name s :: ys)
  rw [advance_name, if_neg (Nat.not_lt.mpr hshort), hnone] at hadvance
  rw [resolve_eq_walk htext, hsteps]
  exact walk_of_error hadvance

end Path

/-! ## Giving all of some entries -/

section Entries

variable {authority : Authority} {owner : Owner} {p : Path} {t' : Tree}
  {path : Location → Path} {loc : Location} {locs : List Location} {chosen : Location → Bool}

/-- What could be given to an owner can be given to the same one again. -/
theorem Giveable.again {n : Node} (h : Giveable authority owner p n) :
    Giveable authority owner p { n with owner } := by
  refine ⟨h.length, h.right.imp_right ?_⟩
  rintro ⟨hold, hnew, -⟩
  exact ⟨hnew.trans hold, rfl, .inl rfl⟩

/-- An entry that can be given can be given as well after some went to the same owner. -/
theorem exists_giveable_owned (hloc : loc ≠ [])
    (h : ∃ n, t.node? loc = some n ∧ Giveable authority owner p n) :
    ∃ n, (t.owned owner chosen).node? loc = some n ∧ Giveable authority owner p n := by
  obtain ⟨n, hn, hgiveable⟩ := h
  rw [node?_owned t owner chosen hloc, hn]
  refine ⟨_, rfl, ?_⟩
  dsimp only
  split
  · exact hgiveable.again
  · exact hgiveable

/-- If all can be given, they are. -/
theorem giveEntries_of_giveable (hlocs : [] ∉ locs)
    (h : ∀ loc ∈ locs, ∃ n, t.node? loc = some n ∧ Giveable authority owner (path loc) n) :
    (giveEntries authority owner path t locs).1 = .ok () := by
  induction locs generalizing t with
  | nil => rfl
  | cons loc locs ih =>
    rw [List.mem_cons, not_or] at hlocs
    rw [giveEntries_cons_of_ok (giveEntry_eq_ok_iff.mpr ⟨h loc List.mem_cons_self, rfl⟩)]
    refine ih hlocs.2 fun loc' hloc' => ?_
    have hne : loc' ≠ [] := fun hnil => hlocs.2 (hnil ▸ hloc')
    exact exists_giveable_owned hne (h loc' (List.mem_cons_of_mem loc hloc'))

/-- What a run that succeeds gave could be given from the start, if all names of a file show the
same entry. -/
theorem exists_giveable_of_giveEntries (ht : t.NamesAgree)
    (h : (giveEntries authority owner path t locs).1 = .ok ()) :
    ∀ loc ∈ locs, ∃ n, t.node? loc = some n ∧ Giveable authority owner (path loc) n := by
  induction locs generalizing t with
  | nil => nofun
  | cons loc locs ih =>
    cases hgive : giveEntry authority owner (path loc) t loc with
    | error fault =>
      rw [giveEntries_cons_of_error hgive] at h
      cases h
    | ok t' =>
      rw [giveEntries_cons_of_ok hgive] at h
      obtain ⟨⟨n, hn, hgiveable⟩, rfl⟩ := giveEntry_eq_ok_iff.mp hgive
      have hrest := ih (ht.owned fun l l' hsame => sameEntry_congr hsame loc) h
      refine List.forall_mem_cons.mpr ⟨⟨n, hn, hgiveable⟩, fun l hl => ?_⟩
      obtain ⟨n', hn', hgiveable'⟩ := hrest l hl
      -- By then only the other names of the first entry show another owner.
      cases hsame : t.sameEntry loc l with
      | false =>
        rw [node?_owned_of_not_chosen hsame] at hn'
        exact ⟨n', hn', hgiveable'⟩
      | true => exact ⟨n, (ht loc l hsame) ▸ hn, hgiveable'.length, hgiveable.right⟩

/-- To give an entry again, after it and others went to the same owner, changes nothing. -/
theorem giveEntry_owned (hloc : loc ≠ []) (h : giveEntry authority owner p t loc = .ok t')
    (chosen : Location → Bool) :
    giveEntry authority owner p (t'.owned owner chosen) loc = .ok (t'.owned owner chosen) := by
  obtain ⟨hgiveable, rfl⟩ := giveEntry_eq_ok_iff.mp h
  refine giveEntry_eq_ok_iff.mpr
    ⟨exists_giveable_owned hloc (exists_giveable_owned hloc hgiveable), ?_⟩
  rw [sameEntry_owned, sameEntry_owned, owned_owned, owned_owned]
  refine congrArg (t.owned owner) (funext fun l => ?_)
  cases t.sameEntry loc l <;> cases chosen l <;> rfl

/-- What was given can be given to the same owner again, and what was refused is refused again. -/
theorem giveEntries_giveEntries (hlocs : [] ∉ locs) :
    giveEntries authority owner path (giveEntries authority owner path t locs).2 locs
      = giveEntries authority owner path t locs := by
  induction locs generalizing t with
  | nil => rfl
  | cons loc locs ih =>
    rw [List.mem_cons, not_or] at hlocs
    cases hgive : giveEntry authority owner (path loc) t loc with
    | error fault =>
      -- The tree is as it was, so the same entry is refused.
      rw [giveEntries_cons_of_error hgive, giveEntries_cons_of_error hgive]
    | ok t' =>
      obtain ⟨given, rest, -, hrun, -⟩ := exists_given authority owner path t' locs
      have hagain := giveEntry_owned (Ne.symm hlocs.1) hgive fun l =>
        given.any fun loc => t'.sameEntry loc l
      rw [← ownedAt, ← hrun] at hagain
      rw [giveEntries_cons_of_ok hgive, giveEntries_cons_of_ok hagain]
      exact ih hlocs.2

end Entries

/-! ## Changing owners -/

variable {authority : Authority} {user group : String}

/-- The top is not among the locations below a directory. -/
theorem nil_not_mem_locationsBelow (t : Tree) (dir : Location) : [] ∉ t.locationsBelow dir :=
  fun hmem => ne_nil_of_below (mem_locationsBelow.mp hmem).2 rfl

/-- There is something at each of them, and it is what there is below the directory. -/
theorem forall_locationsBelow_iff {dir : Location} {good : Location → Node → Prop} :
    (∀ loc ∈ t.locationsBelow dir, ∃ n, t.node? loc = some n ∧ good loc n) ↔
      ∀ l n, below dir l = true → t.node? l = some n → good l n := by
  constructor
  · intro h l n hbelow hn
    have hentry : (l, n) ∈ t.entries := mem_of_node? (ne_nil_of_below hbelow) hn
    obtain ⟨n', hn', hgood⟩ := h l (mem_locationsBelow.mpr ⟨⟨_, hentry, rfl⟩, hbelow⟩)
    obtain rfl : n = n' := Option.some.inj (hn.symm.trans hn')
    exact hgood
  · intro h loc hloc
    obtain ⟨⟨e, he, rfl⟩, hbelow⟩ := mem_locationsBelow.mp hloc
    obtain ⟨n, hn⟩ := Option.ne_none_iff_exists'.mp (node?_ne_none_of_mem he)
    exact ⟨n, hn, h e.1 n hbelow hn⟩

/-- The locations below a directory are the same under other owners. -/
theorem locationsBelow_owned (t : Tree) (owner : Owner) (chosen : Location → Bool)
    (dir : Location) : (t.owned owner chosen).locationsBelow dir = t.locationsBelow dir := by
  unfold locationsBelow owned
  rw [List.map_map]
  rfl

/-- After a change the same change gives the same answer and leaves everything as it is. -/
theorem changeOwnership_changeOwnership (t : Tree) (authority : Authority) (p : Path)
    (user group : String) :
    (t.changeOwnership authority p user group).2.changeOwnership authority p user group
      = t.changeOwnership authority p user group := by
  have hcontent := fun l => (givenAlong_changeOwnership t authority p user group l).1
  have hresolve : (t.changeOwnership authority p user group).2.resolve true p
      = t.resolve true p := resolve_congr fun l _ => hcontent l
  -- The path leads to the same place again, and there the same entries are given again.
  revert hresolve
  unfold changeOwnership
  cases authority.accounts.owner user group with
  | error fault => exact fun _ => rfl
  | ok owner =>
    dsimp only
    unfold giveBelow
    cases hdir : t.resolve true p with
    | error fault =>
      intro _
      dsimp only
      rw [hdir]
    | ok dir =>
      intro hresolve
      dsimp only at hresolve ⊢
      obtain ⟨given, rest, -, hrun, -⟩ :=
        exists_given authority owner (pathBelow p dir) t (t.locationsBelow dir)
      rw [hresolve]
      dsimp only
      conv_lhs => rw [hrun, ownedAt, locationsBelow_owned, ← ownedAt, ← hrun]
      exact giveEntries_giveEntries (nil_not_mem_locationsBelow t dir)

/-- Two known names are an owner. -/
theorem owner_of_find? {a : Accounts} {u g : Nat} (hu : Accounts.find? a.users user = some u)
    (hg : Accounts.find? a.groups group = some g) : a.owner user group = .ok ⟨u, g⟩ := by
  unfold Accounts.owner
  rw [hu, hg]

/-- If the names of the user and the group and the directory are found, a change of owners succeeds
iff nothing is in the way of giving away what is below the directory. All names of a file are taken
to show the same entry. -/
theorem changeOwnership_eq_ok_iff {p : Path} {owner : Owner} {dir : Location} (ht : t.NamesAgree)
    (howner : authority.accounts.owner user group = .ok owner) (hdir : t.resolve true p = .ok dir) :
    (t.changeOwnership authority p user group).1 = .ok () ↔
      ∀ l n, below dir l = true → t.node? l = some n →
        Giveable authority owner (pathBelow p dir l) n := by
  have hrun : t.changeOwnership authority p user group
      = giveEntries authority owner (pathBelow p dir) t (t.locationsBelow dir) := by
    unfold changeOwnership
    rw [howner]
    dsimp only [giveBelow]
    rw [hdir]
  rw [hrun, ← forall_locationsBelow_iff]
  exact ⟨exists_giveable_of_giveEntries ht,
    giveEntries_of_giveable (nil_not_mem_locationsBelow t dir)⟩

/-- A process that may not give anything away is refused an entry of another user, even if that user
and the group are to keep it. -/
example : (changeOwnership ⟨[(["d"], { content := .directory }),
      (["d", "f"], { content := .file .empty, owner := ⟨7, 8⟩ })]⟩
    { accounts := ⟨[("u", 7)], [("g", 8)]⟩, mayGive := false, process := ⟨5, 8⟩ } ⟨"/d"⟩ "u" "g").1
      = .error .notPermitted := by
  rfl

/-- Nothing lies below a file. -/
theorem Nested.not_below_file (ht : t.Nested) {loc : Location} {bytes : ByteArray}
    (hfile : t.content? loc = some (.file bytes)) {e : Location × Node} (he : e ∈ t.entries) :
    below loc e.1 = false := by
  rw [Bool.eq_false_iff]
  intro hbelow
  unfold below atOrBelow at hbelow
  rw [Bool.and_eq_true, List.isPrefixOf_iff_prefix, decide_eq_true_eq] at hbelow
  obtain ⟨⟨rest, hrest⟩, hne⟩ := hbelow
  have hrestNe : rest ≠ [] := by
    rintro rfl
    exact hne (by rw [← hrest, List.append_nil])
  have hnode : t.node? (loc ++ rest) ≠ none := by
    rw [hrest]
    exact node?_ne_none_of_mem he
  have hdirectory := ht.directory hrestNe hnode
  rw [hfile] at hdirectory
  cases hdirectory

/-- If a name is unknown, the user's or otherwise the group's, the answer says so and nothing
changes. Otherwise, if a path and all that it goes through are directories, and nothing is in the
way of giving away what is below it, everything that has a name there, at any depth, has the new
owner and is what it was but for that; everything else is as before, with the directory itself. What
has a name there is what lies there, and the files elsewhere of which another name lies there. A
path to a file changes nothing, and one to what a directory lacks fails because nothing is there,
and changes nothing. In any case the same change once more gives the same answer and leaves
everything as it is. -/
theorem changeOwnership_gives_everything_below (t : Tree) (ht : t.Nested) (hshort : t.Short)
    (authority : Authority) (p : Path) (user group : String) :
    (Accounts.find? authority.accounts.users user = none →
      t.changeOwnership authority p user group
        = (.error (.described .notFound ("no such user: " ++ user)), t)) ∧
    (∀ u, Accounts.find? authority.accounts.users user = some u →
      Accounts.find? authority.accounts.groups group = none →
      t.changeOwnership authority p user group
        = (.error (.described .notFound ("no such group: " ++ group)), t)) ∧
    (∀ u g, Accounts.find? authority.accounts.users user = some u →
      Accounts.find? authority.accounts.groups group = some g → checkText p.text = .ok () →
      (∀ dir, Step.place [] (Step.ofText p.text) = dir → t.Open [] (Step.ofText p.text) →
        (∀ e ∈ t.entries, below dir e.1 = true →
          Giveable authority ⟨u, g⟩ (pathBelow p dir e.1) e.2) →
        ∃ t', t.changeOwnership authority p user group = (.ok (), t') ∧
          (∀ l, t.HasNameBelow dir l →
            t'.node? l = (t.node? l).map ({ · with owner := ⟨u, g⟩ })) ∧
          (∀ l, ¬ t.HasNameBelow dir l → t'.node? l = t.node? l) ∧
          t'.node? dir = t.node? dir) ∧
      (∀ before s bytes, Step.ofText p.text = before ++ [.name s] → t.Open [] before →
        t.content? (Step.place [] before ++ [s]) = some (.file bytes) →
        t.changeOwnership authority p user group = (.ok (), t)) ∧
      (∀ before s after, Step.ofText p.text = before ++ .name s :: after → t.Open [] before →
        t.content? (Step.place [] before ++ [s]) = none → s.utf8ByteSize ≤ nameLimit →
        t.changeOwnership authority p user group = (.error (walkFault p .missing), t) ∧
          (walkFault p .missing).kind = .notFound)) ∧
    (t.changeOwnership authority p user group).2.changeOwnership authority p user group
      = t.changeOwnership authority p user group := by
  refine ⟨fun hu => ?_, fun u hu hg => ?_, fun u g hu hg htext => ?_,
    changeOwnership_changeOwnership t authority p user group⟩
  · unfold changeOwnership Accounts.owner
    rw [hu]
  · unfold changeOwnership Accounts.owner
    rw [hu, hg]
  have hgive : t.changeOwnership authority p user group = t.giveBelow authority ⟨u, g⟩ p := by
    unfold changeOwnership
    rw [owner_of_find? hu hg]
  refine ⟨fun dir hplace hopen hgiveable => ?_, fun before s bytes hsteps hopen hfile => ?_,
    fun before s after hsteps hopen hnone hname => ⟨?_, rfl⟩⟩
  · -- The path leads to the directory, so the entries that are given are those below it.
    have hresolve := resolve_of_open htext hshort hopen
    rw [hplace] at hresolve
    have hdone : (t.changeOwnership authority p user group).1 = .ok () := by
      rw [hgive, giveBelow, hresolve]
      refine giveEntries_of_giveable (nil_not_mem_locationsBelow t dir)
        (forall_locationsBelow_iff.mpr fun l n hbelow hn => ?_)
      exact hgiveable (l, n) (mem_of_node? (ne_nil_of_below hbelow) hn) hbelow
    obtain ⟨owner, dir', howner, hdir, hgiven, hother⟩ := exists_of_changeOwnership hdone
    rw [owner_of_find? hu hg] at howner
    rw [hresolve] at hdir
    cases howner
    cases hdir
    have hself : t.content? dir = some .directory := hplace ▸ hopen _ List.prefix_rfl
    exact ⟨_, Prod.ext hdone rfl, hgiven, hother, hother dir (not_hasNameBelow_self hself)⟩
  · -- Nothing lies below a file, so nothing is given.
    have hnone : t.locationsBelow (Step.place [] before ++ [s]) = [] := by
      refine List.eq_nil_iff_forall_not_mem.mpr fun l hl => ?_
      obtain ⟨⟨e, he, rfl⟩, hbelow⟩ := mem_locationsBelow.mp hl
      rw [ht.not_below_file hfile he] at hbelow
      cases hbelow
    rw [hgive, giveBelow, resolve_of_file htext hshort hsteps hopen hfile]
    dsimp only
    rw [hnone, giveEntries]
  · rw [hgive, giveBelow, resolve_of_absent htext hshort hsteps hopen hnone hname]

/-- A process that knows one user and one group, and may give entries away. -/
def oneUser : Authority := { accounts := ⟨[("u", 7)], [("g", 8)]⟩, mayGive := true }

/-- A directory with a file below it that has another name outside of it, and with a link to a file
next to it. -/
def linkedFile : Tree :=
  ⟨[(["d"], { content := .directory }), (["d", "sub"], { content := .directory }),
    (["d", "sub", "f"], { content := .file .empty, inode := some 1 }),
    (["d", "l"], { content := .link "../f" }), (["f"], { content := .file .empty }),
    (["h"], { content := .file .empty, inode := some 1 })]⟩

/-- The file and the link below the directory are given away, the file under its other name as well,
and what the link leads to is not. -/
theorem changeOwnership_gives_everything_below_linked :
    ∃ t', linkedFile.changeOwnership oneUser ⟨"/d"⟩ "u" "g" = (.ok (), t') ∧
      t'.node? ["d", "sub", "f"] = some ⟨.file .empty, ⟨7, 8⟩, some 1⟩ ∧
      t'.node? ["h"] = some ⟨.file .empty, ⟨7, 8⟩, some 1⟩ ∧
      t'.node? ["d", "l"] = some ⟨.link "../f", ⟨7, 8⟩, none⟩ ∧
      t'.node? ["d"] = some ⟨.directory, ⟨0, 0⟩, none⟩ ∧
      t'.node? ["f"] = some ⟨.file .empty, ⟨0, 0⟩, none⟩ := by
  obtain ⟨-, -, hknown, -⟩ := changeOwnership_gives_everything_below linkedFile (by decide +kernel)
    (by decide +kernel) oneUser ⟨"/d"⟩ "u" "g"
  obtain ⟨hdirectory, -⟩ := hknown 7 8 (by decide +kernel) (by decide +kernel) (by rfl)
  have hplace : Step.place [] (Step.ofText "/d") = ["d"] := by decide +kernel
  obtain ⟨t', hrun, hgiven, hother, hself⟩ := hdirectory ["d"] hplace (by decide +kernel)
    fun e he _ => ⟨by revert e; decide +kernel, .inl rfl⟩
  have hsub : linkedFile.HasNameBelow ["d"] ["d", "sub", "f"] := hasNameBelow_of_below (by rfl)
  have hhard : linkedFile.HasNameBelow ["d"] ["h"] := ⟨["d", "sub", "f"], by rfl, by decide +kernel⟩
  have hlink : linkedFile.HasNameBelow ["d"] ["d", "l"] := hasNameBelow_of_below (by rfl)
  -- The target of the link has no other name, and does not lie below.
  have htarget : ¬ linkedFile.HasNameBelow ["d"] ["f"] := fun h => by cases h.below (by rfl)
  exact ⟨t', hrun, (hgiven _ hsub).trans rfl, (hgiven _ hhard).trans rfl,
    (hgiven _ hlink).trans rfl, hself.trans rfl, (hother _ htarget).trans rfl⟩

/-- A name that is too long for a directory but not for a path is looked up in vain. -/
theorem resolve_of_long {s : String} (hs : Path.IsName s) (hzero : '\x00' ∉ s.toList)
    (hlong : nameLimit < s.utf8ByteSize) (hshort : s.utf8ByteSize < pathLimit) :
    t.resolve true ⟨s⟩ = .error .nameTooLong := by
  have htext : checkText (Path.mk s).text = .ok () := by
    unfold checkText
    rw [if_neg (by simpa using hzero), if_neg hs.ne_empty, if_neg (Nat.not_le.mpr hshort)]
  rw [resolve_eq_walk htext, Step.ofText_of_isName hs]
  refine walk_of_error ?_
  rw [advance_name, if_pos hlong]

/-- One of 256 letters is such a name. -/
theorem exists_long_name :
    ∃ s : String, Path.IsName s ∧ '\x00' ∉ s.toList ∧ nameLimit < s.utf8ByteSize ∧
      s.utf8ByteSize < pathLimit := by
  have hletters : (String.ofList (List.replicate 256 'a')).toList = List.replicate 256 'a' :=
    String.toList_ofList
  have hother : ∀ c ≠ 'a', c ∉ (String.ofList (List.replicate 256 'a')).toList := by
    intro c hc hmem
    rw [hletters] at hmem
    exact hc (List.eq_of_mem_replicate hmem)
  refine ⟨_, ⟨hother '/' (by decide), ?_, ?_⟩, hother '\x00' (by decide), by decide +kernel,
    by decide +kernel⟩
  · rw [hletters]
    rfl
  · intro hup
    exact hother '.' (by decide) (hup ▸ List.mem_cons_self)

/-- What a directory lacks does not always fail because nothing is there: a name that is too long
for it is looked up in vain, and that is the fault. Nor is everything below a directory always given
away: the process may not be allowed to. Nor is what lies outside always as before: it may be
another name of a file below. -/
theorem not_given_or_missing :
    (¬ ∀ (t : Tree) (authority : Authority) (p : Path) (user group : String) (owner : Owner)
        (before : List Step) (s : String) (after : List Step), t.WellFormed →
      authority.accounts.owner user group = .ok owner →
        Step.ofText p.text = before ++ .name s :: after → t.Open [] before →
        t.content? (Step.place [] before ++ [s]) = none →
        ∃ fault, t.changeOwnership authority p user group = (.error fault, t) ∧
          fault.kind = .notFound) ∧
    (¬ ∀ (t : Tree) (authority : Authority) (p : Path) (user group : String) (owner : Owner),
      t.WellFormed → authority.accounts.owner user group = .ok owner →
        t.Open [] (Step.ofText p.text) →
        (t.changeOwnership authority p user group).1 = .ok ()) ∧
    ¬ ∀ (t : Tree) (authority : Authority) (p : Path) (user group : String) (l : Location),
      t.WellFormed → t.Open [] (Step.ofText p.text) →
        (t.changeOwnership authority p user group).1 = .ok () →
        atOrBelow (Step.place [] (Step.ofText p.text)) l = false →
        (t.changeOwnership authority p user group).2.node? l = t.node? l := by
  refine ⟨?_, ?_, ?_⟩
  · intro hall
    -- In the empty tree nothing has the long name.
    obtain ⟨s, hs, hzero, hlong, hshort⟩ := exists_long_name
    have howner : oneUser.accounts.owner "u" "g" = .ok ⟨7, 8⟩ := by rfl
    obtain ⟨fault, hfault, hkind⟩ := hall .empty oneUser ⟨s⟩ "u" "g" ⟨7, 8⟩ [] s []
      (by decide +kernel) howner (Step.ofText_of_isName hs) (by decide +kernel) (by rfl)
    unfold changeOwnership at hfault
    rw [howner] at hfault
    dsimp only [giveBelow] at hfault
    rw [resolve_of_long hs hzero hlong hshort] at hfault
    cases hfault
    cases hkind
  · -- The process may not give the entries away.
    intro hall
    have hdone := hall linkedFile { oneUser with mayGive := false } ⟨"/d"⟩ "u" "g" ⟨7, 8⟩
      (by decide +kernel) (by decide +kernel) (by decide +kernel)
    revert hdone
    decide +kernel
  · -- The file next to the directory is one below it.
    intro hall
    have hsame := hall linkedFile oneUser ⟨"/d"⟩ "u" "g" ["h"] (by decide +kernel)
      (by decide +kernel) (by decide +kernel) (by decide +kernel)
    have howner := congrArg (Option.map Node.owner) hsame
    revert howner
    decide +kernel

end Tree

end TableSnapshots
