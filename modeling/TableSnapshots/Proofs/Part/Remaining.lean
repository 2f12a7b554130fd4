import Mathlib.Data.List.Sort
import TableSnapshots.Proofs.Each
import TableSnapshots.Proofs.Part.Found
import TableSnapshots.Proofs.Path.Relative
import TableSnapshots.Proofs.Tree.Looks

/-!
# The parts that remain

What a directory lists after one of its parts was removed: the other parts, as they were and in the
same order (`parts_without`). A part whose manifest is read through the one that was removed is
missing its manifest then, and is not listed any more. Only a link can be read in that way
(`exists_link_of_mem_looks`).
-/

namespace TableSnapshots

/-! ## Sorted names -/

/-- Leaving out names before or after sorting is the same. -/
theorem mergeSort_filter (keep : String → Bool) (names : List String) :
    (names.filter keep).mergeSort (fun a b => decide (a ≤ b))
      = (names.mergeSort fun a b => decide (a ≤ b)).filter keep := by
  have hperm : ((names.filter keep).mergeSort fun a b => decide (a ≤ b)).Perm
      ((names.mergeSort fun a b => decide (a ≤ b)).filter keep) :=
    (List.mergeSort_perm _ _).trans ((List.mergeSort_perm _ _).filter keep).symm
  exact eq_of_perm_of_pairwise_le hperm (pairwise_mergeSort_le _)
    ((pairwise_mergeSort_le names).filter keep)

/-- The names in a listing without those of some name. -/
theorem FrozenPart.directoryNames_filter (keep : String → Bool) (entries : List DirectoryEntry) :
    directoryNames (entries.filter fun e => keep e.name) = (directoryNames entries).filter keep := by
  unfold directoryNames
  rw [← mergeSort_filter, List.filter_map, List.filter_filter, List.filter_filter]
  congr 3
  funext e
  exact Bool.and_comm _ _

namespace Tree

variable {t : Tree} {dir : Path} {database table name : String}

/-- What is there to tell of a part that was found. -/
theorem of_part_eq_ok {part : FrozenPart} (h : t.part dir database table name = .ok part) :
    part.name = name ∧ part.path = dir.entry name := by
  unfold Tree.part at h
  dsimp only at h
  cases hread : t.readFile ((dir.entry name).entry manifestName) with
  | error fault =>
    rw [hread] at h
    cases h
  | ok manifest =>
    rw [hread] at h
    cases hlist : t.listDirectory (dir.entry name) with
    | error fault =>
      rw [hlist] at h
      cases h
    | ok entries =>
      rw [hlist] at h
      cases h
      exact ⟨rfl, rfl⟩

/-- A fault that says so tells that something is missing. -/
theorem isMissing_error {α : Type} {fault : Fault} (h : fault.kind = .notFound) :
    isMissing (.error fault : Except Fault α) = true :=
  decide_eq_true h

/-- Nothing being there is one. -/
@[simp]
theorem isMissing_missing {α : Type} : isMissing (.error .missing : Except Fault α) = true := rfl

/-! ## Without a part -/

/-- What lies along the way to a directory is no link. -/
theorem Nested.unlinked (ht : t.Nested) {loc : Location}
    (h : t.content? loc = some .directory) : t.Unlinked true [] loc := by
  rintro q r rfl - - target hlink
  by_cases hr : r = []
  · rw [hr, List.append_nil] at h
    rw [List.nil_append, h] at hlink
    cases hlink
  · rw [List.nil_append, ht.directory hr (node?_ne_none h)] at hlink
    cases hlink

/-- The path of a directory does not look at an entry in it, nor at one of another directory
there. -/
theorem not_mem_looks_of_length {p : Path} (ht : t.Nested) (hup : .up ∉ p.components)
    (h : t.content? p.names = some .directory) {loc : Location}
    (hloc : loc.length = p.names.length → loc ≠ p.names) (hlength : p.names.length ≤ loc.length) :
    loc ∉ t.looks true p := by
  intro hmem
  have hle := prefix_of_mem_looks hup (ht.unlinked h) hmem
  have heq := Nat.le_antisymm hle.length_le hlength
  exact hloc heq (hle.eq_of_length heq)

/-- A manifest whose path looks at a location beside its part's is a link. -/
theorem exists_link_of_mem_looks {p : Path} (ht : t.Nested) (hp : p.text ≠ "")
    (hup : .up ∉ p.components) (h : t.content? p.names = some .directory) {loc : Location}
    (hlength : loc.length = p.names.length) (hne : loc ≠ p.names)
    (hmem : loc ∈ t.looks true (p.entry manifestName)) :
    ∃ target, t.content? (p.names ++ [manifestName]) = some (.link target) := by
  have hname : Path.IsName manifestName := by decide
  have hnames : (p.entry manifestName).names = p.names ++ [manifestName] :=
    Path.names_entry hname hp
  have hupEntry := Path.up_not_mem_entry hname hup
  by_contra hlink
  rw [not_exists] at hlink
  -- Without a link at its end the path goes along its names, past the part's directory alone.
  have hlinks : t.Unlinked true [] (p.entry manifestName).names := by
    rw [hnames]
    rintro q r hqr hq - target
    rcases List.eq_nil_or_concat r with rfl | ⟨r, s, rfl⟩
    · rw [List.append_nil] at hqr
      rw [List.nil_append, ← hqr]
      exact hlink target
    · rw [List.concat_eq_append, ← List.append_assoc] at hqr
      exact ht.unlinked h q r (List.append_inj_left' hqr rfl) hq (.inr rfl) target
  have hle := prefix_of_mem_looks hupEntry hlinks hmem
  rw [hnames] at hle
  rcases List.prefix_concat_iff.mp hle with heq | hin
  · have hlong := congrArg List.length heq
    rw [List.length_append, List.length_singleton] at hlong
    omega
  · exact hne (hin.eq_of_length hlength)

section Entry

variable (ht : t.Nested) (hdir : dir.text ≠ "") (hup : .up ∉ dir.components)
include ht hdir hup

/-- Another part of the directory is the same without one of them, but that its manifest is missing
if it is read through that one. -/
theorem part_without {other : String} (hname : Path.IsName other) (hne : other ≠ name)
    (hother : t.content? (dir.names ++ [other]) = some .directory) :
    (t.without (dir.names ++ [name])).part dir database table other
      = if dir.names ++ [name] ∈ t.looks true ((dir.entry other).entry manifestName)
        then .error .missing else t.part dir database table other := by
  have hloc : dir.names ++ [name] ≠ [] := by simp
  have hnames : (dir.entry other).names = dir.names ++ [other] := Path.names_entry hname hdir
  have htext : (dir.entry other).text ≠ "" := dir.entry_text_ne_empty hname.ne_empty
  have hupOther := Path.up_not_mem_entry hname hup
  have hcontentOther : t.content? (dir.entry other).names = some .directory := by rwa [hnames]
  unfold Tree.part
  dsimp only
  split
  · next hmem =>
    rw [readFile_without_of_mem hloc hmem]
    rfl
  · next hmem =>
    -- The part's own directory is found where it was, with the same entries.
    have hlooks : dir.names ++ [name] ∉ t.looks true (dir.entry other) := by
      refine not_mem_looks_of_length ht hupOther hcontentOther (fun _ => ?_) (by simp [hnames])
      rw [hnames]
      simpa using hne.symm
    have hlist : (t.without (dir.names ++ [name])).listDirectory (dir.entry other)
        = t.listDirectory (dir.entry other) := by
      cases hl : t.resolve true (dir.entry other) with
      | error fault =>
        unfold listDirectory
        rw [resolve_without hloc hlooks, hl]
        rfl
      | ok l =>
        have hlnames := eq_names_of_resolve htext hupOther (ht.unlinked hcontentOther) hl
        have hkeep : ∀ e : DirectoryEntry, l ++ [e.name] ≠ dir.names ++ [name] := by
          intro e heq
          have hlength := congrArg List.length heq
          rw [hlnames, hnames] at hlength
          simp at hlength
        rw [listDirectory_without hloc hlooks hl]
        cases t.listDirectory (dir.entry other) with
        | error fault => rfl
        | ok entries =>
          exact congrArg Except.ok (List.filter_eq_self.mpr fun e _ => decide_eq_true (hkeep e))
    rw [readFile_without hloc hmem, hlist]

/-- Of several attempts to describe parts those on other parts than the removed one have the results
that they had, without the ones that are missing their manifest now. -/
theorem filter_parts_without {names : List String} {listed : List FrozenPart}
    (hnames : ∀ s ∈ names, Path.IsName s ∧ t.content? (dir.names ++ [s]) = some .directory)
    (h : (names.map (t.part dir database table)).filter (fun r => !isMissing r)
      = listed.map .ok) :
    ((names.filter (· ≠ name)).map ((t.without (dir.names ++ [name])).part dir database table)).filter
        (fun r => !isMissing r)
      = (listed.filter fun part => part.name ≠ name ∧
          dir.names ++ [name] ∉ t.looks true (part.path.entry manifestName)).map .ok := by
  induction names generalizing listed with
  | nil =>
    rw [List.map_nil, List.filter_nil] at h
    rw [List.map_eq_nil_iff.mp h.symm]
    rfl
  | cons s names ih =>
    have hrest : ∀ s' ∈ names, Path.IsName s' ∧
        t.content? (dir.names ++ [s']) = some .directory :=
      fun s' hs' => hnames s' (List.mem_cons_of_mem s hs')
    obtain ⟨hs, hcontentS⟩ := hnames s List.mem_cons_self
    rw [List.map_cons] at h
    cases hpart : t.part dir database table s with
    | error fault =>
      rw [hpart] at h
      by_cases hmissing : fault.kind = .notFound
      · -- What was missing is left out before, and is missing afterwards as well.
        rw [List.filter_cons_of_neg (by simp [isMissing, hmissing])] at h
        by_cases hsame : s = name
        · rw [List.filter_cons_of_neg (by simp [hsame])]
          exact ih hrest h
        · rw [List.filter_cons_of_pos (by simp [hsame]), List.map_cons,
            part_without ht hdir hup hs hsame hcontentS, hpart, List.filter_cons_of_neg]
          · exact ih hrest h
          · split
            · simp
            · simp [isMissing_error hmissing]
      · rw [List.filter_cons_of_pos (by simp [isMissing, hmissing])] at h
        cases listed <;> cases h
    | ok part =>
      rw [hpart, List.filter_cons_of_pos (by rfl)] at h
      obtain ⟨hpartName, hpartPath⟩ := of_part_eq_ok hpart
      cases listed with
      | nil => cases h
      | cons part' listed =>
        rw [List.map_cons] at h
        obtain ⟨hhead, htail⟩ := List.cons.inj h
        obtain rfl : part = part' := Except.ok.inj hhead
        by_cases hsame : s = name
        · rw [List.filter_cons_of_neg (by simp [hsame]),
            List.filter_cons_of_neg (by simp [hpartName, hsame])]
          exact ih hrest htail
        · -- Another part is as it was, or missing if its manifest is read through the removed one.
          rw [List.filter_cons_of_pos (by simp [hsame]), List.map_cons,
            part_without ht hdir hup hs hsame hcontentS, hpart]
          by_cases hlooks : dir.names ++ [name] ∈ t.looks true ((dir.entry s).entry manifestName)
          · rw [if_pos hlooks, List.filter_cons_of_neg (by simp),
              List.filter_cons_of_neg (by simp [hpartPath, hlooks])]
            exact ih hrest htail
          · rw [if_neg hlooks, List.filter_cons_of_pos (by rfl),
              List.filter_cons_of_pos (by simp [hpartName, hpartPath, hsame, hlooks]),
              List.map_cons, ih hrest htail]

end Entry

/-- The directories that a directory tells of are those in it. -/
theorem WellFormed.mem_directoryNames (ht : t.WellFormed) {loc : Location} {s : String} :
    s ∈ FrozenPart.directoryNames (t.listing loc) ↔ t.content? (loc ++ [s]) = some .directory := by
  unfold FrozenPart.directoryNames
  rw [List.mem_mergeSort, List.mem_map]
  constructor
  · rintro ⟨e, he, rfl⟩
    obtain ⟨hmem, hkind⟩ := List.mem_filter.mp he
    obtain ⟨c, hc, hsame⟩ := ht.mem_listing.mp hmem
    rw [hc, Content.kind_eq_directory_iff.mp (hsame.trans (of_decide_eq_true hkind))]
  · intro h
    refine ⟨⟨s, .directory⟩, List.mem_filter.mpr ⟨ht.mem_listing.mpr ⟨.directory, h, rfl⟩, ?_⟩, rfl⟩
    exact decide_eq_true rfl

/-- A directory tells no name of a directory twice. -/
theorem WellFormed.nodup_directoryNames (ht : t.WellFormed) (loc : Location) :
    (FrozenPart.directoryNames (t.listing loc)).Nodup := by
  unfold FrozenPart.directoryNames
  rw [(List.mergeSort_perm _ _).nodup_iff]
  exact ht.nodup_listing.sublist (List.filter_sublist.map _)

/-- What is there has a name. -/
theorem WellFormed.isName (ht : t.WellFormed) {loc : Location} {s : String}
    (h : t.node? (loc ++ [s]) ≠ none) : Path.IsName s := by
  obtain ⟨e, he, hloc⟩ := exists_entry (by simp) h
  exact ht.named e he s (by simp [hloc])

/-- A directory that is listed is somewhere, and the directories that it tells of are entries of
it. -/
theorem WellFormed.of_listDirectory (ht : t.WellFormed) {entries : List DirectoryEntry}
    (h : t.listDirectory dir = .ok entries) :
    ∃ l, t.resolve true dir = .ok l ∧ entries = t.listing l ∧
      ∀ s ∈ FrozenPart.directoryNames entries,
        Path.IsName s ∧ t.content? (l ++ [s]) = some .directory := by
  obtain ⟨l, hl, hcontent⟩ := exists_of_listDirectory h
  obtain rfl : entries = t.listing l :=
    Except.ok.inj (h.symm.trans (listDirectory_of_resolve hl hcontent))
  refine ⟨l, hl, rfl, fun s hs => ?_⟩
  have hdirectory := ht.mem_directoryNames.mp hs
  exact ⟨ht.isName (node?_ne_none hdirectory), hdirectory⟩

/-- A directory from which a part was removed lists the other parts as before, but for those whose
manifest was read through the part. -/
theorem parts_without (ht : t.WellFormed) (hdir : dir.text ≠ "") (hup : .up ∉ dir.components)
    (hcontent : t.content? (dir.names ++ [name]) = some .directory) {listed : List FrozenPart}
    (h : t.parts dir database table = .ok listed) :
    (t.without (dir.names ++ [name])).parts dir database table
      = .ok (listed.filter fun part => part.name ≠ name ∧
          dir.names ++ [name] ∉ t.looks true (part.path.entry manifestName)) := by
  have hloc : dir.names ++ [name] ≠ [] := by simp
  have hparent : t.content? dir.names = some .directory :=
    ht.nested.directory (List.cons_ne_nil name []) (node?_ne_none hcontent)
  have hlooks : dir.names ++ [name] ∉ t.looks true dir := by
    refine not_mem_looks_of_length ht.nested hup hparent (fun hlength => ?_) (by simp)
    simp at hlength
  unfold parts at h ⊢
  cases hl : t.resolve true dir with
  | error fault =>
    -- A directory that is not found lists nothing, then as before.
    have hlist : t.listDirectory dir = .error fault := by
      unfold listDirectory
      rw [hl]
      rfl
    have hlist' : (t.without (dir.names ++ [name])).listDirectory dir = .error fault := by
      unfold listDirectory
      rw [resolve_without hloc hlooks, hl]
      rfl
    rw [hlist] at h
    rw [hlist']
    dsimp only at h ⊢
    split at h
    · next hkind =>
      cases h
      rw [if_pos hkind]
      rfl
    · cases h
  | ok l =>
    obtain rfl := eq_names_of_resolve hdir hup (ht.nested.unlinked hparent) hl
    have hlist := listDirectory_of_resolve hl hparent
    have hkeep : ∀ e : DirectoryEntry,
        decide (dir.names ++ [e.name] ≠ dir.names ++ [name]) = decide (e.name ≠ name) := by
      simp
    rw [listDirectory_without hloc hlooks hl, hlist]
    rw [hlist] at h
    dsimp only [Except.map] at h ⊢
    simp only [hkeep]
    rw [FrozenPart.directoryNames_filter (fun s => decide (s ≠ name)), mapM_id_eq_ok_iff]
    rw [mapM_id_eq_ok_iff] at h
    refine filter_parts_without ht.nested hdir hup (fun s hs => ?_) h
    have hs := ht.mem_directoryNames.mp hs
    exact ⟨ht.isName (node?_ne_none hs), hs⟩

end Tree

end TableSnapshots
