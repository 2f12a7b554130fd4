import TableSnapshots.Proofs.Part.Remaining
import TableSnapshots.Proofs.Tree.Footprint

/-!
# Parts apart from what is removed

The parts that a directory lists have different names (`WellFormed.nodup_parts`). If entries of a
tree are taken away, but none that is looked up on the way to `root`, and from where `root` leads
none beside those of one name, then a directory that goes on from `root` with another name lists the
same parts as before (`Spares.parts`), as long as there are no links below `root`.
-/

namespace TableSnapshots.Tree

variable {t : Tree} {dir : Path} {database table : String}

/-! ## Different parts -/

/-- Parts that were found have names out of those that were looked for, in their order. -/
theorem sublist_of_parts {names : List String} {listed : List FrozenPart}
    (h : (names.map (t.part dir database table)).filter (fun r => !isMissing r)
      = listed.map .ok) :
    (listed.map (·.name)).Sublist names := by
  induction names generalizing listed with
  | nil =>
    rw [List.map_nil, List.filter_nil] at h
    rw [List.map_eq_nil_iff.mp h.symm]
    exact List.nil_sublist []
  | cons s names ih =>
    rw [List.map_cons] at h
    cases hpart : t.part dir database table s with
    | error fault =>
      rw [hpart] at h
      -- A missing part is left out. Any other failure would stay, and no list of parts has one.
      by_cases hmissing : fault.kind = .notFound
      · rw [List.filter_cons_of_neg (by simp [isMissing, hmissing])] at h
        exact (ih h).cons s
      · rw [List.filter_cons_of_pos (by simp [isMissing, hmissing])] at h
        cases listed <;> cases h
    | ok part =>
      rw [hpart, List.filter_cons_of_pos (by rfl)] at h
      cases listed with
      | nil => cases h
      | cons part' listed =>
        rw [List.map_cons] at h
        obtain ⟨hhead, htail⟩ := List.cons.inj h
        obtain rfl : part = part' := Except.ok.inj hhead
        rw [List.map_cons, (of_part_eq_ok hpart).1]
        exact (ih htail).cons_cons s

/-- No two parts that a directory lists have the same name. -/
theorem WellFormed.nodup_parts (ht : t.WellFormed) {listed : List FrozenPart}
    (h : t.parts dir database table = .ok listed) : (listed.map (·.name)).Nodup := by
  unfold parts at h
  cases hlist : t.listDirectory dir with
  | error fault =>
    rw [hlist] at h
    dsimp only at h
    split at h <;> cases h
    exact List.nodup_nil
  | ok entries =>
    rw [hlist] at h
    dsimp only at h
    rw [mapM_id_eq_ok_iff] at h
    obtain ⟨l, -, rfl, -⟩ := ht.of_listDirectory hlist
    exact (ht.nodup_directoryNames l).sublist (sublist_of_parts h)

/-! ## The same parts -/

/-- There are no links where a path leads to, nor below. -/
def LinkFree (t : Tree) (root : Path) : Prop :=
  ∀ base, t.LeadsTo true root base →
    ∀ l, atOrBelow base l = true → ∀ target, t.content? l ≠ some (.link target)

/-- The way to `root` does not go through what `p` leads to. -/
def Avoids (t : Tree) (root p : Path) : Prop :=
  ∀ loc, t.LeadsTo false p loc → ∀ l ∈ t.looks true root, atOrBelow loc l = false

/-- From there names go on without a link. -/
theorem LinkFree.unlinked {root : Path} (h : t.LinkFree root) {base : Location}
    (hbase : t.LeadsTo true root base) (rest : List String) : t.Unlinked true base rest := by
  intro q r _ _ _
  exact h base hbase _ (List.isPrefixOf_iff_prefix.mpr (List.prefix_append base q))

/-- What is kept of a tree is enough for all paths that go on from `root` with another name than
`gone`. -/
structure Spares (t : Tree) (root : Path) (gone : String) (keep : Location → Bool) : Prop where
  /-- Everything on the way to `root` is kept. -/
  way : ∀ l ∈ t.looks true root, keep l = true
  /-- Where `root` leads to and below, only what is at or below `gone` is not kept. -/
  below : ∀ base, t.LeadsTo true root base → ∀ l, keep l = false → base ++ [gone] <+: l
  /-- There are no links there. -/
  links : t.LinkFree root

/-- What there is at a location that is kept stays. -/
theorem content?_of_keep {keep : Location → Bool} {l : Location} (hl : keep l = true) :
    (Tree.mk (t.entries.filter fun e => keep e.1)).content? l = t.content? l := by
  unfold content?
  by_cases hnil : l = []
  · rw [hnil]
    rfl
  · rw [node?_filter t keep hnil, hl]
    rfl

/-- A directory of which all entries are kept has the same ones. -/
theorem children_of_keep {keep : Location → Bool} {loc : Location}
    (h : ∀ s, keep (loc ++ [s]) = true) :
    (Tree.mk (t.entries.filter fun e => keep e.1)).children loc = t.children loc := by
  unfold children
  rw [List.filterMap_filter]
  refine List.filterMap_congr fun e _ => ?_
  dsimp only
  cases hname : childName? loc e.1 with
  | none => simp
  | some s =>
    rw [childName?_eq_some_iff.mp hname, h]
    rfl

namespace Spares

variable {root p : Path} {gone s : String} {names : List String} {keep : Location → Bool}
  (h : t.Spares root gone keep)
include h

/-- What is there along names that do not start with `gone` is kept. -/
theorem keep_append {base q : Location} (hbase : t.LeadsTo true root base)
    (hq : ¬ [gone] <+: q) : keep (base ++ q) = true := by
  by_contra hgone
  rw [Bool.not_eq_true] at hgone
  exact hq ((List.prefix_append_right_inj base).mp (h.below base hbase _ hgone))

section Paths

variable (hroot : root.Direct) (hp : p.Extends root (s :: names)) (hs : s ≠ gone)
include hroot hp hs

/-- A path that goes on with another name leads to the same place, where all is kept. -/
theorem resolve :
    (Tree.mk (t.entries.filter fun e => keep e.1)).resolve true p = t.resolve true p ∧
      ∀ loc, t.resolve true p = .ok loc → ∀ q, keep (loc ++ q) = true := by
  have hother : ∀ q, ¬ [gone] <+: (s :: names) ++ q := fun q hle =>
    hs (List.cons_prefix_cons.mp hle).1.symm
  constructor
  · -- Everything that is looked up is on the way to `root`, or at names that start with `s`.
    refine resolve_congr fun l hl => content?_of_keep ?_
    rcases mem_looks_of_extends hroot hp (fun base hbase => h.links.unlinked hbase _) hl with
      hway | ⟨base, q, r, hbase, hqr, rfl⟩
    · exact h.way l hway
    · refine h.keep_append hbase fun hle => hother [] ?_
      rw [List.append_nil, hqr]
      exact hle.trans (List.prefix_append q r)
  · intro loc hloc q
    have hleads := leadsTo_of_resolve hloc
    obtain ⟨base, hbase⟩ := hleads.exists_base hroot hp
    rw [LeadsTo.eq_of_extends hroot hp (List.cons_ne_nil s names) hbase (h.links.unlinked hbase _)
      hleads, List.append_assoc]
    exact h.keep_append hbase (hother q)

/-- It leads to the same file. -/
theorem readFile :
    (Tree.mk (t.entries.filter fun e => keep e.1)).readFile p = t.readFile p := by
  obtain ⟨hresolve, hkeep⟩ := h.resolve hroot hp hs
  unfold Tree.readFile
  rw [hresolve]
  cases hloc : t.resolve true p with
  | error fault => rfl
  | ok loc =>
    have hself := hkeep loc hloc []
    rw [List.append_nil] at hself
    dsimp only [bind, Except.bind]
    rw [content?_of_keep hself]

/-- It leads to a directory with the same entries. -/
theorem listDirectory :
    (Tree.mk (t.entries.filter fun e => keep e.1)).listDirectory p = t.listDirectory p := by
  obtain ⟨hresolve, hkeep⟩ := h.resolve hroot hp hs
  unfold Tree.listDirectory
  rw [hresolve]
  cases hloc : t.resolve true p with
  | error fault => rfl
  | ok loc =>
    have hself := hkeep loc hloc []
    rw [List.append_nil] at hself
    dsimp only [bind, Except.bind]
    rw [content?_of_keep hself, children_of_keep fun s => hkeep loc hloc [s]]

/-- So it lists the same parts. -/
theorem parts (ht : t.WellFormed) (database table : String) :
    (Tree.mk (t.entries.filter fun e => keep e.1)).parts p database table
      = t.parts p database table := by
  unfold Tree.parts
  rw [h.listDirectory hroot hp hs]
  cases hlist : t.listDirectory p with
  | error fault => rfl
  | ok entries =>
    obtain ⟨_, -, -, hnames⟩ := ht.of_listDirectory hlist
    dsimp only
    refine congrArg (fun rs => (List.filter _ rs).mapM id)
      (List.map_congr_left fun name hname => ?_)
    have hentry := hp.entry (hnames name hname).1
    have hmanifest := hentry.entry (show Path.IsName manifestName by decide)
    unfold Tree.part
    dsimp only
    rw [h.readFile hroot hmanifest hs, h.listDirectory hroot hentry hs]

end Paths

end Spares

/-! ## After removals -/

section Removals

variable {t' : Tree} {root p : Path}

/-- What removals of paths keep is enough for paths that go on from `root` with another name than
these. -/
theorem PrunedAlong.exists_spares {ps : List Path} {gone : String} (h : t.PrunedAlong ps t')
    (hroot : root.Direct) (hps : ∀ p ∈ ps, ∃ names, p.Extends root (gone :: names))
    (hlinks : t.LinkFree root) (hway : ∀ p ∈ ps, t.Avoids root p) :
    ∃ keep, t' = ⟨t.entries.filter fun e => keep e.1⟩ ∧ t.Spares root gone keep := by
  obtain ⟨keep, rfl, hkeep⟩ := h
  refine ⟨keep, rfl, fun l hl => ?_, fun base hbase l hl => ?_, hlinks⟩
  · -- What was taken away lies where one of the paths leads, and none of the way does.
    by_contra hgone
    obtain ⟨p, hp, loc, hloc, hin⟩ := hkeep l (Bool.not_eq_true _ ▸ hgone)
    rw [hway p hp loc hloc l hl] at hin
    cases hin
  · obtain ⟨p, hp, loc, hloc, hin⟩ := hkeep l hl
    obtain ⟨names, hextends⟩ := hps p hp
    rw [LeadsTo.eq_of_extends hroot hextends (List.cons_ne_nil gone names) hbase
      (hlinks.unlinked hbase _) hloc] at hin
    refine List.IsPrefix.trans ?_ (List.isPrefixOf_iff_prefix.mp hin)
    exact (List.prefix_append_right_inj base).mpr (List.prefix_append [gone] names)

/-- Where there are directories only, the way to `root` goes through nothing below it. -/
theorem avoids_of_directory (ht : t.Nested) (hroot : root.Direct)
    (hcontent : t.content? root.names = some .directory) (hlinks : t.LinkFree root)
    {s : String} {names : List String} (hp : p.Extends root (s :: names)) : t.Avoids root p := by
  intro loc hloc l hl
  obtain ⟨base, hbase⟩ := hloc.exists_base hroot hp
  have hbaseNames : base = root.names := by
    have hleads := hbase.names hroot.text hroot.up
    have hstraight := hleads.straight fun q r hqr hq _ target =>
      ht.unlinked hcontent q r hqr hq (.inr rfl) target
    rwa [List.nil_append] at hstraight
  have hshort := (prefix_of_mem_looks hroot.up (ht.unlinked hcontent) hl).length_le
  rw [LeadsTo.eq_of_extends hroot hp (List.cons_ne_nil s names) hbase (hlinks.unlinked hbase _)
    hloc, hbaseNames]
  unfold atOrBelow
  rw [Bool.eq_false_iff, ne_eq, List.isPrefixOf_iff_prefix]
  intro hle
  -- What is looked up has at most as many names as `root`, and what `p` leads to has more.
  have hlong := hle.length_le
  rw [List.length_append, List.length_cons] at hlong
  omega

/-- A path leads to no links if it is found and no entry there is one. -/
theorem linkFree_of_resolve {base : Location} (h : t.resolve true root = .ok base)
    (hentries : ∀ e ∈ t.entries, atOrBelow base e.1 = true → e.2.content.kind ≠ .other) :
    t.LinkFree root := by
  intro base' hbase' l hl target hlink
  obtain rfl := (leadsTo_of_resolve h).unique hbase'
  obtain ⟨n, hn, hcontent⟩ := Option.map_eq_some_iff.mp hlink
  by_cases hnil : l = []
  · rw [hnil, node?_nil] at hn
    cases hn
    cases hcontent
  · refine hentries _ (mem_of_node? hnil hn) hl ?_
    rw [hcontent]
    rfl

end Removals

end TableSnapshots.Tree
