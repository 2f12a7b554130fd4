import Mathlib.Data.List.Dedup
import Mathlib.Data.List.Infix
import TableSnapshots.Proofs.Each
import TableSnapshots.Proofs.Freeze.Copying
import TableSnapshots.Proofs.Query.Statement

/-!
# An engine that copies parts

The plainest engine that freezes as it should: it writes the counter, adds the files of each part
below the directory of the new number, and makes the directories that are missing above them
(`Tree.filled`). Whatever the table and its parts, it meets the contract of an engine that copies
(`copier_copies`).
-/

namespace TableSnapshots

namespace Tree

/-! ## Missing directories -/

/-- The locations above entries where nothing is. -/
def gaps (t : Tree) : List Location :=
  (t.entries.flatMap fun e => e.1.inits).dedup.filter fun l => l ≠ [] && (t.node? l).isNone

/-- The tree with the directories that are missing above its entries. -/
def filled (t : Tree) : Tree :=
  ⟨t.entries ++ t.gaps.map (·, top)⟩

/-- What is missing is not there, and lies above an entry. -/
theorem mem_gaps {t : Tree} {l : Location} :
    l ∈ t.gaps ↔ l ≠ [] ∧ t.node? l = none ∧ ∃ e ∈ t.entries, l <+: e.1 := by
  unfold gaps
  rw [List.mem_filter, List.mem_dedup, List.mem_flatMap, Bool.and_eq_true, decide_eq_true_eq,
    Option.isNone_iff_eq_none]
  simp only [List.mem_inits]
  exact ⟨fun ⟨habove, hne, hnone⟩ => ⟨hne, hnone, habove⟩,
    fun ⟨hne, hnone, habove⟩ => ⟨habove, hne, hnone⟩⟩

/-- An entry of the filled tree is one of the tree or a directory in a gap. -/
theorem mem_filled {t : Tree} {l : Location} {n : Node} :
    (l, n) ∈ t.filled.entries ↔ (l, n) ∈ t.entries ∨ l ∈ t.gaps ∧ n = top := by
  unfold filled
  rw [List.mem_append, List.mem_map]
  refine or_congr_right ⟨?_, ?_⟩
  · rintro ⟨l', hl', hpair⟩
    cases hpair
    exact ⟨hl', rfl⟩
  · rintro ⟨hl, rfl⟩
    exact ⟨l, hl, rfl⟩

/-- A tree whose entries have names of their own and only directories above them, though some of
these may be missing. -/
structure Fillable (t : Tree) : Prop where
  distinct : (t.entries.map (·.1)).Nodup
  named : ∀ e ∈ t.entries, ∀ s ∈ e.1, Path.IsName s
  above : ∀ e ∈ t.entries, e.1 ≠ [] → ∀ e' ∈ t.entries, e.1 <+: e'.1 → e.1 ≠ e'.1 →
    e.2.content = .directory

/-- With the missing directories it is a tree as a file system has it. -/
theorem Fillable.wellFormed_filled {t : Tree} (h : t.Fillable) : t.filled.WellFormed := by
  have hkeys : t.filled.entries.map (·.1) = t.entries.map (·.1) ++ t.gaps := by
    unfold filled
    rw [List.map_append, List.map_map]
    exact congrArg _ (List.map_id _)
  have hdistinct : (t.filled.entries.map (·.1)).Nodup := by
    rw [hkeys, List.nodup_append]
    refine ⟨h.distinct, (List.nodup_dedup _).filter _, ?_⟩
    rintro l hl _ hgap rfl
    obtain ⟨⟨l, n⟩, he, rfl⟩ := List.mem_map.mp hl
    exact node?_ne_none_of_mem he (mem_gaps.mp hgap).2.1
  -- Every entry of the filled tree is an entry of the tree or lies above one.
  have habove : ∀ e ∈ t.filled.entries, ∃ e' ∈ t.entries, e.1 <+: e'.1 := by
    rintro ⟨l, n⟩ he
    rcases mem_filled.mp he with he | ⟨hgap, -⟩
    · exact ⟨_, he, List.prefix_rfl⟩
    · exact (mem_gaps.mp hgap).2.2
  refine ⟨fun e he => ?_, hdistinct, fun e he s hs => ?_⟩
  · obtain ⟨e', he', hle⟩ := habove e he
    by_cases hparent : e.1.dropLast = []
    · rw [hparent]
      rfl
    · have hshort : e.1.dropLast.length < e.1.length := by
        rw [List.length_dropLast]
        have hpos : 0 < e.1.length := List.length_pos_iff.mpr fun hnil => hparent (by simp [hnil])
        omega
      have hprefix := (List.dropLast_prefix e.1).trans hle
      have hne : e.1.dropLast ≠ e'.1 := fun heq => by
        have hlength := hle.length_le
        rw [← heq] at hlength
        omega
      -- Where nothing was there is a gap, and what was there is a directory.
      cases hnode : t.node? e.1.dropLast with
      | none =>
        have hgap := mem_gaps.mpr ⟨hparent, hnode, e', he', hprefix⟩
        have hentry := mem_filled.mpr (.inr ⟨hgap, rfl⟩)
        rw [content?, node?_of_mem hdistinct hparent hentry]
        rfl
      | some n =>
        have hentry := mem_of_node? hparent hnode
        rw [content?, node?_of_mem hdistinct hparent (mem_filled.mpr (.inl hentry))]
        exact congrArg some (h.above _ hentry hparent e' he' hprefix hne)
  · obtain ⟨e', he', hle⟩ := habove e he
    exact h.named e' he' s (hle.subset hs)

/-! ## Copying -/

open Controller (incrementName)

/-- The entries of a copy of a part in a directory, but for the part's directory itself. -/
def copyOf (place : Location) (p : LivePart) : List (Location × Node) :=
  (p.files.entries.filter fun e => e.1 ≠ []).map fun e => (place ++ p.name :: e.1, e.2)

/-- The tree with the counter and the copies of a freeze, but for directories above them. -/
def copied (t : Tree) (shadow relative : Location) (parts : List LivePart) : Tree :=
  ⟨t.entries.filter (fun e => e.1 ≠ shadow ++ [incrementName])
    ++ (shadow ++ [incrementName],
        { content := .file (Text.decimal (t.counter shadow + 1) ++ "\n").toUTF8 })
      :: parts.flatMap (copyOf (t.nextPlace shadow relative))⟩

variable {t : Tree} {shadow relative l : Location} {n : Node} {parts : List LivePart}

/-- An entry of a copy is one of the part. -/
theorem mem_copyOf {place : Location} {p : LivePart} :
    (l, n) ∈ copyOf place p ↔
      ∃ r, r ≠ [] ∧ l = place ++ p.name :: r ∧ (r, n) ∈ p.files.entries := by
  unfold copyOf
  rw [List.mem_map]
  constructor
  · rintro ⟨⟨r, n'⟩, he, hpair⟩
    cases hpair
    obtain ⟨hmem, hne⟩ := List.mem_filter.mp he
    exact ⟨r, of_decide_eq_true hne, rfl, hmem⟩
  · rintro ⟨r, hr, rfl, hmem⟩
    exact ⟨_, List.mem_filter.mpr ⟨hmem, decide_eq_true hr⟩, rfl⟩

/-- After the freeze there are the entries from before, the counter, and those of the copies. -/
theorem mem_copied : (l, n) ∈ (t.copied shadow relative parts).entries ↔
    (l ≠ shadow ++ [incrementName] ∧ (l, n) ∈ t.entries) ∨
    (l = shadow ++ [incrementName] ∧
      n = { content := .file (Text.decimal (t.counter shadow + 1) ++ "\n").toUTF8 }) ∨
    ∃ p ∈ parts, ∃ r, r ≠ [] ∧ l = t.nextPlace shadow relative ++ p.name :: r ∧
      (r, n) ∈ p.files.entries := by
  unfold copied
  rw [List.mem_append, List.mem_filter, List.mem_cons, List.mem_flatMap, Prod.mk.injEq,
    decide_eq_true_eq, and_comm]
  simp only [mem_copyOf]

/-- A copy is in the directory of the next freeze. -/
theorem prefix_nextPlace (t : Tree) (shadow relative more : Location) :
    shadow ++ [Text.decimal (t.counter shadow + 1)] <+: t.nextPlace shadow relative ++ more := by
  unfold nextPlace
  rw [List.append_assoc, List.prefix_append_right_inj, List.cons_append, List.cons_prefix_cons]
  exact ⟨rfl, List.nil_prefix⟩

/-- What lies above a copy and not in the directory of the freeze lies above that. -/
theorem prefix_shadow_of_prefix {more : Location}
    (hle : l <+: t.nextPlace shadow relative ++ more)
    (hnot : ¬ shadow ++ [Text.decimal (t.counter shadow + 1)] <+: l) : l <+: shadow := by
  rcases List.prefix_or_prefix_of_prefix hle (prefix_nextPlace t shadow relative more) with h | h
  · refine (List.prefix_concat_iff.mp h).resolve_left fun heq => hnot ?_
    rw [heq]
  · exact absurd h hnot

section Ready

variable (ht : t.Ready shadow)
include ht

/-- Nothing is in the directory of the next freeze before it. -/
theorem Ready.not_prefix_of_mem (h : (l, n) ∈ t.entries) :
    ¬ shadow ++ [Text.decimal (t.counter shadow + 1)] <+: l := by
  rintro ⟨r, rfl⟩
  exact ht.wellFormed.nested.exists_above (node?_ne_none_of_mem h)
    (ht.fresh _ (Nat.lt_succ_self _))

/-- What there is above the shadow directory's counter is a directory. -/
theorem Ready.directory_of_mem (hl : l ≠ []) (h : (l, n) ∈ t.entries)
    (hle : l <+: shadow ++ [incrementName]) (hne : l ≠ shadow ++ [incrementName]) :
    n.content = .directory := by
  obtain ⟨r, hr⟩ := hle
  refine ht.passable l r ?_ hr.symm _ ?_
  · rintro rfl
    exact hne (by rwa [List.append_nil] at hr)
  · rw [content?, (ht.wellFormed.node?_eq_some_iff hl).mpr h]
    rfl

/-- No location has two entries. -/
theorem Ready.nodup_copied (hdistinct : (parts.map (·.name)).Nodup) :
    ((t.copied shadow relative parts).entries.map (·.1)).Nodup := by
  have hcopies : ((parts.flatMap (copyOf (t.nextPlace shadow relative))).map (·.1)).Nodup := by
    rw [List.map_flatMap, List.nodup_flatMap]
    constructor
    · intro p hp
      have hkeys : (copyOf (t.nextPlace shadow relative) p).map (·.1)
          = ((p.files.entries.map (·.1)).filter fun l => l ≠ []).map
              (t.nextPlace shadow relative ++ p.name :: ·) := by
        unfold copyOf
        rw [List.filter_map, List.map_map, List.map_map]
        rfl
      rw [hkeys]
      refine (p.wellFormed.distinct.filter _).map fun l l' heq => ?_
      exact (List.cons.inj (List.append_cancel_left heq)).2
    · -- Copies of different parts lie in directories of different names.
      rw [List.Nodup, List.pairwise_map] at hdistinct
      refine hdistinct.imp fun {p p'} hne l hl hl' => hne ?_
      obtain ⟨⟨_, n⟩, he, rfl⟩ := List.mem_map.mp hl
      obtain ⟨⟨_, n'⟩, he', heq⟩ := List.mem_map.mp hl'
      obtain ⟨r, -, rfl, -⟩ := mem_copyOf.mp he
      obtain ⟨r', -, rfl, -⟩ := mem_copyOf.mp he'
      exact (List.cons.inj (List.append_cancel_left heq)).1.symm
  have hbelow : ∀ l ∈ (parts.flatMap (copyOf (t.nextPlace shadow relative))).map (·.1),
      shadow ++ [Text.decimal (t.counter shadow + 1)] <+: l := by
    intro l hl
    obtain ⟨⟨l, n⟩, he, rfl⟩ := List.mem_map.mp hl
    obtain ⟨p, -, hcopy⟩ := List.mem_flatMap.mp he
    obtain ⟨r, -, rfl, -⟩ := mem_copyOf.mp hcopy
    exact prefix_nextPlace t shadow relative _
  unfold copied
  rw [List.map_append, List.map_cons, List.nodup_append, List.nodup_cons]
  refine ⟨(List.filter_sublist.map _).nodup ht.wellFormed.distinct,
    ⟨fun hmem => not_prefix_counter _ (hbelow _ hmem), hcopies⟩, ?_⟩
  rintro _ hold _ hnew rfl
  obtain ⟨⟨l, n⟩, he, rfl⟩ := List.mem_map.mp hold
  obtain ⟨hmem, hne⟩ := List.mem_filter.mp he
  rcases List.mem_cons.mp hnew with heq | hcopy
  · exact of_decide_eq_true hne heq
  · exact ht.not_prefix_of_mem hmem (hbelow _ hcopy)

/-- The entries can be filled up to a tree as a file system has it. -/
theorem Ready.fillable_copied (hshadow : ∀ s ∈ shadow, Path.IsName s)
    (hrelative : ∀ s ∈ relative, Path.IsName s) (hdistinct : (parts.map (·.name)).Nodup) :
    (t.copied shadow relative parts).Fillable where
  distinct := ht.nodup_copied hdistinct
  named := by
    rintro ⟨l, n⟩ he s hs
    rcases mem_copied.mp he with ⟨-, he⟩ | ⟨rfl, -⟩ | ⟨p, -, r, -, rfl, hfile⟩
    · exact ht.wellFormed.named _ he s hs
    · rcases List.mem_append.mp hs with hs | hs
      · exact hshadow s hs
      · rw [List.mem_singleton.mp hs]
        decide
    · unfold nextPlace at hs
      simp only [List.mem_append, List.mem_cons] at hs
      rcases hs with (hs | rfl | hs) | rfl | hs
      · exact hshadow s hs
      · exact Path.isName_decimal _
      · exact hrelative s hs
      · exact p.named
      · exact p.wellFormed.named _ hfile s hs
  above := by
    rintro ⟨l, n⟩ he hl ⟨l', n'⟩ he' hle hne
    dsimp only at hl hle hne ⊢
    rcases mem_copied.mp he with ⟨hcounter, he⟩ | ⟨rfl, -⟩ | ⟨p, hp, r, hr, rfl, hfile⟩
    · -- Above an entry from before there was a directory, and above what is new as well.
      rcases mem_copied.mp he' with ⟨-, he'⟩ | ⟨rfl, -⟩ | ⟨p, -, r, -, rfl, -⟩
      · exact ht.wellFormed.directory_of_prefix hl he he' hle hne
      · exact ht.directory_of_mem hl he hle hne
      · have hin := prefix_shadow_of_prefix hle (ht.not_prefix_of_mem he)
        exact ht.directory_of_mem hl he (hin.trans (List.prefix_append _ _)) hcounter
    · -- Nothing is below the counter, which is no directory.
      rcases mem_copied.mp he' with ⟨-, he'⟩ | ⟨rfl, -⟩ | ⟨p, -, r, -, rfl, -⟩
      · obtain ⟨r, rfl⟩ := hle
        refine absurd (ht.wellFormed.nested.directory ?_ (node?_ne_none_of_mem he')) ht.writable
        rintro rfl
        exact hne (List.append_nil _).symm
      · exact absurd rfl hne
      · exact absurd (eq_of_prefix_nextPlace hle).symm (Controller.decimal_ne_incrementName _)
    · -- What is below an entry of a copy is in the same copy.
      have hstart := (prefix_nextPlace t shadow relative (p.name :: r)).trans hle
      rcases mem_copied.mp he' with ⟨-, he'⟩ | ⟨rfl, -⟩ | ⟨p', hp', r', -, rfl, hfile'⟩
      · exact absurd hstart (ht.not_prefix_of_mem he')
      · exact absurd hstart (not_prefix_counter _)
      · rw [List.prefix_append_right_inj, List.cons_prefix_cons] at hle
        obtain rfl : p = p' := List.inj_on_of_nodup_map hdistinct hp hp' hle.1
        refine p.wellFormed.directory_of_prefix hr hfile hfile' hle.2 fun heq => hne ?_
        rw [heq]

/-! ## The freeze -/

/-- Below the top of a copy there is what the part has there. -/
theorem Ready.node?_copy (hdistinct : (parts.map (·.name)).Nodup)
    (hwell : (t.copied shadow relative parts).filled.WellFormed) {p : LivePart} (hp : p ∈ parts)
    (hl : l ≠ []) :
    (t.copied shadow relative parts).filled.node? (t.nextPlace shadow relative ++ p.name :: l)
      = p.files.node? l := by
  have hstart := prefix_nextPlace t shadow relative (p.name :: l)
  have hcopy : ∀ {n}, (l, n) ∈ p.files.entries →
      (t.nextPlace shadow relative ++ p.name :: l, n)
        ∈ (t.copied shadow relative parts).entries := fun hmem =>
    mem_copied.mpr (.inr (.inr ⟨p, hp, l, hl, rfl, hmem⟩))
  ext n
  rw [hwell.node?_eq_some_iff (by simp), p.wellFormed.node?_eq_some_iff hl, mem_filled]
  refine ⟨?_, fun hmem => .inl (hcopy hmem)⟩
  rintro (hmem | ⟨hgap, -⟩)
  · rcases mem_copied.mp hmem with ⟨-, he⟩ | ⟨heq, -⟩ | ⟨p', hp', r, -, heq, hfile⟩
    · exact absurd hstart (ht.not_prefix_of_mem he)
    · rw [heq] at hstart
      exact absurd hstart (not_prefix_counter _)
    · obtain ⟨hname, rfl⟩ := List.cons.inj (List.append_cancel_left heq)
      obtain rfl : p = p' := List.inj_on_of_nodup_map hdistinct hp hp' hname
      exact hfile
  · -- A gap would lie above an entry of the same copy, but there the part has an entry itself.
    obtain ⟨-, hnone, ⟨l', n'⟩, he', hle⟩ := mem_gaps.mp hgap
    rcases mem_copied.mp he' with ⟨-, he'⟩ | ⟨rfl, -⟩ | ⟨p', hp', r, -, rfl, hfile⟩
    · exact absurd (hstart.trans hle) (ht.not_prefix_of_mem he')
    · exact absurd (hstart.trans hle) (not_prefix_counter _)
    · rw [List.prefix_append_right_inj, List.cons_prefix_cons] at hle
      obtain ⟨hname, more, rfl⟩ := hle
      obtain rfl : p = p' := List.inj_on_of_nodup_map hdistinct hp hp' hname
      obtain ⟨n₀, hn₀⟩ := Option.ne_none_iff_exists'.mp
        (p.wellFormed.nested.exists_above (node?_ne_none_of_mem hfile))
      exact absurd hnone (node?_ne_none_of_mem (hcopy (mem_of_node? hl hn₀)))

/-- Apart from the counter and the copies everything is as before. -/
theorem Ready.node?_apart (hwell : (t.copied shadow relative parts).filled.WellFormed)
    (hcounter : ¬ l <+: shadow ++ [incrementName])
    (hplaces : ∀ p ∈ parts, ¬ l <+: t.nextPlace shadow relative ++ [p.name] ∧
      ¬ t.nextPlace shadow relative ++ [p.name] <+: l) :
    (t.copied shadow relative parts).filled.node? l = t.node? l := by
  have hl : l ≠ [] := by
    rintro rfl
    exact hcounter List.nil_prefix
  have hkept : ∀ {n}, (l, n) ∈ t.entries → (l, n) ∈ (t.copied shadow relative parts).entries := by
    intro n hmem
    refine mem_copied.mpr (.inl ⟨?_, hmem⟩)
    rintro rfl
    exact hcounter List.prefix_rfl
  have hpart : ∀ (p : LivePart) (r : Location), t.nextPlace shadow relative ++ [p.name]
      <+: t.nextPlace shadow relative ++ p.name :: r := by
    intro p r
    rw [List.prefix_append_right_inj, List.cons_prefix_cons]
    exact ⟨rfl, List.nil_prefix⟩
  ext n
  rw [hwell.node?_eq_some_iff hl, ht.wellFormed.node?_eq_some_iff hl, mem_filled]
  refine ⟨?_, fun hmem => .inl (hkept hmem)⟩
  rintro (hmem | ⟨hgap, -⟩)
  · rcases mem_copied.mp hmem with ⟨-, he⟩ | ⟨rfl, -⟩ | ⟨p, hp, r, -, rfl, -⟩
    · exact he
    · exact absurd List.prefix_rfl hcounter
    · exact absurd (hpart p r) (hplaces p hp).2
  · obtain ⟨-, hnone, ⟨l', n'⟩, he', hle⟩ := mem_gaps.mp hgap
    rcases mem_copied.mp he' with ⟨-, he'⟩ | ⟨rfl, -⟩ | ⟨p, hp, r, -, rfl, -⟩
    · -- What is above an entry from before was there before.
      obtain ⟨more, rfl⟩ := hle
      obtain ⟨n₀, hn₀⟩ := Option.ne_none_iff_exists'.mp
        (ht.wellFormed.nested.exists_above (node?_ne_none_of_mem he'))
      exact absurd hnone (node?_ne_none_of_mem (hkept (mem_of_node? hl hn₀)))
    · exact absurd hle hcounter
    · exact ((List.prefix_or_prefix_of_prefix hle (hpart p r)).elim (hplaces p hp).1
        (hplaces p hp).2).elim

/-- The tree after the freeze, with the directories above what is new. -/
theorem Ready.freezes_copied (hshadow : ∀ s ∈ shadow, Path.IsName s)
    (hrelative : ∀ s ∈ relative, Path.IsName s) (hdistinct : (parts.map (·.name)).Nodup) :
    t.Freezes shadow relative parts (t.copied shadow relative parts).filled := by
  have hfillable := ht.fillable_copied hshadow hrelative hdistinct
  have hwell := hfillable.wellFormed_filled
  have hnew : ∀ {l n}, (l, n) ∈ (t.copied shadow relative parts).entries → l ≠ [] →
      (t.copied shadow relative parts).filled.node? l = some n := fun hmem hl =>
    (hwell.node?_eq_some_iff hl).mpr (mem_filled.mpr (.inl hmem))
  refine ⟨hwell, ?_, ?_, ?_⟩
  · rw [content?, hnew (mem_copied.mpr (.inr (.inl ⟨rfl, rfl⟩))) (by simp)]
    rfl
  · intro p hp l
    by_cases hl : l = []
    · -- The manifest is in the part's directory.
      obtain ⟨n, hn, hcontent⟩ := Option.map_eq_some_iff.mp p.manifest_content
      have hmanifest := hnew (mem_copied.mpr (.inr (.inr ⟨p, hp, [manifestName], by simp, rfl,
        mem_of_node? (by simp) hn⟩))) (by simp)
      rw [hl]
      refine hwell.nested.directory (List.cons_ne_nil manifestName []) ?_
      rw [List.append_assoc, List.cons_append, List.nil_append, hmanifest]
      simp
    · rw [content?, content?, ht.node?_copy hdistinct hwell hp hl]
  · exact fun l hcounter hplaces => ht.node?_apart hwell hcounter hplaces

end Ready

end Tree

/-! ## The engine -/

/-- An answer that lists partitions. -/
def partitionsReply (names : List String) : Reply :=
  .json (.record [("data", .list (names.map fun name => .record [("partition", .text name)]))])

/-- It is read as these. -/
theorem column_partitionsReply (names : List String) :
    (partitionsReply names).column "partition" = .ok names := by
  have hrows : (partitionsReply names).rows
      = .ok (names.map fun name => .record [("partition", .text name)]) :=
    mapM_map_eq_ok (f := Reply.row) (fun _ => rfl) names
  have hcells : (names.map fun name => Json.record [("partition", .text name)]).mapM
      (Reply.cell "partition") = .ok (names.map id) :=
    mapM_map_eq_ok (f := Reply.cell "partition") (fun _ => rfl) names
  unfold Reply.column
  rw [hrows]
  dsimp only [bind, Except.bind]
  rw [hcells, List.map_id]

/-- An engine that copies the parts of a table when it is frozen, or those of a partition. -/
def copier (db table text : String) (live : LiveTable) (shadow relative : Location) :
    Engine Unit := fun query state t =>
  if query = Query.tableDataPath db table then (.ok (.text text), state, t)
  else if query = Query.tablePartitions db table then
    (.ok (partitionsReply (live.parts.map (·.partition)).dedup), state, t)
  else
    let parts := live.parts.filter fun p =>
      query = Query.freezeTable db table || query = Query.freezePartition db table p.partition
    (.ok (.text ""), state, (t.copied shadow relative parts).filled)

open Query (Statement) in
/-- It freezes as it should. -/
theorem copier_copies (db table text : String) (live : LiveTable) {shadow relative : Location}
    (hshadow : ∀ s ∈ shadow, Path.IsName s) (hrelative : ∀ s ∈ relative, Path.IsName s) :
    (copier db table text live shadow relative).Copies db table text live shadow relative := by
  -- The engine tells statements apart by their texts, which are different.
  have hne : ∀ s s' : Statement, s ≠ s' → s.text ≠ s'.text := fun _ _ h heq =>
    h (Statement.text_injective heq)
  constructor
  · exact fun state t => ⟨state, if_pos rfl⟩
  · intro state t
    have hother : Query.tablePartitions db table ≠ Query.tableDataPath db table :=
      hne (.tablePartitions db table) (.tableDataPath db table) (by simp)
    refine ⟨_, state, _, (if_neg hother).trans (if_pos rfl), column_partitionsReply _,
      List.nodup_dedup _, fun name => ?_⟩
    rw [List.mem_dedup, List.mem_map]
  · intro state t ht _
    have hpath : Query.freezeTable db table ≠ Query.tableDataPath db table :=
      hne (.freezeTable db table) (.tableDataPath db table) (by simp)
    have hlist : Query.freezeTable db table ≠ Query.tablePartitions db table :=
      hne (.freezeTable db table) (.tablePartitions db table) (by simp)
    have hall : (live.parts.filter fun p => Query.freezeTable db table = Query.freezeTable db table
        || Query.freezeTable db table = Query.freezePartition db table p.partition) = live.parts :=
      List.filter_eq_self.mpr fun p _ => by simp
    refine ⟨_, state, _, (if_neg hpath).trans (if_neg hlist), ?_⟩
    rw [hall]
    exact ht.freezes_copied hshadow hrelative live.distinct
  · rintro name - state t ht -
    have hpath : Query.freezePartition db table name ≠ Query.tableDataPath db table :=
      hne (.freezePartition db table name) (.tableDataPath db table) (by simp)
    have hlist : Query.freezePartition db table name ≠ Query.tablePartitions db table :=
      hne (.freezePartition db table name) (.tablePartitions db table) (by simp)
    have htable : Query.freezePartition db table name ≠ Query.freezeTable db table :=
      hne (.freezePartition db table name) (.freezeTable db table) (by simp)
    have hsame : ∀ name', Query.freezePartition db table name = Query.freezePartition db table name'
        ↔ name' = name := by
      refine fun name' => ⟨fun heq => ?_, fun heq => by rw [heq]⟩
      have hstatement : Statement.freezePartition db table name
        = Statement.freezePartition db table name' := Statement.text_injective heq
      cases hstatement
      rfl
    have hpartition : (live.parts.filter fun p =>
        Query.freezePartition db table name = Query.freezeTable db table
          || Query.freezePartition db table name = Query.freezePartition db table p.partition)
          = live.parts.filter (·.partition = name) :=
      List.filter_congr fun p _ => by simp [htable, hsame]
    refine ⟨_, state, _, (if_neg hpath).trans (if_neg hlist), ?_⟩
    rw [hpartition]
    exact ht.freezes_copied hshadow hrelative
      ((List.filter_sublist.map _).nodup live.distinct)

end TableSnapshots
