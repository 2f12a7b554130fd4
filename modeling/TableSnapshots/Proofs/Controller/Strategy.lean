import TableSnapshots.Proofs.Controller.Session

/-!
# Freezing as the version says

What an engine tells as its version decides how the tables of a session are frozen, in the way that
the version allows and in no other (`freezes_by_version`). Only a statement that the caller gives to
restore is sent as it is, whatever it does (`not_only_by_version_of_restored`).
-/

namespace TableSnapshots

open Controller (IsFreeze connect readVersion serving)
open EngineVersion (parse)
open FreezeStrategy (ofText ofVersion)
open Query (Statement)

/-! ## Statements that freeze -/

/-- An operation freezes a whole table only if that is the way to freeze, and a partition only if
that is. -/
theorem Operation.strategy_of_mem_statements {strategy : FreezeStrategy} {op : Operation}
    {statements : List Statement} (h : op.Statements strategy statements) (db table : String) :
    (.freezeTable db table ∈ statements → strategy = .wholeTable) ∧
      ∀ partition, .freezePartition db table partition ∈ statements →
        strategy = .perPartition := by
  have hfreezes : ∀ statement ∈ statements, IsFreeze statement.text →
      ∃ db' table', op = freezeTable db' table' :=
    fun statement hmem => (of_mem_statements h hmem).2.1
  constructor
  · intro hmem
    obtain ⟨db', table', rfl⟩ := hfreezes _ hmem (.inl ⟨db, table, rfl⟩)
    cases strategy with
    | wholeTable => rfl
    | perPartition =>
      rcases h with rfl | ⟨names, rfl⟩
      · simp at hmem
      · simp at hmem
  · intro partition hmem
    obtain ⟨db', table', rfl⟩ := hfreezes _ hmem (.inr ⟨db, table, partition, rfl⟩)
    cases strategy with
    | perPartition => rfl
    | wholeTable =>
      rcases h with rfl | rfl
      · simp at hmem
      · simp at hmem

namespace Event

variable {σ : Type}

/-- The queries of an event freeze in this way only. A statement that it gives to restore is sent as
it is. -/
def FreezesBy (strategy : FreezeStrategy) (e : Event σ) (segment : List String) : Prop :=
  (∃ statement, e = .operation (.restoreMetadata statement) ∧ segment = [statement]) ∨
    ∀ query ∈ segment,
      ((∃ db table, query = Query.freezeTable db table) → strategy = .wholeTable) ∧
      ((∃ db table partition, query = Query.freezePartition db table partition) →
        strategy = .perPartition)

/-- Every event freezes in the way of its controller. -/
theorem freezesBy_of_segment {strategy : FreezeStrategy} {e : Event σ} {segment : List String}
    (h : e.Segment strategy segment) : e.FreezesBy strategy segment := by
  rcases segment_cases h with hrestores | ⟨-, ⟨op, statements, rfl, hop, rfl⟩ | rfl⟩
  · exact .inl hrestores
  · refine .inr fun query hquery => ?_
    obtain ⟨statement, hmem, rfl⟩ := List.mem_map.mp hquery
    -- Statements are told apart by their texts, so a text that freezes comes from one that does.
    constructor
    · rintro ⟨db, table, htext⟩
      have htext : statement.text = (Statement.freezeTable db table).text := htext
      rw [Statement.text_injective htext] at hmem
      exact (Operation.strategy_of_mem_statements hop db table).1 hmem
    · rintro ⟨db, table, partition, htext⟩
      have htext : statement.text = (Statement.freezePartition db table partition).text := htext
      rw [Statement.text_injective htext] at hmem
      exact (Operation.strategy_of_mem_statements hop db table).2 partition hmem
  · exact .inr fun query hquery => absurd hquery List.not_mem_nil

end Event

/-! ## Sessions -/

/-- Connecting to an engine that tells a version makes the controller for that version, after one
query. -/
theorem run_connect_of_version {σ : Type} {engine : Engine σ} {w : World σ} {s : String}
    {v : EngineVersion} (hanswer : w.answer engine Query.version = .ok (.text s))
    (hv : parse s = .ok v) (delegate : Delegate) (config : Config) :
    (connect (World.host engine delegate) config).run.run w
      = (.ok (serving (World.host engine delegate) config v), w.after engine [Query.version]) := by
  have hread : readVersion (w.answer engine Query.version) = .ok v := by
    rw [hanswer]
    exact hv
  rw [Controller.run_connect, World.run_ask, hread]
  rfl

/-- The first two numbers of a version decide how tables are frozen: whole tables from 18.16 on. So
a later version never goes back, and versions that are the same do the same; only a text from which
no version can be read tells nothing. A controller for an engine that tells such a version has this
way to freeze, and in every session it freezes in no other, unless the caller gives it a statement
to restore. -/
theorem freezes_by_version :
    (∀ s v, parse s = .ok v → ∃ first rest, v.components = first :: rest ∧
      ofText s = .ok (ofVersion v) ∧
      (ofVersion v = .wholeTable ↔ 18 < first ∨ first = 18 ∧ 16 ≤ rest.headD 0)) ∧
    (∀ a b : EngineVersion, a ≤ b → ofVersion a = .wholeTable → ofVersion b = .wholeTable) ∧
    (∀ a b : EngineVersion, (a == b) = true → ofVersion a = ofVersion b) ∧
    (∀ s e, ofText s = .error e ↔ parse s = .error e) ∧
    ∀ {σ : Type} (engine : Engine σ) (delegate : Delegate) (config : Config) (w : World σ) s v,
      w.answer engine Query.version = .ok (.text s) → parse s = .ok v →
      ∃ c, (connect (World.host engine delegate) config).run.run w
          = (.ok c, w.after engine [Query.version]) ∧
        c.version = v ∧ ofText s = .ok c.strategy ∧
        ∀ events : List (Event σ),
          let ended := (Session.mk c (w.after engine [Query.version])).run events
          ended.controller.strategy = c.strategy ∧
          ∃ segments, ended.world.queries = w.queries ++ Query.version :: segments.flatten ∧
            List.Forall₂ (Event.FreezesBy c.strategy) events segments := by
  refine ⟨fun s v hv => ?_, fun a b => FreezeStrategy.ofVersion_mono,
    fun a b => FreezeStrategy.ofVersion_congr, fun s e => FreezeStrategy.ofText_eq_error_iff, ?_⟩
  · obtain ⟨first, rest, hcomponents⟩ := EngineVersion.exists_cons_of_parse hv
    exact ⟨first, rest, hcomponents, FreezeStrategy.ofText_of_parse hv,
      FreezeStrategy.ofVersion_eq_iff hcomponents⟩
  · intro σ engine delegate config w s v hanswer hv
    refine ⟨serving (World.host engine delegate) config v,
      run_connect_of_version hanswer hv delegate config, rfl,
      FreezeStrategy.ofText_of_parse hv, fun events => ?_⟩
    have hstart : (Session.mk (serving (World.host engine delegate) config v)
        (w.after engine [Query.version])).With engine config v :=
      ⟨⟨delegate, Controller.serving_serves _ config v⟩, rfl⟩
    obtain ⟨hend, segments, hsegments, hqueries⟩ := hstart.run events
    refine ⟨hend.strategy, segments, ?_, hsegments.imp fun e segment => Event.freezesBy_of_segment⟩
    rw [hqueries, World.queries_after, List.append_assoc]
    rfl

/-- An engine that tells 18.16 with blanks and a suffix freezes whole tables, and so do those of the
same version and of a later one. -/
theorem freezes_by_version_suffix :
    let engine := constantEngine (.ok (.text " 18.16-lts\n"))
    let config : Config := ⟨⟨"/ch"⟩, "u", "g", {}, {}⟩
    let w : World Unit := ⟨(), .empty, [], [], [], [], []⟩
    ofText " 18.16-lts\n" = .ok .wholeTable ∧
      ofVersion ⟨[18, 16, 0], "18.16.0"⟩ = .wholeTable ∧
      ofVersion ⟨[19, 1], "19.1"⟩ = .wholeTable ∧
      ∃ c, (connect (World.host engine (.noted (.ok ()))) config).run.run w
          = (.ok c, w.after engine [Query.version]) ∧ c.strategy = .wholeTable ∧
        ∃ segments, ((Session.mk c (w.after engine [Query.version])).run
            [.operation (.freezeTable "db" "t")]).world.queries
              = Query.version :: segments.flatten ∧
          List.Forall₂ (Event.FreezesBy .wholeTable)
            [(.operation (.freezeTable "db" "t") : Event Unit)] segments := by
  intro engine config w
  obtain ⟨hdecides, hmono, hcongr, -, hsession⟩ := freezes_by_version
  have hv : parse " 18.16-lts\n" = .ok ⟨[18, 16], "18.16-lts"⟩ := by rfl
  obtain ⟨first, rest, hcomponents, htext, hiff⟩ := hdecides _ _ hv
  have hwhole : ofVersion ⟨[18, 16], "18.16-lts"⟩ = .wholeTable := by
    cases hcomponents
    exact hiff.mpr (.inr ⟨rfl, Nat.le_refl 16⟩)
  have hsame : (EngineVersion.mk [18, 16] "18.16-lts" == ⟨[18, 16, 0], "18.16.0"⟩) = true := by
    rw [EngineVersion.beq_iff_compare, EngineVersion.compare_eq_eq_iff]
    decide
  have hlater : EngineVersion.mk [18, 16] "18.16-lts" ≤ ⟨[19, 1], "19.1"⟩ := by
    change EngineVersion.compareNumbers [18, 16] [19, 1] ≠ .gt
    rw [EngineVersion.compareNumbers_cons_ne_gt_iff]
    exact .inl (by decide)
  obtain ⟨c, hconnect, -, hstrategy, hevents⟩ := hsession engine (.noted (.ok ())) config w
    " 18.16-lts\n" _ rfl hv
  rw [hwhole] at htext
  have hc : c.strategy = .wholeTable := Except.ok.inj (hstrategy.symm.trans htext)
  obtain ⟨-, segments, hqueries, hsegments⟩ := hevents [.operation (.freezeTable "db" "t")]
  rw [hc] at hsegments
  exact ⟨htext, (hcongr _ _ hsame).symm.trans hwhole, hmono _ _ hlater hwhole, c, hconnect, hc,
    segments, hqueries, hsegments⟩

/-- A caller who gives a freeze of a whole table to restore has it sent to an engine that can only
freeze partitions. -/
theorem not_only_by_version_of_restored :
    let engine := constantEngine (.ok (.text "17.2"))
    let host := World.host engine (.noted (.ok ()))
    let config : Config := ⟨⟨"/ch"⟩, "u", "g", {}, {}⟩
    let w : World Unit := ⟨(), .empty, [], [], [], [], []⟩
    ∃ c, (connect host config).run.run w = (.ok c, w.after engine [Query.version]) ∧
      c.strategy = .perPartition ∧
      ((Session.mk c (w.after engine [Query.version])).run
        [.operation (.restoreMetadata (Query.freezeTable "db" "t"))]).world.queries
          = [Query.version, Query.freezeTable "db" "t"] := by
  intro engine host config w
  have hv : parse "17.2" = .ok ⟨[17, 2], "17.2"⟩ := by rfl
  exact ⟨serving host config ⟨[17, 2], "17.2"⟩, run_connect_of_version rfl hv _ config,
    Controller.ofVersion_of_gt (by decide) _ _, rfl⟩

end TableSnapshots
