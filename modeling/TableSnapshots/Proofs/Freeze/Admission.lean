import TableSnapshots.Proofs.Controller.Run
import TableSnapshots.Proofs.Path.Components
import TableSnapshots.Proofs.Query.Statement
import TableSnapshots.Proofs.World.Session

/-!
# Which tables are frozen

A freeze makes files below `shadow` at the place that the table has below the engine's directory, so
a table that does not lie properly below it must not be frozen: its parts could never be found. The
engine's answer to the query for the table's directory decides (`Admits`), and an answer that is
refused ends the operation before anything else is done (`freezeTable_of_not_admits`). Since that
holds over every host, no file was looked at either.
-/

namespace TableSnapshots.Controller

/-- An answer that lets a table be frozen: a text that is not empty and spells a path properly below
the engine's directory. -/
def Admits (root : Path) : Except GatewayError Reply → Prop
  | .ok (.text s) => s ≠ "" ∧ (Path.mk s).LiesBelow root
  | _ => False

instance (root : Path) : DecidablePred (Admits root)
  | .ok (.text s) => inferInstanceAs (Decidable (s ≠ "" ∧ (Path.mk s).LiesBelow root))
  | .ok (.json _) | .error _ => inferInstanceAs (Decidable False)

/-- It says where the table lies. -/
theorem exists_of_admits {root : Path} {answer : Except GatewayError Reply}
    (h : Admits root answer) :
    ∃ text, answer = .ok (.text text) ∧ text ≠ "" ∧ (Path.mk text).LiesBelow root := by
  match answer with
  | .ok (.text text) => exact ⟨text, rfl, h.1, h.2⟩
  | .ok (.json _) | .error _ => exact h.elim

/-- The error that an answer which is refused gives. -/
def refusal (root : Path) (db table : String) : Except GatewayError Reply → Error
  | .error e => .gateway e
  | .ok (.json _) => .gateway (.unexpected "expected a text response")
  | .ok (.text s) =>
    if s = "" then .gateway (.unexpected ("no data path for " ++ db ++ "." ++ table))
    else .pathViolation ⟨s⟩ root

/-- A statement that freezes something. -/
def IsFreeze (query : String) : Prop :=
  (∃ db table, query = Query.freezeTable db table) ∨
    ∃ db table partition, query = Query.freezePartition db table partition

/-! ## Where a table lies -/

section Relative

variable {m : Type → Type} {c : Controller m} {p : Path}

/-- A path that the guard of the engine's directory accepts is refused only if nothing is left of it
below that directory. -/
theorem relativePath_of_accepts (h : c.root.accepts p = true) :
    c.relativePath p =
      if (p.remainder c.root.root.components.length).text = "" then
        .error (.pathViolation p c.root.root)
      else .ok (p.remainder c.root.root.components.length) := by
  have hcheck : c.root.check p = .ok p := if_pos h
  have hstrip : p.stripPrefix? c.root.root = some (p.remainder c.root.root.components.length) := by
    unfold PathGuard.accepts at h
    exact if_pos (Bool.and_eq_true_iff.mp h).2
  unfold relativePath
  rw [hcheck]
  dsimp only [bind, Except.bind]
  rw [hstrip]
  rfl

/-- A path properly below the engine's directory is accepted. -/
theorem relativePath_of_liesBelow (hp : p.text ≠ "") (h : p.LiesBelow c.root.root) :
    c.relativePath p = .ok (p.remainder c.root.root.components.length) := by
  obtain ⟨haccepts, hlt⟩ := Path.liesBelow_iff.mp h
  have hleft : ¬ (p.remainder c.root.root.components.length).text = "" := by
    rw [Path.remainder_text_eq_empty_iff hp]
    omega
  rw [relativePath_of_accepts haccepts, if_neg hleft]

/-- Any other path is refused. -/
theorem relativePath_of_not_liesBelow (hp : p.text ≠ "") (h : ¬ p.LiesBelow c.root.root) :
    c.relativePath p = .error (.pathViolation p c.root.root) := by
  by_cases haccepts : c.root.accepts p = true
  · have hempty : (p.remainder c.root.root.components.length).text = "" := by
      rw [Path.remainder_text_eq_empty_iff hp]
      by_contra hlt
      exact h (Path.liesBelow_iff.mpr ⟨haccepts, by omega⟩)
    rw [relativePath_of_accepts haccepts, if_pos hempty]
  · have hcheck : c.root.check p = .error (.pathViolation p c.root.root) := if_neg haccepts
    unfold relativePath
    rw [hcheck]
    rfl

end Relative

/-! ## Refused answers -/

section Refused

variable {S : Type} {host : Host (StateM S)} {config : Config} {c : Controller (StateM S)}

/-- An answer that is refused gives its error in one of the two steps before the first freeze. -/
theorem readDataPath_of_not_admits {root : Path} {db table : String}
    {answer : Except GatewayError Reply} (h : ¬ Admits root answer) :
    (readDataPath db table answer).mapError .gateway = .error (refusal root db table answer) ∨
      ∃ p : Path, readDataPath db table answer = .ok p ∧ p.text ≠ "" ∧ ¬ p.LiesBelow root ∧
        refusal root db table answer = .pathViolation p root := by
  match answer with
  | .error e => exact .inl rfl
  | .ok (.json v) => exact .inl rfl
  | .ok (.text s) =>
    by_cases hs : s = ""
    · subst hs
      exact .inl rfl
    · exact .inr ⟨⟨s⟩, readDataPath_text hs db table, hs, fun hbelow => h ⟨hs, hbelow⟩, if_neg hs⟩

/-- A refused answer ends the operation with its error and in the state that the one query left. -/
theorem freezeTable_of_not_admits (hc : c.Serves host config) {db table : String} {s : S}
    (h : ¬ Admits config.dataPath ((host.ask (Query.tableDataPath db table)).run s).1) :
    (c.freezeTable db table).run.run s
      = (.error (refusal config.dataPath db table
            ((host.ask (Query.tableDataPath db table)).run s).1),
          ((host.ask (Query.tableDataPath db table)).run s).2) := by
  have hpath := run_tableDataPath c db table s
  rw [hc.host] at hpath
  unfold freezeTable
  rcases readDataPath_of_not_admits h with herror | ⟨p, hread, hp, hbelow, hrefusal⟩
  · rw [herror] at hpath
    exact run_bind_of_error hpath
  · rw [hread] at hpath
    rw [run_bind_of_ok hpath, hrefusal]
    rw [← hc.root] at hbelow ⊢
    refine run_bind_of_error ?_
    rw [run_ofExcept, relativePath_of_not_liesBelow hp hbelow]

end Refused

/-- The query for the directory of a table freezes nothing. -/
theorem not_isFreeze_tableDataPath (db table : String) :
    ¬ IsFreeze (Query.tableDataPath db table) := by
  rintro (⟨db', table', h⟩ | ⟨db', table', partition, h⟩)
  · have htext : (Query.Statement.tableDataPath db table).text =
        (Query.Statement.freezeTable db' table').text := h
    cases Query.Statement.text_injective htext
  · have htext : (Query.Statement.tableDataPath db table).text =
        (Query.Statement.freezePartition db' table' partition).text := h
    cases Query.Statement.text_injective htext

/-- A table is frozen only if the engine says that it lies properly below the engine's directory.
Any other answer ends the operation with its own error, in the state that the one query left: over
no host is anything else asked, read or changed. And a freeze among the queries of the operation
means that the answer was such. -/
theorem freezeTable_only_below_root (config : Config) (db table : String) :
    (∀ {S : Type} {host : Host (StateM S)} {c : Controller (StateM S)}, c.Serves host config →
      ∀ s, ¬ Admits config.dataPath ((host.ask (Query.tableDataPath db table)).run s).1 →
        (c.freezeTable db table).run.run s
          = (.error (refusal config.dataPath db table
                ((host.ask (Query.tableDataPath db table)).run s).1),
              ((host.ask (Query.tableDataPath db table)).run s).2)) ∧
    ∀ {σ : Type} (engine : Engine σ) (delegate : Delegate) {c : Controller (StateM (World σ))},
      c.Serves (World.host engine delegate) config →
      ∀ w query, query ∈ ((c.freezeTable db table).run.run w).2.queries.drop w.queries.length →
        IsFreeze query →
        Admits config.dataPath (w.answer engine (Query.tableDataPath db table)) := by
  refine ⟨fun hc s h => freezeTable_of_not_admits hc h, ?_⟩
  intro σ engine delegate c hc w query hquery hfreeze
  by_contra hadmits
  rw [freezeTable_of_not_admits hc (s := w) hadmits, World.run_ask, World.queries_after,
    List.drop_left, List.mem_singleton] at hquery
  rw [hquery] at hfreeze
  exact not_isFreeze_tableDataPath db table hfreeze

/-- A table that a detour leads away from the engine's directory is refused after one query, and a
freeze among the queries of another operation tells that its table lies below. -/
theorem freezeTable_only_below_root_detour :
    ((serving (World.host (constantEngine (.ok (.text "/ch/data/../shadow"))) (.noted (.ok ())))
        ⟨⟨"/ch"⟩, "u", "g", {}, {}⟩ ⟨[21, 8], "21.8"⟩).freezeTable "db" "t").run.run
          ⟨(), .empty, [], [], [], [], []⟩
      = (.error (.pathViolation ⟨"/ch/data/../shadow"⟩ ⟨"/ch"⟩),
          ⟨(), .empty, [Query.tableDataPath "db" "t"], [], [], [], []⟩) ∧
    Admits ⟨"/ch"⟩ (World.answer (constantEngine (.ok (.text "/ch/data/db/t")))
      ⟨(), .empty, [], [], [], [], []⟩ (Query.tableDataPath "db" "t")) :=
  ⟨(freezeTable_only_below_root ⟨⟨"/ch"⟩, "u", "g", {}, {}⟩ "db" "t").1
      (serving_serves _ _ ⟨[21, 8], "21.8"⟩) _ (by decide +kernel),
    (freezeTable_only_below_root ⟨⟨"/ch"⟩, "u", "g", {}, {}⟩ "db" "t").2 _ (.noted (.ok ()))
      (serving_serves_of _ _ (ofVersion_of_lt (n := 21) (by decide) [8] "21.8")) _
      (Query.freezeTable "db" "t") (by decide +kernel) (.inl ⟨"db", "t", rfl⟩)⟩

end TableSnapshots.Controller
