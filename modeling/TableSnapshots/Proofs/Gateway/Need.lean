import TableSnapshots.Controller.Metadata
import TableSnapshots.Proofs.Each

/-!
# What is needed of an answer

Every answer to a query is read in one of a few ways, each of which needs something of it: that it
is a text, that the text is not empty or writes a number, or that it is JSON with rows that have a
certain column (`Need.Met`). A way to read fits a need if it succeeds with exactly the answers that
meet it and refuses the others as not expected (`Need.Reads`). An answer that is in the right
format, text or JSON, may still be refused, but then not for its format.
-/

namespace TableSnapshots

/-- What is needed of an answer. -/
inductive Need where
  /-- Nothing but that there is one. -/
  | answer
  /-- A text. -/
  | text
  /-- A text that is not empty. -/
  | place
  /-- The decimal of a number. -/
  | count
  /-- Rows with a column of this name. -/
  | column (name : String)
  deriving DecidableEq, Repr

/-- The failures that say that an answer is in the wrong format. -/
def GatewayError.IsMismatch (e : GatewayError) : Prop :=
  e = .unexpected "expected a JSON response" ∨ e = .unexpected "expected a text response"

/-- No other failure says so. -/
theorem GatewayError.not_isMismatch_of_ne {e : GatewayError} (h : ∀ what, e ≠ .unexpected what) :
    ¬ e.IsMismatch := by
  rintro (heq | heq)
  · exact h _ heq
  · exact h _ heq

namespace Need

variable {α : Type} {need : Need} {read : Reply → Except GatewayError α}

/-- A JSON answer has no data, or a list of records of which each has the column. -/
def HasColumn (name : String) (v : Json) : Prop :=
  ∀ data, v.field? "data" = some data →
    ∃ items, data = .list items ∧
      ∀ item ∈ items, (∃ members, item = .record members) ∧ ∃ value, item.field? name = some value

/-- The answers that serve. -/
def Met : Need → Reply → Prop
  | answer, _ => True
  | text, reply => ∃ s, reply = .text s
  | place, reply => ∃ s, reply = .text s ∧ s ≠ ""
  | count, reply => ∃ s n, reply = .text s ∧ Text.readUnsigned? 64 s.toList = some n
  | column name, reply => ∃ v, reply = .json v ∧ HasColumn name v

/-- The answers in the right format. -/
def InFormat : Need → Reply → Prop
  | answer, _ => True
  | text, reply | place, reply | count, reply => ∃ s, reply = .text s
  | column _, reply => ∃ v, reply = .json v

/-- A way to read answers that fits a need. -/
structure Reads (need : Need) (read : Reply → Except GatewayError α) : Prop where
  /-- An answer that serves is read. -/
  met : ∀ reply, need.Met reply → ∃ a, read reply = .ok a
  /-- Any other answer is refused as not expected. -/
  unmet : ∀ reply, ¬ need.Met reply → ∃ what, read reply = .error (.unexpected what)
  /-- In the right format it is not refused for its format. -/
  format : ∀ reply e, need.InFormat reply → read reply = .error e → ¬ e.IsMismatch

/-- What is refused is refused as not expected. -/
theorem Reads.exists_of_error (h : need.Reads read) {reply : Reply} {e : GatewayError}
    (he : read reply = .error e) : ∃ what, e = .unexpected what := by
  by_cases hmet : need.Met reply
  · obtain ⟨a, ha⟩ := h.met reply hmet
    rw [ha] at he
    cases he
  · obtain ⟨what, hwhat⟩ := h.unmet reply hmet
    rw [hwhat] at he
    cases he
    exact ⟨what, rfl⟩

/-- The result can be put into another form. -/
theorem Reads.map {β : Type} (h : need.Reads read) (f : α → β) :
    need.Reads fun reply => (read reply).map f where
  met reply hmet := by
    obtain ⟨a, ha⟩ := h.met reply hmet
    exact ⟨f a, by rw [ha]; rfl⟩
  unmet reply hmet := by
    obtain ⟨what, hwhat⟩ := h.unmet reply hmet
    exact ⟨what, by rw [hwhat]; rfl⟩
  format reply e hformat he := by
    cases hread : read reply with
    | ok a =>
      rw [hread] at he
      cases he
    | error e' =>
      rw [hread] at he
      cases he
      exact h.format reply e hformat hread

/-! ## Texts of other failures -/

/-- A text that does not begin like another one is not that one, whatever follows. -/
theorem append_ne_of_not_prefix {start : String} (s : String) {t : String}
    (h : start.toList.isPrefixOf t.toList = false) : start ++ s ≠ t := by
  rintro rfl
  rw [String.toList_append, Bool.eq_false_iff, ne_eq, List.isPrefixOf_iff_prefix] at h
  exact h (List.prefix_append _ _)

/-- What an answer in the right format is refused for begins in another way. -/
theorem not_isMismatch_of_start {start : String} (s : String)
    (h : start ∈ ["row is not an object: ", "data is not an array: ", "missing column ",
      "no data path for ", "expected a count, got "]) :
    ¬ (GatewayError.unexpected (start ++ s)).IsMismatch := by
  have hstarts : ∀ start ∈ ["row is not an object: ", "data is not an array: ", "missing column ",
      "no data path for ", "expected a count, got "],
      start.toList.isPrefixOf "expected a JSON response".toList = false ∧
        start.toList.isPrefixOf "expected a text response".toList = false := by
    decide +kernel
  obtain ⟨hjson, htext⟩ := hstarts start h
  rintro (heq | heq)
  · exact append_ne_of_not_prefix s hjson (GatewayError.unexpected.inj heq)
  · exact append_ne_of_not_prefix s htext (GatewayError.unexpected.inj heq)

/-! ## Texts -/

/-- Any answer will do where it is not looked at. -/
theorem reads_answer : Need.answer.Reads Except.ok where
  met reply _ := ⟨reply, rfl⟩
  unmet _ h := absurd trivial h
  format _ _ _ h := by cases h

/-- Text is read where a text is needed. -/
theorem reads_text : Need.text.Reads Reply.toText where
  met := by
    rintro _ ⟨s, rfl⟩
    exact ⟨s, rfl⟩
  unmet reply h := by
    cases reply with
    | json v => exact ⟨_, rfl⟩
    | text s => exact absurd ⟨s, rfl⟩ h
  format := by
    rintro _ e ⟨s, rfl⟩ h
    cases h

/-- The number that was counted is read from a text. -/
theorem reads_count : Need.count.Reads fun reply => reply.toText >>= Controller.readCount where
  met := by
    rintro _ ⟨s, n, rfl, hn⟩
    refine ⟨n, ?_⟩
    change Controller.readCount s = _
    unfold Controller.readCount
    rw [hn]
  unmet reply h := by
    cases reply with
    | json v => exact ⟨_, rfl⟩
    | text s =>
      cases hn : Text.readUnsigned? 64 s.toList with
      | some n => exact absurd ⟨s, n, rfl, hn⟩ h
      | none =>
        refine ⟨"expected a count, got " ++ Text.quoted s, (?_ : Controller.readCount s = _)⟩
        unfold Controller.readCount
        rw [hn]
  format := by
    rintro _ e ⟨s, rfl⟩ h
    change Controller.readCount s = _ at h
    unfold Controller.readCount at h
    split at h
    · cases h
    · cases h
      exact not_isMismatch_of_start _ (by simp)

/-! ## Rows -/

/-- A row is taken as it is, if it is a record. -/
theorem row_cases (item : Json) :
    (Reply.row item = .ok item ∧ ∃ members, item = .record members) ∨
      Reply.row item = .error (.unexpected ("row is not an object: " ++ item.compact)) ∧
        ¬ ∃ members, item = .record members := by
  cases item with
  | record members => exact .inl ⟨rfl, members, rfl⟩
  | _ => exact .inr ⟨rfl, by rintro ⟨members, h⟩; cases h⟩

/-- Rows are taken as they are, if they all are records. -/
theorem mapM_row_cases (items : List Json) :
    (items.mapM Reply.row = .ok items ∧ ∀ item ∈ items, ∃ members, item = .record members) ∨
      ∃ item ∈ items, (¬ ∃ members, item = .record members) ∧
        items.mapM Reply.row
          = .error (.unexpected ("row is not an object: " ++ item.compact)) := by
  induction items with
  | nil => exact .inl ⟨rfl, fun item hitem => absurd hitem List.not_mem_nil⟩
  | cons item items ih =>
    rw [List.mapM_cons]
    rcases row_cases item with ⟨hrow, hrecord⟩ | ⟨hrow, hrecord⟩
    · rcases ih with ⟨hrows, hall⟩ | ⟨item', hmem, hrecord', hrows⟩
      · rw [hrow, hrows]
        exact .inl ⟨rfl, List.forall_mem_cons.mpr ⟨hrecord, hall⟩⟩
      · rw [hrow, hrows]
        exact .inr ⟨item', List.mem_cons_of_mem item hmem, hrecord', rfl⟩
    · rw [hrow]
      exact .inr ⟨item, List.mem_cons_self, hrecord, rfl⟩

/-- The value of a row in a column is there, or the column is missing. -/
theorem cell_cases (name : String) (item : Json) :
    ((∃ s, Reply.cell name item = .ok s) ∧ ∃ value, item.field? name = some value) ∨
      Reply.cell name item = .error (.unexpected ("missing column " ++ Text.quoted name)) ∧
        item.field? name = none := by
  unfold Reply.cell
  cases hfield : item.field? name with
  | none => exact .inr ⟨rfl, rfl⟩
  | some value => cases value <;> exact .inl ⟨⟨_, rfl⟩, _, rfl⟩

/-- A column of a JSON answer is read, or the answer is refused, but not for its format. -/
theorem column_json_cases (name : String) (v : Json) :
    ((∃ names, Reply.column name (.json v) = .ok names) ∧ HasColumn name v) ∨
      ∃ what, Reply.column name (.json v) = .error (.unexpected what) ∧ ¬ HasColumn name v ∧
        ¬ (GatewayError.unexpected what).IsMismatch := by
  unfold Reply.column Reply.rows
  dsimp only
  cases hdata : v.field? "data" with
  | none => exact .inl ⟨⟨[], rfl⟩, fun data h => by rw [hdata] at h; cases h⟩
  | some data =>
    have hcolumn : HasColumn name v ↔ ∃ items, data = .list items ∧ ∀ item ∈ items,
        (∃ members, item = .record members) ∧ ∃ value, item.field? name = some value :=
      ⟨fun h => h data hdata, fun h data' h' => Option.some.inj (hdata.symm.trans h') ▸ h⟩
    rw [hcolumn]
    cases data with
    | list items =>
      dsimp only
      rcases mapM_row_cases items with ⟨hrows, hrecords⟩ | ⟨item, hitem, hrecord, hrows⟩
      · rw [hrows]
        change ((∃ names, items.mapM (Reply.cell name) = .ok names) ∧ _) ∨
          ∃ what, items.mapM (Reply.cell name) = _ ∧ _
        -- All rows are records, so the answer serves if each of them has the column.
        rcases mapM_except_cases (Reply.cell name) items with
          ⟨hnames, hcells⟩ | ⟨item, hitem, e, hcell, hnames⟩
        · refine .inl ⟨hnames, items, rfl, fun item hitem => ⟨hrecords item hitem, ?_⟩⟩
          obtain ⟨s, hs⟩ := hcells item hitem
          rcases cell_cases name item with ⟨-, hvalue⟩ | ⟨herror, -⟩
          · exact hvalue
          · rw [herror] at hs
            cases hs
        · rcases cell_cases name item with ⟨⟨s, hs⟩, -⟩ | ⟨herror, hnone⟩
          · rw [hs] at hcell
            cases hcell
          · rw [herror] at hcell
            cases hcell
            refine .inr ⟨_, hnames, ?_, not_isMismatch_of_start _ (by simp)⟩
            rintro ⟨items', hitems', hall⟩
            cases hitems'
            obtain ⟨-, value, hvalue⟩ := hall item hitem
            rw [hnone] at hvalue
            cases hvalue
      · rw [hrows]
        refine .inr ⟨_, rfl, ?_, not_isMismatch_of_start _ (by simp)⟩
        rintro ⟨items', hitems', hall⟩
        cases hitems'
        exact hrecord (hall item hitem).1
    | _ =>
      refine .inr ⟨_, rfl, ?_, not_isMismatch_of_start _ (by simp)⟩
      rintro ⟨items, hitems, -⟩
      cases hitems

/-- A column is read where one is needed. -/
theorem reads_column (name : String) : (Need.column name).Reads (Reply.column name) where
  met := by
    rintro _ ⟨v, rfl, h⟩
    rcases column_json_cases name v with ⟨hok, -⟩ | ⟨-, -, hnot, -⟩
    · exact hok
    · exact absurd h hnot
  unmet reply h := by
    cases reply with
    | text s => exact ⟨_, rfl⟩
    | json v =>
      rcases column_json_cases name v with ⟨-, hcolumn⟩ | ⟨what, hwhat, -⟩
      · exact absurd ⟨v, rfl, hcolumn⟩ h
      · exact ⟨what, hwhat⟩
  format := by
    rintro _ e ⟨v, rfl⟩ h
    rcases column_json_cases name v with ⟨⟨names, hok⟩, -⟩ | ⟨what, hwhat, -, hmismatch⟩
    · rw [hok] at h
      cases h
    · rw [hwhat] at h
      cases h
      exact hmismatch

end Need

end TableSnapshots
