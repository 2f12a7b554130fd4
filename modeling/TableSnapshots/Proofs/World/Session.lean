import TableSnapshots.World

/-!
# A world in the course of a session

What a world is like after some queries, sent one after the other: each one finds the engine and the
files as the one before left them. The record of queries grows by exactly these (`queries_after`).
-/

namespace TableSnapshots

/-- After a step the rest goes on with its result and from its state. -/
theorem run_bind_of_eq {S α β : Type} {x : StateM S α} {f : α → StateM S β} {s s' : S} {a : α}
    (h : x.run s = (a, s')) : (x >>= f).run s = (f a).run s' := by
  rw [StateT.run_bind, h]
  rfl

/-- An engine that gives one answer to every query and leaves everything as it is. -/
def constantEngine (answer : Except GatewayError Reply) : Engine Unit :=
  fun _ state tree => (answer, state, tree)

namespace World

variable {σ : Type}

/-- The answer that a query gets. -/
def answer (engine : Engine σ) (w : World σ) (query : String) : Except GatewayError Reply :=
  (ask engine query w).1

/-- The world after some queries. -/
def after (engine : Engine σ) (w : World σ) (queries : List String) : World σ :=
  queries.foldl (fun w query => (ask engine query w).2) w

/-- A query through the host of a world gets the engine's answer. -/
theorem run_ask (engine : Engine σ) (delegate : Delegate) (w : World σ) (query : String) :
    ((host engine delegate).ask query).run w
      = (w.answer engine query, w.after engine [query]) := rfl

/-- No query changes nothing. -/
@[simp]
theorem after_nil (engine : Engine σ) (w : World σ) : w.after engine [] = w := rfl

/-- The first query is sent first. -/
theorem after_cons (engine : Engine σ) (w : World σ) (query : String) (queries : List String) :
    w.after engine (query :: queries) = (w.after engine [query]).after engine queries := rfl

/-- Queries that follow others start where these ended. -/
theorem after_append (engine : Engine σ) (w : World σ) (queries more : List String) :
    w.after engine (queries ++ more) = (w.after engine queries).after engine more := by
  simp [after]

/-- The queries are noted in their order. -/
@[simp]
theorem queries_after (engine : Engine σ) (w : World σ) (queries : List String) :
    (w.after engine queries).queries = w.queries ++ queries := by
  induction queries generalizing w with
  | nil => simp
  | cons query queries ih =>
    rw [after_cons, ih]
    simp [after, ask]

/-- What no single query changes is the same after any number of them. -/
theorem after_preserves {β : Type} {engine : Engine σ} {f : World σ → β}
    (hf : ∀ w query, f (ask engine query w).2 = f w) (w : World σ) (queries : List String) :
    f (w.after engine queries) = f w := by
  induction queries generalizing w with
  | nil => rfl
  | cons query queries ih =>
    rw [after_cons, ih]
    exact hf w query

/-- Queries ask for no change of owners. -/
@[simp]
theorem requests_after (engine : Engine σ) (w : World σ) (queries : List String) :
    (w.after engine queries).requests = w.requests :=
  after_preserves (fun _ _ => rfl) w queries

/-- Nor do they wait. -/
@[simp]
theorem waits_after (engine : Engine σ) (w : World σ) (queries : List String) :
    (w.after engine queries).waits = w.waits :=
  after_preserves (fun _ _ => rfl) w queries

/-- Nor do they print a result. -/
@[simp]
theorem printed_after (engine : Engine σ) (w : World σ) (queries : List String) :
    (w.after engine queries).printed = w.printed :=
  after_preserves (fun _ _ => rfl) w queries

/-- Nor do they report what was done. -/
@[simp]
theorem reported_after (engine : Engine σ) (w : World σ) (queries : List String) :
    (w.after engine queries).reported = w.reported :=
  after_preserves (fun _ _ => rfl) w queries

/-- Reading a file reads it in the tree. -/
theorem run_readFile (engine : Engine σ) (delegate : Delegate) (w : World σ) (p : Path) :
    ((host engine delegate).readFile p).run w = (w.tree.readFile p, w) := rfl

end World

end TableSnapshots
