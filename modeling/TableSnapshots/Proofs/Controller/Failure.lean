import TableSnapshots.Proofs.Controller.Operation

/-!
# Failing queries

The first query that fails ends an operation, whichever operation it is and however many queries
came before: its failure is the result as it is, no query follows, and the world is as the engine
left it, so no owner was changed, no file was touched and nothing was waited for
(`EndsAtFailure`). An answer that does not serve ends the operation in the same way, as an answer
that was not expected. One step of a conversation does not go on from a failure
(`Conversation.endsAtFailure`), which carries this to queries in any number.
-/

namespace TableSnapshots

open Controller (Op serving serving_serves)

variable {σ : Type} {α : Type} {engine : Engine σ}

/-- What is left when a query ended an operation: the failure, and the world as the engine left it
after these queries. -/
structure EndedBy (engine : Engine σ) (w : World σ) (queries : List String) (e : GatewayError)
    (run : Except Error α × World σ) : Prop where
  result : run.1 = .error (.gateway e)
  /-- The files and the engine are as they were after the last query. -/
  world : run.2 = w.after engine queries
  /-- No owner was asked to be changed. -/
  requests : run.2.requests = w.requests
  /-- There was no other attempt to wait for. -/
  waits : run.2.waits = w.waits

/-- The first query that fails, or whose answer does not serve, is the last one that an operation
sends, and ends it. -/
def EndsAtFailure (engine : Engine σ) (needs : List Need) (x : Op (StateM (World σ)) α) : Prop :=
  ∀ w, ∃ queries, (x.run.run w).2.queries = w.queries ++ queries ∧
    ∀ before query after, queries = before ++ query :: after →
      (∀ e, (w.after engine before).answer engine query = .error e →
        after = [] ∧ EndedBy engine w queries e (x.run.run w)) ∧
      ∀ reply, (w.after engine before).answer engine query = .ok reply →
        ¬ (needs.getD before.length .answer).Met reply →
          after = [] ∧ ∃ what, EndedBy engine w queries (.unexpected what) (x.run.run w)

/-- A failure in the world that some queries left. -/
theorem endedBy_of_eq {w : World σ} {queries : List String} {e : GatewayError}
    {run : Except Error α × World σ} (h : run = (.error (.gateway e), w.after engine queries)) :
    EndedBy engine w queries e run := by
  subst h
  exact ⟨rfl, rfl, World.requests_after engine w queries, World.waits_after engine w queries⟩

/-- What ended an operation after its first query ended all of it. -/
theorem EndedBy.cons {w : World σ} {query : String} {queries : List String} {e : GatewayError}
    {run : Except Error α × World σ} (h : EndedBy engine (w.after engine [query]) queries e run) :
    EndedBy engine w (query :: queries) e run :=
  endedBy_of_eq (Prod.ext h.result h.world)

/-- The only query of an operation that it ended. -/
theorem forall_singleton_of_eq {w : World σ} {query : String} {needs : List Need}
    {e : GatewayError} {run : Except Error α × World σ}
    (hrun : run = (.error (.gateway e), w.after engine [query]))
    (hanswer : w.answer engine query = .error e ∨
      (∃ reply, w.answer engine query = .ok reply) ∧ ∃ what, e = .unexpected what) :
    ∀ before query' after, [query] = before ++ query' :: after →
      (∀ e', (w.after engine before).answer engine query' = .error e' →
        after = [] ∧ EndedBy engine w [query] e' run) ∧
      ∀ reply, (w.after engine before).answer engine query' = .ok reply →
        ¬ (needs.getD before.length .answer).Met reply →
          after = [] ∧ ∃ what, EndedBy engine w [query] (.unexpected what) run := by
  intro before query' after hsplit
  obtain ⟨rfl, rfl, rfl⟩ : before = [] ∧ query' = query ∧ after = [] := by
    rcases List.append_eq_cons_iff.mp hsplit.symm with ⟨hbefore, hcons⟩ | ⟨before', -, hrest⟩
    · cases hcons
      exact ⟨hbefore, rfl, rfl⟩
    · simp at hrest
  rw [World.after_nil]
  rcases hanswer with herror | ⟨⟨reply, hreply⟩, what, hwhat⟩
  · refine ⟨fun e' he' => ?_, fun reply hreply => ?_⟩
    · rw [herror] at he'
      cases he'
      exact ⟨rfl, endedBy_of_eq hrun⟩
    · rw [herror] at hreply
      cases hreply
  · refine ⟨fun e' he' => ?_, fun reply' _ _ => ⟨rfl, what, hwhat ▸ endedBy_of_eq hrun⟩⟩
    rw [hreply] at he'
    cases he'

/-- A conversation ends at the first failure. -/
theorem Conversation.endsAtFailure {Sends : String → Prop} {needs : List Need}
    {x : Op (StateM (World σ)) α} (h : Conversation engine Sends needs x) :
    EndsAtFailure engine needs x := by
  induction h with
  | concludes h =>
    intro w
    refine ⟨[], by rw [(h w).1, List.append_nil], fun before query after hsplit => ?_⟩
    simp at hsplit
  | looks hx _ ih =>
    -- No query was sent yet, and the world is the same for those that follow.
    intro w
    obtain ⟨r, hr, -⟩ := hx w
    cases r with
    | ok a =>
      rw [Controller.run_bind_of_ok hr]
      exact ih a w
    | error e =>
      rw [Controller.run_bind_of_error hr]
      refine ⟨[], (List.append_nil _).symm, fun before query after hsplit => ?_⟩
      simp at hsplit
  | @asks _ _ needs x f query _ _ hx _ ih =>
    intro w
    obtain ⟨read, hread, hrun⟩ := hx
    have hw := hrun w
    cases hanswer : w.answer engine query with
    | error e =>
      -- The query fails, and `f` is not reached.
      rw [hanswer] at hw
      have hend := Controller.run_bind_of_error (f := f) hw
      refine ⟨[query], ?_, forall_singleton_of_eq hend (.inl hanswer)⟩
      rw [hend, World.queries_after]
    | ok reply =>
      rw [hanswer] at hw
      change x.run.run w = ((read reply).mapError _, _) at hw
      cases hresult : read reply with
      | error e =>
        rw [hresult] at hw
        have hend := Controller.run_bind_of_error (f := f) hw
        refine ⟨[query], ?_, forall_singleton_of_eq hend
          (.inr ⟨⟨reply, hanswer⟩, hread.exists_of_error hresult⟩)⟩
        rw [hend, World.queries_after]
      | ok a =>
        rw [hresult] at hw
        rw [Controller.run_bind_of_ok hw]
        -- The answer served, so what ends the operation comes later.
        have hmet : (needs.headD .answer).Met reply := by
          by_contra hmet
          obtain ⟨what, hwhat⟩ := hread.unmet reply hmet
          rw [hwhat] at hresult
          cases hresult
        obtain ⟨queries, hqueries, hends⟩ := ih a (w.after engine [query])
        refine ⟨query :: queries, ?_, fun before query' after hsplit => ?_⟩
        · rw [hqueries, World.queries_after, List.append_assoc, List.singleton_append]
        · cases before with
          | nil =>
            cases hsplit
            rw [World.after_nil, hanswer]
            refine ⟨fun _ he => (by cases he), fun reply' hreply' hunmet => ?_⟩
            cases hreply'
            cases needs <;> exact absurd hmet hunmet
          | cons first before =>
            obtain ⟨rfl, hrest⟩ := List.cons.inj hsplit
            obtain ⟨herror, hunmet⟩ := hends before query' after hrest
            rw [World.after_cons]
            refine ⟨fun e he => ?_, fun reply' hreply' hnot => ?_⟩
            · obtain ⟨hlast, hended⟩ := herror e he
              exact ⟨hlast, hended.cons⟩
            · have hnot' : ¬ (needs.tail.getD before.length .answer).Met reply' := by
                cases needs <;> exact hnot
              obtain ⟨hlast, what, hended⟩ := hunmet reply' hreply' hnot'
              exact ⟨hlast, what, hended.cons⟩

/-- The first query that fails is the last one of any operation. Its failure is the result, as it
is, and so is the failure of an answer that does not serve; the world is as the engine left it. The
same holds of the query by which a controller is made. -/
theorem Operation.ends_at_first_failure {delegate : Delegate} {config : Config}
    {c : Controller (StateM (World σ))} (hc : c.Serves (World.host engine delegate) config)
    (op : Operation) :
    EndsAtFailure engine (op.needs c.strategy) (op.perform c) ∧
      EndsAtFailure engine [.text] (Controller.connect (World.host engine delegate) config) :=
  ⟨(op.converses hc).endsAtFailure, (Controller.converses_connect delegate config).endsAtFailure⟩

/-- A statement that the server refuses is sent once, and a count that is no number ends the
operation that needs it. -/
theorem Operation.ends_at_first_failure_refused :
    let c (answer : Except GatewayError Reply) : Controller (StateM (World Unit)) :=
      serving (World.host (constantEngine answer) (.noted (.ok ()))) ⟨⟨"/ch"⟩, "u", "g", {}, {}⟩
        ⟨[21, 8], "21.8"⟩
    let w : World Unit := ⟨(), .empty, [], [], [], [], []⟩
    (((Operation.attachPart "db" "t" "p").perform (c (.error (.server 500 "busy")))).run.run w).1
        = .error (.gateway (.server 500 "busy")) ∧
      ∃ what, (((Operation.tableExists "db" "t").perform (c (.ok (.text "many")))).run.run w).1
        = .error (.gateway (.unexpected what)) := by
  intro c w
  have hserves := fun answer => serving_serves
    (World.host (constantEngine answer) (.noted (.ok ()))) ⟨⟨"/ch"⟩, "u", "g", {}, {}⟩
    ⟨[21, 8], "21.8"⟩
  constructor
  · obtain ⟨queries, hqueries, hends⟩ :=
      (Operation.ends_at_first_failure (hserves (.error (.server 500 "busy")))
        (.attachPart "db" "t" "p")).1 w
    have hone : queries = [Query.attachPart "db" "t" "p"] := hqueries.symm
    exact ((hends [] _ [] hone).1 _ rfl).2.result
  · obtain ⟨queries, hqueries, hends⟩ :=
      (Operation.ends_at_first_failure (hserves (.ok (.text "many"))) (.tableExists "db" "t")).1 w
    have hone : queries = [Query.checkTable "db" "t"] := hqueries.symm
    have hunmet : ¬ Need.count.Met (.text "many") := by
      rintro ⟨_, n, ⟨⟩, hn⟩
      have hnone : Text.readUnsigned? 64 "many".toList = none := by decide +kernel
      rw [hnone] at hn
      cases hn
    obtain ⟨-, what, hended⟩ := (hends [] _ [] hone).2 _ rfl hunmet
    exact ⟨what, hended.result⟩

end TableSnapshots
