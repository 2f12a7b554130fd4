import TableSnapshots.Proofs.Controller.Operation

/-!
# Formats of answers

A server answers with a body, and the format in which this is read is guessed from the query
(`AnswersByBody`). The guess and what an operation needs of the answer are made in different places
and have to agree: otherwise an operation would fail on any answer. They do, for every operation and
whatever names it is for (`formats_agree`). Such an answer can be other than expected in what it
says, never in its format; and if no query of an operation asks for JSON, no answer is undecodable.
-/

namespace TableSnapshots

open Controller (Op serving serving_serves)

variable {σ : Type} {α : Type} {engine : Engine σ}

/-- An answer that is read from the body of a response to the query, or says why there is none. -/
def IsByBody (query : String) (answer : Except GatewayError Reply) : Prop :=
  (∃ body, answer = Reply.ofBody query body) ∨ (∃ reason, answer = .error (.transport reason)) ∨
    ∃ status text, answer = .error (.server status text)

/-- An engine all of whose answers are so. -/
def AnswersByBody (engine : Engine σ) : Prop :=
  ∀ query s t, IsByBody query (engine query s t).1

/-- The answers over HTTP are, whatever the server does. -/
theorem answersByBody_http (client : ClientConfig)
    (send : Http.Request → StateM (σ × Tree) (Except String Http.Response)) :
    AnswersByBody fun query s t => (Http.ask client send query).run (s, t) := by
  intro query s t
  dsimp only
  unfold Http.ask
  cases hrequest : Http.request client query with
  | error e =>
    have htransport : e = .transport "builder error" := by
      unfold Http.request at hrequest
      split at hrequest
      · cases hrequest
        rfl
      · split at hrequest <;> cases hrequest
        rfl
    rw [htransport]
    exact .inr (.inl ⟨_, rfl⟩)
  | ok req =>
    dsimp only
    rcases hsend : (send req).run (s, t) with ⟨r, s'⟩
    rw [run_bind_of_eq hsend]
    cases r with
    | error reason => exact .inr (.inl ⟨reason, rfl⟩)
    | ok response =>
      change IsByBody query (response.reply query)
      unfold Http.Response.reply
      dsimp only
      split
      · exact .inl ⟨_, rfl⟩
      · exact .inr (.inr ⟨_, _, rfl⟩)

/-- A body that is not to be read as JSON is a text. -/
theorem ofBody_of_not_expectsJson {query : String} (h : Reply.expectsJson query = false)
    (body : String) : Reply.ofBody query body = .ok (.text (Text.trim body)) :=
  if_neg (by simp [h])

/-- A body that is to be read as JSON is JSON, or cannot be decoded. -/
theorem ofBody_of_expectsJson {query : String} (h : Reply.expectsJson query = true)
    (body : String) :
    Reply.ofBody query body = match Json.parse body with
      | .ok v => .ok (.json v)
      | .error e => .error (.decode e) :=
  if_pos h

/-- An answer by a body is in the format that suits the query. -/
theorem IsByBody.inFormat {query : String} {reply : Reply} (h : IsByBody query (.ok reply))
    {need : Need} (hsuits : need.Suits query) : need.InFormat reply := by
  obtain ⟨body, hbody⟩ : ∃ body, .ok reply = Reply.ofBody query body := by
    rcases h with hbody | ⟨_, h⟩ | ⟨_, _, h⟩
    · exact hbody
    · cases h
    · cases h
  have htext : Reply.expectsJson query = false → ∃ s, reply = .text s := by
    intro hquery
    rw [ofBody_of_not_expectsJson hquery] at hbody
    exact ⟨_, Except.ok.inj hbody⟩
  cases need with
  | answer => trivial
  | text => exact htext hsuits
  | place => exact htext hsuits
  | count => exact htext hsuits
  | column name =>
    rw [ofBody_of_expectsJson hsuits] at hbody
    cases hparse : Json.parse body with
    | ok v =>
      rw [hparse] at hbody
      exact ⟨v, Except.ok.inj hbody⟩
    | error e =>
      rw [hparse] at hbody
      cases hbody

/-- A failure by a body does not complain about the format, and only JSON is undecodable. -/
theorem IsByBody.of_error {query : String} {e : GatewayError} (h : IsByBody query (.error e)) :
    ¬ e.IsMismatch ∧ ∀ d, e = .decode d → Reply.expectsJson query = true := by
  rcases h with ⟨body, hbody⟩ | ⟨reason, h⟩ | ⟨status, text, h⟩
  · cases hquery : Reply.expectsJson query with
    | false =>
      rw [ofBody_of_not_expectsJson hquery] at hbody
      cases hbody
    | true =>
      rw [ofBody_of_expectsJson hquery] at hbody
      split at hbody
      · cases hbody
      · cases hbody
        exact ⟨GatewayError.not_isMismatch_of_ne nofun, fun _ _ => rfl⟩
  · cases h
    exact ⟨GatewayError.not_isMismatch_of_ne nofun, nofun⟩
  · cases h
    exact ⟨GatewayError.not_isMismatch_of_ne nofun, nofun⟩

/-- A conversation with an engine that answers by bodies never fails for the format of an answer,
and for an undecodable one only if it asks for JSON. -/
theorem Conversation.not_isMismatch {Sends : String → Prop} {needs : List Need}
    {x : Op (StateM (World σ)) α} (h : Conversation engine Sends needs x)
    (hengine : AnswersByBody engine) {w : World σ} {e : GatewayError}
    (he : (x.run.run w).1 = .error (.gateway e)) :
    ¬ e.IsMismatch ∧
      ∀ d, e = .decode d → ∃ query, Sends query ∧ Reply.expectsJson query = true := by
  induction h generalizing w with
  | concludes h => exact absurd he ((h w).2 e)
  | looks hx _ ih =>
    obtain ⟨r, hr, hgateway⟩ := hx w
    cases r with
    | ok a =>
      rw [Controller.run_bind_of_ok hr] at he
      exact ih a he
    | error e' =>
      rw [Controller.run_bind_of_error hr] at he
      cases he
      exact absurd rfl (hgateway e)
  | @asks _ _ needs x f query hsends hsuits hx _ ih =>
    obtain ⟨read, hread, hrun⟩ := hx
    have hw := hrun w
    have hbody : IsByBody query (w.answer engine query) := hengine query w.engine w.tree
    cases hanswer : w.answer engine query with
    | error e' =>
      rw [hanswer] at hw hbody
      rw [Controller.run_bind_of_error hw] at he
      cases he
      exact ⟨hbody.of_error.1, fun d hd => ⟨query, hsends, hbody.of_error.2 d hd⟩⟩
    | ok reply =>
      rw [hanswer] at hw hbody
      change x.run.run w = ((read reply).mapError _, _) at hw
      cases hresult : read reply with
      | ok a =>
        rw [hresult] at hw
        rw [Controller.run_bind_of_ok hw] at he
        exact ih a he
      | error e' =>
        rw [hresult] at hw
        rw [Controller.run_bind_of_error hw] at he
        cases he
        -- The body gave an answer in the right format, so this is refused for what it says.
        obtain ⟨what, hwhat⟩ := hread.exists_of_error hresult
        refine ⟨hread.format reply e (hbody.inFormat hsuits) hresult, fun d hd => ?_⟩
        rw [hwhat] at hd
        cases hd

/-- An engine that answers every query by the same body. -/
def bodyEngine (body : String) : Engine Unit :=
  fun query state tree => (Reply.ofBody query body, state, tree)

/-- It answers by bodies. -/
theorem answersByBody_bodyEngine (body : String) : AnswersByBody (bodyEngine body) :=
  fun _ _ _ => .inl ⟨body, rfl⟩

/-- The format in which an answer is read and the format that is needed agree. The answers to the
queries for lists are read as JSON and those to all other statements as text, whatever names are
filled in; only for the statement of a partition it depends on how this ends. So no operation over
bodies, and over HTTP in particular, fails for the format of an answer, nor does making a
controller. Whatever body comes with success, freezing a whole table and attaching a part were
answered by a text, and neither operation fails for an answer that cannot be decoded. -/
theorem formats_agree :
    (∀ (s : Query.Statement) (body : String),
      (s.asksJson = true → Reply.ofBody s.text body = match Json.parse body with
        | .ok v => .ok (.json v)
        | .error e => .error (.decode e)) ∧
      (s.asksJson = false → Reply.ofBody s.text body = .ok (.text (Text.trim body)))) ∧
    (∀ {σ : Type} (client : ClientConfig)
      (send : Http.Request → StateM (σ × Tree) (Except String Http.Response)),
      AnswersByBody fun query s t => (Http.ask client send query).run (s, t)) ∧
    (∀ {σ : Type} (engine : Engine σ) (delegate : Delegate) (config : Config)
      (c : Controller (StateM (World σ))), AnswersByBody engine →
      c.Serves (World.host engine delegate) config → ∀ w : World σ,
      (∀ (op : Operation) (e : GatewayError),
        ((op.perform c).run.run w).1 = .error (.gateway e) → ¬ e.IsMismatch) ∧
      (∀ e, ((Controller.connect (World.host engine delegate) config).run.run w).1
        = .error (.gateway e) → ¬ e.IsMismatch) ∧
      (∀ db table part d,
        ((c.attachPart db table part).run.run w).1 ≠ .error (.gateway (.decode d))) ∧
      (c.strategy = .wholeTable → ∀ db table d,
        ((c.freezeTable db table).run.run w).1 ≠ .error (.gateway (.decode d)))) ∧
    ∀ (db table part : String) (response : Http.Response),
      Http.isSuccess response.status = true →
      response.reply (Query.freezeTable db table)
          = .ok (.text (Text.trim (Text.ofMarked response.body))) ∧
        response.reply (Query.attachPart db table part)
          = .ok (.text (Text.trim (Text.ofMarked response.body))) := by
  have hformat := Query.expectsJson_text
  refine ⟨fun s body => ⟨fun h => ?_, fun h => ?_⟩,
    fun client send => answersByBody_http client send,
    fun engine delegate config c hengine hc w => ⟨fun op e he => ?_, fun e he => ?_,
      fun db table part d he => ?_, fun hstrategy db table d he => ?_⟩,
    fun db table part response hsuccess => ⟨?_, ?_⟩⟩
  · rw [← hformat] at h
    exact ofBody_of_expectsJson h body
  · rw [← hformat] at h
    exact ofBody_of_not_expectsJson h body
  · exact ((op.converses hc).not_isMismatch hengine he).1
  · exact ((Controller.converses_connect delegate config).not_isMismatch hengine he).1
  · obtain ⟨query, rfl, hjson⟩ :=
      (((Operation.attachPart db table part).converses hc).not_isMismatch hengine he).2 d rfl
    have hfalse : true = false := hjson.symm.trans (hformat (.attachPart db table part))
    cases hfalse
  · obtain ⟨query, hsends, hjson⟩ :=
      (((Operation.freezeTable db table).converses hc).not_isMismatch hengine he).2 d rfl
    rw [hstrategy] at hsends
    rcases hsends with rfl | hfreeze
    · have hfalse : true = false := hjson.symm.trans (hformat (.tableDataPath db table))
      cases hfalse
    · have hquery : query = Query.freezeTable db table := hfreeze
      subst hquery
      have hfalse : true = false := hjson.symm.trans (hformat (.freezeTable db table))
      cases hfalse
  · exact (if_pos hsuccess).trans (ofBody_of_not_expectsJson (hformat (.freezeTable db table)) _)
  · exact (if_pos hsuccess).trans
      (ofBody_of_not_expectsJson (hformat (.attachPart db table part)) _)

/-- A partition may end in what asks for JSON; an empty answer is refused, but not for its format; a
body that is no JSON does not make freezing a whole table fail to decode it, and comes back from
attaching a part. -/
theorem formats_agree_braces :
    let c (body : String) : Controller (StateM (World Unit)) :=
      { serving (World.host (bodyEngine body) (.noted (.ok ()))) ⟨⟨"/ch"⟩, "u", "g", {}, {}⟩
          ⟨[21, 8], "21.8"⟩ with strategy := .wholeTable }
    let w : World Unit := ⟨(), .empty, [], [], [], [], []⟩
    (Reply.ofBody (Query.freezePartition "db" "t" "1 format json ") "7"
        = match Json.parse "7" with
          | .ok v => .ok (.json v)
          | .error e => .error (.decode e)) ∧
      (∃ e, (((Operation.tableDataPath "db" "t").perform (c "")).run.run w).1
        = .error (.gateway e) ∧ ¬ e.IsMismatch) ∧
      (∀ d, (((c "\x7b").freezeTable "db" "t").run.run w).1 ≠ .error (.gateway (.decode d))) ∧
      (Http.Response.mk 200 "\x7b".toUTF8).reply (Query.attachPart "db" "t" "p")
        = .ok (.text (Text.trim (Text.ofMarked "\x7b".toUTF8))) := by
  intro c w
  obtain ⟨hstatements, -, hoperations, hresponses⟩ := formats_agree
  have hserves := fun body => Controller.serving_serves_of
    (World.host (bodyEngine body) (.noted (.ok ()))) ⟨⟨"/ch"⟩, "u", "g", {}, {}⟩
    (Controller.ofVersion_of_lt (n := 21) (by decide) [8] "21.8")
  have hrun := Controller.run_tableDataPath (c "") "db" "t" w
  have hanswer : (((c "").host.ask (Query.tableDataPath "db" "t")).run w).1 = .ok (.text "") :=
    ofBody_of_not_expectsJson (Query.expectsJson_text (.tableDataPath "db" "t")) ""
  rw [hanswer] at hrun
  have hresult := congrArg Prod.fst hrun
  refine ⟨(hstatements (.freezePartition "db" "t" "1 format json ") "7").1 (by decide +kernel),
    ⟨_, hresult, ?_⟩, ?_, (hresponses "db" "t" "p" ⟨200, "\x7b".toUTF8⟩ (by decide)).2⟩
  · exact (hoperations (bodyEngine "") (.noted (.ok ())) _ (c "") (answersByBody_bodyEngine "")
      (hserves "") w).1 (.tableDataPath "db" "t") _ hresult
  · exact (hoperations (bodyEngine "\x7b") (.noted (.ok ())) _ (c "\x7b")
      (answersByBody_bodyEngine "\x7b") (hserves "\x7b") w).2.2.2 rfl "db" "t"

end TableSnapshots
