import TableSnapshots.Query
import TableSnapshots.Rehearsal.Edit
import TableSnapshots.Text.Lossy
import TableSnapshots.World

/-!
# Scripted engines

An engine for rehearsals that follows a script. A rule of the script says for which queries it is,
how often it may be used, how the files change, and what is answered. A query takes the first rule
that is for it and not yet used up.
-/

namespace TableSnapshots.Rehearsal

/-- Where in a query the text of a rule has to stand. -/
inductive Position where
  | anywhere
  | start
  | finish
  | whole
  deriving DecidableEq, Repr

/-- What a rule answers. -/
inductive Response where
  /-- A response body, to be read in the format of the query. -/
  | body (s : String)
  /-- A text as it is. -/
  | text (s : String)
  /-- A JSON value. -/
  | json (v : Json)
  /-- An answer of the wrong shape. -/
  | unexpected (what : String)
  /-- A failure of the server. -/
  | server (status : Nat) (body : String)
  /-- A response body of any bytes. -/
  | raw (bytes : ByteArray)

/-- A rule of a script. -/
structure Rule where
  text : String
  position : Position
  /-- How often the rule may be used; always, if there is no number. -/
  times : Option Nat
  response : Response
  edits : List Edit

/-- A script. -/
structure Script where
  /-- What the version query gives if no rule is for it. -/
  version : Option String
  rules : List Rule

/-- Whether `needle` stands somewhere in `cs`. -/
def occursIn (needle : List Char) : List Char → Bool
  | [] => needle.isEmpty
  | c :: cs => needle.isPrefixOf (c :: cs) || occursIn needle cs

/-- Whether a rule is for a query. -/
def Rule.matches (r : Rule) (query : String) : Bool :=
  match r.position with
  | .anywhere => occursIn r.text.toList query.toList
  | .start => r.text.toList.isPrefixOf query.toList
  | .finish => r.text.toList.isSuffixOf query.toList
  | .whole => r.text = query

/-- The answer of a rule to a query. -/
def Response.reply (query : String) : Response → Except GatewayError Reply
  | body s => Reply.ofBody query s
  | text s => .ok (.text s)
  | json v => .ok (.json v)
  | unexpected what => .error (.unexpected what)
  | server status answer => .error (.server status answer)
  | raw bytes => Reply.ofBody query (Text.lossy bytes)

namespace Script

/-- Take the first rule for a query that is not used up. With each rule goes how often it was used
before. -/
def take (query : String) : List (Rule × Nat) → Option Rule × List (Rule × Nat)
  | [] => (none, [])
  | (r, used) :: rest =>
    if r.matches query && r.times.all (used < ·) then (some r, (r, used + 1) :: rest)
    else
      let (found, rest) := take query rest
      (found, (r, used) :: rest)

/-- The rules before any query. -/
def fresh (s : Script) : List (Rule × Nat) :=
  s.rules.map (·, 0)

/-- The response to a query, with the changes to the files that come before it. -/
def respond (s : Script) (query : String) (rules : List (Rule × Nat)) :
    Response × List Edit × List (Rule × Nat) :=
  match take query rules with
  | (some r, rules) => (r.response, r.edits, rules)
  | (none, rules) =>
    match s.version with
    | some v =>
      if query = Query.version then (.text v, [], rules) else (.server 404 "no rule", [], rules)
    | none => (.server 404 "no rule", [], rules)

/-- The engine of a script, on files below `root`. -/
def engine (root : Path) (s : Script) : Engine (List (Rule × Nat)) :=
  fun query rules tree =>
    let (response, edits, rules) := s.respond query rules
    (response.reply query, rules, Edit.applyAll root edits tree)

end Script

end TableSnapshots.Rehearsal
