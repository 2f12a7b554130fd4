import TableSnapshots.Config
import TableSnapshots.Gateway.Reply
import TableSnapshots.Gateway.Url
import TableSnapshots.Text.Marked

/-!
# Queries over HTTP

A query is the body of a `POST` request, with the user and the password in headers of their own. The
server's status says whether the body of the response is the answer or the text of a failure. The
body is UTF-8, or a mark at its start tells its encoding; a character set that a header of the
response may name is left out here.
-/

namespace TableSnapshots.Http

/-- A request to a server. -/
structure Request where
  url : Url
  method : String := "POST"
  /-- The header `X-ClickHouse-User`. -/
  user : String
  /-- The header `X-ClickHouse-Key`. -/
  key : String
  body : String
  deriving DecidableEq, Repr

/-- A response of a server. -/
structure Response where
  status : Nat
  body : ByteArray

/-- Whether a text can be the value of a header: it has no control characters but tabs. -/
def isHeaderValue (s : String) : Bool :=
  s.toUTF8.toList.all fun b => (32 ≤ b && b ≠ 127) || b = 9

/-- The request for a query, if the address can be read and the headers can be sent. -/
def request (client : ClientConfig) (query : String) : Except GatewayError Request :=
  match Url.ofText? client.url with
  | none => .error (.transport "builder error")
  | some url =>
    if isHeaderValue client.user && isHeaderValue client.password then
      .ok { url, user := client.user, key := client.password, body := query }
    else .error (.transport "builder error")

/-- Whether a status means success. -/
def isSuccess (status : Nat) : Bool :=
  200 ≤ status && status < 300

/-- The answer that a response to a query is. -/
def Response.reply (query : String) (r : Response) : Except GatewayError Reply :=
  let body := Text.ofMarked r.body
  if isSuccess r.status then Reply.ofBody query body
  else .error (.server r.status (Text.trim body))

variable {m : Type → Type} [Monad m]

/-- Send a query through `send`, which gives the response or says why there is none. -/
def ask (client : ClientConfig) (send : Request → m (Except String Response)) (query : String) :
    m (Except GatewayError Reply) := do
  match request client query with
  | .error e => return .error e
  | .ok req =>
    match ← send req with
    | .error reason => return .error (.transport reason)
    | .ok response => return response.reply query

end TableSnapshots.Http
