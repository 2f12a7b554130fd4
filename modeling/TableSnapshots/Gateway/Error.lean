import TableSnapshots.Text.Digits
import TableSnapshots.Json.ReadError

/-!
# Failures of a query

Why a query has no usable answer: the server could not be reached, it answered with a failure, its
answer could not be decoded, or the answer has the wrong shape for what was asked.
-/

namespace TableSnapshots

/-- Why a query failed. -/
inductive GatewayError where
  /-- The request could not be sent, or no response came. -/
  | transport (reason : String)
  /-- The server answered with this status and body. -/
  | server (status : Nat) (body : String)
  /-- The answer should have been JSON and is not. -/
  | decode (error : Json.ReadError)
  /-- The answer does not have the shape that the query calls for. -/
  | unexpected (what : String)
  deriving Repr

namespace GatewayError

/-- The text of a failure in messages. -/
def message : GatewayError → String
  | transport reason => "HTTP error: " ++ reason
  | server status body => "Server error (" ++ Text.decimal status ++ "): " ++ body
  | decode error => "Failed to decode response: " ++ error.message
  | unexpected what => "Unexpected response: " ++ what

end GatewayError

end TableSnapshots
