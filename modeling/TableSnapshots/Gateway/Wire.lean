import TableSnapshots.Gateway.Http

/-!
# Messages on the wire

The bytes of a request, and the response that some bytes are. A request asks the server to close the
connection after the response, so that the bytes of a response are all that arrives. The body of a
response comes in chunks, each after its length, or has the length that a header tells, or is all
that follows.

Of the headers of a response only those that tell where its body ends are looked at. In particular
the character set that `Content-Type` may name is not: a body is taken to be UTF-8 unless a mark at
its start tells another encoding, as engines send it. Nor is a request sent on to another address
that a response tells.
-/

namespace TableSnapshots.Http

/-- The value of the header `Host`; the port number is told if it is not that of the scheme. -/
def Request.hostHeader (r : Request) : String :=
  if r.url.portNumber = (if r.url.secure then 443 else 80) then r.url.host
  else r.url.host ++ ":" ++ Text.decimal r.url.portNumber

/-- The headers of a request. -/
def Request.headers (r : Request) : List (String × String) := [
  ("Host", r.hostHeader),
  ("Accept", "*/*"),
  ("Connection", "close"),
  ("X-ClickHouse-User", r.user),
  ("X-ClickHouse-Key", r.key),
  ("Content-Length", Text.decimal r.body.utf8ByteSize)]

/-- The text of a request before its body. -/
def Request.head (r : Request) : String :=
  let line := r.method ++ " " ++ r.url.target ++ " HTTP/1.1\r\n"
  let fields := r.headers.map fun (name, value) => name ++ ": " ++ value ++ "\r\n"
  line ++ String.join fields ++ "\r\n"

/-- The bytes of a request. -/
def Request.toBytes (r : Request) : ByteArray :=
  (r.head ++ r.body).toUTF8

/-- The bytes of a line, and those after its end. -/
def splitLine : List UInt8 → Option (List UInt8 × List UInt8)
  | [] => none
  | 10 :: rest => some ([], rest)
  | 13 :: 10 :: rest => some ([], rest)
  | b :: rest => (splitLine rest).map fun (line, rest) => (b :: line, rest)

/-- The bytes after a line are fewer. -/
theorem length_of_splitLine {bs line rest : List UInt8} (h : splitLine bs = some (line, rest)) :
    rest.length < bs.length := by
  fun_induction splitLine bs generalizing line rest with
  | case1 => simp at h
  | case2 | case3 =>
    obtain ⟨_, rfl⟩ := Prod.mk.inj (Option.some.inj h)
    grind
  | case4 b bs _ _ ih =>
    obtain ⟨⟨line', rest'⟩, hs, he⟩ := Option.map_eq_some_iff.1 h
    obtain ⟨_, rfl⟩ := Prod.mk.inj he
    have := ih hs
    grind

/-- The characters of a line. -/
def lineText (line : List UInt8) : List Char :=
  (Text.lossy ⟨line.toArray⟩).toList

/-- The status that the first line of a response tells. -/
def statusOf? (line : List Char) : Option Nat :=
  match Text.pieces ' ' line with
  | _ :: status :: _ => Text.readDigits? 16 status
  | _ => none

/-- The name of a header in lower case, and its value. -/
def headerOf (line : List Char) : List Char × List Char :=
  ((line.takeWhile (· ≠ ':')).map Url.lower, Text.trimChars ((line.dropWhile (· ≠ ':')).drop 1))

/-- The headers up to an empty line, and the bytes after it. -/
def readHeaders (bs : List UInt8) : Option (List (List Char × List Char) × List UInt8) :=
  match h : splitLine bs with
  | none => none
  | some ([], rest) => some ([], rest)
  | some (line, rest) =>
    have := length_of_splitLine h
    (readHeaders rest).map fun (headers, body) => (headerOf (lineText line) :: headers, body)
termination_by bs.length

/-- The value of a hexadecimal digit. -/
def hexDigit? (c : Char) : Option Nat :=
  if Text.isDigit c then some (Text.digitValue c)
  else if 'a' ≤ Url.lower c && Url.lower c ≤ 'f' then some ((Url.lower c).toNat - 87)
  else none

/-- The length that stands before a chunk; what follows a semicolon is no part of it. -/
def chunkLength? (line : List Char) : Option Nat :=
  match (Text.trimChars (line.takeWhile (· ≠ ';'))).mapM hexDigit? with
  | none | some [] => none
  | some digits => some (digits.foldl (16 * · + ·) 0)

/-- The bytes of chunks, up to the empty one. -/
def readChunks (bs : List UInt8) : Option (List UInt8) :=
  match h : splitLine bs with
  | none => none
  | some (line, rest) =>
    match chunkLength? (lineText line) with
    | none => none
    | some 0 => some []
    | some n =>
      have := length_of_splitLine h
      if rest.length < n then none
      else match h' : splitLine (rest.drop n) with
        | some ([], more) =>
          have := length_of_splitLine h'
          have : (rest.drop n).length ≤ rest.length := by simp
          (readChunks more).map (rest.take n ++ ·)
        | _ => none
termination_by bs.length

/-- The body of a response, in the form that its headers tell. -/
def readBody (headers : List (List Char × List Char)) (bs : List UInt8) : Option (List UInt8) :=
  let value? (name : String) := (headers.find? (·.1 = name.toList)).map (·.2)
  match value? "transfer-encoding", value? "content-length" with
  | some coding, _ => if coding.map Url.lower = "chunked".toList then readChunks bs else none
  | none, some length => do
    let n ← Text.readDigits? 64 length
    if bs.length < n then none else some (bs.take n)
  | none, none => some bs

/-- The response that some bytes are. -/
def Response.ofBytes? (bytes : ByteArray) : Option Response := do
  let (line, rest) ← splitLine bytes.toList
  let status ← statusOf? (lineText line)
  let (headers, rest) ← readHeaders rest
  let body ← if status = 204 || status = 304 then some [] else readBody headers rest
  return { status, body := ⟨body.toArray⟩ }

end TableSnapshots.Http
