import DialogTable.Http.Address
import DialogTable.Json

/-!
# HTTP

Both services are spoken to by posting JSON with a bearer token. This module holds what they share:
the request, the ways an exchange may end, and the readings of header values and bodies.
-/

namespace DialogTable.Http

/-- A request to post JSON. -/
structure Request where
  address : Address
  authorization : String
  body : Json
  deriving Repr

/-- The path of the address, encoded. -/
def Request.path (request : Request) : String :=
  request.address.pathText

/-- Whether a request goes to the host of a name. -/
def Request.isFor (request : Request) (name : String) : Bool :=
  request.address.host == .name name

/-- The method of every request. -/
def Request.method : String := "POST"

/-- The content type of every request. -/
def Request.contentType : String := "application/json"

/-- How an exchange ends. -/
inductive Answer
  /-- A reply with a status, the text of the body and the header that names a time to wait. -/
  | reply (status : Nat) (body : String) (retryAfter : Option String)
  /-- The connection was lost before or within the reply. -/
  | lost (reason : String)
  /-- No reply came in time. -/
  | late
  deriving DecidableEq, Repr

/-- Why a request cannot be sent. -/
inductive RequestError
  /-- A header value holds a control character. -/
  | badHeader
  /-- The address is none. -/
  | badAddress
  deriving DecidableEq, Repr

/-! ### Addresses -/

/-- A text without the slashes at its end. -/
def trimSlashes (text : String) : String :=
  .ofList ((text.toList.reverse.dropWhile (· = '/')).reverse)

/-! ### Header values -/

/-- Whether a text can be sent in a header: it has no control characters but tabs. -/
def isHeaderValue (text : String) : Bool :=
  text.toList.all fun c => (0x20 ≤ c.toNat && c.toNat ≠ 0x7F) || c = '\t'

/-- What is said about a value that cannot be sent. -/
def badHeaderMessage : String := "failed to parse header value"

/-- The seconds that a header names as the time to wait. Only ASCII text counts. -/
def retryAfterSeconds? (header : Option String) : Option Nat :=
  header.bind fun text =>
    if text.toList.all fun c => (0x20 ≤ c.toNat && c.toNat < 0x7F) || c = '\t' then
      Text.readCount (Text.trim text.toList)
    else none

/-! ### Requests and replies -/

/-- A request to an address with a token. -/
def request (address token : String) (body : Json) : Except RequestError Request :=
  let authorization := s!"Bearer {token}"
  if isHeaderValue authorization then
    match Address.read address.toList with
    | some address => .ok { address, authorization, body }
    | none => .error .badAddress
  else .error .badHeader

/-- The statuses of success. -/
def isSuccess (status : Nat) : Bool :=
  200 ≤ status && status < 300

/-- The statuses of a failure of the server. -/
def isServerError (status : Nat) : Bool :=
  500 ≤ status && status < 600

/-- The text of a body as it arrives: some statuses have none, and a byte order mark is dropped. -/
def bodyText (status : Nat) (body : String) : String :=
  if status = 204 ∨ status = 304 then ""
  else match body.toList with
    | '\uFEFF' :: rest => .ofList rest
    | _ => body

end DialogTable.Http
