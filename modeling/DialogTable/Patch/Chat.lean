import DialogTable.Patch
import DialogTable.Http
import DialogTable.Text.Split

/-!
# Patches from a chat service

A chat service is shown the rejected table with the messages and asked for a JSON object that holds
the corrected table and a line for each change. The object may stand in any text without braces.
-/

namespace DialogTable.Patch.Chat

open DialogTable.Http

/-- What the service is asked to do. -/
def instructions : String :=
  Text.join " " [
    "You repair conversational bot definitions.",
    "The definition is a CSV file with one node per row.",
    "Fix only what the listed compiler errors require,",
    "never renumber or delete nodes, and keep every other row unchanged.",
    "Reply with a single JSON object:",
    "\x7b\"csv\": \"<the complete corrected CSV>\", \"fixes\": [\"<one line per change>\"]\x7d."]

/-- What the service is shown. -/
def question (request : PatchRequest) : String :=
  let errors := Text.join "\n" (request.complaints.map fun complaint => "- " ++ complaint.text)
  s!"Project context:\n{request.context}\n\nCompiler errors:\n{errors}\n\nCSV:\n{request.tableText}"

/-- A message of a conversation. -/
def messageJson (role content : String) : Json :=
  .ofMembers [("role", .string role), ("content", .string content)]

/-- The body of a request. -/
def body (model : String) (request : PatchRequest) : Json :=
  .ofMembers [
    ("model", .string model),
    ("messages", .array [messageJson "system" instructions, messageJson "user" (question request)]),
    ("temperature", .ofInt 0)]

/-- The address to post a request to. -/
def address (baseUrl : String) : String :=
  s!"{trimSlashes baseUrl}/chat/completions"

/-- The request for a patch. -/
def request (baseUrl apiKey model : String) (patchRequest : PatchRequest) :
    Except RequestError Request :=
  DialogTable.Http.request (address baseUrl) apiKey (body model patchRequest)

/-- The error of a request that cannot be sent. -/
def ofRequestError : RequestError → PatchError
  | .badHeader => .invalidRequest badHeaderMessage
  | .badAddress => .network "the address is not valid"

/-- The text from the first opening brace to the last closing one. -/
def objectText? (content : List Char) : Option (List Char) :=
  let fromBrace := content.dropWhile (· ≠ '\x7b')
  match (fromBrace.reverse.dropWhile (· ≠ '\x7d')).reverse with
  | [] => none
  | text => some text

/-- The keys of the table; the first one that holds a text counts. -/
def tableKeys : List String := ["csv", "artifact"]

/-- The patch that an object holds. -/
def ofJson (value : Json) : Except PatchError Patch :=
  let text? := tableKeys.findSome? fun key => (value.get? key).bind Json.string?
  match text?.bind Text.unlessBlank with
  | none => .error (.malformed "reply has no CSV")
  | some tableText =>
    let fixes := (((value.get? "fixes").bind Json.items?).getD []).filterMap Json.string?
    .ok { tableText, fixes }

/-- The patch that a text of the service holds, by a reader of JSON. -/
def ofContentWith (read : String → Option Json) (content : String) : Except PatchError Patch :=
  match objectText? content.toList with
  | none => .error (.malformed "no JSON object in reply")
  | some text =>
    match read (.ofList text) with
    | none => .error (.malformed "invalid JSON")
    | some value => ofJson value

/-- The patch that a text of the service holds. -/
def ofContent (content : String) : Except PatchError Patch :=
  ofContentWith Json.ofText? content

/-- The text of the first choice of a reply. -/
def content? (value : Json) : Option String := do
  let choices ← (value.get? "choices").bind Json.items?
  let choice ← choices.head?
  let message ← choice.get? "message"
  (message.get? "content").bind Json.string?

/-- The patch of a reply of success. -/
def ofBody (body : String) : Except PatchError Patch :=
  match Json.ofText? body with
  | none => .error (.malformed "body is not JSON")
  | some value =>
    match content? value with
    | none => .error (.malformed "response has no message content")
    | some content => ofContent content

/-- The patch of a reply. -/
def ofReply (status : Nat) (text : String) (retryAfter : Option String) : Except PatchError Patch :=
  if isSuccess status then ofBody text
  else if status = 401 ∨ status = 403 then .error (.unauthorized text)
  else if status = 429 then
    .error (.rateLimited ((retryAfterSeconds? retryAfter).map Duration.ofSeconds))
  else .error (.api status text)

/-- The patch at the end of an exchange. -/
def ofAnswer (requestTimeoutSeconds : Nat) : Answer → Except PatchError Patch
  | .reply status body retryAfter => ofReply status (bodyText status body) retryAfter
  | .lost reason => .error (.network reason)
  | .late => .error (.timeout (.ofSeconds requestTimeoutSeconds))

end DialogTable.Patch.Chat
