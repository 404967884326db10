import DialogTable.Compiler
import DialogTable.Compiler.Mention
import DialogTable.Http
import DialogTable.Json.Printer

/-!
# The compiler over HTTP

A submission is posted to the address of the bot. The status of the reply tells the verdict: success
is acceptance with a version, 400 and 422 are rejections with messages, 429 is a rate limit, 401 and
403 refuse the token. Anything else is no verdict.
-/

namespace DialogTable.Compiler.Http

open DialogTable.Http

/-- The address to post a submission to. -/
def address (baseUrl botId : String) : String :=
  s!"{trimSlashes baseUrl}/bots/{botId}/compile"

/-- The body of a submission. -/
def body (submission : Submission) : Json :=
  .ofMembers [
    ("bot_id", .string submission.botId),
    ("environment", .string submission.target.text),
    ("artifact", .string submission.tableText),
    ("scripts", .array (submission.scripts.map fun script =>
      .ofMembers [("name", .string script.name), ("source", .string script.source)]))]

/-- The request of a submission. -/
def request (baseUrl : String) (submission : Submission) (credential : Credential) :
    Except RequestError Request :=
  DialogTable.Http.request (address baseUrl submission.botId) credential.token (body submission)

/-- The error of a submission that cannot be sent. -/
def ofRequestError : RequestError → CompilerError
  | .badHeader => .invalidRequest badHeaderMessage
  | .badAddress => .network "the address is not valid"

/-- The keys of a version; the first one that holds a text or a number counts. -/
def versionKeys : List String := ["version_id", "versionId", "version"]

/-- The version of an accepted table. -/
def version? (value : Json) : Option String :=
  versionKeys.findSome? fun key =>
    match value.get? key with
    | some (.string text) => some text
    | some (.number n) => some n.print
    | _ => none

/-- The verdict of a reply of success. -/
def accepted (body : String) : Except CompilerError Verdict :=
  match Json.ofText? body with
  | none => .error (.protocol "invalid JSON")
  | some value =>
    match version? value with
    | none => .error (.protocol "accepted without a version id")
    | some version => .ok (.accepted version)

/-- The node that an entry names: by number, by a number in a text, or else in its message. -/
def nodeOf (entry : Json) (message : String) : Option Int :=
  let named := (entry.get? "node").bind fun node =>
    node.int64?.or (node.string?.bind fun text => Text.readNumber (Text.trim text.toList))
  named.or (Mention.subject message.toList)

/-- Reads a message of a rejection: a text, or an object with a message. An object without one is
its own message. -/
def complaint (entry : Json) : Complaint :=
  match entry with
  | .string message => { node := Mention.subject message.toList, message }
  | entry =>
    let message := ((entry.get? "message").bind Json.string?).getD entry.print
    { node := nodeOf entry message, message }

/-- The messages of a rejection, by a reader of JSON. A body without a list of them is itself the
message. -/
def complaintsWith (read : String → Option Json) (body : String) : List Complaint :=
  match ((read body).bind (Json.get? "errors")).bind Json.items? with
  | some entries => entries.map complaint
  | none =>
    let text := (Text.unlessBlank (Text.trimmed body)).getD "compiler rejected the artifact"
    [{ node := Mention.subject text.toList, message := text }]

/-- The messages of a rejection. -/
def complaints (body : String) : List Complaint :=
  complaintsWith Json.ofText? body

/-- The verdict of a reply. -/
def ofReply (status : Nat) (text : String) (retryAfter : Option String) :
    Except CompilerError Verdict :=
  if isSuccess status then accepted text
  else if status = 400 ∨ status = 422 then .ok (.rejected (complaints text))
  else if status = 429 then
    .ok (.rateLimited ((retryAfterSeconds? retryAfter).map Duration.ofSeconds))
  else if status = 401 ∨ status = 403 then .ok .unauthorized
  else if isServerError status then .error (.server status text)
  else .error (.protocol s!"unexpected status {status}: {text}")

/-- The verdict at the end of an exchange. -/
def ofAnswer (requestTimeoutSeconds : Nat) : Answer → Except CompilerError Verdict
  | .reply status body retryAfter => ofReply status (bodyText status body) retryAfter
  | .lost reason => .error (.network reason)
  | .late => .error (.timeout (.ofSeconds requestTimeoutSeconds))

end DialogTable.Compiler.Http
