import DialogTable.Compiler

/-!
# Patches

A patch service rewrites a rejected table so that it meets the messages of the compiler.
-/

namespace DialogTable

/-- A rejected table with the messages about it. -/
structure PatchRequest where
  tableText : String
  complaints : List Complaint
  /-- What the service is told about the dialog. -/
  context : String
  deriving DecidableEq, Repr

/-- A corrected table and a line for each change. -/
structure Patch where
  tableText : String
  fixes : List String
  deriving DecidableEq, Repr

/-- Why a request brought no patch. -/
inductive PatchError
  | network (message : String)
  | timeout (after : Duration)
  | rateLimited (retryAfter : Option Duration)
  | unauthorized (message : String)
  | api (status : Nat) (message : String)
  /-- The reply holds no patch. -/
  | malformed (message : String)
  | invalidRequest (message : String)
  deriving DecidableEq, Repr

namespace PatchError

/-- The wording of an error. -/
def message : PatchError → String
  | network message => s!"Network error: {message}"
  | timeout after => s!"Patch request timed out after {after.text}"
  | rateLimited retryAfter =>
    s!"Patch service rate limit exceeded: retry after {Duration.optionText retryAfter}"
  | unauthorized message => s!"Patch service rejected the credentials: {message}"
  | api status message => s!"Patch service error ({status}): {message}"
  | malformed message => s!"Patch response could not be used: {message}"
  | invalidRequest message => s!"Invalid request: {message}"

/-- Whether the same request may succeed later. -/
def isTransient : PatchError → Bool
  | network _ | timeout _ | rateLimited _ => true
  | api status _ => 500 ≤ status
  | unauthorized _ | malformed _ | invalidRequest _ => false

end PatchError

end DialogTable
