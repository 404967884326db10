import DialogTable.Json
import DialogTable.Settings

/-!
# Settings as JSON

Settings are written with every field, so that nothing is left to defaults when they are read again.
-/

namespace DialogTable.Settings

/-- A count as a value. -/
def countJson (n : Nat) : Json := .ofInt n

/-- A text that may be missing as a value. -/
def textJson : Option String → Json
  | none => .null
  | some text => .string text

/-- Writes the limits of a repair. -/
def limitsJson (limits : Repair.Limits) : Json :=
  .object [
    ("max_iterations", countJson limits.maxIterations),
    ("max_transient_retries", countJson limits.maxTransientRetries),
    ("default_retry_after_secs", countJson limits.defaultRetryAfterSeconds),
    ("remote_timeout_secs", countJson limits.remoteTimeoutSeconds),
    ("transient_backoff_secs", countJson limits.transientBackoffSeconds),
    ("max_structural_passes", countJson limits.maxStructuralPasses),
    ("restructure_after_patch", .bool limits.restructureAfterPatch)]

/-- Writes the settings of the checks. -/
def policyJson (policy : Validation.Policy) : Json :=
  .object [
    ("fallback_node", (policy.fallback.map Json.ofInt).getD .null),
    ("endpoint_tags", .array (policy.endpointTags.map Json.string))]

/-- Writes the settings of the compiler. -/
def compilerJson (compiler : CompilerSettings) : Json :=
  .object [
    ("base_url", textJson compiler.baseUrl),
    ("token", textJson compiler.token),
    ("target", .string compiler.target.text),
    ("request_timeout_secs", countJson compiler.requestTimeoutSeconds)]

/-- Writes the settings of the patch service. -/
def patchJson (patch : PatchSettings) : Json :=
  .object [
    ("base_url", .string patch.baseUrl),
    ("api_key", textJson patch.apiKey),
    ("model", .string patch.model),
    ("request_timeout_secs", countJson patch.requestTimeoutSeconds)]

/-- Writes settings with every field. -/
def toJson (settings : Settings) : Json :=
  .object [
    ("repair", limitsJson settings.limits),
    ("validator", policyJson settings.policy),
    ("compiler", compilerJson settings.compiler),
    ("patch", patchJson settings.patch)]

end DialogTable.Settings
