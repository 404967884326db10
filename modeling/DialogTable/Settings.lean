import DialogTable.Compiler
import DialogTable.Json.Decode
import DialogTable.Repair.Limits
import DialogTable.Validation.Policy

/-!
# Settings

Settings are read from JSON, where anything may be left out, and environment variables override the
addresses and secrets among them. A variable that says nothing overrides nothing.
-/

namespace DialogTable

/-- How to reach the compiler. -/
structure CompilerSettings where
  baseUrl : Option String := none
  token : Option String := none
  target : Target := .sandbox
  requestTimeoutSeconds : Nat := 120
  deriving DecidableEq, Repr

/-- How to reach the patch service. -/
structure PatchSettings where
  baseUrl : String := "https://api.openai.com/v1"
  apiKey : Option String := none
  model : String := "gpt-4o"
  requestTimeoutSeconds : Nat := 180
  deriving DecidableEq, Repr

/-- All settings. -/
structure Settings where
  limits : Repair.Limits := {}
  policy : Validation.Policy := {}
  compiler : CompilerSettings := {}
  patch : PatchSettings := {}
  deriving DecidableEq, Repr

/-- Why there are no settings. -/
inductive SettingsError
  | unreadable (path reason : String)
  | malformed
  | invalid (message : String)
  deriving DecidableEq, Repr

/-- The wording of an error. -/
def SettingsError.message : SettingsError → String
  | unreadable path reason => s!"Could not read config file '{path}': {reason}"
  | malformed => "Failed to parse config JSON: the text does not describe settings"
  | invalid message => s!"Invalid configuration: {message}"

namespace Settings

/-! ### Reading -/

open Json.Document

/-- A count of 32 bits. -/
def count32? : Json.Document → Option Nat := nat? 4294967296

/-- A count of 64 bits. -/
def count64? : Json.Document → Option Nat := nat? Text.countLimit

/-- An environment: its name, or an object with its name as the key of null. -/
def target? : Json.Document → Option Target
  | .quoted (some name) => Target.ofText? name
  | .object [(some name, .null)] => Target.ofText? name
  | _ => none

/-- Reads the limits of a repair. -/
def limits? (document : Json.Document) : Option Repair.Limits := do
  let fields ← fields? [["max_iterations"], ["max_transient_retries"], ["default_retry_after_secs"],
    ["remote_timeout_secs"], ["transient_backoff_secs"], ["max_structural_passes"],
    ["restructure_after_patch"]] document
  let standard : Repair.Limits := {}
  let maxIterations ← withDefault fields "max_iterations" count32? standard.maxIterations
  let maxTransientRetries ←
    withDefault fields "max_transient_retries" count32? standard.maxTransientRetries
  let defaultRetryAfterSeconds ←
    withDefault fields "default_retry_after_secs" count64? standard.defaultRetryAfterSeconds
  let remoteTimeoutSeconds ←
    withDefault fields "remote_timeout_secs" count64? standard.remoteTimeoutSeconds
  let transientBackoffSeconds ←
    withDefault fields "transient_backoff_secs" count64? standard.transientBackoffSeconds
  let maxStructuralPasses ←
    withDefault fields "max_structural_passes" count32? standard.maxStructuralPasses
  let restructureAfterPatch ←
    withDefault fields "restructure_after_patch" bool? standard.restructureAfterPatch
  return {
    maxIterations := maxIterations
    maxTransientRetries := maxTransientRetries
    defaultRetryAfterSeconds := defaultRetryAfterSeconds
    remoteTimeoutSeconds := remoteTimeoutSeconds
    transientBackoffSeconds := transientBackoffSeconds
    maxStructuralPasses := maxStructuralPasses
    restructureAfterPatch := restructureAfterPatch }

/-- Reads the settings of the checks. -/
def policy? (document : Json.Document) : Option Validation.Policy := do
  let fields ← fields? [["fallback_node"], ["endpoint_tags"]] document
  let standard : Validation.Policy := {}
  let fallback ← withDefault fields "fallback_node"
    (nullable? (int? fun n => decide (Text.InRange64 n))) standard.fallback
  let endpointTags ← withDefault fields "endpoint_tags" (list? text?) standard.endpointTags
  return { fallback, endpointTags }

/-- Reads the settings of the compiler. -/
def compiler? (document : Json.Document) : Option CompilerSettings := do
  let fields ← fields? [["base_url"], ["token"], ["target"], ["request_timeout_secs"]] document
  let standard : CompilerSettings := {}
  let baseUrl ← withDefault fields "base_url" (nullable? text?) standard.baseUrl
  let token ← withDefault fields "token" (nullable? text?) standard.token
  let target ← withDefault fields "target" target? standard.target
  let requestTimeoutSeconds ←
    withDefault fields "request_timeout_secs" count64? standard.requestTimeoutSeconds
  return { baseUrl, token, target, requestTimeoutSeconds }

/-- Reads the settings of the patch service. -/
def patch? (document : Json.Document) : Option PatchSettings := do
  let fields ← fields? [["base_url"], ["api_key"], ["model"], ["request_timeout_secs"]] document
  let standard : PatchSettings := {}
  let baseUrl ← withDefault fields "base_url" text? standard.baseUrl
  let apiKey ← withDefault fields "api_key" (nullable? text?) standard.apiKey
  let model ← withDefault fields "model" text? standard.model
  let requestTimeoutSeconds ←
    withDefault fields "request_timeout_secs" count64? standard.requestTimeoutSeconds
  return { baseUrl, apiKey, model, requestTimeoutSeconds }

/-- Reads settings. -/
def ofDocument? (document : Json.Document) : Option Settings := do
  let fields ← fields? [["repair"], ["validator"], ["compiler"], ["patch"]] document
  let limits ← withDefault fields "repair" limits? {}
  let policy ← withDefault fields "validator" policy? {}
  let compiler ← withDefault fields "compiler" compiler? {}
  let patch ← withDefault fields "patch" patch? {}
  return { limits, policy, compiler, patch }

/-- Refuses limits under which no repair can do its work. -/
def validate (settings : Settings) : Except SettingsError Unit :=
  if settings.limits.remoteTimeoutSeconds = 0 then
    .error (.invalid "repair.remote_timeout_secs must be positive")
  else if settings.limits.maxStructuralPasses = 0 then
    .error (.invalid "repair.max_structural_passes must be positive")
  else .ok ()

/-- Reads valid settings from a text. -/
def ofText (text : String) : Except SettingsError Settings :=
  match (Json.Document.ofText? text).bind ofDocument? with
  | none => .error .malformed
  | some settings => settings.validate.map fun _ => settings

/-! ### Environment -/

def compilerUrlName : String := "KENSA_COMPILER_URL"
def compilerTokenName : String := "KENSA_COMPILER_TOKEN"
def patchUrlName : String := "KENSA_PATCH_URL"
def patchApiKeyName : String := "KENSA_PATCH_API_KEY"
def patchModelName : String := "KENSA_PATCH_MODEL"

/-- The variables that count. -/
def variableNames : List String :=
  [compilerUrlName, compilerTokenName, patchUrlName, patchApiKeyName, patchModelName]

/-- Takes over the variables that say something. -/
def override (settings : Settings) (lookup : String → Option String) : Settings :=
  let given (name : String) : Option String := (lookup name).bind Text.unlessBlank
  { settings with
    compiler := { settings.compiler with
      baseUrl := (given compilerUrlName).or settings.compiler.baseUrl
      token := (given compilerTokenName).or settings.compiler.token }
    patch := { settings.patch with
      baseUrl := (given patchUrlName).getD settings.patch.baseUrl
      apiKey := (given patchApiKeyName).or settings.patch.apiKey
      model := (given patchModelName).getD settings.patch.model } }

/-! ### What the services need -/

/-- The address of the compiler. -/
def compilerUrl (settings : Settings) : Except SettingsError String :=
  match settings.compiler.baseUrl with
  | some url => .ok url
  | none => .error (.invalid s!"no compiler URL; set {compilerUrlName}")

/-- The token for the compiler. -/
def credential (settings : Settings) : Except SettingsError Credential :=
  match settings.compiler.token with
  | some token => .ok { token }
  | none => .error (.invalid s!"no compiler token; set {compilerTokenName}")

/-- The key for the patch service. -/
def patchKey (settings : Settings) : Except SettingsError String :=
  match settings.patch.apiKey with
  | some key => .ok key
  | none => .error (.invalid s!"no patch service key; set {patchApiKeyName}")

end Settings

end DialogTable
