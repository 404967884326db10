import DialogTable.Compiler.Http
import DialogTable.Patch.Chat
import DialogTable.Repair.Run
import DialogTable.Settings

/-!
# Services over a network

The two services of a repair, reached by HTTP. A request that cannot be sent is answered at once and
leaves the network alone.
-/

namespace DialogTable.Repair

/-- How the two services are reached. -/
structure Remote where
  compilerUrl : String
  compilerTimeoutSeconds : Nat
  patchUrl : String
  patchKey : String
  patchModel : String
  patchTimeoutSeconds : Nat
  deriving DecidableEq, Repr

namespace Remote

/-- What the settings say. The address of the compiler is looked for first. -/
def ofSettings (settings : Settings) : Except SettingsError Remote := do
  let compilerUrl ← settings.compilerUrl
  let patchKey ← settings.patchKey
  return {
    compilerUrl := compilerUrl
    compilerTimeoutSeconds := settings.compiler.requestTimeoutSeconds
    patchUrl := settings.patch.baseUrl
    patchKey := patchKey
    patchModel := settings.patch.model
    patchTimeoutSeconds := settings.patch.requestTimeoutSeconds }

variable {σ : Type}

/-- Submits over a network. -/
def submit (remote : Remote) (post : σ → Http.Request → Http.Answer × σ) (network : σ)
    (submission : Submission) (credential : Credential) : Except CompilerError Verdict × σ :=
  match Compiler.Http.request remote.compilerUrl submission credential with
  | .error error => (.error (Compiler.Http.ofRequestError error), network)
  | .ok request =>
    let (answer, network) := post network request
    (Compiler.Http.ofAnswer remote.compilerTimeoutSeconds answer, network)

/-- Requests a patch over a network. -/
def requestPatch (remote : Remote) (post : σ → Http.Request → Http.Answer × σ) (network : σ)
    (patchRequest : PatchRequest) : Except PatchError Patch × σ :=
  match Patch.Chat.request remote.patchUrl remote.patchKey remote.patchModel patchRequest with
  | .error error => (.error (Patch.Chat.ofRequestError error), network)
  | .ok request =>
    let (answer, network) := post network request
    (Patch.Chat.ofAnswer remote.patchTimeoutSeconds answer, network)

/-- Both services over a network. -/
def services (remote : Remote) (compiler patch : σ → Http.Request → Http.Answer × σ) :
    Services σ where
  submit network submission credential :=
    let (answer, network) := remote.submit compiler network submission credential
    ({ answer }, network)
  requestPatch network request :=
    let (answer, network) := remote.requestPatch patch network request
    ({ answer }, network)

end Remote

end DialogTable.Repair
