import DialogTable.Command.Run
import DialogTable.Sample

/-!
# The sample generator

The generator draws a sample and writes its table and its flows.
-/

namespace DialogTable.Command

/-- The arguments of the generator. -/
structure GenerateOptions where
  output : String := "generated_bot.csv"
  flowsOutput : String := "generated_flows.json"
  shape : Sample.Shape := {}
  deriving DecidableEq, Repr

namespace GenerateOptions

/-- An option with a count. -/
def countOption (name : String) : OptionForm :=
  { long := name, accepts := fun text => (Text.readCount text.toList).isSome }

/-- What may stand in the arguments. -/
def grammar : Grammar :=
  { options := [Invocation.outputOption, { long := "flows-output" }, countOption "flows",
      countOption "min", countOption "max", countOption "defects"]
    hasVersion := true }

/-- Reads the arguments of the generator. -/
def read (arguments : List String) : Except Stop GenerateOptions := do
  let (given, _) ← grammar.read arguments
  let standard : GenerateOptions := {}
  let text (name standard : String) : String := (given.value? name).getD standard
  let count (name : String) (standard : Nat) : Nat :=
    ((given.value? name).bind fun text => Text.readCount text.toList).getD standard
  return {
    output := text "output" standard.output
    flowsOutput := text "flows-output" standard.flowsOutput
    shape := {
      flows := count "flows" standard.shape.flows
      minimum := count "min" standard.shape.minimum
      maximum := count "max" standard.shape.maximum
      defects := count "defects" standard.shape.defects } }

end GenerateOptions

/-- An error of a plan by its name. -/
def flowErrorName : FlowError → String
  | .overlappingStart .. => "OverlappingStart"
  | .duplicateName .. => "DuplicateName"
  | .startOutOfRange .. => "StartOutOfRange"
  | .rangeExhausted => "RangeExhausted"

variable {σ : Type} {m : Type → Type} [Monad m]

/-- Ends the generator with an error. -/
def failPlainly {α : Type} (host : Host σ m) (message : String) : Part m α := do
  host.note s!"Error: {message}\n"
  throw .failure

/-- Writes a file or ends the generator. -/
def writePlainly (host : Host σ m) (path text : String) : Part m Unit := do
  let result ← host.save path text
  match result with
  | .ok () => return ()
  | .error error => failPlainly host error.detail

/-- The line about each flow of a sample. -/
def flowLines (sample : Sample) : List String :=
  (sample.plan.flows.zip sample.parts).map fun (flow, nodes) =>
    s!"-> Generated {nodes.length} node(s) for flow starting at {flow.start}."

/-- Generates a sample from a tape of draws and writes it. -/
def generate (host : Host σ m) (options : GenerateOptions) (tape : Nat → Nat) : Part m Unit := do
  let shape := options.shape
  if ¬ shape.IsPossible then
    failPlainly host s!"expected 0 < --min ({shape.minimum}) <= --max ({shape.maximum}) < 100"
  else
    let { flows, minimum, maximum, .. } := shape
    host.print s!"Generating {flows} flow(s) with {minimum} to {maximum} nodes each...\n"
    match Sample.allocate flows with
    | .error error => failPlainly host (flowErrorName error)
    | .ok plan =>
      let sample := (Sample.draw shape plan).result tape
      let defectLines := sample.defects.map fun spoiling =>
        "-> Injected defect: " ++ Sample.Spoiling.describe spoiling
      host.print (Text.closeLines (flowLines sample ++ defectLines))
      writePlainly host options.output sample.table.toText
      writePlainly host options.flowsOutput (Flow.listToText plan.flows)
      host.print s!"Successfully wrote '{options.output}' and '{options.flowsOutput}'\n"

/-- How the generator is used. -/
def generatorUsage : String :=
  Text.closeLines [
    "Generate a sample table with its flows",
    "",
    "Usage: dialog-table sample [-o <OUTPUT>] [--flows-output <FLOWS_OUTPUT>] [--flows <FLOWS>]",
    "         [--min <MIN>] [--max <MAX>] [--defects <DEFECTS>]"]

/-- Runs the generator. -/
def runGenerator (host : Host σ m) (arguments : List String) (tape : Nat → Nat) : m Exit :=
  exitOf (m := m) <|
    match GenerateOptions.read arguments with
    | .error reason => stop host generatorUsage reason
    | .ok options => generate host options tape

end DialogTable.Command
