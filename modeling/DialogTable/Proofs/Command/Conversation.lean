import DialogTable.Proofs.Command.Parts
import DialogTable.Proofs.Command.Watch
import DialogTable.Proofs.Text.Lines
import Mathlib.Data.List.TakeWhile

/-!
# The conversation about refused tokens

A repair that is suspended because the compiler refuses the token goes on with a line of input as
the next one. At the end of the input a prompt reads nothing, and the command takes that for an
empty token.

The main statement is `resumptions_le_lines_iff`: the command resumes once for each refusal, as long
as it may, whether or not there is a line left. So it resumes no more often than the input has lines
exactly if the compiler does not refuse more often either.
-/

namespace DialogTable.Command

open DialogTable.Repair (Outcome Remote Run Setup)
open Compiler.Http (refuses)

/-! ### Lines of input -/

/-- The next line of an input, or nothing at the end of it. -/
def nextLine (input : List Char) : Option String :=
  if input = [] then none else some (.ofList (input.takeWhile (· ≠ '\n')))

/-- The input behind the next line. -/
def laterInput (input : List Char) : List Char :=
  (input.dropWhile (· ≠ '\n')).drop 1

theorem Memory.readLine_eq {σ : Type} (memory : Memory σ) :
    memory.readLine =
      (nextLine memory.input, { memory with input := laterInput memory.input }) := by
  by_cases h : memory.input = []
  · rw [readLine_of_input_nil h, nextLine, if_pos h, h]
    cases memory
    cases h
    rfl
  · rw [readLine, nextLine, if_neg h, if_neg h]
    rfl

/-- Reading takes one line. -/
theorem length_lines_of_ne_nil {input : List Char} (h : input ≠ []) :
    (Text.lines input).length = (Text.lines (laterInput input)).length + 1 := by
  have hsplit : input.takeWhile (· ≠ '\n') ++ input.dropWhile (· ≠ '\n') = input :=
    List.takeWhile_append_dropWhile
  have hfeed : '\n' ∉ input.takeWhile (· ≠ '\n') := fun hmem => by
    simpa using List.mem_takeWhile_imp hmem
  rw [laterInput]
  cases hd : input.dropWhile (· ≠ '\n') with
  | nil =>
    rw [hd, List.append_nil] at hsplit
    rw [hsplit] at hfeed
    rw [Text.lines_of_not_mem hfeed h]
    rfl
  | cons c rest =>
    have hc : c = '\n' := by
      have hhead := List.head?_dropWhile_not (· ≠ '\n') input
      rw [hd] at hhead
      simpa using hhead
    rw [hd, hc] at hsplit
    rw [← hsplit, Text.lines_append_lineFeed hfeed]
    rfl

/-! ### Prompts, refusals and resumptions -/

/-- The line that was asked for. -/
def Act.line? : Act → Option (Option String)
  | asked line => some line
  | _ => none

/-- Whether the compiler refuses the token. -/
def Act.isRefusal : Act → Bool
  | answered answer => refuses answer
  | _ => false

/-- The lines that were asked for. -/
def prompts (acts : List Act) : List (Option String) :=
  acts.filterMap Act.line?

/-- How often the compiler refused a token. -/
def refusals (acts : List Act) : Nat :=
  acts.countP Act.isRefusal

/-- How often a line was asked for and a sitting was opened with it. -/
def promptedOpenings : List Act → Nat
  | .asked _ :: .opened :: later => promptedOpenings later + 1
  | _ :: later => promptedOpenings later
  | [] => 0

/-- How often a token was asked for and the repair was resumed with it, once it had begun. -/
def resumptions (acts : List Act) : Nat :=
  promptedOpenings (acts.dropWhile (· ≠ .opened))

/-! ### Conversations -/

/-- What is done in a sitting in which the compiler gives some answers. -/
def sitting (answers : List Http.Answer) : List Act :=
  .opened :: answers.map .answered

/-- What is done from the first sitting on, with a number of attempts and an input. A sitting ends
with its only refusal, or there is none in it and it is the last one. -/
inductive Conversation : Nat → List Char → List Act → Prop
  | settled {attempts : Nat} {input : List Char} {answers : List Http.Answer}
      (h : answers.countP refuses = 0) : Conversation attempts input (sitting answers)
  | givenUp {input : List Char} {answers : List Http.Answer} (h : answers.countP refuses = 1) :
    Conversation 0 input (sitting answers)
  | resumed {attempts : Nat} {input : List Char} {answers : List Http.Answer} {later : List Act}
      (h : answers.countP refuses = 1) (rest : Conversation attempts (laterInput input) later) :
    Conversation (attempts + 1) input (sitting answers ++ .asked (nextLine input) :: later)

/-- What is done in the whole: nothing if there is nothing to repair, else perhaps the first token
is asked for. -/
inductive Transcript (attempts : Nat) (input : List Char) : List Act → Prop
  | idle : Transcript attempts input []
  | configured {acts : List Act} (h : Conversation attempts input acts) :
    Transcript attempts input acts
  | prompted {acts : List Act} (h : Conversation attempts (laterInput input) acts) :
    Transcript attempts input (.asked (nextLine input) :: acts)

/-! ### Counting -/

section Count

variable {attempts : Nat} {input : List Char} {acts : List Act} {answers : List Http.Answer}

theorem promptedOpenings_answered (later : List Act) :
    promptedOpenings (answers.map .answered ++ later) = promptedOpenings later := by
  induction answers with
  | nil => rfl
  | cons answer answers ih => exact ih

theorem promptedOpenings_sitting_append (later : List Act) :
    promptedOpenings (sitting answers ++ later) = promptedOpenings later :=
  promptedOpenings_answered later

theorem promptedOpenings_sitting : promptedOpenings (sitting answers) = 0 := by
  have happend := @promptedOpenings_sitting_append answers []
  rw [List.append_nil] at happend
  exact happend

theorem prompts_sitting : prompts (sitting answers) = [] := by
  simp [prompts, sitting, Act.line?]

theorem refusals_sitting : refusals (sitting answers) = answers.countP refuses := by
  simp only [refusals, sitting, List.countP_cons, List.countP_map]
  rfl

/-- If the prompts that find no line are those in excess of the lines, so they are with one prompt
more in front. -/
theorem count_none_prompts_asked
    (h : (prompts acts).count none =
      (prompts acts).length - (Text.lines (laterInput input)).length) :
    (nextLine input :: prompts acts).count none =
      (nextLine input :: prompts acts).length - (Text.lines input).length := by
  rw [List.count_cons, h, List.length_cons]
  by_cases hne : input = []
  · subst hne
    rfl
  · rw [length_lines_of_ne_nil hne]
    simp [nextLine, hne]

theorem Conversation.exists_cons (h : Conversation attempts input acts) :
    ∃ later, acts = .opened :: later := by
  cases h <;> exact ⟨_, rfl⟩

/-- In a conversation each prompt is followed by a sitting, and there is one for each refusal that
may be answered. -/
theorem Conversation.counts (h : Conversation attempts input acts) :
    promptedOpenings acts = min (refusals acts) attempts ∧
      (prompts acts).length = promptedOpenings acts ∧
      (prompts acts).count none = (prompts acts).length - (Text.lines input).length := by
  induction h with
  | settled h =>
    rw [prompts_sitting, refusals_sitting, promptedOpenings_sitting, h]
    simp
  | givenUp h =>
    rw [prompts_sitting, promptedOpenings_sitting]
    simp
  | @resumed attempts input answers later h rest ih =>
    obtain ⟨hopenings, hlength, hnone⟩ := ih
    have hprompts : prompts (sitting answers ++ .asked (nextLine input) :: later) =
        nextLine input :: prompts later := by
      rw [prompts, List.filterMap_append, ← prompts, prompts_sitting]
      rfl
    have hrefusals : refusals (sitting answers ++ .asked (nextLine input) :: later) =
        refusals later + 1 := by
      rw [refusals, List.countP_append, ← refusals, refusals_sitting, h, Nat.add_comm]
      rfl
    have hone : promptedOpenings (sitting answers ++ .asked (nextLine input) :: later) =
        promptedOpenings later + 1 := by
      rw [promptedOpenings_sitting_append]
      obtain ⟨acts, rfl⟩ := rest.exists_cons
      rfl
    refine ⟨?_, ?_, ?_⟩
    · rw [hone, hrefusals, hopenings]
      omega
    · rw [hprompts, hone, List.length_cons, hlength]
    · rw [hprompts]
      exact count_none_prompts_asked hnone

theorem Transcript.counts (h : Transcript attempts input acts) :
    resumptions acts = min (refusals acts) attempts ∧
      resumptions acts ≤ (prompts acts).length ∧
      (prompts acts).count none = (prompts acts).length - (Text.lines input).length := by
  cases h with
  | idle => simp [resumptions, promptedOpenings, refusals, prompts]
  | configured h =>
    obtain ⟨hopenings, hlength, hnone⟩ := h.counts
    obtain ⟨later, rfl⟩ := h.exists_cons
    exact ⟨hopenings, hlength.ge, hnone⟩
  | prompted h =>
    obtain ⟨hopenings, hlength, hnone⟩ := h.counts
    obtain ⟨later, rfl⟩ := h.exists_cons
    refine ⟨hopenings, ?_, count_none_prompts_asked hnone⟩
    exact hlength.ge.trans (Nat.le_succ _)

theorem Transcript.resumptions_le_iff (h : Transcript attempts input acts) (n : Nat) :
    resumptions acts ≤ n ↔ refusals acts ≤ n ∨ attempts ≤ n := by
  rw [h.counts.1]
  omega

end Count

/-! ### What the watched host does quietly -/

section Host

variable {σ α : Type} (network : Network σ)

theorem quiet_note (text : String) :
    Quiet (liftM ((watchedHost network).note text) : Watched σ Unit) :=
  quiet_lift fun _ => ⟨rfl, rfl⟩

theorem quiet_fail (message : String) : Quiet ((watchedHost network).fail message : Watched σ α) :=
  (quiet_note network _).bind fun _ => quiet_throw _

theorem quiet_orFail {ε : Type} (wording : ε → String) (result : Except ε α) :
    Quiet ((watchedHost network).orFail wording result) := by
  cases result with
  | ok value => exact quiet_pure value
  | error error => exact quiet_fail network _

theorem quiet_save (path text : String) :
    Quiet (liftM ((watchedHost network).save path text) : Watched σ _) := by
  refine quiet_lift fun memory => ?_
  show Untouched memory (memory.save path text).2
  unfold Memory.save
  split <;> exact ⟨rfl, rfl⟩

theorem quiet_readText (path : String) : Quiet ((watchedHost network).readText path) :=
  (quiet_lift fun _ => ⟨rfl, rfl⟩).bind fun _ => quiet_orFail network _ _

theorem quiet_writeText (path : Option String) (text : String) :
    Quiet ((watchedHost network).writeText path text) := by
  cases path with
  | none => exact quiet_lift fun _ => ⟨rfl, rfl⟩
  | some path => exact (quiet_save network path text).bind fun _ => quiet_orFail network _ _

theorem quiet_readScript (argument : String) :
    Quiet (readScript (watchedHost network) argument) := by
  unfold readScript
  split
  · exact quiet_fail network _
  · exact (quiet_readText network _).bind fun _ => quiet_pure _

theorem quiet_readJob (options : RepairOptions) :
    Quiet (readJob (watchedHost network) options) := by
  unfold readJob
  refine (quiet_readText network _).bind fun tableText => ?_
  refine (Quiet.mapM (quiet_readScript network) _).bind fun scripts => ?_
  cases options.context with
  | none => exact (quiet_pure _).bind fun _ => quiet_pure _
  | some path => exact (quiet_readText network path).bind fun _ => quiet_pure _

end Host

/-! ### The whole command -/

section Whole

variable {σ : Type} {network : Network σ} {remote : Remote}
  {exits : Memory (σ × List Act) → Prop}

theorem ensures_note (text : String) (memory : Memory (σ × List Act)) :
    Ensures (liftM ((watchedHost network).note text) : Watched σ Unit) memory
      (fun _ => Untouched memory) exits :=
  ensures_lift ⟨rfl, rfl⟩

theorem ensures_tellPhases (log : List Repair.Entry) (memory : Memory (σ × List Act)) :
    Ensures (tellPhases (watchedHost network) log) memory (fun _ => Untouched memory) exits := by
  rw [tellPhases]
  induction log.filterMap phaseLine generalizing memory with
  | nil => exact ensures_pure ⟨rfl, rfl⟩
  | cons line lines ih =>
    refine (ensures_note line memory).bind fun _ after hafter => ?_
    exact (ih after).mono (fun _ _ => hafter.trans) fun _ => id

/-- Asking for a token reads a line. -/
theorem ensures_ask (question : String) (memory : Memory (σ × List Act)) :
    Ensures ((watchedHost network).ask question) memory
      (fun _ after => after.network.2 = memory.network.2 ++ [.asked (nextLine memory.input)] ∧
        after.input = laterInput memory.input) exits := by
  refine (ensures_note _ memory).bind fun _ noted hnoted => ?_
  have hline : ((watchedHost network).readLine.run noted).2 =
      ({ noted with input := laterInput noted.input } : Memory _).log
        (.asked (nextLine noted.input)) := by
    show noted.readLine.2.log (.asked noted.readLine.1) = _
    rw [noted.readLine_eq]
  have hread : Ensures (liftM (watchedHost network).readLine : Watched σ (Option String)) noted
      (fun _ after => after = ({ noted with input := laterInput noted.input } : Memory _).log
        (.asked (nextLine noted.input))) exits :=
    ensures_lift hline
  refine hread.bind fun line after hafter => ensures_pure ?_
  rw [hafter, ← hnoted.input, ← hnoted.network]
  exact ⟨rfl, rfl⟩

/-- A sitting over the network is written down with the answers that are heard in it. -/
theorem ensures_overNetwork {work : σ × List Act → (Outcome × Run (σ × List Act)) × (σ × List Act)}
    (h : ∀ state, Hears (refusalsOf (work state).1.1) state (work state).2)
    (memory : Memory (σ × List Act)) :
    Ensures ((watchedHost network).overNetwork work) memory
      (fun ending after => ending = (work (memory.log .opened).network).1 ∧
        after.input = memory.input ∧ ∃ answers,
          after.network.2 = memory.network.2 ++ sitting answers ∧
            answers.countP refuses = refusalsOf ending.1) exits := by
  obtain ⟨answers, hlog, hcount⟩ := h (memory.log .opened).network
  refine ensures_lift ⟨rfl, rfl, answers, ?_, hcount⟩
  rw [sitting, List.append_cons]
  exact hlog

/-- The last sitting of a conversation. -/
theorem ensures_settled {attempts : Nat} {outcome : Outcome} (log : List Repair.Entry)
    {memory : Memory (σ × List Act)} {acts : List Act} {answers : List Http.Answer}
    (hlog : memory.network.2 = acts ++ sitting answers)
    (h : Conversation attempts memory.input (sitting answers)) :
    Ensures (do tellPhases (watchedHost network) log; return outcome : Watched σ Outcome) memory
      (fun _ after => ∃ later, after.network.2 = acts ++ (sitting answers ++ later) ∧
        Conversation attempts memory.input (sitting answers ++ later)) exits := by
  refine (ensures_tellPhases log memory).bind fun _ after hafter => ensures_pure ⟨[], ?_, ?_⟩
  · rw [hafter.network, hlog, List.append_nil]
  · rw [List.append_nil]
    exact h

/-- What is done from some sitting on, when its answers have been heard. -/
theorem ensures_converse {setup : Setup (σ × List Act)}
    (hs : setup.services = watchedServices remote network) (attempts : Nat) (outcome : Outcome)
    (run : Run (σ × List Act)) {memory : Memory (σ × List Act)} {log : List Act}
    {answers : List Http.Answer} (hlog : memory.network.2 = log ++ sitting answers)
    (hcount : answers.countP refuses = refusalsOf outcome) :
    Ensures (converse (watchedHost network) setup attempts (outcome, run)) memory
      (fun _ after => ∃ later, after.network.2 = log ++ (sitting answers ++ later) ∧
        Conversation attempts memory.input (sitting answers ++ later)) exits := by
  induction attempts generalizing setup outcome run memory log answers with
  | zero =>
    have hend : Conversation 0 memory.input (sitting answers) := by
      cases outcome with
      | needsCredential suspension => exact .givenUp hcount
      | _ => exact .settled hcount
    cases outcome <;> exact ensures_settled run.log hlog hend
  | succ attempts ih =>
    cases outcome with
    | needsCredential suspension =>
      refine (ensures_tellPhases run.log memory).bind fun _ told htold => ?_
      refine (ensures_note _ told).bind fun _ noted hnoted => ?_
      refine (ensures_ask _ noted).bind fun token asked hasked => ?_
      have hsame := htold.trans hnoted
      rw [hsame.network, hsame.input] at hasked
      let next : Setup (σ × List Act) := { setup with credential := { token } }
      have hnext : next.services = watchedServices remote network := hs
      refine (ensures_overNetwork (fun state => hears_resume hnext suspension
        { run with services := state, log := [] }) asked).bind fun (outcome, resumed) opened
          ⟨_, hinput, answers', hlog', hcount'⟩ => ?_
      rw [hasked.1, hlog] at hlog'
      refine (ih hnext outcome resumed hlog' hcount').mono
        (fun _ after hafter => ?_) fun _ => id
      obtain ⟨later, hafter, hconversation⟩ := hafter
      refine ⟨.asked (nextLine memory.input) :: (sitting answers' ++ later), ?_, ?_⟩
      · rw [hafter]
        simp only [List.append_assoc, List.cons_append, List.nil_append]
      · rw [hinput, hasked.2] at hconversation
        exact .resumed hcount hconversation
    | _ => exact ensures_settled run.log hlog (.settled hcount)

/-- What is done to the end of a repair. If the first sitting is suspended, a refusal is heard. -/
theorem ensures_carryOut {setup : Setup (σ × List Act)}
    (hs : setup.services = watchedServices remote network) (attempts : Nat)
    (output : Option String) (memory : Memory (σ × List Act)) :
    let told (after : Memory (σ × List Act)) : Prop := ∃ acts,
      after.network.2 = memory.network.2 ++ acts ∧ Conversation attempts memory.input acts ∧
        refusalsOf (setup.start (memory.log .opened).network {}).1 ≤ refusals acts
    Ensures (carryOut (watchedHost network) attempts setup output) memory (fun _ => told) told := by
  intro told
  refine (ensures_overNetwork (hears_start hs) memory).bind fun ending opened hopened => ?_
  obtain ⟨hending, hinput, answers, hlog, hcount⟩ := hopened
  refine (ensures_converse hs attempts ending.1 ending.2 hlog hcount).bind
    fun outcome after hafter => ?_
  obtain ⟨later, hafter, hconversation⟩ := hafter
  rw [hinput] at hconversation
  have hrefusals : refusalsOf (setup.start (memory.log .opened).network {}).1 ≤
      refusals (sitting answers ++ later) := by
    rw [refusals, List.countP_append, ← refusals, refusals_sitting, hcount, hending]
    exact Nat.le_add_right _ _
  have htold : ∀ {last : Memory (σ × List Act)}, Untouched after last → told last :=
    fun hlast => ⟨_, (congrArg Prod.snd hlast.network).trans hafter, hconversation, hrefusals⟩
  have hquiet : Quiet (do
      (watchedHost network).note outcome.listing
      (watchedHost network).writeText output outcome.account.tableText
      if !outcome.account.valid then throw .invalid : Watched σ Unit) := by
    refine (quiet_note network _).bind fun _ => (quiet_writeText network output _).bind fun _ => ?_
    split
    · exact quiet_throw _
    · exact quiet_pure _
  exact (hquiet after).mono (fun _ _ => htold) fun _ => htold

/-- The conversation comes behind whatever was done before. -/
theorem ensures_carryOut_behind {setup : Setup (σ × List Act)}
    (hs : setup.services = watchedServices remote network) (attempts : Nat)
    (output : Option String) (memory : Memory (σ × List Act)) {p : List Act → Prop}
    (h : ∀ acts, Conversation attempts memory.input acts → p (memory.network.2 ++ acts)) :
    Ensures (carryOut (watchedHost network) attempts setup output) memory
      (fun _ after => p after.network.2) fun after => p after.network.2 := by
  refine (ensures_carryOut hs attempts output memory).mono (fun _ after => ?_) fun after => ?_ <;>
  · rintro ⟨acts, hlog, hconversation, -⟩
    rw [hlog]
    exact h acts hconversation

/-- Nothing is done but in a conversation, and but for asking for the first token. -/
theorem transcript_repairWithin (network : Network σ) (attempts : Nat) (settings : Settings)
    (options : RepairOptions) (memory : Memory σ) :
    Transcript attempts memory.input (transcript network attempts settings options memory) := by
  let told (after : Memory (σ × List Act)) : Prop :=
    Transcript attempts memory.input after.network.2
  have hidle : ∀ {after}, Untouched memory.unwatched after → told after := fun hafter => by
    show Transcript attempts memory.input _
    rw [hafter.network]
    exact .idle
  show told _
  refine ensures_always.mp ?_
  refine (quiet_readJob network options).then (fun _ => hidle) fun job read hread => ?_
  refine (quiet_orFail network _ _).then (fun _ hafter => hidle (hread.trans hafter))
    fun remote found hfound => ?_
  have hsame := hread.trans hfound
  rw [firstCredential]
  cases settings.credential with
  | ok credential =>
    refine ensures_carryOut_behind (p := Transcript attempts memory.input) rfl attempts _ found
      fun acts hconversation => ?_
    rw [hsame.input] at hconversation
    rw [hsame.network]
    exact .configured hconversation
  | error error =>
    have hask : Ensures (do
          let token ← (watchedHost network).ask "Enter compiler API token"
          return { token } : Watched σ Credential) found
        (fun _ asked => asked.network.2 = found.network.2 ++ [.asked (nextLine found.input)] ∧
          asked.input = laterInput found.input) told :=
      (ensures_ask _ found).bind fun token asked hasked => ensures_pure hasked
    refine hask.bind fun credential asked hasked => ?_
    refine ensures_carryOut_behind (p := Transcript attempts memory.input) rfl attempts _ asked
      fun acts hconversation => ?_
    rw [hasked.2, hsame.input] at hconversation
    rw [hasked.1, hsame.network, hsame.input]
    exact .prompted hconversation

/-- **The command asks for another token and resumes once for each refusal, as often as it may, and
the prompts in excess of the lines of input find none. So it resumes no more often than there are
lines if and only if there are no more refusals, or no more attempts, than lines.** -/
theorem resumptions_le_lines_iff (network : Network σ) (attempts : Nat) (settings : Settings)
    (options : RepairOptions) (memory : Memory σ) :
    let acts := transcript network attempts settings options memory
    let lines := (Text.lines memory.input).length
    (resumptions acts ≤ lines ↔ refusals acts ≤ lines ∨ attempts ≤ lines) ∧
      resumptions acts = min (refusals acts) attempts ∧
      resumptions acts ≤ (prompts acts).length ∧
      (prompts acts).count none = (prompts acts).length - lines := by
  intro acts lines
  have hacts : Transcript attempts memory.input acts :=
    transcript_repairWithin network attempts settings options memory
  exact ⟨hacts.resumptions_le_iff lines, hacts.counts⟩

/-- A network with a compiler that refuses some tokens and then accepts. -/
def refusing : Network Nat where
  compiler left _ :=
    (if left = 0 then .reply 200 "\x7b\"version_id\": \"1\"\x7d" none else .reply 401 "" none,
      left - 1)
  patch left _ := (.lost "no patch", left)

/-- Settings with which nothing but other tokens is asked for. -/
def configured : Settings where
  compiler := { baseUrl := some "http://compiler", token := some "token" }
  patch := { apiKey := some "key" }

/-- A memory with a table and without input, for some refusals. -/
def noInput (refused : Nat) : Memory Nat where
  files := { entries := [("bot.csv", "h\n")] }
  input := []
  environment := []
  network := refused

/-- How the services are reached with those settings. -/
def reached : Remote where
  compilerUrl := "http://compiler"
  compilerTimeoutSeconds := 120
  patchUrl := "https://api.openai.com/v1"
  patchKey := "key"
  patchModel := "gpt-4o"
  patchTimeoutSeconds := 180

/-- The repair of that table, watched. -/
def noInputSetup : Setup (Nat × List Act) where
  services := watchedServices reached refusing
  job := { botId := "b", tableText := "h\n" }
  credential := { token := "token" }

/-- Without any input the command goes on with an empty token. -/
theorem resumptions_without_input :
    ¬ ∀ (attempts : Nat) (settings : Settings) (options : RepairOptions) (memory : Memory Nat),
      resumptions (transcript refusing attempts settings options memory) ≤
        (Text.lines memory.input).length := by
  intro h
  have hnone := h patience configured { table := "bot.csv", botId := "b" } (noInput 2)
  have hrun : transcript refusing patience configured { table := "bot.csv", botId := "b" }
      (noInput 2) = ((carryOut (watchedHost refusing) patience noInputSetup none).run.run
        (noInput 2).unwatched).2.network.2 := rfl
  obtain ⟨acts, hacts, hconversation, hrefusals⟩ :=
    ensures_always.mp (@ensures_carryOut Nat refusing reached noInputSetup rfl patience none
      (noInput 2).unwatched)
  have hstart : refusalsOf (noInputSetup.start ((noInput 2).unwatched.log .opened).network {}).1 =
      1 :=
    Setup.start_of_startWithin (p := fun ending => refusalsOf ending.1 = 1) 1 (by decide +kernel)
  rw [hstart] at hrefusals
  rw [hrun, hacts] at hnone
  have hresumptions : resumptions acts = min (refusals acts) patience :=
    (Transcript.configured hconversation).counts.1
  have hpositive : 0 < resumptions acts := by
    rw [hresumptions]
    exact Nat.lt_min.mpr ⟨hrefusals, by decide⟩
  exact Nat.not_lt.mpr hnone hpositive

end Whole

end DialogTable.Command
