import DialogTable.Flow.Descriptor
import DialogTable.Proofs.Flow.Reachable
import DialogTable.Proofs.Json.Printed

/-!
# Written flows are read again

The descriptors that are written for flows are read as the same flows, whatever characters their
names and descriptions have (`Flow.listOfText?_listToText`). The flows of a well-formed plan make
that plan again (`FlowPlan.WellFormed.ofFlows_flows`).
-/

namespace DialogTable

open Json (Document Reader Reads ReadsBefore Token)

namespace Flow

/-! ### Tokens -/

/-- The tokens of a descriptor. -/
def tokens (flow : Flow) : List Token :=
  [.openBrace, .quoted "name", .colon, .quoted flow.name, .comma,
    .quoted "description", .colon, .quoted flow.description, .comma,
    .quoted "start_node", .colon, .number (.ofInt flow.start), .closeBrace]

theorem readsBefore_member {value : String} {own : List Token} (h : ReadsBefore value.toList own)
    (key : String) :
    ReadsBefore (Json.printString key ++ ": " ++ value).toList (.quoted key :: .colon :: own) := by
  have hsep : Reads (String.toList ": ") [.colon] :=
    @Reads.append [':'] [' '] [.colon] [] (Json.reads_mark rfl) (Json.reads_space rfl)
  rw [String.toList_append, String.toList_append, List.append_assoc]
  exact (Json.reads_printString key).append_before (hsep.append_before h)

theorem reads_toJson (level : Nat) (flow : Flow) :
    Reads (flow.toJson.printIndented level).toList flow.tokens := by
  have hopen : Reads (String.toList "\x7b") [.openBrace] := Json.reads_mark rfl
  have hclose : Reads (String.toList "\x7d") [.closeBrace] := Json.reads_mark rfl
  have hname := readsBefore_member (Json.reads_printString flow.name).before "name"
  have hdescription :=
    readsBefore_member (Json.reads_printString flow.description).before "description"
  have hstart := readsBefore_member (Json.readsBefore_toString flow.start) "start_node"
  exact Json.reads_indentBlock hopen hclose level
    (.cons hname (.cons hdescription (.cons hstart .nil)))

theorem tokenize_listToText (flows : List Flow) :
    Json.tokenize (listToText flows).toList =
      some (.openBracket :: ([Token.comma].intercalate (flows.map tokens) ++ [.closeBracket])) := by
  have hopen : Reads (String.toList "[") [.openBracket] := Json.reads_mark rfl
  have hclose : Reads (String.toList "]") [.closeBracket] := Json.reads_mark rfl
  have hlines : List.Forall₂ (fun line own => ReadsBefore (String.toList line) own)
      (Json.indentedItems 1 (flows.map toJson)) (flows.map tokens) := by
    induction flows with
    | nil => exact .nil
    | cons flow rest ih => exact .cons (reads_toJson 1 flow).before ih
  exact (Json.reads_indentBlock hopen hclose 0 hlines).tokenize

/-! ### The document -/

/-- The document of a descriptor. -/
def document (flow : Flow) : Document :=
  .object [("name", .quoted flow.name), ("description", .quoted flow.description),
    ("start_node", .number (.ofInt flow.start))]

theorem foldlM_step_tokens (items : List Document) (flow : Flow) :
    flow.tokens.foldlM Reader.step (.value [.array items]) =
      some (.after flow.document [.array items]) :=
  rfl

theorem ofDocument?_document {flow : Flow} (h : Text.InRange64 flow.start) :
    ofDocument? flow.document = some flow := by
  have hfields : flow.document.fields? fieldNames = some [("name", .quoted flow.name),
      ("description", .quoted flow.description), ("start_node", .number (.ofInt flow.start))] := by
    rfl
  have hstart : Document.int? (fun n => decide (Text.InRange64 n)) (.number (.ofInt flow.start)) =
      some flow.start := by
    rw [Document.int?, Json.value_ofInt h]
    exact if_pos (decide_eq_true h)
  rw [ofDocument?, hfields]
  show (Document.int? (fun n => decide (Text.InRange64 n)) (.number (.ofInt flow.start))).bind
    (fun start => some { name := flow.name, description := flow.description, start }) = some flow
  rw [hstart]
  rfl

theorem mapM_ofDocument? {flows : List Flow} (h : ∀ flow ∈ flows, Text.InRange64 flow.start) :
    (flows.map document).mapM ofDocument? = some flows := by
  induction flows with
  | nil => rfl
  | cons flow rest ih =>
    obtain ⟨hflow, hrest⟩ := List.forall_mem_cons.1 h
    rw [List.map_cons, List.mapM_cons, ofDocument?_document hflow, ih hrest]
    rfl

/-- **Written flows are read again.** -/
theorem listOfText?_listToText {flows : List Flow} (h : ∀ flow ∈ flows, Text.InRange64 flow.start) :
    listOfText? (listToText flows) = some flows := by
  have hdocument : Document.ofText? (listToText flows) = some (.array (flows.map document)) := by
    rw [Document.ofText?, tokenize_listToText]
    show (([Token.comma].intercalate (flows.map tokens) ++ [Token.closeBracket]).foldlM Reader.step
      (.itemOrEnd [])).bind Reader.finish = _
    rw [Json.foldlM_step_array foldlM_step_tokens fun flow => ⟨.openBrace, _, rfl, nofun⟩]
    rfl
  rw [listOfText?, hdocument, Option.bind_some]
  exact mapM_ofDocument? h

end Flow

theorem FlowPlan.WellFormed.ofFlows_flows {plan : FlowPlan} (h : plan.WellFormed) :
    FlowPlan.ofFlows plan.flows = .ok plan := by
  have hstarts : (plan.flows.map Flow.start).Nodup :=
    List.pairwise_map.2 (h.ascending.imp Int.ne_of_lt)
  refine FlowPlan.ofFlows_eq_ok_iff.2 ⟨⟨h.assignable, h.distinct, hstarts⟩, ?_⟩
  rw [FlowPlan.sort, List.mergeSort_of_pairwise]
  exact h.ascending.imp fun hlt => decide_eq_true (Int.le_of_lt hlt)

end DialogTable
