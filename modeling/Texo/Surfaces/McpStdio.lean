import Texo.Error
import Texo.Foundation.Json
import Texo.Foundation.Pieces
import Texo.Surfaces.Http.Chunked

/-! # The MCP surface over standard streams

The loop reads its input line by line and answers each line on one line of its output. A line that
is not text ends the loop; what else is malformed is answered and passed over.
-/
namespace Texo.Surfaces.Mcp
open Texo.Foundation Texo.Foundation.Json Texo.Ops Texo.Surfaces.Http

/-- `LINE_CAP`. -/
def lineCap : Nat := 1024 * 1024

/-- `DEFAULT_PROTOCOL_VERSION`. -/
def defaultProtocolVersion : String := "2025-06-18"

/-- `SUPPORTED_PROTOCOL_VERSIONS`. -/
def supportedProtocolVersions : List String := ["2025-06-18", "2024-11-05"]

/-- `serde_json::from_str`. -/
class SerdeJson where
  fromStr : String → Option Value

/-- The texts of the agent catalog. -/
class AgentCatalog where
  version : String
  instructions : String
  toolsList : Value

/-- What an error shows of itself and of its facts. -/
structure ToolFailure where
  message : String
  code : String
  committed : String
  retrySafe : Bool
  resume : Option String

/-- What the tools run on: the workspace that the configuration of the root names, if there is one,
the host of a workspace and the operations of an open host. -/
structure ToolHost (World : Type) where
  configured : ExceptT ToolFailure (StateM World) (Option String)
  openWorkspace : String → Option String → ExceptT ToolFailure (StateM World) Unit
  invokeJson : String → Value → ExceptT ToolFailure (StateM World) Value

section Responses

/-- `success_response`. -/
def successResponse (id result : Value) : Value :=
  .ofFields [("jsonrpc", .string "2.0"), ("id", id), ("result", result)]

/-- `error_response`, of a negative code. -/
def errorResponse (id : Value) (code : Nat) (message : String) (data : Option Value) : Value :=
  let error := Value.ofFields ([("code", .number (.negative code)), ("message", .string message)] ++
    data.toList.map fun value => ("data", value))
  .ofFields [("jsonrpc", .string "2.0"), ("id", id), ("error", error)]

/-- `failure_data`. -/
def failureData (failure : ToolFailure) : Value :=
  .ofFields [("code", .string failure.code), ("committed", .string failure.committed),
    ("retry_safe", .bool failure.retrySafe),
    ("resume", failure.resume.elim .null Value.string)]

/-- `array_len`. -/
def arrayLen (value : Value) (key : String) : Nat :=
  ((value.get key).bind Value.asArray).elim 0 List.length

/-- A count of an output. -/
def countOf (value : Value) (key : String) : Nat := ((value.get key).bind Value.asU64).getD 0

/-- A flag of an output. -/
def flagOf (value : Value) (key : String) : Bool := ((value.get key).bind Value.asBool).getD false

/-- `tool_summary`. -/
def toolSummary (name : String) (output : Value) : String :=
  if name = "get_agent_context" then
    "Loaded " ++ toString (arrayLen output "claims") ++ " current claims and " ++
      toString (arrayLen output "conflicts") ++ " open conflicts through frontier " ++
      toString (countOf output "replayed_through_sequence") ++ "."
  else if name = "search_knowledge" then
    "Returned " ++ toString (countOf output "returned") ++ " of " ++
      toString (countOf output "total") ++ " matching claims" ++
      (if flagOf output "has_more" then "; more results are available" else "") ++ "."
  else if name = "explain_knowledge" then
    "Loaded the claim card and snapshot-bounded journal timeline."
  else if name = "triangulate" then
    "Triangulation state is " ++
      ((output.get "answer_state").bind Value.asStr).getD "unverified" ++ "; found " ++
      toString (arrayLen output "assertions") ++ " assertions, " ++
      toString (arrayLen output "evidence") ++ " exact claim-evidence occurrences, and " ++
      toString (arrayLen output "structural_evidence") ++ " code occurrences."
  else if name = "get_workspace_status" then
    "Workspace is at frontier " ++ toString (countOf output "frontier") ++
      "; settlement complete: " ++ toString (flagOf output "settlement_complete") ++ "."
  else
    "Texo operation completed."

/-- `output_snapshot_token`. -/
def outputSnapshotToken (output : Value) : Value :=
  ((output.get "snapshot").bind fun snapshot => snapshot.get "token").getD .null

/-- One proposed action. -/
def proposedAction (tool reason : String) (arguments : List (String × Value)) : Value :=
  .array [.ofFields [("tool", .string tool), ("reason", .string reason),
    ("arguments", .ofFields arguments)]]

/-- `next_actions`. -/
def nextActions (name : String) (output : Value) : Value :=
  let token := ("snapshot_token", outputSnapshotToken output)
  if name = "get_agent_context" then
    proposedAction "search_knowledge" "Narrow the workspace context to the task when needed."
      [token]
  else if name = "search_knowledge" then
    let first := ((output.get "results").bind Value.asArray).bind List.head?
    let kind := (first.bind fun result => result.get "kind").bind Value.asStr
    let inside (part field : String) : Value :=
      ((first.bind fun result => result.get part).bind fun found => found.get field).getD .null
    if kind = some "claim" then
      proposedAction "explain_knowledge" "Inspect provenance and authority for a matching claim."
        [("claim_id", inside "claim" "claim_id"), token]
    else if kind = some "code" then
      proposedAction "triangulate"
        "Inspect exact code occurrences and coverage for the matching symbol."
        [("target", .ofFields [("kind", .string "symbol"),
          ("symbol", inside "occurrence" "symbol")]), token]
    else
      .array []
  else if name = "triangulate" then
    proposedAction "get_agent_context" ("Load current and replacement claims when triangulation " ++
      "is stale, contradicted, or incomplete.") [("include_stale", .bool true), token]
  else
    .array []

/-- `agent_catalog::find`, of the result schema. -/
def findResultSchema (name : String) : Option String :=
  [("get_agent_context", "texo.mcp.agent-context.v2"),
    ("search_knowledge", "texo.mcp.knowledge-search.v3"),
    ("explain_knowledge", "texo.mcp.knowledge-explain.v2"),
    ("triangulate", "texo.mcp.triangulation.v2"),
    ("get_workspace_status", "texo.mcp.workspace-status.v2")].lookup name

end Responses

section Tools

/-- `MappedTool`. -/
structure MappedTool where
  op : String
  input : List (String × Value)

/-- `map_tool_input`. -/
def mapToolInput (name : String) (args : Value) : Except String MappedTool :=
  let given (key : String) (default : Value) : Value := (args.get key).getD default
  if name = "triangulate" then
    match args.get "target" with
    | none => .error "missing target"
    | some target => .ok ⟨"texo.knowledge.triangulate", [("target", target)]⟩
  else if name = "search_knowledge" then
    .ok ⟨"texo.knowledge.search",
      [("query", given "query" .null), ("subject", given "subject_hint" .null),
        ("status", given "status" .null), ("limit", given "limit" (.number (.ofNat 25))),
        ("cursor", given "cursor" .null)]⟩
  else if name = "get_agent_context" then
    .ok ⟨"texo.context.agent",
      [("subject", given "subject_hint" .null),
        ("include_stale", .bool (flagOf args "include_stale"))]⟩
  else if name = "explain_knowledge" then
    match (args.get "claim_id").bind Value.asStr with
    | none => .error "missing claim_id"
    | some claimId => .ok ⟨"texo.claim.explain", [("claim_id", .string claimId)]⟩
  else if name = "get_workspace_status" then
    .ok ⟨"texo.workspace.status", [("snapshot", given "snapshot_token" .null)]⟩
  else
    .error "unknown tool"

/-- Why a tool call is not answered with a result. -/
structure Refusal where
  code : Nat
  message : String
  data : Option Value := none

/-- The refusal of a failed operation. -/
def Refusal.ofFailure (failure : ToolFailure) : Refusal :=
  ⟨32603, failure.message, some (failureData failure)⟩

variable {World : Type} (host : ToolHost World)

/-- `open_host`: the given workspace, the configured one or the demonstration. -/
def openHost (workspace journal : Option String) : ExceptT ToolFailure (StateM World) Unit := do
  let named ← match workspace with
    | some workspace => pure workspace
    | none => do
      let configured ← host.configured
      pure (configured.getD "demo")
  host.openWorkspace named journal

/-- The result of a tool call, or the refusal that is returned early. -/
def toolResult (params : Option Value) (workspace journal : Option String) :
    ExceptT Refusal (StateM World) Value := do
  let some params := params | throw ⟨32602, "invalid params", none⟩
  let some name := (params.get "name").bind Value.asStr | throw ⟨32602, "invalid params", none⟩
  let args := (params.get "arguments").getD (.object [])
  let mapped ← match mapToolInput name args with
    | .ok mapped => pure mapped
    | .error message => throw ⟨32602, message, none⟩
  (openHost host workspace journal).adapt Refusal.ofFailure
  let status ← (host.invokeJson "texo.workspace.status"
    (.ofFields [("snapshot", (args.get "snapshot_token").getD .null)])).adapt Refusal.ofFailure
  let some token := ((status.get "snapshot").bind fun snapshot => snapshot.get "token").bind
    Value.asStr | throw ⟨32603, "workspace status omitted snapshot token", none⟩
  let input := Value.ofFields (mapped.input ++ [("snapshot", .string token)])
  let output ← if name = "get_workspace_status" then pure status
    else (host.invokeJson mapped.op input).adapt Refusal.ofFailure
  let some schema := findResultSchema name | throw ⟨32602, "unknown tool", none⟩
  return .ofFields
    [("content", .array [.ofFields [("type", .string "text"),
        ("text", .string (toolSummary name output))]]),
      ("structuredContent", .ofFields [("schema", .string schema), ("data", output),
        ("meta", status), ("next_actions", nextActions name output)]),
      ("isError", .bool false)]

/-- `call_tool`: the result or the refusal, under the id of the request. -/
def callTool (id : Value) (params : Option Value) (workspace journal : Option String)
    (world : World) : Value × World :=
  match (toolResult host params workspace journal).run.run world with
  | (.ok result, after) => (successResponse id result, after)
  | (.error refusal, after) => (errorResponse id refusal.code refusal.message refusal.data, after)

/-- A result stands under the id of its request. -/
theorem get_successResponse (id result : Value) :
    (successResponse id result).get "id" = some id := by
  show List.lookup "id" _ = _
  simp [lookup_insertField]

/-- A failure stands under the id of its request. -/
theorem get_errorResponse (id : Value) (code : Nat) (message : String) (data : Option Value) :
    (errorResponse id code message data).get "id" = some id := by
  show List.lookup "id" _ = _
  simp [lookup_insertField]

/-- A tool call is answered under the id of its request. -/
theorem get_callTool (id : Value) (params : Option Value) (workspace journal : Option String)
    (world : World) :
    (callTool host id params workspace journal world).1.get "id" = some id := by
  unfold callTool
  cases outcome : (toolResult host params workspace journal).run.run world with
  | mk result after =>
    cases result with
    | ok result => exact get_successResponse id result
    | error refusal => exact get_errorResponse id _ _ _

end Tools

/-- What was read of a stream and what is left make it up. -/
theorem readUntil_append (delimiter : UInt8) (stream : List UInt8) :
    (readUntil delimiter stream).1 ++ (readUntil delimiter stream).2 = stream := by
  unfold readUntil
  cases cut : splitOnce [delimiter] stream with
  | none => exact List.append_nil stream
  | some parts =>
    show parts.1 ++ [delimiter] ++ parts.2 = stream
    rw [List.append_assoc]
    exact (splitOnce_eq cut).symm

/-- Nothing is read at the end of a stream only. -/
theorem eq_nil_of_readUntil {delimiter : UInt8} {stream : List UInt8}
    (ended : (readUntil delimiter stream).1 = []) : stream = [] := by
  unfold readUntil at ended
  cases cut : splitOnce [delimiter] stream with
  | none =>
    rw [cut] at ended
    exact ended
  | some parts =>
    rw [cut] at ended
    exact absurd ended (List.append_ne_nil_of_right_ne_nil _ (List.cons_ne_nil _ _))

/-- A stream that is not at its end has a first line, and the lines of what is left. -/
theorem pieces_readUntil {stream : List UInt8} (some : stream ≠ []) :
    pieces 10 stream = (readUntil 10 stream).1 :: pieces 10 (readUntil 10 stream).2 := by
  unfold readUntil
  cases cut : splitOnce [10] stream with
  | none =>
    have absent : 10 ∉ stream := by
      intro member
      have found := splitOnce_isSome.mpr member
      rw [cut] at found
      cases found
    exact pieces_last absent some
  | some parts =>
    have whole : stream = parts.1 ++ 10 :: parts.2 := splitOnce_eq cut
    have clear := notMem_of_splitOnce cut
    show pieces 10 stream = (parts.1 ++ [10]) :: pieces 10 parts.2
    rw [whole, pieces_append clear]

/-- Cutting a list at the first item that is not kept leaves out an item that counts. -/
theorem countP_takeWhile_lt {Item : Type} {keep counted : Item → Bool} {items : List Item}
    (counts : ∀ item, keep item = false → counted item = true)
    (cut : ¬∀ item ∈ items, keep item = true) :
    (items.takeWhile keep).countP counted < items.countP counted := by
  induction items with
  | nil => exact absurd (fun _ member => absurd member List.not_mem_nil) cut
  | cons item items ih =>
    cases kept : keep item with
    | false =>
      rw [List.takeWhile_cons, kept, List.countP_cons_of_pos (counts item kept)]
      exact Nat.succ_pos _
    | true =>
      have later : ¬∀ item ∈ items, keep item = true := by
        intro every
        apply cut
        intro other member
        cases List.mem_cons.mp member with
        | inl same => rw [same, kept]
        | inr inside => exact every other inside
      have fewer := ih later
      rw [List.takeWhile_cons, kept, if_pos rfl, List.countP_cons, List.countP_cons]
      omega

section Lines
variable [SerdeJson] [AgentCatalog] {World : Type} (host : ToolHost World)
  (workspace journal : Option String)

/-- `initialize_result`. -/
def initializeResult (value : Value) : Value :=
  let requested := (((value.get "params").bind fun params => params.get "protocolVersion").bind
    Value.asStr).getD defaultProtocolVersion
  let protocol := (supportedProtocolVersions.find? fun supported => supported = requested).getD
    defaultProtocolVersion
  .ofFields
    [("protocolVersion", .string protocol), ("capabilities", .ofFields [("tools", .ofFields [])]),
      ("serverInfo", .ofFields [("name", .string "texo"),
        ("version", .string AgentCatalog.version)]),
      ("instructions", .string AgentCatalog.instructions)]

/-- A request without an id whose method is a notification's. -/
def isNotification (value : Value) : Bool :=
  (value.get "id").isNone && ((value.get "method").bind Value.asStr).any fun method =>
    "notifications/".toList.isPrefixOf method.toList

/-- `handle_line`. -/
def handleLine (line : String) (world : World) : Option Value × World :=
  match SerdeJson.fromStr line with
  | none => (some (errorResponse .null 32700 "parse error" none), world)
  | some value =>
    if isNotification value then
      (none, world)
    else
      let id := (value.get "id").getD .null
      match (value.get "method").bind Value.asStr with
      | none => (some (errorResponse id 32600 "invalid request" none), world)
      | some method =>
        if method = "initialize" then
          (some (successResponse id (initializeResult value)), world)
        else if method = "tools/list" then
          (some (successResponse id AgentCatalog.toolsList), world)
        else if method = "tools/call" then
          let (response, after) :=
            callTool host id (value.get "params") workspace journal world
          (some response, after)
        else
          (some (errorResponse id 32601 "method not found" none), world)

/-- The answer to a line of text. -/
def answerLine (line : String) (world : World) : Option Value × World :=
  if lineCap < line.utf8ByteSize then
    (some (errorResponse .null 32700 "parse error" none), world)
  else
    handleLine host workspace journal line world

/-- The bytes of a response: its compact text and a line feed. -/
def writeResponse (response : Value) : List UInt8 := encodeChars response.write ++ [10]

/-- What a run of the loop leaves. -/
structure McpRun (World : Type) where
  result : Except TexoError Unit
  output : List UInt8
  unread : List UInt8
  world : World

/-- `run_with_io`: answer line after line, until the input ends or a line is not text. -/
def runWithIo (world : World) (input : List UInt8) : McpRun World :=
  if (readUntil 10 input).1 = [] then
    ⟨.ok (), [], (readUntil 10 input).2, world⟩
  else
    match fromUtf8 (readUntil 10 input).1 with
    | none =>
      ⟨.error (.io "stream did not contain valid UTF-8"), [], (readUntil 10 input).2, world⟩
    | some line =>
      let answer := answerLine host workspace journal line world
      let later := runWithIo answer.2 (readUntil 10 input).2
      { later with output := answer.1.elim [] writeResponse ++ later.output }
termination_by input.length
decreasing_by
  have whole := congrArg List.length (readUntil_append 10 input)
  have some := List.length_pos_of_ne_nil ‹¬(readUntil 10 input).1 = []›
  rw [List.length_append] at whole
  omega

/-- The request on a line, where it is text within the cap and parses. -/
def parsedLine (line : List UInt8) : Option Value :=
  (fromUtf8 line).bind fun text =>
    if lineCap < text.utf8ByteSize then none else SerdeJson.fromStr text

/-- A line that is no notification. -/
def awaitsAnswer (line : List UInt8) : Bool := !(parsedLine line).any isNotification

/-- The id of a line: that of its request, or null. -/
def lineId (line : List UInt8) : Value :=
  ((parsedLine line).bind fun value => value.get "id").getD .null

/-- A run reads its input to the end and answers, in the order of the input, each line that is no
notification on one line of the output, under the id of the line. -/
structure AnswersLines (input : List UInt8) (run : McpRun World) : Prop where
  consumed : run.unread = []
  answered : ∃ responses : List Value,
    pieces 10 run.output = responses.map writeResponse ∧
      responses.map (fun response => response.get "id") =
        ((pieces 10 input).filter awaitsAnswer).map fun line => some (lineId line)

/-- A request that is no notification is answered once, under its id. -/
theorem ids_handleLine {line : String} {value : Value}
    (parsed : SerdeJson.fromStr line = some value) (world : World) :
    (handleLine host workspace journal line world).1.toList.map (fun response =>
      response.get "id") =
        if isNotification value then [] else [some ((value.get "id").getD .null)] := by
  unfold handleLine
  rw [parsed]
  dsimp only
  by_cases silent : isNotification value = true
  · rw [if_pos silent, if_pos silent]
    rfl
  · rw [if_neg silent, if_neg silent]
    cases (value.get "method").bind Value.asStr with
    | none => exact congrArg (fun id => [id]) (get_errorResponse _ _ _ _)
    | some method =>
      dsimp only
      split
      · exact congrArg (fun id => [id]) (get_successResponse _ _)
      · split
        · exact congrArg (fun id => [id]) (get_successResponse _ _)
        · split
          · exact congrArg (fun id => [id]) (get_callTool host _ _ workspace journal world)
          · exact congrArg (fun id => [id]) (get_errorResponse _ _ _ _)

/-- A line of text that is no notification is answered once, under its id. -/
theorem ids_answerLine {line : List UInt8} {text : String} (read : fromUtf8 line = some text)
    (world : World) :
    (answerLine host workspace journal text world).1.toList.map (fun response =>
      response.get "id") = if awaitsAnswer line then [some (lineId line)] else [] := by
  have parse : parsedLine line =
      if lineCap < text.utf8ByteSize then none else SerdeJson.fromStr text := by
    unfold parsedLine
    rw [read]
    rfl
  unfold awaitsAnswer lineId answerLine
  by_cases long : lineCap < text.utf8ByteSize
  · rw [if_pos long] at parse
    rw [if_pos long]
    simp only [parse]
    exact congrArg (fun id => [id]) (get_errorResponse _ _ _ _)
  · rw [if_neg long] at parse
    rw [if_neg long]
    simp only [parse]
    cases parsed : (SerdeJson.fromStr text : Option Value) with
    | none =>
      unfold handleLine
      rw [parsed]
      exact congrArg (fun id => [id]) (get_errorResponse _ _ _ _)
    | some value =>
      rw [ids_handleLine host workspace journal parsed world]
      cases silent : isNotification value <;> simp [silent]

/-- What a run writes answers the lines before the first that is not text. It ends at the end of its
input if every line is text. -/
theorem runWithIo_spec (world : World) (input : List UInt8) :
    (∃ responses : List Value,
      (runWithIo host workspace journal world input).output = responses.flatMap writeResponse ∧
        responses.map (fun response => response.get "id") =
          (((pieces 10 input).takeWhile fun line => (fromUtf8 line).isSome).filter
            awaitsAnswer).map fun line => some (lineId line)) ∧
      ((∀ line ∈ pieces 10 input, (fromUtf8 line).isSome = true) →
        (runWithIo host workspace journal world input).unread = []) := by
  induction size : input.length using Nat.strongRecOn generalizing input world with
  | ind length ih =>
    have whole := readUntil_append 10 input
    rw [runWithIo]
    by_cases ended : (readUntil 10 input).1 = []
    · rw [if_pos ended, eq_nil_of_readUntil ended]
      exact ⟨⟨[], rfl, rfl⟩, fun _ => rfl⟩
    · rw [if_neg ended]
      have some : input ≠ [] := by
        intro empty
        rw [empty] at ended
        exact ended rfl
      have shorter : (readUntil 10 input).2.length < length := by
        have sizes := congrArg List.length whole
        have positive := List.length_pos_of_ne_nil ended
        rw [List.length_append] at sizes
        omega
      rw [pieces_readUntil some]
      cases read : fromUtf8 (readUntil 10 input).1 with
      | none =>
        refine ⟨⟨[], rfl, ?_⟩, ?_⟩
        · rw [List.takeWhile_cons, read]
          rfl
        · intro texts
          have text := texts _ List.mem_cons_self
          rw [read] at text
          cases text
      | some text =>
        dsimp only
        obtain ⟨⟨responses, written, ids⟩, consumed⟩ := ih _ shorter
          (answerLine host workspace journal text world).2 (readUntil 10 input).2 rfl
        refine ⟨⟨(answerLine host workspace journal text world).1.toList ++ responses, ?_, ?_⟩,
          ?_⟩
        · rw [List.flatMap_append, written]
          cases (answerLine host workspace journal text world).1 with
          | none => rfl
          | some response =>
            show writeResponse response ++ _ = [response].flatMap writeResponse ++ _
            rw [List.flatMap_singleton]
        · rw [List.map_append, ids, ids_answerLine host workspace journal read world,
            List.takeWhile_cons, read, if_pos Option.isSome_some, List.filter_cons]
          cases awaitsAnswer (readUntil 10 input).1 <;> rfl
        · intro texts
          exact consumed fun line member => texts line (List.mem_cons_of_mem _ member)

/-- The loop reads its input to the end and answers each line that is no notification, in order, on
one line and under its id, if and only if every line of the input is valid UTF-8. -/
theorem answersLines_iff (world : World) (input : List UInt8) :
    AnswersLines input (runWithIo host workspace journal world input) ↔
      ∀ line ∈ pieces 10 input, (fromUtf8 line).isSome = true := by
  obtain ⟨⟨responses, written, ids⟩, consumed⟩ :=
    runWithIo_spec host workspace journal world input
  have single : pieces 10 (runWithIo host workspace journal world input).output =
      responses.map writeResponse := by
    rw [written]
    exact pieces_flatMap fun response _ => notMem_encodeChars (newline_notMem_write response)
  constructor
  · intro answers
    obtain ⟨answered, shown, wanted⟩ := answers.answered
    have count : responses.length = answered.length := by
      have same := congrArg List.length (single.symm.trans shown)
      simpa using same
    by_contra broken
    have fewer : ((pieces 10 input).takeWhile fun line => (fromUtf8 line).isSome).countP
        awaitsAnswer < (pieces 10 input).countP awaitsAnswer := by
      apply countP_takeWhile_lt _ broken
      intro line garbled
      unfold awaitsAnswer parsedLine
      rw [Option.isSome_eq_false_iff, Option.isNone_iff_eq_none] at garbled
      rw [garbled]
      rfl
    have before := congrArg List.length ids
    have all := congrArg List.length wanted
    simp only [List.length_map, ← List.countP_eq_length_filter] at before all
    omega
  · intro texts
    refine ⟨consumed texts, responses, single, ?_⟩
    rw [ids, List.takeWhile_eq_self_iff.mpr texts]

end Lines

/-- A parser that reads no line. -/
@[reducible] def noJson : SerdeJson where
  fromStr _ := none

/-- An empty catalog. -/
@[reducible] def noCatalog : AgentCatalog where
  version := ""
  instructions := ""
  toolsList := .null

/-- A host without tools. -/
def noTools : ToolHost Unit where
  configured := pure none
  openWorkspace _ _ := pure ()
  invokeJson _ _ := pure .null

/-- A byte that is not text, before a line that is not JSON, leaves both without an answer. -/
theorem garbled_line_ends_loop :
    let _ := noJson
    let _ := noCatalog
    ¬AnswersLines [255, 10, 120, 10] (runWithIo noTools none none () [255, 10, 120, 10]) := by
  intro _ _ answers
  obtain ⟨responses, written, ids⟩ := answers.answered
  have stopped : (runWithIo noTools none none () [255, 10, 120, 10]).output = [] := by
    rw [runWithIo]
    rfl
  rw [stopped] at written
  have none : responses = [] := List.map_eq_nil_iff.mp written.symm
  rw [none] at ids
  have waiting : ((pieces 10 [255, 10, 120, 10]).filter awaitsAnswer).length = 2 := by
    decide +kernel
  have counted := congrArg List.length ids
  rw [List.length_map, List.length_map, waiting] at counted
  cases counted

end Texo.Surfaces.Mcp
