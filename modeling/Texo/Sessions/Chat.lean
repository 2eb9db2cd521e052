import Texo.Sessions.Memory
import Texo.Sessions.Turns

/-! # Chat calls

A chat call journals its user turn, reads the session back and asks the model. The turn it has just
stored is part of the history it reads, and the request builder adds the message once more.
-/
namespace Texo.Sessions
open Texo.Extract Texo.Claims Texo.Semantics

/-- Input of `texo.agent.chat`. -/
structure AgentChatInput where
  sessionId : String
  message : String
  observedAtMs : Nat
deriving DecidableEq, Repr

/-- Output of `texo.agent.chat`. -/
structure AgentChatOutput where
  reply : String
  memoryUsed : List MemoryClaim
deriving DecidableEq, Repr

/-- What a chat call finds outside the session: the resolved role, the assembled view and the
model, as what it answers to a request. -/
structure ChatWorld where
  role : ResolvedRole
  view : Except TexoError WorkspaceView
  complete : ChatRequest → Except TexoError String

/-- The chat turn of a stored turn; other speakers have none. -/
def utteranceOf (turn : TurnEntry) : Option Utterance :=
  if turn.speaker = "user" then
    some ⟨.user, turn.text⟩
  else if turn.speaker = "assistant" then
    some ⟨.assistant, turn.text⟩
  else
    none

/-- `complete_chat`: the request it sends, and what comes of it. -/
def completeChat (world : ChatWorld) (memory : MemorySnapshot) (history : List TurnEntry)
    (userMessage : String) : Option ChatRequest × Except TexoError String :=
  if !world.role.isEnabled then
    (none, .error (.model "chat is disabled: TEXO_LLM_API_KEY is not set"))
  else
    let body := buildChatRequest world.role (buildSystemPrompt memory)
      (history.filterMap utteranceOf) userMessage
    (some body, world.complete body)

/-- What a chat call leaves: the stored turns, the request sent to the model and the result. -/
structure ChatRun where
  store : List TurnEntry
  sent : Option ChatRequest
  result : Except TexoError AgentChatOutput

/-- `agent_chat`. -/
def agentChat (world : ChatWorld) (store : List TurnEntry) (workspaceId : String)
    (input : AgentChatInput) : ChatRun :=
  match validateSessionInput "texo.agent.chat" input.sessionId with
  | .error error => ⟨store, none, .error error⟩
  | .ok () =>
    if (trim input.message.toList).isEmpty then
      ⟨store, none, .error (.opInput "texo.agent.chat" "empty message")⟩
    else
      match nextTurnPayload store workspaceId input.sessionId .user input.message
          input.observedAtMs with
      | .error error => ⟨store, none, .error error⟩
      | .ok user =>
        let journaled := appendTurn store user
        match world.view with
        | .error error => ⟨journaled, none, .error error⟩
        | .ok view =>
          let memory := memorySnapshot view
          let history := readSessionTurns journaled input.sessionId
          match completeChat world memory history input.message with
          | (sent, .error error) => ⟨journaled, sent, .error error⟩
          | (sent, .ok reply) =>
            match nextTurnPayload journaled workspaceId input.sessionId .assistant reply
                input.observedAtMs with
            | .error error => ⟨journaled, sent, .error error⟩
            | .ok assistant =>
              ⟨appendTurn journaled assistant, sent, .ok ⟨reply, memory.current⟩⟩

/-- The checks before a request: a call that passes them asks the model, with this view and this
user turn. -/
def ChatWorld.asks (world : ChatWorld) (store : List TurnEntry) (workspaceId : String)
    (input : AgentChatInput) : Option (WorkspaceView × TurnEntry) :=
  if !(trim input.message.toList).isEmpty && world.role.isEnabled then
    match validateSessionInput "texo.agent.chat" input.sessionId,
      nextTurnPayload store workspaceId input.sessionId .user input.message input.observedAtMs,
      world.view with
    | .ok (), .ok user, .ok view => some (view, user)
    | _, _, _ => none
  else
    none

/-- The messages owed to the model: the prompt, each earlier turn and the new message. -/
def messagesOwed (view : WorkspaceView) (earlier : List TurnEntry) (message : String) :
    List ChatMessage :=
  ⟨"system", systemPrompt view⟩ :: (earlier.filterMap utteranceOf).map Utterance.message ++
    [⟨"user", message⟩]

/-- What a call sends, it sends as owed. -/
def SendsOwed (world : ChatWorld) (store : List TurnEntry) (workspaceId : String)
    (input : AgentChatInput) : Prop :=
  ∀ request, (agentChat world store workspaceId input).sent = some request →
    ∀ view, world.view = .ok view →
      request.messages = messagesOwed view (readSessionTurns store input.sessionId) input.message

/-- Turns that session calls have stored, each planned on the turns stored at some earlier time. -/
inductive Journaled (workspaceId : String) : List TurnEntry → Prop
  | empty : Journaled workspaceId []
  | append {earlier store : List TurnEntry} {sessionId text : String} {speaker : Speaker}
      {observedAtMs : Nat} {turn : TurnEntry} (journaled : Journaled workspaceId store)
      (before : earlier <+: store)
      (planned : nextTurnPayload earlier workspaceId sessionId speaker text observedAtMs =
        .ok turn) : Journaled workspaceId (appendTurn store turn)

/-- The request of a call that asks the model. -/
theorem agentChat_sent (world : ChatWorld) (store : List TurnEntry) (workspaceId : String)
    (input : AgentChatInput) :
    (agentChat world store workspaceId input).sent =
      (world.asks store workspaceId input).map fun asked =>
        buildChatRequest world.role (systemPrompt asked.1)
          ((readSessionTurns (appendTurn store asked.2) input.sessionId).filterMap utteranceOf)
          input.message := by
  unfold agentChat ChatWorld.asks
  cases valid : validateSessionInput "texo.agent.chat" input.sessionId with
  | error error => simp
  | ok _ =>
    by_cases blank : (trim input.message.toList).isEmpty = true
    · simp [blank]
    · cases planned : nextTurnPayload store workspaceId input.sessionId .user input.message
          input.observedAtMs with
      | error error => simp [blank]
      | ok user =>
        cases assembled : world.view with
        | error error => simp [blank]
        | ok view =>
          by_cases enabled : world.role.isEnabled = true
          · simp only [blank, enabled, completeChat]
            cases answered : world.complete (buildChatRequest world.role
              (buildSystemPrompt (memorySnapshot view))
              ((readSessionTurns (appendTurn store user) input.sessionId).filterMap utteranceOf)
              input.message) with
            | error error => simp [systemPrompt]
            | ok reply =>
              cases last : nextTurnPayload (appendTurn store user) workspaceId input.sessionId
                .assistant reply input.observedAtMs <;> simp [last, systemPrompt]
          · simp [blank, enabled, completeChat]

/-- The user turn of a call that asks the model is planned on the stored turns. -/
theorem ChatWorld.asks_planned {world : ChatWorld} {store : List TurnEntry} {workspaceId : String}
    {input : AgentChatInput} {asked : WorkspaceView × TurnEntry}
    (asks : world.asks store workspaceId input = some asked) :
    world.view = .ok asked.1 ∧
      nextTurnPayload store workspaceId input.sessionId .user input.message input.observedAtMs =
        .ok asked.2 := by
  unfold ChatWorld.asks at asks
  split at asks
  · split at asks
    · rename_i _ user view _ planned assembled
      have same := Option.some.inj asks
      rw [← same]
      exact ⟨assembled, planned⟩
    · cases asks
  · cases asks

/-- A planned turn is numbered by the length of its lane. -/
theorem nextTurnPayload_turnNo {store : List TurnEntry} {workspaceId sessionId text : String}
    {speaker : Speaker} {observedAtMs : Nat} {turn : TurnEntry}
    (planned : nextTurnPayload store workspaceId sessionId speaker text observedAtMs = .ok turn) :
    turn.turnNo = (lane store sessionId).length + 1 := by
  unfold nextTurnPayload at planned
  split at planned
  · cases planned
  · split at planned
    · rw [← Except.ok.inj planned]
    · cases planned

/-- A planned turn of a known speaker has a message. -/
theorem utteranceOf_planned {turn : TurnEntry} (spoken : turn.speaker = Speaker.user.asStr) :
    utteranceOf turn = some ⟨.user, turn.text⟩ := by
  unfold utteranceOf
  rw [spoken]
  rfl

/-- A new turn of the session adds one message to its history. -/
theorem length_history_append {store : List TurnEntry} {turn : TurnEntry}
    (spoken : turn.speaker = Speaker.user.asStr) :
    ((readSessionTurns (store ++ [turn]) turn.sessionId).filterMap utteranceOf).length =
      ((readSessionTurns store turn.sessionId).filterMap utteranceOf).length + 1 := by
  have sorted : ∀ turns : List TurnEntry,
      ((turns.insertionSort fun a b => a.turnNo ≤ b.turnNo).filterMap utteranceOf).length =
        (turns.filterMap utteranceOf).length := fun turns =>
    ((List.perm_insertionSort _ turns).filterMap utteranceOf).length_eq
  have added : lane (store ++ [turn]) turn.sessionId = lane store turn.sessionId ++ [turn] := by
    unfold lane
    rw [List.filter_append]
    simp
  unfold readSessionTurns
  rw [sorted, sorted, added, List.filterMap_append, List.length_append]
  congr 1
  rw [List.filterMap_cons_some (utteranceOf_planned spoken)]
  rfl

/-- A call that asks the model sends what is owed exactly when the number of its user turn is
already stored. -/
theorem sendsOwed_of_asks {world : ChatWorld} {store : List TurnEntry} {workspaceId : String}
    {input : AgentChatInput} {asked : WorkspaceView × TurnEntry}
    (asks : world.asks store workspaceId input = some asked) :
    SendsOwed world store workspaceId input ↔ store.any asked.2.sameKey = true := by
  obtain ⟨assembled, planned⟩ := ChatWorld.asks_planned asks
  obtain ⟨_, session, spoken⟩ := nextTurnPayload_of planned
  have sent := agentChat_sent world store workspaceId input
  rw [asks, Option.map_some] at sent
  by_cases taken : store.any asked.2.sameKey = true
  · refine iff_of_true ?_ taken
    intro request same view known
    have one : view = asked.1 := Except.ok.inj (known.symm.trans assembled)
    rw [sent, appendTurn, if_pos taken] at same
    rw [← Option.some.inj same, one]
    rfl
  · refine iff_of_false ?_ taken
    intro owed
    have same := congrArg List.length (owed _ sent asked.1 assembled)
    have longer := @length_history_append store asked.2 (Prod.mk.inj spoken).1
    rw [session] at longer
    rw [appendTurn, if_neg taken] at same
    simp only [buildChatRequest, messagesOwed, List.length_append, List.length_cons,
      List.length_map, List.length_nil] at same
    omega

/-- A lane only grows. -/
theorem length_lane_le {earlier store : List TurnEntry} (before : earlier <+: store)
    (sessionId : String) : (lane earlier sessionId).length ≤ (lane store sessionId).length :=
  (before.filter _).length_le

/-- Stored turns stay. -/
theorem prefix_appendTurn (store : List TurnEntry) (turn : TurnEntry) :
    store <+: appendTurn store turn := by
  unfold appendTurn
  split
  · exact List.prefix_refl store
  · exact List.prefix_append store [turn]

/-- Session calls number their turns within the lane. -/
theorem Journaled.numbered {workspaceId : String} {store : List TurnEntry}
    (journaled : Journaled workspaceId store) :
    ∀ turn ∈ store, turn.turnNo ≤ (lane store turn.sessionId).length := by
  induction journaled with
  | empty => exact fun turn member => absurd member List.not_mem_nil
  | @append earlier store sessionId text speaker observedAtMs new journaled before planned ih =>
    have kept : ∀ turn ∈ store, turn.turnNo ≤ (lane (appendTurn store new) turn.sessionId).length :=
      fun turn member => le_trans (ih turn member)
        (length_lane_le (prefix_appendTurn store new) turn.sessionId)
    intro turn member
    by_cases taken : store.any new.sameKey = true
    · have same : appendTurn store new = store := if_pos taken
      rw [same] at member
      exact kept turn member
    · have grown : appendTurn store new = store ++ [new] := if_neg taken
      rw [grown] at member
      rcases List.mem_append.mp member with old | last
      · exact kept turn old
      · rw [List.mem_singleton.mp last, grown]
        have session := (nextTurnPayload_of planned).2.1
        have number := nextTurnPayload_turnNo planned
        have short := length_lane_le before sessionId
        have added : (lane (store ++ [new]) new.sessionId).length =
            (lane store new.sessionId).length + 1 := by
          unfold lane
          rw [List.filter_append, List.length_append]
          simp
        rw [session] at added
        rw [session, added]
        omega

/-- Session calls leave the next number of a lane free. -/
theorem Journaled.free {workspaceId sessionId text : String} {store : List TurnEntry}
    {speaker : Speaker} {observedAtMs : Nat} {turn : TurnEntry}
    (journaled : Journaled workspaceId store)
    (planned : nextTurnPayload store workspaceId sessionId speaker text observedAtMs = .ok turn) :
    ¬ store.any turn.sameKey = true := by
  intro taken
  obtain ⟨stored, member, same⟩ := List.any_eq_true.mp taken
  unfold TurnEntry.sameKey at same
  simp only [Bool.and_eq_true, decide_eq_true_eq] at same
  have session := (nextTurnPayload_of planned).2.1
  have number := nextTurnPayload_turnNo planned
  have within := journaled.numbered stored member
  have lanes : stored.sessionId = sessionId := same.1.2.symm.trans session
  rw [lanes] at within
  have equal := same.2
  omega

/-- The messages of a chat call. For every stored turns, view, role, model and input, what the call
sends to the model is the prompt, each earlier turn and the new message once, if and only if the
call asks nothing or the number of its user turn is already stored; and over turns that session
calls have stored it never is, so that no call that asks the model sends what is owed. -/
theorem chat_sends_owed_iff (world : ChatWorld) (store : List TurnEntry) (workspaceId : String)
    (input : AgentChatInput) :
    (SendsOwed world store workspaceId input ↔
      ∀ asked, world.asks store workspaceId input = some asked →
        store.any asked.2.sameKey = true) ∧
      (Journaled workspaceId store → ∀ asked, world.asks store workspaceId input = some asked →
        ¬ SendsOwed world store workspaceId input) := by
  constructor
  · cases asks : world.asks store workspaceId input with
    | none =>
      have silent := agentChat_sent world store workspaceId input
      rw [asks, Option.map_none] at silent
      refine iff_of_true ?_ (fun asked none => by cases none)
      intro request sent
      rw [silent] at sent
      cases sent
    | some asked =>
      rw [sendsOwed_of_asks asks]
      constructor
      · intro taken other same
        rw [← Option.some.inj same]
        exact taken
      · intro taken
        exact taken asked rfl
  · intro journaled asked asks owed
    exact journaled.free (ChatWorld.asks_planned asks).2 ((sendsOwed_of_asks asks).mp owed)

/-- An empty workspace and a model that answers every request with one word. -/
def demoChat : ChatWorld where
  role := ⟨"some/model", 1024, 0, "key"⟩
  view := .ok ⟨"demo", 0, .fresh, [], [], []⟩
  complete := fun _ => .ok "Hello."

/-- The first message of a session is sent twice. -/
theorem first_message_twice : ¬ SendsOwed demoChat [] "demo" ⟨"s1", "hi", 1⟩ := by
  intro owed
  have same := owed _ rfl _ rfl
  exact absurd (congrArg List.length same) (by decide)

end Texo.Sessions
