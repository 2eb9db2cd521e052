import Mathlib.Data.List.Sort
import Texo.Error
import Texo.Extract.Words

/-! # Session turns

A session's turns live in its own lane of the journal. Each turn is numbered by the length of
the lane read before it is appended, and that number is also its idempotency key: an append
under a number already stored returns the stored turn's receipt and stores nothing.
-/
namespace Texo.Sessions
open Texo.Extract

/-- One stored turn, `SessionTurnV1`. -/
structure TurnEntry where
  sessionId : String
  workspaceId : String
  speaker : String
  text : String
  turnNo : Nat
  observedAtMs : Nat
deriving DecidableEq, Repr

/-- Who spoke one session turn. -/
inductive Speaker where
  | user
  | assistant
deriving DecidableEq, Repr

/-- `Speaker::as_str`. -/
def Speaker.asStr : Speaker → String
  | .user => "user"
  | .assistant => "assistant"

/-- `Speaker::prefix`. -/
def Speaker.lead : Speaker → String
  | .user => "User: "
  | .assistant => "Assistant: "

/-- `MAX_SESSION_ID_LEN`. -/
def maxSessionIdLen : Nat := 64

/-- `valid_session_id`. -/
def validSessionId (id : String) : Bool :=
  id ≠ "" && id.utf8ByteSize ≤ maxSessionIdLen &&
    id.toList.all fun c => c.isAlphanum || c = '-' || c = '_'

/-- `validate_session_input`. -/
def validateSessionInput (op sessionId : String) : Except TexoError Unit :=
  if validSessionId sessionId then
    .ok ()
  else
    .error (.opInput op "invalid session_id: use 1-64 ASCII letters, digits, '-' or '_'")

/-- `stream_lane` of a session, in journal order. -/
def lane (store : List TurnEntry) (sessionId : String) : List TurnEntry :=
  store.filter fun turn => turn.sessionId = sessionId

/-- `read_session_turns`. -/
def readSessionTurns (store : List TurnEntry) (sessionId : String) : List TurnEntry :=
  (lane store sessionId).insertionSort fun a b => a.turnNo ≤ b.turnNo

/-- `next_turn_payload`: the turn number is the lane's length plus one. -/
def nextTurnPayload (store : List TurnEntry) (workspaceId sessionId : String) (speaker : Speaker)
    (text : String) (observedAtMs : Nat) : Except TexoError TurnEntry :=
  match validateSessionInput "texo.agent.turn" sessionId with
  | .error error => .error error
  | .ok () =>
    if (lane store sessionId).length + 1 < 2 ^ 32 then
      .ok
        { sessionId
          workspaceId
          speaker := speaker.asStr
          text
          turnNo := (lane store sessionId).length + 1
          observedAtMs }
    else
      .error (.opRuntime "texo.agent.turn" "session turn count exceeded u32" false)

/-- Two turns under one idempotency key. -/
def TurnEntry.sameKey (a b : TurnEntry) : Bool :=
  a.workspaceId = b.workspaceId && a.sessionId = b.sessionId && a.turnNo = b.turnNo

/-- `append_session_turn`, `append_turn_direct`: a used key stores nothing. -/
def appendTurn (store : List TurnEntry) (payload : TurnEntry) : List TurnEntry :=
  if store.any payload.sameKey then store else store ++ [payload]

/-- `render_transcript`. -/
def renderTranscript (sessionId : String) (turns : List TurnEntry) (includeAssistant : Bool) :
    String :=
  turns.foldl
    (fun out turn =>
      let speaker : Option Speaker :=
        if turn.speaker = "user" then some .user
        else if turn.speaker = "assistant" then if includeAssistant then some .assistant else none
        else none
      let clean := String.intercalate " " ((splitWhitespace turn.text.toList).map String.ofList)
      match speaker with
      | none => out
      | some speaker => if clean = "" then out else out ++ "\n" ++ speaker.lead ++ clean ++ "\n")
    ("# Session " ++ sessionId ++ "\n")

/-- What a call on a session asks for. -/
inductive TurnRequest where
  /-- `agent_chat`: a user turn, a model reply and an assistant turn. -/
  | chat (message : String) (observedAtMs : Nat)
  /-- `journal_turn`: one turn. -/
  | turn (speaker : Speaker) (text : String) (observedAtMs : Nat)
deriving DecidableEq, Repr

/-- How far a call has come, with the turns it has handed to the store. -/
inductive CallStage where
  | start
  | planned (user : TurnEntry)
  | stored (user : TurnEntry)
  | replied (user : TurnEntry) (reply : String)
  | answering (user : TurnEntry) (reply : String) (assistant : TurnEntry)
  | returned (user : TurnEntry) (answer : Option (String × TurnEntry))
  | failed (error : TexoError)
deriving DecidableEq, Repr

/-- The calls on one session and the store they share. -/
structure SessionState where
  workspaceId : String
  sessionId : String
  store : List TurnEntry
  calls : List (TurnRequest × CallStage)

/-- The first step of a call: its checks and the number of its turn. -/
def planRequest (state : SessionState) : TurnRequest → Except TexoError TurnEntry
  | .chat message observedAtMs =>
    match validateSessionInput "texo.agent.chat" state.sessionId with
    | .error error => .error error
    | .ok () =>
      if (trim message.toList).isEmpty then
        .error (.opInput "texo.agent.chat" "empty message")
      else
        nextTurnPayload state.store state.workspaceId state.sessionId .user message observedAtMs
  | .turn speaker text observedAtMs =>
    nextTurnPayload state.store state.workspaceId state.sessionId speaker text observedAtMs

/-- The time a request names. -/
def TurnRequest.observedAtMs : TurnRequest → Nat
  | .chat _ observedAtMs => observedAtMs
  | .turn _ _ observedAtMs => observedAtMs

/-- The next step of a call, where `modelReply` is what the model answers if it is asked: the
stage it reaches and the turn it hands to the store. -/
def advance (state : SessionState) (request : TurnRequest) (modelReply : Except TexoError String) :
    CallStage → Option (CallStage × Option TurnEntry)
  | .start =>
    match planRequest state request with
    | .error error => some (.failed error, none)
    | .ok user => some (.planned user, none)
  | .planned user =>
    match request with
    | .chat _ _ => some (.stored user, some user)
    | .turn _ _ _ => some (.returned user none, some user)
  | .stored user =>
    match modelReply with
    | .error error => some (.failed error, none)
    | .ok reply => some (.replied user reply, none)
  | .replied user reply =>
    match nextTurnPayload state.store state.workspaceId state.sessionId .assistant reply
        request.observedAtMs with
    | .error error => some (.failed error, none)
    | .ok assistant => some (.answering user reply assistant, none)
  | .answering user reply assistant =>
    some (.returned user (some (reply, assistant)), some assistant)
  | .returned _ _ => none
  | .failed _ => none

/-- One move: which call goes on, and what the model would answer it. -/
structure SessionMove where
  call : Nat
  modelReply : Except TexoError String

/-- One step of one call. -/
def SessionState.step (state : SessionState) (move : SessionMove) : Option SessionState :=
  match state.calls[move.call]? with
  | none => none
  | some (request, stage) =>
    match advance state request move.modelReply stage with
    | none => none
    | some (next, handed) =>
      some { state with
        store := handed.elim state.store (appendTurn state.store)
        calls := state.calls.set move.call (request, next) }

/-- Calls interleaved in some order. -/
def SessionState.run (state : SessionState) (moves : List SessionMove) : Option SessionState :=
  moves.foldlM SessionState.step state

/-- The turns a call has handed to the store. -/
def CallStage.handed : CallStage → List TurnEntry
  | .start => []
  | .planned _ => []
  | .stored user => [user]
  | .replied user _ => [user]
  | .answering user _ _ => [user]
  | .returned user answer => user :: (answer.map Prod.snd).toList
  | .failed _ => []

/-- The speaker and text a call owes the session. -/
def TurnRequest.spoken : TurnRequest → String × String
  | .chat message _ => (Speaker.user.asStr, message)
  | .turn speaker text _ => (speaker.asStr, text)

/-- What the callers may rely on: every call that returned has its own turns in the session,
each under a number of its own. -/
structure SessionState.Kept (state : SessionState) : Prop where
  own : ∀ (call : Nat) request user answer,
    state.calls[call]? = some (request, .returned user answer) →
      user ∈ readSessionTurns state.store state.sessionId ∧
        (user.speaker, user.text) = request.spoken ∧
        ∀ reply assistant, answer = some (reply, assistant) →
          assistant ∈ readSessionTurns state.store state.sessionId ∧
            (assistant.speaker, assistant.text) = (Speaker.assistant.asStr, reply)
  numbered : ∀ (call other : Nat) request request' stage stage' a b,
    state.calls[call]? = some (request, stage) → state.calls[other]? = some (request', stage') →
      a ∈ stage.handed → b ∈ stage'.handed → a.turnNo = b.turnNo → call = other ∧ a = b

/-- The session, workspace, speaker and text of a turn. -/
def TurnEntry.Of (turn : TurnEntry) (workspaceId sessionId : String) (spoken : String × String) :
    Prop :=
  turn.workspaceId = workspaceId ∧ turn.sessionId = sessionId ∧ (turn.speaker, turn.text) = spoken

/-- A call works on turns of its own session, with what it owes it. -/
def CallStage.Fits (workspaceId sessionId : String) (request : TurnRequest) : CallStage → Prop
  | .start => True
  | .planned user => user.Of workspaceId sessionId request.spoken
  | .stored user => user.Of workspaceId sessionId request.spoken
  | .replied user _ => user.Of workspaceId sessionId request.spoken
  | .answering user reply assistant =>
    user.Of workspaceId sessionId request.spoken ∧
      assistant.Of workspaceId sessionId (Speaker.assistant.asStr, reply)
  | .returned user answer =>
    user.Of workspaceId sessionId request.spoken ∧ ∀ reply assistant,
      answer = some (reply, assistant) →
        assistant.Of workspaceId sessionId (Speaker.assistant.asStr, reply)
  | .failed _ => True

/-- A planned turn belongs to its session. -/
theorem nextTurnPayload_of {store : List TurnEntry} {workspaceId sessionId text : String}
    {speaker : Speaker} {observedAtMs : Nat} {turn : TurnEntry}
    (planned : nextTurnPayload store workspaceId sessionId speaker text observedAtMs = .ok turn) :
    turn.Of workspaceId sessionId (speaker.asStr, text) := by
  unfold nextTurnPayload at planned
  split at planned
  · cases planned
  · split at planned
    · have same := Except.ok.inj planned
      rw [← same]
      exact ⟨rfl, rfl, rfl⟩
    · cases planned

/-- A call's first turn is what it owes the session. -/
theorem planRequest_of {state : SessionState} {request : TurnRequest} {turn : TurnEntry}
    (planned : planRequest state request = .ok turn) :
    turn.Of state.workspaceId state.sessionId request.spoken := by
  cases request with
  | chat message observedAtMs =>
    simp only [planRequest] at planned
    split at planned
    · cases planned
    · split at planned
      · cases planned
      · exact nextTurnPayload_of planned
  | turn speaker text observedAtMs => exact nextTurnPayload_of planned

/-- What one step of a call does: it hands no turn over and forgets none but by failing, or
it hands over one more. -/
theorem advance_cases {state : SessionState} {request : TurnRequest} {stage next : CallStage}
    {modelReply : Except TexoError String} {handed : Option TurnEntry}
    (moved : advance state request modelReply stage = some (next, handed))
    (fits : stage.Fits state.workspaceId state.sessionId request) :
    next.Fits state.workspaceId state.sessionId request ∧
      (handed = none ∧ (∀ turn ∈ next.handed, turn ∈ stage.handed) ∨
        ∃ turn, handed = some turn ∧ next.handed = stage.handed ++ [turn]) := by
  cases stage with
  | start =>
    simp only [advance] at moved
    cases planned : planRequest state request with
    | error error =>
      simp only [planned, Option.some.injEq, Prod.mk.injEq] at moved
      obtain ⟨rfl, rfl⟩ := moved
      exact ⟨trivial, Or.inl ⟨rfl, fun _ member => member⟩⟩
    | ok user =>
      simp only [planned, Option.some.injEq, Prod.mk.injEq] at moved
      obtain ⟨rfl, rfl⟩ := moved
      exact ⟨planRequest_of planned, Or.inl ⟨rfl, fun _ member => member⟩⟩
  | planned user =>
    cases request with
    | chat message observedAtMs =>
      simp only [advance, Option.some.injEq, Prod.mk.injEq] at moved
      obtain ⟨rfl, rfl⟩ := moved
      exact ⟨fits, Or.inr ⟨user, rfl, rfl⟩⟩
    | turn speaker text observedAtMs =>
      simp only [advance, Option.some.injEq, Prod.mk.injEq] at moved
      obtain ⟨rfl, rfl⟩ := moved
      exact ⟨⟨fits, fun _ _ none => by cases none⟩, Or.inr ⟨user, rfl, rfl⟩⟩
  | stored user =>
    cases modelReply with
    | error error =>
      simp only [advance, Option.some.injEq, Prod.mk.injEq] at moved
      obtain ⟨rfl, rfl⟩ := moved
      exact ⟨trivial, Or.inl ⟨rfl, fun _ member => by cases member⟩⟩
    | ok reply =>
      simp only [advance, Option.some.injEq, Prod.mk.injEq] at moved
      obtain ⟨rfl, rfl⟩ := moved
      exact ⟨fits, Or.inl ⟨rfl, fun _ member => member⟩⟩
  | replied user reply =>
    simp only [advance] at moved
    cases planned : nextTurnPayload state.store state.workspaceId state.sessionId .assistant reply
        request.observedAtMs with
    | error error =>
      simp only [planned, Option.some.injEq, Prod.mk.injEq] at moved
      obtain ⟨rfl, rfl⟩ := moved
      exact ⟨trivial, Or.inl ⟨rfl, fun _ member => by cases member⟩⟩
    | ok assistant =>
      simp only [planned, Option.some.injEq, Prod.mk.injEq] at moved
      obtain ⟨rfl, rfl⟩ := moved
      exact ⟨⟨fits, nextTurnPayload_of planned⟩, Or.inl ⟨rfl, fun _ member => member⟩⟩
  | answering user reply assistant =>
    simp only [advance, Option.some.injEq, Prod.mk.injEq] at moved
    obtain ⟨rfl, rfl⟩ := moved
    refine ⟨⟨fits.1, ?_⟩, Or.inr ⟨assistant, rfl, rfl⟩⟩
    intro other turn same
    cases same
    exact fits.2
  | returned user answer => simp [advance] at moved
  | failed error => simp [advance] at moved

/-- The turns a fitting call has handed over are turns of the session. -/
theorem CallStage.Fits.handed {workspaceId sessionId : String} {request : TurnRequest}
    {stage : CallStage} (fits : stage.Fits workspaceId sessionId request) :
    ∀ turn ∈ stage.handed, turn.workspaceId = workspaceId ∧ turn.sessionId = sessionId := by
  intro turn member
  cases stage with
  | start => cases member
  | planned user => cases member
  | stored user =>
    rw [List.mem_singleton.mp member]
    exact ⟨fits.1, fits.2.1⟩
  | replied user reply =>
    rw [List.mem_singleton.mp member]
    exact ⟨fits.1, fits.2.1⟩
  | answering user reply assistant =>
    rw [List.mem_singleton.mp member]
    exact ⟨fits.1.1, fits.1.2.1⟩
  | returned user answer =>
    rcases List.mem_cons.mp member with rfl | last
    · exact ⟨fits.1.1, fits.1.2.1⟩
    · cases answer with
      | none => cases last
      | some pair =>
        have same : turn = pair.2 := by simpa using last
        have owned := fits.2 pair.1 pair.2 rfl
        rw [same]
        exact ⟨owned.1, owned.2.1⟩
  | failed error => cases member

/-- The turn a move hands to the store. -/
def SessionState.handsOver (state : SessionState) (move : SessionMove) : Option TurnEntry :=
  match state.calls[move.call]? with
  | none => none
  | some (request, stage) => (advance state request move.modelReply stage).bind Prod.snd

/-- A move is unclaimed when no stored turn has the key of the turn it hands over. -/
def SessionState.Unclaimed (state : SessionState) (move : SessionMove) : Prop :=
  ∀ turn ∈ state.handsOver move, state.store.any turn.sameKey = false

instance (state : SessionState) (move : SessionMove) : Decidable (state.Unclaimed move) :=
  inferInstanceAs (Decidable (∀ turn ∈ state.handsOver move, _))

/-- Every move of a run is unclaimed. -/
def SessionState.AllUnclaimed (state : SessionState) : List SessionMove → Prop
  | [] => True
  | move :: rest =>
    state.Unclaimed move ∧ (state.step move).elim True fun next => next.AllUnclaimed rest

instance decidableAllUnclaimed :
    (state : SessionState) → (moves : List SessionMove) → Decidable (state.AllUnclaimed moves)
  | _, [] => isTrue trivial
  | state, move :: rest =>
    have _ : Decidable ((state.step move).elim True fun next => next.AllUnclaimed rest) :=
      match state.step move with
      | none => isTrue trivial
      | some next => decidableAllUnclaimed next rest
    inferInstanceAs (Decidable (state.Unclaimed move ∧ _))

/-- What unclaimed moves keep: calls fit their session, what they handed over is stored, and
no two turns share a number. -/
structure SessionState.Sound (state : SessionState) : Prop where
  fits : ∀ (call : Nat) request stage, state.calls[call]? = some (request, stage) →
    stage.Fits state.workspaceId state.sessionId request
  stored : ∀ (call : Nat) request stage, state.calls[call]? = some (request, stage) →
    ∀ turn ∈ stage.handed, turn ∈ state.store
  numbered : ∀ (call other : Nat) request request' stage stage' a b,
    state.calls[call]? = some (request, stage) → state.calls[other]? = some (request', stage') →
      a ∈ stage.handed → b ∈ stage'.handed → a.turnNo = b.turnNo → call = other ∧ a = b

/-- Sound calls keep their promise. -/
theorem SessionState.Sound.kept {state : SessionState} (sound : state.Sound) : state.Kept where
  own := by
    intro call request user answer here
    have fits := sound.fits call request _ here
    have readable : ∀ turn ∈ (CallStage.returned user answer).handed,
        turn ∈ readSessionTurns state.store state.sessionId := by
      intro turn member
      have own := (fits.handed turn member).2
      have inside := sound.stored call request _ here turn member
      rw [readSessionTurns, List.mem_insertionSort, lane, List.mem_filter]
      exact ⟨inside, by simpa using own⟩
    refine ⟨readable user List.mem_cons_self, fits.1.2.2, ?_⟩
    intro reply assistant same
    exact ⟨readable assistant (by simp [CallStage.handed, same]), (fits.2 reply assistant same).2.2⟩
  numbered := sound.numbered

/-- One unclaimed move keeps the calls sound. -/
theorem SessionState.Sound.step {state next : SessionState} {move : SessionMove}
    (sound : state.Sound) (unclaimed : state.Unclaimed move)
    (moved : state.step move = some next) : next.Sound := by
  unfold SessionState.step at moved
  cases here : state.calls[move.call]? with
  | none => simp [here] at moved
  | some row =>
    obtain ⟨request, stage⟩ := row
    simp only [here] at moved
    cases stepped : advance state request move.modelReply stage with
    | none => simp [stepped] at moved
    | some result =>
      obtain ⟨after, handed⟩ := result
      simp only [stepped, Option.some.injEq] at moved
      subst moved
      obtain ⟨fits, kind⟩ := advance_cases stepped (sound.fits _ _ _ here)
      have bound : move.call < state.calls.length := (List.getElem?_eq_some_iff.mp here).1
      -- A call of the next state is the one that moved, or stands where it stood.
      have calls : ∀ (call : Nat) other found,
          (state.calls.set move.call (request, after))[call]? = some (other, found) →
            call = move.call ∧ other = request ∧ found = after ∨
              call ≠ move.call ∧ state.calls[call]? = some (other, found) := by
        intro call other found there
        by_cases same : move.call = call
        · rw [← same, List.getElem?_set_self bound] at there
          have equal := Prod.mk.inj (Option.some.inj there)
          exact Or.inl ⟨same.symm, equal.1.symm, equal.2.symm⟩
        · rw [List.getElem?_set_ne same] at there
          exact Or.inr ⟨fun contra => same contra.symm, there⟩
      have grown : ∀ turn ∈ state.store, turn ∈ handed.elim state.store (appendTurn state.store) := by
        intro turn member
        cases handed with
        | none => exact member
        | some new =>
          show turn ∈ appendTurn state.store new
          unfold appendTurn
          split
          · exact member
          · exact List.mem_append_left _ member
      -- A turn of a call was handed over before, or by this move.
      have origin : ∀ (call : Nat) other found turn,
          (state.calls.set move.call (request, after))[call]? = some (other, found) →
          turn ∈ found.handed →
            (∃ before earlier, state.calls[call]? = some (before, earlier) ∧
              turn ∈ earlier.handed) ∨ (call = move.call ∧ handed = some turn) := by
        intro call other found turn there member
        rcases calls call other found there with ⟨rfl, rfl, rfl⟩ | ⟨_, old⟩
        · rcases kind with ⟨_, kept⟩ | ⟨new, given, extended⟩
          · exact Or.inl ⟨_, _, here, kept turn member⟩
          · rw [extended] at member
            rcases List.mem_append.mp member with before | last
            · exact Or.inl ⟨_, _, here, before⟩
            · rw [List.mem_singleton.mp last]
              exact Or.inr ⟨rfl, given⟩
        · exact Or.inl ⟨_, _, old, member⟩
      have distinct : ∀ new, handed = some new → ∀ (call : Nat) before earlier turn,
          state.calls[call]? = some (before, earlier) → turn ∈ earlier.handed →
            turn.turnNo ≠ new.turnNo := by
        intro new given call before earlier turn there member same
        subst given
        have fresh := unclaimed new (by simp [SessionState.handsOver, here, stepped])
        have inside := sound.stored call before earlier there turn member
        obtain ⟨workspace, session⟩ := (sound.fits call before earlier there).handed turn member
        have last : new ∈ after.handed := by
          rcases kind with ⟨none, _⟩ | ⟨other, given, extended⟩
          · cases none
          · rw [extended, Option.some.inj given]
            simp
        obtain ⟨workspace', session'⟩ := fits.handed new last
        have claimed : state.store.any new.sameKey = true := by
          rw [List.any_eq_true]
          refine ⟨turn, inside, ?_⟩
          simp [TurnEntry.sameKey, workspace, workspace', session, session', same]
        rw [fresh] at claimed
        cases claimed
      constructor
      · intro call other found there
        rcases calls call other found there with ⟨_, rfl, rfl⟩ | ⟨_, old⟩
        · exact fits
        · exact sound.fits call other found old
      · intro call other found there turn member
        rcases origin call other found turn there member with ⟨_, _, old, before⟩ | ⟨_, given⟩
        · exact grown turn (sound.stored _ _ _ old turn before)
        · subst given
          have fresh := unclaimed turn (by simp [SessionState.handsOver, here, stepped])
          show turn ∈ appendTurn state.store turn
          rw [appendTurn, fresh]
          simp
      · intro call call' other other' found found' a b there there' left right same
        rcases origin call other found a there left with ⟨_, _, old, before⟩ | ⟨place, given⟩
        · rcases origin call' other' found' b there' right with ⟨_, _, old', before'⟩ | ⟨_, given'⟩
          · exact sound.numbered _ _ _ _ _ _ a b old old' before before' same
          · exact absurd same (distinct b given' _ _ _ a old before)
        · rcases origin call' other' found' b there' right with ⟨_, _, old', before'⟩ | ⟨place', given'⟩
          · exact absurd same.symm (distinct a given _ _ _ b old' before')
          · rw [given] at given'
            exact ⟨place.trans place'.symm, Option.some.inj given'⟩

/-- The calls on a session before any of them has started. -/
def SessionState.opened (workspaceId sessionId : String) (store : List TurnEntry)
    (requests : List TurnRequest) : SessionState where
  workspaceId := workspaceId
  sessionId := sessionId
  store := store
  calls := requests.map fun request => (request, .start)

/-- Calls that have not started are sound. -/
theorem SessionState.Sound.opened (workspaceId sessionId : String) (store : List TurnEntry)
    (requests : List TurnRequest) :
    (SessionState.opened workspaceId sessionId store requests).Sound := by
  have started : ∀ (call : Nat) request stage,
      (SessionState.opened workspaceId sessionId store requests).calls[call]? =
        some (request, stage) → stage = .start := by
    intro call request stage here
    obtain ⟨found, _, same⟩ := List.mem_map.mp (List.mem_of_getElem? here)
    exact (Prod.mk.inj same).2.symm
  constructor
  · intro call request stage here
    rw [started call request stage here]
    trivial
  · intro call request stage here turn member
    rw [started call request stage here] at member
    cases member
  · intro call _ request _ stage _ a _ here _ left
    rw [started call request stage here] at left
    cases left

/-- A run of unclaimed moves keeps the calls sound. -/
theorem SessionState.Sound.run {state final : SessionState} {moves : List SessionMove}
    (sound : state.Sound) (unclaimed : state.AllUnclaimed moves)
    (ran : state.run moves = some final) : final.Sound := by
  induction moves generalizing state with
  | nil =>
    have same : state = final := Option.some.inj ran
    exact same ▸ sound
  | cons move rest ih =>
    obtain ⟨first, others⟩ := unclaimed
    rw [SessionState.run, List.foldlM_cons] at ran
    cases moved : state.step move with
    | none => simp [moved] at ran
    | some next =>
      rw [moved] at ran others
      exact ih (sound.step first moved) others ran

/-- Concurrent calls on one session. In every run, over any stored turns and any number of chat
and turn calls in any interleaving, whose moves hand over no turn under a number already
stored, every call that returned has its own turns in the session. -/
theorem concurrent_turns_kept (workspaceId sessionId : String) (store : List TurnEntry)
    (requests : List TurnRequest) (moves : List SessionMove)
    (unclaimed :
      (SessionState.opened workspaceId sessionId store requests).AllUnclaimed moves)
    {final : SessionState}
    (ran : (SessionState.opened workspaceId sessionId store requests).run moves = some final) :
    final.Kept :=
  ((SessionState.Sound.opened workspaceId sessionId store requests).run unclaimed ran).kept

/-- A move of a call the model is not asked in. -/
def quietMove (call : Nat) : SessionMove := ⟨call, .ok ""⟩

/-- Two turn calls one after the other. -/
theorem concurrent_turns_kept_in_turn :
    ∃ final, (SessionState.opened "demo" "s1" [] [.turn .user "hi" 1, .turn .user "ho" 2]).run
      [quietMove 0, quietMove 0, quietMove 1, quietMove 1] = some final ∧ final.Kept :=
  ⟨_, rfl, concurrent_turns_kept "demo" "s1" [] [.turn .user "hi" 1, .turn .user "ho" 2]
    [quietMove 0, quietMove 0, quietMove 1, quietMove 1] (by decide) rfl⟩

/-- Two calls that read one lane length return alike, and the second one's turn is lost. -/
theorem concurrent_turns_lost :
    ∃ final, (SessionState.opened "demo" "s1" [] [.turn .user "hi" 1, .turn .user "ho" 2]).run
        [quietMove 0, quietMove 1, quietMove 0, quietMove 1] = some final ∧
      (final.calls.map fun call => call.2.handed.map TurnEntry.text) = [["hi"], ["ho"]] ∧
      final.store.map TurnEntry.text = ["hi"] ∧ ¬ final.Kept := by
  refine ⟨_, rfl, by decide, by decide, fun kept => ?_⟩
  have own := (kept.own 1 _ _ _ rfl).1
  revert own
  decide

end Texo.Sessions
