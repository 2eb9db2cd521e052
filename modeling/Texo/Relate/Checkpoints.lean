import Texo.Claims.CacheRuns
import Texo.Relate.Orderly
import Texo.Semantics.RelateRuns

/-! # The latest checkpoint of a campaign

A relate pass ends with a checkpoint, keyed by its predecessor: the run's last receipt, or the
latest checkpoint. A run that only repeats earlier events has an old receipt last, so its key may
have been used before others were appended, and its checkpoint is then not the latest.
-/
namespace Texo.Relate
open Texo.Events Texo.Knowledge Texo.Foundation Texo.Store Texo.Claims Texo.Semantics Texo.Ops
  Texo.Ingest

section Appends

/-- The latest checkpoint is the appended one, and appending it again, in the same run or in
another, adds no event. -/
structure CheckpointSettled [Blake3] (env : OpEnv) (payload : RelationCampaignCheckpointV1) :
    Prop where
  latest : ∃ row, latestCampaignRow env.journal payload.workspaceId.value = some row ∧
    row.payload = .campaignCheckpoint payload
  repeated : ∀ receipts, receipts = env.receipts ∨ receipts = [] → ∃ entry,
    policyAppend { env with receipts := receipts } (.campaignCheckpoint payload) =
      .ok (entry, env.journal)

/-- The predecessor of a checkpoint: the last receipt, or the latest checkpoint. -/
def predecessorOf (env : OpEnv) (workspaceId : String) : Option EventId :=
  env.receipts.getLast?.or ((latestCampaignRow env.journal workspaceId).map Entry.eventId)

/-- The latest checkpoint is appended once more, right behind it or in a run of its own. -/
def RetriesLatest (env : OpEnv) (payload : RelationCampaignCheckpointV1) : Prop :=
  ∃ row, latestCampaignRow env.journal payload.workspaceId.value = some row ∧
    row.payload = .campaignCheckpoint payload ∧
      (env.receipts.getLast? = none ∨ env.receipts.getLast? = some row.eventId)

/-- No earlier checkpoint followed the predecessor with the same content, unless the latest one is
equal to it and was appended right behind it. -/
def TransitionOpen (env : OpEnv) (payload : RelationCampaignCheckpointV1) : Prop :=
  RetriesLatest env payload ∨
    ∀ row ∈ env.journal.entries,
      row.eventId = checkpointKey payload (predecessorOf env payload.workspaceId.value) →
        ∃ last, latestCampaignRow env.journal payload.workspaceId.value = some last ∧
          (row = last ∨ (last.payload = .campaignCheckpoint payload ∧
            ∃ again ∈ env.journal.entries,
              again.eventId = checkpointKey payload (some row.eventId)))

/-- A retry of the latest checkpoint reuses its identity. -/
theorem options_of_retries {env : OpEnv} {payload : RelationCampaignCheckpointV1} {row : Entry}
    (latest : latestCampaignRow env.journal payload.workspaceId.value = some row)
    (equal : row.payload = .campaignCheckpoint payload)
    (last : env.receipts.getLast? = none ∨ env.receipts.getLast? = some row.eventId) :
    campaignCheckpointOptions env payload = .ok row.eventId := by
  have retry : env.receipts.getLast?.isNone = true ∨
      env.receipts.getLast? = (some row).map Entry.eventId := by
    rcases last with none | same
    · left
      rw [none]
      rfl
    · right
      rw [same]
      rfl
  unfold campaignCheckpointOptions
  rw [latest]
  dsimp only
  rw [if_pos retry, equal]
  dsimp only
  rw [if_pos rfl]

/-- Any other checkpoint that is appended is keyed by its predecessor. -/
theorem options_of_not_retries {env : OpEnv} {payload : RelationCampaignCheckpointV1}
    {key : EventId} (other : ¬RetriesLatest env payload)
    (chosen : campaignCheckpointOptions env payload = .ok key) :
    key = checkpointKey payload (predecessorOf env payload.workspaceId.value) := by
  unfold campaignCheckpointOptions at chosen
  unfold predecessorOf
  cases latest : latestCampaignRow env.journal payload.workspaceId.value with
  | none =>
    rw [latest] at chosen
    exact (Except.ok.inj chosen).symm
  | some row =>
    rw [latest] at chosen
    dsimp only at chosen
    split at chosen
    · rename_i retry
      split at chosen
      · rename_i stored held
        split at chosen
        · rename_i same
          refine absurd ⟨row, latest, by rw [held, same], ?_⟩ other
          rcases retry with none | behind
          · exact Or.inl (Option.isNone_iff_eq_none.mp none)
          · exact Or.inr behind
        · exact (Except.ok.inj chosen).symm
      · cases chosen
    · exact (Except.ok.inj chosen).symm

/-- A checkpoint behind another receipt than the latest is keyed by it. -/
theorem options_behind {env : OpEnv} {payload : RelationCampaignCheckpointV1} {row : Entry}
    {receipt : EventId}
    (latest : latestCampaignRow env.journal payload.workspaceId.value = some row)
    (last : env.receipts.getLast? = some receipt) (other : receipt ≠ row.eventId) :
    campaignCheckpointOptions env payload = .ok (checkpointKey payload (some receipt)) := by
  unfold campaignCheckpointOptions
  rw [latest, last]
  dsimp only
  have fresh : ¬((some receipt).isNone = true ∨ some receipt = (some row).map Entry.eventId) := by
    rintro (none | same)
    · cases none
    · exact other (Option.some.inj same)
  rw [if_neg fresh]
  rfl

/-- An append under a used identity returns its row. -/
theorem append_used {journal : Journal} {row : Entry} (member : row ∈ journal.entries)
    (scope entity : String) (payload : Payload) :
    journal.append (some row.eventId) scope entity payload = (row, journal) := by
  rcases journal.append_cases (some row.eventId) scope entity payload with
    ⟨original, inside, used, same⟩ | ⟨unused, _, _⟩
  · rw [same, Journal.eq_of_eventId inside member used]
  · exact absurd rfl (unused row member)

/-- The latest row of a stream is a row. -/
theorem mem_of_latestCampaignRow {journal : Journal} {workspaceId : String} {row : Entry}
    (latest : latestCampaignRow journal workspaceId = some row) : row ∈ journal.entries :=
  (List.mem_filter.mp (List.mem_of_getLast? latest)).1

/-- A row at the end of its stream is the latest. -/
theorem latestCampaignRow_append {journal grown : Journal} {row : Entry} {workspaceId : String}
    (entries : grown.entries = journal.entries ++ [row])
    (placed : row.entity = entityForRelationCampaign workspaceId) :
    latestCampaignRow grown workspaceId = some row := by
  have held : [row].filter (fun entry => entry.entity = entityForRelationCampaign workspaceId) =
      [row] := by simp [placed]
  unfold latestCampaignRow Journal.byEntity
  rw [entries, List.filter_append, held, List.getLast?_append]
  rfl

variable [Blake3]

/-- The policy of a checkpoint passes again for the same workspace, under the key chosen then. -/
theorem append_again {env : OpEnv} (again : OpEnv) {payload : RelationCampaignCheckpointV1}
    {result : Entry × Journal} {key : EventId}
    (appended : policyAppend env (.campaignCheckpoint payload) = .ok result)
    (here : again.workspaceId = env.workspaceId)
    (chosen : campaignCheckpointOptions again payload = .ok key) :
    policyAppend again (.campaignCheckpoint payload) =
      .ok (appendWithKey again.journal (coordinateForRelationCampaign payload.workspaceId.value)
        (.campaignCheckpoint payload) key) := by
  unfold policyAppend appendRelationCampaignCheckpoint at appended ⊢
  dsimp only at appended ⊢
  rw [here]
  split at appended
  · cases appended
  · rename_i own
    rw [if_neg own]
    obtain ⟨_, first, appended⟩ := bind_eq_ok.mp appended
    obtain ⟨_, second, appended⟩ := bind_eq_ok.mp appended
    obtain ⟨_, third, appended⟩ := bind_eq_ok.mp appended
    rw [first, second, third]
    split at appended
    · cases appended
    · rename_i phase
      show (if _ then _ else _) = _
      rw [if_neg phase, chosen]
      rfl

/-- A row under the key of a checkpoint holds that checkpoint. -/
theorem payload_of_checkpointKey {journal : Journal} (conforming : journal.Conforming) {row : Entry}
    (member : row ∈ journal.entries) {payload : RelationCampaignCheckpointV1}
    {predecessor : Option EventId} (named : row.eventId = checkpointKey payload predecessor) :
    row.payload = .campaignCheckpoint payload := by
  have own := (conforming row member).admissible
  have kept : Admissible (.campaignCheckpoint payload) row.eventId := ⟨predecessor, named⟩
  have kind := kind_of_admissible kept (by simp [domainOperation, Payload.kind]) own
  cases held : row.payload with
  | campaignCheckpoint stored =>
    rw [held] at own
    obtain ⟨other, same⟩ := own
    rw [named] at same
    cases predecessor with
    | none =>
      cases other with
      | none => rw [Payload.campaignCheckpoint.inj (EventId.forPayload.inj same).2.2]
      | some _ => cases same
    | some _ =>
      cases other with
      | none => cases same
      | some _ => rw [Payload.campaignCheckpoint.inj (EventId.forTransition.inj same).2.2.2]
  | _ =>
    rw [held] at kind
    cases kind

/-- A checkpoint that is the latest, behind its own receipt, is settled. -/
theorem settled_of_latest {env settled : OpEnv} {payload : RelationCampaignCheckpointV1}
    {result : Entry × Journal} {row : Entry}
    (appended : policyAppend env (.campaignCheckpoint payload) = .ok result)
    (here : settled.workspaceId = env.workspaceId)
    (latest : latestCampaignRow settled.journal payload.workspaceId.value = some row)
    (equal : row.payload = .campaignCheckpoint payload)
    (last : settled.receipts.getLast? = some row.eventId) : CheckpointSettled settled payload := by
  have member := mem_of_latestCampaignRow latest
  refine ⟨⟨row, latest, equal⟩, ?_⟩
  intro receipts same
  have behind : receipts.getLast? = none ∨ receipts.getLast? = some row.eventId := by
    rcases same with kept | empty
    · right
      rw [kept]
      exact last
    · left
      rw [empty]
      rfl
  have chosen : campaignCheckpointOptions { settled with receipts := receipts } payload =
      .ok row.eventId := options_of_retries latest equal behind
  refine ⟨row, ?_⟩
  rw [append_again { settled with receipts := receipts } appended here chosen]
  exact congrArg Except.ok (append_used member _ _ _)

/-- A checkpoint under an identity used before is settled only where its transition was open. -/
theorem open_of_settled {env : OpEnv} {payload : RelationCampaignCheckpointV1} {original : Entry}
    (member : original ∈ env.journal.entries)
    (chosen : campaignCheckpointOptions env payload = .ok original.eventId)
    (settled : CheckpointSettled { env with receipts := env.receipts ++ [original.eventId] }
      payload) : TransitionOpen env payload := by
  by_cases retries : RetriesLatest env payload
  · exact Or.inl retries
  · right
    intro other inside named
    have one : other = original :=
      Journal.eq_of_eventId inside member
        (named.trans (options_of_not_retries retries chosen).symm)
    obtain ⟨row, latest, equal⟩ := settled.latest
    refine ⟨row, latest, ?_⟩
    by_cases final : original = row
    · exact Or.inl (one.trans final)
    · -- The latest is another row, so the repetition is keyed by the reused one.
      right
      refine ⟨equal, ?_⟩
      have apart : original.eventId ≠ row.eventId := by
        intro same
        exact final (Journal.eq_of_eventId member (mem_of_latestCampaignRow latest) same)
      have last : (env.receipts ++ [original.eventId]).getLast? = some original.eventId := by simp
      obtain ⟨repeated, again⟩ := settled.repeated _ (Or.inl rfl)
      obtain ⟨_, key, chosen', made⟩ := appendRelationCampaignCheckpoint_ok again
      rw [options_behind latest last apart] at chosen'
      have named' : key = checkpointKey payload (some original.eventId) :=
        (Except.ok.inj chosen').symm
      have unchanged : (env.journal.append (some key)
          (scopeForWorkspace payload.workspaceId.value)
          (entityForRelationCampaign payload.workspaceId.value)
          (.campaignCheckpoint payload)).2 = env.journal := congrArg Prod.snd made
      rcases env.journal.append_cases (some key) (scopeForWorkspace payload.workspaceId.value)
          (entityForRelationCampaign payload.workspaceId.value)
          (.campaignCheckpoint payload) with ⟨found, within, reused, _⟩ | ⟨_, _, longer⟩
      · exact ⟨found, within, by rw [one, ← named']; exact reused⟩
      · rw [unchanged] at longer
        have sizes := congrArg List.length longer
        rw [List.length_append, List.length_singleton] at sizes
        omega

/-- A checkpoint under an identity used before is settled where its transition was open. -/
theorem settled_of_open {env : OpEnv} {payload : RelationCampaignCheckpointV1} {original : Entry}
    (conforming : env.journal.Conforming) (member : original ∈ env.journal.entries)
    (chosen : campaignCheckpointOptions env payload = .ok original.eventId)
    {result : Entry × Journal} (ran : policyAppend env (.campaignCheckpoint payload) = .ok result)
    (free : TransitionOpen env payload) :
    CheckpointSettled { env with receipts := env.receipts ++ [original.eventId] } payload := by
  have last : (env.receipts ++ [original.eventId]).getLast? = some original.eventId := by simp
  by_cases retries : RetriesLatest env payload
  · obtain ⟨row, latest, equal, behind⟩ := retries
    have named : original.eventId = row.eventId := by
      rw [options_of_retries latest equal behind] at chosen
      exact (Except.ok.inj chosen).symm
    have one : original = row :=
      Journal.eq_of_eventId member (mem_of_latestCampaignRow latest) named
    exact settled_of_latest ran rfl latest equal (by rw [← one]; exact last)
  · have keyed := options_of_not_retries retries chosen
    have holds := payload_of_checkpointKey conforming member keyed
    rcases free with retry | free
    · exact absurd retry retries
    · obtain ⟨row, latest, either⟩ := free original member keyed
      by_cases final : original = row
      · rw [final] at holds last
        rw [final]
        exact settled_of_latest ran rfl latest holds last
      · rcases either with same | ⟨equal, again, within, reused⟩
        · exact absurd same final
        · have apart : original.eventId ≠ row.eventId := by
            intro same
            exact final (Journal.eq_of_eventId member (mem_of_latestCampaignRow latest) same)
          refine ⟨⟨row, latest, equal⟩, ?_⟩
          intro receipts which
          rcases which with same | empty
          · have options : campaignCheckpointOptions { env with
                receipts := env.receipts ++ [original.eventId] } payload =
                .ok (checkpointKey payload (some original.eventId)) :=
              options_behind latest last apart
            refine ⟨again, ?_⟩
            rw [same, append_again { env with
              receipts := env.receipts ++ [original.eventId] } ran rfl options, ← reused]
            exact congrArg Except.ok (append_used within _ _ _)
          · have options : campaignCheckpointOptions { env with receipts := [] } payload =
                .ok row.eventId := options_of_retries latest equal (Or.inl rfl)
            refine ⟨row, ?_⟩
            rw [empty, append_again { env with receipts := [] } ran rfl options]
            exact congrArg Except.ok (append_used (mem_of_latestCampaignRow latest) _ _ _)

/-- An appended checkpoint is the latest, and settled, exactly where its transition was open. -/
theorem checkpointSettled_iff {env settled : OpEnv} {payload : RelationCampaignCheckpointV1}
    (conforming : env.journal.Conforming)
    (appended : env.append (.campaignCheckpoint payload) = .ok settled) :
    CheckpointSettled settled payload ↔ TransitionOpen env payload := by
  unfold OpEnv.append at appended
  cases ran : policyAppend env (.campaignCheckpoint payload) with
  | error error =>
    rw [ran] at appended
    cases appended
  | ok result =>
    obtain ⟨entry, journal⟩ := result
    rw [ran] at appended
    obtain rfl := Except.ok.inj appended
    obtain ⟨_, key, chosen, made⟩ := appendRelationCampaignCheckpoint_ok ran
    rcases env.journal.append_cases (some key) (scopeForWorkspace payload.workspaceId.value)
        (entityForRelationCampaign payload.workspaceId.value) (.campaignCheckpoint payload) with
      ⟨original, member, used, same⟩ | ⟨unused, row, grown⟩
    · -- The key was used before: nothing is appended.
      have kept : (original, env.journal) = (entry, journal) := same.symm.trans made
      obtain ⟨rfl, rfl⟩ := Prod.mk.inj kept
      have named : key = original.eventId := used.symm
      rw [named] at chosen
      exact ⟨open_of_settled member chosen, settled_of_open conforming member chosen ran⟩
    · -- The key is new: the checkpoint is the last of its stream.
      have made' : env.journal.append (some key) (scopeForWorkspace payload.workspaceId.value)
          (entityForRelationCampaign payload.workspaceId.value) (.campaignCheckpoint payload) =
          (entry, journal) := made
      rw [made'] at row grown
      dsimp only at row grown
      have entries : journal.entries = env.journal.entries ++ [entry] := by rw [grown, row]
      have latest : latestCampaignRow journal payload.workspaceId.value = some entry :=
        latestCampaignRow_append entries (by rw [row])
      have last : (env.receipts ++ [entry.eventId]).getLast? = some entry.eventId := by simp
      have settled : CheckpointSettled
          { env with journal := journal, receipts := env.receipts ++ [entry.eventId] } payload :=
        settled_of_latest ran rfl latest (by rw [row]) last
      refine iff_of_true settled ?_
      by_cases retries : RetriesLatest env payload
      · exact Or.inl retries
      · right
        intro other inside named
        have keyed := options_of_not_retries retries chosen
        exact absurd (named.trans keyed.symm) (unused other inside)

end Appends

section Runs

/-- A result that shows as an option succeeded. -/
theorem ok_of_toOption {Error Result : Type} {run : Except Error Result} {result : Result}
    (told : run.toOption = some result) : run = .ok result := by
  cases run with
  | error error => cases told
  | ok other => exact congrArg Except.ok (Option.some.inj told)

variable [Blake3] {Score : Type}

/-- A run of appends that ends with a payload appends it behind the others. -/
theorem appendWithin_concat {fuse left : Nat} {env next : OpEnv} {payloads : List Payload}
    {last : Payload} (ran : appendWithin fuse env (payloads ++ [last]) = .ok (left, next)) :
    ∃ fuse' middle, appendWithin fuse env payloads = .ok (fuse', middle) ∧
      middle.append last = .ok next := by
  induction payloads generalizing fuse env with
  | nil =>
    refine ⟨fuse, env, by simp [appendWithin], ?_⟩
    cases fuse with
    | zero => cases ran
    | succ fuse =>
      rw [List.nil_append, appendWithin] at ran
      cases appended : env.append last with
      | error error =>
        rw [appended] at ran
        cases ran
      | ok final =>
        rw [appended] at ran
        dsimp only at ran
        unfold appendWithin at ran
        rw [(Prod.mk.inj (Except.ok.inj ran)).2]
  | cons payload rest ih =>
    cases fuse with
    | zero => cases ran
    | succ fuse =>
      rw [List.cons_append, appendWithin] at ran
      cases appended : env.append payload with
      | error error =>
        rw [appended] at ran
        cases ran
      | ok after =>
        rw [appended] at ran
        obtain ⟨fuse', middle, before, final⟩ := ih ran
        refine ⟨fuse', middle, ?_, final⟩
        rw [appendWithin, appended]
        exact before

/-- One append within the fuse is that append. -/
theorem append_of_appendWithin {fuse left : Nat} {env next : OpEnv} {payload : Payload}
    (ran : appendWithin fuse env [payload] = .ok (left, next)) : env.append payload = .ok next := by
  have alone : appendWithin fuse env ([] ++ [payload]) = .ok (left, next) := ran
  obtain ⟨_, middle, before, appended⟩ := appendWithin_concat alone
  have same : env = middle := by
    unfold appendWithin at before
    exact (Prod.mk.inj (Except.ok.inj before)).2
  rw [same]
  exact appended

/-- The state a relate pass appends its checkpoint to, with that checkpoint; a pass over a complete
campaign has none, and neither has one that stops before. -/
def checkpointStage (fuse : Nat) (op : String) (world : RelateWorld Score) (env : OpEnv)
    (observedAtMs : Nat) (options : RelatePassOptions) :
    Option (OpEnv × RelationCampaignCheckpointV1) :=
  match prepareRelatePass world env options with
  | .error _ => none
  | .ok prepared =>
    let trivial := checkpointOf world prepared prepared.evaluatedBasis .complete observedAtMs
    match prepared.execution with
    | .noopComplete => none
    | .rejudgeComplete =>
      match rejudgeRequested fuse op world env observedAtMs prepared with
      | .error _ => none
      | .ok (_, _, judged) => some (judged, trivial)
    | .run _ =>
      if prepared.claims.length < 2 then
        some (env, trivial)
      else
        match evaluateRelatePass fuse op world env observedAtMs prepared with
        | .error _ => none
        | .ok (evaluated, left, judged) =>
          match appendWithin left judged
              (publishedEvents prepared.workspaceId prepared.view evaluated.related
                observedAtMs) with
          | .error _ => none
          | .ok (_, published) =>
            some (published, publishedCheckpoint world prepared evaluated.related observedAtMs)

/-- A pass that succeeds ends with the append of its checkpoint, or appends nothing and reports the
receipts it was given. -/
theorem runRelatePass_stage {fuse : Nat} {op : String} {world : RelateWorld Score}
    {env after : OpEnv} {observedAtMs : Nat} {options : RelatePassOptions}
    {output : RelateRunOutput}
    (ran : runRelatePass fuse op world env observedAtMs options = .ok (output, after)) :
    match checkpointStage fuse op world env observedAtMs options with
    | none => after.journal = env.journal ∧ output.receipts = env.receipts
    | some (stage, payload) => ∃ settled,
        stage.append (.campaignCheckpoint payload) = .ok settled ∧
          after.journal = settled.journal := by
  unfold runRelatePass at ran
  unfold checkpointStage
  cases done : prepareRelatePass world env options with
  | error error =>
    rw [done] at ran
    cases ran
  | ok prepared =>
    rw [done] at ran
    dsimp only at ran ⊢
    cases kind : prepared.execution with
    | noopComplete =>
      rw [kind] at ran
      obtain ⟨told, left⟩ := Prod.mk.inj (Except.ok.inj ran)
      rw [← told, ← left]
      exact ⟨rfl, rfl⟩
    | rejudgeComplete =>
      rw [kind] at ran
      dsimp only at ran ⊢
      unfold rejudgeCompletedCampaign at ran
      cases rejudged : rejudgeRequested fuse op world env observedAtMs prepared with
      | error failure =>
        rw [rejudged] at ran
        cases ran
      | ok step =>
        obtain ⟨row, left, judged⟩ := step
        rw [rejudged] at ran
        dsimp only at ran ⊢
        split at ran
        · cases ran
        · split at ran
          · cases ran
          · rename_i checked appended
            refine ⟨checked, append_of_appendWithin appended, ?_⟩
            rw [← (Prod.mk.inj (Except.ok.inj ran)).2]
            rfl
    | run cursor =>
      rw [kind] at ran
      dsimp only at ran ⊢
      split at ran
      · cases ran
      · split at ran
        · rename_i few
          rw [if_pos few]
          unfold completeTrivialCampaign at ran
          split at ran
          · cases ran
          · rename_i checked appended
            refine ⟨checked, append_of_appendWithin appended, ?_⟩
            rw [← (Prod.mk.inj (Except.ok.inj ran)).2]
            rfl
        · rename_i several
          rw [if_neg several]
          cases evaluating : evaluateRelatePass fuse op world env observedAtMs prepared with
          | error failure =>
            rw [evaluating] at ran
            cases ran
          | ok step =>
            obtain ⟨evaluated, left, judged⟩ := step
            rw [evaluating] at ran
            dsimp only at ran ⊢
            unfold publishRelatePass at ran
            split at ran
            · cases ran
            · rename_i published appended
              obtain ⟨_, stage, before, final⟩ := appendWithin_concat appended
              rw [before]
              refine ⟨published, final, ?_⟩
              rw [← (Prod.mk.inj (Except.ok.inj ran)).2]
              rfl

/-- Whatever a store accepts of a run of appends, it stays conforming. -/
theorem appendWithin_conforming (fuse : Nat) {env : OpEnv} (payloads : List Payload)
    (conforming : env.journal.Conforming) :
    (stateAfter (appendWithin fuse env payloads)).journal.Conforming := by
  rcases appendWithin_cases fuse env payloads with
    ⟨left, next, run, all⟩ | ⟨failure, done, rest, run, split, all⟩
  · rw [run]
    exact (OpEnv.appendAll_spec all conforming).2.2.1
  · rw [run]
    exact (OpEnv.appendAll_spec all conforming).2.2.1

/-- Appends that succeed keep the journal conforming. -/
theorem conforming_of_appendWithin {fuse left : Nat} {env next : OpEnv} {payloads : List Payload}
    (ran : appendWithin fuse env payloads = .ok (left, next))
    (conforming : env.journal.Conforming) : next.journal.Conforming := by
  have kept := appendWithin_conforming fuse payloads conforming
  rw [ran] at kept
  exact kept

/-- The rejudge step keeps the journal conforming. -/
theorem rejudgeRequested_conforming (fuse : Nat) (op : String) (world : RelateWorld Score)
    {env : OpEnv} (observedAtMs : Nat) (prepared : PreparedRelatePass)
    (conforming : env.journal.Conforming) :
    match rejudgeRequested fuse op world env observedAtMs prepared with
    | .error failure => failure.left.journal.Conforming
    | .ok (_, _, judged) => judged.journal.Conforming := by
  unfold rejudgeRequested
  cases prepared.rejudgePair with
  | none => exact conforming
  | some requested =>
    dsimp only
    cases authoritativeSettlements (readable env.journal) env.workspaceId none with
    | error error => exact conforming
    | ok authority =>
      dsimp only
      cases rejudgeAuthoritativePair op world prepared authority.verdicts requested
          observedAtMs with
      | error error => exact conforming
      | ok rejudged =>
        have kept := appendWithin_conforming fuse [.relationJudged rejudged.event] conforming
        dsimp only
        revert kept
        cases appendWithin fuse env [.relationJudged rejudged.event] with
        | error failure => exact id
        | ok pair => exact id

/-- Evaluating a pass keeps the journal conforming. -/
theorem evaluateRelatePass_conforming (fuse : Nat) (op : String) (world : RelateWorld Score)
    {env : OpEnv} (observedAtMs : Nat) (prepared : PreparedRelatePass)
    (conforming : env.journal.Conforming) :
    match evaluateRelatePass fuse op world env observedAtMs prepared with
    | .error failure => failure.left.journal.Conforming
    | .ok (_, _, judged) => judged.journal.Conforming := by
  have rejudging := rejudgeRequested_conforming fuse op world observedAtMs prepared conforming
  unfold evaluateRelatePass
  revert rejudging
  cases rejudgeRequested fuse op world env observedAtMs prepared with
  | error failure => exact id
  | ok step =>
    intro kept
    dsimp only
    cases authoritativeSettlements (readable step.2.2.journal) step.2.2.workspaceId none with
    | error error => exact kept
    | ok authority =>
      dsimp only
      cases relateWithBackends world prepared.claims authority.verdicts prepared.temporal
          prepared.candidatePairBudget prepared.candidateCursor with
      | error error => exact kept
      | ok related => exact kept

/-- The checkpoint of a pass names the policy of its world and its workspace. -/
theorem checkpointStage_payload {fuse : Nat} {op : String} {world : RelateWorld Score}
    {env stage : OpEnv} {observedAtMs : Nat} {options : RelatePassOptions}
    {payload : RelationCampaignCheckpointV1}
    (staged : checkpointStage fuse op world env observedAtMs options = some (stage, payload)) :
    payload.candidatePolicyDigestHex = world.policy.digest ∧
      payload.workspaceId.value = env.workspaceId := by
  unfold checkpointStage at staged
  cases done : prepareRelatePass world env options with
  | error error =>
    rw [done] at staged
    cases staged
  | ok prepared =>
    have named := (prepareRelatePass_prepares done).named
    rw [done] at staged
    dsimp only at staged
    split at staged
    · cases staged
    · split at staged
      · cases staged
      · rw [← (Prod.mk.inj (Option.some.inj staged)).2]
        exact ⟨rfl, named⟩
    · split at staged
      · rw [← (Prod.mk.inj (Option.some.inj staged)).2]
        exact ⟨rfl, named⟩
      · split at staged
        · cases staged
        · split at staged
          · cases staged
          · rw [← (Prod.mk.inj (Option.some.inj staged)).2]
            exact ⟨rfl, named⟩

/-- The state a checkpoint is appended to conforms. -/
theorem checkpointStage_conforming {fuse : Nat} {op : String} {world : RelateWorld Score}
    {env stage : OpEnv} {observedAtMs : Nat} {options : RelatePassOptions}
    {payload : RelationCampaignCheckpointV1} (conforming : env.journal.Conforming)
    (staged : checkpointStage fuse op world env observedAtMs options = some (stage, payload)) :
    stage.journal.Conforming := by
  unfold checkpointStage at staged
  cases done : prepareRelatePass world env options with
  | error error =>
    rw [done] at staged
    cases staged
  | ok prepared =>
    have rejudging := rejudgeRequested_conforming fuse op world observedAtMs prepared conforming
    have evaluating := evaluateRelatePass_conforming fuse op world observedAtMs prepared conforming
    rw [done] at staged
    dsimp only at staged
    split at staged
    · cases staged
    · split at staged
      · cases staged
      · rename_i judged rejudged
        rw [rejudged] at rejudging
        rw [← (Prod.mk.inj (Option.some.inj staged)).1]
        exact rejudging
    · split at staged
      · rw [← (Prod.mk.inj (Option.some.inj staged)).1]
        exact conforming
      · split at staged
        · cases staged
        · rename_i judged evaluated
          rw [evaluated] at evaluating
          split at staged
          · cases staged
          · rename_i published appended
            rw [← (Prod.mk.inj (Option.some.inj staged)).1]
            exact conforming_of_appendWithin appended evaluating

/-- A relate pass keeps the journal conforming, wherever it stops. -/
theorem runRelatePass_conforming (fuse : Nat) (op : String) (world : RelateWorld Score)
    {env : OpEnv} (observedAtMs : Nat) (options : RelatePassOptions)
    (conforming : env.journal.Conforming) :
    (stateAfter (runRelatePass fuse op world env observedAtMs options)).journal.Conforming := by
  unfold runRelatePass
  cases prepareRelatePass world env options with
  | error error => exact conforming
  | ok prepared =>
    have rejudging := rejudgeRequested_conforming fuse op world observedAtMs prepared conforming
    have evaluating := evaluateRelatePass_conforming fuse op world observedAtMs prepared conforming
    dsimp only
    cases prepared.execution with
    | noopComplete => exact conforming
    | rejudgeComplete =>
      dsimp only
      unfold rejudgeCompletedCampaign
      revert rejudging
      cases rejudgeRequested fuse op world env observedAtMs prepared with
      | error failure => exact id
      | ok step =>
        intro kept
        dsimp only
        cases authoritativeSettlements (readable step.2.2.journal) step.2.2.workspaceId none with
        | error error => exact kept
        | ok authority =>
          have checked := appendWithin_conforming step.2.1 [.campaignCheckpoint
            (checkpointOf world prepared prepared.evaluatedBasis .complete observedAtMs)] kept
          dsimp only
          revert checked
          cases appendWithin step.2.1 step.2.2 [.campaignCheckpoint
            (checkpointOf world prepared prepared.evaluatedBasis .complete observedAtMs)] with
          | error failure => exact id
          | ok pair => exact id
    | run cursor =>
      dsimp only
      split
      · exact conforming
      · split
        · have checked := appendWithin_conforming fuse [.campaignCheckpoint
            (checkpointOf world prepared prepared.evaluatedBasis .complete observedAtMs)] conforming
          unfold completeTrivialCampaign
          revert checked
          cases appendWithin fuse env [.campaignCheckpoint
            (checkpointOf world prepared prepared.evaluatedBasis .complete observedAtMs)] with
          | error failure => exact id
          | ok pair => exact id
        · revert evaluating
          cases evaluateRelatePass fuse op world env observedAtMs prepared with
          | error failure => exact id
          | ok step =>
            intro kept
            have published := appendWithin_conforming step.2.1
              (publishedEvents prepared.workspaceId prepared.view step.1.related observedAtMs ++
                [.campaignCheckpoint (publishedCheckpoint world prepared step.1.related
                  observedAtMs)]) kept
            dsimp only
            unfold publishRelatePass
            revert published
            cases appendWithin step.2.1 step.2.2
              (publishedEvents prepared.workspaceId prepared.view step.1.related observedAtMs ++
                [.campaignCheckpoint (publishedCheckpoint world prepared step.1.related
                  observedAtMs)]) with
            | error failure => exact id
            | ok pair => exact id

/-- One step of a history: a relate pass under any operation, or another event appended by its
policy behind any receipts. -/
inductive CampaignStep (Score : Type) where
  | relate (fuse : Nat) (op : String) (world : RelateWorld Score) (workspaceId : String)
      (observedAtMs : Nat) (options : RelatePassOptions)
  | append (workspaceId : String) (receipts : List EventId) (payload : Payload)

/-- What a step leaves, whether or not it succeeds. -/
def CampaignStep.run (step : CampaignStep Score) (journal : Journal) : Journal :=
  match step with
  | .relate fuse op world workspaceId observedAtMs options =>
    (stateAfter (runRelatePass fuse op world { workspaceId := workspaceId, journal := journal }
      observedAtMs options)).journal
  | .append workspaceId receipts payload =>
    match OpEnv.append { workspaceId := workspaceId, journal := journal, receipts := receipts }
        payload with
    | .error _ => journal
    | .ok next => next.journal

/-- The journal a history leaves. -/
def historyOf (steps : List (CampaignStep Score)) : Journal :=
  steps.foldl (fun journal step => step.run journal) Journal.empty

/-- The step law of histories. -/
theorem CampaignStep.run_conforming (step : CampaignStep Score) {journal : Journal}
    (conforming : journal.Conforming) : (step.run journal).Conforming := by
  cases step with
  | relate fuse op world workspaceId observedAtMs options =>
    exact runRelatePass_conforming fuse op world observedAtMs options conforming
  | append workspaceId receipts payload =>
    unfold CampaignStep.run
    dsimp only
    cases appended : OpEnv.append
        { workspaceId := workspaceId, journal := journal, receipts := receipts } payload with
    | error error => exact conforming
    | ok next => exact (OpEnv.append_conforming appended conforming).2

/-- The run law of histories: every journal they leave conforms. -/
theorem historyOf_conforming (steps : List (CampaignStep Score)) :
    (historyOf steps).Conforming := by
  unfold historyOf
  generalize Journal.conforming_empty = start
  revert start
  generalize Journal.empty = journal
  intro start
  induction steps generalizing journal with
  | nil => exact start
  | cons step rest ih => exact ih (step.run journal) (step.run_conforming start)

/-- After any history, a pass that succeeds either appends nothing, or ends with the append of its
checkpoint; that checkpoint is then settled exactly where its transition was open. -/
theorem latest_checkpoint_iff (steps : List (CampaignStep Score)) (fuse : Nat) (op : String)
    (world : RelateWorld Score) (workspaceId : String) (observedAtMs : Nat)
    (options : RelatePassOptions) (output : RelateRunOutput) (after : OpEnv)
    (ran : runRelatePass fuse op world
      { workspaceId := workspaceId, journal := historyOf steps } observedAtMs options =
        .ok (output, after)) :
    match checkpointStage fuse op world { workspaceId := workspaceId, journal := historyOf steps }
        observedAtMs options with
    | none => after.journal = historyOf steps
    | some (stage, payload) => ∃ settled,
        stage.append (.campaignCheckpoint payload) = .ok settled ∧
          after.journal = settled.journal ∧
            (CheckpointSettled settled payload ↔ TransitionOpen stage payload) := by
  have ends := runRelatePass_stage ran
  cases staged : checkpointStage fuse op world
      { workspaceId := workspaceId, journal := historyOf steps } observedAtMs options with
  | none =>
    rw [staged] at ends
    exact ends.1
  | some pair =>
    obtain ⟨stage, payload⟩ := pair
    rw [staged] at ends
    obtain ⟨settled, appended, same⟩ := ends
    have conforming := checkpointStage_conforming (historyOf_conforming steps) staged
    exact ⟨settled, appended, same, checkpointSettled_iff conforming appended⟩

/-- The policy the latest checkpoint of a workspace was made under. -/
def latestPolicy (journal : Journal) (workspaceId : String) : Option String :=
  (latestCampaignRow journal workspaceId).bind fun row =>
    match row.payload with
    | .campaignCheckpoint payload => some payload.candidatePolicyDigestHex
    | _ => none

/-- A pass that reports receipts and leaves a checkpoint of another policy as the latest has
not settled its own. -/
theorem unsettled_of_latestPolicy {fuse : Nat} {op : String} {world : RelateWorld Score}
    {workspaceId policy : String} {journal : Journal} {after : OpEnv} {observedAtMs : Nat}
    {options : RelatePassOptions} {output : RelateRunOutput}
    (ran : runRelatePass fuse op world { workspaceId := workspaceId, journal := journal }
      observedAtMs options = .ok (output, after))
    (reported : output.receipts ≠ [])
    (latest : latestPolicy after.journal workspaceId = some policy)
    (other : policy ≠ world.policy.digest) :
    ∃ stage payload settled,
      checkpointStage fuse op world { workspaceId := workspaceId, journal := journal }
        observedAtMs options = some (stage, payload) ∧
      stage.append (.campaignCheckpoint payload) = .ok settled ∧
      ¬CheckpointSettled settled payload := by
  have ends := runRelatePass_stage ran
  cases staged : checkpointStage fuse op world { workspaceId := workspaceId, journal := journal }
      observedAtMs options with
  | none =>
    rw [staged] at ends
    exact absurd ends.2 reported
  | some pair =>
    obtain ⟨stage, payload⟩ := pair
    rw [staged] at ends
    obtain ⟨settled, appended, left⟩ := ends
    obtain ⟨own, placed⟩ := checkpointStage_payload staged
    have here : payload.workspaceId.value = workspaceId := placed
    refine ⟨stage, payload, settled, rfl, appended, ?_⟩
    intro settles
    obtain ⟨row, found, holds⟩ := settles.latest
    unfold latestPolicy at latest
    rw [left, ← here, found] at latest
    dsimp only [Option.bind] at latest
    rw [holds] at latest
    exact other ((Option.some.inj latest).symm.trans own)

end Runs

/-- A digest of 64 hexadecimal digits, the last of them the sum of the bytes. -/
@[reducible] def sumDigest : Blake3 where
  hex bytes := String.ofList (List.replicate 63 'a' ++
    [Nat.digitChar (bytes.foldl (fun sum byte => sum + byte.toNat) 0 % 16)])

/-- A world that finds every pair unrelated, with one model or another. -/
def unrelatedWorld (model : String) : RelateWorld Nat where
  policy := ⟨0, 0, "provider", "base", model⟩
  scoreOfBits _ := 1
  opened := .ok ()
  embedder := nearEmbedder
  judge _ _ _ := .ok ⟨.unrelated, 900000⟩
  expired _ := false
  judgeFingerprint := "judge"
  cacheKey _ _ := String.ofList (List.replicate 64 'a')
  freshJudgment _ _ := .ok ⟨.unrelated, 900000⟩

/-- A run on an empty workspace settles its campaign. -/
theorem latest_checkpoint_iff_empty :
    let _ := sumDigest
    ∃ output after, runRelatePass 1 relateOp (unrelatedWorld "A")
        { workspaceId := "demo", journal := historyOf ([] : List (CampaignStep Nat)) } 1 {} =
          .ok (output, after) ∧
      match checkpointStage 1 relateOp (unrelatedWorld "A")
          { workspaceId := "demo", journal := historyOf ([] : List (CampaignStep Nat)) } 1 {} with
      | none => after.journal = historyOf ([] : List (CampaignStep Nat))
      | some (stage, payload) => ∃ settled,
          stage.append (.campaignCheckpoint payload) = .ok settled ∧
            after.journal = settled.journal ∧
              (CheckpointSettled settled payload ↔ TransitionOpen stage payload) := by
  intro _
  have succeeds : (runRelatePass 1 relateOp (unrelatedWorld "A")
      { workspaceId := "demo", journal := historyOf ([] : List (CampaignStep Nat)) } 1
        {}).toOption.isSome = true := by decide +kernel
  obtain ⟨⟨output, after⟩, told⟩ := Option.isSome_iff_exists.mp succeeds
  have ran := ok_of_toOption told
  exact ⟨output, after, ran, latest_checkpoint_iff [] 1 relateOp (unrelatedWorld "A") "demo" 1 {}
    output after ran⟩

/-- Two claims of one source are recorded, then related under one model, then under another. -/
def relatedTwice : List (CampaignStep Nat) :=
  [.append "demo" [] (.claimRecorded (plainClaim "claim_a")),
    .append "demo" [] (.claimRecorded (plainClaim "claim_b")),
    .relate 2 relateOp (unrelatedWorld "A") "demo" 5 {},
    .relate 2 relateOp (unrelatedWorld "B") "demo" 6 {}]

/-- The pair of the two claims is to be judged anew. -/
def rejudgeBoth : RelatePassOptions where
  rejudgePair := some (⟨"claim_a", Eq.refl true⟩, ⟨"claim_b", Eq.refl true⟩)

/-- A pass under the first model that judges the pair anew. -/
def rejudgedUnder [Blake3] : Option (RelateRunOutput × OpEnv) :=
  (runRelatePass 2 relateOp (unrelatedWorld "A")
    { workspaceId := "demo", journal := historyOf relatedTwice } 5 rejudgeBoth).toOption

/-- The pass succeeds with two receipts, and the latest checkpoint is still the other model's. -/
theorem rejudgedUnder_latest :
    let _ := sumDigest
    (rejudgedUnder.map fun pass => (pass.1.receipts.length, latestPolicy pass.2.journal "demo")) =
      some (2, some (String.ofList (List.replicate 63 'a' ++ ['4']))) := by
  decide +kernel

/-- The first model judges the pair anew after the other model's run, with the verdict it gave
before: its receipts are old, and its checkpoint is not the latest. -/
theorem old_checkpoint_reported :
    let _ := sumDigest
    ¬ ∀ (steps : List (CampaignStep Nat)) (fuse : Nat) (op : String) (world : RelateWorld Nat)
        (workspaceId : String) (observedAtMs : Nat) (options : RelatePassOptions)
        (output : RelateRunOutput) (after stage settled : OpEnv)
        (payload : RelationCampaignCheckpointV1),
      runRelatePass fuse op world { workspaceId := workspaceId, journal := historyOf steps }
          observedAtMs options = .ok (output, after) →
        checkpointStage fuse op world { workspaceId := workspaceId, journal := historyOf steps }
            observedAtMs options = some (stage, payload) →
          stage.append (.campaignCheckpoint payload) = .ok settled →
            CheckpointSettled settled payload := by
  intro _ settles
  obtain ⟨⟨output, after⟩, told, same⟩ := Option.map_eq_some_iff.mp rejudgedUnder_latest
  have ran := ok_of_toOption told
  obtain ⟨counted, latest⟩ := Prod.mk.inj same
  have reported : output.receipts ≠ [] := by
    intro empty
    rw [empty] at counted
    cases counted
  have other : String.ofList (List.replicate 63 'a' ++ ['4']) ≠
      (unrelatedWorld "A").policy.digest := by
    decide +kernel
  obtain ⟨stage, payload, settled, staged, appended, unsettled⟩ :=
    unsettled_of_latestPolicy ran reported latest other
  exact unsettled (settles _ _ _ _ _ _ _ _ _ _ _ _ ran staged appended)

end Texo.Relate
