import Texo.Foundation.Folds
import Texo.Foundation.Sorting

/-! # Hosted embeddings

Texts are embedded in batches, and a batch that is refused for its size is halved. The rows of a
response are put in the order of their indices, which are not checked against the inputs: a server that
answers each input once is matched, and one that repeats or skips an index is matched all the same.
-/
namespace Texo.Semantics
open Texo.Foundation

/-- `BackendError`, the failures of `/embeddings`. -/
inductive BackendError where
  | http (status : Option Nat)
  | parse
  | unexpectedResponse (detail : String)
deriving DecidableEq, Repr

/-- `EmbeddingDatum`. -/
structure EmbeddingDatum (Scalar : Type) where
  index : Option Nat
  embedding : List Scalar
deriving DecidableEq

/-- The endpoint: what it answers to its calls, one after the other. A response of another JSON shape
is no list of rows. -/
abbrev EmbeddingsServer (Scalar : Type) : Type :=
  Nat → List String → Except BackendError (Option (List (EmbeddingDatum Scalar)))

section
variable {Scalar : Type}

/-- The rows by their indices where each carries one, else as they stand. -/
def orderedRows (rows : List (EmbeddingDatum Scalar)) : List (EmbeddingDatum Scalar) :=
  if rows.all (·.index.isSome) then
    rows.insertionSort fun left right => left.index.getD 0 ≤ right.index.getD 0
  else rows

/-- `parse_embeddings_response`. -/
def parseEmbeddingsResponse (value : Option (List (EmbeddingDatum Scalar))) (expected : Nat) :
    Except BackendError (List (List Scalar)) :=
  match value with
  | none => .error .parse
  | some rows =>
    if rows.length ≠ expected then
      .error (.unexpectedResponse ("expected " ++ toString expected ++ " embedding rows, got " ++
        toString rows.length))
    else
      let vectors := (orderedRows rows).map EmbeddingDatum.embedding
      if vectors.any List.isEmpty then
        .error (.unexpectedResponse "an embedding row contained an empty vector")
      else .ok vectors

/-- `downshiftable_embedding_error`. -/
def downshiftableEmbeddingError (error : BackendError) (chunkLen : Nat) : Bool :=
  1 < chunkLen && match error with
    | .http (some status) => [400, 413, 422].contains status
    | _ => false

/-- `embed_chunk`: the calls made so far and the vectors. -/
def embedChunk (server : EmbeddingsServer Scalar) (calls : Nat) (chunk : List String)
    (vectors : List (List Scalar)) : Except BackendError (Nat × List (List Scalar)) :=
  match server calls chunk with
  | .ok value =>
    (parseEmbeddingsResponse value chunk.length).map fun rows => (calls + 1, vectors ++ rows)
  | .error error =>
    if _large : downshiftableEmbeddingError error chunk.length = true then
      match embedChunk server (calls + 1) (chunk.take (chunk.length / 2)) vectors with
      | .error error => .error error
      | .ok (calls, vectors) => embedChunk server calls (chunk.drop (chunk.length / 2)) vectors
    else .error error
termination_by chunk.length
decreasing_by
  · have two : 1 < chunk.length := by
      unfold downshiftableEmbeddingError at _large
      exact of_decide_eq_true (Bool.and_eq_true_iff.mp _large).1
    rw [List.length_take]
    omega
  · have two : 1 < chunk.length := by
      unfold downshiftableEmbeddingError at _large
      exact of_decide_eq_true (Bool.and_eq_true_iff.mp _large).1
    rw [List.length_drop]
    omega

/-- `slice::chunks`. -/
def chunks (size : Nat) (texts : List String) : List (List String) :=
  if _some : texts = [] ∨ size = 0 then [] else texts.take size :: chunks size (texts.drop size)
termination_by texts.length
decreasing_by
  have size := List.length_pos_of_ne_nil fun empty => _some (Or.inl empty)
  rw [List.length_drop]
  omega

/-- The loop of `embed_batch`. -/
def embedChunks (server : EmbeddingsServer Scalar) :
    Nat → List (List String) → List (List Scalar) → Except BackendError (List (List Scalar))
  | _, [], vectors => .ok vectors
  | calls, chunk :: rest, vectors =>
    match embedChunk server calls chunk vectors with
    | .error error => .error error
    | .ok (calls, vectors) => embedChunks server calls rest vectors

/-- `embed_batch`. -/
def embedBatch (server : EmbeddingsServer Scalar) (embedBatchMax : Nat) (texts : List String) :
    Except BackendError (List (List Scalar)) :=
  if texts = [] then .ok [] else embedChunks server 0 (chunks (max embedBatchMax 1) texts) []

/-- The rows of the inputs in their order, each with its index from a start on. -/
def indexedRows (embedding : String → List Scalar) (start : Nat) (chunk : List String) :
    List (EmbeddingDatum Scalar) :=
  (chunk.zipIdx start).map fun input => ⟨some input.2, embedding input.1⟩

/-- A response with one row for each input: in any order, each with the index of its input, or in the
order of the inputs without indices. -/
def Answers (embedding : String → List Scalar) (chunk : List String)
    (rows : List (EmbeddingDatum Scalar)) : Prop :=
  rows.Perm (indexedRows embedding 0 chunk) ∨
    rows = chunk.map fun text => ⟨none, embedding text⟩

/-- A server each of whose responses answers its request. -/
def Faithful (embedding : String → List Scalar) (server : EmbeddingsServer Scalar) : Prop :=
  ∀ call chunk rows, chunk ≠ [] → server call chunk = .ok (some rows) → Answers embedding chunk rows

/-- The rows of the inputs ascend by their indices. -/
theorem pairwise_indexedRows (embedding : String → List Scalar) (start : Nat) (chunk : List String) :
    (indexedRows embedding start chunk).Pairwise
      fun left right => left.index.getD 0 < right.index.getD 0 := by
  induction chunk generalizing start with
  | nil => exact List.Pairwise.nil
  | cons text chunk ih =>
    unfold indexedRows
    rw [List.zipIdx_cons, List.map_cons]
    refine List.pairwise_cons.mpr ⟨?_, ih (start + 1)⟩
    intro later member
    obtain ⟨input, inside, rfl⟩ := List.mem_map.mp member
    have place := List.le_snd_of_mem_zipIdx inside
    show start < input.2
    omega

/-- The embeddings of the rows of the inputs. -/
theorem map_indexedRows (embedding : String → List Scalar) (start : Nat) (chunk : List String) :
    (indexedRows embedding start chunk).map EmbeddingDatum.embedding = chunk.map embedding := by
  unfold indexedRows
  rw [List.map_map]
  have parts : (EmbeddingDatum.embedding ∘ fun input : String × Nat =>
      (⟨some input.2, embedding input.1⟩ : EmbeddingDatum Scalar)) = embedding ∘ Prod.fst := rfl
  rw [parts, ← List.map_map, List.zipIdx_map_fst]

/-- Rows that carry the indices of their inputs are sorted into the order of the inputs. -/
theorem orderedRows_indexed {embedding : String → List Scalar} {chunk : List String}
    {rows : List (EmbeddingDatum Scalar)} (listed : rows.Perm (indexedRows embedding 0 chunk)) :
    orderedRows rows = indexedRows embedding 0 chunk := by
  have ascending := pairwise_indexedRows embedding 0 chunk
  have all : rows.all (·.index.isSome) = true := by
    rw [List.all_eq_true]
    intro row member
    obtain ⟨input, _, rfl⟩ := List.mem_map.mp (listed.mem_iff.mp member)
    rfl
  have distinct : ((indexedRows embedding 0 chunk).map (·.index.getD 0)).Nodup := by
    apply List.pairwise_map.mpr
    exact ascending.imp fun below => Nat.ne_of_lt below
  have sorted : (indexedRows embedding 0 chunk).insertionSort
      (fun left right => left.index.getD 0 ≤ right.index.getD 0) = indexedRows embedding 0 chunk := by
    apply List.Pairwise.insertionSort_eq
    exact ascending.imp fun below => Nat.le_of_lt below
  unfold orderedRows
  rw [if_pos all, ← sorted]
  have total : Std.Total fun left right : EmbeddingDatum Scalar =>
      left.index.getD 0 ≤ right.index.getD 0 := ⟨fun left right => Nat.le_total _ _⟩
  have chained : IsTrans (EmbeddingDatum Scalar) fun left right =>
      left.index.getD 0 ≤ right.index.getD 0 := ⟨fun _ _ _ => Nat.le_trans⟩
  rw [sorted, ← sorted]
  apply insertionSort_eq_of_keyed _ ((listed.map _).nodup_iff.mpr distinct) distinct
  · intro row
    exact listed.mem_iff
  · intro left right before behind
    exact Nat.le_antisymm before behind

/-- The rows of a response are put in the order of the inputs. -/
theorem orderedRows_answers {embedding : String → List Scalar} {chunk : List String}
    {rows : List (EmbeddingDatum Scalar)} (answers : Answers embedding chunk rows) :
    (orderedRows rows).map EmbeddingDatum.embedding = chunk.map embedding := by
  rcases answers with listed | plain
  · rw [orderedRows_indexed listed, map_indexedRows]
  · cases chunk with
    | nil =>
      rw [plain]
      rfl
    | cons text chunk =>
      have mixed : ¬rows.all (·.index.isSome) = true := by
        rw [plain]
        simp
      unfold orderedRows
      rw [if_neg mixed, plain, List.map_map]
      rfl

/-- The order of the rows loses none. -/
theorem perm_orderedRows (rows : List (EmbeddingDatum Scalar)) : (orderedRows rows).Perm rows := by
  unfold orderedRows
  split
  · exact List.perm_insertionSort _ rows
  · exact List.Perm.refl rows

/-- The spec of `parse_embeddings_response`: rows of the right number, none of them empty. -/
theorem parseEmbeddingsResponse_eq_ok {rows : List (EmbeddingDatum Scalar)} {expected : Nat}
    {vectors : List (List Scalar)} :
    parseEmbeddingsResponse (some rows) expected = .ok vectors ↔
      rows.length = expected ∧ (∀ row ∈ rows, row.embedding ≠ []) ∧
        vectors = (orderedRows rows).map EmbeddingDatum.embedding := by
  have empties : ((orderedRows rows).map EmbeddingDatum.embedding).any List.isEmpty = false ↔
      ∀ row ∈ rows, row.embedding ≠ [] := by
    rw [List.any_eq_false]
    constructor
    · intro none row member empty
      have inside := List.mem_map_of_mem (f := EmbeddingDatum.embedding)
        ((perm_orderedRows rows).mem_iff.mpr member)
      exact none _ inside (by rw [empty]; rfl)
    · intro full vector member
      obtain ⟨row, inside, rfl⟩ := List.mem_map.mp member
      simpa using full row ((perm_orderedRows rows).mem_iff.mp inside)
  unfold parseEmbeddingsResponse
  dsimp only
  by_cases count : rows.length = expected
  · rw [if_neg (not_not.mpr count)]
    cases any : ((orderedRows rows).map EmbeddingDatum.embedding).any List.isEmpty with
    | true =>
      rw [if_pos rfl]
      constructor
      · intro read
        cases read
      · rintro ⟨_, full, _⟩
        rw [empties.mpr full] at any
        cases any
    | false =>
      rw [if_neg Bool.false_ne_true]
      constructor
      · intro read
        cases read
        exact ⟨count, empties.mp any, rfl⟩
      · rintro ⟨_, _, same⟩
        rw [same]
  · rw [if_pos count]
    constructor
    · intro read
      cases read
    · rintro ⟨same, _⟩
      exact absurd same count

section Alignment
variable {embedding : String → List Scalar} {server : EmbeddingsServer Scalar}

/-- A batch is embedded in its order, however often it is halved. -/
theorem embedChunk_aligned (faithful : Faithful embedding server) {calls after : Nat}
    {chunk : List String} {vectors got : List (List Scalar)} (some : chunk ≠ [])
    (done : embedChunk server calls chunk vectors = .ok (after, got)) :
    got = vectors ++ chunk.map embedding := by
  induction size : chunk.length using Nat.strong_induction_on generalizing calls after chunk vectors got
    with
  | _ count ih =>
    unfold embedChunk at done
    split at done
    · rename_i value answered
      cases parsed : parseEmbeddingsResponse value chunk.length with
      | error error =>
        rw [parsed] at done
        cases done
      | ok rows =>
        rw [parsed] at done
        cases done
        cases value with
        | none => cases parsed
        | some listed =>
          have answers := faithful calls chunk listed some answered
          rw [(parseEmbeddingsResponse_eq_ok.mp parsed).2.2, orderedRows_answers answers]
    · split at done
      · rename_i large
        have two : 1 < chunk.length := by
          unfold downshiftableEmbeddingError at large
          exact of_decide_eq_true (Bool.and_eq_true_iff.mp large).1
        have front : chunk.take (chunk.length / 2) ≠ [] := by
          apply List.ne_nil_of_length_pos
          rw [List.length_take]
          omega
        have back : chunk.drop (chunk.length / 2) ≠ [] := by
          apply List.ne_nil_of_length_pos
          rw [List.length_drop]
          omega
        split at done
        · cases done
        · rename_i middle taken first
          have early := ih _ (by rw [← size, List.length_take]; omega) front first rfl
          have late := ih _ (by rw [← size, List.length_drop]; omega) back done rfl
          rw [late, early, List.append_assoc, ← List.map_append, List.take_append_drop]
      · cases done

/-- The batches of some texts, one after the other. -/
theorem flatten_chunks {size : Nat} (positive : 0 < size) (texts : List String) :
    (chunks size texts).flatten = texts ∧ [] ∉ chunks size texts := by
  induction count : texts.length using Nat.strong_induction_on generalizing texts with
  | _ count ih =>
    unfold chunks
    by_cases empty : texts = []
    · rw [dif_pos (Or.inl empty), empty]
      exact ⟨rfl, List.not_mem_nil⟩
    · have more : ¬(texts = [] ∨ size = 0) := by
        rintro (none | zero)
        · exact empty none
        · omega
      have long := List.length_pos_of_ne_nil empty
      obtain ⟨whole, full⟩ := ih _ (by rw [← count, List.length_drop]; omega) (texts.drop size) rfl
      have front : texts.take size ≠ [] := by
        apply List.ne_nil_of_length_pos
        rw [List.length_take]
        omega
      rw [dif_neg more, List.flatten_cons, whole, List.take_append_drop]
      refine ⟨rfl, ?_⟩
      intro member
      rcases List.mem_cons.mp member with same | later
      · exact front same.symm
      · exact full later

/-- Batches are embedded in their order. -/
theorem embedChunks_aligned (faithful : Faithful embedding server) {calls : Nat}
    {batches : List (List String)} {vectors got : List (List Scalar)} (full : [] ∉ batches)
    (done : embedChunks server calls batches vectors = .ok got) :
    got = vectors ++ batches.flatten.map embedding := by
  induction batches generalizing calls vectors with
  | nil =>
    cases done
    exact (List.append_nil _).symm
  | cons batch batches ih =>
    have some : batch ≠ [] := by
      intro empty
      exact full (by rw [empty]; exact List.mem_cons_self)
    have rest : [] ∉ batches := fun member => full (List.mem_cons_of_mem _ member)
    unfold embedChunks at done
    split at done
    · cases done
    · rename_i after taken first
      rw [ih rest done, embedChunk_aligned faithful some first, List.append_assoc, List.flatten_cons,
        List.map_append]

/-- The vectors of a faithful server are those of the texts. -/
theorem embedBatch_aligned (faithful : Faithful embedding server) {embedBatchMax : Nat}
    {texts : List String} {vectors : List (List Scalar)}
    (done : embedBatch server embedBatchMax texts = .ok vectors) : vectors = texts.map embedding := by
  unfold embedBatch at done
  split at done
  · rename_i empty
    cases done
    rw [empty]
    rfl
  · obtain ⟨whole, full⟩ := flatten_chunks (show 0 < max embedBatchMax 1 by omega) texts
    have aligned := embedChunks_aligned faithful full done
    rw [aligned, whole]
    rfl

/-- A batch is embedded where the server refuses nothing but batches that can be halved. -/
theorem embedChunk_total (faithful : Faithful embedding server)
    (shaped : ∀ call chunk, server call chunk ≠ .ok none)
    (large : ∀ call chunk error, server call chunk = .error error →
      downshiftableEmbeddingError error chunk.length = true)
    (nonempty : ∀ text, embedding text ≠ []) (calls : Nat) {chunk : List String} (some : chunk ≠ [])
    (vectors : List (List Scalar)) :
    ∃ result, embedChunk server calls chunk vectors = .ok result := by
  induction size : chunk.length using Nat.strong_induction_on generalizing calls chunk vectors with
  | _ count ih =>
    unfold embedChunk
    cases answered : server calls chunk with
    | ok value =>
      cases value with
      | none => exact absurd answered (shaped calls chunk)
      | some rows =>
        have answers := faithful calls chunk rows some answered
        have aligned := orderedRows_answers answers
        have number : rows.length = chunk.length := by
          have sizes := congrArg List.length aligned
          rw [List.length_map, List.length_map] at sizes
          rw [← sizes]
          exact (perm_orderedRows rows).length_eq.symm
        have full : ∀ row ∈ rows, row.embedding ≠ [] := by
          intro row member
          have inside := List.mem_map_of_mem (f := EmbeddingDatum.embedding)
            ((perm_orderedRows rows).mem_iff.mpr member)
          rw [aligned] at inside
          obtain ⟨text, _, same⟩ := List.mem_map.mp inside
          rw [← same]
          exact nonempty text
        have parsed := parseEmbeddingsResponse_eq_ok.mpr ⟨number, full, rfl⟩
        dsimp only
        rw [parsed]
        exact ⟨_, rfl⟩
    | error error =>
      have halved := large calls chunk error answered
      have two : 1 < chunk.length := by
        unfold downshiftableEmbeddingError at halved
        exact of_decide_eq_true (Bool.and_eq_true_iff.mp halved).1
      have front : chunk.take (chunk.length / 2) ≠ [] := by
        apply List.ne_nil_of_length_pos
        rw [List.length_take]
        omega
      have back : chunk.drop (chunk.length / 2) ≠ [] := by
        apply List.ne_nil_of_length_pos
        rw [List.length_drop]
        omega
      obtain ⟨⟨middle, taken⟩, first⟩ :=
        ih _ (by rw [← size, List.length_take]; omega) (calls + 1) front vectors rfl
      obtain ⟨result, second⟩ :=
        ih _ (by rw [← size, List.length_drop]; omega) middle back taken rfl
      dsimp only
      rw [dif_pos halved, first]
      exact ⟨result, second⟩

/-- All texts are embedded where the server refuses nothing but batches that can be halved. -/
theorem embedBatch_total (faithful : Faithful embedding server)
    (shaped : ∀ call chunk, server call chunk ≠ .ok none)
    (large : ∀ call chunk error, server call chunk = .error error →
      downshiftableEmbeddingError error chunk.length = true)
    (nonempty : ∀ text, embedding text ≠ []) (embedBatchMax : Nat) (texts : List String) :
    embedBatch server embedBatchMax texts = .ok (texts.map embedding) := by
  have each : ∀ batches, [] ∉ batches → ∀ calls vectors,
      ∃ got, embedChunks server calls batches vectors = .ok got := by
    intro batches
    induction batches with
    | nil => exact fun _ _ vectors => ⟨vectors, rfl⟩
    | cons batch batches ih =>
      intro full calls vectors
      have some : batch ≠ [] := by
        intro empty
        exact full (by rw [empty]; exact List.mem_cons_self)
      obtain ⟨⟨after, taken⟩, first⟩ :=
        embedChunk_total faithful shaped large nonempty calls some vectors
      obtain ⟨got, rest⟩ := ih (fun member => full (List.mem_cons_of_mem _ member)) after taken
      refine ⟨got, ?_⟩
      unfold embedChunks
      rw [first]
      exact rest
  have done : ∃ got, embedBatch server embedBatchMax texts = .ok got := by
    unfold embedBatch
    by_cases empty : texts = []
    · rw [if_pos empty]
      exact ⟨[], rfl⟩
    · rw [if_neg empty]
      exact each _ (flatten_chunks (show 0 < max embedBatchMax 1 by omega) texts).2 0 []
  obtain ⟨got, embedded⟩ := done
  rw [embedded, embedBatch_aligned faithful embedded]

end Alignment

/-- A response whose rows carry indices other than those of the inputs, each once, is refused. -/
def RefusesMisindexed (rows : List (EmbeddingDatum Scalar)) (expected : Nat) : Prop :=
  (∃ row ∈ rows, row.index ≠ none) →
    ¬(rows.filterMap EmbeddingDatum.index).Perm (List.range expected) →
      ∃ error, parseEmbeddingsResponse (some rows) expected = .error error

/-- A response is refused exactly for the number of its rows or an empty vector. -/
theorem parseEmbeddingsResponse_eq_error (rows : List (EmbeddingDatum Scalar)) (expected : Nat) :
    (∃ error, parseEmbeddingsResponse (some rows) expected = .error error) ↔
      rows.length ≠ expected ∨ ∃ row ∈ rows, row.embedding = [] := by
  have spec := @parseEmbeddingsResponse_eq_ok _ rows expected
  cases parsed : parseEmbeddingsResponse (some rows) expected with
  | error error =>
    refine iff_of_true ⟨error, rfl⟩ ?_
    by_contra neither
    rw [not_or, not_not] at neither
    have read := spec.mpr ⟨neither.1, fun row member empty => neither.2 ⟨row, member, empty⟩, rfl⟩
    rw [parsed] at read
    cases read
  | ok vectors =>
    obtain ⟨count, full, _⟩ := spec.mp parsed
    refine iff_of_false (by rintro ⟨error, failed⟩; cases failed) ?_
    rintro (other | ⟨row, member, empty⟩)
    · exact other count
    · exact full row member empty

/-- Texts and vectors are matched whenever the server answers its requests, and no text is left out
where it refuses nothing but batches that can be halved. A response with other indices is refused
exactly where its count or an empty vector refuses it. -/
theorem embeddings_matched :
    (∀ (embedding : String → List Scalar) server embedBatchMax texts vectors,
        Faithful embedding server → embedBatch server embedBatchMax texts = .ok vectors →
          vectors = texts.map embedding) ∧
      (∀ (embedding : String → List Scalar) server embedBatchMax texts,
        Faithful embedding server → (∀ call chunk, server call chunk ≠ .ok none) →
          (∀ call chunk error, server call chunk = .error error →
            downshiftableEmbeddingError error chunk.length = true) →
          (∀ text, embedding text ≠ []) →
            embedBatch server embedBatchMax texts = .ok (texts.map embedding)) ∧
      ∀ (rows : List (EmbeddingDatum Scalar)) expected, RefusesMisindexed rows expected ↔
        rows.length ≠ expected ∨ (∃ row ∈ rows, row.embedding = []) ∨
          (∀ row ∈ rows, row.index = none) ∨
            (rows.filterMap EmbeddingDatum.index).Perm (List.range expected) := by
  refine ⟨fun _ _ _ _ _ faithful done => embedBatch_aligned faithful done,
    fun _ _ size texts faithful shaped large nonempty =>
      embedBatch_total faithful shaped large nonempty size texts, ?_⟩
  intro rows expected
  have refused := parseEmbeddingsResponse_eq_error rows expected
  unfold RefusesMisindexed
  rw [refused]
  constructor
  · intro refuses
    by_cases plain : ∀ row ∈ rows, row.index = none
    · exact Or.inr (Or.inr (Or.inl plain))
    · by_cases each : (rows.filterMap EmbeddingDatum.index).Perm (List.range expected)
      · exact Or.inr (Or.inr (Or.inr each))
      · have carried : ∃ row ∈ rows, row.index ≠ none := by
          by_contra nowhere
          apply plain
          intro row member
          by_contra some
          exact nowhere ⟨row, member, some⟩
        rcases refuses carried each with count | empty
        · exact Or.inl count
        · exact Or.inr (Or.inl empty)
  · rintro (count | empty | plain | each) ⟨row, member, some⟩ other
    · exact Or.inl count
    · exact Or.inr empty
    · exact absurd (plain row member) some
    · exact absurd each other

end

/-- Two rows for one input and none for the other. -/
def repeatedIndex : List (EmbeddingDatum Nat) := [⟨some 0, [1]⟩, ⟨some 0, [2]⟩]

/-- A response that repeats an index is matched to both inputs. -/
theorem repeatedIndex_matched :
    parseEmbeddingsResponse (some repeatedIndex) 2 = .ok [[1], [2]] ∧
      ¬RefusesMisindexed repeatedIndex 2 := by
  have parsed : parseEmbeddingsResponse (some repeatedIndex) 2 = .ok [[1], [2]] := by decide
  refine ⟨parsed, ?_⟩
  intro refuses
  have other : ¬(repeatedIndex.filterMap EmbeddingDatum.index).Perm (List.range 2) := by decide
  obtain ⟨error, failed⟩ := refuses ⟨⟨some 0, [1]⟩, List.mem_cons_self, by decide⟩ other
  rw [parsed] at failed
  cases failed

end Texo.Semantics
