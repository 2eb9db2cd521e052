import Texo.Foundation.DepthFirst
import Texo.Ops.Capture

/-! # Ancestry of commits

Two commits are compared by a bounded walk over parents from each of them. A walk ends at the
commit it looks for, at the budget, at a commit that is not there, or when the history is spent.
-/
namespace Texo.Git
open Texo.Knowledge Texo.Ops Texo.Foundation

/-- The full history of a repository: the parents of each commit, no commit its own ancestor. -/
structure CommitGraph where
  parents : GitObjectId → List GitObjectId
  acyclic : WellFounded fun parent commit => parent ∈ parents commit

/-- `AncestorResult`. -/
inductive AncestorResult where
  | found
  | notFound
  | unknown (kind : CoverageGapKind)
deriving DecidableEq, Repr

/-- What popping pending commits comes to: the ancestor, a commit not seen yet, or nothing left. -/
inductive Popped where
  | found
  | fresh (commit : GitObjectId) (rest : List GitObjectId)
  | drained

/-- Pop pending commits until one matters, passing those seen before. -/
def popPending (ancestor : GitObjectId) (seen : List GitObjectId) : List GitObjectId → Popped
  | [] => .drained
  | commit :: rest =>
    if commit = ancestor then
      .found
    else if commit ∈ seen then
      popPending ancestor seen rest
    else
      .fresh commit rest

/-- The loop of `ancestor_of`: the stack has its top first, and `room` commits may still be seen. -/
def ancestorWalk (graph : CommitGraph) (present : GitObjectId → Bool) (ancestor : GitObjectId) :
    Nat → List GitObjectId → List GitObjectId → AncestorResult
  | 0, seen, pending =>
    match popPending ancestor seen pending with
    | .found => .found
    | .drained => .notFound
    | .fresh _ _ => .unknown .budgetExceeded
  | room + 1, seen, pending =>
    match popPending ancestor seen pending with
    | .found => .found
    | .drained => .notFound
    | .fresh commit rest =>
      if present commit then
        ancestorWalk graph present ancestor room (commit :: seen)
          ((graph.parents commit).reverse ++ rest)
      else
        .unknown .shallowHistory

/-- `ancestor_of`. -/
def ancestorOf (graph : CommitGraph) (present : GitObjectId → Bool) (ancestor descendant : GitObjectId)
    (maxCommits : Nat) : AncestorResult :=
  ancestorWalk graph present ancestor maxCommits [] [descendant]

/-- `compare_commits` in an opened repository. -/
def comparison (graph : CommitGraph) (present : GitObjectId → Bool) (left right : GitObjectId)
    (maxCommits : Nat) : GitComparison :=
  if left = right then
    ⟨.same, none⟩
  else
    match ancestorOf graph present left right maxCommits with
    | .found => ⟨.before, none⟩
    | .unknown kind => ⟨.unknown, some kind⟩
    | .notFound =>
      match ancestorOf graph present right left maxCommits with
      | .found => ⟨.after, none⟩
      | .notFound => ⟨.concurrent, none⟩
      | .unknown kind => ⟨.unknown, some kind⟩

/-- `compare_commits`: only different commits open the repository. -/
def compareCommits (opened : Except TexoError Unit) (graph : CommitGraph)
    (present : GitObjectId → Bool) (left right : GitObjectId) (maxCommits : Nat) :
    Except TexoError GitComparison :=
  if left = right then
    .ok ⟨.same, none⟩
  else
    opened.map fun _ => comparison graph present left right maxCommits

/-- What popping does to a walk. -/
theorem popPending_spec (next : GitObjectId → List GitObjectId) (ancestor : GitObjectId)
    (seen pending : List GitObjectId) :
    match popPending ancestor seen pending with
    | .found => Walk next ancestor seen pending [] true
    | .drained => Walk next ancestor seen pending [] false
    | .fresh commit rest => commit ∈ pending ∧ commit ∉ seen ∧ (∀ other ∈ rest, other ∈ pending) ∧
        (∀ visited met, Walk next ancestor (commit :: seen) ((next commit).reverse ++ rest) visited met →
          Walk next ancestor seen pending (commit :: visited) met) ∧
        ∀ visited, Walk next ancestor seen pending visited true → ∃ behind,
          visited = commit :: behind ∧
            Walk next ancestor (commit :: seen) ((next commit).reverse ++ rest) behind true := by
  induction pending with
  | nil => exact .drained seen
  | cons commit rest ih =>
    unfold popPending
    by_cases same : commit = ancestor
    · rw [if_pos same]
      show Walk next ancestor seen (commit :: rest) [] true
      rw [same]
      exact .met seen rest
    · rw [if_neg same]
      by_cases known : commit ∈ seen
      · rw [if_pos known]
        cases popped : popPending ancestor seen rest with
        | found =>
          rw [popped] at ih
          exact .again same known ih
        | drained =>
          rw [popped] at ih
          exact .again same known ih
        | fresh other left =>
          rw [popped] at ih
          obtain ⟨member, fresh, inside, forth, back⟩ := ih
          refine ⟨List.mem_cons_of_mem _ member, fresh,
            fun other member => List.mem_cons_of_mem _ (inside other member), ?_, ?_⟩
          · exact fun visited met later => .again same known (forth visited met later)
          · intro visited walk
            cases walk with
            | met => exact absurd rfl same
            | again _ _ later => exact back visited later
            | visit _ fresh _ => exact absurd known fresh
      · rw [if_neg known]
        refine ⟨List.mem_cons_self, known, fun _ member => List.mem_cons_of_mem _ member,
          fun _ _ later => .visit same known later, ?_⟩
        intro visited walk
        cases walk with
        | met => exact absurd rfl same
        | again _ seenBefore _ => exact absurd seenBefore known
        | visit _ _ later => exact ⟨_, rfl, later⟩

section
variable {graph : CommitGraph} {present : GitObjectId → Bool} {ancestor : GitObjectId}

/-- One turn of the loop. -/
theorem ancestorWalk_eq (room : Nat) (seen pending : List GitObjectId) :
    ancestorWalk graph present ancestor room seen pending =
      match popPending ancestor seen pending with
      | .found => .found
      | .drained => .notFound
      | .fresh commit rest =>
        match room with
        | 0 => .unknown .budgetExceeded
        | room + 1 =>
          if present commit then
            ancestorWalk graph present ancestor room (commit :: seen)
              ((graph.parents commit).reverse ++ rest)
          else
            .unknown .shallowHistory := by
  cases room with
  | zero => rfl
  | succ room => rfl

/-- The loop finds the ancestor exactly where the walk meets it over commits that are there, no more
than it may see. -/
theorem ancestorWalk_found (room : Nat) (seen pending : List GitObjectId) :
    ancestorWalk graph present ancestor room seen pending = .found ↔
      ∃ visited, Walk graph.parents ancestor seen pending visited true ∧ visited.length ≤ room ∧
        ∀ commit ∈ visited, present commit = true := by
  induction room generalizing seen pending with
  | zero =>
    rw [ancestorWalk_eq]
    have popping := popPending_spec graph.parents ancestor seen pending
    cases popped : popPending ancestor seen pending with
    | found =>
      rw [popped] at popping
      exact iff_of_true rfl ⟨[], popping, Nat.le_refl _, by simp⟩
    | drained =>
      rw [popped] at popping
      refine iff_of_false (by simp) ?_
      rintro ⟨visited, walk, short, _⟩
      have none : visited = [] := List.length_eq_zero_iff.mp (Nat.le_zero.mp short)
      rw [none] at walk
      exact absurd (popping.agree walk).2 (by decide)
    | fresh commit rest =>
      rw [popped] at popping
      refine iff_of_false (by simp) ?_
      rintro ⟨visited, walk, short, _⟩
      obtain ⟨behind, same, _⟩ := popping.2.2.2.2 visited walk
      rw [same] at short
      simp at short
  | succ room ih =>
    rw [ancestorWalk_eq]
    have popping := popPending_spec graph.parents ancestor seen pending
    cases popped : popPending ancestor seen pending with
    | found =>
      rw [popped] at popping
      exact iff_of_true rfl ⟨[], popping, Nat.zero_le _, by simp⟩
    | drained =>
      rw [popped] at popping
      refine iff_of_false (by simp) ?_
      rintro ⟨visited, walk, _, _⟩
      exact absurd (popping.agree walk).2 (by decide)
    | fresh commit rest =>
      rw [popped] at popping
      obtain ⟨_, _, _, forth, back⟩ := popping
      show (if present commit then _ else _) = _ ↔ _
      by_cases here : present commit = true
      · rw [if_pos here, ih]
        constructor
        · rintro ⟨visited, walk, short, there⟩
          refine ⟨commit :: visited, forth visited true walk, by simpa using short, ?_⟩
          intro other member
          rcases List.mem_cons.mp member with rfl | behind
          · exact here
          · exact there other behind
        · rintro ⟨visited, walk, short, there⟩
          obtain ⟨behind, same, later⟩ := back visited walk
          rw [same] at short there
          exact ⟨behind, later, by simpa using short,
            fun other member => there other (List.mem_cons_of_mem _ member)⟩
      · rw [if_neg here]
        refine iff_of_false (by simp) ?_
        rintro ⟨visited, walk, _, there⟩
        obtain ⟨behind, same, _⟩ := back visited walk
        rw [same] at there
        exact here (there commit List.mem_cons_self)

/-- The loop ends without the ancestor only where the walk drains over commits that are there, no
more than it may see. -/
theorem ancestorWalk_notFound {room : Nat} {seen pending : List GitObjectId}
    (ended : ancestorWalk graph present ancestor room seen pending = .notFound) :
    ∃ visited, Walk graph.parents ancestor seen pending visited false ∧ visited.length ≤ room ∧
      ∀ commit ∈ visited, present commit = true := by
  induction room generalizing seen pending with
  | zero =>
    rw [ancestorWalk_eq] at ended
    have popping := popPending_spec graph.parents ancestor seen pending
    cases popped : popPending ancestor seen pending with
    | found =>
      rw [popped] at ended
      cases ended
    | drained =>
      rw [popped] at popping
      exact ⟨[], popping, Nat.le_refl _, by simp⟩
    | fresh commit rest =>
      rw [popped] at ended
      cases ended
  | succ room ih =>
    rw [ancestorWalk_eq] at ended
    have popping := popPending_spec graph.parents ancestor seen pending
    cases popped : popPending ancestor seen pending with
    | found =>
      rw [popped] at ended
      cases ended
    | drained =>
      rw [popped] at popping
      exact ⟨[], popping, Nat.zero_le _, by simp⟩
    | fresh commit rest =>
      rw [popped] at ended popping
      have turn : (if present commit then ancestorWalk graph present ancestor room (commit :: seen)
          ((graph.parents commit).reverse ++ rest) else .unknown .shallowHistory) = .notFound := ended
      by_cases here : present commit = true
      · rw [if_pos here] at turn
        obtain ⟨visited, walk, short, there⟩ := ih turn
        refine ⟨commit :: visited, popping.2.2.2.1 visited false walk, by simpa using short, ?_⟩
        intro other member
        rcases List.mem_cons.mp member with rfl | behind
        · exact here
        · exact there other behind
      · rw [if_neg here] at turn
        cases turn

/-- The loop gives up only behind more distinct commits than it may see, or at one that is missing,
all of them in the history of what was pending. -/
theorem ancestorWalk_unknown {room : Nat} {seen pending : List GitObjectId} {kind : CoverageGapKind}
    (ended : ancestorWalk graph present ancestor room seen pending = .unknown kind) :
    ∃ front : List GitObjectId, front.Nodup ∧
      (∀ commit ∈ front, commit ∉ seen ∧ ∃ start ∈ pending, Reaches graph.parents start commit) ∧
      (room < front.length ∨ ∃ commit ∈ front, present commit = false) := by
  induction room generalizing seen pending with
  | zero =>
    rw [ancestorWalk_eq] at ended
    have popping := popPending_spec graph.parents ancestor seen pending
    cases popped : popPending ancestor seen pending with
    | found =>
      rw [popped] at ended
      cases ended
    | drained =>
      rw [popped] at ended
      cases ended
    | fresh commit rest =>
      rw [popped] at popping
      refine ⟨[commit], List.nodup_singleton _, ?_, Or.inl (by simp)⟩
      intro other member
      rw [List.mem_singleton.mp member]
      exact ⟨popping.2.1, commit, popping.1, .refl⟩
  | succ room ih =>
    rw [ancestorWalk_eq] at ended
    have popping := popPending_spec graph.parents ancestor seen pending
    cases popped : popPending ancestor seen pending with
    | found =>
      rw [popped] at ended
      cases ended
    | drained =>
      rw [popped] at ended
      cases ended
    | fresh commit rest =>
      rw [popped] at ended popping
      obtain ⟨member, fresh, rests, _, _⟩ := popping
      have turn : (if present commit then ancestorWalk graph present ancestor room (commit :: seen)
          ((graph.parents commit).reverse ++ rest) else .unknown .shallowHistory) =
            .unknown kind := ended
      by_cases here : present commit = true
      · rw [if_pos here] at turn
        obtain ⟨front, distinct, inside, enough⟩ := ih turn
        refine ⟨commit :: front, List.nodup_cons.mpr ⟨?_, distinct⟩, ?_, ?_⟩
        · intro twice
          exact (inside commit twice).1 List.mem_cons_self
        · intro other member'
          rcases List.mem_cons.mp member' with rfl | behind
          · exact ⟨fresh, other, member, .refl⟩
          · obtain ⟨apart, start, pending, path⟩ := inside other behind
            refine ⟨fun known => apart (List.mem_cons_of_mem _ known), ?_⟩
            rcases List.mem_append.mp pending with parent | old
            · exact ⟨commit, member, .head (List.mem_reverse.mp parent) path⟩
            · exact ⟨start, rests start old, path⟩
        · rcases enough with many | ⟨other, behind, missing⟩
          · exact Or.inl (by simpa using many)
          · exact Or.inr ⟨other, List.mem_cons_of_mem _ behind, missing⟩
      · refine ⟨[commit], List.nodup_singleton _, ?_, Or.inr ⟨commit, by simp, by simpa using here⟩⟩
        intro other same
        rw [List.mem_singleton.mp same]
        exact ⟨fresh, commit, member, .refl⟩

end

section
variable (graph : CommitGraph) (present : GitObjectId → Bool) (maxCommits : Nat)

/-- What a relation says of two commits in the full history. -/
def CommitGraph.Holds : TemporalRelation → GitObjectId → GitObjectId → Prop
  | .same, left, right => left = right
  | .before, left, right => left ≠ right ∧ Reaches graph.parents right left
  | .after, left, right => left ≠ right ∧ Reaches graph.parents left right
  | .concurrent, left, right =>
    ¬ Reaches graph.parents right left ∧ ¬ Reaches graph.parents left right
  | .unknown, _, _ => True

/-- The walk from a descendant meets a commit over commits that are there, within the budget. -/
def Met (ancestor descendant : GitObjectId) : Prop :=
  ∃ visited, Walk graph.parents ancestor [] [descendant] visited true ∧
    visited.length ≤ maxCommits ∧ ∀ commit ∈ visited, present commit = true

/-- The whole history of a commit is there and within the budget. -/
def Available (commit : GitObjectId) : Prop :=
  (∀ ancestor, Reaches graph.parents commit ancestor → present ancestor = true) ∧
    {ancestor | Reaches graph.parents commit ancestor}.encard ≤ maxCommits

variable {graph present maxCommits}

/-- Commits that reach each other are one commit. -/
theorem CommitGraph.eq_of_reaches {left right : GitObjectId}
    (forth : Reaches graph.parents left right) (back : Reaches graph.parents right left) :
    left = right := by
  by_contra different
  have cycle : Relation.TransGen (fun commit parent => parent ∈ graph.parents commit) left left := by
    rcases Relation.reflTransGen_iff_eq_or_transGen.mp forth with same | proper
    · exact absurd same.symm different
    · exact proper.trans_left back
  have founded := graph.acyclic.transGen
  have turned : Relation.TransGen (fun parent commit => parent ∈ graph.parents commit) left left :=
    Relation.transGen_swap.mp cycle
  exact founded.irrefl.irrefl left turned

/-- `ancestor_of` finds a commit where the walk meets it. -/
theorem ancestorOf_found {ancestor descendant : GitObjectId} :
    ancestorOf graph present ancestor descendant maxCommits = .found ↔
      Met graph present maxCommits ancestor descendant :=
  ancestorWalk_found maxCommits [] [descendant]

/-- A met commit is an ancestor. -/
theorem Met.reaches {ancestor descendant : GitObjectId}
    (met : Met graph present maxCommits ancestor descendant) :
    Reaches graph.parents descendant ancestor := by
  obtain ⟨visited, walk, _⟩ := met
  obtain ⟨start, pending, path⟩ := walk.reaches rfl
  rw [List.mem_singleton.mp pending] at path
  exact path

/-- `ancestor_of` ends without the commit only over a whole history without it. -/
theorem ancestorOf_notFound {ancestor descendant : GitObjectId}
    (ended : ancestorOf graph present ancestor descendant maxCommits = .notFound) :
    Available graph present maxCommits descendant ∧ ¬ Reaches graph.parents descendant ancestor := by
  obtain ⟨visited, walk, short, there⟩ := ancestorWalk_notFound ended
  have history := walk.drained_visits
  refine ⟨⟨fun commit path => there commit ((history commit).mp path), ?_⟩, walk.drained_unreached⟩
  have listed : {commit | Reaches graph.parents descendant commit} = (visited.toFinset : Set _) := by
    ext commit
    simp [history commit]
  rw [listed, Set.encard_coe_eq_coe_finsetCard]
  exact_mod_cast (List.toFinset_card_le visited).trans short

/-- `ancestor_of` does not give up over a whole history. -/
theorem Available.known {descendant : GitObjectId}
    (available : Available graph present maxCommits descendant) (ancestor : GitObjectId)
    (kind : CoverageGapKind) :
    ancestorOf graph present ancestor descendant maxCommits ≠ .unknown kind := by
  intro ended
  obtain ⟨front, distinct, inside, enough⟩ := ancestorWalk_unknown ended
  have reached : ∀ commit ∈ front, Reaches graph.parents descendant commit := by
    intro commit member
    obtain ⟨_, start, pending, path⟩ := inside commit member
    rw [List.mem_singleton.mp pending] at path
    exact path
  rcases enough with many | ⟨commit, member, missing⟩
  · have below : (front.toFinset : Set GitObjectId) ⊆
        {commit | Reaches graph.parents descendant commit} := by
      intro commit member
      exact reached commit (by simpa using member)
    have counted := (Set.encard_le_encard below).trans available.2
    rw [Set.encard_coe_eq_coe_finsetCard, List.toFinset_card_of_nodup distinct] at counted
    have fits : front.length ≤ maxCommits := by exact_mod_cast counted
    omega
  · rw [available.1 commit (reached commit member)] at missing
    cases missing

/-- What `compare_commits` answers holds in the full history. -/
theorem comparison_holds (left right : GitObjectId) :
    graph.Holds (comparison graph present left right maxCommits).relation left right := by
  unfold comparison
  by_cases same : left = right
  · rw [if_pos same]
    exact same
  · rw [if_neg same]
    cases forth : ancestorOf graph present left right maxCommits with
    | found => exact ⟨same, (ancestorOf_found.mp forth).reaches⟩
    | unknown kind => trivial
    | notFound =>
      cases back : ancestorOf graph present right left maxCommits with
      | found => exact ⟨same, (ancestorOf_found.mp back).reaches⟩
      | unknown kind => trivial
      | notFound => exact ⟨(ancestorOf_notFound forth).2, (ancestorOf_notFound back).2⟩

/-- Comparing two commits both ways gives inverse answers, true in the full history, exactly where
a commit that the walk from the other meets has its own history there and within the budget. -/
theorem compareCommits_inverse_iff (graph : CommitGraph) (present : GitObjectId → Bool)
    (left right : GitObjectId) (maxCommits : Nat) :
    (∃ forth back, compareCommits (.ok ()) graph present left right maxCommits = .ok forth ∧
      compareCommits (.ok ()) graph present right left maxCommits = .ok back ∧
      forth.relation = back.relation.invert ∧ graph.Holds forth.relation left right ∧
      graph.Holds back.relation right left) ↔
    (left = right ∨ (Met graph present maxCommits left right →
        Available graph present maxCommits left) ∧
      (Met graph present maxCommits right left → Available graph present maxCommits right)) := by
  by_cases same : left = right
  · refine iff_of_true ?_ (Or.inl same)
    unfold compareCommits
    rw [if_pos same, if_pos same.symm]
    exact ⟨_, _, rfl, rfl, rfl, same, same.symm⟩
  · have opened : ∀ first second, first ≠ second →
        compareCommits (.ok ()) graph present first second maxCommits =
          .ok (comparison graph present first second maxCommits) := by
      intro first second different
      unfold compareCommits
      rw [if_neg different]
      rfl
    have law : (∃ forth back, compareCommits (.ok ()) graph present left right maxCommits = .ok forth ∧
        compareCommits (.ok ()) graph present right left maxCommits = .ok back ∧
        forth.relation = back.relation.invert ∧ graph.Holds forth.relation left right ∧
        graph.Holds back.relation right left) ↔
        (comparison graph present left right maxCommits).relation =
          (comparison graph present right left maxCommits).relation.invert := by
      rw [opened left right same, opened right left (Ne.symm same)]
      constructor
      · rintro ⟨forth, back, first, second, inverse, _⟩
        rw [Except.ok.inj first, Except.ok.inj second]
        exact inverse
      · intro inverse
        exact ⟨_, _, rfl, rfl, inverse, comparison_holds left right, comparison_holds right left⟩
    rw [law, or_iff_right same]
    have never : ¬ (Met graph present maxCommits left right ∧
        Met graph present maxCommits right left) := by
      intro both
      exact same (CommitGraph.eq_of_reaches both.2.reaches both.1.reaches)
    have other : right ≠ left := Ne.symm same
    unfold comparison
    rw [if_neg same, if_neg other]
    -- The two walks decide both answers; each pair of their results is a case.
    cases forth : ancestorOf graph present left right maxCommits with
    | found =>
      have met := ancestorOf_found.mp forth
      cases back : ancestorOf graph present right left maxCommits with
      | found => exact absurd ⟨met, ancestorOf_found.mp back⟩ never
      | unknown kind =>
        refine iff_of_false (by simp [TemporalRelation.invert]) ?_
        intro condition
        exact (condition.1 met).known right kind back
      | notFound =>
        refine iff_of_true rfl ⟨fun _ => (ancestorOf_notFound back).1, ?_⟩
        intro reverse
        exact absurd ⟨met, reverse⟩ never
    | unknown kind =>
      have unmet : ¬ Met graph present maxCommits left right := by
        rw [← ancestorOf_found, forth]
        exact AncestorResult.noConfusion
      cases back : ancestorOf graph present right left maxCommits with
      | found =>
        refine iff_of_false (by simp [TemporalRelation.invert]) ?_
        intro condition
        exact (condition.2 (ancestorOf_found.mp back)).known left kind forth
      | unknown kind' =>
        refine iff_of_true rfl ⟨fun met => absurd met unmet, ?_⟩
        rw [← ancestorOf_found, back]
        exact AncestorResult.noConfusion
      | notFound =>
        refine iff_of_true rfl ⟨fun met => absurd met unmet, ?_⟩
        rw [← ancestorOf_found, back]
        exact AncestorResult.noConfusion
    | notFound =>
      have unmet : ¬ Met graph present maxCommits left right := by
        rw [← ancestorOf_found, forth]
        exact AncestorResult.noConfusion
      have whole := (ancestorOf_notFound forth).1
      cases back : ancestorOf graph present right left maxCommits with
      | found => exact iff_of_true rfl ⟨fun met => absurd met unmet, fun _ => whole⟩
      | unknown kind => exact iff_of_true rfl ⟨fun met => absurd met unmet, fun _ => whole⟩
      | notFound => exact iff_of_true rfl ⟨fun met => absurd met unmet, fun _ => whole⟩

end

/-- A commit id of one repeated digit. -/
def chainCommit (digit : Char) : GitObjectId := ⟨.sha1, String.ofList (List.replicate 40 digit)⟩

/-- The place of a commit in the chain. -/
def chainPlace (commit : GitObjectId) : Nat :=
  if commit = chainCommit '2' then 2 else if commit = chainCommit '1' then 1 else 0

/-- A chain of three commits. -/
def chainGraph : CommitGraph where
  parents commit :=
    if commit = chainCommit '2' then [chainCommit '1']
    else if commit = chainCommit '1' then [chainCommit '0']
    else []
  acyclic := by
    refine Subrelation.wf ?_ (measure chainPlace).wf
    intro parent commit member
    show chainPlace parent < chainPlace commit
    by_cases last : commit = chainCommit '2'
    · rw [if_pos last] at member
      rw [List.mem_singleton.mp member, last]
      decide
    · rw [if_neg last] at member
      by_cases middle : commit = chainCommit '1'
      · rw [if_pos middle] at member
        rw [List.mem_singleton.mp member, middle]
        decide
      · rw [if_neg middle] at member
        cases member

/-- In a clone of depth two the second commit is known to come before the last, and the last is not
known to come after the second. -/
theorem shallow_comparison :
    compareCommits (.ok ()) chainGraph (fun commit => commit ≠ chainCommit '0') (chainCommit '1')
        (chainCommit '2') 100000 = .ok ⟨.before, none⟩ ∧
      compareCommits (.ok ()) chainGraph (fun commit => commit ≠ chainCommit '0') (chainCommit '2')
        (chainCommit '1') 100000 = .ok ⟨.unknown, some .shallowHistory⟩ := by
  refine ⟨?_, ?_⟩
  · rfl
  · rfl

end Texo.Git
