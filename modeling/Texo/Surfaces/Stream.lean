import Texo.Foundation.Paging

/-! # The event stream of a connection

One server-sent-events connection beside a journal that keeps growing. The connection reads
the frontier, replays from a resume cursor, subscribes to a lossy channel and then writes
notifications, or reads the journal itself after a quiet tick. Every query, every
notification and every append is a move of its own, so a run is any interleaving of them.
-/
namespace Texo.Surfaces
open Texo.Foundation

/-- Rows one query returns at most. -/
def streamPageLimit : Nat := 256

/-- What the connection does next. -/
inductive StreamPhase where
  /-- `visible_frontier`: scanning for the last visible sequence. -/
  | scanning (after : Option Nat)
  /-- `write_visible_since` before the subscription exists. -/
  | replaying
  /-- About to call `subscribe_lossy`. -/
  | subscribing
  /-- Waiting in `recv_timeout`. -/
  | live
  /-- `write_visible_since` on a quiet tick. -/
  | catchingUp
deriving DecidableEq, Repr

/-- One connection beside the workspace's sequences. -/
structure Connection where
  journal : List Nat
  resumeFrom : Option Nat
  phase : StreamPhase := .scanning none
  /-- The cursor the connection starts from. -/
  start : Nat := 0
  lastSequence : Nat := 0
  channel : List Nat := []
  /-- The event ids written so far. -/
  written : List Nat := []
deriving DecidableEq

/-- What may happen next. -/
inductive StreamMove where
  /-- The workspace grows; a subscribed connection is told unless the channel drops it. -/
  | append (sequence : Nat) (delivered : Bool)
  | query
  | subscribe
  | receive
  | timeout
deriving DecidableEq, Repr

/-- `query_entries_after`. -/
def Connection.page (connection : Connection) (after : Option Nat) : List Nat :=
  pageAfter id streamPageLimit connection.journal after

/-- Notifications reach the channel from the subscription on. -/
def Connection.subscribed (connection : Connection) : Bool :=
  connection.phase = .live || connection.phase = .catchingUp

/-- The start of the stream: a resume cursor behind the frontier, or the frontier. -/
def Connection.begin (connection : Connection) (frontier : Nat) : Connection :=
  let resumeFrom := connection.resumeFrom.filter fun cursor => cursor ≤ frontier
  { connection with
    phase := if resumeFrom.isSome then .replaying else .subscribing
    start := resumeFrom.getD frontier
    lastSequence := resumeFrom.getD frontier }

/-- One query of `write_visible_since`: write a page, or go on when it is empty. -/
def Connection.writeVisible (connection : Connection) (done : StreamPhase) : Connection :=
  match (connection.page (some connection.lastSequence)).getLast? with
  | none => { connection with phase := done }
  | some last =>
    { connection with
      lastSequence := last
      written := connection.written ++ connection.page (some connection.lastSequence) }

/-- One move of a connection; nothing when the move is not enabled. -/
def Connection.step (connection : Connection) : StreamMove → Option Connection
  | .append sequence delivered =>
    if 0 < sequence ∧ ∀ earlier ∈ connection.journal, earlier < sequence then
      some { connection with
        journal := connection.journal ++ [sequence]
        channel := if connection.subscribed && delivered then connection.channel ++ [sequence]
          else connection.channel }
    else
      none
  | .query =>
    match connection.phase with
    | .scanning after =>
      match (connection.page after).getLast? with
      | none => some (connection.begin (after.getD 0))
      | some last => some { connection with phase := .scanning (some last) }
    | .replaying => some (connection.writeVisible .subscribing)
    | .catchingUp => some (connection.writeVisible .live)
    | .subscribing => none
    | .live => none
  | .subscribe =>
    if connection.phase = .subscribing then
      some { connection with phase := .live, channel := [] }
    else
      none
  | .receive =>
    if connection.phase = .live then
      match connection.channel with
      | [] => none
      | sequence :: rest =>
        some { connection with
          channel := rest
          lastSequence := max connection.lastSequence sequence
          written := connection.written ++ [sequence] }
    else
      none
  | .timeout =>
    if connection.phase = .live ∧ connection.channel = [] then
      some { connection with phase := .catchingUp }
    else
      none

/-- A connection following a list of moves. -/
def Connection.run (connection : Connection) (moves : List StreamMove) : Option Connection :=
  moves.foldlM Connection.step connection

/-- What a client may rely on: ids increase, and no workspace event between the starting
cursor and the last id is missing. -/
structure Connection.Faithful (connection : Connection) : Prop where
  increasing : connection.written.Pairwise (· < ·)
  complete : ∀ sequence ∈ connection.journal, connection.start < sequence →
    (∃ last ∈ connection.written, sequence ≤ last) → sequence ∈ connection.written

/-- The head of the channel is the first workspace event after the cursor. -/
def Connection.HeadIsNext (connection : Connection) : Prop :=
  ∀ sequence ∈ connection.channel.head?, connection.lastSequence < sequence ∧
    ∀ event ∈ connection.journal, connection.lastSequence < event → sequence ≤ event

/-- What holds while every notification taken was the next event: exactly the events between
the starting cursor and the current one are written, and the channel is ahead of the start. -/
structure Connection.Aligned (connection : Connection) : Prop where
  ordered : Ordered id connection.journal
  scanned : ∀ after, connection.phase = .scanning after →
    connection.start = 0 ∧ connection.lastSequence = 0 ∧
      ∀ cursor ∈ after, cursor ∈ connection.journal
  increasing : connection.written.Pairwise (· < ·)
  written : ∀ sequence, sequence ∈ connection.written ↔ sequence ∈ connection.journal ∧
    connection.start < sequence ∧ sequence ≤ connection.lastSequence
  behind : connection.lastSequence = 0 ∨
    ∃ event ∈ connection.journal, connection.lastSequence ≤ event
  started : connection.start ≤ connection.lastSequence
  silent : connection.subscribed = false → connection.channel = []
  ahead : ∀ sequence ∈ connection.channel, sequence ∈ connection.journal ∧
    connection.start < sequence

/-- An aligned connection has kept its promise. -/
theorem Connection.Aligned.faithful {connection : Connection} (aligned : connection.Aligned) :
    connection.Faithful where
  increasing := aligned.increasing
  complete := by
    intro sequence member after ⟨last, wrote, below⟩
    have bound := ((aligned.written last).mp wrote).2.2
    exact (aligned.written sequence).mpr ⟨member, after, by omega⟩

/-- A new connection is aligned. -/
theorem Connection.Aligned.opened {journal : List Nat} (ordered : Ordered id journal)
    (resumeFrom : Option Nat) : ({ journal, resumeFrom } : Connection).Aligned where
  ordered := ordered
  scanned := by
    intro after same
    cases same
    exact ⟨rfl, rfl, fun _ none => by cases none⟩
  increasing := List.Pairwise.nil
  written := by
    intro sequence
    simp only [List.not_mem_nil, false_iff, not_and]
    intro _ positive bound
    have nothing : sequence ≤ 0 := bound
    have something : 0 < sequence := positive
    omega
  behind := Or.inl rfl
  started := Nat.le_refl 0
  silent := fun _ => rfl
  ahead := by
    intro sequence member
    cases member

/-- An append leaves a connection aligned: the new event is past its cursor. -/
theorem Connection.Aligned.append {connection next : Connection} {sequence : Nat}
    {delivered : Bool} (aligned : connection.Aligned)
    (moved : connection.step (.append sequence delivered) = some next) : next.Aligned := by
  simp only [Connection.step, Option.ite_none_right_eq_some, Option.some.injEq] at moved
  obtain ⟨⟨positive, grown⟩, rfl⟩ := moved
  have past : connection.lastSequence < sequence := by
    rcases aligned.behind with zero | ⟨event, member, bound⟩
    · omega
    · have below := grown event member
      omega
  constructor
  · show Ordered id (connection.journal ++ [sequence])
    apply List.pairwise_append.mpr
    refine ⟨aligned.ordered, List.pairwise_singleton _ _, ?_⟩
    intro earlier member last same
    rw [List.mem_singleton.mp same]
    exact grown earlier member
  · intro after scanning
    obtain ⟨start, last, members⟩ := aligned.scanned after scanning
    exact ⟨start, last, fun cursor there => List.mem_append_left _ (members cursor there)⟩
  · exact aligned.increasing
  · intro event
    rw [aligned.written event]
    constructor
    · intro ⟨member, after, bound⟩
      exact ⟨List.mem_append_left _ member, after, bound⟩
    · intro ⟨member, after, bound⟩
      rcases List.mem_append.mp member with there | last
      · exact ⟨there, after, bound⟩
      · have same : event = sequence := List.mem_singleton.mp last
        have beyond : event ≤ connection.lastSequence := bound
        omega
  · rcases aligned.behind with zero | ⟨event, member, bound⟩
    · exact Or.inl zero
    · exact Or.inr ⟨event, List.mem_append_left _ member, bound⟩
  · exact aligned.started
  · intro unsubscribed
    have quiet : connection.subscribed = false := unsubscribed
    show (if (connection.subscribed && delivered) = true then connection.channel ++ [sequence]
      else connection.channel) = []
    rw [quiet, Bool.false_and, if_neg (by decide)]
    exact aligned.silent quiet
  · intro event member
    have told : event ∈ connection.channel ∨ event = sequence := by
      have inside : event ∈ (if (connection.subscribed && delivered) = true then
        connection.channel ++ [sequence] else connection.channel) := member
      split at inside
      · simpa using inside
      · exact Or.inl inside
    rcases told with before | new
    · obtain ⟨there, after⟩ := aligned.ahead event before
      exact ⟨List.mem_append_left _ there, after⟩
    · have started := aligned.started
      rw [new]
      refine ⟨by simp, ?_⟩
      show connection.start < sequence
      omega

/-- Starting the stream at the frontier just scanned leaves the connection aligned. -/
theorem Connection.Aligned.begins {connection : Connection} {after : Option Nat}
    (aligned : connection.Aligned) (scanning : connection.phase = .scanning after) :
    (connection.begin (after.getD 0)).Aligned := by
  obtain ⟨start, last, members⟩ := aligned.scanned after scanning
  have quiet : connection.subscribed = false := by
    rw [Connection.subscribed, scanning]
    rfl
  have nothing : connection.written = [] := by
    rw [List.eq_nil_iff_forall_not_mem]
    intro sequence member
    have bounds := ((aligned.written sequence).mp member).2
    omega
  have cursor : (connection.resumeFrom.filter fun cursor => cursor ≤ after.getD 0).getD
      (after.getD 0) ≤ after.getD 0 := by
    cases resumed : connection.resumeFrom.filter fun cursor => cursor ≤ after.getD 0 with
    | none => exact Nat.le_refl _
    | some value => simpa using (Option.filter_eq_some_iff.mp resumed).2
  have frontier : after.getD 0 = 0 ∨ after.getD 0 ∈ connection.journal := by
    cases after with
    | none => exact Or.inl rfl
    | some value => exact Or.inr (members value rfl)
  constructor
  · exact aligned.ordered
  · intro other same
    have phase : (connection.begin (after.getD 0)).phase ≠ .scanning other := by
      simp only [Connection.begin]
      split
      · intro contra
        cases contra
      · intro contra
        cases contra
    exact absurd same phase
  · exact aligned.increasing
  · intro sequence
    show sequence ∈ connection.written ↔ _
    rw [nothing]
    simp only [List.not_mem_nil, false_iff, not_and]
    intro _ beyond within
    have equal : (connection.begin (after.getD 0)).start =
        (connection.begin (after.getD 0)).lastSequence := rfl
    omega
  · show (connection.begin (after.getD 0)).lastSequence = 0 ∨ _
    have same : (connection.begin (after.getD 0)).lastSequence =
        (connection.resumeFrom.filter fun cursor => cursor ≤ after.getD 0).getD (after.getD 0) := rfl
    rcases frontier with zero | member
    · left
      omega
    · right
      exact ⟨_, member, by omega⟩
  · exact Nat.le_refl _
  · intro _
    exact aligned.silent quiet
  · intro sequence member
    have inside : sequence ∈ connection.channel := member
    rw [aligned.silent quiet] at inside
    cases inside

/-- A page holds exactly the events between the cursor and the page's last event, in order. -/
theorem Connection.page_spec {connection : Connection} (ordered : Ordered id connection.journal)
    {cursor last : Nat} (final : (connection.page (some cursor)).getLast? = some last) :
    (connection.page (some cursor)).Pairwise (· < ·) ∧ cursor < last ∧ last ∈ connection.journal ∧
      ∀ sequence, sequence ∈ connection.page (some cursor) ↔
        sequence ∈ connection.journal ∧ cursor < sequence ∧ sequence ≤ last := by
  have rows : (rowsAfter id (some cursor) connection.journal).Pairwise (· < ·) :=
    Ordered.filter ordered _
  have split := List.take_append_drop streamPageLimit (rowsAfter id (some cursor) connection.journal)
  rw [← split, List.pairwise_append] at rows
  obtain ⟨front, _, apart⟩ := rows
  have lastInside : last ∈ connection.page (some cursor) := List.mem_of_getLast? final
  have lastRow := mem_rowsAfter_some.mp (List.mem_of_mem_take lastInside)
  refine ⟨front, lastRow.2, lastRow.1, fun sequence => ⟨?_, ?_⟩⟩
  · intro member
    obtain ⟨inside, after⟩ := mem_rowsAfter_some.mp (List.mem_of_mem_take member)
    have sorted : Ordered id (connection.page (some cursor)) := front
    exact ⟨inside, after, sorted.le_getLast final member⟩
  · intro ⟨inside, after, bound⟩
    have row : sequence ∈ rowsAfter id (some cursor) connection.journal :=
      mem_rowsAfter_some.mpr ⟨inside, after⟩
    rw [← split] at row
    rcases List.mem_append.mp row with here | later
    · exact here
    · have beyond := apart last lastInside sequence later
      omega

/-- Writing one page of the events after the cursor leaves the connection aligned. -/
theorem Connection.Aligned.writes {connection : Connection} {done : StreamPhase}
    (aligned : connection.Aligned) (stage : connection.phase = .replaying ∧ done = .subscribing ∨
      connection.phase = .catchingUp ∧ done = .live) :
    (connection.writeVisible done).Aligned := by
  unfold Connection.writeVisible
  cases found : (connection.page (some connection.lastSequence)).getLast? with
  | none =>
    constructor
    · exact aligned.ordered
    · intro after same
      have scanning : done = .scanning after := same
      rcases stage with ⟨_, next⟩ | ⟨_, next⟩
      · rw [next] at scanning
        cases scanning
      · rw [next] at scanning
        cases scanning
    · exact aligned.increasing
    · exact aligned.written
    · exact aligned.behind
    · exact aligned.started
    · intro unsubscribed
      rcases stage with ⟨before, _⟩ | ⟨_, next⟩
      · apply aligned.silent
        rw [Connection.subscribed, before]
        rfl
      · exact absurd unsubscribed (by simp [Connection.subscribed, next])
    · exact aligned.ahead
  | some last =>
    obtain ⟨sorted, past, member, events⟩ := Connection.page_spec aligned.ordered found
    constructor
    · exact aligned.ordered
    · intro after same
      have scanning : connection.phase = .scanning after := same
      rcases stage with ⟨before, _⟩ | ⟨before, _⟩
      · rw [before] at scanning
        cases scanning
      · rw [before] at scanning
        cases scanning
    · apply List.pairwise_append.mpr
      refine ⟨aligned.increasing, sorted, ?_⟩
      intro earlier wrote later inside
      have low := ((aligned.written earlier).mp wrote).2.2
      have high := ((events later).mp inside).2.1
      omega
    · intro sequence
      show sequence ∈ connection.written ++ connection.page (some connection.lastSequence) ↔
        sequence ∈ connection.journal ∧ connection.start < sequence ∧ sequence ≤ last
      rw [List.mem_append, aligned.written sequence, events sequence]
      have started := aligned.started
      constructor
      · rintro (⟨inside, after, bound⟩ | ⟨inside, after, bound⟩)
        · exact ⟨inside, after, by omega⟩
        · exact ⟨inside, by omega, bound⟩
      · intro ⟨inside, after, bound⟩
        by_cases before : sequence ≤ connection.lastSequence
        · exact Or.inl ⟨inside, after, before⟩
        · exact Or.inr ⟨inside, by omega, bound⟩
    · exact Or.inr ⟨last, member, Nat.le_refl _⟩
    · have started := aligned.started
      show connection.start ≤ last
      omega
    · intro unsubscribed
      exact aligned.silent unsubscribed
    · exact aligned.ahead

/-- Every move but a notification leaves a connection aligned. -/
theorem Connection.Aligned.moves {connection next : Connection} {move : StreamMove}
    (aligned : connection.Aligned) (quiet : move ≠ .receive)
    (moved : connection.step move = some next) : next.Aligned := by
  cases move with
  | append sequence delivered => exact aligned.append moved
  | query =>
    cases phase : connection.phase with
    | scanning after =>
      simp only [Connection.step, phase] at moved
      cases found : (connection.page after).getLast? with
      | none =>
        simp only [found, Option.some.injEq] at moved
        exact moved ▸ aligned.begins phase
      | some last =>
        simp only [found, Option.some.injEq] at moved
        subst moved
        have member : last ∈ connection.journal := by
          have inside : last ∈ rowsAfter id after connection.journal :=
            List.mem_of_mem_take (List.mem_of_getLast? found)
          exact List.mem_of_mem_filter inside
        obtain ⟨start, cursor, _⟩ := aligned.scanned after phase
        have silent : connection.subscribed = false := by
          rw [Connection.subscribed, phase]
          rfl
        exact
          { aligned with
            scanned := by
              intro other same
              cases same
              refine ⟨start, cursor, fun value here => ?_⟩
              rw [← Option.some.inj here]
              exact member
            silent := fun _ => aligned.silent silent }
    | replaying =>
      simp only [Connection.step, phase, Option.some.injEq] at moved
      exact moved ▸ aligned.writes (Or.inl ⟨phase, rfl⟩)
    | catchingUp =>
      simp only [Connection.step, phase, Option.some.injEq] at moved
      exact moved ▸ aligned.writes (Or.inr ⟨phase, rfl⟩)
    | subscribing => simp [Connection.step, phase] at moved
    | live => simp [Connection.step, phase] at moved
  | subscribe =>
    simp only [Connection.step, Option.ite_none_right_eq_some, Option.some.injEq] at moved
    obtain ⟨_, rfl⟩ := moved
    exact
      { aligned with
        scanned := fun _ same => by cases same
        silent := fun _ => rfl
        ahead := fun _ member => by cases member }
  | receive => exact absurd rfl quiet
  | timeout =>
    simp only [Connection.step, Option.ite_none_right_eq_some, Option.some.injEq] at moved
    obtain ⟨⟨_, empty⟩, rfl⟩ := moved
    exact
      { aligned with
        scanned := fun _ same => by cases same
        silent := fun _ => empty }

/-- What a notification does. -/
theorem Connection.step_receive {connection next : Connection}
    (moved : connection.step .receive = some next) :
    connection.phase = .live ∧ ∃ sequence rest, connection.channel = sequence :: rest ∧
      next = { connection with
        channel := rest
        lastSequence := max connection.lastSequence sequence
        written := connection.written ++ [sequence] } := by
  simp only [Connection.step] at moved
  split at moved
  · rename_i live
    cases channel : connection.channel with
    | nil => simp [channel] at moved
    | cons sequence rest =>
      simp only [channel, Option.some.injEq] at moved
      exact ⟨live, sequence, rest, rfl, moved.symm⟩
  · cases moved

/-- A notification that is the next event leaves the connection aligned. -/
theorem Connection.Aligned.receives {connection next : Connection} (aligned : connection.Aligned)
    (headed : connection.HeadIsNext) (moved : connection.step .receive = some next) :
    next.Aligned := by
  obtain ⟨live, sequence, rest, channel, rfl⟩ := Connection.step_receive moved
  obtain ⟨past, nearest⟩ := headed sequence (by rw [channel]; rfl)
  obtain ⟨inside, _⟩ := aligned.ahead sequence (by simp [channel])
  have cursor : max connection.lastSequence sequence = sequence := by omega
  have started := aligned.started
  constructor
  · exact aligned.ordered
  · intro after same
    have scanning : connection.phase = .scanning after := same
    rw [live] at scanning
    cases scanning
  · apply List.pairwise_append.mpr
    refine ⟨aligned.increasing, List.pairwise_singleton _ _, ?_⟩
    intro earlier wrote later last
    have low := ((aligned.written earlier).mp wrote).2.2
    have same : later = sequence := List.mem_singleton.mp last
    omega
  · intro event
    show event ∈ connection.written ++ [sequence] ↔ event ∈ connection.journal ∧
      connection.start < event ∧ event ≤ max connection.lastSequence sequence
    rw [List.mem_append, aligned.written event, List.mem_singleton, cursor]
    constructor
    · rintro (⟨member, after, bound⟩ | rfl)
      · exact ⟨member, after, by omega⟩
      · exact ⟨inside, by omega, Nat.le_refl _⟩
    · intro ⟨member, after, bound⟩
      by_cases before : event ≤ connection.lastSequence
      · exact Or.inl ⟨member, after, before⟩
      · have near := nearest event member (by omega)
        exact Or.inr (by omega)
  · exact Or.inr ⟨sequence, inside, by show max connection.lastSequence sequence ≤ sequence; omega⟩
  · show connection.start ≤ max connection.lastSequence sequence
    omega
  · intro unsubscribed
    have silent := aligned.silent unsubscribed
    rw [channel] at silent
    cases silent
  · intro event member
    exact aligned.ahead event (by rw [channel]; exact List.mem_cons_of_mem _ member)

/-- A notification that is not the next event breaks the promise. -/
theorem Connection.Aligned.breaks {connection next : Connection} (aligned : connection.Aligned)
    (headed : ¬ connection.HeadIsNext) (moved : connection.step .receive = some next) :
    ¬ next.Faithful := by
  obtain ⟨_, sequence, rest, channel, rfl⟩ := Connection.step_receive moved
  intro faithful
  obtain ⟨inside, after⟩ := aligned.ahead sequence (by simp [channel])
  apply headed
  intro head first
  have same : sequence = head := by
    rw [channel] at first
    exact Option.some.inj first
  rw [← same]
  constructor
  · by_contra behind
    -- An event at or before the cursor is written already, so its id comes twice.
    have wrote : sequence ∈ connection.written :=
      (aligned.written sequence).mpr ⟨inside, after, by omega⟩
    have apart := (List.pairwise_append.mp faithful.increasing).2.2
    have twice := apart sequence wrote sequence (by simp)
    omega
  · intro event member past
    by_contra skipped
    -- An event between the cursor and the notification is passed over.
    have started := aligned.started
    have covered := faithful.complete event member (by show connection.start < event; omega)
      ⟨sequence, by simp, by omega⟩
    rcases List.mem_append.mp covered with wrote | last
    · have bound := ((aligned.written event).mp wrote).2.2
      omega
    · have equal : event = sequence := List.mem_singleton.mp last
      omega

/-- The stream of a run keeps its promise in every state exactly when every notification it
takes is the first workspace event after its cursor. -/
theorem Connection.Aligned.run_iff {connection : Connection} (aligned : connection.Aligned)
    (moves : List StreamMove) :
    (∀ earlier later state, moves = earlier ++ later → connection.run earlier = some state →
      state.Faithful) ↔
    (∀ earlier later state next, moves = earlier ++ .receive :: later →
      connection.run earlier = some state → state.step .receive = some next →
        state.HeadIsNext) := by
  induction moves generalizing connection with
  | nil =>
    constructor
    · intro _ earlier later state next split
      simp at split
    · intro _ earlier later state split ran
      have nothing : earlier = [] := (List.append_eq_nil_iff.mp split.symm).1
      rw [nothing] at ran
      have same : connection = state := Option.some.inj ran
      exact same ▸ aligned.faithful
  | cons move rest ih =>
    constructor
    · intro faithful earlier later state next split ran moved
      cases earlier with
      | nil =>
        have heads : move = .receive := (List.cons.inj split).1
        have same : connection = state := Option.some.inj ran
        rw [← same] at moved ⊢
        by_contra unheaded
        apply aligned.breaks unheaded moved
        apply faithful [move] rest next rfl
        rw [heads]
        simp [Connection.run, moved]
      | cons first earlier =>
        obtain ⟨rfl, tail⟩ := List.cons.inj split
        rw [Connection.run, List.foldlM_cons] at ran
        cases stepped : connection.step move with
        | none => simp [stepped] at ran
        | some after =>
          rw [stepped] at ran
          have still : after.Aligned := by
            by_cases quiet : move = .receive
            · subst quiet
              have headed : connection.HeadIsNext := by
                by_contra unheaded
                apply aligned.breaks unheaded stepped
                apply faithful [.receive] rest after rfl
                simp [Connection.run, stepped]
              exact aligned.receives headed stepped
            · exact aligned.moves quiet stepped
          have shorter : ∀ earlier later state, rest = earlier ++ later →
              after.run earlier = some state → state.Faithful := by
            intro before beyond reached parts reaches
            apply faithful (move :: before) beyond reached (by rw [parts]; rfl)
            rw [Connection.run, List.foldlM_cons, stepped]
            exact reaches
          exact (ih still).mp shorter earlier later state next tail ran moved
    · intro headed earlier later state split ran
      cases earlier with
      | nil =>
        have same : connection = state := Option.some.inj ran
        exact same ▸ aligned.faithful
      | cons first earlier =>
        obtain ⟨rfl, tail⟩ := List.cons.inj split
        rw [Connection.run, List.foldlM_cons] at ran
        cases stepped : connection.step move with
        | none => simp [stepped] at ran
        | some after =>
          rw [stepped] at ran
          have still : after.Aligned := by
            by_cases quiet : move = .receive
            · subst quiet
              exact aligned.receives (headed [] rest connection after rfl rfl stepped) stepped
            · exact aligned.moves quiet stepped
          apply (ih still).mpr _ earlier later state tail ran
          intro before beyond reached next parts reaches moved
          apply headed (move :: before) beyond reached next (by rw [parts]; rfl) _ moved
          rw [Connection.run, List.foldlM_cons, stepped]
          exact reaches

/-- Every run of one connection, from any journal and resume cursor, keeps its promise in every
state exactly when every notification it takes is the first workspace event after its cursor. -/
theorem stream_faithful_iff {journal : List Nat} (ordered : Ordered id journal)
    (resumeFrom : Option Nat) (moves : List StreamMove) :
    (∀ earlier later state, moves = earlier ++ later →
      ({ journal, resumeFrom } : Connection).run earlier = some state → state.Faithful) ↔
    (∀ earlier later state next, moves = earlier ++ .receive :: later →
      ({ journal, resumeFrom } : Connection).run earlier = some state →
        state.step .receive = some next → state.HeadIsNext) :=
  (Connection.Aligned.opened ordered resumeFrom).run_iff moves

/-- A run that writes one notification, the next event. -/
theorem stream_faithful_iff_one_event :
    (∀ earlier later state, [.query, .query, .subscribe, .append 2 true, .receive] =
        earlier ++ later →
      ({ journal := [1], resumeFrom := none } : Connection).run earlier = some state →
        state.Faithful) ↔
    (∀ earlier later state next, [.query, .query, .subscribe, .append 2 true, .receive] =
        earlier ++ .receive :: later →
      ({ journal := [1], resumeFrom := none } : Connection).run earlier = some state →
        state.step .receive = some next → state.HeadIsNext) :=
  stream_faithful_iff (List.pairwise_singleton _ _) none _

/-- An event appended between the frontier read and the subscription is never written, though
the next one is; and one appended after a quiet tick is written twice, by the journal read
and by its own notification. -/
theorem stream_skips_and_repeats :
    (∃ state, ({ journal := [1], resumeFrom := none } : Connection).run
        [.query, .query, .append 2 true, .subscribe, .append 3 true, .receive] = some state ∧
      state.written = [3] ∧ 2 ∈ state.journal ∧ ¬ state.Faithful) ∧
    ∃ state, ({ journal := [1], resumeFrom := none } : Connection).run
        [.query, .query, .subscribe, .timeout, .append 2 true, .query, .query, .receive] =
          some state ∧
      state.written = [2, 2] ∧ ¬ state.Faithful := by
  constructor
  · refine ⟨_, rfl, by decide, by decide, fun faithful => ?_⟩
    have skipped := faithful.complete 2 (by decide) (by decide) ⟨3, by decide, by decide⟩
    exact absurd skipped (by decide)
  · refine ⟨_, rfl, by decide, fun faithful => ?_⟩
    exact absurd faithful.increasing (by decide)

end Texo.Surfaces
