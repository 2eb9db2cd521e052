import Mathlib.Data.List.Basic
import Mathlib.Data.List.Perm.Basic

/-! # A bounded worker pool

Jobs go through a bounded channel to a fixed number of workers, which send each result to
one collector. Any enabled move may happen next, so a schedule is a list of moves. No
schedule loses or repeats a job, and every schedule can be completed.
-/
namespace Texo.Foundation

variable {Job Result : Type}

/-- Where each job stands: not yet sent, in the channel, held by a worker, or answered. -/
structure Pool (Job Result : Type) where
  waiting : List Job
  queue : List Job := []
  busy : List Job := []
  results : List (Job × Result) := []

/-- What may happen next: the sender sends, an idle worker takes a job, or one of the busy
workers finishes. -/
inductive PoolMove where
  | send
  | take
  | finish (worker : Nat)
deriving DecidableEq, Repr

/-- One move of a pool whose channel holds at most as many jobs as there are workers; nothing
when the move is not enabled. -/
def Pool.step (work : Job → Result) (workers : Nat) (pool : Pool Job Result) :
    PoolMove → Option (Pool Job Result)
  | .send =>
    match pool.waiting with
    | [] => none
    | job :: rest =>
      if pool.queue.length < workers then
        some { pool with waiting := rest, queue := pool.queue ++ [job] }
      else
        none
  | .take =>
    match pool.queue with
    | [] => none
    | job :: rest =>
      if pool.busy.length < workers then
        some { pool with queue := rest, busy := pool.busy ++ [job] }
      else
        none
  | .finish worker =>
    match pool.busy[worker]? with
    | none => none
    | some job =>
      some { pool with
        busy := pool.busy.eraseIdx worker
        results := pool.results ++ [(job, work job)] }

/-- A pool following a schedule. -/
def Pool.run (work : Job → Result) (workers : Nat) (pool : Pool Job Result)
    (schedule : List PoolMove) : Option (Pool Job Result) :=
  schedule.foldlM (Pool.step work workers) pool

/-- Every job is answered and every worker has gone. -/
def Pool.finished (pool : Pool Job Result) : Bool :=
  pool.waiting.isEmpty && pool.queue.isEmpty && pool.busy.isEmpty

/-- No job is lost or repeated, and every answer is the work's own. -/
structure Pool.Conserves (work : Job → Result) (jobs : List Job) (pool : Pool Job Result) :
    Prop where
  jobs : (pool.results.map Prod.fst ++ (pool.busy ++ (pool.queue ++ pool.waiting))).Perm jobs
  answers : ∀ row ∈ pool.results, row.2 = work row.1

/-- How many moves a pool still has to make. -/
def Pool.remaining (pool : Pool Job Result) : Nat :=
  3 * pool.waiting.length + 2 * pool.queue.length + pool.busy.length

/-- One move conserves the jobs. -/
theorem Pool.Conserves.step {work : Job → Result} {workers : Nat} {jobs : List Job}
    {pool next : Pool Job Result} {move : PoolMove} (conserved : pool.Conserves work jobs)
    (moved : pool.step work workers move = some next) : next.Conserves work jobs := by
  obtain ⟨held, answers⟩ := conserved
  cases move with
  | send =>
    cases found : pool.waiting with
    | nil => simp [Pool.step, found] at moved
    | cons job rest =>
      simp only [Pool.step, found, Option.ite_none_right_eq_some, Option.some.injEq] at moved
      obtain ⟨_, rfl⟩ := moved
      constructor
      · rw [found] at held
        simpa using held
      · exact answers
  | take =>
    cases found : pool.queue with
    | nil => simp [Pool.step, found] at moved
    | cons job rest =>
      simp only [Pool.step, found, Option.ite_none_right_eq_some, Option.some.injEq] at moved
      obtain ⟨_, rfl⟩ := moved
      constructor
      · rw [found] at held
        simpa using held
      · exact answers
  | finish worker =>
    cases found : pool.busy[worker]? with
    | none => simp [Pool.step, found] at moved
    | some job =>
      simp only [Pool.step, found, Option.some.injEq] at moved
      subst moved
      obtain ⟨inside, here⟩ := List.getElem?_eq_some_iff.mp found
      constructor
      · have split : (job :: pool.busy.eraseIdx worker).Perm pool.busy := by
          rw [← here]
          exact List.getElem_cons_eraseIdx_perm inside
        have moved : (job :: (pool.busy.eraseIdx worker ++ (pool.queue ++ pool.waiting))).Perm
            (pool.busy ++ (pool.queue ++ pool.waiting)) := split.append_right _
        simp only [List.map_append, List.map_cons, List.map_nil, List.append_assoc,
          List.cons_append, List.nil_append]
        exact (moved.append_left _).trans held
      · intro row member
        rcases List.mem_append.mp member with before | last
        · exact answers row before
        · have same : row = (job, work job) := by simpa using last
          rw [same]

/-- A whole schedule conserves the jobs. -/
theorem Pool.Conserves.run {work : Job → Result} {workers : Nat} {jobs : List Job}
    {pool final : Pool Job Result} {schedule : List PoolMove}
    (conserved : pool.Conserves work jobs)
    (ran : pool.run work workers schedule = some final) : final.Conserves work jobs := by
  induction schedule generalizing pool with
  | nil =>
    have same : pool = final := by simpa [Pool.run] using ran
    exact same ▸ conserved
  | cons move rest ih =>
    unfold Pool.run at ran
    rw [List.foldlM_cons] at ran
    cases moved : pool.step work workers move with
    | none => simp [moved] at ran
    | some next =>
      rw [moved] at ran
      exact ih (conserved.step moved) ran

/-- A new pool holds its jobs. -/
theorem Pool.Conserves.start (work : Job → Result) (jobs : List Job) :
    ({ waiting := jobs } : Pool Job Result).Conserves work jobs where
  jobs := by simp
  answers := by simp

/-- What the collector of a finished pool holds: each job once, with its own answer. -/
theorem Pool.results_of_finished {work : Job → Result} {workers : Nat} {jobs : List Job}
    {final : Pool Job Result} {schedule : List PoolMove}
    (ran : ({ waiting := jobs } : Pool Job Result).run work workers schedule = some final)
    (finished : final.finished = true) :
    (final.results.map Prod.fst).Perm jobs ∧ ∀ row ∈ final.results, row.2 = work row.1 := by
  have conserved := (Pool.Conserves.start work jobs).run ran
  have nothing : (final.waiting = [] ∧ final.queue = []) ∧ final.busy = [] := by
    simpa [Pool.finished] using finished
  have held := conserved.jobs
  rw [nothing.1.1, nothing.1.2, nothing.2] at held
  exact ⟨by simpa using held, conserved.answers⟩

/-- An unfinished pool can move, and every such move leaves less to do. -/
theorem Pool.exists_step (work : Job → Result) {workers : Nat} (staffed : 0 < workers)
    {pool : Pool Job Result} (unfinished : pool.finished = false) :
    ∃ move next, pool.step work workers move = some next ∧
      next.remaining < pool.remaining := by
  cases busy : pool.busy with
  | cons job rest =>
    refine ⟨.finish 0, { pool with busy := rest, results := pool.results ++ [(job, work job)] },
      ?_, ?_⟩
    · simp [Pool.step, busy]
    · simp only [Pool.remaining, busy, List.length_cons]
      omega
  | nil =>
    cases queued : pool.queue with
    | cons job rest =>
      refine ⟨.take, { pool with queue := rest, busy := [job] }, ?_, ?_⟩
      · simp [Pool.step, busy, queued, staffed]
      · simp only [Pool.remaining, busy, queued, List.length_cons, List.length_nil]
        omega
    | nil =>
      cases waiting : pool.waiting with
      | cons job rest =>
        refine ⟨.send, { pool with waiting := rest, queue := [job] }, ?_, ?_⟩
        · simp [Pool.step, queued, waiting, staffed]
        · simp only [Pool.remaining, busy, queued, waiting, List.length_cons, List.length_nil]
          omega
      | nil => simp [Pool.finished, busy, queued, waiting] at unfinished

/-- Every pool can be driven to its end, however it got where it is. -/
theorem Pool.exists_run (work : Job → Result) {workers : Nat} (staffed : 0 < workers)
    (pool : Pool Job Result) :
    ∃ schedule final, pool.run work workers schedule = some final ∧
      final.finished = true := by
  generalize bound : pool.remaining = size
  induction size using Nat.strongRecOn generalizing pool with
  | _ size ih =>
    by_cases finished : pool.finished = true
    · exact ⟨[], pool, rfl, finished⟩
    · rw [Bool.not_eq_true] at finished
      obtain ⟨move, next, moved, less⟩ := Pool.exists_step work staffed finished
      have smaller : next.remaining < size := by omega
      obtain ⟨schedule, final, ran, done⟩ := ih next.remaining smaller next rfl
      refine ⟨move :: schedule, final, ?_, done⟩
      unfold Pool.run at ran ⊢
      rw [List.foldlM_cons, moved]
      exact ran

end Texo.Foundation
