import Mathlib.Data.List.Chain
import Mathlib.Data.List.Perm.Basic
import Mathlib.Data.List.Nodup
import Mathlib.Data.List.Induction

/-! # Contests decided one challenger at a time

Entrants come in some order, and the first is champion. A newer challenger takes over and an older
one is turned down; a challenger that is neither leaves the contest disputed, and a tiebreak picks
the champion. What becomes of the order in which they come is settled exactly: when every order
names the same champion, and disputes the contest just where no entrant is newer than all others.
-/
namespace Texo.Foundation

/-- How entrants compare: which of two is newer, and which one a tiebreak prefers. -/
structure Rivalry (α : Type) where
  /-- The second entrant is newer than the first. -/
  newer : α → α → Bool
  /-- The tiebreak prefers the second entrant. -/
  later : α → α → Bool
  asymmetric : ∀ a b, newer a b = true → newer b a = false
  total : ∀ a b, a ≠ b → later a b = !later b a

namespace Rivalry
variable {α : Type} (rivalry : Rivalry α)

/-- The champion meets a challenger; what was disputed stays so. -/
def bout (state : α × Bool) (challenger : α) : α × Bool :=
  if rivalry.newer state.1 challenger then (challenger, state.2)
  else if rivalry.newer challenger state.1 then state
  else (if rivalry.later state.1 challenger then challenger else state.1, true)

/-- The champion after all have come, and whether the contest is disputed. -/
def contest : List α → Option (α × Bool)
  | [] => none
  | first :: rest => some (rest.foldl rivalry.bout (first, false))

/-- One more entrant: the first is champion, a later one meets the champion. -/
def enter : Option (α × Bool) → α → α × Bool
  | none, challenger => (challenger, false)
  | some state, challenger => rivalry.bout state challenger

/-- The last entrant comes after the contest of the others. -/
theorem contest_append (earlier : List α) (challenger : α) :
    rivalry.contest (earlier ++ [challenger]) =
      some (rivalry.enter (rivalry.contest earlier) challenger) := by
  cases earlier with
  | nil => rfl
  | cons first rest => simp [contest, enter, List.foldl_append]

/-- One entrant wins against another: it is newer, or neither is and the tiebreak prefers it. -/
def Prevails (winner other : α) : Prop :=
  rivalry.newer other winner = true ∨
    (rivalry.newer winner other = false ∧ rivalry.later other winner = true)

/-- An entrant newer than every other one. -/
def Newest (entrants : List α) (top : α) : Prop :=
  top ∈ entrants ∧ ∀ other ∈ entrants, other ≠ top → rivalry.newer other top = true

/-- One of two entrants is newer than the other. -/
def Comparable (entrants : List α) : Prop :=
  ∀ a ∈ entrants, ∀ b ∈ entrants, a ≠ b → rivalry.newer a b = true ∨ rivalry.newer b a = true

/-- Ever newer entrants such that each entrant is one of them or older than one of them. -/
def Dominated (entrants : List α) : Prop :=
  ∃ first chain, (first :: chain).Nodup ∧ first :: chain ⊆ entrants ∧
    (first :: chain).IsChain (fun a b => rivalry.newer a b = true) ∧
    ∀ other ∈ entrants, other ∈ first :: chain ∨
      ∃ above ∈ first :: chain, rivalry.newer other above = true

/-- Of two entrants one prevails. -/
theorem prevails_of_not {a b : α} (apart : a ≠ b) (loses : ¬ rivalry.Prevails a b) :
    rivalry.Prevails b a := by
  obtain ⟨notOlder, notPreferred⟩ := not_or.mp loses
  by_cases newer : rivalry.newer a b = true
  · exact Or.inl newer
  · have open' : rivalry.newer a b = false := Bool.eq_false_iff.mpr newer
    have tiebreak : rivalry.later b a ≠ true := fun preferred => notPreferred ⟨open', preferred⟩
    refine Or.inr ⟨Bool.eq_false_iff.mpr notOlder, ?_⟩
    rw [rivalry.total a b apart, Bool.eq_false_iff.mpr tiebreak]
    rfl

/-- An entrant that prevails keeps its place against a challenger. -/
theorem bout_kept {winner other : α} (prevails : rivalry.Prevails winner other)
    (apart : other ≠ winner) (disputed : Bool) :
    (rivalry.bout (winner, disputed) other).1 = winner := by
  have older : rivalry.newer winner other = false := by
    rcases prevails with newer | ⟨older, _⟩
    · exact rivalry.asymmetric other winner newer
    · exact older
  unfold bout
  rw [if_neg (by rw [older]; exact Bool.false_ne_true)]
  by_cases newer : rivalry.newer other winner = true
  · rw [if_pos newer]
  · rw [if_neg newer]
    have preferred : rivalry.later other winner = true := by
      rcases prevails with held | ⟨_, preferred⟩
      · exact absurd held newer
      · exact preferred
    have turned : rivalry.later winner other = false := by
      rw [rivalry.total winner other (Ne.symm apart), preferred]
      rfl
    show (if rivalry.later winner other = true then other else winner) = winner
    rw [turned]
    rfl

/-- An entrant that prevails takes the place of a champion. -/
theorem bout_taken {winner other : α} (prevails : rivalry.Prevails winner other)
    (disputed : Bool) : (rivalry.bout (other, disputed) winner).1 = winner := by
  unfold bout
  by_cases newer : rivalry.newer other winner = true
  · rw [if_pos newer]
  · rw [if_neg newer]
    obtain ⟨older, preferred⟩ : rivalry.newer winner other = false ∧
        rivalry.later other winner = true := by
      rcases prevails with held | rest
      · exact absurd held newer
      · exact rest
    rw [if_neg (by rw [older]; exact Bool.false_ne_true)]
    show (if rivalry.later other winner = true then winner else other) = winner
    rw [if_pos preferred]

/-- The champion of a bout is one of the two. -/
theorem bout_mem (state : α × Bool) (challenger : α) :
    (rivalry.bout state challenger).1 = state.1 ∨
      (rivalry.bout state challenger).1 = challenger := by
  unfold bout
  split
  · exact Or.inr rfl
  · split
    · exact Or.inl rfl
    · show (if rivalry.later state.1 challenger = true then challenger else state.1) = state.1 ∨
        (if rivalry.later state.1 challenger = true then challenger else state.1) = challenger
      split
      · exact Or.inr rfl
      · exact Or.inl rfl

/-- A disputed contest stays disputed. -/
theorem disputed_stays (rest : List α) {state : α × Bool} (disputed : state.2 = true) :
    (rest.foldl rivalry.bout state).2 = true := by
  induction rest generalizing state with
  | nil => exact disputed
  | cons challenger rest ih =>
    apply ih
    unfold bout
    split
    · exact disputed
    · split
      · exact disputed
      · rfl

/-- The champion is one of the entrants. -/
theorem champion_mem (rest : List α) (state : α × Bool) :
    (rest.foldl rivalry.bout state).1 ∈ state.1 :: rest := by
  induction rest generalizing state with
  | nil => exact List.mem_singleton.mpr rfl
  | cons challenger rest ih =>
    rw [List.foldl_cons]
    rcases List.mem_cons.mp (ih (rivalry.bout state challenger)) with here | later
    · rw [here]
      rcases rivalry.bout_mem state challenger with champion | taken
      · rw [champion]
        exact List.mem_cons_self
      · rw [taken]
        exact List.mem_cons_of_mem _ List.mem_cons_self
    · exact List.mem_cons_of_mem _ (List.mem_cons_of_mem _ later)

/-- An entrant that prevails against every other one is champion. -/
theorem champion_of_prevails (rest : List α) (state : α × Bool) {winner : α}
    (entered : winner ∈ state.1 :: rest)
    (prevails : ∀ other ∈ state.1 :: rest, other ≠ winner → rivalry.Prevails winner other) :
    (rest.foldl rivalry.bout state).1 = winner := by
  induction rest generalizing state with
  | nil => exact (List.mem_singleton.mp entered).symm
  | cons challenger rest ih =>
    rw [List.foldl_cons]
    obtain ⟨champion, disputed⟩ := state
    -- Once in the bout, the winner leaves it as champion.
    have decided : winner = champion ∨ winner = challenger →
        (rivalry.bout (champion, disputed) challenger).1 = winner := by
      intro inside
      by_cases same : champion = challenger
      · have both : winner = champion := inside.elim id fun next => next.trans same.symm
        rcases rivalry.bout_mem (champion, disputed) challenger with kept | taken
        · exact kept.trans both.symm
        · exact taken.trans (same.symm.trans both.symm)
      · rcases inside with here | next
        · have apart : challenger ≠ winner := fun other => same (here.symm.trans other.symm)
          have own := prevails challenger (List.mem_cons_of_mem _ List.mem_cons_self) apart
          rw [← here]
          exact rivalry.bout_kept own apart disputed
        · have apart : champion ≠ winner := fun other => same (other.trans next)
          have own := prevails champion List.mem_cons_self apart
          rw [← next]
          exact rivalry.bout_taken own disputed
    apply ih
    · rcases List.mem_cons.mp entered with here | later
      · rw [decided (Or.inl here)]
        exact List.mem_cons_self
      · rcases List.mem_cons.mp later with next | after
        · rw [decided (Or.inr next)]
          exact List.mem_cons_self
        · exact List.mem_cons_of_mem _ after
    · intro other member
      rcases List.mem_cons.mp member with here | later
      · rcases rivalry.bout_mem (champion, disputed) challenger with kept | taken
        · rw [here, kept]
          exact prevails _ List.mem_cons_self
        · rw [here, taken]
          exact prevails _ (List.mem_cons_of_mem _ List.mem_cons_self)
      · exact prevails other (List.mem_cons_of_mem _ (List.mem_cons_of_mem _ later))

/-- Comparable entrants leave nothing disputed. -/
theorem undisputed_of_comparable (rest : List α) (champion : α)
    (distinct : (champion :: rest).Nodup) (comparable : rivalry.Comparable (champion :: rest)) :
    (rest.foldl rivalry.bout (champion, false)).2 = false := by
  induction rest generalizing champion with
  | nil => rfl
  | cons challenger rest ih =>
    have apart : champion ≠ challenger := by
      intro same
      exact (List.nodup_cons.mp distinct).1 (same ▸ List.mem_cons_self)
    rw [List.foldl_cons, bout]
    rcases comparable champion List.mem_cons_self challenger
      (List.mem_cons_of_mem _ List.mem_cons_self) apart with newer | older
    · rw [if_pos newer]
      refine ih challenger (List.nodup_cons.mp distinct).2 ?_
      exact fun a aIn b bIn =>
        comparable a (List.mem_cons_of_mem _ aIn) b (List.mem_cons_of_mem _ bIn)
    · rw [if_neg (by rw [rivalry.asymmetric _ _ older]; exact Bool.false_ne_true), if_pos older]
      have sublist : (champion :: rest).Sublist (champion :: challenger :: rest) :=
        List.Sublist.cons_cons champion (List.sublist_cons_self challenger rest)
      exact ih champion (sublist.nodup distinct) fun a aIn b bIn =>
        comparable a (sublist.subset aIn) b (sublist.subset bIn)

/-- The champions of an undisputed contest dominate the entrants. -/
theorem chain_of_undisputed (rest : List α) (champion : α)
    (undisputed : (rest.foldl rivalry.bout (champion, false)).2 = false) :
    ∃ chain, chain.Sublist rest ∧
      (champion :: chain).IsChain (fun a b => rivalry.newer a b = true) ∧
      ∀ other ∈ rest, other ∈ chain ∨ ∃ above ∈ champion :: chain, rivalry.newer other above = true := by
  induction rest generalizing champion with
  | nil => exact ⟨[], List.Sublist.refl _, List.isChain_singleton _, by simp⟩
  | cons challenger rest ih =>
    rw [List.foldl_cons, bout] at undisputed
    by_cases newer : rivalry.newer champion challenger = true
    · rw [if_pos newer] at undisputed
      obtain ⟨chain, among, ascending, below⟩ := ih challenger undisputed
      refine ⟨challenger :: chain, List.Sublist.cons_cons challenger among,
        List.IsChain.cons_cons newer ascending, ?_⟩
      intro other member
      rcases List.mem_cons.mp member with here | later
      · exact Or.inl (here ▸ List.mem_cons_self)
      · rcases below other later with inside | ⟨above, higher, older⟩
        · exact Or.inl (List.mem_cons_of_mem _ inside)
        · exact Or.inr ⟨above, List.mem_cons_of_mem _ higher, older⟩
    · rw [if_neg newer] at undisputed
      by_cases older : rivalry.newer challenger champion = true
      · rw [if_pos older] at undisputed
        obtain ⟨chain, among, ascending, below⟩ := ih champion undisputed
        refine ⟨chain, among.cons challenger, ascending, ?_⟩
        intro other member
        rcases List.mem_cons.mp member with here | later
        · exact Or.inr ⟨champion, List.mem_cons_self, here ▸ older⟩
        · exact below other later
      · rw [if_neg older] at undisputed
        rw [rivalry.disputed_stays rest rfl] at undisputed
        cases undisputed

/-- Challengers older than the champion change nothing. -/
theorem foldl_bout_older (older : List α) (champion : α) (disputed : Bool)
    (below : ∀ other ∈ older, rivalry.newer other champion = true) :
    older.foldl rivalry.bout (champion, disputed) = (champion, disputed) := by
  induction older with
  | nil => rfl
  | cons challenger rest ih =>
    have turned := below challenger List.mem_cons_self
    rw [List.foldl_cons, bout,
      if_neg (by rw [rivalry.asymmetric _ _ turned]; exact Bool.false_ne_true), if_pos turned]
    exact ih fun other member => below other (List.mem_cons_of_mem _ member)

/-- Entrants that ever newer ones dominate can come in an undisputed order. -/
theorem undisputed_order (chain others : List α) (champion : α)
    (ascending : (champion :: chain).IsChain (fun a b => rivalry.newer a b = true))
    (below : ∀ other ∈ others, ∃ above ∈ champion :: chain, rivalry.newer other above = true) :
    ∃ order : List α, order.Perm (chain ++ others) ∧
      (order.foldl rivalry.bout (champion, false)).2 = false := by
  induction chain generalizing champion others with
  | nil =>
    refine ⟨others, List.Perm.refl _, ?_⟩
    rw [rivalry.foldl_bout_older others champion false]
    intro other member
    obtain ⟨above, here, older⟩ := below other member
    rw [← List.mem_singleton.mp here]
    exact older
  | cons next chain ih =>
    -- Those older than the champion come before the next one, the others after it.
    let now := others.filter fun other => rivalry.newer other champion
    let after := others.filter fun other => !rivalry.newer other champion
    obtain ⟨newer, rest⟩ := List.isChain_cons_cons.mp ascending
    obtain ⟨order, arranged, undisputed⟩ := ih after next rest (by
      intro other member
      obtain ⟨among, notNow⟩ := List.mem_filter.mp member
      obtain ⟨above, higher, older⟩ := below other among
      rcases List.mem_cons.mp higher with here | later
      · rw [here] at older
        rw [older] at notNow
        cases notNow
      · exact ⟨above, later, older⟩)
    refine ⟨now ++ next :: order, ?_, ?_⟩
    · have parted : (now ++ after).Perm others :=
        List.filter_append_perm (fun other => rivalry.newer other champion) others
      calc (now ++ next :: order).Perm (now ++ next :: (chain ++ after)) :=
            (arranged.cons next).append_left now
        _ |>.Perm (next :: (now ++ (chain ++ after))) := List.perm_middle
        _ |>.Perm (next :: (chain ++ (now ++ after))) := by
            apply List.Perm.cons
            rw [← List.append_assoc, ← List.append_assoc]
            exact List.perm_append_comm.append_right after
        _ |>.Perm (next :: (chain ++ others)) := (parted.append_left chain).cons next
    · rw [List.foldl_append, rivalry.foldl_bout_older now champion false
        (fun other member => (List.mem_filter.mp member).2), List.foldl_cons, bout, if_pos newer]
      exact undisputed

/-- What every order of the entrants makes of a contest. -/
def Orderly (entrants : List α) : Prop :=
  (∀ order : List α, order.Perm entrants → ∀ state, rivalry.contest order = some state →
      (state.2 = true ↔ ¬ ∃ top, rivalry.Newest entrants top)) ∧
    ∀ order other : List α, order.Perm entrants → other.Perm entrants →
      rivalry.contest order = rivalry.contest other

/-- A newest entrant dominates the others by itself. -/
theorem dominated_of_newest {entrants : List α} {top : α} (newest : rivalry.Newest entrants top) :
    rivalry.Dominated entrants := by
  refine ⟨top, [], List.nodup_singleton _, by simpa using newest.1, List.isChain_singleton _, ?_⟩
  intro other member
  by_cases same : other = top
  · exact Or.inl (List.mem_singleton.mpr same)
  · exact Or.inr ⟨top, List.mem_singleton.mpr rfl, newest.2 other member same⟩

/-- A newest entrant is champion in every order. -/
theorem champion_of_newest {entrants order : List α} {top : α} {state : α × Bool}
    (newest : rivalry.Newest entrants top) (arranged : order.Perm entrants)
    (ended : rivalry.contest order = some state) : state.1 = top := by
  cases order with
  | nil => cases ended
  | cons first rest =>
    rw [← Option.some.inj ended]
    refine rivalry.champion_of_prevails rest (first, false) (arranged.mem_iff.mpr newest.1) ?_
    exact fun other member apart => Or.inl (newest.2 other (arranged.mem_iff.mp member) apart)

variable [DecidableEq α]

/-- Two of the entrants can come first. -/
theorem perm_first_two {entrants : List α} {a b : α} (first : a ∈ entrants) (second : b ∈ entrants)
    (apart : b ≠ a) : (a :: b :: (entrants.erase a).erase b).Perm entrants := by
  have second' : b ∈ entrants.erase a := (List.mem_erase_of_ne apart).mpr second
  exact ((List.perm_cons_erase second').symm.cons a).trans (List.perm_cons_erase first).symm

/-- Every order makes the same of a contest, disputed just where no entrant is newest, if and only
if one is newest and any two are comparable, or no ever newer ones dominate and one prevails
against each other. -/
theorem orderly_iff {entrants : List α} (distinct : entrants.Nodup) (inhabited : entrants ≠ []) :
    rivalry.Orderly entrants ↔
      ((∃ top, rivalry.Newest entrants top) ∧ rivalry.Comparable entrants) ∨
        (¬ rivalry.Dominated entrants ∧ ∃ winner ∈ entrants, ∀ other ∈ entrants, other ≠ winner →
          rivalry.Prevails winner other) := by
  constructor
  · rintro ⟨disputes, agree⟩
    by_cases top : ∃ top, rivalry.Newest entrants top
    · refine Or.inl ⟨top, ?_⟩
      intro a aIn b bIn apart
      by_contra neither
      obtain ⟨notNewer, notOlder⟩ := not_or.mp neither
      have arranged := perm_first_two aIn bIn (Ne.symm apart)
      refine (disputes _ arranged _ rfl).mp ?_ top
      rw [List.foldl_cons, bout, if_neg notNewer, if_neg notOlder]
      exact rivalry.disputed_stays _ rfl
    · refine Or.inr ⟨?_, ?_⟩
      · rintro ⟨first, chain, chainDistinct, among, ascending, below⟩
        let others := entrants.filter fun other => other ∉ first :: chain
        have inChain : ∀ other ∈ others, other ∈ entrants ∧ other ∉ first :: chain := by
          intro other member
          simpa [others] using member
        obtain ⟨order, arranged, undisputed⟩ := rivalry.undisputed_order chain others first
          ascending (by
            intro other member
            obtain ⟨entered, outside⟩ := inChain other member
            exact (below other entered).resolve_left outside)
        have parted : (first :: (chain ++ others)).Perm entrants := by
          have apart : List.Disjoint (first :: chain) others :=
            fun other inside member => (inChain other member).2 inside
          have whole : ((first :: chain) ++ others).Nodup :=
            chainDistinct.append (distinct.filter _) apart
          refine (List.perm_ext_iff_of_nodup whole distinct).mpr ?_
          intro other
          rw [List.mem_append]
          constructor
          · intro member
            rcases member with inside | outside
            · exact among inside
            · exact (inChain other outside).1
          · intro entered
            by_cases inside : other ∈ first :: chain
            · exact Or.inl inside
            · exact Or.inr (by simpa [others] using ⟨entered, by simpa using inside⟩)
        have disputed := (disputes _ ((arranged.cons first).trans parted) _ rfl).mpr top
        rw [undisputed] at disputed
        cases disputed
      · cases entrants with
        | nil => exact absurd rfl inhabited
        | cons first rest =>
          let winner := (rest.foldl rivalry.bout (first, false)).1
          have entered : winner ∈ first :: rest := rivalry.champion_mem rest (first, false)
          refine ⟨winner, entered, ?_⟩
          intro other member apart
          by_contra loses
          -- Where the champion loses to another entrant, it is out when the two come first.
          have arranged := perm_first_two entered member apart
          have same := agree _ _ (List.Perm.refl _) arranged
          have champion : winner = ((((first :: rest).erase winner).erase other).foldl rivalry.bout
              (rivalry.bout (winner, false) other)).1 := congrArg Prod.fst (Option.some.inj same)
          have out : (rivalry.bout (winner, false) other).1 = other :=
            rivalry.bout_taken (rivalry.prevails_of_not (Ne.symm apart) loses) false
          have inside := rivalry.champion_mem (((first :: rest).erase winner).erase other)
            (rivalry.bout (winner, false) other)
          rw [← champion, out] at inside
          have fresh := (List.nodup_cons.mp (arranged.nodup_iff.mpr distinct)).1
          exact fresh inside
  · intro condition
    have decided : ∃ state : α × Bool, (state.2 = true ↔ ¬ ∃ top, rivalry.Newest entrants top) ∧
        ∀ order : List α, order.Perm entrants → rivalry.contest order = some state := by
      rcases condition with ⟨⟨top, newest⟩, comparable⟩ | ⟨free, winner, entered, prevails⟩
      · refine ⟨(top, false), by simp only [Bool.false_eq_true, false_iff, not_not]; exact ⟨top, newest⟩, ?_⟩
        intro order arranged
        cases order with
        | nil => exact absurd arranged.symm.eq_nil inhabited
        | cons first rest =>
          have champion := rivalry.champion_of_newest newest arranged rfl
          have undisputed := rivalry.undisputed_of_comparable rest first
            (arranged.nodup_iff.mpr distinct) fun a aIn b bIn =>
              comparable a (arranged.mem_iff.mp aIn) b (arranged.mem_iff.mp bIn)
          exact congrArg some (Prod.ext champion undisputed)
      · refine ⟨(winner, true), ?_, ?_⟩
        · simp only [true_iff]
          rintro ⟨top, newest⟩
          exact free (rivalry.dominated_of_newest newest)
        · intro order arranged
          cases order with
          | nil => exact absurd arranged.symm.eq_nil inhabited
          | cons first rest =>
            have champion := rivalry.champion_of_prevails rest (first, false)
              (arranged.mem_iff.mpr entered) fun other member =>
                prevails other (arranged.mem_iff.mp member)
            refine congrArg some (Prod.ext champion ?_)
            by_contra calm
            obtain ⟨chain, among, ascending, below⟩ :=
              rivalry.chain_of_undisputed rest first (Bool.eq_false_iff.mpr calm)
            have whole : (first :: chain).Sublist (first :: rest) := List.Sublist.cons_cons first among
            refine free ⟨first, chain, whole.nodup (arranged.nodup_iff.mpr distinct), ?_, ascending,
              ?_⟩
            · exact fun other inside => arranged.mem_iff.mp (whole.subset inside)
            · intro other member
              rcases List.mem_cons.mp (arranged.mem_iff.mpr member) with here | later
              · exact Or.inl (here ▸ List.mem_cons_self)
              · exact (below other later).imp_left (List.mem_cons_of_mem _)
    obtain ⟨state, disputes, always⟩ := decided
    constructor
    · intro order arranged other ended
      rw [always order arranged] at ended
      rw [← Option.some.inj ended]
      exact disputes
    · intro order other arranged arranged'
      rw [always order arranged, always other arranged']

end Rivalry

end Texo.Foundation
