import AlgorithmPortfolio.Proofs.Control.Run
import AlgorithmPortfolio.Proofs.Portfolio.Index
import AlgorithmPortfolio.Proofs.Schedule.Measurements

/-!
# What a run adds to counters

What a schedule did is counted in its slots, in its own state and in its metrics. They are
written at different moments of a call, and a call can end in different ways. Here each of them
is counted against what is seen of the run from outside.

- `Answer`: what a call for a turn gives back, `handsOut` and `isViolation` what becomes of it.
- `Counted`: slots and metrics grow by what answers say. Parts of a run add up
  (`Counted.append`).
- `RoundRobin.trace`: what is seen of a run, call by call. Its answers and the outcomes of
  passes are seen so; `Controlled.answers` for schedules of a controller.
- `RoundRobin.Tallied`: what a part of a run adds to all counters of a schedule in turn, first
  for one call (`tallied_step`) and then for whole runs (`tallied_run`).
- `Controlled.counted_step`, `Controlled.counted_run`: the same for schedules of a controller.
-/

namespace AlgorithmPortfolio

open Rebalance (Outcome)

variable {σ α : Type}

/-! ## Answers -/

/-- What a call for a turn gives back. -/
abbrev Answer (α : Type) := Except PortfolioError (Turn α)

/-- Whether a slot was handed out. -/
def Answer.handsOut : Answer α → Bool
  | .ok _ => true
  | .error _ => false

/-- Whether a decision named an unknown slot. -/
def Answer.isViolation : Answer α → Bool
  | .error (.unknownSlot _) => true
  | _ => false

/-! ## Slots and metrics -/

namespace Portfolio

/-- How often the slots of a portfolio were handed out. -/
def dispatches (portfolio : Portfolio α) : Nat := (portfolio.slots.map Slot.dispatches).sum

theorem dispatches_congr {portfolio other : Portfolio α}
    (h : other.slots.map Slot.account = portfolio.slots.map Slot.account) :
    other.dispatches = portfolio.dispatches := by
  have hslots (portfolio : Portfolio α) : portfolio.dispatches =
      ((portfolio.slots.map Slot.account).map Prod.snd).sum := by
    rw [dispatches, List.map_map]
    rfl
  rw [hslots, hslots, h]

/-- A slot that is handed out adds one. -/
theorem dispatches_modify {portfolio : Portfolio α} {position : Nat}
    (hlt : position < portfolio.size) {change : Slot α → Slot α}
    (once : ∀ slot, (change slot).dispatches = slot.dispatches + 1) :
    (portfolio.modify position change).dispatches = portfolio.dispatches + 1 := by
  unfold size at hlt
  show ((portfolio.slots.modify position change).map Slot.dispatches).sum = _
  rw [dispatches]
  -- by induction on the slots, down to the one that is dispatched
  generalize portfolio.slots = slots at hlt
  induction slots generalizing position with
  | nil => exact absurd hlt (Nat.not_lt_zero _)
  | cons first rest ih =>
    cases position with
    | zero =>
      rw [List.modify_zero_cons, List.map_cons, List.map_cons, List.sum_cons, List.sum_cons, once]
      omega
    | succ position =>
      rw [List.modify_succ_cons, List.map_cons, List.map_cons, List.sum_cons, List.sum_cons,
        ih (Nat.lt_of_succ_lt_succ hlt), Nat.add_assoc]

end Portfolio

/-- Metrics that have counted nothing. -/
structure MetricSet.Unused (metrics : MetricSet) : Prop where
  dispatches : metrics.dispatches = 0
  rounds : metrics.rounds = 0
  applied : metrics.applied = 0
  skipped : metrics.skipped = 0
  violations : metrics.violations = 0

theorem MetricSet.unused_fresh (word : String) : (fresh word).Unused := ⟨rfl, rfl, rfl, rfl, rfl⟩

/-- To show limits counts nothing. -/
theorem MetricSet.Unused.setLimits {metrics : MetricSet} (h : metrics.Unused)
    (limits : List (String × Nat)) : (metrics.setLimits limits).Unused := by
  obtain ⟨shown, hshown⟩ := exists_setLimits limits metrics
  rw [hshown]
  exact ⟨h.dispatches, h.rounds, h.applied, h.skipped, h.violations⟩

/-- What the slots and the metrics of a schedule count of answers. -/
structure Counted (answers : List (Answer α)) (before after : Portfolio α)
    (metrics later : MetricSet) : Prop where
  slots : after.dispatches = before.dispatches + answers.countP Answer.handsOut
  dispatches : later.dispatches = metrics.dispatches + answers.countP Answer.handsOut
  violations : later.violations = metrics.violations + answers.countP Answer.isViolation

theorem Counted.append {first second : List (Answer α)} {before between after : Portfolio α}
    {metrics later last : MetricSet} (h : Counted first before between metrics later)
    (h' : Counted second between after later last) :
    Counted (first ++ second) before after metrics last where
  slots := by rw [h'.slots, h.slots, List.countP_append, Nat.add_assoc]
  dispatches := by rw [h'.dispatches, h.dispatches, List.countP_append, Nat.add_assoc]
  violations := by rw [h'.violations, h.violations, List.countP_append, Nat.add_assoc]

/-- Answers that hand nothing out and name no unknown slot are not counted. -/
theorem Counted.of_quiet {before after : Portfolio α} {metrics later : MetricSet}
    (slots : after.slots.map Slot.account = before.slots.map Slot.account)
    (dispatches : later.dispatches = metrics.dispatches)
    (violations : later.violations = metrics.violations) : Counted [] before after metrics later :=
  ⟨Portfolio.dispatches_congr slots, dispatches, violations⟩

/-! ## Schedules in turn -/

namespace RoundRobin

/-- Whether a call replaces the metrics. -/
def Event.setsMetrics : Event α → Bool
  | .setMetrics _ => true
  | _ => false

/-- Whether a call asks for a pass. -/
def Event.isPass : Event α → Bool
  | .rebalance _ => true
  | _ => false

variable [PathSampler σ] [Arith α]

/-- The answer to a call for a turn. -/
def Event.answer? (schedule : RoundRobin σ α) : Event α → Option (Answer α)
  | .next engines => some (schedule.next engines).1
  | _ => none

/-- The outcome of the pass that a call runs: one that was asked for, or the one at the end of a
round. -/
def Event.outcome? (schedule : RoundRobin σ α) : Event α → Option Outcome
  | .next engines => if schedule.EndsRound then (schedule.next engines).2.lastOutcome else none
  | .rebalance engines => some (schedule.rebalance engines).1
  | _ => none

/-- What is seen of the calls of a run, each of them in the state that it meets. -/
def trace {β : Type} (seen : RoundRobin σ α → Event α → Option β) :
    RoundRobin σ α → List (Event α) → List β
  | _, [] => []
  | schedule, event :: rest => (seen schedule event).toList ++ trace seen (event.step schedule) rest

/-- The answers to the calls for a turn in a run. -/
def answers : RoundRobin σ α → List (Event α) → List (Answer α) := trace Event.answer?

/-- The outcomes of the passes in a run. -/
def outcomes : RoundRobin σ α → List (Event α) → List Outcome := trace Event.outcome?

theorem trace_append {β : Type} (seen : RoundRobin σ α → Event α → Option β)
    (schedule : RoundRobin σ α) (first second : List (Event α)) :
    trace seen schedule (first ++ second) =
      trace seen schedule first ++ trace seen (run first schedule) second := by
  induction first generalizing schedule with
  | nil => rfl
  | cons event rest ih =>
    rw [List.cons_append, trace, ih, trace, List.append_assoc]
    rfl

/-! ### What calls add -/

/-- What a part of a run adds to the counters of a schedule, by its answers, the outcomes of its
passes and the number of passes that were asked for. -/
structure Tallied (answers : List (Answer α)) (outcomes : List Outcome) (asked : Nat)
    (before after : RoundRobin σ α) : Prop
    extends Counted answers before.portfolio after.portfolio before.metrics after.metrics where
  /-- Rounds are counted as often in the metrics as in the state. -/
  rounds : after.metrics.rounds + before.round = before.metrics.rounds + after.round
  applied : after.applied = before.applied + outcomes.countP Outcome.isApplied
  shown : after.metrics.applied = before.metrics.applied + outcomes.countP Outcome.isApplied
  /-- A pass was asked for or ended a round. -/
  passes : after.passes + before.round = before.passes + after.round + asked

omit [PathSampler σ] [Arith α] in
theorem Tallied.append {first second : List (Answer α)} {earlier later : List Outcome} {m n : Nat}
    {before between after : RoundRobin σ α} (h : Tallied first earlier m before between)
    (h' : Tallied second later n between after) :
    Tallied (first ++ second) (earlier ++ later) (m + n) before after where
  toCounted := h.toCounted.append h'.toCounted
  rounds := by
    have hfirst := h.rounds
    have hsecond := h'.rounds
    omega
  applied := by rw [h'.applied, h.applied, List.countP_append, Nat.add_assoc]
  shown := by rw [h'.shown, h.shown, List.countP_append, Nat.add_assoc]
  passes := by
    have hfirst := h.passes
    have hsecond := h'.passes
    omega

/-- Of a pass that changed the limits, state and metrics count one more. -/
theorem counters_rebalance (engines : Engines α) (schedule : RoundRobin σ α) :
    ∃ skipped limits, (schedule.rebalance engines).2.metrics =
        { schedule.metrics with
          applied := schedule.metrics.applied +
            [(schedule.rebalance engines).1].countP Outcome.isApplied
          skipped
          limits } ∧
      (schedule.rebalance engines).2.applied =
        schedule.applied + [(schedule.rebalance engines).1].countP Outcome.isApplied := by
  rcases hpass : schedule.currentPass engines with ⟨outcome, slots, draws⟩
  rw [rebalance_of_pass hpass]
  cases outcome with
  | applied budget limits =>
    obtain ⟨shown, hshown⟩ := MetricSet.exists_setLimits
      (Portfolio.limitsById { schedule.portfolio with slots })
        (schedule.metrics.recordRebalance true)
    exact ⟨_, shown, hshown, rfl⟩
  | skipped reason => exact ⟨_, _, rfl, rfl⟩

theorem tallied_rebalance (engines : Engines α) (schedule : RoundRobin σ α) :
    Tallied [] [(schedule.rebalance engines).1] 1 schedule (schedule.rebalance engines).2 := by
  obtain ⟨skipped, limits, hmetrics, happlied⟩ := counters_rebalance engines schedule
  have hround : (schedule.rebalance engines).2.round = schedule.round := rfl
  have hpasses := passes_rebalance engines schedule
  refine ⟨.of_quiet (accounts_rebalance engines schedule) ?_ ?_, ?_, happlied, ?_, ?_⟩
  · rw [hmetrics]
  · rw [hmetrics]
  · rw [hmetrics, hround]
  · rw [hmetrics]
  · rw [hround, hpasses, Nat.add_right_comm]

/-- The end of a round is counted and runs a pass. -/
theorem tallied_atTurn (engines : Engines α) (schedule : RoundRobin σ α) :
    Tallied [] (if schedule.EndsRound then [(schedule.counted.rebalance engines).1] else []) 0
      schedule (schedule.atTurn engines) := by
  by_cases ends : schedule.EndsRound
  · -- the round is counted once by the schedule and once by its metrics
    have hturn : schedule.atTurn engines = schedule.finishRound engines := if_pos ends
    have hpass := tallied_rebalance engines schedule.counted
    have hrounds : (schedule.finishRound engines).metrics.rounds + (schedule.round + 1) =
        schedule.metrics.rounds + 1 + (schedule.round + 1) := hpass.rounds
    have hpasses : (schedule.finishRound engines).passes = schedule.passes + 1 :=
      passes_rebalance engines schedule.counted
    have hround : (schedule.finishRound engines).round = schedule.round + 1 := rfl
    rw [if_pos ends, hturn]
    refine ⟨.of_quiet (accounts_finishRound engines schedule) hpass.dispatches hpass.violations, ?_,
      hpass.applied, hpass.shown, ?_⟩
    · omega
    · omega
  · have hturn : schedule.atTurn engines = schedule := if_neg ends
    rw [if_neg ends, hturn]
    exact ⟨.of_quiet rfl rfl rfl, rfl, rfl, rfl, rfl⟩

/-- A call for a turn ends the round if it is complete, and then hands a slot out if there is
one. -/
theorem tallied_next (engines : Engines α) (schedule : RoundRobin σ α) :
    Tallied [(schedule.next engines).1] (Event.outcome? schedule (.next engines)).toList 0 schedule
      (schedule.next engines).2 := by
  have hturn := tallied_atTurn engines schedule
  -- a call reports the outcome of a pass only when it ends a round
  have houtcome (kept : (schedule.next engines).2.lastOutcome =
      (schedule.atTurn engines).lastOutcome) :
      (Event.outcome? schedule (.next engines)).toList =
        if schedule.EndsRound then [(schedule.counted.rebalance engines).1] else [] := by
    rw [Event.outcome?, kept]
    by_cases ends : schedule.EndsRound
    · have hturn : schedule.atTurn engines = schedule.finishRound engines := if_pos ends
      rw [if_pos ends, if_pos ends, hturn]
      rfl
    · rw [if_neg ends, if_neg ends]
      rfl
  -- the turn may fail to find a slot, which counts nothing more
  cases hslot : (schedule.atTurn engines).portfolio.get? (schedule.atTurn engines).cursor with
  | none =>
    have hnext := next_of_none hslot
    rw [houtcome (by rw [hnext]), hnext]
    exact ⟨⟨hturn.slots, hturn.dispatches, hturn.violations⟩, hturn.rounds, hturn.applied,
      hturn.shown, hturn.passes⟩
  | some slot =>
    have hnext := next_of_slot hslot
    have hlt : (schedule.atTurn engines).cursor < (schedule.atTurn engines).portfolio.size :=
      (List.getElem?_eq_some_iff.mp hslot).1
    have hdispatch (slot : Slot α) : slot.dispatch.dispatches = slot.dispatches + 1 := rfl
    rw [houtcome (by rw [hnext]; rfl), hnext]
    refine ⟨⟨?_, ?_, hturn.violations⟩, hturn.rounds, hturn.applied, hturn.shown, hturn.passes⟩
    · rw [portfolio_dispatch hslot, Portfolio.dispatches_modify hlt hdispatch, hturn.slots]
      rfl
    · exact congrArg (· + 1) hturn.dispatches

theorem tallied_step (schedule : RoundRobin σ α) {event : Event α}
    (kept : event.setsMetrics = false) :
    Tallied (Event.answer? schedule event).toList (Event.outcome? schedule event).toList
      ([event].countP Event.isPass) schedule (event.step schedule) := by
  cases event with
  | next engines => exact tallied_next engines schedule
  | rebalance engines => exact tallied_rebalance engines schedule
  | setModel id model => exact ⟨.of_quiet rfl rfl rfl, rfl, rfl, rfl, rfl⟩
  | setMetrics metrics => cases kept
  | operate position operation =>
    exact ⟨.of_quiet (accounts_operate position operation schedule) rfl rfl, rfl, rfl, rfl, rfl⟩

/-- A run with the same metrics throughout adds what its answers and outcomes say. -/
theorem tallied_run (schedule : RoundRobin σ α) {events : List (Event α)}
    (kept : ∀ event ∈ events, event.setsMetrics = false) :
    Tallied (answers schedule events) (outcomes schedule events)
      (events.countP Event.isPass) schedule
      (run events schedule) := by
  induction events generalizing schedule with
  | nil => exact ⟨.of_quiet rfl rfl rfl, rfl, rfl, rfl, rfl⟩
  | cons event rest ih =>
    obtain ⟨hevent, hrest⟩ := List.forall_mem_cons.mp kept
    have hsum : (event :: rest).countP Event.isPass =
        [event].countP Event.isPass + rest.countP Event.isPass :=
      @List.countP_append _ _ [event] rest
    rw [hsum]
    exact (tallied_step schedule hevent).append (ih (event.step schedule) hrest)

/-! ### Before the first turn -/

/-- A pass before the end of the first round changes no limits, so it is not counted as one that
did. -/
theorem applied_rebalance_of_firstRound {schedule : RoundRobin σ α} (first : schedule.round = 0)
    (engines : Engines α) :
    (schedule.rebalance engines).1.isApplied = false ∧
      (schedule.rebalance engines).2.applied = schedule.applied := by
  have hpass : schedule.currentPass engines = (.skipped .firstRound, _, _) :=
    Rebalance.pass_firstRound first
  rw [rebalance_of_pass hpass]
  exact ⟨rfl, rfl⟩

/-- Without a turn nothing is handed out and no pass changes limits, whichever metrics there
are. -/
theorem idle_run {schedule : RoundRobin σ α} (first : schedule.round = 0) {events : List (Event α)}
    (idle : turns events = 0) :
    (run events schedule).round = 0 ∧ (run events schedule).applied = schedule.applied ∧
      (run events schedule).accounts = schedule.accounts ∧ answers schedule events = [] ∧
      (outcomes schedule events).countP Outcome.isApplied = 0 := by
  induction events generalizing schedule with
  | nil => exact ⟨first, rfl, rfl, rfl, rfl⟩
  | cons event rest ih =>
    have hother : event.isNext = false := by
      cases hnext : event.isNext with
      | false => rfl
      | true =>
        rw [turns, List.countP_cons_of_pos hnext] at idle
        cases idle
    have hrest : turns rest = 0 := by
      rw [turns, List.countP_cons_of_neg (by simp [hother])] at idle
      exact idle
    obtain ⟨haccounts, -, -, hround⟩ := accounts_step schedule event hother
    obtain ⟨hlater, happlied, hslots, hanswers, houtcomes⟩ := ih (hround.trans first) hrest
    have hanswer : Event.answer? schedule event = none := by
      cases event with
      | next engines => cases hother
      | _ => rfl
    -- a pass in the first round is skipped, and nothing else changes what is counted
    have hevent : (event.step schedule).applied = schedule.applied ∧
        (Event.outcome? schedule event).toList.countP Outcome.isApplied = 0 := by
      cases event with
      | next engines => cases hother
      | rebalance engines =>
        obtain ⟨hskipped, hkept⟩ := applied_rebalance_of_firstRound first engines
        exact ⟨hkept, List.countP_cons_of_neg (by simp [hskipped])⟩
      | _ => exact ⟨rfl, rfl⟩
    refine ⟨hlater, happlied.trans hevent.1, hslots.trans haccounts, ?_, ?_⟩
    · show (Event.answer? schedule event).toList ++ answers (event.step schedule) rest = []
      rw [hanswer, hanswers]
      rfl
    · show ((Event.outcome? schedule event).toList ++
        outcomes (event.step schedule) rest).countP Outcome.isApplied = 0
      rw [List.countP_append, hevent.2, houtcomes]

end RoundRobin

/-! ## Schedules of a controller -/

namespace Controlled

/-- Whether a call replaces the metrics. -/
def Event.setsMetrics : Event α → Bool
  | .setMetrics _ => true
  | _ => false

variable [Controller σ α] [Arith α]

/-- The answer to a call for a turn. -/
def Event.answer? (schedule : Controlled σ α) : Event α → Option (Answer α)
  | .next => some schedule.next.1
  | _ => none

/-- The answers to the calls for a turn in a run. -/
def answers : Controlled σ α → List (Event α) → List (Answer α)
  | _, [] => []
  | schedule, event :: rest =>
    (Event.answer? schedule event).toList ++ answers (event.step schedule) rest

theorem answers_append (schedule : Controlled σ α) (first second : List (Event α)) :
    answers schedule (first ++ second) =
      answers schedule first ++ answers (run first schedule) second := by
  induction first generalizing schedule with
  | nil => rfl
  | cons event rest ih =>
    rw [List.cons_append, answers, ih, answers, List.append_assoc]
    rfl

/-- A call for a turn is counted by what it answers. -/
theorem counted_next (schedule : Controlled σ α) :
    Counted [schedule.next.1] schedule.portfolio schedule.next.2.portfolio schedule.metrics
      schedule.next.2.metrics := by
  rcases next_cases schedule with ⟨-, hnext⟩ | ⟨decided, -, -, hnext⟩ |
    ⟨decided, position, slot, -, hfind, hnext⟩
  · rw [hnext]
    exact ⟨rfl, rfl, rfl⟩
  · rw [hnext]
    exact ⟨rfl, rfl, rfl⟩
  · have hlt : position < schedule.portfolio.size :=
      (List.getElem?_eq_some_iff.mp (Portfolio.get?_of_find? hfind).2).1
    have hhanded (slot : Slot α) :
        (schedule.handed decided.limit slot).dispatches = slot.dispatches + 1 := rfl
    rw [hnext]
    exact ⟨Portfolio.dispatches_modify hlt hhanded, rfl, rfl⟩

/-- Slots count what was handed out, also while metrics are replaced. -/
theorem dispatches_step (schedule : Controlled σ α) (event : Event α) :
    (event.step schedule).portfolio.dispatches =
      schedule.portfolio.dispatches +
        (Event.answer? schedule event).toList.countP Answer.handsOut := by
  cases event with
  | next => exact (counted_next schedule).slots
  | hasNext => rfl
  | setMetrics metrics => rfl
  | operate position operation =>
    exact Portfolio.dispatches_congr (Portfolio.map_modify_of_frame
      (fun slot => Slot.account_apply slot operation) position schedule.portfolio)

theorem dispatches_run (schedule : Controlled σ α) (events : List (Event α)) :
    (run events schedule).portfolio.dispatches =
      schedule.portfolio.dispatches + (answers schedule events).countP Answer.handsOut := by
  induction events generalizing schedule with
  | nil => rfl
  | cons event rest ih =>
    show (run rest (event.step schedule)).portfolio.dispatches = _
    rw [ih, dispatches_step, answers, List.countP_append, Nat.add_assoc]

theorem counted_step (schedule : Controlled σ α) {event : Event α}
    (kept : event.setsMetrics = false) :
    Counted (Event.answer? schedule event).toList schedule.portfolio (event.step schedule).portfolio
      schedule.metrics (event.step schedule).metrics := by
  cases event with
  | next => exact counted_next schedule
  | hasNext => exact ⟨dispatches_step schedule .hasNext, rfl, rfl⟩
  | setMetrics metrics => cases kept
  | operate position operation =>
    exact ⟨dispatches_step schedule (.operate position operation), rfl, rfl⟩

/-- A run with the same metrics throughout adds what its answers say. -/
theorem counted_run (schedule : Controlled σ α) {events : List (Event α)}
    (kept : ∀ event ∈ events, event.setsMetrics = false) :
    Counted (answers schedule events) schedule.portfolio (run events schedule).portfolio
      schedule.metrics (run events schedule).metrics := by
  induction events generalizing schedule with
  | nil => exact ⟨rfl, rfl, rfl⟩
  | cons event rest ih =>
    obtain ⟨hevent, hrest⟩ := List.forall_mem_cons.mp kept
    exact (counted_step schedule hevent).append (ih (event.step schedule) hrest)

end Controlled

end AlgorithmPortfolio
