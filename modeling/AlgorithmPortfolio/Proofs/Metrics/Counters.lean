import AlgorithmPortfolio.Controller.Replay
import AlgorithmPortfolio.Proofs.Metrics.Tally

/-!
# Counters that agree

A report is made of the slots and the state of a schedule, and the metrics are kept beside both.
After any run they tell the same.

- `CountersAgree`, `RoundRobin.PassesAgree`: what it is that they agree on, for any schedule and
  for schedules in turn.
- `RoundRobin.counters_agree`, `Controlled.counters_agree`: metrics that are attached before the
  first turn agree with everything that comes after.
- `counters_of_run`: the two schedules together.
-/

namespace AlgorithmPortfolio

open Rebalance (Outcome)

variable {σ α : Type}

/-! ## All counters -/

/-- The places that count dispatches agree with all answers of a run, and the violations with
the answers since the metrics were attached. -/
structure CountersAgree (answers attached : List (Answer α)) (report : Schedule.Report)
    (portfolio : Portfolio α) (metrics : MetricSet) : Prop where
  metrics_eq : metrics.dispatches = answers.countP Answer.handsOut
  report_eq : report.dispatches = answers.countP Answer.handsOut
  slots_eq : (portfolio.slots.map Slot.dispatches).sum = answers.countP Answer.handsOut
  violations_eq : metrics.violations = attached.countP Answer.isViolation

/-- The places that count rounds and passes agree with each other and with all outcomes of a
run; `asked` is the number of passes that were asked for since the metrics were attached. -/
structure RoundRobin.PassesAgree (outcomes : List Outcome) (asked : Nat) (report : Schedule.Report)
    (schedule : RoundRobin σ α) : Prop where
  rounds_eq : report.rounds = schedule.round ∧ schedule.metrics.rounds = schedule.round
  applied_eq : report.applied = outcomes.countP Outcome.isApplied ∧
    schedule.metrics.applied = outcomes.countP Outcome.isApplied
  passes_eq : schedule.metrics.applied + schedule.metrics.skipped = schedule.round + asked

/-- Slots that were never handed out. -/
theorem Portfolio.dispatches_of_unused {slots : List (Slot α)} {portfolio : Portfolio α}
    (made : ofSlots slots = .ok portfolio) (unused : ∀ slot ∈ slots, slot.dispatches = 0) :
    portfolio.dispatches = 0 := by
  rw [dispatches, (of_ofSlots made).2.1, List.sum_eq_zero_iff_forall_eq_nat]
  exact List.forall_mem_map.mpr unused

namespace RoundRobin

variable [PathSampler σ] [Arith α]

/-- Metrics that are attached before the first turn agree with everything that comes after. -/
theorem counters_agree {slots : List (Slot α)} {portfolio : Portfolio α}
    {models : Dict (PathModel α)} {sampler : σ} {config : Config} {unseeded : Generator}
    {schedule : RoundRobin σ α} (made : Portfolio.ofSlots slots = .ok portfolio)
    (unused : ∀ slot ∈ slots, slot.dispatches = 0)
    (started : start portfolio models sampler config unseeded = .ok schedule) {own : MetricSet}
    (blank : own.Unused) {earlier events : List (Event α)} (idle : turns earlier = 0)
    (kept : ∀ event ∈ events, event.setsMetrics = false) (now : Nat) :
    let calls := earlier ++ .setMetrics own :: events
    let after := run calls schedule
    let attached := (run earlier schedule).withMetrics own
    CountersAgree (answers schedule calls) (answers attached events) (Scheduler.report now after)
        after.portfolio after.metrics ∧
      PassesAgree (outcomes schedule calls) (events.countP Event.isPass)
        (Scheduler.report now after) after := by
  intro calls after attached
  have hportfolio := portfolio_start started
  have hfirst : schedule.round = 0 ∧ schedule.applied = 0 := by
    obtain ⟨generator, rfl⟩ := exists_of_start started
    exact ⟨rfl, rfl⟩
  obtain ⟨hround, happlied, haccounts, hanswers, houtcomes⟩ := idle_run hfirst.1 idle
  have hafter : after = run events attached := List.foldl_append
  -- the events before were idle, so the metrics are attached to a schedule that has not begun
  have hblank : attached.metrics.Unused := blank.setLimits _
  have hdispatches : attached.portfolio.dispatches = 0 := by
    have hslots : attached.portfolio.dispatches = schedule.portfolio.dispatches :=
      Portfolio.dispatches_congr haccounts
    rw [hslots, hportfolio, Portfolio.dispatches_of_unused made unused]
  -- no answer and no applied pass is from before the metrics
  have hallAnswers : answers schedule calls = answers attached events := by
    show trace Event.answer? schedule (earlier ++ _) = _
    rw [trace_append, ← answers, hanswers]
    rfl
  have hallOutcomes : (outcomes schedule calls).countP Outcome.isApplied =
      (outcomes attached events).countP Outcome.isApplied := by
    show (trace Event.outcome? schedule (earlier ++ _)).countP _ = _
    rw [trace_append, List.countP_append, ← outcomes, houtcomes, Nat.zero_add]
    rfl
  -- the step lemmas, summed over the run
  have hadded := tallied_run attached kept
  rw [← hafter] at hadded
  rw [hallAnswers]
  have hslots := hadded.slots
  have hcounted := hadded.dispatches
  have hviolations := hadded.violations
  have hrounds := hadded.rounds
  have hchanged := hadded.applied
  have hshown := hadded.shown
  have hpasses := hadded.passes
  have hattachedRound : attached.round = 0 := hround
  have hattachedApplied : attached.applied = 0 := happlied.trans hfirst.2
  have hattachedPasses : attached.passes = 0 := by
    rw [passes, hblank.applied, hblank.skipped]
  -- what both started from is zero, so the sums are the counts
  rw [hdispatches, Nat.zero_add] at hslots
  rw [hblank.dispatches, Nat.zero_add] at hcounted
  rw [hblank.violations, Nat.zero_add] at hviolations
  rw [hblank.rounds, hattachedRound, Nat.zero_add, Nat.add_zero] at hrounds
  rw [hattachedApplied, Nat.zero_add] at hchanged
  rw [hblank.applied, Nat.zero_add] at hshown
  rw [hattachedPasses, hattachedRound, Nat.zero_add, Nat.add_zero] at hpasses
  refine ⟨⟨hcounted, hslots, hslots, hviolations⟩, ⟨rfl, hrounds⟩, ⟨?_, ?_⟩, hpasses⟩
  · rw [hallOutcomes]
    exact hchanged
  · rw [hallOutcomes]
    exact hshown

end RoundRobin

namespace Controlled

variable [Controller σ α] [Arith α]

/-- Metrics that are attached before the first turn agree with everything that comes after. -/
theorem counters_agree {slots : List (Slot α)} {portfolio : Portfolio α} {controller : σ}
    {config : Config} {schedule : Controlled σ α}
    (made : Portfolio.ofSlots slots = .ok portfolio)
    (unused : ∀ slot ∈ slots, slot.dispatches = 0)
    (started : start portfolio controller config = .ok schedule) {own : MetricSet}
    (blank : own.Unused) {earlier events : List (Event α)}
    (idle : ∀ answer ∈ answers schedule earlier, answer.handsOut = false)
    (kept : ∀ event ∈ events, event.setsMetrics = false) (now : Nat) :
    let calls := earlier ++ .setMetrics own :: events
    let after := run calls schedule
    CountersAgree (answers schedule calls) (answers ((run earlier schedule).withMetrics own) events)
      (Scheduler.report now after) after.portfolio after.metrics := by
  intro calls after
  have hslots := dispatches_run schedule calls
  have hidle : (answers schedule earlier).countP Answer.handsOut = 0 :=
    List.countP_eq_zero.mpr fun answer hanswer => by simp [idle answer hanswer]
  have hanswers : (answers schedule calls).countP Answer.handsOut =
      (answers ((run earlier schedule).withMetrics own) events).countP Answer.handsOut := by
    rw [answers_append, List.countP_append, hidle, Nat.zero_add]
    rfl
  have hblank : ((run earlier schedule).withMetrics own).metrics.Unused := blank.setLimits _
  have hafter : after = run events ((run earlier schedule).withMetrics own) :=
    List.foldl_append
  -- the metrics are new, so what they add is what they show
  have hadded := counted_run ((run earlier schedule).withMetrics own) kept
  rw [← hafter] at hadded
  have hcounted := hadded.dispatches
  have hviolations := hadded.violations
  rw [hblank.dispatches, Nat.zero_add, ← hanswers] at hcounted
  rw [hblank.violations, Nat.zero_add] at hviolations
  rw [portfolio_start started, Portfolio.dispatches_of_unused made unused, Nat.zero_add] at hslots
  exact ⟨hcounted, hslots, hslots, hviolations⟩

end Controlled

variable [Arith α]

/-- **All counters agree.** Take a schedule over slots that were never handed out, attach unused
metrics to it before its first turn, and call whatever you like, but keep these metrics. Then
the metrics, the report and the slots all count as many dispatches as calls for a turn
succeeded, and the metrics count as many violations as decisions named an unknown slot since. In
a schedule in turn, state, report and metrics also agree on the completed rounds and on the
passes that changed limits, which are those with that outcome; and every pass was counted once,
whether it changed the limits or not: one for each completed round and one for each time
somebody asked for it. -/
theorem counters_of_run {slots : List (Slot α)} {portfolio : Portfolio α}
    (made : Portfolio.ofSlots slots = .ok portfolio) (unused : ∀ slot ∈ slots, slot.dispatches = 0)
    {own : MetricSet} (blank : own.Unused) (now : Nat) :
    (∀ {σ : Type} [Controller σ α] {controller : σ} {config : Config} {schedule : Controlled σ α}
        {earlier events : List (Controlled.Event α)},
        Controlled.start portfolio controller config = .ok schedule →
        (∀ answer ∈ Controlled.answers schedule earlier, answer.handsOut = false) →
        (∀ event ∈ events, event.setsMetrics = false) →
          let calls := earlier ++ .setMetrics own :: events
          let after := Controlled.run calls schedule
          let attached := (Controlled.run earlier schedule).withMetrics own
          CountersAgree (Controlled.answers schedule calls) (Controlled.answers attached events)
            (Scheduler.report now after) after.portfolio after.metrics) ∧
      ∀ {σ : Type} [PathSampler σ] {models : Dict (PathModel α)} {sampler : σ} {config : Config}
        {unseeded : Generator} {schedule : RoundRobin σ α}
        {earlier events : List (RoundRobin.Event α)},
        RoundRobin.start portfolio models sampler config unseeded = .ok schedule →
        RoundRobin.turns earlier = 0 →
        (∀ event ∈ events, event.setsMetrics = false) →
          let calls := earlier ++ .setMetrics own :: events
          let after := RoundRobin.run calls schedule
          let attached := (RoundRobin.run earlier schedule).withMetrics own
          CountersAgree (RoundRobin.answers schedule calls) (RoundRobin.answers attached events)
              (Scheduler.report now after) after.portfolio after.metrics ∧
            RoundRobin.PassesAgree (RoundRobin.outcomes schedule calls)
              (events.countP RoundRobin.Event.isPass) (Scheduler.report now after) after := by
  constructor
  · intro σ _ controller config schedule earlier events started idle kept
    exact Controlled.counters_agree made unused started blank idle kept now
  · intro σ _ models sampler config unseeded schedule earlier events started idle kept
    exact RoundRobin.counters_agree made unused started blank idle kept now

/-- Three slots, two of them with the same identifier. A controller names an unknown slot before
the metrics are attached and once more after it; a schedule in turn is asked for a pass before
and after, and completes a round. -/
theorem counters_of_run_failing :
    let slots : List (Slot Float) := [.ofSpec ⟨"a", none⟩, .ofSpec ⟨"b", none⟩, .ofSpec ⟨"a", none⟩]
    let own := MetricSet.fresh "own"
    let engines : Engines Float := fun _ => ⟨none, 0.0⟩
    let decisions : List (Controlled.Event Float) := [.next, .hasNext, .next, .next]
    let turns : List (RoundRobin.Event Float) := [.next engines, .next engines, .rebalance engines,
      .operate 0 (.record [1]), .next engines, .next engines]
    let calls := [.next] ++ .setMetrics own :: decisions
    let calls' := [.rebalance engines] ++ .setMetrics own :: turns
    ∃ (portfolio : Portfolio Float) (controlled : Controlled (Replay Float) Float)
      (inTurn : RoundRobin PathFunction Float),
      Portfolio.ofSlots slots = .ok portfolio ∧ (∀ slot ∈ slots, slot.dispatches = 0) ∧ own.Unused ∧
        Controlled.start portfolio (.ofDecisions [⟨"z", 20⟩, ⟨"a", 30⟩, ⟨"z", 20⟩, ⟨"b", 20⟩])
          Config.default = .ok controlled ∧
        RoundRobin.start portfolio Dict.empty ⟨fun _ _ => []⟩ Config.default (Generator.ofSeed 3) =
          .ok inTurn ∧
        (Scheduler.report 0 (Controlled.run calls controlled)).dispatches = 2 ∧
        (Controlled.run calls controlled).metrics.dispatches = 2 ∧
        (Controlled.run calls controlled).metrics.violations = 1 ∧
        (Scheduler.report 0 (RoundRobin.run calls' inTurn)).dispatches = 4 ∧
        (RoundRobin.run calls' inTurn).metrics.rounds = 1 ∧
        (RoundRobin.run calls' inTurn).metrics.applied +
          (RoundRobin.run calls' inTurn).metrics.skipped = 2 := by
  intro slots own engines decisions turns calls calls'
  obtain ⟨portfolio, hportfolio⟩ : ∃ portfolio, Portfolio.ofSlots slots = .ok portfolio := ⟨_, rfl⟩
  obtain ⟨controlled, hcontrolled⟩ : ∃ controlled : Controlled (Replay Float) Float,
      Controlled.start portfolio (.ofDecisions [⟨"z", 20⟩, ⟨"a", 30⟩, ⟨"z", 20⟩, ⟨"b", 20⟩])
        Config.default = .ok controlled := ⟨_, rfl⟩
  obtain ⟨inTurn, hinTurn⟩ : ∃ inTurn : RoundRobin PathFunction Float,
      RoundRobin.start portfolio Dict.empty ⟨fun _ _ => []⟩ Config.default (Generator.ofSeed 3) =
        .ok inTurn := ⟨_, rfl⟩
  have hunused : ∀ slot ∈ slots, slot.dispatches = 0 := by simp [slots, Slot.ofSpec]
  have hblank : own.Unused := MetricSet.unused_fresh "own"
  -- the first call fails, before the metrics are attached
  have hanswers : (Controlled.answers controlled [.next]).map Answer.handsOut = [false] ∧
      (Controlled.answers controlled calls).countP Answer.handsOut = 2 ∧
      (Controlled.answers ((Controlled.run [.next] controlled).withMetrics own)
        decisions).countP Answer.isViolation = 1 := by
    cases hportfolio
    cases hcontrolled
    exact ⟨rfl, rfl, rfl⟩
  have hturns : (RoundRobin.answers inTurn calls').countP Answer.handsOut = 4 ∧
      (RoundRobin.run calls' inTurn).round = 1 := by
    cases hportfolio
    cases hinTurn
    decide +kernel
  have hfirst : ∀ answer ∈ Controlled.answers controlled [.next], answer.handsOut = false := by
    intro answer hanswer
    have hmem := @List.mem_map_of_mem _ _ _ _ Answer.handsOut hanswer
    rw [hanswers.1] at hmem
    exact List.mem_singleton.mp hmem
  obtain ⟨hdecisions, hrounds⟩ := counters_of_run hportfolio hunused hblank 0
  have hcontrolledAgree := @hdecisions _ _ _ _ _ [.next] decisions hcontrolled hfirst
    (by simp [decisions, Controlled.Event.setsMetrics])
  obtain ⟨hagree, hpasses⟩ := @hrounds _ _ _ _ _ _ _ [.rebalance engines] turns hinTurn rfl
    (by simp [turns, RoundRobin.Event.setsMetrics])
  refine ⟨portfolio, controlled, inTurn, hportfolio, hunused, hblank, hcontrolled, hinTurn, ?_,
    ?_, ?_, ?_, ?_, ?_⟩
  · exact hcontrolledAgree.report_eq.trans hanswers.2.1
  · exact hcontrolledAgree.metrics_eq.trans hanswers.2.1
  · exact hcontrolledAgree.violations_eq.trans hanswers.2.2
  · rw [hagree.report_eq]
    exact hturns.1
  · rw [hpasses.rounds_eq.2]
    exact hturns.2
  · rw [hpasses.passes_eq, hturns.2]
    rfl

end AlgorithmPortfolio
