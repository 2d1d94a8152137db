import AlgorithmPortfolio.Proofs.Rebalance.Pass
import AlgorithmPortfolio.Proofs.Slot.Operation
import AlgorithmPortfolio.Schedule.RoundRobin

/-!
# Runs of a schedule in turn

A run is any sequence of the calls that change a schedule: turns, passes that somebody asks for,
new models or metrics, and changes of slots. Engines answer differently at different times, so
every call that asks them brings their answers along.

- `RoundRobin.Event`, `RoundRobin.run`: the calls and what they leave.
- `RoundRobin.turns`: how many turns a run asks for.
- `exists_of_start`: what a start leaves.
- `run_induction`: what turns and all other calls preserve holds after every run.
- `RoundRobin.accounts`: the slots with their dispatches. Only turns change them
  (`accounts_step`).
-/

namespace AlgorithmPortfolio.RoundRobin

variable {σ α : Type}

/-- A call that changes a schedule. -/
inductive Event (α : Type)
  | next (engines : Engines α)
  | rebalance (engines : Engines α)
  | setModel (id : String) (model : PathModel α)
  | setMetrics (metrics : MetricSet)
  | operate (position : Nat) (operation : Slot.Operation α)

/-- Whether a call asks for a turn. -/
def Event.isNext : Event α → Bool
  | .next _ => true
  | _ => false

/-- How many of the calls ask for a turn. -/
def turns (events : List (Event α)) : Nat := events.countP Event.isNext

/-- The identifiers and dispatches of all slots. -/
def accounts (schedule : RoundRobin σ α) : List (String × Nat) :=
  schedule.portfolio.slots.map Slot.account

@[simp] theorem length_accounts (schedule : RoundRobin σ α) :
    schedule.accounts.length = schedule.portfolio.size := by
  rw [accounts, List.length_map, Portfolio.size]

/-! ## Start -/

section Start

variable {portfolio : Portfolio α} {models : Dict (PathModel α)} {sampler : σ} {config : Config}
  {unseeded : Generator} {schedule : RoundRobin σ α}

/-- A schedule is started before its first round, with models by identifier and unused
metrics. -/
theorem exists_of_start (h : start portfolio models sampler config unseeded = .ok schedule) :
    ∃ generator, schedule = {
      portfolio
      models := portfolio.slots.map fun slot => models.get? slot.id
      draws := ⟨sampler, generator⟩
      knobs := config.rebalance
      cursor := 0
      inCycle := 0
      round := 0
      current := none
      applied := 0
      lastOutcome := none
      metrics := (MetricSet.fresh config.metricsPrefix).setLimits portfolio.limitsById } := by
  unfold start at h
  cases hvalid : config.validate with
  | error cause =>
    rw [hvalid] at h
    cases h
  | ok =>
    rw [hvalid] at h
    cases h
    exact ⟨_, rfl⟩

/-- A schedule is started with the given portfolio. -/
theorem portfolio_start (h : start portfolio models sampler config unseeded = .ok schedule) :
    schedule.portfolio = portfolio := by
  obtain ⟨generator, rfl⟩ := exists_of_start h
  rfl

/-- The metrics that a schedule is started with are as good as attached ones. -/
theorem withMetrics_start (h : start portfolio models sampler config unseeded = .ok schedule) :
    schedule.withMetrics (.fresh config.metricsPrefix) = schedule := by
  obtain ⟨generator, rfl⟩ := exists_of_start h
  rfl

end Start

/-! ## Runs -/

variable [PathSampler σ] [Arith α]

/-- The schedule after a call. -/
def Event.step (schedule : RoundRobin σ α) : Event α → RoundRobin σ α
  | .next engines => (schedule.next engines).2
  | .rebalance engines => (schedule.rebalance engines).2
  | .setModel id model => schedule.setModel id model
  | .setMetrics metrics => schedule.withMetrics metrics
  | .operate position operation =>
    Scheduler.update position (fun slot => operation.apply slot) schedule

/-- The schedule after calls. -/
def run (events : List (Event α)) (schedule : RoundRobin σ α) : RoundRobin σ α :=
  events.foldl Event.step schedule

/-- What turns and all other calls preserve holds after every run. -/
theorem run_induction {motive : Nat → RoundRobin σ α → Prop}
    (next : ∀ calls schedule engines, motive calls schedule →
      motive (calls + 1) (schedule.next engines).2)
    (other : ∀ calls schedule (event : Event α), event.isNext = false → motive calls schedule →
      motive calls (event.step schedule))
    (events : List (Event α)) {calls : Nat} {schedule : RoundRobin σ α}
    (h : motive calls schedule) : motive (calls + turns events) (run events schedule) := by
  -- the motive goes with the calls for a turn, so the count is generalized too
  induction events generalizing calls schedule with
  | nil => exact h
  | cons event rest ih =>
    show motive _ (run rest (event.step schedule))
    -- only `next` moves the count
    cases hnext : event.isNext with
    | true =>
      obtain ⟨engines, rfl⟩ : ∃ engines, event = .next engines := by
        cases event with
        | next engines => exact ⟨engines, rfl⟩
        | _ => cases hnext
      have hturns : calls + turns (Event.next engines :: rest) = calls + 1 + turns rest := by
        rw [turns, List.countP_cons_of_pos hnext, turns]
        omega
      rw [hturns]
      exact ih (next calls schedule engines h)
    | false =>
      have hturns : turns (event :: rest) = turns rest := by
        rw [turns, List.countP_cons_of_neg (by simp [hnext]), turns]
      rw [hturns]
      exact ih (other calls schedule event hnext h)

/-! ## Accounts -/

/-- A pass hands nothing out. -/
@[simp] theorem accounts_rebalance (engines : Engines α) (schedule : RoundRobin σ α) :
    (schedule.rebalance engines).2.accounts = schedule.accounts :=
  Rebalance.map_slots_pass (fun _ _ _ => rfl) engines schedule.knobs schedule.round schedule.models
    schedule.portfolio.slots schedule.draws

/-- A change of a slot by a caller hands nothing out. -/
theorem accounts_operate (position : Nat) (operation : Slot.Operation α)
    (schedule : RoundRobin σ α) :
    (Scheduler.update position (fun slot => operation.apply slot) schedule).accounts =
      schedule.accounts :=
  Portfolio.map_modify_of_frame (fun slot => Slot.account_apply slot operation) position
    schedule.portfolio

/-- Only turns change the accounts, and the counters that turns go by. -/
theorem accounts_step (schedule : RoundRobin σ α) (event : Event α) (h : event.isNext = false) :
    (event.step schedule).accounts = schedule.accounts ∧
      (event.step schedule).cursor = schedule.cursor ∧
      (event.step schedule).inCycle = schedule.inCycle ∧
      (event.step schedule).round = schedule.round := by
  cases event with
  | next engines => cases h
  | rebalance engines => exact ⟨accounts_rebalance engines schedule, rfl, rfl, rfl⟩
  | setModel id model => exact ⟨rfl, rfl, rfl, rfl⟩
  | setMetrics metrics => exact ⟨rfl, rfl, rfl, rfl⟩
  | operate position operation =>
    exact ⟨accounts_operate position operation schedule, rfl, rfl, rfl⟩

end AlgorithmPortfolio.RoundRobin
