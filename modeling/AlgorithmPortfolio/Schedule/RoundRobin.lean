import AlgorithmPortfolio.Metrics.Basic
import AlgorithmPortfolio.Rebalance.Pass
import AlgorithmPortfolio.Schedule.Scheduler
import AlgorithmPortfolio.Slot.Text

/-!
# Schedules in turn

Every slot takes its turn, and after each round a reallocation pass sets the limits of the next
one. Measurements are dropped after the pass, so that every round is judged by its own.

- `RoundRobin σ α`: the state of a schedule with path sampler states `σ`.
- `RoundRobin.start`: a schedule before its first turn.
- `RoundRobin.rebalance`: one pass, with what it leaves in the counters.
- `RoundRobin.next`: the next turn.
-/

namespace AlgorithmPortfolio

open Rebalance (Draws Outcome)

variable {σ α : Type} [PathSampler σ] [Arith α]

/-- A schedule in which every slot takes its turn. -/
structure RoundRobin (σ α : Type) where
  portfolio : Portfolio α
  /-- The models in the order of the slots. -/
  models : List (Option (PathModel α))
  draws : Draws σ
  knobs : Knobs
  /-- The position of the next turn. -/
  cursor : Nat
  /-- How many turns the running round has had. -/
  inCycle : Nat
  /-- How many rounds were completed. -/
  round : Nat
  /-- The position of the slot handed out last. -/
  current : Option Nat
  /-- How many passes changed the limits. -/
  applied : Nat
  lastOutcome : Option Outcome
  metrics : MetricSet

namespace RoundRobin

/-! ## Start -/

/-- A schedule before its first turn, with models by identifier. Without a seed in the settings
random numbers come from the given generator. -/
def start (portfolio : Portfolio α) (models : Dict (PathModel α)) (sampler : σ) (config : Config)
    (unseeded : Generator) : Except PortfolioError (RoundRobin σ α) := do
  config.validate
  let generator := match config.rebalance.seed with
    | some seed => Generator.ofSeed (UInt64.ofNat seed)
    | none => unseeded
  return {
    portfolio
    models := portfolio.slots.map fun slot => models.get? slot.id
    draws := ⟨sampler, generator⟩
    knobs := config.rebalance
    cursor := 0
    inCycle := 0
    round := 0
    current := none
    applied := 0
    lastOutcome := none
    metrics := (MetricSet.fresh config.metricsPrefix).setLimits portfolio.limitsById }

/-- The schedule with other metrics, which show the limits of its slots. -/
def withMetrics (metrics : MetricSet) (schedule : RoundRobin σ α) : RoundRobin σ α :=
  { schedule with metrics := metrics.setLimits schedule.portfolio.limitsById }

/-- The schedule with a model for every slot with an identifier. -/
def setModel (id : String) (model : PathModel α) (schedule : RoundRobin σ α) : RoundRobin σ α :=
  let renew (slot : Slot α) (old : Option (PathModel α)) := if slot.id = id then some model else old
  { schedule with models := List.zipWith renew schedule.portfolio.slots schedule.models }

/-! ## Passes -/

/-- The metrics after a pass: new limits are shown, a skipped pass is counted. -/
def metricsAfter (outcome : Outcome) (limits : List (String × Nat)) (metrics : MetricSet) :
    MetricSet :=
  match outcome with
  | .applied _ _ => (metrics.recordRebalance true).setLimits limits
  | .skipped _ => metrics.recordRebalance false

/-- One reallocation pass over the current measurements. -/
def rebalance (engines : Engines α) (schedule : RoundRobin σ α) : Outcome × RoundRobin σ α :=
  let (outcome, slots, draws) :=
    Rebalance.pass engines schedule.knobs schedule.round schedule.models
    schedule.portfolio.slots schedule.draws
  let portfolio := { schedule.portfolio with slots }
  (outcome, { schedule with
    portfolio
    draws
    applied := if outcome.isApplied then schedule.applied + 1 else schedule.applied
    lastOutcome := some outcome
    metrics := metricsAfter outcome portfolio.limitsById schedule.metrics })

/-! ## Turns -/

/-- The schedule after the round that ends here: a pass, and then no measurements. -/
def finishRound (engines : Engines α) (schedule : RoundRobin σ α) : RoundRobin σ α :=
  let counted := { schedule with
    round := schedule.round + 1
    metrics := schedule.metrics.recordRound }
  -- the pass still sees the measurements of the round that ends
  let rebalanced := (counted.rebalance engines).2
  { rebalanced with portfolio := rebalanced.portfolio.mapSlots Slot.reset, inCycle := 0 }

/-- Hand out a slot at the cursor. -/
def dispatch (slot : Slot α) (schedule : RoundRobin σ α) : Turn α × RoundRobin σ α :=
  let slot := slot.dispatch
  (⟨schedule.cursor, slot⟩, { schedule with
    portfolio := schedule.portfolio.modify schedule.cursor fun _ => slot
    cursor := (schedule.cursor + 1) % schedule.portfolio.size
    inCycle := schedule.inCycle + 1
    current := some schedule.cursor
    metrics := schedule.metrics.recordDispatch slot.id slot.limit })

/-- Hand out the slot whose turn it is; a completed round is finished first. -/
def next (engines : Engines α) (schedule : RoundRobin σ α) :
    Except PortfolioError (Turn α) × RoundRobin σ α :=
  let schedule :=
    if schedule.inCycle = schedule.portfolio.size then schedule.finishRound engines else schedule
  -- a portfolio has slots, so there is one at the cursor
  match schedule.portfolio.get? schedule.cursor with
  | none => (.error .emptyPortfolio, schedule)
  | some slot =>
    let (turn, schedule) := schedule.dispatch slot
    (.ok turn, schedule)

instance : Scheduler (RoundRobin σ α) α where
  portfolio := portfolio
  setPortfolio portfolio schedule := { schedule with portfolio }
  current := current
  hasNext schedule := (true, schedule)
  next := next
  report now schedule :=
    { Schedule.Report.ofPortfolio "adaptive" now schedule.portfolio with
      rounds := schedule.round
      applied := schedule.applied }

end RoundRobin

end AlgorithmPortfolio
