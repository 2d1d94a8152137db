import AlgorithmPortfolio.Proofs.Rebalance.Verdict
import AlgorithmPortfolio.Proofs.Schedule.Run
import Mathlib.Algebra.Order.Floor.Div

/-!
# Whose turn it is

A schedule in turn keeps three counters: the position of the next turn, the turns of the running
round, and the completed rounds. All three are settled by the number of turns so far, whatever
else happens between them.

- `turnsAt`: how many of the first turns a position has. The next turn adds one for the position
  whose turn it is (`turnsAt_succ`).
- `RoundRobin.atTurn`: the schedule when a slot is handed out, with a completed round finished.
- `Paced`: the counters and accounts after a number of turns. Every call keeps them
  (`paced_run`).
- `knobs_run`, `sampleSize_pos_of_run`: the settings of the pass, which no call changes.
- `next_of_run`: what the next turn is and what it leaves, after any run.
-/

namespace AlgorithmPortfolio

/-! ## Turns of a position -/

/-- How many of the first `calls` turns among `size` positions belong to a position. -/
def turnsAt (size calls position : Nat) : Nat := (calls - position) ⌈/⌉ size

/-- Every full round has one turn for each position, the rest of a round for those in front. -/
theorem turnsAt_eq {size position : Nat} (h : position < size) (rounds : Nat) {rest : Nat}
    (hrest : rest < size) :
    turnsAt size (rounds * size + rest) position = rounds + if position < rest then 1 else 0 := by
  rw [turnsAt, Nat.ceilDiv_eq_add_pred_div]
  -- a position before the cursor has had its turn of the round that is running
  by_cases hfront : position < rest
  · have hsplit : rounds * size + rest - position + size - 1 =
        (rest - position - 1) + size * (rounds + 1) := by
      rw [Nat.mul_comm rounds, Nat.mul_succ]
      omega
    rw [if_pos hfront, hsplit, Nat.add_mul_div_left _ _ (by omega), Nat.div_eq_of_lt (by omega)]
    omega
  · rw [if_neg hfront]
    cases rounds with
    | zero =>
      rw [Nat.zero_mul]
      exact Nat.div_eq_of_lt (by omega)
    | succ rounds =>
      have hsplit : (rounds + 1) * size + rest - position + size - 1 =
          (rest + size - 1 - position) + size * (rounds + 1) := by
        rw [Nat.mul_comm _ size, Nat.mul_succ]
        omega
      rw [hsplit, Nat.add_mul_div_left _ _ (by omega), Nat.div_eq_of_lt (by omega)]
      omega

/-- The next turn is one more for the position whose turn it is. -/
theorem turnsAt_succ {size position : Nat} (h : position < size) (calls : Nat) :
    turnsAt size (calls + 1) position =
      turnsAt size calls position + if position = calls % size then 1 else 0 := by
  -- split the calls into full rounds and a rest
  have hrest := Nat.mod_lt calls (Nat.zero_lt_of_lt h)
  have hcalls : calls / size * size + calls % size = calls := Nat.div_add_mod' calls size
  generalize calls / size = rounds at hcalls
  generalize calls % size = rest at hrest hcalls
  subst hcalls
  rw [turnsAt_eq h rounds hrest]
  -- the call that fills a round starts the next one at rest 0
  by_cases hlast : rest + 1 = size
  · have hfull : rounds * size + rest + 1 = (rounds + 1) * size + 0 := by
      rw [Nat.add_mul]
      omega
    rw [hfull, turnsAt_eq h (rounds + 1) (by omega)]
    split_ifs <;> omega
  · rw [Nat.add_assoc, turnsAt_eq h rounds (by omega)]
    split_ifs <;> omega

/-- Identifiers and dispatches after a number of turns, by those before the first turn. -/
def accountsAt (origin : List (String × Nat)) (calls : Nat) : List (String × Nat) :=
  origin.mapIdx fun position account =>
    (account.1, account.2 + turnsAt origin.length calls position)

@[simp] theorem length_accountsAt (origin : List (String × Nat)) (calls : Nat) :
    (accountsAt origin calls).length = origin.length :=
  List.length_mapIdx

theorem accountsAt_zero (origin : List (String × Nat)) : accountsAt origin 0 = origin := by
  refine List.mapIdx_eq_iff.mpr fun position => ?_
  rw [turnsAt, Nat.zero_sub, zero_ceilDiv]
  exact Option.map_id'.symm

/-- The next turn adds a dispatch at the position whose turn it is. -/
theorem accountsAt_succ (origin : List (String × Nat)) (calls : Nat) :
    accountsAt origin (calls + 1) =
      (accountsAt origin calls).modify (calls % origin.length) fun account =>
        (account.1, account.2 + 1) := by
  refine List.ext_getElem? fun position => ?_
  -- only the position whose turn it is counts one more, and positions past the end do not exist
  by_cases hposition : position < origin.length
  · have hsucc := turnsAt_succ hposition calls
    by_cases hturn : calls % origin.length = position
    · rw [hturn, List.getElem?_modify_eq, accountsAt, accountsAt, List.getElem?_mapIdx,
        List.getElem?_mapIdx, List.getElem?_eq_getElem hposition, hsucc, if_pos hturn.symm]
      rfl
    · rw [List.getElem?_modify_ne _ _ hturn, accountsAt, accountsAt, List.getElem?_mapIdx,
        List.getElem?_mapIdx, hsucc, if_neg fun h => hturn h.symm, Nat.add_zero]
  · have hout := Nat.not_lt.mp hposition
    rw [List.getElem?_eq_none (by simpa using hout), List.getElem?_eq_none (by simpa using hout)]

namespace RoundRobin

open Rebalance (Outcome)

variable {σ α : Type}

/-! ## A turn -/

/-- The schedule with the round that ends counted, as a pass at its end sees it. -/
def counted (schedule : RoundRobin σ α) : RoundRobin σ α :=
  { schedule with
    round := schedule.round + 1
    metrics := schedule.metrics.recordRound }

/-- How many passes the metrics counted. -/
def passes (schedule : RoundRobin σ α) : Nat := schedule.metrics.applied + schedule.metrics.skipped

/-- The portfolio with one dispatch more of the slot at the cursor. -/
theorem portfolio_dispatch {schedule : RoundRobin σ α} {slot : Slot α}
    (h : schedule.portfolio.get? schedule.cursor = some slot) :
    (schedule.dispatch slot).2.portfolio =
      schedule.portfolio.modify schedule.cursor Slot.dispatch :=
  Portfolio.modify_const h Slot.dispatch

/-- A slot that is handed out has one dispatch more. -/
theorem accounts_dispatch {schedule : RoundRobin σ α} {slot : Slot α}
    (h : schedule.portfolio.get? schedule.cursor = some slot) :
    (schedule.dispatch slot).2.accounts =
      schedule.accounts.modify schedule.cursor fun account => (account.1, account.2 + 1) := by
  rw [accounts, portfolio_dispatch h]
  exact Portfolio.map_modify Slot.account_dispatch schedule.cursor schedule.portfolio

/-- A slot that is handed out keeps its limit. -/
theorem limits_dispatch {schedule : RoundRobin σ α} {slot : Slot α}
    (h : schedule.portfolio.get? schedule.cursor = some slot) :
    (schedule.dispatch slot).2.portfolio.limits = schedule.portfolio.limits := by
  have hlimit (slot : Slot α) : slot.dispatch.limit = slot.limit := rfl
  rw [portfolio_dispatch h]
  exact Portfolio.map_modify_of_frame hlimit schedule.cursor schedule.portfolio

/-- The slot that is handed out is the one that the portfolio has at the cursor afterwards. -/
theorem get?_dispatch {schedule : RoundRobin σ α} {slot : Slot α}
    (h : schedule.portfolio.get? schedule.cursor = some slot) :
    (schedule.dispatch slot).2.portfolio.get? schedule.cursor = some slot.dispatch := by
  have hslot : schedule.portfolio.slots[schedule.cursor]? = some slot := h
  rw [portfolio_dispatch h, Portfolio.get?, Portfolio.modify, List.getElem?_modify_eq, hslot]
  rfl

/-! ## Pace -/

/-- The counters and accounts of a schedule after a number of turns, by the accounts that it
started with. -/
structure Paced (origin : List (String × Nat)) (calls : Nat) (schedule : RoundRobin σ α) :
    Prop where
  accounts : schedule.accounts = accountsAt origin calls
  cursor : schedule.cursor = calls % origin.length
  /-- Every turn belongs to a completed round or to the running one. -/
  count : schedule.round * origin.length + schedule.inCycle = calls
  bound : schedule.inCycle ≤ origin.length
  /-- A completed round is finished by the turn after it, which is one of the next round. -/
  begun : 0 < calls → 0 < schedule.inCycle

theorem Paced.size {origin : List (String × Nat)} {calls : Nat} {schedule : RoundRobin σ α}
    (h : Paced origin calls schedule) : schedule.portfolio.size = origin.length := by
  rw [← length_accounts, h.accounts, length_accountsAt]

/-- A round is complete exactly if as many turns as whole rounds were had. -/
theorem Paced.complete_iff {origin : List (String × Nat)} {calls : Nat} {schedule : RoundRobin σ α}
    (h : Paced origin calls schedule) (hne : 0 < origin.length) :
    schedule.inCycle = origin.length ↔ ∃ k, 1 ≤ k ∧ calls + 1 = k * origin.length + 1 := by
  constructor
  · intro hfull
    refine ⟨schedule.round + 1, by omega, ?_⟩
    rw [← h.count, hfull, Nat.succ_mul]
  · rintro ⟨k, hk, hcalls⟩
    -- what is counted in full rounds is a multiple of the size, so the running round is one too
    have hround : origin.length ∣ schedule.round * origin.length + schedule.inCycle := by
      rw [h.count, Nat.succ.inj hcalls]
      exact Nat.dvd_mul_left _ _
    have hdvd : origin.length ∣ schedule.inCycle :=
      (Nat.dvd_add_right (Nat.dvd_mul_left _ _)).mp hround
    have hpos : 0 < calls := by
      rw [Nat.succ.inj hcalls]
      exact Nat.mul_pos hk hne
    exact Nat.le_antisymm h.bound (Nat.le_of_dvd (h.begun hpos) hdvd)

/-- The completed rounds after a turn. -/
theorem Paced.round_eq {origin : List (String × Nat)} {calls : Nat} {schedule : RoundRobin σ α}
    (h : Paced origin (calls + 1) schedule) : schedule.round = calls / origin.length := by
  have hbegun := h.begun (Nat.succ_pos calls)
  have hcount := h.count
  have hbound := h.bound
  symm
  rw [Nat.div_eq_iff (Nat.lt_of_lt_of_le hbegun hbound)]
  omega

/-- A schedule before its first turn. -/
theorem paced_start {portfolio : Portfolio α} {models : Dict (PathModel α)} {sampler : σ}
    {config : Config} {unseeded : Generator} {schedule : RoundRobin σ α}
    (h : start portfolio models sampler config unseeded = .ok schedule) :
    Paced (portfolio.slots.map Slot.account) 0 schedule := by
  unfold start at h
  cases hvalid : config.validate with
  | error cause =>
    rw [hvalid] at h
    cases h
  | ok =>
    rw [hvalid] at h
    cases h
    refine ⟨(accountsAt_zero _).symm, (Nat.zero_mod _).symm, ?_, Nat.zero_le _,
      fun h => absurd h (Nat.lt_irrefl 0)⟩
    show 0 * _ + 0 = 0
    rw [Nat.zero_mul]

/-! ## Passes and turns -/

variable [PathSampler σ] [Arith α]

/-- Every pass is counted once. -/
theorem passes_rebalance (engines : Engines α) (schedule : RoundRobin σ α) :
    (schedule.rebalance engines).2.passes = schedule.passes + 1 := by
  rcases hpass : schedule.currentPass engines with ⟨outcome, slots, draws⟩
  rw [rebalance_of_pass hpass]
  unfold passes afterPass
  -- whatever the outcome, one of the two counters of passes goes up
  cases outcome with
  | applied budget limits =>
    obtain ⟨shown, hshown⟩ := MetricSet.exists_setLimits
      (Portfolio.limitsById { schedule.portfolio with slots })
        (schedule.metrics.recordRebalance true)
    simp only [metricsAfter, hshown]
    show schedule.metrics.applied + 1 + schedule.metrics.skipped = _
    omega
  | skipped reason => rfl

/-- The schedule when a slot is handed out: a completed round was finished. -/
def atTurn (engines : Engines α) (schedule : RoundRobin σ α) : RoundRobin σ α :=
  if schedule.inCycle = schedule.portfolio.size then schedule.finishRound engines else schedule

/-- The end of a round hands nothing out. -/
theorem accounts_finishRound (engines : Engines α) (schedule : RoundRobin σ α) :
    (schedule.finishRound engines).accounts = schedule.accounts := by
  have hreset : (schedule.finishRound engines).accounts =
      (schedule.counted.rebalance engines).2.accounts := by
    show ((schedule.counted.rebalance engines).2.portfolio.slots.map Slot.reset).map
      Slot.account = _
    rw [List.map_map]
    rfl
  rw [hreset, accounts_rebalance]
  rfl

/-- A slot at the cursor is handed out. -/
theorem next_of_slot {engines : Engines α} {schedule : RoundRobin σ α} {slot : Slot α}
    (h : (schedule.atTurn engines).portfolio.get? (schedule.atTurn engines).cursor = some slot) :
    schedule.next engines =
      (.ok ((schedule.atTurn engines).dispatch slot).1,
        ((schedule.atTurn engines).dispatch slot).2) := by
  unfold atTurn at h ⊢
  unfold next
  dsimp only
  rw [h]

/-- Without a slot at the cursor nothing is handed out. -/
theorem next_of_none {engines : Engines α} {schedule : RoundRobin σ α}
    (h : (schedule.atTurn engines).portfolio.get? (schedule.atTurn engines).cursor = none) :
    schedule.next engines = (.error .emptyPortfolio, schedule.atTurn engines) := by
  unfold atTurn at h ⊢
  unfold next
  dsimp only
  rw [h]

/-- Whether there is a slot at the cursor or not, a turn does no more to the slots than to add a
dispatch there. -/
theorem portfolio_next (engines : Engines α) (schedule : RoundRobin σ α) :
    (schedule.next engines).2.portfolio =
      (schedule.atTurn engines).portfolio.modify
        (schedule.atTurn engines).cursor Slot.dispatch := by
  cases hslot : (schedule.atTurn engines).portfolio.get? (schedule.atTurn engines).cursor with
  | some slot =>
    rw [next_of_slot hslot]
    exact portfolio_dispatch hslot
  | none =>
    have hlength := List.getElem?_eq_none_iff.mp hslot
    rw [next_of_none hslot, Portfolio.modify, List.modify_eq_self hlength]

/-! ## Calls keep the settings -/

/-- A turn keeps the settings of the pass. -/
theorem knobs_next (engines : Engines α) (schedule : RoundRobin σ α) :
    (schedule.next engines).2.knobs = schedule.knobs := by
  have hturn : (schedule.atTurn engines).knobs = schedule.knobs := by
    unfold atTurn
    split
    · rfl
    · rfl
  cases hslot : (schedule.atTurn engines).portfolio.get? (schedule.atTurn engines).cursor with
  | some slot =>
    rw [next_of_slot hslot]
    exact hturn
  | none =>
    rw [next_of_none hslot]
    exact hturn

theorem knobs_run (events : List (Event α)) (schedule : RoundRobin σ α) :
    (run events schedule).knobs = schedule.knobs := by
  have hstep (schedule : RoundRobin σ α) (event : Event α) :
      (event.step schedule).knobs = schedule.knobs := by
    cases event with
    | next engines => exact knobs_next engines schedule
    | _ => rfl
  exact List.foldlRecOn (motive := fun reached : RoundRobin σ α => reached.knobs = schedule.knobs)
    events Event.step rfl fun reached hreached event _ => (hstep reached event).trans hreached

/-- A schedule is started with valid settings, so every vote samples some path. -/
theorem sampleSize_pos_of_run {portfolio : Portfolio α} {models : Dict (PathModel α)} {sampler : σ}
    {config : Config} {unseeded : Generator} {schedule : RoundRobin σ α}
    (started : start portfolio models sampler config unseeded = .ok schedule)
    (events : List (Event α)) : 0 < (run events schedule).knobs.sampleSize := by
  have valid : config.validate = .ok () := by
    unfold start at started
    -- the settings are checked before anything else
    cases hvalid : config.validate with
    | error cause =>
      rw [hvalid] at started
      cases started
    | ok => rfl
  obtain ⟨generator, rfl⟩ := exists_of_start started
  rw [knobs_run]
  exact Config.pos_of_mem_positives valid ("rebalance.sample_size", config.rebalance.sampleSize)
    (by simp [Config.positives])

/-! ## Calls keep the pace -/

/-- Other calls keep the pace. -/
theorem paced_step {origin : List (String × Nat)} {calls : Nat} {schedule : RoundRobin σ α}
    (event : Event α) (hother : event.isNext = false) (h : Paced origin calls schedule) :
    Paced origin calls (event.step schedule) := by
  obtain ⟨haccounts, hcursor, hcycle, hround⟩ := accounts_step schedule event hother
  constructor
  · rw [haccounts, h.accounts]
  · rw [hcursor, h.cursor]
  · rw [hround, hcycle, h.count]
  · rw [hcycle]
    exact h.bound
  · rw [hcycle]
    exact h.begun

/-- When a slot is handed out, the running round is not complete. -/
theorem paced_atTurn {origin : List (String × Nat)} (hne : 0 < origin.length) {calls : Nat}
    {schedule : RoundRobin σ α} (engines : Engines α) (h : Paced origin calls schedule) :
    (schedule.atTurn engines).accounts = accountsAt origin calls ∧
      (schedule.atTurn engines).cursor = calls % origin.length ∧
      (schedule.atTurn engines).round * origin.length + (schedule.atTurn engines).inCycle = calls ∧
      (schedule.atTurn engines).inCycle < origin.length := by
  unfold atTurn
  rw [h.size]
  by_cases hfull : schedule.inCycle = origin.length
  · rw [if_pos hfull]
    refine ⟨(accounts_finishRound engines schedule).trans h.accounts, h.cursor, ?_, hne⟩
    show (schedule.round + 1) * origin.length + 0 = calls
    rw [← h.count, hfull, Nat.succ_mul, Nat.add_zero]
  · rw [if_neg hfull]
    exact ⟨h.accounts, h.cursor, h.count, Nat.lt_of_le_of_ne h.bound hfull⟩

/-- A turn succeeds, and keeps the pace. -/
theorem paced_next {origin : List (String × Nat)} (hne : 0 < origin.length) {calls : Nat}
    {schedule : RoundRobin σ α} (engines : Engines α) (h : Paced origin calls schedule) :
    ∃ slot, (schedule.atTurn engines).portfolio.get? (calls % origin.length) = some slot ∧
      (schedule.atTurn engines).cursor = calls % origin.length ∧
      schedule.next engines =
        (.ok ((schedule.atTurn engines).dispatch slot).1,
          ((schedule.atTurn engines).dispatch slot).2) ∧
      Paced origin (calls + 1) ((schedule.atTurn engines).dispatch slot).2 := by
  -- whether or not the round ends first, the state at the turn is paced
  obtain ⟨haccounts, hcursor, hcount, hrunning⟩ := paced_atTurn hne engines h
  have hsize : (schedule.atTurn engines).portfolio.size = origin.length := by
    rw [← length_accounts, haccounts, length_accountsAt]
  have hlt : calls % origin.length < (schedule.atTurn engines).portfolio.slots.length :=
    Nat.lt_of_lt_of_eq (Nat.mod_lt calls hne) hsize.symm
  have hslot := List.getElem?_eq_getElem hlt
  generalize (schedule.atTurn engines).portfolio.slots[calls % origin.length] = slot at hslot
  have hat : (schedule.atTurn engines).portfolio.get? (schedule.atTurn engines).cursor =
      some slot := by
    rw [hcursor]
    exact hslot
  refine ⟨slot, hslot, hcursor, next_of_slot hat, ?_⟩
  constructor
  · rw [accounts_dispatch hat, haccounts, hcursor, accountsAt_succ]
  · show ((schedule.atTurn engines).cursor + 1) % (schedule.atTurn engines).portfolio.size = _
    rw [hcursor, hsize, Nat.mod_add_mod]
  · show (schedule.atTurn engines).round * origin.length +
      ((schedule.atTurn engines).inCycle + 1) = _
    rw [← Nat.add_assoc, hcount]
  · exact hrunning
  · exact fun _ => Nat.succ_pos _

/-- The pace after a run is settled by its number of turns. -/
theorem paced_run {origin : List (String × Nat)} (hne : 0 < origin.length)
    {schedule : RoundRobin σ α} (h : Paced origin 0 schedule) (events : List (Event α)) :
    Paced origin (turns events) (run events schedule) := by
  have hrun : Paced origin (0 + turns events) (run events schedule) := by
    refine run_induction (fun calls schedule engines hpaced => ?_) (fun _ _ => ?_) events h
    · obtain ⟨slot, -, -, hnext, hpaced⟩ := paced_next hne engines hpaced
      rw [hnext]
      exact hpaced
    · exact fun event hother hpaced => paced_step event hother hpaced
  rwa [Nat.zero_add] at hrun

/-! ## Every turn of a run -/

/-- What the turn with a number is and leaves, where the first turn has number 1. -/
structure IsTurn (portfolio : Portfolio α) (engines : Engines α) (number : Nat)
    (before : RoundRobin σ α) (turn : Turn α) (after : RoundRobin σ α) : Prop where
  position : turn.position = (number - 1) % portfolio.size
  slot : after.portfolio.get? turn.position = some turn.slot
  current : after.current = some turn.position
  round : after.round = (number - 1) / portfolio.size
  inCycle : 1 ≤ after.inCycle ∧ after.inCycle ≤ portfolio.size
  cursor : after.cursor = number % portfolio.size ∧ after.cursor < portfolio.size
  accounts : after.accounts = portfolio.slots.mapIdx fun position slot =>
    (slot.id, slot.dispatches + (number - position) ⌈/⌉ portfolio.size)
  /-- The first turn after a completed round runs a pass, which is never skipped for being too
  early. -/
  pass : (∃ k, 1 ≤ k ∧ number = k * portfolio.size + 1) →
    after.lastOutcome = some (before.counted.rebalance engines).1 ∧
      (before.counted.rebalance engines).1 ≠ .skipped .firstRound ∧
      after.passes = before.passes + 1
  /-- No other turn runs a pass. -/
  noPass : (¬ ∃ k, 1 ≤ k ∧ number = k * portfolio.size + 1) →
    after.lastOutcome = before.lastOutcome ∧ after.passes = before.passes ∧
      after.draws = before.draws ∧ after.portfolio.limits = before.portfolio.limits

/-- **Every slot takes its turn.** Whatever was called before, the next turn succeeds, and by
its number it is settled whose turn it is, how many rounds are complete, how often every slot
was handed out, and whether the turn runs a pass. -/
theorem next_of_run {portfolio : Portfolio α} {models : Dict (PathModel α)} {sampler : σ}
    {config : Config} {unseeded : Generator} {schedule : RoundRobin σ α}
    (started : start portfolio models sampler config unseeded = .ok schedule)
    (nonempty : 0 < portfolio.size) (events : List (Event α)) (engines : Engines α) :
    ∃ turn after, (run events schedule).next engines = (.ok turn, after) ∧
      IsTurn portfolio engines (turns events + 1) (run events schedule) turn after := by
  have hlength : (portfolio.slots.map Slot.account).length = portfolio.size := List.length_map _
  have hne : 0 < (portfolio.slots.map Slot.account).length := hlength.symm ▸ nonempty
  have hbefore := paced_run hne (paced_start started) events
  generalize run events schedule = before at hbefore ⊢
  obtain ⟨slot, hslot, hcursor, hnext, hafter⟩ := paced_next hne engines hbefore
  have hat : (before.atTurn engines).portfolio.get? (before.atTurn engines).cursor = some slot := by
    rw [hcursor]
    exact hslot
  -- the round is complete exactly if the call is the first after a multiple of the size
  have hcomplete := hbefore.complete_iff hne
  rw [hlength] at hslot hcomplete
  refine ⟨_, _, hnext, ?_⟩
  constructor
  · rw [← hlength]
    exact hcursor
  · exact get?_dispatch hat
  · rfl
  · rw [← hlength]
    exact hafter.round_eq
  · exact ⟨hafter.begun (Nat.succ_pos _), hlength ▸ hafter.bound⟩
  · rw [hafter.cursor, hlength]
    exact ⟨rfl, Nat.mod_lt _ nonempty⟩
  · rw [hafter.accounts, accountsAt, hlength]
    refine List.mapIdx_eq_iff.mpr fun position => ?_
    rw [List.getElem?_mapIdx, List.getElem?_map, Option.map_map]
    rfl
  · intro hpass
    -- the pass comes first, in the round that is closed
    have hfull : before.inCycle = before.portfolio.size := by
      rw [hbefore.size, hlength]
      exact hcomplete.mpr hpass
    have hfinished : before.atTurn engines = before.finishRound engines := if_pos hfull
    rw [hfinished]
    refine ⟨rfl, ne_firstRound (Nat.succ_ne_zero _), ?_⟩
    show (before.counted.rebalance engines).2.passes = before.passes + 1
    rw [passes_rebalance]
    rfl
  · intro hpass
    -- no round ends: the turn starts from the state as it was
    have hrunning : before.atTurn engines = before := by
      refine if_neg fun hfull => hpass (hcomplete.mp ?_)
      rw [← hlength, ← hbefore.size]
      exact hfull
    rw [hrunning] at hat ⊢
    exact ⟨rfl, rfl, rfl, limits_dispatch hat⟩

/-- The third turn of two slots, with a measurement and a pass that somebody asks for in
between: the first slot again, after one round. -/
theorem next_of_run_third :
    let engines : Engines Float := fun _ => ⟨none, 0.0⟩
    let events := [.next engines, .operate 0 (.setProgress 0.5), .rebalance engines, .next engines]
    ∃ (portfolio : Portfolio Float) (schedule : RoundRobin PathFunction Float),
      Portfolio.ofSpecs [⟨"a", none⟩, ⟨"b", none⟩] = .ok portfolio ∧
        start portfolio Dict.empty ⟨fun _ _ => []⟩ Config.default (Generator.ofSeed 3) =
          .ok schedule ∧
        0 < portfolio.size ∧
        ∃ turn after, (run events schedule).next engines = (.ok turn, after) ∧
          IsTurn portfolio engines 3 (run events schedule) turn after := by
  intro engines events
  obtain ⟨portfolio, hportfolio⟩ : ∃ portfolio : Portfolio Float,
      Portfolio.ofSpecs [⟨"a", none⟩, ⟨"b", none⟩] = .ok portfolio := ⟨_, rfl⟩
  obtain ⟨schedule, hstart⟩ : ∃ schedule : RoundRobin PathFunction Float,
      start portfolio Dict.empty ⟨fun _ _ => []⟩ Config.default (Generator.ofSeed 3) =
        .ok schedule := ⟨_, rfl⟩
  have hpos := Portfolio.size_pos_of_ofSlots hportfolio
  exact ⟨portfolio, schedule, hportfolio, hstart, hpos, next_of_run hstart hpos events engines⟩

end RoundRobin

end AlgorithmPortfolio
