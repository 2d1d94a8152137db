import AlgorithmPortfolio.Metrics.Registry
import Mathlib.Data.List.Nodup

/-!
# Registered as a whole

A registration stops at the first name that is taken, and takes nothing back. That some metrics
of a set are left registered is still impossible: names of metrics end in different words, none
of which ends in another one, so two sets have all names in common or none.

- `Metric.name_inj`: a name says what it starts with and which metric it is.
- `Registrant`: metrics on their way to a registry, with whatever they have recorded by then.
- `MetricSet.exists_registerAll_of_free`: names that are free are added one by one.
- `Exposes`: the names in a registry are those of the sets that were registered. One more
  registration either adds all of its names or changes nothing (`Registrant.register_cases`),
  which is kept through any number of them (`exposes_run`).
- `register_all_or_nothing`: what becomes of a registration after any others.
-/

namespace AlgorithmPortfolio

open MetricRegistry (Holds)

/-! ## Names -/

/-- Lists that are equal end alike: with endings of which none ends in another one, the
beginnings are equal too. -/
theorem append_inj_of_apart {α : Type} {xs ys s t : List α} (h : xs ++ s = ys ++ t)
    (apart : s <:+ t → s = t) (apart' : t <:+ s → t = s) : xs = ys ∧ s = t := by
  have hs : s <:+ ys ++ t := ⟨xs, h⟩
  have ht : t <:+ ys ++ t := ⟨ys, rfl⟩
  have hst : s = t := by
    rcases List.suffix_or_suffix_of_suffix hs ht with hsuffix | hsuffix
    · exact apart hsuffix
    · exact (apart' hsuffix).symm
  subst hst
  exact ⟨List.append_cancel_right h, rfl⟩

namespace Metric

theorem mem_all (metric : Metric) : metric ∈ all := by
  cases metric <;> decide

theorem nodup_all : all.Nodup := by decide

/-- No ending ends in another one, together with the underscore before it. -/
theorem eq_of_suffix {metric other : Metric}
    (h : ('_' :: metric.ending.toList) <:+ ('_' :: other.ending.toList)) : metric = other := by
  have hall : ∀ metric ∈ all, ∀ other ∈ all,
      ('_' :: metric.ending.toList) <:+ ('_' :: other.ending.toList) →
      metric = other := by decide +kernel
  exact hall metric metric.mem_all other other.mem_all h

/-- A name says what it starts with and which metric it is. -/
theorem name_inj {metrics others : MetricSet} {metric other : Metric} :
    metric.name metrics = other.name others ↔ metrics.start = others.start ∧ metric = other := by
  constructor
  · -- both names are of a prefix, an underscore and an ending, and no ending is the end of
    -- another
    intro h
    have hchars : metrics.start.toList ++ '_' :: metric.ending.toList =
        others.start.toList ++ '_' :: other.ending.toList := String.ofList_inj.mp h
    have apart {metric other : Metric}
        (hsuffix : ('_' :: metric.ending.toList) <:+ ('_' :: other.ending.toList)) :
        '_' :: metric.ending.toList = '_' :: other.ending.toList := by
      rw [eq_of_suffix hsuffix]
    obtain ⟨hstart, hending⟩ := append_inj_of_apart hchars apart apart
    exact ⟨String.toList_inj.mp hstart, eq_of_suffix (hending ▸ List.suffix_refl _)⟩
  · rintro ⟨hstart, rfl⟩
    rw [name, name, hstart]

end Metric

/-! ## Metrics on their way to a registry -/

namespace MetricSet

/-- What metrics can record. -/
inductive Event
  | dispatch (slot : String) (limit : Nat)
  | gauge (slot : String) (limit : Nat)
  | round
  | rebalance (changed : Bool)
  | violation

/-- The metrics after an event. -/
def Event.record : Event → MetricSet → MetricSet
  | .dispatch slot limit => recordDispatch slot limit
  | .gauge slot limit => setLimit slot limit
  | .round => recordRound
  | .rebalance changed => recordRebalance changed
  | .violation => recordViolation

/-- The metrics after any events. -/
def recordAll (events : List Event) (metrics : MetricSet) : MetricSet :=
  events.foldl (fun metrics event => event.record metrics) metrics

theorem Event.start_record (event : Event) (metrics : MetricSet) :
    (event.record metrics).start = metrics.start := by
  cases event with
  | rebalance changed => cases changed <;> rfl
  | _ => rfl

/-- Names start with the same whatever is recorded. -/
theorem start_recordAll (events : List Event) (metrics : MetricSet) :
    (metrics.recordAll events).start = metrics.start :=
  List.foldlRecOn (motive := fun reached => reached.start = metrics.start) events _ rfl
    fun reached hreached event _ => (event.start_record reached).trans hreached

end MetricSet

/-- Metrics to be registered: what they were made with, the number of their set, and what they
have recorded by then. -/
structure Registrant where
  owner : Nat
  word : String
  events : List MetricSet.Event

namespace Registrant

/-- The metrics as they are by then. -/
def metrics (registrant : Registrant) : MetricSet :=
  (MetricSet.fresh registrant.word).recordAll registrant.events

/-- The names of the metrics, in the order in which they are registered. -/
def names (registrant : Registrant) : List String :=
  Metric.all.map fun metric => metric.name registrant.metrics

/-- Add all metrics to a registry. -/
def register {ρ : Type} [MetricRegistry ρ] (registrant : Registrant) (registry : ρ) :
    Except PortfolioError Unit × ρ :=
  registrant.metrics.register registrant.owner registry

theorem start_metrics (registrant : Registrant) :
    registrant.metrics.start = String.ofList (Metrics.sanitize registrant.word.toList) :=
  MetricSet.start_recordAll registrant.events (MetricSet.fresh registrant.word)

/-- Made with words that are the same after sanitizing. -/
def Alike (registrant other : Registrant) : Prop :=
  Metrics.sanitize registrant.word.toList = Metrics.sanitize other.word.toList

instance (registrant other : Registrant) : Decidable (registrant.Alike other) :=
  inferInstanceAs
    (Decidable (Metrics.sanitize registrant.word.toList = Metrics.sanitize other.word.toList))

theorem name_eq_iff {registrant other : Registrant} {metric metric' : Metric} :
    metric.name registrant.metrics = metric'.name other.metrics ↔
      registrant.Alike other ∧ metric = metric' := by
  rw [Metric.name_inj, start_metrics, start_metrics, String.ofList_inj, Alike]

theorem mem_names {registrant : Registrant} {name : String} :
    name ∈ registrant.names ↔ ∃ metric : Metric, metric.name registrant.metrics = name := by
  rw [names, List.mem_map]
  constructor
  · rintro ⟨metric, -, hname⟩
    exact ⟨metric, hname⟩
  · rintro ⟨metric, hname⟩
    exact ⟨metric, metric.mem_all, hname⟩

theorem nodup_names (registrant : Registrant) : registrant.names.Nodup := by
  refine List.Nodup.map (fun metric metric' hname => ?_) Metric.nodup_all
  exact (name_eq_iff.mp hname).2

/-- Metrics have all names in common or none. -/
theorem mem_names_iff {registrant other : Registrant} {name : String}
    (h : name ∈ registrant.names) : name ∈ other.names ↔ other.Alike registrant := by
  obtain ⟨metric, rfl⟩ := mem_names.mp h
  rw [mem_names]
  constructor
  · rintro ⟨metric', hname⟩
    exact (name_eq_iff.mp hname).1
  · intro halike
    exact ⟨metric, name_eq_iff.mpr ⟨halike, rfl⟩⟩

end Registrant

/-! ## One registration -/

variable {ρ : Type} [MetricRegistry ρ]

/-- Metrics with different names that are all free are added. -/
theorem MetricSet.exists_registerAll_of_free (owner : Nat) (metrics : MetricSet) {registry : ρ}
    {list : List Metric} (distinct : (list.map fun metric => metric.name metrics).Nodup)
    (free : ∀ metric ∈ list, ¬ Holds registry (metric.name metrics)) :
    ∃ after, metrics.registerAll owner registry list = (.ok (), after) ∧
      ∀ name, Holds after name ↔
        Holds registry name ∨ name ∈ list.map fun metric => metric.name metrics := by
  -- one metric after the other, each into the registry that has those before it
  induction list generalizing registry with
  | nil => exact ⟨registry, rfl, by simp⟩
  | cons metric rest ih =>
    obtain ⟨hfirst, hrest⟩ := List.nodup_cons.mp distinct
    cases hadd : MetricRegistry.add (metric.name metrics) (owner, metric) registry with
    | error fault =>
      exact absurd (MetricRegistry.add_fails_iff.mp ⟨fault, hadd⟩)
        (free metric List.mem_cons_self)
    | ok next =>
      have hholds := MetricRegistry.holds_of_add hadd
      -- the name that was just added is none of the others
      have hfree : ∀ other ∈ rest, ¬ Holds next (other.name metrics) := by
        intro other hother
        rw [hholds, not_or]
        refine ⟨free other (List.mem_cons_of_mem metric hother), fun hname => hfirst ?_⟩
        exact List.mem_map.mpr ⟨other, hother, hname.symm⟩
      obtain ⟨after, hafter, hnames⟩ := ih hrest hfree
      refine ⟨after, ?_, fun name => ?_⟩
      · rw [registerAll, hadd]
        exact hafter
      · rw [hnames, hholds, List.map_cons, List.mem_cons, or_assoc, eq_comm]

/-- Metrics the first of which has a name that is taken are refused. -/
theorem MetricSet.exists_register_of_held (owner : Nat) (metrics : MetricSet) {registry : ρ}
    (held : Holds registry (Metric.dispatches.name metrics)) :
    ∃ fault, metrics.register owner registry = (.error fault, registry) := by
  obtain ⟨fault, hfault⟩ := MetricRegistry.add_fails_iff.mpr held
  refine ⟨fault, ?_⟩
  rw [register, Metric.all, registerAll, hfault]

/-! ## Registrations in sequence -/

/-- A registry with exactly the names of some metrics. -/
def Exposes (registrants : List Registrant) (registry : ρ) : Prop :=
  ∀ name, Holds registry name ↔ ∃ registrant ∈ registrants, name ∈ registrant.names

/-- Register metrics one after the other, whether or not some of them are refused. -/
def registerEach (registrants : List Registrant) (registry : ρ) : ρ :=
  registrants.foldl (fun registry registrant => (registrant.register registry).2) registry

namespace Registrant

variable {earlier : List Registrant} {registry : ρ}

/-- Metrics like earlier ones are refused. All others are added with all of their names, none of
which was there. -/
theorem register_cases (exposes : Exposes earlier registry) (next : Registrant) :
    (∃ fault, next.register registry = (.error fault, registry)) ∧
        (∃ registrant ∈ earlier, registrant.Alike next) ∨
      (∃ after, next.register registry = (.ok (), after) ∧
        ∀ name, Holds after name ↔ Holds registry name ∨ name ∈ next.names) ∧
        (∀ name ∈ next.names, ¬ Holds registry name) ∧
        ¬ ∃ registrant ∈ earlier, registrant.Alike next := by
  -- the names of two sets meet at all only if they are the same
  have hheld {name : String} (hname : name ∈ next.names) :
      Holds registry name ↔ ∃ registrant ∈ earlier, registrant.Alike next := by
    simp only [exposes name, mem_names_iff hname]
  by_cases halike : ∃ registrant ∈ earlier, registrant.Alike next
  · refine .inl ⟨?_, halike⟩
    have hfirst : Metric.dispatches.name next.metrics ∈ next.names :=
      mem_names.mpr ⟨.dispatches, rfl⟩
    exact next.metrics.exists_register_of_held next.owner ((hheld hfirst).mpr halike)
  · -- so all names are free, and the whole set goes in
    have hfree : ∀ name ∈ next.names, ¬ Holds registry name := by
      intro name hname
      rw [hheld hname]
      exact halike
    refine .inr ⟨?_, hfree, halike⟩
    exact next.metrics.exists_registerAll_of_free next.owner next.nodup_names fun metric hmetric =>
      hfree _ (List.mem_map_of_mem hmetric)

/-- One more registration, refused or not, leaves the names of all metrics that were
registered. -/
theorem exposes_register (exposes : Exposes earlier registry) (next : Registrant) :
    Exposes (earlier ++ [next]) (next.register registry).2 := by
  intro name
  rcases register_cases exposes next with ⟨⟨fault, hregister⟩, registrant, hmem, halike⟩ |
    ⟨⟨after, hregister, hnames⟩, -, -⟩
  · -- a refused set leaves the registry, so its names are those it shares
    rw [hregister, exposes name]
    constructor
    · rintro ⟨other, hother, hname⟩
      exact ⟨other, List.mem_append_left _ hother, hname⟩
    · rintro ⟨other, hother, hname⟩
      rcases List.mem_append.mp hother with hearlier | hlast
      · exact ⟨other, hearlier, hname⟩
      · -- what was refused has no name of its own
        obtain rfl := List.mem_singleton.mp hlast
        exact ⟨registrant, hmem, (mem_names_iff hname).mpr halike⟩
  · rw [hregister, hnames, exposes name]
    simp [or_and_right, exists_or]

end Registrant

theorem exposes_run {earlier : List Registrant} {registry : ρ} (exposes : Exposes earlier registry)
    (later : List Registrant) : Exposes (earlier ++ later) (registerEach later registry) := by
  induction later generalizing earlier registry with
  | nil =>
    rw [List.append_nil]
    exact exposes
  | cons next rest ih =>
    rw [← List.singleton_append, ← List.append_assoc]
    exact ih (next.exposes_register exposes)

/-- **Metrics are registered as a whole or not at all.** Take any registry that refuses metrics
exactly if their names are taken. Register any metrics one after the other in an empty one, and
then other metrics. The last registration fails exactly if these are like metrics before, that
is, made with a word that is the same after sanitizing. Then the registry is as it was.
Otherwise six names are added that were not there, and nothing else. -/
theorem register_all_or_nothing {registry : ρ} (blank : ∀ name, ¬ Holds registry name)
    (history : List Registrant) (next : Registrant) :
    let before := registerEach history registry
    ((∃ fault, (next.register before).1 = .error fault) ↔ ∃ earlier ∈ history, earlier.Alike next) ∧
      (∀ fault, (next.register before).1 = .error fault → (next.register before).2 = before) ∧
      ((next.register before).1 = .ok () → next.names.length = 6 ∧ next.names.Nodup ∧
        (∀ name ∈ next.names, ¬ Holds before name) ∧
        ∀ name, Holds (next.register before).2 name ↔ Holds before name ∨ name ∈ next.names) := by
  intro before
  have hblank : Exposes [] registry := fun name => by simp [blank name]
  have hexposes : Exposes history before := exposes_run hblank history
  rcases next.register_cases hexposes with ⟨⟨fault, hregister⟩, halike⟩ |
    ⟨⟨after, hregister, hnames⟩, hfree, hother⟩
  · rw [hregister]
    refine ⟨⟨fun _ => halike, fun _ => ⟨fault, rfl⟩⟩, fun _ _ => rfl, ?_⟩
    intro hok
    cases hok
  · rw [hregister]
    refine ⟨⟨?_, fun halike => absurd halike hother⟩, ?_, fun _ =>
      ⟨rfl, next.nodup_names, hfree, hnames⟩⟩
    · rintro ⟨fault, herror⟩
      cases herror
    · intro fault herror
      cases herror

/-- Metrics of two words, of which one goes on like a name of the other, and of two words that
sanitize to the same, with one more attempt in between. -/
theorem register_all_or_nothing_alike :
    let history : List Registrant :=
      [⟨0, "a", [.round]⟩, ⟨1, "a-b", []⟩, ⟨2, "a", [.dispatch "s" 20]⟩]
    let same : Registrant := ⟨3, "a_b", []⟩
    let longer : Registrant := ⟨4, "a_slot", [.violation]⟩
    (∀ name, ¬ Holds Registry.empty name) ∧
      (∃ fault, (same.register (registerEach history Registry.empty)).1 = .error fault) ∧
      (same.register (registerEach history Registry.empty)).2 =
        registerEach history Registry.empty ∧
      (longer.register (registerEach history Registry.empty)).1 = .ok () ∧
      ¬ Holds (registerEach history Registry.empty) "a_slot_slot_time_limit" ∧
      Holds (longer.register (registerEach history Registry.empty)).2 "a_slot_slot_time_limit" := by
  intro history same longer
  have hblank : ∀ name, ¬ Holds Registry.empty name :=
    fun name => by simp [Holds, Registry.empty, Dict.contains]
  obtain ⟨hfails, hkept, -⟩ := register_all_or_nothing hblank history same
  obtain ⟨hfails', -, hadded⟩ := register_all_or_nothing hblank history longer
  have halike : ∃ earlier ∈ history, earlier.Alike same := by decide +kernel
  have hother : ¬ ∃ earlier ∈ history, earlier.Alike longer := by decide +kernel
  obtain ⟨fault, hfault⟩ := hfails.mpr halike
  have hok : (longer.register (registerEach history Registry.empty)).1 = .ok () := by
    cases hanswer : (longer.register (registerEach history Registry.empty)).1 with
    | error fault => exact absurd (hfails'.mp ⟨fault, hanswer⟩) hother
    | ok => rfl
  obtain ⟨-, -, hfree, hnames⟩ := hadded hok
  have hname : "a_slot_slot_time_limit" ∈ longer.names := by decide +kernel
  exact ⟨hblank, ⟨fault, hfault⟩, hkept fault hfault, hok, hfree _ hname,
    (hnames _).mpr (.inr hname)⟩

end AlgorithmPortfolio
