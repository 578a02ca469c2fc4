import Mathlib.Algebra.Order.Group.Abs
import Mathlib.Algebra.Ring.GeomSum
import PgCat.Admin.Show
import PgCat.Lib.Updates

/-!
# Averages — the counters of an address and the collector

Every address has eight counters that only grow and an average for each of them.  Every fifteen seconds the
collector goes through the registered server connections and, for each, has the averages of its address
updated.  An update puts a fifteenth of the difference between the counter and the *average* in the place of
the average; the counter as it was at the last tick is not kept anywhere.

* `timesM_newAverage`: any number of updates in closed form, which draws an average towards a sixteenth of the
  counter;
* `tick_eq_some_iff`: what a tick does to an average, which is one update per connection;
* `rated_succ_iff`: when one more tick leaves averages that are the rates of the last period all the same.
-/

namespace PgCat.Stats

open Lib Function

/-! ## Counters -/

inductive Total
  | xactCount
  | queryCount
  | received
  | sent
  | xactTime
  | queryTime
  | waitTime
  | errors
  deriving DecidableEq, Repr

inductive Average
  | queryCount
  | queryTime
  | recv
  | sent
  | errors
  | xactTime
  | xactCount
  | waitTime
  deriving DecidableEq, Repr

/-- `AddressStats`, as the cells its clones share. -/
structure Counters where
  total : Total → Nat
  average : Average → Nat

namespace Counters

def default : Counters := ⟨fun _ => 0, fun _ => 0⟩

/-- What the tables of the admin database and the metrics read. -/
def stats (c : Counters) : Admin.AddressStats where
  totalXactCount := c.total .xactCount
  totalQueryCount := c.total .queryCount
  totalReceived := c.total .received
  totalSent := c.total .sent
  totalXactTime := c.total .xactTime
  totalQueryTime := c.total .queryTime
  totalWaitTime := c.total .waitTime
  totalErrors := c.total .errors
  avgQueryCount := c.average .queryCount
  avgQueryTime := c.average .queryTime
  avgRecv := c.average .recv
  avgSent := c.average .sent
  avgErrors := c.average .errors
  avgXactTime := c.average .xactTime
  avgXactCount := c.average .xactCount
  avgWaitTime := c.average .waitTime

/-- `fetch_add` wraps around. -/
def add (c : Counters) (t : Total) (n : Nat) : Counters :=
  { c with total := update c.total t ((c.total t + n) % 2 ^ 64) }

end Counters

/-- Milliseconds between two ticks. -/
def statPeriod : Nat := 15000

/-- The totals and their averages, in the order in which they are pushed. -/
def fieldsIterators : List Total × List Average :=
  ([.xactCount, .queryCount, .received, .sent, .xactTime, .queryTime, .waitTime, .errors],
   [.xactCount, .queryCount, .recv, .sent, .xactTime, .queryTime, .waitTime, .errors])

/-- The function an average is updated with. -/
def newAverage (checks : Bool) (total avg : Nat) : Option Nat :=
  (subUsize checks total avg).map fun difference => difference / (statPeriod / 1000)

theorem newAverage_of_le {total avg : Nat} (checks : Bool) (h : avg ≤ total) :
    newAverage checks total avg = some ((total - avg) / 15) := by
  rw [newAverage, subUsize, if_pos h]
  rfl

/-- The distance of an average from the sixteenth of the counter that updates leave alone, times 16. -/
def offset (total x : Nat) : ℤ := 16 * x - (total - 7)

/-- `n` updates lead from `x` to `y`: each turns the distance around and divides it by 15, and what the
divisions round off comes to less than a half. -/
def Settles (total n x y : Nat) : Prop :=
  |offset total x - (-15) ^ n * offset total y| ≤ 8 * (15 ^ n - 1)

theorem settles_zero_iff {total x y : Nat} : Settles total 0 x y ↔ x = y := by
  unfold Settles offset
  rw [abs_le]
  simp only [pow_zero]
  omega

theorem settles_one_iff {total x y : Nat} (h : x ≤ total) : Settles total 1 x y ↔ (total - x) / 15 = y := by
  unfold Settles offset
  rw [abs_le]
  simp only [pow_one]
  omega

theorem settles_succ_iff {total n x y : Nat} (h : x ≤ total) :
    Settles total (n + 1) x y ↔ Settles total n ((total - x) / 15) y := by
  -- Both powers are known modulo 16, so that the distances compared are multiples of 16.
  obtain ⟨b, hb⟩ : ∃ b : ℤ, 15 ^ n = 2 * b + 1 := Odd.pow (by decide)
  obtain ⟨c, hc⟩ : (16 : ℤ) ∣ (-15) ^ n - 1 := by
    have hdvd := sub_dvd_pow_sub_pow (-15 : ℤ) 1 n
    rw [one_pow] at hdvd
    exact (by decide : (16 : ℤ) ∣ -15 - 1).trans hdvd
  have hpow : (-15 : ℤ) ^ n * offset total y = offset total y + 16 * (c * offset total y) := by
    rw [eq_add_of_sub_eq hc, add_mul, one_mul, mul_assoc, add_comm]
  have hnext : (-15 : ℤ) ^ (n + 1) * offset total y = -15 * ((-15) ^ n * offset total y) := by
    rw [pow_succ', mul_assoc]
  unfold Settles
  rw [hnext, pow_succ', hb, hpow, abs_le, abs_le]
  generalize c * offset total y = e
  unfold offset
  omega

theorem timesM_newAverage {checks : Bool} {total n x y : Nat} (h : x ≤ total) :
    timesM (newAverage checks total) n x = some y ↔ Settles total n x y := by
  induction n generalizing x with
  | zero => rw [timesM, Option.some.injEq, settles_zero_iff]
  | succ n ih =>
    rw [timesM, newAverage_of_le checks h, Option.bind_some, ih (by omega), settles_succ_iff h]

def refresh (checks : Bool) (c : Counters) (pair : Total × Average) : Option Counters :=
  (newAverage checks (c.total pair.1) (c.average pair.2)).map fun v =>
    { c with average := update c.average pair.2 v }

def updateAverages (checks : Bool) (c : Counters) : Option Counters :=
  (fieldsIterators.1.zip fieldsIterators.2).foldlM (refresh checks) c

def Average.total : Average → Total
  | .queryCount => .queryCount
  | .queryTime => .queryTime
  | .recv => .received
  | .sent => .sent
  | .errors => .errors
  | .xactTime => .xactTime
  | .xactCount => .xactCount
  | .waitTime => .waitTime

theorem pairs_eq : fieldsIterators.1.zip fieldsIterators.2 = fieldsIterators.2.map fun avg => (avg.total, avg) :=
  rfl

theorem count_averages (avg : Average) : fieldsIterators.2.count avg = 1 := by
  cases avg <;> decide

theorem updateAverages_eq (checks : Bool) (c : Counters) :
    updateAverages checks c =
      (updateAll (fun avg => newAverage checks (c.total avg.total)) fieldsIterators.2 c.average).map fun average =>
        { c with average := average } := by
  have hrun : ∀ (l : List Average) (average : Average → Nat),
      (l.map fun avg => (avg.total, avg)).foldlM (refresh checks) { c with average := average } =
        (updateAll (fun avg => newAverage checks (c.total avg.total)) l average).map fun average =>
          { c with average := average } := by
    intro l
    induction l with
    | nil => exact fun _ => rfl
    | cons avg l ih =>
      intro average
      rw [updateAll, List.map_cons, List.foldlM_cons, List.foldlM_cons]
      change ((newAverage checks (c.total avg.total) (average avg)).map _ >>= _) = _
      cases newAverage checks (c.total avg.total) (average avg) with
      | none => rfl
      | some v => exact ih (update average avg v)
  rw [updateAverages, pairs_eq]
  exact hrun fieldsIterators.2 c.average

theorem updateAverages_eq_some_iff {checks : Bool} {c c' : Counters} :
    updateAverages checks c = some c' ↔
      c'.total = c.total ∧ ∀ avg, newAverage checks (c.total avg.total) (c.average avg) = some (c'.average avg) := by
  rw [updateAverages_eq, Option.map_eq_some_iff]
  have honce : ∀ average : Average → Nat,
      updateAll (fun avg => newAverage checks (c.total avg.total)) fieldsIterators.2 c.average = some average ↔
        ∀ avg, newAverage checks (c.total avg.total) (c.average avg) = some (average avg) := by
    intro average
    rw [updateAll_eq_some_iff]
    refine forall_congr' fun avg => ?_
    rw [count_averages]
    cases h : newAverage checks (c.total avg.total) (c.average avg) with
    | none => simp [timesM, h]
    | some v => simp [timesM, h]
  constructor
  · rintro ⟨average, haverage, rfl⟩
    exact ⟨rfl, (honce average).mp haverage⟩
  · rintro ⟨htotal, haverage⟩
    refine ⟨c'.average, (honce c'.average).mpr haverage, ?_⟩
    cases c'
    cases htotal
    rfl

/-- Updates of an address do to each average what they would do to it alone. -/
theorem times_updateAverages {checks : Bool} {n : Nat} {c c' : Counters} :
    timesM (updateAverages checks) n c = some c' ↔
      c'.total = c.total ∧
        ∀ avg, timesM (newAverage checks (c.total avg.total)) n (c.average avg) = some (c'.average avg) := by
  induction n generalizing c with
  | zero =>
    simp only [timesM, Option.some.injEq]
    constructor
    · rintro rfl
      exact ⟨rfl, fun _ => rfl⟩
    · rintro ⟨htotal, haverage⟩
      cases c
      cases c'
      cases htotal
      cases funext haverage
      rfl
  | succ n ih =>
    simp only [timesM, Option.bind_eq_some_iff]
    constructor
    · rintro ⟨c₁, hfirst, hrest⟩
      obtain ⟨htotal₁, haverage₁⟩ := updateAverages_eq_some_iff.mp hfirst
      obtain ⟨htotal, haverage⟩ := ih.mp hrest
      rw [htotal₁] at htotal haverage
      exact ⟨htotal, fun avg => ⟨_, haverage₁ avg, haverage avg⟩⟩
    · rintro ⟨htotal, haverage⟩
      choose average hfirst hrest using haverage
      exact ⟨⟨c.total, average⟩, updateAverages_eq_some_iff.mpr ⟨rfl, hfirst⟩, ih.mpr ⟨htotal, hrest⟩⟩

/-! ## What server connections report -/

inductive Report
  | checkoutTime (microseconds : Nat)
  | query (milliseconds : Nat)
  | transaction
  | dataSent (amountBytes : Nat)
  | dataReceived (amountBytes : Nat)
  /-- `AddressStats::error`. -/
  | error
  deriving DecidableEq, Repr

/-- What a report adds to the counters of the address. -/
def Report.increments : Report → List (Total × Nat)
  | .checkoutTime microseconds => [(.waitTime, microseconds)]
  | .query milliseconds => [(.queryCount, 1), (.queryTime, milliseconds)]
  | .transaction => [(.xactCount, 1)]
  | .dataSent amountBytes => [(.sent, amountBytes)]
  | .dataReceived amountBytes => [(.received, amountBytes)]
  | .error => [(.errors, 1)]

/-! ## The collector -/

variable {α : Type} [DecidableEq α]

/-- The counters of every address, and `SERVER_STATS`: the registered connections and their addresses. -/
structure Registry (α : Type) where
  stats : α → Counters
  servers : HashMap Int α

/-- What happens between two ticks. -/
inductive Activity (α : Type)
  | add (a : α) (t : Total) (n : Nat)
  | register (serverId : Int) (a : α)
  | disconnect (serverId : Int)

def Report.activity (a : α) (r : Report) : List (Activity α) :=
  r.increments.map fun increment => .add a increment.1 increment.2

namespace Registry

def start : Registry α := ⟨fun _ => .default, ∅⟩

def act (r : Registry α) : Activity α → Registry α
  | .add a t n => { r with stats := update r.stats a ((r.stats a).add t n) }
  | .register serverId a => { r with servers := r.servers.insert serverId a }
  | .disconnect serverId => { r with servers := r.servers.erase serverId }

/-- One turn of the loop in `Collector::collect`. -/
def tick (checks : Bool) (r : Registry α) : Option (Registry α) :=
  (updateAll (fun _ => updateAverages checks) (r.servers.entries.map fun e => e.2) r.stats).map fun stats =>
    { r with stats := stats }

/-- What happens until the next tick, and the tick. -/
def period (checks : Bool) (r : Registry α) (activity : List (Activity α)) : Option (Registry α) :=
  (activity.foldl act r).tick checks

def run (checks : Bool) (ps : List (List (Activity α))) : Option (Registry α) :=
  ps.foldlM (period checks) start

/-- The number of connections that are registered for an address. -/
def connections (r : Registry α) (a : α) : Nat :=
  (r.servers.entries.map fun e => e.2).count a

variable {checks : Bool} {k : Nat}

theorem tick_eq_some_iff {r r' : Registry α} :
    r.tick checks = some r' ↔ r'.servers = r.servers ∧ ∀ a, (r'.stats a).total = (r.stats a).total ∧
      ∀ avg, timesM (newAverage checks ((r.stats a).total avg.total)) (r.connections a) ((r.stats a).average avg) =
        some ((r'.stats a).average avg) := by
  rw [tick, Option.map_eq_some_iff]
  simp only [updateAll_eq_some_iff, times_updateAverages]
  constructor
  · rintro ⟨stats, hstats, rfl⟩
    exact ⟨rfl, hstats⟩
  · rintro ⟨hservers, hstats⟩
    refine ⟨r'.stats, hstats, ?_⟩
    cases r'
    cases hservers
    rfl

/-! ## Totals and connections -/

/-- The same connections and the same totals. -/
structure Alike (r r' : Registry α) : Prop where
  servers : r.servers = r'.servers
  totals : ∀ a, (r.stats a).total = (r'.stats a).total

theorem act_stats (r : Registry α) (activity : Activity α) (a : α) :
    ((r.act activity).stats a).average = (r.stats a).average := by
  cases activity with
  | add a' t n =>
    change (update r.stats a' ((r.stats a').add t n) a).average = _
    by_cases ha : a = a'
    · subst ha
      rw [update_self]
      rfl
    · rw [update_of_ne ha]
  | register serverId a' => rfl
  | disconnect serverId => rfl

theorem acts_average (activity : List (Activity α)) (r : Registry α) (a : α) :
    ((activity.foldl act r).stats a).average = (r.stats a).average := by
  induction activity generalizing r with
  | nil => rfl
  | cons first rest ih => rw [List.foldl_cons, ih, act_stats]

theorem Alike.act {r r' : Registry α} (h : Alike r r') (activity : Activity α) :
    Alike (r.act activity) (r'.act activity) := by
  cases activity with
  | add a' t n =>
    refine ⟨h.servers, fun a => ?_⟩
    change (update r.stats a' ((r.stats a').add t n) a).total =
      (update r'.stats a' ((r'.stats a').add t n) a).total
    by_cases ha : a = a'
    · subst ha
      rw [update_self, update_self, Counters.add, Counters.add, h.totals]
    · rw [update_of_ne ha, update_of_ne ha, h.totals]
  | register serverId a' => exact ⟨congrArg (fun servers => servers.insert serverId a') h.servers, h.totals⟩
  | disconnect serverId => exact ⟨congrArg (fun servers => servers.erase serverId) h.servers, h.totals⟩

theorem Alike.acts (activity : List (Activity α)) :
    ∀ {r r' : Registry α}, Alike r r' → Alike (activity.foldl Registry.act r) (activity.foldl Registry.act r') := by
  induction activity with
  | nil => exact id
  | cons first rest ih => exact fun h => ih (h.act first)

/-- What the activity of the first `k` periods comes to, ticks left out. -/
def activityAt (ps : List (List (Activity α))) (k : Nat) : Registry α :=
  (ps.take k).flatten.foldl act start

/-- A total at the `k`-th tick; at the start it is 0. -/
def totalAt (ps : List (List (Activity α))) (k : Nat) (a : α) (t : Total) : Nat :=
  ((activityAt ps k).stats a).total t

/-- The connections that are registered for an address at the `k`-th tick. -/
def connectionsAt (ps : List (List (Activity α))) (k : Nat) (a : α) : Nat :=
  (activityAt ps k).connections a

/-- The rate per second over the period that ends with the `k`-th tick. -/
def rateAt (ps : List (List (Activity α))) (a : α) (t : Total) : Nat → Nat
  | 0 => 0
  | k + 1 => (totalAt ps (k + 1) a t - totalAt ps k a t) / 15

variable {ps : List (List (Activity α))}

theorem run_take_succ (checks : Bool) (hk : k < ps.length) :
    run checks (ps.take (k + 1)) = (run checks (ps.take k)).bind fun r => r.period checks ps[k] := by
  rw [List.take_succ_eq_append_getElem hk, run, List.foldlM_append]
  simp only [List.foldlM_cons, List.foldlM_nil, bind_pure]
  rfl

theorem activityAt_succ (hk : k < ps.length) :
    activityAt ps (k + 1) = ps[k].foldl act (activityAt ps k) := by
  rw [activityAt, List.take_succ_eq_append_getElem hk, List.flatten_append, List.foldl_append,
    List.flatten_singleton]
  rfl

/-- Ticks change neither the totals nor the connections. -/
theorem run_alike (hk : k ≤ ps.length)
    {r : Registry α} (hrun : run checks (ps.take k) = some r) : Alike r (activityAt ps k) := by
  induction k generalizing r with
  | zero =>
    cases hrun
    exact ⟨rfl, fun _ => rfl⟩
  | succ k ih =>
    rw [run_take_succ checks hk] at hrun
    obtain ⟨before, hbefore, hperiod⟩ := Option.bind_eq_some_iff.mp hrun
    have halike := (ih (Nat.le_of_succ_le hk) hbefore).acts ps[k]
    rw [← activityAt_succ hk] at halike
    obtain ⟨hservers, hstats⟩ := tick_eq_some_iff.mp hperiod
    exact ⟨hservers.trans halike.servers, fun a => (hstats a).1.trans (halike.totals a)⟩

theorem before_tick (hk : k < ps.length)
    {r : Registry α} (hrun : run checks (ps.take k) = some r) :
    (∀ (a : α) (avg : Average), ((ps[k].foldl act r).stats a).average avg = (r.stats a).average avg) ∧
      (∀ (a : α) t, ((ps[k].foldl act r).stats a).total t = totalAt ps (k + 1) a t) ∧
        ∀ a, (ps[k].foldl act r).connections a = connectionsAt ps (k + 1) a := by
  have halike := (run_alike (Nat.le_of_lt hk) hrun).acts ps[k]
  rw [← activityAt_succ hk] at halike
  refine ⟨fun a avg => by rw [acts_average], fun a t => ?_, fun a => ?_⟩
  · rw [halike.totals]
    rfl
  · rw [connections, halike.servers]
    rfl

/-! ## Rates -/

/-- After the first `k` ticks the averages are the rates of the last period. -/
def Rated (checks : Bool) (ps : List (List (Activity α))) (k : Nat) : Prop :=
  ∃ r, run checks (ps.take k) = some r ∧ ∀ (a : α) (avg : Average), (r.stats a).average avg = rateAt ps a avg.total k

theorem rated_zero (checks : Bool) (ps : List (List (Activity α))) : Rated checks ps 0 :=
  ⟨start, rfl, fun _ _ => rfl⟩

theorem rated_succ_iff (hk : k < ps.length) (hrated : Rated checks ps k) :
    Rated checks ps (k + 1) ↔ ∀ (a : α) (avg : Average),
      timesM (newAverage checks (totalAt ps (k + 1) a avg.total)) (connectionsAt ps (k + 1) a)
        (rateAt ps a avg.total k) = some (rateAt ps a avg.total (k + 1)) := by
  obtain ⟨r, hrun, haverage⟩ := hrated
  obtain ⟨hbefore, htotal, hconnections⟩ := before_tick hk hrun
  unfold Rated
  rw [run_take_succ checks hk, hrun, Option.bind_some, period]
  constructor
  · rintro ⟨r', htick, hrate⟩ a avg
    have hcell := ((tick_eq_some_iff.mp htick).2 a).2 avg
    rwa [hbefore, htotal, hconnections, haverage, hrate] at hcell
  · intro hcells
    refine ⟨⟨fun a => ⟨((ps[k].foldl act r).stats a).total, fun avg => rateAt ps a avg.total (k + 1)⟩,
      (ps[k].foldl act r).servers⟩, tick_eq_some_iff.mpr ⟨rfl, fun a => ⟨rfl, fun avg => ?_⟩⟩, fun _ _ => rfl⟩
    rw [hbefore, htotal, hconnections, haverage]
    exact hcells a avg

theorem rateAt_le (ps : List (List (Activity α))) (a : α) (t : Total) : rateAt ps a t k ≤ totalAt ps k a t := by
  cases k with
  | zero => exact Nat.zero_le _
  | succ k => exact (Nat.div_le_self _ _).trans (Nat.sub_le _ _)

/-- The averages are the rates of the last period after every tick exactly if no total wraps and, at every tick,
as many updates as there are connections lead from the rate of the period *before* to the rate of the last one.
Without a connection these have to be the same; with one, the rate before must not make a difference. -/
theorem averages_are_rates_iff (checks : Bool) (ps : List (List (Activity α))) :
    ((∀ k < ps.length, ∃ r, run checks (ps.take (k + 1)) = some r ∧ ∀ (a : α) (avg : Average),
      totalAt ps k a avg.total ≤ totalAt ps (k + 1) a avg.total ∧
        (r.stats a).average avg = (totalAt ps (k + 1) a avg.total - totalAt ps k a avg.total) / 15) ↔
    ∀ k < ps.length, ∀ (a : α) (avg : Average), totalAt ps k a avg.total ≤ totalAt ps (k + 1) a avg.total ∧
      Settles (totalAt ps (k + 1) a avg.total) (connectionsAt ps (k + 1) a) (rateAt ps a avg.total k)
        (rateAt ps a avg.total (k + 1))) ∧
    ∀ total x y, (Settles total 0 x y ↔ x = y) ∧ (x ≤ total → (Settles total 1 x y ↔ (total - x) / 15 = y)) := by
  have hsettles : ∀ k < ps.length, Rated checks ps k →
      (∀ (a : α) (avg : Average), totalAt ps k a avg.total ≤ totalAt ps (k + 1) a avg.total) →
      (Rated checks ps (k + 1) ↔ ∀ (a : α) (avg : Average), Settles (totalAt ps (k + 1) a avg.total)
        (connectionsAt ps (k + 1) a) (rateAt ps a avg.total k) (rateAt ps a avg.total (k + 1))) := by
    intro k hk hrated hgrows
    rw [rated_succ_iff hk hrated]
    exact forall₂_congr fun a avg => timesM_newAverage ((rateAt_le ps a avg.total).trans (hgrows a avg))
  refine ⟨⟨?_, ?_⟩, fun total x y => ⟨settles_zero_iff, settles_one_iff⟩⟩
  · intro hclaim
    have hrated : ∀ k ≤ ps.length, Rated checks ps k := by
      intro k hk
      cases k with
      | zero => exact rated_zero checks ps
      | succ k =>
        obtain ⟨r, hrun, hrate⟩ := hclaim k hk
        exact ⟨r, hrun, fun a avg => (hrate a avg).2⟩
    intro k hk a avg
    obtain ⟨r, -, hrate⟩ := hclaim k hk
    have hgrows := fun a avg => (hrate a avg).1
    exact ⟨hgrows a avg, (hsettles k hk (hrated k (Nat.le_of_lt hk)) hgrows).mp (hrated (k + 1) hk) a avg⟩
  · intro hcells
    have hrated : ∀ k ≤ ps.length, Rated checks ps k := by
      intro k
      induction k with
      | zero => exact fun _ => rated_zero checks ps
      | succ k ih =>
        intro hk
        exact (hsettles k hk (ih (Nat.le_of_succ_le hk)) fun a avg => (hcells k hk a avg).1).mpr
          fun a avg => (hcells k hk a avg).2
    intro k hk
    obtain ⟨r, hrun, hrate⟩ := hrated (k + 1) hk
    exact ⟨r, hrun, fun a avg => ⟨(hcells k hk a avg).1, hrate a avg⟩⟩

/-- Queries of 750 ms altogether and then nothing: the average of the idle period is 46 ms per second.  With a
second connection, the average of the first period is 46 already, and not 50. -/
theorem idle_period_and_second_connection :
    (∃ r : Registry Unit, run true [.register 1 () :: Report.activity () (.query 750), []] = some r ∧
      (r.stats ()).average .queryTime = 46 ∧
        (totalAt [.register 1 () :: Report.activity () (.query 750), []] 2 () .queryTime -
          totalAt [.register 1 () :: Report.activity () (.query 750), []] 1 () .queryTime) / 15 = 0) ∧
      ∃ r : Registry Unit, run true [.register 1 () :: .register 2 () :: Report.activity () (.query 750)] = some r ∧
        (r.stats ()).average .queryTime = 46 ∧
          (totalAt [.register 1 () :: .register 2 () :: Report.activity () (.query 750)] 1 () .queryTime -
            totalAt [.register 1 () :: .register 2 () :: Report.activity () (.query 750)] 0 () .queryTime) / 15 = 50 :=
  ⟨⟨_, rfl, rfl, rfl⟩, ⟨_, rfl, rfl, rfl⟩⟩

end Registry

end PgCat.Stats
