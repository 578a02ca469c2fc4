import PgCat.Checkout.Bans

/-!
# Get — which address a checkout ends at

`ConnectionPool::get` over the ban list.  The shuffle, the load of the server pools, the clock and what
each connection attempt and health check gives are inputs; a run leaves the visits it made, each with the
ban list it found.  What the loop reports to the statistics is in `Session.Pool`, where the ban list is
the environment's.

* `examine_accounted`: what the outcome of a visit says about the ban list and the attempt;
* `tryCandidates_explored`: the visits are the first addresses of the order, each once;
* `tryCandidates_traced`: the `i`-th visit meets the `i`-th turn of the environment, and the ban list that the
  visits before it have left.
-/

namespace PgCat.Checkout

open Lib
open Config (Role)
open Install (Address ConnectionPool Database)

/-! ## What the environment decides -/

structure PoolState where
  connections : Nat
  idleConnections : Nat
  deriving DecidableEq, Repr

def PoolState.busyConnectionCount (state : PoolState) : Nat :=
  if state.idleConnections > state.connections then 0 else state.connections - state.idleConnections

/-- What an attempt to get a connection gives: how many milliseconds ago the server was last used, if the
clock did not go back since, and whether it would pass a health check. -/
inductive Attempt
  | failed
  | connected (elapsed : Option Nat) (healthy : Bool)
  deriving DecidableEq, Repr

/-- One turn of the loop: the attempt, and the clock when a ban is looked at and when one is made. -/
structure Turn where
  attempt : Attempt
  unbanNow : Int
  banNow : Int
  deriving DecidableEq, Repr

/-- Some permutation of every list. -/
structure Shuffle where
  run : List Address → List Address
  perm : ∀ l, (run l).Perm l

structure Environment where
  shuffle : Shuffle
  state : Address → PoolState
  turns : Nat → Turn

/-! ## The function -/

inductive Outcome
  /-- Banned, and the ban stays. -/
  | skipped
  | failed
  | unhealthy
  | used
  deriving DecidableEq, Repr

/-- One turn of the loop, with the ban list it started with; without an outcome, it panicked. -/
structure Visit where
  address : Address
  turn : Turn
  bans : BanList
  outcome : Option Outcome

inductive Result
  | ok (a : Address)
  | allServersDown
  | panicked

structure Run where
  visits : List Visit
  bans : BanList
  result : Result

def Run.addresses (run : Run) : List Address :=
  run.visits.map Visit.address

section Get

variable (pool : ConnectionPool)

/-- `self.databases[address.shard][address.address_index]`. -/
def database (a : Address) : Option Database := do
  let databases ← pool.databases[a.shard]?
  databases[a.addressIndex]?

def candidates (shard : Nat) (role : Option Role) : Option (List Address) :=
  pool.addresses[shard]?.map fun row => row.filter fun a => a.role.matches role

/-- Busiest first.  The load of an address is looked at when it is compared: with two candidates or more
each is compared at least once, with fewer none is. -/
def sortByBusy (state : Address → PoolState) (l : List Address) : Option (List Address) :=
  if l.length < 2 ∨ l.all (fun a => (database pool a).isSome) = true then
    some (l.insertionSort fun a b => (state b).busyConnectionCount ≤ (state a).busyConnectionCount)
  else none

def balance (state : Address → PoolState) (l : List Address) : Option (List Address) :=
  if pool.settings.loadBalancingMode = .leastOutstandingConnections then sortByBusy pool state l
  else some l

/-- The candidates in the order they are tried, which is from the end. -/
def order (env : Environment) (shard : Nat) (role : Option Role) : Option (List Address) := do
  let found ← candidates pool shard role
  let balanced ← balance pool env.state (env.shuffle.run found)
  pure balanced.reverse

/-- A health check is due after a while, and for an address that was banned. -/
def requireHealthcheck (forced : Bool) (elapsed : Option Nat) : Option Bool :=
  if forced then some true
  else elapsed.map fun ms => decide (ms > pool.settings.healthcheckDelay)

/-- Try to connect, and run the health check if one is due. -/
def connect (turn : Turn) (a : Address) (forced : Bool) (bans : BanList) : Option (Outcome × BanList) := do
  let _ ← database pool a
  match turn.attempt with
  | .failed => do
    let bans ← ban a .failedCheckout turn.banNow bans
    pure (.failed, bans)
  | .connected elapsed healthy => do
    let required ← requireHealthcheck pool forced elapsed
    if required = true ∧ healthy = false then do
      let bans ← ban a .failedHealthCheck turn.banNow bans
      pure (.unhealthy, bans)
    else pure (.used, bans)

def examine (turn : Turn) (a : Address) (bans : BanList) : Option (Outcome × BanList) := do
  if ← isBanned a bans then do
    let (bans, unbanned) ← tryUnban pool a turn.unbanNow bans
    if unbanned then connect pool turn a true bans else pure (.skipped, bans)
  else connect pool turn a false bans

/-- Until a connection can be handed out. -/
def tryCandidates (turns : Nat → Turn) : Nat → List Address → BanList → Run
  | _, [], bans => ⟨[], bans, .allServersDown⟩
  | i, a :: rest, bans =>
    match examine pool (turns i) a bans with
    | none => ⟨[⟨a, turns i, bans, none⟩], bans, .panicked⟩
    | some (outcome, bans') =>
      if outcome = .used then ⟨[⟨a, turns i, bans, some outcome⟩], bans', .ok a⟩
      else
        let run := tryCandidates turns (i + 1) rest bans'
        { run with visits := ⟨a, turns i, bans, some outcome⟩ :: run.visits }

/-- The ban list that visits of these addresses leave, from turn `i` on. -/
def bansLeft (turns : Nat → Turn) : Nat → List Address → BanList → Option BanList
  | _, [], bans => some bans
  | i, a :: rest, bans => do
    let (_, bans) ← examine pool (turns i) a bans
    bansLeft turns (i + 1) rest bans

def get (env : Environment) (shard : Nat) (role : Option Role) (bans : BanList) : Run :=
  match order pool env shard role with
  | none => ⟨[], bans, .panicked⟩
  | some addresses => tryCandidates pool env.turns 0 addresses bans

end Get

/-! ## The order -/

section Order

variable {pool : ConnectionPool} {env : Environment} {s : Nat} {role : Option Role}
  {addresses : List Address}

theorem balance_spec {state : Address → PoolState} {l balanced : List Address}
    (h : balance pool state l = some balanced) :
    balanced.Perm l ∧ (pool.settings.loadBalancingMode = .leastOutstandingConnections →
      balanced.Pairwise fun a b => (state b).busyConnectionCount ≤ (state a).busyConnectionCount) := by
  unfold balance sortByBusy at h
  split at h
  · split at h
    · cases h
      exact ⟨List.perm_insertionSort _ _, fun _ => List.pairwise_insertionSort _ _⟩
    · cases h
  · rename_i hmode
    cases h
    exact ⟨.refl l, fun hleast => absurd hleast hmode⟩

theorem order_spec (h : order pool env s role = some addresses) :
    ∃ row, pool.addresses[s]? = some row ∧
      addresses.Perm (row.filter fun a => a.role.matches role) ∧
        (pool.settings.loadBalancingMode = .leastOutstandingConnections →
          addresses.Pairwise fun a b =>
            (env.state a).busyConnectionCount ≤ (env.state b).busyConnectionCount) := by
  simp only [order, Option.bind_eq_bind, Option.bind_eq_some_iff] at h
  obtain ⟨found, hfound, balanced, hbalanced, hpure⟩ := h
  cases hpure
  obtain ⟨row, hrow, rfl⟩ := Option.map_eq_some_iff.mp hfound
  obtain ⟨hperm, hsorted⟩ := balance_spec hbalanced
  refine ⟨row, hrow, (List.reverse_perm _).trans (hperm.trans (env.shuffle.perm _)), fun hmode => ?_⟩
  rw [List.pairwise_reverse]
  exact hsorted hmode

end Order

/-! ## One turn -/

/-- Banned, and the ban has not run out. -/
def UnderBan (pool : ConnectionPool) (now : Int) (bans : BanList) (a : Address) : Prop :=
  ∃ shard b, bans[a.shard]? = some shard ∧ shard.lookup a = some b ∧ b.expired pool now = false

/-- A health check is required: the address was banned, or has not been used for a while. -/
def CheckRequired (pool : ConnectionPool) (bans : BanList) (a : Address) (elapsed : Option Nat) : Prop :=
  isBanned a bans = some true ∨ ∃ ms, elapsed = some ms ∧ ms > pool.settings.healthcheckDelay

/-- The outcome of a visit says what was found. -/
def Visit.Accounted (pool : ConnectionPool) (v : Visit) : Prop :=
  match v.outcome with
  | none => True
  | some .skipped =>
    UnderBan pool v.turn.unbanNow v.bans v.address ∧ ¬AllBanned pool v.bans v.address.shard
  | some .failed => v.turn.attempt = .failed
  | some .unhealthy => ∃ elapsed, v.turn.attempt = .connected elapsed false ∧
      CheckRequired pool v.bans v.address elapsed
  | some .used => (∃ elapsed healthy, v.turn.attempt = .connected elapsed healthy ∧
        (CheckRequired pool v.bans v.address elapsed → healthy = true)) ∧
      (UnderBan pool v.turn.unbanNow v.bans v.address → AllBanned pool v.bans v.address.shard)

section Examine

variable {pool : ConnectionPool} {bans bans' : BanList} {turn : Turn} {a : Address} {outcome : Outcome}

theorem requireHealthcheck_eq {forced required : Bool} {elapsed : Option Nat}
    (h : requireHealthcheck pool forced elapsed = some required) :
    required = true ↔ forced = true ∨ ∃ ms, elapsed = some ms ∧ ms > pool.settings.healthcheckDelay := by
  unfold requireHealthcheck at h
  split at h
  · rename_i hforced
    cases h
    simp [hforced]
  · rename_i hforced
    obtain ⟨ms, rfl, rfl⟩ := Option.map_eq_some_iff.mp h
    simp [hforced]

theorem connect_spec {forced : Bool} (hrun : connect pool turn a forced bans = some (outcome, bans')) :
    (bans' = bans ∨ ∃ reason, ban a reason turn.banNow bans = some bans') ∧
      (outcome = .failed ∧ turn.attempt = .failed ∨
        ∃ elapsed healthy required, turn.attempt = .connected elapsed healthy ∧
          requireHealthcheck pool forced elapsed = some required ∧
            (outcome = .unhealthy ∧ required = true ∧ healthy = false ∨
              outcome = .used ∧ (required = true → healthy = true))) := by
  simp only [connect, Option.bind_eq_bind, Option.bind_eq_some_iff] at hrun
  obtain ⟨-, -, hrun⟩ := hrun
  cases hattempt : turn.attempt with
  | failed =>
    simp only [hattempt, Option.bind_eq_some_iff] at hrun
    obtain ⟨bans₁, hban, hpure⟩ := hrun
    cases hpure
    exact ⟨.inr ⟨_, hban⟩, .inl ⟨rfl, rfl⟩⟩
  | connected elapsed healthy =>
    simp only [hattempt, Option.bind_eq_some_iff] at hrun
    obtain ⟨required, hrequired, hrun⟩ := hrun
    split at hrun
    · rename_i hfails
      obtain ⟨bans₁, hban, hpure⟩ := Option.bind_eq_some_iff.mp hrun
      cases hpure
      exact ⟨.inr ⟨_, hban⟩, .inr ⟨elapsed, healthy, required, rfl, hrequired, .inl ⟨rfl, hfails⟩⟩⟩
    · rename_i hpasses
      cases hrun
      refine ⟨.inl rfl, .inr ⟨elapsed, healthy, required, rfl, hrequired, .inr ⟨rfl, fun hdue => ?_⟩⟩⟩
      simpa [hdue] using hpasses

theorem connect_sound (h : BanList.Sound pool bans) (ha : Member pool a) {forced : Bool}
    (hrun : connect pool turn a forced bans = some (outcome, bans')) : BanList.Sound pool bans' := by
  rcases (connect_spec hrun).1 with rfl | ⟨reason, hban⟩
  · exact h
  · obtain ⟨bans₁, hban', hsound⟩ := ban_sound h ha reason turn.banNow
    rw [hban] at hban'
    cases hban'
    exact hsound

theorem connect_accounted {bans₁ : BanList} (h : BanList.Sound pool bans₁) (ha : Member pool a)
    {forced : Bool} (hforced : forced = true ↔ isBanned a bans = some true)
    (hban : UnderBan pool turn.unbanNow bans a → AllBanned pool bans a.shard)
    (hrun : connect pool turn a forced bans₁ = some (outcome, bans')) :
    BanList.Sound pool bans' ∧ Visit.Accounted pool ⟨a, turn, bans, some outcome⟩ := by
  refine ⟨connect_sound h ha hrun, ?_⟩
  rcases (connect_spec hrun).2 with ⟨rfl, hattempt⟩ | ⟨elapsed, healthy, required, hattempt, hrequired, hrest⟩
  · exact hattempt
  · have hdue : required = true ↔ CheckRequired pool bans a elapsed := by
      rw [requireHealthcheck_eq hrequired, hforced, CheckRequired]
    rcases hrest with ⟨rfl, hreq, rfl⟩ | ⟨rfl, hpasses⟩
    · exact ⟨elapsed, hattempt, hdue.mp hreq⟩
    · exact ⟨⟨elapsed, healthy, hattempt, fun hcheck => hpasses (hdue.mpr hcheck)⟩, hban⟩

theorem underBan_iff {now : Int} {shard : Bans} (hshard : bans[a.shard]? = some shard) :
    UnderBan pool now bans a ↔ ∃ b, shard.lookup a = some b ∧ b.expired pool now = false := by
  constructor
  · rintro ⟨shard', b, hshard', hb, hfresh⟩
    rw [hshard] at hshard'
    cases hshard'
    exact ⟨b, hb, hfresh⟩
  · rintro ⟨b, hb, hfresh⟩
    exact ⟨shard, b, hshard, hb, hfresh⟩

theorem examine_accounted (hpool : Orderly pool) (h : BanList.Sound pool bans) (ha : Member pool a)
    (hrun : examine pool turn a bans = some (outcome, bans')) :
    BanList.Sound pool bans' ∧ Visit.Accounted pool ⟨a, turn, bans, some outcome⟩ := by
  obtain ⟨shard, hshard⟩ := h.shard_of_member ha
  have hbanned : isBanned a bans = some (shard.lookup a).isSome := by rw [isBanned, hshard, Option.map_some]
  rw [examine, hbanned, some_bind] at hrun
  cases hlookup : shard.lookup a with
  -- Not banned: the connection is tried at once.
  | none =>
    rw [hlookup] at hrun hbanned
    refine connect_accounted h ha (by simp [hbanned]) (fun hunder => ?_) hrun
    obtain ⟨b, hb, -⟩ := (underBan_iff hshard).mp hunder
    rw [hlookup] at hb
    cases hb
  | some b =>
    rw [hlookup] at hrun hbanned
    have hin : a ∈ shard := AList.lookup_isSome.mp (by rw [hlookup]; rfl)
    obtain ⟨hreplica, -⟩ := h.banned a.shard shard hshard a hin
    obtain ⟨shard', hshard', hclear, hone⟩ := tryUnban_replica h hpool ha hreplica turn.unbanNow
    rw [hshard] at hshard'
    cases hshard'
    -- The ban is lifted with all others, for having expired, or not at all.
    by_cases hall : AllBanned pool bans a.shard
    · rw [hclear hall] at hrun
      exact connect_accounted (h.set fun b hb => absurd hb (AList.notMem_empty b)) ha (by simp [hbanned])
        (fun _ => hall) hrun
    · rw [hone hall, hlookup] at hrun
      by_cases hexpired : b.expired pool turn.unbanNow = true
      · have hrun' : connect pool turn a true (bans.set a.shard (shard.erase a)) = some (outcome, bans') := by
          simpa [hexpired] using hrun
        refine connect_accounted (erase_sound h hshard a) ha (by simp [hbanned]) (fun hunder => ?_) hrun'
        obtain ⟨b', hb', hfresh⟩ := (underBan_iff hshard).mp hunder
        rw [hlookup] at hb'
        cases hb'
        rw [hexpired] at hfresh
        cases hfresh
      · have hfresh : b.expired pool turn.unbanNow = false := by simpa using hexpired
        have hskip : some (Outcome.skipped, bans) = some (outcome, bans') := by
          simpa [hfresh] using hrun
        cases hskip
        exact ⟨h, (underBan_iff hshard).mpr ⟨b, hlookup, hfresh⟩, hall⟩

end Examine

/-! ## The loop -/

section Loop

variable {pool : ConnectionPool} {turns : Nat → Turn}

/-- The visits are the first addresses of the order.  The last one ends at the address that is handed out;
if nothing is handed out, all addresses were visited. -/
structure Explored (l : List Address) (run : Run) : Prop where
  addresses : run.addresses <+: l
  used : ∀ a, run.result = .ok a → ∃ v ∈ run.visits, v.address = a ∧ v.outcome = some .used
  down : run.result = .allServersDown →
    run.addresses = l ∧ ∀ v ∈ run.visits, ∃ o, v.outcome = some o ∧ o ≠ .used

theorem tryCandidates_explored : ∀ (l : List Address) (i : Nat) (bans : BanList),
    Explored l (tryCandidates pool turns i l bans) := by
  intro l
  induction l with
  | nil =>
    intro i bans
    refine ⟨List.prefix_refl [], fun a h => ?_, fun _ => ⟨rfl, fun v hv => ?_⟩⟩
    · cases h
    · cases hv
  | cons a rest ih =>
    intro i bans
    unfold tryCandidates
    split
    · refine ⟨List.prefix_append [a] rest, fun b h => ?_, fun h => ?_⟩
      · cases h
      · cases h
    · rename_i outcome bans' _
      split
      · rename_i hused
        refine ⟨List.prefix_append [a] rest, fun b h => ?_, fun h => ?_⟩
        · cases h
          exact ⟨_, List.mem_singleton_self _, rfl, congrArg some hused⟩
        · cases h
      · -- The candidate is passed over, and the rest of the run is that of the remaining ones.
        rename_i hgoes
        obtain ⟨haddresses, hused, hdown⟩ := ih (i + 1) bans'
        refine ⟨List.prefix_cons_inj a |>.mpr haddresses, fun b h => ?_, fun h => ?_⟩
        · obtain ⟨v, hv, hrest⟩ := hused b h
          exact ⟨v, List.mem_cons_of_mem _ hv, hrest⟩
        · obtain ⟨hall, hfailed⟩ := hdown h
          refine ⟨congrArg (a :: ·) hall, fun v hv => ?_⟩
          rcases List.mem_cons.mp hv with rfl | hv
          · exact ⟨outcome, rfl, hgoes⟩
          · exact hfailed v hv

/-- The first turn of the loop ends it, with a panic or with a connection, or is followed by the rest. -/
theorem tryCandidates_cons (a : Address) (rest : List Address) (i : Nat) (bans : BanList) :
    tryCandidates pool turns i (a :: rest) bans = ⟨[⟨a, turns i, bans, none⟩], bans, .panicked⟩ ∨
      (∃ bans', examine pool (turns i) a bans = some (.used, bans') ∧
        tryCandidates pool turns i (a :: rest) bans = ⟨[⟨a, turns i, bans, some .used⟩], bans', .ok a⟩) ∨
      ∃ outcome bans', outcome ≠ .used ∧ examine pool (turns i) a bans = some (outcome, bans') ∧
        (tryCandidates pool turns i (a :: rest) bans).visits =
          ⟨a, turns i, bans, some outcome⟩ :: (tryCandidates pool turns (i + 1) rest bans').visits ∧
        (tryCandidates pool turns i (a :: rest) bans).result =
          (tryCandidates pool turns (i + 1) rest bans').result := by
  rw [tryCandidates]
  cases hrun : examine pool (turns i) a bans with
  | none => exact .inl rfl
  | some r =>
    obtain ⟨outcome, bans'⟩ := r
    dsimp only
    by_cases hused : outcome = .used
    · subst hused
      exact .inr (.inl ⟨bans', rfl, if_pos rfl⟩)
    · rw [if_neg hused]
      exact .inr (.inr ⟨outcome, bans', hused, rfl, rfl, rfl⟩)

/-- Where a run stands at its `k`-th visit. -/
theorem tryCandidates_traced : ∀ {l : List Address} {i : Nat} {bans : BanList} {k : Nat} {v : Visit},
    (tryCandidates pool turns i l bans).visits[k]? = some v →
      v.turn = turns (i + k) ∧
        bansLeft pool turns i ((tryCandidates pool turns i l bans).addresses.take k) bans = some v.bans := by
  intro l
  induction l with
  | nil =>
    intro i bans k v hv
    cases hv
  | cons a rest ih =>
    intro i bans k v hv
    -- A run that ends here has one visit, and this is it.
    have hfirst : ∀ {u : Visit}, [u][k]? = some v → k = 0 ∧ u = v := by
      intro u hu
      cases k with
      | zero => exact ⟨rfl, Option.some.inj hu⟩
      | succ k => cases hu
    rcases @tryCandidates_cons pool turns a rest i bans with
      hrun | ⟨bans', -, hrun⟩ | ⟨outcome, bans', -, hstep, hvisits, -⟩
    · rw [hrun] at hv
      obtain ⟨rfl, rfl⟩ := hfirst hv
      exact ⟨rfl, rfl⟩
    · rw [hrun] at hv
      obtain ⟨rfl, rfl⟩ := hfirst hv
      exact ⟨rfl, rfl⟩
    · rw [hvisits] at hv
      rw [Run.addresses, hvisits]
      cases k with
      | zero =>
        cases hv
        exact ⟨rfl, rfl⟩
      | succ k =>
        obtain ⟨hturn, hbans⟩ := ih hv
        refine ⟨by rw [hturn, Nat.add_assoc, Nat.add_comm 1 k], ?_⟩
        rw [List.map_cons, List.take_succ_cons, bansLeft, hstep, some_bind]
        exact hbans

theorem tryCandidates_forall {I : BanList → Prop} {P : Visit → Prop} {l : List Address}
    (hpanic : ∀ a turn bans, P ⟨a, turn, bans, none⟩)
    (hstep : ∀ a ∈ l, ∀ turn bans outcome bans', I bans → examine pool turn a bans = some (outcome, bans') →
      I bans' ∧ P ⟨a, turn, bans, some outcome⟩) :
    ∀ (i : Nat) (bans : BanList), I bans → ∀ v ∈ (tryCandidates pool turns i l bans).visits, P v := by
  induction l with
  | nil =>
    intro i bans _ v hv
    cases hv
  | cons a rest ih =>
    intro i bans hI v hv
    unfold tryCandidates at hv
    split at hv
    · cases List.mem_singleton.mp hv
      exact hpanic a _ bans
    · rename_i outcome bans' hrun
      obtain ⟨hI', hP⟩ := hstep a List.mem_cons_self _ bans outcome bans' hI hrun
      split at hv
      · cases List.mem_singleton.mp hv
        exact hP
      · rcases List.mem_cons.mp hv with rfl | hv
        · exact hP
        · exact ih (fun b hb => hstep b (List.mem_cons_of_mem a hb)) (i + 1) bans' hI' v hv

end Loop

/-! ## Checkout -/

section Checkout

variable {pool : ConnectionPool} {bans : BanList} {s : Nat} {role : Option Role}

/-- A run panics at once, or goes through an order of the candidates. -/
theorem get_cases (env : Environment) (bans : BanList) :
    get pool env s role bans = ⟨[], bans, .panicked⟩ ∨
      ∃ row addresses, pool.addresses[s]? = some row ∧
        addresses.Perm (row.filter fun a => a.role.matches role) ∧
        (pool.settings.loadBalancingMode = .leastOutstandingConnections → addresses.Pairwise fun a b =>
          (env.state a).busyConnectionCount ≤ (env.state b).busyConnectionCount) ∧
        get pool env s role bans = tryCandidates pool env.turns 0 addresses bans := by
  unfold get
  cases horder : order pool env s role with
  | none => exact .inl rfl
  | some addresses =>
    obtain ⟨row, hrow, hperm, hsorted⟩ := order_spec horder
    exact .inr ⟨row, addresses, hrow, hperm, hsorted, rfl⟩

/-- Whatever the environment does: a checkout visits the addresses of the shard with a matching role, each
at most once and the least busy first; it hands out what it could connect to, if due after a health check,
and what is banned only if all replicas are; it fails only if each of them was banned or failed.  What was
banned when an address was visited is what the visits before it have left of the ban list. -/
theorem checkout_correct (hpool : Orderly pool) (hbans : BanList.Sound pool bans) (env : Environment)
    (s : Nat) (role : Option Role) {run : Run} (hrun : get pool env s role bans = run) :
    (∀ a ∈ run.addresses, Configured pool s a ∧ a.role.matches role = true) ∧ run.addresses.Nodup ∧
    (∀ a, run.result = .ok a →
      ∃ i found, run.addresses[i]? = some a ∧ bansLeft pool env.turns 0 (run.addresses.take i) bans = some found ∧
        (∃ elapsed healthy, (env.turns i).attempt = .connected elapsed healthy ∧
          (CheckRequired pool found a elapsed → healthy = true)) ∧
        (UnderBan pool (env.turns i).unbanNow found a → AllBanned pool found s)) ∧
    (run.result = .allServersDown →
      ∀ a, Configured pool s a → a.role.matches role = true →
        ∃ i found, run.addresses[i]? = some a ∧
          bansLeft pool env.turns 0 (run.addresses.take i) bans = some found ∧
          (UnderBan pool (env.turns i).unbanNow found a ∧ ¬AllBanned pool found s ∨
            (env.turns i).attempt = .failed ∨
            ∃ elapsed, (env.turns i).attempt = .connected elapsed false ∧ CheckRequired pool found a elapsed)) ∧
    (pool.settings.loadBalancingMode = .leastOutstandingConnections →
      (run.addresses.map fun a => (env.state a).busyConnectionCount).Pairwise (· ≤ ·)) := by
  rcases @get_cases pool s role env bans with
    hpanic | ⟨row, addresses, hrow, hperm, hsorted, htried⟩
  · rw [hpanic] at hrun
    subst hrun
    simp [Run.addresses]
  · rw [htried] at hrun
    have hmem : ∀ a ∈ addresses, Configured pool s a ∧ a.role.matches role = true := by
      intro a ha
      obtain ⟨hin, hrole⟩ := List.mem_filter.mp (hperm.mem_iff.mp ha)
      exact ⟨⟨row, hrow, hin⟩, hrole⟩
    have hexplored := @tryCandidates_explored pool env.turns addresses 0 bans
    -- What each visit found is known from the step that made it; the bans stay sound on the way.
    have haccounted : ∀ v ∈ (tryCandidates pool env.turns 0 addresses bans).visits, v.Accounted pool :=
      tryCandidates_forall (I := BanList.Sound pool) (fun _ _ _ => trivial)
        (fun a ha turn bans outcome bans' h hstep =>
          examine_accounted hpool h (hpool.member (hmem a ha).1).2 hstep) 0 bans hbans
    rw [hrun] at hexplored haccounted
    -- A visit stands at a position, and meets the turn and the ban list of that position.
    have hplace : ∀ v ∈ run.visits, ∃ i, run.addresses[i]? = some v.address ∧ v.turn = env.turns i ∧
        bansLeft pool env.turns 0 (run.addresses.take i) bans = some v.bans ∧ v.address.shard = s := by
      intro v hv
      obtain ⟨i, hi⟩ := List.mem_iff_getElem?.mp hv
      have htraced := @tryCandidates_traced pool env.turns addresses 0 bans i v
      rw [hrun, Nat.zero_add] at htraced
      have hin := hexplored.addresses.subset (List.mem_map_of_mem hv)
      refine ⟨i, ?_, (htraced hi).1, (htraced hi).2, (hpool.member (hmem _ hin).1).1⟩
      rw [Run.addresses, List.getElem?_map, hi, Option.map_some]
    refine ⟨fun a ha => hmem a (hexplored.addresses.subset ha), ?_, ?_, ?_, ?_⟩
    · exact hexplored.addresses.sublist.nodup (hperm.nodup_iff.mpr ((nodup_row hpool hrow).filter _))
    · intro a ha
      obtain ⟨v, hv, rfl, hused⟩ := hexplored.used a ha
      obtain ⟨i, hi, hturn, hleft, hshard⟩ := hplace v hv
      have hfound := haccounted v hv
      rw [Visit.Accounted, hused] at hfound
      rw [hshard, hturn] at hfound
      exact ⟨i, v.bans, hi, hleft, hfound⟩
    · -- The candidates were all visited, and none of the visits handed out a server.
      rintro hdown a ⟨row', hrow', hin⟩ hrole
      rw [hrow] at hrow'
      cases hrow'
      obtain ⟨hall, hfailed⟩ := hexplored.down hdown
      have ha : a ∈ addresses := hperm.mem_iff.mpr (List.mem_filter.mpr ⟨hin, hrole⟩)
      rw [← hall] at ha
      obtain ⟨v, hv, rfl⟩ := List.mem_map.mp ha
      obtain ⟨outcome, houtcome, hnot⟩ := hfailed v hv
      obtain ⟨i, hi, hturn, hleft, hshard⟩ := hplace v hv
      have hfound := haccounted v hv
      rw [Visit.Accounted, houtcome] at hfound
      refine ⟨i, v.bans, hi, hleft, ?_⟩
      rw [← hturn]
      cases outcome with
      | skipped => exact .inl (hshard ▸ hfound)
      | failed => exact .inr (.inl hfound)
      | unhealthy => exact .inr (.inr hfound)
      | used => exact absurd rfl hnot
    · intro hmode
      have hpairs := (hsorted hmode).sublist hexplored.addresses.sublist
      rw [List.pairwise_map]
      exact hpairs

/-! ## A checkout returns -/

variable {a : Address} {turn : Turn}

theorem database_isSome (hrep : pool.Represented) (ha : Configured pool s a) :
    ∃ d, database pool a = some d := by
  obtain ⟨row, hrow, hin⟩ := ha
  obtain ⟨⟨databases, d, hdatabases, hd, -⟩, -⟩ := hrep.belongs row (List.mem_of_getElem? hrow) a hin
  exact ⟨d, by rw [database, hdatabases, some_bind, hd]⟩

/-- The last use of a connection is not in the future. -/
def Turn.Timed (turn : Turn) : Prop :=
  ∀ healthy, turn.attempt ≠ .connected none healthy

theorem connect_returns (hrep : pool.Represented) (h : BanList.Sound pool bans)
    (ha : Member pool a) (htimed : turn.Timed) (forced : Bool) :
    ∃ outcome bans', connect pool turn a forced bans = some (outcome, bans') := by
  obtain ⟨d, hd⟩ := database_isSome hrep ha.configured
  unfold connect
  rw [hd, some_bind]
  cases hattempt : turn.attempt with
  | failed =>
    obtain ⟨bans₁, hban, -⟩ := ban_sound h ha .failedCheckout turn.banNow
    exact ⟨_, _, by rw [hban]; rfl⟩
  | connected elapsed healthy =>
    obtain ⟨ms, rfl⟩ : ∃ ms, elapsed = some ms := by
      cases elapsed with
      | none => exact absurd hattempt (htimed healthy)
      | some ms => exact ⟨ms, rfl⟩
    obtain ⟨required, hrequired⟩ : ∃ required, requireHealthcheck pool forced (some ms) = some required := by
      cases forced with
      | false => exact ⟨_, rfl⟩
      | true => exact ⟨_, rfl⟩
    obtain ⟨bans₁, hban, -⟩ := ban_sound h ha .failedHealthCheck turn.banNow
    dsimp only
    rw [hrequired, some_bind, hban]
    split
    · exact ⟨_, _, rfl⟩
    · exact ⟨_, _, rfl⟩

theorem examine_returns (hrep : pool.Represented) (hpool : Orderly pool) (h : BanList.Sound pool bans) (ha : Member pool a) (htimed : turn.Timed) :
    ∃ outcome bans', examine pool turn a bans = some (outcome, bans') := by
  obtain ⟨banned, hbanned⟩ := isBanned_eq h ha
  unfold examine
  rw [hbanned, some_bind]
  cases banned with
  | false => exact connect_returns hrep h ha htimed false
  | true =>
    obtain ⟨bans₁, unbanned, htry, hsound⟩ := tryUnban_sound h hpool ha turn.unbanNow
    rw [if_pos rfl, htry, some_bind]
    cases unbanned with
    | false => exact ⟨_, _, rfl⟩
    | true => exact connect_returns hrep hsound ha htimed true

theorem tryCandidates_returns (hrep : pool.Represented) (hpool : Orderly pool) {turns : Nat → Turn}
    (htimed : ∀ i, (turns i).Timed) {l : List Address} (hl : ∀ a ∈ l, Member pool a) :
    ∀ (i : Nat) (bans : BanList), BanList.Sound pool bans →
      (tryCandidates pool turns i l bans).result ≠ .panicked := by
  induction l with
  | nil =>
    intro i bans _ h
    cases h
  | cons a rest ih =>
    intro i bans hbans
    have ha := hl a List.mem_cons_self
    obtain ⟨outcome, bans', hrun⟩ := examine_returns hrep hpool hbans ha (htimed i)
    obtain ⟨hsound, -⟩ := examine_accounted hpool hbans ha hrun
    rw [tryCandidates, hrun]
    dsimp only
    split
    · intro h
      cases h
    · exact ih (fun b hb => hl b (List.mem_cons_of_mem a hb)) (i + 1) bans' hsound

/-- On a pool as `from_config` makes them, with a clock that does not go back, a checkout for a shard that
is there comes to an end. -/
theorem get_returns (hrep : pool.Represented) (hpool : Orderly pool) (hbans : BanList.Sound pool bans)
    (env : Environment) (htimed : ∀ i, (env.turns i).Timed) (hs : s < pool.shards) :
    (get pool env s role bans).result ≠ .panicked := by
  obtain ⟨row, hrow⟩ : ∃ row, pool.addresses[s]? = some row :=
    ⟨_, List.getElem?_eq_getElem (hrep.addresses.symm ▸ hs)⟩
  have hin : ∀ a ∈ env.shuffle.run (row.filter fun a => a.role.matches role), Configured pool s a := by
    intro a ha
    exact ⟨row, hrow, (List.mem_filter.mp ((env.shuffle.perm _).mem_iff.mp ha)).1⟩
  have hall : (env.shuffle.run (row.filter fun a => a.role.matches role)).all
      (fun a => (database pool a).isSome) = true := by
    rw [List.all_eq_true]
    intro a ha
    obtain ⟨d, hd⟩ := database_isSome hrep (hin a ha)
    rw [hd, Option.isSome_some]
  obtain ⟨addresses, horder⟩ : ∃ addresses, order pool env s role = some addresses := by
    unfold order candidates balance
    rw [hrow, Option.map_some, some_bind, sortByBusy, if_pos (Or.inr hall)]
    split
    · exact ⟨_, rfl⟩
    · exact ⟨_, rfl⟩
  obtain ⟨row', hrow', hperm, -⟩ := order_spec horder
  rw [hrow] at hrow'
  cases hrow'
  rw [get, horder]
  refine tryCandidates_returns hrep hpool htimed (fun a ha => ?_) 0 bans hbans
  exact (hpool.member ⟨row, hrow, (List.mem_filter.mp (hperm.mem_iff.mp ha)).1⟩).2

/-! ## Writes -/

theorem examine_primary {bans' : BanList} {outcome : Outcome}
    (hprimary : a.role = .primary) (hrun : examine pool turn a bans = some (outcome, bans')) :
    outcome ≠ .skipped := by
  have hconnect : ∃ forced, connect pool turn a forced bans = some (outcome, bans') := by
    obtain ⟨banned, -, hrun⟩ := Option.bind_eq_some_iff.mp hrun
    cases banned with
    | false => exact ⟨false, hrun⟩
    | true =>
      rw [tryUnban, if_pos hprimary] at hrun
      exact ⟨true, hrun⟩
  obtain ⟨forced, hrun⟩ := hconnect
  rcases (connect_spec hrun).2 with ⟨rfl, -⟩ | ⟨_, _, _, -, -, ⟨rfl, -⟩ | ⟨rfl, -⟩⟩
  · decide
  · decide
  · decide

section Installed

open Install

variable {ext : Externals} {general : General} {job : Job}

theorem primary_unique (h : BuiltFor ext general job pool) (haccepted : job.pool.Accepted ext)
    {row : List Address} (hrow : row ∈ pool.addresses) :
    ∀ a ∈ row.filter (fun a => a.role.matches (some .primary)),
      ∀ b ∈ row.filter (fun a => a.role.matches (some .primary)), a = b := by
  obtain ⟨shardIds, rows, hbuilt⟩ := h
  obtain ⟨e, he, hroles⟩ := server_of_configured hbuilt hrow
  have hcount := (Shard.validate_eq_ok.mp (haccepted.servers e he)).2.1
  have hsame : row.countP (fun a => a.role = .primary) =
      e.2.servers.countP fun server => server.role = .primary := by
    have hmapped := congrArg (List.countP fun role => decide (role = Role.primary)) hroles
    rw [List.countP_map, List.countP_map] at hmapped
    exact hmapped
  have hlength : (row.filter fun a => a.role.matches (some .primary)).length ≤ 1 := by
    rw [← List.countP_eq_length_filter]
    exact hsame.trans_le hcount
  intro a ha b hb
  rcases Nat.le_one_iff_eq_zero_or_eq_one.mp hlength with hnone | hone
  · rw [List.length_eq_zero_iff.mp hnone] at ha
    cases ha
  · obtain ⟨c, hc⟩ := List.length_eq_one_iff.mp hone
    rw [hc] at ha hb
    rw [List.mem_singleton.mp ha, List.mem_singleton.mp hb]

/-- Writes are single-homed: whatever the environment does and whoever is banned, a checkout for the primary
of a shard ends at one and the same address, and does not skip it. -/
theorem primary_single_homed {olds : PoolMap} {config validated : Install.Config} {l : Locals}
    (hvalid : config.validate ext = .ok validated)
    (hrun : fromConfig ext olds validated .start = .ok () l) (hpool : pool ∈ l.built) (s : Nat) :
    Set.Subsingleton {a | ∃ env bans, (get pool env s (some .primary) bans).result = .ok a} ∧
      ∀ env bans, ∀ v ∈ (get pool env s (some .primary) bans).visits, v.outcome ≠ some .skipped := by
  obtain ⟨job, hjob, -, hbuilt⟩ := (fromConfig_progress hrun).built pool hpool
  have haccepted := accepted_of_mem_jobs hvalid hjob
  constructor
  · rintro a ⟨env, bans, ha⟩ b ⟨env', bans', hb⟩
    have hfound : ∀ (env : Environment) (bans : BanList) (a : Address),
        (get pool env s (some .primary) bans).result = .ok a →
          ∃ row, pool.addresses[s]? = some row ∧ a ∈ row.filter fun a => a.role.matches (some .primary) := by
      intro env bans a ha
      rcases @get_cases pool s (some .primary) env bans with
        hpanic | ⟨row, addresses, hrow, hperm, -, hget⟩
      · rw [hpanic] at ha
        cases ha
      · rw [hget] at ha
        have hexplored := @tryCandidates_explored pool env.turns addresses 0 bans
        obtain ⟨v, hv, rfl, -⟩ := hexplored.used a ha
        exact ⟨row, hrow, hperm.mem_iff.mp (hexplored.addresses.subset (List.mem_map_of_mem hv))⟩
    obtain ⟨row, hrow, ha⟩ := hfound env bans a ha
    obtain ⟨row', hrow', hb⟩ := hfound env' bans' b hb
    rw [hrow] at hrow'
    cases hrow'
    exact primary_unique hbuilt haccepted (List.mem_of_getElem? hrow) a ha b hb
  · intro env bans
    rcases @get_cases pool s (some .primary) env bans with
      hpanic | ⟨row, addresses, hrow, hperm, -, hget⟩
    · simp [hpanic]
    · rw [hget]
      refine tryCandidates_forall (I := fun _ => True) (fun _ _ _ => by simp) ?_ 0 bans trivial
      intro a ha turn bans outcome bans' _ hstep
      -- A primary is tried even if it has an entry in the ban list.
      have hprimary : a.role = .primary := by
        simpa [Role.matches] using (List.mem_filter.mp (hperm.mem_iff.mp ha)).2
      refine ⟨trivial, fun hskip => ?_⟩
      exact examine_primary hprimary hstep (Option.some.inj hskip)

end Installed

end Checkout

namespace Sample

open Install

def built : Option ConnectionPool :=
  match createPool Install.Sample.ext general job .start with
  | .ok pool _ => some pool
  | .error _ _ => none

def threePool : ConnectionPool :=
  built.get rfl

theorem threePool_created :
    ∃ l', createPool Install.Sample.ext general job .start = .ok threePool l' := ⟨_, rfl⟩

/-- The candidates stay as they are, every server is idle, and every attempt fails. -/
def unreachable : Environment where
  shuffle := ⟨id, fun l => .refl l⟩
  state := fun _ => ⟨1, 1⟩
  turns := fun _ => ⟨.failed, 0, 0⟩

/-- Only the third attempt gives a connection, which has to be checked, and passes. -/
def thirdServes : Environment :=
  { unreachable with turns := fun i => ⟨if i = 2 then .connected (some 86400000) true else .failed, 10, 10⟩ }

/-- The second replica is banned. -/
def secondBanned : List Op :=
  (threePool.addresses.flatten.drop 2).map fun a => .ban a .failedCheckout 0

/-- The banned replica is passed over, the other one fails and is banned, and the primary is handed out. -/
theorem primary_after_replicas :
    ∃ bans a, Orderly threePool ∧ BanList.Sound threePool bans ∧
      (get threePool thirdServes 0 none bans).result = .ok a ∧ a.role = .primary ∧
      (get threePool thirdServes 0 none bans).visits.map Visit.outcome = [some .skipped, some .failed, some .used] ∧
      (get threePool thirdServes 0 none bans).addresses.Nodup ∧
      ∃ i found, (get threePool thirdServes 0 none bans).addresses[i]? = some a ∧
        bansLeft threePool thirdServes.turns 0 ((get threePool thirdServes 0 none bans).addresses.take i) bans =
          some found ∧
        (∃ elapsed healthy, (thirdServes.turns i).attempt = .connected elapsed healthy ∧
          (CheckRequired threePool found a elapsed → healthy = true)) ∧
        (UnderBan threePool (thirdServes.turns i).unbanNow found a → AllBanned threePool found 0) := by
  obtain ⟨l', hpool⟩ := threePool_created
  obtain ⟨shardIds, rows, hbuilt⟩ := createPool_built hpool
  have horderly := orderly_of_built ⟨shardIds, rows, hbuilt⟩ numbered unmirrored
  have hrep := hbuilt.represented numbered
  have hon : ∀ op ∈ secondBanned, op.On threePool := by
    intro op hop
    obtain ⟨a, ha, rfl⟩ := List.mem_map.mp hop
    exact List.mem_flatten.mp (List.mem_of_mem_drop ha)
  obtain ⟨bans, hbans, hsound⟩ := Op.runAll_sound horderly hrep.addresses.ge hon (BanList.Sound.start hrep)
  have hcomputed : Op.runAll threePool secondBanned (BanList.start threePool) = some _ := rfl
  rw [hcomputed] at hbans
  cases hbans
  have hcorrect := checkout_correct horderly hsound thirdServes 0 none rfl
  exact ⟨_, _, horderly, hsound, rfl, rfl, rfl, hcorrect.2.1, hcorrect.2.2.1 _ rfl⟩

theorem one_primary :
    ∃ validated l, (Install.Sample.config job.pool).validate Install.Sample.ext = .ok validated ∧
      fromConfig Install.Sample.ext (fun _ => none) validated .start = .ok () l ∧
        ∃ pool ∈ l.built, Set.Subsingleton
          {a | ∃ env bans, (get pool env 0 (some .primary) bans).result = .ok a} := by
  have hvalid : (Install.Sample.config job.pool).validate Install.Sample.ext =
      .ok (Install.Sample.config job.pool) := rfl
  have hreturned : returned (fromConfig Install.Sample.ext (fun _ => none)
      (Install.Sample.config job.pool)) .start = true := rfl
  obtain ⟨_, hrun⟩ := ok_of_returned hreturned
  have hjob : job ∈ (Install.Sample.config job.pool).jobs := List.mem_singleton_self _
  obtain ⟨pool, hpool, -⟩ := (fromConfig_progress hrun).creates job hjob rfl
  exact ⟨_, _, hvalid, hrun, pool, hpool, (primary_single_homed hvalid hrun hpool 0).1⟩

end Sample

end PgCat.Checkout
