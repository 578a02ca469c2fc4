import PgCat.Install.Positions

/-!
# Bans — the ban list of a pool

One map per shard, from an address to the reason of its ban and the time of it.  `ban`, `unban` and
`try_unban` pick the map by `Address.shard`; the two admin commands go through the addresses of a host.
`BanList.Sound` is the invariant all of them keep: what is banned in a shard is a replica of that shard.
It is what makes the test of `try_unban` work, which only compares two numbers: as many bans as the shard
has replicas means that every replica is banned.
-/

namespace PgCat.Checkout

open Lib
open Config (Role)
open Install (Address ConnectionPool)

/-! ## Equality of addresses -/

mutual

/-- `PartialEq for Address`. -/
def addressEq : Address → Address → Bool
  | ⟨id, host, port, shard, database, role, replicaNumber, addressIndex, username, poolName, mirrors⟩, b =>
    id == b.id && host == b.host && port == b.port && shard == b.shard &&
      addressIndex == b.addressIndex && replicaNumber == b.replicaNumber && database == b.database &&
      role == b.role && username == b.username && poolName == b.poolName && addressesEq mirrors b.mirrors

def addressesEq : List Address → List Address → Bool
  | [], [] => true
  | a :: as, b :: bs => addressEq a b && addressesEq as bs
  | _, _ => false

end

mutual

theorem addressEq_iff : ∀ {a b : Address}, addressEq a b = true ↔ a = b
  | ⟨id, host, port, shard, database, role, replicaNumber, addressIndex, username, poolName, mirrors⟩,
    ⟨id', host', port', shard', database', role', replicaNumber', addressIndex', username', poolName',
      mirrors'⟩ => by
      have hmirrors := @addressesEq_iff mirrors mirrors'
      simp only [addressEq, Bool.and_eq_true, beq_iff_eq, hmirrors, Address.mk.injEq]
      grind

theorem addressesEq_iff : ∀ {as bs : List Address}, addressesEq as bs = true ↔ as = bs
  | [], [] => by simp [addressesEq]
  | [], b :: bs => by simp [addressesEq]
  | a :: as, [] => by simp [addressesEq]
  | a :: as, b :: bs => by
    have ha := @addressEq_iff a b
    have has := @addressesEq_iff as bs
    simp [addressesEq, ha, has]

end

instance : DecidableEq Address := fun _ _ => decidable_of_iff _ addressEq_iff

/-! ## The ban list -/

/-- Reasons for banning a server; an administrator says for how many seconds. -/
inductive BanReason
  | failedHealthCheck
  | messageSendFailed
  | messageReceiveFailed
  | failedCheckout
  | statementTimeout
  | adminBan (duration : Int)
  deriving DecidableEq, Repr

/-- Why and when, in seconds. -/
structure Ban where
  reason : BanReason
  time : Int
  deriving DecidableEq, Repr

abbrev Bans := HashMap Address Ban

/-- The banned addresses, shard by shard. -/
abbrev BanList := List Bans

def BanList.start (pool : ConnectionPool) : BanList :=
  pool.banlist.map fun _ => ∅

/-! ## The operations -/

def Ban.duration (pool : ConnectionPool) (b : Ban) : Int :=
  match b.reason with
  | .adminBan duration => duration
  | _ => pool.settings.banTime

def Ban.expired (pool : ConnectionPool) (now : Int) (b : Ban) : Bool :=
  decide (now - b.time > b.duration pool)

section Operations

variable (pool : ConnectionPool) (a : Address)

/-- The primary can never be banned.  An index that is not there panics. -/
def ban (reason : BanReason) (now : Int) (bans : BanList) : Option BanList :=
  if a.role = .primary then some bans
  else bans[a.shard]?.map fun shard => bans.set a.shard (shard.insert a ⟨reason, now⟩)

def unban (bans : BanList) : Option BanList :=
  bans[a.shard]?.map fun shard => bans.set a.shard (shard.erase a)

def isBanned (bans : BanList) : Option Bool :=
  bans[a.shard]?.map fun shard => (shard.lookup a).isSome

def replicas (row : List Address) : List Address :=
  row.filter fun a => a.role = .replica

/-- Unban the address if its ban has expired, or all of its shard if there are as many bans as replicas. -/
def tryUnban (now : Int) (bans : BanList) : Option (BanList × Bool) :=
  if a.role = .primary then some (bans, true)
  else do
    let row ← pool.addresses[a.shard]?
    let shard ← bans[a.shard]?
    if shard.keys.length = (replicas row).length then
      pure (bans.set a.shard ∅, true)
    else
      match shard.lookup a with
      | none => pure (bans, true)
      | some b =>
        if b.expired pool now then pure (bans.set a.shard (shard.erase a), true)
        else pure (bans, false)

def addressesFromHost (host : String) : Option (List Address) :=
  if pool.shards ≤ pool.addresses.length then
    some ((pool.addresses.take pool.shards).flatten.filter fun a => a.host = host)
  else none

/-- `BAN host duration`, as far as this pool is concerned; the clock is read for each address. -/
def adminBan (host : String) (duration : Int) (clock : Nat → Int) (bans : BanList) : Option BanList :=
  if duration ≤ 0 then some bans
  else do
    let addresses ← addressesFromHost pool host
    addresses.zipIdx.foldlM (fun bans entry => do
      if ← isBanned entry.1 bans then pure bans
      else ban entry.1 (.adminBan duration) (clock entry.2) bans) bans

def adminUnban (host : String) (bans : BanList) : Option BanList := do
  let addresses ← addressesFromHost pool host
  addresses.foldlM (fun bans a => do
    if ← isBanned a bans then unban a bans else pure bans) bans

end Operations

/-! ## The invariant -/

def Configured (pool : ConnectionPool) (s : Nat) (a : Address) : Prop :=
  ∃ row, pool.addresses[s]? = some row ∧ a ∈ row

structure BanList.Sound (pool : ConnectionPool) (bans : BanList) : Prop where
  shards : bans.length = pool.addresses.length
  banned : ∀ (s : Nat) shard, bans[s]? = some shard → ∀ a ∈ shard, a.role = .replica ∧ Configured pool s a

namespace BanList.Sound

variable {pool : ConnectionPool} {bans : BanList}

theorem set (h : BanList.Sound pool bans) {s : Nat} {shard : Bans}
    (hshard : ∀ a ∈ shard, a.role = .replica ∧ Configured pool s a) : BanList.Sound pool (bans.set s shard) where
  shards := by rw [List.length_set, h.shards]
  banned := by
    intro s' shard' hget a ha
    rw [List.getElem?_set] at hget
    split at hget
    · rename_i heq
      split at hget
      · cases hget
        exact heq ▸ hshard a ha
      · cases hget
    · exact h.banned s' shard' hget a ha

theorem start (hpool : pool.Represented) : BanList.Sound pool (BanList.start pool) where
  shards := by rw [BanList.start, List.length_map, hpool.banlist, hpool.addresses]
  banned := by
    intro s shard hget a ha
    rw [BanList.start, List.getElem?_map] at hget
    obtain ⟨row, -, rfl⟩ := Option.map_eq_some_iff.mp hget
    exact absurd ha (AList.notMem_empty a)

end BanList.Sound

/-- The addresses sit at their own shard and index, and each is a primary or a replica. -/
structure Orderly (pool : ConnectionPool) : Prop where
  position : ∀ (s i : Nat) row a, pool.addresses[s]? = some row → row[i]? = some a →
    a.shard = s ∧ a.addressIndex = i
  role : ∀ row ∈ pool.addresses, ∀ a ∈ row, a.role ≠ .mirror

/-- The address sits at its own shard, and is a primary or a replica. -/
structure Member (pool : ConnectionPool) (a : Address) : Prop where
  configured : Configured pool a.shard a
  role : a.role ≠ .mirror

variable {a : Address} {pool : ConnectionPool}

theorem Orderly.member (h : Orderly pool) {s : Nat}
    (ha : Configured pool s a) : a.shard = s ∧ Member pool a := by
  obtain ⟨row, hrow, hin⟩ := ha
  obtain ⟨i, hi⟩ := List.mem_iff_getElem?.mp hin
  obtain ⟨rfl, -⟩ := h.position s i row a hrow hi
  exact ⟨rfl, ⟨row, hrow, hin⟩, h.role row (List.mem_of_getElem? hrow) a hin⟩

theorem Member.replica (h : Member pool a) (hprimary : a.role ≠ .primary) : a.role = .replica := by
  have hmirror := h.role
  cases hrole : a.role with
  | primary => exact absurd hrole hprimary
  | replica => rfl
  | mirror => exact absurd hrole hmirror

/-! ## The operations keep it -/

section Keeps

variable {pool : ConnectionPool} {bans : BanList} {a : Address} (h : BanList.Sound pool bans)

include h

theorem BanList.Sound.shard_of_member (ha : Member pool a) :
    ∃ shard, bans[a.shard]? = some shard := by
  obtain ⟨row, hrow, -⟩ := ha.configured
  obtain ⟨hlt, -⟩ := List.getElem?_eq_some_iff.mp hrow
  exact ⟨_, List.getElem?_eq_getElem (by rw [h.shards]; exact hlt)⟩

theorem ban_sound (ha : Member pool a) (reason : BanReason) (now : Int) :
    ∃ bans', ban a reason now bans = some bans' ∧ BanList.Sound pool bans' := by
  unfold ban
  split
  · exact ⟨bans, rfl, h⟩
  · rename_i hprimary
    obtain ⟨shard, hshard⟩ := h.shard_of_member ha
    refine ⟨_, by rw [hshard, Option.map_some], h.set fun b hb => ?_⟩
    rcases AList.mem_insert shard |>.mp hb with rfl | hb
    · exact ⟨ha.replica hprimary, ha.configured⟩
    · exact h.banned _ _ hshard b hb

theorem erase_sound {s : Nat} {shard : Bans} (hshard : bans[s]? = some shard)
    (a : Address) : BanList.Sound pool (bans.set s (shard.erase a)) :=
  h.set fun b hb => h.banned _ _ hshard b (AList.mem_erase.mp hb).2

theorem unban_sound (ha : Member pool a) :
    ∃ bans', unban a bans = some bans' ∧ BanList.Sound pool bans' := by
  obtain ⟨shard, hshard⟩ := h.shard_of_member ha
  exact ⟨_, by rw [unban, hshard, Option.map_some], erase_sound h hshard a⟩

theorem isBanned_eq (ha : Member pool a) :
    ∃ banned, isBanned a bans = some banned := by
  obtain ⟨shard, hshard⟩ := h.shard_of_member ha
  exact ⟨_, by rw [isBanned, hshard, Option.map_some]⟩

/-! ## All replicas of a shard -/

def AllBanned (pool : ConnectionPool) (bans : BanList) (s : Nat) : Prop :=
  ∀ a, Configured pool s a → a.role = .replica → ∃ shard, bans[s]? = some shard ∧ a ∈ shard

omit h in
theorem nodup_row (hpool : Orderly pool) {s : Nat} {row : List Address}
    (hrow : pool.addresses[s]? = some row) : row.Nodup := by
  rw [List.nodup_iff_getElem?_ne_getElem?]
  intro i j hij hj hsame
  have hi : i < row.length := by omega
  have hleft := (hpool.position s i row row[i] hrow (List.getElem?_eq_getElem hi)).2
  have hright := (hpool.position s j row row[j] hrow (List.getElem?_eq_getElem hj)).2
  rw [List.getElem?_eq_getElem hi, List.getElem?_eq_getElem hj, Option.some.injEq] at hsame
  rw [hsame] at hleft
  omega

theorem count_eq_iff_allBanned (hpool : Orderly pool) {s : Nat}
    {row : List Address} {shard : Bans} (hrow : pool.addresses[s]? = some row)
    (hshard : bans[s]? = some shard) :
    shard.keys.length = (replicas row).length ↔ AllBanned pool bans s := by
  have hsub : shard.keys ⊆ replicas row := by
    intro a ha
    obtain ⟨hrole, row', hrow', hin⟩ := h.banned s shard hshard a ha
    rw [hrow] at hrow'
    cases hrow'
    exact List.mem_filter.mpr ⟨hin, by simp [hrole]⟩
  have hreplicas : (replicas row).Nodup := (nodup_row hpool hrow).filter _
  constructor
  · intro hcount a ha hrole
    have hperm := (List.subperm_of_subset shard.keys_nodup hsub).perm_of_length_le hcount.ge
    obtain ⟨row', hrow', hin⟩ := ha
    rw [hrow] at hrow'
    cases hrow'
    exact ⟨shard, hshard, hperm.mem_iff.mpr (List.mem_filter.mpr ⟨hin, by simp [hrole]⟩)⟩
  · intro hall
    have hsup : replicas row ⊆ shard.keys := by
      intro a ha
      obtain ⟨hin, hrole⟩ := List.mem_filter.mp ha
      obtain ⟨shard', hshard', hbanned⟩ := hall a ⟨row, hrow, hin⟩ (by simpa using hrole)
      rw [hshard] at hshard'
      cases hshard'
      exact hbanned
    exact Nat.le_antisymm (List.subperm_of_subset shard.keys_nodup hsub).length_le
      (List.subperm_of_subset hreplicas hsup).length_le

theorem tryUnban_replica (hpool : Orderly pool) (ha : Member pool a)
    (hreplica : a.role = .replica) (now : Int) :
    ∃ shard, bans[a.shard]? = some shard ∧
      (AllBanned pool bans a.shard → tryUnban pool a now bans = some (bans.set a.shard ∅, true)) ∧
      (¬AllBanned pool bans a.shard → tryUnban pool a now bans =
        some (match shard.lookup a with
          | none => (bans, true)
          | some b => if b.expired pool now then (bans.set a.shard (shard.erase a), true) else (bans, false))) := by
  obtain ⟨shard, hshard⟩ := h.shard_of_member ha
  obtain ⟨row, hrow, -⟩ := ha.configured
  have hcount := count_eq_iff_allBanned h hpool hrow hshard
  have hprimary : ¬a.role = .primary := by
    rw [hreplica]
    decide
  refine ⟨shard, hshard, fun hall => ?_, fun hnot => ?_⟩
  · unfold tryUnban
    rw [if_neg hprimary, hrow, hshard]
    exact if_pos (hcount.mpr hall)
  · unfold tryUnban
    rw [if_neg hprimary, hrow, hshard]
    refine (if_neg (mt hcount.mp hnot)).trans ?_
    cases shard.lookup a with
    | none => rfl
    | some b =>
      dsimp only
      split
      · rfl
      · rfl

theorem tryUnban_sound (hpool : Orderly pool) (ha : Member pool a)
    (now : Int) :
    ∃ bans' ok, tryUnban pool a now bans = some (bans', ok) ∧ BanList.Sound pool bans' := by
  by_cases hprimary : a.role = .primary
  · exact ⟨bans, true, if_pos hprimary, h⟩
  · obtain ⟨shard, hshard, hclear, hone⟩ := tryUnban_replica h hpool ha (ha.replica hprimary) now
    by_cases hall : AllBanned pool bans a.shard
    · exact ⟨_, _, hclear hall, h.set fun b hb => absurd hb (AList.notMem_empty b)⟩
    · rw [hone hall]
      cases shard.lookup a with
      | none => exact ⟨_, _, rfl, h⟩
      | some b =>
        dsimp only
        split
        · exact ⟨_, _, rfl, erase_sound h hshard a⟩
        · exact ⟨_, _, rfl, h⟩

omit h in
theorem configured_of_mem_addressesFromHost {host : String} {addresses : List Address}
    (h : addressesFromHost pool host = some addresses) (ha : a ∈ addresses) :
    ∃ s, Configured pool s a := by
  unfold addressesFromHost at h
  split at h
  · cases h
    obtain ⟨row, hrow, hin⟩ := List.mem_flatten.mp (List.mem_filter.mp ha).1
    obtain ⟨s, hs⟩ := List.mem_iff_getElem?.mp (List.mem_of_mem_take hrow)
    exact ⟨s, row, hs, hin⟩
  · cases h

theorem isBanned_of_host (hpool : Orderly pool) {host : String}
    {addresses : List Address} (haddresses : addressesFromHost pool host = some addresses) (hin : a ∈ addresses) :
    Member pool a ∧ ∃ banned, isBanned a bans = some banned := by
  obtain ⟨s, ha⟩ := configured_of_mem_addressesFromHost haddresses hin
  obtain ⟨-, hmember⟩ := hpool.member ha
  exact ⟨hmember, isBanned_eq h hmember⟩

theorem adminBan_sound (hpool : Orderly pool)
    (hshards : pool.shards ≤ pool.addresses.length) (host : String) (duration : Int)
    (clock : Nat → Int) :
    ∃ bans', adminBan pool host duration clock bans = some bans' ∧ BanList.Sound pool bans' := by
  unfold adminBan
  split
  · exact ⟨bans, rfl, h⟩
  · cases haddresses : addressesFromHost pool host with
    | none => simp [addressesFromHost, hshards] at haddresses
    | some addresses =>
      refine foldlM_total (fun bans entry hentry h => ?_) bans h
      have hin : entry.1 ∈ addresses := by
        have hmap := List.mem_map_of_mem (f := Prod.fst) hentry
        rwa [List.zipIdx_map_fst] at hmap
      obtain ⟨hmember, banned, hbanned⟩ := isBanned_of_host h hpool haddresses hin
      rw [hbanned, some_bind]
      cases banned with
      | true => exact ⟨bans, rfl, h⟩
      | false => exact ban_sound h hmember _ _

theorem adminUnban_sound (hpool : Orderly pool)
    (hshards : pool.shards ≤ pool.addresses.length) (host : String) :
    ∃ bans', adminUnban pool host bans = some bans' ∧ BanList.Sound pool bans' := by
  unfold adminUnban
  cases haddresses : addressesFromHost pool host with
  | none => simp [addressesFromHost, hshards] at haddresses
  | some addresses =>
    refine foldlM_total (fun bans a hin h => ?_) bans h
    obtain ⟨hmember, banned, hbanned⟩ := isBanned_of_host h hpool haddresses hin
    rw [hbanned, some_bind]
    cases banned with
    | true => exact unban_sound h hmember
    | false => exact ⟨bans, rfl, h⟩

end Keeps

/-! ## Runs -/

/-- What changes the ban list of a pool. -/
inductive Op
  | ban (a : Address) (reason : BanReason) (now : Int)
  | unban (a : Address)
  | tryUnban (a : Address) (now : Int)
  | adminBan (host : String) (duration : Int) (clock : Nat → Int)
  | adminUnban (host : String)

def Op.run (pool : ConnectionPool) (bans : BanList) : Op → Option BanList
  | .ban a reason now => Checkout.ban a reason now bans
  | .unban a => Checkout.unban a bans
  | .tryUnban a now => (Checkout.tryUnban pool a now bans).map Prod.fst
  | .adminBan host duration clock => Checkout.adminBan pool host duration clock bans
  | .adminUnban host => Checkout.adminUnban pool host bans

/-- The operation names an address of the pool, if it names one. -/
def Op.On (pool : ConnectionPool) : Op → Prop
  | .ban a _ _ | .unban a | .tryUnban a _ => ∃ row ∈ pool.addresses, a ∈ row
  | .adminBan _ _ _ | .adminUnban _ => True

/-- Any number of them, one after the other. -/
def Op.runAll (pool : ConnectionPool) (ops : List Op) (bans : BanList) : Option BanList :=
  ops.foldlM (Op.run pool) bans

theorem Orderly.member_of_mem (h : Orderly pool) (ha : ∃ row ∈ pool.addresses, a ∈ row) : Member pool a := by
  obtain ⟨row, hrow, hin⟩ := ha
  obtain ⟨s, hs⟩ := List.mem_iff_getElem?.mp hrow
  exact (h.member ⟨row, hs, hin⟩).2

section Runs

variable {pool : ConnectionPool} {bans : BanList}

theorem Op.run_sound (hpool : Orderly pool) (hshards : pool.shards ≤ pool.addresses.length)
    (h : BanList.Sound pool bans) {op : Op} (hop : op.On pool) :
    ∃ bans', op.run pool bans = some bans' ∧ BanList.Sound pool bans' := by
  cases op with
  | ban a reason now => exact ban_sound h (hpool.member_of_mem hop) reason now
  | unban a => exact unban_sound h (hpool.member_of_mem hop)
  | tryUnban a now =>
    obtain ⟨bans', ok, hrun, hsound⟩ := tryUnban_sound h hpool (hpool.member_of_mem hop) now
    exact ⟨bans', by rw [Op.run, hrun, Option.map_some], hsound⟩
  | adminBan host duration clock => exact adminBan_sound h hpool hshards host duration clock
  | adminUnban host => exact adminUnban_sound h hpool hshards host

theorem Op.runAll_sound (hpool : Orderly pool) (hshards : pool.shards ≤ pool.addresses.length)
    {ops : List Op} (hops : ∀ op ∈ ops, op.On pool) (h : BanList.Sound pool bans) :
    ∃ bans', Op.runAll pool ops bans = some bans' ∧ BanList.Sound pool bans' :=
  foldlM_total (fun _ op hin h => Op.run_sound hpool hshards h (hops op hin)) bans h

end Runs

/-! ## The pools of `from_config` -/

section Installed

open Install

variable {ext : Externals} {general : General} {job : Job} {pool : ConnectionPool}

def Unmirrored (pool : Install.Pool) : Prop :=
  ∀ e ∈ pool.shards.entries, ∀ server ∈ e.2.servers, server.role ≠ .mirror

theorem server_of_configured {shardIds : List String} {rows : List (List (Database × Address))}
    (h : PoolBuilt ext general job shardIds rows pool) {row : List Address} (hrow : row ∈ pool.addresses) :
    ∃ e ∈ job.pool.shards.entries, row.map Address.role = e.2.servers.map ServerConfig.role := by
  rw [h.addresses] at hrow
  obtain ⟨entries, hentries, rfl⟩ := List.mem_map.mp hrow
  obtain ⟨k, -, shard, hshard, hservers⟩ := exists_of_mem_right h.installed hentries
  refine ⟨⟨k, shard⟩, AList.mem_lookup_iff.mp hshard, ?_⟩
  have hroles : List.Forall₂ (· = ·) (entries.map fun entry => entry.2.role)
      (shard.servers.zipIdx.map fun server => server.1.role) := by
    rw [List.forall₂_map_left_iff, List.forall₂_map_right_iff]
    exact hservers.flip.imp fun _ _ hserver => hserver.server.1
  rw [List.forall₂_eq_eq_eq] at hroles
  have hfst : (shard.servers.zipIdx.map fun server => server.1.role) =
      (shard.servers.zipIdx.map Prod.fst).map ServerConfig.role := by
    rw [List.map_map]
    rfl
  rw [List.map_map]
  rw [List.zipIdx_map_fst] at hfst
  exact hroles.trans hfst

theorem orderly_of_built (h : BuiltFor ext general job pool) (hnumbered : job.pool.Numbered)
    (hroles : Unmirrored job.pool) : Orderly pool := by
  obtain ⟨shardIds, rows, hbuilt⟩ := h
  refine ⟨(hbuilt.represented hnumbered).position, fun row hrow a ha => ?_⟩
  obtain ⟨e, he, hsame⟩ := server_of_configured hbuilt hrow
  have hmem : a.role ∈ e.2.servers.map ServerConfig.role := hsame ▸ List.mem_map_of_mem ha
  obtain ⟨server, hserver, hrole⟩ := List.mem_map.mp hmem
  exact hrole ▸ hroles e he server hserver

theorem tryUnban_banned (hpool : Orderly pool) {bans : BanList} (h : BanList.Sound pool bans) {a : Address}
    {shard : Bans} (hshard : bans[a.shard]? = some shard) (ha : a ∈ shard) (now : Int) :
    ∃ bans' ok, tryUnban pool a now bans = some (bans', ok) ∧
      (AllBanned pool bans a.shard → bans' = bans.set a.shard ∅) ∧
        (¬AllBanned pool bans a.shard → bans' = bans ∨ bans' = bans.set a.shard (shard.erase a)) := by
  obtain ⟨hreplica, hconfigured⟩ := h.banned a.shard shard hshard a ha
  obtain ⟨shard', hshard', hclear, hone⟩ :=
    tryUnban_replica h hpool (hpool.member hconfigured).2 hreplica now
  rw [hshard] at hshard'
  cases hshard'
  by_cases hall : AllBanned pool bans a.shard
  · exact ⟨_, _, hclear hall, fun _ => rfl, fun hnot => absurd hall hnot⟩
  · refine ⟨_, _, hone hall, fun hyes => absurd hyes hall, fun _ => ?_⟩
    cases shard.lookup a with
    | none => exact .inl rfl
    | some b =>
      dsimp only
      split
      · exact .inr rfl
      · exact .inl rfl

/-- In every run on a pool with shards `0, …, n - 1` and without mirrors, what is banned in a shard is a
replica of it; `try_unban` of a banned one clears the shard if all its replicas are banned, and
otherwise touches no other entry. -/
theorem bans_are_replicas {l l' : Locals} (hpool : createPool ext general job l = .ok pool l')
    (hnumbered : job.pool.Numbered) (hroles : Unmirrored job.pool) {ops : List Op}
    (hops : ∀ op ∈ ops, op.On pool) :
    ∃ bans, Op.runAll pool ops (BanList.start pool) = some bans ∧
      (∀ (s : Nat) shard, bans[s]? = some shard →
        ∀ a ∈ shard, a.role = .replica ∧ Configured pool s a) ∧
      ∀ (a : Address) (now : Int) shard, bans[a.shard]? = some shard → a ∈ shard →
        ∃ bans' ok, tryUnban pool a now bans = some (bans', ok) ∧
          (AllBanned pool bans a.shard → bans' = bans.set a.shard ∅) ∧
          (¬AllBanned pool bans a.shard → bans' = bans ∨ bans' = bans.set a.shard (shard.erase a)) ∧
          ((∃ c ∈ shard, c ≠ a) → (bans'[a.shard]? = some ∅ ↔ AllBanned pool bans a.shard)) := by
  obtain ⟨shardIds, rows, hbuilt⟩ := createPool_built hpool
  have hrep := hbuilt.represented hnumbered
  have horderly := orderly_of_built ⟨shardIds, rows, hbuilt⟩ hnumbered hroles
  obtain ⟨bans, hrun, hsound⟩ := Op.runAll_sound horderly hrep.addresses.ge hops (BanList.Sound.start hrep)
  refine ⟨bans, hrun, hsound.banned, fun a now shard hshard ha => ?_⟩
  obtain ⟨bans', ok, htry, hclear, hone⟩ := tryUnban_banned horderly hsound hshard ha now
  obtain ⟨hlt, -⟩ := List.getElem?_eq_some_iff.mp hshard
  refine ⟨bans', ok, htry, hclear, hone, ?_⟩
  rintro ⟨c, hc, hne⟩
  refine ⟨fun hempty => ?_, fun hall => ?_⟩
  · by_contra hnot
    -- The other entry is still there, so the map is not empty.
    rcases hone hnot with rfl | rfl
    · rw [hshard] at hempty
      cases hempty
      exact AList.notMem_empty c hc
    · rw [List.getElem?_set_self hlt] at hempty
      have hstays : c ∈ shard.erase a := AList.mem_erase.mpr ⟨hne, hc⟩
      rw [Option.some.inj hempty] at hstays
      exact AList.notMem_empty c hstays
  · rw [hclear hall, List.getElem?_set_self hlt]

end Installed

namespace Sample

open Install

def threeServers : Shard :=
  ⟨"postgres", none, [Install.Sample.primary, ⟨"replica", 5432, .replica⟩, ⟨"replica", 5433, .replica⟩]⟩

def job : Job :=
  ⟨"sharded_db", Install.Sample.pool (Install.Sample.only "0" threeServers), Install.Sample.user⟩

def general : General :=
  (Install.Sample.config job.pool).general

theorem numbered : job.pool.Numbered :=
  ⟨List.cons_ne_nil _ _, .refl _⟩

theorem unmirrored : Unmirrored job.pool := by
  intro e he server hserver
  cases List.mem_singleton.mp he
  simp only [threeServers, List.mem_cons, List.not_mem_nil, or_false] at hserver
  rcases hserver with rfl | rfl | rfl
  · decide
  · decide
  · decide

/-- Every address fails once, an administrator bans the replicas and clears the primary, and every
address is tried again. -/
def ops (pool : ConnectionPool) : List Op :=
  (pool.addresses.flatten.map fun a => .ban a .failedCheckout 0) ++
    [.adminBan "replica" 60 fun _ => 0, .adminUnban "localhost"] ++
      pool.addresses.flatten.map fun a => .tryUnban a 30

theorem ops_on (pool : ConnectionPool) : ∀ op ∈ ops pool, op.On pool := by
  intro op hop
  simp only [ops, List.append_assoc, List.mem_append, List.mem_map, List.mem_cons, List.not_mem_nil,
    or_false] at hop
  rcases hop with ⟨a, ha, rfl⟩ | (rfl | rfl) | ⟨a, ha, rfl⟩
  · exact List.mem_flatten.mp ha
  · trivial
  · trivial
  · exact List.mem_flatten.mp ha

theorem three_servers_banned :
    ∃ pool l', createPool Install.Sample.ext general job .start = .ok pool l' ∧ job.pool.Numbered ∧
      Unmirrored job.pool ∧ (∀ op ∈ ops pool, op.On pool) ∧
        ∃ bans, Op.runAll pool (ops pool) (BanList.start pool) = some bans ∧
          ∀ (s : Nat) shard, bans[s]? = some shard →
            ∀ a ∈ shard, a.role = .replica ∧ Configured pool s a := by
  have hreturned : returned (createPool Install.Sample.ext general job) .start = true := rfl
  obtain ⟨pool, hpool⟩ := ok_of_returned hreturned
  obtain ⟨bans, hrun, hbanned, -⟩ := bans_are_replicas hpool numbered unmirrored (ops_on pool)
  exact ⟨pool, _, hpool, numbered, unmirrored, ops_on pool, bans, hrun, hbanned⟩

end Sample

end PgCat.Checkout
