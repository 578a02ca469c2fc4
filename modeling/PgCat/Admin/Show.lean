import PgCat.Admin.Hosts
import PgCat.Admin.ResultSet
import PgCat.Install.Reload
import PgCat.Session.ServerStats

/-!
# Show — the tables of the admin database

What the `SHOW` commands read, and the tables they make of it.  A command that indexes into the shards of a
pool, or into its ban list, panics if the index is not there: such a table is an `Option`, and the lemmas at
the end say for which pools it is there.

The maps of the pooler are given as the lists they are iterated in.  What comes from libraries (the texts
of times and of quoted strings, and the connections the server pools count) is given too.
-/

namespace PgCat.Admin

open Lib Auth
open PgCat.Config (Role PoolMode ShardingFunction)
open Install (Address ConnectionPool PoolIdentifier LoadBalancingMode General)
open Checkout (Ban BanList isBanned)
open Session (ClientState)
open Session.ServerStats (ServerState)

/-! ## Statistics -/

structure PoolStats where
  identifier : PoolIdentifier
  poolMode : PoolMode
  clIdle : Nat
  clActive : Nat
  clWaiting : Nat
  clCancelReq : Nat
  svActive : Nat
  svIdle : Nat
  svUsed : Nat
  svTested : Nat
  svLogin : Nat
  maxwait : Nat

/-- The counters in the order they are iterated in; `maxwait` is in microseconds. -/
def PoolStats.counters (p : PoolStats) : List Nat :=
  [p.clIdle, p.clActive, p.clWaiting, p.clCancelReq, p.svActive, p.svIdle, p.svUsed, p.svTested, p.svLogin,
    p.maxwait / 1000000, p.maxwait % 1000000]

def PoolStats.clearMaxwait (p : PoolStats) : PoolStats :=
  { p with maxwait := 0 }

structure AddressStats where
  totalXactCount : Nat
  totalQueryCount : Nat
  totalReceived : Nat
  totalSent : Nat
  totalXactTime : Nat
  totalQueryTime : Nat
  totalWaitTime : Nat
  totalErrors : Nat
  avgQueryCount : Nat
  avgQueryTime : Nat
  avgRecv : Nat
  avgSent : Nat
  avgErrors : Nat
  avgXactTime : Nat
  avgXactCount : Nat
  avgWaitTime : Nat

def AddressStats.counters (s : AddressStats) : List Nat :=
  [s.totalXactCount, s.totalQueryCount, s.totalReceived, s.totalSent, s.totalXactTime, s.totalQueryTime,
    s.totalWaitTime, s.totalErrors, s.avgXactCount, s.avgQueryCount, s.avgRecv, s.avgSent, s.avgErrors,
    s.avgXactTime, s.avgQueryTime, s.avgWaitTime]

/-- A client, and the seconds since it connected. -/
structure ClientStats where
  clientId : Int
  poolName : String
  username : String
  applicationName : String
  state : ClientState
  transactionCount : Nat
  queryCount : Nat
  errorCount : Nat
  age : Nat

/-- A server connection, the pool it belongs to, and the seconds since it was made. -/
structure ServerStats where
  serverId : Int
  pool : PoolIdentifier
  address : Address
  applicationName : String
  state : ServerState
  transactionCount : Nat
  queryCount : Nat
  bytesSent : Nat
  bytesReceived : Nat
  age : Nat

structure Snapshot where
  config : Install.Config
  pools : List PoolEntry
  poolStats : List PoolStats
  clients : List ClientStats
  servers : List ServerStats
  addressStats : Address → AddressStats
  /-- The connections a server pool has. -/
  connections : Address → Nat

structure Environment where
  /-- Arithmetic is checked for overflows. -/
  checks : Bool
  /-- The configuration is logged after a reload. -/
  logs : Bool
  version : String
  /-- The `Display` of the time of a ban, and the `Debug` of a text. -/
  timeText : Ban → String
  debugText : String → String
  /-- Seconds since the epoch. -/
  now : Int
  clock : PoolIdentifier → Nat → Int
  pid : Nat
  /-- The signal can be sent. -/
  killed : Bool
  reloaded : Except Install.Failure Snapshot

/-! ## Texts -/

def poolModeText : PoolMode → String
  | .transaction => "transaction"
  | .session => "session"

def loadBalancingModeText : LoadBalancingMode → String
  | .random => "random"
  | .leastOutstandingConnections => "least_outstanding_connections"

def shardingFunctionText : ShardingFunction → String
  | .pgBigintHash => "pg_bigint_hash"
  | .sha1 => "sha1"

def clientStateText : ClientState → String
  | .idle => "idle"
  | .waiting => "waiting"
  | .active => "active"

def serverStateText : ServerState → String
  | .login => "login"
  | .active => "active"
  | .tested => "tested"
  | .idle => "idle"

/-- Address name used in `SHOW STATS`, `SHOW DATABASES`, and `SHOW POOLS`. -/
def addressName (a : Address) : String :=
  match a.role with
  | .primary => a.poolName ++ "_shard_" ++ toString a.shard ++ "_primary"
  | .replica => a.poolName ++ "_shard_" ++ toString a.shard ++ "_replica_" ++ toString a.replicaNumber
  | .mirror => a.poolName ++ "_shard_" ++ toString a.shard ++ "_mirror_" ++ toString a.replicaNumber

def hexDigit (n : Nat) : Char :=
  if n < 10 then Char.ofNat (48 + n) else Char.ofNat (55 + n)

/-- `0x` and the eight digits of a 32-bit word. -/
def hexWord (i : Int) : String :=
  "0x" ++ String.ofList ((List.range 8).map fun k => hexDigit (ofSigned 32 i / 16 ^ (7 - k) % 16))

def flagText (b : Bool) : String :=
  if b then "1" else "0"

/-! ## Tables -/

/-- Columns, rows, and the tag of `CommandComplete`. -/
structure Table where
  columns : List (String × DataType)
  rows : List (List String)
  tag : String

def hostColumns : List (String × DataType) :=
  [("db", .text), ("user", .text), ("role", .text), ("host", .text)]

def banColumns : List (String × DataType) :=
  hostColumns ++ [("reason", .text), ("ban_time", .text), ("ban_duration_seconds", .text),
    ("ban_remaining_seconds", .text)]

/-- The number of servers of a pool. -/
def databases (pool : ConnectionPool) : Option Nat :=
  if pool.shards ≤ pool.addresses.length then some (pool.addresses.take pool.shards).flatten.length else none

section Tables

variable (env : Environment) (st : Snapshot)

/-- The clock must not be before the epoch. -/
def bansTable : Option Table :=
  if 0 ≤ env.now then
    (showBans env.checks env.timeText env.now st.pools).map fun rows => ⟨banColumns, rows, "SHOW BANS"⟩
  else none

def listsTable : Option Table :=
  (st.pools.mapM fun e => databases e.pool).map fun counts =>
  let total := counts.foldl (· + ·) 1
  ⟨[("list", .text), ("items", .int4)],
    [["databases", toString total],
     ["users", toString (st.pools.length + 1)],
     ["pools", toString total],
     ["free_clients", toString (st.clients.countP fun c => c.state = .idle)],
     ["used_clients", toString (st.clients.countP fun c => c.state = .active)],
     ["login_clients", "0"],
     ["free_servers", toString (st.servers.countP fun s => s.state = .idle)],
     ["used_servers", toString (st.servers.countP fun s => s.state = .active)],
     ["dns_names", "0"],
     ["dns_zones", "0"],
     ["dns_queries", "0"],
     ["dns_pending", "0"]],
    "SHOW"⟩

def versionTable : Table :=
  ⟨[("version", .text)], [["PgCat " ++ env.version]], "SHOW"⟩

def poolsTable : Table where
  columns := [("database", .text), ("user", .text), ("pool_mode", .text), ("cl_idle", .numeric),
    ("cl_active", .numeric), ("cl_waiting", .numeric), ("cl_cancel_req", .numeric), ("sv_active", .numeric),
    ("sv_idle", .numeric), ("sv_used", .numeric), ("sv_tested", .numeric), ("sv_login", .numeric),
    ("maxwait", .numeric), ("maxwait_us", .numeric)]
  rows := st.poolStats.map fun p =>
    [p.identifier.db, p.identifier.user, poolModeText p.poolMode] ++ p.counters.map toString
  tag := "SHOW"

def databaseRow (e : PoolEntry) (name : String) (a : Address) (banned : Bool) : List String :=
  [addressName a, a.host, toString a.port, name, e.pool.settings.user.username,
    toString e.pool.settings.user.poolSize, "0", "0", poolModeText e.pool.settings.poolMode,
    toString e.pool.settings.user.poolSize, toString (st.connections a), flagText e.pool.paused,
    flagText banned]

/-- The row of the server at an index, which is looked up in the server pools and in the ban list. -/
def serverRow (e : PoolEntry) (shard : Nat) (name : String) (server : Address × Nat) :
    Option (List String) := do
  let pools ← e.pool.databases[shard]?
  let _ ← pools[server.2]?
  let banned ← isBanned server.1 e.bans
  pure (databaseRow st e name server.1 banned)

/-- The first server of a shard gives the name of the database: a shard without servers panics. -/
def shardRows (e : PoolEntry) (shard : Nat) : Option (List (List String)) := do
  let row ← e.pool.addresses[shard]?
  let first ← row[0]?
  row.zipIdx.mapM (serverRow st e shard first.database)

def databasesTable : Option Table :=
  (st.pools.mapM fun e => (List.range e.pool.shards).mapM (shardRows st e)).map fun rows =>
  ⟨[("name", .text), ("host", .text), ("port", .text), ("database", .text), ("force_user", .text),
      ("pool_size", .int4), ("min_pool_size", .int4), ("reserve_pool", .int4), ("pool_mode", .text),
      ("max_connections", .int4), ("current_connections", .int4), ("paused", .int4), ("disabled", .int4)],
    rows.flatten.flatten, "SHOW"⟩

def poolSettings (name : String) (pool : Install.Pool) : List (String × String) :=
  [("pools." ++ name ++ ".pool_mode", poolModeText pool.poolMode),
   ("pools." ++ name ++ ".load_balancing_mode", loadBalancingModeText pool.loadBalancingMode),
   ("pools." ++ name ++ ".primary_reads_enabled", toString pool.primaryReadsEnabled),
   ("pools." ++ name ++ ".query_parser_enabled", toString pool.queryParserEnabled),
   ("pools." ++ name ++ ".default_role", pool.defaultRole),
   ("pools." ++ name ++ ".sharding_function", shardingFunctionText pool.shardingFunction),
   ("pools." ++ env.debugText name ++ ".shard_count", toString pool.shards.entries.length),
   ("pools." ++ env.debugText name ++ ".users", ", ".intercalate (pool.users.values.map fun user => user.username))]

def staticSettings (general : General) : List (String × String) :=
  [("host", general.host),
   ("port", toString general.port),
   ("prometheus_exporter_port", toString general.prometheusExporterPort),
   ("connect_timeout", toString general.connectTimeout),
   ("idle_timeout", toString general.idleTimeout),
   ("healthcheck_timeout", toString general.healthcheckTimeout),
   ("shutdown_timeout", toString general.shutdownTimeout),
   ("healthcheck_delay", toString general.healthcheckDelay),
   ("ban_time", toString general.banTime),
   ("idle_client_in_transaction_timeout", toString general.idleClientInTransactionTimeout)]

/-- `From<&Config> for HashMap<String, String>`. -/
def settingsMap : HashMap String String :=
  let settings := st.config.pools.entries.flatMap (fun e => poolSettings env e.1 e.2) ++
    staticSettings st.config.general
  settings.foldl (fun m setting => m.insert setting.1 setting.2) ∅

/-- Settings that cannot be changed without restarting are marked. -/
def configTable : Table where
  columns := [("key", .text), ("value", .text), ("default", .text), ("changeable", .text)]
  rows := (settingsMap env st).entries.map fun setting =>
    [setting.1, setting.2, "-", if setting.1 ∈ ["host", "port", "connect_timeout"] then "no" else "yes"]
  tag := "SHOW"

def statRows (e : PoolEntry) (shard : Nat) : Option (List (List String)) :=
  e.pool.addresses[shard]?.map fun row => row.map fun a =>
    [addressName a, e.id.db, e.id.user] ++ (st.addressStats a).counters.map toString

def statsTable : Option Table :=
  (st.pools.mapM fun e => (List.range e.pool.shards).mapM (statRows st e)).map fun rows =>
  ⟨[("instance", .text), ("database", .text), ("user", .text), ("total_xact_count", .numeric),
      ("total_query_count", .numeric), ("total_received", .numeric), ("total_sent", .numeric),
      ("total_xact_time", .numeric), ("total_query_time", .numeric), ("total_wait_time", .numeric),
      ("total_errors", .numeric), ("avg_xact_count", .numeric), ("avg_query_count", .numeric),
      ("avg_recv", .numeric), ("avg_sent", .numeric), ("avg_errors", .numeric), ("avg_xact_time", .numeric),
      ("avg_query_time", .numeric), ("avg_wait_time", .numeric)],
    rows.flatten.flatten, "SHOW"⟩

def clientsTable : Table where
  columns := [("client_id", .text), ("database", .text), ("user", .text), ("application_name", .text),
    ("state", .text), ("transaction_count", .numeric), ("query_count", .numeric), ("error_count", .numeric),
    ("age_seconds", .numeric)]
  rows := st.clients.map fun c =>
    [hexWord c.clientId, c.poolName, c.username, c.applicationName, clientStateText c.state,
      toString c.transactionCount, toString c.queryCount, toString c.errorCount, toString c.age]
  tag := "SHOW"

def serversTable : Table where
  columns := [("server_id", .text), ("database_name", .text), ("user", .text), ("address_id", .text),
    ("application_name", .text), ("state", .text), ("transaction_count", .numeric), ("query_count", .numeric),
    ("bytes_sent", .numeric), ("bytes_received", .numeric), ("age_seconds", .numeric)]
  rows := st.servers.map fun s =>
    [hexWord s.serverId, s.pool.db, s.pool.user, addressName s.address, s.applicationName,
      serverStateText s.state, toString s.transactionCount, toString s.queryCount, toString s.bytesSent,
      toString s.bytesReceived, toString s.age]
  tag := "SHOW"

def usersTable : Table where
  columns := [("name", .text), ("pool_mode", .text)]
  rows := st.pools.map fun e => [e.id.user, poolModeText e.pool.settings.poolMode]
  tag := "SHOW"

end Tables

/-! ## Tables that are there -/

def Listed (e : PoolEntry) : Prop :=
  e.pool.shards ≤ e.pool.addresses.length

/-- Every shard has a server, and every server has its connections and a place in the ban list. -/
def Displayable (e : PoolEntry) : Prop :=
  ∀ s < e.pool.shards, ∃ row pools, e.pool.addresses[s]? = some row ∧ e.pool.databases[s]? = some pools ∧
    row ≠ [] ∧ row.length ≤ pools.length ∧ ∀ a ∈ row, a.shard < e.bans.length

section Returns

variable {env : Environment} {st : Snapshot}

theorem banRow_returns_iff {e : PoolEntry} {banned : Address × Ban} :
    (∃ row, banRow env.checks env.timeText env.now e banned = some row) ↔
      ∃ left, remaining env.checks env.now e.pool banned.2 = some left := by
  constructor
  · rintro ⟨row, hrow⟩
    obtain ⟨left, hleft, -⟩ := Option.bind_eq_some_iff.mp hrow
    exact ⟨left, hleft⟩
  · rintro ⟨left, hleft⟩
    obtain ⟨shown, hshown, -⟩ := @banRow_shown env.checks env.timeText env.now e banned left hleft
    exact ⟨shown, hshown⟩

theorem bansTable_returns_iff : (∃ t, bansTable env st = some t) ↔ 0 ≤ env.now ∧
    ∀ e ∈ st.pools, ∀ banned ∈ getBans e.bans, ∃ left, remaining env.checks env.now e.pool banned.2 = some left := by
  by_cases hnow : 0 ≤ env.now
  · rw [bansTable, if_pos hnow, map_returns_iff, showBans, map_returns_iff, mapM_returns_iff]
    simp only [banRow_returns_iff, List.mem_flatMap, List.mem_map, hnow, true_and]
    constructor
    · intro hall e he banned hbanned
      exact hall (e, banned) ⟨e, he, banned, hbanned, rfl⟩
    · rintro hall _ ⟨e, he, banned, hbanned, rfl⟩
      exact hall e he banned hbanned
  · simp [bansTable, hnow]

theorem listsTable_returns_iff : (∃ t, listsTable st = some t) ↔ ∀ e ∈ st.pools, Listed e := by
  rw [listsTable, map_returns_iff, mapM_returns_iff]
  refine forall₂_congr fun e _ => ?_
  unfold databases Listed
  split
  · rename_i hle
    exact iff_of_true ⟨_, rfl⟩ hle
  · rename_i hlt
    exact iff_of_false (by simp) hlt

theorem statsTable_returns_iff : (∃ t, statsTable st = some t) ↔ ∀ e ∈ st.pools, Listed e := by
  rw [statsTable, map_returns_iff, mapM_returns_iff]
  refine forall₂_congr fun e _ => ?_
  simp only [mapM_returns_iff, statRows, map_returns_iff, List.mem_range, Listed]
  constructor
  · intro hall
    by_contra hlt
    obtain ⟨row, hrow⟩ := hall e.pool.addresses.length (by omega)
    exact absurd (List.getElem?_eq_some_iff.mp hrow).1 (Nat.lt_irrefl _)
  · exact fun hle s hs => ⟨_, List.getElem?_eq_getElem (by omega)⟩

theorem serverRow_returns_iff {e : PoolEntry} {s : Nat} {name : String} {server : Address × Nat}
    {pools : List Install.Database} (hpools : e.pool.databases[s]? = some pools) :
    (∃ row, serverRow st e s name server = some row) ↔
      server.2 < pools.length ∧ server.1.shard < e.bans.length := by
  simp only [serverRow, hpools, Option.bind_eq_bind, Option.bind_some, Option.bind_eq_some_iff]
  constructor
  · rintro ⟨r, pool, hpool, banned, hbanned, -⟩
    exact ⟨(List.getElem?_eq_some_iff.mp hpool).1, (Checkout.isBanned_eq_some.mp hbanned).1⟩
  · rintro ⟨hi, ha⟩
    exact ⟨_, _, List.getElem?_eq_getElem hi, _, Checkout.isBanned_eq_some.mpr ⟨ha, rfl⟩, rfl⟩

theorem shardRows_returns_iff {e : PoolEntry} {s : Nat} (hs : s < e.pool.shards) :
    (∃ rows, shardRows st e s = some rows) ↔
      ∃ row pools, e.pool.addresses[s]? = some row ∧ e.pool.databases[s]? = some pools ∧ row ≠ [] ∧
        row.length ≤ pools.length ∧ ∀ a ∈ row, a.shard < e.bans.length := by
  obtain ⟨pools, hpools⟩ : ∃ pools, e.pool.databases[s]? = some pools :=
    ⟨_, List.getElem?_eq_getElem hs⟩
  -- Each server is looked up by its index in the pools and by its own shard in the ban list.
  have hservers : ∀ (row : List Address) (name : String),
      (∃ rows, row.zipIdx.mapM (serverRow st e s name) = some rows) ↔
        ∀ i a, row[i]? = some a → i < pools.length ∧ a.shard < e.bans.length := by
    intro row name
    simp only [mapM_returns_iff, serverRow_returns_iff hpools]
    constructor
    · exact fun hall i a hi => hall (a, i) (List.mk_mem_zipIdx_iff_getElem?.mpr hi)
    · exact fun hall server hin => hall server.2 server.1 (List.mk_mem_zipIdx_iff_getElem?.mp hin)
  simp only [shardRows, Option.bind_eq_bind, Option.bind_eq_some_iff]
  constructor
  · rintro ⟨rows, row, hrow, first, hfirst, hrows⟩
    have hall := (hservers row first.database).mp ⟨rows, hrows⟩
    refine ⟨row, pools, hrow, hpools, ?_, ?_, ?_⟩
    · rintro rfl
      cases hfirst
    · -- The first server without a pool would be at this index.
      by_contra hlong
      have hlast : pools.length < row.length := by omega
      exact absurd (hall pools.length _ (List.getElem?_eq_getElem hlast)).1 (Nat.lt_irrefl _)
    · intro a ha
      obtain ⟨i, hi⟩ := List.mem_iff_getElem?.mp ha
      exact (hall i a hi).2
  · rintro ⟨row, pools', hrow, hpools', hne, hlength, hshards⟩
    rw [hpools] at hpools'
    cases hpools'
    obtain ⟨first, rest, rfl⟩ := List.exists_cons_of_ne_nil hne
    obtain ⟨rows, hrows⟩ := (hservers (first :: rest) first.database).mpr fun i a hi =>
      ⟨Nat.lt_of_lt_of_le (List.getElem?_eq_some_iff.mp hi).1 hlength, hshards a (List.mem_of_getElem? hi)⟩
    exact ⟨rows, first :: rest, hrow, first, rfl, hrows⟩

theorem databasesTable_returns_iff : (∃ t, databasesTable st = some t) ↔ ∀ e ∈ st.pools, Displayable e := by
  rw [databasesTable, map_returns_iff, mapM_returns_iff]
  refine forall₂_congr fun e _ => ?_
  rw [mapM_returns_iff]
  constructor
  · exact fun hall s hs => (shardRows_returns_iff hs).mp (hall s (List.mem_range.mpr hs))
  · exact fun hall s hs => (shardRows_returns_iff (List.mem_range.mp hs)).mpr (hall s (List.mem_range.mp hs))

end Returns

end PgCat.Admin
