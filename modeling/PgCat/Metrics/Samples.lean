import PgCat.Admin.Show
import PgCat.Lib.Indexed

/-!
# Samples — what the exporter answers

`prometheus_stats` and what it pushes, family by family: the counters of the addresses, of the pools, of the server
connections and of the server pools.  A metric that is not in the table of help texts is left out, with a warning.

A server connection is looked up by the name of its address in an index that keeps the last connection of a name.

`Sources.samples_returns` says once what a response holds, by its series: the name of a sample and its labels.
The pools, which the code loads once per family, are given as one snapshot.
-/

namespace PgCat.Metrics

open Lib
open PgCat.Config (Role)
open Install (Address ConnectionPool Database PoolIdentifier)
open Admin (PoolStats AddressStats ServerStats addressName roleText)

/-! ## Metrics -/

structure MetricHelpType where
  help : String
  ty : String

def metricHelpAndTypes : List (String × MetricHelpType) :=
  [("stats_total_query_count", ⟨"Number of queries sent by all clients", "counter"⟩),
   ("stats_total_query_time", ⟨"Total amount of time for queries to execute", "counter"⟩),
   ("stats_total_received", ⟨"Number of bytes received from the server", "counter"⟩),
   ("stats_total_sent", ⟨"Number of bytes sent to the server", "counter"⟩),
   ("stats_total_xact_count", ⟨"Total number of transactions started by the client", "counter"⟩),
   ("stats_total_xact_time", ⟨"Total amount of time for all transactions to execute", "counter"⟩),
   ("stats_total_wait_time", ⟨"Total time client waited for a server connection", "counter"⟩),
   ("stats_avg_query_count", ⟨"Average of total_query_count every 15 seconds", "gauge"⟩),
   ("stats_avg_query_time", ⟨"Average time taken for queries to execute every 15 seconds", "gauge"⟩),
   ("stats_avg_recv", ⟨"Average of total_received bytes every 15 seconds", "gauge"⟩),
   ("stats_avg_sent", ⟨"Average of total_sent bytes every 15 seconds", "gauge"⟩),
   ("stats_avg_errors", ⟨"Average number of errors every 15 seconds", "gauge"⟩),
   ("stats_avg_xact_count", ⟨"Average of total_xact_count every 15 seconds", "gauge"⟩),
   ("stats_avg_xact_time", ⟨"Average of total_xact_time every 15 seconds", "gauge"⟩),
   ("stats_avg_wait_time", ⟨"Average of total_wait_time every 15 seconds", "gauge"⟩),
   ("pools_maxwait_us", ⟨"The time a client waited for a server connection in microseconds", "gauge"⟩),
   ("pools_maxwait", ⟨"The time a client waited for a server connection in seconds", "gauge"⟩),
   ("pools_cl_waiting", ⟨"How many clients are waiting for a connection from the pool", "gauge"⟩),
   ("pools_cl_active", ⟨"How many clients are actively communicating with a server", "gauge"⟩),
   ("pools_cl_idle", ⟨"How many clients are idle", "gauge"⟩),
   ("pools_sv_idle", ⟨"How many server connections are idle", "gauge"⟩),
   ("pools_sv_active", ⟨"How many server connections are actively communicating with a client", "gauge"⟩),
   ("pools_sv_login", ⟨"How many server connections are currently being created", "gauge"⟩),
   ("pools_sv_tested",
     ⟨"How many server connections are currently waiting on a health check to succeed", "gauge"⟩),
   ("servers_bytes_received", ⟨"Volume in bytes of network traffic received by server", "gauge"⟩),
   ("servers_bytes_sent", ⟨"Volume in bytes of network traffic sent by server", "gauge"⟩),
   ("servers_transaction_count", ⟨"Number of transactions executed by server", "gauge"⟩),
   ("servers_query_count", ⟨"Number of queries executed by server", "gauge"⟩),
   ("servers_error_count", ⟨"Number of errors", "gauge"⟩),
   ("databases_pool_size", ⟨"Maximum number of server connections", "gauge"⟩),
   ("databases_current_connections", ⟨"Current number of connections for this database", "gauge"⟩)]

structure PrometheusMetric where
  name : String
  help : String
  ty : String
  labels : HashMap String String
  value : Nat

namespace PrometheusMetric

def text (m : PrometheusMetric) : String :=
  let labels := ",".intercalate (m.labels.entries.map fun e => e.1 ++ "=\"" ++ e.2 ++ "\"")
  let name := "pgcat_" ++ m.name
  "# HELP " ++ name ++ " " ++ m.help ++ "\n# TYPE " ++ name ++ " " ++ m.ty ++ "\n" ++
    name ++ "\x7b" ++ labels ++ "\x7d " ++ toString m.value ++ "\n"

def fromName (name : String) (value : Nat) (labels : HashMap String String) : Option PrometheusMetric :=
  (metricHelpAndTypes.lookup name).map fun metric => ⟨name, metric.help, metric.ty, labels, value⟩

def fromDatabaseInfo (address : Address) (name : String) (value : Nat) : Option PrometheusMetric :=
  fromName ("databases_" ++ name) value (.ofPairs
    [("host", address.host), ("shard", toString address.shard), ("role", roleText address.role),
     ("pool", address.poolName), ("database", address.database)])

def fromServerInfo (address : Address) (name : String) (value : Nat) : Option PrometheusMetric :=
  fromName ("servers_" ++ name) value (.ofPairs
    [("host", address.host), ("shard", toString address.shard), ("role", roleText address.role),
     ("pool", address.poolName), ("database", address.database)])

def fromAddress (address : Address) (name : String) (value : Nat) : Option PrometheusMetric :=
  fromName ("stats_" ++ name) value (.ofPairs
    [("host", address.host), ("shard", toString address.shard), ("pool", address.poolName),
     ("role", roleText address.role), ("database", address.database)])

def fromPool (pool : PoolIdentifier) (name : String) (value : Nat) : Option PrometheusMetric :=
  fromName ("pools_" ++ name) value (.ofPairs [("pool", pool.db), ("user", pool.user)])

end PrometheusMetric

open PrometheusMetric

/-! ## Counters -/

def addressStatNames : List String :=
  ["total_xact_count", "total_query_count", "total_received", "total_sent", "total_xact_time", "total_query_time",
    "total_wait_time", "total_errors", "avg_xact_count", "avg_query_count", "avg_recv", "avg_sent", "avg_errors",
    "avg_xact_time", "avg_query_time", "avg_wait_time"]

def poolStatNames : List String :=
  ["cl_idle", "cl_active", "cl_waiting", "cl_cancel_req", "sv_active", "sv_idle", "sv_used", "sv_tested", "sv_login",
    "maxwait", "maxwait_us"]

/-- A server connection, with the counter that `SHOW SERVERS` does not show. -/
structure ServerInfo extends ServerStats where
  errorCount : Nat

def ServerInfo.metrics (s : ServerInfo) : List (String × Nat) :=
  [("bytes_received", s.bytesReceived), ("bytes_sent", s.bytesSent), ("transaction_count", s.transactionCount),
    ("query_count", s.queryCount), ("error_count", s.errorCount)]

def pushed (metric : String → Nat → Option PrometheusMetric) (counters : List (String × Nat)) :
    List PrometheusMetric :=
  counters.filterMap fun c => metric c.1 c.2

/-! ## The exporter -/

/-- What a request reads: `POOLS`, `POOL_STATS` and `SERVER_STATS`, the counters of the addresses and the
connections of the server pools. -/
structure Sources where
  pools : HashMap PoolIdentifier ConnectionPool
  poolStats : HashMap PoolIdentifier PoolStats
  servers : HashMap Int ServerInfo
  addressStats : Address → AddressStats
  connections : Database → Nat

structure Position where
  pool : ConnectionPool
  shard : Nat
  server : Nat
  address : Address

/-- The two loops over a pool; a shard without a row of addresses panics. -/
def positions (pool : ConnectionPool) : Option (List Position) :=
  if pool.shards ≤ pool.addresses.length then
    some ((pool.addresses.take pool.shards).zipIdx.flatMap fun row =>
      row.1.zipIdx.map fun server => ⟨pool, row.2, server.2, server.1⟩)
  else none

inductive Method
  | get
  | other
  deriving DecidableEq, Repr

structure Request where
  method : Method
  path : String
  deriving DecidableEq, Repr

structure Response where
  status : Nat
  contentType : Option String
  body : String

namespace Sources

variable (src : Sources)

def positions : Option (List Position) :=
  (src.pools.entries.mapM fun e => Metrics.positions e.2).map List.flatten

def pushAddressStats : Option (List PrometheusMetric) :=
  src.positions.map fun ps => ps.flatMap fun p =>
    pushed (fromAddress p.address) (addressStatNames.zip (src.addressStats p.address).counters)

def pushPoolStats : List PrometheusMetric :=
  src.poolStats.entries.flatMap fun e => pushed (fromPool e.1) (poolStatNames.zip e.2.counters)

/-- Connections of the same name overwrite each other. -/
def serverStatsByAddresses : HashMap String ServerInfo :=
  .ofPairs (src.servers.entries.map fun e => (addressName e.2.address, e.2))

def serverMetrics (address : Address) : List PrometheusMetric :=
  match src.serverStatsByAddresses.lookup (addressName address) with
  | some info => pushed (fromServerInfo address) info.metrics
  | none => []

def pushServerStats : Option (List PrometheusMetric) :=
  src.positions.map fun ps => ps.flatMap fun p => src.serverMetrics p.address

/-- `pool_state` panics if there is no server pool at the position. -/
def databaseMetrics (p : Position) : Option (List PrometheusMetric) := do
  let row ← p.pool.databases[p.shard]?
  let database ← row[p.server]?
  pure (pushed (fromDatabaseInfo p.address)
    [("pool_size", p.pool.settings.user.poolSize), ("current_connections", src.connections database)])

def pushDatabaseStats : Option (List PrometheusMetric) :=
  src.positions.bind fun ps => (ps.mapM src.databaseMetrics).map List.flatten

def samples : Option (List PrometheusMetric) := do
  let addresses ← src.pushAddressStats
  let servers ← src.pushServerStats
  let databases ← src.pushDatabaseStats
  pure (addresses ++ src.pushPoolStats ++ servers ++ databases)

def prometheusStats (request : Request) : Option Response :=
  if request.method = .get ∧ request.path = "/metrics" then
    src.samples.map fun ms => ⟨200, some "text/plain; version=0.0.4", "\n".intercalate (ms.map text)⟩
  else some ⟨404, none, ""⟩

end Sources

/-! ## Series -/

abbrev Labels := String → Option String

/-- What a sample is recorded under. -/
def PrometheusMetric.series (m : PrometheusMetric) : Labels × String :=
  (fun label => m.labels.lookup label, m.name)

/-- What the labels of an address tell apart. -/
def labelled (a : Address) : String × Nat × Role × String × String :=
  (a.host, a.shard, a.role, a.poolName, a.database)

def addressLabels (a : Address) : Labels := fun label =>
  (HashMap.ofPairs
    [("host", a.host), ("shard", toString a.shard), ("role", roleText a.role), ("pool", a.poolName),
     ("database", a.database)]).lookup label

def poolLabels (id : PoolIdentifier) : Labels := fun label =>
  (HashMap.ofPairs [("pool", id.db), ("user", id.user)]).lookup label

theorem toString_injective {m n : Nat} (h : toString m = toString n) : m = n := by
  have hread : ∀ k : Nat, parseNat (toString k).toList = some k := by
    intro k
    change parseNat (String.ofList (Nat.toDigits 10 k)).toList = some k
    rw [String.toList_ofList]
    exact parseNat_toDigits k
  have hsame := hread m
  rw [h, hread n] at hsame
  exact (Option.some.inj hsame).symm

theorem roleText_injective {r r' : Role} (h : roleText r = roleText r') : r = r' := by
  cases r <;> cases r' <;> first | rfl | exact absurd h (by decide)

theorem addressLabels_eq_iff {a b : Address} : addressLabels a = addressLabels b ↔ labelled a = labelled b := by
  constructor
  · intro h
    have hhost := congrFun h "host"
    have hshard := congrFun h "shard"
    have hrole := congrFun h "role"
    have hpool := congrFun h "pool"
    have hdatabase := congrFun h "database"
    simp only [addressLabels, HashMap.lookup_ofPairs] at hhost hshard hrole hpool hdatabase
    simp only [decide_true, List.filter_cons_of_pos, String.reduceEq, decide_false, Bool.false_eq_true,
      not_false_eq_true, List.filter_cons_of_neg, List.filter_nil, List.getLast?_singleton, Option.map_some,
      Option.some.injEq] at hhost hshard hrole hpool hdatabase
    simp only [labelled, Prod.mk.injEq]
    exact ⟨hhost, toString_injective hshard, roleText_injective hrole, hpool, hdatabase⟩
  · intro h
    simp only [labelled, Prod.mk.injEq] at h
    obtain ⟨hhost, hshard, hrole, hpool, hdatabase⟩ := h
    unfold addressLabels
    rw [hhost, hshard, hrole, hpool, hdatabase]

theorem poolLabels_injective {id id' : PoolIdentifier} (h : poolLabels id = poolLabels id') : id = id' := by
  have hpool := congrFun h "pool"
  have huser := congrFun h "user"
  simp only [poolLabels, HashMap.lookup_ofPairs] at hpool huser
  simp at hpool huser
  cases id
  cases id'
  cases hpool
  cases huser
  rfl

/-! ## What is pushed -/

def emitted (family : String) (names : List String) : List String :=
  (names.map fun name => family ++ name).filter fun name => (metricHelpAndTypes.lookup name).isSome

theorem fromName_eq_some {name : String} {value : Nat} {labels : HashMap String String} {m : PrometheusMetric}
    (h : fromName name value labels = some m) :
    m.series = (fun label => labels.lookup label, name) ∧ m.value = value := by
  obtain ⟨metric, -, rfl⟩ := Option.map_eq_some_iff.mp h
  exact ⟨rfl, rfl⟩

theorem series_pushed (family : String) (labels : HashMap String String) (counters : List (String × Nat)) :
    (pushed (fun name value => fromName (family ++ name) value labels) counters).map series =
      (emitted family (counters.map Prod.fst)).map fun name => (fun label => labels.lookup label, name) := by
  induction counters with
  | nil => rfl
  | cons c counters ih =>
    rw [pushed, emitted, List.map_cons, List.map_cons]
    rw [pushed, emitted] at ih
    cases hlookup : metricHelpAndTypes.lookup (family ++ c.1) with
    | none =>
      have hnone : fromName (family ++ c.1) c.2 labels = none := by rw [fromName, hlookup]; rfl
      rw [List.filterMap_cons, List.filter_cons_of_neg (by simp [hlookup]), hnone]
      exact ih
    | some metric =>
      have hsome : fromName (family ++ c.1) c.2 labels =
          some ⟨family ++ c.1, metric.help, metric.ty, labels, c.2⟩ := by rw [fromName, hlookup]; rfl
      rw [List.filterMap_cons, List.filter_cons_of_pos (by simp [hlookup]), hsome, List.map_cons, ih]
      rfl

/-- One family: the same names for every element, under the labels of the element. -/
theorem series_flatMap {α : Type} {l : List α} {f : α → List PrometheusMetric} {labels : α → Labels}
    {names : List String} (h : ∀ x ∈ l, (f x).map series = names.map fun name => (labels x, name)) :
    (l.flatMap f).map series = l.map labels ×ˢ names := by
  induction l with
  | nil => rfl
  | cons x l ih =>
    rw [List.flatMap_cons, List.map_append, h x List.mem_cons_self,
      ih fun y hy => h y (List.mem_cons_of_mem x hy), List.map_cons, List.product_cons]

def Shaped (pool : ConnectionPool) : Prop :=
  ∃ rows : List (List (Database × Address)),
    pool.databases = (rows.map fun row => row.map Prod.fst) ∧ pool.addresses = rows.map fun row => row.map Prod.snd

def Position.Served (p : Position) : Prop :=
  ∃ row database, p.pool.databases[p.shard]? = some row ∧ row[p.server]? = some database

theorem positions_returns {pool : ConnectionPool} (h : Shaped pool) :
    ∃ ps, positions pool = some ps ∧ ps.map Position.address = pool.addresses.flatten ∧ ∀ p ∈ ps, p.Served := by
  obtain ⟨rows, hdatabases, haddresses⟩ := h
  have hshards : pool.shards = pool.addresses.length := by
    rw [ConnectionPool.shards, hdatabases, haddresses, List.length_map, List.length_map]
  refine ⟨_, by rw [positions, hshards, if_pos (Nat.le_refl _), List.take_length], ?_, ?_⟩
  · rw [List.map_flatMap]
    simp only [List.map_map, Function.comp_def]
    have hrow : ∀ row : List Address × Nat, (row.1.zipIdx.map fun server => server.1) = row.1 := fun row =>
      List.zipIdx_map_fst 0 row.1
    simp only [hrow]
    rw [List.flatMap_def, List.zipIdx_map_fst]
  · intro p hp
    obtain ⟨⟨row, shard⟩, hrow, hserver⟩ := List.mem_flatMap.mp hp
    obtain ⟨⟨a, server⟩, ha, rfl⟩ := List.mem_map.mp hserver
    have hat : pool.addresses[shard]? = some row := List.mk_mem_zipIdx_iff_getElem?.mp hrow
    have hin : row[server]? = some a := List.mk_mem_zipIdx_iff_getElem?.mp ha
    rw [haddresses, List.getElem?_map] at hat
    obtain ⟨built, hbuilt, rfl⟩ := Option.map_eq_some_iff.mp hat
    rw [List.getElem?_map] at hin
    obtain ⟨entry, hentry, -⟩ := Option.map_eq_some_iff.mp hin
    refine ⟨built.map Prod.fst, entry.1, ?_, ?_⟩
    · change pool.databases[shard]? = _
      rw [hdatabases, List.getElem?_map, hbuilt, Option.map_some]
    · change (built.map Prod.fst)[server]? = _
      rw [List.getElem?_map, hentry, Option.map_some]

namespace Sources

variable (src : Sources)

def addresses : List Address :=
  src.pools.entries.flatMap fun e => e.2.addresses.flatten

/-- There is a connection under the name of the address. -/
def isNamed (a : Address) : Bool :=
  (src.serverStatsByAddresses.lookup (addressName a)).isSome

variable {src}

theorem positions_returns (h : ∀ e ∈ src.pools.entries, Shaped e.2) :
    ∃ ps, src.positions = some ps ∧ ps.map Position.address = src.addresses ∧ ∀ p ∈ ps, p.Served := by
  unfold positions addresses
  generalize src.pools.entries = entries at h ⊢
  induction entries with
  | nil => exact ⟨[], rfl, rfl, fun p hp => absurd hp List.not_mem_nil⟩
  | cons e entries ih =>
    obtain ⟨ps, hps, haddresses, hserved⟩ := Metrics.positions_returns (h e List.mem_cons_self)
    obtain ⟨rest, hrest, haddresses', hserved'⟩ := ih fun e' he' => h e' (List.mem_cons_of_mem e he')
    obtain ⟨lists, hlists, rfl⟩ := Option.map_eq_some_iff.mp hrest
    refine ⟨ps ++ lists.flatten, ?_, ?_, ?_⟩
    · rw [List.mapM_cons, hps, some_bind, hlists]
      rfl
    · rw [List.map_append, haddresses, haddresses', List.flatMap_cons]
    · exact fun p hp => (List.mem_append.mp hp).elim (hserved p) (hserved' p)

end Sources

/-! ## The families -/

theorem map_fst_zip_addressStats (s : AddressStats) :
    (addressStatNames.zip s.counters).map Prod.fst = addressStatNames :=
  rfl

theorem addressLabels_reordered (a : Address) :
    (fun label => (HashMap.ofPairs
      [("host", a.host), ("shard", toString a.shard), ("pool", a.poolName), ("role", roleText a.role),
        ("database", a.database)]).lookup label) = addressLabels a := by
  funext label
  rw [addressLabels, HashMap.lookup_ofPairs, HashMap.lookup_ofPairs]
  by_cases hpool : "pool" = label
  · subst hpool
    rfl
  · simp only [List.filter_cons, hpool]
    rfl

def serverNames : List String :=
  ["bytes_received", "bytes_sent", "transaction_count", "query_count", "error_count"]

def databaseNames : List String :=
  ["pool_size", "current_connections"]

/-- All names a response can have: no two families share one. -/
theorem emitted_nodup :
    (emitted "stats_" addressStatNames ++ emitted "pools_" poolStatNames ++ emitted "servers_" serverNames ++
      emitted "databases_" databaseNames).Nodup := by
  decide +kernel

namespace Sources

variable (src : Sources)

theorem series_serverMetrics {a : Address} (h : src.isNamed a = true) :
    (src.serverMetrics a).map series = (emitted "servers_" serverNames).map fun name => (addressLabels a, name) := by
  obtain ⟨info, hinfo⟩ := Option.isSome_iff_exists.mp h
  rw [serverMetrics, hinfo]
  exact series_pushed "servers_" _ info.metrics

theorem serverMetrics_unnamed {a : Address} (h : src.isNamed a = false) : src.serverMetrics a = [] := by
  have hnone := Option.not_isSome_iff_eq_none.mp (by rw [← isNamed, h]; exact Bool.false_ne_true)
  rw [serverMetrics, hnone]

theorem series_servers :
    (src.addresses.flatMap src.serverMetrics).map series =
      (src.addresses.filter src.isNamed).map addressLabels ×ˢ emitted "servers_" serverNames := by
  have hfilter : ∀ l : List Address, l.flatMap src.serverMetrics = (l.filter src.isNamed).flatMap src.serverMetrics := by
    intro l
    induction l with
    | nil => rfl
    | cons a l ih =>
      cases hnamed : src.isNamed a with
      | true => rw [List.filter_cons_of_pos hnamed, List.flatMap_cons, List.flatMap_cons, ih]
      | false =>
        rw [List.filter_cons_of_neg (by simp [hnamed]), List.flatMap_cons, src.serverMetrics_unnamed hnamed,
          List.nil_append, ih]
  rw [hfilter]
  exact series_flatMap fun a ha => src.series_serverMetrics (List.mem_filter.mp ha).2

theorem series_pools :
    src.pushPoolStats.map series = (src.poolStats.entries.map fun e => poolLabels e.1) ×ˢ emitted "pools_" poolStatNames :=
  series_flatMap fun e _ => series_pushed "pools_" _ (poolStatNames.zip e.2.counters)

variable {src}

theorem databaseMetrics_returns {p : Position} (h : p.Served) :
    ∃ ms, src.databaseMetrics p = some ms ∧
      ms.map series = (emitted "databases_" databaseNames).map fun name => (addressLabels p.address, name) := by
  obtain ⟨row, database, hrow, hdatabase⟩ := h
  refine ⟨_, ?_, series_pushed "databases_" _
    [("pool_size", p.pool.settings.user.poolSize), ("current_connections", src.connections database)]⟩
  rw [databaseMetrics, hrow, some_bind, hdatabase]
  rfl

theorem pushDatabases_returns {ps : List Position} (h : ∀ p ∈ ps, p.Served) :
    ∃ lists, ps.mapM src.databaseMetrics = some lists ∧
      lists.flatten.map series = (ps.map fun p => addressLabels p.address) ×ˢ emitted "databases_" databaseNames := by
  induction ps with
  | nil => exact ⟨[], rfl, rfl⟩
  | cons p ps ih =>
    obtain ⟨ms, hms, hseries⟩ := databaseMetrics_returns (h p List.mem_cons_self)
    obtain ⟨lists, hlists, hrest⟩ := ih fun q hq => h q (List.mem_cons_of_mem p hq)
    refine ⟨ms :: lists, ?_, ?_⟩
    · rw [List.mapM_cons, hms, some_bind, hlists]
      rfl
    · rw [List.flatten_cons, List.map_append, hseries, hrest, List.map_cons, List.product_cons]

/-- A response in its parts: the samples of the addresses and of the server pools are given by their series. -/
structure Parts (src : Sources) where
  stats : List PrometheusMetric
  databases : List PrometheusMetric
  series_stats : stats.map series = src.addresses.map addressLabels ×ˢ emitted "stats_" addressStatNames
  series_databases : databases.map series = src.addresses.map addressLabels ×ˢ emitted "databases_" databaseNames

def Parts.all (parts : src.Parts) : List PrometheusMetric :=
  parts.stats ++ src.pushPoolStats ++ src.addresses.flatMap src.serverMetrics ++ parts.databases

/-- What a response holds, family by family. -/
theorem samples_returns (h : ∀ e ∈ src.pools.entries, Shaped e.2) :
    ∃ parts : src.Parts, src.samples = some parts.all := by
  obtain ⟨ps, hps, haddresses, hserved⟩ := positions_returns h
  obtain ⟨lists, hlists, hdatabases⟩ := @pushDatabases_returns src ps hserved
  have hlabels : (ps.map fun p => addressLabels p.address) = src.addresses.map addressLabels := by
    rw [← haddresses, List.map_map]
    rfl
  have hservers : (ps.flatMap fun p => src.serverMetrics p.address) = src.addresses.flatMap src.serverMetrics := by
    rw [← haddresses, List.flatMap_map]
  let stats := ps.flatMap fun p =>
    pushed (fromAddress p.address) (addressStatNames.zip (src.addressStats p.address).counters)
  have hstats : stats.map series = src.addresses.map addressLabels ×ˢ emitted "stats_" addressStatNames := by
    rw [← hlabels]
    refine series_flatMap fun p _ => ?_
    rw [← addressLabels_reordered, ← map_fst_zip_addressStats (src.addressStats p.address)]
    exact series_pushed "stats_" _ _
  refine ⟨⟨stats, lists.flatten, hstats, hlabels ▸ hdatabases⟩, ?_⟩
  rw [samples, pushAddressStats, pushServerStats, pushDatabaseStats, hps, Parts.all, ← hservers]
  simp only [Option.map_some, Option.bind_eq_bind, Option.bind_some, hlists]
  rfl

end Sources

end PgCat.Metrics
