import PgCat.Metrics.Samples

/-!
# Series — what the exported samples tell apart

The labels of an address are its host, shard, role, pool and database: not its port and not the user.  And the
samples of a server show one connection, the last one that is listed under the name of the address.

* `Sources.distinct_iff`: no series is repeated exactly if the labels tell all addresses apart;
* `Sources.summed_iff`: the samples are sums over the connections of an address exactly if the connection that is
  shown has these sums;
* `shaped_of_fromConfig`: the pools of a configuration have a response, and so have those of any reload after it.
-/

namespace PgCat.Metrics

open Lib
open PgCat.Config (Role)
open Install (Address ConnectionPool Database PoolIdentifier PoolMap Config Externals Locals BuiltFor fromConfig lastJob
  mem_of_lastJob fromConfig_progress)
open Admin (addressName)
open PrometheusMetric

/-! ## Distinct series -/

/-- No two samples are recorded under the same name and labels. -/
def Distinct (ms : List PrometheusMetric) : Prop :=
  (ms.map series).Nodup

theorem nodup_addressLabels {l : List Address} : (l.map addressLabels).Nodup ↔ (l.map labelled).Nodup := by
  rw [List.Nodup, List.Nodup, List.pairwise_map, List.pairwise_map]
  simp only [ne_eq, addressLabels_eq_iff]

namespace Sources

variable {src : Sources}

theorem nodup_poolLabels (src : Sources) : (src.poolStats.entries.map fun e => poolLabels e.1).Nodup := by
  have hkeys : (src.poolStats.entries.map Sigma.fst).Nodup := src.poolStats.nodupKeys
  have hlabels := hkeys.map fun _ _ h => poolLabels_injective h
  rwa [List.map_map] at hlabels

theorem distinct_iff (parts : src.Parts) : Distinct parts.all ↔ (src.addresses.map labelled).Nodup := by
  have hseries : parts.all.map series =
      [(src.addresses.map addressLabels, emitted "stats_" addressStatNames),
        (src.poolStats.entries.map fun e => poolLabels e.1, emitted "pools_" poolStatNames),
        ((src.addresses.filter src.isNamed).map addressLabels, emitted "servers_" serverNames),
        (src.addresses.map addressLabels, emitted "databases_" databaseNames)].flatMap fun f => f.1 ×ˢ f.2 := by
    simp only [Parts.all, List.map_append, parts.series_stats, src.series_pools, src.series_servers,
      parts.series_databases, List.flatMap_cons, List.flatMap_nil, List.append_nil, List.append_assoc]
  rw [Distinct, hseries, nodup_families_iff (by simpa using emitted_nodup), ← nodup_addressLabels]
  constructor
  · intro h
    have hnames : emitted "stats_" addressStatNames ≠ [] := by decide +kernel
    exact (h _ List.mem_cons_self).resolve_left hnames
  · intro h f hf
    refine .inr ?_
    simp only [List.mem_cons, List.not_mem_nil, or_false] at hf
    rcases hf with rfl | rfl | rfl | rfl
    · exact h
    · exact src.nodup_poolLabels
    · exact h.sublist (List.filter_sublist.map addressLabels)
    · exact h

end Sources

/-! ## Sums -/

structure Counter where
  key : String
  count : ServerInfo → Nat
  named : key ∈ serverNames
  listed : ∀ info : ServerInfo, (key, count info) ∈ info.metrics

namespace Counter

def bytesSent : Counter where
  key := "bytes_sent"
  count := fun info => info.bytesSent
  named := by decide
  listed := fun info => by simp [ServerInfo.metrics]

def bytesReceived : Counter where
  key := "bytes_received"
  count := fun info => info.bytesReceived
  named := by decide
  listed := fun info => by simp [ServerInfo.metrics]

theorem only (c : Counter) {info : ServerInfo} {counter : String × Nat} (h : counter ∈ info.metrics)
    (hkey : counter.1 = c.key) : counter.2 = c.count info := by
  have hnodup : (info.metrics.map Prod.fst).Nodup := by
    change serverNames.Nodup
    decide
  rw [List.inj_on_of_nodup_map hnodup h (c.listed info) hkey]

theorem implemented (c : Counter) : "servers_" ++ c.key ∈ emitted "servers_" serverNames := by
  have hall : ∀ name ∈ serverNames, "servers_" ++ name ∈ emitted "servers_" serverNames := by decide +kernel
  exact hall c.key c.named

end Counter

namespace Sources

variable (src : Sources)

def live : List ServerInfo :=
  src.servers.entries.map fun e => e.2

def connectionsOf (a : Address) : List ServerInfo :=
  src.live.filter fun info => info.address = a

def shown (a : Address) : Option ServerInfo :=
  (src.live.filter fun info => addressName info.address = addressName a).getLast?

def total (count : ServerInfo → Nat) (a : Address) : Nat :=
  (src.connectionsOf a).foldl (fun n info => n + count info) 0

/-- Every sample of an address has the sum over its connections, and there is one if there are connections. -/
def Summed (ms : List PrometheusMetric) (name : String) (count : ServerInfo → Nat) : Prop :=
  ∀ a ∈ src.addresses,
    (∀ m ∈ ms, m.series = (addressLabels a, name) → m.value = src.total count a) ∧
      (src.connectionsOf a ≠ [] → ∃ m ∈ ms, m.series = (addressLabels a, name))

/-- The connection that is shown for an address has the sum over all. -/
def ShowsTotal (count : ServerInfo → Nat) : Prop :=
  ∀ a ∈ src.addresses, ∀ info, src.shown a = some info → count info = src.total count a

variable {src}

theorem lookup_serverStatsByAddresses (a : Address) :
    src.serverStatsByAddresses.lookup (addressName a) = src.shown a := by
  have hpairs : (src.servers.entries.map fun e => (addressName e.2.address, e.2)) =
      src.live.map fun info => (addressName info.address, info) := by
    rw [live, List.map_map]
    rfl
  rw [serverStatsByAddresses, HashMap.lookup_ofPairs, hpairs, List.filter_map, List.getLast?_map, Option.map_map]
  exact Option.map_id'

theorem shown_of_connection {a : Address} (h : src.connectionsOf a ≠ []) : ∃ info, src.shown a = some info := by
  obtain ⟨info, hinfo⟩ := List.exists_mem_of_ne_nil _ h
  obtain ⟨hlive, haddress⟩ := List.mem_filter.mp hinfo
  have hmem : info ∈ src.live.filter fun info' => addressName info'.address = addressName a :=
    List.mem_filter.mpr ⟨hlive, by rw [of_decide_eq_true haddress]; exact decide_eq_true rfl⟩
  exact ⟨_, List.getLast?_eq_some_getLast (List.ne_nil_of_mem hmem)⟩

theorem mem_serverMetrics_value {a : Address} {m : PrometheusMetric} (hm : m ∈ src.serverMetrics a) (c : Counter)
    (hname : m.name = "servers_" ++ c.key) :
    m.series.1 = addressLabels a ∧ ∃ info, src.shown a = some info ∧ m.value = c.count info := by
  rw [serverMetrics, lookup_serverStatsByAddresses] at hm
  cases hshown : src.shown a with
  | none =>
    rw [hshown] at hm
    exact absurd hm List.not_mem_nil
  | some info =>
    rw [hshown] at hm
    obtain ⟨counter, hcounter, hfrom⟩ := List.mem_filterMap.mp hm
    obtain ⟨hseries, hvalue⟩ := fromName_eq_some hfrom
    have hkey : "servers_" ++ counter.1 = "servers_" ++ c.key := by
      rw [← hname]
      exact (congrArg Prod.snd hseries).symm
    refine ⟨congrArg Prod.fst hseries, info, rfl, ?_⟩
    rw [hvalue]
    exact c.only hcounter ((String.append_right_inj "servers_").mp hkey)

theorem exists_mem_serverMetrics {a : Address} {info : ServerInfo} (h : src.shown a = some info) (c : Counter) :
    ∃ m ∈ src.serverMetrics a, m.series = (addressLabels a, "servers_" ++ c.key) ∧ m.value = c.count info := by
  obtain ⟨metric, hmetric⟩ := Option.isSome_iff_exists.mp (List.mem_filter.mp c.implemented).2
  refine ⟨⟨"servers_" ++ c.key, metric.help, metric.ty, _, c.count info⟩, ?_, rfl, rfl⟩
  rw [serverMetrics, lookup_serverStatsByAddresses, h]
  refine List.mem_filterMap.mpr ⟨(c.key, c.count info), c.listed info, ?_⟩
  rw [fromServerInfo, fromName, hmetric]
  rfl

theorem server_names_apart : ∀ name ∈ emitted "servers_" serverNames,
    name ∉ emitted "stats_" addressStatNames ∧ name ∉ emitted "pools_" poolStatNames ∧
      name ∉ emitted "databases_" databaseNames := by
  decide +kernel

theorem name_of_family {ms : List PrometheusMetric} {keys : List Labels} {names : List String}
    (h : ms.map series = keys ×ˢ names) {m : PrometheusMetric} (hm : m ∈ ms) : m.name ∈ names := by
  have hseries : m.series ∈ keys ×ˢ names := h ▸ List.mem_map_of_mem hm
  exact (List.mem_product.mp hseries).2

theorem mem_servers_of_name (parts : src.Parts) {m : PrometheusMetric} (hm : m ∈ parts.all)
    (hname : m.name ∈ emitted "servers_" serverNames) : ∃ a ∈ src.addresses, m ∈ src.serverMetrics a := by
  obtain ⟨hnotStats, hnotPools, hnotDatabases⟩ := server_names_apart m.name hname
  rcases List.mem_append.mp hm with hm | hm
  · rcases List.mem_append.mp hm with hm | hm
    · rcases List.mem_append.mp hm with hm | hm
      · exact absurd (name_of_family parts.series_stats hm) hnotStats
      · exact absurd (name_of_family src.series_pools hm) hnotPools
    · exact List.mem_flatMap.mp hm
  · exact absurd (name_of_family parts.series_databases hm) hnotDatabases

theorem Parts.mem_all (parts : src.Parts) {a : Address} (ha : a ∈ src.addresses) {m : PrometheusMetric}
    (hm : m ∈ src.serverMetrics a) : m ∈ parts.all :=
  List.mem_append_left _ (List.mem_append_right _ (List.mem_flatMap.mpr ⟨a, ha, hm⟩))

theorem summed_iff (parts : src.Parts) (hdistinct : (src.addresses.map labelled).Nodup) (c : Counter) :
    src.Summed parts.all ("servers_" ++ c.key) c.count ↔ src.ShowsTotal c.count := by
  constructor
  · intro hsummed a ha info hinfo
    obtain ⟨m, hm, hseries, hvalue⟩ := exists_mem_serverMetrics hinfo c
    rw [← hvalue]
    exact (hsummed a ha).1 m (parts.mem_all ha hm) hseries
  · intro hshows a ha
    constructor
    · intro m hm hseries
      have hname : m.name = "servers_" ++ c.key := congrArg Prod.snd hseries
      obtain ⟨a', ha', hm'⟩ := mem_servers_of_name parts hm (hname ▸ c.implemented)
      obtain ⟨hlabels, info, hinfo, hvalue⟩ := mem_serverMetrics_value hm' c hname
      -- The labels are those of one address only.
      have hsame : labelled a' = labelled a := by
        rw [← addressLabels_eq_iff, ← hlabels]
        exact congrArg Prod.fst hseries
      cases List.inj_on_of_nodup_map hdistinct ha' ha hsame
      rw [hvalue]
      exact hshows a ha info hinfo
    · intro hlive
      obtain ⟨info, hinfo⟩ := shown_of_connection hlive
      obtain ⟨m, hm, hseries, -⟩ := exists_mem_serverMetrics hinfo c
      exact ⟨m, parts.mem_all ha hm, hseries⟩

end Sources

/-! ## Responses -/

section Responses

variable {ext : Externals} {config : Config} {olds : PoolMap} {l : Locals} {src : Sources}

/-- What is built has a server pool for every address, and what is taken over keeps its own. -/
theorem shaped_of_fromConfig (hrun : fromConfig ext olds config .start = .ok () l)
    (holds : ∀ id pool, olds id = some pool → Shaped pool) {id : PoolIdentifier} {pool : ConnectionPool}
    (hpool : l.newPools id = some pool) : Shaped pool := by
  obtain ⟨job, -, hold | ⟨-, shardIds, rows, hbuilt⟩⟩ := (fromConfig_progress hrun).of_some hpool
  · exact holds job.identifier pool (Option.filter_eq_some_iff.mp hold).1
  · exact ⟨rows, hbuilt.databases, hbuilt.addresses⟩

/-- For the pools of any configuration that was installed, and any connections, `/metrics` is answered.  No series is
repeated in the answer, and the bytes of an address are the sums over its connections, exactly if no two addresses
have the same host, shard, role, pool and database, and for every address the last connection that is listed under
its name has the sums over the connections of the address. -/
theorem exported_series_iff (hrun : fromConfig ext olds config .start = .ok () l)
    (holds : ∀ id pool, olds id = some pool → Shaped pool)
    (src : Sources) (hpools : ∀ id, src.pools.lookup id = l.newPools id) :
    ∃ ms, src.samples = some ms ∧
      src.prometheusStats ⟨.get, "/metrics"⟩ =
        some ⟨200, some "text/plain; version=0.0.4", "\n".intercalate (ms.map text)⟩ ∧
      (Distinct ms ∧ src.Summed ms "servers_bytes_sent" (fun info => info.bytesSent) ∧
          src.Summed ms "servers_bytes_received" (fun info => info.bytesReceived) ↔
        (src.addresses.map labelled).Nodup ∧ src.ShowsTotal (fun info => info.bytesSent) ∧
          src.ShowsTotal fun info => info.bytesReceived) := by
  have hshaped : ∀ e ∈ src.pools.entries, Shaped e.2 := fun e he =>
    shaped_of_fromConfig hrun holds ((hpools e.1).symm.trans (AList.mem_lookup_iff.mpr he))
  obtain ⟨parts, hsamples⟩ := Sources.samples_returns hshaped
  refine ⟨parts.all, hsamples, ?_, ?_⟩
  · rw [Sources.prometheusStats, if_pos ⟨rfl, rfl⟩, hsamples]
    rfl
  · rw [Sources.distinct_iff]
    refine and_congr_right fun hlabels => ?_
    exact and_congr (Sources.summed_iff parts hlabels .bytesSent) (Sources.summed_iff parts hlabels .bytesReceived)

end Responses

namespace Sample

open Install.Sample (bothUsers config pool only shard threeShards ext)

def twoUsers : Install.Pool :=
  { pool (only "0" shard) with users := bothUsers }

def oneUser : Install.Pool := pool (only "0" shard)

def started (c : Config) : PoolMap :=
  match fromConfig ext (fun _ => none) c .start with
  | .ok _ l => l.newPools
  | .error _ _ => fun _ => none

def ids : List PoolIdentifier :=
  [⟨"sharded_db", "sharding_user"⟩, ⟨"sharded_db", "other_user"⟩]

def address : Address :=
  ⟨0, "localhost", 5432, 0, "postgres", .primary, 0, 0, "sharding_user", "sharded_db", []⟩

def connection (a : Address) (id : Int) (bytes : Nat) : ServerInfo :=
  ⟨⟨id, ⟨"sharded_db", "sharding_user"⟩, a, "Undefined", .idle, 1, 1, bytes, bytes, 0⟩, 0⟩

def sources (c : Config) (connections : List ServerInfo) : Sources where
  pools := .ofFunction (started c) ids
  poolStats := ∅
  servers := .ofPairs (connections.map fun info => (info.serverId, info))
  addressStats := fun _ => ⟨0, 0, 0, 0, 0, 0, 0, 0, 0, 0, 0, 0, 0, 0, 0, 0⟩
  connections := fun _ => 1

theorem pools_sources {c : Config} (hreturned : returned (fromConfig ext (fun _ => none) c) .start = true)
    (hjobs : ∀ job ∈ c.jobs, job.identifier ∈ ids) (connections : List ServerInfo) :
    ∃ l, fromConfig ext (fun _ => none) c .start = .ok () l ∧
      (∀ id, (sources c connections).pools.lookup id = l.newPools id) ∧
        ∀ e ∈ (sources c connections).pools.entries, Shaped e.2 := by
  obtain ⟨_, hrun⟩ := ok_of_returned hreturned
  let l := final (fromConfig ext (fun _ => none) c) .start
  have hstarted : started c = l.newPools := by
    rw [started, hrun]
  have hlisted : ∀ id, (sources c connections).pools.lookup id = l.newPools id := by
    rw [← hstarted]
    refine HashMap.lookup_ofFunction fun id hsome => ?_
    cases hlast : lastJob c.jobs id with
    | none =>
      rw [hstarted, (fromConfig_progress hrun).absent id hlast] at hsome
      exact absurd rfl hsome
    | some job =>
      obtain ⟨hjob, rfl⟩ := mem_of_lastJob hlast
      exact hjobs job hjob
  exact ⟨l, hrun, hlisted, fun e he => shaped_of_fromConfig hrun (fun _ _ hnone => (by cases hnone))
    ((hlisted e.1).symm.trans (AList.mem_lookup_iff.mpr he))⟩

/-- Two connections of one address, of which one has sent nothing yet, and one of another. -/
def connections : List ServerInfo :=
  [connection address 1 20, connection address 2 0,
    connection ⟨1, "replica", 5432, 0, "postgres", .replica, 0, 1, "sharding_user", "sharded_db", []⟩ 3 10]

def spread : Sources := sources (config (pool threeShards)) connections

/-- Two connections, which have sent 20 and 10 bytes. -/
def double : Sources := sources (config oneUser) [connection address 1 20, connection address 2 10]

theorem connections_exported : (config (pool threeShards)).validate ext = .ok (config (pool threeShards)) ∧
    spread.addresses.map (spread.total fun info => info.bytesSent) = [20, 10, 0, 0, 0, 0, 0] ∧
    ∃ ms, spread.samples = some ms ∧ Distinct ms ∧
      spread.Summed ms "servers_bytes_sent" (fun info => info.bytesSent) ∧
        spread.Summed ms "servers_bytes_received" fun info => info.bytesReceived := by
  obtain ⟨_, hrun, hlisted, -⟩ :=
    @pools_sources (config (pool threeShards)) (by decide +kernel) (by decide +kernel) connections
  have hshows : ∀ a ∈ spread.addresses, (spread.shown a).all (fun info =>
      info.bytesSent = spread.total (fun info => info.bytesSent) a ∧
        info.bytesReceived = spread.total (fun info => info.bytesReceived) a) = true := by decide +kernel
  obtain ⟨ms, hsamples, -, hiff⟩ := exported_series_iff hrun (fun _ _ hnone => (by cases hnone)) spread hlisted
  refine ⟨rfl, by decide +kernel, ms, hsamples, hiff.mpr ⟨by decide +kernel, fun a ha info hinfo => ?_,
    fun a ha info hinfo => ?_⟩⟩
  · have htotal := hshows a ha
    rw [hinfo, Option.all_some, decide_eq_true_eq] at htotal
    exact htotal.1
  · have htotal := hshows a ha
    rw [hinfo, Option.all_some, decide_eq_true_eq] at htotal
    exact htotal.2

/-- Two users of one section have the same series; of two connections that have sent 20 and 10 bytes, the sample
shows one. -/
theorem user_and_connection_hidden :
    (∃ l ms, (config twoUsers).validate ext = .ok (config twoUsers) ∧
      fromConfig ext (fun _ => none) (config twoUsers) .start = .ok () l ∧
        (∀ id, (sources (config twoUsers) []).pools.lookup id = l.newPools id) ∧
          (sources (config twoUsers) []).samples = some ms ∧ ¬ Distinct ms) ∧
      ∃ l ms m, (config oneUser).validate ext = .ok (config oneUser) ∧
        fromConfig ext (fun _ => none) (config oneUser) .start = .ok () l ∧
          (∀ id, double.pools.lookup id = l.newPools id) ∧ double.samples = some ms ∧
            m ∈ ms ∧ m.series = (addressLabels address, "servers_bytes_sent") ∧ m.value = 20 ∧
              double.total (fun info => info.bytesSent) address = 30 := by
  constructor
  · obtain ⟨_, hrun, hlisted, hshaped⟩ := @pools_sources (config twoUsers) rfl (by decide) []
    obtain ⟨parts, hsamples⟩ := Sources.samples_returns hshaped
    refine ⟨_, parts.all, rfl, hrun, hlisted, hsamples, fun h => ?_⟩
    have hsame : (sources (config twoUsers) []).addresses.map labelled = [labelled address, labelled address] := rfl
    have hnodup := (Sources.distinct_iff parts).mp h
    rw [hsame] at hnodup
    exact (List.nodup_cons.mp hnodup).1 List.mem_cons_self
  · obtain ⟨_, hrun, hlisted, hshaped⟩ :=
      @pools_sources (config oneUser) rfl (by decide) [connection address 1 20, connection address 2 10]
    obtain ⟨parts, hsamples⟩ := Sources.samples_returns hshaped
    have hshown : double.shown address = some (connection address 1 20) := rfl
    obtain ⟨m, hm, hseries, hvalue⟩ := Sources.exists_mem_serverMetrics hshown .bytesSent
    exact ⟨_, parts.all, m, rfl, hrun, hlisted, hsamples, parts.mem_all List.mem_cons_self hm, hseries, hvalue, rfl⟩

end Sample

end PgCat.Metrics
