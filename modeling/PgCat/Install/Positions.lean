import Mathlib.Data.List.Perm.Basic
import PgCat.Install.Built
import PgCat.Session.World

/-!
# Positions — where the addresses of a pool stand

Positions come from sorting the shard names, `Address.shard` from parsing them.  The two agree exactly
if the names, read as numbers, are `0, …, n - 1`; validation checks only that each is a number.

* `Represented`: the representation the functions of a pool rely on;
* `Numbered`: when a pool that was built, and all pools of an accepted configuration, have it;
* `BuiltFor.session`: a pool that was built is one of the pools the sessions work with.
-/

namespace PgCat.Install

open Lib

/-- The representation that `get`, `ban` and `is_banned` rely on. -/
structure ConnectionPool.Represented (pool : ConnectionPool) : Prop where
  shards : 1 ≤ pool.shards
  addresses : pool.addresses.length = pool.databases.length
  banlist : pool.banlist.length = pool.databases.length
  servers : ∀ (s : Nat) databases addresses, pool.databases[s]? = some databases →
    pool.addresses[s]? = some addresses → databases.length = addresses.length
  position : ∀ (s i : Nat) addresses a, pool.addresses[s]? = some addresses →
    addresses[i]? = some a → a.shard = s ∧ a.addressIndex = i
  belongs : ∀ addresses ∈ pool.addresses, ∀ a ∈ addresses,
    (∃ databases database, pool.databases[a.shard]? = some databases ∧
      databases[a.addressIndex]? = some database ∧ database.address = a) ∧
    a.shard < pool.banlist.length

/-- The shard names, read as numbers, are `0, …, n - 1`, and there is one. -/
def Pool.Numbered (pool : Pool) : Prop :=
  pool.shards.keys ≠ [] ∧
    (pool.shards.keys.map fun k => parseUsize k.toList).Perm
      ((List.range pool.shards.keys.length).map some)

/-! ## The sorted shard names -/

variable {ids sorted : List String}

theorem sortShardIds_perm (h : sortShardIds ids = .ok sorted) : sorted.Perm ids := by
  unfold sortShardIds at h
  split at h
  · cases h
    exact .refl ids
  · split at h
    · cases h
      exact List.perm_insertionSort _ ids
    · cases h

theorem sortShardIds_sorted (h : sortShardIds ids = .ok sorted)
    (hnumber : ∀ k ∈ ids, ∃ n, parseUsize k.toList = some n) :
    (sorted.map fun k => (parseUsize k.toList).getD 0).Pairwise (· ≤ ·) := by
  unfold sortShardIds at h
  split at h
  · rename_i hshort
    cases h
    match ids, hshort with
    | [], _ => exact .nil
    | [k], _ => exact List.pairwise_singleton _ _
  · split at h
    · rename_i hall
      cases h
      rw [List.pairwise_map]
      have hsorted := List.pairwise_insertionSort (fun a b => shardKey a ≤ shardKey b) ids
      refine hsorted.imp_of_mem ?_
      intro a b ha hb hab
      -- A name with a number that was compared has that number as its key.
      have hkey : ∀ k ∈ ids, shardKey k = ((parseUsize k.toList).getD 0 : Nat) := by
        intro k hk
        obtain ⟨n, hn⟩ := hnumber k hk
        obtain ⟨i, hi⟩ := Option.isSome_iff_exists.mp (List.all_eq_true.mp hall k hk)
        have hsigned := parseSigned_of_parseUnsigned hn (2 ^ 63 - 1)
        unfold parseI64 at hi
        rw [hi] at hsigned
        split at hsigned
        · cases hsigned
          rw [shardKey, parseI64, hi, hn]
          rfl
        · cases hsigned
      rw [hkey a ((List.mem_insertionSort _).mp ha), hkey b ((List.mem_insertionSort _).mp hb)] at hab
      exact_mod_cast hab
    · cases h

theorem numbers_perm_iff (h : sortShardIds ids = .ok sorted)
    (hnumber : ∀ k ∈ ids, ∃ n, parseUsize k.toList = some n) :
    (ids.map fun k => parseUsize k.toList).Perm ((List.range ids.length).map some) ↔
      (sorted.map fun k => parseUsize k.toList) = (List.range sorted.length).map some := by
  have hperm := sortShardIds_perm h
  have hsome : (sorted.map fun k => parseUsize k.toList) =
      (sorted.map fun k => (parseUsize k.toList).getD 0).map some := by
    rw [List.map_map]
    refine List.map_congr_left fun k hk => ?_
    obtain ⟨n, hn⟩ := hnumber k (hperm.mem_iff.mp hk)
    simp [hn]
  have hnames := hperm.map fun k => parseUsize k.toList
  constructor
  · intro hrange
    rw [hsome] at hnames ⊢
    have hall := hnames.trans hrange
    rw [List.map_perm_map_iff (Option.some_injective Nat), ← hperm.length_eq] at hall
    rw [hall.eq_of_pairwise' (sortShardIds_sorted h hnumber) List.pairwise_le_range]
  · intro heq
    rw [← hperm.length_eq, ← heq]
    exact hnames.symm

/-! ## One pool -/

section Pool

variable {ext : Externals} {general : General} {job : Job} {shardIds : List String}
  {rows : List (List (Database × Address))} {pool : ConnectionPool}

theorem Pool.Accepted.parses (h : job.pool.Accepted ext) :
    ∀ k ∈ job.pool.shards.keys, ∃ n, parseUsize k.toList = some n := by
  intro k hk
  obtain ⟨e, he, rfl⟩ := List.mem_map.mp hk
  exact h.number e he

theorem Pool.Numbered.parses {pool : Pool} (h : pool.Numbered) :
    ∀ k ∈ pool.shards.keys, ∃ n, parseUsize k.toList = some n := by
  intro k hk
  have hmem := h.2.mem_iff.mp (List.mem_map.mpr ⟨k, hk, rfl⟩)
  obtain ⟨n, -, hn⟩ := List.mem_map.mp hmem
  exact ⟨n, hn.symm⟩

namespace PoolBuilt

variable (h : PoolBuilt ext general job shardIds rows pool)

include h

theorem at_position {s i : Nat} {row : List (Database × Address)} {entry : Database × Address}
    (hrow : rows[s]? = some row) (hentry : row[i]? = some entry) :
    (∃ k, shardIds[s]? = some k ∧ parseUsize k.toList = some entry.2.shard) ∧
      entry.2.addressIndex = i ∧ entry.1.address = entry.2 := by
  obtain ⟨k, hk, shard, _, hservers⟩ := getElem?_of_right h.installed hrow
  obtain ⟨server, hserver, hbuilt⟩ := getElem?_of_right hservers hentry
  have hindex : server.2 = i := by
    obtain ⟨hlt, rfl⟩ := List.getElem?_eq_some_iff.mp hserver
    simp
  exact ⟨⟨k, hk, hbuilt.address.number⟩, hbuilt.address.index.trans hindex, hbuilt.belongs⟩

theorem row_head (haccepted : job.pool.Accepted ext) {s : Nat} {row : List (Database × Address)}
    (hrow : rows[s]? = some row) : ∃ entry, row[0]? = some entry := by
  obtain ⟨k, _, shard, hshard, hservers⟩ := getElem?_of_right h.installed hrow
  have hmem : (⟨k, shard⟩ : Sigma fun _ : String => Shard) ∈ job.pool.shards.entries :=
    AList.mem_lookup_iff.mp hshard
  have hservers' := (Shard.validate_eq_ok.mp (haccepted.servers _ hmem)).1
  cases hrowcases : row with
  | nil =>
    rw [hrowcases] at hservers
    have hlength := hservers.length_eq
    simp only [List.length_zipIdx, List.length_nil, List.length_eq_zero_iff] at hlength
    exact absurd hlength hservers'
  | cons entry rest => exact ⟨entry, rfl⟩

/-- If the sorted names are `0, …, n - 1`, the shard of every address is its position. -/
theorem shard_eq (hrange : (shardIds.map fun k => parseUsize k.toList) = (List.range shardIds.length).map some) :
    ∀ (s i : Nat) row entry, rows[s]? = some row → row[i]? = some entry → entry.2.shard = s := by
  intro s i row entry hrow hentry
  obtain ⟨⟨k, hk, hnumber⟩, _⟩ := h.at_position hrow hentry
  obtain ⟨hlt, _⟩ := List.getElem?_eq_some_iff.mp hk
  have hat := congrArg (fun l => l[s]?) hrange
  simpa [hk, hnumber, List.getElem?_range hlt] using hat

/-- The shard of every address is its position exactly if the sorted names are `0, …, n - 1`. -/
theorem positions_iff (haccepted : job.pool.Accepted ext) :
    (∀ (s i : Nat) row entry, rows[s]? = some row → row[i]? = some entry → entry.2.shard = s) ↔
      (shardIds.map fun k => parseUsize k.toList) = (List.range shardIds.length).map some := by
  refine ⟨fun hpos => List.ext_getElem? fun s => ?_, h.shard_eq⟩
  rw [List.getElem?_map, List.getElem?_map]
  cases hk : shardIds[s]? with
  | none =>
    have hout := List.getElem?_eq_none_iff.mp hk
    simp [hout]
  | some k =>
    obtain ⟨hlt, _⟩ := List.getElem?_eq_some_iff.mp hk
    obtain ⟨row, hrow, _⟩ := getElem?_of_left h.installed hk
    obtain ⟨entry, hentry⟩ := h.row_head haccepted hrow
    obtain ⟨⟨k', hk', hnumber⟩, _⟩ := h.at_position hrow hentry
    rw [hk] at hk'
    cases hk'
    simp [hnumber, hpos s 0 row entry hrow hentry, List.getElem?_range hlt]

theorem address_at {s i : Nat} {addresses : List Address} {a : Address}
    (haddresses : pool.addresses[s]? = some addresses) (ha : addresses[i]? = some a) :
    ∃ row database, rows[s]? = some row ∧ row[i]? = some (database, a) := by
  rw [h.addresses, List.getElem?_map] at haddresses
  obtain ⟨row, hrow, rfl⟩ := Option.map_eq_some_iff.mp haddresses
  rw [List.getElem?_map] at ha
  obtain ⟨⟨database, _⟩, hentry, rfl⟩ := Option.map_eq_some_iff.mp ha
  exact ⟨row, database, hrow, hentry⟩

/-- With the names `0, …, n - 1`, everything stands where the functions of a pool look for it. -/
theorem represented (hnumbered : job.pool.Numbered) : pool.Represented := by
  have hlength : rows.length = shardIds.length := h.installed.length_eq.symm
  have hkeys : shardIds.length = job.pool.shards.keys.length := (sortShardIds_perm h.sorted).length_eq
  have hpos := h.shard_eq ((numbers_perm_iff h.sorted hnumbered.parses).mp hnumbered.2)
  have hposition : ∀ (s i : Nat) addresses a, pool.addresses[s]? = some addresses →
      addresses[i]? = some a → a.shard = s ∧ a.addressIndex = i := by
    intro s i addresses a haddresses ha
    obtain ⟨row, database, hrow, hentry⟩ := h.address_at haddresses ha
    exact ⟨hpos s i row (database, a) hrow hentry, (h.at_position hrow hentry).2.1⟩
  refine ⟨?_, by simp [h.addresses, h.databases], by simp [h.banlist, h.databases], ?_, hposition, ?_⟩
  · have hpositive := List.length_pos_iff.mpr hnumbered.1
    simp only [ConnectionPool.shards, h.databases, List.length_map]
    omega
  · intro s databases addresses hdatabases haddresses
    rw [h.databases, List.getElem?_map] at hdatabases
    rw [h.addresses, List.getElem?_map] at haddresses
    obtain ⟨row, hrow, rfl⟩ := Option.map_eq_some_iff.mp hdatabases
    rw [hrow] at haddresses
    cases haddresses
    simp
  · intro addresses haddresses a ha
    obtain ⟨s, hs⟩ := List.mem_iff_getElem?.mp haddresses
    obtain ⟨i, hi⟩ := List.mem_iff_getElem?.mp ha
    obtain ⟨row, database, hrow, hentry⟩ := h.address_at hs hi
    obtain ⟨rfl, rfl⟩ := hposition s i addresses a hs hi
    obtain ⟨hlt, _⟩ := List.getElem?_eq_some_iff.mp hrow
    refine ⟨⟨row.map Prod.fst, database, by simp [h.databases, hrow], by simp [hentry], ?_⟩, ?_⟩
    · exact (h.at_position hrow hentry).2.2
    · simpa [h.banlist] using hlt

theorem represented_iff (haccepted : job.pool.Accepted ext) : pool.Represented ↔ job.pool.Numbered := by
  refine ⟨fun hrep => ⟨?_, ?_⟩, h.represented⟩
  · intro hnone
    have hlength := h.installed.length_eq
    have hkeys := (sortShardIds_perm h.sorted).length_eq
    have hshards := hrep.shards
    simp [ConnectionPool.shards, h.databases, ← hlength, hkeys, hnone] at hshards
  · rw [numbers_perm_iff h.sorted haccepted.parses, ← h.positions_iff haccepted]
    intro s i row entry hrow hentry
    exact (hrep.position s i (row.map Prod.snd) entry.2 (by simp [h.addresses, hrow])
      (by simp [hentry])).1

end PoolBuilt

end Pool

/-! ## All pools -/

section Pools

variable {ext : Externals} {config validated : Config} {olds : PoolMap} {l : Locals}

theorem accepted_of_mem_jobs (hvalid : config.validate ext = .ok validated) {job : Job}
    (hjob : job ∈ validated.jobs) : job.pool.Accepted ext := by
  obtain ⟨⟨name, pool⟩, he, hmap⟩ := List.mem_flatMap.mp hjob
  obtain ⟨user, _, rfl⟩ := List.mem_map.mp hmap
  exact Config.accepted_of_validate hvalid he

/-- The pools `from_config` builds from an accepted configuration are well formed exactly if the
shards of each section it builds from are numbered from 0 without gaps. -/
theorem pools_represented_iff (hvalid : config.validate ext = .ok validated)
    (hrun : fromConfig ext olds validated .start = .ok () l) :
    (∀ pool ∈ l.built, pool.Represented) ↔
      ∀ job ∈ validated.jobs, keptPool ext job olds = none → job.pool.Numbered := by
  have hprogress := fromConfig_progress hrun
  constructor
  · intro hrep job hjob hkept
    obtain ⟨pool, hpool, shardIds, rows, hbuilt⟩ := hprogress.creates job hjob hkept
    exact (hbuilt.represented_iff (accepted_of_mem_jobs hvalid hjob)).mp (hrep pool hpool)
  · intro hnumbered pool hpool
    obtain ⟨job, hjob, hkept, shardIds, rows, hbuilt⟩ := hprogress.built pool hpool
    exact (hbuilt.represented_iff (accepted_of_mem_jobs hvalid hjob)).mpr (hnumbered job hjob hkept)

end Pools

/-! ## The pools of the sessions -/

def Address.session (a : Address) : Session.Address where
  id := a.id
  host := a.host
  port := a.port
  shard := a.shard
  addressIndex := a.addressIndex
  role := a.role

def PoolSettings.session (s : PoolSettings) : Config.PoolSettings where
  poolMode := s.poolMode
  shards := s.shards
  user := ⟨s.user.username, s.user.statementTimeout⟩
  defaultRole := s.defaultRole
  queryParserEnabled := s.queryParserEnabled
  primaryReadsEnabled := s.primaryReadsEnabled
  shardingFunction := s.shardingFunction
  automaticShardingKey := s.automaticShardingKey
  healthcheckDelay := s.healthcheckDelay
  healthcheckTimeout := s.healthcheckTimeout
  shardingKeyRegex := s.shardingKeyRegex
  shardIdRegex := s.shardIdRegex
  regexSearchLimit := s.regexSearchLimit

theorem poolSettings_fields {ext : Externals} {general : General} {pool : Pool} {user : User}
    {shards : Nat} {settings : PoolSettings}
    (h : poolSettings ext general pool user shards = .ok settings) :
    settings.shards = shards ∧ settings.automaticShardingKey = pool.automaticShardingKey := by
  simp only [poolSettings, except_bind_eq_ok] at h
  obtain ⟨_, _, _, _, _, _, hpure⟩ := h
  cases hpure
  exact ⟨rfl, rfl⟩

/-- A pool that was built is a pool of the sessions; if its shards are numbered from 0 without gaps,
its settings are validated ones and its addresses are found under their shards. -/
theorem BuiltFor.session {ext : Externals} {general : General} {job : Job} {pool : ConnectionPool}
    (h : BuiltFor ext general job pool) (haccepted : job.pool.Accepted ext) :
    ∃ p : Session.ConnectionPool,
      p.addresses = (pool.addresses.map fun addresses => addresses.map Address.session) ∧
        p.settings = pool.settings.session ∧ p.paused = pool.paused ∧
          (job.pool.Numbered → p.settings.Validated ∧
            ∀ (s : Nat) addresses, p.addresses[s]? = some addresses → ∀ a ∈ addresses, a.shard = s) := by
  obtain ⟨shardIds, rows, hbuilt⟩ := h
  obtain ⟨hshards, hkey⟩ := poolSettings_fields hbuilt.settings
  have hrows : rows.length = shardIds.length := hbuilt.installed.length_eq.symm
  have hsized : pool.settings.session.shards =
      (pool.addresses.map fun addresses => addresses.map Address.session).length := by
    simp [PoolSettings.session, hshards, hbuilt.addresses, hrows]
  refine ⟨⟨_, pool.settings.session, pool.paused, hsized⟩, rfl, rfl, rfl, fun hnumbered => ?_⟩
  have hrep := (hbuilt.represented_iff haccepted).mpr hnumbered
  refine ⟨⟨fun key hk => haccepted.key key (hkey.symm.trans hk), ?_⟩, ?_⟩
  · have hpositive := List.length_pos_iff.mpr hnumbered.1
    have hlength := (sortShardIds_perm hbuilt.sorted).length_eq
    simp only [PoolSettings.session, hshards]
    omega
  · intro s addresses haddresses a ha
    rw [List.getElem?_map] at haddresses
    obtain ⟨addresses', hat, rfl⟩ := Option.map_eq_some_iff.mp haddresses
    obtain ⟨a', ha', rfl⟩ := List.mem_map.mp ha
    obtain ⟨i, hi⟩ := List.mem_iff_getElem?.mp ha'
    exact (hrep.position s i addresses' a' hat hi).1

/-- The pools built of an accepted configuration are pools as the sessions and the router suppose them to be. -/
theorem built_for_sessions {ext : Externals} {olds : PoolMap} {config validated : Config} {l : Locals}
    (hvalid : config.validate ext = .ok validated) (hrun : fromConfig ext olds validated .start = .ok () l)
    (hnumbered : ∀ job ∈ validated.jobs, job.pool.Numbered) {pool : ConnectionPool} (hpool : pool ∈ l.built) :
    ∃ p : Session.ConnectionPool,
      p.addresses = (pool.addresses.map fun addresses => addresses.map Address.session) ∧
        p.settings = pool.settings.session ∧ p.settings.Validated ∧
          ∀ (s : Nat) addresses, p.addresses[s]? = some addresses → ∀ a ∈ addresses, a.shard = s := by
  obtain ⟨job, hjob, -, hbuilt⟩ := (fromConfig_progress hrun).built pool hpool
  obtain ⟨p, haddresses, hsettings, -, hsession⟩ := hbuilt.session (accepted_of_mem_jobs hvalid hjob)
  exact ⟨p, haddresses, hsettings, hsession (hnumbered job hjob)⟩

namespace Sample

def primary : ServerConfig := ⟨"localhost", 5432, .primary⟩

def shard : Shard := ⟨"postgres", none, [primary]⟩

def user : User := ⟨"sharding_user", some "sharding_user", 15, none, 0⟩

def only {β : Type} (key : String) (value : β) : BTreeMap String β where
  entries := [⟨key, value⟩]
  nodupKeys := List.nodupKeys_singleton _
  sorted := List.pairwise_singleton _ _

def bothUsers : BTreeMap String User where
  entries := [⟨"0", user⟩, ⟨"1", { user with username := "other_user" }⟩]
  nodupKeys := (by decide : ["0", "1"].Nodup)
  sorted := by decide

def replicated : Shard :=
  ⟨"postgres", none, [primary, ⟨"replica", 5432, .replica⟩, ⟨"standby", 5432, .replica⟩]⟩

def threeShards : BTreeMap String Shard where
  entries := [⟨"0", replicated⟩, ⟨"1", shard⟩, ⟨"2", replicated⟩]
  nodupKeys := (by decide : ["0", "1", "2"].Nodup)
  sorted := by decide

def pool (shards : BTreeMap String Shard) : Pool where
  poolMode := .transaction
  loadBalancingMode := .random
  defaultRole := "any"
  queryParserEnabled := false
  primaryReadsEnabled := false
  connectTimeout := none
  idleTimeout := none
  shardingFunction := .pgBigintHash
  automaticShardingKey := none
  shardingKeyRegex := none
  shardIdRegex := none
  regexSearchLimit := some 1000
  authQuery := none
  authQueryUser := none
  authQueryPassword := none
  shards := shards
  users := only "0" user

def config (pool : Pool) : Config :=
  { Config.default with pools := (only "sharded_db" pool).toAList }

theorem mem_jobs {shards : BTreeMap String Shard} {job : Job} (h : job ∈ (config (pool shards)).jobs) :
    job = ⟨"sharded_db", pool shards, user⟩ :=
  List.mem_singleton.mp h

/-- No server answers, and a server pool needs room for a connection and time. -/
def ext : Externals where
  regex := fun _ => .error "unsupported"
  loadCerts := fun _ => .ok ()
  loadKeys := fun _ => .ok ()
  hashValue := fun pool => if pool.poolMode = .session then 1 else 0
  execSimpleQuery := fun _ _ _ => .error "connection refused"
  builds := fun size connect idle => decide (0 < size ∧ 0 < connect ∧ 0 < idle)

/-- A single shard named `1` is accepted; its address stands at position 0 and says shard 1. -/
theorem shard_one_misplaced :
    ∃ validated l, (config (pool (only "1" shard))).validate ext = .ok validated ∧
      fromConfig ext (fun _ => none) validated .start = .ok () l ∧
        ∃ pool ∈ l.built, ¬ pool.Represented := by
  refine ⟨config (pool (only "1" shard)), _, rfl, rfl, _, List.mem_cons_self, ?_⟩
  intro hrep
  have hposition := hrep.position 0 0 _ _ rfl rfl
  exact absurd hposition.1 (by decide)

theorem three_numbered : (pool threeShards).Numbered := ⟨List.cons_ne_nil _ _, .refl _⟩

theorem three_returned : returned (fromConfig ext (fun _ => none) (config (pool threeShards))) .start = true := by
  decide +kernel

theorem three_shards_represented :
    ∃ validated l, (config (pool threeShards)).validate ext = .ok validated ∧
      fromConfig ext (fun _ => none) validated .start = .ok () l ∧
        ∀ pool ∈ l.built, pool.Represented := by
  have hvalid : (config (pool threeShards)).validate ext = .ok (config (pool threeShards)) := rfl
  obtain ⟨_, hrun⟩ := ok_of_returned three_returned
  refine ⟨_, _, hvalid, hrun, (pools_represented_iff hvalid hrun).mpr ?_⟩
  intro job hjob _
  rw [mem_jobs hjob]
  exact three_numbered

theorem three_shards_for_sessions :
    ∃ l, fromConfig ext (fun _ => none) (config (pool threeShards)) .start = .ok () l ∧
      (l.built.map fun pool => pool.addresses.map List.length) = [[3, 1, 3]] ∧
        ∀ built ∈ l.built, ∃ p : Session.ConnectionPool,
          p.addresses.map List.length = built.addresses.map List.length ∧ p.settings.Validated ∧
            ∀ (s : Nat) addresses, p.addresses[s]? = some addresses → ∀ a ∈ addresses, a.shard = s := by
  have hvalid : (config (pool threeShards)).validate ext = .ok _ := rfl
  obtain ⟨_, hrun⟩ := ok_of_returned three_returned
  refine ⟨_, hrun, by decide +kernel, fun built hbuilt => ?_⟩
  obtain ⟨p, haddresses, -, hvalidated, hshards⟩ :=
    built_for_sessions hvalid hrun (fun job hjob => mem_jobs hjob ▸ three_numbered) hbuilt
  exact ⟨p, by simp [haddresses], hvalidated, hshards⟩

end Sample

end PgCat.Install
