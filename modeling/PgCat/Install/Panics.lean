import PgCat.Install.Positions

/-!
# Panics — which accepted configurations can be installed

`from_config` unwraps what validation is meant to have checked.  For each of its functions a
`Completes` lemma says exactly when it returns; for an accepted configuration three conditions are
left, collected in `Buildable`.
-/

namespace PgCat.Install

open Lib

/-- What validation does not check and `from_config` relies on. -/
structure Buildable (ext : Externals) (general : General) (job : Job) : Prop where
  /-- Shards that are sorted have numbers that fit a signed integer. -/
  order : 2 ≤ job.pool.shards.keys.length →
    ∀ k ∈ job.pool.shards.keys, ∀ n, parseUsize k.toList = some n → n < 2 ^ 63
  authQuery : job.pool.shards.keys ≠ [] → job.pool.authQueryUser.isSome →
    job.pool.authQueryPassword.isSome → job.pool.authQuery.isSome
  builder : job.pool.shards.keys ≠ [] →
    ext.builds job.user.poolSize (job.pool.connectTimeoutOf general)
      (job.pool.idleTimeoutOf general) = true

/-! ## The parts without state -/

theorem fromPoolConfig_ok_iff (pool : Pool) :
    (∃ auth, AuthPassthrough.fromPoolConfig pool = .ok auth) ↔
      (pool.authQueryUser.isSome → pool.authQueryPassword.isSome → pool.authQuery.isSome) := by
  unfold AuthPassthrough.fromPoolConfig Pool.isAuthQueryConfigured
  cases pool.authQueryUser with
  | none => simp
  | some user =>
    cases pool.authQueryPassword with
    | none => simp
    | some password =>
      cases pool.authQuery with
      | none => simp [unwrap, bind, Except.bind]
      | some query => simp [unwrap, bind, Except.bind, pure, Except.pure]

theorem sortShardIds_ok_iff {ids : List String}
    (hnumber : ∀ k ∈ ids, ∃ n, parseUsize k.toList = some n) :
    (∃ sorted, sortShardIds ids = .ok sorted) ↔
      (2 ≤ ids.length → ∀ k ∈ ids, ∀ n, parseUsize k.toList = some n → n < 2 ^ 63) := by
  have hsigned : ∀ k ∈ ids, (parseI64 k.toList).isSome ↔
      ∀ n, parseUsize k.toList = some n → n < 2 ^ 63 := by
    intro k hk
    obtain ⟨n, hn⟩ := hnumber k hk
    rw [parseI64, parseSigned_of_parseUnsigned hn]
    by_cases hle : n ≤ 2 ^ 63 - 1
    · rw [if_pos hle, hn]
      simp only [Option.isSome_some, Option.some.injEq, forall_eq', true_iff]
      omega
    · rw [if_neg hle, hn]
      simp only [Option.isSome_none, Option.some.injEq, forall_eq', Bool.false_eq_true, false_iff]
      omega
  unfold sortShardIds
  by_cases hshort : ids.length < 2
  · simp only [hshort, if_true]
    exact iff_of_true ⟨ids, rfl⟩ fun hlong => absurd hshort (by omega)
  · have hlong : 2 ≤ ids.length := by omega
    simp only [hshort, if_false, hlong, true_imp_iff]
    by_cases hall : ids.all (fun k => (parseI64 k.toList).isSome) = true
    · simp only [hall, if_true]
      exact iff_of_true ⟨_, rfl⟩ fun k hk => (hsigned k hk).mp (List.all_eq_true.mp hall k hk)
    · simp only [hall, Bool.false_eq_true, if_false]
      refine iff_of_false (by simp) fun h => hall ?_
      exact List.all_eq_true.mpr fun k hk => (hsigned k hk).mpr (h k hk)

theorem settingsRegex_ok {ext : Externals} {option : Option String}
    (h : ∀ text, option = some text → ∃ regex, ext.regex text = .ok regex) :
    ∃ regex, settingsRegex ext option = .ok regex := by
  cases option with
  | none => exact ⟨none, rfl⟩
  | some text =>
    obtain ⟨regex, hregex⟩ := h text rfl
    exact ⟨some regex, by simp [settingsRegex, hregex]⟩

theorem poolSettings_ok {ext : Externals} {pool : Pool} (h : pool.Accepted ext) (general : General)
    (user : User) (shards : Nat) : ∃ settings, poolSettings ext general pool user shards = .ok settings := by
  have hrole : ∃ role, settingsRole pool.defaultRole = .ok role := by
    rcases h.role with hrole | hrole | hrole
    · exact ⟨none, by rw [hrole]; rfl⟩
    · exact ⟨some .primary, by rw [hrole]; rfl⟩
    · exact ⟨some .replica, by rw [hrole]; rfl⟩
  obtain ⟨role, hrole⟩ := hrole
  obtain ⟨key, hkey⟩ := settingsRegex_ok h.shardingKeyRegex
  obtain ⟨id, hid⟩ := settingsRegex_ok h.shardIdRegex
  simp [poolSettings, hrole, hkey, hid, bind, Except.bind, pure, Except.pure]

/-! ## The program -/

section Program

variable (ext : Externals) (general : General) (job : Job)

theorem attempt_completes {α : Type} (x : Except Panic α) : Completes (∃ a, x = .ok a) (attempt x) := by
  cases x with
  | ok a => exact (Completes.ofPure a).congr (by simp)
  | error panic => exact (Completes.ofThrow panic).congr (by simp)

theorem unwrap_completes {α : Type} (panic : Panic) (o : Option α) :
    Completes (∃ a, o = some a) (attempt (unwrap panic o)) :=
  (attempt_completes _).congr (exists_congr fun _ => unwrap_eq_ok)

theorem nextAddressId_completes : Completes True nextAddressId :=
  Completes.ofGet.after fun locals => (Completes.ofModify _).after fun _ =>
    Completes.ofPure locals.addressId

theorem newAddress_completes (shardIdx : String) (shard : Shard) (host : String) (port : Nat)
    (role : Config.Role) (addressIndex : Nat) (mirrors : List Address) :
    Completes (∃ n, parseUsize shardIdx.toList = some n)
      (newAddress job shardIdx shard host port role addressIndex mirrors) := by
  have hrest : ∀ number : Nat, Completes True (do
      let id ← nextAddressId
      let locals ← get
      pure (⟨id, host, port, number, shard.database, role, locals.replicaNumber, addressIndex,
        job.user.username, job.poolName, mirrors⟩ : Address) : Program Address) := fun number =>
    nextAddressId_completes.after fun _ => Completes.ofGet.after fun _ => Completes.ofPure _
  exact ((unwrap_completes _ _).seq fun number _ => hrest number).congr (by simp)

theorem fetchAuthHash_completes (address : Address) :
    Completes (∃ auth, AuthPassthrough.fromPoolConfig job.pool = .ok auth)
      (fetchAuthHash ext job address) := by
  refine ((attempt_completes _).seq (d := True) fun auth _ => ?_).congr (by simp)
  cases auth with
  | none => exact Completes.ofPure ()
  | some apt =>
    dsimp only
    split
    · exact Completes.ofModify _
    · exact Completes.ofPure ()

theorem buildDatabase_completes (shard : Shard) (address : Address) :
    Completes (ext.builds job.user.poolSize (job.pool.connectTimeoutOf general)
      (job.pool.idleTimeoutOf general) = true) (buildDatabase ext general job shard address) := by
  unfold buildDatabase
  dsimp only
  split
  · rename_i hbuilds
    exact (Completes.ofPure _).congr (by simp [hbuilds])
  · rename_i hbuilds
    exact (Completes.ofThrow _).congr (by simp [hbuilds])

/-- What a server of the pool needs, whatever its shard. -/
def ServerBuildable : Prop :=
  (∃ auth, AuthPassthrough.fromPoolConfig job.pool = .ok auth) ∧
    ext.builds job.user.poolSize (job.pool.connectTimeoutOf general)
      (job.pool.idleTimeoutOf general) = true

theorem installServer_completes {shardIdx : String} {n : Nat} (hn : parseUsize shardIdx.toList = some n)
    (shard : Shard) (server : ServerConfig) (addressIndex : Nat) :
    Completes (ServerBuildable ext general job)
      (installServer ext general job shardIdx shard server addressIndex) := by
  have haddress : ∀ host port role index mirrors, Completes True
      (newAddress job shardIdx shard host port role index mirrors) := fun host port role index mirrors =>
    (newAddress_completes job shardIdx shard host port role index mirrors).congr (by simp [hn])
  have hmirrors : Completes True (mirrorAddresses job shardIdx shard server addressIndex) :=
    (Completes.mapEach fun mirror _ => haddress _ _ _ _ _).congr (by simp)
  refine hmirrors.after fun mirrors => (haddress _ _ _ _ mirrors).after fun address => ?_
  refine (Completes.ofModify _).after fun _ => ?_
  refine (fetchAuthHash_completes ext job address).seq fun _ _ => ?_
  refine ((buildDatabase_completes ext general job shard address).seq fun database _ =>
    Completes.ofPure (database, address)).congr (by simp)

theorem installShard_completes {shardIdx : String} {shard : Shard} {n : Nat}
    (hshard : job.pool.shards.lookup shardIdx = some shard) (hservers : shard.servers ≠ [])
    (hn : parseUsize shardIdx.toList = some n) :
    Completes (ServerBuildable ext general job) (installShard ext general job shardIdx) := by
  have hlookup : Completes True (attempt (unwrap .shardIndex (job.pool.shards.lookup shardIdx))) :=
    (unwrap_completes _ _).congr (by simp [hshard])
  refine (hlookup.seq (d := ServerBuildable ext general job) fun found hfound => ?_).congr (by simp)
  obtain ⟨_, _, hfound⟩ := hfound
  have heq := unwrap_eq_ok.mp (attempt_eq_ok hfound)
  rw [hshard] at heq
  cases heq
  refine (Completes.ofModify _).after fun _ => ?_
  refine (Completes.mapEach fun server _ =>
    installServer_completes ext general job hn shard server.1 server.2).congr ?_
  -- The condition is the same for every server, and there is one.
  obtain ⟨server, rest, hlist⟩ := List.exists_cons_of_ne_nil hservers
  constructor
  · intro h
    exact h (server, 0) (by simp [hlist])
  · exact fun h _ _ => h

theorem createPool_completes (haccepted : job.pool.Accepted ext) :
    Completes (Buildable ext general job) (createPool ext general job) := by
  have hsort := (attempt_completes (sortShardIds job.pool.shards.keys)).congr
    (sortShardIds_ok_iff haccepted.parses)
  refine (hsort.seq (d := job.pool.shards.keys ≠ [] → ServerBuildable ext general job)
    fun shardIds hids => ?_).congr ?_
  · obtain ⟨_, _, hids⟩ := hids
    have hperm := sortShardIds_perm (attempt_eq_ok hids)
    refine (Completes.ofModify _).after fun _ => ?_
    have hshards : Completes (∀ k ∈ shardIds, ServerBuildable ext general job)
        (shardIds.mapM (installShard ext general job)) := by
      refine Completes.mapEach fun k hk => ?_
      -- Every shard id comes from a section, which was checked when the configuration was read.
      obtain ⟨e, he, rfl⟩ := List.mem_map.mp (hperm.mem_iff.mp hk)
      obtain ⟨n, hn⟩ := haccepted.number e he
      exact installShard_completes ext general job (AList.mem_lookup_iff.mpr he)
        (Shard.validate_eq_ok.mp (haccepted.servers e he)).1 hn
    have hsettings : Completes True (attempt (poolSettings ext general job.pool job.user
        shardIds.length)) :=
      (attempt_completes _).congr (iff_true_intro (poolSettings_ok haccepted _ _ _))
    refine (hshards.seq (d := True) fun rows _ => hsettings.after fun settings =>
      Completes.ofGet.after fun locals => Completes.ofPure _).congr ?_
    rw [and_true]
    constructor
    · intro h hsome
      obtain ⟨k, hk⟩ := List.exists_mem_of_ne_nil _ hsome
      exact h k (hperm.mem_iff.mpr hk)
    · intro h k hk
      exact h (List.ne_nil_of_mem (hperm.mem_iff.mp hk))
  · unfold ServerBuildable
    rw [fromPoolConfig_ok_iff]
    constructor
    · rintro ⟨horder, hserver⟩
      exact ⟨horder, fun hsome => (hserver hsome).1, fun hsome => (hserver hsome).2⟩
    · rintro ⟨horder, hauth, hbuilder⟩
      exact ⟨horder, fun hsome => ⟨hauth hsome, hbuilder hsome⟩⟩

theorem installUser_completes (haccepted : job.pool.Accepted ext) (olds : PoolMap) :
    Completes (keptPool ext job olds = none → Buildable ext general job)
      (installUser ext general job olds) := by
  unfold installUser
  cases hkept : keptPool ext job olds with
  | some pool => exact (Completes.ofModify _).congr (by simp)
  | none =>
    dsimp only
    refine ((createPool_completes ext general job haccepted).seq (d := True) fun pool _ => ?_).congr
      (by simp)
    exact (Completes.ofModify _).after fun _ => Completes.ofModify _

end Program

theorem fromConfig_completes {ext : Externals} {config : Config}
    (haccepted : ∀ job ∈ config.jobs, job.pool.Accepted ext) (olds : PoolMap) :
    Completes (∀ job ∈ config.jobs, keptPool ext job olds = none → Buildable ext config.general job)
      (fromConfig ext olds config) := by
  rw [fromConfig_eq_jobs]
  exact Completes.forEach fun job hjob =>
    installUser_completes ext config.general job (haccepted job hjob) olds

/-- An accepted configuration is installed without a panic exactly if every section that is built
from is `Buildable`. -/
theorem installs_iff {ext : Externals} {config validated : Config}
    (hvalid : config.fillUpAuthQueryConfig.validate ext = .ok validated) (olds : PoolMap) :
    (∃ l, fromConfig ext olds validated .start = .ok () l) ↔
      ∀ job ∈ validated.jobs, keptPool ext job olds = none →
        Buildable ext validated.general job := by
  have hcompletes := fromConfig_completes (fun _ => accepted_of_mem_jobs hvalid) olds
  rw [← hcompletes .start]
  exact ⟨fun ⟨l, hl⟩ => ⟨(), l, hl⟩, fun ⟨_, l, hl⟩ => ⟨l, hl⟩⟩

namespace Sample

def halfConfigured : Pool :=
  { pool (only "0" shard) with
    authQueryUser := some "lookup"
    authQueryPassword := some "secret" }

theorem missing_query_panics :
    ∃ validated l, (config halfConfigured).fillUpAuthQueryConfig.validate ext = .ok validated ∧
      fromConfig ext (fun _ => none) validated .start = .error .authQuery l :=
  ⟨_, _, rfl, rfl⟩

theorem three_shards_installed :
    ∃ validated l, (config (pool threeShards)).fillUpAuthQueryConfig.validate ext = .ok validated ∧
      fromConfig ext (fun _ => none) validated .start = .ok () l := by
  have hvalid : (config (pool threeShards)).fillUpAuthQueryConfig.validate ext =
      .ok (config (pool threeShards)) := rfl
  have hbuildable : ∀ job ∈ (config (pool threeShards)).jobs,
      keptPool ext job (fun _ => none) = none → Buildable ext .default job := by
    intro job hjob _
    rw [mem_jobs hjob]
    refine ⟨fun _ k hk n hn => ?_, nofun, fun _ => rfl⟩
    have hsmall : ∀ k ∈ threeShards.keys, (parseUsize k.toList).all (· < 2 ^ 63) = true := by decide
    simpa [hn] using hsmall k hk
  obtain ⟨l, hl⟩ := (installs_iff hvalid fun _ => none).mpr hbuildable
  exact ⟨_, l, hvalid, hl⟩

end Sample

end PgCat.Install
