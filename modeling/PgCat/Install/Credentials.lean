import PgCat.Auth.Login
import PgCat.Install.Positions

/-!
# Credentials — what an accepted configuration has to log in with

A user has a password in the configuration, or its pool has a query for password hashes with a user and a
password to run it as.  The three settings of the query may stand in the general section too:
`fill_up_auth_query_config` copies them down, one by one, and `validate` checks what comes out.

* `Pool.Keeps`: what filling up leaves alone;
* `Pool.Complete`: what is checked, which is what the login of a client relies on.
-/

namespace PgCat.Install

open Lib

/-! ## Filling up -/

/-- No setting of the pool is changed, and nothing but missing settings of the query is added. -/
structure Pool.Keeps (pool filled : Pool) : Prop where
  authQuery : ∀ v, pool.authQuery = some v → filled.authQuery = some v
  authQueryUser : ∀ v, pool.authQueryUser = some v → filled.authQueryUser = some v
  authQueryPassword : ∀ v, pool.authQueryPassword = some v → filled.authQueryPassword = some v
  others : { filled with
    authQuery := pool.authQuery
    authQueryUser := pool.authQueryUser
    authQueryPassword := pool.authQueryPassword } = pool

theorem orElse_some {α : Type} {a b : Option α} {v : α} (h : a = some v) : (a <|> b) = some v := by
  rw [h]
  rfl

theorem orElse_orElse {α : Type} (a b : Option α) : ((a <|> b) <|> b) = (a <|> b) := by
  cases a with
  | none => cases b <;> rfl
  | some v => rfl

theorem Pool.fillUp_keeps (general : General) (pool : Pool) : pool.Keeps (pool.fillUp general) where
  authQuery := fun _ h => orElse_some h
  authQueryUser := fun _ h => orElse_some h
  authQueryPassword := fun _ h => orElse_some h
  others := rfl

theorem Pool.fillUp_fillUp (general : General) (pool : Pool) :
    (pool.fillUp general).fillUp general = pool.fillUp general := by
  simp only [Pool.fillUp, orElse_orElse]

theorem Config.fillUpAuthQueryConfig_idempotent (config : Config) :
    config.fillUpAuthQueryConfig.fillUpAuthQueryConfig = config.fillUpAuthQueryConfig := by
  have hpools : (config.pools.mapValues (Pool.fillUp config.general)).mapValues (Pool.fillUp config.general) =
      config.pools.mapValues (Pool.fillUp config.general) := by
    refine AList.ext ?_
    simp only [HashMap.mapValues, List.map_map]
    exact List.map_congr_left fun e _ => by simp [Pool.fillUp_fillUp]
  exact congrArg (fun pools => { config with pools := pools }) hpools

theorem Config.lookup_fillUpAuthQueryConfig (config : Config) (name : String) :
    config.fillUpAuthQueryConfig.pools.lookup name =
      (config.pools.lookup name).map (Pool.fillUp config.general) :=
  HashMap.lookup_mapValues _ _ _

/-! ## Validation -/

/-- Everybody can log in, and a query can be run. -/
structure Pool.Complete (pool : Pool) : Prop where
  users : ∀ user ∈ pool.users.values, user.password.isSome ∨
    (pool.authQuery.isSome ∧ pool.authQueryUser.isSome ∧ pool.authQueryPassword.isSome)
  query : pool.authQuery.isSome → pool.authQueryUser.isSome ∧ pool.authQueryPassword.isSome

theorem complete_of_validatePoolAuth {name : String} {pool : Pool} (h : validatePoolAuth name pool = .ok ()) :
    pool.Complete := by
  simp only [validatePoolAuth, except_bind_eq_ok, rejectIf_eq_ok, exists_const] at h
  obtain ⟨hquery, husers⟩ := h
  constructor
  · intro user huser
    have hchecked := rejectIf_eq_ok.mp (except_forM_eq_ok.mp husers user huser)
    cases hpassword : user.password with
    | some password => exact .inl rfl
    | none =>
      have hall : pool.hasAuthQuery = true := by
        by_contra hmissing
        exact hchecked ⟨Bool.eq_false_iff.mpr hmissing, by rw [hpassword]; rfl⟩
      simp only [Pool.hasAuthQuery, Bool.and_eq_true] at hall
      exact .inr ⟨hall.1.1, hall.2, hall.1.2⟩
  · intro hset
    have hboth := not_or.mp fun hmissing => hquery ⟨hset, hmissing⟩
    simpa [Option.isSome_iff_ne_none] using hboth

theorem Pool.validate_keeps {ext : Externals} {pool pool' : Pool} (h : pool.validate ext = .ok pool') :
    { pool' with automaticShardingKey := pool.automaticShardingKey } = pool := by
  simp only [Pool.validate, except_bind_eq_ok] at h
  obtain ⟨_, -, _, -, _, -, _, -, key, -, hpure⟩ := h
  cases hpure
  rfl

theorem Pool.Complete.of_validate {ext : Externals} {pool pool' : Pool} (hcomplete : pool.Complete)
    (h : pool.validate ext = .ok pool') : pool'.Complete := by
  rw [← Pool.validate_keeps h] at hcomplete
  exact ⟨hcomplete.users, hcomplete.query⟩

section Accepted

variable {ext : Externals} {config validated : Config} (hvalid : config.validate ext = .ok validated)

include hvalid

theorem Config.complete_of_validate {e : Sigma fun _ : String => Pool} (he : e ∈ config.pools.entries) :
    e.2.Complete :=
  complete_of_validatePoolAuth ((Config.validate_eq_ok hvalid).1 e he)

theorem Config.validated_complete {e : Sigma fun _ : String => Pool} (he : e ∈ validated.pools.entries) :
    e.2.Complete := by
  obtain ⟨raw, hraw, hvalidated⟩ := HashMap.mem_of_mapValuesM (Config.validate_eq_ok hvalid).2.1 he
  exact (Config.complete_of_validate hvalid hraw).of_validate hvalidated

end Accepted

/-- Credentials are complete in every accepted configuration: filling up twice is filling up once and leaves
the settings of the pools alone; and once the result is accepted, every user has a password or a pool with a
query that can be run, in the configuration that was checked and in the one that is stored. -/
theorem credentials_complete (ext : Externals) (config : Config) :
    config.fillUpAuthQueryConfig.fillUpAuthQueryConfig = config.fillUpAuthQueryConfig ∧
      (∀ name pool, config.pools.lookup name = some pool →
        ∃ filled, config.fillUpAuthQueryConfig.pools.lookup name = some filled ∧ pool.Keeps filled) ∧
        ∀ validated, config.fillUpAuthQueryConfig.validate ext = .ok validated →
          (∀ e ∈ config.fillUpAuthQueryConfig.pools.entries, e.2.Complete) ∧
            ∀ e ∈ validated.pools.entries, e.2.Complete := by
  refine ⟨config.fillUpAuthQueryConfig_idempotent, ?_, ?_⟩
  · intro name pool hpool
    refine ⟨pool.fillUp config.general, ?_, pool.fillUp_keeps config.general⟩
    rw [config.lookup_fillUpAuthQueryConfig, hpool, Option.map_some]
  · intro validated hvalid
    exact ⟨fun _ => Config.complete_of_validate hvalid, fun _ => Config.validated_complete hvalid⟩

namespace Sample

/-- A user without a password, in a pool that names a user for the query; the rest is in the general section. -/
def inherited : Config :=
  { config { pool (only "0" shard) with
      authQueryUser := some "lookup"
      users := only "0" { user with password := none } } with
    general := { General.default with
      authQuery := some "SELECT usename, passwd FROM pg_shadow WHERE usename = '$1'"
      authQueryUser := some "postgres"
      authQueryPassword := some "secret" } }

theorem inherited_complete :
    ∃ validated, inherited.fillUpAuthQueryConfig.validate ext = .ok validated ∧
      (∀ e ∈ validated.pools.entries, e.2.Complete) ∧
        ∃ filled, inherited.fillUpAuthQueryConfig.pools.lookup "sharded_db" = some filled ∧
          filled.authQueryUser = some "lookup" ∧ filled.authQueryPassword = some "secret" := by
  obtain ⟨-, hkeeps, hcomplete⟩ := credentials_complete ext inherited
  obtain ⟨filled, hfilled, hkept⟩ := hkeeps "sharded_db" _ rfl
  have hvalid : inherited.fillUpAuthQueryConfig.validate ext = .ok inherited.fillUpAuthQueryConfig := rfl
  refine ⟨_, hvalid, (hcomplete _ hvalid).2, filled, hfilled, hkept.authQueryUser "lookup" rfl, ?_⟩
  cases hfilled
  rfl

end Sample

/-! ## The login of a client -/

def Config.isAuthQueryConfigured (config : Config) : Bool :=
  config.pools.entries.any fun e => e.2.isAuthQueryConfigured

theorem Config.isAuthQueryConfigured_of_user {ext : Externals} {config validated : Config}
    (hvalid : config.validate ext = .ok validated) {job : Job} (hjob : job ∈ validated.jobs)
    (hpassword : job.user.password = none) : validated.isAuthQueryConfigured = true := by
  obtain ⟨e, he, hmap⟩ := List.mem_flatMap.mp hjob
  obtain ⟨user, huser, rfl⟩ := List.mem_map.mp hmap
  rcases (Config.validated_complete hvalid he).users user huser with hset | ⟨-, hquser, hqpassword⟩
  · rw [hpassword] at hset
    cases hset
  · refine List.any_eq_true.mpr ⟨e, he, ?_⟩
    rw [Pool.isAuthQueryConfigured, hquser, hqpassword]
    rfl

/-- A client of an accepted configuration is never told that it cannot be authenticated. -/
theorem passwordHash_possible {ext : Externals} {config validated : Config}
    (hvalid : config.validate ext = .ok validated) {job : Job} (hjob : job ∈ validated.jobs)
    {p : Auth.Pooler} (hconfigured : p.isAuthQueryConfigured = validated.isAuthQueryConfigured)
    {view : Auth.PoolView} (hview : view.password = job.user.password) (who : Auth.Identity)
    {username : String} {s s' : Socket} :
    Auth.passwordHash p who view s ≠ .error (.failed (.clientAuthImpossible username)) s' := by
  unfold Auth.passwordHash
  cases hpassword : view.password with
  | some password => exact fun h => by cases h
  | none =>
    have hset : p.isAuthQueryConfigured = true := by
      rw [hconfigured]
      exact Config.isAuthQueryConfigured_of_user hvalid hjob (hview.symm.trans hpassword)
    -- From here on the only failure left is that of the query itself.
    rw [if_neg (not_not.mpr hset)]
    cases view.authHash with
    | some hash => exact fun h => by cases h
    | none =>
      cases p.refetchMissing with
      | ok hash | error text => exact fun h => by cases h

end PgCat.Install
