import Mathlib.Data.List.Dedup
import PgCat.Config
import PgCat.Lib.Maps
import PgCat.Lib.Program

/-!
# File — the configuration file and its validation

The data of `config.rs` as they come out of the TOML parser, `fill_up_auth_query_config`, and
`validate`.  A rejected configuration is `Error::BadConfig`; the line that is logged with it is kept.
What the code takes from elsewhere (the regular expression compiler, the TLS loaders, the hasher, the
queries sent to a server and the builder of a server pool) is a parameter, `Externals`.
-/

namespace PgCat.Install

open Lib
open PgCat.Config (Role PoolMode ShardingFunction Regex splitKey)

/-! ## The data -/

inductive LoadBalancingMode
  | random
  | leastOutstandingConnections
  deriving DecidableEq, Repr

structure User where
  username : String
  password : Option String
  poolSize : Nat
  poolMode : Option PoolMode
  statementTimeout : Nat
  deriving DecidableEq, Repr

structure ServerConfig where
  host : String
  port : Nat
  role : Role
  deriving DecidableEq, Repr

structure MirrorServerConfig where
  host : String
  port : Nat
  mirroringTargetIndex : Nat
  deriving DecidableEq, Repr

structure Shard where
  database : String
  mirrors : Option (List MirrorServerConfig)
  servers : List ServerConfig
  deriving DecidableEq, Repr

structure Pool where
  poolMode : PoolMode
  loadBalancingMode : LoadBalancingMode
  defaultRole : String
  queryParserEnabled : Bool
  primaryReadsEnabled : Bool
  connectTimeout : Option Nat
  idleTimeout : Option Nat
  shardingFunction : ShardingFunction
  automaticShardingKey : Option String
  shardingKeyRegex : Option String
  shardIdRegex : Option String
  regexSearchLimit : Option Nat
  authQuery : Option String
  authQueryUser : Option String
  authQueryPassword : Option String
  shards : BTreeMap String Shard
  users : BTreeMap String User
  deriving DecidableEq

structure General where
  host : String
  port : Nat
  enablePrometheusExporter : Option Bool
  prometheusExporterPort : Int
  connectTimeout : Nat
  idleTimeout : Nat
  tcpKeepalivesIdle : Nat
  tcpKeepalivesCount : Nat
  tcpKeepalivesInterval : Nat
  logClientConnections : Bool
  logClientDisconnections : Bool
  shutdownTimeout : Nat
  healthcheckTimeout : Nat
  healthcheckDelay : Nat
  banTime : Int
  idleClientInTransactionTimeout : Nat
  workerThreads : Nat
  autoreload : Option Nat
  tlsCertificate : Option String
  tlsPrivateKey : Option String
  adminUsername : String
  adminPassword : String
  authQuery : Option String
  authQueryUser : Option String
  authQueryPassword : Option String
  deriving DecidableEq, Repr

def General.default : General where
  host := "0.0.0.0"
  port := 5432
  enablePrometheusExporter := some false
  prometheusExporterPort := 9930
  connectTimeout := 1000
  idleTimeout := 60000
  tcpKeepalivesIdle := 5
  tcpKeepalivesCount := 5
  tcpKeepalivesInterval := 5
  logClientConnections := false
  logClientDisconnections := false
  shutdownTimeout := 60000
  healthcheckTimeout := 1000
  healthcheckDelay := 30000
  banTime := 60
  idleClientInTransactionTimeout := 0
  workerThreads := 4
  autoreload := none
  tlsCertificate := none
  tlsPrivateKey := none
  adminUsername := "admin"
  adminPassword := "admin"
  authQuery := none
  authQueryUser := none
  authQueryPassword := none

structure Config where
  path : String
  general : General
  pools : HashMap String Pool

def Config.default : Config where
  path := "pgcat.toml"
  general := .default
  pools := ∅

/-- Address identifying a PostgreSQL server uniquely. -/
structure Address where
  id : Nat
  host : String
  port : Nat
  /-- Shard number of this server. -/
  shard : Nat
  database : String
  role : Role
  replicaNumber : Nat
  /-- Position of the server in the shard. -/
  addressIndex : Nat
  username : String
  poolName : String
  /-- Addresses that receive mirrored traffic. -/
  mirrors : List Address

/-- What the code takes from outside. -/
structure Externals where
  regex : String → Except String Regex
  loadCerts : String → Except String Unit
  loadKeys : String → Except String Unit
  hashValue : Pool → Nat
  /-- `Server::exec_simple_query`, a network call. -/
  execSimpleQuery : Address → User → String → Except String (List String)
  /-- The builder of a server pool takes the size, the connection timeout and the idle timeout. -/
  builds : Nat → Nat → Nat → Bool

/-! ## Validation -/

/-- `Error::BadConfig`, with the line that is logged. -/
structure BadConfig where
  log : String
  deriving DecidableEq, Repr

/-- Log the line and give up if `c` holds. -/
def rejectIf (c : Prop) [Decidable c] (log : String) : Except BadConfig Unit :=
  if c then throw ⟨log⟩ else pure ()

@[simp] theorem rejectIf_eq_ok {c : Prop} [Decidable c] {log : String} {u : Unit} :
    rejectIf c log = .ok u ↔ ¬ c := by
  unfold rejectIf
  by_cases hc : c
  · simp [hc, throw, throwThe, MonadExceptOf.throw]
  · simp [hc, pure, Except.pure]

def Shard.validate (shard : Shard) : Except BadConfig Unit := do
  rejectIf (shard.servers = []) s!"Shard {shard.database} has no servers configured"
  rejectIf (1 < shard.servers.countP fun server => server.role = .primary)
    s!"Shard {shard.database} has more than on primary configured"
  -- `dup_check.len()` is the number of different servers
  rejectIf (shard.servers.dedup.length ≠ shard.servers.length)
    s!"Shard {shard.database} contains duplicate server configs"

def validateRole (role : String) : Except BadConfig Unit :=
  rejectIf (¬ (role = "any" ∨ role = "primary" ∨ role = "replica"))
    s!"Query router default_role must be 'primary', 'replica', or 'any', got: '{role}'"

def validateShard (shardIdx : String) (shard : Shard) : Except BadConfig Unit := do
  rejectIf (parseUsize shardIdx.toList = none)
    s!"Shard '{shardIdx}' is not a valid number, shards must be numbered starting at 0"
  shard.validate

def validateRegex (ext : Externals) (option : Option String) (name : String) : Except BadConfig Unit :=
  match option with
  | none => pure ()
  | some regex =>
    match ext.regex regex with
    | .ok _ => pure ()
    | .error parseErr => throw ⟨s!"{name} is not a valid Regex: {parseErr}"⟩

/-- No quotes in the key, so that quoted and unquoted identifiers need not be compared. -/
def unquoted (key : String) : String :=
  String.ofList (key.toList.filter fun c => c ≠ Char.ofNat 0x22)

def validateKey : Option String → Except BadConfig (Option String)
  | none => pure none
  | some raw => do
    let key := unquoted raw
    rejectIf ((splitKey key).length ≠ 2)
      s!"automatic_sharding_key '{key}' must be fully qualified, e.g. t.{key}`"
    pure (some key)

def Pool.validate (ext : Externals) (pool : Pool) : Except BadConfig Pool := do
  validateRole pool.defaultRole
  forM pool.shards.entries fun e => validateShard e.1 e.2
  validateRegex ext pool.shardIdRegex "shard_id_regex"
  validateRegex ext pool.shardingKeyRegex "sharding_key_regex"
  let key ← validateKey pool.automaticShardingKey
  pure { pool with automaticShardingKey := key }

/-- All three parts of the query for password hashes are there, as `validate` has it. -/
def Pool.hasAuthQuery (pool : Pool) : Bool :=
  pool.authQuery.isSome && pool.authQueryPassword.isSome && pool.authQueryUser.isSome

def validateGeneralAuth (general : General) : Except BadConfig Unit :=
  rejectIf
    (general.authQuery.isSome ∧ (general.authQueryUser.isNone ∨ general.authQueryPassword.isNone))
    ("If auth_query is specified, you need to provide a value for `auth_query_user`, " ++
      "`auth_query_password`")

def validatePoolAuth (name : String) (pool : Pool) : Except BadConfig Unit := do
  rejectIf (pool.authQuery.isSome ∧ (pool.authQueryUser.isNone ∨ pool.authQueryPassword.isNone))
    (s!"Error in pool \x7b {name} \x7d. If auth_query is specified, you need to provide a value for " ++
      "`auth_query_user`, `auth_query_password`")
  forM pool.users.values fun user =>
    rejectIf (pool.hasAuthQuery = false ∧ user.password.isNone)
      (s!"Error in pool \x7b {name} \x7d. You have to specify a user password for every pool if " ++
        "auth_query is not specified")

def validateTls (ext : Externals) (general : General) : Except BadConfig Unit :=
  match general.tlsCertificate with
  | none => pure ()
  | some certificate =>
    match ext.loadCerts certificate with
    | .error err => throw ⟨s!"tls_certificate is incorrectly configured: {err}"⟩
    | .ok () =>
      match general.tlsPrivateKey with
      | none => throw ⟨"tls_certificate is set, but the tls_private_key is not"⟩
      | some key =>
        match ext.loadKeys key with
        | .error err => throw ⟨s!"tls_private_key is incorrectly configured: {err}"⟩
        | .ok () => pure ()

def Config.validate (ext : Externals) (config : Config) : Except BadConfig Config := do
  validateGeneralAuth config.general
  forM config.pools.entries fun e => validatePoolAuth e.1 e.2
  validateTls ext config.general
  let pools ← config.pools.mapValuesM (Pool.validate ext)
  pure { config with pools := pools }

/-- A pool without a value of its own takes the general one. -/
def Pool.fillUp (general : General) (pool : Pool) : Pool :=
  { pool with
    authQuery := pool.authQuery <|> general.authQuery
    authQueryUser := pool.authQueryUser <|> general.authQueryUser
    authQueryPassword := pool.authQueryPassword <|> general.authQueryPassword }

def Config.fillUpAuthQueryConfig (config : Config) : Config :=
  { config with pools := config.pools.mapValues (Pool.fillUp config.general) }

/-! ## What an accepted configuration satisfies -/

theorem Shard.validate_eq_ok {shard : Shard} :
    shard.validate = .ok () ↔
      shard.servers ≠ [] ∧ shard.servers.countP (fun server => server.role = .primary) ≤ 1 ∧
        shard.servers.Nodup := by
  have hnodup : shard.servers.dedup.length = shard.servers.length ↔ shard.servers.Nodup := by
    constructor
    · intro h
      rw [← List.dedup_eq_self]
      exact (List.dedup_sublist _).eq_of_length h
    · intro h
      rw [h.dedup]
  simp only [Shard.validate, except_bind_eq_ok, rejectIf_eq_ok, exists_const, hnodup, not_lt,
    not_not, ne_eq]

/-- What `Pool::validate` has checked of the pool it leaves behind. -/
structure Pool.Accepted (ext : Externals) (pool : Pool) : Prop where
  role : pool.defaultRole = "any" ∨ pool.defaultRole = "primary" ∨ pool.defaultRole = "replica"
  number : ∀ e ∈ pool.shards.entries, ∃ n, parseUsize e.1.toList = some n
  servers : ∀ e ∈ pool.shards.entries, e.2.validate = .ok ()
  shardIdRegex : ∀ text, pool.shardIdRegex = some text → ∃ regex, ext.regex text = .ok regex
  shardingKeyRegex : ∀ text, pool.shardingKeyRegex = some text → ∃ regex, ext.regex text = .ok regex
  key : ∀ key, pool.automaticShardingKey = some key → (splitKey key).length = 2

variable {ext : Externals}

theorem validateRegex_ok {option : Option String} {name : String}
    (h : validateRegex ext option name = .ok ()) (text : String) (htext : option = some text) :
    ∃ regex, ext.regex text = .ok regex := by
  subst htext
  cases hregex : ext.regex text with
  | ok regex => exact ⟨regex, rfl⟩
  | error err => simp [validateRegex, hregex, throw, throwThe, MonadExceptOf.throw] at h

theorem validateKey_ok {option key : Option String} (h : validateKey option = .ok key) (k : String)
    (hk : key = some k) : (splitKey k).length = 2 := by
  cases option with
  | none =>
    cases h
    cases hk
  | some raw =>
    simp only [validateKey, except_bind_eq_ok, rejectIf_eq_ok, exists_const, not_not, ne_eq] at h
    obtain ⟨hlength, hkey⟩ := h
    cases hkey
    cases hk
    exact hlength

theorem Pool.accepted_of_validate {pool pool' : Pool}
    (h : pool.validate ext = .ok pool') : pool'.Accepted ext := by
  simp only [Pool.validate, except_bind_eq_ok] at h
  obtain ⟨_, hrole, _, hshards, _, hid, _, hkeyRegex, key, hkey, hpure⟩ := h
  cases hpure
  have hshard := except_forM_eq_ok.mp hshards
  simp only [validateShard, except_bind_eq_ok, rejectIf_eq_ok, exists_const] at hshard
  refine ⟨?_, ?_, fun e he => (hshard e he).2, validateRegex_ok hid, validateRegex_ok hkeyRegex,
    validateKey_ok hkey⟩
  · exact not_not.mp (rejectIf_eq_ok.mp hrole)
  · exact fun e he => Option.ne_none_iff_exists'.mp (hshard e he).1

/-- Validation leaves everything but the automatic sharding keys as it was. -/
theorem Config.validate_eq_ok {config validated : Config} (h : config.validate ext = .ok validated) :
    (∀ e ∈ config.pools.entries, validatePoolAuth e.1 e.2 = .ok ()) ∧
      config.pools.mapValuesM (Pool.validate ext) = .ok validated.pools ∧
        validated.general = config.general := by
  simp only [Config.validate, except_bind_eq_ok] at h
  obtain ⟨_, _, _, hauth, _, _, pools, hpools, hpure⟩ := h
  cases hpure
  exact ⟨except_forM_eq_ok.mp hauth, hpools, rfl⟩

theorem Config.accepted_of_validate {config validated : Config}
    (h : config.validate ext = .ok validated) {name : String} {pool : Pool}
    (hpool : ⟨name, pool⟩ ∈ validated.pools.entries) : pool.Accepted ext := by
  obtain ⟨_, hpools, _⟩ := Config.validate_eq_ok h
  obtain ⟨raw, _, hraw⟩ := HashMap.mem_of_mapValuesM hpools hpool
  exact Pool.accepted_of_validate hraw

end PgCat.Install
