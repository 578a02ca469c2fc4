import Mathlib.Data.List.Sort
import PgCat.Install.File
import PgCat.Lib.Text

/-!
# FromConfig — building the pools of a configuration

`ConnectionPool::from_config` as a program over its local variables.  An exception is a panic, named
after the place it comes from.  `built`, the pools that were created and not taken over from the
previous configuration, belongs to the observer: the code does not read it.
-/

namespace PgCat.Install

open Lib
open PgCat.Config (Role PoolMode ShardingFunction Regex)

/-! ## Pools -/

structure PoolSettings where
  poolMode : PoolMode
  loadBalancingMode : LoadBalancingMode
  shards : Nat
  user : User
  defaultRole : Option Role
  queryParserEnabled : Bool
  primaryReadsEnabled : Bool
  shardingFunction : ShardingFunction
  automaticShardingKey : Option String
  healthcheckDelay : Nat
  healthcheckTimeout : Nat
  banTime : Int
  shardingKeyRegex : Option Regex
  shardIdRegex : Option Regex
  regexSearchLimit : Nat
  authQuery : Option String
  authQueryUser : Option String
  authQueryPassword : Option String

/-- A database visible to clients, and the user a client connects as. -/
structure PoolIdentifier where
  db : String
  user : String
  deriving DecidableEq, Repr

/-- A pool of connections to one server: its manager and what the builder was given. -/
structure Database where
  address : Address
  user : User
  database : String
  maxSize : Nat
  connectionTimeout : Nat
  idleTimeout : Nat

structure ConnectionPool where
  databases : List (List Database)
  addresses : List (List Address)
  /-- The banned addresses of each shard. -/
  banlist : List (List Address)
  settings : PoolSettings
  serverInfo : Bytes
  validated : Bool
  configHash : Nat
  paused : Bool
  authHash : Option String

def ConnectionPool.shards (pool : ConnectionPool) : Nat :=
  pool.databases.length

abbrev PoolMap := PoolIdentifier → Option ConnectionPool

/-! ## Panics -/

inductive Panic
  /-- `k.parse::<i64>().unwrap()` while the shards are sorted. -/
  | shardOrder
  /-- `pool_config.shards[shard_idx]`. -/
  | shardIndex
  /-- `shard_idx.parse::<usize>().unwrap()`. -/
  | shardNumber
  /-- A part of the query for password hashes is unwrapped. -/
  | authQuery
  /-- The builder of a server pool. -/
  | builder
  /-- `unreachable!()`. -/
  | defaultRole
  /-- `Regex::new(..).unwrap()`. -/
  | regex
  deriving DecidableEq, Repr

def unwrap {α : Type} (panic : Panic) : Option α → Except Panic α
  | some a => .ok a
  | none => .error panic

/-! ## The parts without state -/

/-- The key a shard is sorted by; the default is never used. -/
def shardKey (k : String) : Int :=
  (parseI64 k.toList).getD 0

/-- Sort by shard number.  Keys are parsed when they are compared: with two shards or more each is
parsed at least once, with fewer none is. -/
def sortShardIds (shardIds : List String) : Except Panic (List String) :=
  if shardIds.length < 2 then .ok shardIds
  else if shardIds.all fun k => (parseI64 k.toList).isSome then
    .ok (shardIds.insertionSort fun a b => shardKey a ≤ shardKey b)
  else .error .shardOrder

structure AuthPassthrough where
  password : String
  query : String
  user : String
  deriving DecidableEq, Repr

/-- The password is looked at twice, the query not at all. -/
def Pool.isAuthQueryConfigured (pool : Pool) : Bool :=
  pool.authQueryPassword.isSome && pool.authQueryUser.isSome && pool.authQueryPassword.isSome

def AuthPassthrough.fromPoolConfig (pool : Pool) : Except Panic (Option AuthPassthrough) :=
  if pool.isAuthQueryConfigured then do
    let query ← unwrap .authQuery pool.authQuery
    let user ← unwrap .authQuery pool.authQueryUser
    let password ← unwrap .authQuery pool.authQueryPassword
    pure (some ⟨password, query, user⟩)
  else .ok none

/-- What follows `md5` in a password hash. -/
def stripMd5 (hash : String) : Option String :=
  if "md5".toList <+: hash.toList then some (String.ofList (hash.toList.drop 3)) else none

def AuthPassthrough.fetchHash (ext : Externals) (apt : AuthPassthrough) (address : Address) :
    Except String String :=
  let authUser : User := ⟨apt.user, some apt.password, 1, none, 0⟩
  let user := address.username
  match ext.execSimpleQuery address authUser (replaceText "$1" user apt.query) with
  | .ok [first, last] =>
    if first = user then
      match stripMd5 last with
      | some hash => .ok hash
      | none => .error "Obtained hash from auth_query does not seem to be in md5 format."
    else .error "Data obtained from query does not follow the scheme 'user','hash'."
  | .ok _ => .error "Data obtained from query does not follow the scheme 'user','hash'."
  | .error err =>
    .error (s!"Error trying to obtain password from auth_query, ignoring hash for user '{user}'." ++
      s!" Error: {err}")

def settingsRole : String → Except Panic (Option Role)
  | "any" => .ok none
  | "replica" => .ok (some .replica)
  | "primary" => .ok (some .primary)
  | _ => .error .defaultRole

def settingsRegex (ext : Externals) : Option String → Except Panic (Option Regex)
  | none => .ok none
  | some text =>
    match ext.regex text with
    | .ok regex => .ok (some regex)
    | .error _ => .error .regex

def poolSettings (ext : Externals) (general : General) (pool : Pool) (user : User) (shards : Nat) :
    Except Panic PoolSettings := do
  let defaultRole ← settingsRole pool.defaultRole
  let shardingKeyRegex ← settingsRegex ext pool.shardingKeyRegex
  let shardIdRegex ← settingsRegex ext pool.shardIdRegex
  pure {
    poolMode := user.poolMode.getD pool.poolMode
    loadBalancingMode := pool.loadBalancingMode
    shards := shards
    user := user
    defaultRole := defaultRole
    queryParserEnabled := pool.queryParserEnabled
    primaryReadsEnabled := pool.primaryReadsEnabled
    shardingFunction := pool.shardingFunction
    automaticShardingKey := pool.automaticShardingKey
    healthcheckDelay := general.healthcheckDelay
    healthcheckTimeout := general.healthcheckTimeout
    banTime := general.banTime
    shardingKeyRegex := shardingKeyRegex
    shardIdRegex := shardIdRegex
    regexSearchLimit := pool.regexSearchLimit.getD 1000
    authQuery := pool.authQuery
    authQueryUser := pool.authQueryUser
    authQueryPassword := pool.authQueryPassword }

def Pool.connectTimeoutOf (pool : Pool) (general : General) : Nat :=
  pool.connectTimeout.getD general.connectTimeout

def Pool.idleTimeoutOf (pool : Pool) (general : General) : Nat :=
  pool.idleTimeout.getD general.idleTimeout

/-! ## The program -/

/-- The local variables of `from_config`. -/
structure Locals where
  addressId : Nat
  replicaNumber : Nat
  poolAuthHash : Option String
  newPools : PoolMap
  built : List ConnectionPool

def Locals.start : Locals := ⟨0, 0, none, fun _ => none, []⟩

abbrev Program := EStateM Panic Locals

def attempt {α : Type} : Except Panic α → Program α
  | .ok a => pure a
  | .error panic => throw panic

/-- One turn of the loop over the pools and their users. -/
structure Job where
  poolName : String
  pool : Pool
  user : User

/-- There is one pool per database/user pair. -/
def Job.identifier (job : Job) : PoolIdentifier :=
  ⟨job.poolName, job.user.username⟩

def nextAddressId : Program Nat := do
  let locals ← get
  modify fun l => { l with addressId := l.addressId + 1 }
  pure locals.addressId

section Loop

variable (ext : Externals) (general : General) (job : Job)

def newAddress (shardIdx : String) (shard : Shard) (host : String) (port : Nat) (role : Role)
    (addressIndex : Nat) (mirrors : List Address) : Program Address := do
  let number ← attempt (unwrap .shardNumber (parseUsize shardIdx.toList))
  let id ← nextAddressId
  let locals ← get
  pure {
    id := id
    host := host
    port := port
    shard := number
    database := shard.database
    role := role
    replicaNumber := locals.replicaNumber
    addressIndex := addressIndex
    username := job.user.username
    poolName := job.poolName
    mirrors := mirrors }

def mirrorAddresses (shardIdx : String) (shard : Shard) (server : ServerConfig) (addressIndex : Nat) :
    Program (List Address) :=
  let followers := (shard.mirrors.getD []).zipIdx.filter fun mirror =>
    mirror.1.mirroringTargetIndex = addressIndex
  followers.mapM fun mirror =>
    newAddress job shardIdx shard mirror.1.host mirror.1.port server.role mirror.2 []

/-- Servers of a pool share users and passwords: the last hash obtained counts. -/
def fetchAuthHash (address : Address) : Program Unit := do
  match ← attempt (AuthPassthrough.fromPoolConfig job.pool) with
  | none => pure ()
  | some apt =>
    match apt.fetchHash ext address with
    | .ok hash => modify fun l => { l with poolAuthHash := some hash }
    | .error _ => pure ()

def buildDatabase (shard : Shard) (address : Address) : Program Database :=
  let connectTimeout := job.pool.connectTimeoutOf general
  let idleTimeout := job.pool.idleTimeoutOf general
  if ext.builds job.user.poolSize connectTimeout idleTimeout = true then
    pure {
      address := address
      user := job.user
      database := shard.database
      maxSize := job.user.poolSize
      connectionTimeout := connectTimeout
      idleTimeout := idleTimeout }
  else throw .builder

/-- What is pushed to `pools` and to `servers` for one server of a shard. -/
def installServer (shardIdx : String) (shard : Shard) (server : ServerConfig) (addressIndex : Nat) :
    Program (Database × Address) := do
  let mirrors ← mirrorAddresses job shardIdx shard server addressIndex
  let address ← newAddress job shardIdx shard server.host server.port server.role addressIndex mirrors
  modify fun l =>
    { l with replicaNumber := l.replicaNumber + if server.role = .replica then 1 else 0 }
  fetchAuthHash ext job address
  let database ← buildDatabase ext general job shard address
  pure (database, address)

def installShard (shardIdx : String) : Program (List (Database × Address)) := do
  let shard ← attempt (unwrap .shardIndex (job.pool.shards.lookup shardIdx))
  modify fun l => { l with replicaNumber := 0 }
  shard.servers.zipIdx.mapM fun server =>
    installServer ext general job shardIdx shard server.1 server.2

def createPool : Program ConnectionPool := do
  let shardIds ← attempt (sortShardIds job.pool.shards.keys)
  modify fun l => { l with poolAuthHash := none }
  -- One turn pushes once to each of `shards`, `addresses` and `banlist`.
  let rows ← shardIds.mapM (installShard ext general job)
  let settings ← attempt (poolSettings ext general job.pool job.user shardIds.length)
  let locals ← get
  pure {
    databases := rows.map fun row => row.map Prod.fst
    addresses := rows.map fun row => row.map Prod.snd
    banlist := rows.map fun _ => []
    settings := settings
    serverInfo := []
    validated := false
    configHash := ext.hashValue job.pool
    paused := false
    authHash := locals.poolAuthHash }

def insertPool (pool : ConnectionPool) : Program Unit :=
  modify fun l => { l with newPools := Function.update l.newPools job.identifier (some pool) }

/-- The pool is taken over if there is one and its configuration has the same hash. -/
def keptPool (olds : PoolMap) : Option ConnectionPool :=
  (olds job.identifier).filter fun pool => pool.configHash = ext.hashValue job.pool

def installUser (olds : PoolMap) : Program Unit :=
  match keptPool ext job olds with
  | some pool => insertPool job pool
  | none => do
    let pool ← createPool ext general job
    modify fun l => { l with built := pool :: l.built }
    insertPool job pool

end Loop

/-- Construct the connection pools from the configuration; `olds` is `POOLS` before. -/
def fromConfig (ext : Externals) (olds : PoolMap) (config : Config) : Program Unit :=
  forM config.pools.entries fun e =>
    forM e.2.users.values fun user => installUser ext config.general ⟨e.1, e.2, user⟩ olds

/-- The turns of the two loops, one after the other. -/
def Config.jobs (config : Config) : List Job :=
  config.pools.entries.flatMap fun e => e.2.users.values.map fun user => ⟨e.1, e.2, user⟩

theorem fromConfig_eq_jobs (ext : Externals) (olds : PoolMap) (config : Config) :
    fromConfig ext olds config =
      forM config.jobs fun job => installUser ext config.general job olds := by
  unfold fromConfig Config.jobs
  induction config.pools.entries with
  | nil => rfl
  | cons e entries ih =>
    rw [List.forM_cons, ih, List.flatMap_cons, List.forM_append, List.forM_map]

end PgCat.Install
