import PgCat.Lib.Bytes

/-!
# Config — roles, pool modes and the settings the router reads

`PoolSettings` is what `ConnectionPool::from_config` copies out of a pool's configuration; the query
router and the client loop read it.  A user-supplied regular expression is kept as the function
`captures`: the text of its first group (if that group took part) when the expression matches.
-/

namespace PgCat.Config

inductive Role
  | primary
  | replica
  | mirror
  deriving DecidableEq, Repr

/-- `PartialEq<Option<Role>> for Role`: no requested role matches every role. -/
def Role.matches (r : Role) : Option Role → Bool
  | none => true
  | some r' => r == r'

inductive PoolMode
  | transaction
  | session
  deriving DecidableEq, Repr

inductive ShardingFunction
  | pgBigintHash
  | sha1
  deriving DecidableEq, Repr

/-- PostgreSQL user (the fields the client loop reads). -/
structure User where
  username : String
  statementTimeout : Nat
  deriving DecidableEq, Repr

namespace User

instance : Inhabited User :=
  ⟨{ username := "postgres", statementTimeout := 0 }⟩

end User

/-- A compiled regular expression: `captures text` is `none` when there is no match, and otherwise
the text of group 1. -/
structure Regex where
  captures : String → Option (Option String)

structure PoolSettings where
  poolMode : PoolMode
  shards : Nat
  user : User
  defaultRole : Option Role
  queryParserEnabled : Bool
  primaryReadsEnabled : Bool
  shardingFunction : ShardingFunction
  automaticShardingKey : Option String
  healthcheckDelay : Nat
  healthcheckTimeout : Nat
  shardingKeyRegex : Option Regex
  shardIdRegex : Option Regex
  regexSearchLimit : Nat

def PoolSettings.default : PoolSettings where
  poolMode := .transaction
  shards := 1
  user := Inhabited.default
  defaultRole := none
  queryParserEnabled := false
  primaryReadsEnabled := true
  shardingFunction := .pgBigintHash
  automaticShardingKey := none
  healthcheckDelay := 30000
  healthcheckTimeout := 1000
  shardingKeyRegex := none
  shardIdRegex := none
  regexSearchLimit := 1000

def splitKey (key : String) : List String :=
  (key.toList.splitOn '.').map String.ofList

/-- What `Pool::validate` and `from_config` leave in the settings: an automatic sharding key is fully
qualified, and there is a shard to route to. -/
structure PoolSettings.Validated (s : PoolSettings) : Prop where
  key : ∀ k, s.automaticShardingKey = some k → (splitKey k).length = 2
  shards : 0 < s.shards

theorem PoolSettings.default_validated : PoolSettings.default.Validated where
  key := by
    intro k hk
    cases hk
  shards := by decide

end PgCat.Config
