import PgCat.Protocol.Message
import PgCat.Router.Ast
import PgCat.Sharding

/-!
# QueryRouter — role and shard inference from the text of a query

The router keeps the active shard and role, two per-client overrides and a copy of the pool settings.
`infer` parses a `Q` or `P` message and sets the role, and with an automatic sharding key the shard.
Every function that can panic returns `Option`: `none` is the panic.

`Externals` are the third-party functions: the SQL parser (`none` is a parse error) and the SHA-1
digest.
-/

namespace PgCat.Router

open Lib Protocol Config Sharding

/-- Code outside the repository that the router calls. -/
structure Externals where
  parseSql : String → Option (List Statement)
  sha1Digest : String → BitVec 160
  /-- Does the build check for overflow? -/
  checks : Bool

structure QueryRouter where
  activeShard : Option Nat
  activeRole : Option Role
  queryParserOverride : Option Bool
  primaryReadsOverride : Option Bool
  poolSettings : PoolSettings
  placeholders : List Int

inductive ShardingKey
  | value (v : Int)
  | placeholder (position : Int)
  deriving DecidableEq, Repr

namespace QueryRouter

/-- Create a new instance of the query router.  Each client gets its own. -/
def new : QueryRouter where
  activeShard := none
  activeRole := none
  queryParserOverride := none
  primaryReadsOverride := none
  poolSettings := .default
  placeholders := []

def updatePoolSettings (r : QueryRouter) (settings : PoolSettings) : QueryRouter :=
  { r with poolSettings := settings }

def role (r : QueryRouter) : Option Role := r.activeRole

def shard (r : QueryRouter) : Nat := r.activeShard.getD 0

def setShard (r : QueryRouter) (shard : Nat) : QueryRouter :=
  { r with activeShard := some shard }

def queryParserEnabled (r : QueryRouter) : Bool :=
  r.queryParserOverride.getD r.poolSettings.queryParserEnabled

def primaryReadsEnabled (r : QueryRouter) : Bool :=
  r.primaryReadsOverride.getD r.poolSettings.primaryReadsEnabled

def sharder (r : QueryRouter) : Sharder :=
  ⟨r.poolSettings.shards, r.poolSettings.shardingFunction⟩

/-! ## Sharding keys of a `WHERE` clause -/

/-- Does an unqualified column name the sharding key `table.column`? -/
def identFound (keyTable keyColumn : String) (tableNames : List (List Ident)) (ident : Ident) : Bool :=
  if ident.value = keyColumn then
    if keyTable = "*" then true
    else
      match tableNames with
      | [[t]] => keyTable == t.value
      -- Fully qualified with the schema, which is ignored.
      | [[_, t]] => keyTable == t.value
      | _ => false
  else
    false

def compoundFound (keyTable keyColumn : String) : List Ident → Bool
  | [t, c] => keyTable == t.value && keyColumn == c.value
  | _ => false

/-- `placeholder.replace("$", "")`. -/
def stripDollar (text : String) : List Char :=
  text.toList.filter (· ≠ '$')

/-- The keys a comparison with the right-hand side `v` contributes. -/
def valueKeys (found : Bool) : Value → List ShardingKey
  | .number text =>
    if found then
      match parseI64 text.toList with
      | some v => [.value v]
      | none => []
    else
      []
  | .placeholder text =>
    match parseI16 (stripDollar text) with
    | some n => [.placeholder n]
    | none => []
  | .other => []

/-- `selection_parser` below the split of the key: only `AND`, `OR` and `=` are followed, and an
operand that is itself an operation is searched in turn. -/
def selectionKeys (keyTable keyColumn : String) (tableNames : List (List Ident)) :
    Expr → List ShardingKey
  | .binaryOp left op right =>
    let leftKeys := match left with
      | .binaryOp .. => selectionKeys keyTable keyColumn tableNames left
      | _ => []
    let found := match left with
      | .identifier ident => identFound keyTable keyColumn tableNames ident
      | .compoundIdentifier idents => compoundFound keyTable keyColumn idents
      | _ => false
    match op with
    | .eq | .or | .and =>
      leftKeys ++
        match right with
        | .binaryOp .. => selectionKeys keyTable keyColumn tableNames right
        | .value v => valueKeys found v
        | _ => []
    | _ => []
  | _ => []

/-- `selection_parser`: the sharding key of the settings must be there and fully qualified. -/
def selectionParser (r : QueryRouter) (expr : Expr) (tableNames : List (List Ident)) :
    Option (List ShardingKey) :=
  match r.poolSettings.automaticShardingKey with
  | none => none
  | some key =>
    match splitKey key with
    | [keyTable, keyColumn] => some (selectionKeys keyTable keyColumn tableNames expr)
    | _ => none

/-! ## Shard of a query -/

def factorName : TableFactor → List (List Ident)
  | .table name => [name]
  | _ => []

def joinNames : List Join → List (List Ident)
  | [] => []
  | .mk relation _ :: js => factorName relation ++ joinNames js

def joinExprs : List Join → List Expr
  | [] => []
  | .mk _ (.inner (.on e)) :: js => e :: joinExprs js
  | _ :: js => joinExprs js

def tableNames : List TableWithJoins → List (List Ident)
  | [] => []
  | .mk relation joins :: ts => factorName relation ++ joinNames joins ++ tableNames ts

def tableExprs : List TableWithJoins → List Expr
  | [] => []
  | .mk _ joins :: ts => joinExprs joins ++ tableExprs ts

/-- One sharding key found: hash a value, remember a placeholder. -/
def recordKey (ext : Externals) (acc : QueryRouter × List Nat) (key : ShardingKey) :
    Option (QueryRouter × List Nat) :=
  match key with
  | .value v => do
    let s ← acc.1.sharder.shard ext.sha1Digest v
    pure (acc.1, acc.2.insert s)
  | .placeholder position =>
    pure ({ acc.1 with placeholders := acc.1.placeholders ++ [position] }, acc.2)

def recordExpr (ext : Externals) (names : List (List Ident)) (acc : QueryRouter × List Nat)
    (expr : Expr) : Option (QueryRouter × List Nat) := do
  let keys ← acc.1.selectionParser expr names
  keys.foldlM (recordKey ext) acc

/-- The only shard of a set, if there is exactly one. -/
def onlyShard : List Nat → Option Nat
  | [s] => some s
  | _ => none

mutual

/-- Try to figure out which shard the query should go to. -/
def inferShard (ext : Externals) (r : QueryRouter) : Query → Option (QueryRouter × Option Nat)
  | .mk _ body _ => do
    let (r, shards) ← bodyShards ext r body
    pure (r, onlyShard shards)

def bodyShards (ext : Externals) (r : QueryRouter) : SetExpr → Option (QueryRouter × List Nat)
  | .query q => do
    let (r, shard) ← inferShard ext r q
    pure (r, shard.toList)
  | .select (.mk tables selection) =>
    (tableExprs tables ++ selection.toList).foldlM (recordExpr ext (tableNames tables)) (r, [])
  | _ => pure (r, [])

end

/-! ## Role of a message -/

/-- Role for a read: any server when the primary serves reads, otherwise a replica. -/
def readRole (r : QueryRouter) : Option Role :=
  if r.primaryReadsEnabled then none else some .replica

def selectShard (ext : Externals) (r : QueryRouter) (q : Query) : Option QueryRouter :=
  match r.poolSettings.automaticShardingKey with
  | some _ =>
    (inferShard ext r q).map fun (r, shard) =>
      match shard with
      | some s => r.setShard s
      | none => r
  | none => some r

/-- The `Query` arm of the loop of `infer`. -/
def inferQuery (ext : Externals) (r : QueryRouter) (q : Query) : Option QueryRouter :=
  (selectShard ext r q).map fun r => { r with activeRole := r.readRole }

/-- The loop of `infer` over the parsed statements; it stops at the first that is not a query. -/
def inferStatements (ext : Externals) (r : QueryRouter) : List Statement → Option QueryRouter
  | [] => some r
  | .query q :: rest => do
    let r ← inferQuery ext r q
    inferStatements ext r rest
  -- Transactions and everything that is not a query go to the primary.
  | _ :: _ => some { r with activeRole := some .primary }

/-- The SQL text of a `Q` or `P` message; `none` is a panic, `some none` any other message. -/
def sqlText (message : Bytes) : Option (Option String) := do
  let (code, bs) ← getU8 message
  let (_, bs) ← getI32 bs
  match Char.ofUInt8 code with
  | 'Q' => do
    let (query, _) ← readString bs
    pure (some query)
  | 'P' => do
    let (_, bs) ← readString bs
    let (query, _) ← readString bs
    pure (some query)
  | _ => pure none

/-- Try to infer which server to connect to based on the contents of the query. -/
def infer (ext : Externals) (r : QueryRouter) (message : Bytes) : Option (QueryRouter × Bool) := do
  match ← sqlText message with
  | none => pure (r, false)
  | some query =>
    match ext.parseSql query with
    -- A parse error or no statement at all: to the primary.
    | none => pure ({ r with activeRole := some .primary }, false)
    | some [] => pure ({ r with activeRole := some .primary }, false)
    | some ast => do
      let r ← inferStatements ext r ast
      pure (r, true)

def setShardingKey (ext : Externals) (r : QueryRouter) (key : Int) :
    Option (QueryRouter × Nat) := do
  let s ← r.sharder.shard ext.sha1Digest key
  pure (r.setShard s, s)

end QueryRouter

end PgCat.Router
