import PgCat.Lib.Regex
import PgCat.Lib.Socket
import PgCat.Router.QueryRouter

/-!
# Command — the custom SQL commands of the router

`CUSTOM_SQL_REGEXES` as expressions, and `try_execute_command`: shard comments first, then the seven
commands.  `none` is a panic, and `some (r, none)` a message that is no command.
-/

namespace PgCat.Router

open Lib Protocol Config

inductive Command
  | setShardingKey
  | setShard
  | showShard
  | setServerRole
  | showServerRole
  | setPrimaryReads
  | showPrimaryReads
  deriving DecidableEq, Repr

namespace Command

/-- In the order of `CUSTOM_SQL_REGEXES`. -/
def all : List Command :=
  [.setShardingKey, .setShard, .showShard, .setServerRole, .showServerRole, .setPrimaryReads,
    .showPrimaryReads]

def isSet : Command → Bool
  | .setShardingKey | .setShard | .setServerRole | .setPrimaryReads => true
  | _ => false

def words : Command → String
  | .setShardingKey => "SET SHARDING KEY TO "
  | .setShard => "SET SHARD TO "
  | .showShard => "SHOW SHARD"
  | .setServerRole => "SET SERVER ROLE TO "
  | .showServerRole => "SHOW SERVER ROLE"
  | .setPrimaryReads => "SET PRIMARY READS TO "
  | .showPrimaryReads => "SHOW PRIMARY READS"

def digits : Re := .plus (.char Char.isDigit)

def group : Command → Re
  | .setShardingKey => digits
  | .setShard => .alt digits (.word "ANY")
  | .setServerRole => .anyOf ["PRIMARY", "REPLICA", "ANY", "AUTO", "DEFAULT"]
  | .setPrimaryReads => .anyOf ["on", "off", "default"]
  | _ => .eps

/-- The quote around the value: optional, except that a server role must be quoted. -/
def quote : Command → Re
  | .setServerRole => .char (· == '\'')
  | .showShard | .showServerRole | .showPrimaryReads => .eps
  | _ => .opt (.char (· == '\''))

def before (c : Command) : Re :=
  .seq .spaces (.seq (.word c.words) c.quote)

def after (c : Command) : Re :=
  .seq c.quote (.seq .spaces (.seq (.opt (.char (· == ';'))) .spaces))

/-- Does the text match the regular expression of the command? -/
def accepts (c : Command) (text : String) : Bool :=
  (Re.seq c.before (.seq c.group c.after)).accepts text.toList

/-- First capture of the regular expression of the command. -/
def capture (c : Command) (text : String) : Option String :=
  (Re.capture c.before c.group c.after text.toList).map String.ofList

end Command

def roleText : Role → String
  | .primary => "primary"
  | .replica => "replica"
  | .mirror => "mirror"

namespace QueryRouter

/-- `captures(segment)` and then a parse of group 1. -/
def commentValue {α : Type} (regex : Option Regex) (parse : List Char → Option α)
    (segment : String) : Option α := do
  let group ← (← regex).captures segment
  parse (← group).toList

/-- The prefix of the message that is searched for a shard comment.  The subtraction panics or wraps; a prefix
longer than the message is a slice panic. -/
def initialSegment (r : QueryRouter) (checks : Bool) (message : Bytes) (len : Int) : Option String := do
  let text ← subUsize checks (asUsize len) 5
  let seg := min text r.poolSettings.regexSearchLimit
  if seg ≤ message.length then some (fromUtf8Lossy (message.take seg)) else none

def shardComment (ext : Externals) (r : QueryRouter) (segment : String) : Option (Option QueryRouter) :=
  match commentValue r.poolSettings.shardIdRegex parseUsize segment with
  | some shardId => some (some (r.setShard shardId))
  | none =>
    match commentValue r.poolSettings.shardingKeyRegex parseI64 segment with
    | some key => (r.setShardingKey ext key).map fun p => some p.1
    | none => some none

/-- `SET SERVER ROLE TO value`. -/
def setServerRole (r : QueryRouter) (value : String) : Option QueryRouter :=
  match String.ofList (value.toList.map Char.toLower) with
  | "primary" => some { r with queryParserOverride := some false, activeRole := some .primary }
  | "replica" => some { r with queryParserOverride := some false, activeRole := some .replica }
  | "any" => some { r with queryParserOverride := some false, activeRole := none }
  | "auto" => some { r with queryParserOverride := some true, activeRole := none }
  | "default" =>
    some { r with queryParserOverride := none, activeRole := r.poolSettings.defaultRole }
  | _ => none

/-- `SET SHARD TO value`; `rand` is the random number drawn for `ANY`. -/
def setShardCommand (r : QueryRouter) (rand : Nat) (value : String) : Option QueryRouter :=
  if String.ofList (value.toList.map Char.toUpper) = "ANY" then
    if r.poolSettings.shards = 0 then none
    else some { r with activeShard := some (rand % r.poolSettings.shards) }
  else
    (parseUsize value.toList).map fun n => { r with activeShard := some n }

/-- `SET PRIMARY READS TO value`, compared with the case the client wrote. -/
def setPrimaryReads (r : QueryRouter) (value : String) : QueryRouter :=
  if value = "on" then { r with primaryReadsOverride := some true }
  else if value = "off" then { r with primaryReadsOverride := some false }
  else if value = "default" then { r with primaryReadsOverride := none }
  else r

def showServerRole (r : QueryRouter) : String :=
  match r.activeRole with
  | some role => roleText role
  | none => if r.queryParserEnabled then "auto" else "any"

def execute (ext : Externals) (r : QueryRouter) (rand : Nat) (command : Command) (value : String) :
    Option (QueryRouter × String) :=
  match command with
  | .setShardingKey => do
    let key ← parseI64 value.toList
    let (r, s) ← r.setShardingKey ext key
    pure (r, toString s)
  | .setShard => (r.setShardCommand rand value).map fun r => (r, value)
  | .setServerRole => (r.setServerRole value).map fun r => (r, value)
  | .setPrimaryReads => some (r.setPrimaryReads value, value)
  | .showShard => some (r, toString r.shard)
  | .showServerRole => some (r, r.showServerRole)
  | .showPrimaryReads => some (r, if r.primaryReadsEnabled then "on" else "off")

def customCommand (ext : Externals) (r : QueryRouter) (rand : Nat) (query : String) :
    Option (QueryRouter × Option (Command × String)) :=
  match Command.all.filter (·.accepts query) with
  | [command] =>
    match if command.isSet then command.capture query else some "" with
    | some value => (r.execute ext rand command value).map fun p => (p.1, some (command, p.2))
    | none => some (r, none)
  | _ => some (r, none)

def searched (r : QueryRouter) (code : UInt8) : Prop :=
  (Char.ofUInt8 code = 'P' ∨ Char.ofUInt8 code = 'Q') ∧
    (r.poolSettings.shardIdRegex.isSome ∨ r.poolSettings.shardingKeyRegex.isSome)

instance (r : QueryRouter) (code : UInt8) : Decidable (r.searched code) :=
  inferInstanceAs (Decidable (_ ∧ _))

/-- The router a shard comment leads to, if there is one.  Reading the length for the search moves the
cursor the command text is read from. -/
def searchComment (ext : Externals) (r : QueryRouter) (message : Bytes) (code : UInt8) (bs : Bytes) :
    Option (Option QueryRouter × Bytes) :=
  if r.searched code then do
    let (len, bs) ← getI32 bs
    let segment ← r.initialSegment ext.checks message len
    let commented ← r.shardComment ext segment
    pure (commented, bs)
  else
    some (none, bs)

/-- Only simple queries can be commands. -/
def queryCommand (ext : Externals) (r : QueryRouter) (rand : Nat) (code : UInt8) (bs : Bytes) :
    Option (QueryRouter × Option (Command × String)) :=
  if Char.ofUInt8 code ≠ 'Q' then some (r, none)
  else do
    let (_, bs) ← getI32 bs
    let (query, _) ← readString bs
    r.customCommand ext rand query

def tryExecuteCommand (ext : Externals) (r : QueryRouter) (rand : Nat) (message : Bytes) :
    Option (QueryRouter × Option (Command × String)) := do
  let (code, bs) ← getU8 message
  let (commented, bs) ← r.searchComment ext message code bs
  match commented with
  | some r => pure (r, none)
  | none => r.queryCommand ext rand code bs

end QueryRouter

end PgCat.Router
