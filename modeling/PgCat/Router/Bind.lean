import PgCat.Router.QueryRouter

/-!
# Bind — the shard of a `Bind` message

`infer_shard_from_bind` reads the parameters of an anonymous prepared statement and hashes those whose
positions were recorded as placeholders of the sharding key.  A parameter that is not a recorded
placeholder is not skipped over: the cursor stays behind its length word.
-/

namespace PgCat.Router

open Lib Protocol

inductive ParameterFormat
  | text
  | binary
  deriving DecidableEq, Repr

/-- Formats of all parameters: one for all of them, or one each. -/
inductive ParameterFormats
  | uniform (f : ParameterFormat)
  | specified (fs : List ParameterFormat)
  deriving DecidableEq, Repr

namespace ParameterFormats

/-- Format of parameter `i`; a missing entry is an index panic. -/
def get (i : Nat) : ParameterFormats → Option ParameterFormat
  | .uniform f => some f
  | .specified fs => fs[i]?

end ParameterFormats

/-- Format codes other than `0` and `1` are `unreachable!()`. -/
def readFormat : Cursor ParameterFormat := fun bs => do
  let (code, bs) ← getI16 bs
  if code = 0 then pure (.text, bs)
  else if code = 1 then pure (.binary, bs)
  else none

def readFormatList : Nat → Cursor (List ParameterFormat)
  | 0, bs => some ([], bs)
  | n + 1, bs => do
    let (f, bs) ← readFormat bs
    let (fs, bs) ← readFormatList n bs
    pure (f :: fs, bs)

def readFormats : Cursor ParameterFormats := fun bs => do
  let (n, bs) ← getI16 bs
  if n = 0 then pure (.uniform .text, bs)
  else if n = 1 then do
    let (f, bs) ← readFormat bs
    pure (.uniform f, bs)
  -- `Vec::with_capacity(n as usize)` panics on a negative count.
  else if n < 0 then none
  else do
    let (fs, bs) ← readFormatList n.toNat bs
    pure (.specified fs, bs)

/-- The value of a recorded placeholder: the bytes of a text parameter as Latin-1, or a binary integer
of two, four or eight bytes. -/
def readValue (len : Nat) : ParameterFormat → Cursor (Option Int)
  | .text, bs =>
    if len ≤ bs.length then
      some (parseI64 ((bs.take len).map Char.ofUInt8), bs.drop len)
    else
      none
  | .binary, bs =>
    if len = 2 then (getI16 bs).map fun (v, bs) => (some v, bs)
    else if len = 4 then (getI32 bs).map fun (v, bs) => (some v, bs)
    else if len = 8 then (getI64 bs).map fun (v, bs) => (some v, bs)
    else some (none, bs)

namespace QueryRouter

/-- The loop over the parameters from position `i` on, collecting shards. -/
def bindShards (ext : Externals) (r : QueryRouter) (formats : ParameterFormats) :
    Nat → Nat → List Nat → Cursor (List Nat)
  | 0, _, shards, bs => some (shards, bs)
  | n + 1, i, shards, bs => do
    let (len, bs) ← getI32 bs
    let format ← formats.get i
    if ((i : Int) + 1) ∈ r.placeholders then do
      let (value, bs) ← readValue (asUsize len) format bs
      match value with
      | some v => do
        let s ← r.sharder.shard ext.sha1Digest v
        bindShards ext r formats n (i + 1) (shards.insert s) bs
      | none => bindShards ext r formats n (i + 1) shards bs
    else
      bindShards ext r formats n (i + 1) shards bs

/-- Parse the shard number from the Bind message which contains the arguments for a prepared
statement. -/
def inferShardFromBind (ext : Externals) (r : QueryRouter) (message : Bytes) :
    Option (QueryRouter × Bool) := do
  let (code, bs) ← getU8 message
  let (len, bs) ← getI32 bs
  if Char.ofUInt8 code ≠ 'B' then pure (r, false)
  else if message.length ≠ (asUsize len + 1) % 2 ^ 64 then pure (r, false)
  else if r.placeholders = [] then pure (r, false)
  else do
    let (_portal, bs) ← readString bs
    let (_name, bs) ← readString bs
    let (formats, bs) ← readFormats bs
    let (count, bs) ← getI16 bs
    let (shards, _) ← bindShards ext r formats count.toNat 0 [] bs
    let r := { r with placeholders := [] }
    match onlyShard shards with
    | some s => pure (r.setShard s, true)
    | none => pure (r, false)

end QueryRouter

end PgCat.Router
