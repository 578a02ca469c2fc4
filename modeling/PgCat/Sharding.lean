import PgCat.Config

/-!
# Sharding — from a sharding key to a shard number

The hash follows Postgres' `PARTITION BY HASH` on one `bigint`; 32-bit words wrap.  SHA-1 itself is a
third-party function, so the digest is a parameter; `shard` reads its last 32 bits.
-/

namespace PgCat.Sharding

open Config

structure Sharder where
  shards : Nat
  shardingFunction : ShardingFunction

def partitionHashSeed : BitVec 64 := 0x7A5B22367996DCFD#64

def rot (x : BitVec 32) (k : Nat) : BitVec 32 :=
  (x <<< k) ||| (x >>> (32 - k))

def mix (a b c : BitVec 32) : BitVec 32 × BitVec 32 × BitVec 32 :=
  let a := (a - c) ^^^ rot c 4
  let c := c + b
  let b := (b - a) ^^^ rot a 6
  let a := a + c
  let c := (c - b) ^^^ rot b 8
  let b := b + a
  let a := (a - c) ^^^ rot c 16
  let c := c + b
  let b := (b - a) ^^^ rot a 19
  let a := a + c
  let c := (c - b) ^^^ rot b 4
  let b := b + a
  (a, b, c)

def final (a b c : BitVec 32) : BitVec 32 × BitVec 32 × BitVec 32 :=
  let c := (c ^^^ b) - rot b 14
  let a := (a ^^^ c) - rot c 11
  let b := (b ^^^ a) - rot a 25
  let c := (c ^^^ b) - rot b 16
  let a := (a ^^^ c) - rot c 4
  let b := (b ^^^ a) - rot a 14
  let c := (c ^^^ b) - rot b 24
  (a, b, c)

def combine (a b : BitVec 64) : BitVec 64 :=
  a ^^^ (b + 0x49a0f4dd15e5a8e3#64 + (a <<< 54) + (a >>> 7))

def pgU32Hash (k : BitVec 32) : BitVec 64 :=
  let a0 : BitVec 32 := 0x9e3779b9#32 + 4#32 + 3923095#32
  let a := a0 + (partitionHashSeed >>> 32).truncate 32
  let b := a0 + partitionHashSeed.truncate 32
  let (a, b, c) := mix a b a0
  let (_, b, c) := final (a + k) b c
  (b.zeroExtend 64 <<< 32) ||| c.zeroExtend 64

namespace Sharder

variable (sha1Digest : String → BitVec 160)

/-- The value `pg_bigint_hash` reduces modulo the number of shards. -/
def pgBigintHash (key : Int) : Nat :=
  let word := BitVec.ofInt 64 key
  let lohalf := word.truncate 32
  let hihalf := (word >>> 32).truncate 32
  let half := lohalf ^^^ (if 0 ≤ key then hihalf else ~~~hihalf)
  (combine 0 (pgU32Hash half)).toNat

/-- Keys of 32 bits are hashed as Postgres hashes an `int4`: either type of a column leads to the same shard. -/
theorem pgBigintHash_toInt (k : BitVec 32) : pgBigintHash k.toInt = (combine 0 (pgU32Hash k)).toNat := by
  have hhalf : (BitVec.ofInt 64 k.toInt).truncate 32 ^^^ (if 0 ≤ k.toInt then
      (BitVec.ofInt 64 k.toInt >>> 32).truncate 32 else ~~~(BitVec.ofInt 64 k.toInt >>> 32).truncate 32) = k := by
    have hword : BitVec.ofInt 64 k.toInt = k.signExtend 64 := rfl
    rw [hword]
    ext i hi
    have hlow : i < 64 := by omega
    have hhigh : 32 + i < 64 := by omega
    -- The upper half repeats the sign, and is inverted if that is set.
    by_cases hk : 0 ≤ k.toInt
    · have hsign : k.msb = false := by simp [BitVec.msb_eq_toInt, hk]
      simp [hk, hi, hlow, BitVec.getLsbD_signExtend, BitVec.getElem_signExtend, hsign]
    · have hsign : k.msb = true := by simpa [BitVec.msb_eq_toInt] using hk
      simp [hk, hi, hlow, hhigh, BitVec.getElem_signExtend, hsign]
  rw [pgBigintHash, hhalf]

/-- The last eight hex digits of the digest of the key's decimal text. -/
def sha1 (key : Int) : Nat :=
  (sha1Digest (toString key)).toNat % 2 ^ 32

/-- Compute the shard given sharding key; no shards makes the remainder panic. -/
def shard (s : Sharder) (key : Int) : Option Nat :=
  let hash := match s.shardingFunction with
    | .pgBigintHash => pgBigintHash key
    | .sha1 => sha1 sha1Digest key
  if s.shards = 0 then none else some (hash % s.shards)

theorem shard_lt {s : Sharder} {key : Int} {n : Nat} (h : s.shard sha1Digest key = some n) :
    n < s.shards := by
  unfold shard at h
  by_cases hs : s.shards = 0
  · simp [hs] at h
  · have hpos : 0 < s.shards := Nat.pos_of_ne_zero hs
    simp only [hs, if_false, Option.some.injEq] at h
    subst h
    exact Nat.mod_lt _ hpos

theorem shard_isSome {s : Sharder} (hs : 0 < s.shards) (key : Int) :
    ∃ n, s.shard sha1Digest key = some n := by
  have hne : s.shards ≠ 0 := Nat.pos_iff_ne_zero.mp hs
  simp [shard, hne]

-- The values `test_pg_bigint_hash` takes from Postgres.
example : [1, 2, 6, 8, 9].map (fun k => shard (fun _ => 0) ⟨5, .pgBigintHash⟩ k) =
    [some 0, some 1, some 2, some 3, some 4] := by decide

end Sharder

end PgCat.Sharding
