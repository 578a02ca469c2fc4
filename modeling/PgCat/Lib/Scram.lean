import Mathlib.Data.Vector.Defs
import PgCat.Lib.Base64

/-!
# Scram — salted challenge response authentication (RFC 5802)

The functions of the mechanism over an abstract keyed hash with digests of 32 bytes, and a server that
knows a secret.  Messages are texts; there is no channel binding and there are no extensions.
-/

namespace PgCat.Lib

/-! ## Digests -/

abbrev Digest := Vector UInt8 32

namespace Digest

def xor (a b : Digest) : Digest :=
  Vector.zipWith (fun x y => x ^^^ y) a b

theorem xor_xor_cancel (a b : Digest) : xor (xor a b) b = a := by
  ext i hi : 1
  simp only [xor, Vector.getElem_zipWith]
  rw [UInt8.xor_assoc, UInt8.xor_self, UInt8.xor_zero]

def zero : Digest := Vector.replicate 32 0

def ofBytes (bs : Bytes) : Option Digest :=
  if h : bs.toArray.size = 32 then some ⟨bs.toArray, h⟩ else none

theorem ofBytes_toList (d : Digest) : ofBytes d.toList = some d := by
  rcases d with ⟨a, ha⟩
  simp [ofBytes, ha]

end Digest

/-- A keyed hash, a hash and an encoding of bytes as text. -/
structure Crypto where
  hmac : Bytes → Bytes → Digest
  hash : Bytes → Digest
  base64 : Base64

namespace Scram

variable (k : Crypto)

/-! ## Keys and signatures -/

/-- `U1`, `U2`, …, counted from 0. -/
def iterated (str salt : Bytes) : Nat → Digest
  | 0 => k.hmac str (salt ++ [0, 0, 0, 1])
  | n + 1 => k.hmac str (iterated str salt n).toList

/-- `U1 XOR … XOR U(n + 1)`. -/
def iteratedXor (str salt : Bytes) : Nat → Digest
  | 0 => iterated k str salt 0
  | n + 1 => (iteratedXor str salt n).xor (iterated k str salt (n + 1))

/-- `Hi(str, salt, i)`, for `i` from 1 on. -/
def saltedPassword (str salt : Bytes) (i : Nat) : Digest :=
  iteratedXor k str salt (i - 1)

def clientKey (salted : Digest) : Digest :=
  k.hmac salted.toList (utf8 "Client Key")

def storedKey (salted : Digest) : Digest :=
  k.hash (clientKey k salted).toList

def serverKey (salted : Digest) : Digest :=
  k.hmac salted.toList (utf8 "Server Key")

def clientSignature (salted : Digest) (authMessage : String) : Digest :=
  k.hmac (storedKey k salted).toList (utf8 authMessage)

def clientProof (salted : Digest) (authMessage : String) : Digest :=
  (clientKey k salted).xor (clientSignature k salted authMessage)

def serverSignature (salted : Digest) (authMessage : String) : Digest :=
  k.hmac (serverKey k salted).toList (utf8 authMessage)

/-! ## Messages -/

/-- Attributes are separated by commas. -/
def join (attributes : List (List Char)) : List Char :=
  [','].intercalate attributes

theorem splitOn_join (attributes : List (List Char)) (h : ∀ a ∈ attributes, ',' ∉ a)
    (hsome : attributes ≠ []) : (join attributes).splitOn ',' = attributes :=
  List.splitOn_intercalate ',' h hsome

def authMessage (clientFirstBare serverFirst clientFinalWithoutProof : List Char) : String :=
  String.ofList (join [clientFirstBare, serverFirst, clientFinalWithoutProof])

/-- The channel binding of a client that does not support any. -/
def gs2Header : String := "n,,"

/-! ## A server -/

/-- The nonce of the client in its first message, and that message without its header. -/
def readFirst (clientFirst : List Char) : Option (List Char × List Char) :=
  match clientFirst.splitOn ',' with
  | [['n'], [], 'n' :: '=' :: user, 'r' :: '=' :: nonce] =>
    some (nonce, join ['n' :: '=' :: user, 'r' :: '=' :: nonce])
  | _ => none

/-- A server for one exchange: what it stores for the user, and its part of the nonce. -/
structure Server where
  /-- The normalised password. -/
  secret : Bytes
  salt : Bytes
  iterations : Nat
  nonce : List Char

namespace Server

variable (server : Server)

def salted : Digest :=
  saltedPassword k server.secret server.salt server.iterations

def first (clientNonce : List Char) : List Char :=
  join ['r' :: '=' :: clientNonce ++ server.nonce, 's' :: '=' :: k.base64.encode server.salt,
    'i' :: '=' :: Nat.toDigits 10 server.iterations]

/-- Check the client's final message; the answer is the server's final message. -/
def final (clientNonce clientFirstBare clientFinal : List Char) : Option (List Char) :=
  match clientFinal.splitOn ',' with
  | ['c' :: '=' :: binding, 'r' :: '=' :: nonce, 'p' :: '=' :: proof] => do
    let auth := authMessage clientFirstBare (server.first k clientNonce)
      (join ['c' :: '=' :: binding, 'r' :: '=' :: nonce])
    let bytes ← k.base64.decode proof
    let proof ← Digest.ofBytes bytes
    let salted := server.salted k
    if binding = k.base64.encode (utf8 gs2Header) ∧ nonce = clientNonce ++ server.nonce ∧
        k.hash (proof.xor (clientSignature k salted auth)).toList = storedKey k salted then
      some ('v' :: '=' :: k.base64.encode (serverSignature k salted auth).toList)
    else none
  | _ => none

theorem final_of_proof {clientNonce clientFirstBare binding : List Char} {auth : String}
    (hbinding : binding = k.base64.encode (utf8 gs2Header)) (hcomma : ',' ∉ clientNonce ++ server.nonce)
    (hauth : auth = authMessage clientFirstBare (server.first k clientNonce)
      (join ['c' :: '=' :: binding, 'r' :: '=' :: clientNonce ++ server.nonce])) :
    server.final k clientNonce clientFirstBare
        (join ['c' :: '=' :: binding, 'r' :: '=' :: clientNonce ++ server.nonce,
          'p' :: '=' :: k.base64.encode (clientProof k (server.salted k) auth).toList]) =
      some ('v' :: '=' :: k.base64.encode (serverSignature k (server.salted k) auth).toList) := by
  have hcbind := k.base64.comma_free (utf8 gs2Header)
  have hproof := k.base64.comma_free (clientProof k (server.salted k) auth).toList
  have hcommas : ∀ a ∈ ['c' :: '=' :: binding, 'r' :: '=' :: clientNonce ++ server.nonce,
      'p' :: '=' :: k.base64.encode (clientProof k (server.salted k) auth).toList], ',' ∉ a := by
    rw [hbinding]
    simpa using ⟨hcbind, by simpa using hcomma, hproof⟩
  -- Taking the signature off the proof leaves the client's key.
  have hkey : (clientProof k (server.salted k) auth).xor (clientSignature k (server.salted k) auth) =
      clientKey k (server.salted k) := Digest.xor_xor_cancel _ _
  unfold final
  rw [splitOn_join _ hcommas (by simp)]
  simp only [List.cons_append, k.base64.decode_encode, Digest.ofBytes_toList, Option.bind_eq_bind,
    Option.bind_some]
  rw [← List.cons_append, ← List.cons_append, ← hauth, hkey, if_pos ⟨hbinding, trivial, rfl⟩]

theorem final_of_nonce_ne {clientNonce clientFirstBare binding nonce proof : List Char}
    (hne : nonce ≠ clientNonce ++ server.nonce)
    (hcommas : ∀ a ∈ ['c' :: '=' :: binding, 'r' :: '=' :: nonce, 'p' :: '=' :: proof], ',' ∉ a) :
    server.final k clientNonce clientFirstBare
      (join ['c' :: '=' :: binding, 'r' :: '=' :: nonce, 'p' :: '=' :: proof]) = none := by
  unfold final
  rw [splitOn_join _ hcommas (by simp)]
  simp [hne]

end Server
end Scram

end PgCat.Lib
