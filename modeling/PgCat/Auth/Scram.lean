import PgCat.Auth.Wire
import PgCat.Lib.Scram
import PgCat.Lib.Text

/-!
# Scram — the client side of SCRAM-SHA-256

`scram.rs`: the state that is kept through the exchange, and the functions that answer the two
messages of the server.  The keyed hash, the hash and base64 are those of `Crypto`; `saslprep` is the
one of the `stringprep` library.
-/

namespace PgCat.Auth

open Lib

structure Externals where
  crypto : Crypto
  saslprep : String → Option String

/-- `std::str::from_utf8`. -/
def fromUtf8 (bs : Bytes) : Option String :=
  if utf8 (fromUtf8Lossy bs) = bs then some (fromUtf8Lossy bs) else none

/-- Normalize a password; it does not have to be UTF-8. -/
def normalize (ext : Externals) (pass : Bytes) : Bytes :=
  match fromUtf8 pass with
  | none => pass
  | some text =>
    match ext.saslprep text with
    | some prepared => utf8 prepared
    | none => utf8 text

/-! ## The server's messages -/

/-- The server challenge. -/
structure Message where
  nonce : String
  salt : String
  iterations : Nat
  deriving DecidableEq, Repr

def parseU32 (cs : List Char) : Option Nat :=
  parseUnsigned (2 ^ 32 - 1) cs

def Message.parse (message : Bytes) : Except Error Message :=
  match ((fromUtf8Lossy message).toList.splitOn ',').map String.ofList with
  | [first, second, third] =>
    let nonce := replaceText "r=" "" first
    let salt := replaceText "s=" "" second
    match parseU32 (replaceText "i=" "" third).toList with
    | some iterations => .ok ⟨nonce, salt, iterations⟩
    | none => .error (.protocolSyncError "SCRAM")
  | _ => .error (.protocolSyncError "SCRAM")

structure FinalMessage where
  value : String
  deriving DecidableEq, Repr

def FinalMessage.parse (message : Bytes) : Except Error FinalMessage :=
  if ¬ utf8 "v=" <+: message ∨ message.length < 4 then .error (.protocolSyncError "SCRAM")
  else .ok ⟨fromUtf8Lossy (message.drop 2)⟩

/-! ## The exchange -/

/-- The SASL state through the exchange. -/
structure ScramSha256 where
  password : String
  saltedPassword : Digest
  authMessage : String
  message : Bytes
  nonce : String

namespace ScramSha256

def fromNonce (password nonce : String) : ScramSha256 where
  password := password
  saltedPassword := .zero
  authMessage := ""
  message := utf8 ("n,,n=,r=" ++ nonce)
  nonce := nonce

/-- What is left of the loop over the iterations. -/
def hiLoop (k : Crypto) (str : Bytes) : Nat → Digest → Digest → Digest
  | 0, _, hi => hi
  | n + 1, prev, hi =>
    let prev := k.hmac str prev.toList
    hiLoop k str n prev (hi.xor prev)

/-- Hash the password with the salt `i` times. -/
def hi (k : Crypto) (str salt : Bytes) (i : Nat) : Digest :=
  let prev := k.hmac str (salt ++ [0, 0, 0, 1])
  hiLoop k str (i - 1) prev prev

/-- The reply to a challenge, with what is saved for the verification of the final message. -/
def answer (ext : Externals) (scram : ScramSha256) (message : Bytes) (nonce : String)
    (saltedPassword : Digest) : Bytes × ScramSha256 :=
  let k := ext.crypto
  let clientKey := k.hmac saltedPassword.toList (utf8 "Client Key")
  let storedKey := k.hash clientKey.toList
  let cbindInput := String.ofList (k.base64.encode (utf8 "n,,"))
  -- Start writing the client reply.
  let reply := utf8 ("c=" ++ cbindInput ++ ",r=" ++ nonce)
  let authMessage := "n=,r=" ++ scram.nonce ++ "," ++ fromUtf8Lossy message ++ "," ++
    fromUtf8Lossy reply
  let clientSignature := k.hmac storedKey.toList (utf8 authMessage)
  -- Sign the client proof.
  let clientProof := clientKey.xor clientSignature
  let reply := reply ++ utf8 (",p=" ++ String.ofList (k.base64.encode clientProof.toList))
  (reply, { scram with saltedPassword := saltedPassword, authMessage := authMessage, message := reply })

/-- Answer the server's first message.  All failures come before the state is changed. -/
def update (ext : Externals) (scram : ScramSha256) (message : Bytes) : Except Error (Bytes × ScramSha256) :=
  match Message.parse message with
  | .error err => .error err
  | .ok serverMessage =>
    if ¬ scram.nonce.toList <+: serverMessage.nonce.toList then .error (.protocolSyncError "SCRAM")
    else
      match ext.crypto.base64.decode serverMessage.salt.toList with
      | none => .error (.protocolSyncError "SCRAM")
      | some salt =>
        let saltedPassword :=
          hi ext.crypto (normalize ext (utf8 scram.password)) salt serverMessage.iterations
        .ok (scram.answer ext message serverMessage.nonce saltedPassword)

def finish (ext : Externals) (scram : ScramSha256) (message : Bytes) : Except Error Unit :=
  match FinalMessage.parse message with
  | .error err => .error err
  | .ok finalMessage =>
    match ext.crypto.base64.decode finalMessage.value.toList with
    | none => .error (.protocolSyncError "SCRAM")
    | some verifier =>
      let serverKey := ext.crypto.hmac scram.saltedPassword.toList (utf8 "Server Key")
      let signature := ext.crypto.hmac serverKey.toList (utf8 scram.authMessage)
      if verifier = signature.toList then .ok () else .error .serverError

end ScramSha256

end PgCat.Auth
