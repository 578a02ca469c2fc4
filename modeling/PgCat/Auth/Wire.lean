import PgCat.Lib.Socket
import PgCat.Protocol.Message

/-!
# Wire — errors and messages of the two handshakes

The errors of `errors.rs` that a handshake returns, the MD5 password hashes, and the messages of
`messages.rs` that are written while a client or a server connection starts.  What the operating
system says of a failed write is left out of the text of the error.
-/

namespace PgCat.Auth

open Lib Protocol

structure ClientIdentifier where
  applicationName : String
  username : String
  poolName : String
  deriving DecidableEq, Repr

structure ServerIdentifier where
  username : String
  database : String
  deriving DecidableEq, Repr

inductive Error
  | socketError (text : String)
  | clientSocketError (text : String) (client : ClientIdentifier)
  | clientGeneralError (text : String) (client : ClientIdentifier)
  | clientAuthImpossible (username : String)
  | clientAuthPassthroughError (text : String) (client : ClientIdentifier)
  | clientBadStartup
  | protocolSyncError (text : String)
  | serverError
  | serverStartupError (text : String) (server : ServerIdentifier)
  | serverAuthError (text : String) (server : ServerIdentifier)
  | clientError (text : String)
  | tlsError
  | shuttingDown
  deriving DecidableEq, Repr

abbrev Handshake := SocketM Error

/-- `write_all` and `write_all_half`. -/
def send (bs : Bytes) : Handshake Unit :=
  writeAll bs (.socketError "Error writing to socket")

/-! ## Password hashes -/

/-- The MD5 digest of a byte string, in hexadecimal. -/
abbrev Md5 := Bytes → String

def md5HashSecondPass (md5 : Md5) (hash : String) (salt : Bytes) : Bytes :=
  ("md5" ++ md5 (utf8 hash ++ salt)).toList.map (fun c => UInt8.ofNat c.toNat) ++ [0]

def md5HashPassword (md5 : Md5) (user password : String) (salt : Bytes) : Bytes :=
  md5HashSecondPass md5 (md5 (utf8 password ++ utf8 user)) salt

/-- Answer a server's password challenge. -/
def md5Password (md5 : Md5) (user password : String) (salt : Bytes) : Handshake Unit :=
  send (Message.ofChar 'p' (md5HashPassword md5 user password salt)).bytes

def md5PasswordWithHash (md5 : Md5) (hash : String) (salt : Bytes) : Handshake Unit :=
  send (Message.ofChar 'p' (md5HashSecondPass md5 hash salt)).bytes

/-! ## Messages to a client -/

def authOk : Handshake Unit :=
  send (Message.ofChar 'R' (putI32 0)).bytes

/-- The random salt is drawn by the caller. -/
def md5Challenge (salt : Bytes) : Handshake Unit :=
  send (Message.ofChar 'R' (putI32 5 ++ salt)).bytes

def backendKeyData (backendId secretKey : Int) : Handshake Unit :=
  send (Message.ofChar 'K' (putI32 backendId ++ putI32 secretKey)).bytes

def readyForQuery : Handshake Unit :=
  send (Message.ofChar 'Z' (utf8 "I")).bytes

/-- An error message: its fields are ended by a NUL each, and the message by another. -/
def fatal (code text : String) : Bytes :=
  (Message.ofChar 'E' (utf8 ("SFATAL\x00VFATAL\x00C" ++ code ++ "\x00M" ++ text ++ "\x00\x00"))).bytes

def errorResponseTerminal (message : String) : Handshake Unit :=
  send (fatal "58000" message)

def errorResponse (message : String) : Handshake Unit := do
  errorResponseTerminal message
  readyForQuery

def wrongPassword (user : String) : Handshake Unit :=
  send (fatal "28P01" ("password authentication failed for user \"" ++ user ++ "\""))

def serverParameterMessage (key value : String) : Bytes :=
  (Message.ofChar 'S' (utf8 key ++ [0] ++ utf8 value ++ [0])).bytes

end PgCat.Auth
