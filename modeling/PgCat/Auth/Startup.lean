import PgCat.Auth.Scram

/-!
# Startup — the handshake with a server

`Server::startup` sends the startup message and then answers the server's messages, in whatever order
they come, until the server is ready for a query.  The model reads the bytes of the socket as the code
does.  Every message takes a byte at least, so that the loop ends with the input.
-/

namespace PgCat.Auth

open Lib Protocol

/-! ## Constants -/

def protocolVersionNumber : Int := 196608
def authenticationSuccessful : Int := 0
def md5EncryptedPassword : Int := 5
def sasl : Int := 10
def saslContinue : Int := 11
def saslFinal : Int := 12
def scramSha256 : String := "SCRAM-SHA-256"

/-! ## The handshake -/

/-- What a connection is started with. -/
structure Upstream where
  ext : Externals
  md5 : Md5
  /-- Whether overflow checks are compiled in. -/
  checks : Bool
  username : String
  database : String
  password : Option String
  authHash : Option String
  /-- The nonce `ScramSha256::new` draws. -/
  nonce : String
  /-- What `set_name` gives when the server goes on with these bytes; it may panic, or wait for ever. -/
  setName : Bytes → Except (Halt Error) Unit

namespace Upstream

def identifier (up : Upstream) : ServerIdentifier :=
  ⟨up.username, up.database⟩

def startupError (up : Upstream) (text : String) : Error :=
  .serverStartupError text up.identifier

/-- The state of the exchange at its start. -/
def scram (up : Upstream) : Option ScramSha256 :=
  up.password.map (ScramSha256.fromNonce · up.nonce)

end Upstream

structure Locals where
  serverInfo : Bytes
  processId : Int
  secretKey : Int
  scram : Option ScramSha256

/-- What is known of a server that is ready. -/
structure Started where
  serverInfo : Bytes
  processId : Int
  secretKey : Int
  deriving DecidableEq, Repr

/-- `messages::startup`. -/
def startupMessage (user database : String) : Bytes :=
  let bytes := putI32 protocolVersionNumber ++
    (utf8 "user\x00" ++ utf8 user ++ [0]) ++ (utf8 "database\x00" ++ utf8 database ++ [0]) ++ [0]
  putI32 (bytes.length + 4) ++ bytes

section Handlers

variable (up : Upstream) (len : Int) (l : Locals)

def onMd5 : Handshake Locals := do
  let salt ← readExact 4 (up.startupError "salt")
  match up.password with
  | some password => md5Password up.md5 up.username password salt
  | none =>
    -- With auth passthrough the hash was obtained when the pool was validated.
    match up.authHash with
    | some hash => md5PasswordWithHash up.md5 hash salt
    | none =>
      throw (.failed (.serverAuthError
        "Auth passthrough (auth_query) failed and no user password is set in cleartext"
        up.identifier))
  return l

/-- The name of the mechanism is what is left without the last two bytes. -/
def onSasl : Handshake Locals := do
  match l.scram with
  | none =>
    throw (.failed (.serverAuthError
      ("SASL auth required and no password specified. Auth passthrough (auth_query) method is " ++
        "currently unsupported for SASL auth") up.identifier))
  | some scram =>
    let saslAuth ← readVec ((subI32 up.checks len 8).map asUsize) (up.startupError "sasl message")
    let typeLen ← unwrap (if 2 ≤ saslAuth.length then some (saslAuth.length - 2) else none)
    if fromUtf8Lossy (saslAuth.take typeLen) = scramSha256 then
      send (Message.ofChar 'p'
        (utf8 scramSha256 ++ [0] ++ putI32 scram.message.length ++ scram.message)).bytes
      return l
    else throw (.failed .serverError)

def onSaslContinue : Handshake Locals := do
  let saslData ← readVec ((subI32 up.checks len 8).map asUsize) (up.startupError "sasl cont message")
  let scram ← unwrap l.scram
  let (saslResponse, scram) ← propagate (scram.update up.ext saslData)
  send (Message.ofChar 'p' saslResponse).bytes
  return { l with scram := some scram }

def onSaslFinal : Handshake Locals := do
  let saslFinal ← readVec (subUsize up.checks (asUsize len) 8) (up.startupError "sasl final message")
  let scram ← unwrap l.scram
  propagate (scram.finish up.ext saslFinal)
  return l

def onAuthentication : Handshake Locals := do
  let authCode ← readI32 (up.startupError "auth code")
  if authCode = md5EncryptedPassword then onMd5 up l
  else if authCode = authenticationSuccessful then return l
  else if authCode = sasl then onSasl up len l
  else if authCode = saslContinue then onSaslContinue up len l
  else if authCode = saslFinal then onSaslFinal up len l
  else throw (.failed .serverError)

/-- An error ends the startup, with or without a text. -/
def onError : Handshake Started := do
  let errorCode ← readU8 (up.startupError "error code message")
  if errorCode = 0 then throw (.failed .serverError)
  else
    let _ ← readVec ((subUsize up.checks (asUsize len) 4).bind (subUsize up.checks · 1))
      (up.startupError "error message")
    throw (.failed .serverError)

def onParameterStatus : Handshake Locals := do
  let param ← readVec (subUsize up.checks (asUsize len) 4) (up.startupError "parameter status message")
  return { l with serverInfo := l.serverInfo ++ utf8 "S" ++ putI32 len ++ param }

def onBackendKeyData : Handshake Locals := do
  let processId ← readI32 (up.startupError "process id message")
  let secretKey ← readI32 (up.startupError "secret key message")
  return { l with processId := processId, secretKey := secretKey }

def onReadyForQuery : Handshake Started := do
  let _ ← readVec (subUsize up.checks (asUsize len) 4) (up.startupError "transaction status message")
  match up.setName (← get).input with
  | .ok () => return ⟨l.serverInfo, l.processId, l.secretKey⟩
  | .error halt => throw halt

def onMessage (code : Char) : Handshake (Locals ⊕ Started) :=
  match code with
  | 'R' => .inl <$> onAuthentication up len l
  | 'E' => .inr <$> onError up len
  | 'S' => .inl <$> onParameterStatus up len l
  | 'K' => .inl <$> onBackendKeyData up l
  | 'Z' => .inr <$> onReadyForQuery up len l
  | code => throw (.failed (.protocolSyncError ("Unknown server code: " ++ String.singleton code)))

end Handlers

def turn (up : Upstream) (l : Locals) : Handshake (Locals ⊕ Started) := do
  let code ← readU8 (up.startupError "message code")
  let len ← readI32 (up.startupError "message len")
  onMessage up len l (Char.ofUInt8 code)

/-- A message takes a byte at least, so there are no more turns than bytes. -/
def startup (up : Upstream) : Handshake Started := do
  writeAll (startupMessage up.username up.database)
    (.socketError "Error writing startup to server socket")
  repeatUntil .pending ((← get).input.length + 1) (turn up) ⟨[], 0, 0, up.scram⟩

end PgCat.Auth
