import PgCat.Auth.Startup
import PgCat.Lib.Maps

/-!
# Login — from a new connection to a client

`client_entrypoint` up to the point where a client is there: the first message with its length word, the
TLS request, the parameters, the password, or the cancel request.  The model reads the bytes of the
socket as the code does, so that a length that is out of range, or a read past the end of a message, is
a panic here where it is one there.

What the pooler knows of its pools and of its configuration, the random numbers that are drawn and what
other servers answer are parameters (`Pooler`).  The statistics of the client, the address of the peer
and the write of a fetched hash into the pool are left out.
-/

namespace PgCat.Auth

open Lib Protocol

/-! ## The first message -/

def sslRequestCode : Int := 80877103
def cancelRequestCode : Int := 80877102

inductive ClientConnectionType
  | startup
  | tls
  | cancelQuery
  deriving DecidableEq, Repr

def ClientConnectionType.ofCode (code : Int) : Option ClientConnectionType :=
  if code = sslRequestCode then some .tls
  else if code = protocolVersionNumber then some .startup
  else if code = cancelRequestCode then some .cancelQuery
  else none

/-- The length of the first message, and the rest of it. -/
def readStartup (checks : Bool) : Handshake Bytes := do
  let len ← readI32 .clientBadStartup
  readVec (subUsize checks (asUsize len) 4) .clientBadStartup

/-- What the code of the first message asks for. -/
def requested (code : Int) (bytes : Bytes) : Handshake (ClientConnectionType × Bytes) :=
  match ClientConnectionType.ofCode code with
  | some kind => return (kind, bytes)
  | none => throw (.failed (.protocolSyncError ("Unexpected startup code: " ++ toString code)))

/-- Handle the first message the client sends. -/
def getStartup (checks : Bool) : Handshake (ClientConnectionType × Bytes) := do
  let startup ← readStartup checks
  let (code, bytes) ← unwrap (getI32.run startup)
  requested code bytes

/-! ## Parameters -/

/-- The bytes up to the next NUL, each as a character; there has to be one. -/
def getCString : Bytes → Option (List Char × Bytes)
  | [] => none
  | c :: bytes =>
    if c = 0 then some ([], bytes)
    else (getCString bytes).map fun (tmp, rest) => (Char.ofUInt8 c :: tmp, rest)

/-- The strings that are not empty.  Each takes a byte, so there are no more of them than bytes. -/
def getCStrings : Nat → Bytes → Option (List String)
  | _, [] => some []
  | 0, _ :: _ => none
  | n + 1, bytes => do
    let (tmp, rest) ← getCString bytes
    let buf ← getCStrings n rest
    return if tmp.isEmpty then buf else String.ofList tmp :: buf

/-- Names and values alternate; a later value of a name replaces the earlier one. -/
def insertPairs : List String → HashMap String String → HashMap String String
  | name :: value :: rest, result => insertPairs rest (result.insert name value)
  | _, result => result

/-- `none` is a panic. -/
def parseParams (bytes : Bytes) : Option (Except Error (HashMap String String)) := do
  let buf ← getCStrings bytes.length bytes
  -- Expect pairs of name and value and at least one pair to be present.
  if buf.length % 2 ≠ 0 ∨ buf.length < 2 then return .error .clientBadStartup
  else return .ok (insertPairs buf ∅)

def parseStartup (bytes : Bytes) : Option (Except Error (HashMap String String)) := do
  match ← parseParams bytes with
  | .error err => return .error err
  | .ok result =>
    -- The user at the very minimum.
    if (result.lookup "user").isSome then return .ok result else return .error .clientBadStartup

/-! ## The pooler -/

/-- What a login reads of a pool. -/
structure PoolView where
  password : Option String
  authHash : Option String
  transactionMode : Bool
  validated : Bool
  /-- What `validate` gives, with its error as it is printed. -/
  validate : Except String Unit
  serverInfo : Bytes

structure Pooler where
  md5 : Md5
  /-- Whether overflow checks are compiled in. -/
  checks : Bool
  adminOnly : Bool
  tlsCertificate : Option String
  /-- What the TLS acceptor makes of the bytes of the peer. -/
  accept : Bytes → Except Error Bytes
  adminUsername : String
  adminPassword : String
  version : String
  getPool : String → String → Option PoolView
  isAuthQueryConfigured : Bool
  /-- What `refetch_auth_hash` gives if there is no hash, with its error as it is displayed. -/
  refetchMissing : Except String String
  /-- What it gives if the hash did not match. -/
  refetchWrong : Except Error String
  /-- A text as it is printed for debugging. -/
  debug : String → String
  salt : Bytes
  processId : Int
  secretKey : Int

structure Client where
  cancelMode : Bool
  transactionMode : Bool
  processId : Int
  secretKey : Int
  parameters : HashMap String String
  admin : Bool
  poolName : String
  username : String
  applicationName : String

/-- What the startup parameters say. -/
structure Identity where
  parameters : HashMap String String
  username : String
  poolName : String
  applicationName : String

namespace Identity

/-- The database defaults to the user. -/
def ofParameters (parameters : HashMap String String) (username : String) : Identity where
  parameters := parameters
  username := username
  poolName := (parameters.lookup "database").getD username
  applicationName := (parameters.lookup "application_name").getD "pgcat"

def client (who : Identity) : ClientIdentifier :=
  ⟨who.applicationName, who.username, who.poolName⟩

def admin (who : Identity) : Bool :=
  (["pgcat", "pgbouncer"].filter (· == who.poolName)).length == 1

end Identity

/-! ## Startup of a client -/

section Login

variable (p : Pooler) (who : Identity)

def readPassword : Handshake Bytes := do
  let code ← readU8 (.clientSocketError "password code" who.client)
  if Char.ofUInt8 code ≠ 'p' then
    throw (.failed (.protocolSyncError ("Expected p, got " ++ String.singleton (Char.ofUInt8 code))))
  else
    let len ← readI32 (.clientSocketError "password message length" who.client)
    readVec ((subI32 p.checks len 4).map asUsize) (.clientSocketError "password message" who.client)

def generateServerInfoForAdmin : Bytes :=
  serverParameterMessage "application_name" "" ++ serverParameterMessage "client_encoding" "UTF8" ++
    serverParameterMessage "server_encoding" "UTF8" ++
    serverParameterMessage "server_version" p.version ++ serverParameterMessage "DateStyle" "ISO, MDY"

def authenticateAdmin (passwordResponse : Bytes) : Handshake (Bool × Bytes) := do
  if md5HashPassword p.md5 p.adminUsername p.adminPassword p.salt ≠ passwordResponse then
    wrongPassword who.username
    throw (.failed (.clientGeneralError "Invalid password" who.client))
  else return (false, generateServerInfoForAdmin p)

/-- The password in the configuration comes before the hash of auth passthrough. -/
def passwordHash (pool : PoolView) : Handshake (Option Bytes) := do
  match pool.password with
  | some password => return some (md5HashPassword p.md5 who.username password p.salt)
  | none =>
    if ¬ p.isAuthQueryConfigured then throw (.failed (.clientAuthImpossible who.username))
    else
      let hash ← match pool.authHash with
        | some hash => pure (some hash)
        | none =>
          match p.refetchMissing with
          | .ok fetchedHash => pure (some fetchedHash)
          | .error text => throw (.failed (.clientAuthPassthroughError text who.client))
      return some (md5HashSecondPass p.md5 (← unwrap hash) p.salt)

/-- A hash that does not match is fetched once more, as the password may have changed. -/
def checkPassword (hash passwordResponse : Bytes) : Handshake Unit := do
  if hash ≠ passwordResponse then
    let fetchedHash ← propagate p.refetchWrong
    if md5HashSecondPass p.md5 fetchedHash p.salt = passwordResponse then return ()
    else
      wrongPassword who.username
      throw (.failed (.clientGeneralError "Invalid password" who.client))
  else return ()

def authenticateUser (passwordResponse : Bytes) : Handshake (Bool × Bytes) := do
  match p.getPool who.poolName who.username with
  | none =>
    errorResponse ("No pool configured for database: " ++ p.debug who.poolName ++ ", user: " ++
      p.debug who.username)
    throw (.failed (.clientGeneralError "Invalid pool name" who.client))
  | some pool =>
    let hash ← passwordHash p who pool
    checkPassword p who (← unwrap hash) passwordResponse
    if pool.validated then return (pool.transactionMode, pool.serverInfo)
    else
      match pool.validate with
      | .ok () => return (pool.transactionMode, pool.serverInfo)
      | .error err =>
        errorResponse ("Pool down for database: " ++ p.debug who.poolName ++ ", user: " ++
          p.debug who.username)
        throw (.failed (.clientError ("Pool down: " ++ err)))

def checkResponse (passwordResponse : Bytes) : Handshake (Bool × Bytes) :=
  if who.admin then authenticateAdmin p who passwordResponse
  else authenticateUser p who passwordResponse

def authenticate (passwordResponse : Bytes) : Handshake Client := do
  let (transactionMode, serverInfo) ← checkResponse p who passwordResponse
  authOk
  send serverInfo
  backendKeyData p.processId p.secretKey
  readyForQuery
  return {
    cancelMode := false
    transactionMode := transactionMode
    processId := p.processId
    secretKey := p.secretKey
    parameters := who.parameters
    admin := who.admin
    poolName := who.poolName
    username := who.username
    applicationName := who.applicationName }

def login : Handshake Client := do
  if ¬ who.admin ∧ p.adminOnly then
    -- Kick any client that is not admin in admin-only mode.
    errorResponseTerminal "terminating connection due to administrator command"
    throw (.failed .shuttingDown)
  else
    md5Challenge p.salt
    let passwordResponse ← readPassword p who
    authenticate p who passwordResponse

end Login

def Client.startup (p : Pooler) (bytes : Bytes) : Handshake Client := do
  let parameters ← propagate (← unwrap (parseStartup bytes))
  match parameters.lookup "user" with
  | some username => login p (.ofParameters parameters username)
  | none => throw (.failed (.clientError "Missing user parameter on client startup"))

def Client.cancel (bytes : Bytes) : Handshake Client := do
  let (processId, bytes) ← unwrap (getI32.run bytes)
  let (secretKey, _) ← unwrap (getI32.run bytes)
  return {
    cancelMode := true
    transactionMode := false
    processId := processId
    secretKey := secretKey
    parameters := ∅
    admin := false
    poolName := "undefined"
    username := "undefined"
    applicationName := "undefined" }

/-- The message after a TLS request, which has to start a session. -/
def startupAgain (p : Pooler) (channel : String) : Handshake Client := do
  match ← getStartup p.checks with
  | (.startup, bytes) => Client.startup p bytes
  | _ => throw (.failed (.protocolSyncError ("Bad postgres client (" ++ channel ++ ")")))

def startupTls (p : Pooler) : Handshake Client := do
  let plain ← propagate (p.accept (← get).input)
  modify fun s => { s with input := plain }
  startupAgain p "tls"

def clientEntrypoint (p : Pooler) : Handshake Client := do
  match ← getStartup p.checks with
  | (.tls, _) =>
    if p.tlsCertificate ≠ none then
      send (utf8 "S")
      startupTls p
    else
      -- TLS is not configured; the client can go on in plain text.
      send (utf8 "N")
      startupAgain p "plain"
  | (.startup, bytes) => Client.startup p bytes
  | (.cancelQuery, bytes) => Client.cancel bytes

end PgCat.Auth
