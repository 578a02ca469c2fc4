import PgCat.Session.Pool

/-!
# Client — the loop that serves a client

`Client::handle`.  `route` is one turn of the outer loop up to the checkout: read a message, buffer it
or let the router look at it, look the pool up, try the custom commands, check a connection out.
`serve` is the rest of the turn: the transaction loop on the connection and its release.  A
connection is dropped on every way out of `serve`.
-/

namespace PgCat.Session

open Lib Protocol Config Router

/-! ## Reading and routing a message -/

def readClient : Program Message := do
  match ← next with
  | .client m => do
    emit (.message m)
    pure m
  | .clientGone => throw (.failed .socketError)
  | _ => throw .pending

/-- The `select!` of the outer loop; `none` when the client was told that the pooler shuts down. -/
def awaitMessage : Program (Option Message) := do
  match ← next with
  | .shutdown => do
    let w ← get
    -- Admin clients ignore shutdown.
    if w.client.admin then do
      let m ← readClient
      pure (some m)
    else do
      writeClient (.errorTerminal "terminating connection due to administrator command")
      stat .disconnect
      pure none
  | .client m => do
    emit (.message m)
    pure (some m)
  | .clientGone => throw (.failed .socketError)
  | _ => throw .pending

def bufferMessage (m : Message) : Program Unit :=
  modifyClient fun c => { c with buffer := c.buffer ++ [m] }

def clearBuffer : Program Unit :=
  modifyClient fun c => { c with buffer := [] }

def inferWith (m : Message) (look : QueryRouter → Option (QueryRouter × Bool)) : Program Unit := do
  let w ← get
  if w.router.queryParserEnabled then do
    emit (.inferred m w.router.poolSettings)
    let out ← orPanic (look w.router)
    setRouter out.1
  else
    pure ()

def inferMessage (ext : Externals) (m : Message) : Program Unit :=
  inferWith m fun r => r.infer ext m.bytes

def inferBind (ext : Externals) (m : Message) : Program Unit :=
  inferWith m fun r => r.inferShardFromBind ext m.bytes

/-- What becomes of a message before a server is looked for. -/
inductive Intake
  | buffered
  | terminated
  | forward
  deriving DecidableEq, Repr

def intake (ext : Externals) (m : Message) : Program Intake :=
  match m.frontend with
  | .describe | .execute => do
    bufferMessage m
    pure .buffered
  | .query => do
    inferMessage ext m
    pure .forward
  | .parse => do
    bufferMessage m
    inferMessage ext m
    pure .buffered
  | .bind => do
    bufferMessage m
    inferBind ext m
    pure .buffered
  | .terminate => do
    stat .disconnect
    pure .terminated
  | _ => pure .forward

def getPool : Program ConnectionPool := do
  match ← next with
  | .pool (some p) => pure p
  | .pool none => do
    let w ← get
    writeClient (.error ("No pool configured for database: " ++ w.client.poolName ++ ", user: " ++
      w.client.username))
    -- The labels of this text are interchanged in the source.
    throw (.failed (.clientError ("Invalid pool name \x7b username: " ++ w.client.poolName ++
      ", pool_name: " ++ w.client.username ++ ", application_name: " ++ w.client.applicationName ++
      " \x7d")))
  | _ => throw .pending

def waitResumed : Program Unit := do
  match ← next with
  | .resumed => pure ()
  | _ => throw .pending

/-- The pool of the client; looked up again after a pause. -/
def currentPool : Program ConnectionPool := do
  let pool ← getPool
  if pool.paused then do
    waitResumed
    getPool
  else
    pure pool

def updateSettings (m : Message) (pool : ConnectionPool) : Program Unit :=
  modify fun w => { w with
    router := w.router.updatePoolSettings pool.settings
    trace := .lookup m w.router pool :: w.trace }

def commandResponse : Command → String → Response
  | .setShard, _ => .commandOk "SET SHARD"
  | .setPrimaryReads, _ => .commandOk "SET PRIMARY READS"
  | .setShardingKey, _ => .commandOk "SET SHARDING KEY"
  | .setServerRole, _ => .commandOk "SET SERVER ROLE"
  | .showServerRole, value => .row "server role" value
  | .showShard, value => .row "shard" value
  | .showPrimaryReads, value => .row "primary reads" value

/-- Text sent when `SET SHARD` names a shard that is not configured; the router is back on the
current shard when it is built. -/
def shardRangeText (current shards : Nat) : String :=
  "shard " ++ toString current ++ " is more than configured " ++ toString shards ++
    ", staying on shard " ++ toString current ++ " (shard numbers start at 0)"

def random : Program Nat := do
  match ← next with
  | .random n => pure n
  | _ => throw .pending

def answerCommand (pool : ConnectionPool) (current : Nat) (c : Command) (value : String) :
    Program Unit := do
  emit (.command c value)
  let w ← get
  if c = .setShard ∧ pool.shards ≤ w.router.shard then do
    setRouter (w.router.setShard current)
    writeClient (.error (shardRangeText current pool.shards))
  else
    writeClient (commandResponse c value)

/-- Handle all custom protocol commands, if any; `true` when the message was one. -/
def runCommand (ext : Externals) (pool : ConnectionPool) (m : Message) : Program Bool := do
  let rand ← random
  let w ← get
  let out ← orPanic (w.router.tryExecuteCommand ext rand m.bytes)
  setRouter out.1
  match out.2 with
  | none => pure false
  | some (c, value) => do
    answerCommand pool w.router.shard c value
    pure true

/-- The result of one turn of the outer loop up to the checkout. -/
inductive Turn
  | again
  | returned
  | serve (pool : ConnectionPool) (a : Address) (m : Message)

def checkout (fuel : Nat) (pool : ConnectionPool) (m : Message) : Program Turn := do
  stat .waiting
  let w ← get
  emit (.get pool w.router.shard w.router.role m)
  match ← pool.get fuel w.router.shard w.router.role with
  | some a => pure (.serve pool a m)
  | none => do
    stat .idle
    runIf (m.frontend = .sync) clearBuffer
    writeClient (.error "could not get connection from the pool")
    pure .again

def handleAdmin : Program Unit := do
  match ← next with
  | .adminDone true => pure ()
  | .adminDone false => throw (.failed .socketError)
  | _ => throw .pending

def isAdmin : Program Bool := do
  let w ← get
  pure w.client.admin

def forward (fuel : Nat) (ext : Externals) (m : Message) : Program Turn := do
  if ← isAdmin then do
    handleAdmin
    pure .again
  else do
    let pool ← currentPool
    updateSettings m pool
    if ← runCommand ext pool m then pure .again else checkout fuel pool m

def route (fuel : Nat) (ext : Externals) : Program Turn := do
  match ← awaitMessage with
  | none => pure .returned
  | some m => do
    match ← intake ext m with
    | .buffered => pure .again
    | .terminated => pure .returned
    | .forward => forward fuel ext m

/-! ## Talking to the server -/

section Serving

variable (fuel idleTimeout : Nat) (pool : ConnectionPool) (a : Address) (m : Message)

def sendServerMessage (messages : List Message) : Program Unit :=
  onError (send false true messages) fun _ => ban a .messageSendFailed

/-- What `receive_server_message` does when `recv` did not return a message. -/
def receiveFailed : Stop → Program (List Message)
  | .failed e => do
    ban a .messageReceiveFailed
    writeClient (.receiveError e)
    throw (.failed e)
  | .elapsed => do
    markBad
    ban a .statementTimeout
    writeClient (.errorTerminal "pool statement timeout")
    throw (.failed .statementTimeout)
  | stop => throw stop

def receiveServerMessage : Program (List Message) :=
  tryCatch (recv fuel (0 < pool.settings.user.statementTimeout)) (receiveFailed a)

/-- Hand a reply on to the client; if that fails the connection is out of step with it. -/
def writeReply (response : List Message) : Program Unit :=
  onError (writeClient (.forwarded response)) fun _ => markBad

def forwardReply : Program Unit := do
  let response ← receiveServerMessage fuel pool a
  writeReply response

def receiveTurn : Program (Unit ⊕ Unit) := do
  forwardReply fuel pool a
  if ← isDataAvailable then pure (.inl ()) else pure (.inr ())

def sendAndReceiveLoop (messages : List Message) : Program Unit := do
  sendServerMessage a messages
  repeatUntil .pending fuel (fun _ => receiveTurn fuel pool a) ()
  stat .query
  stat .serverQuery

/-- Release the server from the client: it can't cancel its queries anymore. -/
def release : Program Unit :=
  modify fun w => { w with
    map := Function.update w.map w.client.key none
    trace := .released :: w.trace }

/-! ## The transaction loop -/

/-- Leave the loop when the transaction is over and the server is not kept for the session. -/
def leaveIfOver (isQuery : Bool) : Program (Option Exit) := do
  let w ← get
  if w.conn.server.inTransaction then pure none
  else do
    stat .transaction
    stat .serverTransaction
    if w.client.transactionMode then do
      runIf isQuery (stat .idle)
      pure (some .transactionOver)
    else
      pure none

/-- Does the buffer start with a `Parse` of a named statement? -/
def startsNamed (buffer : List Message) : Bool :=
  let bytes := bufferBytes buffer
  Char.ofUInt8 (bytes[0]?.getD 0) = 'P' && bytes[5]?.getD 0 ≠ 0

def clientBuffer : Program (List Message) := do
  let w ← get
  pure w.client.buffer

def handleSync : Program (Option Exit) := do
  bufferMessage m
  let buffer ← clientBuffer
  runIf (startsNamed buffer) markDirty
  sendAndReceiveLoop fuel pool a buffer
  clearBuffer
  leaveIfOver false

def handleCopyData : Program (Option Exit) := do
  bufferMessage m
  let buffer ← clientBuffer
  runIf (chunkSize < bufferSize buffer) do
    sendServerMessage a buffer
    clearBuffer
  pure none

/-- `CopyDone` or `CopyFail`: one part of the reply is received. -/
def handleCopyEnd : Program (Option Exit) := do
  bufferMessage m
  let buffer ← clientBuffer
  sendServerMessage a buffer
  clearBuffer
  forwardReply fuel pool a
  leaveIfOver false

def handleTerminate : Program (Option Exit) := do
  checkinCleanup fuel
  stat .disconnect
  release
  pure (some .finished)

/-- Dispatch on the code of a client message; `some` leaves the loop. -/
def dispatch : Program (Option Exit) :=
  match m.frontend with
  | .query => do
    sendAndReceiveLoop fuel pool a [m]
    leaveIfOver true
  | .terminate => handleTerminate fuel
  | .parse | .bind | .describe | .execute => do
    bufferMessage m
    pure none
  | .sync => handleSync fuel pool a m
  | .copyData => handleCopyData a m
  | .copyDone | .copyFail => handleCopyEnd fuel pool a m
  | .other => pure none

/-- Wait for a message in a transaction; `none` when the client was idle for too long. -/
def awaitInTransaction : Program (Option Message) := do
  match ← next with
  | .client m => do
    emit (.message m)
    pure (some m)
  | .clientGone => do
    stat .disconnect
    checkinCleanup fuel
    throw (.failed .socketError)
  | .idleTimeout =>
    -- The setting `0` means no limit.
    if idleTimeout = 0 then throw .pending
    else do
      writeClient (.error "idle transaction timeout")
      pure none
  | _ => throw .pending

/-- `initial_message`, or the next one. -/
def transactionMessage : Option Message → Program (Option Message)
  | some m => pure (some m)
  | none => awaitInTransaction fuel idleTimeout

def transactionTurn (initial : Option Message) : Program (Option Message ⊕ Exit) := do
  match ← transactionMessage fuel idleTimeout initial with
  | none => pure (.inr .idleTimeout)
  | some m => do
    match ← dispatch fuel pool a m with
    | none => pure (.inl none)
    | some exit => pure (.inr exit)

def idleTimeoutSetting : Program Nat := do
  match ← next with
  | .idleTimeoutSetting ms => pure ms
  | _ => throw .pending

/-- What follows the transaction loop; after `Terminate` the server was released already. -/
def checkin (exit : Exit) : Program Unit :=
  if exit = .finished then pure ()
  else do
    checkinCleanup fuel
    stat .serverIdle
    modifyClient fun c => { c with connectedToServer := false }
    release
    stat .idle

def attach : Program Unit := do
  modifyClient fun c => { c with connectedToServer := true }
  stat .active
  modifyClient fun c => { c with lastAddressId := some a.id, hasServerStats := true }
  let w ← get
  setName fuel w.client.applicationName

/-- The server is assigned to the client in case the client wants to cancel a query later. -/
def assign : Program Unit := do
  claim
  attach fuel a

def serveHeld : Program Exit := do
  assign fuel a
  let idleTimeout ← idleTimeoutSetting
  let exit ← repeatUntil .pending fuel (transactionTurn fuel idleTimeout pool a) (some m)
  emitConn fun c => .left c exit
  checkin fuel exit
  pure exit

/-- The connection is dropped whichever way the client stops using it. -/
def dropOnStop : Stop → Program Exit
  | .pending => throw .pending
  | .panicked => do
    dropConn .panicked
    throw .panicked
  | stop => do
    dropConn .failed
    throw stop

/-- Serve the client on the connection it holds; `true` when `handle` returns. -/
def serve : Program Bool := do
  let exit ← tryCatch (serveHeld fuel pool a m) dropOnStop
  dropConn exit
  pure (exit = .finished)

end Serving

/-! ## The whole session -/

def handleTurn (fuel : Nat) (ext : Externals) : Program (Unit ⊕ Unit) := do
  match ← route fuel ext with
  | .again => pure (.inl ())
  | .returned => pure (.inr ())
  | .serve pool a m => do
    if ← serve fuel pool a m then pure (.inr ()) else pure (.inl ())

def cancelQuery : Program Unit := do
  let w ← get
  match w.map w.client.key with
  | none => pure ()
  | some target => do
    emit (.cancelled target)
    match ← next with
    | .cancelSent true => pure ()
    | .cancelSent false => throw (.failed .socketError)
    | _ => throw .pending

def handle (fuel : Nat) (ext : Externals) : Program Unit := do
  let w ← get
  if w.client.cancelMode then cancelQuery
  else do
    setRouter .new
    stat .register
    repeatUntil .pending fuel (fun _ => handleTurn fuel ext) ()

/-- `Drop for Client`. -/
def dropClient : Program Unit := do
  modify fun w => { w with
    map := Function.update w.map w.client.key none
    trace := .clientDropped :: w.trace }
  let w ← get
  runIf (w.client.connectedToServer ∧ w.client.hasServerStats) (stat .serverIdle)

/-- After `handle`: unless the client is an admin, tell the drain channel, and report an error return
as a disconnect. -/
def afterHandle (isErr : Bool) : Program Unit := do
  if ← isAdmin then pure ()
  else do
    emit (.drain (-1))
    runIf isErr (stat .disconnect)

def afterStop : Stop → Program Unit
  | .pending => throw .pending
  | .failed e => do
    afterHandle true
    dropClient
    throw (.failed e)
  -- Unwinding drops the client.
  | stop => do
    dropClient
    throw stop

def clientEntrypoint (fuel : Nat) (ext : Externals) : Program Unit := do
  let admin ← isAdmin
  runIf (admin = false) (emit (.drain 1))
  tryCatch (handle fuel ext) afterStop
  afterHandle false
  dropClient

def Client.cancel (processId secretKey : Int) : Client where
  buffer := []
  cancelMode := true
  transactionMode := false
  processId := processId
  secretKey := secretKey
  admin := false
  lastAddressId := none
  hasServerStats := false
  connectedToServer := false
  poolName := "undefined"
  username := "undefined"
  applicationName := "undefined"

end PgCat.Session
