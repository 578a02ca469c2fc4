import PgCat.Lib.Program
import PgCat.Protocol.Backend
import PgCat.Router.Bind
import PgCat.Router.Command

/-!
# World — one client of the pooler and its environment

The task that serves a client is a program over `World`: the client's own state, the pooled
connection it holds, the map used by cancel requests, and the environment.  The environment is a
`script` of what happens next (messages, socket failures, timeouts, pool lookups, checkouts); a
program that needs an input the script does not offer is `pending`, so a run with a finite script is
a finite prefix of a session.  The `trace` records what was observable, newest first, with the
connection as it was at that moment.

The fields `backend`, `unread`, `lastRead` and `lastReady` of a connection belong to the observer:
no function of the pooler reads them.
-/

namespace PgCat.Session

open Lib Protocol Config Router

/-! ## Connections and pools -/

structure Address where
  id : Nat
  host : String
  port : Nat
  shard : Nat
  addressIndex : Nat
  role : Role
  deriving DecidableEq, Repr

structure Server where
  address : Address
  buffer : List Message
  processId : Int
  secretKey : Int
  inTransaction : Bool
  dataAvailable : Bool
  bad : Bool
  needsCleanup : Bool
  applicationName : String
  deriving DecidableEq, Repr

structure Conn where
  id : Nat
  server : Server
  /-- The server at the other end; `none` once it did something no conforming server does. -/
  backend : Option Backend
  /-- Sent by the server and not read yet. -/
  unread : List Message
  lastRead : Option Message
  /-- Status of the last `ReadyForQuery` read from the connection, the one of its startup included. -/
  lastReady : TxStatus
  deriving DecidableEq, Repr

structure ConnectionPool where
  addresses : List (List Address)
  settings : PoolSettings
  paused : Bool
  /-- `from_config` counts the shards whose addresses it pushes. -/
  sized : settings.shards = addresses.length

/-- `databases.len()`; `from_config` pushes databases and addresses together. -/
def ConnectionPool.shards (pool : ConnectionPool) : Nat :=
  pool.addresses.length

/-- Where a cancel request goes: process id, secret key, host and port of a server. -/
structure Target where
  processId : Int
  secretKey : Int
  host : String
  port : Nat
  deriving DecidableEq, Repr

def Server.target (s : Server) : Target :=
  ⟨s.processId, s.secretKey, s.address.host, s.address.port⟩

/-- `(process_id, secret_key)` of a client. -/
abbrev Key := Int × Int

abbrev ClientServerMap := Key → Option Target

structure Client where
  buffer : List Message
  cancelMode : Bool
  transactionMode : Bool
  processId : Int
  secretKey : Int
  admin : Bool
  lastAddressId : Option Nat
  hasServerStats : Bool
  connectedToServer : Bool
  poolName : String
  username : String
  applicationName : String
  deriving DecidableEq, Repr

def Client.key (c : Client) : Key := (c.processId, c.secretKey)

/-! ## What is observed -/

inductive Error
  | socketError
  | protocolSyncError (text : String)
  | clientError (text : String)
  | statementTimeout
  deriving DecidableEq, Repr

inductive Response
  | error (text : String)
  | errorTerminal (text : String)
  | receiveError (e : Error)
  | commandOk (text : String)
  | row (name value : String)
  | forwarded (messages : List Message)
  deriving DecidableEq, Repr

inductive BanReason
  | failedHealthCheck
  | messageSendFailed
  | messageReceiveFailed
  | failedCheckout
  | statementTimeout
  deriving DecidableEq, Repr

/-- Calls on the statistics of the client and of the server. -/
inductive Stat
  | register
  | disconnect
  | waiting
  | active
  | idle
  | transaction
  | query
  | banError
  | checkoutError
  | serverActive
  | serverTested
  | serverIdle
  | serverTransaction
  | serverQuery
  deriving DecidableEq, Repr

/-- How the client came to give up a connection. -/
inductive Exit
  | transactionOver
  | idleTimeout
  /-- `Terminate`. -/
  | finished
  /-- An error return of `handle`. -/
  | failed
  | panicked
  /-- A failed health check inside `ConnectionPool::get`. -/
  | unhealthy
  deriving DecidableEq, Repr

inductive Event
  | message (m : Message)
  /-- The router looks at a message, with the settings it has. -/
  | inferred (m : Message) (settings : PoolSettings)
  /-- The pool looked up for a message, and the router before it takes over the settings. -/
  | lookup (m : Message) (router : QueryRouter) (pool : ConnectionPool)
  | command (c : Command) (value : String)
  | get (pool : ConnectionPool) (shard : Nat) (role : Option Role) (m : Message)
  | checkedOut (c : Conn)
  | claimed (c : Conn)
  | released
  | sent (c : Conn) (m : Message) (reply : List Message) (fromClient : Bool)
  | received (c : Conn) (m : Message)
  | left (c : Conn) (exit : Exit)
  | rolledBack (c : Conn)
  | discarded (c : Conn)
  | cleanedUp (c : Conn)
  | replied (r : Response) (ok : Bool)
  | banned (a : Address) (reason : BanReason)
  | stat (s : Stat)
  | dropped (c : Conn) (exit : Exit)
  | cancelled (target : Target)
  /-- Sent to the drain channel that counts connected clients. -/
  | drain (n : Int)
  | clientDropped

/-! ## What the environment does -/

/-- What trying one address of the pool gives. -/
inductive Candidate
  | banned
  | refused
  | fresh (c : Conn)
  /-- Long idle, or just unbanned: a health check is due. -/
  | stale (c : Conn)

inductive Input
  | shutdown
  | client (m : Message)
  | clientGone
  | idleTimeout
  | clientWrite (ok : Bool)
  | adminDone (ok : Bool)
  | pool (p : Option ConnectionPool)
  | resumed
  | random (n : Nat)
  /-- Candidates of a checkout, in the order they are tried. -/
  | order (addresses : List Address)
  | candidate (c : Candidate)
  | idleTimeoutSetting (ms : Nat)
  /-- The server takes the messages and will have sent these replies. -/
  | sent (replies : List (List Message))
  | sendFailed
  /-- The next message from the server is read. -/
  | arrives
  | readFailed
  /-- The timer of a call with a time limit runs out. -/
  | elapsed
  | cancelSent (ok : Bool)

/-! ## Programs -/

inductive Stop
  | failed (e : Error)
  | panicked
  /-- A time limit ran out inside the call it covers. -/
  | elapsed
  /-- The session is still waiting for its environment. -/
  | pending
  deriving DecidableEq, Repr

structure World where
  script : List Input
  trace : List Event
  conn : Conn
  client : Client
  router : QueryRouter
  map : ClientServerMap

abbrev Program := EStateM Stop World

def next : Program Input := fun w =>
  match w.script with
  | [] => .error .pending w
  | i :: rest => .ok i { w with script := rest }

def emit (e : Event) : Program Unit :=
  modify fun w => { w with trace := e :: w.trace }

def stat (s : Stat) : Program Unit := emit (.stat s)

def modifyConn (f : Conn → Conn) : Program Unit :=
  modify fun w => { w with conn := f w.conn }

def modifyServer (f : Server → Server) : Program Unit :=
  modifyConn fun c => { c with server := f c.server }

def modifyClient (f : Client → Client) : Program Unit :=
  modify fun w => { w with client := f w.client }

def setRouter (r : QueryRouter) : Program Unit :=
  modify fun w => { w with router := r }

/-- Emit an event about the connection as it is now. -/
def emitConn (e : Conn → Event) : Program Unit :=
  modify fun w => { w with trace := e w.conn :: w.trace }

def runIf (c : Prop) [Decidable c] (m : Program Unit) : Program Unit :=
  if c then m else pure ()

def orPanic {α : Type} : Option α → Program α
  | some a => pure a
  | none => throw .panicked

def writeClient (r : Response) : Program Unit := do
  match ← next with
  | .clientWrite true => emit (.replied r true)
  | .clientWrite false => do
    emit (.replied r false)
    throw (.failed .socketError)
  | _ => throw .pending

/-- Run a handler for an error return and return the error again. -/
def onError {α : Type} (m : Program α) (handler : Error → Program Unit) : Program α :=
  tryCatch m fun stop =>
    match stop with
    | .failed e => do
      handler e
      throw (.failed e)
    | stop => throw stop

end PgCat.Session
