import PgCat.Session.Server

/-!
# Pool — checking a connection out

`ConnectionPool::get`: filter the addresses of the shard by role, try them in the order the shuffle
and the load balancing gave, and hand out the first connection that is fresh or passes its health
check.  Ban list, load counters and connection factories are the environment's: they show in the
order of the candidates and in what trying one of them gives.
-/

namespace PgCat.Session

open Lib Protocol Config

/-- Ban an address; the primary can never be banned. -/
def ban (a : Address) (reason : BanReason) : Program Unit :=
  if a.role = .primary then pure ()
  else do
    stat .banError
    emit (.banned a reason)

/-- The connection leaves the client's hands. -/
def dropConn (exit : Exit) : Program Unit :=
  emitConn fun c => .dropped c exit

def reportCheckout : Program Bool := do
  stat .serverActive
  pure true

/-- Don't leave a bad connection in the pool. -/
def healthCheckFailed (a : Address) : Program Bool := do
  markBad
  ban a .failedHealthCheck
  dropConn .unhealthy
  pure false

/-- Cheap query `;` with a time limit. -/
def runHealthCheck (fuel : Nat) (a : Address) : Program Bool := do
  stat .serverTested
  tryCatch
    (do
      query fuel true ";"
      reportCheckout)
    fun stop =>
      match stop with
      | .failed _ | .elapsed => healthCheckFailed a
      | .panicked => do
        dropConn .panicked
        throw .panicked
      | .pending => throw .pending

/-- The pool keeps connections of its own address that are not broken. -/
def Conn.usable (c : Conn) (a : Address) : Prop :=
  c.server.address = a ∧ c.server.bad = false

instance (c : Conn) (a : Address) : Decidable (c.usable a) :=
  inferInstanceAs (Decidable (_ ∧ _))

def checkOut (a : Address) (c : Conn) : Program Unit :=
  if c.usable a then do
    modifyConn fun _ => c
    emitConn .checkedOut
  else
    throw .pending

def tryCandidate (fuel : Nat) (a : Address) : Program Bool := do
  match ← next with
  | .candidate .banned => pure false
  | .candidate .refused => do
    stat .waiting
    ban a .failedCheckout
    stat .idle
    stat .checkoutError
    pure false
  | .candidate (.fresh c) => do
    stat .waiting
    checkOut a c
    reportCheckout
  | .candidate (.stale c) => do
    stat .waiting
    checkOut a c
    runHealthCheck fuel a
  | _ => throw .pending

def tryCandidates (fuel : Nat) : List Address → Program (Option Address)
  | [] => pure none
  | a :: rest => do
    if ← tryCandidate fuel a then pure (some a) else tryCandidates fuel rest

def shuffle (candidates : List Address) : Program (List Address) := do
  match ← next with
  | .order addresses => if addresses.isPerm candidates then pure addresses else throw .pending
  | _ => throw .pending

/-- Get a connection from the pool; `none` is `AllServersDown`.  Indexing `addresses` by a shard that
is not there panics. -/
def ConnectionPool.get (fuel : Nat) (pool : ConnectionPool) (shard : Nat) (role : Option Role) :
    Program (Option Address) := do
  let addresses ← orPanic pool.addresses[shard]?
  let candidates ← shuffle (addresses.filter fun a => a.role.matches role)
  tryCandidates fuel candidates

end PgCat.Session
