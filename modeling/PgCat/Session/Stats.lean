import PgCat.Session.World

/-!
# Stats — the client gauges of a pool

`ClientStats` keeps the state a client is in, `PoolStats` counts the clients of a pool in each state.
A client reports a change of its state itself: the call adjusts the gauges by the state stored so
far and then stores the new one.  `checkout_error` and `ban_error` only store a state.
-/

namespace PgCat.Session

inductive ClientState
  | idle
  | waiting
  | active
  deriving DecidableEq, Repr

/-- The client gauges of `PoolStats`. -/
structure PoolStats where
  clIdle : Nat
  clWaiting : Nat
  clActive : Nat
  deriving DecidableEq, Repr

/-- `decrease_counter`: a counter at zero stays there. -/
def decreaseCounter (value : Nat) : Nat :=
  if value > 0 then value - 1 else value

namespace PoolStats

def default : PoolStats := ⟨0, 0, 0⟩

def gauge (p : PoolStats) : ClientState → Nat
  | .idle => p.clIdle
  | .waiting => p.clWaiting
  | .active => p.clActive

def decreaseFromClientState (p : PoolStats) : ClientState → PoolStats
  | .active => { p with clActive := decreaseCounter p.clActive }
  | .idle => { p with clIdle := decreaseCounter p.clIdle }
  | .waiting => { p with clWaiting := decreaseCounter p.clWaiting }

/-- Notified when a client of the pool becomes waiting; `was` is its state so far. -/
def clientWaiting (p : PoolStats) (was : ClientState) : PoolStats :=
  if was ≠ .waiting then
    { p with clWaiting := p.clWaiting + 1 }.decreaseFromClientState was
  else p

def clientActive (p : PoolStats) (was : ClientState) : PoolStats :=
  if was ≠ .active then
    { p with clActive := p.clActive + 1 }.decreaseFromClientState was
  else p

def clientIdle (p : PoolStats) (was : ClientState) : PoolStats :=
  if was ≠ .idle then
    { p with clIdle := p.clIdle + 1 }.decreaseFromClientState was
  else p

def clientDisconnect (p : PoolStats) : ClientState → PoolStats
  | .idle => { p with clIdle := decreaseCounter p.clIdle }
  | .waiting => { p with clWaiting := decreaseCounter p.clWaiting }
  | .active => { p with clActive := decreaseCounter p.clActive }

end PoolStats

structure ClientStats where
  state : ClientState
  poolStats : PoolStats
  deriving DecidableEq, Repr

namespace ClientStats

def register (c : ClientStats) : ClientStats :=
  ⟨.idle, { c.poolStats with clIdle := c.poolStats.clIdle + 1 }⟩

def disconnect (c : ClientStats) : ClientStats :=
  { c with poolStats := c.poolStats.clientDisconnect c.state }

def idle (c : ClientStats) : ClientStats :=
  ⟨.idle, c.poolStats.clientIdle c.state⟩

def waiting (c : ClientStats) : ClientStats :=
  ⟨.waiting, c.poolStats.clientWaiting c.state⟩

def active (c : ClientStats) : ClientStats :=
  ⟨.active, c.poolStats.clientActive c.state⟩

/-- The client has failed to obtain a connection. -/
def checkoutError (c : ClientStats) : ClientStats :=
  { c with state := .idle }

/-- The client has had the server assigned to it banned. -/
def banError (c : ClientStats) : ClientStats :=
  { c with state := .idle }

def call (c : ClientStats) : Stat → ClientStats
  | .register => c.register
  | .disconnect => c.disconnect
  | .idle => c.idle
  | .waiting => c.waiting
  | .active => c.active
  | .checkoutError => c.checkoutError
  | .banError => c.banError
  | _ => c

end ClientStats

/-! ## What a call does to the gauges -/

namespace ClientStats

variable (c : ClientStats)

/-- The call that reports a state. -/
def enter : ClientState → ClientStats
  | .idle => c.idle
  | .waiting => c.waiting
  | .active => c.active

@[simp] theorem enter_state (target : ClientState) : (c.enter target).state = target := by
  cases target with
  | _ => rfl

theorem gauge_register (s : ClientState) :
    c.register.poolStats.gauge s = c.poolStats.gauge s + if .idle = s then 1 else 0 := by
  cases s with
  | _ => rfl

variable {c} (h : 0 < c.poolStats.gauge c.state)
include h

theorem gauge_enter (target s : ClientState) :
    (c.enter target).poolStats.gauge s + (if c.state = s then 1 else 0) =
      c.poolStats.gauge s + if target = s then 1 else 0 := by
  rcases c with ⟨was, i, w, a⟩
  cases was <;> cases target <;> cases s <;>
    simp_all [enter, idle, waiting, active, PoolStats.clientIdle, PoolStats.clientWaiting,
      PoolStats.clientActive, PoolStats.decreaseFromClientState, PoolStats.gauge, decreaseCounter] <;>
    omega

theorem gauge_disconnect (s : ClientState) :
    c.disconnect.poolStats.gauge s + (if c.state = s then 1 else 0) = c.poolStats.gauge s := by
  rcases c with ⟨was, i, w, a⟩
  cases was <;> cases s <;>
    simp_all [disconnect, PoolStats.clientDisconnect, PoolStats.gauge, decreaseCounter] <;> omega

end ClientStats

end PgCat.Session
