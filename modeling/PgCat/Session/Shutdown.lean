import Mathlib.Algebra.Ring.Int.Defs
import PgCat.Lib.Interleaving

/-!
# Shutdown — when the main loop leaves

After SIGINT the main loop goes on until it counts no client, and then tells itself to leave through a
channel of its own.  It counts by messages: a client sends 1 when it has passed authentication and -1 when
`Client::handle` has returned; SIGINT sends 0, so that the count is looked at once.  The steps of the loop
and of any number of clients are interleaved; a step that waits for room in a channel can be taken when
there is room.

* `Pooler.Sound`: the count and the messages on their way are the clients in `handle`, and once the loop is
  to leave no client is there that could use a server;
* `Pooler.Settled`: what this takes when the count gets to 0, and when a client is counted.

SIGTERM and the timeout of the shutdown are not part of it.
-/

namespace PgCat.Session
namespace Shutdown

open Lib

/-! ## Clients and the main loop -/

/-- Where the task of a connection is. -/
inductive Phase
  | absent
  /-- Accepted, with the flag the main loop had then. -/
  | starting (adminOnly : Bool)
  /-- Authenticated, or a cancel request; 1 is not sent yet. -/
  | counting (cancel : Bool)
  /-- In `handle`, without a server. -/
  | handling (cancel : Bool)
  /-- In `handle`, with a server checked out. -/
  | holding
  /-- `handle` has returned; -1 is not sent yet. -/
  | leaving
  | admin
  | closed
  deriving DecidableEq, Repr

inductive Main
  | serving
  | sendingZero
  | sendingExit
  | left
  deriving DecidableEq, Repr

variable {ι : Type}

structure Pooler (ι : Type) where
  main : Main
  adminOnly : Bool
  totalClients : Int
  /-- The channel of the counting messages, the oldest first. -/
  drain : List Int
  /-- There is a message in the exit channel, which has room for one. -/
  exit : Bool
  clients : ι → Phase

def Pooler.start : Pooler ι := ⟨.serving, false, 0, [], false, fun _ => .absent⟩

inductive Event (ι : Type)
  | accept (c : ι)
  | authenticate (c : ι)
  | authenticateAdmin (c : ι)
  | cancel (c : ι)
  | refuse (c : ι)
  | count (c : ι)
  | checkOut (c : ι)
  | release (c : ι)
  /-- The client gets the broadcast of the shutdown. -/
  | notice (c : ι)
  | leave (c : ι)
  | uncount (c : ι)
  | sigint
  | sendZero
  | ping
  | sendExit
  | exit

namespace Pooler

def capacity : Nat := 2048

variable [DecidableEq ι]

def move (p : Pooler ι) (c : ι) (phase : Phase) : Pooler ι :=
  { p with clients := Function.update p.clients c phase }

def send (p : Pooler ι) (message : Int) : Pooler ι :=
  { p with drain := p.drain ++ [message] }

/-- Receive a counting message; without clients, a shutdown is over. -/
def receive (p : Pooler ι) (message : Int) (rest : List Int) : Pooler ι :=
  { p with
    totalClients := p.totalClients + message
    drain := rest
    main := if p.totalClients + message = 0 ∧ p.adminOnly = true then .sendingExit else .serving }

/-- One step; `none` if it cannot be taken. -/
def step (p : Pooler ι) : Event ι → Option (Pooler ι)
  | .accept c =>
    if p.main = .serving ∧ p.clients c = .absent then some (p.move c (.starting p.adminOnly)) else none
  | .authenticate c => if p.clients c = .starting false then some (p.move c (.counting false)) else none
  | .authenticateAdmin c =>
    match p.clients c with
    | .starting _ => some (p.move c .admin)
    | _ => none
  | .cancel c =>
    match p.clients c with
    | .starting _ => some (p.move c (.counting true))
    | _ => none
  | .refuse c =>
    match p.clients c with
    | .starting _ | .admin => some (p.move c .closed)
    | _ => none
  | .count c =>
    match p.clients c with
    | .counting cancel =>
      if p.drain.length < capacity then some ((p.move c (.handling cancel)).send 1) else none
    | _ => none
  | .checkOut c => if p.clients c = .handling false then some (p.move c .holding) else none
  | .release c => if p.clients c = .holding then some (p.move c (.handling false)) else none
  | .notice c =>
    if p.clients c = .handling false ∧ p.adminOnly = true then some (p.move c .leaving) else none
  | .leave c =>
    match p.clients c with
    | .handling _ | .holding => some (p.move c .leaving)
    | _ => none
  | .uncount c =>
    if p.clients c = .leaving ∧ p.drain.length < capacity then some ((p.move c .closed).send (-1))
    else none
  | .sigint =>
    if p.main = .serving then
      some (if p.adminOnly = true then p else { p with adminOnly := true, main := .sendingZero })
    else none
  | .sendZero =>
    if p.main = .sendingZero ∧ p.drain.length < capacity then some { p.send 0 with main := .serving }
    else none
  | .ping =>
    match p.main, p.drain with
    | .serving, message :: rest => some (p.receive message rest)
    | _, _ => none
  | .sendExit =>
    if p.main = .sendingExit ∧ p.exit = false then some { p with exit := true, main := .serving }
    else none
  | .exit =>
    if p.main = .serving ∧ p.exit = true then some { p with exit := false, main := .left } else none

def automaton : Automaton (Event ι) (Pooler ι) where
  start := .start
  step := step

end Pooler

/-! ## What a step does -/

/-- 1 is sent, and -1 is not. -/
def Phase.counted : Phase → Bool
  | .handling _ | .holding | .leaving => true
  | _ => false

/-- The client is in `handle`, and uses servers. -/
def Phase.serves : Phase → Bool
  | .handling cancel => !cancel
  | .holding => true
  | _ => false

/-- All that a step can do. -/
inductive Effect [DecidableEq ι] (p : Pooler ι) : Event ι → Pooler ι → Prop
  | moved {e : Event ι} {c : ι} {phase : Phase} (hcounted : phase.counted = (p.clients c).counted)
      (hserves : phase.serves = true → (p.clients c).serves = true) : Effect p e (p.move c phase)
  | counted {c : ι} {cancel : Bool} (hphase : p.clients c = .counting cancel) :
      Effect p (.count c) ((p.move c (.handling cancel)).send 1)
  | uncounted {e : Event ι} {c : ι} (hphase : p.clients c = .leaving) :
      Effect p e ((p.move c .closed).send (-1))
  | nothing {e : Event ι} : Effect p e p
  | interrupted (hserving : p.main = .serving) (hfirst : p.adminOnly = false) :
      Effect p .sigint { p with adminOnly := true, main := .sendingZero }
  | zeroed (hmain : p.main = .sendingZero) : Effect p .sendZero { p.send 0 with main := .serving }
  | received {message : Int} {rest : List Int} (hserving : p.main = .serving)
      (hdrain : p.drain = message :: rest) : Effect p .ping (p.receive message rest)
  | queued (hmain : p.main = .sendingExit) : Effect p .sendExit { p with exit := true, main := .serving }
  | exited (hserving : p.main = .serving) (hexit : p.exit = true) :
      Effect p .exit { p with exit := false, main := .left }

section Steps

variable [DecidableEq ι] {p p' : Pooler ι}

theorem step_effect {e : Event ι} (hstep : p.step e = some p') : Effect p e p' := by
  cases e with
  | accept c =>
    obtain ⟨hc, ⟨⟩⟩ := Option.ite_none_right_eq_some.mp hstep
    exact .moved (by rw [hc.2]; rfl) (fun h => by cases h)
  | authenticate c =>
    obtain ⟨hc, ⟨⟩⟩ := Option.ite_none_right_eq_some.mp hstep
    exact .moved (by rw [hc]; rfl) (fun h => by cases h)
  | checkOut c | release c =>
    obtain ⟨hc, ⟨⟩⟩ := Option.ite_none_right_eq_some.mp hstep
    exact .moved (by rw [hc]; rfl) (fun _ => by rw [hc]; rfl)
  | authenticateAdmin c | cancel c =>
    rw [Pooler.step] at hstep
    split at hstep
    · rename_i hc
      cases hstep
      exact .moved (by rw [hc]; rfl) (fun h => by cases h)
    · cases hstep
  | refuse c | leave c =>
    rw [Pooler.step] at hstep
    split at hstep
    · rename_i hc
      cases hstep
      exact .moved (by rw [hc]; rfl) (fun h => by cases h)
    · rename_i hc
      cases hstep
      exact .moved (by rw [hc]; rfl) (fun h => by cases h)
    · cases hstep
  | count c =>
    rw [Pooler.step] at hstep
    split at hstep
    · rename_i hc
      split at hstep
      · cases hstep
        exact .counted hc
      · cases hstep
    · cases hstep
  | notice c =>
    obtain ⟨hc, ⟨⟩⟩ := Option.ite_none_right_eq_some.mp hstep
    exact .moved (by rw [hc.1]; rfl) (fun h => by cases h)
  | uncount c =>
    obtain ⟨hc, ⟨⟩⟩ := Option.ite_none_right_eq_some.mp hstep
    exact .uncounted hc.1
  | sigint =>
    rw [Pooler.step] at hstep
    split at hstep
    · rename_i hserving
      by_cases hagain : p.adminOnly = true
      · rw [if_pos hagain] at hstep
        cases hstep
        exact .nothing
      · rw [if_neg hagain] at hstep
        cases hstep
        exact .interrupted hserving (by simpa using hagain)
    · cases hstep
  | sendZero =>
    obtain ⟨hmain, ⟨⟩⟩ := Option.ite_none_right_eq_some.mp hstep
    exact .zeroed hmain.1
  | ping =>
    rw [Pooler.step] at hstep
    split at hstep
    · rename_i hserving hdrain
      cases hstep
      exact .received hserving hdrain
    · cases hstep
  | sendExit =>
    obtain ⟨hmain, ⟨⟩⟩ := Option.ite_none_right_eq_some.mp hstep
    exact .queued hmain.1
  | exit =>
    obtain ⟨hmain, ⟨⟩⟩ := Option.ite_none_right_eq_some.mp hstep
    exact .exited hmain.1 hmain.2

end Steps

/-! ## The invariant -/

/-- The loop is on its way out. -/
def Pooler.Ending (p : Pooler ι) : Prop :=
  p.main = .sendingExit ∨ p.main = .left ∨ p.exit = true

theorem Pooler.Ending.queued {p : Pooler ι} (h : p.Ending) (hexit : p.main ≠ .sendingExit)
    (hleft : p.main ≠ .left) : p.exit = true :=
  (h.resolve_left hexit).resolve_left hleft

/-- When the count gets to 0 after SIGINT, the messages on their way do not add up to a client; and no client
is counted once the loop is on its way out. -/
def Pooler.Settled (p : Pooler ι) : Event ι → Prop
  | .ping => ∀ message rest, p.drain = message :: rest → p.totalClients + message = 0 →
      p.adminOnly = true → rest.sum ≤ 0
  | .count c => p.Ending → p.clients c ≠ .counting false
  | _ => True

section Counting

variable [Fintype ι]

def Pooler.counted (p : Pooler ι) : Nat :=
  census p.clients fun phase => phase.counted = true

structure Pooler.Sound (p : Pooler ι) : Prop where
  balance : p.totalClients + p.drain.sum = p.counted
  ending : p.Ending → ∀ c, (p.clients c).serves = false

/-- With the count at 0 and nobody on the way, no client is in `handle`. -/
theorem not_counted {p : Pooler ι} {total : Int} {drain : List Int} (hbalance : total + drain.sum = p.counted)
    (htotal : total = 0) (hdrain : drain.sum ≤ 0) (c : ι) : (p.clients c).counted = false := by
  by_contra hc
  have hpos : 0 < p.counted := census_pos (by simpa using hc)
  omega

theorem serves_of_not_counted {phase : Phase} (hcounted : phase.counted = false) : phase.serves = false := by
  cases phase with
  | handling cancel | holding => cases hcounted
  | _ => rfl

namespace Pooler.Sound

theorem start : (Pooler.start : Pooler ι).Sound where
  balance := by simp [Pooler.start, Pooler.counted, census, Phase.counted]
  ending := fun hending => by cases hending.queued (by simp [Pooler.start]) (by simp [Pooler.start])

variable {p p' : Pooler ι}

/-- Steps of the loop that leave the clients and the count alone, and may send 0. -/
theorem onward (h : p.Sound) (hclients : p'.clients = p.clients) (htotal : p'.totalClients = p.totalClients)
    (hdrain : p'.drain = p.drain ∨ p'.drain = p.drain ++ [0]) (hending : p'.Ending → p.Ending) : p'.Sound where
  balance := by
    have hsum : p'.drain.sum = p.drain.sum := by
      rcases hdrain with hsame | hzero
      · rw [hsame]
      · rw [hzero, List.sum_append, List.sum_singleton, add_zero]
    rw [htotal, hsum, Pooler.counted, hclients]
    exact h.balance
  ending := by
    intro hend
    rw [hclients]
    exact h.ending (hending hend)

theorem receive (h : p.Sound) {message : Int} {rest : List Int}
    (hdrain : p.drain = message :: rest) (hsettled : p.Settled .ping) : (p.receive message rest).Sound := by
  have hbalance := h.balance
  rw [hdrain, List.sum_cons, ← add_assoc] at hbalance
  refine ⟨hbalance, fun hending => ?_⟩
  by_cases hzero : p.totalClients + message = 0 ∧ p.adminOnly = true
  · have hrest := hsettled message rest hdrain hzero.1 hzero.2
    exact fun c => serves_of_not_counted (not_counted hbalance hzero.1 hrest c)
  · have hmain : (p.receive message rest).main = .serving := if_neg hzero
    have hqueued := hending.queued (by rw [hmain]; decide) (by rw [hmain]; decide)
    exact h.ending (.inr (.inr hqueued))

variable [DecidableEq ι]

theorem counted_move (p : Pooler ι) (c : ι) (phase : Phase) :
    (p.move c phase).counted + (p.clients c).counted.toNat = p.counted + phase.counted.toNat := by
  have hcensus := census_update p.clients c phase fun phase => phase.counted = true
  have hone : ∀ b : Bool, (if b = true then 1 else 0) = b.toNat := fun b => by cases b <;> rfl
  rw [hone, hone] at hcensus
  exact hcensus

theorem ending_move (h : p.Sound) {c : ι} {phase : Phase}
    (hserves : p.Ending → phase.serves = true → (p.clients c).serves = true) (hending : p.Ending) :
    ∀ c', ((p.move c phase).clients c').serves = false := by
  intro c'
  have hclients : (p.move c phase).clients c' = if c' = c then phase else p.clients c' :=
    Function.update_apply _ _ _ _
  rw [hclients]
  split
  · by_contra hc
    have hbefore := hserves hending (by simpa using hc)
    rw [h.ending hending c] at hbefore
    cases hbefore
  · exact h.ending hending c'

theorem move (h : p.Sound) {c : ι} {phase : Phase} (hcounted : phase.counted = (p.clients c).counted)
    (hserves : phase.serves = true → (p.clients c).serves = true) : (p.move c phase).Sound := by
  have hcensus := counted_move p c phase
  rw [hcounted] at hcensus
  refine ⟨?_, fun hending => h.ending_move (fun _ => hserves) hending⟩
  rw [Nat.add_right_cancel hcensus]
  exact h.balance

theorem moveSend (h : p.Sound) {c : ι} {phase : Phase} {message : Int}
    (hmessage : message + (p.clients c).counted.toNat = phase.counted.toNat)
    (hserves : p.Ending → phase.serves = true → (p.clients c).serves = true) :
    ((p.move c phase).send message).Sound := by
  refine ⟨?_, fun hending => h.ending_move hserves hending⟩
  have hcensus := counted_move p c phase
  have hbalance := h.balance
  have hsum : ((p.move c phase).send message).drain.sum = p.drain.sum + message := by
    rw [Pooler.send, List.sum_append, List.sum_singleton]
    rfl
  have hsame : ((p.move c phase).send message).counted = (p.move c phase).counted := rfl
  have htotal : ((p.move c phase).send message).totalClients = p.totalClients := rfl
  omega

theorem step (h : p.Sound) {e : Event ι} (hsettled : p.Settled e) (hstep : p.step e = some p') :
    p'.Sound := by
  cases step_effect hstep with
  | moved hcounted hserves => exact h.move hcounted hserves
  | @counted c cancel hphase =>
    refine h.moveSend (by rw [hphase]; rfl) fun hending hs => ?_
    cases cancel with
    | true => cases hs
    | false => exact absurd hphase (hsettled hending)
  | uncounted hphase => exact h.moveSend (by rw [hphase]; rfl) (fun _ hs => by cases hs)
  | nothing => exact h
  | interrupted _ _ =>
    exact h.onward rfl rfl (.inl rfl) fun hending => .inr (.inr (hending.queued (by simp) (by simp)))
  | zeroed _ =>
    exact h.onward rfl rfl (.inr rfl) fun hending => .inr (.inr (hending.queued (by simp) (by simp)))
  | received _ hdrain => exact h.receive hdrain hsettled
  | queued hmain => exact h.onward rfl rfl (.inl rfl) fun _ => .inl hmain
  | exited _ hexit => exact h.onward rfl rfl (.inl rfl) fun _ => .inr (.inr hexit)

end Pooler.Sound

/-- In every run in which the count gets to 0 only when no client is on the way to be counted, and none is
counted after that: when the loop has left through the exit channel, no client has a server checked out. -/
theorem exit_waits_for_clients [DecidableEq ι] {t : List (Event ι)} {p : Pooler ι}
    (hsettled : Pooler.automaton.Along Pooler.Settled t) (hrun : Pooler.automaton.run t = some p)
    (hleft : p.main = .left) : ∀ c, p.clients c ≠ .holding := by
  have hsound : p.Sound := Automaton.invariant Pooler.Sound.start
    (fun _ _ _ h hok hstep => h.step hok hstep) hsettled hrun
  intro c hc
  have hserves := hsound.ending (.inr (.inl hleft)) c
  rw [hc] at hserves
  cases hserves

end Counting

namespace Sample

/-- A connection is accepted, and SIGINT comes while it is starting up: the count is 0, and the loop tells
itself to leave.  Then the client passes authentication and gets a server.  The newest event comes first. -/
def overtaken : List (Event Unit) :=
  [.exit, .checkOut (), .count (), .authenticate (), .sendExit, .ping, .sendZero, .sigint, .accept ()]

theorem client_cut_off :
    ∃ p : Pooler Unit, Pooler.automaton.run overtaken = some p ∧ p.main = .left ∧ p.clients () = .holding := by
  have hall : (Pooler.automaton.run overtaken).any (fun p : Pooler Unit =>
      decide (p.main = .left ∧ p.clients () = .holding)) = true := by
    decide +kernel
  obtain ⟨p, hrun, hp⟩ := (Option.any_eq_true _ _).mp hall
  exact ⟨p, hrun, of_decide_eq_true hp⟩

/-- The client is counted, and disconnects after SIGINT; its last message ends the shutdown. -/
def orderly : List (Event Unit) :=
  [.exit, .sendExit, .ping, .uncount (), .leave (), .ping, .sendZero, .sigint, .checkOut (), .ping, .count (),
    .authenticate (), .accept ()]

/-- The messages that are left whenever the count gets to 0, and the loop whenever the client is counted. -/
def settled (p : Pooler Unit) : Event Unit → Bool
  | .ping =>
    match p.drain with
    | message :: rest => decide (p.totalClients + message = 0 → p.adminOnly = true → rest.sum ≤ 0)
    | [] => true
  | .count _ => decide (p.main ≠ .sendingExit ∧ p.main ≠ .left ∧ p.exit = false)
  | _ => true

theorem settled_of_eq_true (p : Pooler Unit) (e : Event Unit) (h : settled p e = true) : p.Settled e := by
  cases e with
  | ping =>
    intro message rest hdrain hzero honly
    rw [settled, hdrain] at h
    exact of_decide_eq_true h hzero honly
  | count c =>
    obtain ⟨hexit, hleft, hqueued⟩ := of_decide_eq_true h
    rintro (hend | hend | hend)
    · exact absurd hend hexit
    · exact absurd hend hleft
    · rw [hqueued] at hend
      cases hend
  | _ => trivial

theorem client_waited_for :
    ∃ p : Pooler Unit, Pooler.automaton.Along Pooler.Settled orderly ∧
      Pooler.automaton.run orderly = some p ∧ p.main = .left ∧ ∀ c, p.clients c ≠ .holding := by
  have hsettled : Pooler.automaton.Along Pooler.Settled orderly :=
    Automaton.along_of_check settled_of_eq_true (by decide +kernel)
  have hall : (Pooler.automaton.run orderly).any (fun p : Pooler Unit => decide (p.main = .left)) = true := by
    decide +kernel
  obtain ⟨p, hrun, hp⟩ := (Option.any_eq_true _ _).mp hall
  have hleft := of_decide_eq_true hp
  exact ⟨p, hsettled, hrun, hleft, exit_waits_for_clients hsettled hrun hleft⟩

end Sample

end Shutdown
end PgCat.Session
