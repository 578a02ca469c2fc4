import PgCat.Auth.Framing
import PgCat.Lib.Abandoned

/-!
# Task — the task behind a mirror

`MirroredClient::start` is a loop.  Each turn gets a connection to the mirror from a pool of one, and waits for
whichever comes first: the signal to leave, something the mirror sends, or a message to mirror.  If there is no
connection, the turn ends before it has waited for anything.  Of several events that are ready, `select!` takes
any; the futures of the others are dropped, and with them what a read had taken off the socket.

Whatever else can happen in the meantime is a `Happening`: it comes from the mirror, from the main connection
or from the scheduler, and ends no turn.
-/

namespace PgCat.Mirror

open Lib Auth

/-! ## Reading a message -/

/-- The size of a message with the length word `len`, as `read_message` computes it.  There is none if it
panics on the way or returns an error. -/
def messageSize (checks : Bool) (len : Int) : Option Nat := do
  let capacity ← addUsize checks (asUsize len) 1
  if isizeMax < capacity then none
  else do
    let size ← (addUsize checks 5 (asUsize len)).bind (subUsize checks · 4)
    if isizeMax < size then none
    else if size < 5 then none
    else some size

/-- How far `read_message` is: it takes the code, the length word, and the rest. -/
def messageVerdict (checks : Bool) : Bytes → Verdict
  | [] => .more
  | code :: rest =>
    if rest.length < 4 then .more
    else
      match messageSize checks (word rest) with
      | none => .failed
      | some size => if (code :: rest).length < size then .more else .done

/-! ## The loop -/

inductive Phase
  /-- Waiting for `pool.get`. -/
  | getting
  /-- In `select!`, with a connection. -/
  | holding
  | ended
  deriving DecidableEq, Repr

/-- What `select!` can end with. -/
inductive Branch
  /-- The signal to leave, or the end of the channel it comes by. -/
  | disconnect
  /-- What `server.recv()` returns. -/
  | received (ok : Bool)
  /-- A message to mirror, and how sending it ends. -/
  | message (ok : Bool)
  /-- The end of the channel messages come by. -/
  | closed
  deriving DecidableEq, Repr

inductive Happening
  /-- The mirror sends. -/
  | arrive (bs : Bytes)
  /-- `MirroringManager::send`. -/
  | mirror (bs : Bytes)
  /-- `MirroringManager::disconnect`. -/
  | disconnect
  /-- The manager is dropped, and the senders of both channels with it. -/
  | hangUp
  /-- `server.recv()` is polled. -/
  | poll
  /-- From here on, `server.recv()` returns if it is polled. -/
  | replies (ok : Bool)
  deriving DecidableEq, Repr

inductive Event
  | happens (h : Happening)
  /-- What `pool.get` returns. -/
  | got (ok : Bool)
  | select (b : Branch)
  deriving DecidableEq, Repr

structure MirroredClient where
  phase : Phase
  /-- What is in the channel of messages, which has room for ten. -/
  queue : List Bytes
  /-- What is in the channel of the signal, which has room for one. -/
  signals : Nat
  hungUp : Bool
  /-- What `server.recv()` is ready to return. -/
  reply : Option Bool
  /-- What the mirror sends over the connection. -/
  stream : Reading UInt8
  sent : List Bytes
  /-- How often a connection was asked for. -/
  attempts : Nat

namespace MirroredClient

def start : MirroredClient where
  phase := .getting
  queue := []
  signals := 0
  hungUp := false
  reply := none
  stream := .start
  sent := []
  attempts := 1

def retry (t : MirroredClient) : MirroredClient :=
  { t with phase := .getting, reply := none, attempts := t.attempts + 1 }

def ready (t : MirroredClient) : Branch → Bool
  | .disconnect => decide (0 < t.signals) || t.hungUp
  | .received ok => t.reply == some ok
  | .message _ => !t.queue.isEmpty
  | .closed => t.hungUp && t.queue.isEmpty

/-- A connection that failed is marked bad, and the pool makes another one.  The receivers of both channels end
with the task, and with them what is still in the channels. -/
def select (t : MirroredClient) : Branch → MirroredClient
  | .disconnect | .closed => { t with phase := .ended, queue := [], signals := 0 }
  | .received true => t.retry
  | .received false => { t.retry with stream := .start }
  | .message true =>
    { t.retry with queue := t.queue.tail, sent := t.sent ++ t.queue.take 1, stream := t.stream.abandon }
  | .message false => { t.retry with queue := t.queue.tail, stream := .start }

section Steps

variable (checks : Bool)

/-- A read that has begun a message is not about to return it; a channel without a receiver takes nothing. -/
def happen (t : MirroredClient) : Happening → Option MirroredClient
  | .arrive bs => some { t with stream := t.stream.step (messageVerdict checks) (.arrive bs) }
  | .mirror bs =>
    if t.hungUp = true then none
    else some { t with queue := if t.phase ≠ .ended ∧ t.queue.length < 10 then t.queue ++ [bs] else t.queue }
  | .disconnect =>
    if t.hungUp = true then none else some { t with signals := if t.phase ≠ .ended then 1 else t.signals }
  | .hangUp => some { t with hungUp := true }
  | .poll =>
    if t.phase = .holding ∧ t.reply = none then
      some { t with stream := t.stream.step (messageVerdict checks) .poll }
    else none
  | .replies ok =>
    if t.phase = .holding ∧ (ok = true → t.stream.taken = []) then some { t with reply := some ok } else none

def step (t : MirroredClient) : Event → Option MirroredClient
  | .happens h => t.happen checks h
  | .got ok =>
    if t.phase = .getting then some (if ok = true then { t with phase := .holding } else t.retry) else none
  | .select b => if t.phase = .holding ∧ t.ready b = true then some (t.select b) else none

def run (es : List Event) (t : MirroredClient) : Option MirroredClient :=
  es.foldlM (step checks) t

/-- What happens between two steps of the loop. -/
def meanwhile (hs : List Happening) (t : MirroredClient) : Option MirroredClient :=
  hs.foldlM (happen checks) t

end Steps

/-! ## Leaving -/

/-- There is a reason to leave. -/
def Leaving (t : MirroredClient) : Prop :=
  0 < t.signals ∨ (t.hungUp = true ∧ t.queue = [])

variable {checks : Bool} {t t' : MirroredClient}

/-- What happens meanwhile ends no turn, and takes no reason to leave away. -/
theorem happen_keeps {h : Happening} (hstep : t.happen checks h = some t') :
    t'.phase = t.phase ∧ t'.attempts = t.attempts ∧ (t.Leaving → t'.Leaving) := by
  cases h with
  | arrive bs =>
    cases hstep
    exact ⟨rfl, rfl, id⟩
  | mirror bs =>
    obtain ⟨hopen, ⟨⟩⟩ := Option.ite_none_left_eq_some.mp hstep
    refine ⟨rfl, rfl, fun hleaving => ?_⟩
    rcases hleaving with hsignal | ⟨hclosed, -⟩
    · exact .inl hsignal
    · exact absurd hclosed hopen
  | disconnect =>
    obtain ⟨-, ⟨⟩⟩ := Option.ite_none_left_eq_some.mp hstep
    refine ⟨rfl, rfl, fun hleaving => ?_⟩
    by_cases hended : t.phase = .ended
    · simpa [hended, Leaving] using hleaving
    · exact .inl (by simp [hended])
  | hangUp =>
    cases hstep
    exact ⟨rfl, rfl, fun hleaving => hleaving.imp id fun h => ⟨rfl, h.2⟩⟩
  | poll | replies ok =>
    obtain ⟨-, ⟨⟩⟩ := Option.ite_none_right_eq_some.mp hstep
    exact ⟨rfl, rfl, id⟩

theorem meanwhile_keeps : ∀ {hs : List Happening} {t t' : MirroredClient}, t.meanwhile checks hs = some t' →
    t'.phase = t.phase ∧ t'.attempts = t.attempts ∧ (t.Leaving → t'.Leaving) := by
  intro hs
  induction hs with
  | nil =>
    intro t t' h
    cases h
    exact ⟨rfl, rfl, id⟩
  | cons first rest ih =>
    intro t t' h
    rw [meanwhile, List.foldlM_cons] at h
    obtain ⟨t₁, hfirst, hrest⟩ := Option.bind_eq_some_iff.mp h
    obtain ⟨hphase, hattempts, hleaving⟩ := happen_keeps hfirst
    obtain ⟨hphase', hattempts', hleaving'⟩ := ih hrest
    exact ⟨hphase'.trans hphase, hattempts'.trans hattempts, hleaving' ∘ hleaving⟩

theorem Leaving.ready (h : t.Leaving) : t.ready .disconnect = true ∨ t.ready .closed = true := by
  rcases h with hsignal | ⟨hclosed, hempty⟩
  · exact .inl (by simp [MirroredClient.ready, hsignal])
  · exact .inr (by simp [MirroredClient.ready, hclosed, hempty])

def Branch.Leaves (b : Branch) : Prop :=
  b = .disconnect ∨ b = .closed

theorem select_ended_iff {b : Branch} : (t.select b).phase = .ended ↔ Branch.Leaves b := by
  cases b with
  | disconnect => exact iff_of_true rfl (.inl rfl)
  | closed => exact iff_of_true rfl (.inr rfl)
  | received ok | message ok => cases ok <;> simp [select, retry, Branch.Leaves]

theorem ready_leaves_iff : (∀ b, t.ready b = true → Branch.Leaves b) ↔ t.queue = [] ∧ t.reply = none := by
  constructor
  · intro hall
    constructor
    · by_contra hqueue
      rcases hall (.message true) (by simp [MirroredClient.ready, hqueue]) with h | h <;> cases h
    · cases hreply : t.reply with
      | none => rfl
      | some ok =>
        rcases hall (.received ok) (by simp [MirroredClient.ready, hreply]) with h | h <;> cases h
  · rintro ⟨hqueue, hreply⟩ b hready
    cases b with
    | disconnect => exact .inl rfl
    | closed => exact .inr rfl
    | received ok => simp [MirroredClient.ready, hreply] at hready
    | message ok => simp [MirroredClient.ready, hqueue] at hready

/-! ## Turns -/

/-- What a turn comes across: no connection, or a connection and what happens until `select!` is through. -/
inductive Outcome
  | refused
  | connected (hs : List Happening)

/-- What a turn can lead to. -/
inductive Turn (checks : Bool) (t : MirroredClient) : Outcome → MirroredClient → Prop
  | refused {t' : MirroredClient} : t.step checks (.got false) = some t' → Turn checks t .refused t'
  | connected {hs : List Happening} {u v t' : MirroredClient} {b : Branch} : t.step checks (.got true) = some u →
      u.meanwhile checks hs = some v → v.step checks (.select b) = some t' → Turn checks t (.connected hs) t'

/-- With a reason to leave, a turn comes to its end and is the last one, whatever `select!` takes, exactly if
there is a connection and neither a message to mirror nor a reply of the mirror is ready with it.  If there is no
connection, no reason to leave is looked at. -/
theorem leaves_at_next_turn_iff (checks : Bool) {t : MirroredClient} (hphase : t.phase = .getting)
    (hleaving : t.Leaving) (o : Outcome) :
    ((∃ t', Turn checks t o t') ∧ ∀ t', Turn checks t o t' → t'.phase = .ended ∧ t'.attempts = t.attempts) ↔
      ∃ hs v, o = .connected hs ∧ { t with phase := .holding }.meanwhile checks hs = some v ∧
        v.queue = [] ∧ v.reply = none := by
  cases o with
  | refused =>
    -- The turn is over, and the next attempt under way.
    have hrefused : t.step checks (.got false) = some t.retry := by simp [step, hphase]
    refine iff_of_false (fun hall => ?_) (by rintro ⟨hs, v, h, -⟩; cases h)
    have hended := (hall.2 _ (.refused hrefused)).1
    cases hended
  | connected hs =>
    have hgot : t.step checks (.got true) = some { t with phase := .holding } := by simp [step, hphase]
    have hselects : ∀ {v b}, { t with phase := .holding }.meanwhile checks hs = some v → v.ready b = true →
        v.step checks (.select b) = some (v.select b) := fun hv hb => if_pos ⟨(meanwhile_keeps hv).1, hb⟩
    constructor
    · rintro ⟨⟨t', hturn⟩, hall⟩
      cases hturn with
      | connected hget hmeanwhile hselect =>
        rw [hgot, Option.some.injEq] at hget
        subst hget
        refine ⟨hs, _, rfl, hmeanwhile, ready_leaves_iff.mp fun b hb => ?_⟩
        exact select_ended_iff.mp (hall _ (.connected hgot hmeanwhile (hselects hmeanwhile hb))).1
    · rintro ⟨hs', v, heq, hv, hquiet⟩
      cases heq
      constructor
      · -- The reason to leave is still there when `select!` looks.
        rcases ((meanwhile_keeps hv).2.2 hleaving).ready with hb | hb
        · exact ⟨_, .connected hgot hv (hselects hv hb)⟩
        · exact ⟨_, .connected hgot hv (hselects hv hb)⟩
      · intro t' hturn
        cases hturn with
        | connected hget hmeanwhile hselect =>
          rw [hgot, Option.some.injEq] at hget
          subst hget
          rw [hv, Option.some.injEq] at hmeanwhile
          subst hmeanwhile
          obtain ⟨⟨-, hready⟩, ⟨⟩⟩ := Option.ite_none_right_eq_some.mp hselect
          have hleaves := ready_leaves_iff.mpr hquiet _ hready
          refine ⟨select_ended_iff.mpr hleaves, ?_⟩
          rcases hleaves with rfl | rfl
          · exact (meanwhile_keeps hv).2.1
          · exact (meanwhile_keeps hv).2.1

/-- A mirror that stays down keeps the task for ever. -/
theorem down_forever (hphase : t.phase = .getting) (n : Nat) :
    t.run checks (List.replicate n (.got false)) =
      some { t with attempts := t.attempts + n, reply := if n = 0 then t.reply else none } := by
  induction n generalizing t with
  | zero => rfl
  | succ n ih =>
    have hrefused : t.step checks (.got false) = some t.retry := by simp [step, hphase]
    have hrest := @ih t.retry rfl
    rw [List.replicate_succ, run, List.foldlM_cons, hrefused]
    change t.retry.run checks (List.replicate n (.got false)) = _
    rw [hrest]
    cases t
    cases hphase
    simp [retry, Nat.add_assoc, Nat.add_comm 1 n]

namespace Sample

/-- The signal to leave is queued; two attempts fail, and a third is under way. -/
theorem down_mirror_kept :
    ∃ t t', start.run true [.happens .disconnect] = some t ∧ t.Leaving ∧
      t.run true [.got false, .got false] = some t' ∧ t'.phase = .getting ∧ t'.attempts = t.attempts + 2 :=
  ⟨_, _, rfl, .inl Nat.one_pos, rfl, rfl, rfl⟩

/-- The main connection is gone, the mirror is up and has nothing to say. -/
theorem quiet_mirror_left :
    (∃ t', Turn true { start with signals := 1, hungUp := true } (.connected [.poll]) t') ∧
      ∀ t', Turn true { start with signals := 1, hungUp := true } (.connected [.poll]) t' →
        t'.phase = .ended ∧ t'.attempts = 1 :=
  (leaves_at_next_turn_iff true rfl (.inl Nat.one_pos) (.connected [.poll])).mpr ⟨_, _, rfl, rfl, rfl, rfl⟩

end Sample

end MirroredClient

end PgCat.Mirror
