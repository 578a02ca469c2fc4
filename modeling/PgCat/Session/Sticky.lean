import PgCat.Session.Handoff

/-!
# Sticky — in session mode a client keeps its server

Outside transaction mode the transaction loop is left by `Terminate`, by an error, or because the client
was idle for too long.  Only the last lets the client go on with another connection, so all its
messages go to one connection but for idle timeouts.  The timer runs in the loop whether or not a
transaction is open: a client in session mode that is merely idle loses its server as well.
-/

namespace PgCat.Session

open Lib Protocol Router

/-! ## Statement -/

/-- The idle timeout takes connection `id` away while it is inside a transaction. -/
def Event.takenInside (id : Nat) : Event → Bool
  | .left c .idleTimeout => c.id = id && c.lastReady ≠ .idle
  | _ => false

section Statement

variable (lets : Nat → Event → Bool)

/-- Was there nothing forwarded so far, or did an event since let the client go elsewhere? -/
def mayMove (t : List Event) : Bool :=
  match lastForward t with
  | none => true
  | some id => (sinceForward t).any (lets id)

/-- Each message went to the connection of the message before it, unless the client was let go in
between. -/
def sticky : List Event → Bool
  | [] => true
  | .sent c _ _ true :: t => (mayMove lets t || lastForward t = some c.id) && sticky t
  | _ :: t => sticky t

end Statement

def Event.timesOutInside : Event → Bool
  | .left c .idleTimeout => c.lastReady ≠ .idle
  | _ => true

/-! ## Traces -/

section Traces

variable {lets : Nat → Event → Bool} {e : Event} {t : List Event}

theorem mayMove_cons (he : e.isForward = false) (h : mayMove lets t = true) :
    mayMove lets (e :: t) = true := by
  unfold mayMove at h ⊢
  rw [lastForward_cons he, sinceForward_cons he]
  cases hl : lastForward t with
  | none => rfl
  | some id =>
    rw [hl] at h
    simp only [List.any_cons, Bool.or_eq_true]
    exact .inr h

theorem mayMove_let {id : Nat} (he : e.isForward = false) (hl : lastForward t = some id)
    (h : lets id e = true) : mayMove lets (e :: t) = true := by
  simp [mayMove, lastForward_cons he, sinceForward_cons he, hl, h]

theorem sticky_cons (he : e.isForward = false) : sticky lets (e :: t) = sticky lets t := by
  cases e with
  | sent c m reply fromClient =>
    cases fromClient with
    | false => rfl
    | true => cases he
  | _ => rfl

theorem mayMove_mono {lets' : Nat → Event → Bool}
    (h : ∀ e ∈ t, ∀ id, lets id e = true → lets' id e = true) (ht : mayMove lets t = true) :
    mayMove lets' t = true := by
  unfold mayMove at ht ⊢
  cases hl : lastForward t with
  | none => rfl
  | some id =>
    rw [hl] at ht
    obtain ⟨e, he, hlets⟩ := List.any_eq_true.mp ht
    have hmem : e ∈ t := (List.takeWhile_prefix _).subset he
    exact List.any_eq_true.mpr ⟨e, he, h e hmem id hlets⟩

theorem sticky_mono {lets' : Nat → Event → Bool}
    (h : ∀ e ∈ t, ∀ id, lets id e = true → lets' id e = true) (ht : sticky lets t = true) :
    sticky lets' t = true := by
  induction t with
  | nil => rfl
  | cons e t ih =>
    have htail : ∀ e' ∈ t, ∀ id, lets id e' = true → lets' id e' = true :=
      fun e' he' => h e' (List.mem_cons_of_mem e he')
    cases e with
    | sent c m reply fromClient =>
      cases fromClient with
      | false => exact ih htail ht
      | true =>
        simp only [sticky, Bool.and_eq_true, Bool.or_eq_true] at ht ⊢
        exact ⟨ht.1.imp (mayMove_mono htail) id, ih htail ht.2⟩
    | _ => exact ih htail ht

end Traces

/-! ## Serving -/

/-- The invariant while a connection is held. -/
structure Seated (w : World) : Prop where
  session : w.client.transactionMode = false
  stuck : sticky Event.leftByTimeout w.trace = true
  seat : mayMove Event.leftByTimeout w.trace = true ∨ lastForward w.trace = some w.conn.id

/-- Between connections the client may go anywhere. -/
structure Roaming (w : World) : Prop where
  session : w.client.transactionMode = false
  stuck : sticky Event.leftByTimeout w.trace = true
  free : mayMove Event.leftByTimeout w.trace = true

variable (fuel : Nat) (pool : ConnectionPool) (a : Address) {e : Event} {w w' : World}

theorem Seated.step (hw : Seated w) (htrace : w'.trace = e :: w.trace)
    (he : e.isForward = false) (hclient : w'.client = w.client) (hid : w'.conn.id = w.conn.id) :
    Seated w' := by
  refine ⟨hclient ▸ hw.session, ?_, ?_⟩
  · rw [htrace, sticky_cons he]
    exact hw.stuck
  · rw [htrace, lastForward_cons he, hid]
    exact hw.seat.imp (mayMove_cons he) id

theorem Roaming.step (hw : Roaming w) (htrace : w'.trace = e :: w.trace)
    (he : e.isForward = false) (hclient : w'.client = w.client) : Roaming w' := by
  refine ⟨hclient ▸ hw.session, ?_, ?_⟩
  · rw [htrace, sticky_cons he]
    exact hw.stuck
  · rw [htrace]
    exact mayMove_cons he hw.free

theorem Move.seated {p : Scope} (h : Move p w w') (hw : Seated w) : Seated w' := by
  cases h with
  | still h =>
    cases h with
    | input rest => exact ⟨hw.session, hw.stuck, hw.seat⟩
    | note e he => exact hw.step rfl (Event.isForward_note he) rfl rfl
    | client c hc => exact ⟨hc.transactionMode.trans hw.session, hw.stuck, hw.seat⟩
  | server s _ => exact ⟨hw.session, hw.stuck, hw.seat⟩
  | sent m reply fromClient _ =>
    cases fromClient with
    | false => exact hw.step rfl rfl rfl rfl
    | true =>
      refine ⟨hw.session, ?_, .inr rfl⟩
      change ((mayMove Event.leftByTimeout w.trace ||
        decide (lastForward w.trace = some w.conn.id)) && sticky Event.leftByTimeout w.trace) = true
      rw [hw.stuck, Bool.and_true, Bool.or_eq_true, decide_eq_true_iff]
      exact hw.seat
  | _ => exact hw.step rfl rfl rfl rfl

theorem Move.roaming {r : Bool} (h : Move ⟨false, r⟩ w w') (hw : Roaming w) : Roaming w' := by
  cases h with
  | still h =>
    cases h with
    | input rest => exact ⟨hw.session, hw.stuck, hw.free⟩
    | note e he => exact hw.step rfl (Event.isForward_note he) rfl
    | client c hc => exact ⟨hc.transactionMode.trans hw.session, hw.stuck, hw.free⟩
  | server s _ => exact ⟨hw.session, hw.stuck, hw.free⟩
  | sent m reply fromClient hforward =>
    cases fromClient with
    | false => exact hw.step rfl rfl rfl
    | true => cases hforward rfl
  | _ => exact hw.step rfl rfl rfl

/-- The loop is left for the end of a transaction in transaction mode only. -/
def OverInMode (exit : Option Exit) (w : World) : Prop :=
  exit = some .transactionOver → w.client.transactionMode = true

theorem leaveIfOver_inMode (isQuery : Bool) : Returns OverInMode (leaveIfOver isQuery) := by
  intro w
  change wp (if w.conn.server.inTransaction = true then pure none else _) _ _ w
  rw [wp_ite]
  refine ⟨fun _ => nofun, fun _ => ?_⟩
  -- Two statistics, then the mode decides.
  change wp (if w.client.transactionMode = true then _ else _) _ _ { w with
    trace := .stat .serverTransaction :: .stat .transaction :: w.trace }
  rw [wp_ite]
  refine ⟨fun hmode => ?_, fun _ => nofun⟩
  cases isQuery with
  | false => exact fun _ => hmode
  | true => exact fun _ => hmode

theorem transactionLoop_inMode (idleTimeout : Nat) (pool : ConnectionPool) (a : Address)
    (initial : Option Message) :
    Returns (fun exit => OverInMode (some exit))
      (repeatUntil .pending fuel (transactionTurn fuel idleTimeout pool a) initial) :=
  transactionLoop_returns fuel idleTimeout pool a
    (fun m => dispatch_returns fuel pool a m (fun _ => nofun) leaveIfOver_inMode (fun _ _ => nofun))
    (fun _ => nofun) initial

theorem Seated.timedOut (hw : Seated w) : Roaming (w.after (.left w.conn .idleTimeout)) := by
  have hleft : Seated (w.after (.left w.conn .idleTimeout)) := hw.step rfl rfl rfl rfl
  refine ⟨hleft.session, hleft.stuck, ?_⟩
  rcases hw.seat with hfree | hlast
  · exact mayMove_cons rfl hfree
  · exact mayMove_let rfl hlast (by simp [Event.leftByTimeout])

/-- After anything but `Terminate` the client may go elsewhere: the idle timeout let it go. -/
theorem serveHeld_roaming (m : Message) (hw : Seated w) :
    wp (serveHeld fuel pool a m) (fun exit w' => exit ≠ .finished → Roaming w')
      (fun _ _ => True) w := by
  refine serveHeld_kept_rule (fun _ _ => Move.seated)
    (fun idleTimeout => (transactionLoop_closes fuel idleTimeout pool a (some m)).and
      (transactionLoop_inMode fuel idleTimeout pool a (some m))) (fun _ _ _ => trivial) ?_ hw
  rintro exit w₃ h₃ ⟨hcloses, hmodes⟩
  cases exit with
  | transactionOver =>
    have hmode := hmodes rfl
    rw [h₃.session] at hmode
    cases hmode
  | idleTimeout =>
    have hkept := (checkin_runs (S := Move ⟨false, true⟩) fuel .idleTimeout).preserves
      (fun _ _ => Move.roaming) _ h₃.timedOut
    exact wp_weaken hkept (fun _ _ h _ => h)
  | finished => exact fun h => absurd rfl h
  | _ => exact hcloses.elim

/-! ## Whole sessions -/

theorem Pooling.roaming (h : Pooling w w') (hw : Roaming w) : Roaming w' := by
  cases h with
  | move h => exact h.roaming hw
  | _ => exact hw.step rfl rfl rfl

theorem Route.roaming (h : Route w w') (hw : Roaming w) : Roaming w' := by
  cases h with
  | pooling h => exact h.roaming hw
  | message m => exact hw.step rfl rfl rfl
  | router r => exact ⟨hw.session, hw.stuck, hw.free⟩
  | routing e he =>
    refine hw.step rfl ?_ rfl
    cases e with
    | sent c m reply fromClient => cases he
    | _ => rfl

/-- Nothing went elsewhere so far. -/
def Stuck (w : World) : Prop :=
  sticky Event.leftByTimeout w.trace = true

theorem Stuck.step (hw : Stuck w) (htrace : w'.trace = e :: w.trace)
    (he : e.isForward = false) : Stuck w' := by
  unfold Stuck
  rw [htrace, sticky_cons he]
  exact hw

theorem serve_roaming (m : Message) (w : World) (hw : Roaming w) :
    wp (serve fuel pool a m) (fun fin w' => if fin then Stuck w' else Roaming w')
      (fun _ => Stuck) w := by
  have hseated : Seated w := ⟨hw.session, hw.stuck, .inl hw.free⟩
  have hkept := (serveHeld_runs (S := Move ⟨true, true⟩) fuel pool a m).preserves
    (fun _ _ => Move.seated) w hseated
  have hstuck : ∀ {w' : World} exit, Seated w' → Stuck (w'.dropped exit) := fun _ h =>
    Stuck.step (w := _) h.stuck rfl rfl
  refine serve_rule (wp_and hkept (serveHeld_roaming fuel pool a m hseated)) ?_ ?_ ?_ ?_ ?_
  · exact fun exit w' h hexit => (h.2 hexit).step rfl rfl rfl
  · exact fun w' h => hstuck _ h.1
  · exact fun w' h => h.1.stuck
  · exact fun w' h => hstuck _ h.1
  · exact fun stop w' h _ _ => hstuck _ h.1

theorem entrypoint_stuck (ext : Externals) (client : Client)
    (hsession : client.transactionMode = false) (map : ClientServerMap) (script : List Input) :
    Stuck (final (clientEntrypoint fuel ext) (.start client map script)) := by
  refine entrypoint_invariant (I := Stuck) fuel ext (fun w h => h.step rfl rfl rfl)
    (handle_invariant fuel ext (fun _ _ => Route.roaming) (fun _ h => h.stuck) (serve_roaming fuel))
    ?_ (fun w h => h.step rfl rfl) _ ⟨hsession, rfl, rfl⟩
  intro w e he hw
  refine hw.step rfl ?_
  cases e with
  | sent c m reply fromClient => cases he
  | _ => rfl

theorem sticky_suffix {lets : Nat → Event → Bool} {t t' : List Event} (h : t <:+ t')
    (ht' : sticky lets t' = true) : sticky lets t = true := by
  obtain ⟨s, rfl⟩ := h
  induction s with
  | nil => exact ht'
  | cons e s ih =>
    refine ih ?_
    cases e with
    | sent c m reply fromClient =>
      cases fromClient with
      | false => exact ht'
      | true => exact (Bool.and_eq_true_iff.mp ht').2
    | _ => exact ht'

/-- In every run of a client in session mode whose idle timeouts all find the server inside a transaction,
the messages go to one connection until such a timeout takes it away. -/
theorem session_keeps_server (client : Client) (hsession : client.transactionMode = false)
    (t : List Event) (h : IsSession client t) (htimeouts : ∀ e ∈ t, e.timesOutInside = true) :
    sticky Event.takenInside t = true := by
  obtain ⟨fuel, ext, map, script, hsuffix⟩ := h
  have hstuck : sticky Event.leftByTimeout t = true :=
    sticky_suffix hsuffix (entrypoint_stuck fuel ext client hsession map script)
  refine sticky_mono ?_ hstuck
  intro e he id hleft
  have hinside := htimeouts e he
  cases e with
  | left c exit =>
    cases exit with
    | idleTimeout => simpa [Event.takenInside] using ⟨of_decide_eq_true hleft, of_decide_eq_true hinside⟩
    | _ => cases hleft
  | _ => cases hleft

namespace Sample

def sessionClient : Client := { client with transactionMode := false }

/-- Two queries with a pause in between, longer than the idle timeout. -/
def pauseScript (status : Char) : List Input :=
  checkout (simpleQuery "SELECT 1") (conn 1) ++ exchange [complete "SELECT 1", ready status] ++
    [.idleTimeout, .clientWrite true] ++
    (if status = 'I' then [] else [.sent [[complete "ROLLBACK", ready 'I']], .arrives, .arrives]) ++
    checkout (simpleQuery "SELECT 2") (conn 2) ++ exchange [complete "SELECT 1", ready 'I']

/-- The connections the messages of the client went to, newest first. -/
def forwards (t : List Event) : List Nat :=
  t.filterMap fun
    | .sent c _ _ true => some c.id
    | _ => none

theorem session_keeps_server_inside :
    sessionClient.transactionMode = false ∧
    sticky Event.takenInside (life sessionClient (pauseScript 'T')).trace = true := by
  refine ⟨rfl, session_keeps_server sessionClient rfl _ (life_session sessionClient _ 0) ?_⟩
  decide +kernel

/-- The pause outside a transaction costs the client its server. -/
theorem idle_session_moves :
    IsSession sessionClient (life sessionClient (pauseScript 'I')).trace ∧
    forwards (life sessionClient (pauseScript 'I')).trace = [2, 1] ∧
    sticky Event.takenInside (life sessionClient (pauseScript 'I')).trace = false ∧
    ((life sessionClient (pauseScript 'I')).trace.filterMap fun
      | .left c .idleTimeout => some (c.id, c.server.inTransaction, decide (c.lastReady = .idle))
      | _ => none) = [(1, false, true)] := by
  refine ⟨life_session sessionClient _ 0, ?_⟩
  decide +kernel

end Sample

end PgCat.Session
