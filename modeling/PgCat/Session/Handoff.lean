import PgCat.Session.Rules

/-!
# Handoff — a transaction stays on one connection

Messages of the client are forwarded to a connection other than the last one only after that
connection was handed over: it was left with status idle as the last one reported, or it was left
because of the idle timeout and `checkin_cleanup` completed a `ROLLBACK` on it.

The flag `in_transaction` is what decides; `Synced` ties it to the last `ReadyForQuery` that was read.
A client keeps the connections synced that it is handed synced, so that any number of clients keep
all connections of the pool synced (`handed_synced`).
-/

namespace PgCat.Session

open Lib Protocol Router

/-! ## Statement -/

/-- A message of the client is sent to a server. -/
def Event.isForward : Event → Bool
  | .sent _ _ _ true => true
  | _ => false

def lastForward : List Event → Option Nat
  | [] => none
  | .sent c _ _ true :: _ => some c.id
  | _ :: t => lastForward t

def sinceForward (t : List Event) : List Event :=
  t.takeWhile fun e => !e.isForward

/-- The loop on connection `id` was left, and the last status it reported was idle. -/
def Event.leftIdle (id : Nat) : Event → Bool
  | .left c .transactionOver => c.id = id && c.lastReady = .idle
  | .left c .idleTimeout => c.id = id && c.lastReady = .idle
  | _ => false

def Event.leftByTimeout (id : Nat) : Event → Bool
  | .left c .idleTimeout => c.id = id
  | _ => false

def Event.rolledBackOn (id : Nat) : Event → Bool
  | .rolledBack c => c.id = id
  | _ => false

/-- A `ROLLBACK` completed on connection `id` after the loop was left because of the idle timeout. -/
def rolledBackAfterTimeout (id : Nat) : List Event → Bool
  | [] => false
  | e :: earlier => e.rolledBackOn id && earlier.any (Event.leftByTimeout id) ||
      rolledBackAfterTimeout id earlier

/-- Connection `id` was given up outside a transaction, or its transaction was rolled back after the
idle timeout. -/
def handedOver (id : Nat) (events : List Event) : Bool :=
  events.any (Event.leftIdle id) || rolledBackAfterTimeout id events

/-- May the next message go to any connection? -/
def free (t : List Event) : Bool :=
  match lastForward t with
  | none => true
  | some id => handedOver id (sinceForward t)

/-- Each message was forwarded to the connection of the message before it, unless that one had been
handed over in between. -/
def linked : List Event → Bool
  | [] => true
  | .sent c _ _ true :: t => (free t || lastForward t = some c.id) && linked t
  | _ :: t => linked t

/-- The transaction flag agrees with the last `ReadyForQuery` that was read. -/
def Synced (c : Conn) : Prop :=
  c.server.inTransaction = (c.lastReady ≠ .idle : Bool)

instance (c : Conn) : Decidable (Synced c) :=
  inferInstanceAs (Decidable (_ = _))

def Event.handsOutSynced : Event → Bool
  | .checkedOut c => decide (Synced c)
  | _ => true

/-- Every connection handed out so far was synced. -/
def Relied (t : List Event) : Prop :=
  ∀ e ∈ t, e.handsOutSynced = true

/-- A message is forwarded where it may go, and a connection is given up synced. -/
def Event.keepsTo : Event → List Event → Bool
  | .sent c _ _ true, t => free t || lastForward t = some c.id
  | .dropped c _, _ => decide (Synced c)
  | _, _ => true

/-! ## Traces -/

section Traces

variable {e : Event} {t : List Event}

theorem lastForward_cons (he : e.isForward = false) : lastForward (e :: t) = lastForward t := by
  cases e with
  | sent c m reply fromClient =>
    cases fromClient with
    | false => rfl
    | true => cases he
  | _ => rfl

theorem sinceForward_cons (he : e.isForward = false) : sinceForward (e :: t) = e :: sinceForward t := by
  simp [sinceForward, he]

theorem linked_of_keepsTo (h : ∀ e t', e :: t' <:+ t → e.keepsTo t' = true) : linked t = true := by
  induction t with
  | nil => rfl
  | cons e t ih =>
    have hrest : linked t = true :=
      ih fun e' t' hsuffix => h e' t' (hsuffix.trans (List.suffix_cons e t))
    have he := h e t List.suffix_rfl
    cases e with
    | sent c m reply fromClient =>
      cases fromClient with
      | false => exact hrest
      | true =>
        change ((free t || decide (lastForward t = some c.id)) && linked t) = true
        rw [hrest, Bool.and_true]
        exact he
    | _ => exact hrest

theorem handedOver_cons {id : Nat} {es : List Event} (h : handedOver id es = true) :
    handedOver id (e :: es) = true := by
  simp only [handedOver, rolledBackAfterTimeout, List.any_cons, Bool.or_eq_true] at h ⊢
  exact h.imp .inr .inr

theorem free_cons (he : e.isForward = false) (h : free t = true) : free (e :: t) = true := by
  unfold free at h ⊢
  rw [lastForward_cons he, sinceForward_cons he]
  cases hl : lastForward t with
  | none => rfl
  | some id =>
    rw [hl] at h
    exact handedOver_cons h

theorem free_left {id : Nat} (hl : lastForward t = some id) (he : e.isForward = false)
    (h : e.leftIdle id = true) : free (e :: t) = true := by
  unfold free
  rw [lastForward_cons he, hl, sinceForward_cons he]
  simp [handedOver, h]

theorem free_rolledBack {id : Nat} (hl : lastForward t = some id)
    (ht : (sinceForward t).any (Event.leftByTimeout id) = true) (he : e.isForward = false)
    (h : e.rolledBackOn id = true) : free (e :: t) = true := by
  unfold free
  rw [lastForward_cons he, hl, sinceForward_cons he]
  simp [handedOver, rolledBackAfterTimeout, ht, h]

end Traces

/-! ## Moves -/

theorem Synced.taken {c : Conn} (h : Synced c) (m : Message) (rest : List Message) :
    Synced (c.taken m rest) := by
  change (c.server.take m).1.inTransaction = (m.readyStatus.getD c.lastReady ≠ .idle : Bool)
  rcases c.server.take_cases m with ⟨t, ht, _, hflag, _⟩ | ⟨hnone, _, hflag, _⟩ | ⟨hnone, _, hflag, _⟩
  · rw [hflag, ht]
    rfl
  · rw [hflag, hnone]
    exact h
  · rw [hflag, hnone]
    exact h

/-- While it was handed synced connections only, the client kept to them. -/
def Checked (w : World) : Prop :=
  w.Each fun e t => Relied t → e.keepsTo t = true

/-- The invariant while a connection is held. -/
structure Holding (w : World) : Prop where
  synced : Synced w.conn
  checked : Checked w
  bound : free w.trace = true ∨ lastForward w.trace = some w.conn.id

variable (fuel : Nat) (exit : Exit) {e : Event} {t : List Event} {w w' : World}

theorem Holding.step (h : Holding w) (htrace : w'.trace = e :: w.trace)
    (he : e.isForward = false) (hkeeps : e.keepsTo w.trace = true) (hsynced : Synced w'.conn)
    (hid : w'.conn.id = w.conn.id) : Holding w' := by
  refine ⟨hsynced, h.checked.cons htrace fun _ => hkeeps, ?_⟩
  rw [htrace, lastForward_cons he, hid]
  exact h.bound.imp (free_cons he) id

theorem Event.isForward_note (he : e.isNote = true) : e.isForward = false := by
  cases e with
  | sent c m reply fromClient => cases he
  | _ => rfl

theorem Event.keepsTo_note (he : e.isNote = true) (t : List Event) : e.keepsTo t = true := by
  cases e with
  | sent c m reply fromClient => cases he
  | dropped c exit => cases he
  | _ => rfl

theorem Still.holding (h : Still w w') (hw : Holding w) : Holding w' := by
  cases h with
  | input rest | client c _ => exact ⟨hw.synced, hw.checked, hw.bound⟩
  | note e he =>
    exact hw.step rfl (Event.isForward_note he) (Event.keepsTo_note he _) hw.synced rfl

theorem Move.holding {p : Scope} (h : Move p w w') (hw : Holding w) : Holding w' := by
  cases h with
  | still h => exact h.holding hw
  | server s hs =>
    refine ⟨?_, hw.checked, hw.bound⟩
    change s.inTransaction = _
    rw [hs.inTransaction]
    exact hw.synced
  | message m _ | claimed | released => exact hw.step rfl rfl rfl hw.synced rfl
  | sent m reply fromClient _ =>
    cases fromClient with
    | false => exact hw.step rfl rfl rfl hw.synced rfl
    | true =>
      refine ⟨hw.synced, hw.checked.cons rfl fun _ => ?_, .inr rfl⟩
      change (free w.trace || decide (lastForward w.trace = some w.conn.id)) = true
      rcases hw.bound with hfree | hlast
      · simp [hfree]
      · simp [hlast]
  | received m rest _ => exact hw.step rfl rfl rfl (hw.synced.taken m rest) rfl

/-! ## Giving a connection up -/

theorem Move.keeps {P : List Event → Nat → Prop} (h : Move ⟨false, false⟩ w w')
    (hP : ∀ e t id, e.isForward = false → P t id → P (e :: t) id) (hw : P w.trace w.conn.id) :
    P w'.trace w'.conn.id := by
  cases h with
  | still h =>
    cases h with
    | input rest => exact hw
    | note e he => exact hP e _ _ (Event.isForward_note he) hw
    | client c _ => exact hw
  | server s _ => exact hw
  | message m hb => cases hb
  | sent m reply fromClient hb =>
    cases fromClient with
    | false => exact hP _ _ _ rfl hw
    | true => cases hb rfl
  | received m rest _ | claimed | released => exact hP _ _ _ rfl hw

theorem Move.keepsFree (h : Move ⟨false, false⟩ w w') (hw : free w.trace = true) : free w'.trace = true :=
  h.keeps (P := fun t _ => free t = true) (fun _ _ _ => free_cons) hw

/-- The client was idle for too long on connection `id`, the one of its last message. -/
def TimedOut (t : List Event) (id : Nat) : Prop :=
  free t = true ∨
    lastForward t = some id ∧ (sinceForward t).any (Event.leftByTimeout id) = true

theorem TimedOut.cons (e : Event) (t : List Event) (id : Nat) (he : e.isForward = false)
    (h : TimedOut t id) : TimedOut (e :: t) id := by
  unfold TimedOut
  rw [lastForward_cons he, sinceForward_cons he]
  refine h.imp (free_cons he) fun hlast => ⟨hlast.1, ?_⟩
  rw [List.any_cons, hlast.2, Bool.or_true]

theorem TimedOut.rolledBack {c : Conn} (h : TimedOut t c.id) : free (.rolledBack c :: t) = true := by
  rcases h with hfree | ⟨hlast, htimeout⟩
  · exact free_cons rfl hfree
  · exact free_rolledBack hlast htimeout rfl (by simp [Event.rolledBackOn])

/-- What leaving the loop achieves: the client is free unless the flag calls for a rollback. -/
structure LeftFree (w : World) : Prop where
  closed : w.conn.server.inTransaction = false → free w.trace = true
  opened : w.conn.server.inTransaction = true → TimedOut w.trace w.conn.id

theorem Holding.left {exit : Exit} (hw : Holding w) (hcloses : Closes (some exit) w)
    (hexit : exit ≠ .finished) : LeftFree { w with trace := .left w.conn exit :: w.trace } := by
  have hidle : w.conn.server.inTransaction = false → w.conn.lastReady = .idle := by
    intro h
    have hsynced := hw.synced
    unfold Synced at hsynced
    simpa [h] using hsynced
  have hclosed : exit = .transactionOver ∨ exit = .idleTimeout →
      w.conn.server.inTransaction = false → free (.left w.conn exit :: w.trace) = true := by
    intro he hflag
    rcases hw.bound with hfree | hlast
    · exact free_cons rfl hfree
    · refine free_left hlast rfl ?_
      rcases he with rfl | rfl
      · simp [Event.leftIdle, hidle hflag]
      · simp [Event.leftIdle, hidle hflag]
  cases exit with
  | transactionOver =>
    have hflag : w.conn.server.inTransaction = false := hcloses
    exact ⟨hclosed (.inl rfl), fun h => by simp [hflag] at h⟩
  | idleTimeout =>
    refine ⟨hclosed (.inr rfl), fun _ => ?_⟩
    rcases hw.bound with hfree | hlast
    · exact .inl (free_cons rfl hfree)
    · refine .inr ⟨hlast, ?_⟩
      rw [sinceForward_cons rfl, List.any_cons]
      simp [Event.leftByTimeout]
  | finished => exact absurd rfl hexit
  | _ => exact hcloses.elim

theorem rollback_frees (w : World) (hw : TimedOut w.trace w.conn.id) :
    wp (rollback fuel) (fun _ w' => free w'.trace = true) (fun _ _ => True) w := by
  have hkept := (query_runs (S := Move ⟨false, false⟩) fuel false "ROLLBACK").preserves
    (I := fun w => TimedOut w.trace w.conn.id) (fun _ _ h => h.keeps TimedOut.cons) w hw
  unfold rollback
  exact wp_then hkept (fun _ _ h => h.rolledBack)

theorem discardAll_keepsFree (w : World) (hw : free w.trace = true) :
    wp (discardAll fuel) (fun _ w' => free w'.trace = true) (fun _ _ => True) w :=
  wp_weaken ((discardAll_runs (S := Move ⟨false, false⟩) fuel).preserves (I := fun w => free w.trace = true)
      (fun _ _ => Move.keepsFree) w hw)
    (fun _ _ h => h)

theorem checkinCleanup_frees (w : World) (hw : LeftFree w) :
    wp (checkinCleanup fuel) (fun _ w' => free w'.trace = true) (fun _ _ => True) w := by
  change wp (runIf (w.conn.server.inTransaction = true) (rollback fuel) >>= _) _ _ w
  have hrollback : wp (runIf (w.conn.server.inTransaction = true) (rollback fuel))
      (fun _ w' => free w'.trace = true) (fun _ _ => True) w := by
    unfold runIf
    rw [wp_ite]
    exact ⟨fun h => rollback_frees fuel w (hw.opened h),
      fun h => hw.closed (by simpa using h)⟩
  refine wp_seq hrollback ?_
  intro _ w₁ h₁
  change wp (runIf (w₁.conn.server.needsCleanup = true) (discardAll fuel) >>= _) _ _ w₁
  have hdiscard : wp (runIf (w₁.conn.server.needsCleanup = true) (discardAll fuel))
      (fun _ w' => free w'.trace = true) (fun _ _ => True) w₁ := by
    unfold runIf
    rw [wp_ite]
    exact ⟨fun _ => discardAll_keepsFree fuel w₁ h₁, fun _ => h₁⟩
  refine wp_seq hdiscard ?_
  intro _ w₂ h₂
  exact free_cons rfl h₂

theorem checkin_frees (w : World) (hw : exit ≠ .finished → LeftFree w) :
    wp (checkin fuel exit) (fun _ w' => exit ≠ .finished → free w'.trace = true)
      (fun _ _ => True) w := by
  by_cases hexit : exit = .finished
  · exact wp_imp wp_true (fun _ _ _ h => absurd hexit h)
  · unfold checkin
    rw [if_neg hexit]
    refine wp_seq (checkinCleanup_frees fuel w (hw hexit)) ?_
    -- Two statistics and the release follow.
    intro _ w₁ h₁ _
    exact free_cons rfl (free_cons rfl (free_cons rfl h₁))

/-- Whenever the client goes on after a connection, it is free to use any other. -/
theorem serveHeld_frees (pool : ConnectionPool) (a : Address) (m : Message) (w : World) (hw : Holding w) :
    wp (serveHeld fuel pool a m) (fun exit w' => exit ≠ .finished → free w'.trace = true)
      (fun _ _ => True) w := by
  refine serveHeld_kept_rule (C := fun exit => Closes (some exit)) (fun _ _ => Move.holding)
    (fun idleTimeout => transactionLoop_closes fuel idleTimeout pool a (some m)) (fun _ _ _ => trivial) ?_ hw
  intro exit w' h hcloses
  exact checkin_frees fuel exit (w'.after (.left w'.conn exit)) (h.left hcloses)

/-! ## Whole sessions -/

/-- Between transactions the client is free. -/
structure Outside (w : World) : Prop where
  checked : Checked w
  synced : Relied w.trace → Synced w.conn
  free : Relied w.trace → free w.trace = true

theorem Relied.tail (h : Relied (e :: t)) : Relied t :=
  fun e' he' => h e' (List.mem_cons_of_mem e he')

theorem Outside.holding (hw : Outside w) (hr : Relied w.trace) : Holding w :=
  ⟨hw.synced hr, hw.checked, .inl (hw.free hr)⟩

theorem Outside.step (h : Outside w) (htrace : w'.trace = e :: w.trace)
    (he : e.isForward = false) (hkeeps : Relied w.trace → e.keepsTo w.trace = true)
    (hconn : w'.conn = w.conn) : Outside w' := by
  refine ⟨h.checked.cons htrace hkeeps, ?_, ?_⟩
  · rw [htrace, hconn]
    exact fun hr => h.synced hr.tail
  · rw [htrace]
    exact fun hr => free_cons he (h.free hr.tail)

theorem Outside.dropped (hw : Outside w) : Outside (w.dropped exit) :=
  hw.step rfl rfl (fun hr => by simpa [Event.keepsTo] using hw.synced hr) rfl

theorem Move.outside (h : Move ⟨false, false⟩ w w') (hw : Outside w) : Outside w' := by
  have hrelied : Relied w'.trace → Relied w.trace := h.all
  refine ⟨?_, fun hr => (h.holding (hw.holding (hrelied hr))).synced,
    fun hr => h.keepsFree (hw.free (hrelied hr))⟩
  rcases h.trace with htrace | ⟨e, he, htrace⟩
  · exact fun e t hsuffix => hw.checked e t (htrace ▸ hsuffix)
  · exact hw.checked.cons htrace fun hr => (h.holding (hw.holding hr)).checked e w.trace
      (htrace ▸ List.suffix_rfl) hr

theorem Pooling.outside (h : Pooling w w') (hw : Outside w) : Outside w' := by
  cases h with
  | move h => exact h.outside hw
  | checkedOut c _ =>
    refine ⟨hw.checked.cons rfl fun _ => rfl, fun hr => ?_, fun hr => free_cons rfl (hw.free hr.tail)⟩
    simpa [Event.handsOutSynced] using hr (.checkedOut c) List.mem_cons_self
  | dropped exit _ => exact hw.dropped exit

theorem Route.outside (h : Route w w') (hw : Outside w) : Outside w' := by
  cases h with
  | pooling h => exact h.outside hw
  | message m => exact hw.step rfl rfl (fun _ => rfl) rfl
  | router r => exact ⟨hw.checked, hw.synced, hw.free⟩
  | routing e he =>
    cases e with
    | sent c m reply fromClient => cases he
    | dropped c exit => cases he
    | _ => exact hw.step rfl rfl (fun _ => rfl) rfl

/-- Some connection was handed out unsynced: nothing is asked of the client any more. -/
structure Unrelied (w : World) : Prop where
  checked : Checked w
  missed : ¬ Relied w.trace

theorem Unrelied.cons {w w' : World} {e : Event} (h : Unrelied w)
    (htrace : w'.trace = e :: w.trace) : Unrelied w' := by
  refine ⟨h.checked.cons htrace fun hr => absurd hr h.missed, ?_⟩
  rw [htrace]
  exact fun hr => h.missed hr.tail

theorem Unrelied.outside (h : Unrelied w) : Outside w :=
  ⟨h.checked, fun hr => absurd hr h.missed, fun hr => absurd hr h.missed⟩

theorem Move.unrelied {p : Scope} (h : Move p w w') (hw : Unrelied w) : Unrelied w' := by
  rcases h.trace with htrace | ⟨e, _, htrace⟩
  · refine ⟨fun e t hsuffix => hw.checked e t (htrace ▸ hsuffix), ?_⟩
    rw [htrace]
    exact hw.missed
  · exact hw.cons htrace

theorem Holding.dropped (hw : Holding w) : Holding (w.dropped exit) :=
  hw.step rfl rfl (by simpa [Event.keepsTo] using hw.synced) hw.synced rfl

theorem serve_outside (pool : ConnectionPool) (a : Address) (m : Message) (w : World) (hw : Outside w) :
    wp (serve fuel pool a m) (fun fin w' => if fin then Checked w' else Outside w')
      (fun _ => Checked) w := by
  by_cases hr : Relied w.trace
  · have hholding := hw.holding hr
    have hkept := (serveHeld_runs (S := Move ⟨true, true⟩) fuel pool a m).preserves (fun _ _ => Move.holding) w hholding
    refine serve_rule (wp_and hkept (serveHeld_frees fuel pool a m w hholding)) ?_ ?_ ?_ ?_ ?_
    · rintro exit w' ⟨h, hfree⟩ hexit
      have hdropped := h.dropped exit
      exact ⟨hdropped.checked, fun _ => hdropped.synced, fun _ => free_cons rfl (hfree hexit)⟩
    · exact fun w' h => (h.1.dropped _).checked
    · exact fun w' h => h.1.checked
    · exact fun w' h => (h.1.dropped _).checked
    · exact fun stop w' h _ _ => (h.1.dropped _).checked
  · have hkept := (serveHeld_runs (S := Move ⟨true, true⟩) fuel pool a m).preserves (fun _ _ => Move.unrelied) w
      ⟨hw.checked, hr⟩
    have hdrop : ∀ w' exit, Unrelied w' → Unrelied (w'.dropped exit) := fun w' exit h => h.cons rfl
    refine serve_rule hkept ?_ ?_ ?_ ?_ ?_
    · exact fun exit w' h _ => (hdrop w' exit h).outside
    · exact fun w' h => (hdrop w' _ h).checked
    · exact fun w' h => h.checked
    · exact fun w' h => (hdrop w' _ h).checked
    · exact fun stop w' h _ _ => (hdrop w' _ h).checked

theorem entrypoint_checked (ext : Externals) (client : Client) (map : ClientServerMap) (script : List Input) :
    Checked (final (clientEntrypoint fuel ext) (.start client map script)) := by
  have hstart : Outside (.start client map script) := by
    refine ⟨fun e t hsuffix => ?_, fun _ => rfl, fun _ => rfl⟩
    cases List.suffix_nil.mp hsuffix
  have hreport : ∀ w e, e.isReport = true → Checked w → Checked (w.after e) := by
    intro w e he hw
    cases e with
    | drain n | stat s => exact hw.cons rfl fun _ => rfl
    | _ => cases he
  exact entrypoint_invariant fuel ext (fun w h => h.step rfl rfl (fun _ => rfl) rfl)
    (handle_invariant fuel ext (fun _ _ => Route.outside) (fun _ => Outside.checked)
      (serve_outside fuel))
    hreport (fun w h => h.cons rfl fun _ => rfl) _ hstart

theorem IsSession.keepsTo {client : Client}
    (h : IsSession client (e :: t)) (hr : Relied t) : e.keepsTo t = true := by
  rcases h with ⟨fuel, ext, map, script, hsuffix⟩
  exact entrypoint_checked fuel ext client map script e t hsuffix hr

/-! ## Many clients -/

section Clients

variable {ι : Type}

/-- As `Server::startup` leaves it. -/
def Conn.isNew (c : Conn) : Bool :=
  !c.server.inTransaction && c.lastReady = .idle

/-- The connection was given up, and nothing was read from it since. -/
def Event.gaveBack (c : Conn) : Event → Bool
  | .dropped c' _ => c'.server = c.server && c'.lastReady = c.lastReady
  | _ => false

/-- The pool hands out connections that are new or that some client has given back. -/
def handsBack : List (ι × Event) → Bool
  | [] => true
  | (_, .checkedOut c) :: h => (c.isNew || h.any fun x => x.2.gaveBack c) && handsBack h
  | _ :: h => handsBack h

theorem handsBack_tail {x : ι × Event} {h : List (ι × Event)} (hpool : handsBack (x :: h) = true) :
    handsBack h = true := by
  rcases x with ⟨i, e⟩
  cases e with
  | checkedOut c => exact (Bool.and_eq_true_iff.mp hpool).2
  | _ => exact hpool

/-- A connection is synced when it is handed out and when it is given up. -/
def Event.synced : Event → Prop
  | .checkedOut c => Synced c
  | .dropped c _ => Synced c
  | _ => True

theorem Event.synced_of_gaveBack {c : Conn} {e : Event} (h : e.gaveBack c = true) (he : e.synced) :
    Synced c := by
  cases e with
  | dropped c' exit =>
    simp only [Event.gaveBack, Bool.and_eq_true, decide_eq_true_eq] at h
    change c'.server.inTransaction = (c'.lastReady ≠ .idle : Bool) at he
    rw [h.1, h.2] at he
    exact he
  | _ => cases h

theorem relied_of_synced {t : List Event} (h : ∀ e ∈ t, e.synced) : Relied t := by
  intro e he
  have hsynced := h e he
  cases e with
  | checkedOut c => exact decide_eq_true hsynced
  | _ => rfl

variable [DecidableEq ι] {client : ι → Client}

/-- The clients keep the connections of the pool synced for each other. -/
theorem handed_synced (h : List (ι × Event)) (hsessions : ∀ i, IsSession (client i) (steps i h))
    (hpool : handsBack h = true) : ∀ x ∈ h, x.2.synced := by
  induction h with
  | nil =>
    intro x hx
    cases hx
  | cons x h ih =>
    have hbefore := ih (fun i => (hsessions i).suffix (steps_tail i x h)) (handsBack_tail hpool)
    have hx : x.2.synced := by
      rcases x with ⟨i, e⟩
      cases e with
      | checkedOut c =>
        have hc := (Bool.and_eq_true_iff.mp hpool).1
        rcases Bool.or_eq_true_iff.mp hc with hnew | hback
        · simp only [Conn.isNew, Bool.and_eq_true, Bool.not_eq_true', decide_eq_true_eq] at hnew
          simp [Event.synced, Synced, hnew.1, hnew.2]
        · rcases List.any_eq_true.mp hback with ⟨y, hy, hgave⟩
          exact Event.synced_of_gaveBack hgave (hbefore y hy)
      | dropped c exit =>
        have hsession := hsessions i
        rw [steps_self] at hsession
        have hrelied := relied_of_synced fun e he => hbefore (i, e) (mem_of_steps he)
        have hkeeps := hsession.keepsTo hrelied
        exact of_decide_eq_true (p := Synced c) hkeeps
      | _ => trivial
    intro y hy
    rcases List.mem_cons.mp hy with rfl | hy
    · exact hx
    · exact hbefore y hy

/-- However the clients' steps interleave, each forwards to another connection only after it has handed
the last one over. -/
theorem forwarded_after_handover (client : ι → Client) (h : List (ι × Event))
    (hsessions : ∀ i, IsSession (client i) (steps i h)) (hpool : handsBack h = true) (i : ι) :
    linked (steps i h) = true := by
  have hrelied : Relied (steps i h) :=
    relied_of_synced fun e he => handed_synced h hsessions hpool (i, e) (mem_of_steps he)
  refine linked_of_keepsTo fun e t hsuffix => ?_
  refine ((hsessions i).suffix hsuffix).keepsTo fun e' he' => ?_
  exact hrelied e' (hsuffix.subset (List.mem_cons_of_mem e he'))

end Clients

/-- A transaction on connection 1 is rolled back after the idle timeout; a query on connection 2
follows. -/
def timeoutScript : List Input :=
  Sample.checkout (simpleQuery "BEGIN") (Sample.conn 1) ++
    Sample.exchange [Sample.complete "BEGIN", Sample.ready 'T'] ++
    [.idleTimeout, .clientWrite true,
      .sent [[Sample.complete "ROLLBACK", Sample.ready 'I']], .arrives, .arrives] ++
    Sample.checkout (simpleQuery "SELECT 1") (Sample.conn 2) ++
    Sample.exchange [Sample.complete "SELECT 0", Sample.ready 'I']

def timeoutHistory : List (Unit × Event) :=
  only () (Sample.life Sample.client timeoutScript).trace

theorem timeout_handed_over :
    ((steps () timeoutHistory).filterMap fun
      | .sent c _ _ true => some c.id
      | _ => none) = [2, 1] ∧ linked (steps () timeoutHistory) = true := by
  refine ⟨by decide +kernel, ?_⟩
  refine forwarded_after_handover (fun _ => Sample.client) timeoutHistory (fun i => ?_)
    (by decide +kernel) ()
  have hsteps : steps i timeoutHistory = (Sample.life Sample.client timeoutScript).trace.drop 0 := by
    simp [timeoutHistory, steps_only]
  rw [hsteps]
  exact Sample.life_session Sample.client timeoutScript 0

end PgCat.Session
