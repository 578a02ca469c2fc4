import PgCat.Session.Gauges

/-!
# Departure — how often a registered client is unregistered

A client registers once and should be unregistered once when it leaves.  `handle` reports the departure
itself on `Terminate`, on shutdown, and when a read fails while it serves the client on a connection;
`client_entrypoint` reports it again for every error return of a client that is not an admin.

* An ordinary client is unregistered twice when the failed read finds it with a connection, and once
  however else it leaves.
* An admin is unregistered only if `handle` returns without an error.
-/

namespace PgCat.Session

open Lib Protocol Router

/-! ## Statement -/

/-- Calls of `disconnect` after the client was registered. -/
def disconnects (t : List Event) : Nat :=
  (t.takeWhile fun e => !e.reports .register).countP (Event.reports .disconnect)

/-- Does `CLIENT_STATS` have an entry for the client? -/
def listed : List Event → Bool
  | [] => false
  | .stat .register :: _ => true
  | .stat .disconnect :: _ => false
  | _ :: t => listed t

/-- The client was registered, and taken off the list by a single call. -/
structure UnregisteredOnce (t : List Event) : Prop where
  registered : t.any (Event.reports .register) = true
  once : disconnects t = 1
  unlisted : listed t = false

/-- `handle` returned, with or without an error; it neither panicked nor is it still running. -/
def ended (m : Program Unit) (w : World) : Bool :=
  match m w with
  | .ok _ _ => true
  | .error (.failed _) _ => true
  | .error _ _ => false

def Input.isReadError : Input → Bool
  | .clientGone => true
  | _ => false

/-- The client gives a connection up with an error return of `handle`. -/
def Event.isAbandon : Event → Bool
  | .dropped _ .failed => true
  | _ => false

/-- Failed reads the session has not come to yet. -/
def World.readErrors (w : World) : Nat :=
  w.script.countP Input.isReadError

/-- Fewer than `r` failed reads are left, so one was consumed, and the client had a connection to give
up: it was lost while it was served. -/
def Lost (r : Nat) (w : World) : Prop :=
  w.readErrors < r ∧ w.trace.any Event.isAbandon = true

instance (r : Nat) (w : World) : Decidable (Lost r w) :=
  inferInstanceAs (Decidable (_ ∧ _))

/-! ## Counting calls -/

section Counting

variable {e : Event} {t : List Event}

theorem disconnects_cons (he : e.reports .register = false) :
    disconnects (e :: t) = disconnects t + if e.reports .disconnect then 1 else 0 := by
  simp only [disconnects, List.takeWhile_cons, he, Bool.not_false, if_true, List.countP_cons]

theorem listed_of_disconnects (hr : t.any (Event.reports .register) = true) :
    listed t = decide (disconnects t = 0) := by
  induction t with
  | nil => cases hr
  | cons e t ih =>
    by_cases hregister : e.reports .register = true
    · cases e with
      | stat s =>
        have hs : s = .register := of_decide_eq_true hregister
        subst hs
        rfl
      | _ => cases hregister
    · have hno : e.reports .register = false := by simpa using hregister
      have ht : t.any (Event.reports .register) = true := by simpa [hno] using hr
      rw [disconnects_cons hno]
      cases e with
      | stat s =>
        cases s with
        | register => cases hno
        | disconnect => simp [listed, Event.reports]
        | _ => exact ih ht
      | _ => exact ih ht

end Counting

/-! ## What the trace says of the client -/

/-- Events that unregister the client or give a connection up with an error. -/
def Event.isIncident : Event → Bool
  | .stat .register | .stat .disconnect | .dropped _ .failed => true
  | _ => false

/-- The client is registered, has been unregistered `n` times, and `handle` has not failed on a
connection. -/
structure Attended (n : Nat) (admin : Bool) (w : World) : Prop where
  registered : w.trace.any (Event.reports .register) = true
  disconnects : disconnects w.trace = n
  kept : w.trace.any Event.isAbandon = false
  admin : w.client.admin = admin

variable {n : Nat} {admin : Bool} {w w' : World}

theorem Attended.same (hw : Attended n admin w) (htrace : w'.trace = w.trace)
    (hadmin : w'.client.admin = w.client.admin) : Attended n admin w' :=
  ⟨htrace ▸ hw.registered, htrace ▸ hw.disconnects, htrace ▸ hw.kept, hadmin.trans hw.admin⟩

variable (fuel : Nat) (ext : Externals) (pool : ConnectionPool) (a : Address) (m : Message)
  {E : Stop → World → Prop} {e : Event}

theorem Event.plain_of_isIncident (he : e.isIncident = false) :
    e.reports .register = false ∧ e.reports .disconnect = false ∧ e.isAbandon = false := by
  cases e with
  | stat s => cases s <;> first | exact ⟨rfl, rfl, rfl⟩ | cases he
  | dropped c exit => cases exit <;> first | exact ⟨rfl, rfl, rfl⟩ | cases he
  | _ => exact ⟨rfl, rfl, rfl⟩

theorem Attended.cons {e : Event} (hw : Attended n admin w) (htrace : w'.trace = e :: w.trace)
    (hadmin : w'.client.admin = w.client.admin) (he : e.isIncident = false) :
    Attended n admin w' := by
  obtain ⟨hregister, hdisconnect, habandon⟩ := Event.plain_of_isIncident he
  refine ⟨?_, ?_, ?_, hadmin.trans hw.admin⟩
  · simp [htrace, hw.registered]
  · simp [htrace, disconnects_cons hregister, hdisconnect, hw.disconnects]
  · rw [htrace, List.any_cons, habandon, Bool.false_or]
    exact hw.kept

theorem Attended.disconnect (hw : Attended n admin w)
    (htrace : w'.trace = .stat .disconnect :: w.trace)
    (hadmin : w'.client.admin = w.client.admin) : Attended (n + 1) admin w' := by
  refine ⟨?_, ?_, ?_, hadmin.trans hw.admin⟩
  · simp [htrace, hw.registered]
  · rw [htrace, disconnects_cons rfl, hw.disconnects]
    rfl
  · rw [htrace, List.any_cons]
    exact hw.kept

theorem Event.isIncident_of_isPlain (h : e.isPlain = true) : e.isIncident = false := by
  cases e with
  | stat s => cases s <;> first | rfl | cases h
  | dropped c exit => cases h
  | _ => rfl

theorem Event.isIncident_of_isRouting (h : e.isRouting = true) : e.isIncident = false := by
  cases e with
  | stat s => cases h
  | dropped c exit => cases h
  | _ => rfl

/-- The same, and `r` failed reads are still to come. -/
structure Attending (n : Nat) (admin : Bool) (r : Nat) (w : World) : Prop where
  attended : Attended n admin w
  readErrors : w.readErrors = r

section Attending

variable {r : Nat}

theorem Attending.same (hw : Attending n admin r w) (htrace : w'.trace = w.trace)
    (hadmin : w'.client.admin = w.client.admin) (hscript : w'.script = w.script) : Attending n admin r w' :=
  ⟨hw.attended.same htrace hadmin, (congrArg (List.countP _) hscript).trans hw.readErrors⟩

theorem Attending.cons (hw : Attending n admin r w) (htrace : w'.trace = e :: w.trace)
    (hadmin : w'.client.admin = w.client.admin) (hscript : w'.script = w.script) (he : e.isIncident = false) :
    Attending n admin r w' :=
  ⟨hw.attended.cons htrace hadmin he, (congrArg (List.countP _) hscript).trans hw.readErrors⟩

theorem readErrors_next {i : Input} {rest : List Input} (hscript : w.script = i :: rest) :
    w.readErrors = World.readErrors { w with script := rest } + if i.isReadError then 1 else 0 := by
  simp [World.readErrors, hscript, List.countP_cons]

instance : Remarks (Keeps (Attending n admin r)) where
  input w i rest hscript hi hw := by
    have hread : i.isReadError = false := by
      cases i with
      | clientGone => exact absurd rfl hi
      | _ => rfl
    have hnext := readErrors_next hscript
    rw [hread] at hnext
    exact ⟨hw.attended.same rfl rfl, hnext.symm.trans hw.readErrors⟩
  remark _ _ he hw := hw.cons rfl rfl rfl (Event.isIncident_of_isPlain (Event.isPlain_of_isRemark he))

instance : Answers (Keeps (Attending n admin r)) where
  answered _ _ _ hw := hw.cons rfl rfl rfl rfl

instance : Gauges (Keeps (Attending n admin r)) where
  gauge _ s hs hw := by
    refine hw.cons rfl rfl rfl ?_
    rcases hs with rfl | rfl | rfl
    all_goals rfl
  refused w := by
    refine .single fun hw => ?_
    have hidle : Attending n admin r { w with trace := .stat .idle :: w.trace } := hw.cons rfl rfl rfl rfl
    exact hidle.cons rfl rfl rfl rfl

instance : Clients (Keeps (Attending n admin r)) where
  client _ _ h hw := hw.same rfl h.admin rfl

instance : Hears (Keeps (Attending n admin r)) where
  server _ _ _ hw := hw.same rfl rfl rfl
  received _ _ _ _ hw := hw.cons rfl rfl rfl rfl

instance (fromClient : Bool) : Sends (Keeps (Attending n admin r)) fromClient where
  sent _ _ _ hw := hw.cons rfl rfl rfl rfl

instance : Binds (Keeps (Attending n admin r)) where
  claimed _ hw := hw.cons rfl rfl rfl rfl
  released _ hw := hw.cons rfl rfl rfl rfl

instance : Pools (Keeps (Attending n admin r)) where
  checkedOut _ _ _ hw := hw.cons rfl rfl rfl rfl
  dropped _ exit h hw := by
    refine hw.cons rfl rfl rfl ?_
    rcases h with ⟨rfl, _⟩ | rfl
    all_goals rfl

instance : Routers (Keeps (Attending n admin r)) where
  router _ _ hw := hw.same rfl rfl rfl
  routing _ _ he hw := hw.cons rfl rfl rfl (Event.isIncident_of_isRouting he)

end Attending

/-! ## How `handle` fails -/

/-- `handle` returned an error.  It has reported the departure exactly if the client was lost while it
was served. -/
structure Failed (admin : Bool) (r : Nat) (w : World) : Prop where
  registered : w.trace.any (Event.reports .register) = true
  disconnects : disconnects w.trace = if Lost r w then 1 else 0
  served : Lost r w → admin = false
  admin : w.client.admin = admin

/-- What holds when a part of `handle` stops. -/
def StopsIn (P : World → Prop) (stop : Stop) (w : World) : Prop :=
  match stop with
  | .failed _ => P w
  | _ => True

theorem StopsIn.mono {P Q : World → Prop} (h : ∀ w, P w → Q w) {stop : Stop} {w : World}
    (hw : StopsIn P stop w) : StopsIn Q stop w := by
  cases stop with
  | failed e => exact h w hw
  | _ => trivial

variable {r : Nat}

/-- Without a connection to give up, the client is not lost while it is served. -/
theorem Attended.not_lost (hw : Attended n admin w) : ¬ Lost r w := by
  rintro ⟨_, habandon⟩
  rw [hw.kept] at habandon
  cases habandon

theorem Attended.failed (hw : Attended 0 admin w) : Failed admin r w := by
  refine ⟨hw.registered, ?_, fun hlost => absurd hlost hw.not_lost, hw.admin⟩
  rw [if_neg hw.not_lost]
  exact hw.disconnects

/-- A part of the program that reads nothing from the client and reports no departure. -/
theorem attending {α : Type} {m : Program α} {P : World → Prop} (hP : ∀ w, Attending n admin r w → P w)
    (hm : Runs (Keeps (Attending n admin r)) m) (hw : Attending n admin r w) :
    wp m (fun _ => Attending n admin r) (StopsIn P) w := by
  refine wp_mono (hm.keeps (fun _ _ h => h) w hw) (fun _ _ h => h) ?_
  intro stop w' h
  cases stop with
  | failed e => exact hP w' (h.resolve_left fun hpending => nomatch hpending.1)
  | _ => trivial

/-! ## Up to the checkout -/

theorem awaitMessage_attending (hw : Attending 0 admin r w) :
    wp awaitMessage
      (fun read w' => if read.isSome then Attending 0 admin r w' else Attended 1 admin w')
      (StopsIn (Attended 0 admin)) w := by
  refine awaitMessage_rule (fun _ _ => trivial) (Remarks.input (S := Keeps (Attending 0 admin r))) ?_ ?_ ?_ hw
  · exact fun w rest h => h.attended.same rfl rfl
  · exact fun w m h => h.cons rfl rfl rfl rfl
  · intro w₁ h₁
    refine wp_seq (attending (fun _ h => h.attended) (writeClient_runs _) h₁) ?_
    intro _ w₂ h₂
    exact h₂.attended.disconnect rfl rfl

theorem intake_attending (hw : Attending 0 admin r w) :
    wp (intake ext m)
      (fun i w' => if i = .terminated then Attended 1 admin w' else Attending 0 admin r w')
      (StopsIn (Attended 0 admin)) w := by
  by_cases hm : m.frontend = .terminate
  · unfold intake
    rw [hm]
    exact hw.attended.disconnect rfl rfl
  · have hreturns : Returns (fun i _ => i ≠ .terminated) (intake ext m) := by
      unfold intake
      cases hf : m.frontend with
      | terminate => exact absurd hf hm
      | query | describe | execute => exact .seq fun _ => .ofPure fun _ => nofun
      | parse | bind => exact .seq fun _ => .seq fun _ => .ofPure fun _ => nofun
      | _ => exact .ofPure fun _ => nofun
    have hattending := attending (fun _ h => h.attended) (intake_runs ext m fun h => absurd h hm) hw
    refine wp_mono (wp_and hattending (hreturns w)) ?_ (fun _ _ h => h.1)
    intro i w' h
    rw [if_neg h.2]
    exact h.1

theorem forward_attending (hw : Attending 0 admin r w) :
    wp (forward fuel ext m)
      (Turn.Leaves (Attending 0 admin r) (fun w' => Attending 0 admin r w' ∧ admin = false)
        (Attended 1 admin))
      (StopsIn (Attended 0 admin)) w := by
  have hattending := attending (fun _ h => h.attended) (forward_runs fuel ext m) hw
  -- An admin never comes to a checkout, and this part of a turn does not end the session.
  have hturn : wp (forward fuel ext m)
      (fun turn _ => turn ≠ .returned ∧ (turn = .again ∨ w.client.admin = false))
      (fun _ _ => True) w := by
    have hcheckout : ∀ pool, Returns (fun turn _ => turn ≠ .returned) (checkout fuel pool m) := by
      refine fun pool => .seq fun _ => .seq fun _ => .seq fun _ => .seq fun found => ?_
      cases found with
      | some a => exact .ofPure fun _ => nofun
      | none => exact .seq fun _ => .seq fun _ => .seq fun _ => .ofPure fun _ => nofun
    have hquery : Returns (fun turn _ => turn ≠ .returned) (do
        let pool ← currentPool
        updateSettings m pool
        if ← runCommand ext pool m then pure .again else checkout fuel pool m) := by
      refine .seq fun pool => .seq fun _ => .seq fun isCommand => ?_
      split
      · exact .ofPure fun _ => nofun
      · exact hcheckout pool
    unfold forward
    change wp (if w.client.admin = true then _ else _) _ _ w
    rw [wp_ite]
    constructor
    · intro _
      exact wp_seq wp_true (fun _ _ _ => ⟨nofun, .inl rfl⟩)
    · intro hadmin
      have hordinary : w.client.admin = false := by simpa using hadmin
      exact wp_imp (hquery w) (fun _ _ h => ⟨h, .inr hordinary⟩)
  refine wp_mono (wp_and hattending hturn) ?_ (fun _ _ h => h.1)
  rintro turn w' ⟨hw', hreturned, hserve⟩
  cases turn with
  | again => exact hw'
  | returned => exact absurd rfl hreturned
  | serve pool a m =>
    have hadmin : w.client.admin = false := by simpa using hserve
    exact ⟨hw', hw.attended.admin.symm.trans hadmin⟩

theorem route_attending (hw : Attending 0 admin r w) :
    wp (route fuel ext)
      (Turn.Leaves (Attending 0 admin r) (fun w' => Attending 0 admin r w' ∧ admin = false)
        (Attended 1 admin))
      (StopsIn (Attended 0 admin)) w := by
  rw [route]
  refine wp_seq (awaitMessage_attending hw) ?_
  intro read w₁ h₁
  cases read with
  | none => exact h₁
  | some m =>
    dsimp only
    refine wp_seq (intake_attending ext m h₁) ?_
    intro i w₂ h₂
    cases i with
    | buffered => exact h₂
    | terminated => exact h₂
    | forward => exact forward_attending fuel ext m h₂

/-! ## Serving -/

/-- How serving a client may fail: a failed read of the client was reported, or none was consumed. -/
def Interrupted (r : Nat) (w : World) : Prop :=
  Attending 0 false r w ∨ Attended 1 false w ∧ w.readErrors < r

theorem awaitInTransaction_attending (idleTimeout : Nat) (hw : Attending 0 false r w) :
    wp (awaitInTransaction fuel idleTimeout) (fun _ => Attending 0 false r)
      (StopsIn (Interrupted r)) w := by
  unfold awaitInTransaction
  rw [wp_bind]
  refine next_input trivial fun i rest hscript => ?_
  have hread := readErrors_next hscript
  have hw₁ : Attended 0 false { w with script := rest } := hw.attended.same rfl rfl
  split
  · exact ⟨hw₁.cons rfl rfl rfl, hread.symm.trans hw.readErrors⟩
  · -- The client disconnected; this is reported before the server is cleaned up.
    rw [wp_bind, wp_stat, wp_bind]
    let w₂ : World := { w with script := rest, trace := .stat .disconnect :: w.trace }
    have hless : w₂.readErrors < r := by
      have hr := hw.readErrors
      simp only [Input.isReadError, if_true] at hread
      change World.readErrors { w with script := rest } < r
      omega
    have hw₂ : Attending 1 false w₂.readErrors w₂ := ⟨hw₁.disconnect rfl rfl, rfl⟩
    have hlost : ∀ w, Attending 1 false w₂.readErrors w → Interrupted r w :=
      fun w h => .inr ⟨h.attended, h.readErrors ▸ hless⟩
    exact wp_imp (attending hlost (checkinCleanup_runs fuel) hw₂) (fun _ => hlost)
  · rw [wp_ite]
    refine ⟨fun _ => trivial, fun _ => ?_⟩
    rw [wp_bind]
    have hw₂ : Attending 0 false r { w with script := rest } :=
      ⟨hw₁, hread.symm.trans hw.readErrors⟩
    exact attending (fun _ => .inl) (writeClient_runs _) hw₂
  · trivial

/-- `Terminate` reports the departure; every other message is served on. -/
def Served (r : Nat) (exit : Option Exit) (w : World) : Prop :=
  if exit = some .finished then Attended 1 false w else Attending 0 false r w

theorem dispatch_served (hw : Attending 0 false r w) :
    wp (dispatch fuel pool a m) (Served r) (StopsIn (Interrupted r)) w := by
  refine dispatch_rule ?_ fun hm =>
    attending (fun _ => .inl) (dispatch_runs fuel pool a m fun h => absurd h hm) hw
  intro _
  rw [handleTerminate]
  refine wp_seq (attending (fun _ => .inl) (checkinCleanup_runs fuel) hw) ?_
  intro _ w₁ h₁
  have hgone : Attended 1 false (w₁.after (.stat .disconnect)) := h₁.attended.disconnect rfl rfl
  exact hgone.cons rfl rfl rfl

theorem Served.note {exit : Exit} (hw : Served r (some exit) w)
    (he : e.isIncident = false) : Served r (some exit) (w.after e) := by
  unfold Served at hw ⊢
  by_cases hexit : some exit = some Exit.finished
  · rw [if_pos hexit] at hw ⊢
    exact hw.cons rfl rfl he
  · rw [if_neg hexit] at hw ⊢
    exact ⟨hw.attended.cons rfl rfl he, hw.readErrors⟩

theorem checkin_served {exit : Exit} (hw : Served r (some exit) w) :
    wp (checkin fuel exit) (fun _ => Served r (some exit)) (StopsIn (Interrupted r)) w := by
  by_cases hexit : exit = .finished
  · unfold checkin
    rw [if_pos hexit]
    exact hw
  · have hattending : Attending 0 false r w := by simpa [Served, hexit] using hw
    refine wp_imp (attending (fun _ => .inl) (checkin_runs fuel exit) hattending) ?_
    intro _ w' h
    simpa [Served, hexit] using h

theorem serveHeld_served (hw : Attending 0 false r w) :
    wp (serveHeld fuel pool a m) (fun exit w' => Served r (some exit) w' ∧ exit ≠ .failed)
      (StopsIn (Interrupted r)) w := by
  -- The loop is never left with `failed`, the exit of an error return.
  refine serveHeld_served_rule (R := fun exit w => Served r exit w ∧ exit ≠ some .failed) ?_ ?_ ?_
    (fun _ h => ⟨h.1, nofun⟩) ?_ (fun _ _ => trivial) ?_
  · exact wp_imp (attending (fun _ => .inl) (assign_runs fuel a) hw) (fun _ _ h => ⟨h, nofun⟩)
  · exact fun w h => wp_imp (attending (fun _ => .inl) idleTimeoutSetting_runs h.1) (fun _ _ h => ⟨h, nofun⟩)
  · exact fun idleTimeout w h => wp_mono (awaitInTransaction_attending fuel idleTimeout h.1)
      (fun _ _ h => ⟨h, nofun⟩) (fun _ _ h => h)
  · intro m w h
    refine wp_mono (wp_and (dispatch_served fuel pool a m h.1) (dispatch_closes fuel pool a m w)) ?_
      (fun _ _ h => h.1)
    rintro exit w' ⟨hserved, hexits⟩
    refine ⟨hserved, ?_⟩
    rintro rfl
    exact hexits
  · intro exit w' h
    refine wp_imp (checkin_served fuel (h.1.note rfl)) ?_
    intro _ w'' hserved
    exact ⟨hserved, fun he => h.2 (congrArg some he)⟩

theorem Interrupted.failed (hw : Interrupted r w) : Failed false r (w.dropped .failed) := by
  have hlost : ∀ {n}, Attended n false w →
      (Lost r (w.dropped .failed) ↔ w.readErrors < r) := by
    intro n _
    simp [Lost, World.dropped, World.readErrors, Event.isAbandon]
  rcases hw with hw | ⟨hw, hless⟩
  · have hkept : ¬ Lost r (w.dropped .failed) := by
      rw [hlost hw.attended, hw.readErrors]
      exact Nat.lt_irrefl r
    refine ⟨?_, ?_, fun _ => rfl, hw.attended.admin⟩
    · simp [World.dropped, hw.attended.registered]
    · rw [if_neg hkept]
      exact (disconnects_cons rfl).trans hw.attended.disconnects
  · refine ⟨?_, ?_, fun _ => rfl, hw.admin⟩
    · simp [World.dropped, hw.registered]
    · rw [if_pos ((hlost hw).mpr hless)]
      exact (disconnects_cons rfl).trans hw.disconnects

theorem serve_attending (hw : Attending 0 false r w) :
    wp (serve fuel pool a m)
      (fun fin w' => if fin then Attended 1 false w' else Attending 0 false r w')
      (StopsIn (Failed false r)) w := by
  refine serve_rule (serveHeld_served fuel pool a m hw) ?_ ?_ (fun _ _ => trivial)
    (fun _ _ => trivial) ?_
  · intro exit w' h hexit
    have hattending : Attending 0 false r w' := by simpa [Served, hexit] using h.1
    have hkept : (Event.dropped w'.conn exit).isIncident = false := by
      cases exit with
      | failed => exact absurd rfl h.2
      | _ => rfl
    exact ⟨hattending.attended.cons rfl rfl hkept, hattending.readErrors⟩
  · intro w' h
    have hattended : Attended 1 false w' := by simpa [Served] using h.1
    exact hattended.cons rfl rfl rfl
  · intro stop w' h _ _
    cases stop with
    | failed e => exact Interrupted.failed h
    | _ => trivial

/-! ## Whole lives -/

theorem handle_attending (hcancel : w.client.cancelMode = false)
    (hadmin : w.client.admin = admin) (htrace : ∀ e ∈ w.trace, e.isIncident = false) :
    wp (handle fuel ext) (fun _ => Attended 1 admin) (StopsIn (Failed admin w.readErrors)) w := by
  have hlift : ∀ {w₁ stop}, StopsIn (Attended 0 admin) stop w₁ →
      StopsIn (Failed admin w.readErrors) stop w₁ := fun h => h.mono fun _ => Attended.failed
  have hroute : ∀ w₁, Attending 0 admin w.readErrors w₁ →
      wp (route fuel ext) (Turn.Leaves (Attending 0 admin w.readErrors)
        (fun w' => Attending 0 admin w.readErrors w' ∧ admin = false) (Attended 1 admin))
        (StopsIn (Failed admin w.readErrors)) w₁ := fun _ h₁ =>
    wp_mono (route_attending fuel ext h₁) (fun _ _ h => h) (fun _ _ => hlift)
  refine handle_rule fuel ext (fun _ _ => trivial) hroute ?_ w ?_ ?_
  · rintro pool a m w₁ ⟨h₁, rfl⟩
    exact serve_attending fuel pool a m h₁
  · intro hmode
    rw [hcancel] at hmode
    cases hmode
  · refine ⟨⟨rfl, rfl, ?_, hadmin⟩, rfl⟩
    simp only [List.any_cons, Event.isAbandon, Bool.false_or, List.any_eq_false]
    intro e he habandon
    have hplain := htrace e he
    cases e with
    | dropped c exit =>
      cases exit with
      | failed => cases hplain
      | _ => cases habandon
    | _ => cases habandon

/-- The client has left; `isOk` says how `handle` returned. -/
structure Departed (admin : Bool) (r : Nat) (isOk : Bool) (w : World) : Prop where
  registered : w.trace.any (Event.reports .register) = true
  once_iff : disconnects w.trace = 1 ↔ if admin then isOk = true else ¬ Lost r w

theorem Departed.note {isOk : Bool} (hw : Departed admin r isOk w)
    (htrace : w'.trace = e :: w.trace) (hscript : w'.script = w.script)
    (he : e.isIncident = false) : Departed admin r isOk w' := by
  obtain ⟨hregister, hdisconnect, habandon⟩ := Event.plain_of_isIncident he
  have hlost : Lost r w' ↔ Lost r w := by
    simp [Lost, World.readErrors, htrace, hscript, habandon]
  constructor
  · simp [htrace, hw.registered]
  · rw [htrace, disconnects_cons hregister, hdisconnect, hlost]
    exact hw.once_iff

theorem Attended.departed (hw : Attended 1 admin w) : Departed admin r true w := by
  refine ⟨hw.registered, iff_of_true hw.disconnects ?_⟩
  split
  · rfl
  · exact hw.not_lost

theorem afterHandle_departed (hw : Failed admin r w) :
    wp (afterHandle true) (fun _ => Departed admin r false) E w := by
  change wp (if w.client.admin = true then pure () else _) _ _ w
  rw [hw.admin]
  cases admin with
  | true =>
    have hkept : ¬ Lost r w := by
      intro hlost
      cases hw.served hlost
    refine ⟨hw.registered, ?_⟩
    rw [hw.disconnects, if_neg hkept]
    simp
  | false =>
    let w₁ : World := (w.after (.drain (-1))).after (.stat .disconnect)
    have hlost : Lost r w₁ ↔ Lost r w := Iff.rfl
    change Departed false r false w₁
    refine ⟨hw.registered, ?_⟩
    have hcount : disconnects w₁.trace = (if Lost r w then 1 else 0) + 1 := by
      change disconnects (.stat .disconnect :: .drain (-1) :: w.trace) = _
      rw [disconnects_cons rfl, disconnects_cons rfl, hw.disconnects]
      rfl
    rw [hcount, hlost]
    by_cases h : Lost r w
    · simp [h]
    · simp [h]

theorem afterHandle_returned (hw : Departed admin r true w) :
    wp (afterHandle false) (fun _ => Departed admin r true) E w := by
  change wp (if w.client.admin = true then pure () else _) _ _ w
  split
  · exact hw
  · exact hw.note rfl rfl rfl

theorem dropClient_departed {isOk : Bool}
    (hw : Departed admin r isOk w) : wp dropClient (fun _ => Departed admin r isOk) E w := by
  have hgone : Departed admin r isOk w.clientGone := hw.note rfl rfl rfl
  change wp (runIf (w.client.connectedToServer ∧ w.client.hasServerStats) (stat .serverIdle)) _ _
    w.clientGone
  unfold runIf
  rw [wp_ite]
  exact ⟨fun _ => hgone.note rfl rfl rfl, fun _ => hgone⟩

theorem entrypoint_departed (client : Client)
    (hcancel : client.cancelMode = false) (map : ClientServerMap) (script : List Input) :
    wp (clientEntrypoint fuel ext)
      (fun _ => Departed client.admin (script.countP Input.isReadError) true)
      (StopsIn (Departed client.admin (script.countP Input.isReadError) false))
      (.start client map script) := by
  let r := script.countP Input.isReadError
  have hhandle : ∀ w : World, w.client = client → w.script = script →
      (∀ e ∈ w.trace, e.isIncident = false) →
      wp (handle fuel ext) (fun _ => Attended 1 client.admin) (StopsIn (Failed client.admin r)) w := by
    intro w hw hscript htrace
    have hr : w.readErrors = r := congrArg (List.countP Input.isReadError) hscript
    have hattending := handle_attending fuel ext (w := w) (hw ▸ hcancel) rfl htrace
    rw [hr, hw] at hattending
    exact hattending
  -- A panic leaves nothing to be shown: only the client is dropped.
  have hdrop : ∀ w : World, wp dropClient (fun _ _ => True)
      (StopsIn (Departed client.admin r false)) w := fun w =>
    dropClient_rule (fun _ (_ : True) => trivial) (fun _ _ => trivial) w trivial
  have hrest : ∀ w : World, w.client = client → w.script = script →
      (∀ e ∈ w.trace, e.isIncident = false) →
      wp (do
        tryCatch (handle fuel ext) afterStop
        afterHandle false
        dropClient)
        (fun _ => Departed client.admin r true) (StopsIn (Departed client.admin r false)) w := by
    intro w hw hscript htrace
    rw [wp_bind, wp_tryCatch]
    refine wp_mono (hhandle w hw hscript htrace) ?_ ?_
    · intro _ w₁ h₁
      exact wp_seq (afterHandle_returned h₁.departed) (fun _ _ => dropClient_departed)
    · intro stop w₁ h₁
      cases stop with
      -- Only an error return is reported a second time.
      | failed e =>
        change wp (afterHandle true >>= _) _ _ w₁
        refine wp_seq (afterHandle_departed h₁) ?_
        intro _ w₂ h₂
        exact wp_seq (dropClient_departed h₂) (fun _ _ h => h)
      | pending => trivial
      | elapsed =>
        change wp (dropClient >>= _) _ _ w₁
        rw [wp_bind]
        exact hdrop w₁
      | panicked =>
        change wp (dropClient >>= _) _ _ w₁
        rw [wp_bind]
        exact hdrop w₁
  change wp (runIf (client.admin = false) (emit (.drain 1)) >>= _) _ _ _
  unfold runIf
  rw [wp_bind, wp_ite]
  constructor
  · intro _
    exact hrest _ rfl rfl (by simp [World.start, Event.isIncident])
  · intro _
    exact hrest _ rfl rfl (by simp [World.start])

/-- However a client leaves: it is unregistered exactly once if and only if, for an admin, `handle`
returned without an error, and for any other client, no failed read found it with a connection. -/
theorem unregistered_once_iff (fuel : Nat) (ext : Externals) (client : Client)
    (hcancel : client.cancelMode = false) (map : ClientServerMap) (script : List Input)
    (hended : ended (clientEntrypoint fuel ext) (.start client map script) = true) :
    UnregisteredOnce (final (clientEntrypoint fuel ext) (.start client map script)).trace ↔
      if client.admin then returned (clientEntrypoint fuel ext) (.start client map script) = true
      else ¬ Lost (script.countP Input.isReadError)
        (final (clientEntrypoint fuel ext) (.start client map script)) := by
  have hrun := entrypoint_departed fuel ext client hcancel map script
  have hdeparted : Departed client.admin (script.countP Input.isReadError)
      (returned (clientEntrypoint fuel ext) (.start client map script))
      (final (clientEntrypoint fuel ext) (.start client map script)) := by
    unfold ended at hended
    unfold wp at hrun
    unfold returned final
    cases hm : clientEntrypoint fuel ext (.start client map script) with
    | ok a w =>
      rw [hm] at hrun
      exact hrun
    | error stop w =>
      rw [hm] at hrun hended
      cases stop with
      | failed e => exact hrun
      | _ => cases hended
  have honce : UnregisteredOnce (final (clientEntrypoint fuel ext) (.start client map script)).trace ↔
      disconnects (final (clientEntrypoint fuel ext) (.start client map script)).trace = 1 := by
    refine ⟨fun h => h.once, fun h => ⟨hdeparted.registered, h, ?_⟩⟩
    rw [listed_of_disconnects hdeparted.registered, h]
    rfl
  exact honce.trans hdeparted.once_iff

namespace Sample

/-- The client opens a transaction; then its socket is closed. -/
def vanishScript : List Input :=
  checkout (simpleQuery "BEGIN") (conn 1) ++ exchange [complete "BEGIN", ready 'T'] ++
    [.clientGone, .sent [[complete "ROLLBACK", ready 'I']], .arrives, .arrives]

/-- The client ends its transaction first. -/
def servedScript : List Input :=
  checkout (simpleQuery "BEGIN") (conn 1) ++ exchange [complete "BEGIN", ready 'T'] ++
    .client (simpleQuery "COMMIT") :: exchange [complete "COMMIT", ready 'I'] ++ [.clientGone]

theorem served_unregistered_once :
    ((life client servedScript).trace.filter fun | .sent .. | .dropped .. => true | _ => false).length = 3 ∧
      UnregisteredOnce (life client servedScript).trace := by
  refine ⟨by decide +kernel, (unregistered_once_iff 4 externals client rfl (fun _ => none) servedScript ?_).mpr ?_⟩
  · decide +kernel
  · decide +kernel

/-- A client that vanishes inside a transaction is unregistered twice, an admin that vanishes is not
unregistered at all. -/
theorem vanished_not_once :
    (ended (clientEntrypoint 4 externals) (.start client (fun _ => none) vanishScript) = true ∧
      disconnects (life client vanishScript).trace = 2) ∧
    (ended (clientEntrypoint 4 externals)
        (.start { client with admin := true } (fun _ => none) [.clientGone]) = true ∧
      disconnects (life { client with admin := true } [.clientGone]).trace = 0 ∧
      listed (life { client with admin := true } [.clientGone]).trace = true) := by
  decide +kernel

end Sample

end PgCat.Session
