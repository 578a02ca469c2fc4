import PgCat.Session.Handoff
import PgCat.Session.Turns

/-!
# Custody — who has a connection

`tenancy` follows one client: it holds at most one connection at a time, talks to that one only, and gives
that one back.  `custody` follows one connection through the steps of all clients.  A pool that `lends`
hands a connection out when it is new, or when the last client that had it gave it back in working
order.  Over any interleaving a client holds a connection exactly if it is lent to it
(`holds_iff_lent`).
-/

namespace PgCat.Session

open Lib Protocol Router

/-! ## One client -/

/-- The connection the client holds. -/
def tenancy : Automaton Event (Option Nat) where
  start := none
  step held e :=
    match e with
    | .checkedOut c => if held = none then some (some c.id) else none
    | .dropped c _ => if held = some c.id then some none else none
    | .sent c _ _ _ => if held = some c.id then some held else none
    | _ => some held

/-- Events that hand a connection over or use it. -/
def Event.isTenancy : Event → Bool
  | .checkedOut _ | .dropped _ _ | .sent _ _ _ _ => true
  | _ => false

theorem tenancy_other {held : Option Nat} {e : Event} (he : e.isTenancy = false) :
    tenancy.step held e = some held := by
  cases e with
  | checkedOut c => cases he
  | dropped c exit => cases he
  | sent c m reply fromClient => cases he
  | _ => rfl

def Unheld (w : World) : Prop :=
  tenancy.run w.trace = some none

/-- The client holds the connection of the world. -/
def Held (w : World) : Prop :=
  tenancy.run w.trace = some (some w.conn.id)

section Steps

variable {w w' : World} {e : Event}

theorem Unheld.other (hw : Unheld w) (htrace : w'.trace = e :: w.trace)
    (he : e.isTenancy = false) : Unheld w' := by
  unfold Unheld
  rw [htrace]
  exact Automaton.run_cons hw (tenancy_other he)

theorem Held.other (hw : Held w) (htrace : w'.trace = e :: w.trace) (hid : w'.conn.id = w.conn.id)
    (he : e.isTenancy = false) : Held w' := by
  unfold Held
  rw [htrace, hid]
  exact Automaton.run_cons hw (tenancy_other he)

theorem Held.dropped (hw : Held w) (exit : Exit) : Unheld (w.dropped exit) :=
  Automaton.run_cons hw (by simp [tenancy])

theorem Event.isTenancy_of_isPlain (h : e.isPlain = true) : e.isTenancy = false := by
  cases e with
  | checkedOut c => cases h
  | dropped c exit => cases h
  | sent c m reply fromClient => cases h
  | _ => rfl

theorem Event.isTenancy_of_isRouting (h : e.isRouting = true) : e.isTenancy = false := by
  cases e with
  | checkedOut c => cases h
  | dropped c exit => cases h
  | sent c m reply fromClient => cases h
  | _ => rfl

end Steps

instance : Notes (Keeps Unheld) where
  input _ _ hw := hw
  note _ _ he hw := hw.other rfl (Event.isTenancy_of_isPlain he)

instance : AllStats (Keeps Unheld) where
  stat _ _ hw := hw.other rfl rfl

instance : Clients (Keeps Unheld) where
  client _ _ _ hw := hw

instance : Reads (Keeps Unheld) where
  message _ _ hw := hw.other rfl rfl

instance : Routers (Keeps Unheld) where
  router _ _ hw := hw
  routing _ _ he hw := hw.other rfl (Event.isTenancy_of_isRouting he)

instance : Notes (Keeps Held) where
  input _ _ hw := hw
  note _ _ he hw := hw.other rfl rfl (Event.isTenancy_of_isPlain he)

instance : AllStats (Keeps Held) where
  stat _ _ hw := hw.other rfl rfl rfl

instance : Clients (Keeps Held) where
  client _ _ _ hw := hw

instance : Hears (Keeps Held) where
  server _ _ _ hw := hw
  received _ _ _ _ hw := hw.other rfl rfl rfl

instance (fromClient : Bool) : Sends (Keeps Held) fromClient where
  sent _ _ _ hw := Automaton.run_cons hw (by simp [tenancy, Conn.push])

instance : Binds (Keeps Held) where
  claimed _ hw := hw.other rfl rfl rfl
  released _ hw := hw.other rfl rfl rfl

instance : Reads (Keeps Held) where
  message _ _ hw := hw.other rfl rfl rfl

/-- The client kept to its connections so far. -/
def Tenant (w : World) : Prop :=
  (tenancy.run w.trace).isSome

theorem Unheld.tenant {w : World} (hw : Unheld w) : Tenant w :=
  Option.isSome_of_eq_some hw

theorem Held.tenant {w : World} (hw : Held w) : Tenant w :=
  Option.isSome_of_eq_some hw

theorem Tenant.other {w w' : World} {e : Event} (hw : Tenant w) (htrace : w'.trace = e :: w.trace)
    (he : e.isTenancy = false) : Tenant w' := by
  obtain ⟨held, hheld⟩ := Option.isSome_iff_exists.mp hw
  unfold Tenant
  rw [htrace]
  exact Option.isSome_of_eq_some (Automaton.run_cons hheld (tenancy_other he))

theorem held_lending : Lending Unheld Held (fun _ => Tenant) where
  checkedOut _ _ _ hw := Automaton.run_cons hw rfl
  bad w hw := Listens.bad (S := Keeps Held) w hw
  health fuel _ hw := keeps (query_runs fuel true ";") hw
  dropped _ exit _ hw := hw.dropped exit
  stops _ _ hw := hw.tenant
  waits _ hw := hw.tenant

theorem serve_unheld (fuel : Nat) (pool : ConnectionPool) (a : Address) (m : Message) (w : World)
    (hw : Held w) :
    wp (serve fuel pool a m) (fun fin w' => if fin then Unheld w' else Unheld w')
      (fun _ => Tenant) w := by
  refine serve_rule (keeps (serveHeld_runs fuel pool a m) hw) ?_ ?_ ?_ ?_ ?_
  · exact fun exit w' h _ => h.dropped exit
  · exact fun w' h => h.dropped _
  · exact fun w' h => h.tenant
  · exact fun w' h => (h.dropped _).tenant
  · exact fun stop w' h _ _ => (h.dropped _).tenant

theorem handle_tenant (fuel : Nat) (ext : Externals) (w : World) (hw : Unheld w) :
    wp (handle fuel ext) (fun _ => Tenant) (fun _ => Tenant) w := by
  have hrun : wp (handle fuel ext) (fun _ => Unheld) (fun _ => Tenant) w := by
    refine handle_rule fuel ext (fun _ h => h.tenant) (fun _ h => route_rule held_lending fuel ext h)
      (serve_unheld fuel) w (fun _ => ?_) (hw.other rfl rfl)
    exact wp_mono (keeps cancelQuery_runs hw) (fun _ _ h => h) (fun _ _ h => h.tenant)
  exact wp_imp hrun (fun _ _ h => h.tenant)

theorem IsSession.tenant {client : Client} {t : List Event} (h : IsSession client t) :
    (tenancy.run t).isSome := by
  obtain ⟨fuel, ext, map, script, hsuffix⟩ := h
  have hstart : Unheld (.start client map script) := rfl
  refine Automaton.run_suffix hsuffix (?_ : Tenant _)
  refine entrypoint_invariant fuel ext (fun w h => h.other rfl rfl) (handle_tenant fuel ext) ?_
    (fun w h => h.other rfl rfl) _ hstart
  intro w e he hw
  refine hw.other rfl ?_
  cases e with
  | drain n => rfl
  | stat s => rfl
  | _ => cases he

/-! ## One connection -/

inductive Custody (ι : Type)
  /-- Not opened yet. -/
  | unknown
  | lent (i : ι)
  /-- Given back as it is here. -/
  | kept (c : Conn)

section Pool

variable {ι : Type}

/-- Where connection `id` is after a history. -/
def custody (id : Nat) : List (ι × Event) → Custody ι
  | [] => .unknown
  | (i, .checkedOut c) :: h => if c.id = id then .lent i else custody id h
  | (_, .dropped c _) :: h => if c.id = id then .kept c else custody id h
  | _ :: h => custody id h

/-- As `Server::startup` leaves it. -/
def Conn.isFresh (c : Conn) : Bool :=
  c.isNew && !c.server.needsCleanup

/-- The pool may hand `c` out: it is new, or it was given back like this and is not broken. -/
def Custody.lends (c : Conn) : Custody ι → Bool
  | .unknown => c.isFresh
  | .lent _ => false
  | .kept c' => !c'.server.bad && (c'.server = c.server && c'.lastReady = c.lastReady)

/-- The pool hands out connections that are new or that the last client has given back. -/
def lends : List (ι × Event) → Bool
  | [] => true
  | (_, .checkedOut c) :: h => (custody c.id h).lends c && lends h
  | _ :: h => lends h

theorem lends_tail {x : ι × Event} {h : List (ι × Event)} (hpool : lends (x :: h) = true) :
    lends h = true := by
  obtain ⟨i, e⟩ := x
  cases e with
  | checkedOut c => exact (Bool.and_eq_true_iff.mp hpool).2
  | _ => exact hpool

theorem lends_suffix {h h' : List (ι × Event)} (hsuffix : h <:+ h') (hpool : lends h' = true) :
    lends h = true := by
  obtain ⟨later, rfl⟩ := hsuffix
  induction later with
  | nil => exact hpool
  | cons x later ih => exact ih (lends_tail hpool)

theorem custody_other {i : ι} {e : Event} {h : List (ι × Event)} {id : Nat}
    (he : e.isTenancy = false) : custody id ((i, e) :: h) = custody id h := by
  cases e with
  | checkedOut c => cases he
  | dropped c exit => cases he
  | _ => rfl

theorem custody_kept {id : Nat} {c : Conn} : ∀ {h : List (ι × Event)}, custody id h = .kept c →
    ∃ i exit h', (i, .dropped c exit) :: h' <:+ h := by
  intro h
  induction h with
  | nil => exact nofun
  | cons x h ih =>
    intro hkept
    obtain ⟨i, e⟩ := x
    have hearlier : custody id h = .kept c →
        ∃ i' exit h', (i', .dropped c exit) :: h' <:+ (i, e) :: h := by
      intro hrest
      obtain ⟨i', exit, h', hsuffix⟩ := ih hrest
      exact ⟨i', exit, h', hsuffix.trans (List.suffix_cons _ _)⟩
    cases e with
    | checkedOut c' =>
      by_cases hid : c'.id = id
      · rw [custody, if_pos hid] at hkept
        cases hkept
      · rw [custody, if_neg hid] at hkept
        exact hearlier hkept
    | dropped c' exit =>
      by_cases hid : c'.id = id
      · rw [custody, if_pos hid] at hkept
        cases hkept
        exact ⟨i, exit, h, List.suffix_rfl⟩
      · rw [custody, if_neg hid] at hkept
        exact hearlier hkept
    | _ => exact hearlier hkept

variable [DecidableEq ι]

/-- Each client holds exactly the connections that are lent to it. -/
def Accounted (h : List (ι × Event)) : Prop :=
  ∀ i id, tenancy.run (steps i h) = some (some id) ↔ custody id h = .lent i

section Accounts

variable {h : List (ι × Event)} {j : ι} {e : Event} {held held' : Option Nat}

theorem run_step (hnext : tenancy.run (e :: steps j h) = some held') (i : ι) :
    tenancy.run (steps i ((j, e) :: h)) = if i = j then some held' else tenancy.run (steps i h) := by
  by_cases hij : i = j
  · subst hij
    rw [steps_self, if_pos rfl]
    exact hnext
  · rw [steps_other (Ne.symm hij), if_neg hij]

/-- A connection the client neither had nor gets stays where it is. -/
theorem Accounted.elsewhere (hsame : Accounted h) {id : Nat} (hbefore : tenancy.run (steps j h) = some held)
    (hhad : held ≠ some id) (hgets : held' ≠ some id) (i : ι) :
    (if i = j then some held' else tenancy.run (steps i h)) = some (some id) ↔ custody id h = .lent i := by
  rw [← hsame i id]
  by_cases hij : i = j
  · subst hij
    simp [hbefore, hhad, hgets]
  · rw [if_neg hij]

theorem Accounted.checkedOut {c : Conn} (hsame : Accounted h)
    (hbefore : tenancy.run (steps j h) = some none)
    (hnext : tenancy.run (.checkedOut c :: steps j h) = some (some c.id))
    (hlends : (custody c.id h).lends c = true) : Accounted ((j, .checkedOut c) :: h) := by
  intro i id
  rw [run_step hnext]
  by_cases hid : c.id = id
  · subst hid
    rw [custody, if_pos rfl]
    by_cases hij : i = j
    · simp [hij]
    · -- Nobody else had it, because it was free to be handed out.
      have hfree : custody c.id h ≠ .lent i := by
        intro hlent
        rw [hlent] at hlends
        cases hlends
      rw [if_neg hij, hsame i c.id]
      refine ⟨fun hlent => absurd hlent hfree, fun hlent => ?_⟩
      cases hlent
      exact absurd rfl hij
  · rw [custody, if_neg hid]
    exact hsame.elsewhere hbefore (by simp) (by simpa using hid) i

theorem Accounted.dropped {c : Conn} {exit : Exit} (hsame : Accounted h)
    (hbefore : tenancy.run (steps j h) = some (some c.id))
    (hnext : tenancy.run (.dropped c exit :: steps j h) = some none) :
    Accounted ((j, .dropped c exit) :: h) := by
  intro i id
  rw [run_step hnext]
  by_cases hid : c.id = id
  · subst hid
    rw [custody, if_pos rfl]
    refine ⟨fun hholds => ?_, nofun⟩
    by_cases hij : i = j
    · simp [hij] at hholds
    · -- The connection was lent to the client that drops it.
      rw [if_neg hij, hsame i c.id, (hsame j c.id).mp hbefore] at hholds
      cases hholds
      exact absurd rfl hij
  · rw [custody, if_neg hid]
    exact hsame.elsewhere hbefore (by simpa using hid) (by simp) i

theorem Accounted.other (hsame : Accounted h) (hbefore : tenancy.run (steps j h) = some held)
    (hnext : tenancy.run (e :: steps j h) = some held)
    (hcustody : ∀ id, custody id ((j, e) :: h) = custody id h) : Accounted ((j, e) :: h) := by
  intro i id
  rw [run_step hnext, hcustody id, ← hsame i id]
  by_cases hij : i = j
  · rw [if_pos hij, hij, hbefore]
  · rw [if_neg hij]

end Accounts

variable {client : ι → Client}

theorem tenancy_step {held held' : Option Nat} {e : Event} (h : tenancy.step held e = some held') :
    (∃ c, e = .checkedOut c ∧ held = none ∧ held' = some c.id) ∨
    (∃ c exit, e = .dropped c exit ∧ held = some c.id ∧ held' = none) ∨
    (∃ c m reply fromClient, e = .sent c m reply fromClient ∧ held = some c.id ∧ held' = held) ∨
    e.isTenancy = false ∧ held' = held := by
  cases e with
  | checkedOut c =>
    simp only [tenancy, Option.ite_none_right_eq_some, Option.some.injEq] at h
    exact .inl ⟨c, rfl, h.1, h.2.symm⟩
  | dropped c exit =>
    simp only [tenancy, Option.ite_none_right_eq_some, Option.some.injEq] at h
    exact .inr (.inl ⟨c, exit, rfl, h.1, h.2.symm⟩)
  | sent c m reply fromClient =>
    simp only [tenancy, Option.ite_none_right_eq_some, Option.some.injEq] at h
    exact .inr (.inr (.inl ⟨c, m, reply, fromClient, rfl, h.1, h.2.symm⟩))
  | _ =>
    cases h
    exact .inr (.inr (.inr ⟨rfl, rfl⟩))

theorem tenancy_of_session {e : Event} {h : List (ι × Event)} {j : ι}
    (hsession : IsSession (client j) (steps j ((j, e) :: h))) :
    ∃ held held', tenancy.run (steps j h) = some held ∧ tenancy.step held e = some held' ∧
      tenancy.run (e :: steps j h) = some held' := by
  have hrun := hsession.tenant
  rw [steps_self] at hrun
  obtain ⟨held', hnext⟩ := Option.isSome_iff_exists.mp hrun
  obtain ⟨held, hbefore, hstep⟩ := Automaton.run_of_cons hnext
  exact ⟨held, held', hbefore, hstep, hnext⟩

theorem holds_iff_lent (h : List (ι × Event)) (hsessions : ∀ i, IsSession (client i) (steps i h))
    (hpool : lends h = true) : Accounted h := by
  induction h with
  | nil => exact fun i id => ⟨nofun, nofun⟩
  | cons x h ih =>
    have hsame := ih (fun i => (hsessions i).suffix (steps_tail i x h)) (lends_tail hpool)
    obtain ⟨j, e⟩ := x
    obtain ⟨held, held', hbefore, hstep, hnext⟩ := tenancy_of_session (hsessions j)
    rcases tenancy_step hstep with ⟨c, rfl, rfl, rfl⟩ | ⟨c, exit, rfl, rfl, rfl⟩ |
      ⟨c, m, reply, fromClient, rfl, rfl, rfl⟩ | ⟨hother, rfl⟩
    · exact hsame.checkedOut hbefore hnext (Bool.and_eq_true_iff.mp hpool).1
    · exact hsame.dropped hbefore hnext
    · exact hsame.other hbefore hnext fun _ => rfl
    · exact hsame.other hbefore hnext fun _ => custody_other hother

theorem lent_of_sent {h : List (ι × Event)} {j : ι} {c : Conn} {m : Message} {reply : List Message}
    {fromClient : Bool}
    (hsessions : ∀ i, IsSession (client i) (steps i ((j, .sent c m reply fromClient) :: h)))
    (hpool : lends h = true) : custody c.id h = .lent j := by
  have haccounted := holds_iff_lent h (fun i => (hsessions i).suffix (steps_tail i _ h)) hpool
  obtain ⟨held, held', hbefore, hstep, -⟩ := tenancy_of_session (hsessions j)
  refine (haccounted j c.id).mp ?_
  rcases tenancy_step hstep with ⟨_, he, _⟩ | ⟨_, _, he, _⟩ | ⟨_, _, _, _, he, rfl, _⟩ | ⟨he, _⟩
  · cases he
  · cases he
  · cases he
    exact hbefore
  · cases he

/-- Over any interleaving, whoever sends on a connection holds it, and nobody else does. -/
theorem sender_holds_alone (client : ι → Client) {h t : List (ι × Event)} {j : ι} {c : Conn} {m : Message}
    {reply : List Message} {fromClient : Bool} (hsessions : ∀ i, IsSession (client i) (steps i h))
    (hpool : lends h = true) (hsent : (j, .sent c m reply fromClient) :: t <:+ h) (i : ι) :
    tenancy.run (steps i t) = some (some c.id) ↔ i = j := by
  have htail : t <:+ h := (List.suffix_cons _ _).trans hsent
  have hlends : lends t = true := lends_suffix htail hpool
  have haccounted := holds_iff_lent t (fun i => (hsessions i).suffix (steps_suffix htail i)) hlends
  have hlent : custody c.id t = .lent j :=
    lent_of_sent (fun i => (hsessions i).suffix (steps_suffix hsent i)) hlends
  calc tenancy.run (steps i t) = some (some c.id) ↔ custody c.id t = .lent i := haccounted i c.id
    _ ↔ i = j := by rw [hlent, Custody.lent.injEq, eq_comm]

end Pool

/-- Another client gets connection 1 after the transaction on it was rolled back. -/
def twoTenants : List (Bool × Event) :=
  Sample.twoLives (Sample.life Sample.client timeoutScript).trace
    (Sample.life Sample.client (Sample.checkout (simpleQuery "SELECT 2") (Sample.conn 1) ++
      Sample.exchange [Sample.complete "SELECT 1", Sample.ready 'I'])).trace

theorem timeout_sender_holds :
    (twoTenants.filterMap fun
      | (i, .sent c _ _ _) => some (i, c.id)
      | _ => none) = [(true, 1), (false, 2), (false, 1), (false, 1)] ∧
    ∀ j c m reply fromClient t, (j, .sent c m reply fromClient) :: t <:+ twoTenants →
      ∀ i, tenancy.run (steps i t) = some (some c.id) ↔ i = j := by
  refine ⟨by decide +kernel, fun j c m reply fromClient t hsent => ?_⟩
  exact sender_holds_alone (fun _ => Sample.client) (Sample.twoLives_sessions (c := fun _ => Sample.client)
    (Sample.life_session _ _ 0) (Sample.life_session _ _ 0)) (by decide +kernel) hsent

end PgCat.Session
