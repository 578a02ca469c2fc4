import Mathlib.Data.Fintype.Basic
import PgCat.Session.Stage

/-!
# Cancel — cancel requests and the `client_server_map`

Any number of clients share the map.  `bound_owner` is the invariant of all their interleavings in
which no client leaves `handle` through an error return while it is bound: an entry of the map belongs
to a client that holds this very server.  A cancel request, on the other hand, removes the entry it
finds when its short-lived client is dropped.
-/

namespace PgCat.Session

open Lib Protocol Router Function

/-! ## Many clients -/

variable (fuel : Nat) (ext : Externals) {t : List Event}

theorem IsSession.accepted {client : Client} (h : IsSession client t) : (stages.run t).isSome := by
  rcases h with ⟨fuel, ext, map, script, hsuffix⟩
  exact Automaton.run_suffix hsuffix (entrypoint_staged fuel ext client map script)

section Clients

variable {ι : Type} [DecidableEq ι] (client : ι → Client)

def sharedMap (h : List (ι × Event)) : ClientServerMap :=
  shared (fun i e => e.bindTo (client i).key) (fun _ => none) h

/-- The pool hands a connection to one client at a time. -/
def exclusive (stage : ι → Stage) (_ : ι) : Event → Prop
  | .checkedOut c => ∀ j, (stage j).held ≠ some c.server.target
  | _ => True

instance [Fintype ι] (stage : ι → Stage) (i : ι) : ∀ e, Decidable (exclusive stage i e) := by
  intro e
  cases e with
  | checkedOut c => exact inferInstanceAs (Decidable (∀ j, (stage j).held ≠ some c.server.target))
  | _ => exact .isTrue trivial

/-- The connection is not dropped by an error return or a panic. -/
def Event.returnsWell : Event → Bool
  | .dropped _ .failed | .dropped _ .panicked => false
  | _ => true

structure Owned (stage : ι → Stage) (map : ClientServerMap) : Prop where
  owner : ∀ key s, map key = some s → ∃ i, (client i).key = key ∧ stage i = .bound s
  apart : ∀ i j s, (stage i).held = some s → (stage j).held = some s → i = j

variable {client} {stage : ι → Stage} {map : ClientServerMap} {i : ι} {next : Stage}

theorem Owned.apart_update (h : Owned client stage map)
    (hheld : ∀ s, next.held = some s → ∀ j, j ≠ i → (stage j).held ≠ some s) :
    ∀ j k s, (update stage i next j).held = some s →
      (update stage i next k).held = some s → j = k := by
  intro j k s hj hk
  by_cases hji : j = i
  · subst hji
    by_cases hkj : k = j
    · exact hkj.symm
    · rw [update_self] at hj
      rw [update_of_ne hkj] at hk
      exact absurd hk (hheld s hj k hkj)
  · rw [update_of_ne hji] at hj
    by_cases hki : k = i
    · subst hki
      rw [update_self] at hk
      exact absurd hj (hheld s hk j hji)
    · rw [update_of_ne hki] at hk
      exact h.apart j k s hj hk

theorem Owned.apart_shrink (h : Owned client stage map)
    (hheld : ∀ s, next.held = some s → (stage i).held = some s) :
    ∀ j k s, (update stage i next j).held = some s →
      (update stage i next k).held = some s → j = k :=
  h.apart_update fun s hs j hj hjs => hj (h.apart j i s hjs (hheld s hs))

theorem Owned.owner_update (h : Owned client stage map) {key : Key} {s : Target}
    (hkey : map key = some s) (hi : (client i).key ≠ key ∨ stage i ≠ .bound s) :
    ∃ j, (client j).key = key ∧ update stage i next j = .bound s := by
  rcases h.owner key s hkey with ⟨j, hj, hbound⟩
  refine ⟨j, hj, ?_⟩
  have hji : j ≠ i := by
    rintro rfl
    rcases hi with hne | hne
    · exact hne hj
    · exact hne hbound
  rw [update_of_ne hji]
  exact hbound

theorem Owned.owner_removed (h : Owned client stage map) :
    ∀ key s, update map (client i).key none key = some s →
      ∃ j, (client j).key = key ∧ update stage i next j = .bound s := by
  intro key s hs
  by_cases hkey : key = (client i).key
  · subst hkey
    simp at hs
  · rw [update_of_ne hkey] at hs
    exact h.owner_update hs (.inl (Ne.symm hkey))

theorem Owned.step {e : Event} (h : Owned client stage map) (hpool : exclusive stage i e)
    (hreturn : e.returnsWell = true) (hstep : (stage i).step e = some next) :
    Owned client (update stage i next) (e.bindTo (client i).key map) := by
  cases he : e.isStaging with
  | false =>
    rw [Stage.step_other he] at hstep
    cases hstep
    rw [update_eq_self, Event.bindTo_other he]
    exact h
  | true =>
    have hchange := Stage.step_change he hstep
    generalize hst : stage i = st at hchange
    cases hchange with
    -- The pool hands out what nobody holds, so that no two clients hold one connection.
    | checkedOut c =>
      refine ⟨fun key s hs => h.owner_update hs (.inr (by simp [hst])), ?_⟩
      refine h.apart_update fun s hs j _ => ?_
      cases hs
      exact hpool j
    | claimed c =>
      refine ⟨fun key s hs => ?_, h.apart_shrink (by simp [hst, Stage.held])⟩
      by_cases hkey : key = (client i).key
      · subst hkey
        refine ⟨i, rfl, ?_⟩
        simp only [Event.bindTo, update_self, Option.some.injEq] at hs
        rw [update_self, hs]
      · rw [Event.bindTo, update_of_ne hkey] at hs
        exact h.owner_update hs (.inl (Ne.symm hkey))
    | released s => exact ⟨h.owner_removed, h.apart_shrink (by simp [hst, Stage.held])⟩
    | dropped c exit hstage =>
      refine ⟨fun key s hs => h.owner_update hs (.inr ?_), h.apart_shrink (by simp [Stage.held])⟩
      rcases hstage with ⟨s', rfl | rfl⟩
      · simp [hst]
      · simp [hst]
    -- An error return would leave the entry in the map; it is excluded here.
    | failed s c exit hexit =>
      rcases hexit with rfl | rfl
      · cases hreturn
      · cases hreturn
    | gone hstage => exact ⟨h.owner_removed, h.apart_shrink (by simp [Stage.held])⟩

/-- The invariant of all interleavings. -/
theorem bound_owner (h : List (ι × Event)) (hsessions : ∀ i, IsSession (client i) (steps i h))
    (hpool : stages.Meets exclusive h) (hreturn : ∀ x ∈ h, x.2.returnsWell = true) :
    Owned client (stages.states h) (sharedMap client h) := by
  have hstart : Owned client (fun _ => Stage.waiting) fun _ => none :=
    ⟨nofun, nofun⟩
  exact Automaton.interleaved hstart
    (fun stage map i e next hinv hok hstep => hinv.step hok.1 hok.2 hstep) h
    (fun i => (hsessions i).accepted) (hpool.and_labels hreturn)

/-! ## Owners -/

def Event.isClientDropped : Event → Bool
  | .clientDropped => true
  | _ => false

def Event.isClaimed : Event → Bool
  | .claimed _ => true
  | _ => false

def live (h : List (ι × Event)) (i : ι) : Bool :=
  !(steps i h).isEmpty && (steps i h).all fun e => !e.isClientDropped

end Clients

theorem not_dropped : ∀ {s : Stage}, stages.run t = some s → s ≠ .gone →
    ∀ e ∈ t, e.isClientDropped = false := by
  induction t with
  | nil => simp
  | cons e t ih =>
    intro s hs hgone
    rcases Automaton.run_of_cons hs with ⟨s₀, hs₀, hstep⟩
    have hbefore : s₀ ≠ .gone ∧ e.isClientDropped = false := by
      cases he : e.isStaging with
      | false =>
        have hsame : s₀ = s := Option.some.inj ((Stage.step_other he s₀).symm.trans hstep)
        refine ⟨hsame ▸ hgone, ?_⟩
        cases e with
        | clientDropped => cases he
        | _ => rfl
      | true =>
        cases Stage.step_change he hstep with
        | checkedOut c | claimed c | released s | failed s c exit _ => exact ⟨by simp, rfl⟩
        | dropped c exit h =>
          rcases h with ⟨s', rfl | rfl⟩
          · exact ⟨by simp, rfl⟩
          · exact ⟨by simp, rfl⟩
        | gone _ => exact absurd rfl hgone
    intro e' he'
    rcases List.mem_cons.mp he' with rfl | he'
    · exact hbefore.2
    · exact ih hs₀ hbefore.1 e' he'

theorem bound_claimed {s : Target} (h : stages.run t = some (.bound s)) : ∃ e ∈ t, e.isClaimed = true := by
  induction t with
  | nil => cases h
  | cons e t ih =>
    rcases Automaton.run_of_cons h with ⟨s₀, hs₀, hstep⟩
    cases he : e.isStaging with
    | false =>
      have hsame : s₀ = .bound s := Option.some.inj ((Stage.step_other he s₀).symm.trans hstep)
      subst hsame
      rcases ih hs₀ with ⟨e', he', hclaimed⟩
      exact ⟨e', List.mem_cons_of_mem e he', hclaimed⟩
    | true =>
      cases Stage.step_change he hstep with
      | claimed c => exact ⟨_, List.mem_cons_self, rfl⟩

/-! ## Cancel requests claim nothing -/

def ClaimsNothing (w : World) : Prop :=
  w.All fun e => !e.isClaimed

theorem Route.claimsNothing {w w' : World} (h : Route w w') (hw : ClaimsNothing w) : ClaimsNothing w' := by
  rcases h.trace with htrace | ⟨e, he, htrace⟩
  · intro e he
    exact hw e (htrace ▸ he)
  · refine hw.cons htrace ?_
    cases e with
    | claimed c => cases he
    | _ => rfl

theorem handle_claimsNothing (w : World) (hw : w.client.cancelMode = true ∧ ClaimsNothing w) :
    wp (handle fuel ext) (fun _ => ClaimsNothing) (fun _ => ClaimsNothing) w := by
  change wp (if w.client.cancelMode = true then cancelQuery else _) _ _ w
  rw [if_pos hw.1]
  exact Runs.preserves (S := Route) cancelQuery_runs (fun _ _ => Route.claimsNothing) w hw.2

theorem cancel_claimsNothing (client : Client)
    (map : ClientServerMap) (script : List Input) (hcancel : client.cancelMode = true) :
    ClaimsNothing (final (clientEntrypoint fuel ext) (.start client map script)) := by
  have hcons : ∀ (w : World) (e : Event), e.isClaimed = false → ClaimsNothing w →
      ClaimsNothing (w.after e) :=
    fun w e he hw => hw.cons rfl (by simp [he])
  have hreport : ∀ w e, e.isReport = true → ClaimsNothing w → ClaimsNothing (w.after e) := by
    intro w e he hw
    cases e with
    | claimed c => cases he
    | _ => exact hcons w _ rfl hw
  have hstart : ClaimsNothing (.start client map script) := by
    intro e he
    cases he
  exact entrypoint_invariant fuel ext (fun w h => ⟨h.1, hcons w _ rfl h.2⟩)
    (handle_claimsNothing fuel ext) hreport (fun w hw => hcons w .clientDropped rfl hw) _
    ⟨hcancel, hstart⟩

theorem IsSession.claimsNothing {client : Client} (h : IsSession client t)
    (hcancel : client.cancelMode = true) : ∀ e ∈ t, e.isClaimed = false := by
  rcases h with ⟨fuel, ext, map, script, hsuffix⟩
  intro e he
  have hall := cancel_claimsNothing fuel ext client map script hcancel e (hsuffix.subset he)
  simpa using hall

/-! ## Cancel safety -/

section Safety

variable {ι : Type} [DecidableEq ι]

/-- While no client leaves `handle` through an error return or a panic, an entry of the map belongs to a
live client that holds this server, and no other client holds it.  So a cancel request cannot hit a
server that serves someone else. -/
theorem cancel_hits_owner (client : ι → Client) (h : List (ι × Event))
    (hsessions : ∀ i, IsSession (client i) (steps i h)) (hpool : stages.Meets exclusive h)
    (hkeys : ∀ i j, (client i).cancelMode = false → (client j).cancelMode = false →
      live h i = true → live h j = true → (client i).key = (client j).key → i = j)
    (hreturn : ∀ x ∈ h, x.2.returnsWell = true) (key : Key) (s : Target)
    (hmap : sharedMap client h key = some s) :
    ∃ i, ((client i).cancelMode = false ∧ live h i = true ∧ (client i).key = key ∧
        (stages.states h i).held = some s) ∧
      (∀ j, (client j).cancelMode = false → live h j = true → (client j).key = key → j = i) ∧
      ∀ j, (stages.states h j).held = some s → j = i := by
  have howned := bound_owner h hsessions hpool hreturn
  rcases howned.owner key s hmap with ⟨i, hkey, hbound⟩
  have hheld : (stages.states h i).held = some s := by rw [hbound]; rfl
  have hrun : stages.run (steps i h) = some (.bound s) := by
    rcases Option.isSome_iff_exists.mp (hsessions i).accepted with ⟨stage, hstage⟩
    rw [hstage, ← hbound]
    simp [Automaton.states, hstage]
  rcases bound_claimed hrun with ⟨e, he, hclaimed⟩
  have hordinary : (client i).cancelMode = false := by
    by_contra hcancel
    have hnone := (hsessions i).claimsNothing (by simpa using hcancel) e he
    rw [hclaimed] at hnone
    cases hnone
  have hlive : live h i = true := by
    have hdropped := not_dropped hrun (by simp)
    have hne : steps i h ≠ [] := List.ne_nil_of_mem he
    simpa [live, hne] using hdropped
  refine ⟨i, ⟨hordinary, hlive, hkey, hheld⟩, ?_, fun j hj => howned.apart j i s hj hheld⟩
  exact fun j hj hjlive hjkey => hkeys j i hj hordinary hjlive hlive (hjkey.trans hkey.symm)

end Safety

/-! ## Two clients -/

namespace Sample

def pair : Bool → Client
  | false => client
  | true => { client with processId := 3, secretKey := 4 }

def querying (c : Conn) : List Input :=
  checkout (simpleQuery "SELECT 1") c ++ [.sent [[complete "SELECT 0", ready 'I']]]

end Sample

def bothServed : List (Bool × Event) :=
  Sample.twoLives ((Sample.life (Sample.pair false) (Sample.querying (Sample.conn 1))).trace.drop 0)
    ((Sample.life (Sample.pair true) (Sample.querying (Sample.conn 2))).trace.drop 0)

theorem both_hit_owner :
    sharedMap Sample.pair bothServed (1, 2) = some (Sample.conn 1).server.target ∧
    ∃ i, ((Sample.pair i).cancelMode = false ∧ live bothServed i = true ∧
        (Sample.pair i).key = (1, 2) ∧
        (stages.states bothServed i).held = some (Sample.conn 1).server.target) ∧
      (∀ j, (Sample.pair j).cancelMode = false → live bothServed j = true →
        (Sample.pair j).key = (1, 2) → j = i) ∧
      ∀ j, (stages.states bothServed j).held = some (Sample.conn 1).server.target → j = i := by
  have hmap : sharedMap Sample.pair bothServed (1, 2) = some (Sample.conn 1).server.target := by
    decide +kernel
  exact ⟨hmap, cancel_hits_owner Sample.pair bothServed
    (Sample.twoLives_sessions (Sample.life_session _ _ 0) (Sample.life_session _ _ 0))
    (by decide +kernel) (by decide +kernel) (by decide +kernel) (1, 2) _ hmap⟩

/-- A client disconnects inside a transaction: `checkin_cleanup` rolls it back, and `handle` returns an
error with the server still bound to the client. -/
def goneScript : List Input :=
  Sample.checkout (simpleQuery "BEGIN") (Sample.conn 1) ++
    Sample.exchange [Sample.complete "BEGIN", Sample.ready 'T'] ++
    [.clientGone, .sent [[Sample.complete "ROLLBACK", Sample.ready 'I']], .arrives, .arrives]

/-- The pool has the connection back and hands it to another client before the first one is
dropped: four events of its life are still to come. -/
def lateDrop : List (Bool × Event) :=
  Sample.twoLives ((Sample.life (Sample.pair false) goneScript).trace.drop 4)
    ((Sample.life (Sample.pair true) (Sample.querying (Sample.conn 1))).trace.drop 0)

/-- The entry of the client that left leads to the server that serves the other one. -/
theorem late_drop_hits_other :
    (∀ i, IsSession (Sample.pair i) (steps i lateDrop)) ∧ stages.Meets exclusive lateDrop ∧
    (Sample.pair false).key ≠ (Sample.pair true).key ∧
    sharedMap Sample.pair lateDrop (Sample.pair false).key = some (Sample.conn 1).server.target ∧
    (stages.states lateDrop false).held = none ∧
    (stages.states lateDrop true).held = some (Sample.conn 1).server.target := by
  refine ⟨?_, by decide +kernel, by decide +kernel, by decide +kernel, by decide +kernel,
    by decide +kernel⟩
  exact Sample.twoLives_sessions (Sample.life_session _ _ 4) (Sample.life_session _ _ 0)

/-! ## One cancel request -/

/-- A cancel request processed to its end; `ok` says whether the server could be reached. -/
def cancelRequest (fuel : Nat) (ext : Externals) (map : ClientServerMap) (pid secret : Int)
    (ok : Bool) : World :=
  final (clientEntrypoint fuel ext) (.start (Client.cancel pid secret) map [.cancelSent ok])

/-- The servers a session sent cancel requests to. -/
def cancelled (t : List Event) : List Target :=
  t.filterMap fun
    | .cancelled target => some target
    | _ => none

theorem cancelRequest_effect (map : ClientServerMap) (pid secret : Int) (ok : Bool) :
    (cancelRequest fuel ext map pid secret ok).map = update map (pid, secret) none ∧
      cancelled (cancelRequest fuel ext map pid secret ok).trace = (map (pid, secret)).toList := by
  let w : World := World.after (.start (Client.cancel pid secret) map [.cancelSent ok]) (.drain 1)
  refine final_of_wp (P := fun w : World => w.map = update map (pid, secret) none ∧
    cancelled w.trace = (map (pid, secret)).toList) ?_
  change wp (tryCatch (handle fuel ext) afterStop >>= _) _ _ w
  rw [wp_bind, wp_tryCatch]
  change wp cancelQuery _ _ w
  unfold cancelQuery
  rw [wp_bind, wp_get]
  -- `Client::cancel` carries the key of the client whose query is to be cancelled.
  have hkey : w.map w.client.key = map (pid, secret) := rfl
  rw [hkey]
  cases map (pid, secret) with
  | none => exact ⟨rfl, rfl⟩
  | some target =>
    cases ok with
    | true => exact ⟨rfl, rfl⟩
    | false => exact ⟨rfl, rfl⟩

/-- A cancel request leaves the map unchanged just when it finds nothing to cancel. -/
theorem cancelRequest_map_eq_iff (fuel : Nat) (ext : Externals) (map : ClientServerMap)
    (pid secret : Int) (ok : Bool) :
    (cancelRequest fuel ext map pid secret ok).map = map ↔ map (pid, secret) = none := by
  rw [(cancelRequest_effect fuel ext map pid secret ok).1]
  constructor
  · intro h
    rw [← h, update_self]
  · intro h
    rw [← h, update_eq_self]

/-- One client holds a server; the first cancel request reaches it, the second one finds nothing. -/
theorem second_cancel_lost :
    let map : ClientServerMap := update (fun _ => none) (1, 2) (some (Sample.conn 1).server.target)
    let first := cancelRequest 1 Sample.externals map 1 2 true
    cancelled first.trace = [(Sample.conn 1).server.target] ∧ first.map (1, 2) = none ∧
      cancelled (cancelRequest 1 Sample.externals first.map 1 2 true).trace = [] := by
  decide +kernel

end PgCat.Session
