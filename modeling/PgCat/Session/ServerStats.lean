import PgCat.Lib.Interleaving
import PgCat.Session.Stats

/-!
# ServerStats — the server gauges of a pool

`ServerStats` keeps the state of a server connection, `PoolStats` counts the connections in each state.  A
report adds to the gauge of the new state in any case and takes from that of the old one if the two differ;
nothing in a report asks if the connection is still registered.

* `Ledger.Exact`: the gauges are the numbers of registered connections in each state;
* `Pooler.step`: how the connections and the clients of a pool come to report;
* `Pooler.Clean`: the reports that keep the gauges exact, which are also the only ones that do.
-/

namespace PgCat.Session
namespace ServerStats

open Lib Function

/-! ## Gauges -/

inductive ServerState
  | login
  | active
  | tested
  | idle
  deriving DecidableEq, Repr

structure Gauges where
  svLogin : Nat
  svActive : Nat
  svTested : Nat
  svIdle : Nat
  deriving DecidableEq, Repr

namespace Gauges

def default : Gauges := ⟨0, 0, 0, 0⟩

def gauge (g : Gauges) : ServerState → Nat
  | .login => g.svLogin
  | .active => g.svActive
  | .tested => g.svTested
  | .idle => g.svIdle

def modify (g : Gauges) (f : Nat → Nat) : ServerState → Gauges
  | .login => { g with svLogin := f g.svLogin }
  | .active => { g with svActive := f g.svActive }
  | .tested => { g with svTested := f g.svTested }
  | .idle => { g with svIdle := f g.svIdle }

def decreaseFromServerState (g : Gauges) (was : ServerState) : Gauges :=
  g.modify decreaseCounter was

def enter (g : Gauges) (target was : ServerState) : Gauges :=
  let g := g.modify (· + 1) target
  if was ≠ target then g.decreaseFromServerState was else g

def serverLogin (g : Gauges) (was : ServerState) : Gauges := g.enter .login was

def serverActive (g : Gauges) (was : ServerState) : Gauges := g.enter .active was

def serverTested (g : Gauges) (was : ServerState) : Gauges := g.enter .tested was

def serverIdle (g : Gauges) (was : ServerState) : Gauges := g.enter .idle was

def serverDisconnect (g : Gauges) (was : ServerState) : Gauges :=
  g.modify decreaseCounter was

theorem gauge_modify (g : Gauges) (f : Nat → Nat) (s s' : ServerState) :
    (g.modify f s).gauge s' = if s' = s then f (g.gauge s) else g.gauge s' := by
  cases s <;> cases s' <;> rfl

theorem gauge_enter (g : Gauges) (target was s : ServerState) :
    (g.enter target was).gauge s =
      if s = target then g.gauge s + 1
      else if s = was then decreaseCounter (g.gauge s) else g.gauge s := by
  unfold enter decreaseFromServerState
  by_cases hsame : was = target
  · subst hsame
    rw [if_neg (not_not_intro rfl), gauge_modify]
    split
    · rename_i hs
      rw [hs]
    · rfl
  · rw [if_pos hsame, gauge_modify, gauge_modify, gauge_modify, if_neg hsame]
    by_cases hs : s = target
    · subst hs
      rw [if_neg (Ne.symm hsame), if_pos rfl, if_pos rfl]
    · rw [if_neg hs, if_neg hs]
      split
      · rename_i hwas
        rw [hwas]
      · rfl

end Gauges

theorem decreaseCounter_eq (n : Nat) : decreaseCounter n = n - 1 := by
  unfold decreaseCounter
  split
  · rfl
  · omega

/-! ## The ledger -/

/-- What is kept of a server connection; the state stays when it is not registered any more. -/
structure Entry where
  registered : Bool
  state : ServerState
  deriving DecidableEq, Repr

variable {σ : Type}

structure Ledger (σ : Type) where
  gauges : Gauges
  entries : σ → Entry

inductive Call
  | register
  | report (target : ServerState)
  | disconnect
  deriving DecidableEq, Repr

namespace Ledger

def start : Ledger σ := ⟨.default, fun _ => ⟨false, .login⟩⟩

section Calls

variable [DecidableEq σ] (L : Ledger σ) (s : σ)

def set (gauges : Gauges) (entry : Entry) : Ledger σ := ⟨gauges, update L.entries s entry⟩

def register : Ledger σ := L.set s (L.gauges.serverLogin .login) ⟨true, .login⟩

def report (target : ServerState) : Ledger σ :=
  L.set s (L.gauges.enter target (L.entries s).state) ⟨(L.entries s).registered, target⟩

def login : Ledger σ := L.report s .login

def active : Ledger σ := L.report s .active

def tested : Ledger σ := L.report s .tested

def idle : Ledger σ := L.report s .idle

def disconnect : Ledger σ :=
  L.set s (L.gauges.serverDisconnect (L.entries s).state) ⟨false, (L.entries s).state⟩

def call : Call → Ledger σ
  | .register => L.register s
  | .report target => L.report s target
  | .disconnect => L.disconnect s

end Calls

section Exact

variable [Fintype σ]

def live (L : Ledger σ) (state : ServerState) : Nat :=
  census L.entries fun entry => entry.registered = true ∧ entry.state = state

def Exact (L : Ledger σ) : Prop :=
  ∀ state, L.gauges.gauge state = L.live state

theorem start_exact : (start : Ledger σ).Exact := by
  intro state
  have hnone : (start : Ledger σ).live state = 0 := by
    simp [live, census, start]
  rw [hnone]
  cases state with
  | _ => rfl

theorem live_pos {L : Ledger σ} {s : σ} (h : (L.entries s).registered = true) :
    0 < L.live (L.entries s).state :=
  census_pos ⟨h, rfl⟩

/-- The reports that keep exact gauges exact. -/
def Allows (L : Ledger σ) : Option (σ × Call) → Prop
  | none | some (_, .register) => True
  | some (s, .report target) => (L.entries s).registered = true ∧ (L.entries s).state ≠ target
  | some (s, .disconnect) => (L.entries s).registered = true ∨ L.live (L.entries s).state = 0

instance (L : Ledger σ) : ∀ call, Decidable (L.Allows call)
  | none | some (_, .register) => .isTrue trivial
  | some (s, .report target) =>
    inferInstanceAs (Decidable ((L.entries s).registered = true ∧ (L.entries s).state ≠ target))
  | some (s, .disconnect) =>
    inferInstanceAs (Decidable ((L.entries s).registered = true ∨ L.live (L.entries s).state = 0))

variable [DecidableEq σ] {L : Ledger σ} {s : σ}

theorem live_set (L : Ledger σ) (s : σ) (gauges : Gauges) (entry : Entry) (state : ServerState) :
    (L.set s gauges entry).live state +
        (if (L.entries s).registered = true ∧ (L.entries s).state = state then 1 else 0) =
      L.live state + if entry.registered = true ∧ entry.state = state then 1 else 0 :=
  census_update L.entries s entry _

theorem set_exact_iff (h : L.Exact) {gauges : Gauges} {entry : Entry} :
    (L.set s gauges entry).Exact ↔ ∀ state,
      gauges.gauge state +
          (if (L.entries s).registered = true ∧ (L.entries s).state = state then 1 else 0) =
        L.gauges.gauge state + if entry.registered = true ∧ entry.state = state then 1 else 0 := by
  refine forall_congr' fun state => ?_
  have hlive := live_set L s gauges entry state
  have hbefore := h state
  have hgauge : (L.set s gauges entry).gauges.gauge state = gauges.gauge state := rfl
  omega

theorem register_exact (h : L.Exact) (hs : (L.entries s).registered = false) : (L.register s).Exact := by
  refine (set_exact_iff h).mpr fun state => ?_
  rw [Gauges.serverLogin, Gauges.gauge_enter]
  by_cases hstate : state = .login
  · simp [hs, hstate]
  · simp [hs, hstate, Ne.symm hstate]

theorem report_exact_iff (h : L.Exact) {target : ServerState} :
    (L.report s target).Exact ↔ (L.entries s).registered = true ∧ (L.entries s).state ≠ target := by
  rw [report, set_exact_iff h]
  cases hregistered : (L.entries s).registered with
  | false =>
    refine ⟨fun hall => ?_, fun hboth => by cases hboth.1⟩
    have htarget := hall target
    simp [Gauges.gauge_enter] at htarget
  | true =>
    have hpos : 0 < L.gauges.gauge (L.entries s).state := h _ ▸ live_pos hregistered
    refine ⟨fun hall => ⟨rfl, fun hsame => ?_⟩, fun hboth state => ?_⟩
    · have htarget := hall target
      simp [Gauges.gauge_enter, hsame] at htarget
    · rw [Gauges.gauge_enter, decreaseCounter_eq]
      by_cases htarget : state = target
      · subst htarget
        simp [hboth.2]
      · by_cases hwas : state = (L.entries s).state
        · subst hwas
          have hentry : (if true = true ∧ (L.entries s).state = (L.entries s).state then 1 else 0) = 1 :=
            if_pos ⟨rfl, rfl⟩
          rw [if_neg htarget, if_pos rfl, hentry, if_neg fun h => htarget h.2.symm]
          omega
        · simp [htarget, hwas, Ne.symm htarget, Ne.symm hwas]

theorem disconnect_exact_iff (h : L.Exact) :
    (L.disconnect s).Exact ↔
      (L.entries s).registered = true ∨ L.live (L.entries s).state = 0 := by
  rw [disconnect, set_exact_iff h]
  have hgauge : ∀ state, (L.gauges.serverDisconnect (L.entries s).state).gauge state =
      if state = (L.entries s).state then L.gauges.gauge (L.entries s).state - 1
      else L.gauges.gauge state := by
    intro state
    rw [Gauges.serverDisconnect, Gauges.gauge_modify, decreaseCounter_eq]
  have hbefore := h (L.entries s).state
  cases hregistered : (L.entries s).registered with
  | false =>
    refine ⟨fun hall => .inr ?_, fun hnone state => ?_⟩
    · have hwas := hall (L.entries s).state
      rw [hgauge, if_pos rfl, if_neg (by simp)] at hwas
      omega
    · rw [hgauge]
      rcases hnone with hreg | hzero
      · cases hreg
      · split
        · rename_i hstate
          subst hstate
          rw [if_neg (by simp)]
          omega
        · rfl
  | true =>
    have hpos := live_pos hregistered
    refine ⟨fun _ => .inl rfl, fun _ state => ?_⟩
    rw [hgauge]
    by_cases hwas : state = (L.entries s).state
    · subst hwas
      rw [if_pos rfl, if_pos ⟨rfl, rfl⟩, if_neg (by simp)]
      omega
    · simp [hwas, Ne.symm hwas]

end Exact

end Ledger

/-! ## Connections and clients -/

variable {κ : Type}

/-- Where a server connection is. -/
inductive Life
  | absent
  | connecting
  /-- Dropped at the end of a startup that failed; the error is still to be handled. -/
  | dropped
  | pooled
  | held
  | dead
  deriving DecidableEq, Repr

/-- Where a client is with its server. -/
inductive Hold (σ : Type)
  | free
  /-- Got a connection that is not reported yet. -/
  | got (s : σ)
  /-- The health check is running. -/
  | testing (s : σ)
  /-- `connected_to_server` is set, and `last_server_stats` is that of the connection. -/
  | attached (s : σ)
  /-- Reported idle, the connection still in its hands. -/
  | released (s : σ)
  /-- `handle` has returned with an error: the connection is gone, the two fields are as they were. -/
  | failed (s : σ)
  | gone
  deriving DecidableEq, Repr

/-- A pool: its server statistics, its connections and its clients. -/
structure Pooler (σ κ : Type) where
  ledger : Ledger σ
  lives : σ → Life
  holds : κ → Hold σ

def Pooler.start : Pooler σ κ := ⟨.start, fun _ => .absent, fun _ => .free⟩

inductive Event (σ κ : Type)
  /-- A connection is registered. -/
  | connect (s : σ)
  | startup (s : σ)
  /-- The connection fails after it was made, and is dropped. -/
  | abandon (s : σ)
  /-- The startup returns an error. -/
  | refuse (s : σ)
  /-- The pool drops a connection. -/
  | expire (s : σ)
  | take (c : κ) (s : σ)
  | activate (c : κ)
  | test (c : κ)
  | unhealthy (c : κ)
  /-- The task of the client panics before it is attached. -/
  | panic (c : κ) (bad : Bool)
  | release (c : κ)
  | giveBack (c : κ) (bad : Bool)
  /-- `handle` returns with an error. -/
  | fail (c : κ) (bad : Bool)
  | dropClient (c : κ)

namespace Pooler

section Step

variable [DecidableEq σ] [DecidableEq κ] (p : Pooler σ κ)

def report (s : σ) (call : Call) : Pooler σ κ := { p with ledger := p.ledger.call s call }

def live (s : σ) (life : Life) : Pooler σ κ := { p with lives := update p.lives s life }

def hold (c : κ) (hold : Hold σ) : Pooler σ κ := { p with holds := update p.holds c hold }

/-- A connection leaves the hands of a client: a broken one is dropped, any other goes back to the pool. -/
def putBack (s : σ) (bad : Bool) : Pooler σ κ :=
  if bad = true then (p.report s .disconnect).live s .dead else p.live s .pooled

/-- One step; `none` if it cannot be taken. -/
def step : Event σ κ → Option (Pooler σ κ)
  | .connect s =>
    if p.lives s = .absent then some ((p.report s .register).live s .connecting) else none
  | .startup s =>
    if p.lives s = .connecting then some ((p.report s (.report .idle)).live s .pooled) else none
  | .abandon s =>
    if p.lives s = .connecting then some ((p.report s .disconnect).live s .dropped) else none
  | .refuse s =>
    if p.lives s = .connecting ∨ p.lives s = .dropped then
      some ((p.report s .disconnect).live s .dead)
    else none
  | .expire s => if p.lives s = .pooled then some ((p.report s .disconnect).live s .dead) else none
  | .take c s =>
    if p.holds c = .free ∧ p.lives s = .pooled then some ((p.live s .held).hold c (.got s)) else none
  | .activate c =>
    match p.holds c with
    | .got s | .testing s => some ((p.report s (.report .active)).hold c (.attached s))
    | _ => none
  | .test c =>
    match p.holds c with
    | .got s => some ((p.report s (.report .tested)).hold c (.testing s))
    | _ => none
  | .unhealthy c =>
    match p.holds c with
    | .testing s => some ((p.putBack s true).hold c .free)
    | _ => none
  | .panic c bad =>
    match p.holds c with
    | .got s | .testing s => some ((p.putBack s bad).hold c .gone)
    | _ => none
  | .release c =>
    match p.holds c with
    | .attached s => some ((p.report s (.report .idle)).hold c (.released s))
    | _ => none
  | .giveBack c bad =>
    match p.holds c with
    | .released s => some ((p.putBack s bad).hold c .free)
    | _ => none
  | .fail c bad =>
    match p.holds c with
    | .attached s => some ((p.putBack s bad).hold c (.failed s))
    | _ => none
  | .dropClient c =>
    match p.holds c with
    | .free => some (p.hold c .gone)
    | .failed s => some ((p.report s (.report .idle)).hold c .gone)
    | _ => none

def automaton : Automaton (Event σ κ) (Pooler σ κ) where
  start := .start
  step := step

end Step

/-- The report a step makes, if it makes one. -/
def calls (p : Pooler σ κ) : Event σ κ → Option (σ × Call)
  | .connect s => some (s, .register)
  | .startup s => some (s, .report .idle)
  | .abandon s | .refuse s | .expire s => some (s, .disconnect)
  | .take _ _ => none
  | .activate c =>
    match p.holds c with
    | .got s | .testing s => some (s, .report .active)
    | _ => none
  | .test c =>
    match p.holds c with
    | .got s => some (s, .report .tested)
    | _ => none
  | .unhealthy c =>
    match p.holds c with
    | .testing s => some (s, .disconnect)
    | _ => none
  | .panic c bad =>
    match p.holds c with
    | .got s | .testing s => if bad = true then some (s, .disconnect) else none
    | _ => none
  | .release c =>
    match p.holds c with
    | .attached s => some (s, .report .idle)
    | _ => none
  | .giveBack c bad =>
    match p.holds c with
    | .released s => if bad = true then some (s, .disconnect) else none
    | _ => none
  | .fail c bad =>
    match p.holds c with
    | .attached s => if bad = true then some (s, .disconnect) else none
    | _ => none
  | .dropClient c =>
    match p.holds c with
    | .failed s => some (s, .report .idle)
    | _ => none

/-- What keeps exact gauges exact. -/
def Clean [Fintype σ] (p : Pooler σ κ) (e : Event σ κ) : Prop :=
  p.ledger.Allows (p.calls e)

instance [Fintype σ] (p : Pooler σ κ) (e : Event σ κ) : Decidable (p.Clean e) :=
  inferInstanceAs (Decidable (p.ledger.Allows (p.calls e)))

end Pooler

/-! ## What a step does -/

section Effect

variable [DecidableEq σ] {p p' : Pooler σ κ}

/-- The ledger changes by the report of the step, and only a connection that was not there is registered. -/
structure Effect (p : Pooler σ κ) (e : Event σ κ) (p' : Pooler σ κ) : Prop where
  ledger : p'.ledger = (p.calls e).elim p.ledger fun call => p.ledger.call call.1 call.2
  lives : ∀ s, p'.lives s = .absent → p.lives s = .absent
  fresh : ∀ s, p.calls e = some (s, .register) → p.lives s = .absent ∧ p'.lives s ≠ .absent

variable {call : Call} {life : Life} {e : Event σ κ} {s : σ}

theorem absent_of_live {s s' : σ} (hlife : life ≠ .absent)
    (h : (p.live s life).lives s' = .absent) : p.lives s' = .absent := by
  change update p.lives s life s' = _ at h
  rw [update_apply] at h
  split at h
  · exact absurd h hlife
  · exact h

theorem effect_silent (hcalls : p.calls e = none) : Effect p e p :=
  ⟨by rw [hcalls]; rfl, fun _ h => h, fun s h => by rw [hcalls] at h; cases h⟩

theorem effect_live (hcalls : p.calls e = none)
    (hlife : life ≠ .absent) : Effect p e (p.live s life) :=
  ⟨by rw [hcalls]; rfl, fun _ h => absent_of_live hlife h, fun s h => by rw [hcalls] at h; cases h⟩

theorem effect_report (hcalls : p.calls e = some (s, call))
    (hcall : call ≠ .register) : Effect p e (p.report s call) := by
  refine ⟨by rw [hcalls]; rfl, fun _ h => h, fun s' h => ?_⟩
  rw [hcalls] at h
  cases h
  exact absurd rfl hcall

theorem effect_report_live (hcalls : p.calls e = some (s, call)) (hcall : call ≠ .register) (hlife : life ≠ .absent) :
    Effect p e ((p.report s call).live s life) := by
  have h := effect_report hcalls hcall
  exact ⟨h.ledger, fun _ habsent => absent_of_live hlife habsent, fun s' hs' => by
    rw [hcalls] at hs'
    cases hs'
    exact absurd rfl hcall⟩

theorem effect_putBack {bad : Bool}
    (hcalls : p.calls e = if bad = true then some (s, .disconnect) else none) :
    Effect p e (p.putBack s bad) := by
  rw [Pooler.putBack]
  split
  · rename_i hbad
    exact effect_report_live (by rw [hcalls, if_pos hbad]) (by decide) (by decide)
  · rename_i hbad
    exact effect_live (by rw [hcalls, if_neg hbad]) (by decide)

variable [DecidableEq κ]

theorem Effect.hold (h : Effect p e p') (c : κ) (held : Hold σ) :
    Effect p e (p'.hold c held) :=
  ⟨h.ledger, h.lives, h.fresh⟩

theorem step_effect (hstep : p.step e = some p') : Effect p e p' := by
  -- Connections come and go by themselves up to `expire`; from `take` on a client holds one.
  cases e with
  | connect s =>
    obtain ⟨habsent, ⟨⟩⟩ := Option.ite_none_right_eq_some.mp hstep
    refine ⟨rfl, fun s' h => absent_of_live (by decide) h, fun s' h => ?_⟩
    cases h
    refine ⟨habsent, ?_⟩
    change update p.lives s .connecting s ≠ _
    rw [update_self]
    decide
  | startup s | abandon s | refuse s | expire s =>
    obtain ⟨-, ⟨⟩⟩ := Option.ite_none_right_eq_some.mp hstep
    exact effect_report_live rfl (by decide) (by decide)
  | take c s =>
    obtain ⟨-, ⟨⟩⟩ := Option.ite_none_right_eq_some.mp hstep
    exact (effect_live rfl (by decide)).hold _ _
  | activate c =>
    rw [Pooler.step] at hstep
    split at hstep
    · rename_i hhold
      cases hstep
      exact (effect_report (by rw [Pooler.calls, hhold]) (by decide)).hold _ _
    · rename_i hhold
      cases hstep
      exact (effect_report (by rw [Pooler.calls, hhold]) (by decide)).hold _ _
    · cases hstep
  | test c | release c =>
    rw [Pooler.step] at hstep
    split at hstep
    · rename_i hhold
      cases hstep
      exact (effect_report (by rw [Pooler.calls, hhold]) (by decide)).hold _ _
    · cases hstep
  | unhealthy c =>
    rw [Pooler.step] at hstep
    split at hstep
    · rename_i hhold
      cases hstep
      exact (effect_putBack (by rw [Pooler.calls, hhold]; rfl)).hold _ _
    · cases hstep
  | panic c bad =>
    rw [Pooler.step] at hstep
    split at hstep
    · rename_i hhold
      cases hstep
      exact (effect_putBack (by rw [Pooler.calls, hhold])).hold _ _
    · rename_i hhold
      cases hstep
      exact (effect_putBack (by rw [Pooler.calls, hhold])).hold _ _
    · cases hstep
  | giveBack c bad | fail c bad =>
    rw [Pooler.step] at hstep
    split at hstep
    · rename_i hhold
      cases hstep
      exact (effect_putBack (by rw [Pooler.calls, hhold])).hold _ _
    · cases hstep
  | dropClient c =>
    rw [Pooler.step] at hstep
    split at hstep
    · rename_i hhold
      cases hstep
      exact (effect_silent (by rw [Pooler.calls, hhold])).hold _ _
    · rename_i hhold
      cases hstep
      exact (effect_report (by rw [Pooler.calls, hhold]) (by decide)).hold _ _
    · cases hstep

/-- A connection that is not there is not registered. -/
def Pooler.Fresh (p : Pooler σ κ) : Prop :=
  ∀ s, p.lives s = .absent → (p.ledger.entries s).registered = false

theorem registered_of_call {L : Ledger σ} {s s' : σ} (h : ((L.call s call).entries s').registered = true) :
    (s' = s ∧ call = .register) ∨ (L.entries s').registered = true := by
  by_cases hs : s' = s
  · subst hs
    cases call with
    | register => exact .inl ⟨rfl, rfl⟩
    | report target =>
      simp only [Ledger.call, Ledger.report, Ledger.set, update_self] at h
      exact .inr h
    | disconnect =>
      simp only [Ledger.call, Ledger.disconnect, Ledger.set, update_self] at h
      cases h
  · right
    cases call with
    | _ =>
      simp only [Ledger.call, Ledger.register, Ledger.report, Ledger.disconnect, Ledger.set,
        update_of_ne hs] at h
      exact h

theorem step_fresh (h : p.Fresh) (hstep : p.step e = some p') : p'.Fresh := by
  intro s habsent
  have heffect := step_effect hstep
  have hbefore := h s (heffect.lives s habsent)
  rw [heffect.ledger]
  cases hcalls : p.calls e with
  | none => exact hbefore
  | some call =>
    refine Bool.eq_false_iff.mpr fun hregistered => ?_
    rcases registered_of_call hregistered with ⟨rfl, hcall⟩ | hregistered
    · have hcall : call = (call.1, .register) := Prod.ext rfl hcall
      rw [hcall] at hcalls
      exact (heffect.fresh _ hcalls).2 habsent
    · rw [hbefore] at hregistered
      cases hregistered

variable [Fintype σ]

theorem step_exact_iff (hfresh : p.Fresh) (hexact : p.ledger.Exact)
    (hstep : p.step e = some p') : p'.ledger.Exact ↔ p.Clean e := by
  have heffect := step_effect hstep
  rw [heffect.ledger, Pooler.Clean]
  cases hcalls : p.calls e with
  | none => exact ⟨fun _ => trivial, fun _ => hexact⟩
  | some made =>
    rcases made with ⟨s, call⟩
    cases call with
    | register =>
      have habsent := (heffect.fresh s hcalls).1
      exact ⟨fun _ => trivial, fun _ => Ledger.register_exact hexact (hfresh s habsent)⟩
    | report target => exact Ledger.report_exact_iff hexact
    | disconnect => exact Ledger.disconnect_exact_iff hexact

/-- In any interleaving of the connections and the clients of a pool, the server gauges are the numbers of
registered connections in each state after every step if and only if every report is made for a
connection that is registered and that was in another state, and every disconnect for one that is
registered or with no connection left in its last state. -/
theorem server_gauges_exact_iff {t : List (Event σ κ)} (hrun : Pooler.automaton.run t = some p) :
    (∀ t' p', t' <:+ t → Pooler.automaton.run t' = some p' → p'.ledger.Exact) ↔
      Pooler.automaton.Along Pooler.Clean t :=
  (Automaton.always_iff Ledger.start_exact (fun _ _ => rfl) (fun _ _ _ => step_fresh)
    (fun _ _ _ => step_exact_iff) hrun).2

end Effect

namespace Sample

def transaction : List (Event Unit Unit) :=
  [.giveBack () false, .release (), .activate (), .take () (), .startup (), .connect ()]

/-- The connection dies under the client, which leaves with the error. -/
def death : List (Event Unit Unit) :=
  [.dropClient (), .fail () true, .activate (), .take () (), .startup (), .connect ()]

theorem transaction_exact :
    ∃ p, Pooler.automaton.run transaction = some p ∧ p.lives () = .pooled ∧
      ∀ t' p', t' <:+ transaction → Pooler.automaton.run t' = some p' → p'.ledger.Exact := by
  have hall : (Pooler.automaton.run transaction).any (fun p => decide (p.lives () = .pooled)) = true := by
    decide +kernel
  obtain ⟨p, hrun, hp⟩ := (Option.any_eq_true _ _).mp hall
  have hclean : Pooler.automaton.check (fun p e => decide (p.Clean e)) transaction = true := by
    decide +kernel
  exact ⟨p, hrun, of_decide_eq_true hp, (server_gauges_exact_iff hrun).mpr
    (Automaton.along_of_check (fun _ _ => of_decide_eq_true) hclean)⟩

/-- The client reports the dead connection idle. -/
theorem dead_server_counted_idle :
    ∃ p, Pooler.automaton.run death = some p ∧ p.lives () = .dead ∧
      p.ledger.gauges.svIdle = 1 ∧ p.ledger.live .idle = 0 ∧ ¬ p.ledger.Exact := by
  have hall : (Pooler.automaton.run death).any (fun p => decide (p.lives () = .dead ∧
      p.ledger.gauges.svIdle = 1 ∧ p.ledger.live .idle = 0)) = true := by
    decide +kernel
  obtain ⟨p, hrun, hp⟩ := (Option.any_eq_true _ _).mp hall
  obtain ⟨hdead, hgauge, hlive⟩ := of_decide_eq_true hp
  refine ⟨p, hrun, hdead, hgauge, hlive, fun hexact => ?_⟩
  have hidle : p.ledger.gauges.svIdle = p.ledger.live .idle := hexact .idle
  rw [hgauge, hlive] at hidle
  cases hidle

end Sample

end ServerStats
end PgCat.Session
