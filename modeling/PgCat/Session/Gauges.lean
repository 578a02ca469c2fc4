import PgCat.Session.Rules
import PgCat.Session.Stats

/-!
# Gauges — the client gauges count the clients

`lifecycle` is the order in which a client reports: it registers once, then it is idle, waiting or
active, a failed checkout is reported of an idle client only, and after `disconnect` nothing but
another `disconnect` follows.  Every trace of `client_entrypoint` is accepted.  Over any interleaving of
such clients the gauges of the pool are the numbers of clients in each state, as long as `ban_error`
finds its client idle and no client disconnects twice.
-/

namespace PgCat.Session

open Lib Protocol Router Function

/-! ## The life of a client -/

inductive Phase
  | unregistered
  | registered (s : ClientState)
  | gone
  deriving DecidableEq, Repr

namespace Phase

def call : Phase → Stat → Option Phase
  | .unregistered, .register => some (.registered .idle)
  | .registered _, .waiting => some (.registered .waiting)
  | .registered _, .active => some (.registered .active)
  | .registered _, .idle => some (.registered .idle)
  | .registered _, .banError => some (.registered .idle)
  | .registered s, .checkoutError => if s = .idle then some (.registered .idle) else none
  | .registered _, .disconnect => some .gone
  -- Nothing is counted of a client that is gone.
  | .gone, .disconnect => some .gone
  | .gone, .banError => some .gone
  | phase, s => if s.isGauge ∨ s = .banError then none else some phase

end Phase

def lifecycle : Automaton Event Phase where
  start := .unregistered
  step phase e :=
    match e with
    | .stat s => phase.call s
    | _ => some phase

def Registered (w : World) : Prop :=
  ∃ s, lifecycle.run w.trace = some (.registered s)

def Gone (w : World) : Prop :=
  lifecycle.run w.trace = some .gone

def Known (w : World) : Prop :=
  Registered w ∨ Gone w

def Event.isCalm : Event → Bool
  | .stat s => !s.isGauge
  | _ => true

variable (fuel : Nat) (ext : Externals) (pool : ConnectionPool) (a : Address) (m : Message) {e : Event}
  {phase : Phase} {w w' : World}

theorem Event.isCalm_of_isPlain (h : e.isPlain = true) : e.isCalm = true := by
  cases e with
  | stat s => exact h
  | _ => rfl

theorem Event.isCalm_of_isRouting (h : e.isRouting = true) : e.isCalm = true := by
  cases e with
  | stat s => cases h
  | _ => rfl

theorem run_after {phase' : Phase}
    (hw : lifecycle.run w.trace = some phase) (htrace : w'.trace = e :: w.trace)
    (hstep : lifecycle.step phase e = some phase') : lifecycle.run w'.trace = some phase' := by
  rw [htrace]
  exact Automaton.run_cons hw hstep

theorem Registered.calm (hw : Registered w)
    (htrace : w'.trace = e :: w.trace) (he : e.isCalm = true) : Registered w' := by
  obtain ⟨s, hs⟩ := hw
  cases e with
  | stat c =>
    cases c <;> first | exact ⟨_, run_after hs htrace rfl⟩ | cases he
  | _ => exact ⟨s, run_after hs htrace rfl⟩

theorem Gone.calm (hw : Gone w) (htrace : w'.trace = e :: w.trace) (he : e.isCalm = true) : Gone w' := by
  cases e with
  | stat c =>
    cases c <;> first | exact run_after hw htrace rfl | cases he
  | _ => exact run_after hw htrace rfl

/-! ## What keeps a client registered -/

/-- Facts about the trace that calm events do not change. -/
class Calm (P : World → Prop) : Prop where
  same : ∀ {w w' : World}, w'.trace = w.trace → P w → P w'
  calm : ∀ {w w' : World} {e : Event}, w'.trace = e :: w.trace → e.isCalm = true → P w → P w'

instance : Calm Registered where
  same htrace hw := by
    obtain ⟨s, hs⟩ := hw
    exact ⟨s, htrace ▸ hs⟩
  calm htrace he hw := hw.calm htrace he

instance : Calm Gone where
  same htrace hw := by
    unfold Gone
    rw [htrace]
    exact hw
  calm htrace he hw := hw.calm htrace he

section Keeps

variable {P : World → Prop} [Calm P]

instance : Notes (Keeps P) where
  input _ _ := Calm.same rfl
  note _ _ he := Calm.calm rfl (Event.isCalm_of_isPlain he)

instance : Clients (Keeps P) where
  client _ _ _ := Calm.same rfl

instance : Hears (Keeps P) where
  server _ _ _ := Calm.same rfl
  received _ _ _ _ := Calm.calm rfl rfl

instance (fromClient : Bool) : Sends (Keeps P) fromClient where
  sent _ _ _ := Calm.calm rfl rfl

instance : Binds (Keeps P) where
  claimed _ := Calm.calm rfl rfl
  released _ := Calm.calm rfl rfl

instance : Reads (Keeps P) where
  message _ _ := Calm.calm rfl rfl

instance : Pools (Keeps P) where
  checkedOut _ _ _ := Calm.calm rfl rfl
  dropped _ _ _ := Calm.calm rfl rfl

instance : Routers (Keeps P) where
  router _ _ := Calm.same rfl
  routing _ _ he := Calm.calm rfl (Event.isCalm_of_isRouting he)

end Keeps

instance : Gauges (Keeps Registered) where
  gauge w s hs := by
    rintro ⟨was, hwas⟩
    rcases hs with rfl | rfl | rfl
    · exact ⟨_, run_after hwas rfl rfl⟩
    · exact ⟨_, run_after hwas rfl rfl⟩
    · exact ⟨_, run_after hwas rfl rfl⟩
  refused w := by
    refine .single ?_
    rintro ⟨was, hwas⟩
    have hidle : lifecycle.run (.stat .idle :: w.trace) = some (.registered .idle) :=
      Automaton.run_cons hwas rfl
    exact ⟨.idle, Automaton.run_cons hidle rfl⟩

theorem registered_seq {α : Type} {m : Program α} (hm : Runs (Keeps Registered) m)
    (hw : Registered w) : wp m (fun _ => Registered) (fun _ => Known) w :=
  wp_mono (keeps hm hw) (fun _ _ h => h) (fun _ _ h => .inl h)

theorem wp_stat {s : Stat} {Q : Unit → World → Prop} {E : Stop → World → Prop} :
    wp (stat s) Q E w ↔ Q () (w.after (.stat s)) :=
  Iff.rfl

theorem Registered.disconnect (hw : Registered w)
    (htrace : w'.trace = .stat .disconnect :: w.trace) : Gone w' := by
  obtain ⟨s, hs⟩ := hw
  exact run_after hs htrace rfl

theorem Known.disconnect (hw : Known w) (htrace : w'.trace = .stat .disconnect :: w.trace) : Known w' := by
  rcases hw with hw | hw
  · exact .inr (hw.disconnect htrace)
  · exact .inr (run_after hw htrace rfl)

theorem Known.calm (hw : Known w) (htrace : w'.trace = e :: w.trace) (he : e.isCalm = true) : Known w' :=
  hw.imp (fun h => h.calm htrace he) (fun h => h.calm htrace he)

/-! ## Up to the checkout -/

theorem awaitMessage_registered (hw : Registered w) :
    wp awaitMessage (fun read w' => if read.isSome then Registered w' else Known w')
      (fun _ => Known) w := by
  refine awaitMessage_rule (fun _ => .inl) (fun _ _ _ _ _ => Calm.same rfl) ?_ (fun _ _ h => h.calm rfl rfl) ?_ hw
  · exact fun w rest h => .inl (Calm.same (w := w) rfl h)
  · intro w₁ h₁
    refine wp_seq (registered_seq (writeClient_runs _) h₁) ?_
    intro _ w₂ h₂
    exact .inr (h₂.disconnect rfl)

theorem intake_registered (hw : Registered w) :
    wp (intake ext m) (fun i w' => if i = .terminated then Known w' else Registered w')
      (fun _ => Known) w := by
  by_cases hm : m.frontend = .terminate
  · unfold intake
    rw [hm]
    exact .inr (hw.disconnect rfl)
  · refine wp_imp (registered_seq (intake_runs ext m fun h => absurd h hm) hw) ?_
    intro i w' h
    split
    · exact .inl h
    · exact h

theorem route_registered (hw : Registered w) :
    wp (route fuel ext) (Turn.Leaves Registered Registered Known) (fun _ => Known) w := by
  rw [route]
  refine wp_seq (awaitMessage_registered hw) ?_
  intro read w₁ h₁
  cases read with
  | none => exact h₁
  | some m =>
    dsimp only
    refine wp_seq (intake_registered ext m h₁) ?_
    intro i w₂ h₂
    cases i with
    | buffered => exact h₂
    | terminated => exact h₂
    | forward =>
      refine wp_imp (registered_seq (forward_runs fuel ext m) h₂) ?_
      intro turn w₃ h₃
      cases turn with
      | again => exact h₃
      | returned => exact .inl h₃
      | serve pool a m => exact h₃

/-! ## Serving -/

theorem awaitInTransaction_registered (idleTimeout : Nat) (hw : Registered w) :
    wp (awaitInTransaction fuel idleTimeout) (fun _ => Registered) (fun _ => Known) w := by
  rw [awaitInTransaction]
  refine wp_seq (registered_seq next_runs hw) ?_
  intro i w₁ h₁
  split
  · exact h₁.calm rfl rfl
  · -- The client disconnected inside a transaction; the server is cleaned up before the error return.
    rw [wp_bind, wp_stat, wp_bind]
    have hgone : Gone (w₁.after (.stat .disconnect)) := h₁.disconnect rfl
    exact wp_mono (keeps (checkinCleanup_runs fuel) hgone) (fun _ _ h => .inr h) (fun _ _ h => .inr h)
  · rw [wp_ite]
    refine ⟨fun _ => .inl h₁, fun _ => ?_⟩
    rw [wp_bind]
    exact registered_seq (writeClient_runs _) h₁
  · exact .inl h₁

/-- `Terminate` ends the loop; every other message keeps the client registered. -/
def Leaves (exit : Option Exit) (w : World) : Prop :=
  if exit = some .finished then Known w else Registered w

theorem Registered.leaves (hw : Registered w) (exit : Option Exit) : Leaves exit w := by
  unfold Leaves
  split
  · exact .inl hw
  · exact hw

theorem dispatch_leaves (hw : Registered w) : wp (dispatch fuel pool a m) Leaves (fun _ => Known) w := by
  refine dispatch_rule ?_ fun hm =>
    registered_seq (dispatch_runs fuel pool a m fun h => absurd h hm) hw
  intro _
  rw [handleTerminate]
  refine wp_seq (registered_seq (checkinCleanup_runs fuel) hw) ?_
  intro _ w₁ h₁
  rw [wp_bind, wp_stat, wp_bind]
  have hgone : Gone (w₁.after (.stat .disconnect)) := h₁.disconnect rfl
  exact wp_mono (keeps release_runs hgone) (fun _ _ h => .inr h) (fun _ _ h => .inr h)

theorem checkin_leaves {exit : Exit} (hw : Leaves (some exit) w) :
    wp (checkin fuel exit) (fun _ => Leaves (some exit)) (fun _ => Known) w := by
  by_cases hexit : exit = .finished
  · unfold checkin
    rw [if_pos hexit]
    exact hw
  · have hregistered : Registered w := by simpa [Leaves, hexit] using hw
    exact wp_imp (registered_seq (checkin_runs fuel exit) hregistered) (fun _ _ h => h.leaves _)

theorem Leaves.calm {exit : Option Exit} (hw : Leaves exit w)
    (htrace : w'.trace = e :: w.trace) (he : e.isCalm = true) : Leaves exit w' := by
  unfold Leaves at hw ⊢
  by_cases hexit : exit = some .finished
  · rw [if_pos hexit] at hw ⊢
    exact hw.calm htrace he
  · rw [if_neg hexit] at hw ⊢
    exact hw.calm htrace he

theorem serveHeld_leaves (hw : Registered w) :
    wp (serveHeld fuel pool a m) (fun exit => Leaves (some exit)) (fun _ => Known) w := by
  refine serveHeld_served_rule (R := Leaves) (registered_seq (assign_runs fuel a) hw)
    (fun _ h => registered_seq idleTimeoutSetting_runs h)
    (fun idleTimeout _ h => awaitInTransaction_registered fuel idleTimeout h)
    (fun _ h => h) (fun m _ h => dispatch_leaves fuel pool a m h) (fun _ h => .inl h) ?_
  intro exit w' h
  exact checkin_leaves fuel (h.calm rfl rfl)

theorem serve_registered (w : World) (hw : Registered w) :
    wp (serve fuel pool a m) (fun fin w' => if fin then Known w' else Registered w')
      (fun _ => Known) w := by
  refine serve_rule (serveHeld_leaves fuel pool a m hw) ?_ ?_ (fun _ h => h)
    (fun _ h => h.calm rfl rfl) (fun _ _ h _ _ => h.calm rfl rfl)
  · intro exit w' h hexit
    have hregistered : Registered w' := by simpa [Leaves, hexit] using h
    exact hregistered.calm rfl rfl
  · intro w' h
    have hknown : Known w' := by simpa [Leaves] using h
    exact hknown.calm rfl rfl

/-! ## Whole lives -/

/-- A client that speaks for itself: it is counted in the gauges of its pool. -/
structure Client.Ordinary (c : Client) : Prop where
  cancelMode : c.cancelMode = false
  admin : c.admin = false

theorem handle_known (hclient : w.client.Ordinary) (hw : lifecycle.run w.trace = some .unregistered) :
    wp (handle fuel ext) (fun _ => Known) (fun _ => Known) w := by
  refine handle_rule fuel ext (fun _ h => .inl h) (fun _ h => route_registered fuel ext h)
    (serve_registered fuel) w ?_ ?_
  · intro hcancel
    rw [hclient.cancelMode] at hcancel
    cases hcancel
  · exact ⟨.idle, Automaton.run_cons hw rfl⟩

/-- The reports were in order so far. -/
def Accepted (w : World) : Prop :=
  (lifecycle.run w.trace).isSome

theorem Known.accepted (hw : Known w) : Accepted w := by
  rcases hw with ⟨s, hs⟩ | hs
  · exact Option.isSome_of_eq_some hs
  · exact Option.isSome_of_eq_some hs

theorem Accepted.serverIdle (hw : Accepted w)
    (htrace : w'.trace = .stat .serverIdle :: w.trace) : Accepted w' := by
  obtain ⟨phase, hphase⟩ := Option.isSome_iff_exists.mp hw
  have hstep : lifecycle.step phase (.stat .serverIdle) = some phase := by
    cases phase with
    | _ => rfl
  exact Option.isSome_of_eq_some (run_after hphase htrace hstep)

theorem entrypoint_accepted {client : Client}
    (hclient : client.Ordinary) (map : ClientServerMap) (script : List Input) :
    (lifecycle.run (final (clientEntrypoint fuel ext) (.start client map script)).trace).isSome := by
  have hhandle : ∀ w : World, w.client.Ordinary ∧ lifecycle.run w.trace = some .unregistered →
      wp (handle fuel ext) (fun _ => Known)
        (fun stop w' => if stop = .pending then Accepted w' else Known w') w := by
    intro w hw
    refine wp_mono (handle_known fuel ext hw.1 hw.2) (fun _ _ h => h) ?_
    intro stop w' h
    split
    · exact h.accepted
    · exact h
  refine final_of_wp (entrypoint_rule fuel ext ?_ hhandle ?_ ?_ ?_ _ ⟨hclient, rfl⟩)
  · intro w hw
    exact ⟨hw.1, Automaton.run_cons hw.2 rfl⟩
  · rintro w e (rfl | rfl) hw
    · exact hw.calm rfl rfl
    · exact hw.disconnect rfl
  · intro w hw
    exact Known.accepted (hw.calm rfl rfl)
  · intro w hw
    exact hw.serverIdle rfl

theorem IsSession.follows_lifecycle {client : Client} (hclient : client.Ordinary) {t : List Event}
    (h : IsSession client t) : (lifecycle.run t).isSome := by
  obtain ⟨fuel, ext, map, script, ht⟩ := h
  exact Automaton.run_suffix ht (entrypoint_accepted fuel ext hclient map script)

/-! ## Connected clients -/

def Event.reports (s : Stat) : Event → Bool
  | .stat s' => s' = s
  | _ => false

def connected (t : List Event) : Bool :=
  t.any (Event.reports .register) && !t.any (Event.reports .disconnect)

def Phase.made : Phase → Bool × Bool
  | .unregistered => (false, false)
  | .registered _ => (true, false)
  | .gone => (true, true)

theorem made_step {phase' : Phase} (h : lifecycle.step phase e = some phase') :
    phase'.made = (e.reports .register || phase.made.1, e.reports .disconnect || phase.made.2) := by
  cases e with
  | stat s =>
    change phase.call s = some phase' at h
    cases phase with
    | unregistered | gone => cases s <;> cases h <;> rfl
    | registered was =>
      cases s with
      | checkoutError =>
        simp only [Phase.call] at h
        split at h
        · cases h
          rfl
        · cases h
      | _ => cases h <;> rfl
  | _ =>
    cases h
    rfl

theorem made_run : ∀ {t : List Event} {phase : Phase}, lifecycle.run t = some phase →
    phase.made = (t.any (Event.reports .register), t.any (Event.reports .disconnect)) := by
  intro t
  induction t with
  | nil =>
    intro phase h
    cases h
    rfl
  | cons e t ih =>
    intro phase h
    obtain ⟨before, hbefore, hstep⟩ := Automaton.run_of_cons h
    rw [made_step hstep, ih hbefore]
    rfl

theorem connected_iff {t : List Event} (h : lifecycle.run t = some phase) :
    connected t = true ↔ ∃ s, phase = .registered s := by
  have hmade := made_run h
  have hregister : t.any (Event.reports .register) = phase.made.1 := by rw [hmade]
  have hdisconnect : t.any (Event.reports .disconnect) = phase.made.2 := by rw [hmade]
  rw [connected, hregister, hdisconnect]
  cases phase with
  | unregistered | registered s | gone => simp [Phase.made]

/-! ## The gauges -/

structure Shared (ι : Type) where
  state : ι → ClientState
  poolStats : PoolStats

section Census

variable {ι : Type} [DecidableEq ι]

def Shared.start : Shared ι :=
  ⟨fun _ => .idle, .default⟩

def reported (i : ι) (e : Event) (g : Shared ι) : Shared ι :=
  match e with
  | .stat s =>
    let c := ClientStats.call ⟨g.state i, g.poolStats⟩ s
    ⟨update g.state i c.state, c.poolStats⟩
  | _ => g

/-- `ban_error` finds the client idle, and `disconnect` is not called twice. -/
def Tidy (st : ι → Phase) (i : ι) (e : Event) : Prop :=
  (e.reports .banError = true → st i ≠ .registered .waiting ∧ st i ≠ .registered .active) ∧
    (e.reports .disconnect = true → st i ≠ .gone)

instance (st : ι → Phase) (i : ι) (e : Event) : Decidable (Tidy st i e) :=
  inferInstanceAs (Decidable (_ ∧ _))

variable [Fintype ι]

structure Exact (st : ι → Phase) (g : Shared ι) : Prop where
  state : ∀ i s, st i = .registered s → g.state i = s
  gauge : ∀ s, g.poolStats.gauge s = census st fun phase => phase = .registered s

variable {st : ι → Phase} {g : Shared ι}

omit [DecidableEq ι] in
theorem Exact.counted (h : Exact st g) {i : ι} {s : ClientState} (hi : st i = .registered s) :
    0 < g.poolStats.gauge (g.state i) := by
  rw [h.state i s hi, h.gauge s]
  exact census_pos hi

theorem Exact.moved (h : Exact st g) (i : ι) {phase : Phase} {c : ClientStats}
    (hstate : ∀ s, phase = .registered s → c.state = s)
    (hgauge : ∀ s, c.poolStats.gauge s + (if st i = .registered s then 1 else 0) =
      g.poolStats.gauge s + if phase = .registered s then 1 else 0) :
    Exact (update st i phase) ⟨update g.state i c.state, c.poolStats⟩ := by
  constructor
  · intro j s hj
    by_cases hij : j = i
    · subst hij
      rw [update_self] at hj
      exact (update_self ..).trans (hstate s hj)
    · rw [update_of_ne hij] at hj
      exact (update_of_ne hij ..).trans (h.state j s hj)
  · intro s
    have hcensus := census_update st i phase fun phase => phase = .registered s
    have hmoved := hgauge s
    rw [h.gauge s] at hmoved
    dsimp only
    omega

theorem Exact.entered (h : Exact st g) {i : ι} {was : ClientState} (hi : st i = .registered was)
    (target : ClientState) :
    Exact (update st i (.registered target))
      ⟨update g.state i (ClientStats.enter ⟨g.state i, g.poolStats⟩ target).state,
        (ClientStats.enter ⟨g.state i, g.poolStats⟩ target).poolStats⟩ := by
  refine h.moved i ?_ ?_
  · intro s hs
    cases hs
    exact ClientStats.enter_state _ _
  · intro s
    have hcall := ClientStats.gauge_enter (c := ⟨g.state i, g.poolStats⟩) (h.counted hi) target s
    simpa [hi, h.state i was hi] using hcall

theorem Exact.stored (h : Exact st g) {i : ι} {c : ClientState}
    (hc : ∀ s, st i = .registered s → c = s) :
    Exact (update st i (st i)) ⟨update g.state i c, g.poolStats⟩ := by
  refine h.moved i (c := ⟨c, g.poolStats⟩) hc ?_
  intro s
  rfl

theorem Exact.call (h : Exact st g) {i : ι} {s : Stat} {phase : Phase}
    (hok : Tidy st i (.stat s)) (hstep : (st i).call s = some phase) :
    Exact (update st i phase) (reported i (.stat s) g) := by
  -- Calls that say nothing about the client leave its phase, its state and the gauges alone.
  have hkeep : Exact (update st i (st i)) ⟨update g.state i (g.state i), g.poolStats⟩ :=
    h.stored (h.state i)
  cases hi : st i with
  | unregistered =>
    rw [hi] at hstep hkeep
    cases s with
    | register =>
      cases hstep
      refine h.moved i ?_ ?_
      · intro s hs
        cases hs
        rfl
      · intro s
        simpa [hi, ClientStats.call] using ClientStats.gauge_register ⟨g.state i, g.poolStats⟩ s
    | waiting | active | idle | checkoutError | banError | disconnect => cases hstep
    | _ =>
      cases hstep
      exact hkeep
  | registered was =>
    have hwas : g.state i = was := h.state i was hi
    rw [hi] at hstep hkeep
    cases s with
    | register => cases hstep
    | waiting =>
      cases hstep
      exact h.entered hi .waiting
    | active =>
      cases hstep
      exact h.entered hi .active
    | idle =>
      cases hstep
      exact h.entered hi .idle
    | checkoutError =>
      simp only [Phase.call] at hstep
      split at hstep
      · rename_i hidle
        cases hstep
        rw [hwas, hidle] at hkeep
        exact hkeep
      · cases hstep
    | banError =>
      cases hstep
      -- The client was idle before the call as well.
      have hidle : was = .idle := by
        have hstate := hok.1 rfl
        rw [hi] at hstate
        cases was with
        | idle => rfl
        | waiting => exact absurd rfl hstate.1
        | active => exact absurd rfl hstate.2
      rw [hwas, hidle] at hkeep
      exact hkeep
    | disconnect =>
      cases hstep
      refine h.moved i (by simp) ?_
      intro s
      have hcall := ClientStats.gauge_disconnect (c := ⟨g.state i, g.poolStats⟩) (h.counted hi) s
      simpa [hi, hwas, ClientStats.call] using hcall
    | _ =>
      cases hstep
      exact hkeep
  | gone =>
    rw [hi] at hstep hkeep
    cases s with
    | register | waiting | active | idle | checkoutError => cases hstep
    | disconnect => exact absurd hi (hok.2 rfl)
    | banError =>
      cases hstep
      have hstored := h.stored (c := ClientState.idle) (i := i) (by simp [hi])
      rw [hi] at hstored
      exact hstored
    | _ =>
      cases hstep
      exact hkeep

theorem Exact.step (h : Exact st g) {i : ι} {e : Event} {phase : Phase} (hok : Tidy st i e)
    (hstep : lifecycle.step (st i) e = some phase) :
    Exact (update st i phase) (reported i e g) := by
  cases e with
  | stat s => exact h.call hok hstep
  | _ =>
    cases hstep
    rw [update_eq_self]
    exact h

/-- The gauges count the connected clients by their states, at every moment of any interleaving in which
`ban_error` finds its client idle and no client disconnects twice. -/
theorem gauges_exact (client : ι → Client) (hordinary : ∀ i, (client i).Ordinary)
    (h : List (ι × Event)) (hsessions : ∀ i, IsSession (client i) (steps i h))
    (hok : lifecycle.Meets Tidy h) (s : ClientState) :
    (shared reported .start h).poolStats.gauge s =
      (Finset.univ.filter fun i =>
        connected (steps i h) = true ∧ (shared reported .start h).state i = s).card := by
  have haccepted : ∀ i, (lifecycle.run (steps i h)).isSome := fun i =>
    (hsessions i).follows_lifecycle (hordinary i)
  have hstart : Exact (fun _ : ι => lifecycle.start) Shared.start := by
    refine ⟨nofun, fun s => ?_⟩
    cases s with
    | _ => simp [census, lifecycle, Shared.start, PoolStats.default, PoolStats.gauge]
  have hstep : ∀ (st : ι → Phase) (g : Shared ι) i e phase, Exact st g → Tidy st i e →
      lifecycle.step (st i) e = some phase →
        Exact (update st i phase) (reported i e g) :=
    fun _ _ _ _ _ hg hcall hlocal => hg.step hcall hlocal
  have hexact : Exact (lifecycle.states h) (shared reported .start h) :=
    Automaton.interleaved hstart hstep h haccepted hok
  rw [hexact.gauge s, census]
  congr 1
  refine Finset.filter_congr fun i _ => ?_
  -- The phase of a client says the same as its trace and its state together.
  obtain ⟨phase, hphase⟩ := Option.isSome_iff_exists.mp (haccepted i)
  have hstate : lifecycle.states h i = phase := by simp [Automaton.states, hphase]
  rw [connected_iff hphase, hstate]
  constructor
  · rintro rfl
    exact ⟨⟨s, rfl⟩, hexact.state i s hstate⟩
  · rintro ⟨⟨t, rfl⟩, hs⟩
    rw [← hexact.state i t hstate, hs]

end Census

namespace Sample

def replica : Address := ⟨1, "localhost", 5433, 0, 0, .replica⟩

theorem replica_sized : Config.PoolSettings.default.shards = [[replica]].length := rfl

def replicaPool : ConnectionPool where
  addresses := [[replica]]
  settings := .default
  paused := false
  sized := replica_sized

/-- A query finds its only server down. -/
def refusedScript : List Input :=
  [.client (simpleQuery "SELECT 1"), .pool (some replicaPool), .random 0, .order [replica],
    .candidate .refused, .clientWrite true]

/-- The client is idle again, but it is still counted as waiting. -/
theorem refused_client_waiting :
    ∃ h : List (Unit × Event), (∀ i, IsSession client (steps i h)) ∧
      (shared reported .start h).poolStats.gauge .waiting ≠
        (Finset.univ.filter fun i =>
          connected (steps i h) = true ∧ (shared reported .start h).state i = .waiting).card := by
  refine ⟨only () (life client refusedScript).trace, ?_, ?_⟩
  · intro i
    rw [steps_only]
    exact life_session client refusedScript 0
  · decide +kernel

/-- One client is in a transaction, the other has come and gone. -/
def clientScript : Bool → List Input
  | true => checkout (simpleQuery "BEGIN") (conn 0) ++ exchange [complete "BEGIN", ready 'T']
  | false => [.client (.ofChar 'X' [])]

def twoClients : List (Bool × Event) :=
  twoLives (life client (clientScript false)).trace (life client (clientScript true)).trace

theorem twoClients_session (i : Bool) : IsSession client (steps i twoClients) :=
  twoLives_sessions (c := fun _ => client) (life_session client _ 0) (life_session client _ 0) i

theorem transaction_active :
    lifecycle.Meets Tidy twoClients ∧
      (shared reported .start twoClients).poolStats.gauge .active =
        (Finset.univ.filter fun i => connected (steps i twoClients) = true ∧
          (shared reported .start twoClients).state i = .active).card := by
  refine ⟨?_, gauges_exact (fun _ => client) (fun _ => ⟨rfl, rfl⟩) twoClients twoClients_session
    ?_ .active⟩
  · decide +kernel
  · decide +kernel

end Sample

end PgCat.Session
