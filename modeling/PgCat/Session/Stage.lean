import PgCat.Session.Turns

/-!
# Stage — which server a client holds, and whether it is bound to it

The events that check a connection out, bind the client to it in the `client_server_map`, undo this and
drop the connection are the labels of an automaton `stages`.  Every trace of `client_entrypoint` is
accepted by it (`entrypoint_staged`), and the map is what the trace says (`entrypoint_map`).
-/

namespace PgCat.Session

open Lib Protocol Router Function

/-! ## The automaton -/

inductive Stage
  /-- No connection is held. -/
  | waiting
  | holding (s : Target)
  /-- The map has an entry for the client. -/
  | bound (s : Target)
  | unbound (s : Target)
  /-- `handle` returned an error while the client was bound. -/
  | failed
  /-- The client was dropped. -/
  | gone
  deriving DecidableEq, Repr

/-- The server whose connection is checked out. -/
def Stage.held : Stage → Option Target
  | .holding s | .bound s | .unbound s => some s
  | _ => none

def Event.isStaging : Event → Bool
  | .checkedOut _ | .claimed _ | .released | .dropped _ _ | .clientDropped => true
  | _ => false

def Stage.step : Stage → Event → Option Stage
  | .waiting, .checkedOut c => some (.holding c.server.target)
  | .holding s, .claimed c => if c.server.target = s then some (.bound s) else none
  -- A health check failed.
  | .holding _, .dropped _ _ => some .waiting
  | .bound s, .released => some (.unbound s)
  | .bound _, .dropped _ exit => if exit = .failed ∨ exit = .panicked then some .failed else none
  | .unbound _, .dropped _ _ => some .waiting
  | .waiting, .clientDropped => some .gone
  | .failed, .clientDropped => some .gone
  | stage, e => if e.isStaging then none else some stage

def stages : Automaton Event Stage := ⟨.waiting, Stage.step⟩

variable (fuel : Nat) (pool : ConnectionPool) (ext : Externals) (a : Address) (m : Message) {e : Event}

theorem Stage.step_other (he : e.isStaging = false) (stage : Stage) : stage.step e = some stage := by
  cases e with
  | checkedOut c | claimed c | released | dropped c exit | clientDropped => cases he
  | _ =>
    cases stage with
    | _ => rfl

inductive Stage.Change : Stage → Event → Stage → Prop
  | checkedOut (c : Conn) : Change .waiting (.checkedOut c) (.holding c.server.target)
  | claimed (c : Conn) : Change (.holding c.server.target) (.claimed c) (.bound c.server.target)
  | released (s : Target) : Change (.bound s) .released (.unbound s)
  | dropped {stage : Stage} (c : Conn) (exit : Exit)
      (h : ∃ s, stage = .holding s ∨ stage = .unbound s) : Change stage (.dropped c exit) .waiting
  | failed (s : Target) (c : Conn) (exit : Exit) (h : exit = .failed ∨ exit = .panicked) :
      Change (.bound s) (.dropped c exit) .failed
  | gone {stage : Stage} (h : stage = .waiting ∨ stage = .failed) : Change stage .clientDropped .gone

theorem Stage.step_change {stage stage' : Stage} (he : e.isStaging = true)
    (h : stage.step e = some stage') : Stage.Change stage e stage' := by
  unfold step at h
  split at h
  · cases h
    exact .checkedOut _
  · split at h
    · rename_i htarget
      cases h
      subst htarget
      exact .claimed _
    · cases h
  · cases h
    exact .dropped _ _ ⟨_, .inl rfl⟩
  · cases h
    exact .released _
  · split at h
    · rename_i hexit
      cases h
      exact .failed _ _ _ hexit
    · cases h
  · cases h
    exact .dropped _ _ ⟨_, .inr rfl⟩
  · cases h
    exact .gone (.inl rfl)
  · cases h
    exact .gone (.inr rfl)
  · rw [if_pos he] at h
    cases h

/-! ## Programs -/

/-- The trace has reached this stage, on the connection the world holds. -/
def At (stage : Target → Stage) (w : World) : Prop :=
  stages.run w.trace = some (stage w.conn.server.target)

abbrev Waiting : World → Prop := At fun _ => .waiting

variable {stage stage' : Target → Stage} {w w' : World}

theorem At.step (h : At stage w) (htrace : w'.trace = e :: w.trace)
    (hstep : (stage w.conn.server.target).step e = some (stage' w'.conn.server.target)) :
    At stage' w' := by
  unfold At
  rw [htrace]
  exact Automaton.run_cons h hstep

theorem At.other (h : At stage w) (htrace : w'.trace = e :: w.trace)
    (hconn : w'.conn.server.target = w.conn.server.target) (he : e.isStaging = false) :
    At stage w' := by
  refine h.step htrace ?_
  rw [hconn]
  exact Stage.step_other he _

theorem Event.isStaging_note (he : e.isNote = true) : e.isStaging = false := by
  cases e with
  | checkedOut c | claimed c | released | dropped c exit | clientDropped => cases he
  | _ => rfl

theorem Event.isStaging_of_isRouting (he : e.isRouting = true) : e.isStaging = false := by
  cases e with
  | checkedOut c | claimed c | released | dropped c exit | clientDropped => cases he
  | _ => rfl

instance : Notes (Keeps (At stage)) where
  input _ _ hw := hw
  note _ _ he hw := hw.other rfl rfl (Event.isStaging_note (Event.isNote_of_isPlain he))

instance : AllStats (Keeps (At stage)) where
  stat _ _ hw := hw.other rfl rfl rfl

instance : Clients (Keeps (At stage)) where
  client _ _ _ hw := hw

instance : Hears (Keeps (At stage)) where
  server _ _ hs hw := hw.trans (by rw [hs.target])
  received w m _ _ hw := hw.other rfl (w.conn.server.take_target m) rfl

instance (fromClient : Bool) : Sends (Keeps (At stage)) fromClient where
  sent _ _ _ hw := hw.other rfl rfl rfl

instance : Reads (Keeps (At stage)) where
  message _ _ hw := hw.other rfl rfl rfl

instance : Routers (Keeps (At stage)) where
  router _ _ hw := hw
  routing _ _ he hw := hw.other rfl rfl (Event.isStaging_of_isRouting he)

/-! ## Serving -/

theorem assign_bound (hw : At .holding w) :
    wp (assign fuel a) (fun _ => At .bound) (fun _ => At .bound) w := by
  let w₁ : World := { w with
    map := update w.map w.client.key (some w.conn.server.target)
    trace := .claimed w.conn :: w.trace }
  have hclaimed : At .bound w₁ := hw.step rfl (by simp [Stage.step, w₁])
  change wp (attach fuel a) _ _ w₁
  exact keeps (attach_runs fuel a) hclaimed

theorem release_unbound (hw : At .bound w) :
    At .unbound { w with
      map := update w.map w.client.key none
      trace := .released :: w.trace } :=
  hw.step rfl rfl

/-- `Terminate` releases the server; every other message keeps it. -/
def Dispatched (exit : Option Exit) (w : World) : Prop :=
  if exit = some .finished then At .unbound w else At .bound w

theorem dispatch_dispatched
    (hw : At .bound w) : wp (dispatch fuel pool a m) Dispatched (fun _ => At .bound) w := by
  refine dispatch_rule ?_ fun hm =>
    keeps (dispatch_runs fuel pool a m fun h => absurd h hm) hw
  intro _
  rw [handleTerminate]
  refine wp_seq (keeps (checkinCleanup_runs fuel) hw) ?_
  intro _ w₁ h₁
  have hstat : At .bound (w₁.after (.stat .disconnect)) := h₁.other rfl rfl rfl
  exact release_unbound hstat

theorem Dispatched.other {exit : Option Exit} (hw : Dispatched exit w) (he : e.isStaging = false) :
    Dispatched exit (w.after e) := by
  unfold Dispatched at hw ⊢
  split
  · rename_i hexit
    rw [if_pos hexit] at hw
    exact hw.other rfl rfl he
  · rename_i hexit
    rw [if_neg hexit] at hw
    exact hw.other rfl rfl he

theorem checkin_unbound (exit : Exit) (hw : Dispatched (some exit) w) :
    wp (checkin fuel exit) (fun _ => At .unbound) (fun _ => At .bound) w := by
  unfold checkin
  by_cases hexit : exit = .finished
  · subst hexit
    simpa [Dispatched] using hw
  · have hbound : At .bound w := by simpa [Dispatched, hexit] using hw
    rw [if_neg hexit]
    refine wp_seq (keeps (checkinCleanup_runs fuel) hbound) ?_
    intro _ w₁ h₁
    let w₂ : World := { w₁ with
      client := { w₁.client with connectedToServer := false }
      trace := .stat .serverIdle :: w₁.trace }
    have h₂ : At .bound w₂ := h₁.other rfl rfl rfl
    exact (release_unbound h₂).other rfl rfl rfl

theorem serveHeld_unbound (hw : At .holding w) :
    wp (serveHeld fuel pool a m) (fun _ => At .unbound) (fun _ => At .bound) w := by
  refine serveHeld_served_rule (R := Dispatched) (assign_bound fuel a hw)
    (fun _ h => keeps (P := At .bound) idleTimeoutSetting_runs h)
    (fun idleTimeout _ h => keeps (P := At .bound) (awaitInTransaction_runs fuel idleTimeout) h)
    (fun _ h => h) (fun m _ h => dispatch_dispatched fuel pool a m h) (fun _ h => h) ?_
  intro exit w' h
  exact checkin_unbound fuel exit (h.other rfl)

/-! ## Checking a connection out -/

/-- How a session may stop: it waits for its environment, or `handle` is over. -/
def Stopped (stop : Stop) (w : World) : Prop :=
  if stop = .pending then (stages.run w.trace).isSome = true
  else Waiting w ∨ At (fun _ => .failed) w

theorem At.accepted (h : At stage w) : (stages.run w.trace).isSome :=
  Option.isSome_of_eq_some h

theorem At.stopped (stop : Stop) (h : Waiting w) : Stopped stop w := by
  unfold Stopped
  split
  · exact h.accepted
  · exact .inl h

theorem dropped_waiting (exit : Exit) (h : At .holding w ∨ At .unbound w) : Waiting (w.dropped exit) := by
  rcases h with h | h
  · exact h.step rfl rfl
  · exact h.step rfl rfl

theorem waiting_lending : Lending Waiting (At .holding) Stopped where
  checkedOut _ _ _ hw := hw.step rfl rfl
  bad _ hw := hw
  health fuel _ hw := keeps (query_runs fuel true ";") hw
  dropped _ exit _ hw := dropped_waiting exit (.inl hw)
  stops stop _ hw := hw.stopped stop
  waits _ hw := hw.accepted

/-! ## Sessions -/

theorem serve_waiting (w : World) (hw : At .holding w) :
    wp (serve fuel pool a m) (fun fin w' => if fin then Waiting w' else Waiting w') Stopped w := by
  have hfailed : ∀ {w' : World} (exit : Exit), exit = .failed ∨ exit = .panicked → At .bound w' →
      At (fun _ => .failed) (w'.dropped exit) := by
    intro w' exit hexit h
    exact h.step rfl (by simp [Stage.step, hexit])
  refine serve_rule (serveHeld_unbound fuel pool a m hw) ?_ ?_ ?_ ?_ ?_
  · exact fun exit w' h _ => dropped_waiting exit (.inr h)
  · exact fun w' h => dropped_waiting _ (.inr h)
  · exact fun w' h => h.accepted
  · exact fun w' h => .inr (hfailed _ (.inr rfl) h)
  · intro stop w' h hpending _
    unfold Stopped
    rw [if_neg hpending]
    exact .inr (hfailed _ (.inl rfl) h)

theorem handle_stopped (w : World) (hw : Waiting w) : wp (handle fuel ext) (fun _ => Waiting) Stopped w := by
  refine handle_rule fuel ext (fun _ h => h.stopped _) (fun _ h => route_rule waiting_lending fuel ext h)
    (serve_waiting fuel) w (fun _ => ?_) (hw.other rfl rfl rfl)
  exact wp_mono (keeps cancelQuery_runs hw) (fun _ _ h => h) (fun stop _ h => h.stopped stop)

theorem entrypoint_staged (client : Client) (map : ClientServerMap) (script : List Input) :
    (stages.run (final (clientEntrypoint fuel ext) (.start client map script)).trace).isSome := by
  have hover : ∀ w e, e = .drain (-1) ∨ e = .stat .disconnect →
      Waiting w ∨ At (fun _ => .failed) w →
      Waiting (w.after e) ∨ At (fun _ => .failed) (w.after e) := by
    intro w e he hw
    have hother : e.isStaging = false := by
      rcases he with rfl | rfl
      · rfl
      · rfl
    exact hw.imp (fun h => h.other rfl rfl hother) (fun h => h.other rfl rfl hother)
  have hdrop : ∀ w, Waiting w ∨ At (fun _ => .failed) w →
      (stages.run w.clientGone.trace).isSome = true := by
    intro w hw
    have hgone : At (fun _ => .gone) w.clientGone := by
      rcases hw with h | h
      · exact h.step rfl rfl
      · exact h.step rfl rfl
    exact hgone.accepted
  have hend : ∀ w : World, (stages.run w.trace).isSome = true →
      (stages.run (w.after (.stat .serverIdle)).trace).isSome = true := by
    intro w hw
    rcases Option.isSome_iff_exists.mp hw with ⟨stage, hstage⟩
    exact Option.isSome_of_eq_some
      (Automaton.run_cons hstage (Stage.step_other (e := .stat .serverIdle) rfl stage))
  have hhandle : ∀ w, Waiting w → wp (handle fuel ext) (fun _ w => Waiting w ∨ At (fun _ => .failed) w)
      Stopped w :=
    fun w hw => wp_mono (handle_stopped fuel ext w hw) (fun _ _ h => .inl h) (fun _ _ h => h)
  have hstart : Waiting (.start client map script) := rfl
  exact final_of_wp (entrypoint_rule fuel ext (fun _ h => h.other rfl rfl rfl) hhandle hover hdrop
    hend _ hstart)

/-! ## The map -/

def Event.bindTo (key : Key) : Event → ClientServerMap → ClientServerMap
  | .claimed c, map => update map key (some c.server.target)
  | .released, map => update map key none
  | .clientDropped, map => update map key none
  | _, map => map

def mapAfter (key : Key) (map : ClientServerMap) : List Event → ClientServerMap
  | [] => map
  | e :: t => e.bindTo key (mapAfter key map t)

theorem Event.bindTo_other (he : e.isStaging = false) (key : Key)
    (map : ClientServerMap) : e.bindTo key map = map := by
  cases e with
  | claimed c => cases he
  | released => cases he
  | clientDropped => cases he
  | _ => rfl

structure Tracked (key : Key) (map : ClientServerMap) (w : World) : Prop where
  ofKey : w.client.key = key
  ofMap : w.map = mapAfter key map w.trace

variable {key : Key} {map : ClientServerMap}

theorem Tracked.step (hw : Tracked key map w) (htrace : w'.trace = e :: w.trace)
    (hmap : w'.map = e.bindTo key w.map) (hkey : w'.client.key = w.client.key) :
    Tracked key map w' := by
  refine ⟨hkey.trans hw.ofKey, ?_⟩
  rw [hmap, htrace, hw.ofMap]
  rfl

theorem Still.tracked (h : Still w w') (hw : Tracked key map w) : Tracked key map w' := by
  cases h with
  | input rest => exact ⟨hw.ofKey, hw.ofMap⟩
  | note e he =>
    exact hw.step rfl (Event.bindTo_other (Event.isStaging_note he) key w.map).symm rfl
  | client c hc => exact ⟨hc.key.trans hw.ofKey, hw.ofMap⟩

theorem Move.tracked {p : Scope} (h : Move p w w') (hw : Tracked key map w) : Tracked key map w' := by
  cases h with
  | still h => exact h.tracked hw
  | server s _ => exact ⟨hw.ofKey, hw.ofMap⟩
  | message m _ | sent m reply fromClient _ | received m rest _ => exact hw.step rfl rfl rfl
  | claimed _ | released _ => exact hw.step rfl (by simp [Event.bindTo, hw.ofKey]) rfl

theorem Pooling.tracked (h : Pooling w w') (hw : Tracked key map w) : Tracked key map w' := by
  cases h with
  | move h => exact h.tracked hw
  | checkedOut c _ | dropped exit _ => exact hw.step rfl rfl rfl

theorem Route.tracked (h : Route w w') (hw : Tracked key map w) : Tracked key map w' := by
  cases h with
  | pooling h => exact h.tracked hw
  | message m => exact hw.step rfl rfl rfl
  | router r => exact ⟨hw.ofKey, hw.ofMap⟩
  | routing e he =>
    exact hw.step rfl (Event.bindTo_other (Event.isStaging_of_isRouting he) key w.map).symm rfl

theorem serve_tracked (w : World) (hw : Tracked key map w) :
    wp (serve fuel pool a m)
      (fun fin w' => if fin then Tracked key map w' else Tracked key map w')
      (fun _ => Tracked key map) w := by
  have hdrop : ∀ w' exit, Tracked key map w' → Tracked key map (w'.dropped exit) :=
    fun w' exit h => h.step rfl rfl rfl
  refine serve_rule ((serveHeld_runs (S := Move ⟨true, true⟩) fuel pool a m).preserves (fun _ _ => Move.tracked) w hw)
    ?_ ?_ ?_ ?_ ?_
  · exact fun exit w' h _ => hdrop w' exit h
  · exact fun w' h => hdrop w' _ h
  · exact fun w' h => h
  · exact fun w' h => hdrop w' _ h
  · exact fun stop w' h _ _ => hdrop w' _ h

/-- A client changes the map by the events of its trace alone. -/
theorem entrypoint_map (client : Client) (map : ClientServerMap) (script : List Input) :
    (final (clientEntrypoint fuel ext) (.start client map script)).map =
      mapAfter client.key map (final (clientEntrypoint fuel ext) (.start client map script)).trace := by
  have hreport : ∀ w e, e.isReport = true → Tracked client.key map w →
      Tracked client.key map (w.after e) := by
    intro w e he h
    cases e with
    | drain n | stat s => exact h.step rfl rfl rfl
    | _ => cases he
  have hdrop : ∀ w, Tracked client.key map w → Tracked client.key map w.clientGone :=
    fun w h => h.step (e := .clientDropped) rfl (by simp [Event.bindTo, World.clientGone, h.ofKey]) rfl
  have htracked := entrypoint_invariant fuel ext (fun _ h => h.step rfl rfl rfl)
    (handle_invariant fuel ext (fun _ _ => Route.tracked) (fun _ h => h)
      (fun pool a m => serve_tracked fuel pool a m))
    hreport hdrop (.start client map script) ⟨rfl, rfl⟩
  exact htracked.ofMap

theorem mapAfter_other {k : Key} (hk : k ≠ key) (t : List Event) : mapAfter key map t k = map k := by
  induction t with
  | nil => rfl
  | cons e t ih => cases e <;> simp [mapAfter, Event.bindTo, hk, ih]

/-- Nothing is bound again once the client was dropped. -/
theorem mapAfter_dropped {t : List Event} (hdropped : .clientDropped ∈ t) :
    ∀ {stage : Stage}, stages.run t = some stage → stage = .gone ∧ mapAfter key map t key = none := by
  induction t with
  | nil => cases hdropped
  | cons e t ih =>
    intro stage hrun
    obtain ⟨before, hbefore, hstep⟩ := Automaton.run_of_cons hrun
    rcases List.mem_cons.mp hdropped with rfl | hdropped
    · refine ⟨?_, update_self ..⟩
      cases before <;> cases hstep <;> rfl
    · obtain ⟨rfl, hnone⟩ := ih hdropped hbefore
      by_cases he : e.isStaging = true
      · cases e <;> cases he <;> cases hstep
      · rw [Bool.not_eq_true] at he
        cases (Stage.step_other he .gone).symm.trans hstep
        exact ⟨rfl, by rw [mapAfter, Event.bindTo_other he, hnone]⟩

/-- Whatever a session does and however it ends, it leaves the entries of all other keys alone, and none for its
own. -/
theorem entrypoint_unbinds (client : Client) (map : ClientServerMap) (script : List Input) :
    let w := final (clientEntrypoint fuel ext) (.start client map script)
    (∀ key, key ≠ client.key → w.map key = map key) ∧
      (.clientDropped ∈ w.trace → w.map = update map client.key none) := by
  intro w
  have hmap : w.map = mapAfter client.key map w.trace := entrypoint_map fuel ext client map script
  have hother : ∀ key, key ≠ client.key → w.map key = map key := fun key hk =>
    hmap ▸ mapAfter_other hk w.trace
  refine ⟨hother, fun hdropped => ?_⟩
  obtain ⟨stage, hstage⟩ := Option.isSome_iff_exists.mp (entrypoint_staged fuel ext client map script)
  funext key
  by_cases hk : key = client.key
  · rw [hk, update_self, hmap]
    exact (mapAfter_dropped hdropped hstage).2
  · rw [update_of_ne hk, hother key hk]

end PgCat.Session
