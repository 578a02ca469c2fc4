import PgCat.Session.Cleanup
import PgCat.Session.Turns

/-!
# Drops — how a client gives its connections up

`IsSession.dropped` is the rule for a fact about every connection a client gives up: it holds whenever the
client panicked, the connection is bad, or `checkin_cleanup` has established `G` on it.  What is known of
the connection before the cleanup is said as in `Cleans`, what is known around a checkout as in
`Lending`.  Over whole sessions: a connection is given up bad, or clean and out of its transaction,
where nothing is assumed about the server.
-/

namespace PgCat.Session

open Lib Protocol Router

def Event.isDrop : Event → Bool
  | .dropped _ _ => true
  | _ => false

theorem Event.isDrop_of_isPlain {e : Event} (h : e.isPlain = true) : e.isDrop = false := by
  cases e with
  | dropped c exit => cases h
  | _ => rfl

theorem Event.isDrop_of_isRouting {e : Event} (h : e.isRouting = true) : e.isDrop = false := by
  cases e with
  | dropped c exit => cases h
  | _ => rfl

class AboutDrops (P : Event → List Event → Prop) : Prop where
  other : ∀ e t, e.isDrop = false → P e t

/-! ## What keeps such a fact -/

section Each

variable {P : Event → List Event → Prop} [AboutDrops P]

theorem World.Each.other {w w' : World} {e : Event} (hw : w.Each P) (htrace : w'.trace = e :: w.trace)
    (he : e.isDrop = false) : w'.Each P :=
  hw.cons htrace (AboutDrops.other e w.trace he)

instance : Notes (Keeps (World.Each P)) where
  input _ _ hw := hw
  note _ _ he hw := hw.other rfl (Event.isDrop_of_isPlain he)

instance : AllStats (Keeps (World.Each P)) where
  stat _ _ hw := hw.other rfl rfl

instance : Clients (Keeps (World.Each P)) where
  client _ _ _ hw := hw

instance : Hears (Keeps (World.Each P)) where
  server _ _ _ hw := hw
  received _ _ _ _ hw := hw.other rfl rfl

instance (fromClient : Bool) : Sends (Keeps (World.Each P)) fromClient where
  sent _ _ _ hw := hw.other rfl rfl

instance : Binds (Keeps (World.Each P)) where
  claimed _ hw := hw.other rfl rfl
  released _ hw := hw.other rfl rfl

instance : Reads (Keeps (World.Each P)) where
  message _ _ hw := hw.other rfl rfl

instance : Routers (Keeps (World.Each P)) where
  router _ _ hw := hw
  routing _ _ he hw := hw.other rfl (Event.isDrop_of_isRouting he)

end Each

/-- Two facts together. -/
structure Both (A B : World → Prop) (w : World) : Prop where
  left : A w
  right : B w

section Both

variable {A B : World → Prop}

instance [Notes (Keeps A)] [Notes (Keeps B)] : Notes (Keeps (Both A B)) where
  input w rest hw := ⟨Notes.input (S := Keeps A) w rest hw.left, Notes.input (S := Keeps B) w rest hw.right⟩
  note w e he hw :=
    ⟨Notes.note (S := Keeps A) w e he hw.left, Notes.note (S := Keeps B) w e he hw.right⟩

instance [AllStats (Keeps A)] [AllStats (Keeps B)] : AllStats (Keeps (Both A B)) where
  stat w s hw := ⟨AllStats.stat (S := Keeps A) w s hw.left, AllStats.stat (S := Keeps B) w s hw.right⟩

instance [Clients (Keeps A)] [Clients (Keeps B)] : Clients (Keeps (Both A B)) where
  client w c hc hw :=
    ⟨Clients.client (S := Keeps A) w c hc hw.left, Clients.client (S := Keeps B) w c hc hw.right⟩

instance [Reads (Keeps A)] [Reads (Keeps B)] : Reads (Keeps (Both A B)) where
  message w m hw := ⟨Reads.message (S := Keeps A) w m hw.left, Reads.message (S := Keeps B) w m hw.right⟩

instance [Routers (Keeps A)] [Routers (Keeps B)] : Routers (Keeps (Both A B)) where
  router w r hw := ⟨Routers.router (S := Keeps A) w r hw.left, Routers.router (S := Keeps B) w r hw.right⟩
  routing w e he hw :=
    ⟨Routers.routing (S := Keeps A) w e he hw.left, Routers.routing (S := Keeps B) w e he hw.right⟩

end Both

/-! ## The rule -/

/-- What is known of a client: `Idle` without a connection, `Held` from a checkout on, then as in
`Cleans`. -/
structure Tenure (P : Event → List Event → Prop) (Idle Held : World → Prop)
    (I : World → Prop) (J : Message → World → Prop) (G : World → Prop) : Prop where
  lending : Lending Idle Held fun _ _ => True
  assign : ∀ fuel a m w, Held w → lastMessage w.trace = some m →
    wp (assign fuel a) (fun _ => J m) (fun _ _ => True) w
  cleans : ∀ fuel pool a, Cleans fuel pool a I J G
  start : ∀ w : World, w.trace = [] → Idle w
  drain : ∀ w, Idle w → Idle (w.after (.drain 1))
  idle : ∀ (w : World) exit, Idle (w.dropped exit)
  /-- A connection nobody gets again. -/
  lost : ∀ c exit t, exit = .panicked ∨ c.server.bad = true → P (.dropped c exit) t
  given : ∀ w exit, G w → P (.dropped w.conn exit) w.trace

section Rule

variable {P : Event → List Event → Prop} [AboutDrops P] {Idle Held I G : World → Prop}
  {J : Message → World → Prop}

theorem Tenure.both_lending (l : Tenure P Idle Held I J G) :
    Lending (Both Idle (World.Each P)) (Both Held (World.Each P)) (fun _ => World.Each P) where
  checkedOut w c hc hw := ⟨l.lending.checkedOut w c hc hw.left, hw.right.other rfl rfl⟩
  bad w hw := ⟨l.lending.bad w hw.left, hw.right⟩
  health fuel w hw :=
    wp_mono (wp_and (l.lending.health fuel w hw.left) (keeps (query_runs fuel true ";") hw.right))
      (fun _ _ h => ⟨h.1, h.2⟩) (fun _ _ h => ⟨h.1, h.2⟩)
  dropped w exit hexit hw := by
    refine ⟨l.lending.dropped w exit hexit hw.left, hw.right.cons rfl (l.lost _ _ _ ?_)⟩
    rcases hexit with ⟨_, hbad⟩ | hpanicked
    · exact .inr hbad
    · exact .inl hpanicked
  stops _ _ hw := hw.right
  waits _ hw := hw.right

variable [Notes (Keeps I)] [AllStats (Keeps I)] [Notes (Keeps G)] [AllStats (Keeps G)]
  [Clients (Keeps G)] [Binds (Keeps G)]

theorem Tenure.serve (l : Tenure P Idle Held I J G) (fuel : Nat) (pool : ConnectionPool)
    (a : Address) (m : Message) (w : World) (hw : Both Held (World.Each P) w)
    (hm : lastMessage w.trace = some m) :
    wp (serve fuel pool a m)
      (fun fin w' => if fin then Both Idle (World.Each P) w' else Both Idle (World.Each P) w')
      (fun _ => World.Each P) w := by
  have hkept := keeps (serveHeld_runs fuel pool a m) hw.right
  have hexits := serveHeld_exits (l.cleans fuel pool a) (l.assign fuel a m w hw.left hm)
  have hgive : ∀ {w' : World} exit, w'.Each P → P (.dropped w'.conn exit) w'.trace →
      Both Idle (World.Each P) (w'.dropped exit) := fun exit h hP => ⟨l.idle _ exit, h.cons rfl hP⟩
  refine serve_rule (wp_and hkept hexits) ?_ ?_ ?_ ?_ ?_
  · exact fun exit w' h _ => hgive exit h.1 (l.given w' exit h.2)
  · exact fun w' h => hgive _ h.1 (l.given w' _ h.2)
  · exact fun w' h => h.1
  · exact fun w' h => h.1.cons rfl (l.lost _ _ _ (.inl rfl))
  · intro stop w' h hpending hpanicked
    refine h.1.cons rfl ?_
    cases stop with
    | failed e =>
      rcases h.2 with hbad | hG
      · exact l.lost _ _ _ (.inr hbad)
      · exact l.given w' _ hG
    | elapsed => exact h.2.elim
    | panicked => exact absurd rfl hpanicked
    | pending => exact absurd rfl hpending

variable [Notes (Keeps Held)] [AllStats (Keeps Held)] [Notes (Keeps Idle)] [AllStats (Keeps Idle)]
  [Clients (Keeps Idle)] [Reads (Keeps Idle)] [Routers (Keeps Idle)]

theorem Tenure.handle (l : Tenure P Idle Held I J G) (fuel : Nat) (ext : Externals) (w : World)
    (hw : Both Idle (World.Each P) w) :
    wp (handle fuel ext) (fun _ => World.Each P) (fun _ => World.Each P) w := by
  have hregister : Both Idle (World.Each P) { w with router := .new, trace := .stat .register :: w.trace } :=
    AllStats.stat (S := Keeps (Both Idle (World.Each P))) { w with router := .new } .register
      (Routers.router (S := Keeps (Both Idle (World.Each P))) w .new hw)
  have hrun : wp (Session.handle fuel ext) (fun _ => Both Idle (World.Each P)) (fun _ => World.Each P) w := by
    refine handle_serves fuel ext (fun _ h => h.right)
      (fun _ h => route_serves l.both_lending fuel ext h)
      (fun pool a m w h => l.serve fuel pool a m w h.1 h.2) w (fun _ => ?_) hregister
    exact wp_mono (keeps cancelQuery_runs hw) (fun _ _ h => h) (fun _ _ h => h.right)
  exact wp_imp hrun (fun _ _ h => h.right)

theorem IsSession.dropped (l : Tenure P Idle Held I J G) {client : Client} {e : Event}
    {t : List Event} (h : IsSession client (e :: t)) : P e t := by
  obtain ⟨fuel, ext, map, script, hsuffix⟩ := h
  have hstart : Both Idle (World.Each P) (.start client map script) := by
    refine ⟨l.start _ rfl, ?_⟩
    intro e t hsuffix
    cases List.suffix_nil.mp hsuffix
  have hdrops : (final (clientEntrypoint fuel ext) (.start client map script)).Each P := by
    refine entrypoint_invariant fuel ext (fun w h => ⟨l.drain w h.left, h.right.other rfl rfl⟩)
      (l.handle fuel ext) ?_ (fun w h => h.other rfl rfl) _ hstart
    intro w e he hw
    refine hw.other rfl ?_
    cases e with
    | dropped c exit => cases he
    | _ => rfl
  exact hdrops e t hsuffix

end Rule

/-! ## Clean drops -/

/-- The client did not panic while it had a connection. -/
def Event.calm : Event → Bool
  | .dropped _ .panicked => false
  | _ => true

/-- A connection is given up bad or clean, if nothing went wrong before. -/
def CleanDrop (e : Event) (t : List Event) : Prop :=
  ∀ c exit, e = .dropped c exit → (∀ e ∈ t, e.undisturbed = true) → dropClean c exit t = true

instance : AboutDrops CleanDrop where
  other := by
    rintro e t he c exit rfl
    cases he

instance : Clients (Keeps fun _ => True) where
  client _ _ _ _ := trivial

instance : Reads (Keeps fun _ => True) where
  message _ _ _ := trivial

instance : Routers (Keeps fun _ => True) where
  router _ _ _ := trivial
  routing _ _ _ _ := trivial

theorem clean_tenure :
    Tenure CleanDrop (fun _ => True) (fun _ => True) (fun _ => True) (fun _ _ => True) Cleaned where
  lending :=
    { checkedOut := fun _ _ _ _ => trivial
      bad := fun _ _ => trivial
      health := fun _ _ _ => wp_weaken wp_true (fun _ _ _ => trivial)
      dropped := fun _ _ _ _ => trivial
      stops := fun _ _ _ => trivial
      waits := fun _ _ => trivial }
  assign _ _ _ _ _ _ := wp_true
  cleans := cleaned_cleans
  start _ _ := trivial
  drain _ _ := trivial
  idle _ _ := trivial
  lost c exit t hlost := by
    rintro c' exit' h _
    cases h
    rcases hlost with rfl | hbad
    · simp [dropClean]
    · simp [dropClean, hbad]
  given w exit hw := by
    rintro c' exit' h hu
    cases h
    exact (hw hu).dropClean exit

theorem dropsClean_of_each : ∀ {t : List Event}, (∀ e t', e :: t' <:+ t → CleanDrop e t') →
    (∀ e ∈ t, e.undisturbed = true) → dropsClean t = true := by
  intro t
  induction t with
  | nil => exact fun _ _ => rfl
  | cons e t ih =>
    intro hdrops hu
    have hbefore : ∀ e ∈ t, e.undisturbed = true := fun e' he' => hu e' (List.mem_cons_of_mem e he')
    have hrest := ih (fun e' t' h => hdrops e' t' (h.trans (List.suffix_cons e t))) hbefore
    cases e with
    | dropped c exit =>
      have hdrop := hdrops _ _ List.suffix_rfl c exit rfl hbefore
      exact Bool.and_eq_true_iff.mpr ⟨hdrop, hrest⟩
    | _ => exact hrest

/-- In every undisturbed session, whatever the server sends, each connection the client gives up
without a panic is bad or clean. -/
theorem dropped_bad_or_clean (fuel : Nat) (ext : Externals) (client : Client)
    (map : ClientServerMap) (script : List Input)
    (h : ∀ e ∈ (final (handle fuel ext) (.start client map script)).trace,
      e.undisturbed = true) :
    dropsClean (final (handle fuel ext) (.start client map script)).trace = true := by
  have hstart : World.Each CleanDrop (.start client map script) := by
    intro e t hsuffix
    cases List.suffix_nil.mp hsuffix
  exact dropsClean_of_each (final_of_wp (clean_tenure.handle fuel ext _ ⟨trivial, hstart⟩)) h

/-- A client that opens a transaction and then sends nothing; the report of the timeout is written
or not. -/
def idleScript (written : Bool) : List Input :=
  Sample.checkout (simpleQuery "BEGIN") (Sample.conn 1) ++
    Sample.exchange [Sample.complete "BEGIN", Sample.ready 'T'] ++
    [.idleTimeout, .clientWrite written,
      .sent [[Sample.complete "ROLLBACK", Sample.ready 'I']], .arrives, .arrives]

theorem idle_clean : ((Sample.run (idleScript true)).trace.any fun
      | .dropped _ .idleTimeout => true
      | _ => false) = true ∧ dropsClean (Sample.run (idleScript true)).trace = true := by
  refine ⟨by decide +kernel, ?_⟩
  exact dropped_bad_or_clean 4 Sample.externals Sample.client (fun _ => none) (idleScript true)
    (by decide +kernel)

/-- The report cannot be written: the connection goes back in its transaction. -/
theorem idle_report_lost :
    dropsClean (Sample.run (idleScript false)).trace = false ∧
    ((Sample.run (idleScript false)).trace.filterMap fun
      | .dropped c exit => some (exit, c.server.bad, c.server.inTransaction)
      | _ => none) = [(.failed, false, true)] := by
  decide +kernel

end PgCat.Session
