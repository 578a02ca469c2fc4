import PgCat.Router.Effect
import PgCat.Session.Rules

/-!
# Routing — a proof outline for one turn up to the checkout

`lookAt` is what the router makes of a message, as one function of the router, and `arrival` is what
this leaves in the trace.  A turn of the outer loop is `Annotated` at three points: before a message is read,
after the router looked at it, and after its pool was looked up.  `Annotated.route` says that the annotations
are right, and `Annotated.session` that a whole session keeps to them.
-/

namespace PgCat.Session

open Lib Protocol Router

/-- Does the router look at messages of this kind? -/
def inferable (m : Message) : Bool :=
  match m.frontend with
  | .query | .parse | .bind => true
  | _ => false

/-- What the router makes of a message before a server is looked for; `none` is a panic. -/
def lookAt (ext : Externals) (m : Message) (r : QueryRouter) : Option QueryRouter :=
  if r.queryParserEnabled then
    match m.frontend with
    | .query | .parse => (r.infer ext m.bytes).map Prod.fst
    | .bind => (r.inferShardFromBind ext m.bytes).map Prod.fst
    | _ => some r
  else
    some r

def arrival (m : Message) (r : QueryRouter) : List Event :=
  if r.queryParserEnabled && inferable m then [.inferred m r.poolSettings, .message m]
  else [.message m]

/-- Is a message of this kind sent on its way when it is read? -/
def forwarded (m : Message) : Bool :=
  match m.frontend with
  | .parse | .bind | .describe | .execute | .terminate => false
  | _ => true

/-- `SET SHARD` beyond the shards of the pool is taken back. -/
def answered (pool : ConnectionPool) (current : Nat) (c : Command) (r : QueryRouter) : QueryRouter :=
  if c = .setShard ∧ pool.shards ≤ r.shard then r.setShard current else r

structure Call where
  pool : ConnectionPool
  shard : Nat
  role : Option Config.Role
  message : Message
  before : List Event

/-- The calls of a session, newest first. -/
def calls : List Event → List Call
  | [] => []
  | .get pool shard role m :: t => ⟨pool, shard, role, m, t⟩ :: calls t
  | _ :: t => calls t

theorem calls_suffix {c : Call} : ∀ {t : List Event}, c ∈ calls t →
    .get c.pool c.shard c.role c.message :: c.before <:+ t := by
  intro t
  induction t with
  | nil => nofun
  | cons e t ih =>
    cases e with
    | get pool shard role m =>
      intro hc
      rcases List.mem_cons.mp hc with rfl | hc
      · exact List.suffix_rfl
      · exact (ih hc).trans (List.suffix_cons _ t)
    | _ => exact fun hc => (ih hc).trans (List.suffix_cons _ t)

/-! ## What routing steps do to the router -/

variable (pool : ConnectionPool) (current : Nat) (c : Command) {e : Event} {m : Message} {r : QueryRouter}
  {w w' : World}

theorem lookAt_inferred {ext : Externals} {r' : QueryRouter}
    (h : lookAt ext m r = some r') : r.Inferred r' := by
  unfold lookAt at h
  split at h
  · split at h
    · rcases Option.map_eq_some_iff.mp h with ⟨⟨r₁, ok⟩, hinfer, rfl⟩
      exact QueryRouter.infer_keeps hinfer
    · rcases Option.map_eq_some_iff.mp h with ⟨⟨r₁, ok⟩, hinfer, rfl⟩
      exact QueryRouter.infer_keeps hinfer
    · rcases Option.map_eq_some_iff.mp h with ⟨⟨r₁, ok⟩, hbind, rfl⟩
      exact (QueryRouter.inferShardFromBind_inferred hbind).1
    · cases h
      exact .refl r
  · cases h
    exact .refl r

/-- Steps that leave the router alone and add at most one event of the given kind. -/
structure Aside (kind : Event → Bool) (w w' : World) : Prop where
  router : w'.router = w.router
  trace : w'.trace = w.trace ∨ ∃ e, kind e = true ∧ w'.trace = e :: w.trace

def Event.isAside (e : Event) : Bool := !e.isRouting

/-- The same, messages of the client apart. -/
def Event.isIdle : Event → Bool
  | .message _ => false
  | e => e.isAside

theorem Event.isAside_ofMove {p : Scope} (he : e.ofMove p = true) : e.isAside = true := by
  cases e with
  | inferred m s | lookup m r pool | command c value | get pool shard role m => cases he
  | _ => rfl

theorem Event.isAside_isNote (he : e.isNote = true) : e.isAside = true := by
  cases e with
  | inferred m s | lookup m r pool | command c value | get pool shard role m => cases he
  | _ => rfl

theorem Event.isIdle_isNote (he : e.isNote = true) : e.isIdle = true := by
  cases e with
  | message m => cases he
  | _ => exact isAside_isNote he

theorem Event.isAside_isIdle (he : e.isIdle = true) : e.isAside = true := by
  cases e with
  | message m => cases he
  | _ => exact he

section Asides

variable {A kind : Event → Bool} {w w' : World}

theorem Aside.mono {kind' : Event → Bool} (hkind : ∀ e, kind e = true → kind' e = true)
    (h : Aside kind w w') : Aside kind' w w' :=
  ⟨h.router, h.trace.imp id fun ⟨e, he, htrace⟩ => ⟨e, hkind e he, htrace⟩⟩

theorem Aside.all_before (h : Aside kind w w') (hw : w'.All A) : w.All A := by
  rcases h.trace with htrace | ⟨e, _, htrace⟩
  · exact fun e he => hw e (htrace ▸ he)
  · exact (hw.tail htrace).1

theorem Aside.all (hA : ∀ e, kind e = true → A e = true) (h : Aside kind w w') (hw : w.All A) : w'.All A := by
  rcases h.trace with htrace | ⟨e, he, htrace⟩
  · exact fun e he => hw e (htrace ▸ he)
  · exact hw.cons htrace (hA e he)

theorem Move.aside {p : Scope} (h : Move p w w') : Aside Event.isAside w w' := by
  refine ⟨?_, h.trace.imp id fun ⟨e, he, htrace⟩ => ⟨e, Event.isAside_ofMove he, htrace⟩⟩
  cases h with
  | still h =>
    cases h with
    | _ => rfl
  | _ => rfl

theorem Move.idle {r : Bool} (h : Move ⟨false, r⟩ w w') : Aside Event.isIdle w w' := by
  refine ⟨h.aside.router, h.trace.imp id fun ⟨e, he, htrace⟩ => ⟨e, ?_, htrace⟩⟩
  cases e with
  | message m => cases he
  | _ => exact Event.isAside_ofMove he

theorem Still.aside (h : Still w w') : Aside Event.isNote w w' := by
  cases h with
  | input rest | client c _ => exact ⟨rfl, .inl rfl⟩
  | note e he => exact ⟨rfl, .inr ⟨e, he, rfl⟩⟩

theorem Pooling.idle (h : Pooling w w') : Aside Event.isIdle w w' := by
  cases h with
  | move h => exact h.idle
  | checkedOut c _ | dropped exit _ => exact ⟨rfl, .inr ⟨_, rfl, rfl⟩⟩

end Asides

theorem World.All.arrival {A : Event → Bool}
    (hw : w.All A) (htrace : w'.trace = Session.arrival m r ++ w.trace)
    (hA : ∀ e ∈ Session.arrival m r, A e = true) : w'.All A := by
  intro e he
  rw [htrace] at he
  rcases List.mem_append.mp he with he | he
  · exact hA e he
  · exact hw e he

theorem World.All.before_arrival {A : Event → Bool}
    (hw : w'.All A) (htrace : w'.trace = Session.arrival m r ++ w.trace) : w.All A := by
  intro e he
  exact hw e (by simp [htrace, he])

theorem arrival_cases (h : e ∈ arrival m r) : e = .message m ∨ e = .inferred m r.poolSettings := by
  unfold arrival at h
  split at h
  · simpa [or_comm] using h
  · simpa using .inl (List.mem_singleton.mp h)

theorem Aside.each {P : Event → List Event → Prop} {kind : Event → Bool}
    (hP : ∀ e t, kind e = true → P e t) (h : Aside kind w w') (hw : w.Each P) : w'.Each P := by
  rcases h.trace with htrace | ⟨e, he, htrace⟩
  · exact fun e t hsuffix => hw e t (htrace ▸ hsuffix)
  · exact hw.cons htrace (hP e w.trace he)

theorem World.Each.arrival {P : Event → List Event → Prop} (hw : w.Each P) (htrace : w'.trace = Session.arrival m r ++ w.trace)
    (hP : ∀ e t, e = .message m ∨ e = .inferred m r.poolSettings → P e t) : w'.Each P := by
  have hmessage : (w.after (.message m)).Each P := hw.cons rfl (hP _ _ (.inl rfl))
  unfold Session.arrival at htrace
  split at htrace
  · exact hmessage.cons htrace (hP _ _ (.inr rfl))
  · exact hw.cons htrace (hP _ _ (.inl rfl))

theorem answered_poolSettings
    (r : QueryRouter) : (answered pool current c r).poolSettings = r.poolSettings := by
  unfold answered
  split
  · rfl
  · rfl

theorem answered_queryParserOverride (r : QueryRouter) :
    (answered pool current c r).queryParserOverride = r.queryParserOverride := by
  unfold answered
  split
  · rfl
  · rfl

theorem answered_role (r : QueryRouter) : (answered pool current c r).role = r.role := by
  unfold answered
  split <;> rfl

/-- Annotations that depend on the router and on the routing events alone. -/
structure Annotated (ext : Externals) (idle : World → Prop) (read : Message → World → Prop)
    (found : Message → ConnectionPool → World → Prop) (Done : World → Prop) : Prop where
  aside_idle : ∀ {w w'}, Aside Event.isIdle w w' → idle w → idle w'
  aside_read : ∀ {m w w'}, Aside Event.isNote w w' → read m w → read m w'
  aside_found : ∀ {m pool w w'}, Aside Event.isNote w w' → found m pool w → found m pool w'
  done : ∀ {w}, idle w → Done w
  done_found : ∀ {m pool w}, found m pool w → Done w
  arrives : ∀ {w m r'}, idle w → lookAt ext m w.router = some r' →
    read m { w with router := r', trace := arrival m w.router ++ w.trace }
  panics : ∀ {w m}, idle w → Done { w with trace := arrival m w.router ++ w.trace }
  buffered : ∀ {m w}, read m w → idle w
  looks : ∀ {m w} (pool : ConnectionPool), forwarded m = true → read m w → found m pool { w with
    router := w.router.updatePoolSettings pool.settings
    trace := .lookup m w.router pool :: w.trace }
  commands : ∀ {m pool w rand r' c value}, found m pool w →
    w.router.tryExecuteCommand ext rand m.bytes = some (r', some (c, value)) →
    idle { w with
      router := answered pool w.router.shard c r'
      trace := .command c value :: w.trace }
  gets : ∀ {m pool w rand r'}, found m pool w →
    w.router.tryExecuteCommand ext rand m.bytes = some (r', none) →
    idle { w with router := r', trace := .get pool r'.shard r'.role m :: w.trace }

namespace Annotated

variable {fuel : Nat} {ext : Externals} {idle Done : World → Prop} {read : Message → World → Prop}
  {found : Message → ConnectionPool → World → Prop}

theorem still {α : Type} {P : World → Prop} {m : Program α}
    (hP : ∀ {w w'}, Aside Event.isNote w w' → P w → P w') (hdone : ∀ {w}, P w → Done w)
    (hm : Runs Still m) {w : World} (hw : P w) : wp m (fun _ => P) (fun _ => Done) w :=
  wp_mono (hm.preserves (fun _ _ h => hP h.aside) w hw) (fun _ _ h => h) (fun _ _ h => hdone h)

variable (o : Annotated ext idle read found Done)
include o

variable {m : Message} {pool : ConnectionPool} {w : World}

theorem note_idle {w' : World} (h : Aside Event.isNote w w') : idle w → idle w' :=
  o.aside_idle (h.mono fun _ => Event.isIdle_isNote)

/-! ## Reading a message -/

theorem inferWith {look : QueryRouter → Option (QueryRouter × Bool)} (hm : inferable m = true)
    (hlook : ∀ r, r.queryParserEnabled = true → lookAt ext m r = (look r).map Prod.fst) (hw : idle w) :
    wp (inferWith m look) (fun _ => read m) (fun _ => Done) { w with trace := .message m :: w.trace } := by
  change wp (if w.router.queryParserEnabled = true then _ else _) _ _ _
  split
  · rename_i henabled
    have harrival : arrival m w.router = [.inferred m w.router.poolSettings, .message m] := by
      simp [arrival, henabled, hm]
    have hlooked := hlook w.router henabled
    change wp (orPanic (look w.router) >>= _) _ _ _
    cases hout : look w.router with
    | none =>
      have hpanic := o.panics (m := m) hw
      rw [harrival] at hpanic
      exact hpanic
    | some out =>
      rw [hout] at hlooked
      have hread := o.arrives hw hlooked
      rw [harrival] at hread
      exact hread
  · rename_i hdisabled
    have harrival : arrival m w.router = [.message m] := by simp [arrival, hdisabled]
    have hlooked : lookAt ext m w.router = some w.router := by simp [lookAt, hdisabled]
    have hread := o.arrives hw hlooked
    rw [harrival] at hread
    exact hread

theorem intake (hw : idle w) :
    wp (intake ext m) (fun i w' => read m w' ∧ (i = .forward → forwarded m = true)) (fun _ => Done)
      { w with trace := .message m :: w.trace } := by
  -- Appending to the client's buffer first or last makes no difference.
  have hbuffered : idle (w.buffered m) :=
    o.note_idle (w := w) ⟨rfl, .inl rfl⟩ hw
  have hother : ∀ {w : World}, idle w → (∀ r, lookAt ext m r = some r) → inferable m = false →
      read m { w with trace := .message m :: w.trace } := by
    intro w hw hlook hm
    have hread := o.arrives (m := m) hw (hlook w.router)
    have harrival : arrival m w.router = [.message m] := by simp [arrival, hm]
    rw [harrival] at hread
    exact hread
  unfold Session.intake
  cases hf : m.frontend with
  | describe | execute => exact ⟨hother hbuffered (by simp [lookAt, hf]) (by simp [inferable, hf]), nofun⟩
  | query =>
    change wp (Session.inferWith m _ >>= _) _ _ _
    exact wp_seq (o.inferWith (by simp [inferable, hf]) (by simp +contextual [lookAt, hf]) hw)
      (fun _ _ h => ⟨h, fun _ => by simp [forwarded, hf]⟩)
  | parse | bind =>
    change wp (Session.inferWith m _ >>= _) _ _ { w.buffered m with trace := .message m :: w.trace }
    exact wp_seq (o.inferWith (by simp [inferable, hf]) (by simp +contextual [lookAt, hf]) hbuffered)
      (fun _ _ h => ⟨h, nofun⟩)
  | terminate =>
    have hread := hother hw (by simp [lookAt, hf]) (by simp [inferable, hf])
    exact ⟨o.aside_read (Still.note _ (.stat .disconnect) rfl).aside hread, nofun⟩
  | _ =>
    exact ⟨hother hw (by simp [lookAt, hf]) (by simp [inferable, hf]),
      fun _ => by simp [forwarded, hf]⟩

/-- A message was read, and the router has not looked at it yet. -/
def Arrived (idle : World → Prop) (m : Option Message) (w : World) : Prop :=
  match m with
  | none => idle w
  | some m => ∃ w₀, idle w₀ ∧ w = { w₀ with trace := .message m :: w₀.trace }

omit o in
theorem Arrived.some {idle : World → Prop} (m : Message) (hw : idle w) :
    Arrived idle (some m) { w with trace := .message m :: w.trace } :=
  ⟨w, hw, rfl⟩

theorem readClient (hw : idle w) : wp readClient (fun m => Arrived idle (some m)) (fun _ => Done) w := by
  unfold Session.readClient
  refine wp_seq (still o.note_idle o.done next_runs hw) ?_
  intro i w' hw'
  split
  · exact .some _ hw'
  · exact o.done hw'
  · exact o.done hw'

theorem awaitMessage (hw : idle w) : wp awaitMessage (Arrived idle) (fun _ => Done) w := by
  unfold Session.awaitMessage
  refine wp_seq (still o.note_idle o.done next_runs hw) ?_
  intro i w' hw'
  split
  · change wp (if w'.client.admin = true then _ else _) _ _ w'
    split
    · exact wp_seq (o.readClient hw') (fun _ _ h => h)
    · refine wp_seq (still o.note_idle o.done (writeClient_runs _) hw') ?_
      intro _ w'' hw''
      exact o.note_idle (Still.note _ (.stat .disconnect) rfl).aside hw''
  · exact .some _ hw'
  · exact o.done hw'
  · exact o.done hw'

/-! ## Commands and the checkout -/

theorem answerCommand {rand : Nat} {r' : QueryRouter} {c : Command} {value : String} (hw : found m pool w)
    (hout : w.router.tryExecuteCommand ext rand m.bytes = some (r', some (c, value))) :
    wp (answerCommand pool w.router.shard c value) (fun _ => idle) (fun _ => Done) { w with router := r' } := by
  have hidle := o.commands hw hout
  change wp (if c = .setShard ∧ pool.shards ≤ r'.shard then _ else _) _ _ _
  unfold answered at hidle
  split
  · rename_i hrange
    rw [if_pos hrange] at hidle
    exact still o.note_idle o.done (writeClient_runs _) hidle
  · rename_i hrange
    rw [if_neg hrange] at hidle
    exact still o.note_idle o.done (writeClient_runs _) hidle

theorem checkout {rand : Nat} {r' : QueryRouter} (hw : found m pool w)
    (hout : w.router.tryExecuteCommand ext rand m.bytes = some (r', none)) :
    wp (checkout fuel pool m) (Turn.Leaves idle idle Done) (fun _ => Done) { w with router := r' } := by
  let w₁ : World := { w with trace := .stat .waiting :: w.trace }
  have hstat : found m pool w₁ := o.aside_found (Still.note w (.stat .waiting) rfl).aside hw
  have hget := (get_runs (S := Pooling) fuel pool r'.shard r'.role).preserves
    (fun _ _ h => o.aside_idle h.idle) _ (o.gets hstat hout)
  change wp (pool.get fuel r'.shard r'.role >>= _) _ _ _
  refine wp_seq (wp_mono hget (fun _ _ h => h) (fun _ _ h => o.done h)) ?_
  intro a w' hw'
  cases a with
  | some a => exact hw'
  | none =>
    have hwrite : ∀ w, idle w →
        wp (writeClient (.error "could not get connection from the pool")) (fun _ => idle) (fun _ => Done) w :=
      fun _ h => still o.note_idle o.done (writeClient_runs _) h
    have hidle : idle { w' with trace := .stat .idle :: w'.trace } :=
      o.note_idle (Still.note _ (.stat .idle) rfl).aside hw'
    have hclear : Runs Still (runIf (m.frontend = .sync) clearBuffer) :=
      runIf_runs _ clearBuffer_runs
    change wp (runIf (m.frontend = .sync) clearBuffer >>= _) _ _ _
    refine wp_seq (still o.note_idle o.done hclear hidle) ?_
    intro _ w'' hw''
    exact wp_seq (hwrite w'' hw'') (fun _ _ h => h)

theorem afterCommand (hw : found m pool w) :
    wp (do if ← runCommand ext pool m then pure .again else Session.checkout fuel pool m)
      (Turn.Leaves idle idle Done) (fun _ => Done) w := by
  unfold runCommand
  rw [wp_bind]
  refine wp_seq (still o.aside_found o.done_found random_runs hw) ?_
  intro rand w' hw'
  rw [wp_bind, wp_get, wp_bind]
  refine orPanic_rule (fun _ => o.done_found hw') fun out hout => ?_
  rcases out with ⟨r', _ | ⟨c, value⟩⟩
  · exact o.checkout hw' hout
  · rw [wp_bind]
    change wp (Session.answerCommand pool w'.router.shard c value >>= _) _ _ { w' with router := r' }
    exact wp_seq (o.answerCommand hw' hout) (fun _ _ h => h)

theorem forward (hm : forwarded m = true) (hw : read m w) :
    wp (forward fuel ext m) (Turn.Leaves idle idle Done) (fun _ => Done) w := by
  change wp (if w.client.admin = true then _ else _) _ _ w
  split
  · exact wp_seq (still o.aside_read (fun h => o.done (o.buffered h)) handleAdmin_runs hw) (fun _ _ h => o.buffered h)
  · refine wp_seq (still o.aside_read (fun h => o.done (o.buffered h)) currentPool_runs hw) ?_
    exact fun pool w' hw' => o.afterCommand (o.looks pool hm hw')

theorem route (hw : idle w) : wp (route fuel ext) (Turn.Leaves idle idle Done) (fun _ => Done) w := by
  unfold Session.route
  refine wp_seq (o.awaitMessage hw) ?_
  intro m w' hw'
  cases m with
  | none => exact o.done hw'
  | some m =>
    rcases hw' with ⟨w₀, hw₀, rfl⟩
    refine wp_seq (o.intake hw₀) ?_
    rintro i w' ⟨hread, hforward⟩
    cases i with
    | buffered => exact o.buffered hread
    | terminated => exact o.done (o.buffered hread)
    | forward => exact o.forward (hforward rfl) hread

theorem session (fuel : Nat)
    (hserve : ∀ pool a m w, idle w → wp (serve fuel pool a m)
      (fun fin w' => if fin then Done w' else idle w') (fun _ => Done) w)
    {client : Client} {map : ClientServerMap} {script : List Input}
    (hstart : idle (.start client map script)) :
    Done (final (handle fuel ext) (.start client map script)) := by
  let w : World := .start client map script
  have hcancel : wp cancelQuery (fun _ => Done) (fun _ => Done) w :=
    wp_imp (still o.note_idle o.done cancelQuery_runs hstart) (fun _ _ h => o.done h)
  have hnote : Aside Event.isIdle w { w with router := .new, trace := .stat .register :: w.trace } :=
    ⟨rfl, .inr ⟨.stat .register, rfl, rfl⟩⟩
  have hregister : idle { w with router := .new, trace := .stat .register :: w.trace } :=
    o.aside_idle hnote hstart
  exact final_of_wp (handle_rule fuel ext (fun _ h => o.done h) (fun _ h => o.route h)
    hserve w (fun _ => hcancel) hregister)

end Annotated

theorem serve_aside {idle Done : World → Prop}
    (haside : ∀ {w w'}, Aside Event.isAside w w' → idle w → idle w') (hdone : ∀ {w}, idle w → Done w)
    (fuel : Nat) (pool : ConnectionPool) (a : Address) (m : Message) (w : World) (hw : idle w) :
    wp (serve fuel pool a m) (fun fin w' => if fin then Done w' else idle w') (fun _ => Done) w := by
  have hdrop : ∀ w' exit, idle w' → idle (w'.dropped exit) := by
    intro w' exit h
    have hdropped : Aside Event.isAside w' (w'.dropped exit) :=
      ⟨rfl, .inr ⟨.dropped w'.conn exit, rfl, rfl⟩⟩
    exact haside hdropped h
  have hheld := (serveHeld_runs (S := Move ⟨true, true⟩) fuel pool a m).preserves
    (fun _ _ h => haside h.aside) w hw
  refine serve_rule hheld ?_ ?_ ?_ ?_ ?_
  · exact fun exit w' h _ => hdrop w' exit h
  · exact fun w' h => hdone (hdrop w' _ h)
  · exact fun w' h => hdone h
  · exact fun w' h => hdone (hdrop w' _ h)
  · exact fun stop w' h _ _ => hdone (hdrop w' _ h)

end PgCat.Session
