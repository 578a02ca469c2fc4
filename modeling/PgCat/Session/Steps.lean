import PgCat.Session.Moves

/-!
# Steps — the functions of the session as sequences of steps

Every function is shown once to be a sequence of steps of a relation `S`, for any `S` that admits the
kinds of steps the function takes.  The kinds are classes: `Notes`, `Gauges`, `AllStats`, `Clients`,
`Hears`, `Sends`, `Binds`, `Reads`, `Pools` and `Routers`.  `Listens`, `Soils` and `Discards` split
`Hears` by what happens to the server; `Remarks` are the notes without the answers that end an exchange
(`Answers`) and without the input that the client is gone, which `Blind` relations do not see; `Marks` are the
changes to the client that leave its buffer alone.  `Still`, `Move`, `Pooling` and `Route` are instances, and so
is any relation a later module keeps an invariant with.
-/

namespace PgCat.Session

open Lib Protocol Router

/-! ## Kinds of steps -/

/-- The answers of the pooler itself that end an exchange of the client early. -/
def Response.endsEarly : Response → Bool
  | .error text => text = "idle transaction timeout" || text = "could not get connection from the pool"
  | _ => false

/-- Calls that change a gauge of the pool, or whose effect depends on the state of the client. -/
def Stat.isGauge : Stat → Bool
  | .register | .disconnect | .waiting | .active | .idle | .checkoutError => true
  | _ => false

/-- Notes that are no such call. -/
def Event.isPlain : Event → Bool
  | .stat s => !s.isGauge
  | e => e.isNote

variable (m : Message) {e : Event}

theorem Event.isNote_of_isPlain (h : e.isPlain = true) : e.isNote = true := by
  cases e with
  | stat s => rfl
  | _ => exact h

/-- Notes that are no answer of this kind either. -/
def Event.isRemark : Event → Bool
  | .replied r _ => !r.endsEarly
  | e => e.isPlain

theorem Event.isPlain_of_isRemark (h : e.isRemark = true) : e.isPlain = true := by
  cases e with
  | replied r ok => rfl
  | _ => exact h

section Kinds

variable (S : World → World → Prop)

/-- Only the functions that read from the client take the input that its connection is gone. -/
class Remarks : Prop where
  input : ∀ w i rest, w.script = i :: rest → i ≠ .clientGone → S w { w with script := rest }
  remark : ∀ w (e : Event), e.isRemark = true → S w { w with trace := e :: w.trace }

class Answers : Prop where
  answered : ∀ w r ok, S w { w with trace := .replied r ok :: w.trace }

class Notes : Prop where
  input : ∀ w rest, S w { w with script := rest }
  note : ∀ w (e : Event), e.isPlain = true → S w { w with trace := e :: w.trace }

/-- A registered client is waiting, active or idle; a failed checkout is reported of an idle one. -/
class Gauges : Prop where
  gauge : ∀ w s, s = .waiting ∨ s = .active ∨ s = .idle → S w { w with trace := .stat s :: w.trace }
  refused : ∀ w, Relation.ReflTransGen S w
    { w with trace := .stat .checkoutError :: .stat .idle :: w.trace }

class AllStats : Prop where
  stat : ∀ w s, S w { w with trace := .stat s :: w.trace }

class Marks : Prop where
  client : ∀ w c, w.client.Same c → c.buffer = w.client.buffer → S w { w with client := c }

class Clients : Prop where
  client : ∀ w c, w.client.Same c → S w { w with client := c }

class Hears : Prop where
  server : ∀ w s, w.conn.server.Same s → S w { w with conn := { w.conn with server := s } }
  received : ∀ w m rest, w.conn.unread = m :: rest →
    S w { w with conn := w.conn.taken m rest, trace := .received w.conn m :: w.trace }

class Listens : Prop where
  received : ∀ w m rest, w.conn.unread = m :: rest →
    S w { w with conn := w.conn.taken m rest, trace := .received w.conn m :: w.trace }
  bad : ∀ w, S w { w with conn := { w.conn with server := { w.conn.server with bad := true } } }
  flushed : ∀ w, S w { w with conn := { w.conn with server := { w.conn.server with buffer := [] } } }

class Soils : Prop where
  dirty : ∀ w,
    S w { w with conn := { w.conn with server := { w.conn.server with needsCleanup := true } } }

/-- `DISCARD ALL` has returned. -/
class Discards : Prop where
  discarded : ∀ w, Relation.ReflTransGen S w { w with
    conn := { w.conn with server := { w.conn.server with needsCleanup := false } }
    trace := .discarded w.conn :: w.trace }

class Sends (fromClient : Bool) : Prop where
  sent : ∀ w m reply,
    S w { w with conn := w.conn.push m reply, trace := .sent w.conn m reply fromClient :: w.trace }

class Binds : Prop where
  claimed : ∀ w, S w { w with
    map := Function.update w.map w.client.key (some w.conn.server.target)
    trace := .claimed w.conn :: w.trace }
  released : ∀ w, S w { w with
    map := Function.update w.map w.client.key none
    trace := .released :: w.trace }

class Reads : Prop where
  message : ∀ w m, S w { w with trace := .message m :: w.trace }

class Pools : Prop where
  checkedOut : ∀ w c, c.server.bad = false →
    S w { w with conn := c, trace := .checkedOut c :: w.trace }
  dropped : ∀ w exit, exit = .unhealthy ∧ w.conn.server.bad = true ∨ exit = .panicked →
    S w { w with trace := .dropped w.conn exit :: w.trace }

class Routers : Prop where
  router : ∀ w r, S w { w with router := r }
  routing : ∀ w (e : Event), e.isRouting = true → S w { w with trace := e :: w.trace }

end Kinds

section Instances

variable {S : World → World → Prop} {p : Scope} {f r : Bool}

instance [Notes S] : Blind S where
  input := Notes.input

instance [Notes S] : Answers S where
  answered w _ _ := Notes.note w _ rfl

instance [Notes S] : Remarks S where
  input w _ rest _ _ := Notes.input w rest
  remark w e h := Notes.note w e (Event.isPlain_of_isRemark h)

instance [Clients S] : Marks S where
  client w c h _ := Clients.client w c h

instance [AllStats S] : Gauges S where
  gauge w _ _ := AllStats.stat w _
  refused w := .head (AllStats.stat w .idle)
    (.single (AllStats.stat { w with trace := .stat .idle :: w.trace } .checkoutError))

instance [Hears S] : Listens S where
  received := Hears.received
  bad w := Hears.server w _ ⟨rfl, rfl, fun _ => rfl, rfl⟩
  flushed w := Hears.server w _ ⟨rfl, rfl, id, rfl⟩

instance [Hears S] : Soils S where
  dirty w := Hears.server w _ ⟨rfl, rfl, id, rfl⟩

instance [Remarks S] [Hears S] : Discards S where
  discarded w := .head (Remarks.remark w (.discarded w.conn) rfl)
    (.single (Hears.server { w with trace := .discarded w.conn :: w.trace } _ ⟨rfl, rfl, id, rfl⟩))

instance : Notes Still where
  input := .input
  note w e h := .note w e (Event.isNote_of_isPlain h)

instance : AllStats Still where
  stat w _ := .note w _ rfl

instance : Clients Still where
  client := .client

instance : Notes (Move p) where
  input w rest := .still (.input w rest)
  note w e h := .still (.note w e (Event.isNote_of_isPlain h))

instance : AllStats (Move p) where
  stat w _ := .still (.note w _ rfl)

instance : Clients (Move p) where
  client w c h := .still (.client w c h)

instance : Hears (Move p) where
  server := .server
  received := .received

instance : Sends (Move p) false where
  sent w m reply := .sent w m reply false nofun

instance : Sends (Move ⟨true, r⟩) true where
  sent w m reply := .sent w m reply true fun _ => rfl

instance : Binds (Move ⟨f, true⟩) where
  claimed w := .claimed w rfl
  released w := .released w rfl

instance : Reads (Move ⟨true, r⟩) where
  message w m := .message w m rfl

instance : Notes Pooling where
  input w rest := .move (Notes.input w rest)
  note w e h := .move (Notes.note w e h)

instance : AllStats Pooling where
  stat w s := .move (AllStats.stat w s)

instance : Clients Pooling where
  client w c h := .move (Clients.client w c h)

instance : Hears Pooling where
  server w s h := .move (Hears.server w s h)
  received w m rest h := .move (Hears.received w m rest h)

instance : Sends Pooling false where
  sent w m reply := .move (Sends.sent w m reply)

instance : Pools Pooling where
  checkedOut := .checkedOut
  dropped := .dropped

instance : Notes Route where
  input w rest := .pooling (Notes.input w rest)
  note w e h := .pooling (Notes.note w e h)

instance : AllStats Route where
  stat w s := .pooling (AllStats.stat w s)

instance : Clients Route where
  client w c h := .pooling (Clients.client w c h)

instance : Hears Route where
  server w s h := .pooling (Hears.server w s h)
  received w m rest h := .pooling (Hears.received w m rest h)

instance : Sends Route false where
  sent w m reply := .pooling (Sends.sent w m reply)

instance : Pools Route where
  checkedOut w c h := .pooling (.checkedOut w c h)
  dropped w exit h := .pooling (.dropped w exit h)

instance : Reads Route where
  message := .message

instance : Routers Route where
  router := .router
  routing := .routing

end Instances

def Keeps (P : World → Prop) (w w' : World) : Prop :=
  P w → P w'

theorem keeps {α : Type} {m : Program α} {P : World → Prop} [Blind (Keeps P)] (hm : Runs (Keeps P) m) {w : World}
    (hw : P w) : wp m (fun _ => P) (fun _ => P) w :=
  hm.preserves (fun _ _ h => h) w hw

variable {S : World → World → Prop}

/-! ## Primitives -/

theorem next_runs [Blind S] : Runs S next := by
  intro w
  unfold wp next
  cases w.script with
  | nil => exact .inr .refl
  | cons i rest => exact .single (Blind.input w rest)

section Primitives

variable [Remarks S]

/-- An input is waited for that is not the end of the client's connection. -/
theorem await_runs {α : Type} {f : Input → Program α} (hgone : f .clientGone = throw .pending)
    (hf : ∀ i, Runs S (f i)) : Runs S (next >>= f) := by
  intro w
  rw [wp_bind]
  unfold wp next
  cases hscript : w.script with
  | nil => exact .inr .refl
  | cons i rest =>
    dsimp only
    by_cases hi : i = .clientGone
    · subst hi
      rw [hgone]
      by_cases hS : Blind S
      · exact .inr (.single (hS.input w rest))
      · exact .inl ⟨rfl, hS⟩
    · exact (hf i).later (.single (Remarks.input w i rest hscript hi))

theorem emit_runs {e : Event} (h : e.isRemark = true) : Runs S (emit e) :=
  .ofModify fun w => Remarks.remark w e h

theorem emitConn_runs {e : Conn → Event} (h : ∀ c, (e c).isRemark = true) : Runs S (emitConn e) :=
  .ofModify fun w => Remarks.remark w (e w.conn) (h w.conn)

theorem count_runs {s : Stat} (h : s.isGauge = false) : Runs S (stat s) :=
  emit_runs (by simp [Event.isRemark, Event.isPlain, h])

theorem answer_runs {r : Response} (h : r.endsEarly = false) : Runs S (writeClient r) := by
  refine await_runs rfl fun i => ?_
  split
  · exact emit_runs (by simp [Event.isRemark, h])
  · exact (emit_runs (by simp [Event.isRemark, h])).seq fun _ => .ofThrow _
  · exact .ofThrow _

theorem ban_runs (a : Address) (reason : BanReason) : Runs S (ban a reason) :=
  .cond (.ofPure _) ((count_runs rfl).seq fun _ => emit_runs rfl)

theorem idleTimeoutSetting_runs : Runs S idleTimeoutSetting := by
  refine await_runs rfl fun i => ?_
  split
  · exact .ofPure _
  · exact .ofThrow _

end Primitives

theorem writeClient_runs [Remarks S] [Answers S] (r : Response) : Runs S (writeClient r) := by
  have hreply : ∀ ok, Runs S (emit (.replied r ok)) := fun ok => .ofModify fun w => Answers.answered w r ok
  refine await_runs rfl fun i => ?_
  split
  · exact hreply true
  · exact (hreply false).seq fun _ => .ofThrow _
  · exact .ofThrow _

theorem gauge_runs [Gauges S] {s : Stat} (h : s = .waiting ∨ s = .active ∨ s = .idle) : Runs S (stat s) :=
  .ofModify fun w => Gauges.gauge w s h

theorem stat_runs [AllStats S] (s : Stat) : Runs S (stat s) :=
  .ofModify fun w => AllStats.stat w s

theorem modifyServer_runs [Hears S] {f : Server → Server} (h : ∀ s : Server, s.Same (f s)) :
    Runs S (modifyServer f) :=
  .ofModify fun w => Hears.server w (f w.conn.server) (h w.conn.server)

theorem modifyClient_runs [Clients S] {f : Client → Client} (h : ∀ c : Client, c.Same (f c)) :
    Runs S (modifyClient f) :=
  .ofModify fun w => Clients.client w (f w.client) (h w.client)

theorem markClient_runs [Marks S] {f : Client → Client} (h : ∀ c : Client, c.Same (f c))
    (hbuffer : ∀ c : Client, (f c).buffer = c.buffer) : Runs S (modifyClient f) :=
  .ofModify fun w => Marks.client w (f w.client) (h w.client) (hbuffer w.client)

theorem markBad_runs [Listens S] : Runs S markBad :=
  .ofModify Listens.bad

theorem markDirty_runs [Soils S] : Runs S markDirty :=
  .ofModify Soils.dirty

theorem onError_runs {α : Type} {m : Program α} {handler : Error → Program Unit} (hm : Runs S m)
    (hh : ∀ e, Runs S (handler e)) : Runs S (onError m handler) := by
  refine hm.caught rfl fun stop => ?_
  split
  · exact (hh _).seq fun _ => .ofThrow _
  · exact .ofThrow _

theorem runIf_runs (c : Prop) [Decidable c] {m : Program Unit} (hm : Runs S m) : Runs S (runIf c m) :=
  .cond hm (.ofPure _)

theorem orPanic_runs {α : Type} (o : Option α) : Runs S (orPanic o) := by
  cases o with
  | none => exact .ofThrow _
  | some a => exact .ofPure _

theorem look_runs {α : Type} (f : World → α) :
    Runs S (do
      let w ← get
      pure (f w) : Program α) :=
  Runs.ofGet.seq fun _ => .ofPure _

/-! ## Server -/

theorem deliver_runs (fromClient : Bool) [Sends S fromClient] :
    ∀ (ms : List Message) (replies : List (List Message)), Runs S (deliver fromClient ms replies) := by
  intro ms
  induction ms with
  | nil => exact fun _ => .ofPure _
  | cons m ms ih =>
    intro replies
    cases replies with
    | nil => exact .ofPure _
    | cons reply replies => exact (Runs.ofModify fun w => Sends.sent w m reply).seq fun _ => ih replies

theorem absorb_runs [Listens S] : Runs S absorb := by
  intro w
  unfold wp absorb
  cases h : w.conn.unread with
  | nil => exact .inr .refl
  | cons m rest => exact .single (Listens.received w m rest h)

theorem takeBuffer_runs [Listens S] : Runs S takeBuffer :=
  fun w => .single (Listens.flushed w)

theorem isDataAvailable_runs : Runs S isDataAvailable :=
  look_runs _

section Server

variable [Remarks S] [Listens S]

variable (fuel : Nat) (timed : Bool)

theorem send_runs (fromClient : Bool) [Sends S fromClient] (ms : List Message) :
    Runs S (send timed fromClient ms) := by
  refine await_runs rfl fun i => ?_
  split
  · exact .cond (deliver_runs fromClient _ _) (.ofThrow _)
  · exact markBad_runs.seq fun _ => .ofThrow _
  · exact .ofThrow _
  · exact .ofThrow _

theorem readServer_runs : Runs S (readServer timed) := by
  refine await_runs rfl fun i => ?_
  split
  · exact absorb_runs
  · exact markBad_runs.seq fun _ => .ofThrow _
  · exact .ofThrow _
  · exact .ofThrow _

theorem recvTurn_runs : Runs S (recvTurn timed) := by
  refine (readServer_runs timed).seq fun after => ?_
  cases after with
  | more => exact .ofPure _
  | done => exact takeBuffer_runs.seq fun _ => .ofPure _
  | failed e => exact .ofThrow _
  | panicked => exact .ofThrow _

theorem recv_runs : Runs S (recv fuel timed) :=
  .loop (fun _ => recvTurn_runs timed) fuel ()

theorem queryTurn_runs : Runs S (queryTurn fuel timed) :=
  (recv_runs fuel timed).seq fun _ => isDataAvailable_runs.seq fun _ =>
    .cond (.ofPure _) (.ofPure _)

variable [Sends S false]

theorem query_runs (text : String) : Runs S (query fuel timed text) :=
  (send_runs timed false _).seq fun _ => .loop (fun _ => queryTurn_runs fuel timed) fuel ()

theorem rollback_runs : Runs S (rollback fuel) :=
  (query_runs _ _ _).seq fun _ => emitConn_runs fun _ => rfl

theorem discardAll_runs [Discards S] : Runs S (discardAll fuel) :=
  (query_runs _ _ _).seq fun _ => (Discards.discarded ·)

theorem checkinCleanup_runs [Discards S] : Runs S (checkinCleanup fuel) :=
  Runs.seq (look_runs _) fun _ => (runIf_runs _ (rollback_runs fuel)).seq fun _ =>
    Runs.seq (look_runs _) fun _ => (runIf_runs _ (discardAll_runs fuel)).seq fun _ =>
      emitConn_runs fun _ => rfl

end Server

section Naming

variable [Remarks S] [Hears S] [Sends S false]

theorem rename_runs (fuel : Nat) (name : String) (before : Bool) : Runs S (rename fuel name before) :=
  Runs.seq (modifyServer_runs fun _ => ⟨rfl, rfl, id, rfl⟩) fun _ =>
    (query_runs _ _ _).seq fun _ => modifyServer_runs fun _ => ⟨rfl, rfl, id, rfl⟩

theorem setName_runs (fuel : Nat) (name : String) : Runs S (setName fuel name) :=
  Runs.ofGet.seq fun _ => .cond (.ofPure _) (rename_runs _ _ _)

end Naming

/-! ## Client -/

section Receiving

variable [Remarks S] [Listens S]

variable (fuel : Nat) (pool : ConnectionPool) (a : Address)

theorem receiveFailed_runs (stop : Stop) : Runs S (receiveFailed a stop) := by
  cases stop with
  | failed e =>
    exact (ban_runs _ _).seq fun _ => (answer_runs rfl).seq fun _ => .ofThrow _
  | elapsed =>
    exact markBad_runs.seq fun _ => (ban_runs _ _).seq fun _ => (answer_runs rfl).seq fun _ =>
      .ofThrow _
  | panicked => exact .ofThrow _
  | pending => exact .ofThrow _

theorem receiveServerMessage_runs : Runs S (receiveServerMessage fuel pool a) :=
  (recv_runs _ _).caught rfl (receiveFailed_runs a)

theorem writeReply_runs (ms : List Message) : Runs S (writeReply ms) :=
  onError_runs (answer_runs rfl) fun _ => markBad_runs

theorem forwardReply_runs : Runs S (forwardReply fuel pool a) :=
  (receiveServerMessage_runs _ _ _).seq writeReply_runs

theorem receiveTurn_runs : Runs S (receiveTurn fuel pool a) :=
  (forwardReply_runs _ _ _).seq fun _ => isDataAvailable_runs.seq fun _ =>
    .cond (.ofPure _) (.ofPure _)

theorem receiveReplies_runs : Runs S (do
    repeatUntil .pending fuel (fun _ => receiveTurn fuel pool a) ()
    stat .query
    stat .serverQuery) :=
  (Runs.loop (fun _ => receiveTurn_runs fuel pool a) fuel ()).seq fun _ =>
    (count_runs rfl).seq fun _ => count_runs rfl

end Receiving

theorem leaveIfOver_runs [Remarks S] [Gauges S] (isQuery : Bool) : Runs S (leaveIfOver isQuery) := by
  refine Runs.ofGet.seq fun w => .cond (.ofPure _) ?_
  refine (count_runs rfl).seq fun _ => (count_runs rfl).seq fun _ => .cond ?_ (.ofPure _)
  exact (runIf_runs _ (gauge_runs (.inr (.inr rfl)))).seq fun _ => .ofPure _

theorem release_runs [Binds S] : Runs S release :=
  .ofModify Binds.released

theorem bufferMessage_runs [Clients S] : Runs S (bufferMessage m) :=
  modifyClient_runs fun _ => ⟨rfl, rfl, rfl⟩

theorem clearBuffer_runs [Clients S] : Runs S clearBuffer :=
  modifyClient_runs fun _ => ⟨rfl, rfl, rfl⟩

theorem clientBuffer_runs : Runs S clientBuffer :=
  look_runs _

section Dispatch

variable [Remarks S] [Listens S] [Sends S true]

variable (fuel : Nat) (pool : ConnectionPool) (a : Address) (m : Message)

theorem sendServerMessage_runs (ms : List Message) : Runs S (sendServerMessage a ms) :=
  onError_runs (send_runs _ true _) fun _ => ban_runs _ _

theorem sendAndReceiveLoop_runs (ms : List Message) : Runs S (sendAndReceiveLoop fuel pool a ms) :=
  (sendServerMessage_runs _ _).seq fun _ => receiveReplies_runs fuel pool a

variable [Clients S]

theorem handleCopyData_runs : Runs S (handleCopyData a m) :=
  (bufferMessage_runs m).seq fun _ => clientBuffer_runs.seq fun _ =>
    (runIf_runs _ ((sendServerMessage_runs _ _).seq fun _ => clearBuffer_runs)).seq fun _ =>
      .ofPure _

variable [Gauges S]

theorem handleSync_runs [Soils S] : Runs S (handleSync fuel pool a m) :=
  (bufferMessage_runs m).seq fun _ => clientBuffer_runs.seq fun _ =>
    (runIf_runs _ markDirty_runs).seq fun _ => (sendAndReceiveLoop_runs _ _ _ _).seq fun _ =>
      clearBuffer_runs.seq fun _ => leaveIfOver_runs _

theorem handleCopyEnd_runs : Runs S (handleCopyEnd fuel pool a m) :=
  (bufferMessage_runs m).seq fun _ => clientBuffer_runs.seq fun _ =>
    (sendServerMessage_runs _ _).seq fun _ => clearBuffer_runs.seq fun _ =>
      (forwardReply_runs _ _ _).seq fun _ => leaveIfOver_runs _

theorem dispatch_runs [Soils S] (hterminate : m.frontend = .terminate → Runs S (handleTerminate fuel)) :
    Runs S (dispatch fuel pool a m) := by
  unfold dispatch
  cases hm : m.frontend with
  | query => exact (sendAndReceiveLoop_runs _ _ _ _).seq fun _ => leaveIfOver_runs _
  | terminate => exact hterminate hm
  | sync => exact handleSync_runs _ _ _ _
  | copyData => exact handleCopyData_runs _ _
  | copyDone | copyFail => exact handleCopyEnd_runs _ _ _ _
  | other => exact .ofPure _
  | _ => exact (bufferMessage_runs m).seq fun _ => .ofPure _

end Dispatch

section Serving

variable [Remarks S] [Listens S] [Discards S] [Sends S false]

variable (fuel idleTimeout : Nat)

theorem handleTerminate_runs [AllStats S] [Binds S] : Runs S (handleTerminate fuel) :=
  (checkinCleanup_runs _).seq fun _ => (stat_runs _).seq fun _ => release_runs.seq fun _ => .ofPure _

theorem awaitInTransaction_runs [Notes S] [AllStats S] [Reads S] :
    Runs S (awaitInTransaction fuel idleTimeout) := by
  refine next_runs.seq fun i => ?_
  split
  · exact (Runs.ofModify fun w => Reads.message w _).seq fun _ => .ofPure _
  · exact (stat_runs _).seq fun _ => (checkinCleanup_runs _).seq fun _ => .ofThrow _
  · exact .cond (.ofThrow _) ((writeClient_runs _).seq fun _ => .ofPure _)
  · exact .ofThrow _

theorem transactionMessage_runs [Notes S] [AllStats S] [Reads S] (initial : Option Message) :
    Runs S (transactionMessage fuel idleTimeout initial) := by
  cases initial with
  | none => exact awaitInTransaction_runs _ _
  | some m => exact .ofPure _

theorem checkin_runs [Marks S] [Gauges S] [Binds S] (exit : Exit) : Runs S (checkin fuel exit) := by
  refine .cond (.ofPure _) ?_
  refine (checkinCleanup_runs _).seq fun _ => (count_runs rfl).seq fun _ => ?_
  refine Runs.seq (markClient_runs (fun _ => ⟨rfl, rfl, rfl⟩) fun _ => rfl) fun _ => ?_
  exact release_runs.seq fun _ => gauge_runs (.inr (.inr rfl))

variable [Notes S] [Clients S] [AllStats S] [Reads S] [Soils S] [Sends S true] [Binds S]

theorem transactionTurn_runs (pool : ConnectionPool) (a : Address)
    (initial : Option Message) : Runs S (transactionTurn fuel idleTimeout pool a initial) := by
  refine (transactionMessage_runs _ _ _).seq fun m => ?_
  cases m with
  | none => exact .ofPure _
  | some m =>
    refine (dispatch_runs _ _ _ _ fun _ => handleTerminate_runs _).seq fun exit => ?_
    cases exit with
    | none => exact .ofPure _
    | some exit => exact .ofPure _

end Serving

section Holding

variable [Remarks S] [Hears S] [Sends S false]

theorem attach_runs [Marks S] [Gauges S] (fuel : Nat) (a : Address) : Runs S (attach fuel a) := by
  refine Runs.seq (markClient_runs (fun _ => ⟨rfl, rfl, rfl⟩) fun _ => rfl) fun _ => ?_
  refine Runs.seq (gauge_runs (.inr (.inl rfl))) fun _ => ?_
  refine Runs.seq (markClient_runs (fun _ => ⟨rfl, rfl, rfl⟩) fun _ => rfl) fun _ => ?_
  exact Runs.ofGet.seq fun _ => setName_runs _ _

theorem assign_runs [Marks S] [Gauges S] [Binds S] (fuel : Nat) (a : Address) : Runs S (assign fuel a) :=
  (Runs.ofModify Binds.claimed).seq fun _ => attach_runs fuel a

theorem serveHeld_runs [Notes S] [Clients S] [AllStats S] [Reads S] [Sends S true] [Binds S] (fuel : Nat)
    (pool : ConnectionPool) (a : Address) (m : Message) : Runs S (serveHeld fuel pool a m) := by
  refine (assign_runs _ _).seq fun _ => idleTimeoutSetting_runs.seq fun idleTimeout => ?_
  refine (Runs.loop (transactionTurn_runs fuel idleTimeout pool a) fuel (some m)).seq fun exit => ?_
  exact Runs.seq (emitConn_runs fun _ => rfl) fun _ => (checkin_runs _ _).seq fun _ => .ofPure _

end Holding

/-! ## Checking a connection out -/

theorem checkOut_runs [Pools S] (a : Address) (c : Conn) : Runs S (checkOut a c) := by
  unfold checkOut
  split
  · rename_i hc
    intro w
    exact .single (Pools.checkedOut w c hc.2)
  · exact .ofThrow _

section Checkout

variable [Remarks S] [Listens S] [Pools S]

variable (fuel : Nat) (a : Address)

theorem healthCheckFailed_runs : Runs S (healthCheckFailed a) := by
  intro w
  let w₁ : World := { w with conn := { w.conn with server := { w.conn.server with bad := true } } }
  have hmark : S w w₁ := Listens.bad w
  have hbad := (ban_runs (S := Move ⟨false, false⟩) a .failedHealthCheck).preserves
    (fun _ _ => Move.bad) w₁ rfl
  have hban := wp_and (ban_runs (S := S) a .failedHealthCheck w₁) hbad
  change wp (ban a .failedHealthCheck >>= _) _ _ w₁
  rw [wp_bind]
  refine wp_mono hban ?_ (fun _ _ h => h.1.imp_right (.head hmark))
  intro _ w' h
  -- The handler ends by dropping a connection that is bad by now.
  exact (h.1.head hmark).tail (Pools.dropped w' .unhealthy (.inl ⟨rfl, h.2⟩))

variable [Sends S false]

theorem runHealthCheck_runs : Runs S (runHealthCheck fuel a) := by
  refine (count_runs rfl).seq fun _ => ?_
  refine Runs.caught ((query_runs _ _ _).seq fun _ => ?_) rfl fun stop => ?_
  · exact (count_runs rfl).seq fun _ => .ofPure _
  · cases stop with
    | failed e | elapsed => exact healthCheckFailed_runs a
    | panicked =>
      exact (Runs.ofModify fun w => Pools.dropped w _ (.inr rfl)).seq fun _ => .ofThrow _
    | pending => exact .ofThrow _

variable [Gauges S]

theorem tryCandidate_runs : Runs S (tryCandidate fuel a) := by
  have hwaiting : Runs S (stat .waiting) := gauge_runs (.inl rfl)
  have hrefused : Runs S (do
      stat .idle
      stat .checkoutError
      pure false) := fun w => Gauges.refused w
  refine await_runs rfl fun i => ?_
  split
  · exact .ofPure _
  · exact hwaiting.seq fun _ => (ban_runs _ _).seq fun _ => hrefused
  · exact hwaiting.seq fun _ => (checkOut_runs _ _).seq fun _ => (count_runs rfl).seq fun _ =>
      .ofPure _
  · exact hwaiting.seq fun _ => (checkOut_runs _ _).seq fun _ => runHealthCheck_runs _ _
  · exact .ofThrow _

theorem tryCandidates_runs : ∀ as : List Address, Runs S (tryCandidates fuel as) := by
  intro as
  induction as with
  | nil => exact .ofPure _
  | cons a as ih => exact (tryCandidate_runs fuel a).seq fun _ => .cond (.ofPure _) ih

theorem get_runs (pool : ConnectionPool) (shard : Nat) (role : Option Config.Role) :
    Runs S (pool.get fuel shard role) := by
  refine (orPanic_runs _).seq fun as => Runs.seq (await_runs rfl fun i => ?_) fun _ =>
    tryCandidates_runs _ _
  split
  · exact .cond (.ofPure _) (.ofThrow _)
  · exact .ofThrow _

end Checkout

/-! ## Routing -/

theorem setRouter_runs [Routers S] (r : QueryRouter) : Runs S (setRouter r) :=
  .ofModify fun w => Routers.router w r

theorem emitRouting_runs [Routers S] (h : e.isRouting = true) : Runs S (emit e) :=
  .ofModify fun w => Routers.routing w e h

theorem inferWith_runs [Routers S] (look : QueryRouter → Option (QueryRouter × Bool)) :
    Runs S (inferWith m look) :=
  Runs.ofGet.seq fun _ => .cond
    ((emitRouting_runs rfl).seq fun _ => (orPanic_runs _).seq fun _ => setRouter_runs _) (.ofPure _)

theorem updateSettings_runs [Routers S] (pool : ConnectionPool) : Runs S (updateSettings m pool) := by
  intro w
  let w₁ : World := { w with trace := .lookup m w.router pool :: w.trace }
  have hlookup : S w w₁ := Routers.routing w _ rfl
  exact .head hlookup (.single (Routers.router w₁ (w.router.updatePoolSettings pool.settings)))

theorem intake_runs [Routers S] [Clients S] (ext : Externals) (m : Message)
    (hterminate : m.frontend = .terminate → Runs S (stat .disconnect)) : Runs S (intake ext m) := by
  unfold intake
  cases hm : m.frontend with
  | describe | execute => exact (bufferMessage_runs m).seq fun _ => .ofPure _
  | query => exact (inferWith_runs m _).seq fun _ => .ofPure _
  | parse | bind => exact (bufferMessage_runs m).seq fun _ => (inferWith_runs m _).seq fun _ => .ofPure _
  | terminate => exact (hterminate hm).seq fun _ => .ofPure _
  | _ => exact .ofPure _

theorem Response.endsEarly_of_head {text : String} (hi : text.toList.head? ≠ some 'i')
    (hc : text.toList.head? ≠ some 'c') : (Response.error text).endsEarly = false := by
  simp only [Response.endsEarly, Bool.or_eq_false_iff, decide_eq_false_iff_not]
  constructor
  · rintro rfl
    exact hi rfl
  · rintro rfl
    exact hc rfl

theorem readClient_runs [Blind S] [Reads S] : Runs S readClient := by
  refine next_runs.seq fun i => ?_
  split
  · exact (Runs.ofModify fun w => Reads.message w _).seq fun _ => .ofPure _
  · exact .ofThrow _
  · exact .ofThrow _

section Routing

variable [Remarks S]

theorem getPool_runs : Runs S getPool := by
  refine await_runs rfl fun i => ?_
  split
  · exact .ofPure _
  · refine Runs.ofGet.seq fun w => (answer_runs ?_).seq fun _ => .ofThrow _
    exact Response.endsEarly_of_head (by simp) (by simp)
  · exact .ofThrow _

theorem currentPool_runs : Runs S currentPool := by
  refine getPool_runs.seq fun pool => .cond ?_ (.ofPure _)
  refine Runs.seq (await_runs rfl fun i => ?_) fun _ => getPool_runs
  split
  · exact .ofPure _
  · exact .ofThrow _

theorem random_runs : Runs S random := by
  refine await_runs rfl fun i => ?_
  split
  · exact .ofPure _
  · exact .ofThrow _

theorem handleAdmin_runs : Runs S handleAdmin := by
  refine await_runs rfl fun i => ?_
  split
  · exact .ofPure _
  · exact .ofThrow _
  · exact .ofThrow _

theorem cancelQuery_runs : Runs S cancelQuery := by
  refine Runs.ofGet.seq fun w => ?_
  split
  · exact .ofPure _
  · refine (emit_runs rfl).seq fun _ => await_runs rfl fun i => ?_
    split
    · exact .ofPure _
    · exact .ofThrow _
    · exact .ofThrow _

theorem awaitMessage_runs [Blind S] [Reads S] [AllStats S] : Runs S awaitMessage := by
  refine next_runs.seq fun i => ?_
  split
  · refine Runs.ofGet.seq fun w => .cond ?_ ?_
    · exact readClient_runs.seq fun _ => .ofPure _
    · exact (answer_runs rfl).seq fun _ => (stat_runs _).seq fun _ => .ofPure _
  · exact (Runs.ofModify fun w => Reads.message w _).seq fun _ => .ofPure _
  · exact .ofThrow _
  · exact .ofThrow _

variable [Routers S]

variable (fuel : Nat) (pool : ConnectionPool) (ext : Externals) (m : Message)

theorem answerCommand_runs (current : Nat) (c : Command)
    (value : String) : Runs S (answerCommand pool current c value) := by
  refine (emitRouting_runs rfl).seq fun _ => Runs.ofGet.seq fun _ => .cond ?_ ?_
  · refine (setRouter_runs _).seq fun _ => answer_runs ?_
    exact Response.endsEarly_of_head (by simp [shardRangeText]) (by simp [shardRangeText])
  · exact answer_runs (by cases c <;> rfl)

theorem runCommand_runs (pool : ConnectionPool) (m : Message) : Runs S (runCommand ext pool m) := by
  refine random_runs.seq fun _ => ?_
  refine Runs.ofGet.seq fun w => (orPanic_runs _).seq fun out => ?_
  refine (setRouter_runs _).seq fun _ => ?_
  split
  · exact .ofPure _
  · exact (answerCommand_runs _ _ _ _).seq fun _ => .ofPure _

variable [Answers S] [Clients S] [Gauges S] [Listens S] [Sends S false] [Pools S]

theorem checkout_runs : Runs S (checkout fuel pool m) := by
  refine Runs.seq (gauge_runs (.inl rfl)) fun _ => Runs.ofGet.seq fun w => ?_
  refine (emitRouting_runs rfl).seq fun _ => (get_runs _ _ _ _).seq fun found => ?_
  cases found with
  | some a => exact .ofPure _
  | none =>
    exact Runs.seq (gauge_runs (.inr (.inr rfl))) fun _ =>
      (runIf_runs _ clearBuffer_runs).seq fun _ => (writeClient_runs _).seq fun _ => .ofPure _

theorem forward_runs : Runs S (forward fuel ext m) := by
  refine Runs.seq (look_runs _) fun _ => .cond ?_ ?_
  · exact handleAdmin_runs.seq fun _ => .ofPure _
  · refine currentPool_runs.seq fun pool => (updateSettings_runs _ _).seq fun _ => ?_
    exact (runCommand_runs _ _ _).seq fun _ => .cond (.ofPure _) (checkout_runs _ _ _)

theorem route_runs [Blind S] [AllStats S] [Reads S] : Runs S (route fuel ext) := by
  refine awaitMessage_runs.seq fun m => ?_
  cases m with
  | none => exact .ofPure _
  | some m =>
    refine (intake_runs ext m fun _ => stat_runs _).seq fun i => ?_
    cases i with
    | buffered => exact .ofPure _
    | terminated => exact .ofPure _
    | forward => exact forward_runs _ _ _

end Routing

end PgCat.Session
