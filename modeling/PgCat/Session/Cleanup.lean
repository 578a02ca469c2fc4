import PgCat.Session.Rules

/-!
# Cleanup — what `checkin_cleanup` leaves behind at the end of a transaction

`Cleans` is the rule for one transaction: from what holds while the client is served (`I`), to what holds
where the cleanup has run (`G`), on every way out of the loop but a panic or a bad connection.  Its first use:
the connection is bad, or clean since the client's last message.

Two things can go wrong.  When the client was idle for too long, an error is written to it before
the loop is left; if that write fails, `handle` returns without any cleanup.  And `checkin_cleanup` takes
any end of a reply for the end of its query: a backend that does not answer with `ReadyForQuery` and
status idle leaves the flags set.
-/

namespace PgCat.Session

open Lib Protocol Router

/-! ## Statement -/

/-- Has `checkin_cleanup` returned on the connection since the client's last message was sent to it? -/
def cleanedSince (id : Nat) : List Event → Bool
  | [] => false
  | .cleanedUp c :: t => if c.id = id then true else cleanedSince id t
  | .sent c _ _ true :: t => if c.id = id then false else cleanedSince id t
  | .checkedOut _ :: _ => false
  | _ :: t => cleanedSince id t

/-- A connection that may go back to the pool, or will not be used again. -/
def dropClean (c : Conn) (exit : Exit) (before : List Event) : Bool :=
  exit = .panicked || c.server.bad ||
    cleanedSince c.id before && !c.server.inTransaction && !c.server.needsCleanup

/-- All connections dropped so far were bad or clean. -/
def dropsClean : List Event → Bool
  | [] => true
  | .dropped c exit :: t => dropClean c exit t && dropsClean t
  | _ :: t => dropsClean t

/-- The report of an idle timeout reaches the client, and each query of `checkin_cleanup` is answered by
`ReadyForQuery` with status idle. -/
def Event.undisturbed : Event → Bool
  | .replied r ok => ok || r != .error "idle transaction timeout"
  | .rolledBack c => c.lastRead.bind Message.readyStatus = some .idle
  | .discarded c => c.lastRead.bind Message.readyStatus = some .idle
  | _ => true

/-! ## Failures mark the connection bad -/

/-- How server-side code may stop: an error return leaves the connection bad, and only a call with a
time limit runs out of time. -/
def Broken (timed : Bool) (stop : Stop) (w : World) : Prop :=
  match stop with
  | .failed _ => w.conn.server.bad = true
  | .elapsed => timed = true
  | _ => True

/-- The transaction flag is what the last message read says, if that was `ReadyForQuery`. -/
def Current (c : Conn) : Prop :=
  ∀ s, c.lastRead.bind Message.readyStatus = some s → c.server.inTransaction = (s ≠ .idle : Bool)

theorem taken_current (c : Conn) (m : Message) (rest : List Message) : Current (c.taken m rest) := by
  intro s hs
  have hm : m.readyStatus = some s := hs
  rcases c.server.take_cases m with ⟨t, ht, _, hflag, _⟩ | ⟨hnone, _⟩ | ⟨hnone, _⟩
  · have hst : t = s := Option.some.inj (ht.symm.trans hm)
    exact hst ▸ hflag
  · rw [hm] at hnone
    cases hnone
  · rw [hm] at hnone
    cases hnone

variable (fuel : Nat) (timed : Bool) (pool : ConnectionPool) (ms : List Message) (a : Address) (m : Message)
  (w : World) {w' : World}

theorem recv_broken : wp (recv fuel timed) (fun _ w' => Current w'.conn) (Broken timed) w := by
  refine recv_rule (I := fun _ => True) ?_ ?_ ?_ ?_ ?_ ?_ ?_ w trivial
  · exact fun _ _ _ _ _ _ _ => trivial
  · exact fun w script m rest _ _ _ => taken_current w.conn m rest
  · intro w script m rest e _ _ hafter
    change (w.conn.server.take m).1.bad = true
    rcases w.conn.server.take_cases m with
      ⟨_, _, hd, _⟩ | ⟨_, _, _, ⟨hp, _⟩ | ⟨_, _, hbad⟩⟩ | ⟨_, _, _, _, _, hmore | ⟨hd, _⟩⟩
    · rw [hd] at hafter
      cases hafter
    · rw [hp] at hafter
      cases hafter
    · exact hbad
    · rw [hmore] at hafter
      cases hafter
    · rw [hd] at hafter
      cases hafter
  · exact fun _ _ _ _ _ _ _ => trivial
  · exact fun _ _ _ => rfl
  · exact fun _ _ _ => trivial
  · exact fun ht _ _ _ => ht

theorem send_broken (fromClient : Bool) (ms : List Message) (w : World) :
    wp (send timed fromClient ms) (fun _ _ => True) (Broken timed) w := by
  refine send_rule ?_ (fun _ => rfl) (fun _ => trivial) (fun ht _ => ht)
  intro script replies hlen
  exact wp_imp (deliver_delivered fromClient ms replies _ hlen) (fun _ _ _ => trivial)

theorem query_broken (text : String) (w : World) :
    wp (query fuel timed text) (fun _ w' => Current w'.conn) (Broken timed) w := by
  unfold query
  refine wp_seq (send_broken timed false [simpleQuery text] w) ?_
  intro _ w₁ _
  refine wp_repeatUntil (fun _ _ => True) ?_ (fun _ _ _ => trivial) fuel () w₁ trivial
  intro _ w₂ _
  unfold queryTurn
  refine wp_seq (recv_broken fuel timed w₂) ?_
  intro _ w₃ h₃
  change wp (if w₃.conn.server.dataAvailable = true then _ else _) _ _ w₃
  rw [wp_ite]
  exact ⟨fun _ => trivial, fun _ => h₃⟩

theorem Quiet.bad {w : World} (h : Quiet w w') (hw : w.conn.server.bad = true) :
    w'.conn.server.bad = true := by
  rw [h.conn]
  exact hw

theorem sendServerMessage_broken (ms : List Message) (w : World) :
    wp (sendServerMessage a ms) (fun _ _ => True) (Broken false) w := by
  refine onError_rule (send_broken false true ms w) ?_ (fun _ _ h _ => h)
  exact fun e w' hbad => ban_rule fun w'' hq => hq.bad hbad

theorem receiveFailed_broken (stop : Stop) (w : World) (hw : Broken timed stop w) :
    wp (receiveFailed a stop) (fun _ _ => False) (Broken false) w := by
  cases stop with
  | failed e =>
    unfold receiveFailed
    rw [wp_bind]
    refine ban_rule fun w₁ h₁ => ?_
    rw [wp_bind]
    have hbad : ∀ w₂, Quiet w₁ w₂ → w₂.conn.server.bad = true := fun w₂ h₂ => h₂.bad (h₁.bad hw)
    exact writeClient_rule hbad (fun w₂ h₂ _ => hbad w₂ h₂) (fun _ _ => trivial)
  | elapsed =>
    unfold receiveFailed
    rw [wp_bind]
    change wp (ban a .statementTimeout >>= _) _ _ w.markedBad
    rw [wp_bind]
    refine ban_rule fun w₁ h₁ => ?_
    rw [wp_bind]
    have hbad : ∀ w₂, Quiet w₁ w₂ → w₂.conn.server.bad = true := fun w₂ h₂ => h₂.bad (h₁.bad rfl)
    exact writeClient_rule hbad (fun w₂ h₂ _ => hbad w₂ h₂) (fun _ _ => trivial)
  | panicked => trivial
  | pending => trivial

theorem writeReply_broken : wp (writeReply ms) (fun _ _ => True) (Broken false) w := by
  have hwrite : wp (writeClient (.forwarded ms)) (fun _ _ => True) (fun stop _ => stop ≠ .elapsed) w :=
    writeClient_rule (fun _ _ => trivial) (fun _ _ _ => nofun) (fun _ _ => nofun)
  refine onError_rule hwrite (fun _ _ _ => rfl) ?_
  intro stop w' helapsed hfailed
  cases stop with
  | failed e => exact absurd rfl (hfailed e)
  | elapsed => exact absurd rfl helapsed
  | panicked => trivial
  | pending => trivial

theorem forwardReply_broken : wp (forwardReply fuel pool a) (fun _ _ => True) (Broken false) w := by
  unfold forwardReply receiveServerMessage
  rw [wp_bind, wp_tryCatch]
  refine wp_mono (recv_broken fuel _ w) (fun ms w' _ => writeReply_broken ms w') ?_
  intro stop w' hstop
  exact wp_imp (receiveFailed_broken _ a stop w' hstop) (fun _ _ h => h.elim)

theorem sendAndReceiveLoop_broken (ms : List Message) (w : World) :
    wp (sendAndReceiveLoop fuel pool a ms) (fun _ _ => True) (Broken false) w := by
  unfold sendAndReceiveLoop
  refine wp_seq (sendServerMessage_broken a ms w) ?_
  intro _ w₁ _
  rw [wp_bind]
  refine wp_repeatUntil (fun _ _ => True) ?_ (fun _ _ _ => trivial) fuel () w₁ trivial
  intro _ w₂ _
  unfold receiveTurn
  refine wp_seq (forwardReply_broken fuel pool a w₂) ?_
  intro _ w₃ _
  change wp (if w₃.conn.server.dataAvailable = true then _ else _) _ _ w₃
  rw [wp_ite]
  exact ⟨fun _ => trivial, fun _ => trivial⟩

theorem setName_broken (name : String) (w : World) :
    wp (setName fuel name) (fun _ _ => True) (Broken false) w := by
  refine setName_rule fuel trivial ?_
  unfold rename
  rw [wp_bind]
  change wp (query fuel false _ >>= _) _ _ _
  exact wp_seq (query_broken fuel false _ _) (fun _ _ _ => trivial)

/-! ## What a cleanup leaves -/

def Undisturbed (w : World) : Prop :=
  w.All Event.undisturbed

theorem rollback_closes :
    wp (rollback fuel) (fun _ w' => Undisturbed w' → w'.conn.server.inTransaction = false)
      (Broken false) w := by
  unfold rollback
  refine wp_seq (query_broken fuel false "ROLLBACK" w) ?_
  intro _ w₁ h₁ hu
  have hread := (hu.tail (w := w₁) rfl).2
  exact h₁ .idle (by simpa [Event.undisturbed] using hread)

theorem discardAll_closes :
    wp (discardAll fuel) (fun _ w' => Undisturbed w' →
        w'.conn.server.inTransaction = false ∧ w'.conn.server.needsCleanup = false)
      (Broken false) w := by
  unfold discardAll
  refine wp_seq (query_broken fuel false "DISCARD ALL" w) ?_
  intro _ w₁ h₁ hu
  have hread := (hu.tail (w := w₁) rfl).2
  exact ⟨h₁ .idle (by simpa [Event.undisturbed] using hread), rfl⟩

/-- `checkin_cleanup` has just returned on the connection, or nothing since was sent by the client. -/
structure CleanedUp (w : World) : Prop where
  since : cleanedSince w.conn.id w.trace = true
  inTransaction : w.conn.server.inTransaction = false
  needsCleanup : w.conn.server.needsCleanup = false

theorem checkinCleanup_cleans :
    wp (checkinCleanup fuel) (fun _ w' => Undisturbed w' → CleanedUp w') (Broken false) w := by
  refine checkinCleanup_rule (P := fun w' => Undisturbed w' → w'.conn.server.inTransaction = false) fuel ?_ ?_
  · unfold runIf
    rw [wp_ite]
    exact ⟨fun _ => rollback_closes fuel w, fun h _ => by simpa using h⟩
  · intro w₁ h₁
    have hclean : wp (runIf (w₁.conn.server.needsCleanup = true) (discardAll fuel))
        (fun _ w' => Undisturbed w' →
          w'.conn.server.inTransaction = false ∧ w'.conn.server.needsCleanup = false)
        (Broken false) w₁ := by
      unfold runIf
      rw [wp_ite]
      exact ⟨fun _ => discardAll_closes fuel w₁, fun h hu => ⟨h₁ hu, by simpa using h⟩⟩
    refine wp_imp hclean ?_
    intro _ w₂ h₂ hu
    rcases h₂ (hu.tail rfl).1 with ⟨hin, hneeds⟩
    exact ⟨by simp [cleanedSince], hin, hneeds⟩

/-! ## The transaction loop -/

theorem leaveIfOver_broken (isQuery : Bool) (w : World) :
    wp (leaveIfOver isQuery) (fun _ _ => True) (Broken false) w :=
  leaveIfOver_rule fun _ _ _ _ => trivial

theorem handleSync_broken : wp (handleSync fuel pool a m) (fun _ _ => True) (Broken false) w := by
  let w₀ := w.buffered m
  let buffer := w.client.buffer ++ [m]
  change wp (runIf (startsNamed buffer = true) markDirty >>= _) _ _ w₀
  have hdirty : wp (runIf (startsNamed buffer = true) markDirty) (fun _ _ => True) (Broken false) w₀ := by
    unfold runIf
    rw [wp_ite]
    exact ⟨fun _ => trivial, fun _ => trivial⟩
  refine wp_seq hdirty ?_
  intro _ w₁ _
  refine wp_seq (sendAndReceiveLoop_broken fuel pool a buffer w₁) ?_
  exact fun _ w₂ _ => leaveIfOver_broken false _

theorem handleCopyData_broken : wp (handleCopyData a m) (fun _ _ => True) (Broken false) w := by
  let w₀ := w.buffered m
  let buffer := w.client.buffer ++ [m]
  change wp (runIf (chunkSize < bufferSize buffer) (sendServerMessage a buffer >>= fun _ => clearBuffer)
    >>= _) _ _ w₀
  have hflush : wp (runIf (chunkSize < bufferSize buffer)
      (sendServerMessage a buffer >>= fun _ => clearBuffer)) (fun _ _ => True) (Broken false) w₀ := by
    unfold runIf
    rw [wp_ite, wp_bind]
    exact ⟨fun _ => wp_mono (sendServerMessage_broken a buffer w₀) (fun _ _ _ => trivial)
      (fun _ _ h => h), fun _ => trivial⟩
  exact wp_seq hflush (fun _ _ _ => trivial)

theorem handleCopyEnd_broken : wp (handleCopyEnd fuel pool a m) (fun _ _ => True) (Broken false) w := by
  let w₀ := w.buffered m
  let buffer := w.client.buffer ++ [m]
  change wp (sendServerMessage a buffer >>= _) _ _ w₀
  refine wp_seq (sendServerMessage_broken a buffer w₀) ?_
  intro _ w₁ _
  rw [wp_bind]
  change wp (forwardReply fuel pool a >>= _) _ _ _
  exact wp_seq (forwardReply_broken fuel pool a _) (fun _ w₂ _ => leaveIfOver_broken false w₂)

theorem dispatch_broken : wp (dispatch fuel pool a m) (fun _ _ => True) (Broken false) w := by
  unfold dispatch
  cases m.frontend with
  | query =>
    dsimp only
    exact wp_seq (sendAndReceiveLoop_broken fuel pool a [m] w)
      (fun _ w' _ => leaveIfOver_broken true w')
  | terminate =>
    change wp (checkinCleanup fuel >>= _) _ _ w
    exact wp_seq (checkinCleanup_cleans fuel w) (fun _ _ _ => trivial)
  | sync => exact handleSync_broken fuel pool a m w
  | copyData => exact handleCopyData_broken a m w
  | copyDone | copyFail => exact handleCopyEnd_broken fuel pool a m w
  | other => trivial
  | _ => trivial

/-- How serving a client may stop. -/
def Abandoned (G : World → Prop) (stop : Stop) (w : World) : Prop :=
  match stop with
  | .failed _ => w.conn.server.bad = true ∨ G w
  | .elapsed => False
  | _ => True

theorem Broken.abandoned {G : World → Prop} {stop : Stop} {w : World} (h : Broken false stop w) :
    Abandoned G stop w := by
  cases stop with
  | failed e => exact .inl h
  | elapsed => cases h
  | panicked => trivial
  | pending => trivial

/-- What is known of a client that is served: `I` while it is waited for, `J m` when message `m` is about to
be handled, `G` when `checkin_cleanup` has returned.  After a lost report nothing is left to establish. -/
structure Cleans (fuel : Nat) (pool : ConnectionPool) (a : Address) (I : World → Prop)
    (J : Message → World → Prop) (G : World → Prop) : Prop where
  input : ∀ m w rest, J m w → J m { w with script := rest }
  read : ∀ m w, I w → J m (w.after (.message m))
  terminated : ∀ m w, J m w → m.frontend = .terminate → I w
  dispatch : ∀ m w, J m w → m.frontend ≠ .terminate →
    wp (dispatch fuel pool a m) (fun _ => I) (fun _ _ => True) w
  cleanup : ∀ w, I w → wp (checkinCleanup fuel) (fun _ => G) (Broken false) w
  lost : ∀ w, .replied (.error "idle transaction timeout") false ∈ w.trace → G w

/-- What is known when the loop is left. -/
def Exit.Leaves (I G : World → Prop) (exit : Exit) : World → Prop :=
  if exit = .finished then G else I

theorem Exit.leaves_of_ne {I G : World → Prop} {exit : Exit} (h : exit ≠ .finished) :
    exit.Leaves I G = I := by
  simp [Exit.Leaves, h]

section Exits

variable {fuel : Nat} {pool : ConnectionPool} {a : Address} {I G : World → Prop}
  {J : Message → World → Prop}

theorem awaitInTransaction_exits [Notes (Keeps I)] [AllStats (Keeps I)] (hc : Cleans fuel pool a I J G)
    (idleTimeout : Nat) {w : World} (hw : I w) :
    wp (awaitInTransaction fuel idleTimeout)
      (fun read w' => read.elim (Exit.Leaves I G .idleTimeout w') fun m => J m w') (Abandoned G)
      w := by
  unfold awaitInTransaction
  rw [wp_bind]
  refine next_rule trivial ?_
  intro i rest
  have hrest : I { w with script := rest } := Notes.input (S := Keeps I) w rest hw
  split
  · exact hc.read _ _ hrest
  · rw [wp_bind]
    have hgone := AllStats.stat (S := Keeps I) { w with script := rest } .disconnect hrest
    change wp (checkinCleanup fuel >>= _) _ _ _
    rw [wp_bind]
    exact wp_mono (hc.cleanup _ hgone) (fun _ w' h => .inr h) (fun _ _ h => h.abandoned)
  · rw [wp_ite]
    refine ⟨fun _ => trivial, fun _ => ?_⟩
    rw [wp_bind]
    -- A report that is written leaves the loop; one that is lost ends the client without a cleanup.
    have hlost : wp (writeClient (.error "idle transaction timeout")) (fun _ _ => True) (Abandoned G)
        { w with script := rest } :=
      writeClient_rule (fun _ _ => trivial) (fun w' _ hmem => .inr (hc.lost w' hmem))
        (fun _ _ => trivial)
    refine wp_mono (wp_and (keeps (writeClient_runs _) hrest) hlost) ?_ (fun _ _ h => h.2)
    intro _ w' h
    exact h.1
  · trivial

variable [AllStats (Keeps G)] [Binds (Keeps G)]

theorem handleTerminate_exits (hc : Cleans fuel pool a I J G) {w : World} (hw : I w) :
    wp (handleTerminate fuel) (fun _ => G) (Abandoned G) w := by
  unfold handleTerminate
  rw [wp_bind]
  refine wp_mono (hc.cleanup w hw) ?_ (fun _ _ h => h.abandoned)
  intro _ w₁ h₁
  have hstat := AllStats.stat (S := Keeps G) w₁ .disconnect h₁
  exact Binds.released (S := Keeps G) _ hstat

theorem dispatch_exits (hc : Cleans fuel pool a I J G) (m : Message) {w : World} (hw : J m w) :
    wp (dispatch fuel pool a m) (fun exit w' => exit.elim (I w') fun exit => exit.Leaves I G w')
      (Abandoned G) w := by
  have hdispatch : wp (dispatch fuel pool a m)
      (fun exit w' => if exit = some .finished then G w' else I w') (Abandoned G) w := by
    refine dispatch_rule (fun hm => handleTerminate_exits hc (hc.terminated m w hw hm)) fun hm => ?_
    exact wp_mono (wp_and (hc.dispatch m w hw hm) (dispatch_broken fuel pool a m w)) (fun _ _ h => h.1)
      (fun _ _ h => h.2.abandoned)
  refine wp_imp hdispatch ?_
  intro exit w' h
  cases exit with
  | none => exact h
  | some exit =>
    by_cases hexit : exit = .finished
    · subst hexit
      exact h
    · change exit.Leaves I G w'
      rw [Exit.leaves_of_ne hexit]
      simpa [hexit] using h

variable [Notes (Keeps I)] [Notes (Keeps G)] [Clients (Keeps G)]

theorem checkin_exits (hc : Cleans fuel pool a I J G) (exit : Exit) {w : World}
    (hw : exit.Leaves I G w) :
    wp (checkin fuel exit) (fun _ => G) (Abandoned G) (w.after (.left w.conn exit)) := by
  unfold checkin
  by_cases hexit : exit = .finished
  · subst hexit
    exact Notes.note (S := Keeps G) w _ rfl hw
  · rw [if_neg hexit, wp_bind]
    rw [Exit.leaves_of_ne hexit] at hw
    have hleft : I (w.after (.left w.conn exit)) := Notes.note (S := Keeps I) w _ rfl hw
    refine wp_mono (hc.cleanup _ hleft) ?_ (fun _ _ h => h.abandoned)
    -- What follows are two statistics, `connected_to_server` and the release; none of them fails.
    intro _ w₁ h₁
    have hrest : Runs (Keeps G) (do
        stat .serverIdle
        modifyClient fun c => { c with connectedToServer := false }
        release
        stat .idle) :=
      (count_runs rfl).seq fun _ => Runs.seq (modifyClient_runs fun _ => ⟨rfl, rfl, rfl⟩) fun _ =>
        release_runs.seq fun _ => stat_runs .idle
    exact keeps hrest h₁

theorem serveHeld_exits [AllStats (Keeps I)] (hc : Cleans fuel pool a I J G) {m : Message} {w : World}
    (hassign : wp (assign fuel a) (fun _ => J m) (fun _ _ => True) w) :
    wp (serveHeld fuel pool a m) (fun _ => G) (Abandoned G) w := by
  refine serveHeld_rule (Q := Exit.Leaves I G) (I := I) (J := J) ?_ ?_
    (fun idleTimeout w h => awaitInTransaction_exits hc idleTimeout h)
    (fun m w h => dispatch_exits hc m h) (fun _ _ _ => trivial) (fun _ _ => trivial)
    (fun exit w' h => checkin_exits hc exit h)
  · have hbroken : wp (assign fuel a) (fun _ _ => True) (Broken false) w := setName_broken fuel _ _
    exact wp_mono (wp_and hassign hbroken) (fun _ _ h => h.1) (fun _ _ h => h.2.abandoned)
  · intro w' h
    unfold idleTimeoutSetting
    rw [wp_bind]
    refine next_rule trivial ?_
    intro i rest
    split
    · exact hc.input m w' rest h
    · trivial

end Exits

/-! ## A clean connection -/

/-- As long as the run is undisturbed, the connection was cleaned up. -/
def Cleaned (w : World) : Prop :=
  Undisturbed w → CleanedUp w

theorem cleanedSince_plain {id : Nat} {e : Event} {t : List Event} (he : e.isPlain = true)
    (h : cleanedSince id t = true) : cleanedSince id (e :: t) = true := by
  cases e with
  | cleanedUp c => simp [cleanedSince, h]
  | sent c m reply fromClient => cases he
  | checkedOut c => cases he
  | _ => exact h

theorem CleanedUp.same {w : World} (hw : CleanedUp w) (htrace : w'.trace = w.trace)
    (hconn : w'.conn = w.conn) : CleanedUp w' := by
  refine ⟨?_, ?_, ?_⟩
  · rw [htrace, hconn]
    exact hw.since
  · rw [hconn]
    exact hw.inTransaction
  · rw [hconn]
    exact hw.needsCleanup

theorem Cleaned.step {w : World} {e : Event} (hw : Cleaned w) (htrace : w'.trace = e :: w.trace)
    (hconn : w'.conn = w.conn)
    (he : cleanedSince w.conn.id w.trace = true → cleanedSince w.conn.id (e :: w.trace) = true) :
    Cleaned w' := by
  intro hu
  have hclean := hw (hu.tail htrace).1
  refine ⟨?_, ?_, ?_⟩
  · rw [htrace, hconn]
    exact he hclean.since
  · rw [hconn]
    exact hclean.inTransaction
  · rw [hconn]
    exact hclean.needsCleanup

instance : Notes (Keeps Cleaned) where
  input _ _ hw hu := (hw hu).same rfl rfl
  note _ _ he hw := hw.step rfl rfl (cleanedSince_plain he)

instance : AllStats (Keeps Cleaned) where
  stat _ _ hw := hw.step rfl rfl id

instance : Clients (Keeps Cleaned) where
  client _ _ _ hw hu := (hw hu).same rfl rfl

instance : Binds (Keeps Cleaned) where
  claimed _ hw := hw.step rfl rfl id
  released _ hw := hw.step rfl rfl id

instance : Notes (Keeps fun _ => True) where
  input _ _ _ := trivial
  note _ _ _ _ := trivial

instance : AllStats (Keeps fun _ => True) where
  stat _ _ _ := trivial

theorem cleaned_cleans : Cleans fuel pool a (fun _ => True) (fun _ _ => True) Cleaned where
  input _ _ _ _ := trivial
  read _ _ _ := trivial
  terminated _ _ _ _ := trivial
  dispatch _ _ _ _ := wp_true
  cleanup w _ := checkinCleanup_cleans fuel w
  lost w hmem hu := by
    have hlost := hu _ hmem
    simp [Event.undisturbed] at hlost

theorem CleanedUp.dropClean {w : World} (h : CleanedUp w) (exit : Exit) :
    dropClean w.conn exit w.trace = true := by
  simp [Session.dropClean, h.since, h.inTransaction, h.needsCleanup]

end PgCat.Session
