import PgCat.Session.Rules

/-!
# Release — connections that go back when a transaction is over

Against a conforming backend, a connection the transaction loop gives back because the transaction is
over should be `Released`: the last message read is `ReadyForQuery` with status idle, the backend is
not copying, and nothing of a reply is unread.  The decision looks only at `in_transaction`, so that a
`COPY … FROM STDIN` outside a transaction is given back in the middle.

The invariant is `InStep`: what is unread ends with at most one `ReadyForQuery`, which then has the
backend's status, and every `CopyData` in it is announced.  It holds along every run in which all steps are
`Orderly`.
-/

namespace PgCat.Session

open Lib Protocol Router

/-! ## Statement -/

/-- A connection that may serve the next client. -/
structure Released (c : Conn) : Prop where
  lastRead : c.lastRead.bind Message.readyStatus = some .idle
  backend : c.backend = some .idle
  unread : AllAsync c.unread
  inTransaction : c.server.inTransaction = false

instance (c : Conn) : Decidable (Released c) :=
  decidable_of_iff (c.lastRead.bind Message.readyStatus = some .idle ∧ c.backend = some .idle ∧
      AllAsync c.unread ∧ c.server.inTransaction = false)
    ⟨fun h => ⟨h.1, h.2.1, h.2.2.1, h.2.2.2⟩, fun h => ⟨h.1, h.2, h.3, h.4⟩⟩

/-- The backend keeps to the protocol, and the pool hands out released connections. -/
def Event.conforming : Event → Bool
  | .sent c m reply _ => c.backend.isNone || (c.backend.bind fun b => b.react m reply).isSome
  | .checkedOut c => decide (Released c)
  | _ => true

/-- No `CopyInResponse` arrives outside a transaction and before any row, no `CopyDone` or `CopyFail` is
sent outside a transaction, and nothing but copy messages is sent behind an unread
`ReadyForQuery`. -/
def Event.orderly : Event → Bool
  | .received c m => m.backend != .copyInResponse || c.server.inTransaction || c.server.dataAvailable
  | .sent c m _ _ => (m.isCopy || decide (NoReady c.unread)) &&
      (m.frontend != .copyDone && m.frontend != .copyFail || c.server.inTransaction)
  | _ => true

def givenBack (trace : List Event) : List Conn :=
  trace.filterMap fun
    | .dropped c .transactionOver => some c
    | _ => none

def Fair (w : World) : Prop :=
  w.All fun e => e.conforming && e.orderly

/-! ## The invariant of a connection -/

structure InStep (c : Conn) : Prop where
  backend : ∃ b, c.backend = some b ∧ InSync b c.unread
  covered : Covered c.server.dataAvailable c.unread

/-- The reply has been read up to its `ReadyForQuery`. -/
structure Drained (c : Conn) (s : TxStatus) : Prop where
  lastRead : c.lastRead.bind Message.readyStatus = some s
  backend : c.backend = some ⟨.ready, some s⟩
  unread : AllAsync c.unread
  inTransaction : c.server.inTransaction = (s ≠ .idle : Bool)
  dataAvailable : c.server.dataAvailable = false

variable (fuel : Nat) (pool : ConnectionPool) (a : Address) {c : Conn} {m : Message} {p : Scope}
  {reply : List Message} {w w' : World}

theorem Drained.released {s : TxStatus} (h : Drained c s)
    (hc : c.server.inTransaction = false) : Released c := by
  have hs : s = .idle := by simpa [h.inTransaction] using hc
  subst hs
  exact ⟨h.lastRead, h.backend, h.unread, hc⟩

theorem Released.inStep (h : Released c) : InStep c :=
  ⟨⟨_, h.backend, .inl h.unread.noReady⟩, h.unread.covered _⟩

theorem InStep.push {b' : Backend} {b : Backend}
    (h : InStep c) (hb : c.backend = some b) (hreact : b.react m reply = some b')
    (horder : m.isCopy = true ∨ NoReady c.unread) : InStep (c.push m reply) := by
  rcases h.backend with ⟨b₀, hb₀, hsync⟩
  have heq : b₀ = b := Option.some.inj (hb₀.symm.trans hb)
  subst heq
  refine ⟨⟨b', by simp [Conn.push, hb₀, hreact], Backend.react_inSync hsync horder hreact⟩, ?_⟩
  exact Covered.append (Backend.react_covered hreact) h.covered

/-- The connection when `recv` returns, if it was in a transaction (`t`) when the call started. -/
def Answered (t : Bool) (c : Conn) : Prop :=
  (∃ s, Drained c s) ∨
    c.server.inTransaction = t ∧ (t = true ∨ c.server.dataAvailable = true)

theorem InStep.taken {c : Conn} {m : Message} {rest : List Message} (h : InStep c)
    (hu : c.unread = m :: rest) : InStep (c.taken m rest) := by
  rcases h.backend with ⟨b, hb, hsync⟩
  have hcov := h.covered
  rw [hu] at hsync hcov
  rcases hsync.read with ⟨hrest, hz⟩
  refine ⟨⟨b, hb, hrest⟩, ?_⟩
  rcases c.server.take_cases m with ⟨t, ht, _, _, hda, _⟩ | ⟨hnone, hk, _⟩ | ⟨_, hk, _, _, hda, _⟩
  · have hk : m.backend = .readyForQuery := Message.backend_of_readyStatus ht
    change Covered (c.server.take m).1.dataAvailable rest
    rw [hda]
    simpa [Covered, hk] using hcov
  · rcases hz hk with ⟨s, hs, _⟩
    rw [hs] at hnone
    cases hnone
  · change Covered (c.server.take m).1.dataAvailable rest
    rw [hda]
    exact (hcov.read hk).1

theorem InStep.taken_more {rest : List Message} (hafter : (c.server.take m).2 = .more) :
    (c.taken m rest).server.inTransaction = c.server.inTransaction := by
  rcases c.server.take_cases m with ⟨_, _, hd, _⟩ | ⟨_, _, hflag, _⟩ | ⟨_, _, hflag, _⟩
  · rw [hd] at hafter
    cases hafter
  · exact hflag
  · exact hflag

/-- Each reason `recv` has to return leaves the connection answered. -/
theorem InStep.taken_done {rest : List Message} (h : InStep c) (hu : c.unread = m :: rest)
    (horder : m.backend = .copyInResponse →
      c.server.inTransaction = true ∨ c.server.dataAvailable = true)
    (hafter : (c.server.take m).2 = .done) :
    Answered c.server.inTransaction (c.taken m rest) := by
  rcases h.backend with ⟨b, hb, hsync⟩
  have hcov := h.covered
  rw [hu] at hsync hcov
  rcases c.server.take_cases m with
    ⟨t, ht, _, hflag, hda, _⟩ | ⟨_, _, _, ⟨hp, _⟩ | ⟨e, he, _⟩⟩ | ⟨_, hk, hflag, _, hda, hmore | ⟨_, hwhy⟩⟩
  · rcases hsync.read.2 (Message.backend_of_readyStatus ht) with ⟨s, hs, rfl, hall⟩
    have hst : t = s := Option.some.inj (ht.symm.trans hs)
    subst hst
    exact .inl ⟨t, ht, hb, hall, hflag, hda⟩
  · rw [hp] at hafter
    cases hafter
  · rw [he] at hafter
    cases hafter
  · rw [hmore] at hafter
    cases hafter
  · refine .inr ⟨hflag, ?_⟩
    change _ ∨ (c.server.take m).1.dataAvailable = true
    rw [hda]
    rcases hwhy with hcopyIn | hcopyData | hrows
    · rcases horder hcopyIn with ht | ht
      · exact .inl ht
      · exact .inr (by simp [ht])
    · exact .inr (by simp [(hcov.read hk).2 hcopyData])
    · exact .inr (by simp [hrows])

/-! ## Moves keep connections in step -/

theorem sent_conforming {fromClient : Bool} {b : Backend} (hb : c.backend = some b)
    (h : (Event.sent c m reply fromClient).conforming = true) : ∃ b', b.react m reply = some b' := by
  simpa [Event.conforming, hb, Option.isSome_iff_exists] using h

theorem sent_orderly {fromClient : Bool} (h : (Event.sent c m reply fromClient).orderly = true) :
    (m.isCopy = true ∨ NoReady c.unread) ∧
      (m.frontend = .copyDone ∨ m.frontend = .copyFail → c.server.inTransaction = true) := by
  simp only [Event.orderly, Bool.and_eq_true, Bool.or_eq_true, decide_eq_true_eq, bne_iff_ne] at h
  refine ⟨h.1, fun hk => ?_⟩
  rcases h.2 with ⟨hdone, hfail⟩ | hopen
  · rcases hk with hk | hk
    · exact absurd hk hdone
    · exact absurd hk hfail
  · exact hopen

theorem received_orderly (h : (Event.received c m).orderly = true) : m.backend = .copyInResponse →
      c.server.inTransaction = true ∨ c.server.dataAvailable = true := by
  intro hk
  simpa [Event.orderly, hk] using h

theorem Fair.tail {e : Event} (h : Fair w') (htrace : w'.trace = e :: w.trace) :
    Fair w ∧ e.conforming = true ∧ e.orderly = true := by
  rcases World.All.tail h htrace with ⟨hw, he⟩
  exact ⟨hw, by simpa using he⟩

/-- While every step so far was fair, the connection is in step. -/
def Steady (w : World) : Prop :=
  Fair w → InStep w.conn

theorem Still.steady (h : Still w w') (hw : Steady w) : Steady w' := by
  cases h with
  | input rest => exact hw
  | note e _ => exact fun hf => hw (hf.tail rfl).1
  | client c _ => exact hw

theorem Move.steady (h : Move p w w') (hw : Steady w) : Steady w' := by
  cases h with
  | still h => exact h.steady hw
  | server s hs =>
    intro hf
    have hin := hw hf
    exact ⟨hin.backend, by simpa [hs.dataAvailable] using hin.covered⟩
  | message m _ | claimed | released => exact fun hf => hw (hf.tail rfl).1
  | sent m reply fromClient _ =>
    intro hf
    rcases hf.tail rfl with ⟨hfair, hconf, horder⟩
    have hin := hw hfair
    rcases hin.backend with ⟨b, hb, _⟩
    rcases sent_conforming hb hconf with ⟨b', hreact⟩
    exact hin.push hb hreact (sent_orderly horder).1
  | received m rest hu => exact fun hf => (hw (hf.tail rfl).1).taken hu

/-! ## Receiving a reply -/

/-- The connection is in step, its backend is `β`, and it is in a transaction iff `t`. -/
structure Asked (β : Option Backend) (t : Bool) (w : World) : Prop where
  steady : Steady w
  backend : w.conn.backend = β
  inTransaction : Fair w → w.conn.server.inTransaction = t

def Receives {α : Type} (m : Program α) : Prop :=
  ∀ β t w, Asked β t w →
    wp m (fun _ w' => Steady w' ∧ w'.conn.backend = β ∧ (Fair w' → Answered t w'.conn))
      (fun _ _ => True) w

theorem Answered.flushed {t : Bool} (h : Answered t w.conn) : Answered t w.flushed.conn := by
  rcases h with ⟨s, h⟩ | h
  · exact .inl ⟨s, h.lastRead, h.backend, h.unread, h.inTransaction, h.dataAvailable⟩
  · exact .inr h

theorem recv_receives (timed : Bool) : Receives (recv fuel timed) := by
  intro β t
  refine recv_rule ?_ ?_ ?_ ?_ ?_ ?_ ?_
  · intro w script m rest hw hu hafter
    refine ⟨fun hf => (hw.steady (hf.tail rfl).1).taken hu, hw.backend, fun hf => ?_⟩
    exact (InStep.taken_more hafter).trans (hw.inTransaction (hf.tail rfl).1)
  · intro w script m rest hw hu hafter
    refine ⟨fun hf => ?_, hw.backend, fun hf => ?_⟩
    · have hin := (hw.steady (hf.tail rfl).1).taken hu
      exact ⟨hin.backend, hin.covered⟩
    · rcases hf.tail rfl with ⟨hfair, _, horder⟩
      have hans := (hw.steady hfair).taken_done hu (received_orderly horder) hafter
      rw [hw.inTransaction hfair] at hans
      exact Answered.flushed (w := w.read script m rest) hans
  all_goals intros; trivial

theorem writeReply_quiet (ms : List Message) (w : World) :
    wp (writeReply ms) (fun _ => Quiet w) (fun _ _ => True) w :=
  onError_rule (quiet (writeClient_runs _) w) (fun _ _ _ => wp_true) (fun _ _ _ _ => trivial)

theorem forwardReply_receives : Receives (forwardReply fuel pool a) := by
  intro β t w hw
  unfold forwardReply receiveServerMessage
  rw [wp_bind, wp_tryCatch]
  refine wp_mono (recv_receives fuel _ β t w hw) ?_ ?_
  · intro ms w₁ h₁
    refine wp_imp (writeReply_quiet ms w₁) ?_
    intro _ w₂ hq
    refine ⟨fun hf => ?_, ?_, fun hf => ?_⟩
    · rw [hq.conn]
      exact h₁.1 (hq.all hf)
    · rw [hq.conn]
      exact h₁.2.1
    · rw [hq.conn]
      exact h₁.2.2 (hq.all hf)
  · intro stop w₁ _
    exact wp_imp (receiveFailed_returns a stop w₁) (fun _ _ h => h.elim)

/-- After the loop over the parts of a reply the connection is drained, unless it stays in its
transaction. -/
structure Settled (β : Option Backend) (t : Bool) (w : World) : Prop where
  steady : Steady w
  backend : w.conn.backend = β
  drained : Fair w → (∃ s, Drained w.conn s) ∨ w.conn.server.inTransaction = true ∧ t = true

theorem loop_settled {α : Type} {m : Program α} (hm : Receives m) (fuel : Nat)
    (β : Option Backend) (t : Bool) : ∀ w, Asked β t w →
    wp (repeatUntil .pending fuel
        (fun _ => do let _ ← m; if ← isDataAvailable then pure (.inl ()) else pure (.inr ())) ())
      (fun _ => Settled β t) (fun _ _ => True) w := by
  refine wp_repeatUntil (fun _ => Asked β t) ?_ (fun _ _ _ => trivial) fuel ()
  intro _ w hw
  refine wp_seq (hm β t w hw) ?_
  intro _ w' h
  change wp (if w'.conn.server.dataAvailable = true then _ else _) _ _ w'
  split
  · rename_i hda
    refine ⟨h.1, h.2.1, fun hf => ?_⟩
    rcases h.2.2 hf with ⟨s, hd⟩ | ⟨hflag, _⟩
    · rw [hd.dataAvailable] at hda
      cases hda
    · exact hflag
  · rename_i hda
    refine ⟨h.1, h.2.1, fun hf => ?_⟩
    rcases h.2.2 hf with hd | ⟨hflag, ht | hda'⟩
    · exact .inl hd
    · exact .inr ⟨hflag.trans ht, ht⟩
    · exact absurd hda' hda

/-! ## The transaction loop -/

/-- The last exchange is over: the connection is drained or in a transaction. -/
def Exchanged (w : World) : Prop :=
  Fair w → (∃ s, Drained w.conn s) ∨ w.conn.server.inTransaction = true

theorem Quiet.exchanged (h : Quiet w w') (hw : Exchanged w) : Exchanged w' := by
  intro hf
  rw [h.conn]
  exact hw (h.all hf)

theorem sendAndReceiveLoop_exchanged (ms : List Message) (w : World) (hw : Steady w) :
    wp (sendAndReceiveLoop fuel pool a ms) (fun _ => Exchanged) (fun _ _ => True) w := by
  unfold sendAndReceiveLoop
  rw [wp_bind]
  have hsteady := (sendServerMessage_runs (S := Move ⟨true, false⟩) a ms).preserves (fun _ _ => Move.steady) w hw
  refine wp_weaken (wp_and (sendServerMessage_delivered a ms w) hsteady) ?_
  intro _ w₁ h₁
  rw [wp_bind]
  have hasked : Asked w₁.conn.backend w₁.conn.server.inTransaction w₁ :=
    ⟨h₁.2, rfl, fun _ => rfl⟩
  refine wp_imp (loop_settled (forwardReply_receives fuel pool a) fuel _ _ w₁ hasked) ?_
  intro _ w₂ h₂
  have hstats : Runs Still (do stat .query; stat .serverQuery) :=
    (stat_runs _).seq fun _ => stat_runs _
  refine wp_weaken (quiet hstats w₂) (fun _ w₃ hq => hq.exchanged ?_)
  exact fun hf => (h₂.drained hf).imp id And.left

/-- A message is released only after an exchange that left the transaction. -/
def Releases (exit : Option Exit) (w : World) : Prop :=
  exit = some .transactionOver → Fair w → Released w.conn

theorem leaveIfOver_releases (isQuery : Bool) (w : World) (hw : Exchanged w) :
    wp (leaveIfOver isQuery) Releases (fun _ _ => True) w := by
  refine leaveIfOver_rule ?_
  rintro exit w' hq (rfl | ⟨rfl, hclosed⟩) hexit hf
  · cases hexit
  · rw [← hq.conn] at hclosed
    rcases hq.exchanged hw hf with ⟨s, hd⟩ | hopen
    · exact hd.released hclosed
    · rw [hclosed] at hopen
      cases hopen

theorem after_steady {α β : Type} {m : Program β} {f : β → Program α}
    {Q : α → World → Prop} (hm : Runs (Move p) m) (hw : Steady w)
    (hf : ∀ x w', Steady w' → wp (f x) Q (fun _ _ => True) w') :
    wp (m >>= f) Q (fun _ _ => True) w := by
  exact wp_then (hm.preserves (fun _ _ => Move.steady) w hw) (fun x w' h => hf x w' h)

theorem handleSync_releases (m : Message) (w : World) (hw : Steady w) :
    wp (handleSync fuel pool a m) Releases (fun _ _ => True) w := by
  refine after_steady (p := ⟨true, true⟩) (bufferMessage_runs m) hw fun _ w₁ h₁ => ?_
  refine after_steady (p := ⟨true, true⟩) clientBuffer_runs h₁ fun buffer w₂ h₂ => ?_
  refine after_steady (p := ⟨true, true⟩) (runIf_runs _ markDirty_runs) h₂ fun _ w₃ h₃ => ?_
  refine wp_seq (sendAndReceiveLoop_exchanged fuel pool a buffer w₃ h₃) ?_
  intro _ w₄ h₄
  refine wp_then (quiet clearBuffer_runs w₄) ?_
  intro _ w₅ hq
  exact leaveIfOver_releases false w₅ (hq.exchanged h₄)

/-- `CopyDone` and `CopyFail` are sent in a transaction, so one part of the reply is enough. -/
theorem handleCopyEnd_releases (m : Message)
    (hm : m.frontend = .copyDone ∨ m.frontend = .copyFail) (w : World) (hw : Steady w) :
    wp (handleCopyEnd fuel pool a m) Releases (fun _ _ => True) w := by
  let w₀ := w.buffered m
  let buffer := w.client.buffer ++ [m]
  have hsteady := (sendServerMessage_runs (S := Move ⟨true, false⟩) a buffer).preserves (fun _ _ => Move.steady) w₀ hw
  change wp (sendServerMessage a buffer >>= _) _ _ w₀
  refine wp_then (wp_and (sendServerMessage_delivered a buffer w₀) hsteady) ?_
  intro _ w₁ h₁
  refine wp_then (quiet clearBuffer_runs w₁) ?_
  intro _ w₂ hq
  have hopen : Fair w₂ → w₂.conn.server.inTransaction = true := by
    intro hf
    rcases h₁.1.sent m (by simp [buffer]) with ⟨c, reply, hmem, hc⟩
    have hfair := hq.all hf _ hmem
    have horder := (sent_orderly (Bool.and_eq_true_iff.mp hfair).2).2 hm
    rw [hq.conn, h₁.1.server, ← hc]
    exact horder
  have hasked : Asked w₂.conn.backend true w₂ := by
    refine ⟨fun hf => ?_, rfl, hopen⟩
    rw [hq.conn]
    exact h₁.2 (hq.all hf)
  refine wp_seq (forwardReply_receives fuel pool a _ true w₂ hasked) ?_
  intro _ w₃ h₃
  refine leaveIfOver_releases false w₃ fun hf => ?_
  exact (h₃.2.2 hf).imp id And.left

theorem dispatch_releases (m : Message) (w : World) (hw : Steady w) :
    wp (dispatch fuel pool a m) Releases (fun _ _ => True) w := by
  have hother : ∀ {n : Program (Option Exit)} {exit : Option Exit},
      Returns (fun exit' _ => exit' = exit) n → exit ≠ some .transactionOver →
      wp n Releases (fun _ _ => True) w := by
    intro n exit hn hexit
    refine wp_imp (hn w) ?_
    intro exit' w' heq h
    exact absurd (heq.symm.trans h) hexit
  unfold dispatch
  cases hk : m.frontend with
  | query =>
    dsimp only
    refine wp_seq (sendAndReceiveLoop_exchanged fuel pool a [m] w hw) ?_
    exact fun _ w' h => leaveIfOver_releases true w' h
  | sync => exact handleSync_releases fuel pool a m w hw
  | copyDone => exact handleCopyEnd_releases fuel pool a m (.inl hk) w hw
  | copyFail => exact handleCopyEnd_releases fuel pool a m (.inr hk) w hw
  | terminate =>
    exact hother (.seq fun _ => .seq fun _ => .seq fun _ => .ofPure fun _ => rfl) (by simp)
  | copyData => exact hother (.seq fun _ => .seq fun _ => .seq fun _ => .ofPure fun _ => rfl) (by simp)
  | other => exact hother (.ofPure fun _ => rfl) (by simp)
  | _ => exact hother (.seq fun _ => .ofPure fun _ => rfl) (by simp)

/-! ## Giving the connection back -/

/-- While every step so far was fair, the connection may serve the next client. -/
def Returnable (w : World) : Prop :=
  Fair w → Released w.conn

theorem Quiet.returnable (h : Quiet w w') (hw : Returnable w) : Returnable w' := by
  intro hf
  rw [h.conn]
  exact hw (h.all hf)

theorem discardAll_returnable (w : World) (hw : Released w.conn) :
    wp (discardAll fuel) (fun _ => Returnable) (fun _ _ => True) w := by
  unfold discardAll query
  rw [wp_bind, wp_bind]
  have hruns : Runs (Move ⟨false, false⟩) (send false false [simpleQuery "DISCARD ALL"]) :=
    send_runs _ _ _
  have hsteady := hruns.preserves (fun _ _ => Move.steady) w (fun _ => hw.inStep)
  refine wp_weaken (wp_and (send_one false false (simpleQuery "DISCARD ALL") w) hsteady) ?_
  rintro _ w₁ ⟨⟨script, reply, rfl⟩, hsteady₁⟩
  let β : Option Backend := Backend.idle.react (simpleQuery "DISCARD ALL") reply
  have hasked : Asked β false _ := ⟨hsteady₁, by simp [β, Conn.push, hw.backend], fun _ => hw.inTransaction⟩
  refine wp_imp (loop_settled (recv_receives fuel false) fuel β false _ hasked) ?_
  intro _ w₂ h₂ hf
  rcases h₂.drained (hf.tail (w := w₂) rfl).1 with ⟨s, hd⟩ | ⟨_, hfalse⟩
  · have hreact : Backend.idle.react (simpleQuery "DISCARD ALL") reply = some ⟨.ready, some s⟩ :=
      h₂.backend.symm.trans hd.backend
    have hs : s = .idle := Backend.react_discard rfl hreact rfl
    subst hs
    exact ⟨hd.lastRead, hd.backend, hd.unread, hd.inTransaction⟩
  · cases hfalse

theorem checkinCleanup_returnable (w : World) (hw : Returnable w) :
    wp (checkinCleanup fuel) (fun _ => Returnable) (fun _ _ => True) w := by
  by_cases hf : Fair w
  · have hrel := hw hf
    have hskip : ∀ m, runIf (w.conn.server.inTransaction = true) m = pure () := by
      simp [runIf, hrel.inTransaction]
    refine checkinCleanup_rule (P := (w = ·)) fuel ?_ ?_
    · rw [hskip]
      rfl
    · rintro w₁ rfl
      have hdiscard : wp (runIf (w.conn.server.needsCleanup = true) (discardAll fuel))
          (fun _ => Returnable) (fun _ _ => True) w := by
        unfold runIf
        rw [wp_ite]
        exact ⟨fun _ => discardAll_returnable fuel w hrel, fun _ => hw⟩
      refine wp_imp hdiscard fun _ w₁ h₁ => ?_
      have hquiet : wp (emitConn .cleanedUp) (fun _ => Returnable) (fun _ _ => True) w₁ :=
        wp_weaken (quiet (emitConn_runs fun _ => rfl) w₁) (fun _ _ hq => hq.returnable h₁)
      exact hquiet
  · -- The run has already left the fair ones.
    exact wp_weaken (missed (checkinCleanup_runs (S := Move ⟨false, false⟩) fuel) hf)
      (fun _ _ hn hf' => absurd hf' hn)

theorem checkin_returnable (exit : Exit) (w : World) (hw : Releases (some exit) w) : wp (checkin fuel exit)
      (fun _ => Releases (some exit)) (fun _ _ => True) w := by
  by_cases hexit : exit = .transactionOver
  · subst hexit
    have hret : Returnable w := hw rfl
    unfold checkin
    rw [if_neg (by simp)]
    refine wp_seq (checkinCleanup_returnable fuel w hret) ?_
    -- Two statistics, `connected_to_server` and the release leave the connection alone.
    intro _ w₁ h₁ _ hf
    exact h₁ fun e he => hf e (by simp [he])
  · exact wp_imp wp_true (fun _ _ _ h => absurd (Option.some.inj h) hexit)

theorem serveHeld_releases (m : Message) (w : World) (hw : Steady w) :
    wp (serveHeld fuel pool a m) (fun exit => Releases (some exit)) (fun _ _ => True) w := by
  have hkeeps : ∀ {α : Type} {m : Program α}, Runs (Move ⟨true, true⟩) m → ∀ w, Steady w →
      wp m (fun _ => Steady) (fun _ _ => True) w := fun hm w hw =>
    wp_weaken (hm.preserves (fun _ _ => Move.steady) w hw) (fun _ _ h => h)
  refine serveHeld_served_rule (R := fun exit w => Steady w ∧ Releases exit w) ?_ ?_ ?_
    (fun _ h => ⟨h.1, nofun⟩) ?_ (fun _ _ => trivial) ?_
  · exact wp_imp (hkeeps (assign_runs fuel a) w hw) (fun _ _ h => ⟨h, nofun⟩)
  · exact fun w h => wp_mono (hkeeps idleTimeoutSetting_runs w h.1) (fun _ _ h => ⟨h, nofun⟩) (fun _ _ h => h)
  · exact fun idleTimeout w h => wp_mono (hkeeps (awaitInTransaction_runs fuel idleTimeout) w h.1)
      (fun _ _ h => ⟨h, nofun⟩) (fun _ _ h => h)
  · intro m w h
    have hsteady := hkeeps (dispatch_runs fuel pool a m fun _ => handleTerminate_runs _) w h.1
    exact wp_weaken (wp_and hsteady (dispatch_releases fuel pool a m w h.1)) (fun _ _ h => h)
  · intro exit w' h
    have hleft : Quiet w' (w'.after (.left w'.conn exit)) :=
      ⟨rfl, ⟨rfl, rfl, rfl⟩, [.left w'.conn exit], rfl, by simp [Event.isNote]⟩
    exact checkin_returnable fuel exit _ fun he => hleft.returnable (h.2 he)

/-! ## Whole sessions -/

/-- Connections given back so far, as long as the run is fair. -/
def GaveBack (w : World) : Prop :=
  Fair w → ∀ c ∈ givenBack w.trace, c.server.bad = true ∨ Released c

theorem GaveBack.step {e : Event} (hw : GaveBack w) (h : w'.trace = e :: w.trace)
    (he : givenBack [e] = []) : GaveBack w' := by
  intro hf c hc
  have hsplit : givenBack (e :: w.trace) = givenBack [e] ++ givenBack w.trace :=
    List.filterMap_append (l := [e])
  rw [h, hsplit, he] at hc
  exact hw (hf.tail h).1 c hc

theorem Still.gaveBack (h : Still w w') (hw : GaveBack w) : GaveBack w' := by
  cases h with
  | input rest => exact hw
  | note e he =>
    refine hw.step rfl ?_
    cases e with
    | dropped c exit => cases he
    | _ => rfl
  | client c _ => exact hw

theorem Move.gaveBack (h : Move p w w') (hw : GaveBack w) : GaveBack w' := by
  cases h with
  | still h => exact h.gaveBack hw
  | server s _ => exact hw
  | _ => exact hw.step rfl rfl

theorem Pooling.gaveBack (h : Pooling w w') (hw : Steady w ∧ GaveBack w) : Steady w' ∧ GaveBack w' := by
  cases h with
  | move h => exact ⟨h.steady hw.1, h.gaveBack hw.2⟩
  | checkedOut c _ =>
    refine ⟨fun hf => ?_, hw.2.step rfl rfl⟩
    have hrel : Released c := by simpa [Event.conforming] using (hf.tail rfl).2.1
    exact hrel.inStep
  | dropped exit h =>
    refine ⟨fun hf => hw.1 (hf.tail rfl).1, hw.2.step rfl ?_⟩
    rcases h with ⟨rfl, _⟩ | rfl
    · rfl
    · rfl

theorem Route.gaveBack (h : Route w w') (hw : Steady w ∧ GaveBack w) : Steady w' ∧ GaveBack w' := by
  cases h with
  | pooling h => exact h.gaveBack hw
  | message m => exact ⟨fun hf => hw.1 (hf.tail rfl).1, hw.2.step rfl rfl⟩
  | router r => exact hw
  | routing e he =>
    refine ⟨fun hf => hw.1 (hf.tail rfl).1, hw.2.step rfl ?_⟩
    cases e with
    | dropped c exit => cases he
    | _ => rfl

theorem serve_gaveBack (m : Message) (w : World) (hw : Steady w ∧ GaveBack w) :
    wp (serve fuel pool a m)
      (fun fin w' => if fin then GaveBack w' else Steady w' ∧ GaveBack w') (fun _ => GaveBack) w := by
  have hkept := (serveHeld_runs (S := Move ⟨true, true⟩) fuel pool a m).preserves (I := fun w => Steady w ∧ GaveBack w)
    (fun _ _ h hI => ⟨h.steady hI.1, h.gaveBack hI.2⟩) w hw
  refine serve_rule (wp_and hkept (serveHeld_releases fuel pool a m w hw.1)) ?_ ?_ ?_ ?_ ?_
  · rintro exit w' ⟨⟨hsteady, hgave⟩, hrel⟩ _
    refine ⟨fun hf => hsteady (hf.tail rfl).1, ?_⟩
    cases exit with
    | transactionOver =>
      intro hf c hc
      have hfair : Fair w' := (hf.tail rfl).1
      rcases List.mem_cons.mp hc with rfl | hc
      · exact .inr (hrel rfl hfair)
      · exact hgave hfair c hc
    | _ => exact hgave.step rfl rfl
  · exact fun w' h => h.1.2.step rfl rfl
  · exact fun w' h => h.1.2
  · exact fun w' h => h.1.2.step rfl rfl
  · exact fun stop w' h _ _ => h.1.2.step rfl rfl

/-- In every session whose backend conforms and whose steps are all orderly, each connection given back
because the transaction was over is bad or released. -/
theorem transactionOver_released (fuel : Nat) (ext : Externals) (client : Client)
    (map : ClientServerMap) (script : List Input)
    (hconf : ∀ e ∈ (final (handle fuel ext) (.start client map script)).trace,
      e.conforming = true)
    (horder : ∀ e ∈ (final (handle fuel ext) (.start client map script)).trace,
      e.orderly = true) :
    ∀ c ∈ givenBack (final (handle fuel ext) (.start client map script)).trace,
      c.server.bad = true ∨ Released c := by
  have hstart : Steady (.start client map script) ∧ GaveBack (.start client map script) := by
    refine ⟨fun _ => ?_, fun _ c hc => ?_⟩
    · exact ⟨⟨_, rfl, .inl (by simp [World.start, NoReady])⟩, trivial⟩
    · cases hc
  have hrun := handle_invariant fuel ext (fun _ _ => Route.gaveBack) (fun _ h => h.2)
    (serve_gaveBack fuel) _ hstart
  exact final_of_wp hrun fun e he => by simp [hconf e he, horder e he]

def selectScript : List Input :=
  Sample.checkout (simpleQuery "SELECT 1") (Sample.conn 1) ++
    Sample.exchange [Sample.complete "SELECT 0", Sample.ready 'I']

theorem select_released : (givenBack (Sample.run selectScript).trace).length = 1 ∧
    ∀ c ∈ givenBack (Sample.run selectScript).trace, c.server.bad = true ∨ Released c := by
  refine ⟨by decide +kernel, ?_⟩
  exact transactionOver_released 4 Sample.externals Sample.client (fun _ => none) selectScript
    (by decide +kernel) (by decide +kernel)

def copyInScript : List Input :=
  Sample.checkout (simpleQuery "COPY t FROM STDIN") (Sample.conn 1) ++
    Sample.exchange [.ofChar 'G' [0, 0, 0]]

/-- The connection goes back while the backend waits for copy data. -/
theorem copyIn_given_back :
    (∀ e ∈ (Sample.run copyInScript).trace, e.conforming = true) ∧
    (givenBack (Sample.run copyInScript).trace).map (fun c => (c.server.bad, c.backend, c.lastRead)) =
      [(false, some ⟨.copyIn true, none⟩, some (.ofChar 'G' [0, 0, 0]))] := by
  decide +kernel

end PgCat.Session
