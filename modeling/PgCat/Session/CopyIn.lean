import PgCat.Session.Order
import PgCat.Session.Reply

/-!
# CopyIn — data a client sends to the server

A `COPY … FROM STDIN` takes two steps.  The server answers the query with `CopyInResponse`, and
`send_and_receive_loop` should then return so that the client is listened to again.  Whether it does depends
on `data_available`, which rows and `CopyOutResponse` of the statements before it have set and only
`ReadyForQuery` clears.

Then the client sends `CopyData` up to `CopyDone` or `CopyFail`.  The transaction loop collects them in
`Client.buffer` and sends the buffer on when it is over a limit.  `Copying` is an environment in which
nothing fails; wherever the limit falls, what is sent is what has come in.
-/

namespace PgCat.Session

open Lib Protocol

/-! ## The reply that asks for the data -/

/-- Messages a server may send in front of its first `CopyInResponse`: none of them ends the reply, and
`CopyData` follow a `CopyOutResponse`. -/
def precedesCopyIn (copyOut : Bool) : List Message → Bool
  | [] => true
  | m :: ms =>
    match m.backend with
    | .readyForQuery | .copyInResponse => false
    | .copyOutResponse => precedesCopyIn true ms
    | .copyData => copyOut && precedesCopyIn copyOut ms
    | _ => precedesCopyIn copyOut ms

theorem replyStatus_of_precedes {z : Message} {t : TxStatus} (hz : z.readyStatus = some t) :
    ∀ (ms : List Message) (copyOut : Bool), precedesCopyIn copyOut ms = true →
      replyStatus copyOut (ms ++ [z]) = some t := by
  intro ms
  induction ms with
  | nil =>
    intro copyOut _
    rw [List.nil_append, replyStatus, Message.backend_of_readyStatus hz]
    exact hz
  | cons m ms ih =>
    intro copyOut h
    rw [List.cons_append, replyStatus]
    unfold precedesCopyIn at h
    cases hk : m.backend with
    | readyForQuery | copyInResponse => simp [hk] at h
    | copyData =>
      simp only [hk, Bool.and_eq_true] at h
      dsimp only
      rw [if_pos h.1]
      exact ih copyOut h.2
    | copyOutResponse =>
      rw [hk] at h
      exact ih true h
    | _ =>
      rw [hk] at h
      exact ih copyOut h

section Asking

variable {copyOut : Bool} {m z g : Message} {ms : List Message} {t : TxStatus}

/-- What one of these messages does: `recv` reads on, or it returns and `data_available` makes the loop go
on.  The flag is set by rows and by `CopyOutResponse`, and nothing clears it. -/
theorem take_before (s : Server) (h : replyStatus copyOut (m :: (ms ++ [z])) = some t)
    (hout : copyOut = true → s.dataAvailable = true) :
    (s.take m).1.buffer = s.buffer ++ [m] ∧
      (s.take m).1.dataAvailable = (s.dataAvailable || m.announces) ∧
      ∃ out, replyStatus out (ms ++ [z]) = some t ∧ (out = true → (s.take m).1.dataAvailable = true) ∧
        ((s.take m).2 = .more ∨ (s.take m).2 = .done ∧ (s.take m).1.dataAvailable = true) := by
  obtain ⟨hbuffer, hcase⟩ := take_reply s h hout
  have hnil : ms ++ [z] ≠ [] := by simp
  have hready : m.backend ≠ .readyForQuery := by
    intro hk
    simp [replyStatus, hk] at h
  refine ⟨hbuffer, ?_, hcase.resolve_left fun hend => hnil hend.1⟩
  rcases s.take_cases m with ⟨t', ht, -⟩ | ⟨-, hk, -⟩ | ⟨-, -, -, -, hdata, -⟩
  · exact absurd (Message.backend_of_readyStatus ht) hready
  · exact absurd hk hready
  · exact hdata

theorem take_copyIn (s : Server) (hg : g.backend = .copyInResponse) :
    s.take g = ({ s with buffer := s.buffer ++ [g] }, .done) := by
  simp [Server.take, hg]

variable {fuel : Nat} {pool : ConnectionPool} {a : Address} {trace : List Event}
  {reply beyond : List Message} {rest : List Input}

/-- The reply was handed on up to its `CopyInResponse` and nothing behind it was read. -/
structure HandedOver (trace : List Event) (reply beyond : List Message) (rest : List Input) (w : World) :
    Prop where
  unread : w.conn.unread = beyond
  script : w.script = rest
  buffer : w.conn.server.buffer = []
  chunks : ∃ chunks : List (List Message),
    written w.trace = written trace ++ chunks.map .forwarded ∧ chunks.flatten = reply

/-- Was the flag `data_available` set before `ms` or by one of them? -/
def Server.expects (s : Server) (ms : List Message) : Bool :=
  s.dataAvailable || ms.any Message.announces

theorem Forwarding.copyIn {w : World} (hw : Forwarding trace reply beyond rest copyOut [g] w)
    (hg : g.backend = .copyInResponse) : HandedOver trace reply beyond rest (w.handedOn g beyond rest) := by
  have htake := take_copyIn w.conn.server hg
  obtain ⟨chunks, hwritten, hreply⟩ : ∃ chunks : List (List Message),
      written (w.handedOn g beyond rest).trace = written trace ++ chunks.map .forwarded ∧
        chunks.flatten ++ [] = reply := hw.chunks_handedOn (by rw [htake])
  refine ⟨rfl, rfl, rfl, chunks, hwritten, ?_⟩
  simpa using hreply

theorem wp_recv_copyIn (hg : g.backend = .copyInResponse) {Q : Unit → World → Prop} {E : Stop → World → Prop}
    {available : Bool}
    (hend : ∀ n w, HandedOver trace reply beyond rest w →
      wp (if available = true then repeatUntil .pending n (fun _ => receiveTurn fuel pool a) () else pure ()) Q E w) :
    ∀ (ms : List Message) (copyOut : Bool) (k n : Nat) (w : World) (timed : Bool),
      replyStatus copyOut (ms ++ [z]) = some t → w.conn.server.expects ms = available →
      ms.length < fuel → ms.length < k → ms.length ≤ n →
      Forwarding trace reply beyond rest copyOut (ms ++ [g]) w →
        wp (recv k timed) (fun response => wp (handOn fuel n pool a response) Q E) (fun _ _ => False) w := by
  intro ms
  induction ms with
  | nil =>
    intro copyOut k n w timed _ hexpects _ hk _ hw
    obtain ⟨k, rfl⟩ := Nat.exists_eq_add_of_lt hk
    have htake := take_copyIn w.conn.server hg
    have hdone : (w.conn.server.take g).2 = .done := by rw [htake]
    refine wp_recv_done (hw.script_done hdone) hw.unread hdone (wp_handOn ?_)
    have havailable : (w.conn.server.take g).1.dataAvailable = available := by
      rw [htake, ← hexpects]
      simp [Server.expects]
    rw [havailable]
    exact hend n _ (hw.copyIn hg)
  | cons m ms ih =>
    intro copyOut k n w timed hstatus hexpects hfuel hk hn hw
    simp only [List.length_cons] at hfuel hk hn
    obtain ⟨k, rfl⟩ := Nat.exists_eq_add_of_lt (Nat.lt_of_le_of_lt (Nat.zero_le _) hk)
    obtain ⟨hbuffer, hdata, out, hrest, hout, hcase⟩ := take_before w.conn.server hstatus hw.announced
    have hexpects' : (w.conn.server.take m).1.expects ms = available := by
      rw [← hexpects, Server.expects, Server.expects, hdata, List.any_cons, Bool.or_assoc]
    rcases hcase with htake | ⟨htake, hset⟩
    · refine wp_recv_more (hw.script_more htake) hw.unread htake ?_
      exact ih out _ _ _ timed hrest hexpects' (by omega) (by omega) (by omega) (hw.more hbuffer hout)
    · -- A full buffer or `CopyOutResponse`: the loop turns once more.
      refine wp_recv_done (hw.script_done htake) hw.unread htake (wp_handOn ?_)
      rw [hset, if_pos rfl]
      obtain ⟨n, rfl⟩ : ∃ n', n = n' + 1 := ⟨n - 1, by omega⟩
      rw [wp_receive_loop, receiveServerMessage, wp_tryCatch]
      refine wp_mono (ih out fuel n _ _ hrest hexpects' (by omega) (by omega) (by omega) (hw.next hbuffer hout))
        (fun _ _ h => h) (fun _ _ h => h.elim)

/-! Once it goes on it cannot return without reading another message. -/

/-- Nothing was added to what is unread. -/
def Drains (w w' : World) : Prop :=
  w'.conn.unread.length ≤ w.conn.unread.length

instance : Notes Drains where
  input _ _ := Nat.le_refl _
  note _ _ _ := Nat.le_refl _

instance : Listens Drains where
  received w m rest h := by
    change rest.length ≤ w.conn.unread.length
    rw [h]
    exact Nat.le_succ _
  bad _ := Nat.le_refl _
  flushed _ := Nat.le_refl _

theorem wp_drains {α : Type} {p : Program α} (hp : Runs Drains p) {n : Nat} {w : World}
    (hw : w.conn.unread.length < n) :
    wp p (fun _ w' => w'.conn.unread.length < n) (fun _ _ => True) w := by
  refine wp_weaken (hp.preserves (I := fun w' => w'.conn.unread.length < n) ?_ w hw) (fun _ _ h => h)
  exact fun _ _ hdrains h => Nat.lt_of_le_of_lt hdrains h

theorem recv_drains (k : Nat) (timed : Bool) (w : World) :
    wp (recv k timed) (fun _ w' => w'.conn.unread.length < w.conn.unread.length) (fun _ _ => True) w := by
  refine recv_rule (I := fun w' => w'.conn.unread.length ≤ w.conn.unread.length) ?_ ?_
    (fun _ _ _ _ _ _ _ _ => trivial) (fun _ _ _ _ _ _ _ => trivial) (fun _ _ _ => trivial)
    (fun _ _ _ => trivial) (fun _ _ _ _ => trivial) w (Nat.le_refl _)
  · intro w' script m rest hle hunread _
    rw [hunread, List.length_cons] at hle
    exact Nat.le_of_succ_le hle
  · intro w' script m rest hle hunread _
    rw [hunread, List.length_cons] at hle
    exact hle

theorem receive_loop_drains (n : Nat) (w : World) :
    wp (repeatUntil .pending n (fun _ => receiveTurn fuel pool a) ())
      (fun _ w' => w'.conn.unread.length < w.conn.unread.length) (fun _ _ => True) w := by
  cases n with
  | zero => trivial
  | succ n =>
    rw [wp_receive_loop, receiveServerMessage, wp_tryCatch]
    refine wp_mono (recv_drains fuel _ w) ?_ ?_
    · intro response w₁ hread
      have hrest : Runs Drains (handOn fuel n pool a response) :=
        (writeReply_runs response).seq fun _ => isDataAvailable_runs.seq fun _ =>
          .cond (.loop (fun _ => receiveTurn_runs fuel pool a) n ()) (.ofPure _)
      exact wp_drains hrest hread
    · intro stop w₁ _
      exact wp_weaken (receiveFailed_returns a stop w₁) (fun _ _ h => h.elim)

theorem Server.expects_eq_false_iff (s : Server) (ms : List Message) :
    s.expects ms = false ↔ s.dataAvailable = false ∧ ∀ m ∈ ms, m.announces = false := by
  simp [Server.expects]

section Exchange

variable {w : World} {messages : List Message} {replies : List (List Message)}

/-- An exchange whose reply asks for data: the loop turns after the `CopyInResponse` if the flag is set. -/
theorem wp_sendAndReceiveLoop_copyIn {Q : Unit → World → Prop} {E : Stop → World → Prop}
    (hbuffer : w.conn.server.buffer = []) (hlength : replies.length = messages.length)
    (hreply : w.conn.unread ++ replies.flatten = ms ++ [g] ++ beyond)
    (hms : precedesCopyIn false ms = true) (hg : g.backend = .copyInResponse)
    (hscript : w.script = .sent replies :: (w.conn.server.smooth (ms ++ [g]) ++ rest))
    (hfuel : ms.length < fuel)
    (hend : ∀ n w', HandedOver w.trace (ms ++ [g]) beyond rest w' →
      wp (if w.conn.server.expects ms = true then repeatUntil .pending n (fun _ => receiveTurn fuel pool a) ()
          else pure ())
        (fun _ w'' => Q () { w'' with trace := .stat .serverQuery :: .stat .query :: w''.trace }) E w') :
    wp (sendAndReceiveLoop fuel pool a messages) Q E w := by
  have hz : (Message.ofChar 'Z' [73]).readyStatus = some .idle := by decide
  have hstatus := replyStatus_of_precedes hz ms false hms
  rw [sendAndReceiveLoop, wp_bind]
  refine wp_mono (wp_sendServerMessage hscript hlength) ?_ (fun _ _ h => h.elim)
  rintro _ w₁ ⟨hunread, hserver, hscript', hwritten⟩
  have hstart : Forwarding w.trace (ms ++ [g]) beyond rest false (ms ++ [g]) w₁ := by
    refine ⟨hunread.trans hreply, by rw [hscript', hserver], by simp, [], by simpa using hwritten, ?_⟩
    rw [hserver, hbuffer]
    rfl
  obtain ⟨n, rfl⟩ := Nat.exists_eq_add_of_lt hfuel
  rw [wp_bind, wp_receive_loop, receiveServerMessage, wp_tryCatch]
  have hloop := wp_recv_copyIn hg hend ms false (ms.length + n + 1) (ms.length + n) w₁
    (0 < pool.settings.user.statementTimeout) hstatus (by rw [hserver]) hfuel hfuel (by omega) hstart
  exact wp_mono hloop (fun _ _ h => h) (fun _ _ h => h.elim)

/-- `send_and_receive_loop` hands the messages up to the first `CopyInResponse` on and returns without
reading further exactly if no row and no `CopyOutResponse` came before it, and the flag was not set by an
earlier exchange. -/
theorem copy_in_returns_iff (hbuffer : w.conn.server.buffer = []) (hlength : replies.length = messages.length)
    (hreply : w.conn.unread ++ replies.flatten = ms ++ [g] ++ beyond)
    (hms : precedesCopyIn false ms = true) (hg : g.backend = .copyInResponse)
    (hscript : w.script = .sent replies :: (w.conn.server.smooth (ms ++ [g]) ++ rest))
    (hfuel : ms.length < fuel) :
    (∃ w', sendAndReceiveLoop fuel pool a messages w = .ok () w' ∧
        HandedOver w.trace (ms ++ [g]) beyond rest w') ↔
      w.conn.server.dataAvailable = false ∧ ∀ m ∈ ms, m.announces = false := by
  rw [← Server.expects_eq_false_iff]
  constructor
  · rintro ⟨w', hok, hover⟩
    by_contra hset
    -- Otherwise the loop has turned, and what it has returned with came from behind the `CopyInResponse`.
    have hread : wp (sendAndReceiveLoop fuel pool a messages)
        (fun _ w' => w'.conn.unread.length < beyond.length) (fun _ _ => True) w := by
      refine wp_sendAndReceiveLoop_copyIn hbuffer hlength hreply hms hg hscript hfuel ?_
      intro n w' hover
      rw [if_pos (Bool.eq_true_of_not_eq_false hset), ← hover.unread]
      exact receive_loop_drains n w'
    rw [wp, hok] at hread
    have hlt : w'.conn.unread.length < beyond.length := hread
    rw [hover.unread] at hlt
    exact Nat.lt_irrefl _ hlt
  · intro hunset
    have hreturns : wp (sendAndReceiveLoop fuel pool a messages)
        (fun _ => HandedOver w.trace (ms ++ [g]) beyond rest) (fun _ _ => False) w := by
      refine wp_sendAndReceiveLoop_copyIn hbuffer hlength hreply hms hg hscript hfuel ?_
      intro n w' hover
      rw [hunset, if_neg Bool.false_ne_true]
      obtain ⟨chunks, hwritten, hflatten⟩ := hover.chunks
      exact ⟨hover.unread, hover.script, hover.buffer, chunks, by simpa using hwritten, hflatten⟩
    obtain ⟨_, w', hok, hover⟩ := ok_of_wp hreturns
    exact ⟨w', hok, hover⟩

end Exchange

end Asking

namespace Sample

def copyInResponse : Message := .ofChar 'G' [0, 0, 0]

/-- An exchange with a reply that asks for data; the server sends nothing more until it gets them. -/
def asked (reply : List Message) : World :=
  { World.start client (fun _ => none) (.sent [reply] :: (conn 0).server.smooth reply) with conn := conn 0 }

/-- `SELECT 1; COPY t FROM STDIN`. -/
def selectThenCopy : List Message :=
  [.ofChar 'T' [0, 0], .ofChar 'D' [0, 0], complete "SELECT 1"]

/-- The client has got the `CopyInResponse`, and the loop waits for the server. -/
theorem row_before_copy_in_waits :
    precedesCopyIn false selectThenCopy = true ∧
      returned (sendAndReceiveLoop 8 pool address [simpleQuery "SELECT 1; COPY t FROM STDIN"])
        (asked (selectThenCopy ++ [copyInResponse])) = false ∧
      written (final (sendAndReceiveLoop 8 pool address [simpleQuery "SELECT 1; COPY t FROM STDIN"])
        (asked (selectThenCopy ++ [copyInResponse]))).trace =
          [.forwarded (selectThenCopy ++ [copyInResponse])] := by
  decide +kernel

theorem notice_before_copy_in_returns :
    ∃ w, sendAndReceiveLoop 8 pool address [simpleQuery "COPY t FROM STDIN"]
        (asked ([.ofChar 'N' []] ++ [copyInResponse])) = .ok () w ∧
      HandedOver (asked ([.ofChar 'N' []] ++ [copyInResponse])).trace ([.ofChar 'N' []] ++ [copyInResponse]) [] [] w :=
  (copy_in_returns_iff rfl rfl rfl (by decide) (by decide) rfl (by decide)).mpr ⟨rfl, by decide⟩

end Sample

/-! ## The data -/

/-- How a message gets into the transaction loop: it is the one the server was checked out for, or it is
read from the client. -/
inductive Comes : Option Message → Message → List Input → List Input → Prop
  | initial (m : Message) (rest : List Input) : Comes (some m) m rest rest
  | read (m : Message) (rest : List Input) : Comes none m (.client m :: rest) rest

/-- The environment of a copy with the data `ds` that ends with `closer`, if nothing fails: the messages
come one after the other, and the server takes the buffer whenever it is sent.  `buffer` is what it holds,
and `rest` is what happens once the server has taken all. -/
inductive Copying (closer : Message) (rest : List Input) :
    Option Message → List Message → List Message → List Input → Prop
  | keep {initial : Option Message} {buffer ds : List Message} {d : Message} {script script' : List Input}
      (hcomes : Comes initial d script script')
      (hsize : ¬chunkSize < bufferSize (buffer ++ [d]))
      (hds : Copying closer rest none (buffer ++ [d]) ds script') :
      Copying closer rest initial buffer (d :: ds) script
  | flush {initial : Option Message} {buffer ds : List Message} {d : Message} {script script' : List Input}
      {replies : List (List Message)}
      (hcomes : Comes initial d script (.sent replies :: script'))
      (hsize : chunkSize < bufferSize (buffer ++ [d]))
      (hlength : replies.length = (buffer ++ [d]).length)
      (hds : Copying closer rest none [] ds script') :
      Copying closer rest initial buffer (d :: ds) script
  | close {initial : Option Message} {buffer : List Message} {script : List Input}
      {replies : List (List Message)}
      (hcomes : Comes initial closer script (.sent replies :: rest))
      (hlength : replies.length = (buffer ++ [closer]).length) :
      Copying closer rest initial buffer [] script

/-- Every copy has such an environment, whatever the server answers on the way. -/
theorem Copying.exists (closer : Message) (rest : List Input) (reply : Message → List Message) :
    ∀ (ds buffer : List Message), ∃ script, Copying closer rest none buffer ds script := by
  intro ds
  induction ds with
  | nil =>
    intro buffer
    exact ⟨_, .close (.read closer _) (List.length_map reply)⟩
  | cons d ds ih =>
    intro buffer
    by_cases hsize : chunkSize < bufferSize (buffer ++ [d])
    · obtain ⟨script, h⟩ := ih []
      exact ⟨_, .flush (.read d _) hsize (List.length_map reply) h⟩
    · obtain ⟨script, h⟩ := ih (buffer ++ [d])
      exact ⟨_, .keep (.read d _) hsize h⟩

section Loop

variable (fuel idleTimeout : Nat) (pool : ConnectionPool) (a : Address) {initial : Option Message}
  {m : Message} {script : List Input} {w : World}

structure Copied (script : List Input) (ms buffer : List Message) (w w' : World) : Prop where
  script : w'.script = script
  sent : passedOn w'.trace = passedOn w.trace ++ ms
  buffer : w'.client.buffer = buffer

/-- What the transaction loop does after a message was dispatched. -/
def turnAfter : Option Exit → Program (Option Message ⊕ Exit)
  | none => pure (.inl none)
  | some exit => pure (.inr exit)

theorem transactionTurn_comes (hcomes : Comes initial m w.script script) :
    ∃ w', Copied script [] w.client.buffer w w' ∧
      transactionTurn fuel idleTimeout pool a initial w = (dispatch fuel pool a m >>= turnAfter) w' := by
  obtain ⟨script₀, trace, conn, client, router, map⟩ := w
  dsimp only at hcomes
  cases hcomes with
  | initial => exact ⟨_, ⟨rfl, (List.append_nil _).symm, rfl⟩, rfl⟩
  | read => exact ⟨⟨script, .message m :: trace, conn, client, router, map⟩, ⟨rfl, by simp, rfl⟩, rfl⟩

variable {closer : Message} {replies : List (List Message)} {rest : List Input}

theorem sendServerMessage_sent {ms : List Message}
    (hscript : w.script = .sent replies :: script) (hlength : replies.length = ms.length) :
    ∃ w', sendServerMessage a ms w = .ok () w' ∧ Copied script ms w.client.buffer w w' := by
  have hboth := wp_and (wp_sendServerMessage (a := a) hscript hlength) (wp_sendServerMessage_passes a ms w)
  obtain ⟨_, w', hrun, ⟨_, _, hscript', _⟩, hpasses⟩ := ok_of_wp (wp_mono hboth (fun _ _ h => h) (fun _ _ h => h.1))
  exact ⟨w', hrun, hscript', hpasses.1, by rw [hpasses.2]⟩

theorem handleCopyData_keep (hsize : ¬chunkSize < bufferSize (w.client.buffer ++ [m])) :
    ∃ w', handleCopyData a m w = .ok none w' ∧ Copied w.script [] (w.client.buffer ++ [m]) w w' := by
  let w₁ := w.buffered m
  refine ⟨w₁, ?_, rfl, (List.append_nil _).symm, rfl⟩
  change (runIf (chunkSize < bufferSize (w.client.buffer ++ [m])) _ >>= fun _ => pure none) w₁ = _
  rw [runIf, if_neg hsize]
  rfl

theorem handleCopyData_flush (hscript : w.script = .sent replies :: script)
    (hsize : chunkSize < bufferSize (w.client.buffer ++ [m]))
    (hlength : replies.length = (w.client.buffer ++ [m]).length) :
    ∃ w', handleCopyData a m w = .ok none w' ∧ Copied script (w.client.buffer ++ [m]) [] w w' := by
  let w₁ := w.buffered m
  obtain ⟨w₂, hrun, hsent⟩ := sendServerMessage_sent a (w := w₁) hscript hlength
  refine ⟨{ w₂ with client := { w₂.client with buffer := [] } }, ?_, hsent.script, hsent.sent, rfl⟩
  change (runIf (chunkSize < bufferSize (w.client.buffer ++ [m]))
    (sendServerMessage a (w.client.buffer ++ [m]) >>= fun _ => clearBuffer) >>= fun _ => pure none) w₁ = _
  rw [runIf, if_pos hsize, bind_assoc, bind_of_ok hrun]
  rfl

/-- What is left to do once the end of a copy was sent: hand on a part of the reply, and go on if the server
is kept. -/
def awaitReply (fuel idleTimeout n : Nat) (pool : ConnectionPool) (a : Address) : Program Exit := do
  forwardReply fuel pool a
  match ← leaveIfOver false with
  | none => repeatUntil .pending n (transactionTurn fuel idleTimeout pool a) none
  | some exit => pure exit

theorem handleCopyEnd_sent (hscript : w.script = .sent replies :: script)
    (hlength : replies.length = (w.client.buffer ++ [m]).length) :
    ∃ w', Copied script (w.client.buffer ++ [m]) [] w w' ∧
      handleCopyEnd fuel pool a m w = (forwardReply fuel pool a >>= fun _ => leaveIfOver false) w' := by
  let w₁ := w.buffered m
  obtain ⟨w₂, hrun, hsent⟩ := sendServerMessage_sent a (w := w₁) hscript hlength
  refine ⟨{ w₂ with client := { w₂.client with buffer := [] } }, ⟨hsent.script, hsent.sent, rfl⟩, ?_⟩
  change (sendServerMessage a (w.client.buffer ++ [m]) >>= _) w₁ = _
  rw [bind_of_ok hrun]
  rfl

theorem Copied.trans {script' : List Input} {ms ms' buffer buffer' : List Message} {w₁ w₂ : World}
    (h : Copied script ms buffer w w₁) (h' : Copied script' ms' buffer' w₁ w₂) :
    Copied script' (ms ++ ms') buffer' w w₂ := by
  refine ⟨h'.script, ?_, h'.buffer⟩
  rw [h'.sent, h.sent, List.append_assoc]

theorem turn_copyData {d : Message} {ds : List Message} (hd : d.frontend = .copyData)
    (h : Copying closer rest initial w.client.buffer (d :: ds) w.script) :
    ∃ w' sent, transactionTurn fuel idleTimeout pool a initial w = .ok (.inl none) w' ∧
      passedOn w'.trace = passedOn w.trace ++ sent ∧ sent ++ w'.client.buffer = w.client.buffer ++ [d] ∧
      Copying closer rest none w'.client.buffer ds w'.script := by
  have hdispatch : dispatch fuel pool a d = handleCopyData a d := by rw [dispatch, hd]
  cases h with
  | keep hcomes hsize hds =>
    obtain ⟨w₁, hcame, hturn⟩ := transactionTurn_comes fuel idleTimeout pool a hcomes
    rw [← hcame.buffer] at hsize
    obtain ⟨w₂, hrun, hkept⟩ := handleCopyData_keep a hsize
    have hall := hcame.trans hkept
    refine ⟨w₂, _, ?_, hall.sent, ?_, ?_⟩
    · rw [hturn, hdispatch, bind_of_ok hrun]
      rfl
    · rw [hall.buffer, hcame.buffer]
      rfl
    · rw [hall.buffer, hcame.buffer, hkept.script, hcame.script]
      exact hds
  -- The buffer has reached its limit and is sent as a whole.
  | flush hcomes hsize hlength hds =>
    obtain ⟨w₁, hcame, hturn⟩ := transactionTurn_comes fuel idleTimeout pool a hcomes
    rw [← hcame.buffer] at hsize hlength
    obtain ⟨w₂, hrun, hsent⟩ := handleCopyData_flush a hcame.script hsize hlength
    have hall := hcame.trans hsent
    refine ⟨w₂, _, ?_, hall.sent, ?_, ?_⟩
    · rw [hturn, hdispatch, bind_of_ok hrun]
      rfl
    · rw [hall.buffer, hcame.buffer]
      exact List.append_nil _
    · rw [hall.buffer, hall.script]
      exact hds

theorem turn_copyEnd {n : Nat} (hcloser : closer.frontend = .copyDone ∨ closer.frontend = .copyFail)
    (h : Copying closer rest initial w.client.buffer [] w.script) :
    ∃ w', repeatUntil .pending (n + 1) (transactionTurn fuel idleTimeout pool a) initial w =
        awaitReply fuel idleTimeout n pool a w' ∧
      Copied rest (w.client.buffer ++ [closer]) [] w w' := by
  have hdispatch : dispatch fuel pool a closer = handleCopyEnd fuel pool a closer := by
    rcases hcloser with hkind | hkind
    · rw [dispatch, hkind]
    · rw [dispatch, hkind]
  cases h with
  | close hcomes hlength =>
    obtain ⟨w₁, hcame, hturn⟩ := transactionTurn_comes fuel idleTimeout pool a hcomes
    rw [← hcame.buffer] at hlength
    obtain ⟨w₂, hsent, hrun⟩ := handleCopyEnd_sent fuel pool a hcame.script hlength
    refine ⟨w₂, ?_, ?_⟩
    · rw [repeatUntil, bind_congr_run hturn, hdispatch, bind_assoc, bind_congr_run hrun, bind_assoc, awaitReply]
      refine congrArg (fun k => (forwardReply fuel pool a >>= fun _ => leaveIfOver false >>= k) w₂) ?_
      funext exit
      cases exit with
      | none => rfl
      | some exit => rfl
    · have hall := hcame.trans hsent
      rw [hcame.buffer] at hall
      exact hall

/-- The induction over the messages of a copy: what is sent and what is still buffered is what was buffered
before and what has come in. -/
theorem copy_run (hcloser : closer.frontend = .copyDone ∨ closer.frontend = .copyFail) :
    ∀ (ds : List Message) (n : Nat) (initial : Option Message) (w : World),
      (∀ d ∈ ds, d.frontend = .copyData) → Copying closer rest initial w.client.buffer ds w.script →
        ∃ w', repeatUntil .pending (ds.length + (n + 1)) (transactionTurn fuel idleTimeout pool a) initial w =
            awaitReply fuel idleTimeout n pool a w' ∧
          Copied rest (w.client.buffer ++ ds ++ [closer]) [] w w' := by
  intro ds
  induction ds with
  | nil =>
    intro n initial w _ h
    rw [List.length_nil, Nat.zero_add, List.append_nil]
    exact turn_copyEnd fuel idleTimeout pool a hcloser h
  | cons d ds ih =>
    intro n initial w hds h
    obtain ⟨w₁, sent, hturn, hpassed, hsplit, hrest⟩ :=
      turn_copyData fuel idleTimeout pool a (hds d List.mem_cons_self) h
    obtain ⟨w', hrun, hcopied⟩ := ih n none w₁ (fun d' hd' => hds d' (List.mem_cons_of_mem d hd')) hrest
    refine ⟨w', ?_, hcopied.script, ?_, hcopied.buffer⟩
    · rw [List.length_cons, Nat.succ_add, repeatUntil, bind_of_ok hturn]
      exact hrun
    · calc passedOn w'.trace
          = passedOn w₁.trace ++ (w₁.client.buffer ++ ds ++ [closer]) := hcopied.sent
        _ = passedOn w.trace ++ (sent ++ w₁.client.buffer ++ ds ++ [closer]) := by
            rw [hpassed]
            simp only [List.append_assoc]
        _ = passedOn w.trace ++ (w.client.buffer ++ (d :: ds) ++ [closer]) := by
            rw [hsplit]
            simp only [List.append_assoc, List.cons_append, List.nil_append]

/-- The data of a copy are forwarded intact, whatever their sizes and wherever the buffer is flushed: when
the reply is awaited, the bytes that were sent are those of the messages and the buffer is empty. -/
theorem copy_data_intact {closer : Message} {rest : List Input} {ds : List Message} {n : Nat}
    (hdata : ∀ d ∈ ds, d.frontend = .copyData)
    (hcloser : closer.frontend = .copyDone ∨ closer.frontend = .copyFail)
    (hbuffer : w.client.buffer = []) (hscript : Copying closer rest initial [] ds w.script)
    (hn : ds.length < n) :
    ∃ w' n', repeatUntil .pending n (transactionTurn fuel idleTimeout pool a) initial w =
        awaitReply fuel idleTimeout n' pool a w' ∧
      w'.script = rest ∧ w'.client.buffer = [] ∧
      bufferBytes (passedOn w'.trace) = bufferBytes (passedOn w.trace) ++ bufferBytes (ds ++ [closer]) := by
  obtain ⟨n', rfl⟩ := Nat.exists_eq_add_of_lt hn
  rw [← hbuffer] at hscript
  obtain ⟨w', hrun, hcopied⟩ := copy_run fuel idleTimeout pool a hcloser ds n' initial w hdata hscript
  refine ⟨w', n', hrun, hcopied.script, hcopied.buffer, ?_⟩
  rw [hcopied.sent, hbuffer, List.nil_append, bufferBytes, List.flatMap_append]
  rfl

end Loop

namespace Sample

def copyData (size : Nat) : Message := .ofChar 'd' (List.replicate size 0)

theorem copyData_frontend (size : Nat) : (copyData size).frontend = .copyData := rfl

theorem copyData_size (size : Nat) : (copyData size).size = size + 5 := by
  simp [copyData, Message.size, Message.ofChar]

def copyDone : Message := .ofChar 'c' []

/-- The second message brings the buffer over the limit. -/
def copyInWorld : World :=
  { World.start client (fun _ => none) [.client (copyData 10), .client (copyData 9000), .sent [[], []],
      .client (copyData 1), .client copyDone, .sent [[], [complete "COPY 3", ready 'I']]] with
    conn := conn 0 }

theorem copy_flushed_once :
    ∃ w n, repeatUntil .pending 4 (transactionTurn 4 0 pool address) none copyInWorld =
        awaitReply 4 0 n pool address w ∧
      w.script = [] ∧ w.client.buffer = [] ∧
      bufferBytes (passedOn w.trace) = bufferBytes (passedOn copyInWorld.trace) ++
        bufferBytes ([copyData 10, copyData 9000, copyData 1] ++ [copyDone]) := by
  have hdata : ∀ d ∈ [copyData 10, copyData 9000, copyData 1], d.frontend = .copyData := by
    simp only [List.forall_mem_cons, copyData_frontend, List.not_mem_nil, false_implies, implies_true, and_self]
  refine copy_data_intact 4 0 pool address hdata (.inl rfl) rfl ?_ (by decide)
  refine .keep (.read _ _) (by decide) (.flush (.read _ _) ?_ rfl (.keep (.read _ _) (by decide) ?_))
  · simp only [List.nil_append, List.cons_append, bufferSize, List.map_cons, List.map_nil, List.sum_cons, List.sum_nil,
      copyData_size]
    decide
  · exact .close (.read _ _) rfl

end Sample

end PgCat.Session
