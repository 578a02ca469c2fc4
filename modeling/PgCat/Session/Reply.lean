import PgCat.Session.Rules

/-!
# Reply — a reply is handed on to the client exactly

`recv` cuts a reply into chunks at points that depend on the sizes of its messages, and
`send_and_receive_loop` goes on while `data_available` is set.  `replyStatus` says which replies are
meant: they end with their only `ReadyForQuery`, contain no `CopyInResponse`, and their `CopyData` follow a
`CopyOutResponse`.  One induction over the messages still to come covers both loops at once, since
after each message the two programs are either still in the same `recv` or in the next one.
-/

namespace PgCat.Session

open Lib Protocol Config

/-- The status a complete reply ends with; `copyOut` is set once a `CopyOutResponse` was seen. -/
def replyStatus (copyOut : Bool) : List Message → Option TxStatus
  | [] => none
  | m :: ms =>
    match m.backend with
    -- Nothing follows `ReadyForQuery`.
    | .readyForQuery => if ms = [] then m.readyStatus else none
    | .copyInResponse => none
    | .copyOutResponse => replyStatus true ms
    | .copyData => if copyOut then replyStatus copyOut ms else none
    | _ => replyStatus copyOut ms

/-- The server once `recv` has handed its buffer out. -/
def Server.flushed (s : Server) : Server :=
  { s with buffer := [] }

/-- What the environment answers while nothing goes wrong: every read gets the next message of the
reply, every write to the client succeeds. -/
def Server.smooth (s : Server) : List Message → List Input
  | [] => []
  | m :: ms =>
    .arrives ::
      if (s.take m).2 = .done then
        .clientWrite true :: smooth (s.take m).1.flushed ms
      else
        smooth (s.take m).1 ms

/-- A response that reached the client. -/
@[simp] def Event.response : Event → Option Response
  | .replied r true => some r
  | _ => none

/-- What was written to the client, oldest first. -/
def written (trace : List Event) : List Response :=
  observed Event.response trace

@[simp] theorem written_cons (e : Event) (trace : List Event) :
    written (e :: trace) = written trace ++ e.response.toList :=
  observed_cons _ e trace

/-! ## One message -/

theorem takeCommand_buffer (s : Server) (m : Message) : (s.takeCommand m).buffer = s.buffer := by
  unfold Server.takeCommand
  repeat' split
  all_goals rfl

/-- What one message of a reply does: it ends the reply, or `recv` reads on, or `recv` returns and
`data_available` makes the loop go on. -/
theorem take_reply (s : Server) {copyOut : Bool} {m : Message} {ms : List Message} {t : TxStatus}
    (h : replyStatus copyOut (m :: ms) = some t)
    (hout : copyOut = true → s.dataAvailable = true) :
    (s.take m).1.buffer = s.buffer ++ [m] ∧
      ((ms = [] ∧ (s.take m).2 = .done ∧ (s.take m).1.dataAvailable = false ∧
          (s.take m).1.inTransaction = (t ≠ .idle : Bool)) ∨
        ∃ out, replyStatus out ms = some t ∧
          (out = true → (s.take m).1.dataAvailable = true) ∧
          ((s.take m).2 = .more ∨
            (s.take m).2 = .done ∧ (s.take m).1.dataAvailable = true)) := by
  unfold replyStatus at h
  unfold Server.take
  dsimp only
  cases hk : m.backend with
  | readyForQuery =>
    rw [hk] at h
    by_cases hms : ms = []
    · rw [if_pos hms] at h
      rw [Server.takeReady_some _ h]
      exact ⟨rfl, .inl ⟨hms, rfl, rfl, rfl⟩⟩
    · rw [if_neg hms] at h
      cases h
  | copyInResponse =>
    rw [hk] at h
    cases h
  | copyOutResponse =>
    rw [hk] at h
    exact ⟨rfl, .inr ⟨true, h, fun _ => rfl, .inr ⟨rfl, rfl⟩⟩⟩
  | copyData =>
    rw [hk] at h
    cases copyOut with
    | false => cases h
    | true =>
      refine ⟨rfl, .inr ⟨true, h, hout, ?_⟩⟩
      -- The flag is still set from the `CopyOutResponse`, so a full buffer is not the end.
      rcases Server.afterChunk_cases { s with buffer := s.buffer ++ [m] } with hc | hc
      · exact .inl hc
      · exact .inr ⟨hc, hout rfl⟩
  | dataRow =>
    rw [hk] at h
    refine ⟨rfl, .inr ⟨copyOut, h, fun _ => rfl, ?_⟩⟩
    rcases Server.afterChunk_cases { s with buffer := s.buffer ++ [m], dataAvailable := true }
      with hc | hc
    · exact .inl hc
    · exact .inr ⟨hc, rfl⟩
  | commandComplete =>
    rw [hk] at h
    have hflags := Server.takeCommand_flags { s with buffer := s.buffer ++ [m] } m
    refine ⟨takeCommand_buffer _ m, .inr ⟨copyOut, h, ?_, .inl rfl⟩⟩
    intro hc
    rw [hflags.2.2]
    exact hout hc
  | _ =>
    rw [hk] at h
    exact ⟨rfl, .inr ⟨copyOut, h, hout, .inl rfl⟩⟩

/-! ## Both loops -/

section Loops

variable {fuel : Nat} {pool : ConnectionPool} {a : Address}

/-- Where the two loops are when the messages `ms` of the reply are still to come. -/
structure Forwarding (trace : List Event) (reply beyond : List Message) (rest : List Input)
    (copyOut : Bool) (ms : List Message) (w : World) : Prop where
  unread : w.conn.unread = ms ++ beyond
  script : w.script = w.conn.server.smooth ms ++ rest
  announced : copyOut = true → w.conn.server.dataAvailable = true
  chunks : ∃ chunks : List (List Message),
    written w.trace = written trace ++ chunks.map .forwarded ∧
      chunks.flatten ++ w.conn.server.buffer ++ ms = reply

/-- The reply was handed on as a whole and nothing behind it was read. -/
structure Forwarded (trace : List Event) (reply beyond : List Message) (rest : List Input)
    (t : TxStatus) (w : World) : Prop where
  unread : w.conn.unread = beyond
  script : w.script = rest
  buffer : w.conn.server.buffer = []
  dataAvailable : w.conn.server.dataAvailable = false
  inTransaction : w.conn.server.inTransaction = (t ≠ .idle : Bool)
  chunks : ∃ chunks : List (List Message),
    written w.trace = written trace ++ chunks.map .forwarded ∧ chunks.flatten = reply

variable {trace : List Event} {reply beyond : List Message} {rest : List Input} {t : TxStatus}

/-- What the loop does with a chunk: write it, and receive the next one if there is more. -/
def handOn (fuel n : Nat) (pool : ConnectionPool) (a : Address) (response : List Message) :
    Program Unit := do
  writeReply response
  if ← isDataAvailable then repeatUntil .pending n (fun _ => receiveTurn fuel pool a) ()
  else pure ()

theorem wp_receiveTurn {Q : Unit ⊕ Unit → World → Prop} {E : Stop → World → Prop} {w : World} :
    wp (receiveTurn fuel pool a) Q E w ↔
      wp (receiveServerMessage fuel pool a) (fun response => wp (writeReply response)
        (fun _ w => Q (if w.conn.server.dataAvailable then .inl () else .inr ()) w) E) E w := by
  simp only [receiveTurn, forwardReply, wp_bind]
  refine Iff.of_eq (congrArg (fun P => wp (receiveServerMessage fuel pool a) P E w) ?_)
  funext response w
  refine congrArg (fun P => wp (writeReply response) P E w) ?_
  funext _ w
  simp only [isDataAvailable, wp_bind, wp_get, wp_pure]
  cases w.conn.server.dataAvailable with
  | true => rfl
  | false => rfl

theorem wp_receive_loop {n : Nat} {Q : Unit → World → Prop} {E : Stop → World → Prop} {w : World} :
    wp (repeatUntil .pending (n + 1) (fun _ => receiveTurn fuel pool a) ()) Q E w ↔
      wp (receiveServerMessage fuel pool a) (fun response => wp (handOn fuel n pool a response) Q E)
        E w := by
  rw [repeatUntil, wp_bind, wp_receiveTurn]
  refine Iff.of_eq (congrArg (fun P => wp (receiveServerMessage fuel pool a) P E w) ?_)
  funext response w
  rw [handOn, wp_bind]
  refine congrArg (fun P => wp (writeReply response) P E w) ?_
  funext _ w
  simp only [isDataAvailable, wp_bind, wp_get, wp_pure]
  cases w.conn.server.dataAvailable with
  | true => rfl
  | false => rfl

/-- The world after its chunk was written. -/
def World.handedOn (w : World) (m : Message) (unread : List Message) (script : List Input) : World :=
  { (w.read script m unread).flushed with
    trace := .replied (.forwarded (w.conn.server.take m).1.buffer) true ::
      .received w.conn m :: w.trace }

variable {k : Nat} {timed : Bool} {Q : List Message → World → Prop} {E : Stop → World → Prop}
  {w : World} {m : Message} {unread : List Message} {script : List Input}

theorem wp_recv_more (hscript : w.script = .arrives :: script) (hunread : w.conn.unread = m :: unread)
    (htake : (w.conn.server.take m).2 = .more)
    (h : wp (recv k timed) Q E (w.read script m unread)) : wp (recv (k + 1) timed) Q E w := by
  rw [recv, repeatUntil, wp_bind]
  have hturn : recvTurn timed w = .ok (.inl ()) (w.read script m unread) := by
    simp only [recvTurn, readServer, next, absorb, bind, EStateM.bind, hscript, hunread, htake]
    rfl
  unfold wp
  rw [hturn]
  exact h

theorem wp_recv_done (hscript : w.script = .arrives :: script) (hunread : w.conn.unread = m :: unread)
    (htake : (w.conn.server.take m).2 = .done)
    (h : Q (w.conn.server.take m).1.buffer (w.read script m unread).flushed) :
    wp (recv (k + 1) timed) Q E w := by
  rw [recv, repeatUntil, wp_bind]
  have hturn : recvTurn timed w =
      .ok (.inr (w.conn.server.take m).1.buffer) (w.read script m unread).flushed := by
    simp only [recvTurn, readServer, next, absorb, bind, EStateM.bind, hscript, hunread, htake]
    rfl
  unfold wp
  rw [hturn]
  exact h

theorem wp_writeReply {response : List Message} {Q : Unit → World → Prop}
    (hscript : w.script = .clientWrite true :: script)
    (h : Q () { w with script := script, trace := .replied (.forwarded response) true :: w.trace }) :
    wp (writeReply response) Q E w := by
  rw [writeReply, onError, wp_tryCatch]
  have hwrite : writeClient (.forwarded response) w =
      .ok () { w with script := script, trace := .replied (.forwarded response) true :: w.trace } := by
    simp only [writeClient, next, bind, EStateM.bind, hscript]
    rfl
  unfold wp
  rw [hwrite]
  exact h

theorem wp_handOn {n : Nat} {Q : Unit → World → Prop}
    (h : wp (if (w.conn.server.take m).1.dataAvailable = true then
        repeatUntil .pending n (fun _ => receiveTurn fuel pool a) () else pure ()) Q E
      (w.handedOn m unread script)) :
    wp (handOn fuel n pool a (w.conn.server.take m).1.buffer) Q E
      (w.read (.clientWrite true :: script) m unread).flushed := by
  rw [handOn, wp_bind]
  refine wp_writeReply rfl ?_
  simp only [isDataAvailable, wp_bind, wp_get, wp_pure]
  exact h

namespace Forwarding

variable {copyOut out : Bool} {ms : List Message}
  (hw : Forwarding trace reply beyond rest copyOut (m :: ms) w)
include hw

theorem script_more (htake : (w.conn.server.take m).2 = .more) :
    w.script = .arrives :: ((w.conn.server.take m).1.smooth ms ++ rest) := by
  have hscript := hw.script
  simpa [Server.smooth, htake] using hscript

theorem script_done (htake : (w.conn.server.take m).2 = .done) :
    w.script = .arrives :: .clientWrite true ::
      ((w.conn.server.take m).1.flushed.smooth ms ++ rest) := by
  have hscript := hw.script
  simpa [Server.smooth, htake] using hscript

theorem more (hbuffer : (w.conn.server.take m).1.buffer = w.conn.server.buffer ++ [m])
    (hout : out = true → (w.conn.server.take m).1.dataAvailable = true) :
    Forwarding trace reply beyond rest out ms
      (w.read ((w.conn.server.take m).1.smooth ms ++ rest) m (ms ++ beyond)) := by
  obtain ⟨chunks, hwritten, hreply⟩ := hw.chunks
  refine ⟨rfl, rfl, hout, chunks, ?_, ?_⟩
  · simpa [World.read] using hwritten
  · simpa [World.read, Conn.taken, hbuffer] using hreply

theorem chunks_handedOn {script : List Input}
    (hbuffer : (w.conn.server.take m).1.buffer = w.conn.server.buffer ++ [m]) :
    ∃ chunks : List (List Message),
      written (w.handedOn m unread script).trace = written trace ++ chunks.map .forwarded ∧
        chunks.flatten ++ ms = reply := by
  obtain ⟨chunks, hwritten, hreply⟩ := hw.chunks
  refine ⟨chunks ++ [w.conn.server.buffer ++ [m]], ?_, ?_⟩
  · simp [World.handedOn, hwritten, hbuffer]
  · simpa using hreply

theorem next (hbuffer : (w.conn.server.take m).1.buffer = w.conn.server.buffer ++ [m])
    (hout : out = true → (w.conn.server.take m).1.dataAvailable = true) :
    Forwarding trace reply beyond rest out ms
      (w.handedOn m (ms ++ beyond)
        ((w.conn.server.take m).1.flushed.smooth ms ++ rest)) := by
  obtain ⟨chunks, hwritten, hreply⟩ := hw.chunks_handedOn hbuffer
  refine ⟨rfl, rfl, hout, chunks, hwritten, ?_⟩
  simpa [World.handedOn, World.flushed, World.read] using hreply

theorem last (hms : ms = [])
    (hbuffer : (w.conn.server.take m).1.buffer = w.conn.server.buffer ++ [m])
    (hdata : (w.conn.server.take m).1.dataAvailable = false)
    (htx : (w.conn.server.take m).1.inTransaction = (t ≠ .idle : Bool)) :
    Forwarded trace reply beyond rest t
      (w.handedOn m (ms ++ beyond)
        ((w.conn.server.take m).1.flushed.smooth ms ++ rest)) := by
  subst hms
  obtain ⟨chunks, hwritten, hreply⟩ := hw.chunks_handedOn hbuffer
  refine ⟨rfl, rfl, rfl, hdata, htx, chunks, hwritten, ?_⟩
  simpa using hreply

end Forwarding

/-- A time limit does not matter while the messages arrive. -/
theorem wp_receiveServerMessage {Q : List Message → World → Prop}
    (h : ∀ timed, wp (recv fuel timed) Q (fun _ _ => False) w) :
    wp (receiveServerMessage fuel pool a) Q (fun _ _ => False) w := by
  rw [receiveServerMessage, wp_tryCatch]
  exact wp_mono (h _) (fun _ _ hQ => hQ) (fun _ _ hE => hE.elim)

/-- The next chunk is received and handed on, and so are all that follow it. -/
theorem wp_recv_handOn : ∀ (ms : List Message) (copyOut : Bool) (k n : Nat) (w : World) (timed : Bool),
    replyStatus copyOut ms = some t → ms.length ≤ fuel → ms.length ≤ k → ms.length ≤ n + 1 →
      Forwarding trace reply beyond rest copyOut ms w →
        wp (recv k timed) (fun response => wp (handOn fuel n pool a response)
          (fun _ => Forwarded trace reply beyond rest t) (fun _ _ => False)) (fun _ _ => False) w := by
  intro ms
  induction ms with
  | nil =>
    intro copyOut k n w timed hstatus
    cases hstatus
  | cons m ms ih =>
    intro copyOut k n w timed hstatus hfuel hk hn hw
    simp only [List.length_cons] at hfuel hk hn
    obtain ⟨k, rfl⟩ := Nat.exists_eq_add_of_lt (Nat.lt_of_lt_of_le (Nat.succ_pos _) hk)
    obtain ⟨hbuffer, hcase⟩ := take_reply w.conn.server hstatus hw.announced
    rcases hcase with ⟨hms, htake, hdata, htx⟩ | ⟨out, hrest, hout, htake | ⟨htake, hdata⟩⟩
    · -- `ReadyForQuery`: the last chunk is written and the loop sees no more data.
      refine wp_recv_done (hw.script_done htake) hw.unread htake (wp_handOn ?_)
      rw [hdata]
      exact hw.last hms hbuffer hdata htx
    · refine wp_recv_more (hw.script_more htake) hw.unread htake ?_
      exact ih out _ _ _ timed hrest (by omega) (by omega) (by omega) (hw.more hbuffer hout)
    · -- A full buffer or `CopyOutResponse`: the loop turns once more.
      refine wp_recv_done (hw.script_done htake) hw.unread htake (wp_handOn ?_)
      rw [hdata, if_pos rfl]
      have hpos : 0 < ms.length := by
        cases ms with
        | nil => cases hrest
        | cons => simp
      obtain ⟨n, rfl⟩ : ∃ n', n = n' + 1 := ⟨n - 1, by omega⟩
      rw [wp_receive_loop]
      refine wp_receiveServerMessage fun timed => ?_
      exact ih out fuel n _ timed hrest (by omega) (by omega) (by omega) (hw.next hbuffer hout)

theorem wp_receive_all {copyOut : Bool} (hstatus : replyStatus copyOut reply = some t)
    (hfuel : reply.length ≤ fuel) (hw : Forwarding trace reply beyond rest copyOut reply w) :
    wp (repeatUntil .pending fuel (fun _ => receiveTurn fuel pool a) ())
      (fun _ => Forwarded trace reply beyond rest t) (fun _ _ => False) w := by
  have hpos : 0 < reply.length := by
    cases reply with
    | nil => cases hstatus
    | cons => simp
  obtain ⟨n, hn⟩ : ∃ n, fuel = n + 1 := ⟨fuel - 1, by omega⟩
  have hloop : wp (repeatUntil .pending (n + 1) (fun _ => receiveTurn fuel pool a) ())
      (fun _ => Forwarded trace reply beyond rest t) (fun _ _ => False) w := by
    rw [wp_receive_loop]
    refine wp_receiveServerMessage fun timed => ?_
    exact wp_recv_handOn reply copyOut fuel n w timed hstatus hfuel hfuel (by omega) hw
  rw [← hn] at hloop
  exact hloop

theorem wp_deliver (fromClient : Bool) :
    ∀ (messages : List Message) (replies : List (List Message)) (w : World),
      replies.length = messages.length →
        wp (deliver fromClient messages replies)
          (fun _ w' => w'.conn.unread = w.conn.unread ++ replies.flatten ∧ w'.script = w.script)
          (fun _ _ => False) w :=
  deliver_rule (R := fun _ replies w w' => w'.conn.unread = w.conn.unread ++ replies.flatten ∧ w'.script = w.script)
    fromClient (fun _ => ⟨by simp, rfl⟩) (fun h => by simpa [Conn.push] using h)

theorem wp_sendServerMessage {messages : List Message} {replies : List (List Message)}
    (hscript : w.script = .sent replies :: script) (hlength : replies.length = messages.length) :
    wp (sendServerMessage a messages)
      (fun _ w' => w'.conn.unread = w.conn.unread ++ replies.flatten ∧
        w'.conn.server = w.conn.server ∧ w'.script = script ∧
        written w'.trace = written w.trace) (fun _ _ => False) w := by
  rw [sendServerMessage, onError, wp_tryCatch, send, wp_bind]
  have hnext : Session.next w = .ok (.sent replies) { w with script := script } := by
    simp only [Session.next, hscript]
  unfold wp
  rw [hnext]
  dsimp only
  rw [if_pos hlength]
  refine wp_mono (wp_and (wp_deliver true messages replies _ hlength)
    (deliver_delivered (E := fun _ _ => False) true messages replies _ hlength)) ?_
    (fun _ _ h => h.1.elim)
  rintro _ w' ⟨⟨hunread, hscript'⟩, h⟩
  have hwritten := h.observed Event.response (fun _ => none) (fun _ _ _ => rfl)
  exact ⟨hunread, h.server, hscript', by simpa [written] using hwritten⟩

/-- A reply that ends with its first `ReadyForQuery` is handed on exactly, whatever the sizes of its
messages: `send_and_receive_loop` returns, the chunks written to the client make up the reply, and what
the server sent behind it is still unread. -/
theorem reply_forwarded {messages : List Message} {replies : List (List Message)}
    (hbuffer : w.conn.server.buffer = []) (hlength : replies.length = messages.length)
    (hreply : w.conn.unread ++ replies.flatten = reply ++ beyond)
    (hstatus : replyStatus false reply = some t)
    (hscript : w.script = .sent replies :: (w.conn.server.smooth reply ++ rest))
    (hfuel : reply.length ≤ fuel) :
    ∃ w', sendAndReceiveLoop fuel pool a messages w = .ok () w' ∧
      Forwarded w.trace reply beyond rest t w' := by
  have hwp : wp (sendAndReceiveLoop fuel pool a messages)
      (fun _ => Forwarded w.trace reply beyond rest t) (fun _ _ => False) w := by
    rw [sendAndReceiveLoop]
    refine wp_seq (wp_sendServerMessage hscript hlength) ?_
    rintro _ w' ⟨hunread, hserver, hscript', hwritten⟩
    rw [wp_bind]
    have hstart : Forwarding w.trace reply beyond rest false reply w' := by
      refine ⟨hunread.trans hreply, by rw [hscript', hserver], by simp, [], by simpa using hwritten, ?_⟩
      rw [hserver, hbuffer]
      rfl
    refine wp_imp (wp_receive_all hstatus hfuel hstart) ?_
    intro _ w'' hend
    obtain ⟨chunks, hchunks, hflat⟩ := hend.chunks
    -- Statistics leave the connection and what was written as they are.
    exact ⟨hend.unread, hend.script, hend.buffer, hend.dataAvailable, hend.inTransaction, chunks,
      by simpa using hchunks, hflat⟩
  obtain ⟨_, w', hrun, hend⟩ := ok_of_wp hwp
  exact ⟨w', hrun, hend⟩

end Loops

namespace Sample

/-- `COPY t TO STDOUT`: the reply is cut after `CopyOutResponse`. -/
def copyReply : List Message :=
  [.ofChar 'H' [0, 0, 0], .ofChar 'd' (utf8 "1"), .ofChar 'c' [], complete "COPY 1", ready 'I']

/-- A notice that comes after the reply. -/
def notice : Message := .ofChar 'N' []

def copyWorld : World :=
  { World.start client (fun _ => none)
      (.sent [copyReply ++ [notice]] :: ((conn 0).server.smooth copyReply ++ [.shutdown])) with
    conn := conn 0 }

theorem copy_reply_forwarded :
    replyStatus false copyReply = some .idle ∧
      ∃ w, sendAndReceiveLoop 5 pool address [simpleQuery "COPY t TO STDOUT"] copyWorld = .ok () w ∧
        Forwarded copyWorld.trace copyReply [notice] [.shutdown] .idle w := by
  have hstatus : replyStatus false copyReply = some .idle := by decide
  have hscript : copyWorld.script = .sent [copyReply ++ [notice]] ::
      (copyWorld.conn.server.smooth copyReply ++ [.shutdown]) := rfl
  have hlength : [copyReply ++ [notice]].length =
      [simpleQuery "COPY t TO STDOUT"].length := rfl
  have hreply : copyWorld.conn.unread ++ [copyReply ++ [notice]].flatten = copyReply ++ [notice] := rfl
  exact ⟨hstatus, reply_forwarded (w := copyWorld) rfl hlength hreply hstatus hscript
    (by simp [copyReply])⟩

end Sample

end PgCat.Session
