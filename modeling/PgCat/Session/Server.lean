import PgCat.Session.World

/-!
# Server — the server side of a session

`Server::send`, `recv`, `query`, `checkin_cleanup`, `set_name` and `claim`.  What `recv` does with one
message is the pure function `Server.take`.  `fuel` bounds the loops; a run that exhausts it is
`pending`.  `timed` says whether the call runs under a time limit.
-/

namespace PgCat.Session

open Lib Protocol

/-- What `recv` does after a message: read on, return the buffer, fail or panic. -/
inductive After
  | more
  | done
  | failed (e : Error)
  | panicked
  deriving DecidableEq, Repr

/-- Size at which `recv` hands on what it has. -/
def chunkSize : Nat := 8196

namespace Server

/-- Read on until the buffer is large. -/
def afterChunk (s : Server) : After :=
  if chunkSize ≤ bufferSize s.buffer then .done else .more

def takeReady (s : Server) (m : Message) : Server × After :=
  match m.payload with
  | [] => (s, .panicked)
  | b :: _ =>
    match Char.ofUInt8 b with
    | 'T' => ({ s with inTransaction := true, dataAvailable := false }, .done)
    | 'I' => ({ s with inTransaction := false, dataAvailable := false }, .done)
    | 'E' => ({ s with inTransaction := true, dataAvailable := false }, .done)
    | c => ({ s with bad := true },
        .failed (.protocolSyncError ("Unknown transaction state: " ++ String.singleton c)))

/-- `CommandComplete`: commands that are likely to change the session. -/
def takeCommand (s : Server) (m : Message) : Server :=
  if m.payload = utf8 "SET" ++ [0] then
    -- `SET` inside a transaction is not detected.
    if s.inTransaction then s else { s with needsCleanup := true }
  else if m.payload = utf8 "PREPARE" ++ [0] then
    { s with needsCleanup := true }
  else
    s

/-- The body of the loop of `recv`, for one message. -/
def take (s : Server) (m : Message) : Server × After :=
  let s := { s with buffer := s.buffer ++ [m] }
  match m.backend with
  | .readyForQuery => s.takeReady m
  | .commandComplete => (s.takeCommand m, .more)
  | .dataRow =>
    let s := { s with dataAvailable := true }
    (s, s.afterChunk)
  | .copyInResponse => (s, .done)
  | .copyOutResponse => ({ s with dataAvailable := true }, .done)
  | .copyData => (s, s.afterChunk)
  | _ => (s, .more)

/-! What `take` makes of the flags. -/

variable (s : Server) {m : Message} {t : TxStatus}

theorem takeReady_some (h : m.readyStatus = some t) :
    s.takeReady m = ({ s with inTransaction := t ≠ .idle, dataAvailable := false }, .done) := by
  have hk : m.backend = .readyForQuery := Message.backend_of_readyStatus h
  rw [Message.readyStatus, if_pos hk] at h
  unfold takeReady
  cases hp : m.payload with
  | nil => simp [hp] at h
  | cons b rest =>
    simp only [hp, List.head?_cons, Option.bind_some] at h
    dsimp only
    generalize Char.ofUInt8 b = c at h ⊢
    unfold TxStatus.ofChar at h
    split at h
    all_goals cases h
    all_goals rfl

theorem takeReady_none (hk : m.backend = .readyForQuery) (h : m.readyStatus = none) :
    s.takeReady m = (s, .panicked) ∨ ∃ e, s.takeReady m = ({ s with bad := true }, .failed e) := by
  rw [Message.readyStatus, if_pos hk] at h
  unfold takeReady
  cases hp : m.payload with
  | nil => exact .inl rfl
  | cons b rest =>
    simp only [hp, List.head?_cons, Option.bind_some] at h
    dsimp only
    generalize Char.ofUInt8 b = c at h ⊢
    split
    · simp [TxStatus.ofChar] at h
    · simp [TxStatus.ofChar] at h
    · simp [TxStatus.ofChar] at h
    · exact .inr ⟨_, rfl⟩

theorem takeCommand_flags (m : Message) :
    (s.takeCommand m).inTransaction = s.inTransaction ∧ (s.takeCommand m).bad = s.bad ∧
      (s.takeCommand m).dataAvailable = s.dataAvailable := by
  unfold takeCommand
  split
  · split
    · exact ⟨rfl, rfl, rfl⟩
    · exact ⟨rfl, rfl, rfl⟩
  · split
    · exact ⟨rfl, rfl, rfl⟩
    · exact ⟨rfl, rfl, rfl⟩

theorem afterChunk_cases : s.afterChunk = .more ∨ s.afterChunk = .done := by
  unfold afterChunk
  split
  · exact .inr rfl
  · exact .inl rfl

/-- What one message does to the flags, and why `recv` returns after it. -/
theorem take_cases (m : Message) :
    (∃ t, m.readyStatus = some t ∧ (s.take m).2 = .done ∧
      (s.take m).1.inTransaction = (t ≠ .idle : Bool) ∧ (s.take m).1.dataAvailable = false ∧
      (s.take m).1.bad = s.bad) ∨
    (m.readyStatus = none ∧ m.backend = .readyForQuery ∧
      (s.take m).1.inTransaction = s.inTransaction ∧
      ((s.take m).2 = .panicked ∧ (s.take m).1.bad = s.bad ∨
        ∃ e, (s.take m).2 = .failed e ∧ (s.take m).1.bad = true)) ∨
    (m.readyStatus = none ∧ m.backend ≠ .readyForQuery ∧
      (s.take m).1.inTransaction = s.inTransaction ∧ (s.take m).1.bad = s.bad ∧
      (s.take m).1.dataAvailable = (s.dataAvailable || m.announces) ∧
      ((s.take m).2 = .more ∨ (s.take m).2 = .done ∧
        (m.backend = .copyInResponse ∨ m.backend = .copyData ∨ m.announces = true))) := by
  by_cases hk : m.backend = .readyForQuery
  · cases hr : m.readyStatus with
    | some t => exact .inl ⟨t, rfl, by simp [take, hk, takeReady_some _ hr]⟩
    | none =>
      refine .inr (.inl ⟨rfl, hk, ?_⟩)
      rcases takeReady_none { s with buffer := s.buffer ++ [m] } hk hr with h | ⟨e, h⟩
      · simp [take, hk, h]
      · simp [take, hk, h]
  · -- Any other message: `recv` goes on, or stops to hand over what it has.
    have hr : m.readyStatus = none := by simp [Message.readyStatus, hk]
    refine .inr (.inr ⟨hr, hk, ?_⟩)
    unfold take
    dsimp only
    split
    · exact absurd ‹_› hk
    · rename_i hc
      have hflags := takeCommand_flags { s with buffer := s.buffer ++ [m] } m
      exact ⟨hflags.1, hflags.2.1, by simpa [Message.announces, hc] using hflags.2.2, .inl rfl⟩
    · rename_i hc
      refine ⟨rfl, rfl, by simp [Message.announces, hc], ?_⟩
      rcases afterChunk_cases { s with buffer := s.buffer ++ [m], dataAvailable := true } with h | h
      · exact .inl h
      · exact .inr ⟨h, by simp [Message.announces, hc]⟩
    · rename_i hc
      exact ⟨rfl, rfl, by simp [Message.announces, hc], .inr ⟨rfl, .inl hc⟩⟩
    · rename_i hc
      exact ⟨rfl, rfl, by simp [Message.announces, hc], .inr ⟨rfl, by simp [Message.announces, hc]⟩⟩
    · rename_i hc
      refine ⟨rfl, rfl, by simp [Message.announces, hc], ?_⟩
      rcases afterChunk_cases { s with buffer := s.buffer ++ [m] } with h | h
      · exact .inl h
      · exact .inr ⟨h, .inr (.inl hc)⟩
    · rename_i h₁ h₂ h₃ h₄ h₅ h₆
      have hno : m.announces = false := by
        simp only [Message.announces, Bool.or_eq_false_iff, decide_eq_false_iff_not]
        exact ⟨h₃, h₅⟩
      exact ⟨rfl, rfl, by simp [hno], .inl rfl⟩

theorem take_bad (m : Message) (h : s.bad = true) : (s.take m).1.bad = true := by
  rcases s.take_cases m with ⟨_, _, _, _, _, hb⟩ | ⟨_, _, _, ⟨_, hb⟩ | ⟨_, _, hb⟩⟩ | ⟨_, _, _, hb, _⟩
  · rw [hb, h]
  · rw [hb, h]
  · exact hb
  · rw [hb, h]

theorem take_needsCleanup (m : Message) :
    (s.take m).1.needsCleanup = (s.needsCleanup || (decide (m.backend = .commandComplete) &&
      (decide (m.payload = utf8 "SET" ++ [0]) && !s.inTransaction ||
        decide (m.payload = utf8 "PREPARE" ++ [0])))) := by
  have hready : ∀ s : Server, (s.takeReady m).1.needsCleanup = s.needsCleanup := by
    intro s
    unfold takeReady
    repeat' split
    all_goals rfl
  have hcommand : ∀ s : Server, (s.takeCommand m).needsCleanup = (s.needsCleanup ||
      (decide (m.payload = utf8 "SET" ++ [0]) && !s.inTransaction ||
        decide (m.payload = utf8 "PREPARE" ++ [0]))) := by
    intro s
    have hne : utf8 "SET" ++ [0] ≠ utf8 "PREPARE" ++ [0] := by decide
    unfold takeCommand
    by_cases hset : m.payload = utf8 "SET" ++ [0]
    · cases hin : s.inTransaction with
      | true => simp [hset, hne]
      | false => simp [hset, hne]
    · by_cases hprepare : m.payload = utf8 "PREPARE" ++ [0]
      · simp [hprepare, Ne.symm hne]
      · simp [hset, hprepare]
  by_cases hc : m.backend = .commandComplete
  · simp only [take, hc, hcommand, decide_true, Bool.true_and]
  · simp only [hc, decide_false, Bool.false_and, Bool.or_false]
    unfold take
    dsimp only
    split
    · exact hready _
    · exact absurd ‹_› hc
    all_goals rfl

theorem take_target (m : Message) : (s.take m).1.target = s.target := by
  have hready : ∀ s : Server, (s.takeReady m).1.target = s.target := by
    intro s
    unfold takeReady
    repeat' split
    all_goals rfl
  have hcommand : ∀ s : Server, (s.takeCommand m).target = s.target := by
    intro s
    unfold takeCommand
    repeat' split
    all_goals rfl
  unfold take
  dsimp only
  split
  · exact hready _
  · exact hcommand _
  all_goals rfl

end Server

def markBad : Program Unit :=
  modifyServer fun s => { s with bad := true }

def markDirty : Program Unit :=
  modifyServer fun s => { s with needsCleanup := true }

/-! ## Sending -/

/-- The server takes one message and queues its reply. -/
def Conn.push (c : Conn) (m : Message) (reply : List Message) : Conn :=
  { c with
    backend := c.backend.bind fun b => b.react m reply
    unread := c.unread ++ reply }

def deliverOne (fromClient : Bool) (m : Message) (reply : List Message) : Program Unit :=
  modify fun w => { w with
    conn := w.conn.push m reply
    trace := .sent w.conn m reply fromClient :: w.trace }

def deliver (fromClient : Bool) : List Message → List (List Message) → Program Unit
  | m :: ms, reply :: replies => do
    deliverOne fromClient m reply
    deliver fromClient ms replies
  | _, _ => pure ()

def send (timed fromClient : Bool) (messages : List Message) : Program Unit := do
  match ← next with
  | .sent replies =>
    if replies.length = messages.length then deliver fromClient messages replies
    else throw .pending
  | .sendFailed => do
    markBad
    throw (.failed .socketError)
  | .elapsed => throw (if timed then .elapsed else .pending)
  | _ => throw .pending

/-! ## Receiving -/

/-- The connection after `recv` has read and processed a message. -/
def Conn.taken (c : Conn) (m : Message) (rest : List Message) : Conn :=
  { c with
    server := (c.server.take m).1
    unread := rest
    lastRead := some m
    lastReady := m.readyStatus.getD c.lastReady }

/-- Take the next message off the connection and let the loop body of `recv` process it. -/
def absorb : Program After := fun w =>
  match w.conn.unread with
  | [] => .error .pending w
  | m :: rest =>
    .ok (w.conn.server.take m).2 { w with
      conn := w.conn.taken m rest
      trace := .received w.conn m :: w.trace }

/-- `read_message` on the server socket, and the message it returns. -/
def readServer (timed : Bool) : Program After := do
  match ← next with
  | .arrives => absorb
  | .readFailed => do
    markBad
    throw (.failed .socketError)
  | .elapsed => throw (if timed then .elapsed else .pending)
  | _ => throw .pending

def takeBuffer : Program (List Message) := fun w =>
  .ok w.conn.server.buffer
    { w with conn := { w.conn with server := { w.conn.server with buffer := [] } } }

def recvTurn (timed : Bool) : Program (Unit ⊕ List Message) := do
  match ← readServer timed with
  | .more => pure (.inl ())
  | .done => do
    let bytes ← takeBuffer
    pure (.inr bytes)
  | .failed e => throw (.failed e)
  | .panicked => throw .panicked

/-- Receive data from the server in response to a client request. -/
def recv (fuel : Nat) (timed : Bool) : Program (List Message) :=
  repeatUntil .pending fuel (fun _ => recvTurn timed) ()

def isDataAvailable : Program Bool := do
  let w ← get
  pure w.conn.server.dataAvailable

def inTransaction : Program Bool := do
  let w ← get
  pure w.conn.server.inTransaction

/-! ## Queries of the pooler itself -/

def queryTurn (fuel : Nat) (timed : Bool) : Program (Unit ⊕ Unit) := do
  let _ ← recv fuel timed
  if ← isDataAvailable then pure (.inl ()) else pure (.inr ())

def query (fuel : Nat) (timed : Bool) (text : String) : Program Unit := do
  send timed false [simpleQuery text]
  repeatUntil .pending fuel (fun _ => queryTurn fuel timed) ()

def rollback (fuel : Nat) : Program Unit := do
  query fuel false "ROLLBACK"
  emitConn .rolledBack

def discardAll (fuel : Nat) : Program Unit := do
  query fuel false "DISCARD ALL"
  emitConn .discarded
  modifyServer fun s => { s with needsCleanup := false }

def needsCleanup : Program Bool := do
  let w ← get
  pure w.conn.server.needsCleanup

/-- Perform any necessary cleanup before putting the server connection back in the pool. -/
def checkinCleanup (fuel : Nat) : Program Unit := do
  let opened ← inTransaction
  runIf opened (rollback fuel)
  let dirty ← needsCleanup
  runIf dirty (discardAll fuel)
  emitConn .cleanedUp

/-- Set the name on the server; `before` is restored because this `SET` does not alter the session. -/
def rename (fuel : Nat) (name : String) (before : Bool) : Program Unit := do
  modifyServer fun s => { s with applicationName := name }
  query fuel false ("SET application_name = '" ++ name ++ "'")
  modifyServer fun s => { s with needsCleanup := before }

/-- A shorthand for `SET application_name = $1`. -/
def setName (fuel : Nat) (name : String) : Program Unit := do
  let w ← get
  if w.conn.server.applicationName = name then pure ()
  else rename fuel name w.conn.server.needsCleanup

def claim : Program Unit :=
  modify fun w => { w with
    map := Function.update w.map w.client.key (some w.conn.server.target)
    trace := .claimed w.conn :: w.trace }

end PgCat.Session
