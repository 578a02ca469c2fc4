import PgCat.Router.Comments
import PgCat.Session.Batch
import PgCat.Session.Outstanding

/-!
# Replay — what becomes of the messages of an aborted exchange

The pooler ends an exchange early with an error of its own.  When a `Sync` gets no server, the buffer is
cleared.  When the client is idle in a transaction for too long, or a `CopyDone` or `CopyFail` gets no server,
it is not, and what is left in it is sent with the next exchange, on whichever server that gets.

Where no exchange is ended early that has anything waiting, the buffer of a client that is listened to holds
what is `outstanding`, and nothing else is sent.
-/

namespace PgCat.Session

open Lib Protocol Router

/-! ## What holds of a client -/

/-- The last message was not answered with an error of the pooler that ends the exchange. -/
structure Underway (admin : Bool) (w : World) : Prop where
  isAdmin : w.client.admin = admin
  sound : (outstanding w.trace).sound = true
  aborted : aborted w.trace = false

/-- Message `m` was read.  It waits with what is in the buffer, if it is one to be buffered. -/
structure HasRead (admin : Bool) (m : Message) (w : World) : Prop extends Underway admin w where
  last : lastMessage w.trace = some m
  closed : (outstanding w.trace).closed = closesExchange m
  -- An admin client has no server, and its buffer is never cleared.
  waiting : admin = false →
    (outstanding w.trace).waiting = w.client.buffer ++ if isBuffered m then [m] else []

/-- What is about to be sent is what waits. -/
structure Sending (ms : List Message) (w : World) : Prop extends Underway false w where
  waiting : (outstanding w.trace).waiting = ms.filter isBuffered

/-- The client is listened to, and its buffer holds what is left of its exchange. -/
structure Listening (admin : Bool) (w : World) : Prop where
  isAdmin : w.client.admin = admin
  sound : (outstanding w.trace).sound = true
  aborted : admin = true → aborted w.trace = false
  buffer : admin = false → w.client.buffer = (outstanding w.trace).unsent

/-- Nothing was sent that was not waiting, and an aborted exchange leaves nothing in the buffer. -/
structure NotReplayed (w : World) : Prop where
  sound : (outstanding w.trace).sound = true
  buffer : aborted w.trace = true → w.client.buffer = []

section Instances

variable {admin : Bool} {m : Message} {ms : List Message} {w w' : World}

theorem Underway.notReplayed (h : Underway admin w) : NotReplayed w := by
  refine ⟨h.sound, fun haborted => ?_⟩
  rw [h.aborted] at haborted
  cases haborted

theorem Listening.notReplayed (h : Listening admin w) : NotReplayed w := by
  refine ⟨h.sound, fun haborted => ?_⟩
  cases admin with
  | true =>
    rw [h.aborted rfl] at haborted
    cases haborted
  | false =>
    rw [h.buffer rfl]
    exact unsent_of_aborted haborted

theorem Underway.step (h : Recorded [] w w') (hw : Underway admin w) : Underway admin w' := by
  refine ⟨h.admin.trans hw.isAdmin, ?_, h.aborted.trans hw.aborted⟩
  rw [h.outstanding]
  exact hw.sound

/-- Properties that steps without a record keep, and that may hold when the run stops. -/
class Lasting (P : World → Prop) : Prop where
  step : ∀ w w', Recorded [] w w' → P w → P w'
  notReplayed : ∀ w, P w → NotReplayed w

instance : Lasting NotReplayed where
  step w w' h hw := by
    constructor
    · rw [h.outstanding]
      exact hw.sound
    · rw [h.aborted, h.buffer]
      exact hw.buffer
  notReplayed _ hw := hw

instance : Lasting (Underway admin) where
  step _ _ h hw := hw.step h
  notReplayed _ hw := hw.notReplayed

instance : Lasting (HasRead admin m) where
  step w w' h hw := by
    refine ⟨hw.toUnderway.step h, h.last.trans hw.last, ?_, ?_⟩
    · rw [h.outstanding]
      exact hw.closed
    · rw [h.outstanding, h.buffer]
      exact hw.waiting
  notReplayed _ hw := hw.notReplayed

instance : Lasting (Sending ms) where
  step w w' h hw := by
    refine ⟨hw.toUnderway.step h, ?_⟩
    rw [h.outstanding]
    exact hw.waiting
  notReplayed _ hw := hw.notReplayed

instance : Lasting (Listening admin) where
  step w w' h hw := by
    refine ⟨h.admin.trans hw.isAdmin, ?_, ?_, ?_⟩
    · rw [h.outstanding]
      exact hw.sound
    · rw [h.aborted]
      exact hw.aborted
    · rw [h.buffer, h.outstanding]
      exact hw.buffer
  notReplayed _ hw := hw.notReplayed

end Instances

/-! ## Reading, sending and answering -/

theorem Outstanding.send_all : ∀ (ms : List Message) (o : Outstanding), o.waiting = ms.filter isBuffered →
    ms.foldl Outstanding.send o = { o with waiting := [] } := by
  intro ms
  induction ms with
  | nil =>
    rintro ⟨waiting, closed, sound⟩ (rfl : waiting = [])
    rfl
  | cons m ms ih =>
    intro o h
    rw [List.foldl_cons]
    cases hm : isBuffered m with
    | false =>
      rw [List.filter_cons_of_neg (by simp [hm])] at h
      have hsend : o.send m = o := by simp [send, hm]
      rw [hsend]
      exact ih o h
    | true =>
      rw [List.filter_cons_of_pos hm] at h
      have hsend : o.send m = { o with waiting := ms.filter isBuffered } := by simp [send, hm, h]
      rw [hsend]
      exact ih _ rfl

section Records

variable {admin ok : Bool} {m : Message} {ms : List Message} {w w' : World}

theorem closesExchange_of_isBuffered (hm : isBuffered m = true) : closesExchange m = false := by
  unfold isBuffered at hm
  unfold closesExchange
  cases hf : m.frontend with
  | sync | copyDone | copyFail => simp [hf] at hm
  | _ => rfl

theorem Listening.read (hw : Listening admin w) (hclient : w'.client = w.client)
    (htrace : w'.trace = .message m :: w.trace) : HasRead admin m w' := by
  refine ⟨⟨?_, ?_, ?_⟩, ?_, ?_, fun hadmin => ?_⟩
  · rw [hclient]
    exact hw.isAdmin
  · rw [htrace]
    exact hw.sound
  · rw [htrace]
    rfl
  · rw [htrace]
    rfl
  · rw [htrace]
    rfl
  · rw [hclient, htrace, hw.buffer hadmin]
    rfl

theorem HasRead.listening (hw : HasRead admin m w) (hm : isBuffered m = false)
    (hopen : closesExchange m = false) : Listening admin w := by
  refine ⟨hw.isAdmin, hw.sound, fun _ => hw.aborted, fun hadmin => ?_⟩
  have hwaiting : (outstanding w.trace).waiting = w.client.buffer := by simpa [hm] using hw.waiting hadmin
  rw [Outstanding.unsent, hw.closed, hopen, hwaiting]
  rfl

theorem HasRead.buffered (hw : HasRead admin m w) (hm : isBuffered m = true) :
    Listening admin (w.buffered m) := by
  refine ⟨hw.isAdmin, hw.sound, fun _ => hw.aborted, fun hadmin => ?_⟩
  have hwaiting : (outstanding w.trace).waiting = w.client.buffer ++ [m] := by
    simpa [hm] using hw.waiting hadmin
  change w.client.buffer ++ [m] = (outstanding w.trace).unsent
  rw [Outstanding.unsent, hw.closed, closesExchange_of_isBuffered hm, hwaiting]
  rfl

theorem HasRead.sending (hw : HasRead false m w) : Sending (w.client.buffer ++ [m]) (w.buffered m) := by
  refine ⟨⟨hw.isAdmin, hw.sound, hw.aborted⟩, ?_⟩
  have hwaiting := hw.waiting rfl
  have hbuffer : w.client.buffer.filter isBuffered = w.client.buffer := by
    apply List.filter_eq_self.mpr
    intro m' hm'
    apply isBuffered_of_waiting w.trace
    rw [hwaiting]
    exact List.mem_append_left _ hm'
  calc (outstanding w.trace).waiting
      = w.client.buffer ++ if isBuffered m then [m] else [] := hwaiting
    _ = w.client.buffer.filter isBuffered ++ [m].filter isBuffered := by
        rw [hbuffer, List.filter_singleton, cond_eq_ite]
    _ = (w.client.buffer ++ [m]).filter isBuffered := (List.filter_append ..).symm

theorem Sending.sent (hw : Sending ms w) (h : Recorded ms w w') : Sending [] w' := by
  have hall := h.outstanding.trans (Outstanding.send_all ms _ hw.waiting)
  refine ⟨⟨h.admin.trans hw.isAdmin, ?_, h.aborted.trans hw.aborted⟩, ?_⟩
  · rw [hall]
    exact hw.sound
  · rw [hall]
    rfl

theorem Sending.cleared (hw : Sending [] w) :
    Listening false { w with client := { w.client with buffer := [] } } := by
  refine ⟨hw.isAdmin, hw.sound, fun _ => hw.aborted, fun _ => ?_⟩
  change [] = (outstanding w.trace).unsent
  have hwaiting : (outstanding w.trace).waiting = [] := hw.waiting
  rw [Outstanding.unsent, hwaiting, ite_self]

theorem HasRead.copy_refused (hw : HasRead false m w) (hcopy : m.frontend = .copyDone ∨ m.frontend = .copyFail)
    (hspared : Spared (.replied (.error "could not get connection from the pool") ok) w.trace) :
    w.client.buffer = [] := by
  have hm : isBuffered m = false := by
    unfold isBuffered
    rcases hcopy with hf | hf
    · rw [hf]
    · rw [hf]
  have hwaiting : (outstanding w.trace).waiting = w.client.buffer := by simpa [hm] using hw.waiting rfl
  rw [← hwaiting]
  apply hspared.2 rfl
  simp [hw.last, hcopy]

theorem HasRead.refused (hw : HasRead false m w) (hclient : w'.client = { w.client with
      buffer := if m.frontend = .sync then [] else w.client.buffer })
    (htrace : w'.trace = .replied (.error "could not get connection from the pool") ok :: w.trace)
    (hspared : w'.Each Spared) : Listening false w' := by
  have hwaiting := hw.waiting rfl
  have houtstanding : outstanding w'.trace =
      if isBuffered m then { outstanding w.trace with waiting := (outstanding w.trace).waiting.dropLast }
      else outstanding w.trace := by
    rw [htrace, outstanding, hw.last]
    simp [Outstanding.answer]
  refine ⟨by rw [hclient]; exact hw.isAdmin, ?_, fun h => Bool.noConfusion h, fun _ => ?_⟩
  · rw [houtstanding]
    split
    · exact hw.sound
    · exact hw.sound
  rw [hclient, houtstanding]
  dsimp only
  cases hclosed : closesExchange m with
  | false =>
    have hsync : m.frontend ≠ .sync := by
      intro h
      simp [closesExchange, h] at hclosed
    cases hm : isBuffered m with
    -- A `CopyData` is neither sent nor kept.
    | true => simp [hsync, Outstanding.unsent, hw.closed, hclosed, hwaiting, hm]
    | false => simp [hsync, Outstanding.unsent, hw.closed, hclosed, hwaiting, hm]
  | true =>
    have hm : isBuffered m = false := by
      cases hm : isBuffered m with
      | false => rfl
      | true => rw [closesExchange_of_isBuffered hm] at hclosed; cases hclosed
    have hunsent : (outstanding w.trace).unsent = [] := by simp [Outstanding.unsent, hw.closed, hclosed]
    simp only [hm, Bool.false_eq_true, if_false, hunsent]
    split
    · rfl
    · rename_i hsync
      refine hw.copy_refused ?_ (hspared _ w.trace (by rw [htrace]))
      unfold closesExchange at hclosed
      cases hf : m.frontend with
      | sync => exact absurd hf hsync
      | copyDone => exact .inl rfl
      | copyFail => exact .inr rfl
      | _ => simp [hf] at hclosed

theorem Listening.idle (hw : Listening false w) (hclient : w'.client = w.client)
    (htrace : w'.trace = .replied (.error "idle transaction timeout") ok :: w.trace)
    (hspared : w'.Each Spared) : Listening false w' := by
  have hanswer : Spared (.replied (.error "idle transaction timeout") ok) w.trace :=
    hspared _ w.trace (by rw [htrace])
  refine ⟨?_, ?_, fun h => Bool.noConfusion h, fun _ => ?_⟩
  · rw [hclient]
    exact hw.isAdmin
  · rw [htrace]
    exact hw.sound
  · rw [hclient, htrace, hw.buffer rfl, hanswer.1 rfl]
    rfl

end Records

/-! ## A client without a server -/

/-- `P` holds if no exchange was ended early that had anything waiting. -/
def Spares (P : World → Prop) (w : World) : Prop :=
  w.Each Spared → P w

section Turns

variable {α : Type} {p : Program α} {P P' : World → Prop} {admin : Bool} {m : Message} {w w' : World}

theorem Spares.mono (hw : Spares P w) (h : ∀ w, P w → P' w) : Spares P' w :=
  fun hspared => h w (hw hspared)

theorem Spares.step [Lasting P] (hw : Spares P w) (h : Recorded [] w w') : Spares P w' :=
  fun hspared => Lasting.step w w' h (hw (h.before hspared))

theorem Spares.input [Lasting P] (hw : Spares P w) (rest : List Input) : Spares P { w with script := rest } :=
  hw.step (.same rfl rfl rfl)

theorem Spares.stops [Lasting P] (hw : Spares P w) : Spares NotReplayed w :=
  hw.mono Lasting.notReplayed

/-- `p` ends in `P`, and no message was sent twice where it stops, if no exchange was ended early. -/
abbrev Leads (p : Program α) (P : World → Prop) (w : World) : Prop :=
  wp p (fun _ => Spares P) (fun _ => Spares NotReplayed) w

theorem quietly [Lasting P] (hp : Runs (Recorded []) p) (hw : Spares P w) : Leads p P w :=
  wp_mono (hp.preserves (fun _ _ h hw => Spares.step hw h) w hw) (fun _ _ h => h) (fun _ _ h => h.stops)

theorem writeClient_recorded {r : Response} [Lasting P] [Lasting P'] (hw : Spares P' w)
    (hreplied : ∀ script ok, Spares P { w with script := script, trace := .replied r ok :: w.trace }) :
    Leads (writeClient r) P w := by
  rw [Leads, writeClient, wp_bind]
  refine next_rule hw.stops fun i rest => ?_
  split
  · exact hreplied rest true
  · exact (hreplied rest false).stops
  · exact (hw.input rest).stops

theorem awaitMessage_hasRead (hw : Spares (Listening admin) w) :
    wp awaitMessage (fun read w' => read.elim (Spares (Listening admin) w') fun m => Spares (HasRead admin m) w')
      (fun _ => Spares NotReplayed) w := by
  refine awaitMessage_rule (fun _ h => h.stops) (fun _ _ rest _ _ h => h.input rest)
    (fun _ rest h => (h.input rest).stops) ?_ ?_ hw
  · exact fun _ m h hspared => (h (hspared.tail rfl)).read rfl rfl
  · intro w₁ h₁
    refine wp_seq (quietly (answer_runs rfl) h₁) ?_
    intro _ w₂ h₂
    exact wp_seq (quietly (stat_runs .disconnect) h₂) (fun _ _ h => h)

def Intake.Leaves (admin : Bool) (m : Message) : Intake → World → Prop
  | .forward, w => Spares (HasRead admin m) w ∧ m.frontend ≠ .parse
  | _, w => Spares (Listening admin) w

theorem bufferMessage_listening (hm : isBuffered m = true) (hw : Spares (HasRead admin m) w) :
    Leads (bufferMessage m) (Listening admin) w :=
  fun hspared => (hw hspared).buffered hm

variable (fuel : Nat) (ext : Externals)

theorem intake_leaves (hw : Spares (HasRead admin m) w) :
    wp (intake ext m) (Intake.Leaves admin m) (fun _ => Spares NotReplayed) w := by
  have hbuffer : isBuffered m = true → Leads (bufferMessage m) (Listening admin) w :=
    fun hm => bufferMessage_listening hm hw
  unfold intake
  cases hf : m.frontend with
  | parse | bind =>
    dsimp only
    refine wp_seq (hbuffer (by rw [isBuffered, hf])) ?_
    intro _ w₁ h₁
    exact wp_seq (quietly (inferWith_runs m _) h₁) (fun _ _ h => h)
  | describe | execute =>
    dsimp only
    exact wp_seq (hbuffer (by rw [isBuffered, hf])) (fun _ _ h => h)
  | query =>
    dsimp only
    refine wp_seq (quietly (inferWith_runs m _) hw) ?_
    exact fun _ w₁ h₁ => ⟨h₁, by simp [hf]⟩
  -- `Terminate` is not buffered, and nothing is replayed after it.
  | terminate =>
    dsimp only
    rw [wp_bind]
    have hlistening : Spares (Listening admin) w :=
      hw.mono fun w h => h.listening (by rw [isBuffered, hf]) (by rw [closesExchange, hf])
    exact wp_imp (quietly (stat_runs .disconnect) hlistening) (fun _ _ h => h)
  | _ => exact ⟨hw, by simp [hf]⟩

theorem runCommand_query (pool : ConnectionPool) (hparse : m.frontend ≠ .parse) :
    Returns (fun taken _ => taken = true → m.frontend = .query) (runCommand ext pool m) := by
  intro w
  by_cases hquery : m.frontend = .query
  · exact wp_imp wp_true (fun _ _ _ _ => hquery)
  · unfold runCommand
    refine wp_seq wp_true ?_
    intro rand w₁ _
    rw [wp_bind, wp_get, wp_bind, QueryRouter.tryExecuteCommand_other hquery hparse]
    exact fun h => Bool.noConfusion h

theorem checkout_serves (pool : ConnectionPool) (hw : Spares (HasRead false m) w) :
    wp (checkout fuel pool m)
      (Turn.Serves (Spares (Listening false)) (Spares (Listening false)) fun m => Spares (HasRead false m))
      (fun _ => Spares NotReplayed) w := by
  unfold checkout
  refine wp_seq (quietly (stat_runs .waiting) hw) ?_
  intro _ w₁ h₁
  rw [wp_bind, wp_get]
  refine wp_seq (quietly (emitRouting_runs rfl) h₁) ?_
  intro _ w₂ h₂
  refine wp_seq (quietly (get_runs fuel pool _ _) h₂) ?_
  intro found w₃ h₃
  cases found with
  | some a => exact h₃
  | none =>
    dsimp only
    refine wp_seq (quietly (stat_runs .idle) h₃) ?_
    intro _ w₄ h₄
    -- The buffer is cleared before the client is told: until then nobody has aborted anything.
    have hclear : wp (runIf (m.frontend = .sync) clearBuffer)
        (fun _ w₅ => w₅ = { w₄ with client := { w₄.client with
          buffer := if m.frontend = .sync then [] else w₄.client.buffer } })
        (fun _ => Spares NotReplayed) w₄ := by
      unfold runIf
      split
      · rfl
      · rfl
    refine wp_seq hclear ?_
    rintro _ _ rfl
    rw [wp_bind]
    have hunderway : Spares (Underway false) { w₄ with client := { w₄.client with
        buffer := if m.frontend = .sync then [] else w₄.client.buffer } } :=
      fun hspared => ⟨(h₄ hspared).isAdmin, (h₄ hspared).sound, (h₄ hspared).aborted⟩
    refine writeClient_recorded hunderway ?_
    intro script ok hspared
    exact (h₄ (hspared.tail rfl)).refused rfl rfl hspared

/-- The same without the flag. -/
def Idle (w : World) : Prop :=
  Listening w.client.admin w

theorem Listening.toIdle (hw : Listening admin w) : Idle w := by
  obtain rfl := hw.isAdmin
  exact hw

instance : Lasting Idle where
  step w w' h hw := (Lasting.step w w' h hw : Listening w.client.admin w').toIdle
  notReplayed _ hw := hw.notReplayed

/-- The turn leaves the client listened to, or with a server for the message. -/
abbrev Turn.Served : Turn → World → Prop :=
  Turn.Serves (Spares Idle) (Spares Idle) fun m => Spares (HasRead false m)

theorem forward_serves (hparse : m.frontend ≠ .parse) (hw : Spares (HasRead admin m) w) :
    wp (forward fuel ext m) Turn.Served (fun _ => Spares NotReplayed) w := by
  change wp (if w.client.admin = true then _ else _) _ _ w
  rw [wp_ite]
  constructor
  · intro hadmin
    have hidle : Spares Idle w := by
      intro hspared
      have hm := hw hspared
      refine ⟨rfl, hm.sound, fun _ => hm.aborted, fun hno => ?_⟩
      rw [hadmin] at hno
      cases hno
    exact wp_seq (quietly handleAdmin_runs hidle) (fun _ _ h => h)
  · intro hadmin
    have hserving : Spares (HasRead false m) w := by
      intro hspared
      have hm := hw hspared
      obtain rfl : admin = false := hm.isAdmin.symm.trans (Bool.eq_false_iff.mpr hadmin)
      exact hm
    refine wp_seq (quietly currentPool_runs hserving) ?_
    intro pool w₁ h₁
    refine wp_seq (quietly (updateSettings_runs m pool) h₁) ?_
    intro _ w₂ h₂
    rw [wp_bind]
    refine wp_mono (wp_and (quietly (runCommand_runs ext pool m) h₂) (runCommand_query ext pool hparse w₂)) ?_
      (fun _ _ h => h.1)
    rintro taken w₃ ⟨h₃, hquery⟩
    cases taken with
    -- Only a simple query is taken by the pooler, so that nothing of a batch is lost.
    | true =>
      have hf := hquery rfl
      exact h₃.mono fun w h => (h.listening (by rw [isBuffered, hf]) (by rw [closesExchange, hf])).toIdle
    | false =>
      refine wp_imp (checkout_serves fuel pool h₃) ?_
      intro turn w₄ h₄
      cases turn with
      | serve pool a m' => exact h₄
      | _ => exact Spares.mono h₄ fun _ h => h.toIdle

theorem route_serves_waiting (hw : Spares Idle w) :
    wp (route fuel ext) Turn.Served (fun _ => Spares NotReplayed) w := by
  rw [route]
  refine wp_seq (awaitMessage_hasRead hw) ?_
  intro read w₁ h₁
  cases read with
  | none => exact Spares.mono h₁ fun _ h => h.toIdle
  | some m =>
    dsimp only
    refine wp_seq (intake_leaves ext h₁) ?_
    intro i w₂ h₂
    cases i with
    | forward => exact forward_serves fuel ext h₂.2 h₂.1
    | _ => exact Spares.mono h₂ fun _ h => h.toIdle

end Turns

/-! ## A client with a server -/

section Serving

variable {P : World → Prop} {m : Message} {ms : List Message} {w : World}

variable (fuel : Nat) (pool : ConnectionPool) (a : Address)

theorem sendServerMessage_sending (hw : Spares (Sending ms) w) :
    Leads (sendServerMessage a ms) (Sending []) w := by
  refine wp_mono (sendServerMessage_recorded a ms w) ?_ ?_
  · exact fun _ w' h hspared => (hw (h.before hspared)).sent h
  · exact fun _ w' h => (hw.step h).stops

theorem sendAndReceiveLoop_rule [Lasting P] (hsend : Leads (sendServerMessage a ms) P w) :
    Leads (sendAndReceiveLoop fuel pool a ms) P w := by
  rw [sendAndReceiveLoop]
  exact wp_seq hsend (fun _ _ h => quietly (receiveReplies_runs fuel pool a) h)

theorem clearBuffer_listening (hw : Spares (Sending []) w) : Leads clearBuffer (Listening false) w :=
  fun hspared => (hw hspared).cleared

theorem handleQuery_listening (hf : m.frontend = .query) (hw : Spares (HasRead false m) w) :
    Leads (sendAndReceiveLoop fuel pool a [m]) (Listening false) w := by
  have hm : isBuffered m = false := by rw [isBuffered, hf]
  have hlistening : Spares (Listening false) w :=
    hw.mono fun _ h => h.listening hm (by rw [closesExchange, hf])
  refine sendAndReceiveLoop_rule fuel pool a ?_
  refine wp_mono (sendServerMessage_recorded a [m] w) ?_ (fun _ _ h => (hw.step h).stops)
  exact fun _ w' h => hlistening.step (h.of_other hm)

theorem bufferMessage_sending (hw : Spares (HasRead false m) w) :
    Spares (Sending (w.client.buffer ++ [m])) (w.buffered m) :=
  fun hspared => HasRead.sending (hw hspared)

theorem handleSync_listening (hw : Spares (HasRead false m) w) :
    Leads (handleSync fuel pool a m) (Listening false) w := by
  change wp (do
    runIf (startsNamed (w.client.buffer ++ [m])) markDirty
    sendAndReceiveLoop fuel pool a (w.client.buffer ++ [m])
    clearBuffer
    leaveIfOver false) _ _ (w.buffered m)
  refine wp_seq (quietly (runIf_runs _ markDirty_runs) (bufferMessage_sending hw)) ?_
  intro _ w₁ h₁
  refine wp_seq (sendAndReceiveLoop_rule fuel pool a (sendServerMessage_sending a h₁)) ?_
  intro _ w₂ h₂
  exact wp_seq (clearBuffer_listening h₂) (fun _ _ h => quietly (leaveIfOver_runs false) h)

theorem handleCopyData_listening (hf : m.frontend = .copyData) (hw : Spares (HasRead false m) w) :
    Leads (handleCopyData a m) (Listening false) w := by
  change wp (do
    runIf (chunkSize < bufferSize (w.client.buffer ++ [m])) (do
      sendServerMessage a (w.client.buffer ++ [m])
      clearBuffer)
    pure none) _ _ (w.buffered m)
  rw [wp_bind]
  unfold runIf
  split
  · refine wp_seq (sendServerMessage_sending a (bufferMessage_sending hw)) ?_
    exact fun _ w₁ h₁ => clearBuffer_listening h₁
  · exact fun hspared => HasRead.buffered (hw hspared) (by rw [isBuffered, hf])

theorem handleCopyEnd_listening (hw : Spares (HasRead false m) w) :
    Leads (handleCopyEnd fuel pool a m) (Listening false) w := by
  change wp (do
    sendServerMessage a (w.client.buffer ++ [m])
    clearBuffer
    forwardReply fuel pool a
    leaveIfOver false) _ _ (w.buffered m)
  refine wp_seq (sendServerMessage_sending a (bufferMessage_sending hw)) ?_
  intro _ w₁ h₁
  refine wp_seq (clearBuffer_listening h₁) ?_
  intro _ w₂ h₂
  exact quietly ((forwardReply_runs fuel pool a).seq fun _ => leaveIfOver_runs false) h₂

theorem dispatch_listening (hw : Spares (HasRead false m) w) :
    Leads (dispatch fuel pool a m) (Listening false) w := by
  have hbuffer : isBuffered m = true →
      wp (do bufferMessage m; pure none) (fun (_ : Option Exit) => Spares (Listening false))
        (fun _ => Spares NotReplayed) w := by
    intro hm
    exact wp_seq (bufferMessage_listening hm hw) (fun _ _ h => h)
  unfold dispatch
  cases hf : m.frontend with
  | query =>
    dsimp only
    refine wp_seq (handleQuery_listening fuel pool a hf hw) ?_
    exact fun _ _ h => quietly (leaveIfOver_runs true) h
  | terminate =>
    refine quietly (handleTerminate_runs fuel) (hw.mono fun _ h => h.listening ?_ ?_)
    · rw [isBuffered, hf]
    · rw [closesExchange, hf]
  | parse | bind | describe | execute => exact hbuffer (by rw [isBuffered, hf])
  | sync => exact handleSync_listening fuel pool a hw
  | copyData => exact handleCopyData_listening a hf hw
  | copyDone | copyFail => exact handleCopyEnd_listening fuel pool a hw
  | other =>
    refine hw.mono fun _ h => h.listening ?_ ?_
    · rw [isBuffered, hf]
    · rw [closesExchange, hf]

theorem awaitInTransaction_hasRead (idleTimeout : Nat) (hw : Spares (Listening false) w) :
    wp (awaitInTransaction fuel idleTimeout)
      (fun read w' => read.elim (Spares (Listening false) w') fun m => Spares (HasRead false m) w')
      (fun _ => Spares NotReplayed) w := by
  rw [awaitInTransaction, wp_bind]
  refine next_rule hw.stops fun i rest => ?_
  have hrest := hw.input rest
  split
  · exact fun hspared => Listening.read (hrest (hspared.tail rfl)) rfl rfl
  · have hgone : Runs (Recorded []) (do
        stat .disconnect
        checkinCleanup fuel
        throw (.failed .socketError) : Program (Option Message)) :=
      (stat_runs .disconnect).seq fun _ => (checkinCleanup_runs fuel).seq fun _ => .ofThrow _
    have hthrows : Returns (fun _ _ => False) (do
        stat .disconnect
        checkinCleanup fuel
        throw (.failed .socketError) : Program (Option Message)) :=
      .seq fun _ => .seq fun _ => .ofThrow _
    exact wp_mono (wp_and (quietly hgone hrest) (hthrows _)) (fun _ _ h => h.2.elim) (fun _ _ h => h.1)
  · rw [wp_ite]
    refine ⟨fun _ => hrest.stops, fun _ => ?_⟩
    rw [wp_bind]
    refine writeClient_recorded hrest ?_
    exact fun script ok hspared => Listening.idle (hrest (hspared.tail rfl)) rfl rfl hspared
  · exact hrest.stops

theorem serve_listening (hw : Spares (HasRead false m) w) :
    wp (serve fuel pool a m) (fun fin w' => if fin then Spares Idle w' else Spares Idle w')
      (fun _ => Spares NotReplayed) w := by
  have hheld : Leads (serveHeld fuel pool a m) (Listening false) w := by
    refine serveHeld_rule (I := Spares (Listening false)) (J := fun m => Spares (HasRead false m))
      (Q := fun _ => Spares (Listening false)) ?_ ?_ ?_ ?_ ?_ ?_ ?_
    · exact quietly (assign_runs fuel a) hw
    · exact fun w₁ h₁ => quietly idleTimeoutSetting_runs h₁
    · exact fun idleTimeout w₁ h₁ => awaitInTransaction_hasRead fuel idleTimeout h₁
    · intro m' w₁ h₁
      refine wp_imp (dispatch_listening fuel pool a h₁) ?_
      intro exit w₂ h₂
      cases exit with
      | none => exact h₂
      | some exit => exact h₂
    · exact fun _ _ h => h.stops
    · exact fun _ h => h.stops
    · intro exit w₁ h₁
      exact quietly (checkin_runs fuel exit) (h₁.step (.event rfl rfl rfl))
  have hdropped : ∀ (exit : Exit) (w' : World), Recorded [] w' (w'.dropped exit) :=
    fun _ _ => .event rfl rfl rfl
  refine serve_rule hheld ?_ ?_ ?_ ?_ ?_
  · exact fun exit w' h _ => (h.step (hdropped exit w')).mono fun _ h => h.toIdle
  · exact fun w' h => (h.step (hdropped .finished w')).mono fun _ h => h.toIdle
  · exact fun _ h => h
  · exact fun w' h => h.step (hdropped .panicked w')
  · exact fun stop w' h _ _ => h.step (hdropped .failed w')

end Serving

/-! ## Sessions -/

/-- In every run in which no exchange is ended early that has anything waiting, a buffered message reaches a
server at most once, in its own exchange, and an aborted exchange leaves an empty buffer. -/
theorem batches_not_replayed (fuel : Nat) (ext : Externals) (client : Client) (map : ClientServerMap)
    (script : List Input) (hbuffer : client.buffer = [])
    (hspared : (final (handle fuel ext) (.start client map script)).Each Spared) :
    (outstanding (final (handle fuel ext) (.start client map script)).trace).sound = true ∧
      (aborted (final (handle fuel ext) (.start client map script)).trace = true →
        (final (handle fuel ext) (.start client map script)).client.buffer = []) := by
  have hstart : Spares Idle (.start client map script) :=
    fun _ => ⟨rfl, rfl, fun _ => rfl, fun _ => hbuffer⟩
  have hrun : wp (handle fuel ext) (fun _ => Spares NotReplayed) (fun _ => Spares NotReplayed)
      (.start client map script) := by
    have hroute : ∀ w, Spares Idle w →
        wp (route fuel ext) Turn.Served (fun _ => Spares NotReplayed) w :=
      fun w hw => route_serves_waiting fuel ext hw
    refine wp_imp (handle_serves fuel ext (fun _ h => h.stops) hroute ?_ _ ?_ ?_) (fun _ _ h => h.stops)
    · exact fun pool a m w hw => serve_listening fuel pool a hw
    · exact fun _ => quietly cancelQuery_runs hstart
    · exact hstart.step (.event rfl rfl rfl)
  have hfinal := final_of_wp hrun hspared
  exact ⟨hfinal.sound, hfinal.buffer⟩

/-- The condition as a check of one event. -/
def isSpared : Event → List Event → Bool
  | .replied (.error text) _, t =>
    (text != "idle transaction timeout" || (outstanding t).unsent.isEmpty) &&
      (text != "could not get connection from the pool" ||
        !((lastMessage t).any fun m => m.frontend = .copyDone ∨ m.frontend = .copyFail) ||
        (outstanding t).waiting.isEmpty)
  | _, _ => true

theorem isSpared_iff {e : Event} {t : List Event} : isSpared e t = true ↔ Spared e t := by
  cases e with
  | replied r ok =>
    cases r with
    | error text =>
      simp only [isSpared, Spared, Bool.and_eq_true, Bool.or_eq_true, Bool.not_eq_true', bne_iff_ne,
        List.isEmpty_iff, ne_eq, ← Bool.not_eq_true]
      tauto
    | _ => exact iff_of_true rfl trivial
  | _ => exact iff_of_true rfl trivial

instance (e : Event) (t : List Event) : Decidable (Spared e t) :=
  decidable_of_iff _ isSpared_iff

theorem World.each_of_tails {w : World}
    (h : ∀ t ∈ w.trace.tails, ∀ e ∈ t.head?, Spared e t.tail) : w.Each Spared :=
  fun e t hsuffix => h (e :: t) ((List.mem_tails _ _).mpr hsuffix) e rfl

namespace Sample

def refusedBatch : List Input :=
  [.client (parseMessage "SELECT 1"), .client syncMessage, .pool (some pool), .random 0, .order [address],
    .candidate .refused, .clientWrite true]

theorem refused_batch_gone :
    aborted (run refusedBatch).trace = true ∧ (outstanding (run refusedBatch).trace).sound = true ∧
      (aborted (run refusedBatch).trace = true → (run refusedBatch).client.buffer = []) := by
  have hspared : (run refusedBatch).Each Spared := World.each_of_tails (by decide +kernel)
  refine ⟨by decide +kernel, ?_⟩
  unfold run at hspared ⊢
  exact batches_not_replayed 4 externals client (fun _ => none) refusedBatch rfl hspared

/-- The client is idle for too long after a `Parse` in a transaction on connection 1. -/
def idleBatch : List Input :=
  checkout (simpleQuery "BEGIN") (conn 1) ++ exchange [complete "BEGIN", ready 'T'] ++
    [.client (parseMessage "SELECT 1"), .idleTimeout, .clientWrite true,
      .sent [[complete "ROLLBACK", ready 'I']], .arrives, .arrives]

/-- The `Parse` stays in the buffer and is sent to connection 2 with the next `Sync`. -/
theorem idle_batch_replayed :
    client.buffer = [] ∧ aborted (run idleBatch).trace = true ∧
      (run idleBatch).client.buffer = [parseMessage "SELECT 1"] ∧
      (outstanding (run (idleBatch ++ checkout syncMessage (conn 2) ++ [.sent [[], [ready 'I']]])).trace).sound = false ∧
      ((run (idleBatch ++ checkout syncMessage (conn 2) ++ [.sent [[], [ready 'I']]])).trace.filterMap fun
        | .sent c m _ true => some (c.id, m.frontend)
        | _ => none) = [(2, .sync), (2, .parse), (1, .query)] := by
  decide +kernel

end Sample

end PgCat.Session
