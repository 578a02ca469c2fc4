import PgCat.Session.Turns

/-!
# Outstanding — the messages of an exchange that were not sent yet

`Parse`, `Bind`, `Describe`, `Execute` and `CopyData` wait in `Client.buffer` until a `Sync`, `CopyDone` or
`CopyFail` closes their exchange.  `outstanding` says of a trace which of them may still be sent: those read
since the last exchange was closed or given up, and not sent yet.  It does not look at the buffer.

`Recorded ms` is what is left of a step for this account: the messages `ms` were passed on.  The steps between
two messages of the client are steps of `Recorded []`.
-/

namespace PgCat.Session

open Lib Protocol Router

/-! ## Reading a trace -/

def isBuffered (m : Message) : Bool :=
  match m.frontend with
  | .parse | .bind | .describe | .execute | .copyData => true
  | _ => false

def closesExchange (m : Message) : Bool :=
  match m.frontend with
  | .sync | .copyDone | .copyFail => true
  | _ => false

/-- What a client has under way. -/
structure Outstanding where
  /-- The buffered messages of the exchange that were read and not sent. -/
  waiting : List Message
  /-- The message that closes the exchange was read. -/
  closed : Bool
  /-- Every buffered message that was sent was waiting then. -/
  sound : Bool
  deriving DecidableEq, Repr

namespace Outstanding

/-- What is left for the next message: nothing, if the exchange was closed. -/
def unsent (o : Outstanding) : List Message :=
  if o.closed then [] else o.waiting

def read (o : Outstanding) (m : Message) : Outstanding :=
  { o with
    waiting := o.unsent ++ if isBuffered m then [m] else []
    closed := closesExchange m }

def send (o : Outstanding) (m : Message) : Outstanding :=
  if isBuffered m then
    match o.waiting with
    | m' :: rest => if m' = m then { o with waiting := rest } else { o with sound := false }
    | [] => { o with sound := false }
  else o

/-- The pooler has answered with an error; `last` is the message it has read last. -/
def answer (o : Outstanding) (last : Option Message) (text : String) : Outstanding :=
  if text = "idle transaction timeout" then { o with waiting := [], closed := false }
  -- A `CopyData` that gets no server is not kept.
  else if text = "could not get connection from the pool" ∧ last.any isBuffered then
    { o with waiting := o.waiting.dropLast }
  else o

section Lemmas

variable {o : Outstanding} {m : Message} {last : Option Message} {text : String}

theorem send_waiting (o : Outstanding) (m : Message) : (o.send m).waiting <:+ o.waiting := by
  unfold send
  split
  · split
    · rename_i m' rest hwaiting
      split
      · exact hwaiting ▸ List.suffix_cons m' rest
      · exact List.suffix_refl _
    · exact List.suffix_refl _
  · exact List.suffix_refl _

theorem send_closed (o : Outstanding) (m : Message) : (o.send m).closed = o.closed := by
  unfold send
  repeat' split
  all_goals rfl

theorem answer_waiting (o : Outstanding) (last : Option Message) (text : String) :
    (o.answer last text).waiting <+: o.waiting := by
  unfold answer
  split
  · exact List.nil_prefix
  · split
    · exact List.dropLast_prefix _
    · exact List.prefix_refl _

theorem unsent_send (h : o.unsent = []) : (o.send m).unsent = [] := by
  unfold unsent at h ⊢
  rw [send_closed]
  split
  · rfl
  · rename_i hclosed
    rw [if_neg hclosed] at h
    have hsuffix := send_waiting o m
    rw [h] at hsuffix
    exact List.suffix_nil.mp hsuffix

theorem unsent_answer (h : o.unsent = []) : (o.answer last text).unsent = [] := by
  unfold answer
  split
  · rfl
  · split
    · unfold unsent at h ⊢
      dsimp only
      split
      · rfl
      · rename_i hclosed
        rw [if_neg hclosed] at h
        rw [h]
        rfl
    · exact h

end Lemmas

end Outstanding

def outstanding : List Event → Outstanding
  | [] => ⟨[], false, true⟩
  | .message m :: t => (outstanding t).read m
  | .sent _ m _ true :: t => (outstanding t).send m
  | .replied (.error text) _ :: t => (outstanding t).answer (lastMessage t) text
  | _ :: t => outstanding t

/-- An answer that ends an exchange finds nothing that waits: an idle timeout, or the refusal of a
`CopyDone` or `CopyFail`. -/
def Spared : Event → List Event → Prop
  | .replied (.error text) _, t =>
    (text = "idle transaction timeout" → (outstanding t).unsent = []) ∧
    (text = "could not get connection from the pool" →
      ((lastMessage t).any fun m => m.frontend = .copyDone ∨ m.frontend = .copyFail) = true →
      (outstanding t).waiting = [])
  | _, _ => True

/-- The client was idle for too long in a transaction, or its `Sync` got no server, and has sent nothing
since it was told so. -/
def aborted : List Event → Bool
  | [] => false
  | .message _ :: _ => false
  | .replied (.error text) _ :: t =>
    text = "idle transaction timeout" ||
      (text = "could not get connection from the pool" &&
        (lastMessage t).any fun m => m.frontend = .sync) ||
      aborted t
  | _ :: t => aborted t

def Event.isEntry : Event → Bool
  | .message _ | .sent _ _ _ true => true
  | .replied r _ => r.endsEarly
  | _ => false

section Traces

variable {e : Event} {t : List Event}

theorem isEntry_error {text : String} {ok : Bool} (he : (Event.replied (.error text) ok).isEntry = false) :
    text ≠ "idle transaction timeout" ∧ text ≠ "could not get connection from the pool" := by
  simpa [Event.isEntry, Response.endsEarly] using he

theorem outstanding_other (he : e.isEntry = false) : outstanding (e :: t) = outstanding t := by
  cases e with
  | message m => cases he
  | sent c m reply fromClient =>
    cases fromClient with
    | true => cases he
    | false => rfl
  | replied r ok =>
    cases r with
    | error text => simp [outstanding, Outstanding.answer, isEntry_error he]
    | _ => rfl
  | _ => rfl

theorem aborted_other (he : e.isEntry = false) : aborted (e :: t) = aborted t := by
  cases e with
  | message m => cases he
  | replied r ok =>
    cases r with
    | error text => simp [aborted, isEntry_error he]
    | _ => rfl
  | _ => rfl

theorem lastMessage_other (he : e.isEntry = false) : lastMessage (e :: t) = lastMessage t := by
  refine lastMessage_cons ?_
  rintro m rfl
  cases he

theorem isBuffered_of_waiting (t : List Event) : ∀ m ∈ (outstanding t).waiting, isBuffered m = true := by
  induction t with
  | nil => exact fun m hm => absurd hm List.not_mem_nil
  | cons e t ih =>
    cases e with
    | message m =>
      intro m' hm'
      rcases List.mem_append.mp hm' with hold | hnew
      · refine ih m' ?_
        unfold Outstanding.unsent at hold
        split at hold
        · cases hold
        · exact hold
      · split at hnew
        · rename_i hm
          exact List.mem_singleton.mp hnew ▸ hm
        · cases hnew
    | sent c m reply fromClient =>
      cases fromClient with
      | true => exact fun m' hm' => ih m' ((Outstanding.send_waiting _ m).subset hm')
      | false => exact ih
    | replied r ok =>
      cases r with
      | error text => exact fun m' hm' => ih m' ((Outstanding.answer_waiting _ _ text).subset hm')
      | _ => exact ih
    | _ => exact ih

theorem unsent_of_closed {m : Message} (hm : closesExchange m = true) (h : lastMessage t = some m) :
    (outstanding t).unsent = [] := by
  induction t with
  | nil => cases h
  | cons e t ih =>
    cases e with
    | message m' =>
      obtain rfl : m' = m := Option.some.inj h
      exact if_pos hm
    | sent c m' reply fromClient =>
      cases fromClient with
      | true => exact Outstanding.unsent_send (ih h)
      | false => exact ih h
    | replied r ok =>
      cases r with
      | error text => exact Outstanding.unsent_answer (ih h)
      | _ => exact ih h
    | _ => exact ih h

theorem unsent_of_aborted (h : aborted t = true) : (outstanding t).unsent = [] := by
  induction t with
  | nil => cases h
  | cons e t ih =>
    cases e with
    | message m => cases h
    | sent c m reply fromClient =>
      cases fromClient with
      | true => exact Outstanding.unsent_send (ih h)
      | false => exact ih h
    | replied r ok =>
      cases r with
      | error text =>
        simp only [aborted, Bool.or_eq_true, Bool.and_eq_true, decide_eq_true_eq] at h
        rcases h with (htimeout | ⟨-, hsync⟩) | hbefore
        · rw [outstanding, Outstanding.answer, if_pos htimeout]
          rfl
        · obtain ⟨m, hlast, hm⟩ := Option.any_eq_true _ _ |>.mp hsync
          have hclosed : closesExchange m = true := by
            rw [closesExchange, of_decide_eq_true hm]
          exact Outstanding.unsent_answer (unsent_of_closed hclosed hlast)
        · exact Outstanding.unsent_answer (ih hbefore)
      | _ => exact ih h
    | _ => exact ih h

end Traces

/-! ## Steps and what they record -/

/-- The messages `ms` were passed on to a server.  Nothing else was recorded, and the buffer is as it was. -/
structure Recorded (ms : List Message) (w w' : World) : Prop where
  buffer : w'.client.buffer = w.client.buffer
  admin : w'.client.admin = w.client.admin
  outstanding : outstanding w'.trace = ms.foldl Outstanding.send (outstanding w.trace)
  aborted : aborted w'.trace = aborted w.trace
  last : lastMessage w'.trace = lastMessage w.trace
  before : w'.Each Spared → w.Each Spared

theorem World.Each.tail {P : Event → List Event → Prop} {w w' : World} {e : Event} (h : w'.Each P)
    (htrace : w'.trace = e :: w.trace) : w.Each P := by
  intro e' t hsuffix
  apply h e' t
  rw [htrace]
  exact hsuffix.trans (List.suffix_cons e _)

namespace Recorded

variable {ms ms' : List Message} {m : Message} {w w₁ w' : World}

theorem same (hbuffer : w'.client.buffer = w.client.buffer) (hadmin : w'.client.admin = w.client.admin)
    (htrace : w'.trace = w.trace) : Recorded [] w w' := by
  refine ⟨hbuffer, hadmin, ?_, ?_, ?_, fun h e t hsuffix => h e t (htrace ▸ hsuffix)⟩
  all_goals rw [htrace]
  rfl

theorem event {e : Event} (he : e.isEntry = false) (hclient : w'.client = w.client)
    (htrace : w'.trace = e :: w.trace) : Recorded [] w w' := by
  refine ⟨by rw [hclient], by rw [hclient], ?_, ?_, ?_, fun h => h.tail htrace⟩
  · rw [htrace, outstanding_other he]
    rfl
  · rw [htrace, aborted_other he]
  · rw [htrace, lastMessage_other he]

theorem one (hclient : w'.client = w.client) {c : Conn} {reply : List Message}
    (htrace : w'.trace = .sent c m reply true :: w.trace) : Recorded [m] w w' := by
  refine ⟨by rw [hclient], by rw [hclient], ?_, ?_, ?_, fun h => h.tail htrace⟩
  all_goals rw [htrace]
  all_goals rfl

theorem trans (h : Recorded ms w w₁) (h' : Recorded ms' w₁ w') : Recorded (ms ++ ms') w w' := by
  refine ⟨h'.buffer.trans h.buffer, h'.admin.trans h.admin, ?_, h'.aborted.trans h.aborted,
    h'.last.trans h.last, fun hw => h.before (h'.before hw)⟩
  rw [h'.outstanding, h.outstanding, List.foldl_append]

theorem of_other (hm : isBuffered m = false) (h : Recorded [m] w w') : Recorded [] w w' := by
  have hsend : (Session.outstanding w.trace).send m = Session.outstanding w.trace := by
    simp [Outstanding.send, hm]
  exact { h with outstanding := h.outstanding.trans hsend }

end Recorded

theorem Event.isEntry_of_isRemark {e : Event} (h : e.isRemark = true) : e.isEntry = false := by
  cases e with
  | replied r ok => simpa [Event.isRemark, Event.isEntry] using h
  | message m => cases h
  | sent c m reply fromClient => cases h
  | _ => rfl

instance : Blind (Recorded []) where
  input _ _ := .same rfl rfl rfl

instance : Remarks (Recorded []) where
  input _ _ _ _ _ := .same rfl rfl rfl
  remark _ _ he := .event (Event.isEntry_of_isRemark he) rfl rfl

instance : AllStats (Recorded []) where
  stat _ _ := .event rfl rfl rfl

instance : Marks (Recorded []) where
  client _ _ hsame hbuffer := .same hbuffer hsame.admin rfl

instance : Hears (Recorded []) where
  server _ _ _ := .same rfl rfl rfl
  received _ _ _ _ := .event rfl rfl rfl

instance : Sends (Recorded []) false where
  sent _ _ _ := .event rfl rfl rfl

instance : Binds (Recorded []) where
  claimed _ := .event rfl rfl rfl
  released _ := .event rfl rfl rfl

instance : Pools (Recorded []) where
  checkedOut _ _ _ := .event rfl rfl rfl
  dropped _ _ _ := .event rfl rfl rfl

instance : Routers (Recorded []) where
  router _ _ := .same rfl rfl rfl
  routing _ e he := .event (by cases e <;> first | rfl | cases he) rfl rfl

theorem sendServerMessage_recorded (a : Address) (ms : List Message) (w : World) :
    wp (sendServerMessage a ms) (fun _ => Recorded ms w) (fun _ => Recorded [] w) w := by
  have hsend : wp (send false true ms) (fun _ => Recorded ms w) (fun _ => Recorded [] w) w := by
    refine send_rule ?_ (fun _ => .same rfl rfl rfl) (fun _ => .same rfl rfl rfl) (fun _ _ => .same rfl rfl rfl)
    intro script replies hlen
    have hscript : Recorded [] w { w with script := script } := .same rfl rfl rfl
    refine wp_imp (deliver_rule (R := fun ms _ => Recorded ms) true ?_ ?_ ms replies _ hlen) ?_
    · exact fun _ => .same rfl rfl rfl
    · intro m ms reply _ w₁ w₂ h
      have hone : Recorded [m] w₁ { w₁ with
          conn := w₁.conn.push m reply
          trace := .sent w₁.conn m reply true :: w₁.trace } := .one rfl rfl
      exact hone.trans h
    · exact fun _ w' h => hscript.trans h
  refine onError_rule hsend ?_ (fun _ _ h _ => h)
  intro e w₁ h₁
  exact (ban_runs a _).preserves (fun _ _ h hw => hw.trans h) w₁ h₁

end PgCat.Session
