import PgCat.Session.Custody
import PgCat.Session.Drops

/-!
# Prepared — named statements stay with their client

A client that prepares a named statement leaves it on the connection.  On `Sync` the client loop looks
at the first message of the buffer only: if that is a `Parse` with a name the connection is marked dirty,
and `checkin_cleanup` sends `DISCARD ALL`.  `Marked` is the invariant: what was prepared and not
discarded is marked.  With the pool's custody of its connections it follows that a message of another
client comes after the `DISCARD ALL`, as long as every batch that prepares a named statement begins with
one.
-/

namespace PgCat.Session

open Lib Protocol Router

/-! ## Statement -/

/-- A `Parse` whose first field, the name of the statement, is not empty. -/
def isNamedParse (m : Message) : Bool :=
  m.frontend = .parse && m.payload.headD 0 ≠ 0

/-- Is the client waiting for its answer to `Sync`? -/
def syncing (t : List Event) : Bool :=
  (lastMessage t).any fun m => m.frontend = .sync

/-- A named statement is prepared on connection `id` as part of a batch ended by `Sync`. -/
def Event.preparesOn (id : Nat) (t : List Event) : Event → Bool
  | .sent c m _ true => c.id = id && (syncing t && isNamedParse m)
  | _ => false

/-- `DISCARD ALL` was sent on connection `id` and its answer was received. -/
def Event.discardsOn (id : Nat) : Event → Bool
  | .discarded c => c.id = id
  | _ => false

def namedSince {ι : Type} [DecidableEq ι] (i : ι) (id : Nat) : List (ι × Event) → Bool
  | [] => false
  | (j, e) :: h =>
    !e.discardsOn id && (decide (j = i) && e.preparesOn id (steps i h) || namedSince i id h)

def currentBatch (t : List Event) : List Message :=
  ((t.takeWhile Event.isForward).filterMap fun
    | .sent _ m _ _ => some m
    | _ => none).reverse

/-- If the event prepares a named statement, the first message of its batch does. -/
def Event.leads (t : List Event) : Event → Bool
  | .sent _ m _ true =>
    !(syncing t && isNamedParse m) || (currentBatch t ++ [m]).head?.any isNamedParse
  | _ => true

/-- Every batch that prepares a named statement begins with one. -/
def batchesLead : List Event → Bool
  | [] => true
  | e :: t => e.leads t && batchesLead t

def Event.reported : Event → Bool
  | .replied r ok => ok || r != .error "idle transaction timeout"
  | _ => true

/-! ## Traces -/

/-- Did the client prepare a named statement on connection `id` since it has the connection, that was not
discarded? -/
def prepared (id : Nat) : List Event → Bool
  | [] => false
  | .checkedOut _ :: _ => false
  | .dropped _ _ :: _ => false
  | e :: t => !e.discardsOn id && (e.preparesOn id t || prepared id t)

section Traces

variable {id : Nat} {e : Event} {t : List Event}

theorem preparesOn_other (he : e.isForward = false) : e.preparesOn id t = false := by
  cases e with
  | sent c m reply fromClient =>
    cases fromClient with
    | false => rfl
    | true => cases he
  | _ => rfl

theorem prepared_other (he : e.isForward = false) (h : prepared id (e :: t) = true) :
    prepared id t = true := by
  have hno : e.preparesOn id t = false := preparesOn_other he
  cases e with
  | checkedOut c => cases h
  | dropped c exit => cases h
  | _ =>
    simp only [prepared, hno, Bool.false_or, Bool.and_eq_true] at h
    exact h.2

theorem prepared_discarded {c : Conn} : prepared c.id (.discarded c :: t) = false := by
  simp [prepared, Event.discardsOn]

theorem currentBatch_other (he : e.isForward = false) : currentBatch (e :: t) = [] := by
  simp [currentBatch, he]

theorem currentBatch_sent (c : Conn) (m : Message) (reply : List Message) :
    currentBatch (.sent c m reply true :: t) = currentBatch t ++ [m] := by
  have hforward : (Event.sent c m reply true).isForward = true := rfl
  simp [currentBatch, hforward]

theorem batchesLead_suffix {t' : List Event} (h : t <:+ t') (ht' : batchesLead t' = true) :
    batchesLead t = true := by
  obtain ⟨later, rfl⟩ := h
  induction later with
  | nil => exact ht'
  | cons e later ih => exact ih (Bool.and_eq_true_iff.mp ht').2

inductive Forwards (id : Nat) : List Message → List Event → List Event → Prop
  | nil (t : List Event) : Forwards id [] t t
  | cons {c : Conn} {m : Message} {ms : List Message} {t t' : List Event} (reply : List Message)
      (hid : c.id = id) (h : Forwards id ms (.sent c m reply true :: t) t') :
      Forwards id (m :: ms) t t'

namespace Forwards

variable {ms : List Message} {t' : List Event}

theorem suffix (h : Forwards id ms t t') : t <:+ t' := by
  induction h with
  | nil t => exact List.suffix_rfl
  | cons reply _ _ ih => exact (List.suffix_cons _ _).trans ih

theorem prepared_eq (h : Forwards id ms t t') :
    prepared id t' = (prepared id t || (syncing t && ms.any isNamedParse)) := by
  induction h with
  | nil t => simp
  | @cons c m ms t t' reply hid h ih =>
    have hfirst : prepared id (.sent c m reply true :: t) =
        (syncing t && isNamedParse m || prepared id t) := by
      simp [prepared, Event.discardsOn, Event.preparesOn, hid]
    have hsync : syncing (.sent c m reply true :: t) = syncing t := rfl
    rw [ih, hfirst, hsync, List.any_cons]
    cases syncing t with
    | false => simp
    | true =>
      cases isNamedParse m with
      | false => simp
      | true => simp

theorem leads (h : Forwards id ms t t') (hlead : batchesLead t' = true) (hsync : syncing t = true)
    (hnamed : ms.any isNamedParse = true) : (currentBatch t ++ ms).head?.any isNamedParse = true := by
  induction h with
  | nil t => cases hnamed
  | @cons c m ms t t' reply hid h ih =>
    have hevent : (Event.sent c m reply true).leads t = true :=
      (Bool.and_eq_true_iff.mp (batchesLead_suffix h.suffix hlead)).1
    have hrest : ms.any isNamedParse = true → (currentBatch t ++ m :: ms).head?.any isNamedParse = true := by
      intro hany
      have hlater := ih hlead hsync hany
      rwa [currentBatch_sent, List.append_assoc] at hlater
    rw [List.any_cons, Bool.or_eq_true] at hnamed
    rcases hnamed with hm | hany
    · have hfirst : (currentBatch t ++ [m]).head?.any isNamedParse = true := by
        simpa [Event.leads, hsync, hm] using hevent
      cases hb : currentBatch t with
      | nil => simpa [hb] using hm
      | cons first rest => simpa [hb] using hfirst
    · exact hrest hany

end Forwards

end Traces

theorem startsNamed_of_head {ms : List Message} (h : ms.head?.any isNamedParse = true) :
    startsNamed ms = true := by
  cases ms with
  | nil => cases h
  | cons m ms =>
    have hm : m.frontend = .parse ∧ m.payload.headD 0 ≠ 0 := by
      simpa [isNamedParse] using h
    cases hp : m.payload with
    | nil =>
      rw [hp] at hm
      exact absurd rfl hm.2
    | cons b rest =>
      rw [hp] at hm
      have hb : b ≠ 0 := hm.2
      have hlen : ∀ i : Int, (putI32 i).length = 4 := fun _ => rfl
      have hchar : Char.ofUInt8 m.code = 'P' := Message.char_of_parse hm.1
      simp [startsNamed, bufferBytes, Message.bytes, hchar, hlen, hp, hb]

/-! ## What serving keeps -/

def Marked (w : World) : Prop :=
  batchesLead w.trace = true → prepared w.conn.id w.trace = true →
    w.conn.server.needsCleanup = true

section Steps

variable {w w' : World} {e : Event}

theorem Marked.same (hw : Marked w) (htrace : w'.trace = w.trace) (hid : w'.conn.id = w.conn.id)
    (hmark : w.conn.server.needsCleanup = true → w'.conn.server.needsCleanup = true) : Marked w' := by
  unfold Marked
  rw [htrace, hid]
  exact fun hlead hprepared => hmark (hw hlead hprepared)

theorem Marked.cons (hw : Marked w) (htrace : w'.trace = e :: w.trace) (hid : w'.conn.id = w.conn.id)
    (hmark : w.conn.server.needsCleanup = true → w'.conn.server.needsCleanup = true)
    (hother : prepared w.conn.id (e :: w.trace) = true → prepared w.conn.id w.trace = true) :
    Marked w' := by
  unfold Marked
  rw [htrace, hid]
  intro hlead hprepared
  exact hmark (hw (Bool.and_eq_true_iff.mp hlead).2 (hother hprepared))

theorem Event.isForward_of_isPlain (h : e.isPlain = true) : e.isForward = false :=
  Event.isForward_note (Event.isNote_of_isPlain h)

theorem Event.isForward_of_isRouting (h : e.isRouting = true) : e.isForward = false := by
  cases e with
  | sent c m reply fromClient => cases h
  | _ => rfl

theorem Marked.received (hw : Marked w) (m : Message) (rest : List Message) :
    Marked { w with conn := w.conn.taken m rest, trace := .received w.conn m :: w.trace } := by
  refine hw.cons rfl rfl ?_ (prepared_other rfl)
  intro hmark
  change (w.conn.server.take m).1.needsCleanup = true
  rw [Server.take_needsCleanup, hmark]
  rfl

end Steps

instance : Notes (Keeps Marked) where
  input _ _ hw := hw.same rfl rfl id
  note _ _ he hw := hw.cons rfl rfl id (prepared_other (Event.isForward_of_isPlain he))

instance : AllStats (Keeps Marked) where
  stat _ _ hw := hw.cons rfl rfl id (prepared_other rfl)

instance : Clients (Keeps Marked) where
  client _ _ _ hw := hw.same rfl rfl id

instance : Listens (Keeps Marked) where
  received _ m rest _ hw := hw.received m rest
  bad _ hw := hw.same rfl rfl id
  flushed _ hw := hw.same rfl rfl id

instance : Discards (Keeps Marked) where
  discarded w := .single fun _ _ hprepared => by
    have hnone : prepared w.conn.id (.discarded w.conn :: w.trace) = false := prepared_discarded
    exact absurd hprepared (Bool.eq_false_iff.mp hnone)

instance : Sends (Keeps Marked) false where
  sent _ _ _ hw := hw.cons rfl rfl id (prepared_other rfl)

/-! ## Forwarding -/

theorem syncing_of_lastMessage {m : Message} {t : List Event} (h : lastMessage t = some m) :
    syncing t = decide (m.frontend = .sync) := by
  simp [syncing, h]

/-- A message other than `Sync` is handled: whatever is forwarded for it prepares nothing that counts. -/
structure MarkedFor (m : Message) (w : World) : Prop where
  marked : Marked w
  answering : Answering m w
  other : m.frontend ≠ .sync

section Other

variable {m : Message}

theorem MarkedFor.unprepared {w : World} (hw : MarkedFor m w) {id : Nat} {c : Conn} {m' : Message}
    {reply : List Message} (h : prepared id (.sent c m' reply true :: w.trace) = true) :
    prepared id w.trace = true := by
  have hsync : syncing w.trace = false := by
    rw [syncing_of_lastMessage hw.answering]
    exact decide_eq_false hw.other
  simpa [prepared, Event.discardsOn, Event.preparesOn, hsync] using h

instance : Notes (Keeps (MarkedFor m)) where
  input w rest hw := ⟨Notes.input (S := Keeps Marked) w rest hw.marked, hw.answering, hw.other⟩
  note w e he hw := ⟨Notes.note (S := Keeps Marked) w e he hw.marked,
    Notes.note (S := Keeps (Answering m)) w e he hw.answering, hw.other⟩

instance : AllStats (Keeps (MarkedFor m)) where
  stat w s hw := ⟨AllStats.stat (S := Keeps Marked) w s hw.marked, hw.answering, hw.other⟩

instance : Clients (Keeps (MarkedFor m)) where
  client w c hc hw := ⟨Clients.client (S := Keeps Marked) w c hc hw.marked, hw.answering, hw.other⟩

instance : Listens (Keeps (MarkedFor m)) where
  received _ m rest _ hw := ⟨hw.marked.received m rest, hw.answering, hw.other⟩
  bad w hw := ⟨Listens.bad (S := Keeps Marked) w hw.marked, hw.answering, hw.other⟩
  flushed w hw := ⟨Listens.flushed (S := Keeps Marked) w hw.marked, hw.answering, hw.other⟩

instance : Soils (Keeps (MarkedFor m)) where
  dirty _ hw := ⟨hw.marked.same rfl rfl fun _ => rfl, hw.answering, hw.other⟩

instance : Sends (Keeps (MarkedFor m)) true where
  sent _ _ _ hw := ⟨hw.marked.cons rfl rfl id hw.unprepared, hw.answering, hw.other⟩

end Other

theorem deliver_forwards {E : Stop → World → Prop} : ∀ (ms : List Message)
    (replies : List (List Message)) (w : World), replies.length = ms.length →
    wp (deliver true ms replies)
      (fun _ w' => Forwards w.conn.id ms w.trace w'.trace ∧ w'.conn.id = w.conn.id ∧
        w'.conn.server = w.conn.server) E w := by
  refine deliver_rule true (fun _ => ⟨.nil _, rfl, rfl⟩) ?_
  rintro m ms reply _ w w' ⟨hforwards, hid, hserver⟩
  exact ⟨.cons reply rfl hforwards, hid, hserver⟩

variable (fuel : Nat) (pool : ConnectionPool) (a : Address) {w : World}

theorem sendServerMessage_marked (ms : List Message) (hw : Marked w) (hpaused : currentBatch w.trace = [])
    (hmark : startsNamed ms = true → w.conn.server.needsCleanup = true) :
    wp (sendServerMessage a ms) (fun _ => Marked) (fun _ _ => True) w := by
  have hsend : wp (send false true ms) (fun _ => Marked) (fun _ _ => True) w := by
    refine send_rule ?_ (fun _ => trivial) (fun _ => trivial) nofun
    intro script replies hlen
    refine wp_imp (deliver_forwards ms replies _ hlen) ?_
    rintro _ w' ⟨hforwards, hid, hserver⟩ hlead hprepared
    rw [hserver]
    rw [hid, hforwards.prepared_eq, Bool.or_eq_true, Bool.and_eq_true] at hprepared
    rcases hprepared with hbefore | ⟨hsync, hnamed⟩
    · exact hw (batchesLead_suffix hforwards.suffix hlead) hbefore
    · -- The batch prepares a named statement, so it begins with one, and that was seen.
      have hfirst := hforwards.leads hlead hsync hnamed
      change (currentBatch w.trace ++ ms).head?.any isNamedParse = true at hfirst
      rw [hpaused, List.nil_append] at hfirst
      exact hmark (startsNamed_of_head hfirst)
  exact onError_rule hsend (fun _ _ _ => wp_true) (fun _ _ _ _ => trivial)

theorem handleSync_marked (m : Message) (hw : Marked w) (hpaused : currentBatch w.trace = []) :
    wp (handleSync fuel pool a m) (fun _ => Marked) (fun _ _ => True) w := by
  let buffer := w.client.buffer ++ [m]
  let w₀ := w.buffered m
  change wp (runIf (startsNamed buffer = true) markDirty >>= _) _ _ w₀
  -- The flag is set before the batch is sent, so that it is set when the statement exists.
  have hdirty : wp (runIf (startsNamed buffer = true) markDirty)
      (fun _ w' => Marked w' ∧ currentBatch w'.trace = [] ∧
        (startsNamed buffer = true → w'.conn.server.needsCleanup = true)) (fun _ _ => True) w₀ := by
    unfold runIf
    rw [wp_ite]
    constructor
    · exact fun _ => ⟨hw.same rfl rfl fun _ => rfl, hpaused, fun _ => rfl⟩
    · exact fun hstarts => ⟨hw.same rfl rfl id, hpaused, fun h => absurd h hstarts⟩
  refine wp_seq hdirty ?_
  rintro _ w₁ ⟨h₁, hpaused₁, hmark⟩
  change wp ((sendServerMessage a buffer >>= _) >>= _) _ _ w₁
  rw [wp_bind]
  refine wp_seq (sendServerMessage_marked a buffer h₁ hpaused₁ hmark) ?_
  intro _ w₂ h₂
  refine wp_weaken (keeps (receiveReplies_runs fuel pool a) h₂) ?_
  intro _ w₃ h₃
  have hleave : Runs (Keeps Marked) (clearBuffer >>= fun _ => leaveIfOver false) :=
    clearBuffer_runs.seq fun _ => leaveIfOver_runs false
  exact wp_weaken (keeps hleave h₃) (fun _ _ h => h)

structure Handling (m : Message) (w : World) : Prop where
  marked : Marked w
  answering : lastMessage w.trace = some m
  paused : currentBatch w.trace = []

theorem dispatch_marked {m : Message} (hw : Handling m w) (hterminate : m.frontend ≠ .terminate) :
    wp (dispatch fuel pool a m) (fun _ => Marked) (fun _ _ => True) w := by
  by_cases hsync : m.frontend = .sync
  · have hdispatch : dispatch fuel pool a m = handleSync fuel pool a m := by simp [dispatch, hsync]
    rw [hdispatch]
    exact handleSync_marked fuel pool a m hw.marked hw.paused
  · have hfor : MarkedFor m w := ⟨hw.marked, hw.answering, hsync⟩
    have hruns : Runs (Keeps (MarkedFor m)) (dispatch fuel pool a m) :=
      dispatch_runs fuel pool a m fun h => absurd h hterminate
    exact wp_weaken (keeps hruns hfor) (fun _ _ h => h.marked)

/-! ## Giving the connection up -/

/-- Nothing is left on the connection. -/
def Cleared (w : World) : Prop :=
  w.All Event.reported → batchesLead w.trace = true → prepared w.conn.id w.trace = false

theorem Cleared.cons {w w' : World} {e : Event} (hw : Cleared w) (htrace : w'.trace = e :: w.trace)
    (hid : w'.conn.id = w.conn.id) (he : e.isForward = false) : Cleared w' := by
  intro hreported hlead
  rw [htrace] at hlead
  have hbefore := hw (hreported.tail htrace).1 (Bool.and_eq_true_iff.mp hlead).2
  rw [htrace, hid, ← Bool.not_eq_true]
  intro hprepared
  rw [prepared_other he hprepared] at hbefore
  cases hbefore

instance : Notes (Keeps Cleared) where
  input _ _ hw := hw
  note _ _ he hw := hw.cons rfl rfl (Event.isForward_of_isPlain he)

instance : AllStats (Keeps Cleared) where
  stat _ _ hw := hw.cons rfl rfl rfl

instance : Clients (Keeps Cleared) where
  client _ _ _ hw := hw

instance : Binds (Keeps Cleared) where
  claimed _ hw := hw.cons rfl rfl rfl
  released _ hw := hw.cons rfl rfl rfl

theorem checkinCleanup_unmarks (w : World) :
    wp (checkinCleanup fuel) (fun _ w' => w'.conn.server.needsCleanup = false) (fun _ _ => True) w := by
  refine checkinCleanup_rule fuel wp_true (fun w₁ _ => ?_)
  unfold runIf
  rw [wp_ite]
  refine ⟨fun _ => ?_, fun h => by simpa using h⟩
  unfold discardAll
  exact wp_seq wp_true (fun _ _ _ => rfl)

theorem marked_cleans : Cleans fuel pool a Marked Handling Cleared where
  input _ _ _ hw := ⟨hw.marked.same rfl rfl id, hw.answering, hw.paused⟩
  read _ _ hw := ⟨hw.cons rfl rfl id (prepared_other rfl), rfl, currentBatch_other rfl⟩
  terminated _ _ hw _ := hw.marked
  dispatch _ _ hw hterminate := dispatch_marked fuel pool a hw hterminate
  cleanup w hw := by
    have hclean := wp_and (wp_and (keeps (checkinCleanup_runs fuel) hw) (checkinCleanup_unmarks fuel w))
      (checkinCleanup_cleans fuel w)
    refine wp_mono hclean ?_ (fun _ _ h => h.2)
    rintro _ w' ⟨⟨hmarked, hunmarked⟩, _⟩ _ hlead
    rw [← Bool.not_eq_true]
    intro hprepared
    rw [hmarked hlead hprepared] at hunmarked
    cases hunmarked
  lost w hmem hreported _ := by
    have hlost := hreported _ hmem
    simp [Event.reported] at hlost

/-! ## Sessions -/

/-- What the client left on a connection it gave up in working order was discarded. -/
def SafeDrop (e : Event) (t : List Event) : Prop :=
  ∀ c exit, e = .dropped c exit → exit ≠ .panicked → c.server.bad = false →
    (∀ e ∈ t, e.reported = true) → batchesLead t = true → prepared c.id t = false

instance : AboutDrops SafeDrop where
  other := by
    rintro e t he c exit rfl
    cases he

/-- The client has no connection, or has not prepared anything on it. -/
structure Resting (w : World) : Prop where
  unprepared : ∀ id, prepared id w.trace = false
  paused : currentBatch w.trace = []

section Sessions

variable {w w' : World} {e : Event}

theorem Resting.same (hw : Resting w) (htrace : w'.trace = w.trace) : Resting w' := by
  refine ⟨fun id => ?_, ?_⟩
  · rw [htrace]
    exact hw.unprepared id
  · rw [htrace]
    exact hw.paused

theorem Resting.cons (hw : Resting w) (htrace : w'.trace = e :: w.trace) (he : e.isForward = false) :
    Resting w' := by
  refine ⟨fun id => ?_, ?_⟩
  · rw [htrace, ← Bool.not_eq_true]
    intro hprepared
    have hbefore := prepared_other he hprepared
    rw [hw.unprepared id] at hbefore
    cases hbefore
  · rw [htrace]
    exact currentBatch_other he

theorem Resting.marked (hw : Resting w) : Marked w := by
  intro _ hprepared
  rw [hw.unprepared] at hprepared
  cases hprepared

end Sessions

instance : Notes (Keeps Resting) where
  input _ _ hw := hw.same rfl
  note _ _ he hw := hw.cons rfl (Event.isForward_of_isPlain he)

instance : AllStats (Keeps Resting) where
  stat _ _ hw := hw.cons rfl rfl

instance : Clients (Keeps Resting) where
  client _ _ _ hw := hw.same rfl

instance : Hears (Keeps Resting) where
  server _ _ _ hw := hw.same rfl
  received _ _ _ _ hw := hw.cons rfl rfl

instance : Sends (Keeps Resting) false where
  sent _ _ _ hw := hw.cons rfl rfl

instance : Binds (Keeps Resting) where
  claimed _ hw := hw.cons rfl rfl
  released _ hw := hw.cons rfl rfl

instance : Reads (Keeps Resting) where
  message _ _ hw := hw.cons rfl rfl

instance : Routers (Keeps Resting) where
  router _ _ hw := hw.same rfl
  routing _ _ he hw := hw.cons rfl (Event.isForward_of_isRouting he)

theorem resting_lending : Lending Resting Resting (fun _ _ => True) where
  checkedOut _ _ _ hw := hw.cons rfl rfl
  bad w hw := Listens.bad (S := Keeps Resting) w hw
  health fuel _ hw := keeps (query_runs fuel true ";") hw
  dropped _ _ _ hw := hw.cons rfl rfl
  stops _ _ _ := trivial
  waits _ _ := trivial

theorem prepared_tenure : Tenure SafeDrop Resting Resting Marked Handling Cleared where
  lending := resting_lending
  assign fuel a m w hw hm := by
    have hanswering : Answering m w := hm
    refine wp_weaken (wp_and (keeps (assign_runs fuel a) hw) (keeps (assign_runs fuel a) hanswering)) ?_
    exact fun _ w' h => ⟨h.1.marked, h.2, h.1.paused⟩
  cleans := marked_cleans
  start w htrace := by
    constructor
    · intro id
      rw [htrace]
      rfl
    · rw [htrace]
      rfl
  drain _ hw := hw.cons rfl rfl
  idle _ _ := ⟨fun _ => rfl, currentBatch_other rfl⟩
  lost c exit t hlost := by
    rintro c' exit' h hpanicked hbad
    cases h
    rcases hlost with hpanicked' | hbad'
    · exact absurd hpanicked' hpanicked
    · rw [hbad'] at hbad
      cases hbad
  given w exit hw := by
    rintro c' exit' h _ _ hreported hlead
    cases h
    exact hw hreported hlead

/-! ## Many clients -/

section Clients

variable {ι : Type} [DecidableEq ι] {h : List (ι × Event)}

/-- What a client has prepared on a connection and nobody discarded is on a connection it still has, or on
one that is not handed out again. -/
def Kept (h : List (ι × Event)) : Prop :=
  ∀ i id, namedSince i id h = true →
    custody id h = .lent i ∧ prepared id (steps i h) = true ∨
    ∃ c, custody id h = .kept c ∧ c.server.bad = true

theorem namedSince_other {i j : ι} {e : Event} {id : Nat} (he : e.isForward = false)
    (hnamed : namedSince i id ((j, e) :: h) = true) :
    e.discardsOn id = false ∧ namedSince i id h = true := by
  simpa [namedSince, preparesOn_other he] using hnamed

theorem Kept.checkedOut {j : ι} {c : Conn} (hkept : Kept h) (haccounted : Accounted h)
    (hbefore : tenancy.run (steps j h) = some none) (hlends : (custody c.id h).lends c = true) :
    Kept ((j, .checkedOut c) :: h) := by
  intro i id hnamed
  rcases hkept i id (namedSince_other rfl hnamed).2 with ⟨hlent, hprepared⟩ | ⟨c', hc', hbad⟩
  · have hid : c.id ≠ id := by
      rintro rfl
      rw [hlent] at hlends
      cases hlends
    have hij : j ≠ i := by
      rintro rfl
      rw [(haccounted j id).mpr hlent] at hbefore
      cases hbefore
    left
    rw [custody, if_neg hid, steps_other hij]
    exact ⟨hlent, hprepared⟩
  · have hid : c.id ≠ id := by
      rintro rfl
      rw [hc'] at hlends
      simp [Custody.lends, hbad] at hlends
    right
    rw [custody, if_neg hid]
    exact ⟨c', hc', hbad⟩

theorem Kept.dropped {j : ι} {c : Conn} {exit : Exit} (hkept : Kept h) (haccounted : Accounted h)
    (hbefore : tenancy.run (steps j h) = some (some c.id))
    (hsafe : prepared c.id (steps j h) = true → c.server.bad = true) :
    Kept ((j, .dropped c exit) :: h) := by
  intro i id hnamed
  have hlentj : custody c.id h = .lent j := (haccounted j c.id).mp hbefore
  rcases hkept i id (namedSince_other rfl hnamed).2 with ⟨hlent, hprepared⟩ | ⟨c', hc', hbad⟩
  · by_cases hid : c.id = id
    · -- Client `j` gives up what it has prepared something on.
      subst hid
      rw [hlentj] at hlent
      cases hlent
      right
      rw [custody, if_pos rfl]
      exact ⟨c, rfl, hsafe hprepared⟩
    · have hij : j ≠ i := by
        rintro rfl
        rw [(haccounted j id).mpr hlent] at hbefore
        cases hbefore
        exact hid rfl
      left
      rw [custody, if_neg hid, steps_other hij]
      exact ⟨hlent, hprepared⟩
  · have hid : c.id ≠ id := by
      rintro rfl
      rw [hlentj] at hc'
      cases hc'
    right
    rw [custody, if_neg hid]
    exact ⟨c', hc', hbad⟩

theorem prepared_sent {id : Nat} {c : Conn} {m : Message} {reply : List Message} {fromClient : Bool}
    {t : List Event} : prepared id (.sent c m reply fromClient :: t) =
      ((Event.sent c m reply fromClient).preparesOn id t || prepared id t) := rfl

theorem Kept.sent {j : ι} {c : Conn} {m : Message} {reply : List Message} {fromClient : Bool}
    (hkept : Kept h) (hlent : custody c.id h = .lent j) :
    Kept ((j, .sent c m reply fromClient) :: h) := by
  intro i id hnamed
  have hcases : j = i ∧ (Event.sent c m reply fromClient).preparesOn id (steps i h) = true ∨
      namedSince i id h = true := by
    simpa [namedSince, Event.discardsOn] using hnamed
  rcases hcases with ⟨rfl, hprepares⟩ | hnamed
  · have hid : c.id = id := by
      cases fromClient with
      | false => cases hprepares
      | true => exact of_decide_eq_true (Bool.and_eq_true_iff.mp hprepares).1
    left
    rw [steps_self, prepared_sent, hprepares, ← hid]
    exact ⟨hlent, rfl⟩
  · rcases hkept i id hnamed with ⟨hlent', hprepared⟩ | hbad
    · left
      refine ⟨hlent', ?_⟩
      by_cases hij : j = i
      · subst hij
        rw [steps_self, prepared_sent, hprepared, Bool.or_true]
      · rw [steps_other hij]
        exact hprepared
    · exact .inr hbad

theorem Kept.other {j : ι} {e : Event} (hkept : Kept h) (he : e.isTenancy = false) : Kept ((j, e) :: h) := by
  intro i id hnamed
  have hforward : e.isForward = false := by
    cases e with
    | sent c m reply fromClient => cases he
    | _ => rfl
  obtain ⟨hdiscards, hnamed⟩ := namedSince_other hforward hnamed
  rw [custody_other he]
  rcases hkept i id hnamed with ⟨hlent, hprepared⟩ | hbad
  · left
    refine ⟨hlent, ?_⟩
    by_cases hij : j = i
    · subst hij
      rw [steps_self]
      cases e with
      | checkedOut c => cases he
      | dropped c exit => cases he
      | _ => simp [prepared, hdiscards, hprepared]
    · rw [steps_other hij]
      exact hprepared
  · exact .inr hbad

variable {client : ι → Client}

theorem kept (h : List (ι × Event)) (hsessions : ∀ i, IsSession (client i) (steps i h))
    (hpool : lends h = true) (hreported : ∀ x ∈ h, x.2.reported = true)
    (hcalm : ∀ x ∈ h, x.2.calm = true) (hlead : ∀ i, batchesLead (steps i h) = true) : Kept h := by
  induction h with
  | nil => exact fun i id hnamed => by cases hnamed
  | cons x h ih =>
    have hbefores := fun i => (hsessions i).suffix (steps_tail i x h)
    have hleads := fun i => batchesLead_suffix (steps_tail i x h) (hlead i)
    have hkept := ih hbefores (lends_tail hpool) (fun y hy => hreported y (List.mem_cons_of_mem x hy))
      (fun y hy => hcalm y (List.mem_cons_of_mem x hy)) hleads
    have haccounted := holds_iff_lent h hbefores (lends_tail hpool)
    obtain ⟨j, e⟩ := x
    have hsession := hsessions j
    obtain ⟨held, held', hbefore, hstep, -⟩ := tenancy_of_session hsession
    rw [steps_self] at hsession
    rcases tenancy_step hstep with ⟨c, rfl, rfl, rfl⟩ | ⟨c, exit, rfl, rfl, rfl⟩ |
      ⟨c, m, reply, fromClient, rfl, rfl, rfl⟩ | ⟨hother, rfl⟩
    · exact hkept.checkedOut haccounted hbefore (Bool.and_eq_true_iff.mp hpool).1
    · refine hkept.dropped haccounted hbefore fun hprepared => ?_
      have hpanicked : exit ≠ .panicked := by
        rintro rfl
        cases hcalm _ List.mem_cons_self
      by_contra hbad
      rw [Bool.not_eq_true] at hbad
      have hnone := hsession.dropped prepared_tenure c exit rfl hpanicked hbad
        (fun e he => hreported (j, e) (List.mem_cons_of_mem _ (mem_of_steps he))) (hleads j)
      rw [hprepared] at hnone
      cases hnone
    · exact hkept.sent ((haccounted j c.id).mp hbefore)
    · exact hkept.other hother

end Clients

namespace Sample

def parse (name text : String) : Message :=
  .ofChar 'P' (utf8 name ++ [0] ++ utf8 text ++ [0, 0, 0])

def sync : Message := .ofChar 'S' []

/-- A batch that prepares two statements on connection 1. -/
def prepareScript (first second : String) : List Input :=
  [.client (parse first "SELECT 1"), .client (parse second "SELECT 2")] ++ checkout sync (conn 1) ++
    [.sent [[.ofChar '1' []], [.ofChar '1' []], [ready 'I']], .arrives, .arrives, .arrives,
      .clientWrite true, .sent [[complete "DISCARD ALL", ready 'I']], .arrives, .arrives]

/-- The other client gets the connection next. -/
def nextScript : List Input :=
  checkout (simpleQuery "SELECT 3") (conn 1) ++ exchange [complete "SELECT 1", ready 'I']

def prepareHistory (first second : String) : List (Bool × Event) :=
  twoLives (life client (prepareScript first second)).trace (life client nextScript).trace

theorem prepareHistory_sessions (first second : String) (i : Bool) :
    IsSession client (steps i (prepareHistory first second)) :=
  twoLives_sessions (c := fun _ => client) (life_session client _ 0) (life_session client _ 0) i

/-- For each forwarded message, newest first: whose it is, and whether the first client has a named statement
on the connection at that moment. -/
def namedAt (h : List (Bool × Event)) : List (Bool × Bool) :=
  h.tails.filterMap fun
    | (j, .sent c _ _ true) :: h' => some (j, namedSince false c.id h')
    | _ => none

end Sample

end PgCat.Session
