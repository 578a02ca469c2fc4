import PgCat.Session.Custody
import PgCat.Session.Drops

/-!
# Checkin — which cleanup a connection gets

A client that sends simple queries only leaves two things behind: an open transaction and changed session
state.  `checkin_cleanup` looks at two flags for them.  `Talking` ties the flags to what was received:
`in_transaction` to the last `ReadyForQuery`, `needs_cleanup` to the tags of the commands the client sent
(`altered`).  The queries of the pooler itself write the second flag too.  Those of a health check and of
a cleanup get answers without such a tag, and `set_name` restores the flag.

The flags of a connection are carried from one client to the next, so that the result is about all
clients of a pool: each hands back connections with both flags cleared, unless its idle report is lost.
-/

namespace PgCat.Session

open Lib Protocol Router

/-! ## Statement -/

/-- The last message sent on the connection since it was handed out, and whether it is the client's. -/
def lastSent : List Event → Option (Message × Bool)
  | [] => none
  | .checkedOut _ :: _ => none
  | .sent _ m _ fromClient :: _ => some (m, fromClient)
  | _ :: t => lastSent t

/-- Is the connection answering the client? -/
def byClient (t : List Event) : Bool :=
  (lastSent t).any Prod.snd

def isSetOrPrepare (m : Message) : Bool :=
  m.backend = .commandComplete && (m.payload = utf8 "SET" ++ [0] || m.payload = utf8 "PREPARE" ++ [0])

def altersSession (status : TxStatus) (m : Message) : Bool :=
  m.backend = .commandComplete &&
    (m.payload = utf8 "SET" ++ [0] && status = .idle || m.payload = utf8 "PREPARE" ++ [0])

/-- Did a command of the client change the session since the connection was handed out? -/
def altered : List Event → Bool
  | [] => false
  | .checkedOut _ :: _ => false
  | .received c m :: t => byClient t && altersSession c.lastReady m || altered t
  | _ :: t => altered t

/-- What the pooler sent since the last message of the client, oldest first, with the connection as it was
then. -/
def poolerSince : List Event → List (Conn × Message)
  | [] => []
  | .checkedOut _ :: _ => []
  | .sent _ _ _ true :: _ => []
  | .sent c m _ false :: t => poolerSince t ++ [(c, m)]
  | _ :: t => poolerSince t

/-- Since the connection was handed out the client has sent simple queries, and `Terminate` at most. -/
def onlyQueries : List Event → Bool
  | [] => true
  | .checkedOut _ :: t => (lastMessage t).all fun m => m.frontend = .query
  | .message m :: t => (m.frontend = .query || m.frontend = .terminate) && onlyQueries t
  | _ :: t => onlyQueries t

/-- Queries of the pooler that no session state depends on. -/
inductive Own
  | healthCheck
  | rollback
  | discardAll

def Own.text : Own → String
  | .healthCheck => ";"
  | .rollback => "ROLLBACK"
  | .discardAll => "DISCARD ALL"

/-- Is the connection answering one of those? -/
def answeringOwn (t : List Event) : Bool :=
  [Own.healthCheck, .rollback, .discardAll].any fun q => lastSent t = some (simpleQuery q.text, false)

/-- They are not answered by the tags of other commands. -/
def answeredOwn : List Event → Bool
  | [] => true
  | .received _ m :: t => !(answeringOwn t && isSetOrPrepare m) && answeredOwn t
  | _ :: t => answeredOwn t

def statusBefore (c : Conn) (t : List Event) : TxStatus :=
  ((poolerSince t).head?.map fun x => x.1.lastReady).getD c.lastReady

structure CleanedExactly (c : Conn) (t : List Event) : Prop where
  queries : (poolerSince t).map Prod.snd =
    (if statusBefore c t = .idle then [] else [simpleQuery "ROLLBACK"]) ++
      (if altered t = true then [simpleQuery "DISCARD ALL"] else [])
  inTransaction : c.server.inTransaction = false
  needsCleanup : c.server.needsCleanup = false

instance (c : Conn) (t : List Event) : Decidable (CleanedExactly c t) :=
  decidable_of_iff ((poolerSince t).map Prod.snd =
      (if statusBefore c t = .idle then [] else [simpleQuery "ROLLBACK"]) ++
        (if altered t = true then [simpleQuery "DISCARD ALL"] else []) ∧
      c.server.inTransaction = false ∧ c.server.needsCleanup = false)
    ⟨fun h => ⟨h.1, h.2.1, h.2.2⟩, fun h => ⟨h.1, h.2, h.3⟩⟩

/-! ## Traces -/

/-- Events the functions above look at. -/
def Event.isTalk : Event → Bool
  | .checkedOut _ | .sent _ _ _ _ | .received _ _ | .message _ => true
  | _ => false

structure SameTalk (t t' : List Event) : Prop where
  lastSent : lastSent t' = lastSent t
  altered : altered t' = altered t
  poolerSince : poolerSince t' = poolerSince t
  onlyQueries : onlyQueries t' = onlyQueries t
  lastMessage : lastMessage t' = lastMessage t

variable (fuel : Nat) (pool : ConnectionPool) (a : Address) {c : Conn} {e : Event} {m : Message}
  {t : List Event} {w w' : World}

theorem SameTalk.byClient {t' : List Event} (h : SameTalk t t') : byClient t' = byClient t :=
  congrArg (Option.any Prod.snd) h.lastSent

theorem sameTalk_cons (he : e.isTalk = false) : SameTalk t (e :: t) := by
  cases e with
  | checkedOut c | sent c m reply fromClient | received c m | message m => cases he
  | _ => exact ⟨rfl, rfl, rfl, rfl, rfl⟩

theorem Event.isTalk_of_isPlain (h : e.isPlain = true) : e.isTalk = false := by
  cases e with
  | checkedOut c | sent c m reply fromClient | received c m | message m => cases h
  | _ => rfl

/-- The connections handed out so far were in order, and so were the answers to the pooler's own queries. -/
structure Trusted (t : List Event) : Prop where
  answered : answeredOwn t = true
  handed : ∀ c, .checkedOut c ∈ t → Synced c ∧ c.server.needsCleanup = false

theorem answered_tail (h : answeredOwn (e :: t) = true) : answeredOwn t = true := by
  cases e with
  | received c m => exact (Bool.and_eq_true_iff.mp h).2
  | _ => exact h

theorem Trusted.tail (h : Trusted (e :: t)) : Trusted t :=
  ⟨answered_tail h.answered, fun c hc => h.handed c (List.mem_cons_of_mem e hc)⟩

/-- Nothing was said in between, and the flags are as they were. -/
structure Alike (w w' : World) : Prop where
  talk : SameTalk w.trace w'.trace
  trusted : Trusted w'.trace → Trusted w.trace
  undisturbed : Undisturbed w' → Undisturbed w
  inTransaction : w'.conn.server.inTransaction = w.conn.server.inTransaction
  needsCleanup : w'.conn.server.needsCleanup = w.conn.server.needsCleanup
  lastReady : w'.conn.lastReady = w.conn.lastReady

theorem Alike.event (htrace : w'.trace = e :: w.trace) (he : e.isTalk = false) (hconn : w'.conn = w.conn) :
    Alike w w' where
  talk := htrace ▸ sameTalk_cons he
  trusted ht := (htrace ▸ ht : Trusted (e :: w.trace)).tail
  undisturbed hu := (hu.tail htrace).1
  inTransaction := by rw [hconn]
  needsCleanup := by rw [hconn]
  lastReady := by rw [hconn]

theorem Alike.conn (htrace : w'.trace = w.trace)
    (hopen : w'.conn.server.inTransaction = w.conn.server.inTransaction)
    (hneeds : w'.conn.server.needsCleanup = w.conn.server.needsCleanup)
    (hlast : w'.conn.lastReady = w.conn.lastReady) : Alike w w' where
  talk := htrace ▸ ⟨rfl, rfl, rfl, rfl, rfl⟩
  trusted ht := htrace ▸ ht
  undisturbed hu := by
    unfold Undisturbed World.All at hu ⊢
    rwa [htrace] at hu
  inTransaction := hopen
  needsCleanup := hneeds
  lastReady := hlast

theorem Alike.synced (h : Alike w w') (hs : Synced w.conn) : Synced w'.conn := by
  unfold Synced
  rw [h.inTransaction, h.lastReady]
  exact hs

/-- What depends on nothing else. -/
class Overlooks (P : World → Prop) : Prop where
  alike : ∀ {w w' : World}, P w → Alike w w' → P w'

namespace Overlooks

variable {P : World → Prop} [Overlooks P]

instance : Notes (Keeps P) where
  input _ _ hw := Overlooks.alike hw (.conn rfl rfl rfl rfl)
  note _ _ he hw := Overlooks.alike hw (.event rfl (Event.isTalk_of_isPlain he) rfl)

instance : AllStats (Keeps P) where
  stat _ _ hw := Overlooks.alike hw (.event rfl rfl rfl)

instance : Clients (Keeps P) where
  client _ _ _ hw := Overlooks.alike hw (.conn rfl rfl rfl rfl)

instance : Binds (Keeps P) where
  claimed _ hw := Overlooks.alike hw (.event rfl rfl rfl)
  released _ hw := Overlooks.alike hw (.event rfl rfl rfl)

end Overlooks

theorem Synced.needsCleanup_taken (h : Synced c) (m : Message) (rest : List Message) :
    (c.taken m rest).server.needsCleanup = (c.server.needsCleanup || altersSession c.lastReady m) := by
  change (c.server.take m).1.needsCleanup = _
  rw [Server.take_needsCleanup, h]
  by_cases hidle : c.lastReady = .idle
  · simp [altersSession, hidle]
  · simp [altersSession, hidle]

theorem needsCleanup_taken (c : Conn) (rest : List Message) (hm : isSetOrPrepare m = false) :
    (c.taken m rest).server.needsCleanup = c.server.needsCleanup := by
  change (c.server.take m).1.needsCleanup = _
  rw [Server.take_needsCleanup]
  unfold isSetOrPrepare at hm
  by_cases hkind : m.backend = .commandComplete
  · simp_all
  · simp [hkind]

/-! ## A query of the pooler -/

structure AskedOwn (q : Own) (w w' : World) : Prop where
  lastSent : lastSent w'.trace = some (simpleQuery q.text, false)
  altered : altered w'.trace = altered w.trace
  poolerSince : poolerSince w'.trace = poolerSince w.trace ++ [(w.conn, simpleQuery q.text)]
  onlyQueries : onlyQueries w'.trace = onlyQueries w.trace
  lastMessage : lastMessage w'.trace = lastMessage w.trace
  trusted : Trusted w'.trace → Trusted w.trace
  needsCleanup : Trusted w'.trace → w'.conn.server.needsCleanup = w.conn.server.needsCleanup
  synced : Synced w.conn → Synced w'.conn

section AskedOwn

variable {q : Own} {w : World}

instance : Overlooks (AskedOwn q w) where
  alike h ha :=
    { lastSent := ha.talk.lastSent.trans h.lastSent
      altered := ha.talk.altered.trans h.altered
      poolerSince := ha.talk.poolerSince.trans h.poolerSince
      onlyQueries := ha.talk.onlyQueries.trans h.onlyQueries
      lastMessage := ha.talk.lastMessage.trans h.lastMessage
      trusted := fun ht => h.trusted (ha.trusted ht)
      needsCleanup := fun ht => ha.needsCleanup.trans (h.needsCleanup (ha.trusted ht))
      synced := fun hs => ha.synced (h.synced hs) }

theorem answeringOwn_of_lastSent {t : List Event} (h : lastSent t = some (simpleQuery q.text, false)) :
    answeringOwn t = true := by
  cases q with
  | healthCheck | rollback | discardAll => simp [answeringOwn, h]

theorem AskedOwn.received {w₁ : World} (h : AskedOwn q w w₁) (m : Message) (rest : List Message) :
    AskedOwn q w { w₁ with conn := w₁.conn.taken m rest, trace := .received w₁.conn m :: w₁.trace } := by
  have hsilent : byClient w₁.trace = false := by simp [byClient, h.lastSent]
  refine
    { lastSent := h.lastSent
      altered := ?_
      poolerSince := h.poolerSince
      onlyQueries := h.onlyQueries
      lastMessage := h.lastMessage
      trusted := fun ht => h.trusted ht.tail
      needsCleanup := fun ht => ?_
      synced := fun hs => (h.synced hs).taken m rest }
  · change (byClient w₁.trace && altersSession w₁.conn.lastReady m || Session.altered w₁.trace) = _
    rw [hsilent, h.altered]
    rfl
  · have hown := answeringOwn_of_lastSent h.lastSent
    have hplain : isSetOrPrepare m = false := by
      have hanswer := (Bool.and_eq_true_iff.mp ht.answered).1
      simpa [hown] using hanswer
    rw [← h.needsCleanup ht.tail]
    exact needsCleanup_taken w₁.conn rest hplain

instance : Listens (Keeps (AskedOwn q w)) where
  received _ m rest _ h := h.received m rest
  bad _ hw := Overlooks.alike hw (.conn rfl rfl rfl rfl)
  flushed _ hw := Overlooks.alike hw (.conn rfl rfl rfl rfl)

theorem AskedOwn.sent (q : Own) (w : World) (script : List Input) (reply : List Message) :
    AskedOwn q w { w with
      script := script
      conn := w.conn.push (simpleQuery q.text) reply
      trace := .sent w.conn (simpleQuery q.text) reply false :: w.trace } where
  lastSent := rfl
  altered := rfl
  poolerSince := rfl
  onlyQueries := rfl
  lastMessage := rfl
  trusted := Trusted.tail
  needsCleanup _ := rfl
  synced h := h

theorem query_asked (q : Own) (fuel : Nat) (timed : Bool) (w : World) :
    wp (query fuel timed q.text) (fun _ => AskedOwn q w) (fun _ _ => True) w :=
  query_rule (S := Keeps (AskedOwn q w)) (fun _ _ h => h) (AskedOwn.sent q w) (fun _ _ => trivial)
    (fun _ _ => trivial) (fun _ _ _ => trivial)

end AskedOwn

/-! ## Before the first message -/

/-- A connection on which nothing of the client was forwarded yet. -/
structure Fresh (w : World) : Prop where
  unaltered : altered w.trace = false
  silent : byClient w.trace = false
  synced : Synced w.conn
  query : onlyQueries w.trace = true → ∀ m, lastMessage w.trace = some m → m.frontend = .query

section Fresh

variable {w w' : World} {e : Event}

instance : Overlooks Fresh where
  alike hw ha := by
    refine ⟨ha.talk.altered.trans hw.unaltered, ha.talk.byClient.trans hw.silent, ha.synced hw.synced, ?_⟩
    rw [ha.talk.onlyQueries, ha.talk.lastMessage]
    exact hw.query

theorem Fresh.conn (hw : Fresh w) (htrace : w'.trace = w.trace) (hsynced : Synced w'.conn) : Fresh w' := by
  refine ⟨?_, ?_, hsynced, ?_⟩
  · rw [htrace]
    exact hw.unaltered
  · rw [htrace]
    exact hw.silent
  · rw [htrace]
    exact hw.query

theorem Fresh.received (hw : Fresh w) (m : Message) (rest : List Message) :
    Fresh { w with conn := w.conn.taken m rest, trace := .received w.conn m :: w.trace } := by
  refine ⟨?_, hw.silent, hw.synced.taken m rest, hw.query⟩
  change (byClient w.trace && altersSession w.conn.lastReady m || altered w.trace) = false
  rw [hw.silent, hw.unaltered]
  rfl

theorem Fresh.sent (hw : Fresh w) (m : Message) (reply : List Message) :
    Fresh { w with conn := w.conn.push m reply, trace := .sent w.conn m reply false :: w.trace } :=
  ⟨hw.unaltered, rfl, hw.synced, hw.query⟩

end Fresh

/-- The connection is as it was handed out. -/
def Attached (w : World) : Prop :=
  Trusted w.trace → Fresh w ∧ w.conn.server.needsCleanup = false

instance : Overlooks Attached where
  alike hw ha ht :=
    let ⟨hfresh, hneeds⟩ := hw (ha.trusted ht)
    ⟨Overlooks.alike hfresh ha, ha.needsCleanup.trans hneeds⟩

theorem healthCheck_attached (hw : Attached w) :
    wp (query fuel true ";") (fun _ => Attached) (fun _ => Attached) w := by
  have hasked : ∀ w', AskedOwn .healthCheck w w' → Attached w' := by
    intro w' h ht
    obtain ⟨hfresh, hneeds⟩ := hw (h.trusted ht)
    refine ⟨⟨h.altered.trans hfresh.unaltered, ?_, h.synced hfresh.synced, ?_⟩,
      (h.needsCleanup ht).trans hneeds⟩
    · simp [byClient, h.lastSent]
    · rw [h.onlyQueries, h.lastMessage]
      exact hfresh.query
  refine wp_imp (query_rule (S := Keeps (AskedOwn .healthCheck w)) (E := fun _ => Attached) (fun _ _ h => h)
    (AskedOwn.sent .healthCheck w) (fun _ _ => Overlooks.alike hw (.conn rfl rfl rfl rfl))
    (fun _ _ => Overlooks.alike hw (.conn rfl rfl rfl rfl))
    (fun _ => hasked)) (fun _ => hasked)

/-- `set_name` is running since `w`; what it does to the flag does not matter. -/
def Naming (w w' : World) : Prop :=
  Trusted w'.trace → Trusted w.trace ∧ Fresh w'

section Naming

variable {w : World}

instance : Overlooks (Naming w) where
  alike h ha ht :=
    let ⟨hbefore, hfresh⟩ := h (ha.trusted ht)
    ⟨hbefore, Overlooks.alike hfresh ha⟩

instance : Hears (Keeps (Naming w)) where
  server _ _ hs h := fun ht =>
    let ⟨hbefore, hfresh⟩ := h ht
    ⟨hbefore, hfresh.conn rfl (hs.inTransaction.trans hfresh.synced)⟩
  received _ m rest _ h := fun ht =>
    let ⟨hbefore, hfresh⟩ := h ht.tail
    ⟨hbefore, hfresh.received m rest⟩

instance : Sends (Keeps (Naming w)) false where
  sent _ m reply h := fun ht =>
    let ⟨hbefore, hfresh⟩ := h ht.tail
    ⟨hbefore, hfresh.sent m reply⟩

end Naming

theorem setName_attached (name : String) (hw : Attached w) :
    wp (setName fuel name) (fun _ => Attached) (fun _ _ => True) w := by
  refine setName_rule fuel hw ?_
  let named : World :=
    { w with conn := { w.conn with server := { w.conn.server with applicationName := name } } }
  have hstart : Naming w named := fun ht => ⟨ht, (hw ht).1.conn rfl (hw ht).1.synced⟩
  change wp (query fuel false _ >>= _) _ _ named
  refine wp_then (keeps (query_runs fuel false _) hstart) ?_
  intro _ w₁ h₁ ht
  obtain ⟨hbefore, hfresh⟩ := h₁ ht
  exact ⟨hfresh.conn rfl hfresh.synced, (hw hbefore).2⟩

/-! ## Talking to the client -/

/-- A message of the client was forwarded, and the flags say what was received. -/
structure Talking (w : World) : Prop where
  forwarded : byClient w.trace = true
  flag : w.conn.server.needsCleanup = altered w.trace
  synced : Synced w.conn

def ExactFlags (w : World) : Prop :=
  Trusted w.trace → onlyQueries w.trace = true → Talking w

instance : Overlooks ExactFlags where
  alike hw ha ht honly := by
    have htalking := hw (ha.trusted ht) (ha.talk.onlyQueries.symm.trans honly)
    refine ⟨ha.talk.byClient.trans htalking.forwarded, ?_, ha.synced htalking.synced⟩
    rw [ha.needsCleanup, ha.talk.altered]
    exact htalking.flag

theorem ExactFlags.received (hw : ExactFlags w) (m : Message) (rest : List Message) :
    ExactFlags { w with conn := w.conn.taken m rest, trace := .received w.conn m :: w.trace } := by
  intro ht honly
  have htalking := hw ht.tail honly
  refine ⟨htalking.forwarded, ?_, htalking.synced.taken m rest⟩
  calc (w.conn.taken m rest).server.needsCleanup
      = (w.conn.server.needsCleanup || altersSession w.conn.lastReady m) :=
        htalking.synced.needsCleanup_taken m rest
    _ = (altersSession w.conn.lastReady m || altered w.trace) := by
        rw [htalking.flag, Bool.or_comm]
    _ = altered (.received w.conn m :: w.trace) := by
        simp [altered, htalking.forwarded]

instance : Listens (Keeps ExactFlags) where
  received _ m rest _ hw := hw.received m rest
  bad _ hw := Overlooks.alike hw (.conn rfl rfl rfl rfl)
  flushed _ hw := Overlooks.alike hw (.conn rfl rfl rfl rfl)

/-- Message `m` is about to be handled, the first one or a later one. -/
structure Ready (m : Message) (w : World) : Prop where
  answering : lastMessage w.trace = some m
  state : Trusted w.trace → onlyQueries w.trace = true →
    Talking w ∨ Fresh w ∧ w.conn.server.needsCleanup = false

theorem sendServerMessage_exact (hw : Ready m w) :
    wp (sendServerMessage a [m]) (fun _ => ExactFlags) (fun _ _ => True) w := by
  have hsend : wp (send false true [m]) (fun _ => ExactFlags) (fun _ _ => True) w := by
    refine wp_imp (send_one false true m w) ?_
    rintro _ w' ⟨script, reply, rfl⟩ ht honly
    rcases hw.state ht.tail honly with htalking | ⟨hfresh, hclean⟩
    · exact ⟨rfl, htalking.flag, htalking.synced⟩
    · exact ⟨rfl, hclean.trans hfresh.unaltered.symm, hfresh.synced⟩
  exact onError_rule hsend (fun _ _ _ => wp_true) (fun _ _ _ _ => trivial)

theorem handleQuery_exact (hw : Ready m w) :
    wp (sendAndReceiveLoop fuel pool a [m] >>= fun _ => leaveIfOver true) (fun _ => ExactFlags)
      (fun _ _ => True) w := by
  change wp ((sendServerMessage a [m] >>= _) >>= _) _ _ w
  rw [wp_bind]
  refine wp_seq (sendServerMessage_exact a hw) ?_
  intro _ w₁ h₁
  refine wp_weaken (keeps (receiveReplies_runs fuel pool a) h₁) ?_
  intro _ w₂ h₂
  exact wp_weaken (keeps (leaveIfOver_runs true) h₂) (fun _ _ h => h)

/-- The client sent something else. -/
def Impure (w : World) : Prop :=
  onlyQueries w.trace = false

instance : Overlooks Impure where
  alike hw ha := ha.talk.onlyQueries.trans hw

theorem Impure.exact (hw : Impure w) : ExactFlags w := by
  intro _ honly
  rw [hw] at honly
  cases honly

instance : Hears (Keeps Impure) where
  server _ _ _ hw := hw
  received _ _ _ _ hw := hw

instance : Sends (Keeps Impure) true where
  sent _ _ _ hw := hw

theorem frontend_of_onlyQueries : ∀ {t : List Event}, onlyQueries t = true →
    lastMessage t = some m → m.frontend = .query ∨ m.frontend = .terminate := by
  intro t
  induction t with
  | nil => exact fun _ h => by cases h
  | cons e t ih =>
    intro honly hlast
    cases e with
    | checkedOut c =>
      have hall : (lastMessage t).all (fun m => m.frontend = .query) = true := honly
      rw [show lastMessage t = some m from hlast] at hall
      exact .inl (of_decide_eq_true hall)
    | message m' =>
      cases hlast
      simpa using (Bool.and_eq_true_iff.mp honly).1
    | _ => exact ih honly hlast

theorem dispatch_exact (hw : Ready m w) (hterminate : m.frontend ≠ .terminate) :
    wp (dispatch fuel pool a m) (fun _ => ExactFlags) (fun _ _ => True) w := by
  by_cases hquery : m.frontend = .query
  · have hdispatch : dispatch fuel pool a m =
        (sendAndReceiveLoop fuel pool a [m] >>= fun _ => leaveIfOver true) := by
      simp [dispatch, hquery]
    rw [hdispatch]
    exact handleQuery_exact fuel pool a hw
  · have himpure : Impure w := by
      unfold Impure
      rw [← Bool.not_eq_true]
      intro honly
      rcases frontend_of_onlyQueries honly hw.answering with h | h
      · exact hquery h
      · exact hterminate h
    have hruns : Runs (Keeps Impure) (dispatch fuel pool a m) :=
      dispatch_runs fuel pool a m fun h => absurd h hterminate
    exact wp_weaken (keeps hruns himpure) (fun _ _ h => h.exact)

/-! ## The cleanup -/

structure Asks (q : Own) (b : Bool) (w w' : World) : Prop where
  altered : altered w'.trace = altered w.trace
  poolerSince : poolerSince w'.trace =
    poolerSince w.trace ++ if b = true then [(w.conn, simpleQuery q.text)] else []
  onlyQueries : onlyQueries w'.trace = onlyQueries w.trace
  trusted : Trusted w'.trace → Trusted w.trace
  needsCleanup : Trusted w'.trace → w'.conn.server.needsCleanup = w.conn.server.needsCleanup
  same : b = false → w'.conn = w.conn

theorem AskedOwn.asks {q : Own} (h : AskedOwn q w w') : Asks q true w w' :=
  ⟨h.altered, h.poolerSince, h.onlyQueries, h.trusted, h.needsCleanup, nofun⟩

theorem Asks.none (q : Own) (w : World) : Asks q false w w :=
  ⟨rfl, (List.append_nil _).symm, rfl, id, fun _ => rfl, fun _ => rfl⟩

theorem rollback_asks (w : World) :
    wp (runIf (w.conn.server.inTransaction = true) (rollback fuel))
      (fun _ => Asks .rollback w.conn.server.inTransaction w) (fun _ _ => True) w := by
  unfold runIf
  rw [wp_ite]
  constructor
  · intro hopen
    rw [hopen]
    unfold rollback
    refine wp_seq (query_asked .rollback fuel false w) ?_
    exact fun _ w₁ h₁ => AskedOwn.asks (Overlooks.alike h₁ (.event rfl rfl rfl))
  · intro hclosed
    rw [Bool.not_eq_true] at hclosed
    rw [hclosed]
    exact Asks.none .rollback w

theorem discardAll_asks (w : World) :
    wp (runIf (w.conn.server.needsCleanup = true) (discardAll fuel))
      (fun _ w' => ∃ w₁, Asks .discardAll w.conn.server.needsCleanup w w₁ ∧ w'.trace = w₁.trace ∧
        w'.conn.lastReady = w₁.conn.lastReady) (fun _ _ => True) w := by
  unfold runIf
  rw [wp_ite]
  constructor
  · intro hdirty
    rw [hdirty]
    unfold discardAll
    refine wp_seq (query_asked .discardAll fuel false w) ?_
    exact fun _ w₁ h₁ => ⟨w₁.after (.discarded w₁.conn),
      AskedOwn.asks (Overlooks.alike h₁ (.event rfl rfl rfl)), rfl, rfl⟩
  · intro hclean
    rw [Bool.not_eq_true] at hclean
    rw [hclean]
    exact ⟨w, Asks.none .discardAll w, rfl, rfl⟩

theorem poolerSince_of_byClient : ∀ {t : List Event}, byClient t = true → poolerSince t = [] := by
  intro t
  induction t with
  | nil => exact fun _ => rfl
  | cons e t ih =>
    intro h
    cases e with
    | checkedOut c => rfl
    | sent c m reply fromClient =>
      cases fromClient with
      | true => rfl
      | false => cases h
    | _ => exact ih h

/-- Two queries at most, each sent for its flag. -/
theorem queries_exact {w₁ w₂ : World} (hw : Talking w)
    (hrollback : Asks .rollback w.conn.server.inTransaction w w₁)
    (hdiscard : Asks .discardAll w₁.conn.server.needsCleanup w₁ w₂) (ht : Trusted w₂.trace) (hc : c.lastReady = w₂.conn.lastReady) :
    (poolerSince w₂.trace).map Prod.snd =
      (if statusBefore c w₂.trace = .idle then [] else [simpleQuery "ROLLBACK"]) ++
        (if altered w₂.trace = true then [simpleQuery "DISCARD ALL"] else []) := by
  have hflag : w₁.conn.server.needsCleanup = altered w₂.trace :=
    calc w₁.conn.server.needsCleanup
        = w.conn.server.needsCleanup := hrollback.needsCleanup (hdiscard.trusted ht)
      _ = altered w.trace := hw.flag
      _ = altered w₁.trace := hrollback.altered.symm
      _ = altered w₂.trace := hdiscard.altered.symm
  have hsince : poolerSince w₂.trace =
      (if w.conn.server.inTransaction = true then [(w.conn, simpleQuery "ROLLBACK")] else []) ++
        (if altered w₂.trace = true then [(w₁.conn, simpleQuery "DISCARD ALL")] else []) := by
    rw [hdiscard.poolerSince, hrollback.poolerSince, poolerSince_of_byClient hw.forwarded, hflag]
    rfl
  have hsynced := hw.synced
  unfold Synced at hsynced
  cases hopen : w.conn.server.inTransaction with
  | true =>
    -- The status that was read before the `ROLLBACK` is the one of its connection.
    have hstatus : statusBefore c w₂.trace ≠ .idle := by
      simpa [statusBefore, hsince, hopen] using hsynced
    rw [hsince, if_neg hstatus, hopen]
    cases altered w₂.trace with
    | true => rfl
    | false => rfl
  | false =>
    have hidle : w.conn.lastReady = .idle := by simpa [hopen] using hsynced
    have hsame : w₁.conn = w.conn := hrollback.same hopen
    have hstatus : statusBefore c w₂.trace = .idle := by
      cases halter : altered w₂.trace with
      | true => simp [statusBefore, hsince, hopen, halter, hsame, hidle]
      | false =>
        have hsame₂ : w₂.conn = w₁.conn := hdiscard.same (hflag.trans halter)
        simp [statusBefore, hsince, hopen, halter, hc, hsame₂, hsame, hidle]
    rw [hsince, if_pos hstatus, hopen]
    cases altered w₂.trace with
    | true => rfl
    | false => rfl

/-- The connection got its cleanup, if nothing went wrong so far. -/
def CleanedWell (w : World) : Prop :=
  Trusted w.trace → Undisturbed w → onlyQueries w.trace = true → CleanedExactly w.conn w.trace

instance : Overlooks CleanedWell where
  alike hw ha ht hu honly := by
    have hclean := hw (ha.trusted ht) (ha.undisturbed hu) (ha.talk.onlyQueries.symm.trans honly)
    refine ⟨?_, ha.inTransaction.trans hclean.inTransaction, ha.needsCleanup.trans hclean.needsCleanup⟩
    unfold statusBefore
    rw [ha.talk.poolerSince, ha.talk.altered, ha.lastReady]
    exact hclean.queries

theorem checkinCleanup_exact (hw : ExactFlags w) :
    wp (checkinCleanup fuel) (fun _ => CleanedWell) (Broken false) w := by
  have hqueries : wp (checkinCleanup fuel) (fun _ w' => Trusted w'.trace → onlyQueries w'.trace = true →
      (poolerSince w'.trace).map Prod.snd =
        (if statusBefore w'.conn w'.trace = .idle then [] else [simpleQuery "ROLLBACK"]) ++
          (if altered w'.trace = true then [simpleQuery "DISCARD ALL"] else []))
      (fun _ _ => True) w := by
    refine checkinCleanup_rule fuel (rollback_asks fuel w) fun w₁ h₁ => wp_imp (discardAll_asks fuel w₁) ?_
    -- The two queries are read off the trace behind the last message of the client.
    rintro _ w₃ ⟨w₂, h₂, htrace, hlast⟩ ht honly
    change Trusted (.cleanedUp w₃.conn :: w₃.trace) at ht
    change onlyQueries w₃.trace = true at honly
    rw [htrace] at ht honly
    have htrusted := ht.tail
    have htalking := hw (h₁.trusted (h₂.trusted htrusted))
      (h₁.onlyQueries.symm.trans (h₂.onlyQueries.symm.trans honly))
    change (poolerSince w₃.trace).map Prod.snd = (if statusBefore w₃.conn w₃.trace = .idle then _ else _) ++
      (if altered w₃.trace = true then _ else _)
    rw [htrace]
    exact queries_exact htalking h₁ h₂ htrusted hlast
  refine wp_mono (wp_and hqueries (checkinCleanup_cleans fuel w)) ?_ (fun _ _ h => h.2)
  rintro _ w' ⟨hq, hclean⟩ ht hu honly
  have hflags := hclean hu
  exact ⟨hq ht honly, hflags.inTransaction, hflags.needsCleanup⟩

theorem exact_cleans : Cleans fuel pool a ExactFlags Ready CleanedWell where
  input _ _ _ hw := by
    refine ⟨hw.answering, fun ht honly => ?_⟩
    rcases hw.state ht honly with h | ⟨hfresh, hclean⟩
    · exact .inl ⟨h.forwarded, h.flag, h.synced⟩
    · exact .inr ⟨hfresh.conn rfl hfresh.synced, hclean⟩
  read _ _ hw := by
    refine ⟨rfl, fun ht honly => ?_⟩
    have htalking := hw ht.tail (Bool.and_eq_true_iff.mp honly).2
    exact .inl ⟨htalking.forwarded, htalking.flag, htalking.synced⟩
  terminated m w hw hterminate ht honly := by
    rcases hw.state ht honly with h | ⟨hfresh, _⟩
    · exact h
    · have hquery := hfresh.query honly m hw.answering
      rw [hterminate] at hquery
      cases hquery
  dispatch _ _ hw hterminate := dispatch_exact fuel pool a hw hterminate
  cleanup _ hw := checkinCleanup_exact fuel hw
  lost _ hmem _ hu _ := by
    have hlost := hu _ hmem
    simp [Event.undisturbed] at hlost

/-! ## Sessions -/

/-- A connection that is given up in working order got its cleanup. -/
def ExactDrop (e : Event) (t : List Event) : Prop :=
  ∀ c exit, e = .dropped c exit → exit ≠ .panicked → c.server.bad = false → Trusted t →
    (∀ e ∈ t, e.undisturbed = true) → onlyQueries t = true → CleanedExactly c t

instance : AboutDrops ExactDrop where
  other := by
    rintro e t he c exit rfl
    cases he

theorem attached_lending : Lending (fun _ => True) Attached (fun _ _ => True) where
  checkedOut w c _ _ ht := by
    obtain ⟨hsynced, hclean⟩ := ht.handed c List.mem_cons_self
    refine ⟨⟨rfl, rfl, hsynced, ?_⟩, hclean⟩
    intro honly m hm
    have hall : (lastMessage w.trace).all (fun m => m.frontend = .query) = true := honly
    rw [show lastMessage w.trace = some m from hm] at hall
    exact of_decide_eq_true hall
  bad _ hw := Overlooks.alike hw (.conn rfl rfl rfl rfl)
  health fuel _ hw := healthCheck_attached fuel hw
  dropped _ _ _ _ := trivial
  stops _ _ _ := trivial
  waits _ _ := trivial

theorem exact_tenure : Tenure ExactDrop (fun _ => True) Attached ExactFlags Ready CleanedWell where
  lending := attached_lending
  assign fuel a m w hw hm := by
    have hanswering : Answering m w := hm
    have hname : wp (assign fuel a) (fun _ => Attached) (fun _ _ => True) w := by
      have hgiven : Attached (w.after (.claimed w.conn)) := Overlooks.alike hw (.event rfl rfl rfl)
      have hclaimed : Attached ((w.after (.claimed w.conn)).after (.stat .active)) :=
        Overlooks.alike hgiven (.event rfl rfl rfl)
      exact setName_attached fuel _ (Overlooks.alike hclaimed (.conn rfl rfl rfl rfl))
    refine wp_weaken (wp_and hname (keeps (assign_runs fuel a) hanswering)) ?_
    exact fun _ w' h => ⟨h.2, fun ht _ => .inr (h.1 ht)⟩
  cleans := exact_cleans
  start _ _ := trivial
  drain _ _ := trivial
  idle _ _ := trivial
  lost c exit t hlost := by
    rintro c' exit' h hpanicked hbad
    cases h
    rcases hlost with hpanicked' | hbad'
    · exact absurd hpanicked' hpanicked
    · rw [hbad'] at hbad
      cases hbad
  given w exit hw := by
    rintro c' exit' h _ _ ht hu honly
    cases h
    exact hw ht hu honly

/-! ## Many clients -/

section Clients

variable {ι : Type}

theorem handsBack_of_lends : ∀ {h : List (ι × Event)}, lends h = true → handsBack h = true := by
  intro h
  induction h with
  | nil => exact fun _ => rfl
  | cons x h ih =>
    intro hpool
    have hrest := ih (lends_tail hpool)
    obtain ⟨i, e⟩ := x
    cases e with
    | checkedOut c =>
      change ((c.isNew || h.any fun x => x.2.gaveBack c) && handsBack h) = true
      rw [hrest, Bool.and_true, Bool.or_eq_true]
      have hlends := (Bool.and_eq_true_iff.mp hpool).1
      cases hcustody : custody c.id h with
      | unknown =>
        rw [hcustody] at hlends
        exact .inl (Bool.and_eq_true_iff.mp hlends).1
      | lent j =>
        rw [hcustody] at hlends
        cases hlends
      | kept c' =>
        rw [hcustody] at hlends
        obtain ⟨j, exit, h', hsuffix⟩ := custody_kept hcustody
        refine .inr (List.any_eq_true.mpr ⟨(j, .dropped c' exit), ?_, ?_⟩)
        · exact hsuffix.subset List.mem_cons_self
        · exact (Bool.and_eq_true_iff.mp hlends).2
    | _ => exact hrest

variable [DecidableEq ι] {client : ι → Client}

theorem handed_clean {h : List (ι × Event)} (hsessions : ∀ i, IsSession (client i) (steps i h))
    (hpool : lends h = true) (hundisturbed : ∀ x ∈ h, x.2.undisturbed = true)
    (hcalm : ∀ x ∈ h, x.2.calm = true) {i : ι} {c : Conn} (hc : (i, .checkedOut c) ∈ h) :
    c.server.needsCleanup = false := by
  obtain ⟨later, before, rfl⟩ := List.append_of_mem hc
  have hsuffix : (i, .checkedOut c) :: before <:+ later ++ (i, .checkedOut c) :: before :=
    List.suffix_append _ _
  have hlends := (Bool.and_eq_true_iff.mp (lends_suffix hsuffix hpool)).1
  cases hcustody : custody c.id before with
  | unknown =>
    rw [hcustody] at hlends
    simpa using (Bool.and_eq_true_iff.mp hlends).2
  | lent j =>
    rw [hcustody] at hlends
    cases hlends
  | kept c' =>
    rw [hcustody] at hlends
    simp only [Custody.lends, Bool.and_eq_true, Bool.not_eq_true', decide_eq_true_eq] at hlends
    obtain ⟨j, exit, h', hdropped⟩ := custody_kept hcustody
    have hdrop := hdropped.trans ((List.suffix_cons _ _).trans hsuffix)
    have hsession := (hsessions j).suffix (steps_suffix hdrop j)
    rw [steps_self] at hsession
    have hclean := hsession.dropped clean_tenure c' exit rfl fun e he =>
      hundisturbed (j, e) (hdrop.subset (List.mem_cons_of_mem _ (mem_of_steps he)))
    have hpanicked : exit ≠ .panicked := by
      rintro rfl
      cases hcalm _ (hdrop.subset List.mem_cons_self)
    simp only [dropClean, hpanicked, hlends.1, decide_false, Bool.false_or, Bool.and_eq_true,
      Bool.not_eq_true'] at hclean
    rw [← hlends.2.1]
    exact hclean.2

theorem trusted_steps {h : List (ι × Event)} (hsessions : ∀ i, IsSession (client i) (steps i h))
    (hpool : lends h = true) (hundisturbed : ∀ x ∈ h, x.2.undisturbed = true)
    (hcalm : ∀ x ∈ h, x.2.calm = true) (hanswered : ∀ i, answeredOwn (steps i h) = true) (i : ι) :
    Trusted (steps i h) := by
  refine ⟨hanswered i, fun c hc => ⟨?_, ?_⟩⟩
  · exact handed_synced h hsessions (handsBack_of_lends hpool) (i, .checkedOut c) (mem_of_steps hc)
  · exact handed_clean hsessions hpool hundisturbed hcalm (mem_of_steps hc)

theorem answered_suffix {t t' : List Event} (hsuffix : t <:+ t') (h : answeredOwn t' = true) :
    answeredOwn t = true := by
  obtain ⟨later, rfl⟩ := hsuffix
  induction later with
  | nil => exact h
  | cons e later ih => exact ih (answered_tail h)

/-- However the clients interleave, a connection that a client of simple queries gives back got `ROLLBACK`
exactly if its last status was not idle, then `DISCARD ALL` exactly if a command of this client changed the
session.  A cleanup that returns leaves both flags cleared. -/
theorem cleanup_as_needed (client : ι → Client) (h : List (ι × Event))
    (hsessions : ∀ i, IsSession (client i) (steps i h)) (hpool : lends h = true)
    (hundisturbed : ∀ x ∈ h, x.2.undisturbed = true) (hcalm : ∀ x ∈ h, x.2.calm = true)
    (hanswered : ∀ i, answeredOwn (steps i h) = true) :
    (∀ i c exit h', (i, .dropped c exit) :: h' <:+ h → c.server.bad = false →
      onlyQueries (steps i h') = true → CleanedExactly c (steps i h')) ∧
    ∀ fuel w, wp (checkinCleanup fuel) (fun _ w' => (∀ e ∈ w'.trace, e.undisturbed = true) →
      w'.conn.server.inTransaction = false ∧ w'.conn.server.needsCleanup = false)
      (fun _ _ => True) w := by
  constructor
  · intro i c exit h' hdrop hbad honly
    have hsuffix : h' <:+ h := (List.suffix_cons _ _).trans hdrop
    have hsession := (hsessions i).suffix (steps_suffix hdrop i)
    rw [steps_self] at hsession
    have htrusted : Trusted (steps i h') :=
      trusted_steps (fun i => (hsessions i).suffix (steps_suffix hsuffix i)) (lends_suffix hsuffix hpool)
        (fun x hx => hundisturbed x (hsuffix.subset hx)) (fun x hx => hcalm x (hsuffix.subset hx))
        (fun i => answered_suffix (steps_suffix hsuffix i) (hanswered i)) i
    have hpanicked : exit ≠ .panicked := by
      rintro rfl
      cases hcalm _ (hdrop.subset List.mem_cons_self)
    exact hsession.dropped exact_tenure c exit rfl hpanicked hbad htrusted
      (fun e he => hundisturbed (i, e) (hsuffix.subset (mem_of_steps he))) honly
  · intro fuel w
    refine wp_weaken (checkinCleanup_cleans fuel w) ?_
    exact fun _ w' hclean hu => ⟨(hclean hu).inTransaction, (hclean hu).needsCleanup⟩

end Clients

namespace Sample

/-- A client in session mode sets a variable and falls silent; the report of the timeout is written or not.
If it is, the connection is cleaned up. -/
def setScript (written : Bool) : List Input :=
  checkout (simpleQuery "SET x TO 1") (conn 1) ++ exchange [complete "SET", ready 'I'] ++
    [.idleTimeout, .clientWrite written, .sent [[complete "DISCARD ALL", ready 'I']], .arrives, .arrives]

/-- Connection 1 as that client leaves it. -/
def leftover (dirty : Bool) : Conn :=
  { conn 1 with server := { (conn 1).server with needsCleanup := dirty } }

/-- Another client runs a query on it, and then a transaction that it does not end. -/
def afterScript (dirty : Bool) : List Input :=
  checkout (simpleQuery "SELECT 1") (leftover dirty) ++ exchange [complete "SELECT 1", ready 'I'] ++
    (if dirty then [.sent [[complete "DISCARD ALL", ready 'I']], .arrives, .arrives] else []) ++
    checkout (simpleQuery "BEGIN") (conn 1) ++ exchange [complete "BEGIN", ready 'T'] ++
    [.idleTimeout, .clientWrite true, .sent [[complete "ROLLBACK", ready 'I']], .arrives, .arrives]

def cleanupClient (i : Bool) : Client :=
  if i then client else { client with transactionMode := false }

def cleanupHistory (written : Bool) : List (Bool × Event) :=
  twoLives (life (cleanupClient false) (setScript written)).trace
    (life (cleanupClient true) (afterScript (!written))).trace

theorem cleanupHistory_sessions (written i : Bool) :
    IsSession (cleanupClient i) (steps i (cleanupHistory written)) :=
  twoLives_sessions (life_session _ _ 0) (life_session _ _ 0) i

/-- For each connection given back, oldest first: by whom, what the pooler sent, and whether that is what was
needed. -/
def checkins (h : List (Bool × Event)) : List (Bool × List Message × Bool) :=
  (h.tails.filterMap fun
    | (i, .dropped c _) :: h' => some (i, (poolerSince (steps i h')).map Prod.snd,
        decide (CleanedExactly c (steps i h')))
    | _ => none).reverse

theorem reported_cleaned_as_needed :
    checkins (cleanupHistory true) = [(false, [simpleQuery "DISCARD ALL"], true), (true, [], true),
      (true, [simpleQuery "ROLLBACK"], true)] ∧
    ∀ i c exit h', (i, .dropped c exit) :: h' <:+ cleanupHistory true → c.server.bad = false →
      onlyQueries (steps i h') = true → CleanedExactly c (steps i h') := by
  refine ⟨by decide +kernel, ?_⟩
  exact (cleanup_as_needed cleanupClient (cleanupHistory true) (cleanupHistory_sessions true)
    (by decide +kernel) (by decide +kernel) (by decide +kernel) (by decide +kernel)).1

/-- The report is lost: the connection is given back with its variable set, and the next client pays for it
with a `DISCARD ALL` after a plain query. -/
theorem unreported_not_as_needed :
    lends (cleanupHistory false) = true ∧
    (∀ i, IsSession (cleanupClient i) (steps i (cleanupHistory false))) ∧
    (∀ i, answeredOwn (steps i (cleanupHistory false)) = true) ∧
    (∀ x ∈ cleanupHistory false, x.2.calm = true) ∧
    checkins (cleanupHistory false) = [(false, [], false), (true, [simpleQuery "DISCARD ALL"], false),
      (true, [simpleQuery "ROLLBACK"], true)] := by
  refine ⟨by decide +kernel, cleanupHistory_sessions false, ?_⟩
  decide +kernel

end Sample

end PgCat.Session
