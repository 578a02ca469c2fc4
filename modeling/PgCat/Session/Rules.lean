import PgCat.Lib.Interleaving
import PgCat.Session.Steps

/-!
# Rules — proof rules for receiving, serving and whole sessions

* `recv_rule`: an invariant of the messages `recv` reads over, and what holds when it stops.
* `serve_rule`: a connection is dropped on every way out.
* `handle_rule`, `handle_invariant`: whole sessions from the turns of their outer loop.
-/

namespace PgCat.Session

open Lib Protocol Router

namespace World

def read (w : World) (script : List Input) (m : Message) (rest : List Message) : World :=
  { w with
    script := script
    conn := w.conn.taken m rest
    trace := .received w.conn m :: w.trace }

def flushed (w : World) : World :=
  { w with conn := { w.conn with server := { w.conn.server with buffer := [] } } }

def buffered (w : World) (m : Message) : World :=
  { w with client := { w.client with buffer := w.client.buffer ++ [m] } }

def markedBad (w : World) : World :=
  { w with conn := { w.conn with server := { w.conn.server with bad := true } } }

def dropped (w : World) (exit : Exit) : World :=
  { w with trace := .dropped w.conn exit :: w.trace }

/-- A client at the start of its session.  It holds no connection; `conn` is a placeholder. -/
def start (client : Client) (map : ClientServerMap) (script : List Input) : World where
  script := script
  trace := []
  conn :=
    { id := 0
      server :=
        { address := ⟨0, "", 0, 0, 0, .primary⟩
          buffer := []
          processId := 0
          secretKey := 0
          inTransaction := false
          dataAvailable := false
          bad := false
          needsCleanup := false
          applicationName := "" }
      backend := some .idle
      unread := []
      lastRead := some (.ofChar 'Z' (utf8 "I"))
      lastReady := .idle }
  client := client
  router := .new
  map := map

end World

/-! ## A small pool for concrete sessions -/

namespace Sample

def address : Address := ⟨0, "localhost", 5432, 0, 0, .primary⟩

def pool : ConnectionPool where
  addresses := [[address]]
  settings := .default
  paused := false
  sized := rfl

def conn (id : Nat) : Conn where
  id := id
  server :=
    { address := address
      buffer := []
      processId := id
      secretKey := 7
      inTransaction := false
      dataAvailable := false
      bad := false
      needsCleanup := false
      applicationName := "psql" }
  backend := some .idle
  unread := []
  lastRead := some (.ofChar 'Z' (utf8 "I"))
  lastReady := .idle

def client : Client where
  buffer := []
  cancelMode := false
  transactionMode := true
  processId := 1
  secretKey := 2
  admin := false
  lastAddressId := none
  hasServerStats := false
  connectedToServer := false
  poolName := "db"
  username := "user"
  applicationName := "psql"

def externals : Externals := ⟨fun _ => none, fun _ => 0, false⟩

def ready (status : Char) : Message := .ofChar 'Z' (utf8 (String.singleton status))

def complete (tag : String) : Message := .ofChar 'C' (utf8 tag ++ [0])

/-- A message is sent and connection `c` is handed out for it. -/
def checkout (m : Message) (c : Conn) : List Input :=
  [.client m, .pool (some pool), .random 0, .order [address], .candidate (.fresh c),
    .idleTimeoutSetting 1000]

/-- The server replies, and the whole reply reaches the client in one part. -/
def exchange (reply : List Message) : List Input :=
  .sent [reply] :: reply.map (fun _ => .arrives) ++ [.clientWrite true]

def run (script : List Input) : World :=
  final (handle 4 externals) (.start client (fun _ => none) script)

end Sample

/-! ## Receiving -/

section Receiving

variable {timed : Bool} {E : Stop → World → Prop}

variable {w : World}

theorem next_input {Q : Input → World → Prop} (hpending : E .pending w)
    (hinput : ∀ i rest, w.script = i :: rest → Q i { w with script := rest }) : wp next Q E w := by
  unfold wp next
  cases hscript : w.script with
  | nil => exact hpending
  | cons i rest => exact hinput i rest hscript

theorem next_rule {Q : Input → World → Prop} (hpending : E .pending w)
    (hinput : ∀ i rest, Q i { w with script := rest }) : wp next Q E w :=
  next_input hpending fun i rest _ => hinput i rest

theorem orPanic_rule {α : Type} {o : Option α} {Q : α → World → Prop}
    (hnone : o = none → E .panicked w) (hsome : ∀ a, o = some a → Q a w) :
    wp (orPanic o) Q E w := by
  cases o with
  | none => exact hnone rfl
  | some a => exact hsome a rfl

theorem absorb_rule {Q : After → World → Prop} (hpending : E .pending w)
    (hread : ∀ m rest, w.conn.unread = m :: rest →
      Q (w.conn.server.take m).2 (w.read w.script m rest)) : wp absorb Q E w := by
  unfold wp absorb
  cases hu : w.conn.unread with
  | nil => exact hpending
  | cons m rest => exact hread m rest hu

theorem readServer_rule {Q : After → World → Prop} (hread : ∀ script m rest, w.conn.unread = m :: rest →
      Q (w.conn.server.take m).2 (w.read script m rest))
    (hbad : ∀ script, E (.failed .socketError) { w with script := script }.markedBad)
    (hpending : ∀ script, E .pending { w with script := script })
    (helapsed : timed = true → ∀ script, E .elapsed { w with script := script }) :
    wp (readServer timed) Q E w := by
  unfold readServer
  rw [wp_bind]
  refine next_rule (hpending w.script) ?_
  intro i rest
  split
  · exact absorb_rule (hpending rest) (hread rest)
  · exact hbad rest
  · cases timed with
    | false => exact hpending rest
    | true => exact helapsed rfl rest
  · exact hpending rest

/-- `I` holds while `recv` reads on, `Q` when it returns. -/
theorem recv_rule {fuel : Nat} {I Q : World → Prop}
    (hmore : ∀ w script m rest, I w → w.conn.unread = m :: rest →
      (w.conn.server.take m).2 = .more → I (w.read script m rest))
    (hdone : ∀ w script m rest, I w → w.conn.unread = m :: rest →
      (w.conn.server.take m).2 = .done → Q (w.read script m rest).flushed)
    (hfailed : ∀ w script m rest e, I w → w.conn.unread = m :: rest →
      (w.conn.server.take m).2 = .failed e → E (.failed e) (w.read script m rest))
    (hpanicked : ∀ w script m rest, I w → w.conn.unread = m :: rest →
      (w.conn.server.take m).2 = .panicked → E .panicked (w.read script m rest))
    (hbad : ∀ w script, I w → E (.failed .socketError) { w with script := script }.markedBad)
    (hpending : ∀ w script, I w → E .pending { w with script := script })
    (helapsed : timed = true → ∀ w script, I w → E .elapsed { w with script := script }) :
    ∀ w, I w → wp (recv fuel timed) (fun _ => Q) E w := by
  refine wp_repeatUntil (fun _ => I) ?_ (fun _ w hw => hpending w w.script hw) fuel ()
  intro _ w hw
  unfold recvTurn
  rw [wp_bind]
  refine readServer_rule ?_ (hbad w · hw) (hpending w · hw) (fun ht script => helapsed ht w script hw)
  intro script m rest hu
  cases ha : (w.conn.server.take m).2 with
  | more => exact hmore w script m rest hw hu ha
  | done => exact hdone w script m rest hw hu ha
  | failed e => exact hfailed w script m rest e hw hu ha
  | panicked => exact hpanicked w script m rest hw hu ha

theorem receiveFailed_returns (a : Address) (stop : Stop) :
    Returns (fun _ _ => False) (receiveFailed a stop) := by
  cases stop with
  | failed e => exact .seq fun _ => .seq fun _ => .ofThrow _
  | elapsed => exact .seq fun _ => .seq fun _ => .seq fun _ => .ofThrow _
  | panicked => exact .ofThrow _
  | pending => exact .ofThrow _

theorem onError_rule {α : Type} {m : Program α} {handler : Error → Program Unit}
    {Q : α → World → Prop} {E' : Stop → World → Prop} (h : wp m Q E' w)
    (hhandler : ∀ e w', E' (.failed e) w' → wp (handler e) (fun _ => E (.failed e)) E w')
    (hother : ∀ stop w', E' stop w' → (∀ e, stop ≠ .failed e) → E stop w') :
    wp (onError m handler) Q E w := by
  unfold onError
  rw [wp_tryCatch]
  refine wp_mono h (fun _ _ h => h) ?_
  intro stop w' hE
  cases stop with
  | failed e =>
    dsimp only
    rw [wp_bind]
    exact hhandler e w' hE
  | _ => exact hother _ w' hE nofun

theorem ban_rule {a : Address} {reason : BanReason} {Q : Unit → World → Prop}
    (h : ∀ w', Quiet w w' → Q () w') : wp (ban a reason) Q E w := by
  unfold ban
  rw [wp_ite]
  refine ⟨fun _ => h w (.refl w), fun _ => h _ ?_⟩
  exact ⟨rfl, ⟨rfl, rfl, rfl⟩, [.banned a reason, .stat .banError], rfl, by simp [Event.isNote]⟩

theorem writeClient_rule {r : Response} {Q : Unit → World → Prop} (hok : ∀ w', Quiet w w' → Q () w')
    (hfail : ∀ w', Quiet w w' → .replied r false ∈ w'.trace → E (.failed .socketError) w')
    (hpending : ∀ w', Quiet w w' → E .pending w') : wp (writeClient r) Q E w := by
  have hreplied : ∀ script ok, Quiet w
      { w with script := script, trace := .replied r ok :: w.trace } := fun script ok =>
    ⟨rfl, ⟨rfl, rfl, rfl⟩, [.replied r ok], rfl, by simp [Event.isNote]⟩
  have hinput : ∀ script, Quiet w { w with script := script } := fun script =>
    ⟨rfl, ⟨rfl, rfl, rfl⟩, [], rfl, by simp⟩
  unfold writeClient
  rw [wp_bind]
  refine next_rule (hpending w (.refl w)) ?_
  intro i rest
  split
  · exact hok _ (hreplied rest true)
  · exact hfail _ (hreplied rest false) (by simp)
  · exact hpending _ (hinput rest)

end Receiving

/-! ## Sending -/

/-- The messages were sent one after the other; the state of the server was the same at each. -/
structure Delivered (fromClient : Bool) (ms : List Message) (w w' : World) : Prop where
  server : w'.conn.server = w.conn.server
  client : w'.client = w.client
  sent : ∀ m ∈ ms, ∃ c reply, .sent c m reply fromClient ∈ w'.trace ∧ c.server = w.conn.server
  trace : ∃ es, w'.trace = es ++ w.trace
  observed {α : Type} (f : Event → Option α) (g : Message → Option α)
    (hf : ∀ c m reply, f (.sent c m reply fromClient) = g m) :
    observed f w'.trace = observed f w.trace ++ ms.filterMap g

variable (fuel : Nat) (fromClient : Bool) (ext : Externals) (pool : ConnectionPool) (a : Address) (m : Message)
  {Done Out : World → Prop} {E F : Stop → World → Prop} {w : World}

theorem checkinCleanup_rule {P : World → Prop} {Q : Unit → World → Prop}
    (hrollback : wp (runIf (w.conn.server.inTransaction = true) (rollback fuel)) (fun _ => P) E w)
    (hdiscard : ∀ w₁, P w₁ → wp (runIf (w₁.conn.server.needsCleanup = true) (discardAll fuel))
      (fun _ w₂ => Q () { w₂ with trace := .cleanedUp w₂.conn :: w₂.trace }) E w₁) :
    wp (checkinCleanup fuel) Q E w := by
  unfold checkinCleanup
  rw [wp_bind]
  change wp (runIf (w.conn.server.inTransaction = true) (rollback fuel) >>= _) _ _ w
  refine wp_seq hrollback fun _ w₁ h₁ => ?_
  rw [wp_bind]
  change wp (runIf (w₁.conn.server.needsCleanup = true) (discardAll fuel) >>= _) _ _ w₁
  exact wp_seq (hdiscard w₁ h₁) (fun _ _ h => h)

theorem setName_rule {name : String} {Q : Unit → World → Prop} (hsame : Q () w)
    (hrename : wp (rename fuel name w.conn.server.needsCleanup) Q E w) : wp (setName fuel name) Q E w := by
  unfold setName
  change wp (if w.conn.server.applicationName = name then _ else _) _ _ w
  rw [wp_ite]
  exact ⟨fun _ => hsame, fun _ => hrename⟩

theorem deliver_rule {R : List Message → List (List Message) → World → World → Prop} (hnil : ∀ w, R [] [] w w)
    (hcons : ∀ {m ms reply replies w w'}, R ms replies { w with
      conn := w.conn.push m reply
      trace := .sent w.conn m reply fromClient :: w.trace } w' → R (m :: ms) (reply :: replies) w w') :
    ∀ (ms : List Message) (replies : List (List Message)) (w : World), replies.length = ms.length →
      wp (deliver fromClient ms replies) (fun _ => R ms replies w) E w := by
  intro ms
  induction ms with
  | nil =>
    intro replies w hlen
    obtain rfl : replies = [] := List.eq_nil_of_length_eq_zero hlen
    exact hnil w
  | cons m ms ih =>
    intro replies w hlen
    cases replies with
    | nil => cases hlen
    | cons reply replies =>
      rw [deliver, wp_bind, deliverOne, wp_modify]
      exact wp_imp (ih replies _ (Nat.succ.inj hlen)) (fun _ _ h => hcons h)

theorem deliver_delivered (ms : List Message) (replies : List (List Message)) (w : World)
    (hlen : replies.length = ms.length) :
    wp (deliver fromClient ms replies) (fun _ => Delivered fromClient ms w) E w := by
  refine deliver_rule (R := fun ms _ => Delivered fromClient ms) fromClient ?_ ?_ ms replies w hlen
  · exact fun _ => ⟨rfl, rfl, by simp, ⟨[], rfl⟩, by simp⟩
  intro m ms reply _ w w' h
  rcases h.trace with ⟨es, htrace⟩
  refine ⟨h.server, h.client, ?_, ⟨es ++ [.sent w.conn m reply fromClient], by simp [htrace]⟩, ?_⟩
  · intro m' hm'
    rcases List.mem_cons.mp hm' with rfl | hm'
    · exact ⟨w.conn, reply, by simp [htrace], rfl⟩
    · exact h.sent m' hm'
  · intro α f g hf
    rw [h.observed f g hf, observed_cons, hf]
    cases hg : g m with
    | none => simp [hg]
    | some a => simp [hg]

theorem send_rule {timed fromClient : Bool} {ms : List Message} {Q : Unit → World → Prop}
    (hsent : ∀ script replies, replies.length = ms.length →
      wp (deliver fromClient ms replies) Q E { w with script := script })
    (hbad : ∀ script, E (.failed .socketError) { w with script := script }.markedBad)
    (hpending : ∀ script, E .pending { w with script := script })
    (helapsed : timed = true → ∀ script, E .elapsed { w with script := script }) :
    wp (send timed fromClient ms) Q E w := by
  unfold send
  rw [wp_bind]
  refine next_rule (hpending w.script) ?_
  intro i rest
  split
  · rw [wp_ite]
    exact ⟨hsent rest _, fun _ => hpending rest⟩
  · exact hbad rest
  · cases timed with
    | false => exact hpending rest
    | true => exact helapsed rfl rest
  · exact hpending rest

/-- A query of the pooler: `I` holds once it was sent, and receiving keeps it. -/
theorem query_rule {S : World → World → Prop} [Notes S] [Listens S] {I : World → Prop}
    (hkeeps : ∀ w w', S w w' → I w → I w') {fuel : Nat} {timed : Bool}
    {text : String}
    (hsent : ∀ script reply, I { w with
      script := script
      conn := w.conn.push (simpleQuery text) reply
      trace := .sent w.conn (simpleQuery text) reply false :: w.trace })
    (hunsent : ∀ stop script, E stop { w with script := script })
    (hbad : ∀ stop script, E stop { w with script := script }.markedBad)
    (hstop : ∀ stop w', I w' → E stop w') : wp (query fuel timed text) (fun _ => I) E w := by
  rw [query, wp_bind]
  refine send_rule ?_ (hbad _) (hunsent _) (fun _ => hunsent _)
  intro script replies hlen
  obtain ⟨reply, rfl⟩ := List.length_eq_one_iff.mp hlen
  change wp (repeatUntil .pending fuel (fun _ => queryTurn fuel timed) ()) _ _ { w with
    script := script
    conn := w.conn.push (simpleQuery text) reply
    trace := .sent w.conn (simpleQuery text) reply false :: w.trace }
  have hruns : Runs S (repeatUntil .pending fuel (fun _ => queryTurn fuel timed) ()) :=
    .loop (fun _ => queryTurn_runs fuel timed) fuel ()
  exact wp_mono (hruns.preserves hkeeps _ (hsent script reply)) (fun _ _ h => h) hstop

theorem send_delivered (timed fromClient : Bool) (ms : List Message) (w : World) :
    wp (send timed fromClient ms) (fun _ => Delivered fromClient ms w) (fun _ _ => True) w := by
  refine send_rule ?_ (fun _ => trivial) (fun _ => trivial) (fun _ _ => trivial)
  intro script replies hlen
  refine wp_imp (deliver_delivered fromClient ms replies _ hlen) ?_
  exact fun _ w' h => ⟨h.server, h.client, h.sent, h.trace, h.observed⟩

theorem send_one (timed fromClient : Bool) (m : Message) (w : World) :
    wp (send timed fromClient [m])
      (fun _ w' => ∃ script reply, w' = { w with
        script := script
        conn := w.conn.push m reply
        trace := .sent w.conn m reply fromClient :: w.trace })
      (fun _ _ => True) w := by
  refine send_rule ?_ (fun _ => trivial) (fun _ => trivial) (fun _ _ => trivial)
  intro script replies hlen
  rcases List.length_eq_one_iff.mp hlen with ⟨reply, rfl⟩
  exact ⟨script, reply, rfl⟩

theorem sendServerMessage_delivered (ms : List Message) (w : World) :
    wp (sendServerMessage a ms) (fun _ => Delivered true ms w) (fun _ _ => True) w :=
  onError_rule (send_delivered _ _ _ w) (fun _ _ _ => wp_true) (fun _ _ _ _ => trivial)

/-! ## Serving -/

theorem leaveIfOver_rule {isQuery : Bool} {Q : Option Exit → World → Prop}
    (h : ∀ exit w', Quiet w w' →
      exit = none ∨ exit = some .transactionOver ∧ w.conn.server.inTransaction = false →
      Q exit w') : wp (leaveIfOver isQuery) Q E w := by
  have hstats : ∀ es : List Stat, Quiet w { w with trace := es.map .stat ++ w.trace } := fun es =>
    ⟨rfl, ⟨rfl, rfl, rfl⟩, es.map .stat, rfl, by simp [Event.isNote]⟩
  unfold leaveIfOver
  rw [wp_bind]
  change wp (if w.conn.server.inTransaction = true then _ else _) Q E w
  cases hc : w.conn.server.inTransaction with
  | true => exact h none w (.refl w) (.inl rfl)
  | false =>
    rw [if_neg (by simp)]
    cases hm : w.client.transactionMode with
    | false => exact h none _ (hstats [.serverTransaction, .transaction]) (.inl rfl)
    | true =>
      cases isQuery with
      | false => exact h _ _ (hstats [.serverTransaction, .transaction]) (.inr ⟨rfl, hc⟩)
      | true => exact h _ _ (hstats [.idle, .serverTransaction, .transaction]) (.inr ⟨rfl, hc⟩)

/-- The ways out of the transaction loop; it is left for the end of a transaction only when none is
open. -/
def Closes (exit : Option Exit) (w : World) : Prop :=
  match exit with
  | some .transactionOver => w.conn.server.inTransaction = false
  | none | some .idleTimeout | some .finished => True
  | _ => False

theorem leaveIfOver_closes (isQuery : Bool) : Returns Closes (leaveIfOver isQuery) := by
  intro w
  refine leaveIfOver_rule ?_
  rintro exit w' hq (rfl | ⟨rfl, hclosed⟩)
  · trivial
  · change w'.conn.server.inTransaction = false
    rw [hq.conn]
    exact hclosed

theorem dispatch_returns {P : Option Exit → World → Prop} (hnone : ∀ w, P none w)
    (hleave : ∀ isQuery, Returns P (leaveIfOver isQuery))
    (hterminate : m.frontend = .terminate → ∀ w, P (some .finished) w) :
    Returns P (dispatch fuel pool a m) := by
  unfold dispatch
  cases hm : m.frontend with
  | query => exact .seq fun _ => hleave _
  | terminate => exact .seq fun _ => .seq fun _ => .seq fun _ => .ofPure (hterminate hm)
  | sync | copyDone
  | copyFail => exact .seq fun _ => .seq fun _ => .seq fun _ => .seq fun _ => .seq fun _ => hleave _
  | copyData => exact .seq fun _ => .seq fun _ => .seq fun _ => .ofPure hnone
  | other => exact .ofPure hnone
  | _ => exact .seq fun _ => .ofPure hnone

theorem dispatch_closes : Returns Closes (dispatch fuel pool a m) :=
  dispatch_returns fuel pool a m (fun _ => trivial) leaveIfOver_closes (fun _ _ => trivial)

theorem dispatch_goesOn {m : Message} (hm : m.frontend ≠ .terminate) :
    Returns (fun exit _ => exit ≠ some .finished) (dispatch fuel pool a m) := by
  refine dispatch_returns fuel pool a m (fun _ => nofun) ?_ (fun h => absurd h hm)
  intro isQuery w
  refine leaveIfOver_rule ?_
  rintro exit w' _ (rfl | ⟨rfl, _⟩)
  · exact nofun
  · exact nofun

theorem dispatch_rule {fuel : Nat} {pool : ConnectionPool} {a : Address} {m : Message} {I G : World → Prop}
    (hterminate : m.frontend = .terminate → wp (handleTerminate fuel) (fun _ => G) E w)
    (hother : m.frontend ≠ .terminate → wp (dispatch fuel pool a m) (fun _ => I) E w) :
    wp (dispatch fuel pool a m) (fun exit w' => if exit = some .finished then G w' else I w') E w := by
  by_cases hm : m.frontend = .terminate
  · have hhandle : dispatch fuel pool a m = handleTerminate fuel := by simp [dispatch, hm]
    have hfinished : Returns (fun exit _ => exit = some .finished) (handleTerminate fuel) :=
      .seq fun _ => .seq fun _ => .seq fun _ => .ofPure fun _ => rfl
    rw [hhandle]
    refine wp_mono (wp_and (hterminate hm) (hfinished w)) ?_ (fun _ _ h => h.1)
    rintro exit w' ⟨hG, rfl⟩
    rw [if_pos rfl]
    exact hG
  · refine wp_mono (wp_and (hother hm) (dispatch_goesOn fuel pool a hm w)) ?_ (fun _ _ h => h.1)
    rintro exit w' ⟨hI, hexit⟩
    rw [if_neg hexit]
    exact hI

/-- What every message establishes when it ends the loop, and the idle timeout as well, the loop
establishes. -/
theorem transactionLoop_returns {P : Option Exit → World → Prop} (idleTimeout : Nat)
    (pool : ConnectionPool) (a : Address) (hdispatch : ∀ m, Returns P (dispatch fuel pool a m))
    (hidle : ∀ w, P (some .idleTimeout) w) (initial : Option Message) :
    Returns (fun exit => P (some exit))
      (repeatUntil .pending fuel (transactionTurn fuel idleTimeout pool a) initial) := by
  intro w
  refine wp_repeatUntil (fun _ _ => True) ?_ (fun _ _ _ => trivial) fuel initial w trivial
  intro initial w _
  unfold transactionTurn
  refine wp_seq wp_true ?_
  intro m w₁ _
  cases m with
  | none => exact hidle w₁
  | some m =>
    dsimp only
    refine wp_seq (hdispatch m w₁) ?_
    intro exit w₂ h₂
    cases exit with
    | none => trivial
    | some exit => exact h₂

theorem transactionLoop_closes (idleTimeout : Nat) (pool : ConnectionPool) (a : Address)
    (initial : Option Message) :
    Returns (fun exit => Closes (some exit))
      (repeatUntil .pending fuel (transactionTurn fuel idleTimeout pool a) initial) :=
  transactionLoop_returns fuel idleTimeout pool a (dispatch_closes fuel pool a) (fun _ => trivial)
    initial

def World.after (w : World) (e : Event) : World :=
  { w with trace := e :: w.trace }

/-- `I` holds while a message of the client is waited for. -/
theorem awaitMessage_rule {I : World → Prop} {Q : Option Message → World → Prop} {E : Stop → World → Prop}
    (hpending : ∀ w, I w → E .pending w)
    (hinput : ∀ w i rest, w.script = i :: rest → i ≠ .clientGone → I w → I { w with script := rest })
    (hgone : ∀ w rest, I w → E (.failed .socketError) { w with script := rest })
    (hread : ∀ w m, I w → Q (some m) (w.after (.message m)))
    (htold : ∀ w, I w → wp (do
      writeClient (.errorTerminal "terminating connection due to administrator command")
      stat .disconnect
      pure none) Q E w) {w : World} (hw : I w) : wp awaitMessage Q E w := by
  rw [awaitMessage, wp_bind]
  refine next_input (hpending w hw) fun i rest hscript => ?_
  split
  · have hrest := hinput w _ rest hscript nofun hw
    rw [wp_bind, wp_get, wp_ite]
    refine ⟨fun _ => ?_, fun _ => htold _ hrest⟩
    rw [wp_bind, readClient, wp_bind]
    refine next_input (hpending _ hrest) fun i rest' hscript' => ?_
    split
    · exact hread _ _ (hinput _ _ rest' hscript' nofun hrest)
    · exact hgone _ rest' hrest
    · rename_i hi
      exact hpending _ (hinput _ i rest' hscript' hi hrest)
  · exact hread _ _ (hinput w _ rest hscript nofun hw)
  · exact hgone w rest hw
  · rename_i hi
    exact hpending _ (hinput w i rest hscript hi hw)

section Loop

variable {fuel idleTimeout : Nat} {pool : ConnectionPool} {a : Address} {m : Message} {w : World}
  {I : World → Prop} {J : Message → World → Prop} {Q : Exit → World → Prop} {E : Stop → World → Prop}

/-- `J m` holds when message `m` is about to be handled, `I` when the next one is waited for, `Q exit` when
the loop is left. -/
theorem transactionLoop_rule
    (hawait : ∀ w, I w → wp (awaitInTransaction fuel idleTimeout)
      (fun read w' => read.elim (Q .idleTimeout w') fun m => J m w') E w)
    (hdispatch : ∀ m w, J m w → wp (dispatch fuel pool a m)
      (fun exit w' => exit.elim (I w') fun exit => Q exit w') E w)
    (hhandling : ∀ m w, J m w → E .pending w) (hwaiting : ∀ w, I w → E .pending w) (hw : J m w) :
    wp (repeatUntil .pending fuel (transactionTurn fuel idleTimeout pool a) (some m)) Q E w := by
  have hturn : ∀ (initial : Option Message) (w : World),
      (initial.elim (I w) fun m => J m w) →
      wp (transactionTurn fuel idleTimeout pool a initial)
        (fun r w' => r.elim (fun initial => initial.elim (I w') fun m => J m w') fun exit => Q exit w')
        E w := by
    intro initial w hw
    have hmessage : wp (transactionMessage fuel idleTimeout initial)
        (fun read w' => read.elim (Q .idleTimeout w') fun m => J m w') E w := by
      cases initial with
      | none => exact hawait w hw
      | some m => exact hw
    rw [transactionTurn]
    refine wp_seq hmessage ?_
    intro read w₁ h₁
    cases read with
    | none => exact h₁
    | some m =>
      dsimp only
      refine wp_seq (hdispatch m w₁ h₁) ?_
      intro exit w₂ h₂
      cases exit with
      | none => exact h₂
      | some exit => exact h₂
  refine wp_repeatUntil (E := E) (fun initial w => initial.elim (I w) fun m => J m w) ?_ ?_ fuel (some m)
    w hw
  · intro initial w' h
    refine wp_imp (hturn initial w' h) ?_
    intro r w'' h'
    cases r with
    | inl next => exact h'
    | inr exit => exact h'
  · intro initial w' h
    cases initial with
    | none => exact hwaiting w' h
    | some m => exact hhandling m w' h

theorem serveHeld_rule {P : Exit → World → Prop}
    (hassign : wp (assign fuel a) (fun _ => J m) E w)
    (hsetting : ∀ w', J m w' → wp idleTimeoutSetting (fun _ => J m) E w')
    (hawait : ∀ idleTimeout w, I w → wp (awaitInTransaction fuel idleTimeout)
      (fun read w' => read.elim (Q .idleTimeout w') fun m => J m w') E w)
    (hdispatch : ∀ m w, J m w → wp (dispatch fuel pool a m)
      (fun exit w' => exit.elim (I w') fun exit => Q exit w') E w)
    (hhandling : ∀ m w, J m w → E .pending w) (hwaiting : ∀ w, I w → E .pending w)
    (hcheckin : ∀ exit w', Q exit w' →
      wp (checkin fuel exit) (fun _ => P exit) E (w'.after (.left w'.conn exit))) :
    wp (serveHeld fuel pool a m) P E w := by
  rw [serveHeld]
  refine wp_seq hassign ?_
  intro _ w₁ h₁
  refine wp_seq (hsetting w₁ h₁) ?_
  intro idleTimeout w₂ h₂
  refine wp_seq (transactionLoop_rule (hawait idleTimeout) hdispatch hhandling hwaiting h₂) ?_
  intro exit w₃ h₃
  change wp (checkin fuel exit >>= fun _ => pure exit) _ _ (w₃.after (.left w₃.conn exit))
  exact wp_seq (hcheckin exit w₃ h₃) (fun _ _ h => h)

/-- The same where the message does not matter: `R none` while the client is served, `R (some exit)` when the
loop is left. -/
theorem serveHeld_served_rule {R : Option Exit → World → Prop} {P : Exit → World → Prop}
    (hassign : wp (assign fuel a) (fun _ => R none) E w)
    (hsetting : ∀ w, R none w → wp idleTimeoutSetting (fun _ => R none) E w)
    (hawait : ∀ idleTimeout w, R none w → wp (awaitInTransaction fuel idleTimeout) (fun _ => R none) E w)
    (hidle : ∀ w, R none w → R (some .idleTimeout) w)
    (hdispatch : ∀ m w, R none w → wp (dispatch fuel pool a m) R E w)
    (hpending : ∀ w, R none w → E .pending w)
    (hcheckin : ∀ exit w', R (some exit) w' →
      wp (checkin fuel exit) (fun _ => P exit) E (w'.after (.left w'.conn exit))) :
    wp (serveHeld fuel pool a m) P E w := by
  refine serveHeld_rule (I := R none) (J := fun _ => R none) (Q := fun exit => R (some exit)) hassign hsetting
    ?_ ?_ (fun _ => hpending) hpending hcheckin
  · intro idleTimeout w hw
    refine wp_imp (hawait idleTimeout w hw) ?_
    intro read w' h
    cases read with
    | none => exact hidle w' h
    | some m => exact h
  · intro m w hw
    refine wp_imp (hdispatch m w hw) ?_
    intro exit w' h
    cases exit with
    | none => exact h
    | some exit => exact h

/-- What every move keeps holds when the loop is left; `C` is what the loop returns with. -/
theorem serveHeld_kept_rule {C P : Exit → World → Prop}
    (hmove : ∀ w w', Move ⟨true, true⟩ w w' → I w → I w')
    (hexits : ∀ idleTimeout, Returns C
      (repeatUntil .pending fuel (transactionTurn fuel idleTimeout pool a) (some m)))
    (hstop : ∀ stop w, I w → E stop w)
    (hcheckin : ∀ exit w', I w' → C exit w' →
      wp (checkin fuel exit) (fun _ => P exit) E (w'.after (.left w'.conn exit)))
    (hw : I w) : wp (serveHeld fuel pool a m) P E w := by
  have hkeeps : ∀ {α : Type} {m : Program α}, Runs (Move ⟨true, true⟩) m → ∀ w, I w →
      wp m (fun _ => I) E w := fun hm w hw =>
    wp_mono (hm.preserves hmove w hw) (fun _ _ h => h) (fun stop w' h => hstop stop w' h)
  rw [serveHeld]
  refine wp_seq (hkeeps (assign_runs fuel a) w hw) ?_
  intro _ w₁ h₁
  refine wp_seq (hkeeps idleTimeoutSetting_runs w₁ h₁) ?_
  intro idleTimeout w₂ h₂
  have hturns : Runs (Move ⟨true, true⟩)
      (repeatUntil .pending fuel (transactionTurn fuel idleTimeout pool a) (some m)) :=
    .loop (transactionTurn_runs fuel idleTimeout pool a) fuel (some m)
  rw [wp_bind]
  refine wp_mono (wp_and (hkeeps hturns w₂ h₂) (hexits idleTimeout w₂)) ?_ (fun _ _ h => h.1)
  rintro exit w₃ ⟨h₃, hexit⟩
  change wp (checkin fuel exit >>= fun _ => pure exit) _ _ (w₃.after (.left w₃.conn exit))
  exact wp_seq (hcheckin exit w₃ h₃ hexit) (fun _ _ h => h)

end Loop

theorem serve_rule {fuel : Nat} {pool : ConnectionPool} {a : Address} {m : Message}
    {P : Exit → World → Prop} {F' : Stop → World → Prop}
    (h : wp (serveHeld fuel pool a m) P F w)
    (hout : ∀ exit w', P exit w' → exit ≠ .finished → Out (w'.dropped exit))
    (hfinished : ∀ w', P .finished w' → Done (w'.dropped .finished))
    (hpending : ∀ w', F .pending w' → F' .pending w')
    (hpanicked : ∀ w', F .panicked w' → F' .panicked (w'.dropped .panicked))
    (hfailed : ∀ stop w', F stop w' → stop ≠ .pending → stop ≠ .panicked →
      F' stop (w'.dropped .failed)) :
    wp (serve fuel pool a m) (fun fin w' => if fin then Done w' else Out w') F' w := by
  unfold serve
  rw [wp_bind, wp_tryCatch]
  refine wp_mono h ?_ ?_
  · intro exit w' hP
    by_cases he : exit = .finished
    · subst he
      exact hfinished w' hP
    · have hfin : (decide (exit = .finished)) = false := decide_eq_false he
      have hdrop : Out (w'.dropped exit) := hout exit w' hP he
      change if decide (exit = .finished) = true then Done _ else Out _
      simpa [hfin, World.dropped] using hdrop
  · intro stop w' hF
    cases stop with
    | pending => exact hpending w' hF
    | panicked => exact hpanicked w' hF
    | failed e | elapsed => exact hfailed _ w' hF (by simp) (by simp)

/-! ## Sessions -/

/-- What a turn up to the checkout leaves: no connection, the end of `handle`, or a connection for a
message. -/
def Turn.Serves (Out Done : World → Prop) (Held : Message → World → Prop) : Turn → World → Prop
  | .again => Out
  | .returned => Done
  | .serve _ _ m => Held m

/-- The same where the message does not matter. -/
def Turn.Leaves (Out Held Done : World → Prop) : Turn → World → Prop
  | .again => Out
  | .returned => Done
  | .serve _ _ _ => Held

theorem Turn.Leaves.serves {Held : World → Prop} {turn : Turn}
    (h : turn.Leaves Out Held Done w) : turn.Serves Out Done (fun _ => Held) w := by
  cases turn with
  | _ => exact h

theorem handle_serves {Held : Message → World → Prop} (hpending : ∀ w, Out w → F .pending w)
    (hroute : ∀ w, Out w → wp (route fuel ext) (Turn.Serves Out Done Held) F w)
    (hserve : ∀ pool a m w, Held m w →
      wp (serve fuel pool a m) (fun fin w' => if fin then Done w' else Out w') F w)
    (w : World) (hcancel : w.client.cancelMode = true → wp cancelQuery (fun _ => Done) F w)
    (hregister : Out { w with router := .new, trace := .stat .register :: w.trace }) :
    wp (handle fuel ext) (fun _ => Done) F w := by
  have hloop : ∀ w, Out w →
      wp (repeatUntil .pending fuel (fun _ => handleTurn fuel ext) ()) (fun _ => Done) F w := by
    refine wp_repeatUntil (fun _ => Out) ?_ (fun _ w hw => hpending w hw) fuel ()
    intro _ w hw
    unfold handleTurn
    refine wp_seq (hroute w hw) ?_
    intro turn w' hw'
    cases turn with
    | again => exact hw'
    | returned => exact hw'
    | serve pool a m =>
      refine wp_seq (hserve pool a m w' hw') ?_
      intro fin w'' h
      cases fin with
      | false => simpa using h
      | true => simpa using h
  change wp (if w.client.cancelMode = true then cancelQuery else _) _ _ w
  split
  · rename_i hmode
    exact hcancel hmode
  · exact hloop _ hregister

theorem handle_rule {Held : World → Prop} (hpending : ∀ w, Out w → F .pending w)
    (hroute : ∀ w, Out w → wp (route fuel ext) (Turn.Leaves Out Held Done) F w)
    (hserve : ∀ pool a m w, Held w →
      wp (serve fuel pool a m) (fun fin w' => if fin then Done w' else Out w') F w)
    (w : World) (hcancel : w.client.cancelMode = true → wp cancelQuery (fun _ => Done) F w)
    (hregister : Out { w with router := .new, trace := .stat .register :: w.trace }) :
    wp (handle fuel ext) (fun _ => Done) F w :=
  handle_serves fuel ext hpending
    (fun w hw => wp_mono (hroute w hw) (fun _ _ h => h.serves) (fun _ _ h => h)) hserve w hcancel
    hregister

/-- What the steps in front of a checkout and `serve` keep, a session keeps. -/
theorem handle_invariant (hroute : ∀ w w', Route w w' → Out w → Out w') (hdone : ∀ w, Out w → Done w)
    (hserve : ∀ pool a m w, Out w →
      wp (serve fuel pool a m) (fun fin w' => if fin then Done w' else Out w') (fun _ => Done) w)
    (w : World) (hw : Out w) : wp (handle fuel ext) (fun _ => Done) (fun _ => Done) w := by
  have weaken : ∀ {α : Type} {m : Program α}, Runs Route m → ∀ w, Out w →
      wp m (fun _ => Out) (fun _ => Done) w := fun hm w hw =>
    wp_mono (hm.preserves hroute w hw) (fun _ _ h => h) (fun _ w' h => hdone w' h)
  refine handle_rule fuel ext hdone ?_ hserve w ?_ ?_
  · intro w hw
    refine wp_imp (weaken (route_runs fuel ext) w hw) ?_
    intro turn w' h
    cases turn with
    | again => exact h
    | returned => exact hdone w' h
    | serve pool a m => exact h
  · intro _
    exact wp_imp (weaken cancelQuery_runs w hw) (fun _ w' h => hdone w' h)
  · exact hroute _ _ (.pooling (.move (.still (.note _ _ rfl)))) (hroute _ _ (.router w .new) hw)

/-! ## The whole life of a client -/

def World.clientGone (w : World) : World :=
  { w with
    map := Function.update w.map w.client.key none
    trace := .clientDropped :: w.trace }

section Entrypoint

variable {Start Over End : World → Prop} {F : Stop → World → Prop}

theorem dropClient_rule (hdrop : ∀ w, Over w → End w.clientGone)
    (hend : ∀ w, End w → End (w.after (.stat .serverIdle))) (w : World) (hw : Over w) :
    wp dropClient (fun _ => End) F w := by
  change wp (runIf (w.client.connectedToServer ∧ w.client.hasServerStats) (stat .serverIdle)) _ _
    w.clientGone
  unfold runIf
  rw [wp_ite]
  exact ⟨fun _ => hend _ (hdrop w hw), fun _ => hdrop w hw⟩

theorem afterHandle_rule (isErr : Bool)
    (hover : ∀ w e, e = .drain (-1) ∨ e = .stat .disconnect → Over w → Over (w.after e)) (w : World)
    (hw : Over w) : wp (afterHandle isErr) (fun _ => Over) F w := by
  change wp (if w.client.admin = true then pure () else _) _ _ w
  split
  · exact hw
  · have hdrain : Over (w.after (.drain (-1))) := hover w _ (.inl rfl) hw
    change wp (runIf (isErr = true) (stat .disconnect)) _ _ (w.after (.drain (-1)))
    unfold runIf
    rw [wp_ite]
    exact ⟨fun _ => hover _ _ (.inr rfl) hdrain, fun _ => hdrain⟩

theorem entrypoint_rule (fuel : Nat) (ext : Externals)
    (hdrain : ∀ w, Start w → Start (w.after (.drain 1)))
    (hhandle : ∀ w, Start w → wp (handle fuel ext) (fun _ => Over)
      (fun stop w' => if stop = .pending then End w' else Over w') w)
    (hover : ∀ w e, e = .drain (-1) ∨ e = .stat .disconnect → Over w → Over (w.after e))
    (hdrop : ∀ w, Over w → End w.clientGone)
    (hend : ∀ w, End w → End (w.after (.stat .serverIdle))) (w : World) (hw : Start w) :
    wp (clientEntrypoint fuel ext) (fun _ => End) (fun _ => End) w := by
  have hstart : wp (runIf (w.client.admin = false) (emit (.drain 1))) (fun _ => Start)
      (fun _ => End) w := by
    unfold runIf
    rw [wp_ite]
    exact ⟨fun _ => hdrain w hw, fun _ => hw⟩
  have hafter : ∀ isErr w, Over w →
      wp (do afterHandle isErr; dropClient) (fun _ => End) (fun _ => End) w := by
    intro isErr w hw
    exact wp_seq (afterHandle_rule isErr hover w hw) (fun _ => dropClient_rule hdrop hend)
  change wp (runIf (w.client.admin = false) (emit (.drain 1)) >>= _) _ _ w
  refine wp_seq hstart ?_
  intro _ w₁ h₁
  rw [wp_bind, wp_tryCatch]
  refine wp_mono (hhandle w₁ h₁) (fun _ => hafter false) ?_
  intro stop w₂ h₂
  cases stop with
  | pending => exact h₂
  | failed e =>
    change wp (afterHandle true >>= _) _ _ w₂
    refine wp_seq (afterHandle_rule true hover w₂ h₂) ?_
    intro _ w₃ h₃
    exact wp_seq (dropClient_rule hdrop hend w₃ h₃) (fun _ _ h => h)
  -- The remaining two do not come back to the entrypoint: only the client is dropped.
  | elapsed =>
    change wp (dropClient >>= _) _ _ w₂
    exact wp_seq (dropClient_rule hdrop hend w₂ h₂) (fun _ _ h => h)
  | panicked =>
    change wp (dropClient >>= _) _ _ w₂
    exact wp_seq (dropClient_rule hdrop hend w₂ h₂) (fun _ _ h => h)

/-- What `client_entrypoint` reports around `handle`. -/
def Event.isReport : Event → Bool
  | .drain _ | .stat _ => true
  | _ => false

theorem entrypoint_invariant (fuel : Nat) (ext : Externals) {I : World → Prop}
    (hstart : ∀ w, Start w → Start (w.after (.drain 1)))
    (hhandle : ∀ w, Start w → wp (handle fuel ext) (fun _ => I) (fun _ => I) w)
    (hreport : ∀ w e, e.isReport = true → I w → I (w.after e))
    (hdrop : ∀ w, I w → I w.clientGone) (w : World) (hw : Start w) :
    I (final (clientEntrypoint fuel ext) w) := by
  have hany : ∀ w, Start w → wp (handle fuel ext) (fun _ => I)
      (fun stop w' => if stop = .pending then I w' else I w') w := by
    intro w hw
    refine wp_mono (hhandle w hw) (fun _ _ h => h) (fun stop w' h => ?_)
    rw [ite_self]
    exact h
  have hover : ∀ w e, e = .drain (-1) ∨ e = .stat .disconnect → I w → I (w.after e) := by
    rintro w e (rfl | rfl) h
    · exact hreport w _ rfl h
    · exact hreport w _ rfl h
  exact final_of_wp (entrypoint_rule fuel ext hstart hany hover hdrop
    (fun w h => hreport w _ rfl h) w hw)

end Entrypoint

/-- What a client may have done up to some moment. -/
def IsSession (client : Client) (t : List Event) : Prop :=
  ∃ fuel ext map script,
    t <:+ (final (clientEntrypoint fuel ext) (.start client map script)).trace

theorem IsSession.suffix {client : Client} {t t' : List Event} (h : IsSession client t)
    (hsuffix : t' <:+ t) : IsSession client t' := by
  rcases h with ⟨fuel, ext, map, script, ht⟩
  exact ⟨fuel, ext, map, script, hsuffix.trans ht⟩

namespace Sample

def life (client : Client) (script : List Input) : World :=
  final (clientEntrypoint 4 externals) (.start client (fun _ => none) script)

theorem life_session (client : Client) (script : List Input) (n : Nat) :
    IsSession client ((life client script).trace.drop n) :=
  ⟨4, externals, fun _ => none, script, List.drop_suffix _ _⟩

/-- First the one client, up to some moment, then the other. -/
def twoLives (first second : List Event) : List (Bool × Event) :=
  only true second ++ only false first

theorem twoLives_sessions {c : Bool → Client} {first second : List Event} (hfirst : IsSession (c false) first)
    (hsecond : IsSession (c true) second) (i : Bool) : IsSession (c i) (steps i (twoLives first second)) := by
  cases i with
  | false => simpa [twoLives, steps_append, steps_only] using hfirst
  | true => simpa [twoLives, steps_append, steps_only] using hsecond

end Sample

end PgCat.Session
