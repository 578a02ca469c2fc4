import PgCat.Protocol.Message

/-!
# Backend — the replies of a conforming server

What a PostgreSQL backend may send in reply to each message, as an acceptor.  A `Phase` is how far one
reply has come; `Backend.react b m reply` is the backend after it has taken `m` in state `b` and
sent `reply`, or `none` if a conforming server does not do that.  Notices, notifications and
parameter reports may stand anywhere.

* `ready`: between messages; `copyIn`: waiting for copy data; `skipping`: an extended-protocol message
  failed and everything up to `Sync` is discarded.
* `status` is the transaction status the last `ReadyForQuery` reported, as long as nothing was
  executed since.
-/

namespace PgCat.Protocol

/-! ## Replies -/

inductive Phase
  /-- Between the statements of a simple query. -/
  | statements
  | rows
  /-- Copy-out in a simple query (`true`) or a portal. -/
  | copyOut (simple : Bool)
  /-- `CommandComplete` of a copy is due. -/
  | copyEnd (simple : Bool)
  /-- `ReadyForQuery` is due; before it, the commit at a `Sync` may still fail. -/
  | closing
  | parsing
  | binding
  | describing
  | portal
  /-- No reply yet, only an error may come. -/
  | mayFail (simple : Bool)
  /-- Nothing but asynchronous messages. -/
  | silent
  /-- The message was processed. -/
  | done
  /-- The message failed. -/
  | skip
  | copyIn (simple : Bool)
  | ready (s : TxStatus)
  deriving DecidableEq, Repr

namespace Phase

def afterError : Bool → Phase
  | true => .closing
  | false => .skip

def afterCopy : Bool → Phase
  | true => .statements
  | false => .done

/-- One message of a reply that is not asynchronous. -/
def advance (m : Message) : Phase → BackendKind → Option Phase
  | .statements, .rowDescription => some .rows
  | .statements, .commandComplete => some .statements
  | .statements, .emptyQuery => some .statements
  | .statements, .copyOutResponse => some (.copyOut true)
  | .statements, .copyInResponse => some (.copyIn true)
  | .statements, .errorResponse => some .closing
  | .statements, .readyForQuery => m.readyStatus.map .ready
  | .rows, .dataRow => some .rows
  | .rows, .commandComplete => some .statements
  | .rows, .errorResponse => some .closing
  | .copyOut simple, .copyData => some (.copyOut simple)
  | .copyOut simple, .copyDone => some (.copyEnd simple)
  | .copyOut simple, .errorResponse => some (afterError simple)
  | .copyEnd simple, .commandComplete => some (afterCopy simple)
  | .copyEnd simple, .errorResponse => some (afterError simple)
  | .closing, .errorResponse => some .closing
  | .closing, .readyForQuery => m.readyStatus.map .ready
  | .parsing, .parseComplete => some .done
  | .parsing, .errorResponse => some .skip
  | .binding, .bindComplete => some .done
  | .binding, .errorResponse => some .skip
  | .describing, .parameterDescription => some .describing
  | .describing, .rowDescription => some .done
  | .describing, .noData => some .done
  | .describing, .errorResponse => some .skip
  | .portal, .dataRow => some .portal
  | .portal, .commandComplete => some .done
  | .portal, .emptyQuery => some .done
  | .portal, .portalSuspended => some .done
  | .portal, .copyOutResponse => some (.copyOut false)
  | .portal, .copyInResponse => some (.copyIn false)
  | .portal, .errorResponse => some .skip
  | .mayFail simple, .errorResponse => some (afterError simple)
  | _, _ => none

def step (p : Phase) (m : Message) : Option Phase :=
  if m.backend = .async then some p else p.advance m m.backend

def run (p : Phase) (reply : List Message) : Option Phase :=
  reply.foldlM step p

end Phase

/-! ## The backend -/

inductive Mode
  | ready
  | copyIn (simple : Bool)
  | skipping
  deriving DecidableEq, Repr

structure Backend where
  mode : Mode
  status : Option TxStatus
  deriving DecidableEq, Repr

def Message.isCopy (m : Message) : Bool :=
  m.frontend = .copyData || m.frontend = .copyDone || m.frontend = .copyFail

namespace Backend

def idle : Backend := ⟨.ready, some .idle⟩

def start : Mode → FrontendKind → Phase
  | .ready, .query => .statements
  | .ready, .parse => .parsing
  | .ready, .bind => .binding
  | .ready, .describe => .describing
  | .ready, .execute => .portal
  | .ready, .sync => .closing
  | .ready, _ => .silent
  | .copyIn simple, .copyData => .mayFail simple
  | .copyIn simple, .copyDone => .copyEnd simple
  -- `Sync` is ignored during a copy; any other message than copy data makes the copy fail.
  | .copyIn _, .sync => .silent
  | .copyIn simple, _ => .mayFail simple
  | .skipping, .sync => .closing
  | .skipping, _ => .silent

/-- May the reply to `m` end with status `s`?  Outside a transaction `DISCARD ALL` does not start one. -/
def mayEnd (b : Backend) (m : Message) (s : TxStatus) : Bool :=
  s = .idle || !(m = simpleQuery "DISCARD ALL" ∧ b.status = some .idle)

/-- State after a reply that ended in the given phase. -/
def finish (b : Backend) (m : Message) : Phase → Option Backend
  | .ready s => if b.mayEnd m s then some ⟨.ready, some s⟩ else none
  | .copyIn simple => some ⟨.copyIn simple, none⟩
  | .done => some ⟨.ready, if m.frontend = .execute ∨ m.frontend = .copyDone then none else b.status⟩
  | .skip => some ⟨.skipping, none⟩
  | .silent => some b
  | .mayFail _ => if m.frontend = .copyData then some b else none
  | _ => none

def react (b : Backend) (m : Message) (reply : List Message) : Option Backend :=
  ((start b.mode m.frontend).run reply).bind (b.finish m)

end Backend

/-! ## Positions of `ReadyForQuery` and `CopyData` in a stream -/

def NoReady (ms : List Message) : Prop :=
  ∀ m ∈ ms, m.backend ≠ .readyForQuery

/-- Only asynchronous messages in the stream: nothing in it belongs to a reply. -/
def AllAsync (ms : List Message) : Prop :=
  ∀ m ∈ ms, m.backend = .async

instance (ms : List Message) : Decidable (NoReady ms) :=
  inferInstanceAs (Decidable (∀ m ∈ ms, _))

instance (ms : List Message) : Decidable (AllAsync ms) :=
  inferInstanceAs (Decidable (∀ m ∈ ms, _))

/-- One `ReadyForQuery` with status `s`, and after it only asynchronous messages. -/
def EndsReady (s : TxStatus) (ms : List Message) : Prop :=
  ∃ pre z post, ms = pre ++ z :: post ∧ NoReady pre ∧ z.readyStatus = some s ∧ AllAsync post

/-- Messages after which more data is expected. -/
def Message.announces (m : Message) : Bool :=
  m.backend = .dataRow || m.backend = .copyOutResponse

/-- Every `CopyData` of the stream is reached with the flag `data_available` set: rows and
`CopyOutResponse` set it, `ReadyForQuery` clears it. -/
def Covered : Bool → List Message → Prop
  | _, [] => True
  | available, m :: ms =>
    match m.backend with
    | .readyForQuery => Covered false ms
    | .dataRow | .copyOutResponse => Covered true ms
    | .copyData => available = true ∧ Covered available ms
    | _ => Covered available ms

/-- A stream a conforming backend in state `b` may have left unread. -/
def InSync (b : Backend) (unread : List Message) : Prop :=
  NoReady unread ∨ ∃ s, EndsReady s unread ∧ b = ⟨.ready, some s⟩

/-! ## What a reply contributes to the stream -/

namespace Phase

def isCopyOut : Phase → Bool
  | .copyOut _ => true
  | _ => false

def isReady : Phase → Bool
  | .ready _ => true
  | _ => false

theorem step_cases {p q : Phase} {m : Message} (h : p.step m = some q) :
    (m.backend = .async ∧ q = p) ∨
    (m.backend = .readyForQuery ∧ p.isReady = false ∧ ∃ s, m.readyStatus = some s ∧ q = .ready s) ∨
    (m.backend ≠ .async ∧ m.backend ≠ .readyForQuery ∧ p.isReady = false ∧ q.isReady = false ∧
      (m.backend = .copyData → p.isCopyOut = true) ∧
      (q.isCopyOut = true → m.backend = .copyData ∨ m.backend = .copyOutResponse)) := by
  unfold step at h
  by_cases ha : m.backend = .async
  · rw [if_pos ha] at h
    exact .inl ⟨ha, (Option.some.inj h).symm⟩
  · rw [if_neg ha] at h
    refine .inr ?_
    have hready : m.readyStatus.map Phase.ready = some q →
        ∃ s, m.readyStatus = some s ∧ q = .ready s := by
      intro hm
      rcases Option.map_eq_some_iff.mp hm with ⟨s, hs, rfl⟩
      exact ⟨s, hs, rfl⟩
    generalize m.backend = k at h ha
    unfold advance at h
    split at h
    all_goals
      first
      | exact .inl ⟨rfl, rfl, hready h⟩
      | (cases h; done)
      | skip
    -- The remaining arms are constants.
    all_goals
      refine .inr ⟨by decide, by decide, rfl, ?_⟩
      cases h
      first
      | exact ⟨rfl, by decide, by decide⟩
      | (rename_i simple; cases simple <;> exact ⟨rfl, by decide, by decide⟩)

theorem run_cons {p q : Phase} {m : Message} {ms : List Message} (h : p.run (m :: ms) = some q) :
    ∃ p', p.step m = some p' ∧ p'.run ms = some q := by
  rw [run, List.foldlM_cons] at h
  exact Option.bind_eq_some_iff.mp h

/-- A phase that only asynchronous messages go with is never left. -/
theorem run_stays {p : Phase} (hp : ∀ m p', p.step m = some p' → m.backend = .async ∧ p' = p) :
    ∀ {ms : List Message} {q : Phase}, p.run ms = some q → AllAsync ms ∧ q = p := by
  intro ms
  induction ms with
  | nil =>
    intro q h
    cases h
    exact ⟨by simp [AllAsync], rfl⟩
  | cons m ms ih =>
    intro q h
    rcases run_cons h with ⟨p', hstep, hrun⟩
    obtain ⟨ha, rfl⟩ := hp m p' hstep
    rcases ih hrun with ⟨hall, rfl⟩
    exact ⟨by simpa [AllAsync] using ⟨ha, hall⟩, rfl⟩

theorem run_ready {s : TxStatus} {ms : List Message} {q : Phase} (h : (Phase.ready s).run ms = some q) :
    AllAsync ms ∧ q = .ready s := by
  refine run_stays (fun m p' hstep => ?_) h
  rcases step_cases hstep with hasync | ⟨_, hp, _⟩ | ⟨_, _, hp, _⟩
  · exact hasync
  · cases hp
  · cases hp

/-- The two shapes of a reply: without `ReadyForQuery`, or with one at its end. -/
def Shaped (q : Phase) (ms : List Message) : Prop :=
  (NoReady ms ∧ q.isReady = false) ∨ ∃ s, EndsReady s ms ∧ q = .ready s

theorem Shaped.cons {m : Message} {ms : List Message} {q : Phase}
    (hm : m.backend ≠ .readyForQuery) (h : Shaped q ms) : Shaped q (m :: ms) := by
  rcases h with ⟨hno, hq⟩ | ⟨s, ⟨pre, z, post, rfl, hpre, hz, hpost⟩, hq⟩
  · exact .inl ⟨by simpa [NoReady] using ⟨hm, hno⟩, hq⟩
  · exact .inr ⟨s, ⟨m :: pre, z, post, rfl, by simpa [NoReady] using ⟨hm, hpre⟩, hz, hpost⟩, hq⟩

theorem run_shaped : ∀ {ms : List Message} {p q : Phase}, p.isReady = false → p.run ms = some q →
    Shaped q ms := by
  intro ms
  induction ms with
  | nil =>
    intro p q hp h
    cases h
    exact .inl ⟨by simp [NoReady], hp⟩
  | cons m ms ih =>
    intro p q hp h
    rcases run_cons h with ⟨p', hstep, hrun⟩
    rcases step_cases hstep with ⟨ha, rfl⟩ | ⟨_, _, s, hs, rfl⟩ | ⟨_, hz, _, hp', _⟩
    · exact (ih hp hrun).cons (by simp [ha])
    · rcases run_ready hrun with ⟨hall, rfl⟩
      exact .inr ⟨s, ⟨[], m, ms, rfl, by simp [NoReady], hs, hall⟩, rfl⟩
    · exact (ih hp' hrun).cons hz

theorem run_covered : ∀ {ms : List Message} {p q : Phase} {available : Bool},
    (p.isCopyOut = true → available = true) → p.run ms = some q → Covered available ms := by
  intro ms
  induction ms with
  | nil =>
    intro p q available _ _
    trivial
  | cons m ms ih =>
    intro p q available hcopy h
    rcases run_cons h with ⟨p', hstep, hrun⟩
    rcases step_cases hstep with ⟨ha, rfl⟩ | ⟨hz, _, s, _, rfl⟩ | ⟨ha, hz, _, _, hd, hout⟩
    · simpa [Covered, ha] using ih hcopy hrun
    · simpa [Covered, hz] using ih (by simp [isCopyOut]) hrun
    · unfold Covered
      split
      · exact absurd ‹_› hz
      · exact ih (fun _ => rfl) hrun
      · exact ih (fun _ => rfl) hrun
      · rename_i hk
        exact ⟨hcopy (hd hk), ih (fun _ => hcopy (hd hk)) hrun⟩
      · rename_i hrow hout' hdata
        refine ih (fun hq => ?_) hrun
        rcases hout hq with hk | hk
        · exact absurd hk hdata
        · exact absurd hk hout'

end Phase

theorem AllAsync.append {us vs : List Message} (hu : AllAsync us) (hv : AllAsync vs) :
    AllAsync (us ++ vs) := by
  intro m hm
  rcases List.mem_append.mp hm with h | h
  · exact hu m h
  · exact hv m h

theorem AllAsync.noReady {ms : List Message} (h : AllAsync ms) : NoReady ms := by
  intro m hm
  simp [h m hm]

theorem NoReady.append {us vs : List Message} (hu : NoReady us) (hv : NoReady vs) : NoReady (us ++ vs) := by
  intro m hm
  rcases List.mem_append.mp hm with h | h
  · exact hu m h
  · exact hv m h

theorem Covered.append {vs : List Message} (hv : ∀ available, Covered available vs) :
    ∀ {us : List Message} {available : Bool}, Covered available us → Covered available (us ++ vs) := by
  intro us
  induction us with
  | nil =>
    intro available _
    exact hv available
  | cons m us ih =>
    intro available hu
    rw [List.cons_append]
    unfold Covered at hu ⊢
    split at hu
    · exact ih hu
    · exact ih hu
    · exact ih hu
    · exact ⟨hu.1, ih hu.2⟩
    · exact ih hu

theorem AllAsync.covered {ms : List Message} (h : AllAsync ms) (available : Bool) : Covered available ms := by
  induction ms with
  | nil => trivial
  | cons m ms ih =>
    have hm : m.backend = .async := h m (by simp)
    simpa [Covered, hm] using ih fun m' hm' => h m' (by simp [hm'])

theorem InSync.read {b : Backend} {m : Message} {rest : List Message} (h : InSync b (m :: rest)) :
    InSync b rest ∧ (m.backend = .readyForQuery →
      ∃ s, m.readyStatus = some s ∧ b = ⟨.ready, some s⟩ ∧ AllAsync rest) := by
  rcases h with hno | ⟨s, ⟨pre, z, post, heq, hpre, hz, hpost⟩, hb⟩
  · exact ⟨.inl fun m' hm' => hno m' (by simp [hm']), fun hm => absurd hm (hno m (by simp))⟩
  · cases pre with
    | nil =>
      simp only [List.nil_append, List.cons.injEq] at heq
      rcases heq with ⟨rfl, rfl⟩
      exact ⟨.inl hpost.noReady, fun _ => ⟨s, hz, hb, hpost⟩⟩
    | cons m' pre =>
      simp only [List.cons_append, List.cons.injEq] at heq
      rcases heq with ⟨rfl, rfl⟩
      refine ⟨.inr ⟨s, ⟨pre, z, post, rfl, fun x hx => hpre x (by simp [hx]), hz, hpost⟩, hb⟩, ?_⟩
      exact fun hm => absurd hm (hpre m (by simp))

theorem Covered.read {available : Bool} {m : Message} {rest : List Message}
    (h : Covered available (m :: rest)) (hm : m.backend ≠ .readyForQuery) :
    Covered (available || m.announces) rest ∧
      (m.backend = .copyData → available = true) := by
  unfold Covered at h
  split at h
  · exact absurd ‹_› hm
  · rename_i hk
    exact ⟨by simpa [Message.announces, hk] using h, by simp [hk]⟩
  · rename_i hk
    exact ⟨by simpa [Message.announces, hk] using h, by simp [hk]⟩
  · rename_i hk
    exact ⟨by simpa [Message.announces, hk] using h.2, fun _ => h.1⟩
  · rename_i h₁ h₂ h₃ h₄
    have hno : m.announces = false := by
      simp only [Message.announces, Bool.or_eq_false_iff, decide_eq_false_iff_not]
      exact ⟨h₂, h₃⟩
    exact ⟨by simpa [hno] using h, fun hk => absurd hk h₄⟩

namespace Backend

variable {b b' : Backend} {m : Message} {reply unread : List Message}

theorem start_isReady (mode : Mode) (k : FrontendKind) : (start mode k).isReady = false := by
  unfold start
  split <;> rfl

theorem start_isCopyOut (mode : Mode) (k : FrontendKind) : (start mode k).isCopyOut = false := by
  unfold start
  split <;> rfl

theorem finish_ready {s : TxStatus} (h : b.finish m (.ready s) = some b') :
    b' = ⟨.ready, some s⟩ ∧ b.mayEnd m s = true := by
  have hend : b.mayEnd m s = true ∧ (⟨.ready, some s⟩ : Backend) = b' := by
    simpa [finish] using h
  exact ⟨hend.2.symm, hend.1⟩

theorem react_covered (h : b.react m reply = some b') (available : Bool) : Covered available reply := by
  rcases Option.bind_eq_some_iff.mp h with ⟨q, hrun, _⟩
  refine Phase.run_covered ?_ hrun
  simp [start_isCopyOut]

theorem react_sync (h : b.react m reply = some b') : InSync b' reply := by
  rcases Option.bind_eq_some_iff.mp h with ⟨q, hrun, hfin⟩
  rcases Phase.run_shaped (start_isReady _ _) hrun with ⟨hno, _⟩ | ⟨s, hends, rfl⟩
  · exact .inl hno
  · exact .inr ⟨s, hends, (finish_ready hfin).1⟩

theorem run_silent {ms : List Message} {q : Phase} (h : Phase.silent.run ms = some q) :
    AllAsync ms ∧ q = .silent := by
  refine Phase.run_stays (fun m p' hstep => ?_) h
  by_cases ha : m.backend = .async
  · rw [Phase.step, if_pos ha] at hstep
    exact ⟨ha, (Option.some.inj hstep).symm⟩
  · rw [Phase.step, if_neg ha] at hstep
    cases hstep

theorem react_copy_ignored (hm : m.isCopy = true) (hb : b.mode = .ready)
    (h : b.react m reply = some b') : AllAsync reply ∧ b' = b := by
  have hstart : start b.mode m.frontend = .silent := by
    have hk : m.frontend = .copyData ∨ m.frontend = .copyDone ∨ m.frontend = .copyFail := by
      simpa [Message.isCopy, or_assoc] using hm
    rcases hk with hk | hk | hk
    all_goals rw [hb, hk]; rfl
  rw [react, hstart] at h
  rcases Option.bind_eq_some_iff.mp h with ⟨q, hrun, hfin⟩
  rcases run_silent hrun with ⟨hall, rfl⟩
  exact ⟨hall, (Option.some.inj hfin).symm⟩

/-- The stream stays in step as long as nothing but copy messages is sent behind an unread
`ReadyForQuery`. -/
theorem react_inSync (hsync : InSync b unread) (hm : m.isCopy = true ∨ NoReady unread)
    (h : b.react m reply = some b') : InSync b' (unread ++ reply) := by
  rcases hsync with hno | ⟨s, ⟨pre, z, post, hun, hpre, hz, hpost⟩, rfl⟩
  · rcases react_sync h with hno' | ⟨s, ⟨pre, z, post, rfl, hpre, hz, hpost⟩, rfl⟩
    · exact .inl (hno.append hno')
    · exact .inr ⟨s, ⟨unread ++ pre, z, post, by simp, hno.append hpre, hz, hpost⟩, rfl⟩
  · rcases hm with hm | hno
    · rcases react_copy_ignored hm rfl h with ⟨hall, rfl⟩
      exact .inr ⟨s, ⟨pre, z, post ++ reply, by simp [hun], hpre, hz, hpost.append hall⟩, rfl⟩
    · have hmem : z ∈ unread := by simp [hun]
      exact absurd (Message.backend_of_readyStatus hz) (hno z hmem)

/-- Outside a transaction `DISCARD ALL` leaves the backend outside a transaction. -/
theorem react_discard {s : TxStatus} (hb : b.status = some .idle)
    (h : b.react (simpleQuery "DISCARD ALL") reply = some b') (hs : b'.status = some s) :
    s = .idle := by
  rcases Option.bind_eq_some_iff.mp h with ⟨q, _, hfin⟩
  cases q with
  | ready t =>
    rcases finish_ready hfin with ⟨rfl, hend⟩
    have ht : t = .idle := by simpa [mayEnd, hb] using hend
    simpa [ht, eq_comm] using hs
  | done =>
    have hk : (simpleQuery "DISCARD ALL").frontend = .query := by decide
    have hst : b.status = b'.status := by simpa [finish, hk] using congrArg (·.map status) hfin
    simpa [← hst, hb, eq_comm] using hs
  | silent =>
    cases hfin
    simpa [hb, eq_comm] using hs
  | copyIn simple | skip =>
    cases hfin
    cases hs
  | _ => cases hfin

end Backend

end PgCat.Protocol
