import PgCat.Session.Rules

/-!
# Turns — rules for one turn up to the checkout

`route_rule` is the rule for a client that waits: `Idle` holds while it has no connection and is kept
by everything in front of a checkout, `Held` holds from the checkout on and is kept by a health check.
What is kept is said by the kinds of steps, as instances for `Keeps Idle` and `Keeps Held`.  The message
a connection is checked out for is the last one that was read (`lastMessage`).
-/

namespace PgCat.Session

open Lib Protocol Router

def lastMessage : List Event → Option Message
  | [] => none
  | .message m :: _ => some m
  | _ :: t => lastMessage t

/-! ## The last message -/

section LastMessage

variable {m : Message} {w : World}

def Answering (m : Message) (w : World) : Prop :=
  lastMessage w.trace = some m

theorem lastMessage_cons {e : Event} {t : List Event} (he : ∀ m, e ≠ .message m) :
    lastMessage (e :: t) = lastMessage t := by
  cases e with
  | message m => exact absurd rfl (he m)
  | _ => rfl

theorem Event.ne_message_of_isPlain {e : Event} (h : e.isPlain = true) (m : Message) : e ≠ .message m := by
  rintro rfl
  cases h

instance : Notes (Keeps (Answering m)) where
  input _ _ h := h
  note _ _ he h := (lastMessage_cons (Event.ne_message_of_isPlain he)).trans h

instance : AllStats (Keeps (Answering m)) where
  stat _ _ h := h

instance : Clients (Keeps (Answering m)) where
  client _ _ _ h := h

instance : Hears (Keeps (Answering m)) where
  server _ _ _ h := h
  received _ _ _ _ h := h

instance (fromClient : Bool) : Sends (Keeps (Answering m)) fromClient where
  sent _ _ _ h := h

instance : Binds (Keeps (Answering m)) where
  claimed _ h := h
  released _ h := h

instance : Pools (Keeps (Answering m)) where
  checkedOut _ _ _ h := h
  dropped _ _ _ h := h

instance : Routers (Keeps (Answering m)) where
  router _ _ h := h
  routing _ e he h := by
    refine (lastMessage_cons ?_).trans h
    rintro m rfl
    cases he

theorem awaitMessage_answering (w : World) :
    wp awaitMessage (fun read w' => ∀ m, read = some m → Answering m w') (fun _ _ => True) w := by
  refine awaitMessage_rule (I := fun _ => True) (fun _ _ => trivial) (fun _ _ _ _ _ _ => trivial)
    (fun _ _ _ => trivial) ?_ ?_ trivial
  · rintro w m _ m' h
    cases h
    rfl
  · exact fun _ _ => wp_seq wp_true (fun _ _ _ => nofun)

/-- A connection is checked out for this message, if any is. -/
def Turn.For (m : Message) : Turn → Prop
  | .serve _ _ m' => m' = m
  | _ => True

theorem checkout_for (fuel : Nat) (pool : ConnectionPool) (m : Message) :
    Returns (fun turn _ => turn.For m) (checkout fuel pool m) := by
  unfold checkout
  refine .seq fun _ => .seq fun _ => .seq fun _ => .seq fun found => ?_
  cases found with
  | some a => exact .ofPure fun _ => rfl
  | none => exact .seq fun _ => .seq fun _ => .seq fun _ => .ofPure fun _ => trivial

theorem forward_for (fuel : Nat) (ext : Externals) (m : Message) :
    Returns (fun turn _ => turn.For m) (forward fuel ext m) := by
  unfold forward
  refine .seq fun isAdmin => ?_
  split
  · exact .seq fun _ => .ofPure fun _ => trivial
  · refine .seq fun pool => .seq fun _ => .seq fun isCommand => ?_
    split
    · exact .ofPure fun _ => trivial
    · exact checkout_for fuel pool m

theorem route_answering (fuel : Nat) (ext : Externals) (w : World) :
    wp (route fuel ext)
      (Turn.Serves (fun _ => True) (fun _ => True) Answering) (fun _ _ => True) w := by
  rw [route]
  refine wp_seq (awaitMessage_answering w) ?_
  intro read w₁ h₁
  cases read with
  | none => trivial
  | some m =>
    dsimp only
    rw [wp_bind]
    have hintake := keeps (intake_runs ext m fun _ => stat_runs .disconnect) (h₁ m rfl)
    refine wp_weaken hintake ?_
    intro i w₂ h₂
    cases i with
    | buffered => trivial
    | terminated => trivial
    | forward =>
      refine wp_weaken (wp_and (keeps (forward_runs fuel ext m) h₂) (forward_for fuel ext m w₂)) ?_
      rintro turn w₃ ⟨h₃, hturn⟩
      cases turn with
      | again => trivial
      | returned => trivial
      | serve pool a m' =>
        have hm : m' = m := hturn
        exact hm ▸ h₃

end LastMessage

/-! ## Checking a connection out -/

section Routing

variable {Idle Held : World → Prop} {E : Stop → World → Prop}

/-- What the environment of a client may do to it while it waits for a connection. -/
structure Lending (Idle Held : World → Prop) (E : Stop → World → Prop) : Prop where
  checkedOut : ∀ w c, c.server.bad = false → Idle w →
    Held { w with conn := c, trace := .checkedOut c :: w.trace }
  bad : ∀ w, Held w → Held w.markedBad
  health : ∀ fuel w, Held w → wp (query fuel true ";") (fun _ => Held) (fun _ => Held) w
  dropped : ∀ w exit, exit = .unhealthy ∧ w.conn.server.bad = true ∨ exit = .panicked → Held w →
    Idle (w.dropped exit)
  stops : ∀ stop w, Idle w → E stop w
  waits : ∀ w, Held w → E .pending w

theorem Lending.idle [Blind (Keeps Idle)] (l : Lending Idle Held E) {α : Type} {p : Program α}
    (hp : Runs (Keeps Idle) p) {w : World} (hw : Idle w) : wp p (fun _ => Idle) E w :=
  wp_mono (keeps hp hw) (fun _ _ h => h) (fun _ _ h => l.stops _ _ h)

variable [Notes (Keeps Held)]

variable (l : Lending Idle Held E) (fuel : Nat) (a : Address) (ext : Externals) {w : World}

include l

theorem healthCheckFailed_rule (hw : Held w) :
    wp (healthCheckFailed a) (fun ok w' => if ok then Held w' else Idle w') E w := by
  have hmark : Held w.markedBad := l.bad w hw
  change wp (ban a .failedHealthCheck >>= _) _ _ w.markedBad
  rw [wp_bind]
  have hbad := (ban_runs (S := Move ⟨false, false⟩) a .failedHealthCheck).preserves
    (fun _ _ => Move.bad) w.markedBad rfl
  -- Banning neither fails nor waits.
  have hban : wp (ban a .failedHealthCheck) (fun _ _ => True) (fun _ _ => False) w.markedBad :=
    ban_rule fun _ _ => trivial
  refine wp_mono (wp_and (wp_and (keeps (ban_runs a _) hmark) hbad) hban) ?_ (fun _ _ h => h.2.elim)
  rintro _ w' ⟨⟨hheld, hbad⟩, _⟩
  exact l.dropped w' .unhealthy (.inl ⟨rfl, hbad⟩) hheld

variable [AllStats (Keeps Held)]

theorem runHealthCheck_rule (hw : Held w) :
    wp (runHealthCheck fuel a) (fun ok w' => if ok then Held w' else Idle w') E w := by
  have htested : Held (w.after (.stat .serverTested)) := AllStats.stat (S := Keeps Held) w _ hw
  unfold runHealthCheck
  change wp (tryCatch _ _) _ _ (w.after (.stat .serverTested))
  rw [wp_tryCatch, wp_bind]
  refine wp_mono (l.health fuel _ htested) ?_ ?_
  · intro _ w₁ h₁
    exact AllStats.stat (S := Keeps Held) w₁ .serverActive h₁
  · intro stop w₁ h₁
    cases stop with
    | failed e | elapsed => exact healthCheckFailed_rule l a h₁
    | panicked => exact l.stops _ _ (l.dropped w₁ .panicked (.inr rfl) h₁)
    | pending => exact l.waits w₁ h₁

variable [Notes (Keeps Idle)] [AllStats (Keeps Idle)]

theorem tryCandidate_rule (hw : Idle w) :
    wp (tryCandidate fuel a) (fun ok w' => if ok then Held w' else Idle w') E w := by
  have hout : ∀ (c : Conn) {w₁ : World}, Idle w₁ → wp (checkOut a c) (fun _ => Held) E w₁ := by
    intro c w₁ h₁
    unfold checkOut
    split
    · rename_i husable
      exact l.checkedOut w₁ c husable.2 h₁
    · exact l.stops _ _ h₁
  unfold tryCandidate
  rw [wp_bind]
  refine next_rule (l.stops _ _ hw) fun i rest => ?_
  have hrest : Idle { w with script := rest } := Notes.input (S := Keeps Idle) w rest hw
  have hwaiting : Idle ({ w with script := rest }.after (.stat .waiting)) :=
    AllStats.stat (S := Keeps Idle) { w with script := rest } .waiting hrest
  split
  · exact hrest
  · change wp (ban a .failedCheckout >>= _) _ _ ({ w with script := rest }.after (.stat .waiting))
    refine wp_seq (l.idle (ban_runs a _) hwaiting) ?_
    intro _ w₁ h₁
    have hidle : Idle (w₁.after (.stat .idle)) := AllStats.stat (S := Keeps Idle) w₁ _ h₁
    exact AllStats.stat (S := Keeps Idle) (w₁.after (.stat .idle)) .checkoutError hidle
  · change wp (checkOut a _ >>= _) _ _ ({ w with script := rest }.after (.stat .waiting))
    refine wp_seq (hout _ hwaiting) ?_
    intro _ w₁ h₁
    exact AllStats.stat (S := Keeps Held) w₁ .serverActive h₁
  · change wp (checkOut a _ >>= _) _ _ ({ w with script := rest }.after (.stat .waiting))
    exact wp_seq (hout _ hwaiting) (fun _ _ h => runHealthCheck_rule l fuel a h)
  · -- Any other input is not one the pool can give here.
    exact l.stops _ _ hrest

theorem get_rule (pool : ConnectionPool) (shard : Nat) (role : Option Config.Role) (hw : Idle w) :
    wp (pool.get fuel shard role) (fun a w' => if a.isSome then Held w' else Idle w') E w := by
  have hcandidates : ∀ (as : List Address) {w₁ : World}, Idle w₁ →
      wp (tryCandidates fuel as) (fun a w' => if a.isSome then Held w' else Idle w') E w₁ := by
    intro as
    induction as with
    | nil => exact fun h₁ => h₁
    | cons a as ih =>
      intro w₁ h₁
      unfold tryCandidates
      refine wp_seq (tryCandidate_rule l fuel a h₁) ?_
      intro ok w₂ h₂
      cases ok with
      | true => exact h₂
      | false => exact ih h₂
  unfold ConnectionPool.get
  rw [wp_bind]
  refine orPanic_rule (fun _ => l.stops _ _ hw) fun addresses _ => ?_
  unfold shuffle
  rw [wp_bind, wp_bind]
  refine next_rule (l.stops _ _ hw) fun i rest => ?_
  have hrest : Idle { w with script := rest } := Notes.input (S := Keeps Idle) w rest hw
  split
  · rw [wp_ite]
    exact ⟨fun _ => hcandidates _ hrest, fun _ => l.stops _ _ hrest⟩
  · exact l.stops _ _ hrest

variable [Clients (Keeps Idle)] [Routers (Keeps Idle)]

theorem checkout_rule (pool : ConnectionPool) (m : Message) (hw : Idle w) :
    wp (checkout fuel pool m) (Turn.Leaves Idle Held Idle) E w := by
  have hwaiting : Idle (w.after (.stat .waiting)) := AllStats.stat (S := Keeps Idle) w _ hw
  have hget : Idle ((w.after (.stat .waiting)).after (.get pool w.router.shard w.router.role m)) :=
    Routers.routing (S := Keeps Idle) (w.after (.stat .waiting)) _ rfl hwaiting
  unfold checkout
  change wp (pool.get fuel w.router.shard w.router.role >>= _) _ _ _
  refine wp_seq (get_rule l fuel pool _ _ hget) ?_
  intro found w₁ h₁
  cases found with
  | some a => exact h₁
  | none =>
    dsimp only
    refine wp_seq (l.idle (stat_runs .idle) h₁) ?_
    intro _ w₂ h₂
    refine wp_seq (l.idle (runIf_runs _ clearBuffer_runs) h₂) ?_
    intro _ w₃ h₃
    rw [wp_bind]
    exact l.idle (writeClient_runs _) h₃

theorem forward_rule (m : Message) (hw : Idle w) :
    wp (forward fuel ext m) (Turn.Leaves Idle Held Idle) E w := by
  unfold forward
  change wp (if w.client.admin = true then _ else _) _ _ w
  rw [wp_ite]
  constructor
  · intro _
    rw [wp_bind]
    exact l.idle handleAdmin_runs hw
  · intro _
    refine wp_seq (l.idle currentPool_runs hw) ?_
    intro pool w₁ h₁
    refine wp_seq (l.idle (updateSettings_runs m pool) h₁) ?_
    intro _ w₂ h₂
    refine wp_seq (l.idle (runCommand_runs ext pool m) h₂) ?_
    intro isCommand w₃ h₃
    cases isCommand with
    | true => exact h₃
    | false => exact checkout_rule l fuel pool m h₃

variable [Reads (Keeps Idle)]

theorem route_rule (hw : Idle w) : wp (route fuel ext) (Turn.Leaves Idle Held Idle) E w := by
  rw [route]
  refine wp_seq (l.idle awaitMessage_runs hw) ?_
  intro read w₁ h₁
  cases read with
  | none => exact h₁
  | some m =>
    dsimp only
    refine wp_seq (l.idle (intake_runs ext m fun _ => stat_runs .disconnect) h₁) ?_
    intro i w₂ h₂
    cases i with
    | buffered => exact h₂
    | terminated => exact h₂
    | forward => exact forward_rule l fuel ext m h₂

theorem route_serves (hw : Idle w) :
    wp (route fuel ext)
      (Turn.Serves Idle Idle fun m w' => Held w' ∧ lastMessage w'.trace = some m) E w := by
  refine wp_mono (wp_and (route_rule l fuel ext hw) (route_answering fuel ext w)) ?_
    (fun _ _ h => h.1)
  rintro turn w' ⟨h, hanswering⟩
  cases turn with
  | again => exact h
  | returned => exact h
  | serve pool a m => exact ⟨h, hanswering⟩

end Routing

end PgCat.Session
