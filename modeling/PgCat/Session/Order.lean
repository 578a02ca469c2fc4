import PgCat.Session.Rules

/-!
# Order — what the transaction loop forwards, and in which order

A message of the client takes one of three ways: a `Query` is sent at once, the messages of the
extended and of the copy protocol go through `Client.buffer`, and a message with any other code is
dropped.  What was sent followed by what is buffered is everything received, in order, as long as no
message is dropped and no `Query` overtakes the buffer.
-/

namespace PgCat.Session

open Lib Protocol Config

@[simp] def Event.passedOn : Event → Option Message
  | .sent _ m _ true => some m
  | _ => none

/-- The messages passed to `Server::send` on behalf of the client, oldest first. -/
def passedOn (trace : List Event) : List Message :=
  observed Event.passedOn trace

@[simp] theorem passedOn_cons (e : Event) (trace : List Event) :
    passedOn (e :: trace) = passedOn trace ++ e.passedOn.toList :=
  observed_cons _ e trace

def Passes (ms : List Message) (w w' : World) : Prop :=
  passedOn w'.trace = passedOn w.trace ++ ms ∧ w'.client = w.client

/-! ## Sending and receiving -/

theorem Passes.other {w w' : World} {e : Event} (htrace : w'.trace = e :: w.trace)
    (hclient : w'.client = w.client) (he : e.passedOn = none) : Passes [] w w' := by
  refine ⟨?_, hclient⟩
  rw [htrace, passedOn_cons, he]
  rfl

instance : Notes (Passes []) where
  input _ _ := ⟨by simp, rfl⟩
  note _ e he := .other rfl rfl (by cases e <;> first | rfl | cases he)

instance : Gauges (Passes []) where
  gauge _ _ _ := .other rfl rfl rfl
  refused _ := .single ⟨by simp, rfl⟩

instance : Hears (Passes []) where
  server _ _ _ := ⟨by simp, rfl⟩
  received _ _ _ _ := .other rfl rfl rfl

theorem wp_passes {α : Type} {m : Program α} (hm : Runs (Passes []) m) (w : World) :
    wp m (fun _ => Passes [] w) (fun _ => Passes [] w) w := by
  refine hm.preserves (I := Passes [] w) ?_ w ⟨by simp, rfl⟩
  intro w₁ w₂ hstep h
  refine ⟨?_, hstep.2.trans h.2⟩
  rw [hstep.1, h.1, List.append_nil]

theorem Passes.trans {ms : List Message} {w w₁ w₂ : World} (h : Passes ms w w₁)
    (h' : Passes [] w₁ w₂) : Passes ms w w₂ := by
  refine ⟨?_, h'.2.trans h.2⟩
  rw [h'.1, h.1, List.append_nil]

theorem wp_sendServerMessage_passes (a : Address) (ms : List Message) (w : World) :
    wp (sendServerMessage a ms) (fun _ => Passes ms w) (fun _ _ => True) w := by
  refine wp_imp (sendServerMessage_delivered a ms w) ?_
  intro _ w' h
  have hsent := h.observed Event.passedOn some (fun _ _ _ => rfl)
  rw [List.filterMap_some] at hsent
  exact ⟨hsent, h.client⟩

theorem wp_sendAndReceiveLoop_passes (fuel : Nat) (pool : ConnectionPool) (a : Address)
    (ms : List Message) (w : World) :
    wp (sendAndReceiveLoop fuel pool a ms) (fun _ => Passes ms w) (fun _ _ => True) w := by
  rw [sendAndReceiveLoop]
  refine wp_seq (wp_sendServerMessage_passes a ms w) ?_
  intro _ w₁ hsent
  exact wp_weaken (wp_passes (receiveReplies_runs fuel pool a) w₁) (fun _ _ h => hsent.trans h)

/-! ## One message -/

def World.accepted (w : World) : List Message :=
  passedOn w.trace ++ w.client.buffer

/-- The messages that are neither dropped nor sent ahead of the buffer. -/
def InOrder (m : Message) (buffer : List Message) : Prop :=
  m.frontend ≠ .other ∧ m.frontend ≠ .terminate ∧ (m.frontend = .query → buffer = [])

theorem Passes.accepted {w w' : World} (h : Passes [] w w') : w'.accepted = w.accepted := by
  rw [World.accepted, h.1, h.2, List.append_nil]
  rfl

theorem wp_leaveIfOver {isQuery : Bool} {w : World} {ms : List Message} (h : w.accepted = ms) :
    wp (leaveIfOver isQuery) (fun _ w' => w'.accepted = ms) (fun _ _ => True) w :=
  wp_weaken (wp_passes (leaveIfOver_runs isQuery) w) (fun _ _ hp => hp.accepted.trans h)

theorem accepted_buffered (w : World) (m : Message) : (w.buffered m).accepted = w.accepted ++ [m] :=
  (List.append_assoc _ _ _).symm

theorem accepted_cleared {w w' : World} (h : Passes w.client.buffer w w') :
    ({ w' with client := { w'.client with buffer := [] } } : World).accepted = w.accepted := by
  simp [World.accepted, h.1]

section Turns

variable {fuel : Nat} {pool : ConnectionPool} {a : Address} {m : Message} {w : World}

theorem wp_handleSync :
    wp (handleSync fuel pool a m) (fun _ w' => w'.accepted = w.accepted ++ [m]) (fun _ _ => True)
      w := by
  rw [handleSync, wp_bind]
  change wp (clientBuffer >>= _) _ _ (w.buffered m)
  rw [wp_bind]
  change wp (runIf _ markDirty >>= _) _ _ (w.buffered m)
  refine wp_then (wp_passes (runIf_runs _ markDirty_runs) (w.buffered m)) ?_
  intro _ w₁ hdirty
  refine wp_seq (wp_sendAndReceiveLoop_passes fuel pool a _ w₁) ?_
  intro _ w₂ hsent
  have hbuffer : w₁.client.buffer = (w.buffered m).client.buffer := by rw [hdirty.2]
  rw [← hbuffer] at hsent
  refine wp_leaveIfOver ?_
  exact (accepted_cleared hsent).trans (hdirty.accepted.trans (accepted_buffered w m))

theorem wp_handleCopyData :
    wp (handleCopyData a m) (fun _ w' => w'.accepted = w.accepted ++ [m]) (fun _ _ => True) w := by
  rw [handleCopyData, wp_bind]
  change wp (clientBuffer >>= _) _ _ (w.buffered m)
  rw [wp_bind]
  change wp (runIf _ _ >>= _) _ _ (w.buffered m)
  rw [wp_bind, runIf, wp_ite]
  constructor
  · -- A large buffer is sent at once.
    intro _
    refine wp_seq (wp_sendServerMessage_passes a _ (w.buffered m)) ?_
    intro _ w₁ hsent
    exact (accepted_cleared hsent).trans (accepted_buffered w m)
  · intro _
    exact accepted_buffered w m

theorem wp_handleCopyEnd :
    wp (handleCopyEnd fuel pool a m) (fun _ w' => w'.accepted = w.accepted ++ [m])
      (fun _ _ => True) w := by
  rw [handleCopyEnd, wp_bind]
  change wp (clientBuffer >>= _) _ _ (w.buffered m)
  rw [wp_bind]
  change wp (sendServerMessage a (w.buffered m).client.buffer >>= _) _ _ (w.buffered m)
  refine wp_seq (wp_sendServerMessage_passes a _ (w.buffered m)) ?_
  intro _ w₁ hsent
  rw [wp_bind, clearBuffer, modifyClient, wp_modify]
  refine wp_then (wp_passes (forwardReply_runs fuel pool a) _) ?_
  intro _ w₂ hreply
  refine wp_leaveIfOver ?_
  exact hreply.accepted.trans ((accepted_cleared hsent).trans (accepted_buffered w m))

theorem wp_query (hbuffer : w.client.buffer = []) :
    wp (sendAndReceiveLoop fuel pool a [m] >>= fun _ => leaveIfOver true)
      (fun _ w' => w'.accepted = w.accepted ++ [m]) (fun _ _ => True) w := by
  refine wp_seq (wp_sendAndReceiveLoop_passes fuel pool a [m] w) ?_
  intro _ w₁ hsent
  refine wp_leaveIfOver ?_
  simp [World.accepted, hsent.1, hsent.2, hbuffer]

theorem wp_dispatch (h : InOrder m w.client.buffer) :
    wp (dispatch fuel pool a m) (fun _ w' => w'.accepted = w.accepted ++ [m]) (fun _ _ => True)
      w := by
  obtain ⟨hother, hterminate, hquery⟩ := h
  unfold dispatch
  cases hm : m.frontend with
  | query => exact wp_query (hquery hm)
  | terminate => exact absurd hm hterminate
  | sync => exact wp_handleSync
  | copyData => exact wp_handleCopyData
  | copyDone | copyFail => exact wp_handleCopyEnd
  | other => exact absurd hm hother
  | _ => exact accepted_buffered w m

/-! ## The whole loop -/

/-- Turns of the transaction loop that start in `w` with the message `first`: the messages of the list were
read and dealt with, each one meeting `P` together with the buffer it found. -/
inductive Handled (fuel idleTimeout : Nat) (pool : ConnectionPool) (a : Address)
    (P : Message → List Message → Prop) (w : World) (first : Message) : List Message → World → Prop
  | first {r : Option Exit} {w' : World} (hP : P first w.client.buffer)
      (h : dispatch fuel pool a first w = .ok r w') :
      Handled fuel idleTimeout pool a P w first [first] w'
  | next {ms : List Message} {m : Message} {r : Option Exit} {w₁ w₂ w₃ : World}
      (hw : Handled fuel idleTimeout pool a P w first ms w₁)
      (hread : awaitInTransaction fuel idleTimeout w₁ = .ok (some m) w₂)
      (hP : P m w₂.client.buffer) (h : dispatch fuel pool a m w₂ = .ok r w₃) :
      Handled fuel idleTimeout pool a P w first (ms ++ [m]) w₃

theorem awaitInTransaction_passes {idleTimeout : Nat} {w₁ w₂ : World}
    (h : awaitInTransaction fuel idleTimeout w₁ = .ok (some m) w₂) : Passes [] w₁ w₂ := by
  have hspec : wp (awaitInTransaction fuel idleTimeout)
      (fun read w' => read.isSome = true → Passes [] w₁ w') (fun _ _ => True) w₁ := by
    rw [awaitInTransaction, wp_bind]
    refine next_rule trivial ?_
    intro i rest
    split
    · exact fun _ => ⟨by simp, rfl⟩
    · exact Returns.seq (fun _ => .seq fun _ => .ofThrow _) _
    · rw [wp_ite]
      exact ⟨fun _ => trivial, fun _ => Returns.seq (fun _ => .ofPure fun _ h => by cases h) _⟩
    · trivial
  unfold wp at hspec
  rw [h] at hspec
  exact hspec rfl

theorem turn_eq_ok {idleTimeout : Nat} {initial : Option Message} {r : Option Message ⊕ Exit}
    {w₁ w₃ : World} (h : transactionTurn fuel idleTimeout pool a initial w₁ = .ok r w₃) :
    r = .inr .idleTimeout ∨ ∃ m w₂ exit,
      transactionMessage fuel idleTimeout initial w₁ = .ok (some m) w₂ ∧
        dispatch fuel pool a m w₂ = .ok exit w₃ ∧ r = exit.elim (.inl none) .inr := by
  obtain ⟨read, w₂, hread, hrest⟩ := bind_eq_ok h
  cases read with
  | none =>
    cases hrest
    exact .inl rfl
  | some m =>
    obtain ⟨exit, w', hrun, hexit⟩ := bind_eq_ok hrest
    cases exit with
    | none =>
      cases hexit
      exact .inr ⟨m, w₂, none, hread, hrun, rfl⟩
    | some exit =>
      cases hexit
      exact .inr ⟨m, w₂, some exit, hread, hrun, rfl⟩

/-- Every run of the loop that ends other than by the idle timeout is a sequence of such turns. -/
theorem handled_of_loop {idleTimeout n : Nat} {first : Message} {exit : Exit} {w' : World}
    (hexit : exit ≠ .idleTimeout)
    (h : repeatUntil .pending n (transactionTurn fuel idleTimeout pool a) (some first) w =
      .ok exit w') :
    ∃ ms, Handled fuel idleTimeout pool a (fun _ _ => True) w first ms w' := by
  -- After the first turn the loop reads its messages itself.
  have hloop : ∀ n ms w₁, Handled fuel idleTimeout pool a (fun _ _ => True) w first ms w₁ →
      repeatUntil .pending n (transactionTurn fuel idleTimeout pool a) none w₁ = .ok exit w' →
        ∃ ms, Handled fuel idleTimeout pool a (fun _ _ => True) w first ms w' := by
    intro n
    induction n with
    | zero =>
      intro ms w₁ _ hrun
      cases hrun
    | succ n ih =>
      intro ms w₁ hw hrun
      obtain ⟨r, w₃, hturn, hrest⟩ := bind_eq_ok hrun
      rcases turn_eq_ok hturn with rfl | ⟨m, w₂, out, hread, hdispatch, rfl⟩
      · cases hrest
        exact absurd rfl hexit
      · have hnext := Handled.next hw hread trivial hdispatch
        cases out with
        | none => exact ih _ _ hnext hrest
        | some e =>
          cases hrest
          exact ⟨_, hnext⟩
  cases n with
  | zero => cases h
  | succ n =>
    obtain ⟨r, w₃, hturn, hrest⟩ := bind_eq_ok h
    rcases turn_eq_ok hturn with rfl | ⟨m, w₂, out, hread, hdispatch, rfl⟩
    · cases hrest
      exact absurd rfl hexit
    · cases hread
      have hfirst : Handled fuel idleTimeout pool a (fun _ _ => True) w first [first] w₃ :=
        .first trivial hdispatch
      cases out with
      | none => exact hloop n _ _ hfirst hrest
      | some e =>
        cases hrest
        exact ⟨_, hfirst⟩

/-- While no message is dropped and no query overtakes the buffer, what was sent and what is buffered are
together all that was received, in order. -/
theorem forwarded_in_order {idleTimeout : Nat} {first : Message} {ms : List Message} {w' : World}
    (h : Handled fuel idleTimeout pool a InOrder w first ms w') :
    passedOn w'.trace ++ w'.client.buffer = passedOn w.trace ++ w.client.buffer ++ ms := by
  change w'.accepted = w.accepted ++ ms
  have hstep : ∀ {m w₁ r w₂}, InOrder m w₁.client.buffer →
      dispatch fuel pool a m w₁ = .ok r w₂ → w₂.accepted = w₁.accepted ++ [m] := by
    intro m w₁ r w₂ hm hrun
    have hspec : wp (dispatch fuel pool a m) (fun _ w' => w'.accepted = w₁.accepted ++ [m])
        (fun _ _ => True) w₁ := wp_dispatch hm
    unfold wp at hspec
    rw [hrun] at hspec
    exact hspec
  induction h with
  | first hP hrun => exact hstep hP hrun
  | next hw hread hP hrun ih =>
    rw [hstep hP hrun, (awaitInTransaction_passes hread).accepted, ih, List.append_assoc]

end Turns

namespace Sample

/-- The client holds a connection; the server will answer one query. -/
def held (reply : List Message) : World :=
  { World.start client (fun _ => none) (exchange reply) with conn := conn 0 }

/-- `Close` of the unnamed statement. -/
def close : Message := .ofChar 'C' (utf8 "S" ++ [0])

/-- The message is received and the buffer is empty, but nothing was sent. -/
theorem close_dropped :
    ∃ w', Handled 4 0 pool address (fun _ _ => True) (held []) close [close] w' ∧
      w'.client.buffer = [] ∧
      passedOn w'.trace ≠ passedOn (held []).trace ++ (held []).client.buffer ++ [close] := by
  have hrun : dispatch 4 pool address close (held []) = .ok none (held []) := by
    have hkind : close.frontend = .other := by decide
    simp only [dispatch, hkind]
    rfl
  exact ⟨held [], .first trivial hrun, rfl, by decide⟩

def batch : List Message :=
  [.ofChar 'P' ([0] ++ utf8 "SELECT 1" ++ [0, 0, 0]), .ofChar 'B' [0, 0, 0, 0, 0, 0, 0, 0], .ofChar 'S' []]

/-- A transaction is begun, and a batch is sent in it. -/
def batchHeld : World :=
  { World.start client (fun _ => none) (exchange [complete "BEGIN", ready 'T'] ++ batch.map .client ++
      [.sent [[.ofChar '1' []], [.ofChar '2' []], [ready 'T']], .arrives, .arrives, .arrives, .clientWrite true])
    with conn := conn 0 }

theorem begin_in_order :
    ∃ w', Handled 4 0 pool address InOrder batchHeld (simpleQuery "BEGIN") (simpleQuery "BEGIN" :: batch) w' ∧
      w'.client.buffer = [] ∧ passedOn w'.trace ++ w'.client.buffer =
        passedOn batchHeld.trace ++ batchHeld.client.buffer ++ simpleQuery "BEGIN" :: batch := by
  have hbegin : Handled 4 0 pool address InOrder batchHeld (simpleQuery "BEGIN") [simpleQuery "BEGIN"] _ :=
    .first ⟨by decide, by decide, fun _ => rfl⟩ (ok_of_run' (a := none) (by decide +kernel))
  have hparse := hbegin.next (m := batch[0]) (ok_of_run' (by decide +kernel))
    ⟨by decide, by decide, fun h => absurd h (by decide)⟩ (ok_of_run' (a := none) (by decide +kernel))
  have hbind := hparse.next (m := batch[1]) (ok_of_run' (by decide +kernel))
    ⟨by decide, by decide, fun h => absurd h (by decide)⟩ (ok_of_run' (a := none) (by decide +kernel))
  have hsync := hbind.next (m := batch[2]) (ok_of_run' (by decide +kernel))
    ⟨by decide, by decide, fun h => absurd h (by decide)⟩ (ok_of_run' (a := none) (by decide +kernel))
  exact ⟨_, hsync, by decide +kernel, forwarded_in_order hsync⟩

end Sample

end PgCat.Session
