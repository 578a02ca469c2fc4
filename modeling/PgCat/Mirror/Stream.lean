import PgCat.Mirror.Task

/-!
# Stream — what reaches a mirror

Mirroring is best effort.  `MirroringManager::send` hands a message to the channel of every mirror and drops it
where the channel is full or closed; the task behind a channel sends what it takes, drops what it cannot send,
and leaves what is still in the channel when it is told to go.  So a mirror may miss messages, but it gets none
twice, and none out of order.
-/

namespace PgCat.Mirror

open Lib

/-! ## The manager -/

/-- The channel to a mirror, as the manager sees it. -/
structure Sender where
  queue : List Bytes
  /-- The task behind the channel has ended. -/
  isClosed : Bool
  deriving DecidableEq, Repr

def Sender.capacity (sender : Sender) : Nat := 10 - sender.queue.length

/-- A message that is not taken is only logged. -/
def Sender.trySend (sender : Sender) (bytes : Bytes) : Sender :=
  if sender.isClosed = true ∨ sender.capacity = 0 then sender
  else { sender with queue := sender.queue ++ [bytes] }

structure MirroringManager where
  byteSenders : List Sender

/-- The message is not copied if no channel would take it. -/
def MirroringManager.send (m : MirroringManager) (bytes : Bytes) : MirroringManager :=
  if m.byteSenders.all fun sender => sender.capacity == 0 || sender.isClosed then m
  else ⟨m.byteSenders.map (·.trySend bytes)⟩

/-! ## The task -/

/-- The messages handed to the channel. -/
def Event.mirrored : Event → List Bytes
  | .happens (.mirror bs) => [bs]
  | _ => []

namespace MirroredClient

variable {checks : Bool} {t t' : MirroredClient} {e : Event}

/-- The channel of the task, as the manager sees it. -/
def sender (t : MirroredClient) : Sender :=
  ⟨t.queue, t.phase = .ended⟩

theorem happen_mirror (hopen : t.hungUp = false) (bytes : Bytes) :
    t.happen checks (.mirror bytes) = some { t with queue := (t.sender.trySend bytes).queue } := by
  have hfull : 10 - t.queue.length = 0 ↔ ¬ t.queue.length < 10 := by omega
  by_cases hended : t.phase = .ended
  · simp [happen, hopen, sender, Sender.trySend, hended]
  · by_cases hroom : t.queue.length < 10
    · simp [happen, hopen, sender, Sender.trySend, Sender.capacity, hfull, hroom, hended]
    · simp [happen, hopen, sender, Sender.trySend, Sender.capacity, hfull, hroom]

/-- A step that loses a message: sending it failed, the task leaves, or the channel has no room or no receiver
for it. -/
def Loses (t : MirroredClient) (e : Event) : Prop :=
  e = .select (.message false) ∨ e = .select .disconnect ∨
    (e.mirrored ≠ [] ∧ t.hungUp = false ∧ (t.phase = .ended ∨ 10 ≤ t.queue.length))

/-- A step keeps what was sent and what waits in one line, and adds to its end; or it loses a message. -/
theorem step_line (h : t.step checks e = some t') :
    (t'.sent ++ t'.queue = t.sent ++ t.queue ++ e.mirrored ∧ t'.queue.length ≤ max 10 t.queue.length) ∨
    ((t'.sent ++ t'.queue).Sublist (t.sent ++ t.queue) ∧ t'.queue.length ≤ t.queue.length ∧ t.Loses e) := by
  have hsame : e.mirrored = [] → t'.sent = t.sent → t'.queue = t.queue →
      t'.sent ++ t'.queue = t.sent ++ t.queue ++ e.mirrored ∧ t'.queue.length ≤ max 10 t.queue.length := by
    intro hnone hsent hqueue
    rw [hnone, hsent, hqueue, List.append_nil]
    exact ⟨rfl, Nat.le_max_right _ _⟩
  cases e with
  | happens what =>
    cases what with
    | mirror bs =>
      obtain ⟨hopen, ⟨⟩⟩ := Option.ite_none_left_eq_some.mp h
      by_cases htaken : t.phase ≠ .ended ∧ t.queue.length < 10
      · simp only [if_pos htaken]
        refine .inl ⟨(List.append_assoc ..).symm, ?_⟩
        rw [List.length_append]
        exact le_max_of_le_left htaken.2
      · simp only [if_neg htaken]
        refine .inr ⟨.refl _, le_rfl, .inr (.inr ⟨List.cons_ne_nil _ _, Bool.eq_false_iff.mpr hopen, ?_⟩)⟩
        rwa [not_and_or, not_not, Nat.not_lt] at htaken
    | disconnect =>
      obtain ⟨-, ⟨⟩⟩ := Option.ite_none_left_eq_some.mp h
      exact .inl (hsame rfl rfl rfl)
    | poll | replies =>
      obtain ⟨-, ⟨⟩⟩ := Option.ite_none_right_eq_some.mp h
      exact .inl (hsame rfl rfl rfl)
    | arrive | hangUp =>
      cases h
      exact .inl (hsame rfl rfl rfl)
  | got ok =>
    obtain ⟨-, ⟨⟩⟩ := Option.ite_none_right_eq_some.mp h
    cases ok <;> exact .inl (hsame rfl rfl rfl)
  | select b =>
    obtain ⟨⟨-, hready⟩, ⟨⟩⟩ := Option.ite_none_right_eq_some.mp h
    have htail : t.queue.tail.length ≤ t.queue.length := by simp
    cases b with
    | message ok =>
      cases ok with
      | true =>
        refine .inl ⟨?_, le_max_of_le_right htail⟩
        calc t.sent ++ t.queue.take 1 ++ t.queue.tail
            = t.sent ++ (t.queue.take 1 ++ t.queue.drop 1) := by rw [List.append_assoc, List.drop_one]
          _ = t.sent ++ t.queue ++ [] := by rw [List.take_append_drop, List.append_nil]
      | false => exact .inr ⟨(List.tail_sublist _).append_left _, htail, .inl rfl⟩
    | received ok => cases ok <;> exact .inl (hsame rfl rfl rfl)
    | disconnect =>
      exact .inr ⟨(List.nil_sublist _).append_left _, Nat.zero_le _, .inr (.inl rfl)⟩
    | closed =>
      -- The channel is drained before its end is seen.
      have hempty : t.queue = [] := by
        rw [ready, Bool.and_eq_true, List.isEmpty_iff] at hready
        exact hready.2
      exact .inl (hsame rfl rfl hempty.symm)

/-- The task ends if it is told to leave, or if the manager is gone. -/
theorem step_ended (h : t.step checks e = some t') (hended : t'.phase = .ended) :
    (t.phase = .ended ∧ (t.hungUp = true → t'.hungUp = true)) ∨ e = .select .disconnect ∨ t'.hungUp = true := by
  cases e with
  | happens what =>
    refine .inl ⟨(happen_keeps h).1.symm.trans hended, fun hgone => ?_⟩
    cases what with
    | mirror bs | disconnect => exact absurd hgone (Option.ite_none_left_eq_some.mp h).1
    | poll | replies =>
      obtain ⟨-, ⟨⟩⟩ := Option.ite_none_right_eq_some.mp h
      exact hgone
    | arrive bs =>
      cases h
      exact hgone
    | hangUp =>
      cases h
      rfl
  | got ok =>
    obtain ⟨-, ⟨⟩⟩ := Option.ite_none_right_eq_some.mp h
    cases ok <;> cases hended
  | select b =>
    obtain ⟨⟨-, hready⟩, ⟨⟩⟩ := Option.ite_none_right_eq_some.mp h
    rcases select_ended_iff.mp hended with rfl | rfl
    · exact .inr (.inl rfl)
    · rw [ready, Bool.and_eq_true] at hready
      exact .inr (.inr hready.1)

/-- What a run has delivered of what was handed to the channel. -/
structure Delivers (es : List Event) (t : MirroredClient) : Prop where
  inOrder : (t.sent ++ t.queue).Sublist (es.flatMap Event.mirrored)
  room : t.queue.length ≤ 10
  /-- The task goes on until it is told to leave, or the manager is gone. -/
  stays : t.phase = .ended → .select .disconnect ∈ es ∨ t.hungUp = true
  /-- Up to ten messages are all kept, if no connection fails under one of them and the task is not told to
  leave. -/
  complete : .select (.message false) ∉ es → .select .disconnect ∉ es →
    (es.flatMap Event.mirrored).length ≤ 10 → t.sent ++ t.queue = es.flatMap Event.mirrored

theorem Delivers.step {es : List Event} (hd : Delivers es t) (h : t.step checks e = some t') :
    Delivers (es ++ [e]) t' := by
  have hall : (es ++ [e]).flatMap Event.mirrored = es.flatMap Event.mirrored ++ e.mirrored := by
    rw [List.flatMap_append, List.flatMap_singleton]
  have hkept : .select (.message false) ∉ es ++ [e] → .select .disconnect ∉ es ++ [e] →
      ((es ++ [e]).flatMap Event.mirrored).length ≤ 10 → t.sent ++ t.queue = es.flatMap Event.mirrored := by
    intro hsends hgoes hfew
    rw [hall, List.length_append] at hfew
    exact hd.complete (fun he => hsends (List.mem_append_left _ he))
      (fun he => hgoes (List.mem_append_left _ he)) (by omega)
  have hstays : t'.phase = .ended → .select .disconnect ∈ es ++ [e] ∨ t'.hungUp = true := by
    intro hended
    rcases step_ended h hended with ⟨hbefore, hgone⟩ | rfl | hgone
    · exact (hd.stays hbefore).imp (List.mem_append_left _) hgone
    · exact .inl (List.mem_append_right _ List.mem_cons_self)
    · exact .inr hgone
  rcases step_line h with ⟨hline, hlength⟩ | ⟨hline, hlength, hlost⟩
  · refine ⟨hall ▸ hline ▸ hd.inOrder.append_right _, hlength.trans (max_le le_rfl hd.room), hstays, ?_⟩
    intro hsends hgoes hfew
    rw [hall, hline, hkept hsends hgoes hfew]
  · refine ⟨hall ▸ hline.trans (hd.inOrder.trans (List.sublist_append_left ..)), hlength.trans hd.room, hstays, ?_⟩
    intro hsends hgoes hfew
    rcases hlost with rfl | rfl | ⟨hmirrored, hopen, hended | hfull⟩
    · exact absurd (List.mem_append_right _ List.mem_cons_self) hsends
    · exact absurd (List.mem_append_right _ List.mem_cons_self) hgoes
    · -- Only a signal ends a task whose manager is there to hand it a message.
      rcases hd.stays hended with hgone | hgone
      · exact absurd (List.mem_append_left _ hgone) hgoes
      · cases hopen.symm.trans hgone
    · -- The channel would be full of the ten messages before this one.
      have hpos := List.length_pos_iff.mpr hmirrored
      have hwaiting := congrArg List.length (hkept hsends hgoes hfew)
      rw [List.length_append] at hwaiting
      rw [hall, List.length_append] at hfew
      omega

/-- The second of four messages is lost with the connection, the third when the task leaves, and the fourth
finds no receiver. -/
def lossyEvents : List Event :=
  [.happens (.mirror [1]), .happens (.mirror [2]), .happens (.mirror [3]), .got true, .select (.message true),
    .got true, .select (.message false), .happens .disconnect, .got true, .select .disconnect,
    .happens (.mirror [4])]

end MirroredClient

end PgCat.Mirror
