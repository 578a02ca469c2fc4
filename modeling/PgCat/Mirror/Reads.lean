import PgCat.Mirror.Task

/-!
# Reads — messages that are read while something else is awaited

Two loops read messages in a `select!` and go on with the same connection when something else wins: the task
behind a mirror, when there is a message to mirror, and the loop of an admin client, which ignores the
shutdown broadcast.  `read_message` takes the code, the length word and the rest in reads of its own, so it may
have taken any part of a message when it is dropped.

Both loops are mapped to the events of `Lib.Reading`; what they read is decided there.
-/

namespace PgCat.Mirror

open Lib Auth

/-! ## Frames -/

theorem messageSize_frame {checks : Bool} {n : Nat} (h : n ≤ 2 ^ 31 - 5) :
    messageSize checks ((n : Int) + 4) = some (n + 5) := by
  obtain ⟨hcapacity, hsize, hfits⟩ := @sizes_of_payload checks n h
  simp only [messageSize, hcapacity, hsize, some_bind, hfits, if_false,
    Nat.not_lt.mpr (Nat.le_add_left 5 n)]

theorem word_of_leading {p q : Bytes} (h : p <+: q) (hlength : 4 ≤ p.length) : word p = word q := by
  obtain ⟨rest, rfl⟩ := h
  rw [word, word, List.take_append_of_le_length hlength]

theorem framed_of_frame {checks : Bool} {m : Bytes} (h : Frame m) : Framed (messageVerdict checks) m := by
  obtain ⟨code, payload, hlength, rfl⟩ := h
  have hbytes : (Protocol.Message.mk code payload).bytes = code :: (putI32 (payload.length + 4) ++ payload) := rfl
  have hputs : (putI32 ((payload.length : Int) + 4)).length = 4 := length_beBytes 4 _
  have htotal : (putI32 ((payload.length : Int) + 4) ++ payload).length = payload.length + 4 := by
    rw [List.length_append, hputs, Nat.add_comm]
  have hword := word_putI32 hlength payload
  rw [hbytes]
  refine ⟨List.cons_ne_nil _ _, ?_, ?_⟩
  · rw [messageVerdict, if_neg (by omega), hword, messageSize_frame hlength]
    simp only [List.length_cons, htotal]
    exact if_neg (Nat.lt_irrefl _)
  · intro p hpre hnil hne
    cases p with
    | nil => exact absurd rfl hnil
    | cons b rest =>
      obtain ⟨rfl, hrest⟩ := List.cons_prefix_cons.mp hpre
      have hshort : rest.length < payload.length + 4 := by
        rw [← htotal]
        exact Nat.lt_of_le_of_ne hrest.length_le fun hlen => hne (by rw [hrest.eq_of_length hlen])
      rw [messageVerdict]
      split
      · rfl
      · rename_i hlong
        rw [word_of_leading hrest (Nat.not_lt.mp hlong), hword, messageSize_frame hlength]
        simp only [List.length_cons]
        exact if_pos (by omega)

/-! ## The task behind a mirror -/

/-- What an event means for the stream. -/
def Event.reads : Event → Option (ReadEvent UInt8)
  | .happens (.arrive bs) => some (.arrive bs)
  | .happens .poll => some .poll
  | .select (.message true) => some .abandon
  | _ => none

/-- No failure makes the pool replace the connection. -/
def SameStream (es : List Event) : Prop :=
  ∀ e ∈ es, e ≠ .select (.received false) ∧ e ≠ .select (.message false)

def sentByMirror (es : List Event) : Bytes :=
  arrivals (es.filterMap Event.reads)

namespace MirroredClient

variable {checks : Bool}

theorem step_stream {t t' : MirroredClient} {e : Event} (hstep : t.step checks e = some t')
    (hsame : e ≠ .select (.received false) ∧ e ≠ .select (.message false)) :
    t'.stream = (e.reads.toList.foldl (Reading.step (messageVerdict checks)) t.stream) := by
  cases e with
  | happens h =>
    cases h with
    | arrive bs | hangUp =>
      cases hstep
      rfl
    | mirror bs | disconnect =>
      obtain ⟨-, ⟨⟩⟩ := Option.ite_none_left_eq_some.mp hstep
      rfl
    | poll | replies ok =>
      obtain ⟨-, ⟨⟩⟩ := Option.ite_none_right_eq_some.mp hstep
      rfl
  | got ok =>
    obtain ⟨-, ⟨⟩⟩ := Option.ite_none_right_eq_some.mp hstep
    cases ok <;> rfl
  | select b =>
    obtain ⟨-, ⟨⟩⟩ := Option.ite_none_right_eq_some.mp hstep
    cases b with
    | disconnect => rfl
    | closed => rfl
    | received ok =>
      cases ok with
      | true => rfl
      | false => exact absurd rfl hsame.1
    | message ok =>
      cases ok with
      | true => rfl
      | false => exact absurd rfl hsame.2

/-- The task as a loop over what the mirror sends. -/
def loop (checks : Bool) : StreamLoop (messageVerdict checks) MirroredClient Event where
  start := .start
  step := step checks
  stream := stream
  reads := Event.reads
  allowed := fun e => e ≠ .select (.received false) ∧ e ≠ .select (.message false)
  stream_start := rfl
  stream_step := step_stream

end MirroredClient

theorem Event.reads_abandon {e : Event} (h : e.reads = some .abandon) : e = .select (.message true) := by
  unfold Event.reads at h
  split at h <;> first | rfl | cases h

/-! ## The loop of an admin client -/

inductive AdminEvent
  /-- The client sends. -/
  | arrive (bs : Bytes)
  | poll
  /-- The pooler is told to shut down. -/
  | broadcast
  /-- The broadcast is received, and ignored. -/
  | shutdown
  deriving DecidableEq, Repr

structure AdminClient where
  /-- The read is one of two branches; after the broadcast it is awaited alone. -/
  racing : Bool
  broadcasts : Nat
  stream : Reading UInt8

namespace AdminClient

def start : AdminClient := ⟨true, 0, .start⟩

/-- Once a message is complete, it is handled, and the loop is back in `select!`. -/
def step (checks : Bool) (c : AdminClient) : AdminEvent → Option AdminClient
  | .arrive bs => some { c with stream := c.stream.step (messageVerdict checks) (.arrive bs) }
  | .poll =>
    let stream := c.stream.step (messageVerdict checks) .poll
    some { c with racing := c.racing || decide (c.stream.read.length < stream.read.length), stream := stream }
  | .broadcast => some { c with broadcasts := c.broadcasts + 1 }
  | .shutdown =>
    if c.racing = true ∧ 0 < c.broadcasts then some ⟨false, c.broadcasts - 1, c.stream.abandon⟩ else none

def run (checks : Bool) (es : List AdminEvent) (c : AdminClient) : Option AdminClient :=
  es.foldlM (step checks) c

end AdminClient

def AdminEvent.reads : AdminEvent → Option (ReadEvent UInt8)
  | .arrive bs => some (.arrive bs)
  | .poll => some .poll
  | .broadcast => none
  | .shutdown => some .abandon

def sentByClient (es : List AdminEvent) : Bytes :=
  arrivals (es.filterMap AdminEvent.reads)

namespace AdminClient

variable {checks : Bool}

theorem step_stream {c c' : AdminClient} {e : AdminEvent} (hstep : c.step checks e = some c') :
    c'.stream = e.reads.toList.foldl (Reading.step (messageVerdict checks)) c.stream := by
  cases e with
  | arrive bs | poll | broadcast =>
    cases hstep
    rfl
  | shutdown =>
    obtain ⟨-, ⟨⟩⟩ := Option.ite_none_right_eq_some.mp hstep
    rfl

def loop (checks : Bool) : StreamLoop (messageVerdict checks) AdminClient AdminEvent where
  start := .start
  step := step checks
  stream := stream
  reads := AdminEvent.reads
  allowed := fun _ => True
  stream_start := rfl
  stream_step := fun hstep _ => step_stream hstep

end AdminClient

theorem AdminEvent.reads_abandon {e : AdminEvent} (h : e.reads = some .abandon) : e = .shutdown := by
  cases e <;> first | rfl | cases h

/-- What is sent in frames is read as it was sent, before and after reads were dropped, exactly if no read was
dropped that had taken a part of a message: by the task behind a mirror, which drops the read when there is a
message to mirror, and by an admin client, which drops it at the shutdown broadcast. -/
theorem frames_read_iff (checks : Bool) {ms : List Bytes} (hms : ∀ m ∈ ms, Frame m) :
    (∀ (es : List Event) (t : MirroredClient), MirroredClient.start.run checks es = some t → SameStream es →
      sentByMirror es = ms.flatten →
        ((t.stream.drain (messageVerdict checks)).read = ms ↔
          ∀ es₁ es₂ t₁, es = es₁ ++ .select (.message true) :: es₂ →
            MirroredClient.start.run checks es₁ = some t₁ → t₁.stream.taken = [])) ∧
      ∀ (es : List AdminEvent) (c : AdminClient), AdminClient.start.run checks es = some c →
        sentByClient es = ms.flatten →
          ((c.stream.drain (messageVerdict checks)).read = ms ↔
            ∀ es₁ es₂ c₁, es = es₁ ++ .shutdown :: es₂ →
              AdminClient.start.run checks es₁ = some c₁ → c₁.stream.taken = []) := by
  have hframed : ∀ m ∈ ms, Framed (messageVerdict checks) m := fun m hm => framed_of_frame (hms m hm)
  constructor
  · intro es t hrun hsame hsent
    refine (@StreamLoop.read_all_iff _ _ _ _ (MirroredClient.loop checks) _ hframed es t hrun hsame hsent).trans ?_
    constructor
    · exact fun hall es₁ es₂ t₁ hsplit h₁ => hall es₁ _ es₂ t₁ hsplit rfl h₁
    · intro hall es₁ e es₂ t₁ hsplit he h₁
      cases Event.reads_abandon he
      exact hall es₁ es₂ t₁ hsplit h₁
  · intro es c hrun hsent
    refine (@StreamLoop.read_all_iff _ _ _ _ (AdminClient.loop checks) _ hframed es c hrun
      (fun _ _ => trivial) hsent).trans ?_
    constructor
    · exact fun hall es₁ es₂ c₁ hsplit h₁ => hall es₁ _ es₂ c₁ hsplit rfl h₁
    · intro hall es₁ e es₂ c₁ hsplit he h₁
      cases AdminEvent.reads_abandon he
      exact hall es₁ es₂ c₁ hsplit h₁

namespace Sample

def readyForQuery : Bytes := [0x5a, 0, 0, 0, 5, 0x49]

/-- An empty query, which is mirrored, and which the admin client sends. -/
def emptyQuery : Bytes := [0x51, 0, 0, 0, 5, 0]

theorem frame_readyForQuery : Frame readyForQuery :=
  ⟨0x5a, [0x49], by decide, rfl⟩

theorem frame_emptyQuery : Frame emptyQuery :=
  ⟨0x51, [0], by decide, rfl⟩

/-- There is a query to mirror after `first` has arrived, and before `rest` does. -/
def mirrorEvents (first rest : Bytes) : List Event :=
  [.got true, .happens (.arrive first), .happens .poll, .happens (.mirror emptyQuery), .select (.message true),
    .got true, .happens (.arrive rest), .happens .poll]

/-- The shutdown is broadcast after `first` has arrived, and before `rest` does. -/
def adminEvents (first rest : Bytes) : List AdminEvent :=
  [.arrive first, .poll, .broadcast, .shutdown, .arrive rest, .poll]

theorem sameStream_mirrorEvents (first rest : Bytes) : SameStream (mirrorEvents first rest) := by
  simp [SameStream, mirrorEvents]

/-- Before the first byte of a message nothing is lost. -/
theorem dropped_between_messages :
    (∃ t, MirroredClient.start.run true (mirrorEvents [] readyForQuery) = some t ∧
      ∀ es₁ es₂ t₁, mirrorEvents [] readyForQuery = es₁ ++ .select (.message true) :: es₂ →
        MirroredClient.start.run true es₁ = some t₁ → t₁.stream.taken = []) ∧
      ∃ c, AdminClient.start.run true (adminEvents [] readyForQuery) = some c ∧
        ∀ es₁ es₂ c₁, adminEvents [] readyForQuery = es₁ ++ .shutdown :: es₂ →
          AdminClient.start.run true es₁ = some c₁ → c₁.stream.taken = [] := by
  have hall := @frames_read_iff true [readyForQuery] (List.forall_mem_singleton.mpr frame_readyForQuery)
  exact ⟨⟨_, rfl, (hall.1 _ _ rfl (sameStream_mirrorEvents _ _) rfl).mp rfl⟩, ⟨_, rfl, (hall.2 _ _ rfl rfl).mp rfl⟩⟩

/-- After the first byte of a message it is lost: the length word is taken for the code and a part of another
length, and the message that was sent is not read. -/
theorem code_lost :
    (∃ t, MirroredClient.start.run true (mirrorEvents [0x5a] [0, 0, 0, 5, 0x49]) = some t ∧
      SameStream (mirrorEvents [0x5a] [0, 0, 0, 5, 0x49]) ∧ Frame readyForQuery ∧
        sentByMirror (mirrorEvents [0x5a] [0, 0, 0, 5, 0x49]) = [readyForQuery].flatten ∧
          (t.stream.drain (messageVerdict true)).read = [] ∧
            (t.stream.drain (messageVerdict true)).taken = [0, 0, 0, 5, 0x49]) ∧
      ∃ c, AdminClient.start.run true (adminEvents [0x51] [0, 0, 0, 5, 0]) = some c ∧ Frame emptyQuery ∧
        sentByClient (adminEvents [0x51] [0, 0, 0, 5, 0]) = [emptyQuery].flatten ∧
          (c.stream.drain (messageVerdict true)).read = [] ∧
            (c.stream.drain (messageVerdict true)).taken = [0, 0, 0, 5, 0] :=
  ⟨⟨_, rfl, sameStream_mirrorEvents _ _, frame_readyForQuery, rfl, rfl, rfl⟩, ⟨_, rfl, frame_emptyQuery, rfl, rfl, rfl⟩⟩

end Sample

end PgCat.Mirror
