import Mathlib.Data.List.Basic
import Mathlib.Data.List.Infix
import Mathlib.Logic.Function.Iterate

/-!
# Abandoned — reads that are given up half way

A read takes elements off a stream until it has a message.  What it has taken is kept by the read itself: if
it is abandoned, and another one started, these elements are gone.  Elements arrive in pieces, and a read is
polled, or abandoned, at any time.

Everything that was read, is being taken or is still pending makes up one list, `Reading.elements`.  Polling
leaves it as it is, and abandoning a read that has begun shortens it.  So all messages that were sent are
read, in the end, exactly if no read was abandoned half way (`read_all_iff`).

How messages are told apart is a parameter: a verdict on what a read has taken so far.  `StreamLoop` is a loop
some of whose events arrive, poll or abandon.
-/

namespace PgCat.Lib

universe u

variable {β : Type u}

/-- What a read makes of the elements it has taken. -/
inductive Verdict
  | more
  | done
  | failed
  deriving DecidableEq, Repr

/-- A stream, and the read that is under way. -/
structure Reading (β : Type u) where
  pending : List β
  taken : List β
  read : List (List β)
  /-- The last read has failed. -/
  stopped : Bool

inductive ReadEvent (β : Type u)
  | arrive (elements : List β)
  | poll
  | abandon

def arrivals : List (ReadEvent β) → List β
  | [] => []
  | .arrive elements :: es => elements ++ arrivals es
  | .poll :: es => arrivals es
  | .abandon :: es => arrivals es

/-- A message as the reads understand it: it is complete at its last element and not before. -/
structure Framed (verdict : List β → Verdict) (m : List β) : Prop where
  nonempty : m ≠ []
  done : verdict m = .done
  more : ∀ p, p <+: m → p ≠ [] → p ≠ m → verdict p = .more

namespace Reading

def start : Reading β := ⟨[], [], [], false⟩

def elements (s : Reading β) : List β :=
  s.read.flatten ++ s.taken ++ s.pending

def abandon (s : Reading β) : Reading β :=
  { s with taken := [] }

section Steps

variable (verdict : List β → Verdict)

/-- Take what is pending, one element after the other, until there is a verdict. -/
def takeFrom (read : List (List β)) : List β → List β → Reading β
  | taken, [] => ⟨[], taken, read, false⟩
  | taken, b :: rest =>
    match verdict (taken ++ [b]) with
    | .more => takeFrom read (taken ++ [b]) rest
    | .done => ⟨rest, [], read ++ [taken ++ [b]], false⟩
    | .failed => ⟨rest, taken ++ [b], read, true⟩

def poll (s : Reading β) : Reading β :=
  if s.stopped = true then s else takeFrom verdict s.read s.taken s.pending

def step (s : Reading β) : ReadEvent β → Reading β
  | .arrive elements => { s with pending := s.pending ++ elements }
  | .poll => s.poll verdict
  | .abandon => s.abandon

def run (es : List (ReadEvent β)) (s : Reading β) : Reading β :=
  es.foldl (step verdict) s

/-- Go on until nothing is pending. -/
def drain (s : Reading β) : Reading β :=
  (poll verdict)^[s.pending.length] s

end Steps

variable {verdict : List β → Verdict}

/-! ## Nothing is lost but by abandoning -/

theorem elements_takeFrom (read : List (List β)) (pending : List β) : ∀ taken : List β,
    (takeFrom verdict read taken pending).elements = read.flatten ++ taken ++ pending := by
  induction pending with
  | nil => exact fun _ => rfl
  | cons b rest ih =>
    intro taken
    rw [takeFrom]
    split
    · rw [ih]
      simp
    · simp [elements]
    · simp [elements]

theorem elements_poll (s : Reading β) : (s.poll verdict).elements = s.elements := by
  unfold poll
  split
  · rfl
  · exact elements_takeFrom s.read s.pending s.taken

theorem elements_drain (s : Reading β) : (s.drain verdict).elements = s.elements := by
  unfold drain
  generalize s.pending.length = n
  induction n generalizing s with
  | zero => rfl
  | succ n ih => rw [Function.iterate_succ_apply, ih, elements_poll]

theorem length_abandon (s : Reading β) : s.abandon.elements.length + s.taken.length = s.elements.length := by
  simp only [abandon, elements, List.length_append, List.length_nil]
  omega

theorem length_run (es : List (ReadEvent β)) (s : Reading β) :
    (run verdict es s).elements.length ≤ s.elements.length + (arrivals es).length := by
  unfold run
  induction es generalizing s with
  | nil => exact Nat.le_refl _
  | cons e es ih =>
    refine le_trans (ih (step verdict s e)) ?_
    cases e with
    | arrive elements =>
      simp only [step, Reading.elements, arrivals, List.length_append]
      omega
    | poll => rw [step, elements_poll, arrivals]
    | abandon =>
      have hless := length_abandon s
      rw [step, arrivals]
      omega

theorem arrivals_append (es es' : List (ReadEvent β)) : arrivals (es ++ es') = arrivals es ++ arrivals es' := by
  induction es with
  | nil => rfl
  | cons e es ih =>
    cases e with
    | arrive elements => rw [List.cons_append, arrivals, arrivals, ih, List.append_assoc]
    | poll => exact ih
    | abandon => exact ih

/-- Once a read that had begun was abandoned, there is less than was sent. -/
theorem length_run_abandoned {es es' : List (ReadEvent β)} {s : Reading β}
    (h : (run verdict es s).taken ≠ []) :
    (run verdict (es ++ .abandon :: es') s).elements.length <
      s.elements.length + (arrivals (es ++ .abandon :: es')).length := by
  have hbefore := @length_run β verdict es s
  have habandoned := length_abandon (run verdict es s)
  have hafter := @length_run β verdict es' (run verdict es s).abandon
  have htaken := List.length_pos_iff.mpr h
  have hsplit : run verdict (es ++ .abandon :: es') s = run verdict es' (run verdict es s).abandon := by
    rw [run, List.foldl_append]
    rfl
  rw [hsplit, arrivals_append, List.length_append, arrivals]
  omega

/-! ## Alignment -/

/-- The messages are those that were read and `rest`, the read under way has begun the first of these and is
not through with it, and `future` is what is still to come. -/
structure Aligned (ms : List (List β)) (future : List β) (rest : List (List β)) (s : Reading β) : Prop where
  messages : s.read ++ rest = ms
  elements : s.taken ++ s.pending ++ future = rest.flatten
  partway : ∀ m rest', rest = m :: rest' → s.taken <+: m ∧ s.taken ≠ m
  live : s.stopped = false

section Alignment

variable {ms : List (List β)} (hframed : ∀ m ∈ ms, Framed verdict m)

include hframed

/-- The next element belongs to the first message that is not read yet. -/
theorem Aligned.takeFrom {future : List β} (pending : List β) : ∀ {taken : List β} {read rest : List (List β)},
    Aligned ms future rest ⟨pending, taken, read, false⟩ →
      ∃ rest', Aligned ms future rest' (takeFrom verdict read taken pending) := by
  induction pending with
  | nil => exact fun h => ⟨_, h⟩
  | cons b pending ih =>
    intro taken read rest h
    have helements := h.elements
    cases rest with
    | nil => simp at helements
    | cons m rest =>
      obtain ⟨hpre, hne⟩ := h.partway m rest rfl
      have hm : m ∈ ms := h.messages ▸ List.mem_append_right read List.mem_cons_self
      have hrest : ∀ m' ∈ rest, m' ∈ ms := fun m' hin =>
        h.messages ▸ List.mem_append_right read (List.mem_cons_of_mem m hin)
      simp only [List.flatten_cons, List.append_assoc, List.cons_append] at helements
      have hshort : taken.length < m.length :=
        Nat.lt_of_le_of_ne hpre.length_le fun hlength => hne (hpre.eq_of_length hlength)
      have hnext : taken ++ [b] <+: m := by
        have hboth : taken ++ [b] <+: m ++ rest.flatten := by
          rw [← helements]
          exact ⟨pending ++ future, by simp⟩
        exact List.prefix_of_prefix_length_le hboth (List.prefix_append m _)
          (by rwa [List.length_append, List.length_singleton])
      rw [Reading.takeFrom]
      by_cases hlast : taken ++ [b] = m
      · -- The message is complete: the read ends, and the next one starts with the next message.
        rw [hlast, (hframed m hm).done]
        refine ⟨rest, ⟨by simpa using h.messages, ?_, ?_, rfl⟩⟩
        · have hcancel : m ++ (pending ++ future) = m ++ rest.flatten := by
            rw [← helements, ← hlast]
            simp
          simpa using List.append_cancel_left hcancel
        · intro m' rest' hsplit
          have hm' : m' ∈ rest := hsplit ▸ List.mem_cons_self
          exact ⟨List.nil_prefix, Ne.symm (hframed m' (hrest m' hm')).nonempty⟩
      · rw [(hframed m hm).more (taken ++ [b]) hnext (by simp) hlast]
        refine ih ⟨h.messages, by simpa using helements, ?_, rfl⟩
        intro m' rest' hsplit
        cases hsplit
        exact ⟨hnext, hlast⟩

theorem Aligned.poll {future : List β} {rest : List (List β)} {s : Reading β} (h : Aligned ms future rest s) :
    ∃ rest', Aligned ms future rest' (s.poll verdict) := by
  obtain ⟨pending, taken, read, stopped⟩ := s
  cases h.live
  exact Aligned.takeFrom hframed pending h

/-- As long as reads are abandoned between messages only, the reader stays with the messages. -/
theorem Aligned.run (es : List (ReadEvent β)) : ∀ {s : Reading β} {rest : List (List β)},
    Aligned ms (arrivals es) rest s →
      (∀ es₁ es₂, es = es₁ ++ .abandon :: es₂ → (run verdict es₁ s).taken = []) →
        ∃ rest', Aligned ms [] rest' (run verdict es s) := by
  induction es with
  | nil => exact fun h _ => ⟨_, h⟩
  | cons e es ih =>
    intro s rest h hbetween
    have hlater : ∀ es₁ es₂, es = es₁ ++ .abandon :: es₂ →
        (Reading.run verdict es₁ (step verdict s e)).taken = [] := fun es₁ es₂ hsplit =>
      hbetween (e :: es₁) es₂ (by rw [hsplit, List.cons_append])
    cases e with
    | arrive elements =>
      exact ih ⟨h.messages, by simpa [step, arrivals] using h.elements, h.partway, h.live⟩ hlater
    | poll =>
      obtain ⟨rest', h'⟩ := h.poll hframed
      exact ih h' hlater
    | abandon =>
      have hnone : s.taken = [] := hbetween [] es rfl
      have hsame : s.abandon = s := by
        cases s
        cases hnone
        rfl
      rw [step, hsame] at hlater
      change ∃ rest', Aligned ms [] rest' (Reading.run verdict es s.abandon)
      rw [hsame]
      exact ih h hlater

end Alignment

/-! ## Reading on -/

theorem length_takeFrom (read : List (List β)) (pending : List β) : ∀ taken : List β,
    (takeFrom verdict read taken pending).pending.length ≤ pending.length - 1 := by
  induction pending with
  | nil => exact fun _ => Nat.le_refl _
  | cons b rest ih =>
    intro taken
    rw [takeFrom]
    split
    · exact le_trans (ih _) (Nat.sub_le _ _)
    · exact Nat.le_refl _
    · exact Nat.le_refl _

theorem Aligned.iterate {ms : List (List β)} (hframed : ∀ m ∈ ms, Framed verdict m) (n : Nat) :
    ∀ {s : Reading β} {rest : List (List β)}, Aligned ms [] rest s → s.pending.length ≤ n →
      ∃ rest', Aligned ms [] rest' ((Reading.poll verdict)^[n] s) ∧
        ((Reading.poll verdict)^[n] s).pending = [] := by
  induction n with
  | zero => exact fun h hshort => ⟨_, h, List.length_eq_zero_iff.mp (Nat.le_zero.mp hshort)⟩
  | succ n ih =>
    intro s rest h hshort
    obtain ⟨rest', h'⟩ := h.poll hframed
    rw [Function.iterate_succ_apply]
    refine ih h' ?_
    rw [Reading.poll, if_neg (by simp [h.live])]
    exact le_trans (length_takeFrom s.read s.pending s.taken) (by omega)

theorem Aligned.drain {ms : List (List β)} (hframed : ∀ m ∈ ms, Framed verdict m) {s : Reading β}
    {rest : List (List β)} (h : Aligned ms [] rest s) : (s.drain verdict).read = ms := by
  obtain ⟨rest', h', hpending⟩ := Aligned.iterate hframed s.pending.length h (Nat.le_refl _)
  have helements := h'.elements
  rw [hpending, List.append_nil, List.append_nil] at helements
  cases rest' with
  | nil => simpa [Reading.drain] using h'.messages
  | cons m rest' =>
    -- A message that is left would be in `taken` as a whole, which is only a part of it.
    obtain ⟨hpre, hne⟩ := h'.partway m rest' rfl
    rw [List.flatten_cons] at helements
    have hlength := congrArg List.length helements
    rw [List.length_append] at hlength
    exact absurd (hpre.eq_of_length (le_antisymm hpre.length_le (by omega))) hne

theorem read_all_iff {ms : List (List β)} (hframed : ∀ m ∈ ms, Framed verdict m) {es : List (ReadEvent β)}
    (hsent : arrivals es = ms.flatten) :
    ((run verdict es start).drain verdict).read = ms ↔
      ∀ es₁ es₂, es = es₁ ++ .abandon :: es₂ → (run verdict es₁ start).taken = [] := by
  constructor
  · rintro hread es₁ es₂ rfl
    by_contra hbegun
    have hshort := @length_run_abandoned β verdict es₁ es₂ start hbegun
    have hempty : (start : Reading β).elements.length = 0 := rfl
    have hkept : ms.flatten.length ≤ (run verdict (es₁ ++ .abandon :: es₂) start).elements.length := by
      rw [← @elements_drain β verdict, elements, hread, List.append_assoc, List.length_append]
      exact Nat.le_add_right _ _
    rw [hsent, hempty] at hshort
    omega
  · intro hbetween
    have hstart : Aligned ms (arrivals es) ms (start : Reading β) := by
      refine ⟨rfl, hsent, ?_, rfl⟩
      intro m rest hsplit
      exact ⟨List.nil_prefix, Ne.symm (hframed m (hsplit ▸ List.mem_cons_self)).nonempty⟩
    obtain ⟨rest, hend⟩ := hstart.run hframed es hbetween
    exact hend.drain hframed

end Reading

/-! ## Loops -/

/-- A loop over a stream: what its events mean for the stream, as far as they are allowed. -/
structure StreamLoop (verdict : List β → Verdict) (S : Type*) (E : Type*) where
  start : S
  step : S → E → Option S
  stream : S → Reading β
  reads : E → Option (ReadEvent β)
  allowed : E → Prop
  stream_start : stream start = .start
  stream_step : ∀ {s e s'}, step s e = some s' → allowed e →
    stream s' = (reads e).toList.foldl (Reading.step verdict) (stream s)

namespace StreamLoop

variable {verdict : List β → Verdict} {S E : Type*} (L : StreamLoop verdict S E)

def run (es : List E) : Option S :=
  es.foldlM L.step L.start

variable {L}

theorem stream_run {es : List E} {s : S} (hrun : L.run es = some s) (hallowed : ∀ e ∈ es, L.allowed e) :
    L.stream s = Reading.run verdict (es.filterMap L.reads) .start := by
  have hfrom : ∀ (es : List E) (s₀ : S), es.foldlM L.step s₀ = some s → (∀ e ∈ es, L.allowed e) →
      L.stream s = Reading.run verdict (es.filterMap L.reads) (L.stream s₀) := by
    intro es
    induction es with
    | nil =>
      intro s₀ h _
      cases h
      rfl
    | cons e es ih =>
      intro s₀ h hok
      rw [List.foldlM_cons] at h
      obtain ⟨s₁, hstep, hrest⟩ := Option.bind_eq_some_iff.mp h
      rw [ih s₁ hrest fun e' he' => hok e' (List.mem_cons_of_mem e he'),
        L.stream_step hstep (hok e List.mem_cons_self), List.filterMap_cons]
      cases L.reads e <;> rfl
  rw [hfrom es L.start hrun hallowed, L.stream_start]

theorem read_all_iff {ms : List (List β)} (hframed : ∀ m ∈ ms, Framed verdict m) {es : List E} {s : S}
    (hrun : L.run es = some s) (hallowed : ∀ e ∈ es, L.allowed e)
    (hsent : arrivals (es.filterMap L.reads) = ms.flatten) :
    ((L.stream s).drain verdict).read = ms ↔ ∀ es₁ e es₂ s₁, es = es₁ ++ e :: es₂ →
      L.reads e = some .abandon → L.run es₁ = some s₁ → (L.stream s₁).taken = [] := by
  rw [stream_run hrun hallowed, Reading.read_all_iff hframed hsent]
  constructor
  · rintro hall es₁ e es₂ s₁ rfl he h₁
    rw [stream_run h₁ fun e' he' => hallowed e' (List.mem_append_left _ he')]
    exact hall _ (es₂.filterMap L.reads) (by rw [List.filterMap_append, List.filterMap_cons_some he])
  · intro hall rs₁ rs₂ hsplit
    -- The event that abandons, and what came before it.
    obtain ⟨es₁, es₂, rfl, rfl, hrest⟩ := List.filterMap_eq_append_iff.mp hsplit
    obtain ⟨skipped, e, es₃, rfl, hskipped, he, -⟩ := List.filterMap_eq_cons_iff.mp hrest
    have hnone : skipped.filterMap L.reads = [] := List.filterMap_eq_nil_iff.mpr hskipped
    rw [← List.append_assoc] at hrun hallowed
    rw [run, List.foldlM_append] at hrun
    obtain ⟨s₁, h₁, -⟩ := Option.bind_eq_some_iff.mp hrun
    have htaken := hall (es₁ ++ skipped) e es₃ s₁ (by rw [List.append_assoc]) he h₁
    rwa [stream_run h₁ fun e' he' => hallowed e' (List.mem_append_left _ he'), List.filterMap_append, hnone,
      List.append_nil] at htaken

end StreamLoop

end PgCat.Lib
