import PgCat.Lib.Bytes
import PgCat.Lib.Program

/-!
# Socket — programs that talk over a socket

A `Socket` holds what the peer sends before it closes the connection, and whether each write goes
through.  A program over it stops with an error of its own or with a panic.  The arithmetic on
lengths is that of the machine: a subtraction that leaves its type panics if overflow checks are
compiled in, and wraps around if they are not.

`Calm m s` says that `m` does not panic from `s`; its rules say when a sequence of reads is calm.
-/

namespace PgCat.Lib

structure Socket where
  /-- What the peer sends from here on; the connection ends after it. -/
  input : Bytes
  /-- Whether each coming write goes through; none does after them. -/
  writes : List Bool
  /-- What was written, oldest first. -/
  sent : List Bytes
  deriving DecidableEq, Repr

/-- Why a program stops without a result. -/
inductive Halt (ε : Type)
  | failed (e : ε)
  | panicked
  | pending
  deriving DecidableEq, Repr

abbrev SocketM (ε : Type) := EStateM (Halt ε) Socket

/-! ## Lengths -/

/-- `a - b` on 32-bit signed words. -/
def subI32 (checks : Bool) (a b : Int) : Option Int :=
  if -2 ^ 31 ≤ a - b ∧ a - b < 2 ^ 31 then some (a - b)
  else if checks then none
  else some (toSigned 32 (ofSigned 32 (a - b)))

/-- `a - b` on 64-bit unsigned words. -/
def subUsize (checks : Bool) (a b : Nat) : Option Nat :=
  if b ≤ a then some (a - b)
  else if checks then none
  else some (a + 2 ^ 64 - b)

/-- `a + b` on 64-bit unsigned words. -/
def addUsize (checks : Bool) (a b : Nat) : Option Nat :=
  if a + b < 2 ^ 64 then some (a + b)
  else if checks then none
  else some (a + b - 2 ^ 64)

/-- The largest size of an allocation; asking for more panics. -/
def isizeMax : Nat := 2 ^ 63 - 1

/-- The 32-bit word at the head of a byte string. -/
def word (bs : Bytes) : Int :=
  toSigned 32 (beNat (bs.take 4))

theorem word_range (bs : Bytes) : -2 ^ 31 ≤ word bs ∧ word bs < 2 ^ 31 := by
  have hlt : beNat (bs.take 4) < 2 ^ 32 :=
    calc beNat (bs.take 4) < 256 ^ (bs.take 4).length := beNat_lt _
      _ ≤ 256 ^ 4 := Nat.pow_le_pow_right (by decide) (List.length_take_le 4 bs)
      _ = 2 ^ 32 := by decide
  unfold word toSigned
  split <;> omega

/-- A length computed from a length word, if it can be allocated, is what the word says modulo its width. -/
theorem size_of_subI32 {checks : Bool} {w : Int} {n k : Nat}
    (h : (subI32 checks w n).map asUsize = some k) (hk : k ≤ isizeMax) : k = ofSigned 32 (w - n) := by
  unfold subI32 asUsize ofSigned toSigned isizeMax at *
  split at h
  · simp only [Option.map_some, Option.some.injEq] at h
    omega
  · cases checks with
    | true => cases h
    | false =>
      simp only [Bool.false_eq_true, if_false, Option.map_some, Option.some.injEq] at h
      split at h <;> omega

theorem size_of_subUsize {checks : Bool} {w : Int} {n k : Nat} (hw : -2 ^ 31 ≤ w ∧ w < 2 ^ 31) (hn : n ≤ 8)
    (h : subUsize checks (asUsize w) n = some k) (hk : k ≤ isizeMax) : k = ofSigned 32 (w - n) := by
  unfold subUsize asUsize ofSigned isizeMax at *
  split at h
  · cases h
    omega
  · cases checks with
    | true => cases h
    | false =>
      simp only [Bool.false_eq_true, if_false, Option.some.injEq] at h
      omega

theorem putI32_size {bs : Bytes} (hlen : 4 ≤ bs.length) (n : Nat) :
    putI32 (ofSigned 32 (word bs - n) + n) = bs.take 4 := by
  have hfour : (bs.take 4).length = 4 := List.length_take_of_le hlen
  have hlt := beNat_lt (bs.take 4)
  have hword : ofSigned 32 (ofSigned 32 (word bs - n) + n) = beNat (bs.take 4) := by
    rw [hfour] at hlt
    unfold ofSigned word toSigned
    split <;> omega
  have hbytes := beBytes_beNat (bs.take 4)
  rw [hfour] at hbytes
  rw [putI32, hword, hbytes]

/-! ## Reads and writes -/

section Operations

variable {ε α : Type}

def readExact (n : Nat) (e : ε) : SocketM ε Bytes := fun s =>
  if n ≤ s.input.length then .ok (s.input.take n) { s with input := s.input.drop n }
  else .error (.failed e) { s with input := [] }

def readU8 (e : ε) : SocketM ε UInt8 := fun s =>
  match s.input with
  | [] => .error (.failed e) s
  | b :: rest => .ok b { s with input := rest }

def readI32 (e : ε) : SocketM ε Int :=
  word <$> readExact 4 e

def writeAll (bs : Bytes) (e : ε) : SocketM ε Unit := fun s =>
  match s.writes with
  | true :: rest => .ok () { s with writes := rest, sent := s.sent ++ [bs] }
  | _ => .error (.failed e) { s with writes := [] }

def unwrap : Option α → SocketM ε α
  | some a => pure a
  | none => throw .panicked

def propagate : Except ε α → SocketM ε α
  | .ok a => pure a
  | .error e => throw (.failed e)

/-- Allocate `n` bytes and fill them from the socket. -/
def readVec (n : Option Nat) (e : ε) : SocketM ε Bytes := do
  let n ← unwrap n
  if n ≤ isizeMax then readExact n e else throw .panicked

end Operations

/-! ## Results -/

section Results

variable {ε α : Type} {e : ε} {s s' : Socket} {bs : Bytes}

theorem pure_apply (a : α) : (pure a : SocketM ε α) s = .ok a s := rfl

theorem throw_apply (h : Halt ε) : (throw h : SocketM ε α) s = .error h s := rfl

theorem get_apply : (get : SocketM ε Socket) s = .ok s s := rfl

theorem readExact_ok {n : Nat} : readExact n e s = .ok bs s' ↔
    n ≤ s.input.length ∧ bs = s.input.take n ∧ s' = { s with input := s.input.drop n } := by
  unfold readExact
  split
  · simp only [EStateM.Result.ok.injEq]; grind
  · simp [*]

theorem readU8_ok {b : UInt8} : readU8 e s = .ok b s' ↔
    s.input = b :: s'.input ∧ s' = { s with input := s'.input } := by
  unfold readU8
  cases hinput : s.input with
  | nil => simp
  | cons c rest =>
    simp only [EStateM.Result.ok.injEq, List.cons.injEq]
    constructor
    · rintro ⟨rfl, rfl⟩; simp
    · rintro ⟨⟨rfl, hrest⟩, hs⟩; rw [hs, hrest]; simp

theorem readI32_ok {i : Int} : readI32 e s = .ok i s' ↔
    4 ≤ s.input.length ∧ i = word s.input ∧ s' = { s with input := s.input.drop 4 } := by
  have hword : word (s.input.take 4) = word s.input := by
    rw [word, List.take_take, word, Nat.min_self]
  simp only [readI32, Functor.map, EStateM.map, readExact]
  by_cases hlen : 4 ≤ s.input.length
  · simp [hlen, hword, eq_comm]
  · simp [hlen]

theorem writeAll_ok {u : Unit} : writeAll bs e s = .ok u s' ↔
    ∃ rest, s.writes = true :: rest ∧ s' = { s with writes := rest, sent := s.sent ++ [bs] } := by
  unfold writeAll
  split
  · rename_i rest hwrites
    simp [hwrites, eq_comm]
  · rename_i hwrites
    constructor
    · intro h
      cases h
    · rintro ⟨rest, hrest, -⟩
      exact absurd hrest (hwrites rest)

theorem propagate_ok {r : Except ε α} {a : α} : propagate r s = .ok a s' ↔ r = .ok a ∧ s' = s := by
  cases r with
  | ok b => simp [propagate, pure_apply, eq_comm]
  | error e => simp [propagate, throw_apply]

theorem unwrap_ok {o : Option α} {a : α} : (unwrap o : SocketM ε α) s = .ok a s' ↔ o = some a ∧ s' = s := by
  cases o with
  | some b => simp [unwrap, pure_apply, eq_comm]
  | none => simp [unwrap, throw_apply]

theorem readVec_ok {n : Option Nat} : readVec n e s = .ok bs s' ↔
    ∃ k, n = some k ∧ k ≤ isizeMax ∧ readExact k e s = .ok bs s' := by
  unfold readVec
  cases n with
  | none => simp [bind_eq_ok_iff, unwrap_ok]
  | some k =>
    by_cases hk : k ≤ isizeMax
    · simp [unwrap, hk]
    · simp [unwrap, hk, throw_apply]

end Results

/-! ## Panics -/

/-- From `s`, `m` returns or fails with an error of its own: it does not panic. -/
def Calm {ε α : Type} (m : SocketM ε α) (s : Socket) : Prop :=
  ∀ h s', m s = .error h s' → ∃ e, h = .failed e

namespace Calm

variable {ε α β : Type} {s : Socket} {m : SocketM ε β} {f : β → SocketM ε α}

@[simp] theorem ofPure (a : α) : Calm (pure a : SocketM ε α) s := by
  simp [Calm, pure_apply]

@[simp] theorem ofGet : Calm (get : SocketM ε Socket) s := by
  simp [Calm, get_apply]

@[simp] theorem ofFailed (e : ε) : Calm (throw (.failed e) : SocketM ε α) s := by
  simp [Calm, throw_apply]

@[simp] theorem not_panicked : ¬ Calm (throw .panicked : SocketM ε α) s := by
  simp [Calm, throw_apply]

theorem bind_iff :
    Calm (m >>= f) s ↔ Calm m s ∧ ∀ b s', m s = .ok b s' → Calm (f b) s' := by
  simp only [Calm, bind, EStateM.bind]
  cases m s with
  | ok b s' => simp
  | error e s' => simp

theorem seq (hm : Calm m s) (hf : ∀ b s', Calm (f b) s') :
    Calm (m >>= f) s :=
  bind_iff.mpr ⟨hm, fun b s' _ => hf b s'⟩

theorem map_iff {f : β → α} : Calm (f <$> m) s ↔ Calm m s := by
  simp only [Calm, Functor.map, EStateM.map]
  cases m s with
  | ok b s' => simp
  | error e s' => simp

@[simp] theorem ofReadExact (n : Nat) (e : ε) : Calm (readExact n e) s := by
  simp only [Calm, readExact]
  by_cases hn : n ≤ s.input.length
  · simp [hn]
  · simp [hn]

@[simp] theorem ofReadU8 (e : ε) : Calm (readU8 e) s := by
  simp only [Calm, readU8]
  cases s.input with
  | nil => simp
  | cons b rest => simp

@[simp] theorem ofReadI32 (e : ε) : Calm (readI32 e) s :=
  map_iff.mpr (ofReadExact 4 e)

@[simp] theorem ofWriteAll (bs : Bytes) (e : ε) : Calm (writeAll bs e) s := by
  intro h s' hw
  unfold writeAll at hw
  split at hw
  · cases hw
  · cases hw
    exact ⟨e, rfl⟩

@[simp] theorem ofPropagate (r : Except ε α) : Calm (propagate r) s := by
  cases r with
  | ok a => exact ofPure a
  | error e => exact ofFailed e

@[simp] theorem unwrap_iff (o : Option α) : Calm (unwrap o : SocketM ε α) s ↔ o.isSome := by
  cases o with
  | some a => simp [unwrap]
  | none => simp [unwrap]

theorem readVec_iff (n : Option Nat) (e : ε) : Calm (readVec n e) s ↔ ∃ k, n = some k ∧ k ≤ isizeMax := by
  unfold readVec
  cases n with
  | none => simp [bind_iff]
  | some k =>
    by_cases hk : k ≤ isizeMax
    · simp [unwrap, hk]
    · simp [unwrap, hk]

/-! Sequences, by their first step. -/

theorem get_bind {f : Socket → SocketM ε α} : Calm (get >>= f) s ↔ Calm (f s) s :=
  Iff.rfl

theorem modify_bind {g : Socket → Socket} {f : PUnit → SocketM ε α} :
    Calm (modify g >>= f) s ↔ Calm (f ⟨⟩) (g s) :=
  Iff.rfl

theorem propagate_bind {r : Except ε β} :
    Calm (propagate r >>= f) s ↔ ∀ b, r = .ok b → Calm (f b) s := by
  simp only [bind_iff, ofPropagate, true_and, propagate_ok]
  constructor
  · intro h b hb
    exact h b s ⟨hb, rfl⟩
  · rintro h b s' ⟨hb, rfl⟩
    exact h b hb

theorem unwrap_bind {o : Option β} :
    Calm (unwrap o >>= f) s ↔ ∃ b, o = some b ∧ Calm (f b) s := by
  cases o with
  | some b => simp [unwrap]
  | none => simp [unwrap, bind_iff]

theorem not_panicked_bind : ¬ Calm (throw .panicked >>= f) s :=
  fun h => not_panicked (bind_iff.mp h).1

theorem failed_bind (e : ε) : Calm (throw (.failed e) >>= f) s :=
  bind_iff.mpr ⟨ofFailed e, fun _ _ h => by cases h⟩

theorem write_bind {bs : Bytes} {e : ε} {f : Unit → SocketM ε α} :
    Calm (writeAll bs e >>= f) s ↔ (s.writes.head? = some true →
      Calm (f ()) { s with writes := s.writes.tail, sent := s.sent ++ [bs] }) := by
  simp only [bind_iff, ofWriteAll, true_and, writeAll_ok]
  constructor
  · intro h hwrite
    obtain ⟨rest, hwrites⟩ := List.head?_eq_some_iff.mp hwrite
    exact h () _ ⟨rest, hwrites, by rw [hwrites, List.tail_cons]⟩
  · rintro h _ s' ⟨rest, hwrites, rfl⟩
    rw [hwrites] at h
    exact h rfl

end Calm

end PgCat.Lib
