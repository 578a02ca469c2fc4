import PgCat.Lib.Bytes

/-!
# Cursor — formats that are read from the front

`Parses get bs a` says that `get` takes the bytes `bs` off the front of any input and gives `a`.  It is
closed under sequencing and repetition, so the round trip of a format follows its description field by
field: the bytes of a record are the bytes of its fields, one after the other.
-/

namespace PgCat.Lib

variable {α β γ : Type}

/-! ## Reads -/

def getBytes (n : Nat) : Cursor Bytes := fun bs =>
  if n ≤ bs.length then some (bs.take n, bs.drop n) else none

/-- The bytes up to the next NUL, which is taken as well. -/
def getUntilNul : Cursor Bytes
  | [] => none
  | b :: bs => if b = 0 then some ([], bs) else (getUntilNul bs).map fun (text, rest) => (b :: text, rest)

def asText (bs : Bytes) : Cursor String :=
  if utf8 (fromUtf8Lossy bs) = bs then pure (fromUtf8Lossy bs) else failure

/-- `n` values, one after the other. -/
def getMany (get : Cursor α) : Nat → Cursor (List α)
  | 0 => pure []
  | n + 1 => do
    let a ← get
    let as ← getMany get n
    pure (a :: as)

/-- Values up to the end of the input; each takes a byte at least, so there are no more of them than
bytes. -/
def getAll (get : Cursor α) : Nat → Bytes → Option (List α)
  | _, [] => some []
  | 0, _ :: _ => none
  | n + 1, bs => do
    let (a, rest) ← get bs
    let as ← getAll get n rest
    pure (a :: as)

/-- The value of an input with nothing behind it. -/
def getWhole (get : Cursor α) (bs : Bytes) : Option α :=
  match get bs with
  | some (a, []) => some a
  | _ => none

/-! ## Reading back -/

/-- `get` takes `bs` off the front and gives `a`. -/
def Parses (get : Cursor α) (bs : Bytes) (a : α) : Prop :=
  ∀ rest, get (bs ++ rest) = some (a, rest)

namespace Parses

theorem ofPure (a : α) : Parses (pure a) [] a :=
  fun _ => rfl

theorem seq {get : Cursor α} {f : α → Cursor β} {bs bs' : Bytes} {a : α} {b : β} (hget : Parses get bs a)
    (hf : Parses (f a) bs' b) : Parses (get >>= f) (bs ++ bs') b := by
  intro rest
  rw [List.append_assoc]
  have hfirst := hget (bs' ++ rest)
  exact (congrArg (fun r => r.bind fun p => f p.1 p.2) hfirst).trans (hf rest)

theorem last {get : Cursor α} {f : α → Cursor β} {bs : Bytes} {a : α} {b : β} (hget : Parses get bs a)
    (hf : Parses (f a) [] b) : Parses (get >>= f) bs b := by
  have hseq := hget.seq hf
  rwa [List.append_nil] at hseq

theorem ofGetI16 {i : Int} (hlow : -2 ^ 15 ≤ i) (hhigh : i < 2 ^ 15) : Parses getI16 (putI16 i) i :=
  getSigned_append (by decide) hlow hhigh

theorem ofGetI32 {i : Int} (hlow : -2 ^ 31 ≤ i) (hhigh : i < 2 ^ 31) : Parses getI32 (putI32 i) i :=
  getSigned_append (by decide) hlow hhigh

theorem ofGetU8 (b : UInt8) : Parses getU8 [b] b :=
  fun _ => rfl

theorem ofGetBytes (bs : Bytes) : Parses (getBytes bs.length) bs bs := by
  intro rest
  rw [getBytes, if_pos (by simp), List.take_left, List.drop_left]

theorem ofGetUntilNul {bs : Bytes} (h : 0 ∉ bs) : Parses getUntilNul (bs ++ [0]) bs := by
  intro rest
  induction bs with
  | nil => rfl
  | cons b bs ih =>
    rw [List.mem_cons, not_or] at h
    rw [List.cons_append, List.cons_append, getUntilNul, if_neg (Ne.symm h.1), ih h.2]
    rfl

theorem ofAsText (s : String) : Parses (asText (utf8 s)) [] s := by
  intro rest
  rw [asText, fromUtf8Lossy_utf8, if_pos rfl]
  rfl

theorem many {get : Cursor β} {encode : α → Bytes} {decode : α → β} {as : List α}
    (h : ∀ a ∈ as, Parses get (encode a) (decode a)) :
    Parses (getMany get as.length) (as.flatMap encode) (as.map decode) := by
  induction as with
  | nil => exact ofPure []
  | cons a as ih =>
    rw [List.forall_mem_cons] at h
    exact h.1.seq ((ih h.2).last (ofPure _))

theorem whole {get : Cursor α} {bs : Bytes} {a : α} (h : Parses get bs a) : getWhole get bs = some a := by
  have hall := h []
  rw [List.append_nil] at hall
  rw [getWhole, hall]

theorem all {get : Cursor β} {encode : α → Bytes} {decode : α → β} {as : List α}
    (h : ∀ a ∈ as, encode a ≠ [] ∧ Parses get (encode a) (decode a)) :
    ∀ {n : Nat}, (as.flatMap encode).length ≤ n → getAll get n (as.flatMap encode) = some (as.map decode) := by
  induction as with
  | nil =>
    intro n _
    cases n <;> rfl
  | cons a as ih =>
    intro n hn
    rw [List.forall_mem_cons] at h
    obtain ⟨⟨hsome, hparse⟩, hrest⟩ := h
    obtain ⟨b, bs, hbytes⟩ := List.exists_cons_of_ne_nil hsome
    rw [List.flatMap_cons, List.length_append, hbytes, List.length_cons] at hn
    obtain ⟨n, rfl⟩ : ∃ k, n = k + 1 := ⟨n - 1, by omega⟩
    have hfirst := hparse (as.flatMap encode)
    have htail := ih hrest (n := n) (by omega)
    rw [hbytes, List.cons_append] at hfirst
    rw [List.flatMap_cons, hbytes, List.cons_append]
    simp only [getAll, hfirst, htail, some_bind]
    rfl

end Parses

end PgCat.Lib
