import Mathlib.Algebra.Ring.Int.Defs
import Mathlib.Algebra.Ring.Nat
import Mathlib.Data.List.Basic
import Mathlib.Tactic.Ring

/-!
# Bytes — big-endian words, UTF-8 text and a panicking read cursor

Byte strings are lists of `UInt8`.  A cursor read is a `StateT Bytes Option` action: `none` stands
for the panic of a read past the end of the buffer.  Integer parsing and lossy UTF-8 decoding follow
the standard library of the modelled language (maximal ill-formed subparts become `U+FFFD`).
-/

namespace PgCat.Lib

abbrev Bytes := List UInt8

/-- A read that succeeds is followed by the rest. -/
theorem some_bind {α β : Type _} (a : α) (f : α → Option β) : some a >>= f = f a :=
  rfl

/-! ## Fixed-width words -/

/-- Value of a big-endian byte string. -/
def beNat (bs : Bytes) : Nat :=
  bs.foldl (fun n b => 256 * n + b.toNat) 0

/-- The `k` low bytes of `n`, most significant first. -/
def beBytes : Nat → Nat → Bytes
  | 0, _ => []
  | k + 1, n => UInt8.ofNat (n / 256 ^ k) :: beBytes k n

/-- Two's-complement reading of a `w`-bit word. -/
def toSigned (w n : Nat) : Int :=
  if n < 2 ^ (w - 1) then n else (n : Int) - 2 ^ w

/-- The `w`-bit word that represents `i`. -/
def ofSigned (w : Nat) (i : Int) : Nat :=
  (i % 2 ^ w).toNat

/-- Sign-extending cast to a 64-bit unsigned word. -/
def asUsize (i : Int) : Nat :=
  ofSigned 64 i

/-- Big-endian encoding of a 32-bit integer. -/
def putI32 (i : Int) : Bytes :=
  beBytes 4 (ofSigned 32 i)

/-- Big-endian encoding of a 16-bit integer. -/
def putI16 (i : Int) : Bytes :=
  beBytes 2 (ofSigned 16 i)

/-- Truncating cast of a length to a 32-bit signed word. -/
def asI32 (n : Nat) : Int :=
  toSigned 32 (n % 2 ^ 32)

variable (k : Nat) (bs : Bytes) (n : Nat) {cs : List Char} {i : Int}

/-- The word of a length does not depend on where the length is cut to its width. -/
theorem putI32_asI32 (i : Int) : putI32 (asI32 n + i) = putI32 (n + i) := by
  have hmod : (asI32 n + i) % 2 ^ 32 = ((n : Int) + i) % 2 ^ 32 := by
    unfold asI32 toSigned
    split <;> omega
  rw [putI32, putI32, ofSigned, ofSigned, hmod]

@[simp] theorem length_beBytes : (beBytes k n).length = k := by
  induction k with
  | zero => rfl
  | succ k ih => simp [beBytes, ih]

private theorem foldl_beBytes : ∀ acc,
    (beBytes k n).foldl (fun m b => 256 * m + b.toNat) acc = acc * 256 ^ k + n % 256 ^ k := by
  induction k with
  | zero =>
    intro acc
    simp [beBytes, Nat.mod_one]
  | succ k ih =>
    intro acc
    have hbyte : (UInt8.ofNat (n / 256 ^ k)).toNat = n / 256 ^ k % 256 := rfl
    -- The first byte is the digit of weight `256 ^ k`.
    have hdigit : n % 256 ^ (k + 1) = n % 256 ^ k + 256 ^ k * (n / 256 ^ k % 256) := by
      rw [Nat.pow_succ, Nat.mod_mul]
    rw [beBytes, List.foldl_cons, ih, hbyte, hdigit]
    ring

/-- A word written big-endian is read back, reduced to its width. -/
theorem beNat_beBytes : beNat (beBytes k n) = n % 256 ^ k := by
  have h := foldl_beBytes k n 0
  rwa [Nat.zero_mul, Nat.zero_add] at h

private theorem foldl_lt : ∀ n, bs.foldl (fun n b => 256 * n + b.toNat) n < (n + 1) * 256 ^ bs.length := by
  induction bs with
  | nil => intro n; simp
  | cons b bs ih =>
    intro n
    have hbyte := b.toNat_lt
    calc bs.foldl (fun n b => 256 * n + b.toNat) (256 * n + b.toNat)
        < (256 * n + b.toNat + 1) * 256 ^ bs.length := ih _
      _ ≤ ((n + 1) * 256) * 256 ^ bs.length := Nat.mul_le_mul_right _ (by omega)
      _ = (n + 1) * 256 ^ (b :: bs).length := by rw [List.length_cons, pow_succ', Nat.mul_assoc]

theorem beNat_lt : beNat bs < 256 ^ bs.length := by
  simpa [beNat] using foldl_lt bs 0

private theorem foldl_injective {bs : Bytes} : ∀ {cs : Bytes} {n m : Nat}, bs.length = cs.length →
    bs.foldl (fun n b => 256 * n + b.toNat) n = cs.foldl (fun n b => 256 * n + b.toNat) m →
      n = m ∧ bs = cs := by
  induction bs with
  | nil =>
    intro cs n m hlength h
    obtain rfl := List.length_eq_zero_iff.mp hlength.symm
    exact ⟨h, rfl⟩
  | cons b bs ih =>
    intro cs n m hlength h
    cases cs with
    | nil => cases hlength
    | cons c cs =>
      obtain ⟨hhead, rfl⟩ := ih (Nat.succ.inj hlength) h
      dsimp only at hhead
      have hb := b.toNat_lt
      have hc := c.toNat_lt
      obtain rfl : b = c := UInt8.toNat_inj.mp (by omega)
      exact ⟨by omega, rfl⟩

/-- A big-endian word is written back as it was read. -/
theorem beBytes_beNat : beBytes bs.length (beNat bs) = bs := by
  have hvalue : beNat (beBytes bs.length (beNat bs)) = beNat bs := by
    rw [beNat_beBytes, Nat.mod_eq_of_lt (beNat_lt bs)]
  exact (foldl_injective (length_beBytes _ _) hvalue).2

/-- A signed number that fits `w` bits is read back from its word. -/
theorem toSigned_ofSigned {w : Nat} (hw : 0 < w) (hlow : -2 ^ (w - 1) ≤ i)
    (hhigh : i < 2 ^ (w - 1)) : toSigned w (ofSigned w i) = i := by
  obtain ⟨k, rfl⟩ : ∃ k, w = k + 1 := ⟨w - 1, by omega⟩
  have hpow : (2 : Int) ^ (k + 1) = 2 ^ k + 2 ^ k := by ring
  have hcast : ((2 ^ k : Nat) : Int) = 2 ^ k := by norm_cast
  simp only [Nat.add_sub_cancel] at hlow hhigh
  unfold toSigned ofSigned
  simp only [Nat.add_sub_cancel]
  rw [hpow]
  generalize (2 : Int) ^ k = p at *
  generalize 2 ^ k = q at *
  subst hcast
  by_cases hi : 0 ≤ i
  · rw [Int.emod_eq_of_lt hi (by omega), if_pos (by omega)]
    omega
  · have hmod : i % ((q : Int) + q) = i + (q + q) := by
      rw [← Int.add_emod_right, Int.emod_eq_of_lt (by omega) (by omega)]
    rw [hmod, if_neg (by omega)]
    omega

theorem ofSigned_lt (w : Nat) (i : Int) : ofSigned w i < 2 ^ w := by
  have hpos : (0 : Int) < 2 ^ w := Int.pow_pos (by decide)
  have hlt := Int.emod_lt_of_pos i hpos
  have hcast : ((2 ^ w : Nat) : Int) = 2 ^ w := by norm_cast
  unfold ofSigned
  omega

theorem asUsize_of_nonneg (h : 0 ≤ i) (hi : i < 2 ^ 31) : asUsize i = i.toNat := by
  unfold asUsize ofSigned
  rw [Int.emod_eq_of_lt h (by omega)]

theorem asUsize_of_neg (h : i < 0) (hi : -2 ^ 32 ≤ i) : asUsize i = (i + 2 ^ 64).toNat := by
  unfold asUsize ofSigned
  rw [← Int.add_emod_right, Int.emod_eq_of_lt (by omega) (by omega)]

/-! ## Cursor reads -/

abbrev Cursor := StateT Bytes Option

def getU8 : Cursor UInt8 := fun bs =>
  match bs with
  | [] => none
  | b :: rest => some (b, rest)

/-- Read a signed big-endian integer of `k` bytes. -/
def getSigned (k : Nat) : Cursor Int := fun bs =>
  if k ≤ bs.length then
    some (toSigned (8 * k) (beNat (bs.take k)), bs.drop k)
  else
    none

def getI16 : Cursor Int := getSigned 2
def getI32 : Cursor Int := getSigned 4
def getI64 : Cursor Int := getSigned 8

theorem getSigned_eq_some {k : Nat} {bs rest : Bytes} {v : Int} :
    getSigned k bs = some (v, rest) ↔
      ∃ word, word.length = k ∧ bs = word ++ rest ∧ v = toSigned (8 * k) (beNat word) := by
  unfold getSigned
  constructor
  · intro h
    split at h
    · rename_i hlength
      cases h
      exact ⟨bs.take k, List.length_take_of_le hlength, (List.take_append_drop k bs).symm, rfl⟩
    · cases h
  · rintro ⟨word, rfl, rfl, rfl⟩
    rw [if_pos (by simp), List.take_left, List.drop_left]

/-- A signed integer in front of the cursor is read, and no more. -/
theorem getSigned_append {k : Nat} {i : Int} (hk : 0 < k) (hlow : -2 ^ (8 * k - 1) ≤ i)
    (hhigh : i < 2 ^ (8 * k - 1)) (rest : Bytes) :
    getSigned k (beBytes k (ofSigned (8 * k) i) ++ rest) = some (i, rest) := by
  have hlt : ofSigned (8 * k) i < 256 ^ k := by
    calc ofSigned (8 * k) i < 2 ^ (8 * k) := ofSigned_lt _ _
      _ = 256 ^ k := Nat.pow_mul 2 8 k
  have hlen : k ≤ (beBytes k (ofSigned (8 * k) i) ++ rest).length := by simp
  have htake : (beBytes k (ofSigned (8 * k) i) ++ rest).take k = beBytes k (ofSigned (8 * k) i) := by
    simp
  have hdrop : (beBytes k (ofSigned (8 * k) i) ++ rest).drop k = rest := by
    simp
  rw [getSigned, if_pos hlen, htake, hdrop, beNat_beBytes, Nat.mod_eq_of_lt hlt,
    toSigned_ofSigned (by omega) hlow hhigh]

/-! ## Text -/

def utf8 (s : String) : Bytes :=
  s.toList.flatMap String.utf8EncodeChar

theorem utf8_append (s t : String) : utf8 (s ++ t) = utf8 s ++ utf8 t := by
  simp [utf8]

theorem length_le_utf8 (s : String) : s.toList.length ≤ (utf8 s).length := by
  unfold utf8
  induction s.toList with
  | nil => exact le_rfl
  | cons c cs ih =>
    have hpositive := List.length_pos_iff.mpr (String.utf8EncodeChar_ne_nil (c := c))
    simp only [List.flatMap_cons, List.length_append, List.length_cons]
    omega

theorem zero_notMem_utf8EncodeChar {c : Char} (hc : c ≠ Char.ofNat 0) : (0 : UInt8) ∉ String.utf8EncodeChar c := by
  intro hmem
  have hzero : ∀ n : Nat, (0 : UInt8) = UInt8.ofNat n → n % 256 = 0 := by
    intro n hn
    have h := congrArg UInt8.toNat hn
    simpa using h.symm
  have hnat : c.val.toNat ≠ 0 := by
    intro h
    apply hc
    rw [← Char.ofNat_toNat c]
    exact congrArg Char.ofNat h
  have hvalid : c.val.toNat < 0xD800 ∨ 0xDFFF < c.val.toNat ∧ c.val.toNat < 0x110000 := c.valid
  rw [String.utf8EncodeChar.eq_1] at hmem
  generalize c.val.toNat = v at hmem hnat hvalid
  split at hmem
  · have := hzero v (by simpa using hmem)
    omega
  split at hmem
  · simp only [List.mem_cons, List.not_mem_nil, or_false] at hmem
    rcases hmem with h | h
    all_goals
      have := hzero _ h
      omega
  split at hmem
  · simp only [List.mem_cons, List.not_mem_nil, or_false] at hmem
    rcases hmem with h | h | h
    all_goals
      have := hzero _ h
      omega
  · simp only [List.mem_cons, List.not_mem_nil, or_false] at hmem
    rcases hmem with h | h | h | h
    all_goals
      have := hzero _ h
      omega

theorem zero_notMem_utf8 {s : String} (h : ∀ c ∈ s.toList, c ≠ Char.ofNat 0) : 0 ∉ utf8 s := by
  intro hmem
  obtain ⟨c, hc, hzero⟩ := List.mem_flatMap.mp hmem
  exact zero_notMem_utf8EncodeChar (h c hc) hzero

theorem utf8EncodeChar_of_ascii {c : Char} (h : c.toNat < 128) :
    String.utf8EncodeChar c = [UInt8.ofNat c.toNat] := by
  rw [String.utf8EncodeChar.eq_1, if_pos (show c.val.toNat ≤ 127 from Nat.le_of_lt_succ h)]
  rfl

theorem length_utf8_of_ascii {s : String} (h : ∀ c ∈ s.toList, c.toNat < 128) :
    (utf8 s).length = s.toList.length := by
  unfold utf8
  revert h
  induction s.toList with
  | nil =>
    intro _
    rfl
  | cons c cs ih =>
    intro h
    rw [List.forall_mem_cons] at h
    rw [List.flatMap_cons, utf8EncodeChar_of_ascii h.1, List.length_append, ih h.2, List.length_singleton,
      List.length_cons, Nat.add_comm]

def replacement : Char := Char.ofNat 0xFFFD

private def isCont (b : UInt8) : Bool :=
  0x80 ≤ b && b ≤ 0xBF

/-- Second bytes that may follow the lead byte `b0` of a three- or four-byte sequence. -/
private def secondOk (b0 b1 : UInt8) : Bool :=
  if b0 = 0xE0 then 0xA0 ≤ b1 && b1 ≤ 0xBF
  else if b0 = 0xED then 0x80 ≤ b1 && b1 ≤ 0x9F
  else if b0 = 0xF0 then 0x90 ≤ b1 && b1 ≤ 0xBF
  else if b0 = 0xF4 then 0x80 ≤ b1 && b1 ≤ 0x8F
  else isCont b1

private def low6 (b : UInt8) : Nat := b.toNat % 64

/-- Decode the character that starts at `b0`, with the number of bytes it takes. -/
def lossyHead (b0 : UInt8) (rest : Bytes) : Char × Nat :=
  if b0 < 0x80 then
    (Char.ofNat b0.toNat, 1)
  else if 0xC2 ≤ b0 && b0 ≤ 0xDF then
    match rest with
    | b1 :: _ => if isCont b1 then (Char.ofNat (b0.toNat % 32 * 64 + low6 b1), 2) else (replacement, 1)
    | [] => (replacement, 1)
  else if 0xE0 ≤ b0 && b0 ≤ 0xEF then
    match rest with
    | b1 :: b2 :: _ =>
      if secondOk b0 b1 then
        if isCont b2 then
          (Char.ofNat (b0.toNat % 16 * 4096 + low6 b1 * 64 + low6 b2), 3)
        else (replacement, 2)
      else (replacement, 1)
    | [b1] => (replacement, if secondOk b0 b1 then 2 else 1)
    | [] => (replacement, 1)
  else if 0xF0 ≤ b0 && b0 ≤ 0xF4 then
    match rest with
    | b1 :: b2 :: b3 :: _ =>
      if secondOk b0 b1 then
        if isCont b2 then
          if isCont b3 then
            (Char.ofNat (b0.toNat % 8 * 262144 + low6 b1 * 4096 + low6 b2 * 64 + low6 b3), 4)
          else (replacement, 3)
        else (replacement, 2)
      else (replacement, 1)
    | [b1, b2] =>
      (replacement, if secondOk b0 b1 then (if isCont b2 then 3 else 2) else 1)
    | [b1] => (replacement, if secondOk b0 b1 then 2 else 1)
    | [] => (replacement, 1)
  else
    (replacement, 1)

private def lossyChars : Nat → Bytes → List Char
  | 0, _ => []
  | _, [] => []
  | n + 1, b0 :: rest =>
    let (c, k) := lossyHead b0 rest
    c :: lossyChars n ((b0 :: rest).drop k)

/-- `String::from_utf8_lossy`. -/
def fromUtf8Lossy (bs : Bytes) : String :=
  String.ofList (lossyChars bs.length bs)

section RoundTrip

/-! Well-formed text is read back as it was written. -/

private theorem isCont_iff {b : UInt8} : isCont b = true ↔ 128 ≤ b.toNat ∧ b.toNat ≤ 191 := by
  simp [isCont, UInt8.le_iff_toNat_le]

private theorem secondOk_of {b0 b1 : UInt8} (hcont : isCont b1 = true)
    (hE0 : b0.toNat = 0xE0 → 0xA0 ≤ b1.toNat) (hED : b0.toNat = 0xED → b1.toNat ≤ 0x9F)
    (hF0 : b0.toNat = 0xF0 → 0x90 ≤ b1.toNat) (hF4 : b0.toNat = 0xF4 → b1.toNat ≤ 0x8F) :
    secondOk b0 b1 = true := by
  obtain ⟨hlow, hhigh⟩ := isCont_iff.mp hcont
  simp only [secondOk, ← UInt8.toNat_inj, UInt8.reduceToNat]
  split
  · simp [UInt8.le_iff_toNat_le, hE0 (by assumption), hhigh]
  split
  · simp [UInt8.le_iff_toNat_le, hED (by assumption), hlow]
  split
  · simp [UInt8.le_iff_toNat_le, hF0 (by assumption), hhigh]
  split
  · simp [UInt8.le_iff_toNat_le, hF4 (by assumption), hlow]
  · exact hcont

private theorem not_ascii {b : UInt8} (h : 0x80 ≤ b.toNat) : ¬ b < 0x80 := by
  rw [UInt8.lt_iff_toNat_lt]
  exact Nat.not_lt.mpr h

private theorem within_iff {lo hi b : UInt8} :
    (lo ≤ b && b ≤ hi) = true ↔ lo.toNat ≤ b.toNat ∧ b.toNat ≤ hi.toNat := by
  simp [UInt8.le_iff_toNat_le]

private theorem not_within {lo hi b : UInt8} (h : hi.toNat < b.toNat) : ¬ (lo ≤ b && b ≤ hi) = true :=
  fun hwithin => absurd (within_iff.mp hwithin).2 (Nat.not_le.mpr h)

private theorem lossyHead_two {b0 b1 : UInt8} (h0 : 0xC2 ≤ b0.toNat ∧ b0.toNat ≤ 0xDF)
    (h1 : isCont b1 = true) (rest : Bytes) :
    lossyHead b0 (b1 :: rest) = (Char.ofNat (b0.toNat % 32 * 64 + low6 b1), 2) := by
  have hascii : ¬ b0 < 0x80 := not_ascii (le_trans (by decide) h0.1)
  have hlead : (0xC2 ≤ b0 && b0 ≤ 0xDF) = true := within_iff.mpr h0
  simp [lossyHead, hascii, hlead, h1]

private theorem lossyHead_three {b0 b1 b2 : UInt8} (h0 : 0xE0 ≤ b0.toNat ∧ b0.toNat ≤ 0xEF)
    (h1 : secondOk b0 b1 = true) (h2 : isCont b2 = true) (rest : Bytes) :
    lossyHead b0 (b1 :: b2 :: rest) =
      (Char.ofNat (b0.toNat % 16 * 4096 + low6 b1 * 64 + low6 b2), 3) := by
  have hascii : ¬ b0 < 0x80 := not_ascii (le_trans (by decide) h0.1)
  have htwo : ¬ (0xC2 ≤ b0 && b0 ≤ 0xDF) = true := not_within (lt_of_lt_of_le (by decide) h0.1)
  have hlead : (0xE0 ≤ b0 && b0 ≤ 0xEF) = true := within_iff.mpr h0
  unfold lossyHead
  rw [if_neg hascii, if_neg htwo, if_pos hlead]
  simp [h1, h2]

private theorem lossyHead_four {b0 b1 b2 b3 : UInt8} (h0 : 0xF0 ≤ b0.toNat ∧ b0.toNat ≤ 0xF4)
    (h1 : secondOk b0 b1 = true) (h2 : isCont b2 = true) (h3 : isCont b3 = true) (rest : Bytes) :
    lossyHead b0 (b1 :: b2 :: b3 :: rest) =
      (Char.ofNat (b0.toNat % 8 * 262144 + low6 b1 * 4096 + low6 b2 * 64 + low6 b3), 4) := by
  have hascii : ¬ b0 < 0x80 := not_ascii (le_trans (by decide) h0.1)
  have htwo : ¬ (0xC2 ≤ b0 && b0 ≤ 0xDF) = true := not_within (lt_of_lt_of_le (by decide) h0.1)
  have hthree : ¬ (0xE0 ≤ b0 && b0 ≤ 0xEF) = true := not_within (lt_of_lt_of_le (by decide) h0.1)
  have hlead : (0xF0 ≤ b0 && b0 ≤ 0xF4) = true := within_iff.mpr h0
  unfold lossyHead
  rw [if_neg hascii, if_neg htwo, if_neg hthree, if_pos hlead]
  simp [h1, h2, h3]

private theorem toNat_ofNat_byte {n : Nat} (h : n < 256) : (UInt8.ofNat n).toNat = n :=
  UInt8.toNat_ofNat_of_lt' h

private theorem isCont_ofNat {n : Nat} (h : n < 64) : isCont (UInt8.ofNat (n + 128)) = true := by
  rw [isCont_iff, toNat_ofNat_byte (by omega)]
  omega

private theorem low6_ofNat {n : Nat} (h : n < 64) : low6 (UInt8.ofNat (n + 128)) = n := by
  rw [low6, toNat_ofNat_byte (by omega)]
  omega

private theorem lossyHead_utf8EncodeChar (c : Char) (rest : Bytes) :
    ∃ b0 tail, String.utf8EncodeChar c = b0 :: tail ∧
      lossyHead b0 (tail ++ rest) = (c, (b0 :: tail).length) := by
  have hvalid : c.val.toNat < 0xD800 ∨ 0xDFFF < c.val.toNat ∧ c.val.toNat < 0x110000 := c.valid
  have hc : Char.ofNat c.val.toNat = c := Char.ofNat_toNat c
  rw [String.utf8EncodeChar.eq_1]
  -- The encoder branches on the value, and each branch meets the branch of the decoder for its first byte.
  generalize c.val.toNat = v at hvalid hc
  split
  · have hv : (UInt8.ofNat v).toNat = v := toNat_ofNat_byte (by omega)
    have hascii : UInt8.ofNat v < 0x80 := by
      rw [UInt8.lt_iff_toNat_lt, hv]
      exact Nat.lt_succ_of_le (by assumption)
    refine ⟨_, _, rfl, ?_⟩
    unfold lossyHead
    rw [if_pos hascii, hv, hc]
    rfl
  split
  · have h0 : (UInt8.ofNat (v / 64 % 32 + 192)).toNat = v / 64 % 32 + 192 :=
      toNat_ofNat_byte (by omega)
    refine ⟨_, _, rfl, ?_⟩
    rw [List.cons_append, lossyHead_two (by omega) (isCont_ofNat (by omega)), h0,
      low6_ofNat (by omega), show (v / 64 % 32 + 192) % 32 * 64 + v % 64 = v by omega, hc]
    rfl
  split
  · have h0 : (UInt8.ofNat (v / 4096 % 16 + 224)).toNat = v / 4096 % 16 + 224 :=
      toNat_ofNat_byte (by omega)
    have h1 : (UInt8.ofNat (v / 64 % 64 + 128)).toNat = v / 64 % 64 + 128 :=
      toNat_ofNat_byte (by omega)
    refine ⟨_, _, rfl, ?_⟩
    rw [List.cons_append, List.cons_append,
      lossyHead_three (by omega) (secondOk_of (isCont_ofNat (by omega)) (by omega) (by omega)
        (by omega) (by omega)) (isCont_ofNat (by omega)), h0, low6_ofNat (by omega),
      low6_ofNat (by omega),
      show (v / 4096 % 16 + 224) % 16 * 4096 + v / 64 % 64 * 64 + v % 64 = v by omega, hc]
    rfl
  · have h0 : (UInt8.ofNat (v / 262144 % 8 + 240)).toNat = v / 262144 % 8 + 240 :=
      toNat_ofNat_byte (by omega)
    have h1 : (UInt8.ofNat (v / 4096 % 64 + 128)).toNat = v / 4096 % 64 + 128 :=
      toNat_ofNat_byte (by omega)
    refine ⟨_, _, rfl, ?_⟩
    rw [List.cons_append, List.cons_append, List.cons_append,
      lossyHead_four (by omega) (secondOk_of (isCont_ofNat (by omega)) (by omega) (by omega)
        (by omega) (by omega)) (isCont_ofNat (by omega)) (isCont_ofNat (by omega)), h0,
      low6_ofNat (by omega), low6_ofNat (by omega), low6_ofNat (by omega),
      show (v / 262144 % 8 + 240) % 8 * 262144 + v / 4096 % 64 * 4096 + v / 64 % 64 * 64 + v % 64 = v
        by omega, hc]
    rfl

private theorem lossyChars_flatMap : ∀ (cs : List Char) (n : Nat),
    (cs.flatMap String.utf8EncodeChar).length ≤ n →
      lossyChars n (cs.flatMap String.utf8EncodeChar) = cs := by
  intro cs
  induction cs with
  | nil =>
    intro n _
    cases n with
    | zero => rfl
    | succ n => rfl
  | cons c cs ih =>
    intro n hn
    obtain ⟨b0, tail, hbytes, hhead⟩ := lossyHead_utf8EncodeChar c (cs.flatMap String.utf8EncodeChar)
    rw [List.flatMap_cons, hbytes] at hn ⊢
    rw [List.cons_append] at hn ⊢
    cases n with
    | zero => simp at hn
    | succ n =>
      have hdrop : (b0 :: (tail ++ cs.flatMap String.utf8EncodeChar)).drop (b0 :: tail).length =
          cs.flatMap String.utf8EncodeChar := by
        rw [← List.cons_append, List.drop_left]
      simp only [lossyChars, hhead, hdrop]
      rw [ih n]
      simp only [List.length_cons, List.length_append] at hn
      omega

@[simp] theorem fromUtf8Lossy_utf8 (s : String) : fromUtf8Lossy (utf8 s) = s := by
  unfold fromUtf8Lossy utf8
  rw [lossyChars_flatMap _ _ le_rfl, String.ofList_toList]

end RoundTrip

section Decoding

/-! What a decoded text says about the bytes it was read from. -/

variable (b0 : UInt8) (rest : Bytes) {bs : Bytes} {c : Char} {cs : List Char}

private theorem lossyHead_pos : 1 ≤ (lossyHead b0 rest).2 := by
  unfold lossyHead
  repeat' split
  all_goals simp

private theorem length_drop_lossyHead : ((b0 :: rest).drop (lossyHead b0 rest).2).length ≤ rest.length := by
  have hpos := lossyHead_pos b0 rest
  rw [List.length_drop, List.length_cons]
  omega

private theorem lossyChars_fuel : ∀ {n m : Nat} {bs : Bytes}, bs.length ≤ n → bs.length ≤ m →
    lossyChars n bs = lossyChars m bs := by
  intro n
  induction n with
  | zero =>
    intro m bs hn _
    obtain rfl : bs = [] := List.length_eq_zero_iff.mp (Nat.le_zero.mp hn)
    cases m <;> rfl
  | succ n ih =>
    intro m bs hn hm
    cases bs with
    | nil => cases m <;> rfl
    | cons b0 rest =>
      cases m with
      | zero => simp at hm
      | succ m =>
        have hlen := length_drop_lossyHead b0 rest
        simp only [List.length_cons] at hn hm
        simp only [lossyChars]
        rw [ih (by omega) (by omega : _ ≤ m)]

theorem fromUtf8Lossy_cons : (fromUtf8Lossy (b0 :: rest)).toList =
      (lossyHead b0 rest).1 :: (fromUtf8Lossy ((b0 :: rest).drop (lossyHead b0 rest).2)).toList := by
  simp only [fromUtf8Lossy, String.toList_ofList, List.length_cons, lossyChars]
  rw [lossyChars_fuel (length_drop_lossyHead b0 rest) le_rfl]

theorem fromUtf8Lossy_nil : (fromUtf8Lossy []).toList = [] :=
  String.toList_ofList

theorem length_fromUtf8Lossy_le (bs : Bytes) : (fromUtf8Lossy bs).toList.length ≤ bs.length := by
  have hchars : ∀ n bs, (lossyChars n bs).length ≤ n := by
    intro n
    induction n with
    | zero =>
      intro bs
      exact le_rfl
    | succ n ih =>
      intro bs
      cases bs with
      | nil => exact Nat.zero_le _
      | cons b0 rest => exact Nat.succ_le_succ (ih _)
  rw [fromUtf8Lossy, String.toList_ofList]
  exact hchars _ _

private theorem toNat_ofNat_cases (n : Nat) : (Char.ofNat n).toNat = n ∨ (Char.ofNat n).toNat = 0 := by
  by_cases h : n.isValidChar
  · have hvalid : Char.ofNat n = Char.ofNatAux n h := dif_pos h
    exact .inl (congrArg Char.toNat hvalid)
  · have hinvalid : Char.ofNat n = Char.ofNat 0 := dif_neg h
    exact .inr (congrArg Char.toNat hinvalid)

private theorem le_of_secondOk_three {b0 b1 b2 : UInt8} (h0 : 0xE0 ≤ b0.toNat ∧ b0.toNat ≤ 0xEF)
    (h : secondOk b0 b1 = true) : 2048 ≤ b0.toNat % 16 * 4096 + low6 b1 * 64 + low6 b2 := by
  unfold secondOk at h
  split at h
  · rename_i hb0
    simp only [within_iff, UInt8.reduceToNat] at h
    unfold low6
    omega
  · rename_i hb0
    have hne : b0.toNat ≠ 0xE0 := fun heq => hb0 (UInt8.toNat_inj.mp heq)
    omega

private theorem le_of_secondOk_four {b0 b1 b2 b3 : UInt8} (h0 : 0xF0 ≤ b0.toNat ∧ b0.toNat ≤ 0xF4)
    (h : secondOk b0 b1 = true) :
    2048 ≤ b0.toNat % 8 * 262144 + low6 b1 * 4096 + low6 b2 * 64 + low6 b3 := by
  by_cases hb0 : b0 = 0xF0
  · subst hb0
    have hb1 : 0x90 ≤ b1.toNat ∧ b1.toNat ≤ 0xBF := by
      simpa [secondOk, UInt8.le_iff_toNat_le] using h
    unfold low6
    omega
  · have hne : b0.toNat ≠ 0xF0 := fun heq => hb0 (UInt8.toNat_inj.mp heq)
    omega

/-- A character is read from one byte or from two, is a replacement, or lies beyond both. -/
private theorem lossyHead_cases : (b0.toNat < 128 ∧ lossyHead b0 rest = (Char.ofNat b0.toNat, 1)) ∨
    (∃ b1 tail, rest = b1 :: tail ∧ isCont b1 = true ∧ (0xC2 ≤ b0.toNat ∧ b0.toNat ≤ 0xDF) ∧
      lossyHead b0 rest = (Char.ofNat (b0.toNat % 32 * 64 + low6 b1), 2)) ∨
    (lossyHead b0 rest).1 = replacement ∨
    ∃ n, 2048 ≤ n ∧ (lossyHead b0 rest).1 = Char.ofNat n := by
  -- The splits are those of the decoder: sequences of one, two, three and four bytes.
  unfold lossyHead
  split
  · rename_i h
    exact .inl ⟨UInt8.lt_iff_toNat_lt.mp h, rfl⟩
  split
  · rename_i h
    rw [within_iff] at h
    split
    · split
      · rename_i b1 tail hcont
        exact .inr (.inl ⟨b1, tail, rfl, hcont, h, rfl⟩)
      · exact .inr (.inr (.inl rfl))
    · exact .inr (.inr (.inl rfl))
  split
  · rename_i h
    rw [within_iff] at h
    split
    · split
      · rename_i hsecond
        split
        · exact .inr (.inr (.inr ⟨_, le_of_secondOk_three h hsecond, rfl⟩))
        · exact .inr (.inr (.inl rfl))
      · exact .inr (.inr (.inl rfl))
    · exact .inr (.inr (.inl rfl))
    · exact .inr (.inr (.inl rfl))
  split
  · rename_i h
    rw [within_iff] at h
    split
    · split
      · rename_i hsecond
        split
        · split
          · exact .inr (.inr (.inr ⟨_, le_of_secondOk_four h hsecond, rfl⟩))
          · exact .inr (.inr (.inl rfl))
        · exact .inr (.inr (.inl rfl))
      · exact .inr (.inr (.inl rfl))
    · exact .inr (.inr (.inl rfl))
    · exact .inr (.inr (.inl rfl))
    · exact .inr (.inr (.inl rfl))
  · exact .inr (.inr (.inl rfl))

theorem fromUtf8Lossy_continuation {b : UInt8} (h : 0x80 ≤ b.toNat ∧ b.toNat ≤ 0xBF) (rest : Bytes) :
    (fromUtf8Lossy (b :: rest)).toList = replacement :: (fromUtf8Lossy rest).toList := by
  have hhead : lossyHead b rest = (replacement, 1) := by
    unfold lossyHead
    rw [if_neg, if_neg, if_neg, if_neg]
    all_goals
      simp only [Bool.and_eq_true, decide_eq_true_eq, UInt8.le_iff_toNat_le, UInt8.lt_iff_toNat_lt,
        UInt8.reduceToNat]
      omega
  rw [fromUtf8Lossy_cons, hhead]
  rfl

/-- The first character below 2048 was read from one byte or from two. -/
private theorem bytes_of_small (hc : 0 < c.toNat ∧ c.toNat < 2048) (h : (fromUtf8Lossy bs).toList = c :: cs) :
    (∃ b0 rest, bs = b0 :: rest ∧ b0.toNat = c.toNat ∧ c.toNat < 128 ∧
      (fromUtf8Lossy rest).toList = cs) ∨
    ∃ b0 b1 rest, bs = b0 :: b1 :: rest ∧ (0x80 ≤ b1.toNat ∧ b1.toNat ≤ 0xBF) ∧ 128 ≤ c.toNat ∧
      (fromUtf8Lossy rest).toList = cs := by
  cases bs with
  | nil =>
    rw [fromUtf8Lossy_nil] at h
    cases h
  | cons b0 rest =>
    rw [fromUtf8Lossy_cons] at h
    obtain ⟨hhead, htail⟩ := List.cons.inj h
    rcases lossyHead_cases b0 rest with ⟨hb0, hcase⟩ | ⟨b1, tail, rfl, hcont, hb0, hcase⟩ | hcase | ⟨n, hn, hcase⟩
    · rw [hcase] at hhead htail
      subst hhead
      have hvalue : (Char.ofNat b0.toNat).toNat = b0.toNat :=
        (toNat_ofNat_cases _).resolve_right (Nat.ne_of_gt hc.1)
      exact .inl ⟨b0, rest, rfl, hvalue.symm, hvalue.trans_lt hb0, htail⟩
    · rw [hcase] at hhead htail
      subst hhead
      have hvalue := (toNat_ofNat_cases _).resolve_right (Nat.ne_of_gt hc.1)
      refine .inr ⟨b0, b1, tail, rfl, isCont_iff.mp hcont, ?_, htail⟩
      rw [hvalue]
      omega
    · rw [hcase] at hhead
      rw [← hhead] at hc
      exact absurd hc (by decide)
    · rw [hcase] at hhead
      rw [← hhead] at hc
      rcases toNat_ofNat_cases n with hnat | hnat <;> omega

theorem bytes_of_ascii (hc : 0 < c.toNat ∧ c.toNat < 128) (h : (fromUtf8Lossy bs).toList = c :: cs) :
    ∃ rest, bs = UInt8.ofNat c.toNat :: rest ∧ (fromUtf8Lossy rest).toList = cs := by
  rcases bytes_of_small ⟨hc.1, by omega⟩ h with ⟨b0, rest, rfl, hb0, -, hrest⟩ | ⟨b0, b1, rest, -, -, hlow, -⟩
  · refine ⟨rest, ?_, hrest⟩
    rw [← hb0, UInt8.ofNat_toNat]
  · omega

/-- A text of ASCII characters has no other encoding than its own, not even an ill-formed one. -/
theorem utf8_of_ascii_text (hcs : ∀ c ∈ cs, 0 < c.toNat ∧ c.toNat < 128) :
    ∀ {bs : Bytes}, (fromUtf8Lossy bs).toList = cs → bs = utf8 (String.ofList cs) := by
  simp only [utf8, String.toList_ofList]
  induction cs with
  | nil =>
    intro bs h
    cases bs with
    | nil => rfl
    | cons b0 rest =>
      rw [fromUtf8Lossy_cons] at h
      cases h
  | cons c cs ih =>
    intro bs h
    rw [List.forall_mem_cons] at hcs
    obtain ⟨rest, rfl, hrest⟩ := bytes_of_ascii hcs.1 h
    rw [List.flatMap_cons, utf8EncodeChar_of_ascii hcs.1.2, List.singleton_append, ← ih hcs.2 hrest]

theorem bytes_of_two (hc : 128 ≤ c.toNat ∧ c.toNat < 2048) (h : (fromUtf8Lossy bs).toList = c :: cs) :
    ∃ b0 b1 rest, bs = b0 :: b1 :: rest ∧ (0x80 ≤ b1.toNat ∧ b1.toNat ≤ 0xBF) ∧
      (fromUtf8Lossy rest).toList = cs := by
  rcases bytes_of_small ⟨by omega, hc.2⟩ h with ⟨b0, rest, -, -, hlow, -⟩ | ⟨b0, b1, rest, hbs, hb1, -, hrest⟩
  · omega
  · exact ⟨b0, b1, rest, hbs, hb1, hrest⟩

end Decoding

/-! ## Integer parsing -/

private def digitVal (c : Char) : Option Nat :=
  if c.isDigit then some (c.toNat - '0'.toNat) else none

private def parseDigits (acc : Nat) : List Char → Option Nat
  | [] => some acc
  | c :: cs => (digitVal c).bind fun d => parseDigits (10 * acc + d) cs

/-- A non-empty run of decimal digits. -/
def parseNat (cs : List Char) : Option Nat :=
  if cs = [] then none else parseDigits 0 cs

/-- `str::parse` at an unsigned type with values up to `hi`. -/
def parseUnsigned (hi : Nat) (cs : List Char) : Option Nat :=
  let body := match cs with
    | '+' :: ds => ds
    | ds => ds
  (parseNat body).bind fun n => if n ≤ hi then some n else none

/-- `str::parse` at a signed type with values from `-hi - 1` to `hi`. -/
def parseSigned (hi : Nat) (cs : List Char) : Option Int :=
  match cs with
  | '-' :: ds => (parseNat ds).bind fun n => if n ≤ hi + 1 then some (-(n : Int)) else none
  | ds => (parseUnsigned hi ds).map Int.ofNat

def parseUsize (cs : List Char) : Option Nat := parseUnsigned (2 ^ 64 - 1) cs
def parseI64 (cs : List Char) : Option Int := parseSigned (2 ^ 63 - 1) cs
def parseI16 (cs : List Char) : Option Int := parseSigned (2 ^ 15 - 1) cs

private theorem isDigit_of_parseDigits : ∀ {acc n : Nat},
    parseDigits acc cs = some n → ∀ c ∈ cs, c.isDigit = true := by
  induction cs with
  | nil =>
    intro acc n _ c hc
    cases hc
  | cons d cs ih =>
    intro acc n h
    simp only [parseDigits, Option.bind_eq_some_iff] at h
    obtain ⟨k, hk, htail⟩ := h
    rw [List.forall_mem_cons]
    refine ⟨?_, ih htail⟩
    unfold digitVal at hk
    split at hk
    · assumption
    · cases hk

theorem digits_of_parseNat {n : Nat} (h : parseNat cs = some n) : cs ≠ [] ∧ ∀ c ∈ cs, c.isDigit = true := by
  unfold parseNat at h
  split at h
  · cases h
  · rename_i hne
    exact ⟨hne, isDigit_of_parseDigits h⟩

theorem parseUnsigned_of_parseNat {n : Nat} (h : parseNat cs = some n) (hi : Nat) :
    parseUnsigned hi cs = if n ≤ hi then some n else none := by
  unfold parseUnsigned
  split
  · have hplus := (digits_of_parseNat h).2 '+' List.mem_cons_self
    simp at hplus
  · simp [h]

/-- A text read at an unsigned type is read alike at a signed one, up to the range. -/
theorem parseSigned_of_parseUnsigned {n lim : Nat} (h : parseUnsigned lim cs = some n) (hi : Nat) :
    parseSigned hi cs = if n ≤ hi then some (n : Int) else none := by
  unfold parseUnsigned at h
  obtain ⟨m, hm, hle⟩ := Option.bind_eq_some_iff.mp h
  have hmn : m = n := by
    split at hle
    · exact Option.some.inj hle
    · cases hle
  subst hmn
  unfold parseSigned
  split
  · -- An unsigned number has no minus sign.
    have hminus := (digits_of_parseNat hm).2 '-' List.mem_cons_self
    simp at hminus
  · simp only [parseUnsigned, hm, Option.bind_some]
    split <;> rfl

private theorem parseDigits_of_digits (h : ∀ c ∈ cs, c.isDigit = true) :
    ∀ acc, parseDigits acc cs = some (Nat.ofDigitChars 10 cs acc) := by
  induction cs with
  | nil =>
    intro acc
    simp [parseDigits]
  | cons c cs ih =>
    intro acc
    have hc := h c List.mem_cons_self
    rw [parseDigits, digitVal, if_pos hc, Option.bind_some,
      ih (fun d hd => h d (List.mem_cons_of_mem c hd)), Nat.ofDigitChars_cons]

theorem parseNat_of_digits (hne : cs ≠ []) (h : ∀ c ∈ cs, c.isDigit = true) :
    parseNat cs = some (Nat.ofDigitChars 10 cs 0) := by
  rw [parseNat, if_neg hne, parseDigits_of_digits h]

/-- A number written in decimal is read back. -/
theorem parseNat_toDigits : parseNat (Nat.toDigits 10 n) = some n := by
  have hdigits : ∀ c ∈ Nat.toDigits 10 n, c.isDigit = true := fun c hc =>
    Nat.isDigit_of_mem_toDigits (by decide) (by decide) hc
  rw [parseNat_of_digits Nat.toDigits_ne_nil hdigits, Nat.ofDigitChars_ten_toDigits]

/-- A decimal number: digits, perhaps behind a sign. -/
def Numeral (v : Int) (cs : List Char) : Prop :=
  ∃ ds n, parseNat ds = some n ∧
    ((cs = ds ∧ v = n) ∨ (cs = '+' :: ds ∧ v = n) ∨ (cs = '-' :: ds ∧ v = -n))

theorem parseSigned_of_numeral {v : Int} (h : Numeral v cs) (hi : Nat) :
    parseSigned hi cs = if -(hi : Int) - 1 ≤ v ∧ v ≤ hi then some v else none := by
  obtain ⟨ds, n, hn, hcs⟩ := h
  have hread := parseUnsigned_of_parseNat hn n
  rw [if_pos le_rfl] at hread
  rcases hcs with ⟨rfl, rfl⟩ | ⟨rfl, rfl⟩ | ⟨rfl, rfl⟩
  · rw [parseSigned_of_parseUnsigned hread]
    grind
  · have hplus : parseUnsigned n ('+' :: ds) = some n := by
      simp [parseUnsigned, hn]
    rw [parseSigned_of_parseUnsigned hplus]
    grind
  · simp only [parseSigned, hn, Option.bind_some]
    grind

example : fromUtf8Lossy [0x61, 0xC3, 0xA9, 0xE2, 0x82, 0x62, 0xFF] =
    String.ofList ['a', 'é', replacement, 'b', replacement] := by decide

end PgCat.Lib
