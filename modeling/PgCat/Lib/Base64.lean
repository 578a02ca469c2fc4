import Mathlib.Data.List.Infix
import Mathlib.Data.Nat.Notation
import PgCat.Lib.Bytes
import PgCat.Lib.Text

/-!
# Base64 — base 64 with padding

`Base64` is what a client of the encoding may rely on; `Base64.standard` is the standard alphabet with
canonical padding, as a model of the laws.
-/

namespace PgCat.Lib

structure Base64 where
  encode : Bytes → List Char
  decode : List Char → Option Bytes
  decode_encode : ∀ bs, decode (encode bs) = some bs
  length_encode : ∀ bs, (encode bs).length = 4 * ((bs.length + 2) / 3)
  /-- Padding stands at the end only. -/
  padded : ∀ bs, ∃ body pads, encode bs = body ++ List.replicate pads '=' ∧ '=' ∉ body
  comma_free : ∀ bs, ',' ∉ encode bs
  /-- Only whole groups of four characters are decoded. -/
  aligned : ∀ text bs, decode text = some bs → text.length % 4 = 0

namespace Base64

theorem last_digit (b : Base64) {bs : Bytes} {d : Char} (hd : d ≠ '=')
    (h : [d, '='] <:+: b.encode bs) :
    ∃ body pads, b.encode bs = body ++ d :: '=' :: List.replicate pads '=' ∧ '=' ∉ body := by
  obtain ⟨body, pads, hencode, hbody⟩ := b.padded bs
  obtain ⟨pre, post, hsplit⟩ := h
  rw [hencode, List.append_assoc] at hsplit
  rcases List.append_eq_append_iff.mp hsplit with ⟨t, rfl, ht⟩ | ⟨t, rfl, ht⟩
  · -- The digit stands in the body.
    have hpre : '=' ∉ pre := fun hmem => hbody (List.mem_append_left t hmem)
    cases t with
    | nil =>
      have hmem : d ∈ List.replicate pads '=' := by
        rw [List.nil_append] at ht
        rw [← ht]
        exact List.mem_cons_self
      exact absurd (List.eq_of_mem_replicate hmem) hd
    | cons x t =>
      have hx : d = x := List.head_eq_of_cons_eq ht
      have htail : '=' :: post = t ++ List.replicate pads '=' := List.tail_eq_of_cons_eq ht
      subst hx
      cases t with
      | nil =>
        rw [List.nil_append] at htail
        cases pads with
        | zero => cases htail
        | succ pads =>
          refine ⟨pre, pads, ?_, hpre⟩
          rw [hencode, List.append_assoc]
          rfl
      | cons y t =>
        have hy : '=' = y := List.head_eq_of_cons_eq htail
        subst hy
        exact absurd (by simp) hbody
  · -- It cannot stand in the padding.
    have hmem : d ∈ List.replicate pads '=' := by
      rw [ht]
      exact List.mem_append_right t List.mem_cons_self
    exact absurd (List.eq_of_mem_replicate hmem) hd

theorem decode_deleted (b : Base64) (bs : Bytes) {d : Char} (hd : d ≠ '=') :
    b.decode (replaceChars [d, '='] [] (b.encode bs)) =
      if [d, '='] <:+: b.encode bs then none else some bs := by
  by_cases hinfix : [d, '='] <:+: b.encode bs
  · rw [if_pos hinfix]
    obtain ⟨body, pads, hencode, hbody⟩ := b.last_digit hd hinfix
    have hpads : replaceChars [d, '='] [] (List.replicate pads '=') = List.replicate pads '=' :=
      replaceChars_of_not_infix fun hpads =>
        hd (List.eq_of_mem_replicate (hpads.subset List.mem_cons_self))
    have hlength := b.length_encode bs
    rw [hencode] at hlength ⊢
    rw [replaceChars_append hbody, hpads, List.append_nil]
    simp only [List.length_append, List.length_cons, List.length_replicate] at hlength
    -- What is left is two characters short of whole groups.
    cases hdecode : b.decode (body ++ List.replicate pads '=') with
    | none => rfl
    | some bytes =>
      have haligned := b.aligned _ _ hdecode
      simp only [List.length_append, List.length_replicate] at haligned
      omega
  · rw [if_neg hinfix, replaceChars_of_not_infix hinfix, b.decode_encode]

/-! ## The standard alphabet -/

def alphabet : List Char :=
  "ABCDEFGHIJKLMNOPQRSTUVWXYZabcdefghijklmnopqrstuvwxyz0123456789+/".toList

def digit (n : Nat) : Char :=
  alphabet.getD n 'A'

def value (c : Char) : Option Nat :=
  alphabet.findIdx? fun d => d = c

private theorem digits_valued : ∀ n < 64, value (digit n) = some n ∧ digit n ≠ '=' ∧ digit n ≠ ',' := by
  decide +kernel

variable (bs : Bytes) {n : Nat}

theorem value_digit (h : n < 64) : value (digit n) = some n :=
  (digits_valued n h).1

theorem digit_ne_pad (h : n < 64) : digit n ≠ '=' :=
  (digits_valued n h).2.1

theorem digit_ne_comma (h : n < 64) : digit n ≠ ',' :=
  (digits_valued n h).2.2

/-! ## Groups of three bytes -/

/-- The four digits of a group of three bytes. -/
def group (a b c : UInt8) : List Char :=
  [digit (a.toNat / 4), digit (a.toNat % 4 * 16 + b.toNat / 16), digit (b.toNat % 16 * 4 + c.toNat / 64),
    digit (c.toNat % 64)]

def encodeStandard : Bytes → List Char
  | [] => []
  | [a] => (group a 0 0).take 2 ++ ['=', '=']
  | [a, b] => (group a b 0).take 3 ++ ['=']
  | a :: b :: c :: rest => group a b c ++ encodeStandard rest

/-- The bytes of four digits. -/
def ungroup (w x y z : Nat) : Bytes :=
  [UInt8.ofNat (w * 4 + x / 16), UInt8.ofNat (x % 16 * 16 + y / 4), UInt8.ofNat (y % 4 * 64 + z)]

/-- The last group, with its padding; the bits that stand for no byte are zero. -/
def decodeLast (w x y z : Char) : Option Bytes := do
  let i ← value w
  let j ← value x
  if z = '=' then
    if y = '=' then
      if j % 16 = 0 then some ((ungroup i j 0 0).take 1) else none
    else do
      let k ← value y
      if k % 4 = 0 then some ((ungroup i j k 0).take 2) else none
  else do
    let k ← value y
    let l ← value z
    some (ungroup i j k l)

def decodeStandard : List Char → Option Bytes
  | [] => some []
  | [w, x, y, z] => decodeLast w x y z
  | w :: x :: y :: z :: rest => do
    let i ← value w
    let j ← value x
    let k ← value y
    let l ← value z
    let bytes ← decodeStandard rest
    some (ungroup i j k l ++ bytes)
  | _ => none

example : encodeStandard (utf8 "n,,") = "biws".toList := by decide

/-! ## The laws -/

section Laws

variable (a b c : UInt8)

private theorem bounds : a.toNat / 4 < 64 ∧ a.toNat % 4 * 16 + b.toNat / 16 < 64 ∧
    b.toNat % 16 * 4 + c.toNat / 64 < 64 ∧ c.toNat % 64 < 64 := by
  have ha := a.toNat_lt
  have hb := b.toNat_lt
  have hc := c.toNat_lt
  omega

private theorem ungroup_group :
    ungroup (a.toNat / 4) (a.toNat % 4 * 16 + b.toNat / 16) (b.toNat % 16 * 4 + c.toNat / 64)
      (c.toNat % 64) = [a, b, c] := by
  have ha := a.toNat_lt
  have hb := b.toNat_lt
  have hc := c.toNat_lt
  have hfirst : a.toNat / 4 * 4 + (a.toNat % 4 * 16 + b.toNat / 16) / 16 = a.toNat := by omega
  have hsecond : (a.toNat % 4 * 16 + b.toNat / 16) % 16 * 16 + (b.toNat % 16 * 4 + c.toNat / 64) / 4 =
      b.toNat := by omega
  have hthird : (b.toNat % 16 * 4 + c.toNat / 64) % 4 * 64 + c.toNat % 64 = c.toNat := by omega
  rw [ungroup, hfirst, hsecond, hthird, UInt8.ofNat_toNat, UInt8.ofNat_toNat, UInt8.ofNat_toNat]

private theorem decodeStandard_group {rest : List Char} {bytes : Bytes}
    (h : decodeStandard rest = some bytes) :
    decodeStandard (group a b c ++ rest) = some ([a, b, c] ++ bytes) := by
  obtain ⟨hw, hx, hy, hz⟩ := bounds a b c
  cases rest with
  | nil =>
    cases h
    have hpad := digit_ne_pad hz
    simp only [group, List.append_nil, decodeStandard, decodeLast, value_digit hw, value_digit hx,
      value_digit hy, value_digit hz, hpad, if_false, some_bind]
    rw [ungroup_group]
  | cons r rest =>
    simp only [group, List.cons_append, List.nil_append, decodeStandard, value_digit hw,
      value_digit hx, value_digit hy, value_digit hz, h, some_bind]
    rw [ungroup_group]
    rfl

private theorem mem_group {x : Char} (h : x ∈ group a b c) : x ≠ '=' ∧ x ≠ ',' := by
  obtain ⟨hw, hx, hy, hz⟩ := bounds a b c
  simp only [group, List.mem_cons, List.not_mem_nil, or_false] at h
  rcases h with rfl | rfl | rfl | rfl
  · exact ⟨digit_ne_pad hw, digit_ne_comma hw⟩
  · exact ⟨digit_ne_pad hx, digit_ne_comma hx⟩
  · exact ⟨digit_ne_pad hy, digit_ne_comma hy⟩
  · exact ⟨digit_ne_pad hz, digit_ne_comma hz⟩

end Laws

theorem decodeStandard_encodeStandard : decodeStandard (encodeStandard bs) = some bs := by
  induction bs using encodeStandard.induct with
  | case1 => rfl
  | case2 a =>
    obtain ⟨hw, hx, _, _⟩ := bounds a 0 0
    have hbits : (a.toNat % 4 * 16 + (0 : UInt8).toNat / 16) % 16 = 0 := by
      simp
    have hbytes := congrArg (List.take 1) (ungroup_group a 0 0)
    have htake : (group a 0 0).take 2 = [digit (a.toNat / 4),
        digit (a.toNat % 4 * 16 + (0 : UInt8).toNat / 16)] := rfl
    simp only [encodeStandard, htake, List.cons_append, List.nil_append, decodeStandard, decodeLast,
      value_digit hw, value_digit hx, if_true, hbits, some_bind]
    exact congrArg some hbytes
  | case3 a b =>
    obtain ⟨hw, hx, hy, _⟩ := bounds a b 0
    have hpad := digit_ne_pad hy
    have hbits : (b.toNat % 16 * 4 + (0 : UInt8).toNat / 64) % 4 = 0 := by
      simp
    have hbytes := congrArg (List.take 2) (ungroup_group a b 0)
    have htake : (group a b 0).take 3 = [digit (a.toNat / 4),
        digit (a.toNat % 4 * 16 + b.toNat / 16),
        digit (b.toNat % 16 * 4 + (0 : UInt8).toNat / 64)] := rfl
    simp only [encodeStandard, htake, List.cons_append, List.nil_append, decodeStandard, decodeLast,
      value_digit hw, value_digit hx, value_digit hy, if_true, hpad, if_false, hbits,
      some_bind]
    exact congrArg some hbytes
  | case4 a b c rest ih => exact decodeStandard_group a b c ih

theorem encodeStandard_padded :
    ∃ body pads, encodeStandard bs = body ++ List.replicate pads '=' ∧
      ∀ x ∈ body, x ≠ '=' ∧ x ≠ ',' := by
  induction bs using encodeStandard.induct with
  | case1 => exact ⟨[], 0, rfl, by simp⟩
  | case2 a => exact ⟨_, 2, rfl, fun x hx => mem_group a 0 0 (List.mem_of_mem_take hx)⟩
  | case3 a b => exact ⟨_, 1, rfl, fun x hx => mem_group a b 0 (List.mem_of_mem_take hx)⟩
  | case4 a b c rest ih =>
    obtain ⟨body, pads, hrest, hbody⟩ := ih
    refine ⟨group a b c ++ body, pads, ?_, ?_⟩
    · rw [encodeStandard, hrest, List.append_assoc]
    · intro x hx
      rcases List.mem_append.mp hx with hx | hx
      · exact mem_group a b c hx
      · exact hbody x hx

theorem decodeStandard_aligned {text : List Char} :
    ∀ {bs : Bytes}, decodeStandard text = some bs → text.length % 4 = 0 := by
  induction text using decodeStandard.induct with
  | case1 => simp
  | case2 w x y z => simp
  | case3 w x y z rest _ ih =>
    intro bs h
    simp only [decodeStandard, Option.bind_eq_bind, Option.bind_eq_some_iff] at h
    obtain ⟨_, _, _, _, _, _, _, _, bytes, hbytes, _⟩ := h
    have hrest := ih hbytes
    simp only [List.length_cons]
    omega
  | case4 text hnil hlast hmore =>
    intro bs h
    match text with
    | [] => rfl
    | [_] | [_, _] | [_, _, _] => cases h
    | w :: x :: y :: z :: rest => exact (hmore w x y z rest rfl).elim

theorem length_encodeStandard : (encodeStandard bs).length = 4 * ((bs.length + 2) / 3) := by
  induction bs using encodeStandard.induct with
  | case1 => rfl
  | case2 a | case3 a b => simp [encodeStandard, group]
  | case4 a b c rest ih =>
    simp only [encodeStandard, group, List.cons_append, List.nil_append, List.length_cons, ih]
    omega

def standard : Base64 where
  encode := encodeStandard
  decode := decodeStandard
  decode_encode := decodeStandard_encodeStandard
  length_encode := length_encodeStandard
  padded := by
    intro bs
    obtain ⟨body, pads, hbs, hbody⟩ := encodeStandard_padded bs
    exact ⟨body, pads, hbs, fun hmem => (hbody _ hmem).1 rfl⟩
  comma_free := by
    intro bs hmem
    obtain ⟨body, pads, hbs, hbody⟩ := encodeStandard_padded bs
    rw [hbs] at hmem
    rcases List.mem_append.mp hmem with hmem | hmem
    · exact (hbody _ hmem).2 rfl
    · cases (List.mem_replicate.mp hmem).2
  aligned := fun _ _ => decodeStandard_aligned

/-! ## Exact decoders -/

/-- A decoder that accepts nothing but encodings, over an alphabet of ASCII characters. -/
structure Exact (b : Base64) : Prop where
  encode_decode : ∀ text bs, b.decode text = some bs → text = b.encode bs
  ascii : ∀ bs, ∀ c ∈ b.encode bs, 0 < c.toNat ∧ c.toNat < 128
  /-- The header of a client without channel binding, in any alphabet that starts like the standard one. -/
  header : b.encode (utf8 "n,,") = "biws".toList

theorem value_eq_some {c : Char} (h : value c = some n) : c = digit n ∧ n < 64 := by
  obtain ⟨hlt, hget, -⟩ := List.findIdx?_eq_some_iff_getElem.mp h
  refine ⟨?_, hlt⟩
  rw [digit, List.getD_eq_getElem?_getD, List.getElem?_eq_getElem hlt]
  exact (of_decide_eq_true hget).symm

private theorem digits_ascii : ∀ n < 64, 0 < (digit n).toNat ∧ (digit n).toNat < 128 := by
  decide +kernel

private theorem group_ungroup {i j k l : Nat} (hi : i < 64) (hj : j < 64) (hk : k < 64) (hl : l < 64) :
    group (UInt8.ofNat (i * 4 + j / 16)) (UInt8.ofNat (j % 16 * 16 + k / 4)) (UInt8.ofNat (k % 4 * 64 + l)) =
      [digit i, digit j, digit k, digit l] := by
  have hfirst : (UInt8.ofNat (i * 4 + j / 16)).toNat = i * 4 + j / 16 :=
    UInt8.toNat_ofNat_of_lt' (show i * 4 + j / 16 < 256 by omega)
  have hsecond : (UInt8.ofNat (j % 16 * 16 + k / 4)).toNat = j % 16 * 16 + k / 4 :=
    UInt8.toNat_ofNat_of_lt' (show j % 16 * 16 + k / 4 < 256 by omega)
  have hthird : (UInt8.ofNat (k % 4 * 64 + l)).toNat = k % 4 * 64 + l :=
    UInt8.toNat_ofNat_of_lt' (show k % 4 * 64 + l < 256 by omega)
  have hw : (i * 4 + j / 16) / 4 = i := by omega
  have hx : (i * 4 + j / 16) % 4 * 16 + (j % 16 * 16 + k / 4) / 16 = j := by omega
  have hy : (j % 16 * 16 + k / 4) % 16 * 4 + (k % 4 * 64 + l) / 64 = k := by omega
  have hz : (k % 4 * 64 + l) % 64 = l := by omega
  rw [group, hfirst, hsecond, hthird, hw, hx, hy, hz]

private theorem encodeStandard_last {w x y z : Char} {bs : Bytes} (h : decodeLast w x y z = some bs) :
    encodeStandard bs = [w, x, y, z] := by
  simp only [decodeLast, Option.bind_eq_bind, Option.bind_eq_some_iff] at h
  obtain ⟨i, hw, j, hx, h⟩ := h
  obtain ⟨rfl, hi⟩ := value_eq_some hw
  obtain ⟨rfl, hj⟩ := value_eq_some hx
  -- Two, one or no padding characters; the unused bits of the last digit are zero in each case.
  split at h
  · rename_i hz
    split at h
    · rename_i hy
      split at h
      · rename_i hbits
        cases h
        have hgroup := group_ungroup hi hj (show 0 < 64 by decide) (show 0 < 64 by decide)
        rw [hbits] at hgroup
        rw [hy, hz]
        exact congrArg (fun g => g.take 2 ++ ['=', '=']) hgroup
      · cases h
    · obtain ⟨k, hy, hbytes⟩ := Option.bind_eq_some_iff.mp h
      obtain ⟨rfl, hk⟩ := value_eq_some hy
      split at hbytes
      · rename_i hbits
        cases hbytes
        have hgroup := group_ungroup hi hj hk (show 0 < 64 by decide)
        rw [hbits] at hgroup
        rw [hz]
        exact congrArg (fun g => g.take 3 ++ ['=']) hgroup
      · cases hbytes
  · simp only [Option.bind_eq_some_iff] at h
    obtain ⟨k, hy, l, hz, hbytes⟩ := h
    obtain ⟨rfl, hk⟩ := value_eq_some hy
    obtain ⟨rfl, hl⟩ := value_eq_some hz
    cases hbytes
    exact group_ungroup hi hj hk hl

theorem encodeStandard_decodeStandard {text : List Char} :
    ∀ {bs : Bytes}, decodeStandard text = some bs → text = encodeStandard bs := by
  induction text using decodeStandard.induct with
  | case1 =>
    intro bs h
    cases h
    rfl
  | case2 w x y z =>
    intro bs h
    exact (encodeStandard_last h).symm
  | case3 w x y z rest _ ih =>
    intro bs h
    simp only [decodeStandard, Option.bind_eq_bind, Option.bind_eq_some_iff] at h
    obtain ⟨i, hw, j, hx, k, hy, l, hz, bytes, hbytes, hbs⟩ := h
    obtain ⟨rfl, hi⟩ := value_eq_some hw
    obtain ⟨rfl, hj⟩ := value_eq_some hx
    obtain ⟨rfl, hk⟩ := value_eq_some hy
    obtain ⟨rfl, hl⟩ := value_eq_some hz
    cases hbs
    rw [ih hbytes]
    exact congrArg (· ++ encodeStandard bytes) (group_ungroup hi hj hk hl).symm
  | case4 text hnil hlast hmore =>
    intro bs h
    match text with
    | [] => cases h; rfl
    | [_] | [_, _] | [_, _, _] => cases h
    | w :: x :: y :: z :: rest => exact (hmore w x y z rest rfl).elim

theorem encodeStandard_ascii : ∀ c ∈ encodeStandard bs, 0 < c.toNat ∧ c.toNat < 128 := by
  have hgroup : ∀ a b c : UInt8, ∀ x ∈ group a b c, 0 < x.toNat ∧ x.toNat < 128 := by
    intro a b c x hx
    obtain ⟨h₁, h₂, h₃, h₄⟩ := bounds a b c
    simp only [group, List.mem_cons, List.not_mem_nil, or_false] at hx
    rcases hx with rfl | rfl | rfl | rfl
    · exact digits_ascii _ h₁
    · exact digits_ascii _ h₂
    · exact digits_ascii _ h₃
    · exact digits_ascii _ h₄
  have hpad : ∀ {x : Char} {n : Nat}, x ∈ List.replicate n '=' → 0 < x.toNat ∧ x.toNat < 128 := by
    intro x n hx
    rw [List.eq_of_mem_replicate hx]
    decide
  induction bs using encodeStandard.induct with
  | case1 => simp [encodeStandard]
  | case2 a =>
    intro x hx
    rcases List.mem_append.mp hx with hx | hx
    · exact hgroup a 0 0 x (List.mem_of_mem_take hx)
    · exact @hpad x 2 hx
  | case3 a b =>
    intro x hx
    rcases List.mem_append.mp hx with hx | hx
    · exact hgroup a b 0 x (List.mem_of_mem_take hx)
    · exact @hpad x 1 hx
  | case4 a b c rest ih =>
    intro x hx
    rcases List.mem_append.mp hx with hx | hx
    · exact hgroup a b c x hx
    · exact ih x hx

theorem standard_exact : Exact standard where
  encode_decode := fun _ _ => encodeStandard_decodeStandard
  ascii := encodeStandard_ascii
  header := by decide

end Base64

end PgCat.Lib
