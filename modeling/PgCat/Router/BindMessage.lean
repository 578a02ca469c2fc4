import Mathlib.Data.List.Dedup
import PgCat.Router.Bind
import PgCat.Router.Selection

/-!
# BindMessage — a `Bind` on the wire and what the router reads from it

A `BindMessage` is a `Bind` in its parts, with at most one format code for all parameters or one each.
`BindMessage.integers` are the integers bound to the recorded placeholders; `bindIntegers` are those the
loop of `infer_shard_from_bind` reads.  They are the same as long as the message is `straight`: the loop
does not skip the bytes of a parameter it does not use, so whatever stands behind such bytes is read from
the wrong place.
-/

namespace PgCat.Router

open Lib Protocol Sharding

/-! ## Parameters -/

def InI64 (v : Int) : Prop := -2 ^ 63 ≤ v ∧ v < 2 ^ 63

instance (v : Int) : Decidable (InI64 v) := inferInstanceAs (Decidable (_ ∧ _))

/-- The widths of a binary integer. -/
def isWidth (n : Nat) : Bool := n == 2 || n == 4 || n == 8

/-- The integer a value stands for: decimal text, or a binary integer of two, four or eight bytes. -/
def decode (bytes : Bytes) : ParameterFormat → Option Int
  | .text => parseI64 (bytes.map Char.ofUInt8)
  | .binary => if isWidth bytes.length then some (toSigned (8 * bytes.length) (beNat bytes)) else none

def Encodes (v : Int) (bytes : Bytes) : ParameterFormat → Prop
  | .text => Numeral v (bytes.map Char.ofUInt8)
  | .binary => ∃ k, isWidth k = true ∧ (-2 ^ (8 * k - 1) ≤ v ∧ v < 2 ^ (8 * k - 1)) ∧
      bytes = beBytes k (ofSigned (8 * k) v)

variable {m : Message} {n : Nat}

theorem isWidth_iff : isWidth n = true ↔ n = 2 ∨ n = 4 ∨ n = 8 := by
  simp [isWidth, or_assoc]

theorem parseI64_of_numeral {v : Int} {cs : List Char} (h : Numeral v cs) :
    parseI64 cs = if InI64 v then some v else none := by
  unfold parseI64 InI64
  rw [parseSigned_of_numeral h]
  congr 1
  ext
  omega

theorem decode_of_encodes {v : Int} {bytes : Bytes} {format : ParameterFormat}
    (h : Encodes v bytes format) : decode bytes format = if InI64 v then some v else none := by
  cases format with
  | text => exact parseI64_of_numeral h
  | binary =>
    obtain ⟨k, hk, ⟨hlow, hhigh⟩, rfl⟩ := h
    have hin : InI64 v := by
      rcases isWidth_iff.mp hk with rfl | rfl | rfl
      all_goals exact ⟨by omega, by omega⟩
    have hpos : 0 < k := by
      rcases isWidth_iff.mp hk with rfl | rfl | rfl
      all_goals decide
    have hlt : ofSigned (8 * k) v < 256 ^ k := by
      calc ofSigned (8 * k) v < 2 ^ (8 * k) := ofSigned_lt _ _
        _ = 256 ^ k := Nat.pow_mul 2 8 k
    rw [decode, length_beBytes, if_pos hk, beNat_beBytes, Nat.mod_eq_of_lt hlt,
      toSigned_ofSigned (by omega) hlow hhigh, if_pos hin]

def parameterBytes : Option Bytes → Bytes
  | none => putI32 (-1)
  | some value => putI32 value.length ++ value

theorem getI32_putI32 {i : Int} (hlow : -2 ^ 31 ≤ i) (hhigh : i < 2 ^ 31) (rest : Bytes) :
    getI32 (putI32 i ++ rest) = some (i, rest) :=
  getSigned_append (by decide) hlow hhigh rest

theorem getI16_count (h : n < 2 ^ 16) (rest : Bytes) :
    getI16 (beBytes 2 n ++ rest) = some (toSigned 16 n, rest) := by
  have hlen : 2 ≤ (beBytes 2 n ++ rest).length := by simp
  have htake : (beBytes 2 n ++ rest).take 2 = beBytes 2 n := by
    rw [List.take_append_of_le_length (by simp), List.take_of_length_le (by simp)]
  have hdrop : (beBytes 2 n ++ rest).drop 2 = rest := by
    simp
  rw [getI16, getSigned, if_pos hlen, htake, hdrop, beNat_beBytes, Nat.mod_eq_of_lt (by omega)]

theorem toSigned_count (h : n < 2 ^ 15) : toSigned 16 n = n := by
  rw [toSigned, if_pos (by omega)]

theorem toSigned_count_neg (h : 2 ^ 15 ≤ n) (hn : n < 2 ^ 16) : toSigned 16 n < 0 := by
  rw [toSigned, if_neg (by omega)]
  omega

/-! ## Format codes -/

def ParameterFormat.code : ParameterFormat → Nat
  | .text => 0
  | .binary => 1

/-- The formats announced by a list of codes: text without one, and a single one is for all. -/
def ParameterFormats.ofCodes : List ParameterFormat → ParameterFormats
  | [] => .uniform .text
  | [f] => .uniform f
  | fs => .specified fs

def formatBytes (f : ParameterFormat) : Bytes :=
  beBytes 2 f.code

theorem readFormat_formatBytes (f : ParameterFormat) (rest : Bytes) :
    readFormat (formatBytes f ++ rest) = some (f, rest) := by
  unfold readFormat formatBytes
  cases f with
  | text | binary =>
    rw [getI16_count (by decide)]
    rfl

theorem readFormatList_append (fs : List ParameterFormat) (rest : Bytes) :
    readFormatList fs.length (fs.flatMap formatBytes ++ rest) = some (fs, rest) := by
  induction fs with
  | nil => rfl
  | cons f fs ih =>
    simp [readFormatList, List.append_assoc, readFormat_formatBytes, ih]

theorem readFormats_append {fs : List ParameterFormat} (h : fs.length < 2 ^ 15) (rest : Bytes) :
    readFormats (beBytes 2 fs.length ++ (fs.flatMap formatBytes ++ rest)) =
      some (.ofCodes fs, rest) := by
  have hcount := getI16_count (Nat.lt_trans h (by decide)) (fs.flatMap formatBytes ++ rest)
  rw [toSigned_count h] at hcount
  unfold readFormats
  rw [hcount]
  match fs with
  | [] => simp [ParameterFormats.ofCodes]
  | [f] => simp [ParameterFormats.ofCodes, readFormat_formatBytes]
  | f :: g :: fs =>
    have hlist := readFormatList_append (f :: g :: fs) rest
    -- Two codes or more: neither special count, and not negative.
    have hzero : ((f :: g :: fs).length : Int) ≠ 0 := by simp; omega
    have hone : ((f :: g :: fs).length : Int) ≠ 1 := by simp; omega
    have hneg : ¬((f :: g :: fs).length : Int) < 0 := by omega
    simp only [some_bind, if_neg hzero, if_neg hone, if_neg hneg,
      Int.toNat_natCast, hlist]
    rfl

/-! ## Messages -/

/-- A `Bind` message in its parts; `results` are the result formats, which the router never reads. -/
structure BindMessage where
  portal : Bytes
  name : Bytes
  codes : List ParameterFormat
  values : List (Option Bytes)
  results : Bytes
  portal_text : 0 ∉ portal
  name_text : 0 ∉ name
  codes_count : codes.length = 0 ∨ codes.length = 1 ∨ codes.length = values.length
  values_count : values.length < 2 ^ 16

namespace BindMessage

def formats (b : BindMessage) : ParameterFormats :=
  .ofCodes b.codes

/-- The parameters and what follows them. -/
def parameters (b : BindMessage) : Bytes :=
  b.values.flatMap parameterBytes ++ b.results

def message (b : BindMessage) : Message :=
  .ofChar 'B' (b.portal ++ 0 :: (b.name ++ 0 :: (beBytes 2 b.codes.length ++
    (b.codes.flatMap formatBytes ++ (beBytes 2 b.values.length ++ b.parameters)))))

end BindMessage

def Framed (m : Message) : Prop := m.payload.length + 4 < 2 ^ 31

instance (m : Message) : Decidable (Framed m) := inferInstanceAs (Decidable (_ < _))

theorem Framed.getI32 (h : Framed m) (rest : Bytes) :
    Lib.getI32 (putI32 (m.payload.length + 4) ++ rest) = some ((m.payload.length : Int) + 4, rest) := by
  unfold Framed at h
  exact getI32_putI32 (by omega) (by omega) rest

theorem Framed.asUsize (h : Framed m) :
    Lib.asUsize ((m.payload.length : Int) + 4) = m.payload.length + 4 := by
  unfold Framed at h
  rw [asUsize_of_nonneg (by omega) (by omega)]
  omega

theorem Framed.length_eq (h : Framed m) :
    m.bytes.length = (Lib.asUsize ((m.payload.length : Int) + 4) + 1) % 2 ^ 64 := by
  have hlt := h
  unfold Framed at hlt
  rw [h.asUsize, length_bytes]
  omega

/-! ## The integers a message binds, and those that are read -/

section Reading

variable (placeholders : List Int) (formats : ParameterFormats)

/-- Was the parameter at index `i` recorded?  Placeholders count from 1. -/
def recorded (i : Nat) : Prop := ((i : Int) + 1) ∈ placeholders

instance (i : Nat) : Decidable (recorded placeholders i) := inferInstanceAs (Decidable (_ ∈ _))

def integersFrom : Nat → List (Option Bytes) → List Int
  | _, [] => []
  | i, value :: values =>
    (if recorded placeholders i then (formats.get i).bind fun f => value.bind (decode · f)
      else none).toList ++ integersFrom (i + 1) values

def readParameter (i len : Nat) (format : ParameterFormat) : Cursor (Option Int) := fun bs =>
  if recorded placeholders i then readValue len format bs else some (none, bs)

/-- The loop over the parameters, before the integers it finds are hashed. -/
def bindIntegers : Nat → Nat → Cursor (List Int)
  | 0, _, bs => some ([], bs)
  | n + 1, i, bs => do
    let (len, bs) ← getI32 bs
    let format ← formats.get i
    let (value, bs) ← readParameter placeholders i (asUsize len) format bs
    let (vs, bs) ← bindIntegers n (i + 1) bs
    pure (value.toList ++ vs, bs)

/-- The bytes of a value the loop leaves unread: those it has no use for. -/
def unread (i : Nat) (format : ParameterFormat) (value : Bytes) : Bytes :=
  if recorded placeholders i then
    match format with
    | .text => []
    | .binary => if isWidth value.length then [] else value
  else
    value

/-- From index `i` on, nothing recorded stands behind unread bytes, and no recorded text is `NULL`. -/
def straightFrom : Nat → List (Option Bytes) → Bool
  | _, [] => true
  | i, value :: values =>
    match formats.get i, value with
    | none, _ => false
    | some .text, none => !decide (recorded placeholders i) && straightFrom (i + 1) values
    | some .binary, none => straightFrom (i + 1) values
    | some f, some bytes =>
      if unread placeholders i f bytes = [] then straightFrom (i + 1) values
      else (List.range values.length).all fun k =>
        !decide (recorded placeholders (i + 1 + k)) && (formats.get (i + 1 + k)).isSome

end Reading

section Straight

variable {placeholders : List Int} {formats : ParameterFormats}

/-- Parameters that are not recorded cost four bytes each and give nothing. -/
theorem bindIntegers_unrecorded {n : Nat} : ∀ {i : Nat} {bs : Bytes},
    (∀ k < n, ¬recorded placeholders (i + k)) → (∀ k < n, (formats.get (i + k)).isSome = true) →
    4 * n ≤ bs.length → ∃ rest, bindIntegers placeholders formats n i bs = some ([], rest) := by
  induction n with
  | zero =>
    intro i bs _ _ _
    exact ⟨bs, rfl⟩
  | succ n ih =>
    intro i bs hout hformats hlen
    obtain ⟨f, hf⟩ := Option.isSome_iff_exists.mp (hformats 0 (by omega))
    rw [Nat.add_zero] at hf
    have hhead : ¬recorded placeholders i := hout 0 (by omega)
    have hread : getI32 bs = some (toSigned 32 (beNat (bs.take 4)), bs.drop 4) := by
      rw [getI32, getSigned, if_pos (by omega)]
    have hshift : ∀ k, i + 1 + k = i + (k + 1) := fun k => by omega
    have hout' : ∀ k < n, ¬recorded placeholders (i + 1 + k) := fun k hk => by
      rw [hshift]
      exact hout (k + 1) (by omega)
    have hformats' : ∀ k < n, (formats.get (i + 1 + k)).isSome = true := fun k hk => by
      rw [hshift]
      exact hformats (k + 1) (by omega)
    obtain ⟨rest, hrest⟩ := @ih (i + 1) (bs.drop 4) hout' hformats' (by rw [List.length_drop]; omega)
    refine ⟨rest, ?_⟩
    rw [bindIntegers, hread]
    simp [hf, readParameter, hhead, hrest]

variable {values : List (Option Bytes)}

theorem integersFrom_unrecorded : ∀ {i : Nat}, (∀ k < values.length, ¬recorded placeholders (i + k)) →
      integersFrom placeholders formats i values = [] := by
  induction values with
  | nil =>
    intro i _
    rfl
  | cons value values ih =>
    intro i hout
    have hhead : ¬recorded placeholders i := hout 0 (by simp)
    have htail : integersFrom placeholders formats (i + 1) values = [] := by
      refine ih fun k hk => ?_
      have hnext := hout (k + 1) (by simpa using hk)
      rwa [show i + (k + 1) = i + 1 + k by omega] at hnext
    rw [integersFrom, htail, if_neg hhead]
    rfl

theorem mem_integersFrom {v : Int} : ∀ {i : Nat}, v ∈ integersFrom placeholders formats i values ↔
      ∃ k value f, values[k]? = some (some value) ∧ formats.get (i + k) = some f ∧
        recorded placeholders (i + k) ∧ decode value f = some v := by
  induction values with
  | nil =>
    intro i
    simp [integersFrom]
  | cons value values ih =>
    intro i
    have hshift : ∀ k, i + 1 + k = i + (k + 1) := fun k => by omega
    simp only [integersFrom, List.mem_append, ih, hshift]
    constructor
    · rintro (hhead | ⟨k, bytes, f, hvalue, hrest⟩)
      · by_cases hrec : recorded placeholders i
        · rw [if_pos hrec, Option.mem_toList] at hhead
          obtain ⟨f, hf, hdecode⟩ := Option.bind_eq_some_iff.mp hhead
          obtain ⟨bytes, rfl, hv⟩ := Option.bind_eq_some_iff.mp hdecode
          exact ⟨0, bytes, f, rfl, hf, hrec, hv⟩
        · rw [if_neg hrec] at hhead
          cases hhead
      · exact ⟨k + 1, bytes, f, hvalue, hrest⟩
    · rintro ⟨k, bytes, f, hvalue, hf, hrec, hv⟩
      cases k with
      | zero =>
        left
        simp only [List.getElem?_cons_zero, Option.some.injEq] at hvalue
        subst hvalue
        rw [Nat.add_zero] at hf hrec
        rw [if_pos hrec, Option.mem_toList]
        exact Option.bind_eq_some_iff.mpr ⟨f, hf, hv⟩
      | succ k => exact .inr ⟨k, bytes, f, hvalue, hf, hrec, hv⟩

theorem straightFrom_of_read : ∀ {i : Nat},
    (∀ k value, values[k]? = some value → ∃ bytes f, value = some bytes ∧
      formats.get (i + k) = some f ∧ unread placeholders (i + k) f bytes = []) →
        straightFrom placeholders formats i values = true := by
  induction values with
  | nil =>
    intro i _
    rfl
  | cons value values ih =>
    intro i h
    obtain ⟨bytes, f, rfl, hf, hunread⟩ := h 0 value rfl
    rw [Nat.add_zero] at hf hunread
    have htail : straightFrom placeholders formats (i + 1) values = true := by
      refine ih fun k value hvalue => ?_
      have hnext := h (k + 1) value hvalue
      rwa [show i + (k + 1) = i + 1 + k by omega] at hnext
    cases f with
    | text | binary => simp [straightFrom, hf, hunread, htail]

theorem length_parameters (values : List (Option Bytes)) (rest : Bytes) :
    4 * values.length ≤ (values.flatMap parameterBytes ++ rest).length := by
  have hword : ∀ value, 4 ≤ (parameterBytes value).length := by
    intro value
    cases value with
    | none | some bytes => simp [parameterBytes, putI32]
  induction values with
  | nil => simp
  | cons value values ih =>
    have := hword value
    simp only [List.length_append, List.flatMap_cons, List.length_cons] at ih ⊢
    omega

theorem unread_of_encodes {i : Nat} (hrec : recorded placeholders i) {v : Int} {value : Bytes}
    {f : ParameterFormat} (h : Encodes v value f) : unread placeholders i f value = [] := by
  cases f with
  | text => simp [unread, hrec]
  | binary =>
    obtain ⟨k, hk, -, rfl⟩ := h
    simp [unread, hrec, hk]

theorem readValue_append {i : Nat} (hrec : recorded placeholders i) (format : ParameterFormat)
    (value rest : Bytes) :
    readValue value.length format (value ++ rest) =
      some (decode value format, unread placeholders i format value ++ rest) := by
  cases format with
  | text =>
    have hlen : value.length ≤ (value ++ rest).length := by simp
    rw [readValue, if_pos hlen, List.take_left, List.drop_left, decode, unread, if_pos hrec]
    rfl
  | binary =>
    have hget : getSigned value.length (value ++ rest) =
        some (toSigned (8 * value.length) (beNat value), rest) := by
      rw [getSigned, if_pos (by simp), List.take_left, List.drop_left]
    rw [decode, unread, if_pos hrec]
    by_cases hwidth : isWidth value.length = true
    · simp only [hwidth, if_true]
      rcases isWidth_iff.mp hwidth with hk | hk | hk
      all_goals
        rw [hk] at hget ⊢
        simp [readValue, getI16, getI32, getI64, hget]
    · have hne : value.length ≠ 2 ∧ value.length ≠ 4 ∧ value.length ≠ 8 := by
        simpa [isWidth_iff] using hwidth
      simp [readValue, hne, hwidth]

theorem readParameter_append (i : Nat) (format : ParameterFormat) (value rest : Bytes) :
    readParameter placeholders i value.length format (value ++ rest) =
      some (if recorded placeholders i then decode value format else none,
        unread placeholders i format value ++ rest) := by
  unfold readParameter
  by_cases hrec : recorded placeholders i
  · rw [if_pos hrec, if_pos hrec, readValue_append hrec]
  · simp [unread, hrec]

/-- For `NULL` no bytes follow the length, and none are read unless it is recorded as text. -/
theorem bindIntegers_null {i n : Nat} {f : ParameterFormat} (hformat : formats.get i = some f)
    (hskip : ¬(recorded placeholders i ∧ f = .text)) (rest : Bytes) :
    bindIntegers placeholders formats (n + 1) i (parameterBytes none ++ rest) =
      bindIntegers placeholders formats n (i + 1) rest := by
  have hword := getI32_putI32 (i := -1) (by decide) (by decide) rest
  have hnull : asUsize (-1) = 2 ^ 64 - 1 := by decide
  have hread : readParameter placeholders i (asUsize (-1)) f rest = some (none, rest) := by
    by_cases hrec : recorded placeholders i
    · cases f with
      | text => exact absurd ⟨hrec, rfl⟩ hskip
      | binary => simp [readParameter, hrec, hnull, readValue]
    · simp [readParameter, hrec]
  rw [bindIntegers, parameterBytes, hword]
  simp [hformat, hread]

/-- A value stays in front of the rest as far as it is not read. -/
theorem bindIntegers_some {i n : Nat} {f : ParameterFormat} {bytes : Bytes} (hformat : formats.get i = some f)
    (hlt : bytes.length < 2 ^ 31) (rest : Bytes) :
    bindIntegers placeholders formats (n + 1) i (parameterBytes (some bytes) ++ rest) =
      (bindIntegers placeholders formats n (i + 1) (unread placeholders i f bytes ++ rest)).map fun out =>
        ((if recorded placeholders i then decode bytes f else none).toList ++ out.1, out.2) := by
  have hword := getI32_putI32 (i := bytes.length) (by omega) (by omega) (bytes ++ rest)
  have husize : asUsize (bytes.length : Int) = bytes.length := by
    rw [asUsize_of_nonneg (by omega) (by omega), Int.toNat_natCast]
  rw [bindIntegers, parameterBytes, List.append_assoc, hword]
  simp only [some_bind, hformat, husize, readParameter_append]
  cases bindIntegers placeholders formats n (i + 1) (unread placeholders i f bytes ++ rest) with
  | none => rfl
  | some out => rfl

/-- A straight message is read as it was written. -/
theorem bindIntegers_straight {values : List (Option Bytes)} : ∀ {i : Nat} {rest : Bytes},
    (∀ value ∈ values, ∀ bytes, value = some bytes → bytes.length < 2 ^ 31) →
    straightFrom placeholders formats i values = true →
      ∃ rest', bindIntegers placeholders formats values.length i
        (values.flatMap parameterBytes ++ rest) =
          some (integersFrom placeholders formats i values, rest') := by
  induction values with
  | nil =>
    intro i rest _ _
    exact ⟨rest, rfl⟩
  | cons value values ih =>
    intro i rest hsize hstraight
    rw [List.forall_mem_cons] at hsize
    obtain ⟨hvalue, hvalues⟩ := hsize
    rw [List.length_cons, List.flatMap_cons, List.append_assoc, integersFrom]
    cases hformat : formats.get i with
    | none => simp [straightFrom, hformat] at hstraight
    | some f =>
    cases value with
    | none =>
      have hparts : ¬(recorded placeholders i ∧ f = .text) ∧
          straightFrom placeholders formats (i + 1) values = true := by
        cases f with
        | text | binary => simpa [straightFrom, hformat] using hstraight
      obtain ⟨left, hleft⟩ := @ih (i + 1) rest hvalues hparts.2
      exact ⟨left, by simp [bindIntegers_null hformat hparts.1, hleft]⟩
    | some bytes =>
      rw [bindIntegers_some hformat (hvalue bytes rfl)]
      by_cases hunread : unread placeholders i f bytes = []
      · have hnext : straightFrom placeholders formats (i + 1) values = true := by
          cases f with
          | text | binary => simpa [straightFrom, hformat, hunread] using hstraight
        obtain ⟨left, hleft⟩ := @ih (i + 1) rest hvalues hnext
        rw [hunread, List.nil_append, hleft]
        exact ⟨left, rfl⟩
      · -- From here on nothing is recorded.
        have hall : ∀ k < values.length, ¬recorded placeholders (i + 1 + k) ∧
            (formats.get (i + 1 + k)).isSome = true := by
          cases f with
          | text | binary => simpa [straightFrom, hformat, hunread] using hstraight
        obtain ⟨left, hleft⟩ := @bindIntegers_unrecorded placeholders formats values.length (i + 1)
          (unread placeholders i f bytes ++ (values.flatMap parameterBytes ++ rest))
          (fun k hk => (hall k hk).1) (fun k hk => (hall k hk).2) (by
            have := length_parameters values rest
            rw [List.length_append]
            omega)
        rw [hleft, integersFrom_unrecorded fun k hk => (hall k hk).1]
        exact ⟨left, rfl⟩

end Straight

namespace BindMessage

def integers (b : BindMessage) (placeholders : List Int) : List Int :=
  integersFrom placeholders b.formats 0 b.values

/-- The counts fit `i16`, and nothing recorded stands behind unread bytes. -/
def straight (b : BindMessage) (placeholders : List Int) : Bool :=
  decide (b.values.length < 2 ^ 15) && straightFrom placeholders b.formats 0 b.values

theorem length_value_lt {b : BindMessage} (hframed : Framed b.message) :
    ∀ value ∈ b.values, ∀ bytes, value = some bytes → bytes.length < 2 ^ 31 := by
  rintro value hvalue bytes rfl
  have hparts : bytes.length ≤ (b.values.flatMap parameterBytes).length := by
    obtain ⟨before, after, hsplit⟩ := List.append_of_mem hvalue
    rw [hsplit]
    simp only [List.flatMap_append, List.flatMap_cons, List.length_append, parameterBytes]
    omega
  have hpayload : b.parameters.length ≤ b.message.payload.length := by
    simp only [message, Message.ofChar, List.length_append, List.length_cons]
    omega
  unfold Framed at hframed
  unfold parameters at hpayload
  rw [List.length_append] at hpayload
  omega

theorem bindIntegers_of_straight {b : BindMessage} (hframed : Framed b.message) {placeholders : List Int}
    (h : b.straight placeholders = true) :
    b.values.length < 2 ^ 15 ∧ ∃ rest, bindIntegers placeholders b.formats b.values.length 0 b.parameters =
      some (b.integers placeholders, rest) := by
  simp only [straight, Bool.and_eq_true, decide_eq_true_eq] at h
  exact ⟨h.1, bindIntegers_straight (length_value_lt hframed) h.2⟩

end BindMessage

/-! ## The shard of a message -/

namespace QueryRouter

/-- The shard all the values hash to, if there is a value. -/
def commonShard (ext : Externals) (r : QueryRouter) (vs : List Int) : Option Nat :=
  onlyShard (vs.filterMap (r.sharder.shard ext.sha1Digest)).dedup

/-- The router after a `Bind` whose values lead to the given shard. -/
def bound (r : QueryRouter) : Option Nat → QueryRouter × Bool
  | some s => ({ r with placeholders := [] }.setShard s, true)
  | none => ({ r with placeholders := [] }, false)

variable (ext : Externals) {b : BindMessage} {r : QueryRouter} {vs : List Int}

theorem onlyShard_eq_commonShard (r : QueryRouter) {shards : List Nat} (hnodup : shards.Nodup)
    (hmem : ∀ s, s ∈ shards ↔ ∃ v ∈ vs, r.sharder.shard ext.sha1Digest v = some s) :
    onlyShard shards = commonShard ext r vs := by
  have hsame : ∀ s, s ∈ (vs.filterMap (r.sharder.shard ext.sha1Digest)).dedup ↔ s ∈ shards := by
    intro s
    rw [List.mem_dedup, List.mem_filterMap, hmem]
  apply Option.ext
  intro s
  unfold commonShard
  rw [onlyShard_eq_some_iff hnodup, onlyShard_eq_some_iff (List.nodup_dedup _)]
  simp only [hsame]

theorem commonShard_eq_some_iff {ext : Externals} (hshards : 0 < r.poolSettings.shards) {s : Nat} :
    commonShard ext r vs = some s ↔
      vs ≠ [] ∧ ∀ v ∈ vs, r.sharder.shard ext.sha1Digest v = some s := by
  refine onlyShard_of_values ext hshards (List.nodup_dedup _) fun n => ?_
  rw [List.mem_dedup, List.mem_filterMap]

/-- The shard the values have in common; hashing a value without a shard is a panic. -/
def hashed (ext : Externals) (r : QueryRouter) (vs : List Int) : Option (Option Nat) :=
  if r.poolSettings.shards = 0 ∧ vs ≠ [] then none else some (commonShard ext r vs)

theorem hashed_of_pos {ext : Externals} (hshards : 0 < r.poolSettings.shards)
    (vs : List Int) : hashed ext r vs = some (commonShard ext r vs) :=
  if_neg fun h => Nat.ne_of_gt hshards h.1

theorem hashed_of_same (r : QueryRouter) {ws : List Int}
    (h : ∀ v, v ∈ vs ↔ v ∈ ws) : hashed ext r vs = hashed ext r ws := by
  have hnil : vs = [] ↔ ws = [] := by
    simp only [List.eq_nil_iff_forall_not_mem, h]
  have hcommon : commonShard ext r vs = commonShard ext r ws := by
    unfold commonShard
    apply Option.ext
    intro s
    rw [onlyShard_eq_some_iff (List.nodup_dedup _), onlyShard_eq_some_iff (List.nodup_dedup _)]
    simp only [List.mem_dedup, List.mem_filterMap, h]
  simp only [hashed, ne_eq, hnil, hcommon]

/-- The set of shards with those of the values added, one after the other. -/
def insertShards (ext : Externals) (r : QueryRouter) (shards : List Nat) : List Int → Option (List Nat)
  | [] => some shards
  | v :: vs => do
    let s ← r.sharder.shard ext.sha1Digest v
    insertShards ext r (shards.insert s) vs

theorem insertShards_eq_some {ext : Externals} {r : QueryRouter} (hshards : 0 < r.poolSettings.shards)
    {vs : List Int} : ∀ {shards : List Nat}, shards.Nodup →
      ∃ out, insertShards ext r shards vs = some out ∧ out.Nodup ∧
        ∀ s, s ∈ out ↔ s ∈ shards ∨ ∃ v ∈ vs, r.sharder.shard ext.sha1Digest v = some s := by
  induction vs with
  | nil =>
    intro shards hnodup
    exact ⟨shards, rfl, hnodup, by simp⟩
  | cons v vs ih =>
    intro shards hnodup
    obtain ⟨s, hs⟩ := Sharder.shard_isSome ext.sha1Digest (s := r.sharder) hshards v
    obtain ⟨out, hout, hnd, hmem⟩ := ih (hnodup.insert (a := s))
    refine ⟨out, ?_, hnd, ?_⟩
    · rw [insertShards, hs]
      exact hout
    · intro t
      rw [hmem, List.mem_insert_iff]
      simp only [List.mem_cons, exists_eq_or_imp, hs, Option.some.injEq]
      grind

/-- From an empty set the values leave one shard exactly if they have it in common. -/
theorem insertShards_map_onlyShard (r : QueryRouter) (vs : List Int) :
    (insertShards ext r [] vs).map onlyShard = hashed ext r vs := by
  rcases Nat.eq_zero_or_pos r.poolSettings.shards with hzero | hpos
  · cases vs with
    | nil =>
      rw [hashed, if_neg fun h => h.2 rfl]
      rfl
    | cons v vs =>
      have hnone : r.sharder.shard ext.sha1Digest v = none := by
        simp [Sharder.shard, sharder, hzero]
      rw [hashed, if_pos ⟨hzero, List.cons_ne_nil _ _⟩, insertShards, hnone]
      rfl
  · obtain ⟨out, hout, hnodup, hmem⟩ := @insertShards_eq_some ext r hpos vs [] List.nodup_nil
    rw [hout, hashed_of_pos hpos, Option.map_some,
      onlyShard_eq_commonShard ext r hnodup (by simpa using hmem)]

/-- Hashing goes along with reading: the loop collects the shards of the integers it finds. -/
theorem bindShards_eq (ext : Externals) (r : QueryRouter) (formats : ParameterFormats) {n : Nat} :
    ∀ {i : Nat} {shards : List Nat} {bs : Bytes},
      (bindShards ext r formats n i shards bs).map (·.1) =
        (bindIntegers r.placeholders formats n i bs).bind fun out => insertShards ext r shards out.1 := by
  induction n with
  | zero =>
    intro i shards bs
    rfl
  | succ n ih =>
    intro i shards bs
    rw [bindIntegers, bindShards]
    cases hlen : getI32 bs with
    | none => rfl
    | some out =>
    obtain ⟨len, bs₁⟩ := out
    cases hformat : formats.get i with
    | none => simp
    | some f =>
    by_cases hrec : recorded r.placeholders i
    · have hmem : ((i : Int) + 1) ∈ r.placeholders := hrec
      cases hread : readValue (asUsize len) f bs₁ with
      | none => simp [readParameter, hrec, hmem, hread]
      | some out =>
      obtain ⟨value, bs₂⟩ := out
      cases value with
      | none => simp [readParameter, hrec, hmem, hread, ih]
      | some v =>
        -- The value is hashed here, the ones behind it later.
        cases hs : r.sharder.shard ext.sha1Digest v with
        | none => simp [readParameter, hrec, hmem, hread, hs, Option.bind_assoc, insertShards]
        | some s => simp [readParameter, hrec, hmem, hread, hs, ih, Option.bind_assoc, insertShards]
    · have hmem : ((i : Int) + 1) ∉ r.placeholders := hrec
      simp [readParameter, hrec, hmem, ih]

/-- What is read before the parameters: their formats and their number, of which a negative one is none. -/
def bindHeader : Cursor (ParameterFormats × Nat) := fun bs => do
  let (_, bs) ← readString bs
  let (_, bs) ← readString bs
  let (formats, bs) ← readFormats bs
  let (count, bs) ← getI16 bs
  pure ((formats, count.toNat), bs)

theorem bindHeader_append {portal name : Bytes} (hportal : 0 ∉ portal) (hname : 0 ∉ name)
    {codes : List ParameterFormat} (hcodes : codes.length < 2 ^ 15) {count : Nat} (hcount : count < 2 ^ 16)
    (values : Bytes) :
    bindHeader (portal ++ 0 :: (name ++ 0 :: (beBytes 2 codes.length ++
      (codes.flatMap formatBytes ++ (beBytes 2 count ++ values))))) =
        some ((.ofCodes codes, (toSigned 16 count).toNat), values) := by
  unfold bindHeader
  rw [readString_append hportal]
  simp only [some_bind, readString_append hname, readFormats_append hcodes,
    getI16_count hcount]
  rfl

theorem inferShardFromBind_framed {m : Message} (hrecorded : r.placeholders ≠ []) (hframed : Framed m)
    (hcode : Char.ofUInt8 m.code = 'B') :
    r.inferShardFromBind ext m.bytes =
      (bindHeader m.payload).bind fun header =>
        (bindShards ext r header.1.1 header.1.2 0 [] header.2).map fun out => r.bound (onlyShard out.1) := by
  unfold inferShardFromBind bindHeader
  rw [Message.getU8_bytes]
  simp only [Option.bind_eq_bind, Option.bind_some, hframed.getI32, hcode, ne_eq, not_true_eq_false,
    if_false, hframed.length_eq, hrecorded, Option.bind_assoc, Option.pure_def]
  -- Both sides read the same, up to the last step on the set of shards.
  congr! 9 with _ _ _ _ out
  cases bindShards ext r _ _ 0 [] _ with
  | none => rfl
  | some out =>
    simp only [Option.bind_some, Option.map_some]
    cases onlyShard out.1 with
    | none => rfl
    | some s => rfl

theorem inferShardFromBind_nil (hrecorded : r.placeholders = [])
    {m : Message} (hframed : Framed m) : r.inferShardFromBind ext m.bytes = some (r, false) := by
  unfold inferShardFromBind
  rw [Message.getU8_bytes]
  simp [hframed.getI32, hrecorded]

/-- A straight message leads to the shard its integers have in common. -/
theorem inferShardFromBind_straight (hframed : Framed b.message) (h : b.straight r.placeholders = true) :
    r.inferShardFromBind ext b.message.bytes =
      (hashed ext r (b.integers r.placeholders)).map r.bound := by
  by_cases hrecorded : r.placeholders = []
  · have hnone : b.integers r.placeholders = [] := integersFrom_unrecorded fun k _ hk => by
      rw [recorded, hrecorded] at hk
      cases hk
    rw [inferShardFromBind_nil ext hrecorded hframed, hnone, hashed, if_neg fun hne => hne.2 rfl]
    exact congrArg (fun placeholders => some ({ r with placeholders }, false)) hrecorded
  · obtain ⟨hcount, rest, hloop⟩ := BindMessage.bindIntegers_of_straight hframed h
    have hcodes : b.codes.length < 2 ^ 15 := by
      rcases b.codes_count with h | h | h <;> omega
    have hheader : bindHeader b.message.payload = some ((b.formats, b.values.length), b.parameters) := by
      have hread := bindHeader_append b.portal_text b.name_text hcodes b.values_count b.parameters
      rwa [toSigned_count hcount, Int.toNat_natCast] at hread
    have hshards := @bindShards_eq ext r b.formats b.values.length 0 [] b.parameters
    rw [hloop, Option.bind_some] at hshards
    rw [inferShardFromBind_framed ext hrecorded hframed rfl, hheader, Option.bind_some,
      ← insertShards_map_onlyShard, ← hshards, Option.map_map, Option.map_map]
    rfl

end QueryRouter

/-! ## Exact decoding -/

def BindMessage.shards (ext : Externals) (r : QueryRouter) (b : BindMessage) : Set Nat :=
  {s | ∃ v ∈ b.integers r.placeholders, r.sharder.shard ext.sha1Digest v = some s}

/-- The message is decoded without a panic; it selects `s` and reports it exactly if `s` is the only
shard of the bound integers, and otherwise the shard stays what it was. -/
def DecodedExactly (ext : Externals) (r : QueryRouter) (b : BindMessage) : Prop :=
  ∃ r' found, r.inferShardFromBind ext b.message.bytes = some (r', found) ∧
    (∀ s, (found = true ∧ r'.activeShard = some s) ↔ b.shards ext r = {s}) ∧
    (found = false → r'.activeShard = r.activeShard)

section Exact

variable {ext : Externals} {r : QueryRouter} (hshards : 0 < r.poolSettings.shards)
include hshards

theorem commonShard_eq_some_iff_shards (b : BindMessage) {s : Nat} :
    QueryRouter.commonShard ext r (b.integers r.placeholders) = some s ↔ b.shards ext r = {s} := by
  rw [QueryRouter.commonShard_eq_some_iff hshards, Set.eq_singleton_iff_unique_mem]
  exact (unique_shard_iff ext hshards).symm

omit hshards in
theorem bound_selects_iff {found : Option Nat} {s : Nat} :
    ((r.bound found).2 = true ∧ (r.bound found).1.activeShard = some s) ↔ found = some s := by
  cases found with
  | none => simp [QueryRouter.bound]
  | some t => simp [QueryRouter.bound, QueryRouter.setShard]

omit hshards in
theorem bound_keeps {found : Option Nat} (h : (r.bound found).2 = false) :
    (r.bound found).1.activeShard = r.activeShard := by
  cases found with
  | none => rfl
  | some t => cases h

/-- A `Bind` is decoded exactly if no recorded parameter stands behind bytes that stay unread, and none in text
format is `NULL`.  Behind such bytes the loop takes the lengths out of the values, and may by chance still come
to the shard the values have in common. -/
theorem straight_bind_decoded (b : BindMessage) (hframed : Framed b.message)
    (hstraight : b.straight r.placeholders = true) : DecodedExactly ext r b := by
  have hinfer := QueryRouter.inferShardFromBind_straight ext hframed hstraight
  rw [QueryRouter.hashed_of_pos hshards, Option.map_some] at hinfer
  exact ⟨_, _, hinfer, fun s => bound_selects_iff.trans (commonShard_eq_some_iff_shards hshards b), bound_keeps⟩

end Exact

namespace Sample

def secondRecorded : QueryRouter := { shardedRouter with placeholders := [2] }

/-- Two parameters in text format, `1` and `5`. -/
def oneAndFive : BindMessage where
  portal := []
  name := []
  codes := []
  values := [some [49], some [53]]
  results := []
  portal_text := by decide
  name_text := by decide
  codes_count := .inl rfl
  values_count := by decide

/-- The first value is not skipped: the length of the second is read from the wrong place, and the
read runs past the end of the message. -/
theorem skipped_value_panics :
    Framed oneAndFive.message ∧ oneAndFive.integers secondRecorded.placeholders = [5] ∧
      secondRecorded.inferShardFromBind noExternals oneAndFive.message.bytes = none ∧
      ¬DecodedExactly noExternals secondRecorded oneAndFive := by
  have hpanic : secondRecorded.inferShardFromBind noExternals oneAndFive.message.bytes = none := by
    decide +kernel
  refine ⟨by decide, by decide, hpanic, ?_⟩
  rintro ⟨r', found, hrun, -⟩
  rw [hpanic] at hrun
  cases hrun

/-- A recorded text, a recorded binary `NULL`, a recorded binary integer, and a value without a placeholder. -/
def mixedParameters : BindMessage where
  portal := [112]
  name := [115, 49]
  codes := [.text, .binary, .binary, .text]
  values := [some [45, 53], none, some [0, 0, 0, 7], some [120, 121]]
  results := [0, 0]
  portal_text := by decide
  name_text := by decide
  codes_count := .inr (.inr rfl)
  values_count := by decide

theorem three_recorded_decoded :
    mixedParameters.integers [1, 2, 3] = [-5, 7] ∧
      DecodedExactly noExternals { shardedRouter with placeholders := [1, 2, 3] } mixedParameters :=
  ⟨by decide, straight_bind_decoded (by decide) mixedParameters (by decide) (by decide)⟩

end Sample

end PgCat.Router
