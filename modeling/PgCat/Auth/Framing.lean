import PgCat.Auth.Wire

/-!
# Framing — the messages of pgcat and the reader that takes them apart

`read_message` trusts the length word: it takes the code, the word and as many bytes as the word says.
Every encoder of `messages.rs` computes the word on its own, from the bytes it is about to append or, in
`server_parameter_message`, from the lengths of the texts.  A `Frame` is a message whose word is right; a
stream of frames is read back as the frames it was made of.  Of the words that are wrong, those below `-1`
are cast to sizes that no allocation may have, before the check that is to catch them.
-/

namespace PgCat.Auth

open Lib Protocol

/-! ## Reading -/

/-- Read a complete message.  A length below that of the word itself is an error, and so is a negative
one, unless it panics on the way to an allocation of that size. -/
def readMessage (checks : Bool) : Handshake Bytes := do
  let code ← readU8 (.socketError "Error reading message code from socket")
  let len ← readI32 (.socketError s!"Error reading message len from socket - Code: {code}")
  let capacity ← unwrap (addUsize checks (asUsize len) 1)
  if isizeMax < capacity then throw .panicked
  let size ← unwrap ((addUsize checks 5 (asUsize len)).bind (subUsize checks · 4))
  if isizeMax < size then throw .panicked
  -- The slice that is filled starts behind the word and ends with the message.
  if size < 5 then
    throw (.failed (.socketError (s!"Error reading message from socket - Code: {code} - Length {len}, " ++
      "Error: \"Unexpected length value for message\"")))
  let payload ← readExact (size - 5) (.socketError s!"Error reading message from socket - Code: {code}")
  pure (code :: putI32 len ++ payload)

def readMessages (checks : Bool) : Nat → Handshake (List Bytes)
  | 0 => pure []
  | n + 1 => do
    let m ← readMessage checks
    let ms ← readMessages checks n
    pure (m :: ms)

/-! ## Encoders -/

/-- Postgres data types used in a row description. -/
inductive DataType
  | text
  | int4
  | numeric
  deriving DecidableEq, Repr

def DataType.oid : DataType → Int
  | .text => 25
  | .int4 => 23
  | .numeric => 1700

def DataType.size : DataType → Int
  | .text => -1
  | .int4 => 4
  | .numeric => -1

namespace Encode

def withLength (code : Char) (body : Bytes) : Bytes :=
  UInt8.ofNat code.toNat :: putI32 (asI32 body.length + 4) ++ body

def simpleQuery (query : String) : Bytes :=
  withLength 'Q' (utf8 query ++ [0])

def column (name : String) (dataType : DataType) : Bytes :=
  utf8 name ++ [0] ++ putI32 0 ++ putI16 0 ++ putI32 dataType.oid ++ putI16 dataType.size ++
    putI32 (-1) ++ putI16 0

def rowDescription (columns : List (String × DataType)) : Bytes :=
  withLength 'T' (putI16 columns.length ++ columns.flatMap fun c => column c.1 c.2)

def dataRow (row : List String) : Bytes :=
  withLength 'D' (putI16 row.length ++ row.flatMap fun c => putI32 (utf8 c).length ++ utf8 c)

def commandComplete (command : String) : Bytes :=
  withLength 'C' (utf8 command ++ [0])

/-- The fields of an error: two levels, the code and the message, and no more. -/
def errorResponseTerminal (message : String) : Bytes :=
  withLength 'E' (utf8 "S" ++ utf8 "FATAL\x00" ++ utf8 "V" ++ utf8 "FATAL\x00" ++ utf8 "C" ++
    utf8 "58000\x00" ++ utf8 "M" ++ (utf8 message ++ [0]) ++ [0])

/-- The length is added up from its parts; one that is no `i32` panics. -/
def serverParameterMessage (key value : String) : Option Bytes :=
  let len := 4 + (utf8 key).length + 1 + (utf8 value).length + 1
  if len < 2 ^ 31 then
    some (utf8 "S" ++ putI32 len ++ utf8 key ++ [0] ++ utf8 value ++ [0])
  else
    none

def md5Password (md5 : Md5) (user password : String) (salt : Bytes) : Bytes :=
  withLength 'p' (md5HashPassword md5 user password salt)

theorem withLength_eq (code : Char) (body : Bytes) : withLength code body = (Message.ofChar code body).bytes := by
  rw [withLength, putI32_asI32]
  rfl

/-! The encoders the session and the handshakes use are these. -/

/-- The sum of the parts is the length of the body and the word. -/
theorem serverParameterMessage_eq {key value : String} {m : Bytes}
    (hm : serverParameterMessage key value = some m) : m = Auth.serverParameterMessage key value := by
  unfold serverParameterMessage at hm
  dsimp only at hm
  split at hm
  · cases hm
    have hlength : 4 + (utf8 key).length + 1 + (utf8 value).length + 1 =
        (utf8 key ++ [0] ++ utf8 value ++ [0]).length + 4 := by
      simp
      omega
    rw [hlength, Auth.serverParameterMessage, Message.bytes]
    simp [show utf8 "S" = [83] from rfl, Message.ofChar]
  · cases hm

end Encode

/-! ## Frames -/

/-- A message as the protocol wants it, with a payload whose length can be told. -/
def Frame (m : Bytes) : Prop :=
  ∃ code payload, payload.length ≤ 2 ^ 31 - 5 ∧ m = (Message.mk code payload).bytes

/-- What may stand in a stream: any message of the protocol, and what the encoders make of arguments that
keep it within the size. -/
inductive Sendable (md5 : Md5) : Bytes → Prop
  | message (code : UInt8) (payload : Bytes) (h : payload.length ≤ 2 ^ 31 - 5) :
      Sendable md5 (code :: putI32 (payload.length + 4) ++ payload)
  | simpleQuery (query : String) (h : (Encode.simpleQuery query).length ≤ 2 ^ 31) :
      Sendable md5 (Encode.simpleQuery query)
  | rowDescription (columns : List (String × DataType))
      (h : (Encode.rowDescription columns).length ≤ 2 ^ 31) : Sendable md5 (Encode.rowDescription columns)
  | dataRow (row : List String) (h : (Encode.dataRow row).length ≤ 2 ^ 31) :
      Sendable md5 (Encode.dataRow row)
  | commandComplete (command : String) (h : (Encode.commandComplete command).length ≤ 2 ^ 31) :
      Sendable md5 (Encode.commandComplete command)
  | errorResponseTerminal (message : String)
      (h : (Encode.errorResponseTerminal message).length ≤ 2 ^ 31) :
      Sendable md5 (Encode.errorResponseTerminal message)
  | serverParameterMessage (key value : String) (m : Bytes)
      (hm : Encode.serverParameterMessage key value = some m) (h : m.length ≤ 2 ^ 31) : Sendable md5 m
  | md5Password (user password : String) (salt : Bytes)
      (h : (Encode.md5Password md5 user password salt).length ≤ 2 ^ 31) :
      Sendable md5 (Encode.md5Password md5 user password salt)

theorem frame_of_length {m : Message} (h : m.bytes.length ≤ 2 ^ 31) : Frame m.bytes := by
  rw [length_bytes] at h
  exact ⟨m.code, m.payload, by omega, rfl⟩

theorem frame_withLength {code : Char} {body : Bytes} (h : (Encode.withLength code body).length ≤ 2 ^ 31) :
    Frame (Encode.withLength code body) := by
  rw [Encode.withLength_eq] at h ⊢
  exact frame_of_length h

variable {len : Int} {m : Bytes} {s s' : Socket}

theorem frame_of_sendable {md5 : Md5} (h : Sendable md5 m) : Frame m := by
  cases h with
  | message code payload h => exact ⟨code, payload, h, rfl⟩
  | serverParameterMessage key value _ hm h =>
    rw [Encode.serverParameterMessage_eq hm] at h ⊢
    exact frame_of_length h
  | simpleQuery _ h | rowDescription _ h | dataRow _ h | commandComplete _ h | errorResponseTerminal _ h
  | md5Password _ _ _ h => exact frame_withLength h

/-! ## Reading back -/

variable {checks : Bool}

theorem sizes_of_payload {n : Nat} (h : n ≤ 2 ^ 31 - 5) :
    addUsize checks (asUsize ((n : Int) + 4)) 1 = some (n + 5) ∧
      (addUsize checks 5 (asUsize ((n : Int) + 4))).bind (subUsize checks · 4) = some (n + 5) ∧
        ¬isizeMax < n + 5 := by
  have husize : asUsize ((n : Int) + 4) = n + 4 := by
    rw [asUsize_of_nonneg (by omega) (by omega)]
    omega
  have hsum : addUsize checks 5 (n + 4) = some (n + 9) := by
    rw [addUsize, if_pos (by omega)]
    congr 1
    omega
  have hsize : subUsize checks (n + 9) 4 = some (n + 5) := if_pos (by omega)
  rw [husize]
  refine ⟨if_pos (by omega), by rw [hsum, Option.bind_some, hsize], ?_⟩
  unfold isizeMax
  omega

theorem word_putI32 {n : Nat} (h : n ≤ 2 ^ 31 - 5) (rest : Bytes) :
    word (putI32 ((n : Int) + 4) ++ rest) = (n : Int) + 4 := by
  have hread := @getSigned_append 4 ((n : Int) + 4) (by decide) (by omega) (by omega) rest
  rw [getSigned] at hread
  split at hread
  · exact congrArg Prod.fst (Option.some.inj hread)
  · cases hread

theorem readMessage_frame {m rest : Bytes} (h : Frame m) (s : Socket) (hs : s.input = m ++ rest) :
    readMessage checks s = .ok m { s with input := rest } := by
  obtain ⟨code, payload, hlength, rfl⟩ := h
  have hinput : s.input = code :: (putI32 (payload.length + 4) ++ (payload ++ rest)) := by
    rw [hs, Message.bytes, List.cons_append, List.cons_append, List.append_assoc]
  have hdrop : (putI32 (payload.length + 4) ++ (payload ++ rest)).drop 4 = payload ++ rest :=
    List.drop_left' (length_beBytes 4 _)
  obtain ⟨hcapacity, hsize, hfits⟩ := @sizes_of_payload checks payload.length hlength
  -- Now the reads one after the other: code, length word, payload.
  unfold readMessage
  refine bind_eq_ok_iff.mpr ⟨code, { s with input := putI32 (payload.length + 4) ++ (payload ++ rest) },
    readU8_ok.mpr ⟨hinput, rfl⟩, ?_⟩
  refine bind_eq_ok_iff.mpr ⟨(payload.length : Int) + 4, _,
    readI32_ok.mpr ⟨?_, (word_putI32 hlength _).symm, rfl⟩, ?_⟩
  · simp [putI32]
  simp only [hcapacity, hsize, hfits, unwrap, pure_bind, if_false,
    Nat.not_lt.mpr (Nat.le_add_left 5 payload.length), Nat.add_sub_cancel, hdrop]
  refine bind_eq_ok_iff.mpr ⟨payload, _, readExact_ok.mpr ⟨?_, ?_, rfl⟩, ?_⟩
  · simp
  · simp
  · simp [pure_apply, Message.bytes]

/-- A length word that leaves room for an allocation and for the word itself is its own value. -/
private theorem length_of_sizes (hrange : -2 ^ 31 ≤ len ∧ len < 2 ^ 31) {capacity size : Nat}
    (hcapacity : addUsize checks (asUsize len) 1 = some capacity) (hfits : ¬isizeMax < capacity)
    (hsize : (addUsize checks 5 (asUsize len)).bind (subUsize checks · 4) = some size) (hlow : ¬size < 5) :
    4 ≤ len ∧ size - 5 = len.toNat - 4 := by
  unfold isizeMax at hfits
  rcases Int.lt_or_le len 0 with hneg | hpos
  · -- Only `-1` gets past the allocation, and then the size wraps around to nothing.
    rw [asUsize_of_neg hneg (by omega)] at hcapacity hsize
    obtain ⟨sum, hsum, hdiff⟩ := Option.bind_eq_some_iff.mp hsize
    unfold addUsize at hcapacity hsum
    unfold subUsize at hdiff
    grind
  · rw [asUsize_of_nonneg hpos hrange.2] at hsize
    have hsum : addUsize checks 5 len.toNat = some (5 + len.toNat) := if_pos (by omega)
    have hdiff : subUsize checks (5 + len.toNat) 4 = some (5 + len.toNat - 4) := if_pos (by omega)
    rw [hsum, Option.bind_some, hdiff, Option.some.injEq] at hsize
    omega

theorem readMessage_ok (h : readMessage checks s = .ok m s') :
    ∃ code rest payload, s.input = code :: rest ∧ 4 ≤ rest.length ∧
      word rest = (payload.length : Int) + 4 ∧ m = code :: putI32 (word rest) ++ payload := by
  unfold readMessage at h
  obtain ⟨code, s₁, hcode, h⟩ := bind_eq_ok_iff.mp h
  obtain ⟨len, s₂, hlen, h⟩ := bind_eq_ok_iff.mp h
  obtain ⟨hrest, hword, -⟩ := readI32_ok.mp hlen
  have hrange : -2 ^ 31 ≤ len ∧ len < 2 ^ 31 := hword ▸ word_range s₁.input
  obtain ⟨capacity, s₃, hcapacity, h⟩ := bind_eq_ok_iff.mp h
  split at h
  · cases h
  rename_i hfits
  obtain ⟨size, s₄, hsize, h⟩ := bind_eq_ok_iff.mp h
  split at h
  · cases h
  dsimp only at h
  split at h
  · cases h
  rename_i hlow
  obtain ⟨payload, s₅, hpayload, h⟩ := bind_eq_ok_iff.mp h
  cases h
  obtain ⟨hlength, hcounted⟩ := length_of_sizes hrange (unwrap_ok.mp hcapacity).1 hfits
    (unwrap_ok.mp hsize).1 hlow
  obtain ⟨hmore, htake, -⟩ := readExact_ok.mp hpayload
  have hcount : payload.length = len.toNat - 4 := by
    rw [htake, List.length_take_of_le hmore, hcounted]
  refine ⟨code, s₁.input, payload, (readU8_ok.mp hcode).1, hrest, by omega, ?_⟩
  rw [hword]

theorem frame_of_readMessage (h : readMessage checks s = .ok m s') : Frame m := by
  obtain ⟨code, rest, payload, -, -, hword, rfl⟩ := readMessage_ok h
  have hrange := word_range rest
  exact ⟨code, payload, by omega, by rw [hword]; rfl⟩

/-! ## Lengths that panic -/

theorem putI32_word {bs : Bytes} (h : 4 ≤ bs.length) : putI32 (word bs) = bs.take 4 := by
  have hlength : (bs.take 4).length = 4 := List.length_take_of_le h
  have hlt : beNat (bs.take 4) < 2 ^ 32 :=
    calc beNat (bs.take 4) < 256 ^ (bs.take 4).length := beNat_lt _
      _ = 2 ^ 32 := by rw [hlength]; decide
  have hback : ofSigned 32 (word bs) = beNat (bs.take 4) := by
    unfold ofSigned word toSigned
    split <;> omega
  have hbytes := beBytes_beNat (bs.take 4)
  rw [hlength] at hbytes
  rw [putI32, hback, hbytes]

theorem received_of_readMessage (h : readMessage checks s = .ok m s') :
    (m.length : Int) = word (s.input.drop 1) + 1 ∧ m.take 5 = s.input.take 5 := by
  obtain ⟨code, rest, payload, hinput, hrest, hword, rfl⟩ := readMessage_ok h
  have hputs : (putI32 (word rest)).length = 4 := length_beBytes 4 _
  constructor
  · have hlength : (code :: putI32 (word rest) ++ payload).length = payload.length + 5 := by
      simp only [List.length_append, List.length_cons, hputs]
      omega
    rw [hlength, hinput, List.drop_one, List.tail_cons, hword]
    omega
  · rw [hinput, List.take_left' (by simp [hputs]), putI32_word hrest]
    rfl

/-- What the reader owes for any input, where arithmetic wraps around: a message that starts with what
was received and is as long as the length word says, or an error of its own. -/
def Answers (s : Socket) : Prop :=
  Calm (readMessage false) s ∧ ∀ m s', readMessage false s = .ok m s' →
    (m.length : Int) = word (s.input.drop 1) + 1 ∧ m.take 5 = s.input.take 5

/-- A length word below `-1` asks for more than an allocation may have. -/
private theorem capacity_of_neg (hlow : -2 ^ 31 ≤ len) (hlen : len < -1) :
    ∃ capacity, addUsize false (asUsize len) 1 = some capacity ∧ isizeMax < capacity := by
  have hwide : asUsize len = (len + 2 ^ 64).toNat := asUsize_of_neg (by omega) (by omega)
  refine ⟨(len + 2 ^ 64).toNat + 1, ?_, ?_⟩
  · rw [hwide, addUsize, if_pos (by omega)]
  · unfold isizeMax
    omega

/-- From `-1` on, no size leaves the range of an allocation: `-1` itself wraps around to nothing. -/
private theorem sizes_of_le (hlen : -1 ≤ len) (hhigh : len < 2 ^ 31) :
    ∃ size, addUsize false (asUsize len) 1 = some size ∧ size ≤ isizeMax ∧
      (addUsize false 5 (asUsize len)).bind (subUsize false · 4) = some size := by
  refine ⟨(len + 1).toNat, ?_, by unfold isizeMax; omega, ?_⟩
  · rcases Int.lt_or_le len 0 with hneg | hpos
    · obtain rfl : len = -1 := by omega
      decide
    · rw [asUsize_of_nonneg hpos hhigh, addUsize, if_pos (by omega)]
      congr 1
      omega
  · rcases Int.lt_or_le len 0 with hneg | hpos
    · obtain rfl : len = -1 := by omega
      decide
    · rw [asUsize_of_nonneg hpos hhigh, addUsize, if_pos (by omega), Option.bind_some, subUsize,
        if_pos (by omega)]
      congr 1
      omega

theorem calm_readMessage_iff (s : Socket) :
    Calm (readMessage false) s ↔ s.input.length < 5 ∨ -1 ≤ word (s.input.drop 1) := by
  unfold readMessage
  constructor
  · intro h
    cases hinput : s.input with
    | nil => exact .inl (by simp)
    | cons code rest =>
      refine or_iff_not_imp_left.mpr fun hlong => ?_
      rw [List.length_cons, Nat.not_lt, Nat.succ_le_succ_iff] at hlong
      -- A length below -1 becomes a capacity that cannot be allocated.
      by_contra hneg
      obtain ⟨capacity, hcapacity, hfits⟩ := capacity_of_neg (word_range rest).1 (Int.not_le.mp hneg)
      have hcode := (Calm.bind_iff.mp h).2 code { s with input := rest } (readU8_ok.mpr ⟨hinput, rfl⟩)
      have hlen := (Calm.bind_iff.mp hcode).2 _ _ (readI32_ok.mpr ⟨hlong, rfl, rfl⟩)
      obtain ⟨asked, hasked, htail⟩ := Calm.unwrap_bind.mp hlen
      obtain rfl : asked = capacity := Option.some.inj (hasked.symm.trans hcapacity)
      rw [if_pos hfits] at htail
      exact Calm.not_panicked_bind htail
  · intro h
    refine Calm.bind_iff.mpr ⟨Calm.ofReadU8 _, fun code s₁ hcode => ?_⟩
    refine Calm.bind_iff.mpr ⟨Calm.ofReadI32 _, fun len s₂ hlen => ?_⟩
    obtain ⟨hinput, -⟩ := readU8_ok.mp hcode
    obtain ⟨hlong, hword, -⟩ := readI32_ok.mp hlen
    rw [hinput, List.length_cons, List.drop_one, List.tail_cons, ← hword] at h
    -- From -1 on the capacity can be allocated; a length without room for itself is an error and no panic.
    have hlen : -1 ≤ len := h.resolve_left (by omega)
    obtain ⟨size, hcapacity, hfits, hsize⟩ := sizes_of_le hlen (hword ▸ (word_range s₁.input).2)
    have hroom : ¬isizeMax < size := Nat.not_lt.mpr hfits
    refine Calm.unwrap_bind.mpr ⟨size, hcapacity, ?_⟩
    rw [if_neg hroom]
    refine Calm.unwrap_bind.mpr ⟨size, hsize, ?_⟩
    rw [if_neg hroom]
    split
    · exact Calm.failed_bind _
    · exact Calm.seq (Calm.ofReadExact _ _) (fun _ _ => Calm.ofPure _)

theorem readMessage_answers_iff (s : Socket) :
    Answers s ↔ s.input.length < 5 ∨ -1 ≤ word (s.input.drop 1) := by
  rw [← calm_readMessage_iff]
  exact ⟨fun h => h.1, fun h => ⟨h, fun _ _ hread => received_of_readMessage hread⟩⟩

namespace Sample

/-- A query whose length word is `-2`. -/
theorem negative_length_panics :
    readMessage false ⟨[0x51, 0xff, 0xff, 0xff, 0xfe], [], []⟩ = .error .panicked ⟨[], [], []⟩ ∧
      ¬Answers ⟨[0x51, 0xff, 0xff, 0xff, 0xfe], [], []⟩ := by
  have hrun : readMessage false ⟨[0x51, 0xff, 0xff, 0xff, 0xfe], [], []⟩ = .error .panicked ⟨[], [], []⟩ := rfl
  refine ⟨hrun, fun h => ?_⟩
  obtain ⟨e, he⟩ := h.1 _ _ hrun
  cases he

end Sample

/-! ## Streams -/

theorem readMessages_frames {ms : List Bytes} {rest : Bytes} (h : ∀ m ∈ ms, Frame m) :
    ∀ s : Socket, s.input = ms.flatten ++ rest →
      readMessages checks ms.length s = .ok ms { s with input := rest } := by
  induction ms with
  | nil =>
    intro s hs
    have hinput : s.input = rest := hs
    rw [← hinput]
    rfl
  | cons m ms ih =>
    intro s hs
    rw [List.flatten_cons, List.append_assoc] at hs
    have hm := @readMessage_frame checks _ _ (h m List.mem_cons_self) s hs
    have hms := ih (fun m' hm' => h m' (List.mem_cons_of_mem _ hm'))
      { s with input := ms.flatten ++ rest } rfl
    refine bind_eq_ok_iff.mpr ⟨m, _, hm, ?_⟩
    exact bind_eq_ok_iff.mpr ⟨ms, _, hms, rfl⟩

/-- A stream of messages is read back as the messages it consists of, and to its end. -/
theorem stream_read_back (md5 : Md5) (checks : Bool) (ms : List Bytes) (h : ∀ m ∈ ms, Sendable md5 m)
    (writes : List Bool) (sent : List Bytes) :
    readMessages checks ms.length ⟨ms.flatten, writes, sent⟩ = .ok ms ⟨[], writes, sent⟩ :=
  readMessages_frames (fun m hm => frame_of_sendable (h m hm)) _ (List.append_nil _).symm

namespace Sample

theorem two_messages_read_back :
    readMessages true 2 ⟨[Encode.simpleQuery "BEGIN", Encode.dataRow ["a", "b"]].flatten, [], []⟩ =
      .ok [Encode.simpleQuery "BEGIN", Encode.dataRow ["a", "b"]] ⟨[], [], []⟩ := by
  refine stream_read_back (fun _ => "") true [Encode.simpleQuery "BEGIN", Encode.dataRow ["a", "b"]] ?_ [] []
  intro m hm
  simp only [List.mem_cons, List.not_mem_nil, or_false] at hm
  rcases hm with rfl | rfl
  · exact .simpleQuery "BEGIN" (by decide)
  · exact .dataRow ["a", "b"] (by decide)

end Sample

end PgCat.Auth
