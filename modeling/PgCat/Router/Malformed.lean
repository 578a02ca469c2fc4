import PgCat.Auth.Framing
import PgCat.Router.Comments
import PgCat.Router.Role

/-!
# Malformed — the messages that make the router panic

The router takes messages apart with reads that panic at the end of the message, and trusts the client for
everything else: `unwrap` on the numbers of the commands, `unreachable!()` on format codes, an index for
every parameter.  For each of the three functions this file says which messages it returns on:

* `infer` wants a text, be it without its NUL (`HasText`);
* `infer_shard_from_bind` wants the layout `Bindable` while placeholders are recorded;
* `try_execute_command` wants a text that is long enough, behind the search for comments longer still, and
  numbers that fit (`Commandable`).
-/

namespace PgCat.Router

open Lib Protocol Config

/-! ## Texts -/

/-- What `read_string` makes of the bytes: the text up to the first NUL, and without one all but the last
byte. -/
def firstText (bs : Bytes) : String :=
  fromUtf8Lossy ((bs.take ((bs.takeWhile (· ≠ 0)).length + 1)).dropLast)

def behindText (bs : Bytes) : Bytes :=
  bs.drop ((bs.takeWhile (· ≠ 0)).length + 1)

theorem readString_eq (bs : Bytes) :
    readString bs = if bs = [] then none else some (firstText bs, behindText bs) := by
  have hempty : bs.take ((bs.takeWhile (· ≠ 0)).length + 1) = [] ↔ bs = [] := by
    simp
  unfold readString
  simp only [hempty]
  rfl

@[simp] theorem behindText_zero (bs : Bytes) : behindText (0 :: bs) = bs := by
  simp [behindText]

@[simp] theorem behindText_cons {b : UInt8} (hb : b ≠ 0) (bs : Bytes) :
    behindText (b :: bs) = behindText bs := by
  simp [behindText, hb]

theorem behindText_ne_nil {bs : Bytes} : behindText bs ≠ [] ↔ 0 ∈ bs.dropLast := by
  induction bs with
  | nil => simp [behindText]
  | cons b bs ih =>
    by_cases hb : b = 0
    · subst hb
      cases bs with
      | nil => simp
      | cons c bs => simp
    · rw [behindText_cons hb, ih]
      cases bs with
      | nil => simp
      | cons c bs => simp [Ne.symm hb]

theorem behindText_eq {bs : Bytes} (h : behindText bs ≠ []) :
    ∃ text, 0 ∉ text ∧ bs = text ++ 0 :: behindText bs := by
  induction bs with
  | nil => exact absurd rfl h
  | cons b bs ih =>
    by_cases hb : b = 0
    · subst hb
      exact ⟨[], by simp, by simp⟩
    · rw [behindText_cons hb] at h ⊢
      obtain ⟨text, hzero, htext⟩ := ih h
      refine ⟨b :: text, ?_, congrArg (b :: ·) htext⟩
      simp [Ne.symm hb, hzero]

namespace QueryRouter

variable {ext : Externals} {r : QueryRouter} {rand : Nat}

/-! ## `infer` -/

/-- There is a text to infer from: a payload, behind the name of a prepared statement. -/
def HasText (m : Message) : Prop :=
  match m.frontend with
  | .query => m.payload ≠ []
  | .parse => 0 ∈ m.payload.dropLast
  | _ => True

variable {bs : Bytes} {formats : ParameterFormats} {m : Message} {value : List Char}

theorem sqlText_isSome (hframed : Framed m)
    (hcode : m.frontend = .query ∨ m.frontend = .parse ∨ m.frontend = .bind) :
    (sqlText m.bytes).isSome = true ↔ HasText m := by
  unfold sqlText HasText
  rw [Message.getU8_bytes, some_bind]
  dsimp only
  rw [hframed.getI32, some_bind]
  dsimp only
  rcases hcode with hcode | hcode | hcode
  · rw [Message.char_of_query hcode, hcode, readString_eq]
    by_cases hpayload : m.payload = [] <;> simp [hpayload]
  · rw [Message.char_of_parse hcode, hcode, ← behindText_ne_nil, readString_eq]
    by_cases hpayload : m.payload = []
    · simp [hpayload, behindText]
    · by_cases hrest : behindText m.payload = [] <;> simp [hpayload, readString_eq, hrest]
  · rw [Message.char_of_bind hcode, hcode]
    simp

theorem infer_isSome (hv : r.poolSettings.Validated) (hframed : Framed m)
    (hcode : m.frontend = .query ∨ m.frontend = .parse ∨ m.frontend = .bind) :
    (r.infer ext m.bytes).isSome = true ↔ HasText m := by
  rw [← sqlText_isSome hframed hcode]
  cases htext : sqlText m.bytes with
  | none => simp [infer, htext]
  | some out =>
    cases out with
    | none => simp [infer, htext]
    | some text =>
      obtain ⟨r', ok, h⟩ := infer_total ext hv htext
      simp [h]

/-! ## `try_execute_command` -/

def Fits (c : Command) (value : List Char) : Prop :=
  match c with
  | .setShardingKey => ∀ n, parseNat value = some n → n < 2 ^ 63
  | .setShard => ∀ n, parseNat value = some n → n < 2 ^ 64
  | _ => True

theorem setShardingKey_isSome (hshards : 0 < r.poolSettings.shards)
    (hvalue : value ∈ Command.setShardingKey.group.language) :
    (r.execute ext rand .setShardingKey (String.ofList value)).isSome = true ↔
      Fits .setShardingKey value := by
  obtain ⟨hne, hdigits⟩ := Re.mem_plus_char.mp hvalue
  have hn := parseNat_of_digits hne hdigits
  have hread := parseUnsigned_of_parseNat hn (Nat.ofDigitChars 10 value 0)
  rw [if_pos le_rfl] at hread
  unfold execute Fits
  rw [String.toList_ofList, parseI64, parseSigned_of_parseUnsigned hread]
  simp only [hn, Option.some.injEq, forall_eq']
  by_cases hfits : Nat.ofDigitChars 10 value 0 < 2 ^ 63
  · obtain ⟨s, hs⟩ := Sharding.Sharder.shard_isSome ext.sha1Digest (s := r.sharder) hshards
      (Nat.ofDigitChars 10 value 0)
    rw [if_pos (by omega)]
    exact iff_of_true (by simp [setShardingKey, hs]) hfits
  · rw [if_neg (by omega)]
    exact iff_of_false (by simp) hfits

theorem setShard_isSome (hshards : 0 < r.poolSettings.shards)
    (hvalue : value ∈ Command.setShard.group.language) :
    (r.execute ext rand .setShard (String.ofList value)).isSome = true ↔ Fits .setShard value := by
  unfold execute setShardCommand Fits
  rw [String.toList_ofList]
  rcases Command.mem_group_setShard hvalue with ⟨n, hn⟩ | hany
  · have hnot : String.ofList (value.map Char.toUpper) ≠ "ANY" := Command.toUpper_ne_any hn
    rw [if_neg hnot, parseUsize, parseUnsigned_of_parseNat hn]
    simp only [hn, Option.some.injEq, forall_eq']
    by_cases hfits : n < 2 ^ 64
    · rw [if_pos (by omega)]
      exact iff_of_true rfl hfits
    · rw [if_neg (by omega)]
      exact iff_of_false (by simp) hfits
  · rw [if_pos (Command.toUpper_eq_any hany), if_neg (by omega)]
    refine iff_of_true rfl fun n hn => ?_
    exact absurd (Command.toUpper_eq_any hany) (Command.toUpper_ne_any hn)

theorem setServerRole_isSome (hvalue : value ∈ Command.setServerRole.group.language) :
    (r.execute ext rand .setServerRole (String.ofList value)).isSome = true := by
  obtain ⟨w, hw, hlower⟩ := Command.mem_group_setServerRole hvalue
  unfold execute setServerRole
  rw [String.toList_ofList, hlower, String.ofList_toList, Option.isSome_map]
  simp only [Command.serverRoles, List.mem_cons, List.not_mem_nil, or_false] at hw
  rcases hw with rfl | rfl | rfl | rfl | rfl
  all_goals rfl

theorem execute_isSome (hshards : 0 < r.poolSettings.shards) {c : Command} {value : List Char}
    (hvalue : value ∈ c.group.language) :
    (r.execute ext rand c (String.ofList value)).isSome = true ↔ Fits c value := by
  cases c with
  | setShardingKey => exact setShardingKey_isSome hshards hvalue
  | setShard => exact setShard_isSome hshards hvalue
  | setServerRole => exact iff_of_true (setServerRole_isSome hvalue) trivial
  | setPrimaryReads | showShard | showServerRole | showPrimaryReads => exact iff_of_true rfl trivial

def InRange (text : String) : Prop :=
  ∀ c value, Command.Splits c text.toList value → Fits c value

theorem customCommand_isSome (hshards : 0 < r.poolSettings.shards) {text : String} :
    (r.customCommand ext rand text).isSome = true ↔ InRange text := by
  by_cases hcommand : ∃ c value, Command.Splits c text.toList value
  · obtain ⟨c, value, hsplits⟩ := hcommand
    have hvalue : value ∈ c.group.language := by
      obtain ⟨_, _, -, -, hvalue, -⟩ := hsplits
      exact hvalue
    rw [customCommand_of_splits hsplits, Option.isSome_map, execute_isSome hshards hvalue]
    constructor
    · intro hfits d value' hsplits'
      -- There is no other command and no other value.
      obtain rfl := Command.eq_of_accepts (Command.accepts_iff_splits.mpr ⟨_, hsplits⟩)
        (Command.accepts_iff_splits.mpr ⟨_, hsplits'⟩)
      rw [hsplits'.value_eq, ← hsplits.value_eq]
      exact hfits
    · intro hrange
      exact hrange c value hsplits
  · have hnone : ∀ c : Command, c.accepts text = false := by
      intro c
      rw [Bool.eq_false_iff]
      intro haccepts
      exact hcommand ⟨c, Command.accepts_iff_splits.mp haccepts⟩
    rw [customCommand_of_none hnone]
    exact iff_of_true rfl fun c value hsplits => absurd ⟨c, value, hsplits⟩ hcommand

theorem queryCommand_isSome (hshards : 0 < r.poolSettings.shards) {code : UInt8}
    (hcode : Char.ofUInt8 code = 'Q') :
    (r.queryCommand ext rand code bs).isSome = true ↔ 5 ≤ bs.length ∧ InRange (firstText (bs.drop 4)) := by
  unfold queryCommand
  rw [if_neg (fun h => h hcode)]
  by_cases hword : 4 ≤ bs.length
  · have hread : getI32 bs = some (toSigned 32 (beNat (bs.take 4)), bs.drop 4) := if_pos hword
    rw [hread, some_bind]
    dsimp only
    rw [readString_eq]
    by_cases hlong : 5 ≤ bs.length
    · have hne : bs.drop 4 ≠ [] := by
        rw [ne_eq, List.drop_eq_nil_iff]
        omega
      rw [if_neg hne, some_bind, customCommand_isSome hshards, and_iff_right hlong]
    · have hnil : bs.drop 4 = [] := List.drop_eq_nil_of_le (by omega)
      rw [if_pos hnil]
      simp [hlong]
  · have hread : getI32 bs = none := if_neg hword
    rw [hread]
    simp only [Option.bind_eq_bind, Option.bind_none]
    exact iff_of_false (by simp) (fun h => hword (by omega))

/-- The part of the message that is searched.  For a message without payload `len - 5` panics or wraps around;
in the latter case only the limit is left. -/
def searchedPart (r : QueryRouter) (m : Message) : String :=
  if m.payload = [] then fromUtf8Lossy (m.bytes.take r.poolSettings.regexSearchLimit) else r.segment m

/-- The part that is searched is part of the message. -/
def Searchable (ext : Externals) (r : QueryRouter) (m : Message) : Prop :=
  m.payload ≠ [] ∨ ext.checks = false ∧ r.poolSettings.regexSearchLimit ≤ 5

instance (r : QueryRouter) (m : Message) : Decidable (r.Searchable ext m) :=
  inferInstanceAs (Decidable (_ ∨ _))

theorem initialSegment_eq (hframed : Framed m) : r.initialSegment ext.checks m.bytes (m.payload.length + 4) =
      if r.Searchable ext m then some (r.searchedPart m) else none := by
  by_cases hpayload : m.payload = []
  · have husize : asUsize ((m.payload.length : Int) + 4) = 4 := by
      rw [hframed.asUsize, hpayload]
      rfl
    have hlength : m.bytes.length = 5 := by
      rw [length_bytes, hpayload]
      rfl
    have hsearchable : r.Searchable ext m ↔ ext.checks = false ∧ r.poolSettings.regexSearchLimit ≤ 5 :=
      or_iff_right (fun h => h hpayload)
    unfold initialSegment
    simp only [husize, hlength, hsearchable, searchedPart, if_pos hpayload]
    cases ext.checks with
    | true => simp [subUsize]
    | false =>
      have hwraps : subUsize false 4 5 = some (2 ^ 64 - 1) := rfl
      rw [hwraps, some_bind]
      by_cases hlimit : r.poolSettings.regexSearchLimit ≤ 5
      · rw [Nat.min_eq_right (by omega), if_pos hlimit, if_pos ⟨rfl, hlimit⟩]
      · rw [if_neg (by omega), if_neg fun h => hlimit h.2]
  · rw [initialSegment_bytes hframed hpayload, if_pos (.inl hpayload), searchedPart, if_neg hpayload]

/-- The command functions get a text they can read, and numbers that fit. -/
def Commandable (ext : Externals) (r : QueryRouter) (m : Message) : Prop :=
  match m.frontend with
  | .query =>
    if r.searching then
      -- Behind the search the first four bytes of the text are taken for the length word.
      r.Searchable ext m ∧ (r.shardIn ext (r.searchedPart m) ≠ none ∨
        5 ≤ m.payload.length ∧ InRange (firstText (m.payload.drop 4)))
    else
      m.payload ≠ [] ∧ InRange (firstText m.payload)
  | .parse => r.searching → r.Searchable ext m
  | _ => True

theorem searched_iff_searching_of_sql (hcode : m.frontend = .query ∨ m.frontend = .parse) :
    r.searched m.code ↔ r.searching := by
  unfold searched searching
  rcases hcode with hcode | hcode
  · rw [Message.char_of_query hcode]
    simp
  · rw [Message.char_of_parse hcode]
    simp

theorem searchComment_sql (hshards : 0 < r.poolSettings.shards) (hframed : Framed m)
    (hcode : m.frontend = .query ∨ m.frontend = .parse) (hsearching : r.searching) :
    r.searchComment ext m.bytes m.code (putI32 (m.payload.length + 4) ++ m.payload) =
      if r.Searchable ext m then some ((r.shardIn ext (r.searchedPart m)).map r.setShard, m.payload) else none := by
  unfold searchComment
  rw [if_pos ((searched_iff_searching_of_sql hcode).mpr hsearching), hframed.getI32, some_bind]
  dsimp only
  rw [initialSegment_eq hframed]
  split
  · rw [some_bind, shardComment_eq hshards]
    rfl
  · rfl

theorem tryExecuteCommand_searching (hshards : 0 < r.poolSettings.shards) (hframed : Framed m)
    (hcode : m.frontend = .query ∨ m.frontend = .parse) (hsearching : r.searching) :
    r.tryExecuteCommand ext rand m.bytes =
      if r.Searchable ext m then
        match r.shardIn ext (r.searchedPart m) with
        | some s => some (r.setShard s, none)
        | none => r.queryCommand ext rand m.code m.payload
      else
        none := by
  unfold tryExecuteCommand
  rw [Message.getU8_bytes]
  refine (congrArg (Option.bind · _) (searchComment_sql hshards hframed hcode hsearching)).trans ?_
  split
  · cases r.shardIn ext (r.searchedPart m) with
    | none => rfl
    | some s => rfl
  · rfl

theorem tryExecuteCommand_not_searching
    (hcode : m.frontend = .query ∨ m.frontend = .parse) (hsearching : ¬r.searching) :
    r.tryExecuteCommand ext rand m.bytes =
      r.queryCommand ext rand m.code (putI32 (m.payload.length + 4) ++ m.payload) := by
  have hsearch : r.searchComment ext m.bytes m.code (putI32 (m.payload.length + 4) ++ m.payload) =
      some (none, putI32 (m.payload.length + 4) ++ m.payload) :=
    if_neg (mt (searched_iff_searching_of_sql hcode).mp hsearching)
  unfold tryExecuteCommand
  rw [Message.getU8_bytes]
  exact congrArg (Option.bind · _) hsearch

theorem tryExecuteCommand_isSome (hshards : 0 < r.poolSettings.shards) (hframed : Framed m)
    (hcode : m.frontend = .query ∨ m.frontend = .parse ∨ m.frontend = .bind) :
    (r.tryExecuteCommand ext rand m.bytes).isSome = true ↔ r.Commandable ext m := by
  unfold Commandable
  rcases hcode with hcode | hcode | hcode
  · have hquery : Char.ofUInt8 m.code = 'Q' := Message.char_of_query hcode
    rw [hcode]
    dsimp only
    by_cases hsearching : r.searching
    · rw [tryExecuteCommand_searching hshards hframed (.inl hcode) hsearching, if_pos hsearching]
      by_cases hsearchable : r.Searchable ext m
      · rw [if_pos hsearchable, and_iff_right hsearchable]
        cases r.shardIn ext (r.searchedPart m) with
        | some s => simp
        | none => rw [queryCommand_isSome hshards hquery, or_iff_right (fun h => h rfl)]
      · rw [if_neg hsearchable]
        exact iff_of_false (by simp) (fun h => hsearchable h.1)
    · -- The comment search is off: the length word is still in front and is skipped.
      have hframe : (putI32 (m.payload.length + 4) ++ m.payload).drop 4 = m.payload :=
        List.drop_left' (length_beBytes 4 _)
      have hlength : 5 ≤ (putI32 (m.payload.length + 4) ++ m.payload).length ↔ m.payload ≠ [] := by
        rw [List.length_append, putI32, length_beBytes, ← List.length_pos_iff]
        omega
      rw [tryExecuteCommand_not_searching (.inl hcode) hsearching, if_neg hsearching,
        queryCommand_isSome hshards hquery, hframe, hlength]
  · rw [hcode]
    dsimp only
    -- A `Parse` is never a custom command, so only the comment search can panic.
    have hskip : ∀ bs, (r.queryCommand ext rand m.code bs).isSome = true := by
      intro bs
      unfold queryCommand
      rw [Message.char_of_parse hcode, if_pos (by decide)]
      rfl
    by_cases hsearching : r.searching
    · rw [tryExecuteCommand_searching hshards hframed (.inr hcode) hsearching]
      by_cases hsearchable : r.Searchable ext m
      · rw [if_pos hsearchable]
        cases r.shardIn ext (r.searchedPart m) with
        | some s => simp [hsearchable]
        | none => exact iff_of_true (hskip _) fun _ => hsearchable
      · rw [if_neg hsearchable]
        exact iff_of_false (by simp) (fun h => hsearchable (h hsearching))
    · rw [tryExecuteCommand_not_searching (.inr hcode) hsearching]
      exact iff_of_true (hskip _) fun h => absurd h hsearching
  · rw [tryExecuteCommand_other (by simp [hcode]) (by simp [hcode]), hcode]
    simp

/-! ## `infer_shard_from_bind` -/

/-- A recorded parameter is read, unless it is binary and no integer. -/
def takes (placeholders : List Int) (i : Nat) (f : ParameterFormat) (len : Nat) : Prop :=
  recorded placeholders i ∧ (f = .text ∨ isWidth len = true)

instance (placeholders : List Int) (i : Nat) (f : ParameterFormat) (len : Nat) :
    Decidable (takes placeholders i f len) :=
  inferInstanceAs (Decidable (_ ∧ _))

/-- The parameters from index `i` on, as the loop goes over them: a length word for each, and behind it
the bytes of those it reads.  What follows the last one does not matter. -/
inductive Laid (placeholders : List Int) (formats : ParameterFormats) : Nat → Nat → Bytes → Prop
  | done (i : Nat) (rest : Bytes) : Laid placeholders formats 0 i rest
  | passed {n i : Nat} {f : ParameterFormat} (word : Bytes) {rest : Bytes} (hword : word.length = 4)
      (hformat : formats.get i = some f) (hpassed : ¬takes placeholders i f (beNat word))
      (hrest : Laid placeholders formats n (i + 1) rest) :
      Laid placeholders formats (n + 1) i (word ++ rest)
  | taken {n i : Nat} {f : ParameterFormat} (word value : Bytes) {rest : Bytes} (hword : word.length = 4)
      (hformat : formats.get i = some f) (htaken : takes placeholders i f (beNat word))
      (hvalue : value.length = beNat word) (hrest : Laid placeholders formats n (i + 1) rest) :
      Laid placeholders formats (n + 1) i (word ++ (value ++ rest))

section Layout

variable {placeholders : List Int} {formats : ParameterFormats}

theorem asUsize_word {word : Bytes} (hword : word.length = 4) :
    asUsize (toSigned 32 (beNat word)) = beNat word ∨
      2 ^ 31 ≤ beNat word ∧ 2 ^ 31 ≤ asUsize (toSigned 32 (beNat word)) := by
  have hlt : beNat word < 256 ^ 4 := hword ▸ beNat_lt word
  unfold toSigned
  split
  · left
    rw [asUsize_of_nonneg (by omega) (by omega), Int.toNat_natCast]
  · right
    rw [asUsize_of_neg (by omega) (by omega)]
    omega

theorem readValue_rest (len : Nat) (f : ParameterFormat) (bs : Bytes) :
    (readValue len f bs).map (·.2) =
      if f = .text ∨ isWidth len = true then if len ≤ bs.length then some (bs.drop len) else none
      else some bs := by
  cases f with
  | text =>
    rw [if_pos (.inl rfl), readValue]
    split <;> rfl
  | binary =>
    have hbinary : ParameterFormat.binary = .text ∨ isWidth len = true ↔ isWidth len = true :=
      or_iff_right (by simp)
    have hread : ∀ k, ((getSigned k bs).map fun p => (some p.1, p.2)).map (·.2) =
        if k ≤ bs.length then some (bs.drop k) else none := by
      intro k
      unfold getSigned
      split <;> rfl
    simp only [hbinary]
    by_cases hwidth : isWidth len = true
    · rw [if_pos hwidth, ← hread]
      rcases isWidth_iff.mp hwidth with rfl | rfl | rfl
      all_goals rfl
    · have hnone : ¬(len = 2 ∨ len = 4 ∨ len = 8) := mt isWidth_iff.mpr hwidth
      simp only [not_or] at hnone
      rw [if_neg hwidth, readValue, if_neg hnone.1, if_neg hnone.2.1, if_neg hnone.2.2]
      rfl

theorem readParameter_rest {word bs : Bytes} (hword : word.length = 4) (hbs : bs.length < 2 ^ 31) (i : Nat)
    (f : ParameterFormat) :
    (readParameter placeholders i (asUsize (toSigned 32 (beNat word))) f bs).map (·.2) =
      if takes placeholders i f (beNat word) then
        if beNat word ≤ bs.length then some (bs.drop (beNat word)) else none
      else some bs := by
  unfold readParameter takes
  by_cases hin : recorded placeholders i
  · rw [if_pos hin, readValue_rest]
    simp only [hin, true_and]
    rcases asUsize_word hword with hsame | ⟨hlong, hhuge⟩
    · rw [hsame]
    · -- So long a value is no integer, and no message has the bytes of a text.
      have hwidth : ∀ len, 2 ^ 31 ≤ len → isWidth len = false := by
        intro len hlen
        rw [Bool.eq_false_iff]
        intro h
        rcases isWidth_iff.mp h with rfl | rfl | rfl <;> omega
      rw [hwidth _ hlong, hwidth _ hhuge, if_neg (show ¬asUsize _ ≤ bs.length by omega),
        if_neg (show ¬beNat word ≤ bs.length by omega)]
  · simp [hin]

theorem bindIntegers_succ {word rest : Bytes} (hword : word.length = 4) (n i : Nat) :
    (bindIntegers placeholders formats (n + 1) i (word ++ rest)).isSome = true ↔
      ∃ f, formats.get i = some f ∧ ∃ rest',
        (readParameter placeholders i (asUsize (toSigned 32 (beNat word))) f rest).map (·.2) = some rest' ∧
          (bindIntegers placeholders formats n (i + 1) rest').isSome = true := by
  have hread : getI32 (word ++ rest) = some (toSigned 32 (beNat word), rest) :=
    getSigned_eq_some.mpr ⟨word, hword, rfl, rfl⟩
  rw [bindIntegers, hread, some_bind]
  dsimp only
  cases hf : formats.get i with
  | none => simp
  | some f =>
    simp only [Option.bind_eq_bind, Option.bind_some, Option.some.injEq, exists_eq_left']
    cases hparameter : readParameter placeholders i (asUsize (toSigned 32 (beNat word))) f rest with
    | none => simp
    | some p =>
      obtain ⟨value, rest'⟩ := p
      simp only [Option.bind_some, Option.map_some, Option.some.injEq, exists_eq_left']
      cases bindIntegers placeholders formats n (i + 1) rest' <;> simp

theorem bindIntegers_isSome {n : Nat} : ∀ {i : Nat} {bs : Bytes}, bs.length < 2 ^ 31 →
    ((bindIntegers placeholders formats n i bs).isSome = true ↔ Laid placeholders formats n i bs) := by
  induction n with
  | zero =>
    intro i bs _
    exact iff_of_true rfl (.done i bs)
  | succ n ih =>
    intro i bs hbs
    constructor
    · -- A read that succeeds shows how the bytes are laid out, one parameter at a time.
      intro h
      have hlength : 4 ≤ bs.length := by
        by_contra hshort
        have hread : getI32 bs = none := if_neg hshort
        rw [bindIntegers, hread] at h
        cases h
      have hword : (bs.take 4).length = 4 := List.length_take_of_le hlength
      have hrest : (bs.drop 4).length < 2 ^ 31 := by
        rw [List.length_drop]
        omega
      rw [← List.take_append_drop 4 bs, bindIntegers_succ hword] at h
      obtain ⟨f, hf, rest', hparameter, hmore⟩ := h
      rw [readParameter_rest hword hrest] at hparameter
      rw [← List.take_append_drop 4 bs]
      split at hparameter
      · rename_i htakes
        split at hparameter
        · rename_i henough
          cases hparameter
          have hlaid := (ih (by rw [List.length_drop]; omega)).mp hmore
          have htaken := Laid.taken (bs.take 4) ((bs.drop 4).take (beNat (bs.take 4))) hword hf htakes
            (List.length_take_of_le henough) hlaid
          rwa [List.take_append_drop] at htaken
        · cases hparameter
      · rename_i hpassed
        cases hparameter
        exact .passed _ hword hf hpassed ((ih hrest).mp hmore)
    · -- Conversely every parameter of the layout is read, or passed over with its length.
      intro h
      cases h with
      | passed word hword hformat hpassed hrest =>
        rw [List.length_append] at hbs
        rw [bindIntegers_succ hword]
        refine ⟨_, hformat, _, ?_, (ih (by omega)).mpr hrest⟩
        rw [readParameter_rest hword (by omega), if_neg hpassed]
      | @taken _ _ _ word value rest hword hformat htaken hvalue hrest =>
        rw [List.length_append, List.length_append] at hbs
        rw [bindIntegers_succ hword]
        refine ⟨_, hformat, rest, ?_, (ih (by omega)).mpr hrest⟩
        rw [readParameter_rest hword (by rw [List.length_append]; omega), if_pos htaken,
          if_pos (by rw [List.length_append]; omega), ← hvalue, List.drop_left]

end Layout

/-! ### Format codes -/

theorem readFormat_eq_some {rest : Bytes} {f : ParameterFormat} :
    readFormat bs = some (f, rest) ↔ bs = formatBytes f ++ rest := by
  constructor
  · intro h
    obtain ⟨⟨code, bs₁⟩, hread, h⟩ := Option.bind_eq_some_iff.mp h
    obtain ⟨word, hword, rfl, rfl⟩ := getSigned_eq_some.mp hread
    have hlt : beNat word < 256 ^ 2 := hword ▸ beNat_lt word
    have hback : beBytes 2 (beNat word) = word := hword ▸ beBytes_beNat word
    dsimp only at h
    split at h
    · rename_i hzero
      cases h
      have hvalue : beNat word = 0 := by
        unfold toSigned at hzero
        split at hzero <;> omega
      rw [← hback, hvalue]
      rfl
    · split at h
      · rename_i hone
        cases h
        have hvalue : beNat word = 1 := by
          unfold toSigned at hone
          split at hone <;> omega
        rw [← hback, hvalue]
        rfl
      · cases h
  · rintro rfl
    exact readFormat_formatBytes f rest

theorem readFormatList_eq_some {n : Nat} : ∀ {bs rest : Bytes} {fs : List ParameterFormat},
    readFormatList n bs = some (fs, rest) → fs.length = n ∧ bs = fs.flatMap formatBytes ++ rest := by
  induction n with
  | zero =>
    intro bs rest fs h
    cases h
    exact ⟨rfl, rfl⟩
  | succ n ih =>
    intro bs rest fs h
    obtain ⟨⟨f, bs₁⟩, hf, h⟩ := Option.bind_eq_some_iff.mp h
    obtain ⟨⟨fs₁, bs₂⟩, hfs, h⟩ := Option.bind_eq_some_iff.mp h
    cases h
    obtain ⟨hlength, rfl⟩ := ih hfs
    rw [readFormat_eq_some.mp hf, List.flatMap_cons, List.append_assoc]
    exact ⟨congrArg Nat.succ hlength, rfl⟩

theorem readFormats_eq_some {rest : Bytes} :
    readFormats bs = some (formats, rest) ↔ ∃ codes : List ParameterFormat, codes.length < 2 ^ 15 ∧
      formats = .ofCodes codes ∧ bs = beBytes 2 codes.length ++ (codes.flatMap formatBytes ++ rest) := by
  constructor
  · intro h
    obtain ⟨⟨n, bs₁⟩, hread, hrest⟩ := Option.bind_eq_some_iff.mp h
    obtain ⟨word, hword, rfl, hn⟩ := getSigned_eq_some.mp hread
    have hlt : beNat word < 256 ^ 2 := hword ▸ beNat_lt word
    have hback : beBytes 2 (beNat word) = word := hword ▸ beBytes_beNat word
    -- A count that is not negative is the value of its word.
    have hcount : 0 ≤ n → n = beNat word ∧ beNat word < 2 ^ 15 := by
      intro hpos
      rw [hn] at hpos ⊢
      unfold toSigned at hpos ⊢
      split
      · exact ⟨rfl, by assumption⟩
      · split at hpos <;> omega
    dsimp only at hrest
    split at hrest
    · rename_i hzero
      cases hrest
      have hvalue : beNat word = 0 := by
        have hsame := hcount (by omega)
        omega
      exact ⟨[], by decide, rfl, by rw [← hback, hvalue]; rfl⟩
    split at hrest
    · rename_i hone
      obtain ⟨⟨f, bs₂⟩, hf, hlast⟩ := Option.bind_eq_some_iff.mp hrest
      cases hlast
      have hvalue : beNat word = 1 := by
        have hsame := hcount (by omega)
        omega
      refine ⟨[f], by simp, rfl, ?_⟩
      rw [readFormat_eq_some.mp hf, ← hback, hvalue, List.flatMap_singleton]
      rfl
    split at hrest
    · cases hrest
    · rename_i hzero hone hneg
      obtain ⟨⟨fs, bs₂⟩, hfs, hlast⟩ := Option.bind_eq_some_iff.mp hrest
      cases hlast
      obtain ⟨hsame, hsmall⟩ := hcount (by omega)
      obtain ⟨hlength, rfl⟩ := readFormatList_eq_some hfs
      have hvalue : fs.length = beNat word := by omega
      refine ⟨fs, by omega, ?_, by rw [hvalue, hback]⟩
      match fs with
      | [] | [_] => simp only [List.length_nil, List.length_singleton] at hvalue; omega
      | _ :: _ :: _ => rfl
  · rintro ⟨codes, hlength, rfl, rfl⟩
    exact readFormats_append hlength rest

/-! ### The message -/

/-- The layout of a `Bind` message that is read to its last parameter.  A negative number of parameters
is none. -/
def Bindable (placeholders : List Int) (payload : Bytes) : Prop :=
  ∃ (portal name : Bytes) (codes : List ParameterFormat) (count : Nat) (values : Bytes),
    0 ∉ portal ∧ 0 ∉ name ∧ codes.length < 2 ^ 15 ∧ count < 2 ^ 16 ∧
      payload = portal ++ 0 :: (name ++ 0 :: (beBytes 2 codes.length ++
        (codes.flatMap formatBytes ++ (beBytes 2 count ++ values)))) ∧
      (count < 2 ^ 15 → Laid placeholders (.ofCodes codes) count 0 values)

theorem bindShards_isSome (hshards : 0 < r.poolSettings.shards) {n : Nat} (hbs : bs.length < 2 ^ 31) :
    (bindShards ext r formats n 0 [] bs).isSome = true ↔ Laid r.placeholders formats n 0 bs := by
  have hloop := @bindShards_eq ext r formats n 0 [] bs
  have hinsert : ∀ vs, (insertShards ext r [] vs).isSome = true := by
    intro vs
    obtain ⟨out, hout, -⟩ := @insertShards_eq_some ext r hshards vs [] List.nodup_nil
    rw [hout]
    rfl
  rw [← bindIntegers_isSome hbs, ← Option.isSome_map (f := fun p => p.1), hloop]
  cases bindIntegers r.placeholders formats n 0 bs with
  | none => rfl
  | some out => exact iff_of_true (hinsert out.1) rfl

theorem bindHeader_eq_some {payload values : Bytes} {n : Nat}
    (h : bindHeader payload = some ((formats, n), values)) :
    ∃ (portal name : Bytes) (codes : List ParameterFormat) (count : Nat),
      0 ∉ portal ∧ 0 ∉ name ∧ codes.length < 2 ^ 15 ∧ count < 2 ^ 16 ∧
        payload = portal ++ 0 :: (name ++ 0 :: (beBytes 2 codes.length ++
          (codes.flatMap formatBytes ++ (beBytes 2 count ++ values)))) ∧
        formats = .ofCodes codes ∧ n = (toSigned 16 count).toNat := by
  simp only [bindHeader, Option.bind_eq_bind, Option.bind_eq_some_iff] at h
  obtain ⟨⟨portal, bs₁⟩, hportal, ⟨name, bs₂⟩, hname, ⟨formats, bs₃⟩, hformats, ⟨count, bs₄⟩, hcount, h⟩ := h
  cases h
  obtain ⟨codes, hcodes, rfl, rfl⟩ := readFormats_eq_some.mp hformats
  obtain ⟨word, hword, rfl, rfl⟩ := getSigned_eq_some.mp hcount
  have hlt : beNat word < 256 ^ 2 := hword ▸ beNat_lt word
  have hback : beBytes 2 (beNat word) = word := hword ▸ beBytes_beNat word
  -- Each text is followed by something, so it ends with its NUL.
  have htext : ∀ {bs rest : Bytes} {text : String}, readString bs = some (text, rest) → rest ≠ [] →
      ∃ text' : Bytes, 0 ∉ text' ∧ bs = text' ++ 0 :: rest := by
    intro bs rest text hread hne
    rw [readString_eq] at hread
    split at hread
    · cases hread
    · cases hread
      exact behindText_eq hne
  obtain ⟨name', hname', rfl⟩ := htext hname (by simp [beBytes])
  obtain ⟨portal', hportal', rfl⟩ := htext hportal (by simp)
  exact ⟨portal', name', codes, beNat word, hportal', hname', hcodes, by omega, by rw [hback], rfl, rfl⟩

theorem length_of_bindHeader {payload values : Bytes} {header : ParameterFormats × Nat}
    (h : bindHeader payload = some (header, values)) : values.length ≤ payload.length := by
  obtain ⟨_, _, _, _, -, -, -, -, rfl, -⟩ := bindHeader_eq_some h
  simp only [List.length_append, List.length_cons]
  omega

theorem bindable_iff {placeholders : List Int} {payload : Bytes} :
    Bindable placeholders payload ↔ ∃ formats n values,
      bindHeader payload = some ((formats, n), values) ∧ Laid placeholders formats n 0 values := by
  constructor
  · rintro ⟨portal, name, codes, count, values, hportal, hname, hcodes, hcount, rfl, hlaid⟩
    refine ⟨_, _, values, bindHeader_append hportal hname hcodes hcount values, ?_⟩
    by_cases hsmall : count < 2 ^ 15
    · rw [toSigned_count hsmall, Int.toNat_natCast]
      exact hlaid hsmall
    · have hneg := toSigned_count_neg (Nat.le_of_not_lt hsmall) hcount
      rw [Int.toNat_of_nonpos (by omega)]
      exact .done 0 values
  · rintro ⟨formats, n, values, hheader, hlaid⟩
    obtain ⟨portal, name, codes, count, hportal, hname, hcodes, hcount, rfl, rfl, rfl⟩ :=
      bindHeader_eq_some hheader
    refine ⟨portal, name, codes, count, values, hportal, hname, hcodes, hcount, rfl, fun hsmall => ?_⟩
    rwa [toSigned_count hsmall, Int.toNat_natCast] at hlaid

theorem inferShardFromBind_other (hframed : Framed m) (hcode : m.frontend = .query ∨ m.frontend = .parse) :
    r.inferShardFromBind ext m.bytes = some (r, false) := by
  have hchar : Char.ofUInt8 m.code ≠ 'B' := by
    rcases hcode with hcode | hcode
    · rw [Message.char_of_query hcode]
      decide
    · rw [Message.char_of_parse hcode]
      decide
  unfold inferShardFromBind
  rw [Message.getU8_bytes]
  simp [hframed.getI32, hchar]

theorem inferShardFromBind_isSome (hshards : 0 < r.poolSettings.shards) (hframed : Framed m)
    (hcode : m.frontend = .query ∨ m.frontend = .parse ∨ m.frontend = .bind) :
    (r.inferShardFromBind ext m.bytes).isSome = true ↔
      (m.frontend = .bind → r.placeholders ≠ [] → Bindable r.placeholders m.payload) := by
  have hlength : m.payload.length < 2 ^ 31 := by
    unfold Framed at hframed
    omega
  by_cases hbind : m.frontend = .bind
  · by_cases hrecorded : r.placeholders = []
    · rw [inferShardFromBind_nil ext hrecorded hframed]
      exact iff_of_true rfl fun _ h => absurd hrecorded h
    · simp only [hbind, hrecorded, ne_eq, not_false_eq_true, forall_const]
      rw [inferShardFromBind_framed ext hrecorded hframed (Message.char_of_bind hbind), bindable_iff]
      constructor
      · intro h
        obtain ⟨out, h⟩ := Option.isSome_iff_exists.mp h
        obtain ⟨⟨⟨formats, n⟩, values⟩, hheader, h⟩ := Option.bind_eq_some_iff.mp h
        obtain ⟨shards, hloop, -⟩ := Option.map_eq_some_iff.mp h
        have hlaid := (bindShards_isSome hshards ((length_of_bindHeader hheader).trans_lt hlength)).mp
          (Option.isSome_iff_exists.mpr ⟨_, hloop⟩)
        exact ⟨formats, n, values, hheader, hlaid⟩
      · rintro ⟨formats, n, values, hheader, hlaid⟩
        rw [hheader, Option.bind_some, Option.isSome_map]
        exact (bindShards_isSome hshards ((length_of_bindHeader hheader).trans_lt hlength)).mpr hlaid
  · rw [inferShardFromBind_other hframed (by tauto)]
    exact iff_of_true rfl fun h => absurd h hbind

end QueryRouter

namespace Sample

theorem shardedSettings_validated : shardedSettings.Validated where
  key k hk := by
    cases hk
    decide
  shards := by decide

def arrived (m : Message) : Socket := ⟨m.bytes, [], []⟩

def drained : Socket := ⟨[], [], []⟩

theorem read_arrived {m : Message} (h : m.bytes.length ≤ 2 ^ 31) :
    Auth.readMessage true (arrived m) = .ok m.bytes drained :=
  Auth.readMessage_frame (Auth.frame_of_length h) _ (List.append_nil _).symm

/-- A `Query` without payload. -/
def emptyQuery : Message := .ofChar 'Q' []

/-- A number beyond 64 bits. -/
def hugeShard : Message := simpleQuery "SET SHARD TO '99999999999999999999'"

/-- A `Bind` that announces the format code 2. -/
def unknownFormat : Message := .ofChar 'B' [0, 0, 0, 1, 0, 2, 0, 0]

end Sample

end PgCat.Router
