import PgCat.Router.Comments
import PgCat.Router.KeyCommand

/-!
# Carriers — the messages that carry a sharding key

A key reaches the router as the parameter of a `Bind`, as the command `SET SHARDING KEY`, in a comment
or as a literal of a query.  A `Carrier` is such a message, `Carrier.Selects` says that processing it
leaves the router on a given shard whichever shard was active before, and `Carrier.Undisturbed` is when
that shard is the one of the key.  Comments come first: a shard id beats a sharding key, and looking for
a comment moves the cursor by four bytes, so that the command behind it is read without its first word.
-/

namespace PgCat.Router

open Lib Protocol Config Sharding QueryRouter

namespace QueryRouter

variable {ext : Externals} {r : QueryRouter} {rand : Nat}

/-! ## Comments -/

def commentShard (ext : Externals) (r : QueryRouter) (m : Message) : Option Nat :=
  (commentValue r.poolSettings.shardIdRegex parseUsize (r.segment m)).or
    ((commentValue r.poolSettings.shardingKeyRegex parseI64 (r.segment m)).bind
      (r.sharder.shard ext.sha1Digest))

theorem shardComment_segment (hshards : 0 < r.poolSettings.shards) (m : Message) :
    r.shardComment ext (r.segment m) = some ((r.commentShard ext m).map r.setShard) :=
  shardComment_eq hshards (r.segment m)

theorem commentShard_of_not_searched {m : Message} (hcode : Char.ofUInt8 m.code = 'Q')
    (hsearched : ¬r.searched m.code) : r.commentShard ext m = none := by
  have hnone : r.poolSettings.shardIdRegex = none ∧ r.poolSettings.shardingKeyRegex = none := by
    simpa [searched, hcode, not_or] using hsearched
  simp [commentShard, commentValue, hnone]

theorem tryExecuteCommand_of_comment (hshards : 0 < r.poolSettings.shards) {m : Message}
    (hframed : Framed m) (hpayload : m.payload ≠ []) (hsearched : r.searched m.code) {s : Nat}
    (hcomment : r.commentShard ext m = some s) :
    r.tryExecuteCommand ext rand m.bytes = some (r.setShard s, none) := by
  unfold tryExecuteCommand
  rw [Message.getU8_bytes, some_bind]
  dsimp only
  rw [searchComment_bytes hframed hpayload hsearched, shardComment_segment hshards, hcomment]
  rfl

/-! ## The command -/

theorem zero_notMem_text (k : KeyCommand) : 0 ∉ utf8 k.text :=
  zero_notMem_utf8 (by simpa [KeyCommand.text] using k.chars_ne_nul)

theorem payload_ne_nil (k : KeyCommand) : k.message.payload ≠ [] := by
  have hpayload : k.message.payload = utf8 k.text ++ [0] := rfl
  simp [hpayload]

theorem searched_iff_searching (k : KeyCommand) : r.searched k.message.code ↔ r.searching :=
  ⟨And.right, fun h => ⟨.inr rfl, h⟩⟩

/-- Without a comment to look for, the command is read as it was written. -/
theorem tryExecuteCommand_of_not_searched {k : KeyCommand} {s : Nat} (hframed : Framed k.message)
    (hn : k.n < 2 ^ 63) (hs : r.sharder.shard ext.sha1Digest k.n = some s)
    (hsearched : ¬r.searched k.message.code) :
    r.tryExecuteCommand ext rand k.message.bytes =
      some (r.setShard s, some (.setShardingKey, toString s)) := by
  have hquery := r.tryExecuteCommand_query ext rand (zero_notMem_text k) hframed
  rw [if_neg (mt (searched_iff_searching k).mpr hsearched), fromUtf8Lossy_utf8] at hquery
  exact hquery.trans (customCommand_text hn hs)

theorem tryExecuteCommand_of_searched (hshards : 0 < r.poolSettings.shards) {k : KeyCommand}
    (hframed : Framed k.message) (hsearched : r.searched k.message.code)
    (hcomment : r.commentShard ext k.message = none) :
    r.tryExecuteCommand ext rand k.message.bytes =
      r.customCommand ext rand (String.ofList (k.chars.drop 4)) := by
  have hquery := r.tryExecuteCommand_query ext rand (zero_notMem_text k) hframed
  have hsegment : r.shardComment ext (r.segment (queryMessage (utf8 k.text))) = some none :=
    (shardComment_segment hshards k.message).trans (by rw [hcomment]; rfl)
  rw [if_pos ((searched_iff_searching k).mp hsearched), hsegment, Option.bind_some, lostCommand,
    if_pos k.length_text, k.drop_text, fromUtf8Lossy_utf8] at hquery
  exact hquery

end QueryRouter

/-! ## Carriers -/

inductive Carrier
  | bind (b : BindMessage)
  | command (k : KeyCommand)
  | comment (m : Message)
  | literal (m : Message)

namespace Carrier

/-- The message carries the key `v` to a router in the given state: as the only parameter of a `Bind`
after `$1` was recorded, in the command, in a comment the configured expression captures, or as the
literal of `SELECT … FROM table WHERE key = literal` over the automatic sharding key. -/
inductive Carries (ext : Externals) (r : QueryRouter) (v : Int) : Carrier → Prop
  | bind {b : BindMessage} {value : Bytes} {format : ParameterFormat} (hframed : Framed b.message)
      (hrecorded : recorded r.placeholders 0) (hvalue : b.values = [some value])
      (hformat : b.formats.get 0 = some format)
      (hencodes : Encodes v value format) : Carries ext r v (.bind b)
  | command {k : KeyCommand} (hframed : Framed k.message) (hv : v = k.n) :
      Carries ext r v (.command k)
  | comment {m : Message} {regex : Regex} {text : String} (hframed : Framed m)
      (hpayload : m.payload ≠ []) (hcode : m.frontend = .parse ∨ m.frontend = .query)
      (hregex : r.poolSettings.shardingKeyRegex = some regex)
      (hcaptured : regex.captures (r.segment m) = some (some text)) (hv : 0 ≤ v)
      (hnumeral : Numeral v text.toList) : Carries ext r v (.comment m)
  | literal {m : Message} {sharding table key query text : String} {schema : Option Ident}
      {ctes : List Query} {locks : List LockType} {column : Operand} {n : Nat}
      (hsharding : r.poolSettings.automaticShardingKey = some sharding)
      (hsplit : splitKey sharding = [table, key]) (hcolumn : column.isColumn key = true)
      (hn : parseNat text.toList = some n) (hv : v = n)
      (hquery : sqlText m.bytes = some (some query))
      (hparsed : ext.parseSql query = some [.query (selectFrom ctes locks schema table
        (.compare column .eq (.literal text n hn)))]) : Carries ext r v (.literal m)

def run (ext : Externals) (rand : Nat) (r : QueryRouter) : Carrier → Option QueryRouter
  | .bind b => (r.inferShardFromBind ext b.message.bytes).map (·.1)
  | .command k => (r.tryExecuteCommand ext rand k.message.bytes).map (·.1)
  | .comment m => (r.tryExecuteCommand ext rand m.bytes).map (·.1)
  | .literal m => (r.infer ext m.bytes).map (·.1)

def Selects (ext : Externals) (rand : Nat) (r : QueryRouter) (c : Carrier) (s : Nat) : Prop :=
  ∀ before : Option Nat,
    (c.run ext rand { r with activeShard := before }).map (·.activeShard) = some (some s)

/-- Nothing in the message keeps the key from selecting the shard `s`: a comment next to the key asks
for no other shard, and a command is not preceded by a search for comments, unless it finds the shard
or there are four blanks to lose. -/
def Undisturbed (ext : Externals) (r : QueryRouter) (s : Nat) : Carrier → Prop
  | .bind _ => True
  | .command k =>
    r.commentShard ext k.message = some s ∨
      r.commentShard ext k.message = none ∧ (¬r.searched k.message.code ∨ 4 ≤ k.lead)
  | .comment m =>
    ∀ id, commentValue r.poolSettings.shardIdRegex parseUsize (r.segment m) = some id →
      id = s
  | .literal _ => True

section Outcome

variable {ext : Externals} {r : QueryRouter} {rand : Nat} {v : Int} {s : Nat}
  (hshards : 0 < r.poolSettings.shards) (hv : InI64 v)
  (hs : r.sharder.shard ext.sha1Digest v = some s)
include hshards hv hs

theorem bind_outcome {b : BindMessage} (h : Carries ext r v (.bind b)) :
    ((Carrier.bind b).run ext rand r).map (·.activeShard) = some (some s) := by
  cases h with
  | @bind _ value format hframed hrecorded hvalue hformat hencodes =>
    have hstraight : b.straight r.placeholders = true := by
      have hlast : straightFrom r.placeholders b.formats 0 [some value] = true := by
        cases format with
        | text | binary => simp [straightFrom, hformat]
      rw [BindMessage.straight, hvalue, hlast]
      rfl
    have hintegers : b.integers r.placeholders = [v] := by
      rw [BindMessage.integers, hvalue]
      simp [integersFrom, hrecorded, hformat, decode_of_encodes hencodes, hv]
    have hshard : commonShard ext r [v] = some s := by
      simp [commonShard, hs, onlyShard]
    rw [run, inferShardFromBind_straight ext hframed hstraight, hintegers,
      hashed_of_pos hshards, Option.map_some, hshard]
    rfl

theorem command_outcome {k : KeyCommand} (h : Carries ext r v (.command k)) :
    ((Carrier.command k).run ext rand r).map (·.activeShard) =
      some (((r.commentShard ext k.message).or
        (if ¬r.searched k.message.code ∨ 4 ≤ k.lead then some s else none)).or r.activeShard) := by
  cases h with
  | command hframed hvn =>
    have hn : k.n < 2 ^ 63 := by
      have := hv.2
      omega
    rw [hvn] at hs
    rw [run]
    by_cases hsearched : r.searched k.message.code
    · cases hcomment : r.commentShard ext k.message with
      | some id =>
        rw [tryExecuteCommand_of_comment hshards hframed
          (payload_ne_nil k) hsearched hcomment]
        rfl
      | none =>
        rw [tryExecuteCommand_of_searched hshards hframed hsearched hcomment]
        by_cases hlead : 4 ≤ k.lead
        · have htext : String.ofList (k.chars.drop 4) = { k with lead := k.lead - 4 }.text := by
            rw [k.drop_chars_of_le hlead]
            rfl
          rw [htext, customCommand_text (k := { k with lead := k.lead - 4 }) hn hs,
            if_pos (.inr hlead)]
          rfl
        · -- The first word is lost, and the shard stays what it was.
          rw [customCommand_of_lost (by omega),
            if_neg (fun h => h.elim (· hsearched) hlead)]
          rfl
    · have hnone : r.commentShard ext k.message = none :=
        commentShard_of_not_searched rfl hsearched
      rw [tryExecuteCommand_of_not_searched hframed hn hs hsearched, hnone,
        if_pos (.inl hsearched)]
      rfl

theorem comment_outcome {m : Message} (h : Carries ext r v (.comment m)) :
    ((Carrier.comment m).run ext rand r).map (·.activeShard) =
      some (((commentValue r.poolSettings.shardIdRegex parseUsize (r.segment m)).or
        (some s)).or r.activeShard) := by
  cases h with
  | @comment _ regex text hframed hpayload hcode hregex hcaptured _ hnumeral =>
    have hsearched : r.searched m.code := by
      refine ⟨?_, .inr (by rw [hregex]; rfl)⟩
      rcases hcode with hcode | hcode
      · exact .inl (Message.char_of_parse hcode)
      · exact .inr (Message.char_of_query hcode)
    have hkey : commentValue r.poolSettings.shardingKeyRegex parseI64 (r.segment m) =
        some v := by
      simp [commentValue, hregex, hcaptured, parseI64_of_numeral hnumeral, hv]
    -- The id, if there is one, comes before the key.
    have hcomment : r.commentShard ext m =
        (commentValue r.poolSettings.shardIdRegex parseUsize (r.segment m)).or (some s) := by
      rw [commentShard, hkey, Option.bind_some, hs]
    obtain ⟨id, hid⟩ : ∃ id, r.commentShard ext m = some id := by
      rw [hcomment]
      cases commentValue r.poolSettings.shardIdRegex parseUsize (r.segment m) with
      | none => exact ⟨s, rfl⟩
      | some id => exact ⟨id, rfl⟩
    rw [run, tryExecuteCommand_of_comment hshards hframed hpayload hsearched hid,
      ← hcomment, hid]
    rfl

theorem literal_outcome {m : Message} (h : Carries ext r v (.literal m)) :
    ((Carrier.literal m).run ext rand r).map (·.activeShard) = some (some s) := by
  cases h with
  | @literal _ sharding table key query text schema ctes locks column n hsharding hsplit hcolumn hn
      hvn hquery hparsed =>
      have hkeys : (Where.compare column .eq (.literal text n hn)).keys key = [v] := by
        have hle : n ≤ 2 ^ 63 - 1 := by
          have := hv.2
          omega
        rw [Where.keys, keyOf, if_pos ⟨hcolumn, hle⟩, hvn]
        rfl
      have hinfer := (inferShard_eq_some_iff ext hshards hsharding hsplit ctes locks schema
        (.compare column .eq (.literal text n hn)) r s).mpr ⟨rfl, by simp [hkeys], by simp [hkeys, hs]⟩
      have hselect : selectShard ext r
          (selectFrom ctes locks schema table (.compare column .eq (.literal text n hn))) =
            some (r.setShard s) := by
        rw [selectShard, hsharding, hinfer]
        rfl
      simp [run, infer, hquery, hparsed, inferStatements,
        inferQuery, hselect, setShard]

end Outcome

end Carrier

theorem Carrier.Carries.before {ext : Externals} {r : QueryRouter} {v : Int} {c : Carrier}
    (h : c.Carries ext r v) (before : Option Nat) :
    c.Carries ext { r with activeShard := before } v := by
  cases h with
  | bind hframed hrecorded hvalue hformat hencodes =>
    exact .bind hframed hrecorded hvalue hformat hencodes
  | command hframed hv => exact .command hframed hv
  | comment hframed hpayload hcode hregex hcaptured hv hnumeral =>
    exact .comment hframed hpayload hcode hregex hcaptured hv hnumeral
  | literal hsharding hsplit hcolumn hn hv hquery hparsed =>
    exact .literal hsharding hsplit hcolumn hn hv hquery hparsed

theorem Carrier.selects_iff {ext : Externals} {rand : Nat} {r : QueryRouter} {c : Carrier}
    {found : Option Nat} {s : Nat}
    (h : ∀ before, (c.run ext rand { r with activeShard := before }).map (·.activeShard) =
      some (found.or before)) : c.Selects ext rand r s ↔ found = some s := by
  constructor
  · intro hselects
    have hnone := (h none).symm.trans (hselects none)
    rwa [Option.or_none, Option.some.injEq] at hnone
  · rintro rfl before
    exact h before

/-- On every way a key takes to the router it selects its shard, exactly if the message is
undisturbed. -/
theorem key_selects_shard_iff (ext : Externals) (rand : Nat) (r : QueryRouter) (v : Int)
    (hshards : 0 < r.poolSettings.shards) (hv : InI64 v) :
    ∃ s, r.sharder.shard ext.sha1Digest v = some s ∧ s < r.poolSettings.shards ∧
      ∀ c : Carrier, c.Carries ext r v →
        (c.Selects ext rand r s ↔ c.Undisturbed ext r s) := by
  obtain ⟨s, hs⟩ := Sharder.shard_isSome ext.sha1Digest (s := r.sharder) hshards v
  refine ⟨s, hs, Sharder.shard_lt _ hs, ?_⟩
  intro c hc
  cases c with
  | bind b =>
    refine iff_of_true ?_ trivial
    intro before
    exact Carrier.bind_outcome (r := { r with activeShard := before }) hshards hv hs (hc.before before)
  | literal m =>
    refine iff_of_true ?_ trivial
    intro before
    exact Carrier.literal_outcome (r := { r with activeShard := before }) hshards hv hs
      (hc.before before)
  -- A comment in front of the command wins over its key, and the search for one eats four bytes.
  | command k =>
    have hfound : ∀ before,
        ((Carrier.command k).run ext rand { r with activeShard := before }).map (·.activeShard) =
          some (((r.commentShard ext k.message).or
            (if ¬r.searched k.message.code ∨ 4 ≤ k.lead then some s else none)).or before) :=
      fun before => Carrier.command_outcome (r := { r with activeShard := before }) hshards hv hs
        (hc.before before)
    rw [Carrier.selects_iff hfound, Carrier.Undisturbed]
    cases r.commentShard ext k.message with
    | none => simp [imp_iff_not_or]
    | some id => simp
  -- A shard that is named in a comment wins over a key.
  | comment m =>
    have hfound : ∀ before,
        ((Carrier.comment m).run ext rand { r with activeShard := before }).map (·.activeShard) =
          some (((commentValue r.poolSettings.shardIdRegex parseUsize
            (r.segment m)).or (some s)).or before) :=
      fun before => Carrier.comment_outcome (r := { r with activeShard := before }) hshards hv hs
        (hc.before before)
    rw [Carrier.selects_iff hfound, Carrier.Undisturbed]
    cases commentValue r.poolSettings.shardIdRegex parseUsize (r.segment m) with
    | none => simp
    | some id => simp

namespace Sample

/-- Two shards, and a comment expression that matches no text. -/
def searchingSettings : PoolSettings :=
  { shardedSettings with shardingKeyRegex := some ⟨fun _ => none⟩ }

def searchingRouter : QueryRouter :=
  { new with poolSettings := searchingSettings }

def setKeyFive : KeyCommand where
  lead := 0
  words := Command.setShardingKey.words.toList
  openQuote := false
  digits := ['5']
  closeQuote := false
  blanks := 0
  semicolon := false
  trail := 0
  n := 5
  spelled := rfl
  reads := by decide

/-- The command is taken for a query of the text `SHARDING KEY TO 5`. -/
theorem command_not_recognised :
    (Carrier.command setKeyFive).Carries noExternals searchingRouter 5 ∧
      searchingRouter.sharder.shard noExternals.sha1Digest 5 = some 1 ∧
      ¬(Carrier.command setKeyFive).Selects noExternals 0 searchingRouter 1 := by
  refine ⟨.command (by decide) rfl, by decide, ?_⟩
  intro h
  have hnone := h none
  revert hnone
  decide +kernel

/-- Without a comment to look for, the command selects the shard of 5. -/
theorem command_selects :
    (Carrier.command setKeyFive).Carries noExternals shardedRouter 5 ∧
      ∃ s, shardedRouter.sharder.shard noExternals.sha1Digest 5 = some s ∧
        (Carrier.command setKeyFive).Selects noExternals 0 shardedRouter s := by
  have hcarries : (Carrier.command setKeyFive).Carries noExternals shardedRouter 5 :=
    .command (by decide) rfl
  obtain ⟨s, hs, -, hall⟩ := key_selects_shard_iff noExternals 0 shardedRouter 5 (by decide) (by decide)
  refine ⟨hcarries, s, hs, (hall _ hcarries).mpr ?_⟩
  exact .inr ⟨rfl, .inl (by decide)⟩

end Sample

end PgCat.Router
