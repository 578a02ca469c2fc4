import PgCat.Router.BindMessage
import PgCat.Router.Spelling

/-!
# Comments — the search for shard comments

With a comment expression configured, the router searches the beginning of a query before it looks for a
command.  The search is meant to cover the first `regex_search_limit` bytes of the text and to leave the
command alone.  What it covers is the beginning of the message, so that the five bytes of code and length
take the place of the last five of the text, and it reads the length word the command is read behind, so
that the command is looked for in the text without its first four bytes.
-/

namespace PgCat.Router

open Lib Protocol Config Sharding QueryRouter

def queryMessage (text : Bytes) : Message :=
  .ofChar 'Q' (text ++ [0])

namespace QueryRouter

variable {ext : Externals} {r : QueryRouter} {rand : Nat} {text : Bytes}

/-- The text searched for a comment: the code and the length word are part of it. -/
def segment (r : QueryRouter) (m : Message) : String :=
  fromUtf8Lossy (m.bytes.take (min (m.payload.length - 1) r.poolSettings.regexSearchLimit))

theorem initialSegment_bytes {m : Message} (hframed : Framed m) (hpayload : m.payload ≠ []) (checks : Bool) :
    r.initialSegment checks m.bytes (m.payload.length + 4) = some (r.segment m) := by
  have hpos := List.length_pos_iff.mpr hpayload
  have hsub : subUsize checks (asUsize ((m.payload.length : Int) + 4)) 5 = some (m.payload.length - 1) := by
    rw [hframed.asUsize, subUsize, if_pos (by omega)]
    rfl
  unfold initialSegment
  rw [hsub, some_bind]
  dsimp only
  rw [if_pos (by rw [length_bytes]; omega)]
  rfl

theorem tryExecuteCommand_other {m : Message} (hquery : m.frontend ≠ .query) (hparse : m.frontend ≠ .parse) :
    r.tryExecuteCommand ext rand m.bytes = some (r, none) := by
  have hne : Char.ofUInt8 m.code ≠ 'Q' := by
    intro h
    rw [Message.frontend, h] at hquery
    exact hquery rfl
  have hne' : Char.ofUInt8 m.code ≠ 'P' := by
    intro h
    rw [Message.frontend, h] at hparse
    exact hparse rfl
  have hsearched : ¬r.searched m.code := fun h => h.1.elim hne' hne
  unfold tryExecuteCommand searchComment queryCommand
  rw [Message.getU8_bytes, some_bind]
  dsimp only
  rw [if_neg hsearched, some_bind]
  dsimp only
  rw [if_pos hne]

theorem searchComment_bytes {m : Message} (hframed : Framed m) (hpayload : m.payload ≠ [])
    (hsearched : r.searched m.code) :
    r.searchComment ext m.bytes m.code (putI32 (m.payload.length + 4) ++ m.payload) =
      (r.shardComment ext (r.segment m)).map fun commented => (commented, m.payload) := by
  unfold searchComment
  rw [if_pos hsearched, hframed.getI32 m.payload, some_bind]
  dsimp only
  rw [initialSegment_bytes hframed hpayload, some_bind]
  cases r.shardComment ext (r.segment m) with
  | none => rfl
  | some commented => rfl

/-- Is a comment expression configured? -/
def searching (r : QueryRouter) : Prop :=
  r.poolSettings.shardIdRegex.isSome ∨ r.poolSettings.shardingKeyRegex.isSome

instance (r : QueryRouter) : Decidable r.searching :=
  inferInstanceAs (Decidable (_ ∨ _))

/-- What becomes of a command after a search: its text is read without the first four bytes. -/
def lostCommand (ext : Externals) (r : QueryRouter) (rand : Nat) (text : Bytes) :
    Option (QueryRouter × Option (Command × String)) :=
  if 4 ≤ text.length then r.customCommand ext rand (fromUtf8Lossy (text.drop 4)) else none

theorem queryCommand_lost (hzero : 0 ∉ text) :
    r.queryCommand ext rand (queryMessage text).code (text ++ [0]) = r.lostCommand ext rand text := by
  have hcode : Char.ofUInt8 (queryMessage text).code = 'Q' := rfl
  unfold queryCommand lostCommand
  rw [if_neg (fun h => h hcode)]
  by_cases hlength : 4 ≤ text.length
  · have hword : getI32 (text ++ [0]) =
        some (toSigned 32 (beNat ((text ++ [0]).take 4)), text.drop 4 ++ [0]) := by
      rw [getI32, getSigned, if_pos (by rw [List.length_append]; omega), List.drop_append_of_le_length hlength]
    have hread : readString (text.drop 4 ++ [0]) = some (fromUtf8Lossy (text.drop 4), []) :=
      readString_append (fun h => hzero (List.mem_of_mem_drop h)) []
    rw [if_pos hlength, hword]
    simp [hread]
  · rw [if_neg hlength]
    -- Three bytes and the NUL are taken for the length word, and less is no length word.
    by_cases hthree : text.length = 3
    · have hword : getI32 (text ++ [0]) = some (toSigned 32 (beNat ((text ++ [0]).take 4)), []) := by
        have hdrop : (text ++ [0]).drop 4 = [] :=
          List.drop_eq_nil_of_le (by rw [List.length_append, hthree]; rfl)
        rw [getI32, getSigned, if_pos (by rw [List.length_append, hthree]; decide), hdrop]
      rw [hword]
      rfl
    · have hword : getI32 (text ++ [0]) = none := by
        rw [getI32, getSigned, if_neg]
        rw [List.length_append, List.length_singleton]
        omega
      rw [hword]
      rfl

theorem tryExecuteCommand_query (ext : Externals) (r : QueryRouter) (rand : Nat) (hzero : 0 ∉ text)
    (hframed : Framed (queryMessage text)) :
    r.tryExecuteCommand ext rand (queryMessage text).bytes =
      if r.searching then
        (r.shardComment ext (r.segment (queryMessage text))).bind fun
          | some r' => some (r', none)
          | none => r.lostCommand ext rand text
      else
        r.customCommand ext rand (fromUtf8Lossy text) := by
  have hcode : Char.ofUInt8 (queryMessage text).code = 'Q' := rfl
  have hpayload : (queryMessage text).payload = text ++ [0] := rfl
  have hsearched : r.searched (queryMessage text).code ↔ r.searching := by
    unfold searched
    rw [hcode]
    exact ⟨And.right, fun h => ⟨.inr rfl, h⟩⟩
  unfold tryExecuteCommand
  rw [Message.getU8_bytes]
  by_cases hsearching : r.searching
  · rw [if_pos hsearching]
    have hne : (queryMessage text).payload ≠ [] := by simp [hpayload]
    refine (congrArg (Option.bind · _) (searchComment_bytes hframed hne (hsearched.mpr hsearching))).trans ?_
    cases r.shardComment ext (r.segment (queryMessage text)) with
    | none => rfl
    | some commented =>
      cases commented with
      | some r' => rfl
      | none => exact queryCommand_lost hzero
  · have hread : readString (text ++ [0]) = some (fromUtf8Lossy text, []) := readString_append hzero []
    rw [if_neg hsearching, some_bind]
    dsimp only
    rw [searchComment, if_neg (mt hsearched.mp hsearching), some_bind]
    dsimp only
    rw [queryCommand, if_neg (fun h => h hcode), hframed.getI32, some_bind]
    dsimp only
    rw [hpayload, hread]
    rfl

/-! ## The command behind a search -/

def withoutComments (r : QueryRouter) : QueryRouter :=
  { r with poolSettings := { r.poolSettings with shardIdRegex := none, shardingKeyRegex := none } }

/-- No expression matches what is searched. -/
def Unmatched (r : QueryRouter) (m : Message) : Prop :=
  ∀ regex, r.poolSettings.shardIdRegex = some regex ∨ r.poolSettings.shardingKeyRegex = some regex →
    regex.captures (r.segment m) = none

theorem commentValue_unmatched {α : Type} {regex : Option Regex} {parse : List Char → Option α}
    {segment : String} (h : ∀ e, regex = some e → e.captures segment = none) :
    commentValue regex parse segment = none := by
  cases regex with
  | none => rfl
  | some e => simp [commentValue, h e rfl]

theorem shardComment_unmatched {m : Message} (h : r.Unmatched m) :
    r.shardComment ext (r.segment m) = some none := by
  unfold shardComment
  rw [commentValue_unmatched fun e he => h e (.inl he), commentValue_unmatched fun e he => h e (.inr he)]

theorem customCommand_withoutComments (ext : Externals) (r : QueryRouter) (rand : Nat) (query : String) :
    r.withoutComments.customCommand ext rand query =
      (r.customCommand ext rand query).map fun p => (p.1.withoutComments, p.2) := by
  have hexecute : ∀ command value, r.withoutComments.execute ext rand command value =
      (r.execute ext rand command value).map fun p => (p.1.withoutComments, p.2) := by
    intro command value
    have hsharder : r.withoutComments.sharder = r.sharder := rfl
    cases command with
    | setShardingKey =>
      simp only [execute, setShardingKey, hsharder]
      cases parseI64 value.toList with
      | none => rfl
      | some key =>
        cases hs : r.sharder.shard ext.sha1Digest key with
        | none => simp [hs]
        | some s =>
          simp only [some_bind, hs]
          rfl
    -- A random shard is drawn below the same number of shards.
    | setShard =>
      unfold execute setShardCommand
      dsimp only
      split
      · split
        · rename_i hzero
          rw [if_pos (show r.poolSettings.shards = 0 from hzero)]
          rfl
        · rename_i hpos
          rw [if_neg (show ¬r.poolSettings.shards = 0 from hpos)]
          rfl
      · cases parseUsize value.toList <;> rfl
    | setServerRole =>
      unfold execute setServerRole
      dsimp only
      split <;> rfl
    | setPrimaryReads =>
      unfold execute setPrimaryReads
      dsimp only
      split
      · rfl
      split
      · rfl
      split
      · rfl
      · rfl
    | showShard => rfl
    | showServerRole => rfl
    | showPrimaryReads => rfl
  unfold customCommand
  split
  · split
    · rw [hexecute]
      simp [Function.comp_def]
    · rfl
  · rfl

/-- Nothing is lost that a command needs: four blanks, or bytes of a text that is no command with or
without them. -/
def Harmless (text : Bytes) : Prop :=
  4 ≤ text.length ∧
    (text.take 4 = List.replicate 4 0x20 ∨
      ∀ c : Command, c.accepts (fromUtf8Lossy text) = false ∧ c.accepts (fromUtf8Lossy (text.drop 4)) = false)

theorem customCommand_blanks (n : Nat) (rest : Bytes) :
    r.customCommand ext rand (fromUtf8Lossy (List.replicate n 0x20 ++ rest)) =
      r.customCommand ext rand (fromUtf8Lossy rest) := by
  induction n with
  | zero => rfl
  | succ n ih =>
    have hblank : fromUtf8Lossy (List.replicate (n + 1) 0x20 ++ rest) =
        String.ofList (' ' :: (fromUtf8Lossy (List.replicate n 0x20 ++ rest)).toList) := by
      rw [← @String.ofList_toList (fromUtf8Lossy (List.replicate (n + 1) 0x20 ++ rest)),
        List.replicate_succ, List.cons_append, fromUtf8Lossy_cons]
      rfl
    rw [hblank, customCommand_blank, String.ofList_toList, ih]

theorem lostCommand_eq_iff :
    r.lostCommand ext rand text = r.customCommand ext rand (fromUtf8Lossy text) ↔ Harmless text := by
  unfold lostCommand Harmless
  by_cases hlength : 4 ≤ text.length
  · rw [if_pos hlength]
    constructor
    · intro h
      refine ⟨hlength, ?_⟩
      by_cases hblanks : text.take 4 = List.replicate 4 0x20
      · exact .inl hblanks
      have htext : ∀ c : Command, c.accepts (fromUtf8Lossy text) = false := by
        intro c
        rw [Bool.eq_false_iff]
        intro hc
        rw [customCommand_of_none (Command.not_accepts_of_lost hc hblanks)] at h
        exact customCommand_ne_none hc r h.symm
      refine .inr fun c => ⟨htext c, ?_⟩
      rw [Bool.eq_false_iff]
      intro hc
      rw [customCommand_of_none htext] at h
      exact customCommand_ne_none hc r h
    · rintro ⟨-, hblanks | hnone⟩
      · have hsplit : text = List.replicate 4 0x20 ++ text.drop 4 := by
          rw [← hblanks, List.take_append_drop]
        rw [← customCommand_blanks 4 (text.drop 4), ← hsplit]
      · rw [customCommand_of_none fun c => (hnone c).1, customCommand_of_none fun c => (hnone c).2]
  · -- So short a text is no command, and the read panics.
    rw [if_neg hlength,
      customCommand_of_none fun c => Bool.eq_false_iff.mpr fun hc => hlength (Command.accepts_length hc)]
    exact iff_of_false (by simp) (fun h => hlength h.1)

end QueryRouter

/-- A search that finds nothing leaves a simple query to the commands exactly if no expression is
configured or what it loses is harmless. -/
theorem search_undisturbing_iff (ext : Externals) (r : QueryRouter) (rand : Nat) (text : Bytes)
    (hzero : 0 ∉ text) (hframed : Framed (queryMessage text)) (hunmatched : r.Unmatched (queryMessage text)) :
    ((r.tryExecuteCommand ext rand (queryMessage text).bytes).map fun p => (p.1.withoutComments, p.2)) =
        r.withoutComments.tryExecuteCommand ext rand (queryMessage text).bytes ↔
      (r.poolSettings.shardIdRegex = none ∧ r.poolSettings.shardingKeyRegex = none) ∨
        QueryRouter.Harmless text := by
  have hwithout : ¬r.withoutComments.searching := by
    rintro (h | h) <;> cases h
  have hconfigured : r.searching ↔
      ¬(r.poolSettings.shardIdRegex = none ∧ r.poolSettings.shardingKeyRegex = none) := by
    simp [searching, Option.isSome_iff_ne_none, or_iff_not_imp_left]
  rw [r.tryExecuteCommand_query ext rand hzero hframed,
    r.withoutComments.tryExecuteCommand_query ext rand hzero hframed, if_neg hwithout]
  by_cases hsearching : r.searching
  · rw [if_pos hsearching, shardComment_unmatched hunmatched, Option.bind_some,
      or_iff_right (hconfigured.mp hsearching), ← @lostCommand_eq_iff ext r.withoutComments rand]
    have hlost : (r.lostCommand ext rand text).map (fun p => (p.1.withoutComments, p.2)) =
        r.withoutComments.lostCommand ext rand text := by
      unfold lostCommand
      split
      · rw [customCommand_withoutComments]
      · rfl
    rw [← hlost]
  · rw [if_neg hsearching, customCommand_withoutComments]
    exact iff_of_true rfl (.inl (not_not.mp (mt hconfigured.mpr hsearching)))

/-! ## The text a search covers -/

namespace QueryRouter

variable {ext : Externals} {r : QueryRouter} {rand : Nat} {text : Bytes}

def shardIn (ext : Externals) (r : QueryRouter) (segment : String) : Option Nat :=
  (commentValue r.poolSettings.shardIdRegex parseUsize segment).or
    ((commentValue r.poolSettings.shardingKeyRegex parseI64 segment).bind (r.sharder.shard ext.sha1Digest))

theorem shardComment_eq (hshards : 0 < r.poolSettings.shards) (segment : String) :
    r.shardComment ext segment = some ((r.shardIn ext segment).map r.setShard) := by
  unfold shardComment shardIn
  cases commentValue r.poolSettings.shardIdRegex parseUsize segment with
  | some id => rfl
  | none =>
    cases commentValue r.poolSettings.shardingKeyRegex parseI64 segment with
    | none => rfl
    | some key =>
      obtain ⟨s, hs⟩ := Sharder.shard_isSome ext.sha1Digest (s := r.sharder) hshards key
      simp [setShardingKey, hs]

theorem shardComment_of_shardIn {segment : String} {s : Nat} (h : r.shardIn ext segment = some s) :
    r.shardComment ext segment = some (some (r.setShard s)) := by
  unfold shardIn at h
  unfold shardComment
  cases hid : commentValue r.poolSettings.shardIdRegex parseUsize segment with
  | some id =>
    rw [hid, Option.some_or] at h
    cases h
    rfl
  | none =>
    rw [hid, Option.none_or] at h
    obtain ⟨key, hkey, hshard⟩ := Option.bind_eq_some_iff.mp h
    rw [hkey]
    simp [setShardingKey, hshard]

def configured (r : QueryRouter) (text : Bytes) : String :=
  fromUtf8Lossy (text.take (min r.poolSettings.regexSearchLimit text.length))

/-- The shard the search of a message finds; `none` is a panic. -/
def found (ext : Externals) (r : QueryRouter) (m : Message) : Option (Option Nat) :=
  (r.shardComment ext (r.segment m)).map (·.bind (·.activeShard))

/-- The simple query leads to the shard, whichever was active before. -/
def SetsShard (ext : Externals) (r : QueryRouter) (rand : Nat) (text : Bytes) (s : Nat) : Prop :=
  ∀ before : Option Nat,
    ((({ r with activeShard := before } : QueryRouter).tryExecuteCommand ext rand
      (queryMessage text).bytes).map (·.1.activeShard)) = some (some s)

/-- What is left of the text after the search is itself a command that leads to the shard. -/
def LostSetsShard (ext : Externals) (r : QueryRouter) (rand : Nat) (text : Bytes) (s : Nat) : Prop :=
  ∀ before : Option Nat,
    ((({ r with activeShard := before } : QueryRouter).lostCommand ext rand text).map
      (·.1.activeShard)) = some (some s)

theorem searching_of_shardIn {segment : String} {s : Nat} (h : r.shardIn ext segment = some s) :
    r.searching := by
  by_contra hnot
  have hnone : r.poolSettings.shardIdRegex = none ∧ r.poolSettings.shardingKeyRegex = none := by
    simpa [searching, not_or] using hnot
  simp [shardIn, commentValue, hnone] at h

/-- A comment leads to its shard from every other, and without one the rest of the text decides. -/
theorem activeShard_query (hzero : 0 ∉ text) (hframed : Framed (queryMessage text))
    (hsearching : r.searching) (before : Option Nat) :
    (({ r with activeShard := before } : QueryRouter).tryExecuteCommand ext rand
        (queryMessage text).bytes).map (·.1.activeShard) =
      (r.found ext (queryMessage text)).bind fun
        | some s => some (some s)
        | none => (({ r with activeShard := before } : QueryRouter).lostCommand ext rand text).map
            (·.1.activeShard) := by
  have hsegment : segment { r with activeShard := before } (queryMessage text) =
      r.segment (queryMessage text) := rfl
  rw [tryExecuteCommand_query ext _ rand hzero hframed,
    if_pos (show searching { r with activeShard := before } from hsearching), hsegment, found]
  unfold shardComment
  dsimp only
  cases commentValue r.poolSettings.shardIdRegex parseUsize (r.segment (queryMessage text)) with
  | some id => rfl
  | none =>
    cases commentValue r.poolSettings.shardingKeyRegex parseI64 (r.segment (queryMessage text)) with
    | none => rfl
    | some key =>
      have hsharder : sharder { r with activeShard := before } = r.sharder := rfl
      simp only [setShardingKey, hsharder]
      cases r.sharder.shard ext.sha1Digest key with
      | none => rfl
      | some s => rfl

theorem setsShard_iff (hzero : 0 ∉ text) (hframed : Framed (queryMessage text)) (hsearching : r.searching)
    {s : Nat} :
    r.SetsShard ext rand text s ↔ r.found ext (queryMessage text) = some (some s) ∨
      r.found ext (queryMessage text) = some none ∧ r.LostSetsShard ext rand text s := by
  unfold SetsShard LostSetsShard
  simp only [activeShard_query hzero hframed hsearching]
  cases r.found ext (queryMessage text) with
  | none => simp
  | some id =>
    cases id with
    | none => simp
    | some id => simp

end QueryRouter

/-- A comment in the configured beginning of a text is obeyed exactly if the beginning of the message, as
long as that and with code and length in front, asks for the same shard, or asks for none and what is left
of the text is a command for it. -/
theorem configured_obeyed_iff (ext : Externals) (r : QueryRouter) (rand : Nat) (text : Bytes)
    (hzero : 0 ∉ text) (hframed : Framed (queryMessage text)) (s : Nat)
    (hasked : r.shardIn ext (r.configured text) = some s) :
    r.SetsShard ext rand text s ↔ r.found ext (queryMessage text) = some (some s) ∨
      r.found ext (queryMessage text) = some none ∧ r.LostSetsShard ext rand text s :=
  setsShard_iff hzero hframed (searching_of_shardIn hasked)

namespace Sample

/-- The text behind `/* shard_id: `, up to ` */`, if it is a number. -/
def afterMark (cs : List Char) : Option String :=
  let digits := cs.takeWhile Char.isDigit
  if digits ≠ [] ∧ " */".toList <+: cs.drop digits.length then some (String.ofList digits) else none

/-- The first match of `/\* shard_id: ([0-9]+) \*/`. -/
def shardIdCaptures : List Char → Option String
  | [] => none
  | c :: cs =>
    match "/* shard_id: ".toList.isPrefixOf? (c :: cs) with
    | some rest => (afterMark rest).or (shardIdCaptures cs)
    | none => shardIdCaptures cs

def shardIdRegex : Regex := ⟨fun text => (shardIdCaptures text.toList).map some⟩

def commentSettings : PoolSettings :=
  { shardedSettings with shardIdRegex := some shardIdRegex }

def commentRouter : QueryRouter :=
  { new with poolSettings := commentSettings }

/-- After the search `SHOW SHARD` is read as ` SHARD`. -/
theorem show_shard_disturbed :
    0 ∉ utf8 "SHOW SHARD" ∧ Framed (queryMessage (utf8 "SHOW SHARD")) ∧
      shardIdRegex.captures (commentRouter.segment (queryMessage (utf8 "SHOW SHARD"))) = none ∧
      (commentRouter.tryExecuteCommand noExternals 0 (queryMessage (utf8 "SHOW SHARD")).bytes).map (·.2) =
        some none ∧
      (commentRouter.withoutComments.tryExecuteCommand noExternals 0
        (queryMessage (utf8 "SHOW SHARD")).bytes).map (·.2) = some (some (.showShard, "0")) := by
  refine ⟨by decide, by decide, by decide +kernel, by decide +kernel, by decide +kernel⟩

/-- An ordinary query is passed on either way. -/
theorem select_undisturbed :
    (commentRouter.tryExecuteCommand noExternals 0 (queryMessage (utf8 "SELECT 1")).bytes).map
        (fun p => (p.1.withoutComments, p.2)) =
      commentRouter.withoutComments.tryExecuteCommand noExternals 0 (queryMessage (utf8 "SELECT 1")).bytes := by
  refine (search_undisturbing_iff noExternals commentRouter 0 (utf8 "SELECT 1") (by decide) (by decide) ?_).mpr
    (.inr ⟨by decide, .inr fun c => ?_⟩)
  · rintro regex (h | h)
    · cases h
      decide +kernel
    · cases h
  · cases c <;> exact ⟨by decide +kernel, by decide +kernel⟩

/-- The comment ends with the text, and the search ends five bytes before it. -/
theorem last_comment_not_obeyed :
    0 ∉ utf8 "SELECT 1 /* shard_id: 1 */" ∧ Framed (queryMessage (utf8 "SELECT 1 /* shard_id: 1 */")) ∧
      commentRouter.shardIn noExternals (commentRouter.configured (utf8 "SELECT 1 /* shard_id: 1 */")) =
        some 1 ∧
      ¬commentRouter.SetsShard noExternals 0 (utf8 "SELECT 1 /* shard_id: 1 */") 1 := by
  refine ⟨by decide, by decide, by decide +kernel, ?_⟩
  intro h
  have hnone := h none
  revert hnone
  decide +kernel

theorem first_comment_obeyed : commentRouter.SetsShard noExternals 0 (utf8 "/* shard_id: 1 */ SELECT 1") 1 :=
  (configured_obeyed_iff noExternals commentRouter 0 (utf8 "/* shard_id: 1 */ SELECT 1") (by decide) (by decide) 1
    (by decide +kernel)).mpr (.inl (by decide +kernel))

end Sample

end PgCat.Router
