import PgCat.Router.Bind
import PgCat.Router.Command
import PgCat.Router.Role

/-!
# Effect — what a `Bind` and the custom commands do to the router

A `Bind` infers a shard and nothing else.  `try_execute_command` sets the shard in five ways; `Chosen`
lists them, and all but two stay inside the shards of the settings: the id carried by a comment and
the number of `SET SHARD`.
-/

namespace PgCat.Router

open Lib Protocol Config Sharding

namespace QueryRouter

variable {ext : Externals} {r r' : QueryRouter}

/-! ## Bind -/

theorem bindShards_bounded {formats : ParameterFormats} : ∀ {n i : Nat} {shards : List Nat}
    {bs : Bytes} {out : List Nat × Bytes}, (∀ s ∈ shards, s < r.poolSettings.shards) →
      bindShards ext r formats n i shards bs = some out → ∀ s ∈ out.1, s < r.poolSettings.shards := by
  intro n
  induction n with
  | zero =>
    intro i shards bs out hshards h
    cases h
    exact hshards
  | succ n ih =>
    intro i shards bs out hshards h
    rw [bindShards] at h
    rcases Option.bind_eq_some_iff.mp h with ⟨⟨len, bs₁⟩, _, h⟩
    rcases Option.bind_eq_some_iff.mp h with ⟨format, _, h⟩
    split at h
    · rcases Option.bind_eq_some_iff.mp h with ⟨⟨value, bs₂⟩, _, h⟩
      cases value with
      | none => exact ih hshards h
      | some v =>
        rcases Option.bind_eq_some_iff.mp h with ⟨s, hs, h⟩
        refine ih ?_ h
        intro t ht
        rcases List.mem_insert_iff.mp ht with rfl | ht
        · exact Sharder.shard_lt _ hs
        · exact hshards t ht
    · exact ih hshards h

variable {bs message : Bytes} {c : Command} {code : UInt8} {out : Option (Command × String)} {rand : Nat}
  {value : String}

theorem inferShardFromBind_inferred {ok : Bool} (h : r.inferShardFromBind ext message = some (r', ok)) :
    Inferred r r' ∧ r'.activeRole = r.activeRole := by
  unfold inferShardFromBind at h
  rcases Option.bind_eq_some_iff.mp h with ⟨⟨code, bs⟩, _, h⟩
  rcases Option.bind_eq_some_iff.mp h with ⟨⟨len, bs₁⟩, _, h⟩
  dsimp only at h
  split at h
  · cases h
    exact ⟨.refl r, rfl⟩
  split at h
  · cases h
    exact ⟨.refl r, rfl⟩
  split at h
  · cases h
    exact ⟨.refl r, rfl⟩
  rcases Option.bind_eq_some_iff.mp h with ⟨⟨_, bs₂⟩, _, h⟩
  rcases Option.bind_eq_some_iff.mp h with ⟨⟨_, bs₃⟩, _, h⟩
  rcases Option.bind_eq_some_iff.mp h with ⟨⟨formats, bs₄⟩, _, h⟩
  rcases Option.bind_eq_some_iff.mp h with ⟨⟨count, bs₅⟩, _, h⟩
  rcases Option.bind_eq_some_iff.mp h with ⟨⟨shards, bs₆⟩, hshards, h⟩
  -- From here on the placeholders are cleared, whatever the parameters come to.
  have hcleared : Inferred r { r with placeholders := [] } := ⟨rfl, rfl, rfl, .inl rfl⟩
  cases hs : onlyShard shards with
  | none =>
    simp only [hs] at h
    cases h
    exact ⟨hcleared, rfl⟩
  | some s =>
    simp only [hs] at h
    cases h
    have hlt := bindShards_bounded (by simp) hshards s (onlyShard_mem hs)
    exact ⟨hcleared.setShard hlt, rfl⟩

/-! ## Commands -/

/-- A build without overflow checks searches for more comments than one with them. -/
theorem initialSegment_unchecked {checks : Bool} {len : Int} {segment : String}
    (h : r.initialSegment checks message len = some segment) : r.initialSegment false message len = some segment := by
  obtain ⟨text, hsub, hrest⟩ := Option.bind_eq_some_iff.mp h
  have hsame : subUsize false (asUsize len) 5 = some text := by
    unfold subUsize at hsub ⊢
    split
    · rename_i hle
      rwa [if_pos hle] at hsub
    · rename_i hlt
      rw [if_neg hlt] at hsub
      split at hsub
      · cases hsub
      · exact hsub
  exact Option.bind_eq_some_iff.mpr ⟨text, hsame, hrest⟩

/-- The shard of a comment that is found, with overflow checks or without. -/
def commentId (r : QueryRouter) (message : Bytes) : Option Nat := do
  let (code, bs) ← getU8 message
  if r.searched code then do
    let (len, _) ← getI32 bs
    let segment ← r.initialSegment false message len
    commentValue r.poolSettings.shardIdRegex parseUsize segment
  else
    none

/-- At most the shard was changed. -/
structure SameButShard (r r' : QueryRouter) : Prop where
  settings : r'.poolSettings = r.poolSettings
  parser : r'.queryParserOverride = r.queryParserOverride
  reads : r'.primaryReadsOverride = r.primaryReadsOverride
  role : r'.activeRole = r.activeRole

theorem SameButShard.refl (r : QueryRouter) : SameButShard r r :=
  ⟨rfl, rfl, rfl, rfl⟩

def Within (r r' : QueryRouter) : Prop :=
  r'.activeShard = r.activeShard ∨ ∃ s, r'.activeShard = some s ∧ s < r.poolSettings.shards

theorem Within.shard_lt (h : Within r r') (hr : r.shard < r.poolSettings.shards) :
    r'.shard < r.poolSettings.shards := by
  unfold shard at hr ⊢
  rcases h with h | ⟨s, h, hs⟩
  · rw [h]
    exact hr
  · rw [h]
    exact hs

theorem setShardingKey_within {key : Int} {s : Nat}
    (h : r.setShardingKey ext key = some (r', s)) : SameButShard r r' ∧ Within r r' := by
  rcases Option.bind_eq_some_iff.mp h with ⟨s', hs', hout⟩
  cases hout
  exact ⟨⟨rfl, rfl, rfl, rfl⟩, .inr ⟨s, rfl, Sharder.shard_lt _ hs'⟩⟩

theorem shardComment_effect {segment : String}
    (h : r.shardComment ext segment = some (some r')) :
    SameButShard r r' ∧ (Within r r' ∨ ∃ id, r'.activeShard = some id ∧
      commentValue r.poolSettings.shardIdRegex parseUsize segment = some id) := by
  unfold shardComment at h
  split at h
  · rename_i id hid
    cases h
    exact ⟨⟨rfl, rfl, rfl, rfl⟩, .inr ⟨id, rfl, hid⟩⟩
  · split at h
    · rcases Option.map_eq_some_iff.mp h with ⟨⟨r₁, s⟩, hkey, hr⟩
      cases hr
      rcases setShardingKey_within hkey with ⟨hsame, hwithin⟩
      exact ⟨hsame, .inl hwithin⟩
    · cases h

structure Executed (r r' : QueryRouter) (c : Command) : Prop where
  settings : r'.poolSettings = r.poolSettings
  parser : c ≠ .setServerRole → r'.queryParserOverride = r.queryParserOverride
  shard : c ≠ .setShard → Within r r'

theorem setServerRole_executed (h : r.setServerRole value = some r') : Executed r r' .setServerRole := by
  have hsame : r'.poolSettings = r.poolSettings ∧ r'.activeShard = r.activeShard := by
    unfold setServerRole at h
    split at h
    all_goals cases h
    all_goals exact ⟨rfl, rfl⟩
  exact ⟨hsame.1, fun h => absurd rfl h, fun _ => .inl hsame.2⟩

theorem setShardCommand_executed (h : r.setShardCommand rand value = some r') : Executed r r' .setShard := by
  have hsame : r'.poolSettings = r.poolSettings ∧ r'.queryParserOverride = r.queryParserOverride := by
    unfold setShardCommand at h
    split at h
    · split at h
      · cases h
      · cases h
        exact ⟨rfl, rfl⟩
    · rcases Option.map_eq_some_iff.mp h with ⟨n, _, hn⟩
      cases hn
      exact ⟨rfl, rfl⟩
  exact ⟨hsame.1, fun _ => hsame.2, fun h => absurd rfl h⟩

theorem setPrimaryReads_executed (r : QueryRouter) (value : String) :
    Executed r (r.setPrimaryReads value) .setPrimaryReads := by
  unfold setPrimaryReads
  repeat' split
  all_goals exact ⟨rfl, fun _ => rfl, fun _ => .inl rfl⟩

theorem execute_executed {out : String}
    (h : r.execute ext rand c value = some (r', out)) : Executed r r' c := by
  have hsame : ∀ c, Executed r r c := fun _ => ⟨rfl, fun _ => rfl, fun _ => .inl rfl⟩
  cases c with
  | setShardingKey =>
    rcases Option.bind_eq_some_iff.mp h with ⟨key, _, h⟩
    rcases Option.bind_eq_some_iff.mp h with ⟨⟨r₁, s⟩, hkey, hout⟩
    cases hout
    rcases setShardingKey_within hkey with ⟨hk, hwithin⟩
    exact ⟨hk.settings, fun _ => hk.parser, fun _ => hwithin⟩
  | setShard =>
    rcases Option.map_eq_some_iff.mp h with ⟨r₁, hr₁, hout⟩
    cases hout
    exact setShardCommand_executed hr₁
  | setServerRole =>
    rcases Option.map_eq_some_iff.mp h with ⟨r₁, hr₁, hout⟩
    cases hout
    exact setServerRole_executed hr₁
  | setPrimaryReads =>
    cases h
    exact setPrimaryReads_executed r value
  | showShard | showServerRole | showPrimaryReads =>
    cases h
    exact hsame _

/-- What a command can do to the router. -/
inductive Sets (r : QueryRouter) : Command → QueryRouter → Prop
  | shard (c : Command) (s : Nat) (h : c = .setShard ∨ c = .setShardingKey) : Sets r c (r.setShard s)
  | role (role : Option Role) (parser : Option Bool) :
      Sets r .setServerRole { r with activeRole := role, queryParserOverride := parser }
  | reads (reads : Option Bool) : Sets r .setPrimaryReads { r with primaryReadsOverride := reads }
  | nothing (c : Command) (h : c.isSet = false) : Sets r c r

theorem execute_sets {out : String} (h : r.execute ext rand c value = some (r', out)) : Sets r c r' := by
  unfold execute at h
  cases c with
  | setShardingKey =>
    obtain ⟨key, -, h⟩ := Option.bind_eq_some_iff.mp h
    obtain ⟨⟨r₁, s⟩, hkey, h⟩ := Option.bind_eq_some_iff.mp h
    obtain ⟨s', -, hs'⟩ := Option.bind_eq_some_iff.mp hkey
    cases hs'
    cases h
    exact .shard _ s (.inr rfl)
  | setShard =>
    obtain ⟨r₁, hr₁, h⟩ := Option.map_eq_some_iff.mp h
    cases h
    unfold setShardCommand at hr₁
    split at hr₁
    · split at hr₁
      · cases hr₁
      · cases hr₁
        exact .shard _ _ (.inl rfl)
    · obtain ⟨n, -, hn⟩ := Option.map_eq_some_iff.mp hr₁
      cases hn
      exact .shard _ n (.inl rfl)
  | setServerRole =>
    obtain ⟨r₁, hr₁, h⟩ := Option.map_eq_some_iff.mp h
    cases h
    unfold setServerRole at hr₁
    split at hr₁
    all_goals cases hr₁
    all_goals exact .role _ _
  | setPrimaryReads =>
    cases h
    unfold setPrimaryReads
    split
    · exact .reads (some true)
    split
    · exact .reads (some false)
    split
    · exact .reads none
    · exact .reads r.primaryReadsOverride
  | showShard | showServerRole | showPrimaryReads =>
    cases h
    exact .nothing _ rfl

/-- What `try_execute_command` did, by its result. -/
def Attempted (r r' : QueryRouter) (message : Bytes) : Option (Command × String) → Prop
  | some (c, _) => Executed r r' c
  | none => SameButShard r r' ∧
      (Within r r' ∨ ∃ id, r'.activeShard = some id ∧ r.commentId message = some id)

theorem customCommand_attempted {query : String} (h : r.customCommand ext rand query = some (r', out)) :
    Attempted r r' message out := by
  have hsame : Attempted r r message none := ⟨.refl r, .inl (.inl rfl)⟩
  unfold customCommand at h
  split at h
  · split at h
    · rcases Option.map_eq_some_iff.mp h with ⟨⟨r₁, text⟩, hexec, hout⟩
      cases hout
      exact execute_executed hexec
    · cases h
      exact hsame
  · cases h
    exact hsame

theorem queryCommand_attempted (h : r.queryCommand ext rand code bs = some (r', out)) :
    Attempted r r' message out := by
  unfold queryCommand at h
  split at h
  · cases h
    exact ⟨.refl r, .inl (.inl rfl)⟩
  · rcases Option.bind_eq_some_iff.mp h with ⟨⟨_, bs₁⟩, _, h⟩
    rcases Option.bind_eq_some_iff.mp h with ⟨⟨query, bs₂⟩, _, h⟩
    exact customCommand_attempted h

theorem commentId_of {bs₁ : Bytes} {len : Int} {segment : String} {id : Nat}
    (hcode : getU8 message = some (code, bs)) (hsearched : r.searched code)
    (hlen : getI32 bs = some (len, bs₁)) (hsegment : r.initialSegment false message len = some segment)
    (hvalue : commentValue r.poolSettings.shardIdRegex parseUsize segment = some id) :
    r.commentId message = some id := by
  unfold commentId
  refine Option.bind_eq_some_iff.mpr ⟨(code, bs), hcode, ?_⟩
  dsimp only
  rw [if_pos hsearched]
  refine Option.bind_eq_some_iff.mpr ⟨(len, bs₁), hlen, ?_⟩
  exact Option.bind_eq_some_iff.mpr ⟨segment, hsegment, hvalue⟩

theorem searchComment_attempted {bs' : Bytes} (hcode : getU8 message = some (code, bs))
    (h : r.searchComment ext message code bs = some (some r', bs')) :
    Attempted r r' message none := by
  unfold searchComment at h
  split at h
  · rename_i hsearched
    simp only [Option.bind_eq_bind, Option.bind_eq_some_iff, Prod.exists, Option.pure_def,
      Option.some.injEq, Prod.mk.injEq] at h
    rcases h with ⟨len, bs₁, hlen, segment, hsegment, found, hfound, rfl, _⟩
    rcases shardComment_effect hfound with ⟨hsame, hwithin | ⟨id, hid, hvalue⟩⟩
    · exact ⟨hsame, .inl hwithin⟩
    · exact ⟨hsame, .inr ⟨id, hid, commentId_of hcode hsearched hlen (initialSegment_unchecked hsegment) hvalue⟩⟩
  · cases h

theorem tryExecuteCommand_attempted
    (h : r.tryExecuteCommand ext rand message = some (r', out)) : Attempted r r' message out := by
  rcases Option.bind_eq_some_iff.mp h with ⟨⟨code, bs⟩, hcode, h⟩
  rcases Option.bind_eq_some_iff.mp h with ⟨⟨commented, bs₁⟩, hcommented, h⟩
  cases commented with
  | none => exact queryCommand_attempted h
  | some r₁ =>
    cases h
    exact searchComment_attempted hcode hcommented

/-- A shard id in a comment is taken over, and nothing else is looked for. -/
theorem tryExecuteCommand_of_commentId {id : Nat} (hid : r.commentId message = some id)
    (h : r.tryExecuteCommand ext rand message = some (r', out)) : r' = r.setShard id ∧ out = none := by
  obtain ⟨⟨code, bs⟩, hcode, hid⟩ := Option.bind_eq_some_iff.mp hid
  obtain ⟨hsearched, hid⟩ := Option.ite_none_right_eq_some.mp hid
  obtain ⟨⟨len, bs₁⟩, hlen, hid⟩ := Option.bind_eq_some_iff.mp hid
  obtain ⟨segment, hsegment, hvalue⟩ := Option.bind_eq_some_iff.mp hid
  rw [tryExecuteCommand, hcode, some_bind] at h
  obtain ⟨⟨commented, bs₂⟩, hcommented, h⟩ := Option.bind_eq_some_iff.mp h
  rw [searchComment, if_pos hsearched, hlen, some_bind] at hcommented
  obtain ⟨segment', hsegment', hfound⟩ := Option.bind_eq_some_iff.mp hcommented
  cases (initialSegment_unchecked hsegment').symm.trans hsegment
  rw [shardComment, hvalue] at hfound
  cases hfound
  cases h
  exact ⟨rfl, rfl⟩

theorem customCommand_sets {query : String}
    (h : r.customCommand ext rand query = some (r', some (c, value))) : Sets r c r' := by
  unfold customCommand at h
  split at h
  · split at h
    · obtain ⟨⟨r₁, text⟩, hexecute, hout⟩ := Option.map_eq_some_iff.mp h
      cases hout
      exact execute_sets hexecute
    · cases h
  · cases h

theorem tryExecuteCommand_sets
    (h : r.tryExecuteCommand ext rand message = some (r', some (c, value))) : Sets r c r' := by
  obtain ⟨⟨code, bs⟩, -, h⟩ := Option.bind_eq_some_iff.mp h
  obtain ⟨⟨commented, bs₁⟩, -, h⟩ := Option.bind_eq_some_iff.mp h
  cases commented with
  | some r₁ => cases h
  | none =>
    change r.queryCommand ext rand code bs₁ = _ at h
    unfold queryCommand at h
    split at h
    · cases h
    · obtain ⟨⟨_, bs₂⟩, -, h⟩ := Option.bind_eq_some_iff.mp h
      obtain ⟨⟨query, bs₃⟩, -, h⟩ := Option.bind_eq_some_iff.mp h
      exact customCommand_sets h

end QueryRouter

end PgCat.Router
