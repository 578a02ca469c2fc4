import PgCat.Router.Comments
import PgCat.Router.Effect

/-!
# Reported — `SET` and what `SHOW` makes of it

The expressions of the commands ignore case; what a command does with its value is its own business.
`SET SERVER ROLE` and `SET SHARD` fold the value, `SET PRIMARY READS` compares it as it is written, so
`SET PRIMARY READS TO OFF` is accepted and does nothing.  In front of all commands stands the search for
comments, which may take a query away from them (`Taken` says when it does not).
-/

namespace PgCat.Router

open Lib Protocol Config

namespace QueryRouter

variable {ext : Externals} {r r' : QueryRouter} {rand : Nat} {text : Bytes}

/-! ## Queries that reach the commands -/

def Uncommented (r : QueryRouter) (text : Bytes) : Prop :=
  commentValue r.poolSettings.shardIdRegex parseUsize (r.segment (queryMessage text)) = none ∧
    commentValue r.poolSettings.shardingKeyRegex parseI64 (r.segment (queryMessage text)) = none

instance (r : QueryRouter) (text : Bytes) : Decidable (r.Uncommented text) :=
  inferInstanceAs (Decidable (_ ∧ _))

/-- The query reaches the commands as it is: nothing is searched, or nothing is found and the four bytes
that get lost are blanks. -/
def Taken (r : QueryRouter) (text : Bytes) : Prop :=
  r.searching → r.Uncommented text ∧ text.take 4 = List.replicate 4 0x20

instance (r : QueryRouter) (text : Bytes) : Decidable (r.Taken text) :=
  inferInstanceAs (Decidable (_ → _))

/-- The router when the search has dealt with the query; `none` is a panic. -/
def commented (ext : Externals) (r : QueryRouter) (text : Bytes) : Option QueryRouter :=
  (r.shardComment ext (r.segment (queryMessage text))).map (·.getD r)

theorem taken_congr (h : r'.poolSettings = r.poolSettings) : r'.Taken text ↔ r.Taken text := by
  simp only [Taken, Uncommented, searching, segment, h]

theorem shardComment_uncommented (h : r.Uncommented text) :
    r.shardComment ext (r.segment (queryMessage text)) = some none := by
  rw [shardComment, h.1, h.2]

theorem uncommented_of_not_searching (h : ¬r.searching) : r.Uncommented text := by
  have hnone : r.poolSettings.shardIdRegex = none ∧ r.poolSettings.shardingKeyRegex = none := by
    simpa [searching, not_or] using h
  simp [Uncommented, commentValue, hnone]

theorem commented_of_taken (h : r.Taken text) : r.commented ext text = some r := by
  have huncommented : r.Uncommented text := by
    by_cases hsearching : r.searching
    · exact (h hsearching).1
    · exact uncommented_of_not_searching hsearching
  rw [commented, shardComment_uncommented huncommented]
  rfl

theorem tryExecuteCommand_of_taken (hzero : 0 ∉ text) (hframed : Framed (queryMessage text))
    {c : Command} {value : List Char} (hsplits : c.Splits (fromUtf8Lossy text).toList value)
    (htaken : r.Taken text) :
    r.tryExecuteCommand ext rand (queryMessage text).bytes =
      (r.execute ext rand c (String.ofList value)).map fun p => (p.1, some (c, p.2)) := by
  rw [tryExecuteCommand_query ext r rand hzero hframed, ← customCommand_of_splits hsplits]
  by_cases hsearching : r.searching
  · obtain ⟨huncommented, hblanks⟩ := htaken hsearching
    have haccepts : c.accepts (fromUtf8Lossy text) = true := Command.accepts_iff_splits.mpr ⟨_, hsplits⟩
    rw [if_pos hsearching, shardComment_uncommented huncommented, Option.bind_some]
    exact lostCommand_eq_iff.mpr ⟨Command.accepts_length haccepts, .inl hblanks⟩
  · rw [if_neg hsearching]

theorem tryExecuteCommand_of_not_taken (hzero : 0 ∉ text) (hframed : Framed (queryMessage text))
    {c : Command} (haccepts : c.accepts (fromUtf8Lossy text) = true) (htaken : ¬r.Taken text) :
    r.tryExecuteCommand ext rand (queryMessage text).bytes =
      (r.commented ext text).map fun r' => (r', none) := by
  have hsearching : r.searching := by
    by_contra hnot
    exact htaken fun h => absurd h hnot
  rw [tryExecuteCommand_query ext r rand hzero hframed, if_pos hsearching, commented]
  by_cases huncommented : r.Uncommented text
  · -- Then letters of the command are lost, and what is left is none.
    have hletters : text.take 4 ≠ List.replicate 4 0x20 := fun h => htaken fun _ => ⟨huncommented, h⟩
    rw [shardComment_uncommented huncommented, Option.bind_some, lostCommand,
      if_pos (Command.accepts_length haccepts),
      customCommand_of_none (Command.not_accepts_of_lost haccepts hletters)]
    rfl
  · have hcomment : r.shardComment ext (r.segment (queryMessage text)) ≠ some none := by
      intro hnone
      refine huncommented ?_
      unfold shardComment at hnone
      unfold Uncommented
      split at hnone
      · cases hnone
      · split at hnone
        · obtain ⟨_, -, h⟩ := Option.map_eq_some_iff.mp hnone
          cases h
        · exact ⟨by assumption, by assumption⟩
    cases hfound : r.shardComment ext (r.segment (queryMessage text)) with
    | none => rfl
    | some found =>
      cases found with
      | none => exact absurd hfound hcomment
      | some r' => rfl

/-! ## Reports -/

def report (r : QueryRouter) : Command → String
  | .showShard => toString r.shard
  | .showServerRole => r.showServerRole
  | _ => if r.primaryReadsEnabled then "on" else "off"

end QueryRouter

def Command.shown : Command → Command
  | .setShardingKey | .setShard | .showShard => .showShard
  | .setServerRole | .showServerRole => .showServerRole
  | .setPrimaryReads | .showPrimaryReads => .showPrimaryReads

namespace QueryRouter

variable {ext : Externals} {r r' : QueryRouter} {rand : Nat} {text : Bytes}

theorem shown_iff (hzero : 0 ∉ text) (hframed : Framed (queryMessage text)) {c : Command}
    (haccepts : c.shown.accepts (fromUtf8Lossy text) = true) {answer : String} :
    (∃ r', r.tryExecuteCommand ext rand (queryMessage text).bytes = some (r', some (c.shown, answer))) ↔
      r.Taken text ∧ answer = r.report c.shown := by
  obtain ⟨value, hsplits⟩ := Command.accepts_iff_splits.mp haccepts
  by_cases htaken : r.Taken text
  · have hexecute : r.execute ext rand c.shown (String.ofList value) = some (r, r.report c.shown) := by
      cases c <;> rfl
    rw [tryExecuteCommand_of_taken hzero hframed hsplits htaken, hexecute]
    simp [htaken, eq_comm]
  · rw [tryExecuteCommand_of_not_taken hzero hframed haccepts htaken]
    simp [htaken]

/-- The answer to `SHOW PRIMARY READS` once `word` was set. -/
def expectedReads (settings : PoolSettings) (word : String) : String :=
  if word = "default" then if settings.primaryReadsEnabled then "on" else "off" else word

/-- The answer to `SHOW SERVER ROLE` once `word` was set. -/
def expectedRole (settings : PoolSettings) (word : String) : String :=
  if word = "default" then
    match settings.defaultRole with
    | some role => roleText role
    | none => if settings.queryParserEnabled then "auto" else "any"
  else
    word

/-- What `SHOW` should answer once the value was set, whatever its case. -/
def Expected (settings : PoolSettings) (c : Command) (value : List Char) (answer : String) : Prop :=
  match c with
  | .setPrimaryReads => answer = expectedReads settings (String.ofList (value.map Char.toLower))
  | .setServerRole => answer = expectedRole settings (String.ofList (value.map Char.toLower))
  | .setShard =>
    if value.map Char.toLower = "any".toList then ∃ n < settings.shards, answer = toString n
    else ∃ n, parseNat value = some n ∧ answer = toString n
  | _ => True

/-- The value has an effect: primary reads are set in lower case only, and any shard is one of some. -/
def Effective (settings : PoolSettings) (c : Command) (value : List Char) : Prop :=
  match c with
  | .setPrimaryReads => value.map Char.toLower = value
  | .setShard => value.map Char.toLower = "any".toList → 0 < settings.shards
  | _ => True

theorem setServerRole_reported {value : List Char} (hvalue : value ∈ Command.setServerRole.group.language) :
    ∃ r' out, r.execute ext rand .setServerRole (String.ofList value) = some (r', out) ∧
      r'.poolSettings = r.poolSettings ∧ Expected r.poolSettings .setServerRole value r'.showServerRole := by
  obtain ⟨w, hw, hlower⟩ := Command.mem_group_setServerRole hvalue
  unfold execute setServerRole Expected
  dsimp only
  rw [String.toList_ofList, hlower, String.ofList_toList]
  simp only [Command.serverRoles, List.mem_cons, List.not_mem_nil, or_false] at hw
  rcases hw with rfl | rfl | rfl | rfl | rfl
  · exact ⟨_, _, rfl, rfl, rfl⟩
  · exact ⟨_, _, rfl, rfl, rfl⟩
  · exact ⟨_, _, rfl, rfl, rfl⟩
  · exact ⟨_, _, rfl, rfl, rfl⟩
  · exact ⟨_, _, rfl, rfl, rfl⟩

theorem setPrimaryReads_reported {value : List Char}
    (hvalue : value ∈ Command.setPrimaryReads.group.language) (hlow : value.map Char.toLower = value) :
    ∃ r' out, r.execute ext rand .setPrimaryReads (String.ofList value) = some (r', out) ∧
      r'.poolSettings = r.poolSettings ∧
      Expected r.poolSettings .setPrimaryReads value (r'.report .showPrimaryReads) := by
  obtain ⟨w, hw, hlower⟩ := Command.mem_group_setPrimaryReads hvalue
  rw [hlow] at hlower
  subst hlower
  unfold execute setPrimaryReads Expected
  rw [hlow, String.ofList_toList]
  simp only [List.mem_cons, List.not_mem_nil, or_false] at hw
  rcases hw with rfl | rfl | rfl
  · exact ⟨_, _, rfl, rfl, rfl⟩
  · exact ⟨_, _, rfl, rfl, rfl⟩
  · exact ⟨_, _, rfl, rfl, rfl⟩

/-- A value in upper case is none of the three the command compares with. -/
theorem setPrimaryReads_ignored {value : List Char} (hlow : value.map Char.toLower ≠ value) :
    r.setPrimaryReads (String.ofList value) = r := by
  have hne : ∀ w : String, w.toList.map Char.toLower = w.toList → String.ofList value ≠ w := by
    rintro w hw rfl
    rw [String.toList_ofList] at hw
    exact hlow hw
  rw [setPrimaryReads, if_neg (hne "on" (by decide)), if_neg (hne "off" (by decide)),
    if_neg (hne "default" (by decide))]

theorem setShard_reported {value : List Char} (hvalue : value ∈ Command.setShard.group.language)
    (hfits : ∀ n, parseNat value = some n → n < 2 ^ 64)
    (heffective : value.map Char.toLower = "any".toList → 0 < r.poolSettings.shards) :
    ∃ r' out, r.execute ext rand .setShard (String.ofList value) = some (r', out) ∧
      r'.poolSettings = r.poolSettings ∧
      Expected r.poolSettings .setShard value (r'.report .showShard) := by
  unfold execute setShardCommand Expected
  rw [String.toList_ofList]
  rcases Command.mem_group_setShard hvalue with ⟨n, hn⟩ | hany
  · have hlt := hfits n hn
    have hword : value.map Char.toLower ≠ "any".toList := fun hany =>
      Command.toUpper_ne_any hn (Command.toUpper_eq_any hany)
    rw [if_neg (Command.toUpper_ne_any hn), parseUsize, parseUnsigned_of_parseNat hn, if_pos (by omega)]
    refine ⟨_, _, rfl, rfl, ?_⟩
    dsimp only
    rw [if_neg hword]
    exact ⟨n, hn, rfl⟩
  · have hpos := heffective hany
    rw [if_pos (Command.toUpper_eq_any hany), if_neg (by omega)]
    refine ⟨_, _, rfl, rfl, ?_⟩
    dsimp only
    rw [if_pos hany]
    exact ⟨rand % r.poolSettings.shards, Nat.mod_lt _ hpos, rfl⟩

/-! ## Round trips -/

def RoundTrip (ext : Externals) (r : QueryRouter) (rand rand' : Nat) (set asked : Bytes) (c : Command)
    (value : List Char) : Prop :=
  ∃ r' out r'' answer, r.tryExecuteCommand ext rand (queryMessage set).bytes = some (r', out) ∧
    r'.tryExecuteCommand ext rand' (queryMessage asked).bytes = some (r'', some (c.shown, answer)) ∧
    Expected r.poolSettings c value answer

theorem tryExecuteCommand_poolSettings {message : Bytes} {out : Option (Command × String)}
    (h : r.tryExecuteCommand ext rand message = some (r', out)) : r'.poolSettings = r.poolSettings := by
  have hattempted := tryExecuteCommand_attempted h
  cases out with
  | none => exact hattempted.1.settings
  | some p => exact hattempted.settings

theorem roundTrip_iff {rand' : Nat} {set asked : Bytes} (hzero : 0 ∉ asked)
    (hframed : Framed (queryMessage asked)) {c : Command} {value : List Char}
    (haccepts : c.shown.accepts (fromUtf8Lossy asked) = true) :
    RoundTrip ext r rand rand' set asked c value ↔ r.Taken asked ∧
      ∃ r' out, r.tryExecuteCommand ext rand (queryMessage set).bytes = some (r', out) ∧
        Expected r.poolSettings c value (r'.report c.shown) := by
  constructor
  · rintro ⟨r', out, r'', answer, hset, hasked, hexpected⟩
    obtain ⟨htaken, rfl⟩ := (shown_iff hzero hframed haccepts).mp ⟨r'', hasked⟩
    exact ⟨(taken_congr (tryExecuteCommand_poolSettings hset)).mp htaken, r', out, hset, hexpected⟩
  · rintro ⟨htaken, r', out, hset, hexpected⟩
    have htaken' := (taken_congr (tryExecuteCommand_poolSettings hset)).mpr htaken
    obtain ⟨r'', hasked⟩ := (@shown_iff ext r' rand' asked hzero hframed c haccepts _).mpr ⟨htaken', rfl⟩
    exact ⟨r', out, r'', _, hset, hasked, hexpected⟩

theorem executed_expected_iff {c : Command} {value : List Char}
    (hc : c = .setShard ∨ c = .setServerRole ∨ c = .setPrimaryReads) (hvalue : value ∈ c.group.language)
    (hfits : c = .setShard → ∀ n, parseNat value = some n → n < 2 ^ 64) :
    (∃ r' out, r.execute ext rand c (String.ofList value) = some (r', out) ∧
        Expected r.poolSettings c value (r'.report c.shown)) ↔
      Effective r.poolSettings c value ∨ Expected r.poolSettings c value (r.report c.shown) := by
  rcases hc with rfl | rfl | rfl
  · by_cases heffective : Effective r.poolSettings .setShard value
    · obtain ⟨r', out, hexecute, -, hexpected⟩ :=
        @setShard_reported ext r rand value hvalue (hfits rfl) heffective
      exact iff_of_true ⟨r', out, hexecute, hexpected⟩ (.inl heffective)
    · -- There is no shard to choose from.
      obtain ⟨hany, hzero⟩ := Classical.not_imp.mp heffective
      have hexecute : r.execute ext rand .setShard (String.ofList value) = none := by
        rw [execute, setShardCommand, String.toList_ofList, if_pos (Command.toUpper_eq_any hany),
          if_pos (by omega)]
        rfl
      refine iff_of_false ?_ ?_
      · rintro ⟨r', out, h, -⟩
        rw [hexecute] at h
        cases h
      · rintro (h | h)
        · exact heffective h
        · unfold Expected at h
          dsimp only at h
          rw [if_pos hany] at h
          obtain ⟨n, hn, -⟩ := h
          omega
  · obtain ⟨r', out, hexecute, -, hexpected⟩ :=
      @setServerRole_reported ext r rand value hvalue
    exact iff_of_true ⟨r', out, hexecute, hexpected⟩ (.inl trivial)
  · by_cases hlow : value.map Char.toLower = value
    · obtain ⟨r', out, hexecute, -, hexpected⟩ :=
        @setPrimaryReads_reported ext r rand value hvalue hlow
      exact iff_of_true ⟨r', out, hexecute, hexpected⟩ (.inl hlow)
    · have hexecute : r.execute ext rand .setPrimaryReads (String.ofList value) =
          some (r, String.ofList value) := by
        rw [execute, setPrimaryReads_ignored hlow]
      rw [hexecute]
      constructor
      · rintro ⟨r', out, h, hexpected⟩
        cases h
        exact .inr hexpected
      · rintro (h | h)
        · exact absurd h hlow
        · exact ⟨r, _, rfl, h⟩

end QueryRouter

/-- `SHOW` answers what was set exactly if both queries reach the commands and the value has an effect, or
if it would have answered so anyway. -/
theorem set_then_show_iff (ext : Externals) (r : QueryRouter) (rand rand' : Nat) (set asked : Bytes)
    (c : Command) (value : List Char) (hset : 0 ∉ set) (hsetFramed : Framed (queryMessage set))
    (hasked : 0 ∉ asked) (haskedFramed : Framed (queryMessage asked))
    (hc : c = .setShard ∨ c = .setServerRole ∨ c = .setPrimaryReads)
    (hsplits : c.Splits (fromUtf8Lossy set).toList value)
    (hfits : c = .setShard → ∀ n, parseNat value = some n → n < 2 ^ 64)
    (haccepts : c.shown.accepts (fromUtf8Lossy asked) = true) :
    QueryRouter.RoundTrip ext r rand rand' set asked c value ↔
      r.Taken asked ∧ (r.Taken set ∧ QueryRouter.Effective r.poolSettings c value ∨
        ∃ r', r.commented ext set = some r' ∧
          QueryRouter.Expected r.poolSettings c value (r'.report c.shown)) := by
  have hvalue : value ∈ c.group.language := by
    obtain ⟨_, _, -, -, hvalue, -⟩ := hsplits
    exact hvalue
  rw [QueryRouter.roundTrip_iff hasked haskedFramed haccepts]
  refine and_congr_right fun _ => ?_
  -- The first text is taken as a command, or its comment is obeyed.
  by_cases htaken : r.Taken set
  · rw [QueryRouter.tryExecuteCommand_of_taken hset hsetFramed hsplits htaken,
      QueryRouter.commented_of_taken htaken]
    simp only [htaken, true_and, Option.some.injEq, exists_eq_left']
    rw [← @QueryRouter.executed_expected_iff ext r rand c value hc hvalue hfits]
    constructor
    · rintro ⟨r', out, h, hexpected⟩
      obtain ⟨p, hp, hout⟩ := Option.map_eq_some_iff.mp h
      cases hout
      exact ⟨p.1, p.2, hp, hexpected⟩
    · rintro ⟨r', out, h, hexpected⟩
      exact ⟨r', some (c, out), by rw [h]; rfl, hexpected⟩
  · have hacceptsSet : c.accepts (fromUtf8Lossy set) = true := Command.accepts_iff_splits.mpr ⟨_, hsplits⟩
    rw [QueryRouter.tryExecuteCommand_of_not_taken hset hsetFramed hacceptsSet htaken]
    simp only [htaken, false_and, false_or]
    constructor
    · rintro ⟨r', out, h, hexpected⟩
      obtain ⟨r₁, hr₁, hout⟩ := Option.map_eq_some_iff.mp h
      cases hout
      exact ⟨r', hr₁, hexpected⟩
    · rintro ⟨r', h, hexpected⟩
      exact ⟨r', none, by rw [h]; rfl, hexpected⟩

namespace Sample

/-- The expression accepts the upper case, and the command ignores it. -/
theorem upper_case_ignored :
    (shardedRouter.tryExecuteCommand noExternals 0
        (queryMessage (utf8 "SET PRIMARY READS TO 'OFF'")).bytes).map (·.2) =
      some (some (.setPrimaryReads, "OFF")) ∧
    ((shardedRouter.tryExecuteCommand noExternals 0
        (queryMessage (utf8 "SET PRIMARY READS TO 'OFF'")).bytes).bind fun p =>
      (p.1.tryExecuteCommand noExternals 0 (queryMessage (utf8 "SHOW PRIMARY READS")).bytes).map (·.2)) =
      some (some (.showPrimaryReads, "on")) :=
  ⟨by decide +kernel, by decide +kernel⟩

/-- In lower case it is set and shown. -/
theorem lower_case_shown :
    QueryRouter.RoundTrip noExternals shardedRouter 0 0 (utf8 "set primary reads to 'off';")
      (utf8 "Show Primary Reads") .setPrimaryReads "off".toList := by
  have htaken : ∀ text, shardedRouter.Taken text := by
    rintro text (h | h) <;> cases h
  refine (set_then_show_iff noExternals shardedRouter 0 0 _ _ .setPrimaryReads "off".toList (by decide)
    (by decide) (by decide) (by decide) (.inr (.inr rfl)) ?_ nofun (by decide +kernel)).mpr
    ⟨htaken _, .inl ⟨htaken _, rfl⟩⟩
  have hcapture : Command.setPrimaryReads.capture (fromUtf8Lossy (utf8 "set primary reads to 'off';")) =
      some "off" := by decide +kernel
  exact Command.capture_eq_some_iff.mp hcapture

end Sample

end PgCat.Router
