import PgCat.Router.Malformed
import PgCat.Router.Reported
import PgCat.Session.Script

/-!
# Footprint — what a custom command changes

A simple query passes two functions before it is known to be a command: the parser, if it is enabled, and
the search for comments.  A command is no SQL, so the parser takes it for a write and leaves the router on
the primary; `SHOW SERVER ROLE` then answers `primary`, and the role a client had is gone.  `process` is
the way of a query through the router, and `command_footprint_iff` says when the command changes only what
it names.
-/

namespace PgCat.Session

open Lib Protocol Router QueryRouter

/-- What `handle` makes of the router and of a query before a server is looked for: the parser, the
settings of the pool, the commands, and a shard beyond the pool taken back. -/
def process (ext : Externals) (rand : Nat) (pool : ConnectionPool) (m : Message) (r : QueryRouter) :
    Option (QueryRouter × Option (Command × String)) := do
  let r₁ ← lookAt ext m r
  let r₂ := r₁.updatePoolSettings pool.settings
  let (r₃, out) ← r₂.tryExecuteCommand ext rand m.bytes
  match out with
  | some (c, value) => pure (answered pool r₂.shard c r₃, some (c, value))
  | none => pure (r₃, none)

/-- A turn of the outer loop does this to its router, and answers the command. -/
theorem route_process {fuel : Nat} {ext : Externals} {w : World} {m : Message} {pool : ConnectionPool}
    {lookup rest : List Input} {rand : Nat} {r' : QueryRouter} {c : Command} {value : String}
    (hm : m.frontend = .query) (hadmin : w.client.admin = false) (hfinds : Finds lookup pool)
    (hscript : w.script = .client m :: (lookup ++ .random rand :: .clientWrite true :: rest))
    (h : process ext rand pool m w.router = some (r', some (c, value))) :
    ∃ trace, route fuel ext w = .ok .again { w with script := rest, router := r', trace := trace } := by
  obtain ⟨r₁, hlook, h⟩ := Option.bind_eq_some_iff.mp h
  obtain ⟨⟨r₃, out⟩, hcommand, h⟩ := Option.bind_eq_some_iff.mp h
  cases out with
  | none => cases h
  | some p =>
    cases h
    rw [route_forward (.inl hm) hadmin hfinds hscript hlook]
    obtain ⟨response, hrun⟩ := @runCommand_some fuel ext
      (w.looked (.random rand :: .clientWrite true :: rest) m r₁ pool) m pool rand rest _ _ _ rfl hcommand
    exact ⟨_, hrun⟩

/-! ## The parser and commands -/

/-- The text is no query: it is a parse error, or its first statement is something else. -/
def NoQuery (parsed : Option (List Statement)) : Prop :=
  ∀ q rest, parsed ≠ some (.query q :: rest)

def looked (r : QueryRouter) : QueryRouter :=
  if r.queryParserEnabled then { r with activeRole := some .primary } else r

section Processed

variable {ext : Externals} {r : QueryRouter} {rand : Nat} {pool : ConnectionPool} {text : Bytes}
  {c : Command} {value : List Char}

theorem sqlText_queryMessage (hzero : 0 ∉ text) (hframed : Framed (queryMessage text)) :
    sqlText (queryMessage text).bytes = some (some (fromUtf8Lossy text)) := by
  have hcode : Char.ofUInt8 (queryMessage text).code = 'Q' := rfl
  have hread : readString (queryMessage text).payload = some (fromUtf8Lossy text, []) :=
    readString_append hzero []
  unfold sqlText
  rw [Message.getU8_bytes, some_bind]
  dsimp only
  rw [hframed.getI32, some_bind]
  dsimp only
  rw [hcode, hread]
  rfl

theorem lookAt_command (hzero : 0 ∉ text) (hframed : Framed (queryMessage text))
    (hsql : NoQuery (ext.parseSql (fromUtf8Lossy text))) :
    lookAt ext (queryMessage text) r = some (looked r) := by
  have hkind : (queryMessage text).frontend = .query := rfl
  unfold lookAt looked
  split
  · rw [hkind]
    dsimp only
    unfold infer
    rw [sqlText_queryMessage hzero hframed, some_bind]
    dsimp only
    cases hparsed : ext.parseSql (fromUtf8Lossy text) with
    | none => rfl
    | some stmts =>
      match stmts with
      | [] => rfl
      | .query q :: rest => exact absurd hparsed (hsql q rest)
      | .startTransaction :: _ => rfl
      | .other :: _ => rfl
  · rfl

/-- The router the commands see. -/
def listening (r : QueryRouter) (pool : ConnectionPool) : QueryRouter :=
  (looked r).updatePoolSettings pool.settings

theorem looked_shard (r : QueryRouter) : (looked r).activeShard = r.activeShard := by
  unfold looked
  split <;> rfl

theorem looked_reads (r : QueryRouter) : (looked r).primaryReadsOverride = r.primaryReadsOverride := by
  unfold looked
  split <;> rfl

theorem looked_parserEnabled (r : QueryRouter) : (looked r).queryParserOverride = r.queryParserOverride := by
  unfold looked
  split <;> rfl

theorem listening_shard (r : QueryRouter) (pool : ConnectionPool) : (listening r pool).shard = r.shard := by
  unfold listening shard updatePoolSettings
  rw [looked_shard]

theorem looked_role_iff (r : QueryRouter) :
    (looked r).role = r.role ↔ (r.queryParserEnabled = true → r.role = some .primary) := by
  unfold looked
  split
  · rename_i henabled
    simp [role, henabled, eq_comm]
  · rename_i hdisabled
    simp [hdisabled]

theorem process_of_taken (hzero : 0 ∉ text) (hframed : Framed (queryMessage text))
    (hsql : NoQuery (ext.parseSql (fromUtf8Lossy text)))
    (hsplits : c.Splits (fromUtf8Lossy text).toList value)
    (htaken : (r.updatePoolSettings pool.settings).Taken text) :
    process ext rand pool (queryMessage text) r =
      ((listening r pool).execute ext rand c (String.ofList value)).map fun p =>
        (answered pool r.shard c p.1, some (c, p.2)) := by
  have htaken' : (listening r pool).Taken text := htaken
  have hcommand := @tryExecuteCommand_of_taken ext _ rand _ hzero hframed _ _ hsplits htaken'
  unfold process
  rw [lookAt_command hzero hframed hsql, some_bind]
  refine (congrArg (Option.bind · _) hcommand).trans ?_
  rw [← listening_shard r pool]
  cases (listening r pool).execute ext rand c (String.ofList value) with
  | none => rfl
  | some p => rfl

/-- The router after the search has taken the query away. -/
def diverted (ext : Externals) (r : QueryRouter) (pool : ConnectionPool) (text : Bytes) : QueryRouter :=
  match (r.updatePoolSettings pool.settings).shardIn ext
      ((r.updatePoolSettings pool.settings).segment (queryMessage text)) with
  | some s => (listening r pool).setShard s
  | none => listening r pool

theorem process_of_not_taken (hzero : 0 ∉ text) (hframed : Framed (queryMessage text))
    (hpool : 0 < pool.shards) (hsql : NoQuery (ext.parseSql (fromUtf8Lossy text)))
    (haccepts : c.accepts (fromUtf8Lossy text) = true)
    (htaken : ¬(r.updatePoolSettings pool.settings).Taken text) :
    process ext rand pool (queryMessage text) r = some (diverted ext r pool text, none) := by
  have htaken' : ¬(listening r pool).Taken text := htaken
  have hshards : 0 < (listening r pool).poolSettings.shards := by
    change 0 < pool.settings.shards
    rw [pool.sized]
    exact hpool
  have hcommand := @tryExecuteCommand_of_not_taken ext _ rand _ hzero hframed _ haccepts htaken'
  have hcommented : (listening r pool).commented ext text = some (diverted ext r pool text) := by
    rw [commented, shardComment_eq hshards, diverted]
    change some (Option.getD (((r.updatePoolSettings pool.settings).shardIn ext
      ((r.updatePoolSettings pool.settings).segment (queryMessage text))).map _) _) = _
    cases (r.updatePoolSettings pool.settings).shardIn ext
      ((r.updatePoolSettings pool.settings).segment (queryMessage text)) with
    | none => rfl
    | some s => rfl
  rw [hcommented] at hcommand
  unfold process
  rw [lookAt_command hzero hframed hsql, some_bind]
  exact congrArg (Option.bind · _) hcommand

/-! ## Commands -/

theorem answered_shard {r' : QueryRouter} {n : Nat} (hshard : r'.shard = n) (h : pool.shards ≤ n) (current : Nat) :
    answered pool current .setShard r' = r'.setShard current := by
  rw [answered, if_pos ⟨rfl, hshard.symm ▸ h⟩]

theorem answered_reads (pool : ConnectionPool) (current : Nat) (c : Command) (r : QueryRouter) :
    (answered pool current c r).primaryReadsOverride = r.primaryReadsOverride := by
  unfold answered
  split <;> rfl

theorem answered_other (hc : c ≠ .setShard) (current : Nat) (r : QueryRouter) :
    answered pool current c r = r :=
  if_neg fun h => hc h.1

structure OnlyNamed (pool : ConnectionPool) (c : Command) (value : List Char) (r r' : QueryRouter)
    (out : Option (Command × String)) : Prop where
  role : c ≠ .setServerRole → r'.role = r.role
  shard : c ≠ .setShard → c ≠ .setShardingKey → r'.shard = r.shard
  reads : c ≠ .setPrimaryReads →
    r'.primaryReadsEnabled = (r.updatePoolSettings pool.settings).primaryReadsEnabled
  /-- `SET SHARD` was executed on a number beyond the pool. -/
  rejected : c = .setShard → out.isSome = true → ∀ n, parseNat value = some n → pool.shards ≤ n →
    r'.role = r.role ∧ r'.shard = r.shard ∧
      r'.queryParserEnabled = (r.updatePoolSettings pool.settings).queryParserEnabled ∧
      r'.primaryReadsEnabled = (r.updatePoolSettings pool.settings).primaryReadsEnabled
  /-- `SET SERVER ROLE TO 'auto'` is what leaves `some true`. -/
  answer : c = .showServerRole → r.queryParserOverride = some true → out = some (.showServerRole, "auto")

theorem reads_eq {r' : QueryRouter} (hsettings : r'.poolSettings = pool.settings)
    (hreads : r'.primaryReadsOverride = r.primaryReadsOverride) :
    r'.primaryReadsEnabled = (r.updatePoolSettings pool.settings).primaryReadsEnabled := by
  unfold primaryReadsEnabled updatePoolSettings
  rw [hsettings, hreads]

theorem parser_eq {r' : QueryRouter} (hsettings : r'.poolSettings = pool.settings)
    (hparser : r'.queryParserOverride = r.queryParserOverride) :
    r'.queryParserEnabled = (r.updatePoolSettings pool.settings).queryParserEnabled := by
  unfold queryParserEnabled updatePoolSettings
  rw [hsettings, hparser]

theorem execute_setShard {r' : QueryRouter} {answer : String} {n : Nat} (hn : parseNat value = some n)
    (h : r.execute ext rand .setShard (String.ofList value) = some (r', answer)) : r' = r.setShard n := by
  rw [execute, setShardCommand, String.toList_ofList,
    if_neg (Command.toUpper_ne_any hn), parseUsize, parseUnsigned_of_parseNat hn] at h
  split at h
  · cases h
    rfl
  · cases h

/-- The parser was enabled by hand, so it has just put the router on the primary. -/
theorem showServerRole_listening (hauto : r.queryParserOverride = some true) :
    (listening r pool).showServerRole = "primary" := by
  have henabled : r.queryParserEnabled = true := by
    rw [queryParserEnabled, hauto]
    rfl
  unfold listening looked
  rw [if_pos henabled]
  rfl

theorem onlyNamed_of_taken {r₃ : QueryRouter} {answer : String}
    (h : (listening r pool).execute ext rand c (String.ofList value) = some (r₃, answer)) :
    OnlyNamed pool c value r (answered pool r.shard c r₃) (some (c, answer)) ↔
      (c ≠ .setServerRole → r.queryParserEnabled = true → r.role = some .primary) ∧
        (c = .showServerRole → r.queryParserOverride ≠ some true) := by
  have hsets := execute_sets h
  -- Each command sets a field of its own; the answer may set the shard back.
  have hrole : c ≠ .setServerRole → (answered pool r.shard c r₃).role = (looked r).role := by
    intro hc
    rw [answered_role]
    cases hsets with
    | role => exact absurd rfl hc
    | shard | reads | nothing => rfl
  have hsettings : (answered pool r.shard c r₃).poolSettings = pool.settings := by
    rw [answered_poolSettings]
    cases hsets with
    | shard | role | reads | nothing => rfl
  have hreads : c ≠ .setPrimaryReads →
      (answered pool r.shard c r₃).primaryReadsOverride = r.primaryReadsOverride := by
    intro hc
    rw [answered_reads, ← looked_reads r]
    cases hsets with
    | reads => exact absurd rfl hc
    | shard | role | nothing => rfl
  constructor
  · intro hnamed
    refine ⟨fun hc => (looked_role_iff r).mp ((hrole hc).symm.trans (hnamed.role hc)), ?_⟩
    -- The answer is the role the parser has chosen for this very query.
    rintro rfl hauto
    have hanswer := hnamed.answer rfl hauto
    rw [execute, showServerRole_listening hauto] at h
    cases h
    exact absurd hanswer (by decide)
  · rintro ⟨hprimary, hshow⟩
    have hkept : c ≠ .setServerRole → (answered pool r.shard c r₃).role = r.role := fun hc =>
      (hrole hc).trans ((looked_role_iff r).mpr (hprimary hc))
    refine ⟨hkept, ?_, fun hc => reads_eq hsettings (hreads hc), ?_, fun hc hauto => absurd hauto (hshow hc)⟩
    · intro hc hkey
      rw [answered_other hc, ← listening_shard r pool]
      cases hsets with
      | shard _ _ hshard =>
        rcases hshard with hshard | hshard
        · exact absurd hshard hc
        · exact absurd hshard hkey
      | role | reads | nothing => rfl
    · rintro rfl - n hn hrange
      have hset := execute_setShard hn h
      subst hset
      have hback := @answered_shard pool ((listening r pool).setShard n) n rfl hrange r.shard
      refine ⟨hkept (by decide), ?_, parser_eq hsettings ?_, reads_eq hsettings (hreads (by decide))⟩
      · rw [hback]
        rfl
      · rw [hback]
        exact looked_parserEnabled r

theorem onlyNamed_of_diverted (ext : Externals) (r : QueryRouter) (pool : ConnectionPool) (text : Bytes)
    (c : Command) (value : List Char) :
    OnlyNamed pool c value r (diverted ext r pool text) none ↔
      (c ≠ .setServerRole → r.queryParserEnabled = true → r.role = some .primary) ∧
        (c = .showServerRole → r.queryParserOverride ≠ some true) ∧
        (c ≠ .setShard → c ≠ .setShardingKey → ∀ s, (r.updatePoolSettings pool.settings).shardIn ext
          ((r.updatePoolSettings pool.settings).segment (queryMessage text)) = some s → s = r.shard) := by
  have hrole : (diverted ext r pool text).role = (looked r).role := by
    unfold diverted
    split <;> rfl
  have hreads : (diverted ext r pool text).primaryReadsEnabled =
      (r.updatePoolSettings pool.settings).primaryReadsEnabled := by
    refine reads_eq ?_ ?_
    · unfold diverted
      split <;> rfl
    · rw [← looked_reads r]
      unfold diverted
      split <;> rfl
  -- The comment is obeyed: the shard stays only if the comment names the one that is set.
  have hshard : (diverted ext r pool text).shard = r.shard ↔
      ∀ s, (r.updatePoolSettings pool.settings).shardIn ext
        ((r.updatePoolSettings pool.settings).segment (queryMessage text)) = some s → s = r.shard := by
    unfold diverted
    split
    · rename_i s hs
      simp only [hs, Option.some.injEq, forall_eq']
      rfl
    · rename_i hnone
      simp only [hnone, listening_shard]
      simp
  constructor
  · intro hnamed
    refine ⟨fun hc => (looked_role_iff r).mp (hrole.symm.trans (hnamed.role hc)), ?_, ?_⟩
    · intro hc hauto
      cases hnamed.answer hc hauto
    · exact fun hc hkey => hshard.mp (hnamed.shard hc hkey)
  · rintro ⟨hprimary, hshow, hcomment⟩
    refine ⟨fun hc => hrole.trans ((looked_role_iff r).mpr (hprimary hc)),
      fun hc hkey => hshard.mpr (hcomment hc hkey), fun _ => hreads, nofun, fun hc hauto => absurd hauto (hshow hc)⟩

end Processed

/-- A custom command changes only what it names exactly if the parser is off or the router was on the
primary already, nobody asks for the role that was set to `auto`, and the number of the command fits; if a
search takes the query away, it must not find another shard. -/
theorem command_footprint_iff (ext : Externals) (rand : Nat) (pool : ConnectionPool) (r : QueryRouter)
    (text : Bytes) (c : Command) (value : List Char) (hzero : 0 ∉ text)
    (hframed : Framed (queryMessage text)) (hpool : 0 < pool.shards)
    (hsplits : c.Splits (fromUtf8Lossy text).toList value)
    (hsql : NoQuery (ext.parseSql (fromUtf8Lossy text))) :
    (∃ r' out, process ext rand pool (queryMessage text) r = some (r', out) ∧
        OnlyNamed pool c value r r' out) ↔
      (c ≠ .setServerRole → r.queryParserEnabled = true → r.role = some .primary) ∧
        (c = .showServerRole → r.queryParserOverride ≠ some true) ∧
        if (r.updatePoolSettings pool.settings).Taken text then QueryRouter.Fits c value
        else c ≠ .setShard → c ≠ .setShardingKey → ∀ s, (r.updatePoolSettings pool.settings).shardIn ext
          ((r.updatePoolSettings pool.settings).segment (queryMessage text)) = some s → s = r.shard := by
  have hvalue : value ∈ c.group.language := by
    obtain ⟨_, _, -, -, hvalue, -⟩ := hsplits
    exact hvalue
  by_cases htaken : (r.updatePoolSettings pool.settings).Taken text
  · -- The command is taken: what it does to the router is `execute`.
    have hshards : 0 < (listening r pool).poolSettings.shards := by
      change 0 < pool.settings.shards
      rw [pool.sized]
      exact hpool
    rw [process_of_taken hzero hframed hsql hsplits htaken, if_pos htaken,
      ← @execute_isSome ext _ rand hshards _ _ hvalue]
    cases hexecute : (listening r pool).execute ext rand c (String.ofList value) with
    | none => simp
    | some p =>
      have hnamed := @onlyNamed_of_taken ext r rand pool c value _ _ hexecute
      simp only [Option.map_some, Option.some.injEq, Option.isSome_some, and_true]
      rw [← hnamed]
      constructor
      · rintro ⟨r', out, hp, h⟩
        cases hp
        exact h
      · exact fun h => ⟨_, _, rfl, h⟩
  · -- A comment in front of the command is obeyed instead of the command.
    have haccepts : c.accepts (fromUtf8Lossy text) = true := Command.accepts_iff_splits.mpr ⟨_, hsplits⟩
    rw [process_of_not_taken hzero hframed hpool hsql haccepts htaken, if_neg htaken,
      ← onlyNamed_of_diverted ext r pool text c value]
    constructor
    · rintro ⟨r', out, hp, h⟩
      cases hp
      exact h
    · exact fun h => ⟨_, _, rfl, h⟩

namespace Sample

/-- `SET SERVER ROLE TO 'auto'` was executed. -/
def autoRouter : QueryRouter :=
  { new with queryParserOverride := some true }

/-- `SHOW SERVER ROLE` answers `primary`, and the router is on the primary afterwards. -/
theorem auto_shown_as_primary :
    (new.tryExecuteCommand externals 0
        (queryMessage (utf8 "SET SERVER ROLE TO 'auto'")).bytes).map (fun p => (p.1.queryParserOverride, p.1.role)) =
      some (autoRouter.queryParserOverride, autoRouter.role) ∧
    (process externals 0 pool (queryMessage (utf8 "SHOW SERVER ROLE")) autoRouter).map (fun p => (p.1.role, p.2)) =
      some (some .primary, some (.showServerRole, "primary")) :=
  ⟨by decide +kernel, by decide +kernel⟩

/-- Without the parser a rejected shard leaves everything as it was. -/
theorem rejected_shard_untouched :
    ∃ r' out, process externals 0 pool (queryMessage (utf8 "SET SHARD TO 7")) new = some (r', out) ∧
      OnlyNamed pool .setShard "7".toList new r' out := by
  have hcapture : Command.setShard.capture (fromUtf8Lossy (utf8 "SET SHARD TO 7")) = some "7" := by
    decide +kernel
  have htaken : (new.updatePoolSettings pool.settings).Taken (utf8 "SET SHARD TO 7") := by
    rintro (h | h) <;> cases h
  refine (command_footprint_iff externals 0 pool new (utf8 "SET SHARD TO 7") .setShard "7".toList
    (by decide) (by decide) (by decide) (Command.capture_eq_some_iff.mp hcapture) nofun).mpr ⟨nofun, nofun, ?_⟩
  rw [if_pos htaken]
  intro n hn
  cases hn
  decide

end Sample

end PgCat.Session
