import PgCat.Router.Command
import PgCat.Router.Placeholders

/-!
# Pending — placeholders left by earlier statements

`infer` only ever adds to the recorded placeholders, and `infer_shard_from_bind` drops them on one of its
exits.  `Agree` relates two routers that differ in what was pending before; every inference keeps it.
A `Bind` then finds the same placeholders in both exactly as far as what was pending is recorded by the
statement itself.
-/

namespace PgCat.Router

open Lib Protocol Config Sharding

/-! ## Two runs of an inference -/

theorem rel_bind {α α' β β' : Type} {R : α → α' → Prop} {S : β → β' → Prop} {x : Option α}
    {y : Option α'} {f : α → Option β} {g : α' → Option β'} (hxy : Option.Rel R x y)
    (hfg : ∀ a b, R a b → Option.Rel S (f a) (g b)) : Option.Rel S (x.bind f) (y.bind g) := by
  cases hxy with
  | some h => exact hfg _ _ h
  | none => exact .none

theorem rel_bind_same {α β β' : Type} {S : β → β' → Prop} (x : Option α) {f : α → Option β}
    {g : α → Option β'} (hfg : ∀ a, Option.Rel S (f a) (g a)) : Option.Rel S (x.bind f) (x.bind g) := by
  cases x with
  | some a => exact hfg a
  | none => exact .none

theorem map_eq_of_rel {α α' β : Type} {f : α → β} {g : α' → β} {x : Option α} {y : Option α'}
    (h : Option.Rel (fun a b => f a = g b) x y) : x.map f = y.map g := by
  cases h with
  | some h => exact congrArg some h
  | none => rfl

theorem rel_map {α α' β β' : Type} {R : α → α' → Prop} {S : β → β' → Prop} {x : Option α}
    {y : Option α'} {f : α → β} {g : α' → β'} (hxy : Option.Rel R x y)
    (hfg : ∀ a b, R a b → S (f a) (g b)) : Option.Rel S (x.map f) (y.map g) := by
  cases hxy with
  | some h => exact .some (hfg _ _ h)
  | none => exact .none

theorem rel_foldlM {α β β' : Type} {R : β → β' → Prop} {f : β → α → Option β} {g : β' → α → Option β'}
    (hstep : ∀ a b b', R b b' → Option.Rel R (f b a) (g b' a)) (as : List α) :
    ∀ {b b'}, R b b' → Option.Rel R (as.foldlM f b) (as.foldlM g b') := by
  induction as with
  | nil =>
    intro b b' h
    exact .some h
  | cons a as ih =>
    intro b b' h
    rw [List.foldlM_cons, List.foldlM_cons]
    exact rel_bind (hstep a b b' h) fun _ _ => ih

/-- Two routers with the same settings and shard; `p₁` and `p₂` were pending before, and the same
placeholders were recorded since. -/
structure Agree (p₁ p₂ : List Int) (r₁ r₂ : QueryRouter) : Prop where
  settings : r₁.poolSettings = r₂.poolSettings
  shard : r₁.activeShard = r₂.activeShard
  pending : ∃ q, r₁.placeholders = p₁ ++ q ∧ r₂.placeholders = p₂ ++ q

namespace Agree

variable {ext : Externals} {p₁ p₂ : List Int} {r₁ r₂ : QueryRouter}

theorem sharder (h : Agree p₁ p₂ r₁ r₂) : r₁.sharder = r₂.sharder := by
  simp only [QueryRouter.sharder, h.settings]

theorem setShard (h : Agree p₁ p₂ r₁ r₂) (s : Nat) : Agree p₁ p₂ (r₁.setShard s) (r₂.setShard s) :=
  ⟨h.settings, rfl, h.pending⟩

theorem record (h : Agree p₁ p₂ r₁ r₂) (position : Int) :
    Agree p₁ p₂ { r₁ with placeholders := r₁.placeholders ++ [position] }
      { r₂ with placeholders := r₂.placeholders ++ [position] } := by
  obtain ⟨q, h₁, h₂⟩ := h.pending
  refine ⟨h.settings, h.shard, q ++ [position], ?_, ?_⟩
  · simp only [h₁, List.append_assoc]
  · simp only [h₂, List.append_assoc]

theorem role (h : Agree p₁ p₂ r₁ r₂) (role₁ role₂ : Option Role) :
    Agree p₁ p₂ { r₁ with activeRole := role₁ } { r₂ with activeRole := role₂ } :=
  ⟨h.settings, h.shard, h.pending⟩

/-- The accumulators of two searches. -/
def Search (p₁ p₂ : List Int) (acc₁ acc₂ : QueryRouter × List Nat) : Prop :=
  Agree p₁ p₂ acc₁.1 acc₂.1 ∧ acc₁.2 = acc₂.2

theorem recordKey (key : ShardingKey) {acc₁ acc₂ : QueryRouter × List Nat}
    (h : Search p₁ p₂ acc₁ acc₂) :
    Option.Rel (Search p₁ p₂) (QueryRouter.recordKey ext acc₁ key) (QueryRouter.recordKey ext acc₂ key) := by
  obtain ⟨hagree, hshards⟩ := h
  cases key with
  | value v =>
    simp only [QueryRouter.recordKey, hagree.sharder]
    cases acc₂.1.sharder.shard ext.sha1Digest v with
    | none => exact .none
    | some s =>
      refine .some ⟨hagree, ?_⟩
      simp only [hshards]
  | placeholder position => exact .some ⟨hagree.record position, hshards⟩

theorem recordExpr (names : List (List Ident)) (e : Expr) {acc₁ acc₂ : QueryRouter × List Nat}
    (h : Search p₁ p₂ acc₁ acc₂) :
    Option.Rel (Search p₁ p₂) (QueryRouter.recordExpr ext names acc₁ e)
      (QueryRouter.recordExpr ext names acc₂ e) := by
  have hparser : acc₁.1.selectionParser e names = acc₂.1.selectionParser e names := by
    simp only [QueryRouter.selectionParser, h.1.settings]
  unfold QueryRouter.recordExpr
  rw [hparser]
  cases acc₂.1.selectionParser e names with
  | none => exact .none
  | some keys => exact rel_foldlM (fun key _ _ => recordKey key) keys h

mutual

theorem inferShard : ∀ (q : Query) {r₁ r₂ : QueryRouter}, Agree p₁ p₂ r₁ r₂ →
    Option.Rel (fun a b => Agree p₁ p₂ a.1 b.1 ∧ a.2 = b.2) (QueryRouter.inferShard ext r₁ q)
      (QueryRouter.inferShard ext r₂ q)
  | .mk _ body _, r₁, r₂, h => by
    rw [QueryRouter.inferShard, QueryRouter.inferShard]
    refine rel_bind (bodyShards body h) ?_
    rintro ⟨r₁', shards₁⟩ ⟨r₂', shards₂⟩ ⟨hagree, hshards⟩
    have hsame : shards₁ = shards₂ := hshards
    subst hsame
    exact .some ⟨hagree, rfl⟩

theorem bodyShards : ∀ (body : SetExpr) {r₁ r₂ : QueryRouter}, Agree p₁ p₂ r₁ r₂ →
    Option.Rel (Search p₁ p₂) (QueryRouter.bodyShards ext r₁ body) (QueryRouter.bodyShards ext r₂ body)
  | .query q, r₁, r₂, h => by
    rw [QueryRouter.bodyShards, QueryRouter.bodyShards]
    refine rel_bind (inferShard q h) ?_
    rintro ⟨r₁', shard₁⟩ ⟨r₂', shard₂⟩ ⟨hagree, hshard⟩
    have hsame : shard₁ = shard₂ := hshard
    subst hsame
    exact .some ⟨hagree, rfl⟩
  | .select (.mk tables selection), r₁, r₂, h => by
    rw [QueryRouter.bodyShards, QueryRouter.bodyShards]
    exact rel_foldlM (fun e _ _ => recordExpr _ e) _ ⟨h, rfl⟩
  | .setOperation _ _, _, _, h => .some ⟨h, rfl⟩
  | .values, _, _, h => .some ⟨h, rfl⟩
  | .insert _, _, _, h => .some ⟨h, rfl⟩
  | .update _, _, _, h => .some ⟨h, rfl⟩
  | .table, _, _, h => .some ⟨h, rfl⟩

end

theorem selectShard (q : Query) (h : Agree p₁ p₂ r₁ r₂) :
    Option.Rel (Agree p₁ p₂) (QueryRouter.selectShard ext r₁ q) (QueryRouter.selectShard ext r₂ q) := by
  unfold QueryRouter.selectShard
  rw [h.settings]
  cases r₂.poolSettings.automaticShardingKey with
  | none => exact .some h
  | some key =>
    refine rel_map (inferShard q h) ?_
    rintro ⟨r₁', shard₁⟩ ⟨r₂', shard₂⟩ ⟨hagree, hshard⟩
    have hsame : shard₁ = shard₂ := hshard
    subst hsame
    cases shard₁ with
    | none => exact hagree
    | some s => exact hagree.setShard s

theorem inferStatements (stmts : List Statement) : ∀ {r₁ r₂ : QueryRouter}, Agree p₁ p₂ r₁ r₂ →
    Option.Rel (Agree p₁ p₂) (QueryRouter.inferStatements ext r₁ stmts)
      (QueryRouter.inferStatements ext r₂ stmts) := by
  induction stmts with
  | nil =>
    intro r₁ r₂ h
    exact .some h
  | cons stmt stmts ih =>
    intro r₁ r₂ h
    cases stmt with
    | query q =>
      rw [QueryRouter.inferStatements, QueryRouter.inferStatements]
      refine rel_bind ?_ fun _ _ => ih
      exact rel_map (selectShard q h) fun _ _ h' => h'.role _ _
    | startTransaction | other => exact .some (h.role _ _)

/-- Whatever the roles and overrides, the same message has the same effect on shard and placeholders. -/
theorem infer (m : Bytes) (h : Agree p₁ p₂ r₁ r₂) :
    Option.Rel (fun a b => Agree p₁ p₂ a.1 b.1) (r₁.infer ext m) (r₂.infer ext m) := by
  unfold QueryRouter.infer
  cases QueryRouter.sqlText m with
  | none => exact .none
  | some text =>
    cases text with
    | none => exact .some h
    | some text =>
      simp only [some_bind]
      cases ext.parseSql text with
      | none => exact .some (h.role _ _)
      | some stmts =>
        cases stmts with
        | nil => exact .some (h.role _ _)
        | cons stmt stmts =>
          refine rel_bind (inferStatements (stmt :: stmts) h) ?_
          intro r₁' r₂' h'
          exact .some h'

end Agree

/-! ## The Bind -/

namespace QueryRouter

variable {ext : Externals} {r₁ r₂ : QueryRouter}

theorem bindShards_congr (hsettings : r₁.poolSettings = r₂.poolSettings)
    (hsame : ∀ p, p ∈ r₁.placeholders ↔ p ∈ r₂.placeholders) (formats : ParameterFormats) (n : Nat) :
    ∀ i shards bs, bindShards ext r₁ formats n i shards bs = bindShards ext r₂ formats n i shards bs := by
  have hsharder : r₁.sharder = r₂.sharder := by simp only [sharder, hsettings]
  induction n with
  | zero =>
    intro i shards bs
    rfl
  | succ n ih =>
    intro i shards bs
    simp only [bindShards, hsame, hsharder, ih]

theorem inferShardFromBind_congr (hsettings : r₁.poolSettings = r₂.poolSettings)
    (hshard : r₁.activeShard = r₂.activeShard)
    (hsame : ∀ p, p ∈ r₁.placeholders ↔ p ∈ r₂.placeholders) (m : Bytes) :
    (r₁.inferShardFromBind ext m).map (·.1.activeShard) =
      (r₂.inferShardFromBind ext m).map (·.1.activeShard) := by
  have hnil : r₁.placeholders = [] ↔ r₂.placeholders = [] := by
    simp only [List.eq_nil_iff_forall_not_mem, hsame]
  refine map_eq_of_rel ?_
  unfold inferShardFromBind
  simp only [bindShards_congr hsettings hsame, hnil]
  refine rel_bind_same _ fun out => rel_bind_same _ fun word => ?_
  -- The three early exits leave the shard, and so does a set of shards that is not a single one.
  split
  · exact .some hshard
  split
  · exact .some hshard
  split
  · exact .some hshard
  refine rel_bind_same _ fun portal => rel_bind_same _ fun name => rel_bind_same _ fun formats => ?_
  refine rel_bind_same _ fun count => rel_bind_same _ fun shards => ?_
  cases onlyShard shards.1 with
  | none => exact .some hshard
  | some s => exact .some rfl

end QueryRouter

/-! ## Histories -/

/-- What a session does with its router. -/
inductive Step
  | infer (m : Bytes)
  | bind (m : Bytes)
  | command (rand : Nat) (m : Bytes)
  | settings (s : PoolSettings)
  | shard (s : Nat)

def Step.run (ext : Externals) (r : QueryRouter) : Step → Option QueryRouter
  | .infer m => (r.infer ext m).map (·.1)
  | .bind m => (r.inferShardFromBind ext m).map (·.1)
  | .command rand m => (r.tryExecuteCommand ext rand m).map (·.1)
  | .settings s => some (r.updatePoolSettings s)
  | .shard s => some (r.setShard s)

/-- The router a history leads to; `none` is a panic on the way. -/
def runSteps (ext : Externals) (h : List Step) (r : QueryRouter) : Option QueryRouter :=
  h.foldlM (Step.run ext) r

def recordedBy (ext : Externals) (r : QueryRouter) (m : Bytes) : List Int :=
  ((({ r with placeholders := [] } : QueryRouter).infer ext m).map (·.1.placeholders)).getD []

/-- All that is pending when a statement is inferred is recorded by it, too. -/
def Owned (ext : Externals) (r : QueryRouter) (m : Bytes) : Prop :=
  ∀ p ∈ r.placeholders, p ∈ recordedBy ext r m

def parseThenBind (ext : Externals) (r : QueryRouter) (p b : Bytes) : Option (Option Nat) := do
  let (r, _) ← r.infer ext p
  (r.inferShardFromBind ext b).map (·.1.activeShard)

theorem infer_placeholders {ext : Externals} {r r' : QueryRouter} {p : Bytes} {ok : Bool}
    (hinfer : r.infer ext p = some (r', ok)) :
    r'.placeholders = r.placeholders ++ recordedBy ext r p := by
  have hagree : Agree r.placeholders [] r { r with placeholders := [] } :=
    ⟨rfl, rfl, [], (List.append_nil _).symm, rfl⟩
  have hrel := @Agree.infer ext _ _ _ _ p hagree
  rw [hinfer] at hrel
  unfold recordedBy
  cases hclean : QueryRouter.infer ext { r with placeholders := [] } p with
  | none =>
    rw [hclean] at hrel
    cases hrel
  | some out =>
    rw [hclean] at hrel
    cases hrel with
    | some h =>
      obtain ⟨q, hq, hq'⟩ := h.pending
      rw [hq, Option.map_some, Option.getD_some, hq', List.nil_append]

theorem parseThenBind_congr {ext : Externals} {r₁ r₂ : QueryRouter} (hsettings : r₁.poolSettings = r₂.poolSettings)
    (hshard : r₁.activeShard = r₂.activeShard) (p b : Bytes) (howned₁ : Owned ext r₁ p) (howned₂ : Owned ext r₂ p) :
    parseThenBind ext r₁ p b = parseThenBind ext r₂ p b := by
  have hagree : Agree r₁.placeholders r₂.placeholders r₁ r₂ :=
    ⟨hsettings, hshard, [], (List.append_nil _).symm, (List.append_nil _).symm⟩
  have hrel := @Agree.infer ext _ _ _ _ p hagree
  unfold parseThenBind
  generalize hinfer₁ : r₁.infer ext p = out₁ at hrel ⊢
  generalize hinfer₂ : r₂.infer ext p = out₂ at hrel ⊢
  cases hrel with
  | none => rfl
  | some h =>
    obtain ⟨q, hq₁, hq₂⟩ := h.pending
    -- Both statements record `q`, and what was pending is part of it.
    have hrecorded₁ : recordedBy ext r₁ p = q :=
      List.append_cancel_left ((infer_placeholders hinfer₁).symm.trans hq₁)
    have hrecorded₂ : recordedBy ext r₂ p = q :=
      List.append_cancel_left ((infer_placeholders hinfer₂).symm.trans hq₂)
    refine QueryRouter.inferShardFromBind_congr h.settings h.shard ?_ b
    intro position
    rw [hq₁, hq₂, List.mem_append, List.mem_append]
    have hin₁ : position ∈ r₁.placeholders → position ∈ q :=
      fun hp => hrecorded₁ ▸ howned₁ position hp
    have hin₂ : position ∈ r₂.placeholders → position ∈ q :=
      fun hp => hrecorded₂ ▸ howned₂ position hp
    constructor
    · rintro (hp | hp)
      · exact .inr (hin₁ hp)
      · exact .inr hp
    · rintro (hp | hp)
      · exact .inr (hin₂ hp)
      · exact .inr hp

/-- Where a `Parse` and its `Bind` lead to after a history. -/
def routedAfter (ext : Externals) (h : List Step) (p b : Bytes) : Option (Option Nat) := do
  let r ← runSteps ext h .new
  parseThenBind ext r p b

/-- After any two runs that lead to the same settings and shard, with nothing pending but what a `Parse` records
itself, the `Parse` and its `Bind` lead to the same shard. -/
theorem bind_routed_by_own_parse (ext : Externals) (h₁ h₂ : List Step) (r₁ r₂ : QueryRouter)
    (hrun₁ : runSteps ext h₁ .new = some r₁) (hrun₂ : runSteps ext h₂ .new = some r₂)
    (hsettings : r₁.poolSettings = r₂.poolSettings) (hshard : r₁.activeShard = r₂.activeShard)
    (p b : Bytes) (howned₁ : Owned ext r₁ p) (howned₂ : Owned ext r₂ p) :
    routedAfter ext h₁ p b = routedAfter ext h₂ p b := by
  rw [routedAfter, routedAfter, hrun₁, hrun₂]
  exact parseThenBind_congr hsettings hshard p b howned₁ howned₂

namespace Sample

def aboveText : String := "SELECT * FROM data WHERE b > $1"

/-- `k = $1` and `b > $1`: only the first is recorded. -/
def preparedTexts : Externals where
  parseSql text :=
    if text = oneText then some [.query (selectWhere [] [] dataTable (columnIsFive "k").toPrepared)]
    else if text = aboveText then
      some [.query (selectWhere [] [] dataTable
        (Clause.binaryOp (.column ⟨"b"⟩) .gt (.literal ⟨false, "5", 5, parseNat_five⟩ 1)).toPrepared)]
    else none
  sha1Digest _ := 0
  checks := false

/-- A statement that was inferred and never bound. -/
def unboundHistory : List Step := [.settings shardedSettings, .infer (parseOf oneText).bytes]

def unboundRouter : QueryRouter := { shardedRouter with placeholders := [1] }

theorem infer_oneText :
    shardedRouter.infer preparedTexts (parseOf oneText).bytes = some (unboundRouter, true) := by
  have hkey : shardedRouter.keyParts = some ("data", "k") := by decide +kernel
  have htext : QueryRouter.sqlText (parseOf oneText).bytes = some (some oneText) := by decide +kernel
  rw [QueryRouter.infer_selectWhere htext rfl, QueryRouter.selectShard_selectWhere hkey]
  rfl

/-- The placeholder of the first statement routes the `Bind` of the second. -/
theorem unbound_parse_routes_bind :
    ∃ r₁ r₂, runSteps preparedTexts unboundHistory .new = some r₁ ∧
      runSteps preparedTexts [.settings shardedSettings] .new = some r₂ ∧
      r₁.poolSettings = r₂.poolSettings ∧ r₁.activeShard = r₂.activeShard ∧
      parseThenBind preparedTexts r₁ (parseOf aboveText).bytes bindFive.message.bytes = some (some 1) ∧
      parseThenBind preparedTexts r₂ (parseOf aboveText).bytes bindFive.message.bytes = some none := by
  refine ⟨unboundRouter, shardedRouter, ?_, rfl, rfl, rfl, by decide +kernel, by decide +kernel⟩
  have hfirst : QueryRouter.new.updatePoolSettings shardedSettings = shardedRouter := rfl
  simp [runSteps, unboundHistory, Step.run, hfirst, infer_oneText]

/-- The same statement, bound. -/
def boundHistory : List Step := unboundHistory ++ [.bind bindFive.message.bytes]

theorem bind_unboundRouter :
    (unboundRouter.inferShardFromBind preparedTexts bindFive.message.bytes) =
      some (shardedRouter.setShard 1, true) := by
  have hintegers : bindFive.integers unboundRouter.placeholders = [5] := by decide +kernel
  have hcommon : QueryRouter.commonShard preparedTexts unboundRouter [5] = some 1 := by decide +kernel
  rw [QueryRouter.inferShardFromBind_straight preparedTexts (by decide +kernel) (by decide +kernel),
    hintegers, QueryRouter.hashed_of_pos (by decide), Option.map_some, hcommon]
  rfl

/-- A statement that was bound leaves nothing to the next one. -/
theorem bound_parse_routes_alike :
    ∃ r₁ r₂, runSteps preparedTexts boundHistory .new = some r₁ ∧
      runSteps preparedTexts [.settings shardedSettings, .shard 1] .new = some r₂ ∧
      routedAfter preparedTexts boundHistory (parseOf aboveText).bytes bindFive.message.bytes =
        routedAfter preparedTexts [.settings shardedSettings, .shard 1] (parseOf aboveText).bytes
          bindFive.message.bytes := by
  have hfirst : QueryRouter.new.updatePoolSettings shardedSettings = shardedRouter := rfl
  have hinfer : (Step.infer (parseOf oneText).bytes).run preparedTexts shardedRouter = some unboundRouter := by
    rw [Step.run, infer_oneText, Option.map_some]
  have hbind : (Step.bind bindFive.message.bytes).run preparedTexts unboundRouter =
      some (shardedRouter.setShard 1) := by
    rw [Step.run, bind_unboundRouter, Option.map_some]
  have hrun : runSteps preparedTexts boundHistory .new = some (shardedRouter.setShard 1) := by
    simp [runSteps, boundHistory, unboundHistory, hinfer, hbind, Step.run.eq_4, hfirst]
  have hset : runSteps preparedTexts [.settings shardedSettings, .shard 1] .new =
      some (shardedRouter.setShard 1) := rfl
  have howned : Owned preparedTexts (shardedRouter.setShard 1) (parseOf aboveText).bytes :=
    fun p hp => absurd hp List.not_mem_nil
  exact ⟨_, _, hrun, hset, bind_routed_by_own_parse _ _ _ _ _ hrun hset rfl rfl _ _ howned howned⟩

end Sample

end PgCat.Router
