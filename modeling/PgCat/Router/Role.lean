import PgCat.Lib.Program
import PgCat.Router.QueryRouter

/-!
# Role — what `infer` does to the router

`Inferred r r'` collects what inference leaves alone: the settings and the two overrides stay, and
the active shard is kept or becomes a shard of the settings.  The role after a message is a function
of the parsed statements and of `primary_reads_enabled()` alone (`messageRole`).
-/

namespace PgCat.Router

open Lib Protocol Config Sharding

namespace QueryRouter

variable {ext : Externals} {r r' : QueryRouter}

/-! ## What inference leaves alone -/

structure Inferred (r r' : QueryRouter) : Prop where
  settings : r'.poolSettings = r.poolSettings
  parser : r'.queryParserOverride = r.queryParserOverride
  reads : r'.primaryReadsOverride = r.primaryReadsOverride
  shard : r'.activeShard = r.activeShard ∨ ∃ s, r'.activeShard = some s ∧ s < r.poolSettings.shards

namespace Inferred

theorem refl (r : QueryRouter) : Inferred r r :=
  ⟨rfl, rfl, rfl, .inl rfl⟩

theorem trans {r₁ r₂ r₃ : QueryRouter} (h : Inferred r₁ r₂) (h' : Inferred r₂ r₃) : Inferred r₁ r₃ := by
  refine ⟨h'.settings.trans h.settings, h'.parser.trans h.parser, h'.reads.trans h.reads, ?_⟩
  rcases h'.shard with hs | ⟨s, hs, hlt⟩
  · rw [hs]
    exact h.shard
  · exact .inr ⟨s, hs, h.settings ▸ hlt⟩

theorem primaryReadsEnabled_eq (h : Inferred r r') : r'.primaryReadsEnabled = r.primaryReadsEnabled := by
  simp [primaryReadsEnabled, h.settings, h.reads]

theorem queryParserEnabled_eq (h : Inferred r r') : r'.queryParserEnabled = r.queryParserEnabled := by
  simp [queryParserEnabled, h.settings, h.parser]

theorem readRole_eq (h : Inferred r r') : r'.readRole = r.readRole := by
  simp [readRole, h.primaryReadsEnabled_eq]

theorem setRole (r : QueryRouter) (role : Option Role) : Inferred r { r with activeRole := role } :=
  ⟨rfl, rfl, rfl, .inl rfl⟩

theorem setShard {s : Nat} (h : Inferred r r') (hs : s < r.poolSettings.shards) :
    Inferred r (r'.setShard s) :=
  ⟨h.settings, h.parser, h.reads, .inr ⟨s, rfl, hs⟩⟩

end Inferred

/-! ## Shard inference -/

structure Searching (r : QueryRouter) (acc : QueryRouter × List Nat) : Prop where
  inferred : Inferred r acc.1
  bounded : ∀ s ∈ acc.2, s < r.poolSettings.shards

theorem Searching.start (r : QueryRouter) : Searching r (r, []) :=
  ⟨.refl r, by simp⟩

variable (acc : QueryRouter × List Nat) (names : List (List Ident)) {message : Bytes} {ok : Bool}

theorem recordKey_searching (key : ShardingKey) (acc' : QueryRouter × List Nat) (hacc : Searching r acc)
    (h : recordKey ext acc key = some acc') : Searching r acc' := by
  cases key with
  | value v =>
    rcases Option.bind_eq_some_iff.mp h with ⟨s, hs, hacc'⟩
    cases hacc'
    have hlt : s < r.poolSettings.shards := by
      have := Sharder.shard_lt _ hs
      simpa [sharder, hacc.inferred.settings] using this
    refine ⟨hacc.inferred, ?_⟩
    intro t ht
    rcases List.mem_insert_iff.mp ht with rfl | ht
    · exact hlt
    · exact hacc.bounded t ht
  | placeholder position =>
    cases h
    exact ⟨hacc.inferred.trans ⟨rfl, rfl, rfl, .inl rfl⟩, hacc.bounded⟩

theorem recordExpr_searching (acc : QueryRouter × List Nat) (e : Expr)
    (acc' : QueryRouter × List Nat) (hacc : Searching r acc)
    (h : recordExpr ext names acc e = some acc') : Searching r acc' := by
  rcases Option.bind_eq_some_iff.mp h with ⟨keys, _, hkeys⟩
  exact foldlM_some recordKey_searching keys acc acc' hacc hkeys

theorem onlyShard_mem {shards : List Nat} {s : Nat} (h : onlyShard shards = some s) : s ∈ shards := by
  unfold onlyShard at h
  split at h
  · cases h
    simp
  · cases h

mutual

theorem inferShard_inferred : ∀ (q : Query) {r r' : QueryRouter} {shard : Option Nat},
    inferShard ext r q = some (r', shard) →
      Inferred r r' ∧ ∀ s, shard = some s → s < r.poolSettings.shards
  | .mk _ body _, r, r', shard => by
    intro h
    rw [inferShard] at h
    rcases Option.bind_eq_some_iff.mp h with ⟨⟨r₁, shards⟩, hbody, hout⟩
    cases hout
    have hs : Searching r (r', shards) := bodyShards_searching body hbody
    exact ⟨hs.inferred, fun s hs' => hs.bounded s (onlyShard_mem hs')⟩

theorem bodyShards_searching : ∀ (body : SetExpr) {r : QueryRouter}
    {acc : QueryRouter × List Nat}, bodyShards ext r body = some acc → Searching r acc
  | .query q, r, acc => by
    intro h
    rw [bodyShards] at h
    rcases Option.bind_eq_some_iff.mp h with ⟨⟨r₁, shard⟩, hq, hout⟩
    cases hout
    rcases inferShard_inferred q hq with ⟨hinf, hlt⟩
    exact ⟨hinf, fun s hs => hlt s (by simpa [eq_comm] using hs)⟩
  | .select (.mk tables selection), r, acc => by
    intro h
    rw [bodyShards] at h
    exact foldlM_some (recordExpr_searching _) _ (r, []) acc (.start r) h
  | .setOperation _ _, r, _ => fun h => by cases h; exact .start r
  | .values, r, _ => fun h => by cases h; exact .start r
  | .insert _, r, _ => fun h => by cases h; exact .start r
  | .update _, r, _ => fun h => by cases h; exact .start r
  | .table, r, _ => fun h => by cases h; exact .start r

end

/-! With validated settings the search does not panic. -/

theorem recordKey_total (ext : Externals) (hv : r.poolSettings.Validated) (acc : QueryRouter × List Nat)
    (key : ShardingKey) (hacc : Searching r acc) :
    ∃ acc', recordKey ext acc key = some acc' ∧ Searching r acc' := by
  have hpos : 0 < acc.1.sharder.shards := by
    simpa [sharder, hacc.inferred.settings] using hv.shards
  have hsome : ∃ acc', recordKey ext acc key = some acc' := by
    cases key with
    | value v =>
      rcases Sharder.shard_isSome ext.sha1Digest hpos v with ⟨s, hs⟩
      exact ⟨_, by simp only [recordKey, hs]; rfl⟩
    | placeholder position => exact ⟨_, rfl⟩
  rcases hsome with ⟨acc', h⟩
  exact ⟨acc', h, recordKey_searching acc key acc' hacc h⟩

theorem selectionParser_total {k : String} (hv : r.poolSettings.Validated)
    (hk : r.poolSettings.automaticShardingKey = some k) (e : Expr) (names : List (List Ident)) :
    ∃ keys, r.selectionParser e names = some keys := by
  rcases List.length_eq_two.mp (hv.key k hk) with ⟨keyTable, keyColumn, hsplit⟩
  exact ⟨selectionKeys keyTable keyColumn names e, by simp [selectionParser, hk, hsplit]⟩

theorem recordExpr_total {k : String} (hv : r.poolSettings.Validated)
    (hk : r.poolSettings.automaticShardingKey = some k) (names : List (List Ident))
    (acc : QueryRouter × List Nat) (e : Expr) (hacc : Searching r acc) :
    ∃ acc', recordExpr ext names acc e = some acc' ∧ Searching r acc' := by
  have hset : acc.1.poolSettings = r.poolSettings := hacc.inferred.settings
  rcases selectionParser_total (hset ▸ hv) (hset ▸ hk) e names with ⟨keys, hkeys⟩
  rcases foldlM_total (fun acc key _ => recordKey_total ext hv acc key) acc hacc with ⟨acc', hfold, hacc'⟩
  exact ⟨acc', by simpa [recordExpr, hkeys] using hfold, hacc'⟩

mutual

theorem inferShard_total (ext : Externals) : ∀ (q : Query) {r : QueryRouter} {k : String},
    r.poolSettings.Validated → r.poolSettings.automaticShardingKey = some k →
      ∃ out, inferShard ext r q = some out
  | .mk _ body _, r, k, hv, hk => by
    rcases bodyShards_total ext body hv hk with ⟨acc, hacc⟩
    exact ⟨_, by rw [inferShard, hacc]; rfl⟩

theorem bodyShards_total (ext : Externals) : ∀ (body : SetExpr) {r : QueryRouter} {k : String},
    r.poolSettings.Validated → r.poolSettings.automaticShardingKey = some k →
      ∃ acc, bodyShards ext r body = some acc
  | .query q, r, k, hv, hk => by
    rcases inferShard_total ext q hv hk with ⟨out, hout⟩
    exact ⟨_, by rw [bodyShards, hout]; rfl⟩
  | .select (.mk tables selection), r, k, hv, hk => by
    rw [bodyShards]
    rcases foldlM_total (fun acc e _ => recordExpr_total hv hk _ acc e) (r, []) (.start r)
      with ⟨acc, hacc, -⟩
    exact ⟨acc, hacc⟩
  | .setOperation _ _, _, _, _, _ => ⟨_, rfl⟩
  | .values, _, _, _, _ => ⟨_, rfl⟩
  | .insert _, _, _, _, _ => ⟨_, rfl⟩
  | .update _, _, _, _, _ => ⟨_, rfl⟩
  | .table, _, _, _, _ => ⟨_, rfl⟩

end

/-! ## Role inference -/

theorem selectShard_inferred {q : Query} (h : selectShard ext r q = some r') : Inferred r r' := by
  cases hk : r.poolSettings.automaticShardingKey with
  | none =>
    have hr : r = r' := by simpa [selectShard, hk] using h
    exact hr ▸ .refl r
  | some k =>
    simp only [selectShard, hk, Option.map_eq_some_iff] at h
    rcases h with ⟨⟨r₁, shard⟩, hq, rfl⟩
    rcases inferShard_inferred q hq with ⟨hinf, hlt⟩
    cases shard with
    | none => exact hinf
    | some s => exact hinf.setShard (hlt s rfl)

theorem selectShard_total (hv : r.poolSettings.Validated) (q : Query) :
    ∃ r', selectShard ext r q = some r' := by
  cases hk : r.poolSettings.automaticShardingKey with
  | none => exact ⟨r, by simp [selectShard, hk]⟩
  | some k =>
    rcases inferShard_total ext q hv hk with ⟨out, hout⟩
    simp [selectShard, hk, hout]

theorem inferQuery_inferred {q : Query} (h : inferQuery ext r q = some r') :
    Inferred r r' ∧ r'.activeRole = r.readRole := by
  rcases Option.map_eq_some_iff.mp h with ⟨r₁, hr₁, rfl⟩
  have hinf : Inferred r r₁ := selectShard_inferred hr₁
  exact ⟨hinf.trans (.setRole _ _), hinf.readRole_eq⟩

theorem inferQuery_total (hv : r.poolSettings.Validated) (q : Query) :
    ∃ r', inferQuery ext r q = some r' := by
  rcases selectShard_total hv q with ⟨r₁, hr₁⟩
  exact ⟨_, by rw [inferQuery, hr₁]; rfl⟩

/-- The role a list of statements leaves: the primary as soon as one of them is not a query. -/
def statementsRole (r : QueryRouter) (stmts : List Statement) : Option Role :=
  if stmts.any (!·.isQuery) then some .primary
  else if stmts.isEmpty then r.activeRole
  else r.readRole

theorem inferStatements_inferred : ∀ {stmts : List Statement} {r r' : QueryRouter},
    inferStatements ext r stmts = some r' →
      Inferred r r' ∧ r'.activeRole = r.statementsRole stmts := by
  intro stmts
  induction stmts with
  | nil =>
    intro r r' h
    cases h
    exact ⟨.refl r, by simp [statementsRole]⟩
  | cons st rest ih =>
    intro r r' h
    cases st with
    | query q =>
      rcases Option.bind_eq_some_iff.mp h with ⟨r₁, hq, hrest⟩
      rcases inferQuery_inferred hq with ⟨hinf, hrole⟩
      rcases ih hrest with ⟨hinf', hrole'⟩
      refine ⟨hinf.trans hinf', hrole'.trans ?_⟩
      -- A query followed by nothing has set the read role itself.
      cases rest with
      | nil => simp [statementsRole, Statement.isQuery, hrole]
      | cons st' rest' => simp [statementsRole, Statement.isQuery, hinf.readRole_eq]
    | startTransaction | other =>
      cases h
      exact ⟨.setRole r _, by simp [statementsRole, Statement.isQuery]⟩

theorem inferStatements_total (ext : Externals) : ∀ (stmts : List Statement) {r : QueryRouter},
    r.poolSettings.Validated → ∃ r', inferStatements ext r stmts = some r' := by
  intro stmts
  induction stmts with
  | nil =>
    intro r _
    exact ⟨r, rfl⟩
  | cons st rest ih =>
    intro r hv
    cases st with
    | query q =>
      rcases inferQuery_total hv q with ⟨r₁, hq⟩
      have hset : r₁.poolSettings = r.poolSettings := (inferQuery_inferred hq).1.settings
      rcases ih (hset ▸ hv) with ⟨r', hr'⟩
      exact ⟨r', by rw [inferStatements, hq]; exact hr'⟩
    | startTransaction => exact ⟨_, rfl⟩
    | other => exact ⟨_, rfl⟩

/-- The role after a message whose text parses to `parsed`. -/
def messageRole (primaryReads : Bool) : Option (List Statement) → Option Role
  | none => some .primary
  | some stmts =>
    if stmts.isEmpty || stmts.any (!·.isQuery) then some .primary
    else if primaryReads then none
    else some .replica

/-- Is a text that parses to this a write for the router? -/
def isWrite : Option (List Statement) → Bool
  | none => true
  | some stmts => stmts.isEmpty || stmts.any (!·.isQuery)

theorem messageRole_primary_iff (primaryReads : Bool) (parsed : Option (List Statement)) :
    messageRole primaryReads parsed = some .primary ↔ isWrite parsed = true := by
  cases parsed with
  | none => simp [messageRole, isWrite]
  | some stmts =>
    change (if (stmts.isEmpty || stmts.any (!·.isQuery)) = true then _ else _) = _ ↔
      (stmts.isEmpty || stmts.any (!·.isQuery)) = true
    by_cases hw : (stmts.isEmpty || stmts.any (!·.isQuery)) = true
    · simp only [hw, if_true]
    · rw [if_neg hw]
      cases primaryReads with
      | false => simpa using hw
      | true => simpa using hw

theorem messageRole_statements {stmts : List Statement} (hne : stmts ≠ []) :
    messageRole r.primaryReadsEnabled (some stmts) = r.statementsRole stmts := by
  cases stmts with
  | nil => exact absurd rfl hne
  | cons st rest => simp [messageRole, statementsRole, readRole]

theorem messageRole_perm {parsed parsed' : Option (List Statement)}
    (h : Option.Rel List.Perm parsed parsed') (primaryReads : Bool) :
    messageRole primaryReads parsed = messageRole primaryReads parsed' := by
  cases h with
  | none => rfl
  | some h => simp only [messageRole, h.any_eq, h.isEmpty_eq]

theorem infer_inferred {text : String}
    (ht : sqlText message = some (some text)) (h : r.infer ext message = some (r', ok)) :
    Inferred r r' ∧ r'.role = messageRole r.primaryReadsEnabled (ext.parseSql text) := by
  rw [infer, ht] at h
  simp only [some_bind] at h
  cases hp : ext.parseSql text with
  | none =>
    rw [hp] at h
    cases h
    exact ⟨.setRole r _, rfl⟩
  | some stmts =>
    cases stmts with
    | nil =>
      rw [hp] at h
      cases h
      exact ⟨.setRole r _, rfl⟩
    | cons st rest =>
      rw [hp] at h
      rcases Option.bind_eq_some_iff.mp h with ⟨r₁, hst, hout⟩
      cases hout
      rcases inferStatements_inferred hst with ⟨hinf, hrole⟩
      exact ⟨hinf, hrole.trans (messageRole_statements (List.cons_ne_nil st rest)).symm⟩

theorem infer_other (ht : sqlText message = some none)
    (h : r.infer ext message = some (r', ok)) : r' = r := by
  rw [infer, ht] at h
  cases h
  rfl

theorem sqlText_text {m : Message} {out : Option String}
    (hm : m.frontend = .query ∨ m.frontend = .parse) (h : sqlText m.bytes = some out) :
    ∃ text, out = some text := by
  unfold sqlText at h
  rcases Option.bind_eq_some_iff.mp h with ⟨⟨code, bs⟩, hcode, h⟩
  cases hcode
  rcases Option.bind_eq_some_iff.mp h with ⟨⟨len, bs₁⟩, _, h⟩
  dsimp only at h
  rcases hm with hm | hm
  · rw [Message.char_of_query hm] at h
    rcases Option.bind_eq_some_iff.mp h with ⟨⟨query, _⟩, _, h⟩
    cases h
    exact ⟨query, rfl⟩
  · rw [Message.char_of_parse hm] at h
    rcases Option.bind_eq_some_iff.mp h with ⟨⟨_, bs₂⟩, _, h⟩
    rcases Option.bind_eq_some_iff.mp h with ⟨⟨query, _⟩, _, h⟩
    cases h
    exact ⟨query, rfl⟩

/-- Is a `Q` or `P` message a write for the router? -/
def writes (ext : Externals) (m : Message) : Bool :=
  match sqlText m.bytes with
  | some (some text) => isWrite (ext.parseSql text)
  | _ => false

theorem infer_primary_iff {m : Message}
    (hm : m.frontend = .query ∨ m.frontend = .parse) (h : r.infer ext m.bytes = some (r', ok)) :
    r'.activeRole = some .primary ↔ writes ext m = true := by
  cases ht : sqlText m.bytes with
  | none =>
    rw [infer, ht] at h
    cases h
  | some out =>
    rcases sqlText_text hm ht with ⟨text, rfl⟩
    have hrole : r'.activeRole = _ := (infer_inferred ht h).2
    rw [hrole, messageRole_primary_iff]
    simp [writes, ht]

theorem infer_keeps (h : r.infer ext message = some (r', ok)) : Inferred r r' := by
  cases ht : sqlText message with
  | none =>
    rw [infer, ht] at h
    cases h
  | some text =>
    cases text with
    | none => exact infer_other ht h ▸ .refl r
    | some text => exact (infer_inferred ht h).1

theorem infer_total (ext : Externals) {text : String} (hv : r.poolSettings.Validated)
    (ht : sqlText message = some (some text)) : ∃ r' ok, r.infer ext message = some (r', ok) := by
  rw [infer, ht]
  cases hp : ext.parseSql text with
  | none => simp [hp]
  | some stmts =>
    cases stmts with
    | nil => simp [hp]
    | cons st rest =>
      rcases inferStatements_total ext (st :: rest) hv with ⟨r', hr'⟩
      exact ⟨r', true, by simp [hp, hr']⟩

def plainSelect : Query := .mk [] (.select (.mk [] none)) []

/-- After `infer` the role is the one of the statements, whatever their order and whatever role was
active before. -/
theorem infer_role (ext : Externals) (r : QueryRouter) (message : Bytes) (text : String)
    (hv : r.poolSettings.Validated) (ht : sqlText message = some (some text)) :
    (∃ r' ok, r.infer ext message = some (r', ok) ∧
      r'.role = messageRole r.primaryReadsEnabled (ext.parseSql text)) ∧
    ∀ (ext' : Externals) (role : Option Role),
      Option.Rel List.Perm (ext.parseSql text) (ext'.parseSql text) →
      ∃ r₁ ok₁ r₂ ok₂, r.infer ext message = some (r₁, ok₁) ∧
        { r with activeRole := role }.infer ext' message = some (r₂, ok₂) ∧ r₂.role = r₁.role := by
  rcases infer_total ext hv ht with ⟨r₁, ok₁, h₁⟩
  have hrole := (infer_inferred ht h₁).2
  refine ⟨⟨r₁, ok₁, h₁, hrole⟩, ?_⟩
  intro ext' role hperm
  have hv' : { r with activeRole := role }.poolSettings.Validated := hv
  rcases infer_total ext' hv' ht with ⟨r₂, ok₂, h₂⟩
  have hrole' := (infer_inferred ht h₂).2
  refine ⟨r₁, ok₁, r₂, ok₂, h₁, h₂, hrole'.trans (Eq.trans ?_ hrole.symm)⟩
  exact (messageRole_perm hperm _).symm

/-- A parser for the text `SELECT 1; DROP TABLE t`. -/
def selectDrop : Externals := ⟨fun _ => some [.query plainSelect, .other], fun _ => 0, false⟩

theorem infer_role_select_drop :
    ∃ r' ok, new.infer selectDrop (simpleQuery "SELECT 1; DROP TABLE t").bytes = some (r', ok) ∧
      r'.role = some .primary :=
  (infer_role selectDrop new (simpleQuery "SELECT 1; DROP TABLE t").bytes "SELECT 1; DROP TABLE t"
    PoolSettings.default_validated (by decide)).1

/-! ## Writes inside a query -/

/-- Among lists in which something writes or locks, exactly those with a statement that is not a
`Statement::Query` are sent to the primary. -/
theorem infer_write_primary_iff (ext : Externals) (r : QueryRouter) (message : Bytes)
    (text : String) (stmts : List Statement) (ht : sqlText message = some (some text)) (hp : ext.parseSql text = some stmts)
    (hw : stmts.any Statement.writesOrLocks) :
    (∀ r' ok, r.infer ext message = some (r', ok) →
      (r'.role = some .primary ↔ ∃ st ∈ stmts, st.isQuery = false)) ∧
    (r.poolSettings.Validated → ∃ r' ok, r.infer ext message = some (r', ok)) := by
  refine ⟨?_, fun hv => infer_total ext hv ht⟩
  intro r' ok h
  have hne : stmts.isEmpty = false := by
    cases stmts with
    | nil => simp at hw
    | cons st rest => rfl
  rw [(infer_inferred ht h).2, hp]
  by_cases hq : ∃ st ∈ stmts, st.isQuery = false
  · have hany : stmts.any (!·.isQuery) = true := by simpa using hq
    simp [messageRole, hany, hq]
  · have hany : stmts.any (!·.isQuery) = false := by simpa using hq
    cases r.primaryReadsEnabled with
    | false | true => simp [messageRole, hne, hany, hq]

theorem infer_write_primary_drop :
    ∃ r' ok, new.infer selectDrop (simpleQuery "SELECT 1; DROP TABLE t").bytes = some (r', ok) ∧
      r'.role = some .primary := by
  have hiff := infer_write_primary_iff selectDrop new (simpleQuery "SELECT 1; DROP TABLE t").bytes
    "SELECT 1; DROP TABLE t" [.query plainSelect, .other] (by decide) rfl (by decide)
  rcases hiff.2 PoolSettings.default_validated with ⟨r', ok, h⟩
  exact ⟨r', ok, h, (hiff.1 r' ok h).mpr (by decide)⟩

/-- Three writes that `sqlparser` returns as `Statement::Query`. -/
def writingQueries : List (String × Statement) :=
  [("WITH t AS (SELECT 1) INSERT INTO u SELECT * FROM t",
      .query (.mk [plainSelect] (.insert .other) [])),
    ("WITH t AS (INSERT INTO u VALUES (1) RETURNING id) SELECT * FROM t",
      .query (.mk [.mk [] (.insert .other) []]
        (.select (.mk [.mk (.table [⟨"t"⟩]) []] none)) [])),
    ("SELECT * FROM u WHERE id = 1 FOR UPDATE",
      .query (.mk [] (.select (.mk [.mk (.table [⟨"u"⟩]) []]
        (some (.binaryOp (.identifier ⟨"id"⟩) .eq (.value (.number "1")))))) [.update]))]

def writingParser : Externals where
  parseSql text := (writingQueries.lookup text).map fun st => [st]
  sha1Digest _ := 0
  checks := false

def replicaReads : QueryRouter :=
  { new with poolSettings :=
      { PoolSettings.default with queryParserEnabled := true, primaryReadsEnabled := false } }

theorem infer_writing_query_replica :
    writingQueries.map (fun p => (sqlText (simpleQuery p.1).bytes = some (some p.1) : Bool)) =
      [true, true, true] ∧
    writingQueries.map (fun p => p.2.writesOrLocks) = [true, true, true] ∧
    writingQueries.map (fun p =>
      (replicaReads.infer writingParser (simpleQuery p.1).bytes).map fun out => out.1.role) =
      [some (some .replica), some (some .replica), some (some .replica)] := by
  decide +kernel

end QueryRouter

end PgCat.Router
