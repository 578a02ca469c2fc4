import PgCat.Router.BindMessage

/-!
# Placeholders — prepared statements and the queries they stand for

A `Clause` is a `WHERE` clause over integer literals, each with the number of the placeholder that takes
its place when the query is prepared.  The literal query is routed by the literals compared with the
sharding key (`Clause.keys`); the prepared one by whatever is bound to the placeholders that
`selection_parser` comes across (`Clause.positions`), compared with the key or not.
-/

namespace PgCat.Router

open Lib Protocol Config Sharding QueryRouter

/-! ## Clauses -/

/-- An integer literal as it is written, with or without a minus sign. -/
structure Literal where
  negative : Bool
  text : String
  n : Nat
  reads : parseNat text.toList = some n

def Literal.value (l : Literal) : Int :=
  if l.negative then -(l.n : Int) else l.n

/-- The tree of a literal; with a minus sign it is an operation, which the router does not look into. -/
def Literal.toExpr (l : Literal) : Expr :=
  if l.negative then .other else .value (.number l.text)

inductive Clause
  | column (ident : Ident)
  | compound (idents : List Ident)
  | literal (l : Literal) (position : Nat)
  | binaryOp (left : Clause) (op : BinaryOperator) (right : Clause)
  | nested (c : Clause)
  | other

def placeholderText (position : Nat) : String :=
  String.ofList ('$' :: Nat.toDigits 10 position)

namespace Clause

def toLiteral : Clause → Expr
  | .column ident => .identifier ident
  | .compound idents => .compoundIdentifier idents
  | .literal l _ => l.toExpr
  | .binaryOp left op right => .binaryOp left.toLiteral op right.toLiteral
  | .nested c => .nested c.toLiteral
  | .other => .other

def toPrepared : Clause → Expr
  | .column ident => .identifier ident
  | .compound idents => .compoundIdentifier idents
  | .literal _ position => .value (.placeholder (placeholderText position))
  | .binaryOp left op right => .binaryOp left.toPrepared op right.toPrepared
  | .nested c => .nested c.toPrepared
  | .other => .other

/-- The literals and the numbers of their placeholders. -/
def literals : Clause → List (Literal × Nat)
  | .literal l position => [(l, position)]
  | .binaryOp left _ right => left.literals ++ right.literals
  | .nested c => c.literals
  | _ => []

section Keys

variable (table key : String) (names : List (List Ident))

def isKey : Clause → Bool
  | .column ident => identFound table key names ident
  | .compound idents => compoundFound table key idents
  | _ => false

def follows : BinaryOperator → Bool
  | .eq | .or | .and => true
  | _ => false

/-- The literal as a value of the sharding key: it fits an `i64`, and a minus sign hides it. -/
def literalKey (found : Bool) (l : Literal) : List Int :=
  if found ∧ l.negative = false ∧ l.n ≤ 2 ^ 63 - 1 then [(l.n : Int)] else []

/-- The keys of a right-hand side: a literal is compared with the left-hand side, anything else is
searched (`inside`). -/
def rightKeys (found : Bool) (inside : List Int) : Clause → List Int
  | .literal l _ => literalKey found l
  | _ => inside

/-- The literals that are taken for values of the sharding key. -/
def keys : Clause → List Int
  | .binaryOp left op right =>
    if follows op then left.keys ++ rightKeys (left.isKey table key names) right.keys right else []
  | _ => []

/-- The placeholders of a right-hand side. -/
def rightPositions (inside : List Int) : Clause → List Int
  | .literal _ position => if position ≤ 2 ^ 15 - 1 then [(position : Int)] else []
  | _ => inside

/-- The placeholders that are recorded; the column they are compared with is not looked at. -/
def positions : Clause → List Int
  | .binaryOp left op right =>
    if follows op then left.positions ++ rightPositions right.positions right else []
  | _ => []

end Keys

end Clause

/-! ## The keys found in the two trees -/

theorem parseI16_placeholderText (position : Nat) :
    parseI16 (stripDollar (placeholderText position)) =
      if position ≤ 2 ^ 15 - 1 then some (position : Int) else none := by
  have hstrip : stripDollar (placeholderText position) = Nat.toDigits 10 position := by
    have hdigits : ∀ c ∈ Nat.toDigits 10 position, decide (c ≠ '$') = true := by
      intro c hc
      have hdigit := (digits_of_parseNat (parseNat_toDigits position)).2 c hc
      refine decide_eq_true ?_
      rintro rfl
      cases hdigit
    rw [stripDollar, placeholderText, String.toList_ofList, List.filter_cons_of_neg (by decide),
      List.filter_eq_self.mpr hdigits]
  have hread := parseUnsigned_of_parseNat (parseNat_toDigits position) position
  rw [if_pos le_rfl] at hread
  rw [hstrip, parseI16, parseSigned_of_parseUnsigned hread]

theorem valueKeys_placeholder (found : Bool) (position : Nat) :
    valueKeys found (.placeholder (placeholderText position)) =
      (if position ≤ 2 ^ 15 - 1 then [(position : Int)] else []).map .placeholder := by
  simp only [valueKeys, parseI16_placeholderText]
  by_cases hp : position ≤ 2 ^ 15 - 1
  · simp only [if_pos hp]
    rfl
  · simp only [if_neg hp]
    rfl

section Trees

variable (table key : String) (names : List (List Ident))

/-- Does the left-hand side of a comparison name the sharding key? -/
def exprIsKey : Expr → Bool
  | .identifier ident => identFound table key names ident
  | .compoundIdentifier idents => compoundFound table key idents
  | _ => false

theorem selectionKeys_binaryOp (left right : Expr) (op : BinaryOperator) :
    selectionKeys table key names (.binaryOp left op right) =
      if Clause.follows op then
        selectionKeys table key names left ++
          match right with
          | .value v => valueKeys (exprIsKey table key names left) v
          | right => selectionKeys table key names right
      else
        [] := by
  cases op <;> cases left <;> cases right <;> rfl

theorem exprIsKey_toLiteral (c : Clause) :
    exprIsKey table key names c.toLiteral = c.isKey table key names := by
  cases c with
  | literal l position => cases h : l.negative <;> simp [Clause.toLiteral, Literal.toExpr, h, exprIsKey, Clause.isKey]
  | _ => rfl

theorem rightKeys_literal {found : Bool} (l : Literal) :
    (match l.toExpr with
      | .value v => valueKeys found v
      | right => selectionKeys table key names right) =
      (Clause.literalKey found l).map .value := by
  unfold Clause.literalKey
  cases hneg : l.negative with
  | true => simp [Literal.toExpr, hneg, selectionKeys]
  | false =>
    simp only [Literal.toExpr, hneg, Bool.false_eq_true, if_false, valueKeys,
      parseI64_of_literal l.reads, true_and]
    by_cases hn : l.n ≤ 2 ^ 63 - 1
    · simp only [hn, and_true]
      cases found <;> rfl
    · simp only [hn, and_false, if_false]
      cases found <;> rfl

theorem selectionKeys_toLiteral (c : Clause) :
    selectionKeys table key names c.toLiteral = (c.keys table key names).map .value := by
  induction c with
  | literal l position =>
    cases h : l.negative <;>
      simp [Clause.toLiteral, Literal.toExpr, h, selectionKeys, Clause.keys]
  | binaryOp left op right ihl ihr =>
    rw [Clause.toLiteral, selectionKeys_binaryOp, Clause.keys, exprIsKey_toLiteral, ihl]
    by_cases hop : Clause.follows op = true
    · rw [if_pos hop, if_pos hop, List.map_append]
      congr 1
      cases right with
      | literal l position => exact rightKeys_literal table key names l
      | _ => exact ihr
    · rw [if_neg hop, if_neg hop]
      rfl
  | _ => rfl

theorem selectionKeys_toPrepared (c : Clause) :
    selectionKeys table key names c.toPrepared = c.positions.map .placeholder := by
  induction c with
  | binaryOp left op right ihl ihr =>
    rw [Clause.toPrepared, selectionKeys_binaryOp, Clause.positions, ihl]
    by_cases hop : Clause.follows op = true
    · rw [if_pos hop, if_pos hop, List.map_append]
      congr 1
      cases right with
      | literal l position =>
        exact valueKeys_placeholder _ position
      | _ => exact ihr
    · rw [if_neg hop, if_neg hop]
      rfl
  | _ => rfl

end Trees

/-! ## What a query leaves in the router -/

def QueryRouter.keyParts (r : QueryRouter) : Option (String × String) :=
  match r.poolSettings.automaticShardingKey with
  | none => none
  | some key =>
    match splitKey key with
    | [table, column] => some (table, column)
    | _ => none

def valuesOf (ks : List ShardingKey) : List Int :=
  ks.filterMap fun
    | .value v => some v
    | .placeholder _ => none

def positionsOf (ks : List ShardingKey) : List Int :=
  ks.filterMap fun
    | .value _ => none
    | .placeholder position => some position

@[simp] theorem valuesOf_map_value (vs : List Int) : valuesOf (vs.map .value) = vs := by
  simp [valuesOf, List.filterMap_map]

@[simp] theorem valuesOf_map_placeholder (ps : List Int) : valuesOf (ps.map .placeholder) = [] := by
  simp [valuesOf, List.filterMap_map]

@[simp] theorem positionsOf_map_value (vs : List Int) : positionsOf (vs.map .value) = [] := by
  simp [positionsOf, List.filterMap_map]

@[simp] theorem positionsOf_map_placeholder (ps : List Int) : positionsOf (ps.map .placeholder) = ps := by
  simp [positionsOf, List.filterMap_map]

/-- `SELECT … FROM tables WHERE e`. -/
def selectWhere (ctes : List Query) (locks : List LockType) (tables : List TableWithJoins) (e : Expr) :
    Query :=
  .mk ctes (.select (.mk tables (some e))) locks

namespace QueryRouter

variable {ext : Externals} {r : QueryRouter} {table key : String}

theorem insertShards_congr {r' : QueryRouter} (h : r'.poolSettings = r.poolSettings) (vs : List Int) :
    ∀ shards, insertShards ext r' shards vs = insertShards ext r shards vs := by
  have hsharder : r'.sharder = r.sharder := by simp only [sharder, h]
  induction vs with
  | nil =>
    intro shards
    rfl
  | cons v vs ih =>
    intro shards
    simp only [insertShards, hsharder, ih]

theorem hashed_congr {r' : QueryRouter} (h : r'.poolSettings = r.poolSettings) (vs : List Int) :
    hashed ext r' vs = hashed ext r vs := by
  simp only [hashed, commonShard, sharder, h]

theorem foldlM_recordKey (ks : List ShardingKey) : ∀ acc : QueryRouter × List Nat,
    ks.foldlM (recordKey ext) acc =
      (insertShards ext acc.1 acc.2 (valuesOf ks)).map fun shards =>
        ({ acc.1 with placeholders := acc.1.placeholders ++ positionsOf ks }, shards) := by
  induction ks with
  | nil =>
    intro acc
    simp [insertShards, valuesOf, positionsOf]
  | cons k ks ih =>
    intro acc
    rw [List.foldlM_cons]
    cases k with
    | value v =>
      simp only [recordKey, Option.bind_eq_bind, Option.bind_assoc, Option.pure_def, Option.bind_some]
      simp only [ih]
      simp only [valuesOf, positionsOf, List.filterMap_cons, insertShards, Option.bind_eq_bind,
        Option.map_bind]
      rfl
    | placeholder position =>
      simp only [recordKey, Option.bind_eq_bind, Option.pure_def, Option.bind_some, ih]
      have hsame := @insertShards_congr ext acc.1
        { acc.1 with placeholders := acc.1.placeholders ++ [position] } rfl (valuesOf ks) acc.2
      rw [hsame]
      simp [valuesOf, positionsOf]

theorem selectionParser_eq (r : QueryRouter) (e : Expr) (names : List (List Ident)) :
    r.selectionParser e names = r.keyParts.map fun p => selectionKeys p.1 p.2 names e := by
  unfold selectionParser keyParts
  cases r.poolSettings.automaticShardingKey with
  | none => rfl
  | some sharding =>
    dsimp only
    match splitKey sharding with
    | [] => rfl
    | [_] => rfl
    | [_, _] => rfl
    | _ :: _ :: _ :: _ => rfl

theorem recordExpr_eq (hkey : r.keyParts = some (table, key)) (names : List (List Ident)) (e : Expr)
    {acc : QueryRouter × List Nat} (hacc : acc.1.poolSettings = r.poolSettings) :
    recordExpr ext names acc e = (selectionKeys table key names e).foldlM (recordKey ext) acc := by
  have hsame : acc.1.keyParts = r.keyParts := by rw [keyParts, keyParts, hacc]
  rw [recordExpr, selectionParser_eq, hsame, hkey]
  rfl

theorem foldlM_recordExpr (hkey : r.keyParts = some (table, key)) (names : List (List Ident))
    (es : List Expr) : ∀ {acc : QueryRouter × List Nat}, acc.1.poolSettings = r.poolSettings →
      es.foldlM (recordExpr ext names) acc =
        (es.flatMap (selectionKeys table key names)).foldlM (recordKey ext) acc := by
  induction es with
  | nil =>
    intro acc _
    rfl
  | cons e es ih =>
    intro acc hacc
    rw [List.foldlM_cons, List.flatMap_cons, List.foldlM_append, recordExpr_eq hkey names e hacc]
    cases hfold : (selectionKeys table key names e).foldlM (recordKey ext) acc with
    | none => rfl
    | some acc' =>
      rw [foldlM_recordKey] at hfold
      obtain ⟨shards, -, rfl⟩ := Option.map_eq_some_iff.mp hfold
      exact ih hacc

def queryKeys (table key : String) (tables : List TableWithJoins) (e : Expr) : List ShardingKey :=
  (tableExprs tables ++ [e]).flatMap (selectionKeys table key (tableNames tables))

theorem inferShard_selectWhere (hkey : r.keyParts = some (table, key)) (ctes : List Query)
    (locks : List LockType) (tables : List TableWithJoins) (e : Expr) :
    inferShard ext r (selectWhere ctes locks tables e) =
      (hashed ext r (valuesOf (queryKeys table key tables e))).map fun found =>
        ({ r with placeholders := r.placeholders ++ positionsOf (queryKeys table key tables e) }, found) := by
  have hfold := @foldlM_recordExpr ext r table key hkey (tableNames tables)
    (tableExprs tables ++ [e]) (r, []) rfl
  rw [foldlM_recordKey] at hfold
  rw [selectWhere, inferShard, bodyShards, Option.toList_some, hfold, ← insertShards_map_onlyShard]
  unfold queryKeys
  cases insertShards ext r []
      (valuesOf ((tableExprs tables ++ [e]).flatMap (selectionKeys table key (tableNames tables)))) with
  | none => rfl
  | some shards => rfl

theorem selectShard_selectWhere (hkey : r.keyParts = some (table, key)) (ctes : List Query)
    (locks : List LockType) (tables : List TableWithJoins) (e : Expr) :
    selectShard ext r (selectWhere ctes locks tables e) =
      (hashed ext r (valuesOf (queryKeys table key tables e))).map fun found =>
        { r with
          activeShard := found.or r.activeShard
          placeholders := r.placeholders ++ positionsOf (queryKeys table key tables e) } := by
  obtain ⟨sharding, hsharding⟩ : ∃ sharding, r.poolSettings.automaticShardingKey = some sharding := by
    unfold keyParts at hkey
    split at hkey
    · cases hkey
    · exact ⟨_, by assumption⟩
  rw [selectShard, hsharding]
  simp only [inferShard_selectWhere hkey, Option.map_map]
  congr 1
  funext found
  cases found with
  | none => rfl
  | some s => rfl

theorem selectShard_of_no_key (hkey : r.keyParts = none) (ctes : List Query) (locks : List LockType)
    (tables : List TableWithJoins) (e : Expr) :
    selectShard ext r (selectWhere ctes locks tables e) =
      if r.poolSettings.automaticShardingKey = none then some r else none := by
  cases hsharding : r.poolSettings.automaticShardingKey with
  | none => simp [selectShard, hsharding]
  | some sharding =>
    have hparser : ∀ e, r.selectionParser e (tableNames tables) = none := by
      intro e
      rw [selectionParser_eq, hkey]
      rfl
    have hbody : (tableExprs tables ++ [e]).foldlM (recordExpr ext (tableNames tables)) (r, []) = none := by
      cases hexprs : tableExprs tables ++ [e] with
      | nil => simp at hexprs
      | cons e' es => simp [recordExpr, hparser]
    simp [selectShard, hsharding, selectWhere, inferShard, bodyShards, hbody]

theorem infer_selectWhere {m : Bytes} {text : String} {q : Query}
    (htext : sqlText m = some (some text)) (hparsed : ext.parseSql text = some [.query q]) :
    r.infer ext m =
      (selectShard ext r q).map fun r' => ({ r' with activeRole := r'.readRole }, true) := by
  unfold infer
  rw [htext]
  simp only [some_bind, hparsed, inferStatements, inferQuery]
  cases selectShard ext r q with
  | none => rfl
  | some r' => rfl

end QueryRouter

/-! ## The two forms of a query -/

/-- A query with literals and its prepared form, with the `Bind` that gives each placeholder the value of
the literals it stands for. -/
structure Forms (ext : Externals) where
  ctes : List Query
  locks : List LockType
  tables : List TableWithJoins
  clause : Clause
  query : Bytes
  queryText : String
  query_text : sqlText query = some (some queryText)
  query_parsed : ext.parseSql queryText = some [.query (selectWhere ctes locks tables clause.toLiteral)]
  parse : Bytes
  parseText : String
  parse_text : sqlText parse = some (some parseText)
  parse_parsed : ext.parseSql parseText = some [.query (selectWhere ctes locks tables clause.toPrepared)]
  bind : BindMessage
  framed : Framed bind.message
  bound : ∀ x ∈ clause.literals, ∃ i value f, x.2 = i + 1 ∧ bind.values[i]? = some (some value) ∧
    bind.formats.get i = some f ∧ Encodes x.1.value value f

namespace Forms

variable {ext : Externals} (x : Forms ext) (r : QueryRouter)

def literalShard : Option (Option Nat) :=
  (r.infer ext x.query).map (·.1.activeShard)

def preparedShard : Option (Option Nat) := do
  let (r, _) ← r.infer ext x.parse
  (r.inferShardFromBind ext x.bind.message.bytes).map (·.1.activeShard)

/-- The keys of the join conditions, which are the same in both forms. -/
def joinKeys (table key : String) : List ShardingKey :=
  (tableExprs x.tables).flatMap
    (selectionKeys table key (tableNames x.tables))

theorem queryKeys_eq (table key : String) (e : Expr) :
    queryKeys table key x.tables e =
      x.joinKeys table key ++
        selectionKeys table key (tableNames x.tables) e := by
  simp [queryKeys, joinKeys]

/-- Every literal of the clause is taken for a value of the sharding key, every placeholder is recorded,
every parameter stands for a literal, and the join conditions hold no key. -/
structure Plain (table key : String) : Prop where
  joins : x.joinKeys table key = []
  keys : ∀ y ∈ x.clause.literals,
    y.1.value ∈ x.clause.keys table key (tableNames x.tables) ∧
      (y.2 : Int) ∈ x.clause.positions
  parameters : ∀ i < x.bind.values.length, ∃ l, (l, i + 1) ∈ x.clause.literals
  count : x.bind.values.length < 2 ^ 15

end Forms

namespace Clause

variable {table key : String} {names : List (List Ident)}

theorem mem_literalKey {found : Bool} {l : Literal} {v : Int} (h : v ∈ literalKey found l) :
    l.value = v ∧ InI64 v := by
  unfold literalKey at h
  split at h
  · rename_i hl
    rw [List.mem_singleton.mp h]
    exact ⟨by simp [Literal.value, hl.2.1], ⟨by omega, by have := hl.2.2; omega⟩⟩
  · cases h

theorem exists_literal_of_mem_keys {c : Clause} {v : Int} (h : v ∈ c.keys table key names) :
    InI64 v ∧ ∃ y ∈ c.literals, y.1.value = v := by
  induction c with
  | binaryOp left op right ihl ihr =>
    rw [keys] at h
    split at h
    · rcases List.mem_append.mp h with h | h
      · obtain ⟨hin, y, hy, hv⟩ := ihl h
        exact ⟨hin, y, List.mem_append_left _ hy, hv⟩
      · cases right with
        | literal l position =>
          obtain ⟨hv, hin⟩ := mem_literalKey h
          exact ⟨hin, (l, position), List.mem_append_right _ List.mem_cons_self, hv⟩
        | _ =>
          obtain ⟨hin, y, hy, hv⟩ := ihr h
          exact ⟨hin, y, List.mem_append_right _ hy, hv⟩
    · cases h
  | _ => cases h

end Clause

namespace Forms

variable {ext : Externals} {x : Forms ext} {r : QueryRouter} {table key : String}

/-- Every parameter is bound to a literal of the clause, and is recorded. -/
theorem Plain.parameter (h : x.Plain table key) {i : Nat} (hi : i < x.bind.values.length) :
    ∃ l value f, (l, i + 1) ∈ x.clause.literals ∧ x.bind.values[i]? = some (some value) ∧
      x.bind.formats.get i = some f ∧ recorded x.clause.positions i ∧ Encodes l.value value f := by
  obtain ⟨l, hl⟩ := h.parameters i hi
  obtain ⟨j, value, f, hj, hvalue, hf, hencodes⟩ := x.bound (l, i + 1) hl
  obtain rfl : i = j := by
    have hij : i + 1 = j + 1 := hj
    omega
  refine ⟨l, value, f, hl, hvalue, hf, ?_, hencodes⟩
  have hposition := (h.keys (l, i + 1) hl).2
  simpa [recorded] using hposition

theorem Plain.straight (h : x.Plain table key) : x.bind.straight x.clause.positions = true := by
  simp only [BindMessage.straight, Bool.and_eq_true, decide_eq_true_eq]
  refine ⟨h.count, straightFrom_of_read fun k value hk => ?_⟩
  obtain ⟨hlt, -⟩ := List.getElem?_eq_some_iff.mp hk
  obtain ⟨l, bytes, f, -, hvalue, hf, hrec, hencodes⟩ := h.parameter hlt
  rw [Nat.zero_add]
  rw [hvalue] at hk
  exact ⟨bytes, f, (Option.some.inj hk).symm, hf, unread_of_encodes hrec hencodes⟩

theorem Plain.mem_integers (h : x.Plain table key) {v : Int} :
    v ∈ x.bind.integers x.clause.positions ↔ v ∈ x.clause.keys table key (tableNames x.tables) := by
  rw [BindMessage.integers, mem_integersFrom]
  simp only [Nat.zero_add]
  constructor
  · rintro ⟨k, bytes, f, hvalue, hf, -, hdecode⟩
    obtain ⟨hlt, -⟩ := List.getElem?_eq_some_iff.mp hvalue
    obtain ⟨l, bytes', f', hl, hvalue', hf', -, hencodes⟩ := h.parameter hlt
    rw [hvalue] at hvalue'
    rw [hf] at hf'
    cases hvalue'
    cases hf'
    obtain ⟨hkey, -⟩ := h.keys (l, k + 1) hl
    have hin := (Clause.exists_literal_of_mem_keys hkey).1
    rw [decode_of_encodes hencodes, if_pos hin] at hdecode
    cases hdecode
    exact hkey
  · intro hkey
    obtain ⟨hin, ⟨l, position⟩, hl, rfl⟩ := Clause.exists_literal_of_mem_keys hkey
    obtain ⟨i, value, f, hi, hvalue, hf, hencodes⟩ := x.bound (l, position) hl
    refine ⟨i, value, f, hvalue, hf, ?_, ?_⟩
    · have hposition := (h.keys (l, position) hl).2
      have hnat : position = i + 1 := hi
      simpa [recorded, hnat] using hposition
    · rw [decode_of_encodes hencodes, if_pos hin]

theorem Plain.queryKeys_eq (h : x.Plain table key) (e : Expr) :
    queryKeys table key x.tables e =
      selectionKeys table key (tableNames x.tables) e := by
  rw [Forms.queryKeys_eq, h.joins, List.nil_append]

theorem Plain.literalShard_eq (h : x.Plain table key) (hkey : r.keyParts = some (table, key)) :
    x.literalShard r = (hashed ext r
      (x.clause.keys table key (tableNames x.tables))).map (·.or r.activeShard) := by
  rw [literalShard, infer_selectWhere x.query_text x.query_parsed,
    selectShard_selectWhere hkey, h.queryKeys_eq, selectionKeys_toLiteral, valuesOf_map_value]
  simp only [Option.map_map]
  rfl

theorem Plain.preparedShard_eq (h : x.Plain table key) (hkey : r.keyParts = some (table, key))
    (hpending : r.placeholders = []) :
    x.preparedShard r = (hashed ext r
      (x.clause.keys table key (tableNames x.tables))).map (·.or r.activeShard) := by
  -- The `Parse` selects nothing, and leaves the placeholders to the `Bind`.
  have hnone : hashed ext r [] = some none := if_neg fun hne => hne.2 rfl
  rw [preparedShard, infer_selectWhere x.parse_text x.parse_parsed,
    selectShard_selectWhere hkey, h.queryKeys_eq, selectionKeys_toPrepared,
    valuesOf_map_placeholder, positionsOf_map_placeholder, hpending, hnone]
  simp only [Option.map_some, some_bind, List.nil_append]
  rw [inferShardFromBind_straight ext x.framed h.straight, Option.map_map,
    hashed_of_same ext _ fun v => h.mem_integers, @hashed_congr ext r _ rfl]
  congr 1
  funext found
  cases found with
  | none => rfl
  | some s => rfl

end Forms

namespace Sample

/-- `Parse` of an unnamed statement. -/
def parseOf (text : String) : Message :=
  .ofChar 'P' (0 :: (utf8 text ++ [0, 0, 0]))

def dataTable : List TableWithJoins := [.mk (.table [⟨"data"⟩]) []]

theorem parseNat_five : parseNat "5".toList = some 5 := rfl

def columnIsFive (column : String) : Clause :=
  .binaryOp (.column ⟨column⟩) .eq (.literal ⟨false, "5", 5, parseNat_five⟩ 1)

def fiveText : String := "SELECT * FROM data WHERE x = 5"

def oneText : String := "SELECT * FROM data WHERE x = $1"

/-- A parser that reads the two texts, with the column in place of `x`. -/
def twoTexts (column : String) : Externals where
  parseSql text :=
    if text = fiveText then some [.query (selectWhere [] [] dataTable (columnIsFive column).toLiteral)]
    else if text = oneText then some [.query (selectWhere [] [] dataTable (columnIsFive column).toPrepared)]
    else none
  sha1Digest _ := 0
  checks := false

/-- One parameter in text format, `5`. -/
def bindFive : BindMessage where
  portal := []
  name := []
  codes := []
  values := [some [53]]
  results := []
  portal_text := List.not_mem_nil
  name_text := List.not_mem_nil
  codes_count := .inl rfl
  values_count := Nat.one_lt_two_pow (Nat.succ_ne_zero 15)

def fiveForms (column : String) : Forms (twoTexts column) where
  ctes := []
  locks := []
  tables := dataTable
  clause := columnIsFive column
  query := (simpleQuery fiveText).bytes
  queryText := fiveText
  query_text := by decide +kernel
  query_parsed := rfl
  parse := (parseOf oneText).bytes
  parseText := oneText
  parse_text := by decide +kernel
  parse_parsed := rfl
  bind := bindFive
  framed := by decide
  bound := by
    intro x hx
    rw [List.mem_singleton.mp hx]
    exact ⟨0, [53], .text, rfl, rfl, rfl, ['5'], 5, by decide, .inl ⟨rfl, rfl⟩⟩

end Sample

end PgCat.Router
