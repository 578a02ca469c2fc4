import Mathlib.Data.List.Nodup
import PgCat.Router.QueryRouter

/-!
# Selection — automatic sharding and the rows a `WHERE` clause selects

A `Where` is a clause built from comparisons of columns and integer literals with `AND`, `OR` and
parentheses; `Where.toExpr` is the tree the parser returns for it and `Where.Holds` says in which rows
it is true.  `selection_parser` collects every comparison `key = literal` it comes across (`Where.keys`),
whether it stands under an `AND` or under an `OR`.  What the clause still lets through when these
comparisons are false is `Where.Rest`: the rows automatic sharding may lose are the rows of `Rest`.
-/

namespace PgCat.Router

open Lib Config Sharding QueryRouter

/-! ## Clauses -/

/-- A column of the table, qualified or not, or an integer literal. -/
inductive Operand
  | column (name : String)
  | qualified (name : String)
  | literal (text : String) (n : Nat) (h : parseNat text.toList = some n)
  /-- A literal with a minus sign, which is an operation of its own for the parser. -/
  | negative (n : Nat)

inductive Comparison
  | eq
  | notEq
  | gt
  | lt
  | gtEq
  | ltEq
  deriving DecidableEq, Repr

inductive Where
  | compare (left : Operand) (op : Comparison) (right : Operand)
  | and (left right : Where)
  | or (left right : Where)
  | nested (w : Where)

/-- The values of the columns; `none` is `NULL`.  A sharding key is an `i64`. -/
structure Row (key : String) where
  column : String → Option Int
  fits : ∀ v, column key = some v → -2 ^ 63 ≤ v ∧ v ≤ 2 ^ 63 - 1

variable {key : String}

def Operand.value (row : Row key) : Operand → Option Int
  | .column name => row.column name
  | .qualified name => row.column name
  | .literal _ n _ => some n
  | .negative n => some (-n)

def Comparison.test : Comparison → Int → Int → Bool
  | .eq, a, b => a = b
  | .notEq, a, b => a ≠ b
  | .gt, a, b => a > b
  | .lt, a, b => a < b
  | .gtEq, a, b => a ≥ b
  | .ltEq, a, b => a ≤ b

/-- Is the comparison true?  With `NULL` on a side it is not. -/
def Comparison.Holds (op : Comparison) (a b : Option Int) : Prop :=
  ∃ x y, a = some x ∧ b = some y ∧ op.test x y = true

/-- The rows in which the clause is true; without negation an unknown operand is as good as a
false one. -/
def Where.Holds (row : Row key) : Where → Prop
  | .compare left op right => op.Holds (left.value row) (right.value row)
  | .and left right => left.Holds row ∧ right.Holds row
  | .or left right => left.Holds row ∨ right.Holds row
  | .nested w => w.Holds row

/-! ## The tree of a clause -/

def Operand.toExpr (table : String) : Operand → Expr
  | .column name => .identifier ⟨name⟩
  | .qualified name => .compoundIdentifier [⟨table⟩, ⟨name⟩]
  | .literal text _ _ => .value (.number text)
  | .negative _ => .other

def Comparison.toOperator : Comparison → BinaryOperator
  | .eq => .eq
  | .notEq => .notEq
  | .gt => .gt
  | .lt => .lt
  | .gtEq => .gtEq
  | .ltEq => .ltEq

def Where.toExpr (table : String) : Where → Expr
  | .compare left op right => .binaryOp (left.toExpr table) op.toOperator (right.toExpr table)
  | .and left right => .binaryOp (left.toExpr table) .and (right.toExpr table)
  | .or left right => .binaryOp (left.toExpr table) .or (right.toExpr table)
  | .nested w => .nested (w.toExpr table)

/-- `SELECT … FROM table WHERE …`, the table with or without its schema. -/
def selectFrom (ctes : List Query) (locks : List LockType) (schema : Option Ident) (table : String)
    (w : Where) : Query :=
  .mk ctes (.select (.mk [.mk (.table (schema.toList ++ [⟨table⟩])) []] (some (w.toExpr table)))) locks

/-! ## Keys found in a clause -/

def Operand.isColumn (key : String) : Operand → Bool
  | .column name | .qualified name => name = key
  | _ => false

/-- The value of `key = literal`; literals beyond 64 bits are not keys. -/
def keyOf (key : String) (left : Operand) (op : Comparison) (right : Operand) : Option Int :=
  match op, right with
  | .eq, .literal _ n _ => if left.isColumn key ∧ n ≤ 2 ^ 63 - 1 then some n else none
  | _, _ => none

/-- The values of the comparisons `key = literal` that are not in parentheses. -/
def Where.keys (key : String) : Where → List Int
  | .compare left op right => (keyOf key left op right).toList
  | .and left right => left.keys key ++ right.keys key
  | .or left right => left.keys key ++ right.keys key
  | .nested _ => []

/-- The clause with each of these comparisons replaced by `FALSE`. -/
def Where.Rest (row : Row key) : Where → Prop
  | .compare left op right =>
    keyOf key left op right = none ∧ op.Holds (left.value row) (right.value row)
  | .and left right => left.Rest row ∧ right.Rest row
  | .or left right => left.Rest row ∨ right.Rest row
  | .nested w => w.Holds row

variable {w : Where}

theorem Operand.value_of_isColumn {o : Operand} (h : o.isColumn key = true)
    (row : Row key) : o.value row = row.column key := by
  cases o with
  | column name | qualified name => exact congrArg row.column (of_decide_eq_true h)
  | literal text n hn => cases h
  | negative n => cases h

theorem key_of_holds {left right : Operand} {op : Comparison} {v : Int} {row : Row key}
    (hkey : keyOf key left op right = some v) (h : op.Holds (left.value row) (right.value row)) :
    row.column key = some v := by
  unfold keyOf at hkey
  split at hkey
  · split at hkey
    · rename_i text n hn hcolumn
      cases hkey
      rcases h with ⟨x, y, hx, hy, htest⟩
      have hxy : x = y := of_decide_eq_true htest
      rw [Operand.value_of_isColumn hcolumn.1 row] at hx
      rw [hx, hxy]
      exact hy.symm
    · cases hkey
  · cases hkey

theorem Where.holds_cases (row : Row key) (h : w.Holds row) :
    w.Rest row ∨ ∃ v ∈ w.keys key, row.column key = some v := by
  induction w with
  | compare left op right =>
    cases hkey : keyOf key left op right with
    | none => exact .inl ⟨hkey, h⟩
    | some v => exact .inr ⟨v, by simp [keys, hkey], key_of_holds hkey h⟩
  | and left right ihl ihr =>
    -- One found key on either side is enough.
    rcases ihl h.1 with hl | ⟨v, hv, hrow⟩
    · rcases ihr h.2 with hr | ⟨v, hv, hrow⟩
      · exact .inl ⟨hl, hr⟩
      · exact .inr ⟨v, List.mem_append_right _ hv, hrow⟩
    · exact .inr ⟨v, List.mem_append_left _ hv, hrow⟩
  | or left right ihl ihr =>
    rcases h with h | h
    · rcases ihl h with hl | ⟨v, hv, hrow⟩
      · exact .inl (.inl hl)
      · exact .inr ⟨v, List.mem_append_left _ hv, hrow⟩
    · rcases ihr h with hr | ⟨v, hv, hrow⟩
      · exact .inl (.inr hr)
      · exact .inr ⟨v, List.mem_append_right _ hv, hrow⟩
  | nested w _ => exact .inl h

theorem Where.holds_of_rest {row : Row key} (h : w.Rest row) : w.Holds row := by
  induction w with
  | compare left op right => exact h.2
  | and left right ihl ihr => exact ⟨ihl h.1, ihr h.2⟩
  | or left right ihl ihr => exact h.imp ihl ihr
  | nested w _ => exact h

/-! ## The keys are what `selection_parser` returns -/

theorem parseI64_of_literal {text : String} {n : Nat} (h : parseNat text.toList = some n) :
    parseI64 text.toList = if n ≤ 2 ^ 63 - 1 then some (n : Int) else none := by
  have hread := parseUnsigned_of_parseNat h n
  rw [if_pos (le_refl n)] at hread
  exact parseSigned_of_parseUnsigned hread _

section Keys

variable (key : String) (schema : Option Ident) (table : String)

theorem identFound_column (name : String) :
    identFound table key [schema.toList ++ [⟨table⟩]] ⟨name⟩ = decide (name = key) := by
  cases schema with
  | none | some s => by_cases h : name = key <;> simp [identFound, h]

theorem compoundFound_qualified (name : String) :
    compoundFound table key [⟨table⟩, ⟨name⟩] = decide (name = key) := by
  by_cases h : name = key
  · simp [compoundFound, h]
  · simp [compoundFound, h, Ne.symm h]

/-- The search below a connective, whose operands are clauses and no plain values. -/
theorem selectionKeys_connective (names : List (List Ident)) (left right : Where)
    {op : BinaryOperator} (hop : op = .and ∨ op = .or) :
    selectionKeys table key names
        (.binaryOp (left.toExpr table) op (right.toExpr table)) =
      selectionKeys table key names (left.toExpr table) ++
        selectionKeys table key names (right.toExpr table) := by
  rcases hop with rfl | rfl <;> cases left <;> cases right <;>
    simp only [Where.toExpr, selectionKeys]

theorem selectionKeys_compare (left right : Operand) (op : Comparison) :
    selectionKeys table key [schema.toList ++ [⟨table⟩]]
        ((Where.compare left op right).toExpr table) =
      ((keyOf key left op right).toList).map .value := by
  cases op with
  | eq =>
    cases right with
    | literal text n hn =>
      cases left <;>
        simp only [Where.toExpr, Operand.toExpr, Comparison.toOperator,
          selectionKeys, valueKeys, keyOf, Operand.isColumn,
          identFound_column, compoundFound_qualified, parseI64_of_literal hn] <;>
        grind
    | column name | qualified name | negative n => cases left <;> rfl
  | notEq | gt | lt | gtEq | ltEq => cases left <;> cases right <;> rfl

theorem selectionKeys_toExpr (w : Where) :
    selectionKeys table key [schema.toList ++ [⟨table⟩]] (w.toExpr table) =
      (w.keys key).map .value := by
  induction w with
  | compare left op right => exact selectionKeys_compare key schema table left right op
  | and left right ihl ihr =>
    rw [Where.toExpr, selectionKeys_connective key table _ left right (.inl rfl), ihl, ihr]
    exact List.map_append.symm
  | or left right ihl ihr =>
    rw [Where.toExpr, selectionKeys_connective key table _ left right (.inr rfl), ihl, ihr]
    exact List.map_append.symm
  | nested w _ => rfl

end Keys

/-! ## The shards of the keys -/

def OnShard (ext : Externals) (r : QueryRouter) (s : Nat) (row : Row key) : Prop :=
  ∃ v, row.column key = some v ∧ r.sharder.shard ext.sha1Digest v = some s

theorem onlyShard_eq_some_iff {shards : List Nat} (h : shards.Nodup) {s : Nat} :
    onlyShard shards = some s ↔ s ∈ shards ∧ ∀ n ∈ shards, n = s := by
  cases shards with
  | nil => simp [onlyShard]
  | cons a rest =>
    cases rest with
    | nil =>
      simp only [onlyShard, List.mem_singleton, Option.some.injEq]
      grind
    | cons b rest =>
      -- Two shards in the set: they differ.
      have hab : a ≠ b := by simp_all
      simp only [onlyShard, reduceCtorEq, false_iff, not_and]
      intro _ hall
      exact hab ((hall a (by simp)).trans (hall b (by simp)).symm)

section Shards

variable (ext : Externals) {r : QueryRouter} (hshards : 0 < r.poolSettings.shards)
include hshards

theorem recordValues (vs : List Int) (acc : List Nat) (hacc : acc.Nodup) :
    ∃ shards : List Nat,
      (vs.map ShardingKey.value).foldlM (recordKey ext) (r, acc) = some (r, shards) ∧
        shards.Nodup ∧
        ∀ s, s ∈ shards ↔ s ∈ acc ∨ ∃ v ∈ vs, r.sharder.shard ext.sha1Digest v = some s := by
  induction vs generalizing acc with
  | nil => exact ⟨acc, rfl, hacc, by simp⟩
  | cons v vs ih =>
    obtain ⟨n, hn⟩ := Sharder.shard_isSome ext.sha1Digest (s := r.sharder) hshards v
    obtain ⟨shards, hfold, hnodup, hmem⟩ := ih (acc.insert n) (hacc.insert)
    refine ⟨shards, ?_, hnodup, ?_⟩
    · simpa [recordKey, hn] using hfold
    · intro s
      rw [hmem s, List.mem_insert_iff]
      simp only [List.mem_cons, exists_eq_or_imp, hn, Option.some.injEq]
      grind

/-- A list of integers has one shard exactly if there is one and all of them are on it. -/
theorem unique_shard_iff {vs : List Int} {s : Nat} :
    ((∃ v ∈ vs, r.sharder.shard ext.sha1Digest v = some s) ∧
        ∀ n, (∃ v ∈ vs, r.sharder.shard ext.sha1Digest v = some n) → n = s) ↔
      vs ≠ [] ∧ ∀ v ∈ vs, r.sharder.shard ext.sha1Digest v = some s := by
  constructor
  · rintro ⟨⟨v, hv, -⟩, hall⟩
    refine ⟨List.ne_nil_of_mem hv, ?_⟩
    intro u hu
    obtain ⟨n, hn⟩ := Sharder.shard_isSome ext.sha1Digest (s := r.sharder) hshards u
    rw [hn, hall n ⟨u, hu, hn⟩]
  · rintro ⟨hne, hall⟩
    obtain ⟨v, hv⟩ := List.exists_mem_of_ne_nil _ hne
    refine ⟨⟨v, hv, hall v hv⟩, ?_⟩
    rintro n ⟨u, hu, hn⟩
    exact Option.some.inj (hn.symm.trans (hall u hu))

theorem onlyShard_of_values {vs : List Int} {shards : List Nat} (hnodup : shards.Nodup)
    (hmem : ∀ s, s ∈ shards ↔ ∃ v ∈ vs, r.sharder.shard ext.sha1Digest v = some s) {s : Nat} :
    onlyShard shards = some s ↔
      vs ≠ [] ∧ ∀ v ∈ vs, r.sharder.shard ext.sha1Digest v = some s := by
  rw [onlyShard_eq_some_iff hnodup]
  simp only [hmem]
  exact unique_shard_iff ext hshards

variable {key sharding table : String} (hsharding : r.poolSettings.automaticShardingKey = some sharding)
  (hsplit : splitKey sharding = [table, key])
include hsharding hsplit

theorem inferShard_eq_some_iff (ctes : List Query) (locks : List LockType) (schema : Option Ident)
    (w : Where) (r' : QueryRouter) (s : Nat) :
    inferShard ext r (selectFrom ctes locks schema table w) = some (r', some s) ↔
      r' = r ∧ w.keys key ≠ [] ∧
        ∀ v ∈ w.keys key, r.sharder.shard ext.sha1Digest v = some s := by
  obtain ⟨shards, hfold, hnodup, hmem⟩ :=
    recordValues ext hshards (w.keys key) [] List.nodup_nil
  have hinfer : inferShard ext r (selectFrom ctes locks schema table w) =
      some (r, onlyShard shards) := by
    have hkeys := selectionKeys_toExpr key schema table w
    simp only [selectFrom, inferShard, bodyShards,
      tableExprs, joinExprs, tableNames,
      joinNames, factorName, recordExpr,
      selectionParser, hsharding, hsplit, hkeys, hfold, Option.toList_some,
      List.append_nil, List.nil_append, List.foldlM_cons, List.foldlM_nil,
      some_bind, Option.pure_def]
  simp only [List.not_mem_nil, false_or] at hmem
  rw [hinfer, ← onlyShard_of_values ext hshards hnodup hmem, Option.some.injEq, Prod.mk.injEq]
  exact and_congr_left' eq_comm

/-- The answer loses no row exactly if the rest of the clause lets no row of another shard through. -/
theorem inferShard_sound_iff (ctes : List Query) (locks : List LockType) (schema : Option Ident)
    (w : Where) :
    (∀ r' s, inferShard ext r (selectFrom ctes locks schema table w) = some (r', some s) →
        ∀ row : Row key, w.Holds row → OnShard ext r s row) ↔
      ∀ s, (w.keys key ≠ [] ∧ ∀ v ∈ w.keys key, r.sharder.shard ext.sha1Digest v = some s) →
        ∀ row : Row key, w.Rest row → OnShard ext r s row := by
  simp only [inferShard_eq_some_iff ext hshards hsharding hsplit]
  constructor
  · intro h s hkeys row hrest
    exact h r s ⟨rfl, hkeys⟩ row (Where.holds_of_rest hrest)
  · rintro h r' s ⟨-, hkeys⟩ row hrow
    rcases Where.holds_cases row hrow with hrest | ⟨v, hv, hvalue⟩
    · exact h s hkeys row hrest
    · exact ⟨v, hvalue, hkeys.2 v hv⟩

end Shards

/-! ## Clauses that fix the key -/

/-- Does every way to satisfy the clause go through a comparison `key = literal`? -/
def Where.fixes (key : String) : Where → Bool
  | .compare left op right => (keyOf key left op right).isSome
  | .and left right => left.fixes key || right.fixes key
  | .or left right => left.fixes key && right.fixes key
  | .nested _ => false

theorem Where.not_rest_of_fixes (h : w.fixes key = true) (row : Row key) : ¬w.Rest row := by
  induction w with
  | compare left op right =>
    intro hrest
    have hnone : keyOf key left op right = none := hrest.1
    simp [fixes, hnone] at h
  | and left right ihl ihr =>
    rintro ⟨hl, hr⟩
    rcases Bool.or_eq_true _ _ ▸ h with hfix | hfix
    · exact ihl hfix hl
    · exact ihr hfix hr
  | or left right ihl ihr =>
    have hfix := Bool.and_eq_true _ _ ▸ h
    rintro (hl | hr)
    · exact ihl hfix.1 hl
    · exact ihr hfix.2 hr
  | nested w _ => cases h

namespace Sample

def shardedSettings : PoolSettings :=
  { PoolSettings.default with shards := 2, automaticShardingKey := some "data.k" }

def shardedRouter : QueryRouter :=
  { new with poolSettings := shardedSettings }

def noExternals : Externals := ⟨fun _ => none, fun _ => 0, true⟩

/-- `k = 5`. -/
def keyIsFive : Where := .compare (.column "k") .eq (.literal "5" 5 (by decide))

def keyOrOther : Where :=
  .or keyIsFive (.compare (.column "b") .eq (.literal "1" 1 (by decide)))

/-- Sent to the shard of 5, the query misses the row with `k = 0` and `b = 1`. -/
theorem matching_row_lost :
    ¬∀ r' s,
      inferShard noExternals shardedRouter (selectFrom [] [] none "data" keyOrOther) =
          some (r', some s) →
        ∀ row : Row "k", keyOrOther.Holds row → OnShard noExternals shardedRouter s row := by
  intro h
  have hinfer := inferShard_eq_some_iff noExternals (r := shardedRouter) (by decide) rfl
    (by decide : splitKey "data.k" = ["data", "k"]) [] [] none keyOrOther shardedRouter 1
  have hone := h shardedRouter 1 (hinfer.mpr ⟨rfl, by decide, by decide⟩)
    ⟨fun name => if name = "b" then some 1 else some 0, by decide⟩ (.inr ⟨1, 1, by decide, rfl, by decide⟩)
  obtain ⟨v, hv, hshard⟩ := hone
  cases hv
  revert hshard
  decide

/-- `k = 5 AND b = 1 OR b > 2 AND k = 5`. -/
def keyInBoth : Where :=
  .or (.and keyIsFive (.compare (.column "b") .eq (.literal "1" 1 (by decide))))
    (.and (.compare (.column "b") .gt (.literal "2" 2 (by decide))) keyIsFive)

theorem key_in_both_covered :
    inferShard noExternals shardedRouter (selectFrom [] [] none "data" keyInBoth) =
        some (shardedRouter, some 1) ∧
      ∀ row : Row "k", keyInBoth.Holds row → OnShard noExternals shardedRouter 1 row := by
  have hsplit : splitKey "data.k" = ["data", "k"] := by decide
  have hinfer := (inferShard_eq_some_iff noExternals (r := shardedRouter) (by decide) rfl hsplit [] [] none
    keyInBoth shardedRouter 1).mpr ⟨rfl, by decide, by decide⟩
  refine ⟨hinfer, (inferShard_sound_iff noExternals (by decide) rfl hsplit [] [] none keyInBoth).mpr ?_ _ 1 hinfer⟩
  intro s _ row hrest
  exact absurd hrest (Where.not_rest_of_fixes (by decide) row)

end Sample

end PgCat.Router
