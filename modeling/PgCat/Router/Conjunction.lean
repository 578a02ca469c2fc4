import PgCat.Router.Placeholders

/-!
# Conjunction — the queries the automatic sharding is made for

A conjunction of comparisons of columns with integers, over the table of the sharding key.
-/

namespace PgCat.Router

open Lib Config QueryRouter

/-- A column as it is written, alone or with the table and whatever else in front. -/
inductive Column
  | name (ident : Ident)
  | qualified (idents : List Ident)
  deriving DecidableEq

def Column.toExpr : Column → Expr
  | .name ident => .identifier ident
  | .qualified idents => .compoundIdentifier idents

/-- `column op text`, where `text` is the integer `n`. -/
structure Leaf where
  column : Column
  op : Comparison
  text : String
  n : Nat
  reads : parseNat text.toList = some n

/-- The comparisons that `AND` connects, in any nesting without parentheses. -/
inductive Conjunction
  | leaf (l : Leaf)
  | and (left right : Conjunction)

namespace Conjunction

def toExpr : Conjunction → Expr
  | .leaf l => .binaryOp l.column.toExpr l.op.toOperator (.value (.number l.text))
  | .and left right => .binaryOp left.toExpr .and right.toExpr

def leaves : Conjunction → List Leaf
  | .leaf l => [l]
  | .and left right => left.leaves ++ right.leaves

end Conjunction

def Leaf.keys (table key : String) (l : Leaf) : Bool :=
  l.op = .eq && (l.column = .name ⟨key⟩ || l.column = .qualified [⟨table⟩, ⟨key⟩]) && l.n < 2 ^ 63

/-- The integers the key is compared with. -/
def Conjunction.keyLiterals (table key : String) (c : Conjunction) : List Int :=
  (c.leaves.filter (Leaf.keys table key)).map fun l => (l.n : Int)

section Keys

variable (table key : String) (schema : Option Ident)

theorem exprIsKey_column (column : Column) :
    exprIsKey table key [schema.toList ++ [⟨table⟩]] column.toExpr =
      decide (column = .name ⟨key⟩ ∨ column = .qualified [⟨table⟩, ⟨key⟩]) := by
  cases column with
  | name ident =>
    obtain ⟨name⟩ := ident
    rw [Column.toExpr, exprIsKey, identFound_column]
    simp
  | qualified idents =>
    rw [Column.toExpr, exprIsKey]
    rcases idents with - | ⟨⟨a⟩, - | ⟨⟨b⟩, - | ⟨c, rest⟩⟩⟩
    · simp [compoundFound]
    · simp [compoundFound]
    · have hpair : compoundFound table key [⟨a⟩, ⟨b⟩] = (table == a && key == b) := rfl
      rw [hpair, Bool.eq_iff_iff, Bool.and_eq_true, beq_iff_eq, beq_iff_eq]
      simp only [reduceCtorEq, false_or, decide_eq_true_eq, Column.qualified.injEq, List.cons.injEq,
        Ident.mk.injEq, and_true]
      exact and_congr eq_comm eq_comm
    · simp [compoundFound]

theorem selectionKeys_leaf (l : Leaf) :
    selectionKeys table key [schema.toList ++ [⟨table⟩]] (Conjunction.leaf l).toExpr =
      ((Conjunction.leaf l).keyLiterals table key).map .value := by
  have hleft : selectionKeys table key [schema.toList ++ [⟨table⟩]] l.column.toExpr = [] := by
    cases l.column with
    | name ident => rfl
    | qualified idents => rfl
  rw [Conjunction.toExpr, selectionKeys_binaryOp, hleft, exprIsKey_column, List.nil_append]
  by_cases hop : l.op = .eq
  · -- The literal is a key if the column is and the number can be read.
    have hfollows : Clause.follows l.op.toOperator = true := by
      rw [hop]
      rfl
    rw [if_pos hfollows]
    simp only [valueKeys, parseI64_of_literal l.reads, Conjunction.keyLiterals,
      Conjunction.leaves, List.filter_cons, List.filter_nil, Leaf.keys, hop]
    grind
  · have hfollows : Clause.follows l.op.toOperator = false := by
      cases hcase : l.op with
      | eq => exact absurd hcase hop
      | _ => rfl
    simp [hfollows, Conjunction.keyLiterals, Conjunction.leaves, Leaf.keys, hop]

theorem selectionKeys_and (names : List (List Ident)) (left right : Conjunction) :
    selectionKeys table key names (Conjunction.and left right).toExpr =
      selectionKeys table key names left.toExpr ++
        selectionKeys table key names right.toExpr := by
  have hand : Clause.follows .and = true := rfl
  rw [Conjunction.toExpr, selectionKeys_binaryOp, if_pos hand]
  cases right with
  | leaf l => rfl
  | and left' right' => rfl

theorem selectionKeys_conjunction (c : Conjunction) :
    selectionKeys table key [schema.toList ++ [⟨table⟩]] c.toExpr =
      (c.keyLiterals table key).map .value := by
  induction c with
  | leaf l => exact selectionKeys_leaf table key schema l
  | and left right ihl ihr =>
    rw [selectionKeys_and, ihl, ihr]
    simp [Conjunction.keyLiterals, Conjunction.leaves]

end Keys

/-- `FROM table` or `FROM schema.table`. -/
def onlyTable (schema : Option Ident) (table : String) : List TableWithJoins :=
  [.mk (.table (schema.toList ++ [⟨table⟩])) []]

/-- `selection_parser` finds the integers the key is compared with and no other, in their order, and
`infer_shard` answers with the shard they have in common. -/
theorem conjunction_sharded (ext : Externals) (r : QueryRouter) (sharding table key : String)
    (hsharding : r.poolSettings.automaticShardingKey = some sharding)
    (hsplit : splitKey sharding = [table, key]) (hshards : 0 < r.poolSettings.shards)
    (ctes : List Query) (locks : List LockType) (schema : Option Ident) (c : Conjunction) :
    r.selectionParser c.toExpr (tableNames (onlyTable schema table)) =
        some ((c.keyLiterals table key).map .value) ∧
      ∃ found, inferShard ext r (selectWhere ctes locks (onlyTable schema table) c.toExpr) =
          some (r, found) ∧
        ∀ s, found = some s ↔ c.keyLiterals table key ≠ [] ∧
          ∀ v ∈ c.keyLiterals table key, r.sharder.shard ext.sha1Digest v = some s := by
  have hnames : tableNames (onlyTable schema table) = [schema.toList ++ [⟨table⟩]] := rfl
  have hkeys := selectionKeys_conjunction table key schema c
  have hparts : r.keyParts = some (table, key) := by
    simp [keyParts, hsharding, hsplit]
  have hquery : queryKeys table key (onlyTable schema table) c.toExpr =
      (c.keyLiterals table key).map .value :=
    (List.append_nil _).trans hkeys
  refine ⟨?_, commonShard ext r (c.keyLiterals table key), ?_, ?_⟩
  · rw [selectionParser_eq, hparts, hnames, Option.map_some, hkeys]
  · rw [inferShard_selectWhere hparts, hquery, valuesOf_map_value, positionsOf_map_value,
      hashed_of_pos hshards, Option.map_some, List.append_nil]
  · intro s
    exact commonShard_eq_some_iff hshards

namespace Sample

/-- `b > 7 AND data.k = 5 AND k = 3`. -/
def threeLeaves : Conjunction :=
  .and (.and (.leaf ⟨.name ⟨"b"⟩, .gt, "7", 7, rfl⟩)
      (.leaf ⟨.qualified [⟨"data"⟩, ⟨"k"⟩], .eq, "5", 5, parseNat_five⟩))
    (.leaf ⟨.name ⟨"k"⟩, .eq, "3", 3, rfl⟩)

theorem three_leaves_sharded :
    threeLeaves.keyLiterals "data" "k" = [5, 3] ∧
      shardedRouter.selectionParser threeLeaves.toExpr
          (tableNames (onlyTable (some ⟨"public"⟩) "data")) =
        some ((threeLeaves.keyLiterals "data" "k").map .value) := by
  refine ⟨by decide, ?_⟩
  exact (conjunction_sharded noExternals shardedRouter "data.k" "data" "k" rfl (by decide) (by decide)
    [] [] (some ⟨"public"⟩) threeLeaves).1

end Sample

end PgCat.Router
