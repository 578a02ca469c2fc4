import Mathlib.Data.List.Basic

/-!
# Ast — the part of the `sqlparser` syntax tree the router looks at

Constructors the router matches on keep their names; everything it treats alike (other statements,
other expressions, other joins) is one constructor.  Common table expressions, row locks and
the bodies `INSERT` / `UPDATE` of a query are kept although the router ignores them: they decide
whether a query writes.
-/

namespace PgCat.Router

/-- An identifier; quoting is dropped, only `value` is compared. -/
structure Ident where
  value : String
  deriving DecidableEq, Repr

inductive BinaryOperator
  | eq
  | notEq
  | gt
  | lt
  | gtEq
  | ltEq
  | and
  | or
  | other
  deriving DecidableEq, Repr

inductive Value
  | number (text : String)
  | placeholder (text : String)
  | other
  deriving DecidableEq, Repr

inductive Expr
  | identifier (ident : Ident)
  | compoundIdentifier (idents : List Ident)
  | binaryOp (left : Expr) (op : BinaryOperator) (right : Expr)
  | value (v : Value)
  | nested (e : Expr)
  | other
  deriving Repr

/-- `FOR UPDATE` or `FOR SHARE`. -/
inductive LockType
  | share
  | update
  deriving DecidableEq, Repr

inductive JoinConstraint
  | on (e : Expr)
  | other
  deriving Repr

inductive JoinOperator
  | inner (c : JoinConstraint)
  | other
  deriving Repr

mutual

inductive Statement
  | startTransaction
  | query (q : Query)
  /-- Every other statement, e.g. `INSERT`, `UPDATE`, `SET`. -/
  | other

inductive Query
  | mk (ctes : List Query) (body : SetExpr) (locks : List LockType)

inductive SetExpr
  | select (s : Select)
  | query (q : Query)
  | setOperation (left right : SetExpr)
  | values
  | insert (s : Statement)
  | update (s : Statement)
  | table

inductive Select
  | mk (tables : List TableWithJoins) (selection : Option Expr)

inductive TableWithJoins
  | mk (relation : TableFactor) (joins : List Join)

inductive Join
  | mk (relation : TableFactor) (operator : JoinOperator)

inductive TableFactor
  | table (name : List Ident)
  | derived (q : Query)
  | other

end

/-! ## Which statements write or lock -/

mutual

/-- A query writes or locks when its body does, one of its CTEs does, or it carries a lock clause. -/
def Query.writesOrLocks : Query → Bool
  | .mk ctes body locks => anyQuery ctes || body.writesOrLocks || !locks.isEmpty

def anyQuery : List Query → Bool
  | [] => false
  | q :: qs => q.writesOrLocks || anyQuery qs

def SetExpr.writesOrLocks : SetExpr → Bool
  | .select s => s.writesOrLocks
  | .query q => q.writesOrLocks
  | .setOperation left right => left.writesOrLocks || right.writesOrLocks
  | .values => false
  | .insert _ => true
  | .update _ => true
  | .table => false

def Select.writesOrLocks : Select → Bool
  | .mk tables _ => anyTable tables

def anyTable : List TableWithJoins → Bool
  | [] => false
  | t :: ts => t.writesOrLocks || anyTable ts

def TableWithJoins.writesOrLocks : TableWithJoins → Bool
  | .mk relation joins => relation.writesOrLocks || anyJoin joins

def anyJoin : List Join → Bool
  | [] => false
  | j :: js => j.writesOrLocks || anyJoin js

def Join.writesOrLocks : Join → Bool
  | .mk relation _ => relation.writesOrLocks

def TableFactor.writesOrLocks : TableFactor → Bool
  | .table _ => false
  | .derived q => q.writesOrLocks
  | .other => false

end

namespace Statement

/-- `Statement::Query`. -/
def isQuery : Statement → Bool
  | .query _ => true
  | _ => false

/-- A statement that writes or takes row locks, wherever in the statement that happens. -/
def writesOrLocks : Statement → Bool
  | .query q => q.writesOrLocks
  | _ => true

end Statement

end PgCat.Router
