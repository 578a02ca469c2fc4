import Mathlib.Data.List.Count
import Mathlib.Logic.Function.Basic

/-!
# Updates — cells that are changed one at a time

A family of cells, and a list that names a cell for every time it is changed.  Each change looks at its own
cell only, so what a run over the list does to a cell depends on how often the cell is named, and on nothing
else.  A change may fail, and the run fails with it.
-/

namespace PgCat.Lib

universe u v

variable {κ : Type u} {β : Type v}

def timesM (f : β → Option β) : Nat → β → Option β
  | 0, b => some b
  | n + 1, b => (f b).bind (timesM f n)

/-- Change the named cells, one after the other. -/
def updateAll [DecidableEq κ] (f : κ → β → Option β) (l : List κ) (cells : κ → β) : Option (κ → β) :=
  l.foldlM (fun cells k => (f k (cells k)).map (Function.update cells k)) cells

theorem updateAll_eq_some_iff [DecidableEq κ] {f : κ → β → Option β} {l : List κ} {cells cells' : κ → β} :
    updateAll f l cells = some cells' ↔ ∀ k, timesM (f k) (l.count k) (cells k) = some (cells' k) := by
  unfold updateAll
  induction l generalizing cells with
  | nil => simp [timesM, funext_iff]
  | cons a l ih =>
    rw [List.foldlM_cons]
    cases hv : f a (cells a) with
    | none =>
      -- The cell that fails is named at least once more, so that its own run fails too.
      refine iff_of_false (by simp) fun hall => ?_
      have ha := hall a
      rw [List.count_cons_self, timesM, hv, Option.bind_none] at ha
      cases ha
    | some v =>
      rw [Option.map_some, Option.bind_eq_bind, Option.bind_some, ih]
      refine forall_congr' fun k => ?_
      by_cases hk : k = a
      · subst hk
        rw [Function.update_self, List.count_cons_self, timesM, hv, Option.bind_some]
      · rw [Function.update_of_ne hk, List.count_cons_of_ne (Ne.symm hk)]

end PgCat.Lib
