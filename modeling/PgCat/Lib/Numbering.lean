import Mathlib.Algebra.Ring.Nat
import Mathlib.Data.List.Nodup
import PgCat.Lib.Program

/-!
# Numbering — programs that hand out consecutive numbers

A program numbers what it makes with a counter in its state.  `Numbers counter R m` says that what `m`
returns is related by `R` to the numbers that were taken on the way, and that these are consecutive and
start at the counter.  In particular none of them is taken twice.

The rules follow the program: a part that does not touch the counter takes no numbers, two parts one after
the other take the numbers of the first and then those of the second, and a loop takes those of its turns.

Nothing here depends on a particular state or exception type.
-/

namespace PgCat.Lib

universe u

variable {ε σ α β : Type u}

def Numbers (counter : σ → Nat) (R : α → List Nat → Prop) (m : EStateM ε σ α) : Prop :=
  ∀ s a s', m s = .ok a s' →
    ∃ n, R a (List.range' (counter s) n) ∧ counter s' = counter s + n

namespace Numbers

variable {counter : σ → Nat} {R : α → List Nat → Prop} {m : EStateM ε σ α}

theorem mono {S : α → List Nat → Prop} (hm : Numbers counter R m) (h : ∀ a xs, R a xs → S a xs) :
    Numbers counter S m := by
  intro s a s' hrun
  obtain ⟨n, hR, hn⟩ := hm s a s' hrun
  exact ⟨n, h a _ hR, hn⟩

theorem silent (hm : ∀ s a s', m s = .ok a s' → counter s' = counter s ∧ R a []) : Numbers counter R m := by
  intro s a s' hrun
  obtain ⟨hcounter, hR⟩ := hm s a s' hrun
  exact ⟨0, hR, hcounter⟩

theorem ofPure {a : α} (h : R a []) : Numbers counter R (pure a : EStateM ε σ α) := by
  apply silent
  intro s b s' hrun
  cases hrun
  exact ⟨rfl, h⟩

theorem ofThrow (e : ε) : Numbers counter R (throw e : EStateM ε σ α) := by
  intro s a s' hrun
  cases hrun

theorem ofGet : Numbers counter (fun _ xs => xs = []) (get : EStateM ε σ σ) := by
  apply silent
  intro s a s' hrun
  cases hrun
  exact ⟨rfl, rfl⟩

theorem ofModify {f : σ → σ} (hf : ∀ s, counter (f s) = counter s) :
    Numbers counter (fun _ xs => xs = []) (modify f : EStateM ε σ PUnit) := by
  apply silent
  intro s a s' hrun
  cases hrun
  exact ⟨hf s, rfl⟩

theorem seq {S : β → List Nat → Prop} {f : α → EStateM ε σ β} (hm : Numbers counter R m)
    (hf : ∀ a xs, R a xs → Numbers counter (fun b ys => S b (xs ++ ys)) (f a)) :
    Numbers counter S (m >>= f) := by
  intro s b s' hrun
  obtain ⟨a, s₁, hfirst, hrest⟩ := bind_eq_ok hrun
  obtain ⟨n, hR, hn⟩ := hm s a s₁ hfirst
  obtain ⟨k, hS, hk⟩ := hf a _ hR s₁ b s' hrest
  rw [hn, List.range'_append_1] at hS
  refine ⟨n + k, hS, ?_⟩
  calc counter s' = counter s₁ + k := hk
    _ = counter s + (n + k) := by rw [hn, Nat.add_assoc]

theorem after {S : β → List Nat → Prop} {f : α → EStateM ε σ β}
    (hm : Numbers counter (fun _ xs => xs = []) m) (hf : ∀ a, Numbers counter S (f a)) :
    Numbers counter S (m >>= f) := by
  refine hm.seq fun a xs hxs => ?_
  subst hxs
  exact hf a

/-- As `after`, with what the first part is known to return. -/
theorem afterResult {P : α → Prop} {S : β → List Nat → Prop} {f : α → EStateM ε σ β}
    (hm : Numbers counter (fun a xs => xs = [] ∧ P a) m) (hf : ∀ a, P a → Numbers counter S (f a)) :
    Numbers counter S (m >>= f) := by
  refine hm.seq fun a xs ⟨hxs, ha⟩ => ?_
  subst hxs
  exact hf a ha

/-- The turns of a loop take their numbers one after the other, as many as each needs. -/
theorem mapEach {ids : α → List Nat} {size : β → Nat} {f : β → EStateM ε σ α}
    (hf : ∀ x, Numbers counter (fun a xs => ids a = xs ∧ xs.length = size x) (f x)) (l : List β) :
    Numbers counter (fun as xs => as.flatMap ids = xs ∧ xs.length = (l.map size).sum) (l.mapM f) := by
  induction l with
  | nil => exact ofPure ⟨rfl, rfl⟩
  | cons x l ih =>
    rw [List.mapM_cons]
    refine (hf x).seq fun a xs hxs => ih.seq fun as ys hys => ofPure ?_
    rw [List.flatMap_cons, hxs.1, hys.1, List.append_nil, List.length_append, hxs.2, hys.2]
    exact ⟨rfl, rfl⟩

end Numbers

end PgCat.Lib
