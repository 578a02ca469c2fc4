import Mathlib.Algebra.BigOperators.Group.Finset.Piecewise
import Mathlib.Data.Fintype.Basic
import Mathlib.Data.List.Basic
import Mathlib.Logic.Function.Basic

/-!
# Interleaving — parties that share a state

Each party runs the same partial automaton on labels of its own.  A history is an interleaving of
their labels, newest first; every label also acts on a shared state.  `Automaton.interleaved` is the
invariant rule: what each step keeps, from the states of all parties at that moment, holds after every
history the automaton accepts for each party.

Nothing here depends on what the parties are.
-/

namespace PgCat.Lib

/-- A partial deterministic automaton with states `S` and labels `L`. -/
structure Automaton (L S : Type) where
  start : S
  step : S → L → Option S

namespace Automaton

variable {L S : Type} (A : Automaton L S)

/-- The state after a word, newest label first; `none` if the word is not accepted. -/
def run : List L → Option S
  | [] => some A.start
  | l :: t => (run t).bind fun s => A.step s l

variable {A}

variable {ok : S → L → Prop} {t : List L}

theorem run_cons {l : L} {s s' : S} (h : A.run t = some s) (hs : A.step s l = some s') :
    A.run (l :: t) = some s' := by
  simp [run, h, hs]

theorem run_of_cons {l : L} {s' : S} (h : A.run (l :: t) = some s') :
    ∃ s, A.run t = some s ∧ A.step s l = some s' :=
  Option.bind_eq_some_iff.mp h

/-- What was accepted was accepted at every earlier moment. -/
theorem run_suffix {t' : List L} (h : t <:+ t') (hrun : (A.run t').isSome) : (A.run t).isSome := by
  rcases h with ⟨later, rfl⟩
  induction later with
  | nil => exact hrun
  | cons l later ih =>
    rcases Option.isSome_iff_exists.mp hrun with ⟨s', hs'⟩
    rcases run_of_cons hs' with ⟨s, hs, _⟩
    exact ih (Option.isSome_of_eq_some hs)

variable (A)

/-- Every label of a word meets a condition on the state it was read in. -/
def Along (ok : S → L → Prop) : List L → Prop
  | [] => True
  | l :: t => (∀ s, A.run t = some s → ok s l) ∧ Along ok t

/-- The condition, evaluated along a word. -/
def check (ok : S → L → Bool) : List L → Bool
  | [] => true
  | l :: t => (A.run t).all (fun s => ok s l) && check ok t

variable {A}

theorem along_of_check {test : S → L → Bool} (h : ∀ s l, test s l = true → ok s l) :
    ∀ {t : List L}, A.check test t = true → A.Along ok t := by
  intro t
  induction t with
  | nil => exact fun _ => trivial
  | cons l t ih =>
    intro hcheck
    rcases Bool.and_eq_true_iff.mp hcheck with ⟨hl, ht⟩
    exact ⟨fun s hs => h s l ((Option.all_eq_true _ _).mp hl s hs), ih ht⟩

theorem invariant {I : S → Prop} (hstart : I A.start)
    (hstep : ∀ s l s', I s → ok s l → A.step s l = some s' → I s') :
    ∀ {t : List L} {s : S}, A.Along ok t → A.run t = some s → I s := by
  intro t
  induction t with
  | nil =>
    intro s _ h
    cases h
    exact hstart
  | cons l t ih =>
    intro s' halong h
    rcases run_of_cons h with ⟨s, hs, hl⟩
    exact hstep s l s' (ih halong.2 hs) (halong.1 s hs) hl

/-- If the condition is just what a step needs to keep `I`, a run has `I` all along exactly if all its
steps meet the condition; `J` is what every run has. -/
theorem always_iff {I J : S → Prop} (hstart : I A.start) (hstart' : J A.start)
    (hkeeps : ∀ s l s', J s → A.step s l = some s' → J s')
    (hstep : ∀ s l s', J s → I s → A.step s l = some s' → (I s' ↔ ok s l)) :
    ∀ {t : List L} {s : S}, A.run t = some s →
      J s ∧ ((∀ t' s', t' <:+ t → A.run t' = some s' → I s') ↔ A.Along ok t) := by
  intro t
  -- The trace has its last event in front: what is known of the tail decides about the last step.
  induction t with
  | nil =>
    intro s hs
    cases hs
    refine ⟨hstart', fun _ => trivial, fun _ t' s' hsuffix hs' => ?_⟩
    cases List.suffix_nil.mp hsuffix
    cases hs'
    exact hstart
  | cons l t ih =>
    intro s' hs'
    rcases run_of_cons hs' with ⟨s, hs, hl⟩
    rcases ih hs with ⟨hJ, hbefore⟩
    refine ⟨hkeeps s l s' hJ hl, fun hall => ?_, ?_⟩
    · have hearlier : ∀ t' s, t' <:+ t → A.run t' = some s → I s := fun t' s hsuffix =>
        hall t' s (hsuffix.trans (List.suffix_cons l t))
      refine ⟨fun s₀ hs₀ => ?_, hbefore.mp hearlier⟩
      rw [hs] at hs₀
      cases hs₀
      exact (hstep s l s' hJ (hearlier t s (List.suffix_refl t) hs) hl).mp
        (hall (l :: t) s' (List.suffix_refl _) hs')
    · rintro ⟨hlast, halong⟩ t' s₀ hsuffix hs₀
      have hearlier := hbefore.mpr halong
      rcases List.suffix_cons_iff.mp hsuffix with rfl | hshorter
      · rw [hs'] at hs₀
        cases hs₀
        exact (hstep s l s' hJ (hearlier t s (List.suffix_refl t) hs) hl).mpr (hlast s hs)
      · exact hearlier t' s₀ hshorter hs₀

end Automaton

/-! ## Histories -/

section Histories

variable {ι L S G : Type} [DecidableEq ι]

def steps (i : ι) : List (ι × L) → List L
  | [] => []
  | (j, l) :: h => if j = i then l :: steps i h else steps i h

@[simp] theorem steps_self (i : ι) (l : L) (h : List (ι × L)) : steps i ((i, l) :: h) = l :: steps i h := by
  simp [steps]

theorem steps_other {i j : ι} (hij : j ≠ i) (l : L) (h : List (ι × L)) :
    steps i ((j, l) :: h) = steps i h := by
  simp [steps, hij]

theorem steps_append (i : ι) (h h' : List (ι × L)) : steps i (h ++ h') = steps i h ++ steps i h' := by
  induction h with
  | nil => rfl
  | cons x h ih =>
    rcases x with ⟨j, l⟩
    by_cases hij : j = i
    · simp [steps, hij, ih]
    · simp [steps, hij, ih]

theorem steps_suffix {h h' : List (ι × L)} (hsuffix : h <:+ h') (i : ι) : steps i h <:+ steps i h' := by
  rcases hsuffix with ⟨later, rfl⟩
  rw [steps_append]
  exact List.suffix_append _ _

theorem mem_of_steps {i : ι} {l : L} {h : List (ι × L)} (hl : l ∈ steps i h) : (i, l) ∈ h := by
  induction h with
  | nil => cases hl
  | cons x h ih =>
    rcases x with ⟨j, l'⟩
    by_cases hij : j = i
    · subst hij
      rw [steps_self] at hl
      rcases List.mem_cons.mp hl with rfl | hl
      · exact List.mem_cons_self
      · exact List.mem_cons_of_mem _ (ih hl)
    · rw [steps_other hij] at hl
      exact List.mem_cons_of_mem _ (ih hl)

theorem steps_tail (i : ι) (x : ι × L) (h : List (ι × L)) : steps i h <:+ steps i (x :: h) := by
  rcases x with ⟨j, l⟩
  by_cases hij : j = i
  · simp [steps, hij]
  · simp [steps, hij]

/-- The word of one party as a history. -/
def only (i : ι) (t : List L) : List (ι × L) :=
  t.map fun l => (i, l)

theorem steps_only (i j : ι) (t : List L) : steps i (only j t) = if j = i then t else [] := by
  induction t with
  | nil => simp [only, steps]
  | cons l t ih =>
    change steps i ((j, l) :: only j t) = _
    by_cases hij : j = i
    · simpa [steps, hij] using ih
    · simpa [steps, hij] using ih

/-- The shared state after a history. -/
def shared (effect : ι → L → G → G) (g : G) : List (ι × L) → G
  | [] => g
  | (i, l) :: h => effect i l (shared effect g h)

namespace Automaton

variable (A : Automaton L S)

/-- The state each party has reached. -/
def states (h : List (ι × L)) (i : ι) : S :=
  (A.run (steps i h)).getD A.start

/-- Every step of a history meets a condition on the states it was taken in. -/
def Meets (ok : (ι → S) → ι → L → Prop) : List (ι × L) → Prop
  | [] => True
  | (i, l) :: h => ok (A.states h) i l ∧ Meets ok h

instance decidableMeets {ok : (ι → S) → ι → L → Prop} [∀ st i l, Decidable (ok st i l)] :
    ∀ h : List (ι × L), Decidable (A.Meets ok h)
  | [] => .isTrue trivial
  | (i, l) :: h =>
    have : Decidable (A.Meets ok h) := decidableMeets h
    inferInstanceAs (Decidable (ok (A.states h) i l ∧ A.Meets ok h))

variable {A}

theorem Meets.and_labels {ok : (ι → S) → ι → L → Prop} {P : L → Prop} :
    ∀ {h : List (ι × L)}, A.Meets ok h → (∀ x ∈ h, P x.2) →
      A.Meets (fun st i l => ok st i l ∧ P l) h := by
  intro h
  induction h with
  | nil => exact fun _ _ => trivial
  | cons x h ih =>
    intro hmeets hP
    exact ⟨⟨hmeets.1, hP x List.mem_cons_self⟩,
      ih hmeets.2 fun y hy => hP y (List.mem_cons_of_mem x hy)⟩

theorem states_cons {i : ι} {l : L} {h : List (ι × L)} {s : S}
    (hs : A.run (steps i ((i, l) :: h)) = some s) :
    A.step (A.states h i) l = some s ∧
      A.states ((i, l) :: h) = Function.update (A.states h) i s := by
  rw [steps_self] at hs
  rcases run_of_cons hs with ⟨s₀, hs₀, hstep⟩
  refine ⟨by simpa [states, hs₀] using hstep, ?_⟩
  funext j
  by_cases hij : j = i
  · subst hij
    simp [states, hs]
  · rw [Function.update_of_ne hij]
    simp [states, steps_other (Ne.symm hij)]

theorem accepted_tail {x : ι × L} {h : List (ι × L)}
    (hrun : ∀ i, (A.run (steps i (x :: h))).isSome) (i : ι) : (A.run (steps i h)).isSome :=
  run_suffix (steps_tail i x h) (hrun i)

/-- The invariant rule. -/
theorem interleaved {effect : ι → L → G → G} {g : G} {Inv : (ι → S) → G → Prop}
    {ok : (ι → S) → ι → L → Prop} (hstart : Inv (fun _ => A.start) g)
    (hstep : ∀ st g i l s, Inv st g → ok st i l → A.step (st i) l = some s →
      Inv (Function.update st i s) (effect i l g)) :
    ∀ h : List (ι × L), (∀ i, (A.run (steps i h)).isSome) → A.Meets ok h →
      Inv (A.states h) (shared effect g h) := by
  intro h
  induction h with
  | nil => exact fun _ _ => hstart
  | cons x h ih =>
    intro hrun hok
    have hinv := ih (accepted_tail hrun) hok.2
    rcases x with ⟨i, l⟩
    rcases Option.isSome_iff_exists.mp (hrun i) with ⟨s, hs⟩
    rcases states_cons hs with ⟨hlocal, hstates⟩
    rw [hstates]
    exact hstep _ _ i l s hinv hok.1 hlocal

end Automaton

end Histories

/-! ## Counting parties -/

section Census

variable {ι S : Type} [Fintype ι]

/-- The number of parties in a state that meets `P`. -/
def census (st : ι → S) (P : S → Prop) [DecidablePred P] : Nat :=
  (Finset.univ.filter fun i => P (st i)).card

theorem census_pos {st : ι → S} {P : S → Prop} [DecidablePred P] {i : ι} (h : P (st i)) : 0 < census st P :=
  Finset.card_pos.mpr ⟨i, Finset.mem_filter.mpr ⟨Finset.mem_univ i, h⟩⟩

theorem census_update [DecidableEq ι] (st : ι → S) (i : ι) (s : S) (P : S → Prop) [DecidablePred P] :
    census (Function.update st i s) P + (if P (st i) then 1 else 0) =
      census st P + if P s then 1 else 0 := by
  let count : ι → Nat := fun j => if P (st j) then 1 else 0
  have hupdate : (fun j => if P (Function.update st i s j) then 1 else 0) =
      Function.update count i (if P s then 1 else 0) := by
    funext j
    by_cases hij : j = i
    · subst hij
      simp
    · simp [count, Function.update_of_ne hij]
  have hafter := Finset.sum_update_of_mem (Finset.mem_univ i) count (if P s then 1 else 0)
  have hbefore := Finset.sum_eq_add_sum_sdiff_singleton_of_mem (Finset.mem_univ i) count
  rw [census, census, Finset.card_filter, Finset.card_filter, hupdate, hafter]
  change _ + count i = (∑ j, count j) + _
  rw [hbefore]
  omega

end Census

end PgCat.Lib
