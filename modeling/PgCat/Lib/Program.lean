import Mathlib.Data.List.Forall2
import Mathlib.Logic.Relation

/-!
# Program — weakest preconditions for state-and-exception programs

A sequential program that talks to an environment is an `EStateM ε σ` computation: the state `σ`
carries what the environment will do next, and an exception stops the run.  This file gives such
programs

* a weakest precondition `wp m Q E` with one postcondition for normal and one for exceptional exits;
* `Returns P m`, what holds whenever `m` returns;
* `final m s`, the state in which the run of `m` from `s` ends;
* a bounded loop `repeatUntil` and its invariant rule;
* `Preserves I m`, the special case where one predicate holds before and after, whatever the exit;
* `Runs X S m`: whatever `m` does is a sequence of steps `S`, but for the stops `X`, so that an invariant of `S` is
  one of `m`;
* rules for `mapM` and `forM`;
* `Completes c m`: `m` returns exactly if `c` holds;
* rules for failing computations without a state.

Nothing here depends on a particular state or exception type.
-/

namespace PgCat.Lib

universe u

variable {ε σ α β : Type u}

/-! ## Weakest preconditions -/

/-- `wp m Q E s`: running `m` from `s` ends in `Q` on a normal exit and in `E` on an exception. -/
def wp (m : EStateM ε σ α) (Q : α → σ → Prop) (E : ε → σ → Prop) (s : σ) : Prop :=
  match m s with
  | .ok a s' => Q a s'
  | .error e s' => E e s'

section Rules

variable {Q : α → σ → Prop} {E : ε → σ → Prop} {s : σ}

@[simp] theorem wp_pure (a : α) : wp (pure a : EStateM ε σ α) Q E s ↔ Q a s :=
  Iff.rfl

@[simp] theorem wp_bind (m : EStateM ε σ β) (f : β → EStateM ε σ α) :
    wp (m >>= f) Q E s ↔ wp m (fun b => wp (f b) Q E) E s := by
  simp only [wp, bind, EStateM.bind]
  cases m s with
  | ok b s' => rfl
  | error e s' => rfl

@[simp] theorem wp_map (f : β → α) (m : EStateM ε σ β) :
    wp (f <$> m) Q E s ↔ wp m (fun b => Q (f b)) E s := by
  simp only [wp, Functor.map, EStateM.map]
  cases m s with
  | ok b s' => rfl
  | error e s' => rfl

@[simp] theorem wp_tryCatch (m : EStateM ε σ α) (h : ε → EStateM ε σ α) :
    wp (tryCatch m h) Q E s ↔ wp m Q (fun e => wp (h e) Q E) s := by
  simp only [wp, tryCatch, tryCatchThe, MonadExceptOf.tryCatch]
  delta EStateM.tryCatch
  dsimp only
  cases m s with
  | ok b s' => rfl
  | error e s' => rfl

@[simp] theorem wp_ite (c : Prop) [Decidable c] (m n : EStateM ε σ α) :
    wp (if c then m else n) Q E s ↔ (c → wp m Q E s) ∧ (¬ c → wp n Q E s) := by
  by_cases hc : c
  · simp [hc]
  · simp [hc]

end Rules

@[simp] theorem wp_get {Q : σ → σ → Prop} {E : ε → σ → Prop} {s : σ} :
    wp (get : EStateM ε σ σ) Q E s ↔ Q s s :=
  Iff.rfl

@[simp] theorem wp_modify {f : σ → σ} {Q : PUnit → σ → Prop} {E : ε → σ → Prop} {s : σ} :
    wp (modify f : EStateM ε σ PUnit) Q E s ↔ Q ⟨⟩ (f s) :=
  Iff.rfl

section Exits

variable {m m' : EStateM ε σ α} {n n' : EStateM ε σ β} {f : β → EStateM ε σ α} {P : β → σ → Prop}
  {Q Q' : α → σ → Prop} {E E' : ε → σ → Prop} {s s' : σ} {a : α} {b : β} {e : ε}

/-- Consequence: weaker postconditions follow from stronger ones. -/
theorem wp_mono (h : wp m Q E s) (hQ : ∀ a s', Q a s' → Q' a s') (hE : ∀ e s', E e s' → E' e s') :
    wp m Q' E' s := by
  unfold wp at h ⊢
  cases hm : m s with
  | ok a s' =>
    rw [hm] at h
    exact hQ a s' h
  | error e s' =>
    rw [hm] at h
    exact hE e s' h

theorem wp_imp (h : wp m Q E s) (hQ : ∀ a s', Q a s' → Q' a s') : wp m Q' E s :=
  wp_mono h hQ fun _ _ he => he

/-- Consequence where nothing is claimed of the exceptions. -/
theorem wp_weaken (h : wp m Q E s) (hQ : ∀ a s', Q a s' → Q' a s') : wp m Q' (fun _ _ => True) s :=
  wp_mono h hQ fun _ _ _ => trivial

/-- Sequencing: the rest is run from whatever the first part ensures. -/
theorem wp_seq (h : wp n P E s) (hf : ∀ b s', P b s' → wp (f b) Q E s') : wp (n >>= f) Q E s := by
  rw [wp_bind]
  exact wp_imp h hf

/-- Sequencing where nothing is claimed of the exceptions. -/
theorem wp_then (h : wp n P E s) (hf : ∀ b s', P b s' → wp (f b) Q (fun _ _ => True) s') :
    wp (n >>= f) Q (fun _ _ => True) s := by
  rw [wp_bind]
  exact wp_weaken h hf

theorem wp_and (h : wp m Q E s) (h' : wp m Q' E' s) :
    wp m (fun a s' => Q a s' ∧ Q' a s') (fun e s' => E e s' ∧ E' e s') s := by
  unfold wp at h h' ⊢
  cases hm : m s with
  | ok a s' | error e s' =>
    rw [hm] at h h'
    exact ⟨h, h'⟩

def final (m : EStateM ε σ α) (s : σ) : σ :=
  match m s with
  | .ok _ s' => s'
  | .error _ s' => s'

theorem final_of_wp {P : σ → Prop} (h : wp m (fun _ => P) (fun _ => P) s) : P (final m s) := by
  unfold wp at h
  unfold final
  cases hm : m s with
  | ok a s' => simpa [hm] using h
  | error e s' => simpa [hm] using h

theorem ok_of_wp (h : wp m Q (fun _ _ => False) s) : ∃ a s', m s = .ok a s' ∧ Q a s' := by
  unfold wp at h
  cases hm : m s with
  | ok a s' =>
    rw [hm] at h
    exact ⟨a, s', rfl, h⟩
  | error e s' =>
    rw [hm] at h
    exact h.elim

theorem bind_eq_ok_iff : (n >>= f) s = .ok a s' ↔ ∃ b s₁, n s = .ok b s₁ ∧ f b s₁ = .ok a s' := by
  simp only [bind, EStateM.bind]
  cases n s with
  | ok b s₁ => simp
  | error e s₁ => simp

theorem bind_eq_ok (h : (n >>= f) s = .ok a s') : ∃ b s₁, n s = .ok b s₁ ∧ f b s₁ = .ok a s' :=
  bind_eq_ok_iff.mp h

theorem bind_of_ok (h : n s = .ok b s') : (n >>= f) s = f b s' := by
  simp only [bind, EStateM.bind, h]

theorem bind_of_error (h : n s = .error e s') : (n >>= f) s = .error e s' := by
  simp only [bind, EStateM.bind, h]

theorem final_congr_run (h : m s = m' s') : final m s = final m' s' := by
  simp only [final, h]

theorem final_of_error (h : m s = .error e s') : final m s = s' := by
  simp only [final, h]

theorem bind_congr_run (h : n s = n' s') (f : β → EStateM ε σ α) : (n >>= f) s = (n' >>= f) s' := by
  simp only [bind, EStateM.bind, h]

def returned (m : EStateM ε σ α) (s : σ) : Bool :=
  match m s with
  | .ok _ _ => true
  | .error _ _ => false

theorem ok_of_returned (h : returned m s = true) : ∃ a, m s = .ok a (final m s) := by
  unfold returned at h
  unfold final
  cases hm : m s with
  | ok a s' => exact ⟨a, rfl⟩
  | error e s' =>
    rw [hm] at h
    cases h

theorem ok_of_run' {a : α} (h : m.run' s = some a) : m s = .ok a (final m s) := by
  unfold EStateM.run' EStateM.run at h
  unfold final
  cases hm : m s with
  | ok b s' =>
    rw [hm] at h
    cases h
    rfl
  | error e s' =>
    rw [hm] at h
    cases h

theorem wp_true : wp m (fun _ _ => True) (fun _ _ => True) s := by
  unfold wp
  cases m s with
  | ok a s' => trivial
  | error e s' => trivial

theorem wp_returns_iff : wp m Q (fun _ _ => True) s ↔ ∀ a s', m s = .ok a s' → Q a s' := by
  unfold wp
  cases m s with
  | ok b t => simp
  | error e t => simp

end Exits

/-- Whenever `m` returns, the value and the state satisfy `P`, wherever it started. -/
def Returns (P : α → σ → Prop) (m : EStateM ε σ α) : Prop :=
  ∀ s, wp m P (fun _ _ => True) s

namespace Returns

variable {P : α → σ → Prop} {m : EStateM ε σ α} {n : EStateM ε σ β} {f : β → EStateM ε σ α}

theorem ofPure {a : α} (h : ∀ s, P a s) : Returns P (pure a : EStateM ε σ α) :=
  fun s => h s

theorem ofThrow (e : ε) : Returns P (throw e : EStateM ε σ α) :=
  fun _ => trivial

theorem and {Q : α → σ → Prop} (hP : Returns P m) (hQ : Returns Q m) :
    Returns (fun a s => P a s ∧ Q a s) m :=
  fun s => wp_mono (wp_and (hP s) (hQ s)) (fun _ _ h => h) (fun _ _ _ => trivial)

theorem seq (hf : ∀ b, Returns P (f b)) : Returns P (n >>= f) := by
  intro s
  rw [wp_bind]
  exact wp_mono wp_true (fun b s' _ => hf b s') (fun _ _ h => h)

end Returns

/-! ## Loops -/

/-- Run `body` until it answers `.inr`, at most `n` times; the exception `out` stands for a run
that has not ended after `n` turns. -/
def repeatUntil (out : ε) : Nat → (β → EStateM ε σ (β ⊕ α)) → β → EStateM ε σ α
  | 0, _, _ => throw out
  | n + 1, body, b => do
    match ← body b with
    | .inl b' => repeatUntil out n body b'
    | .inr a => pure a

/-- Invariant rule: what one turn keeps, every run of the loop keeps. -/
theorem wp_repeatUntil {out : ε} {body : β → EStateM ε σ (β ⊕ α)}
    {Q : α → σ → Prop} {E : ε → σ → Prop} (I : β → σ → Prop)
    (hstep : ∀ b s, I b s →
      wp (body b) (fun r s' => Sum.elim (fun b' => I b' s') (fun a => Q a s') r) E s)
    (hout : ∀ b s, I b s → E out s) :
    ∀ (n : Nat) (b : β) (s : σ), I b s → wp (repeatUntil out n body b) Q E s := by
  intro n
  induction n with
  | zero =>
    intro b s hI
    exact hout b s hI
  | succ n ih =>
    intro b s hI
    rw [repeatUntil, wp_bind]
    refine wp_mono (hstep b s hI) ?_ (fun _ _ h => h)
    intro r s' hr
    cases r with
    | inl b' => exact ih b' s' hr
    | inr a => exact hr

/-! ## Invariants of whole programs -/

/-- `m` keeps `I`, however it exits. -/
def Preserves (I : σ → Prop) (m : EStateM ε σ α) : Prop :=
  ∀ s, I s → wp m (fun _ => I) (fun _ => I) s

/-! ## Programs as sequences of steps -/

/-- Every run of `m`, finished or not, is a sequence of `S` steps; only one that stops with `X` need not be. -/
def Runs (X : ε → Prop) (S : σ → σ → Prop) (m : EStateM ε σ α) : Prop :=
  ∀ s, wp m (fun _ => Relation.ReflTransGen S s) (fun e s' => X e ∨ Relation.ReflTransGen S s s') s

namespace Runs

variable {X : ε → Prop} {S : σ → σ → Prop} {m m' : EStateM ε σ α} {n : EStateM ε σ β} {f : β → EStateM ε σ α}

theorem ofPure (a : α) : Runs X S (pure a : EStateM ε σ α) :=
  fun _ => .refl

theorem ofThrow (e : ε) : Runs X S (throw e : EStateM ε σ α) :=
  fun _ => .inr .refl

theorem ofGet : Runs X S (get : EStateM ε σ σ) :=
  fun _ => .refl

theorem ofModify {f : σ → σ} (hf : ∀ s, S s (f s)) : Runs X S (modify f : EStateM ε σ PUnit) :=
  fun s => .single (hf s)

/-- A run that starts a few steps later. -/
theorem later (hm : Runs X S m) {s s' : σ} (h : Relation.ReflTransGen S s s') :
    wp m (fun _ => Relation.ReflTransGen S s) (fun e s' => X e ∨ Relation.ReflTransGen S s s') s' :=
  wp_mono (hm s') (fun _ _ => h.trans) (fun _ _ => .imp_right h.trans)

theorem seq (hn : Runs X S n) (hf : ∀ b, Runs X S (f b)) : Runs X S (n >>= f) := by
  intro s
  refine wp_seq (hn s) ?_
  intro b s' hs
  exact (hf b).later hs

theorem caught {h : ε → EStateM ε σ α} (hm : Runs X S m) (hX : ∀ e, X e → h e = throw e)
    (hh : ∀ e, Runs X S (h e)) : Runs X S (tryCatch m h) := by
  intro s
  rw [wp_tryCatch]
  refine wp_mono (hm s) (fun _ _ h => h) ?_
  rintro e s' (he | hs)
  · rw [hX e he]
    exact .inl he
  · exact (hh e).later hs

theorem cond {c : Prop} [Decidable c] (hm : Runs X S m) (hm' : Runs X S m') : Runs X S (if c then m else m') := by
  split
  · exact hm
  · exact hm'

theorem loop {out : ε} {body : β → EStateM ε σ (β ⊕ α)} (hbody : ∀ b, Runs X S (body b)) (n : Nat)
    (b : β) : Runs X S (repeatUntil out n body b) := by
  intro s
  refine wp_repeatUntil (Q := fun _ => Relation.ReflTransGen S s)
    (E := fun e s' => X e ∨ Relation.ReflTransGen S s s') (fun _ => Relation.ReflTransGen S s) ?_
    (fun _ _ h => .inr h) n b s .refl
  intro b s' hs
  refine wp_imp ((hbody b).later hs) ?_
  intro r s'' hs'
  cases r with
  | inl b' => exact hs'
  | inr a => exact hs'

theorem mapEach (hf : ∀ x, Runs X S (f x)) (l : List β) : Runs X S (l.mapM f) := by
  induction l with
  | nil => exact ofPure []
  | cons x l ih =>
    rw [List.mapM_cons]
    exact (hf x).seq fun y => ih.seq fun ys => ofPure (y :: ys)

/-- An invariant of the steps is an invariant of the program. -/
theorem keeps {I : σ → Prop} (hm : Runs X S m) (hI : ∀ s s', S s s' → I s → I s') (s : σ)
    (hs : I s) : wp m (fun _ => I) (fun e s' => X e ∨ I s') s := by
  have hreach : ∀ s', Relation.ReflTransGen S s s' → I s' := by
    intro s' h
    induction h with
    | refl => exact hs
    | tail _ hstep ih => exact hI _ _ hstep ih
  exact wp_mono (hm s) (fun _ => hreach) (fun _ s' => .imp_right (hreach s'))

end Runs

/-! ## Programs over a list -/

section Lists

variable {f : β → EStateM ε σ α}

theorem mapM_forall₂ :
    ∀ {l : List β} {ys : List α} {s s' : σ}, l.mapM f s = .ok ys s' →
      List.Forall₂ (fun x y => ∃ t t', f x t = .ok y t') l ys := by
  intro l
  induction l with
  | nil =>
    intro ys s s' h
    cases h
    exact .nil
  | cons x l ih =>
    intro ys s s' h
    rw [List.mapM_cons] at h
    obtain ⟨y, s₁, hy, hrest⟩ := bind_eq_ok h
    obtain ⟨ys', s₂, hys, hpure⟩ := bind_eq_ok hrest
    cases hpure
    exact .cons ⟨s, s₁, hy⟩ (ih hys)

/-- Invariant rule: what one element keeps, indexed by the elements done so far. -/
theorem wp_forM {g : β → EStateM ε σ PUnit} {E : ε → σ → Prop} (I : List β → σ → Prop) (l : List β)
    (hstep : ∀ done x s, x ∈ l → I done s → wp (g x) (fun _ => I (done ++ [x])) E s) :
    ∀ (done : List β) (s : σ), I done s → wp (forM l g) (fun _ => I (done ++ l)) E s := by
  induction l with
  | nil =>
    intro done s hI
    rw [List.append_nil]
    exact hI
  | cons x l ih =>
    intro done s hI
    rw [List.forM_cons, wp_bind]
    refine wp_mono (hstep done x s List.mem_cons_self hI) ?_ (fun _ _ h => h)
    intro _ s' hI'
    have hrest := ih (fun done y t hy => hstep done y t (List.mem_cons_of_mem x hy)) _ s' hI'
    rw [List.append_assoc] at hrest
    exact hrest

end Lists

/-! ## Completion -/

/-- From every state, `m` returns exactly if `c` holds. -/
def Completes (c : Prop) (m : EStateM ε σ α) : Prop :=
  ∀ s, (∃ a s', m s = .ok a s') ↔ c

namespace Completes

variable {c d : Prop} {m : EStateM ε σ α} {n : EStateM ε σ β} {f : β → EStateM ε σ α}

theorem ofPure (a : α) : Completes True (pure a : EStateM ε σ α) :=
  fun s => iff_true_intro ⟨a, s, rfl⟩

theorem ofThrow (e : ε) : Completes False (throw e : EStateM ε σ α) := by
  intro s
  constructor
  · rintro ⟨a, s', h⟩
    cases h
  · exact False.elim

theorem ofGet : Completes True (get : EStateM ε σ σ) :=
  fun s => iff_true_intro ⟨s, s, rfl⟩

theorem ofModify (f : σ → σ) : Completes True (modify f : EStateM ε σ PUnit) :=
  fun s => iff_true_intro ⟨⟨⟩, f s, rfl⟩

theorem congr (hm : Completes c m) (h : c ↔ d) : Completes d m :=
  fun s => (hm s).trans h

theorem seq (hn : Completes c n) (hf : ∀ b, (∃ s s', n s = .ok b s') → Completes d (f b)) :
    Completes (c ∧ d) (n >>= f) := by
  intro s
  constructor
  · rintro ⟨a, s', h⟩
    obtain ⟨b, s₁, hb, hrest⟩ := bind_eq_ok h
    exact ⟨(hn s).mp ⟨b, s₁, hb⟩, (hf b ⟨s, s₁, hb⟩ s₁).mp ⟨a, s', hrest⟩⟩
  · rintro ⟨hc, hd⟩
    obtain ⟨b, s₁, hb⟩ := (hn s).mpr hc
    obtain ⟨a, s', ha⟩ := (hf b ⟨s, s₁, hb⟩ s₁).mpr hd
    refine ⟨a, s', ?_⟩
    simp only [bind, EStateM.bind, hb, ha]

theorem after (hn : Completes True n) (hf : ∀ b, Completes d (f b)) : Completes d (n >>= f) :=
  (hn.seq fun b _ => hf b).congr (by simp)

theorem mapEach {c : β → Prop} {l : List β}
    (hf : ∀ x ∈ l, Completes (c x) (f x)) : Completes (∀ x ∈ l, c x) (l.mapM f) := by
  induction l with
  | nil => exact (ofPure []).congr (by simp)
  | cons x l ih =>
    rw [List.mapM_cons]
    have htail := ih fun y hy => hf y (List.mem_cons_of_mem x hy)
    have hrest : ∀ y, Completes (∀ x ∈ l, c x) (do let ys ← l.mapM f; pure (y :: ys)) := fun y =>
      (htail.seq fun ys _ => ofPure (y :: ys)).congr (by simp)
    exact ((hf x List.mem_cons_self).seq fun y _ => hrest y).congr (by simp)

theorem forEach {f : β → EStateM ε σ PUnit} {c : β → Prop} {l : List β}
    (hf : ∀ x ∈ l, Completes (c x) (f x)) : Completes (∀ x ∈ l, c x) (ForM.forM l f) := by
  induction l with
  | nil => exact (ofPure PUnit.unit).congr (by simp)
  | cons x l ih =>
    rw [List.forM_cons]
    have htail := ih fun y hy => hf y (List.mem_cons_of_mem x hy)
    exact ((hf x List.mem_cons_self).seq fun _ _ => htail).congr (by simp)

end Completes

/-! ## Computations that may fail -/

section Failing

theorem except_bind_eq_ok {m : Except ε β} {f : β → Except ε α} {a : α} :
    (m >>= f) = .ok a ↔ ∃ b, m = .ok b ∧ f b = .ok a := by
  cases m with
  | ok b | error e => simp [bind, Except.bind]

theorem except_forM_eq_ok {f : β → Except ε PUnit.{u + 1}} {l : List β} :
    forM l f = .ok ⟨⟩ ↔ ∀ x ∈ l, f x = .ok ⟨⟩ := by
  induction l with
  | nil => simp [pure, Except.pure]
  | cons x l ih =>
    rw [List.forM_cons, except_bind_eq_ok]
    constructor
    · rintro ⟨_, hx, hl⟩ y hy
      rcases List.mem_cons.mp hy with rfl | hy
      · exact hx
      · exact ih.mp hl y hy
    · intro h
      exact ⟨⟨⟩, h x List.mem_cons_self, ih.mpr fun y hy => h y (List.mem_cons_of_mem x hy)⟩

end Failing

/-! ## Folds that may fail -/

section Folds

variable {γ δ : Type u} {f : γ → δ → Option γ} {I : γ → Prop}

theorem foldlM_some (hstep : ∀ b a b', I b → f b a = some b' → I b') :
    ∀ (l : List δ) (b b' : γ), I b → l.foldlM f b = some b' → I b' := by
  intro l
  induction l with
  | nil =>
    intro b b' hb h
    cases h
    exact hb
  | cons a l ih =>
    intro b b' hb h
    rw [List.foldlM_cons] at h
    rcases Option.bind_eq_some_iff.mp h with ⟨c, hc, hl⟩
    exact ih c b' (hstep b a c hb hc) hl

theorem foldlM_total {l : List δ} (hstep : ∀ b, ∀ a ∈ l, I b → ∃ b', f b a = some b' ∧ I b') :
    ∀ b, I b → ∃ b', l.foldlM f b = some b' ∧ I b' := by
  induction l with
  | nil =>
    intro b hb
    exact ⟨b, rfl, hb⟩
  | cons a l ih =>
    intro b hb
    rcases hstep b a List.mem_cons_self hb with ⟨c, hc, hI⟩
    rcases ih (fun b a ha => hstep b a (List.mem_cons_of_mem _ ha)) c hI with ⟨d, hd, hI'⟩
    refine ⟨d, ?_, hI'⟩
    rw [List.foldlM_cons, hc]
    exact hd

end Folds

end PgCat.Lib
