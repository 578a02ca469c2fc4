import PgCat.Stats.Averages

/-!
# Callers — averages that are updated while the totals grow

`update_averages` takes no lock.  For each of its pairs it loads the average, loads the total, computes, and
stores the result if the average is still the one it had loaded; otherwise it starts over with the one it
found.  Between any two of these, connections may add to the totals, and other callers may be anywhere in
the same function.

`World.step` has one action for each point at which somebody else can come in between.  `Sound` is kept by
every one of them: an average is at most its total, and so is whatever a caller has loaded or computed, since
the totals do not go down in the meantime.  A caller that is left alone does what `updateAverages` says
(`run_alone`).
-/

namespace PgCat.Stats

open Lib Function

/-- How far a caller is with the first of its pairs. -/
inductive Phase
  | load
  | loaded (avg : Nat)
  | computed (avg result : Nat)
  deriving DecidableEq, Repr

/-- A caller of `update_averages` and the pairs it still has to go through. -/
structure Caller where
  pairs : List (Total × Average)
  phase : Phase
  deriving DecidableEq, Repr

namespace Caller

def idle : Caller := ⟨[], .load⟩

def start : Caller := ⟨fieldsIterators.1.zip fieldsIterators.2, .load⟩

end Caller

structure World (ι : Type) where
  counters : Counters
  callers : ι → Caller

inductive Act (ι : Type)
  | add (t : Total) (n : Nat)
  | call (i : ι)
  /-- The caller takes its next step; an exchange may fail for no reason. -/
  | advance (i : ι) (fails : Bool)
  deriving DecidableEq, Repr

def Act.increment {ι : Type} (t : Total) : Act ι → Nat
  | .add t' n => if t = t' then n else 0
  | _ => 0

def increments {ι : Type} (t : Total) : List (Act ι) → Nat
  | [] => 0
  | act :: acts => act.increment t + increments t acts

variable {ι : Type} [DecidableEq ι]

namespace World

def start : World ι := ⟨.default, fun _ => .idle⟩

def setCaller (w : World ι) (i : ι) (c : Caller) : World ι :=
  { w with callers := update w.callers i c }

/-- The next step of a caller.  Only the subtraction can panic. -/
def advance (checks : Bool) (w : World ι) (i : ι) (fails : Bool) : Option (World ι) :=
  match w.callers i with
  | ⟨[], _⟩ => some w
  | ⟨pair :: rest, .load⟩ => some (w.setCaller i ⟨pair :: rest, .loaded (w.counters.average pair.2)⟩)
  | ⟨pair :: rest, .loaded avg⟩ =>
    (newAverage checks (w.counters.total pair.1) avg).map fun result =>
      w.setCaller i ⟨pair :: rest, .computed avg result⟩
  | ⟨pair :: rest, .computed avg result⟩ =>
    if w.counters.average pair.2 = avg ∧ fails = false then
      some { counters := { w.counters with average := update w.counters.average pair.2 result }
             callers := update w.callers i ⟨rest, .load⟩ }
    else some (w.setCaller i ⟨pair :: rest, .loaded (w.counters.average pair.2)⟩)

def step (checks : Bool) (w : World ι) : Act ι → Option (World ι)
  | .add t n => some { w with counters := w.counters.add t n }
  | .call i => some (if (w.callers i).pairs = [] then w.setCaller i .start else w)
  | .advance i fails => w.advance checks i fails

def run (checks : Bool) (acts : List (Act ι)) (w : World ι) : Option (World ι) :=
  acts.foldlM (step checks) w

/-! ## The invariant -/

end World

structure Caller.Sound (total : Total → Nat) (c : Caller) : Prop where
  pairs : ∀ pair ∈ c.pairs, pair.1 = pair.2.total
  loaded : ∀ pair rest avg, c = ⟨pair :: rest, .loaded avg⟩ → avg ≤ total pair.1
  computed : ∀ pair rest avg result, c = ⟨pair :: rest, .computed avg result⟩ → result ≤ total pair.1

theorem Caller.Sound.ofLoad {total : Total → Nat} {pairs : List (Total × Average)}
    (h : ∀ pair ∈ pairs, pair.1 = pair.2.total) : Caller.Sound total ⟨pairs, .load⟩ :=
  ⟨h, fun _ _ _ heq => (by cases heq), fun _ _ _ _ heq => (by cases heq)⟩

theorem Caller.Sound.mono {total total' : Total → Nat} {c : Caller} (h : c.Sound total)
    (hgrows : ∀ t, total t ≤ total' t) : c.Sound total' :=
  ⟨h.pairs, fun pair rest avg heq => le_trans (h.loaded pair rest avg heq) (hgrows pair.1),
    fun pair rest avg result heq => le_trans (h.computed pair rest avg result heq) (hgrows pair.1)⟩

namespace World

structure Sound (w : World ι) : Prop where
  averages : ∀ avg : Average, w.counters.average avg ≤ w.counters.total avg.total
  callers : ∀ i, (w.callers i).Sound w.counters.total

omit [DecidableEq ι] in
theorem start_sound : (start : World ι).Sound :=
  ⟨fun _ => Nat.le_refl 0, fun _ => .ofLoad fun _ h => absurd h List.not_mem_nil⟩

theorem mem_iterators {pair : Total × Average} (h : pair ∈ fieldsIterators.1.zip fieldsIterators.2) :
    pair.1 = pair.2.total := by
  rw [pairs_eq] at h
  obtain ⟨avg, -, rfl⟩ := List.mem_map.mp h
  rfl

theorem Sound.setCaller {w : World ι} (h : w.Sound) (i : ι) {c : Caller} (hc : c.Sound w.counters.total) :
    (w.setCaller i c).Sound := by
  refine ⟨h.averages, fun j => ?_⟩
  change (update w.callers i c j).Sound w.counters.total
  by_cases hj : j = i
  · subst hj
    rwa [update_self]
  · rw [update_of_ne hj]
    exact h.callers j

theorem total_add {c : Counters} {t : Total} {n : Nat} (hfits : c.total t + n < 2 ^ 64) (t' : Total) :
    (c.add t n).total t' = c.total t' + if t' = t then n else 0 := by
  change update c.total t ((c.total t + n) % 2 ^ 64) t' = _
  by_cases ht : t' = t
  · subst ht
    rw [update_self, if_pos rfl, Nat.mod_eq_of_lt hfits]
  · rw [update_of_ne ht, if_neg ht, Nat.add_zero]

variable (checks : Bool)

/-- A caller can always go on, and leaves the totals alone. -/
theorem advance_sound {w : World ι} (h : w.Sound) (i : ι) (fails : Bool) :
    ∃ w', w.advance checks i fails = some w' ∧ w'.Sound ∧ w'.counters.total = w.counters.total := by
  have hcaller := h.callers i
  unfold advance
  split
  · exact ⟨w, rfl, h, rfl⟩
  · rename_i pair rest heq
    rw [heq] at hcaller
    refine ⟨_, rfl, h.setCaller i ⟨hcaller.pairs, ?_, fun _ _ _ _ hphase => by cases hphase⟩, rfl⟩
    intro pair' rest' avg hphase
    cases hphase
    rw [hcaller.pairs pair List.mem_cons_self]
    exact h.averages pair.2
  · rename_i pair rest avg heq
    rw [heq] at hcaller
    -- The average was at most the total when it was loaded, and the total has only grown.
    have hle := hcaller.loaded pair rest avg rfl
    rw [newAverage_of_le checks hle]
    refine ⟨_, rfl, h.setCaller i ⟨hcaller.pairs, fun _ _ _ hphase => (by cases hphase), ?_⟩, rfl⟩
    intro pair' rest' avg' result hphase
    cases hphase
    exact le_trans (Nat.div_le_self _ 15) (Nat.sub_le _ _)
  · rename_i pair rest avg result heq
    rw [heq] at hcaller
    have hrest : ∀ pair ∈ rest, pair.1 = pair.2.total := fun pair' hin =>
      hcaller.pairs pair' (List.mem_cons_of_mem pair hin)
    split
    · refine ⟨_, rfl, ⟨fun avg' => ?_, fun j => ?_⟩, rfl⟩
      · change update w.counters.average pair.2 result avg' ≤ w.counters.total avg'.total
        by_cases havg : avg' = pair.2
        · subst havg
          rw [update_self, ← hcaller.pairs pair List.mem_cons_self]
          exact hcaller.computed pair rest avg result rfl
        · rw [update_of_ne havg]
          exact h.averages avg'
      · exact (h.setCaller i (.ofLoad hrest)).callers j
    · refine ⟨_, rfl, h.setCaller i ⟨hcaller.pairs, ?_, fun _ _ _ _ hphase => by cases hphase⟩, rfl⟩
      intro pair' rest' avg' hphase
      cases hphase
      rw [hcaller.pairs pair List.mem_cons_self]
      exact h.averages pair.2

theorem step_sound {w : World ι} (h : w.Sound) (act : Act ι)
    (hfits : ∀ t, w.counters.total t + act.increment t < 2 ^ 64) :
    ∃ w', w.step checks act = some w' ∧ w'.Sound ∧
      ∀ t, w'.counters.total t = w.counters.total t + act.increment t := by
  cases act with
  | add t n =>
    have hadd := fun t' => @total_add w.counters t n (by simpa [Act.increment] using hfits t) t'
    have hgrows : ∀ t', w.counters.total t' ≤ (w.counters.add t n).total t' := fun t' => by
      rw [hadd]
      exact Nat.le_add_right _ _
    exact ⟨_, rfl, ⟨fun avg => le_trans (h.averages avg) (hgrows avg.total), fun i => (h.callers i).mono hgrows⟩,
      hadd⟩
  | call i =>
    refine ⟨_, rfl, ?_, fun t => ?_⟩
    · split
      · exact h.setCaller i (.ofLoad fun _ => mem_iterators)
      · exact h
    · split <;> rfl
  | advance i fails =>
    obtain ⟨w', hstep, hsound, htotal⟩ := advance_sound checks h i fails
    exact ⟨w', hstep, hsound, fun t => congrFun htotal t⟩

theorem run_sound : ∀ (acts : List (Act ι)) {w : World ι}, w.Sound →
    (∀ t, w.counters.total t + increments t acts < 2 ^ 64) →
      ∃ w', run checks acts w = some w' ∧ w'.Sound ∧
        ∀ t, w'.counters.total t = w.counters.total t + increments t acts := by
  intro acts
  induction acts with
  | nil => exact fun h _ => ⟨_, rfl, h, fun _ => rfl⟩
  | cons act acts ih =>
    intro w h hfits
    simp only [increments, ← Nat.add_assoc] at hfits ⊢
    obtain ⟨w₁, hstep, hsound, htotal⟩ := step_sound checks h act fun t =>
      Nat.lt_of_le_of_lt (Nat.le_add_right _ _) (hfits t)
    obtain ⟨w', hrun, hsound', htotal'⟩ := ih hsound fun t => by
      rw [htotal]
      exact hfits t
    refine ⟨w', ?_, hsound', fun t => by rw [htotal', htotal]⟩
    rw [run, List.foldlM_cons, hstep]
    exact hrun

/-- As long as the totals fit, whoever adds to them and whoever updates the averages, and whenever: no average
exceeds its total, nobody is about to subtract more than there is, and no subtraction has panicked. -/
theorem subtraction_never_underflows (checks : Bool) (acts : List (Act ι)) (hfits : ∀ t, increments t acts < 2 ^ 64) :
    ∃ w, run checks acts start = some w ∧ (∀ t, w.counters.total t = increments t acts) ∧
      (∀ pair ∈ fieldsIterators.1.zip fieldsIterators.2, w.counters.average pair.2 ≤ w.counters.total pair.1) ∧
        ∀ i pair rest avg, w.callers i = ⟨pair :: rest, .loaded avg⟩ → avg ≤ w.counters.total pair.1 := by
  have hzero : ∀ t, (start : World ι).counters.total t + increments t acts = increments t acts := fun t =>
    Nat.zero_add _
  obtain ⟨w, hrun, hsound, htotal⟩ := run_sound checks acts start_sound fun t => by
    rw [hzero]
    exact hfits t
  refine ⟨w, hrun, fun t => (htotal t).trans (hzero t), fun pair hpair => ?_, fun i pair rest avg hcaller => ?_⟩
  · rw [mem_iterators hpair]
    exact hsound.averages pair.2
  · exact (hsound.callers i).loaded pair rest avg hcaller

/-- Two callers that meet: the second finds the average changed and starts over. -/
def contended : List (Act Bool) :=
  [.add .xactCount 30, .call true, .call false, .advance true false, .advance false false, .advance true false,
    .add .xactCount 15, .advance false false, .advance true false, .advance false false, .advance false false]

theorem contended_sound :
    ∃ w, run true contended start = some w ∧ w.counters.average .xactCount ≤ w.counters.total .xactCount ∧
      w.counters.total .xactCount = 45 := by
  obtain ⟨w, hrun, htotal, haverage, -⟩ := subtraction_never_underflows true contended fun t => by
    cases t <;> decide
  exact ⟨w, hrun, haverage (.xactCount, .xactCount) (by decide), htotal .xactCount⟩

/-! ## A caller that is left alone -/

theorem run_pair {w : World ι} {i : ι} {pair : Total × Average} {rest : List (Total × Average)}
    (hcaller : w.callers i = ⟨pair :: rest, .load⟩) :
    run checks (List.replicate 3 (.advance i false)) w =
      (refresh checks w.counters pair).map fun counters =>
        ⟨counters, update w.callers i ⟨rest, .load⟩⟩ := by
  have hload : w.step checks (.advance i false) =
      some (w.setCaller i ⟨pair :: rest, .loaded (w.counters.average pair.2)⟩) := by
    simp [step, advance, hcaller]
  have hself : ∀ c : Caller, (w.setCaller i c).callers i = c := fun c => by simp [setCaller]
  simp only [run, List.replicate, List.foldlM_cons, List.foldlM_nil, hload, some_bind]
  rw [step, advance, hself]
  simp only [refresh]
  change ((newAverage checks (w.counters.total pair.1) (w.counters.average pair.2)).map _).bind _ = _
  cases newAverage checks (w.counters.total pair.1) (w.counters.average pair.2) with
  | none => rfl
  | some result =>
    simp [step, advance, setCaller]

theorem run_pairs (i : ι) : ∀ (pairs : List (Total × Average)) {w : World ι}, w.callers i = ⟨pairs, .load⟩ →
      run checks (List.replicate (3 * pairs.length) (.advance i false)) w =
        (pairs.foldlM (refresh checks) w.counters).map fun counters =>
          ⟨counters, update w.callers i .idle⟩ := by
  intro pairs
  induction pairs with
  | nil =>
    intro w hcaller
    have hidle : update w.callers i .idle = w.callers := by
      rw [update_eq_self_iff]
      exact hcaller.symm
    change some w = some ⟨w.counters, update w.callers i .idle⟩
    rw [hidle]
  | cons pair rest ih =>
    intro w hcaller
    have hpair := run_pair checks hcaller
    rw [run] at hpair
    rw [List.length_cons, Nat.mul_add, Nat.add_comm, Nat.mul_one, List.replicate_add, run, List.foldlM_append,
      hpair, List.foldlM_cons]
    cases refresh checks w.counters pair with
    | none => rfl
    | some counters =>
      have hrest := @ih ⟨counters, update w.callers i ⟨rest, .load⟩⟩ (update_self i _ _)
      rw [update_idem] at hrest
      exact hrest

/-- Nobody in between, and the call is the function. -/
theorem run_alone {w : World ι} {i : ι} (hidle : w.callers i = .idle) :
    run checks (.call i :: List.replicate 24 (.advance i false)) w =
      (updateAverages checks w.counters).map fun counters => { w with counters := counters } := by
  have hcall : w.step checks (.call i) = some (w.setCaller i .start) := by
    rw [step, hidle]
    rfl
  have hpairs := run_pairs checks i (fieldsIterators.1.zip fieldsIterators.2)
    (w := w.setCaller i .start) (by simp [setCaller, Caller.start])
  have hback : update (w.setCaller i .start).callers i .idle = w.callers := by
    rw [setCaller, update_idem, ← hidle, update_eq_self]
  rw [hback] at hpairs
  rw [run, List.foldlM_cons, hcall]
  exact hpairs

end World

end PgCat.Stats
