import Mathlib.Data.List.AList
import Mathlib.Data.List.Forall2

/-!
# Maps — maps with an iteration order

A map is modelled by the list of its entries in the order in which it is iterated, with no key twice
(`AList`).  The order of a hash map is not determined by its contents, so `HashMap.Same` and not
equality says when two of them are equal; the entries of an ordered map are sorted by key.
-/

namespace PgCat.Lib

universe u v w

variable {κ : Type u} {β γ : Type v} {ε : Type w}

/-! ## Related lists -/

section Related

variable {α : Type u} {δ : Type v} {R S : α → δ → Prop} {l : List α} {l' : List δ}

theorem getElem?_of_right (h : List.Forall₂ R l l') {i : Nat} {y : δ} (hy : l'[i]? = some y) :
    ∃ x, l[i]? = some x ∧ R x y := by
  obtain ⟨hlt, hget⟩ := List.getElem?_eq_some_iff.mp hy
  have hlength := h.length_eq
  refine ⟨l[i], List.getElem?_eq_getElem (by omega), ?_⟩
  have hR := (List.forall₂_iff_get.mp h).2 i (by omega) hlt
  simpa [hget] using hR

theorem getElem?_of_left (h : List.Forall₂ R l l') {i : Nat} {x : α} (hx : l[i]? = some x) :
    ∃ y, l'[i]? = some y ∧ R x y :=
  getElem?_of_right h.flip hx

theorem exists_of_mem_right (h : List.Forall₂ R l l') {y : δ} (hy : y ∈ l') : ∃ x ∈ l, R x y := by
  obtain ⟨i, hi⟩ := List.mem_iff_getElem?.mp hy
  obtain ⟨x, hx, hR⟩ := getElem?_of_right h hi
  exact ⟨x, List.mem_of_getElem? hx, hR⟩

theorem forall₂_and (hR : List.Forall₂ R l l') (hS : List.Forall₂ S l l') :
    List.Forall₂ (fun x y => R x y ∧ S x y) l l' := by
  induction hR with
  | nil => exact .nil
  | cons hxy _ ih =>
    cases hS with
    | cons hxy' hrest => exact .cons ⟨hxy, hxy'⟩ (ih hrest)

theorem exists_forall₂_iff : (∃ l', List.Forall₂ R l l') ↔ ∀ x ∈ l, ∃ y, R x y := by
  induction l with
  | nil => exact ⟨fun _ x hx => absurd hx List.not_mem_nil, fun _ => ⟨[], .nil⟩⟩
  | cons a l ih =>
    rw [List.forall_mem_cons, ← ih]
    constructor
    · rintro ⟨_, h⟩
      cases h with
      | cons hab hrest => exact ⟨⟨_, hab⟩, _, hrest⟩
    · rintro ⟨⟨b, hab⟩, l', hrest⟩
      exact ⟨b :: l', .cons hab hrest⟩

end Related

theorem mapM_eq_some_iff {α δ : Type u} {f : α → Option δ} {l : List α} {l' : List δ} :
    l.mapM f = some l' ↔ List.Forall₂ (fun x y => f x = some y) l l' := by
  induction l generalizing l' with
  | nil => simp [eq_comm]
  | cons a l ih =>
    rw [List.mapM_cons, List.forall₂_cons_left_iff]
    simp only [Option.bind_eq_bind, Option.bind_eq_some_iff, ih]
    constructor
    · rintro ⟨b, hb, bs, hbs, hpure⟩
      cases hpure
      exact ⟨b, bs, hb, hbs, rfl⟩
    · rintro ⟨b, bs, hb, hbs, rfl⟩
      exact ⟨b, hb, bs, hbs, rfl⟩

theorem map_returns_iff {α : Type u} {δ : Type v} {f : α → δ} {o : Option α} :
    (∃ b, o.map f = some b) ↔ ∃ a, o = some a := by
  cases o <;> simp

theorem mapM_returns_iff {α δ : Type u} {f : α → Option δ} {l : List α} :
    (∃ l', l.mapM f = some l') ↔ ∀ x ∈ l, ∃ y, f x = some y := by
  simp only [mapM_eq_some_iff]
  exact exists_forall₂_iff

/-! ## Hash maps -/

abbrev HashMap (κ : Type u) (β : Type v) := AList fun _ : κ => β

namespace HashMap

/-- As many entries, and every entry of the one is in the other. -/
def Same [DecidableEq κ] (a b : HashMap κ β) : Prop :=
  a.entries.length = b.entries.length ∧ ∀ e ∈ a.entries, b.lookup e.1 = some e.2

instance [DecidableEq κ] [DecidableEq β] (a b : HashMap κ β) : Decidable (Same a b) :=
  inferInstanceAs (Decidable (_ ∧ _))

theorem Same.lookup [DecidableEq κ] {a b : HashMap κ β} (h : Same a b) (k : κ) : a.lookup k = b.lookup k := by
  have hsub : a.entries ⊆ b.entries := fun e he => AList.mem_lookup_iff.mp (h.2 e he)
  have hperm : a.entries.Perm b.entries :=
    (List.subperm_of_subset a.nodupKeys.nodup hsub).perm_of_length_le (le_of_eq h.1.symm)
  exact AList.perm_lookup hperm

def mapValues (f : β → γ) (m : HashMap κ β) : HashMap κ γ where
  entries := m.entries.map fun e => ⟨e.1, f e.2⟩
  nodupKeys := by
    have hkeys : (m.entries.map fun e => (⟨e.1, f e.2⟩ : Sigma fun _ : κ => γ)).keys =
        m.entries.keys := by simp [List.keys]
    rw [List.NodupKeys, hkeys]
    exact m.nodupKeys

theorem lookup_mapValues [DecidableEq κ] (f : β → γ) (m : HashMap κ β) (k : κ) :
    (mapValues f m).lookup k = (m.lookup k).map f := by
  change (m.entries.map fun e => (⟨e.1, f e.2⟩ : Sigma fun _ : κ => γ)).dlookup k = (m.entries.dlookup k).map f
  induction m.entries with
  | nil => rfl
  | cons e rest ih =>
    by_cases hk : k = e.1
    · subst hk
      rw [List.map_cons, List.dlookup_cons_eq, List.dlookup_cons_eq, Option.map_some]
    · rw [List.map_cons, List.dlookup_cons_ne rest e hk, ← ih]
      exact List.dlookup_cons_ne _ _ hk

section Fallible

variable (f : β → Except ε γ)

/-- Change every value, in order, until one fails. -/
def mapEntriesM : List (Sigma fun _ : κ => β) → Except ε (List (Sigma fun _ : κ => γ))
  | [] => .ok []
  | e :: rest =>
    match f e.2 with
    | .error err => .error err
    | .ok v =>
      match mapEntriesM rest with
      | .error err => .error err
      | .ok vs => .ok (⟨e.1, v⟩ :: vs)

variable {f}

theorem mapEntriesM_forall₂ :
    ∀ {es : List (Sigma fun _ : κ => β)} {es' : List (Sigma fun _ : κ => γ)},
      mapEntriesM f es = .ok es' → List.Forall₂ (fun e e' => e'.1 = e.1 ∧ f e.2 = .ok e'.2) es es' := by
  intro es
  induction es with
  | nil =>
    intro es' h
    cases h
    exact .nil
  | cons e rest ih =>
    intro es' h
    unfold mapEntriesM at h
    cases hv : f e.2 with
    | error err => simp [hv] at h
    | ok v =>
      cases hvs : mapEntriesM f rest with
      | error err => simp [hv, hvs] at h
      | ok vs =>
        simp only [hv, hvs] at h
        cases h
        exact .cons ⟨rfl, hv⟩ (ih hvs)

theorem keys_mapEntriesM {es : List (Sigma fun _ : κ => β)} {es' : List (Sigma fun _ : κ => γ)}
    (h : mapEntriesM f es = .ok es') : es'.keys = es.keys := by
  have hall := mapEntriesM_forall₂ h
  clear h
  induction hall with
  | nil => rfl
  | cons he _ ih => simp [List.keys_cons, he.1, ih]

variable (f)

def mapValuesM (m : HashMap κ β) : Except ε (HashMap κ γ) :=
  match h : mapEntriesM f m.entries with
  | .error err => .error err
  | .ok es => .ok ⟨es, by
      rw [List.NodupKeys, keys_mapEntriesM h]
      exact m.nodupKeys⟩

variable {f}

theorem mem_of_mapValuesM {m : HashMap κ β} {m' : HashMap κ γ} (h : m.mapValuesM f = .ok m') {k : κ}
    {v' : γ} (hv' : ⟨k, v'⟩ ∈ m'.entries) : ∃ v, ⟨k, v⟩ ∈ m.entries ∧ f v = .ok v' := by
  unfold mapValuesM at h
  split at h
  · cases h
  · rename_i es hes
    cases h
    obtain ⟨⟨key, v⟩, he, hkey, hf⟩ := exists_of_mem_right (mapEntriesM_forall₂ hes) hv'
    have hk : k = key := hkey
    subst hk
    exact ⟨v, he, hf⟩

end Fallible
end HashMap

/-! ## Ordered maps -/

structure BTreeMap (κ : Type u) (β : Type v) [LT κ] extends AList fun _ : κ => β where
  sorted : toAList.keys.Pairwise (· < ·)

namespace BTreeMap

variable [LT κ]

instance [DecidableEq κ] [DecidableEq β] : DecidableEq (BTreeMap κ β) := fun a b =>
  decidable_of_iff (a.entries = b.entries) <| by
    constructor
    · intro h
      cases a
      cases b
      congr 1
      exact AList.ext h
    · rintro rfl
      rfl

def values (m : BTreeMap κ β) : List β :=
  m.entries.map fun e => e.2

end BTreeMap

end PgCat.Lib
