import Mathlib.Data.List.Induction
import Mathlib.Data.List.Nodup
import Mathlib.Data.List.ProdSigma
import PgCat.Lib.Maps

/-!
# Indexed — lists under keys

* `HashMap.ofPairs`: a map that is filled in order keeps the last value of a key;
* `HashMap.ofFunction`: a partial function with finitely many keys, listed as a map;
* `nodup_families_iff`: families of names, each under keys of its own, are listed without repetition exactly if
  the keys of every family are, provided that no name is in two families.
-/

namespace PgCat.Lib

universe u v

/-! ## Filling a map -/

section Filling

variable {κ : Type u} {β : Type v} [DecidableEq κ]

def HashMap.ofPairs (pairs : List (κ × β)) : HashMap κ β :=
  pairs.foldl (fun m p => m.insert p.1 p.2) ∅

theorem HashMap.lookup_ofPairs (pairs : List (κ × β)) (k : κ) :
    (HashMap.ofPairs pairs).lookup k = (pairs.filter fun p => p.1 = k).getLast?.map Prod.snd := by
  induction pairs using List.reverseRecOn with
  | nil => rfl
  | append_singleton pairs p ih =>
    rw [ofPairs, List.foldl_append, List.filter_append]
    change (AList.insert p.1 p.2 (ofPairs pairs)).lookup k = _
    by_cases hk : p.1 = k
    · subst hk
      simp
    · rw [AList.lookup_insert_ne (Ne.symm hk), ih]
      simp [hk]

def HashMap.ofFunction (f : κ → Option β) (keys : List κ) : HashMap κ β :=
  .ofPairs (keys.filterMap fun k => (f k).map fun v => (k, v))

theorem HashMap.lookup_ofFunction {f : κ → Option β} {keys : List κ} (h : ∀ k, f k ≠ none → k ∈ keys) (k : κ) :
    (HashMap.ofFunction f keys).lookup k = f k := by
  rw [ofFunction, lookup_ofPairs, List.filter_filterMap]
  cases hf : f k with
  | none =>
    refine Option.map_eq_none_iff.mpr (List.getLast?_eq_none_iff.mpr (List.filterMap_eq_nil_iff.mpr ?_))
    intro k' _
    by_cases hk : k' = k
    · rw [hk, hf]
      rfl
    · cases f k' <;> simp [hk]
  | some v =>
    have hmem : (k, v) ∈ keys.filterMap fun k' =>
        ((f k').map fun v' => (k', v')).filter fun p => p.1 = k :=
      List.mem_filterMap.mpr ⟨k, h k (by simp [hf]), by simp [hf]⟩
    obtain ⟨last, hlast⟩ := Option.ne_none_iff_exists'.mp
      (fun hnil => List.ne_nil_of_mem hmem (List.getLast?_eq_none_iff.mp hnil))
    -- Whatever is listed under the key is the value of the function there.
    obtain ⟨k', _, hk'⟩ := List.mem_filterMap.mp (List.mem_of_getLast? hlast)
    obtain ⟨hvalue, hkey⟩ := Option.filter_eq_some_iff.mp hk'
    obtain ⟨v', hv', rfl⟩ := Option.map_eq_some_iff.mp hvalue
    cases of_decide_eq_true hkey
    rw [hf] at hv'
    cases hv'
    rw [hlast]
    rfl

end Filling

/-! ## Names under keys -/

section Families

variable {κ : Type u} {ν : Type v}

theorem nodup_product_iff {keys : List κ} {names : List ν} (hnames : names.Nodup) :
    (keys ×ˢ names).Nodup ↔ names = [] ∨ keys.Nodup := by
  constructor
  · intro h
    refine or_iff_not_imp_left.mpr fun hne => ?_
    obtain ⟨n, hn⟩ := List.exists_mem_of_ne_nil names hne
    have hpairs := (List.nodup_flatMap.mp h).2
    refine hpairs.imp ?_
    rintro k _ hdisjoint rfl
    exact hdisjoint (List.mem_map_of_mem hn) (List.mem_map_of_mem hn)
  · rintro (rfl | hkeys)
    · simp
    · exact hkeys.product hnames

theorem nodup_families_iff {families : List (List κ × List ν)} (hnames : (families.flatMap Prod.snd).Nodup) :
    (families.flatMap fun f => f.1 ×ˢ f.2).Nodup ↔ ∀ f ∈ families, f.2 = [] ∨ f.1.Nodup := by
  obtain ⟨heach, hapart⟩ := List.nodup_flatMap.mp hnames
  rw [List.nodup_flatMap]
  constructor
  · exact fun h f hf => (nodup_product_iff (heach f hf)).mp (h.1 f hf)
  · intro h
    refine ⟨fun f hf => (nodup_product_iff (heach f hf)).mpr (h f hf), hapart.imp ?_⟩
    intro f g hfg p hp hp'
    exact hfg (List.mem_product.mp hp).2 (List.mem_product.mp hp').2

end Families

end PgCat.Lib
