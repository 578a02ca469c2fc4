import Mathlib.Data.List.Basic
import Mathlib.Logic.Function.Basic

/-!
# HashTable — maps whose keys bring an equality and a hash

A key is looked for in one bucket only, the one its hash leads to, and there it is compared with the keys
that are already in it.  What is found therefore depends on both functions, and the two have to agree:
`HashKeys` collects what a key type owes to a map.  A key that is already there stays when its value is
replaced.

* `HashTable.get_insert`, `HashTable.get_remove`: what is found after an operation, for any key;
* `HashTable.empty`, `insert`, `remove` keep the keys of a bucket apart, which `remove` relies on.
-/

namespace PgCat.Lib

universe u v w

variable {κ : Type u} {β : Type v} {ι : Type w}

/-- The equality of the keys and the bucket of each, as a map needs them. -/
structure HashKeys (κ : Type u) (ι : Type w) where
  eq : κ → κ → Bool
  bucket : κ → ι
  refl : ∀ a, eq a a = true
  symm : ∀ {a b}, eq a b = true → eq b a = true
  trans : ∀ {a b c}, eq a b = true → eq b c = true → eq a c = true
  /-- Keys that are equal are looked for in the same bucket. -/
  agrees : ∀ {a b}, eq a b = true → bucket a = bucket b

variable (K : HashKeys κ ι)

/-! ## One bucket -/

namespace Bucket

def get (k : κ) (entries : List (κ × β)) : Option β :=
  (entries.find? fun e => K.eq k e.1).map Prod.snd

/-- Replace the value of the key, or add the key with it. -/
def insert (k : κ) (v : β) : List (κ × β) → List (κ × β)
  | [] => [(k, v)]
  | e :: rest => if K.eq k e.1 = true then (e.1, v) :: rest else e :: insert k v rest

def remove (k : κ) (entries : List (κ × β)) : List (κ × β) :=
  entries.eraseP fun e => K.eq k e.1

/-- No two keys are equal. -/
def Distinct (entries : List (κ × β)) : Prop :=
  entries.Pairwise fun e e' => K.eq e.1 e'.1 = false

variable {K} {entries : List (κ × β)}

theorem get_cons (k : κ) (e : κ × β) (rest : List (κ × β)) :
    get K k (e :: rest) = if K.eq k e.1 = true then some e.2 else get K k rest := by
  unfold get
  by_cases h : K.eq k e.1 = true
  · simp [h]
  · simp [h]

theorem get_eq_none {k : κ} (h : ∀ e ∈ entries, K.eq k e.1 = false) :
    get K k entries = none := by
  have hnone : entries.find? (fun e => K.eq k e.1) = none :=
    List.find?_eq_none.mpr fun e he => by simp [h e he]
  rw [get, hnone, Option.map_none]

theorem get_insert (a b : κ) (v : β) (entries : List (κ × β)) :
    get K b (insert K a v entries) = if K.eq b a = true then some v else get K b entries := by
  induction entries with
  | nil => rw [insert, get_cons]
  | cons e rest ih =>
    rw [insert]
    by_cases hae : K.eq a e.1 = true
    · rw [if_pos hae, get_cons, get_cons]
      by_cases hba : K.eq b a = true
      · rw [if_pos hba, if_pos (K.trans hba hae)]
      · -- A key equal to the one that stays would be equal to the one that was inserted.
        have hbe : K.eq b e.1 ≠ true := fun h => hba (K.trans h (K.symm hae))
        rw [if_neg hba, if_neg hbe, if_neg hbe]
    · rw [if_neg hae, get_cons, get_cons, ih]
      by_cases hbe : K.eq b e.1 = true
      · have hba : K.eq b a ≠ true := fun h => hae (K.trans (K.symm h) hbe)
        rw [if_pos hbe, if_neg hba, if_pos hbe]
      · rw [if_neg hbe, if_neg hbe]

theorem get_remove (a b : κ) (h : Distinct K entries) :
    get K b (remove K a entries) = if K.eq b a = true then none else get K b entries := by
  induction entries with
  | nil => simp [remove, get]
  | cons e rest ih =>
    rw [Distinct, List.pairwise_cons] at h
    by_cases hae : K.eq a e.1 = true
    · have hremoved : remove K a (e :: rest) = rest := by simp [remove, hae]
      rw [hremoved, get_cons]
      by_cases hba : K.eq b a = true
      · -- Only one entry was removed, so that the others must not have the key.
        rw [if_pos hba]
        refine get_eq_none fun x hx => Bool.eq_false_iff.mpr fun hbx => ?_
        have hex := K.trans (K.symm (K.trans hba hae)) hbx
        rw [h.1 x hx] at hex
        cases hex
      · have hbe : K.eq b e.1 ≠ true := fun hbe => hba (K.trans hbe (K.symm hae))
        rw [if_neg hba, if_neg hbe]
    · have hkept : remove K a (e :: rest) = e :: remove K a rest := by simp [remove, hae]
      rw [hkept, get_cons, get_cons, ih h.2]
      by_cases hbe : K.eq b e.1 = true
      · have hba : K.eq b a ≠ true := fun hba => hae (K.trans (K.symm hba) hbe)
        rw [if_pos hbe, if_neg hba, if_pos hbe]
      · rw [if_neg hbe, if_neg hbe]

theorem key_of_mem_insert {k : κ} {v : β} {x : κ × β}
    (hx : x ∈ insert K k v entries) : x.1 = k ∨ ∃ e ∈ entries, x.1 = e.1 := by
  induction entries with
  | nil => exact .inl (congrArg Prod.fst (List.mem_singleton.mp hx))
  | cons e rest ih =>
    rw [insert] at hx
    split at hx
    · rcases List.mem_cons.mp hx with rfl | hx
      · exact .inr ⟨e, List.mem_cons_self, rfl⟩
      · exact .inr ⟨x, List.mem_cons_of_mem e hx, rfl⟩
    · rcases List.mem_cons.mp hx with rfl | hx
      · exact .inr ⟨x, List.mem_cons_self, rfl⟩
      · rcases ih hx with hk | ⟨e', he', hkey⟩
        · exact .inl hk
        · exact .inr ⟨e', List.mem_cons_of_mem e he', hkey⟩

theorem distinct_insert (k : κ) (v : β) (h : Distinct K entries) :
    Distinct K (insert K k v entries) := by
  induction entries with
  | nil => exact List.pairwise_singleton _ _
  | cons e rest ih =>
    rw [Distinct, List.pairwise_cons] at h
    rw [insert]
    split
    · exact List.pairwise_cons.mpr h
    · rename_i hke
      refine List.pairwise_cons.mpr ⟨fun x hx => ?_, ih h.2⟩
      rcases key_of_mem_insert hx with hk | ⟨e', he', hkey⟩
      · rw [hk, Bool.eq_false_iff]
        exact fun hek => hke (K.symm hek)
      · rw [hkey]
        exact h.1 e' he'

theorem distinct_remove (k : κ) (h : Distinct K entries) :
    Distinct K (remove K k entries) :=
  h.sublist List.eraseP_sublist

end Bucket

/-! ## The table -/

structure HashTable (K : HashKeys κ ι) (β : Type v) where
  entries : ι → List (κ × β)
  distinct : ∀ i, Bucket.Distinct K (entries i)

namespace HashTable

variable {K}

def empty : HashTable K β where
  entries := fun _ => []
  distinct := fun _ => .nil

def get (t : HashTable K β) (k : κ) : Option β :=
  Bucket.get K k (t.entries (K.bucket k))

section Operations

variable [DecidableEq ι]

def update (t : HashTable K β) (i : ι) (l : List (κ × β)) (h : Bucket.Distinct K l) : HashTable K β where
  entries := Function.update t.entries i l
  distinct := by
    intro j
    by_cases hij : j = i
    · subst hij
      rwa [Function.update_self]
    · rw [Function.update_of_ne hij]
      exact t.distinct j

def insert (t : HashTable K β) (k : κ) (v : β) : HashTable K β :=
  t.update (K.bucket k) (Bucket.insert K k v (t.entries (K.bucket k)))
    (Bucket.distinct_insert k v (t.distinct _))

def remove (t : HashTable K β) (k : κ) : HashTable K β :=
  t.update (K.bucket k) (Bucket.remove K k (t.entries (K.bucket k)))
    (Bucket.distinct_remove k (t.distinct _))

theorem get_update (t : HashTable K β) (k : κ) (i : ι) (l : List (κ × β)) (h : Bucket.Distinct K l) :
    (t.update i l h).get k = if K.bucket k = i then Bucket.get K k l else t.get k := by
  change Bucket.get K k (Function.update t.entries i l (K.bucket k)) = _
  by_cases hi : K.bucket k = i
  · rw [if_pos hi, hi, Function.update_self]
  · rw [if_neg hi, Function.update_of_ne hi]
    rfl

theorem get_insert (t : HashTable K β) (a b : κ) (v : β) :
    (t.insert a v).get b = if K.eq b a = true then some v else t.get b := by
  rw [insert, get_update]
  by_cases hbucket : K.bucket b = K.bucket a
  · rw [if_pos hbucket, Bucket.get_insert, ← hbucket]
    rfl
  · rw [if_neg hbucket, if_neg fun heq => hbucket (K.agrees heq)]

theorem get_remove (t : HashTable K β) (a b : κ) :
    (t.remove a).get b = if K.eq b a = true then none else t.get b := by
  rw [remove, get_update]
  by_cases hbucket : K.bucket b = K.bucket a
  · rw [if_pos hbucket, Bucket.get_remove a b (t.distinct _), ← hbucket]
    rfl
  · rw [if_neg hbucket, if_neg fun heq => hbucket (K.agrees heq)]

end Operations

end HashTable

end PgCat.Lib
