import Mathlib.Data.List.Basic

/-!
# Text — replacing a pattern in a text

`str::replace` on lists of characters: occurrences are taken from the left and do not overlap.
-/

namespace PgCat.Lib

/-- Replace `pat`, which is not empty; `skip` characters belong to an occurrence already replaced. -/
def replaceFrom (pat rep : List Char) : Nat → List Char → List Char
  | _, [] => []
  | skip + 1, _ :: cs => replaceFrom pat rep skip cs
  | 0, c :: cs =>
    if pat <+: c :: cs then rep ++ replaceFrom pat rep (pat.length - 1) cs
    else c :: replaceFrom pat rep 0 cs

def replaceChars (pat rep cs : List Char) : List Char :=
  replaceFrom pat rep 0 cs

/-- `str::replace`. -/
def replaceText (pat rep text : String) : String :=
  String.ofList (replaceChars pat.toList rep.toList text.toList)

theorem replaceChars_of_not_infix {pat rep cs : List Char} (h : ¬ pat <:+: cs) :
    replaceChars pat rep cs = cs := by
  unfold replaceChars
  induction cs with
  | nil => rfl
  | cons c cs ih =>
    have hhead : ¬ pat <+: c :: cs := fun hhead => h hhead.isInfix
    have htail : ¬ pat <:+: cs := fun htail => h (htail.trans (List.suffix_cons c cs).isInfix)
    simp [replaceFrom, hhead, ih htail]

/-! ## Deleting a pattern -/

theorem length_replaceFrom_le (pat : List Char) :
    ∀ (cs : List Char) (skip : Nat), (replaceFrom pat [] skip cs).length ≤ cs.length - skip := by
  intro cs
  induction cs with
  | nil =>
    intro skip
    cases skip with
    | zero => simp [replaceFrom]
    | succ skip => simp [replaceFrom]
  | cons c cs ih =>
    intro skip
    cases skip with
    | zero =>
      rw [replaceFrom]
      split
      · have hrest := ih (pat.length - 1)
        simp only [List.nil_append, List.length_cons]
        omega
      · have hrest := ih 0
        simp only [List.length_cons]
        omega
    | succ skip =>
      have hrest := ih skip
      simp only [replaceFrom, List.length_cons]
      omega

theorem mem_of_mem_replaceFrom {pat : List Char} {x : Char} :
    ∀ {cs : List Char} {skip : Nat}, x ∈ replaceFrom pat [] skip cs → x ∈ cs := by
  intro cs
  induction cs with
  | nil =>
    intro skip h
    cases skip with
    | zero => exact h
    | succ skip => exact h
  | cons c cs ih =>
    intro skip h
    cases skip with
    | zero =>
      rw [replaceFrom] at h
      split at h
      · exact List.mem_cons_of_mem c (ih h)
      · rcases List.mem_cons.mp h with rfl | h
        · exact List.mem_cons_self
        · exact List.mem_cons_of_mem c (ih h)
    | succ skip => exact List.mem_cons_of_mem c (ih h)

theorem length_replaceChars_lt {pat cs : List Char} (hpat : pat ≠ []) (h : pat <:+: cs) :
    (replaceChars pat [] cs).length < cs.length := by
  unfold replaceChars
  induction cs with
  | nil => exact absurd (List.infix_nil.mp h) hpat
  | cons c cs ih =>
    rw [replaceFrom]
    split
    · have hrest := length_replaceFrom_le pat cs (pat.length - 1)
      simp only [List.nil_append, List.length_cons]
      omega
    · rename_i hhead
      have htail : pat <:+: cs := (List.infix_cons_iff.mp h).resolve_left hhead
      have hrest := ih htail
      simp only [List.length_cons]
      omega

theorem replaceChars_eq_self_iff {pat cs : List Char} (hpat : pat ≠ []) :
    replaceChars pat [] cs = cs ↔ ¬ pat <:+: cs := by
  constructor
  · intro heq hinfix
    have hlt := length_replaceChars_lt hpat hinfix
    rw [heq] at hlt
    exact absurd hlt (Nat.lt_irrefl _)
  · exact replaceChars_of_not_infix

theorem replaceChars_pair (a b : Char) (rep cs : List Char) :
    replaceChars [a, b] rep (a :: b :: cs) = rep ++ replaceChars [a, b] rep cs := by
  have hhead : [a, b] <+: a :: b :: cs := ⟨cs, rfl⟩
  unfold replaceChars
  rw [replaceFrom, if_pos hhead]
  rfl

/-- Before the first `b` only the character right before it can belong to an occurrence. -/
theorem replaceChars_append {a b : Char} {body : List Char} (hbody : b ∉ body) (rep cs : List Char) :
    replaceChars [a, b] rep (body ++ a :: b :: cs) = body ++ rep ++ replaceChars [a, b] rep cs := by
  induction body with
  | nil => exact replaceChars_pair a b rep cs
  | cons c body ih =>
    have hne : b ∉ body := fun hmem => hbody (List.mem_cons_of_mem c hmem)
    have hhead : ¬ [a, b] <+: c :: (body ++ a :: b :: cs) := by
      rw [List.cons_prefix_cons]
      rintro ⟨rfl, hnext⟩
      cases body with
      | nil =>
        rw [List.nil_append, List.cons_prefix_cons] at hnext
        exact hbody (by simp [hnext.1])
      | cons d body =>
        rw [List.cons_append, List.cons_prefix_cons] at hnext
        exact hne (by simp [hnext.1])
    have hrest := ih hne
    unfold replaceChars at hrest ⊢
    rw [List.cons_append, replaceFrom, if_neg hhead, hrest]
    rfl

example : replaceText "r=" "" "r=ar=b=r=" = "ab=" := by decide

end PgCat.Lib
