import Mathlib.Computability.Language

/-!
# Regex — regular expressions by derivatives

Anchored regular expressions over characters, matched with Brzozowski derivatives.  `capture` finds
the text of one group standing between two plain parts, longest prefix first.  `language` is the set
of texts an expression stands for: `accepts` decides it, and a capture splits a text along it.
-/

namespace PgCat.Lib

inductive Re
  | empty
  | eps
  | char (p : Char → Bool)
  | seq (a b : Re)
  | alt (a b : Re)
  | star (a : Re)

namespace Re

open scoped Computability

/-! ## Building -/

/-- Equality up to simple Unicode case folding; `ſ` and the Kelvin sign fold to ASCII letters. -/
def foldEq (c d : Char) : Bool :=
  c.toLower == d.toLower ||
    (c.toLower == 's' && d == Char.ofNat 0x17F) || (c.toLower == 'k' && d == Char.ofNat 0x212A)

/-- A word, ignoring case. -/
def word (s : String) : Re :=
  s.toList.foldr (fun c r => .seq (.char (foldEq c)) r) .eps

def opt (a : Re) : Re := .alt a .eps

def plus (a : Re) : Re := .seq a (.star a)

def spaces : Re := .star (.char (· == ' '))

def anyOf : List String → Re
  | [] => .empty
  | s :: ss => .alt (word s) (anyOf ss)

/-! ## Matching -/

def nullable : Re → Bool
  | .empty => false
  | .eps => true
  | .char _ => false
  | .seq a b => a.nullable && b.nullable
  | .alt a b => a.nullable || b.nullable
  | .star _ => true

/-- `seq`, with the trivial left parts removed. -/
def mkSeq : Re → Re → Re
  | .empty, _ => .empty
  | .eps, b => b
  | a, b => .seq a b

/-- `alt`, with an empty side removed. -/
def mkAlt : Re → Re → Re
  | .empty, b => b
  | a, .empty => a
  | a, b => .alt a b

def deriv (c : Char) : Re → Re
  | .empty => .empty
  | .eps => .empty
  | .char p => if p c then .eps else .empty
  | .seq a b =>
    if a.nullable then mkAlt (mkSeq (a.deriv c) b) (b.deriv c) else mkSeq (a.deriv c) b
  | .alt a b => mkAlt (a.deriv c) (b.deriv c)
  | .star a => mkSeq (a.deriv c) (.star a)

def accepts : Re → List Char → Bool
  | r, [] => r.nullable
  | r, c :: cs => (r.deriv c).accepts cs

/-- The text of the middle part, when the three parts in a row match the whole text. -/
def capture (before group after : Re) (cs : List Char) : Option (List Char) :=
  (List.range (cs.length + 1)).reverse.findSome? fun i =>
    if before.accepts (cs.take i) then
      (List.range (cs.length - i + 1)).reverse.findSome? fun k =>
        let text := (cs.drop i).take k
        if group.accepts text && after.accepts (cs.drop (i + k)) then some text else none
    else
      none

/-! ## The language of an expression -/

/-- The texts an expression stands for. -/
def language : Re → Language Char
  | .empty => 0
  | .eps => 1
  | .char p => {cs | ∃ c, p c = true ∧ cs = [c]}
  | .seq a b => a.language * b.language
  | .alt a b => a.language + b.language
  | .star a => a.language∗

variable {a r : Re} {c d : Char} {cs : List Char} {p : Char → Bool}

@[simp] theorem mem_char : cs ∈ (Re.char p).language ↔ ∃ c, p c = true ∧ cs = [c] :=
  Iff.rfl

@[simp] theorem mem_seq {b : Re} :
    cs ∈ (Re.seq a b).language ↔ ∃ s ∈ a.language, ∃ t ∈ b.language, s ++ t = cs :=
  Language.mem_mul

@[simp] theorem mem_alt {b : Re} : cs ∈ (Re.alt a b).language ↔ cs ∈ a.language ∨ cs ∈ b.language :=
  Iff.rfl

@[simp] theorem mem_eps : cs ∈ Re.eps.language ↔ cs = [] :=
  Iff.rfl

@[simp] theorem notMem_empty : cs ∉ Re.empty.language :=
  Language.notMem_zero cs

theorem nullable_iff (r : Re) : r.nullable = true ↔ [] ∈ r.language := by
  induction r with
  | empty | eps | char p => simp [nullable]
  | seq a b iha ihb | alt a b iha ihb => simp [nullable, iha, ihb]
  | star a _ => simp [nullable, language, Language.nil_mem_kstar]

theorem language_mkSeq (a b : Re) : (mkSeq a b).language = a.language * b.language := by
  unfold mkSeq
  split
  · exact (zero_mul _).symm
  · exact (one_mul _).symm
  · rfl

theorem language_mkAlt (a b : Re) : (mkAlt a b).language = a.language + b.language := by
  unfold mkAlt
  split
  · exact (zero_add _).symm
  · exact (add_zero _).symm
  · rfl

theorem cons_mem_mul {l m : Language Char} : c :: cs ∈ l * m ↔
      (∃ s t, c :: s ∈ l ∧ t ∈ m ∧ s ++ t = cs) ∨ [] ∈ l ∧ c :: cs ∈ m := by
  rw [Language.mem_mul]
  constructor
  · rintro ⟨s, hs, t, ht, hcs⟩
    cases s with
    | nil =>
      subst hcs
      exact .inr ⟨hs, ht⟩
    | cons d s =>
      cases hcs
      exact .inl ⟨s, t, hs, ht, rfl⟩
  · rintro (⟨s, t, hs, ht, rfl⟩ | ⟨hnil, hcs⟩)
    · exact ⟨c :: s, hs, t, ht, rfl⟩
    · exact ⟨[], hnil, c :: cs, hcs, rfl⟩

theorem cons_mem_kstar {l : Language Char} : c :: cs ∈ l∗ ↔ ∃ s t, c :: s ∈ l ∧ t ∈ l∗ ∧ s ++ t = cs := by
  constructor
  · rw [Language.mem_kstar_iff_exists_nonempty]
    rintro ⟨parts, hcs, hparts⟩
    cases parts with
    | nil => cases hcs
    | cons part parts =>
      obtain ⟨hpart, hne⟩ := hparts part List.mem_cons_self
      obtain ⟨d, s, rfl⟩ := List.exists_cons_of_ne_nil hne
      cases hcs
      refine ⟨s, parts.flatten, hpart, ?_, rfl⟩
      exact Language.join_mem_kstar fun t ht => (hparts t (List.mem_cons_of_mem _ ht)).1
  · rintro ⟨s, t, hs, ht, rfl⟩
    obtain ⟨parts, rfl, hparts⟩ := Language.mem_kstar.mp ht
    refine Language.mem_kstar.mpr ⟨(c :: s) :: parts, rfl, ?_⟩
    intro part hpart
    rcases List.mem_cons.mp hpart with rfl | hpart
    · exact hs
    · exact hparts part hpart

theorem mem_deriv : cs ∈ (r.deriv c).language ↔ c :: cs ∈ r.language := by
  induction r generalizing cs with
  | empty => simp [deriv]
  | eps => simp [deriv]
  | char p =>
    by_cases hp : p c = true
    · simp [deriv, hp]
    · simp [deriv, hp]
  -- The character belongs to the first part, or to the second one if the first may be empty.
  | seq a b iha ihb =>
    have hleft : cs ∈ (mkSeq (a.deriv c) b).language ↔
        ∃ s t, c :: s ∈ a.language ∧ t ∈ b.language ∧ s ++ t = cs := by
      rw [language_mkSeq, Language.mem_mul]
      simp only [iha]
      grind
    have hsplit : c :: cs ∈ (Re.seq a b).language ↔ _ := cons_mem_mul
    rw [hsplit, ← nullable_iff, ← hleft, ← ihb, deriv]
    split
    · rename_i hnull
      rw [language_mkAlt, Language.mem_add]
      simp [hnull]
    · rename_i hnull
      simp [hnull]
  | alt a b iha ihb =>
    rw [deriv, language_mkAlt, Language.mem_add, iha, ihb, mem_alt]
  | star a iha =>
    have hsplit : c :: cs ∈ (Re.star a).language ↔ _ := cons_mem_kstar
    rw [hsplit, deriv, language_mkSeq, Language.mem_mul]
    simp only [iha]
    constructor
    · rintro ⟨s, hs, t, ht, hcs⟩
      exact ⟨s, t, hs, ht, hcs⟩
    · rintro ⟨s, t, hs, ht, hcs⟩
      exact ⟨s, hs, t, ht, hcs⟩

theorem accepts_iff : r.accepts cs = true ↔ cs ∈ r.language := by
  induction cs generalizing r with
  | nil => exact nullable_iff r
  | cons c cs ih => exact (ih (r := r.deriv c)).trans mem_deriv

/-! ## Languages of the building blocks -/

theorem mem_star_char : cs ∈ (Re.star (.char p)).language ↔ ∀ c ∈ cs, p c = true := by
  induction cs with
  | nil => exact ⟨fun _ => by simp, fun _ => Language.nil_mem_kstar _⟩
  | cons c cs ih =>
    have hsplit : c :: cs ∈ (Re.star (.char p)).language ↔ _ := cons_mem_kstar
    have htail : cs ∈ (Re.char p).language∗ ↔ ∀ d ∈ cs, p d = true := ih
    rw [hsplit, List.forall_mem_cons]
    constructor
    · rintro ⟨s, t, ⟨d, hd, hs⟩, ht, rfl⟩
      cases hs
      exact ⟨hd, htail.mp ht⟩
    · rintro ⟨hc, hcs⟩
      exact ⟨[], cs, ⟨c, hc, rfl⟩, htail.mpr hcs, rfl⟩

theorem mem_plus_char : cs ∈ (Re.plus (.char p)).language ↔ cs ≠ [] ∧ ∀ c ∈ cs, p c = true := by
  unfold plus
  cases cs with
  | nil => simp
  | cons c cs =>
    rw [mem_seq]
    simp only [mem_char, mem_star_char]
    constructor
    · rintro ⟨s, ⟨d, hd, rfl⟩, t, ht, hcs⟩
      cases hcs
      exact ⟨List.cons_ne_nil _ _, by simpa [hd] using ht⟩
    · rintro ⟨-, hall⟩
      rw [List.forall_mem_cons] at hall
      exact ⟨[c], ⟨c, hall.1, rfl⟩, cs, hall.2, rfl⟩

theorem mem_opt : cs ∈ (opt a).language ↔ cs ∈ a.language ∨ cs = [] :=
  mem_alt

theorem mem_word {s : String} :
    cs ∈ (word s).language ↔ List.Forall₂ (fun c d => foldEq c d = true) s.toList cs := by
  unfold word
  induction s.toList generalizing cs with
  | nil => simp
  | cons c w ih =>
    simp only [List.foldr_cons, mem_seq, mem_char, ih, List.forall₂_cons_left_iff]
    constructor
    · rintro ⟨s, ⟨d, hd, rfl⟩, t, ht, rfl⟩
      exact ⟨d, t, hd, ht, rfl⟩
    · rintro ⟨d, t, hd, ht, rfl⟩
      exact ⟨[d], ⟨d, hd, rfl⟩, t, ht, rfl⟩

/-! ## Case folding -/

/-- The lower-case ASCII letter a character folds to, if there is one. -/
def fold (d : Char) : Char :=
  if d = Char.ofNat 0x17F then 's' else if d = Char.ofNat 0x212A then 'k' else d.toLower

theorem toLower_lt (h : c.toNat < 128) : c.toLower.toNat < 128 := by
  have hall : ∀ n < 128, (Char.ofNat n).toLower.toNat < 128 := by decide
  have hc := hall c.toNat h
  rwa [Char.ofNat_toNat] at hc

theorem fold_of_foldEq (hc : c.toNat < 128) (h : foldEq c d = true) : fold d = c.toLower := by
  have hlow := toLower_lt hc
  simp only [foldEq, Bool.or_eq_true, Bool.and_eq_true, beq_iff_eq] at h
  rcases h with (h | ⟨hs, rfl⟩) | ⟨hk, rfl⟩
  · -- Neither of the two special characters is the lower case of an ASCII letter.
    have hlong : d ≠ Char.ofNat 0x17F := by
      rintro rfl
      rw [h] at hlow
      exact absurd hlow (by decide)
    have hkelvin : d ≠ Char.ofNat 0x212A := by
      rintro rfl
      rw [h] at hlow
      exact absurd hlow (by decide)
    rw [fold, if_neg hlong, if_neg hkelvin, h]
  · rw [hs]
    decide
  · rw [hk]
    decide

theorem toNat_lt_of_isDigit (h : d.isDigit = true) : d.toNat < 128 := by
  simp only [Char.isDigit, Bool.and_eq_true, decide_eq_true_eq, UInt32.le_iff_toNat_le] at h
  have hhigh : d.toNat ≤ 57 := h.2
  omega

theorem case_of_isDigit (h : d.isDigit = true) : fold d = d ∧ d.toUpper = d := by
  have hall : ∀ n < 128, (Char.ofNat n).isDigit = true →
      fold (Char.ofNat n) = Char.ofNat n ∧ (Char.ofNat n).toUpper = Char.ofNat n := by
    decide
  have hd := hall d.toNat (toNat_lt_of_isDigit h)
  rw [Char.ofNat_toNat] at hd
  exact hd h

theorem toNat_lt_of_toLower_lt (h : c.toLower.toNat < 128) : c.toNat < 128 := by
  unfold Char.toLower at h
  split at h
  · rename_i hupper
    have hhigh : c.toNat ≤ 90 := hupper.2
    omega
  · exact h

theorem fold_eq_blank_iff : fold d = ' ' ↔ d = ' ' := by
  constructor
  · intro h
    unfold fold at h
    split at h
    · cases h
    split at h
    · cases h
    -- An ASCII character with another lower case is a letter, and so is its lower case.
    have hlt : d.toNat < 128 := toNat_lt_of_toLower_lt (by rw [h]; decide)
    have hall : ∀ n < 128, (Char.ofNat n).toLower = ' ' → Char.ofNat n = ' ' := by decide
    have hd := hall d.toNat hlt
    rw [Char.ofNat_toNat] at hd
    exact hd h
  · rintro rfl
    decide

theorem toNat_pos_of_toLower_pos (h : 0 < c.toLower.toNat) : 0 < c.toNat := by
  rcases Nat.eq_zero_or_pos c.toNat with hzero | hc
  · have hnul : c = Char.ofNat 0 := by rw [← hzero, Char.ofNat_toNat]
    rw [hnul] at h
    exact absurd h (by decide)
  · exact hc

theorem ascii_of_fold (h : fold d = c) (hc : 0 < c.toNat ∧ c.toNat < 128)
    (hne : c ≠ 's' ∧ c ≠ 'k') : 0 < d.toNat ∧ d.toNat < 128 := by
  unfold fold at h
  split at h
  · exact absurd h.symm hne.1
  split at h
  · exact absurd h.symm hne.2
  subst h
  exact ⟨toNat_pos_of_toLower_pos hc.1, toNat_lt_of_toLower_lt hc.2⟩

theorem fold_eq_s (h : fold d = 's') : (0 < d.toNat ∧ d.toNat < 128) ∨ d = Char.ofNat 0x17F := by
  unfold fold at h
  split at h
  · exact .inr (by assumption)
  split at h
  · cases h
  · refine .inl ⟨toNat_pos_of_toLower_pos ?_, toNat_lt_of_toLower_lt ?_⟩
    all_goals
      rw [h]
      decide

theorem map_fold_of_forall₂ {w : List Char} (hw : ∀ c ∈ w, c.toNat < 128)
    (h : List.Forall₂ (fun c d => foldEq c d = true) w cs) : cs.map fold = w.map Char.toLower := by
  induction h with
  | nil => rfl
  | cons hcd _ ih =>
    rw [List.forall_mem_cons] at hw
    rw [List.map_cons, List.map_cons, fold_of_foldEq hw.1 hcd, ih hw.2]

theorem toUpper_toLower (h : d.toNat < 128) : d.toLower.toUpper = d.toUpper := by
  have hall : ∀ n < 128, (Char.ofNat n).toLower.toUpper = (Char.ofNat n).toUpper := by decide
  have hd := hall d.toNat h
  rwa [Char.ofNat_toNat] at hd

theorem mem_word_iff {s : String} (hs : ∀ c ∈ s.toList, c.toLower ≠ 's' ∧ c.toLower ≠ 'k') : cs ∈ (word s).language ↔ cs.map Char.toLower = s.toList.map Char.toLower := by
  have hletter : ∀ c ∈ s.toList, ∀ d, foldEq c d = true ↔ c.toLower = d.toLower := by
    intro c hc d
    have hne := hs c hc
    simp [foldEq, hne.1, hne.2]
  rw [mem_word, eq_comm, ← List.forall₂_eq_eq_eq, List.forall₂_map_left_iff, List.forall₂_map_right_iff]
  clear hs
  generalize s.toList = w at hletter ⊢
  induction w generalizing cs with
  | nil => cases cs <;> simp
  | cons c w ih =>
    have hw : ∀ c ∈ w, ∀ d, foldEq c d = true ↔ c.toLower = d.toLower := fun c hc =>
      hletter c (List.mem_cons_of_mem _ hc)
    cases cs with
    | nil => simp
    | cons d cs =>
      rw [List.forall₂_cons, List.forall₂_cons]
      exact and_congr (hletter c List.mem_cons_self d) (ih hw)

theorem mem_anyOf {ss : List String} : cs ∈ (anyOf ss).language ↔ ∃ s ∈ ss, cs ∈ (word s).language := by
  induction ss with
  | nil => simp [anyOf]
  | cons s ss ih => rw [anyOf, mem_alt, ih, List.exists_mem_cons_iff]

theorem mem_anyOf_iff {ss : List String}
    (hss : ∀ s ∈ ss, ∀ c ∈ s.toList, c.toLower ≠ 's' ∧ c.toLower ≠ 'k') :
    cs ∈ (anyOf ss).language ↔ ∃ s ∈ ss, cs.map Char.toLower = s.toList.map Char.toLower := by
  rw [mem_anyOf]
  exact exists_congr fun s => and_congr_right fun hs => mem_word_iff (hss s hs)

/-! ## Characters -/

/-- Does the character occur in a text of the expression? -/
def reads (ch : Char) : Re → Bool
  | .empty => false
  | .eps => false
  | .char p => p ch
  | .seq a b => a.reads ch || b.reads ch
  | .alt a b => a.reads ch || b.reads ch
  | .star a => a.reads ch

theorem reads_of_mem (hcs : cs ∈ r.language) {ch : Char} (hch : ch ∈ cs) : r.reads ch = true := by
  induction r generalizing cs with
  | empty => exact absurd hcs notMem_empty
  | eps =>
    rw [mem_eps.mp hcs] at hch
    cases hch
  | char p =>
    obtain ⟨d, hd, rfl⟩ := hcs
    rw [List.mem_singleton.mp hch]
    exact hd
  | seq a b iha ihb =>
    obtain ⟨s, hs, t, ht, rfl⟩ := mem_seq.mp hcs
    rw [reads, Bool.or_eq_true]
    exact (List.mem_append.mp hch).imp (iha hs) (ihb ht)
  | alt a b iha ihb =>
    rw [reads, Bool.or_eq_true]
    exact (mem_alt.mp hcs).imp (iha · hch) (ihb · hch)
  | star a ih =>
    obtain ⟨parts, rfl, hparts⟩ := Language.mem_kstar.mp hcs
    obtain ⟨part, hpart, hin⟩ := List.mem_flatten.mp hch
    exact ih (hparts part hpart) hin

/-! ## Captures -/

theorem capture_spec {before group after : Re} {text : List Char}
    (h : capture before group after cs = some text) :
    ∃ s t, cs = s ++ text ++ t ∧ s ∈ before.language ∧ text ∈ group.language ∧
      t ∈ after.language := by
  obtain ⟨i, -, hi⟩ := List.exists_of_findSome?_eq_some h
  split at hi
  · rename_i hbefore
    obtain ⟨k, -, hk⟩ := List.exists_of_findSome?_eq_some hi
    dsimp only at hk
    split at hk
    · rename_i hmatch
      cases hk
      rw [Bool.and_eq_true, accepts_iff, accepts_iff] at hmatch
      refine ⟨cs.take i, cs.drop (i + k), ?_, accepts_iff.mp hbefore, hmatch.1, hmatch.2⟩
      rw [List.append_assoc, ← List.drop_drop, List.take_append_drop, List.take_append_drop]
    · cases hk
  · cases hi

theorem capture_isSome {before group after : Re} {s text t : List Char}
    (hs : s ∈ before.language) (htext : text ∈ group.language) (ht : t ∈ after.language) :
    (capture before group after (s ++ text ++ t)).isSome = true := by
  have hbefore : s.length ∈ (List.range ((s ++ text ++ t).length + 1)).reverse := by
    rw [List.mem_reverse, List.mem_range, List.length_append, List.length_append]
    omega
  have hgroup : text.length ∈ (List.range ((s ++ text ++ t).length - s.length + 1)).reverse := by
    rw [List.mem_reverse, List.mem_range, List.length_append, List.length_append]
    omega
  unfold capture
  rw [List.findSome?_isSome_iff]
  refine ⟨s.length, hbefore, ?_⟩
  rw [if_pos (by simpa [List.append_assoc] using accepts_iff.mpr hs), List.findSome?_isSome_iff]
  refine ⟨text.length, hgroup, ?_⟩
  simp [accepts_iff.mpr htext, accepts_iff.mpr ht]

end Re

end PgCat.Lib
