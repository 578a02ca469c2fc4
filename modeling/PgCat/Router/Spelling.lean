import PgCat.Router.Command

/-!
# Spelling — how the custom commands are written

No text matches the expressions of two custom commands, since the words in front of the value already
tell them apart, and there is one way to read a value from a text.  Blanks in front change nothing; a
text that has lost up to four of its first letters is no command at all.
-/

namespace PgCat.Router

open Lib

namespace Command

/-! ## At most one command matches -/

theorem words_ascii (c : Command) : ∀ ch ∈ c.words.toList, ch.toNat < 128 := by
  have hall : c.words.toList.all (fun ch => ch.toNat < 128) = true := by
    cases c <;> rfl
  simpa [List.all_eq_true] using hall

def letters (c : Command) : List Char :=
  c.words.toList.map Char.toLower

variable {bs : Bytes} {c : Command} {cs value ws : List Char} {j : Nat} {text : String}

theorem letters_comparable {d : Command} (h : c.letters <+: d.letters) : c = d := by
  revert h
  cases c <;> cases d <;> decide

theorem letters_range (c : Command) : ∀ ch ∈ c.letters, 0 < ch.toNat ∧ ch.toNat < 128 := by
  have hall : c.letters.all (fun ch => 0 < ch.toNat && ch.toNat < 128) = true := by
    cases c <;> rfl
  simpa [List.all_eq_true] using hall

theorem map_fold (h : cs ∈ (Re.word c.words).language) : cs.map Re.fold = c.letters :=
  Re.map_fold_of_forall₂ c.words_ascii (Re.mem_word.mp h)

theorem front_words {front : List Char} (h : front ∈ c.before.language) :
    ∃ n ws q, front = List.replicate n ' ' ++ (ws ++ q) ∧ ws.map Re.fold = c.letters ∧
      q ∈ c.quote.language := by
  obtain ⟨blanks, hblanks, rest, hrest, rfl⟩ := Re.mem_seq.mp h
  obtain ⟨ws, hws, q, hq, rfl⟩ := Re.mem_seq.mp hrest
  have hreplicate : blanks = List.replicate blanks.length ' ' := by
    refine List.eq_replicate_of_mem ?_
    intro ch hch
    simpa using Re.mem_star_char.mp hblanks ch hch
  exact ⟨blanks.length, ws, q, by rw [← hreplicate], map_fold hws, hq⟩

theorem dropWhile_words (hfold : ws.map Re.fold = c.letters) (n : Nat) (back : List Char) :
    (List.replicate n ' ' ++ (ws ++ back)).dropWhile (· == ' ') = ws ++ back := by
  have hblanks : ∀ ch ∈ List.replicate n ' ', (ch == ' ') = true := by
    intro ch hch
    rw [List.eq_of_mem_replicate hch]
    rfl
  rw [List.dropWhile_append_of_pos hblanks]
  cases ws with
  | nil => cases c <;> cases hfold
  | cons w tail =>
    have hw : ¬(w == ' ') = true := by
      intro hblank
      have hw : w = ' ' := by simpa using hblank
      subst hw
      cases c <;> cases hfold
    exact List.dropWhile_cons_of_neg (p := (· == ' ')) hw

theorem letters_of_accepts (h : c.accepts text = true) :
    c.letters <+: (text.toList.dropWhile (· == ' ')).map Re.fold := by
  obtain ⟨front, hfront, back, -, htext⟩ := Re.mem_seq.mp (Re.accepts_iff.mp h)
  obtain ⟨n, ws, q, rfl, hfold, -⟩ := front_words hfront
  rw [← htext, List.append_assoc, List.append_assoc, dropWhile_words hfold, List.map_append, hfold]
  exact List.prefix_append _ _

theorem eq_of_accepts {d : Command} (hc : c.accepts text = true) (hd : d.accepts text = true) : c = d := by
  rcases List.prefix_or_prefix_of_prefix (letters_of_accepts hc) (letters_of_accepts hd) with h | h
  · exact letters_comparable h
  · exact (letters_comparable h).symm

theorem filter_accepts (h : c.accepts text = true) : all.filter (·.accepts text) = [c] := by
  have hsame : ∀ d ∈ all, d.accepts text = decide (d = c) := by
    intro d _
    by_cases hd : d = c
    · subst hd
      simpa using h
    · have hno : d.accepts text ≠ true := fun hacc => hd (eq_of_accepts hacc h)
      simpa [hd] using hno
  rw [List.filter_congr hsame]
  cases c <;> decide

/-! ## The captured value -/

/-- The text consists of what the command wants in front of the value, the value and what may follow. -/
def Splits (c : Command) (cs value : List Char) : Prop :=
  ∃ front back, cs = front ++ value ++ back ∧ front ∈ c.before.language ∧ value ∈ c.group.language ∧
    back ∈ c.after.language

theorem accepts_iff_splits : c.accepts text = true ↔ ∃ value, c.Splits text.toList value := by
  unfold accepts
  rw [Re.accepts_iff, Re.mem_seq]
  constructor
  · rintro ⟨front, hfront, rest, hrest, htext⟩
    obtain ⟨value, hvalue, back, hback, rfl⟩ := Re.mem_seq.mp hrest
    exact ⟨value, front, back, by rw [← htext, List.append_assoc], hfront, hvalue, hback⟩
  · rintro ⟨value, front, back, htext, hfront, hvalue, hback⟩
    refine ⟨front, hfront, value ++ back, Re.mem_seq.mpr ⟨value, hvalue, back, hback, rfl⟩, ?_⟩
    rw [htext, List.append_assoc]

/-- Blanks, quotes and semicolons stand around a value and never in it. -/
def isMark (ch : Char) : Bool :=
  ch == ' ' || ch == '\'' || ch == ';'

theorem filter_group (h : value ∈ c.group.language) : value.filter (!isMark ·) = value := by
  rw [List.filter_eq_self]
  intro ch hch
  have hreads := Re.reads_of_mem h hch
  rw [Bool.not_eq_true', Bool.eq_false_iff]
  intro hmark
  simp only [isMark, Bool.or_eq_true, beq_iff_eq] at hmark
  rcases hmark with (rfl | rfl) | rfl
  all_goals cases c <;> exact absurd hreads (by decide)

theorem filter_marks {r : Re} {p : Char → Bool} (hp : ∀ ch, p ch = true → isMark ch = true)
    (hr : r = .eps ∨ r = .char p ∨ r = .opt (.char p) ∨ r = .star (.char p))
    (h : cs ∈ r.language) : cs.filter (!isMark ·) = [] := by
  rw [List.filter_eq_nil_iff]
  intro ch hch
  have hreads := Re.reads_of_mem h hch
  have hpch : p ch = true := by
    rcases hr with rfl | rfl | rfl | rfl
    · cases hreads
    · exact hreads
    · simpa [Re.opt, Re.reads] using hreads
    · exact hreads
  simp [hp ch hpch]

theorem filter_quote {q : List Char} (h : q ∈ c.quote.language) : q.filter (!isMark ·) = [] := by
  have hp : ∀ ch : Char, (ch == '\'') = true → isMark ch = true := by
    intro ch hch
    simp [isMark, hch]
  refine filter_marks hp ?_ h
  cases c with
  | setServerRole => exact .inr (.inl rfl)
  | showShard | showServerRole | showPrimaryReads => exact .inl rfl
  | setShardingKey | setShard | setPrimaryReads => exact .inr (.inr (.inl rfl))

theorem filter_after {back : List Char} (h : back ∈ c.after.language) : back.filter (!isMark ·) = [] := by
  obtain ⟨q, hq, s, hs, rfl⟩ := Re.mem_seq.mp h
  obtain ⟨blanks, hblanks, t, ht, rfl⟩ := Re.mem_seq.mp hs
  obtain ⟨semi, hsemi, trail, htrail, rfl⟩ := Re.mem_seq.mp ht
  have hblank : ∀ ch : Char, (ch == ' ') = true → isMark ch = true := by
    intro ch hch
    simp [isMark, hch]
  have hsemicolon : ∀ ch : Char, (ch == ';') = true → isMark ch = true := by
    intro ch hch
    simp [isMark, hch]
  rw [List.filter_append, List.filter_append, List.filter_append, filter_quote hq,
    filter_marks hblank (.inr (.inr (.inr rfl))) hblanks,
    filter_marks hsemicolon (.inr (.inr (.inl rfl))) hsemi,
    filter_marks hblank (.inr (.inr (.inr rfl))) htrail]
  rfl

theorem Splits.value_eq (h : c.Splits cs value) :
    value = ((cs.dropWhile (· == ' ')).drop c.letters.length).filter (!isMark ·) := by
  obtain ⟨front, back, rfl, hfront, hvalue, hback⟩ := h
  obtain ⟨n, ws, q, rfl, hfold, hq⟩ := front_words hfront
  have hlength : ws.length = c.letters.length := by rw [← hfold, List.length_map]
  rw [List.append_assoc, List.append_assoc, List.append_assoc, dropWhile_words hfold, ← hlength,
    List.drop_left, List.filter_append, List.filter_append, filter_quote hq, filter_group hvalue,
    filter_after hback, List.nil_append, List.append_nil]

theorem capture_eq_some_iff {value : String} :
    c.capture text = some value ↔ c.Splits text.toList value.toList := by
  constructor
  · intro h
    obtain ⟨cs, hcs, rfl⟩ := Option.map_eq_some_iff.mp h
    rw [String.toList_ofList]
    exact Re.capture_spec hcs
  · intro h
    obtain ⟨front, back, htext, hfront, hvalue, hback⟩ := h
    have hsome := Re.capture_isSome hfront hvalue hback
    rw [← htext] at hsome
    obtain ⟨cs, hcs⟩ := Option.isSome_iff_exists.mp hsome
    have hsplits : c.Splits text.toList cs := Re.capture_spec hcs
    have hsame : cs = value.toList :=
      hsplits.value_eq.trans (Splits.value_eq ⟨front, back, htext, hfront, hvalue, hback⟩).symm
    rw [capture, hcs, hsame, Option.map_some, String.ofList_toList]

theorem mem_group_setShard (h : value ∈ setShard.group.language) :
    (∃ n, parseNat value = some n) ∨ value.map Char.toLower = "any".toList := by
  rcases Re.mem_alt.mp h with hdigits | hany
  · obtain ⟨hne, hall⟩ := Re.mem_plus_char.mp hdigits
    exact .inl ⟨_, parseNat_of_digits hne hall⟩
  · exact .inr ((Re.mem_word_iff (by simp)).mp hany)

theorem toUpper_eq_any (h : value.map Char.toLower = "any".toList) :
    String.ofList (value.map Char.toUpper) = "ANY" := by
  have hascii : ∀ c ∈ value, c.toNat < 128 := by
    intro c hc
    have hlower : c.toLower ∈ "any".toList := h ▸ List.mem_map_of_mem hc
    have hall : ∀ d ∈ "any".toList, d.toNat < 128 := by simp
    exact Re.toNat_lt_of_toLower_lt (hall _ hlower)
  have hupper : value.map Char.toUpper = (value.map Char.toLower).map Char.toUpper := by
    rw [List.map_map]
    exact List.map_congr_left fun c hc => (Re.toUpper_toLower (hascii c hc)).symm
  rw [hupper, h]
  rfl

theorem toUpper_ne_any {n : Nat} (h : parseNat value = some n) :
    String.ofList (value.map Char.toUpper) ≠ "ANY" := by
  intro hany
  have hmap : value.map Char.toUpper = "ANY".toList := by
    rw [← hany, String.toList_ofList]
  obtain ⟨-, hdigits⟩ := digits_of_parseNat h
  cases value with
  | nil => cases hmap
  | cons c cs =>
    have hdigit := hdigits c List.mem_cons_self
    have hupper : c.toUpper = 'A' := (List.cons.inj hmap).1
    rw [(Re.case_of_isDigit hdigit).2] at hupper
    subst hupper
    cases hdigit

def serverRoles : List String :=
  ["primary", "replica", "any", "auto", "default"]

theorem mem_group_setServerRole (h : value ∈ setServerRole.group.language) :
    ∃ w ∈ serverRoles, value.map Char.toLower = w.toList := by
  have hlower : ∀ s ∈ ["PRIMARY", "REPLICA", "ANY", "AUTO", "DEFAULT"],
      String.ofList (s.toList.map Char.toLower) ∈ serverRoles := by decide
  obtain ⟨s, hs, hvalue⟩ := (Re.mem_anyOf_iff (by simp)).mp h
  exact ⟨_, hlower s hs, by rw [hvalue, String.toList_ofList]⟩

theorem mem_group_setPrimaryReads (h : value ∈ setPrimaryReads.group.language) :
    ∃ w ∈ ["on", "off", "default"], value.map Char.toLower = w.toList := by
  have hlower : ∀ s ∈ ["on", "off", "default"], s.toList.map Char.toLower = s.toList := by decide
  obtain ⟨s, hs, hvalue⟩ := (Re.mem_anyOf_iff (by simp)).mp h
  exact ⟨s, hs, hvalue.trans (hlower s hs)⟩

/-! ## Blanks in front -/

theorem splits_blank : c.Splits (' ' :: cs) value ↔ c.Splits cs value := by
  constructor
  · rintro ⟨front, back, htext, hfront, hvalue, hback⟩
    obtain ⟨blanks, hblanks, rest, hrest, rfl⟩ := Re.mem_seq.mp hfront
    cases blanks with
    | nil =>
      -- Then the words would start with a blank.
      obtain ⟨ws, hws, q, -, rfl⟩ := Re.mem_seq.mp hrest
      have hfold := map_fold hws
      cases ws with
      | nil => cases c <;> cases hfold
      | cons w tail =>
        obtain ⟨rfl, -⟩ := List.cons.inj htext
        cases c <;> cases hfold
    | cons b blanks =>
      obtain ⟨rfl, htail⟩ := List.cons.inj htext
      refine ⟨blanks ++ rest, back, htail, Re.mem_seq.mpr ⟨blanks, ?_, rest, hrest, rfl⟩, hvalue, hback⟩
      exact Re.mem_star_char.mpr fun ch hch => Re.mem_star_char.mp hblanks ch (List.mem_cons_of_mem _ hch)
  · rintro ⟨front, back, rfl, hfront, hvalue, hback⟩
    obtain ⟨blanks, hblanks, rest, hrest, rfl⟩ := Re.mem_seq.mp hfront
    refine ⟨' ' :: blanks ++ rest, back, rfl, Re.mem_seq.mpr ⟨' ' :: blanks, ?_, rest, hrest, rfl⟩,
      hvalue, hback⟩
    exact Re.mem_star_char.mpr (List.forall_mem_cons.mpr ⟨rfl, Re.mem_star_char.mp hblanks⟩)

theorem accepts_blank (c : Command) (cs : List Char) :
    c.accepts (String.ofList (' ' :: cs)) = c.accepts (String.ofList cs) := by
  rw [Bool.eq_iff_iff, accepts_iff_splits, accepts_iff_splits, String.toList_ofList, String.toList_ofList]
  simp only [splits_blank]

theorem capture_blank (c : Command) (cs : List Char) :
    c.capture (String.ofList (' ' :: cs)) = c.capture (String.ofList cs) := by
  apply Option.ext
  intro value
  rw [capture_eq_some_iff, capture_eq_some_iff, String.toList_ofList, String.toList_ofList, splits_blank]

/-! ## Losing the first letters -/

theorem not_letters_of_drop (c d : Command) (hj : 1 ≤ j ∧ j ≤ 4)
    (hcs : (c.letters.drop j).dropWhile (· == ' ') <+: cs) : ¬d.letters <+: cs := by
  intro hd
  rcases List.prefix_or_prefix_of_prefix hcs hd with h | h
  all_goals
    revert h
    obtain rfl | rfl | rfl | rfl : j = 1 ∨ j = 2 ∨ j = 3 ∨ j = 4 := by omega
    all_goals cases c <;> cases d <;> decide

theorem not_accepts_of_drop (hfold : ws.map Re.fold = c.letters)
    (d : Command) (hj : 1 ≤ j ∧ j ≤ 4) (rest : List Char) :
    d.accepts (String.ofList (ws.drop j ++ rest)) = false := by
  rw [Bool.eq_false_iff]
  intro hacc
  have hletters := letters_of_accepts hacc
  -- Dropping the blanks commutes with folding.
  have hblank : (fun ch : Char => ch == ' ') ∘ Re.fold = (· == ' ') := by
    funext ch
    rw [Bool.eq_iff_iff, Function.comp_apply, beq_iff_eq, beq_iff_eq, Re.fold_eq_blank_iff]
  have hmap : ((ws.drop j ++ rest).dropWhile (· == ' ')).map Re.fold =
      (c.letters.drop j ++ rest.map Re.fold).dropWhile (· == ' ') := by
    rw [← hfold, ← List.map_drop, ← List.map_append, List.dropWhile_map, hblank]
  have hleft : (c.letters.drop j).dropWhile (· == ' ') ≠ [] := by
    obtain rfl | rfl | rfl | rfl : j = 1 ∨ j = 2 ∨ j = 3 ∨ j = 4 := by omega
    all_goals cases c <;> decide
  have hsplit : (c.letters.drop j ++ rest.map Re.fold).dropWhile (· == ' ') =
      (c.letters.drop j).dropWhile (· == ' ') ++ rest.map Re.fold := by
    rw [List.dropWhile_append, if_neg (by simpa using hleft)]
  rw [String.toList_ofList, hmap, hsplit] at hletters
  exact not_letters_of_drop c d hj (List.prefix_append _ _) hletters

theorem letters_start (c : Command) :
    ∃ x y z rest, c.letters = 's' :: x :: y :: z :: rest ∧
      ∀ ch ∈ [x, y, z], (0 < ch.toNat ∧ ch.toNat < 128) ∧ ch ≠ 's' ∧ ch ≠ 'k' := by
  have hall : ((c.letters.drop 1).take 3).all
      (fun ch => (0 < ch.toNat && ch.toNat < 128) && (ch != 's' && ch != 'k')) = true := by
    cases c <;> rfl
  simp only [List.all_eq_true, Bool.and_eq_true, decide_eq_true_eq, bne_iff_ne] at hall
  cases c <;> exact ⟨_, _, _, _, rfl, hall⟩

/-- Without its first bytes, at most four, the text has lost letters, or starts with the remains of a
letter of two bytes. -/
theorem drop_bytes {rest : List Char} (hfold : ws.map Re.fold = c.letters)
    (hbs : (fromUtf8Lossy bs).toList = ws ++ rest) (hj : 1 ≤ j ∧ j ≤ 4) :
    (∃ i, (1 ≤ i ∧ i ≤ 4) ∧ (fromUtf8Lossy (bs.drop j)).toList = ws.drop i ++ rest) ∨
      ∃ cs, (fromUtf8Lossy (bs.drop j)).toList = replacement :: cs := by
  obtain ⟨x, y, z, more, hletters, hascii⟩ := c.letters_start
  rw [hletters] at hfold
  match ws with
  | [] | [_] | [_, _] | [_, _, _] => simp at hfold
  | s :: a :: b :: d :: ws =>
    simp only [List.map_cons, List.cons.injEq] at hfold
    obtain ⟨hs, ha, hb, hd, -⟩ := hfold
    simp only [List.mem_cons, List.not_mem_nil, or_false, forall_eq_or_imp, forall_eq] at hascii
    obtain ⟨hx, hy, hz⟩ := hascii
    have ha' := Re.ascii_of_fold ha hx.1 hx.2
    have hb' := Re.ascii_of_fold hb hy.1 hy.2
    have hd' := Re.ascii_of_fold hd hz.1 hz.2
    rcases Re.fold_eq_s hs with hs' | rfl
    · -- Every letter is a byte.
      obtain ⟨bs₁, rfl, h₁⟩ := bytes_of_ascii hs' hbs
      obtain ⟨bs₂, rfl, h₂⟩ := bytes_of_ascii ha' h₁
      obtain ⟨bs₃, rfl, h₃⟩ := bytes_of_ascii hb' h₂
      obtain ⟨bs₄, rfl, h₄⟩ := bytes_of_ascii hd' h₃
      refine .inl ⟨j, hj, ?_⟩
      obtain rfl | rfl | rfl | rfl : j = 1 ∨ j = 2 ∨ j = 3 ∨ j = 4 := by omega
      · exact h₁
      · exact h₂
      · exact h₃
      · exact h₄
    · obtain ⟨b0, b1, bs₁, rfl, hb1, h₁⟩ := bytes_of_two (by decide) hbs
      obtain ⟨bs₂, rfl, h₂⟩ := bytes_of_ascii ha' h₁
      obtain ⟨bs₃, rfl, h₃⟩ := bytes_of_ascii hb' h₂
      obtain rfl | rfl | rfl | rfl : j = 1 ∨ j = 2 ∨ j = 3 ∨ j = 4 := by omega
      · exact .inr ⟨_, fromUtf8Lossy_continuation hb1 _⟩
      · exact .inl ⟨1, by decide, h₁⟩
      · exact .inl ⟨2, by decide, h₂⟩
      · exact .inl ⟨3, by decide, h₃⟩

theorem bytes_of_blanks : ∀ {n : Nat} {bs : Bytes}, (fromUtf8Lossy bs).toList = List.replicate n ' ' ++ cs →
      ∃ rest, bs = List.replicate n 0x20 ++ rest ∧ (fromUtf8Lossy rest).toList = cs := by
  intro n
  induction n with
  | zero =>
    intro bs h
    exact ⟨bs, rfl, h⟩
  | succ n ih =>
    intro bs h
    obtain ⟨bs₁, rfl, h₁⟩ := bytes_of_ascii (by decide) h
    obtain ⟨rest, rfl, hrest⟩ := ih h₁
    exact ⟨rest, rfl, hrest⟩

/-- A command that has lost its first four bytes is none, unless they were blanks. -/
theorem not_accepts_of_lost (hc : c.accepts (fromUtf8Lossy bs) = true)
    (hblanks : bs.take 4 ≠ List.replicate 4 0x20) (d : Command) :
    d.accepts (fromUtf8Lossy (bs.drop 4)) = false := by
  obtain ⟨value, front, back, htext, hfront, -⟩ := accepts_iff_splits.mp hc
  obtain ⟨n, ws, q, rfl, hfold, -⟩ := front_words hfront
  rw [List.append_assoc, List.append_assoc, List.append_assoc] at htext
  obtain ⟨rest, rfl, hrest⟩ := bytes_of_blanks htext
  have hn : n < 4 := by
    by_contra hn
    refine hblanks ?_
    rw [List.take_append_of_le_length (by rw [List.length_replicate]; omega), List.take_replicate,
      Nat.min_eq_left (by omega)]
  have hdrop : (List.replicate n 0x20 ++ rest).drop 4 = rest.drop (4 - n) := by
    rw [List.drop_append, List.drop_eq_nil_of_le (by rw [List.length_replicate]; omega), List.nil_append,
      List.length_replicate]
  rw [hdrop]
  rcases drop_bytes hfold hrest (by omega : 1 ≤ 4 - n ∧ 4 - n ≤ 4) with ⟨i, hi, hlost⟩ | ⟨cs, hlost⟩
  · rw [← @String.ofList_toList (fromUtf8Lossy (rest.drop (4 - n))), hlost]
    exact not_accepts_of_drop hfold d hi _
  · rw [Bool.eq_false_iff]
    intro hacc
    have hletters := letters_of_accepts hacc
    rw [hlost, List.dropWhile_cons_of_neg (p := (· == ' ')) (by decide)] at hletters
    obtain ⟨x, y, z, more, hstart, -⟩ := d.letters_start
    rw [hstart, List.map_cons, List.cons_prefix_cons] at hletters
    exact absurd hletters.1 (by decide)

theorem accepts_length (hc : c.accepts (fromUtf8Lossy bs) = true) : 4 ≤ bs.length := by
  have hletters := (letters_of_accepts hc).length_le
  have hlong : 4 ≤ c.letters.length := by cases c <;> decide
  have hdrop := (@List.dropWhile_sublist _ (fromUtf8Lossy bs).toList (· == ' ')).length_le
  have hbytes := length_fromUtf8Lossy_le bs
  rw [List.length_map] at hletters
  omega

end Command

namespace QueryRouter

variable {ext : Externals} {r : QueryRouter} {rand : Nat} {query : String}

theorem customCommand_of_none (h : ∀ c : Command, c.accepts query = false) :
    r.customCommand ext rand query = some (r, none) := by
  have hnil : Command.all.filter (·.accepts query) = [] := by
    rw [List.filter_eq_nil_iff]
    intro c _
    rw [h c]
    decide
  rw [customCommand, hnil]

theorem customCommand_of_splits {c : Command} {value : List Char} (h : c.Splits query.toList value) :
    r.customCommand ext rand query =
      (r.execute ext rand c (String.ofList value)).map fun p => (p.1, some (c, p.2)) := by
  have haccepts : c.accepts query = true := Command.accepts_iff_splits.mpr ⟨value, h⟩
  have hcapture : (if c.isSet then c.capture query else some "") = some (String.ofList value) := by
    split
    · rw [Command.capture_eq_some_iff, String.toList_ofList]
      exact h
    · -- The commands without a value capture nothing.
      obtain ⟨front, back, -, -, hvalue, -⟩ := h
      have hnil : value = [] := by
        cases c with
        | showShard | showServerRole | showPrimaryReads => exact Re.mem_eps.mp hvalue
        | setShardingKey | setShard | setServerRole | setPrimaryReads => contradiction
      rw [hnil]
  rw [customCommand, Command.filter_accepts haccepts]
  simp only [hcapture]

/-- A command is executed or panics; it is never passed over. -/
theorem customCommand_ne_none {c : Command} (h : c.accepts query = true) (r' : QueryRouter) :
    r.customCommand ext rand query ≠ some (r', none) := by
  obtain ⟨value, hsplits⟩ := Command.accepts_iff_splits.mp h
  rw [customCommand_of_splits hsplits]
  intro heq
  obtain ⟨p, -, hp⟩ := Option.map_eq_some_iff.mp heq
  cases hp

theorem customCommand_blank (cs : List Char) :
    r.customCommand ext rand (String.ofList (' ' :: cs)) = r.customCommand ext rand (String.ofList cs) := by
  simp only [customCommand, Command.accepts_blank, Command.capture_blank]

end QueryRouter

end PgCat.Router
