import PgCat.Router.BindMessage
import PgCat.Router.Spelling

/-!
# KeyCommand — the command `SET SHARDING KEY`

A `KeyCommand` is a spelling of `SET SHARDING KEY TO n`; its value is captured as the digits of the text.
Without its first four bytes it is no command, unless they are blanks.
-/

namespace PgCat.Router

open Lib Protocol

/-! ## Spellings of the command -/

/-- A spelling of `SET SHARDING KEY TO n`: blanks around it, any case, quotes and a semicolon or not. -/
structure KeyCommand where
  lead : Nat
  words : List Char
  openQuote : Bool
  digits : List Char
  closeQuote : Bool
  blanks : Nat
  semicolon : Bool
  trail : Nat
  n : Nat
  spelled : words.map Char.toLower = Command.setShardingKey.letters
  reads : parseNat digits = some n

namespace KeyCommand

/-- One character, or nothing. -/
def mark (c : Char) (present : Bool) : List Char :=
  if present then [c] else []

/-- What follows the words. -/
def value (k : KeyCommand) : List Char :=
  mark '\'' k.openQuote ++ (k.digits ++ (mark '\'' k.closeQuote ++
    (List.replicate k.blanks ' ' ++ (mark ';' k.semicolon ++ List.replicate k.trail ' '))))

def chars (k : KeyCommand) : List Char :=
  List.replicate k.lead ' ' ++ (k.words ++ k.value)

def text (k : KeyCommand) : String :=
  String.ofList k.chars

theorem replicate_mem_spaces (n : Nat) : List.replicate n ' ' ∈ Re.spaces.language := by
  refine Re.mem_star_char.mpr ?_
  intro c hc
  rw [List.eq_of_mem_replicate hc]
  rfl

theorem mark_mem_opt {c : Char} (present : Bool) : mark c present ∈ (Re.opt (.char (· == c))).language := by
  cases present with
  | false => exact Re.mem_opt.mpr (.inr rfl)
  | true => exact Re.mem_opt.mpr (.inl ⟨c, by simp, rfl⟩)

variable (k : KeyCommand)

theorem words_mem : k.words ∈ (Re.word Command.setShardingKey.words).language := by
  refine Re.mem_word.mpr ?_
  have hsame : List.Forall₂ (fun c d : Char => c.toLower = d.toLower)
      Command.setShardingKey.words.toList k.words := by
    rw [← List.forall₂_map_right_iff, ← List.forall₂_map_left_iff, List.forall₂_eq_eq_eq]
    exact k.spelled.symm
  refine hsame.imp ?_
  intro c d hcd
  simp [Re.foldEq, hcd]

theorem front_mem : List.replicate k.lead ' ' ++ (k.words ++ mark '\'' k.openQuote) ∈
      Command.setShardingKey.before.language :=
  Re.mem_seq.mpr ⟨_, replicate_mem_spaces _, _,
    Re.mem_seq.mpr ⟨_, k.words_mem, _, mark_mem_opt _, rfl⟩, rfl⟩

theorem digits_mem : k.digits ∈ Command.setShardingKey.group.language :=
  Re.mem_plus_char.mpr (digits_of_parseNat k.reads)

theorem back_mem : mark '\'' k.closeQuote ++
        (List.replicate k.blanks ' ' ++ (mark ';' k.semicolon ++ List.replicate k.trail ' ')) ∈
      Command.setShardingKey.after.language :=
  Re.mem_seq.mpr ⟨_, mark_mem_opt _, _, Re.mem_seq.mpr ⟨_, replicate_mem_spaces _, _,
    Re.mem_seq.mpr ⟨_, mark_mem_opt _, _, replicate_mem_spaces _, rfl⟩, rfl⟩, rfl⟩

theorem text_toList :
    k.text.toList = (List.replicate k.lead ' ' ++ (k.words ++ mark '\'' k.openQuote)) ++ k.digits ++
      (mark '\'' k.closeQuote ++
        (List.replicate k.blanks ' ' ++ (mark ';' k.semicolon ++ List.replicate k.trail ' '))) := by
  simp [text, chars, value]

theorem accepts_text : Command.setShardingKey.accepts k.text = true := by
  refine Re.accepts_iff.mpr ?_
  rw [text_toList, List.append_assoc]
  exact Re.mem_seq.mpr ⟨_, k.front_mem, _, Re.mem_seq.mpr ⟨_, k.digits_mem, _, k.back_mem, rfl⟩, rfl⟩

theorem capture_text : Command.setShardingKey.capture k.text = some (String.ofList k.digits) := by
  refine Command.capture_eq_some_iff.mpr ?_
  rw [text_toList, String.toList_ofList]
  exact ⟨_, _, rfl, k.front_mem, k.digits_mem, k.back_mem⟩

/-! ## The message -/

def message (k : KeyCommand) : Message :=
  simpleQuery k.text

theorem words_ascii : ∀ c ∈ k.words, 0 < c.toNat ∧ c.toNat < 128 := by
  intro c hc
  have hmem : c.toLower ∈ Command.setShardingKey.letters := k.spelled ▸ List.mem_map_of_mem hc
  obtain ⟨hpos, hlt⟩ := Command.letters_range _ _ hmem
  exact ⟨Re.toNat_pos_of_toLower_pos hpos, Re.toNat_lt_of_toLower_lt hlt⟩

theorem chars_ne_nul : ∀ c ∈ k.chars, c ≠ Char.ofNat 0 := by
  rintro c hc rfl
  have hmark : ∀ {d : Char} {present : Bool}, Char.ofNat 0 ∈ mark d present → d = Char.ofNat 0 := by
    intro d present h
    cases present with
    | false => cases h
    | true => exact (List.mem_singleton.mp h).symm
  simp only [chars, value, List.mem_append] at hc
  rcases hc with h | h | h | h | h | h | h | h
  · exact absurd (List.eq_of_mem_replicate h) (by decide)
  · exact absurd (k.words_ascii _ h).1 (by decide)
  · exact absurd (hmark h) (by decide)
  · exact absurd ((digits_of_parseNat k.reads).2 _ h) (by decide)
  · exact absurd (hmark h) (by decide)
  · exact absurd (List.eq_of_mem_replicate h) (by decide)
  · exact absurd (hmark h) (by decide)
  · exact absurd (List.eq_of_mem_replicate h) (by decide)

theorem length_words : k.words.length = 20 := by
  have h := congrArg List.length k.spelled
  rw [List.length_map] at h
  exact h

theorem take_chars : (utf8 (String.ofList (k.chars.take 4))).length = 4 := by
  have hfront : ∀ c ∈ k.chars.take 4, c.toNat < 128 := by
    intro c hc
    have htake : k.chars.take 4 = (List.replicate k.lead ' ' ++ k.words).take 4 := by
      rw [chars, ← List.append_assoc, List.take_append_of_le_length]
      simp [k.length_words]
    rw [htake] at hc
    rcases List.mem_append.mp (List.mem_of_mem_take hc) with h | h
    · rw [List.eq_of_mem_replicate h]
      decide
    · exact (k.words_ascii c h).2
  have hsize : (k.chars.take 4).length = 4 := by
    simp [chars, k.length_words]
    omega
  rw [length_utf8_of_ascii (by simpa using hfront), String.toList_ofList, hsize]

theorem utf8_text :
    utf8 k.text = utf8 (String.ofList (k.chars.take 4)) ++ utf8 (String.ofList (k.chars.drop 4)) := by
  rw [← utf8_append, ← String.ofList_append, List.take_append_drop]
  rfl

theorem length_text : 4 ≤ (utf8 k.text).length := by
  rw [k.utf8_text, List.length_append, k.take_chars]
  omega

theorem drop_text : (utf8 k.text).drop 4 = utf8 (String.ofList (k.chars.drop 4)) := by
  rw [k.utf8_text, List.drop_append, k.take_chars, Nat.sub_self, List.drop_zero,
    List.drop_eq_nil_of_le k.take_chars.le, List.nil_append]

/-! ## Losing the first four bytes -/

theorem drop_chars_of_lt (h : k.lead < 4) : k.chars.drop 4 = k.words.drop (4 - k.lead) ++ k.value := by
  have hle : 4 - k.lead ≤ k.words.length := by rw [k.length_words]; omega
  rw [chars, List.drop_append, List.drop_eq_nil_of_le (by simp; omega), List.nil_append,
    List.length_replicate, List.drop_append_of_le_length hle]

theorem drop_chars_of_le (h : 4 ≤ k.lead) : k.chars.drop 4 = { k with lead := k.lead - 4 }.chars := by
  obtain ⟨n, hn⟩ := Nat.exists_eq_add_of_le h
  simp [chars, value, hn, List.replicate_add, List.drop_append]

end KeyCommand

namespace QueryRouter

variable {ext : Externals} {r : QueryRouter} {rand : Nat}

theorem customCommand_text {k : KeyCommand} {s : Nat} (hn : k.n < 2 ^ 63)
    (hs : r.sharder.shard ext.sha1Digest k.n = some s) :
    r.customCommand ext rand k.text = some (r.setShard s, some (.setShardingKey, toString s)) := by
  have hvalue : parseI64 k.digits = some (k.n : Int) := by
    rw [parseI64_of_numeral ⟨k.digits, k.n, k.reads, .inl ⟨rfl, rfl⟩⟩, if_pos ⟨by omega, by omega⟩]
  unfold customCommand
  rw [Command.filter_accepts k.accepts_text]
  simp [Command.isSet, k.capture_text, execute, hvalue, setShardingKey, hs]

theorem customCommand_of_lost {k : KeyCommand} (h : k.lead < 4) :
    r.customCommand ext rand (String.ofList (k.chars.drop 4)) = some (r, none) := by
  have hnone : Command.all.filter (·.accepts (String.ofList (k.chars.drop 4))) = [] := by
    rw [List.filter_eq_nil_iff]
    intro c _
    have hlost := Command.not_accepts_of_drop (Command.map_fold k.words_mem) c
      (by omega : 1 ≤ 4 - k.lead ∧ 4 - k.lead ≤ 4) k.value
    rw [k.drop_chars_of_lt h, hlost]
    decide
  unfold customCommand
  rw [hnone]

end QueryRouter

end PgCat.Router
