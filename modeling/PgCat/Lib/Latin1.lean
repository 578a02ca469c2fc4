import Mathlib.Data.Finset.Max
import PgCat.Lib.Bytes

/-!
# Latin1 — text whose bytes are taken for characters

A program that reads UTF-8 one byte at a time and casts each byte to a character gets the text it was
sent exactly if the text is ASCII; any other text comes out longer.  No finite set of texts is therefore
closed under the misreading unless all its members are ASCII.
-/

namespace PgCat.Lib

def Ascii (s : String) : Prop :=
  ∀ c ∈ s.toList, c.toNat < 128

/-- Each byte as a character. -/
def latin1 (bs : Bytes) : String :=
  String.ofList (bs.map Char.ofUInt8)

/-- What the UTF-8 encoding of a text is taken for. -/
def misread (s : String) : String :=
  latin1 (utf8 s)

/-! ## One character -/

theorem toNat_ofUInt8 (b : UInt8) : (Char.ofUInt8 b).toNat = b.toNat :=
  UInt8.toNat_toUInt32 b

/-- The first of the bytes of a character that is not ASCII is none either, and another one follows. -/
theorem utf8EncodeChar_of_not_ascii {c : Char} (h : 128 ≤ c.toNat) :
    ∃ b b' bs, String.utf8EncodeChar c = b :: b' :: bs ∧ 128 ≤ b.toNat := by
  have hvalid : c.val.toNat < 0xD800 ∨ 0xDFFF < c.val.toNat ∧ c.val.toNat < 0x110000 := c.valid
  have hwide : ¬c.val.toNat ≤ 127 := Nat.not_le.mpr h
  rw [String.utf8EncodeChar.eq_1, if_neg hwide]
  generalize c.val.toNat = v at hvalid
  split
  · exact ⟨_, _, _, rfl, by simp; omega⟩
  split
  · exact ⟨_, _, _, rfl, by simp; omega⟩
  · exact ⟨_, _, _, rfl, by simp; omega⟩

/-! ## Texts -/

theorem toList_misread (s : String) : (misread s).toList = (utf8 s).map Char.ofUInt8 := by
  simp [misread, latin1]

theorem length_misread (s : String) : (misread s).toList.length = (utf8 s).length := by
  rw [toList_misread, List.length_map]

theorem misread_of_ascii {s : String} (h : Ascii s) : misread s = s := by
  apply String.toList_injective
  rw [toList_misread, utf8]
  unfold Ascii at h
  revert h
  induction s.toList with
  | nil =>
    intro _
    rfl
  | cons c cs ih =>
    intro h
    rw [List.forall_mem_cons] at h
    have hback : Char.ofUInt8 (UInt8.ofNat c.toNat) = c := by
      apply Char.toNat_inj.mp
      rw [toNat_ofUInt8]
      exact UInt8.toNat_ofNat_of_lt' (Nat.lt_trans h.1 (by decide))
    rw [List.flatMap_cons, utf8EncodeChar_of_ascii h.1, List.map_append, ih h.2]
    simp [hback]

/-- A text that is not ASCII has more bytes than characters. -/
theorem length_lt_of_not_ascii {s : String} (h : ¬Ascii s) : s.toList.length < (utf8 s).length := by
  unfold Ascii at h
  unfold utf8
  push Not at h
  obtain ⟨c, hc, hwide⟩ := h
  obtain ⟨before, after, hsplit⟩ := List.append_of_mem hc
  obtain ⟨b, b', bs, hbytes, -⟩ := utf8EncodeChar_of_not_ascii hwide
  have hbefore := length_le_utf8 (String.ofList before)
  have hafter := length_le_utf8 (String.ofList after)
  simp only [utf8, String.toList_ofList] at hbefore hafter
  rw [hsplit]
  simp only [List.flatMap_append, List.flatMap_cons, hbytes, List.length_append, List.length_cons]
  omega

theorem not_ascii_misread {s : String} (h : ¬Ascii s) : ¬Ascii (misread s) := by
  intro hread
  unfold Ascii at h
  push Not at h
  obtain ⟨c, hc, hwide⟩ := h
  obtain ⟨b, b', bs, hbytes, hb⟩ := utf8EncodeChar_of_not_ascii hwide
  have hmem : b ∈ utf8 s := List.mem_flatMap.mpr ⟨c, hc, by rw [hbytes]; exact List.mem_cons_self⟩
  have hascii := hread (Char.ofUInt8 b) (by rw [toList_misread]; exact List.mem_map_of_mem hmem)
  rw [toNat_ofUInt8] at hascii
  omega

/-- A text is read as itself exactly if it is ASCII. -/
theorem misread_eq_self_iff {s : String} : misread s = s ↔ Ascii s := by
  refine ⟨fun h => ?_, misread_of_ascii⟩
  by_contra hnot
  have hlonger := length_lt_of_not_ascii hnot
  rw [← length_misread, h] at hlonger
  exact Nat.lt_irrefl _ hlonger

/-- Finitely many texts that are taken for one another are ASCII: the longest that is not would be taken
for a longer one. -/
theorem ascii_of_misread_mem {texts : List String} (h : ∀ t ∈ texts, misread t ∈ texts) :
    ∀ t ∈ texts, Ascii t := by
  classical
  by_contra hsome
  push Not at hsome
  obtain ⟨t₀, ht₀, hwide₀⟩ := hsome
  obtain ⟨t, ht, hlongest⟩ := Finset.exists_max_image (texts.toFinset.filter fun t => ¬Ascii t)
    (fun t => t.toList.length) ⟨t₀, by simp [ht₀, hwide₀]⟩
  simp only [Finset.mem_filter, List.mem_toFinset] at ht hlongest
  have hle := hlongest (misread t) ⟨h t ht.1, not_ascii_misread ht.2⟩
  rw [length_misread] at hle
  exact Nat.not_lt.mpr hle (length_lt_of_not_ascii ht.2)

end PgCat.Lib
