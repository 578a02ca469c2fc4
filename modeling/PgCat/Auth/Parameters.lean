import PgCat.Auth.Login
import PgCat.Lib.Latin1

/-!
# Parameters — what the parser of the startup parameters makes of them

A startup message holds names and values, each ended by a NUL, and a NUL at the end.  `parse_params`
takes the strings apart byte by byte, throws the empty ones away and pairs up what is left.  Two things
get lost on the way: an empty value, with which all later names and values change places, and the
characters that take more than one byte.  Parameters without either, and only those, come back as sent.
-/

namespace PgCat.Auth

open Lib

/-! ## The message -/

def cString (text : String) : Bytes :=
  utf8 text ++ [0]

/-- The layout `startup` gives to its parameters. -/
def encodeParameters (pairs : List (String × String)) : Bytes :=
  (pairs.flatMap fun pair => cString pair.1 ++ cString pair.2) ++ [0]

/-- Parameters as a client may send them: the values may be empty. -/
structure Parameters where
  pairs : List (String × String)
  distinct : (pairs.map Prod.fst).Nodup
  named : ∀ pair ∈ pairs, pair.1 ≠ ""
  nulFree : ∀ pair ∈ pairs, Char.ofNat 0 ∉ pair.1.toList ∧ Char.ofNat 0 ∉ pair.2.toList
  user : "user" ∈ pairs.map Prod.fst

/-- The parser accepts the parameters, and its map holds them and nothing else. -/
def RoundTrips (params : Parameters) : Prop :=
  ∃ result, parseStartup (encodeParameters params.pairs) = some (.ok result) ∧
    ∀ name value, result.lookup name = some value ↔ (name, value) ∈ params.pairs

/-- Names and values in the order in which they are sent. -/
def texts (pairs : List (String × String)) : List String :=
  pairs.flatMap fun pair => [pair.1, pair.2]

variable (pairs : List (String × String)) {name : String} {result : HashMap String String}

@[simp] theorem texts_cons (name value : String) (pairs : List (String × String)) :
    texts ((name, value) :: pairs) = name :: value :: texts pairs := rfl

theorem length_texts : (texts pairs).length = 2 * pairs.length := by
  induction pairs with
  | nil => rfl
  | cons pair pairs ih =>
    obtain ⟨name, value⟩ := pair
    rw [texts_cons, List.length_cons, List.length_cons, List.length_cons, ih]
    omega

theorem texts_map (f : String → String) (pairs : List (String × String)) :
    (texts pairs).map f = texts (pairs.map fun pair => (f pair.1, f pair.2)) := by
  simp [texts, List.map_flatMap, List.flatMap_map]

theorem forall_mem_texts {P : String → Prop} {pairs : List (String × String)} :
    (∀ text ∈ texts pairs, P text) ↔ ∀ pair ∈ pairs, P pair.1 ∧ P pair.2 := by
  simp only [texts, List.mem_flatMap, List.mem_cons, List.not_mem_nil, or_false]
  constructor
  · intro h pair hpair
    exact ⟨h _ ⟨pair, hpair, .inl rfl⟩, h _ ⟨pair, hpair, .inr rfl⟩⟩
  · rintro h text ⟨pair, hpair, rfl | rfl⟩
    · exact (h pair hpair).1
    · exact (h pair hpair).2

/-- The NUL at the end is one more text, an empty one. -/
theorem encodeParameters_eq : encodeParameters pairs = (texts pairs ++ [""]).flatMap cString := by
  simp only [encodeParameters, texts, List.flatMap_append, List.flatMap_assoc, List.flatMap_cons,
    List.flatMap_nil, List.append_nil]
  rfl

/-! ## The strings -/

theorem getCString_append {bs : Bytes} (h : 0 ∉ bs) (rest : Bytes) :
    getCString (bs ++ 0 :: rest) = some (bs.map Char.ofUInt8, rest) := by
  induction bs with
  | nil => rfl
  | cons b bs ih =>
    rw [List.mem_cons, not_or] at h
    rw [List.cons_append, getCString, if_neg (Ne.symm h.1), ih h.2]
    rfl

theorem utf8_eq_nil {s : String} : utf8 s = [] ↔ s = "" := by
  constructor
  · intro h
    have hlength := length_le_utf8 s
    rw [h] at hlength
    exact String.toList_eq_nil_iff.mp (List.length_eq_zero_iff.mp (Nat.le_zero.mp hlength))
  · rintro rfl
    rfl

/-- The texts come out misread, and without the empty ones. -/
theorem getCStrings_texts {ts : List String} (h : ∀ text ∈ ts, Char.ofNat 0 ∉ text.toList) :
    ∀ {n : Nat}, (ts.flatMap cString).length ≤ n →
      getCStrings n (ts.flatMap cString) = some ((ts.filter (· ≠ "")).map misread) := by
  induction ts with
  | nil =>
    intro n _
    cases n with
    | zero => rfl
    | succ n => rfl
  | cons text ts ih =>
    intro n hn
    rw [List.forall_mem_cons] at h
    have hzero : (0 : UInt8) ∉ utf8 text := zero_notMem_utf8 fun c hc h0 => h.1 (h0 ▸ hc)
    have hbytes : (text :: ts).flatMap cString = utf8 text ++ 0 :: ts.flatMap cString := by
      simp [cString]
    rw [hbytes, List.length_append, List.length_cons] at hn
    obtain ⟨n, rfl⟩ : ∃ m, n = m + 1 := ⟨n - 1, by omega⟩
    have hget := getCString_append hzero (ts.flatMap cString)
    have hrest := ih h.2 (n := n) (by omega)
    rw [hbytes]
    have hcons : ∃ b bs, utf8 text ++ 0 :: ts.flatMap cString = b :: bs := by
      cases hutf8 : utf8 text with
      | nil | cons b bs => exact ⟨_, _, rfl⟩
    obtain ⟨b, bs, hbs⟩ := hcons
    rw [hbs] at hget ⊢
    simp only [getCStrings, hget, hrest, some_bind, List.isEmpty_map]
    -- An empty text is skipped by the parser, so that the ones behind it move up.
    by_cases hempty : text = ""
    · simp [hempty, utf8]
    · have hsome : (utf8 text).isEmpty = false := by
        rw [List.isEmpty_eq_false_iff]
        exact fun h => hempty (utf8_eq_nil.mp h)
      simp [hempty, hsome, misread, latin1]

/-! ## The pairs -/

theorem mem_insertPairs {pairs : List (String × String)} :
    name ∈ insertPairs (texts pairs) result ↔ name ∈ pairs.map Prod.fst ∨ name ∈ result := by
  induction pairs generalizing result with
  | nil => simp [texts, insertPairs]
  | cons pair pairs ih =>
    obtain ⟨key, value⟩ := pair
    rw [texts_cons, insertPairs, ih, AList.mem_insert]
    simp only [List.map_cons, List.mem_cons]
    grind

theorem lookup_insertPairs_of_notMem {pairs : List (String × String)} (h : name ∉ pairs.map Prod.fst) :
    (insertPairs (texts pairs) result).lookup name = result.lookup name := by
  induction pairs generalizing result with
  | nil => rfl
  | cons pair pairs ih =>
    obtain ⟨key, value⟩ := pair
    rw [List.map_cons, List.mem_cons, not_or] at h
    rw [texts_cons, insertPairs, ih h.2, AList.lookup_insert_ne h.1]

theorem lookup_insertPairs {pairs : List (String × String)} (h : (pairs.map Prod.fst).Nodup)
    {value : String} (hmem : (name, value) ∈ pairs) :
    (insertPairs (texts pairs) result).lookup name = some value := by
  induction pairs generalizing result with
  | nil => cases hmem
  | cons pair pairs ih =>
    obtain ⟨key, first⟩ := pair
    rw [List.map_cons, List.nodup_cons] at h
    rw [texts_cons, insertPairs]
    rcases List.mem_cons.mp hmem with heq | htail
    · obtain ⟨rfl, rfl⟩ := Prod.mk.inj heq
      rw [lookup_insertPairs_of_notMem h.1, AList.lookup_insert]
    · exact ih h.2 htail

theorem length_keys_insertPairs (buf : List String) (result : HashMap String String) :
    (insertPairs buf result).keys.length ≤ buf.length / 2 + result.keys.length := by
  fun_induction insertPairs buf result with
  | case1 name value rest result ih =>
    have hinsert : (result.insert name value).keys.length ≤ result.keys.length + 1 := by
      rw [AList.keys_insert, List.length_cons]
      exact Nat.succ_le_succ (List.length_erase_le)
    rw [List.length_cons, List.length_cons]
    omega
  | case2 => omega

/-! ## The result -/

section Result

variable (params : Parameters)

/-- What the parser is left with. -/
def Parameters.buffer : List String :=
  ((texts params.pairs).filter (· ≠ "")).map misread

theorem parseParams_encode : parseParams (encodeParameters params.pairs) =
    some (if params.buffer.length % 2 ≠ 0 ∨ params.buffer.length < 2 then .error .clientBadStartup
      else .ok (insertPairs params.buffer ∅)) := by
  have hfree : ∀ text ∈ texts params.pairs ++ [""], Char.ofNat 0 ∉ text.toList := by
    rw [List.forall_mem_append, forall_mem_texts]
    exact ⟨params.nulFree, by simp⟩
  have hbuffer : ((texts params.pairs ++ [""]).filter (· ≠ "")).map misread = params.buffer := by
    simp [Parameters.buffer]
  rw [parseParams, encodeParameters_eq, getCStrings_texts hfree (Nat.le_refl _), hbuffer]
  simp only [some_bind]
  split <;> rfl

theorem parseStartup_encode_iff {result : HashMap String String} :
    parseStartup (encodeParameters params.pairs) = some (.ok result) ↔
      params.buffer.length % 2 = 0 ∧ 2 ≤ params.buffer.length ∧ insertPairs params.buffer ∅ = result ∧
        "user" ∈ result := by
  rw [parseStartup, parseParams_encode]
  by_cases hbad : params.buffer.length % 2 ≠ 0 ∨ params.buffer.length < 2
  · rw [if_pos hbad]
    constructor
    · intro h
      cases h
    · rintro ⟨heven, htwo, -⟩
      omega
  · rw [if_neg hbad]
    push Not at hbad
    simp only [some_bind, AList.lookup_isSome]
    by_cases huser : "user" ∈ insertPairs params.buffer ∅
    · rw [if_pos huser]
      constructor
      · intro h
        cases h
        exact ⟨hbad.1, hbad.2, rfl, huser⟩
      · rintro ⟨-, -, rfl, -⟩
        rfl
    · rw [if_neg huser]
      constructor
      · intro h
        cases h
      · rintro ⟨-, -, rfl, hmem⟩
        exact absurd hmem huser

variable {params}

theorem buffer_of_values (h : ∀ pair ∈ params.pairs, pair.2 ≠ "") :
    params.buffer = texts (params.pairs.map fun pair => (misread pair.1, misread pair.2)) := by
  have hall : ∀ text ∈ texts params.pairs, text ≠ "" :=
    forall_mem_texts.mpr fun pair hpair => ⟨params.named pair hpair, h pair hpair⟩
  rw [Parameters.buffer, List.filter_eq_self.mpr (by simpa using hall), texts_map]

/-- As many entries as names need a buffer with no value missing. -/
theorem values_of_roundTrips (h : RoundTrips params) : ∀ pair ∈ params.pairs, pair.2 ≠ "" := by
  obtain ⟨result, hparse, hlookup⟩ := h
  obtain ⟨-, -, hresult, -⟩ := (parseStartup_encode_iff params).mp hparse
  have hnames : params.pairs.map Prod.fst ⊆ result.keys := by
    intro name hname
    obtain ⟨⟨key, value⟩, hpair, rfl⟩ := List.mem_map.mp hname
    apply AList.lookup_isSome.mp
    rw [(hlookup key value).mpr hpair]
    rfl
  have hcount : params.pairs.length ≤ params.buffer.length / 2 :=
    calc params.pairs.length = (params.pairs.map Prod.fst).length := (List.length_map _).symm
      _ ≤ result.keys.length := (List.subperm_of_subset params.distinct hnames).length_le
      _ ≤ params.buffer.length / 2 + 0 := hresult ▸ length_keys_insertPairs params.buffer ∅
  have hfull : ((texts params.pairs).filter (· ≠ "")).length = (texts params.pairs).length := by
    have hle := List.length_filter_le (fun text : String => decide (text ≠ "")) (texts params.pairs)
    rw [Parameters.buffer, List.length_map] at hcount
    rw [length_texts] at hle ⊢
    omega
  have hall : ∀ text ∈ texts params.pairs, text ≠ "" := by
    simpa using List.length_filter_eq_length_iff.mp hfull
  exact fun pair hpair => (forall_mem_texts.mp hall pair hpair).2

theorem ascii_of_roundTrips (h : RoundTrips params) : ∀ pair ∈ params.pairs, Ascii pair.1 ∧ Ascii pair.2 := by
  have hbuffer := buffer_of_values (values_of_roundTrips h)
  obtain ⟨result, hparse, hlookup⟩ := h
  obtain ⟨-, -, hresult, -⟩ := (parseStartup_encode_iff params).mp hparse
  rw [hbuffer] at hresult
  have hnames : ∀ name ∈ params.pairs.map Prod.fst, Ascii name := by
    apply ascii_of_misread_mem
    intro name hname
    obtain ⟨pair, hpair, rfl⟩ := List.mem_map.mp hname
    have hkey : misread pair.1 ∈ result := by
      rw [← hresult, mem_insertPairs]
      exact .inl (List.mem_map.mpr ⟨_, List.mem_map.mpr ⟨pair, hpair, rfl⟩, rfl⟩)
    obtain ⟨value, hvalue⟩ := Option.isSome_iff_exists.mp (AList.lookup_isSome.mpr hkey)
    exact List.mem_map.mpr ⟨_, (hlookup _ _).mp hvalue, rfl⟩
  have hsame : (params.pairs.map fun pair => (misread pair.1, misread pair.2)).map Prod.fst =
      params.pairs.map Prod.fst := by
    rw [List.map_map]
    apply List.map_congr_left
    intro pair hpair
    exact misread_of_ascii (hnames _ (List.mem_map_of_mem hpair))
  intro pair hpair
  have hname : Ascii pair.1 := hnames _ (List.mem_map_of_mem hpair)
  have hvalue : result.lookup pair.1 = some (misread pair.2) := by
    rw [← hresult]
    apply lookup_insertPairs (by rw [hsame]; exact params.distinct)
    refine List.mem_map.mpr ⟨pair, hpair, ?_⟩
    rw [misread_of_ascii hname]
  -- The map has one value for the name, the one that was sent and the one that was read.
  rw [(hlookup pair.1 pair.2).mpr hpair, Option.some.injEq] at hvalue
  exact ⟨hname, misread_eq_self_iff.mp hvalue.symm⟩

theorem roundTrips_of_ascii (h : ∀ pair ∈ params.pairs, pair.2 ≠ "" ∧ Ascii pair.1 ∧ Ascii pair.2) :
    RoundTrips params := by
  have hsame : (params.pairs.map fun pair => (misread pair.1, misread pair.2)) = params.pairs := by
    refine (List.map_congr_left fun pair hpair => ?_).trans (List.map_id _)
    obtain ⟨-, hname, hvalue⟩ := h pair hpair
    rw [misread_of_ascii hname, misread_of_ascii hvalue]
    rfl
  have hbuffer : params.buffer = texts params.pairs := by
    rw [buffer_of_values fun pair hpair => (h pair hpair).1, hsame]
  have hsome : 0 < params.pairs.length :=
    List.length_pos_iff.mpr fun hnil => by simpa [hnil] using params.user
  refine ⟨insertPairs (texts params.pairs) ∅, (parseStartup_encode_iff params).mpr ?_, ?_⟩
  · rw [hbuffer, length_texts]
    exact ⟨by omega, by omega, rfl, mem_insertPairs.mpr (.inl params.user)⟩
  · intro name value
    refine ⟨fun hvalue => ?_, fun hpair => lookup_insertPairs params.distinct hpair⟩
    have hname : name ∈ params.pairs.map Prod.fst := by
      have hmem : name ∈ insertPairs (texts params.pairs) ∅ :=
        AList.lookup_isSome.mp (by rw [hvalue]; rfl)
      exact (mem_insertPairs.mp hmem).resolve_right (AList.notMem_empty name)
    obtain ⟨⟨key, sent⟩, hpair, rfl⟩ := List.mem_map.mp hname
    rw [lookup_insertPairs params.distinct hpair, Option.some.injEq] at hvalue
    exact hvalue ▸ hpair

end Result

theorem roundTrips_iff (params : Parameters) :
    RoundTrips params ↔ ∀ pair ∈ params.pairs, pair.2 ≠ "" ∧ Ascii pair.1 ∧ Ascii pair.2 := by
  refine ⟨fun h pair hpair => ?_, roundTrips_of_ascii⟩
  exact ⟨values_of_roundTrips h pair hpair, ascii_of_roundTrips h pair hpair⟩

namespace Sample

/-- A client that sends its options although it has none. -/
def emptyOptions : Parameters where
  pairs := [("user", "alice"), ("options", "")]
  distinct := by decide
  named := by decide
  nulFree := by decide
  user := by decide

theorem empty_options_refused :
    parseStartup (encodeParameters emptyOptions.pairs) = some (.error .clientBadStartup) ∧
      ¬RoundTrips emptyOptions := by
  have hparse : parseStartup (encodeParameters emptyOptions.pairs) = some (.error .clientBadStartup) := by
    decide
  refine ⟨hparse, ?_⟩
  rintro ⟨result, hresult, -⟩
  rw [hparse] at hresult
  cases hresult

end Sample

end PgCat.Auth
