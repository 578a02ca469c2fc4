import Mathlib.Data.List.Basic

/-!
# Sql — the lexical rules of SQL

A text is read in one pass, with a `Mode` for what the reader is in the middle of.  String literals are
standard-conforming: a backslash means nothing, a doubled quote is a quote, and a literal goes on behind
blanks with a line break.  `statements` splits the tokens at semicolons.
-/

namespace PgCat.Lib
namespace Sql

inductive Token
  /-- A key word, a name or a number. -/
  | word (text : List Char)
  | identifier (text : List Char)
  | string (text : List Char)
  | symbol (c : Char)
  deriving DecidableEq, Repr

/-- What the reader is in the middle of. -/
inductive Mode
  | plain
  | word (text : List Char)
  | quoted (text : List Char)
  /-- Behind a quote in a literal: its end, or half of a doubled quote. -/
  | quote (text : List Char)
  /-- Behind a literal that may go on in another line. -/
  | closed (text : List Char) (newline : Bool)
  | identifier (text : List Char)
  | identifierQuote (text : List Char)
  | dash
  | lineComment
  | slash
  | blockComment (depth : Nat)
  | blockStar (depth : Nat)
  | blockSlash (depth : Nat)
  deriving DecidableEq, Repr

def isBlank (c : Char) : Bool :=
  c == ' ' || c == '\t' || c == '\n' || c == '\r' || c == Char.ofNat 0x0B || c == Char.ofNat 0x0C

def isNewline (c : Char) : Bool :=
  c == '\n' || c == '\r'

/-- Characters of a word; everything outside ASCII is a letter. -/
def isWord (c : Char) : Bool :=
  c.isAlphanum || c == '_' || c == '$' || 128 ≤ c.toNat

/-- A character at the start of a token. -/
def begin (c : Char) : List Token × Mode :=
  if isBlank c then ([], .plain)
  else if isWord c then ([], .word [c])
  else if c = '\'' then ([], .quoted [])
  else if c = '"' then ([], .identifier [])
  else if c = '-' then ([], .dash)
  else if c = '/' then ([], .slash)
  else ([.symbol c], .plain)

def endBefore (token : Token) (c : Char) : List Token × Mode :=
  (token :: (begin c).1, (begin c).2)

/-- A character behind a literal. -/
def behind (text : List Char) (newline : Bool) (c : Char) : List Token × Mode :=
  if isBlank c then ([], .closed text (newline || isNewline c))
  else if newline = true ∧ c = '\'' then ([], .quoted text)
  else endBefore (.string text) c

def next : Mode → Char → List Token × Mode
  | .plain, c => begin c
  | .word text, c => if isWord c then ([], .word (text ++ [c])) else endBefore (.word text) c
  | .quoted text, c => if c = '\'' then ([], .quote text) else ([], .quoted (text ++ [c]))
  | .quote text, c => if c = '\'' then ([], .quoted (text ++ [c])) else behind text false c
  | .closed text newline, c => behind text newline c
  | .identifier text, c => if c = '"' then ([], .identifierQuote text) else ([], .identifier (text ++ [c]))
  | .identifierQuote text, c =>
    if c = '"' then ([], .identifier (text ++ [c])) else endBefore (.identifier text) c
  | .dash, c => if c = '-' then ([], .lineComment) else endBefore (.symbol '-') c
  | .lineComment, c => if isNewline c then ([], .plain) else ([], .lineComment)
  | .slash, c => if c = '*' then ([], .blockComment 0) else endBefore (.symbol '/') c
  | .blockComment depth, c =>
    if c = '*' then ([], .blockStar depth)
    else if c = '/' then ([], .blockSlash depth)
    else ([], .blockComment depth)
  | .blockStar depth, c =>
    if c = '/' then
      match depth with
      | 0 => ([], .plain)
      | depth + 1 => ([], .blockComment depth)
    else if c = '*' then ([], .blockStar depth)
    else ([], .blockComment depth)
  -- Block comments nest.
  | .blockSlash depth, c =>
    if c = '*' then ([], .blockComment (depth + 1))
    else if c = '/' then ([], .blockSlash depth)
    else ([], .blockComment depth)

/-- The tokens at the end of the text; `none` inside a literal, a quoted name or a comment. -/
def finish : Mode → Option (List Token)
  | .plain | .lineComment => some []
  | .word text => some [.word text]
  | .quote text | .closed text _ => some [.string text]
  | .identifierQuote text => some [.identifier text]
  | .dash => some [.symbol '-']
  | .slash => some [.symbol '/']
  | _ => none

def scan : Mode → List Char → Option (List Token)
  | mode, [] => finish mode
  | mode, c :: cs => (scan (next mode c).2 cs).map fun tokens => (next mode c).1 ++ tokens

def tokens (text : String) : Option (List Token) :=
  scan .plain text.toList

/-- The statements of a text; empty ones do not count. -/
def statements (text : String) : Option (List (List Token)) :=
  (tokens text).map fun tokens => (tokens.splitOn (.symbol ';')).filter (· ≠ [])

def advance : Mode → List Char → List Token × Mode
  | mode, [] => ([], mode)
  | mode, c :: cs => ((next mode c).1 ++ (advance (next mode c).2 cs).1, (advance (next mode c).2 cs).2)

theorem scan_append (mode : Mode) (cs ds : List Char) :
    scan mode (cs ++ ds) =
      (scan (advance mode cs).2 ds).map fun tokens => (advance mode cs).1 ++ tokens := by
  induction cs generalizing mode with
  | nil => exact Option.map_id'.symm
  | cons c cs ih =>
    rw [List.cons_append, scan, ih, Option.map_map, advance]
    refine Option.map_congr fun tokens _ => ?_
    exact (List.append_assoc _ _ _).symm

/-! ## Literals -/

theorem scan_silent {mode mode' : Mode} {c : Char} (h : next mode c = ([], mode')) (cs : List Char) :
    scan mode (c :: cs) = scan mode' cs := by
  rw [scan, h]
  exact Option.map_id'

theorem scan_quoted_append {body : List Char} (h : '\'' ∉ body) (text rest : List Char) :
    scan (.quoted text) (body ++ rest) = scan (.quoted (text ++ body)) rest := by
  induction body generalizing text with
  | nil => rw [List.append_nil, List.nil_append]
  | cons c body ih =>
    have hc : c ≠ '\'' := fun hc => h (hc ▸ List.mem_cons_self)
    have hbody : '\'' ∉ body := fun hbody => h (List.mem_cons_of_mem c hbody)
    have hnext : next (.quoted text) c = ([], .quoted (text ++ [c])) := if_neg hc
    rw [List.cons_append, scan_silent hnext, ih hbody, List.append_assoc, List.singleton_append]

/-- What the characters of a literal can add to it, in halves: a quote counts as one half, since it is
one of two or the end. -/
def halves : List Char → Nat
  | [] => 0
  | c :: cs => (if c = '\'' then 1 else 2) + halves cs

theorem halves_cons (c : Char) (cs : List Char) :
    halves (c :: cs) = (if c = '\'' then 1 else 2) + halves cs :=
  rfl

theorem halves_append (cs ds : List Char) : halves (cs ++ ds) = halves cs + halves ds := by
  induction cs with
  | nil => exact (Nat.zero_add _).symm
  | cons c cs ih => rw [List.cons_append, halves_cons, halves_cons, ih, Nat.add_assoc]

theorem halves_add_count (cs : List Char) : halves cs + cs.count '\'' = 2 * cs.length := by
  induction cs with
  | nil => rfl
  | cons c cs ih =>
    rw [halves_cons, List.count_cons, List.length_cons]
    by_cases hc : c = '\''
    · rw [if_pos hc, if_pos (beq_iff_eq.mpr hc)]
      omega
    · rw [if_neg hc, if_neg (mt beq_iff_eq.mp hc)]
      omega

/-- The first token is a literal shorter than half of the bound. -/
def LiteralWithin (bound : Nat) (tokens : List Token) : Prop :=
  ∃ text rest, tokens = .string text :: rest ∧ 2 * text.length < bound

theorem LiteralWithin.mono {b b' : Nat} {tokens : List Token} (h : LiteralWithin b tokens) (hle : b ≤ b') :
    LiteralWithin b' tokens := by
  obtain ⟨text, rest, htokens, hlt⟩ := h
  exact ⟨text, rest, htokens, Nat.lt_of_lt_of_le hlt hle⟩

theorem behind_within {c : Char} {cs text : List Char} {newline : Bool} {tokens : List Token}
    (hquoted : ∀ text tokens, scan (.quoted text) cs = some tokens →
      LiteralWithin (2 * text.length + halves cs) tokens)
    (hclosed : ∀ text newline tokens, scan (.closed text newline) cs = some tokens →
      LiteralWithin (2 * text.length + halves cs + 1) tokens)
    (h : (scan (behind text newline c).2 cs).map (fun tokens => (behind text newline c).1 ++ tokens) =
      some tokens) :
    LiteralWithin (2 * text.length + halves (c :: cs) + 1) tokens := by
  obtain ⟨more, hmore, rfl⟩ := Option.map_eq_some_iff.mp h
  rw [halves_cons]
  by_cases hblank : isBlank c = true
  · have hbehind : behind text newline c = ([], .closed text (newline || isNewline c)) := if_pos hblank
    rw [hbehind] at hmore ⊢
    exact (hclosed _ _ _ hmore).mono (by omega)
  by_cases hgoes : newline = true ∧ c = '\''
  · have hbehind : behind text newline c = ([], .quoted text) := (if_neg hblank).trans (if_pos hgoes)
    rw [hbehind] at hmore ⊢
    exact (hquoted _ _ hmore).mono (by omega)
  · have hbehind : behind text newline c = endBefore (.string text) c := (if_neg hblank).trans (if_neg hgoes)
    rw [hbehind]
    exact ⟨text, _, rfl, by omega⟩

/-- What a literal denotes is no longer than its characters allow; its end costs one half. -/
theorem literal_within (cs : List Char) :
    (∀ text tokens, scan (.quoted text) cs = some tokens →
      LiteralWithin (2 * text.length + halves cs) tokens) ∧
    (∀ text tokens, scan (.quote text) cs = some tokens →
      LiteralWithin (2 * text.length + halves cs + 1) tokens) ∧
    (∀ text newline tokens, scan (.closed text newline) cs = some tokens →
      LiteralWithin (2 * text.length + halves cs + 1) tokens) := by
  -- By induction on the text, for the three states inside or just behind a literal at once.
  induction cs with
  | nil =>
    refine ⟨fun text tokens h => ?_, fun text tokens h => ?_, fun text newline tokens h => ?_⟩
    · cases h
    · cases h
      exact ⟨text, [], rfl, by omega⟩
    · cases h
      exact ⟨text, [], rfl, by omega⟩
  | cons c cs ih =>
    obtain ⟨hquoted, hquote, hclosed⟩ := ih
    refine ⟨fun text tokens h => ?_, fun text tokens h => ?_, fun text newline tokens h => ?_⟩
    · by_cases hc : c = '\''
      · have hnext : next (.quoted text) c = ([], .quote text) := if_pos hc
        rw [scan_silent hnext] at h
        rw [halves_cons, if_pos hc]
        exact (hquote _ _ h).mono (by omega)
      · have hnext : next (.quoted text) c = ([], .quoted (text ++ [c])) := if_neg hc
        rw [scan_silent hnext] at h
        rw [halves_cons, if_neg hc]
        exact (hquoted _ _ h).mono (by rw [List.length_append, List.length_singleton]; omega)
    · by_cases hc : c = '\''
      · have hnext : next (.quote text) c = ([], .quoted (text ++ [c])) := if_pos hc
        rw [scan_silent hnext] at h
        rw [halves_cons, if_pos hc]
        exact (hquoted _ _ h).mono (by rw [List.length_append, List.length_singleton]; omega)
      · have hnext : next (.quote text) c = behind text false c := if_neg hc
        rw [scan, hnext] at h
        exact behind_within hquoted hclosed h
    · exact behind_within hquoted hclosed h

theorem scan_quoted_eq_iff {body : List Char} :
    (∃ tokens, scan (.quoted []) (body ++ ['\'']) = some (.string body :: tokens)) ↔ '\'' ∉ body := by
  constructor
  · rintro ⟨tokens, h⟩ hmem
    obtain ⟨text, rest, htokens, hlt⟩ := (literal_within _).1 [] _ h
    cases htokens
    have hcount := halves_add_count body
    have hpos : 0 < body.count '\'' := List.count_pos_iff.mpr hmem
    have hend : halves (body ++ ['\'']) = halves body + 1 := halves_append _ _
    rw [hend, List.length_nil] at hlt
    omega
  · intro h
    refine ⟨[], ?_⟩
    rw [scan_quoted_append h, List.nil_append]
    rfl

/-! ## Statements -/

theorem splitOn_append {first : List Token} (h : .symbol ';' ∉ first) (rest : List Token) :
    (first ++ rest).splitOn (.symbol ';') = (rest.splitOn (.symbol ';')).modifyHead (first ++ ·) := by
  induction first with
  | nil =>
    obtain ⟨head, tail, hsplit⟩ := List.exists_cons_of_ne_nil (List.splitOn_ne_nil (.symbol ';') rest)
    rw [List.nil_append, hsplit]
    rfl
  | cons token first ih =>
    have htoken : ¬(token == .symbol ';') = true := fun heq => h (beq_iff_eq.mp heq ▸ List.mem_cons_self)
    have hfirst : .symbol ';' ∉ first := fun hmem => h (List.mem_cons_of_mem token hmem)
    obtain ⟨head, tail, hsplit⟩ := List.exists_cons_of_ne_nil (List.splitOn_ne_nil (.symbol ';') rest)
    have hrest := ih hfirst
    rw [List.splitOn_eq_splitOnP] at hrest
    rw [List.cons_append, List.splitOn_eq_splitOnP, List.splitOnP_cons_eq_if_modifyHead, if_neg htoken, hrest,
      hsplit]
    rfl

theorem isPrefix_of_statements {text : String} {first rest stmt : List Token}
    (htokens : tokens text = some (first ++ rest)) (hne : first ≠ []) (hsemicolon : .symbol ';' ∉ first)
    (h : statements text = some [stmt]) : first <+: stmt := by
  obtain ⟨head, tail, hsplit⟩ := List.exists_cons_of_ne_nil (List.splitOn_ne_nil (.symbol ';') rest)
  have hkept : first ++ head ≠ [] := List.append_ne_nil_of_left_ne_nil hne head
  rw [statements, htokens, Option.map_some, splitOn_append hsemicolon, hsplit, List.modifyHead_cons,
    List.filter_cons, if_pos (decide_eq_true hkept)] at h
  obtain ⟨rfl, -⟩ := List.cons.inj (Option.some.inj h)
  exact List.prefix_append first head

theorem statements_of_tokens {text : String} {stmt : List Token} (htokens : tokens text = some stmt)
    (hne : stmt ≠ []) (hsemicolon : .symbol ';' ∉ stmt) : statements text = some [stmt] := by
  have hsplit := splitOn_append hsemicolon []
  rw [List.append_nil] at hsplit
  rw [statements, htokens, Option.map_some, hsplit]
  change some (List.filter _ [stmt ++ []]) = _
  rw [List.append_nil, List.filter_cons, if_pos (decide_eq_true hne), List.filter_nil]

end Sql
end PgCat.Lib
