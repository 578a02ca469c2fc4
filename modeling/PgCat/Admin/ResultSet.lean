import PgCat.Auth.Framing
import PgCat.Lib.Cursor
import PgCat.Lib.Maps

/-!
# ResultSet — the answers of the admin database, and how a client reads them

The result set of a `SHOW` command is a row description and a data row for each row, built by
`row_description` and `data_row`.  A client takes them apart by the format of the protocol, version 3:
messages with a length, columns counted by a 16-bit word, names ended by a NUL, fields with a 32-bit
length.  `decodeResultSet` is such a client.  It finds the columns and the rows that were encoded.
-/

namespace PgCat.Admin

open Lib Auth

/-! ## A client -/

/-- What a row description says of a column. -/
structure Column where
  name : String
  table : Int
  number : Int
  typeOid : Int
  typeSize : Int
  typeModifier : Int
  format : Int
  deriving DecidableEq, Repr

def getColumn : Cursor Column := do
  let bytes ← getUntilNul
  let name ← asText bytes
  let table ← getI32
  let number ← getI16
  let typeOid ← getI32
  let typeSize ← getI16
  let typeModifier ← getI32
  let format ← getI16
  pure ⟨name, table, number, typeOid, typeSize, typeModifier, format⟩

/-- As many values as the word in front of them says. -/
def getCounted {α : Type} (get : Cursor α) : Cursor (List α) := do
  let count ← getI16
  if count < 0 then failure else getMany get count.toNat

def getField : Cursor (Option String) := do
  let length ← getI32
  if length = -1 then pure none
  else if length < 0 then failure
  else do
    let bytes ← getBytes length.toNat
    let text ← asText bytes
    pure (some text)

def getMessage : Cursor (UInt8 × Bytes) := do
  let code ← getU8
  let length ← getI32
  if length < 4 then failure
  else do
    let payload ← getBytes (length.toNat - 4)
    pure (code, payload)

def decodeRow : UInt8 × Bytes → Option (List (Option String))
  | (code, payload) => if code = 68 then getWhole (getCounted getField) payload else none

/-- A row description, and data rows to the end of the input. -/
def decodeResultSet (bs : Bytes) : Option (List Column × List (List (Option String))) := do
  match ← getAll getMessage bs.length bs with
  | (code, payload) :: rows =>
    if code = 84 then do
      let columns ← getWhole (getCounted getColumn) payload
      let rows ← rows.mapM decodeRow
      pure (columns, rows)
    else none
  | [] => none

/-! ## Result sets -/

/-- Columns and rows that the format has room for. -/
structure ResultSet where
  columns : List (String × DataType)
  rows : List (List String)
  nulFree : ∀ c ∈ columns, Char.ofNat 0 ∉ c.1.toList
  few : columns.length < 2 ^ 15
  width : ∀ row ∈ rows, row.length = columns.length
  description_fits : (Encode.rowDescription columns).length ≤ 2 ^ 31
  rows_fit : ∀ row ∈ rows, (Encode.dataRow row).length ≤ 2 ^ 31

namespace ResultSet

def encode (r : ResultSet) : Bytes :=
  Encode.rowDescription r.columns ++ r.rows.flatMap Encode.dataRow

end ResultSet

/-- The column a client sees: no table, no modifier, text. -/
def describe (c : String × DataType) : Column :=
  ⟨c.1, 0, 0, c.2.oid, c.2.size, -1, 0⟩

/-! ## Reading back -/

theorem parses_column {c : String × DataType} (h : Char.ofNat 0 ∉ c.1.toList) :
    Parses getColumn (Encode.column c.1 c.2) (describe c) := by
  have hname : (0 : UInt8) ∉ utf8 c.1 := zero_notMem_utf8 fun x hx h0 => h (h0 ▸ hx)
  have hoid : -2 ^ 31 ≤ c.2.oid ∧ c.2.oid < 2 ^ 31 := by cases c.2 <;> decide
  have hsize : -2 ^ 15 ≤ c.2.size ∧ c.2.size < 2 ^ 15 := by cases c.2 <;> decide
  simp only [Encode.column, List.append_assoc]
  rw [← List.append_assoc]
  refine (Parses.ofGetUntilNul hname).seq ((Parses.ofAsText c.1).seq ?_)
  refine (Parses.ofGetI32 (by decide) (by decide)).seq ?_
  refine (Parses.ofGetI16 (by decide) (by decide)).seq ?_
  refine (Parses.ofGetI32 hoid.1 hoid.2).seq ?_
  refine (Parses.ofGetI16 hsize.1 hsize.2).seq ?_
  refine (Parses.ofGetI32 (by decide) (by decide)).seq ?_
  exact (Parses.ofGetI16 (by decide) (by decide)).last (.ofPure _)

theorem parses_field {text : String} (h : (utf8 text).length < 2 ^ 31) :
    Parses getField (putI32 (utf8 text).length ++ utf8 text) (some text) := by
  refine (Parses.ofGetI32 (by omega) (by omega)).seq ?_
  rw [if_neg (by omega), if_neg (by omega), Int.toNat_natCast]
  exact (Parses.ofGetBytes (utf8 text)).last ((Parses.ofAsText text).last (.ofPure _))

theorem parses_counted {α β : Type} {get : Cursor β} {encode : α → Bytes} {decode : α → β} {as : List α}
    (hfew : as.length < 2 ^ 15) (h : ∀ a ∈ as, Parses get (encode a) (decode a)) :
    Parses (getCounted get) (putI16 as.length ++ as.flatMap encode) (as.map decode) := by
  refine (Parses.ofGetI16 (by omega) (by omega)).seq ?_
  rw [if_neg (by omega), Int.toNat_natCast]
  exact .many h

theorem parses_message {m : Protocol.Message} (h : m.payload.length + 4 < 2 ^ 31) :
    Parses getMessage m.bytes (m.code, m.payload) := by
  show Parses getMessage ([m.code] ++ (putI32 (m.payload.length + 4) ++ m.payload)) _
  refine (Parses.ofGetU8 m.code).seq ((Parses.ofGetI32 (by omega) (by omega)).seq ?_)
  have hlength : ((m.payload.length : Int) + 4).toNat - 4 = m.payload.length := by omega
  rw [if_neg (by omega), hlength]
  exact (Parses.ofGetBytes m.payload).last (.ofPure _)

/-! ## Messages -/

def descriptionMessage (columns : List (String × DataType)) : Protocol.Message :=
  .ofChar 'T' (putI16 columns.length ++ columns.flatMap fun c => Encode.column c.1 c.2)

def rowMessage (row : List String) : Protocol.Message :=
  .ofChar 'D' (putI16 row.length ++ row.flatMap fun c => putI32 (utf8 c).length ++ utf8 c)

theorem rowDescription_eq (columns : List (String × DataType)) :
    Encode.rowDescription columns = (descriptionMessage columns).bytes :=
  Encode.withLength_eq _ _

theorem dataRow_eq (row : List String) : Encode.dataRow row = (rowMessage row).bytes :=
  Encode.withLength_eq _ _

theorem length_field_le {row : List String} {text : String} (h : text ∈ row) :
    (utf8 text).length ≤ (rowMessage row).payload.length := by
  obtain ⟨before, after, rfl⟩ := List.append_of_mem h
  simp [rowMessage, Protocol.Message.ofChar]
  omega

theorem decodeRow_rowMessage {row : List String} (hfew : row.length < 2 ^ 15)
    (hfits : (rowMessage row).payload.length + 4 < 2 ^ 31) :
    decodeRow ((rowMessage row).code, (rowMessage row).payload) = some (row.map some) := by
  have hfields : ∀ text ∈ row, Parses getField (putI32 (utf8 text).length ++ utf8 text) (some text) := by
    intro text htext
    have hle := length_field_le htext
    exact parses_field (by omega)
  exact (parses_counted hfew hfields).whole

theorem mapM_decodeRow {rows : List (List String)}
    (h : ∀ row ∈ rows, row.length < 2 ^ 15 ∧ (rowMessage row).payload.length + 4 < 2 ^ 31) :
    (rows.map fun row => ((rowMessage row).code, (rowMessage row).payload)).mapM decodeRow =
      some (rows.map (·.map some)) := by
  rw [mapM_eq_some_iff, List.forall₂_map_left_iff, List.forall₂_map_right_iff, List.forall₂_same]
  intro row hrow
  exact decodeRow_rowMessage (h row hrow).1 (h row hrow).2

/-! ## The round trip -/

namespace ResultSet

variable (r : ResultSet)

def messages : List Protocol.Message :=
  descriptionMessage r.columns :: r.rows.map rowMessage

theorem encode_eq : r.encode = r.messages.flatMap Protocol.Message.bytes := by
  rw [encode, messages, List.flatMap_cons, rowDescription_eq, List.flatMap_map]
  congr 2
  exact funext dataRow_eq

theorem messages_fit : ∀ m ∈ r.messages, m.payload.length + 4 < 2 ^ 31 := by
  have hdescription := r.description_fits
  have hrows := r.rows_fit
  simp only [rowDescription_eq, dataRow_eq, Protocol.length_bytes] at hdescription hrows
  rw [messages, List.forall_mem_cons, List.forall_mem_map]
  exact ⟨by omega, fun row hrow => by have := hrows row hrow; omega⟩

theorem decoded_as_encoded :
    decodeResultSet r.encode = some (r.columns.map describe, r.rows.map (·.map some)) := by
  have hfits := r.messages_fit
  have hall : getAll getMessage r.encode.length r.encode =
      some (r.messages.map fun m => (m.code, m.payload)) := by
    rw [encode_eq]
    refine Parses.all (fun m hm => ⟨?_, parses_message (hfits m hm)⟩) (Nat.le_refl _)
    simp [Protocol.Message.bytes]
  have hcolumns : getWhole (getCounted getColumn) (descriptionMessage r.columns).payload =
      some (r.columns.map describe) :=
    (parses_counted r.few fun c hc => parses_column (r.nulFree c hc)).whole
  rw [messages, List.forall_mem_cons, List.forall_mem_map] at hfits
  have hrows := @mapM_decodeRow r.rows fun row hrow =>
    ⟨(r.width row hrow).trans_lt r.few, hfits.2 row hrow⟩
  rw [decodeResultSet, hall, messages, List.map_cons, List.map_map]
  simp only [some_bind]
  rw [if_pos (show (descriptionMessage r.columns).code = 84 from rfl), hcolumns, some_bind,
    Function.comp_def, hrows]
  rfl

end ResultSet

namespace Sample

def roles : ResultSet where
  columns := [("role", .text), ("shard", .int4)]
  rows := [["replica", "0"], ["primary", "1"]]
  few := by decide
  width := by decide
  nulFree := by decide +kernel
  description_fits := by decide +kernel
  rows_fit := by decide +kernel

theorem roles_decoded : decodeResultSet roles.encode = some
    ([⟨"role", 0, 0, 25, -1, -1, 0⟩, ⟨"shard", 0, 0, 23, 4, -1, 0⟩],
      [[some "replica", some "0"], [some "primary", some "1"]]) :=
  roles.decoded_as_encoded

end Sample

end PgCat.Admin
