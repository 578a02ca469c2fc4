import PgCat.Lib.Bytes

/-!
# Message — framed protocol messages

`read_message` hands on a code byte, a length word and a payload.  A `Message` keeps the code and
the payload; `Message.bytes` is the frame on the wire.  The two `kind` functions name the codes the
client loop and `Server::recv` branch on, and `readString` is the NUL-terminated read both the
router and the protocol code use.
-/

namespace PgCat.Protocol

open Lib

/-- A complete message, as `read_message` returns it. -/
structure Message where
  code : UInt8
  payload : Bytes
  deriving DecidableEq, Repr

namespace Message

/-- Code, big-endian length (payload and length word), payload. -/
def bytes (m : Message) : Bytes :=
  m.code :: putI32 (m.payload.length + 4) ++ m.payload

def size (m : Message) : Nat :=
  m.payload.length + 5

theorem getU8_bytes (m : Message) :
    getU8 m.bytes = some (m.code, putI32 (m.payload.length + 4) ++ m.payload) :=
  rfl

def ofChar (c : Char) (payload : Bytes) : Message :=
  ⟨UInt8.ofNat c.toNat, payload⟩

end Message

theorem length_bytes (m : Message) : m.bytes.length = m.payload.length + 5 := by
  simp [Message.bytes, putI32]
  omega

def bufferSize (ms : List Message) : Nat :=
  (ms.map Message.size).sum

def bufferBytes (ms : List Message) : Bytes :=
  ms.flatMap Message.bytes

/-! ## Messages a client sends -/

inductive FrontendKind
  | query
  | terminate
  | parse
  | bind
  | describe
  | execute
  | sync
  | copyData
  | copyDone
  | copyFail
  | other
  deriving DecidableEq, Repr

def FrontendKind.ofChar : Char → FrontendKind
  | 'Q' => .query
  | 'X' => .terminate
  | 'P' => .parse
  | 'B' => .bind
  | 'D' => .describe
  | 'E' => .execute
  | 'S' => .sync
  | 'd' => .copyData
  | 'c' => .copyDone
  | 'f' => .copyFail
  | _ => .other

def Message.frontend (m : Message) : FrontendKind :=
  .ofChar (Char.ofUInt8 m.code)

theorem Message.char_of_query {m : Message} (h : m.frontend = .query) : Char.ofUInt8 m.code = 'Q' := by
  unfold Message.frontend FrontendKind.ofChar at h
  split at h
  all_goals first | assumption | cases h

theorem Message.char_of_parse {m : Message} (h : m.frontend = .parse) : Char.ofUInt8 m.code = 'P' := by
  unfold Message.frontend FrontendKind.ofChar at h
  split at h
  all_goals first | assumption | cases h

theorem Message.char_of_bind {m : Message} (h : m.frontend = .bind) : Char.ofUInt8 m.code = 'B' := by
  unfold Message.frontend FrontendKind.ofChar at h
  split at h
  all_goals first | assumption | cases h

/-! ## Messages a server sends -/

inductive BackendKind
  | readyForQuery
  | commandComplete
  | dataRow
  | copyInResponse
  | copyOutResponse
  | copyData
  | copyDone
  | errorResponse
  | emptyQuery
  | rowDescription
  | parseComplete
  | bindComplete
  | parameterDescription
  | noData
  | portalSuspended
  | async
  | other
  deriving DecidableEq, Repr

def BackendKind.ofChar : Char → BackendKind
  | 'Z' => .readyForQuery
  | 'C' => .commandComplete
  | 'D' => .dataRow
  | 'G' => .copyInResponse
  | 'H' => .copyOutResponse
  | 'd' => .copyData
  | 'c' => .copyDone
  | 'E' => .errorResponse
  | 'I' => .emptyQuery
  | 'T' => .rowDescription
  | '1' => .parseComplete
  | '2' => .bindComplete
  | 't' => .parameterDescription
  | 'n' => .noData
  | 's' => .portalSuspended
  -- NoticeResponse, NotificationResponse and ParameterStatus belong to no reply.
  | 'N' => .async
  | 'A' => .async
  | 'S' => .async
  | _ => .other

def Message.backend (m : Message) : BackendKind :=
  .ofChar (Char.ofUInt8 m.code)

/-- Transaction status carried by `ReadyForQuery`. -/
inductive TxStatus
  | idle
  | inTransaction
  | failed
  deriving DecidableEq, Repr

def TxStatus.ofChar : Char → Option TxStatus
  | 'I' => some .idle
  | 'T' => some .inTransaction
  | 'E' => some .failed
  | _ => none

def Message.readyStatus (m : Message) : Option TxStatus :=
  if m.backend = .readyForQuery then
    m.payload.head?.bind fun b => TxStatus.ofChar (Char.ofUInt8 b)
  else
    none

theorem Message.backend_of_readyStatus {m : Message} {s : TxStatus} (h : m.readyStatus = some s) :
    m.backend = .readyForQuery := by
  by_contra hk
  simp [Message.readyStatus, hk] at h

/-! ## Building and reading -/

def simpleQuery (query : String) : Message :=
  .ofChar 'Q' (utf8 query ++ [0])

/-- `read_string`: everything up to the NUL (or the end, whose last byte is then dropped).  An empty
rest of the buffer makes the slice `..len - 1` panic. -/
def readString : Cursor String := fun bs =>
  let text := bs.takeWhile (· ≠ 0)
  let buf := bs.take (text.length + 1)
  if buf = [] then none else some (fromUtf8Lossy buf.dropLast, bs.drop (text.length + 1))

theorem readString_append {text : Bytes} (h : 0 ∉ text) (rest : Bytes) :
    readString (text ++ 0 :: rest) = some (fromUtf8Lossy text, rest) := by
  have hbytes : ∀ b ∈ text, decide (b ≠ 0) = true := by
    intro b hb
    exact decide_eq_true fun hzero => h (hzero ▸ hb)
  have htext : (text ++ 0 :: rest).takeWhile (· ≠ 0) = text := by
    rw [List.takeWhile_append_of_pos hbytes]
    simp
  have hsplit : text ++ 0 :: rest = (text ++ [0]) ++ rest := by simp
  have hlen : text.length + 1 = (text ++ [0]).length := by simp
  unfold readString
  dsimp only
  rw [htext, hsplit, hlen, List.take_left, List.drop_left, if_neg (by simp), List.dropLast_concat]

example : (simpleQuery "BEGIN").bytes = [81, 0, 0, 0, 10, 66, 69, 71, 73, 78, 0] := by decide

end PgCat.Protocol
