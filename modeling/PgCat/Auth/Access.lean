import PgCat.Auth.Intake

/-!
# Access — who is let in

`Admits` is the rule of `Client::startup` without the socket: which answer to the challenge opens a pool, or
the admin database.  `authenticate` follows the rule exactly, and no stream of bytes gets a client past
`client_entrypoint` by another way, except to cancel a query.

The rule is weaker than one would expect: a pool with a password in the configuration also opens to the
hash its server returns, since a wrong answer makes the pooler ask for that hash.
-/

namespace PgCat.Auth

open Lib Protocol

section Rule

variable (p : Pooler) (who : Identity)

/-- The hash of a pool an answer is compared with first, under the salt of the challenge. -/
def knownHash (pool : PoolView) : Option Bytes :=
  match pool.password with
  | some password => some (md5HashPassword p.md5 who.username password p.salt)
  | none =>
    if p.isAuthQueryConfigured = true then
      (pool.authHash <|> p.refetchMissing.toOption).map (md5HashSecondPass p.md5 · p.salt)
    else none

/-- The answer opens the pool: it is the hash known, or the one that is fetched instead. -/
def PoolView.Opens (pool : PoolView) (response : Bytes) : Prop :=
  ∃ known, knownHash p who pool = some known ∧
    (known = response ∨
      ∃ fetched, p.refetchWrong = .ok fetched ∧ md5HashSecondPass p.md5 fetched p.salt = response)

def Admits (response : Bytes) : Prop :=
  if who.admin = true then md5HashPassword p.md5 p.adminUsername p.adminPassword p.salt = response
  else ∃ pool, p.getPool who.poolName who.username = some pool ∧ pool.Opens p who response ∧
    (pool.validated = true ∨ pool.validate = .ok ())

end Rule

variable {p : Pooler} {who : Identity} {response : Bytes} {s s' : Socket}

/-! ## The rule is followed -/

theorem passwordHash_eq (p : Pooler) (who : Identity) (pool : PoolView) (s : Socket) :
    (∃ known, knownHash p who pool = some known ∧ passwordHash p who pool s = .ok (some known) s) ∨
      knownHash p who pool = none ∧ ∃ e, passwordHash p who pool s = .error e s := by
  unfold passwordHash knownHash
  cases pool.password with
  | some password => exact .inl ⟨_, rfl, rfl⟩
  | none =>
    by_cases hconfigured : p.isAuthQueryConfigured = true
    · simp only [hconfigured, not_true_eq_false, if_false, if_true]
      cases pool.authHash with
      | some hash => exact .inl ⟨_, rfl, rfl⟩
      | none =>
        cases p.refetchMissing with
        | ok fetched => exact .inl ⟨_, rfl, rfl⟩
        | error text => exact .inr ⟨rfl, _, rfl⟩
    · rw [if_pos hconfigured, if_neg hconfigured]
      exact .inr ⟨rfl, _, rfl⟩

@[simp] theorem then_throw_ok {α β : Type} {m : Handshake β} {e : Halt Error} {a : α} :
    ((m >>= fun _ => throw e) s = .ok a s') ↔ False := by
  simp [bind_eq_ok_iff, throw_apply]

theorem checkPassword_ok {hash : Bytes} {u : Unit} :
    checkPassword p who hash response s = .ok u s' ↔ s' = s ∧ (hash = response ∨
      ∃ fetched, p.refetchWrong = .ok fetched ∧ md5HashSecondPass p.md5 fetched p.salt = response) := by
  unfold checkPassword
  by_cases hhash : hash = response
  · simp [hhash, pure_apply, eq_comm]
  · cases p.refetchWrong with
    | error e => simp [hhash, propagate, bind_eq_ok_iff, throw_apply]
    | ok fetched =>
      by_cases hmatch : md5HashSecondPass p.md5 fetched p.salt = response
      · simp [hhash, hmatch, propagate, pure_apply, eq_comm]
      · simp [hhash, hmatch, propagate]

theorem authenticateUser_ok {granted : Bool × Bytes} :
    authenticateUser p who response s = .ok granted s' ↔
      ∃ pool, p.getPool who.poolName who.username = some pool ∧ pool.Opens p who response ∧
        (pool.validated = true ∨ pool.validate = .ok ()) ∧
        (pool.transactionMode, pool.serverInfo) = granted ∧ s = s' := by
  unfold authenticateUser
  cases p.getPool who.poolName who.username with
  | none => simp
  | some pool =>
    simp only [Option.some.injEq, exists_eq_left', PoolView.Opens]
    rcases passwordHash_eq p who pool s with ⟨known, hknown, hhash⟩ | ⟨hunknown, e, hhash⟩
    · rw [bind_of_ok hhash, bind_of_ok (unwrap_ok.mpr ⟨rfl, rfl⟩)]
      simp only [bind_eq_ok_iff, checkPassword_ok, hknown, Option.some.injEq, exists_eq_left']
      by_cases hvalidated : pool.validated = true
      · simp [hvalidated, pure_apply]
      · cases pool.validate with
        | ok u => simp [hvalidated, pure_apply]
        | error err => simp [hvalidated]
    · rw [bind_of_error hhash, hunknown]
      simp

theorem checkResponse_ok : (∃ granted, checkResponse p who response s = .ok granted s') ↔
    Admits p who response ∧ s' = s := by
  unfold checkResponse Admits
  by_cases hadmin : who.admin = true
  · simp only [hadmin, if_true, authenticateAdmin]
    split
    · rename_i hwrong
      simp [hwrong]
    · rename_i hright
      simp [not_not.mp hright, pure_apply, eq_comm]
  · rw [if_neg hadmin, if_neg hadmin]
    simp only [authenticateUser_ok]
    constructor
    · rintro ⟨_, pool, hpool, hopens, hvalid, -, rfl⟩
      exact ⟨⟨pool, hpool, hopens, hvalid⟩, rfl⟩
    · rintro ⟨⟨pool, hpool, hopens, hvalid⟩, rfl⟩
      exact ⟨_, pool, hpool, hopens, hvalid, rfl, rfl⟩

/-- Who asks for a session gets it exactly if the rule admits the answer, and the answers of the pooler can
be written. -/
theorem authenticate_iff_admits (p : Pooler) (who : Identity) (response : Bytes) (s : Socket) :
    (∃ client s', authenticate p who response s = .ok client s') ↔
      Admits p who response ∧ ∃ rest, s.writes = true :: true :: true :: true :: rest := by
  simp only [authenticate, authOk, backendKeyData, readyForQuery, send, bind_eq_ok_iff, writeAll_ok]
  constructor
  · rintro ⟨client, s', granted, _, hcheck, -, _, ⟨w₁, h₁, rfl⟩, -, _, ⟨w₂, h₂, rfl⟩, -, _, ⟨w₃, h₃, rfl⟩,
      -, _, ⟨w₄, h₄, rfl⟩, -⟩
    obtain ⟨hadmits, rfl⟩ := checkResponse_ok.mp ⟨granted, hcheck⟩
    dsimp only at h₂ h₃ h₄
    exact ⟨hadmits, w₄, by rw [h₁, h₂, h₃, h₄]⟩
  · rintro ⟨hadmits, rest, hwrites⟩
    obtain ⟨granted, hcheck⟩ := checkResponse_ok.mpr ⟨hadmits, rfl⟩
    exact ⟨_, _, granted, s, hcheck, (), _, ⟨_, hwrites, rfl⟩, (), _, ⟨_, rfl, rfl⟩, (), _, ⟨_, rfl, rfl⟩, (), _,
      ⟨_, rfl, rfl⟩, rfl⟩

/-! ## No other way -/

/-- The pooler goes on with a client that sent the startup message `payload`, and then `input`; the run has
ended in `s'`, and had written `before` up to the startup message. -/
structure Authenticated (p : Pooler) (payload input : Bytes) (before : List Bytes) (client : Client)
    (s' : Socket) (who : Identity) : Prop where
  parsed : parseStartup payload = some (.ok client.parameters)
  named : client.parameters.lookup "user" = some client.username
  identity : who = .ofParameters client.parameters client.username
  pool : client.poolName = who.poolName ∧ client.admin = who.admin
  /-- Only admins get in while the pooler shuts down. -/
  allowed : who.admin = true ∨ p.adminOnly = false
  /-- The challenge is written before anything that lets the client in. -/
  challenged : ∃ info, s'.sent = before ++ [(Message.ofChar 'R' (putI32 5 ++ p.salt)).bytes,
    (Message.ofChar 'R' (putI32 0)).bytes, info,
    (Message.ofChar 'K' (putI32 client.processId ++ putI32 client.secretKey)).bytes,
    (Message.ofChar 'Z' (utf8 "I")).bytes]
  /-- The input begins with the answer to it, and no more was read. -/
  answered : ∃ response, input = (Message.ofChar 'p' response).bytes ++ s'.input ∧ Admits p who response

/-- The stream of a peer begins with the startup message `payload`, and goes on with `rest`; a request for TLS
in front of it was answered with `reply`. -/
def Greets (p : Pooler) (payload rest : Bytes) (reply : List Bytes) (input : Bytes) : Prop :=
  (reply = [] ∧ packet input = some (protocolVersionNumber, payload, rest)) ∨
    ∃ first again, packet input = some (sslRequestCode, first, again) ∧
      ((p.tlsCertificate = none ∧ reply = [utf8 "N"] ∧
          packet again = some (protocolVersionNumber, payload, rest)) ∨
        ∃ plain, p.tlsCertificate ≠ none ∧ reply = [utf8 "S"] ∧ p.accept again = .ok plain ∧
          packet plain = some (protocolVersionNumber, payload, rest))

variable {client : Client}

theorem readPassword_ok (h : readPassword p who s = .ok response s') :
    s.input = (Message.ofChar 'p' response).bytes ++ s'.input ∧ s' = { s with input := s'.input } := by
  obtain ⟨code, s₁, hcode, h⟩ := bind_eq_ok h
  obtain ⟨hinput, hs₁⟩ := readU8_ok.mp hcode
  by_cases hp : Char.ofUInt8 code = 'p'
  · simp only [hp, ne_eq, not_true_eq_false, if_false] at h
    obtain ⟨len, s₂, hlen, h⟩ := bind_eq_ok h
    obtain ⟨hfour, rfl, rfl⟩ := readI32_ok.mp hlen
    obtain ⟨k, hsub, hk, hread⟩ := readVec_ok.mp h
    obtain ⟨hfits, rfl, rfl⟩ := readExact_ok.mp hread
    have hbyte : code = 112 := by
      have hnat : code.toUInt32.toNat = 112 := congrArg Char.toNat hp
      exact UInt8.toNat_inj.mp (by rw [UInt8.toNat_toUInt32] at hnat; exact hnat)
    have hword : putI32 (k + 4) = s₁.input.take 4 := by
      rw [size_of_subI32 hsub hk]
      exact putI32_size hfour 4
    refine ⟨?_, by rw [hs₁]⟩
    have hbytes : (Message.ofChar 'p' ((s₁.input.drop 4).take k)).bytes =
        112 :: s₁.input.take 4 ++ (s₁.input.drop 4).take k := by
      simp only [Message.bytes, Message.ofChar, List.length_take_of_le hfits, hword]
      rfl
    rw [hinput, hbytes, hbyte]
    simp
  · simp only [hp, ne_eq, not_false_eq_true, if_true] at h
    cases h

theorem startup_authenticated {payload : Bytes} (h : Client.startup p payload s = .ok client s') :
    ∃ who, Authenticated p payload s.input s.sent client s' who := by
  simp only [Client.startup, bind_eq_ok_iff, unwrap_ok, propagate_ok] at h
  obtain ⟨_, _, ⟨hparsed, rfl⟩, parameters, _, ⟨rfl, rfl⟩, h⟩ := h
  cases huser : parameters.lookup "user" with
  | none =>
    rw [huser] at h
    cases h
  | some username =>
    simp only [huser, login] at h
    split at h
    · simp at h
    · rename_i hallowed
      have hin : (Identity.ofParameters parameters username).admin = true ∨ p.adminOnly = false := by
        simpa [Classical.or_iff_not_imp_left] using hallowed
      simp only [authenticate, md5Challenge, authOk, backendKeyData, readyForQuery, send, bind_eq_ok_iff,
        writeAll_ok] at h
      obtain ⟨_, _, ⟨_, -, rfl⟩, response, s₂, hresponse, granted, _, hcheck, _, _, ⟨_, -, rfl⟩, _, _,
        ⟨_, -, rfl⟩, _, _, ⟨_, -, rfl⟩, _, _, ⟨_, -, rfl⟩, hclient⟩ := h
      obtain ⟨hadmits, rfl⟩ := checkResponse_ok.mp ⟨granted, hcheck⟩
      obtain ⟨hinput, hsocket⟩ := readPassword_ok hresponse
      cases hclient
      refine ⟨_, hparsed, huser, rfl, ⟨rfl, rfl⟩, hin, ⟨granted.2, ?_⟩, response, hinput, hadmits⟩
      rw [hsocket]
      simp

theorem startupAgain_authenticated {channel : String} (h : startupAgain p channel s = .ok client s') :
    ∃ payload rest, packet s.input = some (protocolVersionNumber, payload, rest) ∧
      ∃ who, Authenticated p payload rest s.sent client s' who := by
  obtain ⟨⟨kind, payload⟩, _, hfirst, h⟩ := bind_eq_ok h
  obtain ⟨rest, hpacket, rfl⟩ := getStartup_ok.mp hfirst
  cases kind with
  | startup => exact ⟨payload, rest, hpacket, startup_authenticated h⟩
  | tls => cases h
  | cancelQuery => cases h

/-- Whatever a peer sends, the pooler goes on with it only to cancel a query, or as the client its startup
message names, once it has answered the challenge. -/
theorem entrypoint_authenticated (p : Pooler) {s s' : Socket} {client : Client}
    (h : clientEntrypoint p s = .ok client s') :
    client.cancelMode = true ∨ ∃ payload rest reply, Greets p payload rest reply s.input ∧
      ∃ who, Authenticated p payload rest (s.sent ++ reply) client s' who := by
  obtain ⟨⟨kind, payload⟩, _, hfirst, h⟩ := bind_eq_ok h
  obtain ⟨rest, hpacket, rfl⟩ := getStartup_ok.mp hfirst
  cases kind with
  | startup =>
    obtain ⟨who, hwho⟩ := startup_authenticated h
    exact .inr ⟨payload, rest, [], .inl ⟨rfl, hpacket⟩, who, by rw [List.append_nil]; exact hwho⟩
  | cancelQuery =>
    simp only [Client.cancel, bind_eq_ok_iff] at h
    obtain ⟨_, _, -, _, _, -, hclient⟩ := h
    cases hclient
    exact .inl rfl
  | tls =>
    by_cases hcert : p.tlsCertificate = none
    · -- The peer is answered with an `N`, and goes on in plain text.
      simp only [hcert, ne_eq, not_true_eq_false, if_false] at h
      obtain ⟨_, _, hsend, h⟩ := bind_eq_ok h
      obtain ⟨_, -, rfl⟩ := writeAll_ok.mp hsend
      obtain ⟨payload', rest', hagain, hclient⟩ := startupAgain_authenticated h
      exact .inr ⟨payload', rest', _, .inr ⟨payload, rest, hpacket, .inl ⟨hcert, rfl, hagain⟩⟩, hclient⟩
    · simp only [hcert, ne_eq, not_false_eq_true, if_true] at h
      obtain ⟨_, _, hsend, h⟩ := bind_eq_ok h
      obtain ⟨_, -, rfl⟩ := writeAll_ok.mp hsend
      obtain ⟨_, _, ⟨⟩, h⟩ := bind_eq_ok h
      obtain ⟨plain, _, hplain, h⟩ := bind_eq_ok h
      obtain ⟨haccept, rfl⟩ := propagate_ok.mp hplain
      obtain ⟨_, _, ⟨⟩, h⟩ := bind_eq_ok h
      obtain ⟨payload', rest', hagain, hclient⟩ := startupAgain_authenticated h
      exact .inr ⟨payload', rest', _, .inr ⟨payload, rest, hpacket, .inr ⟨plain, hcert, rfl, haccept, hagain⟩⟩,
        hclient⟩

namespace Sample

/-- A digest of a text that is the text itself. -/
def saltedPooler : Pooler :=
  { pooler with md5 := fun bs => String.ofList (bs.map Char.ofUInt8), salt := [7, 11, 13, 17] }

/-- The startup message of the admin, and the answer to the challenge. -/
def adminLogin : Bytes :=
  putI32 31 ++ putI32 protocolVersionNumber ++ utf8 "user\x00a\x00database\x00pgcat\x00\x00" ++
    (Message.ofChar 'p' (utf8 "md5admin_passadmin_user" ++ [7, 11, 13, 17, 0])).bytes

theorem admin_authenticated : ∃ client s', clientEntrypoint saltedPooler ⟨adminLogin, List.replicate 5 true, []⟩ =
    .ok client s' ∧ client.cancelMode = false ∧ ∃ payload rest reply,
      Greets saltedPooler payload rest reply adminLogin ∧
        ∃ who, Authenticated saltedPooler payload rest ([] ++ reply) client s' who := by
  have hrun : clientEntrypoint saltedPooler ⟨adminLogin, List.replicate 5 true, []⟩ = .ok _ _ := rfl
  exact ⟨_, _, hrun, rfl, (entrypoint_authenticated saltedPooler hrun).resolve_left nofun⟩

end Sample

end PgCat.Auth
