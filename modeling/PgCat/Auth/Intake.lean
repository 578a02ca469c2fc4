import PgCat.Auth.Login

/-!
# Intake — what a peer may send before it is authenticated

When a new connection is handled without a panic.  The lengths a peer writes are signed words that the
code turns into sizes, and the messages are read with getters that panic at the end of a buffer; for
each of these places there is a condition on the bytes:

* `LengthFits`: the length word of the first message leaves room for the code of the request;
* `Terminated`: the parameters end in a NUL;
* eight bytes in a cancel request;
* `PasswordFits`: the length word of the password message counts itself.

`EntryFits` puts them together along the path of the code: a place counts only if it is reached.
-/

namespace PgCat.Auth

open Lib Protocol

/-! ## Conditions on the bytes -/

/-- The length word is there and leaves room for a code, or the peer hangs up before this matters. -/
def LengthFits (input : Bytes) : Prop :=
  input.length < 4 ∨ 8 ≤ word input ∨ (4 ≤ word input ∧ (input.length : Int) < word input)

/-- The code, the payload and what follows, of a first message that is complete. -/
def packet (input : Bytes) : Option (Int × Bytes × Bytes) :=
  if 8 ≤ word input ∧ word input ≤ input.length then
    let message := input.take (word input).toNat
    some (word (message.drop 4), message.drop 8, input.drop (word input).toNat)
  else none

/-- Every string of the payload ends in a NUL. -/
def Terminated (payload : Bytes) : Prop :=
  payload = [] ∨ payload.getLast? = some 0

/-- Without overflow checks the four lowest lengths wrap around to sizes that can be allocated. -/
def PasswordFits (checks : Bool) (input : Bytes) : Prop :=
  ∀ rest, input = UInt8.ofNat 'p'.toNat :: rest → 4 ≤ rest.length →
    4 ≤ word rest ∨ (checks = false ∧ word rest < -2 ^ 31 + 4)

/-- The parameters, and the password if it is asked for. -/
def LoginFits (p : Pooler) (payload : Bytes) (writes : List Bool) (input : Bytes) : Prop :=
  Terminated payload ∧
    ∀ parameters username, parseStartup payload = some (.ok parameters) →
      parameters.lookup "user" = some username →
      ((Identity.ofParameters parameters username).admin = true ∨ p.adminOnly = false) →
      writes.head? = some true → PasswordFits p.checks input

/-- The message after a TLS request. -/
def AgainFits (p : Pooler) (writes : List Bool) (input : Bytes) : Prop :=
  LengthFits input ∧
    ∀ payload rest, packet input = some (protocolVersionNumber, payload, rest) →
      LoginFits p payload writes rest

def EntryFits (p : Pooler) (writes : List Bool) (input : Bytes) : Prop :=
  LengthFits input ∧
    ∀ code payload rest, packet input = some (code, payload, rest) →
      (code = cancelRequestCode → 8 ≤ payload.length) ∧
      (code = protocolVersionNumber → LoginFits p payload writes rest) ∧
      (code = sslRequestCode → writes.head? = some true →
        (p.tlsCertificate = none → AgainFits p writes.tail rest) ∧
        (p.tlsCertificate ≠ none → ∀ plain, p.accept rest = .ok plain → AgainFits p writes.tail plain))

/-! ## Lengths -/

section Lengths

variable {checks : Bool} {len : Int}

theorem subUsize_fits (hlen : -2 ^ 31 ≤ len ∧ len < 2 ^ 31) :
    (∃ k, subUsize checks (asUsize len) 4 = some k ∧ k ≤ isizeMax) ↔ 4 ≤ len := by
  by_cases hneg : len < 0
  · -- A negative length is a size above the largest allocation.
    have husize := asUsize_of_neg hneg (by omega)
    have hge : 4 ≤ asUsize len := by omega
    simp only [subUsize, if_pos hge, Option.some.injEq, exists_eq_left', isizeMax]
    omega
  · have husize := asUsize_of_nonneg (by omega) hlen.2
    by_cases hge : 4 ≤ asUsize len
    · simp only [subUsize, if_pos hge, Option.some.injEq, exists_eq_left', isizeMax]
      omega
    · cases checks with
      | true => simp [subUsize, hge]; omega
      | false =>
        simp only [subUsize, if_neg hge, Bool.false_eq_true, if_false, Option.some.injEq,
          exists_eq_left', isizeMax]
        omega

theorem subUsize_of_le (h : 4 ≤ len) (hlen : len < 2 ^ 31) :
    subUsize checks (asUsize len) 4 = some (len.toNat - 4) := by
  rw [asUsize_of_nonneg (by omega) hlen, subUsize, if_pos (by omega)]

theorem subI32_fits (hlen : -2 ^ 31 ≤ len ∧ len < 2 ^ 31) :
    (∃ k, (subI32 checks len 4).map asUsize = some k ∧ k ≤ isizeMax) ↔
      4 ≤ len ∨ (checks = false ∧ len < -2 ^ 31 + 4) := by
  by_cases hrange : -2 ^ 31 ≤ len - 4
  · have hsub : subI32 checks len 4 = some (len - 4) := by
      rw [subI32, if_pos ⟨hrange, by omega⟩]
    simp only [hsub, Option.map_some, Option.some.injEq, exists_eq_left', isizeMax]
    by_cases hneg : len - 4 < 0
    · rw [asUsize_of_neg hneg (by omega)]
      omega
    · rw [asUsize_of_nonneg (by omega) (by omega)]
      omega
  · cases checks with
    | true =>
      have hsub : subI32 true len 4 = none := by
        rw [subI32, if_neg (fun h => hrange h.1)]
        rfl
      have hnot : ¬ 4 ≤ len := by omega
      simp [hsub, hnot]
    | false =>
      -- The difference wraps around to a word near the largest one.
      have hwrap : toSigned 32 (ofSigned 32 (len - 4)) = len - 4 + 2 ^ 32 := by
        have hmod : (len - 4) % 2 ^ 32 = len - 4 + 2 ^ 32 := by omega
        unfold toSigned ofSigned
        rw [hmod, if_pos (by omega)]
        exact Int.toNat_of_nonneg (by omega)
      have hsub : subI32 false len 4 = some (len - 4 + 2 ^ 32) := by
        rw [subI32, if_neg (fun h => hrange h.1), hwrap]
        rfl
      simp only [hsub, Option.map_some, Option.some.injEq, exists_eq_left', isizeMax]
      rw [asUsize_of_nonneg (by omega) (by omega)]
      exact ⟨fun _ => .inr ⟨trivial, by omega⟩, fun _ => by omega⟩

end Lengths

/-! ## The first message -/

section First

variable {checks : Bool} {s s' : Socket}

theorem getI32_run (bs : Bytes) : getI32.run bs = if 4 ≤ bs.length then some (word bs, bs.drop 4) else none :=
  rfl

theorem readStartup_calm : Calm (readStartup checks) s ↔ s.input.length < 4 ∨ 4 ≤ word s.input := by
  simp only [readStartup, Calm.bind_iff, Calm.ofReadI32, true_and, readI32_ok, Calm.readVec_iff]
  constructor
  · intro h
    rcases Nat.lt_or_ge s.input.length 4 with hshort | hlong
    · exact .inl hshort
    · exact .inr ((subUsize_fits (word_range _)).mp (h _ _ ⟨hlong, rfl, rfl⟩))
  · rintro h len s' ⟨hlong, rfl, rfl⟩
    exact (subUsize_fits (word_range _)).mpr (h.resolve_left (by omega))

theorem readStartup_ok {bs : Bytes} : readStartup checks s = .ok bs s' ↔
    4 ≤ word s.input ∧ word s.input ≤ s.input.length ∧
      bs = (s.input.take (word s.input).toNat).drop 4 ∧
      s' = { s with input := s.input.drop (word s.input).toNat } := by
  have hrange := word_range s.input
  simp only [readStartup, bind_eq_ok_iff, readI32_ok, readVec_ok]
  constructor
  · rintro ⟨len, s₁, ⟨hlong, rfl, rfl⟩, k, hk, hmax, hread⟩
    have hfour := (subUsize_fits hrange).mp ⟨k, hk, hmax⟩
    rw [subUsize_of_le hfour hrange.2, Option.some.injEq] at hk
    obtain ⟨hle, rfl, rfl⟩ := readExact_ok.mp hread
    simp only [List.length_drop] at hle
    refine ⟨hfour, by omega, ?_, ?_⟩
    · rw [List.drop_take, hk]
    · rw [List.drop_drop, ← hk, Nat.add_sub_cancel' (by omega)]
  · rintro ⟨hfour, hle, rfl, rfl⟩
    refine ⟨word s.input, _, ⟨by omega, rfl, rfl⟩, _, subUsize_of_le hfour hrange.2,
      by unfold isizeMax; omega, readExact_ok.mpr ⟨?_, ?_, ?_⟩⟩
    · simp only [List.length_drop]
      omega
    · rw [List.drop_take]
    · rw [List.drop_drop, Nat.add_sub_cancel' (by omega)]

def ClientConnectionType.code : ClientConnectionType → Int
  | .startup => protocolVersionNumber
  | .tls => sslRequestCode
  | .cancelQuery => cancelRequestCode

variable {bytes : Bytes} {code : Int} {kind : ClientConnectionType}

theorem ofCode_eq_some : ClientConnectionType.ofCode code = some kind ↔ code = kind.code := by
  constructor
  · intro h
    unfold ClientConnectionType.ofCode at h
    split at h
    · cases h; assumption
    split at h
    · cases h; assumption
    split at h
    · cases h; assumption
    · cases h
  · rintro rfl
    cases kind with
    | startup => rfl
    | tls => rfl
    | cancelQuery => rfl

theorem requested_calm : Calm (requested code bytes) s := by
  unfold requested
  split
  · exact .ofPure _
  · exact .ofFailed _

theorem requested_ok {bytes' : Bytes} : requested code bytes s = .ok (kind, bytes') s' ↔
      code = kind.code ∧ bytes' = bytes ∧ s' = s := by
  rw [← ofCode_eq_some]
  unfold requested
  cases ClientConnectionType.ofCode code with
  | none => simp [throw_apply]
  | some kind' => simp [pure_apply, eq_comm, and_assoc]

theorem getStartup_calm : Calm (getStartup checks) s ↔ LengthFits s.input := by
  simp only [getStartup, Calm.bind_iff, readStartup_calm, readStartup_ok, Calm.unwrap_iff, getI32_run]
  unfold LengthFits
  constructor
  · rintro ⟨hlen, hget⟩
    rcases hlen with hshort | hfour
    · exact .inl hshort
    -- A message that is there must hold a code.
    by_cases hends : (s.input.length : Int) < word s.input
    · exact .inr (.inr ⟨hfour, hends⟩)
    · have hcode := (hget _ _ ⟨hfour, by omega, rfl, rfl⟩).1
      simp only [List.length_drop, List.length_take, Option.isSome_ite] at hcode
      exact .inr (.inl (by omega))
  · intro h
    refine ⟨by omega, ?_⟩
    rintro bs s' ⟨hfour, hle, rfl, rfl⟩
    refine ⟨?_, fun r s' _ => requested_calm⟩
    simp only [List.length_drop, List.length_take, Option.isSome_ite]
    omega

theorem getStartup_ok : getStartup checks s = .ok (kind, bytes) s' ↔
      ∃ rest, packet s.input = some (kind.code, bytes, rest) ∧ s' = { s with input := rest } := by
  simp only [getStartup, bind_eq_ok_iff, readStartup_ok, unwrap_ok, getI32_run, packet]
  constructor
  · rintro ⟨bs, s₁, ⟨hfour, hle, rfl, rfl⟩, ⟨code, payload⟩, s₂, ⟨hget, rfl⟩, hrequested⟩
    obtain ⟨hcode, rfl, rfl⟩ := requested_ok.mp hrequested
    split at hget
    · rename_i hroom
      simp only [List.length_drop, List.length_take] at hroom
      obtain ⟨rfl, rfl⟩ := Prod.mk.inj (Option.some.inj hget)
      exact ⟨_, by rw [if_pos ⟨by omega, hle⟩, List.drop_drop, ← hcode], rfl⟩
    · cases hget
  · rintro ⟨rest, hpacket, rfl⟩
    split at hpacket
    · rename_i hthere
      simp only [Option.some.injEq, Prod.mk.injEq] at hpacket
      obtain ⟨hcode, rfl, rfl⟩ := hpacket
      have hroom : 4 ≤ ((s.input.take (word s.input).toNat).drop 4).length := by
        simp only [List.length_drop, List.length_take]
        omega
      refine ⟨_, _, ⟨by omega, hthere.2, rfl, rfl⟩, _, _, ⟨if_pos hroom, rfl⟩, ?_⟩
      exact requested_ok.mpr ⟨hcode, by rw [List.drop_drop], rfl⟩
    · cases hpacket

end First

/-! ## Parameters -/

section Parameters

variable {bytes : Bytes}

theorem getCString_isSome : (getCString bytes).isSome ↔ 0 ∈ bytes := by
  induction bytes with
  | nil => simp [getCString]
  | cons c bytes ih =>
    unfold getCString
    by_cases hc : c = 0
    · simp [hc]
    · rw [if_neg hc, Option.isSome_map, ih, List.mem_cons]
      exact ⟨.inr, fun h => h.resolve_left (Ne.symm hc)⟩

theorem getCString_eq_some {rest : Bytes} {tmp : List Char}
    (h : getCString bytes = some (tmp, rest)) : ∃ taken, bytes = taken ++ 0 :: rest := by
  induction bytes generalizing tmp with
  | nil => cases h
  | cons c bytes ih =>
    unfold getCString at h
    split at h
    · rename_i hc
      cases h
      exact ⟨[], by rw [hc]; rfl⟩
    · obtain ⟨⟨tmp', rest'⟩, hrest, heq⟩ := Option.map_eq_some_iff.mp h
      cases heq
      obtain ⟨taken, rfl⟩ := ih hrest
      exact ⟨c :: taken, rfl⟩

theorem terminated_append {taken rest : Bytes} : Terminated (taken ++ 0 :: rest) ↔ Terminated rest := by
  unfold Terminated
  cases rest with
  | nil => simp
  | cons b rest => simp [List.getLast?_append, List.getLast?_cons_cons]

/-- The strings can be read exactly if the last one is ended. -/
theorem getCStrings_isSome {n : Nat} (hn : bytes.length ≤ n) :
    (getCStrings n bytes).isSome ↔ Terminated bytes := by
  induction n generalizing bytes with
  | zero =>
    obtain rfl := List.length_eq_zero_iff.mp (Nat.le_zero.mp hn)
    simp [getCStrings, Terminated]
  | succ n ih =>
    cases bytes with
    | nil => simp [getCStrings, Terminated]
    | cons c bytes =>
      simp only [getCStrings, Option.bind_eq_bind]
      cases hget : getCString (c :: bytes) with
      | none =>
        -- Without a NUL the last byte is not one.
        have hzero : (0 : UInt8) ∉ c :: bytes := by
          rw [← getCString_isSome, hget]
          simp
        have hnot : ¬ Terminated (c :: bytes) := by
          rintro (h | h)
          · cases h
          · exact hzero (List.mem_of_getLast? h)
        simp [hnot]
      | some r =>
        obtain ⟨tmp, rest⟩ := r
        obtain ⟨taken, heq⟩ := getCString_eq_some hget
        have hlength : rest.length ≤ n := by
          have := congrArg List.length heq
          simp only [List.length_cons, List.length_append] at this hn
          omega
        rw [heq, terminated_append, ← ih hlength]
        cases hrest : getCStrings n rest with
        | none => simp [hrest]
        | some buf => simp [hrest]

theorem parseParams_isSome : (parseParams bytes).isSome ↔ Terminated bytes := by
  rw [← getCStrings_isSome (Nat.le_refl _)]
  unfold parseParams
  cases getCStrings bytes.length bytes with
  | none => simp
  | some buf =>
    simp only [some_bind, Option.isSome_some, iff_true]
    split
    · rfl
    · rfl

theorem parseStartup_isSome : (parseStartup bytes).isSome ↔ Terminated bytes := by
  rw [← parseParams_isSome]
  unfold parseStartup
  cases parseParams bytes with
  | none => simp
  | some r =>
    cases r with
    | error err => simp
    | ok result =>
      by_cases huser : (result.lookup "user").isSome
      · simp [huser]
      · simp [huser]

end Parameters

/-! ## The password -/

section Login

variable {p : Pooler} {who : Identity} {s : Socket}

theorem readPassword_calm : Calm (readPassword p who) s ↔ PasswordFits p.checks s.input := by
  simp only [readPassword, Calm.bind_iff, Calm.ofReadU8, true_and, readU8_ok]
  unfold PasswordFits
  constructor
  · intro h rest hinput hlong
    have hcalm := h (UInt8.ofNat 'p'.toNat) { s with input := rest } ⟨hinput, rfl⟩
    rw [if_neg (by decide)] at hcalm
    have hvec := (Calm.bind_iff.mp hcalm).2 _ _ (readI32_ok.mpr ⟨hlong, rfl, rfl⟩)
    exact (subI32_fits (word_range rest)).mp ((Calm.readVec_iff _ _).mp hvec)
  · rintro h code s' ⟨hinput, hs'⟩
    split
    · exact .ofFailed _
    · rename_i hcode
      have hp : code = UInt8.ofNat 'p'.toNat := by
        have hchar : Char.ofUInt8 code = 'p' := not_not.mp hcode
        exact UInt8.toNat_inj.mp (congrArg Char.toNat hchar)
      refine Calm.bind_iff.mpr ⟨.ofReadI32 _, fun len s'' hlen => ?_⟩
      obtain ⟨hlong, rfl, -⟩ := readI32_ok.mp hlen
      exact (Calm.readVec_iff _ _).mpr
        ((subI32_fits (word_range _)).mpr (h s'.input (hp ▸ hinput) hlong))

theorem authenticateAdmin_calm (response : Bytes) : Calm (authenticateAdmin p who response) s := by
  unfold authenticateAdmin
  split
  · exact .seq (.ofWriteAll _ _) (fun _ _ => .ofFailed _)
  · exact .ofPure _

theorem errorResponse_calm (message : String) : Calm (errorResponse message) s :=
  .seq (.ofWriteAll _ _) (fun _ _ => .ofWriteAll _ _)

theorem passwordHash_cases (p : Pooler) (who : Identity) (pool : PoolView) (s : Socket) :
    (∃ hash, passwordHash p who pool s = .ok (some hash) s) ∨
      ∃ e, passwordHash p who pool s = .error (.failed e) s := by
  unfold passwordHash
  cases pool.password with
  | some password => exact .inl ⟨_, rfl⟩
  | none =>
    by_cases hconfigured : p.isAuthQueryConfigured = true
    · simp only [hconfigured, not_true_eq_false, if_false]
      cases pool.authHash with
      | some hash => exact .inl ⟨_, rfl⟩
      | none =>
        cases p.refetchMissing with
        | ok fetchedHash => exact .inl ⟨_, rfl⟩
        | error text => exact .inr ⟨_, rfl⟩
    · rw [if_pos hconfigured]
      exact .inr ⟨_, rfl⟩

theorem checkPassword_calm (hash response : Bytes) : Calm (checkPassword p who hash response) s := by
  unfold checkPassword
  split
  · refine .seq (.ofPropagate _) (fun fetched s' => ?_)
    split
    · exact .ofPure _
    · exact .seq (.ofWriteAll _ _) (fun _ _ => .ofFailed _)
  · exact .ofPure _

theorem authenticateUser_calm (response : Bytes) : Calm (authenticateUser p who response) s := by
  unfold authenticateUser
  split
  · exact .seq (errorResponse_calm _) (fun _ _ => .ofFailed _)
  · rename_i pool hpool
    rcases passwordHash_cases p who pool s with ⟨hash, hhash⟩ | ⟨e, hfailed⟩
    · refine Calm.bind_iff.mpr ⟨by simp [Calm, hhash], fun hash' s' hhash' => ?_⟩
      rw [hhash] at hhash'
      cases hhash'
      refine .seq ((Calm.unwrap_iff _).mpr rfl) (fun hash s' => ?_)
      refine .seq (checkPassword_calm _ _) (fun _ s' => ?_)
      split
      · exact .ofPure _
      · split
        · exact .ofPure _
        · exact .seq (errorResponse_calm _) (fun _ _ => .ofFailed _)
    · exact Calm.bind_iff.mpr ⟨by simp [Calm, hfailed], by simp [hfailed]⟩

theorem authenticate_calm (response : Bytes) : Calm (authenticate p who response) s := by
  refine .seq ?_ (fun granted s' => ?_)
  · unfold checkResponse
    split
    · exact authenticateAdmin_calm _
    · exact authenticateUser_calm _
  · exact .seq (.ofWriteAll _ _) (fun _ _ => .seq (.ofWriteAll _ _) (fun _ _ =>
      .seq (.ofWriteAll _ _) (fun _ _ => .seq (.ofWriteAll _ _) (fun _ _ => .ofPure _))))

theorem login_calm : Calm (login p who) s ↔
    ((who.admin = true ∨ p.adminOnly = false) → s.writes.head? = some true →
      PasswordFits p.checks s.input) := by
  unfold login
  by_cases hkicked : ¬ who.admin = true ∧ p.adminOnly = true
  · rw [if_pos hkicked]
    have hout : ¬ (who.admin = true ∨ p.adminOnly = false) := by simp [hkicked]
    exact ⟨fun _ h => absurd h hout, fun _ => .seq (.ofWriteAll _ _) (fun _ _ => .ofFailed _)⟩
  · rw [if_neg hkicked]
    have hin : who.admin = true ∨ p.adminOnly = false := by
      simpa [Classical.or_iff_not_imp_left] using hkicked
    have hpassword : ∀ s' : Socket, Calm (readPassword p who >>= authenticate p who) s' ↔
        PasswordFits p.checks s'.input := by
      intro s'
      rw [Calm.bind_iff, readPassword_calm]
      exact and_iff_left fun _ _ _ => authenticate_calm _
    simp only [hin, true_implies, md5Challenge, send, Calm.write_bind, hpassword]

/-- Parameters that are rejected end the startup; those that are accepted name a user. -/
theorem clientStartup_calm {payload : Bytes} :
    Calm (Client.startup p payload) s ↔ LoginFits p payload s.writes s.input := by
  unfold Client.startup LoginFits
  rw [← parseStartup_isSome, Calm.bind_iff, Calm.unwrap_iff]
  refine and_congr_right fun hsome => ?_
  obtain ⟨r, hr⟩ := Option.isSome_iff_exists.mp hsome
  simp only [unwrap_ok, hr, Option.some.injEq]
  cases r with
  | error err =>
    constructor
    · intro _ parameters username h
      cases h
    · rintro - _ _ ⟨rfl, rfl⟩
      exact .ofFailed _
  | ok parameters =>
    constructor
    · intro h parameters' username hparameters huser
      cases hparameters
      have hlogin := Calm.propagate_bind.mp (h _ _ ⟨rfl, rfl⟩) parameters rfl
      rw [huser] at hlogin
      exact login_calm.mp hlogin
    · rintro h _ _ ⟨rfl, rfl⟩
      refine Calm.propagate_bind.mpr fun _ hparameters => ?_
      cases hparameters
      split
      · rename_i username huser
        exact login_calm.mpr (h parameters username rfl huser)
      · exact .ofFailed _

theorem clientCancel_calm {payload : Bytes} : Calm (Client.cancel payload) s ↔ 8 ≤ payload.length := by
  simp only [Client.cancel, Calm.bind_iff, Calm.unwrap_iff, unwrap_ok, getI32_run]
  rcases Nat.lt_or_ge payload.length 4 with hshort | hlong
  · simp [Nat.not_le.mpr hshort]
    omega
  · simp [hlong]
    omega

theorem startupAgain_calm {channel : String} :
    Calm (startupAgain p channel) s ↔ AgainFits p s.writes s.input := by
  unfold startupAgain AgainFits
  rw [Calm.bind_iff, getStartup_calm]
  refine and_congr_right fun _ => ?_
  constructor
  · intro h payload rest hpacket
    exact clientStartup_calm.mp (h (.startup, payload) { s with input := rest }
      (getStartup_ok.mpr ⟨rest, hpacket, rfl⟩))
  · rintro h ⟨kind, payload⟩ s' hstartup
    obtain ⟨rest, hpacket, rfl⟩ := getStartup_ok.mp hstartup
    cases kind with
    | startup => exact clientStartup_calm.mpr (h payload rest hpacket)
    | tls => exact .ofFailed _
    | cancelQuery => exact .ofFailed _

theorem startupTls_calm : Calm (startupTls p) s ↔
    ∀ plain, p.accept s.input = .ok plain → AgainFits p s.writes plain := by
  simp only [startupTls, Calm.get_bind, Calm.propagate_bind, Calm.modify_bind, startupAgain_calm]

theorem answerTls_calm :
    Calm (if p.tlsCertificate ≠ none then do
        send (utf8 "S")
        startupTls p
      else do
        send (utf8 "N")
        startupAgain p "plain") s ↔
      (s.writes.head? = some true →
        (p.tlsCertificate = none → AgainFits p s.writes.tail s.input) ∧
        (p.tlsCertificate ≠ none → ∀ plain, p.accept s.input = .ok plain →
          AgainFits p s.writes.tail plain)) := by
  by_cases hcert : p.tlsCertificate = none
  · rw [if_neg (not_not.mpr hcert), send, Calm.write_bind, startupAgain_calm]
    simp [hcert]
  · rw [if_pos hcert, send, Calm.write_bind, startupTls_calm]
    simp [hcert]

/-- A new connection is handled without a panic exactly if what the peer sends fits. -/
theorem entrypoint_calm_iff (p : Pooler) (s : Socket) :
    Calm (clientEntrypoint p) s ↔ EntryFits p s.writes s.input := by
  unfold clientEntrypoint EntryFits
  rw [Calm.bind_iff, getStartup_calm]
  refine and_congr_right fun _ => ?_
  constructor
  · intro h code payload rest hpacket
    -- Each kind of request is a message that `get_startup` returns.
    have hcalm : ∀ kind : ClientConnectionType, code = kind.code → _ := fun kind hkind =>
      h (kind, payload) { s with input := rest } (getStartup_ok.mpr ⟨rest, hkind ▸ hpacket, rfl⟩)
    exact ⟨fun hcode => clientCancel_calm.mp (hcalm .cancelQuery hcode),
      fun hcode => clientStartup_calm.mp (hcalm .startup hcode),
      fun hcode => answerTls_calm.mp (hcalm .tls hcode)⟩
  · rintro h ⟨kind, payload⟩ s' hstartup
    obtain ⟨rest, hpacket, rfl⟩ := getStartup_ok.mp hstartup
    obtain ⟨hcancel, hstart, htls⟩ := h _ payload rest hpacket
    cases kind with
    | startup => exact clientStartup_calm.mpr (hstart rfl)
    | tls => exact answerTls_calm.mpr (htls rfl)
    | cancelQuery => exact clientCancel_calm.mpr (hcancel rfl)

end Login

namespace Sample

def pooler : Pooler where
  md5 := fun _ => ""
  checks := false
  adminOnly := false
  tlsCertificate := none
  accept := fun _ => .error .tlsError
  adminUsername := "admin_user"
  adminPassword := "admin_pass"
  version := "1.0.1"
  getPool := fun _ _ => none
  isAuthQueryConfigured := false
  refetchMissing := .error ""
  refetchWrong := .error .serverError
  debug := id
  salt := [0, 0, 0, 0]
  processId := 0
  secretKey := 0

/-- A length word that only counts itself, and nothing else. -/
theorem length_four_panics : ¬ Calm (clientEntrypoint pooler) ⟨putI32 4, [], []⟩ := by
  intro h
  obtain ⟨e, he⟩ := h .panicked ⟨[], [], []⟩ rfl
  cases he

end Sample

end PgCat.Auth
