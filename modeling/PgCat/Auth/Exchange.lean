import PgCat.Auth.Scram

/-!
# Exchange — the client against a server that knows the password

The client of `scram.rs` and the server of RFC 5802 exchange their messages.  The client deletes the
name of an attribute wherever it occurs in the attribute, not only at its front, so the exchange
succeeds exactly if neither the nonce nor the salt holds such a name.
-/

namespace PgCat.Auth

open Lib
open Scram (join authMessage)

def text (message : Bytes) : List Char :=
  (fromUtf8Lossy message).toList

def wire (message : List Char) : Bytes :=
  utf8 (String.ofList message)

@[simp] theorem text_wire (message : List Char) : text (wire message) = message := by
  simp [text, wire]

/-- The three messages of the client and the two of the server; does the server accept the client,
and the client the server? -/
def exchange (ext : Externals) (server : Scram.Server) (scram : ScramSha256) : Bool :=
  match Scram.readFirst (text scram.message) with
  | none => false
  | some (clientNonce, clientFirstBare) =>
    match scram.update ext (wire (server.first ext.crypto clientNonce)) with
    | .error _ => false
    | .ok (reply, scram') =>
      match server.final ext.crypto clientNonce clientFirstBare (text reply) with
      | none => false
      | some serverFinal => (scram'.finish ext (wire serverFinal)).isOk

/-- What `ScramSha256::new` draws from: printable ASCII except the comma. -/
def nonceChar (c : Char) : Prop :=
  0x21 ≤ c.toNat ∧ c.toNat ≤ 0x7e ∧ c ≠ ','

instance (c : Char) : Decidable (nonceChar c) :=
  inferInstanceAs (Decidable (_ ∧ _))

/-! ## The client's functions in the terms of RFC 5802 -/

section Client

variable (ext : Externals)

theorem hiLoop_eq (k : Crypto) (str salt : Bytes) (n m : Nat) :
    ScramSha256.hiLoop k str n (Scram.iterated k str salt m) (Scram.iteratedXor k str salt m) =
      Scram.iteratedXor k str salt (m + n) := by
  induction n generalizing m with
  | zero => rfl
  | succ n ih =>
    have hstep := ih (m + 1)
    rw [Nat.add_right_comm] at hstep
    exact hstep

theorem hi_eq (k : Crypto) (str salt : Bytes) (i : Nat) :
    ScramSha256.hi k str salt i = Scram.saltedPassword k str salt i := by
  have hloop := hiLoop_eq k str salt (i - 1) 0
  rw [Nat.zero_add] at hloop
  exact hloop

theorem readFirst_fromNonce {nonce : List Char} (hcomma : ',' ∉ nonce) (password : String) :
    Scram.readFirst (text (ScramSha256.fromNonce password (String.ofList nonce)).message) =
      some (nonce, join [['n', '='], 'r' :: '=' :: nonce]) := by
  have htext : text (ScramSha256.fromNonce password (String.ofList nonce)).message =
      join [['n'], [], ['n', '='], 'r' :: '=' :: nonce] := by
    simp [text, ScramSha256.fromNonce, join, List.intercalate]
  rw [htext, Scram.readFirst, Scram.splitOn_join _ (by simpa using hcomma) (by simp)]
  rfl

theorem parse_first {k : Crypto} {server : Scram.Server} {nonce : List Char}
    (hcomma : ',' ∉ nonce ++ server.nonce) :
    Message.parse (wire (server.first k nonce)) =
      if server.iterations < 2 ^ 32 then
        .ok ⟨String.ofList (replaceChars ['r', '='] [] (nonce ++ server.nonce)),
          String.ofList (replaceChars ['s', '='] [] (k.base64.encode server.salt)), server.iterations⟩
      else .error (.protocolSyncError "SCRAM") := by
  have hdigits : ∀ c ∈ Nat.toDigits 10 server.iterations, c.isDigit = true := fun c hc =>
    Nat.isDigit_of_mem_toDigits (by decide) (by decide) hc
  have hcommas : ∀ a ∈ ['r' :: '=' :: nonce ++ server.nonce,
      's' :: '=' :: k.base64.encode server.salt,
      'i' :: '=' :: Nat.toDigits 10 server.iterations], ',' ∉ a := by
    have hsalt := k.base64.comma_free server.salt
    have hcount : ',' ∉ Nat.toDigits 10 server.iterations := fun hmem => by
      have := hdigits _ hmem
      simp at this
    simpa using ⟨by simpa using hcomma, hsalt, hcount⟩
  -- A decimal number holds no name of an attribute.
  have hcount : replaceChars ['i', '='] [] (Nat.toDigits 10 server.iterations) =
      Nat.toDigits 10 server.iterations := by
    refine replaceChars_of_not_infix fun hinfix => ?_
    have hmem : '=' ∈ Nat.toDigits 10 server.iterations := hinfix.subset (by simp)
    have hdigit := hdigits _ hmem
    simp at hdigit
  have hsplit : (fromUtf8Lossy (wire (server.first k nonce))).toList.splitOn ',' =
      ['r' :: '=' :: nonce ++ server.nonce, 's' :: '=' :: k.base64.encode server.salt,
        'i' :: '=' :: Nat.toDigits 10 server.iterations] := by
    have htext := text_wire (server.first k nonce)
    unfold text at htext
    rw [htext]
    exact Scram.splitOn_join _ hcommas (by simp)
  have hthird : (replaceText "i=" "" (String.ofList ('i' :: '=' ::
      Nat.toDigits 10 server.iterations))).toList = Nat.toDigits 10 server.iterations := by
    simp [replaceText, replaceChars_pair, hcount]
  unfold Message.parse
  rw [hsplit]
  simp only [List.map_cons, List.map_nil, hthird, parseU32,
    parseUnsigned_of_parseNat (parseNat_toDigits _)]
  by_cases hlt : server.iterations < 2 ^ 32
  · rw [if_pos hlt, if_pos (by omega)]
    simp [replaceText, replaceChars_pair]
  · rw [if_neg hlt, if_neg (by omega)]

theorem answer_eq (scram : ScramSha256) (message : Bytes) (nonce : List Char) (salted : Digest) :
    let auth := authMessage (join [['n', '='], 'r' :: '=' :: scram.nonce.toList]) (text message)
      (join ['c' :: '=' :: ext.crypto.base64.encode (utf8 Scram.gs2Header), 'r' :: '=' :: nonce])
    let answer := scram.answer ext message (String.ofList nonce) salted
    answer.2.authMessage = auth ∧ answer.2.saltedPassword = salted ∧
      text answer.1 = join ['c' :: '=' :: ext.crypto.base64.encode (utf8 Scram.gs2Header),
        'r' :: '=' :: nonce,
        'p' :: '=' :: ext.crypto.base64.encode (Scram.clientProof ext.crypto salted auth).toList] := by
  have hauth : (scram.answer ext message (String.ofList nonce) salted).2.authMessage =
      authMessage (join [['n', '='], 'r' :: '=' :: scram.nonce.toList]) (text message)
        (join ['c' :: '=' :: ext.crypto.base64.encode (utf8 Scram.gs2Header), 'r' :: '=' :: nonce]) := by
    apply String.toList_inj.mp
    simp [ScramSha256.answer, authMessage, join, List.intercalate, text, Scram.gs2Header]
  refine ⟨hauth, rfl, ?_⟩
  rw [← hauth]
  simp [ScramSha256.answer, text, ← utf8_append, join, List.intercalate, Scram.gs2Header,
    Scram.clientProof, Scram.clientKey, Scram.clientSignature, Scram.storedKey]

theorem finish_signature (scram : ScramSha256) :
    scram.finish ext (wire ('v' :: '=' :: ext.crypto.base64.encode
      (Scram.serverSignature ext.crypto scram.saltedPassword scram.authMessage).toList)) = .ok () := by
  generalize hsignature :
    Scram.serverSignature ext.crypto scram.saltedPassword scram.authMessage = signature
  have hwire : wire ('v' :: '=' :: ext.crypto.base64.encode signature.toList) =
      utf8 "v=" ++ utf8 (String.ofList (ext.crypto.base64.encode signature.toList)) := by
    rw [← utf8_append]
    exact congrArg utf8 (String.toList_inj.mp (by simp))
  have hlength : 4 ≤ (wire ('v' :: '=' :: ext.crypto.base64.encode signature.toList)).length := by
    have hchars := length_le_utf8 (String.ofList ('v' :: '=' :: ext.crypto.base64.encode signature.toList))
    have hencode := ext.crypto.base64.length_encode signature.toList
    simp only [String.toList_ofList, List.length_cons, hencode, Vector.length_toList] at hchars
    exact le_trans (by omega) hchars
  have hparse : FinalMessage.parse (wire ('v' :: '=' :: ext.crypto.base64.encode signature.toList)) =
      .ok ⟨String.ofList (ext.crypto.base64.encode signature.toList)⟩ := by
    have hv : utf8 "v=" <+: wire ('v' :: '=' :: ext.crypto.base64.encode signature.toList) :=
      ⟨_, hwire.symm⟩
    unfold FinalMessage.parse
    rw [if_neg (by simp only [hv, not_true_eq_false, false_or]; omega), hwire]
    have hdrop : (utf8 "v=" ++ utf8 (String.ofList (ext.crypto.base64.encode signature.toList))).drop 2 =
        utf8 (String.ofList (ext.crypto.base64.encode signature.toList)) := rfl
    rw [hdrop, fromUtf8Lossy_utf8]
  unfold ScramSha256.finish
  rw [hparse]
  simp only [String.toList_ofList, ext.crypto.base64.decode_encode, ← hsignature]
  exact if_pos rfl

/-- The client's answer to a challenge of a server that knows its password. -/
theorem update_first {password : String} {nonce : List Char} {server : Scram.Server}
    (hsecret : server.secret = normalize ext (utf8 password))
    (hcomma : ',' ∉ nonce ++ server.nonce) :
    (ScramSha256.fromNonce password (String.ofList nonce)).update ext
        (wire (server.first ext.crypto nonce)) =
      if server.iterations < 2 ^ 32 ∧ nonce <+: replaceChars ['r', '='] [] (nonce ++ server.nonce) ∧
          ¬ ['s', '='] <:+: ext.crypto.base64.encode server.salt then
        .ok ((ScramSha256.fromNonce password (String.ofList nonce)).answer ext
          (wire (server.first ext.crypto nonce))
          (String.ofList (replaceChars ['r', '='] [] (nonce ++ server.nonce)))
          (server.salted ext.crypto))
      else .error (.protocolSyncError "SCRAM") := by
  have hnonce : (ScramSha256.fromNonce password (String.ofList nonce)).nonce.toList = nonce := by
    simp [ScramSha256.fromNonce]
  have hpassword : (ScramSha256.fromNonce password (String.ofList nonce)).password = password := rfl
  unfold ScramSha256.update
  rw [parse_first hcomma]
  by_cases hcount : server.iterations < 2 ^ 32
  · rw [if_pos hcount]
    simp only [hnonce, String.toList_ofList, hpassword, hi_eq, ← hsecret,
      ext.crypto.base64.decode_deleted server.salt (show 's' ≠ '=' by decide), hcount, true_and]
    by_cases hecho : nonce <+: replaceChars ['r', '='] [] (nonce ++ server.nonce)
    · by_cases hsalt : ['s', '='] <:+: ext.crypto.base64.encode server.salt
      · simp [hecho, hsalt]
      · simp only [hecho, hsalt, not_true_eq_false, if_false, not_false_eq_true, and_self, if_true]
        rfl
    · simp [hecho]
  · rw [if_neg hcount, if_neg (fun h => hcount h.1)]

end Client

/-! ## The exchange -/

section Exchange

variable {ext : Externals} {password : String} {nonce : List Char} {server : Scram.Server}

theorem echo_of_exchange (hsecret : server.secret = normalize ext (utf8 password))
    (hnonce : ',' ∉ nonce) (hcomma : ',' ∉ nonce ++ server.nonce)
    (h : exchange ext server (.fromNonce password (String.ofList nonce)) = true) :
    replaceChars ['r', '='] [] (nonce ++ server.nonce) = nonce ++ server.nonce ∧
      ¬ ['s', '='] <:+: ext.crypto.base64.encode server.salt ∧ server.iterations < 2 ^ 32 := by
  unfold exchange at h
  simp only [readFirst_fromNonce hnonce, update_first ext hsecret hcomma] at h
  by_cases hanswer : server.iterations < 2 ^ 32 ∧
      nonce <+: replaceChars ['r', '='] [] (nonce ++ server.nonce) ∧
        ¬ ['s', '='] <:+: ext.crypto.base64.encode server.salt
  · refine ⟨?_, hanswer.2.2, hanswer.1⟩
    by_contra hne
    rw [if_pos hanswer] at h
    obtain ⟨_, _, htext⟩ := answer_eq ext (.fromNonce password (String.ofList nonce))
      (wire (server.first ext.crypto nonce)) (replaceChars ['r', '='] [] (nonce ++ server.nonce))
      (server.salted ext.crypto)
    have hdeleted : ',' ∉ replaceChars ['r', '='] [] (nonce ++ server.nonce) := fun hmem =>
      hcomma (mem_of_mem_replaceFrom hmem)
    simp only [htext] at h
    rw [server.final_of_nonce_ne ext.crypto hne] at h
    · cases h
    · have hbinding := ext.crypto.base64.comma_free (utf8 Scram.gs2Header)
      simpa using ⟨hbinding, hdeleted, ext.crypto.base64.comma_free _⟩
  · rw [if_neg hanswer] at h
    cases h

theorem exchange_of_echo (hsecret : server.secret = normalize ext (utf8 password))
    (hnonce : ',' ∉ nonce) (hcomma : ',' ∉ nonce ++ server.nonce)
    (hecho : replaceChars ['r', '='] [] (nonce ++ server.nonce) = nonce ++ server.nonce)
    (hsalt : ¬ ['s', '='] <:+: ext.crypto.base64.encode server.salt)
    (hcount : server.iterations < 2 ^ 32) :
    exchange ext server (.fromNonce password (String.ofList nonce)) = true := by
  have hanswer : server.iterations < 2 ^ 32 ∧
      nonce <+: replaceChars ['r', '='] [] (nonce ++ server.nonce) ∧
        ¬ ['s', '='] <:+: ext.crypto.base64.encode server.salt := by
    rw [hecho]
    exact ⟨hcount, List.prefix_append nonce server.nonce, hsalt⟩
  obtain ⟨hauth, hsalted, htext⟩ := answer_eq ext (.fromNonce password (String.ofList nonce))
    (wire (server.first ext.crypto nonce)) (nonce ++ server.nonce) (server.salted ext.crypto)
  have hclient : (ScramSha256.fromNonce password (String.ofList nonce)).nonce.toList = nonce := by
    simp [ScramSha256.fromNonce]
  have hfinish := finish_signature ext
    ((ScramSha256.fromNonce password (String.ofList nonce)).answer ext
      (wire (server.first ext.crypto nonce)) (String.ofList (nonce ++ server.nonce))
      (server.salted ext.crypto)).2
  rw [hsalted, hauth, hclient, text_wire] at hfinish
  unfold exchange
  simp only [readFirst_fromNonce hnonce, update_first ext hsecret hcomma]
  rw [if_pos hanswer, hecho]
  dsimp only
  rw [htext, hclient, text_wire, ← List.cons_append, ← List.cons_append,
    server.final_of_proof ext.crypto rfl hcomma rfl]
  dsimp only
  rw [List.cons_append, List.cons_append, hfinish]
  rfl

end Exchange

/-- The exchange with a server that knows the password succeeds exactly if the name of an attribute
occurs neither in the nonce nor in the encoded salt, and the iteration count fits. -/
theorem exchange_succeeds_iff (ext : Externals) (password : String) (nonce : List Char)
    (hnonce : ∀ c ∈ nonce, nonceChar c) (server : Scram.Server)
    (hsecret : server.secret = normalize ext (utf8 password)) (hsuffix : ',' ∉ server.nonce) :
    exchange ext server (.fromNonce password (String.ofList nonce)) = true ↔
      ¬ ['r', '='] <:+: nonce ++ server.nonce ∧
        ¬ ['s', '='] <:+: ext.crypto.base64.encode server.salt ∧ server.iterations < 2 ^ 32 := by
  have hcomma : ',' ∉ nonce := fun hmem => (hnonce ',' hmem).2.2 rfl
  have hcommas : ',' ∉ nonce ++ server.nonce := by simpa using ⟨hcomma, hsuffix⟩
  rw [← replaceChars_eq_self_iff (show ['r', '='] ≠ [] by simp)]
  constructor
  · exact echo_of_exchange hsecret hcomma hcommas
  · rintro ⟨hecho, hsalt, hcount⟩
    exact exchange_of_echo hsecret hcomma hcommas hecho hsalt hcount

namespace Sample

/-- Digests that are all zero, and standard base64. -/
def ext : Externals where
  crypto := ⟨fun _ _ => .zero, fun _ => .zero, .standard⟩
  saslprep := some

def server : Scram.Server where
  secret := utf8 "foobar"
  salt := [0x7e, 0xcd, 0xc8, 0x5c, 0x1c, 0xbb, 0x53, 0xbf, 0x88, 0xbd, 0x58, 0xd9]
  iterations := 4096
  nonce := "jx/oIRLs02gGSHcw1KEty3eY".toList

theorem nonceChars_of_all {cs : List Char} (h : cs.all (fun c => decide (nonceChar c)) = true) :
    ∀ c ∈ cs, nonceChar c :=
  fun c hc => of_decide_eq_true (List.all_eq_true.mp h c hc)

/-- A nonce that happens to hold the name of its attribute. -/
theorem nonce_with_name_fails :
    ∃ nonce : List Char, (∀ c ∈ nonce, nonceChar c) ∧
      server.secret = normalize ext (utf8 "foobar") ∧ ',' ∉ server.nonce ∧ 1 ≤ server.iterations ∧
        exchange ext server (.fromNonce "foobar" (String.ofList nonce)) = false :=
  ⟨"9IZ2O01zb9IgiIZ1WJr=gpJB".toList, nonceChars_of_all (by decide +kernel), by decide, by decide,
    by decide, by decide +kernel⟩

theorem recorded_nonce_succeeds :
    exchange ext server (.fromNonce "foobar" (String.ofList "9IZ2O01zb9IgiIZ1WJ/zgpJB".toList)) = true :=
  (exchange_succeeds_iff ext "foobar" "9IZ2O01zb9IgiIZ1WJ/zgpJB".toList
    (nonceChars_of_all (by decide +kernel)) server (by decide) (by decide)).mpr
    ⟨by decide +kernel, by decide +kernel, by decide⟩

end Sample

end PgCat.Auth
