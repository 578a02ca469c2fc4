import PgCat.Auth.Exchange

/-!
# Signatures — what the client of `scram.rs` computes

Whatever the keyed hash and the hash are, and whoever sends the challenge: the client salts its password
as `Hi` of RFC 5802 does, its proof is one that a server which stores the hash of the key can check, and
it accepts the signature of the server's key over the same messages and nothing else.
-/

namespace PgCat.Auth

open Lib
open Scram (authMessage)

/-- The client's first message without its header. -/
def clientFirstBare (nonce : String) : String :=
  "n=,r=" ++ nonce

def clientFinalWithoutProof (nonce : String) : String :=
  "c=biws,r=" ++ nonce

section Challenge

variable {ext : Externals} {password nonce first : String} {m : Message} {salt : Bytes}

theorem update_of_parse (hparse : Message.parse (utf8 first) = .ok m)
    (hnonce : nonce.toList <+: m.nonce.toList) (hsalt : ext.crypto.base64.decode m.salt.toList = some salt) :
    (ScramSha256.fromNonce password nonce).update ext (utf8 first) =
      .ok ((ScramSha256.fromNonce password nonce).answer ext (utf8 first) m.nonce
        (Scram.saltedPassword ext.crypto (normalize ext (utf8 password)) salt m.iterations)) := by
  have hechoed : ¬¬(ScramSha256.fromNonce password nonce).nonce.toList <+: m.nonce.toList :=
    not_not_intro hnonce
  simp only [ScramSha256.update, hparse, if_neg hechoed, hsalt, hi_eq]
  rfl

theorem answer_challenge (hheader : ext.crypto.base64.encode (utf8 "n,,") = "biws".toList)
    (salted : Digest) :
    let auth := authMessage (clientFirstBare nonce).toList first.toList
      (clientFinalWithoutProof m.nonce).toList
    let answer := (ScramSha256.fromNonce password nonce).answer ext (utf8 first) m.nonce salted
    answer.2.authMessage = auth ∧ answer.2.saltedPassword = salted ∧
      answer.1 = utf8 (clientFinalWithoutProof m.nonce ++ ",p=" ++
        String.ofList (ext.crypto.base64.encode (Scram.clientProof ext.crypto salted auth).toList)) := by
  have hauth : ((ScramSha256.fromNonce password nonce).answer ext (utf8 first) m.nonce salted).2.authMessage =
      authMessage (clientFirstBare nonce).toList first.toList (clientFinalWithoutProof m.nonce).toList := by
    apply String.toList_inj.mp
    simp [ScramSha256.answer, ScramSha256.fromNonce, authMessage, Scram.join, List.intercalate, hheader,
      clientFirstBare, clientFinalWithoutProof]
  refine ⟨hauth, rfl, ?_⟩
  rw [← hauth]
  simp [ScramSha256.answer, hheader, clientFinalWithoutProof, ← utf8_append, Scram.clientProof,
    Scram.clientKey, Scram.clientSignature, Scram.storedKey, String.append_assoc]

end Challenge

theorem finish_eq_ok {ext : Externals} (hbase64 : ext.crypto.base64.Exact) {scram : ScramSha256}
    {message : Bytes} (h : scram.finish ext message = .ok ()) :
    message = utf8 ("v=" ++ String.ofList (ext.crypto.base64.encode
      (Scram.serverSignature ext.crypto scram.saltedPassword scram.authMessage).toList)) := by
  unfold ScramSha256.finish FinalMessage.parse at h
  split at h
  · cases h
  rename_i finalMessage hparse
  split at hparse
  · cases hparse
  rename_i hshape
  cases hparse
  split at h
  · cases h
  rename_i verifier hdecode
  dsimp only at h
  split at h
  · rename_i hverified
    obtain ⟨value, rfl⟩ : utf8 "v=" <+: message := not_not.mp (not_or.mp hshape).1
    have hvalue : (utf8 "v=" ++ value).drop 2 = value := rfl
    rw [hvalue, hverified] at hdecode
    -- The value is read lossily, but the alphabet has no character that an ill-formed byte is read as.
    have hbytes := utf8_of_ascii_text (hbase64.ascii _) (hbase64.encode_decode _ _ hdecode)
    rw [utf8_append]
    exact congrArg (utf8 "v=" ++ ·) hbytes
  · cases h

theorem finish_eq_ok_iff {ext : Externals} (hbase64 : ext.crypto.base64.Exact) (scram : ScramSha256)
    (message : Bytes) : scram.finish ext message = .ok () ↔
      message = utf8 ("v=" ++ String.ofList (ext.crypto.base64.encode
        (Scram.serverSignature ext.crypto scram.saltedPassword scram.authMessage).toList)) := by
  refine ⟨finish_eq_ok hbase64, ?_⟩
  rintro rfl
  have hsignature := finish_signature ext scram
  rw [wire] at hsignature
  rw [← hsignature]
  congr 2
  exact String.toList_inj.mp (by simp)

/-- The computations of the client, for every keyed hash and hash. -/
theorem scram_computations (ext : Externals) (hbase64 : ext.crypto.base64.Exact) :
    (∀ str salt i, ScramSha256.hi ext.crypto str salt i = Scram.saltedPassword ext.crypto str salt i) ∧
    ∀ (password nonce first : String) (m : Message) (salt : Bytes),
      Message.parse (utf8 first) = .ok m → nonce.toList <+: m.nonce.toList →
      ext.crypto.base64.decode m.salt.toList = some salt →
      let salted := Scram.saltedPassword ext.crypto (normalize ext (utf8 password)) salt m.iterations
      let auth := authMessage (clientFirstBare nonce).toList first.toList
        (clientFinalWithoutProof m.nonce).toList
      ∃ (proof : Digest) (scram' : ScramSha256),
        (ScramSha256.fromNonce password nonce).update ext (utf8 first) =
          .ok (utf8 ("c=biws,r=" ++ m.nonce ++ ",p=" ++ String.ofList (ext.crypto.base64.encode proof.toList)),
            scram') ∧
        ext.crypto.hash
            (proof.xor (ext.crypto.hmac (Scram.storedKey ext.crypto salted).toList (utf8 auth))).toList =
          Scram.storedKey ext.crypto salted ∧
        ∀ message, scram'.finish ext message = .ok () ↔
          message = utf8 ("v=" ++ String.ofList (ext.crypto.base64.encode
            (Scram.serverSignature ext.crypto salted auth).toList)) := by
  refine ⟨hi_eq ext.crypto, fun password nonce first m salt hparse hnonce hsalt => ?_⟩
  intro salted auth
  obtain ⟨hauth, hsalted, hreply⟩ := @answer_challenge ext password nonce first m hbase64.header salted
  refine ⟨Scram.clientProof ext.crypto salted auth,
    ((ScramSha256.fromNonce password nonce).answer ext (utf8 first) m.nonce salted).2, ?_, ?_, ?_⟩
  · rw [update_of_parse hparse hnonce hsalt]
    exact congrArg Except.ok (Prod.ext hreply rfl)
  · -- The signature cancels, and the hash of the key is what the server stores.
    exact congrArg (fun key : Digest => ext.crypto.hash key.toList) (Digest.xor_xor_cancel _ _)
  · intro message
    rw [finish_eq_ok_iff hbase64, hsalted, hauth]

namespace Sample

theorem recorded_challenge_answered :
    ∃ (proof : Digest) (scram' : ScramSha256),
      (ScramSha256.fromNonce "foobar" "9IZ2").update ext (utf8 "r=9IZ2jx/o,s=fs3IXBy7U7+IvVjZ,i=4096") =
        .ok (utf8 ("c=biws,r=9IZ2jx/o,p=" ++ String.ofList (ext.crypto.base64.encode proof.toList)), scram') := by
  obtain ⟨proof, scram', hupdate, -⟩ := (scram_computations ext Base64.standard_exact).2 "foobar" "9IZ2"
    "r=9IZ2jx/o,s=fs3IXBy7U7+IvVjZ,i=4096" ⟨"9IZ2jx/o", "fs3IXBy7U7+IvVjZ", 4096⟩
    server.salt (by decide +kernel) (by decide) (by decide +kernel)
  exact ⟨proof, scram', hupdate⟩

end Sample

end PgCat.Auth
