import PgCat.Auth.Startup

/-!
# Mutual — the server's proof of the password

A server shows that it knows the password by the message that ends the SASL exchange: the signature of
the whole exchange under the salted password.  `MutuallyAuthenticated` says that the messages of a
stream contain an answered challenge and, for that challenge, such a signature.

What the messages of a stream are is a matter of their layout alone (`messages`).  The loop of
`Server::startup` has no phases.  Each message is judged by itself against the state of the exchange
(`Handles`), and a startup that returns has replayed the messages of its input; so the proof is there exactly
if the two messages came, in this order.
-/

namespace PgCat.Auth

open Lib Protocol

/-! ## The messages of a stream -/

inductive Received
  | authenticationOk
  | md5 (salt : Bytes)
  | sasl (mechanisms : Bytes)
  | saslContinue (data : Bytes)
  | saslFinal (data : Bytes)
  | parameterStatus (param : Bytes)
  | backendKeyData (processId secretKey : Int)
  deriving DecidableEq, Repr

/-- What a length word gives to the bytes behind `n` that it counts as well. -/
def counted (n : Nat) (len : Int) (message : Bytes → Received) (bs : Bytes) : Received × Bytes :=
  (message (bs.take (ofSigned 32 (len - n))), bs.drop (ofSigned 32 (len - n)))

def nextAuthentication (len : Int) (body : Bytes) : Option (Received × Bytes) :=
  let data := body.drop 4
  if word body = md5EncryptedPassword then some (.md5 (data.take 4), data.drop 4)
  else if word body = authenticationSuccessful then some (.authenticationOk, data)
  else if word body = sasl then some (counted 8 len .sasl data)
  else if word body = saslContinue then some (counted 8 len .saslContinue data)
  else if word body = saslFinal then some (counted 8 len .saslFinal data)
  else none

/-- The message with this code and length word, unless it is `ReadyForQuery` or none of a startup. -/
def nextOf (code : Char) (len : Int) (body : Bytes) : Option (Received × Bytes) :=
  match code with
  | 'R' => nextAuthentication len body
  | 'S' => some (counted 4 len .parameterStatus body)
  | 'K' => some (.backendKeyData (word body) (word (body.drop 4)), (body.drop 4).drop 4)
  | _ => none

/-- The first message of a stream, and what follows it. -/
def nextMessage : Bytes → Option (Received × Bytes)
  | [] => none
  | code :: input => nextOf (Char.ofUInt8 code) (word input) (input.drop 4)

def takeMessages : Nat → Bytes → List Received
  | 0, _ => []
  | n + 1, input =>
    match nextMessage input with
    | none => []
    | some (m, rest) => m :: takeMessages n rest

/-- The messages before `ReadyForQuery`; there are no more of them than bytes. -/
def messages (input : Bytes) : List Received :=
  takeMessages input.length input

/-! ## Replays -/

/-- How a handled message moves the state of the exchange. -/
inductive Handles (ext : Externals) : Option ScramSha256 → Received → Option ScramSha256 → Prop
  | challenged {scram scram' : ScramSha256} {data reply : Bytes}
      (h : scram.update ext data = .ok (reply, scram')) :
      Handles ext (some scram) (.saslContinue data) (some scram')
  | verified {scram : ScramSha256} {data : Bytes} (h : scram.finish ext data = .ok ()) :
      Handles ext (some scram) (.saslFinal data) (some scram)
  | aside {scram : Option ScramSha256} {m : Received} (hcontinue : ∀ data, m ≠ .saslContinue data)
      (hfinal : ∀ data, m ≠ .saslFinal data) : Handles ext scram m scram

/-- The messages, handled one after the other, take the exchange from one state to another. -/
def Replays (ext : Externals) :
    Option ScramSha256 → List Received → Option ScramSha256 → Prop
  | scram, [], scram' => scram = scram'
  | scram, m :: ms, scram' => ∃ between, Handles ext scram m between ∧ Replays ext between ms scram'

section Replays

variable {ext : Externals} {scram scram' : Option ScramSha256}

theorem replays_append {ms ns : List Received} :
    Replays ext scram (ms ++ ns) scram' ↔
      ∃ between, Replays ext scram ms between ∧ Replays ext between ns scram' := by
  induction ms generalizing scram with
  | nil => simp [Replays]
  | cons m ms ih =>
    simp only [List.cons_append, Replays, ih]
    constructor
    · rintro ⟨first, hm, between, hms, hns⟩
      exact ⟨between, ⟨first, hm, hms⟩, hns⟩
    · rintro ⟨between, ⟨first, hm, hms⟩, hns⟩
      exact ⟨first, hm, between, hms, hns⟩

theorem Handles.eq_of_not_continue {m : Received} (h : Handles ext scram m scram')
    (hm : ∀ data, m ≠ .saslContinue data) : scram' = scram := by
  cases h with
  | challenged => exact absurd rfl (hm _)
  | verified => rfl
  | aside => rfl

theorem Replays.eq_of_no_continue {ms : List Received} (h : Replays ext scram ms scram')
    (hms : ∀ m ∈ ms, ∀ data, m ≠ .saslContinue data) : scram' = scram := by
  induction ms generalizing scram with
  | nil => exact h.symm
  | cons m ms ih =>
    obtain ⟨between, hm, hrest⟩ := h
    have hsame := hm.eq_of_not_continue (hms m List.mem_cons_self)
    rw [ih hrest (fun n hn => hms n (List.mem_cons_of_mem _ hn)), hsame]

end Replays

/-! ## A startup is a replay of its messages -/

section Startup

variable {up : Upstream} {len : Int} {l : Locals} {s : Socket} {e : Error} {n k : Nat}

/-- A message was taken off the input and handled. -/
def Advances (up : Upstream) (l : Locals) (next : Option (Received × Bytes)) (l' : Locals) (s' : Socket) :
    Prop :=
  ∃ m, next = some (m, s'.input) ∧ Handles up.ext l.scram m l'.scram

/-- What a read of a counted part leaves. -/
def Counts (n : Nat) (len : Int) (s : Socket) (data : Bytes) (s' : Socket) : Prop :=
  ∀ message, counted n len message s.input = (message data, s'.input)

theorem readExact_counts (hk : k = ofSigned 32 (len - n)) :
    wp (readExact k e) (Counts n len s) (fun _ _ => True) s := by
  refine wp_returns_iff.mpr (fun data s' hread message => ?_)
  obtain ⟨-, rfl, rfl⟩ := readExact_ok.mp hread
  rw [counted, hk]

theorem readVec_counts {size : Option Nat} (hsize : ∀ k, size = some k → k ≤ isizeMax → k = ofSigned 32 (len - n)) :
    wp (readVec size e) (Counts n len s) (fun _ _ => True) s := by
  refine wp_returns_iff.mpr (fun data s' h => ?_)
  obtain ⟨k, hk, hmax, hread⟩ := readVec_ok.mp h
  exact wp_returns_iff.mp (readExact_counts (hsize k hk hmax)) _ _ hread

theorem write_advances {bs : Bytes} {l' : Locals} {next : Option (Received × Bytes)}
    (h : Advances up l next l' s) :
    wp (do send bs; pure l') (Advances up l next) (fun _ _ => True) s := by
  refine wp_seq (wp_returns_iff.mpr fun _ _ => writeAll_ok.mp) (fun _ s' hsent => ?_)
  obtain ⟨_, -, rfl⟩ := hsent
  exact h

theorem onMd5_advances :
    wp (onMd5 up l) (Advances up l (some (.md5 (s.input.take 4), s.input.drop 4))) (fun _ _ => True) s := by
  refine wp_seq (wp_returns_iff.mpr fun _ _ => readExact_ok.mp) (fun salt s' hsalt => ?_)
  obtain ⟨-, rfl, rfl⟩ := hsalt
  have hmd5 : Advances up l (some (.md5 (s.input.take 4), s.input.drop 4)) l { s with input := s.input.drop 4 } :=
    ⟨_, rfl, .aside (by simp) (by simp)⟩
  split
  · exact write_advances hmd5
  · split
    · exact write_advances hmd5
    · trivial

theorem onSasl_advances :
    wp (onSasl up len l) (Advances up l (some (counted 8 len .sasl s.input))) (fun _ _ => True) s := by
  unfold onSasl
  split
  · trivial
  · refine wp_seq (readVec_counts fun _ => size_of_subI32) (fun data s₁ hdata => ?_)
    refine wp_seq (wp_returns_iff.mpr fun _ _ => unwrap_ok.mp) (fun typeLen s₂ hlength => ?_)
    rw [hlength.2]
    split
    · exact write_advances ⟨_, congrArg some (hdata _), .aside (by simp) (by simp)⟩
    · trivial

theorem onSaslContinue_advances :
    wp (onSaslContinue up len l) (Advances up l (some (counted 8 len .saslContinue s.input)))
      (fun _ _ => True) s := by
  refine wp_seq (readVec_counts fun _ => size_of_subI32) (fun data s₁ hdata => ?_)
  refine wp_seq (wp_returns_iff.mpr fun _ _ => unwrap_ok.mp) (fun scram s₂ hscram => ?_)
  refine wp_seq (wp_returns_iff.mpr fun _ _ => propagate_ok.mp) (fun answer s₃ hupdate => ?_)
  rw [hupdate.2, hscram.2]
  refine write_advances ⟨_, congrArg some (hdata _), ?_⟩
  rw [hscram.1]
  exact .challenged hupdate.1

theorem onSaslFinal_advances (hlen : -2 ^ 31 ≤ len ∧ len < 2 ^ 31) :
    wp (onSaslFinal up len l) (Advances up l (some (counted 8 len .saslFinal s.input))) (fun _ _ => True) s := by
  refine wp_seq (readVec_counts fun _ => size_of_subUsize hlen (by decide)) (fun data s₁ hdata => ?_)
  refine wp_seq (wp_returns_iff.mpr fun _ _ => unwrap_ok.mp) (fun scram s₂ hscram => ?_)
  refine wp_seq (wp_returns_iff.mpr fun _ _ => propagate_ok.mp) (fun _ s₃ hfinish => ?_)
  rw [hfinish.2, hscram.2]
  refine ⟨_, congrArg some (hdata _), ?_⟩
  rw [hscram.1]
  exact .verified hfinish.1

theorem onAuthentication_advances (hlen : -2 ^ 31 ≤ len ∧ len < 2 ^ 31) :
    wp (onAuthentication up len l) (Advances up l (nextAuthentication len s.input)) (fun _ _ => True) s := by
  refine wp_seq (wp_returns_iff.mpr fun _ _ => readI32_ok.mp) (fun authCode s₁ hcode => ?_)
  obtain ⟨-, rfl, rfl⟩ := hcode
  unfold nextAuthentication
  split
  · exact onMd5_advances
  split
  · exact ⟨_, rfl, .aside (by simp) (by simp)⟩
  split
  · exact onSasl_advances
  split
  · exact onSaslContinue_advances
  split
  · exact onSaslFinal_advances hlen
  · trivial

/-- Another message is handled, or there is none. -/
def Turned (up : Upstream) (l : Locals) (next : Option (Received × Bytes)) (r : Locals ⊕ Started)
    (s' : Socket) : Prop :=
  r.elim (fun l' => Advances up l next l' s') (fun _ => next = none)

theorem onMessage_turned (hlen : -2 ^ 31 ≤ len ∧ len < 2 ^ 31) (code : Char) :
    wp (onMessage up len l code) (Turned up l (nextOf code len s.input)) (fun _ _ => True) s := by
  unfold onMessage
  split
  · rw [wp_map]
    exact onAuthentication_advances hlen
  · rw [wp_map]
    exact wp_mono wp_true (fun _ _ _ => rfl) (fun _ _ h => h)
  · rw [wp_map]
    refine wp_seq (readVec_counts fun _ => size_of_subUsize hlen (by decide)) (fun param s₁ hparam => ?_)
    exact ⟨_, congrArg some (hparam _), .aside (by simp) (by simp)⟩
  · rw [wp_map]
    refine wp_seq (wp_returns_iff.mpr fun _ _ => readI32_ok.mp) (fun processId s₁ hprocess => ?_)
    refine wp_seq (wp_returns_iff.mpr fun _ _ => readI32_ok.mp) (fun secretKey s₂ hsecret => ?_)
    obtain ⟨-, rfl, rfl⟩ := hprocess
    obtain ⟨-, rfl, rfl⟩ := hsecret
    exact ⟨_, rfl, .aside (by simp) (by simp)⟩
  · rw [wp_map]
    exact wp_mono wp_true (fun _ _ _ => rfl) (fun _ _ h => h)
  · trivial

/-- A turn handles the first message of the input, and the last turn finds none. -/
theorem turn_turned : wp (turn up l) (Turned up l (nextMessage s.input)) (fun _ _ => True) s := by
  refine wp_seq (wp_returns_iff.mpr fun _ _ => readU8_ok.mp) (fun code s₁ hcode => ?_)
  refine wp_seq (wp_returns_iff.mpr fun _ _ => readI32_ok.mp) (fun len s₂ hlen => ?_)
  obtain ⟨-, rfl, rfl⟩ := hlen
  rw [hcode.1]
  exact onMessage_turned (word_range _) _

theorem length_of_nextMessage {input rest : Bytes} {m : Received} (h : nextMessage input = some (m, rest)) :
    rest.length < input.length := by
  cases input with
  | nil => cases h
  | cons code input =>
    have hrest : ∃ n, rest = input.drop n := by
      simp only [nextMessage, nextOf, nextAuthentication, counted, List.drop_drop] at h
      repeat' split at h
      all_goals
        cases h
        try exact ⟨_, rfl⟩
    obtain ⟨n, rfl⟩ := hrest
    simp only [List.length_drop, List.length_cons]
    omega

/-- A startup that returns has replayed the messages of its input. -/
theorem startup_replays {s s' : Socket} {started : Started} (h : startup up s = .ok started s') :
    ∃ scram, Replays up.ext up.scram (messages s.input) scram := by
  have hloop : wp (startup up) (fun _ _ => ∃ scram, Replays up.ext up.scram (messages s.input) scram)
      (fun _ _ => True) s := by
    refine wp_seq (wp_returns_iff.mpr fun _ _ => writeAll_ok.mp) (fun _ s₁ hsent => ?_)
    obtain ⟨_, -, rfl⟩ := hsent
    rw [wp_bind, wp_get]
    -- The messages so far lead to the state that is kept; those to come are on the input.
    refine wp_repeatUntil (fun (l : Locals) (t : Socket) => ∃ ms n, t.input.length ≤ n ∧
      messages s.input = ms ++ takeMessages n t.input ∧ Replays up.ext up.scram ms l.scram) ?_
      (fun _ _ _ => trivial) _ _ _ ⟨[], s.input.length, le_rfl, rfl, rfl⟩
    rintro l t ⟨ms, n, hn, hmessages, hreplays⟩
    refine wp_imp turn_turned (fun r t' hr => ?_)
    cases r with
    | inl l' =>
      obtain ⟨m, hnext, hhandles⟩ := hr
      have hshorter := length_of_nextMessage hnext
      obtain ⟨n, rfl⟩ : ∃ k, n = k + 1 := ⟨n - 1, by omega⟩
      refine ⟨ms ++ [m], n, by omega, ?_, replays_append.mpr ⟨l.scram, hreplays, l'.scram, hhandles, rfl⟩⟩
      rw [hmessages, takeMessages, hnext, List.append_assoc, List.singleton_append]
    | inr started =>
      refine ⟨l.scram, ?_⟩
      have hnone : takeMessages n t.input = [] := by
        cases n with
        | zero => rfl
        | succ n => rw [takeMessages, show nextMessage t.input = none from hr]
      rw [hmessages, hnone, List.append_nil]
      exact hreplays
  exact wp_returns_iff.mp hloop _ _ h

end Startup

/-! ## The proof of the password -/

/-- The message carries the server's signature for this state of the exchange. -/
def Signed (ext : Externals) (scram : ScramSha256) (message : Bytes) : Prop :=
  ∃ final, FinalMessage.parse message = .ok final ∧
    ext.crypto.base64.decode final.value.toList =
      some (Scram.serverSignature ext.crypto scram.saltedPassword scram.authMessage).toList

theorem signed_of_finish {ext : Externals} {scram : ScramSha256} {message : Bytes}
    (h : scram.finish ext message = .ok ()) : Signed ext scram message := by
  unfold ScramSha256.finish at h
  split at h
  · cases h
  · rename_i final hparse
    split at h
    · cases h
    · rename_i verifier hdecode
      dsimp only at h
      split at h
      · rename_i hverifier
        exact ⟨final, hparse, hverifier ▸ hdecode⟩
      · cases h

/-- A challenge was answered, and a later message signed the exchange of this challenge. -/
def MutuallyAuthenticated (ext : Externals) (scram₀ : Option ScramSha256) (received : List Received) : Prop :=
  ∃ before challenge between final after scram reply scram',
    received = before ++ .saslContinue challenge :: (between ++ .saslFinal final :: after) ∧
    (∀ m ∈ between, ∀ data, m ≠ .saslContinue data) ∧
    Replays ext scram₀ before (some scram) ∧
    scram.update ext challenge = .ok (reply, scram') ∧
    Signed ext scram' final

/-- A challenge came, and after it a message that ends an exchange. -/
def ContinuedThenFinal (received : List Received) : Prop :=
  ∃ challenge final, [Received.saslContinue challenge, .saslFinal final].Sublist received

theorem MutuallyAuthenticated.ordered {ext : Externals} {scram₀ : Option ScramSha256}
    {received : List Received} (h : MutuallyAuthenticated ext scram₀ received) :
    ContinuedThenFinal received := by
  obtain ⟨before, challenge, between, final, after, _, _, _, rfl, _⟩ := h
  refine ⟨challenge, final, ?_⟩
  apply List.Sublist.trans _ (List.sublist_append_right before _)
  apply List.Sublist.cons_cons
  exact (List.singleton_sublist.mpr (by simp))

theorem exists_last_continue {ms : List Received} (h : ∃ data, .saslContinue data ∈ ms) :
    ∃ before data between, ms = before ++ .saslContinue data :: between ∧
      ∀ m ∈ between, ∀ data, m ≠ .saslContinue data := by
  induction ms with
  | nil => simp at h
  | cons m ms ih =>
    by_cases hrest : ∃ data, .saslContinue data ∈ ms
    · obtain ⟨before, data, between, rfl, hbetween⟩ := ih hrest
      exact ⟨m :: before, data, between, rfl, hbetween⟩
    · obtain ⟨data, hdata⟩ := h
      rcases List.mem_cons.mp hdata with rfl | hdata
      · exact ⟨[], data, ms, rfl, fun n hn d hd => hrest ⟨d, hd ▸ hn⟩⟩
      · exact absurd ⟨data, hdata⟩ hrest

/-- Replayed messages in this order carry the proof: every challenge was answered, and what ends an
exchange was checked against the last of them. -/
theorem mutuallyAuthenticated_of_replays {ext : Externals} {scram₀ scram : Option ScramSha256}
    {received : List Received} (hreplays : Replays ext scram₀ received scram)
    (h : ContinuedThenFinal received) : MutuallyAuthenticated ext scram₀ received := by
  obtain ⟨challenge, final, hsublist⟩ := h
  obtain ⟨upto, rest, rfl, hupto, hrest⟩ := List.cons_sublist_iff.mp hsublist
  obtain ⟨gap, after, rfl⟩ := List.append_of_mem (List.singleton_sublist.mp hrest)
  -- All that comes before the signature, with the last challenge in it.
  obtain ⟨before, challenge, between, heq, hbetween⟩ :=
    exists_last_continue ⟨challenge, List.mem_append_left gap hupto⟩
  rw [← List.append_assoc, heq, List.append_assoc, List.cons_append] at hreplays
  obtain ⟨scram₁, hbefore, scram₂, hchallenge, htail⟩ := replays_append.mp hreplays
  obtain ⟨scram₃, hquiet, scram₄, hfinal, _⟩ := replays_append.mp htail
  have hsame := hquiet.eq_of_no_continue hbetween
  cases hchallenge with
  | aside hcontinue => exact absurd rfl (hcontinue _)
  | @challenged scram scram' _ reply hupdate =>
    subst hsame
    cases hfinal with
    | aside _ hfinal => exact absurd rfl (hfinal _)
    | verified hfinish =>
      refine ⟨before, challenge, between, final, after, scram, reply, scram', ?_, hbetween, hbefore,
        hupdate, signed_of_finish hfinish⟩
      rw [← List.append_assoc, heq, List.append_assoc, List.cons_append]

/-- A startup that returns has the server's proof of the password exactly if a challenge came and,
after it, a message that ends an exchange. -/
theorem startup_proved_iff {up : Upstream} {s s' : Socket} {started : Started}
    (h : startup up s = .ok started s') :
    MutuallyAuthenticated up.ext up.scram (messages s.input) ↔ ContinuedThenFinal (messages s.input) := by
  constructor
  · exact MutuallyAuthenticated.ordered
  · obtain ⟨scram, hreplays⟩ := startup_replays h
    exact mutuallyAuthenticated_of_replays hreplays

namespace Sample

/-- All digests are zero. -/
def upstream : Upstream where
  ext := ⟨⟨fun _ _ => .zero, fun _ => .zero, .standard⟩, some⟩
  md5 := fun _ => ""
  checks := true
  username := "sharding_user"
  database := "shard0"
  password := some "sharding_user"
  authHash := none
  nonce := "9IZ2O01zb9IgiIZ1WJ/zgpJB"
  setName := fun _ => .ok ()

def authentication (code : Int) (data : Bytes) : Bytes :=
  (Message.ofChar 'R' (putI32 code ++ data)).bytes

def mechanisms : Bytes :=
  utf8 "SCRAM-SHA-256" ++ [0, 0]

def challenge : Bytes :=
  utf8 "r=9IZ2O01zb9IgiIZ1WJ/zgpJBjx,s=fs3IXBy7U7+IvVjZ,i=1"

def verifier : Bytes :=
  utf8 "v=AAAAAAAAAAAAAAAAAAAAAAAAAAAAAAAAAAAAAAAAAAA="

def idle : Bytes :=
  (Message.ofChar 'Z' (utf8 "I")).bytes

/-- A server that asks for SASL and then lets the client in. -/
def impostor : Socket where
  input := authentication 10 mechanisms ++ authentication 0 [] ++ idle
  writes := [true, true]
  sent := []

theorem proof_skipped : ∃ started s', startup upstream impostor = .ok started s' ∧
    ¬ MutuallyAuthenticated upstream.ext upstream.scram (messages impostor.input) := by
  have hreturned : returned (startup upstream) impostor = true := by decide +kernel
  obtain ⟨started, hstarted⟩ := ok_of_returned hreturned
  have hmessages : messages impostor.input = [.sasl mechanisms, .authenticationOk] := by decide +kernel
  refine ⟨started, _, hstarted, fun h => ?_⟩
  rw [hmessages] at h
  obtain ⟨challenge, final, hsublist⟩ := h.ordered
  have hmem := hsublist.subset List.mem_cons_self
  simp at hmem

/-- A server that ends the exchange. -/
def honest : Socket where
  input := authentication 10 mechanisms ++ authentication 11 challenge ++ authentication 12 verifier ++
    authentication 0 [] ++ idle
  writes := [true, true, true]
  sent := []

theorem exchange_proved : ∃ started s', startup upstream honest = .ok started s' ∧
    MutuallyAuthenticated upstream.ext upstream.scram (messages honest.input) := by
  have hreturned : returned (startup upstream) honest = true := by decide +kernel
  obtain ⟨started, hstarted⟩ := ok_of_returned hreturned
  have hmessages : messages honest.input = [.sasl mechanisms, .saslContinue challenge, .saslFinal verifier,
      .authenticationOk] := by decide +kernel
  refine ⟨started, _, hstarted, (startup_proved_iff hstarted).mpr ⟨challenge, verifier, ?_⟩⟩
  rw [hmessages]
  decide

end Sample

end PgCat.Auth
