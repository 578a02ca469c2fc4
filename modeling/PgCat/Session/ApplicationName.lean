import PgCat.Lib.Sql
import PgCat.Session.Rules

/-!
# ApplicationName — the name a server connection runs under

`Server::set_name` writes the name of the client into the text of a `SET` and remembers it; it sends
nothing when it remembers the same name.

* `queryStatements`: what a server reads in a simple query;
* `setName_sends`: the only message `set_name` sends;
* `NameLaws`: what a backend does with its application name;
* `Coherent`: what `set_name` remembers is the name of the session, unless it is `stale`.
-/

namespace PgCat.Session

open Lib Protocol

/-! ## The query -/

def setNameMessage (name : String) : Message :=
  simpleQuery ("SET application_name = '" ++ name ++ "'")

def queryStatements (m : Message) : Option (List (List Sql.Token)) :=
  (readString m.payload).bind fun read => Sql.statements read.1

/-- `SET application_name = <literal>`, with a literal that denotes the name. -/
def setsName (name : String) : List Sql.Token :=
  [.word "SET".toList, .word "application_name".toList, .symbol '=', .string name.toList]

theorem tokens_setName (name : String) :
    Sql.tokens ("SET application_name = '" ++ name ++ "'") =
      (Sql.scan (.quoted []) (name.toList ++ ['\''])).map fun tokens =>
        [.word "SET".toList, .word "application_name".toList, .symbol '='] ++ tokens := by
  have hstart : Sql.advance .plain "SET application_name = '".toList =
      ([.word "SET".toList, .word "application_name".toList, .symbol '='], .quoted []) := by
    decide
  rw [Sql.tokens, String.toList_append, String.toList_append, List.append_assoc, Sql.scan_append, hstart]
  rfl

theorem queryStatements_setName {name : String} (hnul : Char.ofNat 0 ∉ name.toList) :
    queryStatements (setNameMessage name) = Sql.statements ("SET application_name = '" ++ name ++ "'") := by
  have htext : ∀ c ∈ ("SET application_name = '" ++ name ++ "'").toList, c ≠ Char.ofNat 0 := by
    intro c hc
    rw [String.toList_append, String.toList_append, List.mem_append, List.mem_append] at hc
    rcases hc with (hc | hc) | hc
    · rintro rfl
      revert hc
      decide
    · rintro rfl
      exact hnul hc
    · rintro rfl
      revert hc
      decide
  have hread := readString_append (zero_notMem_utf8 htext) []
  rw [queryStatements]
  change (readString (utf8 _ ++ [0])).bind _ = _
  rw [hread, Option.bind_some, fromUtf8Lossy_utf8]

theorem statements_setName_iff (name : String) :
    Sql.statements ("SET application_name = '" ++ name ++ "'") = some [setsName name] ↔
      '\'' ∉ name.toList := by
  have htokens := tokens_setName name
  constructor
  · intro h
    cases hscan : Sql.scan (.quoted []) (name.toList ++ ['\'']) with
    | none =>
      rw [hscan] at htokens
      rw [Sql.statements, htokens] at h
      cases h
    | some tokens =>
      -- The first token behind the equals sign is a literal, and it has to be this one.
      obtain ⟨text, rest, rfl, -⟩ := (Sql.literal_within _).1 [] _ hscan
      rw [hscan, Option.map_some] at htokens
      have hpre : [.word "SET".toList, .word "application_name".toList, .symbol '=', .string text] <+:
          setsName name := by
        refine @Sql.isPrefix_of_statements _ _ rest _ htokens (List.cons_ne_nil _ _) ?_ h
        simp
      have hsame : text = name.toList := by
        simpa [setsName] using hpre.eq_of_length rfl
      refine Sql.scan_quoted_eq_iff.mp ⟨rest, ?_⟩
      rw [hscan, hsame]
  · intro h
    obtain ⟨tokens, hscan⟩ := Sql.scan_quoted_eq_iff.mpr h
    rw [Sql.scan_quoted_append h, List.nil_append] at hscan
    have hend : tokens = [] := by
      cases hscan
      rfl
    rw [Sql.scan_quoted_append h, List.nil_append, hscan, hend, Option.map_some] at htokens
    refine Sql.statements_of_tokens htokens (List.cons_ne_nil _ _) ?_
    simp [setsName]

/-! ## What `set_name` sends -/

def Event.toServer : Event → Option Message
  | .sent _ m _ _ => some m
  | _ => none

def sentSoFar (w : World) : List Message :=
  observed Event.toServer w.trace

theorem sentSoFar_other {w w' : World} {e : Event} (he : e.toServer = none) (htrace : w'.trace = e :: w.trace) :
    sentSoFar w' = sentSoFar w := by
  rw [sentSoFar, htrace, observed_cons, he]
  exact List.append_nil _

def SendsNothing (w w' : World) : Prop :=
  sentSoFar w' = sentSoFar w

instance : Notes SendsNothing where
  input _ _ := rfl
  note w e he := by
    refine sentSoFar_other ?_ rfl
    cases e with
    | sent c m reply fromClient => cases he
    | _ => rfl

instance : Listens SendsNothing where
  received _ _ _ _ := sentSoFar_other rfl rfl
  bad _ := rfl
  flushed _ := rfl

theorem setName_sends (fuel : Nat) (name : String) (w : World) :
    sentSoFar (final (setName fuel name) w) = sentSoFar w ∨
      sentSoFar (final (setName fuel name) w) = sentSoFar w ++ [setNameMessage name] := by
  refine final_of_wp
    (P := fun w' => sentSoFar w' = sentSoFar w ∨ sentSoFar w' = sentSoFar w ++ [setNameMessage name]) ?_
  refine setName_rule fuel (.inl rfl) ?_
  rw [rename, wp_bind]
  change wp (query fuel false _ >>= _) _ _ _
  rw [wp_bind]
  have hkeeps : ∀ w₁ w₂, SendsNothing w₁ w₂ → sentSoFar w₁ = sentSoFar w ++ [setNameMessage name] →
      sentSoFar w₂ = sentSoFar w ++ [setNameMessage name] := fun _ _ hnothing h => hnothing.trans h
  exact wp_imp (query_rule hkeeps (fun _ _ => observed_cons _ _ _) (fun _ _ => .inl rfl)
    (fun _ _ => .inl rfl) (fun _ _ h => .inr h)) (fun _ _ h => .inr h)

/-- Whatever `set_name` sends is read as the one statement that sets this name, exactly if there is no
quote in the name. -/
theorem application_name_literal_iff (fuel : Nat) (name : String)
    (hnul : Char.ofNat 0 ∉ name.toList) (w : World) (m : Message)
    (hsent : sentSoFar (final (setName fuel name) w) = sentSoFar w ++ [m]) :
    queryStatements m = some [setsName name] ↔ '\'' ∉ name.toList := by
  have hmessage : m = setNameMessage name := by
    rcases setName_sends fuel name w with h | h
    · rw [h] at hsent
      simp at hsent
    · rw [h] at hsent
      simpa using hsent.symm
  rw [hmessage, queryStatements_setName hnul, statements_setName_iff]

namespace Sample

/-- A connection out of its startup, with a server that accepts one `SET`. -/
def unnamed : World :=
  { World.start client (fun _ => none) (exchange [complete "SET", ready 'I']) with conn := conn 1 }

theorem plain_name_set :
    sentSoFar (final (setName 4 "app") unnamed) = sentSoFar unnamed ++ [setNameMessage "app"] ∧
      queryStatements (setNameMessage "app") = some [setsName "app"] := by
  have hsent : sentSoFar (final (setName 4 "app") unnamed) = sentSoFar unnamed ++ [setNameMessage "app"] := by
    decide +kernel
  exact ⟨hsent, (application_name_literal_iff 4 "app" (by decide) unnamed _ hsent).mpr (by decide)⟩

/-- The quote ends the literal, and what follows is a statement of its own. -/
theorem quoted_name_injects :
    (sentSoFar (final (setName 4 "x'; DROP TABLE t; --") unnamed)).map queryStatements =
      [some [setsName "x", [.word "DROP".toList, .word "TABLE".toList, .word "t".toList]]] := by
  decide +kernel

end Sample

/-! ## The name of the session -/

def nameSet (m : Message) : Option String :=
  (queryStatements m).bind fun
    | [[verb, target, sign, .string text]] =>
      if [verb, target, sign] = [.word "SET".toList, .word "application_name".toList, .symbol '='] then
        some (String.ofList text)
      else
        none
    | _ => none

theorem nameSet_of_statements {m : Message} {name : String}
    (h : queryStatements m = some [setsName name]) : nameSet m = some name := by
  rw [nameSet, h, Option.bind_some]
  change (if _ then some (String.ofList name.toList) else none) = _
  rw [if_pos rfl, String.ofList_toList]

/-- A name that can be written as a literal. -/
def PlainName (name : String) : Prop :=
  Char.ofNat 0 ∉ name.toList ∧ '\'' ∉ name.toList

instance (name : String) : Decidable (PlainName name) :=
  inferInstanceAs (Decidable (_ ∧ _))

theorem nameSet_setName {name : String} (h : PlainName name) : nameSet (setNameMessage name) = some name :=
  nameSet_of_statements (by rw [queryStatements_setName h.1, statements_setName_iff]; exact h.2)

def accepted (reply : List Message) : Bool :=
  reply.all fun m => m.backend ≠ .errorResponse

/-- The name is set outside transactions, and the server takes it. -/
def Event.settled : Event → Bool
  | .sent c m reply false => (nameSet m).isNone || (c.backend = some .idle && accepted reply)
  | _ => true

def NamesSettled (t : List Event) : Prop :=
  ∀ e ∈ t, e.settled = true

theorem NamesSettled.tail {e : Event} {t : List Event} (h : NamesSettled (e :: t)) : NamesSettled t :=
  fun e' he' => h e' (List.mem_cons_of_mem e he')

/-- What a backend does with its application name; `names t` is its name after the events `t` of its
connection. -/
structure NameLaws (sessionDefault : String) (names : List Event → String) : Prop where
  other : ∀ e t, e.toServer = none → names (e :: t) = names t
  set : ∀ c m reply t name, nameSet m = some name → c.backend = some .idle → accepted reply = true →
    names (.sent c m reply false :: t) = name
  discard : ∀ c reply t, accepted reply = true →
    names (.sent c (simpleQuery "DISCARD ALL") reply false :: t) = sessionDefault
  /-- Queries of clients leave the name alone; and so does the end of a transaction, if the name was set
  outside transactions only. -/
  query : ∀ c m reply fromClient t, NamesSettled t →
    fromClient = true ∨ m = simpleQuery "ROLLBACK" ∨
      m = simpleQuery "DISCARD ALL" ∧ accepted reply = false →
    names (.sent c m reply fromClient :: t) = names t

/-- Was the session reset since the name was last set? -/
def stale : List Event → Bool
  | [] => false
  | .sent _ m reply false :: t =>
    if (nameSet m).isSome then false
    else if m = simpleQuery "DISCARD ALL" ∧ accepted reply = true then true
    else stale t
  | _ :: t => stale t

theorem stale_other {e : Event} {t : List Event} (he : e.toServer = none) : stale (e :: t) = stale t := by
  cases e with
  | sent c m reply fromClient => cases he
  | _ => rfl

theorem stale_discard (c : Conn) (reply : List Message) (t : List Event) :
    stale (.sent c (simpleQuery "DISCARD ALL") reply false :: t) = (accepted reply || stale t) := by
  change (if _ ∧ accepted reply = true then true else stale t) = _
  cases accepted reply with
  | true => exact if_pos ⟨rfl, rfl⟩
  | false => exact if_neg fun h => Bool.noConfusion h.2

theorem Server.take_applicationName (s : Server) (m : Message) :
    (s.take m).1.applicationName = s.applicationName := by
  have hready : ∀ s : Server, (s.takeReady m).1.applicationName = s.applicationName := by
    intro s
    unfold Server.takeReady
    repeat' split
    all_goals rfl
  have hcommand : ∀ s : Server, (s.takeCommand m).applicationName = s.applicationName := by
    intro s
    unfold Server.takeCommand
    repeat' split
    all_goals rfl
  unfold Server.take
  dsimp only
  split
  · exact hready _
  · exact hcommand _
  all_goals rfl

section Coherence

variable {sessionDefault : String} {names : List Event → String}

/-- The name stays as it is, and so does what `set_name` remembers. -/
structure Unmoved (names : List Event → String) (w w' : World) : Prop where
  settled : NamesSettled w'.trace → NamesSettled w.trace
  names : NamesSettled w.trace → names w'.trace = names w.trace
  stale : stale w'.trace = stale w.trace
  remembered : w'.conn.server.applicationName = w.conn.server.applicationName

theorem NameLaws.unmoved (laws : NameLaws sessionDefault names) {w w' : World} {e : Event}
    (he : e.toServer = none) (htrace : w'.trace = e :: w.trace)
    (hname : w'.conn.server.applicationName = w.conn.server.applicationName) : Unmoved names w w' where
  settled h := by
    rw [htrace] at h
    exact h.tail
  names _ := by rw [htrace, laws.other e _ he]
  stale := by rw [htrace, stale_other he]
  remembered := hname

theorem NameLaws.notes (laws : NameLaws sessionDefault names) : Notes (Unmoved names) where
  input _ _ := ⟨id, fun _ => rfl, rfl, rfl⟩
  note w e he := by
    refine laws.unmoved ?_ rfl rfl
    cases e with
    | sent c m reply fromClient => cases he
    | _ => rfl

theorem NameLaws.listens (laws : NameLaws sessionDefault names) : Listens (Unmoved names) where
  received _ _ _ _ := laws.unmoved rfl rfl (Server.take_applicationName _ _)
  bad _ := ⟨id, fun _ => rfl, rfl, rfl⟩
  flushed _ := ⟨id, fun _ => rfl, rfl, rfl⟩

theorem NameLaws.sends (laws : NameLaws sessionDefault names) : Sends (Unmoved names) true where
  sent _ _ _ := ⟨NamesSettled.tail, fun h => laws.query _ _ _ _ _ h (.inl rfl), rfl, rfl⟩

def Coherent (sessionDefault : String) (names : List Event → String) (w : World) : Prop :=
  NamesSettled w.trace →
    names w.trace = if stale w.trace = true then sessionDefault else w.conn.server.applicationName

def Named (names : List Event → String) (name : String) (w : World) : Prop :=
  w.conn.server.applicationName = name ∧
    (NamesSettled w.trace → names w.trace = name ∧ stale w.trace = false)

theorem Named.coherent {name : String} {w : World} (h : Named names name w) :
    Coherent sessionDefault names w := by
  intro hsettled
  obtain ⟨hname, hstale⟩ := h.2 hsettled
  rw [hname, hstale, h.1]
  rfl

theorem Unmoved.coherent {w w' : World} (h : Unmoved names w w') (hw : Coherent sessionDefault names w) :
    Coherent sessionDefault names w' := by
  intro hsettled
  have hbefore := h.settled hsettled
  rw [h.names hbefore, h.stale, h.remembered]
  exact hw hbefore

theorem Unmoved.named {name : String} {w w' : World} (h : Unmoved names w w') (hw : Named names name w) :
    Named names name w' := by
  refine ⟨h.remembered.trans hw.1, fun hsettled => ?_⟩
  have hbefore := h.settled hsettled
  rw [h.names hbefore, h.stale]
  exact hw.2 hbefore

variable (laws : NameLaws sessionDefault names)

include laws

theorem rename_named (fuel : Nat) {name : String} (hplain : PlainName name) (before : Bool) (w : World) :
    wp (rename fuel name before) (fun _ => Named names name) (fun _ _ => True) w := by
  have := laws.notes
  have := laws.listens
  have hset := nameSet_setName hplain
  rw [rename, wp_bind]
  change wp (query fuel false _ >>= _) _ _ { w with
    conn := { w.conn with server := { w.conn.server with applicationName := name } } }
  rw [wp_bind]
  have hkeeps : ∀ w w', Unmoved names w w' → Named names name w → Named names name w' :=
    fun _ _ => Unmoved.named
  refine wp_imp (query_rule hkeeps ?_ (fun _ _ => trivial) (fun _ _ => trivial)
    (fun _ _ _ => trivial)) (fun _ w' h => ?_)
  · intro script reply
    refine ⟨rfl, fun hsettled => ⟨?_, ?_⟩⟩
    · have hnow := hsettled _ List.mem_cons_self
      change ((nameSet (setNameMessage name)).isNone || (decide (_ = _) && accepted reply)) = true at hnow
      rw [hset] at hnow
      obtain ⟨hidle, haccepted⟩ := Bool.and_eq_true_iff.mp hnow
      exact laws.set _ _ _ _ _ hset (of_decide_eq_true hidle) haccepted
    · change (if (nameSet (setNameMessage name)).isSome = true then false else _) = false
      rw [hset]
      rfl
  · exact ⟨h.1, h.2⟩

theorem setName_coherent (fuel : Nat) {name : String} (hplain : PlainName name) (w : World)
    (hw : Coherent sessionDefault names w) :
    wp (setName fuel name) (fun _ => Coherent sessionDefault names) (fun _ _ => True) w :=
  setName_rule fuel hw (wp_imp (rename_named laws fuel hplain _ w) (fun _ _ h => h.coherent))

theorem query_coherent (fuel : Nat) {text : String} {w : World}
    (hsent : ∀ reply, NamesSettled w.trace →
      names (.sent w.conn (simpleQuery text) reply false :: w.trace) =
        if stale (.sent w.conn (simpleQuery text) reply false :: w.trace) = true then sessionDefault
        else w.conn.server.applicationName) :
    wp (query fuel false text) (fun _ => Coherent sessionDefault names) (fun _ _ => True) w := by
  have := laws.notes
  have := laws.listens
  have hkeeps : ∀ w w', Unmoved names w w' → Coherent sessionDefault names w →
      Coherent sessionDefault names w' := fun _ _ => Unmoved.coherent
  exact query_rule hkeeps (fun _ reply hsettled => hsent reply hsettled.tail) (fun _ _ => trivial)
    (fun _ _ => trivial) (fun _ _ _ => trivial)

theorem checkinCleanup_coherent (fuel : Nat) (w : World) (hw : Coherent sessionDefault names w) :
    wp (checkinCleanup fuel) (fun _ => Coherent sessionDefault names) (fun _ _ => True) w := by
  have hnote : ∀ (w : World) (e : Event), e.toServer = none → Coherent sessionDefault names w →
      Coherent sessionDefault names (w.after e) := fun w e he =>
    (laws.unmoved he rfl rfl : Unmoved names w (w.after e)).coherent
  have hrollback : ∀ w, Coherent sessionDefault names w →
      wp (rollback fuel) (fun _ => Coherent sessionDefault names) (fun _ _ => True) w := by
    intro w hw
    rw [rollback]
    refine wp_seq (query_coherent laws fuel ?_) (fun _ w' h => hnote w' _ rfl h)
    intro reply hsettled
    rw [laws.query _ _ _ _ _ hsettled (.inr (.inl rfl))]
    exact hw hsettled
  -- `DISCARD ALL` resets the name if it is accepted, and changes nothing otherwise.
  have hdiscard : ∀ w, Coherent sessionDefault names w →
      wp (discardAll fuel) (fun _ => Coherent sessionDefault names) (fun _ _ => True) w := by
    intro w hw
    rw [discardAll]
    refine wp_seq (query_coherent laws fuel ?_) (fun _ w' h => hnote w' (.discarded w'.conn) rfl h)
    intro reply hsettled
    cases haccepted : accepted reply with
    | true =>
      rw [laws.discard _ _ _ haccepted, stale_discard, haccepted, Bool.true_or, if_pos rfl]
    | false =>
      rw [laws.query _ _ _ _ _ hsettled (.inr (.inr ⟨rfl, haccepted⟩)), stale_discard, haccepted,
        Bool.false_or]
      exact hw hsettled
  have hif : ∀ (c : Prop) [Decidable c] (p : Program Unit), (∀ w, Coherent sessionDefault names w →
      wp p (fun _ => Coherent sessionDefault names) (fun _ _ => True) w) →
      ∀ w, Coherent sessionDefault names w →
        wp (runIf c p) (fun _ => Coherent sessionDefault names) (fun _ _ => True) w := by
    intro c _ p hp w hw
    rw [runIf, wp_ite]
    exact ⟨fun _ => hp w hw, fun _ => hw⟩
  change wp (runIf (w.conn.server.inTransaction = true) (rollback fuel) >>= _) _ _ w
  refine wp_seq (hif _ _ hrollback w hw) (fun _ w₁ h₁ => ?_)
  change wp (runIf (w₁.conn.server.needsCleanup = true) (discardAll fuel) >>= _) _ _ w₁
  exact wp_seq (hif _ _ hdiscard w₁ h₁) (fun _ w₂ h₂ => hnote w₂ _ rfl h₂)

theorem sendAndReceiveLoop_coherent (fuel : Nat) (pool : ConnectionPool) (a : Address) (ms : List Message)
    (w : World) (hw : Coherent sessionDefault names w) :
    wp (sendAndReceiveLoop fuel pool a ms) (fun _ => Coherent sessionDefault names) (fun _ _ => True) w := by
  have := laws.notes
  have := laws.listens
  have := laws.sends
  have hruns : Runs (Unmoved names) (sendAndReceiveLoop fuel pool a ms) := sendAndReceiveLoop_runs fuel pool a ms
  exact wp_weaken (hruns.preserves (fun _ _ => Unmoved.coherent) w hw) (fun _ _ h => h)

end Coherence

/-! ## The life of a connection -/

/-- What is done with a connection. -/
inductive Use
  | setName (name : String)
  | query (messages : List Message)
  | checkinCleanup

def Use.run (fuel : Nat) (pool : ConnectionPool) (a : Address) : Use → Program Unit
  | .setName name => Session.setName fuel name
  | .query messages => sendAndReceiveLoop fuel pool a messages
  | .checkinCleanup => Session.checkinCleanup fuel

def Use.Plain : Use → Prop
  | .setName name => PlainName name
  | _ => True

/-- The first name is set at the end of the startup. -/
def useAll (fuel : Nat) (pool : ConnectionPool) (a : Address) (uses : List Use) : Program Unit := do
  setName fuel "pgcat"
  forM uses (Use.run fuel pool a)

/-- A new connection: nothing is remembered and nothing was sent. -/
structure Unused (w : World) : Prop where
  remembered : w.conn.server.applicationName = ""
  trace : w.trace = []

theorem useAll_coherent {sessionDefault : String} {names : List Event → String}
    (laws : NameLaws sessionDefault names) (fuel : Nat) (pool : ConnectionPool) (a : Address)
    {uses : List Use} (hplain : ∀ use ∈ uses, use.Plain) {w : World} (hw : Unused w) :
    wp (useAll fuel pool a uses) (fun _ => Coherent sessionDefault names) (fun _ _ => True) w := by
  have hstart : wp (setName fuel "pgcat") (fun _ => Coherent sessionDefault names) (fun _ _ => True) w := by
    change wp (if w.conn.server.applicationName = "pgcat" then _ else _) _ _ w
    rw [hw.remembered, if_neg (by decide)]
    exact wp_imp (rename_named laws fuel (by decide) _ w) (fun _ _ h => h.coherent)
  rw [useAll]
  refine wp_seq hstart (fun _ w₁ h₁ => ?_)
  refine wp_forM (fun _ => Coherent sessionDefault names) uses ?_ [] w₁ h₁
  intro _ use w₂ huse h₂
  cases use with
  | setName name => exact setName_coherent laws fuel (hplain _ huse) w₂ h₂
  | query messages => exact sendAndReceiveLoop_coherent laws fuel pool a messages w₂ h₂
  | checkinCleanup => exact checkinCleanup_coherent laws fuel w₂ h₂

/-- Whatever a connection was used for, `set_name` leaves the session with that name, unless it is the name
it remembers and the session was reset to another one since. -/
theorem session_name_iff {sessionDefault : String} {names : List Event → String}
    (laws : NameLaws sessionDefault names) (fuel : Nat) (pool : ConnectionPool) (a : Address)
    (uses : List Use) (hplain : ∀ use ∈ uses, use.Plain) (name : String) (hname : PlainName name)
    {w w₁ w₂ : World} (hw : Unused w) (huses : useAll fuel pool a uses w = .ok () w₁)
    (hset : setName fuel name w₁ = .ok () w₂) (hsettled : NamesSettled w₂.trace) :
    names w₂.trace = name ↔
      ¬(w₁.conn.server.applicationName = name ∧ stale w₁.trace = true ∧ sessionDefault ≠ name) := by
  have hcoherent := useAll_coherent laws fuel pool a hplain hw
  rw [wp, huses] at hcoherent
  by_cases hsame : w₁.conn.server.applicationName = name
  · have hreturn : setName fuel name w₁ = .ok () w₁ := by
      change (if w₁.conn.server.applicationName = name then _ else _ : Program Unit) w₁ = _
      rw [if_pos hsame]
      rfl
    rw [hreturn] at hset
    cases hset
    have hnames := hcoherent hsettled
    rw [hsame] at hnames
    rw [hnames]
    cases hstale : stale w₁.trace with
    | true => simp [hsame]
    | false => simp
  · have hnamed : wp (setName fuel name) (fun _ => Named names name) (fun _ _ => True) w₁ := by
      change wp (if w₁.conn.server.applicationName = name then _ else _) _ _ w₁
      rw [if_neg hsame]
      exact rename_named laws fuel hname _ w₁
    rw [wp, hset] at hnamed
    exact iff_of_true (hnamed.2 hsettled).1 fun h => hsame h.1

/-- The laws, as a function. -/
def sessionName (sessionDefault : String) : List Event → String
  | [] => sessionDefault
  | .sent _ m reply false :: t =>
    if accepted reply = true then
      if m = simpleQuery "DISCARD ALL" then sessionDefault else (nameSet m).getD (sessionName sessionDefault t)
    else
      sessionName sessionDefault t
  | _ :: t => sessionName sessionDefault t

theorem sessionName_laws (sessionDefault : String) : NameLaws sessionDefault (sessionName sessionDefault) where
  other e t he := by
    cases e with
    | sent c m reply fromClient => cases he
    | _ => rfl
  set c m reply t name hset _ haccepted := by
    have hother : m ≠ simpleQuery "DISCARD ALL" := by
      rintro rfl
      have hnone : nameSet (simpleQuery "DISCARD ALL") = none := by decide +kernel
      rw [hnone] at hset
      cases hset
    change (if accepted reply = true then _ else _) = name
    rw [if_pos haccepted, if_neg hother, hset]
    rfl
  discard c reply t haccepted := by
    change (if accepted reply = true then _ else _) = sessionDefault
    rw [if_pos haccepted, if_pos rfl]
  query c m reply fromClient t _ h := by
    cases fromClient with
    | true => rfl
    | false =>
      change (if accepted reply = true then _ else _) = _
      rcases h with h | rfl | ⟨rfl, hrejected⟩
      · cases h
      · have hnone : nameSet (simpleQuery "ROLLBACK") = none := by decide +kernel
        have hother : simpleQuery "ROLLBACK" ≠ simpleQuery "DISCARD ALL" := by decide
        rw [hnone, if_neg hother]
        exact ite_self _
      · rw [hrejected]
        rfl

namespace Sample

/-- The server answers a query of the pooler. -/
def answer (reply : List Message) : List Input :=
  .sent [reply] :: reply.map fun _ => .arrives

def newConnection (script : List Input) : World :=
  { World.start client (fun _ => none) script with
    conn := { conn 1 with server := { (conn 1).server with applicationName := "" } } }

/-- A client names itself, and sets a variable if `dirty`; then the connection is checked in. -/
def visit (dirty : Bool) : List Use :=
  [.setName "app", .query [simpleQuery (if dirty then "SET x TO 1" else "SELECT 1")], .checkinCleanup]

def visitScript (dirty : Bool) : List Input :=
  answer [complete "SET", ready 'I'] ++ answer [complete "SET", ready 'I'] ++
    exchange [complete (if dirty then "SET" else "SELECT 1"), ready 'I'] ++
    if dirty then answer [complete "DISCARD ALL", ready 'I'] else []

/-- After the visit of a client, and when the next one of the same name has come. -/
def visited (dirty : Bool) : World :=
  final (useAll 4 pool address (visit dirty)) (newConnection (visitScript dirty))

def revisited (dirty : Bool) : World :=
  final (setName 4 "app") (visited dirty)

theorem visit_runs (dirty : Bool) :
    useAll 4 pool address (visit dirty) (newConnection (visitScript dirty)) = .ok () (visited dirty) ∧
      setName 4 "app" (visited dirty) = .ok () (revisited dirty) := by
  have hall : ∀ dirty, returned (useAll 4 pool address (visit dirty)) (newConnection (visitScript dirty)) = true ∧
      returned (setName 4 "app") (visited dirty) = true := by
    decide +kernel
  obtain ⟨_, hvisit⟩ := ok_of_returned (hall dirty).1
  obtain ⟨_, hagain⟩ := ok_of_returned (hall dirty).2
  exact ⟨hvisit, hagain⟩

theorem clean_visit_keeps_name :
    NamesSettled (revisited false).trace ∧ sessionName "pgcat" (revisited false).trace = "app" := by
  have hsettled : NamesSettled (revisited false).trace := by
    have hall : (revisited false).trace.all Event.settled = true := by decide +kernel
    exact List.all_eq_true.mp hall
  refine ⟨hsettled, ?_⟩
  have hplain : ∀ use ∈ visit false, use.Plain := by
    intro use huse
    simp only [visit, List.mem_cons, List.not_mem_nil, or_false] at huse
    rcases huse with rfl | rfl | rfl
    · exact (by decide : PlainName "app")
    · trivial
    · trivial
  refine (session_name_iff (sessionName_laws "pgcat") 4 pool address (visit false) hplain "app" (by decide)
    ⟨rfl, rfl⟩ (visit_runs false).1 (visit_runs false).2 hsettled).mpr ?_
  have hfresh : stale (visited false).trace = false := by decide +kernel
  rw [hfresh]
  exact fun h => Bool.noConfusion h.2.1

/-- The session was reset, and the name that is remembered is not set again. -/
theorem forgotten_name :
    setName 4 "app" (visited true) = .ok () (revisited true) ∧ NamesSettled (revisited true).trace ∧
      NameLaws "pgcat" (sessionName "pgcat") ∧ sessionName "pgcat" (revisited true).trace = "pgcat" := by
  refine ⟨(visit_runs true).2, ?_, sessionName_laws "pgcat", ?_⟩
  · have hall : (revisited true).trace.all Event.settled = true := by decide +kernel
    exact List.all_eq_true.mp hall
  · decide +kernel

end Sample

end PgCat.Session
