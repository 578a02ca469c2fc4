import PgCat.Admin.Show
import PgCat.Lib.Words

/-!
# Handle — the commands of the admin database

`handle_admin`: the text of a query is taken from the message, split into words, and the first word (with
`SHOW`, the second as well) says what is to be done.  Words are taken by index, so that a text without words
panics, and so does a command that needs a second word and has none; `BAN` and `UNBAN` look their arguments up
and complain.

An answer is a `Reply`.  Whatever it is, its messages end with the only `ReadyForQuery` among them, and a
client finds them in the stream exactly if none of them is too long for its length word.
-/

namespace PgCat.Admin

open Lib
open Auth (readMessage frame_of_readMessage)
open Protocol (Message bufferBytes)
open Install (PoolIdentifier)

/-! ## Replies -/

def completeMessage (tag : String) : Message :=
  .ofChar 'C' (utf8 tag ++ [0])

def errorMessage (text : String) : Message :=
  .ofChar 'E' (utf8 "S" ++ utf8 "FATAL\x00" ++ utf8 "V" ++ utf8 "FATAL\x00" ++ utf8 "C" ++
    utf8 "58000\x00" ++ utf8 "M" ++ (utf8 text ++ [0]) ++ [0])

/-- Idle. -/
def readyForQuery : Message :=
  .ofChar 'Z' (utf8 "I")

inductive Reply
  | table (t : Table)
  | complete (tag : String)
  | error (text : String)

/-- What is written before `ReadyForQuery`. -/
def Reply.body : Reply → List Message
  | .table t => descriptionMessage t.columns :: t.rows.map rowMessage ++ [completeMessage t.tag]
  | .complete tag => [completeMessage tag]
  | .error text => [errorMessage text]

def Reply.messages (r : Reply) : List Message :=
  r.body ++ [readyForQuery]

theorem Reply.body_not_ready (r : Reply) : ∀ m ∈ r.body, m.code ≠ readyForQuery.code := by
  have hcodes : ∀ m ∈ r.body, m.code = 84 ∨ m.code = 68 ∨ m.code = 67 ∨ m.code = 69 := by
    cases r with
    | table t =>
      intro m hm
      simp only [body, List.mem_append, List.mem_cons, List.mem_map, List.not_mem_nil, or_false] at hm
      rcases hm with (rfl | ⟨row, -, rfl⟩) | rfl
      · exact .inl rfl
      · exact .inr (.inl rfl)
      · exact .inr (.inr (.inl rfl))
    | complete tag =>
      intro m hm
      cases List.mem_singleton.mp hm
      exact .inr (.inr (.inl rfl))
    | error text =>
      intro m hm
      cases List.mem_singleton.mp hm
      exact .inr (.inr (.inr rfl))
  intro m hm
  rcases hcodes m hm with h | h | h | h
  all_goals rw [h]; decide

/-! ## The stream -/

/-- A client finds the messages in the stream. -/
def Delivered (ms : List Message) : Prop :=
  getAll getMessage (bufferBytes ms).length (bufferBytes ms) = some (ms.map fun m => (m.code, m.payload))

theorem getMessage_cons (code : UInt8) (bs : Bytes) (h : 4 ≤ bs.length) :
    getMessage (code :: bs) =
      if word bs < 4 then none
      else (getBytes ((word bs).toNat - 4) (bs.drop 4)).map fun r => ((code, r.1), r.2) := by
  have hlen : getI32 bs = some (word bs, bs.drop 4) := if_pos h
  change (getI32 bs).bind (fun r => (if r.1 < 4 then failure else (do
    let payload ← getBytes (r.1.toNat - 4)
    pure (code, payload)) : Cursor (UInt8 × Bytes)) r.2) = _
  rw [hlen, Option.bind_some]
  dsimp only
  split
  · rfl
  · change (getBytes _ _).bind _ = _
    cases getBytes ((word bs).toNat - 4) (bs.drop 4) with
    | none => rfl
    | some r => rfl

theorem fits_of_getMessage {m : Message} {rest rest' : Bytes}
    (h : getMessage (m.bytes ++ rest) = some ((m.code, m.payload), rest')) : m.payload.length + 4 < 2 ^ 31 := by
  have hputs : (putI32 (m.payload.length + 4)).length = 4 := length_beBytes 4 _
  have hbytes : m.bytes ++ rest = m.code :: (putI32 (m.payload.length + 4) ++ (m.payload ++ rest)) := by
    simp [Message.bytes]
  generalize hword : word (putI32 (m.payload.length + 4) ++ (m.payload ++ rest)) = len at *
  have hrange := word_range (putI32 (m.payload.length + 4) ++ (m.payload ++ rest))
  rw [hbytes, getMessage_cons _ _ (by simp [hputs]), hword] at h
  rw [hword] at hrange
  split at h
  · cases h
  · obtain ⟨⟨payload, tail⟩, hget, heq⟩ := Option.map_eq_some_iff.mp h
    rw [List.drop_left' hputs] at hget
    unfold getBytes at hget
    split at hget
    · rename_i hroom
      -- Had the length lost its upper bits, less than the payload would be read.
      cases hget
      have hlength := congrArg (fun r => r.1.2.length) heq
      simp only [List.length_take] at hlength
      omega
    · cases hget

theorem delivered_iff {ms : List Message} : Delivered ms ↔ ∀ m ∈ ms, m.payload.length + 4 < 2 ^ 31 := by
  constructor
  · suffices hfuel : ∀ (ms : List Message) (n : Nat), (bufferBytes ms).length ≤ n →
        getAll getMessage n (bufferBytes ms) = some (ms.map fun m => (m.code, m.payload)) →
          ∀ m ∈ ms, m.payload.length + 4 < 2 ^ 31 from hfuel ms _ (Nat.le_refl _)
    intro ms
    -- The first message that is read is the first that was written, so the reader is at the second one then.
    induction ms with
    | nil =>
      intro n _ _ m hm
      cases hm
    | cons m ms ih =>
      intro n hn h
      have hbytes : bufferBytes (m :: ms) = m.bytes ++ bufferBytes ms := List.flatMap_cons
      rw [hbytes] at h hn
      rw [List.length_append, Protocol.length_bytes] at hn
      obtain ⟨n, rfl⟩ : ∃ k, n = k + 1 := ⟨n - 1, by omega⟩
      obtain ⟨⟨a, rest⟩, hfirst, as, hrest, hpure⟩ :
          ∃ r, getMessage (m.bytes ++ bufferBytes ms) = some r ∧ ∃ as, getAll getMessage n r.2 = some as ∧
            r.1 :: as = (m :: ms).map fun m => (m.code, m.payload) := by
        obtain ⟨r, hr, hrest⟩ := Option.bind_eq_some_iff.mp h
        obtain ⟨as, has, hpure⟩ := Option.bind_eq_some_iff.mp hrest
        exact ⟨r, hr, as, has, Option.some.inj hpure⟩
      rw [List.map_cons, List.cons.injEq] at hpure
      obtain ⟨rfl, rfl⟩ := hpure
      have hfits := fits_of_getMessage hfirst
      rw [parses_message hfits] at hfirst
      cases hfirst
      exact List.forall_mem_cons.mpr ⟨hfits, ih n (by omega) hrest⟩
  · intro h
    refine Parses.all (fun m hm => ⟨?_, parses_message (h m hm)⟩) (Nat.le_refl _)
    simp [Message.bytes]

/-! ## Commands -/

inductive Listing
  | bans
  | config
  | databases
  | lists
  | pools
  | clients
  | servers
  | stats
  | version
  | users
  deriving DecidableEq, Repr

def Listing.ofWord : String → Option Listing
  | "BANS" => some .bans
  | "CONFIG" => some .config
  | "DATABASES" => some .databases
  | "LISTS" => some .lists
  | "POOLS" => some .pools
  | "CLIENTS" => some .clients
  | "SERVERS" => some .servers
  | "STATS" => some .stats
  | "VERSION" => some .version
  | "USERS" => some .users
  | _ => none

inductive Command
  | ban (args : List String)
  | unban (args : List String)
  | reload
  | set
  | pause (pair : String)
  | resume (pair : String)
  | shutdown
  | list (what : Option Listing)
  | unsupported
  deriving DecidableEq, Repr

def queryParts (query : String) : List String :=
  splitWhitespace (trimEndMatches ';' query)

/-- The command, unless a word is missing that is taken by index. -/
def Command.read : List String → Option Command
  | [] => none
  | word :: args =>
    match toAsciiUppercase word with
    | "BAN" => some (.ban args)
    | "UNBAN" => some (.unban args)
    | "RELOAD" => some .reload
    | "SET" => some .set
    -- The second word is `query_parts[1]`, which panics if there is none.
    | "PAUSE" => args.head?.map .pause
    | "RESUME" => args.head?.map .resume
    | "SHUTDOWN" => some .shutdown
    | "SHOW" => args.head?.map fun what => .list (Listing.ofWord (toAsciiUppercase what))
    | _ => some .unsupported

/-! ## What the commands do -/

inductive AdminError
  | protocolSync (message : String)
  | reload (failure : Install.Failure)
  deriving DecidableEq, Repr

inductive Outcome
  | panicked
  | failed (e : AdminError)
  | replied (reply : Reply) (after : Snapshot)

/-- A table that may not be there. -/
def Outcome.ofTable (table : Option Table) (after : Snapshot) : Outcome :=
  match table with
  | some t => .replied (.table t) after
  | none => .panicked

section Commands

variable (env : Environment) (st : Snapshot)

def ban : List String → Outcome
  | host :: seconds :: _ =>
    match parseI64 seconds.toList with
    | none => .replied (.error "duration_seconds must be an integer") st
    | some duration =>
      match banCommand host duration env.clock st.pools with
      | none => .panicked
      | some (.error text) => .replied (.error text) st
      | some (.ok swept) =>
        .replied (.table ⟨hostColumns, rows swept, "BAN"⟩) { st with pools := swept.map Prod.fst }
  | _ => .replied (.error "usage: BAN hostname duration_seconds") st

def unban : List String → Outcome
  | host :: _ =>
    match unbanCommand host st.pools with
    | none => .panicked
    | some swept =>
      .replied (.table ⟨hostColumns, rows swept, "UNBAN"⟩) { st with pools := swept.map Prod.fst }
  | [] => .replied (.error "UNBAN command requires a hostname to unban") st

/-- The sizes of the pools of a section are added up to be logged, as 32-bit words. -/
def totalPoolSize (pool : Install.Pool) : Nat :=
  (pool.users.values.map fun user => user.poolSize).foldl (· + ·) 0

/-- Logging the configuration panics if a sum is too large. -/
def showPanics (config : Install.Config) : Bool :=
  env.checks && env.logs && config.pools.entries.any fun e => decide (2 ^ 32 ≤ totalPoolSize e.2)

def reload : Outcome :=
  match env.reloaded with
  | .error failure => .failed (.reload failure)
  | .ok after => if showPanics env after.config then .panicked else .replied (.complete "RELOAD") after

def setPaused (id : PoolIdentifier) (flag : Bool) : Snapshot :=
  { st with pools := st.pools.map fun e => if e.id = id then { e with pool := { e.pool with paused := flag } } else e }

/-- `pause` and `resume` differ in the flag and in their name. -/
def switch (name : String) (flag : Bool) (pair : String) : Outcome :=
  match ((pair.toList.splitOn ',').map String.ofList).map trim with
  | [database, user] =>
    if st.pools.any fun e => e.id = ⟨database, user⟩ then
      .replied (.complete (name ++ " " ++ database ++ "," ++ user)) (setPaused st ⟨database, user⟩ flag)
    else
      .replied (.error ("No pool configured for database: " ++ database ++ ", user: " ++ user)) st
  | _ => .replied (.error (name ++ " requires a database and a user, e.g. " ++ name ++ " my_db,my_user")) st

def pause : String → Outcome :=
  switch st "PAUSE" true

def resume : String → Outcome :=
  switch st "RESUME" false

/-- The process sends itself a signal. -/
def shutdown : Outcome :=
  if env.pid < 2 ^ 31 then
    .replied (.table ⟨[("success", .text)], [[if env.killed then "t" else "f"]], "SHUTDOWN"⟩) st
  else .panicked

def list : Listing → Outcome
  | .bans => .ofTable (bansTable env st) st
  | .config => .replied (.table (configTable env st)) st
  | .databases => .ofTable (databasesTable st) st
  | .lists => .ofTable (listsTable st) st
  -- What was the longest wait is reset as it is read.
  | .pools => .replied (.table (poolsTable st)) { st with poolStats := st.poolStats.map PoolStats.clearMaxwait }
  | .clients => .replied (.table (clientsTable st)) st
  | .servers => .replied (.table (serversTable st)) st
  | .stats => .ofTable (statsTable st) st
  | .version => .replied (.table (versionTable env)) st
  | .users => .replied (.table (usersTable st)) st

def Command.run : Command → Outcome
  | .ban args => Admin.ban env st args
  | .unban args => Admin.unban st args
  | .reload => Admin.reload env
  | .set => .replied (.complete "SET") st
  | .pause pair => Admin.pause st pair
  | .resume pair => Admin.resume st pair
  | .shutdown => Admin.shutdown env st
  | .list (some what) => Admin.list env st what
  | .list none => .replied (.error "Unsupported SHOW query against the admin database") st
  | .unsupported => .replied (.error "Unsupported query against the admin database") st

/-- The text of a query: what stands between the length and the last byte. -/
def queryText (bytes : Bytes) : Option String := do
  let (len, query) ← getI32.run bytes
  let stop ← subUsize env.checks (asUsize len) 5
  if stop ≤ query.length then pure (fromUtf8Lossy (query.take stop)) else none

def readCommand (bytes : Bytes) : Option Command := do
  let text ← queryText env bytes
  Command.read (queryParts text)

def handleAdmin (query : Bytes) : Outcome :=
  match query with
  | [] => .panicked
  | code :: rest =>
    if code = 81 then
      match readCommand env rest with
      | some command => command.run env st
      | none => .panicked
    else
      .failed (.protocolSync ("Invalid code, expected 'Q' but got '" ++ String.singleton (Char.ofUInt8 code) ++ "'"))

end Commands

/-! ## Queries -/

/-- A query as `read_message` hands it on. -/
structure Query where
  payload : Bytes
  fits : payload.length + 4 < 2 ^ 31

namespace Query

def bytes (q : Query) : Bytes :=
  (Message.ofChar 'Q' q.payload).bytes

def text (q : Query) : String :=
  fromUtf8Lossy q.payload.dropLast

def command (q : Query) : Option Command :=
  Command.read (queryParts q.text)

/-- There is a last byte to leave out, a first word, and a second one if it is asked for. -/
def WellPosed (q : Query) : Prop :=
  q.payload ≠ [] ∧ ∃ word args, queryParts q.text = word :: args ∧
    (toAsciiUppercase word ∈ ["PAUSE", "RESUME", "SHOW"] → args ≠ [])

end Query

variable (env : Environment) (q : Query)

theorem queryText_bytes : queryText env q.bytes.tail = if q.payload = [] then none else some q.text := by
  have hfits := q.fits
  have hlen : getI32.run q.bytes.tail = some ((q.payload.length : Int) + 4, q.payload) :=
    @Parses.ofGetI32 ((q.payload.length : Int) + 4) (by omega) (by omega) q.payload
  have husize : asUsize ((q.payload.length : Int) + 4) = q.payload.length + 4 := by
    unfold asUsize ofSigned
    omega
  rw [queryText, hlen, some_bind]
  dsimp only
  rw [husize, Option.bind_eq_bind]
  by_cases hempty : q.payload = []
  · rw [if_pos hempty, hempty]
    cases env.checks <;> rfl
  · have hpos := List.length_pos_of_ne_nil hempty
    rw [if_neg hempty, subUsize, if_pos (by omega), Option.bind_some, if_pos (by omega), Query.text,
      List.dropLast_eq_take]
    rfl

theorem readCommand_bytes : readCommand env q.bytes.tail = if q.payload = [] then none else q.command := by
  rw [readCommand, queryText_bytes, Option.bind_eq_bind]
  by_cases hempty : q.payload = []
  · rw [if_pos hempty, if_pos hempty, Option.bind_none]
  · rw [if_neg hempty, if_neg hempty, Option.bind_some, Query.command]

theorem handleAdmin_bytes (st : Snapshot) (q : Query) : handleAdmin env st q.bytes =
      match if q.payload = [] then none else q.command with
      | some command => command.run env st
      | none => .panicked := by
  change (match readCommand env q.bytes.tail with
    | some command => command.run env st
    | none => .panicked) = _
  rw [readCommand_bytes]

theorem read_returns_iff {words : List String} : (∃ c, Command.read words = some c) ↔
    ∃ word args, words = word :: args ∧ (toAsciiUppercase word ∈ ["PAUSE", "RESUME", "SHOW"] → args ≠ []) := by
  cases words with
  | nil => simp [Command.read]
  | cons word args =>
    have hhead : (∃ arg, args.head? = some arg) ↔ args ≠ [] := by
      cases args <;> simp
    simp only [List.cons.injEq, Command.read]
    split
    all_goals simp_all

theorem wellPosed_iff {q : Query} :
    q.WellPosed ↔ ∃ c, (if q.payload = [] then none else q.command) = some c := by
  unfold Query.WellPosed
  rw [← read_returns_iff]
  by_cases hempty : q.payload = []
  · simp [hempty]
  · rw [if_neg hempty]
    exact and_iff_right hempty

/-! ## Answers -/

theorem banHost_returns_iff {duration : Int} {clock : Nat → Int} {host : String} {e : PoolEntry} :
    (∃ r, banHost duration clock host e = some r) ↔ Reachable host e :=
  sweepHost_returns_iff ban_local fun _ _ _ => ban_returns

theorem unbanHost_returns_iff {host : String} {e : PoolEntry} :
    (∃ r, unbanHost host e = some r) ↔ Reachable host e :=
  sweepHost_returns_iff unban_local fun _ _ _ => unban_returns

/-- What a command needs of the pools and of the machine not to panic. -/
def Ready (env : Environment) (st : Snapshot) : Command → Prop
  -- Usage errors are answered, whatever the pools are.
  | .ban (host :: seconds :: _) => ∀ duration, parseI64 seconds.toList = some duration → 0 < duration →
      ∀ e ∈ st.pools, Reachable host e
  | .unban (host :: _) => ∀ e ∈ st.pools, Reachable host e
  | .reload => ∀ after, env.reloaded = .ok after → showPanics env after.config = false
  | .shutdown => env.pid < 2 ^ 31
  | .list (some .bans) => 0 ≤ env.now ∧ ∀ e ∈ st.pools, ∀ banned ∈ getBans e.bans,
      ∃ left, remaining env.checks env.now e.pool banned.2 = some left
  | .list (some .databases) => ∀ e ∈ st.pools, Displayable e
  | .list (some .lists) => ∀ e ∈ st.pools, Listed e
  | .list (some .stats) => ∀ e ∈ st.pools, Listed e
  | _ => True

section Replies

variable {env : Environment} {st : Snapshot}

theorem replied_ofTable {table : Option Table} :
    (∃ reply after, Outcome.ofTable table st = .replied reply after) ↔ ∃ t, table = some t := by
  cases table <;> simp [Outcome.ofTable]

theorem ban_replies_iff {args : List String} :
    (∃ reply after, ban env st args = .replied reply after) ↔ Ready env st (.ban args) := by
  rcases args with _ | ⟨host, _ | ⟨seconds, rest⟩⟩
  · simp [ban, Ready]
  · simp [ban, Ready]
  · simp only [ban, Ready]
    cases hparse : parseI64 seconds.toList with
    | none => simp
    | some duration =>
      simp only [Option.some.injEq, forall_eq']
      by_cases hd : 0 < duration
      · have hreturns : (∃ swept, banCommand host duration env.clock st.pools = some (.ok swept)) ↔
            ∀ e ∈ st.pools, Reachable host e := by
          simp only [banCommand_eq_ok hd, mapM_returns_iff, banHost_returns_iff]
        simp only [hd, forall_const, ← hreturns]
        cases hrun : banCommand host duration env.clock st.pools with
        | none => simp
        | some result =>
          cases result with
          | ok swept => simp
          | error text =>
            rw [banCommand, if_neg (by omega)] at hrun
            obtain ⟨swept, -, hswept⟩ := Option.map_eq_some_iff.mp hrun
            cases hswept
      · rw [banCommand, if_pos (by omega)]
        simp [hd]

theorem unban_replies_iff {args : List String} :
    (∃ reply after, unban st args = .replied reply after) ↔ Ready env st (.unban args) := by
  cases args with
  | nil => simp [unban, Ready]
  | cons host rest =>
    have hreturns : (∃ swept, unbanCommand host st.pools = some swept) ↔ ∀ e ∈ st.pools, Reachable host e := by
      simp only [unbanCommand, mapM_returns_iff, unbanHost_returns_iff]
    simp only [unban, Ready, ← hreturns]
    cases unbanCommand host st.pools <;> simp

theorem switch_replies (name : String) (flag : Bool) (pair : String) :
    ∃ reply after, switch st name flag pair = .replied reply after := by
  unfold switch
  split
  · split
    · exact ⟨_, _, rfl⟩
    · exact ⟨_, _, rfl⟩
  · exact ⟨_, _, rfl⟩

theorem list_replies_iff (what : Listing) :
    (∃ reply after, list env st what = .replied reply after) ↔ Ready env st (.list (some what)) := by
  cases what with
  | bans => exact replied_ofTable.trans bansTable_returns_iff
  | databases => exact replied_ofTable.trans databasesTable_returns_iff
  | lists => exact replied_ofTable.trans listsTable_returns_iff
  | stats => exact replied_ofTable.trans statsTable_returns_iff
  | _ => exact iff_of_true ⟨_, _, rfl⟩ trivial

theorem run_replies_iff (hreload : ∃ after, env.reloaded = .ok after) (c : Command) :
    (∃ reply after, c.run env st = .replied reply after) ↔ Ready env st c := by
  cases c with
  | ban args => exact ban_replies_iff
  | unban args => exact unban_replies_iff
  | reload =>
    obtain ⟨after, hafter⟩ := hreload
    simp only [Command.run, reload, hafter, Ready, Except.ok.injEq, forall_eq']
    cases showPanics env after.config <;> simp
  | shutdown =>
    simp only [Command.run, shutdown, Ready]
    split
    · rename_i hpid
      exact iff_of_true ⟨_, _, rfl⟩ hpid
    · rename_i hpid
      exact iff_of_false (by simp) hpid
  | pause pair => exact iff_of_true (switch_replies "PAUSE" true pair) trivial
  | resume pair => exact iff_of_true (switch_replies "RESUME" false pair) trivial
  | list what =>
    cases what with
    | none => exact iff_of_true ⟨_, _, rfl⟩ trivial
    | some what => exact list_replies_iff what
  | set | unsupported => exact iff_of_true ⟨_, _, rfl⟩ trivial

end Replies

/-- A reply was written, a client finds its messages in the stream, and the last one is the only
`ReadyForQuery`. -/
def Outcome.Answers (outcome : Outcome) : Prop :=
  ∃ reply after, outcome = .replied reply after ∧ Delivered reply.messages ∧
    ∃ body, reply.messages = body ++ [readyForQuery] ∧ ∀ m ∈ body, m.code ≠ readyForQuery.code

/-- No message of the reply is too long for its length word. -/
def Outcome.Fits (outcome : Outcome) : Prop :=
  ∀ reply after, outcome = .replied reply after → ∀ m ∈ reply.messages, m.payload.length + 4 < 2 ^ 31

/-- If a reload does not fail, a query is answered exactly if no word is missing, the pools and the machine are
ready for the command, and the messages of the reply fit. -/
theorem admin_answers_iff (env : Environment) (st : Snapshot) (q : Query)
    (hreload : ∃ after, env.reloaded = .ok after) :
    (handleAdmin env st q.bytes).Answers ↔
      q.WellPosed ∧ ∀ command, q.command = some command →
        Ready env st command ∧ (command.run env st).Fits := by
  rw [handleAdmin_bytes, wellPosed_iff]
  by_cases hempty : q.payload = []
  · rw [if_pos hempty]
    exact iff_of_false (fun ⟨_, _, h, _⟩ => nomatch h) fun ⟨⟨_, h⟩, _⟩ => nomatch h
  · rw [if_neg hempty]
    cases hcommand : q.command with
    | none => exact iff_of_false (fun ⟨_, _, h, _⟩ => nomatch h) fun ⟨⟨_, h⟩, _⟩ => nomatch h
    | some command =>
      simp only [Option.some.injEq, exists_eq', true_and, forall_eq', ← run_replies_iff hreload]
      constructor
      · rintro ⟨reply, after, hrun, hdelivered, -⟩
        refine ⟨⟨reply, after, hrun⟩, fun reply' after' hrun' => ?_⟩
        rw [hrun] at hrun'
        cases hrun'
        exact delivered_iff.mp hdelivered
      · rintro ⟨⟨reply, after, hrun⟩, hfits⟩
        exact ⟨reply, after, hrun, delivered_iff.mpr (hfits reply after hrun), reply.body, rfl, reply.body_not_ready⟩

namespace Sample

def snapshot : Snapshot where
  config := .default
  pools := [fresh]
  poolStats := []
  clients := []
  servers := []
  addressStats := fun _ => ⟨0, 0, 0, 0, 0, 0, 0, 0, 0, 0, 0, 0, 0, 0, 0, 0⟩
  connections := fun _ => 0

def environment : Environment where
  checks := false
  logs := true
  version := "1.0.1"
  timeText := fun _ => "1970-01-01 00:00:00"
  debugText := fun text => "\"" ++ text ++ "\""
  now := 0
  clock := fun _ _ => 0
  pid := 1
  killed := true
  reloaded := .ok snapshot

def ask (text : String) (fits : (utf8 text ++ [0]).length + 4 < 2 ^ 31) : Query :=
  ⟨utf8 text ++ [0], fits⟩

theorem missing_words_panic :
    handleAdmin environment snapshot (ask ";" (by decide)).bytes = .panicked ∧
      handleAdmin environment snapshot (ask "SHOW;" (by decide)).bytes = .panicked ∧
        handleAdmin environment snapshot (ask "PAUSE" (by decide)).bytes = .panicked :=
  ⟨rfl, rfl, rfl⟩

theorem version_answered :
    (handleAdmin environment snapshot (ask "SHOW VERSION;" (by decide)).bytes).Answers := by
  have hcommand : (ask "SHOW VERSION;" (by decide)).command = some (.list (some .version)) := by decide +kernel
  refine (admin_answers_iff environment snapshot (ask "SHOW VERSION;" (by decide)) ⟨snapshot, rfl⟩).mpr
    ⟨⟨by decide, "SHOW", ["VERSION"], by decide +kernel, by simp⟩, fun command hread => ?_⟩
  rw [hcommand] at hread
  cases hread
  refine ⟨trivial, fun reply after hrun => ?_⟩
  cases hrun
  decide +kernel

end Sample

end PgCat.Admin
