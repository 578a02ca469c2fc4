import PgCat.Session.Routing

/-!
# Settings — the settings a simple query is routed under

The router looks at a message before the pool of this message is looked up, so it works with the
settings of the lookup before, or with the default ones if there was none.  So a simple query was
passed to `infer` with the settings of its pool exactly if these are the settings the router had
already.
-/

namespace PgCat.Session

open Lib Protocol Config Router QueryRouter

/-! ## Reading a trace -/

/-- The settings the last message was passed to the router with, if it was. -/
def inferredUnder : List Event → Option PoolSettings
  | [] => none
  | .message _ :: _ => none
  | .inferred _ s :: _ => some s
  | _ :: t => inferredUnder t

def beforeMessage : List Event → List Event
  | [] => []
  | .message _ :: t => t
  | _ :: t => beforeMessage t

def routerSettings : List Event → PoolSettings
  | [] => .default
  | .lookup _ _ pool :: _ => pool.settings
  | _ :: t => routerSettings t

def Event.keepsParser : Event → Bool
  | .command .setServerRole _ => false
  | _ => true

variable {e : Event} {pool : ConnectionPool} {r' : QueryRouter}

theorem inferredUnder_note (he : e.isNote = true) (t : List Event) :
    inferredUnder (e :: t) = inferredUnder t := by
  cases e with
  | message m => cases he
  | inferred m s => cases he
  | _ => rfl

theorem beforeMessage_note (he : e.isNote = true) (t : List Event) :
    beforeMessage (e :: t) = beforeMessage t := by
  cases e with
  | message m => cases he
  | _ => rfl

theorem routerSettings_aside (he : e.isAside = true) (t : List Event) :
    routerSettings (e :: t) = routerSettings t := by
  cases e with
  | lookup m r pool => cases he
  | _ => rfl

/-! ## Statement -/

/-- What holds when a connection is asked for. -/
def Passed (ext : Externals) : Event → List Event → Prop
  | .get pool _ role m, t => m.frontend = .query → pool.settings.queryParserEnabled = true →
      (inferredUnder t = some pool.settings ↔ routerSettings (beforeMessage t) = pool.settings) ∧
      (routerSettings (beforeMessage t) = pool.settings → writes ext m = true →
        role = some .primary)
  | _, _ => True

theorem Passed.aside {ext : Externals} (e : Event) (t : List Event) (he : e.isAside = true) :
    Passed ext e t := by
  cases e with
  | get pool shard role m => cases he
  | _ => trivial

/-! ## Annotations -/

structure UpToDate (ext : Externals) (w : World) : Prop where
  settings : w.router.poolSettings = routerSettings w.trace
  parser : w.router.queryParserOverride = none
  calls : w.Each (Passed ext)

structure LookedAt (ext : Externals) (m : Message) (s : PoolSettings) (w : World) : Prop where
  inferred : inferredUnder w.trace = if s.queryParserEnabled then some s else none
  before : routerSettings (beforeMessage w.trace) = s
  role : s.queryParserEnabled = true → writes ext m = true →
    w.router.activeRole = some .primary

variable {ext : Externals} {w w' : World} {m : Message}

theorem UpToDate.aside (h : Aside Event.isAside w w') (hw : UpToDate ext w) : UpToDate ext w' := by
  refine ⟨?_, ?_, h.each Passed.aside hw.calls⟩
  · rw [h.router, hw.settings]
    rcases h.trace with htrace | ⟨e, he, htrace⟩
    · rw [htrace]
    · rw [htrace, routerSettings_aside he]
  · rw [h.router]
    exact hw.parser

theorem LookedAt.aside {s : PoolSettings} (h : Aside Event.isNote w w') (hw : LookedAt ext m s w) :
    LookedAt ext m s w' := by
  have hsame : inferredUnder w'.trace = inferredUnder w.trace ∧
      beforeMessage w'.trace = beforeMessage w.trace := by
    rcases h.trace with htrace | ⟨e, he, htrace⟩
    · rw [htrace]
      exact ⟨rfl, rfl⟩
    · rw [htrace]
      exact ⟨inferredUnder_note he _, beforeMessage_note he _⟩
  refine ⟨hsame.1.trans hw.inferred, ?_, ?_⟩
  · rw [hsame.2]
    exact hw.before
  · rw [h.router]
    exact hw.role

theorem UpToDate.enabled (hw : UpToDate ext w) :
    w.router.queryParserEnabled = w.router.poolSettings.queryParserEnabled := by
  simp [queryParserEnabled, hw.parser]

theorem routerSettings_arrival (m : Message) (r : QueryRouter) (t : List Event) :
    routerSettings (arrival m r ++ t) = routerSettings t := by
  unfold arrival
  split
  · rfl
  · rfl

theorem UpToDate.arrives (hw : UpToDate ext w) (h : lookAt ext m w.router = some r') :
    UpToDate ext { w with router := r', trace := arrival m w.router ++ w.trace } := by
  have hinf := lookAt_inferred h
  refine ⟨?_, hinf.parser.trans hw.parser, hw.calls.arrival rfl ?_⟩
  · rw [hinf.settings, hw.settings]
    exact (routerSettings_arrival m w.router w.trace).symm
  · rintro e t (rfl | rfl)
    · trivial
    · trivial

theorem UpToDate.lookedAt (hw : UpToDate ext w) (hm : m.frontend = .query)
    (h : lookAt ext m w.router = some r') :
    LookedAt ext m r'.poolSettings
      { w with router := r', trace := arrival m w.router ++ w.trace } := by
  rw [(lookAt_inferred h).settings]
  have hmInferable : inferable m = true := by simp [inferable, hm]
  unfold arrival
  rw [hw.enabled, hmInferable, Bool.and_true]
  cases henabled : w.router.poolSettings.queryParserEnabled with
  | false => exact ⟨by simp [inferredUnder, henabled], hw.settings.symm, by simp [henabled]⟩
  | true =>
    refine ⟨by simp [inferredUnder, henabled], hw.settings.symm, fun _ hwrites => ?_⟩
    simp only [lookAt, hw.enabled, henabled, if_true, hm] at h
    rcases Option.map_eq_some_iff.mp h with ⟨⟨r₁, ok⟩, hinfer, rfl⟩
    exact (infer_primary_iff (.inl hm) hinfer).mpr hwrites

theorem UpToDate.commands {rand : Nat} {c : Command}
    {value : String} (hw : UpToDate ext w) (hc : c ≠ .setServerRole)
    (h : w.router.tryExecuteCommand ext rand m.bytes = some (r', some (c, value))) :
    UpToDate ext { w with
      router := answered pool w.router.shard c r'
      trace := .command c value :: w.trace } := by
  have hexec : QueryRouter.Executed w.router r' c := tryExecuteCommand_attempted h
  refine ⟨?_, ?_, hw.calls.cons rfl trivial⟩
  · rw [answered_poolSettings, hexec.settings]
    exact hw.settings
  · rw [answered_queryParserOverride, hexec.parser hc]
    exact hw.parser

theorem LookedAt.passed {s : PoolSettings} {role : Option Role}
    (hw : LookedAt ext m s w) (shard : Nat) (hrole : role = w.router.activeRole) :
    Passed ext (.get pool shard role m) w.trace := by
  intro _ henabled
  rw [hw.inferred, hw.before]
  refine ⟨?_, ?_⟩
  · constructor
    · intro h
      split at h
      · exact Option.some.inj h
      · cases h
    · rintro rfl
      rw [if_pos henabled]
  · rintro rfl hwrites
    rw [hrole]
    exact hw.role henabled hwrites

theorem UpToDate.gets {rand : Nat} (hw : UpToDate ext w)
    (hlooked : m.frontend = .query → ∃ s, LookedAt ext m s w)
    (h : w.router.tryExecuteCommand ext rand m.bytes = some (r', none)) :
    UpToDate ext { w with router := r', trace := .get pool r'.shard r'.role m :: w.trace } := by
  have hsame : w.router.SameButShard r' := (tryExecuteCommand_attempted h).1
  refine ⟨hsame.settings.trans hw.settings, hsame.parser.trans hw.parser, hw.calls.cons rfl ?_⟩
  intro hm
  rcases hlooked hm with ⟨s, hs⟩
  exact hs.passed r'.shard hsame.role hm

theorem upToDate_annotated (ext : Externals) :
    Annotated ext (fun w => w.All Event.keepsParser → UpToDate ext w)
      (fun m w => w.All Event.keepsParser → UpToDate ext w ∧
        (m.frontend = .query → LookedAt ext m w.router.poolSettings w))
      (fun m _ w => w.All Event.keepsParser → UpToDate ext w ∧
        (m.frontend = .query → ∃ s, LookedAt ext m s w))
      (fun w => w.All Event.keepsParser → w.Each (Passed ext)) where
  aside_idle h hw hk := (hw (h.all_before hk)).aside (h.mono fun _ => Event.isAside_isIdle)
  aside_read := by
    intro m w w' h hw hk
    rcases hw (h.all_before hk) with ⟨hup, hlooked⟩
    refine ⟨hup.aside (h.mono fun _ => Event.isAside_isNote), fun hm => ?_⟩
    rw [h.router]
    exact (hlooked hm).aside h
  aside_found := by
    intro m pool w w' h hw hk
    rcases hw (h.all_before hk) with ⟨hup, hlooked⟩
    refine ⟨hup.aside (h.mono fun _ => Event.isAside_isNote), fun hm => ?_⟩
    rcases hlooked hm with ⟨s, hs⟩
    exact ⟨s, hs.aside h⟩
  done hw hk := (hw hk).calls
  done_found hw hk := (hw hk).1.calls
  arrives := by
    intro w m r' hw h hk
    have hup := hw (hk.before_arrival rfl)
    exact ⟨hup.arrives h, fun hm => hup.lookedAt hm h⟩
  panics := by
    intro w m hw hk
    refine (hw (hk.before_arrival rfl)).calls.arrival rfl ?_
    rintro e t (rfl | rfl)
    · trivial
    · trivial
  buffered hw hk := (hw hk).1
  looks := by
    intro m w pool _ hw hk
    rcases hw (hk.tail rfl).1 with ⟨hup, hlooked⟩
    refine ⟨⟨rfl, hup.parser, hup.calls.cons rfl trivial⟩, fun hm => ?_⟩
    have hs := hlooked hm
    exact ⟨_, hs.inferred, hs.before, hs.role⟩
  commands := by
    intro m pool w rand r' c value hw h hk
    rcases hk.tail rfl with ⟨hbefore, hcommand⟩
    have hc : c ≠ .setServerRole := by
      rintro rfl
      cases hcommand
    exact (hw hbefore).1.commands hc h
  gets := by
    intro m pool w rand r' hw h hk
    rcases hw (hk.tail rfl).1 with ⟨hup, hlooked⟩
    exact hup.gets hlooked h

/-- In a session without `SET SERVER ROLE`, a simple query for a pool with the query parser enabled was
passed to `infer` with the settings of this pool just when the pool looked up before had the same
settings; a write is then sent to the primary. -/
theorem query_inferred_iff (fuel : Nat) (ext : Externals) (client : Client) (map : ClientServerMap)
    (script : List Input)
    (hkeeps : ∀ e ∈ (final (handle fuel ext) (.start client map script)).trace,
      e.keepsParser = true)
    (c : Call) (hc : c ∈ calls (final (handle fuel ext) (.start client map script)).trace)
    (hm : c.message.frontend = .query) (hparser : c.pool.settings.queryParserEnabled = true) :
    (inferredUnder c.before = some c.pool.settings ↔
      routerSettings (beforeMessage c.before) = c.pool.settings) ∧
    (routerSettings (beforeMessage c.before) = c.pool.settings →
      writes ext c.message = true → c.role = some .primary) := by
  have hstart : (World.start client map script).All Event.keepsParser →
      UpToDate ext (.start client map script) := by
    refine fun _ => ⟨rfl, rfl, ?_⟩
    intro e t hsuffix
    cases List.suffix_nil.mp hsuffix
  have haside : ∀ {w w'}, Aside Event.isAside w w' → (w.All Event.keepsParser → UpToDate ext w) →
      w'.All Event.keepsParser → UpToDate ext w' :=
    fun h hw hk => (hw (h.all_before hk)).aside h
  have hserve := serve_aside haside (upToDate_annotated ext).done fuel
  exact (upToDate_annotated ext).session fuel hserve hstart hkeeps _ c.before (calls_suffix hc) hm hparser

def parserPool : ConnectionPool where
  addresses := [[Sample.address]]
  settings := { PoolSettings.default with queryParserEnabled := true }
  paused := false
  sized := rfl

def insertParser : Externals where
  parseSql text := if text = "INSERT" then some [.other] else some [.query plainSelect]
  sha1Digest _ := 0
  checks := false

/-- A query outside a transaction and its reply. -/
def parserScript (text : String) : List Input :=
  [.client (simpleQuery text), .pool (some parserPool), .random 0, .order [Sample.address],
    .candidate (.fresh (Sample.conn 1)), .idleTimeoutSetting 1000] ++
    Sample.exchange [Sample.complete text, Sample.ready 'I']

def parserRun (script : List Input) : World :=
  final (handle 4 insertParser) (.start Sample.client (fun _ => none) script)

/-- Of two writes the second one is inferred. -/
theorem second_write_primary :
    ((calls (parserRun (parserScript "INSERT" ++ parserScript "INSERT")).trace).map Call.role) =
      [some .primary, none] ∧
    ∀ c ∈ calls (parserRun (parserScript "INSERT" ++ parserScript "INSERT")).trace,
      (inferredUnder c.before = some c.pool.settings ↔
        routerSettings (beforeMessage c.before) = c.pool.settings) ∧
      (routerSettings (beforeMessage c.before) = c.pool.settings →
        writes insertParser c.message = true → c.role = some .primary) := by
  refine ⟨by decide +kernel, fun c hc => ?_⟩
  have hpool : ∀ c ∈ calls (parserRun (parserScript "INSERT" ++ parserScript "INSERT")).trace,
      c.message.frontend = .query ∧ c.pool.settings.queryParserEnabled = true := by
    decide +kernel
  exact query_inferred_iff 4 insertParser Sample.client (fun _ => none) _ (by decide +kernel) c hc
    (hpool c hc).1 (hpool c hc).2

/-- The first write of a session is not inferred, and any server will do for it. -/
theorem first_write_anywhere :
    ((calls (parserRun (parserScript "INSERT")).trace).map fun c =>
      (c.pool.settings.queryParserEnabled, writes insertParser c.message,
        (inferredUnder c.before).isSome, c.role)) = [(true, true, false, none)] := by
  decide +kernel

end PgCat.Session
