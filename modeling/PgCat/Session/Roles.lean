import PgCat.Session.Routing

/-!
# Roles — the role a connection is asked for

A new router has no role, and taking over the settings of a pool does not give it one: `default_role` is
read by `SET SERVER ROLE TO 'default'` and by nothing else.  As long as the parser is off and no role was
set, connections are asked for with no role, whatever default is configured.
-/

namespace PgCat.Session

open Lib Protocol Router

def Event.unguided : Event → Bool
  | .lookup _ _ pool => !pool.settings.queryParserEnabled
  | .command c _ => c != .setServerRole
  | _ => true

def Event.anyRole : Event → Bool
  | .get _ _ role _ => role == none
  | _ => true

/-- The router has no role and does not look for one, and no call had one. -/
structure Roleless (w : World) : Prop where
  role : w.router.role = none
  parser : w.router.queryParserOverride = none
  settings : w.router.poolSettings.queryParserEnabled = false
  calls : w.All Event.anyRole

theorem Event.anyRole_aside (e : Event) (he : e.isAside = true) : e.anyRole = true := by
  cases e with
  | get pool shard role m => cases he
  | _ => rfl

variable {ext : Externals} {w : World}

theorem Roleless.aside {w' : World} (h : Aside Event.isAside w w') (hw : Roleless w) : Roleless w' := by
  refine ⟨?_, ?_, ?_, h.all Event.anyRole_aside hw.calls⟩
  · rw [h.router]
    exact hw.role
  · rw [h.router]
    exact hw.parser
  · rw [h.router]
    exact hw.settings

theorem Roleless.lookAt (hw : Roleless w) (m : Message) : Session.lookAt ext m w.router = some w.router := by
  have hdisabled : w.router.queryParserEnabled = false := by
    rw [QueryRouter.queryParserEnabled, hw.parser]
    exact hw.settings
  rw [Session.lookAt, hdisabled]
  rfl

theorem Roleless.arrival (hw : Roleless w) (m : Message) :
    Roleless { w with trace := Session.arrival m w.router ++ w.trace } := by
  refine ⟨hw.role, hw.parser, hw.settings, hw.calls.arrival rfl fun e he => ?_⟩
  rcases arrival_cases he with rfl | rfl
  · rfl
  · rfl

theorem Roleless.commands {m : Message} {pool : ConnectionPool} {rand : Nat}
    {r' : QueryRouter} {c : Command} {value : String} (hw : Roleless w)
    (h : w.router.tryExecuteCommand ext rand m.bytes = some (r', some (c, value)))
    (hc : c ≠ .setServerRole) :
    Roleless { w with
      router := answered pool w.router.shard c r'
      trace := .command c value :: w.trace } := by
  have hr' : r'.role = none ∧ r'.queryParserOverride = none ∧ r'.poolSettings.queryParserEnabled = false := by
    cases QueryRouter.tryExecuteCommand_sets h with
    | role => exact absurd rfl hc
    | shard | reads | nothing => exact ⟨hw.role, hw.parser, hw.settings⟩
  refine ⟨?_, ?_, ?_, hw.calls.cons rfl rfl⟩
  · exact (answered_role pool w.router.shard c r').trans hr'.1
  · exact (answered_queryParserOverride pool w.router.shard c r').trans hr'.2.1
  · change (answered pool w.router.shard c r').poolSettings.queryParserEnabled = false
    rw [answered_poolSettings]
    exact hr'.2.2

theorem Roleless.gets {m : Message} {pool : ConnectionPool} {rand : Nat} {r' : QueryRouter} (hw : Roleless w)
    (h : w.router.tryExecuteCommand ext rand m.bytes = some (r', none)) :
    Roleless { w with router := r', trace := .get pool r'.shard r'.role m :: w.trace } := by
  obtain ⟨hsame, -⟩ := QueryRouter.tryExecuteCommand_attempted h
  have hrole : r'.role = none := hsame.role.trans hw.role
  refine ⟨hrole, hsame.parser.trans hw.parser, ?_, hw.calls.cons rfl ?_⟩
  · change r'.poolSettings.queryParserEnabled = false
    rw [hsame.settings]
    exact hw.settings
  · change (r'.role == none) = true
    rw [hrole]
    rfl

/-- The same of a run so far, if nothing in it guides the router. -/
def Unguided (w : World) : Prop :=
  w.All Event.unguided → Roleless w

theorem Unguided.aside {kind : Event → Bool} (hkind : ∀ e, kind e = true → e.isAside = true)
    {w' : World} (h : Aside kind w w') (hw : Unguided w) : Unguided w' := fun hall =>
  (hw (h.all_before hall)).aside (h.mono hkind)

theorem unguided_annotated (ext : Externals) :
    Annotated ext Unguided (fun _ => Unguided) (fun _ _ => Unguided)
      (fun w => w.All Event.unguided → w.All Event.anyRole) where
  aside_idle h hw := hw.aside (fun _ => Event.isAside_isIdle) h
  aside_read h hw := hw.aside (fun _ => Event.isAside_isNote) h
  aside_found h hw := hw.aside (fun _ => Event.isAside_isNote) h
  done hw hall := (hw hall).calls
  done_found hw hall := (hw hall).calls
  arrives := by
    intro w m r' hw hlook hall
    have hroleless := hw (hall.before_arrival rfl)
    rw [hroleless.lookAt m] at hlook
    cases hlook
    exact hroleless.arrival m
  panics := by
    intro w m hw hall
    exact ((hw (hall.before_arrival rfl)).arrival m).calls
  buffered hw := hw
  looks := by
    intro m w pool _ hw hall
    obtain ⟨hbefore, hlookup⟩ := hall.tail rfl
    have hroleless := hw hbefore
    have hoff : pool.settings.queryParserEnabled = false := by simpa [Event.unguided] using hlookup
    exact ⟨hroleless.role, hroleless.parser, hoff, hroleless.calls.cons rfl rfl⟩
  commands := by
    intro m pool w rand r' c value hw h hall
    obtain ⟨hbefore, hcommand⟩ := hall.tail rfl
    exact (hw hbefore).commands h (by simpa [Event.unguided] using hcommand)
  gets hw h hall := (hw (hall.tail rfl).1).gets h

/-- In every session in which no role was set and no pool has the parser enabled, connections are asked
for with the default role exactly if no pool they are asked from has one. -/
theorem default_role_iff (fuel : Nat) (ext : Externals) (client : Client) (map : ClientServerMap)
    (script : List Input)
    (hunguided : ∀ e ∈ (final (handle fuel ext) (.start client map script)).trace, e.unguided = true) :
    (∀ c ∈ calls (final (handle fuel ext) (.start client map script)).trace,
        c.role = c.pool.settings.defaultRole) ↔
      ∀ c ∈ calls (final (handle fuel ext) (.start client map script)).trace,
        c.pool.settings.defaultRole = none := by
  have hstart : Unguided (.start client map script) := by
    refine fun _ => ⟨rfl, rfl, rfl, ?_⟩
    intro e he
    cases he
  have haside : ∀ {w w'}, Aside Event.isAside w w' → Unguided w → Unguided w' := fun h hw =>
    hw.aside (fun _ he => he) h
  have hserve := serve_aside haside (unguided_annotated ext).done fuel
  have hall := (unguided_annotated ext).session fuel hserve hstart hunguided
  have hnone : ∀ c ∈ calls (final (handle fuel ext) (.start client map script)).trace, c.role = none := by
    intro c hc
    have hcall := hall _ ((calls_suffix hc).subset List.mem_cons_self)
    simpa [Event.anyRole] using hcall
  refine forall₂_congr fun c hc => ?_
  rw [hnone c hc, eq_comm]

namespace Sample

/-- A pool whose servers should be asked for as primaries. -/
def primaryPool : ConnectionPool where
  addresses := [[address]]
  settings := { Config.PoolSettings.default with defaultRole := some .primary }
  paused := false
  sized := rfl

def queryOn (pool : ConnectionPool) : List Input :=
  [.client (simpleQuery "SELECT 1"), .pool (some pool), .random 0, .order [address],
    .candidate (.fresh (conn 1)), .idleTimeoutSetting 1000]

/-- The default role is not asked for. -/
theorem default_role_not_asked :
    (run (queryOn primaryPool)).trace.all Event.unguided = true ∧
      (calls (run (queryOn primaryPool)).trace).map (fun c => (c.role, c.pool.settings.defaultRole)) =
        [(none, some .primary)] := by
  decide +kernel

theorem no_default_role :
    (calls (run (queryOn pool)).trace).length = 1 ∧
      ∀ c ∈ calls (run (queryOn pool)).trace, c.role = c.pool.settings.defaultRole :=
  ⟨by decide +kernel, (default_role_iff 4 externals client (fun _ => none) (queryOn pool) (by decide +kernel)).mpr
    (by decide +kernel)⟩

end Sample

end PgCat.Session
