import PgCat.Session.Routing

/-!
# Shards — the shard a connection is asked for

`ConnectionPool::get` indexes the addresses of the pool by the shard of the router.  Two things can take
this index out of bounds: a shard id in a comment, which is not checked, and a reload that shrinks
the pool below the shard the router is on.  Without them every call is in bounds.
-/

namespace PgCat.Session

open Lib Protocol Router

def Event.inBounds : Event → Bool
  | .get pool shard _ _ => shard < pool.shards
  | _ => true

/-- When a pool is looked up, a shard id in a comment of the message is one of the pool; without one, a
shrunken pool still has the shard of the router. -/
def Event.fits : Event → Bool
  | .lookup m router pool =>
    match (router.updatePoolSettings pool.settings).commentId m.bytes with
    | some id => id < pool.shards
    | none => router.poolSettings.shards ≤ pool.shards || router.shard < pool.shards
  | _ => true

def Bounded (w : World) : Prop :=
  w.All Event.fits →
    w.router.shard < w.router.poolSettings.shards ∧ w.All Event.inBounds

/-- The same, once the pool for a message was looked up. -/
structure Fitting (m : Message) (pool : ConnectionPool) (w : World) : Prop where
  settings : w.router.poolSettings = pool.settings
  shard : (w.router.commentId m.bytes).getD w.router.shard < pool.shards
  calls : w.All Event.inBounds

theorem Event.inBounds_aside (e : Event) (he : e.isAside = true) : e.inBounds = true := by
  cases e with
  | get pool shard role m => cases he
  | _ => rfl

variable {ext : Externals} {m : Message} {pool : ConnectionPool} {r' : QueryRouter} {w : World}

theorem Bounded.aside {w' : World} (h : Aside Event.isAside w w') (hw : Bounded w) : Bounded w' := by
  intro hfits
  rcases hw (h.all_before hfits) with ⟨hshard, hcalls⟩
  rw [h.router]
  exact ⟨hshard, h.all Event.inBounds_aside hcalls⟩

theorem Fitting.aside {w' : World}
    (h : Aside Event.isAside w w') (hw : Fitting m pool w) : Fitting m pool w' := by
  refine ⟨?_, ?_, h.all Event.inBounds_aside hw.calls⟩
  · rw [h.router]
    exact hw.settings
  · rw [h.router]
    exact hw.shard

theorem Bounded.arrives (hw : Bounded w) (h : lookAt ext m w.router = some r') :
    Bounded { w with router := r', trace := arrival m w.router ++ w.trace } := by
  intro hfits
  rcases hw (hfits.before_arrival rfl) with ⟨hshard, hcalls⟩
  have hinf := lookAt_inferred h
  refine ⟨?_, hcalls.arrival rfl fun e he => ?_⟩
  · change r'.shard < r'.poolSettings.shards
    rw [hinf.settings]
    exact QueryRouter.Within.shard_lt hinf.shard hshard
  · rcases arrival_cases he with rfl | rfl
    · rfl
    · rfl

theorem Bounded.looks (m : Message) (pool : ConnectionPool) (hw : Bounded w)
    (hfits : (w.after (.lookup m w.router pool)).All Event.fits) :
    Fitting m pool { w with
      router := w.router.updatePoolSettings pool.settings
      trace := .lookup m w.router pool :: w.trace } := by
  rcases hfits.tail rfl with ⟨hbefore, hlookup⟩
  rcases hw hbefore with ⟨hshard, hcalls⟩
  refine ⟨rfl, ?_, hcalls.cons rfl rfl⟩
  unfold Event.fits at hlookup
  dsimp only at hlookup ⊢
  cases hid : (w.router.updatePoolSettings pool.settings).commentId m.bytes with
  | some id => simpa [hid] using hlookup
  | none =>
    rw [hid] at hlookup
    rcases Bool.or_eq_true_iff.mp hlookup with hgrown | hlt
    · exact Nat.lt_of_lt_of_le hshard (of_decide_eq_true hgrown)
    · exact of_decide_eq_true hlt

theorem Fitting.commands {rand : Nat} {c : Command} {value : String} (hw : Fitting m pool w)
    (h : w.router.tryExecuteCommand ext rand m.bytes = some (r', some (c, value))) :
    Bounded { w with
      router := answered pool w.router.shard c r'
      trace := .command c value :: w.trace } := by
  have hexec : QueryRouter.Executed w.router r' c := QueryRouter.tryExecuteCommand_attempted h
  have hshards : w.router.poolSettings.shards = pool.shards := by
    rw [hw.settings]
    exact pool.sized
  -- Where a comment names a shard, no command is looked for.
  have hshard : w.router.shard < pool.shards := by
    cases hid : w.router.commentId m.bytes with
    | some id => cases (QueryRouter.tryExecuteCommand_of_commentId hid h).2
    | none => simpa [hid] using hw.shard
  intro _
  refine ⟨?_, hw.calls.cons rfl rfl⟩
  change (answered pool w.router.shard c r').shard < (answered pool w.router.shard c r').poolSettings.shards
  unfold answered
  split
  · change w.router.shard < r'.poolSettings.shards
    rw [hexec.settings, hshards]
    exact hshard
  · rename_i hrange
    rw [hexec.settings, hshards]
    by_cases hc : c = .setShard
    · exact Nat.lt_of_not_le fun hle => hrange ⟨hc, hle⟩
    · have hlt : w.router.shard < w.router.poolSettings.shards := hshards ▸ hshard
      exact hshards ▸ (hexec.shard hc).shard_lt hlt

theorem Fitting.gets {rand : Nat} (hw : Fitting m pool w)
    (h : w.router.tryExecuteCommand ext rand m.bytes = some (r', none)) :
    Bounded { w with router := r', trace := .get pool r'.shard r'.role m :: w.trace } := by
  rcases QueryRouter.tryExecuteCommand_attempted h with ⟨hsame, hshard⟩
  have hshards : w.router.poolSettings.shards = pool.shards := by
    rw [hw.settings]
    exact pool.sized
  have hlt : r'.shard < pool.shards := by
    have hnamed := hw.shard
    cases hid : w.router.commentId m.bytes with
    | some id =>
      rw [hid] at hnamed
      rw [(QueryRouter.tryExecuteCommand_of_commentId hid h).1]
      exact hnamed
    | none =>
      rw [hid] at hnamed
      rcases hshard with hwithin | ⟨id, -, hcomment⟩
      · have hbefore : w.router.shard < w.router.poolSettings.shards := hshards ▸ hnamed
        exact hshards ▸ hwithin.shard_lt hbefore
      · cases hid.symm.trans hcomment
  intro _
  refine ⟨?_, hw.calls.cons rfl (by simpa [Event.inBounds] using hlt)⟩
  change r'.shard < r'.poolSettings.shards
  rw [hsame.settings, hshards]
  exact hlt

def CallsBounded (w : World) : Prop :=
  w.All Event.fits → w.All Event.inBounds

theorem bounded_annotated (ext : Externals) :
    Annotated ext Bounded (fun _ => Bounded) (fun m pool w => w.All Event.fits → Fitting m pool w)
      CallsBounded where
  aside_idle h hw := hw.aside (h.mono fun _ => Event.isAside_isIdle)
  aside_read h hw := hw.aside (h.mono fun _ => Event.isAside_isNote)
  aside_found h hw hfits := (hw (h.all_before hfits)).aside (h.mono fun _ => Event.isAside_isNote)
  done hw hfits := (hw hfits).2
  done_found hw hfits := (hw hfits).calls
  arrives hw h := hw.arrives h
  panics := by
    intro w m hw hfits
    refine (hw (hfits.before_arrival rfl)).2.arrival rfl fun e he => ?_
    rcases arrival_cases he with rfl | rfl
    · rfl
    · rfl
  buffered hw := hw
  looks pool _ hw hfits := hw.looks _ pool hfits
  commands hw h hfits := (hw (hfits.tail rfl).1).commands h hfits
  gets hw h hfits := (hw (hfits.tail rfl).1).gets h hfits

/-- In every session in which shard ids in comments are ids of shards, and no reload takes away the shard the
router is on for a message without one, each connection is asked for a shard the pool has. -/
theorem get_in_bounds (fuel : Nat) (ext : Externals) (client : Client) (map : ClientServerMap)
    (script : List Input)
    (hfits : ∀ e ∈ (final (handle fuel ext) (.start client map script)).trace, e.fits = true) :
    ∀ c ∈ calls (final (handle fuel ext) (.start client map script)).trace,
      c.shard < c.pool.shards := by
  have hstart : Bounded (.start client map script) := by
    refine fun _ => ⟨Nat.zero_lt_one, ?_⟩
    intro e he
    cases he
  intro c hc
  have hserve := serve_aside (fun h hw => Bounded.aside h hw) (bounded_annotated ext).done fuel
  have hcalls := (bounded_annotated ext).session fuel hserve hstart hfits
  have hcall := hcalls _ ((calls_suffix hc).subset List.mem_cons_self)
  simpa [Event.inBounds] using hcall

/-- The expression `/\* shard_id: (\d+) \*/` of the tests of the router. -/
def shardIdRegex : Config.Regex where
  captures text :=
    let anything : Re := .star (.char fun _ => true)
    (Re.capture (.seq anything (.word "/* shard_id: ")) Command.digits (.seq (.word " */") anything)
      text.toList).map fun id => some (String.ofList id)

def commentPool : ConnectionPool where
  addresses := [[Sample.address]]
  settings := { Config.PoolSettings.default with shardIdRegex := some shardIdRegex }
  paused := false
  sized := rfl

def commentScript (text : String) : List Input :=
  [.client (simpleQuery text), .pool (some commentPool), .random 0, .order [Sample.address],
    .candidate (.fresh (Sample.conn 1)), .idleTimeoutSetting 1000]

theorem comment_in_bounds :
    (calls (Sample.run (commentScript "/* shard_id: 0 */ SELECT 1")).trace).length = 1 ∧
    ∀ c ∈ calls (Sample.run (commentScript "/* shard_id: 0 */ SELECT 1")).trace,
      c.shard < c.pool.shards :=
  ⟨by decide +kernel, get_in_bounds 4 Sample.externals Sample.client (fun _ => none)
    (commentScript "/* shard_id: 0 */ SELECT 1") (by decide +kernel)⟩

/-- The id of a comment is not checked. -/
theorem comment_out_of_bounds :
    ((calls (Sample.run (commentScript "/* shard_id: 99 */ SELECT 1")).trace).map fun c =>
      (c.shard, c.pool.shards)) = [(99, 1)] := by
  decide +kernel

end PgCat.Session
