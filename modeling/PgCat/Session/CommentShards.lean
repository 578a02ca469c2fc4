import PgCat.Router.Malformed
import PgCat.Session.Script

/-!
# CommentShards — comments in the simple and in the extended protocol

`try_execute_command` searches a `Query` and a `Parse` for a comment.  The outer loop reaches it with a
`Query`; a `Parse` is buffered and the loop turns, and the `Sync` that asks for the server is not searched.
So the same text with the same comment may lead to two shards: as a simple query to the one of the comment,
as `Parse`, `Bind`, `Execute` and `Sync` to the one the router is on when it has looked at them.
-/

namespace PgCat.Session

open Lib Protocol Router QueryRouter

@[simp] def Event.asksShard : Event → Option Nat
  | .get _ shard _ _ => some shard
  | _ => none

/-- The shards connections were asked for, oldest first. -/
def shardsAsked (trace : List Event) : List Nat :=
  observed Event.asksShard trace

@[simp] theorem shardsAsked_cons (e : Event) (trace : List Event) :
    shardsAsked (e :: trace) = shardsAsked trace ++ e.asksShard.toList :=
  observed_cons _ e trace

theorem shardsAsked_arrival (m : Message) (r : QueryRouter) (trace : List Event) :
    shardsAsked (arrival m r ++ trace) = shardsAsked trace := by
  unfold arrival
  split
  · simp
  · simp

def parseWith (name text types : Bytes) : Message :=
  .ofChar 'P' (name ++ [0] ++ text ++ [0] ++ types)

/-- The shard a comment in the searched part of the simple query asks for, with the settings of the pool. -/
def commentIn (ext : Externals) (pool : ConnectionPool) (text : Bytes) : Option Nat :=
  let r := new.updatePoolSettings pool.settings
  r.shardIn ext (r.segment (queryMessage text))

/-- A message, the lookup of its pool and the number drawn for it: all that happens up to the checkout. -/
def asking (m : Message) (lookup : List Input) (rand : Nat) : List Input :=
  .client m :: (lookup ++ [.random rand])

section Turns

variable (fuel n : Nat) {ext : Externals} {w : World} {m : Message} {pool : ConnectionPool}

/-- The outer loop of `handle`. -/
def turns (fuel n : Nat) (ext : Externals) : Program Unit :=
  repeatUntil .pending n (fun _ => handleTurn fuel ext) ()

/-- What the loop asks for on a script: the shard that `asked` says of the router it starts with, and
nothing if that is `none`. -/
def AsksShard (fuel n : Nat) (ext : Externals) (script : List Input) (asked : QueryRouter → Option Nat) : Prop :=
  ∀ w : World, w.client.admin = false → w.script = script →
    shardsAsked (final (turns fuel n ext) w).trace = shardsAsked w.trace ++ (asked w.router).toList

theorem AsksShard.kept {fuel n : Nat} {rest : List Input} {asked : QueryRouter → Option Nat}
    (hrest : AsksShard fuel n ext rest asked) (hm : isKept m = true) :
    AsksShard fuel (n + 1) ext (.client m :: rest) fun r => (lookAt ext m r).bind asked := by
  intro w hadmin hscript
  change _ = shardsAsked w.trace ++ ((lookAt ext m w.router).bind asked).toList
  cases hlook : lookAt ext m w.router with
  | none =>
    obtain ⟨w', hroute, htrace⟩ := @route_kept_panics fuel ext w m rest hm hscript hlook
    have hrun : turns fuel (n + 1) ext w = .error .panicked w' := by
      rw [turns, repeatUntil]
      exact bind_of_error (bind_of_error hroute)
    rw [final_of_error hrun, htrace, shardsAsked_arrival]
    exact (List.append_nil _).symm
  | some r' =>
    let w' : World := { w with
      script := rest
      client := w.client.keep m
      router := r'
      trace := arrival m w.router ++ w.trace }
    have hturn : handleTurn fuel ext w = .ok (.inl ()) w' := by
      rw [handleTurn, bind_of_ok (route_kept hm hscript hlook)]
      rfl
    have hrun : turns fuel (n + 1) ext w = turns fuel n ext w' := by
      rw [turns, repeatUntil, bind_of_ok hturn]
      rfl
    calc shardsAsked (final (turns fuel (n + 1) ext) w).trace
        = shardsAsked (final (turns fuel n ext) w').trace := by rw [final_congr_run hrun]
      _ = shardsAsked w'.trace ++ (asked r').toList := hrest w' hadmin rfl
      _ = shardsAsked w.trace ++ (asked r').toList := by rw [shardsAsked_arrival]

theorem checkout_asks (hscript : w.script = []) :
    ∃ stop w', checkout fuel pool m w = .error stop w' ∧
      shardsAsked w'.trace = shardsAsked w.trace ++ [w.router.shard] := by
  obtain ⟨script, trace, conn, client, router, map⟩ := w
  dsimp only at hscript ⊢
  subst hscript
  let w₁ : World :=
    ⟨[], .get pool router.shard router.role m :: .stat .waiting :: trace, conn, client, router, map⟩
  have hget : ∃ stop, pool.get fuel router.shard router.role w₁ = .error stop w₁ := by
    unfold ConnectionPool.get
    cases pool.addresses[router.shard]? with
    | none => exact ⟨.panicked, rfl⟩
    | some addresses => exact ⟨.pending, rfl⟩
  obtain ⟨stop, hget⟩ := hget
  refine ⟨stop, w₁, ?_, by simp [w₁]⟩
  change (pool.get fuel router.shard router.role >>= _) w₁ = _
  exact bind_of_error hget

variable {lookup : List Input} {rand : Nat}

theorem turn_asks {r₁ r₂ : QueryRouter}
    (hm : m.frontend = .query ∨ m.frontend = .sync) (hadmin : w.client.admin = false)
    (hfinds : Finds lookup pool) (hscript : w.script = asking m lookup rand)
    (hlook : lookAt ext m w.router = some r₁)
    (hcommand : (r₁.updatePoolSettings pool.settings).tryExecuteCommand ext rand m.bytes = some (r₂, none)) :
    shardsAsked (final (turns fuel (n + 1) ext) w).trace = shardsAsked w.trace ++ [r₂.shard] := by
  obtain ⟨stop, w', hcheckout, hasked⟩ :=
    @checkout_asks fuel { w.looked [] m r₁ pool with router := r₂ } m pool rfl
  have hroute : route fuel ext w = .error stop w' := by
    rw [route_forward hm hadmin hfinds hscript hlook, runCommand_none rfl hcommand]
    exact hcheckout
  have hrun : turns fuel (n + 1) ext w = .error stop w' := by
    rw [turns, repeatUntil]
    exact bind_of_error (bind_of_error hroute)
  rw [final_of_error hrun, hasked]
  simp [World.looked, shardsAsked_arrival]

theorem AsksShard.sync (hm : m.frontend = .sync) (hfinds : Finds lookup pool) :
    AsksShard fuel (n + 1) ext (asking m lookup rand) fun r => some r.shard := by
  intro w hadmin hscript
  have hlook : lookAt ext m w.router = some w.router := lookAt_other (by simp [inferable, hm]) w.router
  have hquery : m.frontend ≠ .query := by simp [hm]
  have hparse : m.frontend ≠ .parse := by simp [hm]
  have hcommand : (w.router.updatePoolSettings pool.settings).tryExecuteCommand ext rand m.bytes =
      some (w.router.updatePoolSettings pool.settings, none) :=
    tryExecuteCommand_other hquery hparse
  have hasked := turn_asks fuel n (.inr hm) hadmin hfinds hscript hlook hcommand
  exact hasked

theorem lookAt_query_isSome {r : QueryRouter} (hv : r.poolSettings.Validated) {text : Bytes}
    (hframed : Framed (queryMessage text)) : (lookAt ext (queryMessage text) r).isSome = true := by
  have hkind : (queryMessage text).frontend = .query := rfl
  have htext : QueryRouter.HasText (queryMessage text) :=
    List.append_ne_nil_of_right_ne_nil text (List.cons_ne_nil _ _)
  unfold lookAt
  split
  · rw [hkind, Option.isSome_map]
    exact (infer_isSome hv hframed (.inl hkind)).mpr htext
  · rfl

theorem comment_asks {s : Nat} {text : Bytes} (hadmin : w.client.admin = false)
    (hfinds : Finds lookup pool) (hscript : w.script = asking (queryMessage text) lookup rand)
    (hv : w.router.poolSettings.Validated) (hzero : 0 ∉ text) (hframed : Framed (queryMessage text))
    (hcomment : commentIn ext pool text = some s) :
    shardsAsked (final (turns fuel (n + 1) ext) w).trace = shardsAsked w.trace ++ [s] := by
  obtain ⟨r₁, hlook⟩ := Option.isSome_iff_exists.mp (lookAt_query_isSome hv hframed)
  -- Only the settings matter to the search.
  have hfound : (r₁.updatePoolSettings pool.settings).shardIn ext
      ((r₁.updatePoolSettings pool.settings).segment (queryMessage text)) = some s := hcomment
  have hcommand : (r₁.updatePoolSettings pool.settings).tryExecuteCommand ext rand (queryMessage text).bytes =
      some ((r₁.updatePoolSettings pool.settings).setShard s, none) := by
    rw [tryExecuteCommand_query ext _ rand hzero hframed,
      if_pos (searching_of_shardIn hfound), shardComment_of_shardIn hfound]
    rfl
  exact turn_asks fuel n (.inl rfl) hadmin hfinds hscript hlook hcommand

end Turns

/-- A text with a comment that selects a shard leads to the same shard in both protocols exactly if the router
is on that shard already when it has looked at `Parse` and `Bind`. -/
theorem comment_sharding_iff (fuel n : Nat) (ext : Externals) (w : World) (pool : ConnectionPool)
    (name text types : Bytes) (b e y : Message) (lookup lookup' : List Input) (rand rand' s : Nat)
    (hadmin : w.client.admin = false) (hv : w.router.poolSettings.Validated) (hzero : 0 ∉ text)
    (hframed : Framed (queryMessage text))
    (hb : b.frontend = .bind) (he : e.frontend = .execute) (hy : y.frontend = .sync)
    (hfinds : Finds lookup pool) (hfinds' : Finds lookup' pool)
    (hcomment : commentIn ext pool text = some s) :
    shardsAsked (final (turns fuel (n + 4) ext) { w with
        script := .client (parseWith name text types) :: .client b :: .client e :: asking y lookup rand }).trace =
      shardsAsked (final (turns fuel (n + 4) ext) { w with
        script := asking (queryMessage text) lookup' rand' }).trace ↔
    ((lookAt ext (parseWith name text types) w.router).bind (lookAt ext b)).map shard = some s := by
  have hextended : AsksShard fuel (n + 4) ext
      (.client (parseWith name text types) :: .client b :: .client e :: asking y lookup rand) fun r =>
        (lookAt ext (parseWith name text types) r).bind fun r => (lookAt ext b r).bind fun r =>
          (lookAt ext e r).bind fun r => some r.shard :=
    (((AsksShard.sync fuel n hy hfinds).kept (by simp [isKept, he])).kept (by simp [isKept, hb])).kept rfl
  -- `Execute` is buffered without a look at it.
  have hshard : ∀ r, (lookAt ext e r).bind (fun r => some r.shard) = some r.shard := by
    intro r
    rw [lookAt_other (by simp [inferable, he]) r]
    rfl
  have hleft := hextended { w with
    script := .client (parseWith name text types) :: .client b :: .client e :: asking y lookup rand } hadmin rfl
  have hright := comment_asks fuel (n + 3)
    (w := { w with script := asking (queryMessage text) lookup' rand' }) hadmin hfinds' rfl hv hzero hframed hcomment
  rw [hleft, hright, List.append_cancel_left_eq]
  dsimp only
  cases lookAt ext (parseWith name text types) w.router with
  | none => simp
  | some r₁ =>
    simp only [Option.bind_some, hshard]
    cases lookAt ext b r₁ with
    | none => simp
    | some r₂ => simp

namespace Sample

def commentedPool : ConnectionPool where
  addresses := [[address], [address]]
  settings := { Config.PoolSettings.default with shards := 2, shardIdRegex := some Router.Sample.shardIdRegex }
  paused := false
  sized := rfl

def bindAll : Message := .ofChar 'B' [0, 0, 0, 0, 0, 0, 0, 0]

def executeAll : Message := .ofChar 'E' [0, 0, 0, 0, 0]

def syncAll : Message := .ofChar 'S' []

def askedOn (script : List Input) : List Nat :=
  shardsAsked (final (turns 4 4 externals) (.start client (fun _ => none) script)).trace

/-- The comment is obeyed in the simple protocol only. -/
theorem parse_comment_not_searched :
    commentIn externals commentedPool (utf8 "/* shard_id: 1 */ SELECT 1") = some 1 ∧
      askedOn (asking (queryMessage (utf8 "/* shard_id: 1 */ SELECT 1")) [.pool (some commentedPool)] 0) = [1] ∧
      askedOn (.client (parseWith [] (utf8 "/* shard_id: 1 */ SELECT 1") [0, 0]) :: .client bindAll ::
        .client executeAll :: asking syncAll [.pool (some commentedPool)] 0) = [0] := by
  decide +kernel

theorem active_shard_same :
    askedOn (.client (parseWith [] (utf8 "/* shard_id: 0 */ SELECT 1") [0, 0]) :: .client bindAll ::
        .client executeAll :: asking syncAll [.pool (some commentedPool)] 0) =
      askedOn (asking (queryMessage (utf8 "/* shard_id: 0 */ SELECT 1")) [.pool (some commentedPool)] 0) :=
  (comment_sharding_iff 4 0 externals (.start client (fun _ => none) []) commentedPool []
    (utf8 "/* shard_id: 0 */ SELECT 1") [0, 0] bindAll executeAll syncAll [.pool (some commentedPool)]
    [.pool (some commentedPool)] 0 0 0 rfl Config.PoolSettings.default_validated (by decide) (by decide) rfl rfl rfl
    (.running commentedPool rfl) (.running commentedPool rfl) (by decide +kernel)).mpr (by decide +kernel)

end Sample

end PgCat.Session
