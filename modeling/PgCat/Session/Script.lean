import PgCat.Session.Routing

/-!
# Script — turns of the outer loop on a given script

What one turn up to the checkout does when the environment is known: a message arrives, its pool is looked
up (`Finds`), a number is drawn.  `routed` is what the router makes of the message on the way.
-/

namespace PgCat.Session

open Lib Protocol Router

variable {fuel : Nat} {ext : Externals} {w : World} {m : Message} {pool : ConnectionPool}

/-- Looking up a pool: a paused one is waited for and looked up again. -/
inductive Finds : List Input → ConnectionPool → Prop
  | running (pool : ConnectionPool) (h : pool.paused = false) : Finds [.pool (some pool)] pool
  | resumed (paused pool : ConnectionPool) (h : paused.paused = true) :
      Finds [.pool (some paused), .resumed, .pool (some pool)] pool

variable {look : QueryRouter → Option (QueryRouter × Bool)} {r' : QueryRouter} {rest : List Input}

theorem currentPool_finds {lookup : List Input} (h : Finds lookup pool)
    (hscript : w.script = lookup ++ rest) : currentPool w = .ok pool { w with script := rest } := by
  obtain ⟨script, trace, conn, client, router, map⟩ := w
  dsimp only at hscript
  subst hscript
  cases h with
  | running pool h =>
    change (if pool.paused = true then (_ : Program ConnectionPool) else _) _ = _
    rw [if_neg (by simp [h])]
    rfl
  | resumed paused pool h =>
    change (if paused.paused = true then (_ : Program ConnectionPool) else _) _ = _
    rw [if_pos h]
    rfl

/-! ## Messages that are buffered -/

/-- Is a message of this kind kept for the next `Sync`? -/
def isKept (m : Message) : Bool :=
  match m.frontend with
  | .parse | .bind | .describe | .execute => true
  | _ => false

theorem inferWith_eq {ok : Bool}
    (henabled : w.router.queryParserEnabled = true) (hlook : look w.router = some (r', ok)) :
    inferWith m look w = .ok () { w with
      router := r'
      trace := .inferred m w.router.poolSettings :: w.trace } := by
  change (if w.router.queryParserEnabled = true then (_ : Program Unit) else _) w = _
  rw [if_pos henabled]
  change (orPanic (look w.router) >>= _) _ = _
  rw [hlook]
  rfl

theorem inferWith_disabled
    (hdisabled : ¬w.router.queryParserEnabled = true) : inferWith m look w = .ok () w := by
  change (if w.router.queryParserEnabled = true then (_ : Program Unit) else _) w = _
  rw [if_neg hdisabled]
  rfl

theorem inferWith_lookAt {look : QueryRouter → Option (QueryRouter × Bool)} {r' : QueryRouter}
    (hm : inferable m = true)
    (hlook : ∀ r, r.queryParserEnabled = true → lookAt ext m r = (look r).map Prod.fst)
    (h : lookAt ext m w.router = some r') :
    inferWith m look { w with trace := .message m :: w.trace } =
      .ok () { w with router := r', trace := arrival m w.router ++ w.trace } := by
  by_cases henabled : w.router.queryParserEnabled = true
  · rw [hlook w.router henabled] at h
    obtain ⟨⟨r₁, ok⟩, hr₁, rfl⟩ := Option.map_eq_some_iff.mp h
    rw [inferWith_eq (w := { w with trace := .message m :: w.trace }) henabled hr₁, arrival, henabled, hm]
    rfl
  · have hsame : r' = w.router := by
      rw [lookAt, if_neg henabled] at h
      exact (Option.some.inj h).symm
    rw [inferWith_disabled (w := { w with trace := .message m :: w.trace }) henabled, hsame, arrival]
    simp [henabled]

theorem lookAt_other (hm : inferable m = false) (r : QueryRouter) : lookAt ext m r = some r := by
  unfold lookAt
  split
  · unfold inferable at hm
    split at hm
    · cases hm
    · cases hm
    · cases hm
    · rfl
  · rfl

theorem arrival_other (hm : inferable m = false) (r : QueryRouter) : arrival m r = [.message m] := by
  rw [arrival, hm, Bool.and_false]
  rfl

def Client.keep (c : Client) (m : Message) : Client :=
  { c with buffer := c.buffer ++ [m] }

theorem route_kept (hm : isKept m = true)
    (hscript : w.script = .client m :: rest) (hlook : lookAt ext m w.router = some r') :
    route fuel ext w = .ok .again { w with
      script := rest
      client := w.client.keep m
      router := r'
      trace := arrival m w.router ++ w.trace } := by
  obtain ⟨script, trace, conn, client, router, map⟩ := w
  dsimp only at hscript hlook ⊢
  subst hscript
  let w₁ : World := ⟨rest, trace, conn, client.keep m, router, map⟩
  have hroute : ∀ {w' : World}, intake ext m ⟨rest, .message m :: trace, conn, client, router, map⟩ =
      .ok .buffered w' → route fuel ext ⟨.client m :: rest, trace, conn, client, router, map⟩ = .ok .again w' := by
    intro w' h
    change (intake ext m >>= _) _ = _
    exact bind_eq_ok_iff.mpr ⟨_, _, h, rfl⟩
  refine hroute ?_
  unfold intake
  cases hkind : m.frontend with
  | describe | execute =>
    have hother : inferable m = false := by simp [inferable, hkind]
    rw [lookAt_other hother] at hlook
    cases hlook
    rw [arrival_other hother]
    rfl
  | parse | bind =>
    refine bind_eq_ok_iff.mpr ⟨(), { w₁ with trace := .message m :: trace }, rfl, ?_⟩
    refine bind_eq_ok_iff.mpr ⟨(), _, @inferWith_lookAt ext w₁ m _ r' (by simp [inferable, hkind]) ?_ hlook, rfl⟩
    simp +contextual [lookAt, hkind]
  | query | sync | terminate | copyData | copyDone | copyFail | other => simp [isKept, hkind] at hm

theorem inferWith_panics (henabled : w.router.queryParserEnabled = true) (hlook : look w.router = none) :
    inferWith m look w = .error .panicked { w with trace := .inferred m w.router.poolSettings :: w.trace } := by
  change (if w.router.queryParserEnabled = true then (_ : Program Unit) else _) w = _
  rw [if_pos henabled]
  change (orPanic (look w.router) >>= _) _ = _
  rw [hlook]
  rfl

theorem route_kept_panics {rest : List Input} (hm : isKept m = true) (hscript : w.script = .client m :: rest)
    (hlook : lookAt ext m w.router = none) :
    ∃ w', route fuel ext w = .error .panicked w' ∧ w'.trace = arrival m w.router ++ w.trace := by
  obtain ⟨script, trace, conn, client, router, map⟩ := w
  dsimp only at hscript hlook ⊢
  subst hscript
  let w₁ : World := ⟨rest, .message m :: trace, conn, client.keep m, router, map⟩
  -- With the parser off nothing is looked at, and nothing can panic.
  have henabled : router.queryParserEnabled = true := by
    by_contra h
    rw [lookAt, if_neg h] at hlook
    cases hlook
  have hroute : ∀ look : QueryRouter → Option (QueryRouter × Bool), look router = none → inferable m = true →
      intake ext m ⟨rest, .message m :: trace, conn, client, router, map⟩ =
        (inferWith m look >>= fun _ => pure .buffered) w₁ →
      ∃ w', route fuel ext ⟨.client m :: rest, trace, conn, client, router, map⟩ = .error .panicked w' ∧
        w'.trace = arrival m router ++ trace := by
    intro look hnone hm hintake
    refine ⟨{ w₁ with trace := .inferred m router.poolSettings :: w₁.trace }, ?_, ?_⟩
    · change (intake ext m >>= _) _ = _
      exact bind_of_error (hintake.trans (bind_of_error (inferWith_panics (w := w₁) henabled hnone)))
    · rw [arrival, henabled, hm]
      rfl
  rw [lookAt, if_pos henabled] at hlook
  cases hkind : m.frontend with
  | parse =>
    simp only [hkind, Option.map_eq_none_iff] at hlook
    refine hroute (fun r => r.infer ext m.bytes) hlook (by simp [inferable, hkind]) ?_
    rw [intake, hkind]
    rfl
  | bind =>
    simp only [hkind, Option.map_eq_none_iff] at hlook
    refine hroute (fun r => r.inferShardFromBind ext m.bytes) hlook (by simp [inferable, hkind]) ?_
    rw [intake, hkind]
    rfl
  | describe | execute => simp [hkind] at hlook
  | query | sync | terminate | copyData | copyDone | copyFail | other => simp [isKept, hkind] at hm

/-! ## Messages that are sent on their way -/

def World.looked (w : World) (rest : List Input) (m : Message) (r : QueryRouter) (pool : ConnectionPool) :
    World :=
  { w with
    script := rest
    router := r.updatePoolSettings pool.settings
    trace := .lookup m r pool :: (arrival m w.router ++ w.trace) }

theorem route_forward {lookup : List Input}
    (hm : m.frontend = .query ∨ m.frontend = .sync) (hadmin : w.client.admin = false)
    (hfinds : Finds lookup pool) (hscript : w.script = .client m :: (lookup ++ rest))
    (hlook : lookAt ext m w.router = some r') :
    route fuel ext w =
      (do if ← runCommand ext pool m then pure Turn.again else checkout fuel pool m)
        (w.looked rest m r' pool) := by
  obtain ⟨script, trace, conn, client, router, map⟩ := w
  dsimp only at hscript hlook hadmin ⊢
  subst hscript
  let w₁ : World := ⟨lookup ++ rest, trace, conn, client, router, map⟩
  have hintake : intake ext m { w₁ with trace := .message m :: trace } =
      .ok .forward { w₁ with router := r', trace := arrival m router ++ trace } := by
    unfold intake
    rcases hm with hkind | hkind
    · rw [hkind]
      refine bind_eq_ok_iff.mpr ⟨(), _, @inferWith_lookAt ext w₁ m _ r' (by simp [inferable, hkind]) ?_ hlook, rfl⟩
      simp +contextual [lookAt, hkind]
    · have hother : inferable m = false := by simp [inferable, hkind]
      rw [lookAt_other hother] at hlook
      cases hlook
      rw [hkind, arrival_other hother]
      rfl
  have hpool := currentPool_finds (w := { w₁ with router := r', trace := arrival m router ++ trace })
    hfinds rfl
  change (intake ext m >>= _) { w₁ with trace := .message m :: trace } = _
  rw [bind_of_ok hintake]
  change (if client.admin = true then (_ : Program Turn) else _) _ = _
  rw [if_neg (by simp [hadmin]), bind_of_ok hpool]
  rfl

theorem runCommand_none {rand : Nat} (hscript : w.script = .random rand :: rest)
    (h : w.router.tryExecuteCommand ext rand m.bytes = some (r', none)) :
    (do if ← runCommand ext pool m then pure Turn.again else checkout fuel pool m) w =
      checkout fuel pool m { w with script := rest, router := r' } := by
  obtain ⟨script, trace, conn, client, router, map⟩ := w
  dsimp only at hscript h ⊢
  subst hscript
  have hrun : runCommand ext pool m ⟨.random rand :: rest, trace, conn, client, router, map⟩ =
      .ok false ⟨rest, trace, conn, client, r', map⟩ := by
    change (orPanic (router.tryExecuteCommand ext rand m.bytes) >>= _) _ = _
    rw [h]
    rfl
  rw [bind_of_ok hrun]
  rfl

theorem runCommand_some {rand : Nat} {rest : List Input} {r' : QueryRouter} {c : Command} {value : String}
    (hscript : w.script = .random rand :: .clientWrite true :: rest)
    (h : w.router.tryExecuteCommand ext rand m.bytes = some (r', some (c, value))) :
    ∃ response, (do if ← runCommand ext pool m then pure Turn.again else checkout fuel pool m) w =
      .ok .again { w with
        script := rest
        router := answered pool w.router.shard c r'
        trace := .replied response true :: .command c value :: w.trace } := by
  obtain ⟨script, trace, conn, client, router, map⟩ := w
  dsimp only at hscript h ⊢
  subst hscript
  let w₁ : World := ⟨.clientWrite true :: rest, trace, conn, client, r', map⟩
  have hanswer : ∃ response, answerCommand pool router.shard c value w₁ =
      .ok () ⟨rest, .replied response true :: .command c value :: trace, conn, client,
        answered pool router.shard c r', map⟩ := by
    unfold answered
    -- A shard out of range is answered with an error, and the one before is set again.
    by_cases hrange : c = .setShard ∧ pool.shards ≤ r'.shard
    · refine ⟨.error (shardRangeText router.shard pool.shards), ?_⟩
      change (if c = .setShard ∧ pool.shards ≤ r'.shard then (_ : Program Unit) else _) _ = _
      rw [if_pos hrange, if_pos hrange]
      rfl
    · refine ⟨commandResponse c value, ?_⟩
      change (if c = .setShard ∧ pool.shards ≤ r'.shard then (_ : Program Unit) else _) _ = _
      rw [if_neg hrange, if_neg hrange]
      rfl
  obtain ⟨response, hanswer⟩ := hanswer
  have hrun : runCommand ext pool m ⟨.random rand :: .clientWrite true :: rest, trace, conn, client, router, map⟩ =
      .ok true ⟨rest, .replied response true :: .command c value :: trace, conn, client,
        answered pool router.shard c r', map⟩ := by
    change (orPanic (router.tryExecuteCommand ext rand m.bytes) >>= _) _ = _
    rw [h]
    change (answerCommand pool router.shard c value >>= _) w₁ = _
    rw [bind_of_ok hanswer]
    rfl
  refine ⟨response, ?_⟩
  rw [bind_of_ok hrun]
  rfl

end PgCat.Session
