import PgCat.Session.Settings

/-!
# Batch — the role of a batch of the extended protocol

`Parse`, `Bind`, `Describe` and `Execute` are buffered outside a transaction; the connection is asked
for at the `Sync`.  Each `Parse` is passed to `infer` on its own and overwrites the role, so the role
at the `Sync` is the one of the last `Parse`.
-/

namespace PgCat.Session

open Lib Protocol Config Router QueryRouter

/-! ## Reading a trace -/

/-- Messages that are buffered until a `Sync`. -/
def isBatched (m : Message) : Bool :=
  match m.frontend with
  | .parse | .bind | .describe | .execute => true
  | _ => false

/-- The buffered messages since another message was read or a server was left, newest first. -/
def batch : List Event → List Message
  | [] => []
  | .message m :: t => if isBatched m then m :: batch t else []
  | .left _ _ :: _ => []
  | _ :: t => batch t

def lastParse (t : List Event) : Option Message :=
  (batch t).find? fun m => m.frontend = .parse

def lastLookup : List Event → Option QueryRouter
  | [] => none
  | .lookup _ r _ :: _ => some r
  | _ :: t => lastLookup t

variable {e : Event} {r r' : QueryRouter}

theorem batch_idle (he : e.isIdle = true) (t : List Event) :
    batch (e :: t) = batch t ∨ batch (e :: t) = [] := by
  cases e with
  | message m => cases he
  | left c exit => exact .inr rfl
  | _ => exact .inl rfl

theorem lastParse_idle {t : List Event} {p : Message} (he : e.isIdle = true)
    (h : lastParse (e :: t) = some p) : lastParse t = some p := by
  unfold lastParse at h ⊢
  rcases batch_idle he t with hb | hb
  · rwa [hb] at h
  · rw [hb] at h
    cases h

theorem lastLookup_note (he : e.isNote = true) (t : List Event) : lastLookup (e :: t) = lastLookup t := by
  cases e with
  | lookup m r pool => cases he
  | _ => rfl

theorem batch_arrival (m : Message) (r : QueryRouter) (t : List Event) :
    batch (arrival m r ++ t) = if isBatched m then m :: batch t else [] := by
  unfold arrival
  split
  · rfl
  · rfl

theorem beforeMessage_arrival (m : Message) (r : QueryRouter) (t : List Event) :
    beforeMessage (arrival m r ++ t) = t := by
  unfold arrival
  split
  · rfl
  · rfl

/-! ## Annotations -/

def RoleOf (ext : Externals) (p : Message) (r : QueryRouter) : Prop :=
  r.activeRole = some .primary ↔ writes ext p = true

/-- What holds when a connection is asked for. -/
def BatchPassed (ext : Externals) : Event → List Event → Prop
  | .get _ _ role m, t => m.frontend = .sync → ∀ r p, lastLookup t = some r →
      r.queryParserEnabled = true → lastParse (beforeMessage t) = some p →
      (role = some .primary ↔ writes ext p = true)
  | _, _ => True

structure Batching (ext : Externals) (w : World) : Prop where
  role : ∀ p, lastParse w.trace = some p → w.router.queryParserEnabled = true →
    RoleOf ext p w.router
  calls : w.Each (BatchPassed ext)

def Ended (ext : Externals) (m : Message) (enabled : Bool) (w : World) : Prop :=
  m.frontend = .sync → enabled = true → ∀ p, lastParse (beforeMessage w.trace) = some p →
    RoleOf ext p w.router

variable {ext : Externals} {w w' : World} {m : Message}

theorem BatchPassed.aside (e : Event) (t : List Event) (he : e.isAside = true) : BatchPassed ext e t := by
  cases e with
  | get pool shard role m => cases he
  | _ => trivial

theorem Batching.aside (h : Aside Event.isIdle w w') (hw : Batching ext w) : Batching ext w' := by
  refine ⟨fun p hp => ?_, (h.mono fun _ => Event.isAside_isIdle).each BatchPassed.aside hw.calls⟩
  rw [h.router]
  refine hw.role p ?_
  rcases h.trace with htrace | ⟨e, he, htrace⟩
  · exact htrace ▸ hp
  · rw [htrace] at hp
    exact lastParse_idle he hp

theorem Aside.beforeMessage (h : Aside Event.isNote w w') :
    beforeMessage w'.trace = beforeMessage w.trace := by
  rcases h.trace with htrace | ⟨e, he, htrace⟩
  · rw [htrace]
  · rw [htrace, beforeMessage_note he]

theorem Aside.lastLookup (h : Aside Event.isNote w w') : lastLookup w'.trace = lastLookup w.trace := by
  rcases h.trace with htrace | ⟨e, he, htrace⟩
  · rw [htrace]
  · rw [htrace, lastLookup_note he]

theorem Ended.aside {enabled : Bool} (h : Aside Event.isNote w w') (hw : Ended ext m enabled w) :
    Ended ext m enabled w' := by
  unfold Ended
  rw [h.beforeMessage, h.router]
  exact hw

theorem lookAt_role (hq : m.frontend ≠ .query) (hp : m.frontend ≠ .parse)
    (h : lookAt ext m r = some r') : r'.activeRole = r.activeRole := by
  unfold lookAt at h
  split at h
  · split at h
    · exact absurd ‹_› hq
    · exact absurd ‹_› hp
    · rcases Option.map_eq_some_iff.mp h with ⟨⟨r₁, ok⟩, hbind, rfl⟩
      exact (inferShardFromBind_inferred hbind).2
    · cases h
      rfl
  · cases h
    rfl

theorem lookAt_parse (hp : m.frontend = .parse)
    (henabled : r.queryParserEnabled = true) (h : lookAt ext m r = some r') : RoleOf ext m r' := by
  simp only [lookAt, henabled, if_true, hp] at h
  rcases Option.map_eq_some_iff.mp h with ⟨⟨r₁, ok⟩, hinfer, rfl⟩
  exact infer_primary_iff (.inr hp) hinfer

theorem Batching.arrives (hw : Batching ext w) (h : lookAt ext m w.router = some r') :
    Batching ext { w with router := r', trace := arrival m w.router ++ w.trace } := by
  have henabled : r'.queryParserEnabled = w.router.queryParserEnabled :=
    (lookAt_inferred h).queryParserEnabled_eq
  refine ⟨fun p hlast hon => ?_, hw.calls.arrival rfl ?_⟩
  · have hon' : w.router.queryParserEnabled = true := henabled ▸ hon
    change lastParse (arrival m w.router ++ w.trace) = some p at hlast
    unfold lastParse at hlast
    rw [batch_arrival] at hlast
    by_cases hb : isBatched m = true
    · rw [if_pos hb, List.find?_cons] at hlast
      by_cases hparse : m.frontend = .parse
      · simp only [hparse, decide_true, Option.some.injEq] at hlast
        subst hlast
        exact lookAt_parse hparse hon' h
      · simp only [hparse, decide_false] at hlast
        have hquery : m.frontend ≠ .query := by
          intro hq
          simp [isBatched, hq] at hb
        have hbefore := hw.role p hlast hon'
        unfold RoleOf at hbefore ⊢
        rw [lookAt_role hquery hparse h]
        exact hbefore
    · rw [if_neg hb] at hlast
      cases hlast
  · rintro e t (rfl | rfl)
    · trivial
    · trivial

theorem Batching.ended (hw : Batching ext w) (h : lookAt ext m w.router = some r') :
    Ended ext m r'.queryParserEnabled
      { w with router := r', trace := arrival m w.router ++ w.trace } := by
  intro hm hon p hlast
  rw [(lookAt_inferred h).queryParserEnabled_eq] at hon
  rw [beforeMessage_arrival] at hlast
  have hbefore := hw.role p hlast hon
  unfold RoleOf at hbefore ⊢
  rw [lookAt_role (by simp [hm]) (by simp [hm]) h]
  exact hbefore

theorem lastParse_forwarded {t : List Event} (hm : forwarded m = true) :
    lastParse (arrival m r ++ t) = none := by
  have hb : isBatched m = false := by
    unfold forwarded at hm
    unfold isBatched
    split at hm
    all_goals simp_all
  simp [lastParse, batch_arrival, hb]

theorem lastParse_none_aside (h : Aside Event.isIdle w w') (hw : lastParse w.trace = none) :
    lastParse w'.trace = none := by
  rcases h.trace with htrace | ⟨e, he, htrace⟩
  · rw [htrace]
    exact hw
  · cases hp : lastParse w'.trace with
    | none => rfl
    | some p =>
      rw [htrace] at hp
      have hbefore := lastParse_idle he hp
      rw [hw] at hbefore
      cases hbefore

/-- Nothing is buffered, and all calls were right. -/
structure Flushed (ext : Externals) (w : World) : Prop where
  empty : lastParse w.trace = none
  calls : w.Each (BatchPassed ext)

theorem Flushed.batching (hw : Flushed ext w) : Batching ext w := by
  refine ⟨fun p hp => ?_, hw.calls⟩
  rw [hw.empty] at hp
  cases hp

theorem Flushed.aside (h : Aside Event.isIdle w w') (hw : Flushed ext w) : Flushed ext w' :=
  ⟨lastParse_none_aside h hw.empty,
    (h.mono fun _ => Event.isAside_isIdle).each BatchPassed.aside hw.calls⟩

theorem Flushed.cons {e : Event} (hw : Flushed ext w) (htrace : w'.trace = e :: w.trace)
    (hbatch : batch (e :: w.trace) = batch w.trace) (he : BatchPassed ext e w.trace) :
    Flushed ext w' := by
  refine ⟨?_, hw.calls.cons htrace he⟩
  unfold lastParse
  rw [htrace, hbatch]
  exact hw.empty

theorem Flushed.gets {pool : ConnectionPool} {rand : Nat} (hw : Flushed ext w)
    (hended : ∀ r, lastLookup w.trace = some r → Ended ext m r.queryParserEnabled w)
    (h : w.router.tryExecuteCommand ext rand m.bytes = some (r', none)) :
    Flushed ext { w with router := r', trace := .get pool r'.shard r'.role m :: w.trace } := by
  have hsame : w.router.SameButShard r' := (tryExecuteCommand_attempted h).1
  refine hw.cons rfl rfl ?_
  intro hm r p hr hon hlast
  change r'.activeRole = _ ↔ _
  rw [hsame.role]
  exact hended r hr hm hon p hlast

theorem batching_annotated (ext : Externals) :
    Annotated ext (Batching ext)
      (fun m w => Batching ext w ∧ (forwarded m = true → lastParse w.trace = none) ∧
        Ended ext m w.router.queryParserEnabled w)
      (fun m _ w => Flushed ext w ∧
        ∀ r, lastLookup w.trace = some r → Ended ext m r.queryParserEnabled w)
      (World.Each (BatchPassed ext)) where
  aside_idle h hw := hw.aside h
  aside_read := by
    intro m w w' h hw
    have hidle := h.mono fun _ => Event.isIdle_isNote
    refine ⟨hw.1.aside hidle, fun hm => lastParse_none_aside hidle (hw.2.1 hm), ?_⟩
    rw [h.router]
    exact hw.2.2.aside h
  aside_found := by
    intro m pool w w' h hw
    refine ⟨hw.1.aside (h.mono fun _ => Event.isIdle_isNote), ?_⟩
    rw [h.lastLookup]
    exact fun r hr => (hw.2 r hr).aside h
  done hw := hw.calls
  done_found hw := hw.1.calls
  arrives hw h := ⟨hw.arrives h, lastParse_forwarded, hw.ended h⟩
  panics := by
    intro w m hw
    refine hw.calls.arrival rfl ?_
    rintro e t (rfl | rfl)
    · trivial
    · trivial
  buffered hw := hw.1
  -- The settings of the pool come in after the parser has looked at the message.
  looks := by
    intro m w pool hm hw
    refine ⟨⟨hw.2.1 hm, hw.1.calls.cons rfl trivial⟩, ?_⟩
    rintro r hr
    cases hr
    exact hw.2.2
  commands := by
    intro m pool w rand r' c value hw _
    have hflushed : Flushed ext { w with
        router := answered pool w.router.shard c r'
        trace := .command c value :: w.trace } := hw.1.cons rfl rfl trivial
    exact hflushed.batching
  gets hw h := (hw.1.gets hw.2 h).batching

/-! ## Serving -/

theorem Move.batchCalls {p : Scope} (h : Move p w w') (hw : w.Each (BatchPassed ext)) :
    w'.Each (BatchPassed ext) :=
  h.aside.each BatchPassed.aside hw

/-- Messages that are buffered inside the transaction loop are no batch of the outer loop. -/
theorem serveHeld_flushed (fuel : Nat) (pool : ConnectionPool) (a : Address) (m : Message)
    (hw : w.Each (BatchPassed ext)) :
    wp (serveHeld fuel pool a m) (fun _ => Flushed ext) (fun _ => World.Each (BatchPassed ext)) w := by
  refine serveHeld_kept_rule (C := fun _ _ => True) (fun _ _ => Move.batchCalls) (fun _ _ => wp_true)
    (fun _ _ h => h) ?_ hw
  intro exit w' h _
  have hleft : Flushed ext (w'.after (.left w'.conn exit)) := ⟨rfl, h.cons rfl trivial⟩
  exact wp_mono ((checkin_runs (S := Move ⟨false, true⟩) fuel exit).preserves (fun _ _ h => Flushed.aside h.idle)
    _ hleft) (fun _ _ h => h) (fun _ _ h => h.calls)

theorem serve_batching (fuel : Nat) (pool : ConnectionPool) (a : Address) (m : Message) (w : World)
    (hw : Batching ext w) :
    wp (serve fuel pool a m)
      (fun fin w' => if fin then w'.Each (BatchPassed ext) else Batching ext w')
      (fun _ => World.Each (BatchPassed ext)) w := by
  have hdrop : ∀ (w' : World) exit, w'.Each (BatchPassed ext) →
      (w'.dropped exit).Each (BatchPassed ext) := fun w' exit h => h.cons rfl trivial
  refine serve_rule (serveHeld_flushed fuel pool a m hw.calls) ?_ ?_ ?_ ?_ ?_
  · intro exit w' h _
    have hdropped : Flushed ext (w'.dropped exit) := h.cons rfl rfl trivial
    exact hdropped.batching
  · exact fun w' h => hdrop w' _ h.calls
  · exact fun w' h => h
  · exact fun w' h => hdrop w' _ h
  · exact fun stop w' h _ _ => hdrop w' _ h

/-! ## Sessions -/

/-- Of the batches with a write that end in a `Sync` while the query parser is enabled, exactly those
whose last `Parse` is a write are sent to the primary. -/
theorem sync_primary_iff (fuel : Nat) (ext : Externals) (client : Client) (map : ClientServerMap)
    (script : List Input) (c : Call)
    (hc : c ∈ calls (final (handle fuel ext) (.start client map script)).trace)
    (hm : c.message.frontend = .sync) (r : QueryRouter) (hr : lastLookup c.before = some r)
    (hparser : r.queryParserEnabled = true)
    (hwrite : ∃ p ∈ batch (beforeMessage c.before), p.frontend = .parse ∧
      writes ext p = true) :
    c.role = some .primary ↔
      ∃ p, lastParse (beforeMessage c.before) = some p ∧ writes ext p = true := by
  have hstart : Batching ext (.start client map script) := by
    refine ⟨nofun, ?_⟩
    intro e t hsuffix
    cases List.suffix_nil.mp hsuffix
  have hcalls := (batching_annotated ext).session fuel (serve_batching fuel) hstart
  have hcall := hcalls _ _ (calls_suffix hc) hm r
  have hlast : ∃ p, lastParse (beforeMessage c.before) = some p := by
    rcases hwrite with ⟨p, hp, hparse, _⟩
    rw [← Option.isSome_iff_exists]
    exact List.find?_isSome.mpr ⟨p, hp, by simp [hparse]⟩
  rcases hlast with ⟨p, hp⟩
  rw [hcall p hr hparser hp]
  constructor
  · exact fun h => ⟨p, hp, h⟩
  · rintro ⟨p', hp', h⟩
    rw [hp] at hp'
    cases hp'
    exact h

/-- `Parse` of an anonymous statement without parameter types. -/
def parseMessage (text : String) : Message :=
  .ofChar 'P' ([0] ++ utf8 text ++ [0, 0, 0])

def syncMessage : Message := .ofChar 'S' []

def batchRun (texts : List String) : World :=
  final (handle 6 insertParser) (.start Sample.client (fun _ => none)
    (parserScript "SELECT 1" ++ texts.map (fun text => .client (parseMessage text)) ++
      [.client syncMessage, .pool (some parserPool), .random 0]))

theorem write_last_primary :
    ((calls (batchRun ["SELECT 1", "INSERT"]).trace).map Call.role) = [some .primary, none] ∧
    ∀ c ∈ calls (batchRun ["SELECT 1", "INSERT"]).trace, c.message.frontend = .sync →
      (c.role = some .primary ↔ ∃ p, lastParse (beforeMessage c.before) = some p ∧
        writes insertParser p = true) := by
  refine ⟨by decide +kernel, fun c hc hm => ?_⟩
  have hbatch : ∀ c ∈ calls (batchRun ["SELECT 1", "INSERT"]).trace, c.message.frontend = .sync →
      (lastLookup c.before).any (·.queryParserEnabled) = true ∧
      ∃ p ∈ batch (beforeMessage c.before), p.frontend = .parse ∧
        writes insertParser p = true := by
    decide +kernel
  rcases hbatch c hc hm with ⟨hparser, hwrite⟩
  rcases (Option.any_eq_true _ _).mp hparser with ⟨r, hr, hon⟩
  exact sync_primary_iff 6 insertParser Sample.client (fun _ => none) _ c hc hm r hr hon hwrite

/-- The write comes first, and any server will do. -/
theorem write_first_anywhere :
    ((calls (batchRun ["INSERT", "SELECT 1"]).trace).head?.map fun c =>
      (c.message.frontend, (lastLookup c.before).any (·.queryParserEnabled),
        (batch (beforeMessage c.before)).map (writes insertParser), c.role)) =
      some (.sync, true, [false, true], none) := by
  decide +kernel

end PgCat.Session
