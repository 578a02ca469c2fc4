import PgCat.Install.Tracking
import PgCat.Lib.Interleaving

/-!
# Pausing — PAUSE, RESUME and RELOAD while clients wait

The flag that pauses a pool and the list of those who wait for it to be cleared live in the pool object.
The pool objects are kept in a table here, and `POOLS` holds references: a reload that takes a pool over
keeps the reference, one that replaces it makes a new object.  A reload reads `POOLS` when it builds the
new map and stores the map later, and a command looks its pool up before it touches the flag; everything else
may happen in between, another reload or command included.

* `Pooler.step`: the steps of the commands, the two halves of a reload and the steps of the clients;
* `reload_values`: the references stand for the pools that `from_config` makes;
* `Pooler.Sound`: a pool that is paused, or about to be, is the one in `POOLS`, and who is blocked is blocked on
  a paused pool or about to be woken.
-/

namespace PgCat.Install
namespace Pausing

open Lib Function

/-- The object that a reload made for a pair. -/
structure Ref where
  reload : Nat
  id : PoolIdentifier
  deriving DecidableEq, Repr

abbrev RefMap := PoolIdentifier → Option Ref

/-- Where a client is with its query. -/
inductive Phase
  | idle
  /-- After `get_pool`. -/
  | fetched (pool : Ref)
  /-- In `wait_paused`, before the flag is read. -/
  | entered (pool : Ref) (notified : Bool)
  | blocked (pool : Ref)
  /-- The wait is over, and the pool is looked up again. -/
  | resumed
  | running (pool : Ref)
  /-- There is no pool for the client. -/
  | gone
  deriving DecidableEq, Repr

/-- The notification of all who wait for the pool. -/
def Phase.notify (pool : Ref) : Phase → Phase
  | .entered pool' notified => .entered pool' (notified || decide (pool' = pool))
  | .blocked pool' => if pool' = pool then .resumed else .blocked pool'
  | phase => phase

/-- Where an administrator is with a command. -/
inductive Admin
  | idle
  /-- PAUSE, after `get_pool`. -/
  | pausing (pool : Ref)
  /-- RESUME, after `get_pool`. -/
  | resuming (pool : Ref)
  /-- The flag is cleared, and nobody is notified yet. -/
  | notifying (pool : Ref)
  deriving DecidableEq, Repr

structure Pooler where
  objects : Ref → Option ConnectionPool
  /-- `POOLS`. -/
  pools : RefMap
  reloads : Nat
  /-- The maps that reloads have built and not stored yet. -/
  pending : Nat → Option RefMap
  clients : Nat → Phase
  admins : Nat → Admin

def Pooler.start : Pooler := ⟨fun _ => none, fun _ => none, 0, fun _ => none, fun _ => .idle, fun _ => .idle⟩

inductive Event
  | pause (admin : Nat) (id : PoolIdentifier)
  | setFlag (admin : Nat)
  | resume (admin : Nat) (id : PoolIdentifier)
  | clearFlag (admin : Nat)
  | notify (admin : Nat)
  /-- `from_config` up to the new map. -/
  | reload (config : Config)
  | store (reload : Nat)
  | fetch (client : Nat)
  | enter (client : Nat)
  | read (client : Nat)
  | refetch (client : Nat)
  | finish (client : Nat)

namespace Pooler

def paused (p : Pooler) (pool : Ref) : Bool :=
  (p.objects pool).any ConnectionPool.paused

/-- The pools as `from_config` sees them. -/
def values (p : Pooler) : PoolMap := fun id =>
  (p.pools id).bind p.objects

def setPaused (p : Pooler) (pool : Ref) (flag : Bool) : Pooler :=
  let object := (p.objects pool).map fun object => { object with paused := flag }
  { p with objects := update p.objects pool object }

/-- The pool of the new map is the object from before, if that has the same hash. -/
def kept (p : Pooler) (id : PoolIdentifier) (pool : ConnectionPool) : Bool :=
  (p.values id).any fun old => old.configHash = pool.configHash

def place (p : Pooler) (newPools : PoolMap) : RefMap := fun id =>
  (newPools id).bind fun pool => if p.kept id pool then p.pools id else some ⟨p.reloads, id⟩

def create (p : Pooler) (newPools : PoolMap) : Ref → Option ConnectionPool := fun pool =>
  if pool.reload = p.reloads then (newPools pool.id).filter fun object => !p.kept pool.id object
  else p.objects pool

def build (p : Pooler) (newPools : PoolMap) : Pooler where
  objects := p.create newPools
  pools := p.pools
  reloads := p.reloads + 1
  pending := update p.pending p.reloads (some (p.place newPools))
  clients := p.clients
  admins := p.admins

def setClient (p : Pooler) (client : Nat) (phase : Phase) : Pooler :=
  { p with clients := update p.clients client phase }

def setAdmin (p : Pooler) (admin : Nat) (phase : Admin) : Pooler :=
  { p with admins := update p.admins admin phase }

/-- Notify all who wait. -/
def wake (p : Pooler) (pool : Ref) : Pooler :=
  { p with clients := fun c => (p.clients c).notify pool }

/-- The command of an administrator gets its pool, if there is one. -/
def lookUp (p : Pooler) (admin : Nat) (id : PoolIdentifier) (command : Ref → Admin) : Option Pooler :=
  match p.admins admin with
  | .idle =>
    match p.pools id with
    | some pool => some (p.setAdmin admin (command pool))
    | none => some p
  | _ => none

def swap (p : Pooler) (reload : Nat) (pools : RefMap) : Pooler :=
  { p with pools := pools, pending := update p.pending reload none }

variable (ext : Externals) (who : Nat → PoolIdentifier)

/-- One step; `none` if it cannot be taken. -/
def step (p : Pooler) : Event → Option Pooler
  | .pause admin id => p.lookUp admin id .pausing
  | .setFlag admin =>
    match p.admins admin with
    | .pausing pool => some ((p.setPaused pool true).setAdmin admin .idle)
    | _ => none
  | .resume admin id => p.lookUp admin id .resuming
  | .clearFlag admin =>
    match p.admins admin with
    | .resuming pool => some ((p.setPaused pool false).setAdmin admin (.notifying pool))
    | _ => none
  | .notify admin =>
    match p.admins admin with
    | .notifying pool => some ((p.wake pool).setAdmin admin .idle)
    | _ => none
  | .reload config =>
    match fromConfig ext p.values config .start with
    | .ok _ l => some (p.build l.newPools)
    | .error _ _ => some p
  | .store reload => (p.pending reload).map (p.swap reload)
  | .fetch client =>
    match p.clients client with
    | .idle =>
      match p.pools (who client) with
      | some pool => some (p.setClient client (.fetched pool))
      | none => some (p.setClient client .gone)
    | _ => none
  | .enter client =>
    match p.clients client with
    | .fetched pool => some (p.setClient client (.entered pool false))
    | _ => none
  | .read client =>
    match p.clients client with
    | .entered pool notified =>
      if p.paused pool = true then
        some (p.setClient client (if notified = true then .resumed else .blocked pool))
      else some (p.setClient client (.running pool))
    | _ => none
  | .refetch client =>
    match p.clients client with
    | .resumed =>
      match p.pools (who client) with
      | some pool => some (p.setClient client (.running pool))
      | none => some (p.setClient client .gone)
    | _ => none
  | .finish client =>
    match p.clients client with
    | .running _ => some (p.setClient client .idle)
    | _ => none

def automaton : Automaton Event Pooler where
  start := .start
  step := step ext who

end Pooler

/-! ## New pools are not paused -/

section New

variable {ext : Externals} {olds : PoolMap} {config : Config} {l : Locals}

theorem createPool_unpaused {general : General} {job : Job} {pool : ConnectionPool} {l l' : Locals}
    (h : createPool ext general job l = .ok pool l') : pool.paused = false := by
  obtain ⟨shardIds, _, _, h⟩ := bind_eq_ok h
  obtain ⟨_, _, _, h⟩ := bind_eq_ok h
  obtain ⟨rows, _, _, h⟩ := bind_eq_ok h
  obtain ⟨settings, _, _, h⟩ := bind_eq_ok h
  obtain ⟨locals, _, _, hpure⟩ := bind_eq_ok h
  cases hpure
  rfl

theorem built_unpaused (h : fromConfig ext olds config .start = .ok () l) :
    ∀ pool ∈ l.built, pool.paused = false := by
  refine fromConfig_rule (I := fun _ l => ∀ pool ∈ l.built, pool.paused = false) h (fun _ hpool => by cases hpool) ?_
  intro _ job l hall
  refine installUser_rule (fun _ _ => hall) (fun pool l₁ _ hcreate p hp => ?_)
  rcases List.mem_cons.mp hp with rfl | hold
  · exact createPool_unpaused hcreate
  · exact hall p hold

end New

/-! ## References stand for pools -/

section References

variable {ext : Externals} {p : Pooler} {config : Config} {l : Locals}

theorem kept_cases (h : fromConfig ext p.values config .start = .ok () l) {id : PoolIdentifier}
    {pool : ConnectionPool} (hpool : l.newPools id = some pool) :
    p.kept id pool = true ∧ p.values id = some pool ∨ p.kept id pool = false ∧ pool.paused = false := by
  obtain ⟨job, hjob, hplaced⟩ := (fromConfig_progress h).of_some hpool
  obtain ⟨-, hid⟩ := mem_of_lastJob hjob
  rcases hplaced with hkept | ⟨hnone, hbuilt⟩
  · obtain ⟨hold, -⟩ := keptPool_eq_some_iff.mp hkept
    rw [hid] at hold
    exact .inl ⟨by simp [Pooler.kept, hold], hold⟩
  · refine .inr ⟨?_, ?_⟩
    · rw [Pooler.kept, Option.any_eq_false]
      intro old hold
      rw [decide_eq_false_iff_not, hbuilt.fresh.2]
      intro hhash
      have hkept : keptPool ext job p.values = some old :=
        keptPool_eq_some_iff.mpr ⟨hid ▸ hold, hhash⟩
      rw [hnone] at hkept
      cases hkept
    · obtain ⟨fresh, hfresh, hget⟩ := fromConfig_fresh h id job hjob hnone
      rw [hpool] at hget
      cases hget
      exact built_unpaused h pool hfresh

theorem reload_values (h : fromConfig ext p.values config .start = .ok () l)
    (hfresh : ∀ pool : Ref, p.reloads ≤ pool.reload → p.objects pool = none) (id : PoolIdentifier) :
    (p.place l.newPools id).bind (p.build l.newPools).objects = l.newPools id := by
  unfold Pooler.place
  cases hpool : l.newPools id with
  | none => rfl
  | some pool =>
    rw [Option.bind_some]
    rcases kept_cases h hpool with ⟨hkept, hold⟩ | ⟨hkept, -⟩
    · obtain ⟨ref, href, hobject⟩ := Option.bind_eq_some_iff.mp hold
      have hthere : ref.reload ≠ p.reloads := by
        intro heq
        rw [hfresh ref heq.ge] at hobject
        cases hobject
      simp [hkept, href, Pooler.build, Pooler.create, hthere, hobject]
    · simp [hkept, hpool, Pooler.build, Pooler.create]

end References

/-! ## The invariant -/

/-- The pool object a client holds. -/
def Phase.pool : Phase → Option Ref
  | .fetched pool | .entered pool _ | .blocked pool | .running pool => some pool
  | .idle | .resumed | .gone => none

structure Pooler.Sound (who : Nat → PoolIdentifier) (p : Pooler) : Prop where
  pools : ∀ id pool, p.pools id = some pool → pool.id = id
  pending : ∀ n map, p.pending n = some map → ∀ id pool, map id = some pool → pool.id = id
  fresh : ∀ pool : Ref, p.reloads ≤ pool.reload → p.objects pool = none
  current : ∀ pool, p.paused pool = true → p.pools pool.id = some pool
  pausing : ∀ a pool, p.admins a = .pausing pool → p.pools pool.id = some pool
  holds : ∀ c pool, (p.clients c).pool = some pool → pool.id = who c
  blocked : ∀ c pool, p.clients c = .blocked pool → p.paused pool = true ∨ ∃ a, p.admins a = .notifying pool

/-- A reload that is stored replaces or removes no pool that is paused, and none that a PAUSE has looked up. -/
def Pooler.KeepsPaused (p : Pooler) : Event → Prop
  | .store reload => ∀ map, p.pending reload = some map → ∀ id pool, p.pools id = some pool →
      (p.paused pool = true ∨ ∃ a, p.admins a = .pausing pool) → map id = some pool
  | _ => True

section Steps

variable {ext : Externals} {who : Nat → PoolIdentifier} {p p' : Pooler}

theorem objects_setPaused (p : Pooler) (pool pool' : Ref) (flag : Bool) :
    (p.setPaused pool flag).objects pool' =
      if pool' = pool then (p.objects pool).map fun object => { object with paused := flag }
      else p.objects pool' :=
  update_apply _ _ _ _

theorem paused_setPaused (p : Pooler) (pool pool' : Ref) (flag : Bool) :
    (p.setPaused pool flag).paused pool' =
      if pool' = pool then (p.objects pool).isSome && flag else p.paused pool' := by
  unfold Pooler.paused
  rw [objects_setPaused]
  split
  · cases p.objects pool with
    | none => rfl
    | some object => rfl
  · rfl

theorem objects_build (p : Pooler) (newPools : PoolMap) (pool : Ref) :
    (p.build newPools).objects pool =
      if pool.reload = p.reloads then (newPools pool.id).filter fun object => !p.kept pool.id object
      else p.objects pool := rfl

theorem clients_setClient (p : Pooler) (c c' : Nat) (phase : Phase) :
    (p.setClient c phase).clients c' = if c' = c then phase else p.clients c' :=
  update_apply _ _ _ _

theorem admins_setAdmin (p : Pooler) (a a' : Nat) (phase : Admin) :
    (p.setAdmin a phase).admins a' = if a' = a then phase else p.admins a' :=
  update_apply _ _ _ _

theorem pending_build (p : Pooler) (newPools : PoolMap) (n : Nat) :
    (p.build newPools).pending n = if n = p.reloads then some (p.place newPools) else p.pending n :=
  update_apply _ _ _ _

theorem pending_swap (p : Pooler) (n n' : Nat) (map : RefMap) :
    (p.swap n map).pending n' = if n' = n then none else p.pending n' :=
  update_apply _ _ _ _

theorem notify_blocked (pool pool' : Ref) :
    (Phase.blocked pool').notify pool = if pool' = pool then .resumed else .blocked pool' := rfl

theorem notify_eq_blocked {pool pool' : Ref} {phase : Phase} (h : phase.notify pool = .blocked pool') :
    phase = .blocked pool' ∧ pool' ≠ pool := by
  cases phase with
  | blocked pool'' =>
    rw [notify_blocked] at h
    split at h
    · cases h
    · rename_i hne
      cases h
      exact ⟨rfl, hne⟩
  | _ => cases h

theorem notify_pool {pool pool' : Ref} {phase : Phase} (h : (phase.notify pool).pool = some pool') :
    phase.pool = some pool' := by
  cases phase with
  | blocked pool'' =>
    rw [notify_blocked] at h
    split at h
    · cases h
    · exact h
  | _ => exact h

/-- All that a step can do: a command goes on only with a pool it has looked up, a client goes on only to a pool
it has fetched, and blocks only if that is paused. -/
inductive Pooler.Effect (ext : Externals) (who : Nat → PoolIdentifier) (p : Pooler) : Event → Pooler → Prop
  | nothing {e : Event} : Effect ext who p e p
  | lookedUp {e : Event} {a : Nat} {id : PoolIdentifier} {pool : Ref} {phase : Admin} (hidle : p.admins a = .idle)
      (hpool : p.pools id = some pool) (hphase : phase = .pausing pool ∨ phase = .resuming pool) :
      Effect ext who p e (p.setAdmin a phase)
  | paused {a : Nat} {pool : Ref} (hadmin : p.admins a = .pausing pool) :
      Effect ext who p (.setFlag a) ((p.setPaused pool true).setAdmin a .idle)
  | cleared {a : Nat} {pool : Ref} (hadmin : p.admins a = .resuming pool) :
      Effect ext who p (.clearFlag a) ((p.setPaused pool false).setAdmin a (.notifying pool))
  | woken {a : Nat} {pool : Ref} (hadmin : p.admins a = .notifying pool) :
      Effect ext who p (.notify a) ((p.wake pool).setAdmin a .idle)
  | built {config : Config} {l : Locals} (hrun : fromConfig ext p.values config .start = .ok () l) :
      Effect ext who p (.reload config) (p.build l.newPools)
  | swapped {n : Nat} {map : RefMap} (hmap : p.pending n = some map) :
      Effect ext who p (.store n) (p.swap n map)
  | moved {e : Event} {c : Nat} {phase : Phase}
      (hpool : ∀ pool, phase.pool = some pool →
        p.pools (who c) = some pool ∨ (p.clients c).pool = some pool)
      (hblocked : ∀ pool, phase = .blocked pool → p.paused pool = true) :
      Effect ext who p e (p.setClient c phase)

theorem lookUp_effect {e : Event} {a : Nat} {id : PoolIdentifier} {command : Ref → Admin}
    (hcommand : ∀ pool, command pool = .pausing pool ∨ command pool = .resuming pool)
    (h : p.lookUp a id command = some p') : p.Effect ext who e p' := by
  unfold Pooler.lookUp at h
  split at h
  · rename_i hidle
    split at h
    · rename_i pool hpool
      cases h
      exact .lookedUp hidle hpool (hcommand pool)
    · cases h
      exact .nothing
  · cases h

theorem step_effect {e : Event} (hstep : p.step ext who e = some p') : p.Effect ext who e p' := by
  cases e with
  | pause a id => exact lookUp_effect (fun _ => .inl rfl) hstep
  | setFlag a =>
    rw [Pooler.step] at hstep
    split at hstep
    · cases hstep
      exact .paused ‹_›
    · cases hstep
  | resume a id => exact lookUp_effect (fun _ => .inr rfl) hstep
  | clearFlag a =>
    rw [Pooler.step] at hstep
    split at hstep
    · cases hstep
      exact .cleared ‹_›
    · cases hstep
  | notify a =>
    rw [Pooler.step] at hstep
    split at hstep
    · cases hstep
      exact .woken ‹_›
    · cases hstep
  | reload config =>
    rw [Pooler.step] at hstep
    split at hstep
    · cases hstep
      exact .built ‹_›
    · cases hstep
      exact .nothing
  | store n =>
    obtain ⟨map, hmap, rfl⟩ := Option.map_eq_some_iff.mp hstep
    exact .swapped hmap
  | fetch c | refetch c =>
    rw [Pooler.step] at hstep
    split at hstep
    · split at hstep
      · rename_i pool hpool
        cases hstep
        exact .moved (fun _ h => .inl (h ▸ hpool)) (fun _ h => by cases h)
      · cases hstep
        exact .moved (fun _ h => by cases h) (fun _ h => by cases h)
    · cases hstep
  | enter c =>
    rw [Pooler.step] at hstep
    split at hstep
    · rename_i pool hc
      cases hstep
      exact .moved (fun _ h => .inr (by rw [hc]; exact h)) (fun _ h => by cases h)
    · cases hstep
  | read c =>
    rw [Pooler.step] at hstep
    split at hstep
    · rename_i pool notified hc
      split at hstep
      · rename_i hpaused
        cases hstep
        cases notified with
        | true => exact .moved (fun _ h => by cases h) (fun _ h => by cases h)
        | false =>
          refine .moved (fun _ h => .inr (by rw [hc]; exact h)) (fun _ h => ?_)
          cases h
          exact hpaused
      · cases hstep
        exact .moved (fun _ h => .inr (by rw [hc]; exact h)) (fun _ h => by cases h)
    · cases hstep
  | finish c =>
    rw [Pooler.step] at hstep
    split at hstep
    · cases hstep
      exact .moved (fun _ h => by cases h) (fun _ h => by cases h)
    · cases hstep

namespace Pooler.Sound

theorem start : Pooler.Sound who .start where
  pools := fun _ _ h => by cases h
  pending := fun _ _ h => by cases h
  fresh := fun _ _ => rfl
  current := fun _ h => by cases h
  pausing := fun _ _ h => by cases h
  holds := fun _ _ h => by cases h
  blocked := fun _ _ h => by cases h

theorem setClient (h : p.Sound who) {c : Nat} {phase : Phase}
    (hpool : ∀ pool, phase.pool = some pool → pool.id = who c)
    (hblocked : ∀ pool, phase = .blocked pool → p.paused pool = true) : (p.setClient c phase).Sound who where
  pools := h.pools
  pending := h.pending
  fresh := h.fresh
  current := h.current
  pausing := h.pausing
  holds := by
    intro c' pool hc
    rw [clients_setClient] at hc
    split at hc
    · rename_i heq
      exact heq ▸ hpool pool hc
    · exact h.holds c' pool hc
  blocked := by
    intro c' pool hc
    rw [clients_setClient] at hc
    split at hc
    · exact .inl (hblocked pool hc)
    · exact h.blocked c' pool hc

/-- A command goes on; it leaves nobody behind who counts on being notified. -/
theorem setAdmin (h : p.Sound who) {a : Nat} {phase : Admin}
    (hpausing : ∀ pool, phase = .pausing pool → p.pools pool.id = some pool)
    (hwoken : ∀ c pool, p.admins a = .notifying pool → p.clients c = .blocked pool → p.paused pool = true) :
    (p.setAdmin a phase).Sound who where
  pools := h.pools
  pending := h.pending
  fresh := h.fresh
  current := h.current
  pausing := by
    intro a' pool ha
    rw [admins_setAdmin] at ha
    split at ha
    · exact hpausing pool ha
    · exact h.pausing a' pool ha
  holds := h.holds
  blocked := by
    intro c pool hc
    rcases h.blocked c pool hc with hpaused | ⟨a', ha'⟩
    · exact .inl hpaused
    · by_cases heq : a' = a
      · exact .inl (hwoken c pool (heq ▸ ha') hc)
      · exact .inr ⟨a', by rw [admins_setAdmin, if_neg heq]; exact ha'⟩

theorem fresh_setPaused (h : p.Sound who) (pool : Ref) (flag : Bool) :
    ∀ pool' : Ref, p.reloads ≤ pool'.reload → (p.setPaused pool flag).objects pool' = none := by
  intro pool' hreload
  rw [objects_setPaused]
  split
  · rename_i heq
    rw [← heq, h.fresh pool' hreload, Option.map_none]
  · exact h.fresh pool' hreload

theorem pause (h : p.Sound who) {pool : Ref} (hpool : p.pools pool.id = some pool) :
    (p.setPaused pool true).Sound who where
  pools := h.pools
  pending := h.pending
  fresh := h.fresh_setPaused pool true
  current := by
    intro pool' hpaused
    rw [paused_setPaused] at hpaused
    split at hpaused
    · rename_i heq
      rw [heq]
      exact hpool
    · exact h.current pool' hpaused
  pausing := h.pausing
  holds := h.holds
  blocked := by
    intro c pool' hc
    refine (h.blocked c pool' hc).imp_left fun hpaused => ?_
    rw [paused_setPaused]
    split
    · rename_i heq
      rw [heq] at hpaused
      rw [Bool.and_true]
      exact Option.isSome_of_any hpaused
    · exact hpaused

/-- Clearing the flag: who was blocked on the pool is notified next. -/
theorem clear (h : p.Sound who) {a : Nat} {pool : Ref} (hadmin : p.admins a = .resuming pool) :
    ((p.setPaused pool false).setAdmin a (.notifying pool)).Sound who where
  pools := h.pools
  pending := h.pending
  fresh := h.fresh_setPaused pool false
  current := by
    intro pool' hpaused
    have hflag := paused_setPaused p pool pool' false
    rw [Bool.and_false] at hflag
    rw [show ((p.setPaused pool false).setAdmin a (.notifying pool)).paused pool' =
      (p.setPaused pool false).paused pool' from rfl, hflag] at hpaused
    split at hpaused
    · cases hpaused
    · exact h.current pool' hpaused
  pausing := by
    intro a' pool' ha'
    rw [admins_setAdmin] at ha'
    split at ha'
    · cases ha'
    · exact h.pausing a' pool' ha'
  holds := h.holds
  blocked := by
    intro c pool' hc
    by_cases heq : pool' = pool
    · exact .inr ⟨a, by rw [admins_setAdmin, if_pos rfl, heq]⟩
    · rcases h.blocked c pool' hc with hpaused | ⟨a', ha'⟩
      · refine .inl ((paused_setPaused p pool pool' false).trans ?_)
        rw [if_neg heq, hpaused]
      · refine .inr ⟨a', ?_⟩
        rw [admins_setAdmin, if_neg]
        · exact ha'
        · rintro rfl
          rw [hadmin] at ha'
          cases ha'

theorem wake (h : p.Sound who) (pool : Ref) : (p.wake pool).Sound who where
  pools := h.pools
  pending := h.pending
  fresh := h.fresh
  current := h.current
  pausing := h.pausing
  holds := fun c pool' hc => h.holds c pool' (notify_pool hc)
  blocked := fun c pool' hc => h.blocked c pool' (notify_eq_blocked hc).1

theorem paused_build (h : p.Sound who) {config : Config} {l : Locals}
    (hrun : fromConfig ext p.values config .start = .ok () l) (pool : Ref) :
    (p.build l.newPools).paused pool = p.paused pool := by
  rw [Pooler.paused, Pooler.paused, objects_build]
  by_cases hnew : pool.reload = p.reloads
  · rw [if_pos hnew, h.fresh pool hnew.ge, Option.any_none, Option.any_eq_false]
    intro object hobject
    obtain ⟨hget, hkept⟩ := Option.filter_eq_some_iff.mp hobject
    rcases kept_cases hrun hget with ⟨hyes, -⟩ | ⟨-, hunpaused⟩
    · rw [hyes] at hkept
      cases hkept
    · exact hunpaused
  · rw [if_neg hnew]

theorem build (h : p.Sound who) {config : Config} {l : Locals}
    (hrun : fromConfig ext p.values config .start = .ok () l) : (p.build l.newPools).Sound who where
  pools := h.pools
  pending := by
    intro n map hmap id pool hpool
    rw [pending_build] at hmap
    split at hmap
    · cases hmap
      obtain ⟨object, -, hplace⟩ := Option.bind_eq_some_iff.mp hpool
      split at hplace
      · exact h.pools id pool hplace
      · cases hplace
        rfl
    · exact h.pending n map hmap id pool hpool
  fresh := by
    intro pool hreload
    have hlt : p.reloads < pool.reload := hreload
    rw [objects_build, if_neg hlt.ne']
    exact h.fresh pool hlt.le
  current := by
    intro pool hpaused
    rw [paused_build h hrun] at hpaused
    exact h.current pool hpaused
  pausing := h.pausing
  holds := h.holds
  blocked := by
    intro c pool hc
    rw [paused_build h hrun]
    exact h.blocked c pool hc

theorem store (h : p.Sound who) {n : Nat} {map : RefMap} (hmap : p.pending n = some map)
    (hkeeps : p.KeepsPaused (.store n)) :
    (p.swap n map).Sound who where
  pools := h.pending n map hmap
  pending := by
    intro n' map' hmap'
    rw [pending_swap] at hmap'
    split at hmap'
    · cases hmap'
    · exact h.pending n' map' hmap'
  fresh := h.fresh
  current := fun pool hpaused => hkeeps map hmap pool.id pool (h.current pool hpaused) (.inl hpaused)
  pausing := fun a pool ha => hkeeps map hmap pool.id pool (h.pausing a pool ha) (.inr ⟨a, ha⟩)
  holds := h.holds
  blocked := h.blocked

theorem step (h : p.Sound who) {e : Event} (hkeeps : p.KeepsPaused e) (hstep : p.step ext who e = some p') :
    p'.Sound who := by
  cases step_effect hstep with
  | nothing => exact h
  | lookedUp hidle hpool hphase =>
    refine h.setAdmin (fun pool' hpausing => ?_) (fun c pool' hnotifying => ?_)
    · rcases hphase with rfl | rfl
      · cases hpausing
        rw [h.pools _ _ hpool]
        exact hpool
      · cases hpausing
    · rw [hidle] at hnotifying
      cases hnotifying
  | paused hadmin =>
    refine (h.pause (h.pausing _ _ hadmin)).setAdmin (fun _ hpausing => by cases hpausing) fun c pool' hnotifying => ?_
    cases hadmin.symm.trans hnotifying
  | cleared hadmin => exact h.clear hadmin
  | woken hadmin =>
    refine (h.wake _).setAdmin (fun _ hpausing => by cases hpausing) fun c pool' hnotifying hc => ?_
    -- Nobody is blocked on the pool any more.
    cases hadmin.symm.trans hnotifying
    exact absurd rfl (notify_eq_blocked hc).2
  | built hrun => exact h.build hrun
  | swapped hmap => exact h.store hmap hkeeps
  | moved hpool hblocked =>
    refine h.setClient (fun pool hphase => ?_) hblocked
    rcases hpool pool hphase with hfetched | hheld
    · exact h.pools _ pool hfetched
    · exact h.holds _ pool hheld

end Pooler.Sound

theorem stays_paused (h : p.Sound who) {e : Event} (hkeeps : p.KeepsPaused e)
    (hstep : p.step ext who e = some p') {id : PoolIdentifier} {pool : Ref} (hpool : p.pools id = some pool)
    (hpaused : p.paused pool = true) (hclear : ∀ a, e = .clearFlag a → p.admins a ≠ .resuming pool) :
    p'.pools id = some pool ∧ p'.paused pool = true := by
  cases step_effect hstep with
  | nothing | lookedUp _ _ _ | woken _ | moved _ _ => exact ⟨hpool, hpaused⟩
  | paused _ =>
    refine ⟨hpool, (paused_setPaused p _ pool true).trans ?_⟩
    split
    · rename_i heq
      subst heq
      rw [Bool.and_true]
      exact Option.isSome_of_any hpaused
    · exact hpaused
  | cleared hadmin =>
    refine ⟨hpool, (paused_setPaused p _ pool false).trans ?_⟩
    rw [if_neg]
    · exact hpaused
    · rintro rfl
      exact hclear _ rfl hadmin
  | built hrun =>
    refine ⟨hpool, ?_⟩
    rw [Pooler.Sound.paused_build h hrun]
    exact hpaused
  | swapped hmap => exact ⟨hkeeps _ hmap id pool hpool (.inl hpaused), hpaused⟩

/-- Whoever is blocked on a pool is woken by the one who is about to notify. -/
theorem notify_wakes {a c : Nat} {pool : Ref} (hc : p.clients c = .blocked pool)
    (hadmin : p.admins a = .notifying pool) :
    ∃ p', p.step ext who (.notify a) = some p' ∧ p'.clients c = .resumed := by
  refine ⟨(p.wake pool).setAdmin a .idle, by rw [Pooler.step, hadmin], ?_⟩
  have hnotified : ((p.wake pool).setAdmin a .idle).clients c = (p.clients c).notify pool := rfl
  rw [hnotified, hc, notify_blocked, if_pos rfl]

/-- A RESUME in its three steps, with nothing in between. -/
theorem resume_wakes {a c : Nat} {id : PoolIdentifier} {pool : Ref} (hc : p.clients c = .blocked pool)
    (hpool : p.pools id = some pool) (hidle : p.admins a = .idle) :
    ∃ p₁ p₂ p₃, p.step ext who (.resume a id) = some p₁ ∧ p₁.step ext who (.clearFlag a) = some p₂ ∧
      p₂.step ext who (.notify a) = some p₃ ∧ p₃.clients c = .resumed := by
  let p₁ := p.setAdmin a (.resuming pool)
  let p₂ := (p₁.setPaused pool false).setAdmin a (.notifying pool)
  have hresuming : p₁.admins a = .resuming pool := by rw [admins_setAdmin, if_pos rfl]
  have hnotifying : p₂.admins a = .notifying pool := by rw [admins_setAdmin, if_pos rfl]
  have hfirst : p.step ext who (.resume a id) = some p₁ := by rw [Pooler.step, Pooler.lookUp, hidle, hpool]
  have hsecond : p₁.step ext who (.clearFlag a) = some p₂ := by rw [Pooler.step, hresuming]
  obtain ⟨p₃, hthird, hwoken⟩ := @notify_wakes ext who p₂ a c pool hc hnotifying
  exact ⟨p₁, p₂, p₃, hfirst, hsecond, hthird, hwoken⟩

/-- In every run in which no reload replaces or removes a pool that is paused or that a PAUSE has looked up: who is
blocked is about to be woken, or is blocked on the pool in `POOLS`, which is paused, and RESUME wakes it; and a
paused pool stays paused until then. -/
theorem resume_releases_waiters {t : List Event}
    (hkeeps : (Pooler.automaton ext who).Along Pooler.KeepsPaused t)
    (hrun : (Pooler.automaton ext who).run t = some p) :
    (∀ c pool, p.clients c = .blocked pool →
      (p.pools (who c) = some pool ∧ p.paused pool = true ∧ ∀ a, p.admins a = .idle →
        ∃ p₁ p₂ p₃, p.step ext who (.resume a (who c)) = some p₁ ∧ p₁.step ext who (.clearFlag a) = some p₂ ∧
          p₂.step ext who (.notify a) = some p₃ ∧ p₃.clients c = .resumed) ∨
      ∃ a, p.admins a = .notifying pool ∧
        ∃ p', p.step ext who (.notify a) = some p' ∧ p'.clients c = .resumed) ∧
    ∀ e p' id pool, p.KeepsPaused e → p.step ext who e = some p' → p.pools id = some pool →
      p.paused pool = true → (∀ a, e = .clearFlag a → p.admins a ≠ .resuming pool) →
        p'.pools id = some pool ∧ p'.paused pool = true := by
  have hsound : p.Sound who :=
    Automaton.invariant Pooler.Sound.start (fun p e p' h hok hstep => h.step hok hstep) hkeeps hrun
  refine ⟨fun c pool hc => ?_, fun e p' id pool hok hstep hpool hpaused hclear =>
    stays_paused hsound hok hstep hpool hpaused hclear⟩
  rcases hsound.blocked c pool hc with hpaused | ⟨a, ha⟩
  · have hid : pool.id = who c := hsound.holds c pool (by rw [hc]; rfl)
    have hpool : p.pools (who c) = some pool := hid ▸ hsound.current pool hpaused
    exact .inl ⟨hpool, hpaused, fun a hidle => resume_wakes hc hpool hidle⟩
  · exact .inr ⟨a, ha, notify_wakes hc ha⟩

end Steps

namespace Sample

def pair : PoolIdentifier := ⟨"sharded_db", "sharding_user"⟩

def config (mode : PgCat.Config.PoolMode) : Config :=
  Install.Sample.config
    { Install.Sample.pool (Install.Sample.only "0" Install.Sample.shard) with poolMode := mode }

abbrev pooler : Automaton Event Pooler :=
  Pooler.automaton Install.Sample.ext fun _ => pair

/-- The pooler starts, the pool is paused, and a client waits; the newest event comes first. -/
def waits : List Event :=
  [.read 0, .enter 0, .fetch 0, .setFlag 0, .pause 0 pair, .store 0, .reload (config .transaction)]

theorem client_waits : ∃ p, pooler.run waits = some p ∧ p.clients 0 = .blocked ⟨0, pair⟩ ∧ p.admins 0 = .idle := by
  have hall : (pooler.run waits).any (fun p => decide (p.clients 0 = .blocked ⟨0, pair⟩ ∧ p.admins 0 = .idle)) =
      true := by
    decide +kernel
  obtain ⟨p, hrun, hp⟩ := (Option.any_eq_true _ _).mp hall
  exact ⟨p, hrun, of_decide_eq_true hp⟩

theorem waits_keeps : pooler.Along Pooler.KeepsPaused waits := by
  refine ⟨fun _ _ => trivial, fun _ _ => trivial, fun _ _ => trivial, fun _ _ => trivial, fun _ _ => trivial, ?_,
    fun _ _ => trivial, trivial⟩
  intro p hrun map _ id pool hpool
  obtain ⟨p₀, hstart, hstep⟩ := Automaton.run_of_cons hrun
  cases hstart
  have heffect : Pooler.start.Effect Install.Sample.ext (fun _ => pair) (.reload (config .transaction)) p :=
    step_effect hstep
  cases heffect with
  | nothing | built _ | moved _ _ => cases hpool
  | lookedUp _ hnone _ => cases hnone

theorem waiter_released :
    ∃ p, pooler.Along Pooler.KeepsPaused waits ∧ pooler.run waits = some p ∧
      p.clients 0 = .blocked ⟨0, pair⟩ ∧
        ∃ p₁ p₂ p₃, p.step Install.Sample.ext (fun _ => pair) (.resume 0 pair) = some p₁ ∧
          p₁.step Install.Sample.ext (fun _ => pair) (.clearFlag 0) = some p₂ ∧
            p₂.step Install.Sample.ext (fun _ => pair) (.notify 0) = some p₃ ∧ p₃.clients 0 = .resumed := by
  obtain ⟨p, hrun, hc, hidle⟩ := client_waits
  rcases (resume_releases_waiters waits_keeps hrun).1 0 _ hc with ⟨-, -, hwakes⟩ | ⟨a, ha, -⟩
  · exact ⟨p, waits_keeps, hrun, hc, hwakes 0 hidle⟩
  · -- The only administrator there is does nothing.
    have hnobody : (pooler.run waits).any (fun p => decide (a = 0) || decide (p.admins a = .idle)) = true := by
      cases a with
      | zero => decide +kernel
      | succ a => rfl
    rw [hrun, Option.any_some, Bool.or_eq_true, decide_eq_true_eq, decide_eq_true_eq] at hnobody
    rcases hnobody with rfl | hother
    · rw [hidle] at ha
      cases ha
    · rw [hother] at ha
      cases ha

/-- A reload with another pool mode makes a new pool object. -/
def replaced : List Event :=
  [.store 1, .reload (config .session)]

/-- The client waits on the old object, and RESUME finds the new one, which is not paused.  It is the same if the
reload is stored while a PAUSE is under way. -/
theorem waiter_lost :
    (∃ p p', pooler.run (replaced ++ waits) = some p ∧
      p.clients 0 = .blocked ⟨0, pair⟩ ∧ p.pools pair = some ⟨1, pair⟩ ∧ p.paused ⟨1, pair⟩ = false ∧
        pooler.run ([.notify 0, .clearFlag 0, .resume 0 pair] ++ (replaced ++ waits)) = some p' ∧
          p'.clients 0 = .blocked ⟨0, pair⟩) ∧
    ∃ p', pooler.run ([.notify 0, .clearFlag 0, .resume 0 pair, .read 0, .setFlag 0] ++ (replaced ++
        [.enter 0, .fetch 0, .pause 0 pair, .store 0, .reload (config .transaction)])) = some p' ∧
      p'.clients 0 = .blocked ⟨0, pair⟩ := by
  have hall : (pooler.run (replaced ++ waits)).any (fun p =>
      decide (p.clients 0 = .blocked ⟨0, pair⟩ ∧ p.pools pair = some ⟨1, pair⟩ ∧
        p.paused ⟨1, pair⟩ = false)) = true := by
    decide +kernel
  have hlast : (pooler.run ([.notify 0, .clearFlag 0, .resume 0 pair] ++ (replaced ++ waits))).any (fun p =>
      decide (p.clients 0 = .blocked ⟨0, pair⟩)) = true := by
    decide +kernel
  have hbetween : (pooler.run ([.notify 0, .clearFlag 0, .resume 0 pair, .read 0, .setFlag 0] ++ (replaced ++
      [.enter 0, .fetch 0, .pause 0 pair, .store 0, .reload (config .transaction)]))).any (fun p =>
      decide (p.clients 0 = .blocked ⟨0, pair⟩)) = true := by
    decide +kernel
  obtain ⟨p, hrun, hp⟩ := (Option.any_eq_true _ _).mp hall
  obtain ⟨p', hrun', hp'⟩ := (Option.any_eq_true _ _).mp hlast
  obtain ⟨q, hq, hblocked⟩ := (Option.any_eq_true _ _).mp hbetween
  obtain ⟨hc, hpool, hpaused⟩ := of_decide_eq_true hp
  exact ⟨⟨p, p', hrun, hc, hpool, hpaused, hrun', of_decide_eq_true hp'⟩, q, hq, of_decide_eq_true hblocked⟩

end Sample

end Pausing
end PgCat.Install
