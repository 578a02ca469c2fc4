import PgCat.Install.Panics

/-!
# Reload — a reload against a fresh start

`parse`, the start of the pooler and `reload_config` over the two globals, the configuration and the
pools.  A reload compares only the pool sections, and a section with the hash it had keeps its pools;
the settings of a pool and the timeouts of its servers also depend on the general section.

* `Reloaded`: what a reload leaves for each pair of database and user;
* `Unaffected`: when this is what a fresh start gives, namely if the sections that stay as they were
  read nothing from the general section that has changed.
-/

namespace PgCat.Install

open Lib

/-! ## The globals -/

/-- `CONFIG` and `POOLS`. -/
structure Global where
  config : Config
  pools : PoolMap

def Global.start : Global := ⟨.default, fun _ => none⟩

/-- Why the configuration file gives no configuration. -/
inductive FileError
  | opening (err : String)
  | reading (err : String)
  | parsing (err : String)
  deriving DecidableEq, Repr

def FileError.log (path : String) : FileError → String
  | .opening err => s!"Could not open '{path}': {err}"
  | .reading err => s!"Could not read config file: {err}"
  | .parsing err => s!"Could not parse config file: {err}"

inductive Failure
  | badConfig (e : BadConfig)
  | panicked (panic : Panic)
  deriving DecidableEq, Repr

abbrev Process := EStateM Failure Global

section Process

variable (ext : Externals)

/-- The configuration that `parse` stores, if the file is read and accepted. -/
def parsed (path : String) : Except FileError Config → Except BadConfig Config
  | .error err => .error ⟨err.log path⟩
  | .ok config => do
    let validated ← config.fillUpAuthQueryConfig.validate ext
    pure { validated with path := path }

def parse (path : String) (file : Except FileError Config) : Process Unit :=
  match parsed ext path file with
  | .ok config => modify fun g => { g with config := config }
  | .error err => throw (.badConfig err)

/-- Run `from_config` on the globals; a panic leaves the pools as they were. -/
def installPools : Process Unit := fun g =>
  match fromConfig ext g.pools g.config .start with
  | .ok _ l => .ok () { g with pools := l.newPools }
  | .error panic _ => .error (.panicked panic) g

def start (path : String) (file : Except FileError Config) : Process Unit := do
  parse ext path file
  installPools ext

/-- `PartialEq` of configurations. -/
def Config.Same (a b : Config) : Prop :=
  a.path = b.path ∧ a.general = b.general ∧ HashMap.Same a.pools b.pools

instance (a b : Config) : Decidable (a.Same b) :=
  inferInstanceAs (Decidable (_ ∧ _))

def reloadConfig (file : Except FileError Config) : Process Bool := do
  let old ← get
  parse ext old.config.path file
  let new ← get
  if ¬ HashMap.Same old.config.pools new.config.pools then do
    installPools ext
    pure true
  else if ¬ old.config.Same new.config then pure true
  else pure false

end Process

/-! ## What is compared -/

/-- The settings of a pool, and the connect and idle timeouts of its servers. -/
structure Observed where
  settings : PoolSettings
  timeouts : List (List (Nat × Nat))

def ConnectionPool.observed (pool : ConnectionPool) : Observed where
  settings := pool.settings
  timeouts := pool.databases.map fun row =>
    row.map fun database => (database.connectionTimeout, database.idleTimeout)

/-- Two general sections give a pool section the same settings and timeouts. -/
structure Agree (pool : Pool) (old new : General) : Prop where
  healthcheckDelay : old.healthcheckDelay = new.healthcheckDelay
  healthcheckTimeout : old.healthcheckTimeout = new.healthcheckTimeout
  banTime : old.banTime = new.banTime
  connectTimeout : pool.shards.keys ≠ [] → pool.connectTimeoutOf old = pool.connectTimeoutOf new
  idleTimeout : pool.shards.keys ≠ [] → pool.idleTimeoutOf old = pool.idleTimeoutOf new

/-- Every pool section that stays as it was gets the same from both general sections. -/
def Unaffected (old new : Config) : Prop :=
  ∀ name pool, old.pools.lookup name = some pool → new.pools.lookup name = some pool →
    pool.users.values ≠ [] → Agree pool old.general new.general

/-- The hash tells the old and the new section of a name apart. -/
def NoCollision (ext : Externals) (old new : Config) : Prop :=
  ∀ name pool pool', old.pools.lookup name = some pool → new.pools.lookup name = some pool' →
    ext.hashValue pool = ext.hashValue pool' → pool = pool'

/-! ## Settings and timeouts of a pool that was built -/

section Built

variable {ext : Externals} {job : Job}

theorem PoolBuilt.timeouts {general : General} {shardIds : List String}
    {rows : List (List (Database × Address))} {pool : ConnectionPool}
    (h : PoolBuilt ext general job shardIds rows pool) :
    pool.observed.timeouts = shardIds.map fun k =>
      List.replicate ((job.pool.shards.lookup k).elim 0 fun shard => shard.servers.length)
        (job.pool.connectTimeoutOf general, job.pool.idleTimeoutOf general) := by
  have hobserved : pool.observed.timeouts = rows.map fun row =>
      row.map fun entry => (entry.1.connectionTimeout, entry.1.idleTimeout) := by
    simp [ConnectionPool.observed, h.databases]
  rw [hobserved]
  have hrows := h.installed
  clear hobserved h
  induction hrows with
  | nil => rfl
  | cons hshard _ ih =>
    rw [List.map_cons, List.map_cons, ih]
    obtain ⟨shard, hlookup, hservers⟩ := hshard
    congr 1
    rw [hlookup, Option.elim_some, List.eq_replicate_iff]
    refine ⟨by simp [← hservers.length_eq], ?_⟩
    intro timeouts htimeouts
    obtain ⟨entry, hentry, rfl⟩ := List.mem_map.mp htimeouts
    obtain ⟨server, _, hbuilt⟩ := exists_of_mem_right hservers hentry
    rw [hbuilt.connectionTimeout, hbuilt.idleTimeout]

theorem poolSettings_eq_iff {old new : General} {shards : Nat} {settings settings' : PoolSettings}
    (h : poolSettings ext old job.pool job.user shards = .ok settings)
    (h' : poolSettings ext new job.pool job.user shards = .ok settings') :
    settings = settings' ↔ old.healthcheckDelay = new.healthcheckDelay ∧
      old.healthcheckTimeout = new.healthcheckTimeout ∧ old.banTime = new.banTime := by
  simp only [poolSettings, except_bind_eq_ok] at h h'
  obtain ⟨role, hrole, key, hkey, id, hid, hpure⟩ := h
  obtain ⟨role', hrole', key', hkey', id', hid', hpure'⟩ := h'
  rw [hrole] at hrole'
  rw [hkey] at hkey'
  rw [hid] at hid'
  cases hrole'
  cases hkey'
  cases hid'
  cases hpure
  cases hpure'
  simp

theorem BuiltFor.observed_eq_iff {old new : General} {pool pool' : ConnectionPool}
    (haccepted : job.pool.Accepted ext) (h : BuiltFor ext old job pool)
    (h' : BuiltFor ext new job pool') :
    pool.observed = pool'.observed ↔ Agree job.pool old new := by
  obtain ⟨shardIds, rows, hbuilt⟩ := h
  obtain ⟨shardIds', rows', hbuilt'⟩ := h'
  have hids := hbuilt.sorted.symm.trans hbuilt'.sorted
  -- Both pools have the rows of the same configuration, so only the settings of `[general]` can differ.
  cases hids
  have hsettings := poolSettings_eq_iff hbuilt.settings hbuilt'.settings
  have hperm := sortShardIds_perm hbuilt.sorted
  constructor
  · intro heq
    obtain ⟨hdelay, htimeout, hban⟩ := hsettings.mp (congrArg Observed.settings heq)
    have htimeouts : job.pool.shards.keys ≠ [] →
        (job.pool.connectTimeoutOf old, job.pool.idleTimeoutOf old) =
          (job.pool.connectTimeoutOf new, job.pool.idleTimeoutOf new) := by
      intro hsome
      obtain ⟨k, hk⟩ := List.exists_mem_of_ne_nil _ hsome
      have hall := congrArg Observed.timeouts heq
      rw [hbuilt.timeouts, hbuilt'.timeouts] at hall
      have hrow := List.map_inj_left.mp hall k (hperm.mem_iff.mpr hk)
      obtain ⟨e, he, rfl⟩ := List.mem_map.mp hk
      have hlookup : job.pool.shards.lookup e.1 = some e.2 := AList.mem_lookup_iff.mpr he
      -- A shard has a server, whose timeouts show those of the configuration.
      have hservers := (Shard.validate_eq_ok.mp (haccepted.servers e he)).1
      rw [hlookup, Option.elim_some] at hrow
      rcases (List.replicate_inj.mp hrow).2 with hzero | hpair
      · exact absurd (List.length_eq_zero_iff.mp hzero) hservers
      · exact hpair
    exact ⟨hdelay, htimeout, hban, fun hsome => congrArg Prod.fst (htimeouts hsome),
      fun hsome => congrArg Prod.snd (htimeouts hsome)⟩
  · intro hagree
    have hsame : pool.settings = pool'.settings :=
      hsettings.mpr ⟨hagree.healthcheckDelay, hagree.healthcheckTimeout, hagree.banTime⟩
    have htimeouts : pool.observed.timeouts = pool'.observed.timeouts := by
      rw [hbuilt.timeouts, hbuilt'.timeouts]
      refine List.map_congr_left fun k hk => ?_
      have hsome := List.ne_nil_of_mem (hperm.mem_iff.mp hk)
      rw [hagree.connectTimeout hsome, hagree.idleTimeout hsome]
    unfold ConnectionPool.observed at htimeouts ⊢
    rw [Observed.mk.injEq]
    exact ⟨hsame, htimeouts⟩

end Built

/-! ## The turn that counts -/

def lastUser (pool : Pool) (username : String) : Option User :=
  (pool.users.values.filter fun user => user.username = username).getLast?

theorem filter_turns (name : String) (pool : Pool) (db username : String) :
    (pool.users.values.map fun user => (⟨name, pool, user⟩ : Job)).filter
        (fun job => job.identifier = ⟨db, username⟩) =
      if name = db then
        (pool.users.values.filter fun user => user.username = username).map fun user =>
          ⟨db, pool, user⟩
      else [] := by
  rw [List.filter_map]
  by_cases hname : name = db
  · subst hname
    simp [Function.comp_def, Job.identifier]
  · simp [Function.comp_def, Job.identifier, hname]

theorem lastJob_jobs (config : Config) (db username : String) :
    lastJob config.jobs ⟨db, username⟩ = (config.pools.lookup db).bind fun pool =>
      (lastUser pool username).map fun user => ⟨db, pool, user⟩ := by
  have hnodup := config.pools.nodupKeys
  unfold lastJob Config.jobs AList.lookup
  generalize config.pools.entries = entries at hnodup ⊢
  induction entries with
  | nil => rfl
  | cons e rest ih =>
    rcases e with ⟨name, pool⟩
    rw [List.nodupKeys_cons] at hnodup
    rw [List.flatMap_cons, List.filter_append, filter_turns]
    by_cases hname : name = db
    · -- No later section has this name.
      subst hname
      have hrest : (rest.flatMap fun e => e.2.users.values.map fun user =>
          (⟨e.1, e.2, user⟩ : Job)).filter (fun job => job.identifier = ⟨name, username⟩) = [] := by
        rw [List.filter_eq_nil_iff]
        intro job hjob
        obtain ⟨e', he', hmap⟩ := List.mem_flatMap.mp hjob
        obtain ⟨user, _, rfl⟩ := List.mem_map.mp hmap
        simp only [Job.identifier, decide_eq_true_eq, PoolIdentifier.mk.injEq]
        rintro ⟨rfl, _⟩
        have hkey : e'.1 ∈ rest.keys := List.mem_keys_of_mem he'
        exact hnodup.1 hkey
      rw [if_pos rfl, hrest, List.append_nil, List.getLast?_map, List.dlookup_cons_eq]
      rfl
    · rw [if_neg hname, List.nil_append, ih hnodup.2,
        List.dlookup_cons_ne _ _ (fun h => hname h.symm)]

theorem lastJob_eq_some_iff {config : Config} {id : PoolIdentifier} {job : Job} :
    lastJob config.jobs id = some job ↔ job.poolName = id.db ∧
      config.pools.lookup id.db = some job.pool ∧ lastUser job.pool id.user = some job.user := by
  rcases id with ⟨db, username⟩
  rcases job with ⟨name, pool, user⟩
  simp only [lastJob_jobs, Option.bind_eq_some_iff, Option.map_eq_some_iff, Job.mk.injEq]
  constructor
  · rintro ⟨pool, hpool, user, huser, rfl, rfl, rfl⟩
    exact ⟨rfl, hpool, huser⟩
  · rintro ⟨rfl, hpool, huser⟩
    exact ⟨pool, hpool, user, huser, rfl, rfl, rfl⟩

theorem lastUser_isSome {pool : Pool} {user : User} (h : user ∈ pool.users.values) :
    ∃ last, lastUser pool user.username = some last := by
  have hmem : user ∈ pool.users.values.filter fun u => u.username = user.username := by simp [h]
  exact ⟨_, List.getLast?_eq_some_getLast (List.ne_nil_of_mem hmem)⟩

/-! ## A fresh start -/

/-- The globals after a start: every pair has the pool built for its last turn. -/
structure Installed (ext : Externals) (g : Global) : Prop where
  accepted : ∀ job ∈ g.config.jobs, job.pool.Accepted ext
  buildable : ∀ job ∈ g.config.jobs, Buildable ext g.config.general job
  absent : ∀ id, lastJob g.config.jobs id = none → g.pools id = none
  present : ∀ id job, lastJob g.config.jobs id = some job →
    ∃ pool, g.pools id = some pool ∧ BuiltFor ext g.config.general job pool

theorem parse_eq_ok {ext : Externals} {path : String} {file : Except FileError Config} {g g' : Global}
    (h : parse ext path file g = .ok () g') :
    ∃ config, parsed ext path file = .ok config ∧ g' = { g with config := config } := by
  unfold parse at h
  cases hparsed : parsed ext path file with
  | ok config =>
    rw [hparsed] at h
    cases h
    exact ⟨config, rfl, rfl⟩
  | error err =>
    rw [hparsed] at h
    cases h

theorem accepted_of_parsed {ext : Externals} {path : String} {file config : Config}
    (h : parsed ext path (.ok file) = .ok config) :
    ∀ job ∈ config.jobs, job.pool.Accepted ext := by
  obtain ⟨validated, hvalid, hpure⟩ := except_bind_eq_ok.mp h
  cases hpure
  exact fun job hjob => accepted_of_mem_jobs hvalid hjob

theorem start_installed {ext : Externals} {path : String} {file : Config} {g : Global}
    (h : start ext path (.ok file) .start = .ok () g) :
    parsed ext path (.ok file) = .ok g.config ∧ Installed ext g := by
  obtain ⟨_, g₁, hparse, hinstall⟩ := bind_eq_ok h
  obtain ⟨config, hparsed, rfl⟩ := parse_eq_ok hparse
  have haccepted := accepted_of_parsed hparsed
  -- There is nothing to take over on an empty map.
  have hkept : ∀ job, keptPool ext job (fun _ => none) = none := fun _ => rfl
  unfold installPools at hinstall
  split at hinstall
  · rename_i l hrun
    cases hinstall
    have hprogress := fromConfig_progress hrun
    refine ⟨hparsed, haccepted, ?_, hprogress.absent, ?_⟩
    · intro job hjob
      exact ((fromConfig_completes haccepted _) _).mp ⟨(), l, hrun⟩ job hjob (hkept job)
    · intro id job hjob
      obtain ⟨pool, hpool, hplaced⟩ := hprogress.placed id job hjob
      rcases hplaced with hold | ⟨_, hbuilt⟩
      · exact absurd (hold.symm.trans (hkept job)) (by simp)
      · exact ⟨pool, hpool, hbuilt⟩
  · cases hinstall

/-! ## A reload -/

/-- The globals after a reload: a section that was there before keeps what the old general section
gave it. -/
structure Reloaded (ext : Externals) (old : Config) (g : Global) : Prop where
  absent : ∀ id, lastJob g.config.jobs id = none → g.pools id = none
  present : ∀ id job, lastJob g.config.jobs id = some job →
    ∃ pool, g.pools id = some pool ∧
      BuiltFor ext
        (if old.pools.lookup job.poolName = some job.pool then old.general else g.config.general)
        job pool

section Reload

variable {ext : Externals} {g₀ : Global} {config : Config}

/-- The pools stay as they are when no section has changed. -/
theorem Reloaded.unchanged (h₀ : Installed ext g₀)
    (hsame : HashMap.Same g₀.config.pools config.pools) :
    Reloaded ext g₀.config { g₀ with config := config } := by
  have hjobs : ∀ id, lastJob config.jobs id = lastJob g₀.config.jobs id := by
    rintro ⟨db, username⟩
    rw [lastJob_jobs, lastJob_jobs, hsame.lookup]
  refine ⟨fun id hid => h₀.absent id ((hjobs id).symm.trans hid), fun id job hjob => ?_⟩
  have hjob₀ := (hjobs id).symm.trans hjob
  obtain ⟨hname, hlookup, _⟩ := lastJob_eq_some_iff.mp hjob₀
  obtain ⟨pool, hpool, hbuilt⟩ := h₀.present id job hjob₀
  refine ⟨pool, hpool, ?_⟩
  rw [hname, if_pos hlookup]
  exact hbuilt

/-- A pool is taken over exactly if its section was there before. -/
theorem Installed.keptPool_iff (h₀ : Installed ext g₀) (hhash : NoCollision ext g₀.config config)
    {id : PoolIdentifier} {job : Job} (hjob : lastJob config.jobs id = some job) :
    (∃ pool, keptPool ext job g₀.pools = some pool) ↔
      g₀.config.pools.lookup job.poolName = some job.pool := by
  obtain ⟨hname, hlookup, huser⟩ := lastJob_eq_some_iff.mp hjob
  have hid : job.identifier = id := (mem_of_lastJob hjob).2
  constructor
  · rintro ⟨pool, hkept⟩
    obtain ⟨hpool, hconfigHash⟩ := Option.filter_eq_some_iff.mp hkept
    rw [hid] at hpool
    cases hjob₀ : lastJob g₀.config.jobs id with
    | none => exact absurd ((h₀.absent id hjob₀).symm.trans hpool) (by simp)
    | some job₀ =>
      obtain ⟨pool', hpool', _, _, hbuilt⟩ := h₀.present id job₀ hjob₀
      obtain ⟨_, hlookup₀, _⟩ := lastJob_eq_some_iff.mp hjob₀
      have heq : pool' = pool := Option.some.inj (hpool'.symm.trans hpool)
      have hvalue : ext.hashValue job₀.pool = ext.hashValue job.pool := by
        rw [← hbuilt.configHash, heq]
        exact of_decide_eq_true hconfigHash
      rw [hname, hlookup₀, hhash id.db job₀.pool job.pool hlookup₀ hlookup hvalue]
  · intro hsection
    rw [hname] at hsection
    obtain ⟨pool, hpool, _, _, hbuilt⟩ :=
      h₀.present id job (lastJob_eq_some_iff.mpr ⟨hname, hsection, huser⟩)
    refine ⟨pool, Option.filter_eq_some_iff.mpr ⟨?_, decide_eq_true hbuilt.configHash⟩⟩
    rw [hid]
    exact hpool

theorem Reloaded.installed (h₀ : Installed ext g₀) (hhash : NoCollision ext g₀.config config)
    {l : Locals} (hprogress : Progress ext config.general g₀.pools config.jobs l) :
    Reloaded ext g₀.config ⟨config, l.newPools⟩ := by
  refine ⟨hprogress.absent, fun id job hjob => ?_⟩
  obtain ⟨pool, hpool, hplaced⟩ := hprogress.placed id job hjob
  have hiff := h₀.keptPool_iff hhash hjob
  refine ⟨pool, hpool, ?_⟩
  rcases hplaced with hkept | ⟨hkept, hbuilt⟩
  · have hsection := hiff.mp ⟨pool, hkept⟩
    obtain ⟨hname, _, huser⟩ := lastJob_eq_some_iff.mp hjob
    have hjob₀ := lastJob_eq_some_iff.mpr ⟨hname, hname ▸ hsection, huser⟩
    obtain ⟨pool', hpool', hbuilt⟩ := h₀.present id job hjob₀
    have hold := (Option.filter_eq_some_iff.mp hkept).1
    rw [(mem_of_lastJob hjob).2, hpool'] at hold
    cases hold
    rw [if_pos hsection]
    exact hbuilt
  · have hsection : g₀.config.pools.lookup job.poolName ≠ some job.pool := by
      intro hsection
      obtain ⟨_, hsome⟩ := hiff.mpr hsection
      exact absurd (hkept.symm.trans hsome) (by simp)
    rw [if_neg hsection]
    exact hbuilt

theorem reloadConfig_of_parsed {file : Except FileError Config}
    (hparsed : parsed ext g₀.config.path file = .ok config) :
    reloadConfig ext file g₀ =
      (if ¬ HashMap.Same g₀.config.pools config.pools then do
        installPools ext
        pure true
      else if ¬ g₀.config.Same config then pure true
      else pure false : Process Bool) { g₀ with config := config } := by
  have hparse : parse ext g₀.config.path file g₀ = .ok () { g₀ with config := config } := by
    unfold parse
    rw [hparsed]
    rfl
  change (parse ext g₀.config.path file >>= _) g₀ = _
  simp only [bind, EStateM.bind, hparse]
  rfl

theorem reload_reloaded (h₀ : Installed ext g₀) {file : Config}
    (hparsed : parsed ext g₀.config.path (.ok file) = .ok config)
    (hbuildable : ∀ job ∈ config.jobs, Buildable ext config.general job)
    (hhash : NoCollision ext g₀.config config) :
    ∃ changed g, reloadConfig ext (.ok file) g₀ = .ok changed g ∧ g.config = config ∧
      Reloaded ext g₀.config g := by
  rw [reloadConfig_of_parsed hparsed]
  by_cases hsame : HashMap.Same g₀.config.pools config.pools
  · have hpools := Reloaded.unchanged h₀ hsame
    rw [if_neg (not_not.mpr hsame)]
    split
    · exact ⟨true, _, rfl, rfl, hpools⟩
    · exact ⟨false, _, rfl, rfl, hpools⟩
  · obtain ⟨_, l, hrun⟩ := (fromConfig_completes (accepted_of_parsed hparsed) g₀.pools .start).mpr
      fun job hjob _ => hbuildable job hjob
    have hpools := Reloaded.installed h₀ hhash (fromConfig_progress hrun)
    rw [if_pos hsame]
    refine ⟨true, ⟨config, l.newPools⟩, ?_, rfl, hpools⟩
    simp only [bind, EStateM.bind, installPools, hrun]
    rfl

end Reload

/-! ## The comparison -/

theorem Reloaded.refines_iff {ext : Externals} {old : Config} {g fresh : Global}
    (hg : Reloaded ext old g) (hfresh : Installed ext fresh) (hconfig : g.config = fresh.config) :
    (∀ id, (g.pools id).map ConnectionPool.observed = (fresh.pools id).map ConnectionPool.observed) ↔
      Unaffected old fresh.config := by
  have haccepted : ∀ {id job}, lastJob fresh.config.jobs id = some job → job.pool.Accepted ext :=
    fun hjob => hfresh.accepted _ (mem_of_lastJob hjob).1
  constructor
  · intro hobserved name pool hold hnew husers
    obtain ⟨user, huser⟩ := List.exists_mem_of_ne_nil _ husers
    obtain ⟨last, hlast⟩ := lastUser_isSome huser
    have hjob : lastJob fresh.config.jobs ⟨name, user.username⟩ = some ⟨name, pool, last⟩ :=
      lastJob_eq_some_iff.mpr ⟨rfl, hnew, hlast⟩
    obtain ⟨p, hp, hbuilt⟩ := hg.present _ _ (by rw [hconfig]; exact hjob)
    obtain ⟨p', hp', hbuilt'⟩ := hfresh.present _ _ hjob
    -- The section did not change, so the pool was built with the old general settings.
    rw [if_pos hold] at hbuilt
    have hpair := hobserved ⟨name, user.username⟩
    rw [hp, hp'] at hpair
    exact (BuiltFor.observed_eq_iff (haccepted hjob) hbuilt hbuilt').mp (Option.some.inj hpair)
  · intro hunaffected id
    cases hjob : lastJob fresh.config.jobs id with
    | none => rw [hg.absent id (by rw [hconfig]; exact hjob), hfresh.absent id hjob]
    | some job =>
      obtain ⟨p, hp, hbuilt⟩ := hg.present id job (by rw [hconfig]; exact hjob)
      obtain ⟨p', hp', hbuilt'⟩ := hfresh.present id job hjob
      obtain ⟨hname, hlookup, huser⟩ := lastJob_eq_some_iff.mp hjob
      -- Either the pool was taken over, and nothing it took from `[general]` changed, or it was built anew.
      have hagree : Agree job.pool
          (if old.pools.lookup job.poolName = some job.pool then old.general else g.config.general)
          fresh.config.general := by
        split
        · rename_i hold
          refine hunaffected job.poolName job.pool hold (by rw [hname]; exact hlookup) ?_
          have hmem := List.mem_of_getLast? huser
          exact List.ne_nil_of_mem (List.mem_filter.mp hmem).1
        · rw [hconfig]
          exact ⟨rfl, rfl, rfl, fun _ => rfl, fun _ => rfl⟩
      rw [hp, hp', Option.map_some, Option.map_some,
        (BuiltFor.observed_eq_iff (haccepted hjob) hbuilt hbuilt').mpr hagree]

/-- A reload gives every pair of database and user the settings and timeouts of a fresh start exactly
if the sections that stay as they were read nothing from the general section that has changed. -/
theorem reload_refines_iff {ext : Externals} {path : String} {old new : Config} {g₀ fresh : Global}
    (hold : start ext path (.ok old) .start = .ok () g₀)
    (hnew : start ext path (.ok new) .start = .ok () fresh)
    (hhash : NoCollision ext g₀.config fresh.config) :
    ∃ changed g, reloadConfig ext (.ok new) g₀ = .ok changed g ∧ g.config = fresh.config ∧
      ((∀ id, (g.pools id).map ConnectionPool.observed =
          (fresh.pools id).map ConnectionPool.observed) ↔
        Unaffected g₀.config fresh.config) := by
  obtain ⟨hparsed₀, h₀⟩ := start_installed hold
  obtain ⟨hparsed, hfresh⟩ := start_installed hnew
  have hpath : g₀.config.path = path := by
    obtain ⟨validated, _, hpure⟩ := except_bind_eq_ok.mp hparsed₀
    rw [← Except.ok.inj hpure]
  rw [← hpath] at hparsed
  obtain ⟨changed, g, hreload, hconfig, hg⟩ := reload_reloaded h₀ hparsed hfresh.buildable hhash
  exact ⟨changed, g, hreload, hconfig, hg.refines_iff hfresh hconfig⟩

namespace Sample

def configWith (mode : PgCat.Config.PoolMode) (banTime : Int) : Config :=
  { config { pool (only "0" shard) with poolMode := mode } with
    general := { General.default with banTime := banTime } }

/-- The new ban time is in the configuration, but no pool has it. -/
theorem ban_time_not_reloaded :
    ∃ g₀ fresh changed g id,
      start ext "pgcat.toml" (.ok (configWith .transaction 60)) .start = .ok () g₀ ∧
        start ext "pgcat.toml" (.ok (configWith .transaction 120)) .start = .ok () fresh ∧
          reloadConfig ext (.ok (configWith .transaction 120)) g₀ = .ok changed g ∧
            (g.pools id).map ConnectionPool.observed ≠ (fresh.pools id).map ConnectionPool.observed := by
  refine ⟨_, _, _, _, ⟨"sharded_db", "sharding_user"⟩, rfl, rfl, rfl, fun h => ?_⟩
  have hban := congrArg (Option.map fun observed => observed.settings.banTime) h
  exact absurd hban (by decide)

theorem pool_mode_reloaded :
    ∃ g₀ fresh changed g,
      start ext "pgcat.toml" (.ok (configWith .transaction 60)) .start = .ok () g₀ ∧
        start ext "pgcat.toml" (.ok (configWith .session 120)) .start = .ok () fresh ∧
          reloadConfig ext (.ok (configWith .session 120)) g₀ = .ok changed g ∧
            ∀ id, (g.pools id).map ConnectionPool.observed =
              (fresh.pools id).map ConnectionPool.observed := by
  have hold : returned (start ext "pgcat.toml" (.ok (configWith .transaction 60))) .start = true := rfl
  have hnew : returned (start ext "pgcat.toml" (.ok (configWith .session 120))) .start = true := rfl
  obtain ⟨_, hold⟩ := ok_of_returned hold
  obtain ⟨_, hnew⟩ := ok_of_returned hnew
  have hmode : ∀ mode banTime name pool, (configWith mode banTime).pools.lookup name = some pool →
      pool.poolMode = mode := by
    intro mode banTime name pool hlookup
    have hmem := AList.mem_lookup_iff.mp hlookup
    cases List.mem_singleton.mp hmem
    rfl
  obtain ⟨changed, g, hreload, _, hiff⟩ := reload_refines_iff hold hnew (by
    intro name pool pool' hlookup hlookup' hhash
    have htransaction := hmode .transaction 60 name pool hlookup
    have hsession := hmode .session 120 name pool' hlookup'
    simp [ext, htransaction, hsession] at hhash)
  refine ⟨_, _, changed, g, hold, hnew, hreload, hiff.mpr ?_⟩
  intro name pool hlookup hlookup' _
  have htransaction := hmode .transaction 60 name pool hlookup
  rw [hmode .session 120 name pool hlookup'] at htransaction
  cases htransaction

end Sample

end PgCat.Install
