import PgCat.Install.Reload

/-!
# Tracking — what `POOLS` and `POOL_STATS` say about the configuration

`from_config` builds the map of pools anew and swaps it in; the statistics of a pool are registered when
the pool is created, and nothing takes them out again.

* `installAll`: any number of completed `from_config`, one after the other;
* `fromConfigStats`: `from_config` with the registration of the statistics;
* `Monitored`: the globals with `POOL_STATS`, through a start and any number of reloads.
-/

namespace PgCat.Install

open Lib Function

/-! ## The pairs of a configuration -/

/-- The database is configured, with a user of that name. -/
def Config.Pair (config : Config) (id : PoolIdentifier) : Prop :=
  ∃ pool, config.pools.lookup id.db = some pool ∧ ∃ user ∈ pool.users.values, user.username = id.user

theorem Config.pair_iff {config : Config} {id : PoolIdentifier} :
    config.Pair id ↔ lastJob config.jobs id ≠ none := by
  constructor
  · rintro ⟨pool, hpool, user, huser, hname⟩
    obtain ⟨last, hlast⟩ := lastUser_isSome huser
    rw [hname] at hlast
    have hjob : lastJob config.jobs id = some ⟨id.db, pool, last⟩ :=
      lastJob_eq_some_iff.mpr ⟨rfl, hpool, hlast⟩
    rw [hjob]
    exact Option.some_ne_none _
  · intro hsome
    obtain ⟨job, hjob⟩ := Option.ne_none_iff_exists'.mp hsome
    obtain ⟨-, hpool, huser⟩ := lastJob_eq_some_iff.mp hjob
    obtain ⟨hmem, hname⟩ := List.mem_filter.mp (List.mem_of_getLast? huser)
    exact ⟨job.pool, hpool, job.user, hmem, by simpa using hname⟩

/-! ## New pools are among those that were built -/

section Fresh

variable {ext : Externals} {general : General} {olds : PoolMap}

/-- A pair with nothing to take over has one of the pools that were built. -/
def Fresh (ext : Externals) (olds : PoolMap) (done : List Job) (l : Locals) : Prop :=
  ∀ id job, lastJob done id = some job → keptPool ext job olds = none →
    ∃ pool ∈ l.built, l.newPools id = some pool

theorem installUser_fresh {done : List Job} {l : Locals} (job : Job) (h : Fresh ext olds done l) :
    wp (installUser ext general job olds) (fun _ => Fresh ext olds (done ++ [job])) (fun _ _ => True) l := by
  refine installUser_rule (fun pool hkept => ?_) (fun pool l₁ _ _ => ?_)
  · intro id job' hlast hnone
    rw [lastJob_concat] at hlast
    split at hlast
    · cases hlast
      rw [hkept] at hnone
      cases hnone
    · rename_i hne
      obtain ⟨p, hp, hget⟩ := h id job' hlast hnone
      exact ⟨p, hp, (update_of_ne (Ne.symm hne) _ _).trans hget⟩
  · intro id job' hlast hnone
    rw [lastJob_concat] at hlast
    split at hlast
    · rename_i heq
      exact ⟨pool, List.mem_cons_self, heq ▸ update_self _ _ _⟩
    · rename_i hne
      obtain ⟨p, hp, hget⟩ := h id job' hlast hnone
      exact ⟨p, List.mem_cons_of_mem pool hp, (update_of_ne (Ne.symm hne) _ _).trans hget⟩

theorem fromConfig_fresh {config : Config} {l : Locals}
    (h : fromConfig ext olds config .start = .ok () l) : Fresh ext olds config.jobs l :=
  fromConfig_rule h (fun _ _ hlast _ => by cases hlast) fun _ job _ hfresh => installUser_fresh job hfresh

end Fresh

/-! ## Pools -/

section Pools

variable (ext : Externals)

/-- `from_config` as a step on `POOLS`. -/
def storePools (pools : PoolMap) (config : Config) : Except Panic PoolMap :=
  match fromConfig ext pools config .start with
  | .ok _ l => .ok l.newPools
  | .error panic _ => .error panic

/-- One configuration after the other. -/
def installAll (configs : List Config) (pools : PoolMap) : Except Panic PoolMap :=
  configs.foldlM (storePools ext) pools

variable {ext}

variable {config : Config} {olds : PoolMap}

theorem storePools_eq_ok {pools pools' : PoolMap} (h : storePools ext pools config = .ok pools') :
    ∃ l, fromConfig ext pools config .start = .ok () l ∧ l.newPools = pools' := by
  unfold storePools at h
  split at h
  · rename_i l hrun
    exact ⟨l, hrun, Except.ok.inj h⟩
  · cases h

theorem installAll_concat {configs : List Config} {pools : PoolMap}
    (h : installAll ext (configs ++ [config]) olds = .ok pools) :
    ∃ before, installAll ext configs olds = .ok before ∧ storePools ext before config = .ok pools := by
  rw [installAll, List.foldlM_append] at h
  obtain ⟨before, hbefore, hlast⟩ := except_bind_eq_ok.mp h
  refine ⟨before, hbefore, ?_⟩
  rw [List.foldlM_cons] at hlast
  obtain ⟨pools', hstep, hpure⟩ := except_bind_eq_ok.mp hlast
  cases hpure
  exact hstep

theorem newPools_ne_none_iff {l : Locals}
    (h : fromConfig ext olds config .start = .ok () l) (id : PoolIdentifier) :
    l.newPools id ≠ none ↔ config.Pair id := by
  have hprogress := fromConfig_progress h
  rw [Config.pair_iff, not_iff_not]
  refine ⟨fun hnone => ?_, hprogress.absent id⟩
  by_contra hsome
  obtain ⟨job, hjob⟩ := Option.ne_none_iff_exists'.mp hsome
  obtain ⟨pool, hpool, -⟩ := hprogress.placed id job hjob
  rw [hnone] at hpool
  cases hpool

/-- The pool taken over for a pair is the one that was there, if its hash is that of the section. -/
theorem keptPool_eq_some_iff {job : Job} {pool : ConnectionPool} : keptPool ext job olds = some pool ↔
      olds job.identifier = some pool ∧ pool.configHash = ext.hashValue job.pool := by
  rw [keptPool, Option.filter_eq_some_iff, decide_eq_true_eq]

theorem BuiltFor.fresh {general : General} {job : Job} {pool : ConnectionPool}
    (h : BuiltFor ext general job pool) :
    (∀ bans ∈ pool.banlist, bans = []) ∧ pool.configHash = ext.hashValue job.pool := by
  obtain ⟨shardIds, rows, hbuilt⟩ := h
  refine ⟨fun bans hbans => ?_, hbuilt.configHash⟩
  rw [hbuilt.banlist] at hbans
  obtain ⟨row, -, rfl⟩ := List.mem_map.mp hbans
  rfl

theorem installAll_origin (configs : List Config) :
    ∀ {pools : PoolMap}, installAll ext configs olds = .ok pools → ∀ id pool, pools id = some pool →
      olds id = some pool ∨
        ∃ config ∈ configs, ∃ job ∈ config.jobs, job.identifier = id ∧ BuiltFor ext config.general job pool := by
  induction configs using List.reverseRecOn with
  | nil =>
    intro pools hrun id pool hpool
    cases hrun
    exact .inl hpool
  | append_singleton configs config ih =>
    intro pools hrun id pool hpool
    obtain ⟨before, hbefore, hlast⟩ := installAll_concat hrun
    obtain ⟨l, hl, rfl⟩ := storePools_eq_ok hlast
    obtain ⟨job, hjob, hplaced⟩ := (fromConfig_progress hl).of_some hpool
    obtain ⟨hmem, hid⟩ := mem_of_lastJob hjob
    rcases hplaced with hkept | ⟨-, hbuilt⟩
    · obtain ⟨hold, -⟩ := keptPool_eq_some_iff.mp hkept
      rw [hid] at hold
      rcases ih hbefore id pool hold with hstart | ⟨config', hconfig', hrest⟩
      · exact .inl hstart
      · exact .inr ⟨config', List.mem_append_left _ hconfig', hrest⟩
    · exact .inr ⟨config, List.mem_append_right _ List.mem_cons_self, job, hmem, hid, hbuilt⟩

/-- After any number of completed `from_config`, the last one for `config`: the pairs of `config` have a
pool and no others; each is the one from before if that has the hash of the section, and a new one without
bans otherwise; and no pool came to a pair it was not built for. -/
theorem pools_track_config {configs : List Config} {config : Config} {olds pools : PoolMap}
    (hrun : installAll ext (configs ++ [config]) olds = .ok pools) :
    ∃ before l, installAll ext configs olds = .ok before ∧
      fromConfig ext before config .start = .ok () l ∧ l.newPools = pools ∧
      (∀ id, pools id ≠ none ↔ config.Pair id) ∧
      (∀ id poolConfig, config.Pair id → config.pools.lookup id.db = some poolConfig →
        (∀ old, before id = some old → old.configHash = ext.hashValue poolConfig → pools id = some old) ∧
        ((∀ old, before id = some old → old.configHash ≠ ext.hashValue poolConfig) →
          ∃ pool ∈ l.built, pools id = some pool ∧ (∀ bans ∈ pool.banlist, bans = []) ∧
            pool.configHash = ext.hashValue poolConfig)) ∧
      (∀ id pool, pools id = some pool → olds id = some pool ∨ ∃ c ∈ configs ++ [config], ∃ job ∈ c.jobs,
        job.identifier = id ∧ BuiltFor ext c.general job pool) := by
  obtain ⟨before, hbefore, hlast⟩ := installAll_concat hrun
  obtain ⟨l, hl, rfl⟩ := storePools_eq_ok hlast
  have hprogress := fromConfig_progress hl
  refine ⟨before, l, hbefore, hl, rfl, newPools_ne_none_iff hl, fun id poolConfig hpair hconfig => ?_,
    fun id pool hpool => installAll_origin _ hrun id pool hpool⟩
  -- The pair is decided by the last job for it.
  obtain ⟨job, hjob⟩ := Option.ne_none_iff_exists'.mp (Config.pair_iff.mp hpair)
  obtain ⟨-, hid⟩ := mem_of_lastJob hjob
  obtain ⟨-, hpool, -⟩ := lastJob_eq_some_iff.mp hjob
  rw [hconfig] at hpool
  cases hpool
  obtain ⟨pool, hget, hplaced⟩ := hprogress.placed id job hjob
  refine ⟨fun old hold hhash => ?_, fun hdiffers => ?_⟩
  · have hkept : keptPool ext job before = some old := keptPool_eq_some_iff.mpr ⟨hid ▸ hold, hhash⟩
    rcases hplaced with hsame | ⟨hnone, -⟩
    · rw [hkept] at hsame
      cases hsame
      exact hget
    · rw [hkept] at hnone
      cases hnone
  · have hnone : keptPool ext job before = none := by
      by_contra hsome
      obtain ⟨old, hold⟩ := Option.ne_none_iff_exists'.mp hsome
      obtain ⟨hthere, hhash⟩ := keptPool_eq_some_iff.mp hold
      exact hdiffers old (hid ▸ hthere) hhash
    obtain ⟨fresh, hfresh, hget'⟩ := fromConfig_fresh hl id job hjob hnone
    rw [hget] at hget'
    cases hget'
    rcases hplaced with hsame | ⟨-, hbuilt⟩
    · rw [hnone] at hsame
      cases hsame
    · exact ⟨pool, hfresh, hget, hbuilt.fresh⟩

end Pools

/-! ## Statistics -/

/-- `POOL_STATS`: the statistics of a pair keep the section they were made for. -/
abbrev PoolStatsLookup := PoolIdentifier → Option Pool

section Stats

variable (ext : Externals) (general : General) (olds : PoolMap)

/-- The local variables of `from_config`, and `POOL_STATS`. -/
abbrev Counted := EStateM Panic (Locals × PoolStatsLookup)

def poolRegister (job : Job) : Counted Unit :=
  modify fun s => (s.1, update s.2 job.identifier (some job.pool))

/-- A part of the program that leaves the statistics alone. -/
def uncounted {α : Type} (p : Program α) : Counted α := fun s =>
  match p s.1 with
  | .ok a l => .ok a (l, s.2)
  | .error panic l => .error panic (l, s.2)

def registerNew (job : Job) : Counted Unit :=
  if keptPool ext job olds = none then poolRegister job else pure ()

/-- One turn: a new pool is registered before anything that can go wrong. -/
def installUserStats (job : Job) : Counted Unit := do
  registerNew ext olds job
  uncounted (installUser ext general job olds)

def fromConfigStats (config : Config) : Counted Unit :=
  forM config.jobs (installUserStats ext config.general olds)

end Stats

section Registered

variable {ext : Externals} {general : General} {olds : PoolMap}

theorem installUserStats_eq_ok {job : Job} {l : Locals} {stats : PoolStatsLookup}
    {s : Locals × PoolStatsLookup} (h : installUserStats ext general olds job (l, stats) = .ok () s) :
    installUser ext general job olds l = .ok () s.1 ∧
      ∀ id, s.2 id ≠ none ↔ stats id ≠ none ∨ job.identifier = id ∧ keptPool ext job olds = none := by
  obtain ⟨_, s₁, hregister, hinstall⟩ := bind_eq_ok h
  have hs₁ : s₁.1 = l ∧
      ∀ id, s₁.2 id ≠ none ↔ stats id ≠ none ∨ job.identifier = id ∧ keptPool ext job olds = none := by
    unfold registerNew at hregister
    split at hregister
    · rename_i hkept
      cases hregister
      refine ⟨rfl, fun id => ?_⟩
      by_cases hid : job.identifier = id
      · subst hid
        simp [hkept]
      · simp [hkept, hid, update_of_ne (Ne.symm hid)]
    · rename_i hkept
      cases hregister
      refine ⟨rfl, fun id => ?_⟩
      simp [hkept]
  unfold uncounted at hinstall
  rw [hs₁.1] at hinstall
  split at hinstall
  · rename_i hrun
    cases hinstall
    exact ⟨hrun, hs₁.2⟩
  · cases hinstall

/-- The statistics do not change what is installed; registered are the pairs for which a pool was created. -/
theorem forM_installUserStats (jobs : List Job) :
    ∀ {l : Locals} {stats : PoolStatsLookup} {s : Locals × PoolStatsLookup},
      forM jobs (installUserStats ext general olds) (l, stats) = .ok () s →
        forM jobs (fun job => installUser ext general job olds) l = .ok () s.1 ∧
          ∀ id, s.2 id ≠ none ↔
            stats id ≠ none ∨ ∃ job ∈ jobs, job.identifier = id ∧ keptPool ext job olds = none := by
  induction jobs with
  | nil =>
    intro l stats s h
    cases h
    exact ⟨rfl, fun id => by simp⟩
  | cons job jobs ih =>
    intro l stats s h
    rw [List.forM_cons] at h
    obtain ⟨_, s₁, hfirst, hrest⟩ := bind_eq_ok h
    obtain ⟨hinstall, hstats⟩ := installUserStats_eq_ok hfirst
    obtain ⟨hinstalls, hall⟩ := ih hrest
    refine ⟨?_, fun id => ?_⟩
    · rw [List.forM_cons]
      exact bind_eq_ok_iff.mpr ⟨_, _, hinstall, hinstalls⟩
    · rw [hall id, hstats id, or_assoc]
      simp

theorem fromConfigStats_eq_ok {config : Config} {stats : PoolStatsLookup} {s : Locals × PoolStatsLookup}
    (h : fromConfigStats ext olds config (.start, stats) = .ok () s) :
    fromConfig ext olds config .start = .ok () s.1 ∧
      ∀ id, s.2 id ≠ none ↔
        stats id ≠ none ∨ ∃ job ∈ config.jobs, job.identifier = id ∧ keptPool ext job olds = none := by
  rw [fromConfig_eq_jobs]
  exact forM_installUserStats config.jobs h

end Registered

/-! ## A start and reloads, with the statistics -/

/-- The globals, and `POOL_STATS`. -/
structure Monitored where
  global : Global
  poolStats : PoolStatsLookup

def Monitored.start : Monitored := ⟨.start, fun _ => none⟩

abbrev Monitoring := EStateM Failure Monitored

section Monitoring

variable (ext : Externals)

def onGlobal {α : Type} (p : Process α) : Monitoring α := fun m =>
  match p m.global with
  | .ok a g => .ok a { m with global := g }
  | .error failure g => .error failure { m with global := g }

/-- A panic leaves the pools as they were, but not the statistics. -/
def installPoolsStats : Monitoring Unit := fun m =>
  match fromConfigStats ext m.global.pools m.global.config (.start, m.poolStats) with
  | .ok _ s => .ok () ⟨{ m.global with pools := s.1.newPools }, s.2⟩
  | .error panic s => .error (.panicked panic) ⟨m.global, s.2⟩

def startStats (path : String) (file : Except FileError Config) : Monitoring Unit := do
  onGlobal (parse ext path file)
  installPoolsStats ext

def reloadConfigStats (file : Except FileError Config) : Monitoring Bool := do
  let old ← get
  onGlobal (parse ext old.global.config.path file)
  let new ← get
  if ¬ HashMap.Same old.global.config.pools new.global.config.pools then do
    installPoolsStats ext
    pure true
  else if ¬ old.global.config.Same new.global.config then pure true
  else pure false

def reloads (files : List (Except FileError Config)) : Monitoring Unit :=
  forM files fun file => do
    let _ ← reloadConfigStats ext file
    pure ()

def startAndReloads (path : String) (first : Except FileError Config)
    (files : List (Except FileError Config)) : Monitoring Unit := do
  startStats ext path first
  reloads ext files

end Monitoring

section Agreement

variable {ext : Externals} {path : String}

/-- `POOLS` has the pairs of the configuration, `POOL_STATS` those of all configurations so far. -/
structure Monitored.Tracks (m : Monitored) (path : String) (history : List Config) : Prop where
  path : m.global.config.path = path
  current : m.global.config ∈ history
  pools : ∀ id, m.global.pools id ≠ none ↔ m.global.config.Pair id
  stats : ∀ id, m.poolStats id ≠ none ↔ ∃ config ∈ history, config.Pair id

theorem Config.pair_iff_exists {config : Config} {id : PoolIdentifier} :
    config.Pair id ↔ ∃ job ∈ config.jobs, job.identifier = id := by
  rw [Config.pair_iff]
  constructor
  · intro hsome
    obtain ⟨job, hjob⟩ := Option.ne_none_iff_exists'.mp hsome
    exact ⟨job, mem_of_lastJob hjob⟩
  · rintro ⟨job, hjob, hid⟩ hnone
    rw [lastJob, List.getLast?_eq_none_iff, List.filter_eq_nil_iff] at hnone
    exact hnone job hjob (decide_eq_true hid)

theorem installPoolsStats_tracks {m m' : Monitored} {history : List Config}
    (hpools : ∀ id, m.global.pools id ≠ none → ∃ config ∈ history, config.Pair id)
    (hstats : ∀ id, m.poolStats id ≠ none ↔ ∃ config ∈ history, config.Pair id)
    (h : installPoolsStats ext m = .ok () m') :
    m'.Tracks m.global.config.path (history ++ [m.global.config]) := by
  unfold installPoolsStats at h
  split at h
  · rename_i s hrun
    cases h
    obtain ⟨hfrom, hregistered⟩ := fromConfigStats_eq_ok hrun
    refine ⟨rfl, List.mem_append_right _ List.mem_cons_self, newPools_ne_none_iff hfrom, fun id => ?_⟩
    rw [hregistered id, hstats id]
    constructor
    · rintro (⟨config, hconfig, hpair⟩ | ⟨job, hjob, hid, -⟩)
      · exact ⟨config, List.mem_append_left _ hconfig, hpair⟩
      · exact ⟨_, List.mem_append_right _ List.mem_cons_self, Config.pair_iff_exists.mpr ⟨job, hjob, hid⟩⟩
    · rintro ⟨config, hconfig, hpair⟩
      rcases List.mem_append.mp hconfig with hold | hnew
      · exact .inl ⟨config, hold, hpair⟩
      · cases List.mem_singleton.mp hnew
        obtain ⟨job, hjob, hid⟩ := Config.pair_iff_exists.mp hpair
        cases hkept : keptPool ext job m.global.pools with
        | none => exact .inr ⟨job, hjob, hid, hkept⟩
        | some pool =>
          -- What is taken over was there before, and registered then.
          obtain ⟨hold, -⟩ := keptPool_eq_some_iff.mp hkept
          refine .inl (hpools id ?_)
          rw [← hid, hold]
          exact Option.some_ne_none _
  · cases h

variable {file : Except FileError Config} {m : Monitored}

theorem onGlobal_parse_eq_ok {m' : Monitored} (h : onGlobal (parse ext path file) m = .ok () m') :
    ∃ config, parsed ext path file = .ok config ∧
      m' = { m with global := { m.global with config := config } } := by
  unfold onGlobal at h
  split at h
  · rename_i g hparse
    cases h
    obtain ⟨config, hparsed, rfl⟩ := parse_eq_ok hparse
    exact ⟨config, hparsed, rfl⟩
  · cases h

theorem path_of_parsed {config : Config} (h : parsed ext path file = .ok config) : config.path = path := by
  cases file with
  | error err => cases h
  | ok file =>
    obtain ⟨validated, -, hpure⟩ := except_bind_eq_ok.mp h
    cases hpure
    rfl

theorem startStats_tracks (h : startStats ext path file .start = .ok () m) :
    ∃ config, parsed ext path file = .ok config ∧ m.Tracks path [config] := by
  obtain ⟨_, m₁, hparse, hinstall⟩ := bind_eq_ok h
  obtain ⟨config, hparsed, rfl⟩ := onGlobal_parse_eq_ok hparse
  refine ⟨config, hparsed, ?_⟩
  have htracks := @installPoolsStats_tracks ext _ m [] (fun id hid => absurd rfl hid)
    (fun id => by simp [Monitored.start]) hinstall
  rw [path_of_parsed hparsed] at htracks
  exact htracks

theorem reloadConfigStats_tracks {m' : Monitored} {changed : Bool}
    {history : List Config} (htracks : m.Tracks path history)
    (h : reloadConfigStats ext file m = .ok changed m') :
    ∃ config, parsed ext path file = .ok config ∧ m'.Tracks path (history ++ [config]) := by
  obtain ⟨old, _, hget, h⟩ := bind_eq_ok h
  cases hget
  obtain ⟨_, m₁, hparse, h⟩ := bind_eq_ok h
  obtain ⟨config, hparsed, rfl⟩ := onGlobal_parse_eq_ok hparse
  rw [htracks.path] at hparsed
  obtain ⟨new, _, hget, h⟩ := bind_eq_ok h
  cases hget
  refine ⟨config, hparsed, ?_⟩
  by_cases hsame : HashMap.Same m.global.config.pools config.pools
  · -- The pools stay, and the new configuration has the same pairs.
    have hpair : ∀ id, config.Pair id ↔ m.global.config.Pair id := by
      intro id
      unfold Config.Pair
      rw [hsame.lookup]
    have hm' : m' = { m with global := { m.global with config := config } } := by
      rw [if_neg (not_not_intro hsame)] at h
      split at h
      · cases h
        rfl
      · cases h
        rfl
    subst hm'
    refine ⟨path_of_parsed hparsed, List.mem_append_right _ List.mem_cons_self,
      fun id => (htracks.pools id).trans (hpair id).symm, fun id => (htracks.stats id).trans ?_⟩
    constructor
    · rintro ⟨c, hc, hpairs⟩
      exact ⟨c, List.mem_append_left _ hc, hpairs⟩
    · rintro ⟨c, hc, hpairs⟩
      rcases List.mem_append.mp hc with hold | hnew
      · exact ⟨c, hold, hpairs⟩
      · cases List.mem_singleton.mp hnew
        exact ⟨_, htracks.current, (hpair id).mp hpairs⟩
  · rw [if_pos hsame] at h
    obtain ⟨_, m₂, hinstall, hpure⟩ := bind_eq_ok h
    cases hpure
    have hnext := @installPoolsStats_tracks ext ⟨{ m.global with config := config }, m.poolStats⟩ _ history
      (fun id hid => ⟨_, htracks.current, (htracks.pools id).mp hid⟩) htracks.stats hinstall
    exact path_of_parsed hparsed ▸ hnext

theorem reloads_tracks (files : List (Except FileError Config)) :
    ∀ {m m' : Monitored} {history : List Config}, m.Tracks path history →
      reloads ext files m = .ok () m' →
        ∃ configs, List.Forall₂ (fun file config => parsed ext path file = .ok config) files configs ∧
          m'.Tracks path (history ++ configs) := by
  induction files with
  | nil =>
    intro m m' history htracks h
    cases h
    exact ⟨[], .nil, by rwa [List.append_nil]⟩
  | cons file files ih =>
    intro m m' history htracks h
    rw [reloads, List.forM_cons] at h
    obtain ⟨_, m₁, hfirst, hrest⟩ := bind_eq_ok h
    obtain ⟨changed, _, hreload, hpure⟩ := bind_eq_ok hfirst
    cases hpure
    obtain ⟨config, hparsed, hnext⟩ := reloadConfigStats_tracks htracks hreload
    obtain ⟨configs, hconfigs, hlast⟩ := ih hnext hrest
    exact ⟨config :: configs, .cons hparsed hconfigs, by rwa [List.append_assoc] at hlast⟩

theorem startAndReloads_tracks {first : Except FileError Config} {files : List (Except FileError Config)} (hrun : startAndReloads ext path first files .start = .ok () m) :
    ∃ configs, List.Forall₂ (fun file config => parsed ext path file = .ok config) (first :: files) configs ∧
      m.Tracks path configs := by
  obtain ⟨_, m₁, hstart, hreloads⟩ := bind_eq_ok hrun
  obtain ⟨config, hparsed, htracks⟩ := startStats_tracks hstart
  obtain ⟨configs, hconfigs, hlast⟩ := reloads_tracks files htracks hreloads
  exact ⟨config :: configs, .cons hparsed hconfigs, hlast⟩

/-- After a start and any number of reloads that succeed, `POOL_STATS` and `POOLS` have the same pairs
exactly if every pair that was configured on the way still is. -/
theorem pool_stats_agree_iff {first : Except FileError Config} {files : List (Except FileError Config)}
    {m : Monitored} (hrun : startAndReloads ext path first files .start = .ok () m) :
    (∀ id, m.poolStats id ≠ none ↔ m.global.pools id ≠ none) ↔
      ∀ file ∈ first :: files, ∀ config, parsed ext path file = .ok config →
        ∀ id, config.Pair id → m.global.config.Pair id := by
  obtain ⟨configs, hall, hlast⟩ := startAndReloads_tracks hrun
  constructor
  · intro hagree file hfile config hconfig id hpair
    obtain ⟨config', hmem, hconfig'⟩ := exists_of_mem_right hall.flip hfile
    rw [hconfig] at hconfig'
    cases hconfig'
    exact (hlast.pools id).mp ((hagree id).mp ((hlast.stats id).mpr ⟨config, hmem, hpair⟩))
  · intro hstay id
    rw [hlast.stats, hlast.pools]
    constructor
    · rintro ⟨config, hmem, hpair⟩
      obtain ⟨file, hfile, hconfig⟩ := exists_of_mem_right hall hmem
      exact hstay file hfile config hconfig id hpair
    · intro hpair
      exact ⟨_, hlast.current, hpair⟩

end Agreement

namespace Sample

def configFor (name : String) : Config :=
  config { pool (only "0" shard) with users := only "0" { user with username := name } }

/-- The user of the pool is replaced by another: the statistics of the first stay. -/
theorem removed_user_stays_in_stats :
    ∃ m, startAndReloads ext "pgcat.toml" (.ok (configFor "sharding_user")) [.ok (configFor "other_user")] .start =
        .ok () m ∧
      m.poolStats ⟨"sharded_db", "sharding_user"⟩ ≠ none ∧ m.global.pools ⟨"sharded_db", "sharding_user"⟩ = none := by
  have hreturned : returned (startAndReloads ext "pgcat.toml" (.ok (configFor "sharding_user"))
      [.ok (configFor "other_user")]) .start = true := by decide +kernel
  obtain ⟨_, hrun⟩ := ok_of_returned hreturned
  exact ⟨_, hrun, Option.isSome_iff_ne_none.mp (by decide +kernel),
    Option.isNone_iff_eq_none.mp (by decide +kernel)⟩

def bothConfigured : Config :=
  config { pool (only "0" shard) with users := bothUsers }

/-- A second user is added. -/
theorem added_user_agrees :
    ∃ m, startAndReloads ext "pgcat.toml" (.ok (configFor "sharding_user")) [.ok bothConfigured] .start = .ok () m ∧
      m.global.pools ⟨"sharded_db", "other_user"⟩ ≠ none ∧
      ∀ id, m.poolStats id ≠ none ↔ m.global.pools id ≠ none := by
  have hreturned : returned (startAndReloads ext "pgcat.toml" (.ok (configFor "sharding_user"))
      [.ok bothConfigured]) .start = true := by decide +kernel
  obtain ⟨_, hrun⟩ := ok_of_returned hreturned
  refine ⟨_, hrun, Option.isSome_iff_ne_none.mp (by decide +kernel), (pool_stats_agree_iff hrun).mpr ?_⟩
  intro file hfile config hconfig id hpair
  rw [Config.pair_iff_exists, ← List.mem_map] at hpair ⊢
  refine (?_ : config.jobs.map Job.identifier ⊆ _) hpair
  rcases List.mem_pair.mp hfile with rfl | rfl
  · cases hconfig
    decide +kernel
  · cases hconfig
    decide +kernel

/-- Two configurations of one database, one after the other. -/
theorem second_user_tracked :
    ∃ pools, installAll ext [configFor "sharding_user", configFor "other_user"] (fun _ => none) = .ok pools ∧
      ∀ id, pools id ≠ none ↔ (configFor "other_user").Pair id := by
  have hreturned :
      (installAll ext [configFor "sharding_user", configFor "other_user"] (fun _ => none)).isOk = true := rfl
  cases hrun : installAll ext [configFor "sharding_user", configFor "other_user"] (fun _ => none) with
  | error panic =>
    rw [hrun] at hreturned
    cases hreturned
  | ok pools =>
    obtain ⟨_, _, _, _, rfl, hkeys, _⟩ := @pools_track_config ext [configFor "sharding_user"] _ _ _ hrun
    exact ⟨_, rfl, hkeys⟩

end Sample

end PgCat.Install
