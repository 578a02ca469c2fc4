import PgCat.Install.FromConfig

/-!
# Built — what a finished `from_config` leaves behind

Every function of `from_config` gets one lemma that says what it has made when it returns:
`ServerBuilt` for a server, `ShardBuilt` for a shard, `PoolBuilt` for a pool.  `Progress` is the
invariant of the loop over the pools and users: for each pair the last turn that concerned it counts.
-/

namespace PgCat.Install

open Lib Function

/-! ## The primitive steps -/

theorem attempt_eq_ok {α : Type} {x : Except Panic α} {a : α} {l l' : Locals}
    (h : attempt x l = .ok a l') : x = .ok a := by
  cases x with
  | ok b =>
    cases h
    rfl
  | error panic => cases h

theorem unwrap_eq_ok {α : Type} {panic : Panic} {o : Option α} {a : α} :
    unwrap panic o = .ok a ↔ o = some a := by
  cases o with
  | none => simp [unwrap]
  | some b => simp [unwrap]

section Parts

variable {ext : Externals} {general : General} {job : Job} {l l' : Locals}

/-- The part of a new address that does not depend on the counters. -/
structure AddressBuilt (job : Job) (shardIdx : String) (shard : Shard) (addressIndex : Nat)
    (address : Address) : Prop where
  number : parseUsize shardIdx.toList = some address.shard
  index : address.addressIndex = addressIndex
  database : address.database = shard.database
  username : address.username = job.user.username
  poolName : address.poolName = job.poolName

variable {shard : Shard} {shardIdx : String}

theorem newAddress_built {host : String} {port : Nat}
    {role : Config.Role} {addressIndex : Nat} {mirrors : List Address} {address : Address}
    (h : newAddress job shardIdx shard host port role addressIndex mirrors l = .ok address l') :
    AddressBuilt job shardIdx shard addressIndex address ∧ address.role = role ∧
      address.host = host ∧ address.port = port := by
  obtain ⟨number, _, hnumber, h⟩ := bind_eq_ok h
  obtain ⟨id, _, _, h⟩ := bind_eq_ok h
  obtain ⟨locals, _, _, hpure⟩ := bind_eq_ok h
  cases hpure
  exact ⟨⟨unwrap_eq_ok.mp (attempt_eq_ok hnumber), rfl, rfl, rfl, rfl⟩, rfl, rfl, rfl⟩

structure ServerBuilt (general : General) (job : Job) (shardIdx : String) (shard : Shard)
    (server : ServerConfig × Nat) (row : Database × Address) : Prop where
  address : AddressBuilt job shardIdx shard server.2 row.2
  server : row.2.role = server.1.role ∧ row.2.host = server.1.host ∧ row.2.port = server.1.port
  belongs : row.1.address = row.2
  connectionTimeout : row.1.connectionTimeout = job.pool.connectTimeoutOf general
  idleTimeout : row.1.idleTimeout = job.pool.idleTimeoutOf general

theorem buildDatabase_built {address : Address} {database : Database}
    (h : buildDatabase ext general job shard address l = .ok database l') :
    database.address = address ∧ database.connectionTimeout = job.pool.connectTimeoutOf general ∧
      database.idleTimeout = job.pool.idleTimeoutOf general := by
  unfold buildDatabase at h
  split at h
  · cases h
    exact ⟨rfl, rfl, rfl⟩
  · cases h

theorem installServer_built {server : ServerConfig} {addressIndex : Nat} {row : Database × Address}
    (h : installServer ext general job shardIdx shard server addressIndex l = .ok row l') :
    ServerBuilt general job shardIdx shard (server, addressIndex) row := by
  obtain ⟨mirrors, _, _, h⟩ := bind_eq_ok h
  obtain ⟨address, _, haddress, h⟩ := bind_eq_ok h
  obtain ⟨_, _, _, h⟩ := bind_eq_ok h
  obtain ⟨_, _, _, h⟩ := bind_eq_ok h
  obtain ⟨database, _, hdatabase, hpure⟩ := bind_eq_ok h
  cases hpure
  obtain ⟨hbuilt, hserver⟩ := newAddress_built haddress
  obtain ⟨hbelongs, hconnect, hidle⟩ := buildDatabase_built hdatabase
  exact ⟨hbuilt, hserver, hbelongs, hconnect, hidle⟩

def ShardBuilt (general : General) (job : Job) (shardIdx : String) (row : List (Database × Address)) : Prop :=
  ∃ shard, job.pool.shards.lookup shardIdx = some shard ∧
    List.Forall₂ (ServerBuilt general job shardIdx shard) shard.servers.zipIdx row

theorem installShard_built {row : List (Database × Address)}
    (h : installShard ext general job shardIdx l = .ok row l') : ShardBuilt general job shardIdx row := by
  obtain ⟨shard, _, hshard, h⟩ := bind_eq_ok h
  obtain ⟨_, _, _, h⟩ := bind_eq_ok h
  refine ⟨shard, unwrap_eq_ok.mp (attempt_eq_ok hshard), ?_⟩
  refine (mapM_forall₂ h).imp ?_
  rintro server row ⟨_, _, hserver⟩
  exact installServer_built hserver

/-- A pool that was created for a turn of the loop, from the sorted shard names and their rows. -/
structure PoolBuilt (ext : Externals) (general : General) (job : Job) (shardIds : List String)
    (rows : List (List (Database × Address))) (pool : ConnectionPool) : Prop where
  sorted : sortShardIds job.pool.shards.keys = .ok shardIds
  installed : List.Forall₂ (ShardBuilt general job) shardIds rows
  databases : pool.databases = rows.map fun row => row.map Prod.fst
  addresses : pool.addresses = rows.map fun row => row.map Prod.snd
  banlist : pool.banlist = rows.map fun _ => []
  settings : poolSettings ext general job.pool job.user shardIds.length = .ok pool.settings
  configHash : pool.configHash = ext.hashValue job.pool

def BuiltFor (ext : Externals) (general : General) (job : Job) (pool : ConnectionPool) : Prop :=
  ∃ shardIds rows, PoolBuilt ext general job shardIds rows pool

theorem createPool_built {pool : ConnectionPool}
    (h : createPool ext general job l = .ok pool l') : BuiltFor ext general job pool := by
  obtain ⟨shardIds, _, hsort, h⟩ := bind_eq_ok h
  obtain ⟨_, _, _, h⟩ := bind_eq_ok h
  obtain ⟨rows, _, hrows, h⟩ := bind_eq_ok h
  obtain ⟨settings, _, hsettings, h⟩ := bind_eq_ok h
  obtain ⟨locals, _, _, hpure⟩ := bind_eq_ok h
  cases hpure
  refine ⟨shardIds, rows, attempt_eq_ok hsort, ?_, rfl, rfl, rfl, attempt_eq_ok hsettings, rfl⟩
  refine (mapM_forall₂ hrows).imp ?_
  rintro shardIdx row ⟨_, _, hshard⟩
  exact installShard_built hshard

end Parts

/-! ## The map of new pools is left alone while a pool is created -/

def Untouched (l l' : Locals) : Prop :=
  l'.newPools = l.newPools ∧ l'.built = l.built

section Frame

variable (ext : Externals) (general : General) (job : Job)

theorem attempt_runs {α : Type} (x : Except Panic α) : Runs ⊥ Untouched (attempt x) := by
  cases x with
  | ok a => exact Runs.ofPure a
  | error panic => exact Runs.ofThrow panic

theorem nextAddressId_runs : Runs ⊥ Untouched nextAddressId :=
  Runs.ofGet.seq fun locals => (Runs.ofModify fun _ => ⟨rfl, rfl⟩).seq fun _ =>
    Runs.ofPure locals.addressId

variable (shardIdx : String) (shard : Shard)

theorem newAddress_runs (host : String) (port : Nat)
    (role : Config.Role) (addressIndex : Nat) (mirrors : List Address) :
    Runs ⊥ Untouched (newAddress job shardIdx shard host port role addressIndex mirrors) :=
  (attempt_runs _).seq fun _ => nextAddressId_runs.seq fun _ => Runs.ofGet.seq fun _ => Runs.ofPure _

theorem fetchAuthHash_runs (address : Address) : Runs ⊥ Untouched (fetchAuthHash ext job address) := by
  refine (attempt_runs _).seq fun auth => ?_
  cases auth with
  | none => exact Runs.ofPure ()
  | some apt =>
    dsimp only
    split
    · exact Runs.ofModify fun _ => ⟨rfl, rfl⟩
    · exact Runs.ofPure ()

theorem buildDatabase_runs (address : Address) :
    Runs ⊥ Untouched (buildDatabase ext general job shard address) :=
  Runs.cond (Runs.ofPure _) (Runs.ofThrow _)

theorem installServer_runs (server : ServerConfig) (addressIndex : Nat) :
    Runs ⊥ Untouched (installServer ext general job shardIdx shard server addressIndex) := by
  have hmirrors : Runs ⊥ Untouched (mirrorAddresses job shardIdx shard server addressIndex) :=
    Runs.mapEach (fun mirror => newAddress_runs job shardIdx shard _ _ _ _ _) _
  refine hmirrors.seq fun mirrors => (newAddress_runs job shardIdx shard _ _ _ _ _).seq fun address => ?_
  refine (Runs.ofModify fun _ => ⟨rfl, rfl⟩).seq fun _ => (fetchAuthHash_runs ext job address).seq fun _ => ?_
  exact (buildDatabase_runs ext general job shard address).seq fun database => Runs.ofPure _

theorem installShard_runs : Runs ⊥ Untouched (installShard ext general job shardIdx) := by
  refine (attempt_runs _).seq fun shard => (Runs.ofModify fun _ => ⟨rfl, rfl⟩).seq fun _ => ?_
  exact Runs.mapEach (fun server => installServer_runs ext general job shardIdx shard _ _) _

theorem createPool_runs : Runs ⊥ Untouched (createPool ext general job) := by
  refine (attempt_runs _).seq fun shardIds => (Runs.ofModify fun _ => ⟨rfl, rfl⟩).seq fun _ => ?_
  refine (Runs.mapEach (fun shardIdx => installShard_runs ext general job shardIdx) _).seq fun rows => ?_
  exact (attempt_runs _).seq fun settings => Runs.ofGet.seq fun _ => Runs.ofPure _

theorem createPool_untouched {pool : ConnectionPool} {l l' : Locals}
    (h : createPool ext general job l = .ok pool l') : Untouched l l' := by
  have hrun := (createPool_runs ext general job).keeps (I := Untouched l) (fun _ _ hstep hl =>
    ⟨hstep.1.trans hl.1, hstep.2.trans hl.2⟩) l ⟨rfl, rfl⟩
  unfold wp at hrun
  rw [h] at hrun
  exact hrun

end Frame

/-! ## The loop -/

section Loop

variable {ext : Externals} {general : General} {olds : PoolMap}

/-- The last turn for a pair of database and user. -/
def lastJob (jobs : List Job) (id : PoolIdentifier) : Option Job :=
  (jobs.filter fun job => job.identifier = id).getLast?

theorem lastJob_concat (jobs : List Job) (job : Job) (id : PoolIdentifier) :
    lastJob (jobs ++ [job]) id = if job.identifier = id then some job else lastJob jobs id := by
  unfold lastJob
  rw [List.filter_append]
  by_cases hid : job.identifier = id
  · simp [hid]
  · simp [hid]

theorem mem_of_lastJob {jobs : List Job} {id : PoolIdentifier} {job : Job}
    (h : lastJob jobs id = some job) : job ∈ jobs ∧ job.identifier = id := by
  have hmem := List.mem_of_getLast? h
  simpa using hmem

/-- Taken over, or created because there was nothing to take over. -/
def Placed (ext : Externals) (general : General) (olds : PoolMap) (job : Job)
    (pool : ConnectionPool) : Prop :=
  keptPool ext job olds = some pool ∨
    keptPool ext job olds = none ∧ BuiltFor ext general job pool

structure Progress (ext : Externals) (general : General) (olds : PoolMap) (done : List Job)
    (l : Locals) : Prop where
  absent : ∀ id, lastJob done id = none → l.newPools id = none
  placed : ∀ id job, lastJob done id = some job →
    ∃ pool, l.newPools id = some pool ∧ Placed ext general olds job pool
  built : ∀ pool ∈ l.built, ∃ job ∈ done, keptPool ext job olds = none ∧ BuiltFor ext general job pool
  creates : ∀ job ∈ done, keptPool ext job olds = none →
    ∃ pool ∈ l.built, BuiltFor ext general job pool

theorem Progress.start : Progress ext general olds [] .start where
  absent := fun _ _ => rfl
  placed := by
    intro id job hid
    cases hid
  built := by
    intro pool hpool
    cases hpool
  creates := by
    intro job hjob
    cases hjob

theorem Progress.insert {done : List Job} {l : Locals} {job : Job} {pool : ConnectionPool}
    (h : Progress ext general olds done l) (built : List ConnectionPool)
    (hpool : Placed ext general olds job pool) (hgrow : ∀ p ∈ l.built, p ∈ built)
    (hbuilt : ∀ p ∈ built, p ∈ l.built ∨ keptPool ext job olds = none ∧ BuiltFor ext general job p)
    (hcreates : keptPool ext job olds = none → ∃ p ∈ built, BuiltFor ext general job p)
    {l' : Locals} (hl : l'.newPools = update l.newPools job.identifier (some pool))
    (hl' : l'.built = built) : Progress ext general olds (done ++ [job]) l' where
  -- A pair is looked at by its last job, which is this one or an earlier one.
  absent := by
    intro id hid
    rw [lastJob_concat] at hid
    split at hid
    · cases hid
    · rename_i hne
      rw [hl, update_of_ne (Ne.symm hne)]
      exact h.absent id hid
  placed := by
    intro id job' hid
    rw [lastJob_concat] at hid
    split at hid
    · rename_i heq
      cases hid
      rw [hl, heq, update_self]
      exact ⟨pool, rfl, hpool⟩
    · rename_i hne
      rw [hl, update_of_ne (Ne.symm hne)]
      exact h.placed id job' hid
  built := by
    intro p hp
    rw [hl'] at hp
    rcases hbuilt p hp with hold | hnew
    · obtain ⟨job', hjob', hrest⟩ := h.built p hold
      exact ⟨job', List.mem_append_left _ hjob', hrest⟩
    · exact ⟨job, List.mem_append_right _ List.mem_cons_self, hnew⟩
  creates := by
    intro job' hjob' hkept
    rw [hl']
    rcases List.mem_append.mp hjob' with hdone | hlast
    · obtain ⟨p, hp, hrest⟩ := h.creates job' hdone hkept
      exact ⟨p, hgrow p hp, hrest⟩
    · cases List.mem_singleton.mp hlast
      exact hcreates hkept

/-- One turn takes a pool over, or creates one; either way it ends up under the pair. -/
theorem installUser_rule {Q : Locals → Prop} {job : Job} {l : Locals}
    (hkept : ∀ pool, keptPool ext job olds = some pool →
      Q { l with newPools := update l.newPools job.identifier (some pool) })
    (hnew : ∀ pool l₁, keptPool ext job olds = none → createPool ext general job l = .ok pool l₁ →
      Q { l₁ with
        newPools := update l.newPools job.identifier (some pool)
        built := pool :: l.built }) :
    wp (installUser ext general job olds) (fun _ => Q) (fun _ _ => True) l := by
  unfold installUser
  cases hpool : keptPool ext job olds with
  | some pool => exact hkept pool hpool
  | none =>
    rw [wp_bind]
    unfold wp
    cases hcreate : createPool ext general job l with
    | error panic l₁ => trivial
    | ok pool l₁ =>
      have hframe : Untouched l l₁ := createPool_untouched ext general job hcreate
      have hQ := hnew pool l₁ hpool hcreate
      rw [← hframe.1, ← hframe.2] at hQ
      exact hQ

theorem installUser_progress {done : List Job} {l : Locals} (job : Job)
    (h : Progress ext general olds done l) :
    wp (installUser ext general job olds) (fun _ => Progress ext general olds (done ++ [job]))
      (fun _ _ => True) l := by
  refine installUser_rule (fun pool hkept => ?_) (fun pool l₁ hkept hcreate => ?_)
  · exact h.insert l.built (.inl hkept) (fun _ hp => hp) (fun _ hp => .inl hp)
      (fun hnone => absurd hnone (by simp [hkept])) rfl rfl
  · have hpool : BuiltFor ext general job pool := createPool_built hcreate
    refine h.insert (pool :: l.built) (.inr ⟨hkept, hpool⟩)
      (fun _ hp => List.mem_cons_of_mem pool hp) ?_ (fun _ => ⟨pool, List.mem_cons_self, hpool⟩) rfl rfl
    intro p hp
    rcases List.mem_cons.mp hp with rfl | hold
    · exact .inr ⟨hkept, hpool⟩
    · exact .inl hold

/-- What every job keeps, indexed by the jobs done so far, holds at the end for all of them. -/
theorem fromConfig_rule {I : List Job → Locals → Prop} {config : Config} {l : Locals}
    (h : fromConfig ext olds config .start = .ok () l) (hstart : I [] .start)
    (hstep : ∀ done job l, I done l →
      wp (installUser ext config.general job olds) (fun _ => I (done ++ [job])) (fun _ _ => True) l) :
    I config.jobs l := by
  have hloop := wp_forM I config.jobs (fun done job l _ => hstep done job l) [] .start hstart
  rw [← fromConfig_eq_jobs] at hloop
  unfold wp at hloop
  rw [h] at hloop
  exact hloop

theorem fromConfig_progress {config : Config} {l : Locals}
    (h : fromConfig ext olds config .start = .ok () l) :
    Progress ext config.general olds config.jobs l :=
  fromConfig_rule h Progress.start fun _ job _ hprogress => installUser_progress job hprogress

theorem Progress.of_some {done : List Job} {l : Locals} (h : Progress ext general olds done l) {id : PoolIdentifier}
    {pool : ConnectionPool} (hpool : l.newPools id = some pool) :
    ∃ job, lastJob done id = some job ∧ Placed ext general olds job pool := by
  cases hjob : lastJob done id with
  | none =>
    rw [h.absent id hjob] at hpool
    cases hpool
  | some job =>
    obtain ⟨pool', hpool', hplaced⟩ := h.placed id job hjob
    rw [hpool] at hpool'
    cases hpool'
    exact ⟨job, rfl, hplaced⟩

end Loop

end PgCat.Install
