import PgCat.Install.Tracking
import PgCat.Lib.Numbering

/-!
# AddressIds — the numbers of the addresses

Every address gets a number that is to tell it from all others.  The counter is a local variable of
`from_config`: the pools it creates are numbered from zero on, each with as many numbers as its section has
servers and mirrors (`createPool_numbers`, `fromConfig_numbered`), but a pool that is taken over keeps the
numbers of the call that created it.

`reloadAll` is a run of reloads, whatever they come to: a configuration that is refused, or that makes
`from_config` panic, leaves the pools as they were.
-/

namespace PgCat.Install

open Lib

/-! ## The numbers of a pool -/

mutual

/-- The numbers of an address: those of its mirrors, and its own. -/
def Address.ids : Address → List Nat
  | ⟨id, _, _, _, _, _, _, _, _, _, mirrors⟩ => mirrorIds mirrors ++ [id]

def mirrorIds : List Address → List Nat
  | [] => []
  | a :: rest => a.ids ++ mirrorIds rest

end

theorem mirrorIds_eq_flatMap (l : List Address) : mirrorIds l = l.flatMap Address.ids := by
  induction l with
  | nil => rfl
  | cons a rest ih => rw [mirrorIds, ih, List.flatMap_cons]

theorem Address.ids_eq (a : Address) : a.ids = a.mirrors.flatMap Address.ids ++ [a.id] := by
  cases a
  rw [Address.ids, mirrorIds_eq_flatMap]

def ConnectionPool.ids (pool : ConnectionPool) : List Nat :=
  pool.addresses.flatMap fun row => row.flatMap Address.ids

/-- No two addresses of the installed pools have the same number. -/
structure UniqueIds (pools : PoolMap) : Prop where
  within : ∀ id pool, pools id = some pool → pool.ids.Nodup
  across : ∀ id id' pool pool', id ≠ id' → pools id = some pool → pools id' = some pool' →
    pool.ids.Disjoint pool'.ids

/-! ## A pool that is created -/

/-- The servers of a shard, and the mirrors that follow one of them. -/
def Shard.addressCount (shard : Shard) : Nat :=
  (shard.servers.zipIdx.map fun server =>
    ((shard.mirrors.getD []).countP fun mirror => mirror.mirroringTargetIndex = server.2) + 1).sum

def Pool.addressCount (pool : Pool) : Nat :=
  (pool.shards.entries.map fun e => e.2.addressCount).sum

theorem length_followers (mirrors : List MirrorServerConfig) (i : Nat) :
    (mirrors.zipIdx.filter fun mirror => mirror.1.mirroringTargetIndex = i).length =
      mirrors.countP fun mirror => mirror.mirroringTargetIndex = i := by
  rw [← List.countP_eq_length_filter]
  calc mirrors.zipIdx.countP (fun mirror => mirror.1.mirroringTargetIndex = i)
      = (mirrors.zipIdx.map Prod.fst).countP fun mirror => mirror.mirroringTargetIndex = i := by
        rw [List.countP_map]
        rfl
    _ = mirrors.countP fun mirror => mirror.mirroringTargetIndex = i := by rw [List.zipIdx_map_fst]

/-- The shards are counted in the order they are sorted in, which makes no difference. -/
theorem sum_addressCount {pool : Pool} {shardIds : List String} (h : sortShardIds pool.shards.keys = .ok shardIds) :
    (shardIds.map fun k => ((pool.shards.lookup k).map Shard.addressCount).getD 0).sum = pool.addressCount := by
  rw [((sortShardIds_perm h).map _).sum_nat, Pool.addressCount, AList.keys, List.keys, List.map_map]
  congr 1
  refine List.map_congr_left fun e he => ?_
  have hlookup : pool.shards.lookup e.1 = some e.2 := AList.mem_lookup_iff.mpr he
  simp [hlookup]

section Create

variable (ext : Externals) (general : General) (job : Job)

theorem attempt_result {α : Type} (x : Except Panic α) :
    Numbers Locals.addressId (fun a xs => xs = [] ∧ x = .ok a) (attempt x) := by
  cases x with
  | ok a => exact .ofPure ⟨rfl, rfl⟩
  | error panic => exact .ofThrow panic

theorem attempt_numbers {α : Type} (x : Except Panic α) :
    Numbers Locals.addressId (fun _ xs => xs = []) (attempt x) :=
  (attempt_result x).mono fun _ _ h => h.1

theorem nextAddressId_numbers : Numbers Locals.addressId (fun id xs => xs = [id]) nextAddressId := by
  intro l id l' hrun
  cases hrun
  exact ⟨1, rfl, rfl⟩

variable (shardIdx : String) (shard : Shard)

theorem newAddress_numbers (host : String) (port : Nat)
    (role : Config.Role) (addressIndex : Nat) (mirrors : List Address) :
    Numbers Locals.addressId (fun a xs => xs = [a.id] ∧ a.mirrors = mirrors)
      (newAddress job shardIdx shard host port role addressIndex mirrors) := by
  refine (attempt_numbers _).after fun number => nextAddressId_numbers.seq fun id xs hxs => ?_
  refine Numbers.ofGet.after fun locals => .ofPure ?_
  exact ⟨by rw [hxs, List.append_nil], rfl⟩

theorem mirrorAddresses_numbers (server : ServerConfig) (addressIndex : Nat) :
    Numbers Locals.addressId (fun as xs => as.flatMap Address.ids = xs ∧
        xs.length = (shard.mirrors.getD []).countP fun mirror => mirror.mirroringTargetIndex = addressIndex)
      (mirrorAddresses job shardIdx shard server addressIndex) := by
  have hone : ∀ mirror : MirrorServerConfig × Nat, Numbers Locals.addressId (fun a xs => a.ids = xs ∧ xs.length = 1)
      (newAddress job shardIdx shard mirror.1.host mirror.1.port server.role mirror.2 []) := by
    refine fun mirror => (newAddress_numbers job shardIdx shard _ _ _ _ _).mono ?_
    rintro a xs ⟨hids, hmirrors⟩
    rw [Address.ids_eq, hmirrors, hids, List.flatMap_nil, List.nil_append]
    exact ⟨rfl, rfl⟩
  refine (Numbers.mapEach hone _).mono fun as xs h => ⟨h.1, h.2.trans ?_⟩
  rw [← length_followers]
  simp

theorem fetchAuthHash_numbers (address : Address) :
    Numbers Locals.addressId (fun _ xs => xs = []) (fetchAuthHash ext job address) := by
  refine (attempt_numbers _).after fun auth => ?_
  cases auth with
  | none => exact .ofPure rfl
  | some apt =>
    dsimp only
    split
    · exact .ofModify fun _ => rfl
    · exact .ofPure rfl

theorem buildDatabase_numbers (address : Address) :
    Numbers Locals.addressId (fun _ xs => xs = []) (buildDatabase ext general job shard address) := by
  unfold buildDatabase
  dsimp only
  split
  · exact .ofPure rfl
  · exact .ofThrow _

theorem installServer_numbers (server : ServerConfig) (addressIndex : Nat) :
    Numbers Locals.addressId (fun r xs => r.2.ids = xs ∧ xs.length =
        ((shard.mirrors.getD []).countP fun mirror => mirror.mirroringTargetIndex = addressIndex) + 1)
      (installServer ext general job shardIdx shard server addressIndex) := by
  -- The mirrors are numbered before the server they follow.
  refine (mirrorAddresses_numbers job shardIdx shard server addressIndex).seq fun mirrors xs hxs => ?_
  refine (newAddress_numbers job shardIdx shard _ _ _ _ _).seq fun address ys hys => ?_
  refine Numbers.after (.ofModify fun _ => rfl) fun _ => (fetchAuthHash_numbers ext job address).after fun _ => ?_
  refine (buildDatabase_numbers ext general job shard address).after fun database => .ofPure ?_
  rw [Address.ids_eq, hys.2, hxs.1, hys.1, List.append_nil, List.length_append, hxs.2]
  exact ⟨rfl, rfl⟩

theorem installShard_numbers : Numbers Locals.addressId (fun row xs => (row.flatMap fun r => r.2.ids) = xs ∧
        xs.length = ((job.pool.shards.lookup shardIdx).map Shard.addressCount).getD 0)
      (installShard ext general job shardIdx) := by
  refine (attempt_result _).afterResult fun shard hshard => Numbers.after (.ofModify fun _ => rfl) fun _ => ?_
  rw [unwrap_eq_ok.mp hshard]
  exact Numbers.mapEach (fun server : ServerConfig × Nat =>
    installServer_numbers ext general job shardIdx shard server.1 server.2) _

theorem createPool_numbers :
    Numbers Locals.addressId (fun pool xs => pool.ids = xs ∧ xs.length = job.pool.addressCount)
      (createPool ext general job) := by
  refine (attempt_result _).afterResult fun shardIds hsorted => Numbers.after (.ofModify fun _ => rfl) fun _ => ?_
  refine (Numbers.mapEach (fun shardIdx => installShard_numbers ext general job shardIdx) _).seq
    fun rows xs hxs => ?_
  refine (attempt_numbers _).after fun settings => Numbers.ofGet.after fun _ => .ofPure ?_
  rw [List.append_nil, ← sum_addressCount hsorted, ← hxs.2, ← hxs.1, ConnectionPool.ids, List.flatMap_map]
  simp only [List.flatMap_map, and_self]

end Create

/-! ## A call of `from_config` -/

section Call

variable (ext : Externals) (olds : PoolMap)

/-- The servers and mirrors of the turns that create a pool. -/
def newAddresses (jobs : List Job) : Nat :=
  (jobs.map fun job => if (keptPool ext job olds).isSome then 0 else job.pool.addressCount).sum

/-- After the turns `before`, that of `job` creates the pool that stays: there is none to take over, and no later
turn has the same pair. -/
def Creates (jobs before : List Job) (job : Job) : Prop :=
  ∃ after, jobs = before ++ job :: after ∧ keptPool ext job olds = none ∧
    ∀ other ∈ after, other.identifier ≠ job.identifier

/-- The numbers a turn gives: it counts on where the turns before it have stopped. -/
def numbersOf (before : List Job) (job : Job) : List Nat :=
  List.range' (newAddresses ext olds before) job.pool.addressCount

/-- No pool that is taken over has a number that is given to one that is created. -/
def Clear (jobs : List Job) : Prop :=
  ∀ before job, Creates ext olds jobs before job → ∀ id other old, lastJob jobs id = some other →
    keptPool ext other olds = some old → old.ids.Disjoint (numbersOf ext olds before job)

/-- The pools created so far have the numbers of their turns. -/
structure Numbered (done : List Job) (l : Locals) : Prop where
  counter : l.addressId = newAddresses ext olds done
  ids : ∀ before job, Creates ext olds done before job →
    ∃ pool, l.newPools job.identifier = some pool ∧ pool.ids = numbersOf ext olds before job

variable {ext olds}

variable {config : Config} {jobs done before : List Job} {job other : Job} {l : Locals} {pool : ConnectionPool}

theorem newAddresses_append (jobs jobs' : List Job) :
    newAddresses ext olds (jobs ++ jobs') = newAddresses ext olds jobs + newAddresses ext olds jobs' := by
  rw [newAddresses, List.map_append, List.sum_append]
  rfl

theorem newAddresses_cons_of_none (hkept : keptPool ext job olds = none) (jobs : List Job) :
    newAddresses ext olds (job :: jobs) = job.pool.addressCount + newAddresses ext olds jobs := by
  simp [newAddresses, hkept]

theorem creates_concat_iff : Creates ext olds (done ++ [job]) before other ↔
    (before = done ∧ other = job ∧ keptPool ext job olds = none) ∨
      (Creates ext olds done before other ∧ job.identifier ≠ other.identifier) := by
  constructor
  · rintro ⟨after, hjobs, hkept, hlast⟩
    rcases List.eq_nil_or_concat after with rfl | ⟨after, x, rfl⟩
    · obtain ⟨rfl, hjob⟩ := List.append_inj' hjobs rfl
      cases hjob
      exact .inl ⟨rfl, rfl, hkept⟩
    · rw [List.concat_eq_append, ← List.cons_append, ← List.append_assoc] at hjobs
      obtain ⟨rfl, hjob⟩ := List.append_inj' hjobs rfl
      cases hjob
      refine .inr ⟨⟨after, rfl, hkept, fun j hj => hlast j ?_⟩, hlast job ?_⟩
      · rw [List.concat_eq_append]
        exact List.mem_append_left _ hj
      · rw [List.concat_eq_append]
        exact List.mem_append_right _ List.mem_cons_self
  · rintro (⟨rfl, rfl, hkept⟩ | ⟨⟨after, rfl, hkept, hlast⟩, hne⟩)
    · exact ⟨[], rfl, hkept, fun _ hj => by cases hj⟩
    · refine ⟨after ++ [job], by simp, hkept, fun j hj => ?_⟩
      rcases List.mem_append.mp hj with hj | hj
      · exact hlast j hj
      · rw [List.mem_singleton.mp hj]
        exact hne

theorem Creates.lastJob (h : Creates ext olds jobs before job) : lastJob jobs job.identifier = some job := by
  obtain ⟨after, rfl, -, hlast⟩ := h
  have hnone : after.filter (fun other => other.identifier = job.identifier) = [] := by
    simpa using hlast
  rw [Install.lastJob, List.filter_append, List.filter_cons_of_pos (by simp), hnone]
  simp

theorem exists_creates {id : PoolIdentifier} (hlast : lastJob jobs id = some job)
    (hkept : keptPool ext job olds = none) : ∃ before, Creates ext olds jobs before job := by
  induction jobs using List.reverseRecOn with
  | nil => cases hlast
  | append_singleton jobs last ih =>
    rw [lastJob_concat] at hlast
    split at hlast
    · cases hlast
      exact ⟨jobs, creates_concat_iff.mpr (.inl ⟨rfl, rfl, hkept⟩)⟩
    · rename_i hid
      obtain ⟨before, hbefore⟩ := ih hlast
      refine ⟨before, creates_concat_iff.mpr (.inr ⟨hbefore, ?_⟩)⟩
      rwa [(mem_of_lastJob hlast).2]

theorem Creates.below (h : Creates ext olds jobs before job) {i : Nat} (hi : i ∈ numbersOf ext olds before job) :
    i < newAddresses ext olds jobs := by
  obtain ⟨after, rfl, hkept, -⟩ := h
  rw [newAddresses_append, newAddresses_cons_of_none hkept]
  have hrange := (List.mem_range'_1.mp hi).2
  omega

/-- Of two turns, the later one counts on behind the earlier one. -/
theorem Creates.disjoint {before' : List Job} (h : Creates ext olds jobs before job)
    (h' : Creates ext olds jobs before' other) (hne : job.identifier ≠ other.identifier) :
    (numbersOf ext olds before job).Disjoint (numbersOf ext olds before' other) := by
  have hlater : ∀ {first second : List Job} {x y : Job} {rest rest' mid : List Job},
      keptPool ext x olds = none → x ≠ y → second = first ++ mid → x :: rest = mid ++ y :: rest' →
        (numbersOf ext olds first x).Disjoint (numbersOf ext olds second y) := by
    rintro first second x y rest rest' mid hkept hxy rfl hmid i hi hi'
    cases mid with
    | nil => exact hxy (List.cons.inj hmid).1
    | cons z mid =>
      cases (List.cons.inj hmid).1
      have hhigh := (List.mem_range'_1.mp hi).2
      have hlow := (List.mem_range'_1.mp hi').1
      rw [newAddresses_append, newAddresses_cons_of_none hkept] at hlow
      omega
  have hjob : job ≠ other := fun heq => hne (congrArg _ heq)
  obtain ⟨after, hjobs, hkept, -⟩ := h
  obtain ⟨after', hjobs', hkept', -⟩ := h'
  rw [hjobs] at hjobs'
  rcases List.append_eq_append_iff.mp hjobs' with ⟨mid, hbefore, hmid⟩ | ⟨mid, hbefore, hmid⟩
  · exact hlater hkept hjob hbefore hmid
  · exact (hlater hkept' hjob.symm hbefore hmid).symm

theorem installUser_numbered (general : General) (job : Job) (h : Numbered ext olds done l) :
    wp (installUser ext general job olds) (fun _ => Numbered ext olds (done ++ [job])) (fun _ _ => True) l := by
  have hothers : ∀ {before other}, Creates ext olds done before other → job.identifier ≠ other.identifier →
      ∀ pool : ConnectionPool, ∃ p, Function.update l.newPools job.identifier (some pool) other.identifier = some p ∧
        p.ids = numbersOf ext olds before other := by
    intro before other hcreates hne pool
    rw [Function.update_of_ne (Ne.symm hne)]
    exact h.ids before other hcreates
  refine installUser_rule (fun pool hkept => ⟨?_, fun before other hcreates => ?_⟩)
    (fun pool l₁ hkept hcreate => ?_)
  · rw [newAddresses_append]
    simpa [newAddresses, hkept] using h.counter
  · rcases creates_concat_iff.mp hcreates with ⟨-, -, hnone⟩ | ⟨hcreates, hne⟩
    · rw [hkept] at hnone
      cases hnone
    · exact hothers hcreates hne pool
  · obtain ⟨n, ⟨hids, hlength⟩, hn⟩ := createPool_numbers ext general job l pool l₁ hcreate
    rw [List.length_range'] at hlength
    subst hlength
    refine ⟨?_, fun before other hcreates => ?_⟩
    · rw [newAddresses_append, newAddresses_cons_of_none hkept, ← h.counter]
      exact hn
    · rcases creates_concat_iff.mp hcreates with ⟨rfl, rfl, -⟩ | ⟨hcreates, hne⟩
      · refine ⟨pool, Function.update_self .., ?_⟩
        rw [hids, numbersOf, h.counter]
      · exact hothers hcreates hne pool

theorem fromConfig_numbered (h : fromConfig ext olds config .start = .ok () l) :
    Numbered ext olds config.jobs l := by
  refine fromConfig_rule h ⟨rfl, ?_⟩ fun _ job _ hnumbered => installUser_numbered config.general job hnumbered
  rintro before job ⟨after, hnil, -⟩
  simp at hnil

/-- A pool that is there afterwards was taken over from its pair, or has the numbers of its turn. -/
theorem kept_or_numbered (h : fromConfig ext olds config .start = .ok () l)
    {id : PoolIdentifier} (hpool : l.newPools id = some pool) :
    (∃ job, lastJob config.jobs id = some job ∧ keptPool ext job olds = some pool ∧ olds id = some pool) ∨
      ∃ before job, Creates ext olds config.jobs before job ∧ job.identifier = id ∧
        pool.ids = numbersOf ext olds before job := by
  obtain ⟨job, hjob, hkept | ⟨hkept, -⟩⟩ := (fromConfig_progress h).of_some hpool
  · obtain ⟨hold, -⟩ := keptPool_eq_some_iff.mp hkept
    rw [(mem_of_lastJob hjob).2] at hold
    exact .inl ⟨job, hjob, hkept, hold⟩
  · obtain ⟨before, hcreates⟩ := exists_creates hjob hkept
    obtain ⟨pool', hpool', hids⟩ := (fromConfig_numbered h).ids before job hcreates
    rw [(mem_of_lastJob hjob).2, hpool] at hpool'
    cases hpool'
    exact .inr ⟨before, job, hcreates, (mem_of_lastJob hjob).2, hids⟩

/-- A call keeps the numbers unique exactly if those it gives are clear of those it takes over. -/
theorem unique_iff_clear (h : fromConfig ext olds config .start = .ok () l)
    (hunique : UniqueIds olds) : UniqueIds l.newPools ↔ Clear ext olds config.jobs := by
  constructor
  · intro hafter before job hcreates id other old hlast hkept
    obtain ⟨pool, hpool, hids⟩ := (fromConfig_numbered h).ids before job hcreates
    obtain ⟨pool', hpool', hplaced⟩ := (fromConfig_progress h).placed id other hlast
    have hid : id ≠ job.identifier := by
      rintro rfl
      rw [hcreates.lastJob] at hlast
      cases hlast
      obtain ⟨-, -, hnone, -⟩ := hcreates
      rw [hkept] at hnone
      cases hnone
    rcases hplaced with hsame | ⟨hnone, -⟩
    · rw [hkept] at hsame
      cases hsame
      rw [← hids]
      exact hafter.across id job.identifier old pool hid hpool' hpool
    · rw [hkept] at hnone
      cases hnone
  · intro hclear
    constructor
    · intro id pool hpool
      rcases kept_or_numbered h hpool with ⟨-, -, -, hold⟩ | ⟨before, job, -, -, hids⟩
      · exact hunique.within id pool hold
      · rw [hids]
        exact List.nodup_range'
    · intro id id' pool pool' hne hpool hpool'
      -- Two pools that were taken over were there before, and two that were created have one counter.
      rcases kept_or_numbered h hpool with ⟨other, hlast, hkept, hold⟩ | ⟨before, job, hcreates, rfl, hids⟩
      · rcases kept_or_numbered h hpool' with ⟨-, -, -, hold'⟩ | ⟨before, job, hcreates, -, hids⟩
        · exact hunique.across id id' pool pool' hne hold hold'
        · rw [hids]
          exact hclear before job hcreates id other pool hlast hkept
      · rw [hids]
        rcases kept_or_numbered h hpool' with ⟨other, hlast, hkept, -⟩ | ⟨before', job', hcreates', rfl, hids'⟩
        · exact (hclear before job hcreates id' other pool' hlast hkept).symm
        · rw [hids']
          exact hcreates.disjoint hcreates' hne

/-- It is enough that no number that is taken over is below the servers and mirrors of the pools created anew. -/
theorem clear_of_above (habove : ∀ id other old, lastJob jobs id = some other → keptPool ext other olds = some old →
    ∀ i ∈ old.ids, newAddresses ext olds jobs ≤ i) : Clear ext olds jobs := by
  intro before job hcreates id other old hlast hkept i hi hi'
  exact absurd (hcreates.below hi') (Nat.not_lt.mpr (habove id other old hlast hkept i hi))

end Call

/-! ## Runs -/

section Runs

variable (ext : Externals)

/-- Reloads one after the other, each of which may fail. -/
def reloadAll (files : List (Except FileError Config)) (g : Global) : Global :=
  files.foldl (fun g file => final (reloadConfig ext file) g) g

/-- If the configuration is accepted, its pool sections differ and those that are built anew can be built, then
their numbers are clear of those of the pools that stay. -/
def ClearReload (g : Global) (file : Except FileError Config) : Prop :=
  ∀ config, parsed ext g.config.path file = .ok config → ¬ HashMap.Same g.config.pools config.pools →
    (∀ job ∈ config.jobs, keptPool ext job g.pools = none → Buildable ext config.general job) →
      Clear ext g.pools config.jobs

variable {ext}

/-- A reload leaves the pools alone, or installs those of the new configuration. -/
theorem reload_pools (file : Except FileError Config) (g : Global) :
    ((final (reloadConfig ext file) g).pools = g.pools ∧
      ∀ config l, parsed ext g.config.path file = .ok config → ¬ HashMap.Same g.config.pools config.pools →
        fromConfig ext g.pools config .start ≠ .ok () l) ∨
      ∃ config l, parsed ext g.config.path file = .ok config ∧ ¬ HashMap.Same g.config.pools config.pools ∧
        fromConfig ext g.pools config .start = .ok () l ∧ (final (reloadConfig ext file) g).pools = l.newPools := by
  cases hparsed : parsed ext g.config.path file with
  | error err =>
    -- Nothing is stored before the file is known to be good.
    refine .inl ⟨?_, fun config l h => by cases h⟩
    have hparse : parse ext g.config.path file g = .error (.badConfig err) g := by
      unfold parse
      rw [hparsed]
      rfl
    have hreload : reloadConfig ext file g = .error (.badConfig err) g := by
      change (parse ext g.config.path file >>= _) g = _
      exact bind_of_error hparse
    rw [final, hreload]
  | ok config =>
    rw [final, reloadConfig_of_parsed hparsed]
    by_cases hsame : HashMap.Same g.config.pools config.pools
    · -- The rest of the configuration may differ; the pools are not looked at.
      refine .inl ⟨?_, fun config' l h hdiffers => ?_⟩
      · rw [if_neg (not_not.mpr hsame)]
        by_cases hequal : g.config.Same config
        · rw [if_neg (not_not.mpr hequal)]
          rfl
        · rw [if_pos hequal]
          rfl
      · cases h
        exact absurd hsame hdiffers
    · rw [if_pos hsame]
      simp only [bind, EStateM.bind, installPools]
      cases hrun : fromConfig ext g.pools config .start with
      | error panic l =>
        -- The new pools are a local variable that is lost.
        refine .inl ⟨rfl, fun config' l h _ => ?_⟩
        cases h
        rw [hrun]
        exact fun h => by cases h
      | ok _ l => exact .inr ⟨config, l, rfl, hsame, hrun, rfl⟩

theorem parsed_installs_iff {g : Global} {file : Except FileError Config} {config : Config}
    (h : parsed ext g.config.path file = .ok config) :
    (∃ l, fromConfig ext g.pools config .start = .ok () l) ↔
      ∀ job ∈ config.jobs, keptPool ext job g.pools = none → Buildable ext config.general job := by
  cases file with
  | error err => cases h
  | ok file =>
    rw [← fromConfig_completes (accepted_of_parsed h) g.pools .start]
    exact ⟨fun ⟨l, hl⟩ => ⟨(), l, hl⟩, fun ⟨_, l, hl⟩ => ⟨l, hl⟩⟩

theorem reload_unique_iff {g : Global} (hunique : UniqueIds g.pools) (file : Except FileError Config) :
    UniqueIds (final (reloadConfig ext file) g).pools ↔ ClearReload ext g file := by
  rcases @reload_pools ext file g with ⟨hpools, hnone⟩ | ⟨config, l, hparsed, hdiffers, hrun, hpools⟩
  · rw [hpools]
    refine iff_of_true hunique fun config hparsed hdiffers hbuildable => ?_
    obtain ⟨l, hrun⟩ := (parsed_installs_iff hparsed).mpr hbuildable
    exact absurd hrun (hnone config l hparsed hdiffers)
  · rw [hpools, unique_iff_clear hrun hunique]
    constructor
    · intro hclear config' hparsed' _ _
      rw [hparsed] at hparsed'
      cases hparsed'
      exact hclear
    · exact fun h => h config hparsed hdiffers ((parsed_installs_iff hparsed).mp ⟨l, hrun⟩)

theorem start_unique {path : String} {file : Except FileError Config} {g : Global}
    (h : start ext path file .start = .ok () g) : UniqueIds g.pools := by
  obtain ⟨_, g₁, hparse, hinstall⟩ := bind_eq_ok h
  obtain ⟨config, -, rfl⟩ := parse_eq_ok hparse
  unfold installPools at hinstall
  split at hinstall
  · rename_i l hrun
    cases hinstall
    refine (unique_iff_clear hrun ⟨fun _ _ hp => (nomatch hp), fun _ _ _ _ _ hp => (nomatch hp)⟩).mpr ?_
    intro before job _ id other old _ hkept
    cases hkept
  · cases hinstall

theorem reloadAll_unique_iff (files : List (Except FileError Config)) : ∀ {g : Global}, UniqueIds g.pools →
    ((∀ done, done <+: files → UniqueIds (reloadAll ext done g).pools) ↔
      ∀ done file, done ++ [file] <+: files → ClearReload ext (reloadAll ext done g) file) := by
  induction files with
  | nil =>
    intro g hunique
    refine iff_of_true (fun done hdone => ?_) (fun done file hdone => ?_)
    · rw [List.prefix_nil.mp hdone]
      exact hunique
    · exact absurd (List.prefix_nil.mp hdone) (by simp)
  | cons file files ih =>
    intro g hunique
    constructor
    · -- The pools were unique before the last of these reloads and are so after it.
      intro hall done file' hdone
      have hbefore := hall done ((List.prefix_append done [file']).trans hdone)
      have hafter := hall (done ++ [file']) hdone
      rw [reloadAll, List.foldl_append] at hafter
      exact (reload_unique_iff hbefore file').mp hafter
    · intro hall done hdone
      rcases List.prefix_cons_iff.mp hdone with rfl | ⟨done', rfl, hdone'⟩
      · exact hunique
      · have hfirst := (reload_unique_iff hunique file).mpr (hall [] file ⟨files, rfl⟩)
        refine (ih hfirst).mpr (fun done file' hdone => ?_) done' hdone'
        exact hall (file :: done) file' (List.cons_prefix_cons.mpr ⟨rfl, hdone⟩)

/-- After the start and after each reload the numbers are unique, exactly if every reload that installs pools
counts the servers and mirrors of those it creates clear of the numbers of those it takes over. -/
theorem ids_unique_iff {path : String} {first : Except FileError Config} {g : Global}
    (hstart : start ext path first .start = .ok () g) (files : List (Except FileError Config)) :
    (∀ done, done <+: files → UniqueIds (reloadAll ext done g).pools) ↔
      ∀ done file, done ++ [file] <+: files → ClearReload ext (reloadAll ext done g) file :=
  reloadAll_unique_iff files (start_unique hstart)

end Runs

namespace Sample

/-- Two databases with one server each, and the pool mode of either. -/
def twoPools (first second : PgCat.Config.PoolMode) : Config :=
  { Config.default with
    pools := (config { pool (only "0" shard) with poolMode := second }).pools.insert "first_db"
      { pool (only "0" shard) with poolMode := first }
    path := "pgcat.toml" }

def twoStarted : Global :=
  final (Install.start ext "pgcat.toml" (.ok (twoPools .transaction .transaction))) .start

theorem twoStarted_eq :
    Install.start ext "pgcat.toml" (.ok (twoPools .transaction .transaction)) .start = .ok () twoStarted := by
  have hreturned : returned (Install.start ext "pgcat.toml" (.ok (twoPools .transaction .transaction))) .start =
      true := by decide +kernel
  obtain ⟨_, hrun⟩ := ok_of_returned hreturned
  exact hrun

/-- The second section changes: its server gets the number that the first one has. -/
theorem second_pool_collides :
    Install.start ext "pgcat.toml" (.ok (twoPools .transaction .transaction)) .start = .ok () twoStarted ∧
      ¬ UniqueIds (reloadAll ext [.ok (twoPools .transaction .session)] twoStarted).pools := by
  refine ⟨twoStarted_eq, fun hunique => ?_⟩
  have hids : ∀ db ∈ ["first_db", "sharded_db"],
      ((reloadAll ext [.ok (twoPools .transaction .session)] twoStarted).pools ⟨db, "sharding_user"⟩).map
        ConnectionPool.ids = some [0] := by decide +kernel
  obtain ⟨pool, hpool, hpools⟩ := Option.map_eq_some_iff.mp (hids "first_db" (by simp))
  obtain ⟨pool', hpool', hpools'⟩ := Option.map_eq_some_iff.mp (hids "sharded_db" (by simp))
  have hdisjoint := hunique.across _ _ pool pool' (by decide) hpool hpool'
  rw [hpools, hpools'] at hdisjoint
  exact hdisjoint List.mem_cons_self List.mem_cons_self

/-- The first section changes: the number of the second is above the one that is given. -/
theorem first_clear : ClearReload ext twoStarted (.ok (twoPools .session .transaction)) := by
  intro config hparsed _ _
  have hpath : twoStarted.config.path = "pgcat.toml" := by decide +kernel
  have hconfig : parsed ext "pgcat.toml" (.ok (twoPools .session .transaction)) =
      .ok (twoPools .session .transaction) := rfl
  rw [hpath, hconfig] at hparsed
  cases hparsed
  have habove : ((twoPools .session .transaction).jobs.all fun job =>
      (keptPool ext job twoStarted.pools).all fun pool => pool.ids.all fun i => decide (1 ≤ i)) = true := by
    decide +kernel
  have hcount : newAddresses ext twoStarted.pools (twoPools .session .transaction).jobs = 1 := by
    decide +kernel
  refine clear_of_above fun id other old hlast hkept i hi => ?_
  have hlow := List.all_eq_true.mp habove other (mem_of_lastJob hlast).1
  rw [hkept] at hlow
  rw [hcount]
  exact of_decide_eq_true (List.all_eq_true.mp hlow i hi)

theorem first_pool_replaced :
    Install.start ext "pgcat.toml" (.ok (twoPools .transaction .transaction)) .start = .ok () twoStarted ∧
      UniqueIds (reloadAll ext [.ok (twoPools .session .transaction)] twoStarted).pools := by
  refine ⟨twoStarted_eq, (ids_unique_iff twoStarted_eq [.ok (twoPools .session .transaction)]).mpr
    (fun done file hdone => ?_) _ (List.prefix_refl _)⟩
  obtain ⟨rfl, rfl⟩ : done = [] ∧ file = .ok (twoPools .session .transaction) := by
    cases done with
    | nil => exact ⟨rfl, by simpa using hdone⟩
    | cons other done => simpa using hdone.length_le
  rw [reloadAll, List.foldl_nil]
  exact first_clear

end Sample

end PgCat.Install
