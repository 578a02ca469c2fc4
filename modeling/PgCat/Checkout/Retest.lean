import PgCat.Checkout.Entries
import PgCat.Checkout.Get

/-!
# Retest — the health check of an address that was banned

A candidate that is banned when its turn comes is let through only after a health check.  But when all
replicas of the shard are banned, `try_unban` empties the ban list at once, for the later candidates as
well as for the one at hand, while the check is forced for the one at hand only.  So an address that was
banned when the checkout began is handed out unchecked exactly if an earlier candidate emptied the list
and its own connection was used not long ago.
-/

namespace PgCat.Checkout

open Lib
open Config (Role)
open Install (Address ConnectionPool)

/-! ## What is asked for -/

/-- If the address that is handed out was banned at the start, then a health check was due at its turn, with what
the visits before it had left of the ban list, and passed. -/
def Retested (pool : ConnectionPool) (env : Environment) (s : Nat) (role : Option Role) (bans : BanList) : Prop :=
  ∀ a, (get pool env s role bans).result = .ok a → isBanned a bans = some true →
    ∃ before after found elapsed, order pool env s role = some (before ++ a :: after) ∧
      bansLeft pool env.turns 0 before bans = some found ∧
      (env.turns before.length).attempt = .connected elapsed true ∧ CheckRequired pool found a elapsed

def Empties (pool : ConnectionPool) (u : Address) (bans : BanList) : Prop :=
  isBanned u bans = some true ∧ u.role ≠ .primary ∧ ∃ row shard, pool.addresses[u.shard]? = some row ∧
    bans[u.shard]? = some shard ∧ shard.keys.length = (replicas row).length

/-- One of the candidates `before`, visited from turn `i` on, empties the list that `a` is on. -/
def Freed (pool : ConnectionPool) (turns : Nat → Turn) (i : Nat) (before : List Address) (bans : BanList)
    (a : Address) : Prop :=
  ∃ earlier u later found, before = earlier ++ u :: later ∧ u.shard = a.shard ∧
    bansLeft pool turns i earlier bans = some found ∧ Empties pool u found

/-- The connection has not been used for longer than the delay between health checks. -/
def Turn.Rested (pool : ConnectionPool) (turn : Turn) : Prop :=
  ∃ ms healthy, turn.attempt = .connected (some ms) healthy ∧ ms > pool.settings.healthcheckDelay

/-- If a candidate before it empties the list, the address that is handed out has rested. -/
def RestedIfFreed (pool : ConnectionPool) (env : Environment) (s : Nat) (role : Option Role) (bans : BanList) :
    Prop :=
  ∀ before a after, order pool env s role = some (before ++ a :: after) →
    (get pool env s role bans).result = .ok a → isBanned a bans = some true →
      Freed pool env.turns 0 before bans a → (env.turns before.length).Rested pool

/-! ## One turn -/

section Turns

variable {pool : ConnectionPool} {turn : Turn} {a u : Address} {bans bans' : BanList} {outcome : Outcome}

theorem tryUnban_entry {now : Int} {ok : Bool} (hbanned : isBanned u bans = some true)
    (h : tryUnban pool u now bans = some (bans', ok)) (hne : a ≠ u) :
    (u.shard = a.shard ∧ Empties pool u bans → entry a bans' = none) ∧
      (¬(u.shard = a.shard ∧ Empties pool u bans) → entry a bans' = entry a bans) := by
  unfold tryUnban at h
  split at h
  · rename_i hprimary
    cases h
    exact ⟨fun hclear => absurd hprimary hclear.2.2.1, fun _ => rfl⟩
  · rename_i hprimary
    simp only [Option.bind_eq_bind, Option.bind_eq_some_iff] at h
    obtain ⟨row, hrow, shard, hshard, hrest⟩ := h
    have hlt := (List.getElem?_eq_some_iff.mp hshard).1
    split at hrest
    · rename_i hcount
      cases hrest
      -- All replicas are banned: the whole list of the shard is replaced.
      have hempties : Empties pool u bans := ⟨hbanned, hprimary, row, shard, hrow, hshard, hcount⟩
      refine ⟨fun hclear => ?_, fun hnot => ?_⟩
      · rw [hclear.1, entry_set_self (hclear.1 ▸ hlt), AList.lookup_empty]
      · exact entryAt_set hshard fun hs => absurd ⟨hs, hempties⟩ hnot
    · rename_i hcount
      refine ⟨fun hclear => ?_, fun _ => ?_⟩
      · obtain ⟨-, -, -, row', shard', hrow', hshard', hcount'⟩ := hclear
        rw [hrow] at hrow'
        rw [hshard] at hshard'
        cases hrow'
        cases hshard'
        exact absurd hcount' hcount
      · split at hrest
        · cases hrest
          rfl
        · split at hrest
          · cases hrest
            exact entryAt_set hshard fun _ => AList.lookup_erase_ne hne
          · cases hrest
            rfl

theorem connect_entry {forced : Bool} (h : connect pool turn u forced bans = some (outcome, bans'))
    (hne : a ≠ u) : entry a bans' = entry a bans := by
  rcases (connect_spec h).1 with rfl | ⟨reason, hban⟩
  · rfl
  · exact (ban_eq_some hban).1.entry hne

theorem examine_entry (h : examine pool turn u bans = some (outcome, bans')) (hne : a ≠ u) :
    (u.shard = a.shard ∧ Empties pool u bans → entry a bans' = none) ∧
      (¬(u.shard = a.shard ∧ Empties pool u bans) → entry a bans' = entry a bans) := by
  obtain ⟨banned, hbanned, hrest⟩ := Option.bind_eq_some_iff.mp h
  cases banned with
  | false =>
    refine ⟨fun hclear => ?_, fun _ => connect_entry hrest hne⟩
    rw [hclear.2.1] at hbanned
    cases hbanned
  | true =>
    obtain ⟨⟨bans₁, ok⟩, htry, hrest⟩ := Option.bind_eq_some_iff.mp hrest
    have hsame : entry a bans' = entry a bans₁ := by
      cases ok with
      | false =>
        cases hrest
        rfl
      | true => exact connect_entry hrest hne
    rw [hsame]
    exact tryUnban_entry hbanned htry hne

/-- A turn that hands out a connection: what is due has passed. -/
theorem examine_used (h : examine pool turn u bans = some (.used, bans')) :
    ∃ elapsed healthy, turn.attempt = .connected elapsed healthy ∧
      (CheckRequired pool bans u elapsed → healthy = true) := by
  have hconnect : ∃ forced bans₁, connect pool turn u forced bans₁ = some (.used, bans') ∧
      (forced = true ↔ isBanned u bans = some true) := by
    obtain ⟨banned, hbanned, hrest⟩ := Option.bind_eq_some_iff.mp h
    cases banned with
    | false => exact ⟨false, bans, hrest, by simp [hbanned]⟩
    | true =>
      obtain ⟨⟨bans₁, ok⟩, -, hrest⟩ := Option.bind_eq_some_iff.mp hrest
      cases ok with
      | false => cases hrest
      | true => exact ⟨true, bans₁, hrest, by simp [hbanned]⟩
  obtain ⟨forced, bans₁, hrun, hforced⟩ := hconnect
  rcases (connect_spec hrun).2 with
    ⟨hfailed, -⟩ | ⟨elapsed, healthy, required, hattempt, hrequired, ⟨hunhealthy, -⟩ | ⟨-, hpasses⟩⟩
  · cases hfailed
  · cases hunhealthy
  · refine ⟨elapsed, healthy, hattempt, fun hdue => hpasses ?_⟩
    rwa [requireHealthcheck_eq hrequired, hforced]

end Turns

/-! ## The loop -/

section Loop

variable {pool : ConnectionPool} {turns : Nat → Turn}

theorem freed_cons {b a : Address} {before : List Address} {i : Nat} {bans bans' : BanList} {outcome : Outcome}
    (hstep : examine pool (turns i) b bans = some (outcome, bans')) :
    Freed pool turns i (b :: before) bans a ↔
      (b.shard = a.shard ∧ Empties pool b bans) ∨ Freed pool turns (i + 1) before bans' a := by
  have hleft : ∀ earlier, bansLeft pool turns i (b :: earlier) bans = bansLeft pool turns (i + 1) earlier bans' := by
    intro earlier
    rw [bansLeft, hstep]
    rfl
  constructor
  · rintro ⟨earlier, u, later, found, hbefore, hshard, hfound, hempties⟩
    cases earlier with
    | nil =>
      cases hbefore
      cases hfound
      exact .inl ⟨hshard, hempties⟩
    | cons c earlier =>
      obtain ⟨rfl, hrest⟩ := List.cons.inj hbefore
      rw [hleft] at hfound
      exact .inr ⟨earlier, u, later, found, hrest, hshard, hfound, hempties⟩
  · rintro (⟨hshard, hempties⟩ | ⟨earlier, u, later, found, rfl, hshard, hfound, hempties⟩)
    · exact ⟨[], b, before, bans, rfl, hshard, rfl, hempties⟩
    · exact ⟨b :: earlier, u, later, found, rfl, hshard, by rw [hleft]; exact hfound, hempties⟩

/-- What the turn that hands out an address finds: the entry the address had at the start, unless one of the
candidates before it emptied the list. -/
theorem found_at_last : ∀ {l : List Address}, l.Nodup → ∀ {i : Nat} {bans : BanList} {a : Address},
    (tryCandidates pool turns i l bans).result = .ok a →
      ∃ before after found bans', l = before ++ a :: after ∧ bansLeft pool turns i before bans = some found ∧
        examine pool (turns (i + before.length)) a found = some (.used, bans') ∧
        (Freed pool turns i before bans a → entry a found = none) ∧
        (¬Freed pool turns i before bans a → entry a found = entry a bans) := by
  intro l
  induction l with
  | nil =>
    intro _ i bans a h
    cases h
  | cons b rest ih =>
    intro hnodup i bans a h
    rw [List.nodup_cons] at hnodup
    rcases @tryCandidates_cons pool turns b rest i bans with
      hrun | ⟨bans', hstep, hrun⟩ | ⟨outcome, bans', -, hstep, -, hresult⟩
    · rw [hrun] at h
      cases h
    · rw [hrun] at h
      cases h
      refine ⟨[], rest, bans, bans', rfl, rfl, hstep, ?_, fun _ => rfl⟩
      rintro ⟨earlier, u, later, found, hnil, -⟩
      simp at hnil
    · rw [hresult] at h
      obtain ⟨before, after, found, bans'', rfl, hfound, hused, hcleared, hkept⟩ := ih hnodup.2 h
      -- The candidate that is used comes later, so the first turn was not about its entry.
      have hne : a ≠ b := by
        rintro rfl
        exact hnodup.1 (List.mem_append_right _ List.mem_cons_self)
      obtain ⟨hempties, hstays⟩ := examine_entry hstep hne
      refine ⟨b :: before, after, found, bans'', rfl, by rw [bansLeft, hstep]; exact hfound, ?_, ?_, ?_⟩
      · rw [List.length_cons, ← Nat.add_assoc, Nat.add_right_comm]
        exact hused
      · rw [freed_cons hstep]
        intro hfreed
        -- If no later turn emptied the list, the first one did.
        by_cases hlater : Freed pool turns (i + 1) before bans' a
        · exact hcleared hlater
        · rw [hkept hlater]
          exact hempties (hfreed.resolve_right hlater)
      · rw [freed_cons hstep, not_or]
        rintro ⟨hfirst, hlater⟩
        rw [hkept hlater]
        exact hstays hfirst

end Loop

/-! ## A checkout -/

section Checkout

variable {pool : ConnectionPool}

/-- No shard has an address twice. -/
def Distinct (pool : ConnectionPool) : Prop :=
  ∀ row ∈ pool.addresses, row.Nodup

theorem eq_of_append_cons_eq {α : Type} {before after before' after' : List α} {a : α}
    (hnodup : (before ++ a :: after).Nodup) (h : before' ++ a :: after' = before ++ a :: after) : before' = before := by
  have hnotin : a ∉ before ∧ a ∉ after := by
    rw [List.nodup_append, List.nodup_cons] at hnodup
    exact ⟨fun ha => hnodup.2.2 a ha a List.mem_cons_self rfl, hnodup.2.1.1⟩
  exact ((List.append_cons_inj_of_notMem hnotin.1 hnotin.2).mp h.symm).1.symm

/-- The turn that hands out an address is known from the order alone. -/
theorem found_of_get (hpool : Distinct pool) {env : Environment} {s : Nat} {role : Option Role} {bans : BanList}
    {a : Address} (hok : (get pool env s role bans).result = .ok a) :
    ∃ before after found bans', order pool env s role = some (before ++ a :: after) ∧
      (before ++ a :: after).Nodup ∧ bansLeft pool env.turns 0 before bans = some found ∧
      examine pool (env.turns before.length) a found = some (.used, bans') ∧
      (Freed pool env.turns 0 before bans a → entry a found = none) ∧
      (¬Freed pool env.turns 0 before bans a → entry a found = entry a bans) := by
  unfold get at hok
  cases horder : order pool env s role with
  | none =>
    rw [horder] at hok
    cases hok
  | some addresses =>
    rw [horder] at hok
    obtain ⟨row, hrow, hperm, -⟩ := order_spec horder
    have hnodup : addresses.Nodup := hperm.nodup_iff.mpr ((hpool row (List.mem_of_getElem? hrow)).filter _)
    obtain ⟨before, after, found, bans', rfl, hrest⟩ := found_at_last hnodup hok
    rw [Nat.zero_add] at hrest
    exact ⟨before, after, found, bans', rfl, hnodup, hrest⟩

theorem retested_iff_rested (hpool : Distinct pool) (env : Environment) (s : Nat) (role : Option Role)
    (bans : BanList) : Retested pool env s role bans ↔ RestedIfFreed pool env s role bans := by
  constructor
  · intro hretested before a after horder hok hbanned hfreed
    obtain ⟨before₁, after₁, found₁, elapsed, horder₁, hfound₁, hattempt, hdue⟩ := hretested a hok hbanned
    obtain ⟨before₂, after₂, found₂, -, horder₂, hnodup, hfound₂, -, hnone, -⟩ := found_of_get hpool hok
    rw [horder₂] at horder horder₁
    obtain rfl := eq_of_append_cons_eq hnodup (Option.some.inj horder).symm
    obtain rfl := eq_of_append_cons_eq hnodup (Option.some.inj horder₁).symm
    rw [hfound₁] at hfound₂
    cases hfound₂
    rcases hdue with hstill | ⟨ms, rfl, hms⟩
    · rw [isBanned_eq_true, hnone hfreed] at hstill
      cases hstill
    · exact ⟨ms, true, hattempt, hms⟩
  · intro hrested a hok hbanned
    obtain ⟨before, after, found, bans', horder, -, hfound, hexamined, -, hkept⟩ := found_of_get hpool hok
    obtain ⟨elapsed, healthy, hattempt, hpassed⟩ := examine_used hexamined
    have hdue : CheckRequired pool found a elapsed := by
      by_cases hfreed : Freed pool env.turns 0 before bans a
      · obtain ⟨ms, healthy', hattempt', hms⟩ := hrested before a after horder hok hbanned hfreed
        rw [hattempt] at hattempt'
        cases hattempt'
        exact .inr ⟨ms, rfl, hms⟩
      · refine .inl (isBanned_eq_true.mpr ?_)
        rw [hkept hfreed]
        exact isBanned_eq_true.mp hbanned
    exact ⟨before, after, found, elapsed, horder, hfound, by rw [hattempt, hpassed hdue], hdue⟩

section Installed

open Install

variable {ext : Externals} {general : General} {job : Job}

theorem distinct_of_built (h : BuiltFor ext general job pool) : Distinct pool := by
  obtain ⟨shardIds, rows, hbuilt⟩ := h
  intro row hrow
  rw [hbuilt.addresses] at hrow
  obtain ⟨entries, hentries, rfl⟩ := List.mem_map.mp hrow
  obtain ⟨k, -, shard, -, hservers⟩ := exists_of_mem_right hbuilt.installed hentries
  have hindices : List.Forall₂ (· = ·) ((entries.map Prod.snd).map Address.addressIndex)
      (shard.servers.zipIdx.map Prod.snd) := by
    rw [List.map_map, List.forall₂_map_left_iff, List.forall₂_map_right_iff]
    exact hservers.flip.imp fun _ _ hserver => hserver.address.index
  rw [List.forall₂_eq_eq_eq] at hindices
  apply List.Nodup.of_map Address.addressIndex
  rw [hindices, List.zipIdx_map_snd]
  exact List.nodup_range'

/-- On any pool that `from_config` creates, with any ban list and whatever the environment does: the address
that is handed out was checked if it was banned, exactly if it has rested in case an earlier candidate
emptied the list. -/
theorem banned_retested_iff {l l' : Locals} (hpool : createPool ext general job l = .ok pool l')
    (env : Environment) (s : Nat) (role : Option Role) (bans : BanList) :
    Retested pool env s role bans ↔ RestedIfFreed pool env s role bans :=
  retested_iff_rested (distinct_of_built (createPool_built hpool)) env s role bans

end Installed

end Checkout

namespace Sample

open Install

def allBanned (pool : ConnectionPool) : BanList :=
  pool.addresses.map fun row => (replicas row).foldl (fun shard a => shard.insert a ⟨.failedCheckout, 0⟩) ∅

/-- The first candidate cannot be reached; the second was just used, and would not pass a check. -/
def firstFails : Environment :=
  { unreachable with turns := fun i => ⟨if i = 0 then .failed else .connected (some 0) false, 0, 0⟩ }

/-- The first candidate cannot be reached; the others have rested for a day, and would pass a check. -/
def othersRested : Environment :=
  { unreachable with turns := fun i => ⟨if i = 0 then .failed else .connected (some 86400000) true, 0, 0⟩ }

theorem freed_replica_unchecked :
    (∃ l', createPool Install.Sample.ext general job .start = .ok threePool l') ∧
      ¬Retested threePool firstFails 0 (some .replica) (allBanned threePool) := by
  obtain ⟨a, hok, hbanned⟩ : ∃ a, (get threePool firstFails 0 (some .replica) (allBanned threePool)).result = .ok a ∧
      isBanned a (allBanned threePool) = some true := ⟨_, rfl, by decide +kernel⟩
  refine ⟨threePool_created, fun hretested => ?_⟩
  obtain ⟨before, -, -, elapsed, -, -, hattempt, -⟩ := hretested a hok hbanned
  -- No turn of this environment passes a check.
  simp only [firstFails] at hattempt
  split at hattempt <;> cases hattempt

theorem rested_replica_checked :
    (∃ l', createPool Install.Sample.ext general job .start = .ok threePool l') ∧
      (∃ a, (get threePool othersRested 0 (some .replica) (allBanned threePool)).result = .ok a) ∧
        Retested threePool othersRested 0 (some .replica) (allBanned threePool) := by
  obtain ⟨l', hpool⟩ := threePool_created
  refine ⟨⟨l', hpool⟩, ⟨_, rfl⟩,
    (banned_retested_iff hpool othersRested 0 (some .replica) (allBanned threePool)).mpr ?_⟩
  -- Whatever was freed comes after the first candidate.
  rintro before a after - - - ⟨earlier, u, later, -, rfl, -⟩
  have hlater : (earlier ++ u :: later).length ≠ 0 := by simp
  exact ⟨86400000, true, if_neg hlater, by decide⟩

end Sample

end PgCat.Checkout
