import Mathlib.Data.List.ReduceOption
import PgCat.Checkout.Retest

/-!
# Hosts — `BAN`, `UNBAN` and `SHOW BANS`

The two commands of the admin database that go through the addresses of a host, in every pool.  Both are
sweeps: an address is looked up, acted on if it is not banned (or if it is), and reported in a row.

* `sweep_reported`: what is reported is what was found in the state the command looks for;
* `sweep_settled`: it is left in the other state, if the operation does that at all;
* `sweep_frame`: nothing else is touched.

`ban` does nothing to a primary, and the row is there all the same.  `unban` always works, so that `UNBAN` is
exact and takes back what `BAN` did.

`SHOW BANS` computes what is left of a ban, where `try_unban` compares how much has passed; the two
differ in the last second.
-/

namespace PgCat.Admin

open Lib
open Config (Role)
open Install (Address ConnectionPool PoolIdentifier)
open Checkout (Ban BanList BanReason ban unban isBanned addressesFromHost entry entryAt Local)

/-! ## Sweeps -/

/-- Go through the addresses, act on those whose state is `state`, and report them. -/
def sweep (state : Bool) (op : Nat → Address → BanList → Option BanList) :
    Nat → List Address → BanList → Option (BanList × List Address)
  | _, [], bans => some (bans, [])
  | i, a :: rest, bans => do
    if (← isBanned a bans) = state then do
      let bans ← op i a bans
      let (bans, reported) ← sweep state op (i + 1) rest bans
      pure (bans, a :: reported)
    else sweep state op (i + 1) rest bans

section Sweep

variable {state : Bool} {op : Nat → Address → BanList → Option BanList}

theorem sweep_cons {i : Nat} {a : Address} {rest : List Address} {bans bans' : BanList}
    {reported : List Address} (h : sweep state op i (a :: rest) bans = some (bans', reported)) :
    (isBanned a bans = some state ∧ ∃ bans₁ reported', op i a bans = some bans₁ ∧
        sweep state op (i + 1) rest bans₁ = some (bans', reported') ∧ reported = a :: reported') ∨
      (isBanned a bans = some (!state) ∧ sweep state op (i + 1) rest bans = some (bans', reported)) := by
  simp only [sweep, Option.bind_eq_bind, Option.bind_eq_some_iff] at h
  obtain ⟨banned, hbanned, h⟩ := h
  split at h
  · rename_i hstate
    simp only [Option.bind_eq_some_iff] at h
    obtain ⟨bans₁, hop, ⟨bans₂, reported'⟩, hrest, hpure⟩ := h
    cases hpure
    exact .inl ⟨hstate ▸ hbanned, bans₁, reported', hop, hrest, rfl⟩
  · rename_i hstate
    exact .inr ⟨by rw [hbanned]; revert hstate; cases banned <;> cases state <;> simp, h⟩

theorem sweep_keeps {I : BanList → Prop} : ∀ {l : List Address} {i : Nat} {bans bans' : BanList}
    {reported : List Address}, sweep state op i l bans = some (bans', reported) →
      (∀ i, ∀ b ∈ l, ∀ bans bans', I bans → isBanned b bans = some state → op i b bans = some bans' → I bans') →
        I bans → I bans' := by
  intro l
  induction l with
  | nil =>
    intro i bans bans' reported h _ hI
    cases h
    exact hI
  | cons b rest ih =>
    intro i bans bans' reported h hstep hI
    have hrest := fun i c hc => hstep i c (List.mem_cons_of_mem b hc)
    rcases sweep_cons h with ⟨hfound, bans₁, reported', hop, hsweep, -⟩ | ⟨-, hsweep⟩
    · exact ih hsweep hrest (hstep i b List.mem_cons_self bans bans₁ hI hfound hop)
    · exact ih hsweep hrest hI

variable (hlocal : ∀ i a bans bans', op i a bans = some bans' → Local a bans bans')

include hlocal

section Run

variable {l : List Address} {i : Nat} {bans bans' : BanList} {reported : List Address}
  (h : sweep state op i l bans = some (bans', reported))

include h

theorem sweep_frame : bans'.length = bans.length ∧
    ∀ s a, ¬(s = a.shard ∧ a ∈ l) → entryAt s a bans' = entryAt s a bans := by
  refine sweep_keeps (I := fun new => new.length = bans.length ∧
    ∀ s a, ¬(s = a.shard ∧ a ∈ l) → entryAt s a new = entryAt s a bans) h ?_ ⟨rfl, fun _ _ _ => rfl⟩
  rintro i b hb new new' ⟨hlength, hframe⟩ - hop
  have hstep := hlocal i b new new' hop
  refine ⟨hstep.shards.trans hlength, fun s a hnot => ?_⟩
  rw [hstep.others s a fun hsame => hnot ⟨by rw [hsame.1, hsame.2], hsame.2 ▸ hb⟩, hframe s a hnot]

theorem sweep_other (a : Address) (hother : isBanned a bans = some (!state)) :
    isBanned a bans' = some (!state) ∧ entry a bans' = entry a bans := by
  refine sweep_keeps (I := fun new => isBanned a new = some (!state) ∧ entry a new = entry a bans) h ?_
    ⟨hother, rfl⟩
  rintro i b - new new' ⟨hstate, hentry⟩ hfound hop
  have hne : a ≠ b := by
    rintro rfl
    rw [hfound] at hstate
    cases state <;> cases hstate
  have hstep := hlocal i b new new' hop
  rw [hstep.isBanned hne, hstep.entry hne]
  exact ⟨hstate, hentry⟩

theorem sweep_ignored {a : Address}
    (hop : ∀ i bans bans', op i a bans = some bans' → entry a bans' = entry a bans) :
    entry a bans' = entry a bans := by
  refine sweep_keeps (I := fun new => entry a new = entry a bans) h ?_ rfl
  intro i b _ new new' hentry _ hrun
  by_cases hab : a = b
  · subst hab
    rw [hop i new new' hrun, hentry]
  · rw [(hlocal i b new new' hrun).entry hab, hentry]

end Run

theorem sweep_reported : ∀ {l : List Address} {i : Nat} {bans bans' : BanList} {reported : List Address},
    sweep state op i l bans = some (bans', reported) →
      ∀ a, a ∈ reported ↔ a ∈ l ∧ isBanned a bans = some state := by
  intro l
  induction l with
  | nil =>
    intro i bans bans' reported h a
    cases h
    simp
  | cons b rest ih =>
    intro i bans bans' reported h a
    rcases sweep_cons h with ⟨hfound, bans₁, reported', hop, hrest, rfl⟩ | ⟨hother, hrest⟩
    · by_cases hab : a = b
      · subst hab
        simp [hfound]
      · rw [List.mem_cons, List.mem_cons, ih hrest a, (hlocal i b bans bans₁ hop).isBanned hab]
        simp [hab]
    · rw [ih hrest a, List.mem_cons]
      constructor
      · exact fun h => ⟨.inr h.1, h.2⟩
      · rintro ⟨rfl | hin, hstate⟩
        · rw [hother] at hstate
          cases state <;> cases hstate
        · exact ⟨hin, hstate⟩

/-- An address the operation moves to the other state ends there. -/
theorem sweep_settled {a : Address} :
    ∀ {l : List Address} {i : Nat} {bans bans' : BanList} {reported : List Address},
      sweep state op i l bans = some (bans', reported) →
        (∀ i bans bans', op i a bans = some bans' → isBanned a bans' = some (!state)) → a ∈ l →
          isBanned a bans' = some (!state) := by
  intro l
  induction l with
  | nil =>
    intro i bans bans' reported _ _ hin
    cases hin
  | cons b rest ih =>
    intro i bans bans' reported h hop hin
    -- Once there, it stays: the rest of the sweep looks for the other state.
    rcases sweep_cons h with ⟨-, bans₁, reported', hrun, hrest, -⟩ | ⟨hother, hrest⟩
    · rcases List.mem_cons.mp hin with rfl | hin
      · exact (sweep_other hlocal hrest a (hop i bans bans₁ hrun)).1
      · exact ih hrest hop hin
    · rcases List.mem_cons.mp hin with rfl | hin
      · exact (sweep_other hlocal hrest a hother).1
      · exact ih hrest hop hin

theorem sweep_nodup : ∀ {l : List Address} {i : Nat} {bans bans' : BanList} {reported : List Address},
    sweep state op i l bans = some (bans', reported) →
      (∀ a ∈ l, isBanned a bans = some state →
        ∀ i bans bans', op i a bans = some bans' → isBanned a bans' = some (!state)) → reported.Nodup := by
  intro l
  induction l with
  | nil =>
    intro i bans bans' reported h _
    cases h
    exact List.nodup_nil
  | cons b rest ih =>
    intro i bans bans' reported h hmoves
    rcases sweep_cons h with ⟨hfound, bans₁, reported', hrun, hrest, rfl⟩ | ⟨-, hrest⟩
    · have hmoved := hmoves b List.mem_cons_self hfound i bans bans₁ hrun
      refine List.nodup_cons.mpr ⟨fun hin => ?_, ih hrest fun a ha hstate => ?_⟩
      · have hstate := ((sweep_reported hlocal hrest b).mp hin).2
        rw [hmoved] at hstate
        cases state <;> cases hstate
      · by_cases hab : a = b
        · subst hab
          exact hmoves a List.mem_cons_self hfound
        · rw [(hlocal i b bans bans₁ hrun).isBanned hab] at hstate
          exact hmoves a (List.mem_cons_of_mem b ha) hstate
    · exact ih hrest fun a ha => hmoves a (List.mem_cons_of_mem b ha)

theorem sweep_returns_iff
    (hreturns : ∀ i a bans, a.shard < bans.length → ∃ bans', op i a bans = some bans') :
    ∀ {l : List Address} {i : Nat} {bans : BanList},
      (∃ r, sweep state op i l bans = some r) ↔ ∀ a ∈ l, a.shard < bans.length := by
  intro l
  induction l with
  | nil => simp [sweep]
  | cons b rest ih =>
    intro i bans
    rw [List.forall_mem_cons]
    constructor
    · rintro ⟨⟨bans', reported⟩, h⟩
      rcases sweep_cons h with ⟨hfound, bans₁, reported', hop, hrest, -⟩ | ⟨hother, hrest⟩
      · have hlength := (hlocal i b bans bans₁ hop).shards
        exact ⟨(Checkout.isBanned_eq_some.mp hfound).1, hlength ▸ ih.mp ⟨_, hrest⟩⟩
      · exact ⟨(Checkout.isBanned_eq_some.mp hother).1, ih.mp ⟨_, hrest⟩⟩
    · rintro ⟨hb, hrest⟩
      rw [sweep, Checkout.isBanned_eq_ite, if_pos hb, some_bind]
      split
      · obtain ⟨bans₁, hop⟩ := hreturns i b bans hb
        have hlength := (hlocal i b bans bans₁ hop).shards
        obtain ⟨⟨bans', reported⟩, hsweep⟩ := (@ih (i + 1) bans₁).mpr (hlength.symm ▸ hrest)
        exact ⟨_, by rw [hop, some_bind, hsweep]; rfl⟩
      · exact (@ih (i + 1) bans).mpr hrest

end Sweep

/-! ## The commands -/

structure PoolEntry where
  id : PoolIdentifier
  pool : ConnectionPool
  bans : BanList

def roleText : Role → String
  | .primary => "primary"
  | .replica => "replica"
  | .mirror => "mirror"

def hostRow (id : PoolIdentifier) (a : Address) : List String :=
  [id.db, id.user, roleText a.role, a.host]

/-- The pools afterwards, and the addresses there is a row for. -/
abbrev Swept := List (PoolEntry × List Address)

def rows (swept : Swept) : List (List String) :=
  swept.flatMap fun r => r.2.map (hostRow r.1.id)

def sweepHost (state : Bool) (op : Nat → Address → BanList → Option BanList) (host : String) (e : PoolEntry) :
    Option (PoolEntry × List Address) := do
  let addresses ← addressesFromHost e.pool host
  let (bans, reported) ← sweep state op 0 addresses e.bans
  pure (⟨e.id, e.pool, bans⟩, reported)

/-- The clock is read for each ban. -/
def banHost (duration : Int) (clock : Nat → Int) : String → PoolEntry → Option (PoolEntry × List Address) :=
  sweepHost false fun i a => ban a (.adminBan duration) (clock i)

def unbanHost : String → PoolEntry → Option (PoolEntry × List Address) :=
  sweepHost true fun _ a => unban a

def banCommand (host : String) (duration : Int) (clock : PoolIdentifier → Nat → Int) (pools : List PoolEntry) :
    Option (Except String Swept) :=
  if duration ≤ 0 then some (.error "duration_seconds must be >= 0")
  else (pools.mapM fun e => banHost duration (clock e.id) host e).map .ok

def unbanCommand (host : String) (pools : List PoolEntry) : Option Swept :=
  pools.mapM (unbanHost host)

section Host

variable {state : Bool} {op : Nat → Address → BanList → Option BanList} {host : String} {e e' : PoolEntry}
  {reported : List Address}

theorem sweepHost_eq_some : sweepHost state op host e = some (e', reported) ↔
    ∃ addresses, addressesFromHost e.pool host = some addresses ∧
      sweep state op 0 addresses e.bans = some (e'.bans, reported) ∧ e'.id = e.id ∧ e'.pool = e.pool := by
  simp only [sweepHost, Option.bind_eq_bind, Option.bind_eq_some_iff]
  constructor
  · rintro ⟨addresses, haddresses, ⟨bans, reported'⟩, hsweep, hpure⟩
    cases hpure
    exact ⟨addresses, haddresses, hsweep, rfl, rfl⟩
  · rintro ⟨addresses, haddresses, hsweep, hid, hpool⟩
    refine ⟨addresses, haddresses, _, hsweep, ?_⟩
    cases e'
    subst hid hpool
    rfl

/-- The addresses of the host can be listed, and each has a place in the ban list. -/
def Reachable (host : String) (e : PoolEntry) : Prop :=
  ∃ addresses, addressesFromHost e.pool host = some addresses ∧ ∀ a ∈ addresses, a.shard < e.bans.length

section Returns

variable (hlocal : ∀ i a bans bans', op i a bans = some bans' → Local a bans bans')
  (hreturns : ∀ i a bans, a.shard < bans.length → ∃ bans', op i a bans = some bans')

include hlocal hreturns

theorem sweepHost_of_addresses {addresses : List Address}
    (haddresses : addressesFromHost e.pool host = some addresses)
    (hfound : ∀ a ∈ addresses, a.shard < e.bans.length) :
    ∃ bans' reported, sweep state op 0 addresses e.bans = some (bans', reported) ∧
      sweepHost state op host e = some (⟨e.id, e.pool, bans'⟩, reported) := by
  obtain ⟨⟨bans', reported⟩, hsweep⟩ := (@sweep_returns_iff state op hlocal hreturns addresses 0 e.bans).mpr hfound
  exact ⟨bans', reported, hsweep, sweepHost_eq_some.mpr ⟨addresses, haddresses, hsweep, rfl, rfl⟩⟩

theorem sweepHost_returns_iff : (∃ r, sweepHost state op host e = some r) ↔ Reachable host e := by
  constructor
  · rintro ⟨⟨e', reported⟩, h⟩
    obtain ⟨addresses, haddresses, hsweep, -⟩ := sweepHost_eq_some.mp h
    exact ⟨addresses, haddresses, (sweep_returns_iff hlocal hreturns).mp ⟨_, hsweep⟩⟩
  · rintro ⟨addresses, haddresses, hfound⟩
    obtain ⟨bans', reported, -, hrun⟩ := @sweepHost_of_addresses state op host e hlocal hreturns addresses haddresses
      hfound
    exact ⟨_, hrun⟩

end Returns

theorem sweep_eq_foldlM (l : List Address) : ∀ (i : Nat) (bans : BanList),
    (sweep state op i l bans).map Prod.fst = (l.zipIdx i).foldlM (fun bans entry => do
      if (← isBanned entry.1 bans) = state then op entry.2 entry.1 bans else pure bans) bans := by
  induction l with
  | nil =>
    intro i bans
    rfl
  | cons a rest ih =>
    intro i bans
    rw [List.zipIdx_cons, List.foldlM_cons, sweep]
    simp only [Option.bind_eq_bind] at ih ⊢
    cases isBanned a bans with
    | none => rfl
    | some banned =>
      simp only [Option.bind_some]
      split
      · cases hop : op i a bans with
        | none => rfl
        | some bans₁ =>
          rw [Option.bind_some, Option.bind_some, ← ih (i + 1) bans₁]
          cases sweep state op (i + 1) rest bans₁ with
          | none => rfl
          | some r => rfl
      · rw [ih (i + 1) bans]
        rfl

theorem sweepHost_bans : (sweepHost state op host e).map (fun r => r.1.bans) =
    (addressesFromHost e.pool host).bind fun addresses => (sweep state op 0 addresses e.bans).map Prod.fst := by
  unfold sweepHost
  cases addressesFromHost e.pool host with
  | none => rfl
  | some addresses =>
    simp only [Option.bind_eq_bind, Option.bind_some]
    cases sweep state op 0 addresses e.bans with
    | none => rfl
    | some r => rfl

/-- On a pool, the two commands do what `Checkout` says they do. -/
theorem banHost_bans {duration : Int} (hd : 0 < duration) (clock : Nat → Int) :
    (banHost duration clock host e).map (fun r => r.1.bans) =
      Checkout.adminBan e.pool host duration clock e.bans := by
  rw [banHost, sweepHost_bans, Checkout.adminBan, if_neg (by omega)]
  congr 1
  funext addresses
  rw [sweep_eq_foldlM]
  congr 1
  funext bans entry
  cases isBanned entry.1 bans with
  | none => rfl
  | some banned => cases banned <;> rfl

theorem unbanHost_bans :
    (unbanHost host e).map (fun r => r.1.bans) = Checkout.adminUnban e.pool host e.bans := by
  rw [unbanHost, sweepHost_bans, Checkout.adminUnban]
  congr 1
  funext addresses
  rw [sweep_eq_foldlM]
  conv_rhs => rw [← List.zipIdx_map_fst 0 addresses, List.foldlM_map]

end Host

/-! ## `BAN` -/

/-- The reported addresses are those that got banned, each reported once. -/
def Reports (before after : BanList) (reported : List Address) : Prop :=
  reported.Nodup ∧ ∀ a, a ∈ reported ↔ isBanned a before = some false ∧ isBanned a after = some true

section Ban

variable {duration : Int} {clock : Nat → Int} {host : String} {e : PoolEntry}

theorem ban_local (i : Nat) (a : Address) (bans bans' : BanList)
    (h : ban a (.adminBan duration) (clock i) bans = some bans') : Local a bans bans' :=
  (Checkout.ban_eq_some h).1

theorem isBanned_ban {reason : BanReason} {now : Int} {a : Address} {bans bans' : BanList}
    (hrole : a.role ≠ .primary) (h : ban a reason now bans = some bans') : isBanned a bans' = some true := by
  rw [Checkout.isBanned_eq_true, (Checkout.ban_eq_some h).2, if_neg hrole]
  rfl

theorem ban_returns {reason : BanReason} {now : Int} {a : Address} {bans : BanList}
    (h : a.shard < bans.length) : ∃ bans', ban a reason now bans = some bans' := by
  unfold ban
  split
  · exact ⟨bans, rfl⟩
  · exact ⟨_, by rw [List.getElem?_eq_getElem h, Option.map_some]⟩

/-- Every address can be looked up, and is banned already or may be. -/
def Bannable (host : String) (e : PoolEntry) : Prop :=
  ∃ addresses, addressesFromHost e.pool host = some addresses ∧
    ∀ a ∈ addresses, isBanned a e.bans = some true ∨ isBanned a e.bans = some false ∧ a.role ≠ .primary

theorem reports_iff {addresses reported : List Address} {bans bans' : BanList}
    (h : sweep false (fun i a => ban a (.adminBan duration) (clock i)) 0 addresses bans = some (bans', reported)) :
    Reports bans bans' reported ↔
      ∀ a ∈ addresses, isBanned a bans = some true ∨ isBanned a bans = some false ∧ a.role ≠ .primary := by
  have hreported := sweep_reported ban_local h
  have hfound : ∀ a ∈ addresses, a.shard < bans.length :=
    (sweep_returns_iff ban_local fun _ _ _ => ban_returns).mp ⟨_, h⟩
  constructor
  · rintro ⟨-, hchanged⟩ a ha
    cases hstate : (entry a bans).isSome with
    | true => exact .inl (Checkout.isBanned_eq_some.mpr ⟨hfound a ha, hstate⟩)
    | false =>
      have hfree := Checkout.isBanned_eq_some.mpr ⟨hfound a ha, hstate⟩
      refine .inr ⟨hfree, fun hprimary => ?_⟩
      -- The primary is in the report, but its entry is what it was.
      have hafter := ((hchanged a).mp ((hreported a).mpr ⟨ha, hfree⟩)).2
      have hsame : entry a bans' = entry a bans := by
        refine sweep_ignored ban_local h fun i new new' hban => ?_
        rw [(Checkout.ban_eq_some hban).2, if_pos hprimary]
      rw [Checkout.isBanned_eq_true, hsame, hstate] at hafter
      cases hafter
  · intro hroles
    have hmoves : ∀ a ∈ addresses, isBanned a bans = some false → a.role ≠ .primary := by
      intro a ha hfree
      rcases hroles a ha with hbanned | ⟨-, hrole⟩
      · rw [hfree] at hbanned
        cases hbanned
      · exact hrole
    refine ⟨sweep_nodup ban_local h fun a ha hfree i new new' hban => isBanned_ban (hmoves a ha hfree) hban,
      fun a => ?_⟩
    rw [hreported a]
    constructor
    · rintro ⟨ha, hfree⟩
      exact ⟨hfree, sweep_settled ban_local h (fun _ _ _ hban => isBanned_ban (hmoves a ha hfree) hban) ha⟩
    · rintro ⟨hfree, hafter⟩
      refine ⟨?_, hfree⟩
      by_contra hout
      have hsame : entry a bans' = entry a bans := (sweep_frame ban_local h).2 a.shard a fun hin => hout hin.2
      rw [Checkout.isBanned_eq_true, hsame, (Checkout.isBanned_eq_some.mp hfree).2] at hafter
      cases hafter

theorem banHost_of_bannable (h : Bannable host e) :
    ∃ addresses e' reported, banHost duration clock host e = some (e', reported) ∧ e'.id = e.id ∧
      addressesFromHost e'.pool host = some addresses ∧ Reports e.bans e'.bans reported ∧
        ∀ a ∈ addresses, isBanned a e'.bans = some true := by
  obtain ⟨addresses, haddresses, hroles⟩ := h
  have hfound : ∀ a ∈ addresses, a.shard < e.bans.length := by
    intro a ha
    rcases hroles a ha with hbanned | ⟨hfree, -⟩
    · exact (Checkout.isBanned_eq_some.mp hbanned).1
    · exact (Checkout.isBanned_eq_some.mp hfree).1
  obtain ⟨bans', reported, hsweep, hrun⟩ :=
    sweepHost_of_addresses (@ban_local duration clock) (fun _ _ _ => ban_returns) haddresses hfound
  refine ⟨addresses, ⟨e.id, e.pool, bans'⟩, reported, hrun, rfl, haddresses, (reports_iff hsweep).mpr hroles,
    fun a ha => ?_⟩
  rcases hroles a ha with hbanned | ⟨-, hrole⟩
  · exact (sweep_other ban_local hsweep a hbanned).1
  · exact sweep_settled ban_local hsweep (fun _ _ _ hban => isBanned_ban hrole hban) ha

theorem banHost_again {addresses : List Address} (haddresses : addressesFromHost e.pool host = some addresses)
    (hbanned : ∀ a ∈ addresses, isBanned a e.bans = some true) :
    ∃ e', banHost duration clock host e = some (e', []) := by
  have hbannable : Bannable host e := ⟨addresses, haddresses, fun a ha => .inl (hbanned a ha)⟩
  obtain ⟨-, e', reported, hrun, -⟩ := @banHost_of_bannable duration clock host e hbannable
  obtain ⟨addresses', haddresses', hsweep, -⟩ := sweepHost_eq_some.mp hrun
  rw [haddresses] at haddresses'
  cases haddresses'
  have hempty : reported = [] := by
    refine List.eq_nil_iff_forall_not_mem.mpr fun a ha => ?_
    obtain ⟨hin, hfree⟩ := (sweep_reported ban_local hsweep a).mp ha
    rw [hbanned a hin] at hfree
    cases hfree
  exact ⟨e', hempty ▸ hrun⟩

end Ban

theorem rows_eq_nil_iff {swept : Swept} : rows swept = [] ↔ ∀ r ∈ swept, r.2 = [] := by
  simp [rows, List.flatMap_eq_nil_iff]

theorem banCommand_eq_ok {host : String} {duration : Int} (hd : 0 < duration)
    {clock : PoolIdentifier → Nat → Int} {pools : List PoolEntry} {swept : Swept} :
    banCommand host duration clock pools = some (.ok swept) ↔
      pools.mapM (fun e => banHost duration (clock e.id) host e) = some swept := by
  rw [banCommand, if_neg (by omega), Option.map_eq_some_iff]
  constructor
  · rintro ⟨_, hrun, hok⟩
    cases hok
    exact hrun
  · exact fun hrun => ⟨swept, hrun, rfl⟩

theorem run_twice {f g : PoolEntry → Option (PoolEntry × List Address)} {pools : List PoolEntry}
    {P Q : PoolEntry → PoolEntry × List Address → Prop}
    (h : ∀ e ∈ pools, ∃ r r', f e = some r ∧ g r.1 = some r' ∧ P e r ∧ Q e r') :
    ∃ swept again, pools.mapM f = some swept ∧ (swept.map Prod.fst).mapM g = some again ∧
      List.Forall₂ P pools swept ∧ List.Forall₂ Q pools again := by
  have hpair : ∀ e ∈ pools, ∃ p : (PoolEntry × List Address) × (PoolEntry × List Address),
      f e = some p.1 ∧ g p.1.1 = some p.2 ∧ P e p.1 ∧ Q e p.2 := by
    intro e he
    obtain ⟨r, r', hall⟩ := h e he
    exact ⟨(r, r'), hall⟩
  obtain ⟨both, hboth⟩ := exists_forall₂_iff.mpr hpair
  refine ⟨both.map Prod.fst, both.map Prod.snd, ?_, ?_, ?_, ?_⟩
  · rw [mapM_eq_some_iff, List.forall₂_map_right_iff]
    exact hboth.imp fun _ _ h => h.1
  · rw [mapM_eq_some_iff, List.map_map, List.forall₂_map_left_iff, List.forall₂_map_right_iff, List.forall₂_same]
    intro p hp
    obtain ⟨e, -, -, hagain, -⟩ := exists_of_mem_right hboth hp
    exact hagain
  · rw [List.forall₂_map_right_iff]
    exact hboth.imp fun _ _ h => h.2.2.1
  · rw [List.forall₂_map_right_iff]
    exact hboth.imp fun _ _ h => h.2.2.2

/-- `BAN` reports the addresses it banned, and none if it is repeated, exactly if no primary of the host is
there to be reported. -/
theorem ban_reports_iff (host : String) (duration : Int) (hd : 0 < duration)
    (clock clock' : PoolIdentifier → Nat → Int) (pools : List PoolEntry) :
    (∃ swept, banCommand host duration clock pools = some (.ok swept) ∧
      List.Forall₂ (fun e r => r.1.id = e.id ∧ Reports e.bans r.1.bans r.2) pools swept ∧
      ∃ again, banCommand host duration clock' (swept.map Prod.fst) = some (.ok again) ∧ rows again = []) ↔
    ∀ e ∈ pools, Bannable host e := by
  constructor
  · rintro ⟨swept, hrun, hreports, -⟩ e he
    rw [banCommand_eq_ok hd, mapM_eq_some_iff] at hrun
    obtain ⟨⟨e', reported⟩, -, hban, -, hreport⟩ := exists_of_mem_right (forall₂_and hrun hreports).flip he
    obtain ⟨addresses, haddresses, hsweep, -⟩ := sweepHost_eq_some.mp hban
    exact ⟨addresses, haddresses, (reports_iff hsweep).mp hreport⟩
  · intro hbannable
    obtain ⟨swept, again, hrun, hagain, hreports, hempty⟩ :=
      @run_twice (fun e => banHost duration (clock e.id) host e) (fun e => banHost duration (clock' e.id) host e) pools
        (fun e r => r.1.id = e.id ∧ Reports e.bans r.1.bans r.2) (fun _ r => r.2 = []) fun e he => by
          obtain ⟨addresses, e', reported, hban, hid, haddresses, hreports, hbanned⟩ :=
            @banHost_of_bannable duration (clock e.id) host e (hbannable e he)
          obtain ⟨e'', hagain⟩ := @banHost_again duration (clock' e'.id) host e' addresses haddresses hbanned
          exact ⟨(e', reported), (e'', []), hban, hagain, ⟨hid, hreports⟩, rfl⟩
    refine ⟨swept, (banCommand_eq_ok hd).mpr hrun, hreports, again, (banCommand_eq_ok hd).mpr hagain, ?_⟩
    rw [rows_eq_nil_iff]
    intro r hr
    obtain ⟨e, -, hnone⟩ := exists_of_mem_right hempty hr
    exact hnone

namespace Sample

open Checkout.Sample (threePool)

/-- A pool with a primary on `localhost` and two servers on `replica`, none of them banned. -/
def fresh : PoolEntry :=
  ⟨⟨"sharded_db", "sharding_user"⟩, threePool, BanList.start threePool⟩

theorem primary_reported :
    ∃ a : Address, a.role = .primary ∧
      banCommand "localhost" 60 (fun _ _ => 0) [fresh] = some (.ok [(fresh, [a])]) :=
  ⟨_, rfl, rfl⟩

theorem replicas_reported :
    ∃ swept, banCommand "replica" 60 (fun _ _ => 0) [fresh] = some (.ok swept) ∧
      List.Forall₂ (fun e r => r.1.id = e.id ∧ Reports e.bans r.1.bans r.2) [fresh] swept ∧
      ∃ again, banCommand "replica" 60 (fun _ _ => 1) (swept.map Prod.fst) = some (.ok again) ∧ rows again = [] := by
  refine (ban_reports_iff "replica" 60 (by decide) (fun _ _ => 0) (fun _ _ => 1) [fresh]).mpr fun e he => ?_
  cases List.mem_singleton.mp he
  exact ⟨_, rfl, by decide +kernel⟩

end Sample

/-! ## `UNBAN` -/

/-- The addresses sit at their own shard and index, and the pool has as many rows of addresses as of
server pools and of bans. -/
structure Placed (e : PoolEntry) : Prop where
  position : ∀ (s i : Nat) row a, e.pool.addresses[s]? = some row → row[i]? = some a →
    a.shard = s ∧ a.addressIndex = i
  shards : e.pool.shards = e.pool.addresses.length
  bans : e.bans.length = e.pool.addresses.length

def OnHost (host : String) (pool : ConnectionPool) (a : Address) : Prop :=
  (∃ s, Checkout.Configured pool s a) ∧ a.host = host

structure Cleared (host : String) (e : PoolEntry) (bans' : BanList) (reported : List Address) : Prop where
  freed : ∀ a, OnHost host e.pool a → isBanned a bans' = some false
  shards : bans'.length = e.bans.length
  others : ∀ s a, ¬(s = a.shard ∧ OnHost host e.pool a) → entryAt s a bans' = entryAt s a e.bans
  once : reported.Nodup
  reported : ∀ a, a ∈ reported ↔ OnHost host e.pool a ∧ isBanned a e.bans = some true

/-- The same bans, with their reasons and times. -/
def SameBans (bans bans' : BanList) : Prop :=
  bans'.length = bans.length ∧ ∀ s a, entryAt s a bans' = entryAt s a bans

theorem Placed.addresses {e : PoolEntry} (h : Placed e) (host : String) :
    ∃ addresses, addressesFromHost e.pool host = some addresses ∧
      (∀ a, a ∈ addresses ↔ OnHost host e.pool a) ∧ ∀ a ∈ addresses, a.shard < e.bans.length := by
  refine ⟨e.pool.addresses.flatten.filter fun a => a.host = host, ?_, fun a => ?_, fun a ha => ?_⟩
  · rw [addressesFromHost, if_pos h.shards.le, h.shards, List.take_length]
  · rw [List.mem_filter, decide_eq_true_eq, List.mem_flatten]
    refine and_congr_left fun _ => ⟨?_, ?_⟩
    · rintro ⟨row, hrow, hin⟩
      obtain ⟨s, hs⟩ := List.mem_iff_getElem?.mp hrow
      exact ⟨s, row, hs, hin⟩
    · rintro ⟨s, row, hs, hin⟩
      exact ⟨row, List.mem_of_getElem? hs, hin⟩
  · obtain ⟨row, hrow, hin⟩ := List.mem_flatten.mp (List.mem_filter.mp ha).1
    obtain ⟨s, hs⟩ := List.mem_iff_getElem?.mp hrow
    obtain ⟨i, hi⟩ := List.mem_iff_getElem?.mp hin
    rw [(h.position s i row a hs hi).1, h.bans]
    exact (List.getElem?_eq_some_iff.mp hs).1

section Unban

variable {host : String} {e : PoolEntry}

theorem unban_local (_ : Nat) (a : Address) (bans bans' : BanList) (h : unban a bans = some bans') :
    Local a bans bans' :=
  (Checkout.unban_eq_some h).1

theorem isBanned_unban {a : Address} {bans bans' : BanList} (h : unban a bans = some bans') :
    isBanned a bans' = some false := by
  obtain ⟨hlocal, hentry⟩ := Checkout.unban_eq_some h
  obtain ⟨shard, hshard, -⟩ := Option.map_eq_some_iff.mp h
  refine Checkout.isBanned_eq_some.mpr ⟨?_, by rw [hentry]; rfl⟩
  rw [hlocal.shards]
  exact (List.getElem?_eq_some_iff.mp hshard).1

theorem unban_returns {a : Address} {bans : BanList} (h : a.shard < bans.length) :
    ∃ bans', unban a bans = some bans' :=
  ⟨_, by rw [unban, List.getElem?_eq_getElem h, Option.map_some]⟩

theorem cleared_of_sweep {addresses reported : List Address} {bans' : BanList}
    (haddresses : ∀ a, a ∈ addresses ↔ OnHost host e.pool a)
    (h : sweep true (fun _ a => unban a) 0 addresses e.bans = some (bans', reported)) :
    Cleared host e bans' reported where
  freed := fun a ha =>
    sweep_settled unban_local h (fun _ _ _ hunban => isBanned_unban hunban) ((haddresses a).mpr ha)
  shards := (sweep_frame unban_local h).1
  others := fun s a hnot => (sweep_frame unban_local h).2 s a fun hin => hnot ⟨hin.1, (haddresses a).mp hin.2⟩
  once := sweep_nodup unban_local h fun _ _ _ _ _ _ hunban => isBanned_unban hunban
  reported := fun a => by rw [sweep_reported unban_local h, haddresses]

theorem unbanHost_cleared (h : Placed e) :
    ∃ e' reported, unbanHost host e = some (e', reported) ∧ e'.id = e.id ∧ e'.pool = e.pool ∧
      Cleared host e e'.bans reported := by
  obtain ⟨addresses, hhost, hmem, hfound⟩ := h.addresses host
  obtain ⟨bans', reported, hsweep, hrun⟩ :=
    sweepHost_of_addresses unban_local (fun _ _ _ => unban_returns) hhost hfound
  exact ⟨⟨e.id, e.pool, bans'⟩, reported, hrun, rfl, rfl, cleared_of_sweep hmem hsweep⟩

theorem unbanHost_after_ban {duration : Int} {clock : Nat → Int} (h : Placed e)
    (hfree : ∀ a, OnHost host e.pool a → isBanned a e.bans = some false) :
    ∃ e' reported e'' reported', banHost duration clock host e = some (e', reported) ∧
      unbanHost host e' = some (e'', reported') ∧ e''.id = e.id ∧ e''.pool = e.pool ∧
        SameBans e.bans e''.bans := by
  obtain ⟨addresses, hhost, hmem, hfound⟩ := h.addresses host
  obtain ⟨bans', reported, hsweep, hrun⟩ :=
    sweepHost_of_addresses (@ban_local duration clock) (fun _ _ _ => ban_returns) hhost hfound
  obtain ⟨hlength, hframe⟩ := sweep_frame ban_local hsweep
  have hplaced : Placed ⟨e.id, e.pool, bans'⟩ := ⟨h.position, h.shards, hlength.trans h.bans⟩
  obtain ⟨e'', reported', hunban, hid, hpool, hcleared⟩ := @unbanHost_cleared host _ hplaced
  refine ⟨⟨e.id, e.pool, bans'⟩, reported, e'', reported', hrun, hunban, hid, hpool,
    hcleared.shards.trans hlength, fun s a => ?_⟩
  by_cases hhere : s = a.shard ∧ OnHost host e.pool a
  · -- Neither before nor after is there an entry.
    obtain ⟨rfl, hon⟩ := hhere
    have hbefore := (Checkout.isBanned_eq_some.mp (hfree a hon)).2
    have hafter := (Checkout.isBanned_eq_some.mp (hcleared.freed a hon)).2
    rw [Option.isSome_eq_false_iff, Option.isNone_iff_eq_none] at hbefore hafter
    exact hafter.trans hbefore.symm
  · rw [hcleared.others s a hhere, hframe s a fun hin => hhere ⟨hin.1, (hmem a).mp hin.2⟩]

end Unban

/-- `UNBAN` frees the addresses of the host and touches no other entry, and reports those that were banned;
after a `BAN` of a host that was not banned it restores the bans. -/
theorem unban_exact (host : String) (pools : List PoolEntry) (hplaced : ∀ e ∈ pools, Placed e) :
    (∃ swept, unbanCommand host pools = some swept ∧
      List.Forall₂ (fun e r => r.1.id = e.id ∧ r.1.pool = e.pool ∧ Cleared host e r.1.bans r.2) pools swept) ∧
    ∀ (duration : Int) (clock : PoolIdentifier → Nat → Int), 0 < duration →
      (∀ e ∈ pools, ∀ a, OnHost host e.pool a → isBanned a e.bans = some false) →
      ∃ banned swept, banCommand host duration clock pools = some (.ok banned) ∧
        unbanCommand host (banned.map Prod.fst) = some swept ∧
          List.Forall₂ (fun e r => r.1.id = e.id ∧ r.1.pool = e.pool ∧ SameBans e.bans r.1.bans) pools swept := by
  constructor
  · obtain ⟨swept, hall⟩ := exists_forall₂_iff.mpr fun e he => by
      obtain ⟨e', reported, hrun, hid, hpool, hcleared⟩ := @unbanHost_cleared host e (hplaced e he)
      exact (⟨(e', reported), hrun, hid, hpool, hcleared⟩ : ∃ r, unbanHost host e = some r ∧
        r.1.id = e.id ∧ r.1.pool = e.pool ∧ Cleared host e r.1.bans r.2)
    exact ⟨swept, mapM_eq_some_iff.mpr (hall.imp fun _ _ h => h.1), hall.imp fun _ _ h => h.2⟩
  · intro duration clock hd hfree
    obtain ⟨banned, swept, hban, hunban, -, hsame⟩ :=
      @run_twice (fun e => banHost duration (clock e.id) host e) (unbanHost host) pools (fun _ _ => True)
        (fun e r => r.1.id = e.id ∧ r.1.pool = e.pool ∧ SameBans e.bans r.1.bans) fun e he => by
          obtain ⟨e', reported, e'', reported', hban, hunban, hback⟩ :=
            @unbanHost_after_ban host e duration (clock e.id) (hplaced e he) (hfree e he)
          exact ⟨(e', reported), (e'', reported'), hban, hunban, trivial, hback⟩
    exact ⟨banned, swept, (banCommand_eq_ok hd).mpr hban, hunban, hsame⟩

namespace Sample

theorem fresh_placed : Placed fresh where
  position := by
    have hrows : ∀ p ∈ fresh.pool.addresses.zipIdx, ∀ q ∈ p.1.zipIdx,
        q.1.shard = p.2 ∧ q.1.addressIndex = q.2 := by decide +kernel
    intro s i row a hrow ha
    exact hrows (row, s) (List.mk_mem_zipIdx_iff_getElem?.mpr hrow) (a, i) (List.mk_mem_zipIdx_iff_getElem?.mpr ha)
  shards := rfl
  bans := rfl

theorem replicas_restored :
    ∃ banned swept, banCommand "replica" 60 (fun _ _ => 0) [fresh] = some (.ok banned) ∧
      unbanCommand "replica" (banned.map Prod.fst) = some swept ∧
        List.Forall₂ (fun e r => r.1.id = e.id ∧ r.1.pool = e.pool ∧ SameBans e.bans r.1.bans) [fresh] swept := by
  have hplaced : ∀ e ∈ [fresh], Placed e := by
    intro e he
    cases List.mem_singleton.mp he
    exact fresh_placed
  refine (unban_exact "replica" [fresh] hplaced).2 60 (fun _ _ => 0) (by decide) fun e he a ha => ?_
  cases List.mem_singleton.mp he
  obtain ⟨addresses, haddresses, hmem, -⟩ := fresh_placed.addresses "replica"
  have hfree : ∀ b ∈ fresh.pool.addresses.flatten, isBanned b fresh.bans = some false := by decide +kernel
  obtain ⟨⟨s, row, hrow, hin⟩, -⟩ := ha
  exact hfree a (List.mem_flatten.mpr ⟨row, List.mem_of_getElem? hrow, hin⟩)

end Sample

/-! ## `SHOW BANS` -/

/-- `a - b` on 64-bit signed words. -/
def subI64 (checks : Bool) (a b : Int) : Option Int :=
  if -2 ^ 63 ≤ a - b ∧ a - b < 2 ^ 63 then some (a - b)
  else if checks then none
  else some (toSigned 64 (ofSigned 64 (a - b)))

/-- The derived `Debug` text. -/
def reasonText : BanReason → String
  | .failedHealthCheck => "FailedHealthCheck"
  | .messageSendFailed => "MessageSendFailed"
  | .messageReceiveFailed => "MessageReceiveFailed"
  | .failedCheckout => "FailedCheckout"
  | .statementTimeout => "StatementTimeout"
  | .adminBan duration => "AdminBan(" ++ toString duration ++ ")"

def getBans (bans : BanList) : List (Address × Ban) :=
  bans.flatMap fun shard => shard.entries.map fun entry => (entry.1, entry.2)

section Show

variable (checks : Bool) (timeText : Ban → String) (now : Int)

def remaining (pool : ConnectionPool) (b : Ban) : Option Int := do
  subI64 checks (b.duration pool) (← subI64 checks now b.time)

def banRow (e : PoolEntry) (banned : Address × Ban) : Option (Option (List String)) := do
  let remaining ← remaining checks now e.pool banned.2
  if remaining ≤ 0 then pure none
  else pure (some [e.id.db, e.id.user, roleText banned.1.role, banned.1.host, reasonText banned.2.reason,
    timeText banned.2, toString (banned.2.duration e.pool), toString remaining])

def showBans (pools : List PoolEntry) : Option (List (List String)) :=
  (pools.flatMap fun e => (getBans e.bans).map fun banned => (e, banned)).mapM
    (fun entry => banRow checks timeText now entry.1 entry.2) |>.map List.reduceOption

end Show

section Shown

variable {checks : Bool} {timeText : Ban → String} {now : Int}

theorem mem_showBans {pools : List PoolEntry} {shown : List (List String)}
    (h : showBans checks timeText now pools = some shown) (row : List String) :
    row ∈ shown ↔ ∃ e ∈ pools, ∃ banned ∈ getBans e.bans, banRow checks timeText now e banned = some (some row) := by
  obtain ⟨found, hfound, rfl⟩ := Option.map_eq_some_iff.mp h
  rw [mapM_eq_some_iff] at hfound
  rw [List.reduceOption_mem_iff]
  constructor
  · intro hrow
    obtain ⟨⟨e, banned⟩, hin, hbanned⟩ := exists_of_mem_right hfound hrow
    simp only [List.mem_flatMap, List.mem_map] at hin
    obtain ⟨e', he, banned', hbans, heq⟩ := hin
    cases heq
    exact ⟨e, he, banned, hbans, hbanned⟩
  · rintro ⟨e, he, banned, hbans, hbanned⟩
    have hin : (e, banned) ∈ pools.flatMap fun e => (getBans e.bans).map fun banned => (e, banned) := by
      simp only [List.mem_flatMap, List.mem_map]
      exact ⟨e, he, banned, hbans, rfl⟩
    obtain ⟨row', hrow, hshown⟩ := exists_of_mem_right hfound.flip hin
    rw [hbanned] at hshown
    cases hshown
    exact hrow

theorem subI64_of_fits {a b : Int} (hlow : -2 ^ 63 ≤ a - b) (hhigh : a - b < 2 ^ 63) :
    subI64 checks a b = some (a - b) :=
  if_pos ⟨hlow, hhigh⟩

/-- A difference that is too small is a panic, or far above zero. -/
theorem subI64_of_small {a b d : Int} (hsmall : a - b < -2 ^ 63) (hlow : -2 ^ 64 < a - b)
    (h : subI64 checks a b = some d) : 0 < d := by
  rw [subI64, if_neg (fun hfits => absurd hfits.1 (by omega))] at h
  have hword : ofSigned 64 (a - b) = (a - b + 2 ^ 64).toNat := by
    rw [ofSigned, ← Int.add_emod_right, Int.emod_eq_of_lt (by omega) (by omega)]
  cases checks with
  | true => cases h
  | false =>
    cases h
    rw [hword, toSigned, if_pos (by omega)]
    omega

theorem banRow_shown {e : PoolEntry} {banned : Address × Ban} {left : Int}
    (h : remaining checks now e.pool banned.2 = some left) :
    ∃ shown, banRow checks timeText now e banned = some shown ∧ (shown.isSome = true ↔ 0 < left) := by
  rw [banRow, h, some_bind]
  by_cases hleft : left ≤ 0
  · refine ⟨none, by rw [if_pos hleft]; rfl, ?_⟩
    simpa using hleft
  · refine ⟨some _, by rw [if_neg hleft]; rfl, ?_⟩
    simpa using hleft

end Shown

/-- A ban is listed as long as `try_unban` keeps the address banned, exactly if it is not in its last second
and the time that is left can be represented. -/
theorem shown_iff_kept (checks : Bool) (timeText : Ban → String) (e : PoolEntry) (a : Address) (b : Ban)
    (now : Int) (hnow : b.time ≤ now) (hpassed : now - b.time < 2 ^ 63)
    (hduration : -2 ^ 63 ≤ b.duration e.pool ∧ b.duration e.pool < 2 ^ 63) :
    (∃ shown, banRow checks timeText now e (a, b) = some shown ∧
      (shown.isSome = true ↔ b.expired e.pool now = false)) ↔
    now - b.time ≠ b.duration e.pool ∧ -2 ^ 63 ≤ b.duration e.pool - (now - b.time) := by
  have hsub : remaining checks now e.pool b = subI64 checks (b.duration e.pool) (now - b.time) := by
    rw [remaining, subI64_of_fits (by omega) hpassed]
    rfl
  have hkept : b.expired e.pool now = false ↔ now - b.time ≤ b.duration e.pool := by
    rw [Ban.expired, decide_eq_false_iff_not]
    omega
  by_cases hfits : -2 ^ 63 ≤ b.duration e.pool - (now - b.time)
  · rw [subI64_of_fits hfits (by omega)] at hsub
    obtain ⟨shown, hrow, hshown⟩ := @banRow_shown checks timeText now e (a, b) _ hsub
    simp only [hrow, Option.some.injEq, exists_eq_left', hshown, hkept, hfits, and_true]
    omega
  · -- The difference wraps around, or the command panics; the ban is over in any case.
    refine iff_of_false ?_ fun h => hfits h.2
    rintro ⟨shown, hrow, hshown⟩
    cases hleft : remaining checks now e.pool b with
    | none =>
      rw [banRow, hleft] at hrow
      cases hrow
    | some left =>
      obtain ⟨shown', hrow', hshown'⟩ := @banRow_shown checks timeText now e (a, b) _ hleft
      rw [hrow] at hrow'
      cases hrow'
      have hpos := subI64_of_small (by omega) (by omega) (hsub.symm.trans hleft)
      have hover := hkept.mp (hshown.mp (hshown'.mpr hpos))
      omega

namespace Sample

open Checkout.Sample (threePool)

def minute : Ban :=
  ⟨.adminBan 60, 0⟩

def replica : Address :=
  (threePool.addresses.flatten[1]?).get rfl

def oneBanned : PoolEntry :=
  ⟨fresh.id, threePool, [AList.singleton replica minute]⟩

theorem last_second_hidden :
    showBans true (fun _ => "1970-01-01 00:00:00") 60 [oneBanned] = some [] ∧
      Checkout.tryUnban threePool replica 60 oneBanned.bans = some (oneBanned.bans, false) :=
  ⟨rfl, rfl⟩

theorem half_minute_shown :
    ∃ shown, banRow true (fun _ => "1970-01-01 00:00:00") 30 oneBanned (replica, minute) = some shown ∧
      (shown.isSome = true ↔ minute.expired oneBanned.pool 30 = false) :=
  (shown_iff_kept true (fun _ => "1970-01-01 00:00:00") oneBanned replica minute 30 (by decide) (by decide)
    (by decide)).mpr (by decide)

end Sample

end PgCat.Admin
