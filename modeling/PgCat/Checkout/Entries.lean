import PgCat.Checkout.Bans

/-!
# Entries — what the operations do to the entry of one address

`entry a bans` is the ban of `a`, if it has one.  Each operation on the ban list is described by what it
does to the entry of its own address and to every other entry; nothing is assumed of the list.
-/

namespace PgCat.Checkout

open Lib
open Config (Role)
open Install (Address ConnectionPool)

def entryAt (s : Nat) (a : Address) (bans : BanList) : Option Ban :=
  bans[s]?.bind fun shard => shard.lookup a

def entry (a : Address) (bans : BanList) : Option Ban :=
  entryAt a.shard a bans

section Entries

variable {a u : Address} {bans bans' : BanList} {s : Nat} {shard : Bans}

theorem isBanned_eq_ite (a : Address) (bans : BanList) :
    isBanned a bans = if a.shard < bans.length then some (entry a bans).isSome else none := by
  unfold isBanned entry entryAt
  cases hshard : bans[a.shard]? with
  | none => simp [List.getElem?_eq_none_iff.mp hshard]
  | some shard => simp [(List.getElem?_eq_some_iff.mp hshard).1]

theorem isBanned_eq_some {banned : Bool} :
    isBanned a bans = some banned ↔ a.shard < bans.length ∧ (entry a bans).isSome = banned := by
  rw [isBanned_eq_ite]
  split <;> simp [*]

theorem isBanned_eq_true : isBanned a bans = some true ↔ (entry a bans).isSome = true := by
  rw [isBanned_eq_some, and_iff_right_iff_imp]
  intro h
  obtain ⟨b, hb⟩ := Option.isSome_iff_exists.mp h
  obtain ⟨shard, hshard, -⟩ := Option.bind_eq_some_iff.mp hb
  exact (List.getElem?_eq_some_iff.mp hshard).1

theorem entryAt_set {r : Nat} (hshard : bans[r]? = some shard) {new : Bans}
    (hsame : r = s → new.lookup a = shard.lookup a) : entryAt s a (bans.set r new) = entryAt s a bans := by
  obtain ⟨hlt, -⟩ := List.getElem?_eq_some_iff.mp hshard
  unfold entryAt
  by_cases hs : r = s
  · subst hs
    rw [List.getElem?_set_self hlt, hshard, Option.bind_some, Option.bind_some, hsame rfl]
  · rw [List.getElem?_set_ne hs]

theorem entry_set_self (hlt : a.shard < bans.length) (new : Bans) :
    entry a (bans.set a.shard new) = new.lookup a := by
  rw [entry, entryAt, List.getElem?_set_self hlt, Option.bind_some]

/-- An operation on the entry of `u` that leaves all others alone. -/
structure Local (u : Address) (bans bans' : BanList) : Prop where
  shards : bans'.length = bans.length
  others : ∀ s a, ¬(s = u.shard ∧ a = u) → entryAt s a bans' = entryAt s a bans

theorem Local.entry (h : Local u bans bans') (hne : a ≠ u) : entry a bans' = Checkout.entry a bans :=
  h.others a.shard a fun hsame => hne hsame.2

theorem Local.isBanned (h : Local u bans bans') (hne : a ≠ u) :
    isBanned a bans' = Checkout.isBanned a bans := by
  rw [isBanned_eq_ite, isBanned_eq_ite, h.shards, h.entry hne]

theorem Local.refl (u : Address) (bans : BanList) : Local u bans bans :=
  ⟨rfl, fun _ _ _ => rfl⟩

theorem Local.set (hshard : bans[u.shard]? = some shard) {new : Bans}
    (hsame : ∀ a, a ≠ u → new.lookup a = shard.lookup a) : Local u bans (bans.set u.shard new) :=
  ⟨List.length_set, fun _ a hother => entryAt_set hshard fun hs => hsame a fun ha => hother ⟨hs.symm, ha⟩⟩

theorem ban_eq_some {reason : BanReason} {now : Int} (h : ban u reason now bans = some bans') :
    Local u bans bans' ∧
      entry u bans' = if u.role = .primary then entry u bans else some ⟨reason, now⟩ := by
  unfold ban at h
  split at h
  · rename_i hprimary
    cases h
    exact ⟨.refl u bans, (if_pos hprimary).symm⟩
  · rename_i hprimary
    obtain ⟨shard, hshard, rfl⟩ := Option.map_eq_some_iff.mp h
    refine ⟨.set hshard fun _ hne => AList.lookup_insert_ne hne, ?_⟩
    rw [if_neg hprimary, entry_set_self (List.getElem?_eq_some_iff.mp hshard).1, AList.lookup_insert]

theorem unban_eq_some (h : unban u bans = some bans') : Local u bans bans' ∧ entry u bans' = none := by
  obtain ⟨shard, hshard, rfl⟩ := Option.map_eq_some_iff.mp h
  refine ⟨.set hshard fun _ hne => AList.lookup_erase_ne hne, ?_⟩
  rw [entry_set_self (List.getElem?_eq_some_iff.mp hshard).1, AList.lookup_erase]

end Entries

end PgCat.Checkout
