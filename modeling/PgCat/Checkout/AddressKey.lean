import PgCat.Checkout.Entries
import PgCat.Lib.HashTable

/-!
# AddressKey — addresses as the keys of the ban list

`Address` carries its statistics, and so does every mirror in it.  `PartialEq` and `Hash` are written by
hand to leave them out: two lists of eleven fields that call themselves on the mirrors.  The ban list is a
hash map over such keys, so it works only if the two lists agree.

`StatAddress.plain` forgets the statistics at every level.  Both functions factor through it: addresses are
equal exactly if they are the same without their statistics, and what is fed to the hasher can be read off
the plain address.  So the map the rest of the development uses, with plain addresses for keys, is what the
code's map amounts to (`Represents`).
-/

namespace PgCat.Checkout

open Lib
open Config (Role)
open Install (Address)

/-! ## Addresses with their statistics -/

/-- `Address`; the statistics may be anything. -/
structure StatAddress (σ : Type) where
  id : Nat
  host : String
  port : Nat
  shard : Nat
  database : String
  role : Role
  replicaNumber : Nat
  addressIndex : Nat
  username : String
  poolName : String
  mirrors : List (StatAddress σ)
  stats : σ

/-- What a hasher is fed with. -/
inductive HashWrite
  | usize (n : Nat)
  | u16 (n : Nat)
  | str (text : String)
  /-- The number of a constructor. -/
  | discriminant (n : Nat)
  /-- The length of a vector, ahead of its elements. -/
  | length (n : Nat)
  deriving DecidableEq, Repr

/-- The derived `Hash for Role`. -/
def hashRole : Role → HashWrite
  | .primary => .discriminant 0
  | .replica => .discriminant 1
  | .mirror => .discriminant 2

namespace StatAddress

variable {σ : Type}

mutual

/-- `PartialEq for Address`. -/
def eq : StatAddress σ → StatAddress σ → Bool
  | ⟨id, host, port, shard, database, role, replicaNumber, addressIndex, username, poolName, mirrors, _⟩, b =>
    id == b.id && host == b.host && port == b.port && shard == b.shard &&
      addressIndex == b.addressIndex && replicaNumber == b.replicaNumber && database == b.database &&
      role == b.role && username == b.username && poolName == b.poolName && eqAll mirrors b.mirrors

def eqAll : List (StatAddress σ) → List (StatAddress σ) → Bool
  | [], [] => true
  | a :: as, b :: bs => eq a b && eqAll as bs
  | _, _ => false

end

mutual

/-- `Hash for Address`. -/
def hash : StatAddress σ → List HashWrite
  | ⟨id, host, port, shard, database, role, replicaNumber, addressIndex, username, poolName, mirrors, _⟩ =>
    [.usize id, .str host, .u16 port, .usize shard, .usize addressIndex, .usize replicaNumber,
      .str database, hashRole role, .str username, .str poolName, .length mirrors.length] ++ hashAll mirrors

def hashAll : List (StatAddress σ) → List HashWrite
  | [] => []
  | a :: as => hash a ++ hashAll as

end

mutual

/-- The address without its statistics, and without those of its mirrors. -/
def plain : StatAddress σ → Address
  | ⟨id, host, port, shard, database, role, replicaNumber, addressIndex, username, poolName, mirrors, _⟩ =>
    ⟨id, host, port, shard, database, role, replicaNumber, addressIndex, username, poolName,
      plainAll mirrors⟩

def plainAll : List (StatAddress σ) → List Address
  | [] => []
  | a :: as => plain a :: plainAll as

end

/-! ## Equality and hash -/

mutual

/-- The statistics play no part in the comparison, at any level. -/
theorem eq_plain : ∀ a b : StatAddress σ, eq a b = addressEq (plain a) (plain b)
  | ⟨_, _, _, _, _, _, _, _, _, _, mirrors, _⟩, ⟨_, _, _, _, _, _, _, _, _, _, mirrors', _⟩ => by
    rw [eq, plain, plain, addressEq, eqAll_plain mirrors mirrors']

theorem eqAll_plain : ∀ as bs : List (StatAddress σ), eqAll as bs = addressesEq (plainAll as) (plainAll bs)
  | [], [] => by rw [eqAll, plainAll, addressesEq]
  | [], b :: bs => by simp [eqAll, plainAll, addressesEq]
  | a :: as, [] => by simp [eqAll, plainAll, addressesEq]
  | a :: as, b :: bs => by rw [eqAll, plainAll, plainAll, addressesEq, eq_plain a b, eqAll_plain as bs]

end

theorem eq_iff {a b : StatAddress σ} : eq a b = true ↔ plain a = plain b := by
  rw [eq_plain, addressEq_iff]

theorem length_plainAll (as : List (StatAddress σ)) : (plainAll as).length = as.length := by
  induction as with
  | nil => rfl
  | cons a as ih => rw [plainAll, List.length_cons, List.length_cons, ih]

mutual

theorem hash_of_plain : ∀ a b : StatAddress σ, plain a = plain b → hash a = hash b
  | ⟨_, _, _, _, _, _, _, _, _, _, mirrors, _⟩, ⟨_, _, _, _, _, _, _, _, _, _, mirrors', _⟩ => by
    intro h
    simp only [plain, Address.mk.injEq] at h
    obtain ⟨rfl, rfl, rfl, rfl, rfl, rfl, rfl, rfl, rfl, rfl, hmirrors⟩ := h
    have hlength : mirrors.length = mirrors'.length := by
      rw [← length_plainAll, hmirrors, length_plainAll]
    rw [hash, hash, hashAll_of_plain mirrors mirrors' hmirrors, hlength]

theorem hashAll_of_plain : ∀ as bs : List (StatAddress σ), plainAll as = plainAll bs → hashAll as = hashAll bs
  | [], [] => fun _ => rfl
  | [], b :: bs => fun h => by simp [plainAll] at h
  | a :: as, [] => fun h => by simp [plainAll] at h
  | a :: as, b :: bs => by
    intro h
    rw [plainAll, plainAll, List.cons.injEq] at h
    rw [hashAll, hashAll, hash_of_plain a b h.1, hashAll_of_plain as bs h.2]

end

@[simp] theorem plain_role (a : StatAddress σ) : a.plain.role = a.role := by
  cases a
  rw [plain]

@[simp] theorem plain_shard (a : StatAddress σ) : a.plain.shard = a.shard := by
  cases a
  rw [plain]

end StatAddress

/-! ## The ban list -/

section BanTable

variable {σ ι : Type}

/-- Addresses as hash keys, with what a hasher makes of what it is fed with. -/
def addressKeys (σ : Type) (hasher : List HashWrite → ι) : HashKeys (StatAddress σ) ι where
  eq := StatAddress.eq
  bucket := fun a => hasher a.hash
  refl := fun _ => StatAddress.eq_iff.mpr rfl
  symm := fun h => StatAddress.eq_iff.mpr (StatAddress.eq_iff.mp h).symm
  trans := fun h h' => StatAddress.eq_iff.mpr ((StatAddress.eq_iff.mp h).trans (StatAddress.eq_iff.mp h'))
  agrees := fun h => congrArg hasher (StatAddress.hash_of_plain _ _ (StatAddress.eq_iff.mp h))

/-- The banned addresses, shard by shard. -/
abbrev BanTable (σ : Type) (hasher : List HashWrite → ι) := List (HashTable (addressKeys σ hasher) Ban)

namespace BanTable

variable {hasher : List HashWrite → ι}

/-- The primary can never be banned.  An index that is not there panics. -/
def ban [DecidableEq ι] (a : StatAddress σ) (reason : BanReason) (now : Int) (bans : BanTable σ hasher) :
    Option (BanTable σ hasher) :=
  if a.role = .primary then some bans
  else bans[a.shard]?.map fun shard => bans.set a.shard (shard.insert a ⟨reason, now⟩)

def unban [DecidableEq ι] (a : StatAddress σ) (bans : BanTable σ hasher) : Option (BanTable σ hasher) :=
  bans[a.shard]?.map fun shard => bans.set a.shard (shard.remove a)

def isBanned (a : StatAddress σ) (bans : BanTable σ hasher) : Option Bool :=
  bans[a.shard]?.map fun shard => (shard.get a).isSome

def entry (a : StatAddress σ) (bans : BanTable σ hasher) : Option Ban :=
  bans[a.shard]?.bind fun shard => shard.get a

section Clones

variable {a b : StatAddress σ} {bans bans' : BanTable σ hasher}

theorem shard_of_eq (h : a.eq b = true) : b.shard = a.shard := by
  rw [← StatAddress.plain_shard, ← StatAddress.eq_iff.mp h, StatAddress.plain_shard]

theorem isBanned_of_entry {found : Option Ban} (hlt : a.shard < bans.length) (h : entry a bans = found) :
    isBanned a bans = some found.isSome := by
  unfold entry at h
  rw [isBanned, List.getElem?_eq_getElem hlt, Option.map_some]
  rw [List.getElem?_eq_getElem hlt, Option.bind_some] at h
  rw [h]

theorem entry_set (hlt : a.shard < bans.length) (h : a.eq b = true) (t : HashTable (addressKeys σ hasher) Ban) :
    entry b (bans.set a.shard t) = t.get b := by
  rw [entry, shard_of_eq h, List.getElem?_set_self hlt, Option.bind_some]

variable [DecidableEq ι] {reason : BanReason} {now : Int}

theorem get_insert (t : HashTable (addressKeys σ hasher) Ban) (a b : StatAddress σ) (v : Ban) :
    (t.insert a v).get b = if b.plain = a.plain then some v else t.get b := by
  rw [HashTable.get_insert]
  exact if_congr StatAddress.eq_iff rfl rfl

theorem get_remove (t : HashTable (addressKeys σ hasher) Ban) (a b : StatAddress σ) :
    (t.remove a).get b = if b.plain = a.plain then none else t.get b := by
  rw [HashTable.get_remove]
  exact if_congr StatAddress.eq_iff rfl rfl

/-- A ban is found through whatever is equal to the address it was inserted under. -/
theorem ban_found (h : ban a reason now bans = some bans') (hrole : a.role ≠ .primary) (hab : a.eq b = true) :
    entry b bans' = some ⟨reason, now⟩ ∧ b.shard < bans'.length := by
  rw [ban, if_neg hrole] at h
  obtain ⟨shard, hshard, rfl⟩ := Option.map_eq_some_iff.mp h
  obtain ⟨hlt, -⟩ := List.getElem?_eq_some_iff.mp hshard
  refine ⟨?_, by rwa [shard_of_eq hab, List.length_set]⟩
  rw [entry_set hlt hab, get_insert, if_pos (StatAddress.eq_iff.mp hab).symm]

theorem unban_found (h : unban a bans = some bans') (hab : a.eq b = true) :
    entry b bans' = none ∧ b.shard < bans'.length := by
  obtain ⟨shard, hshard, rfl⟩ := Option.map_eq_some_iff.mp h
  obtain ⟨hlt, -⟩ := List.getElem?_eq_some_iff.mp hshard
  refine ⟨?_, by rwa [shard_of_eq hab, List.length_set]⟩
  rw [entry_set hlt hab, get_remove, if_pos (StatAddress.eq_iff.mp hab).symm]

end Clones

/-! ## The map of plain addresses -/

section Represents

variable {table : BanTable σ hasher} {bans : BanList}

/-- Shard by shard, the table has under an address what the map has under the plain one. -/
def Represents (table : BanTable σ hasher) (bans : BanList) : Prop :=
  List.Forall₂ (fun t (shard : Bans) => ∀ a : StatAddress σ, t.get a = shard.lookup a.plain) table bans

theorem Represents.isBanned (h : Represents table bans) (a : StatAddress σ) :
    isBanned a table = Checkout.isBanned a.plain bans := by
  unfold BanTable.isBanned Checkout.isBanned
  rw [StatAddress.plain_shard]
  cases hshard : table[a.shard]? with
  | none =>
    have hout := List.getElem?_eq_none_iff.mp hshard
    rw [List.getElem?_eq_none_iff.mpr (h.length_eq ▸ hout)]
    rfl
  | some t =>
    obtain ⟨shard, hget, hsame⟩ := getElem?_of_left h hshard
    rw [hget, Option.map_some, Option.map_some, hsame a]

theorem Represents.set (h : Represents table bans) (s : Nat) {t : HashTable (addressKeys σ hasher) Ban}
    {shard : Bans} (hsame : ∀ a : StatAddress σ, t.get a = shard.lookup a.plain) :
    Represents (table.set s t) (bans.set s shard) := by
  unfold Represents at h ⊢
  induction h generalizing s with
  | nil => exact .nil
  | cons hhead hrest ih =>
    cases s with
    | zero => exact .cons hsame hrest
    | succ s => exact .cons hhead (ih s)

theorem Represents.start (pool : Install.ConnectionPool) :
    Represents (pool.banlist.map fun _ => (HashTable.empty : HashTable (addressKeys σ hasher) Ban))
      (BanList.start pool) := by
  unfold Represents BanList.start
  rw [List.forall₂_map_left_iff, List.forall₂_map_right_iff]
  exact List.forall₂_same.mpr fun _ _ _ => rfl

theorem Represents.change (h : Represents table bans) {s : Nat}
    {f : HashTable (addressKeys σ hasher) Ban → HashTable (addressKeys σ hasher) Ban} {g : Bans → Bans}
    (hsame : ∀ t shard, (∀ a : StatAddress σ, t.get a = AList.lookup a.plain shard) →
      ∀ a : StatAddress σ, (f t).get a = (g shard).lookup a.plain) :
    Option.Rel Represents (table[s]?.map fun t => table.set s (f t))
      (bans[s]?.map fun shard => bans.set s (g shard)) := by
  cases hshard : table[s]? with
  | none =>
    have hout := List.getElem?_eq_none_iff.mp hshard
    rw [List.getElem?_eq_none_iff.mpr (h.length_eq ▸ hout)]
    exact .none
  | some t =>
    obtain ⟨shard, hget, hboth⟩ := getElem?_of_left h hshard
    rw [hget]
    exact .some (h.set s (hsame t shard hboth))

variable [DecidableEq ι]

theorem Represents.ban (h : Represents table bans) (a : StatAddress σ) (reason : BanReason) (now : Int) :
    Option.Rel Represents (ban a reason now table) (Checkout.ban a.plain reason now bans) := by
  unfold BanTable.ban Checkout.ban
  rw [StatAddress.plain_role, StatAddress.plain_shard]
  split
  · exact .some h
  · refine h.change fun t shard hboth b => ?_
    rw [get_insert]
    by_cases hba : b.plain = a.plain
    · rw [if_pos hba, hba, AList.lookup_insert]
    · rw [if_neg hba, AList.lookup_insert_ne hba, hboth]

theorem Represents.unban (h : Represents table bans) (a : StatAddress σ) :
    Option.Rel Represents (unban a table) (Checkout.unban a.plain bans) := by
  unfold BanTable.unban Checkout.unban
  rw [StatAddress.plain_shard]
  refine h.change fun t shard hboth b => ?_
  rw [get_remove]
  by_cases hba : b.plain = a.plain
  · rw [if_pos hba, hba, AList.lookup_erase]
  · rw [if_neg hba, AList.lookup_erase_ne hba, hboth]

end Represents

/-! ## Runs -/

/-- An operation on the ban list, through whatever stands for the address. -/
inductive Operation (α : Type)
  | ban (a : α) (reason : BanReason) (now : Int)
  | unban (a : α)

def Operation.plain : Operation (StatAddress σ) → Operation Address
  | .ban a reason now => .ban a.plain reason now
  | .unban a => .unban a.plain

def apply [DecidableEq ι] (table : BanTable σ hasher) : Operation (StatAddress σ) → Option (BanTable σ hasher)
  | .ban a reason now => ban a reason now table
  | .unban a => unban a table

def applyPlain (bans : BanList) : Operation Address → Option BanList
  | .ban a reason now => Checkout.ban a reason now bans
  | .unban a => Checkout.unban a bans

theorem Represents.apply [DecidableEq ι] {table : BanTable σ hasher} {bans : BanList} (h : Represents table bans)
    (op : Operation (StatAddress σ)) : Option.Rel Represents (apply table op) (applyPlain bans op.plain) := by
  cases op with
  | ban a reason now => exact h.ban a reason now
  | unban a => exact h.unban a

/-- Whatever is done through whichever clones, the table and the map of plain addresses go on together: the
one panics if the other does, and what is banned in the one is banned in the other. -/
theorem Represents.run [DecidableEq ι] (ops : List (Operation (StatAddress σ))) :
    ∀ {table : BanTable σ hasher} {bans : BanList}, Represents table bans →
      Option.Rel Represents (ops.foldlM BanTable.apply table) ((ops.map Operation.plain).foldlM applyPlain bans) := by
  induction ops with
  | nil => exact fun h => .some h
  | cons op ops ih =>
    intro table bans h
    rw [List.map_cons, List.foldlM_cons, List.foldlM_cons]
    have hstep := h.apply op
    revert hstep
    generalize BanTable.apply table op = table', applyPlain bans op.plain = bans'
    rintro (hnext | -)
    · exact ih hnext
    · exact .none

end BanTable
/-- `Address` is a lawful key: the comparison is an equivalence that sees no statistics, at any level, what is
equal is hashed alike, and so a ban is found, and removed, through every clone. -/
theorem address_key_lawful [DecidableEq ι] (hasher : List HashWrite → ι) (a b c : StatAddress σ) :
    a.eq a = true ∧
      (a.eq b = true → b.eq a = true) ∧
        (a.eq b = true → b.eq c = true → a.eq c = true) ∧
          (∀ a' b' : StatAddress σ, a'.plain = a.plain → b'.plain = b.plain → a'.eq b' = a.eq b) ∧
            (a.eq b = true → a.hash = b.hash) ∧
              ∀ (bans bans' : BanTable σ hasher) (reason : BanReason) (now : Int),
                a.role ≠ .primary → BanTable.ban a reason now bans = some bans' → a.eq b = true → a.eq c = true →
                  BanTable.isBanned b bans' = some true ∧ BanTable.entry b bans' = some ⟨reason, now⟩ ∧
                    ∃ bans'', BanTable.unban b bans' = some bans'' ∧ BanTable.isBanned c bans'' = some false := by
  let K := addressKeys σ hasher
  refine ⟨K.refl a, K.symm, K.trans, ?_, fun h => ?_, ?_⟩
  · intro a' b' ha hb
    rw [StatAddress.eq_plain, StatAddress.eq_plain, ha, hb]
  · exact StatAddress.hash_of_plain a b (StatAddress.eq_iff.mp h)
  · intro bans bans' reason now hrole hban hab hac
    obtain ⟨hfound, hlt⟩ := BanTable.ban_found hban hrole hab
    have hunban : BanTable.unban b bans' = some (bans'.set b.shard (bans'[b.shard].remove b)) := by
      rw [BanTable.unban, List.getElem?_eq_getElem hlt, Option.map_some]
    obtain ⟨hgone, hltc⟩ := BanTable.unban_found hunban (K.trans (K.symm hab) hac)
    exact ⟨BanTable.isBanned_of_entry hlt hfound, hfound, _, hunban, BanTable.isBanned_of_entry hltc hgone⟩

end BanTable

namespace Sample

def mirrored (stats mirrorStats : Nat) : StatAddress Nat where
  id := 1
  host := "replica"
  port := 5432
  shard := 0
  database := "postgres"
  role := .replica
  replicaNumber := 0
  addressIndex := 0
  username := "sharding_user"
  poolName := "sharded_db"
  mirrors := [⟨0, "mirror", 5433, 0, "postgres", .replica, 0, 0, "sharding_user", "sharded_db", [], mirrorStats⟩]
  stats := stats

/-- The ban of an address, lifted and looked up through clones with other statistics. -/
theorem clones_share_ban :
    (mirrored 1 2).eq (mirrored 3 4) = true ∧ (mirrored 1 2).hash = (mirrored 3 4).hash ∧
      ∃ bans' : BanTable Nat List.length, BanTable.ban (mirrored 1 2) .failedCheckout 10 [.empty] = some bans' ∧
        BanTable.isBanned (mirrored 3 4) bans' = some true ∧
          ∃ bans'', BanTable.unban (mirrored 3 4) bans' = some bans'' ∧
            BanTable.isBanned (mirrored 5 6) bans'' = some false := by
  have hab : (mirrored 1 2).eq (mirrored 3 4) = true := by rw [StatAddress.eq_iff]; rfl
  have hac : (mirrored 1 2).eq (mirrored 5 6) = true := by rw [StatAddress.eq_iff]; rfl
  obtain ⟨-, -, -, -, hhash, hbans⟩ :=
    address_key_lawful List.length (mirrored 1 2) (mirrored 3 4) (mirrored 5 6)
  obtain ⟨hbanned, -, hunban⟩ := hbans [.empty] _ .failedCheckout 10 (by decide) rfl hab hac
  exact ⟨hab, hhash hab, _, rfl, hbanned, hunban⟩

end Sample

end PgCat.Checkout
