import PgCat.Checkout.Get
import PgCat.Session.Rules

/-!
# Sessions — the checkout of a session is the checkout of the pool

`Session.Pool` leaves the order of the candidates, the ban list and the clock to the environment; here
they are those of `Checkout.get`.  What a checkout finds at each address is turned into the answers that
the environment of a session gives, and on these answers `get` of the session ends at the same address and
bans the same addresses.
-/

namespace PgCat.Checkout

open Lib
open Config (Role)
open Install (Address ConnectionPool)
open Session (Conn Event Input World)

def Result.address : Result → Option Address
  | .ok a => some a
  | _ => none

namespace Visit

/-- The health check is due. -/
def isDue (pool : ConnectionPool) (v : Visit) : Bool :=
  isBanned v.address v.bans = some true ||
    match v.turn.attempt with
    | .connected (some ms) _ => ms > pool.settings.healthcheckDelay
    | _ => false

/-- What the environment of a session answers.  A health check is passed, or its query is not sent. -/
def inputs (pool : ConnectionPool) (conn : Session.Address → Conn) (v : Visit) : List Input :=
  match v.outcome with
  | none => []
  | some .skipped => [.candidate .banned]
  | some .failed => [.candidate .refused]
  | some .unhealthy => [.candidate (.stale (conn v.address.session)), .sendFailed]
  | some .used =>
    if v.isDue pool then
      [.candidate (.stale (conn v.address.session)), .sent [[.ofChar 'Z' [73]]], .arrives]
    else [.candidate (.fresh (conn v.address.session))]

/-- The ban that follows. -/
def ban (v : Visit) : List (Session.Address × Session.BanReason) :=
  match v.outcome with
  | some .failed => if v.address.role = .primary then [] else [(v.address.session, .failedCheckout)]
  | some .unhealthy => if v.address.role = .primary then [] else [(v.address.session, .failedHealthCheck)]
  | _ => []

end Visit

def banned : Event → Option (Session.Address × Session.BanReason)
  | .banned a reason => some (a, reason)
  | _ => none

/-- The bans of a session, the last one first. -/
def World.bans (w : World) : List (Session.Address × Session.BanReason) :=
  w.trace.filterMap banned

/-- A session that started in `w` ends as the run: with its address and its bans, at the given answers. -/
structure Run.Ends (run : Run) (w : World) (rest : List Input) (found : Option Session.Address) (w' : World) :
    Prop where
  found : found = run.result.address.map Address.session
  script : w'.script = rest
  bans : World.bans w' = run.visits.reverse.flatMap Visit.ban ++ World.bans w

section Play

variable {pool : ConnectionPool} {conn : Session.Address → Conn}
  (hconn : ∀ a, (conn a).usable a ∧ (conn a).unread = []) (fuel : Nat) (rest : List Input)

theorem ban_bans (a : Address) (reason : Session.BanReason) (w : World) :
    wp (Session.ban a.session reason)
      (fun _ w' => w'.script = w.script ∧
        World.bans w' = (if a.role = .primary then [] else [(a.session, reason)]) ++ World.bans w)
      (fun _ _ => False) w := by
  change wp (if a.role = .primary then _ else _) _ _ w
  split
  · exact ⟨rfl, rfl⟩
  · exact ⟨rfl, rfl⟩

include hconn

theorem tryCandidate_visit {v : Visit} {outcome : Outcome} (hv : v.outcome = some outcome) (w : World) :
    wp (Session.tryCandidate (fuel + 1) v.address.session)
      (fun found w' => found = decide (outcome = .used) ∧ w'.script = rest ∧
        World.bans w' = v.ban ++ World.bans w)
      (fun _ _ => False) { w with script := v.inputs pool conn ++ rest } := by
  obtain ⟨husable, hunread⟩ := hconn v.address.session
  have hout : Session.checkOut v.address.session (conn v.address.session) = (do
      Session.modifyConn fun _ => conn v.address.session
      Session.emitConn .checkedOut) := if_pos husable
  unfold Visit.inputs Visit.ban
  rw [hv]
  cases outcome with
  | skipped => exact ⟨rfl, rfl, rfl⟩
  | failed =>
    change wp (Session.ban v.address.session .failedCheckout >>= _) _ _ _
    refine wp_seq (ban_bans v.address _ _) ?_
    exact fun _ w' h => ⟨rfl, h⟩
  | unhealthy =>
    change wp (Session.checkOut v.address.session (conn v.address.session) >>= _) _ _ _
    rw [hout]
    change wp (Session.ban v.address.session .failedHealthCheck >>= _) _ _ _
    refine wp_seq (ban_bans v.address _ _) ?_
    exact fun _ w' h => ⟨rfl, h⟩
  | used =>
    dsimp only
    split
    · change wp (Session.checkOut v.address.session (conn v.address.session) >>= _) _ _ _
      rw [hout]
      generalize conn v.address.session = c at hunread
      obtain ⟨id, server, backend, unread, lastRead, lastReady⟩ := c
      subst hunread
      exact ⟨rfl, rfl, rfl⟩
    · change wp (Session.checkOut v.address.session (conn v.address.session) >>= _) _ _ _
      rw [hout]
      exact ⟨rfl, rfl, rfl⟩

theorem tryCandidates_ends {turns : Nat → Turn} : ∀ (l : List Address) (i : Nat) (bans : BanList) (w : World),
    (tryCandidates pool turns i l bans).result ≠ .panicked →
      wp (Session.tryCandidates (fuel + 1) (l.map Address.session))
        ((tryCandidates pool turns i l bans).Ends w rest) (fun _ _ => False)
        { w with script := (tryCandidates pool turns i l bans).visits.flatMap (Visit.inputs pool conn) ++ rest } := by
  intro l
  induction l with
  | nil => exact fun i bans w _ => ⟨rfl, rfl, rfl⟩
  | cons a l ih =>
    intro i bans w hreturns
    rw [List.map_cons, Session.tryCandidates]
    rcases @tryCandidates_cons pool turns a l i bans with
      hrun | ⟨bans', -, hrun⟩ | ⟨outcome, bans', hgoes, -, hvisits, hresult⟩
    · rw [hrun] at hreturns
      exact absurd rfl hreturns
    · rw [hrun, List.flatMap_singleton]
      refine wp_seq (tryCandidate_visit hconn fuel rest rfl w) ?_
      rintro found w₁ ⟨rfl, hscript, hbans⟩
      exact ⟨rfl, hscript, by simpa using hbans⟩
    · rw [hresult] at hreturns
      rw [hvisits, List.flatMap_cons, List.append_assoc]
      refine wp_seq (tryCandidate_visit hconn fuel _ rfl w) ?_
      rintro found w₁ ⟨rfl, hscript, hbans⟩
      rw [decide_eq_false hgoes]
      have hrest := ih (i + 1) bans' w₁ hreturns
      rw [← hscript] at hrest
      refine wp_imp hrest ?_
      rintro found w₂ ⟨hfound, hscript₂, hbans₂⟩
      refine ⟨by rw [hfound, hresult], hscript₂, ?_⟩
      rw [hbans₂, hbans, hvisits]
      simp

end Play

/-- Every checkout that does not panic is one of a session, whose environment answers as the pool and its ban
list do: it ends at the same address, and with the same bans. -/
theorem get_ends {pool : ConnectionPool} {p : Session.ConnectionPool}
    (hp : p.addresses = pool.addresses.map fun addresses => addresses.map Address.session)
    {conn : Session.Address → Conn} (hconn : ∀ a, (conn a).usable a ∧ (conn a).unread = [])
    (env : Environment) (s : Nat) (role : Option Role) (bans : BanList)
    (hreturns : (get pool env s role bans).result ≠ .panicked) (fuel : Nat) (rest : List Input) (w : World) :
    ∃ addresses, order pool env s role = some addresses ∧
      wp (p.get (fuel + 1) s role) ((get pool env s role bans).Ends w rest) (fun _ _ => False)
        { w with script := .order (addresses.map Address.session) ::
          (get pool env s role bans).visits.flatMap (Visit.inputs pool conn) ++ rest } := by
  unfold get at hreturns ⊢
  cases horder : order pool env s role with
  | none =>
    rw [horder] at hreturns
    exact absurd rfl hreturns
  | some addresses =>
    rw [horder] at hreturns
    obtain ⟨row, hrow, hperm, -⟩ := order_spec horder
    have hsession : p.addresses[s]? = some (row.map Address.session) := by
      rw [hp, List.getElem?_map, hrow, Option.map_some]
    have hfilter : (row.map Address.session).filter (fun a => a.role.matches role) =
        (row.filter fun a => a.role.matches role).map Address.session := List.filter_map
    have hshuffled : (addresses.map Address.session).isPerm
        ((row.map Address.session).filter fun a => a.role.matches role) = true := by
      rw [hfilter, List.isPerm_iff]
      exact hperm.map _
    refine ⟨addresses, rfl, ?_⟩
    rw [Session.ConnectionPool.get, hsession]
    change wp ((if _ then pure _ else throw _) >>= _) _ _ _
    rw [if_pos hshuffled]
    exact tryCandidates_ends hconn fuel rest addresses 0 bans w hreturns

end PgCat.Checkout
