import PgCat.Session.Client

/-!
# Moves — what serving a client does to the world

`Move p` lists once and for all what can happen to a connection the client holds; the scope `p` says
whether messages of the client are read and forwarded, and whether the entry of the client in the
`client_server_map` may change.  `Pooling` does the same for `ConnectionPool::get` and `Route` for everything
in front of a checkout.  That the functions of the source are sequences of such steps is shown in `Steps`.
-/

namespace PgCat.Session

open Lib Protocol Router

/-- Events that only report. -/
def Event.isNote : Event → Bool
  | .left _ _ | .rolledBack _ | .discarded _ | .cleanedUp _ | .replied _ _
  | .banned _ _ | .stat _ | .cancelled _ => true
  | _ => false

/-- Changes to the client that keep who it is. -/
structure Client.Same (c c' : Client) : Prop where
  key : c'.key = c.key
  transactionMode : c'.transactionMode = c.transactionMode
  admin : c'.admin = c.admin

/-- Changes to the server that keep what the last messages said about it. -/
structure Server.Same (s s' : Server) : Prop where
  inTransaction : s'.inTransaction = s.inTransaction
  dataAvailable : s'.dataAvailable = s.dataAvailable
  bad : s.bad = true → s'.bad = true
  target : s'.target = s.target

/-! ## Programs as sequences of steps -/

/-- To take an input off the script is a step, whatever input it is. -/
class Blind (S : World → World → Prop) : Prop where
  input : ∀ w rest, S w { w with script := rest }

/-- Every run is a sequence of `S` steps.  One that waits for good may have stopped at an input that it does not
take, which is a step for a blind relation only. -/
abbrev Runs (S : World → World → Prop) {α : Type} (m : Program α) : Prop :=
  Lib.Runs (fun stop => stop = .pending ∧ ¬ Blind S) S m

namespace Runs

variable {S : World → World → Prop} {α : Type} {m : Program α}

theorem caught {handler : Stop → Program α} (hm : Runs S m) (hpending : handler .pending = throw .pending)
    (hh : ∀ stop, Runs S (handler stop)) : Runs S (tryCatch m handler) := by
  refine Lib.Runs.caught hm ?_ hh
  rintro stop ⟨rfl, _⟩
  exact hpending

theorem preserves [hS : Blind S] {I : World → Prop} (hm : Runs S m) (hI : ∀ w w', S w w' → I w → I w') :
    Preserves I m := fun w hw =>
  wp_mono (hm.keeps hI w hw) (fun _ _ h => h) (fun _ _ h => h.resolve_left fun hpending => hpending.2 hS)

end Runs

/-- Steps that leave the connection, the router and the map alone. -/
inductive Still : World → World → Prop
  | input (w : World) (rest : List Input) : Still w { w with script := rest }
  | note (w : World) (e : Event) (h : e.isNote = true) : Still w { w with trace := e :: w.trace }
  | client (w : World) (c : Client) (h : w.client.Same c) : Still w { w with client := c }

instance : Blind Still where
  input := .input

/-- What a part of the program may do besides talking to its connection. -/
structure Scope where
  forward : Bool
  bind : Bool

inductive Move (p : Scope) : World → World → Prop
  | still {w w' : World} (h : Still w w') : Move p w w'
  | server (w : World) (s : Server) (h : w.conn.server.Same s) :
      Move p w { w with conn := { w.conn with server := s } }
  | message (w : World) (m : Message) (h : p.forward = true) :
      Move p w { w with trace := .message m :: w.trace }
  | sent (w : World) (m : Message) (reply : List Message) (fromClient : Bool)
      (h : fromClient = true → p.forward = true) :
      Move p w { w with
        conn := w.conn.push m reply
        trace := .sent w.conn m reply fromClient :: w.trace }
  | received (w : World) (m : Message) (rest : List Message) (h : w.conn.unread = m :: rest) :
      Move p w { w with
        conn := w.conn.taken m rest
        trace := .received w.conn m :: w.trace }
  | claimed (w : World) (h : p.bind = true) :
      Move p w { w with
        map := Function.update w.map w.client.key (some w.conn.server.target)
        trace := .claimed w.conn :: w.trace }
  | released (w : World) (h : p.bind = true) :
      Move p w { w with
        map := Function.update w.map w.client.key none
        trace := .released :: w.trace }

variable {p : Scope} {f r : Bool} {w w' : World}

instance : Blind (Move p) where
  input w rest := .still (.input w rest)

theorem Move.bad (h : Move p w w') (hw : w.conn.server.bad = true) : w'.conn.server.bad = true := by
  cases h with
  | still h =>
    cases h with
    | _ => exact hw
  | server s hs => exact hs.bad hw
  | received m rest _ => exact Server.take_bad _ m hw
  | _ => exact hw

def Event.ofMove (p : Scope) : Event → Bool
  | .message _ => p.forward
  | .sent _ _ _ fromClient => !fromClient || p.forward
  | .received _ _ => true
  | .claimed _ | .released => p.bind
  | e => e.isNote

theorem Move.trace (h : Move p w w') :
    w'.trace = w.trace ∨ ∃ e, e.ofMove p = true ∧ w'.trace = e :: w.trace := by
  cases h with
  | still h =>
    cases h with
    | input rest => exact .inl rfl
    | note e he =>
      refine .inr ⟨e, ?_, rfl⟩
      cases e with
      | message m | sent c m reply fromClient | claimed c | released | received c m => cases he
      | _ => exact he
    | client c _ => exact .inl rfl
  | server s _ => exact .inl rfl
  | message m h => exact .inr ⟨.message m, h, rfl⟩
  | sent m reply fromClient h =>
    refine .inr ⟨_, ?_, rfl⟩
    cases fromClient with
    | false => rfl
    | true => simpa [Event.ofMove] using h
  | received m rest _ => exact .inr ⟨_, rfl, rfl⟩
  | claimed h => exact .inr ⟨.claimed w.conn, h, rfl⟩
  | released h => exact .inr ⟨.released, h, rfl⟩

/-- What a sequence of still steps amounts to. -/
structure Quiet (w w' : World) : Prop where
  conn : w'.conn = w.conn
  client : w.client.Same w'.client
  trace : ∃ es, w'.trace = es ++ w.trace ∧ ∀ e ∈ es, e.isNote = true

theorem Quiet.refl (w : World) : Quiet w w :=
  ⟨rfl, ⟨rfl, rfl, rfl⟩, [], rfl, by simp⟩

theorem Still.quiet {w₀ : World} (h : Still w w') (hw : Quiet w₀ w) : Quiet w₀ w' := by
  rcases hw with ⟨hconn, hclient, es, htrace, hes⟩
  cases h with
  | input rest => exact ⟨hconn, hclient, es, htrace, hes⟩
  | note e he =>
    refine ⟨hconn, hclient, e :: es, by simp [htrace], ?_⟩
    intro e' he'
    rcases List.mem_cons.mp he' with rfl | h'
    · exact he
    · exact hes e' h'
  | client c hc =>
    exact ⟨hconn, ⟨hc.key.trans hclient.key, hc.transactionMode.trans hclient.transactionMode,
      hc.admin.trans hclient.admin⟩, es, htrace, hes⟩

theorem quiet {α : Type} {m : Program α} (h : Runs Still m) (w : World) :
    wp m (fun _ => Quiet w) (fun _ => Quiet w) w :=
  h.preserves (fun _ _ => Still.quiet) w (.refl w)

/-! ## Conditions on all events so far -/

/-- Every event of the trace meets a condition. -/
def World.All (A : Event → Bool) (w : World) : Prop :=
  ∀ e ∈ w.trace, A e = true

section All

variable {A : Event → Bool} {w w' : World}

theorem World.All.tail {e : Event} (h : w'.All A) (htrace : w'.trace = e :: w.trace) : w.All A ∧ A e = true :=
  ⟨fun e' he' => h e' (by simp [htrace, he']), h e (by simp [htrace])⟩

theorem World.All.cons {e : Event} (h : w.All A) (htrace : w'.trace = e :: w.trace) (he : A e = true) :
    w'.All A := by
  intro e' he'
  rw [htrace] at he'
  rcases List.mem_cons.mp he' with rfl | he'
  · exact he
  · exact h e' he'

theorem Quiet.all (h : Quiet w w') (hw : w'.All A) : w.All A := by
  rcases h.trace with ⟨es, htrace, _⟩
  exact fun e he => hw e (by simp [htrace, he])

theorem Move.all (h : Move p w w') (hw : w'.All A) : w.All A := by
  cases h with
  | still h => exact (h.quiet (.refl _)).all hw
  | server s _ => exact hw
  | _ => exact (hw.tail rfl).1

theorem missed {α : Type} {m : Program α} (hm : Runs (Move p) m) (hw : ¬ w.All A) :
    wp m (fun _ w' => ¬ w'.All A) (fun _ w' => ¬ w'.All A) w :=
  hm.preserves (fun _ _ h hn hw' => hn (h.all hw')) w hw

end All

/-- A fact about an event and what happened before it held at each event so far. -/
def World.Each (P : Event → List Event → Prop) (w : World) : Prop :=
  ∀ e t, e :: t <:+ w.trace → P e t

theorem World.Each.cons {P : Event → List Event → Prop} {w w' : World} {e : Event} (h : w.Each P)
    (htrace : w'.trace = e :: w.trace) (he : P e w.trace) : w'.Each P := by
  intro e' t hsuffix
  rw [htrace] at hsuffix
  rcases List.suffix_cons_iff.mp hsuffix with heq | hsuffix
  · cases heq
    exact he
  · exact h e' t hsuffix

/-! ## What was observed -/

/-- What `f` makes of the events of a trace, oldest first. -/
def observed {α : Type} (f : Event → Option α) (trace : List Event) : List α :=
  trace.reverse.filterMap f

@[simp] theorem observed_cons {α : Type} (f : Event → Option α) (e : Event) (trace : List Event) :
    observed f (e :: trace) = observed f trace ++ (f e).toList := by
  cases h : f e with
  | none => simp [observed, h]
  | some a => simp [observed, h]

/-! ## Routing -/

/-- Events of the part of the loop in front of a checkout. -/
def Event.isRouting : Event → Bool
  | .inferred _ _ | .lookup _ _ _ | .command _ _ | .get _ _ _ _ => true
  | _ => false

/-- What `ConnectionPool::get` does. -/
inductive Pooling : World → World → Prop
  | move {w w' : World} (h : Move ⟨false, false⟩ w w') : Pooling w w'
  | checkedOut (w : World) (c : Conn) (h : c.server.bad = false) :
      Pooling w { w with conn := c, trace := .checkedOut c :: w.trace }
  -- A health check that failed or panicked.
  | dropped (w : World) (exit : Exit)
      (h : exit = .unhealthy ∧ w.conn.server.bad = true ∨ exit = .panicked) :
      Pooling w { w with trace := .dropped w.conn exit :: w.trace }

inductive Route : World → World → Prop
  | pooling {w w' : World} (h : Pooling w w') : Route w w'
  | message (w : World) (m : Message) : Route w { w with trace := .message m :: w.trace }
  | router (w : World) (r : QueryRouter) : Route w { w with router := r }
  | routing (w : World) (e : Event) (h : e.isRouting = true) :
      Route w { w with trace := e :: w.trace }

/-- Events that may happen in front of a checkout. -/
def Event.ofRoute : Event → Bool
  | .message _ | .checkedOut _ | .dropped _ _ => true
  | e => e.isRouting || e.ofMove ⟨false, false⟩

theorem Route.trace (h : Route w w') :
    w'.trace = w.trace ∨ ∃ e, e.ofRoute = true ∧ w'.trace = e :: w.trace := by
  cases h with
  | pooling h =>
    cases h with
    | move h =>
      refine h.trace.imp id fun ⟨e, he, htrace⟩ => ⟨e, ?_, htrace⟩
      cases e with
      | message m => rfl
      | checkedOut c => rfl
      | dropped c exit => rfl
      | _ => simp [Event.ofRoute, he]
    | checkedOut c _ | dropped exit _ => exact .inr ⟨_, rfl, rfl⟩
  | message m => exact .inr ⟨_, rfl, rfl⟩
  | router r => exact .inl rfl
  | routing e he =>
    refine .inr ⟨e, ?_, rfl⟩
    cases e with
    | message m => rfl
    | checkedOut c => rfl
    | dropped c exit => rfl
    | _ => simp [Event.ofRoute, he]

end PgCat.Session
