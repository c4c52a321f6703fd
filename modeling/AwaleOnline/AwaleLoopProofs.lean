import AwaleOnline.SimulationProofs
import AwaleOnline.AwaleDisplayProofs

/-!
# The server's main loop: `app`

One round of the loop waits in `select` for the keyboard, the listening socket or a client, and
serves one of them: the keyboard before a new connection, a new connection before the clients,
and of the clients the first one in the table.

* **`step`** — the loop among its clients: what they do, and one round;
* **`system_reachable`** — the loop is one way to run the system, so what holds in every run of the
  system holds in it;
* **`max_covers`** — `select` watches every client;
* **`round_isSome_iff`** — a round is made when something waits, unless it ends the server;
* **`drains`** — rounds with nothing new take one item each of what is waiting, and block when
  nothing is;
* **`served_after`** — a client is served after the connections and the clients in front of it.
-/

namespace AwaleLoop

open AwaleProtocol AwaleServer AwaleEffect AwaleBounds AwaleRoster AwaleDescriptor
open AwaleClient AwaleSystem AwaleTurn

/-- The system, `max` of `app`, what `accept` will return for the connections that wait, and
    whether something was typed at the server and the loop is over. -/
structure Loop where
  sys : System
  max : Int
  backlog : List Int
  key : Bool
  stopped : Bool

/-- What can happen: somebody connects, somebody types at the server, a client does something, or
    the server goes through the loop once. -/
inductive Event where
  | connect (csock : Int)
  | key
  | input (c : Nat) (line : CString)
  | receive (c : Nat)
  | round (rand : UInt32)

/-- `FD_ISSET(clients[i].sock, &rdfs)`: a frame or the end of the connection can be read.  `select`
    looks at the descriptors up to `max`. -/
def Ready (l : Loop) (i : Nat) : Prop :=
  (l.sys.server.clients i).sock ≤ l.max
    ∧ ((l.sys.linkOf i).up ≠ [] ∨ (l.sys.linkOf i).closed = true)

instance (l : Loop) (i : Nat) : Decidable (Ready l i) := inferInstanceAs (Decidable (_ ∧ _))

/-- The client that a round without a new connection serves. -/
def firstReady (l : Loop) : Option Nat :=
  (List.range l.sys.server.nbClients).find? fun i => Ready l i

/-- The move of the system that a round makes, if any. -/
def served (l : Loop) (rand : UInt32) : Option Move :=
  match l.backlog with
  | csock :: _ => some (.accept csock)
  | [] => (firstReady l).map fun i =>
      if (l.sys.linkOf i).up = [] then .hangUp i else .serve i rand

/-- Behind a move of the server. -/
def goOn (l : Loop) (sys : System) : Loop :=
  match l.backlog with
  | csock :: backlog =>
      { l with sys := sys, max := if csock > l.max then csock else l.max, backlog := backlog }
  | [] => { l with sys := sys }

/-- One round; `none` when `select` blocks or the handlers leave the defined behaviour. -/
def round (l : Loop) (rand : UInt32) : Option (Loop × List Sent) :=
  if l.stopped then none
  -- stop process when type on keyboard
  else if l.key then some ({ l with stopped := true }, [])
  -- `accept` failed: perror("accept()"); continue;
  else if l.backlog.head? = some (-1) then some ({ l with backlog := l.backlog.tail }, [])
  else (served l rand).bind fun e => (move l.sys e).map fun r => (goOn l r.1, r.2)

def step (l : Loop) : Event → Option (Loop × List Sent)
  | .connect csock => some ({ l with backlog := l.backlog ++ [csock] }, [])
  | .key => some ({ l with key := true }, [])
  | .input c line => (move l.sys (.input c line)).map fun r => ({ l with sys := r.1 }, r.2)
  | .receive c => (move l.sys (.receive c)).map fun r => ({ l with sys := r.1 }, r.2)
  | .round rand => round l rand

/-- The move of the system behind an event. -/
def moveOf (l : Loop) : Event → Option Move
  | .connect _ => none
  | .key => none
  | .input c line => some (.input c line)
  | .receive c => some (.receive c)
  | .round rand =>
      if l.stopped ∨ l.key ∨ l.backlog.head? = some (-1) then none else served l rand

/-- Before the first round `max` is the listening socket. -/
def Initial (l : Loop) : Prop :=
  AwaleSystem.Initial l.sys ∧ l.backlog = [] ∧ l.key = false ∧ l.stopped = false

/-- A condition on the moves of the system, as one on the events. -/
def Under (C : System → Move → Prop) (l : Loop) (e : Event) : Prop :=
  ∀ m ∈ moveOf l e, C l.sys m

abbrev Reachable (C : System → Move → Prop) : Loop → Prop :=
  GuardedRun.Reachable step (Under C) Initial

variable {l l' : Loop} {e : Event} {m : Move} {rand : UInt32} {out : List Sent} {i j c : Nat}
  {C : System → Move → Prop}

/-! ## The loop is a run of the system -/

/-- **INVERSION OF A ROUND.** -/
theorem round_cases (h : round l rand = some (l', out)) :
    l.stopped = false
      ∧ ((l.key = true ∧ l' = { l with stopped := true } ∧ out = [])
        ∨ (l.key = false ∧ (∃ rest, l.backlog = -1 :: rest ∧ l' = { l with backlog := rest })
          ∧ out = [])
        ∨ (l.key = false ∧ l.backlog.head? ≠ some (-1) ∧ ∃ m sys, served l rand = some m
          ∧ move l.sys m = some (sys, out) ∧ l' = goOn l sys)) := by
  simp only [round] at h
  split at h
  · cases h
  · rename_i hover
    refine ⟨by simpa using hover, ?_⟩
    split at h
    · rename_i hkey
      obtain ⟨rfl, rfl⟩ := Prod.mk.inj (Option.some.inj h)
      exact Or.inl ⟨hkey, rfl, rfl⟩
    · rename_i hkey
      have hkey' : l.key = false := by simpa using hkey
      split at h
      · rename_i hhead
        obtain ⟨rfl, rfl⟩ := Prod.mk.inj (Option.some.inj h)
        refine Or.inr (Or.inl ⟨hkey', ⟨l.backlog.tail, ?_, rfl⟩, rfl⟩)
        exact (List.cons_head?_tail hhead).symm
      · rename_i hhead
        obtain ⟨m, hm, hr⟩ := Option.bind_eq_some_iff.mp h
        obtain ⟨r, hmove, heq⟩ := Option.map_eq_some_iff.mp hr
        obtain ⟨rfl, rfl⟩ := Prod.mk.inj heq
        exact Or.inr (Or.inr ⟨hkey', hhead, m, r.1, hm, hmove, rfl⟩)

theorem goOn_sys (l : Loop) (sys : System) : (goOn l sys).sys = sys := by
  simp only [goOn]
  split <;> rfl

/-- An event is a move of the system, or the system does not see it. -/
theorem step_move (h : step l e = some (l', out)) :
    (moveOf l e = none ∧ l'.sys = l.sys)
      ∨ ∃ m, moveOf l e = some m ∧ move l.sys m = some (l'.sys, out) := by
  cases e with
  | connect csock =>
      obtain ⟨rfl, -⟩ := Prod.mk.inj (Option.some.inj h)
      exact Or.inl ⟨rfl, rfl⟩
  | key =>
      obtain ⟨rfl, -⟩ := Prod.mk.inj (Option.some.inj h)
      exact Or.inl ⟨rfl, rfl⟩
  | input c line =>
      obtain ⟨r, hr, heq⟩ := Option.map_eq_some_iff.mp h
      obtain ⟨rfl, rfl⟩ := Prod.mk.inj heq
      exact Or.inr ⟨_, rfl, hr⟩
  | receive c =>
      obtain ⟨r, hr, heq⟩ := Option.map_eq_some_iff.mp h
      obtain ⟨rfl, rfl⟩ := Prod.mk.inj heq
      exact Or.inr ⟨_, rfl, hr⟩
  | round rand =>
      obtain ⟨hover, ⟨hkey, rfl, -⟩ | ⟨-, ⟨rest, hb, rfl⟩, -⟩
        | ⟨hkey, hhead, m, sys, hm, hmove, rfl⟩⟩
        := round_cases h
      · exact Or.inl ⟨if_pos (Or.inr (Or.inl hkey)), rfl⟩
      · exact Or.inl ⟨if_pos (Or.inr (Or.inr (by rw [hb]; rfl))), rfl⟩
      · refine Or.inr ⟨m, ?_, ?_⟩
        · have hno : ¬ (l.stopped = true ∨ l.key = true ∨ l.backlog.head? = some (-1)) := by
            rw [hover, hkey]
            rintro (h | h | h)
            · cases h
            · cases h
            · exact hhead h
          exact (if_neg hno).trans hm
        · rw [goOn_sys]
          exact hmove

/-- **THE LOOP RUNS THE SYSTEM.** -/
theorem system_reachable (h : Reachable C l) : AwaleSystem.Reachable C l.sys := by
  refine GuardedRun.Reachable.project (f := Loop.sys) (fun _ hi => hi.1) ?_ h
  intro l e l' out hC hs
  rcases step_move hs with ⟨-, heq⟩ | ⟨m, hm, hmove⟩
  · exact Or.inl heq
  · exact Or.inr ⟨m, out, hC m hm, hmove⟩

theorem known (h : Reachable C l) : Known l.sys.server :=
  have hserver := server_reachable (system_reachable h)
  ⟨distinct_reachable hserver, sized_reachable hserver, founded_reachable hserver⟩

/-! ## What a round does to the queues -/

/-- What can be read on a connection: the requests, and the end of it. -/
def load (lk : Link) : Nat := lk.up.length + if lk.closed then 1 else 0

theorem load_eq_zero {lk : Link} : load lk = 0 ↔ ¬ (lk.up ≠ [] ∨ lk.closed = true) := by
  rw [load]
  cases hclosed : lk.closed with
  | false => simp
  | true => simp

/-- `select` watches every client. -/
def Covers (l : Loop) : Prop :=
  ∀ i < l.sys.server.nbClients, (l.sys.server.clients i).sock ≤ l.max

/-- The clients after a move that is no new connection. -/
theorem clients_moved {sys sys' : System} (hm : Moved sys m sys' out)
    (hno : ∀ csock, m ≠ .accept csock) :
    ∀ i < sys'.server.nbClients, ∃ k < sys.server.nbClients,
      (sys'.server.clients i).sock = (sys.server.clients k).sock := by
  cases hm with
  | accepted _ _ _ => exact absurd rfl (hno _)
  | exited _ _ => exact fun i hi => ⟨i, hi, rfl⟩
  | typed _ _ _ _ => exact fun i hi => ⟨i, hi, rfl⟩
  | received _ _ _ => exact fun i hi => ⟨i, hi, rfl⟩
  | served _ _ heff => exact fun i hi => ⟨i, heff.counts ▸ hi, heff.sock i⟩
  | @hungUp c s₁ hc _ _ hd =>
      intro i hi
      obtain ⟨hskip, hentry, -⟩ := linkOf_hungUp (b := s₁.buffer) hc hd hi
      exact ⟨_, hskip, congrArg Client.sock hentry⟩

theorem covers_moved {sys : System} {max : Int} (h : Covers l) (hm : Moved l.sys m sys out)
    (hmax : l.max ≤ max) (hnew : ∀ csock, m = .accept csock → csock ≤ max) :
    ∀ i < sys.server.nbClients, (sys.server.clients i).sock ≤ max := by
  by_cases hacc : ∃ csock, m = .accept csock
  · obtain ⟨csock, rfl⟩ := hacc
    have hle := hnew csock rfl
    cases hm with
    | accepted _ _ _ =>
        intro i hi
        show (Function.update l.sys.server.clients _ _ i).sock ≤ max
        by_cases hlast : i = l.sys.server.nbClients
        · rw [hlast, Function.update_self]
          exact hle
        · have hi' : i < l.sys.server.nbClients + 1 := hi
          rw [Function.update_of_ne hlast]
          exact Int.le_trans (h i (by omega)) hmax
  · intro i hi
    obtain ⟨k, hk, hsock⟩ := clients_moved hm (fun csock heq => hacc ⟨csock, heq⟩) i hi
    rw [hsock]
    exact Int.le_trans (h k hk) hmax

/-- What a round serves. -/
theorem served_cases (h : served l rand = some m) :
    (∃ csock rest, l.backlog = csock :: rest ∧ m = .accept csock)
      ∨ (l.backlog = [] ∧ ∃ i < l.sys.server.nbClients, Ready l i ∧ (∀ j < i, ¬ Ready l j)
        ∧ m = if (l.sys.linkOf i).up = [] then .hangUp i else .serve i rand) := by
  simp only [served] at h
  split at h
  · rename_i csock rest hb
    exact Or.inl ⟨csock, rest, hb, (Option.some.inj h).symm⟩
  · rename_i hb
    obtain ⟨i, hi, rfl⟩ := Option.map_eq_some_iff.mp h
    obtain ⟨hlt, hready, hfirst⟩ := SlotArray.search_eq_some.mp hi
    exact Or.inr ⟨hb, i, hlt, hready, hfirst, rfl⟩

/-- **`max` COVERS** every descriptor, also after clients have left. -/
theorem max_covers (h : Reachable C l) : Covers l := by
  refine GuardedRun.Reachable.invariant_of ?_ ?_ h
  · rintro l ⟨⟨⟨b, hb⟩, -⟩, -⟩ i hi
    rw [hb] at hi
    exact absurd hi (Nat.not_lt_zero i)
  · intro l e l' out hr hI _ hs
    have hfits := fits (system_reachable hr)
    have hsame : ∀ {m sys}, (∀ csock, m ≠ .accept csock) → move l.sys m = some (sys, out) →
        ∀ i < sys.server.nbClients, (sys.server.clients i).sock ≤ l.max := fun hno hmove =>
      covers_moved hI (move_moved hfits hmove) (Int.le_refl _) fun csock heq =>
        absurd heq (hno csock)
    cases e with
    | connect csock =>
        obtain ⟨rfl, -⟩ := Prod.mk.inj (Option.some.inj hs)
        exact hI
    | key =>
        obtain ⟨rfl, -⟩ := Prod.mk.inj (Option.some.inj hs)
        exact hI
    | input c line =>
        obtain ⟨r, hr, heq⟩ := Option.map_eq_some_iff.mp hs
        obtain ⟨rfl, rfl⟩ := Prod.mk.inj heq
        exact hsame (fun csock h => by cases h) hr
    | receive c =>
        obtain ⟨r, hr, heq⟩ := Option.map_eq_some_iff.mp hs
        obtain ⟨rfl, rfl⟩ := Prod.mk.inj heq
        exact hsame (fun csock h => by cases h) hr
    | round rand =>
        obtain ⟨-, ⟨-, rfl, -⟩ | ⟨-, ⟨rest, -, rfl⟩, -⟩ | ⟨-, -, m, sys, hm, hmove, rfl⟩⟩
          := round_cases hs
        · exact hI
        · exact hI
        · rcases served_cases hm with ⟨csock, rest, hb, rfl⟩ | ⟨hb, i, -, -, -, rfl⟩
          · have hgo : goOn l sys = { l with
                sys := sys, max := if csock > l.max then csock else l.max, backlog := rest } := by
              simp only [goOn, hb]
            rw [hgo]
            refine covers_moved hI (move_moved hfits hmove) ?_ ?_
            · show l.max ≤ if csock > l.max then csock else l.max
              split <;> omega
            · intro csock' heq
              obtain rfl := Move.accept.inj heq
              show csock ≤ if csock > l.max then csock else l.max
              split <;> omega
          · have hgo : goOn l sys = { l with sys := sys } := by
              simp only [goOn, hb]
            rw [hgo]
            refine hsame (fun csock heq => ?_) hmove
            split at heq <;> cases heq

/-- **A TURN OF THE LOOP**, as the queues see it. -/
inductive Turn (l : Loop) : Loop → Prop where
  | refused {rest : List Int} {l' : Loop} : l.backlog = -1 :: rest → l'.backlog = rest →
      l'.sys = l.sys → Turn l l'
  | accepted {csock : Int} {rest : List Int} {l' : Loop} : l.backlog = csock :: rest →
      l'.backlog = rest → l'.sys.server.nbClients = l.sys.server.nbClients + 1 →
      (∀ a < l.sys.server.nbClients,
        (l'.sys.server.clients a).sock = (l.sys.server.clients a).sock
          ∧ l'.sys.linkOf a = l.sys.linkOf a) →
      load (l'.sys.linkOf l.sys.server.nbClients) = 0 → Turn l l'
  | served {c : Nat} {l' : Loop} : l.backlog = [] → l'.backlog = [] →
      c < l.sys.server.nbClients → (∀ j < c, load (l.sys.linkOf j) = 0) →
      load (l.sys.linkOf c) = load (l'.sys.linkOf c) + 1 →
      l'.sys.server.nbClients = l.sys.server.nbClients →
      (∀ a < l.sys.server.nbClients,
        (l'.sys.server.clients a).sock = (l.sys.server.clients a).sock
          ∧ (a ≠ c → (l'.sys.linkOf a).up = (l.sys.linkOf a).up
            ∧ (l'.sys.linkOf a).closed = (l.sys.linkOf a).closed)) → Turn l l'
  | left {c : Nat} {l' : Loop} : l.backlog = [] → l'.backlog = [] →
      c < l.sys.server.nbClients → (∀ j < c, load (l.sys.linkOf j) = 0) →
      load (l.sys.linkOf c) = 1 → l'.sys.server.nbClients + 1 = l.sys.server.nbClients →
      (∀ a < l'.sys.server.nbClients,
        (l'.sys.server.clients a).sock = (l.sys.server.clients (SlotArray.skip c a)).sock
          ∧ l'.sys.linkOf a = l.sys.linkOf (SlotArray.skip c a)) → Turn l l'

/-- Who is not ready has nothing to be read. -/
theorem load_of_not_ready (hcov : Covers l) (hj : j < l.sys.server.nbClients)
    (h : ¬ Ready l j) : load (l.sys.linkOf j) = 0 :=
  load_eq_zero.mpr fun hload => h ⟨hcov j hj, hload⟩

/-- **A ROUND IS A TURN.** -/
theorem round_turn (h : Reachable C l) (hkey : l.key = false)
    (hs : step l (.round rand) = some (l', out)) :
    Turn l l' ∧ l'.key = false ∧ l'.stopped = l.stopped := by
  have hfits := fits (system_reachable h)
  have hJ := known h
  have hcov := max_covers h
  obtain ⟨-, ⟨hkey', -⟩ | ⟨-, ⟨rest, hb, rfl⟩, -⟩ | ⟨-, -, m, sys, hm, hmove, rfl⟩⟩ :=
    round_cases hs
  · rw [hkey] at hkey'
    cases hkey'
  · exact ⟨.refused hb rfl rfl, hkey, rfl⟩
  · have hkept : (goOn l sys).key = l.key ∧ (goOn l sys).stopped = l.stopped := by
      simp only [goOn]
      split <;> exact ⟨rfl, rfl⟩
    refine ⟨?_, hkept.1.trans hkey, hkept.2⟩
    have hmoved := move_moved hfits hmove
    rcases served_cases hm with ⟨csock, rest, hb, rfl⟩ | ⟨hb, i, hi, hready, hfirst, rfl⟩
    · have hrest : (goOn l sys).backlog = rest := by
        simp only [goOn, hb]
      have hsys := goOn_sys l sys
      cases hmoved with
      | accepted _ _ hnew =>
          refine .accepted hb hrest (by rw [hsys]; rfl) (fun a ha => ?_) ?_
          · rw [hsys]
            refine ⟨congrArg Client.sock (Function.update_of_ne (Nat.ne_of_lt ha) ..), ?_⟩
            rcases linkOf_accepted hnew (a := a) (by omega) with ⟨heq, -⟩ | ⟨-, hlink⟩
            · omega
            · exact hlink
          · rw [hsys]
            rcases linkOf_accepted hnew (a := l.sys.server.nbClients) (by omega)
              with ⟨-, hlink⟩ | ⟨hlt, -⟩
            · rw [hlink]
              rfl
            · omega
    · have hrest : (goOn l sys).backlog = [] := by
        simp only [goOn, hb]
      have hsys := goOn_sys l sys
      have hfront : ∀ j < i, load (l.sys.linkOf j) = 0 := fun j hj =>
        load_of_not_ready hcov (by omega) (hfirst j hj)
      by_cases hup : (l.sys.linkOf i).up = []
      · rw [if_pos hup] at hmoved
        have hclosed : (l.sys.linkOf i).closed = true :=
          hready.2.resolve_left fun hne => hne hup
        have hload : load (l.sys.linkOf i) = 1 := by
          rw [load, hup, hclosed]
          rfl
        cases hmoved with
        | @hungUp _ s₁ hc _ _ hd =>
            have hn := (disconnectUser_frame hd).2.1
            refine .left hb hrest hi hfront hload ?_ fun a ha => ?_
            · rw [hsys]
              show s₁.nbClients - 1 + 1 = _
              omega
            · rw [hsys] at ha ⊢
              obtain ⟨-, hentry, hlink⟩ :=
                linkOf_hungUp (b := farewell (l.sys.server.clients i).name) hc hd ha
              exact ⟨congrArg Client.sock hentry, hlink⟩
      · rw [if_neg hup] at hmoved
        cases hmoved with
        | @served _ _ q up s' _ _ hq heff =>
            have hlink : ∀ a < l.sys.server.nbClients, System.linkOf ⟨s', deliver
                (l.sys.setLink i { l.sys.linkOf i with up := up }) out⟩ a
                  = { l.sys.linkOf a with
                      up := if a = i then up else (l.sys.linkOf a).up
                      down := (l.sys.linkOf a).down
                        ++ framesTo (l.sys.server.clients a).sock out } :=
              fun a ha => AwaleDisplay.linkOf_after hJ hi ha fun a => heff.sock a
            refine .served hb hrest hi hfront ?_ ?_ fun a ha => ⟨?_, fun hne => ?_⟩
            · rw [hsys, hlink i hi]
              simp only [load, if_true, hq, List.length_cons]
              omega
            · rw [hsys]
              exact heff.counts
            · rw [hsys]
              exact heff.sock a
            · rw [hsys, hlink a ha]
              exact ⟨if_neg hne, rfl⟩

/-! ## Waiting -/

/-- What is served before client `i`: the new connections, and what there is to be read from the
    clients in front of it. -/
def ahead (l : Loop) (i : Nat) : Nat :=
  l.backlog.length + ((List.range i).map fun j => load (l.sys.linkOf j)).sum

/-- All that waits. -/
def waiting (l : Loop) : Nat := ahead l l.sys.server.nbClients

theorem ahead_eq_zero :
    ahead l i = 0 ↔ l.backlog = [] ∧ ∀ j < i, load (l.sys.linkOf j) = 0 := by
  rw [ahead, Nat.add_eq_zero_iff, List.length_eq_zero_iff, List.sum_eq_zero_iff_forall_eq_nat]
  simp only [List.forall_mem_map, List.mem_range]

/-- The loads in front of client `i` after the one of client `c` has gone down by one. -/
theorem ahead_served (hb : l.backlog = []) (hb' : l'.backlog = []) (hc : c < i)
    (hload : load (l.sys.linkOf c) = load (l'.sys.linkOf c) + 1)
    (hsame : ∀ a < i, a ≠ c → load (l'.sys.linkOf a) = load (l.sys.linkOf a)) :
    ahead l i = ahead l' i + 1 := by
  have hupdate : (List.range i).map (fun j => load (l'.sys.linkOf j))
      = (List.range i).map (Function.update (fun j => load (l.sys.linkOf j)) c
          (load (l'.sys.linkOf c))) := by
    refine List.map_congr_left fun a ha => ?_
    by_cases hac : a = c
    · rw [hac, Function.update_self]
    · rw [Function.update_of_ne hac]
      exact hsame a (List.mem_range.mp ha) hac
  have hsum := SlotArray.sum_update (fun j => load (l.sys.linkOf j)) (load (l'.sys.linkOf c)) hc
  rw [ahead, ahead, hb, hb', hupdate]
  omega

/-- **A TURN BRINGS EVERYONE FORWARD**: client `i` of the table, or its end, has one thing less in
    front of it, and keeps its requests. -/
theorem turn_ahead (ht : Turn l l') (hi : i ≤ l.sys.server.nbClients) (hpos : 0 < ahead l i) :
    ∃ i', ahead l i = ahead l' i' + 1
      ∧ (i = l.sys.server.nbClients → i' = l'.sys.server.nbClients)
      ∧ (i < l.sys.server.nbClients → i' < l'.sys.server.nbClients
        ∧ (l'.sys.server.clients i').sock = (l.sys.server.clients i).sock
        ∧ (l'.sys.linkOf i').up = (l.sys.linkOf i).up
        ∧ (l'.sys.linkOf i').closed = (l.sys.linkOf i).closed) := by
  cases ht with
  | @refused rest _ hb hb' hsys =>
      refine ⟨i, ?_, fun h => h.trans (by rw [hsys]), fun h => ?_⟩
      · rw [ahead, ahead, hb, hb', hsys, List.length_cons]
        omega
      · rw [hsys]
        exact ⟨h, rfl, rfl, rfl⟩
  | @accepted csock rest _ hb hb' hn hold hnew =>
      have hsame : ∀ a < l.sys.server.nbClients, load (l'.sys.linkOf a) = load (l.sys.linkOf a) :=
        fun a ha => by rw [(hold a ha).2]
      have hmap : (List.range i).map (fun j => load (l'.sys.linkOf j))
          = (List.range i).map (fun j => load (l.sys.linkOf j)) :=
        List.map_congr_left fun a ha => hsame a (by have := List.mem_range.mp ha; omega)
      by_cases hlast : i = l.sys.server.nbClients
      · subst hlast
        refine ⟨l'.sys.server.nbClients, ?_, fun _ => rfl, fun h => absurd h (Nat.lt_irrefl _)⟩
        rw [ahead, ahead, hb, hb', hn, List.range_succ, List.map_append, List.sum_append, hmap,
          List.map_singleton, List.sum_singleton, hnew, List.length_cons]
        omega
      · have hlt : i < l.sys.server.nbClients := by omega
        refine ⟨i, ?_, fun h => absurd h hlast, fun _ => ⟨by omega, (hold i hlt).1, ?_, ?_⟩⟩
        · rw [ahead, ahead, hb, hb', hmap, List.length_cons]
          omega
        · rw [(hold i hlt).2]
        · rw [(hold i hlt).2]
  | @served c _ hb hb' hc hfront hload hn hold =>
      -- the client served is in front
      have hci : c < i := by
        by_contra hge
        have hzero : ahead l i = 0 := ahead_eq_zero.mpr ⟨hb, fun j hj => hfront j (by omega)⟩
        omega
      refine ⟨i, ahead_served hb hb' hci hload fun a ha hac => ?_, fun h => h.trans hn.symm,
        fun h => ⟨by omega, (hold i h).1, (hold i h).2 (by omega)⟩⟩
      obtain ⟨hup, hclosed⟩ := (hold a (by omega)).2 hac
      rw [load, load, hup, hclosed]
  | @left c _ hb hb' hc hfront hload hn hold =>
      have hci : c < i := by
        by_contra hge
        have hzero : ahead l i = 0 := ahead_eq_zero.mpr ⟨hb, fun j hj => hfront j (by omega)⟩
        omega
      obtain ⟨n, rfl⟩ : ∃ n, i = n + 1 := ⟨i - 1, by omega⟩
      refine ⟨n, ?_, fun h => by omega, fun h => ?_⟩
      · have hmap : (List.range n).map (fun j => load (l'.sys.linkOf j))
            = (List.range n).map (fun j => load (l.sys.linkOf (SlotArray.skip c j))) := by
          refine List.map_congr_left fun a ha => ?_
          rw [(hold a (by have := List.mem_range.mp ha; omega)).2]
        have hsum :=
          SlotArray.sum_skip (fun j => load (l.sys.linkOf j)) (i := c) (n := n) (by omega)
        rw [ahead, ahead, hb, hb', hmap, hsum, hload]
        omega
      · obtain ⟨hsock, hlink⟩ := hold n (by omega)
        have hskip : SlotArray.skip c n = n + 1 := if_neg (by omega)
        rw [hskip] at hsock hlink
        exact ⟨by omega, hsock, by rw [hlink], by rw [hlink]⟩

/-- `select` blocks: nobody has anything for the server. -/
def Blocked (l : Loop) : Prop := l.backlog = [] ∧ firstReady l = none

theorem blocked_iff (hcov : Covers l) : Blocked l ↔ waiting l = 0 := by
  rw [waiting, ahead_eq_zero]
  refine and_congr_right fun _ => ?_
  rw [firstReady, SlotArray.search_eq_none]
  exact ⟨fun h j hj => load_of_not_ready hcov hj (h j hj),
    fun h j hj hready => load_eq_zero.mp (h j hj) hready.2⟩

theorem blocked_stuck (h : Blocked l) (hkey : l.key = false) :
    step l (.round rand) = none := by
  have hnone : served l rand = none := by
    simp only [served, h.1, h.2, Option.map_none]
  show round l rand = none
  simp only [round, hnone, h.1, hkey, List.head?_nil, Option.bind_none]
  split <;> rfl

/-- The loop runs, and nobody has typed at the server. -/
structure Running (l : Loop) : Prop where
  reachable : Reachable GuardedRun.Always l
  key : l.key = false

theorem Running.of (h : Reachable C l) (hkey : l.key = false) : Running l :=
  ⟨GuardedRun.Reachable.mono (fun _ _ _ _ _ => trivial) h, hkey⟩

theorem Running.turn (h : Running l) (hs : step l (.round rand) = some (l', out)) :
    Turn l l' ∧ Running l' := by
  obtain ⟨ht, hkey, -⟩ := round_turn h.reachable h.key hs
  exact ⟨ht, .next h.reachable (fun _ _ => trivial) hs, hkey⟩

/-- A round is only made when something waits. -/
theorem Running.waiting_pos (h : Running l) (hs : step l (.round rand) = some (l', out)) :
    0 < waiting l := by
  by_contra hzero
  have hblocked := (blocked_iff (max_covers h.reachable)).mpr (Nat.eq_zero_of_not_pos hzero)
  rw [blocked_stuck hblocked h.key] at hs
  cases hs

def IsRound : Event → Prop
  | .round _ => True
  | _ => False

theorem Running.round (h : Running l) (he : IsRound e) (hs : step l e = some (l', out)) :
    Running l' ∧ waiting l = waiting l' + 1 := by
  cases e with
  | round rand =>
      obtain ⟨ht, hl'⟩ := h.turn hs
      obtain ⟨i', hahead, hend, -⟩ := turn_ahead ht (Nat.le_refl _) (h.waiting_pos hs)
      refine ⟨hl', ?_⟩
      rw [waiting, waiting, ← hend rfl]
      exact hahead
  | _ => exact he.elim

/-! ## Rounds are made -/

/-- What `accept` can return for the connections that wait: -1, or descriptors that are not in
    use. -/
structure Expected (l : Loop) : Prop where
  fresh : ∀ csock ∈ l.backlog, csock ≠ -1 → Possible l.sys.server (.accept csock)
  distinct : l.backlog.Pairwise fun a b => a = b → a = -1

instance (l : Loop) : Decidable (Expected l) :=
  decidable_of_iff ((∀ csock ∈ l.backlog, csock ≠ -1 → Possible l.sys.server (.accept csock))
      ∧ l.backlog.Pairwise fun a b => a = b → a = -1)
    ⟨fun ⟨h1, h2⟩ => ⟨h1, h2⟩, fun ⟨h1, h2⟩ => ⟨h1, h2⟩⟩

/-- The event of the server behind a move of the system. -/
def eventOf (sys : System) : Move → Option AwaleServer.Event
  | .accept csock => some (.accept csock)
  | .serve c rand => (sys.linkOf c).up.head?.map fun q => .frame c q.body rand
  | .hangUp c => some (.disconnect c)
  | .input _ _ => none
  | .receive _ => none

/-- **THE ROUND ENDS THE SERVER**: the handler of what it serves leaves the defined behaviour, or
    a `send` fails. -/
def Ends (l : Loop) (rand : UInt32) : Prop :=
  ∃ m ev, moveOf l (.round rand) = some m ∧ eventOf l.sys m = some ev
    ∧ ¬ Completes l.sys.server ev

/-- One of the rounds ends the server. -/
def EndsIn (l : Loop) (rands : List UInt32) : Prop :=
  ∃ rands₁ rand rands₂ t outs, rands = rands₁ ++ rand :: rands₂
    ∧ GuardedRun.run step l (rands₁.map Event.round) = some (t, outs) ∧ Ends t rand

/-- The loop goes on, and the connections that wait can be accepted. -/
structure Going (l : Loop) : Prop extends Running l where
  going : l.stopped = false
  expected : Expected l

theorem Going.of (h : Reachable C l) (hkey : l.key = false) (hstop : l.stopped = false)
    (hexp : Expected l) : Going l := ⟨Running.of h hkey, hstop, hexp⟩

theorem Expected.turn (hfits : Fits l.sys) (h : Expected l) (hkey : l.key = false)
    (hs : round l rand = some (l', out)) : Expected l' := by
  obtain ⟨-, ⟨hkey', -⟩ | ⟨-, ⟨rest, hb, rfl⟩, -⟩ | ⟨-, -, m, sys, hm, hmove, rfl⟩⟩ :=
    round_cases hs
  · rw [hkey] at hkey'
    cases hkey'
  · have hfresh := h.fresh
    have hdistinct := h.distinct
    rw [hb] at hfresh hdistinct
    exact ⟨(List.forall_mem_cons.mp hfresh).2, (List.pairwise_cons.mp hdistinct).2⟩
  · rcases served_cases hm with ⟨csock, rest, hb, rfl⟩ | ⟨hb, i, -, -, -, rfl⟩
    · have hfresh := h.fresh
      have hdistinct := h.distinct
      rw [hb] at hfresh hdistinct
      have hsys := goOn_sys l sys
      have hrest : (goOn l sys).backlog = rest := by
        simp only [goOn, hb]
      cases move_moved hfits hmove with
      | accepted _ hpos _ =>
          refine ⟨fun csock' hmem hne => ?_, hrest ▸ (List.pairwise_cons.mp hdistinct).2⟩
          rw [hrest] at hmem
          obtain ⟨hpos', hnew⟩ := hfresh csock' (List.mem_cons_of_mem _ hmem) hne
          rw [hsys]
          refine ⟨hpos', fun i hi hsock => ?_⟩
          have hi' : i < l.sys.server.nbClients + 1 := hi
          by_cases hlast : i = l.sys.server.nbClients
          · -- the descriptor that has just been accepted
            rw [hlast, accepted_self] at hsock
            have hself := (List.pairwise_cons.mp hdistinct).1 csock' hmem hsock
            omega
          · rw [accepted_of_ne hlast] at hsock
            exact hnew i (by omega) hsock
    · have hrest : (goOn l sys).backlog = [] := by
        simp only [goOn, hb]
      refine ⟨fun csock hmem => ?_, ?_⟩
      · rw [hrest] at hmem
        cases hmem
      · rw [hrest]
        exact .nil

theorem Going.turn (h : Going l) (hs : step l (.round rand) = some (l', out)) :
    Going l' ∧ waiting l = waiting l' + 1 := by
  obtain ⟨hrun, hcount⟩ := h.toRunning.round (e := .round rand) trivial hs
  obtain ⟨-, -, hstop⟩ := round_turn h.reachable h.key hs
  have hexp := h.expected.turn (fits (system_reachable h.reachable)) h.key hs
  exact ⟨⟨hrun, hstop.trans h.going, hexp⟩, hcount⟩

/-- A move of the server is its event. -/
theorem move_isSome {sys : System} {ev : AwaleServer.Event} (hev : eventOf sys m = some ev)
    (hend : ∀ c, m = .hangUp c → (sys.linkOf c).closed = true ∧ (sys.linkOf c).up = []) :
    (move sys m).isSome ↔ (trans sys.server ev).isSome := by
  cases m with
  | accept csock =>
      obtain rfl := Option.some.inj hev
      simp only [move, accept, Option.isSome_map]
  | serve c rand =>
      obtain ⟨q, hq, rfl⟩ := Option.map_eq_some_iff.mp hev
      obtain ⟨up, hup⟩ := List.head?_eq_some_iff.mp hq
      simp only [move, serve, hup, Option.isSome_map]
  | hangUp c =>
      obtain rfl := Option.some.inj hev
      simp only [move, hangUp, if_pos (hend c rfl), Option.isSome_map]
  | input c line => cases hev
  | receive c => cases hev

/-- What a round serves is an event that the server can be confronted with. -/
theorem Going.event (h : Going l) (hhead : l.backlog.head? ≠ some (-1))
    (hm : served l rand = some m) : ∃ ev, eventOf l.sys m = some ev
      ∧ Possible l.sys.server ev ∧ ((move l.sys m).isSome ↔ (trans l.sys.server ev).isSome) := by
  rcases served_cases hm with ⟨csock, rest, hb, rfl⟩ | ⟨-, i, hi, hready, -, rfl⟩
  · have hne : csock ≠ -1 := by
      rintro rfl
      rw [hb] at hhead
      exact hhead rfl
    have hmem : csock ∈ l.backlog := by
      rw [hb]
      exact List.mem_cons_self
    exact ⟨_, rfl, h.expected.fresh csock hmem hne, move_isSome rfl fun c h => by cases h⟩
  · cases hup : (l.sys.linkOf i).up with
    | nil =>
        have hclosed := hready.2.resolve_left fun hne => hne hup
        rw [if_pos rfl]
        refine ⟨_, rfl, hi, move_isSome rfl fun c hc => ?_⟩
        obtain rfl := Move.hangUp.inj hc
        exact ⟨hclosed, hup⟩
    | cons q up =>
        rw [if_neg (List.cons_ne_nil _ _)]
        have hev : eventOf l.sys (.serve i rand) = some (.frame i q.body rand) := by
          simp only [eventOf, hup, List.head?_cons, Option.map_some]
        have hpos := body_length_pos q
        have hfit : q.body.length + 2 ≤ bufSize := by
          refine fits (system_reachable h.reachable) (l.sys.server.clients i).sock q ?_
          have hup' : (l.sys.link (l.sys.server.clients i).sock).up = q :: up := hup
          rw [hup']
          exact List.mem_cons_self
        have hsize : bufSize = 1024 := rfl
        exact ⟨_, hev, ⟨hi, hpos, by omega⟩, move_isSome hev fun c h => by cases h⟩

/-- Unless `accept` fails, a round serves what it finds. -/
theorem Going.moveOf_round (h : Going l) (hhead : l.backlog.head? ≠ some (-1)) (rand : UInt32) :
    moveOf l (.round rand) = served l rand := by
  refine if_neg ?_
  rw [h.going, h.key]
  rintro (h | h | h)
  · cases h
  · cases h
  · exact hhead h

theorem Going.round_eq (h : Going l) (hhead : l.backlog.head? ≠ some (-1)) (rand : UInt32) :
    AwaleLoop.round l rand
      = (served l rand).bind fun e => (move l.sys e).map fun r => (goOn l r.1, r.2) := by
  simp only [AwaleLoop.round, h.going, h.key, Bool.false_eq_true, if_false, if_neg hhead]

/-- `select` blocks when there is nothing to serve. -/
theorem blocked_iff_served : Blocked l ↔ served l rand = none := by
  simp only [served, Blocked]
  split
  · rename_i hb
    refine iff_of_false (fun h => ?_) fun h => by cases h
    rw [hb] at h
    cases h.1
  · rename_i hb
    rw [and_iff_right hb, Option.map_eq_none_iff]

/-- The round ends the server when the event it makes does not complete. -/
theorem ends_iff {ev : AwaleServer.Event} (hm : moveOf l (.round rand) = some m)
    (hev : eventOf l.sys m = some ev) : Ends l rand ↔ ¬ Completes l.sys.server ev := by
  constructor
  · rintro ⟨m', ev', hm', hev', hno⟩
    obtain rfl := Option.some.inj (hm.symm.trans hm')
    obtain rfl := Option.some.inj (hev.symm.trans hev')
    exact hno
  · exact fun hno => ⟨m, ev, hm, hev, hno⟩

/-- **A ROUND IS MADE** just when something waits, and serving it does not end the server. -/
theorem round_isSome_iff (h : Going l) (rand : UInt32) :
    (round l rand).isSome ↔ ¬ Blocked l ∧ ¬ Ends l rand := by
  by_cases hhead : l.backlog.head? = some (-1)
  · -- `accept` fails, and the loop goes on
    refine iff_of_true ?_ ⟨fun hb => ?_, ?_⟩
    · simp [round, h.going, h.key, hhead]
    · rw [hb.1] at hhead
      cases hhead
    · rintro ⟨m, ev, hm, -⟩
      have hnone : moveOf l (.round rand) = none := if_pos (Or.inr (Or.inr hhead))
      rw [hnone] at hm
      cases hm
  · rw [h.round_eq hhead, blocked_iff_served]
    cases hm : served l rand with
    | none => exact iff_of_false (fun hsome => by cases hsome) fun hgo => hgo.1 rfl
    | some m =>
        obtain ⟨ev, hev, hp, hsome⟩ := h.event hhead hm
        have hends := ends_iff ((h.moveOf_round hhead rand).trans hm) hev
        rw [Option.bind_some, Option.isSome_map, hsome, trans_isSome, and_iff_right hp, hends,
          not_not, and_iff_right (Option.some_ne_none m)]

/-- As many rounds as things wait can be made, unless one of them ends the server. -/
theorem Going.rounds (h : Going l) {rands : List UInt32} (hle : rands.length ≤ waiting l) :
    (GuardedRun.run step l (rands.map Event.round)).isSome ∨ EndsIn l rands := by
  have hprogress : ∀ l rand, Going l → 0 < waiting l →
      (∃ l' out, step l (.round rand) = some (l', out) ∧ Going l' ∧ waiting l = waiting l' + 1)
        ∨ Ends l rand := by
    intro l rand h hpos
    by_cases hends : Ends l rand
    · exact Or.inr hends
    · have hwaits : ¬ Blocked l := by
        rw [blocked_iff (max_covers h.reachable)]
        omega
      obtain ⟨⟨l', out⟩, hs⟩ :=
        Option.isSome_iff_exists.mp ((round_isSome_iff h rand).mpr ⟨hwaits, hends⟩)
      exact Or.inl ⟨l', out, hs, h.turn hs⟩
  exact GuardedRun.run_progress hprogress rands h hle

theorem Going.run (h : Going l) {rands : List UInt32} {t : Loop} {outs : List (List Sent)}
    (hr : GuardedRun.run step l (rands.map Event.round) = some (t, outs)) :
    Going t ∧ waiting l = waiting t + rands.length := by
  have hround : ∀ e ∈ rands.map Event.round, ∃ rand, e = .round rand := by
    intro e he
    obtain ⟨rand, -, rfl⟩ := List.mem_map.mp he
    exact ⟨rand, rfl⟩
  have hturn : ∀ l e l' out, Going l → (∃ rand, e = .round rand) → step l e = some (l', out) →
      Going l' ∧ waiting l = waiting l' + 1 := by
    rintro l e l' out hl ⟨rand, rfl⟩ hs
    exact hl.turn hs
  have hcount := GuardedRun.run_countdown hturn (rands.map Event.round) h hround hr
  rw [List.length_map] at hcount
  exact hcount

/-- **THE LOOP DRAINS ITS QUEUES.**  While nobody else does anything, every round takes one of the
    things that wait; a next round is made until `select` blocks, which it does when as many rounds
    have been made as things waited, unless one of them ends the server. -/
theorem drains (h : Reachable C l) (hkey : l.key = false) (hstop : l.stopped = false)
    (hexp : Expected l) (rands : List UInt32) :
    (∀ t outs, GuardedRun.run step l (rands.map Event.round) = some (t, outs) →
      waiting l = waiting t + rands.length ∧ (Blocked t ↔ rands.length = waiting l)
        ∧ ∀ rand, (round t rand).isSome ↔ ¬ Blocked t ∧ ¬ Ends t rand)
    ∧ (rands.length ≤ waiting l →
      (GuardedRun.run step l (rands.map Event.round)).isSome ∨ EndsIn l rands) := by
  have hl := Going.of h hkey hstop hexp
  refine ⟨fun t outs hr => ?_, hl.rounds⟩
  obtain ⟨ht, hcount⟩ := hl.run hr
  refine ⟨hcount, ?_, round_isSome_iff ht⟩
  rw [blocked_iff (max_covers ht.reachable)]
  omega

theorem ahead_le (hi : i ≤ l.sys.server.nbClients) : ahead l i ≤ waiting l := by
  obtain ⟨n, hn⟩ := Nat.exists_eq_add_of_le hi
  rw [waiting, ahead, ahead, hn, List.range_add, List.map_append, List.sum_append]
  omega

/-- The client at `j` is the next to be served: its oldest request is read in the next round, which
    is made unless the request ends the server. -/
structure Next (t : Loop) (j : Nat) (q : Request) : Prop where
  served : ∀ rand, moveOf t (.round rand) = some (.serve j rand)
  made : ∀ rand, (round t rand).isSome ↔ Completes t.sys.server (.frame j q.body rand)

/-- Nobody is in front of client `i`. -/
theorem Going.next (h : Going l) {q : Request} {up : List Request}
    (hi : i < l.sys.server.nbClients) (hup : (l.sys.linkOf i).up = q :: up)
    (hzero : ahead l i = 0) : Next l i q := by
  obtain ⟨hb, hfront⟩ := ahead_eq_zero.mp hzero
  have hne : (l.sys.linkOf i).up ≠ [] := by
    rw [hup]
    exact List.cons_ne_nil _ _
  have hfirst : firstReady l = some i := by
    refine SlotArray.search_eq_some.mpr
      ⟨hi, ⟨max_covers h.reachable i hi, Or.inl hne⟩, fun j hj hready => ?_⟩
    exact load_eq_zero.mp (hfront j hj) hready.2
  have hhead : l.backlog.head? ≠ some (-1) := by
    rw [hb]
    exact nofun
  have hserved : ∀ rand, moveOf l (.round rand) = some (.serve i rand) := by
    intro rand
    rw [h.moveOf_round hhead]
    simp only [served, hb, hfirst, Option.map_some, if_neg hne]
  refine ⟨hserved, fun rand => ?_⟩
  have hev : eventOf l.sys (.serve i rand) = some (.frame i q.body rand) := by
    simp only [eventOf, hup, List.head?_cons, Option.map_some]
  have hwaits : ¬ Blocked l := by
    rintro ⟨-, hnone⟩
    rw [hfirst] at hnone
    cases hnone
  rw [round_isSome_iff h, and_iff_right hwaits, ends_iff (hserved rand) hev, not_not]

/-- **WHEN A CLIENT IS SERVED**: after as many rounds as there are things in front of it, its
    oldest request is what the next round reads; and these rounds are made, unless one of them ends
    the server. -/
theorem served_after (h : Reachable C l) (hkey : l.key = false) (hstop : l.stopped = false)
    (hexp : Expected l) {q : Request} {up : List Request} (hi : i < l.sys.server.nbClients)
    (hup : (l.sys.linkOf i).up = q :: up) {rands : List UInt32}
    (hlen : rands.length = ahead l i) :
    (∀ t outs, GuardedRun.run step l (rands.map Event.round) = some (t, outs) →
      ∃ j, j < t.sys.server.nbClients
        ∧ (t.sys.server.clients j).sock = (l.sys.server.clients i).sock
        ∧ (t.sys.linkOf j).up = q :: up ∧ Next t j q)
    ∧ ((GuardedRun.run step l (rands.map Event.round)).isSome ∨ EndsIn l rands) := by
  have hl := Going.of h hkey hstop hexp
  refine ⟨?_, hl.rounds (hlen ▸ ahead_le (Nat.le_of_lt hi))⟩
  clear h hkey hstop hexp
  induction rands generalizing l i with
  | nil =>
      intro t outs hr
      simp only [List.map_nil, GuardedRun.run, Option.some.injEq, Prod.mk.injEq] at hr
      obtain ⟨rfl, -⟩ := hr
      exact ⟨i, hi, rfl, hup, hl.next hi hup hlen.symm⟩
  | cons rand₀ rands ih =>
      intro t outs hr
      obtain ⟨l', out, outs', hs, hrest, -⟩ := GuardedRun.run_cons hr
      obtain ⟨ht, -⟩ := hl.toRunning.turn hs
      have hpos : 0 < ahead l i := by
        rw [← hlen]
        exact Nat.succ_pos _
      obtain ⟨i', hahead, -, hkept⟩ := turn_ahead ht (Nat.le_of_lt hi) hpos
      obtain ⟨hi', hsock, hup', -⟩ := hkept hi
      rw [List.length_cons] at hlen
      obtain ⟨j, hj, hjsock, hjup, hnext⟩ :=
        ih hi' (hup'.trans hup) (by omega) (hl.turn hs).1 t outs' hrest
      exact ⟨j, hj, hjsock.trans hsock, hjup, hnext⟩

/-! ## Coming to rest -/

/-- What happens while nobody types: the server goes on, and the clients read their frames. -/
def Calm : Event → Prop
  | .round _ => True
  | .receive _ => True
  | _ => False

/-- The frames on their way to the clients. -/
def inFlight (l : Loop) : Nat :=
  ((List.range l.sys.server.nbClients).map fun i => (l.sys.linkOf i).down.length).sum

/-- Reading a frame asks for nothing. -/
theorem Running.receive (h : Running l) (hs : step l (.receive c) = some (l', out)) :
    Running l' ∧ waiting l' = waiting l ∧ inFlight l = inFlight l' + 1 := by
  have hreach : Reachable GuardedRun.Always l' := .next h.reachable (fun _ _ => trivial) hs
  have hfits := fits (system_reachable h.reachable)
  have hJ := known h.reachable
  obtain ⟨⟨sys, sent⟩, hmove, heq⟩ := Option.map_eq_some_iff.mp hs
  obtain ⟨rfl, rfl⟩ := Prod.mk.inj heq
  refine ⟨⟨hreach, h.key⟩, ?_⟩
  cases move_moved hfits hmove with
  | @received c m down hc _ hdown =>
      have hlink : ∀ a < l.sys.server.nbClients, System.linkOf ⟨l.sys.server, l.sys.setLink c
          { l.sys.linkOf c with state := after (l.sys.linkOf c).state m, down := down }⟩ a
            = if a = c then { l.sys.linkOf c with
                state := after (l.sys.linkOf c).state m, down := down } else l.sys.linkOf a := by
        intro a ha
        rw [linkOf_setLink]
        refine if_congr ⟨fun hsock => (hJ.distinct a ha).2 c hc hsock, fun hac => ?_⟩ rfl rfl
        rw [hac]
      constructor
      · rw [waiting, waiting, ahead, ahead]
        congr 2
        refine List.map_congr_left fun a ha => ?_
        rw [hlink a (List.mem_range.mp ha)]
        by_cases hac : a = c
        · rw [if_pos hac, hac]
          rfl
        · rw [if_neg hac]
      · have hupdate : (List.range l.sys.server.nbClients).map (fun a =>
            (System.linkOf ⟨l.sys.server, l.sys.setLink c { l.sys.linkOf c with
              state := after (l.sys.linkOf c).state m, down := down }⟩ a).down.length)
              = (List.range l.sys.server.nbClients).map (Function.update
                  (fun a => (l.sys.linkOf a).down.length) c down.length) := by
          refine List.map_congr_left fun a ha => ?_
          rw [hlink a (List.mem_range.mp ha)]
          by_cases hac : a = c
          · rw [if_pos hac, hac, Function.update_self]
          · rw [if_neg hac, Function.update_of_ne hac]
        have hsum := SlotArray.sum_update (fun a => (l.sys.linkOf a).down.length) down.length hc
        have hlen : (l.sys.linkOf c).down.length = down.length + 1 := by
          rw [hdown, List.length_cons]
        rw [inFlight, inFlight]
        show _ = ((List.range l.sys.server.nbClients).map _).sum + 1
        rw [hupdate]
        omega

/-- **THE SYSTEM SETTLES.**  While nobody types, there is no infinite sequence of rounds and
    receptions: no frame makes a client ask for something. -/
theorem settles (h : Reachable C l) (hkey : l.key = false) :
    Acc (fun l' l => ∃ e out, Calm e ∧ step l e = some (l', out)) l := by
  refine GuardedRun.acc_of_two (I := Running) (f := waiting) (g := inFlight) ?_
    (Running.of h hkey)
  rintro l l' hl ⟨e, out, he, hs⟩
  cases e with
  | round rand =>
      obtain ⟨hl', hcount⟩ := hl.round (e := .round rand) trivial hs
      exact ⟨hl', Or.inl (by omega)⟩
  | receive c =>
      obtain ⟨hl', hsame, hcount⟩ := hl.receive hs
      exact ⟨hl', Or.inr ⟨hsame, by omega⟩⟩
  | _ => exact he.elim

/-- The server has nothing to do and the clients nothing to read. -/
def AtRest (l : Loop) : Prop := Blocked l ∧ ∀ c, step l (.receive c) = none

theorem at_rest_quiet (h : Reachable C l) (hrest : AtRest l) (hc : c < l.sys.server.nbClients) :
    Quiet (l.sys.linkOf c) ∧ (l.sys.linkOf c).closed = false := by
  have hzero := (blocked_iff (max_covers h)).mp hrest.1
  have hload := load_eq_zero.mp ((ahead_eq_zero.mp hzero).2 c hc)
  have hclosed : (l.sys.linkOf c).closed = false := by
    by_contra hne
    exact hload (Or.inr (by simpa using hne))
  have hup : (l.sys.linkOf c).up = [] := by
    by_contra hne
    exact hload (Or.inl hne)
  refine ⟨⟨hup, ?_⟩, hclosed⟩
  cases hdown : (l.sys.linkOf c).down with
  | nil => rfl
  | cons m down =>
      have hnone := hrest.2 c
      simp only [step, move, receiveFrame, hclosed, hdown] at hnone
      rw [if_pos ⟨hc, trivial⟩] at hnone
      cases hnone

/-- Nothing waits and nothing is in flight. -/
theorem atRest_of (h : Reachable C l) (hwaiting : waiting l = 0) (hflight : inFlight l = 0) :
    AtRest l := by
  refine ⟨(blocked_iff (max_covers h)).mpr hwaiting, fun c => ?_⟩
  have hdown : c < l.sys.server.nbClients → (l.sys.linkOf c).down = [] := by
    intro hc
    rw [inFlight, List.sum_eq_zero_iff_forall_eq_nat] at hflight
    exact List.length_eq_zero_iff.mp
      (hflight _ (List.mem_map.mpr ⟨c, List.mem_range.mpr hc, rfl⟩))
  have hnone : receiveFrame l.sys c = none := by
    simp only [receiveFrame]
    split
    · rename_i hc
      simp only [hdown hc.1]
    · rfl
  simp only [step, move, hnone, Option.map_none]

/-- **AT REST**, in a run under `turnGuard`, the player to move of every started room is asked for
    its move, and the other one is not. -/
theorem at_rest (h : Reachable turnGuard l) (hrest : AtRest l) (hi : Live l.sys.server i)
    (hst : (l.sys.server.rooms i).game.isStarted = true) (hj : j < 2)
    (hc : c < l.sys.server.nbClients)
    (hid : ((l.sys.server.rooms i).game.players j).id = (l.sys.server.clients c).sock) :
    (l.sys.linkOf c).state
      = if (l.sys.server.rooms i).game.turn = j then .waitingPlayInput else .inGame :=
  (turn_agreement (system_reachable h)).agree i hi hst j hj c hc hid (at_rest_quiet h hrest hc).1

/-! ## Runs -/

/-- The loop before its first round. -/
def start : Loop := ⟨AwaleSystem.start, 3, [], false, false⟩

theorem reaches {β : Type} {f : Loop → β} {b : β} (es : List Event)
    (hm : GuardedRun.Meets step (Under C) start es)
    (hr : (GuardedRun.run step start es).map (fun r => f r.1) = some b) :
    ∃ l, Reachable C l ∧ f l = b := by
  have hinit : Initial start := ⟨⟨⟨_, rfl⟩, rfl⟩, rfl, rfl, rfl⟩
  exact GuardedRun.reachable_of_eval hinit hm hr

instance [∀ sys m, Decidable (C sys m)] (l : Loop) (e : Event) : Decidable (Under C l e) :=
  inferInstanceAs (Decidable (∀ m ∈ moveOf l e, C l.sys m))

/-- Two clients have come and typed their names, and a third one is at the door. -/
def crowd : List Event :=
  [.connect 4, .connect 5, .round 0, .round 0, .input 1 (literal "b"), .input 0 (literal "a"),
    .connect 6]

/-- What waits in front of the second client, and that as many rounds can be made. -/
def Crowded (l : Loop) : Prop :=
  (l.key = false ∧ l.stopped = false ∧ Expected l)
    ∧ l.sys.server.nbClients = 2 ∧ (l.sys.linkOf 1).up = [.connect (literal "b")]
    ∧ ahead l 1 = 2 ∧ waiting l = 3
    ∧ (GuardedRun.run step l ([0, 0].map Event.round)).isSome = true
    ∧ (GuardedRun.run step l ([0, 0, 0].map Event.round)).isSome = true

instance (l : Loop) : Decidable (Crowded l) :=
  inferInstanceAs (Decidable ((_ ∧ _ ∧ _) ∧ _ ∧ _ ∧ _ ∧ _ ∧ _ ∧ _))

theorem crowd_reached : ∃ l, Reachable GuardedRun.Always l ∧ Crowded l := by
  obtain ⟨l, hl, hf⟩ := reaches (C := fun _ _ => True) (f := fun l => decide (Crowded l))
    (b := true) crowd (by decide +kernel) (by decide +kernel)
  exact ⟨l, hl, of_decide_eq_true hf⟩

/-- Three rounds for the three things that wait. -/
theorem drains_crowd : ∃ l t : Loop, ∃ outs, Reachable GuardedRun.Always l ∧ waiting l = 3
    ∧ GuardedRun.run step l ([0, 0, 0].map Event.round) = some (t, outs) ∧ Blocked t := by
  obtain ⟨l, hl, ⟨hkey, hstop, hexp⟩, -, -, -, hwaiting, -, hsome⟩ := crowd_reached
  obtain ⟨⟨t, outs⟩, hrun⟩ := Option.isSome_iff_exists.mp hsome
  have hlen : [(0 : UInt32), 0, 0].length = waiting l := hwaiting.symm
  obtain ⟨-, hblocked, -⟩ := (drains hl hkey hstop hexp [0, 0, 0]).1 t outs hrun
  exact ⟨l, t, outs, hl, hwaiting, hrun, hblocked.mpr hlen⟩

/-- The connection and the first client come before the second one. -/
theorem served_after_crowd : ∃ (l t : Loop) (outs : List (List Sent)) (j : Nat),
    Reachable GuardedRun.Always l ∧ (l.sys.linkOf 1).up = [.connect (literal "b")]
      ∧ ahead l 1 = 2
      ∧ GuardedRun.run step l ([0, 0].map Event.round) = some (t, outs)
      ∧ (t.sys.linkOf j).up = [.connect (literal "b")] ∧ Next t j (.connect (literal "b")) := by
  obtain ⟨l, hl, ⟨hkey, hstop, hexp⟩, hn, hup, hahead, -, hsome, -⟩ := crowd_reached
  obtain ⟨⟨t, outs⟩, hrun⟩ := Option.isSome_iff_exists.mp hsome
  have hlen : [(0 : UInt32), 0].length = ahead l 1 := hahead.symm
  obtain ⟨j, -, -, hjup, hnext⟩ :=
    (served_after hl hkey hstop hexp (by omega) hup hlen).1 t outs hrun
  exact ⟨l, t, outs, j, hl, hup, hahead, hrun, hjup, hnext⟩

theorem settles_crowd :
    ∃ l : Loop, waiting l = 3
      ∧ Acc (fun l' l => ∃ e out, Calm e ∧ step l e = some (l', out)) l := by
  obtain ⟨l, hl, ⟨hkey, -⟩, -, -, -, hwaiting, -⟩ := crowd_reached
  exact ⟨l, hwaiting, settles hl hkey⟩

/-- The moves of the system as events of the loop, when one client at a time has something. -/
def asEvents : Move → List Event
  | .accept csock => [.connect csock, .round 0]
  | .input c line => [.input c line]
  | .serve _ rand => [.round rand]
  | .receive c => [.receive c]
  | .hangUp _ => [.round 0]

/-- The players of a game that has just started. -/
theorem at_rest_meeting : ∃ l : Loop, (l.sys.server.rooms 0).game.turn = 0
    ∧ (l.sys.linkOf 0).state = .waitingPlayInput ∧ (l.sys.linkOf 1).state = .inGame := by
  obtain ⟨l, hl, hf⟩ := reaches (C := turnGuard)
    (f := fun l => decide (waiting l = 0 ∧ inFlight l = 0 ∧ l.sys.server.nbClients = 2
      ∧ l.sys.server.nbRooms = 1 ∧ (l.sys.server.rooms 0).game.isStarted = true
      ∧ (l.sys.server.rooms 0).game.turn = 0
      ∧ ((l.sys.server.rooms 0).game.players 0).id = (l.sys.server.clients 0).sock
      ∧ ((l.sys.server.rooms 0).game.players 1).id = (l.sys.server.clients 1).sock))
    (b := true) (meeting.flatMap asEvents) (by decide +kernel) (by decide +kernel)
  obtain ⟨hwaiting, hflight, hn, hnb, hst, hturn, hid0, hid1⟩ := of_decide_eq_true hf
  have hrest := atRest_of hl hwaiting hflight
  have hlive : Live l.sys.server 0 := live_iff.mpr (by omega)
  have h0 := at_rest hl hrest hlive hst Nat.zero_lt_two (by omega) hid0
  have h1 := at_rest hl hrest hlive hst Nat.one_lt_two (by omega) hid1
  rw [if_pos hturn] at h0
  rw [if_neg (by omega)] at h1
  exact ⟨l, hturn, h0, h1⟩

end AwaleLoop
