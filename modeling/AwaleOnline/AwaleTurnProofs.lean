import AwaleOnline.AwaleServiceProofs

/-!
# Turn agreement

The client has no copy of `game.turn`: it knows from the frames it counts whether to ask for a
move.  The server broadcasts a move to the entries of the room, whatever they hold.

* **`TurnAgreement`** — a player of a started room with nothing in flight asks for a move
  exactly when it is its turn;
* **`turn_agreement`** — it holds in every run under `turnGuard`: no room id is drawn twice,
  rooms are left and connections end without the loops that miss or copy an entry;
* **`turn_disagreement`** — the removal of the first of two spectators copies a player among
  them, which is told of a move twice.
-/

namespace AwaleTurn

open AwaleGame AwaleProtocol AwaleServer AwaleEffect AwaleBounds AwaleRoster AwaleDescriptor
open AwaleClient AwaleSystem AwaleTidy AwaleDialogue AwaleStanding AwaleService

variable {s : Server} {c i j : Nat} {rand : UInt32} {q : Request} {sys sys' : System}
  {out : List Sent}

/-! ## The condition -/

/-- The loops of a disconnection find the client's entry, and nothing else. -/
def turnGuard (sys : System) : Move → Prop
  | .serve c rand => ∀ q ∈ (sys.linkOf c).up.head?, RequestMeets sys.server c rand q
  | .hangUp c => ScanMeets sys.server c ∧ AllFound sys.server c
  | _ => True

instance (sys : System) : ∀ e, Decidable (turnGuard sys e)
  | .serve c rand =>
      inferInstanceAs (Decidable (∀ q ∈ (sys.linkOf c).up.head?, RequestMeets _ c rand q))
  | .hangUp _ => inferInstanceAs (Decidable (_ ∧ _))
  | .accept _ => isTrue trivial
  | .input _ _ => isTrue trivial
  | .receive _ => isTrue trivial

/-! ## The system -/

/-- The invariant of the runs under `turnGuard`. -/
structure InStep (sys : System) : Prop where
  settled : Settled (roster sys.server)
  opening : Opening sys.server
  coherent : ∀ a < sys.server.nbClients, Coherent sys.server a (sys.linkOf a).state
    (sys.linkOf a).up (sys.linkOf a).down

/-- What every run keeps, guarded or not. -/
structure Known (s : Server) : Prop where
  distinct : (roster s).Distinct
  sized : ∀ k, Sized (s.rooms k).game
  founded : ∀ k, Live s k → 0 < (s.rooms k).game.nbPlayers

theorem InStep.orderly (h : InStep sys) (hJ : Known sys.server) : Orderly sys.server :=
  ⟨h.settled, hJ.distinct, hJ.sized, hJ.founded, h.opening⟩

/-- Seats store the names of their clients. -/
theorem InStep.named (h : InStep sys) {b : Nat} (hb : b < sys.server.nbClients) {k e : Nat}
    (he : e < 2) (hown : entry sys.server k e = some (sys.server.clients b).sock) :
    ((sys.server.rooms k).game.players e).name = (sys.server.clients b).name := by
  cases h.coherent b hb with
  | fresh _ hout _ => exact absurd hown (hout k e)
  | loose _ hout _ => exact absurd hown (hout k e)
  | inside _ hown' hseat _ =>
      obtain ⟨rfl, rfl⟩ := h.settled.single b hb k e _ _ hown hown'
      exact hseat he

/-- A move of one client's connection. -/
theorem InStep.setLink (h : InStep sys) (hJ : Known sys.server) (hc : c < sys.server.nbClients)
    {l : Link} (hl : Coherent sys.server c l.state l.up l.down) :
    InStep ⟨sys.server, sys.setLink c l⟩ := by
  refine ⟨h.settled, h.opening, fun a ha => ?_⟩
  rw [linkOf_setLink]
  split
  · rename_i hsock
    obtain rfl := (hJ.distinct a ha).2 c hc hsock
    exact hl
  · exact h.coherent a ha

/-- The receive buffer plays no part. -/
theorem requestMeets_received {body : List UInt8} (h : RequestMeets s c rand q) :
    RequestMeets (AwaleEffect.received s body) c rand q := by
  cases q <;> exact h

theorem inStep_served {up : List Request} {q : Request} {rand : UInt32} {s' : Server}
    (h : InStep sys) (hJ : Known sys.server) (hc : c < sys.server.nbClients)
    (hup : (sys.linkOf c).up = q :: up) (hq : RequestMeets sys.server c rand q)
    (heff : Effect (AwaleEffect.received sys.server q.body) c rand q s' out) :
    InStep ⟨s', deliver (sys.setLink c { sys.linkOf c with up := up }) out⟩ := by
  have ho : Orderly (AwaleEffect.received sys.server q.body) :=
    ⟨h.settled, hJ.distinct, hJ.sized, hJ.founded, h.opening⟩
  have hcoh : ∀ a < sys.server.nbClients,
      Coherent (AwaleEffect.received sys.server q.body) a (sys.linkOf a).state
        (sys.linkOf a).up (sys.linkOf a).down :=
    fun a ha => (h.coherent a ha).congr rfl rfl rfl
  have hserved := served_request ho hc (fun b hb k e he hown => h.named hb he hown)
    (requestMeets_received hq) (hup ▸ hcoh c hc) heff
  refine ⟨hserved.settled, hserved.opening, fun a ha => ?_⟩
  have ha' : a < sys.server.nbClients := heff.counts ▸ ha
  rw [linkOf_served (fun b => heff.sock b), linkOf_setLink]
  split
  · rename_i hsock
    obtain rfl := (hJ.distinct a ha').2 c hc hsock
    exact hserved.own
  · rename_i hsock
    have hac : a ≠ c := fun heq => hsock (by rw [heq])
    exact (hcoh a ha').keeps ho.settled ha' (heff.sock a) (hserved.others a ha' hac)

theorem inStep_accepted {csock : Int} (h : InStep sys) (hpos : 0 < csock)
    (hnew : ∀ i < sys.server.nbClients, (sys.server.clients i).sock ≠ csock) :
    InStep ⟨accepted sys.server csock, Function.update sys.link csock .fresh⟩ := by
  refine ⟨settled_accepted h.settled hpos hnew, opening_rooms h.opening rfl rfl, fun a ha => ?_⟩
  rcases linkOf_accepted hnew ha with ⟨rfl, heq⟩ | ⟨hlt, heq⟩ <;> rw [heq]
  · have hself : (accepted sys.server csock).clients sys.server.nbClients
        = ⟨csock, CString.empty, 0, CString.empty⟩ := Function.update_self ..
    refine .fresh (congrArg Client.name hself) ?_
      (.start (List.forall_mem_nil _))
    -- no entry holds a descriptor that was closed
    intro k e he
    have he' : entry sys.server k e
        = some ((accepted sys.server csock).clients sys.server.nbClients).sock := he
    rw [hself] at he'
    rcases h.settled.sound k e csock he' with hneg | ⟨b, hb, hsock⟩
    · omega
    · exact hnew b hb hsock
  · exact (h.coherent a hlt).congr rfl rfl (Function.update_of_ne (Nat.ne_of_lt hlt) ..)

theorem inStep_hungUp {s₁ : Server} {buffer : Buffer} (h : InStep sys) (hJ : Known sys.server)
    (hc : c < sys.server.nbClients) (hm : ScanMeets sys.server c) (hall : AllFound sys.server c)
    (hd : disconnectUser sys.server c = .ok s₁) :
    InStep ⟨{ removeClient s₁ c with buffer := buffer }, sys.link⟩ := by
  have ho := h.orderly hJ
  have hseats : ∀ k, (sys.server.rooms k).game.nbPlayers ≤ 2 := fun k => (hJ.sized k).seats
  obtain ⟨hclients, hn, hnb⟩ := disconnectUser_frame hd
  have hdet := detached hseats hm hd
  obtain ⟨hset, hout⟩ := settled_disconnected h.settled hJ.distinct hseats hc hm hall hd
  have hopen : Opening s₁ := by
    cases hdet with
    | @seat i j _ =>
        exact opening_setGame i (setPlayerId (sys.server.rooms i).game j (-1)) h.opening rfl rfl
          (h.opening i)
    | @spectator i j _ _ _ =>
        exact opening_setGame i (removeSpectator (sys.server.rooms i).game j) h.opening rfl rfl
          (h.opening i)
    | absent _ _ => exact h.opening
  refine ⟨?_, opening_rooms hopen rfl rfl, fun a ha => ?_⟩
  · show Settled (roster (removeClient s₁ c))
    rw [roster_removeClient]
    exact hset.dismiss (show c < s₁.nbClients by omega) hout
  · obtain ⟨hlt, hentry, hlink⟩ := linkOf_hungUp (b := buffer) hc hd ha
    have hkept := (h.coherent _ hlt).keeps h.settled hlt (by rw [hclients])
      (ho.keeps_detached hlt hdet)
    rw [List.append_nil] at hkept
    rw [hlink]
    refine hkept.congr rfl rfl ?_
    rw [hclients]
    exact hentry

theorem inStep_moved {e : Move} (hJ : Known sys.server) (h : InStep sys) (hC : turnGuard sys e)
    (hm : Moved sys e sys' out) : InStep sys' := by
  cases hm with
  | accepted _ hpos hnew => exact inStep_accepted h hpos hnew
  | exited hc _ => exact h.setLink hJ hc (h.coherent _ hc)
  | typed hc _ ht _ => exact h.setLink hJ hc ((h.coherent _ hc).typed ht)
  | received hc _ hdown =>
      refine h.setLink hJ hc ?_
      exact Coherent.received (hdown ▸ h.coherent _ hc)
  | served hc hup heff =>
      refine inStep_served h hJ hc hup (hC _ ?_) heff
      rw [hup]
      rfl
  | hungUp hc _ _ hd => exact inStep_hungUp h hJ hc hC.1 hC.2 hd

theorem known_reachable (h : Reachable turnGuard sys) : Known sys.server :=
  have hserver := server_reachable h
  ⟨distinct_reachable hserver, sized_reachable hserver, founded_reachable hserver⟩

/-- A server without rooms has no entry, and one without clients no connection. -/
theorem inStep_initial {b : Buffer} {link : Int → Link} : InStep ⟨initial b, link⟩ := by
  have hentry : ∀ k e, (roster (initial b)).entry k e = none := by
    intro k e
    have hout : entry (initial b) k e = none := entry_none_of_le (Nat.zero_le k)
    exact hout
  have hlive : ∀ k, (roster (initial b)).live k = none := fun k => live_of_le (Nat.zero_le k)
  have hnone : ∀ a, ¬ a < (initial b).nbClients := fun a => Nat.not_lt_zero a
  refine ⟨⟨?_, ?_, ?_, ?_, ?_⟩, ?_, fun a ha => absurd ha (hnone a)⟩
  · intro k e x he
    rw [hentry k e] at he
    cases he
  · exact fun a ha => absurd ha (hnone a)
  · intro k id hk
    rw [hlive k] at hk
    cases hk
  · exact fun a ha => absurd ha (hnone a)
  · exact fun a ha => absurd ha (hnone a)
  · intro k hk
    have hk' : (k : Int) < 0 := hk
    omega

theorem inStep_reachable (h : Reachable turnGuard sys) : InStep sys := by
  refine invariant (J := fun sys => Known sys.server) (fun _ => known_reachable) ?_ ?_ h
  · rintro ⟨s, link⟩ ⟨⟨b, rfl⟩, rfl⟩
    exact inStep_initial
  · intro sys e sys' out hJ hI hC hm
    exact inStep_moved hJ hI hC hm

/-! ## Turn agreement -/

/-- Nothing is in flight on a connection. -/
def Quiet (l : Link) : Prop := l.up = [] ∧ l.down = []

/-- The players of a live started room ask for a move in turn. -/
structure TurnAgreement (sys : System) : Prop where
  agree : ∀ i, Live sys.server i → (sys.server.rooms i).game.isStarted = true →
    ∀ j < 2, ∀ c < sys.server.nbClients,
      ((sys.server.rooms i).game.players j).id = (sys.server.clients c).sock →
      Quiet (sys.linkOf c) →
      (sys.linkOf c).state
        = if (sys.server.rooms i).game.turn = j then .waitingPlayInput else .inGame
  one : ∀ i, Live sys.server i → (sys.server.rooms i).game.isStarted = true →
    ∀ c < sys.server.nbClients, ∀ c' < sys.server.nbClients,
      ((sys.server.rooms i).game.players 0).id = (sys.server.clients c).sock →
      ((sys.server.rooms i).game.players 1).id = (sys.server.clients c').sock →
      Quiet (sys.linkOf c) → Quiet (sys.linkOf c') →
      ¬ ((sys.linkOf c).state = .waitingPlayInput ∧ (sys.linkOf c').state = .waitingPlayInput)

theorem InStep.agree (h : InStep sys) (hJ : Known sys.server) (hi : Live sys.server i)
    (hst : (sys.server.rooms i).game.isStarted = true) (hj : j < 2)
    (hc : c < sys.server.nbClients)
    (hid : ((sys.server.rooms i).game.players j).id = (sys.server.clients c).sock)
    (hquiet : Quiet (sys.linkOf c)) :
    (sys.linkOf c).state
      = if (sys.server.rooms i).game.turn = j then .waitingPlayInput else .inGame := by
  have htwo := (hJ.sized i).started.mp hst
  have hown : entry sys.server i j = some (sys.server.clients c).sock :=
    entry_eq_some.mpr ⟨hi, Or.inl (by omega), hid⟩
  have hexpected : expected (sys.server.rooms i).game j
      = if (sys.server.rooms i).game.turn = j then .waitingPlayInput else .inGame := by
    split
    · exact expected_toMove hj hst ‹_›
    · exact expected_toWait hj hst ‹_›
  have hcoh := h.coherent c hc
  rw [hquiet.1, hquiet.2] at hcoh
  cases hcoh with
  | fresh _ hout _ => exact absurd hown (hout i j)
  | loose _ hout _ => exact absurd hown (hout i j)
  | inside _ hown' _ hin =>
      obtain ⟨rfl, rfl⟩ := h.settled.single c hc i j _ _ hown hown'
      exact hin.quiet.trans hexpected

/-- **TURN AGREEMENT.**  In every state of a run under `turnGuard`, a player of a live started
    room with nothing in flight is in WAITING_PLAY_INPUT if it is its turn and in IN_GAME
    otherwise; so never are both. -/
theorem turn_agreement (h : Reachable turnGuard sys) : TurnAgreement sys := by
  have hJ := known_reachable h
  have hin := inStep_reachable h
  refine ⟨fun i hi hst j hj c hc hid hquiet => hin.agree hJ hi hst hj hc hid hquiet, ?_⟩
  rintro i hi hst c hc c' hc' hid hid' hquiet hquiet' ⟨h0, h1⟩
  rw [hin.agree hJ hi hst Nat.zero_lt_two hc hid hquiet] at h0
  rw [hin.agree hJ hi hst Nat.one_lt_two hc' hid' hquiet'] at h1
  -- the turn is `0` for the first player and `1` for the second
  split at h0
  · split at h1
    · omega
    · cases h1
  · cases h0

/-- A client enters its name. -/
def enters (c : Nat) (name : String) : List Move :=
  [.input c (literal name), .serve c 0, .receive c]

/-- A client asks for room `7`, as a player or as a spectator. -/
def comes (c : Nat) (choice : String) : List Move :=
  [.input c (literal choice), .input c (literal "7"), .serve c 0, .receive c]

/-- Two clients meet in room `7`, which the first one opens. -/
def meeting : List Move :=
  [.accept 4, .accept 5] ++ enters 0 "a" ++ enters 1 "b"
    ++ [.input 0 (literal "1"), .serve 0 7, .receive 0] ++ comes 1 "2" ++ [.receive 1, .receive 0]

/-- A first move, and the other player loses its connection and comes back. -/
def comeback : List Move :=
  meeting ++ [.input 0 (literal "1"), .serve 0 0, .receive 0, .receive 1,
    .input 1 (literal "/close"), .hangUp 1, .accept 6] ++ enters 1 "b"

theorem turn_agreement_comeback :
    ∃ sys, ((sys.linkOf 0).state, (sys.linkOf 1).state) = (.inGame, .waitingPlayInput)
      ∧ TurnAgreement sys := by
  obtain ⟨sys, hr, hf⟩ := reaches (C := turnGuard)
    (f := fun sys => ((sys.linkOf 0).state, (sys.linkOf 1).state))
    (b := (.inGame, .waitingPlayInput)) comeback (by decide +kernel) (by decide +kernel)
  exact ⟨sys, hf, turn_agreement hr⟩

/-- With two spectators in the room, the first one leaves; then both players move. -/
def copiedPlayer : List Move :=
  meeting ++ [.accept 6, .accept 7] ++ enters 2 "c" ++ enters 3 "d" ++ comes 2 "3" ++ comes 3 "3"
    ++ [.input 2 (literal "/leave"), .serve 2 0,
      .input 0 (literal "1"), .serve 0 0, .receive 0, .receive 1, .receive 1,
      .input 1 (literal "1"), .serve 1 0, .receive 1, .receive 1, .receive 0]

/-- `players[2] = players[1]`: the second player is told of its own move twice, and the second
    frame makes it ask for another one. -/
theorem turn_disagreement :
    ∃ sys : System, Reachable GuardedRun.Always sys
      ∧ sys.linkOf 0 = ⟨.waitingPlayInput, [], [], false⟩
      ∧ sys.linkOf 1 = ⟨.waitingPlayInput, [], [], false⟩ ∧ ¬ TurnAgreement sys := by
  obtain ⟨sys, hr, hf⟩ := reaches (C := fun _ _ => True)
    (f := fun sys => decide (sys.linkOf 0 = ⟨.waitingPlayInput, [], [], false⟩
      ∧ sys.linkOf 1 = ⟨.waitingPlayInput, [], [], false⟩
      ∧ sys.server.nbClients = 4 ∧ sys.server.nbRooms = 1
      ∧ (sys.server.rooms 0).game.isStarted = true
      ∧ ((sys.server.rooms 0).game.players 0).id = (sys.server.clients 0).sock
      ∧ ((sys.server.rooms 0).game.players 1).id = (sys.server.clients 1).sock))
    (b := true) copiedPlayer (by decide +kernel) (by decide +kernel)
  obtain ⟨h0, h1, hn, hnb, hst, hid0, hid1⟩ := of_decide_eq_true hf
  refine ⟨sys, hr, h0, h1, fun h => ?_⟩
  have hlive : Live sys.server 0 := live_iff.mpr (by omega)
  have hquiet : ∀ {l : Link}, l = ⟨.waitingPlayInput, [], [], false⟩ → Quiet l := by
    rintro l rfl
    exact ⟨rfl, rfl⟩
  exact h.one 0 hlive hst 0 (by omega) 1 (by omega) hid0 hid1 (hquiet h0) (hquiet h1)
    ⟨congrArg Link.state h0, congrArg Link.state h1⟩

end AwaleTurn
