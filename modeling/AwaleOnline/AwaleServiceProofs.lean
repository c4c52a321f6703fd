import AwaleOnline.AwaleStandingProofs

/-!
# Serving a request

What the server does with the oldest request of a client, seen from all connections at once.

* **`RequestMeets`** — the condition on a request: where the handler draws an id in use, works
  on a slot without a room, or misses or copies an entry, the players lose count;
* **`Coherent`** — what is in flight on a connection agrees with where the server has its
  client: without a name, in no room, or in an entry that stands for a state;
* **`served_request`** — serving a request keeps every connection coherent.
-/

namespace AwaleService

open AwaleGame AwaleProtocol AwaleServer AwaleEffect AwaleBounds AwaleRoster
open AwaleClient AwaleSystem AwaleTidy AwaleDialogue AwaleStanding

variable {s s' : Server} {a c i j k e : Nat} {rand roomId : UInt32} {spectate pos : UInt8}
  {name : CString} {q : Request} {st : State} {U : List Request} {D fs : List ServerMsg}
  {out : List Sent}

/-! ## The condition -/

/-- `rand()` returns an id that no room and no client has.  A client whose room the server does
    not find is in none of the entries it would work on; a player that leaves alone stops no
    other room's game; a spectator that leaves is the last one. -/
def RequestMeets (s : Server) (c : Nat) (rand : UInt32) : Request → Prop
  | .createRoom => rand ≠ 0 ∧ (∀ k < s.nbRooms.toNat, (s.rooms k).id ≠ rand)
      ∧ ∀ a < s.nbClients, (s.clients a).roomId ≠ rand
  | .leaveRoom =>
      (findRoom s (s.clients c).roomId = none →
        findPlayer (s.rooms s.nbRooms.toNat).game (s.clients c).sock = none)
      ∧ ∀ i ∈ findRoom s (s.clients c).roomId,
        (findPlayer (s.rooms i).game (s.clients c).sock ≠ none → StopsOnly s i)
        ∧ (findPlayer (s.rooms i).game (s.clients c).sock = none →
          ∀ j ∈ findSpectator (s.rooms i).game (s.clients c).sock,
            j + 1 = (s.rooms i).game.nbSpectators)
  | _ => True

instance (s : Server) (c : Nat) (rand : UInt32) (q : Request) :
    Decidable (RequestMeets s c rand q) := by
  refine q.casesOn ?_ ?_ ?_ ?_ ?_ ?_ ?_ <;> intros <;> dsimp only [RequestMeets] <;> infer_instance

/-! ## A client and its connection -/

/-- What is in flight agrees with where the server has the client. -/
inductive Coherent (s : Server) (a : Nat) : State → List Request → List ServerMsg → Prop where
  | fresh {st : State} {U : List Request} {D : List ServerMsg} :
      (s.clients a).name = CString.empty → Absent (roster s) a → Fresh st U D →
      Coherent s a st U D
  | loose {st : State} {U : List Request} {D : List ServerMsg} :
      (s.clients a).name ≠ CString.empty → Absent (roster s) a → Loose st U D →
      Coherent s a st U D
  | inside {k e : Nat} {st : State} {U : List Request} {D : List ServerMsg} :
      (s.clients a).name ≠ CString.empty → entry s k e = some (s.clients a).sock →
      (e < 2 → ((s.rooms k).game.players e).name = (s.clients a).name) →
      Inside (expected (s.rooms k).game e) st U D → Coherent s a st U D

/-- The connection of a client under another index, or in a server with the same rooms. -/
theorem Coherent.congr {b : Nat} (h : Coherent s b st U D) (hrooms : s'.rooms = s.rooms)
    (hnb : s'.nbRooms = s.nbRooms) (hclient : s'.clients a = s.clients b) :
    Coherent s' a st U D := by
  have hentry := entry_congr hrooms hnb
  have habsent : Absent (roster s) b → Absent (roster s') a := by
    intro hout k e he
    have he' : entry s' k e = some (s'.clients a).sock := he
    rw [hentry, hclient] at he'
    exact hout k e he'
  cases h with
  | fresh hname hout h => exact .fresh (hclient.symm ▸ hname) (habsent hout) h
  | loose hname hout h => exact .loose (hclient.symm ▸ hname) (habsent hout) h
  | @inside k e _ _ _ hname hown hseat h =>
      refine .inside (k := k) (e := e) (hclient.symm ▸ hname) ?_ ?_ (hrooms.symm ▸ h)
      · rw [hentry, hclient]
        exact hown
      · rw [hrooms, hclient]
        exact hseat

theorem Coherent.typed {st' : State} {sent : List Request} (h : Coherent s a st U D)
    (ht : Typed st st' sent) : Coherent s a st' (U ++ sent) D := by
  cases h with
  | fresh hname habsent h => exact .fresh hname habsent (h.typed ht)
  | loose hname habsent h => exact .loose hname habsent (h.typed ht)
  | inside hname hown hseat h =>
      exact .inside hname hown hseat (h.typed (expected_inRoom _ _) ht)

theorem Coherent.received {m : ServerMsg} (h : Coherent s a st U (m :: D)) :
    Coherent s a (after st m) U D := by
  cases h with
  | fresh hname habsent h => exact .fresh hname habsent h.received
  | loose hname habsent h => exact .loose hname habsent h.received
  | inside hname hown hseat h => exact .inside hname hown hseat h.received

/-- **A REQUEST OF SOMEONE ELSE.** -/
theorem Coherent.keeps (h : Coherent s a st U D) (hset : Settled (roster s))
    (ha : a < s.nbClients) (hsock : (s'.clients a).sock = (s.clients a).sock)
    (hk : Keeps s s' a fs) : Coherent s' a st U (D ++ fs) := by
  have hstay : Absent (roster s) a → Absent (roster s') a := by
    intro habsent k' e he
    have he' : entry s' k' e = some (s'.clients a).sock := he
    rw [hsock] at he'
    obtain ⟨k, hold, -⟩ := hk.origin k' e he'
    exact habsent k e hold
  cases h with
  | fresh hname habsent h =>
      exact .fresh (hk.name.trans hname) (hstay habsent) (h.more (hk.idle habsent))
  | loose hname habsent h =>
      exact .loose (hk.name.trans_ne hname) (hstay habsent) (h.more hk.stale)
  | @inside k e _ _ _ hname hown hseat h =>
      by_cases habsent : Absent (roster s') a
      · -- the room has been closed
        exact .loose (hk.name.trans_ne hname) habsent (h.out (expected_inRoom _ _) hk.stale)
      · obtain ⟨k', e', he'⟩ := entry_of_not_absent habsent
        rw [hsock] at he'
        obtain ⟨k₀, hold, hname', hwalk⟩ := hk.origin k' e' he'
        obtain ⟨rfl, rfl⟩ := hset.single a ha k₀ e' k e hold hown
        refine .inside (hk.name.trans_ne hname) (hsock.symm ▸ he') ?_ (h.more hwalk hk.stale)
        intro h2
        rw [hname', hk.name]
        exact hseat h2

/-! ### The oldest request -/

/-- Only a client without a name is waiting for the answer to CONNECT. -/
theorem Coherent.connecting (h : Coherent s c st (.connect name :: U) D) :
    (s.clients c).name = CString.empty ∧ Absent (roster s) c ∧ st = .waitingConnection
      ∧ U = [] ∧ ∀ m ∈ D, Idle m := by
  cases h with
  | fresh hname habsent h =>
      obtain ⟨hst, hU, hD, -⟩ := h.head
      exact ⟨hname, habsent, hst, hU, hD⟩
  | loose _ _ h =>
      rcases h.head with ⟨hq, -⟩ | ⟨hasks, -⟩
      · exact hq.elim
      · cases hasks
  | inside _ _ _ h =>
      rcases h.head with ⟨hq, -⟩ | ⟨-, -, -, -, pos, hq⟩ | ⟨hq, -⟩
      · exact hq.elim
      · cases hq
      · cases hq

/-- A client that asks for a room is in none. -/
theorem Coherent.asking (h : Coherent s c st (q :: U) D) (hq : q = .createRoom
      ∨ ∃ roomId spectate, q = .joinRoom roomId spectate) :
    (s.clients c).name ≠ CString.empty ∧ Absent (roster s) c ∧ Asks st q ∧ U = []
      ∧ ∀ m ∈ D, Stale m := by
  have hharm : ¬ Harmless q := by
    rcases hq with rfl | ⟨_, _, rfl⟩ <;> exact id
  cases h with
  | fresh _ _ h =>
      obtain ⟨-, -, -, name, rfl⟩ := h.head
      rcases hq with hq | ⟨_, _, hq⟩ <;> cases hq
  | loose hname habsent h =>
      rcases h.head with ⟨hno, -⟩ | ⟨hasks, hU, hD⟩
      · exact absurd hno hharm
      · exact ⟨hname, habsent, hasks, hU, hD⟩
  | inside _ _ _ h =>
      rcases h.head with ⟨hno, -⟩ | ⟨-, -, -, -, pos, rfl⟩ | ⟨rfl, -⟩
      · exact absurd hno.harmless hharm
      · exact absurd trivial hharm
      · exact absurd trivial hharm

/-- A move comes from the player to move, or from a client whose room is gone. -/
theorem Coherent.moving (h : Coherent s c st (.play pos :: U) D) :
    (s.clients c).name ≠ CString.empty ∧ ((Absent (roster s) c ∧ Loose st U D)
      ∨ ∃ k e, entry s k e = some (s.clients c).sock
        ∧ ((s.rooms k).game.players e).name = (s.clients c).name
        ∧ expected (s.rooms k).game e = .waitingPlayInput
        ∧ st = .waitingPlayAck ∧ U = [] ∧ ∀ m ∈ D, Chat m) := by
  cases h with
  | fresh _ _ h =>
      obtain ⟨-, -, -, name, hq⟩ := h.head
      cases hq
  | loose hname habsent h =>
      rcases h.head with ⟨-, hl⟩ | ⟨hasks, -⟩
      · exact ⟨hname, Or.inl ⟨habsent, hl⟩⟩
      · cases hasks
  | @inside k e _ _ _ hname hown hseat h =>
      rcases h.head with ⟨hq, -⟩ | ⟨ht, hst, hU, hD, -⟩ | ⟨hq, -⟩
      · exact hq.elim
      · have he := (expected_eq_waitingPlayInput ht).1
        exact ⟨hname, Or.inr ⟨k, e, hown, hseat he, ht, hst, hU, hD⟩⟩
      · cases hq

/-- A client that has sent LEAVE_ROOM behaves as one in no room. -/
theorem Coherent.leaving (h : Coherent s c st (.leaveRoom :: U) D) :
    (s.clients c).name ≠ CString.empty ∧ Loose st U D := by
  cases h with
  | fresh _ _ h =>
      obtain ⟨-, -, -, name, hq⟩ := h.head
      cases hq
  | loose hname _ h =>
      rcases h.head with ⟨-, hl⟩ | ⟨hasks, -⟩
      · exact ⟨hname, hl⟩
      · cases hasks
  | inside hname _ _ h =>
      rcases h.head with ⟨hq, -⟩ | ⟨-, -, -, -, pos, hq⟩ | ⟨-, hl⟩
      · exact hq.elim
      · cases hq
      · exact ⟨hname, hl⟩

/-- A message or a biography leaves the rest as it is. -/
theorem Coherent.saying (h : Coherent s c st (q :: U) D)
    (hq : (∃ message, q = .sendMessage message) ∨ ∃ biography, q = .setBiography biography) :
    Coherent s c st U D := by
  cases h with
  | fresh _ _ h =>
      obtain ⟨-, -, -, name, rfl⟩ := h.head
      rcases hq with ⟨_, hq⟩ | ⟨_, hq⟩ <;> cases hq
  | loose hname habsent h =>
      rcases h.head with ⟨-, hl⟩ | ⟨hasks, -⟩
      · exact .loose hname habsent hl
      · rcases hq with ⟨_, rfl⟩ | ⟨_, rfl⟩ <;> cases hasks
  | inside hname hown hseat h =>
      rcases h.head with ⟨-, hin⟩ | ⟨-, -, -, -, pos, rfl⟩ | ⟨rfl, -⟩
      · exact .inside hname hown hseat hin
      · rcases hq with ⟨_, hq⟩ | ⟨_, hq⟩ <;> cases hq
      · rcases hq with ⟨_, hq⟩ | ⟨_, hq⟩ <;> cases hq

/-! ## What a request does -/

/-- Serving a request of client `c`, whose connection was `st`, `U`, `D` behind it. -/
structure Served (s s' : Server) (c : Nat) (out : List Sent) (st : State) (U : List Request)
    (D : List ServerMsg) : Prop where
  settled : Settled (roster s')
  opening : Opening s'
  others : ∀ a < s.nbClients, a ≠ c → Keeps s s' a (framesTo (s.clients a).sock out)
  own : Coherent s' c st U (D ++ framesTo (s.clients c).sock out)

theorem opening_rooms (h : Opening s) (hrooms : s'.rooms = s.rooms)
    (hnb : s'.nbRooms = s.nbRooms) : Opening s' := by
  intro k hk hst
  rw [hrooms] at hst ⊢
  exact h k ((live_congr hnb k).mp hk) hst

theorem opening_setGame (i : Nat) (game : Game) (h : Opening s)
    (hrooms : s'.rooms = (setGame s i game).rooms) (hnb : s'.nbRooms = s.nbRooms)
    (hgame : Live s i → game.isStarted = false → game.turn = 0) : Opening s' := by
  intro k hk hst
  have hk' : Live s k := (live_congr hnb k).mp hk
  rw [hrooms] at hst ⊢
  by_cases hki : k = i
  · subst hki
    rw [setGame_self] at hst ⊢
    exact hgame hk' hst
  · rw [setGame_of_ne hki] at hst ⊢
    exact h k hk' hst

theorem opening_deleteRoom {u : Server} (h : Opening s)
    (hrooms : ∀ k, k ≠ i → u.rooms k = s.rooms k) (hnb : u.nbRooms = s.nbRooms) :
    Opening (deleteRoom u i) := by
  intro k hk
  obtain ⟨hlive, hroom⟩ := live_deleteRoom hk
  rw [hroom, hrooms _ (SlotArray.skip_ne i k)]
  exact h _ ((live_congr hnb _).mp hlive)

/-- The others get nothing of an answer. -/
theorem framesTo_answer (ho : Orderly s) (ha : a < s.nbClients) (hc : c < s.nbClients)
    (hac : a ≠ c) (m : ServerMsg) :
    framesTo (s.clients a).sock (writeClient (s.clients c).sock m) = [] :=
  framesTo_other (ho.sock_ne ha hc hac) m

theorem framesTo_own (ho : Orderly s) (hc : c < s.nbClients) (m : ServerMsg) :
    framesTo (s.clients c).sock (writeClient (s.clients c).sock m) = [m] :=
  framesTo_self (ho.sock_ne_vacant hc) m

/-- Answered by `m`, with nothing changed for the others. -/
theorem served_answer (ho : Orderly s) (hc : c < s.nbClients) {m : ServerMsg}
    (hset : Settled (roster s')) (hopen : Opening s')
    (hothers : ∀ a < s.nbClients, a ≠ c → Keeps s s' a [])
    (hown : Coherent s' c st U (D ++ [m])) :
    Served s s' c (writeClient (s.clients c).sock m) st U D where
  settled := hset
  opening := hopen
  others := by
    intro a ha hac
    rw [framesTo_answer ho ha hc hac]
    exact hothers a ha hac
  own := by
    rw [framesTo_own ho hc]
    exact hown

theorem keeps_refl (s : Server) (a : Nat) : Keeps s s a [] :=
  .rooms rfl rfl rfl (List.forall_mem_nil _)

theorem roster_mem_own {id : UInt32} (s : Server) (c i e : Nat) :
    (((roster s).put i e (some (s.clients c).sock)).enter c id).entry i e
      = some (s.clients c).sock := if_pos ⟨rfl, rfl⟩

/-! ### CONNECT -/

/-- What a reconnecting client is sent leads it to where its seat is. -/
theorem resume_walk {s : Server} {game : Game} {m : ServerMsg} (hj : j < 2)
    (h : Resume s game j m) : Walk .waitingConnection [m] (expected game j) := by
  cases h with
  | waiting hst hframe =>
      obtain ⟨_, _, _, _, rfl⟩ := joinRoomFrame_ok hframe
      rw [expected_waiting hj hst]
      exact .single .back
  | toMove hst ht =>
      rw [expected_toMove hj hst ht]
      exact .single .backToMove
  | toWait hst ht =>
      rw [expected_toWait hj hst ht]
      exact .single .backToWait

theorem served_connect (ho : Orderly s) (hc : c < s.nbClients)
    (hnamed : ∀ b < s.nbClients, ∀ k e, e < 2 → entry s k e = some (s.clients b).sock →
      ((s.rooms k).game.players e).name = (s.clients b).name)
    (hcoh : Coherent s c st (.connect name :: U) D)
    (heff : Effect s c rand (.connect name) s' out) : Served s s' c out st U D := by
  obtain ⟨hempty, habsent, rfl, rfl, hD⟩ := hcoh.connecting
  have hsock := heff.sock c
  -- the sender itself has the empty name
  have hname : nameInUse s name = false → name ≠ CString.empty := by
    rintro hfree rfl
    rw [nameInUse_iff.mpr ⟨c, hc, hempty⟩] at hfree
    cases hfree
  cases heff with
  | nameRefused _ =>
      refine served_answer ho hc ho.settled ho.opening (fun a _ _ => keeps_refl s a) ?_
      exact .fresh hempty habsent (.refused hD (List.forall_mem_nil _))
  | named hfree _ =>
      have hclient : ((setClient s c { s.clients c with name := name }).clients c).name = name := by
        rw [setClient_self]
      refine served_answer ho hc ?_ (opening_rooms ho.opening rfl rfl) ?_ ?_
      · rw [roster_rename]
        exact ho.settled
      · intro a _ hac
        refine .rooms ?_ rfl rfl (List.forall_mem_nil _)
        exact congrArg Client.name (setClient_of_ne hac _)
      · refine .loose (hclient.trans_ne (hname hfree)) ?_ ?_
        · rw [roster_rename]
          exact habsent
        · exact .answered (Or.inl rfl) (List.forall_mem_nil _)
            (fun m hm => after_idle (hD m hm)) (Or.inl (Or.inl rfl)) (List.forall_mem_nil _)
  | @resumed _ i j m hfree hseat hresume =>
      obtain ⟨hi, hj, hseatname⟩ := findSeat_some hseat
      have hj2 : j < 2 := Nat.lt_of_lt_of_le hj (ho.sized i).seats
      have hclient : ((reseated s c name i j).clients c).name = name := by
        rw [reseated, setRoomId_name]
        exact congrArg Client.name (setClient_self s c _)
      have hgame : ((reseated s c name i j).rooms i).game
          = setPlayerId (s.rooms i).game j (s.clients c).sock := setGame_self _ i _
      refine served_answer ho hc ?_ ?_ ?_ ?_
      · rw [roster_reseated hi hj]
        refine ho.settled.seat ho.distinct hc habsent (live_eq_some.mpr ⟨hi, rfl⟩) ?_
        -- the holder of the seat would have the name
        intro b hb hheld
        have hused := nameInUse_iff.mpr ⟨b, hb,
          (hnamed b hb i j hj2 hheld).symm.trans hseatname⟩
        rw [hused] at hfree
        cases hfree
      · exact opening_setGame i (setPlayerId (s.rooms i).game j (s.clients c).sock) ho.opening
          rfl rfl (ho.opening i)
      · intro a ha hac
        exact ho.keeps_reseated ha hc hac hseat
      · refine .inside (k := i) (e := j) (hclient.trans_ne (hname hfree)) ?_ ?_ ?_
        · rw [hsock, entry_of_roster (roster_reseated hi hj)]
          exact roster_mem_own s c i j
        · intro _
          rw [hgame, setPlayerId_name, hseatname, hclient]
        · rw [hgame]
          refine .settled ?_ (List.forall_mem_nil _)
          exact (Walk.stay fun m hm => .stopped (hD m hm)).append (resume_walk hj2 hresume)

/-! ### CREATE_ROOM and JOIN_ROOM -/

theorem served_createRoom (ho : Orderly s) (hc : c < s.nbClients)
    (hq : RequestMeets s c rand .createRoom) (hcoh : Coherent s c st (.createRoom :: U) D)
    (heff : Effect s c rand .createRoom s' out) : Served s s' c out st U D := by
  obtain ⟨hname, habsent, hasks, rfl, hD⟩ := hcoh.asking (Or.inl rfl)
  obtain ⟨hrand, hids, hrooms⟩ := hq
  cases hasks
  cases heff with
  | created h0 _ =>
      have hnew : ∀ k, (roster s).live k ≠ some rand := by
        intro k hk
        obtain ⟨hlive, hid⟩ := live_eq_some.mp hk
        exact hids k (live_iff.mp hlive) hid
      have hnone : ∀ e, (roster s).entry (roster s).nbRooms e = none :=
        fun e => entry_none_of_le (Nat.le_refl _)
      have hroom : (created s c rand).rooms s.nbRooms.toNat = newRoom s c rand :=
        created_new s c rand
      have hfirst : (newRoom s c rand).game.players 0 = { newPlayer s c with captured := 0 } :=
        rfl
      have hclient : ((created s c rand).clients c).name = (s.clients c).name :=
        setRoomId_name s c rand c
      have hsock : ((created s c rand).clients c).sock = (s.clients c).sock :=
        setRoomId_sock s c rand c
      refine served_answer ho hc ?_ ?_ (fun a ha hac => ho.keeps_created ha hc hac h0) ?_
      · rw [roster_created h0]
        refine Settled.seat (r := (roster s).launch rand)
          (ho.settled.launch hrand hnew hrooms hnone) ho.distinct hc habsent (if_pos rfl) ?_
        intro b _ he
        rw [show ((roster s).launch rand).entry s.nbRooms.toNat 0 = none from hnone 0] at he
        cases he
      · intro k hk hst
        by_cases hkn : k = s.nbRooms.toNat
        · rw [hkn, hroom]
          rfl
        · rw [created_old c rand hkn] at hst ⊢
          exact ho.opening k (live_of_lt_succ hk hkn) hst
      · refine .inside (k := s.nbRooms.toNat) (e := 0) (hclient.trans_ne hname) ?_ ?_ ?_
        · rw [hsock, entry_of_roster (roster_created h0)]
          exact if_pos ⟨rfl, rfl⟩
        · intro _
          rw [hroom, hclient, hfirst]
          rfl
        · have hwait : expected (newRoom s c rand).game 0 = .inRoom :=
            expected_waiting Nat.zero_lt_two rfl
          rw [hroom, hwait]
          refine .settled ?_ (List.forall_mem_nil _)
          exact (Walk.stay fun m hm => .skip (Or.inl rfl) (hD m hm)).append (.single .created)

/-- A refused join: `handle_join_room_refused` brings a player back to the menu and ignores the
    answer to a spectator. -/
theorem loose_refused (h : Asks st (.joinRoom roomId spectate)) (hD : ∀ m ∈ D, Stale m)
    (text : CString) : Loose st [] (D ++ [.joinRoomRefused text]) := by
  have hstay : ∀ m ∈ D, after st m = st := fun m hm => after_asking h.asking (hD m hm)
  cases h with
  | join =>
      exact .answered (Or.inr (Or.inr (Or.inl rfl))) (List.forall_mem_nil _)
        hstay (Or.inl (Or.inl rfl)) (List.forall_mem_nil _)
  | spectate =>
      refine .ignored (List.forall_mem_nil _) ?_
      refine List.forall_mem_append.mpr ⟨hstay, fun m hm => ?_⟩
      rw [List.mem_singleton.mp hm]
      rfl

/-- A newcomer takes an entry that was no member's. -/
theorem settled_joined (ho : Orderly s) (hc : c < s.nbClients) (habsent : Absent (roster s) c)
    (hfind : findRoom s roomId = some i) (hopen : JoinOpen (s.rooms i).game spectate) :
    Settled (((roster s).put i (addIndex (s.rooms i).game (spectate ≠ 0))
      (some (s.clients c).sock)).enter c roomId) := by
  obtain ⟨hi, hid, -⟩ := findRoom_eq_some.mp hfind
  refine ho.settled.seat ho.distinct hc habsent (live_eq_some.mpr ⟨hi, hid⟩) ?_
  intro b _ he
  exact addIndex_not_member (ho.sized i).seats hopen (entry_eq_some.mp he).2.1

theorem served_joinRoom (ho : Orderly s) (hc : c < s.nbClients)
    (hcoh : Coherent s c st (.joinRoom roomId spectate :: U) D)
    (heff : Effect s c rand (.joinRoom roomId spectate) s' out) :
    Served s s' c out st U D := by
  obtain ⟨hname, habsent, hasks, rfl, hD⟩ := hcoh.asking (Or.inr ⟨_, _, rfl⟩)
  cases heff with
  | joinNotFound _ =>
      exact served_answer ho hc ho.settled ho.opening (fun a _ _ => keeps_refl s a)
        (.loose hname habsent (loose_refused hasks hD _))
  | joinFull _ _ =>
      exact served_answer ho hc ho.settled ho.opening (fun a _ _ => keeps_refl s a)
        (.loose hname habsent (loose_refused hasks hD _))
  | @joined _ _ i frame hfind hopen hframe hgo =>
      have hi := (findRoom_eq_some.mp hfind).1
      obtain ⟨_, _, _, _, rfl⟩ := joinRoomFrame_ok hframe
      have hsp := ho.joined_spectates hi hopen hgo
      have hindex : addIndex (s.rooms i).game (spectate ≠ 0)
          = 2 + (s.rooms i).game.nbSpectators := by
        simp [addIndex, hsp]
      have hroster : roster (setRoomId (setGame s i (joinedGame s c i spectate)) c roomId) = _ :=
        roster_joined hi hopen rfl rfl rfl
      refine served_answer ho hc ?_ ?_ (fun a ha hac => ho.keeps_joined ha hc hac hfind hopen) ?_
      · rw [joined, hroster]
        exact settled_joined ho hc habsent hfind hopen
      · exact opening_setGame i (joinedGame s c i spectate) ho.opening rfl rfl (ho.opening i)
      · have hentry := entry_of_roster hroster i (addIndex (s.rooms i).game (spectate ≠ 0))
        refine .inside (k := i) (e := addIndex (s.rooms i).game (spectate ≠ 0)) ?_ ?_ ?_ ?_
        · exact (setRoomId_name _ c roomId c).trans_ne hname
        · rw [joined, setRoomId_sock, hentry]
          exact roster_mem_own s c i _
        · intro h2
          omega
        · rw [expected_spectator _ (by omega)]
          cases hasks with
          -- a second player would have started the game
          | join => exact absurd rfl hsp
          | spectate =>
              refine .settled ?_ (List.forall_mem_nil _)
              exact (Walk.stay fun m hm => .skip (Or.inr (Or.inr rfl)) (hD m hm)).append
                (.single .watching)
  | @started _ _ i frame hfind hopen hframe hgo =>
      have hi := (findRoom_eq_some.mp hfind).1
      obtain ⟨_, _, _, _, rfl⟩ := joinRoomFrame_ok hframe
      obtain ⟨rfl, hone, hst, hturn⟩ := ho.started_seats hi hgo
      have hindex : addIndex (s.rooms i).game ((0 : UInt8) ≠ 0) = 1 := hone
      have hroster : roster (setRoomId (setGame s i
          { joinedGame s c i 0 with isStarted := true }) c roomId) = _ :=
        roster_joined hi hopen rfl rfl rfl
      have hgame := setGame_self (joined s c i roomId 0) i
        { joinedGame s c i 0 with isStarted := true }
      obtain ⟨hplayers, hfirst, hsecond⟩ := started_players (s := s) (c := c) hone
      refine ⟨?_, ?_, ?_, ?_⟩
      · rw [setGame_joined, hroster]
        exact settled_joined ho hc habsent hfind hopen
      · rw [setGame_joined]
        exact opening_setGame i { joinedGame s c i 0 with isStarted := true } ho.opening
          rfl rfl fun _ hfalse => by cases hfalse
      · intro a ha hac
        rw [framesTo_append, framesTo_answer ho ha hc hac, List.nil_append]
        exact ho.keeps_started ha hc hac hfind hopen hgo
      · -- the newcomer gets GAME_START behind the answer
        have hstart : framesTo (s.clients c).sock (gameStarts (joinedGame s c i 0))
            = [.gameStart 1] := by
          refine framesTo_gameStarts (j := 1) (ho.sock_ne_vacant hc) hgo.1 ?_ ?_
          · rw [hsecond]
            rfl
          · intro k hk hid
            rw [hplayers] at hk
            obtain rfl | rfl : k = 0 ∨ k = 1 := by omega
            · rw [hfirst] at hid
              exact absurd (entry_eq_some.mpr ⟨hi, Or.inl (by omega), hid⟩) (habsent i 0)
            · rfl
        rw [framesTo_append, framesTo_own ho hc, hstart]
        refine .inside (k := i) (e := 1) ?_ ?_ ?_ ?_
        · exact (setRoomId_name _ c roomId c).trans_ne hname
        · rw [setGame_joined, setRoomId_sock, entry_of_roster hroster, ← hindex]
          exact roster_mem_own s c i _
        · intro _
          rw [hgame]
          show ((joinedGame s c i 0).players 1).name
            = ((setRoomId _ c roomId).clients c).name
          rw [hsecond, setRoomId_name]
          rfl
        · have hwait : expected { joinedGame s c i 0 with isStarted := true } 1 = .inGame := by
            refine expected_toWait Nat.one_lt_two rfl ?_
            show (s.rooms i).game.turn ≠ 1
            omega
          rw [hgame, hwait]
          cases hasks with
          | join =>
              refine .settled ?_ (List.forall_mem_nil _)
              exact (Walk.stay fun m hm => .skip (Or.inr (Or.inl rfl)) (hD m hm)).append
                (.cons .joined (.single .startSecond))

/-! ### PLAY -/

/-- The answer to a move, for the mover. -/
theorem mover_walk (ho : Orderly s) (hc : c < s.nbClients)
    (hown : entry s k e = some (s.clients c).sock)
    (hturn : expected (s.rooms k).game e = .waitingPlayInput) :
    Walk .waitingPlayAck (framesTo (s.clients c).sock (replies s c k pos))
      (expected (playIn s c k pos).1 e) := by
  obtain ⟨he, hst, ht⟩ := expected_eq_waitingPlayInput hturn
  obtain ⟨-, -, -, hstarted⟩ := playIn_frame s c k pos
  by_cases hvalid : (playIn s c k pos).2 = .validPlay
  · obtain ⟨_, _, _, hfs⟩ := ho.framesTo_valid hc hown hvalid
    have hturn' := playIn_turn hvalid
    rw [hfs, expected_toWait he (hstarted.trans hst) (by split at hturn' <;> omega)]
    exact .single .acked
  · rw [ho.framesTo_rejected hc he hown hvalid, framesTo_own ho hc, playIn_rejected hvalid, hturn]
    exact .single .rejected

theorem served_play (ho : Orderly s) (hc : c < s.nbClients)
    (hcoh : Coherent s c st (.play pos :: U) D) (heff : Effect s c rand (.play pos) s' out) :
    Served s s' c out st U D := by
  obtain ⟨hname, ⟨habsent, hl⟩ | ⟨k, e, hown, hseat, hturn, rfl, rfl, hD⟩⟩ := hcoh.moving
  · have hnone := ho.settled.findRoom_absent hc habsent
    cases heff with
    | playedNowhere _ =>
        refine ⟨ho.settled, ho.opening, fun a _ _ => keeps_refl s a, ?_⟩
        exact .loose hname habsent (hl.more (List.forall_mem_nil _))
    | played hfind _ =>
        rw [hnone] at hfind
        cases hfind
    | playedLast hfind _ =>
        rw [hnone] at hfind
        cases hfind
  · have hfound := ho.settled.findRoom_member hc hown
    obtain ⟨he, hst, -⟩ := expected_eq_waitingPlayInput hturn
    obtain ⟨-, hsame, -, hstarted⟩ := playIn_frame s c k pos
    cases heff with
    | playedNowhere hfind =>
        rw [hfind] at hfound
        cases hfound
    | @played _ i hfind _ =>
        obtain rfl := Option.some.inj (hfind.symm.trans hfound)
        refine ⟨?_, ?_, fun a ha hac => ho.keeps_played ha hc hac hown hturn, ?_⟩
        · rw [roster_played]
          exact ho.settled
        · refine opening_setGame i (playIn s c i pos).1 ho.opening rfl rfl fun _ hfalse => ?_
          rw [hstarted, hst] at hfalse
          cases hfalse
        · refine .inside (k := i) (e := e) hname ?_ ?_ ?_
          · rw [entry_of_roster (roster_played s c i pos)]
            exact hown
          · intro _
            rw [setGame_self, (hsame e).2.1]
            exact hseat
          · rw [setGame_self]
            refine .settled ?_ (List.forall_mem_nil _)
            exact (Walk.stay fun m hm => .chat (hD m hm)).append (mover_walk ho hc hown hturn)
    | @playedLast _ i hfind _ =>
        obtain rfl := Option.some.inj (hfind.symm.trans hfound)
        refine ⟨?_, ?_, fun a ha hac => ho.keeps_playedLast ha hc hac hown hturn, ?_⟩
        · rw [roster_deleteRoom, roster_played]
          exact ho.settled.close
        · exact opening_deleteRoom ho.opening (fun k hk => setGame_of_ne hk _) rfl
        · refine .loose hname ?_ ?_
          · rw [roster_deleteRoom, roster_played]
            exact ho.settled.closed_absent hc hown
          · refine .free (Or.inr (Or.inr rfl)) (List.forall_mem_nil _) ?_
            refine List.forall_mem_append.mpr ⟨fun m hm => (hD m hm).idle.stale, fun m hm => ?_⟩
            exact stale_lastFrames (s := s) (c := c) (i := i) (mem_framesTo.mp hm)

/-! ### LEAVE_ROOM -/

theorem served_leaveRoom (ho : Orderly s) (hc : c < s.nbClients)
    (hq : RequestMeets s c rand .leaveRoom) (hcoh : Coherent s c st (.leaveRoom :: U) D)
    (heff : Effect s c rand .leaveRoom s' out) : Served s s' c out st U D := by
  obtain ⟨hname, hl⟩ := hcoh.leaving
  have hclient : ∀ u : Server, u.clients = (setRoomId s c 0).clients →
      (u.clients c).name ≠ CString.empty := by
    intro u hu
    rw [hu, setRoomId_name]
    exact hname
  have hquiet : ∀ {u : Server}, u.clients = (setRoomId s c 0).clients →
      Absent (roster u) c → Coherent u c st U (D ++ framesTo (s.clients c).sock []) := by
    intro u hu habsent
    exact .loose (hclient u hu) habsent (hl.more (List.forall_mem_nil _))
  by_cases habsent : Absent (roster s) c
  · -- the slot worked on is not a live room
    have hnone := ho.settled.findRoom_absent hc habsent
    have htarget := targetRoom_of_none hnone
    have hdead : ¬ Live s (targetRoom s (s.clients c).roomId) := by
      rw [htarget]
      exact not_live_end s
    have hforget := ho.settled.forget habsent
    cases heff with
    | @closed i j hi _ _ hp =>
        rw [htarget] at hi
        rw [← hi, hq.1 hnone] at hp
        cases hp
    | @unwatched i j hi _ _ _ _ =>
        subst hi
        have hroster : roster (setGame (setRoomId s c 0) (targetRoom s (s.clients c).roomId)
            (removeSpectator (s.rooms (targetRoom s (s.clients c).roomId)).game j))
            = (roster s).enter c 0 :=
          (roster_setGame_dead (s := setRoomId s c 0) hdead).trans (roster_setRoomId s c 0)
        refine ⟨?_, ?_, fun a _ hac => keeps_unwatched_dead hac hdead, hquiet rfl ?_⟩
        · rw [hroster]
          exact hforget
        · exact opening_setGame _ (removeSpectator _ j) ho.opening rfl rfl fun hlive =>
            absurd hlive hdead
        · rw [hroster]
          exact habsent
    | leftNothing _ _ _ _ _ =>
        refine ⟨?_, opening_rooms ho.opening rfl rfl, fun a _ hac => ?_, hquiet rfl ?_⟩
        · rw [roster_setRoomId]
          exact hforget
        · exact .rooms (congrArg Client.name (setClient_of_ne hac _)) rfl rfl
            (List.forall_mem_nil _)
        · rw [roster_setRoomId]
          exact habsent
  · -- the room of the client's one entry is the room it is taken to be in
    obtain ⟨k, e, hown⟩ := entry_of_not_absent habsent
    obtain ⟨hlive, hmem, hid⟩ := entry_eq_some.mp hown
    have hfound := ho.settled.findRoom_member hc hown
    have htarget := targetRoom_of_find hfound
    obtain ⟨hstops, hlast⟩ := hq.2 k hfound
    cases heff with
    | @closed i j hi _ _ hp =>
        obtain rfl := htarget.symm.trans hi
        have hroster : roster (deleteRoom (setRoomId s c 0) k)
            = ((roster s).close k).enter c 0 := by
          rw [roster_deleteRoom, roster_setRoomId]
          rfl
        have hout := ho.settled.closed_absent hc hown
        refine ⟨?_, ?_, fun a ha hac => ?_, ?_⟩
        · rw [hroster]
          exact ho.settled.close.forget hout
        · exact opening_deleteRoom (u := setRoomId s c 0) ho.opening (fun _ _ => rfl) rfl
        · refine ho.keeps_closed ha hac hlive (hstops ?_)
          rw [hp]
          exact Option.some_ne_none j
        · refine .loose (hclient _ rfl) ?_ (hl.more fun m hm => ?_)
          · rw [hroster]
            exact hout
          · exact (idle_leaveFrames (mem_framesTo.mp hm)).stale
    | @unwatched i j hi _ _ hp hw =>
        obtain rfl := htarget.symm.trans hi
        obtain ⟨hj, hidj, -⟩ := findSpectator_eq_some.mp hw
        have hownj : entry s k (j + 2) = some (s.clients c).sock :=
          entry_eq_some.mpr ⟨hlive, Or.inr ⟨by omega, by omega⟩, hidj⟩
        -- the entry is the last one, so the removal copies nothing
        have hj1 := hlast hp j hw
        have hroster := roster_unwatched (c := c) hlive (ho.sized k).seats hj1
        obtain ⟨hset, hout⟩ := ho.settled.depart ho.distinct hc hownj (Or.inl rfl)
        refine ⟨?_, ?_, fun a _ hac => ho.keeps_unwatched hac hlive hj1, hquiet rfl ?_⟩
        · rw [hroster]
          exact hset
        · exact opening_setGame k (removeSpectator (s.rooms k).game j) ho.opening rfl rfl
            (ho.opening k)
        · rw [hroster]
          exact hout
    | @leftNothing i hi _ _ hp hw =>
        obtain rfl := htarget.symm.trans hi
        exfalso
        -- one of the two searches finds a member
        rcases hmem with hseat | ⟨h2, hspec⟩
        · exact findPlayer_eq_none.mp hp e hseat hid
        · have hself : e - 2 + 2 = e := by omega
          exact findSpectator_eq_none.mp hw (e - 2) (by omega) (hself ▸ hid)

/-! ### SEND_MESSAGE and SET_BIOGRAPHY -/

theorem served_quiet (ho : Orderly s) (hc : c < s.nbClients)
    (hq : (∃ message, q = .sendMessage message) ∨ ∃ biography, q = .setBiography biography)
    (hcoh : Coherent s c st (q :: U) D) (heff : Effect s c rand q s' out) :
    Served s s' c out st U D := by
  have hsock := heff.sock c
  have hpop := hcoh.saying hq
  -- the rooms and the names stay, and the frames are messages
  have hquiet : roster s' = roster s → s'.rooms = s.rooms → s'.nbRooms = s.nbRooms →
      (∀ a, (s'.clients a).name = (s.clients a).name) →
      (∀ p ∈ out, Chat p.2) → Served s s' c out st U D := by
    intro hroster hrooms hnb hnames hchat
    have hkeeps : ∀ a, Keeps s s' a (framesTo (s.clients a).sock out) := fun a =>
      .rooms (hnames a) hrooms hnb fun m hm => hchat _ (mem_framesTo.mp hm)
    refine ⟨?_, opening_rooms ho.opening hrooms hnb, fun a _ _ => hkeeps a,
      hpop.keeps ho.settled hc hsock (hkeeps c)⟩
    rw [hroster]
    exact ho.settled
  rcases hq with ⟨message, rfl⟩ | ⟨biography, rfl⟩
  · cases heff with
    | messaged _ _ =>
        refine hquiet rfl rfl rfl (fun _ => rfl) fun p hp => ?_
        rw [mem_messageFrames hp]
        trivial
  · cases heff with
    | described =>
        refine hquiet (roster_describe s c biography) rfl rfl (fun a => ?_)
          (List.forall_mem_nil _)
        exact setClient_field Client.name (by rfl) a

/-! ### Any request -/

/-- **SERVING A REQUEST.** -/
theorem served_request (ho : Orderly s) (hc : c < s.nbClients)
    (hnamed : ∀ b < s.nbClients, ∀ k e, e < 2 → entry s k e = some (s.clients b).sock →
      ((s.rooms k).game.players e).name = (s.clients b).name)
    (hq : RequestMeets s c rand q) (hcoh : Coherent s c st (q :: U) D)
    (heff : Effect s c rand q s' out) : Served s s' c out st U D := by
  cases q with
  | connect name => exact served_connect ho hc hnamed hcoh heff
  | createRoom => exact served_createRoom ho hc hq hcoh heff
  | joinRoom roomId spectate => exact served_joinRoom ho hc hcoh heff
  | play pos => exact served_play ho hc hcoh heff
  | leaveRoom => exact served_leaveRoom ho hc hq hcoh heff
  | sendMessage message => exact served_quiet ho hc (Or.inl ⟨message, rfl⟩) hcoh heff
  | setBiography biography => exact served_quiet ho hc (Or.inr ⟨biography, rfl⟩) hcoh heff

end AwaleService
