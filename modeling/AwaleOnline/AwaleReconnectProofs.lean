import AwaleOnline.AwaleSeatsProofs
import AwaleOnline.AwaleClientProofs

/-!
# A player who comes back

A player who loses the connection leaves a vacant seat behind, `-1` under the player's name, and
a client table that has closed ranks.  The same name on a new connection finds the seat again.

* **`Resumable`** — client `c` sits in seat `j` of room `i`, and nothing else can be mistaken
  for the client or for the seat;
* **`Resumed`** — all that is left of the interruption: the new socket in the seat, and the
  client at the end of the table;
* **`reconnection_resumes`** — disconnection, accept and CONNECT lead from one to the other, and
  the only frame sent takes the new client to where the game stands.
-/

namespace AwaleReconnect

open AwaleGame AwaleProtocol AwaleServer AwaleEffect AwaleSeats AwaleClient

variable {s : Server} {c i j : Nat} {csock : Int} {body : List UInt8} {rand : UInt32}

/-- Client `c` occupies seat `j` of live room `i`, which is the only room with its id, and its
    name is in no other seat and no other client's. -/
structure Resumable (s : Server) (c i j : Nat) : Prop where
  client : c < s.nbClients
  seat : Seat s i j (s.clients c).sock (s.clients c).name
  room : (s.clients c).roomId = (s.rooms i).id
  ids : ∀ k, Live s k → ∀ k', Live s k' → (s.rooms k).id = (s.rooms k').id → k = k'
  socket : ∀ k e name, Seat s k e (s.clients c).sock name → k = i ∧ e = j
  named : (s.clients c).name ≠ CString.empty
  clientNames : ∀ a < s.nbClients, a ≠ c → (s.clients a).name ≠ (s.clients c).name
  seatNames : ∀ k e x, Seat s k e x (s.clients c).name → k = i ∧ e = j

/-- The other clients, in their order, and `client` behind them. -/
def rejoined (s : Server) (c : Nat) (client : Client) : Nat → Client :=
  Function.update (SlotArray.shiftDown s.clients c (s.nbClients - 1)) (s.nbClients - 1) client

/-- The player's new entry in the client table; the old biography is gone. -/
def returned (s : Server) (c i : Nat) (csock : Int) : Client :=
  ⟨csock, (s.clients c).name, (s.rooms i).id, CString.empty⟩

/-- The state with the new socket in the seat. -/
def comeback (s : Server) (c i j : Nat) (csock : Int) : Server :=
  { setGame s i (setPlayerId (s.rooms i).game j csock) with
    clients := rejoined s c (returned s c i csock) }

/-- `s'` is `s` but for the new socket in the seat and the order of the client table. -/
structure Resumed (s : Server) (c i j : Nat) (csock : Int) (s' : Server) : Prop where
  nbRooms : s'.nbRooms = s.nbRooms
  room : s'.rooms i = { s.rooms i with game := setPlayerId (s.rooms i).game j csock }
  otherRooms : ∀ k, k ≠ i → s'.rooms k = s.rooms k
  nbClients : s'.nbClients = s.nbClients
  otherClients : ∀ a < s.nbClients - 1, s'.clients a = s.clients (SlotArray.skip c a)
  own : s'.clients (s.nbClients - 1) = returned s c i csock

/-- What frame `m` does to a client that waits for the answer to its name. -/
structure Welcomes (game : Game) (j : Nat) (m : ServerMsg) : Prop where
  waiting : game.isStarted = false → after .waitingConnection m = .inRoom
  toMove : game.isStarted = true → game.turn = j →
    m = writePlayed j game ∧ after .waitingConnection m = .waitingPlayInput
  toWait : game.isStarted = true → game.turn ≠ j → after .waitingConnection m = .inGame

theorem resumed_comeback (s : Server) (c i j : Nat) (csock : Int) :
    Resumed s c i j csock (comeback s c i j csock) where
  nbRooms := rfl
  room := setRoom_self s i _
  otherRooms _ hk := setGame_of_ne hk _
  nbClients := rfl
  otherClients a ha := by
    refine (Function.update_of_ne (Nat.ne_of_lt ha) ..).trans ?_
    exact SlotArray.shiftDown_skip s.clients ha
  own := Function.update_self ..

/-! ## The three steps -/

theorem Resumable.findRoom (h : Resumable s c i j) :
    findRoom s (s.clients c).roomId = some i := by
  refine findRoom_eq_some.mpr ⟨h.seat.live, h.room.symm, ?_⟩
  intro k hk hid
  have hlive : Live s k := Int.lt_trans (Int.ofNat_lt.mpr hk) h.seat.live
  exact Nat.ne_of_lt hk (h.ids k hlive i h.seat.live (hid.trans h.room))

theorem Resumable.findPlayer (h : Resumable s c i j) :
    findPlayer (s.rooms i).game (s.clients c).sock = some j := by
  refine findPlayer_eq_some.mpr ⟨h.seat.taken, h.seat.id, ?_⟩
  intro k hk hid
  have htaken : k < (s.rooms i).game.nbPlayers := Nat.lt_trans hk h.seat.taken
  exact Nat.ne_of_lt hk (h.socket i k _ ⟨h.seat.live, htaken, hid, rfl⟩).2

/-- The disconnection vacates the seat. -/
theorem Resumable.disconnect (h : Resumable s c i j) :
    AwaleServer.trans s (.disconnect c)
      = some ({ removeClient (vacated s i j) c with buffer := farewell (s.clients c).name }, []) := by
  have hdrop : dropClient s c = .ok
      ({ removeClient (vacated s i j) c with buffer := farewell (s.clients c).name }, []) := by
    unfold dropClient
    rw [disconnectUser_player h.findRoom h.findPlayer]
    rfl
  exact trans_eq h.client hdrop (opened_nil _)

/-- The table once the new connection is accepted. -/
def reopened (s : Server) (c i j : Nat) (csock : Int) : Server :=
  accepted { removeClient (vacated s i j) c with buffer := farewell (s.clients c).name } csock

/-- The entry of the new connection in it. -/
theorem reopened_last (s : Server) (c i j : Nat) (csock : Int) :
    (reopened s c i j csock).clients (s.nbClients - 1)
      = ⟨csock, CString.empty, 0, CString.empty⟩ := accepted_self _ csock

theorem reopened_other {a : Nat} (ha : a < s.nbClients - 1) :
    (reopened s c i j csock).clients a = s.clients (SlotArray.skip c a) :=
  (accepted_of_ne (Nat.ne_of_lt ha) csock).trans (SlotArray.shiftDown_skip s.clients ha)

theorem Resumable.count (h : Resumable s c i j) (csock : Int) :
    (reopened s c i j csock).nbClients = s.nbClients := by
  have hc := h.client
  show s.nbClients - 1 + 1 = s.nbClients
  omega

/-- The accept appends an entry without a name. -/
theorem Resumable.accept (h : Resumable s c i j) (hroom : s.nbClients ≤ maxClients)
    (hpos : 0 < csock) (hnew : ∀ a < s.nbClients, a ≠ c → (s.clients a).sock ≠ csock) :
    AwaleServer.trans
        { removeClient (vacated s i j) c with buffer := farewell (s.clients c).name }
        (.accept csock)
      = some (reopened s c i j csock, []) := by
  have hc := h.client
  have hlt : s.nbClients - 1 < maxClients := by omega
  refine trans_eq ⟨hpos, ?_⟩ (if_pos hlt) (opened_nil _)
  intro a ha
  have ha' : a < s.nbClients - 1 := ha
  have hskip := SlotArray.skip_lt (i := c) ha'
  have hread : (removeClient (vacated s i j) c).clients a = s.clients (SlotArray.skip c a) :=
    SlotArray.shiftDown_skip s.clients ha'
  rw [hread]
  exact hnew _ (by omega) (SlotArray.skip_ne c a)

/-- Nobody has the name now: its owner has left, and the new entry has none. -/
theorem Resumable.free (h : Resumable s c i j) (csock : Int) :
    nameInUse (reopened s c i j csock) (s.clients c).name = false := by
  refine Bool.eq_false_iff.mpr fun hused => ?_
  obtain ⟨a, ha, hname⟩ := nameInUse_iff.mp hused
  rw [h.count csock] at ha
  by_cases hlast : a = s.nbClients - 1
  · rw [hlast, reopened_last] at hname
    exact h.named hname.symm
  · have ha' : a < s.nbClients - 1 := by omega
    rw [reopened_other ha'] at hname
    have hskip := SlotArray.skip_lt (i := c) ha'
    exact h.clientNames _ (by omega) (SlotArray.skip_ne c a) hname

/-- The vacant seat is the only one with the name. -/
theorem Resumable.findSeat (h : Resumable s c i j) (csock : Int) :
    findSeat (reopened s c i j csock) (s.clients c).name = some (i, j) := by
  have hback : ∀ k e, Live s k → e < ((vacated s i j).rooms k).game.nbPlayers →
      (((vacated s i j).rooms k).game.players e).name = (s.clients c).name → k = i ∧ e = j := by
    intro k e hk he hname
    have hcount : ((vacated s i j).rooms k).game.nbPlayers = (s.rooms k).game.nbPlayers :=
      setGame_slots (P := fun k game => game.nbPlayers = (s.rooms k).game.nbPlayers)
        (fun _ _ => rfl) (by rfl) k
    have hkeep : (((vacated s i j).rooms k).game.players e).name
        = ((s.rooms k).game.players e).name :=
      setGame_slots (P := fun k game => (game.players e).name
        = ((s.rooms k).game.players e).name) (fun _ _ => rfl) (setPlayerId_name _ j (-1) e) k
    exact h.seatNames k e _ ⟨hk, hcount ▸ he, rfl, hkeep ▸ hname⟩
  cases hfound : AwaleServer.findSeat (reopened s c i j csock) (s.clients c).name with
  | none =>
      have hne := findSeat_none hfound (i := i) (j := j) h.seat.live (by
        show j < ((vacated s i j).rooms i).game.nbPlayers
        rw [vacated, setGame_self]
        exact h.seat.taken)
      refine absurd ?_ hne
      show (((vacated s i j).rooms i).game.players j).name = _
      rw [vacated, setGame_self, setPlayerId_name]
      exact h.seat.name
  | some p =>
      obtain ⟨k, e⟩ := p
      obtain ⟨hk, he, hname⟩ := findSeat_some hfound
      obtain ⟨rfl, rfl⟩ := hback k e hk he hname
      rfl

/-- The CONNECT writes the new socket over the vacant seat. -/
theorem Resumable.reseated (h : Resumable s c i j) (buffer : Buffer) :
    reseated { reopened s c i j csock with buffer := buffer } (s.nbClients - 1)
        (s.clients c).name i j
      = { comeback s c i j csock with buffer := buffer } := by
  have hroom : (reopened s c i j csock).rooms i
      = { s.rooms i with game := setPlayerId (s.rooms i).game j (-1) } := setRoom_self s i _
  have hgame : setPlayerId ((reopened s c i j csock).rooms i).game j csock
      = setPlayerId (s.rooms i).game j csock := by
    rw [hroom, setPlayerId_twice]
  have hid : ((reopened s c i j csock).rooms i).id = (s.rooms i).id := by
    rw [hroom]
  have hrooms : Function.update (reopened s c i j csock).rooms i
        ⟨(s.rooms i).id, setPlayerId ((reopened s c i j csock).rooms i).game j csock⟩
      = Function.update s.rooms i
        ⟨(s.rooms i).id, setPlayerId (s.rooms i).game j csock⟩ := by
    rw [hgame]
    exact Function.update_idem ..
  have hfirst : ∀ client, Function.update (reopened s c i j csock).clients (s.nbClients - 1)
      client = rejoined s c client := fun client => Function.update_idem ..
  have hagain : ∀ old client, Function.update (rejoined s c old) (s.nbClients - 1) client
      = rejoined s c client := fun old client => Function.update_idem ..
  have hlast : ∀ client, rejoined s c client (s.nbClients - 1) = client :=
    fun client => Function.update_self ..
  have hcount := h.count csock
  simp only [AwaleEffect.reseated, setRoomId, setGame, setRoom, setClient, reopened_last,
    hfirst, hagain, hlast, hid, hrooms, hcount]
  rfl

/-- The answer is one that takes the client to where the game stands. -/
theorem welcome_reply {t : Server} (hfits : (s.rooms i).game.isStarted = false → ∃ frame,
      joinRoomFrame t (setPlayerId (s.rooms i).game j csock) = .ok frame) :
    ∃ m, Resume t (setPlayerId (s.rooms i).game j csock) j m ∧ Welcomes (s.rooms i).game j m := by
  by_cases hst : (s.rooms i).game.isStarted = true
  · have hne : (s.rooms i).game.isStarted ≠ false := by
      rw [hst]
      decide
    by_cases hturn : (s.rooms i).game.turn = j
    · refine ⟨writePlayed j (s.rooms i).game, ?_, fun hf => absurd hf hne, ?_, ?_⟩
      · rw [← writePlayed_setPlayerId (s.rooms i).game j csock j]
        exact .toMove hst hturn
      · intro _ _
        exact ⟨rfl, rfl⟩
      · intro _ hother
        exact absurd hturn hother
    · refine ⟨.gameStart 1, .toWait hst hturn, fun hf => absurd hf hne, ?_, ?_⟩
      · intro _ hown
        exact absurd hown hturn
      · intro _ _
        rfl
  · have hst' : (s.rooms i).game.isStarted = false := Bool.eq_false_iff.mpr hst
    obtain ⟨frame, hframe⟩ := hfits hst'
    refine ⟨frame, .waiting hst' hframe, ?_, fun hs => absurd hs hst, fun hs => absurd hs hst⟩
    intro _
    obtain ⟨_, _, _, _, rfl⟩ := joinRoomFrame_ok hframe
    rfl

/-- The CONNECT is accepted, and answered to the new connection only. -/
theorem Resumable.connect (h : Resumable s c i j) (hpos : 0 < csock) (hbody : 0 < body.length)
    (hlen : body.length < bufSize)
    (hread : readRequest (storeBody (farewell (s.clients c).name) body)
      = some (.connect (s.clients c).name)) {m : ServerMsg}
    (hresume : Resume (comeback s c i j csock) (setPlayerId (s.rooms i).game j csock) j m) :
    AwaleServer.trans (reopened s c i j csock) (.frame (s.nbClients - 1) body rand)
      = some ({ comeback s c i j csock with
          buffer := storeBody (farewell (s.clients c).name) body }, [(csock, m)]) := by
  have hc := h.client
  have hgame : setPlayerId ((reopened s c i j csock).rooms i).game j csock
      = setPlayerId (s.rooms i).game j csock := by
    show setPlayerId ((vacated s i j).rooms i).game j csock = _
    rw [vacated, setGame_self, setPlayerId_twice]
  have hsock : ((reopened s c i j csock).clients (s.nbClients - 1)).sock = csock :=
    congrArg Client.sock (reopened_last s c i j csock)
  have hreply : Resume
      (AwaleEffect.reseated (received (reopened s c i j csock) body) (s.nbClients - 1)
        (s.clients c).name i j)
      (setPlayerId ((reopened s c i j csock).rooms i).game j
        ((reopened s c i j csock).clients (s.nbClients - 1)).sock) j m := by
    rw [hsock, hgame, received, h.reseated]
    cases hresume with
    | waiting hst hframe =>
        exact .waiting hst ((joinRoomFrame_clients (by rfl) _).trans hframe)
    | toMove hst hturn => exact .toMove hst hturn
    | toWait hst hturn => exact .toWait hst hturn
  have hfree : nameInUse (received (reopened s c i j csock) body) (s.clients c).name = false :=
    h.free csock
  have hseat : AwaleServer.findSeat (received (reopened s c i j csock) body) (s.clients c).name
      = some (i, j) := h.findSeat csock
  have hhandled := handleConnect_resumed hfree hseat hreply
  have hstep : readFrame (reopened s c i j csock) (s.nbClients - 1) body rand
      = handleConnect (received (reopened s c i j csock) body) (s.nbClients - 1)
        (s.clients c).name := by
    have hread' : readRequest (storeBody (reopened s c i j csock).buffer body)
        = some (.connect (s.clients c).name) := hread
    simp only [readFrame, hread', if_neg (Nat.not_le.mpr hlen), handleRequest]
    rfl
  have hbound : body.length < 65536 := Nat.lt_trans hlen (by decide)
  have hfirst : s.nbClients - 1 < (reopened s c i j csock).nbClients := by
    rw [h.count csock]
    omega
  have hopen : Opened (reopened s c i j csock) [(csock, m)] :=
    List.forall_mem_singleton.mpr ⟨s.nbClients - 1, hfirst, hsock⟩
  refine trans_eq ⟨hfirst, hbody, hbound⟩ ?_ hopen
  rw [step, hstep, hhandled, received, h.reseated]
  have hwrite : writeClient ((reopened s c i j csock).clients (s.nbClients - 1)).sock m
      = [(csock, m)] := by
    rw [hsock]
    exact if_pos (by omega)
  exact congrArg (fun out => Except.ok (_, out)) hwrite

/-- **THE GAME IS RESUMED.**  The disconnection of a seated client, the accept of any new
    connection and a CONNECT with the client's name lead back to the state before, with the new
    socket in the seat.  One frame is sent, to the new connection, and takes its client to the
    room, to its move, or to the other player's. -/
theorem reconnection_resumes (h : Resumable s c i j) (hroom : s.nbClients ≤ maxClients)
    (hpos : 0 < csock) (hnew : ∀ a < s.nbClients, a ≠ c → (s.clients a).sock ≠ csock)
    (hbody : 0 < body.length) (hlen : body.length < bufSize)
    (hread : readRequest (storeBody (farewell (s.clients c).name) body)
      = some (.connect (s.clients c).name))
    (hfits : (s.rooms i).game.isStarted = false → ∃ frame,
      joinRoomFrame (comeback s c i j csock) (setPlayerId (s.rooms i).game j csock) = .ok frame) :
    ∃ s' m, GuardedRun.run AwaleServer.trans s
        [.disconnect c, .accept csock, .frame (s.nbClients - 1) body rand]
          = some (s', [[], [], [(csock, m)]])
      ∧ Resumed s c i j csock s' ∧ Welcomes (s.rooms i).game j m := by
  obtain ⟨m, hresume, hwelcome⟩ := welcome_reply hfits
  refine ⟨{ comeback s c i j csock with
    buffer := storeBody (farewell (s.clients c).name) body }, m, ?_, ?_, hwelcome⟩
  · simp only [GuardedRun.run, h.disconnect, h.accept hroom hpos hnew,
      h.connect hpos hbody hlen hread hresume, Option.map_some]
  · obtain ⟨h1, h2, h3, h4, h5, h6⟩ := resumed_comeback s c i j csock
    exact ⟨h1, h2, h3, h4, h5, h6⟩

/-- Two players in the only room, the first one to move. -/
def opponents : Server where
  clients a := if a = 0 then ⟨4, literal "a", 7, CString.empty⟩
    else ⟨5, literal "b", 7, CString.empty⟩
  nbClients := 2
  rooms _ := ⟨7, { gameInit zeroGame with
    nbPlayers := 2
    players := fun e => if e = 0 then ⟨4, literal "a", 0, 0⟩ else ⟨5, literal "b", 0, 1⟩
    isStarted := true }⟩
  nbRooms := 1
  buffer _ := 0

private theorem opponents_live {k : Nat} (h : Live opponents k) : k = 0 := by
  have hk : (k : Int) < 1 := h
  omega

private theorem opponents_seat {k e : Nat} {x : Int} {name : CString}
    (h : Seat opponents k e x name) :
    k = 0 ∧ (e = 0 ∨ (e = 1 ∧ x = 5 ∧ name = literal "b")) := by
  refine ⟨opponents_live h.live, ?_⟩
  have he : e < 2 := h.taken
  by_cases h0 : e = 0
  · exact Or.inl h0
  · have h1 : e = 1 := by omega
    subst h1
    exact Or.inr ⟨rfl, h.id.symm, h.name.symm⟩

/-- The player to move reconnects, and the system hands out the same descriptor. -/
theorem reconnection_resumes_opponents :
    ∃ s' m, GuardedRun.run AwaleServer.trans opponents
        [.disconnect 0, .accept 4, .frame 1 (Request.connect (literal "a")).body 0]
          = some (s', [[], [], [(4, m)]])
      ∧ Resumed opponents 0 0 0 4 s' ∧ Welcomes (opponents.rooms 0).game 0 m := by
  have hresumable : Resumable opponents 0 0 0 := by
    refine ⟨by decide, ⟨by decide, by decide, rfl, rfl⟩, rfl, ?_, ?_, by decide, ?_, ?_⟩
    · intro k hk k' hk' _
      exact (opponents_live hk).trans (opponents_live hk').symm
    · intro k e name hseat
      obtain ⟨hk, he | ⟨-, hx, -⟩⟩ := opponents_seat hseat
      · exact ⟨hk, he⟩
      · exact absurd hx (by decide)
    · intro a ha hne
      have ha' : a = 1 := by
        have hlt : a < 2 := ha
        omega
      subst ha'
      decide
    · intro k e x hseat
      obtain ⟨hk, he | ⟨-, -, hname⟩⟩ := opponents_seat hseat
      · exact ⟨hk, he⟩
      · exact absurd hname (by decide)
  have hnew : ∀ a < opponents.nbClients, a ≠ 0 → (opponents.clients a).sock ≠ 4 := by
    intro a _ hne
    rw [show (opponents.clients a).sock = 5 from congrArg Client.sock (if_neg hne)]
    decide
  exact reconnection_resumes hresumable (by decide) (by decide) hnew (by decide) (by decide)
    (readRequest_body _ (q := .connect (literal "a")) (by decide)) (fun hst => nomatch hst)

end AwaleReconnect
