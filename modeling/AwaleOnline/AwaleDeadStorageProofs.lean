import AwaleOnline.AwaleAuthorisationProofs
import AwaleOnline.AwaleRosterProofs
import Mathlib.Data.List.Find

/-!
# Dead storage: two runs over different leftovers

Deletion leaves old rooms behind `nb_rooms`, and `game_init` leaves old players in a recycled
slot.  Two states that differ in such leftovers only are `Same`.

* **`same_request`** — a request that meets `leftoverGuard` sends the same frames from both and
  leads to `Same` states: the lookups and the frame builders read member entries of live rooms;
* **`same_disconnect`** — so does a guarded disconnection, whose loops read and copy entries by
  computed indices;
* **`dead_storage`** — whole runs over the same events send the same frames to the same sockets
  and stay `Same`; **`leave_reads_leftovers`** — without the guard they do not.
-/

namespace AwaleDeadStorage

open AwaleGame AwaleProtocol AwaleServer AwaleEffect AwaleBounds AwaleRoster

/-! ## States that differ in leftovers -/

/-- Two games that differ in entries no member occupies. -/
structure SameGame (g h : Game) : Prop where
  board : g.board = h.board
  nbPlayers : g.nbPlayers = h.nbPlayers
  nbSpectators : g.nbSpectators = h.nbSpectators
  isStarted : g.isStarted = h.isStarted
  turn : g.turn = h.turn
  members : ∀ e, MemberAt g e → g.players e = h.players e

/-- Two states that agree on the clients and the live rooms. -/
structure Same (s t : Server) : Prop where
  clients : s.clients = t.clients
  nbClients : s.nbClients = t.nbClients
  nbRooms : s.nbRooms = t.nbRooms
  buffer : s.buffer = t.buffer
  ids : ∀ k, Live s k → (s.rooms k).id = (t.rooms k).id
  games : ∀ k, Live s k → SameGame (s.rooms k).game (t.rooms k).game

/-- Equal results up to leftovers. -/
inductive SameResult : Result → Result → Prop where
  | ok {s t : Server} {out : List Sent} : Same s t → SameResult (.ok (s, out)) (.ok (t, out))
  | error {f f' : Fault} : SameResult (.error f) (.error f')

variable {s t : Server} {g h : Game} {c i j : Nat}

/-! ### What the lookups see -/

theorem SameGame.member (hg : SameGame g h) {e : Nat} : MemberAt g e ↔ MemberAt h e :=
  memberAt_congr hg.nbPlayers hg.nbSpectators e

theorem SameGame.seat (hg : SameGame g h) (hj : j < g.nbPlayers) : g.players j = h.players j :=
  hg.members j (Or.inl hj)

theorem SameGame.spectator (hg : SameGame g h) (hj : j < g.nbSpectators) :
    g.players (2 + j) = h.players (2 + j) :=
  hg.members (2 + j) (Or.inr ⟨by omega, by omega⟩)

theorem SameGame.findPlayer (hg : SameGame g h) (sock : Int) :
    findPlayer g sock = findPlayer h sock := by
  refine findPlayer_congr hg.nbPlayers ?_ sock
  intro j hj
  rw [hg.seat (hg.nbPlayers ▸ hj)]

theorem SameGame.findSpectator (hg : SameGame g h) (sock : Int) :
    findSpectator g sock = findSpectator h sock := by
  simp only [AwaleServer.findSpectator]
  rw [← hg.nbSpectators]
  refine List.find?_congr ?_
  intro j hj
  rw [Nat.add_comm j 2, hg.spectator (List.mem_range.mp hj)]

theorem live_of_mem_range {k : Nat} (hk : k ∈ List.range s.nbRooms.toNat) : Live s k :=
  live_iff.mpr (List.mem_range.mp hk)

theorem Same.live (hs : Same s t) {k : Nat} : Live s k ↔ Live t k := live_congr hs.nbRooms k

theorem Same.open (hs : Same s t) (x : Int) : Open s x ↔ Open t x := by
  simp only [Open]
  rw [hs.clients, hs.nbClients]

theorem Same.findRoom (hs : Same s t) (roomId : UInt32) :
    findRoom s roomId = findRoom t roomId := by
  simp only [AwaleServer.findRoom]
  rw [← hs.nbRooms]
  refine List.find?_congr ?_
  intro k hk
  rw [hs.ids k (live_of_mem_range hk)]

theorem Same.nameInUse (hs : Same s t) (name : CString) :
    nameInUse s name = nameInUse t name := by
  simp only [AwaleServer.nameInUse]
  rw [hs.clients, hs.nbClients]

theorem Same.findSeat (hs : Same s t) (name : CString) :
    findSeat s name = findSeat t name := by
  have hrow : ∀ k ∈ List.range s.nbRooms.toNat,
      ((List.range (s.rooms k).game.nbPlayers).find? fun j =>
          name = ((s.rooms k).game.players j).name).map (fun j => (k, j))
        = ((List.range (t.rooms k).game.nbPlayers).find? fun j =>
          name = ((t.rooms k).game.players j).name).map fun j => (k, j) := by
    intro k hk
    have hg := hs.games k (live_of_mem_range hk)
    rw [← hg.nbPlayers]
    congr 1
    refine List.find?_congr ?_
    intro j hj
    rw [hg.seat (List.mem_range.mp hj)]
  simp only [AwaleServer.findSeat]
  rw [← hs.nbRooms, ← Function.id_comp (fun k => Option.map _ _), ← List.findSome?_map,
    List.map_congr_left hrow, List.findSome?_map]
  rfl

/-! ### What the frame builders see -/

theorem SameGame.playerNames (hg : SameGame g h) : playerNames g = playerNames h := by
  simp only [AwaleServer.playerNames]
  rw [← hg.nbPlayers, ← hg.nbSpectators]
  congr 1
  · refine List.map_congr_left ?_
    intro j hj
    rw [hg.seat (List.mem_range.mp hj)]
  · refine List.map_congr_left ?_
    intro j hj
    rw [hg.spectator (List.mem_range.mp hj)]

theorem joinRoomFrame_congr (hclients : s.clients = t.clients) (hg : SameGame g h) :
    joinRoomFrame s g = joinRoomFrame t h := by
  have hbios : playerBios s g = playerBios t h := by
    simp only [playerBios]
    rw [hclients, ← hg.nbPlayers]
    refine List.map_congr_left ?_
    intro j hj
    rw [hg.seat (List.mem_range.mp hj)]
  have hany : (List.range g.nbPlayers).any
        (fun j => decide ((g.players j).clientIndex ≥ maxClients))
      = (List.range h.nbPlayers).any
        (fun j => decide ((h.players j).clientIndex ≥ maxClients)) := by
    rw [← hg.nbPlayers]
    rw [Bool.eq_iff_iff, List.any_eq_true, List.any_eq_true]
    refine exists_congr fun j => and_congr_right fun hj => ?_
    rw [hg.seat (List.mem_range.mp hj)]
  simp only [joinRoomFrame]
  rw [hany, hbios, hg.playerNames, hg.nbPlayers, hg.nbSpectators]

theorem writePlayed_congr (hg : SameGame g h) (htwo : 2 ≤ g.nbPlayers) {side : Nat}
    (hside : side < 2) : writePlayed side g = writePlayed side h := by
  simp only [writePlayed]
  rw [hg.board, hg.seat (j := side) (by omega), hg.seat (j := 1 - side) (by omega)]

theorem gameStarts_congr (hg : SameGame g h) : gameStarts g = gameStarts h := by
  simp only [gameStarts]
  rw [← hg.nbPlayers]
  refine List.flatMap_congr ?_
  intro j hj
  rw [hg.seat (List.mem_range.mp hj)]

theorem playedFrames_congr (hg : SameGame g h) (htwo : g.nbPlayers = 2) :
    playedFrames g = playedFrames h := by
  simp only [playedFrames]
  rw [← hg.nbPlayers, ← hg.nbSpectators]
  congr 1
  · refine List.flatMap_congr ?_
    intro j hj
    have hlt := List.mem_range.mp hj
    rw [hg.seat hlt, writePlayed_congr hg (by omega) (by omega)]
  · refine List.flatMap_congr ?_
    intro j hj
    rw [hg.spectator (List.mem_range.mp hj), writePlayed_congr hg (by omega) (by omega)]

/-- The GAME_STOPPED loop counts entries, so it needs all of them to be members. -/
theorem leaveFrames_congr (hg : SameGame g h)
    (hall : ∀ k < g.nbPlayers + g.nbSpectators, k ≠ j → MemberAt g k) :
    leaveFrames g j = leaveFrames h j := by
  simp only [leaveFrames]
  rw [← hg.nbPlayers, ← hg.nbSpectators]
  refine List.flatMap_congr ?_
  intro k hk
  split
  · rename_i hkj
    rw [hg.members k (hall k (List.mem_range.mp hk) hkj)]
  · rfl

theorem messageFrames_congr (hg : SameGame g h) (sock : Int) (frame : ServerMsg) :
    messageFrames g sock frame = messageFrames h sock frame := by
  simp only [messageFrames]
  rw [← hg.nbPlayers, ← hg.nbSpectators]
  congr 1
  · refine List.flatMap_congr ?_
    intro j hj
    rw [hg.seat (List.mem_range.mp hj)]
  · refine List.flatMap_congr ?_
    intro j hj
    rw [hg.spectator (List.mem_range.mp hj)]

/-! ### What the updates do to it -/

theorem SameGame.setPlayerId (hg : SameGame g h) (hj : j < g.nbPlayers) (id : Int) :
    SameGame (setPlayerId g j id) (setPlayerId h j id) := by
  refine ⟨hg.board, hg.nbPlayers, hg.nbSpectators, hg.isStarted, hg.turn, ?_⟩
  intro e he
  show Function.update g.players j _ e = Function.update h.players j _ e
  rw [hg.seat hj]
  by_cases hej : e = j
  · rw [hej, Function.update_self, Function.update_self]
  · rw [Function.update_of_ne hej, Function.update_of_ne hej]
    exact hg.members e he

theorem SameGame.gameAddPlayer (hg : SameGame g h) (player : Player) {spectate : UInt8}
    (hopen : JoinOpen g spectate) :
    SameGame (gameAddPlayer g player (spectate ≠ 0))
      (gameAddPlayer h player (spectate ≠ 0)) := by
  have hidx : addIndex g (spectate ≠ 0) = addIndex h (spectate ≠ 0) := by
    simp only [addIndex]
    rw [hg.nbPlayers, hg.nbSpectators]
  refine ⟨hg.board, ?_, ?_, hg.isStarted, hg.turn, ?_⟩
  · show (if _ then g.nbPlayers else g.nbPlayers + 1) = if _ then _ else _
    rw [hg.nbPlayers]
  · show (if _ then g.nbSpectators + 1 else g.nbSpectators) = if _ then _ else _
    rw [hg.nbSpectators]
  · intro e he
    show Function.update g.players _ _ e = Function.update h.players _ _ e
    rw [← hidx]
    by_cases hei : e = addIndex g (spectate ≠ 0)
    · rw [hei, Function.update_self, Function.update_self]
    · rw [Function.update_of_ne hei, Function.update_of_ne hei]
      exact hg.members e (((memberAt_added player hopen e).mp he).resolve_right hei)

/-- The removal of a spectator copies an entry, which has to be a member's unless the copy is
    dropped at once. -/
theorem SameGame.removeSpectator (hg : SameGame g h) (hj : j < g.nbSpectators)
    (hcopy : j + 1 = g.nbSpectators ∨ MemberAt g (g.nbSpectators - 1)) :
    SameGame (removeSpectator g j) (removeSpectator h j) := by
  refine ⟨hg.board, hg.nbPlayers, ?_, hg.isStarted, hg.turn, ?_⟩
  · show g.nbSpectators - 1 = h.nbSpectators - 1
    rw [hg.nbSpectators]
  · intro e he
    have he' : e < g.nbPlayers ∨ (2 ≤ e ∧ e < 2 + (g.nbSpectators - 1)) := he
    show Function.update g.players (j + 2) (g.players (g.nbSpectators - 1)) e
      = Function.update h.players (j + 2) (h.players (h.nbSpectators - 1)) e
    rw [← hg.nbSpectators]
    by_cases hej : e = j + 2
    · rw [hej, Function.update_self, Function.update_self]
      refine hg.members _ ?_
      rcases hcopy with hlast | hmem
      · simp only [MemberAt]
        omega
      · exact hmem
    · rw [Function.update_of_ne hej, Function.update_of_ne hej]
      refine hg.members e ?_
      simp only [MemberAt]
      omega

/-- A capture reads the board, the byte behind it and the seat that moves. -/
theorem SameGame.captureFrom (hg : SameGame g h) {side : Nat} (hside : side < g.nbPlayers)
    (pos : Nat) : SameGame (captureFrom machine g pos side) (captureFrom machine h pos side) := by
  have hbyte : g.byte = h.byte := by
    funext i
    simp only [Game.byte]
    rw [hg.board, hg.nbPlayers]
  simp only [AwaleGame.captureFrom]
  rw [← hbyte, ← hg.board, ← hg.seat hside]
  split
  · refine ⟨rfl, hg.nbPlayers, hg.nbSpectators, hg.isStarted, hg.turn, ?_⟩
    intro e he
    show Function.update g.players side _ e = Function.update h.players side _ e
    by_cases hes : e = side
    · rw [hes, Function.update_self, Function.update_self]
    · rw [Function.update_of_ne hes, Function.update_of_ne hes]
      exact hg.members e he
  · exact hg

theorem SameGame.gamePlay (hg : SameGame g h) {side : Nat} (hside : side < g.nbPlayers)
    (pos : Int) :
    SameGame (gamePlay machine g pos side).1 (gamePlay machine h pos side).1
      ∧ (gamePlay machine g pos side).2 = (gamePlay machine h pos side).2 := by
  have hcheck : playCheck g pos side = playCheck h pos side := by
    simp only [playCheck]
    rw [hg.board]
  simp only [AwaleGame.gamePlay]
  rw [← hcheck, ← hg.board]
  split
  · -- the sown games differ as `g` and `h` do
    have hsown : SameGame { g with board := (sowHouse machine g.board pos.toNat).board }
        { h with board := (sowHouse machine g.board pos.toNat).board } :=
      ⟨rfl, hg.nbPlayers, hg.nbSpectators, hg.isStarted, hg.turn, hg.members⟩
    have hcap := hsown.captureFrom hside
      (((sowHouse machine g.board pos.toNat).i - 1) % boardSize)
    refine ⟨⟨hcap.board, hcap.nbPlayers, hcap.nbSpectators, hcap.isStarted, ?_,
      hcap.members⟩, rfl⟩
    show (if _ = 0 then 1 else 0) = if _ = 0 then 1 else 0
    rw [hcap.turn]
  · exact ⟨hg, rfl⟩

theorem Same.setClient (hs : Same s t) (c : Nat) (client : Client) :
    Same (setClient s c client) (setClient t c client) := by
  refine ⟨?_, hs.nbClients, hs.nbRooms, hs.buffer, hs.ids, hs.games⟩
  show Function.update s.clients c client = Function.update t.clients c client
  rw [hs.clients]

theorem Same.setRoomId (hs : Same s t) (c : Nat) (roomId : UInt32) :
    Same (setRoomId s c roomId) (setRoomId t c roomId) := by
  simp only [AwaleServer.setRoomId]
  rw [← hs.clients]
  exact hs.setClient c _

/-- Rewriting a slot; what is written to a slot that is not live does not matter. -/
theorem Same.setGame (hs : Same s t) (hg : Live s i → SameGame g h) :
    Same (setGame s i g) (setGame t i h) := by
  refine ⟨hs.clients, hs.nbClients, hs.nbRooms, hs.buffer, ?_, ?_⟩
  · intro k hk
    rw [setGame_id, setGame_id]
    exact hs.ids k hk
  · intro k hk
    by_cases hki : k = i
    · subst hki
      rw [setGame_self, setGame_self]
      exact hg hk
    · rw [setGame_of_ne hki, setGame_of_ne hki]
      exact hs.games k hk

theorem Same.deleteRoom (hs : Same s t) (i : Nat) :
    Same (deleteRoom s i) (deleteRoom t i) := by
  have hroom : ∀ k, Live (AwaleServer.deleteRoom s i) k →
      Live s (SlotArray.skip i k)
        ∧ (AwaleServer.deleteRoom s i).rooms k = s.rooms (SlotArray.skip i k)
        ∧ (AwaleServer.deleteRoom t i).rooms k = t.rooms (SlotArray.skip i k) := by
    intro k hk
    obtain ⟨hlive, hroom⟩ := live_deleteRoom hk
    have hlt : k < (s.nbRooms - 1).toNat := live_iff.mp hk
    exact ⟨hlive, hroom, SlotArray.shiftDown_skip _ (hs.nbRooms ▸ hlt)⟩
  refine ⟨hs.clients, hs.nbClients, ?_, hs.buffer, ?_, ?_⟩
  · show s.nbRooms - 1 = t.nbRooms - 1
    rw [hs.nbRooms]
  · intro k hk
    obtain ⟨h1, h2, h3⟩ := hroom k hk
    rw [h2, h3]
    exact hs.ids _ h1
  · intro k hk
    obtain ⟨h1, h2, h3⟩ := hroom k hk
    rw [h2, h3]
    exact hs.games _ h1

theorem Same.newPlayer (hs : Same s t) (c : Nat) : newPlayer s c = newPlayer t c := by
  simp only [AwaleServer.newPlayer]
  rw [hs.clients]

/-- **A RECYCLED SLOT IS AS GOOD AS A FRESH ONE**: the only member entry of a new room is the
    one `handle_create_room` writes. -/
theorem Same.created (hs : Same s t) (c : Nat) (rand : UInt32) :
    Same (created s c rand) (created t c rand) := by
  have hroom := hs.setRoomId c rand
  refine ⟨hroom.clients, hs.nbClients, ?_, hs.buffer, ?_, ?_⟩
  · show s.nbRooms + 1 = t.nbRooms + 1
    rw [hs.nbRooms]
  · intro k hk
    show (Function.update s.rooms s.nbRooms.toNat (newRoom s c rand) k).id
      = (Function.update t.rooms t.nbRooms.toNat (newRoom t c rand) k).id
    rw [← hs.nbRooms]
    by_cases hkn : k = s.nbRooms.toNat
    · rw [hkn, Function.update_self, Function.update_self]
      rfl
    · rw [Function.update_of_ne hkn, Function.update_of_ne hkn]
      exact hs.ids k (live_of_lt_succ hk hkn)
  · intro k hk
    show SameGame (Function.update s.rooms s.nbRooms.toNat (newRoom s c rand) k).game
      (Function.update t.rooms t.nbRooms.toNat (newRoom t c rand) k).game
    rw [← hs.nbRooms]
    by_cases hkn : k = s.nbRooms.toNat
    · rw [hkn, Function.update_self, Function.update_self]
      refine ⟨rfl, rfl, rfl, rfl, rfl, ?_⟩
      intro e he
      have he' : e < 0 + 1 ∨ (2 ≤ e ∧ e < 2 + 0) := he
      have hzero : e = 0 := by omega
      subst hzero
      show { AwaleServer.newPlayer s c with captured := 0 }
        = { AwaleServer.newPlayer t c with captured := 0 }
      rw [hs.newPlayer]
    · rw [Function.update_of_ne hkn, Function.update_of_ne hkn]
      exact hs.games k (live_of_lt_succ hk hkn)

/-! ## Requests -/

/-- A reconnection to a started room, and a PLAY, find both seats taken; a LEAVE_ROOM and a
    SEND_MESSAGE find a live room; a player's LEAVE_ROOM writes to member entries only, and a
    spectator's copies one unless it drops the copy. -/
def leftoverRequest (s : Server) (c : Nat) : Request → Prop
  | .connect name => nameInUse s name = false → ∀ p ∈ findSeat s name,
      (s.rooms p.1).game.isStarted = true → (s.rooms p.1).game.nbPlayers = 2
  | .play _ => ∀ i ∈ findRoom s (s.clients c).roomId, (s.rooms i).game.nbPlayers = 2
  | .leaveRoom => findRoom s (s.clients c).roomId ≠ none
      ∧ ∀ i ∈ findRoom s (s.clients c).roomId,
        (∀ j ∈ findPlayer (s.rooms i).game (s.clients c).sock,
          ∀ k < (s.rooms i).game.nbPlayers + (s.rooms i).game.nbSpectators,
            k ≠ j → MemberAt (s.rooms i).game k)
        ∧ (findPlayer (s.rooms i).game (s.clients c).sock = none →
            ∀ j ∈ findSpectator (s.rooms i).game (s.clients c).sock,
              j + 1 = (s.rooms i).game.nbSpectators
                ∨ MemberAt (s.rooms i).game ((s.rooms i).game.nbSpectators - 1))
  | .sendMessage _ => findRoom s (s.clients c).roomId ≠ none
  | _ => True

theorem SameResult.ite {p : Prop} [Decidable p] {a a' b b' : Result}
    (hpos : p → SameResult a b) (hneg : ¬ p → SameResult a' b') :
    SameResult (if p then a else a') (if p then b else b') := by
  by_cases hp : p
  · rw [if_pos hp, if_pos hp]
    exact hpos hp
  · rw [if_neg hp, if_neg hp]
    exact hneg hp

private theorem same_connect (hs : Same s t) {name : CString}
    (hq : leftoverRequest s c (.connect name)) :
    SameResult (handleConnect s c name) (handleConnect t c name) := by
  simp only [handleConnect]
  rw [← hs.clients, ← hs.nameInUse]
  refine .ite (fun _ => .ok hs) (fun hfree => ?_)
  have hs₁ := hs.setClient c { s.clients c with name := name }
  rw [← hs₁.findSeat]
  cases hseat : findSeat (setClient s c { s.clients c with name := name }) name with
  | none => exact .ok hs₁
  | some p =>
      obtain ⟨i, j⟩ := p
      obtain ⟨hi, hj, -⟩ := findSeat_some hseat
      have hg := (hs.games i hi).setPlayerId hj (s.clients c).sock
      have hs₂ := (hs₁.setGame (i := i) fun _ => hg).setRoomId c (s.rooms i).id
      have hid : (t.rooms i).id = (s.rooms i).id := (hs.ids i hi).symm
      dsimp only
      simp only [show ∀ (u : Server) (x : Client), (setClient u c x).rooms = u.rooms
        from fun _ _ => rfl]
      rw [hid, ← hg.isStarted, ← hg.turn, ← joinRoomFrame_congr hs₂.clients hg]
      refine .ite (fun _ => ?_) (fun hst => .ite (fun hturn => ?_) fun _ => .ok hs₂)
      · cases joinRoomFrame (setRoomId (setGame (setClient s c { s.clients c with name := name })
            i (setPlayerId (s.rooms i).game j (s.clients c).sock)) c (s.rooms i).id)
            (setPlayerId (s.rooms i).game j (s.clients c).sock) with
        | error f => exact .error
        | ok frame => exact .ok hs₂
      · have hst' : (s.rooms i).game.isStarted = true := Bool.eq_true_of_not_eq_false hst
        have htwo : (s.rooms i).game.nbPlayers = 2 :=
          hq (by simpa using hfree) (i, j) hseat hst'
        have hj' : j < (s.rooms i).game.nbPlayers := hj
        have hturn' : (s.rooms i).game.turn = j := hturn
        rw [← writePlayed_congr hg (Nat.le_of_eq htwo.symm) (show j < 2 by omega)]
        exact .ok hs₂

private theorem same_createRoom (hs : Same s t) (rand : UInt32) :
    SameResult (handleCreateRoom s c rand) (handleCreateRoom t c rand) := by
  simp only [handleCreateRoom]
  rw [← hs.nbRooms, ← hs.clients]
  refine .ite (fun _ => ?_) fun _ => .error
  have hcreated := hs.created c rand
  simp only [created, newRoom] at hcreated
  rw [← hs.nbRooms] at hcreated
  exact .ok hcreated

/-- `handle_join_room` once it lets the client in. -/
theorem handleJoinRoom_eq {roomId : UInt32} {spectate : UInt8}
    (hfind : findRoom s roomId = some i) (hopen : JoinOpen (s.rooms i).game spectate) :
    handleJoinRoom s c roomId spectate =
      match joinRoomFrame (joined s c i roomId spectate) (joinedGame s c i spectate) with
      | .error f => .error f
      | .ok frame =>
          if (joinedGame s c i spectate).nbPlayers ≥ 2
              ∧ (joinedGame s c i spectate).isStarted = false then
            .ok (setGame (joined s c i roomId spectate) i
                { joinedGame s c i spectate with isStarted := true },
              writeClient (s.clients c).sock frame ++ gameStarts (joinedGame s c i spectate))
          else .ok (joined s c i roomId spectate, writeClient (s.clients c).sock frame) := by
  obtain ⟨hfull, hidx⟩ := hopen
  simp only [handleJoinRoom, hfind]
  rw [if_neg hfull, if_neg (Nat.not_le.mpr hidx)]
  rfl

private theorem same_joinRoom (hs : Same s t) (roomId : UInt32) (spectate : UInt8) :
    SameResult (handleJoinRoom s c roomId spectate) (handleJoinRoom t c roomId spectate) := by
  cases hfind : findRoom s roomId with
  | none =>
      have hfind' : findRoom t roomId = none := by rw [← hs.findRoom, hfind]
      simp only [handleJoinRoom, hfind, hfind']
      rw [← hs.clients]
      exact .ok hs
  | some i =>
      have hfind' : findRoom t roomId = some i := by rw [← hs.findRoom, hfind]
      have hi := (findRoom_eq_some.mp hfind).1
      have hg := hs.games i hi
      have hidx : addIndex (t.rooms i).game (spectate ≠ 0)
          = addIndex (s.rooms i).game (spectate ≠ 0) := by
        simp only [addIndex]
        rw [hg.nbPlayers, hg.nbSpectators]
      by_cases hopen : JoinOpen (s.rooms i).game spectate
      · have hopen' : JoinOpen (t.rooms i).game spectate := by
          simp only [JoinOpen]
          rw [hidx, ← hg.nbPlayers]
          exact hopen
        have hg' : SameGame (joinedGame s c i spectate) (joinedGame t c i spectate) := by
          simp only [joinedGame]
          rw [← hs.newPlayer]
          exact hg.gameAddPlayer (newPlayer s c) hopen
        have hs₁ : Same (joined s c i roomId spectate) (joined t c i roomId spectate) :=
          (hs.setGame fun _ => hg').setRoomId c roomId
        rw [handleJoinRoom_eq hfind hopen, handleJoinRoom_eq hfind' hopen',
          ← joinRoomFrame_congr hs₁.clients hg', ← hs.clients, ← hg'.nbPlayers, ← hg'.isStarted,
          ← gameStarts_congr hg']
        cases joinRoomFrame (joined s c i roomId spectate) (joinedGame s c i spectate) with
        | error f => exact .error
        | ok frame =>
            refine .ite (fun _ => .ok (hs₁.setGame fun _ => ?_)) fun _ => .ok hs₁
            exact ⟨hg'.board, hg'.nbPlayers, hg'.nbSpectators, rfl, hg'.turn, hg'.members⟩
      · simp only [handleJoinRoom, hfind, hfind']
        rw [hidx, ← hg.nbPlayers, ← hs.clients]
        refine .ite (fun _ => .ok hs) fun hfull => .ite (fun _ => .error) fun hidx' => ?_
        exact absurd ⟨hfull, Nat.lt_of_not_le hidx'⟩ hopen

private theorem same_play (hs : Same s t) {pos : UInt8}
    (hq : leftoverRequest s c (.play pos)) :
    SameResult (handlePlay s c pos) (handlePlay t c pos) := by
  cases hfind : findRoom s (s.clients c).roomId with
  | none =>
      have hfind' : findRoom t (t.clients c).roomId = none := by
        rw [← hs.clients, ← hs.findRoom, hfind]
      simp only [handlePlay, hfind, hfind']
      exact .ok hs
  | some i =>
      have hfind' : findRoom t (t.clients c).roomId = some i := by
        rw [← hs.clients, ← hs.findRoom, hfind]
      have hi := (findRoom_eq_some.mp hfind).1
      have hg := hs.games i hi
      have htwo : (s.rooms i).game.nbPlayers = 2 := hq i hfind
      have hside : sideIn t c i = sideIn s c i := by
        simp only [sideIn, playerSide]
        rw [← hs.clients, ← hg.seat (j := 0) (by omega)]
      have hlt : sideIn s c i < (s.rooms i).game.nbPlayers := by
        have hle := AwaleAuthorisation.sideIn_le s c i
        omega
      have hplay : SameGame (playIn s c i pos).1 (playIn t c i pos).1
          ∧ (playIn s c i pos).2 = (playIn t c i pos).2 := by
        simp only [playIn]
        rw [hside]
        exact hg.gamePlay hlt _
      obtain ⟨hg', hres⟩ := hplay
      have htwo' : (playIn s c i pos).1.nbPlayers = 2 :=
        (play_frame s c i pos).1.trans htwo
      have hend : gameIsEnded (playIn t c i pos).1 = gameIsEnded (playIn s c i pos).1 := by
        simp only [gameIsEnded]
        rw [hg'.seat (j := 0) (by omega), hg'.seat (j := 1) (by omega)]
      have hwinner : ∀ gs, winnerName (playIn t c i pos).1 gs
          = winnerName (playIn s c i pos).1 gs := by
        intro gs
        simp only [winnerName]
        rw [hg'.seat (j := 0) (by omega), hg'.seat (j := 1) (by omega)]
      have hreplies : replies t c i pos = replies s c i pos := by
        simp only [replies]
        rw [← hres, hside, ← playedFrames_congr hg' htwo',
          ← hg'.seat (j := sideIn s c i) (htwo'.symm ▸ htwo ▸ hlt)]
      rw [handlePlay_eq hfind, handlePlay_eq hfind', hend, hwinner, hreplies,
        ← hg'.seat (j := 0) (by omega), ← hg'.seat (j := 1) (by omega)]
      have hs₁ := hs.setGame (i := i) fun _ => hg'
      exact .ite (fun _ => .ite (fun _ => .error) fun _ => .ok (hs₁.deleteRoom i))
        fun _ => .ok hs₁

private theorem same_leaveRoom (hs : Same s t) (hq : leftoverRequest s c .leaveRoom) :
    SameResult (handleLeaveRoom s c) (handleLeaveRoom t c) := by
  obtain ⟨hfound, hq⟩ := hq
  cases hfind : findRoom s (s.clients c).roomId with
  | none => exact absurd hfind hfound
  | some i =>
      have hi := (findRoom_eq_some.mp hfind).1
      have hg := hs.games i hi
      obtain ⟨hplayer, hspec⟩ := hq i hfind
      have htarget := targetRoom_of_find hfind
      have htarget' : targetRoom t (s.clients c).roomId = i := by
        rw [targetRoom, ← hs.findRoom, hfind]
        rfl
      have hs₁ := hs.setRoomId c 0
      simp only [handleLeaveRoom]
      rw [← hs.clients, htarget, htarget']
      refine .ite (fun _ => .error) fun _ => ?_
      simp only [show ∀ u : Server, (setRoomId u c 0).rooms = u.rooms from fun _ => rfl]
      rw [← hg.nbPlayers, ← hg.nbSpectators, ← hg.findPlayer, ← hg.findSpectator]
      refine .ite (fun _ => .error) fun _ => ?_
      cases hp : findPlayer (s.rooms i).game (s.clients c).sock with
      | some j =>
          dsimp only
          rw [← leaveFrames_congr hg (hplayer j hp)]
          exact .ok (hs₁.deleteRoom i)
      | none =>
          dsimp only
          cases hw : findSpectator (s.rooms i).game (s.clients c).sock with
          | some j =>
              exact .ok (hs₁.setGame fun _ =>
                hg.removeSpectator (findSpectator_eq_some.mp hw).1 (hspec hp j hw))
          | none => exact .ok hs₁

private theorem same_sendMessage (hs : Same s t) {message : CString}
    (hq : leftoverRequest s c (.sendMessage message)) :
    SameResult (handleSendMessage s c message) (handleSendMessage t c message) := by
  cases hfind : findRoom s (s.clients c).roomId with
  | none => exact absurd hfind hq
  | some i =>
      have hg := hs.games i (findRoom_eq_some.mp hfind).1
      have htarget := targetRoom_of_find hfind
      have htarget' : targetRoom t (s.clients c).roomId = i := by
        rw [targetRoom, ← hs.findRoom, hfind]
        rfl
      simp only [handleSendMessage]
      rw [← hs.clients, htarget, htarget', ← hg.nbPlayers, ← hg.nbSpectators,
        ← messageFrames_congr hg]
      exact .ite (fun _ => .error) fun _ => .ite (fun _ => .error) fun _ =>
        .ite (fun _ => .error) fun _ => .ok hs

/-- **REQUESTS DO NOT SEE LEFTOVERS.** -/
theorem same_request (hs : Same s t) {rand : UInt32} {q : Request}
    (hq : leftoverRequest s c q) :
    SameResult (handleRequest s c rand q) (handleRequest t c rand q) := by
  cases q with
  | connect name => exact same_connect hs hq
  | createRoom => exact same_createRoom hs rand
  | joinRoom roomId spectate => exact same_joinRoom hs roomId spectate
  | play pos => exact same_play hs hq
  | leaveRoom => exact same_leaveRoom hs hq
  | sendMessage message => exact same_sendMessage hs hq
  | setBiography biography =>
      simp only [handleRequest, handleSetBiography]
      rw [← hs.clients]
      exact .ok (hs.setClient c _)

/-! ## Disconnections -/

/-- A client that no seat holds and whose room exists disconnects from the only room with its
    id; the entries the spectator loop tests there are members' of live rooms; and the copy
    over a removed entry is not taken from the free second seat. -/
def leftoverDisconnect (s : Server) (c : Nat) : Prop :=
  ∀ i ∈ findRoom s (s.clients c).roomId,
    findPlayer (s.rooms i).game (s.clients c).sock = none →
      (∀ k < s.nbRooms.toNat, (s.rooms k).id = (s.clients c).roomId → k = i)
      ∧ (∀ j < (s.rooms i).game.nbSpectators, j ≠ i →
          Live s j ∧ MemberAt (s.rooms j).game (2 + j))
      ∧ (2 ≤ (s.rooms i).game.nbPlayers ∨ (s.rooms i).game.nbSpectators ≠ 2
          ∨ ((s.rooms 0).game.players 2).id ≠ (s.clients c).sock)

/-- The state at round `j` of the spectator loop for room `i`, entered in `s₀`. -/
structure Scanning (s₀ : Server) (i j : Nat) (s : Server) : Prop where
  nbRooms : s.nbRooms = s₀.nbRooms
  others : ∀ k ≠ i, s.rooms k = s₀.rooms k
  id : (s.rooms i).id = (s₀.rooms i).id
  nbPlayers : (s.rooms i).game.nbPlayers = (s₀.rooms i).game.nbPlayers
  fewer : (s.rooms i).game.nbSpectators ≤ (s₀.rooms i).game.nbSpectators
  /-- at most one entry was removed in each round -/
  removed : (s₀.rooms i).game.nbSpectators ≤ (s.rooms i).game.nbSpectators + j
  first : j = 0 → s.rooms i = s₀.rooms i

theorem Scanning.start (s : Server) (i : Nat) : Scanning s i 0 s :=
  ⟨rfl, fun _ _ => rfl, rfl, rfl, Nat.le_refl _, Nat.le_refl _, fun _ => rfl⟩

theorem Scanning.skip {s₀ : Server} (h : Scanning s₀ i j s) : Scanning s₀ i (j + 1) s :=
  ⟨h.nbRooms, h.others, h.id, h.nbPlayers, h.fewer, Nat.le_succ_of_le h.removed,
    fun hj => absurd hj (Nat.succ_ne_zero j)⟩

theorem Scanning.remove {s₀ : Server} (h : Scanning s₀ i j s) :
    Scanning s₀ i (j + 1) (setGame s i (removeSpectator (s.rooms i).game j)) := by
  have hroom : (setGame s i (removeSpectator (s.rooms i).game j)).rooms i
      = { s.rooms i with game := removeSpectator (s.rooms i).game j } :=
    Function.update_self ..
  have hfewer := h.fewer
  have hremoved := h.removed
  refine ⟨h.nbRooms, ?_, ?_, ?_, ?_, ?_, fun hj => absurd hj (Nat.succ_ne_zero j)⟩
  · intro k hk
    rw [setGame_of_ne hk]
    exact h.others k hk
  · rw [hroom]
    exact h.id
  · rw [hroom]
    exact h.nbPlayers
  · rw [hroom]
    show (s.rooms i).game.nbSpectators - 1 ≤ _
    omega
  · rw [hroom]
    show _ ≤ (s.rooms i).game.nbSpectators - 1 + (j + 1)
    omega

/-- Round by round, both loops test equal entries and copy equal entries. -/
private theorem same_dropSpectators {s₀ : Server} {sock : Int} (hi : Live s₀ i)
    (hreads : ∀ j < (s₀.rooms i).game.nbSpectators, j ≠ i →
      Live s₀ j ∧ MemberAt (s₀.rooms j).game (2 + j))
    (hcopy : 2 ≤ (s₀.rooms i).game.nbPlayers ∨ (s₀.rooms i).game.nbSpectators ≠ 2
      ∨ ((s₀.rooms 0).game.players 2).id ≠ sock) :
    ∀ (fuel j : Nat) {s t s₁ : Server}, Same s t → Scanning s₀ i j s →
      dropSpectators sock i fuel j s = .ok s₁ →
      ∃ t₁, dropSpectators sock i fuel j t = .ok t₁ ∧ Same s₁ t₁
        ∧ ∃ j', Scanning s₀ i j' s₁ := by
  intro fuel
  induction fuel with
  | zero =>
      intro j s t s₁ hs hscan h
      obtain rfl := Except.ok.inj h
      exact ⟨t, rfl, hs, j, hscan⟩
  | succ fuel ih =>
      intro j s t s₁ hs hscan h
      have hlive : Live s i := (live_congr hscan.nbRooms i).mpr hi
      have hg := hs.games i hlive
      simp only [dropSpectators] at h ⊢
      rw [← hg.nbSpectators]
      split at h
      · rename_i hj
        rw [if_pos hj]
        split at h
        · cases h
        · rename_i hmax
          rw [if_neg hmax]
          -- the tested entry is a member's
          have hmem : Live s j ∧ MemberAt (s.rooms j).game (2 + j) := by
            by_cases hji : j = i
            · subst hji
              exact ⟨hlive, Or.inr ⟨by omega, by omega⟩⟩
            · obtain ⟨hl, hm⟩ := hreads j (Nat.lt_of_lt_of_le hj hscan.fewer) hji
              rw [hscan.others j hji]
              exact ⟨(live_congr hscan.nbRooms j).mpr hl, hm⟩
          rw [← (hs.games j hmem.1).members _ hmem.2]
          split at h
          · rename_i hhit
            rw [if_pos hhit]
            refine ih (j + 1) (hs.setGame fun _ => hg.removeSpectator hj ?_) hscan.remove h
            have hremoved := hscan.removed
            have hplayers := hscan.nbPlayers
            simp only [MemberAt]
            -- the entry copied is a member's, except with two spectators and `j = 0`
            by_cases hsecond : (s.rooms i).game.nbSpectators = 2 ∧ j = 0
            · obtain ⟨htwo, rfl⟩ := hsecond
              have hroom : s.rooms 0 = s₀.rooms 0 := by
                by_cases h0 : 0 = i
                · rw [h0]
                  exact hscan.first rfl
                · exact hscan.others 0 h0
              rw [hroom] at hhit
              have hfirst := hscan.first rfl
              rw [hfirst] at htwo
              rcases hcopy with hseats | hne | hne
              · omega
              · exact absurd htwo hne
              · exact absurd hhit hne
            · omega
          · rename_i hmiss
            rw [if_neg hmiss]
            exact ih (j + 1) hs hscan.skip h
      · rename_i hj
        rw [if_neg hj]
        obtain rfl := Except.ok.inj h
        exact ⟨t, rfl, hs, j, hscan⟩

/-- **NEITHER DO DISCONNECTIONS.** -/
theorem same_disconnect (hs : Same s t) (hq : leftoverDisconnect s c) {s₁ : Server}
    (h : disconnectUser s c = .ok s₁) :
    ∃ t₁, disconnectUser t c = .ok t₁ ∧ Same s₁ t₁ := by
  cases hfind : findRoom s (s.clients c).roomId with
  | none =>
      rw [disconnectUser_absent hfind] at h
      obtain rfl := Except.ok.inj h
      exact ⟨t, disconnectUser_absent (by rw [← hs.clients, ← hs.findRoom, hfind]), hs⟩
  | some i =>
      have hfind' : findRoom t (t.clients c).roomId = some i := by
        rw [← hs.clients, ← hs.findRoom, hfind]
      obtain ⟨hi, hid, -⟩ := findRoom_eq_some.mp hfind
      have hg := hs.games i hi
      rw [disconnectUser_eq hfind] at h
      rw [disconnectUser_eq hfind', ← hs.clients, ← hs.nbRooms]
      simp only [disconnectRooms] at h ⊢
      rw [if_pos hid] at h
      rw [if_pos ((hs.ids i hi).symm.trans hid), ← hg.findPlayer, ← hg.nbSpectators]
      cases hp : findPlayer (s.rooms i).game (s.clients c).sock with
      | some j =>
          -- `return` after the first seat
          rw [hp] at h
          obtain rfl := Except.ok.inj h
          exact ⟨_, rfl, hs.setGame fun _ => hg.setPlayerId (findPlayer_eq_some.mp hp).1 _⟩
      | none =>
          obtain ⟨honly, hreads, hcopy⟩ := hq i hfind hp
          rw [hp] at h
          dsimp only at h ⊢
          cases hdrop : dropSpectators (s.clients c).sock i (s.rooms i).game.nbSpectators 0 s with
          | error f =>
              rw [hdrop] at h
              cases h
          | ok s₂ =>
              obtain ⟨t₂, ht₂, hs₂, j', hscan⟩ :=
                same_dropSpectators hi hreads hcopy _ 0 hs (Scanning.start s i) hdrop
              rw [hdrop] at h
              rw [ht₂]
              dsimp only at h ⊢
              -- no other room carries the id
              have hne : ∀ k ∈ List.range' (i + 1) (s.nbRooms.toNat - i - 1),
                  Live s₂ k ∧ (s₂.rooms k).id ≠ (s.clients c).roomId := by
                intro k hk
                obtain ⟨hle, hlt⟩ := List.mem_range'_1.mp hk
                have hlive : Live s k := live_iff.mpr (by omega)
                refine ⟨(live_congr hscan.nbRooms k).mpr hlive, ?_⟩
                rw [hscan.others k (by omega)]
                intro heq
                exact absurd (honly k (by omega) heq) (by omega)
              rw [disconnectRooms_skip fun k hk => (hne k hk).2] at h
              obtain rfl := Except.ok.inj h
              refine ⟨t₂, disconnectRooms_skip fun k hk => ?_, hs₂⟩
              rw [← hs₂.ids k (hne k hk).1]
              exact (hne k hk).2

/-! ## Whole runs -/

/-- The events that do not read leftovers. -/
def leftoverGuard : Guard where
  accept _ _ := True
  request s c _ q := leftoverRequest s c q
  disconnect s c := leftoverDisconnect s c

instance (s : Server) (csock : Int) : Decidable (leftoverGuard.accept s csock) :=
  inferInstanceAs (Decidable True)

instance (s : Server) (c : Nat) (rand : UInt32) (q : Request) :
    Decidable (leftoverGuard.request s c rand q) := by
  refine q.casesOn ?_ ?_ ?_ ?_ ?_ ?_ ?_ <;> intros <;>
    dsimp only [leftoverGuard, leftoverRequest] <;> infer_instance

instance (s : Server) (c : Nat) : Decidable (leftoverGuard.disconnect s c) :=
  inferInstanceAs (Decidable (∀ i ∈ findRoom s (s.clients c).roomId, _ → _))

theorem Same.withBuffer (hs : Same s t) (b : Buffer) :
    Same { s with buffer := b } { t with buffer := b } :=
  ⟨hs.clients, hs.nbClients, hs.nbRooms, rfl, hs.ids, hs.games⟩

theorem Same.removeClient (hs : Same s t) (c : Nat) :
    Same (removeClient s c) (removeClient t c) := by
  refine ⟨?_, ?_, hs.nbRooms, hs.buffer, hs.ids, hs.games⟩
  · show SlotArray.shiftDown s.clients c (s.nbClients - 1) = _
    rw [hs.clients, hs.nbClients]
    rfl
  · show s.nbClients - 1 = t.nbClients - 1
    rw [hs.nbClients]

theorem Same.accepted (hs : Same s t) (csock : Int) :
    Same (accepted s csock) (accepted t csock) := by
  have hset := hs.setClient s.nbClients ⟨csock, CString.empty, 0, CString.empty⟩
  refine ⟨?_, ?_, hs.nbRooms, hs.buffer, hs.ids, hs.games⟩
  · show (AwaleServer.setClient s s.nbClients _).clients
      = (AwaleServer.setClient t t.nbClients _).clients
    rw [← hs.nbClients]
    exact hset.clients
  · show s.nbClients + 1 = t.nbClients + 1
    rw [hs.nbClients]

theorem Same.possible (hs : Same s t) (e : Event) : Possible s e ↔ Possible t e := by
  cases e with
  | accept csock =>
      show (0 < csock ∧ ∀ i < s.nbClients, (s.clients i).sock ≠ csock)
        ↔ (0 < csock ∧ ∀ i < t.nbClients, (t.clients i).sock ≠ csock)
      rw [hs.clients, hs.nbClients]
  | frame c body rand =>
      show (c < s.nbClients ∧ _) ↔ (c < t.nbClients ∧ _)
      rw [hs.nbClients]
  | disconnect c =>
      show c < s.nbClients ↔ c < t.nbClients
      rw [hs.nbClients]

/-- One event. -/
theorem same_step (hs : Same s t) {e : Event} (hq : leftoverGuard.meets s e) {s' : Server}
    {out : List Sent} (h : step s e = .ok (s', out)) :
    ∃ t', step t e = .ok (t', out) ∧ Same s' t' := by
  cases e with
  | accept csock =>
      obtain ⟨hn, rfl, rfl⟩ := step_cases h
      refine ⟨AwaleEffect.accepted t csock, ?_, hs.accepted csock⟩
      simp only [step, acceptClient]
      rw [if_pos (hs.nbClients ▸ hn)]
      rfl
  | frame c body rand =>
      have hs₁ := hs.withBuffer (storeBody s.buffer body)
      simp only [step, readFrame] at h ⊢
      rw [← hs.buffer]
      split at h
      · cases h
      · rename_i hlen
        rw [if_neg hlen]
        cases hread : readRequest (storeBody s.buffer body) with
        | none =>
            rw [hread] at h
            obtain ⟨rfl, rfl⟩ := Prod.mk.inj (Except.ok.inj h)
            exact ⟨_, rfl, hs₁⟩
        | some q =>
            rw [hread] at h
            have hq' : leftoverRequest (received s body) c q := Guard.meets_frame.mp hq q hread
            have hboth : SameResult (handleRequest (received s body) c rand q) _ :=
              same_request hs₁ hq'
            dsimp only at h ⊢
            rw [received, h] at hboth
            generalize handleRequest _ c rand q = r at hboth ⊢
            cases hboth with
            | ok hsame => exact ⟨_, rfl, hsame⟩
  | disconnect c =>
      obtain ⟨s₁, hd, rfl, rfl⟩ := step_cases h
      obtain ⟨t₁, hd', hs₁⟩ := same_disconnect hs hq hd
      refine ⟨{ AwaleServer.removeClient t₁ c with buffer := farewell (s.clients c).name }, ?_,
        (hs₁.removeClient c).withBuffer _⟩
      simp only [step, dropClient, hd']
      rw [← hs.clients]

/-- **DEAD STORAGE.**  From two states that agree on the clients and the live rooms, a run whose
    events do not read leftovers is matched by a run over the same events that sends the same
    frames to the same sockets, and the states it ends in agree again. -/
theorem dead_storage (es : List Event) (hs : Same s t) {s' : Server} {outs : List (List Sent)}
    (hm : GuardedRun.Meets trans leftoverGuard.meets s es)
    (hrun : GuardedRun.run trans s es = some (s', outs)) :
    ∃ t', GuardedRun.run trans t es = some (t', outs) ∧ Same s' t' := by
  refine GuardedRun.run_related ?_ es hs hm hrun
  intro u v e u' out huv hq htr
  obtain ⟨hp, hstep⟩ := trans_eq_some htr
  obtain ⟨v', hv, hsame⟩ := same_step huv hq hstep
  refine ⟨v', ?_, hsame⟩
  exact trans_eq ((huv.possible e).mp hp) hv ((opened_congr huv.open out).mp (trans_iff.mp htr).2.2)

/-- The state with its slots as they were at the start. -/
def swept (s : Server) : Server := { s with rooms := (initial s.buffer).rooms }

theorem same_swept (hnb : s.nbRooms = 0) : Same s (swept s) := by
  have hnone : ∀ k, ¬ Live s k := not_live_of_le (Int.le_of_eq hnb)
  exact ⟨rfl, rfl, rfl, rfl, fun k hk => absurd hk (hnone k), fun k hk => absurd hk (hnone k)⟩

/-- The next game in the slot that `twoLeavers` used. -/
def nextGame : List Event :=
  [.frame 0 Request.createRoom.body 9, .frame 1 (Request.joinRoom 9 0).body 0,
    .frame 0 (Request.play 2).body 0, .disconnect 1]

theorem dead_storage_next_game :
    ∃ s, Reachable Guard.any.meets s ∧ s.nbRooms = 0
      ∧ ∃ s' t' outs, GuardedRun.run trans s nextGame = some (s', outs)
        ∧ GuardedRun.run trans (swept s) nextGame = some (t', outs) ∧ Same s' t' := by
  obtain ⟨s, hs, hf⟩ := Guard.reaches (g := Guard.any)
    (f := fun s => (s.nbRooms,
      decide (GuardedRun.Meets trans leftoverGuard.meets s nextGame),
      (GuardedRun.run trans s nextGame).isSome))
    (b := (0, true, true)) (twoLeavers.take 5)
    (by decide +kernel) (by decide +kernel)
  obtain ⟨hnb, hf⟩ := Prod.mk.inj hf
  obtain ⟨hmeets, hsome⟩ := Prod.mk.inj hf
  obtain ⟨⟨s', outs⟩, hrun⟩ := Option.isSome_iff_exists.mp hsome
  obtain ⟨t', ht, hsame⟩ :=
    dead_storage nextGame (same_swept hnb) (of_decide_eq_true hmeets) hrun
  exact ⟨s, hs, hnb, s', t', outs, hrun, ht, hsame⟩

/-- The second of two leavers is in no live room; its LEAVE_ROOM finds it in the slot behind
    the last room and stops a game there. -/
theorem leave_reads_leftovers :
    ∃ s, Reachable Guard.any.meets s
      ∧ (∀ k, Live s k → s.rooms k = (swept s).rooms k)
      ∧ (GuardedRun.run trans s [.frame 1 Request.leaveRoom.body 0]).map (fun r => r.2)
        = some [[(4, .gameStopped true CString.empty)]]
      ∧ (GuardedRun.run trans (swept s) [.frame 1 Request.leaveRoom.body 0]).map (fun r => r.2)
        = some [[]] := by
  obtain ⟨s, hs, hf⟩ := Guard.reaches (g := Guard.any)
    (f := fun s => (s.nbRooms,
      decide ((GuardedRun.run trans s [.frame 1 Request.leaveRoom.body 0]).map (fun r => r.2)
        = some [[(4, .gameStopped true CString.empty)]]),
      decide ((GuardedRun.run trans (swept s) [.frame 1 Request.leaveRoom.body 0]).map
        (fun r => r.2) = some [[]])))
    (b := (0, true, true)) (twoLeavers.take 5)
    (by decide +kernel) (by decide +kernel)
  obtain ⟨hnb, hf⟩ := Prod.mk.inj hf
  obtain ⟨hleft, hswept⟩ := Prod.mk.inj hf
  have hnone : ∀ k, ¬ Live s k := not_live_of_le (Int.le_of_eq hnb)
  exact ⟨s, hs, fun k hk => absurd hk (hnone k), of_decide_eq_true hleft,
    of_decide_eq_true hswept⟩

end AwaleDeadStorage
