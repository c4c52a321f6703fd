import AwaleOnline.AwaleProtocolProofs
import AwaleOnline.SlotArrayProofs
import AwaleOnline.GuardedRunProofs
import Mathlib.Data.List.Find

/-!
# The server: `server.c`, `room.c` and the handlers of `protocol.c`

One definition for each handler, on the global state of the server.  `current_client`, which
`app` sets before every call, is the argument `c`.

* A handler returns the new state and the frames that `write_client` is to send, in order, or a
  `Fault`: the first access past the end of a table or of a frame buffer.  C gives such a run
  no meaning, so it has no successor state here.
* `write_client` ends the process when `send` fails, as it does on a descriptor that is no open
  connection.  Such a run has no successor state either (`Opened`).
* Every slot of `clients` and `rooms` is kept, in use or not: deletions leave old contents
  behind, and some handlers read them.  `nb_rooms` is an `Int` because the code can take it
  below zero.
* `rand()` and the descriptors `accept` returns come with the event.

`step` is one round of the loop of `app`; **`trans`** is the transition function of the
system, and **`findRoom_eq_some`**, **`findRoom_eq_none`** and their companions say what the
search loops find.
-/

namespace AwaleServer

open AwaleGame AwaleProtocol

def maxClients : Nat := 100
def maxRooms : Nat := 200

/-- `Client` -/
structure Client where
  sock : Int
  name : CString
  roomId : UInt32
  biography : CString

/-- `Room` -/
structure Room where
  id : UInt32
  game : Game

/-- The globals of `server.c` and the receive buffer of `app`. -/
structure Server where
  clients : Nat → Client
  nbClients : Nat
  rooms : Nat → Room
  nbRooms : Int
  buffer : Buffer

/-- The arrays that are indexed by a count. -/
inductive Table where
  | clients | rooms | players | playerNames | playerBios
  deriving DecidableEq

/-- What makes a run leave defined behaviour. -/
inductive Fault where
  | index (table : Table) (i : Int)
  | buffer
  deriving DecidableEq

/-- A frame and the descriptor it is sent on. -/
abbrev Sent := Int × ServerMsg

abbrev Result := Except Fault (Server × List Sent)

/-- `write_client`: what is handed to `send`.  `trans` asks whether the `send` succeeds. -/
def writeClient (sock : Int) (m : ServerMsg) : List Sent :=
  if sock ≠ -1 then [(sock, m)] else []

theorem mem_writeClient {x : Int} {m : ServerMsg} {f : Sent} :
    f ∈ writeClient x m ↔ x ≠ -1 ∧ f = (x, m) := by
  simp only [writeClient]
  split
  · rename_i h
    exact ⟨fun hf => ⟨h, List.mem_singleton.mp hf⟩, fun hf => List.mem_singleton.mpr hf.2⟩
  · rename_i h
    exact ⟨fun hf => absurd hf List.not_mem_nil, fun hf => absurd hf.1 h⟩

/-- Every frame goes to a descriptor that satisfies `P`. -/
def SentTo (P : Int → Prop) (out : List Sent) : Prop := ∀ f ∈ out, P f.1

section SentTo

variable {P Q : Int → Prop} {out out' : List Sent}

theorem sentTo_nil : SentTo P [] := List.forall_mem_nil _

theorem SentTo.mono (h : SentTo P out) (hPQ : ∀ x, P x → Q x) : SentTo Q out :=
  fun f hf => hPQ f.1 (h f hf)

theorem sentTo_append_iff : SentTo P (out ++ out') ↔ SentTo P out ∧ SentTo P out' :=
  List.forall_mem_append

theorem sentTo_append (h : SentTo P out) (h' : SentTo P out') : SentTo P (out ++ out') :=
  sentTo_append_iff.mpr ⟨h, h'⟩

/-- `write_client` skips the descriptors it must not write to only when they are `-1`. -/
theorem sentTo_writeClient_iff {x : Int} {m : ServerMsg} :
    SentTo P (writeClient x m) ↔ x = -1 ∨ P x := by
  constructor
  · intro h
    by_cases hx : x = -1
    · exact Or.inl hx
    · exact Or.inr (h (x, m) (mem_writeClient.mpr ⟨hx, rfl⟩))
  · intro h f hf
    obtain ⟨hx, rfl⟩ := mem_writeClient.mp hf
    exact h.resolve_left hx

theorem sentTo_writeClient {x : Int} {m : ServerMsg} (h : x = -1 ∨ P x) :
    SentTo P (writeClient x m) := sentTo_writeClient_iff.mpr h

theorem sentTo_flatMap_iff {n : Nat} {frames : Nat → List Sent} :
    SentTo P ((List.range n).flatMap frames) ↔ ∀ j < n, SentTo P (frames j) := by
  constructor
  · intro h j hj f hf
    exact h f (List.mem_flatMap.mpr ⟨j, List.mem_range.mpr hj, hf⟩)
  · intro h f hf
    obtain ⟨j, hj, hmem⟩ := List.mem_flatMap.mp hf
    exact h j (List.mem_range.mp hj) f hmem

theorem sentTo_flatMap {n : Nat} {frames : Nat → List Sent}
    (h : ∀ j < n, SentTo P (frames j)) : SentTo P ((List.range n).flatMap frames) :=
  sentTo_flatMap_iff.mpr h

end SentTo

/-! ## `room.c` -/

def roomInit (room : Room) (rand : UInt32) : Room := ⟨rand, gameInit room.game⟩

def roomAddPlayer (room : Room) (player : Player) (spectate : Bool) : Room :=
  { room with game := gameAddPlayer room.game player spectate }

def roomPlay (room : Room) (pos : Int) (side : Nat) : Room × PlayResult :=
  let r := gamePlay machine room.game pos side
  ({ room with game := r.1 }, r.2)

/-! ## The search loops -/

/-- `for (i = 0; i < nb_rooms; ++i) if (rooms[i].id == room_id) ...` -/
def findRoom (s : Server) (roomId : UInt32) : Option Nat :=
  (List.range s.nbRooms.toNat).find? fun i => (s.rooms i).id = roomId

/-- The first seat that holds a socket. -/
def findPlayer (game : Game) (sock : Int) : Option Nat :=
  (List.range game.nbPlayers).find? fun j => (game.players j).id = sock

/-- The first spectator that holds a socket, counted from entry `2`. -/
def findSpectator (game : Game) (sock : Int) : Option Nat :=
  (List.range game.nbSpectators).find? fun j => (game.players (j + 2)).id = sock

/-- The room and seat the nested loops of `handle_connect` stop at. -/
def findSeat (s : Server) (name : CString) : Option (Nat × Nat) :=
  (List.range s.nbRooms.toNat).findSome? fun i =>
    ((List.range (s.rooms i).game.nbPlayers).find? fun j =>
      name = ((s.rooms i).game.players j).name).map fun j => (i, j)

def nameInUse (s : Server) (name : CString) : Bool :=
  (List.range s.nbClients).any fun i => (s.clients i).name = name

/-! ## Updates -/

def setRoom (s : Server) (i : Nat) (room : Room) : Server :=
  { s with rooms := Function.update s.rooms i room }

def setGame (s : Server) (i : Nat) (game : Game) : Server :=
  setRoom s i { s.rooms i with game := game }

theorem setRoom_self (s : Server) (i : Nat) (room : Room) :
    (setRoom s i room).rooms i = room := Function.update_self ..

theorem setRoom_of_ne {s : Server} {i k : Nat} (hk : k ≠ i) (room : Room) :
    (setRoom s i room).rooms k = s.rooms k := Function.update_of_ne hk ..

theorem setGame_self (s : Server) (i : Nat) (game : Game) :
    ((setGame s i game).rooms i).game = game :=
  congrArg Room.game (setRoom_self s i _)

theorem setGame_of_ne {s : Server} {i k : Nat} (hk : k ≠ i) (game : Game) :
    (setGame s i game).rooms k = s.rooms k := setRoom_of_ne hk _

theorem setGame_id (s : Server) (i : Nat) (game : Game) (k : Nat) :
    ((setGame s i game).rooms k).id = (s.rooms k).id := by
  by_cases hk : k = i
  · subst hk
    rw [setGame, setRoom_self]
  · rw [setGame_of_ne hk]

/-- What holds of the room written, and of every other room, holds of every room. -/
theorem setRoom_slots {s : Server} {i : Nat} {room : Room} {P : Nat → Game → Prop}
    (hother : ∀ k, k ≠ i → P k (s.rooms k).game) (hself : P i room.game) (k : Nat) :
    P k ((setRoom s i room).rooms k).game := by
  by_cases hk : k = i
  · subst hk
    rw [setRoom_self]
    exact hself
  · rw [setRoom_of_ne hk]
    exact hother k hk

theorem setGame_slots {s : Server} {i : Nat} {game : Game} {P : Nat → Game → Prop}
    (hother : ∀ k, k ≠ i → P k (s.rooms k).game) (hself : P i game) (k : Nat) :
    P k ((setGame s i game).rooms k).game := setRoom_slots hother hself k

def setClient (s : Server) (c : Nat) (client : Client) : Server :=
  { s with clients := Function.update s.clients c client }

theorem setClient_rooms (s : Server) (c : Nat) (client : Client) :
    (setClient s c client).rooms = s.rooms := rfl

theorem setClient_self (s : Server) (c : Nat) (client : Client) :
    (setClient s c client).clients c = client := Function.update_self ..

theorem setClient_of_ne {s : Server} {a c : Nat} (hac : a ≠ c) (client : Client) :
    (setClient s c client).clients a = s.clients a := Function.update_of_ne hac ..

/-- A field that the new entry of `c` has in common with the old one is the same for all. -/
theorem setClient_field {β : Type} (f : Client → β) {s : Server} {c : Nat} {client : Client}
    (h : f client = f (s.clients c)) (a : Nat) :
    f ((setClient s c client).clients a) = f (s.clients a) := by
  by_cases hac : a = c
  · subst hac
    rw [setClient_self, h]
  · rw [setClient_of_ne hac]

/-- `clients[c].room_id = room_id;` -/
def setRoomId (s : Server) (c : Nat) (roomId : UInt32) : Server :=
  setClient s c { s.clients c with roomId := roomId }

/-- `game->players[j].id = id;` -/
def setPlayerId (game : Game) (j : Nat) (id : Int) : Game :=
  { game with players := Function.update game.players j { game.players j with id := id } }

theorem setPlayerId_self (game : Game) (j : Nat) (id : Int) :
    (setPlayerId game j id).players j = { game.players j with id := id } :=
  Function.update_self ..

theorem setPlayerId_of_ne {game : Game} {e j : Nat} (he : e ≠ j) (id : Int) :
    (setPlayerId game j id).players e = game.players e := Function.update_of_ne he ..

theorem setPlayerId_name (game : Game) (j : Nat) (id : Int) (e : Nat) :
    ((setPlayerId game j id).players e).name = (game.players e).name := by
  by_cases he : e = j
  · rw [he, setPlayerId_self]
  · rw [setPlayerId_of_ne he]

/-- Only the last occupant counts. -/
theorem setPlayerId_twice (game : Game) (j : Nat) (id id' : Int) :
    setPlayerId (setPlayerId game j id) j id' = setPlayerId game j id' := by
  simp only [setPlayerId]
  simp only [Function.update_self, Function.update_idem]

/-- A view of the board does not show who plays. -/
theorem writePlayed_setPlayerId (game : Game) (j : Nat) (id : Int) (side : Nat) :
    writePlayed side (setPlayerId game j id) = writePlayed side game := by
  have hcaptured : ∀ e, ((setPlayerId game j id).players e).captured
      = (game.players e).captured := by
    intro e
    by_cases he : e = j
    · rw [he, setPlayerId_self]
    · rw [setPlayerId_of_ne he]
  simp only [writePlayed]
  rw [hcaptured, hcaptured]
  rfl

theorem gameAddPlayer_self (game : Game) (player : Player) (spectate : Bool) :
    (gameAddPlayer game player spectate).players (addIndex game spectate)
      = { player with captured := 0 } := Function.update_self ..

theorem gameAddPlayer_of_ne {game : Game} {player : Player} {spectate : Bool} {e : Nat}
    (he : e ≠ addIndex game spectate) :
    (gameAddPlayer game player spectate).players e = game.players e :=
  Function.update_of_ne he ..

/-- `--nb_rooms;` and the shift behind it. -/
def deleteRoom (s : Server) (i : Nat) : Server :=
  { s with
    nbRooms := s.nbRooms - 1
    rooms := SlotArray.shiftDown s.rooms i (s.nbRooms - 1).toNat }

/-- The removal of spectator `j`, as `handle_leave_room` and `disconnect_user` write it: the
    entry is overwritten by entry `nb_spectators - 1`. -/
def removeSpectator (game : Game) (j : Nat) : Game :=
  { game with
    players := Function.update game.players (j + 2) (game.players (game.nbSpectators - 1))
    nbSpectators := game.nbSpectators - 1 }

theorem removeSpectator_of_ne {game : Game} {e j : Nat} (he : e ≠ j + 2) :
    (removeSpectator game j).players e = game.players e := Function.update_of_ne he ..

/-- `remove_client`: the `memmove` over the client table. -/
def removeClient (s : Server) (c : Nat) : Server :=
  { s with
    clients := SlotArray.shiftDown s.clients c (s.nbClients - 1)
    nbClients := s.nbClients - 1 }

/-! ## The handlers -/

/-- The seated players first, then the spectators, as both callers of
    `server_client_protocol_write_join_room_successful` fill `player_names`. -/
def playerNames (game : Game) : List CString :=
  ((List.range game.nbPlayers).map fun j => (game.players j).name)
    ++ (List.range game.nbSpectators).map fun j => (game.players (2 + j)).name

/-- `player_bios[j] = clients[players[j].client_index].biography` -/
def playerBios (s : Server) (game : Game) : List CString :=
  (List.range game.nbPlayers).map fun j =>
    (s.clients (game.players j).clientIndex).biography

/-- The JOIN_ROOM_SUCCESSFUL frame for a room, built in a buffer of `BUF_SIZE` bytes. -/
def joinRoomFrame (s : Server) (game : Game) : Except Fault ServerMsg :=
  if game.nbPlayers > 2 then .error (.index .playerBios 2)
  else if game.nbPlayers + game.nbSpectators > maxGamePlayers then
    .error (.index .playerNames maxGamePlayers)
  else if (List.range game.nbPlayers).any
      fun j => (game.players j).clientIndex ≥ maxClients then .error (.index .clients maxClients)
  else
    let frame := writeJoinRoomSuccessful (playerNames game) game.nbPlayers
      game.nbSpectators (playerBios s game)
    if frame.size > bufSize then .error .buffer else .ok frame

def handleConnect (s : Server) (c : Nat) (name : CString) : Result :=
  let sock := (s.clients c).sock
  if nameInUse s name then
    .ok (s, writeClient sock (.connectionRefused (literal "Error: Name already in use.")))
  else
    let s := setClient s c { s.clients c with name := name }
    match findSeat s name with
    | some (i, j) =>
        let game := setPlayerId (s.rooms i).game j sock
        let s := setRoomId (setGame s i game) c (s.rooms i).id
        if game.isStarted = false then
          match joinRoomFrame s game with
          | .error f => .error f
          | .ok frame => .ok (s, writeClient sock frame)
        else if game.turn = j then .ok (s, writeClient sock (writePlayed j game))
        else .ok (s, writeClient sock (.gameStart 1))
    | none =>
        -- user wasn't disconnected
        .ok (s, writeClient sock .connectionSuccessful)

/-- The `Player` that `handle_create_room` and `handle_join_room` fill in. -/
def newPlayer (s : Server) (c : Nat) : Player where
  id := (s.clients c).sock
  name := (s.clients c).name
  captured := 0
  clientIndex := c

def handleCreateRoom (s : Server) (c : Nat) (rand : UInt32) : Result :=
  if 0 ≤ s.nbRooms ∧ s.nbRooms < maxRooms then
    let i := s.nbRooms.toNat
    let room := roomAddPlayer (roomInit (s.rooms i) rand) (newPlayer s c) false
    .ok ({ setRoomId (setRoom s i room) c rand with nbRooms := s.nbRooms + 1 },
      writeClient (s.clients c).sock (.roomCreationSuccessful rand))
  else .error (.index .rooms s.nbRooms)

/-- The GAME_START frames, one for each seat, carrying the seat's index. -/
def gameStarts (game : Game) : List Sent :=
  (List.range game.nbPlayers).flatMap fun j =>
    writeClient (game.players j).id (.gameStart (UInt8.ofNat j))

def handleJoinRoom (s : Server) (c : Nat) (roomId : UInt32) (spectate : UInt8) : Result :=
  let sock := (s.clients c).sock
  match findRoom s roomId with
  | none => .ok (s, writeClient sock (.joinRoomRefused (literal "Error: Room not found.")))
  | some i =>
      if (spectate = 0 ∧ (s.rooms i).game.nbPlayers ≥ 2)
          ∨ (s.rooms i).game.nbPlayers ≥ maxGamePlayers then
        .ok (s, writeClient sock (.joinRoomRefused
          (literal "Error: The room is full. Try to spectate instead.")))
      else if addIndex (s.rooms i).game (spectate ≠ 0) ≥ maxGamePlayers then
        .error (.index .players (addIndex (s.rooms i).game (spectate ≠ 0)))
      else
        let room := roomAddPlayer (s.rooms i) (newPlayer s c) (spectate ≠ 0)
        let s := setRoomId (setRoom s i room) c roomId
        match joinRoomFrame s room.game with
        | .error f => .error f
        | .ok frame =>
            if room.game.nbPlayers ≥ 2 ∧ room.game.isStarted = false then
              .ok (setGame s i { room.game with isStarted := true },
                writeClient sock frame ++ gameStarts room.game)
            else .ok (s, writeClient sock frame)

/-- The PLAYED frames: each seat's own view, and the view of side `0` for the spectators. -/
def playedFrames (game : Game) : List Sent :=
  ((List.range game.nbPlayers).flatMap fun j =>
      writeClient (game.players j).id (writePlayed j game))
    ++ (List.range game.nbSpectators).flatMap fun j =>
      writeClient (game.players (2 + j)).id (writePlayed 0 game)

/-- The text of an INVALID_PLAY frame. -/
def invalidPlayText (res : PlayResult) : CString :=
  match res with
  | .outOfBounds => literal "Error: Invalid play."
  | .emptyHouse => literal "Error: Empty house."
  | .validPlay => literal "Unknown error."

/-- `rooms[i].game.players[gs - 1].name`, which is read only when there is a winner. -/
def winnerName (game : Game) (gs : GameState) : CString :=
  match gs with
  | .p1won => (game.players 0).name
  | .p2won => (game.players 1).name
  | _ => CString.empty

/-- The side `handle_play` infers for a socket. -/
def playerSide (game : Game) (sock : Int) : Nat :=
  if (game.players 0).id = sock then 0 else 1

def handlePlay (s : Server) (c : Nat) (play : UInt8) : Result :=
  match findRoom s (s.clients c).roomId with
  | none => .ok (s, [])
  | some i =>
      let side := playerSide (s.rooms i).game (s.clients c).sock
      let r := roomPlay (s.rooms i) (side * boardSize / 2 + play.toNat : Nat) side
      let game := r.1.game
      let s := setRoom s i r.1
      let replies :=
        if r.2 = .validPlay then playedFrames game
        else writeClient (game.players side).id (.invalidPlay (invalidPlayText r.2))
      let gs := gameIsEnded game
      if gs ≠ .notEnded then
        let frame := ServerMsg.gameStopped (gs = .draw) (winnerName game gs)
        if frame.size > bufSize then .error .buffer
        else
          .ok (deleteRoom s i,
            replies ++ writeClient (game.players 0).id frame
              ++ writeClient (game.players 1).id frame)
      else .ok (s, replies)

/-- The index `handle_leave_room` and `handle_send_message` work on: the first room with the
    id, or the slot behind the last room when there is none. -/
def targetRoom (s : Server) (roomId : UInt32) : Nat :=
  (findRoom s roomId).getD s.nbRooms.toNat

/-- The GAME_STOPPED frames of `handle_leave_room`: entries `0` to
    `nb_players + nb_spectators - 1`, but the leaver's. -/
def leaveFrames (game : Game) (j : Nat) : List Sent :=
  (List.range (game.nbPlayers + game.nbSpectators)).flatMap fun k =>
    if k ≠ j then writeClient (game.players k).id (.gameStopped true CString.empty) else []

def handleLeaveRoom (s : Server) (c : Nat) : Result :=
  let i := targetRoom s (s.clients c).roomId
  let sock := (s.clients c).sock
  let s := setRoomId s c 0
  if i ≥ maxRooms then .error (.index .rooms i)
  else
    let game := (s.rooms i).game
    if game.nbPlayers + game.nbSpectators > maxGamePlayers
        ∨ 2 + game.nbSpectators > maxGamePlayers then .error (.index .players maxGamePlayers)
    else
      match findPlayer game sock with
      | some j =>
          -- A player is leaving, close room
          .ok (deleteRoom s i, leaveFrames game j)
      | none =>
          match findSpectator game sock with
          | some j => .ok (setGame s i (removeSpectator game j), [])
          | none => .ok (s, [])

/-- The MESSAGE frames: every member entry of the room but the sender's. -/
def messageFrames (game : Game) (sock : Int) (frame : ServerMsg) : List Sent :=
  ((List.range game.nbPlayers).flatMap fun j =>
      if (game.players j).id ≠ sock then writeClient (game.players j).id frame else [])
    ++ (List.range game.nbSpectators).flatMap fun j =>
      if (game.players (2 + j)).id ≠ sock then writeClient (game.players (2 + j)).id frame
      else []

def handleSendMessage (s : Server) (c : Nat) (message : CString) : Result :=
  let i := targetRoom s (s.clients c).roomId
  let frame := ServerMsg.message (s.clients c).name message
  if frame.size > bufSize then .error .buffer
  else if i ≥ maxRooms then .error (.index .rooms i)
  else
    let game := (s.rooms i).game
    if game.nbPlayers > maxGamePlayers ∨ 2 + game.nbSpectators > maxGamePlayers then
      .error (.index .players maxGamePlayers)
    else .ok (s, messageFrames game (s.clients c).sock frame)

def handleSetBiography (s : Server) (c : Nat) (biography : CString) : Result :=
  .ok (setClient s c { s.clients c with biography := biography }, [])

/-- The handler table of `handlers_init`. -/
def handleRequest (s : Server) (c : Nat) (rand : UInt32) : Request → Result
  | .connect name => handleConnect s c name
  | .createRoom => handleCreateRoom s c rand
  | .joinRoom roomId spectate => handleJoinRoom s c roomId spectate
  | .play pos => handlePlay s c pos
  | .leaveRoom => handleLeaveRoom s c
  | .sendMessage message => handleSendMessage s c message
  | .setBiography biography => handleSetBiography s c biography

/-! ## `disconnect_user` -/

/-- The spectator loop of `disconnect_user` for room `i`, from index `j` on.  It tests the
    entry of room `j`, not of room `i`, and the count it runs to shrinks under it. -/
def dropSpectators (sock : Int) (i : Nat) : Nat → Nat → Server → Except Fault Server
  | 0, _, s => .ok s
  | fuel + 1, j, s =>
      if j < (s.rooms i).game.nbSpectators then
        if j ≥ maxRooms then .error (.index .rooms j)
        else if ((s.rooms j).game.players (2 + j)).id = sock then
          dropSpectators sock i fuel (j + 1)
            (setGame s i (removeSpectator (s.rooms i).game j))
        else dropSpectators sock i fuel (j + 1) s
      else .ok s

/-- The loop of `disconnect_user` over the rooms that are left. -/
def disconnectRooms (sock : Int) (roomId : UInt32) :
    List Nat → Server → Except Fault Server
  | [], s => .ok s
  | i :: is, s =>
      if (s.rooms i).id = roomId then
        match findPlayer (s.rooms i).game sock with
        | some j => .ok (setGame s i (setPlayerId (s.rooms i).game j (-1)))
        | none =>
            match dropSpectators sock i (s.rooms i).game.nbSpectators 0 s with
            | .error f => .error f
            | .ok s => disconnectRooms sock roomId is s
      else disconnectRooms sock roomId is s

def disconnectUser (s : Server) (c : Nat) : Except Fault Server :=
  disconnectRooms (s.clients c).sock (s.clients c).roomId
    (List.range s.nbRooms.toNat) s

/-! ## `app` -/

/-- What `select` reports and what arrives with it.  `rand` is what `rand()` returns if the
    frame makes the server call it. -/
inductive Event where
  | accept (csock : Int)
  | frame (c : Nat) (body : List UInt8) (rand : UInt32)
  | disconnect (c : Nat)
  deriving DecidableEq

/-- The receive buffer after `strncpy(buffer, client.name, BUF_SIZE)` and the `strncat`. -/
def farewell (name : CString) : Buffer := fun k =>
  ((name.chars ++ (literal " disconnected !").chars).take (bufSize - 1))[k]?.getD 0

def acceptClient (s : Server) (csock : Int) : Result :=
  if s.nbClients < maxClients then
    .ok ({ setClient s s.nbClients ⟨csock, CString.empty, 0, CString.empty⟩ with
      nbClients := s.nbClients + 1 }, [])
  else .error (.index .clients s.nbClients)

/-- A frame of the client at index `c`: `read_client`, then the dispatch. -/
def readFrame (s : Server) (c : Nat) (body : List UInt8) (rand : UInt32) : Result :=
  if body.length ≥ bufSize then .error .buffer
  else
    let s := { s with buffer := storeBody s.buffer body }
    match readRequest s.buffer with
    | some q => handleRequest s c rand q
    | none => .ok (s, [])

/-- `read_client` returned `0` for the client at index `c`. -/
def dropClient (s : Server) (c : Nat) : Result :=
  match disconnectUser s c with
  | .error f => .error f
  | .ok s' => .ok ({ removeClient s' c with buffer := farewell (s.clients c).name }, [])

/-- One round of the loop of `app`, if no `send` in it fails. -/
def step (s : Server) : Event → Result
  | .accept csock => acceptClient s csock
  | .frame c body rand => readFrame s c body rand
  | .disconnect c => dropClient s c

/-- What the operating system can report: a new descriptor is positive (descriptor `0` is the
    keyboard) and not one of an open connection; only a client of the table talks; a body is
    not empty (`read_client` would return `0`) and its length fits the two length bytes. -/
def Possible (s : Server) : Event → Prop
  | .accept csock => 0 < csock ∧ ∀ i < s.nbClients, (s.clients i).sock ≠ csock
  | .frame c body _ => c < s.nbClients ∧ 0 < body.length ∧ body.length < 65536
  | .disconnect c => c < s.nbClients

instance (s : Server) (e : Event) : Decidable (Possible s e) := by
  cases e <;> unfold Possible <;> infer_instance

/-- The descriptor of an open connection.  The server closes one only when its client leaves the
    table. -/
def Open (s : Server) (x : Int) : Prop := ∃ i < s.nbClients, (s.clients i).sock = x

instance (s : Server) (x : Int) : Decidable (Open s x) :=
  inferInstanceAs (Decidable (∃ i < s.nbClients, (s.clients i).sock = x))

/-- Every `send` succeeds.  On any other descriptor it returns `-1`, and `write_client` goes on
    with perror("send()"); exit(errno); an open connection is taken to accept what is sent, whether
    its client still reads or not. -/
def Opened (s : Server) (out : List Sent) : Prop := SentTo (Open s) out

instance (s : Server) (out : List Sent) : Decidable (Opened s out) :=
  inferInstanceAs (Decidable (∀ f ∈ out, Open s f.1))

/-- A call of `write_client` comes back: it sends nothing to `-1`. -/
def Writable (s : Server) (x : Int) : Prop := x = -1 ∨ Open s x

instance (s : Server) (x : Int) : Decidable (Writable s x) :=
  inferInstanceAs (Decidable (_ ∨ _))

/-- The processing of an event stays defined, and no `send` ends the process. -/
def Completes (s : Server) (e : Event) : Prop :=
  ∃ s' out, step s e = .ok (s', out) ∧ Opened s out

/-- The transition function: a possible event that completes. -/
def trans (s : Server) (e : Event) : Option (Server × List Sent) :=
  if Possible s e then
    match step s e with
    | .ok r => if Opened s r.2 then some r else none
    | .error _ => none
  else none

/-- Static storage is zero; the receive buffer is a local array with any contents. -/
def zeroPlayer : Player := ⟨0, CString.empty, 0, 0⟩

def zeroGame : Game := ⟨fun _ => 0, 0, 0, fun _ => zeroPlayer, false, 0⟩

def initial (buffer : Buffer) : Server where
  clients := fun _ => ⟨0, CString.empty, 0, CString.empty⟩
  nbClients := 0
  rooms := fun _ => ⟨0, zeroGame⟩
  nbRooms := 0
  buffer := buffer

def Initial (s : Server) : Prop := ∃ buffer, s = initial buffer

/-- The states a server reaches by steps that all meet `C`. -/
abbrev Reachable (C : Server → Event → Prop) : Server → Prop :=
  GuardedRun.Reachable trans C Initial

/-! ## What the search loops find -/

/-- A room in use. -/
def Live (s : Server) (i : Nat) : Prop := (i : Int) < s.nbRooms

instance (s : Server) (i : Nat) : Decidable (Live s i) :=
  inferInstanceAs (Decidable ((i : Int) < s.nbRooms))

/-- The loops run over the live rooms. -/
theorem live_iff {s : Server} {i : Nat} : Live s i ↔ i < s.nbRooms.toNat := by
  show (i : Int) < s.nbRooms ↔ i < s.nbRooms.toNat
  omega

theorem live_congr {s s' : Server} (hnb : s'.nbRooms = s.nbRooms) (i : Nat) :
    Live s' i ↔ Live s i := by
  rw [live_iff, live_iff, hnb]

theorem not_live_end (s : Server) : ¬ Live s s.nbRooms.toNat :=
  fun h => Nat.lt_irrefl _ (live_iff.mp h)

theorem not_live_of_le {s : Server} (hnb : s.nbRooms ≤ 0) (i : Nat) : ¬ Live s i := by
  rw [live_iff]
  omega

/-- The rooms in front of a new one. -/
theorem live_of_lt_succ {s : Server} {i : Nat} (hi : (i : Int) < s.nbRooms + 1)
    (hne : i ≠ s.nbRooms.toNat) : Live s i := by
  rw [live_iff]
  omega

/-- The rooms behind a deleted one move up. -/
theorem live_deleteRoom {s : Server} {i k : Nat} (hk : Live (deleteRoom s i) k) :
    Live s (SlotArray.skip i k)
      ∧ (deleteRoom s i).rooms k = s.rooms (SlotArray.skip i k) := by
  have hk' : k < (s.nbRooms - 1).toNat := live_iff.mp hk
  have hlt := SlotArray.skip_lt (i := i) hk'
  exact ⟨live_iff.mpr (by omega), SlotArray.shiftDown_skip s.rooms hk'⟩

theorem findRoom_eq_some {s : Server} {r : UInt32} {i : Nat} :
    findRoom s r = some i
      ↔ Live s i ∧ (s.rooms i).id = r ∧ ∀ k < i, (s.rooms k).id ≠ r := by
  rw [live_iff]
  exact SlotArray.search_eq_some

theorem findRoom_eq_none {s : Server} {r : UInt32} :
    findRoom s r = none ↔ ∀ i, Live s i → (s.rooms i).id ≠ r := by
  simp only [live_iff]
  exact SlotArray.search_eq_none

theorem findPlayer_eq_some {game : Game} {sock : Int} {j : Nat} :
    findPlayer game sock = some j
      ↔ j < game.nbPlayers ∧ (game.players j).id = sock
        ∧ ∀ k < j, (game.players k).id ≠ sock :=
  SlotArray.search_eq_some

theorem findPlayer_eq_none {game : Game} {sock : Int} :
    findPlayer game sock = none ↔ ∀ j < game.nbPlayers, (game.players j).id ≠ sock :=
  SlotArray.search_eq_none

/-- The search looks at the ids of the seats taken only. -/
theorem findPlayer_congr {g h : Game} (hn : g.nbPlayers = h.nbPlayers)
    (hid : ∀ j < h.nbPlayers, (g.players j).id = (h.players j).id) (sock : Int) :
    findPlayer g sock = findPlayer h sock := by
  simp only [findPlayer]
  rw [hn]
  refine List.find?_congr ?_
  intro j hj
  rw [hid j (List.mem_range.mp hj)]

theorem findSpectator_eq_some {game : Game} {sock : Int} {j : Nat} :
    findSpectator game sock = some j
      ↔ j < game.nbSpectators ∧ (game.players (j + 2)).id = sock
        ∧ ∀ k < j, (game.players (k + 2)).id ≠ sock :=
  SlotArray.search_eq_some

theorem findSpectator_eq_none {game : Game} {sock : Int} :
    findSpectator game sock = none
      ↔ ∀ j < game.nbSpectators, (game.players (j + 2)).id ≠ sock :=
  SlotArray.search_eq_none

/-- The seat a reconnection takes is a seat of a live room that stores the name. -/
theorem findSeat_some {s : Server} {name : CString} {i j : Nat}
    (h : findSeat s name = some (i, j)) :
    Live s i ∧ j < (s.rooms i).game.nbPlayers
      ∧ ((s.rooms i).game.players j).name = name := by
  obtain ⟨i', hi', hf⟩ := List.exists_of_findSome?_eq_some h
  obtain ⟨j', hj', hp⟩ := Option.map_eq_some_iff.mp hf
  obtain ⟨rfl, rfl⟩ := Prod.mk.inj hp
  obtain ⟨hmem, hname, -⟩ := SlotArray.search_eq_some.mp hj'
  exact ⟨live_iff.mpr (List.mem_range.mp hi'), hmem, hname.symm⟩

theorem findSeat_none {s : Server} {name : CString} (h : findSeat s name = none) {i j : Nat}
    (hi : Live s i) (hj : j < (s.rooms i).game.nbPlayers) :
    ((s.rooms i).game.players j).name ≠ name := by
  have hroom := List.findSome?_eq_none_iff.mp h i (List.mem_range.mpr (live_iff.mp hi))
  have hrow := Option.map_eq_none_iff.mp hroom
  exact fun hname => SlotArray.search_eq_none.mp hrow j hj hname.symm

theorem joinRoomFrame_ok {s : Server} {game : Game} {m : ServerMsg}
    (h : joinRoomFrame s game = .ok m) :
    ∃ n k users bios, m = .joinRoomSuccessful n k users bios := by
  simp only [joinRoomFrame] at h
  split_ifs at h
  obtain rfl := Except.ok.inj h
  exact ⟨_, _, _, _, rfl⟩

/-- The frame shows biographies of the client table, and nothing else of the state. -/
theorem joinRoomFrame_clients {s t : Server} (h : s.clients = t.clients) (game : Game) :
    joinRoomFrame s game = joinRoomFrame t game := by
  have hbios : playerBios s game = playerBios t game := by
    simp only [playerBios]
    rw [h]
  simp only [joinRoomFrame]
  rw [hbios]

theorem nameInUse_iff {s : Server} {name : CString} :
    nameInUse s name = true ↔ ∃ i < s.nbClients, (s.clients i).name = name := by
  simp only [nameInUse]
  simp only [List.any_eq_true, List.mem_range, decide_eq_true_eq]

/-- **WHAT A TRANSITION IS.** -/
theorem trans_iff {s s' : Server} {e : Event} {out : List Sent} :
    trans s e = some (s', out) ↔ Possible s e ∧ step s e = .ok (s', out) ∧ Opened s out := by
  simp only [trans]
  by_cases hp : Possible s e
  · rw [if_pos hp]
    cases hs : step s e with
    | error f => exact iff_of_false nofun fun h => nomatch h.2.1
    | ok r =>
        by_cases hopen : Opened s r.2
        · simp only [if_pos hopen, Option.some.injEq, Except.ok.injEq]
          refine ⟨fun h => ⟨hp, h, ?_⟩, fun h => h.2.1⟩
          rw [h] at hopen
          exact hopen
        · simp only [if_neg hopen, Except.ok.injEq]
          exact iff_of_false nofun fun h => hopen (h.2.1 ▸ h.2.2)
  · rw [if_neg hp]
    exact iff_of_false nofun fun h => hp h.1

theorem trans_eq_some {s s' : Server} {e : Event} {out : List Sent}
    (h : trans s e = some (s', out)) : Possible s e ∧ step s e = .ok (s', out) :=
  ⟨(trans_iff.mp h).1, (trans_iff.mp h).2.1⟩

theorem trans_eq {s s' : Server} {e : Event} {out : List Sent} (hp : Possible s e)
    (h : step s e = .ok (s', out)) (hopen : Opened s out) :
    AwaleServer.trans s e = some (s', out) := trans_iff.mpr ⟨hp, h, hopen⟩

theorem trans_isSome {s : Server} {e : Event} :
    (trans s e).isSome ↔ Possible s e ∧ Completes s e := by
  rw [Option.isSome_iff_exists]
  constructor
  · rintro ⟨⟨s', out⟩, ht⟩
    obtain ⟨hp, hs, hopen⟩ := trans_iff.mp ht
    exact ⟨hp, s', out, hs, hopen⟩
  · rintro ⟨hp, s', out, hs, hopen⟩
    exact ⟨_, trans_eq hp hs hopen⟩

/-- A client of the table has an open connection. -/
theorem open_own {s : Server} {c : Nat} (hc : c < s.nbClients) : Open s (s.clients c).sock :=
  ⟨c, hc, rfl⟩

theorem opened_own {s : Server} {c : Nat} (hc : c < s.nbClients) (m : ServerMsg) :
    Opened s (writeClient (s.clients c).sock m) := sentTo_writeClient (Or.inr (open_own hc))

theorem opened_nil (s : Server) : Opened s [] := sentTo_nil

/-- Who is connected is all that matters. -/
theorem opened_congr {s t : Server} (h : ∀ x, Open s x ↔ Open t x) (out : List Sent) :
    Opened s out ↔ Opened t out :=
  forall_congr' fun f => imp_congr_right fun _ => h f.1

end AwaleServer
