import AwaleOnline.AwaleClosingProofs
import AwaleOnline.AwaleCodecProofs

/-!
# The size of a frame

A handler builds its frames in a buffer of `BUF_SIZE` bytes.  The encoders count what they store
in a `uint16_t` and copy every string whole.

* **`encode_size`** — an encoder returns the number of bytes it stores, cut to sixteen bits;
* **`built`** — the frames a handler builds, whether they are sent or not;
* **`frames_fit`** — in every reachable state, they fit the buffer just when the strings that
  the request brings together are short enough (`Short`).
-/

namespace AwaleFrames

open AwaleGame AwaleProtocol AwaleServer AwaleEffect AwaleBounds AwaleClosing
  AwaleCodec AwaleMembership AwaleStanding ByteBuffer

variable {s s' : Server} {c i : Nat} {rand : UInt32} {q : Request} {m : ServerMsg} {game : Game}
  {out : List Sent}

/-! ## What an encoder returns -/

/-- The encoder of each message. -/
def encode (buf : ByteBuffer) : ServerMsg → ByteBuffer × Nat
  | .connectionSuccessful => writeConnectionSuccessful buf
  | .connectionRefused errorMessage => writeConnectionRefused buf errorMessage
  | .roomCreationSuccessful roomId => writeRoomCreationSuccessful buf roomId
  | .roomCreationRefused errorMessage => writeRoomCreationRefused buf errorMessage
  | .joinRoomSuccessful nbUsers nbSpectators users bios =>
      AwaleCodec.writeJoinRoomSuccessful (entries users) nbUsers nbSpectators (entries bios) buf
  | .joinRoomRefused errorMessage => writeJoinRoomRefused buf errorMessage
  | .played sScore oScore board =>
      let size : UInt16 := 12 + 3
      let buf := writeHeader buf size ServerClientProtocol.played.code
      let buf := (buf.storeByte 3 sScore).storeByte 4 oScore
      (buf.storeBytes 5 board, size.toNat + 2)
  | .gameStart side => writeGameStart buf side
  | .playerJoinedRoom username => writePlayerJoinedRoom buf username
  | .spectatorJoinedRoom username => writeSpectatorJoinedRoom buf username
  | .gameStopped draw winner => writeGameStopped buf (if draw then 1 else 0) winner
  | .message username message => writeSendMessageToRoom buf username message
  | .invalidPlay errorMessage => writeInvalidPlay buf errorMessage

theorem encode_played (buf : ByteBuffer) (side : Nat) (game : Game) :
    encode buf (AwaleProtocol.writePlayed side game) = AwaleCodec.writePlayed buf side game := by
  simp only [encode, AwaleProtocol.writePlayed, AwaleCodec.writePlayed, foldl_storeByte]

/-- The arrays an encoder is given are as long as the counts say. -/
def Counted : ServerMsg → Prop
  | .joinRoomSuccessful nbUsers nbSpectators users bios =>
      users.length = nbUsers.toNat + nbSpectators.toNat ∧ bios.length = nbUsers.toNat
  | .played _ _ board => board.length = boardSize
  | _ => True

section Join

variable (users bios : Nat → CString) (nbUsers : UInt8)

/-- What one turn of the loop adds to `size`. -/
theorem writeUser_size (st : ByteBuffer × UInt16) (i : Nat) :
    (writeUser users nbUsers bios st i).2
      = st.2 + UInt16.ofNat (userBytes users nbUsers bios i).length := by
  by_cases hi : i < nbUsers.toNat
  · simp [writeUser, userBytes, hi, UInt16.ofNat_add, UInt16.add_assoc]
  · simp [writeUser, userBytes, hi]

theorem foldl_writeUser_size (is : List Nat) : ∀ st : ByteBuffer × UInt16,
    (is.foldl (writeUser users nbUsers bios) st).2
      = st.2 + UInt16.ofNat (is.flatMap (userBytes users nbUsers bios)).length := by
  induction is with
  | nil =>
      intro st
      exact (UInt16.add_zero st.2).symm
  | cons i is ih =>
      intro st
      rw [List.foldl_cons, ih, writeUser_size, List.flatMap_cons, List.length_append,
        UInt16.ofNat_add, UInt16.add_assoc]

end Join

/-- The bytes that some strings take, with their NULs. -/
def bytesOf (l : List CString) : Nat := (l.map fun str => str.strlen + 1).sum

theorem bytesOf_append (l l' : List CString) : bytesOf (l ++ l') = bytesOf l + bytesOf l' := by
  rw [bytesOf, List.map_append, List.sum_append]
  rfl

theorem flatMap_stringBytes_length (l : List CString) :
    (l.flatMap stringBytes).length = bytesOf l := by
  simp [bytesOf, List.length_flatMap]

/-- The loop of JOIN_ROOM_SUCCESSFUL stores each of its strings once. -/
theorem userBytes_length {nbUsers nbSpectators : UInt8} {users bios : List CString}
    (h : Counted (.joinRoomSuccessful nbUsers nbSpectators users bios)) :
    ((List.range (nbUsers.toNat + nbSpectators.toNat)).flatMap
      (userBytes (entries users) nbUsers (entries bios))).length = bytesOf (users ++ bios) := by
  obtain ⟨husers, hbios⟩ := h
  -- the names of the players, each with its biography, and the names behind them
  have htake : (users.take nbUsers.toNat).length = bios.length := by
    rw [List.length_take]
    omega
  have hfst : ((users.take nbUsers.toNat).zip bios).map Prod.fst = users.take nbUsers.toNat :=
    List.map_fst_zip (Nat.le_of_eq htake)
  have hsnd : ((users.take nbUsers.toNat).zip bios).map Prod.snd = bios :=
    List.map_snd_zip (Nat.le_of_eq htake.symm)
  have hlen : ((users.take nbUsers.toNat).zip bios).length = nbUsers.toNat := by
    rw [List.length_zip, htake, Nat.min_self, hbios]
  have hall := userBytes_entries ((users.take nbUsers.toNat).zip bios)
    (users.drop nbUsers.toNat) hlen.symm
  rw [hfst, hsnd, List.take_append_drop, hlen] at hall
  have hdrop : (users.drop nbUsers.toNat).length = nbSpectators.toNat := by
    rw [List.length_drop]
    omega
  rw [hdrop] at hall
  have hsplit : bytesOf users
      = bytesOf (users.take nbUsers.toNat) + bytesOf (users.drop nbUsers.toNat) := by
    rw [← bytesOf_append, List.take_append_drop]
  rw [hall, List.length_append, playerBytes_length, hfst, hsnd, flatMap_stringBytes_length,
    bytesOf_append, hsplit]
  simp only [bytesOf]
  omega

/-- **AN ENCODER RETURNS** the bytes of its frame, cut to sixteen bits. -/
theorem encode_size (buf : ByteBuffer) (h : Counted m) :
    (encode buf m).2 = (m.size - 2) % 65536 + 2 := by
  have hstring : ∀ (type : UInt8) (str : CString),
      (writeString type buf str).2 = (str.strlen + 4 - 2) % 65536 + 2 := by
    intro type str
    simp [writeString]
  cases m with
  | connectionSuccessful => rfl
  | connectionRefused errorMessage => exact hstring _ errorMessage
  | roomCreationSuccessful roomId => rfl
  | roomCreationRefused errorMessage => exact hstring _ errorMessage
  | joinRoomSuccessful nbUsers nbSpectators users bios =>
      simp only [encode, AwaleCodec.writeJoinRoomSuccessful, foldl_writeUser_size,
        userBytes_length h, ServerMsg.size, bytesOf]
      rw [UInt16.toNat_add, UInt16.toNat_ofNat']
      simp only [UInt16.reduceToNat]
      omega
  | joinRoomRefused errorMessage => exact hstring _ errorMessage
  | played sScore oScore board =>
      have hboard : board.length = boardSize := h
      simp [encode, ServerMsg.size, hboard, boardSize]
  | gameStart side => rfl
  | playerJoinedRoom username => exact hstring _ username
  | spectatorJoinedRoom username => exact hstring _ username
  | gameStopped draw winner =>
      cases draw with
      | true => rfl
      | false =>
          simp only [encode, writeGameStopped, ServerMsg.size, Bool.false_eq_true, if_false,
            if_true, UInt16.toNat_add, UInt16.toNat_ofNat']
          simp only [UInt16.reduceToNat]
          omega
  | message username message =>
      simp only [encode, writeSendMessageToRoom, ServerMsg.size, UInt16.toNat_ofNat']
      omega
  | invalidPlay errorMessage => exact hstring _ errorMessage

/-- **A FRAME FITS**: the encoder returns no more than the buffer holds, and its `uint16_t` has
    not wrapped. -/
def Fits (m : ServerMsg) : Prop :=
  ∀ buf : ByteBuffer, (encode buf m).2 ≤ bufSize ∧ (encode buf m).2 = m.size

theorem size_ge (m : ServerMsg) : 2 ≤ m.size := by
  cases m with
  | gameStopped draw winner =>
      simp only [ServerMsg.size]
      split <;> omega
  | _ =>
      simp only [ServerMsg.size]
      omega

theorem fits_iff (h : Counted m) : Fits m ↔ m.size ≤ bufSize := by
  constructor
  · intro hfits
    obtain ⟨hle, heq⟩ := hfits fun _ => 0
    exact heq ▸ hle
  · intro hle buf
    have hge := size_ge m
    have hsize : bufSize = 1024 := rfl
    have hmod : (m.size - 2) % 65536 = m.size - 2 := Nat.mod_eq_of_lt (by omega)
    rw [encode_size buf h, hmod]
    omega

theorem Fits.of_size (h : Counted m) (hle : m.size ≤ bufSize) : Fits m := (fits_iff h).mpr hle

/-! ## The frames a handler builds -/

/-- The JOIN_ROOM_SUCCESSFUL frame of a game. -/
def joinMsg (s : Server) (game : Game) : ServerMsg :=
  AwaleProtocol.writeJoinRoomSuccessful (playerNames game) game.nbPlayers game.nbSpectators
    (playerBios s game)

def builtConnect (s : Server) (c : Nat) (name : CString) : List ServerMsg :=
  if nameInUse s name then [.connectionRefused (literal "Error: Name already in use.")]
  else
    match findSeat s name with
    | some (i, j) =>
        let game := setPlayerId (s.rooms i).game j (s.clients c).sock
        if game.isStarted = false then [joinMsg (reseated s c name i j) game]
        else if game.turn = j then [AwaleProtocol.writePlayed j game]
        else [.gameStart 1]
    | none => [.connectionSuccessful]

def builtJoinRoom (s : Server) (c : Nat) (roomId : UInt32) (spectate : UInt8) : List ServerMsg :=
  match findRoom s roomId with
  | none => [.joinRoomRefused (literal "Error: Room not found.")]
  | some i =>
      if (spectate = 0 ∧ (s.rooms i).game.nbPlayers ≥ 2)
          ∨ (s.rooms i).game.nbPlayers ≥ maxGamePlayers then
        [.joinRoomRefused (literal "Error: The room is full. Try to spectate instead.")]
      else if addIndex (s.rooms i).game (spectate ≠ 0) ≥ maxGamePlayers then []
      else
        let game := joinedGame s c i spectate
        joinMsg (joined s c i roomId spectate) game ::
          if game.nbPlayers ≥ 2 ∧ game.isStarted = false then
            (List.range game.nbPlayers).map fun j => .gameStart (UInt8.ofNat j)
          else []

/-- The views of the board, or the refusal. -/
def builtReplies (r : Game × PlayResult) : List ServerMsg :=
  if r.2 = .validPlay then
    ((List.range r.1.nbPlayers).map fun j => AwaleProtocol.writePlayed j r.1)
      ++ (List.range r.1.nbSpectators).map fun _ => AwaleProtocol.writePlayed 0 r.1
  else [.invalidPlay (invalidPlayText r.2)]

def builtPlay (s : Server) (c : Nat) (pos : UInt8) : List ServerMsg :=
  match findRoom s (s.clients c).roomId with
  | none => []
  | some i =>
      let r := playIn s c i pos
      let gs := gameIsEnded r.1
      builtReplies r
        ++ if gs ≠ .notEnded then [.gameStopped (gs = .draw) (winnerName r.1 gs)] else []

def builtLeaveRoom (s : Server) (c : Nat) : List ServerMsg :=
  let game := (s.rooms (targetRoom s (s.clients c).roomId)).game
  if (findPlayer game (s.clients c).sock).isSome then [.gameStopped true CString.empty] else []

/-- The frames the handler of a request builds, in order, sent or not. -/
def built (s : Server) (c : Nat) (rand : UInt32) : Request → List ServerMsg
  | .connect name => builtConnect s c name
  | .createRoom => [.roomCreationSuccessful rand]
  | .joinRoom roomId spectate => builtJoinRoom s c roomId spectate
  | .play pos => builtPlay s c pos
  | .leaveRoom => builtLeaveRoom s c
  | .sendMessage message => [.message (s.clients c).name message]
  | .setBiography _ => []

/-! ## What a JOIN_ROOM_SUCCESSFUL frame brings together -/

/-- A string of each player. -/
def ofSeats (f : Player → CString) (game : Game) : List CString :=
  (List.range game.nbPlayers).map fun j => f (game.players j)

/-- A string of each spectator. -/
def ofSpectators (f : Player → CString) (game : Game) : List CString :=
  (List.range game.nbSpectators).map fun j => f (game.players (2 + j))

def seatNames (game : Game) : List CString := ofSeats Player.name game

def spectatorNames (game : Game) : List CString := ofSpectators Player.name game

/-- The bytes of the strings shown: the players' names and biographies, and as many of the
    spectators as the `uint8_t` counts. -/
def shownBytes (s : Server) (game : Game) : Nat :=
  bytesOf (seatNames game) + bytesOf (playerBios s game)
    + bytesOf ((spectatorNames game).take (game.nbSpectators % 256))

theorem seats_toNat (hseats : game.nbPlayers ≤ 2) :
    (UInt8.ofNat game.nbPlayers).toNat = game.nbPlayers :=
  UInt8.toNat_ofNat_of_lt' (Nat.lt_of_le_of_lt hseats (by decide))

/-- The strings of the frame. -/
theorem joinMsg_eq (hseats : game.nbPlayers ≤ 2) :
    joinMsg s game = .joinRoomSuccessful (UInt8.ofNat game.nbPlayers)
      (UInt8.ofNat game.nbSpectators)
      (seatNames game ++ (spectatorNames game).take (game.nbSpectators % 256))
      (playerBios s game) := by
  have hu := seats_toNat hseats
  have hs : (UInt8.ofNat game.nbSpectators).toNat = game.nbSpectators % 256 :=
    UInt8.toNat_ofNat'
  have hlen : (seatNames game).length = game.nbPlayers := by simp [seatNames, ofSeats]
  have hbios : (playerBios s game).length = game.nbPlayers := by simp [playerBios]
  have hnames : (playerNames game).take (game.nbPlayers + game.nbSpectators % 256)
      = seatNames game ++ (spectatorNames game).take (game.nbSpectators % 256) := by
    rw [← hlen]
    exact List.take_length_add_append _
  simp only [joinMsg, AwaleProtocol.writeJoinRoomSuccessful]
  rw [hu, hs, hnames, ← hbios, List.take_length]

theorem joinMsg_counted (hseats : game.nbPlayers ≤ 2) : Counted (joinMsg s game) := by
  have hu := seats_toNat hseats
  have hle : game.nbSpectators % 256 ≤ game.nbSpectators := Nat.mod_le _ _
  rw [joinMsg_eq hseats]
  refine ⟨?_, ?_⟩
  · simp [hu, seatNames, spectatorNames, ofSeats, ofSpectators, hle]
  · simp [hu, playerBios]

theorem joinMsg_size (hseats : game.nbPlayers ≤ 2) :
    (joinMsg s game).size = shownBytes s game + 5 := by
  rw [joinMsg_eq hseats]
  show bytesOf _ + 5 = _
  rw [bytesOf_append, bytesOf_append, shownBytes]
  omega

theorem joinMsg_fits (hseats : game.nbPlayers ≤ 2) :
    Fits (joinMsg s game) ↔ shownBytes s game + 5 ≤ bufSize := by
  rw [fits_iff (joinMsg_counted hseats), joinMsg_size hseats]

section Join

variable (f : Player → CString) (player : Player)

/-- A player that is added comes behind the ones seated. -/
theorem ofSeats_player :
    ofSeats f (gameAddPlayer game player false)
      = ofSeats f game ++ [f { player with captured := 0 }] := by
  show (List.range (game.nbPlayers + 1)).map _ = _
  rw [List.range_succ, List.map_append, List.map_singleton]
  congr 1
  · refine List.map_congr_left fun j hj => ?_
    rw [gameAddPlayer_of_ne (Nat.ne_of_lt (List.mem_range.mp hj))]
  · exact congrArg (fun p => [f p]) (gameAddPlayer_self game player false)

theorem ofSpectators_player (htwo : game.nbPlayers < 2) :
    ofSpectators f (gameAddPlayer game player false) = ofSpectators f game := by
  refine List.map_congr_left fun j _ => ?_
  have hne : 2 + j ≠ addIndex game false := by
    show 2 + j ≠ game.nbPlayers
    omega
  rw [gameAddPlayer_of_ne hne]

theorem ofSeats_spectator (hseats : game.nbPlayers ≤ 2) :
    ofSeats f (gameAddPlayer game player true) = ofSeats f game := by
  refine List.map_congr_left fun j hj => ?_
  have hj' : j < game.nbPlayers := List.mem_range.mp hj
  have hne : j ≠ addIndex game true := by
    show j ≠ 2 + game.nbSpectators
    omega
  rw [gameAddPlayer_of_ne hne]

/-- A spectator that is added comes behind the others. -/
theorem ofSpectators_spectator :
    ofSpectators f (gameAddPlayer game player true)
      = ofSpectators f game ++ [f { player with captured := 0 }] := by
  show (List.range (game.nbSpectators + 1)).map _ = _
  rw [List.range_succ, List.map_append, List.map_singleton]
  congr 1
  · refine List.map_congr_left fun j hj => ?_
    have hj' : j < game.nbSpectators := List.mem_range.mp hj
    have hne : 2 + j ≠ addIndex game true := by
      show 2 + j ≠ 2 + game.nbSpectators
      omega
    rw [gameAddPlayer_of_ne hne]
  · exact congrArg (fun p => [f p]) (gameAddPlayer_self game player true)

end Join

/-- A join leaves the biographies alone. -/
theorem playerBios_joined (roomId : UInt32) (spectate : UInt8) (game : Game) :
    playerBios (joined s c i roomId spectate) game = playerBios s game := by
  have hbio : ∀ a, ((joined s c i roomId spectate).clients a).biography
      = (s.clients a).biography := by
    intro a
    refine setClient_field Client.biography ?_ a
    rfl
  exact List.map_congr_left fun _ _ => hbio _

/-- A player that joins is shown behind the ones seated. -/
theorem shownBytes_player (htwo : (s.rooms i).game.nbPlayers < 2) (roomId : UInt32) :
    shownBytes (joined s c i roomId 0) (joinedGame s c i 0)
      = shownBytes s (s.rooms i).game
        + ((s.clients c).name.strlen + 1 + ((s.clients c).biography.strlen + 1)) := by
  have hnames : seatNames (joinedGame s c i 0)
      = seatNames (s.rooms i).game ++ [(s.clients c).name] := ofSeats_player ..
  have hbios : playerBios s (joinedGame s c i 0)
      = playerBios s (s.rooms i).game ++ [(s.clients c).biography] :=
    ofSeats_player (fun p => (s.clients p.clientIndex).biography) _
  have hspectators : spectatorNames (joinedGame s c i 0) = spectatorNames (s.rooms i).game :=
    ofSpectators_player _ _ htwo
  have hcount : (joinedGame s c i 0).nbSpectators = (s.rooms i).game.nbSpectators := rfl
  simp only [shownBytes, playerBios_joined]
  rw [hnames, hbios, hspectators, hcount, bytesOf_append, bytesOf_append]
  simp only [bytesOf, List.map_cons, List.map_nil, List.sum_cons, List.sum_nil]
  omega

/-- A spectator that joins is shown behind the others, when the count is large enough. -/
theorem shownBytes_spectator {spectate : UInt8} (hsp : spectate ≠ 0)
    (hseats : (s.rooms i).game.nbPlayers ≤ 2) (roomId : UInt32) :
    shownBytes (joined s c i roomId spectate) (joinedGame s c i spectate)
      = bytesOf (seatNames (s.rooms i).game) + bytesOf (playerBios s (s.rooms i).game)
        + bytesOf ((spectatorNames (s.rooms i).game ++ [(s.clients c).name]).take
          (((s.rooms i).game.nbSpectators + 1) % 256)) := by
  have hgame : joinedGame s c i spectate
      = gameAddPlayer (s.rooms i).game (newPlayer s c) true := by
    rw [joinedGame, decide_eq_true hsp]
  have hnames : seatNames (gameAddPlayer (s.rooms i).game (newPlayer s c) true)
      = seatNames (s.rooms i).game := ofSeats_spectator _ _ hseats
  have hbios : playerBios s (gameAddPlayer (s.rooms i).game (newPlayer s c) true)
      = playerBios s (s.rooms i).game :=
    ofSeats_spectator (fun p => (s.clients p.clientIndex).biography) _ hseats
  have hspectators : spectatorNames (gameAddPlayer (s.rooms i).game (newPlayer s c) true)
      = spectatorNames (s.rooms i).game ++ [(s.clients c).name] := ofSpectators_spectator ..
  have hcount : (gameAddPlayer (s.rooms i).game (newPlayer s c) true).nbSpectators
      = (s.rooms i).game.nbSpectators + 1 := rfl
  simp only [shownBytes, playerBios_joined]
  rw [hgame, hnames, hbios, hspectators, hcount]

theorem ofSeats_setPlayerId {f : Player → CString} (hf : ∀ p x, f { p with id := x } = f p)
    (j : Nat) (x : Int) : ofSeats f (setPlayerId game j x) = ofSeats f game := by
  refine List.map_congr_left fun e _ => ?_
  by_cases he : e = j
  · rw [he, setPlayerId_self, hf]
  · rw [setPlayerId_of_ne he]

/-- A player that comes back is shown as before. -/
theorem shownBytes_reseated (name : CString) (j : Nat) :
    shownBytes (reseated s c name i j) (setPlayerId (s.rooms i).game j (s.clients c).sock)
      = shownBytes s (s.rooms i).game := by
  have hbio : ∀ a, ((reseated s c name i j).clients a).biography
      = (s.clients a).biography := by
    intro a
    refine (setClient_field Client.biography ?_ a).trans (setClient_field Client.biography ?_ a)
    · rfl
    · rfl
  have hbios : ∀ game, playerBios (reseated s c name i j) game = playerBios s game :=
    fun _ => List.map_congr_left fun _ _ => hbio _
  have hnames : seatNames (setPlayerId (s.rooms i).game j (s.clients c).sock)
      = seatNames (s.rooms i).game := ofSeats_setPlayerId (fun _ _ => rfl) j _
  have hseatBios : playerBios s (setPlayerId (s.rooms i).game j (s.clients c).sock)
      = playerBios s (s.rooms i).game :=
    ofSeats_setPlayerId (f := fun p => (s.clients p.clientIndex).biography) (fun _ _ => rfl) j _
  have hspectators : spectatorNames (setPlayerId (s.rooms i).game j (s.clients c).sock)
      = spectatorNames (s.rooms i).game :=
    List.map_congr_left fun e _ => setPlayerId_name _ j _ (2 + e)
  have hcount : (setPlayerId (s.rooms i).game j (s.clients c).sock).nbSpectators
      = (s.rooms i).game.nbSpectators := rfl
  simp only [shownBytes]
  rw [hbios, hnames, hseatBios, hspectators, hcount]

/-! ## The condition -/

/-- The bytes of the strings shown to a client that joins a room. -/
def joinBytes (s : Server) (c : Nat) (game : Game) (spectate : UInt8) : Nat :=
  if spectate = 0 then
    shownBytes s game + ((s.clients c).name.strlen + 1 + ((s.clients c).biography.strlen + 1))
  else
    bytesOf (seatNames game) + bytesOf (playerBios s game)
      + bytesOf ((spectatorNames game ++ [(s.clients c).name]).take ((game.nbSpectators + 1) % 256))

/-- The strings that the frames of a request bring together leave room for the other bytes. -/
def Short (s : Server) (c : Nat) : Request → Prop
  | .connect name => nameInUse s name = false → ∀ p ∈ findSeat s name,
      (s.rooms p.1).game.isStarted = false → shownBytes s (s.rooms p.1).game + 5 ≤ bufSize
  | .joinRoom roomId spectate => ∀ i ∈ findRoom s roomId, JoinOpen (s.rooms i).game spectate →
      joinBytes s c (s.rooms i).game spectate + 5 ≤ bufSize
  | .play pos => ∀ i ∈ findRoom s (s.clients c).roomId,
      (winnerName (s.rooms i).game (gameIsEnded (playIn s c i pos).1)).strlen + 5 ≤ bufSize
  | .sendMessage message => (s.clients c).name.strlen + message.strlen + 5 ≤ bufSize
  | _ => True

instance (s : Server) (c : Nat) (q : Request) : Decidable (Short s c q) := by
  refine q.casesOn ?_ ?_ ?_ ?_ ?_ ?_ ?_ <;> intros <;> dsimp only [Short] <;> infer_instance

theorem shownBytes_joined {spectate : UInt8} (hseats : (s.rooms i).game.nbPlayers ≤ 2)
    (hopen : JoinOpen (s.rooms i).game spectate) (roomId : UInt32) :
    shownBytes (joined s c i roomId spectate) (joinedGame s c i spectate)
      = joinBytes s c (s.rooms i).game spectate := by
  by_cases hsp : spectate = 0
  · subst hsp
    have htwo : (s.rooms i).game.nbPlayers < 2 := by
      by_contra hge
      exact hopen.1 (Or.inl ⟨rfl, Nat.le_of_not_lt hge⟩)
    rw [shownBytes_player htwo, joinBytes, if_pos rfl]
  · rw [shownBytes_spectator hsp hseats, joinBytes, if_neg hsp]

/-! ## The frames of each handler -/

theorem played_fits (side : Nat) (game : Game) : Fits (AwaleProtocol.writePlayed side game) := by
  refine Fits.of_size ?_ ?_
  · simp [Counted, AwaleProtocol.writePlayed]
  · simp [ServerMsg.size, AwaleProtocol.writePlayed, boardSize, bufSize]

theorem builtConnect_fit (hseats : ∀ k, (s.rooms k).game.nbPlayers ≤ 2) (name : CString) :
    (∀ m ∈ builtConnect s c name, Fits m) ↔ Short s c (.connect name) := by
  by_cases huse : nameInUse s name = true
  · rw [builtConnect, if_pos huse]
    refine iff_of_true (List.forall_mem_singleton.mpr ?_) fun hfree => ?_
    · exact Fits.of_size trivial (by decide)
    · rw [huse] at hfree
      cases hfree
  rw [builtConnect, if_neg huse]
  cases hseat : findSeat s name with
  | none =>
      refine iff_of_true (List.forall_mem_singleton.mpr ?_) fun _ p hp => ?_
      · exact Fits.of_size trivial (by decide)
      · rw [hseat] at hp
        cases hp
  | some p =>
      obtain ⟨i, j⟩ := p
      have hshort : Short s c (.connect name) ↔ ((s.rooms i).game.isStarted = false →
          shownBytes s (s.rooms i).game + 5 ≤ bufSize) := by
        simp [Short, huse, hseat]
      rw [hshort]
      show (∀ m ∈ if (s.rooms i).game.isStarted = false then _ else _, Fits m) ↔ _
      by_cases hstart : (s.rooms i).game.isStarted = false
      · have htwo : (setPlayerId (s.rooms i).game j (s.clients c).sock).nbPlayers ≤ 2 := hseats i
        rw [if_pos hstart, List.forall_mem_singleton, joinMsg_fits htwo, shownBytes_reseated,
          imp_iff_right hstart]
      · rw [if_neg hstart]
        refine iff_of_true ?_ fun h => absurd h hstart
        split
        · exact List.forall_mem_singleton.mpr (played_fits _ _)
        · exact List.forall_mem_singleton.mpr (Fits.of_size trivial (by decide))

theorem builtJoinRoom_fit (hseats : ∀ k, (s.rooms k).game.nbPlayers ≤ 2)
    (hjoined : ∀ i spectate, JoinOpen (s.rooms i).game spectate →
      (joinedGame s c i spectate).nbPlayers ≤ 2) (roomId : UInt32) (spectate : UInt8) :
    (∀ m ∈ builtJoinRoom s c roomId spectate, Fits m)
      ↔ Short s c (.joinRoom roomId spectate) := by
  simp only [builtJoinRoom]
  cases hfind : findRoom s roomId with
  | none =>
      refine iff_of_true (List.forall_mem_singleton.mpr ?_) fun i hi => ?_
      · exact Fits.of_size trivial (by decide)
      · rw [hfind] at hi
        cases hi
  | some i =>
      have hshort : Short s c (.joinRoom roomId spectate) ↔
          (JoinOpen (s.rooms i).game spectate →
            joinBytes s c (s.rooms i).game spectate + 5 ≤ bufSize) := by
        simp [Short, hfind]
      rw [hshort]
      dsimp only
      split
      · rename_i hfull
        refine iff_of_true (List.forall_mem_singleton.mpr ?_) fun hopen => absurd hfull hopen.1
        exact Fits.of_size trivial (by decide)
      rename_i hfull
      split
      · rename_i hidx
        exact iff_of_true (List.forall_mem_nil _) fun hopen =>
          absurd hopen.2 (Nat.not_lt.mpr hidx)
      rename_i hidx
      have hopen : JoinOpen (s.rooms i).game spectate := ⟨hfull, Nat.lt_of_not_le hidx⟩
      rw [imp_iff_right hopen, List.forall_mem_cons, joinMsg_fits (hjoined i spectate hopen),
        shownBytes_joined (hseats i) hopen]
      refine and_iff_left ?_
      split
      · intro m hm
        obtain ⟨j, -, rfl⟩ := List.mem_map.mp hm
        refine Fits.of_size trivial ?_
        show 4 ≤ bufSize
        decide
      · exact List.forall_mem_nil _

theorem builtReplies_fit (r : Game × PlayResult) : ∀ m ∈ builtReplies r, Fits m := by
  intro m hm
  simp only [builtReplies] at hm
  split at hm
  · rcases List.mem_append.mp hm with hm | hm
    · obtain ⟨j, -, rfl⟩ := List.mem_map.mp hm
      exact played_fits j r.1
    · obtain ⟨j, -, rfl⟩ := List.mem_map.mp hm
      exact played_fits 0 r.1
  · obtain rfl := List.mem_singleton.mp hm
    refine Fits.of_size trivial ?_
    cases r.2 <;> decide

theorem builtPlay_fit (pos : UInt8) :
    (∀ m ∈ builtPlay s c pos, Fits m) ↔ Short s c (.play pos) := by
  simp only [builtPlay]
  cases hfind : findRoom s (s.clients c).roomId with
  | none =>
      refine iff_of_true (List.forall_mem_nil _) fun i hi => ?_
      rw [hfind] at hi
      cases hi
  | some i =>
      have hshort : Short s c (.play pos) ↔
          (winnerName (s.rooms i).game (gameIsEnded (playIn s c i pos).1)).strlen + 5
            ≤ bufSize := by
        simp [Short, hfind]
      rw [hshort, List.forall_mem_append, and_iff_right (builtReplies_fit _)]
      split
      · rw [List.forall_mem_singleton, fits_iff (m := .gameStopped _ _) trivial, stopped_fits,
          playIn_winner]
      · rename_i hend
        rw [Decidable.not_not.mp hend]
        refine iff_of_true (List.forall_mem_nil _) ?_
        show CString.empty.strlen + 5 ≤ bufSize
        decide

/-! ## The frames sent -/

/-- The frame of `joinRoomFrame`. -/
theorem joinRoomFrame_msg (h : joinRoomFrame s game = .ok m) : m = joinMsg s game := by
  simp only [joinRoomFrame] at h
  split_ifs at h
  exact (Except.ok.inj h).symm

theorem builtPlay_eq {pos : UInt8} (hfind : findRoom s (s.clients c).roomId = some i) :
    builtPlay s c pos = builtReplies (playIn s c i pos)
      ++ if gameIsEnded (playIn s c i pos).1 ≠ .notEnded then
          [.gameStopped (gameIsEnded (playIn s c i pos).1 = .draw)
            (winnerName (playIn s c i pos).1 (gameIsEnded (playIn s c i pos).1))] else [] := by
  simp only [builtPlay]
  rw [hfind]

theorem builtJoinRoom_eq {roomId : UInt32} {spectate : UInt8} (hfind : findRoom s roomId = some i)
    (hopen : JoinOpen (s.rooms i).game spectate) :
    builtJoinRoom s c roomId spectate
      = joinMsg (joined s c i roomId spectate) (joinedGame s c i spectate) ::
        if (joinedGame s c i spectate).nbPlayers ≥ 2
            ∧ (joinedGame s c i spectate).isStarted = false then
          (List.range (joinedGame s c i spectate).nbPlayers).map fun j =>
            .gameStart (UInt8.ofNat j)
        else [] := by
  simp only [builtJoinRoom]
  rw [hfind]
  dsimp only
  rw [if_neg hopen.1, if_neg (Nat.not_le.mpr hopen.2)]

theorem replies_built {pos : UInt8} {f : Sent} (hf : f ∈ replies s c i pos) :
    f.2 ∈ builtReplies (playIn s c i pos) := by
  by_cases hvalid : (playIn s c i pos).2 = .validPlay
  · rw [replies_valid hvalid] at hf
    rw [builtReplies, if_pos hvalid]
    rcases List.mem_append.mp hf with hf | hf
    · obtain ⟨j, hj, hmem⟩ := List.mem_flatMap.mp hf
      obtain ⟨-, rfl⟩ := mem_writeClient.mp hmem
      exact List.mem_append_left _ (List.mem_map_of_mem hj)
    · obtain ⟨j, hj, hmem⟩ := List.mem_flatMap.mp hf
      obtain ⟨-, rfl⟩ := mem_writeClient.mp hmem
      exact List.mem_append_right _ (List.mem_map.mpr ⟨j, hj, rfl⟩)
  · rw [replies_rejected hvalid] at hf
    obtain ⟨-, rfl⟩ := mem_writeClient.mp hf
    rw [builtReplies, if_neg hvalid]
    exact List.mem_singleton_self _

/-- **EVERY FRAME SENT WAS BUILT.** -/
theorem sent_built (heff : Effect s c rand q s' out) : ∀ f ∈ out, f.2 ∈ built s c rand q := by
  have hanswer : ∀ {x : Int} {m : ServerMsg} {f : Sent}, f ∈ writeClient x m → f.2 = m :=
    fun hf => by rw [(mem_writeClient.mp hf).2]
  have hhead : ∀ {l : List ServerMsg} {x : Int} {m : ServerMsg}, l.head? = some m →
      ∀ f ∈ writeClient x m, f.2 ∈ l := by
    intro l x m hl f hf
    rw [hanswer hf]
    exact List.mem_of_mem_head? hl
  cases heff with
  | @nameRefused name huse =>
      refine hhead ?_
      simp only [built, builtConnect]
      rw [if_pos huse]
      rfl
  | named hfree hseat =>
      refine hhead ?_
      simp [built, builtConnect, hfree, hseat]
  | @resumed name i j m hfree hseat hresume =>
      refine hhead ?_
      simp only [built, builtConnect, hfree, hseat, Bool.false_eq_true, if_false]
      cases hresume with
      | waiting hstart hframe =>
          rw [if_pos hstart, joinRoomFrame_msg hframe]
          rfl
      | toMove hstart hturn =>
          rw [if_neg (by rw [hstart]; decide), if_pos hturn]
          rfl
      | toWait hstart hturn =>
          rw [if_neg (by rw [hstart]; decide), if_neg hturn]
          rfl
  | created _ _ => exact hhead rfl
  | joinNotFound hfind =>
      refine hhead ?_
      simp [built, builtJoinRoom, hfind]
  | joinFull hfind hfull =>
      refine hhead ?_
      simp only [built, builtJoinRoom, hfind]
      rw [if_pos hfull]
      rfl
  | joined hfind hopen hframe _ =>
      refine hhead ?_
      simp only [built]
      rw [builtJoinRoom_eq hfind hopen, joinRoomFrame_msg hframe]
      rfl
  | started hfind hopen hframe hgo =>
      intro f hf
      simp only [built]
      rw [builtJoinRoom_eq hfind hopen, if_pos hgo]
      rcases List.mem_append.mp hf with hf | hf
      · rw [hanswer hf, joinRoomFrame_msg hframe]
        exact List.mem_cons_self
      · obtain ⟨j, hj, hmem⟩ := List.mem_flatMap.mp hf
        rw [hanswer hmem]
        exact List.mem_cons_of_mem _ (List.mem_map_of_mem hj)
  | playedNowhere _ => exact List.forall_mem_nil _
  | played hfind _ =>
      intro f hf
      simp only [built]
      rw [builtPlay_eq hfind]
      exact List.mem_append_left _ (replies_built hf)
  | playedLast hfind hend =>
      intro f hf
      simp only [built]
      rw [builtPlay_eq hfind, if_pos hend]
      rcases List.mem_append.mp hf with hf | hf
      · rcases List.mem_append.mp hf with hf | hf
        · exact List.mem_append_left _ (replies_built hf)
        · rw [hanswer hf]
          exact List.mem_append_right _ (List.mem_singleton_self _)
      · rw [hanswer hf]
        exact List.mem_append_right _ (List.mem_singleton_self _)
  | closed hi _ _ hseat =>
      intro f hf
      obtain ⟨_, -, -, -, -, heq⟩ := mem_leaveFrames hf
      simp only [built, builtLeaveRoom, hi, hseat]
      exact List.mem_singleton.mpr heq
  | unwatched _ _ _ _ _ => exact List.forall_mem_nil _
  | leftNothing _ _ _ _ _ => exact List.forall_mem_nil _
  | messaged _ _ => exact fun f hf => List.mem_singleton.mpr (mem_messageFrames hf)
  | described => exact List.forall_mem_nil _

/-! ## The runs that end -/

/-- `joinRoomFrame` leaves its buffer just when the frame is too large. -/
theorem joinRoomFrame_buffer (hseats : game.nbPlayers ≤ 2)
    (hspec : 2 + game.nbSpectators ≤ maxGamePlayers)
    (hclients : ∀ e, (game.players e).clientIndex < maxClients) :
    joinRoomFrame s game = .error .buffer ↔ ¬ shownBytes s game + 5 ≤ bufSize := by
  have hin := joinRoomFrame_inBounds (s := s) hseats hspec hclients
  rw [← joinMsg_size hseats, Nat.not_le]
  simp only [joinRoomFrame, InBounds] at hin ⊢
  split_ifs at hin ⊢ with htwo hnames hindex hsize
  · exact absurd rfl (hin _ _)
  · exact absurd rfl (hin _ _)
  · exact absurd rfl (hin _ _)
  · exact iff_of_true rfl hsize
  · exact iff_of_false (fun h => by cases h) hsize

theorem ok_ne_buffer {r : Server × List Sent} : (.ok r : Result) ≠ .error .buffer :=
  fun h => by cases h

theorem handleConnect_buffer (hsized : ∀ k, Sized (s.rooms k).game) (name : CString) :
    handleConnect s c name = .error .buffer ↔ ¬ Short s c (.connect name) := by
  by_cases huse : nameInUse s name = true
  · simp only [handleConnect, Short, huse, if_true]
    exact iff_of_false ok_ne_buffer fun h => h fun hfree => by cases hfree
  have hfree : nameInUse s name = false := Bool.eq_false_iff.mpr huse
  cases hseat : findSeat s name with
  | none =>
      have hseat' : findSeat (setClient s c { s.clients c with name := name }) name = none :=
        hseat
      simp only [handleConnect, Short, hfree, hseat, hseat', Bool.false_eq_true, if_false]
      exact iff_of_false ok_ne_buffer fun h => h fun _ p hp => by cases hp
  | some p =>
      obtain ⟨i, j⟩ := p
      have hseat' : findSeat (setClient s c { s.clients c with name := name }) name
          = some (i, j) := hseat
      have hsized' := sized_slotRule.setId _ j (s.clients c).sock (hsized i)
      have hbuffer := joinRoomFrame_buffer (s := reseated s c name i j) hsized'.seats
        hsized'.spectators hsized'.clients
      rw [shownBytes_reseated] at hbuffer
      have hshort : Short s c (.connect name) ↔ ((s.rooms i).game.isStarted = false →
          shownBytes s (s.rooms i).game + 5 ≤ bufSize) := by
        simp [Short, hfree, hseat]
      rw [hshort]
      by_cases hstart : (s.rooms i).game.isStarted = false
      · have hstart' : (setPlayerId (s.rooms i).game j (s.clients c).sock).isStarted = false :=
          hstart
        rw [imp_iff_right hstart, ← hbuffer]
        rw [reseated]
        simp only [handleConnect, hfree, Bool.false_eq_true, if_false, hseat', setClient_rooms,
          hstart', if_true]
        split
        · rename_i f hf
          rw [hf]
          exact ⟨fun h => congrArg _ (Except.error.inj h), fun h => congrArg _ (Except.error.inj h)⟩
        · rename_i frame hf
          rw [hf]
          exact iff_of_false ok_ne_buffer fun h => by cases h
      · have hstart' : (setPlayerId (s.rooms i).game j (s.clients c).sock).isStarted = true :=
          Bool.not_eq_false _ ▸ hstart
        refine iff_of_false ?_ fun h => h fun hf => absurd hf hstart
        by_cases hturn : (setPlayerId (s.rooms i).game j (s.clients c).sock).turn = j
        · rw [handleConnect_resumed hfree hseat (.toMove hstart' hturn)]
          exact ok_ne_buffer
        · rw [handleConnect_resumed hfree hseat (.toWait hstart' hturn)]
          exact ok_ne_buffer

theorem handleJoinRoom_buffer (hsized : ∀ k, Sized (s.rooms k).game) (hc : c < maxClients)
    (roomId : UInt32) (spectate : UInt8) :
    handleJoinRoom s c roomId spectate = .error .buffer
      ↔ ¬ Short s c (.joinRoom roomId spectate) := by
  simp only [handleJoinRoom]
  cases hfind : findRoom s roomId with
  | none =>
      refine iff_of_false ok_ne_buffer fun h => h fun i hi => ?_
      rw [hfind] at hi
      cases hi
  | some i =>
      have hshort : Short s c (.joinRoom roomId spectate) ↔
          (JoinOpen (s.rooms i).game spectate →
            joinBytes s c (s.rooms i).game spectate + 5 ≤ bufSize) := by
        simp [Short, hfind]
      rw [hshort]
      dsimp only
      split
      · rename_i hfull
        exact iff_of_false ok_ne_buffer fun h => h fun hopen => absurd hfull hopen.1
      rename_i hfull
      split
      · rename_i hidx
        refine iff_of_false (fun h => by cases h) fun h => h fun hopen => ?_
        exact absurd hopen.2 (Nat.not_lt.mpr hidx)
      rename_i hidx
      have hopen : JoinOpen (s.rooms i).game spectate := ⟨hfull, Nat.lt_of_not_le hidx⟩
      obtain ⟨h1, h2⟩ : (joinedGame s c i spectate).nbPlayers ≤ 2
          ∧ 2 + (joinedGame s c i spectate).nbSpectators ≤ maxGamePlayers :=
        added_counts (hsized i) (newPlayer s c) hopen
      have hclients : ∀ e, ((joinedGame s c i spectate).players e).clientIndex < maxClients := by
        intro e
        by_cases he : e = addIndex (s.rooms i).game (spectate ≠ 0)
        · rw [he, joinedGame, gameAddPlayer_self]
          exact hc
        · rw [joinedGame, gameAddPlayer_of_ne he]
          exact (hsized i).clients e
      have hbuffer := joinRoomFrame_buffer (s := joined s c i roomId spectate) h1 h2 hclients
      rw [shownBytes_joined (hsized i).seats hopen] at hbuffer
      rw [imp_iff_right hopen, ← hbuffer]
      have hframe : joinRoomFrame
          (setRoomId (setRoom s i (roomAddPlayer (s.rooms i) (newPlayer s c) (spectate ≠ 0))) c
            roomId) (roomAddPlayer (s.rooms i) (newPlayer s c) (spectate ≠ 0)).game
          = joinRoomFrame (joined s c i roomId spectate) (joinedGame s c i spectate) := rfl
      rw [hframe]
      cases hf : joinRoomFrame (joined s c i roomId spectate) (joinedGame s c i spectate) with
      | error f =>
          exact ⟨fun h => congrArg _ (Except.error.inj h), fun h => congrArg _ (Except.error.inj h)⟩
      | ok frame =>
          refine iff_of_false ?_ fun h => by cases h
          dsimp only
          split
          · exact ok_ne_buffer
          · exact ok_ne_buffer

theorem handlePlay_buffer (pos : UInt8) :
    handlePlay s c pos = .error .buffer ↔ ¬ Short s c (.play pos) := by
  cases hfind : findRoom s (s.clients c).roomId with
  | none =>
      simp only [handlePlay, hfind]
      refine iff_of_false ok_ne_buffer fun h => h fun i hi => ?_
      rw [hfind] at hi
      cases hi
  | some i =>
      have hshort : Short s c (.play pos) ↔
          (winnerName (s.rooms i).game (gameIsEnded (playIn s c i pos).1)).strlen + 5
            ≤ bufSize := by
        simp [Short, hfind]
      rw [hshort, ← playIn_winner s c i pos, ← stopped_fits, handlePlay_eq hfind]
      split
      · split
        · rename_i hsize
          exact iff_of_true rfl (Nat.not_le.mpr hsize)
        · rename_i hsize
          exact iff_of_false ok_ne_buffer fun h => h (Nat.le_of_not_lt hsize)
      · rename_i hend
        rw [Decidable.not_not.mp hend]
        refine iff_of_false ok_ne_buffer fun h => h ?_
        show 0 + 5 ≤ bufSize
        decide

theorem handleSendMessage_buffer (message : CString) :
    handleSendMessage s c message = .error .buffer ↔ ¬ Short s c (.sendMessage message) := by
  have hsize : (ServerMsg.message (s.clients c).name message).size
      = (s.clients c).name.strlen + message.strlen + 5 := rfl
  simp only [handleSendMessage, Short, hsize]
  split
  · rename_i hlong
    exact iff_of_true rfl (Nat.not_le.mpr hlong)
  · rename_i hlong
    refine iff_of_false ?_ fun h => h (Nat.le_of_not_lt hlong)
    split
    · intro h
      cases h
    · split
      · intro h
        cases h
      · exact ok_ne_buffer

/-- **A RUN OVERRUNS A FRAME BUFFER** just when the request is not `Short`. -/
theorem handleRequest_buffer (hr : AwaleServer.Reachable Guard.any.meets s)
    (hc : c < s.nbClients) (rand : UInt32) (q : Request) :
    handleRequest s c rand q = .error .buffer ↔ ¬ Short s c q := by
  have hsized := sized_reachable hr
  cases q with
  | connect name => exact handleConnect_buffer hsized name
  | createRoom =>
      refine iff_of_false ?_ fun h => h trivial
      simp only [handleRequest, handleCreateRoom]
      split
      · exact ok_ne_buffer
      · intro h
        cases h
  | joinRoom roomId spectate =>
      exact handleJoinRoom_buffer hsized (Nat.lt_of_lt_of_le hc (nbClients_le hr)) roomId spectate
  | play pos => exact handlePlay_buffer pos
  | leaveRoom =>
      refine iff_of_false (fun h => ?_) fun h => h trivial
      simp only [handleRequest, handleLeaveRoom] at h
      split at h
      · cases h
      · split at h
        · cases h
        · split at h
          · cases h
          · split at h
            · cases h
            · cases h
  | sendMessage message => exact handleSendMessage_buffer message
  | setBiography biography => exact iff_of_false ok_ne_buffer fun h => h trivial

/-! ## The frames fit -/

/-- **EVERY FRAME FITS** just when the request is `Short`: in every reachable state, for every
    client and every request, the encoders return at most 1024 for the frames the handler builds
    and no size has wrapped. -/
theorem frames_fit (hr : AwaleServer.Reachable Guard.any.meets s) (c : Nat) (rand : UInt32)
    (q : Request) : (∀ m ∈ built s c rand q, Fits m) ↔ Short s c q := by
  have hsized := sized_reachable hr
  cases q with
  | connect name => exact builtConnect_fit (fun k => (hsized k).seats) name
  | createRoom =>
      refine iff_of_true (List.forall_mem_singleton.mpr (Fits.of_size trivial ?_)) trivial
      show 7 ≤ bufSize
      decide
  | joinRoom roomId spectate =>
      refine builtJoinRoom_fit (fun k => (hsized k).seats) (fun i sp hopen => ?_) roomId spectate
      exact (added_counts (hsized i) (newPlayer s c) hopen).1
  | play pos => exact builtPlay_fit pos
  | leaveRoom =>
      refine iff_of_true ?_ trivial
      simp only [built, builtLeaveRoom]
      split
      · exact List.forall_mem_singleton.mpr (Fits.of_size trivial (by decide))
      · exact List.forall_mem_nil _
  | sendMessage message =>
      have hsize : (ServerMsg.message (s.clients c).name message).size
          = (s.clients c).name.strlen + message.strlen + 5 := rfl
      simp only [built, Short]
      rw [List.forall_mem_singleton, fits_iff (m := .message _ _) trivial, hsize]
  | setBiography biography => exact iff_of_true (List.forall_mem_nil _) trivial

/-- The second player of a room: the frame of the room and two starts. -/
theorem frames_fit_join :
    ∃ s, AwaleServer.Reachable Guard.any.meets s ∧ (built s 1 0 (.joinRoom 7 0)).length = 3
      ∧ ∀ m ∈ built s 1 0 (.joinRoom 7 0), Fits m := by
  obtain ⟨s, hs, hf⟩ := Guard.reaches (g := Guard.any)
    (f := fun s => (decide (Short s 1 (.joinRoom 7 0)), (built s 1 0 (.joinRoom 7 0)).length))
    (b := (true, 3)) [.accept 4, .accept 5, .frame 0 Request.createRoom.body 7]
    (by decide +kernel) (by decide +kernel)
  obtain ⟨hshort, hlen⟩ := Prod.mk.inj hf
  exact ⟨s, hs, hlen, (frames_fit hs 1 0 _).mpr (of_decide_eq_true hshort)⟩

/-- A text of `n` bytes. -/
def textOf (n : Nat) : CString :=
  ⟨List.replicate n 97, fun h => absurd (List.eq_of_mem_replicate h) (by decide)⟩

/-- **A MESSAGE OF 1020 BYTES** is read whole, and its MESSAGE frame takes 1025 bytes, without a
    name even. -/
theorem message_overruns :
    ∃ s, AwaleServer.Reachable Guard.any.meets s ∧ 0 < s.nbClients
      ∧ (Request.sendMessage (textOf 1020)).body.length < bufSize
      ∧ ¬ ∀ m ∈ built s 0 0 (.sendMessage (textOf 1020)), Fits m := by
  obtain ⟨s, hs, hf⟩ := Guard.reaches (g := Guard.any)
    (f := fun s => ((s.clients 0).name, decide (0 < s.nbClients)))
    (b := (CString.empty, true)) [.accept 4, .frame 0 Request.createRoom.body 7]
    (by decide +kernel) (by decide +kernel)
  obtain ⟨hname, hc⟩ := Prod.mk.inj hf
  have hlen : (textOf 1020).strlen = 1020 := List.length_replicate
  refine ⟨s, hs, of_decide_eq_true hc, ?_, fun hfit => ?_⟩
  · show (5 :: (List.replicate 1020 97 ++ [0])).length < bufSize
    rw [List.length_cons, List.length_append, List.length_replicate]
    decide
  · have hsize := (fits_iff (m := .message (s.clients 0).name (textOf 1020)) trivial).mp
      (hfit _ (List.mem_singleton_self _))
    rw [hname] at hsize
    simp only [ServerMsg.size, hlen] at hsize
    exact absurd hsize (by decide)

end AwaleFrames
