import AwaleOnline.ByteBufferProofs
import AwaleOnline.AwaleClientProofs

/-!
# The two codecs, byte by byte

The `server_client_protocol_write_*` functions of both programs as the stores they make, and
`server_client_protocol_read` of the client on the bytes it may read.

* **`frame`** — what every encoder is to leave in the buffer: the little-endian length of a
  body, the body, and nothing else touched;
* **`server_frame`**, **`request_frame`** — the encoders of the server and of the client build
  that frame;
* **`server_round_trip`**, **`request_round_trip`** — the other side dispatches one handler,
  with the fields that were encoded.
-/

namespace AwaleCodec

open AwaleGame AwaleProtocol ByteBuffer

/-! ## Message types -/

/-- `ServerClientProtocol` -/
inductive ServerClientProtocol where
  | connectionSuccessful | connectionRefused
  | roomCreationSuccessful | roomCreationRefused
  | joinRoomSuccessful | joinRoomRefused
  | played | gameStart
  | playerJoinedRoom | spectatorJoinedRoom
  | gameStopped | message | invalidPlay
  deriving DecidableEq

def ServerClientProtocol.code : ServerClientProtocol → UInt8
  | .connectionSuccessful => 0
  | .connectionRefused => 1
  | .roomCreationSuccessful => 2
  | .roomCreationRefused => 3
  | .joinRoomSuccessful => 4
  | .joinRoomRefused => 5
  | .played => 6
  | .gameStart => 7
  | .playerJoinedRoom => 8
  | .spectatorJoinedRoom => 9
  | .gameStopped => 10
  | .message => 11
  | .invalidPlay => 12

/-- The enumerators, in the order of the header. -/
def ServerClientProtocol.all : List ServerClientProtocol :=
  [.connectionSuccessful, .connectionRefused, .roomCreationSuccessful, .roomCreationRefused,
    .joinRoomSuccessful, .joinRoomRefused, .played, .gameStart, .playerJoinedRoom,
    .spectatorJoinedRoom, .gameStopped, .message, .invalidPlay]

/-- The `case` label a byte selects. -/
def ServerClientProtocol.ofByte (b : UInt8) : Option ServerClientProtocol :=
  ServerClientProtocol.all[b.toNat]?

@[simp] theorem ServerClientProtocol.ofByte_code (ty : ServerClientProtocol) :
    ServerClientProtocol.ofByte ty.code = some ty := by
  cases ty <;> rfl

/-- `ClientServerProtocol` -/
inductive ClientServerProtocol where
  | connect | createRoom | joinRoom | play | leaveRoom | sendMessage | setBiography
  deriving DecidableEq

def ClientServerProtocol.code : ClientServerProtocol → UInt8
  | .connect => 0
  | .createRoom => 1
  | .joinRoom => 2
  | .play => 3
  | .leaveRoom => 4
  | .sendMessage => 5
  | .setBiography => 6

/-! ## Encoders

An encoder returns the buffer and `size + 2`.  `size` is a `uint16_t` throughout. -/

/-- The prefix and the type, in front of the fields. -/
def writeHeader (buf : ByteBuffer) (size : UInt16) (type : UInt8) : ByteBuffer :=
  (buf.storeUInt16 0 size).storeByte 2 type

/-- The encoders of a message without fields. -/
def writeEmpty (type : UInt8) (buf : ByteBuffer) : ByteBuffer × Nat :=
  let size : UInt16 := 1
  (writeHeader buf size type, size.toNat + 2)

/-- The encoders of a message with one byte. -/
def writeByte (type : UInt8) (buf : ByteBuffer) (b : UInt8) : ByteBuffer × Nat :=
  let size : UInt16 := 1 + 1
  ((writeHeader buf size type).storeByte 3 b, size.toNat + 2)

/-- The encoders of a message with one string. -/
def writeString (type : UInt8) (buf : ByteBuffer) (s : CString) : ByteBuffer × Nat :=
  let size := UInt16.ofNat (s.strlen + 2)
  ((writeHeader buf size type).strcpy 3 s, size.toNat + 2)

/-! ### Of the server -/

def writeConnectionSuccessful (buf : ByteBuffer) : ByteBuffer × Nat :=
  writeEmpty ServerClientProtocol.connectionSuccessful.code buf

def writeConnectionRefused (buf : ByteBuffer) (errorMessage : CString) : ByteBuffer × Nat :=
  writeString ServerClientProtocol.connectionRefused.code buf errorMessage

def writeRoomCreationSuccessful (buf : ByteBuffer) (roomId : UInt32) : ByteBuffer × Nat :=
  let size : UInt16 := 4 + 1
  ((writeHeader buf size ServerClientProtocol.roomCreationSuccessful.code).storeBytes 3
    (bytesUInt32 roomId), size.toNat + 2)

def writeRoomCreationRefused (buf : ByteBuffer) (errorMessage : CString) : ByteBuffer × Nat :=
  writeString ServerClientProtocol.roomCreationRefused.code buf errorMessage

section Join

variable (users : Nat → CString) (nbUsers nbSpectators : UInt8) (playerBios : Nat → CString)

/-- The body of the loop, on `buf` and `size`. -/
def writeUser (st : ByteBuffer × UInt16) (i : Nat) : ByteBuffer × UInt16 :=
  let buf := st.1.strcpy (st.2.toNat + 2) (users i)
  let size := st.2 + UInt16.ofNat ((users i).strlen + 1)
  if i < nbUsers.toNat then
    (buf.strcpy (size.toNat + 2) (playerBios i),
      size + UInt16.ofNat ((playerBios i).strlen + 1))
  else (buf, size)

/-- `server_client_protocol_write_join_room_successful`; the prefix is stored last. -/
def writeJoinRoomSuccessful (buf : ByteBuffer) : ByteBuffer × Nat :=
  let buf := buf.storeByte 2 ServerClientProtocol.joinRoomSuccessful.code
  let buf := (buf.storeByte 3 nbUsers).storeByte 4 nbSpectators
  let r := (List.range (nbUsers.toNat + nbSpectators.toNat)).foldl
    (writeUser users nbUsers playerBios) (buf, 3)
  (r.1.storeUInt16 0 r.2, r.2.toNat + 2)

end Join

def writeJoinRoomRefused (buf : ByteBuffer) (errorMessage : CString) : ByteBuffer × Nat :=
  writeString ServerClientProtocol.joinRoomRefused.code buf errorMessage

def writePlayed (buf : ByteBuffer) (side : Nat) (game : Game) : ByteBuffer × Nat :=
  let size : UInt16 := 12 + 3
  let buf := writeHeader buf size ServerClientProtocol.played.code
  let buf := buf.storeByte 3 (byteOfCaptured (game.players side).captured)
  let buf := buf.storeByte 4 (byteOfCaptured (game.players (1 - side)).captured)
  ((List.range boardSize).foldl (fun buf i => buf.storeByte (5 + i)
    (UInt8.ofNat (game.board (house (i + boardSize / 2 * side))))) buf, size.toNat + 2)

def writeInvalidPlay (buf : ByteBuffer) (errorMessage : CString) : ByteBuffer × Nat :=
  writeString ServerClientProtocol.invalidPlay.code buf errorMessage

def writeGameStart (buf : ByteBuffer) (side : UInt8) : ByteBuffer × Nat :=
  writeByte ServerClientProtocol.gameStart.code buf side

def writePlayerJoinedRoom (buf : ByteBuffer) (username : CString) : ByteBuffer × Nat :=
  writeString ServerClientProtocol.playerJoinedRoom.code buf username

def writeSpectatorJoinedRoom (buf : ByteBuffer) (username : CString) : ByteBuffer × Nat :=
  writeString ServerClientProtocol.spectatorJoinedRoom.code buf username

/-- `server_client_protocol_write_game_stopped`; the winner is stored before the header. -/
def writeGameStopped (buf : ByteBuffer) (draw : UInt8) (winner : CString) :
    ByteBuffer × Nat :=
  let size : UInt16 := 1 + 1
  let size := if draw = 0 then size + UInt16.ofNat (1 + winner.strlen) else size
  let buf := if draw = 0 then buf.strcpy 4 winner else buf
  ((writeHeader buf size ServerClientProtocol.gameStopped.code).storeByte 3 draw,
    size.toNat + 2)

/-- `server_client_protocol_write_send_message_to_room` -/
def writeSendMessageToRoom (buf : ByteBuffer) (username message : CString) :
    ByteBuffer × Nat :=
  let size := UInt16.ofNat (message.strlen + username.strlen + 3)
  (((writeHeader buf size ServerClientProtocol.message.code).strcpy 3 username).strcpy
    (3 + username.strlen + 1) message, size.toNat + 2)

/-! ### Of the client -/

def writeConnect (buf : ByteBuffer) (name : CString) : ByteBuffer × Nat :=
  writeString ClientServerProtocol.connect.code buf name

def writeCreateRoom (buf : ByteBuffer) : ByteBuffer × Nat :=
  writeEmpty ClientServerProtocol.createRoom.code buf

def writeJoinRoom (buf : ByteBuffer) (roomId : UInt32) (spectate : UInt8) :
    ByteBuffer × Nat :=
  let size : UInt16 := 4 + 1 + 1
  (((writeHeader buf size ClientServerProtocol.joinRoom.code).storeBytes 3
    (bytesUInt32 roomId)).storeByte 7 spectate, size.toNat + 2)

def writeLeaveRoom (buf : ByteBuffer) : ByteBuffer × Nat :=
  writeEmpty ClientServerProtocol.leaveRoom.code buf

def writePlay (buf : ByteBuffer) (pos : UInt8) : ByteBuffer × Nat :=
  writeByte ClientServerProtocol.play.code buf pos

def writeSendMessage (buf : ByteBuffer) (message : CString) : ByteBuffer × Nat :=
  writeString ClientServerProtocol.sendMessage.code buf message

def writeSetBiography (buf : ByteBuffer) (bio : CString) : ByteBuffer × Nat :=
  writeString ClientServerProtocol.setBiography.code buf bio

/-! ## Frames -/

/-- The frame of a body: its length, the body, and the rest of the buffer as it was. -/
def frame (buf : ByteBuffer) (body : List UInt8) : ByteBuffer × Nat :=
  (buf.storeBytes 0 (bytesUInt16 (UInt16.ofNat body.length) ++ body), body.length + 2)

/-- The bytes `write(sock, buf, size)` puts on the stream. -/
def sentBytes (r : ByteBuffer × Nat) : List UInt8 := (List.range r.2).map r.1

/-- The value of a two-byte prefix. -/
def prefixValue (lo hi : UInt8) : Nat := lo.toNat + 256 * hi.toNat

theorem prefixValue_ofNat {n : Nat} (h : n < 65536) :
    prefixValue (UInt8.ofNat (UInt16.ofNat n).toNat) (UInt8.ofNat ((UInt16.ofNat n).toNat / 256))
      = n := by
  simp only [prefixValue, UInt8.toNat_ofNat', UInt16.toNat_ofNat']
  omega

/-- A frame on the stream. -/
theorem sentBytes_frame (buf : ByteBuffer) (body : List UInt8) :
    sentBytes (frame buf body) = bytesUInt16 (UInt16.ofNat body.length) ++ body := by
  refine List.ext_getElem (by simp [sentBytes, frame, bytesUInt16]) ?_
  intro k h1 h2
  have hat := storeBytes_at buf 0 _ h2
  rw [Nat.zero_add] at hat
  simpa [sentBytes, frame] using hat

/-- What a frame leaves alone. -/
theorem frame_rest (buf : ByteBuffer) (body : List UInt8) {k : Nat}
    (h : (frame buf body).2 ≤ k) : (frame buf body).1 k = buf k := by
  refine storeBytes_off buf 0 _ (Or.inr ?_)
  have hk : body.length + 2 ≤ k := h
  simp only [bytesUInt16, List.length_append, List.length_cons, List.length_nil]
  omega

theorem writeHeader_eq (buf : ByteBuffer) (size : UInt16) (type : UInt8) :
    writeHeader buf size type = buf.storeBytes 0 (bytesUInt16 size ++ [type]) :=
  storeBytes_append buf [type] rfl

/-- The fields follow the header. -/
theorem writeHeader_fields (buf : ByteBuffer) (size : UInt16) (type : UInt8)
    (l : List UInt8) :
    (writeHeader buf size type).storeBytes 3 l
      = buf.storeBytes 0 (bytesUInt16 size ++ type :: l) := by
  have hoff : 3 = 0 + (bytesUInt16 size ++ [type]).length := rfl
  rw [writeHeader_eq, storeBytes_append buf l hoff, List.append_assoc, List.singleton_append]

/-- Header and fields are the frame of a body when `size` counts its bytes. -/
theorem frame_eq (buf : ByteBuffer) (size : UInt16) {body : List UInt8}
    (h : body.length < 65536) (hsize : size = UInt16.ofNat body.length) :
    (buf.storeBytes 0 (bytesUInt16 size ++ body), size.toNat + 2) = frame buf body := by
  have htoNat : (UInt16.ofNat body.length).toNat = body.length := UInt16.toNat_ofNat_of_lt' h
  rw [frame, hsize, htoNat]

theorem writeEmpty_eq (type : UInt8) (buf : ByteBuffer) :
    writeEmpty type buf = frame buf [type] :=
  congrArg (fun b => (b, 3)) (writeHeader_eq buf 1 type)

theorem writeByte_eq (type : UInt8) (buf : ByteBuffer) (b : UInt8) :
    writeByte type buf b = frame buf [type, b] :=
  congrArg (fun b => (b, 4)) (writeHeader_fields buf 2 type [b])

theorem writeString_eq (type : UInt8) (buf : ByteBuffer) {s : CString}
    (h : (type :: stringBytes s).length < 65536) :
    writeString type buf s = frame buf (type :: stringBytes s) := by
  rw [writeString, strcpy, writeHeader_fields]
  have hlen : (type :: stringBytes s).length = s.strlen + 2 := by
    simp [stringBytes, CString.strlen]
  exact frame_eq buf _ h (congrArg UInt16.ofNat hlen.symm)

/-! ## `server_client_protocol_read` -/

/-- The handler the client calls, with its arguments. -/
inductive HandlerCall where
  | connectionSuccessful
  | connectionRefused (errorMessage : CString)
  | roomCreationSuccessful (roomId : UInt32)
  | roomCreationRefused (errorMessage : CString)
  | joinRoomSuccessful (nbUsers nbSpectators : UInt8) (users bios spectators : List CString)
  | joinRoomRefused (errorMessage : CString)
  | played (sScore oScore : UInt8) (board : List UInt8)
  | gameStart (pos : UInt8)
  | playerJoinedRoom (username : CString)
  | spectatorJoinedRoom (username : CString)
  | gameStopped (draw : UInt8) (winner : CString)
  | message (username message : CString)
  | invalidPlay (errorMessage : CString)
  deriving DecidableEq

/-- `*(uint32_t *)(buf + off)` -/
def uint32At (l : List UInt8) (off : Nat) : Option UInt32 :=
  (bytesAt l off 4).map fun bs => readUInt32 (fun k => bs.getD k 0) 0

/-- One turn of the first loop: `users[i]`, then `bios[i]`. -/
def nextPlayer (l : List UInt8) (off : Nat) : Option ((CString × CString) × Nat) :=
  (nextString l off).bind fun user =>
    (nextString l user.2).map fun bio => ((user.1, bio.1), bio.2)

/-- The JOIN_ROOM_SUCCESSFUL case; `users` and `bios` have two entries. -/
def readJoinRoomSuccessful (l : List UInt8) : Option HandlerCall := do
  let nbUsers ← l[1]?
  let nbSpectators ← l[2]?
  if nbUsers.toNat > 2 then none
  else
    let players ← readN nextPlayer l nbUsers.toNat 3
    let spectators ← readN nextString l nbSpectators.toNat players.2
    some (.joinRoomSuccessful nbUsers nbSpectators (players.1.map Prod.fst)
      (players.1.map Prod.snd) spectators.1)

/-- `server_client_protocol_read` of the client, on the bytes it may read: `none` when it
    reads or writes past an end, `some none` when no `case` is taken. -/
def serverClientProtocolRead (l : List UInt8) : Option (Option HandlerCall) := do
  let type ← l[0]?
  match ServerClientProtocol.ofByte type with
  | some .connectionSuccessful => some (some .connectionSuccessful)
  | some .connectionRefused => (stringAt l 1).map fun m => some (.connectionRefused m)
  | some .roomCreationSuccessful => (uint32At l 1).map fun n => some (.roomCreationSuccessful n)
  | some .roomCreationRefused => (stringAt l 1).map fun m => some (.roomCreationRefused m)
  | some .joinRoomSuccessful => (readJoinRoomSuccessful l).map some
  | some .joinRoomRefused => (stringAt l 1).map fun m => some (.joinRoomRefused m)
  | some .played => do
      let sScore ← l[1]?
      let oScore ← l[2]?
      let board ← bytesAt l 3 boardSize
      some (some (.played sScore oScore board))
  | some .gameStart => l[1]?.map fun pos => some (.gameStart pos)
  | some .playerJoinedRoom => (stringAt l 1).map fun u => some (.playerJoinedRoom u)
  | some .spectatorJoinedRoom => (stringAt l 1).map fun u => some (.spectatorJoinedRoom u)
  | some .gameStopped => do
      let draw ← l[1]?
      let winner ← stringAt l 2
      some (some (.gameStopped draw winner))
  | some .message => do
      let username ← stringAt l 1
      let message ← stringAt l (2 + username.strlen)
      some (some (.message username message))
  | some .invalidPlay => (stringAt l 1).map fun m => some (.invalidPlay m)
  | none => some none

/-! ## Server to client -/

/-- A call of one of the server's encoders.  The arrays it is given hold two seats at most, and
    their number of spectators is a `uint8_t`. -/
inductive ServerFrame where
  | connectionSuccessful
  | connectionRefused (errorMessage : CString)
  | roomCreationSuccessful (roomId : UInt32)
  | roomCreationRefused (errorMessage : CString)
  | joinRoomSuccessful (players : {l : List (CString × CString) // l.length ≤ 2})
      (spectators : {l : List CString // l.length ≤ 255})
  | joinRoomRefused (errorMessage : CString)
  | played (side : Fin 2) (game : Game)
  | gameStart (side : UInt8)
  | playerJoinedRoom (username : CString)
  | spectatorJoinedRoom (username : CString)
  | gameStopped (draw : UInt8) (winner : CString)
  | message (username message : CString)
  | invalidPlay (errorMessage : CString)

/-- The entries of a `const char **`. -/
def entries (l : List CString) (i : Nat) : CString := l.getD i CString.empty

/-- The encoder of each message. -/
def ServerFrame.write (buf : ByteBuffer) : ServerFrame → ByteBuffer × Nat
  | .connectionSuccessful => writeConnectionSuccessful buf
  | .connectionRefused m => writeConnectionRefused buf m
  | .roomCreationSuccessful n => writeRoomCreationSuccessful buf n
  | .roomCreationRefused m => writeRoomCreationRefused buf m
  | .joinRoomSuccessful players spectators =>
      writeJoinRoomSuccessful (entries (players.val.map Prod.fst ++ spectators.val))
        (UInt8.ofNat players.val.length) (UInt8.ofNat spectators.val.length)
        (entries (players.val.map Prod.snd)) buf
  | .joinRoomRefused m => writeJoinRoomRefused buf m
  | .played side game => writePlayed buf side game
  | .gameStart side => writeGameStart buf side
  | .playerJoinedRoom u => writePlayerJoinedRoom buf u
  | .spectatorJoinedRoom u => writeSpectatorJoinedRoom buf u
  | .gameStopped draw winner => writeGameStopped buf draw winner
  | .message u m => writeSendMessageToRoom buf u m
  | .invalidPlay m => writeInvalidPlay buf m

def playerBytes (player : CString × CString) : List UInt8 :=
  stringBytes player.1 ++ stringBytes player.2

/-- The board as the player of a side sees it: its own row first. -/
def boardBytes (side : Nat) (game : Game) : List UInt8 :=
  (List.range boardSize).map fun i =>
    UInt8.ofNat (game.board (house (i + boardSize / 2 * side)))

/-- The body of each message. -/
def ServerFrame.body : ServerFrame → List UInt8
  | .connectionSuccessful => [ServerClientProtocol.connectionSuccessful.code]
  | .connectionRefused m => ServerClientProtocol.connectionRefused.code :: stringBytes m
  | .roomCreationSuccessful n =>
      ServerClientProtocol.roomCreationSuccessful.code :: bytesUInt32 n
  | .roomCreationRefused m => ServerClientProtocol.roomCreationRefused.code :: stringBytes m
  | .joinRoomSuccessful players spectators =>
      [ServerClientProtocol.joinRoomSuccessful.code, UInt8.ofNat players.val.length,
        UInt8.ofNat spectators.val.length]
        ++ (players.val.flatMap playerBytes ++ spectators.val.flatMap stringBytes)
  | .joinRoomRefused m => ServerClientProtocol.joinRoomRefused.code :: stringBytes m
  | .played side game =>
      [ServerClientProtocol.played.code, byteOfCaptured (game.players side).captured,
        byteOfCaptured (game.players (1 - side.val)).captured] ++ boardBytes side game
  | .gameStart side => [ServerClientProtocol.gameStart.code, side]
  | .playerJoinedRoom u => ServerClientProtocol.playerJoinedRoom.code :: stringBytes u
  | .spectatorJoinedRoom u => ServerClientProtocol.spectatorJoinedRoom.code :: stringBytes u
  | .gameStopped draw winner =>
      [ServerClientProtocol.gameStopped.code, draw]
        ++ (if draw = 0 then stringBytes winner else [])
  | .message u m => ServerClientProtocol.message.code :: (stringBytes u ++ stringBytes m)
  | .invalidPlay m => ServerClientProtocol.invalidPlay.code :: stringBytes m

theorem ServerFrame.body_length_pos (m : ServerFrame) : 0 < m.body.length := by
  cases m <;> exact Nat.succ_pos _

/-- The call of the client's handler; a draw has no winner. -/
def ServerFrame.call : ServerFrame → HandlerCall
  | .connectionSuccessful => .connectionSuccessful
  | .connectionRefused m => .connectionRefused m
  | .roomCreationSuccessful n => .roomCreationSuccessful n
  | .roomCreationRefused m => .roomCreationRefused m
  | .joinRoomSuccessful players spectators =>
      .joinRoomSuccessful (UInt8.ofNat players.val.length) (UInt8.ofNat spectators.val.length)
        (players.val.map Prod.fst) (players.val.map Prod.snd) spectators.val
  | .joinRoomRefused m => .joinRoomRefused m
  | .played side game =>
      .played (byteOfCaptured (game.players side).captured)
        (byteOfCaptured (game.players (1 - side.val)).captured) (boardBytes side game)
  | .gameStart side => .gameStart side
  | .playerJoinedRoom u => .playerJoinedRoom u
  | .spectatorJoinedRoom u => .spectatorJoinedRoom u
  | .gameStopped draw winner =>
      .gameStopped draw (if draw = 0 then winner else CString.empty)
  | .message u m => .message u m
  | .invalidPlay m => .invalidPlay m

/-! ### The encoders build the frame -/

theorem writePlayed_eq (buf : ByteBuffer) (side : Fin 2) (game : Game) :
    writePlayed buf side game = frame buf (ServerFrame.played side game).body := by
  have hlen : (ServerFrame.played side game).body.length = 15 := by
    simp [ServerFrame.body, boardBytes, boardSize]
  rw [← frame_eq buf 15 (by rw [hlen]; decide) (by rw [hlen]; rfl)]
  refine Prod.ext ?_ rfl
  simp only [writePlayed]
  rw [foldl_storeByte, storeByte, storeByte, writeHeader_fields, storeBytes_append,
    storeBytes_append]
  · simp [ServerFrame.body, boardBytes]
  · rfl
  · rfl

theorem writeGameStopped_eq (buf : ByteBuffer) (draw : UInt8) {winner : CString}
    (h : (ServerFrame.gameStopped draw winner).body.length < 65536) :
    writeGameStopped buf draw winner
      = frame buf (ServerFrame.gameStopped draw winner).body := by
  by_cases hd : draw = 0
  · subst hd
    have hlen : (ServerFrame.gameStopped 0 winner).body.length = 2 + (1 + winner.strlen) := by
      simp [ServerFrame.body, stringBytes, CString.strlen]
      omega
    have hsize : (1 + 1 : UInt16) + UInt16.ofNat (1 + winner.strlen)
        = UInt16.ofNat (ServerFrame.gameStopped 0 winner).body.length := by
      rw [hlen, UInt16.ofNat_add 2]
      rfl
    rw [← frame_eq buf _ h hsize]
    refine Prod.ext ?_ rfl
    show (writeHeader (buf.strcpy 4 winner) _ _).storeBytes 3 [0] = _
    rw [writeHeader_fields, strcpy, storeBytes_prepend]
    · simp [ServerFrame.body]
    · rfl
  · simp only [writeGameStopped, if_neg hd, ServerFrame.body]
    exact congrArg (fun b => (b, 4)) (writeHeader_fields buf 2 _ [draw])

theorem writeSendMessageToRoom_eq (buf : ByteBuffer) {username message : CString}
    (h : (ServerFrame.message username message).body.length < 65536) :
    writeSendMessageToRoom buf username message
      = frame buf (ServerFrame.message username message).body := by
  have hlen : (ServerFrame.message username message).body.length
      = message.strlen + username.strlen + 3 := by
    simp [ServerFrame.body, stringBytes, CString.strlen]
    omega
  rw [← frame_eq buf _ h (congrArg UInt16.ofNat hlen.symm)]
  refine Prod.ext ?_ rfl
  simp only [writeSendMessageToRoom, strcpy]
  rw [writeHeader_fields, storeBytes_append]
  · simp [ServerFrame.body]
  · simp [bytesUInt16, stringBytes, CString.strlen]
    omega

section Join

variable (users : Nat → CString) (nbUsers : UInt8) (playerBios : Nat → CString)

/-- The strings one turn of the loop writes. -/
def userBytes (i : Nat) : List UInt8 :=
  stringBytes (users i) ++ if i < nbUsers.toNat then stringBytes (playerBios i) else []

/-- One string behind what the body holds so far, with `size` counting it. -/
theorem strcpy_next (buf : ByteBuffer) {done : List UInt8} (s : CString)
    (h : done.length < 65536) :
    (buf.storeBytes 2 done).strcpy ((UInt16.ofNat done.length).toNat + 2) s
        = buf.storeBytes 2 (done ++ stringBytes s)
      ∧ UInt16.ofNat done.length + UInt16.ofNat (s.strlen + 1)
        = UInt16.ofNat (done ++ stringBytes s).length := by
  have hsize : (UInt16.ofNat done.length).toNat = done.length := UInt16.toNat_ofNat_of_lt' h
  constructor
  · rw [hsize, strcpy, storeBytes_append]
    omega
  · rw [← UInt16.ofNat_add]
    simp [stringBytes, CString.strlen]

/-- One turn of the loop. -/
theorem writeUser_eq (buf : ByteBuffer) {done : List UInt8} {i : Nat}
    (h : (done ++ userBytes users nbUsers playerBios i).length < 65536) :
    writeUser users nbUsers playerBios
        (buf.storeBytes 2 done, UInt16.ofNat done.length) i
      = (buf.storeBytes 2 (done ++ userBytes users nbUsers playerBios i),
          UInt16.ofNat (done ++ userBytes users nbUsers playerBios i).length) := by
  unfold userBytes at h ⊢
  have h1 : done.length < 65536 := by
    simp only [List.length_append] at h
    omega
  obtain ⟨hbuf, hsize⟩ := strcpy_next buf (users i) h1
  by_cases hi : i < nbUsers.toNat
  · have h2 : (done ++ stringBytes (users i)).length < 65536 := by
      simp only [List.length_append] at h ⊢
      omega
    obtain ⟨hbuf', hsize'⟩ := strcpy_next buf (playerBios i) h2
    simp only [writeUser, if_pos hi, hbuf, hsize, hbuf', hsize', List.append_assoc]
  · simp only [writeUser, if_neg hi, hbuf, hsize, List.append_nil]

/-- The whole loop, by induction on the indices still to come. -/
theorem foldl_writeUser (buf : ByteBuffer) (is : List Nat) :
    ∀ done : List UInt8,
      (done ++ is.flatMap (userBytes users nbUsers playerBios)).length < 65536 →
      is.foldl (writeUser users nbUsers playerBios)
          (buf.storeBytes 2 done, UInt16.ofNat done.length)
        = (buf.storeBytes 2 (done ++ is.flatMap (userBytes users nbUsers playerBios)),
            UInt16.ofNat
              (done ++ is.flatMap (userBytes users nbUsers playerBios)).length) := by
  induction is with
  | nil =>
      intro done _
      simp
  | cons i is ih =>
      intro done h
      rw [List.flatMap_cons, ← List.append_assoc] at h
      have h1 : (done ++ userBytes users nbUsers playerBios i).length < 65536 := by
        rw [List.length_append] at h
        omega
      rw [List.foldl_cons, writeUser_eq users nbUsers playerBios buf h1, ih _ h,
        List.flatMap_cons, List.append_assoc]

end Join

/-- A walk over the indices of a list is a walk over the list. -/
theorem flatMap_range_eq {α β : Type} {g : α → List β} (l : List α) :
    ∀ f : Nat → List β, (∀ i (h : i < l.length), f i = g l[i]) →
      (List.range l.length).flatMap f = l.flatMap g := by
  induction l with
  | nil =>
      intro f _
      rfl
  | cons a l ih =>
      intro f h
      have htail := ih (fun i => f (i + 1)) fun i hi => h (i + 1) (Nat.succ_lt_succ hi)
      rw [List.length_cons, List.range_succ_eq_map, List.flatMap_cons, List.flatMap_map, htail,
        List.flatMap_cons]
      exact congrArg (· ++ _) (h 0 (Nat.succ_pos _))

/-- The arrays hold the players, then the spectators. -/
theorem userBytes_entries (players : List (CString × CString)) (spectators : List CString)
    {nbUsers : UInt8} (hn : nbUsers.toNat = players.length) :
    (List.range (players.length + spectators.length)).flatMap
        (userBytes (entries (players.map Prod.fst ++ spectators)) nbUsers
          (entries (players.map Prod.snd)))
      = players.flatMap playerBytes ++ spectators.flatMap stringBytes := by
  rw [List.range_add, List.flatMap_append, List.flatMap_map]
  congr 1
  · refine flatMap_range_eq players _ ?_
    intro i hi
    simp [userBytes, entries, playerBytes, hn, hi, List.getElem?_append_left]
  · refine flatMap_range_eq spectators _ ?_
    intro i hi
    simp [userBytes, entries, hn, hi]

/-- What stands in front of the strings of JOIN_ROOM_SUCCESSFUL. -/
def roomHeader (nbUsers nbSpectators : UInt8) : List UInt8 :=
  [ServerClientProtocol.joinRoomSuccessful.code, nbUsers, nbSpectators]

theorem roomHeader_eq (buf : ByteBuffer) (nbUsers nbSpectators : UInt8) :
    ((buf.storeByte 2 ServerClientProtocol.joinRoomSuccessful.code).storeByte 3
      nbUsers).storeByte 4 nbSpectators = buf.storeBytes 2 (roomHeader nbUsers nbSpectators) := by
  simp only [storeByte]
  rw [storeBytes_append, storeBytes_append]
  · rfl
  · rfl
  · rfl

/-- A count that fits a `uint8_t` is passed on whole. -/
theorem count_toNat {α : Type} {l : List α} {n : Nat} (h : l.length ≤ n) (hn : n < 256) :
    (UInt8.ofNat l.length).toNat = l.length :=
  UInt8.toNat_ofNat_of_lt' (Nat.lt_of_le_of_lt h hn)

theorem writeJoinRoomSuccessful_eq (buf : ByteBuffer)
    (players : {l : List (CString × CString) // l.length ≤ 2})
    (spectators : {l : List CString // l.length ≤ 255})
    (h : (ServerFrame.joinRoomSuccessful players spectators).body.length < 65536) :
    (ServerFrame.joinRoomSuccessful players spectators).write buf
      = frame buf (ServerFrame.joinRoomSuccessful players spectators).body := by
  have hp := count_toNat players.property (by decide)
  have hs := count_toNat spectators.property (by decide)
  -- the loop starts with three bytes written and `size` at three
  have hloop := foldl_writeUser (entries (players.val.map Prod.fst ++ spectators.val))
    (UInt8.ofNat players.val.length) (entries (players.val.map Prod.snd)) buf
    (List.range (players.val.length + spectators.val.length))
    (roomHeader (UInt8.ofNat players.val.length) (UInt8.ofNat spectators.val.length))
  rw [userBytes_entries players.val spectators.val hp] at hloop
  have hthree : UInt16.ofNat (roomHeader (UInt8.ofNat players.val.length)
      (UInt8.ofNat spectators.val.length)).length = 3 := rfl
  rw [hthree] at hloop
  rw [← frame_eq buf _ h rfl]
  simp only [ServerFrame.write, writeJoinRoomSuccessful, hp, hs, roomHeader_eq]
  rw [hloop h]
  refine Prod.ext ?_ rfl
  have hoff : 2 = 0 + (bytesUInt16 (UInt16.ofNat
      (ServerFrame.joinRoomSuccessful players spectators).body.length)).length := rfl
  exact storeBytes_prepend buf _ hoff

/-- **THE SERVER'S ENCODERS BUILD THE FRAME** of their message. -/
theorem server_frame (buf : ByteBuffer) (m : ServerFrame) (h : m.body.length < 65536) :
    m.write buf = frame buf m.body := by
  cases m with
  | connectionSuccessful => exact writeEmpty_eq _ buf
  | connectionRefused m => exact writeString_eq _ buf h
  | roomCreationSuccessful n => exact congrArg (fun b => (b, 7)) (writeHeader_fields buf 5 _ _)
  | roomCreationRefused m => exact writeString_eq _ buf h
  | joinRoomSuccessful players spectators =>
      exact writeJoinRoomSuccessful_eq buf players spectators h
  | joinRoomRefused m => exact writeString_eq _ buf h
  | played side game => exact writePlayed_eq buf side game
  | gameStart side => exact writeByte_eq _ buf side
  | playerJoinedRoom u => exact writeString_eq _ buf h
  | spectatorJoinedRoom u => exact writeString_eq _ buf h
  | gameStopped draw winner => exact writeGameStopped_eq buf draw h
  | message u m => exact writeSendMessageToRoom_eq buf h
  | invalidPlay m => exact writeString_eq _ buf h

/-! ### The client reads it back -/

theorem uint32At_append (front tail : List UInt8) (n : UInt32) :
    uint32At (front ++ (bytesUInt32 n ++ tail)) front.length = some n := by
  have hread : bytesAt (front ++ (bytesUInt32 n ++ tail)) front.length 4
      = some (bytesUInt32 n) := bytesAt_append _ front _ tail rfl rfl
  rw [uint32At, hread]
  exact congrArg some (uint32_of_bytes n)

theorem nextPlayer_reads : Reads nextPlayer playerBytes :=
  Reads.pair nextString_reads nextString_reads

/-- A string behind the type, and the NUL the receiver adds. -/
theorem stringAt_body (type : UInt8) (s : CString) :
    stringAt (type :: stringBytes s ++ [0]) 1 = some s := by
  exact stringAt_append 1 [type] s [0] rfl

theorem readJoinRoomSuccessful_body
    (players : {l : List (CString × CString) // l.length ≤ 2})
    (spectators : {l : List CString // l.length ≤ 255}) :
    readJoinRoomSuccessful ((ServerFrame.joinRoomSuccessful players spectators).body ++ [0])
      = some (ServerFrame.joinRoomSuccessful players spectators).call := by
  have hp := count_toNat players.property (by decide)
  have hs := count_toNat spectators.property (by decide)
  -- the players behind the header, the spectators behind the players
  have hplayers := nextPlayer_reads.readN players.val
    (roomHeader (UInt8.ofNat players.val.length) (UInt8.ofNat spectators.val.length))
    (spectators.val.flatMap stringBytes ++ [0])
  have hspectators := nextString_reads.readN spectators.val
    (roomHeader (UInt8.ofNat players.val.length) (UInt8.ofNat spectators.val.length)
      ++ players.val.flatMap playerBytes) [0]
  have hbody : (ServerFrame.joinRoomSuccessful players spectators).body ++ [0]
      = roomHeader (UInt8.ofNat players.val.length) (UInt8.ofNat spectators.val.length)
        ++ (players.val.flatMap playerBytes ++ (spectators.val.flatMap stringBytes ++ [0])) := by
    simp [ServerFrame.body, roomHeader]
  rw [List.append_assoc, List.length_append] at hspectators
  rw [← hbody] at hplayers hspectators
  have hthree : (roomHeader (UInt8.ofNat players.val.length)
      (UInt8.ofNat spectators.val.length)).length = 3 := rfl
  rw [hthree] at hplayers hspectators
  have h1 : ((ServerFrame.joinRoomSuccessful players spectators).body ++ [0])[1]?
      = some (UInt8.ofNat players.val.length) := rfl
  have h2 : ((ServerFrame.joinRoomSuccessful players spectators).body ++ [0])[2]?
      = some (UInt8.ofNat spectators.val.length) := rfl
  have hle : ¬ players.val.length > 2 := Nat.not_lt.mpr players.property
  simp only [readJoinRoomSuccessful, h1, h2, Option.bind_eq_bind, Option.bind_some, hp, hs,
    if_neg hle, hplayers, hspectators]
  rfl

/-- **THE CLIENT READS THE BODY BACK**, from its bytes and one NUL. -/
theorem serverClientProtocolRead_body (m : ServerFrame) :
    serverClientProtocolRead (m.body ++ [0]) = some (some m.call) := by
  have hstring : ∀ (type : UInt8) (c : CString → HandlerCall) (s : CString),
      ((stringAt (type :: stringBytes s ++ [0]) 1).map fun s => some (c s))
        = some (some (c s)) := by
    intro type c s
    rw [stringAt_body]
    rfl
  cases m with
  | connectionSuccessful => rfl
  | connectionRefused m => exact hstring 1 .connectionRefused m
  | roomCreationSuccessful n =>
      exact congrArg (Option.map fun n => some (HandlerCall.roomCreationSuccessful n))
        (uint32At_append [2] [0] n)
  | roomCreationRefused m => exact hstring 3 .roomCreationRefused m
  | joinRoomSuccessful players spectators =>
      exact congrArg (Option.map some) (readJoinRoomSuccessful_body players spectators)
  | joinRoomRefused m => exact hstring 5 .joinRoomRefused m
  | played side game =>
      have hboard : bytesAt ((ServerFrame.played side game).body ++ [0]) 3 boardSize
          = some (boardBytes side game) := by
        rw [ServerFrame.body, List.append_assoc]
        exact bytesAt_append 3 _ _ [0] rfl (by simp [boardBytes])
      have hread : serverClientProtocolRead ((ServerFrame.played side game).body ++ [0])
          = (bytesAt ((ServerFrame.played side game).body ++ [0]) 3 boardSize).bind fun board =>
            some (some (.played (byteOfCaptured (game.players side).captured)
              (byteOfCaptured (game.players (1 - side.val)).captured) board)) := rfl
      rw [hread, hboard]
      rfl
  | gameStart side => rfl
  | playerJoinedRoom u => exact hstring 8 .playerJoinedRoom u
  | spectatorJoinedRoom u => exact hstring 9 .spectatorJoinedRoom u
  | gameStopped draw winner =>
      have hwinner : stringAt ((ServerFrame.gameStopped draw winner).body ++ [0]) 2
          = some (if draw = 0 then winner else CString.empty) := by
        by_cases hd : draw = 0
        · rw [if_pos hd]
          simpa [ServerFrame.body, hd] using
            stringAt_append 2 [ServerClientProtocol.gameStopped.code, 0] winner [0] rfl
        · -- the NUL behind the body is the whole string
          rw [if_neg hd]
          simpa [ServerFrame.body, hd, stringBytes, CString.empty] using
            stringAt_append 2 [ServerClientProtocol.gameStopped.code, draw] CString.empty [] rfl
      have hread : serverClientProtocolRead ((ServerFrame.gameStopped draw winner).body ++ [0])
          = (stringAt ((ServerFrame.gameStopped draw winner).body ++ [0]) 2).bind fun w =>
            some (some (.gameStopped draw w)) := rfl
      rw [hread, hwinner]
      rfl
  | message u m =>
      have hu : stringAt ((ServerFrame.message u m).body ++ [0]) 1 = some u := by
        simpa [ServerFrame.body] using
          stringAt_append 1 [ServerClientProtocol.message.code] u (stringBytes m ++ [0]) rfl
      have hm : stringAt ((ServerFrame.message u m).body ++ [0]) (2 + u.strlen) = some m := by
        have hoff : 2 + u.strlen = (ServerClientProtocol.message.code :: stringBytes u).length := by
          simp [stringBytes, CString.strlen]
          omega
        simpa [ServerFrame.body] using stringAt_append _ _ m [0] hoff
      have hread : serverClientProtocolRead ((ServerFrame.message u m).body ++ [0])
          = (stringAt ((ServerFrame.message u m).body ++ [0]) 1).bind fun u' =>
            (stringAt ((ServerFrame.message u m).body ++ [0]) (2 + u'.strlen)).bind fun m' =>
              some (some (.message u' m')) := rfl
      rw [hread, hu, Option.bind_some, hm]
      rfl
  | invalidPlay m => exact hstring 12 .invalidPlay m

/-- What a frame looks like on the stream. -/
theorem framed {r : ByteBuffer × Nat} {buf : ByteBuffer} {body : List UInt8}
    (hr : r = frame buf body) (h : body.length < 65536) :
    ∃ lo hi : UInt8, sentBytes r = lo :: hi :: body ∧ prefixValue lo hi = body.length
      ∧ r.2 = body.length + 2 ∧ ∀ k, r.2 ≤ k → r.1 k = buf k := by
  subst hr
  exact ⟨_, _, sentBytes_frame buf body, prefixValue_ofNat h, rfl,
    fun _ hk => frame_rest buf body hk⟩

/-- **SERVER-TO-CLIENT ROUND TRIP.**  Whatever the buffer held, the bytes sent are a prefix and
    a body; the prefix counts the body, the encoder returns two more and writes nothing behind
    them; and the client, on the body and one NUL, calls the handler of the message with the
    fields that were encoded. -/
theorem server_round_trip (buf : ByteBuffer) (m : ServerFrame) (h : m.body.length < 65536) :
    ∃ (lo hi : UInt8) (body : List UInt8),
      sentBytes (m.write buf) = lo :: hi :: body
        ∧ prefixValue lo hi = body.length
        ∧ (m.write buf).2 = body.length + 2
        ∧ (∀ k, (m.write buf).2 ≤ k → (m.write buf).1 k = buf k)
        ∧ serverClientProtocolRead (body ++ [0]) = some (some m.call) := by
  obtain ⟨lo, hi, hsent, hprefix, hsize, hrest⟩ := framed (server_frame buf m h) h
  exact ⟨lo, hi, m.body, hsent, hprefix, hsize, hrest, serverClientProtocolRead_body m⟩

/-- Two players with their biographies and a spectator. -/
def fullRoom : ServerFrame :=
  .joinRoomSuccessful
    ⟨[(literal "ann", literal "first"), (literal "bob", literal "")], by decide⟩
    ⟨[literal "cy"], by decide⟩

theorem server_round_trip_full_room :
    ∃ (lo hi : UInt8) (body : List UInt8),
      sentBytes (fullRoom.write fun _ => 255) = lo :: hi :: body
        ∧ prefixValue lo hi = body.length
        ∧ (fullRoom.write fun _ => 255).2 = body.length + 2
        ∧ (∀ k, (fullRoom.write fun _ => 255).2 ≤ k →
            (fullRoom.write fun _ => 255).1 k = 255)
        ∧ serverClientProtocolRead (body ++ [0]) = some (some fullRoom.call) :=
  server_round_trip (fun _ => 255) fullRoom (by decide)

/-! ### The messages of the model -/

/-- The message of an encoder call, as the server's model sends it. -/
def ServerFrame.msg : ServerFrame → ServerMsg
  | .connectionSuccessful => .connectionSuccessful
  | .connectionRefused m => .connectionRefused m
  | .roomCreationSuccessful n => .roomCreationSuccessful n
  | .roomCreationRefused m => .roomCreationRefused m
  | .joinRoomSuccessful players spectators =>
      .joinRoomSuccessful (UInt8.ofNat players.val.length) (UInt8.ofNat spectators.val.length)
        (players.val.map Prod.fst ++ spectators.val) (players.val.map Prod.snd)
  | .joinRoomRefused m => .joinRoomRefused m
  | .played side game => AwaleProtocol.writePlayed side game
  | .gameStart side => .gameStart side
  | .playerJoinedRoom u => .playerJoinedRoom u
  | .spectatorJoinedRoom u => .spectatorJoinedRoom u
  | .gameStopped draw winner => .gameStopped (draw ≠ 0) winner
  | .message u m => .message u m
  | .invalidPlay m => .invalidPlay m

/-- The client's handlers, as far as the model of the client follows them. -/
def dispatch (state : AwaleClient.State) : HandlerCall → AwaleClient.State × List Request
  | .connectionSuccessful => AwaleClient.handleConnectionSuccessful state
  | .connectionRefused _ => AwaleClient.handleConnectionRefused state
  | .roomCreationSuccessful _ => AwaleClient.handleRoomCreationSuccessful state
  | .roomCreationRefused _ => AwaleClient.handleRoomCreationRefused state
  | .joinRoomSuccessful _ _ _ _ _ => AwaleClient.handleJoinRoomSuccessful state
  | .joinRoomRefused _ => AwaleClient.handleJoinRoomRefused state
  | .played _ _ _ => AwaleClient.handlePlayed state
  | .gameStart pos => AwaleClient.handleGameStart state pos
  | .gameStopped _ _ => AwaleClient.handleGameStopped state
  | .invalidPlay _ => AwaleClient.handleInvalidPlay state
  | .playerJoinedRoom _ => (state, [])
  | .spectatorJoinedRoom _ => (state, [])
  | .message _ _ => (state, [])

@[simp] theorem stringBytes_length (s : CString) : (stringBytes s).length = s.strlen + 1 := by
  simp [stringBytes, CString.strlen]

/-- The strings of a room's players, counted together or one player at a time. -/
theorem playerBytes_length (players : List (CString × CString)) :
    (players.flatMap playerBytes).length
      = ((players.map Prod.fst).map fun s => s.strlen + 1).sum
        + ((players.map Prod.snd).map fun s => s.strlen + 1).sum := by
  induction players with
  | nil => rfl
  | cons player players ih =>
      simp only [List.flatMap_cons, List.length_append, ih, playerBytes, stringBytes_length,
        List.map_cons, List.sum_cons]
      omega

/-- The size the server checks is the size the encoder returns. -/
theorem size_msg (m : ServerFrame) : m.msg.size = m.body.length + 2 := by
  cases m with
  | joinRoomSuccessful players spectators =>
      have hs : (spectators.val.flatMap stringBytes).length
          = (spectators.val.map fun s => s.strlen + 1).sum := by
        simp [List.length_flatMap]
      simp only [ServerFrame.msg, ServerMsg.size, ServerFrame.body, List.length_append,
        List.length_cons, List.length_nil, playerBytes_length, hs, List.map_append,
        List.sum_append]
      omega
  | played side game =>
      simp [ServerFrame.msg, AwaleProtocol.writePlayed, ServerMsg.size, ServerFrame.body,
        boardBytes]
  | gameStopped draw winner =>
      by_cases hd : draw = 0 <;> simp [ServerFrame.msg, ServerMsg.size, ServerFrame.body, hd]
  | message u m =>
      simp only [ServerFrame.msg, ServerMsg.size, ServerFrame.body, List.length_cons,
        List.length_append, stringBytes_length]
      omega
  | _ => simp [ServerFrame.msg, ServerMsg.size, ServerFrame.body, bytesUInt32]

/-- **THE CLIENT OF THE MODEL RECEIVES WHAT THE BYTES SAY.** -/
theorem receive_msg (state : AwaleClient.State) (m : ServerFrame) :
    (serverClientProtocolRead (m.body ++ [0])).map (Option.map (dispatch state))
      = some (some (AwaleClient.receive state m.msg)) := by
  rw [serverClientProtocolRead_body]
  cases m <;> rfl

/-! ## Client to server -/

/-- The encoder of each request. -/
def writeRequest (buf : ByteBuffer) : Request → ByteBuffer × Nat
  | .connect name => writeConnect buf name
  | .createRoom => writeCreateRoom buf
  | .joinRoom roomId spectate => writeJoinRoom buf roomId spectate
  | .play pos => writePlay buf pos
  | .leaveRoom => writeLeaveRoom buf
  | .sendMessage message => writeSendMessage buf message
  | .setBiography biography => writeSetBiography buf biography

/-- **THE CLIENT'S ENCODERS BUILD THE FRAME** of their request. -/
theorem request_frame (buf : ByteBuffer) (q : Request) (h : q.body.length < 65536) :
    writeRequest buf q = frame buf q.body := by
  cases q with
  | connect name => exact writeString_eq _ buf h
  | createRoom => exact writeEmpty_eq _ buf
  | joinRoom roomId spectate =>
      refine Prod.ext ?_ rfl
      show (((writeHeader buf 6 _).storeBytes 3 (bytesUInt32 roomId)).storeByte 7 spectate) = _
      rw [writeHeader_fields, storeByte, storeBytes_append]
      · rfl
      · rfl
  | play pos => exact writeByte_eq _ buf pos
  | leaveRoom => exact writeEmpty_eq _ buf
  | sendMessage message => exact writeString_eq _ buf h
  | setBiography biography => exact writeString_eq _ buf h

/-- **CLIENT-TO-SERVER ROUND TRIP.**  As for the server's frames; `kept` is what the receive
    buffer held, and the list of the handlers the server calls has one entry. -/
theorem request_round_trip (buf : ByteBuffer) (q : Request)
    (h : q.body.length + 2 ≤ bufSize) :
    ∃ (lo hi : UInt8) (body : List UInt8),
      sentBytes (writeRequest buf q) = lo :: hi :: body
        ∧ prefixValue lo hi = body.length
        ∧ (writeRequest buf q).2 = body.length + 2
        ∧ (∀ k, (writeRequest buf q).2 ≤ k → (writeRequest buf q).1 k = buf k)
        ∧ ∀ kept : Buffer, (readRequest (storeBody kept body)).toList = [q] := by
  have hlen : q.body.length < 65536 :=
    Nat.lt_of_lt_of_le (by omega : q.body.length < bufSize) (by decide)
  obtain ⟨lo, hi, hsent, hprefix, hsize, hrest⟩ := framed (request_frame buf q hlen) hlen
  refine ⟨lo, hi, q.body, hsent, hprefix, hsize, hrest, ?_⟩
  intro kept
  rw [readRequest_body kept (by omega)]
  rfl

theorem request_round_trip_spectator :
    ∃ (lo hi : UInt8) (body : List UInt8),
      sentBytes (writeRequest (fun _ => 255) (.joinRoom 305419896 1)) = lo :: hi :: body
        ∧ prefixValue lo hi = body.length
        ∧ (writeRequest (fun _ => 255) (.joinRoom 305419896 1)).2 = body.length + 2
        ∧ (∀ k, (writeRequest (fun _ => 255) (.joinRoom 305419896 1)).2 ≤ k →
            (writeRequest (fun _ => 255) (.joinRoom 305419896 1)).1 k = 255)
        ∧ ∀ kept : Buffer,
            (readRequest (storeBody kept body)).toList = [.joinRoom 305419896 1] :=
  request_round_trip (fun _ => 255) (.joinRoom 305419896 1) (by decide)

end AwaleCodec
