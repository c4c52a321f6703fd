import AwaleOnline.AwaleGameProofs

/-!
# The two wire formats

* **`Request`** — a client-to-server body, as `client_server_protocol_read` dispatches it;
  `readRequest` is that function, on the whole receive buffer, and `Request.body` is what the
  client's encoders put behind the two length bytes;
* **`ServerMsg`** — a server-to-client frame, with the fields its
  `server_client_protocol_write_*` function is given, and `ServerMsg.size`, the number of
  bytes that function writes;
* **`readRequest_body`** — the server decodes what a client encoded, whatever an earlier
  frame left behind it in the buffer.
-/

namespace AwaleProtocol

open AwaleGame

def bufSize : Nat := 1024

/-- A C string literal. -/
def literal (s : String) : CString :=
  CString.ofBytes (s.toList.map fun ch => UInt8.ofNat ch.toNat)

/-! ## Client to server -/

/-- `ClientServerProtocol`, with the arguments of the handlers. -/
inductive Request where
  | connect (name : CString)
  | createRoom
  | joinRoom (roomId : UInt32) (spectate : UInt8)
  | play (pos : UInt8)
  | leaveRoom
  | sendMessage (message : CString)
  | setBiography (biography : CString)
  deriving DecidableEq

abbrev Buffer := Nat → UInt8

/-- A little-endian `uint32_t` in memory. -/
def readUInt32 (buf : Buffer) (off : Nat) : UInt32 :=
  UInt32.ofNat ((buf off).toNat + 256 * (buf (off + 1)).toNat
    + 65536 * (buf (off + 2)).toNat + 16777216 * (buf (off + 3)).toNat)

/-- `client_server_protocol_read`: the request it dispatches, `none` for an unknown type. -/
def readRequest (buf : Buffer) : Option Request :=
  match (buf 0).toNat with
  | 0 => some (.connect (CString.read buf bufSize 1))
  | 1 => some .createRoom
  | 2 => some (.joinRoom (readUInt32 buf 1) (buf 5))
  | 3 => some (.play (buf 1))
  | 4 => some .leaveRoom
  | 5 => some (.sendMessage (CString.read buf bufSize 1))
  | 6 => some (.setBiography (CString.read buf bufSize 1))
  | _ => none

/-- `read_client` on a body: its bytes, the terminating NUL, then what was there before. -/
def storeBody (buf : Buffer) (body : List UInt8) : Buffer :=
  fun k => (body ++ [0])[k]?.getD (buf k)

/-- The little-endian bytes of a `uint32_t`. -/
def bytesUInt32 (n : UInt32) : List UInt8 :=
  [UInt8.ofNat n.toNat, UInt8.ofNat (n.toNat / 256), UInt8.ofNat (n.toNat / 65536),
    UInt8.ofNat (n.toNat / 16777216)]

/-- The body the client's `server_client_protocol_write_*` functions build. -/
def Request.body : Request → List UInt8
  | .connect name => 0 :: (name.chars ++ [0])
  | .createRoom => [1]
  | .joinRoom roomId spectate => 2 :: (bytesUInt32 roomId ++ [spectate])
  | .play pos => [3, pos]
  | .leaveRoom => [4]
  | .sendMessage message => 5 :: (message.chars ++ [0])
  | .setBiography biography => 6 :: (biography.chars ++ [0])

theorem body_length_pos (q : Request) : 0 < q.body.length := by
  cases q <;> simp [Request.body]

private theorem storeBody_string {buf : Buffer} {ty : UInt8} {s : CString}
    (h : s.strlen + 2 < bufSize) :
    CString.read (storeBody buf (ty :: (s.chars ++ [0]))) bufSize 1 = s := by
  refine CString.read_eq ?_ ?_ (by omega)
  · intro k hk
    have hget : (ty :: (s.chars ++ [0]) ++ [0])[1 + k]? = some s.chars[k] := by
      rw [Nat.add_comm, List.cons_append, List.getElem?_cons_succ, List.append_assoc,
        List.getElem?_append_left hk, List.getElem?_eq_getElem hk]
    show ((ty :: (s.chars ++ [0]) ++ [0])[1 + k]?).getD (buf (1 + k)) = s.chars[k]
    rw [hget]
    rfl
  · have hget : (ty :: (s.chars ++ [0]) ++ [0])[1 + s.strlen]? = some 0 := by
      show (ty :: (s.chars ++ [0]) ++ [0])[1 + s.chars.length]? = some 0
      rw [Nat.add_comm, List.cons_append, List.getElem?_cons_succ, List.append_assoc,
        List.getElem?_append_right (Nat.le_refl _), Nat.sub_self]
      rfl
    show ((ty :: (s.chars ++ [0]) ++ [0])[1 + s.strlen]?).getD (buf (1 + s.strlen)) = 0
    rw [hget]
    rfl

theorem uint32_of_bytes (n : UInt32) :
    UInt32.ofNat ((UInt8.ofNat n.toNat).toNat
      + 256 * (UInt8.ofNat (n.toNat / 256)).toNat
      + 65536 * (UInt8.ofNat (n.toNat / 65536)).toNat
      + 16777216 * (UInt8.ofNat (n.toNat / 16777216)).toNat) = n := by
  have hlt : n.toNat < 4294967296 := n.toNat_lt
  apply UInt32.toNat.inj
  simp only [UInt8.toNat_ofNat', UInt32.toNat_ofNat']
  omega

/-- **CLIENT-TO-SERVER DECODING.**  A body that fits the buffer with its NUL is decoded to
    the request it encodes. -/
theorem readRequest_body (buf : Buffer) {q : Request} (h : q.body.length < bufSize) :
    readRequest (storeBody buf q.body) = some q := by
  cases q with
  | connect name =>
      have hs : name.strlen + 2 < bufSize := by simpa [Request.body, CString.strlen] using h
      exact congrArg (fun s => some (Request.connect s)) (storeBody_string hs)
  | createRoom => rfl
  | joinRoom roomId spectate =>
      show some (Request.joinRoom (UInt32.ofNat _) spectate) = _
      exact congrArg (fun n => some (Request.joinRoom n spectate)) (uint32_of_bytes roomId)
  | play pos => rfl
  | leaveRoom => rfl
  | sendMessage message =>
      have hs : message.strlen + 2 < bufSize := by simpa [Request.body, CString.strlen] using h
      exact congrArg (fun s => some (Request.sendMessage s)) (storeBody_string hs)
  | setBiography biography =>
      have hs : biography.strlen + 2 < bufSize := by
        simpa [Request.body, CString.strlen] using h
      exact congrArg (fun s => some (Request.setBiography s)) (storeBody_string hs)

/-! ## Server to client -/

/-- `ServerClientProtocol`, with the arguments of the encoders.  In `joinRoomSuccessful` the
    two counts are the `uint8_t` parameters, `users` and `bios` the strings the loop writes. -/
inductive ServerMsg where
  | connectionSuccessful
  | connectionRefused (errorMessage : CString)
  | roomCreationSuccessful (roomId : UInt32)
  | roomCreationRefused (errorMessage : CString)
  | joinRoomSuccessful (nbUsers nbSpectators : UInt8) (users bios : List CString)
  | joinRoomRefused (errorMessage : CString)
  | played (sScore oScore : UInt8) (board : List UInt8)
  | gameStart (side : UInt8)
  | playerJoinedRoom (username : CString)
  | spectatorJoinedRoom (username : CString)
  | gameStopped (draw : Bool) (winner : CString)
  | message (username message : CString)
  | invalidPlay (errorMessage : CString)
  deriving DecidableEq

/-- The bytes a frame takes in the buffer it is built in, its length prefix included. -/
def ServerMsg.size : ServerMsg → Nat
  | .connectionSuccessful => 3
  | .connectionRefused m => m.strlen + 4
  | .roomCreationSuccessful _ => 7
  | .roomCreationRefused m => m.strlen + 4
  | .joinRoomSuccessful _ _ users bios =>
      ((users ++ bios).map fun s => s.strlen + 1).sum + 5
  | .joinRoomRefused m => m.strlen + 4
  | .played _ _ board => board.length + 5
  | .gameStart _ => 4
  | .playerJoinedRoom u => u.strlen + 4
  | .spectatorJoinedRoom u => u.strlen + 4
  | .gameStopped draw winner => if draw then 4 else winner.strlen + 5
  | .message u m => u.strlen + m.strlen + 5
  | .invalidPlay m => m.strlen + 4

/-- A captured count (`int8_t`) stored in a `uint8_t`. -/
def byteOfCaptured (z : Int) : UInt8 := UInt8.ofNat (z % 256).toNat

/-- `server_client_protocol_write_played`; `side` is `0` or `1`. -/
def writePlayed (side : Nat) (game : Game) : ServerMsg :=
  .played (byteOfCaptured (game.players side).captured)
    (byteOfCaptured (game.players (1 - side)).captured)
    ((List.range boardSize).map fun i =>
      UInt8.ofNat (game.board (house (i + boardSize / 2 * side))))

/-- `server_client_protocol_write_join_room_successful`: the counts are cut to bytes before
    the loop uses them. -/
def writeJoinRoomSuccessful (users : List CString) (nbUsers nbSpectators : Nat)
    (playerBios : List CString) : ServerMsg :=
  let u := UInt8.ofNat nbUsers
  let s := UInt8.ofNat nbSpectators
  .joinRoomSuccessful u s (users.take (u.toNat + s.toNat)) (playerBios.take u.toNat)

end AwaleProtocol
