import AwaleOnline.AwaleFramesProofs
import AwaleOnline.AwaleReceivingProofs
import AwaleOnline.AwaleTurnProofs
import AwaleOnline.SimulationProofs

/-!
# The system over bytes

The connections carry bytes.  A client sends what its encoders store, and the server takes it out
of the stream with the two `recv`s of `read_client`; the server sends what its own encoders store,
and a client takes it out with two `read_server` calls.

* **`step`** — a step of the network: a call says how much each of its two `recv`s returns;
* **`step_related`** — a step whose `recv`s return what they are asked for (`Whole`) is a move of
  the system;
* **`same_runs`** — so the runs with whole `recv`s reach what the runs over messages reach;
* **`reads_safe`** — in those runs neither side leaves its receive buffer, and what a call gets is
  decoded.
-/

namespace AwaleWire

open AwaleGame AwaleProtocol AwaleServer AwaleEffect AwaleBounds AwaleClient AwaleCodec AwaleFrames
  ByteBuffer
open AwaleStream (Side stream)
open AwaleReceiving (filled contents)
open AwaleSystem (System Link Move framesTo deliver)

/-! ## The network -/

/-- A connection, with the bytes on their way to the server and back. -/
structure Wire where
  state : State
  up : List UInt8
  down : List UInt8
  closed : Bool
  deriving DecidableEq

def Wire.fresh : Wire := ⟨.connecting, [], [], false⟩

/-- The wires are found by the descriptor of the server's end. -/
structure Network where
  server : Server
  wire : Int → Wire

def Network.wireOf (net : Network) (c : Nat) : Wire := net.wire (net.server.clients c).sock

def Network.setWire (net : Network) (c : Nat) (w : Wire) : Int → Wire :=
  Function.update net.wire (net.server.clients c).sock w

/-- How many bytes the two `recv`s of a call return. -/
structure Call where
  head : Nat
  body : Nat
  deriving DecidableEq

/-- A `recv` of `n` bytes that returns `k`: it returns `0` when it is asked for none or the other
    side has ended, and blocks when there is nothing. -/
def recv (ended : Bool) (n k : Nat) (l : List UInt8) : Option (List UInt8 × List UInt8) :=
  if k ≤ n ∧ k ≤ l.length ∧ (k = 0 → n = 0 ∨ (l = [] ∧ ended = true)) then
    some (l.take k, l.drop k)
  else none

/-- `*(uint16_t *)buffer`, after the first `recv`. -/
def toRead (side : Side) (buf : ByteBuffer) (head : List UInt8) : Nat :=
  prefixValue (side.readPrefix buf head 0) (side.readPrefix buf head 1)

/-- What a call gets, and what it leaves in the stream. -/
structure Got where
  head : List UInt8
  body : List UInt8
  rest : List UInt8
  deriving DecidableEq

/-- The two `recv`s of `read_client`, and of the client's two `read_server` calls. -/
def call (side : Side) (buf : ByteBuffer) (ended : Bool) (k : Call) (l : List UInt8) :
    Option Got :=
  (recv ended 2 k.head l).bind fun p =>
    (recv ended (toRead side buf p.1) k.body p.2).map fun b => ⟨p.1, b.1, b.2⟩

/-- The frames of a round, each built over what the one before left in the array. -/
def sendAll (buf : ByteBuffer) : List Sent → List (Int × List UInt8)
  | [] => []
  | f :: out => (f.1, sentBytes (encode buf f.2)) :: sendAll (encode buf f.2).1 out

/-- The bytes sent on one descriptor. -/
def bytesTo (sock : Int) (out : List (Int × List UInt8)) : List UInt8 :=
  (out.filter fun p => p.1 = sock).flatMap fun p => p.2

/-- The server's bytes join the streams. -/
def carry (wire : Int → Wire) (out : List (Int × List UInt8)) : Int → Wire := fun sock =>
  { wire sock with down := (wire sock).down ++ bytesTo sock out }

/-- The client is in another state, and has sent some requests.  In `write_server` a `send` that
    `fails` ends the process; it takes a server that has closed its end. -/
def Wire.next (w : Wire) (fails : Bool) (buf : ByteBuffer) (state : State)
    (sent : List Request) : Wire :=
  if fails = true ∧ sent ≠ [] then { w with closed := true }
  else
    { w with
      state := state
      up := w.up ++ sent.flatMap fun q => sentBytes (writeRequest buf q) }

theorem Wire.next_failed {w : Wire} {fails : Bool} {buf : ByteBuffer} {state : State}
    {sent : List Request} (h : fails = true ∧ sent ≠ []) :
    w.next fails buf state sent = { w with closed := true } := if_pos h

theorem Wire.next_sent {fails : Bool} {sent : List Request} (w : Wire) (buf : ByteBuffer)
    (state : State) (h : ¬ (fails = true ∧ sent ≠ [])) :
    (w.next fails buf state sent).state = state
      ∧ (w.next fails buf state sent).down = w.down
      ∧ (w.next fails buf state sent).closed = w.closed := by
  rw [Wire.next, if_neg h]
  exact ⟨rfl, rfl, rfl⟩

/-- Clients are named by their index in the server's table, so the server's end is open when they
    send; `buf` is what the array holds that frames are built in, or that a client receives in. -/
inductive Step where
  | accept (csock : Int)
  | input (c : Nat) (line : CString) (buf : ByteBuffer)
  | read (c : Nat) (k : Call) (rand : UInt32) (buf : ByteBuffer)
  | receive (c : Nat) (k : Call) (buf : ByteBuffer)

/-- A round of the server's loop for a client that talks. -/
def readClient (net : Network) (c : Nat) (k : Call) (rand : UInt32) (buf : ByteBuffer) :
    Option (Network × List Sent) :=
  let w := net.wireOf c
  (call .server net.server.buffer w.closed k w.up).bind fun got =>
    let s := { net.server with buffer := storeBytes net.server.buffer 0 got.head }
    (trans s (if got.body = [] then .disconnect c else .frame c got.body rand)).map fun r =>
      (⟨r.1, carry (net.setWire c { w with up := got.rest }) (sendAll buf r.2)⟩, r.2)

/-- A round of the client's loop for its socket: it ends when a `read_server` returns `0`. -/
def readServer (w : Wire) (k : Call) (buf : ByteBuffer) : Option Wire :=
  (call .client buf false k w.down).bind fun got =>
    if got.head = [] ∨ got.body = [] then some { w with down := got.rest, closed := true }
    else if got.body.length ≥ bufSize then none
    else
      (serverClientProtocolRead (contents (filled .client buf got.head got.body))).map fun h =>
        h.elim { w with down := got.rest } fun handler =>
          let r := dispatch w.state handler
          { w with down := got.rest }.next false buf r.1 r.2

/-- One step, with the messages the server sends. -/
def step (net : Network) : Step → Option (Network × List Sent)
  | .accept csock => (trans net.server (.accept csock)).map fun r =>
      (⟨r.1, Function.update net.wire csock .fresh⟩, [])
  | .input c line buf =>
      let w := net.wireOf c
      if c < net.server.nbClients ∧ w.closed = false then
        match handleUserInput w.state line with
        | .exit => some (⟨net.server, net.setWire c { w with closed := true }⟩, [])
        | .overrun => none
        | .next state sent => some (⟨net.server, net.setWire c (w.next false buf state sent)⟩, [])
      else none
  | .read c k rand buf => readClient net c k rand buf
  | .receive c k buf =>
      if c < net.server.nbClients ∧ (net.wireOf c).closed = false then
        (readServer (net.wireOf c) k buf).map fun w => (⟨net.server, net.setWire c w⟩, [])
      else none

def Initial (net : Network) : Prop :=
  AwaleServer.Initial net.server ∧ net.wire = fun _ => .fresh

/-- The states of the network reached by steps that all meet `C`. -/
abbrev Reachable (C : Network → Step → Prop) : Network → Prop :=
  GuardedRun.Reachable step C Initial

/-- The call whose `recv`s return what they ask for, if there is anything. -/
def wholeCall (l : List UInt8) : Call :=
  if l = [] then ⟨0, 0⟩ else ⟨2, prefixValue (l.getD 0 0) (l.getD 1 0)⟩

/-- **EVERY `recv` IS WHOLE.** -/
def Whole (net : Network) : Step → Prop
  | .read c k _ _ => k = wholeCall (net.wireOf c).up
  | .receive c k _ => k = wholeCall (net.wireOf c).down
  | _ => True

instance (net : Network) : ∀ e, Decidable (Whole net e)
  | .read c k _ _ => inferInstanceAs (Decidable (k = wholeCall (net.wireOf c).up))
  | .receive c k _ => inferInstanceAs (Decidable (k = wholeCall (net.wireOf c).down))
  | .accept _ => isTrue trivial
  | .input _ _ _ => isTrue trivial

variable {s s' : Server} {c i : Nat} {rand : UInt32} {q : Request} {m : ServerMsg} {game : Game}
  {out : List Sent} {side : Side} {buf : ByteBuffer} {l b : List UInt8}

/-! ## What a handler sends is a frame -/

/-- The encoder of `m` is called with the arguments of `f`, and stays in its array. -/
structure Encoded (m : ServerMsg) (f : ServerFrame) : Prop where
  msg : f.msg = m
  write : ∀ buf, encode buf m = f.write buf
  fits : f.body.length + 2 ≤ bufSize

/-- A frame by its message. -/
theorem Encoded.of_msg (f : ServerFrame) (hsize : f.msg.size ≤ bufSize)
    (hwrite : ∀ buf, encode buf f.msg = f.write buf) : Encoded f.msg f where
  msg := rfl
  write := hwrite
  fits := size_msg f ▸ hsize

theorem encoded_played {side : Nat} (hside : side < 2) (game : Game) :
    ∃ f, Encoded (AwaleProtocol.writePlayed side game) f := by
  obtain ⟨hle, heq⟩ := played_fits side game fun _ => 0
  exact ⟨_, .of_msg (.played ⟨side, hside⟩ game) (heq ▸ hle) fun buf => encode_played buf side game⟩

theorem encoded_stopped {draw : Bool} {winner : CString}
    (hsize : (ServerMsg.gameStopped draw winner).size ≤ bufSize) :
    ∃ f, Encoded (.gameStopped draw winner) f := by
  cases draw with
  | true => exact ⟨_, .of_msg (.gameStopped 1 winner) hsize fun _ => rfl⟩
  | false => exact ⟨_, .of_msg (.gameStopped 0 winner) hsize fun _ => rfl⟩

/-- The arrays of a room of two seats. -/
theorem encoded_join {nbUsers nbSpectators : UInt8} {users bios : List CString}
    (h : Counted (.joinRoomSuccessful nbUsers nbSpectators users bios)) (hseats : nbUsers.toNat ≤ 2)
    (hsize : (ServerMsg.joinRoomSuccessful nbUsers nbSpectators users bios).size ≤ bufSize) :
    ∃ f, Encoded (.joinRoomSuccessful nbUsers nbSpectators users bios) f := by
  obtain ⟨husers, hbios⟩ := h
  have htake : (users.take nbUsers.toNat).length = bios.length := by
    rw [List.length_take]
    omega
  have hzip : ((users.take nbUsers.toNat).zip bios).length = nbUsers.toNat := by
    rw [List.length_zip, htake, Nat.min_self, hbios]
  have hdrop : (users.drop nbUsers.toNat).length = nbSpectators.toNat := by
    rw [List.length_drop]
    omega
  have hspectators : (users.drop nbUsers.toNat).length ≤ 255 := by
    have hlt := nbSpectators.toNat_lt
    omega
  have hmsg : (ServerFrame.joinRoomSuccessful ⟨(users.take nbUsers.toNat).zip bios, by omega⟩
      ⟨users.drop nbUsers.toNat, hspectators⟩).msg
        = .joinRoomSuccessful nbUsers nbSpectators users bios := by
    simp only [ServerFrame.msg, hzip, hdrop, UInt8.ofNat_toNat]
    rw [List.map_fst_zip (Nat.le_of_eq htake), List.map_snd_zip (Nat.le_of_eq htake.symm),
      List.take_append_drop]
  rw [← hmsg] at hsize ⊢
  exact ⟨_, .of_msg _ hsize fun _ => rfl⟩

theorem encoded_joinRoomFrame (hseats : game.nbPlayers ≤ 2)
    (h : joinRoomFrame s game = .ok m) : ∃ f, Encoded m f := by
  have hsize : m.size ≤ bufSize := by
    simp only [joinRoomFrame] at h
    split_ifs at h with _ _ _ hlarge
    obtain rfl := Except.ok.inj h
    exact Nat.le_of_not_lt hlarge
  obtain rfl := joinRoomFrame_msg h
  have hcounted := joinMsg_counted (s := s) hseats
  rw [joinMsg_eq hseats] at hcounted hsize ⊢
  exact encoded_join hcounted (by rw [seats_toNat hseats]; exact hseats) hsize

theorem encoded_start (pos : UInt8) : ∃ f, Encoded (.gameStart pos) f :=
  ⟨_, .of_msg (.gameStart pos) (show 4 ≤ bufSize by decide) fun _ => rfl⟩

theorem replies_encoded {pos : UInt8} (hseats : (s.rooms i).game.nbPlayers ≤ 2) :
    ∀ f ∈ replies s c i pos, ∃ f', Encoded f.2 f' := by
  intro f hf
  have hbuilt := replies_built hf
  have htwo : (playIn s c i pos).1.nbPlayers ≤ 2 := (play_frame s c i pos).1 ▸ hseats
  simp only [builtReplies] at hbuilt
  split at hbuilt
  · rcases List.mem_append.mp hbuilt with hmem | hmem
    · obtain ⟨j, hj, heq⟩ := List.mem_map.mp hmem
      rw [← heq]
      exact encoded_played (Nat.lt_of_lt_of_le (List.mem_range.mp hj) htwo) _
    · obtain ⟨-, -, heq⟩ := List.mem_map.mp hmem
      rw [← heq]
      exact encoded_played Nat.zero_lt_two _
  · rw [List.mem_singleton.mp hbuilt]
    refine ⟨_, .of_msg (.invalidPlay (invalidPlayText (playIn s c i pos).2)) ?_ fun _ => rfl⟩
    cases (playIn s c i pos).2 <;> decide

/-- **WHAT A HANDLER SENDS IS A FRAME**, when the handler returns. -/
theorem sent_encoded (hsized : ∀ k, Sized (s.rooms k).game) (heff : Effect s c rand q s' out)
    (hok : handleRequest s c rand q ≠ .error .buffer) : ∀ f ∈ out, ∃ f', Encoded f.2 f' := by
  have hanswer : ∀ {x : Int} {m : ServerMsg}, (∃ f', Encoded m f') →
      ∀ f ∈ writeClient x m, ∃ f', Encoded f.2 f' := by
    intro x m hm f hf
    rw [(mem_writeClient.mp hf).2]
    exact hm
  cases heff with
  | nameRefused _ =>
      exact hanswer ⟨_, .of_msg (.connectionRefused (literal "Error: Name already in use."))
        (by decide) fun _ => rfl⟩
  | named _ _ => exact hanswer ⟨_, .of_msg .connectionSuccessful (by decide) fun _ => rfl⟩
  | @resumed name i j m _ hseat hresume =>
      have hseats : (setPlayerId (s.rooms i).game j (s.clients c).sock).nbPlayers ≤ 2 :=
        (hsized i).seats
      have hj : j < 2 := Nat.lt_of_lt_of_le (findSeat_some hseat).2.1 (hsized i).seats
      cases hresume with
      | waiting _ hframe => exact hanswer (encoded_joinRoomFrame hseats hframe)
      | toMove _ _ => exact hanswer (encoded_played hj _)
      | toWait _ _ => exact hanswer (encoded_start 1)
  | created _ _ =>
      exact hanswer ⟨_, .of_msg (.roomCreationSuccessful rand) (show 7 ≤ bufSize by decide)
        fun _ => rfl⟩
  | joinNotFound _ =>
      exact hanswer ⟨_, .of_msg (.joinRoomRefused (literal "Error: Room not found."))
        (by decide) fun _ => rfl⟩
  | joinFull _ _ =>
      exact hanswer ⟨_, .of_msg (.joinRoomRefused
        (literal "Error: The room is full. Try to spectate instead.")) (by decide) fun _ => rfl⟩
  | @joined roomId spectate i frame _ hopen hframe _ =>
      exact hanswer (encoded_joinRoomFrame (added_counts (hsized i) _ hopen).1 hframe)
  | @started roomId spectate i frame _ hopen hframe _ =>
      refine List.forall_mem_append.mpr ⟨hanswer (encoded_joinRoomFrame
        (added_counts (hsized i) _ hopen).1 hframe), fun f hf => ?_⟩
      obtain ⟨j, -, hmem⟩ := List.mem_flatMap.mp hf
      exact hanswer (encoded_start (UInt8.ofNat j)) f hmem
  | playedNowhere _ => exact List.forall_mem_nil _
  | @played pos i _ _ => exact replies_encoded (hsized i).seats
  | @playedLast pos i hfind hend =>
      have hstopped : ∃ f', Encoded (.gameStopped (gameIsEnded (playIn s c i pos).1 = .draw)
          (winnerName (playIn s c i pos).1 (gameIsEnded (playIn s c i pos).1))) f' := by
        refine encoded_stopped (Nat.le_of_not_lt fun hlarge => hok ?_)
        simp only [handleRequest, handlePlay_eq hfind]
        rw [if_pos hend, if_pos hlarge]
      exact List.forall_mem_append.mpr ⟨List.forall_mem_append.mpr
        ⟨replies_encoded (hsized i).seats, hanswer hstopped⟩, hanswer hstopped⟩
  | closed _ _ _ _ =>
      intro f hf
      obtain ⟨_, -, -, -, -, heq⟩ := AwaleStanding.mem_leaveFrames hf
      rw [heq]
      exact encoded_stopped (by decide)
  | unwatched _ _ _ _ _ => exact List.forall_mem_nil _
  | leftNothing _ _ _ _ _ => exact List.forall_mem_nil _
  | @messaged message _ _ _ =>
      intro f hf
      rw [AwaleStanding.mem_messageFrames hf]
      refine ⟨_, .of_msg (.message (s.clients c).name message)
        (Nat.le_of_not_lt fun hlarge => hok ?_) fun _ => rfl⟩
      simp only [handleRequest, handleSendMessage]
      exact if_pos hlarge
  | described => exact List.forall_mem_nil _

/-! ## Whole calls -/

theorem stream_cons (b : List UInt8) (bs : List (List UInt8)) :
    stream (b :: bs) = bytesUInt16 (UInt16.ofNat b.length) ++ (b ++ stream bs) := by
  rw [stream, List.flatMap_cons, List.append_assoc]
  rfl

theorem stream_append (bs bs' : List (List UInt8)) :
    stream (bs ++ bs') = stream bs ++ stream bs' := List.flatMap_append

theorem stream_ne_nil (b : List UInt8) (bs : List (List UInt8)) : stream (b :: bs) ≠ [] := by
  rw [stream_cons]
  exact List.cons_ne_nil _ _

theorem recv_whole {ended : Bool} {n : Nat} {l l' : List UInt8} (hn : n = l.length) (hpos : n ≠ 0) :
    recv ended n n (l ++ l') = some (l, l') := by
  have hle : n ≤ (l ++ l').length := by
    rw [List.length_append]
    omega
  rw [recv, if_pos ⟨Nat.le_refl _, hle, fun h => absurd h hpos⟩, hn, List.take_left, List.drop_left]

/-- A call in front of a frame gets the frame. -/
theorem call_frame {ended : Bool} {bs : List (List UInt8)} (hb : b ≠ [])
    (hlen : b.length < bufSize) :
    call side buf ended (wholeCall (stream (b :: bs))) (stream (b :: bs))
      = some ⟨bytesUInt16 (UInt16.ofNat b.length), b, stream bs⟩ := by
  have hlen' : b.length < 65536 := Nat.lt_trans hlen (by decide)
  have hwhole : wholeCall (stream (b :: bs)) = ⟨2, b.length⟩ := by
    rw [wholeCall, if_neg (stream_ne_nil b bs), stream_cons]
    exact congrArg (Call.mk 2) (prefixValue_ofNat hlen')
  have hread : toRead side buf (bytesUInt16 (UInt16.ofNat b.length)) = b.length :=
    AwaleStream.readPrefix_value side buf hlen'
  have hhead : recv ended 2 2 (bytesUInt16 (UInt16.ofNat b.length) ++ (b ++ stream bs))
      = some (bytesUInt16 (UInt16.ofNat b.length), b ++ stream bs) :=
    recv_whole rfl (by decide)
  have hbody : recv ended b.length b.length (b ++ stream bs) = some (b, stream bs) :=
    recv_whole rfl (by simpa using hb)
  rw [hwhole, call, stream_cons, hhead, Option.bind_some, hread, hbody, Option.map_some]

/-- A call in front of nothing blocks, unless the other side has ended. -/
theorem call_nil (ended : Bool) :
    call side buf ended ⟨0, 0⟩ [] = if ended = true then some ⟨[], [], []⟩ else none := by
  cases ended with
  | true => simp [call, recv]
  | false => simp [call, recv]

/-! ## The frames of a queue -/

/-- The bytes are the frames of the messages. -/
def Frames (l : List UInt8) (ms : List ServerMsg) : Prop :=
  ∃ fs : List ServerFrame, fs.map ServerFrame.msg = ms ∧ l = stream (fs.map ServerFrame.body)
    ∧ ∀ f ∈ fs, f.body.length + 2 ≤ bufSize

theorem frames_nil : Frames [] [] := ⟨[], rfl, rfl, List.forall_mem_nil _⟩

theorem Frames.append {l' : List UInt8} {ms ms' : List ServerMsg} (h : Frames l ms)
    (h' : Frames l' ms') : Frames (l ++ l') (ms ++ ms') := by
  obtain ⟨fs, rfl, rfl, hfits⟩ := h
  obtain ⟨fs', rfl, rfl, hfits'⟩ := h'
  refine ⟨fs ++ fs', List.map_append, ?_, List.forall_mem_append.mpr ⟨hfits, hfits'⟩⟩
  rw [List.map_append, stream_append]

/-- The oldest message of a queue. -/
theorem frames_cons {ms : List ServerMsg} (h : Frames l (m :: ms)) :
    ∃ (f : ServerFrame) (bs : List (List UInt8)), f.msg = m ∧ l = stream (f.body :: bs)
      ∧ f.body.length + 2 ≤ bufSize ∧ Frames (stream bs) ms := by
  obtain ⟨fs, hmsgs, rfl, hfits⟩ := h
  obtain ⟨f, fs, rfl, hf, hms⟩ := List.map_eq_cons_iff.mp hmsgs
  obtain ⟨hfit, hfits⟩ := List.forall_mem_cons.mp hfits
  exact ⟨f, _, hf, rfl, hfit, fs, hms, rfl, hfits⟩

theorem eq_nil_of_frames (h : Frames l []) : l = [] := by
  obtain ⟨fs, hmsgs, rfl, -⟩ := h
  rw [List.map_eq_nil_iff.mp hmsgs]
  rfl

theorem encode_encoded {f : ServerFrame} (h : Encoded m f) (buf : ByteBuffer) :
    sentBytes (encode buf m) = stream [f.body] := by
  have hlen : f.body.length < 65536 := Nat.lt_of_lt_of_le
    (show f.body.length < 1024 from Nat.lt_of_lt_of_le (by omega) h.fits) (by decide)
  rw [h.write, server_frame buf f hlen, sentBytes_frame, stream_cons]
  exact congrArg _ (List.append_nil _).symm

/-- What a round sends on one descriptor, by induction on its frames. -/
theorem sendAll_frames (sock : Int) (out : List Sent) :
    ∀ buf : ByteBuffer, (∀ f ∈ out, ∃ f', Encoded f.2 f') →
      Frames (bytesTo sock (sendAll buf out)) (framesTo sock out) := by
  induction out with
  | nil =>
      intro buf _
      exact frames_nil
  | cons f out ih =>
      intro buf h
      obtain ⟨⟨f', hf'⟩, hout⟩ := List.forall_mem_cons.mp h
      have hrest := ih (encode buf f.2).1 hout
      by_cases hsock : f.1 = sock
      · have hframe : Frames (sentBytes (encode buf f.2)) [f.2] :=
          ⟨[f'], by rw [List.map_singleton, hf'.msg], encode_encoded hf' buf,
            List.forall_mem_singleton.mpr hf'.fits⟩
        have hall := hframe.append hrest
        simpa [bytesTo, sendAll, framesTo, hsock] using hall
      · simpa [bytesTo, sendAll, framesTo, hsock] using hrest

/-! ## Reading a frame -/

/-- A body stands in the buffer with a NUL behind it. -/
theorem contents_filled (hlen : b.length < bufSize) (head : List UInt8) :
    ∃ tail, contents (filled side buf head b) = b ++ [0] ++ tail := by
  have hle : (b ++ [(0 : UInt8)]).length ≤ bufSize := by
    rw [List.length_append, List.length_singleton]
    exact hlen
  refine ⟨(contents (filled side buf head b)).drop (b ++ [0]).length, ?_⟩
  have htake : (contents (filled side buf head b)).take (b ++ [0]).length = b ++ [0] := by
    refine List.ext_getElem ?_ fun k h1 h2 => ?_
    · rw [List.length_take, AwaleReceiving.contents_length, Nat.min_eq_left hle]
    · have hat := storeBytes_at (side.readPrefix buf head) 0 _ h2
      rw [Nat.zero_add] at hat
      rw [List.getElem_take]
      simpa [contents, filled] using hat
  calc contents (filled side buf head b)
      = _ := (List.take_append_drop (b ++ [0]).length _).symm
    _ = _ := by rw [htake]

/-- The decoder looks at nothing behind what it reads. -/
theorem serverClientProtocolRead_local : Local fun l _ => serverClientProtocolRead l := by
  have hbyte : ∀ k, Local fun l _ => l[k]? := fun k => byte_local.moved fun _ => k
  have hstring : ∀ k, Local fun l _ => stringAt l k := fun k => stringAt_local.moved fun _ => k
  have hbytes : ∀ k n, Local fun l _ => bytesAt l k n :=
    fun k n => (bytesAt_local n).moved fun _ => k
  have htext : ∀ (k : Nat) (f : CString → HandlerCall),
      Local fun l _ => (stringAt l k).map fun str => some (f str) :=
    fun k f => (hstring k).map fun _ str => some (f str)
  have hconst : ∀ {α : Type} (r : Option α), Local fun _ _ => r := fun _ => ⟨fun h _ => h⟩
  have hplayer := nextString_local.bind fun user =>
    (nextString_local.moved fun _ => user.2).map fun _ bio => ((user.1, bio.1), bio.2)
  refine (hbyte 0).bind fun type => ?_
  cases ServerClientProtocol.ofByte type with
  | none => exact hconst _
  | some type =>
      cases type with
      | connectionSuccessful => exact hconst _
      | connectionRefused => exact htext 1 .connectionRefused
      | roomCreationSuccessful =>
          exact ((hbytes 1 4).map fun _ bs => readUInt32 (fun k => bs.getD k 0) 0).map
            fun _ n => some (HandlerCall.roomCreationSuccessful n)
      | roomCreationRefused => exact htext 1 .roomCreationRefused
      | joinRoomSuccessful =>
          refine Local.map ?_ fun _ call => some call
          refine (hbyte 1).bind fun nbUsers => (hbyte 2).bind fun nbSpectators => ?_
          split
          · exact hconst _
          · exact ((hplayer.readN nbUsers.toNat).moved fun _ => 3).bind fun players =>
              ((nextString_local.readN nbSpectators.toNat).moved fun _ => players.2).bind
                fun _ => hconst _
      | joinRoomRefused => exact htext 1 .joinRoomRefused
      | played =>
          exact (hbyte 1).bind fun sScore => (hbyte 2).bind fun oScore =>
            (hbytes 3 boardSize).bind fun _ => hconst _
      | gameStart => exact (hbyte 1).map fun _ pos => some (HandlerCall.gameStart pos)
      | playerJoinedRoom => exact htext 1 .playerJoinedRoom
      | spectatorJoinedRoom => exact htext 1 .spectatorJoinedRoom
      | gameStopped =>
          exact (hbyte 1).bind fun draw => (hstring 2).bind fun _ => hconst _
      | message =>
          exact (hstring 1).bind fun username =>
            (hstring (2 + username.strlen)).bind fun _ => hconst _
      | invalidPlay => exact htext 1 .invalidPlay

/-- A message is read from the whole buffer as from its body. -/
theorem frame_read {f : ServerFrame} (hlen : f.body.length < bufSize) (buf : ByteBuffer)
    (head : List UInt8) :
    serverClientProtocolRead (contents (filled .client buf head f.body)) = some (some f.call) := by
  obtain ⟨tail, htail⟩ := @contents_filled .client buf f.body hlen head
  rw [htail]
  exact @Local.keep _ _ serverClientProtocolRead_local _ 0 _ (serverClientProtocolRead_body f) tail

theorem dispatch_call (state : State) (f : ServerFrame) :
    dispatch state f.call = AwaleClient.receive state f.msg := by
  have h := receive_msg state f
  rw [serverClientProtocolRead_body] at h
  exact Option.some.inj (Option.some.inj h)

/-- The prefix is written over by the body. -/
theorem storeBody_head {head : List UInt8} (hhead : head.length ≤ 2) (hb : b ≠ []) :
    storeBody (storeBytes buf 0 head) b = storeBody buf b := by
  funext k
  have hpos : 0 < b.length := List.length_pos_iff.mpr hb
  by_cases hk : k < (b ++ [(0 : UInt8)]).length
  · simp only [storeBody, List.getElem?_eq_getElem hk, Option.getD_some]
  · rw [List.length_append, List.length_singleton] at hk
    simp only [storeBody]
    rw [storeBytes_off _ _ _ (by omega)]

/-- The server handles the body of a frame as if there had been no prefix. -/
theorem trans_head {head : List UInt8} (hhead : head.length ≤ 2) (hb : b ≠ []) :
    trans { s with buffer := storeBytes s.buffer 0 head } (.frame c b rand)
      = trans s (.frame c b rand) := by
  have hstep : AwaleServer.step { s with buffer := storeBytes s.buffer 0 head } (.frame c b rand)
      = AwaleServer.step s (.frame c b rand) := by
    simp only [AwaleServer.step, readFrame, storeBody_head hhead hb]
  simp only [AwaleServer.trans, hstep]
  rfl

/-! ## The relation -/

/-- A wire with the frames of what is in flight on a link. -/
structure WireCarries (w : Wire) (k : Link) : Prop where
  state : w.state = k.state
  closed : w.closed = k.closed
  up : w.up = stream (k.up.map Request.body)
  fits : ∀ q ∈ k.up, q.body.length + 2 ≤ bufSize
  down : Frames w.down k.down

/-- **THE NETWORK CARRIES THE SYSTEM.** -/
structure Carries (net : Network) (sys : System) : Prop where
  server : net.server = sys.server
  wires : ∀ sock, WireCarries (net.wire sock) (sys.link sock)

/-- The move a step makes: a call in front of nothing finds the end of the connection. -/
def moveOf (net : Network) : Step → Move
  | .accept csock => .accept csock
  | .input c line _ => .input c line
  | .read c _ rand _ => if (net.wireOf c).up = [] then .hangUp c else .serve c rand
  | .receive c _ _ => .receive c

variable {net net' : Network} {sys sys' : System}

theorem fresh_carries : WireCarries .fresh .fresh :=
  ⟨rfl, rfl, rfl, List.forall_mem_nil _, frames_nil⟩

theorem Carries.at (h : Carries net sys) (c : Nat) :
    WireCarries (net.wireOf c) (sys.linkOf c) := by
  show WireCarries (net.wire (net.server.clients c).sock) _
  rw [h.server]
  exact h.wires _

/-- One wire changes, as its link does. -/
theorem Carries.set (h : Carries net sys) (c : Nat) {w : Wire} {k : Link}
    (hw : WireCarries w k) (sock : Int) :
    WireCarries (net.setWire c w sock) (sys.setLink c k sock) := by
  show WireCarries (Function.update net.wire (net.server.clients c).sock w sock)
    (Function.update sys.link (sys.server.clients c).sock k sock)
  rw [h.server]
  by_cases hsock : sock = (sys.server.clients c).sock
  · rw [hsock, Function.update_self, Function.update_self]
    exact hw
  · rw [Function.update_of_ne hsock, Function.update_of_ne hsock]
    exact h.wires sock

/-- A client that goes on sends the frames of its requests. -/
theorem WireCarries.next {w : Wire} {k : Link} (h : WireCarries w k) (buf : ByteBuffer)
    (state : State) {sent : List Request} (hfits : ∀ q ∈ sent, q.body.length + 2 ≤ bufSize) :
    WireCarries (w.next false buf state sent) { k with state := state, up := k.up ++ sent } where
  state := rfl
  closed := h.closed
  fits := List.forall_mem_append.mpr ⟨h.fits, hfits⟩
  down := h.down
  up := by
    have hlen : ∀ q ∈ sent, q.body.length < 65536 := fun q hq =>
      Nat.lt_of_lt_of_le (Nat.lt_of_lt_of_le (by omega) (hfits q hq)) (by decide)
    show w.up ++ _ = _
    rw [h.up, AwaleStream.stream_requests buf sent hlen, List.map_append, stream_append]

/-- The oldest request of a client. -/
theorem WireCarries.up_cons {w : Wire} {k : Link} (h : WireCarries w k) {up : List Request}
    (hup : k.up = q :: up) :
    w.up = stream (q.body :: up.map Request.body) ∧ q.body ≠ [] ∧ q.body.length < bufSize
      ∧ ∀ q' ∈ up, q'.body.length + 2 ≤ bufSize := by
  have hfits := h.fits
  rw [hup] at hfits
  obtain ⟨hfit, hfits⟩ := List.forall_mem_cons.mp hfits
  refine ⟨?_, List.length_pos_iff.mp (body_length_pos q), by omega, hfits⟩
  rw [h.up, hup]
  rfl

theorem up_nil_iff {w : Wire} {k : Link} (h : WireCarries w k) : w.up = [] ↔ k.up = [] := by
  rw [h.up]
  cases k.up with
  | nil => exact iff_of_true rfl rfl
  | cons q up => exact iff_of_false (stream_ne_nil _ _) (List.cons_ne_nil _ _)

/-! ## A step is a move -/

/-- Matched steps send the same messages and lead to matched states. -/
def Matched (r : Network × List Sent) (t : System × List Sent) : Prop :=
  r.2 = t.2 ∧ Carries r.1 t.1

theorem accept_related (h : Carries net sys) (csock : Int) :
    Option.Rel Matched (step net (.accept csock)) (AwaleSystem.move sys (.accept csock)) := by
  simp only [step, AwaleSystem.move, AwaleSystem.accept, h.server]
  cases trans sys.server (.accept csock) with
  | none => exact .none
  | some r =>
      refine .some ⟨rfl, rfl, fun sock => ?_⟩
      show WireCarries (Function.update net.wire csock .fresh sock)
        (Function.update sys.link csock .fresh sock)
      by_cases hsock : sock = csock
      · rw [hsock, Function.update_self, Function.update_self]
        exact fresh_carries
      · rw [Function.update_of_ne hsock, Function.update_of_ne hsock]
        exact h.wires sock

theorem input_related (h : Carries net sys) (c : Nat) (line : CString) (buf : ByteBuffer) :
    Option.Rel Matched (step net (.input c line buf)) (AwaleSystem.move sys (.input c line)) := by
  have hw := h.at c
  simp only [step, AwaleSystem.move, AwaleSystem.input, h.server, hw.state, hw.closed]
  split
  · cases hin : handleUserInput (sys.linkOf c).state line with
    | exit => exact .some ⟨rfl, rfl, h.set c ⟨rfl, rfl, hw.up, hw.fits, hw.down⟩⟩
    | overrun => exact .none
    | next state sent =>
        refine .some ⟨rfl, rfl, h.set c ?_⟩
        exact hw.next buf state (handleUserInput_typed hin).2
  · exact .none

/-- What is sent joins the streams as it joins the queues. -/
theorem WireCarries.carry {wire : Int → Wire} {link : Int → Link}
    (h : ∀ sock, WireCarries (wire sock) (link sock)) (buf : ByteBuffer)
    (hout : ∀ f ∈ out, ∃ f', Encoded f.2 f') (sock : Int) :
    WireCarries (carry wire (sendAll buf out) sock) (deliver link out sock) where
  state := (h sock).state
  closed := (h sock).closed
  up := (h sock).up
  fits := (h sock).fits
  down := (h sock).down.append (sendAll_frames sock out buf hout)

theorem deliver_nil (link : Int → Link) : deliver link [] = link := by
  funext sock
  simp [deliver]

/-- The end of a connection. -/
theorem ended_related (h : Carries net sys) (hup : (sys.linkOf c).up = []) (rand : UInt32)
    (buf : ByteBuffer) :
    Option.Rel Matched (step net (.read c ⟨0, 0⟩ rand buf)) (AwaleSystem.move sys (.hangUp c)) := by
  have hw := h.at c
  have hnil : (net.wireOf c).up = [] := by
    rw [hw.up, hup]
    rfl
  simp only [step, readClient, AwaleSystem.move, AwaleSystem.hangUp, hnil, hup, call_nil, hw.closed]
  cases hclosed : (sys.linkOf c).closed with
  | false => exact .none
  | true =>
      simp only [if_true, Option.bind_some, storeBytes_nil, h.server, and_self]
      cases ht : AwaleServer.trans sys.server (.disconnect c) with
      | none => exact .none
      | some r =>
          obtain ⟨-, hs⟩ := trans_eq_some ht
          obtain ⟨s₁, -, -, hout⟩ := step_cases hs
          have hw' : WireCarries { net.wireOf c with up := [], closed := true } (sys.linkOf c) :=
            ⟨hw.state, hclosed.symm, hnil.symm.trans hw.up, hw.fits, hw.down⟩
          have hset : sys.setLink c (sys.linkOf c) = sys.link := Function.update_eq_self _ _
          have hall := WireCarries.carry (h.set c hw') buf (List.forall_mem_nil _)
          rw [hset, deliver_nil, ← hout] at hall
          exact .some ⟨hout, rfl, hall⟩

/-- A request is read, decoded and handled. -/
theorem served_related {C : System → Move → Prop} (hr : AwaleSystem.Reachable C sys)
    (h : Carries net sys) {up : List Request} (hup : (sys.linkOf c).up = q :: up) (rand : UInt32)
    (buf : ByteBuffer) :
    Option.Rel Matched (step net (.read c (wholeCall (net.wireOf c).up) rand buf))
      (AwaleSystem.move sys (.serve c rand)) := by
  have hw := h.at c
  obtain ⟨hbytes, hbody, hlen, hfits⟩ := hw.up_cons hup
  have hhead : (bytesUInt16 (UInt16.ofNat q.body.length)).length ≤ 2 := Nat.le_refl _
  simp only [step, readClient, AwaleSystem.move, AwaleSystem.serve, hbytes, hup,
    call_frame hbody hlen, Option.bind_some, if_neg hbody, h.server, trans_head hhead hbody]
  cases ht : AwaleServer.trans sys.server (.frame c q.body rand) with
  | none => exact .none
  | some r =>
      have hw' : WireCarries { net.wireOf c with up := stream (up.map Request.body) }
          { sys.linkOf c with up := up } := ⟨hw.state, hw.closed, rfl, hfits, hw.down⟩
      obtain ⟨-, hs⟩ := trans_eq_some ht
      have hread : readRequest (received sys.server q.body).buffer = some q :=
        readRequest_body _ hlen
      obtain ⟨-, ⟨hnone, -⟩ | ⟨q', hq', heff⟩⟩ := step_cases hs
      · rw [hread] at hnone
        cases hnone
      obtain rfl := Option.some.inj (hread.symm.trans hq')
      have hok : handleRequest (received sys.server q.body) c rand q ≠ .error .buffer := by
        rw [← step_request hlen hread, hs]
        exact ok_ne_buffer
      have hsized : ∀ k, Sized (sys.server.rooms k).game :=
        sized_reachable (AwaleSystem.server_reachable hr)
      have hframes := sent_encoded (s := received sys.server q.body) hsized heff hok
      exact .some ⟨rfl, rfl, WireCarries.carry (h.set c hw') buf hframes⟩

/-- A frame is read, decoded and dispatched. -/
theorem receive_related (h : Carries net sys) (c : Nat) (buf : ByteBuffer) :
    Option.Rel Matched (step net (.receive c (wholeCall (net.wireOf c).down) buf))
      (AwaleSystem.move sys (.receive c)) := by
  have hw := h.at c
  simp only [step, AwaleSystem.move, AwaleSystem.receiveFrame, h.server, hw.closed]
  split
  · cases hdown : (sys.linkOf c).down with
    | nil =>
        have hnil : (net.wireOf c).down = [] := eq_nil_of_frames (hdown ▸ hw.down)
        simp only [readServer, hnil]
        exact .none
    | cons m down =>
        obtain ⟨f, bs, rfl, hbytes, hfits, hrest⟩ := frames_cons (hdown ▸ hw.down)
        have hlen : f.body.length < bufSize := by omega
        have hbody : f.body ≠ [] := List.length_pos_iff.mp f.body_length_pos
        have hhead : bytesUInt16 (UInt16.ofNat f.body.length) ≠ [] := List.cons_ne_nil _ _
        have hsilent : ∀ q ∈ (AwaleClient.receive (sys.linkOf c).state f.msg).2,
            q.body.length + 2 ≤ bufSize := by
          rw [receive_silent]
          exact List.forall_mem_nil _
        have hw' : WireCarries { net.wireOf c with down := stream bs }
            { sys.linkOf c with down := down } := ⟨hw.state, hw.closed, hw.up, hw.fits, hrest⟩
        simp only [readServer, hbytes, call_frame hbody hlen, Option.bind_some, hhead, hbody,
          or_self, if_false, Nat.not_le.mpr hlen, ge_iff_le, frame_read hlen, Option.map_some,
          Option.elim_some, hw.state, dispatch_call]
        exact .some ⟨rfl, rfl, h.set c (hw'.next buf _ hsilent)⟩
  · exact .none

/-- **A STEP WITH WHOLE `recv`S IS A MOVE**: the one is possible when the other is, with the same
    messages, and they lead to related states. -/
theorem step_related {C : System → Move → Prop} (hr : AwaleSystem.Reachable C sys)
    (h : Carries net sys) {e : Step} (hwhole : Whole net e) :
    Option.Rel Matched (step net e) (AwaleSystem.move sys (moveOf net e)) := by
  cases e with
  | accept csock => exact accept_related h csock
  | input c line buf => exact input_related h c line buf
  | read c k rand buf =>
      have hk : k = wholeCall (net.wireOf c).up := hwhole
      have hnil := up_nil_iff (h.at c)
      cases hup : (sys.linkOf c).up with
      | nil =>
          have hmove : moveOf net (.read c k rand buf) = .hangUp c := if_pos (hnil.mpr hup)
          rw [hmove, hk, hnil.mpr hup]
          exact ended_related h hup rand buf
      | cons q up =>
          have hne : (net.wireOf c).up ≠ [] := fun h0 => by
            rw [hnil.mp h0] at hup
            cases hup
          have hmove : moveOf net (.read c k rand buf) = .serve c rand := if_neg hne
          rw [hmove, hk]
          exact served_related hr h hup rand buf
  | receive c k buf =>
      have hk : k = wholeCall (net.wireOf c).down := hwhole
      rw [hk]
      exact receive_related h c buf

/-- Every move is such a step. -/
theorem move_step (h : Carries net sys) {e : Move} {t : System × List Sent}
    (hmove : AwaleSystem.move sys e = some t) : ∃ e', Whole net e' ∧ moveOf net e' = e := by
  cases e with
  | accept csock => exact ⟨.accept csock, trivial, rfl⟩
  | input c line => exact ⟨.input c line fun _ => 0, trivial, rfl⟩
  | serve c rand =>
      refine ⟨.read c (wholeCall (net.wireOf c).up) rand fun _ => 0, rfl, if_neg fun h0 => ?_⟩
      simp only [AwaleSystem.move, AwaleSystem.serve, (up_nil_iff (h.at c)).mp h0] at hmove
      cases hmove
  | receive c => exact ⟨.receive c (wholeCall (net.wireOf c).down) fun _ => 0, rfl, rfl⟩
  | hangUp c =>
      refine ⟨.read c (wholeCall (net.wireOf c).up) 0 fun _ => 0, rfl, if_pos ?_⟩
      refine (up_nil_iff (h.at c)).mpr ?_
      simp only [AwaleSystem.move, AwaleSystem.hangUp] at hmove
      split at hmove
      · rename_i hend
        exact hend.2
      · cases hmove

/-! ## Runs -/

/-- The steps with whole `recv`s whose moves meet `C`. -/
def Lifted (C : System → Move → Prop) (net : Network) (e : Step) : Prop :=
  Whole net e ∧ ∀ sys, Carries net sys → C sys (moveOf net e)

/-- **THE NETWORK REFINES THE SYSTEM.** -/
theorem refines {C : System → Move → Prop} (h : Reachable (Lifted C) net) :
    ∃ sys, AwaleSystem.Reachable C sys ∧ Carries net sys := by
  refine h.simulate ?_ ?_
  · rintro net ⟨hserver, hwire⟩
    refine ⟨⟨net.server, fun _ => .fresh⟩, ⟨hserver, rfl⟩, rfl, fun sock => ?_⟩
    rw [hwire]
    exact fresh_carries
  · intro net sys e net' out _ hr hR hC hstep
    have hrel := step_related hr hR hC.1
    rw [hstep] at hrel
    generalize hmove : AwaleSystem.move sys (moveOf net e) = t at hrel
    cases hrel with
    | some hmatch => exact Or.inr ⟨_, _, _, hC.2 sys hR, hmove, hmatch.2⟩

/-- A condition that does not look at the messages on their way to the clients, which the bytes
    do not determine. -/
def Unseen (C : System → Move → Prop) : Prop :=
  ∀ net sys sys' e, Carries net sys → Carries net sys' → C sys e → C sys' e

/-- The system is carried by some network, in every run. -/
theorem carried {C : System → Move → Prop} (hC : Unseen C) (h : AwaleSystem.Reachable C sys) :
    ∃ net, Reachable (Lifted C) net ∧ Carries net sys := by
  refine GuardedRun.Reachable.simulate (R := fun sys net => Carries net sys) ?_ ?_ h
  · rintro sys ⟨hserver, hlink⟩
    refine ⟨⟨sys.server, fun _ => .fresh⟩, ⟨hserver, rfl⟩, rfl, fun sock => ?_⟩
    rw [hlink]
    exact fresh_carries
  · intro sys net e sys' out hr _ hR hmeets hmove
    obtain ⟨e', hwhole, rfl⟩ := move_step hR hmove
    have hrel := step_related hr hR hwhole
    rw [hmove] at hrel
    generalize hstep : step net e' = t at hrel
    cases hrel with
    | some hmatch =>
        have hlifted : Lifted C net e' := ⟨hwhole, fun sys' hR' => hC net sys sys' _ hR hR' hmeets⟩
        exact Or.inr ⟨_, _, _, hlifted, hstep, hmatch.2⟩

/-- **THE BYTES MAKE NO DIFFERENCE.**  The runs with whole `recv`s reach the same servers, with the
    same clients, as the runs that exchange messages. -/
theorem same_runs {C : System → Move → Prop} (hC : Unseen C) (s : Server)
    (clients : Int → State × Bool) :
    (∃ net, Reachable (Lifted C) net ∧ net.server = s
        ∧ ∀ sock, ((net.wire sock).state, (net.wire sock).closed) = clients sock)
      ↔ ∃ sys, AwaleSystem.Reachable C sys ∧ sys.server = s
        ∧ ∀ sock, ((sys.link sock).state, (sys.link sock).closed) = clients sock := by
  constructor
  · rintro ⟨net, hr, rfl, hclients⟩
    obtain ⟨sys, hsys, hR⟩ := refines hr
    refine ⟨sys, hsys, hR.server.symm, fun sock => ?_⟩
    rw [← (hR.wires sock).state, ← (hR.wires sock).closed]
    exact hclients sock
  · rintro ⟨sys, hr, rfl, hclients⟩
    obtain ⟨net, hnet, hR⟩ := carried hC hr
    refine ⟨net, hnet, hR.server, fun sock => ?_⟩
    rw [(hR.wires sock).state, (hR.wires sock).closed]
    exact hclients sock

/-- The bytes determine the oldest request. -/
theorem head_unseen (h : Carries net sys) (h' : Carries net sys') (c : Nat) :
    (sys.linkOf c).up.head? = (sys'.linkOf c).up.head? := by
  have hw := h.at c
  have hw' := h'.at c
  have hnil : (sys.linkOf c).up = [] ↔ (sys'.linkOf c).up = [] :=
    (up_nil_iff hw).symm.trans (up_nil_iff hw')
  cases hup : (sys.linkOf c).up with
  | nil => rw [hnil.mp hup]
  | cons q up =>
      cases hup' : (sys'.linkOf c).up with
      | nil => exact absurd (hnil.mpr hup') (by rw [hup]; exact List.cons_ne_nil _ _)
      | cons q' up' =>
          obtain ⟨hbytes, hbody, hlen, -⟩ := hw.up_cons hup
          obtain ⟨hbytes', hbody', hlen', -⟩ := hw'.up_cons hup'
          -- a call gets the bodies of both
          have hcall := @call_frame .server (fun _ => 0) _ false (up.map Request.body) hbody hlen
          rw [← hbytes, hbytes', call_frame hbody' hlen'] at hcall
          have heq : q'.body = q.body := congrArg Got.body (Option.some.inj hcall)
          have hread := readRequest_body (fun _ => 0) hlen
          rw [← heq, readRequest_body _ hlen'] at hread
          rw [List.head?_cons, List.head?_cons, Option.some.inj hread]

theorem turnGuard_unseen : Unseen AwaleTurn.turnGuard := by
  intro net sys sys' e h h' hguard
  have hserver : sys'.server = sys.server := h'.server.symm.trans h.server
  cases e with
  | accept csock => trivial
  | input c line => trivial
  | serve c rand =>
      show ∀ q ∈ (sys'.linkOf c).up.head?, AwaleService.RequestMeets sys'.server c rand q
      rw [← head_unseen h h' c, hserver]
      exact hguard
  | receive c => trivial
  | hangUp c =>
      show _ ∧ _
      rw [hserver]
      exact hguard

/-- The second player, back over bytes. -/
theorem same_runs_comeback : ∃ net, Reachable (Lifted AwaleTurn.turnGuard) net
    ∧ (net.wireOf 0).state = .inGame ∧ (net.wireOf 1).state = .waitingPlayInput := by
  obtain ⟨sys, hsys, hstates⟩ := AwaleSystem.reaches (C := AwaleTurn.turnGuard)
    (f := fun sys => ((sys.linkOf 0).state, (sys.linkOf 1).state))
    (b := (.inGame, .waitingPlayInput)) AwaleTurn.comeback (by decide +kernel) (by decide +kernel)
  obtain ⟨h0, h1⟩ := Prod.mk.inj hstates
  obtain ⟨net, hnet, hserver, hclients⟩ := (same_runs turnGuard_unseen sys.server fun sock =>
    ((sys.link sock).state, (sys.link sock).closed)).mpr ⟨sys, hsys, rfl, fun _ => rfl⟩
  have hstate : ∀ c, (net.wireOf c).state = (sys.linkOf c).state := fun c => by
    show (net.wire (net.server.clients c).sock).state = _
    rw [hserver]
    exact congrArg Prod.fst (hclients _)
  exact ⟨net, hnet, (hstate 0).trans h0, (hstate 1).trans h1⟩

/-- **READS ARE SAFE**: in every state of a run with whole `recv`s, the next call of either side
    gets a frame, stays in its buffer whatever that held, and decodes a request or a message. -/
theorem reads_safe (h : Reachable Whole net) (c : Nat) (buf : ByteBuffer) :
    ((net.wireOf c).up ≠ [] → ∃ got q,
        call .server net.server.buffer (net.wireOf c).closed (wholeCall (net.wireOf c).up)
            (net.wireOf c).up = some got
          ∧ AwaleReceiving.ServerReceives net.server.buffer got.head got.body
          ∧ readRequest (filled .server net.server.buffer got.head got.body) = some q)
      ∧ ((net.wireOf c).down ≠ [] → ∃ got handler,
        call .client buf false (wholeCall (net.wireOf c).down) (net.wireOf c).down = some got
          ∧ AwaleReceiving.ClientReceives buf got.head got.body
          ∧ serverClientProtocolRead (contents (filled .client buf got.head got.body))
            = some (some handler)) := by
  have hlifted : Reachable (Lifted GuardedRun.Always) net :=
    GuardedRun.Reachable.mono (fun _ _ hwhole => ⟨hwhole, fun _ _ => trivial⟩) h
  obtain ⟨sys, hsys, hR⟩ := refines hlifted
  have hw := hR.at c
  constructor
  · intro hne
    cases hup : (sys.linkOf c).up with
    | nil => exact absurd ((up_nil_iff hw).mpr hup) hne
    | cons q up =>
        obtain ⟨hbytes, hbody, hlen, -⟩ := hw.up_cons hup
        have hhead : (bytesUInt16 (UInt16.ofNat q.body.length)).length ≤ 2 := Nat.le_refl _
        rw [hbytes, call_frame hbody hlen]
        refine ⟨_, q, rfl, (AwaleReceiving.serverReceives_iff hhead).mpr hlen, ?_⟩
        rw [AwaleReceiving.filled_server]
        exact readRequest_body _ hlen
  · intro hne
    cases hdown : (sys.linkOf c).down with
    | nil => exact absurd (eq_nil_of_frames (hdown ▸ hw.down)) hne
    | cons m down =>
        obtain ⟨f, bs, -, hbytes, hfits, -⟩ := frames_cons (hdown ▸ hw.down)
        have hlen : f.body.length < bufSize := by omega
        have hbody : f.body ≠ [] := List.length_pos_iff.mp f.body_length_pos
        have hhead : (bytesUInt16 (UInt16.ofNat f.body.length)).length ≤ 2 := Nat.le_refl _
        have hread := frame_read hlen buf (bytesUInt16 (UInt16.ofNat f.body.length))
        rw [hbytes, call_frame hbody hlen]
        refine ⟨_, f.call, rfl, ?_, hread⟩
        refine (AwaleReceiving.clientReceives_iff hhead).mpr ⟨hlen, fun _ _ => ?_⟩
        refine (AwaleReceiving.decoded_iff (AwaleReceiving.contents_length _)).mp ?_
        rw [hread]
        rfl

/-- The network before any client connects. -/
def start : Network := ⟨initial fun _ => 0, fun _ => .fresh⟩

/-- One client has named itself and been answered, another has sent its name. -/
def naming : List Step :=
  let kept : ByteBuffer := fun _ => 255
  [.accept 4, .accept 5, .input 0 (literal "ann") kept, .read 0 ⟨2, 5⟩ 0 kept,
    .input 1 (literal "bob") kept]

theorem reads_safe_naming : ∃ net, Reachable Whole net
    ∧ (∃ got q, call .server net.server.buffer (net.wireOf 1).closed
          (wholeCall (net.wireOf 1).up) (net.wireOf 1).up = some got
        ∧ readRequest (filled .server net.server.buffer got.head got.body) = some q)
    ∧ ∃ got handler, call .client (fun _ => 255) false (wholeCall (net.wireOf 0).down)
          (net.wireOf 0).down = some got
        ∧ serverClientProtocolRead (contents (filled .client (fun _ => 255) got.head got.body))
          = some (some handler) := by
  have hinit : Initial start := ⟨⟨_, rfl⟩, rfl⟩
  have hmeets : GuardedRun.Meets step Whole start naming := by decide +kernel
  have hrun : (GuardedRun.run step start naming).map
      (fun r => ((r.1.wireOf 1).up, (r.1.wireOf 0).down))
        = some ([5, 0, 0, 98, 111, 98, 0], [1, 0, 0]) := by decide +kernel
  obtain ⟨net, hnet, hbytes⟩ := GuardedRun.reachable_of_eval
    (f := fun net => ((net.wireOf 1).up, (net.wireOf 0).down)) hinit hmeets hrun
  obtain ⟨hup, hdown⟩ := Prod.mk.inj hbytes
  obtain ⟨got, q, hcall, -, hq⟩ := (reads_safe hnet 1 fun _ => 255).1
    (hup ▸ List.cons_ne_nil _ _)
  obtain ⟨got', handler, hcall', -, hread⟩ := (reads_safe hnet 0 fun _ => 255).2
    (hdown ▸ List.cons_ne_nil _ _)
  exact ⟨net, hnet, ⟨got, q, hcall, hq⟩, got', handler, hcall', hread⟩

end AwaleWire
