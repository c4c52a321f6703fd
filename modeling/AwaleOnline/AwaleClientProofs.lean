import AwaleOnline.AwaleProtocolProofs

/-!
# The client: `state.c`

* **`handleUserInput`** — `handle_user_input` on a line of the keyboard: the new state and the
  frames it sends, or the end of the process;
* **`receive`** — `server_client_protocol_read` over the `handle_*` callbacks, which answer
  nothing;
* **`strtol`** — the library function as the input parser uses it, with its end pointer.

`set_current_state` sends a CREATE_ROOM frame when it enters WAITING_CREATE_ROOM_RESPONSE, so it
returns frames too.  What the client prints is left out.
-/

namespace AwaleClient

open AwaleProtocol

/-- `State` -/
inductive State where
  | connecting
  | waitingConnection
  | connected
  | waitingCreateRoomResponse
  | waitingJoinRoomInput
  | waitingSpectateRoomInput
  | waitingJoinRoomResponse
  | waitingSpectateRoomResponse
  | inRoom
  | inGame
  | waitingPlayInput
  | waitingPlayAck
  | spectating
  | waitingBioInput
  deriving DecidableEq

/-! ## Numbers typed by the user -/

/-- `isspace` in the C locale. -/
def isSpace (b : UInt8) : Bool := b = 32 ∨ (9 ≤ b ∧ b ≤ 13)

/-- The value of a digit, if the base has it. -/
def digit (base : Nat) (b : UInt8) : Option Nat :=
  let v :=
    if 48 ≤ b ∧ b ≤ 57 then b.toNat - 48
    else if 65 ≤ b ∧ b ≤ 90 then b.toNat - 55
    else if 97 ≤ b ∧ b ≤ 122 then b.toNat - 87
    else base
  if v < base then some v else none

/-- The digits in front of a string and what is behind them. -/
def digits (base : Nat) : List UInt8 → List Nat × List UInt8
  | [] => ([], [])
  | b :: bs =>
      match digit base b with
      | some v => (v :: (digits base bs).1, (digits base bs).2)
      | none => ([], b :: bs)

/-- `0x` in front of a hexadecimal digit. -/
def hexPrefix : List UInt8 → List UInt8
  | 48 :: x :: b :: bs =>
      if (x = 120 ∨ x = 88) ∧ digit 16 b ≠ none then b :: bs else 48 :: x :: b :: bs
  | bs => bs

def minusSign : List UInt8 → Bool × List UInt8
  | 45 :: bs => (true, bs)
  | 43 :: bs => (false, bs)
  | bs => (false, bs)

/-- The range of `long`. -/
def clampLong (z : Int) : Int := max (-2 ^ 63) (min z (2 ^ 63 - 1))

/-- `strtol(in, &endptr, base)`: the value, and the string at `endptr`. -/
def strtol (base : Nat) (line : CString) : Int × List UInt8 :=
  let signed := minusSign (line.chars.dropWhile isSpace)
  let ds := digits base (if base = 16 then hexPrefix signed.2 else signed.2)
  if ds.1 = [] then (0, line.chars)
  else
    let n : Int := ds.1.foldl (fun n d => n * base + d) (0 : Nat)
    (clampLong (if signed.1 then -n else n), ds.2)

/-- Conversions of a `long`. -/
def toUInt8 (z : Int) : UInt8 := UInt8.ofNat (z % 2 ^ 8).toNat
def toUInt32 (z : Int) : UInt32 := UInt32.ofNat (z % 2 ^ 32).toNat

/-! ## `handle_user_input` -/

/-- The end of `handle_user_input`: the process exits, an encoder runs past the end of `buf`, or
    the client goes on. -/
inductive Reaction where
  | exit
  | overrun
  | next (state : State) (sent : List Request)
  deriving DecidableEq

/-- `set_current_state`, with the frames its action sends. -/
def setCurrentState (state : State) : State × List Request :=
  match state with
  | .waitingCreateRoomResponse => (state, [.createRoom])
  | _ => (state, [])

/-- `set_current_state` as the last call of a branch that sent `sent`. -/
def enter (state : State) (sent : List Request) : Reaction :=
  .next (setCurrentState state).1 (sent ++ (setCurrentState state).2)

/-- The encoders write the two length bytes and the body to `uint8_t buf[1024]`. -/
def encoded (q : Request) (k : List Request → Reaction) : Reaction :=
  if q.body.length + 2 > bufSize then .overrun else k [q]

/-- What is typed in a room: `/leave`, or a message after which the client stays in `state`. -/
def handleRoomInput (state : State) (line : CString) : Reaction :=
  if line = literal "/leave" then encoded .leaveRoom (enter .connected)
  else encoded (.sendMessage line) (.next state)

def handleUserInput (state : State) (line : CString) : Reaction :=
  -- ignore EOF
  if line.chars.head? = some 255 then .next state []
  else if line = literal "/close" then .exit
  else
    match state with
    | .connecting => encoded (.connect line) (enter .waitingConnection)
    | .connected =>
        match (toUInt8 (strtol 10 line).1).toNat with
        | 1 => enter .waitingCreateRoomResponse []
        | 2 => enter .waitingJoinRoomInput []
        | 3 => enter .waitingSpectateRoomInput []
        | 4 => enter .waitingBioInput []
        | _ => enter .connected []
    | .waitingJoinRoomInput =>
        encoded (.joinRoom (toUInt32 (strtol 16 line).1) 0) (enter .waitingJoinRoomResponse)
    | .waitingSpectateRoomInput =>
        encoded (.joinRoom (toUInt32 (strtol 16 line).1) 1)
          (enter .waitingSpectateRoomResponse)
    | .waitingBioInput => encoded (.setBiography line) (enter .connected)
    | .waitingPlayInput =>
        if (strtol 10 line).2 = [] then
          encoded (.play (toUInt8 ((strtol 10 line).1 - 1))) (enter .waitingPlayAck)
        else handleRoomInput .waitingPlayInput line
    | .inRoom => handleRoomInput .inRoom line
    | .spectating => handleRoomInput .spectating line
    | .inGame => handleRoomInput .inGame line
    | _ => .next state []

/-! ## The callbacks -/

def handleConnectionSuccessful (state : State) : State × List Request :=
  if state = .waitingConnection then setCurrentState .connected else (state, [])

def handleConnectionRefused (state : State) : State × List Request :=
  if state = .waitingConnection then setCurrentState .connecting else (state, [])

def handleRoomCreationSuccessful (state : State) : State × List Request :=
  if state = .waitingCreateRoomResponse then setCurrentState .inRoom else (state, [])

def handleRoomCreationRefused (state : State) : State × List Request :=
  if state = .waitingCreateRoomResponse then setCurrentState .connected else (state, [])

def handleJoinRoomSuccessful (state : State) : State × List Request :=
  if state = .waitingJoinRoomResponse ∨ state = .waitingSpectateRoomResponse
      ∨ state = .waitingConnection then
    if state = .waitingJoinRoomResponse ∨ state = .waitingConnection then
      setCurrentState .inRoom
    else setCurrentState .spectating
  else (state, [])

def handleJoinRoomRefused (state : State) : State × List Request :=
  if state = .waitingJoinRoomResponse then setCurrentState .connected else (state, [])

def handlePlayed (state : State) : State × List Request :=
  if state = .inGame then setCurrentState .waitingPlayInput
  else if state = .spectating then (state, [])
  else if state = .waitingPlayAck then setCurrentState .inGame
  else if state = .waitingConnection then setCurrentState .waitingPlayInput
  else (state, [])

def handleGameStart (state : State) (pos : UInt8) : State × List Request :=
  if state = .inRoom then
    if pos = 0 then setCurrentState .waitingPlayInput
    else if pos = 1 then setCurrentState .inGame
    else (state, [])
  else if state = .waitingConnection then setCurrentState .inGame
  else (state, [])

def handleGameStopped (state : State) : State × List Request :=
  if state = .inGame ∨ state = .spectating ∨ state = .inRoom ∨ state = .waitingPlayInput then
    setCurrentState .connected
  else (state, [])

def handleInvalidPlay (state : State) : State × List Request :=
  if state = .waitingPlayAck then setCurrentState .waitingPlayInput else (state, [])

/-- `server_client_protocol_read`; the callbacks left out here print a line at most. -/
def receive (state : State) : ServerMsg → State × List Request
  | .connectionSuccessful => handleConnectionSuccessful state
  | .connectionRefused _ => handleConnectionRefused state
  | .roomCreationSuccessful _ => handleRoomCreationSuccessful state
  | .roomCreationRefused _ => handleRoomCreationRefused state
  | .joinRoomSuccessful _ _ _ _ => handleJoinRoomSuccessful state
  | .joinRoomRefused _ => handleJoinRoomRefused state
  | .played _ _ _ => handlePlayed state
  | .gameStart pos => handleGameStart state pos
  | .gameStopped _ _ => handleGameStopped state
  | .invalidPlay _ => handleInvalidPlay state
  | .playerJoinedRoom _ => (state, [])
  | .spectatorJoinedRoom _ => (state, [])
  | .message _ _ => (state, [])

/-! ## What a client can do -/

/-- The menu behind `action_choose`. -/
def Menu (state : State) : Prop :=
  state = .connected ∨ state = .waitingJoinRoomInput ∨ state = .waitingSpectateRoomInput
    ∨ state = .waitingBioInput

/-- The states in which `/leave` leaves and text is a message. -/
def InRoom (state : State) : Prop :=
  state = .inRoom ∨ state = .spectating ∨ state = .inGame ∨ state = .waitingPlayInput

/-- **What a line can do**: the new state and the requests sent. -/
inductive Typed : State → State → List Request → Prop where
  | nothing {state : State} : Typed state state []
  | connect {name : CString} : Typed .connecting .waitingConnection [.connect name]
  | choose {state : State} : Menu state → Typed .connected state []
  | create : Typed .connected .waitingCreateRoomResponse [.createRoom]
  | join {roomId : UInt32} :
      Typed .waitingJoinRoomInput .waitingJoinRoomResponse [.joinRoom roomId 0]
  | spectate {roomId : UInt32} :
      Typed .waitingSpectateRoomInput .waitingSpectateRoomResponse [.joinRoom roomId 1]
  | describe {biography : CString} :
      Typed .waitingBioInput .connected [.setBiography biography]
  | play {pos : UInt8} : Typed .waitingPlayInput .waitingPlayAck [.play pos]
  | leave {state : State} : InRoom state → Typed state .connected [.leaveRoom]
  | say {state : State} {message : CString} : InRoom state →
      Typed state state [.sendMessage message]

variable {state state' : State} {line : CString} {sent : List Request}

private theorem encoded_next {q : Request} {k : List Request → Reaction}
    (h : encoded q k = .next state' sent) :
    q.body.length + 2 ≤ bufSize ∧ k [q] = .next state' sent := by
  simp only [encoded] at h
  split at h
  · exact nomatch h
  · rename_i hlen
    exact ⟨by omega, h⟩

private theorem enter_next {target : State} {qs : List Request}
    (h : enter target qs = .next state' sent) :
    state' = target ∧ sent = qs ++ (setCurrentState target).2 := by
  injection h with h1 h2
  refine ⟨?_, h2.symm⟩
  rw [← h1]
  cases target <;> rfl

private theorem handleRoomInput_typed (hin : InRoom state)
    (h : handleRoomInput state line = .next state' sent) :
    Typed state state' sent ∧ ∀ q ∈ sent, q.body.length + 2 ≤ bufSize := by
  simp only [handleRoomInput] at h
  split at h
  · obtain ⟨hlen, h⟩ := encoded_next h
    obtain ⟨rfl, rfl⟩ := enter_next h
    refine ⟨.leave hin, ?_⟩
    intro q hq
    rw [List.mem_singleton.mp hq]
    exact hlen
  · obtain ⟨hlen, h⟩ := encoded_next h
    injection h with h1 h2
    subst h1 h2
    refine ⟨.say hin, ?_⟩
    intro q hq
    rw [List.mem_singleton.mp hq]
    exact hlen

/-- **INVERSION OF `handle_user_input`**; what it sends fits the encoders' buffer. -/
theorem handleUserInput_typed (h : handleUserInput state line = .next state' sent) :
    Typed state state' sent ∧ ∀ q ∈ sent, q.body.length + 2 ≤ bufSize := by
  have hnone : ∀ q ∈ ([] : List Request), q.body.length + 2 ≤ bufSize := List.forall_mem_nil _
  have hone : ∀ {q : Request}, q.body.length + 2 ≤ bufSize →
      ∀ q' ∈ [q], q'.body.length + 2 ≤ bufSize := by
    intro q hq q' hq'
    rw [List.mem_singleton.mp hq']
    exact hq
  have hstay : ∀ {state : State}, Reaction.next state [] = .next state' sent →
      Typed state state' sent ∧ ∀ q ∈ sent, q.body.length + 2 ≤ bufSize := by
    intro state h
    injection h with h1 h2
    subst h1 h2
    exact ⟨.nothing, hnone⟩
  simp only [handleUserInput] at h
  split at h
  · exact hstay h
  · split at h
    · exact nomatch h
    · cases state with
      | connecting =>
          obtain ⟨hlen, h⟩ := encoded_next h
          obtain ⟨rfl, rfl⟩ := enter_next h
          exact ⟨.connect, hone hlen⟩
      | connected =>
          dsimp only at h
          split at h
          · obtain ⟨rfl, rfl⟩ := enter_next h
            exact ⟨.create, hone (by decide)⟩
          · obtain ⟨rfl, rfl⟩ := enter_next h
            exact ⟨.choose (Or.inr (Or.inl rfl)), hnone⟩
          · obtain ⟨rfl, rfl⟩ := enter_next h
            exact ⟨.choose (Or.inr (Or.inr (Or.inl rfl))), hnone⟩
          · obtain ⟨rfl, rfl⟩ := enter_next h
            exact ⟨.choose (Or.inr (Or.inr (Or.inr rfl))), hnone⟩
          · obtain ⟨rfl, rfl⟩ := enter_next h
            exact ⟨.choose (Or.inl rfl), hnone⟩
      | waitingJoinRoomInput =>
          obtain ⟨hlen, h⟩ := encoded_next h
          obtain ⟨rfl, rfl⟩ := enter_next h
          exact ⟨.join, hone hlen⟩
      | waitingSpectateRoomInput =>
          obtain ⟨hlen, h⟩ := encoded_next h
          obtain ⟨rfl, rfl⟩ := enter_next h
          exact ⟨.spectate, hone hlen⟩
      | waitingBioInput =>
          obtain ⟨hlen, h⟩ := encoded_next h
          obtain ⟨rfl, rfl⟩ := enter_next h
          exact ⟨.describe, hone hlen⟩
      | waitingPlayInput =>
          dsimp only at h
          split at h
          · obtain ⟨hlen, h⟩ := encoded_next h
            obtain ⟨rfl, rfl⟩ := enter_next h
            exact ⟨.play, hone hlen⟩
          · exact handleRoomInput_typed (Or.inr (Or.inr (Or.inr rfl))) h
      | inRoom => exact handleRoomInput_typed (Or.inl rfl) h
      | spectating => exact handleRoomInput_typed (Or.inr (Or.inl rfl)) h
      | inGame => exact handleRoomInput_typed (Or.inr (Or.inr (Or.inl rfl))) h
      | waitingConnection => exact hstay h
      | waitingCreateRoomResponse => exact hstay h
      | waitingJoinRoomResponse => exact hstay h
      | waitingSpectateRoomResponse => exact hstay h
      | waitingPlayAck => exact hstay h

/-- The callbacks send nothing. -/
theorem receive_silent (state : State) (m : ServerMsg) : (receive state m).2 = [] := by
  cases state <;> cases m <;>
    simp only [receive, handleConnectionSuccessful, handleConnectionRefused,
      handleRoomCreationSuccessful, handleRoomCreationRefused, handleJoinRoomSuccessful,
      handleJoinRoomRefused, handlePlayed, handleGameStart, handleGameStopped,
      handleInvalidPlay, setCurrentState] <;>
    split_ifs <;> rfl

/-- The state a client is in after a frame. -/
def after (state : State) (m : ServerMsg) : State := (receive state m).1

/-- No frame makes a client wait for the answer to a move. -/
theorem after_eq_waitingPlayAck {m : ServerMsg} (h : after state m = .waitingPlayAck) :
    state = .waitingPlayAck := by
  by_contra hne
  revert h
  cases m with
  | gameStart pos =>
      simp only [after, receive, handleGameStart, setCurrentState]
      split_ifs <;> simp [hne]
  | _ =>
      simp only [after, receive, handleConnectionSuccessful, handleConnectionRefused,
        handleRoomCreationSuccessful, handleRoomCreationRefused, handleJoinRoomSuccessful,
        handleJoinRoomRefused, handlePlayed, handleGameStopped, handleInvalidPlay,
        setCurrentState]
      try split_ifs
      all_goals simp [hne]

end AwaleClient
