import AwaleOnline.AwaleServerProofs

/-!
# What one event can do to the server

Every later invariant is proved from the same case analysis, made once here:

* **`Effect`** — the outcomes of a dispatched request, one constructor for each branch of a
  handler, with the branch's tests as hypotheses, the new state and the frames sent;
  **`handleRequest_effect`** says there are no others;
* **`step_cases`** — the same for a whole event, `accept` and `disconnect_user` included;
* **`Guard`** — a condition on events, given request by request, and **`Guard.invariant`**,
  the induction rule for the states reached by events that meet it.
-/

namespace AwaleEffect

open AwaleGame AwaleProtocol AwaleServer

/-! ## The states the handlers build -/

/-- The reconnection of client `c` to seat `j` of room `i`. -/
def reseated (s : Server) (c : Nat) (name : CString) (i j : Nat) : Server :=
  setRoomId
    (setGame (setClient s c { s.clients c with name := name }) i
      (setPlayerId (s.rooms i).game j (s.clients c).sock))
    c (s.rooms i).id

/-- The room `handle_create_room` writes. -/
def newRoom (s : Server) (c : Nat) (rand : UInt32) : Room :=
  roomAddPlayer (roomInit (s.rooms s.nbRooms.toNat) rand) (newPlayer s c) false

def created (s : Server) (c : Nat) (rand : UInt32) : Server :=
  { setRoomId (setRoom s s.nbRooms.toNat (newRoom s c rand)) c rand with
    nbRooms := s.nbRooms + 1 }

/-- The game of room `i` after client `c` joined. -/
def joinedGame (s : Server) (c i : Nat) (spectate : UInt8) : Game :=
  gameAddPlayer (s.rooms i).game (newPlayer s c) (spectate ≠ 0)

def joined (s : Server) (c i : Nat) (roomId : UInt32) (spectate : UInt8) : Server :=
  setRoomId (setGame s i (joinedGame s c i spectate)) c roomId

/-- The player that waited, and the newcomer behind it. -/
theorem started_players {s : Server} {c i : Nat}
    (hone : (s.rooms i).game.nbPlayers = 1) :
    (joinedGame s c i 0).nbPlayers = 2
      ∧ (joinedGame s c i 0).players 0 = (s.rooms i).game.players 0
      ∧ (joinedGame s c i 0).players 1 = { newPlayer s c with captured := 0 } := by
  have hindex : addIndex (s.rooms i).game ((0 : UInt8) ≠ 0) = 1 := hone
  refine ⟨congrArg (· + 1) hone, ?_, ?_⟩
  · exact gameAddPlayer_of_ne (by rw [hindex]; exact Nat.zero_ne_one)
  · rw [← hindex]
    exact gameAddPlayer_self ..

/-- The game of the joined room written once more: only the last write counts. -/
theorem setGame_joined (s : Server) (c i : Nat) (roomId : UInt32) (spectate : UInt8)
    (game : Game) :
    setGame (joined s c i roomId spectate) i game = setRoomId (setGame s i game) c roomId := by
  simp only [joined, setGame, setRoom, setRoomId, setClient, Function.update_self,
    Function.update_idem]

theorem created_new (s : Server) (c : Nat) (rand : UInt32) :
    (created s c rand).rooms s.nbRooms.toNat = newRoom s c rand := setRoom_self s _ _

theorem created_old {s : Server} {k : Nat} (c : Nat) (rand : UInt32)
    (hk : k ≠ s.nbRooms.toNat) : (created s c rand).rooms k = s.rooms k := setRoom_of_ne hk _

/-- The test that lets a join through. -/
def JoinOpen (game : Game) (spectate : UInt8) : Prop :=
  ¬ ((spectate = 0 ∧ game.nbPlayers ≥ 2) ∨ game.nbPlayers ≥ maxGamePlayers)
    ∧ addIndex game (spectate ≠ 0) < maxGamePlayers

/-- The side, the game and the result of a PLAY in room `i`. -/
def sideIn (s : Server) (c i : Nat) : Nat := playerSide (s.rooms i).game (s.clients c).sock

def playIn (s : Server) (c i : Nat) (pos : UInt8) : Game × PlayResult :=
  gamePlay machine (s.rooms i).game (sideIn s c i * boardSize / 2 + pos.toNat : Nat)
    (sideIn s c i)

/-- The frames a PLAY in room `i` is answered with. -/
def replies (s : Server) (c i : Nat) (pos : UInt8) : List Sent :=
  let r := playIn s c i pos
  if r.2 = .validPlay then playedFrames r.1
  else writeClient (r.1.players (sideIn s c i)).id (.invalidPlay (invalidPlayText r.2))

theorem sideIn_zero {s : Server} {c i : Nat}
    (h : ((s.rooms i).game.players 0).id = (s.clients c).sock) : sideIn s c i = 0 := if_pos h

theorem sideIn_one {s : Server} {c i : Nat}
    (h : ((s.rooms i).game.players 0).id ≠ (s.clients c).sock) : sideIn s c i = 1 := if_neg h

theorem sideIn_seated {s : Server} {c i : Nat} :
    ((s.rooms i).game.players (sideIn s c i)).id = (s.clients c).sock
      ↔ ((s.rooms i).game.players 0).id = (s.clients c).sock
        ∨ ((s.rooms i).game.players 1).id = (s.clients c).sock := by
  by_cases h0 : ((s.rooms i).game.players 0).id = (s.clients c).sock
  · rw [sideIn_zero h0]
    exact iff_of_true h0 (Or.inl h0)
  · rw [sideIn_one h0, or_iff_right h0]

/-- The frame of `game_play`, for a PLAY in room `i`. -/
theorem play_frame (s : Server) (c i : Nat) (pos : UInt8) :
    (playIn s c i pos).1.nbPlayers = (s.rooms i).game.nbPlayers
      ∧ (playIn s c i pos).1.nbSpectators = (s.rooms i).game.nbSpectators
      ∧ (playIn s c i pos).1.isStarted = (s.rooms i).game.isStarted
      ∧ ∀ e, SamePerson ((playIn s c i pos).1.players e) ((s.rooms i).game.players e) :=
  gamePlay_frame machine _ _ _

theorem replies_valid {s : Server} {c i : Nat} {pos : UInt8}
    (h : (playIn s c i pos).2 = .validPlay) :
    replies s c i pos = playedFrames (playIn s c i pos).1 := if_pos h

theorem replies_rejected {s : Server} {c i : Nat} {pos : UInt8}
    (h : (playIn s c i pos).2 ≠ .validPlay) :
    replies s c i pos = writeClient ((playIn s c i pos).1.players (sideIn s c i)).id
      (.invalidPlay (invalidPlayText (playIn s c i pos).2)) := if_neg h

/-- `handle_play` once its room is found. -/
theorem handlePlay_eq {s : Server} {c i : Nat} {pos : UInt8}
    (hfind : findRoom s (s.clients c).roomId = some i) :
    handlePlay s c pos =
      if gameIsEnded (playIn s c i pos).1 ≠ .notEnded then
        if (ServerMsg.gameStopped (gameIsEnded (playIn s c i pos).1 = .draw)
            (winnerName (playIn s c i pos).1 (gameIsEnded (playIn s c i pos).1))).size
            > bufSize then .error .buffer
        else
          .ok (deleteRoom (setGame s i (playIn s c i pos).1) i,
            replies s c i pos
              ++ writeClient ((playIn s c i pos).1.players 0).id
                (.gameStopped (gameIsEnded (playIn s c i pos).1 = .draw)
                  (winnerName (playIn s c i pos).1 (gameIsEnded (playIn s c i pos).1)))
              ++ writeClient ((playIn s c i pos).1.players 1).id
                (.gameStopped (gameIsEnded (playIn s c i pos).1 = .draw)
                  (winnerName (playIn s c i pos).1 (gameIsEnded (playIn s c i pos).1))))
      else .ok (setGame s i (playIn s c i pos).1, replies s c i pos) := by
  simp only [handlePlay, hfind]
  rfl

/-- The bounds under which the loops of `handle_leave_room` stay inside `players`. -/
def LeaveBounds (game : Game) : Prop :=
  game.nbPlayers + game.nbSpectators ≤ maxGamePlayers
    ∧ 2 + game.nbSpectators ≤ maxGamePlayers

/-- The answer to a reconnection. -/
inductive Resume (s : Server) (game : Game) (j : Nat) : ServerMsg → Prop where
  | waiting {frame : ServerMsg} : game.isStarted = false →
      joinRoomFrame s game = .ok frame → Resume s game j frame
  | toMove : game.isStarted = true → game.turn = j → Resume s game j (writePlayed j game)
  | toWait : game.isStarted = true → game.turn ≠ j → Resume s game j (.gameStart 1)

/-- **The outcomes of a request** of client `c`. -/
inductive Effect (s : Server) (c : Nat) (rand : UInt32) :
    Request → Server → List Sent → Prop where
  | nameRefused {name : CString} : nameInUse s name = true →
      Effect s c rand (.connect name) s (writeClient (s.clients c).sock
        (.connectionRefused (literal "Error: Name already in use.")))
  | named {name : CString} : nameInUse s name = false → findSeat s name = none →
      Effect s c rand (.connect name) (setClient s c { s.clients c with name := name })
        (writeClient (s.clients c).sock .connectionSuccessful)
  | resumed {name : CString} {i j : Nat} {m : ServerMsg} :
      nameInUse s name = false → findSeat s name = some (i, j) →
      Resume (reseated s c name i j)
        (setPlayerId (s.rooms i).game j (s.clients c).sock) j m →
      Effect s c rand (.connect name) (reseated s c name i j)
        (writeClient (s.clients c).sock m)
  | created : 0 ≤ s.nbRooms → s.nbRooms < maxRooms →
      Effect s c rand .createRoom (created s c rand)
        (writeClient (s.clients c).sock (.roomCreationSuccessful rand))
  | joinNotFound {roomId : UInt32} {spectate : UInt8} : findRoom s roomId = none →
      Effect s c rand (.joinRoom roomId spectate) s
        (writeClient (s.clients c).sock (.joinRoomRefused (literal "Error: Room not found.")))
  | joinFull {roomId : UInt32} {spectate : UInt8} {i : Nat} : findRoom s roomId = some i →
      (spectate = 0 ∧ (s.rooms i).game.nbPlayers ≥ 2)
        ∨ (s.rooms i).game.nbPlayers ≥ maxGamePlayers →
      Effect s c rand (.joinRoom roomId spectate) s
        (writeClient (s.clients c).sock (.joinRoomRefused
          (literal "Error: The room is full. Try to spectate instead.")))
  | joined {roomId : UInt32} {spectate : UInt8} {i : Nat} {frame : ServerMsg} :
      findRoom s roomId = some i → JoinOpen (s.rooms i).game spectate →
      joinRoomFrame (joined s c i roomId spectate) (joinedGame s c i spectate) = .ok frame →
      ¬ ((joinedGame s c i spectate).nbPlayers ≥ 2
        ∧ (joinedGame s c i spectate).isStarted = false) →
      Effect s c rand (.joinRoom roomId spectate) (joined s c i roomId spectate)
        (writeClient (s.clients c).sock frame)
  | started {roomId : UInt32} {spectate : UInt8} {i : Nat} {frame : ServerMsg} :
      findRoom s roomId = some i → JoinOpen (s.rooms i).game spectate →
      joinRoomFrame (joined s c i roomId spectate) (joinedGame s c i spectate) = .ok frame →
      (joinedGame s c i spectate).nbPlayers ≥ 2
        ∧ (joinedGame s c i spectate).isStarted = false →
      Effect s c rand (.joinRoom roomId spectate)
        (setGame (joined s c i roomId spectate) i
          { joinedGame s c i spectate with isStarted := true })
        (writeClient (s.clients c).sock frame ++ gameStarts (joinedGame s c i spectate))
  | playedNowhere {pos : UInt8} : findRoom s (s.clients c).roomId = none →
      Effect s c rand (.play pos) s []
  | played {pos : UInt8} {i : Nat} : findRoom s (s.clients c).roomId = some i →
      gameIsEnded (playIn s c i pos).1 = .notEnded →
      Effect s c rand (.play pos) (setGame s i (playIn s c i pos).1) (replies s c i pos)
  | playedLast {pos : UInt8} {i : Nat} : findRoom s (s.clients c).roomId = some i →
      gameIsEnded (playIn s c i pos).1 ≠ .notEnded →
      Effect s c rand (.play pos) (deleteRoom (setGame s i (playIn s c i pos).1) i)
        (replies s c i pos
          ++ writeClient ((playIn s c i pos).1.players 0).id
            (.gameStopped (gameIsEnded (playIn s c i pos).1 = .draw)
              (winnerName (playIn s c i pos).1 (gameIsEnded (playIn s c i pos).1)))
          ++ writeClient ((playIn s c i pos).1.players 1).id
            (.gameStopped (gameIsEnded (playIn s c i pos).1 = .draw)
              (winnerName (playIn s c i pos).1 (gameIsEnded (playIn s c i pos).1))))
  | closed {i j : Nat} : targetRoom s (s.clients c).roomId = i → i < maxRooms →
      LeaveBounds (s.rooms i).game →
      findPlayer (s.rooms i).game (s.clients c).sock = some j →
      Effect s c rand .leaveRoom (deleteRoom (setRoomId s c 0) i)
        (leaveFrames (s.rooms i).game j)
  | unwatched {i j : Nat} : targetRoom s (s.clients c).roomId = i → i < maxRooms →
      LeaveBounds (s.rooms i).game →
      findPlayer (s.rooms i).game (s.clients c).sock = none →
      findSpectator (s.rooms i).game (s.clients c).sock = some j →
      Effect s c rand .leaveRoom
        (setGame (setRoomId s c 0) i (removeSpectator (s.rooms i).game j)) []
  | leftNothing {i : Nat} : targetRoom s (s.clients c).roomId = i → i < maxRooms →
      LeaveBounds (s.rooms i).game →
      findPlayer (s.rooms i).game (s.clients c).sock = none →
      findSpectator (s.rooms i).game (s.clients c).sock = none →
      Effect s c rand .leaveRoom (setRoomId s c 0) []
  | messaged {message : CString} {i : Nat} : targetRoom s (s.clients c).roomId = i →
      i < maxRooms →
      Effect s c rand (.sendMessage message) s
        (messageFrames (s.rooms i).game (s.clients c).sock
          (.message (s.clients c).name message))
  | described {biography : CString} :
      Effect s c rand (.setBiography biography)
        (setClient s c { s.clients c with biography := biography }) []

/-! ## There are no other outcomes -/

variable {s s' : Server} {c : Nat} {rand : UInt32} {out : List Sent}

private theorem handleConnect_effect {name : CString}
    (h : handleConnect s c name = .ok (s', out)) :
    Effect s c rand (.connect name) s' out := by
  simp only [handleConnect] at h
  split at h
  · rename_i hin
    obtain ⟨rfl, rfl⟩ := Prod.mk.inj (Except.ok.inj h)
    exact .nameRefused hin
  · rename_i hin
    have hfree : nameInUse s name = false := by simpa using hin
    split at h
    · rename_i i j hseat
      have hseat' : findSeat s name = some (i, j) := hseat
      split at h
      · rename_i hst
        split at h
        · exact nomatch h
        · rename_i frame hframe
          obtain ⟨rfl, rfl⟩ := Prod.mk.inj (Except.ok.inj h)
          exact .resumed hfree hseat' (.waiting hst hframe)
      · rename_i hst
        have hst' : (setPlayerId (s.rooms i).game j (s.clients c).sock).isStarted = true :=
          Bool.not_eq_false _ ▸ hst
        split at h
        · rename_i hturn
          obtain ⟨rfl, rfl⟩ := Prod.mk.inj (Except.ok.inj h)
          exact .resumed hfree hseat' (.toMove hst' hturn)
        · rename_i hturn
          obtain ⟨rfl, rfl⟩ := Prod.mk.inj (Except.ok.inj h)
          exact .resumed hfree hseat' (.toWait hst' hturn)
    · rename_i hseat
      obtain ⟨rfl, rfl⟩ := Prod.mk.inj (Except.ok.inj h)
      exact .named hfree hseat

/-- The converse for a reconnection. -/
theorem handleConnect_resumed {name : CString} {i j : Nat} {m : ServerMsg}
    (hfree : nameInUse s name = false) (hseat : findSeat s name = some (i, j))
    (h : Resume (reseated s c name i j) (setPlayerId (s.rooms i).game j (s.clients c).sock) j m) :
    handleConnect s c name = .ok (reseated s c name i j, writeClient (s.clients c).sock m) := by
  have hseat' : findSeat (setClient s c { s.clients c with name := name }) name = some (i, j) :=
    hseat
  cases h with
  | waiting hst hframe =>
      rw [reseated] at hframe
      simp only [handleConnect, hfree, Bool.false_eq_true, if_false, hseat', setClient_rooms,
        hst, if_true, hframe]
      rfl
  | toMove hst hturn =>
      simp only [handleConnect, hfree, Bool.false_eq_true, if_false, hseat', setClient_rooms,
        hst, Bool.true_eq_false, hturn, if_true]
      rfl
  | toWait hst hturn =>
      simp only [handleConnect, hfree, Bool.false_eq_true, if_false, hseat', setClient_rooms,
        hst, Bool.true_eq_false, hturn]
      rfl

private theorem handleCreateRoom_effect (h : handleCreateRoom s c rand = .ok (s', out)) :
    Effect s c rand .createRoom s' out := by
  simp only [handleCreateRoom] at h
  split at h
  · rename_i hb
    obtain ⟨rfl, rfl⟩ := Prod.mk.inj (Except.ok.inj h)
    exact .created hb.1 hb.2
  · exact nomatch h

private theorem handleJoinRoom_effect {roomId : UInt32} {spectate : UInt8}
    (h : handleJoinRoom s c roomId spectate = .ok (s', out)) :
    Effect s c rand (.joinRoom roomId spectate) s' out := by
  simp only [handleJoinRoom] at h
  split at h
  · rename_i hfind
    obtain ⟨rfl, rfl⟩ := Prod.mk.inj (Except.ok.inj h)
    exact .joinNotFound hfind
  · rename_i i hfind
    split at h
    · rename_i hfull
      obtain ⟨rfl, rfl⟩ := Prod.mk.inj (Except.ok.inj h)
      exact .joinFull hfind hfull
    · rename_i hfull
      split at h
      · exact nomatch h
      · rename_i hidx
        have hopen : JoinOpen (s.rooms i).game spectate := ⟨hfull, by omega⟩
        split at h
        · exact nomatch h
        · rename_i frame hframe
          split at h
          · rename_i hgo
            obtain ⟨rfl, rfl⟩ := Prod.mk.inj (Except.ok.inj h)
            have heq : setGame (joined s c i roomId spectate) i
                { joinedGame s c i spectate with isStarted := true }
                = setGame (setRoomId (setRoom s i (roomAddPlayer (s.rooms i)
                    (newPlayer s c) (spectate ≠ 0))) c roomId) i
                  { (roomAddPlayer (s.rooms i) (newPlayer s c) (spectate ≠ 0)).game with
                    isStarted := true } := rfl
            rw [← heq]
            exact .started hfind hopen hframe hgo
          · rename_i hgo
            obtain ⟨rfl, rfl⟩ := Prod.mk.inj (Except.ok.inj h)
            exact .joined hfind hopen hframe hgo

private theorem handlePlay_effect {pos : UInt8} (h : handlePlay s c pos = .ok (s', out)) :
    Effect s c rand (.play pos) s' out := by
  simp only [handlePlay] at h
  split at h
  · rename_i hfind
    obtain ⟨rfl, rfl⟩ := Prod.mk.inj (Except.ok.inj h)
    exact .playedNowhere hfind
  · rename_i i hfind
    split at h
    · rename_i hend
      split at h
      · exact nomatch h
      · obtain ⟨rfl, rfl⟩ := Prod.mk.inj (Except.ok.inj h)
        exact .playedLast hfind hend
    · rename_i hend
      obtain ⟨rfl, rfl⟩ := Prod.mk.inj (Except.ok.inj h)
      exact .played hfind (not_ne_iff.mp hend)

private theorem handleLeaveRoom_effect (h : handleLeaveRoom s c = .ok (s', out)) :
    Effect s c rand .leaveRoom s' out := by
  simp only [handleLeaveRoom] at h
  split at h
  · exact nomatch h
  · rename_i hi
    have hi' : targetRoom s (s.clients c).roomId < maxRooms := by omega
    split at h
    · exact nomatch h
    · rename_i hb
      have hb' : LeaveBounds (s.rooms (targetRoom s (s.clients c).roomId)).game := by
        obtain ⟨h1, h2⟩ := not_or.mp hb
        exact ⟨Nat.not_lt.mp h1, Nat.not_lt.mp h2⟩
      split at h
      · rename_i j hp
        obtain ⟨rfl, rfl⟩ := Prod.mk.inj (Except.ok.inj h)
        exact .closed rfl hi' hb' hp
      · rename_i hp
        split at h
        · rename_i j hw
          obtain ⟨rfl, rfl⟩ := Prod.mk.inj (Except.ok.inj h)
          exact .unwatched rfl hi' hb' hp hw
        · rename_i hw
          obtain ⟨rfl, rfl⟩ := Prod.mk.inj (Except.ok.inj h)
          exact .leftNothing rfl hi' hb' hp hw

private theorem handleSendMessage_effect {message : CString}
    (h : handleSendMessage s c message = .ok (s', out)) :
    Effect s c rand (.sendMessage message) s' out := by
  simp only [handleSendMessage] at h
  split at h
  · exact nomatch h
  · split at h
    · exact nomatch h
    · rename_i hi
      split at h
      · exact nomatch h
      · obtain ⟨rfl, rfl⟩ := Prod.mk.inj (Except.ok.inj h)
        exact .messaged rfl (by omega)

/-- **INVERSION OF THE HANDLERS.** -/
theorem handleRequest_effect {q : Request}
    (h : handleRequest s c rand q = .ok (s', out)) : Effect s c rand q s' out := by
  cases q with
  | connect name => exact handleConnect_effect h
  | createRoom => exact handleCreateRoom_effect h
  | joinRoom roomId spectate => exact handleJoinRoom_effect h
  | play pos => exact handlePlay_effect h
  | leaveRoom => exact handleLeaveRoom_effect h
  | sendMessage message => exact handleSendMessage_effect h
  | setBiography biography =>
      obtain ⟨rfl, rfl⟩ := Prod.mk.inj (Except.ok.inj h)
      exact .described

/-! ## The two updates of `disconnect_user` -/

section Disconnect

variable {I : Server → Prop} {sock : Int} {roomId : UInt32}

theorem dropSpectators_invariant {i : Nat}
    (hspec : ∀ s j, I s → j < (s.rooms i).game.nbSpectators →
      ((s.rooms j).game.players (2 + j)).id = sock →
      I (setGame s i (removeSpectator (s.rooms i).game j))) :
    ∀ (fuel j : Nat) {s s₁ : Server}, I s → dropSpectators sock i fuel j s = .ok s₁ →
      I s₁ := by
  intro fuel
  induction fuel with
  | zero =>
      intro j s s₁ hI h
      exact Except.ok.inj h ▸ hI
  | succ fuel ih =>
      intro j s s₁ hI h
      simp only [dropSpectators] at h
      split at h
      · rename_i hj
        split at h
        · exact nomatch h
        · split at h
          · rename_i hid
            exact ih _ (hspec s j hI hj hid) h
          · exact ih _ hI h
      · exact Except.ok.inj h ▸ hI

/-- **INVERSION OF THE SPECTATOR LOOP.**  It runs to its end without a match, or it stops at the
    first one and goes on behind it in the room that has lost an entry. -/
theorem dropSpectators_cases {i : Nat} {s s₁ : Server} :
    ∀ (fuel j : Nat), (s.rooms i).game.nbSpectators ≤ j + fuel →
      dropSpectators sock i fuel j s = .ok s₁ →
      (s₁ = s ∧ ∀ k, j ≤ k → k < (s.rooms i).game.nbSpectators →
          k < maxRooms ∧ ((s.rooms k).game.players (2 + k)).id ≠ sock)
        ∨ ∃ j₁ fuel', j ≤ j₁ ∧ j₁ < (s.rooms i).game.nbSpectators
            ∧ ((s.rooms j₁).game.players (2 + j₁)).id = sock
            ∧ (∀ k, j ≤ k → k ≤ j₁ → k < maxRooms)
            ∧ (∀ k, j ≤ k → k < j₁ → ((s.rooms k).game.players (2 + k)).id ≠ sock)
            ∧ (s.rooms i).game.nbSpectators ≤ j₁ + 1 + fuel'
            ∧ dropSpectators sock i fuel' (j₁ + 1)
                (setGame s i (removeSpectator (s.rooms i).game j₁)) = .ok s₁ := by
  intro fuel
  induction fuel with
  | zero =>
      intro j hfuel h
      exact Or.inl ⟨(Except.ok.inj h).symm, fun k hj hk => absurd hk (by omega)⟩
  | succ fuel ih =>
      intro j hfuel h
      simp only [dropSpectators] at h
      split at h
      · rename_i hj
        split at h
        · cases h
        · rename_i hslot
          split at h
          · rename_i hhit
            refine Or.inr ⟨j, fuel, Nat.le_refl j, hj, hhit, ?_, ?_, by omega, h⟩
            · intro k hk hle
              omega
            · intro k hk hlt
              omega
          · rename_i hmiss
            rcases ih (j + 1) (by omega) h with ⟨rfl, hquiet⟩ | hnext
            · refine Or.inl ⟨rfl, fun k hk hlt => ?_⟩
              rcases Nat.lt_or_eq_of_le hk with hlt' | rfl
              · exact hquiet k hlt' hlt
              · exact ⟨by omega, hmiss⟩
            · obtain ⟨j₁, fuel', hle, hlt, hhit, hbound, hbefore, hfuel', hrest⟩ := hnext
              refine Or.inr ⟨j₁, fuel', by omega, hlt, hhit, ?_, ?_, hfuel', hrest⟩
              · intro k hk hle'
                rcases Nat.lt_or_eq_of_le hk with hlt' | rfl
                · exact hbound k hlt' hle'
                · omega
              · intro k hk hlt'
                rcases Nat.lt_or_eq_of_le hk with hgt | rfl
                · exact hbefore k hgt hlt'
                · exact hmiss
      · rename_i hend
        exact Or.inl ⟨(Except.ok.inj h).symm, fun k hj hk => absurd hk (by omega)⟩

/-- The loop up to an index, when nothing matches in front of it. -/
theorem dropSpectators_skip {i : Nat} {s : Server} (fuel : Nat) :
    ∀ (d j : Nat), (∀ k, j ≤ k → k < j + d → k < (s.rooms i).game.nbSpectators
        ∧ k < maxRooms ∧ ((s.rooms k).game.players (2 + k)).id ≠ sock) →
      dropSpectators sock i (d + fuel) j s = dropSpectators sock i fuel (j + d) s := by
  intro d
  induction d with
  | zero =>
      intro j _
      rw [Nat.zero_add, Nat.add_zero]
  | succ d ih =>
      intro j h
      obtain ⟨hj, hslot, hmiss⟩ := h j (Nat.le_refl j) (by omega)
      have hsucc : d + 1 + fuel = d + fuel + 1 := by omega
      have hnext : j + (d + 1) = j + 1 + d := by omega
      rw [hsucc, dropSpectators, if_pos hj, if_neg (by omega), if_neg hmiss, hnext]
      exact ih (j + 1) fun k hk hlt => h k (by omega) (by omega)

/-- Behind the last spectator the loop is over. -/
theorem dropSpectators_end {i : Nat} {s : Server} (fuel : Nat) {j : Nat}
    (hj : (s.rooms i).game.nbSpectators ≤ j) : dropSpectators sock i fuel j s = .ok s := by
  cases fuel with
  | zero => rfl
  | succ fuel => rw [dropSpectators, if_neg (by omega)]

/-- **INDUCTION RULE OF `disconnect_user`.**  It rewrites rooms in two ways only: it clears
    the id of a seat, or it removes a spectator entry. -/
theorem disconnectUser_invariant {n : Int} (hn : ∀ s, I s → s.nbRooms = n)
    (hseat : ∀ s i j, I s → Live s i → (s.rooms i).id = roomId →
      findPlayer (s.rooms i).game sock = some j →
      I (setGame s i (setPlayerId (s.rooms i).game j (-1))))
    (hspec : ∀ s i j, I s → Live s i → (s.rooms i).id = roomId →
      j < (s.rooms i).game.nbSpectators → ((s.rooms j).game.players (2 + j)).id = sock →
      I (setGame s i (removeSpectator (s.rooms i).game j)))
    {s s₁ : Server} {c : Nat} (hI : I s) (hsock : (s.clients c).sock = sock)
    (hroom : (s.clients c).roomId = roomId) (h : disconnectUser s c = .ok s₁) : I s₁ := by
  have hlist : ∀ (is : List Nat), (∀ i ∈ is, (i : Int) < n) → ∀ {s s₁ : Server}, I s →
      disconnectRooms sock roomId is s = .ok s₁ → I s₁ := by
    intro is
    induction is with
    | nil => intro _ s s₁ hI h; exact Except.ok.inj h ▸ hI
    | cons i is ih =>
        intro hlt s s₁ hI h
        have hrest : ∀ k ∈ is, (k : Int) < n := fun k hk =>
          hlt k (List.mem_cons_of_mem _ hk)
        have hi : (i : Int) < n := hlt i List.mem_cons_self
        have hlive : ∀ t, I t → Live t i := fun t ht => by
          simp only [Live]
          rw [hn t ht]
          exact hi
        simp only [disconnectRooms] at h
        split at h
        · rename_i hid
          split at h
          · rename_i j hp
            exact Except.ok.inj h ▸ hseat s i j hI (hlive s hI) hid hp
          · split at h
            · exact nomatch h
            · rename_i s₂ hs₂
              have hdropped : I s₂ ∧ (s₂.rooms i).id = roomId :=
                dropSpectators_invariant (I := fun t => I t ∧ (t.rooms i).id = roomId)
                  (fun t j ht hj hsock => ⟨hspec t i j ht.1 (hlive t ht.1) ht.2 hj hsock,
                    (setGame_id t i _ i).trans ht.2⟩) _ _ ⟨hI, hid⟩ hs₂
              exact ih hrest hdropped.1 h
        · exact ih hrest hI h
  simp only [disconnectUser] at h
  rw [hsock, hroom] at h
  refine hlist _ ?_ hI h
  intro i hi
  have hlt := List.mem_range.mp hi
  have hnb := hn s hI
  omega

end Disconnect

section Scan

variable {sock : Int} {roomId : UInt32} {i j : Nat}

theorem disconnectRooms_append {is' : List Nat} :
    ∀ {is : List Nat}, (∀ k ∈ is, (s.rooms k).id ≠ roomId) →
      disconnectRooms sock roomId (is ++ is') s = disconnectRooms sock roomId is' s := by
  intro is
  induction is with
  | nil =>
      intro _
      rfl
  | cons k is ih =>
      intro hne
      rw [List.cons_append, disconnectRooms, if_neg (hne k List.mem_cons_self)]
      exact ih fun k' hk' => hne k' (List.mem_cons_of_mem _ hk')

theorem disconnectRooms_skip {is : List Nat}
    (hne : ∀ k ∈ is, (s.rooms k).id ≠ roomId) :
    disconnectRooms sock roomId is s = .ok s := by
  rw [← List.append_nil is, disconnectRooms_append hne]
  rfl

/-- The loop over the rooms reaches the first room with the id. -/
theorem disconnectUser_eq (hfind : findRoom s (s.clients c).roomId = some i) :
    disconnectUser s c = disconnectRooms (s.clients c).sock (s.clients c).roomId
      (i :: List.range' (i + 1) (s.nbRooms.toNat - i - 1)) s := by
  obtain ⟨hi, -, hfirst⟩ := findRoom_eq_some.mp hfind
  have hlt := live_iff.mp hi
  obtain ⟨m, hm⟩ : ∃ m, s.nbRooms.toNat - i = m + 1 := ⟨s.nbRooms.toNat - i - 1, by omega⟩
  simp only [disconnectUser]
  rw [SlotArray.range_split (Nat.le_of_lt hlt), hm, List.range'_succ]
  refine disconnectRooms_append fun k hk => ?_
  exact hfirst k (List.mem_range.mp hk)

/-- Without a room the loops do nothing. -/
theorem disconnectUser_absent (hfind : findRoom s (s.clients c).roomId = none) :
    disconnectUser s c = .ok s := by
  refine disconnectRooms_skip fun k hk => ?_
  exact findRoom_eq_none.mp hfind k (live_iff.mpr (List.mem_range.mp hk))

/-- A player is found in the first room with the id, and the loops end. -/
theorem disconnectUser_player (hfind : findRoom s (s.clients c).roomId = some i)
    (hp : findPlayer (s.rooms i).game (s.clients c).sock = some j) :
    disconnectUser s c = .ok (setGame s i (setPlayerId (s.rooms i).game j (-1))) := by
  rw [disconnectUser_eq hfind]
  simp only [disconnectRooms, if_pos (findRoom_eq_some.mp hfind).2.1, hp]

end Scan

/-! ## Whole events -/

/-- The state in which a frame is dispatched. -/
def received (s : Server) (body : List UInt8) : Server :=
  { s with buffer := storeBody s.buffer body }

/-- A frame that fits is dispatched to the handler of its request. -/
theorem step_request {body : List UInt8} {q : Request} (hlen : body.length < bufSize)
    (hq : readRequest (received s body).buffer = some q) :
    step s (.frame c body rand) = handleRequest (received s body) c rand q := by
  have hq' : readRequest (storeBody s.buffer body) = some q := hq
  simp only [step, readFrame]
  rw [if_neg (Nat.not_le.mpr hlen), hq']
  rfl

theorem step_play (s : Server) (c : Nat) (p : UInt8) (rand : UInt32) :
    step s (.frame c (Request.play p).body rand)
      = handlePlay (received s (Request.play p).body) c p := by
  have hlen : (Request.play p).body.length < bufSize := by
    show 2 < bufSize
    decide
  exact step_request hlen (readRequest_body s.buffer hlen)

/-- The client table after `accept`. -/
def accepted (s : Server) (csock : Int) : Server :=
  { setClient s s.nbClients ⟨csock, CString.empty, 0, CString.empty⟩ with
    nbClients := s.nbClients + 1 }

theorem accepted_self (s : Server) (csock : Int) :
    (accepted s csock).clients s.nbClients = ⟨csock, CString.empty, 0, CString.empty⟩ :=
  setClient_self s s.nbClients _

theorem accepted_of_ne {a : Nat} (ha : a ≠ s.nbClients) (csock : Int) :
    (accepted s csock).clients a = s.clients a := setClient_of_ne ha _

/-- What an event of each kind does. -/
def Outcome (s : Server) : Event → Server → List Sent → Prop
  | .accept csock, s', out =>
      s.nbClients < maxClients ∧ s' = accepted s csock ∧ out = []
  | .frame c body rand, s', out =>
      body.length < bufSize
        ∧ ((readRequest (received s body).buffer = none ∧ s' = received s body ∧ out = [])
          ∨ ∃ q, readRequest (received s body).buffer = some q
            ∧ Effect (received s body) c rand q s' out)
  | .disconnect c, s', out =>
      ∃ s₁, disconnectUser s c = .ok s₁
        ∧ s' = { removeClient s₁ c with buffer := farewell (s.clients c).name } ∧ out = []

/-- What `handle_leave_room` does once its indices are in range. -/
def leaveResult (s : Server) (c i : Nat) : Server × List Sent :=
  match findPlayer (s.rooms i).game (s.clients c).sock with
  | some j => (deleteRoom (setRoomId s c 0) i, leaveFrames (s.rooms i).game j)
  | none =>
      match findSpectator (s.rooms i).game (s.clients c).sock with
      | some j => (setGame (setRoomId s c 0) i (removeSpectator (s.rooms i).game j), [])
      | none => (setRoomId s c 0, [])

theorem handleLeaveRoom_eq {i : Nat} (hi : targetRoom s (s.clients c).roomId = i)
    (hlt : i < maxRooms) (hb : LeaveBounds (s.rooms i).game) :
    handleLeaveRoom s c = .ok (leaveResult s c i) := by
  subst hi
  have h1 : ¬ targetRoom s (s.clients c).roomId ≥ maxRooms := by omega
  have h2 : ¬ ((s.rooms (targetRoom s (s.clients c).roomId)).game.nbPlayers
        + (s.rooms (targetRoom s (s.clients c).roomId)).game.nbSpectators > maxGamePlayers
      ∨ 2 + (s.rooms (targetRoom s (s.clients c).roomId)).game.nbSpectators
        > maxGamePlayers) := by
    obtain ⟨hb1, hb2⟩ := hb
    omega
  simp only [handleLeaveRoom, if_neg h1]
  refine (if_neg h2).trans ?_
  simp only [leaveResult]
  cases hp : findPlayer (s.rooms (targetRoom s (s.clients c).roomId)).game
    (s.clients c).sock with
  | some j => simp only [setRoomId, setClient, hp]
  | none =>
      cases hw : findSpectator (s.rooms (targetRoom s (s.clients c).roomId)).game
        (s.clients c).sock with
      | some j => simp only [setRoomId, setClient, hp, hw]
      | none => simp only [setRoomId, setClient, hp, hw]

/-- The room the not-found exit of a lookup loop leaves the index on. -/
theorem targetRoom_of_find {roomId : UInt32} {i : Nat} (h : findRoom s roomId = some i) :
    targetRoom s roomId = i := by
  rw [targetRoom, h]
  rfl

theorem targetRoom_of_none {roomId : UInt32} (h : findRoom s roomId = none) :
    targetRoom s roomId = s.nbRooms.toNat := by
  rw [targetRoom, h]
  rfl

theorem targetRoom_cases (s : Server) (roomId : UInt32) :
    findRoom s roomId = some (targetRoom s roomId)
      ∨ (findRoom s roomId = none ∧ targetRoom s roomId = s.nbRooms.toNat) := by
  cases h : findRoom s roomId with
  | none => exact Or.inr ⟨rfl, targetRoom_of_none h⟩
  | some i => exact Or.inl (congrArg some (targetRoom_of_find h).symm)

theorem step_cases {e : Event} (h : step s e = .ok (s', out)) : Outcome s e s' out := by
  cases e with
  | accept csock =>
      simp only [step, acceptClient] at h
      split at h
      · rename_i hn
        obtain ⟨rfl, rfl⟩ := Prod.mk.inj (Except.ok.inj h)
        exact ⟨hn, rfl, rfl⟩
      · exact nomatch h
  | frame c body rand =>
      simp only [step, readFrame] at h
      split at h
      · exact nomatch h
      · rename_i hlen
        refine ⟨by omega, ?_⟩
        split at h
        · rename_i q hq
          exact Or.inr ⟨q, hq, handleRequest_effect h⟩
        · rename_i hq
          obtain ⟨rfl, rfl⟩ := Prod.mk.inj (Except.ok.inj h)
          exact Or.inl ⟨hq, rfl, rfl⟩
  | disconnect c =>
      simp only [step, dropClient] at h
      split at h
      · exact nomatch h
      · rename_i s₁ hs₁
        obtain ⟨rfl, rfl⟩ := Prod.mk.inj (Except.ok.inj h)
        exact ⟨s₁, hs₁, rfl, rfl⟩

/-! ## Guards and the induction rule -/

/-- A condition on events: on the descriptor of an `accept`, on the request a frame is decoded
    to, and on the client that disconnects. -/
structure Guard where
  accept : Server → Int → Prop
  request : Server → Nat → UInt32 → Request → Prop
  disconnect : Server → Nat → Prop

/-- The condition an event meets in a state. -/
def Guard.meets (g : Guard) (s : Server) : Event → Prop
  | .accept csock => g.accept s csock
  | .frame c body rand =>
      match readRequest (received s body).buffer with
      | some q => g.request (received s body) c rand q
      | none => True
  | .disconnect c => g.disconnect s c

instance Guard.decidableMeets {g : Guard} [∀ s k, Decidable (g.accept s k)]
    [∀ s c rand q, Decidable (g.request s c rand q)] [∀ s c, Decidable (g.disconnect s c)]
    (s : Server) : ∀ e, Decidable (g.meets s e)
  | .accept csock => inferInstanceAs (Decidable (g.accept s csock))
  | .frame c body rand =>
      match hq : readRequest (received s body).buffer with
      | some q => decidable_of_iff (g.request (received s body) c rand q) (by
          simp only [Guard.meets, hq])
      | none => isTrue (by simp only [Guard.meets, hq])
  | .disconnect c => inferInstanceAs (Decidable (g.disconnect s c))

/-- A frame meets a guard when the request it is decoded to does. -/
theorem Guard.meets_frame {g : Guard} {body : List UInt8} :
    g.meets s (.frame c body rand)
      ↔ ∀ q, readRequest (received s body).buffer = some q →
          g.request (received s body) c rand q := by
  cases hq : readRequest (received s body).buffer with
  | none => simp [Guard.meets, hq]
  | some q => simp [Guard.meets, hq]

/-- The guard that every event meets. -/
def Guard.any : Guard where
  accept _ _ := True
  request _ _ _ _ := True
  disconnect _ _ := True

instance (s : Server) (csock : Int) : Decidable (Guard.any.accept s csock) :=
  inferInstanceAs (Decidable True)

instance (s : Server) (c : Nat) (rand : UInt32) (q : Request) :
    Decidable (Guard.any.request s c rand q) :=
  inferInstanceAs (Decidable True)

instance (s : Server) (c : Nat) : Decidable (Guard.any.disconnect s c) :=
  inferInstanceAs (Decidable True)

theorem Guard.meets_any (e : Event) : Guard.any.meets s e := by
  cases e with
  | accept csock => trivial
  | frame c body rand =>
      exact Guard.meets_frame.mpr fun _ _ => trivial
  | disconnect c => trivial

/-- An evaluated run from the initial state with a zero buffer, as a reachable state. -/
theorem Guard.reaches {g : Guard} {β : Type} {f : Server → β} {b : β} (es : List Event)
    (hm : GuardedRun.Meets trans g.meets (initial fun _ => 0) es)
    (hr : (GuardedRun.run trans (initial fun _ => 0) es).map (fun r => f r.1) = some b) :
    ∃ s, Reachable g.meets s ∧ f s = b :=
  GuardedRun.reachable_of_eval ⟨_, rfl⟩ hm hr

/-- **INVARIANT RULE OF THE SERVER.**  A property that does not look at the receive buffer
    holds of every state reached under a guard when it holds initially and every guarded
    accept, request and disconnection preserves it.  `J` brings in what is already known of
    all those states. -/
theorem Guard.invariant_with {g : Guard} {I J : Server → Prop}
    (hJ : ∀ s, Reachable g.meets s → J s) (hJbuffer : ∀ s b, J s → J { s with buffer := b })
    (hinit : ∀ b, I (initial b))
    (hbuffer : ∀ s b, I s → I { s with buffer := b })
    (haccept : ∀ s csock, J s → I s → g.accept s csock → s.nbClients < maxClients →
      (∀ i < s.nbClients, (s.clients i).sock ≠ csock) → 0 < csock → I (accepted s csock))
    (hrequest : ∀ s c rand q s' out, J s → I s → c < s.nbClients → g.request s c rand q →
      Effect s c rand q s' out → I s')
    (hdisconnect : ∀ s c s₁, J s → I s → c < s.nbClients → g.disconnect s c →
      disconnectUser s c = .ok s₁ → I (removeClient s₁ c)) :
    ∀ {s : Server}, Reachable g.meets s → I s := by
  intro s h
  refine GuardedRun.Reachable.invariant_of ?_ ?_ h
  · rintro s ⟨b, rfl⟩
    exact hinit b
  · intro s e s' out hr hI hg htr
    obtain ⟨hp, hs⟩ := trans_eq_some htr
    have hout := step_cases hs
    cases e with
    | accept csock =>
        obtain ⟨hn, rfl, -⟩ := hout
        exact haccept s csock (hJ s hr) hI hg hn hp.2 hp.1
    | frame c body rand =>
        have hI' : I (received s body) := hbuffer s _ hI
        obtain ⟨-, ⟨-, rfl, -⟩ | ⟨q, hq, heff⟩⟩ := hout
        · exact hI'
        · exact hrequest _ c rand q s' out (hJbuffer s _ (hJ s hr)) hI' hp.1
            (Guard.meets_frame.mp hg q hq) heff
    | disconnect c =>
        obtain ⟨s₁, hs₁, rfl, -⟩ := hout
        exact hbuffer _ _ (hdisconnect s c s₁ (hJ s hr) hI hp hg hs₁)

/-- The rule with nothing known yet. -/
theorem Guard.invariant {g : Guard} {I : Server → Prop}
    (hinit : ∀ b, I (initial b))
    (hbuffer : ∀ s b, I s → I { s with buffer := b })
    (haccept : ∀ s csock, I s → g.accept s csock → s.nbClients < maxClients →
      (∀ i < s.nbClients, (s.clients i).sock ≠ csock) → 0 < csock → I (accepted s csock))
    (hrequest : ∀ s c rand q s' out, I s → c < s.nbClients → g.request s c rand q →
      Effect s c rand q s' out → I s')
    (hdisconnect : ∀ s c s₁, I s → c < s.nbClients → g.disconnect s c →
      disconnectUser s c = .ok s₁ → I (removeClient s₁ c)) :
    ∀ {s : Server}, Reachable g.meets s → I s :=
  Guard.invariant_with (J := fun _ => True) (fun _ _ => trivial) (fun _ _ _ => trivial) hinit
    hbuffer (fun s csock _ => haccept s csock)
    (fun s c rand q s' out _ => hrequest s c rand q s' out) (fun s c s₁ _ => hdisconnect s c s₁)

/-! ## Invariants of single slots -/

/-- The counts of the tables, which the handlers never change but by one. -/
theorem Effect.counts {q : Request} (h : Effect s c rand q s' out) :
    s'.nbClients = s.nbClients := by
  cases h <;> rfl

theorem setClient_sock {client : Client} (h : client.sock = (s.clients c).sock)
    (a : Nat) : ((setClient s c client).clients a).sock = (s.clients a).sock :=
  setClient_field Client.sock h a

theorem setRoomId_sock (s : Server) (c : Nat) (roomId : UInt32) (a : Nat) :
    ((setRoomId s c roomId).clients a).sock = (s.clients a).sock :=
  setClient_sock (by rfl) a

theorem setRoomId_name (s : Server) (c : Nat) (id : UInt32) (a : Nat) :
    ((setRoomId s c id).clients a).name = (s.clients a).name :=
  setClient_field Client.name (by rfl) a

/-- No request moves a client to another descriptor. -/
theorem Effect.sock {q : Request} (h : Effect s c rand q s' out) (a : Nat) :
    (s'.clients a).sock = (s.clients a).sock := by
  cases h with
  | named _ _ => exact setClient_sock (by rfl) a
  | resumed _ _ _ => exact (setRoomId_sock _ c _ a).trans (setClient_sock (by rfl) a)
  | created _ _ => exact setRoomId_sock s c _ a
  | joined _ _ _ _ => exact setRoomId_sock s c _ a
  | started _ _ _ _ => exact setRoomId_sock s c _ a
  | closed _ _ _ _ => exact setRoomId_sock s c 0 a
  | unwatched _ _ _ _ _ => exact setRoomId_sock s c 0 a
  | leftNothing _ _ _ _ _ => exact setRoomId_sock s c 0 a
  | described => exact setClient_sock (by rfl) a
  | nameRefused _ => rfl
  | joinNotFound _ => rfl
  | joinFull _ _ => rfl
  | playedNowhere _ => rfl
  | played _ _ => rfl
  | playedLast _ _ => rfl
  | messaged _ _ => rfl

theorem disconnectUser_frame (h : disconnectUser s c = .ok s') :
    s'.clients = s.clients ∧ s'.nbClients = s.nbClients ∧ s'.nbRooms = s.nbRooms := by
  refine disconnectUser_invariant
    (I := fun t => t.clients = s.clients ∧ t.nbClients = s.nbClients
      ∧ t.nbRooms = s.nbRooms)
    (fun t ht => ht.2.2) ?_ ?_ ⟨rfl, rfl, rfl⟩ rfl rfl h
  · intro t i j ht _ _ _
    exact ht
  · intro t i j ht _ _ _ _
    exact ht

/-- The client table never overflows in a defined run: `accept` past its end has no successor. -/
theorem nbClients_le {g : Guard} (h : Reachable g.meets s) : s.nbClients ≤ maxClients := by
  refine Guard.invariant (I := fun s => s.nbClients ≤ maxClients) ?_ ?_ ?_ ?_ ?_ h
  · intro b
    exact Nat.zero_le _
  · intro t b ht
    exact ht
  · intro t csock _ _ hn _ _
    exact hn
  · intro t c rand q t' out ht _ _ heff
    show t'.nbClients ≤ maxClients
    rw [heff.counts]
    exact ht
  · intro t c t₁ ht _ _ hd
    have hle : t₁.nbClients ≤ maxClients := by
      rw [(disconnectUser_frame hd).2.1]
      exact ht
    exact Nat.le_trans (Nat.sub_le _ _) hle

/-- What each handler does to the game in a slot. -/
structure SlotRule (P : Game → Prop) : Prop where
  zero : P zeroGame
  create : ∀ game player, P game → player.clientIndex < maxClients →
    P (gameAddPlayer (gameInit game) player false)
  setId : ∀ game j id, P game → P (setPlayerId game j id)
  join : ∀ game player spectate, P game → player.clientIndex < maxClients →
    JoinOpen game spectate →
    let game' := gameAddPlayer game player (spectate ≠ 0)
    ¬ (game'.nbPlayers ≥ 2 ∧ game'.isStarted = false) → P game'
  start : ∀ game player spectate, P game → player.clientIndex < maxClients →
    JoinOpen game spectate →
    let game' := gameAddPlayer game player (spectate ≠ 0)
    game'.nbPlayers ≥ 2 ∧ game'.isStarted = false → P { game' with isStarted := true }
  play : ∀ game pos side, P game → P (gamePlay machine game pos side).1
  unwatch : ∀ game j, P game → j < game.nbSpectators → P (removeSpectator game j)

private theorem deleteRoom_slots {P : Game → Prop} {i : Nat}
    (h : ∀ k, P (s.rooms k).game) (k : Nat) : P ((deleteRoom s i).rooms k).game := by
  show P (SlotArray.shiftDown s.rooms i (s.nbRooms - 1).toNat k).game
  rw [SlotArray.shiftDown_apply]
  split
  · exact h (k + 1)
  · exact h k

/-- **SLOT RULE.**  What every handler preserves in one slot holds of every slot, live or
    not, in every reachable state. -/
theorem SlotRule.reachable {g : Guard} {P : Game → Prop} (hP : SlotRule P)
    (h : Reachable g.meets s) : ∀ k, P (s.rooms k).game := by
  refine (Guard.invariant (g := g)
    (I := fun s => s.nbClients ≤ maxClients ∧ ∀ k, P (s.rooms k).game)
    ?_ ?_ ?_ ?_ ?_ h).2
  · intro b
    exact ⟨Nat.zero_le _, fun _ => hP.zero⟩
  · intro t b ht
    exact ht
  · intro t csock ht _ hn _ _
    exact ⟨hn, ht.2⟩
  · rintro t c rand q t' out ⟨hn, ht⟩ hc _ heff
    refine ⟨heff.counts ▸ hn, ?_⟩
    have hidx : (newPlayer t c).clientIndex < maxClients := Nat.lt_of_lt_of_le hc hn
    have hset : ∀ (u : Server) i (room : Room), (∀ k, k ≠ i → P (u.rooms k).game) →
        P room.game → ∀ k, P ((setRoom u i room).rooms k).game :=
      fun u i room => setRoom_slots (P := fun _ => P)
    have ht' : ∀ i k, k ≠ i → P (t.rooms k).game := fun _ k _ => ht k
    cases heff with
    | nameRefused _ => exact ht
    | named _ _ => exact ht
    | resumed _ _ _ => exact hset _ _ _ (ht' _) (hP.setId _ _ _ (ht _))
    | created _ _ =>
        exact hset t _ _ (ht' _) (hP.create (t.rooms t.nbRooms.toNat).game _ (ht _) hidx)
    | joinNotFound _ => exact ht
    | joinFull _ _ => exact ht
    | joined _ hopen _ hgo => exact hset _ _ _ (ht' _) (hP.join _ _ _ (ht _) hidx hopen hgo)
    | @started roomId spectate i frame _ hopen _ hgo =>
        rw [setGame_joined]
        exact hset t _ _ (ht' _) (hP.start _ _ _ (ht _) hidx hopen hgo)
    | playedNowhere _ => exact ht
    | played _ _ => exact hset _ _ _ (ht' _) (hP.play _ _ _ (ht _))
    | playedLast _ _ =>
        exact deleteRoom_slots (hset _ _ _ (ht' _) (hP.play _ _ _ (ht _)))
    | closed _ _ _ _ => exact deleteRoom_slots (s := setRoomId t c 0) ht
    | unwatched _ _ _ _ hw =>
        exact hset (setRoomId t c 0) _ _ (ht' _)
          (hP.unwatch _ _ (ht _) (findSpectator_eq_some.mp hw).1)
    | leftNothing _ _ _ _ _ => exact ht
    | messaged _ _ => exact ht
    | described => exact ht
  · rintro t c t₁ ⟨hn, ht⟩ _ _ hd
    refine ⟨?_, ?_⟩
    · have hle : t₁.nbClients ≤ maxClients := by
        rw [(disconnectUser_frame hd).2.1]
        exact hn
      exact Nat.le_trans (Nat.sub_le _ _) hle
    · refine (disconnectUser_invariant
        (I := fun u => u.nbRooms = t.nbRooms ∧ ∀ k, P (u.rooms k).game)
        (fun u hu => hu.1) ?_ ?_ ⟨rfl, ht⟩ rfl rfl hd).2
      · rintro u i j ⟨hnb, hu⟩ _ _ _
        exact ⟨hnb, setGame_slots (P := fun _ => P) (fun k _ => hu k) (hP.setId _ _ _ (hu _))⟩
      · rintro u i j ⟨hnb, hu⟩ _ _ hj _
        exact ⟨hnb, setGame_slots (P := fun _ => P) (fun k _ => hu k) (hP.unwatch _ _ (hu _) hj)⟩

end AwaleEffect
