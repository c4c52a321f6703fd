import AwaleOnline.AwaleBoundsProofs

/-!
# Who may move the seeds of a room

`handle_play` infers a side from a socket comparison and calls `room_play`.  It reads neither
`is_started` nor `turn`, and every socket that is not the one of seat `0` plays as side `1`.

* **`play_changes`** — a PLAY changes the position of a room exactly when the sender's room
  is found and `game_play` accepts the move;
* **`History`** — the accepted plays of every slot, recorded beside the state;
* **`play_authorisation`** — a PLAY frame is authorised exactly under `PlayMeets`; and in every run
  whose PLAYs meet it, the recorded plays of every live room alternate between the two sides,
  start with side `0` on the initial position, and lead to the position the room is in.
-/

namespace AwaleAuthorisation

open AwaleGame AwaleProtocol AwaleServer AwaleEffect AwaleBounds

/-! ## Positions -/

/-- The board, the turn and the captured counts of the seats that are taken. -/
structure Position where
  board : Board
  turn : Nat
  captured : Nat → Int

def position (game : Game) : Position where
  board := game.board
  turn := game.turn
  captured side := if side < game.nbPlayers then (game.players side).captured else 0

/-- The position a room starts from. -/
def startPosition : Position where
  board := fun _ => initialSeed
  turn := 0
  captured := fun _ => 0

/-- What `position` reads of a game, field by field. -/
theorem position_congr {game game' : Game} (hb : game.board = game'.board)
    (ht : game.turn = game'.turn)
    (hc : ∀ side, (position game).captured side = (position game').captured side) :
    position game = position game' := by
  have hc' : (position game).captured = (position game').captured := funext hc
  show Position.mk game.board game.turn (position game).captured
    = Position.mk game'.board game'.turn (position game').captured
  rw [hb, ht, hc']

/-- Writing a player that keeps the captured count of its entry does not move a seed. -/
theorem position_setPlayerId (game : Game) (j : Nat) (id : Int) :
    position (setPlayerId game j id) = position game := by
  refine position_congr rfl rfl ?_
  intro side
  show (if side < game.nbPlayers then (Function.update game.players j _ side).captured else 0)
    = if side < game.nbPlayers then (game.players side).captured else 0
  by_cases hj : side = j
  · subst hj
    rw [Function.update_self]
  · rw [Function.update_of_ne hj]

/-- A spectator's removal rewrites an entry from `2` on. -/
theorem position_removeSpectator {game : Game} (h : game.nbPlayers ≤ 2) (j : Nat) :
    position (removeSpectator game j) = position game := by
  refine position_congr rfl rfl ?_
  intro side
  show (if side < game.nbPlayers then
      (Function.update game.players (j + 2) _ side).captured else 0)
    = if side < game.nbPlayers then (game.players side).captured else 0
  by_cases hs : side < game.nbPlayers
  · rw [Function.update_of_ne (by omega)]
  · rw [if_neg hs, if_neg hs]

/-- A player that joins starts with no seeds, a spectator takes an entry from `2` on. -/
theorem position_gameAddPlayer {game : Game} (h : game.nbPlayers ≤ 2) (player : Player)
    (spectate : Bool) : position (gameAddPlayer game player spectate) = position game := by
  refine position_congr rfl rfl ?_
  intro side
  cases spectate with
  | false =>
      show (if side < game.nbPlayers + 1 then
          (Function.update game.players game.nbPlayers _ side).captured else 0)
        = if side < game.nbPlayers then (game.players side).captured else 0
      rcases Nat.lt_trichotomy side game.nbPlayers with hlt | heq | hgt
      · rw [if_pos (by omega), if_pos hlt, Function.update_of_ne (by omega)]
      · rw [heq, Function.update_self, if_pos (by omega), if_neg (by omega)]
      · rw [if_neg (by omega), if_neg (by omega)]
  | true =>
      show (if side < game.nbPlayers then
          (Function.update game.players (2 + game.nbSpectators) _ side).captured else 0)
        = if side < game.nbPlayers then (game.players side).captured else 0
      by_cases hs : side < game.nbPlayers
      · rw [Function.update_of_ne (by omega)]
      · rw [if_neg hs, if_neg hs]

theorem position_created (game : Game) (player : Player) :
    position (gameAddPlayer (gameInit game) player false) = startPosition := by
  rw [position_gameAddPlayer (Nat.zero_le 2)]
  refine congrArg (Position.mk (fun _ => initialSeed) 0) (funext ?_)
  intro side
  exact if_neg (Nat.not_lt_zero side)

/-! ## One PLAY -/

/-- The number of the house a PLAY names, on the side the server infers. -/
def houseIn (s : Server) (c i : Nat) (pos : UInt8) : Int :=
  (sideIn s c i * boardSize / 2 + pos.toNat : Nat)

/-- The state right after `handle_play` called `room_play`. -/
def roomPlayed (s : Server) (c : Nat) (pos : UInt8) : Server :=
  match findRoom s (s.clients c).roomId with
  | none => s
  | some i => setGame s i (playIn s c i pos).1

/-- What `handle_play` leaves: the state after `room_play`, with the room deleted when its game
    is over. -/
def PlayDone (s : Server) (c : Nat) (pos : UInt8) (s' : Server) : Prop :=
  s' = roomPlayed s c pos
    ∨ ∃ i, findRoom s (s.clients c).roomId = some i
      ∧ gameIsEnded ((roomPlayed s c pos).rooms i).game ≠ .notEnded
      ∧ s' = deleteRoom (roomPlayed s c pos) i

theorem handlePlay_roomPlayed {s s' : Server} {c : Nat} {pos : UInt8} {out : List Sent}
    (h : handlePlay s c pos = .ok (s', out)) : PlayDone s c pos s' := by
  have heff : Effect s c 0 (.play pos) s' out := handleRequest_effect h
  cases heff with
  | playedNowhere hfind =>
      refine Or.inl ?_
      simp only [roomPlayed, hfind]
  | played hfind _ =>
      refine Or.inl ?_
      simp only [roomPlayed, hfind]
  | @playedLast _ i hfind hend =>
      have hplayed : roomPlayed s c pos = setGame s i (playIn s c i pos).1 := by
        simp only [roomPlayed, hfind]
      refine Or.inr ⟨i, hfind, ?_, by rw [hplayed]⟩
      rw [hplayed, setGame_self]
      exact hend

/-- What a PLAY frame leaves. -/
theorem trans_roomPlayed {s s' : Server} {c : Nat} {pos : UInt8} {rand : UInt32}
    {out : List Sent} (h : trans s (.frame c (Request.play pos).body rand) = some (s', out)) :
    PlayDone (received s (Request.play pos).body) c pos s' :=
  handlePlay_roomPlayed ((step_play s c pos rand).symm.trans (trans_eq_some h).2)

theorem roomPlayed_received (s : Server) (body : List UInt8) (c : Nat) (pos : UInt8) :
    (roomPlayed (received s body) c pos).rooms = (roomPlayed s c pos).rooms := by
  have hsame : findRoom (received s body) ((received s body).clients c).roomId
      = findRoom s (s.clients c).roomId := rfl
  simp only [roomPlayed, hsame]
  cases findRoom s (s.clients c).roomId with
  | none => rfl
  | some i => rfl

/-- Client `c` may play in room `k`: the game has started, the side the server plays for is
    a seat of the client's, and that side is to move. -/
structure Authorised (s : Server) (c k : Nat) : Prop where
  started : (s.rooms k).game.isStarted = true
  seated : sideIn s c k < (s.rooms k).game.nbPlayers
  occupant : ((s.rooms k).game.players (sideIn s c k)).id = (s.clients c).sock
  turn : (s.rooms k).game.turn = sideIn s c k

/-- The PLAY finds no room, or `game_play` rejects its house, or the room it finds is started,
    its turn is the inferred side and that seat holds the sender's socket. -/
def PlayMeets (s : Server) (c : Nat) (pos : UInt8) : Prop :=
  ∀ i ∈ findRoom s (s.clients c).roomId,
    playCheck (s.rooms i).game (houseIn s c i pos) (sideIn s c i) = .validPlay →
      (s.rooms i).game.isStarted = true
        ∧ ((s.rooms i).game.players (sideIn s c i)).id = (s.clients c).sock
        ∧ (s.rooms i).game.turn = sideIn s c i

instance (s : Server) (c : Nat) (pos : UInt8) : Decidable (PlayMeets s c pos) :=
  inferInstanceAs (Decidable (∀ i ∈ findRoom s (s.clients c).roomId, _ → _))

theorem sideIn_le (s : Server) (c i : Nat) : sideIn s c i ≤ 1 := by
  by_cases h : ((s.rooms i).game.players 0).id = (s.clients c).sock
  · rw [sideIn_zero h]
    exact Nat.zero_le 1
  · rw [sideIn_one h]

/-- **A MOVE CHANGES THE POSITION EXACTLY WHEN IT IS ACCEPTED**: it passes the turn. -/
theorem play_changes (game : Game) (pos : Int) (side : Nat) :
    position (gamePlay machine game pos side).1 ≠ position game
      ↔ playCheck game pos side = .validPlay := by
  constructor
  · intro hne
    by_contra h
    rw [gamePlay_rejected h] at hne
    exact hne rfl
  · intro h heq
    have hturn : (gamePlay machine game pos side).1.turn = game.turn :=
      congrArg Position.turn heq
    rw [gamePlay_turn h] at hturn
    split at hturn <;> omega

/-- **AUTHORISATION OF ONE PLAY.**  It moves seeds of authorised rooms only, exactly under
    `PlayMeets`. -/
theorem authorised_iff {s : Server} (hsized : ∀ k, Sized (s.rooms k).game) (c : Nat)
    (pos : UInt8) :
    (∀ k, Live s k →
      position ((roomPlayed s c pos).rooms k).game ≠ position (s.rooms k).game →
      Authorised s c k) ↔ PlayMeets s c pos := by
  cases hfind : findRoom s (s.clients c).roomId with
  | none =>
      constructor
      · intro _ i hi
        rw [hfind] at hi
        exact nomatch hi
      · intro _ k _ hne
        simp only [roomPlayed, hfind] at hne
        exact absurd rfl hne
  | some i =>
      have hplayed : roomPlayed s c pos = setGame s i (playIn s c i pos).1 := by
        simp only [roomPlayed, hfind]
      have hself : ((roomPlayed s c pos).rooms i).game
          = (gamePlay machine (s.rooms i).game (houseIn s c i pos) (sideIn s c i)).1 := by
        rw [hplayed, setGame_self]
        rfl
      constructor
      · intro h i' hi' hvalid
        rw [hfind] at hi'
        obtain rfl := Option.some.inj hi'
        have hlive := (findRoom_eq_some.mp hfind).1
        have hauth := h i hlive (by rw [hself]; exact (play_changes _ _ _).mpr hvalid)
        exact ⟨hauth.started, hauth.occupant, hauth.turn⟩
      · intro h k _ hne
        by_cases hk : k = i
        · subst hk
          rw [hself] at hne
          obtain ⟨h1, h2, h3⟩ := h k hfind ((play_changes _ _ _).mp hne)
          -- a started room has both seats taken
          have htwo := (hsized k).started.mp h1
          have hside := sideIn_le s c k
          exact ⟨h1, by omega, h2, h3⟩
        · exfalso
          apply hne
          rw [hplayed, setGame_of_ne hk]

/-! ## The accepted plays of a room -/

/-- A move `game_play` accepted: the sender, the game it found, and the arguments. -/
structure AcceptedPlay where
  sock : Int
  game : Game
  pos : Int
  side : Nat

/-- What the server has to ask of a move. -/
structure AcceptedPlay.Fair (r : AcceptedPlay) : Prop where
  accepted : playCheck r.game r.pos r.side = .validPlay
  started : r.game.isStarted = true
  players : r.game.nbPlayers = 2
  occupant : (r.game.players r.side).id = r.sock
  turn : r.game.turn = r.side

/-- The position a move leads to. -/
def AcceptedPlay.result (r : AcceptedPlay) : Position :=
  position (gamePlay machine r.game r.pos r.side).1

/-- Fair plays that lead from position `p` to position `q`, `side` first and then the two
    sides in turn, each on the position the one before led to. -/
def Alternates : Nat → Position → List AcceptedPlay → Position → Prop
  | _, p, [], q => p = q
  | side, p, r :: rs, q =>
      r.side = side ∧ position r.game = p ∧ r.Fair ∧ Alternates (1 - side) r.result rs q

theorem Alternates.snoc {r : AcceptedPlay} {q : Position} (hq : position r.game = q)
    (hr : r.Fair) :
    ∀ (rs : List AcceptedPlay) {side : Nat} {p : Position}, side ≤ 1 → p.turn = side →
      Alternates side p rs q → Alternates side p (rs ++ [r]) r.result := by
  intro rs
  induction rs with
  | nil =>
      intro side p _ hturn h
      have hp : p = q := h
      have hside : r.side = side := by
        rw [← hr.turn, ← hturn, hp, ← hq]
        rfl
      exact ⟨hside, by rw [hq, hp], hr, rfl⟩
  | cons r₀ rs ih =>
      intro side p hle hturn h
      obtain ⟨h1, h2, h3, h4⟩ := h
      refine ⟨h1, h2, h3, ih (by omega) ?_ h4⟩
      -- an accepted move passes the turn
      have hnext : r₀.result.turn = if r₀.game.turn = 0 then 1 else 0 := gamePlay_turn h3.accepted
      rw [hnext, h3.turn, h1]
      split <;> omega

/-- The accepted plays of the rooms, slot by slot, oldest first. -/
abbrev History := Nat → List AcceptedPlay

/-- The move a PLAY makes in room `i`. -/
def playOf (s : Server) (c i : Nat) (pos : UInt8) : AcceptedPlay where
  sock := (s.clients c).sock
  game := (s.rooms i).game
  pos := houseIn s c i pos
  side := sideIn s c i

/-- The history follows the slots: a new room has none, and a deletion shifts both. -/
def recordRequest (s : Server) (c : Nat) (q : Request) (log : History) : History :=
  match q with
  | .createRoom => Function.update log s.nbRooms.toNat []
  | .play pos =>
      match findRoom s (s.clients c).roomId with
      | none => log
      | some i =>
          let log := if (playIn s c i pos).2 = .validPlay then
            Function.update log i (log i ++ [playOf s c i pos]) else log
          if gameIsEnded (playIn s c i pos).1 = .notEnded then log
          else SlotArray.shiftDown log i (s.nbRooms - 1).toNat
  | .leaveRoom =>
      let i := targetRoom s (s.clients c).roomId
      match findPlayer (s.rooms i).game (s.clients c).sock with
      | some _ => SlotArray.shiftDown log i (s.nbRooms - 1).toNat
      | none => log
  | _ => log

section RecordRequest

variable {s : Server} {c i : Nat} {pos : UInt8} {log : History}

theorem recordRequest_nowhere (hfind : findRoom s (s.clients c).roomId = none) :
    recordRequest s c (.play pos) log = log := by
  dsimp only [recordRequest]
  rw [hfind]

theorem recordRequest_play (hfind : findRoom s (s.clients c).roomId = some i) :
    recordRequest s c (.play pos) log =
      if gameIsEnded (playIn s c i pos).1 = .notEnded then
        if (playIn s c i pos).2 = .validPlay then
          Function.update log i (log i ++ [playOf s c i pos]) else log
      else
        SlotArray.shiftDown (if (playIn s c i pos).2 = .validPlay then
          Function.update log i (log i ++ [playOf s c i pos]) else log)
          i (s.nbRooms - 1).toNat := by
  dsimp only [recordRequest]
  rw [hfind]

theorem recordRequest_closed {j : Nat}
    (hp : findPlayer (s.rooms (targetRoom s (s.clients c).roomId)).game (s.clients c).sock
      = some j) :
    recordRequest s c .leaveRoom log
      = SlotArray.shiftDown log (targetRoom s (s.clients c).roomId) (s.nbRooms - 1).toNat := by
  dsimp only [recordRequest]
  rw [hp]

theorem recordRequest_leave
    (hp : findPlayer (s.rooms (targetRoom s (s.clients c).roomId)).game (s.clients c).sock
      = none) : recordRequest s c .leaveRoom log = log := by
  dsimp only [recordRequest]
  rw [hp]

end RecordRequest

def record (s : Server) (e : Event) (log : History) : History :=
  match e with
  | .frame c body _ =>
      match readRequest (received s body).buffer with
      | some q => recordRequest (received s body) c q log
      | none => log
  | _ => log

/-- Every PLAY of the run meets `PlayMeets`. -/
def playGuard : Guard where
  accept _ _ := True
  request s c _ q :=
    match q with
    | .play pos => PlayMeets s c pos
    | _ => True
  disconnect _ _ := True

instance (s : Server) (csock : Int) : Decidable (playGuard.accept s csock) :=
  inferInstanceAs (Decidable True)

instance (s : Server) (c : Nat) (rand : UInt32) (q : Request) :
    Decidable (playGuard.request s c rand q) := by
  refine q.casesOn ?_ ?_ ?_ ?_ ?_ ?_ ?_ <;> intros <;> dsimp only [playGuard] <;> infer_instance

instance (s : Server) (c : Nat) : Decidable (playGuard.disconnect s c) :=
  inferInstanceAs (Decidable True)

/-- The states reached by such runs, with their histories. -/
abbrev Recorded : Server × History → Prop :=
  GuardedRun.Reachable (GuardedRun.recording trans record)
    (fun p e => playGuard.meets p.1 e) (fun p => Initial p.1 ∧ p.2 = fun _ => [])

/-- The accepted plays of a live room start on the initial position, with side `0`, and lead
    to the position it is in. -/
def FairHistories (s : Server) (log : History) : Prop :=
  ∀ k, Live s k → Alternates 0 startPosition (log k) (position (s.rooms k).game)

theorem fairHistories_congr {s s' : Server} {log : History} (h : FairHistories s log)
    (hnb : s'.nbRooms = s.nbRooms)
    (hpos : ∀ k, position (s'.rooms k).game = position (s.rooms k).game) :
    FairHistories s' log := by
  intro k hk
  rw [hpos]
  exact h k ((live_congr hnb k).mp hk)

/-- Rewriting one slot with a game in the same position. -/
theorem position_setRoom {s : Server} {i : Nat} {room : Room}
    (h : position room.game = position (s.rooms i).game) (k : Nat) :
    position ((setRoom s i room).rooms k).game = position (s.rooms k).game :=
  setRoom_slots (P := fun k game => position game = position (s.rooms k).game)
    (fun _ _ => rfl) h k

/-- A deletion shifts rooms and histories alike. -/
theorem fairHistories_delete {s : Server} {log : History} (h : FairHistories s log) (i : Nat) :
    FairHistories (deleteRoom s i) (SlotArray.shiftDown log i (s.nbRooms - 1).toNat) := by
  intro k hk
  obtain ⟨hlive, hroom⟩ := live_deleteRoom hk
  have hlt : k < (s.nbRooms - 1).toNat := live_iff.mp hk
  rw [hroom, SlotArray.shiftDown_skip _ hlt]
  exact h _ hlive

/-- The step of a PLAY: the room it finds gets the move it accepts, if any. -/
theorem fairHistories_played {s : Server} {log : History} {c i : Nat} {pos : UInt8}
    (h : FairHistories s log) (hsized : Sized (s.rooms i).game)
    (hfind : findRoom s (s.clients c).roomId = some i) (hmeets : PlayMeets s c pos) :
    FairHistories (setGame s i (playIn s c i pos).1)
      (if (playIn s c i pos).2 = .validPlay then
        Function.update log i (log i ++ [playOf s c i pos]) else log) := by
  have hres : (playIn s c i pos).2
      = playCheck (s.rooms i).game (houseIn s c i pos) (sideIn s c i) := gamePlay_result _ _ _ _
  rw [hres]
  by_cases hvalid : playCheck (s.rooms i).game (houseIn s c i pos) (sideIn s c i) = .validPlay
  · obtain ⟨h1, h2, h3⟩ := hmeets i hfind hvalid
    have hfair : (playOf s c i pos).Fair := ⟨hvalid, h1, hsized.started.mp h1, h2, h3⟩
    rw [if_pos hvalid]
    intro k hk
    show Alternates 0 startPosition (Function.update log i _ k)
      (position (Function.update s.rooms i _ k).game)
    by_cases hki : k = i
    · subst hki
      rw [Function.update_self, Function.update_self]
      exact Alternates.snoc rfl hfair _ (Nat.zero_le 1) rfl (h k hk)
    · rw [Function.update_of_ne hki, Function.update_of_ne hki]
      exact h k hk
  · have hsame : playIn s c i pos = ((s.rooms i).game, _) := gamePlay_rejected hvalid
    rw [if_neg hvalid, hsame]
    exact fairHistories_congr h rfl (position_setRoom rfl)

theorem fairHistories_request {s s' : Server} {log : History} {c : Nat} {rand : UInt32}
    {q : Request} {out : List Sent} (h : FairHistories s log)
    (hsized : ∀ k, Sized (s.rooms k).game) (hq : playGuard.request s c rand q)
    (heff : Effect s c rand q s' out) : FairHistories s' (recordRequest s c q log) := by
  cases heff with
  | nameRefused _ => exact h
  | named _ _ => exact h
  | resumed _ _ _ =>
      exact fairHistories_congr h rfl (position_setRoom (position_setPlayerId _ _ _))
  | created h0 _ =>
      intro k hk
      show Alternates 0 startPosition (Function.update log s.nbRooms.toNat [] k)
        (position (Function.update s.rooms s.nbRooms.toNat _ k).game)
      by_cases hki : k = s.nbRooms.toNat
      · rw [hki, Function.update_self, Function.update_self]
        exact (position_created (s.rooms s.nbRooms.toNat).game _).symm
      · rw [Function.update_of_ne hki, Function.update_of_ne hki]
        exact h k (live_of_lt_succ hk hki)
  | joinNotFound _ => exact h
  | joinFull _ _ => exact h
  | joined _ _ _ _ =>
      exact fairHistories_congr h rfl
        (position_setRoom (position_gameAddPlayer (hsized _).seats _ _))
  | @started roomId spectate i frame hfind _ _ _ =>
      rw [setGame_joined]
      exact fairHistories_congr h rfl
        (position_setRoom (position_gameAddPlayer (hsized i).seats _ _))
  | playedNowhere hfind =>
      rw [recordRequest_nowhere hfind]
      exact h
  | played hfind hend =>
      rw [recordRequest_play hfind, if_pos hend]
      exact fairHistories_played h (hsized _) hfind hq
  | @playedLast pos i hfind hend =>
      rw [recordRequest_play hfind, if_neg hend]
      exact fairHistories_delete
        (s := setGame s i (playIn s c i pos).1) (fairHistories_played h (hsized _) hfind hq) _
  | closed hi _ _ hp =>
      subst hi
      rw [recordRequest_closed hp]
      exact fairHistories_delete (s := setRoomId s c 0) h _
  | unwatched hi _ _ hp _ =>
      subst hi
      rw [recordRequest_leave hp]
      exact fairHistories_congr h rfl
        (position_setRoom (s := setRoomId s c 0)
          (position_removeSpectator (hsized _).seats _))
  | leftNothing hi _ _ hp _ =>
      subst hi
      rw [recordRequest_leave hp]
      exact h
  | messaged _ _ => exact h
  | described => exact h

/-- A disconnection moves no seeds. -/
theorem position_disconnectUser {s s₁ : Server} {c : Nat}
    (hsized : ∀ k, Sized (s.rooms k).game) (h : disconnectUser s c = .ok s₁) :
    s₁.nbRooms = s.nbRooms
      ∧ ∀ k, position (s₁.rooms k).game = position (s.rooms k).game := by
  have hall : s₁.nbRooms = s.nbRooms ∧ ∀ k, (s₁.rooms k).game.nbPlayers ≤ 2
      ∧ position (s₁.rooms k).game = position (s.rooms k).game := by
    refine disconnectUser_invariant
      (I := fun t => t.nbRooms = s.nbRooms ∧ ∀ k, (t.rooms k).game.nbPlayers ≤ 2
        ∧ position (t.rooms k).game = position (s.rooms k).game)
      (fun t ht => ht.1) ?_ ?_ ⟨rfl, fun k => ⟨(hsized k).seats, rfl⟩⟩ rfl rfl h
    · intro t i j ht _ _ _
      refine ⟨ht.1, fun k => ⟨?_, ?_⟩⟩
      · refine setGame_slots (P := fun _ game => game.nbPlayers ≤ 2) ?_ ?_ k
        · intro k _
          exact (ht.2 k).1
        · exact (ht.2 i).1
      · exact (position_setRoom (position_setPlayerId _ _ _) k).trans (ht.2 k).2
    · intro t i j ht _ _ _ _
      refine ⟨ht.1, fun k => ⟨?_, ?_⟩⟩
      · refine setGame_slots (P := fun _ game => game.nbPlayers ≤ 2) ?_ ?_ k
        · intro k _
          exact (ht.2 k).1
        · exact (ht.2 i).1
      · exact (position_setRoom (position_removeSpectator (ht.2 i).1 _) k).trans (ht.2 k).2
  exact ⟨hall.1, fun k => (hall.2 k).2⟩

/-- **FAIR HISTORIES OVER WHOLE RUNS.** -/
theorem fairHistories_recorded {p : Server × History} (h : Recorded p) :
    FairHistories p.1 p.2 := by
  refine GuardedRun.Reachable.invariant_of (I := fun p => FairHistories p.1 p.2) ?_ ?_ h
  · rintro ⟨s, log⟩ ⟨⟨b, rfl⟩, -⟩ k hk
    exact absurd hk (by show ¬ ((k : Int) < 0); omega)
  · rintro ⟨s, log⟩ e ⟨s', log'⟩ out hr hI hg hstep
    have hsized := sized_reachable (g := playGuard) hr.forget
    obtain ⟨htr, hlog⟩ := GuardedRun.recording_eq_some hstep
    obtain ⟨hp, hs⟩ := trans_eq_some htr
    have hlog' : log' = record s e log := hlog
    subst hlog'
    have hout := step_cases hs
    cases e with
    | accept csock =>
        obtain ⟨-, rfl, -⟩ := hout
        exact hI
    | frame c body rand =>
        obtain ⟨-, ⟨hq, rfl, -⟩ | ⟨q, hq, heff⟩⟩ := hout
        · simp only [record, hq]
          exact hI
        · have hg' : playGuard.request (received s body) c rand q := Guard.meets_frame.mp hg q hq
          simp only [record, hq]
          exact fairHistories_request (s := received s body) hI hsized hg' heff
    | disconnect c =>
        obtain ⟨s₁, hd, rfl, -⟩ := hout
        obtain ⟨hnb, hpos⟩ := position_disconnectUser hsized hd
        exact fairHistories_congr hI hnb hpos

/-- **PLAY AUTHORISATION.**  In every reachable state the `room_play` of a PLAY frame changes the
    position of authorised rooms only, exactly when the frame meets `PlayMeets`, and what the
    frame leaves is that state, a finished room deleted; and in every run whose PLAYs all meet it,
    the accepted plays of every live room are fair, alternate between the sides from side `0`
    and the initial position on, and lead to the position the room is in. -/
theorem play_authorisation (p : Server × History) :
    (∀ c pos rand, Reachable Guard.any.meets p.1 →
      ((∀ k, Live p.1 k →
        position ((roomPlayed (received p.1 (Request.play pos).body) c pos).rooms k).game
          ≠ position (p.1.rooms k).game →
        Authorised p.1 c k) ↔ PlayMeets p.1 c pos)
      ∧ ∀ s' out, trans p.1 (.frame c (Request.play pos).body rand) = some (s', out) →
        PlayDone (received p.1 (Request.play pos).body) c pos s')
    ∧ (Recorded p → FairHistories p.1 p.2) := by
  refine ⟨fun c pos rand h => ⟨?_, fun s' out => trans_roomPlayed⟩, fairHistories_recorded⟩
  rw [roomPlayed_received]
  exact authorised_iff (sized_reachable h) c pos

/-- Two players start a game and play a move each. -/
def twoMoves : List Event :=
  [.accept 4, .accept 5, .frame 0 Request.createRoom.body 7,
    .frame 1 (Request.joinRoom 7 0).body 0, .frame 0 (Request.play 0).body 0,
    .frame 1 (Request.play 0).body 0]

/-- After `twoMoves` the room has a fair history of the sides `0` and `1`. -/
theorem play_authorisation_two_moves :
    ∃ p : Server × History, (p.2 0).map (·.side) = [0, 1]
      ∧ Alternates 0 startPosition (p.2 0) (position (p.1.rooms 0).game) := by
  have hmeets : GuardedRun.Meets (GuardedRun.recording trans record)
      (fun p e => playGuard.meets p.1 e) (initial fun _ => 0, fun _ => []) twoMoves := by
    decide +kernel
  have hrun : (GuardedRun.run (GuardedRun.recording trans record)
      (initial fun _ => 0, fun _ => []) twoMoves).map
        (fun r => ((r.1.2 0).map (·.side), decide (Live r.1.1 0))) = some ([0, 1], true) := by
    decide +kernel
  have hinit : Initial (initial fun _ => 0) ∧ (fun _ => [] : History) = fun _ => [] :=
    ⟨⟨_, rfl⟩, rfl⟩
  obtain ⟨p, hp, hf⟩ : ∃ p, Recorded p
      ∧ ((p.2 0).map (·.side), decide (Live p.1 0)) = ([0, 1], true) :=
    GuardedRun.reachable_of_eval hinit hmeets hrun
  obtain ⟨hsides, hlive⟩ := Prod.mk.inj hf
  exact ⟨p, hsides, (play_authorisation p).2 hp 0 (of_decide_eq_true hlive)⟩

/-- A single player moves seeds in a room whose game has not started. -/
theorem play_before_start :
    ¬ ∀ s c pos rand s' out, Reachable Guard.any.meets s →
      trans s (.frame c (Request.play pos).body rand) = some (s', out) →
      s'.nbRooms = s.nbRooms → ∀ k, Live s k →
      position (s'.rooms k).game ≠ position (s.rooms k).game → Authorised s c k := by
  intro h
  obtain ⟨s, hs, hf⟩ := Guard.reaches (g := Guard.any)
    (f := fun s => ((s.nbRooms, (s.rooms 0).game.isStarted, (s.rooms 0).game.turn),
      (trans s (.frame 0 (Request.play 0).body 0)).map fun r =>
        (r.1.nbRooms, (r.1.rooms 0).game.turn)))
    (b := ((1, false, 0), some (1, 1))) [.accept 4, .frame 0 Request.createRoom.body 7]
    (by decide +kernel) (by decide +kernel)
  obtain ⟨hbefore, hafter⟩ := Prod.mk.inj hf
  obtain ⟨hnb, hbefore⟩ := Prod.mk.inj hbefore
  obtain ⟨hstarted, hturn⟩ := Prod.mk.inj hbefore
  obtain ⟨⟨s', out⟩, htr, hr⟩ := Option.map_eq_some_iff.mp hafter
  obtain ⟨hnb', hturn'⟩ := Prod.mk.inj hr
  have hlive : Live s 0 := by
    rw [Live, hnb]
    decide
  have hne : position (s'.rooms 0).game ≠ position (s.rooms 0).game := by
    intro heq
    have hsame : (s'.rooms 0).game.turn = (s.rooms 0).game.turn := congrArg Position.turn heq
    rw [hturn, hturn'] at hsame
    cases hsame
  have hauth := h s 0 0 0 s' out hs htr (hnb'.trans hnb.symm) 0 hlive hne
  rw [hauth.started] at hstarted
  cases hstarted

end AwaleAuthorisation
