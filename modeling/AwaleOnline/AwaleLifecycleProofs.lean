import AwaleOnline.AwaleSeatsProofs

/-!
# The start of a game

`handle_join_room` ends with the test that starts a game, after every successful join.

* **`LifeCycle`** — what holds of the live rooms in every reachable state: one player and not
  started, or two players and started;
* **`RequestLaw`**, **`StepLaw`** — what each event does to it: only the JOIN_ROOM that seats the
  second player announces the start, to the players that are connected;
* **`start_life_cycle`** — over whole runs, with the announcements of each room counted beside
  the state: a started room has been announced once, another one never.
-/

namespace AwaleLifecycle

open AwaleGame AwaleProtocol AwaleServer AwaleEffect AwaleBounds AwaleRoster

variable {s s' s₁ : Server} {c i : Nat} {rand : UInt32} {q : Request} {out : List Sent}
  {roomId : UInt32} {spectate : UInt8}

/-! ## The announcements -/

def isGameStart : ServerMsg → Bool
  | .gameStart _ => true
  | _ => false

/-- The GAME_START frames among those sent. -/
def starts (out : List Sent) : List Sent := out.filter fun f => isGameStart f.2

/-- One GAME_START for each connected player entry, carrying the entry's index. -/
def announcement (game : Game) : List Sent :=
  ((List.range 2).filter fun j => (game.players j).id ≠ -1).map fun j =>
    ((game.players j).id, .gameStart (UInt8.ofNat j))

theorem starts_append (out out' : List Sent) : starts (out ++ out') = starts out ++ starts out' :=
  List.filter_append ..

theorem starts_writeClient {x : Int} {m : ServerMsg} (h : isGameStart m = false) :
    starts (writeClient x m) = [] := by
  simp only [writeClient, starts]
  split
  · simp [h]
  · rfl

/-- The frames of the second join are the announcement. -/
theorem starts_gameStarts {game : Game} (h : game.nbPlayers = 2) :
    starts (gameStarts game) = announcement game := by
  have hone : ∀ j, starts (writeClient (game.players j).id (.gameStart (UInt8.ofNat j)))
      = if (game.players j).id ≠ -1 then
          [((game.players j).id, .gameStart (UInt8.ofNat j))] else [] := by
    intro j
    simp only [writeClient]
    split <;> rfl
  have hrange : List.range 2 = [0, 1] := rfl
  simp only [gameStarts, announcement]
  rw [h, hrange, List.flatMap_cons, List.flatMap_cons, List.flatMap_nil, List.append_nil,
    starts_append, hone, hone]
  by_cases h0 : (game.players 0).id ≠ -1 <;> by_cases h1 : (game.players 1).id ≠ -1 <;>
    simp [h0, h1]

/-- The newcomer at least is told. -/
theorem starts_started {m : ServerMsg} (hone : (s.rooms i).game.nbPlayers = 1)
    (hpos : (s.clients c).sock ≠ -1) (hm : isGameStart m = false) :
    starts (writeClient (s.clients c).sock m ++ gameStarts (joinedGame s c i 0)) ≠ [] := by
  obtain ⟨htwo, -, hsecond⟩ := started_players (c := c) hone
  rw [starts_append, starts_writeClient hm, List.nil_append, starts_gameStarts htwo]
  refine List.ne_nil_of_mem (List.mem_map.mpr ⟨1, List.mem_filter.mpr ⟨by decide, ?_⟩, rfl⟩)
  rw [hsecond]
  exact decide_eq_true hpos

/-! ## Requests -/

/-- Every live room is started after a step if it was before, and not otherwise. -/
def SameStarted (s s' : Server) : Prop :=
  ∀ k, Live s k → (s'.rooms k).game.isStarted = (s.rooms k).game.isStarted

/-- Room `i` gets its second player. -/
def SeatsSecond (s s' : Server) (i : Nat) : Prop :=
  (s.rooms i).game.nbPlayers = 1 ∧ (s'.rooms i).game.nbPlayers = 2

/-- What a JOIN_ROOM that finds room `i`, if any, starts and announces. -/
structure JoinLaw (s : Server) (found : Option Nat) (s' : Server) (out : List Sent) : Prop where
  /-- The second player starts the game, and the connected players are told. -/
  second : ∀ i ∈ found, SeatsSecond s s' i →
    starts out = announcement (s'.rooms i).game ∧ (s.rooms i).game.isStarted = false
      ∧ (s'.rooms i).game.isStarted = true
  /-- Any other join, and a refused one, announces and starts nothing. -/
  other : (∀ i ∈ found, ¬ SeatsSecond s s' i) → starts out = [] ∧ SameStarted s s'
  /-- Other rooms are left alone. -/
  elsewhere : ∀ k, Live s k → k ∉ found →
    (s'.rooms k).game.isStarted = (s.rooms k).game.isStarted

/-- What a request starts: nothing, but for JOIN_ROOM and what closes a room. -/
def RequestLaw (s : Server) (c : Nat) (q : Request) (s' : Server) (out : List Sent) : Prop :=
  match q with
  | .joinRoom roomId _ => JoinLaw s (findRoom s roomId) s' out
  | .leaveRoom =>
      findPlayer (s.rooms (targetRoom s (s.clients c).roomId)).game (s.clients c).sock = none →
        SameStarted s s'
  | _ => True

theorem sameStarted_setGame (game : Game) (h : game.isStarted = (s.rooms i).game.isStarted) :
    SameStarted s (setGame s i game) := fun k _ =>
  setGame_slots (P := fun k game => game.isStarted = (s.rooms k).game.isStarted)
    (fun _ _ => rfl) h k

private theorem joinLaw_quiet (hfound : ∀ k ∈ findRoom s roomId, ¬ SeatsSecond s s' k)
    (hout : starts out = []) (hsame : SameStarted s s') :
    JoinLaw s (findRoom s roomId) s' out where
  second k hk hsecond := absurd hsecond (hfound k hk)
  other _ := ⟨hout, hsame⟩
  elsewhere k hk _ := hsame k hk

theorem joinLaw (hsized : ∀ k, Sized (s.rooms k).game)
    (hfounded : ∀ k, Live s k → 0 < (s.rooms k).game.nbPlayers)
    (heff : Effect s c rand (.joinRoom roomId spectate) s' out) :
    JoinLaw s (findRoom s roomId) s' out := by
  have hrefused : ∀ text, starts (writeClient (s.clients c).sock (.joinRoomRefused text)) = [] :=
    fun _ => starts_writeClient (by rfl)
  have hunchanged : ∀ k, ¬ SeatsSecond s s k := fun k h => by
    have h1 := h.1
    have h2 := h.2
    omega
  cases heff with
  | joinNotFound _ =>
      exact joinLaw_quiet (fun k _ => hunchanged k) (hrefused _) fun _ _ => rfl
  | joinFull _ _ =>
      exact joinLaw_quiet (fun k _ => hunchanged k) (hrefused _) fun _ _ => rfl
  | @joined _ _ i frame hfind hopen hframe hgo =>
      have hi := (findRoom_eq_some.mp hfind).1
      obtain ⟨_, _, _, _, rfl⟩ := joinRoomFrame_ok hframe
      refine joinLaw_quiet ?_ (starts_writeClient (by rfl))
        (sameStarted_setGame (joinedGame s c i spectate) (by rfl))
      intro k hk hsecond
      obtain rfl : i = k := Option.some.inj (hfind.symm.trans hk)
      obtain ⟨hone, htwo⟩ := hsecond
      have htwo' : (joinedGame s c i spectate).nbPlayers = 2 := by
        rw [← htwo]
        exact congrArg Game.nbPlayers (setGame_self s i _).symm
      have hst : (s.rooms i).game.isStarted = false := by
        rw [← Bool.not_eq_true, (hsized i).started]
        omega
      exact hgo ⟨by omega, hst⟩
  | @started _ _ i frame hfind hopen hframe hgo =>
      have hi := (findRoom_eq_some.mp hfind).1
      obtain ⟨_, _, _, _, rfl⟩ := joinRoomFrame_ok hframe
      obtain ⟨rfl, hone⟩ := ((hsized i).join_starts (hfounded i hi) _ _).mp hgo
      have htwo : (joinedGame s c i 0).nbPlayers = 2 := congrArg (· + 1) hone
      rw [setGame_joined]
      have hself : ((setRoomId (setGame s i { joinedGame s c i 0 with isStarted := true })
          c roomId).rooms i).game = { joinedGame s c i 0 with isStarted := true } :=
        setGame_self s i _
      refine ⟨?_, ?_, ?_⟩
      · intro k hk _
        obtain rfl : i = k := Option.some.inj (hfind.symm.trans hk)
        refine ⟨?_, hgo.2, ?_⟩
        · rw [starts_append, starts_writeClient (by rfl), List.nil_append,
            starts_gameStarts htwo, hself]
          rfl
        · rw [hself]
      · intro hnone
        refine absurd ⟨hone, ?_⟩ (hnone i hfind)
        rw [hself]
        exact htwo
      · intro k _ hk
        have hki : k ≠ i := by
          rintro rfl
          exact hk hfind
        exact congrArg (fun room => room.game.isStarted) (setGame_of_ne hki _)

theorem requestLaw (hsized : ∀ k, Sized (s.rooms k).game)
    (hfounded : ∀ k, Live s k → 0 < (s.rooms k).game.nbPlayers)
    (heff : Effect s c rand q s' out) : RequestLaw s c q s' out := by
  cases q with
  | joinRoom roomId spectate => exact joinLaw hsized hfounded heff
  | leaveRoom =>
      intro hp
      cases heff with
      | closed hi _ _ hp' =>
          subst hi
          rw [hp] at hp'
          cases hp'
      | unwatched _ _ _ _ _ => exact sameStarted_setGame (s := setRoomId s c 0) _ (by rfl)
      | leftNothing _ _ _ _ _ => exact fun _ _ => rfl
  | _ => trivial

/-! ## Events -/

/-- What an event starts. -/
def StepLaw (s : Server) : Event → Server → List Sent → Prop
  | .frame c body _, s', out =>
      ∀ q, readRequest (received s body).buffer = some q → RequestLaw (received s body) c q s' out
  | .accept _, s', _ => SameStarted s s'
  | .disconnect _, s', _ => SameStarted s s'

/-- Vacating a seat or dropping a spectator starts nothing and stops nothing. -/
theorem sameStarted_disconnectUser (h : disconnectUser s c = .ok s₁) : SameStarted s s₁ := by
  have hall : s₁.nbRooms = s.nbRooms
      ∧ ∀ k, (s₁.rooms k).game.isStarted = (s.rooms k).game.isStarted := by
    refine disconnectUser_invariant
      (I := fun t => t.nbRooms = s.nbRooms
        ∧ ∀ k, (t.rooms k).game.isStarted = (s.rooms k).game.isStarted)
      (fun t ht => ht.1) ?_ ?_ ⟨rfl, fun _ => rfl⟩ rfl rfl h
    · intro t i j ht _ _ _
      exact ⟨ht.1, setGame_slots
        (P := fun k game => game.isStarted = (s.rooms k).game.isStarted)
        (fun k _ => ht.2 k) (ht.2 i)⟩
    · intro t i j ht _ _ _ _
      exact ⟨ht.1, setGame_slots
        (P := fun k game => game.isStarted = (s.rooms k).game.isStarted)
        (fun k _ => ht.2 k) (ht.2 i)⟩
  exact fun k _ => hall.2 k

theorem stepLaw (hsized : ∀ k, Sized (s.rooms k).game)
    (hfounded : ∀ k, Live s k → 0 < (s.rooms k).game.nbPlayers) {e : Event}
    (htr : AwaleServer.trans s e = some (s', out)) : StepLaw s e s' out := by
  have hout := step_cases (trans_eq_some htr).2
  cases e with
  | accept csock =>
      obtain ⟨-, rfl, -⟩ := hout
      exact fun _ _ => rfl
  | frame c body rand =>
      intro q hq
      obtain ⟨-, ⟨hnone, -, -⟩ | ⟨q', hq', heff⟩⟩ := hout
      · rw [hnone] at hq
        cases hq
      · obtain rfl : q' = q := Option.some.inj (hq'.symm.trans hq)
        exact requestLaw (s := received s body) hsized hfounded heff
  | disconnect c =>
      obtain ⟨s₁, hd, rfl, -⟩ := hout
      exact fun k hk => sameStarted_disconnectUser hd k hk

/-! ## The announcements of a whole run -/

/-- How often the start of each room has been announced, slot by slot. -/
abbrev Counts := Nat → Nat

/-- The slot a request deletes. -/
def closedSlot (s : Server) (c : Nat) : Request → Option Nat
  | .play pos => (findRoom s (s.clients c).roomId).filter fun i =>
      gameIsEnded (playIn s c i pos).1 ≠ .notEnded
  | .leaveRoom =>
      (findPlayer (s.rooms (targetRoom s (s.clients c).roomId)).game (s.clients c).sock).map
        fun _ => targetRoom s (s.clients c).roomId
  | _ => none

/-- The frames an event sends. -/
def outputs (s : Server) (e : Event) : List Sent := ((AwaleServer.trans s e).map (·.2)).getD []

/-- The counts follow the slots: a new room has none, a deletion shifts them, and a JOIN_ROOM
    that sends GAME_START frames adds one to its room's. -/
def countRequest (s : Server) (c : Nat) (q : Request) (out : List Sent) (n : Counts) : Counts :=
  match q with
  | .createRoom => Function.update n s.nbRooms.toNat 0
  | .joinRoom roomId _ => (findRoom s roomId).elim n fun i =>
      Function.update n i (n i + if starts out = [] then 0 else 1)
  | q => (closedSlot s c q).elim n fun i => SlotArray.shiftDown n i (s.nbRooms - 1).toNat

def count (s : Server) (e : Event) (n : Counts) : Counts :=
  match e with
  | .frame c body _ => (readRequest (received s body).buffer).elim n fun q =>
      countRequest (received s body) c q (outputs s e) n
  | _ => n

/-- A started room has been announced once, another one never. -/
def Counted (s : Server) (n : Counts) : Prop :=
  ∀ k, Live s k → n k = if (s.rooms k).game.isStarted then 1 else 0

theorem Counted.same {n : Counts} (h : Counted s n) (hnb : s'.nbRooms = s.nbRooms)
    (hsame : SameStarted s s') : Counted s' n := by
  intro k hk
  have hk' := (live_congr hnb k).mp hk
  rw [hsame k hk']
  exact h k hk'

theorem Counted.deleteRoom {n : Counts} (h : Counted s n) (i : Nat) :
    Counted (deleteRoom s i) (SlotArray.shiftDown n i (s.nbRooms - 1).toNat) := by
  intro k hk
  obtain ⟨hlive, hroom⟩ := live_deleteRoom hk
  have hk' : k < (s.nbRooms - 1).toNat := live_iff.mp hk
  rw [hroom, SlotArray.shiftDown_skip n hk']
  exact h _ hlive

/-- The new room counts nothing yet. -/
theorem Counted.created {n : Counts} (h : Counted s n) :
    Counted (created s c rand) (Function.update n s.nbRooms.toNat 0) := by
  intro k hk
  by_cases hki : k = s.nbRooms.toNat
  · rw [hki, Function.update_self, created_new]
    rfl
  · rw [Function.update_of_ne hki, created_old c rand hki]
    exact h k (live_of_lt_succ hk hki)

/-- The one announcement of a room makes its count and its flag go up together. -/
theorem Counted.start {n : Counts} (h : Counted s n) (game : Game)
    (hst : (s.rooms i).game.isStarted = false) :
    Counted (AwaleServer.setGame s i { game with isStarted := true })
      (Function.update n i (n i + 1)) := by
  refine fun k => setGame_slots
    (P := fun k game => Live s k → Function.update n i (n i + 1) k
      = if game.isStarted then 1 else 0) ?_ ?_ k
  · intro k hki hk
    rw [Function.update_of_ne hki]
    exact h k hk
  · intro hk
    have hzero : n i = 0 := by
      rw [h i hk, hst]
      rfl
    rw [Function.update_self, hzero]
    rfl

/-- A move closes its room when it ends the game. -/
theorem closedSlot_play {pos : UInt8} (hfind : findRoom s (s.clients c).roomId = some i) :
    closedSlot s c (.play pos)
      = if gameIsEnded (playIn s c i pos).1 = .notEnded then none else some i := by
  dsimp only [closedSlot]
  rw [hfind, Option.filter_some]
  simp

/-- Who leaves closes the room it plays in, not the one it watches. -/
theorem closedSlot_leave {found : Option Nat} (hi : targetRoom s (s.clients c).roomId = i)
    (hp : findPlayer (s.rooms i).game (s.clients c).sock = found) :
    closedSlot s c .leaveRoom = found.map fun _ => i := by
  subst hi hp
  rfl

theorem Counted.request {n : Counts} (h : Counted s n) (hsized : ∀ k, Sized (s.rooms k).game)
    (hfounded : ∀ k, Live s k → 0 < (s.rooms k).game.nbPlayers)
    (hpos : (s.clients c).sock ≠ -1) (heff : Effect s c rand q s' out) :
    Counted s' (countRequest s c q out n) := by
  -- a join that announces nothing adds nothing
  have hquiet : ∀ {roomId}, starts out = [] → (findRoom s roomId).elim n (fun i =>
      Function.update n i (n i + if starts out = [] then 0 else 1)) = n := by
    intro roomId hnone
    cases findRoom s roomId with
    | none => rfl
    | some i =>
        show Function.update n i (n i + if starts out = [] then 0 else 1) = n
        rw [if_pos hnone, Nat.add_zero, Function.update_eq_self]
  cases heff with
  | nameRefused _ => exact h
  | named _ _ => exact h
  | @resumed _ i j m _ _ _ =>
      refine h.same (by rfl) (sameStarted_setGame (s := s)
        (setPlayerId (s.rooms i).game j (s.clients c).sock) (by rfl))
  | created _ _ => exact h.created
  | joinNotFound _ =>
      dsimp only [countRequest]
      rw [hquiet (starts_writeClient (by rfl))]
      exact h
  | joinFull _ _ =>
      dsimp only [countRequest]
      rw [hquiet (starts_writeClient (by rfl))]
      exact h
  | @joined _ spectate i frame hfind _ hframe _ =>
      obtain ⟨_, _, _, _, rfl⟩ := joinRoomFrame_ok hframe
      dsimp only [countRequest]
      rw [hquiet (starts_writeClient (by rfl))]
      exact h.same (by rfl) (sameStarted_setGame (s := s) (joinedGame s c i spectate) (by rfl))
  | @started roomId _ i frame hfind _ hframe hgo =>
      have hi := (findRoom_eq_some.mp hfind).1
      obtain ⟨users, spectators, names, bios, rfl⟩ := joinRoomFrame_ok hframe
      obtain ⟨rfl, hone⟩ := ((hsized i).join_starts (hfounded i hi) _ _).mp hgo
      have hsome := starts_started hone hpos (m := .joinRoomSuccessful users spectators names bios)
        (by rfl)
      dsimp only [countRequest]
      rw [hfind, setGame_joined, Option.elim_some, if_neg hsome]
      exact h.start (joinedGame s c i 0) hgo.2
  | playedNowhere hfind =>
      dsimp only [countRequest, closedSlot]
      rw [hfind]
      exact h
  | @played pos i hfind hend =>
      dsimp only [countRequest]
      rw [closedSlot_play hfind, if_pos hend]
      exact h.same (by rfl) (sameStarted_setGame _ (play_frame s c i pos).2.2.1)
  | @playedLast pos i hfind hend =>
      dsimp only [countRequest]
      rw [closedSlot_play hfind, if_neg hend]
      have hplayed : Counted (setGame s i (playIn s c i pos).1) n :=
        h.same (by rfl) (sameStarted_setGame _ (play_frame s c i pos).2.2.1)
      exact hplayed.deleteRoom i
  | @closed i j hi _ _ hp =>
      dsimp only [countRequest]
      rw [closedSlot_leave hi hp]
      have hleft : Counted (setRoomId s c 0) n := h
      exact hleft.deleteRoom _
  | @unwatched i j hi _ _ hp _ =>
      dsimp only [countRequest]
      rw [closedSlot_leave hi hp]
      exact h.same (by rfl) (sameStarted_setGame (s := setRoomId s c 0) _ (by rfl))
  | @leftNothing i hi _ _ hp _ =>
      dsimp only [countRequest]
      rw [closedSlot_leave hi hp]
      exact h
  | messaged _ _ => exact h
  | described => exact h

/-- The states of all runs, with the counts of their rooms. -/
abbrev Announcing : Server × Counts → Prop :=
  GuardedRun.Reachable (GuardedRun.recording AwaleServer.trans count)
    (fun p e => Guard.any.meets p.1 e) (fun p => Initial p.1 ∧ p.2 = fun _ => 0)

/-- **ANNOUNCED ONCE**, over whole runs. -/
theorem counted_recorded {p : Server × Counts} (h : Announcing p) : Counted p.1 p.2 := by
  refine GuardedRun.Reachable.invariant_of (I := fun p => Counted p.1 p.2) ?_ ?_ h
  · rintro ⟨s, n⟩ ⟨⟨b, rfl⟩, -⟩ k hk
    exact absurd hk (not_live_of_le (Int.le_refl 0) k)
  · rintro ⟨s, n⟩ e ⟨s', n'⟩ out hr hI _ hstep
    have hreach : Reachable Guard.any.meets s := hr.forget
    have hsized := sized_reachable hreach
    have hfounded := founded_reachable hreach
    obtain ⟨htr, hn⟩ := GuardedRun.recording_eq_some hstep
    have hn' : n' = count s e n := hn
    subst hn'
    have hsent : outputs s e = out := by
      rw [outputs, htr]
      rfl
    obtain ⟨hp, hs⟩ := trans_eq_some htr
    have hout := step_cases hs
    cases e with
    | accept csock =>
        obtain ⟨-, rfl, -⟩ := hout
        exact hI
    | frame c body rand =>
        dsimp only [count]
        rw [hsent]
        obtain ⟨-, ⟨hq, rfl, -⟩ | ⟨q, hq, heff⟩⟩ := hout
        · rw [hq]
          exact hI
        · rw [hq]
          have hsock : ((received s body).clients c).sock ≠ -1 := connected_reachable hreach hp.1
          exact Counted.request (s := received s body) hI hsized hfounded hsock heff
    | disconnect c =>
        obtain ⟨s₁, hd, rfl, -⟩ := hout
        exact hI.same (s := s) (disconnectUser_frame hd).2.2
          fun k hk => sameStarted_disconnectUser hd k hk

/-- The life cycle of the games, in one state of a run. -/
structure LifeCycle (s : Server) (n : Counts) : Prop where
  /-- A room has one player, or two and a started game. -/
  rooms : ∀ k, Live s k →
    ((s.rooms k).game.nbPlayers = 1 ∨ (s.rooms k).game.nbPlayers = 2)
      ∧ ((s.rooms k).game.isStarted = true ↔ (s.rooms k).game.nbPlayers = 2)
  /-- What the next event may start and announce. -/
  steps : ∀ e s' out, AwaleServer.trans s e = some (s', out) → StepLaw s e s' out
  /-- The start of a started room has been announced by one JOIN_ROOM, of another by none. -/
  once : Counted s n

/-- **START OF GAME.**  In every state of every run the live rooms have one player, or two and a
    started game.  A JOIN_ROOM announces the start exactly when it seats the second player, to
    the connected players with their indices; refused joins, spectators who come or leave and
    disconnections start and stop nothing; and no room is announced twice. -/
theorem start_life_cycle {p : Server × Counts} (h : Announcing p) : LifeCycle p.1 p.2 := by
  have hreach : Reachable Guard.any.meets p.1 := h.forget
  have hsized := sized_reachable hreach
  have hfounded := founded_reachable hreach
  refine ⟨?_, ?_, counted_recorded h⟩
  · intro k hk
    have hle := (hsized k).seats
    have hpos := hfounded k hk
    exact ⟨by omega, (hsized k).started⟩
  · intro e s' out htr
    exact stepLaw hsized hfounded htr

/-- Two players start a game, a spectator comes and goes, the second player disconnects, and
    somebody is refused the seat. -/
def busyRoom : List Event :=
  [.accept 4, .accept 5, .accept 6, .frame 0 Request.createRoom.body 7,
    .frame 1 (Request.joinRoom 7 0).body 0, .frame 2 (Request.joinRoom 7 1).body 0,
    .frame 2 Request.leaveRoom.body 0, .disconnect 1, .frame 1 (Request.joinRoom 7 0).body 0]

theorem start_life_cycle_busy_room :
    ∃ p : Server × Counts, (p.2 0, (p.1.rooms 0).game.isStarted) = (1, true)
      ∧ LifeCycle p.1 p.2 := by
  have hmeets : GuardedRun.Meets (GuardedRun.recording AwaleServer.trans count)
      (fun p e => Guard.any.meets p.1 e) (initial fun _ => 0, fun _ => 0) busyRoom := by
    decide +kernel
  have hrun : (GuardedRun.run (GuardedRun.recording AwaleServer.trans count)
      (initial fun _ => 0, fun _ => 0) busyRoom).map
        (fun r => (r.1.2 0, (r.1.1.rooms 0).game.isStarted)) = some (1, true) := by
    decide +kernel
  have hinit : Initial (initial fun _ => 0) ∧ (fun _ => 0 : Counts) = fun _ => 0 :=
    ⟨⟨_, rfl⟩, rfl⟩
  obtain ⟨p, hp, hf⟩ : ∃ p, Announcing p
      ∧ (p.2 0, (p.1.rooms 0).game.isStarted) = (1, true) :=
    GuardedRun.reachable_of_eval hinit hmeets hrun
  exact ⟨p, hf, start_life_cycle hp⟩

end AwaleLifecycle
