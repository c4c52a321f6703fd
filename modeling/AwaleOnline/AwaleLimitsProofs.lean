import AwaleOnline.AwaleFramesProofs

/-!
# What the server survives

A round of the server ends in a table or in a frame buffer it leaves, or with the process at a
`send` that fails, or it is finished.

* **`handled_iff`** — a handler returns just when its frames are `Short` and its indices are
  `InTables`;
* **`survives`** — in every reachable state, a round finishes just when there is room for what it
  is about and the descriptors it writes to are open;
* **`within_limits`** — a server whose clients keep within some `Limits`, and write to entries that
  are in order, finishes every round of every run.
-/

namespace AwaleLimits

open AwaleGame AwaleProtocol AwaleServer AwaleEffect AwaleBounds AwaleRoster AwaleDescriptor
  AwaleSending AwaleFrames

variable {s s' : Server} {c i : Nat} {rand : UInt32} {q : Request} {game : Game}
  {out : List Sent}

/-! ## A handler returns -/

/-- The tables have room for what a request adds, and a slot for the room it is about. -/
def InTables (s : Server) (c : Nat) : Request → Prop
  | .createRoom => 0 ≤ s.nbRooms ∧ s.nbRooms < maxRooms
  | .joinRoom roomId spectate => spectate ≠ 0 → ∀ i ∈ findRoom s roomId,
      2 + (s.rooms i).game.nbSpectators < maxGamePlayers
  | .leaveRoom => findRoom s (s.clients c).roomId = none → s.nbRooms < maxRooms
  | .sendMessage _ => findRoom s (s.clients c).roomId = none → s.nbRooms < maxRooms
  | _ => True

instance (s : Server) (c : Nat) (q : Request) : Decidable (InTables s c q) := by
  refine q.casesOn ?_ ?_ ?_ ?_ ?_ ?_ ?_ <;> intros <;> dsimp only [InTables] <;> infer_instance

theorem ok_iff {α : Type} {r : Except Fault α} (h : InBounds r) :
    (∃ a, r = .ok a) ↔ r ≠ .error .buffer := by
  cases r with
  | ok a => exact iff_of_true ⟨a, rfl⟩ fun h => by cases h
  | error f =>
      cases f with
      | index table i => exact absurd rfl (h table i)
      | buffer => exact iff_of_false (fun ⟨_, h⟩ => by cases h) fun h => h rfl

theorem not_ok {α : Type} {r : Except Fault α} {f : Fault} (h : r = .error f) :
    ¬ ∃ a, r = .ok a := by
  rintro ⟨a, ha⟩
  rw [h] at ha
  cases ha

/-- The slot a client's room is searched in, when no room has its id. -/
theorem targetRoom_lt_iff (hnb : s.nbRooms ≤ maxRooms) (roomId : UInt32) :
    targetRoom s roomId < maxRooms ↔ (findRoom s roomId = none → s.nbRooms < maxRooms) := by
  have hmax : maxRooms = 200 := rfl
  rcases targetRoom_cases s roomId with hfind | ⟨hnone, htarget⟩
  · have hlive : (targetRoom s roomId : Int) < s.nbRooms := (findRoom_eq_some.mp hfind).1
    refine iff_of_true (by omega) fun hnone => ?_
    rw [hnone] at hfind
    cases hfind
  · rw [htarget, imp_iff_right hnone]
    omega

theorem join_fault (hsized : ∀ k, Sized (s.rooms k).game) {roomId : UInt32} {spectate : UInt8}
    (hsp : spectate ≠ 0) (hfind : findRoom s roomId = some i)
    (hfull : maxGamePlayers ≤ 2 + (s.rooms i).game.nbSpectators) :
    handleJoinRoom s c roomId spectate
      = .error (.index .players (2 + (s.rooms i).game.nbSpectators : Nat)) := by
  have hseats := (hsized i).seats
  have hmax : maxGamePlayers = 1024 := rfl
  have hindex : addIndex (s.rooms i).game (spectate ≠ 0) = 2 + (s.rooms i).game.nbSpectators := by
    simp [addIndex, hsp]
  simp only [handleJoinRoom, hfind]
  rw [if_neg (by simp only [hsp, false_and, false_or]; omega), hindex, if_pos hfull]

/-- **WHEN A HANDLER RETURNS**: its frames leave room for their strings, and its indices are in
    the tables. -/
theorem handled_iff (hsized : ∀ k, Sized (s.rooms k).game) (hnb : s.nbRooms ≤ maxRooms)
    (hc : c < maxClients) (rand : UInt32) (q : Request) :
    (∃ r, handleRequest s c rand q = .ok r) ↔ Short s c q ∧ InTables s c q := by
  have hshort : ∀ {r : Result}, InBounds r → (r = .error .buffer ↔ ¬ Short s c q) →
      ((∃ a, r = .ok a) ↔ Short s c q) := by
    intro r hin hbuffer
    rw [ok_iff hin, ne_eq, hbuffer, not_not]
  cases q with
  | connect name =>
      rw [and_iff_left (show InTables s c (.connect name) from trivial)]
      exact hshort (handleConnect_inBounds hsized name) (handleConnect_buffer hsized name)
  | createRoom =>
      rw [and_iff_right (show Short s c .createRoom from trivial)]
      show _ ↔ 0 ≤ s.nbRooms ∧ s.nbRooms < maxRooms
      simp only [handleRequest, handleCreateRoom]
      split
      · rename_i hroom
        exact iff_of_true ⟨_, rfl⟩ hroom
      · rename_i hroom
        exact iff_of_false (not_ok rfl) hroom
  | joinRoom roomId spectate =>
      by_cases hin : InTables s c (.joinRoom roomId spectate)
      · rw [and_iff_left hin]
        exact hshort (handleJoinRoom_inBounds hsized hc fun i hi hsp => hin hsp i hi)
          (handleJoinRoom_buffer hsized hc roomId spectate)
      · refine iff_of_false (fun hok => hin fun hsp i hi => ?_) fun h => hin h.2
        by_contra hfull
        exact not_ok (join_fault hsized hsp hi (Nat.le_of_not_lt hfull)) hok
  | play pos =>
      rw [and_iff_left (show InTables s c (.play pos) from trivial)]
      exact hshort (handlePlay_inBounds pos) (handlePlay_buffer pos)
  | leaveRoom =>
      rw [and_iff_right (show Short s c .leaveRoom from trivial)]
      have htarget : targetRoom s (s.clients c).roomId < maxRooms ↔ InTables s c .leaveRoom :=
        targetRoom_lt_iff hnb (s.clients c).roomId
      rw [← htarget]
      by_cases hlt : targetRoom s (s.clients c).roomId < maxRooms
      · refine iff_of_true ⟨leaveResult s c (targetRoom s (s.clients c).roomId), ?_⟩ hlt
        exact handleLeaveRoom_eq rfl hlt (hsized _).leaveBounds
      · have hfault : handleLeaveRoom s c
            = .error (.index .rooms (targetRoom s (s.clients c).roomId)) :=
          if_pos (Nat.le_of_not_lt hlt)
        exact iff_of_false (not_ok hfault) hlt
  | sendMessage message =>
      have htarget : targetRoom s (s.clients c).roomId < maxRooms
          ↔ InTables s c (.sendMessage message) := targetRoom_lt_iff hnb (s.clients c).roomId
      rw [← htarget]
      by_cases hlt : targetRoom s (s.clients c).roomId < maxRooms
      · rw [and_iff_left hlt]
        exact hshort (handleSendMessage_inBounds hsized hlt message)
          (handleSendMessage_buffer message)
      · refine iff_of_false ?_ fun h => hlt h.2
        simp only [handleRequest, handleSendMessage]
        split
        · exact not_ok rfl
        · rw [if_pos (Nat.le_of_not_lt hlt)]
          exact not_ok rfl
  | setBiography biography => exact iff_of_true ⟨_, rfl⟩ ⟨trivial, trivial⟩

/-! ## A round finishes -/

/-- The frames of a request fit, its indices are in the tables, and its sends succeed. -/
structure Finishes (s : Server) (c : Nat) (q : Request) : Prop where
  short : Short s c q
  tables : InTables s c q
  sends : SendsOpen s c q

instance (s : Server) (c : Nat) (q : Request) : Decidable (Finishes s c q) :=
  decidable_of_iff (Short s c q ∧ InTables s c q ∧ SendsOpen s c q)
    ⟨fun ⟨h1, h2, h3⟩ => ⟨h1, h2, h3⟩, fun ⟨h1, h2, h3⟩ => ⟨h1, h2, h3⟩⟩

/-- There is room for what a round is about, and what it writes to is open; the loops of a
    disconnection are not looked at. -/
def Survives (s : Server) : Event → Prop
  | .accept _ => s.nbClients < maxClients
  | .frame c body _ => body.length < bufSize
      ∧ ∀ q ∈ readRequest (received s body).buffer, Finishes s c q
  | .disconnect _ => True

instance (s : Server) (e : Event) : Decidable (Survives s e) := by
  refine e.casesOn ?_ ?_ ?_ <;> intros <;> dsimp only [Survives] <;> infer_instance

/-- Nothing is sent in the round. -/
theorem trans_isSome_silent {e : Event} (hp : Possible s e)
    (hsilent : ∀ s' out, step s e = .ok (s', out) → out = []) :
    (trans s e).isSome ↔ ∃ r, step s e = .ok r := by
  rw [trans_isSome, and_iff_right hp]
  constructor
  · rintro ⟨s', out, hs, -⟩
    exact ⟨_, hs⟩
  · rintro ⟨⟨s', out⟩, hs⟩
    refine ⟨s', out, hs, ?_⟩
    rw [hsilent s' out hs]
    exact opened_nil s

theorem accept_finishes (csock : Int) :
    (∃ r, step s (.accept csock) = .ok r) ↔ Survives s (.accept csock) := by
  simp only [step, acceptClient, Survives]
  split
  · rename_i hn
    exact iff_of_true ⟨_, rfl⟩ hn
  · rename_i hn
    exact iff_of_false (not_ok rfl) hn

theorem frame_returns (hr : AwaleServer.Reachable Guard.any.meets s) (hc : c < s.nbClients)
    (body : List UInt8) (rand : UInt32) :
    (∃ r, step s (.frame c body rand) = .ok r) ↔ body.length < bufSize
      ∧ ∀ q ∈ readRequest (received s body).buffer, Short s c q ∧ InTables s c q := by
  have hc' : c < maxClients := Nat.lt_of_lt_of_le hc (nbClients_le hr)
  have hsized : ∀ k, Sized (s.rooms k).game := sized_reachable hr
  have hnb : s.nbRooms ≤ maxRooms := nbRooms_le hr
  have hread : (received s body).buffer = storeBody s.buffer body := rfl
  simp only [step, readFrame]
  split
  · rename_i hlong
    exact iff_of_false (not_ok rfl) fun h => absurd h.1 (Nat.not_lt.mpr hlong)
  · rename_i hlong
    rw [and_iff_right (Nat.lt_of_not_le hlong), hread]
    cases hq : readRequest (storeBody s.buffer body) with
    | none => exact iff_of_true ⟨_, rfl⟩ fun q hq => by cases hq
    | some q =>
        simp only [Option.mem_def, Option.some.injEq, forall_eq']
        exact handled_iff (s := received s body) hsized hnb hc' rand q

/-- What the handler of a frame hands to `send`. -/
theorem frame_sends (hr : AwaleServer.Reachable Guard.any.meets s) (hc : c < s.nbClients)
    {body : List UInt8} {rand : UInt32} (h : step s (.frame c body rand) = .ok (s', out)) :
    Opened s out ↔ ∀ q ∈ readRequest (received s body).buffer, SendsOpen s c q := by
  have hsized : ∀ k, Sized (s.rooms k).game := sized_reachable hr
  have hfounded : ∀ k, Live s k → 0 < (s.rooms k).game.nbPlayers := founded_reachable hr
  obtain ⟨-, ⟨hnone, -, rfl⟩ | ⟨q, hq, heff⟩⟩ := step_cases h
  · rw [hnone]
    exact iff_of_true (opened_nil s) fun q hq => by cases hq
  · rw [hq]
    simp only [Option.mem_def, Option.some.injEq, forall_eq']
    exact opened_iff (s := received s body) hsized hfounded hc heff

theorem frame_finishes (hr : AwaleServer.Reachable Guard.any.meets s) {body : List UInt8}
    {rand : UInt32} (hp : Possible s (.frame c body rand)) :
    (trans s (.frame c body rand)).isSome ↔ Survives s (.frame c body rand) := by
  rw [trans_isSome, and_iff_right hp]
  constructor
  · rintro ⟨s', out, hs, hopen⟩
    obtain ⟨hlen, hreturns⟩ := (frame_returns hr hp.1 body rand).mp ⟨_, hs⟩
    have hsends := (frame_sends hr hp.1 hs).mp hopen
    exact ⟨hlen, fun q hq => ⟨(hreturns q hq).1, (hreturns q hq).2, hsends q hq⟩⟩
  · rintro ⟨hlen, hfinishes⟩
    obtain ⟨⟨s', out⟩, hs⟩ := (frame_returns hr hp.1 body rand).mpr
      ⟨hlen, fun q hq => ⟨(hfinishes q hq).short, (hfinishes q hq).tables⟩⟩
    exact ⟨s', out, hs, (frame_sends hr hp.1 hs).mpr fun q hq => (hfinishes q hq).sends⟩

/-- A new connection is not written to. -/
theorem accept_survives {csock : Int} (hp : Possible s (.accept csock)) :
    (trans s (.accept csock)).isSome ↔ Survives s (.accept csock) := by
  rw [trans_isSome_silent hp fun s' out hs => ?_, accept_finishes]
  exact (step_cases hs).2.2

/-- **A ROUND FINISHES** just when there is room for what it is about and what it writes to is
    open, in every reachable state. -/
theorem survives (hr : AwaleServer.Reachable Guard.any.meets s) {e : Event} (hp : Possible s e)
    (hstays : ∀ c, e ≠ .disconnect c) : (trans s e).isSome ↔ Survives s e := by
  cases e with
  | accept csock => exact accept_survives hp
  | frame c body rand => exact frame_finishes hr hp
  | disconnect c => exact absurd rfl (hstays c)

/-- One client has a room, another asks to join it. -/
theorem survives_joining : ∃ s, (s.nbClients, s.nbRooms) = (2, 1)
    ∧ (trans s (.frame 1 (Request.joinRoom 7 0).body 0)).isSome := by
  obtain ⟨s, hr, hs⟩ := Guard.reaches (g := Guard.any)
    (f := fun s => decide ((s.nbClients, s.nbRooms) = (2, 1)
      ∧ Possible s (.frame 1 (Request.joinRoom 7 0).body 0)
      ∧ Survives s (.frame 1 (Request.joinRoom 7 0).body 0))) (b := true)
    [.accept 4, .accept 5, .frame 0 Request.createRoom.body 7] (by decide +kernel)
    (by decide +kernel)
  obtain ⟨hcounts, hp, hsurvives⟩ := of_decide_eq_true hs
  exact ⟨s, hcounts, (survives hr hp fun c h => by cases h).mpr hsurvives⟩

/-! ## Limits -/

/-- Limits on the strings and on the spectators of a room under which the frames fit: two seats
    and a newcomer bring four strings together, besides the spectators' names. -/
structure Limits where
  text : Nat
  spectators : Nat
  frames : (spectators + 4) * (text + 1) + 5 ≤ bufSize
  /-- The spectator loop of a disconnection counts through `rooms`. -/
  scan : spectators ≤ maxRooms

/-- What the clients may ask for. -/
def Limits.Allows (b : Limits) (s : Server) (c : Nat) : Request → Prop
  | .connect name => name.strlen ≤ b.text
  | .createRoom => 0 ≤ s.nbRooms ∧ s.nbRooms < maxRooms
  | .joinRoom roomId spectate => spectate ≠ 0 → ∀ i ∈ findRoom s roomId,
      (s.rooms i).game.nbSpectators < b.spectators
  | .play _ => True
  | .leaveRoom => findRoom s (s.clients c).roomId = none → s.nbRooms < maxRooms
  | .sendMessage message => message.strlen ≤ b.text
      ∧ (findRoom s (s.clients c).roomId = none → s.nbRooms < maxRooms)
  | .setBiography biography => biography.strlen ≤ b.text

/-- The runs within the limits, whose handlers write to entries that are in order. -/
def Limits.guard (b : Limits) : Guard where
  accept s _ := s.nbClients < maxClients
  request s c rand q := descriptorGuard.request s c rand q ∧ b.Allows s c q
  disconnect s c := descriptorGuard.disconnect s c

theorem guard_descriptor {b : Limits} {e : Event} (h : b.guard.meets s e) :
    descriptorGuard.meets s e := by
  cases e with
  | accept csock => trivial
  | frame c body rand =>
      exact Guard.meets_frame.mpr fun q hq => (Guard.meets_frame.mp h q hq).1
  | disconnect c => exact h

instance (b : Limits) (s : Server) (csock : Int) : Decidable (b.guard.accept s csock) :=
  inferInstanceAs (Decidable (_ < _))

instance (b : Limits) (s : Server) (c : Nat) (q : Request) : Decidable (b.Allows s c q) := by
  refine q.casesOn ?_ ?_ ?_ ?_ ?_ ?_ ?_ <;> intros <;> dsimp only [Limits.Allows] <;>
    infer_instance

instance (b : Limits) (s : Server) (c : Nat) (rand : UInt32) (q : Request) :
    Decidable (b.guard.request s c rand q) :=
  inferInstanceAs (Decidable (descriptorGuard.request s c rand q ∧ b.Allows s c q))

instance (b : Limits) (s : Server) (c : Nat) : Decidable (b.guard.disconnect s c) :=
  inferInstanceAs (Decidable (descriptorGuard.disconnect s c))

/-- A game within the limits, its entries that are not in use included. -/
structure GameWithin (b : Limits) (game : Game) : Prop where
  spectators : game.nbSpectators ≤ b.spectators
  names : ∀ e, (game.players e).name.strlen ≤ b.text

def ClientWithin (b : Limits) (client : Client) : Prop :=
  client.name.strlen ≤ b.text ∧ client.biography.strlen ≤ b.text

structure Within (b : Limits) (s : Server) : Prop where
  clients : ∀ a, ClientWithin b (s.clients a)
  games : ∀ k, GameWithin b (s.rooms k).game

variable {b : Limits}

section Game

theorem names_update {players : Nat → Player} (h : ∀ e, (players e).name.strlen ≤ b.text) {e₀ : Nat}
    {player : Player} (hp : player.name.strlen ≤ b.text) (e : Nat) :
    (Function.update players e₀ player e).name.strlen ≤ b.text := by
  by_cases he : e = e₀
  · rw [he, Function.update_self]
    exact hp
  · rw [Function.update_of_ne he]
    exact h e

theorem GameWithin.setId (h : GameWithin b game) (j : Nat) (id : Int) :
    GameWithin b (setPlayerId game j id) :=
  ⟨h.spectators, names_update h.names (h.names j)⟩

theorem GameWithin.unwatch (h : GameWithin b game) (j : Nat) :
    GameWithin b (removeSpectator game j) :=
  ⟨Nat.le_trans (Nat.sub_le _ _) h.spectators, names_update h.names (h.names _)⟩

theorem GameWithin.play (h : GameWithin b game) (pos : Int) (side : Nat) :
    GameWithin b (gamePlay machine game pos side).1 := by
  obtain ⟨-, hn, -, hperson⟩ := gamePlay_frame machine game pos side
  refine ⟨hn ▸ h.spectators, fun e => ?_⟩
  rw [(hperson e).2.1]
  exact h.names e

theorem GameWithin.create (h : GameWithin b game) {player : Player}
    (hp : player.name.strlen ≤ b.text) :
    GameWithin b (gameAddPlayer (gameInit game) player false) :=
  ⟨Nat.zero_le _, names_update h.names hp⟩

theorem GameWithin.join (h : GameWithin b game) {player : Player}
    (hp : player.name.strlen ≤ b.text) {spectate : UInt8}
    (hroom : spectate ≠ 0 → game.nbSpectators < b.spectators) :
    GameWithin b (gameAddPlayer game player (spectate ≠ 0)) := by
  refine ⟨?_, names_update h.names hp⟩
  have hle := h.spectators
  by_cases hsp : spectate = 0
  · simpa [gameAddPlayer, hsp] using hle
  · have hlt : game.nbSpectators + 1 ≤ b.spectators := hroom hsp
    simpa [gameAddPlayer, hsp] using hlt

end Game

section Server

theorem clients_set (h : ∀ a, ClientWithin b (s.clients a)) {client : Client}
    (hc : ClientWithin b client) (c a : Nat) :
    ClientWithin b ((setClient s c client).clients a) := by
  by_cases hac : a = c
  · rw [hac, setClient_self]
    exact hc
  · rw [setClient_of_ne hac]
    exact h a

theorem clients_setRoomId (h : ∀ a, ClientWithin b (s.clients a)) (c : Nat) (roomId : UInt32)
    (a : Nat) : ClientWithin b ((setRoomId s c roomId).clients a) := by
  have hc : ClientWithin b { s.clients c with roomId := roomId } := h c
  exact clients_set h hc c a

theorem games_set (h : ∀ k, GameWithin b (s.rooms k).game) {room : Room}
    (hr : GameWithin b room.game) (i k : Nat) : GameWithin b ((setRoom s i room).rooms k).game :=
  setRoom_slots (P := fun _ => GameWithin b) (fun k _ => h k) hr k

theorem games_delete (h : ∀ k, GameWithin b (s.rooms k).game) (i k : Nat) :
    GameWithin b ((deleteRoom s i).rooms k).game := by
  show GameWithin b (SlotArray.shiftDown s.rooms i (s.nbRooms - 1).toNat k).game
  rw [SlotArray.shiftDown_apply]
  split
  · exact h (k + 1)
  · exact h k

/-- **A REQUEST WITHIN THE LIMITS** keeps the server within them. -/
theorem Within.request (h : Within b s) (hq : b.Allows s c q) (heff : Effect s c rand q s' out) :
    Within b s' := by
  obtain ⟨hname, hbiography⟩ := h.clients c
  have hnamed : ∀ {name : CString}, name.strlen ≤ b.text →
      ClientWithin b { s.clients c with name := name } := fun hlen => ⟨hlen, hbiography⟩
  have hjoined : ∀ {i : Nat} {spectate : UInt8},
      (spectate ≠ 0 → (s.rooms i).game.nbSpectators < b.spectators) →
      GameWithin b (joinedGame s c i spectate) := fun hroom => (h.games _).join hname hroom
  cases heff with
  | nameRefused _ => exact h
  | named _ _ => exact ⟨clients_set h.clients (hnamed hq) c, h.games⟩
  | @resumed name i j m _ _ _ =>
      refine ⟨fun a => ?_, games_set h.games ((h.games i).setId j _) i⟩
      exact clients_setRoomId (clients_set h.clients (hnamed hq) c) c _ a
  | created _ _ =>
      exact ⟨clients_setRoomId h.clients c rand, games_set h.games ((h.games _).create hname) _⟩
  | joinNotFound _ => exact h
  | joinFull _ _ => exact h
  | @joined roomId spectate i frame hfind _ _ _ =>
      exact ⟨clients_setRoomId h.clients c roomId,
        games_set h.games (hjoined fun hsp => hq hsp i hfind) i⟩
  | @started roomId spectate i frame hfind _ _ _ =>
      rw [setGame_joined]
      have hgame : GameWithin b (joinedGame s c i spectate) := hjoined fun hsp => hq hsp i hfind
      exact ⟨clients_setRoomId h.clients c roomId,
        games_set h.games ⟨hgame.spectators, hgame.names⟩ i⟩
  | playedNowhere _ => exact h
  | @played pos i _ _ => exact ⟨h.clients, games_set h.games ((h.games i).play _ _) i⟩
  | @playedLast pos i _ _ =>
      exact ⟨h.clients, games_delete (games_set h.games ((h.games i).play _ _) i) i⟩
  | @closed i j _ _ _ _ => exact ⟨clients_setRoomId h.clients c 0, games_delete h.games i⟩
  | @unwatched i j _ _ _ _ _ =>
      exact ⟨clients_setRoomId h.clients c 0, games_set h.games ((h.games i).unwatch j) i⟩
  | leftNothing _ _ _ _ _ => exact ⟨clients_setRoomId h.clients c 0, h.games⟩
  | messaged _ _ => exact h
  | @described biography =>
      have hdescribed : ClientWithin b { s.clients c with biography := biography } := ⟨hname, hq⟩
      exact ⟨clients_set h.clients hdescribed c, h.games⟩

/-- **THE LIMITS HOLD** in every run within them. -/
theorem within_reachable (hr : AwaleServer.Reachable b.guard.meets s) : Within b s := by
  refine Guard.invariant ?_ ?_ ?_ ?_ ?_ hr
  · intro buffer
    exact ⟨fun _ => ⟨Nat.zero_le _, Nat.zero_le _⟩,
      fun _ => ⟨Nat.zero_le _, fun _ => Nat.zero_le _⟩⟩
  · intro t buffer ht
    exact ⟨ht.clients, ht.games⟩
  · intro t csock ht _ _ _ _
    exact ⟨clients_set ht.clients ⟨Nat.zero_le _, Nat.zero_le _⟩ _, ht.games⟩
  · intro t c rand q t' out ht _ hq heff
    exact ht.request hq.2 heff
  · intro t c t₁ ht _ _ hd
    have hclients : t₁.clients = t.clients := (disconnectUser_frame hd).1
    refine ⟨fun a => ?_, ?_⟩
    · show ClientWithin b (SlotArray.shiftDown t₁.clients c (t₁.nbClients - 1) a)
      rw [SlotArray.shiftDown_apply, hclients]
      split
      · exact ht.clients (a + 1)
      · exact ht.clients a
    · refine (disconnectUser_invariant
        (I := fun u => u.nbRooms = t.nbRooms ∧ ∀ k, GameWithin b (u.rooms k).game)
        (fun u hu => hu.1) ?_ ?_ ⟨rfl, ht.games⟩ rfl rfl hd).2
      · rintro u i j ⟨hnb, hu⟩ _ _ _
        exact ⟨hnb, games_set hu ((hu i).setId j _) i⟩
      · rintro u i j ⟨hnb, hu⟩ _ _ _ _
        exact ⟨hnb, games_set hu ((hu i).unwatch j) i⟩

end Server

/-! ## Within the limits, frames are short -/

section Bytes

theorem bytesOf_le {l : List CString} {n : Nat} (hlen : l.length ≤ n)
    (h : ∀ str ∈ l, str.strlen ≤ b.text) : bytesOf l ≤ n * (b.text + 1) := by
  have hsum : bytesOf l ≤ l.length * (b.text + 1) := by
    have hle : ∀ k ∈ l.map fun str => str.strlen + 1, k ≤ b.text + 1 := by
      intro k hk
      obtain ⟨str, hstr, rfl⟩ := List.mem_map.mp hk
      exact Nat.succ_le_succ (h str hstr)
    simpa [bytesOf] using List.sum_le_card_nsmul _ _ hle
  exact Nat.le_trans hsum (Nat.mul_le_mul_right _ hlen)

/-- The names of the seats. -/
theorem seatNames_le (h : Within b s) {n : Nat} (hn : (s.rooms i).game.nbPlayers ≤ n) :
    bytesOf (seatNames (s.rooms i).game) ≤ n * (b.text + 1) := by
  refine bytesOf_le (by simpa [seatNames, ofSeats] using hn) fun str hstr => ?_
  obtain ⟨j, -, rfl⟩ := List.mem_map.mp hstr
  exact (h.games i).names j

/-- The biographies of the seats. -/
theorem playerBios_le (h : Within b s) {n : Nat} (hn : (s.rooms i).game.nbPlayers ≤ n) :
    bytesOf (playerBios s (s.rooms i).game) ≤ n * (b.text + 1) := by
  refine bytesOf_le (by simpa [playerBios] using hn) fun str hstr => ?_
  obtain ⟨j, -, rfl⟩ := List.mem_map.mp hstr
  exact (h.clients _).2

theorem spectatorNames_le (h : Within b s) (k : Nat) :
    bytesOf ((spectatorNames (s.rooms i).game).take k) ≤ b.spectators * (b.text + 1) := by
  refine bytesOf_le ?_ fun str hstr => ?_
  · refine Nat.le_trans (List.length_take_le' _ _) ?_
    simpa [spectatorNames, ofSpectators] using (h.games i).spectators
  · obtain ⟨j, -, rfl⟩ := List.mem_map.mp (List.mem_of_mem_take hstr)
    exact (h.games i).names (2 + j)

theorem shownBytes_le (h : Within b s) {n : Nat} (hn : (s.rooms i).game.nbPlayers ≤ n) :
    shownBytes s (s.rooms i).game ≤ 2 * (n * (b.text + 1)) + b.spectators * (b.text + 1) := by
  have hnames := seatNames_le h hn
  have hbios := playerBios_le h hn
  have hspectators := spectatorNames_le (i := i) h ((s.rooms i).game.nbSpectators % 256)
  simp only [shownBytes]
  omega

theorem joinBytes_le (h : Within b s) (hseats : (s.rooms i).game.nbPlayers ≤ 2) {spectate : UInt8}
    (hopen : JoinOpen (s.rooms i).game spectate)
    (hroom : spectate ≠ 0 → (s.rooms i).game.nbSpectators < b.spectators) :
    joinBytes s c (s.rooms i).game spectate ≤ (b.spectators + 4) * (b.text + 1) := by
  have hname := (h.clients c).1
  have hbiography := (h.clients c).2
  rw [Nat.add_mul]
  by_cases hsp : spectate = 0
  · have hone : (s.rooms i).game.nbPlayers ≤ 1 := by
      by_contra htwo
      exact hopen.1 (Or.inl ⟨hsp, by omega⟩)
    have hshown := shownBytes_le h hone
    rw [joinBytes, if_pos hsp]
    omega
  · have hlt : (s.rooms i).game.nbSpectators + 1 ≤ b.spectators := hroom hsp
    have hnames := seatNames_le h hseats
    have hbios := playerBios_le h hseats
    have hspectators : bytesOf ((spectatorNames (s.rooms i).game ++ [(s.clients c).name]).take
        (((s.rooms i).game.nbSpectators + 1) % 256)) ≤ b.spectators * (b.text + 1) := by
      refine bytesOf_le ?_ fun str hstr => ?_
      · refine Nat.le_trans (List.length_take_le' _ _) ?_
        simpa [spectatorNames, ofSpectators] using hlt
      · rcases List.mem_append.mp (List.mem_of_mem_take hstr) with hmem | hmem
        · obtain ⟨j, -, rfl⟩ := List.mem_map.mp hmem
          exact (h.games i).names (2 + j)
        · rw [List.mem_singleton.mp hmem]
          exact hname
    rw [joinBytes, if_neg hsp]
    omega

end Bytes

/-- **A REQUEST WITHIN THE LIMITS** is short and in the tables. -/
theorem allowed (h : Within b s) (hsized : ∀ k, Sized (s.rooms k).game) (hq : b.Allows s c q) :
    Short s c q ∧ InTables s c q := by
  have hframes := b.frames
  have hscan := b.scan
  have hmax : maxGamePlayers = 1024 := rfl
  have hrooms : maxRooms = 200 := rfl
  have hsplit := Nat.add_mul b.spectators 4 (b.text + 1)
  cases q with
  | connect name =>
      refine ⟨fun _ p _ _ => ?_, trivial⟩
      have hshown := shownBytes_le h (hsized p.1).seats
      omega
  | createRoom => exact ⟨trivial, hq⟩
  | joinRoom roomId spectate =>
      refine ⟨fun i hi hopen => ?_, fun hsp i hi => ?_⟩
      · have hjoin := joinBytes_le (c := c) h (hsized i).seats hopen fun hsp => hq hsp i hi
        omega
      · have hlt : (s.rooms i).game.nbSpectators < b.spectators := hq hsp i hi
        omega
  | play pos =>
      refine ⟨fun i _ => ?_, trivial⟩
      have hname : (winnerName (s.rooms i).game (gameIsEnded (playIn s c i pos).1)).strlen
          ≤ b.text := by
        cases gameIsEnded (playIn s c i pos).1 with
        | p1won => exact (h.games i).names 0
        | p2won => exact (h.games i).names 1
        | _ => exact Nat.zero_le _
      omega
  | leaveRoom => exact ⟨trivial, hq⟩
  | sendMessage message =>
      obtain ⟨hlen, hroom⟩ := hq
      refine ⟨?_, hroom⟩
      have hname := (h.clients c).1
      show (s.clients c).name.strlen + message.strlen + 5 ≤ bufSize
      omega
  | setBiography biography => exact ⟨trivial, trivial⟩

/-! ## Disconnections -/

/-- The counters of the spectator loop stay in `rooms`. -/
def Scannable (s : Server) : Prop := ∀ k, (s.rooms k).game.nbSpectators ≤ maxRooms

theorem Scannable.set (h : Scannable s) {game : Game} (hg : game.nbSpectators ≤ maxRooms) :
    Scannable (setGame s i game) :=
  setGame_slots (P := fun _ g => g.nbSpectators ≤ maxRooms) (fun k _ => h k) hg

theorem dropSpectators_ok {sock : Int} : ∀ (fuel j : Nat) {s : Server}, Scannable s →
    ∃ s', dropSpectators sock i fuel j s = .ok s' ∧ Scannable s'
  | 0, _, s, h => ⟨s, rfl, h⟩
  | fuel + 1, j, s, h => by
      simp only [dropSpectators]
      split
      · rename_i hj
        have hle := h i
        rw [if_neg (by omega)]
        split
        · refine dropSpectators_ok fuel (j + 1) (h.set ?_)
          exact Nat.le_trans (Nat.sub_le _ _) hle
        · exact dropSpectators_ok fuel (j + 1) h
      · exact ⟨s, rfl, h⟩

theorem disconnectRooms_ok {sock : Int} {roomId : UInt32} : ∀ (is : List Nat) {s : Server},
    Scannable s → ∃ s', disconnectRooms sock roomId is s = .ok s'
  | [], s, _ => ⟨s, rfl⟩
  | i :: is, s, h => by
      simp only [disconnectRooms]
      split
      · split
        · exact ⟨_, rfl⟩
        · obtain ⟨s', hdrop, hs'⟩ := @dropSpectators_ok i sock _ 0 s h
          rw [hdrop]
          exact disconnectRooms_ok is hs'
      · exact disconnectRooms_ok is h

/-- A disconnection finishes. -/
theorem dropClient_ok (h : Scannable s) (c : Nat) : ∃ r, dropClient s c = .ok r := by
  obtain ⟨s', hs'⟩ : ∃ s', disconnectUser s c = .ok s' := disconnectRooms_ok _ h
  simp only [dropClient, hs']
  exact ⟨_, rfl⟩

/-! ## Runs -/

/-- The processing of an event within the limits stays defined. -/
theorem within_returns (hr : AwaleServer.Reachable b.guard.meets s) {e : Event}
    (hp : Possible s e) (hg : b.guard.meets s e)
    (hlen : ∀ c body rand, e = .frame c body rand → body.length < bufSize) :
    ∃ r, step s e = .ok r := by
  have hin := within_reachable hr
  have hany : AwaleServer.Reachable Guard.any.meets s :=
    GuardedRun.Reachable.mono (fun _ e _ => Guard.meets_any e) hr
  have hsized : ∀ k, Sized (s.rooms k).game := sized_reachable hany
  cases e with
  | accept csock => exact (accept_finishes csock).mpr hg
  | frame c body rand =>
      refine (frame_returns hany hp.1 body rand).mpr ⟨hlen c body rand rfl, fun q hq => ?_⟩
      have hin' : Within b (received s body) := ⟨hin.clients, hin.games⟩
      exact allowed (s := received s body) hin' hsized (Guard.meets_frame.mp hg q hq).2
  | disconnect c =>
      exact dropClient_ok (fun k => Nat.le_trans (hin.games k).spectators b.scan) c

/-- **WITHIN THE LIMITS** every round of every run finishes, whatever the clients send and in
    whatever order. -/
theorem within_limits (hr : AwaleServer.Reachable b.guard.meets s) {e : Event} (hp : Possible s e)
    (hg : b.guard.meets s e)
    (hlen : ∀ c body rand, e = .frame c body rand → body.length < bufSize) :
    (trans s e).isSome := by
  have hdescriptor : AwaleServer.Reachable descriptorGuard.meets s :=
    GuardedRun.Reachable.mono (fun _ _ h => guard_descriptor h) hr
  obtain ⟨⟨s', out⟩, hs⟩ := within_returns hr hp hg hlen
  rw [(trans_guarded hdescriptor (guard_descriptor hg) hp).mpr hs]
  rfl

private theorem twenty_frames : (20 + 4) * (30 + 1) + 5 ≤ bufSize := by decide

private theorem twenty_scan : 20 ≤ maxRooms := by decide

/-- Thirty characters a string and twenty spectators a room. -/
def twenty : Limits := ⟨30, 20, twenty_frames, twenty_scan⟩

/-- A spectator's disconnection. -/
theorem within_limits_twenty : ∃ s : Server, (s.rooms 0).game.nbSpectators = 1
    ∧ (trans s (.disconnect 1)).isSome := by
  obtain ⟨s, hr, hs⟩ := Guard.reaches (g := twenty.guard)
    (f := fun s => decide (Possible s (.disconnect 1) ∧ (s.rooms 0).game.nbSpectators = 1
      ∧ twenty.guard.disconnect s 1)) (b := true)
    [.accept 4, .accept 5, .frame 0 (Request.connect (literal "ann")).body 0,
      .frame 0 Request.createRoom.body 7, .frame 1 (Request.joinRoom 7 1).body 0]
    (by decide +kernel) (by decide +kernel)
  obtain ⟨hp, hone, hg⟩ := of_decide_eq_true hs
  exact ⟨s, hone, within_limits hr hp hg fun _ _ _ h => by cases h⟩

end AwaleLimits
