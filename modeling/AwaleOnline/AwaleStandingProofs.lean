import AwaleOnline.AwaleTidyProofs
import AwaleOnline.AwaleAuthorisationProofs
import AwaleOnline.AwaleSystemProofs
import AwaleOnline.AwaleDialogueProofs

/-!
# Who is told what

A member entry stands for a state of its client: that of a spectator, of a player who waits
for a second one, of the player to move or of the other.

* **`expected`** — that state, read off the game;
* **`framesTo_played`** and its companions — what one descriptor gets of a broadcast: one frame
  for the one entry that holds it;
* **`Keeps`** — a request of someone else moves an entry from one state to another and sends
  its client frames that lead there; one lemma for each way a request changes the rooms.
-/

namespace AwaleStanding

open AwaleGame AwaleProtocol AwaleServer AwaleEffect AwaleBounds AwaleRoster AwaleAuthorisation
open AwaleClient AwaleSystem AwaleTidy AwaleDialogue

/-- The state an entry of a game stands for. -/
def expected (game : Game) (e : Nat) : State :=
  if 2 ≤ e then .spectating
  else if game.isStarted = false then .inRoom
  else if game.turn = e then .waitingPlayInput
  else .inGame

variable {s s' : Server} {a c i j e n : Nat} {game game' : Game} {x y : Int} {m : ServerMsg}
  {out : List Sent} {fs : List ServerMsg}

theorem expected_inRoom (game : Game) (e : Nat) : InRoom (expected game e) := by
  simp only [expected]
  split_ifs
  · exact Or.inr (Or.inl rfl)
  · exact Or.inl rfl
  · exact Or.inr (Or.inr (Or.inr rfl))
  · exact Or.inr (Or.inr (Or.inl rfl))

theorem expected_congr (h1 : game'.isStarted = game.isStarted) (h2 : game'.turn = game.turn)
    (e : Nat) : expected game' e = expected game e := by
  simp only [expected]
  rw [h1, h2]

theorem expected_spectator (game : Game) (h : 2 ≤ e) : expected game e = .spectating := if_pos h

theorem expected_waiting (he : e < 2) (h : game.isStarted = false) :
    expected game e = .inRoom := by
  rw [expected, if_neg (by omega), if_pos h]

theorem expected_toMove (he : e < 2) (h : game.isStarted = true) (ht : game.turn = e) :
    expected game e = .waitingPlayInput := by
  rw [expected, if_neg (by omega), h, if_neg Bool.noConfusion, if_pos ht]

theorem expected_toWait (he : e < 2) (h : game.isStarted = true) (ht : game.turn ≠ e) :
    expected game e = .inGame := by
  rw [expected, if_neg (by omega), h, if_neg Bool.noConfusion, if_neg ht]

/-- Only the player to move is expected to move. -/
theorem expected_eq_waitingPlayInput (h : expected game e = .waitingPlayInput) :
    e < 2 ∧ game.isStarted = true ∧ game.turn = e := by
  simp only [expected] at h
  split_ifs at h with h2 hst ht
  exact ⟨by omega, by simpa using hst, ht⟩

/-! ## What one descriptor is sent -/

theorem framesTo_self (h : x ≠ -1) (m : ServerMsg) : framesTo x (writeClient x m) = [m] := by
  rw [writeClient, if_pos h]
  simp [framesTo]

theorem framesTo_none (h : ∀ p ∈ out, p.1 ≠ x) : framesTo x out = [] := by
  refine List.eq_nil_iff_forall_not_mem.mpr fun m hm => ?_
  exact h (x, m) (mem_framesTo.mp hm) rfl

theorem framesTo_other (h : y ≠ x) (m : ServerMsg) : framesTo x (writeClient y m) = [] :=
  framesTo_none fun _ hp => (mem_writeClient.mp hp).2 ▸ h

/-- A broadcast loop, when one index alone writes to the descriptor. -/
theorem framesTo_flatMap {f : Nat → List Sent} (hj : j < n)
    (hother : ∀ k < n, k ≠ j → framesTo x (f k) = []) :
    framesTo x ((List.range n).flatMap f) = framesTo x (f j) := by
  induction n with
  | zero => exact absurd hj (Nat.not_lt_zero j)
  | succ n ih =>
      rw [List.range_succ, List.flatMap_append, framesTo_append, List.flatMap_singleton]
      by_cases hjn : j = n
      · subst hjn
        have hfront : framesTo x ((List.range j).flatMap f) = [] := by
          refine List.eq_nil_iff_forall_not_mem.mpr fun m hm => ?_
          obtain ⟨k, hk, hmem⟩ := List.mem_flatMap.mp (mem_framesTo.mp hm)
          have hlt := List.mem_range.mp hk
          have hnil := hother k (by omega) (by omega)
          exact absurd (hnil ▸ mem_framesTo.mpr hmem) List.not_mem_nil
        rw [hfront, List.nil_append]
      · rw [ih (by omega) fun k hk => hother k (by omega),
          hother n (by omega) (fun h => hjn h.symm), List.append_nil]

/-- A PLAYED frame goes to a member entry. -/
theorem mem_playedFrames {p : Sent} (h : p ∈ playedFrames game) :
    ∃ e score score' board, MemberAt game e ∧ (game.players e).id = p.1
      ∧ p.2 = .played score score' board := by
  rcases List.mem_append.mp h with h | h
  · obtain ⟨j, hj, hp⟩ := List.mem_flatMap.mp h
    obtain ⟨-, rfl⟩ := mem_writeClient.mp hp
    exact ⟨j, _, _, _, Or.inl (List.mem_range.mp hj), rfl, rfl⟩
  · obtain ⟨j, hj, hp⟩ := List.mem_flatMap.mp h
    obtain ⟨-, rfl⟩ := mem_writeClient.mp hp
    have hlt := List.mem_range.mp hj
    exact ⟨2 + j, _, _, _, Or.inr ⟨by omega, by omega⟩, rfl, rfl⟩

/-- The side whose view of the board entry `e` is sent. -/
def viewSide (game : Game) (e : Nat) : Nat := if e < game.nbPlayers then e else 0

/-- **A BROADCAST MOVE** reaches a member once when no other entry holds its descriptor, a seat
    with its own view and a spectator with the first one. -/
theorem framesTo_view (hx : x ≠ -1) (hseats : game.nbPlayers ≤ 2) (hmem : MemberAt game e)
    (hid : (game.players e).id = x)
    (honly : ∀ e', MemberAt game e' → (game.players e').id = x → e' = e) :
    framesTo x (playedFrames game) = [writePlayed (viewSide game e) game] := by
  rw [playedFrames, framesTo_append]
  by_cases he : e < game.nbPlayers
  · have hspec : framesTo x ((List.range game.nbSpectators).flatMap fun j =>
        writeClient (game.players (2 + j)).id (writePlayed 0 game)) = [] := by
      refine framesTo_none fun p hp hpx => ?_
      obtain ⟨j, hj, hp⟩ := List.mem_flatMap.mp hp
      obtain ⟨-, rfl⟩ := mem_writeClient.mp hp
      have hlt := List.mem_range.mp hj
      have heq := honly (2 + j) (Or.inr ⟨by omega, by omega⟩) hpx
      omega
    rw [hspec, List.append_nil, framesTo_flatMap he, hid, framesTo_self hx, viewSide, if_pos he]
    intro k hk hke
    exact framesTo_other (fun h => hke (honly k (Or.inl hk) h)) _
  · obtain ⟨h2, he2⟩ := hmem.resolve_left he
    have hseat : framesTo x ((List.range game.nbPlayers).flatMap fun j =>
        writeClient (game.players j).id (writePlayed j game)) = [] := by
      refine framesTo_none fun p hp hpx => ?_
      obtain ⟨j, hj, hp⟩ := List.mem_flatMap.mp hp
      obtain ⟨-, rfl⟩ := mem_writeClient.mp hp
      have hlt := List.mem_range.mp hj
      have heq := honly j (Or.inl hlt) hpx
      omega
    have hself : 2 + (e - 2) = e := by omega
    rw [hseat, List.nil_append, framesTo_flatMap (j := e - 2) (by omega), hself, hid,
      framesTo_self hx, viewSide, if_neg he]
    intro k hk hke
    refine framesTo_other (fun h => hke ?_) _
    have heq := honly (2 + k) (Or.inr ⟨by omega, by omega⟩) h
    omega

theorem framesTo_played (hx : x ≠ -1) (hseats : game.nbPlayers ≤ 2) (hmem : MemberAt game e)
    (hid : (game.players e).id = x)
    (honly : ∀ e', MemberAt game e' → (game.players e').id = x → e' = e) :
    ∃ score score' board, framesTo x (playedFrames game) = [.played score score' board] :=
  ⟨_, _, _, framesTo_view hx hseats hmem hid honly⟩

theorem framesTo_played_none (h : ∀ e, MemberAt game e → (game.players e).id ≠ x) :
    framesTo x (playedFrames game) = [] := by
  refine framesTo_none fun p hp => ?_
  obtain ⟨e, _, _, _, hmem, hid, -⟩ := mem_playedFrames hp
  exact hid ▸ h e hmem

/-- GAME_START reaches the seat that holds the descriptor, with the seat's index. -/
theorem framesTo_gameStarts (hx : x ≠ -1) (hj : j < game.nbPlayers)
    (hid : (game.players j).id = x)
    (honly : ∀ k < game.nbPlayers, (game.players k).id = x → k = j) :
    framesTo x (gameStarts game) = [.gameStart (UInt8.ofNat j)] := by
  rw [gameStarts, framesTo_flatMap hj, hid, framesTo_self hx]
  intro k hk hkj
  exact framesTo_other (fun h => hkj (honly k hk h)) _

theorem framesTo_gameStarts_none (h : ∀ k < game.nbPlayers, (game.players k).id ≠ x) :
    framesTo x (gameStarts game) = [] := by
  refine framesTo_none fun p hp => ?_
  obtain ⟨k, hk, hp⟩ := List.mem_flatMap.mp hp
  obtain ⟨-, rfl⟩ := mem_writeClient.mp hp
  exact h k (List.mem_range.mp hk)

theorem mem_messageFrames {p : Sent} (h : p ∈ messageFrames game x m) : p.2 = m := by
  rcases List.mem_append.mp h with h | h
  all_goals
    obtain ⟨j, -, hp⟩ := List.mem_flatMap.mp h
    split at hp
    · rw [(mem_writeClient.mp hp).2]
    · exact absurd hp List.not_mem_nil

theorem mem_leaveFrames {p : Sent} (h : p ∈ leaveFrames game j) :
    ∃ k < game.nbPlayers + game.nbSpectators, k ≠ j ∧ (game.players k).id = p.1 ∧ p.1 ≠ -1
      ∧ p.2 = .gameStopped true CString.empty := by
  obtain ⟨k, hk, hp⟩ := List.mem_flatMap.mp h
  split at hp
  · rename_i hkj
    obtain ⟨hne, rfl⟩ := mem_writeClient.mp hp
    exact ⟨k, List.mem_range.mp hk, hkj, rfl, hne, rfl⟩
  · exact absurd hp List.not_mem_nil

/-! ## What a request of someone else does to a client -/

/-- Before the start it is the turn of seat `0`. -/
def Opening (s : Server) : Prop :=
  ∀ k, Live s k → (s.rooms k).game.isStarted = false → (s.rooms k).game.turn = 0

/-- What is known of the server in every state. -/
structure Orderly (s : Server) : Prop where
  settled : Settled (roster s)
  distinct : (roster s).Distinct
  sized : ∀ k, Sized (s.rooms k).game
  founded : ∀ k, Live s k → 0 < (s.rooms k).game.nbPlayers
  opening : Opening s

/-- Client `a` stays itself, and the frames `fs` take it from the state its entry stood for to
    the one it stands for. -/
structure Keeps (s s' : Server) (a : Nat) (fs : List ServerMsg) : Prop where
  name : (s'.clients a).name = (s.clients a).name
  origin : ∀ k' e, entry s' k' e = some (s.clients a).sock →
    ∃ k, entry s k e = some (s.clients a).sock
      ∧ ((s'.rooms k').game.players e).name = ((s.rooms k).game.players e).name
      ∧ Walk (expected (s.rooms k).game e) fs (expected (s'.rooms k').game e)
  stale : ∀ m ∈ fs, Stale m
  idle : Absent (roster s) a → ∀ m ∈ fs, Idle m

/-- The rooms stay where they are. -/
theorem Keeps.in_place (hname : (s'.clients a).name = (s.clients a).name)
    (hentry : ∀ k e, entry s' k e = some (s.clients a).sock →
      entry s k e = some (s.clients a).sock
        ∧ ((s'.rooms k).game.players e).name = ((s.rooms k).game.players e).name
        ∧ expected (s'.rooms k).game e = expected (s.rooms k).game e)
    (hfs : ∀ m ∈ fs, Chat m) : Keeps s s' a fs where
  name := hname
  origin := by
    intro k e he
    obtain ⟨h1, h2, h3⟩ := hentry k e he
    refine ⟨k, h1, h2, ?_⟩
    rw [h3]
    exact .stay fun m hm => .chat (hfs m hm)
  stale := fun m hm => (hfs m hm).idle.stale
  idle := fun _ m hm => (hfs m hm).idle

theorem entry_congr (hrooms : s'.rooms = s.rooms) (hnb : s'.nbRooms = s.nbRooms) :
    entry s' = entry s := by
  funext k e
  refine if_congr ?_ (by rw [hrooms]) rfl
  rw [live_congr hnb, hrooms]

theorem Keeps.rooms (hname : (s'.clients a).name = (s.clients a).name)
    (hrooms : s'.rooms = s.rooms) (hnb : s'.nbRooms = s.nbRooms)
    (hfs : ∀ m ∈ fs, Chat m) : Keeps s s' a fs := by
  refine .in_place hname ?_ hfs
  intro k e he
  rw [entry_congr hrooms hnb] at he
  rw [hrooms]
  exact ⟨he, rfl, rfl⟩

/-- One room is rewritten, and the frames are for its members. -/
theorem Keeps.setGame (i : Nat) (game : Game)
    (hname : (s'.clients a).name = (s.clients a).name)
    (hrooms : s'.rooms = (AwaleServer.setGame s i game).rooms)
    (hentry : ∀ k e, entry s' k e = some (s.clients a).sock →
      entry s k e = some (s.clients a).sock)
    (hother : ∀ k e, k ≠ i → entry s k e = some (s.clients a).sock → fs = [])
    (hself : ∀ e, entry s' i e = some (s.clients a).sock →
      (game.players e).name = ((s.rooms i).game.players e).name
        ∧ Walk (expected (s.rooms i).game e) fs (expected game e))
    (hstale : ∀ m ∈ fs, Stale m) (hidle : Absent (roster s) a → ∀ m ∈ fs, Idle m) :
    Keeps s s' a fs where
  name := hname
  origin := by
    intro k e he
    refine ⟨k, hentry k e he, ?_⟩
    rw [hrooms]
    by_cases hk : k = i
    · subst hk
      rw [setGame_self]
      exact hself e he
    · rw [setGame_of_ne hk, hother k e hk (hentry k e he)]
      exact ⟨rfl, .nil⟩
  stale := hstale
  idle := hidle

/-- The rooms behind a deleted one move up. -/
theorem entry_deleteRoom {u : Server} (hrooms : ∀ k, k ≠ i → u.rooms k = s.rooms k)
    (hnb : u.nbRooms = s.nbRooms) {k : Nat} (h : entry (deleteRoom u i) k e = some x) :
    entry s (SlotArray.skip i k) e = some x
      ∧ (deleteRoom u i).rooms k = s.rooms (SlotArray.skip i k) := by
  obtain ⟨hlive, hmem, hid⟩ := entry_eq_some.mp h
  obtain ⟨hold, hshift⟩ := live_deleteRoom hlive
  have hroom := hshift.trans (hrooms _ (SlotArray.skip_ne i k))
  rw [hroom] at hmem hid
  exact ⟨entry_eq_some.mpr ⟨(live_congr hnb _).mp hold, hmem, hid⟩, hroom⟩

/-- A room is closed, and the frames are for its members or stop a game. -/
theorem Keeps.deleteRoom {u : Server} (hname : (u.clients a).name = (s.clients a).name)
    (hrooms : ∀ k, k ≠ i → u.rooms k = s.rooms k) (hnb : u.nbRooms = s.nbRooms)
    (hother : ∀ k e, k ≠ i → entry s k e = some (s.clients a).sock → fs = [])
    (hstale : ∀ m ∈ fs, Stale m) (hidle : Absent (roster s) a → ∀ m ∈ fs, Idle m) :
    Keeps s (AwaleServer.deleteRoom u i) a fs where
  name := hname
  origin := by
    intro k e he
    obtain ⟨he', hroom⟩ := entry_deleteRoom hrooms hnb he
    refine ⟨SlotArray.skip i k, he', ?_⟩
    rw [hroom, hother _ e (SlotArray.skip_ne i k) he']
    exact ⟨rfl, .nil⟩
  stale := hstale
  idle := hidle

/-! ### The requests, one by one -/

section Requests

variable {rand roomId : UInt32} {spectate pos : UInt8} {name : CString}

theorem entry_of_roster {r : Roster} (h : roster s' = r) (k e : Nat) :
    entry s' k e = r.entry k e := congrArg (fun r => r.entry k e) h

theorem Orderly.sock_ne (ho : Orderly s) (ha : a < s.nbClients) (hc : c < s.nbClients)
    (hac : a ≠ c) : (s.clients c).sock ≠ (s.clients a).sock :=
  fun h => hac ((ho.distinct c hc).2 a ha h).symm

theorem Orderly.sock_ne_vacant (ho : Orderly s) (ha : a < s.nbClients) :
    (s.clients a).sock ≠ -1 := by
  have hpos : 0 < (s.clients a).sock := (ho.distinct a ha).1
  omega

theorem Orderly.keeps_reseated (ho : Orderly s) (ha : a < s.nbClients) (hc : c < s.nbClients)
    (hac : a ≠ c) (hseat : findSeat s name = some (i, j)) :
    Keeps s (reseated s c name i j) a [] := by
  obtain ⟨hi, hj, -⟩ := findSeat_some hseat
  refine .setGame i (setPlayerId (s.rooms i).game j (s.clients c).sock)
    ?_ rfl ?_ (fun _ _ _ _ => rfl) ?_ (List.forall_mem_nil _) (fun _ => List.forall_mem_nil _)
  · exact congrArg Client.name ((setClient_of_ne hac _).trans (setClient_of_ne hac _))
  · intro k e he
    rw [entry_of_roster (roster_reseated hi hj)] at he
    have he' : (if k = i ∧ e = j then some (s.clients c).sock else entry s k e)
      = some (s.clients a).sock := he
    split at he'
    · exact absurd (Option.some.inj he') (ho.sock_ne ha hc hac)
    · exact he'
  · intro e _
    refine ⟨setPlayerId_name _ j _ e, ?_⟩
    have hsame : expected (setPlayerId (s.rooms i).game j (s.clients c).sock) e
        = expected (s.rooms i).game e := expected_congr rfl rfl e
    rw [hsame]
    exact .nil

theorem Orderly.keeps_created (ho : Orderly s) (ha : a < s.nbClients) (hc : c < s.nbClients)
    (hac : a ≠ c) (h0 : 0 ≤ s.nbRooms) : Keeps s (created s c rand) a [] := by
  refine .in_place ?_ ?_ (List.forall_mem_nil _)
  · exact congrArg Client.name (setClient_of_ne hac _)
  · intro k e he
    rw [entry_of_roster (roster_created h0)] at he
    have he' : (if k = s.nbRooms.toNat ∧ e = 0 then some (s.clients c).sock else entry s k e)
      = some (s.clients a).sock := he
    split at he'
    · exact absurd (Option.some.inj he') (ho.sock_ne ha hc hac)
    · have hlive := (entry_eq_some.mp he').1
      have hk : k ≠ s.nbRooms.toNat := Nat.ne_of_lt (live_iff.mp hlive)
      rw [created_old c rand hk]
      exact ⟨he', rfl, rfl⟩

/-- The entries of a joined room that are not the newcomer's. -/
theorem Orderly.entry_joined (ho : Orderly s) (ha : a < s.nbClients) (hc : c < s.nbClients)
    (hac : a ≠ c) (hfind : findRoom s roomId = some i)
    (hopen : JoinOpen (s.rooms i).game spectate) (game : Game)
    (h1 : game.nbPlayers = (joinedGame s c i spectate).nbPlayers)
    (h2 : game.nbSpectators = (joinedGame s c i spectate).nbSpectators)
    (h3 : game.players = (joinedGame s c i spectate).players) {k : Nat}
    (he : entry (setRoomId (AwaleServer.setGame s i game) c roomId) k e
      = some (s.clients a).sock) :
    entry s k e = some (s.clients a).sock
      ∧ (k = i → e ≠ addIndex (s.rooms i).game (spectate ≠ 0)) := by
  rw [entry_of_roster (roster_joined (findRoom_eq_some.mp hfind).1 hopen h1 h2 h3)] at he
  have he' : (if k = i ∧ e = addIndex (s.rooms i).game (spectate ≠ 0) then
      some (s.clients c).sock else entry s k e) = some (s.clients a).sock := he
  split at he'
  · exact absurd (Option.some.inj he') (ho.sock_ne ha hc hac)
  · rename_i hne
    exact ⟨he', fun hk he => hne ⟨hk, he⟩⟩

theorem Orderly.keeps_joined (ho : Orderly s) (ha : a < s.nbClients) (hc : c < s.nbClients)
    (hac : a ≠ c) (hfind : findRoom s roomId = some i)
    (hopen : JoinOpen (s.rooms i).game spectate) :
    Keeps s (joined s c i roomId spectate) a [] := by
  refine .setGame i (joinedGame s c i spectate) ?_ rfl ?_ (fun _ _ _ _ => rfl) ?_
    (List.forall_mem_nil _) (fun _ => List.forall_mem_nil _)
  · exact congrArg Client.name (setClient_of_ne hac _)
  · intro k e he
    exact (ho.entry_joined ha hc hac hfind hopen _ rfl rfl rfl he).1
  · intro e he
    have hne := (ho.entry_joined ha hc hac hfind hopen _ rfl rfl rfl he).2 rfl
    refine ⟨congrArg Player.name (gameAddPlayer_of_ne hne), ?_⟩
    have hsame : expected (joinedGame s c i spectate) e = expected (s.rooms i).game e :=
      expected_congr rfl rfl e
    rw [hsame]
    exact .nil

/-- A join starts a game when it takes the second seat. -/
theorem Orderly.started_seats (ho : Orderly s) (hi : Live s i)
    (hgo : (joinedGame s c i spectate).nbPlayers ≥ 2
      ∧ (joinedGame s c i spectate).isStarted = false) :
    spectate = 0 ∧ (s.rooms i).game.nbPlayers = 1 ∧ (s.rooms i).game.isStarted = false
      ∧ (s.rooms i).game.turn = 0 := by
  obtain ⟨hsp, hone⟩ := ((ho.sized i).join_starts (ho.founded i hi) _ _).mp hgo
  have hst : (s.rooms i).game.isStarted = false := hgo.2
  exact ⟨hsp, hone, hst, ho.opening i hi hst⟩

/-- A player that joins completes the room, so who does not is a spectator. -/
theorem Orderly.joined_spectates (ho : Orderly s) (hi : Live s i)
    (hopen : JoinOpen (s.rooms i).game spectate)
    (hgo : ¬ ((joinedGame s c i spectate).nbPlayers ≥ 2
      ∧ (joinedGame s c i spectate).isStarted = false)) : spectate ≠ 0 := by
  rintro rfl
  have hlt : ¬ (s.rooms i).game.nbPlayers ≥ 2 := fun hge => hopen.1 (Or.inl ⟨rfl, hge⟩)
  have hpos := ho.founded i hi
  exact hgo (((ho.sized i).join_starts hpos _ _).mpr ⟨rfl, by omega⟩)

theorem Orderly.keeps_started (ho : Orderly s) (ha : a < s.nbClients) (hc : c < s.nbClients)
    (hac : a ≠ c) (hfind : findRoom s roomId = some i)
    (hopen : JoinOpen (s.rooms i).game spectate)
    (hgo : (joinedGame s c i spectate).nbPlayers ≥ 2
      ∧ (joinedGame s c i spectate).isStarted = false) :
    Keeps s (AwaleServer.setGame (joined s c i roomId spectate) i
        { joinedGame s c i spectate with isStarted := true }) a
      (framesTo (s.clients a).sock (gameStarts (joinedGame s c i spectate))) := by
  have hi := (findRoom_eq_some.mp hfind).1
  obtain ⟨rfl, hone, hst, hturn⟩ := ho.started_seats hi hgo
  have hindex : addIndex (s.rooms i).game ((0 : UInt8) ≠ 0) = 1 := hone
  obtain ⟨hplayers, hfirst, hnewcomer⟩ := started_players (s := s) (c := c) hone
  have hsecond : ((joinedGame s c i 0).players 1).id = (s.clients c).sock := by
    rw [hnewcomer]
    rfl
  -- only the first player is told
  have hnone : entry s i 0 ≠ some (s.clients a).sock →
      framesTo (s.clients a).sock (gameStarts (joinedGame s c i 0)) = [] := by
    intro hne
    refine framesTo_gameStarts_none fun k hk => ?_
    rw [hplayers] at hk
    obtain rfl | rfl : k = 0 ∨ k = 1 := by omega
    · rw [hfirst]
      exact fun hid => hne (entry_eq_some.mpr ⟨hi, Or.inl (by omega), hid⟩)
    · rw [hsecond]
      exact ho.sock_ne ha hc hac
  rw [setGame_joined]
  refine .setGame i { joinedGame s c i 0 with isStarted := true } ?_ rfl ?_ ?_ ?_ ?_ ?_
  · exact congrArg Client.name (setClient_of_ne hac _)
  · intro k e he
    exact (ho.entry_joined ha hc hac hfind hopen { joinedGame s c i 0 with isStarted := true }
      rfl rfl rfl he).1
  · -- a client of another room is not the first player of this one
    intro k e hk he
    refine hnone fun h0 => hk ?_
    exact (ho.settled.single a ha k e i 0 he h0).1
  · intro e he
    obtain ⟨he, hne⟩ := ho.entry_joined ha hc hac hfind hopen
      { joinedGame s c i 0 with isStarted := true } rfl rfl rfl he
    have hne1 : e ≠ 1 := hindex ▸ hne rfl
    refine ⟨congrArg Player.name (gameAddPlayer_of_ne (hne rfl)), ?_⟩
    by_cases he0 : e = 0
    · subst he0
      have hid := (entry_eq_some.mp he).2.2
      have hbefore : expected (s.rooms i).game 0 = .inRoom := expected_waiting Nat.zero_lt_two hst
      have hafter : expected { joinedGame s c i 0 with isStarted := true } 0
          = .waitingPlayInput := expected_toMove Nat.zero_lt_two rfl hturn
      rw [framesTo_gameStarts (j := 0) (ho.sock_ne_vacant ha) (by omega) (hfirst ▸ hid),
        hbefore, hafter]
      · exact .single .startFirst
      · intro k hk hid'
        rw [hplayers] at hk
        obtain rfl | rfl : k = 0 ∨ k = 1 := by omega
        · rfl
        · exact absurd (hsecond.symm.trans hid') (ho.sock_ne ha hc hac)
    · have h2 : 2 ≤ e := by omega
      rw [hnone fun h0 => he0 (ho.settled.single a ha i e i 0 he h0).2,
        expected_spectator _ h2, expected_spectator _ h2]
      exact .nil
  · intro m hm
    obtain ⟨k, -, hp⟩ := List.mem_flatMap.mp (mem_framesTo.mp hm)
    obtain ⟨-, heq⟩ := mem_writeClient.mp hp
    rw [(Prod.mk.inj heq).2]
    trivial
  · intro habsent m hm
    rw [hnone (habsent i 0)] at hm
    exact absurd hm List.not_mem_nil

/-! ### A move -/

/-- `handle_play` takes a seated client for the side it sits on. -/
theorem Orderly.sideIn_own (ho : Orderly s) (hc : c < s.nbClients) (he : e < 2)
    (hown : entry s i e = some (s.clients c).sock) : sideIn s c i = e := by
  obtain ⟨hi, -, hid⟩ := entry_eq_some.mp hown
  by_cases h0 : ((s.rooms i).game.players 0).id = (s.clients c).sock
  · have hzero : entry s i 0 = some (s.clients c).sock :=
      entry_eq_some.mpr ⟨hi, Or.inl (ho.founded i hi), h0⟩
    exact (sideIn_zero h0).trans (ho.settled.single c hc i 0 i e hzero hown).2
  · have hne : e ≠ 0 := by
      rintro rfl
      exact h0 hid
    rw [sideIn_one h0]
    omega

/-- The members and their names are those before the move. -/
theorem playIn_frame (s : Server) (c i : Nat) (pos : UInt8) :
    (∀ e, MemberAt (playIn s c i pos).1 e ↔ MemberAt (s.rooms i).game e)
      ∧ (∀ e, SamePerson ((playIn s c i pos).1.players e) ((s.rooms i).game.players e))
      ∧ (playIn s c i pos).1.nbPlayers = (s.rooms i).game.nbPlayers
      ∧ (playIn s c i pos).1.isStarted = (s.rooms i).game.isStarted := by
  obtain ⟨h1, h2, h3, h4⟩ := play_frame s c i pos
  exact ⟨memberAt_congr h1 h2, h4, h1, h3⟩

theorem playIn_turn (h : (playIn s c i pos).2 = .validPlay) :
    (playIn s c i pos).1.turn = if (s.rooms i).game.turn = 0 then 1 else 0 :=
  gamePlay_turn ((gamePlay_result _ _ _ _).symm.trans h)

theorem playIn_rejected (h : (playIn s c i pos).2 ≠ .validPlay) :
    (playIn s c i pos).1 = (s.rooms i).game :=
  congrArg Prod.fst (gamePlay_rejected fun hcheck => h ((gamePlay_result _ _ _ _).trans hcheck))

/-- The frames of a valid move for a member of the room. -/
theorem Orderly.framesTo_valid (ho : Orderly s) (ha : a < s.nbClients)
    (hown : entry s i e = some (s.clients a).sock) (hvalid : (playIn s c i pos).2 = .validPlay) :
    ∃ score score' board, framesTo (s.clients a).sock (replies s c i pos)
      = [.played score score' board] := by
  obtain ⟨hmem, hsame, hn, -⟩ := playIn_frame s c i pos
  obtain ⟨hi, he, hid⟩ := entry_eq_some.mp hown
  rw [replies_valid hvalid]
  refine framesTo_played (ho.sock_ne_vacant ha) (hn ▸ (ho.sized i).seats) ((hmem e).mpr he)
    ((hsame e).1.trans hid) ?_
  intro e' he' hid'
  refine (ho.settled.single a ha i e' i e ?_ hown).2
  exact entry_eq_some.mpr ⟨hi, (hmem e').mp he', (hsame e').1.symm.trans hid'⟩

/-- The answer to a rejected move goes to the mover. -/
theorem Orderly.framesTo_rejected (ho : Orderly s) (hc : c < s.nbClients) (he : e < 2)
    (hown : entry s i e = some (s.clients c).sock)
    (hrejected : (playIn s c i pos).2 ≠ .validPlay) :
    replies s c i pos = writeClient (s.clients c).sock
      (.invalidPlay (invalidPlayText (playIn s c i pos).2)) := by
  have hid : ((playIn s c i pos).1.players e).id = (s.clients c).sock :=
    ((playIn_frame s c i pos).2.1 e).1.trans (entry_eq_some.mp hown).2.2
  rw [replies_rejected hrejected, ho.sideIn_own hc he hown, hid]

/-- Nobody outside the room hears of a move. -/
theorem Orderly.framesTo_replies_none (ho : Orderly s) (ha : a < s.nbClients)
    (hc : c < s.nbClients) (hac : a ≠ c) (he : e < 2)
    (hown : entry s i e = some (s.clients c).sock)
    (hout : ∀ e', entry s i e' ≠ some (s.clients a).sock) :
    framesTo (s.clients a).sock (replies s c i pos) = [] := by
  obtain ⟨hmem, hsame, -, -⟩ := playIn_frame s c i pos
  have hi := (entry_eq_some.mp hown).1
  by_cases hvalid : (playIn s c i pos).2 = .validPlay
  · rw [replies_valid hvalid]
    refine framesTo_played_none fun e' he' hid => hout e' ?_
    exact entry_eq_some.mpr ⟨hi, (hmem e').mp he', (hsame e').1.symm.trans hid⟩
  · rw [ho.framesTo_rejected hc he hown hvalid]
    exact framesTo_other (ho.sock_ne ha hc hac) _

theorem stale_replies {p : Sent} (hp : p ∈ replies s c i pos) : Stale p.2 := by
  by_cases hvalid : (playIn s c i pos).2 = .validPlay
  · rw [replies_valid hvalid] at hp
    obtain ⟨_, _, _, _, -, -, heq⟩ := mem_playedFrames hp
    rw [heq]
    trivial
  · rw [replies_rejected hvalid] at hp
    rw [(mem_writeClient.mp hp).2]
    trivial

/-- **A MOVE PASSES THE TURN**: the seat that waited is told, and so are the spectators. -/
theorem Orderly.keeps_played (ho : Orderly s) (ha : a < s.nbClients) (hc : c < s.nbClients)
    (hac : a ≠ c) (hown : entry s i e = some (s.clients c).sock)
    (hturn : expected (s.rooms i).game e = .waitingPlayInput) :
    Keeps s (AwaleServer.setGame s i (playIn s c i pos).1) a
      (framesTo (s.clients a).sock (replies s c i pos)) := by
  obtain ⟨he, hst, ht⟩ := expected_eq_waitingPlayInput hturn
  obtain ⟨-, hsame, -, hstarted⟩ := playIn_frame s c i pos
  have hentry : ∀ k e', entry (AwaleServer.setGame s i (playIn s c i pos).1) k e'
      = entry s k e' := fun k e' => entry_of_roster (roster_played s c i pos) k e'
  refine .setGame i (playIn s c i pos).1 rfl rfl ?_ ?_ ?_ ?_ ?_
  · intro k e' he'
    rw [hentry] at he'
    exact he'
  · intro k e' hk he'
    refine ho.framesTo_replies_none ha hc hac he hown fun e₁ he₁ => hk ?_
    exact (ho.settled.single a ha k e' i e₁ he' he₁).1
  · intro e' he'
    rw [hentry] at he'
    refine ⟨(hsame e').2.1, ?_⟩
    by_cases hvalid : (playIn s c i pos).2 = .validPlay
    · obtain ⟨score, score', board, hfs⟩ := ho.framesTo_valid ha he' hvalid
      rw [hfs]
      by_cases h2 : 2 ≤ e'
      · rw [expected_spectator _ h2, expected_spectator _ h2]
        exact .single .shown
      · have hne : e' ≠ e := by
          rintro rfl
          exact hac (ho.distinct a ha |>.2 c hc (Option.some.inj (he'.symm.trans hown)))
        have hturn' := playIn_turn hvalid
        rw [expected_toWait (by omega) hst (by omega),
          expected_toMove (by omega) (hstarted.trans hst) (by split at hturn' <;> omega)]
        exact .single .yourTurn
    · rw [ho.framesTo_rejected hc he hown hvalid, framesTo_other (ho.sock_ne ha hc hac),
        playIn_rejected hvalid]
      exact .nil
  · intro m hm
    exact stale_replies (mem_framesTo.mp hm)
  · intro habsent m hm
    rw [ho.framesTo_replies_none ha hc hac he hown (habsent i)] at hm
    exact absurd hm List.not_mem_nil

/-! ### The end of a room -/

/-- The frames of a move that ends the game. -/
def lastFrames (s : Server) (c i : Nat) (pos : UInt8) : List Sent :=
  replies s c i pos
    ++ writeClient ((playIn s c i pos).1.players 0).id
      (.gameStopped (gameIsEnded (playIn s c i pos).1 = .draw)
        (winnerName (playIn s c i pos).1 (gameIsEnded (playIn s c i pos).1)))
    ++ writeClient ((playIn s c i pos).1.players 1).id
      (.gameStopped (gameIsEnded (playIn s c i pos).1 = .draw)
        (winnerName (playIn s c i pos).1 (gameIsEnded (playIn s c i pos).1)))

theorem stale_lastFrames {p : Sent} (hp : p ∈ lastFrames s c i pos) : Stale p.2 := by
  rcases List.mem_append.mp hp with hp | hp
  · rcases List.mem_append.mp hp with hp | hp
    · exact stale_replies hp
    · rw [(mem_writeClient.mp hp).2]
      trivial
  · rw [(mem_writeClient.mp hp).2]
    trivial

theorem Orderly.keeps_playedLast (ho : Orderly s) (ha : a < s.nbClients) (hc : c < s.nbClients)
    (hac : a ≠ c) (hown : entry s i e = some (s.clients c).sock)
    (hturn : expected (s.rooms i).game e = .waitingPlayInput) :
    Keeps s (AwaleServer.deleteRoom (AwaleServer.setGame s i (playIn s c i pos).1) i) a
      (framesTo (s.clients a).sock (lastFrames s c i pos)) := by
  obtain ⟨he, hst, -⟩ := expected_eq_waitingPlayInput hturn
  obtain ⟨-, hsame, -, -⟩ := playIn_frame s c i pos
  have hi := (entry_eq_some.mp hown).1
  have htwo : (s.rooms i).game.nbPlayers = 2 := (ho.sized i).started.mp hst
  -- both players are members, so nobody outside the room hears of its end
  have hnone : (∀ e', entry s i e' ≠ some (s.clients a).sock) →
      framesTo (s.clients a).sock (lastFrames s c i pos) = [] := by
    intro hout
    have hseat : ∀ k < 2, ((playIn s c i pos).1.players k).id ≠ (s.clients a).sock := by
      intro k hk hid
      exact hout k (entry_eq_some.mpr ⟨hi, Or.inl (by omega), (hsame k).1.symm.trans hid⟩)
    rw [lastFrames, framesTo_append, framesTo_append,
      ho.framesTo_replies_none ha hc hac he hown hout,
      framesTo_other (hseat 0 Nat.zero_lt_two), framesTo_other (hseat 1 Nat.one_lt_two)]
    rfl
  refine .deleteRoom (u := AwaleServer.setGame s i (playIn s c i pos).1) rfl
    (fun k hk => setGame_of_ne hk _) rfl ?_ ?_ ?_
  · intro k e' hk he'
    exact hnone fun e₁ he₁ => hk (ho.settled.single a ha k e' i e₁ he' he₁).1
  · intro m hm
    exact stale_lastFrames (mem_framesTo.mp hm)
  · intro habsent m hm
    rw [hnone (habsent i)] at hm
    exact absurd hm List.not_mem_nil

/-- The loop of `handle_leave_room` stops the game of its room's members only.  With one player
    it also writes to entry `1`, a seat nobody has taken yet. -/
def StopsOnly (s : Server) (i : Nat) : Prop :=
  (s.rooms i).game.nbPlayers = 1 → (s.rooms i).game.nbSpectators = 0
    ∨ ((s.rooms i).game.players 1).id = -1
    ∨ InOnly s ((s.rooms i).game.players 1).id fun k _ => k = i

instance (s : Server) (i : Nat) : Decidable (StopsOnly s i) :=
  inferInstanceAs (Decidable (_ → _ ∨ _ ∨ InOnly s _ fun k _ => k = i))

theorem idle_leaveFrames {p : Sent} (hp : p ∈ leaveFrames game j) : Idle p.2 := by
  obtain ⟨_, _, _, _, _, heq⟩ := mem_leaveFrames hp
  rw [heq]
  trivial

theorem Orderly.keeps_closed (ho : Orderly s) (ha : a < s.nbClients) (hac : a ≠ c)
    (hi : Live s i) (hstops : StopsOnly s i) :
    Keeps s (AwaleServer.deleteRoom (setRoomId s c 0) i) a
      (framesTo (s.clients a).sock (leaveFrames (s.rooms i).game j)) := by
  refine .deleteRoom (u := setRoomId s c 0) ?_ (fun _ _ => rfl) rfl ?_ ?_ ?_
  · exact congrArg Client.name (setClient_of_ne hac _)
  · intro k e' hk he'
    refine framesTo_none fun p hp hpa => hk ?_
    obtain ⟨k₀, hk₀, -, hid, hne, -⟩ := mem_leaveFrames hp
    rw [hpa] at hid hne
    by_cases hmem : MemberAt (s.rooms i).game k₀
    · have hin := entry_eq_some.mpr ⟨hi, hmem, hid⟩
      exact (ho.settled.single a ha k e' i k₀ he' hin).1
    · have hpos := ho.founded i hi
      have hseats := (ho.sized i).seats
      simp only [MemberAt] at hmem
      have hone : k₀ = 1 := by omega
      subst hone
      rcases hstops (by omega) with hzero | hneg | honly
      · omega
      · exact absurd (hid.symm.trans hneg) hne
      · rw [hid] at honly
        exact inOnly_iff.mp honly k e' he'
  · intro m hm
    exact (idle_leaveFrames (mem_framesTo.mp hm)).stale
  · intro _ m hm
    exact idle_leaveFrames (mem_framesTo.mp hm)

/-! ### A spectator leaves -/

/-- The last spectator leaves and its entry goes. -/
theorem roster_unwatched (hi : Live s i) (hseats : (s.rooms i).game.nbPlayers ≤ 2)
    (hlast : j + 1 = (s.rooms i).game.nbSpectators) :
    roster (AwaleServer.setGame (setRoomId s c 0) i (removeSpectator (s.rooms i).game j))
      = ((roster s).enter c 0).put i (j + 2) none := by
  have hroster := roster_removeSpectator (s := setRoomId s c 0) (j := j) hi hseats
    (show j < (s.rooms i).game.nbSpectators by omega)
  rw [roster_setRoomId] at hroster
  refine hroster.trans ?_
  show (((roster s).enter c 0).put i (j + 2) _).put i ((s.rooms i).game.nbSpectators + 1) none = _
  rw [← hlast, Roster.put_put]

/-- An entry that is cleared was the one of another client. -/
theorem Keeps.cleared (hname : (s'.clients a).name = (s.clients a).name)
    (hrooms : s'.rooms = (AwaleServer.setGame s i (removeSpectator (s.rooms i).game j)).rooms)
    (hentry : ∀ k e, entry s' k e = if k = i ∧ e = j + 2 then none else entry s k e) :
    Keeps s s' a [] := by
  refine .setGame i (removeSpectator (s.rooms i).game j) hname hrooms ?_ (fun _ _ _ _ => rfl) ?_
    (List.forall_mem_nil _) (fun _ => List.forall_mem_nil _)
  · intro k e he
    rw [hentry] at he
    split at he
    · cases he
    · exact he
  · intro e he
    rw [hentry] at he
    split at he
    · cases he
    · rename_i hne
      have he2 : e ≠ j + 2 := fun h => hne ⟨rfl, h⟩
      refine ⟨congrArg Player.name (removeSpectator_of_ne he2), ?_⟩
      have hsame : expected (removeSpectator (s.rooms i).game j) e = expected (s.rooms i).game e :=
        expected_congr rfl rfl e
      rw [hsame]
      exact .nil

theorem Orderly.keeps_unwatched (ho : Orderly s) (hac : a ≠ c) (hi : Live s i)
    (hlast : j + 1 = (s.rooms i).game.nbSpectators) :
    Keeps s (AwaleServer.setGame (setRoomId s c 0) i (removeSpectator (s.rooms i).game j)) a [] :=
  .cleared (congrArg Client.name (setClient_of_ne hac _)) rfl fun k e =>
    entry_of_roster (roster_unwatched hi (ho.sized i).seats hlast) k e

/-- The slot behind the last room is nobody's. -/
theorem keeps_unwatched_dead (hac : a ≠ c) (hi : ¬ Live s i) :
    Keeps s (AwaleServer.setGame (setRoomId s c 0) i
      (removeSpectator (s.rooms i).game j)) a [] := by
  refine .in_place (congrArg Client.name (setClient_of_ne hac _)) ?_ (List.forall_mem_nil _)
  intro k e he
  have hdead : ¬ Live (setRoomId s c 0) i := hi
  rw [entry_of_roster ((roster_setGame_dead hdead).trans (roster_setRoomId s c 0))] at he
  have hk : k ≠ i := by
    rintro rfl
    exact hi (entry_eq_some.mp he).1
  rw [setGame_of_ne hk]
  exact ⟨he, rfl, rfl⟩

/-! ### A client disconnects -/

theorem Orderly.keeps_detached (ho : Orderly s) (ha : a < s.nbClients) {s₁ : Server}
    (h : Detached s c s₁) : Keeps s s₁ a [] := by
  cases h with
  | @seat i j hseat =>
      obtain ⟨hlt, -, hp, -⟩ := hseat
      have hj := (findPlayer_eq_some.mp hp).1
      have hi : Live s i := live_iff.mpr hlt
      refine .setGame i (setPlayerId (s.rooms i).game j (-1)) rfl rfl ?_ (fun _ _ _ _ => rfl) ?_
        (List.forall_mem_nil _) (fun _ => List.forall_mem_nil _)
      · intro k e he
        rw [entry_of_roster (roster_setPlayerId hi (Or.inl hj))] at he
        have he' : (if k = i ∧ e = j then some (-1) else entry s k e)
          = some (s.clients a).sock := he
        split at he'
        · exact absurd (Option.some.inj he').symm (ho.sock_ne_vacant ha)
        · exact he'
      · intro e _
        refine ⟨setPlayerId_name _ j _ e, ?_⟩
        have hsame : expected (setPlayerId (s.rooms i).game j (-1)) e
            = expected (s.rooms i).game e := expected_congr rfl rfl e
        rw [hsame]
        exact .nil
  | @spectator i j hno hhit hlast =>
      have hi : Live s i := live_iff.mpr hhit.1
      refine .cleared rfl rfl fun k e => entry_of_roster (r := (roster s).put i (j + 2) none) ?_ k e
      rw [roster_removeSpectator hi (ho.sized i).seats hhit.2.2.2.1, ← hlast, Roster.put_put]
  | absent _ _ => exact .rooms rfl rfl rfl (List.forall_mem_nil _)

end Requests

end AwaleStanding
