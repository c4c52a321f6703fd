import AwaleOnline.AwaleEffectProofs

/-!
# The bounds of the tables

Four counters guard the tables of the server, and not every increment and decrement is
checked.  What holds anyway, and what has to be asked of a run for the rest to hold:

* **`sized_reachable`** — in every reachable state every slot of `rooms`, in use or not, has
  at most two seats taken, room for its spectators, and is started exactly when both seats
  are taken;
* **`tables_bounded`** — under `tableGuard` the counters stay in range and no handler uses an
  index past the end of a table;
* **`leave_without_room`** — a LEAVE_ROOM from a client of no live room works on the slot
  behind the last room; it is harmless exactly when that slot exists and does not list the
  client as a player, and in a run of such requests `nb_rooms` stays non-negative.
-/

namespace AwaleBounds

open AwaleGame AwaleProtocol AwaleServer AwaleEffect

variable {s : Server} {c : Nat} {rand : UInt32} {g : Guard}

/-! ## What every slot satisfies -/

/-- The counts of a slot of `rooms`, and the indices its entries carry. -/
structure Sized (game : Game) : Prop where
  seats : game.nbPlayers ≤ 2
  spectators : 2 + game.nbSpectators ≤ maxGamePlayers
  started : game.isStarted = true ↔ game.nbPlayers = 2
  clients : ∀ e, (game.players e).clientIndex < maxClients

private theorem update_clients {game : Game} {e : Nat} {player : Player}
    (h : ∀ e, (game.players e).clientIndex < maxClients)
    (hp : player.clientIndex < maxClients) (k : Nat) :
    (Function.update game.players e player k).clientIndex < maxClients := by
  by_cases hk : k = e
  · rw [hk, Function.update_self]
    exact hp
  · rw [Function.update_of_ne hk]
    exact h k

/-- A join never exceeds the seats or the spectator entries: each mode tests the counter it
    increments, one of them through the index it writes. -/
theorem added_counts {game : Game} (h : Sized game) (player : Player) {spectate : UInt8}
    (hopen : JoinOpen game spectate) :
    let game' := gameAddPlayer game player (spectate ≠ 0)
    game'.nbPlayers ≤ 2 ∧ 2 + game'.nbSpectators ≤ maxGamePlayers := by
  intro game'
  obtain ⟨hfull, hidx⟩ := hopen
  have hseats := h.seats
  have hspec := h.spectators
  by_cases hsp : spectate = 0
  · have h1 : game'.nbPlayers = game.nbPlayers + 1 := by simp [game', gameAddPlayer, hsp]
    have h2 : game'.nbSpectators = game.nbSpectators := by simp [game', gameAddPlayer, hsp]
    have hlt : ¬ game.nbPlayers ≥ 2 := fun hge => hfull (Or.inl ⟨hsp, hge⟩)
    omega
  · have h1 : game'.nbPlayers = game.nbPlayers := by simp [game', gameAddPlayer, hsp]
    have h2 : game'.nbSpectators = game.nbSpectators + 1 := by
      simp [game', gameAddPlayer, hsp]
    have h3 : addIndex game (spectate ≠ 0) = 2 + game.nbSpectators := by
      simp [addIndex, hsp]
    omega

theorem sized_slotRule : SlotRule Sized where
  zero := ⟨by decide, by decide, by decide, fun _ => Nat.zero_lt_succ 99⟩
  create := by
    intro game player h hc
    refine ⟨Nat.le_succ 1, Nat.le_add_right 2 1022, ?_, update_clients h.clients hc⟩
    constructor
    · intro hst
      exact nomatch hst
    · intro htwo
      exact nomatch htwo
  setId := by
    intro game j id h
    exact ⟨h.seats, h.spectators, h.started, update_clients h.clients (h.clients j)⟩
  join := by
    intro game player spectate h hc hopen game' hgo
    obtain ⟨h1, h2⟩ := added_counts h player hopen
    refine ⟨h1, h2, ?_, update_clients h.clients hc⟩
    constructor
    · intro hst
      -- the room was started before, so both seats are taken and the join is a spectator's
      have htwo : game.nbPlayers = 2 := h.started.mp hst
      have hge : game.nbPlayers ≤ game'.nbPlayers := by
        show game.nbPlayers ≤ if (spectate ≠ 0 : Bool) then _ else _
        split <;> omega
      have hle : game'.nbPlayers ≤ 2 := h1
      omega
    · intro htwo
      have hne : game'.isStarted ≠ false := fun hf => hgo ⟨by omega, hf⟩
      simpa using hne
  start := by
    intro game player spectate h hc hopen game' hgo
    obtain ⟨h1, h2⟩ := added_counts h player hopen
    refine ⟨h1, h2, ?_, update_clients h.clients hc⟩
    constructor
    · intro _
      exact Nat.le_antisymm h1 hgo.1
    · intro _
      rfl
  play := by
    intro game pos side h
    obtain ⟨h1, h2, h3, h4⟩ := gamePlay_frame machine game pos side
    refine ⟨h1 ▸ h.seats, h2 ▸ h.spectators, ?_, ?_⟩
    · rw [h1, h3]
      exact h.started
    · intro e
      rw [(h4 e).2.2]
      exact h.clients e
  unwatch := by
    intro game j h _
    have hspec := h.spectators
    refine ⟨h.seats, ?_, h.started, update_clients h.clients (h.clients _)⟩
    show 2 + (game.nbSpectators - 1) ≤ maxGamePlayers
    omega

/-- **EVERY SLOT IS SIZED**, in every reachable state. -/
theorem sized_reachable (h : Reachable g.meets s) (k : Nat) : Sized (s.rooms k).game :=
  sized_slotRule.reachable h k

theorem Sized.leaveBounds {game : Game} (h : Sized game) : LeaveBounds game := by
  have hseats := h.seats
  have hspec := h.spectators
  exact ⟨by omega, hspec⟩

/-- A join that is let through starts the game exactly when it takes the second seat. -/
theorem Sized.join_starts {game : Game} (h : Sized game) (hpos : 0 < game.nbPlayers)
    (player : Player) (spectate : UInt8) :
    let game' := gameAddPlayer game player (spectate ≠ 0)
    (game'.nbPlayers ≥ 2 ∧ game'.isStarted = false)
      ↔ spectate = 0 ∧ game.nbPlayers = 1 := by
  intro game'
  have hst : game'.isStarted = game.isStarted := rfl
  have hfalse : game.isStarted = false ↔ game.nbPlayers ≠ 2 := by
    rw [← Bool.not_eq_true, h.started]
  have hseats := h.seats
  rw [hst, hfalse]
  -- only a player counts in `nb_players`
  by_cases hsp : spectate = 0
  · have hn : game'.nbPlayers = game.nbPlayers + 1 := by simp [game', gameAddPlayer, hsp]
    constructor
    · intro hgo
      exact ⟨hsp, by omega⟩
    · intro hone
      omega
  · have hn : game'.nbPlayers = game.nbPlayers := by simp [game', gameAddPlayer, hsp]
    constructor
    · intro hgo
      omega
    · rintro ⟨hzero, -⟩
      exact absurd hzero hsp

/-! ## The number of rooms -/

/-- A room is only added where the table has a slot for it. -/
theorem nbRooms_le (h : Reachable g.meets s) : s.nbRooms ≤ maxRooms := by
  refine Guard.invariant (I := fun s => s.nbRooms ≤ maxRooms) ?_ ?_ ?_ ?_ ?_ h
  · intro b
    exact Int.natCast_nonneg maxRooms
  · intro t b ht
    exact ht
  · intro t csock ht _ _ _ _
    exact ht
  · intro t c rand q t' out ht _ _ heff
    have hdown : t.nbRooms - 1 ≤ maxRooms := by omega
    cases heff with
    | created _ hlt => exact hlt
    | playedLast _ _ => exact hdown
    | closed _ _ _ _ => exact hdown
    | _ => exact ht
  · intro t c t₁ ht _ _ hd
    show t₁.nbRooms ≤ maxRooms
    rw [(disconnectUser_frame hd).2.2]
    exact ht

/-- Every handler that removes a room found one first, unless it is a LEAVE_ROOM that works
    on slot `0` of an empty table. -/
theorem nbRooms_range
    (hg : ∀ s c rand, g.request s c rand .leaveRoom → s.nbRooms = 0 →
      findPlayer (s.rooms 0).game (s.clients c).sock = none)
    (h : Reachable g.meets s) : 0 ≤ s.nbRooms ∧ s.nbRooms ≤ maxRooms := by
  refine ⟨?_, nbRooms_le h⟩
  refine Guard.invariant (I := fun s => 0 ≤ s.nbRooms) ?_ ?_ ?_ ?_ ?_ h
  · intro b
    exact Int.le_refl 0
  · intro t b ht
    exact ht
  · intro t csock ht _ _ _ _
    exact ht
  · intro t c rand q t' out ht _ hreq heff
    cases heff with
    | created h0 _ =>
        show 0 ≤ t.nbRooms + 1
        omega
    | playedLast hfind _ =>
        -- a room was found, so there is one to remove
        have hlive : (_ : Int) < t.nbRooms := (findRoom_eq_some.mp hfind).1
        show 0 ≤ t.nbRooms - 1
        omega
    | @closed i j hi _ _ hp =>
        show 0 ≤ t.nbRooms - 1
        rcases targetRoom_cases t (t.clients c).roomId with hfind | ⟨-, htarget⟩
        · have hlive : (_ : Int) < t.nbRooms := (findRoom_eq_some.mp hfind).1
          omega
        · -- the slot behind the last room: the guard speaks of the empty table
          rcases Int.lt_or_eq_of_le ht with hpos | hzero
          · omega
          · have hi0 : 0 = i := by
              rw [← hi, htarget, ← hzero]
              rfl
            have hnone := hg t c rand hreq hzero.symm
            rw [hi0, hp] at hnone
            exact nomatch hnone
    | _ => exact ht
  · intro t c t₁ ht _ _ hd
    show 0 ≤ t₁.nbRooms
    rw [(disconnectUser_frame hd).2.2]
    exact ht

/-! ## The indices the handlers use -/

/-- No table was indexed past its end. -/
def InBounds {α : Type} (r : Except Fault α) : Prop := ∀ table i, r ≠ .error (.index table i)

theorem inBounds_ok {α : Type} (a : α) : InBounds (.ok a : Except Fault α) :=
  fun _ _ h => nomatch h

theorem inBounds_buffer {α : Type} : InBounds (.error .buffer : Except Fault α) :=
  fun _ _ h => nomatch h

theorem joinRoomFrame_inBounds {game : Game} (hseats : game.nbPlayers ≤ 2)
    (hspec : 2 + game.nbSpectators ≤ maxGamePlayers)
    (hclients : ∀ e, (game.players e).clientIndex < maxClients) :
    InBounds (joinRoomFrame s game) := by
  have hany : ¬ (List.range game.nbPlayers).any
      (fun j => decide ((game.players j).clientIndex ≥ maxClients)) = true := by
    intro h
    obtain ⟨j, -, hj⟩ := List.any_eq_true.mp h
    have hlt := hclients j
    have hge := of_decide_eq_true hj
    omega
  unfold joinRoomFrame
  rw [if_neg (by omega), if_neg (by omega), if_neg hany]
  show InBounds (if _ then _ else _)
  split
  · exact inBounds_buffer
  · exact inBounds_ok _

theorem handleConnect_inBounds (hsized : ∀ k, Sized (s.rooms k).game) (name : CString) :
    InBounds (handleConnect s c name) := by
  simp only [handleConnect]
  split
  · exact inBounds_ok _
  · split
    · rename_i i j hseat
      have hsized' := sized_slotRule.setId _ j (s.clients c).sock (hsized i)
      split
      · split
        · rename_i f hf
          intro table k heq
          cases heq
          exact joinRoomFrame_inBounds hsized'.seats hsized'.spectators hsized'.clients
            table k hf
        · exact inBounds_ok _
      · split
        · exact inBounds_ok _
        · exact inBounds_ok _
    · exact inBounds_ok _

theorem handleJoinRoom_inBounds (hsized : ∀ k, Sized (s.rooms k).game)
    (hc : c < maxClients) {roomId : UInt32} {spectate : UInt8}
    (hroom : ∀ i ∈ findRoom s roomId, spectate ≠ 0 →
      2 + (s.rooms i).game.nbSpectators < maxGamePlayers) :
    InBounds (handleJoinRoom s c roomId spectate) := by
  simp only [handleJoinRoom]
  split
  · exact inBounds_ok _
  · rename_i i hfind
    split
    · exact inBounds_ok _
    · rename_i hfull
      have hidx : addIndex (s.rooms i).game (spectate ≠ 0) < maxGamePlayers := by
        by_cases hsp : spectate = 0
        · have hlt : ¬ (s.rooms i).game.nbPlayers ≥ 2 := fun h => hfull (Or.inl ⟨hsp, h⟩)
          have hmax : maxGamePlayers = 1024 := rfl
          simp only [addIndex, hsp, ne_eq, not_true_eq_false, decide_false]
          show (s.rooms i).game.nbPlayers < maxGamePlayers
          omega
        · simp only [addIndex, hsp, ne_eq, not_false_eq_true, decide_true, if_true]
          exact hroom i hfind hsp
      obtain ⟨h1, h2⟩ := added_counts (hsized i) (newPlayer s c) ⟨hfull, hidx⟩
      split
      · omega
      · split
        · rename_i f hf
          intro table k heq
          cases heq
          exact joinRoomFrame_inBounds h1 h2 (update_clients (hsized i).clients hc)
            table k hf
        · split
          · exact inBounds_ok _
          · exact inBounds_ok _

theorem handlePlay_inBounds (pos : UInt8) : InBounds (handlePlay s c pos) := by
  simp only [handlePlay]
  split
  · exact inBounds_ok _
  · split
    · split
      · exact inBounds_buffer
      · exact inBounds_ok _
    · exact inBounds_ok _

/-- A request that works on an existing slot stays inside `players`. -/
theorem targetRoom_lt (hnb : 0 ≤ s.nbRooms ∧ s.nbRooms ≤ maxRooms) {roomId : UInt32}
    (hroom : findRoom s roomId = none → s.nbRooms < maxRooms) :
    targetRoom s roomId < maxRooms := by
  rcases targetRoom_cases s roomId with hfind | ⟨hnone, htarget⟩
  · have hlive : (targetRoom s roomId : Int) < s.nbRooms := (findRoom_eq_some.mp hfind).1
    omega
  · have hlt := hroom hnone
    omega

theorem handleSendMessage_inBounds (hsized : ∀ k, Sized (s.rooms k).game)
    (hlt : targetRoom s (s.clients c).roomId < maxRooms) (message : CString) :
    InBounds (handleSendMessage s c message) := by
  have h1 := (hsized (targetRoom s (s.clients c).roomId)).seats
  have h2 := (hsized (targetRoom s (s.clients c).roomId)).spectators
  have hmax : maxGamePlayers = 1024 := rfl
  simp only [handleSendMessage]
  split
  · exact inBounds_buffer
  · rw [if_neg (by omega), if_neg (by omega)]
    exact inBounds_ok _

/-! ## The table bounds -/

/-- What a run has to respect for the tables to be large enough: an `accept` finds a free
    entry of `clients`, a CREATE_ROOM a free slot of `rooms`, a spectator a free entry of
    `players`; a LEAVE_ROOM or SEND_MESSAGE from a client of no live room finds a slot behind
    the last room; and a LEAVE_ROOM does not close slot `0` of an empty table. -/
def tableGuard : Guard where
  accept s _ := s.nbClients < maxClients
  request s c _ q :=
    match q with
    | .createRoom => s.nbRooms < maxRooms
    | .joinRoom roomId spectate => ∀ i ∈ findRoom s roomId, spectate ≠ 0 →
        2 + (s.rooms i).game.nbSpectators < maxGamePlayers
    | .leaveRoom => findRoom s (s.clients c).roomId = none →
        s.nbRooms < maxRooms ∧ (s.nbRooms = 0 →
          findPlayer (s.rooms 0).game (s.clients c).sock = none)
    | .sendMessage _ => findRoom s (s.clients c).roomId = none → s.nbRooms < maxRooms
    | _ => True
  disconnect _ _ := True

instance (s : Server) (csock : Int) : Decidable (tableGuard.accept s csock) :=
  inferInstanceAs (Decidable (_ < _))

instance (s : Server) (c : Nat) (rand : UInt32) (q : Request) :
    Decidable (tableGuard.request s c rand q) := by
  refine q.casesOn ?_ ?_ ?_ ?_ ?_ ?_ ?_ <;> intros <;> dsimp only [tableGuard] <;> infer_instance

instance (s : Server) (c : Nat) : Decidable (tableGuard.disconnect s c) :=
  inferInstanceAs (Decidable True)

/-- The counters are in range and so is every index of the next event, unless that event is a
    disconnection, whose spectator loop has an index of its own. -/
structure TablesBounded (s : Server) : Prop where
  nbClients_le : s.nbClients ≤ maxClients
  nbRooms_nonneg : 0 ≤ s.nbRooms
  nbRooms_le : s.nbRooms ≤ maxRooms
  nbPlayers_le : ∀ i, Live s i → (s.rooms i).game.nbPlayers ≤ 2
  nbSpectators_le : ∀ i, Live s i → 2 + (s.rooms i).game.nbSpectators ≤ maxGamePlayers
  indices : ∀ e, Possible s e → tableGuard.meets s e → (∀ c, e ≠ .disconnect c) →
    InBounds (step s e)

theorem handleRequest_inBounds (hsized : ∀ k, Sized (s.rooms k).game)
    (hn : s.nbClients ≤ maxClients) (hnb : 0 ≤ s.nbRooms ∧ s.nbRooms ≤ maxRooms)
    (hc : c < s.nbClients) {q : Request} (hq : tableGuard.request s c rand q) :
    InBounds (handleRequest s c rand q) := by
  cases q with
  | connect name => exact handleConnect_inBounds hsized name
  | createRoom =>
      show InBounds (handleCreateRoom s c rand)
      simp only [handleCreateRoom]
      rw [if_pos ⟨hnb.1, hq⟩]
      exact inBounds_ok _
  | joinRoom roomId spectate =>
      exact handleJoinRoom_inBounds hsized (Nat.lt_of_lt_of_le hc hn) hq
  | play pos => exact handlePlay_inBounds pos
  | leaveRoom =>
      show InBounds (handleLeaveRoom s c)
      rw [handleLeaveRoom_eq rfl (targetRoom_lt hnb fun h => (hq h).1)
        (hsized _).leaveBounds]
      exact inBounds_ok _
  | sendMessage message => exact handleSendMessage_inBounds hsized (targetRoom_lt hnb hq) message
  | setBiography biography => exact inBounds_ok _

/-- **TABLE BOUNDS.**  In every state reached by events that respect the capacities. -/
theorem tables_bounded (h : Reachable tableGuard.meets s) : TablesBounded s := by
  have hsized := sized_reachable h
  have hn := AwaleEffect.nbClients_le h
  have hnb : 0 ≤ s.nbRooms ∧ s.nbRooms ≤ maxRooms := by
    refine nbRooms_range ?_ h
    intro t c rand hreq hzero
    refine (hreq ?_).2 hzero
    rw [findRoom_eq_none]
    exact fun i hi => absurd hi (not_live_of_le (Int.le_of_eq hzero) i)
  refine ⟨hn, hnb.1, hnb.2, fun i _ => (hsized i).seats, fun i _ => (hsized i).spectators, ?_⟩
  intro e hp hm hd
  cases e with
  | accept csock =>
      have hlt : s.nbClients < maxClients := hm
      show InBounds (acceptClient s csock)
      rw [acceptClient, if_pos hlt]
      exact inBounds_ok _
  | frame c body rand =>
      show InBounds (readFrame s c body rand)
      simp only [readFrame]
      split
      · exact inBounds_buffer
      · split
        · rename_i q hq
          have hm' : tableGuard.request (received s body) c rand q := Guard.meets_frame.mp hm q hq
          exact handleRequest_inBounds (s := received s body) hsized hn hnb hp.1 hm'
        · exact inBounds_ok _
  | disconnect c => exact absurd rfl (hd c)

/-- Two clients connect, the first creates a room, the second joins it, both leave. -/
def twoLeavers : List Event :=
  [.accept 4, .accept 5, .frame 0 Request.createRoom.body 7,
    .frame 1 (Request.joinRoom 7 0).body 0, .frame 0 Request.leaveRoom.body 0,
    .frame 1 Request.leaveRoom.body 0]

/-- The bounds hold up to and including the first LEAVE_ROOM of `twoLeavers`. -/
theorem tables_bounded_first_leaver :
    ∃ s, (s.nbClients, s.nbRooms) = (2, 0) ∧ TablesBounded s := by
  obtain ⟨s, hs, hf⟩ := Guard.reaches (g := tableGuard)
    (f := fun s => (s.nbClients, s.nbRooms))
    (b := (2, 0)) (twoLeavers.take 5)
    (by decide +kernel) (by decide +kernel)
  exact ⟨s, hf, tables_bounded hs⟩

/-- The second LEAVE_ROOM takes `nb_rooms` below zero. -/
theorem nbRooms_negative : ¬ ∀ s, Reachable Guard.any.meets s → 0 ≤ s.nbRooms := by
  intro h
  obtain ⟨s, hs, hf⟩ := Guard.reaches (g := Guard.any)
    (f := fun s => s.nbRooms)
    (b := -1) twoLeavers
    (by decide +kernel) (by decide +kernel)
  have hneg : s.nbRooms = -1 := hf
  have hnonneg := h s hs
  omega

/-! ## LEAVE_ROOM from a client of no live room -/

/-- `handle_leave_room` sends nothing and changes at most the sender's room id among the
    clients and the live rooms. -/
def Harmless (s : Server) (c : Nat) : Prop :=
  ∃ s', handleLeaveRoom s c = .ok (s', [])
    ∧ s'.nbRooms = s.nbRooms ∧ (∀ i, Live s i → s'.rooms i = s.rooms i)
    ∧ s'.nbClients = s.nbClients ∧ ∃ r, s'.clients = (setRoomId s c r).clients

/-- The slot behind the last room exists and no seat of it holds the client's socket. -/
def SlotClear (s : Server) (c : Nat) : Prop :=
  s.nbRooms < maxRooms
    ∧ findPlayer (s.rooms s.nbRooms.toNat).game (s.clients c).sock = none

instance (s : Server) (c : Nat) : Decidable (SlotClear s c) :=
  inferInstanceAs (Decidable (_ ∧ _))

private theorem setGame_dead (s : Server) (game : Game) {i : Nat} (hi : Live s i) :
    (setGame s s.nbRooms.toNat game).rooms i = s.rooms i :=
  setGame_of_ne (Nat.ne_of_lt (live_iff.mp hi)) game

theorem harmless_iff (hsized : ∀ k, Sized (s.rooms k).game)
    (hnone : findRoom s (s.clients c).roomId = none) : Harmless s c ↔ SlotClear s c := by
  have htarget := targetRoom_of_none hnone
  constructor
  · rintro ⟨s', h, hnb, -, -, -⟩
    -- whatever the handler did, it kept `nb_rooms`, so it found no seat to close
    have heff : Effect s c 0 .leaveRoom s' [] := handleRequest_effect h
    generalize hout : ([] : List Sent) = out at heff
    cases heff with
    | closed hi hlt _ hp =>
        exfalso
        have hdec : s.nbRooms - 1 = s.nbRooms := hnb
        omega
    | unwatched hi hlt _ hp _ =>
        rw [← hi, htarget] at hlt hp
        exact ⟨by omega, hp⟩
    | leftNothing hi hlt _ hp _ =>
        rw [← hi, htarget] at hlt hp
        exact ⟨by omega, hp⟩
  · rintro ⟨hlt, hp⟩
    have hlt' : s.nbRooms.toNat < maxRooms := by
      have hmax : maxRooms = 200 := rfl
      omega
    rw [Harmless, handleLeaveRoom_eq htarget hlt' (hsized _).leaveBounds]
    simp only [leaveResult, hp]
    cases hw : findSpectator (s.rooms s.nbRooms.toNat).game (s.clients c).sock with
    | none => exact ⟨_, rfl, rfl, fun _ _ => rfl, rfl, 0, rfl⟩
    | some j =>
        refine ⟨_, rfl, rfl, ?_, rfl, 0, rfl⟩
        intro i hi
        exact setGame_dead (setRoomId s c 0) _ hi

/-- Every LEAVE_ROOM from a client of no live room finds a clear slot. -/
def clearGuard : Guard where
  accept _ _ := True
  request s c _ q :=
    q = .leaveRoom → findRoom s (s.clients c).roomId = none → SlotClear s c
  disconnect _ _ := True

instance (s : Server) (csock : Int) : Decidable (clearGuard.accept s csock) :=
  inferInstanceAs (Decidable True)

instance (s : Server) (c : Nat) (rand : UInt32) (q : Request) :
    Decidable (clearGuard.request s c rand q) :=
  inferInstanceAs (Decidable (_ → _ → _))

instance (s : Server) (c : Nat) : Decidable (clearGuard.disconnect s c) :=
  inferInstanceAs (Decidable True)

/-- **LEAVE_ROOM WITHOUT A ROOM.**  In every reachable state it is harmless exactly when the
    slot behind the last room exists and does not list the sender as a player; and where all
    such requests of a run find it so, `nb_rooms` is never negative. -/
theorem leave_without_room (s : Server) :
    (∀ c, Reachable Guard.any.meets s → findRoom s (s.clients c).roomId = none →
      (Harmless s c ↔ SlotClear s c))
    ∧ (Reachable clearGuard.meets s → 0 ≤ s.nbRooms) := by
  constructor
  · intro c h hnone
    exact harmless_iff (sized_reachable h) hnone
  · intro h
    refine (nbRooms_range ?_ h).1
    intro t c rand hreq hzero
    have hnone : findRoom t (t.clients c).roomId = none := by
      rw [findRoom_eq_none]
      exact fun i hi => absurd hi (not_live_of_le (Int.le_of_eq hzero) i)
    have hclear := (hreq rfl hnone).2
    rw [hzero] at hclear
    exact hclear

/-- A client that never joined a room leaves it, next to a room in use. -/
theorem leave_without_room_stranger :
    ∃ s, s.nbRooms = 1 ∧ Harmless s 1 ∧ 0 ≤ s.nbRooms := by
  obtain ⟨s, hs, hf⟩ := Guard.reaches (g := clearGuard)
    (f := fun s => (s.nbRooms, decide (findRoom s (s.clients 1).roomId = none),
      decide (SlotClear s 1)))
    (b := (1, true, true)) (twoLeavers.take 3)
    (by decide +kernel) (by decide +kernel)
  obtain ⟨hnb, hf⟩ := Prod.mk.inj hf
  obtain ⟨hnone, hclear⟩ := Prod.mk.inj hf
  obtain ⟨hiff, hpos⟩ := leave_without_room s
  have hany := hs.mono fun t e _ => Guard.meets_any (s := t) e
  exact ⟨s, hnb, (hiff 1 hany (of_decide_eq_true hnone)).mpr (of_decide_eq_true hclear),
    hpos hs⟩

/-- After the first of two players left, the second one is in no live room, and its LEAVE_ROOM
    is not harmless. -/
theorem second_leaver_not_harmless :
    ∃ s, Reachable Guard.any.meets s ∧ 1 < s.nbClients
      ∧ findRoom s (s.clients 1).roomId = none ∧ ¬ Harmless s 1 := by
  obtain ⟨s, hs, hf⟩ := Guard.reaches (g := Guard.any)
    (f := fun s => (s.nbClients, decide (findRoom s (s.clients 1).roomId = none),
      decide (SlotClear s 1)))
    (b := (2, true, false)) (twoLeavers.take 5)
    (by decide +kernel) (by decide +kernel)
  obtain ⟨hn, hf⟩ := Prod.mk.inj hf
  obtain ⟨hnone, hclear⟩ := Prod.mk.inj hf
  have hnone' := of_decide_eq_true hnone
  refine ⟨s, hs, by omega, hnone', ?_⟩
  rw [harmless_iff (sized_reachable hs) hnone']
  exact of_decide_eq_false hclear

end AwaleBounds
