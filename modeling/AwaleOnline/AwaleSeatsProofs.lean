import AwaleOnline.AwaleRosterProofs

/-!
# The seats of the live rooms

A seat is a player entry of a live room: the socket in it, and the name it stored when it was
taken.  Two results say all that happens to seats:

* **`Effect.place`**, **`Effect.seat`** — after a request every seat was there before, or the
  sender of the request sits in it under its own name;
* **`disconnectUser_seats`** — `disconnect_user` vacates the seat its loops find first, and
  touches no other, whatever the spectator loops do on the way.
-/

namespace AwaleSeats

open AwaleGame AwaleProtocol AwaleServer AwaleEffect AwaleRoster

variable {s s' t s₁ : Server} {c i j : Nat} {rand : UInt32} {q : Request} {out : List Sent}

/-- Seat `e` of live room `k` holds the socket `x` and stores `name`. -/
structure Seat (s : Server) (k e : Nat) (x : Int) (name : CString) : Prop where
  live : Live s k
  taken : e < (s.rooms k).game.nbPlayers
  id : ((s.rooms k).game.players e).id = x
  name : ((s.rooms k).game.players e).name = name

/-- A seat with the index into the client table that it stores. -/
structure Place (s : Server) (k e : Nat) (x : Int) (name : CString) (a : Nat) : Prop
    extends Seat s k e x name where
  index : ((s.rooms k).game.players e).clientIndex = a

/-! ## Requests -/

section Requests

variable {k e a : Nat} {x : Int} {name : CString} {P : Prop}

/-- A room is rewritten: its places are places it had before, or satisfy `P`. -/
private theorem place_setGame {game : Game} (hi : Live s i)
    (hgame : ∀ e < game.nbPlayers, (game.players e).id = x → (game.players e).name = name →
      (game.players e).clientIndex = a → Place s i e x name a ∨ P)
    (h : Place (setGame s i game) k e x name a) : (∃ k₀, Place s k₀ e x name a) ∨ P := by
  by_cases hk : k = i
  · subst hk
    obtain ⟨⟨-, htaken, hid, hname⟩, hindex⟩ := h
    rw [setGame_self] at htaken hid hname hindex
    rcases hgame e htaken hid hname hindex with hold | hnew
    · exact Or.inl ⟨k, hold⟩
    · exact Or.inr hnew
  · obtain ⟨⟨hlive, htaken, hid, hname⟩, hindex⟩ := h
    rw [setGame_of_ne hk] at htaken hid hname hindex
    exact Or.inl ⟨k, ⟨hlive, htaken, hid, hname⟩, hindex⟩

/-- A game with the same people on the same seats. -/
private theorem place_same {game : Game} (hi : Live s i)
    (hn : game.nbPlayers = (s.rooms i).game.nbPlayers)
    (hsame : ∀ e < game.nbPlayers, (game.players e).id = ((s.rooms i).game.players e).id
      ∧ (game.players e).name = ((s.rooms i).game.players e).name
      ∧ (game.players e).clientIndex = ((s.rooms i).game.players e).clientIndex)
    (h : Place (setGame s i game) k e x name a) : (∃ k₀, Place s k₀ e x name a) ∨ P := by
  refine place_setGame hi ?_ h
  intro e he hid hname hindex
  obtain ⟨hid', hname', hindex'⟩ := hsame e he
  exact Or.inl ⟨⟨hi, hn ▸ he, hid'.symm.trans hid, hname'.symm.trans hname⟩,
    hindex'.symm.trans hindex⟩

private theorem place_deleteRoom (h : Place (deleteRoom s i) k e x name a) :
    Place s (SlotArray.skip i k) e x name a := by
  obtain ⟨⟨hlive, htaken, hid, hname⟩, hindex⟩ := h
  obtain ⟨hlive', hroom⟩ := live_deleteRoom hlive
  rw [hroom] at htaken hid hname hindex
  exact ⟨⟨hlive', htaken, hid, hname⟩, hindex⟩

/-- A join takes the next seat, or a spectator entry. -/
private theorem place_joined {roomId : UInt32} {spectate : UInt8} (hi : Live s i)
    {game : Game} (hn : game.nbPlayers = (joinedGame s c i spectate).nbPlayers)
    (hplayers : game.players = (joinedGame s c i spectate).players)
    (h : Place (setRoomId (setGame s i game) c roomId) k e x name a) :
    (∃ k₀, Place s k₀ e x name a)
      ∨ (x = (s.clients c).sock ∧ name = (s.clients c).name ∧ a = c) := by
  refine place_setGame hi ?_ (s := s) ⟨⟨h.live, h.taken, h.id, h.name⟩, h.index⟩
  intro e he hid hname hindex
  rw [hn] at he
  rw [hplayers] at hid hname hindex
  by_cases hidx : e = addIndex (s.rooms i).game (spectate ≠ 0)
  · rw [hidx, joinedGame, gameAddPlayer_self] at hid hname hindex
    exact Or.inr ⟨hid.symm, hname.symm, hindex.symm⟩
  · rw [joinedGame, gameAddPlayer_of_ne hidx] at hid hname hindex
    refine Or.inl ⟨⟨hi, ?_, hid, hname⟩, hindex⟩
    by_cases hsp : spectate = 0
    · have hcount : (joinedGame s c i spectate).nbPlayers = (s.rooms i).game.nbPlayers + 1 := by
        simp [joinedGame, gameAddPlayer, hsp]
      have haddr : addIndex (s.rooms i).game (spectate ≠ 0) = (s.rooms i).game.nbPlayers := by
        simp [addIndex, hsp]
      omega
    · have hcount : (joinedGame s c i spectate).nbPlayers = (s.rooms i).game.nbPlayers := by
        simp [joinedGame, gameAddPlayer, hsp]
      omega

/-- The seat that a CONNECT resumes. -/
structure Resumes (s : Server) (name : CString) (i j : Nat) : Prop where
  free : nameInUse s name = false
  found : findSeat s name = some (i, j)

/-- **WHERE PLACES COME FROM.**  After a request of client `c` a place was there before, perhaps
    in another room slot, or it holds the socket of `c` under the name `c` now has; and then it
    stores the index of `c`, or what the seat that `c` has resumed had stored. -/
theorem Effect.place (hseats : ∀ k, (s.rooms k).game.nbPlayers ≤ 2)
    (heff : Effect s c rand q s' out) (h : Place s' k e x name a) :
    (∃ k₀, Place s k₀ e x name a)
      ∨ (x = (s.clients c).sock ∧ name = (s'.clients c).name
        ∧ (a = c ∨ ∃ newName i j, q = .connect newName ∧ Resumes s newName i j
          ∧ ((s.rooms i).game.players j).clientIndex = a)) := by
  have hold : ∀ {u : Server}, Place u k e x name a → u.rooms = s.rooms → u.nbRooms = s.nbRooms →
      ∃ k₀, Place s k₀ e x name a := by
    rintro u ⟨⟨hlive, htaken, hid, hname⟩, hindex⟩ hrooms hnb
    rw [hrooms] at htaken hid hname hindex
    exact ⟨k, ⟨(live_congr hnb k).mp hlive, htaken, hid, hname⟩, hindex⟩
  have hplay : ∀ {i pos k'}, Live s i → Place (setGame s i (playIn s c i pos).1) k' e x name a →
      (∃ k₀, Place s k₀ e x name a) ∨ False := by
    intro i pos k' hi hplace
    obtain ⟨hn, -, -, hsame⟩ := play_frame s c i pos
    exact place_same hi hn (fun e _ => hsame e) hplace
  cases heff with
  | nameRefused _ => exact Or.inl ⟨k, h⟩
  | named _ _ => exact Or.inl (hold h rfl rfl)
  | @resumed newName i j m hfree hseat _ =>
      obtain ⟨hi, hj, hnamed⟩ := findSeat_some hseat
      have hself : ((reseated s c newName i j).clients c).name = newName := by
        rw [reseated, setRoomId_name]
        exact congrArg Client.name (setClient_self s c _)
      rw [hself]
      refine place_setGame hi ?_ (s := s) ⟨⟨h.live, h.taken, h.id, h.name⟩, h.index⟩
      intro e he hid hname hindex
      by_cases hej : e = j
      · subst hej
        rw [setPlayerId_self] at hid hname hindex
        exact Or.inr ⟨hid.symm, hname.symm.trans hnamed,
          Or.inr ⟨newName, i, e, rfl, ⟨hfree, hseat⟩, hindex⟩⟩
      · rw [setPlayerId_of_ne hej] at hid hname hindex
        exact Or.inl ⟨⟨hi, he, hid, hname⟩, hindex⟩
  | created h0 _ =>
      obtain ⟨⟨hlive, htaken, hid, hname⟩, hindex⟩ := h
      by_cases hk : k = s.nbRooms.toNat
      · -- the only seat of the new room
        rw [hk, created_new] at htaken hid hname hindex
        have he : e = 0 := Nat.lt_one_iff.mp htaken
        subst he
        refine Or.inr ⟨hid.symm, ?_, Or.inl hindex.symm⟩
        rw [created]
        exact hname.symm.trans (setRoomId_name _ c rand c).symm
      · rw [created_old c rand hk] at htaken hid hname hindex
        exact Or.inl ⟨k, ⟨live_of_lt_succ hlive hk, htaken, hid, hname⟩, hindex⟩
  | joinNotFound _ => exact Or.inl ⟨k, h⟩
  | joinFull _ _ => exact Or.inl ⟨k, h⟩
  | @joined roomId spectate i frame hfind _ _ _ =>
      rw [joined, setRoomId_name]
      rcases place_joined (findRoom_eq_some.mp hfind).1 rfl rfl h with hold | ⟨hx, hname, ha⟩
      · exact Or.inl hold
      · exact Or.inr ⟨hx, hname, Or.inl ha⟩
  | @started roomId spectate i frame hfind _ _ _ =>
      rw [setGame_joined] at h ⊢
      rw [setRoomId_name]
      have hplayers : ({ joinedGame s c i spectate with isStarted := true } : Game).players
          = (joinedGame s c i spectate).players := rfl
      rcases place_joined (findRoom_eq_some.mp hfind).1 (by rfl) hplayers h with
        hold | ⟨hx, hname, ha⟩
      · exact Or.inl hold
      · exact Or.inr ⟨hx, hname, Or.inl ha⟩
  | playedNowhere _ => exact Or.inl ⟨k, h⟩
  | played hfind _ =>
      exact Or.inl ((hplay (findRoom_eq_some.mp hfind).1 h).resolve_right id)
  | playedLast hfind _ =>
      exact Or.inl ((hplay (findRoom_eq_some.mp hfind).1 (place_deleteRoom h)).resolve_right id)
  | closed _ _ _ _ =>
      obtain ⟨k₀, hplace⟩ : ∃ k₀, Place (setRoomId s c 0) k₀ e x name a :=
        ⟨_, place_deleteRoom h⟩
      exact Or.inl ⟨k₀, ⟨hplace.live, hplace.taken, hplace.id, hplace.name⟩, hplace.index⟩
  | @unwatched i j _ _ _ _ _ =>
      by_cases hi : Live s i
      · have hsame : (removeSpectator (s.rooms i).game j).nbPlayers
            = (s.rooms i).game.nbPlayers := rfl
        refine Or.inl ((place_same (P := False) hi hsame ?_
          ⟨⟨h.live, h.taken, h.id, h.name⟩, h.index⟩).resolve_right id)
        intro e he
        have hle := hseats i
        have hlt : e < (s.rooms i).game.nbPlayers := he
        rw [removeSpectator_of_ne (by omega)]
        exact ⟨rfl, rfl, rfl⟩
      · obtain ⟨⟨hlive, htaken, hid, hname⟩, hindex⟩ := h
        have hk : k ≠ i := by
          rintro rfl
          exact hi hlive
        rw [setGame_of_ne hk] at htaken hid hname hindex
        exact Or.inl ⟨k, ⟨hlive, htaken, hid, hname⟩, hindex⟩
  | leftNothing _ _ _ _ _ => exact Or.inl (hold h rfl rfl)
  | messaged _ _ => exact Or.inl ⟨k, h⟩
  | described => exact Or.inl (hold h rfl rfl)

/-- **WHERE SEATS COME FROM.**  After a request of client `c` a seat was there before, perhaps
    in another room slot, or it holds the socket of `c` under the name `c` now has. -/
theorem Effect.seat (hseats : ∀ k, (s.rooms k).game.nbPlayers ≤ 2)
    (heff : Effect s c rand q s' out) (h : Seat s' k e x name) :
    (∃ k₀, Seat s k₀ e x name)
      ∨ (x = (s.clients c).sock ∧ name = (s'.clients c).name) := by
  rcases Effect.place hseats heff ⟨h, rfl⟩ with ⟨k₀, hold⟩ | ⟨hx, hname, -⟩
  · exact Or.inl ⟨k₀, hold.toSeat⟩
  · exact Or.inr ⟨hx, hname⟩

end Requests

/-! ## `disconnect_user` -/

/-- `t` has the rooms of `s` with the same seats: it differs in spectators at most. -/
structure SameSeats (s t : Server) : Prop where
  nbRooms : t.nbRooms = s.nbRooms
  ids : ∀ k, (t.rooms k).id = (s.rooms k).id
  counts : ∀ k, (t.rooms k).game.nbPlayers = (s.rooms k).game.nbPlayers
  seats : ∀ k, ∀ e < 2, (t.rooms k).game.players e = (s.rooms k).game.players e

theorem SameSeats.refl (s : Server) : SameSeats s s :=
  ⟨rfl, fun _ => rfl, fun _ => rfl, fun _ _ _ => rfl⟩

/-- Spectators live behind the seats. -/
theorem SameSeats.unwatched (h : SameSeats s t) (i j : Nat) :
    SameSeats s (setGame t i (removeSpectator (t.rooms i).game j)) := by
  refine ⟨h.nbRooms, fun k => (setGame_id t i _ k).trans (h.ids k), ?_, ?_⟩
  · exact setGame_slots (P := fun k game => game.nbPlayers = (s.rooms k).game.nbPlayers)
      (fun k _ => h.counts k) (h.counts i)
  · refine setGame_slots
      (P := fun k game => ∀ e < 2, game.players e = (s.rooms k).game.players e)
      (fun k _ => h.seats k) fun e he => ?_
    rw [removeSpectator_of_ne (by omega)]
    exact h.seats i e he

theorem SameSeats.findPlayer (h : SameSeats s t) {k : Nat}
    (hseats : (s.rooms k).game.nbPlayers ≤ 2) (sock : Int) :
    findPlayer (t.rooms k).game sock = findPlayer (s.rooms k).game sock := by
  refine findPlayer_congr (h.counts k) ?_ sock
  intro j hj
  rw [h.seats k j (by omega)]

/-- The occupant of seat `j` of room `i` is gone. -/
def vacated (s : Server) (i j : Nat) : Server :=
  setGame s i (setPlayerId (s.rooms i).game j (-1))

theorem SameSeats.vacated (h : SameSeats s t) (i : Nat) (hj : j < 2) :
    SameSeats (vacated s i j) (vacated t i j) := by
  refine ⟨h.nbRooms, ?_, ?_, ?_⟩
  · intro k
    exact (setGame_id t i _ k).trans ((h.ids k).trans (setGame_id s i _ k).symm)
  · intro k
    by_cases hk : k = i
    · subst hk
      rw [AwaleSeats.vacated, AwaleSeats.vacated, setGame_self, setGame_self]
      exact h.counts k
    · rw [AwaleSeats.vacated, AwaleSeats.vacated, setGame_of_ne hk, setGame_of_ne hk]
      exact h.counts k
  · intro k e he
    by_cases hk : k = i
    · subst hk
      rw [AwaleSeats.vacated, AwaleSeats.vacated, setGame_self, setGame_self]
      by_cases hej : e = j
      · rw [hej, setPlayerId_self, setPlayerId_self, h.seats k j hj]
      · rw [setPlayerId_of_ne hej, setPlayerId_of_ne hej]
        exact h.seats k e he
    · rw [AwaleSeats.vacated, AwaleSeats.vacated, setGame_of_ne hk, setGame_of_ne hk]
      exact h.seats k e he

private theorem disconnectRooms_seats (hseats : ∀ k, (s.rooms k).game.nbPlayers ≤ 2) :
    ∀ (n a : Nat) {t : Server}, a + n = s.nbRooms.toNat → SameSeats s t →
      (∀ k < a, (s.rooms k).id = (s.clients c).roomId →
        findPlayer (s.rooms k).game (s.clients c).sock = none) →
      disconnectRooms (s.clients c).sock (s.clients c).roomId (List.range' a n) t = .ok s₁ →
      (∃ i j, SeatFound s c i j ∧ SameSeats (vacated s i j) s₁)
        ∨ (NoSeat s c ∧ SameSeats s s₁) := by
  intro n
  induction n with
  | zero =>
      intro a t ha hsame hbefore h
      refine Or.inr ⟨?_, Except.ok.inj h ▸ hsame⟩
      intro i hi hid
      exact hbefore i (by omega) hid
  | succ n ih =>
      intro a t ha hsame hbefore h
      rw [List.range'_succ] at h
      simp only [disconnectRooms, hsame.ids a, hsame.findPlayer (hseats a)] at h
      have hupto : ((s.rooms a).id = (s.clients c).roomId →
            findPlayer (s.rooms a).game (s.clients c).sock = none) →
          ∀ k < a + 1, (s.rooms k).id = (s.clients c).roomId →
            findPlayer (s.rooms k).game (s.clients c).sock = none := by
        intro hnone k hk hidk
        rcases Nat.lt_succ_iff_lt_or_eq.mp hk with hlt | rfl
        · exact hbefore k hlt hidk
        · exact hnone hidk
      by_cases hid : (s.rooms a).id = (s.clients c).roomId
      · rw [if_pos hid] at h
        cases hp : findPlayer (s.rooms a).game (s.clients c).sock with
        | some j =>
            rw [hp] at h
            have hj : j < 2 := Nat.lt_of_lt_of_le (findPlayer_eq_some.mp hp).1 (hseats a)
            exact Or.inl ⟨a, j, ⟨by omega, hid, hp, hbefore⟩,
              Except.ok.inj h ▸ hsame.vacated a hj⟩
        | none =>
            rw [hp] at h
            dsimp only at h
            split at h
            · cases h
            · rename_i t₂ ht₂
              have hsame₂ : SameSeats s t₂ :=
                dropSpectators_invariant (fun u j hu _ _ => hu.unwatched a j) _ _ hsame ht₂
              exact ih (a + 1) (by omega) hsame₂ (hupto fun _ => hp) h
      · rw [if_neg hid] at h
        exact ih (a + 1) (by omega) hsame (hupto fun hid' => absurd hid' hid) h

/-- **DISCONNECTION AND SEATS.**  `disconnect_user` vacates the first seat found, or none. -/
theorem disconnectUser_seats (hseats : ∀ k, (s.rooms k).game.nbPlayers ≤ 2)
    (h : disconnectUser s c = .ok s₁) :
    (∃ i j, SeatFound s c i j ∧ SameSeats (vacated s i j) s₁)
      ∨ (NoSeat s c ∧ SameSeats s s₁) := by
  refine disconnectRooms_seats hseats _ 0 (Nat.zero_add _) (SameSeats.refl s)
    (fun k hk => absurd hk (Nat.not_lt_zero k)) ?_
  rw [← List.range_eq_range']
  exact h

/-- There is one seat the loops find first. -/
theorem seatFound_unique {i' j' : Nat} (h : SeatFound s c i j) (h' : SeatFound s c i' j') :
    i = i' ∧ j = j' := by
  obtain ⟨-, hid, hp, hfirst⟩ := h
  obtain ⟨-, hid', hp', hfirst'⟩ := h'
  rcases Nat.lt_trichotomy i i' with hlt | rfl | hlt
  · rw [hfirst' i hlt hid] at hp
    exact nomatch hp
  · exact ⟨rfl, Option.some.inj (hp.symm.trans hp')⟩
  · rw [hfirst i' hlt hid'] at hp'
    exact nomatch hp'

end AwaleSeats
