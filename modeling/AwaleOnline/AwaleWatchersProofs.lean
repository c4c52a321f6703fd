import AwaleOnline.AwaleClosingProofs
import Mathlib.Data.List.Permutation

/-!
# Spectators that go

`handle_leave_room` and `disconnect_user` take a spectator out of its room in the same way: the
entry is overwritten by entry `nb_spectators - 1`, where the last spectator stands two further on.

* **`perm_removed_iff`** — the spectators that are left are the others exactly when the entry is
  the last one, or the copied entry happens to show what the last one does (`Removes`);
* **`spectator_leaving`** — a spectator that leaves is the only one removed just when it is the
  last one, or one of two behind an unused second seat that shows the other (`LeaverMeets`);
* **`client_detached`** — the disconnection of a client detaches it and nobody else just when it
  is a player, or the loop, which reads room `j` where it means its own, comes to an entry that
  `Removes` it (`DetachMeets`).
-/

namespace AwaleWatchers

open AwaleGame AwaleProtocol AwaleServer AwaleEffect AwaleBounds AwaleRoster AwaleRejection

variable {s s' s₁ : Server} {c i j j₀ k e : Nat} {sock : Int} {game : Game}

/-! ## Member lists -/

/-- What a member list shows of an entry. -/
def badge (game : Game) (e : Nat) : Int × CString :=
  ((game.players e).id, (game.players e).name)

def watchers (game : Game) : List (Int × CString) :=
  (List.range game.nbSpectators).map fun k => badge game (2 + k)

theorem mem_watchers {w : Int × CString} :
    w ∈ watchers game ↔ ∃ k < game.nbSpectators, badge game (2 + k) = w := by
  simp only [watchers, List.mem_map, List.mem_range]

/-- All but the last spectator, and the last one. -/
theorem watchers_last (h : 0 < game.nbSpectators) :
    watchers game = (List.range (game.nbSpectators - 1)).map (fun k => badge game (2 + k))
      ++ [badge game (game.nbSpectators + 1)] := by
  obtain ⟨n, hn⟩ : ∃ n, game.nbSpectators = n + 1 := ⟨game.nbSpectators - 1, by omega⟩
  have hend : 2 + n = n + 1 + 1 := by omega
  rw [watchers, hn, List.range_succ, List.map_append, List.map_singleton, Nat.add_sub_cancel, hend]

/-- The list after a removal: one entry shorter, and overwritten at `j`. -/
theorem watchers_removeSpectator (game : Game) (j : Nat) :
    watchers (removeSpectator game j)
      = (List.range (game.nbSpectators - 1)).map (Function.update (fun k => badge game (2 + k)) j
          (badge game (game.nbSpectators - 1))) := by
  refine List.map_congr_left fun k _ => ?_
  by_cases hk : k = j
  · subst hk
    have hself : (removeSpectator game k).players (2 + k)
        = game.players (game.nbSpectators - 1) := by
      rw [Nat.add_comm]
      exact Function.update_self ..
    rw [Function.update_self, badge, hself]
    rfl
  · rw [Function.update_of_ne hk, badge, removeSpectator_of_ne (by omega)]
    rfl

/-- Without the one entry that holds the socket. -/
theorem perm_filter_watchers (hj : j₀ < game.nbSpectators)
    (hid : (game.players (2 + j₀)).id = sock)
    (honly : ∀ k < game.nbSpectators, (game.players (2 + k)).id = sock → k = j₀) :
    (badge game (2 + j₀) :: (watchers game).filter fun w => w.1 ≠ sock).Perm (watchers game) := by
  have hmine : (watchers game).filter (fun w => !decide (w.1 ≠ sock)) = [badge game (2 + j₀)] := by
    have hsplit : List.range game.nbSpectators
        = List.range j₀ ++ j₀ :: List.range' (j₀ + 1) (game.nbSpectators - j₀ - 1) := by
      obtain ⟨n, hn⟩ : ∃ n, game.nbSpectators - j₀ = n + 1 := ⟨game.nbSpectators - j₀ - 1, by omega⟩
      rw [SlotArray.range_split (Nat.le_of_lt hj), hn, List.range'_succ, Nat.add_sub_cancel]
    have hnone : ∀ l : List Nat, (∀ k ∈ l, k < game.nbSpectators ∧ k ≠ j₀) →
        (l.map fun k => badge game (2 + k)).filter (fun w => !decide (w.1 ≠ sock)) = [] := by
      intro l hl
      refine List.filter_eq_nil_iff.mpr fun w hw => ?_
      obtain ⟨k, hk, rfl⟩ := List.mem_map.mp hw
      obtain ⟨hlt, hne⟩ := hl k hk
      have hother : (badge game (2 + k)).1 ≠ sock := fun h => hne (honly k hlt h)
      simp [hother]
    have hself : (badge game (2 + j₀)).1 = sock := hid
    rw [watchers, hsplit, List.map_append, List.map_cons, List.filter_append, List.filter_cons,
      hnone (List.range j₀), hnone (List.range' _ _)]
    · simp [hself]
    · intro k hk
      have hlt := List.mem_range'_1.mp hk
      omega
    · intro k hk
      have hlt := List.mem_range.mp hk
      omega
  have hperm := List.filter_append_perm (fun w => decide (w.1 ≠ sock)) (watchers game)
  rw [hmine] at hperm
  exact List.perm_append_comm.trans hperm

/-- The removal at entry `j` takes out the spectator on `sock`: its entry is the last one, or the
    copied entry shows what is dropped in its place. -/
def Removes (game : Game) (j : Nat) (sock : Int) : Prop :=
  (j + 1 = game.nbSpectators ∧ (game.players (2 + j)).id = sock)
    ∨ (j + 1 < game.nbSpectators
      ∧ (((game.players (2 + j)).id = sock
          ∧ badge game (game.nbSpectators - 1) = badge game (game.nbSpectators + 1))
        ∨ ((game.players (game.nbSpectators + 1)).id = sock
          ∧ badge game (game.nbSpectators - 1) = badge game (2 + j))))

instance (game : Game) (j : Nat) (sock : Int) : Decidable (Removes game j sock) :=
  inferInstanceAs (Decidable (_ ∨ _))

/-- **WHO IS LEFT** after a removal at entry `j`: the others, exactly under `Removes`. -/
theorem perm_removed_iff (hj₀ : j₀ < game.nbSpectators)
    (hid : (game.players (2 + j₀)).id = sock)
    (honly : ∀ k < game.nbSpectators, (game.players (2 + k)).id = sock → k = j₀)
    (hj : j < game.nbSpectators) :
    (watchers (removeSpectator game j)).Perm ((watchers game).filter fun w => w.1 ≠ sock)
      ↔ Removes game j sock := by
  have hmine : ∀ k < game.nbSpectators,
      badge game (2 + j₀) = badge game (2 + k) ↔ (game.players (2 + k)).id = sock := by
    intro k hk
    constructor
    · intro h
      exact (congrArg Prod.fst h).symm.trans hid
    · intro h
      rw [honly k hk h]
  have hend : 2 + (game.nbSpectators - 1) = game.nbSpectators + 1 := by omega
  have hlast := hmine (game.nbSpectators - 1) (by omega)
  rw [hend] at hlast
  -- both sides with the leaver's badge in front
  have hfront : (watchers (removeSpectator game j)).Perm
        ((watchers game).filter fun w => w.1 ≠ sock)
      ↔ (badge game (2 + j₀) :: watchers (removeSpectator game j)).Perm
          (badge game (game.nbSpectators + 1)
            :: (List.range (game.nbSpectators - 1)).map fun k => badge game (2 + k)) := by
    have hall : (badge game (game.nbSpectators + 1)
        :: (List.range (game.nbSpectators - 1)).map fun k => badge game (2 + k)).Perm
          (watchers game) := by
      rw [watchers_last (by omega)]
      exact (List.perm_append_singleton ..).symm
    have hothers := (perm_filter_watchers hj₀ hid honly).trans hall.symm
    rw [← List.perm_cons (badge game (2 + j₀))]
    exact ⟨fun h => h.trans hothers, fun h => h.trans hothers.symm⟩
  rw [hfront, watchers_removeSpectator]
  by_cases hjlast : j + 1 = game.nbSpectators
  · -- nothing in front of the entry changes
    have hsame : (List.range (game.nbSpectators - 1)).map
          (Function.update (fun k => badge game (2 + k)) j (badge game (game.nbSpectators - 1)))
        = (List.range (game.nbSpectators - 1)).map fun k => badge game (2 + k) := by
      refine List.map_congr_left fun k hk => Function.update_of_ne ?_ ..
      have hlt := List.mem_range.mp hk
      omega
    have hentry : game.nbSpectators + 1 = 2 + j := by omega
    have hcancel : (badge game (2 + j₀)
          :: (List.range (game.nbSpectators - 1)).map fun k => badge game (2 + k)).Perm
          (badge game (game.nbSpectators + 1)
            :: (List.range (game.nbSpectators - 1)).map fun k => badge game (2 + k))
        ↔ badge game (2 + j₀) = badge game (game.nbSpectators + 1) := by
      show ([_] ++ _).Perm ([_] ++ _) ↔ _
      rw [List.perm_append_right_iff, List.singleton_perm_singleton]
    rw [hsame, hcancel, hlast, hentry]
    constructor
    · intro h
      exact Or.inl ⟨hjlast, h⟩
    · rintro (⟨-, h⟩ | ⟨hlt, -⟩)
      · exact h
      · omega
  · have hlt : j + 1 < game.nbSpectators := by omega
    have hupdate := SlotArray.perm_update (fun k => badge game (2 + k))
      (badge game (game.nbSpectators - 1)) (j := j) (n := game.nbSpectators - 1) (by omega)
    -- both sides with the overwritten badge in front
    have hcancel : ∀ l : List (Int × CString), (badge game (2 + j) :: l).Perm
          (badge game (game.nbSpectators - 1)
            :: (List.range (game.nbSpectators - 1)).map fun k => badge game (2 + k)) →
        ((badge game (2 + j₀) :: l).Perm (badge game (game.nbSpectators + 1)
            :: (List.range (game.nbSpectators - 1)).map fun k => badge game (2 + k))
          ↔ [badge game (2 + j₀), badge game (game.nbSpectators - 1)].Perm
              [badge game (2 + j), badge game (game.nbSpectators + 1)]) := by
      intro l hl
      have hleft : (badge game (2 + j) :: badge game (2 + j₀) :: l).Perm
          ([badge game (2 + j₀), badge game (game.nbSpectators - 1)]
            ++ (List.range (game.nbSpectators - 1)).map fun k => badge game (2 + k)) :=
        (List.Perm.swap ..).trans (hl.cons _)
      have hpair : ([badge game (2 + j₀), badge game (game.nbSpectators - 1)]
            ++ (List.range (game.nbSpectators - 1)).map fun k => badge game (2 + k)).Perm
          ([badge game (2 + j), badge game (game.nbSpectators + 1)]
            ++ (List.range (game.nbSpectators - 1)).map fun k => badge game (2 + k))
          ↔ _ := List.perm_append_right_iff _
      rw [← List.perm_cons (badge game (2 + j)), ← hpair]
      exact ⟨fun h => hleft.symm.trans h, fun h => hleft.trans h⟩
    have hremoves : Removes game j sock
        ↔ (badge game (2 + j₀) = badge game (2 + j)
            ∧ badge game (game.nbSpectators - 1) = badge game (game.nbSpectators + 1))
          ∨ (badge game (2 + j₀) = badge game (game.nbSpectators + 1)
            ∧ badge game (game.nbSpectators - 1) = badge game (2 + j)) := by
      rw [Removes, or_iff_right fun h => hjlast h.1, and_iff_right hlt, hmine j hj, hlast]
    rw [hcancel _ hupdate, hremoves, List.pair_perm]
    simp only [List.cons.injEq, and_true]
    constructor
    · rintro (⟨h1, h2⟩ | ⟨h1, h2⟩)
      · exact Or.inl ⟨h1.symm, h2.symm⟩
      · exact Or.inr ⟨h2.symm, h1.symm⟩
    · rintro (⟨h1, h2⟩ | ⟨h1, h2⟩)
      · exact Or.inl ⟨h1.symm, h2.symm⟩
      · exact Or.inr ⟨h2.symm, h1.symm⟩

/-! ## Leaving -/

/-- Room `i` has other spectators at most, and no other room has changed. -/
structure OnlyWatchers (s : Server) (i : Nat) (s' : Server) : Prop where
  id : (s'.rooms i).id = (s.rooms i).id
  board : (s'.rooms i).game.board = (s.rooms i).game.board
  nbPlayers : (s'.rooms i).game.nbPlayers = (s.rooms i).game.nbPlayers
  isStarted : (s'.rooms i).game.isStarted = (s.rooms i).game.isStarted
  turn : (s'.rooms i).game.turn = (s.rooms i).game.turn
  seats : ∀ e < 2, (s'.rooms i).game.players e = (s.rooms i).game.players e
  nbRooms : s'.nbRooms = s.nbRooms
  rooms : ∀ k, k ≠ i → s'.rooms k = s.rooms k

theorem onlyWatchers (hrooms : s₁.rooms = s.rooms) (hnb : s₁.nbRooms = s.nbRooms) :
    OnlyWatchers s i (setGame s₁ i (removeSpectator (s.rooms i).game j)) := by
  have hself : (setGame s₁ i (removeSpectator (s.rooms i).game j)).rooms i
      = { s.rooms i with game := removeSpectator (s.rooms i).game j } := by
    rw [setGame, setRoom_self, hrooms]
  refine ⟨?_, ?_, ?_, ?_, ?_, ?_, hnb, ?_⟩
  · rw [hself]
  · rw [hself]
    rfl
  · rw [hself]
    rfl
  · rw [hself]
    rfl
  · rw [hself]
    rfl
  · intro e he
    rw [hself]
    exact removeSpectator_of_ne (by omega)
  · intro k hk
    rw [setGame_of_ne hk, hrooms]

theorem OnlyWatchers.refl (s : Server) (i : Nat) : OnlyWatchers s i s :=
  ⟨rfl, rfl, rfl, rfl, rfl, fun _ _ => rfl, rfl, fun _ _ => rfl⟩

theorem OnlyWatchers.trans (h : OnlyWatchers s i s₁) (h' : OnlyWatchers s₁ i s') :
    OnlyWatchers s i s' where
  id := h'.id.trans h.id
  board := h'.board.trans h.board
  nbPlayers := h'.nbPlayers.trans h.nbPlayers
  isStarted := h'.isStarted.trans h.isStarted
  turn := h'.turn.trans h.turn
  seats e he := (h'.seats e he).trans (h.seats e he)
  nbRooms := h'.nbRooms.trans h.nbRooms
  rooms k hk := (h'.rooms k hk).trans (h.rooms k hk)

/-- **A SPECTATOR HAS LEFT** room `i`: the others are still there, and nothing else has changed. -/
structure WatcherLeft (s : Server) (c i : Nat) (s' : Server) : Prop where
  count : (s'.rooms i).game.nbSpectators = (s.rooms i).game.nbSpectators - 1
  left : ∀ w, w ∈ watchers (s'.rooms i).game
    ↔ w ∈ watchers (s.rooms i).game ∧ w.1 ≠ (s.clients c).sock
  rest : OnlyWatchers s i s'

/-- The leaver is the last spectator, or the first of two, and the unused second seat shows what
    the entry of the other does. -/
def LeaverMeets (game : Game) (j : Nat) : Prop :=
  j + 1 = game.nbSpectators ∨ (game.nbSpectators = 2 ∧ badge game 1 = badge game 3)

/-- A removed spectator is replaced by the last one only where the sockets coincide. -/
theorem removes_iff (hj : j < game.nbSpectators) (hid : (game.players (2 + j)).id = sock)
    (hdistinct : ∀ a < game.nbSpectators, ∀ b < game.nbSpectators,
      (game.players (2 + a)).id = (game.players (2 + b)).id → a = b) :
    Removes game j sock ↔ LeaverMeets game j := by
  constructor
  · rintro (⟨hlast, -⟩ | ⟨hlt, ⟨-, hcopy⟩ | ⟨hend, -⟩⟩)
    · exact Or.inl hlast
    · have hids : (game.players (game.nbSpectators - 1)).id
          = (game.players (game.nbSpectators + 1)).id := congrArg Prod.fst hcopy
      by_cases htwo : game.nbSpectators = 2
      · rw [htwo] at hcopy
        exact Or.inr ⟨htwo, hcopy⟩
      · -- the copied entry is a spectator's
        have h1 : 2 + (game.nbSpectators - 3) = game.nbSpectators - 1 := by omega
        have h2 : 2 + (game.nbSpectators - 1) = game.nbSpectators + 1 := by omega
        have heq := hdistinct (game.nbSpectators - 3) (by omega) (game.nbSpectators - 1) (by omega)
          (by rw [h1, h2, hids])
        omega
    · have h2 : 2 + (game.nbSpectators - 1) = game.nbSpectators + 1 := by omega
      have heq := hdistinct j hj (game.nbSpectators - 1) (by omega) (by rw [hid, h2, hend])
      omega
  · rintro (hlast | ⟨htwo, hcopy⟩)
    · exact Or.inl ⟨hlast, hid⟩
    · by_cases hlast : j + 1 = game.nbSpectators
      · exact Or.inl ⟨hlast, hid⟩
      · refine Or.inr ⟨by omega, Or.inl ⟨hid, ?_⟩⟩
        rw [htwo]
        exact hcopy

/-- Spectators have sockets of their own. -/
structure OwnSockets (game : Game) : Prop where
  apart : ∀ a < game.nbSpectators, ∀ b < game.nbSpectators,
    (game.players (2 + a)).id = (game.players (2 + b)).id → a = b
  seats : ∀ a < game.nbSpectators, ∀ e < game.nbPlayers,
    (game.players (2 + a)).id ≠ (game.players e).id

instance (game : Game) : Decidable (OwnSockets game) :=
  decidable_of_iff
    ((∀ a < game.nbSpectators, ∀ b < game.nbSpectators, _ → _)
      ∧ ∀ a < game.nbSpectators, ∀ e < game.nbPlayers, _)
    ⟨fun h => ⟨h.1, h.2⟩, fun h => ⟨h.apart, h.seats⟩⟩

/-- **LEAVING AS A SPECTATOR.**  Of a room whose spectators have sockets of their own, the leaver
    is the only one removed exactly under `LeaverMeets`. -/
theorem spectator_leaving (hi : Live s i) (hroom : (s.rooms i).id = (s.clients c).roomId)
    (honly : ∀ k, Live s k → (s.rooms k).id = (s.clients c).roomId → k = i)
    (htable : s.nbRooms ≤ maxRooms)
    (hentries : 2 + (s.rooms i).game.nbSpectators ≤ maxGamePlayers)
    (hown : OwnSockets (s.rooms i).game)
    (hj : j < (s.rooms i).game.nbSpectators)
    (hid : ((s.rooms i).game.players (2 + j)).id = (s.clients c).sock) :
    (∃ s', handleLeaveRoom s c = .ok (s', []) ∧ WatcherLeft s c i s')
      ↔ LeaverMeets (s.rooms i).game j := by
  have hfind : findRoom s (s.clients c).roomId = some i := by
    refine findRoom_eq_some.mpr ⟨hi, hroom, fun k hk hidk => ?_⟩
    have hlive : Live s k := live_iff.mpr (Nat.lt_trans hk (live_iff.mp hi))
    exact Nat.ne_of_lt hk (honly k hlive hidk)
  have hlt : (i : Int) < s.nbRooms := hi
  have hdistinct := hown.apart
  have htwo : (s.rooms i).game.nbPlayers ≤ 2 := by
    by_contra h
    exact hown.seats 0 (by omega) 2 (by omega) rfl
  have hnone : findPlayer (s.rooms i).game (s.clients c).sock = none :=
    findPlayer_eq_none.mpr fun e he h => hown.seats j hj e he (hid.trans h.symm)
  have hwatch : findSpectator (s.rooms i).game (s.clients c).sock = some j := by
    refine findSpectator_eq_some.mpr ⟨hj, ?_, fun k hk hidk => ?_⟩
    · rw [Nat.add_comm]
      exact hid
    · rw [Nat.add_comm] at hidk
      exact Nat.ne_of_lt hk (hdistinct k (by omega) j hj (hidk.trans hid.symm))
  have hleave : handleLeaveRoom s c
      = .ok (setGame (setRoomId s c 0) i (removeSpectator (s.rooms i).game j), []) := by
    rw [handleLeaveRoom_eq (targetRoom_of_find hfind) (by omega) ⟨by omega, hentries⟩,
      leaveResult, hnone, hwatch]
  have hgame : ((setGame (setRoomId s c 0) i (removeSpectator (s.rooms i).game j)).rooms i).game
      = removeSpectator (s.rooms i).game j := setGame_self ..
  have hmine : ∀ k < (s.rooms i).game.nbSpectators,
      ((s.rooms i).game.players (2 + k)).id = (s.clients c).sock → k = j :=
    fun k hk hidk => hdistinct k hk j hj (hidk.trans hid.symm)
  rw [← removes_iff hj hid hdistinct]
  constructor
  · rintro ⟨s', h, hleft⟩
    obtain ⟨rfl, -⟩ := Prod.mk.inj (Except.ok.inj (hleave.symm.trans h))
    by_cases hlast : j + 1 = (s.rooms i).game.nbSpectators
    · exact Or.inl ⟨hlast, hid⟩
    have hend : 2 + ((s.rooms i).game.nbSpectators - 1) = (s.rooms i).game.nbSpectators + 1 := by
      omega
    -- the last spectator is still among the watchers, and only the copied entry can show it
    have hkept := (hleft.left (badge (s.rooms i).game ((s.rooms i).game.nbSpectators + 1))).mpr
      ⟨mem_watchers.mpr ⟨(s.rooms i).game.nbSpectators - 1, by omega, by rw [hend]⟩, fun hsock => by
        have heq := hmine ((s.rooms i).game.nbSpectators - 1) (by omega) (by rw [hend]; exact hsock)
        omega⟩
    rw [hgame, watchers_removeSpectator] at hkept
    obtain ⟨k, hk, hshown⟩ := List.mem_map.mp hkept
    have hkm := List.mem_range.mp hk
    by_cases hkj : k = j
    · subst hkj
      rw [Function.update_self] at hshown
      exact Or.inr ⟨by omega, Or.inl ⟨hid, hshown⟩⟩
    · rw [Function.update_of_ne hkj] at hshown
      have heq := hdistinct k (by omega) ((s.rooms i).game.nbSpectators - 1) (by omega)
        (by rw [hend]; exact congrArg Prod.fst hshown)
      omega
  · intro hm
    have hperm := (perm_removed_iff hj hid hmine hj).mpr hm
    refine ⟨_, hleave, ?_, fun w => ?_, onlyWatchers rfl rfl⟩
    · rw [hgame]
      rfl
    · rw [hgame, hperm.mem_iff, List.mem_filter, decide_eq_true_eq]

/-- A room with two players and two spectators. -/
def crowdedRoom : List Event :=
  [.accept 4, .accept 5, .accept 6, .accept 7, .frame 0 Request.createRoom.body 7,
    .frame 1 (Request.joinRoom 7 0).body 0, .frame 2 (Request.joinRoom 7 1).body 0,
    .frame 3 (Request.joinRoom 7 1).body 0]

/-- The second of two spectators leaves. -/
theorem spectator_leaving_last :
    ∃ s s', (s.rooms 0).game.nbSpectators = 2 ∧ handleLeaveRoom s 3 = .ok (s', [])
      ∧ WatcherLeft s 3 0 s' := by
  obtain ⟨s, -, hf⟩ := Guard.reaches (g := Guard.any)
    (f := fun s => decide (s.nbRooms = 1 ∧ (s.rooms 0).id = (s.clients 3).roomId
      ∧ (s.rooms 0).game.nbSpectators = 2 ∧ OwnSockets (s.rooms 0).game
      ∧ ((s.rooms 0).game.players (2 + 1)).id = (s.clients 3).sock))
    (b := true) crowdedRoom (by decide +kernel) (by decide +kernel)
  obtain ⟨hnb, hroom, hm, hown, hid⟩ := of_decide_eq_true hf
  have hlive : ∀ k, Live s k ↔ k = 0 := by
    intro k
    rw [Live, hnb]
    omega
  obtain ⟨s', h, hleft⟩ := (spectator_leaving ((hlive 0).mpr rfl) hroom
    (fun k hk _ => (hlive k).mp hk) (by rw [hnb]; decide) (by rw [hm]; decide) hown
    (by rw [hm]; decide) hid).mpr (Or.inl hm.symm)
  exact ⟨s, s', hm, h, hleft⟩

/-- The first of two spectators leaves: the second one is dropped in its place, and the second
    player is put in the list. -/
theorem spectator_dropped :
    ∃ s s', AwaleServer.Reachable Guard.any.meets s ∧ s.nbRooms = 1
      ∧ (s.rooms 0).id = (s.clients 2).roomId ∧ OwnSockets (s.rooms 0).game
      ∧ (watchers (s.rooms 0).game).map Prod.fst = [(s.clients 2).sock, 7]
      ∧ handleLeaveRoom s 2 = .ok (s', [])
      ∧ (watchers (s'.rooms 0).game).map Prod.fst = [5] ∧ ¬ WatcherLeft s 2 0 s' := by
  obtain ⟨s, hs, hf⟩ := Guard.reaches (g := Guard.any)
    (f := fun s => (decide (s.nbRooms = 1 ∧ (s.rooms 0).id = (s.clients 2).roomId
        ∧ OwnSockets (s.rooms 0).game ∧ (s.clients 2).sock = 6
        ∧ (watchers (s.rooms 0).game).map Prod.fst = [6, 7]),
      (handleLeaveRoom s 2).toOption.map fun r =>
        (r.2, (watchers (r.1.rooms 0).game).map Prod.fst)))
    (b := (true, some ([], [5]))) crowdedRoom (by decide +kernel) (by decide +kernel)
  obtain ⟨hd, ht⟩ := Prod.mk.inj hf
  obtain ⟨hnb, hroom, hown, hsock, hlist⟩ := of_decide_eq_true hd
  cases hleave : handleLeaveRoom s 2 with
  | error f =>
      rw [hleave] at ht
      cases ht
  | ok r =>
      obtain ⟨s', out⟩ := r
      rw [hleave] at ht
      obtain ⟨rfl, hleft⟩ := Prod.mk.inj (Option.some.inj ht)
      refine ⟨s, s', hs, hnb, hroom, hown, by rw [hsock, hlist], hleave, hleft, fun h => ?_⟩
      -- the spectator on socket 7 is missing
      have h7 : (7 : Int) ∈ (watchers (s.rooms 0).game).map Prod.fst := by
        rw [hlist]
        decide
      obtain ⟨w, hw, hw7⟩ := List.mem_map.mp h7
      have hkept := (h.left w).mpr ⟨hw, by rw [hw7, hsock]; decide⟩
      have hmem := List.mem_map_of_mem (f := Prod.fst) hkept
      rw [hleft, hw7] at hmem
      exact absurd hmem (by decide)

/-! ## Disconnection -/

/-- Live rooms have different ids. -/
def DistinctIds (s : Server) : Prop :=
  ∀ k < s.nbRooms.toNat, ∀ k' < s.nbRooms.toNat, (s.rooms k).id = (s.rooms k').id → k = k'

/-- Member ids other than `-1` are pairwise different. -/
def DistinctEntries (s : Server) : Prop :=
  ∀ k e k' e' x, x ≠ -1 → entry s k e = some x → entry s k' e' = some x → k = k' ∧ e = e'

instance (s : Server) : Decidable (DistinctIds s) :=
  inferInstanceAs (Decidable (∀ k < s.nbRooms.toNat, ∀ k' < s.nbRooms.toNat, _ → _))

theorem entry_bounds {x : Int} (h : entry s k e = some x) :
    k < s.nbRooms.toNat ∧ e < (s.rooms k).game.nbPlayers + 2 + (s.rooms k).game.nbSpectators := by
  obtain ⟨hk, hmem, -⟩ := entry_eq_some.mp h
  refine ⟨live_iff.mp hk, ?_⟩
  rcases hmem with he | ⟨-, he⟩
  · omega
  · omega

/-- No other member entry shows what this one does. -/
def Apart (s : Server) (k e : Nat) : Prop :=
  ∀ k' < s.nbRooms.toNat, ∀ e' < (s.rooms k').game.nbPlayers + 2 + (s.rooms k').game.nbSpectators,
    entry s k e = entry s k' e' → k = k' ∧ e = e'

instance (s : Server) (k e : Nat) : Decidable (Apart s k e) :=
  inferInstanceAs (Decidable (∀ k' < s.nbRooms.toNat, ∀ e' < _, _ → _))

theorem distinctEntries_iff : DistinctEntries s ↔ ∀ k < s.nbRooms.toNat,
    ∀ e < (s.rooms k).game.nbPlayers + 2 + (s.rooms k).game.nbSpectators,
      entry s k e ≠ none → entry s k e ≠ some (-1) → Apart s k e := by
  constructor
  · intro h k _ e _ hne hvac k' _ e' _ heq
    obtain ⟨x, hx⟩ := Option.ne_none_iff_exists'.mp hne
    refine h k e k' e' x ?_ hx (heq.symm.trans hx)
    rintro rfl
    exact hvac hx
  · intro h k e k' e' x hx he he'
    obtain ⟨hk, hlt⟩ := entry_bounds he
    obtain ⟨hk', hlt'⟩ := entry_bounds he'
    refine h k hk e hlt ?_ ?_ k' hk' e' hlt' (he.trans he'.symm)
    · rw [he]
      exact Option.some_ne_none x
    · rw [he]
      exact fun heq => hx (Option.some.inj heq)

instance (s : Server) : Decidable (DistinctEntries s) :=
  decidable_of_iff _ distinctEntries_iff.symm

/-- **CLIENT `c` IS DETACHED** from entry `e` of room `i`: a seat is vacated, a spectator is taken
    out of the list, and no entry is left with its socket. -/
structure Detaches (s : Server) (c i e : Nat) (s' : Server) : Prop where
  seat : e < (s.rooms i).game.nbPlayers →
    s' = setGame s i (setPlayerId (s.rooms i).game e (-1))
  watching : (s.rooms i).game.nbPlayers ≤ e →
    (watchers (s'.rooms i).game).Perm
        ((watchers (s.rooms i).game).filter fun w => w.1 ≠ (s.clients c).sock)
      ∧ OnlyWatchers s i s'
  gone : ∀ k e', entry s' k e' ≠ some (s.clients c).sock

/-- The entry that the loop for room `i` reads at index `j`: it is room `j`'s. -/
def readAt (s : Server) (j : Nat) : Int := ((s.rooms j).game.players (2 + j)).id

/-- The loop finds the socket at one index, or again at the very last; it stays inside the table
    of rooms up to where the shortened list ends; and the removal there is right. -/
def LoopMeets (s : Server) (i : Nat) (sock : Int) : Prop :=
  ∃ j < (s.rooms i).game.nbSpectators, readAt s j = sock
    ∧ (∀ k < (s.rooms i).game.nbSpectators, readAt s k = sock → k ≠ j →
        j < k ∧ k + 1 = (s.rooms i).game.nbSpectators)
    ∧ (∀ k < (s.rooms i).game.nbSpectators,
        k = j ∨ k + 1 < (s.rooms i).game.nbSpectators → k < maxRooms)
    ∧ Removes (s.rooms i).game j sock

/-- The client at entry `e` is a player, or the loop comes to the right entry. -/
def DetachMeets (s : Server) (c i e : Nat) : Prop :=
  e < (s.rooms i).game.nbPlayers ∨ LoopMeets s i (s.clients c).sock

instance (s : Server) (i : Nat) (sock : Int) : Decidable (LoopMeets s i sock) :=
  inferInstanceAs (Decidable
    (∃ j < (s.rooms i).game.nbSpectators, _ ∧ (∀ k < (s.rooms i).game.nbSpectators, _ → _ → _)
      ∧ (∀ k < (s.rooms i).game.nbSpectators, _ → _) ∧ _))

instance (s : Server) (c i e : Nat) : Decidable (DetachMeets s c i e) :=
  inferInstanceAs (Decidable (_ ∨ _))

/-- Behind the removed entry the loop reads what it would have read before. -/
theorem readAt_removed (hk : j < k) :
    readAt (setGame s i (removeSpectator (s.rooms i).game j)) k = readAt s k := by
  by_cases hki : k = i
  · subst hki
    rw [readAt, setGame_self, removeSpectator_of_ne (by omega)]
    rfl
  · rw [readAt, setGame_of_ne hki]
    rfl

/-- In the room of a spectator the disconnection is its spectator loop. -/
theorem disconnectUser_watcher (hfind : findRoom s (s.clients c).roomId = some i)
    (honly : ∀ k, Live s k → (s.rooms k).id = (s.clients c).roomId → k = i)
    (hnone : findPlayer (s.rooms i).game (s.clients c).sock = none) :
    disconnectUser s c
      = dropSpectators (s.clients c).sock i (s.rooms i).game.nbSpectators 0 s := by
  obtain ⟨hi, hid, -⟩ := findRoom_eq_some.mp hfind
  have hlt := live_iff.mp hi
  rw [disconnectUser_eq hfind, disconnectRooms, if_pos hid, hnone]
  dsimp only
  cases hdrop : dropSpectators (s.clients c).sock i (s.rooms i).game.nbSpectators 0 s with
  | error f => rfl
  | ok s₁ =>
      have hids : ∀ k, (s₁.rooms k).id = (s.rooms k).id :=
        dropSpectators_invariant (I := fun t => ∀ k, (t.rooms k).id = (s.rooms k).id)
          (fun t j ht _ _ k => (setGame_id t i _ k).trans (ht k)) _ _ (fun _ => rfl) hdrop
      refine disconnectRooms_skip fun k hk hidk => ?_
      obtain ⟨hge, hlt'⟩ := List.mem_range'_1.mp hk
      rw [hids k] at hidk
      have heq := honly k (live_iff.mpr (by omega)) hidk
      omega

/-- **THE SPECTATOR LOOP** takes exactly the spectator on `sock` out of the list just when it
    meets `LoopMeets`. -/
theorem dropSpectators_perm_iff (hj₀ : j₀ < (s.rooms i).game.nbSpectators)
    (hid : ((s.rooms i).game.players (2 + j₀)).id = sock)
    (honly : ∀ k < (s.rooms i).game.nbSpectators,
      ((s.rooms i).game.players (2 + k)).id = sock → k = j₀) :
    (∃ s', dropSpectators sock i (s.rooms i).game.nbSpectators 0 s = .ok s'
        ∧ (watchers (s'.rooms i).game).Perm
            ((watchers (s.rooms i).game).filter fun w => w.1 ≠ sock))
      ↔ LoopMeets s i sock := by
  have hsize := (perm_filter_watchers hj₀ hid honly).length_eq
  rw [List.length_cons] at hsize
  have hlen : ∀ t : Server, (watchers (t.rooms i).game).length = (t.rooms i).game.nbSpectators :=
    fun t => by rw [watchers, List.length_map, List.length_range]
  rw [hlen s] at hsize
  constructor
  · rintro ⟨s', h, hperm⟩
    have hcount := hperm.length_eq
    rw [hlen s'] at hcount
    rcases dropSpectators_cases _ 0 (by omega) h with
      ⟨rfl, -⟩ | ⟨j, fuel, -, hj, hhit, hbound, hbefore, hfuel, hrest⟩
    · omega
    -- one entry is gone, and a second removal would be one too many
    · have hgame : ((setGame s i (removeSpectator (s.rooms i).game j)).rooms i).game
          = removeSpectator (s.rooms i).game j := setGame_self ..
      have hless : ((setGame s i (removeSpectator (s.rooms i).game j)).rooms i).game.nbSpectators
          = (s.rooms i).game.nbSpectators - 1 := by
        rw [hgame]
        rfl
      rcases dropSpectators_cases fuel (j + 1) (by omega) hrest with
        ⟨rfl, hquiet⟩ | ⟨j', fuel', hle, hlt, -, -, -, -, hrest'⟩
      · rw [hgame] at hperm
        refine ⟨j, hj, hhit, fun k hk hread hkj => ?_, fun k hk hkj => ?_,
          (perm_removed_iff hj₀ hid honly hj).mp hperm⟩
        · have hjk : j < k := by
            by_contra hge
            exact hbefore k (Nat.zero_le k) (by omega) hread
          refine ⟨hjk, ?_⟩
          by_contra hend
          have hmiss := (hquiet k hjk (by omega)).2
          exact hmiss ((readAt_removed hjk).trans hread)
        · by_cases hjk : j < k
          · exact (hquiet k hjk (by omega)).1
          · exact hbound k (Nat.zero_le k) (by omega)
      · have hfew := dropSpectators_invariant
          (I := fun t => (t.rooms i).game.nbSpectators ≤ (s.rooms i).game.nbSpectators - 2)
          (fun t k ht _ _ => by
            rw [setGame_self]
            exact Nat.le_trans (Nat.sub_le ..) ht) fuel' (j' + 1)
          (by
            rw [setGame_self]
            show _ - 1 ≤ _
            omega) hrest'
        omega
  · rintro ⟨j, hj, hhit, hothers, htable, hremoves⟩
    have hgame : ((setGame s i (removeSpectator (s.rooms i).game j)).rooms i).game
        = removeSpectator (s.rooms i).game j := setGame_self ..
    have hless : ((setGame s i (removeSpectator (s.rooms i).game j)).rooms i).game.nbSpectators
        = (s.rooms i).game.nbSpectators - 1 := by
      rw [hgame]
      rfl
    refine ⟨setGame s i (removeSpectator (s.rooms i).game j), ?_, ?_⟩
    · -- up to the entry, over it, and on to the end of the shortened list
      have hsplit : (s.rooms i).game.nbSpectators
          = j + ((s.rooms i).game.nbSpectators - j - 1 + 1) := by omega
      have hbefore : dropSpectators sock i (j + ((s.rooms i).game.nbSpectators - j - 1 + 1)) 0 s
          = dropSpectators sock i ((s.rooms i).game.nbSpectators - j - 1 + 1) (0 + j) s :=
        dropSpectators_skip _ j 0 fun k _ hk => ⟨by omega, htable k (by omega) (by omega),
          fun hread => by
            have hjk := (hothers k (by omega) hread (by omega)).1
            omega⟩
      have hover : dropSpectators sock i ((s.rooms i).game.nbSpectators - j - 1 + 1) (0 + j) s
          = dropSpectators sock i ((s.rooms i).game.nbSpectators - j - 1) (j + 1)
              (setGame s i (removeSpectator (s.rooms i).game j)) := by
        have hslot := htable j hj (Or.inl rfl)
        have hread : ((s.rooms j).game.players (2 + j)).id = sock := hhit
        rw [Nat.zero_add, dropSpectators, if_pos hj, if_neg (by omega), if_pos hread]
      have hafter : dropSpectators sock i ((s.rooms i).game.nbSpectators - j - 1) (j + 1)
            (setGame s i (removeSpectator (s.rooms i).game j))
          = .ok (setGame s i (removeSpectator (s.rooms i).game j)) := by
        by_cases hlast : j + 1 = (s.rooms i).game.nbSpectators
        · exact dropSpectators_end _ (by omega)
        · have hfuel : (s.rooms i).game.nbSpectators - j - 1
              = (s.rooms i).game.nbSpectators - j - 2 + 1 := by omega
          rw [hfuel, dropSpectators_skip 1 _ (j + 1) fun k hk hlt => ⟨by omega,
            htable k (by omega) (by omega), fun hread => ?_⟩]
          · exact dropSpectators_end 1 (by omega)
          · have hread' : readAt s k = sock := (readAt_removed hk).symm.trans hread
            have hend := (hothers k (by omega) hread' (by omega)).2
            omega
      rw [hsplit, hbefore, hover, hafter]
    · rw [hgame]
      exact (perm_removed_iff hj₀ hid honly hj).mpr hremoves

/-- **DISCONNECTION OF A MEMBER.**  Where live rooms and member ids are distinct, the client is
    detached, and nobody else, exactly under `DetachMeets`. -/
theorem client_detached (hids : DistinctIds s) (hentries : DistinctEntries s)
    (htwo : (s.rooms i).game.nbPlayers ≤ 2) (hsock : (s.clients c).sock ≠ -1)
    (hmember : entry s i e = some (s.clients c).sock)
    (hroom : (s.rooms i).id = (s.clients c).roomId) :
    (∃ s', disconnectUser s c = .ok s' ∧ Detaches s c i e s') ↔ DetachMeets s c i e := by
  obtain ⟨hi, hmem, hid⟩ := entry_eq_some.mp hmember
  have honly : ∀ k, Live s k → (s.rooms k).id = (s.clients c).roomId → k = i :=
    fun k hk hidk => hids k (live_iff.mp hk) i (live_iff.mp hi) (hidk.trans hroom.symm)
  have hfind : findRoom s (s.clients c).roomId = some i := by
    refine findRoom_eq_some.mpr ⟨hi, hroom, fun k hk hidk => ?_⟩
    have hlive : Live s k := live_iff.mpr (Nat.lt_trans hk (live_iff.mp hi))
    exact Nat.ne_of_lt hk (honly k hlive hidk)
  have hown : ∀ e', MemberAt (s.rooms i).game e' →
      ((s.rooms i).game.players e').id = (s.clients c).sock → e' = e := fun e' he' hide' =>
    (hentries i e' i e _ hsock (entry_eq_some.mpr ⟨hi, he', hide'⟩) hmember).2
  by_cases hseat : e < (s.rooms i).game.nbPlayers
  · refine iff_of_true ?_ (Or.inl hseat)
    have hplayer : findPlayer (s.rooms i).game (s.clients c).sock = some e :=
      findPlayer_eq_some.mpr ⟨hseat, hid, fun k hk hidk =>
        Nat.ne_of_lt hk (hown k (Or.inl (Nat.lt_trans hk hseat)) hidk)⟩
    refine ⟨_, disconnectUser_player hfind hplayer, fun _ => rfl, fun h => absurd hseat (by omega),
      fun k e' he' => ?_⟩
    obtain ⟨hk, hmem', hid'⟩ := entry_eq_some.mp he'
    by_cases hki : k = i
    · subst hki
      rw [setGame_self] at hmem' hid'
      by_cases hee : e' = e
      · rw [hee, setPlayerId_self] at hid'
        exact hsock hid'.symm
      · rw [setPlayerId_of_ne hee] at hid'
        exact hee (hown e' hmem' hid')
    · rw [setGame_of_ne hki] at hmem' hid'
      exact hki (hentries k e' i e _ hsock (entry_eq_some.mpr ⟨hk, hmem', hid'⟩) hmember).1
  · obtain ⟨h2, hlt⟩ : 2 ≤ e ∧ e < 2 + (s.rooms i).game.nbSpectators := hmem.resolve_left hseat
    obtain ⟨j₀, rfl⟩ : ∃ j₀, e = 2 + j₀ := ⟨e - 2, by omega⟩
    have hj₀ : j₀ < (s.rooms i).game.nbSpectators := by omega
    have hmine : ∀ k < (s.rooms i).game.nbSpectators,
        ((s.rooms i).game.players (2 + k)).id = (s.clients c).sock → k = j₀ := by
      intro k hk hidk
      have heq := hown (2 + k) (Or.inr ⟨by omega, by omega⟩) hidk
      omega
    have hnone : findPlayer (s.rooms i).game (s.clients c).sock = none :=
      findPlayer_eq_none.mpr fun k hk hidk => hseat (hown k (Or.inl hk) hidk ▸ hk)
    rw [DetachMeets, or_iff_right hseat, ← dropSpectators_perm_iff hj₀ hid hmine,
      disconnectUser_watcher hfind honly hnone]
    refine exists_congr fun s' => and_congr_right fun hdrop => ⟨fun h => ?_, fun hperm => ?_⟩
    · exact (h.watching (Nat.le_of_not_lt hseat)).1
    · have hrest : OnlyWatchers s i s' :=
        dropSpectators_invariant (I := OnlyWatchers s i)
          (fun t j ht _ _ => ht.trans (onlyWatchers rfl rfl)) _ _ (.refl s i) hdrop
      refine ⟨fun h => absurd h hseat, fun _ => ⟨hperm, hrest⟩, fun k e' he' => ?_⟩
      obtain ⟨hk, hmem', hid'⟩ := entry_eq_some.mp he'
      have hk' : Live s k := by
        rw [Live, ← hrest.nbRooms]
        exact hk
      by_cases hki : k = i
      · subst hki
        rcases hmem' with he | ⟨h2', hlt'⟩
        · rw [hrest.nbPlayers] at he
          rw [hrest.seats e' (by omega)] at hid'
          exact hseat (hown e' (Or.inl he) hid' ▸ he)
        · -- a spectator that is left is not on the socket
          have hw : badge (s'.rooms k).game e' ∈ watchers (s'.rooms k).game :=
            mem_watchers.mpr ⟨e' - 2, by omega, by rw [Nat.add_sub_cancel' h2']⟩
          have hother := (List.mem_filter.mp (hperm.mem_iff.mp hw)).2
          rw [decide_eq_true_eq] at hother
          exact hother hid'
      · rw [hrest.rooms k hki] at hmem' hid'
        exact hki (hentries k e' i (2 + j₀) _ hsock (entry_eq_some.mpr ⟨hk', hmem', hid'⟩)
          hmember).1

/-- The one spectator of the first room disconnects. -/
theorem client_detached_first :
    ∃ s s', entry s 0 2 = some (s.clients 2).sock ∧ disconnectUser s 2 = .ok s'
      ∧ Detaches s 2 0 2 s' := by
  obtain ⟨s, -, hf⟩ := Guard.reaches (g := Guard.any)
    (f := fun s => decide (DistinctIds s ∧ DistinctEntries s ∧ (s.rooms 0).game.nbPlayers ≤ 2
      ∧ (s.clients 2).sock ≠ -1 ∧ entry s 0 2 = some (s.clients 2).sock
      ∧ (s.rooms 0).id = (s.clients 2).roomId ∧ DetachMeets s 2 0 2))
    (b := true) watchedRoom (by decide +kernel) (by decide +kernel)
  obtain ⟨hids, hentries, htwo, hsock, hmember, hroom, hmeets⟩ := of_decide_eq_true hf
  obtain ⟨s', h, hdetached⟩ :=
    (client_detached hids hentries htwo hsock hmember hroom).mpr hmeets
  exact ⟨s, s', hmember, h, hdetached⟩

/-- The one spectator of the second room disconnects: the loop looks for it in the first room,
    and its closed socket stays in the list. -/
theorem closed_socket_kept :
    ∃ s s', AwaleServer.Reachable Guard.any.meets s ∧ DistinctIds s ∧ DistinctEntries s
      ∧ entry s 1 2 = some (s.clients 2).sock ∧ (s.clients 2).sock = 6
      ∧ (s.rooms 1).id = (s.clients 2).roomId ∧ disconnectUser s 2 = .ok s'
      ∧ entry s' 1 2 = some 6 ∧ ¬ Detaches s 2 1 2 s' := by
  obtain ⟨s, hs, hf⟩ := Guard.reaches (g := Guard.any)
    (f := fun s => (decide (DistinctIds s ∧ DistinctEntries s
        ∧ entry s 1 2 = some (s.clients 2).sock ∧ (s.clients 2).sock = 6
        ∧ (s.rooms 1).id = (s.clients 2).roomId),
      (disconnectUser s 2).toOption.map fun s' => entry s' 1 2))
    (b := (true, some (some 6)))
    [.accept 4, .accept 5, .accept 6, .frame 0 Request.createRoom.body 7,
      .frame 1 Request.createRoom.body 8, .frame 2 (Request.joinRoom 8 1).body 0]
    (by decide +kernel) (by decide +kernel)
  obtain ⟨hd, ht⟩ := Prod.mk.inj hf
  obtain ⟨hids, hentries, hmember, hsock, hroom⟩ := of_decide_eq_true hd
  cases hdis : disconnectUser s 2 with
  | error f =>
      rw [hdis] at ht
      cases ht
  | ok s' =>
      rw [hdis] at ht
      have hkept : entry s' 1 2 = some 6 := Option.some.inj ht
      refine ⟨s, s', hs, hids, hentries, hmember, hsock, hroom, hdis, hkept, fun h => ?_⟩
      exact h.gone 1 2 (by rw [hkept, hsock])

end AwaleWatchers
