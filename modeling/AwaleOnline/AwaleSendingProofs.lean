import AwaleOnline.AwaleStandingProofs

/-!
# Who is written to

A handler calls `write_client` for entries of a room, and the first call whose `send` fails ends
the server.

* **`memberIds`**, **`others`**, **`toldIds`** — the descriptors the loops of the handlers write to;
* **`SendsOpen`** — the entries a request writes to are `-1` or open, in the state before it;
* **`opened_iff`** — every `send` of a request succeeds just when they are.
-/

namespace AwaleSending

open AwaleGame AwaleProtocol AwaleServer AwaleEffect AwaleBounds AwaleRoster

variable {s s' : Server} {c i j : Nat} {rand : UInt32} {q : Request} {sock x : Int} {game : Game}
  {m : ServerMsg} {out : List Sent}

/-! ## The entries of a room -/

/-- The ids of the member entries: the seats taken, then the spectators. -/
def memberIds (game : Game) : List Int :=
  ((List.range game.nbPlayers).map fun j => (game.players j).id)
    ++ (List.range game.nbSpectators).map fun j => (game.players (2 + j)).id

theorem mem_memberIds : x ∈ memberIds game ↔ ∃ e, MemberAt game e ∧ (game.players e).id = x := by
  simp only [memberIds, List.mem_append, List.mem_map, List.mem_range]
  constructor
  · rintro (⟨e, he, rfl⟩ | ⟨e, he, rfl⟩)
    · exact ⟨e, Or.inl he, rfl⟩
    · exact ⟨2 + e, Or.inr ⟨by omega, by omega⟩, rfl⟩
  · rintro ⟨e, he | ⟨h2, he⟩, rfl⟩
    · exact Or.inl ⟨e, he, rfl⟩
    · have hself : 2 + (e - 2) = e := by omega
      exact Or.inr ⟨e - 2, by omega, by rw [hself]⟩

/-- The connected members of a room but `sock`, as the loops list them. -/
def others (game : Game) (sock : Int) : List Int :=
  (memberIds game).filter fun x => x ≠ -1 ∧ x ≠ sock

theorem mem_others : x ∈ others game sock ↔ x ∈ memberIds game ∧ x ≠ -1 ∧ x ≠ sock := by
  simp [others]

/-- The connected sockets in the entries `handle_leave_room` runs over: the first
    `nb_players + nb_spectators`, but the leaver's `j`. -/
def toldIds (game : Game) (j : Nat) : List Int :=
  ((List.range (game.nbPlayers + game.nbSpectators)).filter
    fun k => k ≠ j ∧ (game.players k).id ≠ -1).map fun k => (game.players k).id

theorem mem_toldIds : x ∈ toldIds game j
    ↔ ∃ k < game.nbPlayers + game.nbSpectators, k ≠ j ∧ x ≠ -1 ∧ (game.players k).id = x := by
  simp only [toldIds, List.mem_map, List.mem_filter, List.mem_range, decide_eq_true_eq]
  constructor
  · rintro ⟨k, ⟨hk, hkj, hne⟩, rfl⟩
    exact ⟨k, hk, hkj, hne, rfl⟩
  · rintro ⟨k, hk, hkj, hne, rfl⟩
    exact ⟨k, ⟨hk, hkj, hne⟩, rfl⟩

/-- The room `handle_leave_room` and `handle_send_message` work on. -/
def homeOf (s : Server) (c : Nat) : Game := (s.rooms (targetRoom s (s.clients c).roomId)).game

/-! ## The loops -/

theorem opened_writeClient : Opened s (writeClient x m) ↔ Writable s x := sentTo_writeClient_iff

theorem opened_append {out' : List Sent} :
    Opened s (out ++ out') ↔ Opened s out ∧ Opened s out' := sentTo_append_iff

/-- One frame for each member entry. -/
theorem forall_memberIds {P : Int → Prop} : (∀ x ∈ memberIds game, P x)
    ↔ (∀ j < game.nbPlayers, P (game.players j).id)
      ∧ ∀ j < game.nbSpectators, P (game.players (2 + j)).id := by
  simp only [memberIds, List.forall_mem_append, List.forall_mem_map, List.mem_range]

theorem opened_played :
    Opened s (playedFrames game) ↔ ∀ x ∈ memberIds game, Writable s x := by
  rw [playedFrames, opened_append, Opened, Opened, sentTo_flatMap_iff, sentTo_flatMap_iff,
    forall_memberIds]
  refine and_congr ?_ ?_
  · exact forall₂_congr fun j _ => sentTo_writeClient_iff
  · exact forall₂_congr fun j _ => sentTo_writeClient_iff

theorem opened_message :
    Opened s (messageFrames game sock m) ↔ ∀ x ∈ others game sock, Open s x := by
  have hone : ∀ y : Int, SentTo (Open s) (if y ≠ sock then writeClient y m else [])
      ↔ (y ≠ -1 ∧ y ≠ sock → Open s y) := by
    intro y
    by_cases hy : y = sock
    · rw [if_neg (not_not.mpr hy)]
      exact iff_of_true sentTo_nil fun h => absurd hy h.2
    · rw [if_pos hy, sentTo_writeClient_iff, and_iff_left hy, or_iff_not_imp_left]
  have hall : (∀ x ∈ others game sock, Open s x)
      ↔ ∀ x ∈ memberIds game, x ≠ -1 ∧ x ≠ sock → Open s x := by
    simp only [mem_others, and_imp]
  rw [hall, messageFrames, opened_append, Opened, Opened, sentTo_flatMap_iff, sentTo_flatMap_iff,
    forall_memberIds]
  exact and_congr (forall₂_congr fun j _ => hone _) (forall₂_congr fun j _ => hone _)

theorem opened_leave : Opened s (leaveFrames game j) ↔ ∀ x ∈ toldIds game j, Open s x := by
  rw [leaveFrames, Opened, sentTo_flatMap_iff]
  constructor
  · intro h x hx
    obtain ⟨k, hk, hkj, hne, rfl⟩ := mem_toldIds.mp hx
    have hsent := h k hk
    rw [if_pos hkj, sentTo_writeClient_iff] at hsent
    exact hsent.resolve_left hne
  · intro h k hk
    by_cases hkj : k ≠ j
    · rw [if_pos hkj, sentTo_writeClient_iff, or_iff_not_imp_left]
      exact fun hne => h _ (mem_toldIds.mpr ⟨k, hk, hkj, hne, rfl⟩)
    · rw [if_neg hkj]
      exact sentTo_nil

/-- A move seats nobody. -/
theorem playIn_members (s : Server) (c i : Nat) (pos : UInt8) :
    memberIds (playIn s c i pos).1 = memberIds (s.rooms i).game := by
  obtain ⟨hn, hspec, -, hperson⟩ := play_frame s c i pos
  simp only [memberIds]
  rw [hn, hspec]
  congr 1
  · exact List.map_congr_left fun e _ => (hperson e).1
  · exact List.map_congr_left fun e _ => (hperson (2 + e)).1

/-- The answers to a PLAY: to all members, or to the seat of the side that is inferred. -/
theorem opened_replies (s : Server) (c i : Nat) (pos : UInt8) : Opened s (replies s c i pos)
    ↔ ((playIn s c i pos).2 = .validPlay → ∀ x ∈ memberIds (s.rooms i).game, Writable s x)
      ∧ ((playIn s c i pos).2 ≠ .validPlay →
        Writable s ((s.rooms i).game.players (sideIn s c i)).id) := by
  by_cases hvalid : (playIn s c i pos).2 = .validPlay
  · rw [replies_valid hvalid, opened_played, playIn_members, imp_iff_right hvalid,
      and_iff_left fun h => absurd hvalid h]
  · have hid : ((playIn s c i pos).1.players (sideIn s c i)).id
        = ((s.rooms i).game.players (sideIn s c i)).id := ((play_frame s c i pos).2.2.2 _).1
    rw [replies_rejected hvalid, opened_writeClient, hid, imp_iff_right hvalid,
      and_iff_right fun h => absurd h hvalid]

/-! ## A request -/

/-- Every entry that a request writes to is `-1` or open. -/
def SendsOpen (s : Server) (c : Nat) : Request → Prop
  | .joinRoom roomId spectate => ∀ i ∈ findRoom s roomId,
      spectate = 0 ∧ (s.rooms i).game.nbPlayers = 1 → Writable s ((s.rooms i).game.players 0).id
  | .play pos => ∀ i ∈ findRoom s (s.clients c).roomId,
      ((playIn s c i pos).2 = .validPlay → ∀ x ∈ memberIds (s.rooms i).game, Writable s x)
      ∧ ((playIn s c i pos).2 ≠ .validPlay →
        Writable s ((s.rooms i).game.players (sideIn s c i)).id)
      ∧ (gameIsEnded (playIn s c i pos).1 ≠ .notEnded →
        ∀ e < 2, Writable s ((s.rooms i).game.players e).id)
  | .leaveRoom => ∀ j ∈ findPlayer (homeOf s c) (s.clients c).sock,
      ∀ x ∈ toldIds (homeOf s c) j, Open s x
  | .sendMessage _ => ∀ x ∈ others (homeOf s c) (s.clients c).sock, Open s x
  | _ => True

instance (s : Server) (c : Nat) (q : Request) : Decidable (SendsOpen s c q) := by
  refine q.casesOn ?_ ?_ ?_ ?_ ?_ ?_ ?_ <;> intros <;> dsimp only [SendsOpen] <;> infer_instance

/-- The game of a room that a second player joins starts, and both are told. -/
theorem opened_starts (hc : c < s.nbClients) {spectate : UInt8}
    (hgo : spectate = 0 ∧ (s.rooms i).game.nbPlayers = 1) :
    Opened s (gameStarts (joinedGame s c i spectate))
      ↔ Writable s ((s.rooms i).game.players 0).id := by
  obtain ⟨rfl, hone⟩ := hgo
  have hn : (joinedGame s c i 0).nbPlayers = 2 := congrArg (· + 1) hone
  have hindex : addIndex (s.rooms i).game ((0 : UInt8) ≠ 0) = 1 := hone
  have hnew : ((joinedGame s c i 0).players 1).id = (s.clients c).sock := by
    show (Function.update (s.rooms i).game.players _ _ 1).id = _
    rw [hindex, Function.update_self]
    rfl
  have hold : (joinedGame s c i 0).players 0 = (s.rooms i).game.players 0 :=
    gameAddPlayer_of_ne (by rw [hindex]; decide)
  rw [gameStarts, Opened, sentTo_flatMap_iff, hn]
  constructor
  · intro h
    have hfirst := sentTo_writeClient_iff.mp (h 0 Nat.zero_lt_two)
    rw [hold] at hfirst
    exact hfirst
  · intro h e he
    refine sentTo_writeClient ?_
    rcases Nat.lt_succ_iff_lt_or_eq.mp he with hlt | rfl
    · rw [Nat.lt_one_iff.mp hlt, hold]
      exact h
    · rw [hnew]
      exact Or.inr (open_own hc)

/-- **THE SENDS OF A REQUEST** succeed just when what it writes to is open. -/
theorem opened_iff (hsized : ∀ k, Sized (s.rooms k).game)
    (hfounded : ∀ k, Live s k → 0 < (s.rooms k).game.nbPlayers) (hc : c < s.nbClients)
    (heff : Effect s c rand q s' out) : Opened s out ↔ SendsOpen s c q := by
  have hself : ∀ {P : Prop} (m : ServerMsg), P →
      (Opened s (writeClient (s.clients c).sock m) ↔ P) :=
    fun m hP => iff_of_true (opened_own hc m) hP
  cases heff with
  | nameRefused _ => exact hself _ trivial
  | named _ _ => exact hself _ trivial
  | resumed _ _ _ => exact hself _ trivial
  | created _ _ => exact hself _ trivial
  | joinNotFound hnone =>
      refine hself _ fun i hi => ?_
      rw [hnone] at hi
      cases hi
  | joinFull hfind hfull =>
      refine hself _ fun i hi hgo => ?_
      obtain rfl := Option.some.inj (hfind.symm.trans hi)
      have hmax : maxGamePlayers = 1024 := rfl
      omega
  | @joined roomId spectate i frame hfind _ _ hno =>
      refine hself _ fun i' hi hgo => ?_
      obtain rfl := Option.some.inj (hfind.symm.trans hi)
      have hpos := hfounded i (findRoom_eq_some.mp hfind).1
      exact absurd (((hsized i).join_starts hpos _ _).mpr hgo) hno
  | @started roomId spectate i frame hfind _ _ hgo =>
      have hpos := hfounded i (findRoom_eq_some.mp hfind).1
      have hgo' := ((hsized i).join_starts hpos _ _).mp hgo
      rw [opened_append, and_iff_right (opened_own hc frame), opened_starts hc hgo']
      constructor
      · intro h i' hi _
        obtain rfl := Option.some.inj (hfind.symm.trans hi)
        exact h
      · intro h
        exact h i hfind hgo'
  | playedNowhere hnone =>
      refine iff_of_true (opened_nil s) fun i hi => ?_
      rw [hnone] at hi
      cases hi
  | @played pos i hfind hopen =>
      rw [opened_replies]
      constructor
      · intro h i' hi
        obtain rfl := Option.some.inj (hfind.symm.trans hi)
        exact ⟨h.1, h.2, fun hend => absurd hopen hend⟩
      · intro h
        exact ⟨(h i hfind).1, (h i hfind).2.1⟩
  | @playedLast pos i hfind hend =>
      have hid : ∀ e, ((playIn s c i pos).1.players e).id = ((s.rooms i).game.players e).id :=
        fun e => ((play_frame s c i pos).2.2.2 e).1
      rw [opened_append, opened_append, opened_replies, opened_writeClient, opened_writeClient,
        hid, hid]
      constructor
      · rintro ⟨⟨hreplies, h0⟩, h1⟩ i' hi
        obtain rfl := Option.some.inj (hfind.symm.trans hi)
        refine ⟨hreplies.1, hreplies.2, fun _ e he => ?_⟩
        rcases Nat.lt_succ_iff_lt_or_eq.mp he with hlt | rfl
        · exact Nat.lt_one_iff.mp hlt ▸ h0
        · exact h1
      · intro h
        obtain ⟨hvalid, hrejected, hseats⟩ := h i hfind
        exact ⟨⟨⟨hvalid, hrejected⟩, hseats hend 0 Nat.zero_lt_two⟩, hseats hend 1 Nat.one_lt_two⟩
  | @closed i j hi _ _ hp =>
      subst hi
      rw [opened_leave]
      constructor
      · intro h j' hj'
        obtain rfl := Option.some.inj (hp.symm.trans hj')
        exact h
      · intro h
        exact h j hp
  | @unwatched i j hi _ _ hp _ =>
      subst hi
      refine iff_of_true (opened_nil s) fun j' hj' => ?_
      have hnone : findPlayer (homeOf s c) (s.clients c).sock = none := hp
      rw [hnone] at hj'
      cases hj'
  | @leftNothing i hi _ _ hp _ =>
      subst hi
      refine iff_of_true (opened_nil s) fun j' hj' => ?_
      have hnone : findPlayer (homeOf s c) (s.clients c).sock = none := hp
      rw [hnone] at hj'
      cases hj'
  | @messaged message i hi _ =>
      subst hi
      exact opened_message
  | described => exact iff_of_true (opened_nil s) trivial

end AwaleSending
