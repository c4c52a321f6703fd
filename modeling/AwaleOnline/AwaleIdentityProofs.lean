import AwaleOnline.AwaleRosterProofs

/-!
# Room identity

Every handler finds a room by its id, and a client without a room has the id `0`.  That this
works is a property of all live rooms together:

* **`Identity`** — the ids of the live rooms are different, and none is `0`;
* **`ActsOn`** — what acting on the room with id `r` means: the other rooms stay as they are, and
  frames go to the sender or to entries of that room;
* **`room_identity`** — both hold in every run under `identityGuard`, which asks that `rand()`
  never return `0` or the id of a live room, and that `handle_leave_room` and
  `handle_send_message` find nobody in the slot behind the last room.
-/

namespace AwaleIdentity

open AwaleGame AwaleProtocol AwaleServer AwaleEffect AwaleRoster

variable {s s' s₁ : Server} {c i : Nat} {r rand : UInt32} {q : Request} {out : List Sent}

/-! ## The live rooms -/

/-- The live rooms, in the order of their slots. -/
def liveRooms (s : Server) : List Room := (List.range s.nbRooms.toNat).map s.rooms

/-- The live rooms with another id than `r`. -/
def otherRooms (s : Server) (r : UInt32) : List Room :=
  (List.range s.nbRooms.toNat).filterMap fun k =>
    if (s.rooms k).id = r then none else some (s.rooms k)

/-- No live room has the id `r`. -/
def Absent (s : Server) (r : UInt32) : Prop := ∀ i, Live s i → (s.rooms i).id ≠ r

/-- The ids of the live rooms are different, and none is the one of a client in no room. -/
structure Identity (s : Server) : Prop where
  distinct : ∀ i, Live s i → ∀ k, Live s k → (s.rooms i).id = (s.rooms k).id → i = k
  nonzero : Absent s 0

theorem liveRooms_congr (hnb : s'.nbRooms = s.nbRooms)
    (h : ∀ k, Live s k → s'.rooms k = s.rooms k) : liveRooms s' = liveRooms s := by
  simp only [liveRooms]
  rw [hnb]
  exact List.map_congr_left fun k hk => h k (live_iff.mpr (List.mem_range.mp hk))

/-- Rewriting rooms with the id `r` leaves the others alone. -/
theorem otherRooms_congr (hnb : s'.nbRooms = s.nbRooms)
    (h : ∀ k, Live s k → s'.rooms k = s.rooms k
      ∨ ((s'.rooms k).id = r ∧ (s.rooms k).id = r)) :
    otherRooms s' r = otherRooms s r := by
  simp only [otherRooms]
  rw [hnb]
  refine List.filterMap_congr fun k hk => ?_
  rcases h k (live_iff.mpr (List.mem_range.mp hk)) with heq | ⟨h', hold⟩
  · rw [heq]
  · rw [if_pos h', if_pos hold]

theorem otherRooms_setGame (hid : (s.rooms i).id = r) (game : Game) :
    otherRooms (setGame s i game) r = otherRooms s r := by
  refine otherRooms_congr (by rfl) fun k _ => ?_
  by_cases hk : k = i
  · subst hk
    exact Or.inr ⟨(setGame_id s k game k).trans hid, hid⟩
  · exact Or.inl (setGame_of_ne hk game)

/-- So does deleting one. -/
theorem otherRooms_deleteRoom (hi : Live s i) (hid : (s.rooms i).id = r) :
    otherRooms (deleteRoom s i) r = otherRooms s r := by
  have hlt := live_iff.mp hi
  have hn : s.nbRooms.toNat = (s.nbRooms - 1).toNat + 1 := by omega
  let f : Nat → Option Room := fun k => if (s.rooms k).id = r then none else some (s.rooms k)
  have hfi : f i = none := if_pos hid
  calc otherRooms (deleteRoom s i) r
      = (List.range (s.nbRooms - 1).toNat).filterMap fun k => f (SlotArray.skip i k) := by
        refine List.filterMap_congr fun k hk => ?_
        have hread : (deleteRoom s i).rooms k = s.rooms (SlotArray.skip i k) :=
          SlotArray.shiftDown_skip s.rooms (List.mem_range.mp hk)
        rw [hread]
    _ = (List.range ((s.nbRooms - 1).toNat + 1)).filterMap f :=
        SlotArray.filterMap_skip (by omega) hfi
    _ = otherRooms s r := by rw [← hn]; rfl

/-! ## Acting on one room -/

/-- The descriptors in the table of room `i`. -/
def EntryOf (s : Server) (i : Nat) (x : Int) : Prop := ∃ e, x = ((s.rooms i).game.players e).id

/-- An event of client `c` acts on the room with id `r` only. -/
structure ActsOn (s s' : Server) (c : Nat) (r : UInt32) (out : List Sent) : Prop where
  /-- There is at most one such room. -/
  one : ∀ i, Live s i → (s.rooms i).id = r → ∀ k, Live s k → (s.rooms k).id = r → i = k
  /-- The other live rooms and their order stay as they are. -/
  others : otherRooms s' r = otherRooms s r
  /-- Frames go to the sender, or to entries of that room. -/
  frames : SentTo (fun x => x = (s.clients c).sock
    ∨ ∃ i, Live s i ∧ (s.rooms i).id = r ∧ EntryOf s i x) out
  /-- Without such a room nothing happens to any. -/
  absent : Absent s r → liveRooms s' = liveRooms s ∧ SentTo (· = (s.clients c).sock) out

theorem Identity.one (h : Identity s) (r : UInt32) (i : Nat) (hi : Live s i)
    (hid : (s.rooms i).id = r) (k : Nat) (hk : Live s k) (hkid : (s.rooms k).id = r) : i = k :=
  h.distinct i hi k hk (hid.trans hkid.symm)

/-- A room with id `r` exists, and only it is touched. -/
theorem actsOn_room (h : Identity s) (hi : Live s i) (hid : (s.rooms i).id = r)
    (hothers : otherRooms s' r = otherRooms s r)
    (hframes : SentTo (fun x => x = (s.clients c).sock ∨ EntryOf s i x) out) :
    ActsOn s s' c r out where
  one := h.one r
  others := hothers
  frames := hframes.mono fun _ hx => hx.imp_right fun hentry => ⟨i, hi, hid, hentry⟩
  absent hno := absurd hid (hno i hi)

/-- No live room is touched, and only the sender is answered. -/
theorem actsOn_none (h : Identity s) (hnb : s'.nbRooms = s.nbRooms)
    (hrooms : ∀ k, Live s k → s'.rooms k = s.rooms k)
    (hframes : SentTo (· = (s.clients c).sock) out) : ActsOn s s' c r out where
  one := h.one r
  others := otherRooms_congr hnb fun k hk => Or.inl (hrooms k hk)
  frames := hframes.mono fun _ => Or.inl
  absent _ := ⟨liveRooms_congr hnb hrooms, hframes⟩

/-! ### Where the frames of a room go -/

section Frames

variable {P : Int → Prop} {game : Game}

theorem sentTo_playedFrames (h : ∀ e, P (game.players e).id) : SentTo P (playedFrames game) :=
  sentTo_append (sentTo_flatMap fun j _ => sentTo_writeClient (Or.inr (h j)))
    (sentTo_flatMap fun j _ => sentTo_writeClient (Or.inr (h (2 + j))))

theorem sentTo_leaveFrames (j : Nat) (h : ∀ e, P (game.players e).id) :
    SentTo P (leaveFrames game j) := by
  refine sentTo_flatMap fun k _ => ?_
  split
  · exact sentTo_writeClient (Or.inr (h k))
  · exact sentTo_nil

theorem sentTo_messageFrames {sock : Int} {m : ServerMsg}
    (h : ∀ e, MemberAt game e → (game.players e).id = -1 ∨ (game.players e).id = sock
      ∨ P (game.players e).id) : SentTo P (messageFrames game sock m) := by
  have hentry : ∀ e, MemberAt game e → SentTo P (if (game.players e).id ≠ sock then
      writeClient (game.players e).id m else []) := by
    intro e he
    split
    · rename_i hne
      rcases h e he with hvacant | hown | hP
      · exact sentTo_writeClient (Or.inl hvacant)
      · exact absurd hown hne
      · exact sentTo_writeClient (Or.inr hP)
    · exact sentTo_nil
  refine sentTo_append (sentTo_flatMap fun j hj => ?_) (sentTo_flatMap fun j hj => ?_)
  · exact hentry j (Or.inl hj)
  · exact hentry (2 + j) (Or.inr ⟨by omega, by omega⟩)

theorem sentTo_replies {pos : UInt8} : SentTo (EntryOf s i) (replies s c i pos) := by
  obtain ⟨-, -, -, hsame⟩ := play_frame s c i pos
  have hentry : ∀ e, EntryOf s i ((playIn s c i pos).1.players e).id :=
    fun e => ⟨e, (hsame e).1⟩
  by_cases hvalid : (playIn s c i pos).2 = .validPlay
  · rw [replies_valid hvalid]
    exact sentTo_playedFrames hentry
  · rw [replies_rejected hvalid]
    exact sentTo_writeClient (Or.inr (hentry _))

/-- The newcomer apart, a joined room has the entries it had. -/
theorem sentTo_gameStarts {spectate : UInt8} :
    SentTo (fun x => x = (s.clients c).sock ∨ EntryOf s i x)
      (gameStarts (joinedGame s c i spectate)) := by
  refine sentTo_flatMap fun j _ => sentTo_writeClient (Or.inr ?_)
  by_cases hj : j = addIndex (s.rooms i).game (spectate ≠ 0)
  · rw [hj, joinedGame, gameAddPlayer_self]
    exact Or.inl rfl
  · rw [joinedGame, gameAddPlayer_of_ne hj]
    exact Or.inr ⟨j, rfl⟩

end Frames

/-! ## The condition -/

/-- The member entries of a table are vacant, or hold `sock`. -/
def Deserted (game : Game) (sock : Int) : Prop :=
  ∀ e < game.nbPlayers + (2 + game.nbSpectators), MemberAt game e →
    (game.players e).id = -1 ∨ (game.players e).id = sock

/-- `rand()` returns an id that no live room and no client without a room has; and a client
    whose room is not found is no player in the slot behind the last room when it leaves, and
    alone in it when it sends a message. -/
def identityGuard : Guard where
  accept _ _ := True
  request s c rand q :=
    match q with
    | .createRoom => rand ≠ 0 ∧ findRoom s rand = none
    | .leaveRoom => findRoom s (s.clients c).roomId = none →
        findPlayer (s.rooms s.nbRooms.toNat).game (s.clients c).sock = none
    | .sendMessage _ => findRoom s (s.clients c).roomId = none →
        Deserted (s.rooms s.nbRooms.toNat).game (s.clients c).sock
    | _ => True
  disconnect _ _ := True

instance (game : Game) (sock : Int) : Decidable (Deserted game sock) :=
  inferInstanceAs (Decidable (∀ e < _ + _, _ → _ ∨ _))

instance (s : Server) (csock : Int) : Decidable (identityGuard.accept s csock) :=
  inferInstanceAs (Decidable True)

instance (s : Server) (c : Nat) (rand : UInt32) (q : Request) :
    Decidable (identityGuard.request s c rand q) := by
  refine q.casesOn ?_ ?_ ?_ ?_ ?_ ?_ ?_ <;> intros <;> dsimp only [identityGuard] <;>
    infer_instance

instance (s : Server) (c : Nat) : Decidable (identityGuard.disconnect s c) :=
  inferInstanceAs (Decidable True)

/-- The id of the room a request is about. -/
def target (s : Server) (c : Nat) : Request → Option UInt32
  | .joinRoom roomId _ => some roomId
  | .play _ => some (s.clients c).roomId
  | .leaveRoom => some (s.clients c).roomId
  | .sendMessage _ => some (s.clients c).roomId
  | _ => none

/-- **ONE ROOM.**  A request about the room with id `r` acts on that room only. -/
theorem actsOn_request (h : Identity s) (hq : identityGuard.request s c rand q)
    (heff : Effect s c rand q s' out) (hr : r ∈ target s c q) : ActsOn s s' c r out := by
  have hanswer : ∀ m, SentTo (· = (s.clients c).sock) (writeClient (s.clients c).sock m) :=
    fun m => sentTo_writeClient (Or.inr rfl)
  have hown : ∀ {i} m, SentTo (fun x => x = (s.clients c).sock ∨ EntryOf s i x)
      (writeClient (s.clients c).sock m) :=
    fun m => (hanswer m).mono fun _ => Or.inl
  have htarget : ∀ {i}, targetRoom s (s.clients c).roomId = i → Live s i →
      (s.rooms i).id = (s.clients c).roomId := by
    rintro i rfl hi
    rcases targetRoom_cases s (s.clients c).roomId with hfind | ⟨-, hend⟩
    · exact (findRoom_eq_some.mp hfind).2.1
    · rw [hend] at hi
      exact absurd hi (not_live_end s)
  have hnone : ∀ {i}, targetRoom s (s.clients c).roomId = i → ¬ Live s i →
      findRoom s (s.clients c).roomId = none ∧ i = s.nbRooms.toNat := by
    rintro i rfl hi
    rcases targetRoom_cases s (s.clients c).roomId with hfind | hend
    · exact absurd (findRoom_eq_some.mp hfind).1 hi
    · exact hend
  cases heff with
  | nameRefused _ => cases hr
  | named _ _ => cases hr
  | resumed _ _ _ => cases hr
  | created _ _ => cases hr
  | joinNotFound _ => exact actsOn_none h rfl (fun _ _ => rfl) (hanswer _)
  | joinFull _ _ => exact actsOn_none h rfl (fun _ _ => rfl) (hanswer _)
  | @joined roomId spectate i frame hfind _ _ _ =>
      obtain rfl : roomId = r := Option.some.inj hr
      obtain ⟨hi, hid, -⟩ := findRoom_eq_some.mp hfind
      exact actsOn_room h hi hid (otherRooms_setGame hid _) (hown _)
  | @started roomId spectate i frame hfind _ _ _ =>
      obtain rfl : roomId = r := Option.some.inj hr
      obtain ⟨hi, hid, -⟩ := findRoom_eq_some.mp hfind
      rw [setGame_joined]
      exact actsOn_room h hi hid (otherRooms_setGame hid _)
        (sentTo_append (hown _) sentTo_gameStarts)
  | playedNowhere _ => exact actsOn_none h rfl (fun _ _ => rfl) sentTo_nil
  | @played pos i hfind _ =>
      obtain rfl : (s.clients c).roomId = r := Option.some.inj hr
      obtain ⟨hi, hid, -⟩ := findRoom_eq_some.mp hfind
      exact actsOn_room h hi hid (otherRooms_setGame hid _)
        (sentTo_replies.mono fun _ => Or.inr)
  | @playedLast pos i hfind _ =>
      obtain rfl : (s.clients c).roomId = r := Option.some.inj hr
      obtain ⟨hi, hid, -⟩ := findRoom_eq_some.mp hfind
      have hid' : ((setGame s i (playIn s c i pos).1).rooms i).id = (s.clients c).roomId :=
        (setGame_id s i _ i).trans hid
      obtain ⟨-, -, -, hsame⟩ := play_frame s c i pos
      have hlast : ∀ e m, SentTo (EntryOf s i)
          (writeClient ((playIn s c i pos).1.players e).id m) :=
        fun e m => sentTo_writeClient (Or.inr ⟨e, (hsame e).1⟩)
      refine actsOn_room h hi hid ?_ ?_
      · exact (otherRooms_deleteRoom (s := setGame s i (playIn s c i pos).1) hi hid').trans
          (otherRooms_setGame hid _)
      · refine SentTo.mono (P := EntryOf s i) ?_ fun _ => Or.inr
        exact sentTo_append (sentTo_append sentTo_replies (hlast 0 _)) (hlast 1 _)
  | @closed i j hi _ _ hp =>
      obtain rfl : (s.clients c).roomId = r := Option.some.inj hr
      by_cases hlive : Live s i
      · have hid := htarget hi hlive
        refine actsOn_room h hlive hid
          (otherRooms_deleteRoom (s := setRoomId s c 0) hlive hid) ?_
        exact sentTo_leaveFrames j fun e => Or.inr ⟨e, rfl⟩
      · -- the slot behind the last room would have to list the leaver
        obtain ⟨hfind, rfl⟩ := hnone hi hlive
        rw [hq hfind] at hp
        cases hp
  | @unwatched i j hi _ _ _ _ =>
      obtain rfl : (s.clients c).roomId = r := Option.some.inj hr
      by_cases hlive : Live s i
      · have hid := htarget hi hlive
        exact actsOn_room h hlive hid (otherRooms_setGame (s := setRoomId s c 0) hid _) sentTo_nil
      · refine actsOn_none h rfl (fun k hk => ?_) sentTo_nil
        have hki : k ≠ i := by
          rintro rfl
          exact hlive hk
        exact setGame_of_ne (s := setRoomId s c 0) hki _
  | leftNothing _ _ _ _ _ => exact actsOn_none h rfl (fun _ _ => rfl) sentTo_nil
  | @messaged message i hi _ =>
      obtain rfl : (s.clients c).roomId = r := Option.some.inj hr
      by_cases hlive : Live s i
      · refine actsOn_room h hlive (htarget hi hlive) rfl ?_
        exact sentTo_messageFrames fun e _ => Or.inr (Or.inr (Or.inr ⟨e, rfl⟩))
      · obtain ⟨hfind, rfl⟩ := hnone hi hlive
        refine actsOn_none h rfl (fun _ _ => rfl) (sentTo_messageFrames fun e he => ?_)
        have hlt : e < (s.rooms s.nbRooms.toNat).game.nbPlayers
            + (2 + (s.rooms s.nbRooms.toNat).game.nbSpectators) := by
          simp only [MemberAt] at he
          omega
        rcases hq hfind e hlt he with hvacant | hself
        · exact Or.inl hvacant
        · exact Or.inr (Or.inl hself)
  | described => cases hr

/-- A disconnection rewrites rooms with the client's id only. -/
theorem disconnectUser_elsewhere (h : disconnectUser s c = .ok s₁) :
    s₁.nbRooms = s.nbRooms ∧ (∀ k, (s₁.rooms k).id = (s.rooms k).id)
      ∧ ∀ k, (s.rooms k).id ≠ (s.clients c).roomId → s₁.rooms k = s.rooms k := by
  have hkeep : ∀ {t : Server} {i : Nat} {game : Game}, (t.rooms i).id = (s.clients c).roomId →
      (t.nbRooms = s.nbRooms ∧ (∀ k, (t.rooms k).id = (s.rooms k).id)
        ∧ ∀ k, (s.rooms k).id ≠ (s.clients c).roomId → t.rooms k = s.rooms k) →
      (setGame t i game).nbRooms = s.nbRooms
        ∧ (∀ k, ((setGame t i game).rooms k).id = (s.rooms k).id)
        ∧ ∀ k, (s.rooms k).id ≠ (s.clients c).roomId → (setGame t i game).rooms k = s.rooms k := by
    rintro t i game hid ⟨hnb, hids, hother⟩
    refine ⟨hnb, fun k => (setGame_id t i game k).trans (hids k), fun k hk => ?_⟩
    have hki : k ≠ i := by
      rintro rfl
      exact hk ((hids k).symm.trans hid)
    rw [setGame_of_ne hki]
    exact hother k hk
  exact disconnectUser_invariant
    (I := fun t => t.nbRooms = s.nbRooms ∧ (∀ k, (t.rooms k).id = (s.rooms k).id)
      ∧ ∀ k, (s.rooms k).id ≠ (s.clients c).roomId → t.rooms k = s.rooms k)
    (fun t ht => ht.1) (fun t i j ht _ hid _ => hkeep hid ht)
    (fun t i j ht _ hid _ _ => hkeep hid ht) ⟨rfl, fun _ => rfl, fun _ _ => rfl⟩ rfl rfl h

theorem actsOn_disconnect (h : Identity s) (hd : disconnectUser s c = .ok s₁) (b : Buffer) :
    ActsOn s { removeClient s₁ c with buffer := b } c (s.clients c).roomId [] := by
  obtain ⟨hnb, hids, hother⟩ := disconnectUser_elsewhere hd
  refine ⟨h.one _, ?_, sentTo_nil, fun hno => ⟨?_, sentTo_nil⟩⟩
  · refine otherRooms_congr hnb fun k _ => ?_
    by_cases hid : (s.rooms k).id = (s.clients c).roomId
    · exact Or.inr ⟨(hids k).trans hid, hid⟩
    · exact Or.inl (hother k hid)
  · exact liveRooms_congr hnb fun k hk => hother k (hno k hk)

/-! ## The ids over whole runs -/

theorem Identity.congr (h : Identity s) (hnb : s'.nbRooms = s.nbRooms)
    (hids : ∀ k, (s'.rooms k).id = (s.rooms k).id) : Identity s' where
  distinct i hi k hk hik := by
    rw [hids, hids] at hik
    exact h.distinct i ((live_congr hnb i).mp hi) k ((live_congr hnb k).mp hk) hik
  nonzero i hi := by
    rw [hids]
    exact h.nonzero i ((live_congr hnb i).mp hi)

theorem Identity.deleteRoom (h : Identity s) (i : Nat) : Identity (deleteRoom s i) where
  distinct a ha b hb hab := by
    obtain ⟨ha', hroom⟩ := live_deleteRoom ha
    obtain ⟨hb', hroom'⟩ := live_deleteRoom hb
    rw [hroom, hroom'] at hab
    exact SlotArray.skip_injective i (h.distinct _ ha' _ hb' hab)
  nonzero a ha := by
    obtain ⟨ha', hroom⟩ := live_deleteRoom ha
    rw [hroom]
    exact h.nonzero _ ha'

theorem Identity.create (h : Identity s) (hrand : rand ≠ 0) (hnew : Absent s rand) :
    Identity (created s c rand) := by
  have hid : ∀ k, ((created s c rand).rooms k).id
      = if k = s.nbRooms.toNat then rand else (s.rooms k).id := by
    intro k
    by_cases hk : k = s.nbRooms.toNat
    · rw [if_pos hk, hk, created_new]
      rfl
    · rw [if_neg hk, created_old c rand hk]
  constructor
  · intro a ha b hb hab
    rw [hid, hid] at hab
    by_cases hae : a = s.nbRooms.toNat
    · by_cases hbe : b = s.nbRooms.toNat
      · rw [hae, hbe]
      · rw [if_pos hae, if_neg hbe] at hab
        exact absurd hab.symm (hnew b (live_of_lt_succ hb hbe))
    · by_cases hbe : b = s.nbRooms.toNat
      · rw [if_neg hae, if_pos hbe] at hab
        exact absurd hab (hnew a (live_of_lt_succ ha hae))
      · rw [if_neg hae, if_neg hbe] at hab
        exact h.distinct a (live_of_lt_succ ha hae) b (live_of_lt_succ hb hbe) hab
  · intro a ha
    rw [hid]
    split
    · exact hrand
    · rename_i hae
      exact h.nonzero a (live_of_lt_succ ha hae)

theorem Identity.request (h : Identity s) (hq : identityGuard.request s c rand q)
    (heff : Effect s c rand q s' out) : Identity s' := by
  have hset : ∀ (u : Server) i game, u.rooms = s.rooms → u.nbRooms = s.nbRooms →
      Identity (setGame u i game) := by
    intro u i game hrooms hnb
    refine h.congr hnb fun k => (setGame_id u i game k).trans ?_
    rw [hrooms]
  cases heff with
  | nameRefused _ => exact h
  | named _ _ => exact h.congr rfl fun _ => rfl
  | @resumed name i j m _ _ _ =>
      exact (hset s i (setPlayerId (s.rooms i).game j (s.clients c).sock) rfl rfl).congr rfl
        fun _ => rfl
  | created _ _ => exact h.create hq.1 (findRoom_eq_none.mp hq.2)
  | joinNotFound _ => exact h
  | joinFull _ _ => exact h
  | @joined roomId spectate i _ _ _ _ _ =>
      exact (hset s i (joinedGame s c i spectate) rfl rfl).congr rfl fun _ => rfl
  | @started roomId spectate i _ _ _ _ _ =>
      rw [setGame_joined]
      exact (hset s i { joinedGame s c i spectate with isStarted := true } rfl rfl).congr rfl
        fun _ => rfl
  | playedNowhere _ => exact h
  | played _ _ => exact hset s _ _ rfl rfl
  | playedLast _ _ => exact Identity.deleteRoom (hset s _ _ rfl rfl) _
  | @closed i _ _ _ _ _ =>
      have hleft : Identity (setRoomId s c 0) := h.congr rfl fun _ => rfl
      exact hleft.deleteRoom i
  | unwatched _ _ _ _ _ => exact hset (setRoomId s c 0) _ _ rfl rfl
  | leftNothing _ _ _ _ _ => exact h.congr rfl fun _ => rfl
  | messaged _ _ => exact h
  | described => exact h.congr rfl fun _ => rfl

theorem identity_reachable (h : Reachable identityGuard.meets s) : Identity s := by
  refine Guard.invariant ?_ ?_ ?_ ?_ ?_ h
  · intro b
    have hdead := not_live_of_le (s := initial b) (Int.le_refl 0)
    exact ⟨fun i hi => absurd hi (hdead i), fun i hi => absurd hi (hdead i)⟩
  · intro t b ht
    exact ht.congr rfl fun _ => rfl
  · intro t csock ht _ _ _ _
    exact ht.congr rfl fun _ => rfl
  · intro t c rand q t' out ht _ hq heff
    exact ht.request hq heff
  · intro t c t₁ ht _ _ hd
    obtain ⟨hnb, hids, -⟩ := disconnectUser_elsewhere hd
    exact ht.congr hnb hids

/-- What an event may do to the rooms. -/
def EventLaw (s : Server) : Event → Server → List Sent → Prop
  | .accept _, s', out => liveRooms s' = liveRooms s ∧ out = []
  | .frame c body _, s', out => ∀ q, readRequest (received s body).buffer = some q →
      ∀ r ∈ target s c q, ActsOn s s' c r out
  | .disconnect c, s', out => ActsOn s s' c (s.clients c).roomId out

/-- **ROOM IDENTITY.**  In every state reached under `identityGuard` the ids of the live rooms
    are different and not `0`; and every event that meets the guard acts on the one room whose id
    the request names or the client holds, and on none for a client without a room. -/
theorem room_identity (h : Reachable identityGuard.meets s) :
    Identity s ∧ ∀ e s' out, identityGuard.meets s e →
      AwaleServer.trans s e = some (s', out) → EventLaw s e s' out := by
  have hid := identity_reachable h
  refine ⟨hid, ?_⟩
  intro e s' out hg htr
  have hout := step_cases (trans_eq_some htr).2
  cases e with
  | accept csock =>
      obtain ⟨-, rfl, rfl⟩ := hout
      exact ⟨rfl, rfl⟩
  | frame c body rand =>
      intro q hq r hr
      obtain ⟨-, ⟨hnone, -, -⟩ | ⟨q', hq', heff⟩⟩ := hout
      · rw [hnone] at hq
        cases hq
      · obtain rfl : q' = q := Option.some.inj (hq'.symm.trans hq)
        have hreceived : Identity (received s body) := hid.congr rfl fun _ => rfl
        obtain ⟨h1, h2, h3, h4⟩ :=
          actsOn_request hreceived (Guard.meets_frame.mp hg q' hq) heff hr
        exact ⟨h1, h2, h3, h4⟩
  | disconnect c =>
      obtain ⟨s₁, hd, rfl, rfl⟩ := hout
      exact actsOn_disconnect hid hd _

/-- Two rooms are opened, one gets a second player, who plays and leaves; a client in no room
    sends a message and leaves. -/
def twoRooms : List Event :=
  [.accept 4, .accept 5, .accept 6, .accept 8, .frame 0 Request.createRoom.body 7,
    .frame 1 Request.createRoom.body 9, .frame 2 (Request.joinRoom 9 0).body 0,
    .frame 1 (Request.play 0).body 0, .frame 3 (Request.sendMessage (literal "m")).body 0,
    .frame 3 Request.leaveRoom.body 0, .frame 2 Request.leaveRoom.body 0,
    .frame 1 Request.createRoom.body 9]

theorem room_identity_two_rooms :
    ∃ s : Server, (s.nbRooms, (s.rooms 0).id, (s.rooms 1).id) = (2, 7, 9) ∧ Identity s
      ∧ ∀ e s' out, identityGuard.meets s e →
        AwaleServer.trans s e = some (s', out) → EventLaw s e s' out := by
  obtain ⟨s, hs, hf⟩ := Guard.reaches (g := identityGuard)
    (f := fun s => (s.nbRooms, (s.rooms 0).id, (s.rooms 1).id)) (b := (2, 7, 9)) twoRooms
    (by decide +kernel) (by decide +kernel)
  exact ⟨s, hf, room_identity hs⟩

/-- `rand()` returns the same value twice. -/
theorem same_id_twice : ¬ ∀ s, Reachable Guard.any.meets s → Identity s := by
  intro h
  obtain ⟨s, hs, hf⟩ := Guard.reaches (g := Guard.any)
    (f := fun s => (s.nbRooms, (s.rooms 0).id, (s.rooms 1).id)) (b := (2, 7, 7))
    [.accept 4, .accept 5, .frame 0 Request.createRoom.body 7,
      .frame 1 Request.createRoom.body 7] (by decide +kernel) (by decide +kernel)
  simp only [Prod.mk.injEq] at hf
  obtain ⟨hnb, h0, h1⟩ := hf
  have hlive : ∀ i : Nat, i < 2 → Live s i := fun i hi => by
    simp only [Live]
    omega
  have hsame := (h s hs).distinct 0 (hlive 0 (by decide)) 1 (hlive 1 (by decide)) (h0.trans h1.symm)
  exact absurd hsame (by decide)

end AwaleIdentity
