import AwaleOnline.AwaleChatProofs
import AwaleOnline.AwaleViewProofs

/-!
# Rejected moves

`handle_play` answers a rejected move to the entry of the side it has inferred, and then runs the
end test of the game on the room as it is.

* **`rejected_play`** — what `handle_play` does with a rejected move;
* **`rejection`** — it changes nothing and answers its sender exactly when the sender's socket
  stands in one of the first two entries and the counts there end no game.
-/

namespace AwaleRejection

open AwaleGame AwaleProtocol AwaleServer AwaleEffect AwaleBounds AwaleRoster AwaleSystem
  AwaleStanding AwaleChat AwaleCodec AwaleView

variable {s s' : Server} {c i : Nat} {p : UInt8} {rand : UInt32} {out : List Sent}

/-- The frame is stored in the receive buffer, and otherwise answered only, to its sender. -/
def Refused (s : Server) (c i : Nat) (p : UInt8) (rand : UInt32) : Prop :=
  AwaleServer.trans s (.frame c (Request.play p).body rand)
    = some (received s (Request.play p).body,
        [((s.clients c).sock, .invalidPlay (invalidPlayText (playIn s c i p).2))])

/-- The sender holds a seat entry, and the game of the room is not over. -/
def RefusalMeets (s : Server) (c i : Nat) : Prop :=
  (((s.rooms i).game.players 0).id = (s.clients c).sock
      ∨ ((s.rooms i).game.players 1).id = (s.clients c).sock)
    ∧ gameIsEnded (s.rooms i).game = .notEnded

instance (s : Server) (c i : Nat) : Decidable (RefusalMeets s c i) :=
  inferInstanceAs (Decidable (_ ∧ _))

theorem setGame_same (s : Server) (i : Nat) : setGame s i (s.rooms i).game = s := by
  have hrooms : Function.update s.rooms i { s.rooms i with game := (s.rooms i).game } = s.rooms :=
    Function.update_eq_self i s.rooms
  rw [setGame, setRoom, hrooms]

/-- **A REJECTED MOVE.**  No frame but the reply, and no change, unless the game is over. -/
theorem rejected_play (hfind : findRoom s (s.clients c).roomId = some i)
    (hrej : (playIn s c i p).2 ≠ .validPlay)
    (hopen : gameIsEnded (s.rooms i).game = .notEnded) :
    handlePlay s c p = .ok (s, writeClient ((s.rooms i).game.players (sideIn s c i)).id
      (.invalidPlay (invalidPlayText (playIn s c i p).2))) := by
  have hgame := playIn_rejected hrej
  rw [handlePlay_eq hfind, hgame, if_neg (not_not.mpr hopen), setGame_same, replies_rejected hrej,
    hgame]

/-- In a game that is over the move closes the room. -/
theorem rejected_over (hfind : findRoom s (s.clients c).roomId = some i)
    (hrej : (playIn s c i p).2 ≠ .validPlay)
    (hend : gameIsEnded (s.rooms i).game ≠ .notEnded)
    (h : handlePlay s c p = .ok (s', out)) : s'.nbRooms = s.nbRooms - 1 := by
  rw [handlePlay_eq hfind, playIn_rejected hrej, if_pos hend] at h
  split at h
  · cases h
  · cases h
    rfl

theorem writeClient_eq_iff {x y : Int} {m : ServerMsg} (hy : y ≠ -1) :
    writeClient x m = [(y, m)] ↔ x = y := by
  constructor
  · intro h
    have hmem : (y, m) ∈ writeClient x m := by
      rw [h]
      exact List.mem_singleton.mpr rfl
    exact (Prod.mk.inj (mem_writeClient.mp hmem).2).1.symm
  · rintro rfl
    exact if_pos hy

/-- **REJECTION.**  In every reachable state a PLAY that `game_play` rejects changes nothing and is
    answered to its sender alone, exactly under `RefusalMeets`. -/
theorem rejection (hr : AwaleServer.Reachable Guard.any.meets s)
    (hp : Possible s (.frame c (Request.play p).body rand))
    (hfind : findRoom s (s.clients c).roomId = some i)
    (hrej : (playIn s c i p).2 = .outOfBounds ∨ (playIn s c i p).2 = .emptyHouse) :
    Refused s c i p rand ↔ RefusalMeets s c i := by
  have hsock : (s.clients c).sock ≠ -1 := connected_reachable hr hp.1
  have hrej' : (playIn s c i p).2 ≠ .validPlay := by
    rcases hrej with h | h
    · rw [h]
      decide
    · rw [h]
      decide
  have hfind' : findRoom (received s (Request.play p).body)
      ((received s (Request.play p).body).clients c).roomId = some i := hfind
  have hstep : step s (.frame c (Request.play p).body rand)
      = handlePlay (received s (Request.play p).body) c p := step_play s c p rand
  by_cases hopen : gameIsEnded (s.rooms i).game = .notEnded
  · have hplay := rejected_play (p := p) hfind' hrej' hopen
    have hown : Opened s [((s.clients c).sock, .invalidPlay (invalidPlayText (playIn s c i p).2))] :=
      List.forall_mem_singleton.mpr (open_own hp.1)
    rw [RefusalMeets, and_iff_left hopen, ← sideIn_seated, Refused, trans_iff, and_iff_right hp,
      and_iff_left hown, hstep, hplay, Except.ok.injEq, Prod.mk.injEq, and_iff_right rfl]
    exact writeClient_eq_iff hsock
  · refine iff_of_false (fun h => ?_) fun h => hopen h.2
    have hs := (trans_eq_some h).2
    rw [hstep] at hs
    have hclosed : (received s (Request.play p).body).nbRooms
        = (received s (Request.play p).body).nbRooms - 1 := rejected_over hfind' hrej' hopen hs
    have hnb : s.nbRooms = s.nbRooms - 1 := hclosed
    omega

/-- Two players and a spectator. -/
def watchedRoom : List Event :=
  [.accept 4, .accept 5, .accept 6, .frame 0 Request.createRoom.body 7,
    .frame 1 (Request.joinRoom 7 0).body 0, .frame 2 (Request.joinRoom 7 1).body 0]

/-- The first player names a house of the other row. -/
theorem rejection_player :
    ∃ s, Member s 0 (s.clients 0).sock ∧ (playIn s 0 0 6).2 = .outOfBounds
      ∧ Refused s 0 0 6 0 := by
  obtain ⟨s, hs, hf⟩ := Guard.reaches (g := Guard.any)
    (f := fun s => decide (Possible s (.frame 0 (Request.play 6).body 0)
      ∧ findRoom s (s.clients 0).roomId = some 0 ∧ Member s 0 (s.clients 0).sock
      ∧ (playIn s 0 0 6).2 = .outOfBounds ∧ RefusalMeets s 0 0))
    (b := true) watchedRoom (by decide +kernel) (by decide +kernel)
  obtain ⟨hp, hfind, hmem, hrej, hmeets⟩ := of_decide_eq_true hf
  exact ⟨s, hmem, hrej, (rejection hs hp hfind (Or.inl hrej)).mpr hmeets⟩

/-- A spectator tries to play: the second player is told that its move is invalid. -/
theorem spectator_refused :
    ∃ s, AwaleServer.Reachable Guard.any.meets s
      ∧ Possible s (.frame 2 (Request.play 6).body 0)
      ∧ Member s 0 (s.clients 2).sock ∧ (playIn s 2 0 6).2 = .outOfBounds
      ∧ (∃ s', AwaleServer.trans s (.frame 2 (Request.play 6).body 0)
          = some (s', [(5, .invalidPlay (invalidPlayText .outOfBounds))]))
      ∧ ¬ Refused s 2 0 6 0 := by
  obtain ⟨s, hs, hf⟩ := Guard.reaches (g := Guard.any)
    (f := fun s => (decide (Possible s (.frame 2 (Request.play 6).body 0)
        ∧ Member s 0 (s.clients 2).sock ∧ (playIn s 2 0 6).2 = .outOfBounds),
      (s.clients 2).sock, (AwaleServer.trans s (.frame 2 (Request.play 6).body 0)).map fun r => r.2))
    (b := (true, 6, some [(5, .invalidPlay (invalidPlayText .outOfBounds))])) watchedRoom
    (by decide +kernel) (by decide +kernel)
  obtain ⟨hd, hf⟩ := Prod.mk.inj hf
  obtain ⟨hsock, ht⟩ := Prod.mk.inj hf
  obtain ⟨hp, hmem, hrej⟩ := of_decide_eq_true hd
  obtain ⟨⟨s', out⟩, hs', hout⟩ := Option.map_eq_some_iff.mp ht
  obtain rfl : out = _ := hout
  refine ⟨s, hs, hp, hmem, hrej, ⟨s', hs'⟩, fun h => ?_⟩
  rw [Refused, hs', hsock] at h
  have hsent := (List.cons.inj (Prod.mk.inj (Option.some.inj h)).2).1
  exact absurd (Prod.mk.inj hsent).1 (by decide)

end AwaleRejection
