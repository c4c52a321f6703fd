import AwaleOnline.AwaleRejectionProofs

/-!
# Closing a room

A room is closed when its game ends and when a player leaves it.  Both handlers delete the slot
in the same way; the loops that tell the members do not agree on who the members are.

* **`game_ending`** — the end of a game is announced to every member just when no connected
  spectator stands outside the two seats (`EndMeets`);
* **`player_leaving`** — a player that leaves is announced to every other member just when the
  first `nb_players + nb_spectators` entries are those of the members (`LeaveMeets`).
-/

namespace AwaleClosing

open AwaleGame AwaleProtocol AwaleServer AwaleEffect AwaleBounds AwaleRoster AwaleSystem
  AwaleStanding AwaleSending AwaleView AwaleRejection

variable {s s' : Server} {c i j : Nat} {p : UInt8} {rand : UInt32} {sock x y : Int} {game : Game}
  {gs : GameState} {m : ServerMsg} {out : List Sent} {body : List UInt8}

/-! ## What one descriptor is sent -/

theorem framesTo_writeClient (hx : x ≠ -1) :
    framesTo x (writeClient y m) = List.replicate ([y].count x) m := by
  by_cases hyx : y = x
  · subst hyx
    rw [framesTo_self hx, List.count_singleton_self, List.replicate_one]
  · rw [framesTo_other hyx, List.count_singleton, beq_false_of_ne hyx]
    rfl

/-! ## The end of a game -/

/-- The GAME_STOPPED frame of a game that is over: a draw, or the player with more than half of
    the seeds. -/
inductive Verdict (game : Game) : ServerMsg → Prop where
  | draw : (game.players 0).captured = boardSize * 2 →
      (game.players 1).captured = boardSize * 2 →
      Verdict game (.gameStopped true CString.empty)
  | won {w : Nat} : w < 2 → (game.players w).captured > boardSize * 2 →
      Verdict game (.gameStopped false (game.players w).name)

theorem Verdict.not_played (h : Verdict game m) : isPlayed m = false := by
  cases h <;> rfl

theorem verdict_of_ended (hend : gameIsEnded game ≠ .notEnded) :
    Verdict game (.gameStopped (gameIsEnded game = .draw)
      (winnerName game (gameIsEnded game))) := by
  simp only [gameIsEnded] at hend ⊢
  split
  · rename_i h
    exact .won (by decide) h
  · rename_i h0
    split
    · rename_i h
      exact .won (by decide) h
    · rename_i h1
      split
      · rename_i h
        exact .draw h.1 h.2
      · rename_i h2
        rw [if_neg h0, if_neg h1, if_neg h2] at hend
        exact absurd rfl hend

/-- **THE END OF A GAME.**  Every connected member of room `i` reads its PLAYED frame and then the
    verdict, nobody else reads anything, and the room is removed. -/
structure GameClosed (s : Server) (i : Nat) (game : Game) (s' : Server) (out : List Sent) :
    Prop where
  members : ∀ x ∈ memberIds (s.rooms i).game, x ≠ -1 → ∃ boards m,
    framesTo x out = boards ++ [m] ∧ boards ≠ [] ∧ (∀ b ∈ boards, isPlayed b = true)
      ∧ Verdict game m
  outsiders : ∀ x, x ∉ memberIds (s.rooms i).game → framesTo x out = []
  room : RoomRemoved s i s'

/-- The seats hold two sockets, no connected spectator stands outside them, the name of the winner
    fits the frame's buffer, and the connected members have open descriptors. -/
structure EndMeets (s : Server) (game : Game) (gs : GameState) : Prop where
  seats : (game.players 0).id = -1 ∨ (game.players 0).id ≠ (game.players 1).id
  spectators : ∀ k < game.nbSpectators, (game.players (2 + k)).id = -1
    ∨ (game.players (2 + k)).id = (game.players 0).id
    ∨ (game.players (2 + k)).id = (game.players 1).id
  winner : (winnerName game gs).strlen + 5 ≤ bufSize
  served : ∀ x ∈ memberIds game, Writable s x

instance (s : Server) (game : Game) (gs : GameState) : Decidable (EndMeets s game gs) :=
  decidable_of_iff
    (((game.players 0).id = -1 ∨ (game.players 0).id ≠ (game.players 1).id)
      ∧ (∀ k < game.nbSpectators, (game.players (2 + k)).id = -1
        ∨ (game.players (2 + k)).id = (game.players 0).id
        ∨ (game.players (2 + k)).id = (game.players 1).id)
      ∧ (winnerName game gs).strlen + 5 ≤ bufSize ∧ ∀ x ∈ memberIds game, Writable s x)
    ⟨fun ⟨h1, h2, h3, h4⟩ => ⟨h1, h2, h3, h4⟩, fun ⟨h1, h2, h3, h4⟩ => ⟨h1, h2, h3, h4⟩⟩

/-- The two entries the verdict is written to. -/
def seatIds (game : Game) : List Int := [(game.players 0).id, (game.players 1).id]

/-- Every connected member holds one of the two seats when the seats differ and no spectator
    stands outside them. -/
theorem count_seatIds (hn : game.nbPlayers = 2) :
    (∀ x ∈ memberIds game, x ≠ -1 → (seatIds game).count x = 1)
      ↔ ((game.players 0).id = -1 ∨ (game.players 0).id ≠ (game.players 1).id)
        ∧ ∀ k < game.nbSpectators, (game.players (2 + k)).id = -1
          ∨ (game.players (2 + k)).id = (game.players 0).id
          ∨ (game.players (2 + k)).id = (game.players 1).id := by
  have hseat : ∀ e < 2, (game.players e).id ∈ memberIds game := fun e he =>
    mem_memberIds.mpr ⟨e, Or.inl (by omega), rfl⟩
  constructor
  · intro h
    refine ⟨?_, fun k hk => ?_⟩
    · by_contra hsame
      obtain ⟨hne, heq⟩ := not_or.mp hsame
      have hone := h _ (hseat 0 (by decide)) hne
      rw [seatIds, ← not_not.mp heq, List.count_cons_self, List.count_cons_self] at hone
      exact absurd hone (by simp)
    · by_cases hvacant : (game.players (2 + k)).id = -1
      · exact Or.inl hvacant
      · have hmem : (game.players (2 + k)).id ∈ memberIds game :=
          mem_memberIds.mpr ⟨2 + k, Or.inr ⟨by omega, by omega⟩, rfl⟩
        have hpos : 0 < (seatIds game).count (game.players (2 + k)).id := by
          rw [h _ hmem hvacant]
          exact Nat.one_pos
        simpa [seatIds] using Or.inr (a := (game.players (2 + k)).id = -1)
          (List.count_pos_iff.mp hpos)
  · rintro ⟨hseats, hspectators⟩ x hx hne
    have hseated : x = (game.players 0).id ∨ x = (game.players 1).id := by
      obtain ⟨e, he | ⟨h2, he⟩, rfl⟩ := mem_memberIds.mp hx
      · have he' : e = 0 ∨ e = 1 := by omega
        rcases he' with rfl | rfl
        · exact Or.inl rfl
        · exact Or.inr rfl
      · have hself : 2 + (e - 2) = e := by omega
        have hspec := hspectators (e - 2) (by omega)
        rw [hself] at hspec
        exact hspec.resolve_left hne
    have hdiffer : (game.players 0).id = x → (game.players 1).id = x → False := by
      intro h0 h1
      rcases hseats with hvacant | hsame
      · exact hne (h0.symm.trans hvacant)
      · exact hsame (h0.trans h1.symm)
    simp only [seatIds, List.count_cons, List.count_nil, beq_iff_eq]
    rcases hseated with rfl | rfl
    · rw [if_neg fun h1 => hdiffer rfl h1, if_pos rfl]
    · rw [if_pos rfl, if_neg fun h0 => hdiffer h0 rfl]

/-- The frames of the last move of a game. -/
def endFrames (game : Game) (m : ServerMsg) : List Sent :=
  playedFrames game ++ writeClient (game.players 0).id m ++ writeClient (game.players 1).id m

/-- They go to members only, and to every one. -/
theorem opened_ending (hn : game.nbPlayers = 2) :
    Opened s (endFrames game m) ↔ ∀ x ∈ memberIds game, Writable s x := by
  rw [endFrames, opened_append, opened_append, opened_played, opened_writeClient,
    opened_writeClient, and_assoc, and_iff_left_iff_imp]
  exact fun h => ⟨h _ (mem_memberIds.mpr ⟨0, Or.inl (by omega), rfl⟩),
    h _ (mem_memberIds.mpr ⟨1, Or.inl (by omega), rfl⟩)⟩

/-- What a descriptor reads at the end: its PLAYED frames, and one verdict for each seat it
    holds. -/
theorem framesTo_ending (hx : x ≠ -1) :
    framesTo x (endFrames game m)
      = framesTo x (playedFrames game) ++ List.replicate ((seatIds game).count x) m := by
  have hsplit : seatIds game = [(game.players 0).id] ++ [(game.players 1).id] := rfl
  rw [endFrames, framesTo_append, framesTo_append, framesTo_writeClient hx,
    framesTo_writeClient hx, List.append_assoc, List.replicate_append_replicate, hsplit,
    List.count_append]

theorem played_of_framesTo {b : ServerMsg} (hb : b ∈ framesTo x (playedFrames game)) :
    isPlayed b = true := by
  obtain ⟨_, _, _, _, -, -, hb'⟩ := mem_playedFrames (mem_framesTo.mp hb)
  have hb'' : b = _ := hb'
  rw [hb'']
  rfl

/-- A member of the room reads its PLAYED frame. -/
theorem framesTo_played_ne_nil (hx : x ≠ -1) (hmem : x ∈ memberIds game) :
    framesTo x (playedFrames game) ≠ [] := by
  obtain ⟨e, he | ⟨h2, he⟩, rfl⟩ := mem_memberIds.mp hmem
  · have hsent : ((game.players e).id, writePlayed e game) ∈ playedFrames game :=
      List.mem_append_left _ (List.mem_flatMap.mpr
        ⟨e, List.mem_range.mpr he, mem_writeClient.mpr ⟨hx, rfl⟩⟩)
    exact List.ne_nil_of_mem (mem_framesTo.mpr hsent)
  · have hself : 2 + (e - 2) = e := by omega
    have hsent : ((game.players e).id, writePlayed 0 game) ∈ playedFrames game := by
      refine List.mem_append_right _ (List.mem_flatMap.mpr
        ⟨e - 2, List.mem_range.mpr (by omega), ?_⟩)
      rw [hself]
      exact mem_writeClient.mpr ⟨hx, rfl⟩
    exact List.ne_nil_of_mem (mem_framesTo.mpr hsent)

/-- PLAYED frames with one verdict behind them: the verdict was sent once. -/
theorem replicate_of_verdict {boards played : List ServerMsg} {m' : ServerMsg} {n : Nat}
    (hm : isPlayed m = false) (hm' : isPlayed m' = false)
    (hboards : ∀ b ∈ boards, isPlayed b = true) (hplayed : ∀ b ∈ played, isPlayed b = true)
    (h : played ++ List.replicate n m = boards ++ [m']) : n = 1 := by
  have hnone : ∀ l : List ServerMsg, (∀ b ∈ l, isPlayed b = true) →
      l.filter (fun b => isPlayed b = false) = [] := by
    intro l hl
    refine List.filter_eq_nil_iff.mpr fun b hb => ?_
    rw [hl b hb]
    decide
  have hfilter := congrArg (List.filter fun b => isPlayed b = false) h
  rw [List.filter_append, List.filter_append, hnone _ hplayed, hnone _ hboards, List.nil_append,
    List.nil_append, List.filter_replicate, hm, List.filter_singleton, hm'] at hfilter
  simpa using congrArg List.length hfilter

/-- Every member reads its boards and one verdict when it stands once among the seats. -/
theorem members_ending (hm : Verdict game m) :
    (∀ x ∈ memberIds game, x ≠ -1 → ∃ boards m', framesTo x (endFrames game m) = boards ++ [m']
        ∧ boards ≠ [] ∧ (∀ b ∈ boards, isPlayed b = true) ∧ Verdict game m')
      ↔ ∀ x ∈ memberIds game, x ≠ -1 → (seatIds game).count x = 1 := by
  refine forall₃_congr fun x hx hne => ?_
  constructor
  · rintro ⟨boards, m', hread, -, hboards, hm'⟩
    have hread' := (framesTo_ending hne).symm.trans hread
    exact replicate_of_verdict hm.not_played hm'.not_played hboards
      (fun _ hb => played_of_framesTo hb) hread'
  · intro hone
    refine ⟨framesTo x (playedFrames game), m, ?_, framesTo_played_ne_nil hne hx,
      fun _ hb => played_of_framesTo hb, hm⟩
    rw [framesTo_ending hne, hone, List.replicate_one]

/-- Nobody else reads anything. -/
theorem outsiders_ending (hn : game.nbPlayers = 2) (hx : x ∉ memberIds game) :
    framesTo x (endFrames game m) = [] := by
  refine framesTo_none fun f hf hfx => hx ?_
  rw [← hfx]
  have hseat : ∀ e < 2, f ∈ writeClient (game.players e).id m → f.1 ∈ memberIds game := by
    intro e he hmem
    rw [(mem_writeClient.mp hmem).2]
    exact mem_memberIds.mpr ⟨e, Or.inl (by omega), rfl⟩
  rcases List.mem_append.mp hf with hf | hf
  · rcases List.mem_append.mp hf with hf | hf
    · obtain ⟨e, _, _, _, he, hid, -⟩ := mem_playedFrames hf
      exact mem_memberIds.mpr ⟨e, he, hid⟩
    · exact hseat 0 (by decide) hf
  · exact hseat 1 (by decide) hf

theorem stopped_fits (game : Game) (gs : GameState) :
    (ServerMsg.gameStopped (gs = .draw) (winnerName game gs)).size ≤ bufSize
      ↔ (winnerName game gs).strlen + 5 ≤ bufSize := by
  cases gs with
  | draw =>
      refine iff_of_true ?_ ?_
      · show 4 ≤ bufSize
        decide
      · show 0 + 5 ≤ bufSize
        decide
  | _ => rfl

/-- A move names nobody. -/
theorem playIn_winner (s : Server) (c i : Nat) (p : UInt8) (gs : GameState) :
    winnerName (playIn s c i p).1 gs = winnerName (s.rooms i).game gs := by
  obtain ⟨-, -, -, hperson⟩ := play_frame s c i p
  cases gs with
  | p1won => exact (hperson 0).2.1
  | p2won => exact (hperson 1).2.1
  | _ => rfl

/-- `handle_play` at the end of a game. -/
theorem handlePlay_ending (hfind : findRoom s (s.clients c).roomId = some i)
    (hvalid : (playIn s c i p).2 = .validPlay) (hgs : gameIsEnded (playIn s c i p).1 = gs)
    (hend : gs ≠ .notEnded) :
    handlePlay s c p =
      if (winnerName (s.rooms i).game gs).strlen + 5 ≤ bufSize then
        .ok (deleteRoom (setGame s i (playIn s c i p).1) i, endFrames (playIn s c i p).1
          (.gameStopped (gs = .draw) (winnerName (s.rooms i).game gs)))
      else .error .buffer := by
  have hfits := stopped_fits (playIn s c i p).1 gs
  rw [playIn_winner] at hfits
  rw [handlePlay_eq hfind, hgs, if_pos hend, replies_valid hvalid, playIn_winner]
  by_cases h : (winnerName (s.rooms i).game gs).strlen + 5 ≤ bufSize
  · rw [if_pos h, if_neg (Nat.not_lt.mpr (hfits.mpr h))]
    rfl
  · rw [if_neg h, if_pos (Nat.lt_of_not_le fun hle => h (hfits.mp hle))]

/-- **ENDING A GAME.**  In every reachable state the play that ends the game of a started room is
    handled to the end, and closes the room for everybody, exactly under `EndMeets`. -/
theorem game_ending (hr : AwaleServer.Reachable Guard.any.meets s)
    (hp : Possible s (.frame c body rand)) (hlen : body.length < bufSize)
    (hq : readRequest (received s body).buffer = some (.play p))
    (hfind : findRoom s (s.clients c).roomId = some i)
    (hstarted : (s.rooms i).game.isStarted = true)
    (hvalid : (playIn s c i p).2 = .validPlay)
    (hgs : gameIsEnded (playIn s c i p).1 = gs) (hend : gs ≠ .notEnded) :
    (∃ s' out, AwaleServer.trans s (.frame c body rand) = some (s', out)
        ∧ GameClosed s i (playIn s c i p).1 s' out)
      ↔ EndMeets s (s.rooms i).game gs := by
  have hstep : step s (.frame c body rand) = handlePlay (received s body) c p :=
    step_request hlen hq
  have hplay : handlePlay (received s body) c p =
      if (winnerName (s.rooms i).game gs).strlen + 5 ≤ bufSize then
        .ok (deleteRoom (setGame (received s body) i (playIn s c i p).1) i,
          endFrames (playIn s c i p).1
            (.gameStopped (gs = .draw) (winnerName (s.rooms i).game gs)))
      else .error .buffer := handlePlay_ending (s := received s body) hfind hvalid hgs hend
  have hmembers := playIn_members s c i p
  obtain ⟨hn, -, -, hperson⟩ := play_frame s c i p
  have hseats : (s.rooms i).game.nbPlayers = 2 := (sized_reachable hr i).started.mp hstarted
  have hids : seatIds (playIn s c i p).1 = seatIds (s.rooms i).game := by
    rw [seatIds, (hperson 0).1, (hperson 1).1]
    rfl
  have hopened : ∀ m, Opened s (endFrames (playIn s c i p).1 m)
      ↔ ∀ x ∈ memberIds (s.rooms i).game, Writable s x := by
    intro m
    rw [opened_ending (hn.trans hseats), hmembers]
  have hverdict : Verdict (playIn s c i p).1
      (.gameStopped (gs = .draw) (winnerName (s.rooms i).game gs)) := by
    rw [← hgs] at hend
    rw [← playIn_winner s c i p gs, ← hgs]
    exact verdict_of_ended hend
  -- a move changes neither who the members are nor who is seated
  have hmembersEnd := members_ending hverdict
  rw [hmembers, hids, count_seatIds hseats] at hmembersEnd
  constructor
  · rintro ⟨s', out, ht, hclosed⟩
    obtain ⟨-, hs, hsent⟩ := trans_iff.mp ht
    rw [hstep, hplay] at hs
    split at hs
    · rename_i hwinner
      obtain ⟨-, rfl⟩ := Prod.mk.inj (Except.ok.inj hs)
      obtain ⟨h1, h2⟩ := hmembersEnd.mp hclosed.members
      exact ⟨h1, h2, hwinner, (hopened _).mp hsent⟩
    · cases hs
  · intro hm
    rw [if_pos hm.winner] at hplay
    refine ⟨_, _, trans_eq hp (hstep.trans hplay) ((hopened _).mpr hm.served),
      hmembersEnd.mpr ⟨hm.seats, hm.spectators⟩, fun x hx => ?_,
      roomRemoved (fun k hk => setGame_of_ne hk _) rfl⟩
    exact outsiders_ending (hn.trans hseats) (hmembers ▸ hx)

/-- Eleven moves after which the second player wins with its fifth house. -/
def closeGame : List Event :=
  [(0, 4), (1, 0), (0, 3), (1, 2), (0, 2), (1, 4), (0, 1), (1, 1), (0, 0), (1, 3), (0, 5)].map
    fun move => .frame move.1 (Request.play move.2).body 0

/-- Two players and nobody else. -/
theorem game_ending_two_players :
    ∃ s s' out, AwaleServer.trans s (.frame 1 (Request.play 4).body 0) = some (s', out)
      ∧ gameIsEnded (playIn s 1 0 4).1 = .p2won
      ∧ GameClosed s 0 (playIn s 1 0 4).1 s' out := by
  obtain ⟨s, hs, hf⟩ := Guard.reaches (g := Guard.any)
    (f := fun s => decide (Possible s (.frame 1 (Request.play 4).body 0)
      ∧ findRoom s (s.clients 1).roomId = some 0 ∧ (s.rooms 0).game.isStarted = true
      ∧ (playIn s 1 0 4).2 = .validPlay ∧ gameIsEnded (playIn s 1 0 4).1 = .p2won
      ∧ EndMeets s (s.rooms 0).game .p2won))
    (b := true)
    ([.accept 4, .accept 5, .frame 0 Request.createRoom.body 7,
      .frame 1 (Request.joinRoom 7 0).body 0] ++ closeGame)
    (by decide +kernel) (by decide +kernel)
  obtain ⟨hp, hfind, hstarted, hvalid, hgs, hmeets⟩ := of_decide_eq_true hf
  obtain ⟨s', out, ht, hclosed⟩ := (game_ending hs hp (by decide)
    (readRequest_body s.buffer (by decide)) hfind hstarted hvalid hgs (by decide)).mpr hmeets
  exact ⟨s, s', out, ht, hgs, hclosed⟩

/-- The spectator reads the last board and no verdict. -/
theorem spectator_not_told :
    ∃ s s' out, AwaleServer.Reachable Guard.any.meets s
      ∧ Possible s (.frame 1 (Request.play 4).body 0)
      ∧ findRoom s (s.clients 1).roomId = some 0 ∧ (s.rooms 0).game.isStarted = true
      ∧ (playIn s 1 0 4).2 = .validPlay ∧ gameIsEnded (playIn s 1 0 4).1 = .p2won
      ∧ AwaleServer.trans s (.frame 1 (Request.play 4).body 0) = some (s', out)
      ∧ 6 ∈ memberIds (s.rooms 0).game ∧ (∀ b ∈ framesTo 6 out, isPlayed b = true)
      ∧ ¬ GameClosed s 0 (playIn s 1 0 4).1 s' out := by
  obtain ⟨s, hs, hf⟩ := Guard.reaches (g := Guard.any)
    (f := fun s => (decide (Possible s (.frame 1 (Request.play 4).body 0)
        ∧ findRoom s (s.clients 1).roomId = some 0 ∧ (s.rooms 0).game.isStarted = true
        ∧ (playIn s 1 0 4).2 = .validPlay ∧ gameIsEnded (playIn s 1 0 4).1 = .p2won
        ∧ 6 ∈ memberIds (s.rooms 0).game),
      (AwaleServer.trans s (.frame 1 (Request.play 4).body 0)).map
        fun r => (framesTo 6 r.2).all isPlayed))
    (b := (true, some true)) (watchedRoom ++ closeGame) (by decide +kernel) (by decide +kernel)
  obtain ⟨hd, ht⟩ := Prod.mk.inj hf
  obtain ⟨hp, hfind, hstarted, hvalid, hgs, hmem⟩ := of_decide_eq_true hd
  obtain ⟨⟨s', out⟩, hs', hall⟩ := Option.map_eq_some_iff.mp ht
  have hboards : ∀ b ∈ framesTo 6 out, isPlayed b = true := List.all_eq_true.mp hall
  refine ⟨s, s', out, hs, hp, hfind, hstarted, hvalid, hgs, hs', hmem, hboards, fun hclosed => ?_⟩
  obtain ⟨boards, m, hread, -, -, hm⟩ := hclosed.members 6 hmem (by decide)
  have hlast : m ∈ framesTo 6 out := by
    rw [hread]
    exact List.mem_append_right _ (List.mem_singleton_self m)
  have hplayed := hboards m hlast
  rw [hm.not_played] at hplayed
  cases hplayed

/-! ## A player that leaves -/

/-- **A PLAYER LEAVES** room `i`.  Every other connected member is told once, nobody else is, and
    the room is removed. -/
structure LeaveClosed (s : Server) (c i : Nat) (s' : Server) (out : List Sent) : Prop where
  told : ∀ x, framesTo x out
    = if x ∈ others (s.rooms i).game (s.clients c).sock then [.gameStopped true CString.empty]
      else []
  room : RoomRemoved s i s'

/-- The entries the loop runs over hold other members' sockets, none of them twice; and with one
    player, where they leave out the last spectator, one of them holds its socket too. -/
structure TellsOthers (game : Game) (j : Nat) (sock : Int) : Prop where
  once : (toldIds game j).Nodup
  listed : ∀ x ∈ toldIds game j, x ∈ others game sock
  last : game.nbPlayers = 1 → 0 < game.nbSpectators →
    (game.players (game.nbSpectators + 1)).id = -1
      ∨ (game.players (game.nbSpectators + 1)).id = sock
      ∨ (game.players (game.nbSpectators + 1)).id ∈ toldIds game j

instance (game : Game) (j : Nat) (sock : Int) : Decidable (TellsOthers game j sock) :=
  decidable_of_iff
    ((toldIds game j).Nodup ∧ (∀ x ∈ toldIds game j, x ∈ others game sock)
      ∧ (game.nbPlayers = 1 → 0 < game.nbSpectators →
        (game.players (game.nbSpectators + 1)).id = -1
          ∨ (game.players (game.nbSpectators + 1)).id = sock
          ∨ (game.players (game.nbSpectators + 1)).id ∈ toldIds game j))
    ⟨fun ⟨h1, h2, h3⟩ => ⟨h1, h2, h3⟩, fun ⟨h1, h2, h3⟩ => ⟨h1, h2, h3⟩⟩

/-- And the descriptors in them are open. -/
structure LeaveMeets (s : Server) (game : Game) (j : Nat) (sock : Int) : Prop where
  tells : TellsOthers game j sock
  served : ∀ x ∈ toldIds game j, Open s x

instance (s : Server) (game : Game) (j : Nat) (sock : Int) : Decidable (LeaveMeets s game j sock) :=
  decidable_of_iff (TellsOthers game j sock ∧ ∀ x ∈ toldIds game j, Open s x)
    ⟨fun ⟨h1, h2⟩ => ⟨h1, h2⟩, fun ⟨h1, h2⟩ => ⟨h1, h2⟩⟩

/-- A descriptor is told once for each entry that holds it. -/
theorem framesTo_leaveFrames (hx : x ≠ -1) : framesTo x (leaveFrames game j)
    = List.replicate ((toldIds game j).count x) (.gameStopped true CString.empty) := by
  simp only [leaveFrames, toldIds]
  induction game.nbPlayers + game.nbSpectators with
  | zero => rfl
  | succ n ih =>
      rw [List.range_succ, List.flatMap_append, framesTo_append, ih, List.filter_append,
        List.map_append, List.count_append, ← List.replicate_append_replicate,
        List.flatMap_singleton]
      congr 1
      by_cases hn : n ≠ j
      · by_cases hvacant : (game.players n).id = -1
        · rw [if_pos hn, hvacant, framesTo_other hx.symm]
          simp [hvacant]
        · rw [if_pos hn, framesTo_writeClient hx]
          simp [hn, hvacant]
      · rw [if_neg hn]
        simp [not_not.mp hn, framesTo]

/-- The entries the loop leaves out: with one player, that of the last spectator. -/
theorem others_toldIds (hj : j < game.nbPlayers) (hid : (game.players j).id = sock)
    (hseats : game.nbPlayers ≤ 2) (hx : x ∈ others game sock) :
    x ∈ toldIds game j ∨ (game.nbPlayers = 1 ∧ 0 < game.nbSpectators
      ∧ (game.players (game.nbSpectators + 1)).id = x) := by
  obtain ⟨hmem, hne, hsock⟩ := mem_others.mp hx
  obtain ⟨e, he, rfl⟩ := mem_memberIds.mp hmem
  have hej : e ≠ j := by
    rintro rfl
    exact hsock hid
  by_cases hlt : e < game.nbPlayers + game.nbSpectators
  · exact Or.inl (mem_toldIds.mpr ⟨e, hlt, hej, hne, rfl⟩)
  · have hend : e = game.nbSpectators + 1 ∧ game.nbPlayers = 1 ∧ 0 < game.nbSpectators := by
      rcases he with he | ⟨h2, he⟩ <;> omega
    obtain ⟨rfl, hone, hpos⟩ := hend
    exact Or.inr ⟨hone, hpos, rfl⟩

/-- The loop tells exactly the other members when the entries it runs over are theirs. -/
theorem told_iff (hseats : game.nbPlayers ≤ 2) (hseat : findPlayer game sock = some j) :
    (∀ x, framesTo x (leaveFrames game j)
        = if x ∈ others game sock then [.gameStopped true CString.empty] else [])
      ↔ TellsOthers game j sock := by
  obtain ⟨hj, hid, -⟩ := findPlayer_eq_some.mp hseat
  constructor
  · intro h
    have hlen : ∀ x ≠ -1, (toldIds game j).count x = if x ∈ others game sock then 1 else 0 := by
      intro x hx
      have hread := congrArg List.length ((framesTo_leaveFrames hx).symm.trans (h x))
      rw [List.length_replicate] at hread
      rw [hread]
      split <;> rfl
    refine ⟨?_, fun x hx => ?_, fun hone hpos => ?_⟩
    · refine List.nodup_iff_count_le_one.mpr fun x => ?_
      by_cases hx : x ∈ toldIds game j
      · obtain ⟨_, _, _, hne, _⟩ := mem_toldIds.mp hx
        rw [hlen x hne]
        split <;> omega
      · rw [List.count_eq_zero_of_not_mem hx]
        exact Nat.zero_le 1
    · obtain ⟨_, _, _, hne, _⟩ := mem_toldIds.mp hx
      have hpos := List.count_pos_iff.mpr hx
      rw [hlen x hne] at hpos
      by_contra hout
      rw [if_neg hout] at hpos
      exact Nat.lt_irrefl 0 hpos
    · by_contra hmissed
      obtain ⟨hne, hmissed⟩ := not_or.mp hmissed
      obtain ⟨hsock, hmissed⟩ := not_or.mp hmissed
      have hmem : (game.players (game.nbSpectators + 1)).id ∈ memberIds game :=
        mem_memberIds.mpr ⟨_, Or.inr ⟨by omega, by omega⟩, rfl⟩
      have hcount := hlen _ hne
      rw [if_pos (mem_others.mpr ⟨hmem, hne, hsock⟩),
        List.count_eq_zero_of_not_mem hmissed] at hcount
      exact Nat.zero_ne_one hcount
  · intro hm x
    by_cases hx : x = -1
    · subst hx
      rw [if_neg fun h => (mem_others.mp h).2.1 rfl]
      refine framesTo_none fun f hf => ?_
      obtain ⟨_, _, _, _, hne, _⟩ := mem_leaveFrames hf
      exact hne
    · have hiff : x ∈ toldIds game j ↔ x ∈ others game sock := by
        refine ⟨hm.listed x, fun hmem => ?_⟩
        rcases others_toldIds hj hid hseats hmem with htold | ⟨hone, hpos, rfl⟩
        · exact htold
        · obtain ⟨-, hne, hsock⟩ := mem_others.mp hmem
          exact ((hm.last hone hpos).resolve_left hne).resolve_left hsock
      rw [framesTo_leaveFrames hx, List.Nodup.count hm.once, if_congr hiff rfl rfl]
      split <;> rfl

/-- In a room with both players the loop runs over the members. -/
theorem tellsOthers_full (hn : game.nbPlayers = 2) (hdistinct : DistinctMembers game)
    (hseat : findPlayer game sock = some j) : TellsOthers game j sock := by
  obtain ⟨hj, hid, -⟩ := findPlayer_eq_some.mp hseat
  have hmember : ∀ k < game.nbPlayers + game.nbSpectators, MemberAt game k := by
    intro k hk
    simp only [MemberAt]
    omega
  refine ⟨?_, fun x hx => ?_, fun hone => ?_⟩
  · refine (List.nodup_map_iff_inj_on (List.nodup_range.filter _)).mpr ?_
    intro k hk e he hke
    simp only [List.mem_filter, List.mem_range, decide_eq_true_eq] at hk he
    exact hdistinct k (hmember k hk.1) e (hmember e he.1) hk.2.2 hke
  · obtain ⟨k, hk, hkj, hne, rfl⟩ := mem_toldIds.mp hx
    refine mem_others.mpr ⟨mem_memberIds.mpr ⟨k, hmember k hk, rfl⟩, hne, fun hsock => hkj ?_⟩
    exact hdistinct k (hmember k hk) j (Or.inl hj) hne (hsock.trans hid.symm)
  · omega

/-- **LEAVING AS A PLAYER.**  In every reachable state the LEAVE_ROOM of a player is handled to the
    end, tells exactly the other members and closes the room just under `LeaveMeets`. -/
theorem player_leaving (hr : AwaleServer.Reachable Guard.any.meets s)
    (hp : Possible s (.frame c body rand)) (hlen : body.length < bufSize)
    (hq : readRequest (received s body).buffer = some .leaveRoom)
    (hfind : findRoom s (s.clients c).roomId = some i)
    (hseat : findPlayer (s.rooms i).game (s.clients c).sock = some j) :
    (∃ s' out, AwaleServer.trans s (.frame c body rand) = some (s', out)
        ∧ LeaveClosed s c i s' out)
      ↔ LeaveMeets s (s.rooms i).game j (s.clients c).sock := by
  have hsized := sized_reachable hr i
  have hlive := (findRoom_eq_some.mp hfind).1
  have hslot : i < maxRooms := by
    have hnb := AwaleBounds.nbRooms_le hr
    have hi : (i : Int) < s.nbRooms := hlive
    omega
  have hleave : handleLeaveRoom (received s body) c
      = .ok (deleteRoom (setRoomId (received s body) c 0) i, leaveFrames (s.rooms i).game j) := by
    have htarget : targetRoom (received s body) ((received s body).clients c).roomId = i :=
      targetRoom_of_find hfind
    have hseat' : findPlayer ((received s body).rooms i).game ((received s body).clients c).sock
        = some j := hseat
    rw [handleLeaveRoom_eq htarget hslot hsized.leaveBounds, leaveResult, hseat']
    rfl
  have hstep : step s (.frame c body rand) = .ok _ := (step_request hlen hq).trans hleave
  constructor
  · rintro ⟨s', out, ht, hclosed⟩
    obtain ⟨-, hs, hsent⟩ := trans_iff.mp ht
    obtain ⟨-, rfl⟩ := Prod.mk.inj (Except.ok.inj (hstep.symm.trans hs))
    exact ⟨(told_iff hsized.seats hseat).mp hclosed.told, opened_leave.mp hsent⟩
  · rintro ⟨htells, hserved⟩
    refine ⟨_, _, trans_eq hp hstep (opened_leave.mpr hserved),
      (told_iff hsized.seats hseat).mpr htells, roomRemoved (fun _ _ => rfl) rfl⟩

/-- A player leaves a room with two players and a spectator. -/
theorem player_leaving_watched :
    ∃ s s' out, AwaleServer.trans s (.frame 0 Request.leaveRoom.body 0) = some (s', out)
      ∧ 6 ∈ others (s.rooms 0).game (s.clients 0).sock ∧ LeaveClosed s 0 0 s' out := by
  obtain ⟨s, hs, hf⟩ := Guard.reaches (g := Guard.any)
    (f := fun s => decide (Possible s (.frame 0 Request.leaveRoom.body 0)
      ∧ findRoom s (s.clients 0).roomId = some 0
      ∧ findPlayer (s.rooms 0).game (s.clients 0).sock = some 0
      ∧ 6 ∈ others (s.rooms 0).game (s.clients 0).sock
      ∧ LeaveMeets s (s.rooms 0).game 0 (s.clients 0).sock))
    (b := true) watchedRoom (by decide +kernel) (by decide +kernel)
  obtain ⟨hp, hfind, hseat, hmem, hmeets⟩ := of_decide_eq_true hf
  obtain ⟨s', out, h, hclosed⟩ := (player_leaving hs hp (by decide)
    (readRequest_body s.buffer (by decide)) hfind hseat).mpr hmeets
  exact ⟨s, s', out, h, hmem, hclosed⟩

/-- A player that waits with one spectator leaves: the one frame is for the unused second seat, on
    descriptor `0`, and not for the spectator; and there the server ends. -/
theorem waiting_spectator_not_told :
    ∃ s, AwaleServer.Reachable Guard.any.meets s
      ∧ Possible s (.frame 0 Request.leaveRoom.body 0)
      ∧ findRoom s (s.clients 0).roomId = some 0
      ∧ findPlayer (s.rooms 0).game (s.clients 0).sock = some 0
      ∧ others (s.rooms 0).game (s.clients 0).sock = [5]
      ∧ (∃ s', step s (.frame 0 Request.leaveRoom.body 0)
          = .ok (s', [(0, .gameStopped true CString.empty)]))
      ∧ ¬ ∃ s' out, AwaleServer.trans s (.frame 0 Request.leaveRoom.body 0) = some (s', out)
        ∧ LeaveClosed s 0 0 s' out := by
  obtain ⟨s, hs, hf⟩ := Guard.reaches (g := Guard.any)
    (f := fun s => (decide (Possible s (.frame 0 Request.leaveRoom.body 0)
        ∧ findRoom s (s.clients 0).roomId = some 0
        ∧ findPlayer (s.rooms 0).game (s.clients 0).sock = some 0
        ∧ others (s.rooms 0).game (s.clients 0).sock = [5]
        ∧ (AwaleServer.trans s (.frame 0 Request.leaveRoom.body 0)).isNone),
      (step s (.frame 0 Request.leaveRoom.body 0)).toOption.map fun r => r.2))
    (b := (true, some [(0, .gameStopped true CString.empty)]))
    [.accept 4, .accept 5, .frame 0 Request.createRoom.body 7,
      .frame 1 (Request.joinRoom 7 1).body 0]
    (by decide +kernel) (by decide +kernel)
  obtain ⟨hd, ht⟩ := Prod.mk.inj hf
  obtain ⟨hp, hfind, hseat, hothers, hended⟩ := of_decide_eq_true hd
  refine ⟨s, hs, hp, hfind, hseat, hothers, ?_, ?_⟩
  · cases hstep : step s (.frame 0 Request.leaveRoom.body 0) with
    | error f =>
        rw [hstep] at ht
        cases ht
    | ok r =>
        obtain ⟨s', out⟩ := r
        rw [hstep] at ht
        obtain rfl : out = _ := Option.some.inj ht
        exact ⟨s', rfl⟩
  · rintro ⟨s', out, htrans, -⟩
    rw [htrans] at hended
    cases hended

end AwaleClosing
