import AwaleOnline.AwaleMatchProofs
import AwaleOnline.AwaleSendingProofs
import AwaleOnline.AwaleTurnProofs
import AwaleOnline.SimulationProofs

/-!
# Rooms play matches

The server's rooms hold games that are joined, left, resumed and played by whoever sends a frame.
In a run whose PLAYs are authorised, what they play is a match.

* **`rooms_play`** — a room is in the position that the moves it has accepted lead to, and its match
  is not over;
* **`table_play`** — two clients that have a room to themselves can make every move of the match;
* **`rooms_play_exactly`** — so the positions of rooms are the positions of matches that are not
  over.
-/

namespace AwalePlayedMatch

open AwaleGame AwaleProtocol AwaleServer AwaleEffect AwaleBounds AwaleAuthorisation AwaleMatch

variable {s s' : Server} {c k i : Nat} {rand : UInt32} {q : Request} {out : List Sent}
  {m m' : Match} {g : Guard}

/-! ## Rooms are deleted when their match is over -/

/-- Neither side has won, and it is no draw. -/
def Undecided (q : Position) : Prop :=
  ¬ (24 < q.captured 0 ∨ 24 < q.captured 1 ∨ (q.captured 0 = 24 ∧ q.captured 1 = 24))

theorem undecided_start : Undecided startPosition := by
  simp only [Undecided, startPosition]
  omega

/-- A seat that is not taken has no seeds. -/
theorem undecided_of_open {game : Game} (h : gameIsEnded game = .notEnded) :
    Undecided (position game) := by
  have hcounts := AwaleVerdict.verdict_holds game
  rw [h] at hcounts
  obtain ⟨h0, h1, hdraw⟩ := hcounts
  have hcases : ∀ e, (position game).captured e = (game.players e).captured
      ∨ (position game).captured e = 0 := by
    intro e
    by_cases he : e < game.nbPlayers
    · exact Or.inl (if_pos he)
    · exact Or.inr (if_neg he)
  have hfirst := hcases 0
  have hsecond := hcases 1
  simp only [Undecided]
  omega

/-- What each live room satisfies. -/
def AllUndecided (s : Server) : Prop := ∀ k, Live s k → Undecided (position (s.rooms k).game)

theorem allUndecided_congr (h : AllUndecided s) (hnb : s'.nbRooms = s.nbRooms)
    (hpos : ∀ k, position (s'.rooms k).game = position (s.rooms k).game) : AllUndecided s' := by
  intro k hk
  rw [hpos]
  exact h k ((live_congr hnb k).mp hk)

/-- A room may be deleted whatever it holds. -/
theorem allUndecided_delete (h : ∀ k, k ≠ i → Live s k → Undecided (position (s.rooms k).game)) :
    AllUndecided (deleteRoom s i) := by
  intro k hk
  obtain ⟨hlive, hroom⟩ := live_deleteRoom hk
  rw [hroom]
  exact h _ (SlotArray.skip_ne i k) hlive

theorem allUndecided_request (h : AllUndecided s) (hsized : ∀ k, Sized (s.rooms k).game)
    (heff : Effect s c rand q s' out) : AllUndecided s' := by
  cases heff with
  | nameRefused _ => exact h
  | named _ _ => exact h
  | resumed _ _ _ =>
      exact allUndecided_congr h rfl (position_setRoom (position_setPlayerId _ _ _))
  | created _ _ =>
      intro k hk
      show Undecided (position (Function.update s.rooms s.nbRooms.toNat _ k).game)
      by_cases hki : k = s.nbRooms.toNat
      · rw [hki, Function.update_self]
        exact (position_created (s.rooms s.nbRooms.toNat).game _).symm ▸ undecided_start
      · rw [Function.update_of_ne hki]
        exact h k (live_of_lt_succ hk hki)
  | joinNotFound _ => exact h
  | joinFull _ _ => exact h
  | joined _ _ _ _ =>
      exact allUndecided_congr h rfl
        (position_setRoom (position_gameAddPlayer (hsized _).seats _ _))
  | @started roomId spectate i frame _ _ _ _ =>
      rw [setGame_joined]
      exact allUndecided_congr h rfl
        (position_setRoom (position_gameAddPlayer (hsized i).seats _ _))
  | playedNowhere _ => exact h
  | @played pos i _ hend =>
      intro k hk
      show Undecided (position (Function.update s.rooms i _ k).game)
      by_cases hki : k = i
      · rw [hki, Function.update_self]
        exact undecided_of_open hend
      · rw [Function.update_of_ne hki]
        exact h k hk
  | playedLast _ _ =>
      refine allUndecided_delete fun k hki hk => ?_
      rw [setGame_of_ne hki]
      exact h k hk
  | closed _ _ _ _ => exact allUndecided_delete (s := setRoomId s c 0) fun k _ hk => h k hk
  | unwatched _ _ _ _ _ =>
      exact allUndecided_congr h rfl
        (position_setRoom (s := setRoomId s c 0) (position_removeSpectator (hsized _).seats _))
  | leftNothing _ _ _ _ _ => exact h
  | messaged _ _ => exact h
  | described => exact h

/-- **NO ROOM OUTLIVES ITS MATCH**, whoever plays. -/
theorem undecided_reachable (h : AwaleServer.Reachable g.meets s) : AllUndecided s := by
  refine Guard.invariant_with (J := fun s => ∀ k, Sized (s.rooms k).game) (I := AllUndecided)
    (fun _ => sized_reachable) (fun _ _ h => h) ?_ ?_ ?_ ?_ ?_ h
  · intro b k hk
    have hk' : (k : Int) < 0 := hk
    omega
  · intro s b hI
    exact hI
  · intro s csock _ hI _ _ _ _
    exact hI
  · intro s c rand q s' out hsized hI _ _ heff
    exact allUndecided_request hI hsized heff
  · intro s c s₁ hsized hI _ _ hd
    obtain ⟨hnb, hpos⟩ := position_disconnectUser hsized hd
    exact allUndecided_congr hI hnb hpos

/-! ## Accepted plays are moves -/

/-- The house of its row that a player chose, from `0` on. -/
def chosen (r : AcceptedPlay) : Nat := (r.pos - (boardSize / 2 * r.side : Nat)).toNat

theorem chosen_origin {r : AcceptedPlay} (hfair : r.Fair) (hside : r.side = m.side) :
    r.pos = (m.origin (chosen r) : Nat) := by
  obtain ⟨hpos, -, -⟩ := playCheck_valid hfair.accepted
  have hrow := AwaleStarvation.playCheck_row (hside ▸ Nat.le_of_lt_succ m.side.isLt) hfair.accepted
  obtain ⟨hlow, -⟩ := Finset.mem_Ico.mp hrow
  rw [Match.origin, chosen, ← hside]
  omega

/-- **FAIR PLAYS ARE MOVES.**  Plays that alternate from a position of a match to one that is not
    decided replay as moves of the match. -/
theorem alternates_replay :
    ∀ (rs : List AcceptedPlay) {m : Match} {p : Position},
      Alternates m.side m.position rs p → Undecided p →
        ∃ m' : Match, (rs.map chosen).foldlM Match.play m = some m' ∧ p = m'.position
          ∧ ¬ m'.Over ∧ ∀ e, m.won e ≤ m'.won e := by
  intro rs
  induction rs with
  | nil =>
      intro m p h hopen
      obtain rfl : m.position = p := h
      refine ⟨m, rfl, rfl, fun hover => hopen ?_, fun e => Nat.le_refl _⟩
      have h0 : m.position.captured 0 = m.won 0 := rfl
      have h1 : m.position.captured 1 = m.won 1 := rfl
      rw [over_iff] at hover
      rw [h0, h1]
      omega
  | cons r rs ih =>
      intro m p h hopen
      obtain ⟨hside, hpos, hfair, hrest⟩ := h
      have hshows : Shows r.game m := ⟨hfair.players, hpos⟩
      have horigin := chosen_origin hfair hside
      have hv := hfair.accepted
      rw [horigin, hside] at hv
      obtain ⟨hi, hseeds⟩ := (playCheck_iff hshows _).mp hv
      have hresult : r.result = (m.moved (chosen r) hi).position := by
        rw [AcceptedPlay.result, horigin, hside]
        exact (gamePlay_moved hshows hi hv).position
      have hnext : 1 - m.side.val = (m.moved (chosen r) hi).side.val := by
        show 1 - m.side.val = m.side.rev.val
        rw [Fin.val_rev]
        omega
      rw [hresult, hnext] at hrest
      obtain ⟨m', hreplay, hp, hover, hwon⟩ := ih hrest hopen
      have hall : ∀ e, m.won e ≤ m'.won e :=
        fun e => Nat.le_trans (won_moved m hi e) (hwon e)
      refine ⟨m', ?_, hp, hover, hall⟩
      have hallows : m.Allows (chosen r) := ⟨fun h => hover (over_mono h hall), hi, hseeds⟩
      rw [List.map_cons, List.foldlM_cons, play_eq_some.mpr ⟨hallows, rfl⟩]
      exact hreplay

/-- **ROOMS PLAY MATCHES**, in every run whose PLAYs are authorised. -/
theorem rooms_play {p : Server × History} (h : Recorded p) (hk : Live p.1 k) :
    ∃ m, Match.replay ((p.2 k).map chosen) = some m ∧ ¬ m.Over
      ∧ position (p.1.rooms k).game = m.position := by
  have hfair : Alternates Match.start.side Match.start.position (p.2 k)
      (position (p.1.rooms k).game) := by
    rw [start_position]
    exact fairHistories_recorded h k hk
  obtain ⟨m, hreplay, hpos, hover, -⟩ :=
    alternates_replay (p.2 k) hfair (undecided_reachable h.forget k hk)
  exact ⟨m, hreplay, hover, hpos⟩

/-! ## Every match can be played -/

/-- Two clients that have the only room to themselves, in the middle of a match. -/
structure Table (s : Server) (m : Match) : Prop where
  clients : s.nbClients = 2
  live : Live s 0
  home : ∀ c < 2, (s.clients c).roomId = (s.rooms 0).id
  started : (s.rooms 0).game.isStarted = true
  seats : ∀ c < 2, ((s.rooms 0).game.players c).id = (s.clients c).sock
  apart : (s.clients 0).sock ≠ (s.clients 1).sock
  unwatched : (s.rooms 0).game.nbSpectators = 0
  shows : Shows (s.rooms 0).game m

theorem Table.received (h : Table s m) (body : List UInt8) :
    Table (AwaleEffect.received s body) m :=
  ⟨h.clients, h.live, h.home, h.started, h.seats, h.apart, h.unwatched, h.shows⟩

theorem Table.found (h : Table s m) (hc : c < 2) : findRoom s (s.clients c).roomId = some 0 := by
  obtain ⟨n, hn⟩ : ∃ n, s.nbRooms.toNat = n + 1 :=
    Nat.exists_eq_succ_of_ne_zero (Nat.ne_of_gt (live_iff.mp h.live))
  rw [h.home c hc, findRoom, hn, List.range_succ_eq_map]
  exact List.find?_cons_of_pos (decide_eq_true rfl)

/-- The server takes a player of the table for the side it sits on. -/
theorem Table.sideIn (h : Table s m) (hc : c < 2) : sideIn s c 0 = c := by
  have hzero := h.seats 0 Nat.zero_lt_two
  rcases Nat.lt_succ_iff_lt_or_eq.mp hc with hlt | rfl
  · obtain rfl := Nat.lt_one_iff.mp hlt
    exact sideIn_zero hzero
  · exact sideIn_one (hzero.symm ▸ h.apart)

/-- The house that the PLAY of a choice names. -/
theorem Table.houseIn (h : Table s m) (hi : i < boardSize / 2) :
    houseIn s m.side 0 (UInt8.ofNat i) = (m.origin i : Nat) := by
  have hsmall : (UInt8.ofNat i).toNat = i :=
    UInt8.toNat_ofNat_of_lt' (Nat.lt_trans hi (by decide))
  rw [AwaleAuthorisation.houseIn, h.sideIn m.side.isLt, hsmall, Match.origin]
  refine congrArg Int.ofNat ?_
  simp only [boardSize]
  omega

theorem Table.playIn (h : Table s m) (hi : i < boardSize / 2) :
    playIn s m.side 0 (UInt8.ofNat i)
      = gamePlay machine (s.rooms 0).game (m.origin i : Nat) m.side := by
  rw [← h.houseIn hi]
  exact congrArg (gamePlay machine (s.rooms 0).game (AwaleAuthorisation.houseIn s m.side 0 _))
    (h.sideIn m.side.isLt)

/-- The table after a move. -/
theorem Table.played (h : Table s m) (hallows : m.Allows i) :
    Table (setGame s 0 (AwaleEffect.playIn s m.side 0 (UInt8.ofNat i)).1)
      (m.moved i hallows.2.1) := by
  obtain ⟨-, hspec, hstarted, hsame⟩ := play_frame s m.side 0 (UInt8.ofNat i)
  refine ⟨h.clients, h.live, fun c hc => ?_, ?_, fun c hc => ?_, h.apart, ?_, ?_⟩
  · rw [setGame_id]
    exact h.home c hc
  · rw [setGame_self, hstarted]
    exact h.started
  · rw [setGame_self, (hsame c).1]
    exact h.seats c hc
  · rw [setGame_self, hspec]
    exact h.unwatched
  · rw [setGame_self, h.playIn hallows.2.1]
    exact gamePlay_moved h.shows hallows.2.1 ((playCheck_iff h.shows i).mpr hallows.2)

/-- The server takes a move that does not end the match. -/
theorem Table.served (h : Table s m) (hallows : m.Allows i)
    (hopen : ¬ (m.moved i hallows.2.1).Over) :
    handlePlay s m.side (UInt8.ofNat i)
      = .ok (setGame s 0 (AwaleEffect.playIn s m.side 0 (UInt8.ofNat i)).1,
          replies s m.side 0 (UInt8.ofNat i)) := by
  have hshows := (h.played hallows).shows
  rw [setGame_self] at hshows
  rw [handlePlay_eq (h.found m.side.isLt)]
  exact if_neg (not_not.mpr ((ended_iff_over hshows).mpr hopen))

/-- What the history remembers of it. -/
theorem Table.recorded (h : Table s m) (hallows : m.Allows i)
    (hopen : ¬ (m.moved i hallows.2.1).Over) (log : History) :
    recordRequest s m.side (.play (UInt8.ofNat i)) log
      = Function.update log 0 (log 0 ++ [playOf s m.side 0 (UInt8.ofNat i)]) := by
  have hshows := (h.played hallows).shows
  rw [setGame_self] at hshows
  have hvalid : (AwaleEffect.playIn s m.side 0 (UInt8.ofNat i)).2 = .validPlay := by
    rw [h.playIn hallows.2.1, gamePlay_result]
    exact (playCheck_iff h.shows i).mpr hallows.2
  rw [recordRequest_play (h.found m.side.isLt), if_pos ((ended_iff_over hshows).mpr hopen),
    if_pos hvalid]

theorem Table.chosen (h : Table s m) (hi : i < boardSize / 2) :
    chosen (playOf s m.side 0 (UInt8.ofNat i)) = i := by
  have hside : (playOf s m.side 0 (UInt8.ofNat i)).side = m.side := h.sideIn m.side.isLt
  have hpos : (playOf s m.side 0 (UInt8.ofNat i)).pos = (m.origin i : Nat) := h.houseIn hi
  rw [AwalePlayedMatch.chosen, hside, hpos, Match.origin]
  omega

/-- The player of the side to move may move. -/
theorem Table.meets (h : Table s m) (pos : UInt8) : PlayMeets s m.side pos := by
  intro k hk _
  obtain rfl := Option.some.inj (hk.symm.trans (h.found m.side.isLt))
  rw [h.sideIn m.side.isLt]
  exact ⟨h.started, h.seats _ m.side.isLt, h.shows.turn⟩

/-- The two players of the table are connected. -/
theorem Table.opened (h : Table s m) (pos : UInt8) : Opened s (replies s m.side 0 pos) := by
  have hseat : ∀ e < 2, Writable s ((s.rooms 0).game.players e).id := fun e he =>
    Or.inr (h.seats e he ▸ open_own (h.clients ▸ he))
  refine (AwaleSending.opened_replies s m.side 0 pos).mpr ⟨fun _ => ?_, fun _ => ?_⟩
  · refine AwaleSending.forall_memberIds.mpr ⟨fun j hj => ?_, fun j hj => ?_⟩
    · exact hseat j (h.shows.players ▸ hj)
    · rw [h.unwatched] at hj
      exact absurd hj (Nat.not_lt_zero j)
  · rw [h.sideIn m.side.isLt]
    exact hseat _ m.side.isLt

/-- The frame of a move. -/
theorem Table.trans (h : Table s m) (hallows : m.Allows i)
    (hopen : ¬ (m.moved i hallows.2.1).Over) (rand : UInt32) :
    let t := AwaleEffect.received s (Request.play (UInt8.ofNat i)).body
    trans s (.frame m.side (Request.play (UInt8.ofNat i)).body rand)
      = some (setGame t 0 (AwaleEffect.playIn t m.side 0 (UInt8.ofNat i)).1,
          replies t m.side 0 (UInt8.ofNat i)) := by
  intro t
  have hlen : (Request.play (UInt8.ofNat i)).body.length < bufSize := show 2 < bufSize by decide
  have hread := readRequest_body s.buffer hlen
  refine trans_eq ⟨?_, body_length_pos _, Nat.lt_trans hlen (by decide)⟩
    ((step_request hlen hread).trans ((h.received _).served hallows hopen))
    ((h.received _).opened (UInt8.ofNat i))
  rw [h.clients]
  exact m.side.isLt

/-- **A MOVE AT THE TABLE** is served, played and remembered. -/
theorem table_play {log : History} (hr : Recorded (s, log)) (h : Table s m)
    (hplay : m.play i = some m') (hopen : ¬ m'.Over) :
    ∃ s' log', Recorded (s', log') ∧ Table s' m'
      ∧ (log' 0).map chosen = (log 0).map chosen ++ [i] := by
  obtain ⟨hallows, rfl⟩ := play_eq_some.mp hplay
  have ht := h.received (Request.play (UInt8.ofNat i)).body
  have hread := readRequest_body s.buffer (q := .play (UInt8.ofNat i)) (show 2 < bufSize by decide)
  have hmeets : playGuard.meets s (.frame m.side (Request.play (UInt8.ofNat i)).body 0) := by
    refine Guard.meets_frame.mpr fun q hq => ?_
    obtain rfl := Option.some.inj (hread.symm.trans hq)
    exact ht.meets _
  have hstep := GuardedRun.recording_of_step record log (h.trans hallows hopen 0)
  refine ⟨_, _, .next hr hmeets hstep, ht.played hallows, ?_⟩
  have hrecord : record s (.frame m.side (Request.play (UInt8.ofNat i)).body 0) log
      = recordRequest (received s (Request.play (UInt8.ofNat i)).body) m.side
        (.play (UInt8.ofNat i)) log := by
    simp only [record, received, hread]
  rw [hrecord, ht.recorded hallows hopen, Function.update_self, List.map_append, List.map_singleton,
    ht.chosen hallows.2.1]

/-- Two clients have just sat down, on the descriptors `4` and `5`. -/
def SatDown (s : Server) : Prop :=
  s.nbClients = 2 ∧ s.nbRooms = 1 ∧ (s.clients 0).sock = 4 ∧ (s.clients 1).sock = 5
    ∧ (s.clients 0).roomId = (s.rooms 0).id ∧ (s.clients 1).roomId = (s.rooms 0).id
    ∧ ((s.rooms 0).game.players 0).id = 4 ∧ ((s.rooms 0).game.players 1).id = 5
    ∧ ((s.rooms 0).game.players 0).captured = 0 ∧ ((s.rooms 0).game.players 1).captured = 0
    ∧ (s.rooms 0).game.isStarted = true ∧ (s.rooms 0).game.nbPlayers = 2
    ∧ (s.rooms 0).game.nbSpectators = 0
    ∧ (s.rooms 0).game.turn = 0 ∧ ∀ h, (s.rooms 0).game.board h = initialSeed

instance (s : Server) : Decidable (SatDown s) := inferInstanceAs (Decidable (_ ∧ _))

theorem SatDown.table (h : SatDown s) : Table s .start := by
  obtain ⟨hn, hnb, hsock0, hsock1, hhome0, hhome1, hid0, hid1, hcap0, hcap1, hst, hplayers,
    hunwatched, hturn, hboard⟩ := h
  have htwo : ∀ {P : Nat → Prop}, P 0 → P 1 → ∀ c < 2, P c := by
    intro P h0 h1 c hc
    rcases Nat.lt_succ_iff_lt_or_eq.mp hc with hlt | rfl
    · exact Nat.lt_one_iff.mp hlt ▸ h0
    · exact h1
  refine ⟨hn, ?_, htwo hhome0 hhome1, hst, ?_, ?_, hunwatched, ?_⟩
  · exact live_iff.mpr (by rw [hnb]; decide)
  · exact htwo (hid0.trans hsock0.symm) (hid1.trans hsock1.symm)
  · rw [hsock0, hsock1]
    decide
  · refine shows_of hplayers (funext hboard) hturn fun e => ?_
    rcases AwaleConservation.side_cases e with rfl | rfl
    · exact hcap0
    · exact hcap1

def sitDown : List Event :=
  [.accept 4, .accept 5, .frame 0 Request.createRoom.body 7, .frame 1 (Request.joinRoom 7 0).body 0]

theorem table_start : ∃ s log, Recorded (s, log) ∧ Table s .start ∧ log 0 = [] := by
  have hmeets : GuardedRun.Meets (GuardedRun.recording trans record)
      (fun p e => playGuard.meets p.1 e) (initial fun _ => 0, fun _ => []) sitDown := by
    decide +kernel
  have hrun : (GuardedRun.run (GuardedRun.recording trans record)
      (initial fun _ => 0, fun _ => []) sitDown).map
        (fun r => (decide (SatDown r.1.1), (r.1.2 0).length)) = some (true, 0) := by
    decide +kernel
  have hinit : Initial (initial fun _ => 0) ∧ (fun _ => [] : History) = fun _ => [] :=
    ⟨⟨_, rfl⟩, rfl⟩
  obtain ⟨⟨s, log⟩, hr, hf⟩ : ∃ p : Server × History, Recorded p
      ∧ (decide (SatDown p.1), (p.2 0).length) = (true, 0) :=
    GuardedRun.reachable_of_eval hinit hmeets hrun
  obtain ⟨hsat, hlog⟩ := Prod.mk.inj hf
  exact ⟨s, log, hr, (of_decide_eq_true hsat).table, List.length_eq_zero_iff.mp hlog⟩

/-- **EVERY MATCH** that is not over is played at some table. -/
theorem table_replay (moves : List Nat) (hreplay : Match.replay moves = some m)
    (hopen : ¬ m.Over) :
    ∃ s log, Recorded (s, log) ∧ Table s m ∧ (log 0).map chosen = moves := by
  induction moves using List.reverseRecOn generalizing m with
  | nil =>
      obtain rfl : Match.start = m := Option.some.inj hreplay
      obtain ⟨s, log, hr, ht, hlog⟩ := table_start
      exact ⟨s, log, hr, ht, by rw [hlog]; rfl⟩
  | append_singleton moves i ih =>
      obtain ⟨m₀, hbefore, hplay⟩ := replay_append_singleton hreplay
      obtain ⟨⟨hnot, -⟩, -⟩ := play_eq_some.mp hplay
      obtain ⟨s, log, hr, ht, hlog⟩ := ih hbefore hnot
      obtain ⟨s', log', hr', ht', hlog'⟩ := table_play hr ht hplay hopen
      exact ⟨s', log', hr', ht', by rw [hlog', hlog]⟩

/-- **THE ROOMS PLAY EXACTLY THE MATCHES.**  Over the runs whose PLAYs are authorised, some room is
    in position `q` after accepting `moves` exactly when `moves` are those of a match that is not
    over and that is in position `q`. -/
theorem rooms_play_exactly (moves : List Nat) (q : Position) :
    (∃ (p : Server × History) (k : Nat), Recorded p ∧ Live p.1 k ∧ (p.2 k).map chosen = moves
        ∧ position (p.1.rooms k).game = q)
      ↔ ∃ m, Match.replay moves = some m ∧ ¬ m.Over ∧ m.position = q := by
  constructor
  · rintro ⟨p, k, hr, hk, rfl, rfl⟩
    obtain ⟨m, hreplay, hopen, hpos⟩ := rooms_play hr hk
    exact ⟨m, hreplay, hopen, hpos.symm⟩
  · rintro ⟨m, hreplay, hopen, rfl⟩
    obtain ⟨s, log, hr, ht, hlog⟩ := table_replay moves hreplay hopen
    exact ⟨(s, log), 0, hr, ht.live, hlog, ht.shows.position⟩

end AwalePlayedMatch
