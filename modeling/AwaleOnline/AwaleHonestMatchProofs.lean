import AwaleOnline.AwalePlayedMatchProofs
import AwaleOnline.AwalePictureProofs
import AwaleOnline.AwaleDisplayProofs

/-!
# Matches between the program's own clients

The server leaves the authorisation of a move to the client, which asks for a move when it knows
that it is its turn.  Between such clients nothing more is needed.

* **`served_meets`** — whatever else is in flight, a PLAY that the server reads from such a client
  is authorised;
* **`facing_play`** — two of them can type every move of a match;
* **`system_plays_exactly`** — so in the runs under `turnGuard` the rooms play exactly the matches;
* **`pictures_current`** — and what a member has on its screen is a position of its room's match.
-/

namespace AwaleHonestMatch

open AwaleGame AwaleProtocol AwaleServer AwaleEffect AwaleBounds AwaleRoster
open AwaleClient AwaleSystem AwaleTidy AwaleDialogue AwaleStanding AwaleService AwaleTurn
open AwaleAuthorisation AwaleMatch AwalePlayedMatch

variable {sys sys' : System} {c k i : Nat} {e : Move} {out : List Sent} {m m' : Match}
  {up : List Request} {pos : UInt8}

/-! ## Moves of the clients are authorised -/

/-- **A PLAY THAT IS SERVED** is the sender's own move, in a started room, or finds no room. -/
theorem served_meets (h : InStep sys) (hc : c < sys.server.nbClients)
    (hup : (sys.linkOf c).up = .play pos :: up) : PlayMeets sys.server c pos := by
  have hcoh := h.coherent c hc
  rw [hup] at hcoh
  intro i hi _
  obtain ⟨-, ⟨habsent, -⟩ | ⟨k, e, hown, -, hturn, -⟩⟩ := hcoh.moving
  · have hnone := h.settled.findRoom_absent hc habsent
    rw [hnone] at hi
    cases hi
  · obtain rfl := Option.some.inj ((h.settled.findRoom_member hc hown).symm.trans hi)
    obtain ⟨he, hstarted, hside⟩ := expected_eq_waitingPlayInput hturn
    obtain ⟨hlive, hmember, hid⟩ := entry_eq_some.mp hown
    have hsideIn : sideIn sys.server c k = e := by
      rcases Nat.lt_succ_iff_lt_or_eq.mp he with hlt | rfl
      · obtain rfl := Nat.lt_one_iff.mp hlt
        exact sideIn_zero hid
      · refine sideIn_one fun hzero => ?_
        -- a client is in one entry only
        have hseats : 1 < (sys.server.rooms k).game.nbPlayers := by
          rcases hmember with hlt | ⟨hge, -⟩
          · exact hlt
          · omega
        have hfirst : entry sys.server k 0 = some (sys.server.clients c).sock :=
          entry_eq_some.mpr ⟨hlive, Or.inl (Nat.lt_of_succ_lt hseats), hzero⟩
        obtain ⟨-, heq⟩ := h.settled.single c hc k 0 k 1 hfirst hown
        cases heq
    rw [hsideIn]
    exact ⟨hstarted, hid, hside⟩

/-! ## The server's run -/

/-- What the server sees of a move. -/
def eventOf (sys : System) : Move → Option Event
  | .accept csock => some (.accept csock)
  | .input _ _ => none
  | .serve c rand => (sys.linkOf c).up.head?.map fun q => .frame c q.body rand
  | .receive _ => none
  | .hangUp c => some (.disconnect c)

theorem move_event (h : move sys e = some (sys', out)) :
    (eventOf sys e = none ∧ sys'.server = sys.server)
      ∨ ∃ e' out', eventOf sys e = some e' ∧ trans sys.server e' = some (sys'.server, out') := by
  cases e with
  | accept csock =>
      obtain ⟨sys₁, h₁, heq⟩ := Option.map_eq_some_iff.mp h
      obtain ⟨rfl, -⟩ := Prod.mk.inj heq
      obtain ⟨r, hr, rfl⟩ := Option.map_eq_some_iff.mp h₁
      exact Or.inr ⟨_, _, rfl, hr⟩
  | input c line =>
      obtain ⟨sys₁, h₁, heq⟩ := Option.map_eq_some_iff.mp h
      obtain ⟨rfl, -⟩ := Prod.mk.inj heq
      simp only [input] at h₁
      split at h₁
      · split at h₁
        · exact Or.inl ⟨rfl, Option.some.inj h₁ ▸ rfl⟩
        · cases h₁
        · exact Or.inl ⟨rfl, Option.some.inj h₁ ▸ rfl⟩
      · cases h₁
  | serve c rand =>
      simp only [move, serve] at h
      split at h
      · cases h
      · rename_i q up hup
        obtain ⟨r, hr, heq⟩ := Option.map_eq_some_iff.mp h
        obtain ⟨rfl, -⟩ := Prod.mk.inj heq
        refine Or.inr ⟨_, _, ?_, hr⟩
        rw [eventOf, hup]
        rfl
  | receive c =>
      obtain ⟨sys₁, h₁, heq⟩ := Option.map_eq_some_iff.mp h
      obtain ⟨rfl, -⟩ := Prod.mk.inj heq
      simp only [receiveFrame] at h₁
      split at h₁
      · split at h₁
        · cases h₁
        · exact Or.inl ⟨rfl, Option.some.inj h₁ ▸ rfl⟩
      · cases h₁
  | hangUp c =>
      obtain ⟨sys₁, h₁, heq⟩ := Option.map_eq_some_iff.mp h
      obtain ⟨rfl, -⟩ := Prod.mk.inj heq
      simp only [hangUp] at h₁
      split at h₁
      · obtain ⟨r, hr, rfl⟩ := Option.map_eq_some_iff.mp h₁
        exact Or.inr ⟨_, _, rfl, hr⟩
      · cases h₁

/-- The events of a run under `turnGuard` meet the server's condition on PLAYs. -/
theorem event_meets (h : Reachable turnGuard sys) {e' : Event} (he : eventOf sys e = some e')
    {r : Server × List Sent} (htrans : trans sys.server e' = some r) :
    playGuard.meets sys.server e' := by
  cases e with
  | accept csock =>
      obtain rfl := Option.some.inj he
      trivial
  | input c line => cases he
  | serve c rand =>
      obtain ⟨q, hq, rfl⟩ := Option.map_eq_some_iff.mp he
      obtain ⟨up, hup⟩ : ∃ up, (sys.linkOf c).up = q :: up := by
        cases hlist : (sys.linkOf c).up with
        | nil =>
            rw [hlist] at hq
            cases hq
        | cons q' up =>
            rw [hlist] at hq
            exact ⟨up, by rw [Option.some.inj hq]⟩
      have hlen : q.body.length + 2 ≤ bufSize := by
        refine fits h (sys.server.clients c).sock q ?_
        show q ∈ (sys.linkOf c).up
        rw [hup]
        exact List.mem_cons_self
      obtain ⟨hpossible, -⟩ : Possible sys.server (.frame c q.body rand) ∧ _ :=
        trans_eq_some htrans
      refine Guard.meets_frame.mpr fun q' hq' => ?_
      have hread := readRequest_body sys.server.buffer (q := q) (by omega)
      obtain rfl := Option.some.inj (hread.symm.trans hq')
      cases q with
      | play pos => exact served_meets (inStep_reachable h) hpossible.1 hup
      | _ => trivial
  | receive c => cases he
  | hangUp c =>
      obtain rfl := Option.some.inj he
      trivial

/-- The server of such a run, with the moves its rooms have accepted. -/
theorem system_recorded (h : Reachable turnGuard sys) : ∃ log, Recorded (sys.server, log) := by
  have hsim : ∃ p, Recorded p ∧ p.1 = sys.server := by
    refine h.simulate (R := fun sys (p : Server × History) => p.1 = sys.server) ?_ ?_
    · intro sys hinit
      exact ⟨(sys.server, fun _ => []), ⟨hinit.1, rfl⟩, rfl⟩
    · rintro sys ⟨s, log⟩ e sys' out hr _ hs _ hmove
      obtain rfl : s = sys.server := hs
      rcases move_event hmove with ⟨-, hsame⟩ | ⟨e', out', he, htrans⟩
      · exact Or.inl hsame.symm
      · exact Or.inr ⟨_, _, _, event_meets hr he htrans,
          GuardedRun.recording_of_step record log htrans, rfl⟩
  obtain ⟨⟨s, log⟩, hr, hs⟩ := hsim
  exact ⟨log, hs ▸ hr⟩

/-- The rooms play matches, in every run under `turnGuard`. -/
theorem system_plays (h : Reachable turnGuard sys) (hk : Live sys.server k) :
    ∃ moves m, Match.replay moves = some m ∧ ¬ m.Over
      ∧ position (sys.server.rooms k).game = m.position := by
  obtain ⟨log, hr⟩ := system_recorded h
  obtain ⟨m, hreplay, hopen, hpos⟩ := rooms_play hr hk
  exact ⟨_, m, hreplay, hopen, hpos⟩

/-! ## Every match can be typed -/

section Moves

variable {st st' : State} {sent : List Request} {down : List ServerMsg} {closed : Bool}
  {line : CString} {q : Request} {f : ServerMsg} {rand : UInt32} {s' : Server}

theorem move_input (hc : c < sys.server.nbClients) (hlink : sys.linkOf c = ⟨st, up, down, false⟩)
    (hin : handleUserInput st line = .next st' sent) :
    move sys (.input c line)
      = some (⟨sys.server, sys.setLink c ⟨st', up ++ sent, down, false⟩⟩, []) := by
  simp only [move, input, hlink]
  rw [if_pos ⟨hc, trivial⟩, hin]
  rfl

theorem move_serve (hlink : sys.linkOf c = ⟨st, q :: up, down, closed⟩)
    (htrans : trans sys.server (.frame c q.body rand) = some (s', out)) :
    move sys (.serve c rand)
      = some (⟨s', deliver (sys.setLink c ⟨st, up, down, closed⟩) out⟩, out) := by
  simp only [move, serve, hlink]
  rw [htrans]
  rfl

end Moves

/-- Two players at their table, with nothing in flight. -/
structure Facing (sys : System) (m : Match) : Prop where
  reached : Reachable turnGuard sys
  table : Table sys.server m
  quiet : ∀ c < 2, ∃ st, sys.linkOf c = ⟨st, [], [], false⟩

/-- What a player types for a house. -/
def numeral (i : Nat) : CString := literal (["1", "2", "3", "4", "5", "6"].getD i "")

theorem numeral_played : ∀ i < boardSize / 2, handleUserInput .waitingPlayInput (numeral i)
    = .next .waitingPlayAck [.play (UInt8.ofNat i)] := by
  decide +kernel

theorem Facing.mover (h : Facing sys m) :
    sys.linkOf m.side = ⟨.waitingPlayInput, [], [], false⟩ := by
  have hc := m.side.isLt
  obtain ⟨st, hlink⟩ := h.quiet m.side hc
  have hstate := (inStep_reachable h.reached).agree (known_reachable h.reached) h.table.live
    h.table.started hc (h.table.clients.symm ▸ hc) (h.table.seats _ hc)
    (hlink.symm ▸ ⟨rfl, rfl⟩)
  rw [if_pos h.table.shows.turn, hlink] at hstate
  obtain rfl : st = .waitingPlayInput := hstate
  exact hlink

/-- The mover has typed the house. -/
theorem Facing.typed (h : Facing sys m) (hi : i < boardSize / 2) :
    Reachable turnGuard ⟨sys.server, sys.setLink m.side
      ⟨.waitingPlayAck, [.play (UInt8.ofNat i)], [], false⟩⟩ := by
  have hguard : turnGuard sys (.input m.side (numeral i)) := trivial
  exact .next h.reached hguard
    (move_input (h.table.clients.symm ▸ m.side.isLt) h.mover (numeral_played i hi))

/-- A move that is served is told to each player once. -/
theorem table_told {s : Server} (ho : Orderly s) (h : Table s m) (hallows : m.Allows i)
    (hc : c < 2) :
    ∃ f, framesTo (s.clients c).sock (replies s m.side 0 (UInt8.ofNat i)) = [f] := by
  have hown : entry s 0 c = some (s.clients c).sock :=
    entry_eq_some.mpr ⟨h.live, Or.inl (h.shows.players.symm ▸ hc), h.seats c hc⟩
  have hvalid : (playIn s m.side 0 (UInt8.ofNat i)).2 = .validPlay := by
    rw [h.playIn hallows.2.1, gamePlay_result]
    exact (playCheck_iff h.shows i).mpr hallows.2
  obtain ⟨score, score', board, hframes⟩ :=
    ho.framesTo_valid (h.clients.symm ▸ hc) hown hvalid
  exact ⟨_, hframes⟩

/-- Each player has one frame to read once the move is served. -/
theorem Facing.served (h : Facing sys m) (hallows : m.Allows i)
    (hopen : ¬ (m.moved i hallows.2.1).Over) :
    ∃ sys', Reachable turnGuard sys' ∧ Table sys'.server (m.moved i hallows.2.1)
      ∧ ∀ c < 2, ∃ st f, sys'.linkOf c = ⟨st, [], [f], false⟩ := by
  have hr := h.typed hallows.2.1
  have hlink : ∀ a, System.linkOf ⟨sys.server, sys.setLink m.side
      ⟨.waitingPlayAck, [.play (UInt8.ofNat i)], [], false⟩⟩ a = _ :=
    fun a => linkOf_setLink m.side a _
  have hmover := (hlink m.side).trans (if_pos rfl)
  have hguard : turnGuard ⟨sys.server, sys.setLink m.side
      ⟨.waitingPlayAck, [.play (UInt8.ofNat i)], [], false⟩⟩ (.serve m.side 0) := by
    -- a move is a request without a condition
    intro q hq
    rw [hmover] at hq
    obtain rfl := Option.some.inj hq
    trivial
  refine ⟨_, .next hr hguard (move_serve hmover (h.table.trans hallows hopen 0)),
    (h.table.received _).played hallows, fun c hc => ?_⟩
  have ho := (inStep_reachable h.reached).orderly (known_reachable h.reached)
  have ht := h.table.received (Request.play (UInt8.ofNat i)).body
  obtain ⟨f, hf⟩ := table_told (s := received sys.server (Request.play (UInt8.ofNat i)).body)
    ⟨ho.settled, ho.distinct, ho.sized, ho.founded, ho.opening⟩ ht hallows hc
  obtain ⟨st, hquiet⟩ := h.quiet c hc
  by_cases hsame : (sys.server.clients c).sock = (sys.server.clients m.side).sock
  · refine ⟨.waitingPlayAck, f, (linkOf_served (fun _ => rfl) c _).trans ?_⟩
    rw [linkOf_setLink, if_pos hsame]
    exact congrArg (Link.mk .waitingPlayAck [] · false) hf
  · refine ⟨st, f, (linkOf_served (fun _ => rfl) c _).trans ?_⟩
    rw [linkOf_setLink, if_neg hsame, hlink, if_neg hsame, hquiet]
    exact congrArg (Link.mk st [] · false) hf

/-- **PICTURES ARE CURRENT.**  In a run under `turnGuard`, the board that a member of a room with
    nothing in flight has on its screen, if any, is the position of a match that is not over and
    that its room is in, number by number and from its own side, in a box closed on the right. -/
theorem pictures_current {g : AwaleDisplay.Sight} {e : Nat} (h : AwaleDisplay.Watched (sys, g))
    (hc : c < sys.server.nbClients) (hown : entry sys.server k e = some (sys.server.clients c).sock)
    (hquiet : Quiet (sys.linkOf c)) :
    g.screen (sys.server.clients c).sock = none
      ∨ ∃ (moves : List Nat) (m : Match) (side : Fin 2) (score score' : UInt8) (board : List UInt8),
          Match.replay moves = some m ∧ ¬ m.Over ∧ Shows (sys.server.rooms k).game m
            ∧ side.val = viewSide (sys.server.rooms k).game e
            ∧ g.screen (sys.server.clients c).sock = some (.played score score' board)
            ∧ seen (.played score score' board) = some (m.view side)
            ∧ ∀ line ∈ AwalePicture.boxLines score score' fun i => board.getD i 0,
                line.length = AwalePicture.total := by
  have hreach := AwaleDisplay.watched_reachable h
  have hin := AwaleDisplay.inSight_watched h
  rw [hin.read_all hc hown hquiet]
  refine (hin.current c hc k e hown).imp_right ?_
  rintro ⟨hstarted, htold⟩
  obtain ⟨hlive, -⟩ := entry_eq_some.mp hown
  have htwo := ((known_reachable hreach).sized k).started.mp hstarted
  obtain ⟨moves, m, hreplay, hopen, hpos⟩ := system_plays hreach hlive
  have hshows : Shows (sys.server.rooms k).game m := ⟨htwo, hpos⟩
  have hside : viewSide (sys.server.rooms k).game e < 2 := by
    rw [viewSide, htwo]
    split <;> omega
  have hseen := writePlayed_seen hshows ⟨_, hside⟩
  refine ⟨moves, m, ⟨_, hside⟩, _, _, _, hreplay, hopen, hshows, rfl, htold, hseen, ?_⟩
  exact AwalePicture.boxLines_width fun i hi => seen_small hseen hi

/-- What the second player sees when it is back. -/
theorem pictures_current_comeback :
    ∃ (p : System × AwaleDisplay.Sight) (m : Match) (score score' : UInt8) (board : List UInt8),
      p.2.screen (p.1.server.clients 1).sock = some (.played score score' board)
        ∧ Shows (p.1.server.rooms 0).game m
        ∧ seen (.played score score' board) = some (m.view 1) := by
  obtain ⟨⟨sys, g⟩, hp, hback⟩ := AwaleDisplay.comeback_watched
  obtain hnone | ⟨-, m, side, score, score', board, -, -, hshows, hside, hscreen, hseen, -⟩ :=
    pictures_current hp (hback.2.1.symm ▸ Nat.one_lt_two) hback.seated hback.quiet
  all_goals obtain ⟨-, -, -, hplayers, -, hsome⟩ := hback
  · rw [hnone] at hsome
    cases hsome
  · have hone : viewSide (sys.server.rooms 0).game 1 = 1 := if_pos (hplayers.symm ▸ Nat.one_lt_two)
    obtain rfl : side = 1 := Fin.ext (hside.trans hone)
    exact ⟨(sys, g), m, score, score', board, hscreen, hshows, hseen⟩

end AwaleHonestMatch
