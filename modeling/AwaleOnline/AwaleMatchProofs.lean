import AwaleOnline.AwaleStarvationProofs
import AwaleOnline.AwaleAuthorisationProofs
import AwaleOnline.AwaleViewProofs

/-!
# The game as a match

What a room plays, without sockets, stores and loops: two sides with 48 seeds between them, a move
for each in turn, until one of them has more than half of the seeds or each of them half.

* **`Match`** — a position with all its seeds;
* **`Match.play`** — a move in closed form: the house is dealt round the ring and the mover takes
  the run at the end of it, unless the scan of the other row finds nothing to leave behind;
* **`Match.replay`** — the position a list of moves leads to;
* **`gamePlay_moved`** — `game_play` in a game of two players is that move;
* **`ended_iff_over`** — `game_is_ended` is the end of the match;
* **`writePlayed_seen`** — a PLAYED frame shows its position, with nothing cut off.

The rules are the code's: the scan of side `1` looks at a house of its own row as well.
-/

namespace AwaleMatch

open AwaleGame AwaleProtocol AwaleConservation AwaleSowing AwaleCapture AwaleStarvation
  AwaleAuthorisation AwaleView

variable {b : Board} {R : Finset Nat} {game : Game} {side last pos i : Nat}

/-! ## Seeds taken from a board -/

/-- The board without the seeds of some houses. -/
def emptied (b : Board) (R : Finset Nat) : Board := fun h => if h.val ∈ R then 0 else b h

def taken (b : Board) (R : Finset Nat) : Nat := ∑ j ∈ R, b (house j)

theorem taken_seeds (b : Board) (R : Finset Nat) : (taken b R : Int) = seeds b R :=
  Nat.cast_sum R fun j => b (house j)

theorem emptied_insert {j : Nat} (hj : j < boardSize) :
    emptied b (insert j R) = Function.update (emptied b R) (house j) 0 := by
  funext h
  have hself : h = house j ↔ h.val = j := by
    rw [Fin.ext_iff]
    show h.val = j % boardSize ↔ h.val = j
    rw [Nat.mod_eq_of_lt hj]
  by_cases hh : h.val = j
  · rw [hself.mpr hh, Function.update_self]
    refine if_pos ?_
    rw [← hself.mpr hh, hh]
    exact Finset.mem_insert_self j R
  · rw [Function.update_of_ne (mt hself.mp hh)]
    refine if_congr ?_ rfl rfl
    rw [Finset.mem_insert, or_iff_right hh]

/-- What is taken is what is missing. -/
theorem emptied_taken (b : Board) (R : Finset Nat) (hR : ∀ j ∈ R, j < boardSize) :
    boardSum (emptied b R) + taken b R = boardSum b := by
  induction R using Finset.induction_on with
  | empty => rfl
  | insert j R hj ih =>
      have hlt : j < boardSize := hR j (Finset.mem_insert_self j R)
      have hrest := ih fun k hk => hR k (Finset.mem_insert_of_mem hk)
      have hsum := boardSum_update (emptied b R) (house j) 0
      have hstill : emptied b R (house j) = b (house j) := by
        refine if_neg ?_
        show j % boardSize ∉ R
        rw [Nat.mod_eq_of_lt hlt]
        exact hj
      have htaken : taken b (insert j R) = b (house j) + taken b R := Finset.sum_insert hj
      rw [emptied_insert hlt, htaken]
      omega

theorem boardSum_sown (hpos : pos < boardSize) (hb : boardSum b ≤ 48) :
    boardSum (sown b pos) = boardSum b := by
  rw [← sowHouse_unbounded hpos]
  exact sowHouse_total pos (unbounded_exact 48) hb

/-! ## The rules -/

/-- Something other than nothing, two or three seeds lies in the other row; or, for side `1`, in
    the house behind it. -/
def Spared (b : Board) (side : Nat) : Prop :=
  (∃ j ∈ oppositeRow side, Kept (b (house j)))
    ∨ (side = 1 ∧ Kept (b (house (boardSize / 2))))

instance (b : Board) (side : Nat) : Decidable (Spared b side) :=
  inferInstanceAs (Decidable (_ ∨ _))

/-- What the mover takes from a board it has just sown. -/
def spoils (b : Board) (side last : Nat) : Finset Nat :=
  if Spared b side then captureRun b side last else ∅

theorem spoils_lt {j : Nat} (hj : j ∈ spoils b side last) : j < boardSize := by
  rw [spoils] at hj
  split at hj
  · exact oppositeRow_lt (captureRun_subset hj)
  · cases hj

/-- A position of a match.  No seed is ever missing. -/
@[ext] structure Match where
  board : Board
  won : Fin 2 → Nat
  side : Fin 2
  seeds : boardSum board + won 0 + won 1 = 48

def Match.start : Match where
  board _ := initialSeed
  won _ := 0
  side := ⟨0, Nat.zero_lt_two⟩
  seeds := rfl

/-- A side has more than half of the seeds, or both have half. -/
def Match.Over (m : Match) : Prop := (∃ e, 24 < m.won e) ∨ ∀ e, m.won e = 24

instance (m : Match) : Decidable m.Over := inferInstanceAs (Decidable (_ ∨ _))

/-- The houses of a row are counted from `0`. -/
def Match.origin (m : Match) (i : Nat) : Nat := boardSize / 2 * m.side + i

def Match.Allows (m : Match) (i : Nat) : Prop :=
  ¬ m.Over ∧ i < boardSize / 2 ∧ 0 < m.board (house (m.origin i))

instance (m : Match) (i : Nat) : Decidable (m.Allows i) := inferInstanceAs (Decidable (_ ∧ _))

variable {m m' : Match}

theorem over_iff : m.Over ↔ 24 < m.won 0 ∨ 24 < m.won 1 ∨ (m.won 0 = 24 ∧ m.won 1 = 24) := by
  rw [Match.Over, Fin.exists_fin_two, Fin.forall_fin_two, or_assoc]

theorem Match.origin_lt (m : Match) (hi : i < boardSize / 2) : m.origin i < boardSize := by
  have hside := m.side.isLt
  simp only [Match.origin, boardSize] at hi ⊢
  omega

theorem Match.board_le (m : Match) : boardSum m.board ≤ 48 := by
  have hseeds := m.seeds
  omega

theorem won_update (won : Fin 2 → Nat) (side : Fin 2) (k : Nat) :
    Function.update won side (won side + k) 0 + Function.update won side (won side + k) 1
      = won 0 + won 1 + k := by
  rcases side_cases side with rfl | rfl
  · rw [Function.update_self, Function.update_of_ne Fin.zero_ne_one.symm]
    omega
  · rw [Function.update_self, Function.update_of_ne Fin.zero_ne_one]
    omega

/-- What a move takes. -/
def Match.spoils (m : Match) (i : Nat) : Finset Nat :=
  AwaleMatch.spoils (sown m.board (m.origin i)) m.side (lastHouse m.board (m.origin i))

theorem moved_seeds (m : Match) (i : Nat) (hi : i < boardSize / 2) :
    boardSum (emptied (sown m.board (m.origin i)) (m.spoils i))
        + Function.update m.won m.side
          (m.won m.side + taken (sown m.board (m.origin i)) (m.spoils i)) 0
        + Function.update m.won m.side
          (m.won m.side + taken (sown m.board (m.origin i)) (m.spoils i)) 1 = 48 := by
  have hrest := emptied_taken (sown m.board (m.origin i)) (m.spoils i) fun j hj => spoils_lt hj
  have hsown := boardSum_sown (m.origin_lt hi) m.board_le
  have hwon := won_update m.won m.side (taken (sown m.board (m.origin i)) (m.spoils i))
  have hseeds := m.seeds
  omega

/-- The position behind a move. -/
def Match.moved (m : Match) (i : Nat) (hi : i < boardSize / 2) : Match where
  board := emptied (sown m.board (m.origin i)) (m.spoils i)
  won := Function.update m.won m.side
    (m.won m.side + taken (sown m.board (m.origin i)) (m.spoils i))
  side := m.side.rev
  seeds := moved_seeds m i hi

def Match.play (m : Match) (i : Nat) : Option Match :=
  if h : m.Allows i then some (m.moved i h.2.1) else none

/-- The position that moves of the two sides in turn lead to. -/
def Match.replay (moves : List Nat) : Option Match := moves.foldlM Match.play Match.start

theorem play_eq_some :
    m.play i = some m' ↔ ∃ h : m.Allows i, m' = m.moved i h.2.1 := by
  rw [Match.play]
  constructor
  · intro h
    split at h
    · rename_i hallows
      exact ⟨hallows, (Option.some.inj h).symm⟩
    · cases h
  · rintro ⟨hallows, rfl⟩
    exact dif_pos hallows

theorem replay_append_singleton {moves : List Nat}
    (h : Match.replay (moves ++ [i]) = some m') :
    ∃ m, Match.replay moves = some m ∧ m.play i = some m' := by
  rw [Match.replay, List.foldlM_append] at h
  obtain ⟨m, hbefore, hlast⟩ := Option.bind_eq_some_iff.mp h
  exact ⟨m, hbefore, (bind_pure (m.play i)).symm.trans hlast⟩

/-! ## Seeds once won stay won -/

theorem won_moved (m : Match) (hi : i < boardSize / 2) (e : Fin 2) :
    m.won e ≤ (m.moved i hi).won e := by
  show m.won e ≤ Function.update m.won m.side _ e
  by_cases he : e = m.side
  · rw [he, Function.update_self]
    exact Nat.le_add_right _ _
  · rw [Function.update_of_ne he]

/-- A match that is over stays over. -/
theorem over_mono (h : m.Over) (hwon : ∀ e, m.won e ≤ m'.won e) : m'.Over := by
  have h0 := hwon 0
  have h1 := hwon 1
  have hseeds := m'.seeds
  rw [over_iff] at h ⊢
  omega

/-! ## The code's game -/

/-- A position of a match, as the server's games are compared by. -/
def Match.position (m : Match) : Position where
  board := m.board
  turn := m.side
  captured e := if h : e < 2 then m.won ⟨e, h⟩ else 0

/-- A game of two players is in a position of a match. -/
structure Shows (game : Game) (m : Match) : Prop where
  players : game.nbPlayers = 2
  position : position game = m.position

theorem start_position : Match.start.position = startPosition := by
  refine congrArg (Position.mk (fun _ => initialSeed) 0) (funext fun e => ?_)
  by_cases he : e < 2
  · exact dif_pos he
  · exact dif_neg he

theorem Shows.board (h : Shows game m) : game.board = m.board :=
  congrArg Position.board h.position

theorem Shows.turn (h : Shows game m) : game.turn = m.side := congrArg Position.turn h.position

theorem Shows.captured (h : Shows game m) (e : Fin 2) : (game.players e).captured = m.won e := by
  have hcaptured : (AwaleAuthorisation.position game).captured e = m.position.captured e := by
    rw [h.position]
  have hgame : (AwaleAuthorisation.position game).captured e = (game.players e).captured :=
    if_pos (h.players.symm ▸ e.isLt)
  have hmatch : m.position.captured e = m.won e := dif_pos e.isLt
  rw [← hgame, hcaptured, hmatch]

/-- What makes a game show a match. -/
theorem shows_of (hplayers : game.nbPlayers = 2) (hboard : game.board = m.board)
    (hturn : game.turn = m.side) (hcaptured : ∀ e : Fin 2, (game.players e).captured = m.won e) :
    Shows game m := by
  refine ⟨hplayers, ?_⟩
  have hall : (position game).captured = m.position.captured := by
    funext e
    by_cases he : e < 2
    · have hgame : (position game).captured e = (game.players e).captured :=
        if_pos (hplayers.symm ▸ he)
      have hmatch : m.position.captured e = m.won ⟨e, he⟩ := dif_pos he
      rw [hgame, hmatch]
      exact hcaptured ⟨e, he⟩
    · have hgame : (position game).captured e = 0 := if_neg (hplayers.symm ▸ he)
      have hmatch : m.position.captured e = 0 := dif_neg he
      rw [hgame, hmatch]
  show Position.mk game.board game.turn (position game).captured
    = Position.mk m.board m.side m.position.captured
  rw [hboard, hturn, hall]

theorem Shows.conserved (h : Shows game m) : Conserved 48 game := by
  have h0 : (game.players 0).captured = m.won 0 := h.captured 0
  have h1 : (game.players 1).captured = m.won 1 := h.captured 1
  have hseeds := m.seeds
  refine ⟨?_, ?_, ?_⟩
  · rw [AwaleConservation.total, h.board, h0, h1]
    omega
  · rw [h0]
    exact Int.natCast_nonneg _
  · rw [h1]
    exact Int.natCast_nonneg _

/-- **THE END.** -/
theorem ended_iff_over (h : Shows game m) : gameIsEnded game = .notEnded ↔ ¬ m.Over := by
  have h0 : (game.players 0).captured = m.won 0 := h.captured 0
  have h1 : (game.players 1).captured = m.won 1 := h.captured 1
  rw [AwaleVerdict.ended_iff h.conserved, over_iff]
  simp only [AwaleVerdict.Verdict, h0, h1]
  omega

/-- In a game of two players the byte behind the row of side `1` never counts. -/
theorem permitted_iff (hplayers : game.nbPlayers = 2) (side : Fin 2) :
    Permitted game side ↔ Spared game.board side := by
  refine or_congr Iff.rfl ?_
  rcases side_cases side with rfl | rfl
  · have hbyte : nextByte game 0 = 2 := by
      show game.byte boardSize = 2
      rw [Game.byte, dif_neg (Nat.lt_irrefl _), hplayers]
      rfl
    constructor
    · intro hkept
      have hkept' : Kept (nextByte game 0) := hkept
      rw [hbyte] at hkept'
      exact absurd rfl hkept'.2.1
    · rintro ⟨hone, -⟩
      cases hone
  · have hbyte : nextByte game 1 = game.board (house (boardSize / 2)) :=
      byte_house game (show boardSize / 2 < boardSize by decide)
    constructor
    · intro hkept
      have hkept' : Kept (nextByte game 1) := hkept
      rw [hbyte] at hkept'
      exact ⟨rfl, hkept'⟩
    · rintro ⟨-, hkept⟩
      show Kept (nextByte game 1)
      rw [hbyte]
      exact hkept

theorem captures_spoils (hplayers : game.nbPlayers = 2) (side : Fin 2) (last : Nat) :
    captures game side last = spoils game.board side last :=
  if_congr (permitted_iff hplayers side) rfl rfl

/-- The number of the house a PLAY names. -/
theorem playCheck_iff (h : Shows game m) (i : Nat) :
    playCheck game (m.origin i : Nat) m.side = .validPlay
      ↔ i < boardSize / 2 ∧ 0 < m.board (house (m.origin i)) := by
  have hside := m.side.isLt
  constructor
  · intro hv
    have hrow := playCheck_row (Nat.le_of_lt_succ hside) hv
    obtain ⟨-, -, hseeds⟩ := playCheck_valid hv
    rw [Int.toNat_natCast] at hrow hseeds
    rw [← h.board]
    refine ⟨?_, hseeds⟩
    obtain ⟨-, hlt⟩ := Finset.mem_Ico.mp hrow
    simp only [Match.origin] at hlt
    omega
  · rintro ⟨hi, hseeds⟩
    have hown : playCheck game (m.origin i : Nat) m.side = _ :=
      playCheck_own (Nat.le_of_lt_succ hside) (Nat.le_add_right _ i) (Nat.add_lt_add_left hi _)
    rw [h.board] at hown
    exact hown.trans (if_neg (Nat.not_le.mpr hseeds))

/-- The `int8_t` holds what the mover has after taking some houses. -/
theorem take_captured (h : Shows game m) (hR : ∀ j ∈ R, j < boardSize)
    (hb : boardSum b = boardSum m.board) (e : Fin 2) :
    ((take { game with board := b } m.side R).players e).captured
      = (Function.update m.won m.side (m.won m.side + taken b R) e : Nat) := by
  have hseeds : seeds b R = taken b R := (taken_seeds b R).symm
  have htaken := emptied_taken b R hR
  have hcaptured := h.captured m.side
  by_cases he : e = m.side
  · subst he
    rw [Function.update_self]
    show (Function.update game.players m.side _ m.side).captured = _
    rw [Function.update_self]
    show (if R = ∅ then (game.players m.side).captured
      else ((game.players m.side).captured + seeds b R).bmod 256) = _
    rw [hcaptured, hseeds]
    split
    · rename_i hnone
      rw [hnone]
      rfl
    · have hwon := h.conserved.captured_le m.side
      rw [hcaptured, h.board] at hwon
      have hsmall := (bmod_eq_self_iff (m.won m.side + taken b R : Int)).mpr (by omega)
      rw [hsmall]
      exact (Nat.cast_add ..).symm
  · have hne : e.val ≠ m.side.val := fun hval => he (Fin.ext hval)
    rw [Function.update_of_ne he]
    show (Function.update game.players m.side _ e).captured = _
    rw [Function.update_of_ne hne]
    exact h.captured e

/-- **A PLAY IS A MOVE OF THE MATCH.** -/
theorem gamePlay_moved (h : Shows game m) (hi : i < boardSize / 2)
    (hv : playCheck game (m.origin i : Nat) m.side = .validPlay) :
    Shows (gamePlay machine game (m.origin i : Nat) m.side).1 (m.moved i hi) := by
  have hboard : boardSum game.board ≤ 255 := Nat.le_trans h.conserved.board_le (by decide)
  have hplay := congrArg Prod.fst (gamePlay_eq hboard hv)
  rw [Int.toNat_natCast] at hplay
  have hspoils : captures (sownGame game (m.origin i)) m.side (lastHouse game.board (m.origin i))
      = m.spoils i := by
    rw [Match.spoils]
    rw [← h.board]
    have hplayers : (sownGame game (m.origin i)).nbPlayers = 2 := h.players
    exact captures_spoils hplayers m.side _
  rw [hspoils] at hplay
  rw [hplay]
  refine shows_of h.players ?_ ?_ fun e => ?_
  · show emptied (sown game.board (m.origin i)) _ = emptied (sown m.board (m.origin i)) _
    rw [h.board]
  · show (if game.turn = 0 then 1 else 0) = m.side.rev.val
    rw [h.turn]
    rcases side_cases m.side with hside | hside <;> rw [hside] <;> rfl
  · have hsown : boardSum (sown m.board (m.origin i)) = boardSum m.board :=
      boardSum_sown (m.origin_lt hi) m.board_le
    rw [sownGame, h.board]
    exact take_captured h (fun j hj => spoils_lt hj) hsown e

/-! ## What is shown of it -/

/-- The position as the player of a side counts it. -/
def Match.view (m : Match) (side : Fin 2) : View where
  own := m.won side
  other := m.won side.rev
  houses := (List.range boardSize).map fun k => m.board (house (k + boardSize / 2 * side))

/-- The numbers in a PLAYED frame. -/
def seen : ServerMsg → Option View
  | .played score score' board => some ⟨score.toNat, score'.toNat, board.map UInt8.toNat⟩
  | _ => none

theorem Match.house_le (m : Match) (h : Fin boardSize) : m.board h ≤ 48 :=
  Nat.le_trans (le_boardSum m.board h) m.board_le

/-- **A FRAME SHOWS THE POSITION** from the side it is written for. -/
theorem writePlayed_seen (h : Shows game m) (side : Fin 2) :
    seen (writePlayed side game) = some (m.view side) := by
  have hcount : ∀ e : Fin 2, ((byteOfCaptured (game.players e).captured).toNat : Int) = m.won e := by
    intro e
    have hle := h.conserved.captured_le e
    rw [← h.captured e]
    exact toNat_byteOfCaptured hle.1 (by omega)
  have hother : 1 - side.val = side.rev.val := by
    rw [Fin.val_rev]
    omega
  have hhouses : ((List.range boardSize).map fun k =>
      UInt8.ofNat (game.board (house (k + boardSize / 2 * side)))).map UInt8.toNat
        = (m.view side).houses := by
    rw [List.map_map]
    show _ = (List.range boardSize).map fun k => m.board (house (k + boardSize / 2 * side))
    refine List.map_congr_left fun k _ => ?_
    show (UInt8.ofNat (game.board (house (k + boardSize / 2 * side)))).toNat = _
    rw [h.board]
    exact UInt8.toNat_ofNat_of_lt' (Nat.lt_of_le_of_lt (m.house_le _) (by decide))
  rw [writePlayed, hother]
  show some (View.mk _ _ _) = _
  rw [hhouses, hcount side, hcount side.rev]
  rfl

theorem seen_small {score score' : UInt8} {board : List UInt8} {side : Fin 2}
    (h : seen (.played score score' board) = some (m.view side)) (hi : i < boardSize) :
    board.getD i 0 < 100 := by
  have hhouses : board.map UInt8.toNat = (m.view side).houses :=
    congrArg View.houses (Option.some.inj h)
  have hat : (board.map UInt8.toNat)[i]? = some (m.board (house (i + boardSize / 2 * side))) := by
    rw [hhouses, Match.view, List.getElem?_map, List.getElem?_range hi]
    rfl
  obtain ⟨n, hn, hval⟩ := Option.map_eq_some_iff.mp ((List.getElem?_map ..).symm.trans hat)
  have hle := m.house_le (house (i + boardSize / 2 * side))
  rw [List.getD_eq_getElem?_getD, hn, UInt8.lt_iff_toNat_lt]
  show n.toNat < 100
  omega

end AwaleMatch
