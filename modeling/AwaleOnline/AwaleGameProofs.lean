import AwaleOnline.CStringProofs
import Mathlib.Algebra.BigOperators.Fin
import Mathlib.Data.Int.Init

/-!
# The game: `game.h` and `game.c`

The board, the players and the four functions the server calls on them, as the code computes
them.  Two points of C are kept explicit:

* **stores** — a house is a `uint8_t` and a captured count an `int8_t`.  Every function that
  writes one takes an `Arith`, the pair of conversions a store performs: `machine` wraps as
  the target does, `unbounded` does not, so the same code can be run over both;
* **reads next to the board** — `game_board_can_capture` reads through a `const uint8_t *`.
  `Game.byte` is the memory that pointer sees: the twelve houses, then the bytes of
  `nb_players`, which is the next field of `Game`.
-/

namespace AwaleGame

def boardSize : Nat := 12
def maxGamePlayers : Nat := 1024
def initialSeed : Nat := 4

/-- `GameState` -/
inductive GameState where
  | notEnded | p1won | p2won | draw
  deriving DecidableEq

/-- `PlayResult` -/
inductive PlayResult where
  | validPlay | outOfBounds | emptyHouse
  deriving DecidableEq

abbrev Board := Fin boardSize → Nat

/-- The house at an index, modulo the board. -/
def house (i : Nat) : Fin boardSize := ⟨i % boardSize, Nat.mod_lt _ (by decide)⟩

/-- `Player`; `id` is the socket of the occupant, `-1` after a disconnection. -/
structure Player where
  id : Int
  name : CString
  captured : Int
  clientIndex : Nat
  deriving DecidableEq

/-- `Game`; entries `0` and `1` of `players` are the seats, spectators start at entry `2`. -/
structure Game where
  board : Board
  nbPlayers : Nat
  nbSpectators : Nat
  players : Nat → Player
  isStarted : Bool
  turn : Nat

/-- The bytes at `game->board + i`: past the houses lies the little-endian `nb_players`. -/
def Game.byte (game : Game) (i : Nat) : Nat :=
  if h : i < boardSize then game.board ⟨i, h⟩
  else game.nbPlayers / 256 ^ (i - boardSize) % 256

/-! ## Stores -/

/-- What storing a number in a house (`uint8_t`) or a captured count (`int8_t`) keeps. -/
structure Arith where
  house : Nat → Nat
  captured : Int → Int

/-- The target's conversions: modulo `2 ^ 8`, signed for the captured counts. -/
def machine : Arith where
  house n := n % 256
  captured z := z.bmod 256

/-- Stores that lose nothing. -/
def unbounded : Arith where
  house n := n
  captured z := z

/-! ## `game_init`, `game_add_player`, `game_is_ended` -/

def gameInit (game : Game) : Game :=
  { game with
    board := fun _ => initialSeed
    nbPlayers := 0
    nbSpectators := 0
    isStarted := false
    turn := 0 }

/-- The entry `game_add_player` writes. -/
def addIndex (game : Game) (spectate : Bool) : Nat :=
  if spectate then 2 + game.nbSpectators else game.nbPlayers

def gameAddPlayer (game : Game) (player : Player) (spectate : Bool) : Game :=
  { game with
    players := Function.update game.players (addIndex game spectate)
      { player with captured := 0 }
    nbSpectators := if spectate then game.nbSpectators + 1 else game.nbSpectators
    nbPlayers := if spectate then game.nbPlayers else game.nbPlayers + 1 }

def gameIsEnded (game : Game) : GameState :=
  if (game.players 0).captured > boardSize * 2 then .p1won
  else if (game.players 1).captured > boardSize * 2 then .p2won
  else if (game.players 0).captured = boardSize * 2
      ∧ (game.players 1).captured = boardSize * 2 then .draw
  else .notEnded

/-! ## `game_play` -/

/-- `game_board_can_capture`, on the memory its `board` pointer sees.  The scan starts at
    `BOARD_SIZE / 2 + offset`, one past the row, and goes down to `offset`. -/
def gameBoardCanCapture (board : Nat → Nat) (oppositeSide lastPos : Nat) : Bool :=
  let offset := boardSize / 2 * oppositeSide
  if (oppositeSide = 1 ∧ lastPos < boardSize / 2)
      ∨ (oppositeSide = 0 ∧ lastPos ≥ boardSize / 2) then false
  else
    (List.range (boardSize / 2 + 1)).any fun k =>
      let i := boardSize / 2 + offset - k
      board i ≠ 0 ∧ board i ≠ 2 ∧ board i ≠ 3

/-- The variables of the sowing loop. -/
structure Sowing where
  board : Board
  i : Nat
  seedsToSow : Nat

/-- The body of the sowing loop and its `++i`. -/
def sowStep (A : Arith) (pos : Nat) (w : Sowing) : Sowing :=
  if w.i % boardSize ≠ pos then
    { board := Function.update w.board (house w.i) (A.house (w.board (house w.i) + 1))
      i := w.i + 1
      seedsToSow := w.seedsToSow - 1 }
  else { w with i := w.i + 1 }

/-- `for (...; seeds_to_sow > 0; ++i)`, for at most `fuel` rounds. -/
def sow (A : Arith) (pos : Nat) : Nat → Sowing → Sowing
  | 0, w => w
  | fuel + 1, w => if w.seedsToSow > 0 then sow A pos fuel (sowStep A pos w) else w

/-- The sowing of house `pos`, from the state in which the loop is entered.  The loop skips
    one house in twelve, so twice as many rounds as seeds are enough. -/
def sowHouse (A : Arith) (board : Board) (pos : Nat) : Sowing :=
  let seeds := board (house pos)
  sow A pos (2 * seeds)
    { board := Function.update board (house pos) 0, i := pos + 1, seedsToSow := seeds }

/-- `for (int i = pos; i >= offset && (board[i] == 2 || board[i] == 3); --i)` on the board and
    the mover's captured count; the argument is `i + 1`. -/
def capture (A : Arith) (offset : Nat) : Nat → Board × Int → Board × Int
  | 0, w => w
  | i + 1, w =>
      if i ≥ offset ∧ (w.1 (house i) = 2 ∨ w.1 (house i) = 3) then
        capture A offset i
          (Function.update w.1 (house i) 0, A.captured (w.2 + w.1 (house i)))
      else w

/-- The captures of a move by `side` whose last seed fell at `pos`. -/
def captureFrom (A : Arith) (game : Game) (pos side : Nat) : Game :=
  if gameBoardCanCapture game.byte (1 - side) pos then
    let w := capture A (boardSize / 2 * (1 - side)) (pos + 1)
      (game.board, (game.players side).captured)
    { game with
      board := w.1
      players := Function.update game.players side
        { game.players side with captured := w.2 } }
  else game

/-- The two tests in front of a move. -/
def playCheck (game : Game) (pos : Int) (side : Nat) : PlayResult :=
  if (pos < 0 ∨ pos ≥ boardSize) ∨ (side = 0 ∧ pos ≥ boardSize / 2)
      ∨ (side = 1 ∧ pos < boardSize / 2) then .outOfBounds
  else if game.board (house pos.toNat) ≤ 0 then .emptyHouse
  else .validPlay

def gamePlay (A : Arith) (game : Game) (pos : Int) (side : Nat) : Game × PlayResult :=
  if playCheck game pos side = .validPlay then
    let w := sowHouse A game.board pos.toNat
    let game := captureFrom A { game with board := w.board }
      ((w.i - 1) % boardSize) side
    ({ game with turn := if game.turn = 0 then 1 else 0 }, .validPlay)
  else (game, playCheck game pos side)

/-! ## What a move leaves alone -/

/-- The fields of a player that say who it is. -/
def SamePerson (p q : Player) : Prop :=
  p.id = q.id ∧ p.name = q.name ∧ p.clientIndex = q.clientIndex

private theorem captureFrom_frame (A : Arith) (game : Game) (pos side : Nat) :
    (captureFrom A game pos side).nbPlayers = game.nbPlayers
      ∧ (captureFrom A game pos side).nbSpectators = game.nbSpectators
      ∧ (captureFrom A game pos side).isStarted = game.isStarted
      ∧ ∀ e, SamePerson ((captureFrom A game pos side).players e) (game.players e) := by
  simp only [captureFrom]
  split
  · refine ⟨rfl, rfl, rfl, ?_⟩
    intro e
    by_cases he : e = side
    · subst he
      simp only [Function.update_self]
      exact ⟨rfl, rfl, rfl⟩
    · simp only [Function.update_of_ne he]
      exact ⟨rfl, rfl, rfl⟩
  · exact ⟨rfl, rfl, rfl, fun _ => ⟨rfl, rfl, rfl⟩⟩

/-- **FRAME OF A MOVE.**  Board, turn and captured counts are all that `game_play` writes. -/
theorem gamePlay_frame (A : Arith) (game : Game) (pos : Int) (side : Nat) :
    (gamePlay A game pos side).1.nbPlayers = game.nbPlayers
      ∧ (gamePlay A game pos side).1.nbSpectators = game.nbSpectators
      ∧ (gamePlay A game pos side).1.isStarted = game.isStarted
      ∧ ∀ e, SamePerson ((gamePlay A game pos side).1.players e) (game.players e) := by
  simp only [gamePlay]
  split
  · exact captureFrom_frame A _ _ _
  · exact ⟨rfl, rfl, rfl, fun _ => ⟨rfl, rfl, rfl⟩⟩

/-! ## What it returns -/

theorem playCheck_valid {game : Game} {pos : Int} {side : Nat}
    (hv : playCheck game pos side = .validPlay) :
    0 ≤ pos ∧ pos.toNat < boardSize ∧ 0 < game.board (house pos.toNat) := by
  rw [playCheck] at hv
  split at hv
  · cases hv
  · rename_i hbounds
    split at hv
    · cases hv
    · rename_i hseeds
      obtain ⟨hrange, -⟩ := not_or.mp hbounds
      obtain ⟨hlow, hhigh⟩ := not_or.mp hrange
      have hsize : (boardSize : Int) = 12 := rfl
      refine ⟨by omega, ?_, Nat.lt_of_not_le hseeds⟩
      simp only [boardSize]
      omega

/-- In the mover's own row only the seeds of the house count. -/
theorem playCheck_own {game : Game} {side i : Nat} (hside : side ≤ 1)
    (hlow : boardSize / 2 * side ≤ i)
    (hhigh : i < boardSize / 2 * side + boardSize / 2) :
    playCheck game i side
      = if game.board (house i) ≤ 0 then .emptyHouse else .validPlay := by
  have hbounds : ¬ (((i : Int) < 0 ∨ (i : Int) ≥ boardSize)
      ∨ (side = 0 ∧ (i : Int) ≥ boardSize / 2) ∨ (side = 1 ∧ (i : Int) < boardSize / 2)) := by
    have hsize : (boardSize : Int) = 12 := rfl
    simp only [boardSize] at hlow hhigh hsize ⊢
    omega
  rw [playCheck, if_neg hbounds, Int.toNat_natCast]

theorem gamePlay_turn {A : Arith} {game : Game} {pos : Int} {side : Nat}
    (h : playCheck game pos side = .validPlay) :
    (gamePlay A game pos side).1.turn = if game.turn = 0 then 1 else 0 := by
  rw [gamePlay, if_pos h]
  show (if (captureFrom A _ _ _).turn = 0 then 1 else 0) = _
  have hframe : ∀ (g : Game) (p : Nat), (captureFrom A g p side).turn = g.turn := by
    intro g p
    simp only [captureFrom]
    split <;> rfl
  rw [hframe]

theorem gamePlay_rejected {A : Arith} {game : Game} {pos : Int} {side : Nat}
    (h : playCheck game pos side ≠ .validPlay) :
    gamePlay A game pos side = (game, playCheck game pos side) := by
  rw [gamePlay, if_neg h]

theorem gamePlay_result (A : Arith) (game : Game) (pos : Int) (side : Nat) :
    (gamePlay A game pos side).2 = playCheck game pos side := by
  by_cases h : playCheck game pos side = .validPlay
  · rw [gamePlay, if_pos h, h]
  · rw [gamePlay_rejected h]

end AwaleGame
