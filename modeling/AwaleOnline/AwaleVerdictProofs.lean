import AwaleOnline.AwaleConservationProofs

/-!
# The verdict of a game

`game_is_ended` compares two counters in a fixed order.  That at most one of its answers applies,
that the mover alone can bring one about, and that none is ever taken back, rests on the total
of 48 seeds and on counts that only grow.

* **`gamePlay_captured`**, **`playAll_captured`** — a call adds to the mover's count only, a run
  takes from none;
* **`ended_iff`** — the answers of `game_is_ended`, each as a condition of its own;
* **`verdict`** — exclusive, the mover's, and final.
-/

namespace AwaleVerdict

open AwaleGame AwaleConservation

variable {A : Arith} {n : Nat} {game : Game} {pos : Int} {side : Fin 2}

/-! ## Counts only grow -/

/-- Captures are added to the mover's count. -/
theorem captureFrom_captured (hA : ExactUpTo n A) (h : Conserved n game) (last : Nat)
    (side : Fin 2) :
    (game.players side).captured ≤ ((captureFrom A game last side).players side).captured
      ∧ ∀ e, e ≠ side.val → (captureFrom A game last side).players e = game.players e := by
  rw [captureFrom]
  split
  · obtain ⟨h0, hle⟩ := h.captured_le side
    obtain ⟨-, hc⟩ := capture_total (boardSize / 2 * (1 - side.val)) hA (last + 1)
      (game.board, (game.players side).captured) h0 hle
    refine ⟨?_, fun e he => Function.update_of_ne he _ _⟩
    show _ ≤ (Function.update game.players side.val _ side.val).captured
    rw [Function.update_self]
    exact hc
  · exact ⟨Int.le_refl _, fun _ _ => rfl⟩

theorem gamePlay_captured (hA : ExactUpTo n A) (h : Conserved n game) (pos : Int)
    (side : Fin 2) :
    (game.players side).captured ≤ ((gamePlay A game pos side).1.players side).captured
      ∧ ∀ e, e ≠ side.val → (gamePlay A game pos side).1.players e = game.players e := by
  by_cases hv : playCheck game pos side = .validPlay
  · rw [gamePlay, if_pos hv]
    exact captureFrom_captured hA (sown_conserved pos.toNat hA h) _ side
  · rw [gamePlay_rejected hv]
    exact ⟨Int.le_refl _, fun _ _ => rfl⟩

/-- **Runs.**  No sequence of calls takes from a count. -/
theorem playAll_captured (hA : ExactUpTo n A) (e : Nat) :
    ∀ (moves : List (Int × Fin 2)) {game : Game}, Conserved n game →
      (game.players e).captured ≤ ((playAll A game moves).1.players e).captured := by
  intro moves
  induction moves with
  | nil => intro game _; exact Int.le_refl _
  | cons m moves ih =>
      intro game h
      obtain ⟨pos, side⟩ := m
      obtain ⟨hmover, hothers⟩ := gamePlay_captured hA h pos side
      have hstep : (game.players e).captured
          ≤ ((gamePlay A game pos side).1.players e).captured := by
        by_cases he : e = side.val
        · subst he
          exact hmover
        · rw [hothers e he]
      exact Int.le_trans hstep (ih (gamePlay_exact hA h pos side).2)

/-! ## The answers -/

/-- The answer that is the win of a side. -/
def winOf (side : Fin 2) : GameState := if side.val = 0 then .p1won else .p2won

/-- What an answer says of the counts. -/
def Verdict (game : Game) : GameState → Prop
  | .p1won => (game.players 0).captured > 24
  | .p2won => (game.players 1).captured > 24
  | .draw => (game.players 0).captured = 24 ∧ (game.players 1).captured = 24
  | .notEnded => (game.players 0).captured ≤ 24 ∧ (game.players 1).captured ≤ 24
      ∧ ¬ ((game.players 0).captured = 24 ∧ (game.players 1).captured = 24)

theorem counts_le (h : Conserved 48 game) :
    (game.players 0).captured + (game.players 1).captured ≤ 48 := by
  have htotal := h.sum
  omega

theorem verdict_holds (game : Game) : Verdict game (gameIsEnded game) := by
  rw [gameIsEnded]
  split
  · rename_i hfirst
    exact hfirst
  · rename_i hfirst
    split
    · rename_i hsecond
      exact hsecond
    · rename_i hsecond
      split
      · rename_i hdraw
        exact hdraw
      · rename_i hdraw
        exact ⟨Int.not_lt.mp hfirst, Int.not_lt.mp hsecond, hdraw⟩

/-- With 48 seeds no two answers apply. -/
theorem verdict_unique (h : Conserved 48 game) {v v' : GameState} (hv : Verdict game v)
    (hv' : Verdict game v') : v = v' := by
  have hsum := counts_le h
  cases v <;> cases v' <;> simp only [Verdict] at hv hv' <;> first | rfl | omega

theorem ended_iff (h : Conserved 48 game) (v : GameState) :
    gameIsEnded game = v ↔ Verdict game v := by
  constructor
  · rintro rfl
    exact verdict_holds game
  · intro hv
    exact verdict_unique h (verdict_holds game) hv

/-- **FINAL.**  An end that was reached stands while the counts grow. -/
theorem verdict_mono {game' : Game} {v : GameState} (hv : Verdict game v) (hend : v ≠ .notEnded)
    (h' : Conserved 48 game')
    (hgrow : ∀ e, (game.players e).captured ≤ (game'.players e).captured) : Verdict game' v := by
  have hsum := counts_le h'
  have hfirst := hgrow 0
  have hsecond := hgrow 1
  cases v with
  | p1won => exact Int.lt_of_lt_of_le hv hfirst
  | p2won => exact Int.lt_of_lt_of_le hv hsecond
  | draw =>
      obtain ⟨h1, h2⟩ := hv
      refine ⟨?_, ?_⟩ <;> omega
  | notEnded => exact absurd rfl hend

/-- A win that is new is the mover's: the other count has not changed. -/
theorem verdict_mover (h : Conserved 48 game) (pos : Int) (side : Fin 2)
    (hopen : gameIsEnded game = .notEnded)
    (hend : gameIsEnded (gamePlay machine game pos side).1 ≠ .notEnded) :
    gameIsEnded (gamePlay machine game pos side).1 = .draw
      ∨ gameIsEnded (gamePlay machine game pos side).1 = winOf side := by
  have hA : ExactUpTo 48 machine := machine_exact.mono (by decide)
  obtain ⟨-, hothers⟩ := gamePlay_captured hA h pos side
  have hbefore := (ended_iff h _).mp hopen
  have hafter := verdict_holds (gamePlay machine game pos side).1
  generalize gameIsEnded (gamePlay machine game pos side).1 = v at hend hafter ⊢
  cases v with
  | draw => exact Or.inl rfl
  | notEnded => exact absurd rfl hend
  | p1won =>
      rcases side_cases side with rfl | rfl
      · exact Or.inr rfl
      · have hsame := hothers 0 (by decide)
        simp only [Verdict, hsame] at hafter hbefore
        omega
  | p2won =>
      rcases side_cases side with rfl | rfl
      · have hsame := hothers 1 (by decide)
        simp only [Verdict, hsame] at hafter hbefore
        omega
      · exact Or.inr rfl

/-- A draw leaves no seed on the board. -/
theorem draw_rejects (h : Conserved 48 game) (hdraw : gameIsEnded game = .draw) (pos : Int)
    (side : Fin 2) : (gamePlay A game pos side).2 ≠ .validPlay := by
  obtain ⟨h1, h2⟩ := (ended_iff h _).mp hdraw
  have htotal := h.sum
  have hle := le_boardSum game.board (house pos.toNat)
  have hempty : game.board (house pos.toNat) ≤ 0 := by omega
  rw [gamePlay_result, playCheck, if_pos hempty]
  split
  · intro h
    cases h
  · intro h
    cases h

/-- **THE VERDICT** is exclusive, the mover's, and final, in every game of two players. -/
theorem verdict (game : Game) (p q : Player) (moves : List (Int × Fin 2)) :
    let g := (playAll machine (newGame game p q) moves).1
    (∀ v v', Verdict g v → Verdict g v' → v = v')
      ∧ (∀ v, gameIsEnded g = v ↔ Verdict g v)
      ∧ (∀ (pos : Int) (side : Fin 2),
          let r := gamePlay machine g pos side
          r.2 = .validPlay → gameIsEnded g = .notEnded → gameIsEnded r.1 ≠ .notEnded →
            gameIsEnded r.1 = .draw ∨ gameIsEnded r.1 = winOf side)
      ∧ (gameIsEnded g ≠ .notEnded →
          ∀ more : List (Int × Fin 2),
            gameIsEnded (playAll machine g more).1 = gameIsEnded g)
      ∧ (gameIsEnded g = .draw →
          ∀ (pos : Int) (side : Fin 2), (gamePlay machine g pos side).2 ≠ .validPlay) := by
  intro g
  have hA : ExactUpTo 48 machine := machine_exact.mono (by decide)
  have hg : Conserved 48 g := (playAll_exact hA moves (newGame_conserved game p q)).2
  refine ⟨fun v v' => verdict_unique hg, ended_iff hg,
    fun pos side _ => verdict_mover hg pos side, fun hend more => ?_, draw_rejects hg⟩
  have hafter : Conserved 48 (playAll machine g more).1 := (playAll_exact hA more hg).2
  refine (ended_iff hafter _).mpr (verdict_mono (verdict_holds g) hend hafter fun e => ?_)
  exact playAll_captured hA e more hg

end AwaleVerdict
