import AwaleOnline.AwaleCaptureProofs

/-!
# Both sides of the board

Side `1` plays like side `0` on the board turned by half, in a game of two players.  Every part
of `game_play` is written with expressions of its own for each side; only the scan of
`game_board_can_capture` tells the sides apart.

* **`sown_rotate`**, **`captureRun_rotate`**, **`turned_take`** — sowing, the run and its
  captures turn with the board;
* **`permitted_first`** / **`permitted_second`** — the permission does not: behind the row of
  side `1` lies the count of the players, behind the row of side `0` a house;
* **`alike`** — when the two plays agree.
-/

namespace AwaleSymmetry

open AwaleGame AwaleConservation AwaleSowing AwaleCapture DownwardRun

variable {b : Board} {game game' : Game} {p i last : Nat} {R : Finset Nat}

/-! ## Turning the board -/

/-- The board as the other side counts its houses. -/
def rotate (b : Board) : Board := fun h => b (house (h.val + boardSize / 2))

theorem rotate_house (b : Board) (i : Nat) :
    rotate b (house i) = b (house (i + boardSize / 2)) := by
  refine congrArg b (Fin.ext ?_)
  show (i % boardSize + boardSize / 2) % boardSize = (i + boardSize / 2) % boardSize
  rw [Nat.mod_add_mod]

/-- Twice half a turn. -/
theorem rotate_origin (b : Board) (p : Nat) :
    rotate b (house (p + boardSize / 2)) = b (house p) := by
  rw [rotate_house]
  refine congrArg b (Fin.ext ?_)
  show (p + boardSize / 2 + boardSize / 2) % boardSize = p % boardSize
  rw [Nat.add_assoc]
  exact Nat.add_mod_right p boardSize

/-- The house across. -/
theorem across_involutive :
    Function.Involutive fun h : Fin boardSize => house (h.val + boardSize / 2) := by
  intro h
  have hlt := h.isLt
  refine Fin.ext ?_
  simp only [house, boardSize] at hlt ⊢
  omega

theorem boardSum_rotate (b : Board) : boardSum (rotate b) = boardSum b :=
  Equiv.sum_comp across_involutive.toPerm b

/-- `game'` is `game` with the sides exchanged. -/
structure Turned (game game' : Game) : Prop where
  board : game'.board = rotate game.board
  first : (game'.players 0).captured = (game.players 1).captured
  second : (game'.players 1).captured = (game.players 0).captured

/-! ## Sowing -/

theorem sown_rotate (hp : p < boardSize / 2) :
    sown (rotate b) (p + boardSize / 2) = rotate (sown b p) := by
  funext h
  have hlt := h.isLt
  have horigin : h.val = p + boardSize / 2 ↔ (house (h.val + boardSize / 2)).val = p := by
    simp only [house, boardSize] at hp hlt ⊢
    omega
  have hdistance : distance (p + boardSize / 2) h = distance p (house (h.val + boardSize / 2)) := by
    simp only [distance, house, boardSize] at hp hlt ⊢
    omega
  show sown (rotate b) (p + boardSize / 2) h = sown b p (house (h.val + boardSize / 2))
  rw [sown, sown, rotate_origin, hdistance]
  exact if_congr horigin rfl rfl

theorem lastHouse_rotate :
    lastHouse (rotate b) (p + boardSize / 2) = (lastHouse b p + boardSize / 2) % boardSize := by
  rw [lastHouse, rotate_origin, lastHouse]
  simp only [boardSize]
  omega

/-! ## The run -/

theorem captureRun_rotate (b : Board) (hlast : last < boardSize) :
    captureRun b 0 last = (captureRun (rotate b) 1 ((last + boardSize / 2) % boardSize)).map
      (upBy (boardSize / 2)) := by
  have hrow : last ∈ oppositeRow 0 ↔ (last + boardSize / 2) % boardSize ∈ oppositeRow 1 := by
    simp only [oppositeRow, rowStart, Finset.mem_Ico, boardSize] at hlast ⊢
    omega
  rw [captureRun, captureRun]
  by_cases h : last ∈ oppositeRow 0
  · obtain ⟨k, rfl⟩ : ∃ k, last = k + boardSize / 2 :=
      Nat.exists_eq_add_of_le' (Finset.mem_Ico.mp h).1
    have hk : (k + boardSize / 2 + boardSize / 2) % boardSize = k := by
      simp only [boardSize] at hlast ⊢
      omega
    rw [if_pos h, if_pos (hrow.mp h), hk]
    have hmap := run_add (Takable b) 0 (k + 1) (boardSize / 2)
    have hturn : run (fun j => Takable b (j + boardSize / 2)) 0 (k + 1)
        = run (Takable (rotate b)) 0 (k + 1) := by
      refine run_congr fun j _ _ => ?_
      rw [Takable, Takable, rotate_house]
    rw [hturn] at hmap
    rw [Nat.add_right_comm k 1] at hmap
    exact hmap
  · rw [if_neg h, if_neg (mt hrow.mpr h), Finset.map_empty]

theorem seeds_rotate (b : Board) (R : Finset Nat) :
    seeds b (R.map (upBy (boardSize / 2))) = seeds (rotate b) R := by
  rw [seeds, Finset.sum_map]
  refine Finset.sum_congr rfl fun i _ => ?_
  rw [rotate_house]
  rfl

theorem mem_second : i ∈ oppositeRow 1 ↔ i < boardSize / 2 := by
  rw [oppositeRow, Finset.mem_Ico]
  exact and_iff_right (Nat.zero_le i)

theorem mem_first : i ∈ oppositeRow 0 ↔ boardSize / 2 ≤ i ∧ i < boardSize :=
  Finset.mem_Ico

/-- Captures of side `1` in its row are captures of side `0` in the other. -/
theorem turned_take (ht : Turned game game') (hR : R ⊆ oppositeRow 1) :
    Turned (take game 0 (R.map (upBy (boardSize / 2)))) (take game' 1 R) where
  board := by
    funext h
    have hmem : (house (h.val + boardSize / 2)).val
        ∈ R.map (upBy (boardSize / 2)) ↔ h.val ∈ R := by
      have hlt := h.isLt
      rw [Finset.mem_map]
      constructor
      · rintro ⟨j, hj, hval⟩
        have hrow := mem_second.mp (hR hj)
        have heq : j = h.val := by
          simp only [upBy, Function.Embedding.coeFn_mk, house, boardSize] at hval hrow hlt
          omega
        exact heq ▸ hj
      · intro hh
        have hrow := mem_second.mp (hR hh)
        refine ⟨h.val, hh, ?_⟩
        show h.val + boardSize / 2 = (h.val + boardSize / 2) % boardSize
        exact (Nat.mod_eq_of_lt (Nat.add_lt_add_right hrow (boardSize / 2))).symm
    show (if h.val ∈ R then 0 else game'.board h) = if _ then 0 else _
    rw [ht.board]
    exact if_congr hmem.symm rfl rfl
  first := ht.first
  second := by
    have hempty : R.map (upBy (boardSize / 2)) = ∅ ↔ R = ∅ := Finset.map_eq_empty
    simp only [take, Function.update_self, hempty, seeds_rotate, ← ht.board, ht.second]

/-! ## The permission -/

/-- Behind the row of side `1` lies `nb_players`. -/
theorem permitted_first (hplayers : game.nbPlayers = 2) :
    Permitted game 0 ↔ ∃ i ∈ oppositeRow 0, Kept (game.board (house i)) := by
  have hbyte : nextByte game 0 = 2 := by
    show game.nbPlayers / 256 ^ 0 % 256 = 2
    rw [hplayers]
    decide
  rw [Permitted, hbyte]
  exact or_iff_left (by decide)

/-- Behind the row of side `0` lies the first house of side `1`. -/
theorem permitted_second (hboard : game'.board = rotate b) :
    Permitted game' 1
      ↔ (∃ i ∈ oppositeRow 0, Kept (b (house i))) ∨ Kept (b (house 0)) := by
  have hbyte : nextByte game' 1 = b (house 0) := by
    show game'.board (house (0 + boardSize / 2)) = b (house 0)
    rw [hboard, rotate_origin]
  rw [Permitted, hbyte, hboard]
  refine or_congr_left ⟨?_, ?_⟩
  · rintro ⟨i, hi, hkept⟩
    rw [rotate_house] at hkept
    exact ⟨i + boardSize / 2, mem_first.mpr ⟨Nat.le_add_left .., Nat.add_lt_add_right
      (mem_second.mp hi) (boardSize / 2)⟩, hkept⟩
  · rintro ⟨i, hi, hkept⟩
    obtain ⟨hlow, hhigh⟩ := mem_first.mp hi
    obtain ⟨k, rfl⟩ := Nat.exists_eq_add_of_le' hlow
    rw [← rotate_house b] at hkept
    exact ⟨k, mem_second.mpr (Nat.lt_of_add_lt_add_right hhigh), hkept⟩

/-! ## Two plays -/

theorem playCheck_first (hp : p < boardSize / 2) :
    playCheck game p 0
      = if game.board (house p) ≤ 0 then .emptyHouse else .validPlay :=
  playCheck_own (Nat.zero_le 1) (Nat.zero_le p) (Nat.lt_of_lt_of_eq hp (Nat.zero_add _).symm)

theorem playCheck_turned (ht : Turned game game') (hp : p < boardSize / 2) :
    playCheck game' (p + boardSize / 2 : Nat) 1 = playCheck game p 0 := by
  have hlow : boardSize / 2 * 1 ≤ p + boardSize / 2 := by
    rw [Nat.mul_one]
    exact Nat.le_add_left ..
  have hhigh : p + boardSize / 2 < boardSize / 2 * 1 + boardSize / 2 := by
    rw [Nat.mul_one]
    exact Nat.add_lt_add_right hp _
  rw [playCheck_own (Nat.le_refl 1) hlow hhigh, playCheck_first hp, ht.board, rotate_origin]

/-- The two plays return the same result and lead to games that are turned again. -/
def Alike (game game' : Game) (p : Nat) : Prop :=
  (gamePlay machine game p 0).2 = (gamePlay machine game' (p + boardSize / 2 : Nat) 1).2
    ∧ Turned (gamePlay machine game p 0).1 (gamePlay machine game' (p + boardSize / 2 : Nat) 1).1

/-- Nothing is to be taken, or the row itself holds something to keep, or the mover's first
    house, which only side `1` has behind the row of the other, does not. -/
def EvenHanded (game : Game) (p : Nat) : Prop :=
  nextRun game p 0 = ∅
    ∨ (∃ i ∈ oppositeRow 0, Kept (sown game.board p (house i)))
    ∨ ¬ Kept (sown game.board p (house 0))

theorem turned_sown (ht : Turned game game') (hp : p < boardSize / 2) :
    Turned (sownGame game p) (sownGame game' (p + boardSize / 2)) where
  board := by
    show sown game'.board (p + boardSize / 2) = rotate (sown game.board p)
    rw [ht.board, sown_rotate hp]
  first := ht.first
  second := ht.second

/-- Boards and counts are turned whatever the turn is. -/
theorem turned_turn (game game' : Game) (t t' : Nat) :
    Turned { game with turn := t } { game' with turn := t' } ↔ Turned game game' :=
  ⟨fun ⟨h1, h2, h3⟩ => ⟨h1, h2, h3⟩, fun ⟨h1, h2, h3⟩ => ⟨h1, h2, h3⟩⟩

/-- A run that one side takes and the other leaves. -/
theorem not_turned_take (ht : Turned game game')
    (hR : captureRun game'.board 1 last ≠ ∅) :
    ¬ Turned game (take game' 1 (captureRun game'.board 1 last)) := by
  intro hafter
  obtain ⟨i, hi⟩ := Finset.nonempty_iff_ne_empty.mpr hR
  have hempty : (take game' 1 (captureRun game'.board 1 last)).board
      (house i) = 0 := take_board_of_mem hi (oppositeRow_lt (captureRun_subset hi))
  rw [hafter.board, ← ht.board] at hempty
  exact absurd hempty (Nat.ne_of_gt (captureRun_takable hi).nonempty)

/-- No seed to sow, no run to take. -/
theorem nextRun_of_empty (hp : p < boardSize / 2) (hseeds : game.board (house p) = 0) :
    nextRun game p 0 = ∅ := by
  have hlast : lastHouse game.board p = p := by
    rw [lastHouse, hseeds]
    exact Nat.mod_eq_of_lt (Nat.lt_of_lt_of_le hp (by decide))
  rw [nextRun, Int.toNat_natCast, hlast]
  refine if_neg fun hmem => ?_
  exact absurd (Finset.mem_Ico.mp hmem).1 (Nat.not_le.mpr hp)

/-- The captures of the two sides, with the one permission each. -/
theorem turned_captures (ht : Turned game game') (htwo : game.nbPlayers = 2)
    (hlast : last < boardSize) :
    Turned (take game 0 (captures game 0 last))
        (take game' 1
          (captures game' 1 ((last + boardSize / 2) % boardSize)))
      ↔ captureRun game.board 0 last = ∅
        ∨ (∃ i ∈ oppositeRow 0, Kept (game.board (house i)))
        ∨ ¬ Kept (game.board (house 0)) := by
  have hrun := captureRun_rotate game.board hlast
  rw [← ht.board] at hrun
  have hfirst := permitted_first htwo
  have hsecond := permitted_second ht.board
  have hboth : Turned (take game 0 (captureRun game.board 0 last))
      (take game' 1
        (captureRun game'.board 1 ((last + boardSize / 2) % boardSize))) := by
    have hturn := turned_take ht (R := captureRun game'.board 1
      ((last + boardSize / 2) % boardSize)) fun i hi => captureRun_subset hi
    rw [← hrun] at hturn
    exact hturn
  by_cases hrow : ∃ i ∈ oppositeRow 0, Kept (game.board (house i))
  · rw [captures_of_permitted (hfirst.mpr hrow),
      captures_of_permitted (hsecond.mpr (Or.inl hrow))]
    exact iff_of_true hboth (Or.inr (Or.inl hrow))
  · rw [captures_of_not (mt hfirst.mp hrow), take_empty, or_iff_right hrow]
    by_cases hzero : Kept (game.board (house 0))
    · -- only side 1 may take
      rw [captures_of_permitted (hsecond.mpr (Or.inr hzero)), or_iff_left (not_not.mpr hzero),
        hrun, Finset.map_eq_empty]
      constructor
      · intro h
        by_contra hR
        exact not_turned_take ht hR h
      · intro h
        rw [h, take_empty]
        exact ht
    · have hnot : ¬ Permitted game' 1 := fun h => (hsecond.mp h).elim hrow hzero
      rw [captures_of_not hnot, take_empty]
      exact iff_of_true ht (Or.inr hzero)

/-- **BOTH SIDES ALIKE**, exactly under `EvenHanded`. -/
theorem alike (hp : p < boardSize / 2) (hb : boardSum game.board ≤ 48)
    (htwo : game.nbPlayers = 2) (ht : Turned game game') :
    Alike game game' p ↔ EvenHanded game p := by
  have hcheck := playCheck_turned ht hp
  rw [Alike, gamePlay_result, gamePlay_result, hcheck, and_iff_right rfl]
  by_cases hv : playCheck game p 0 = .validPlay
  · have hb' : boardSum game.board ≤ 255 := Nat.le_trans hb (by decide)
    have hb'' : boardSum game'.board ≤ 255 := by rw [ht.board, boardSum_rotate]; exact hb'
    have hlast : lastHouse game'.board (p + boardSize / 2)
        = (lastHouse game.board p + boardSize / 2) % boardSize := by
      rw [ht.board, lastHouse_rotate]
    rw [gamePlay_eq hb' hv, gamePlay_eq hb'' (hcheck.trans hv), Int.toNat_natCast,
      Int.toNat_natCast, turned_turn, hlast]
    exact turned_captures (turned_sown ht hp) htwo (lastHouse_lt game.board p)
  · have hv' : playCheck game' (p + boardSize / 2 : Nat) 1 ≠ .validPlay := hcheck ▸ hv
    rw [gamePlay_rejected hv, gamePlay_rejected hv']
    refine iff_of_true ht (Or.inl (nextRun_of_empty hp ?_))
    rw [playCheck_first hp] at hv
    by_contra hseeds
    exact hv (if_neg fun hle => hseeds (Nat.le_zero.mp hle))

/-- A seed each in houses 5 and 6, five in house 7: a capture either side may make. -/
theorem alike_capture :
    Alike (twoPlayers [0, 0, 0, 0, 0, 1, 1, 5] 20 21)
      (twoPlayers [1, 5, 0, 0, 0, 0, 0, 0, 0, 0, 0, 1] 21 20) 5 :=
  (alike (by decide) (by decide) rfl ⟨by decide, rfl, rfl⟩).mpr (Or.inr (Or.inl (by decide)))

/-- The last seed of the other side, with one in the mover's first house: side `0` is refused
    what side `1` is given. -/
theorem first_house_tempts :
    let game := twoPlayers [1, 0, 0, 0, 0, 1, 1] 22 23
    let game' := twoPlayers [1, 0, 0, 0, 0, 0, 1, 0, 0, 0, 0, 1] 23 22
    boardSum game.board ≤ 48 ∧ game.nbPlayers = 2 ∧ game'.nbPlayers = 2 ∧ Turned game game'
      ∧ ¬ Alike game game' 5 := by
  refine ⟨by decide, rfl, rfl, ⟨by decide, rfl, rfl⟩, fun halike => ?_⟩
  exact absurd halike.2.board (by decide)

end AwaleSymmetry
