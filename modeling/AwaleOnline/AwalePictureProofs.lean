import AwaleOnline.NumeralProofs
import AwaleOnline.AwaleGameProofs

/-!
# The board on the terminal: `action_show_board`

A box of nine lines: the two scores, and between them the two rows, the opponent's above from
right to left.  Every house is padded to a column by a loop whose bound is a `size_t`.

* **`actionShowBoard`** — the characters printed;
* **`boxed`** — the nine lines have the width of the box when every house holds fewer than a
  hundred seeds; for three digits the bound of the padding loop wraps, and a line has no end;
* **`legible`** — scores and houses can be read off the box.
-/

namespace AwalePicture

open AwaleGame

/-- What is printed. -/
abbrev Text := List Char

def score : Text := "Score: ".toList

def colSize : Nat := 3
def colNb : Nat := 6
def total : Nat := colNb * (colSize + 1) + 1

/-- `snprintf(buf, 4, "%d", n)` of a `uint8_t`. -/
def decimal (n : UInt8) : Text := (Nat.toDigits 10 n.toNat).take 3

/-- `col_size - 1 - strlen(buf)`, a `size_t`. -/
def cellPad (buf : Text) : Nat := (UInt64.ofNat (colSize - 1) - UInt64.ofNat buf.length).toNat

/-- `total - 2 - strlen(score) - strlen(buf)`, a `size_t`. -/
def scorePad (buf : Text) : Nat :=
  (UInt64.ofNat (total - 2) - UInt64.ofNat score.length - UInt64.ofNat buf.length).toNat

/-- One turn of the loops over a row. -/
def cell (n : UInt8) : Text :=
  List.replicate (cellPad (decimal n)) ' ' ++ decimal n ++ [' ', '│']

def scoreLine (n : UInt8) : Text :=
  '│' :: (score ++ (decimal n ++ List.replicate (scorePad (decimal n)) ' ') ++ ['│'])

/-- The first and the last line. -/
def border (left right : Char) : Text := left :: (List.replicate (total - 2) '─' ++ [right])

/-- The lines between scores and rows. -/
def separator (cross : Char) : Text :=
  '├' :: ((List.replicate (colNb - 1) (List.replicate colSize '─' ++ [cross])).flatten
    ++ List.replicate colSize '─' ++ ['┤'])

/-- `for (int i = col_nb - 1; i >= 0; --i)` over `board[i + col_nb]`. -/
def upperRow (board : Nat → UInt8) : Text :=
  '│' :: ((List.range colNb).reverse.map fun i => cell (board (i + colNb))).flatten

def lowerRow (board : Nat → UInt8) : Text :=
  '│' :: ((List.range colNb).map fun i => cell (board i)).flatten

/-- The lines of the box; the opponent's score comes first. -/
def boxLines (sScore oScore : UInt8) (board : Nat → UInt8) : List Text :=
  [border '╭' '╮', scoreLine oScore, separator '┬', upperRow board, separator '┼',
    lowerRow board, separator '┴', scoreLine sScore, border '╰' '╯']

/-- `action_show_board` -/
def actionShowBoard (sScore oScore : UInt8) (board : Nat → UInt8) : Text :=
  '\n' :: (((boxLines sScore oScore board).map fun line => line ++ ['\n']).flatten ++ ['\n'])

variable {n n' sScore oScore sScore' oScore' : UInt8} {board board' : Nat → UInt8}

/-! ## Numbers -/

theorem digits_length (n : UInt8) : (Nat.toDigits 10 n.toNat).length ≤ 3 := by
  have hlt : n.toNat < 256 := n.toNat_lt
  exact (Nat.length_toDigits_le_iff (by decide) (by decide)).mpr (by omega)

/-- Nothing is cut. -/
theorem decimal_eq (n : UInt8) : decimal n = Nat.toDigits 10 n.toNat :=
  List.take_of_length_le (digits_length n)

theorem decimal_length_pos (n : UInt8) : 0 < (decimal n).length := by
  rw [decimal_eq]
  exact Nat.length_toDigits_pos

theorem decimal_length_le (n : UInt8) : (decimal n).length ≤ 3 := by
  rw [decimal_eq]
  exact digits_length n

theorem decimal_short : (decimal n).length ≤ 2 ↔ n < 100 := by
  rw [decimal_eq, Nat.length_toDigits_le_iff (by decide) (by decide)]
  exact (UInt8.lt_iff_toNat_lt (b := 100)).symm

def digitValue (ch : Char) : Nat := ch.toNat - 48

theorem digitValue_digitChar : ∀ d < 10, digitValue d.digitChar = d := by decide

theorem decimal_injective (h : decimal n = decimal n') : n = n' := by
  rw [decimal_eq, decimal_eq] at h
  exact UInt8.toNat.inj (Numeral.toDigits_injective (by decide) digitValue_digitChar h)

theorem decimal_ne_space (n : UInt8) : ∀ ch ∈ decimal n, ch ≠ ' ' := by
  rw [decimal_eq]
  exact Numeral.forall_mem_toDigits (by decide) (by decide)

/-! ## Columns -/

theorem cell_length (n : UInt8) :
    (cell n).length = cellPad (decimal n) + (decimal n).length + 2 := by
  simp only [cell, List.length_append, List.length_replicate]
  rfl

theorem cellPad_short (h : (decimal n).length ≤ 2) :
    cellPad (decimal n) = 2 - (decimal n).length := by
  simp only [cellPad]
  generalize (decimal n).length = k at h
  obtain rfl | rfl | rfl : k = 0 ∨ k = 1 ∨ k = 2 := by omega
  · rfl
  · rfl
  · rfl

/-- For three digits the subtraction wraps. -/
theorem cellPad_long (h : ¬ (decimal n).length ≤ 2) : cellPad (decimal n) = 2 ^ 64 - 1 := by
  have hthree : (decimal n).length = 3 := by
    have hle := decimal_length_le n
    omega
  simp only [cellPad, hthree]
  rfl

/-- A cell has the width of a column, or is padded without end. -/
theorem cell_width (n : UInt8) :
    (cell n).length = if n < 100 then colSize + 1 else 2 ^ 64 + 4 := by
  have hpos := decimal_length_pos n
  have hle := decimal_length_le n
  rw [cell_length]
  split
  · rename_i h
    have h2 := decimal_short.mpr h
    rw [cellPad_short h2, colSize]
    omega
  · rename_i h
    have h2 : ¬ (decimal n).length ≤ 2 := fun h2 => h (decimal_short.mp h2)
    rw [cellPad_long h2]
    omega

theorem cell_width_ge (n : UInt8) : colSize + 1 ≤ (cell n).length := by
  rw [cell_width, colSize]
  split <;> omega

theorem cell_width_iff : (cell n).length = colSize + 1 ↔ n < 100 := by
  rw [cell_width, colSize]
  split
  · simp [*]
  · rename_i h
    exact iff_of_false (by omega) h

section Columns

variable {α : Type} {w : Nat}

theorem flatten_width_ge (L : List (List α)) (h : ∀ l ∈ L, w ≤ l.length) :
    w * L.length ≤ L.flatten.length := by
  induction L with
  | nil => exact Nat.zero_le _
  | cons l L ih =>
      obtain ⟨hl, hL⟩ := List.forall_mem_cons.mp h
      rw [List.flatten_cons, List.length_append, List.length_cons, Nat.mul_succ, Nat.add_comm]
      exact Nat.add_le_add hl (ih hL)

/-- Columns that are wide enough each have the width of the row together just when none is
    wider. -/
theorem flatten_width_iff (L : List (List α)) (h : ∀ l ∈ L, w ≤ l.length) :
    L.flatten.length = w * L.length ↔ ∀ l ∈ L, l.length = w := by
  induction L with
  | nil => simp
  | cons l L ih =>
      obtain ⟨hl, hL⟩ := List.forall_mem_cons.mp h
      have hge := flatten_width_ge L hL
      rw [List.flatten_cons, List.length_append, List.length_cons, List.forall_mem_cons, ← ih hL,
        Nat.mul_succ]
      omega

end Columns

/-- A row of six cells. -/
theorem row_width_iff {J : List Nat} (hJ : J.length = colNb) (f : Nat → UInt8) :
    ('│' :: (J.map fun i => cell (f i)).flatten).length = total ↔ ∀ i ∈ J, f i < 100 := by
  have hcells : ∀ l ∈ J.map fun i => cell (f i), colSize + 1 ≤ l.length := by
    intro l hl
    obtain ⟨i, -, rfl⟩ := List.mem_map.mp hl
    exact cell_width_ge _
  have hiff := flatten_width_iff _ hcells
  rw [List.length_map, hJ] at hiff
  have hall : (∀ l ∈ J.map fun i => cell (f i), l.length = colSize + 1)
      ↔ ∀ i ∈ J, f i < 100 := by
    simp only [List.forall_mem_map, cell_width_iff]
  rw [← hall, ← hiff, List.length_cons, total, Nat.mul_comm colNb]
  exact Nat.succ_inj

theorem scoreLine_width (n : UInt8) : (scoreLine n).length = total := by
  have hpos := decimal_length_pos n
  have hle := decimal_length_le n
  have hpad : scorePad (decimal n) = 16 - (decimal n).length := by
    simp only [scorePad]
    generalize (decimal n).length = k at hpos hle
    obtain rfl | rfl | rfl : k = 1 ∨ k = 2 ∨ k = 3 := by omega
    · rfl
    · rfl
    · rfl
  have hscore : score.length = 7 := rfl
  have htotal : total = 25 := rfl
  simp only [scoreLine, List.length_cons, List.length_append, List.length_replicate, hscore, hpad,
    htotal, List.length_nil]
  omega

/-! ## The box -/

theorem boxLines_length (sScore oScore : UInt8) (board : Nat → UInt8) :
    (boxLines sScore oScore board).length = 9 := rfl

/-- The cells of both rows, in terms of the houses. -/
theorem rows_width_iff (board : Nat → UInt8) :
    (upperRow board).length = total ∧ (lowerRow board).length = total
      ↔ ∀ i < boardSize, board i < 100 := by
  have htwo : boardSize = colNb + colNb := rfl
  simp only [upperRow, lowerRow]
  rw [row_width_iff (J := (List.range colNb).reverse) rfl fun i => board (i + colNb),
    row_width_iff (J := List.range colNb) rfl board]
  constructor
  · rintro ⟨h6, h0⟩ i hi
    by_cases hlow : i < colNb
    · exact h0 i (List.mem_range.mpr hlow)
    · have hsplit : i - colNb + colNb = i := Nat.sub_add_cancel (Nat.not_lt.mp hlow)
      refine hsplit ▸ h6 (i - colNb) (List.mem_reverse.mpr (List.mem_range.mpr ?_))
      omega
  · intro h
    refine ⟨fun i hi => h _ ?_, fun i hi => h i ?_⟩
    · have hi' := List.mem_range.mp (List.mem_reverse.mp hi)
      omega
    · have hi' := List.mem_range.mp hi
      omega

/-- A house of three digits makes its row as long as its padding. -/
theorem row_endless {J : List Nat} {f : Nat → UInt8} {i : Nat} (hi : i ∈ J)
    (hf : ¬ f i < 100) : 2 ^ 64 ≤ ('│' :: (J.map fun i => cell (f i)).flatten).length := by
  have hsub := (List.sublist_flatten_of_mem (List.mem_map_of_mem (f := fun i => cell (f i))
    hi)).length_le
  have hcell := cell_width (f i)
  rw [if_neg hf] at hcell
  rw [hcell] at hsub
  rw [List.length_cons]
  omega

/-- The lines of a box that is closed. -/
theorem boxLines_width (h : ∀ i < boardSize, board i < 100) :
    ∀ line ∈ boxLines sScore oScore board, line.length = total := by
  obtain ⟨h1, h2⟩ := (rows_width_iff board).mpr h
  simp only [boxLines, List.forall_mem_cons]
  exact ⟨rfl, scoreLine_width _, rfl, h1, rfl, h2, rfl, scoreLine_width _, rfl,
    List.forall_mem_nil _⟩

/-- **THE BOX** is closed on the right when no house needs three digits, and else not at all. -/
theorem boxed (sScore oScore : UInt8) (board : Nat → UInt8) :
    if ∀ i < boardSize, board i < 100 then
      ∀ line ∈ boxLines sScore oScore board, line.length = total
    else ∃ line ∈ boxLines sScore oScore board, 2 ^ 64 ≤ line.length := by
  split
  · rename_i h
    exact boxLines_width h
  · rename_i h
    simp only [not_forall] at h
    obtain ⟨i, hi, hboard⟩ := h
    have htwo : boardSize = colNb + colNb := rfl
    by_cases hlow : i < colNb
    · refine ⟨lowerRow board, ?_, row_endless (List.mem_range.mpr hlow) hboard⟩
      simp [boxLines]
    · have hsplit : i - colNb + colNb = i := Nat.sub_add_cancel (Nat.not_lt.mp hlow)
      refine ⟨upperRow board, by simp [boxLines], ?_⟩
      refine row_endless (i := i - colNb) (List.mem_reverse.mpr (List.mem_range.mpr ?_)) ?_
      · omega
      · rw [hsplit]
        exact hboard

/-! ## Reading it -/

theorem cell_injective (h : cell n = cell n') : n = n' := by
  simp only [cell] at h
  obtain ⟨h, -⟩ := List.append_inj' h rfl
  exact decimal_injective
    (Numeral.rightAligned_inj (decimal_ne_space n) (decimal_ne_space n') h)

theorem scoreLine_injective (h : scoreLine n = scoreLine n') : n = n' := by
  simp only [scoreLine, List.cons.injEq, true_and] at h
  obtain ⟨h, -⟩ := List.append_inj' h rfl
  exact decimal_injective (Numeral.leftAligned_inj (decimal_ne_space n) (decimal_ne_space n')
    (List.append_cancel_left h))

/-- The cells of a row that is in the box. -/
theorem row_injective {J : List Nat} {f g : Nat → UInt8} (hf : ∀ i ∈ J, f i < 100)
    (hg : ∀ i ∈ J, g i < 100)
    (h : '│' :: (J.map fun i => cell (f i)).flatten
      = '│' :: (J.map fun i => cell (g i)).flatten) : ∀ i ∈ J, f i = g i := by
  have hwidth : ∀ {k : Nat → UInt8}, (∀ i ∈ J, k i < 100) →
      ∀ l ∈ J.map fun i => cell (k i), l.length = colSize + 1 := by
    intro k hk l hl
    obtain ⟨i, hi, rfl⟩ := List.mem_map.mp hl
    exact cell_width_iff.mpr (hk i hi)
  have hcells := Numeral.flatten_columns_inj (hwidth hf) (hwidth hg) (by simp)
    (List.cons.inj h).2
  intro i hi
  exact cell_injective (List.map_inj_left.mp hcells i hi)

/-- **THE BOX IS LEGIBLE**: it shows both scores and all houses, and no two positions alike. -/
theorem legible (hboard : ∀ i < boardSize, board i < 100)
    (hboard' : ∀ i < boardSize, board' i < 100)
    (h : actionShowBoard sScore oScore board = actionShowBoard sScore' oScore' board') :
    sScore = sScore' ∧ oScore = oScore' ∧ ∀ i < boardSize, board i = board' i := by
  have hwidth : ∀ {s o : UInt8} {b : Nat → UInt8}, (∀ i < boardSize, b i < 100) →
      ∀ l ∈ (boxLines s o b).map fun line => line ++ ['\n'], l.length = total + 1 := by
    intro s o b hb l hl
    obtain ⟨line, hline, rfl⟩ := List.mem_map.mp hl
    rw [List.length_append, boxLines_width hb line hline]
    rfl
  simp only [actionShowBoard, List.cons.injEq, true_and] at h
  have hlen : ((boxLines sScore oScore board).map fun line => line ++ ['\n']).length
      = ((boxLines sScore' oScore' board').map fun line => line ++ ['\n']).length := by
    rw [List.length_map, List.length_map, boxLines_length, boxLines_length]
  have hmap := Numeral.flatten_columns_inj (hwidth hboard) (hwidth hboard') hlen
    (List.append_cancel_right h)
  have hlines := List.map_injective_iff.mpr (fun l l' => List.append_cancel_right) hmap
  simp only [boxLines, List.cons.injEq, true_and, and_true] at hlines
  obtain ⟨ho, hupper, hlower, hs⟩ := hlines
  refine ⟨scoreLine_injective hs, scoreLine_injective ho, fun i hi => ?_⟩
  have htwo : boardSize = colNb + colNb := rfl
  by_cases hlow : i < colNb
  · refine row_injective (J := List.range colNb) ?_ ?_ hlower i (List.mem_range.mpr hlow)
    · exact fun j hj => hboard j (Nat.lt_trans (List.mem_range.mp hj) (by decide))
    · exact fun j hj => hboard' j (Nat.lt_trans (List.mem_range.mp hj) (by decide))
  · have hmem : ∀ {j : Nat}, j ∈ (List.range colNb).reverse → j + colNb < boardSize := by
      intro j hj
      have hj' := List.mem_range.mp (List.mem_reverse.mp hj)
      omega
    have hsplit : i - colNb + colNb = i := Nat.sub_add_cancel (Nat.not_lt.mp hlow)
    have heq := row_injective (J := (List.range colNb).reverse)
      (f := fun j => board (j + colNb)) (g := fun j => board' (j + colNb))
      (fun j hj => hboard _ (hmem hj)) (fun j hj => hboard' _ (hmem hj)) hupper (i - colNb)
      (List.mem_reverse.mpr (List.mem_range.mpr (by omega)))
    rw [hsplit] at heq
    exact heq

/-- Two boards that are printed alike, and are not alike behind their last house. -/
theorem legible_behind : ∃ board board' : Nat → UInt8, board boardSize ≠ board' boardSize
    ∧ ∀ i < boardSize, board i = board' i := by
  have htext : actionShowBoard 7 25 (fun _ => 4)
      = actionShowBoard 7 25 fun i => if i < boardSize then 4 else 0 := by decide +kernel
  obtain ⟨-, -, hboard⟩ := legible (by decide) (by decide) htext
  exact ⟨_, _, by decide, hboard⟩

end AwalePicture
