import Mathlib.Data.Nat.Digits.Defs

/-!
# Printed numerals

`Nat.toDigits b n` is what `printf` writes for `%d` (`b = 10`) and for `%x` (`b = 16`).  What a
program that prints numerals and reads them back relies on, for any base and any reader of
single digits:

* **`forall_mem_toDigits`** — the characters of a numeral are digits of the base;
* **`foldl_toDigits`** — reading the digits of a numeral from the left gives the number back;
* **`rightAligned_inj`** / **`leftAligned_inj`** — a numeral padded to a width by characters
  that are no digits is still legible, and so are columns of one width
  (**`flatten_columns_inj`**).
-/

namespace Numeral

variable {b m n : Nat}

/-- The characters of a numeral are digits of its base. -/
theorem forall_mem_toDigits {P : Char → Prop} (hb : 1 < b) (h : ∀ d < b, P d.digitChar) :
    ∀ ch ∈ Nat.toDigits b n, P ch := by
  induction n using Nat.base_induction b hb with
  | single m hm =>
      intro ch hch
      rw [Nat.toDigits_of_lt_base hm] at hch
      exact List.mem_singleton.mp hch ▸ h m hm
  | digit m k hk hm ih =>
      intro ch hch
      rw [← Nat.toDigits_append_toDigits hb hm hk, Nat.toDigits_of_lt_base hk] at hch
      rcases List.mem_append.mp hch with hch | hch
      · exact ih ch hch
      · exact List.mem_singleton.mp hch ▸ h k hk

/-- **READING BACK**: `value` reads single digits, the fold reads numerals. -/
theorem foldl_toDigits {value : Char → Nat} (hb : 1 < b)
    (h : ∀ d < b, value d.digitChar = d) :
    (Nat.toDigits b n).foldl (fun a ch => a * b + value ch) 0 = n := by
  induction n using Nat.base_induction b hb with
  | single m hm =>
      rw [Nat.toDigits_of_lt_base hm, List.foldl_cons, List.foldl_nil, h m hm]
      omega
  | digit m k hk hm ih =>
      rw [← Nat.toDigits_append_toDigits hb hm hk, List.foldl_append, ih,
        Nat.toDigits_of_lt_base hk, List.foldl_cons, List.foldl_nil, h k hk, Nat.mul_comm]

theorem toDigits_injective {value : Char → Nat} (hb : 1 < b)
    (h : ∀ d < b, value d.digitChar = d) : Function.Injective (Nat.toDigits b) := by
  intro m n heq
  rw [← foldl_toDigits hb h (n := m), heq, foldl_toDigits hb h]

/-! ## Padding -/

variable {α : Type} {pad : α} {w : Nat} {l l' : List α}

theorem dropWhile_replicate [DecidableEq α] (k : Nat) (h : ∀ a ∈ l, a ≠ pad) :
    (List.replicate k pad ++ l).dropWhile (fun a => a = pad) = l := by
  rw [List.dropWhile_append_of_pos fun a ha => decide_eq_true (List.eq_of_mem_replicate ha)]
  cases l with
  | nil => rfl
  | cons a l =>
      have ha : ¬ decide (a = pad) = true := by simpa using h a List.mem_cons_self
      exact List.dropWhile_cons_of_neg ha

/-- A column of right-aligned entries can be read: the padding is no part of an entry. -/
theorem rightAligned_inj [DecidableEq α] {k k' : Nat} (hl : ∀ a ∈ l, a ≠ pad)
    (hl' : ∀ a ∈ l', a ≠ pad)
    (h : List.replicate k pad ++ l = List.replicate k' pad ++ l') : l = l' := by
  rw [← dropWhile_replicate k hl, h, dropWhile_replicate k' hl']

theorem takeWhile_replicate [DecidableEq α] (k : Nat) (h : ∀ a ∈ l, a ≠ pad) :
    (l ++ List.replicate k pad).takeWhile (fun a => a ≠ pad) = l := by
  rw [List.takeWhile_append_of_pos fun a ha => decide_eq_true (h a ha)]
  have hnil : (List.replicate k pad).takeWhile (fun a => a ≠ pad) = [] := by
    cases k with
    | zero => rfl
    | succ k => exact List.takeWhile_cons_of_neg (by simp)
  rw [hnil, List.append_nil]

/-- Left-aligned entries can be read, too. -/
theorem leftAligned_inj [DecidableEq α] {k k' : Nat} (hl : ∀ a ∈ l, a ≠ pad)
    (hl' : ∀ a ∈ l', a ≠ pad)
    (h : l ++ List.replicate k pad = l' ++ List.replicate k' pad) : l = l' := by
  rw [← takeWhile_replicate k hl, h, takeWhile_replicate k' hl']

/-- Columns of one width, side by side, can be told apart. -/
theorem flatten_columns_inj : ∀ {L L' : List (List α)}, (∀ l ∈ L, l.length = w) →
    (∀ l ∈ L', l.length = w) → L.length = L'.length → L.flatten = L'.flatten → L = L'
  | [], [], _, _, _, _ => rfl
  | l :: L, l' :: L', hL, hL', hlen, h => by
      obtain ⟨hl, hL⟩ := List.forall_mem_cons.mp hL
      obtain ⟨hl', hL'⟩ := List.forall_mem_cons.mp hL'
      rw [List.flatten_cons, List.flatten_cons] at h
      obtain ⟨hhead, htail⟩ := List.append_inj h (hl.trans hl'.symm)
      rw [hhead, flatten_columns_inj hL hL' (Nat.succ.inj hlen) htail]

end Numeral
