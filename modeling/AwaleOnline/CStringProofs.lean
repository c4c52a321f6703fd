import Mathlib.Data.List.TakeWhile

/-!
# C strings

A C string is the bytes in front of its terminating NUL; that none of them is NUL is part of
the value.  `CString.read` is what a `const char *` into a buffer denotes: the bytes from an
offset up to the first NUL.
-/

/-- The bytes of a C string, without the terminating NUL. -/
structure CString where
  chars : List UInt8
  nulFree : (0 : UInt8) ∉ chars
  deriving DecidableEq

namespace CString

/-- The string at the head of a byte sequence. -/
def ofBytes (l : List UInt8) : CString where
  chars := l.takeWhile (· ≠ 0)
  nulFree := fun h => by simpa using List.mem_takeWhile_imp h

def strlen (s : CString) : Nat := s.chars.length

def empty : CString := ⟨[], List.not_mem_nil⟩

/-- The string that starts at offset `off` of a buffer of `size` bytes. -/
def read (buf : Nat → UInt8) (size off : Nat) : CString :=
  ofBytes ((List.range' off (size - off)).map buf)

@[ext] theorem ext {s t : CString} (h : s.chars = t.chars) : s = t := by
  cases s
  cases t
  simpa using h

/-- A string followed by its NUL is read back, whatever comes after. -/
theorem ofBytes_append_nul (s : CString) (l : List UInt8) :
    ofBytes (s.chars ++ 0 :: l) = s := by
  apply ext
  show (s.chars ++ 0 :: l).takeWhile (· ≠ 0) = s.chars
  rw [List.takeWhile_append_of_pos, List.takeWhile_cons_of_neg (by simp),
    List.append_nil]
  intro b hb
  have hne : b ≠ 0 := fun h => s.nulFree (h ▸ hb)
  simpa using hne

/-- Reading a buffer that holds `s` and a NUL at `off` gives `s`. -/
theorem read_eq {buf : Nat → UInt8} {size off : Nat} {s : CString}
    (hs : ∀ k (h : k < s.chars.length), buf (off + k) = s.chars[k])
    (hnul : buf (off + s.strlen) = 0) (hlen : off + s.strlen < size) :
    read buf size off = s := by
  have hsplit : (List.range' off (size - off)).map buf
      = s.chars ++ 0 :: (List.range' (off + s.strlen + 1)
          (size - off - s.strlen - 1)).map buf := by
    have hn : size - off = s.strlen + (1 + (size - off - s.strlen - 1)) := by omega
    rw [hn, ← List.range'_append_1, List.map_append, ← List.range'_append_1,
      List.map_append]
    congr 1
    · refine List.ext_getElem (by simp [strlen]) ?_
      intro k h1 h2
      simpa using hs k h2
    · have h1 : (List.range' (off + s.strlen) 1).map buf = [0] := by
        simp [List.range', hnul]
      rw [h1]
      simp
  rw [read, hsplit]
  exact ofBytes_append_nul s _

/-- What stands behind a NUL is not part of the string. -/
theorem ofBytes_append_zero (l l' : List UInt8) : ofBytes (l ++ 0 :: l') = ofBytes l := by
  apply ext
  show (l ++ 0 :: l').takeWhile (· ≠ 0) = l.takeWhile (· ≠ 0)
  induction l with
  | nil => rfl
  | cons b l ih =>
      by_cases hb : b = 0
      · subst hb
        rfl
      · simp only [List.cons_append, List.takeWhile_cons, hb, ne_eq, not_false_eq_true,
          decide_true, if_true]
        exact congrArg (b :: ·) ih

/-- A NUL at `n` bounds what is read. -/
theorem read_eq_ofBytes {buf : Nat → UInt8} {size off n : Nat} (hnul : buf n = 0)
    (hoff : off ≤ n) (hn : n < size) :
    read buf size off = ofBytes ((List.range' off (n - off)).map buf) := by
  have hsize : size - off = (n - off) + (1 + (size - n - 1)) := by omega
  have hat : off + (n - off) = n := by omega
  rw [read, hsize, ← List.range'_append_1, List.map_append, hat, ← List.range'_append_1,
    List.map_append]
  have hone : (List.range' n 1).map buf = [0] := by simp [List.range', hnul]
  rw [hone]
  exact ofBytes_append_zero _ _

/-- Buffers that agree up to a common NUL hold the same string. -/
theorem read_congr {buf buf' : Nat → UInt8} {size off n : Nat}
    (h : ∀ k ≤ n, buf k = buf' k) (hnul : buf n = 0) (hoff : off ≤ n) (hn : n < size) :
    read buf size off = read buf' size off := by
  rw [read_eq_ofBytes hnul hoff hn, read_eq_ofBytes ((h n le_rfl).symm.trans hnul) hoff hn]
  congr 1
  refine List.map_congr_left ?_
  intro k hk
  have hlt := List.mem_range'_1.mp hk
  exact h k (by omega)

end CString
