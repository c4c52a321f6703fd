import AwaleOnline.CStringProofs
import Mathlib.Logic.Basic

/-!
# Byte buffers

What an encoder writes and what a decoder reads, in C's terms.

* **stores** — a buffer is the bytes it holds.  `storeBytes` overwrites a region; the stores
  of the language (a byte, a little-endian `uint16_t`, `strcpy`) are stores of lists, so that
  adjacent stores, made in either order, are one store of the appended lists;
* **reads** — a decoder is handed the bytes it may read, as a list, and a read past the end is
  `none`.  A string that was stored with its NUL is read back at its offset, and reading strings
  one behind the other succeeds just when there are NULs enough.
-/

abbrev ByteBuffer := Nat → UInt8

namespace ByteBuffer

/-- `l` over the bytes from `off` on. -/
def storeBytes (buf : ByteBuffer) (off : Nat) (l : List UInt8) : ByteBuffer :=
  fun k => if off ≤ k then l[k - off]?.getD (buf k) else buf k

def storeByte (buf : ByteBuffer) (off : Nat) (b : UInt8) : ByteBuffer :=
  buf.storeBytes off [b]

/-- The little-endian bytes of a `uint16_t`. -/
def bytesUInt16 (n : UInt16) : List UInt8 :=
  [UInt8.ofNat n.toNat, UInt8.ofNat (n.toNat / 256)]

def storeUInt16 (buf : ByteBuffer) (off : Nat) (n : UInt16) : ByteBuffer :=
  buf.storeBytes off (bytesUInt16 n)

/-- A string and its NUL. -/
def stringBytes (s : CString) : List UInt8 := s.chars ++ [0]

/-- `strcpy(&buf[off], s)` -/
def strcpy (buf : ByteBuffer) (off : Nat) (s : CString) : ByteBuffer :=
  buf.storeBytes off (stringBytes s)

variable (buf : ByteBuffer) (off : Nat) (l l' : List UInt8)

/-- Inside the region, the new byte; outside, the old one. -/
theorem storeBytes_at {k : Nat} (h : k < l.length) : storeBytes buf off l (off + k) = l[k] := by
  have hle : off ≤ off + k := Nat.le_add_right off k
  simp [storeBytes, hle, h]

theorem storeBytes_off {k : Nat} (h : k < off ∨ off + l.length ≤ k) :
    storeBytes buf off l k = buf k := by
  unfold storeBytes
  split
  · rw [List.getElem?_eq_none (by omega)]
    rfl
  · rfl

@[simp] theorem storeBytes_nil : storeBytes buf off [] = buf := by
  funext k
  exact storeBytes_off buf off [] (by simp; omega)

variable {off l} in
/-- Two stores side by side, the lower one first. -/
theorem storeBytes_append {off' : Nat} (h : off' = off + l.length) :
    storeBytes (storeBytes buf off l) off' l' = storeBytes buf off (l ++ l') := by
  funext k
  by_cases h1 : off' ≤ k
  · -- past the first region only the second store is seen
    have h3 : off ≤ k := by omega
    have h4 : k - off - l.length = k - off' := by omega
    have h5 : l.length ≤ k - off := by omega
    simp [storeBytes, h1, h3, List.getElem?_append_right h5, h4,
      List.getElem?_eq_none h5]
  · by_cases h2 : off ≤ k
    · have h3 : k - off < l.length := by omega
      simp [storeBytes, h1, h2, List.getElem?_append_left h3]
    · simp [storeBytes, h1, h2]

variable {off l} in
/-- The same two stores, the upper one first. -/
theorem storeBytes_prepend {off' : Nat} (h : off' = off + l.length) :
    storeBytes (storeBytes buf off' l') off l = storeBytes buf off (l ++ l') := by
  rw [← storeBytes_append buf l' h]
  funext k
  by_cases hin : off ≤ k ∧ k < off + l.length
  · have hk : k = off + (k - off) := by omega
    have hlt : k - off < l.length := by omega
    rw [hk, storeBytes_at _ _ _ hlt, storeBytes_off _ _ _ (by omega), storeBytes_at _ _ _ hlt]
  · rw [storeBytes_off _ off _ (by omega)]
    unfold storeBytes
    by_cases h1 : off' ≤ k
    · have h3 : off ≤ k := by omega
      simp only [if_pos h1, if_pos h3]
      rw [List.getElem?_eq_none (by omega : l.length ≤ k - off)]
      rfl
    · have h3 : ¬ off ≤ k := by omega
      simp only [if_neg h1, if_neg h3]

/-- A loop that stores one byte at each index. -/
theorem foldl_storeByte (f : Nat → UInt8) (n : Nat) :
    (List.range n).foldl (fun b i => storeByte b (off + i) (f i)) buf
      = storeBytes buf off ((List.range n).map f) := by
  induction n with
  | zero => simp
  | succ n ih =>
      have hlen : off + n = off + ((List.range n).map f).length := by simp
      rw [List.range_succ, List.foldl_append, ih, List.map_append, ← storeBytes_append buf _ hlen]
      rfl

/-! ## Reads -/

/-- The string at an offset of the readable bytes; `none` when no NUL ends it there. -/
def stringAt (l : List UInt8) (off : Nat) : Option CString :=
  if 0 ∈ l.drop off then some (CString.ofBytes (l.drop off)) else none

/-- The `n` bytes at an offset. -/
def bytesAt (l : List UInt8) (off n : Nat) : Option (List UInt8) :=
  if off + n ≤ l.length then some ((l.drop off).take n) else none

/-- The string at an offset, and the offset behind its NUL. -/
def nextString (l : List UInt8) (off : Nat) : Option (CString × Nat) :=
  (stringAt l off).map fun s => (s, off + (s.strlen + 1))

/-- `n` values, one behind the other. -/
def readN {α : Type} (p : List UInt8 → Nat → Option (α × Nat)) (l : List UInt8) :
    Nat → Nat → Option (List α × Nat)
  | 0, off => some ([], off)
  | n + 1, off =>
      (p l off).bind fun r => (readN p l n r.2).map fun rs => (r.1 :: rs.1, rs.2)

/-- `p` reads what `enc` writes, wherever it stands, and stops right behind it. -/
def Reads {α : Type} (p : List UInt8 → Nat → Option (α × Nat)) (enc : α → List UInt8) :
    Prop :=
  ∀ (front : List UInt8) (a : α) (tail : List UInt8),
    p (front ++ (enc a ++ tail)) front.length = some (a, front.length + (enc a).length)

theorem stringAt_append (s : CString) (tail : List UInt8) (h : off = l.length) :
    stringAt (l ++ (stringBytes s ++ tail)) off = some s := by
  have hdrop : (l ++ (stringBytes s ++ tail)).drop off = s.chars ++ 0 :: tail := by
    rw [h, List.drop_left, stringBytes, List.append_assoc, List.singleton_append]
  rw [stringAt, hdrop, if_pos (by simp), CString.ofBytes_append_nul]

theorem bytesAt_append (tail : List UInt8) {n : Nat} (h : off = l.length)
    (hn : n = l'.length) : bytesAt (l ++ (l' ++ tail)) off n = some l' := by
  rw [bytesAt, if_pos (by simp; omega), h, List.drop_left, hn, List.take_left]

theorem nextString_reads : Reads nextString stringBytes := by
  intro front s tail
  rw [nextString, stringAt_append _ front s tail rfl]
  simp [stringBytes, CString.strlen]

/-- Two readers, one behind the other. -/
theorem Reads.pair {α β : Type} {p : List UInt8 → Nat → Option (α × Nat)}
    {q : List UInt8 → Nat → Option (β × Nat)} {enc : α → List UInt8} {enc' : β → List UInt8}
    (hp : Reads p enc) (hq : Reads q enc') :
    Reads (fun l off => (p l off).bind fun a => (q l a.2).map fun b => ((a.1, b.1), b.2))
      fun ab => enc ab.1 ++ enc' ab.2 := by
  intro front ab tail
  have h1 := hp front ab.1 (enc' ab.2 ++ tail)
  have h2 := hq (front ++ enc ab.1) ab.2 tail
  simp only [List.append_assoc, List.length_append] at h1 h2 ⊢
  simp [h1, h2, Nat.add_assoc]

theorem Reads.readN {α : Type} {p : List UInt8 → Nat → Option (α × Nat)}
    {enc : α → List UInt8} (hp : Reads p enc) (xs : List α) :
    ∀ front tail : List UInt8,
      readN p (front ++ (xs.flatMap enc ++ tail)) xs.length front.length
        = some (xs, front.length + (xs.flatMap enc).length) := by
  induction xs with
  | nil =>
      intro front tail
      rfl
  | cons a xs ih =>
      intro front tail
      have h1 := hp front a (xs.flatMap enc ++ tail)
      have h2 := ih (front ++ enc a) tail
      simp only [List.flatMap_cons, List.append_assoc, List.length_append] at h1 h2 ⊢
      simp [ByteBuffer.readN, h1, h2, Nat.add_assoc]

/-! ## What a reader takes of the NULs -/

variable {α β : Type}

/-- `p` takes `k` of the NULs behind its offset, and fails just when there are fewer. -/
structure Takes (p : List UInt8 → Nat → Option (α × Nat)) (k : Nat) : Prop where
  rest : ∀ {l off r}, p l off = some r → (l.drop r.2).count 0 + k = (l.drop off).count 0
  few : ∀ {l off}, p l off = none → (l.drop off).count 0 < k

theorem Takes.isSome_iff {p : List UInt8 → Nat → Option (α × Nat)} {k : Nat} (h : Takes p k)
    {l : List UInt8} {off : Nat} : (p l off).isSome ↔ k ≤ (l.drop off).count 0 := by
  cases hp : p l off with
  | none =>
      have hfew := h.few hp
      exact iff_of_false (fun hsome => by cases hsome) (by omega)
  | some r =>
      have hrest := h.rest hp
      exact iff_of_true rfl (by omega)

/-- The string in front of the first NUL, and that NUL. -/
theorem count_behind (l : List UInt8) (h : 0 ∈ l) :
    (l.drop ((CString.ofBytes l).strlen + 1)).count 0 + 1 = l.count 0 := by
  induction l with
  | nil => cases h
  | cons b l ih =>
      by_cases hb : b = 0
      · subst hb
        have hnil : (CString.ofBytes (0 :: l)).strlen = 0 := rfl
        rw [hnil, Nat.zero_add, List.drop_one, List.tail_cons, List.count_cons_self]
      · have hmem : 0 ∈ l := (List.mem_cons.mp h).resolve_left fun h0 => hb h0.symm
        have hlen : (CString.ofBytes (b :: l)).strlen = (CString.ofBytes l).strlen + 1 := by
          show ((b :: l).takeWhile (· ≠ 0)).length = (l.takeWhile (· ≠ 0)).length + 1
          rw [List.takeWhile_cons_of_pos (by simpa using hb), List.length_cons]
        rw [hlen, List.drop_succ_cons, List.count_cons_of_ne hb]
        exact ih hmem

theorem nextString_takes : Takes nextString 1 where
  rest := by
    intro l off r h
    simp only [nextString, stringAt] at h
    split at h
    · rename_i hmem
      obtain rfl := Option.some.inj h
      rw [← List.drop_drop]
      exact count_behind _ hmem
    · cases h
  few := by
    intro l off h
    simp only [nextString, stringAt] at h
    split at h
    · cases h
    · rename_i hmem
      rw [List.count_eq_zero_of_not_mem hmem]
      exact Nat.zero_lt_one

/-- Two readers, one behind the other. -/
theorem Takes.bind {γ : Type} {p : List UInt8 → Nat → Option (α × Nat)}
    {q : List UInt8 → Nat → Option (β × Nat)} {k m : Nat} (hp : Takes p k) (hq : Takes q m)
    (f : α → β → γ) :
    Takes (fun l off => (p l off).bind fun a => (q l a.2).map fun b => (f a.1 b.1, b.2)) (k + m)
    where
  rest := by
    intro l off r h
    obtain ⟨a, ha, h⟩ := Option.bind_eq_some_iff.mp h
    obtain ⟨b, hb, rfl⟩ := Option.map_eq_some_iff.mp h
    have h1 := hp.rest ha
    have h2 := hq.rest hb
    show (l.drop b.2).count 0 + (k + m) = _
    omega
  few := by
    intro l off h
    rcases Option.bind_eq_none_iff.mp h with hall
    cases ha : p l off with
    | none =>
        have h1 := hp.few ha
        omega
    | some a =>
        have h1 := hp.rest ha
        have h2 := hq.few (Option.map_eq_none_iff.mp (hall a ha))
        omega

theorem Takes.readN {p : List UInt8 → Nat → Option (α × Nat)} {k : Nat} (hp : Takes p k) :
    ∀ n, Takes (fun l off => readN p l n off) (n * k)
  | 0 =>
      { rest := by
          intro l off r h
          obtain rfl := Option.some.inj h
          rw [Nat.zero_mul]
          rfl
        few := by
          intro l off h
          cases h }
  | n + 1 => by
      have hsum : (n + 1) * k = k + n * k := by rw [Nat.succ_mul, Nat.add_comm]
      rw [hsum]
      exact hp.bind (hp.readN n) fun a as => a :: as

/-- What a reader finds, all its values have. -/
theorem forall_readN {p : List UInt8 → Nat → Option (α × Nat)} {P : α → Prop} {l : List UInt8}
    (hp : ∀ {off r}, p l off = some r → P r.1) :
    ∀ {n off r}, ByteBuffer.readN p l n off = some r → ∀ a ∈ r.1, P a
  | 0, off, r, h => by
      obtain rfl := Option.some.inj h
      exact List.forall_mem_nil _
  | n + 1, off, r, h => by
      obtain ⟨a, ha, h⟩ := Option.bind_eq_some_iff.mp h
      obtain ⟨as, has, rfl⟩ := Option.map_eq_some_iff.mp h
      exact List.forall_mem_cons.mpr ⟨hp ha, forall_readN hp has⟩

/-- A string that ends in the bytes is shorter than they are. -/
theorem strlen_stringAt {l : List UInt8} {off : Nat} {s : CString} (h : stringAt l off = some s) :
    off + s.strlen < l.length := by
  simp only [stringAt] at h
  split at h
  · rename_i hmem
    obtain rfl := Option.some.inj h
    have hlen : (CString.ofBytes (l.drop off)).strlen < (l.drop off).length := by
      by_contra hge
      have hle : (CString.ofBytes (l.drop off)).strlen ≤ (l.drop off).length :=
        (List.takeWhile_prefix _).length_le
      have hall : (l.drop off).takeWhile (· ≠ 0) = l.drop off :=
        (List.takeWhile_prefix _).eq_of_length (Nat.le_antisymm hle (Nat.le_of_not_lt hge))
      rw [← hall] at hmem
      exact absurd (List.mem_takeWhile_imp hmem) (by decide)
    rw [List.length_drop] at hlen
    omega
  · cases h

/-! ## Bytes behind what is read -/

/-- What `p` reads, it reads whatever stands behind. -/
structure Local (p : List UInt8 → Nat → Option α) : Prop where
  keep : ∀ {l off r}, p l off = some r → ∀ tail, p (l ++ tail) off = some r

theorem byte_local : Local fun l off => l[off]? where
  keep := by
    intro l off b h tail
    obtain ⟨hlt, -⟩ := List.getElem?_eq_some_iff.mp h
    exact (List.getElem?_append_left hlt).trans h

theorem stringAt_local : Local stringAt where
  keep := by
    intro l off s h tail
    simp only [stringAt] at h ⊢
    split at h
    · rename_i hmem
      have hle : off ≤ l.length := by
        by_contra hgt
        rw [List.drop_of_length_le (by omega)] at hmem
        cases hmem
      obtain ⟨front, back, hsplit⟩ := List.append_of_mem hmem
      -- the first NUL is in front of the tail
      rw [List.drop_append_of_le_length hle, hsplit, List.append_assoc, List.cons_append,
        if_pos (by simp), CString.ofBytes_append_zero]
      rwa [hsplit, CString.ofBytes_append_zero] at h
    · cases h

theorem bytesAt_local (n : Nat) : Local fun l off => bytesAt l off n where
  keep := by
    intro l off r h tail
    simp only [bytesAt] at h ⊢
    split at h
    · rename_i hle
      have hlen : off + n ≤ (l ++ tail).length := by
        rw [List.length_append]
        omega
      have hn : n ≤ (l.drop off).length := by
        rw [List.length_drop]
        omega
      rw [if_pos hlen, List.drop_append_of_le_length (by omega), List.take_append_of_le_length hn]
      exact h
    · cases h

theorem Local.map {p : List UInt8 → Nat → Option α} (hp : Local p) (f : Nat → α → β) :
    Local fun l off => (p l off).map (f off) where
  keep := by
    intro l off r h tail
    obtain ⟨a, ha, hr⟩ := Option.map_eq_some_iff.mp h
    exact Option.map_eq_some_iff.mpr ⟨a, hp.keep ha tail, hr⟩

/-- Two readers, the second where the first says. -/
theorem Local.bind {p : List UInt8 → Nat → Option α} {q : α → List UInt8 → Nat → Option β}
    (hp : Local p) (hq : ∀ a, Local (q a)) :
    Local fun l off => (p l off).bind fun a => q a l off where
  keep := by
    intro l off r h tail
    obtain ⟨a, ha, hr⟩ := Option.bind_eq_some_iff.mp h
    exact Option.bind_eq_some_iff.mpr ⟨a, hp.keep ha tail, (hq a).keep hr tail⟩

/-- A reader at an offset of its own. -/
theorem Local.moved {p : List UInt8 → Nat → Option α} (hp : Local p) (f : Nat → Nat) :
    Local fun l off => p l (f off) where
  keep := fun h tail => hp.keep h tail

theorem nextString_local : Local nextString :=
  stringAt_local.map fun off s => (s, off + (s.strlen + 1))

theorem Local.readN {p : List UInt8 → Nat → Option (α × Nat)} (hp : Local p) :
    ∀ n, Local fun l off => readN p l n off
  | 0 => ⟨fun h _ => h⟩
  | n + 1 =>
      hp.bind fun a => ((hp.readN n).moved fun _ => a.2).map fun _ as => (a.1 :: as.1, as.2)

end ByteBuffer
