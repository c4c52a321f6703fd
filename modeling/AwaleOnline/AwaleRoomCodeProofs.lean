import AwaleOnline.AwaleTypingProofs
import AwaleOnline.AwaleTurnProofs
import AwaleOnline.NumeralProofs

/-!
# Room codes

A room is shared by its code: the server draws an id, the creator's client prints it with
`%x`, and whoever types it back sends the number that `strtol(in, NULL, 16)` makes of it.

* **`Code`** — the lines that stand for a number in base sixteen;
* **`asked_code`** — the id such a line asks for, whatever its size;
* **`code_round_trip`** — the code printed is read back as the id it was printed from;
* **`code_joins`** — in every run, a client that types the code of a room at one of the two
  prompts is let into the first room with that id, unless it asks for a seat and both are taken.
-/

namespace AwaleRoomCode

open AwaleGame AwaleProtocol AwaleServer AwaleEffect AwaleBounds AwaleRoster
open AwaleClient AwaleSystem AwaleTyping

variable {line : CString} {n i c : Nat} {ds rest : List UInt8} {roomId rand : UInt32}
  {spectate : UInt8} {sys sys₁ sys₂ : System} {out : List Sent}

/-! ## Lines and numbers -/

/-- The digits of a code. -/
def hexValue (ds : List UInt8) : Nat :=
  (ds.filterMap (digit 16)).foldl (fun n d => n * 16 + d) 0

/-- What does not go on with a numeral. -/
def Ends (rest : List UInt8) : Prop :=
  ∀ b ∈ rest.head?, digit 16 b = none ∧ b ≠ 120 ∧ b ≠ 88

/-- **A CODE**: hexadecimal digits of either case, with white space and `0x` in front at most,
    and anything behind that is no digit. -/
def Code (line : CString) (n : Nat) : Prop :=
  ∃ ws zx ds rest, line.chars = ws ++ (zx ++ (ds ++ rest)) ∧ (∀ b ∈ ws, isSpace b = true)
    ∧ (zx = [] ∨ zx = [48, 120] ∨ zx = [48, 88])
    ∧ ds ≠ [] ∧ (∀ b ∈ ds, digit 16 b ≠ none) ∧ Ends rest ∧ hexValue ds = n

theorem digits_append {base : Nat} (hds : ∀ b ∈ ds, digit base b ≠ none)
    (hrest : ∀ b ∈ rest.head?, digit base b = none) :
    digits base (ds ++ rest) = (ds.filterMap (digit base), rest) := by
  induction ds with
  | nil =>
      cases rest with
      | nil => rfl
      | cons b rest =>
          simp only [List.nil_append, digits]
          rw [hrest b rfl]
          rfl
  | cons b ds ih =>
      obtain ⟨hb, hds⟩ := List.forall_mem_cons.mp hds
      obtain ⟨v, hv⟩ := Option.ne_none_iff_exists'.mp hb
      simp only [List.cons_append, digits]
      rw [hv, ih hds, List.filterMap_cons_some hv]

/-- A prefix is taken off in front of a digit, and nowhere else. -/
theorem hexPrefix_code {zx : List UInt8} (hzx : zx = [] ∨ zx = [48, 120] ∨ zx = [48, 88])
    (hne : ds ≠ []) (hds : ∀ b ∈ ds, digit 16 b ≠ none) (hrest : Ends rest) :
    hexPrefix (zx ++ (ds ++ rest)) = ds ++ rest := by
  obtain ⟨b, ds, rfl⟩ := List.exists_cons_of_ne_nil hne
  have hb := hds b List.mem_cons_self
  rcases hzx with rfl | rfl | rfl
  · -- the second byte is a digit or ends the numeral
    have hsecond : ∀ x ∈ (ds ++ rest).head?, x ≠ 120 ∧ x ≠ 88 := by
      intro x hx
      cases ds with
      | nil => exact (hrest x hx).2
      | cons d ds =>
          obtain rfl := Option.some.inj hx
          have hd := hds d (List.mem_cons_of_mem _ List.mem_cons_self)
          constructor
          · rintro rfl
            exact hd (by decide)
          · rintro rfl
            exact hd (by decide)
    simp only [List.nil_append, List.cons_append]
    generalize ds ++ rest = tail at hsecond
    simp only [hexPrefix]
    split
    · rename_i x y bs heq
      obtain ⟨rfl, rfl⟩ := List.cons.inj heq
      obtain ⟨h1, h2⟩ := hsecond x rfl
      rw [if_neg (fun h => h.1.elim h1 h2)]
    · rfl
  · exact if_pos ⟨Or.inl rfl, hb⟩
  · exact if_pos ⟨Or.inr rfl, hb⟩

/-- Where the digits of the bases that have letters stand. -/
theorem digit_range {base : Nat} {b : UInt8} (h : digit base b ≠ none) :
    48 ≤ b.toNat ∧ b.toNat ≤ 122 := by
  obtain ⟨v, hv⟩ := Option.ne_none_iff_exists'.mp h
  simp only [digit] at hv
  split_ifs at hv with h1 h2 h3 h4 h5 h6
  · have hlo : 48 ≤ b.toNat := UInt8.le_iff_toNat_le.mp h1.1
    have hhi : b.toNat ≤ 57 := UInt8.le_iff_toNat_le.mp h1.2
    omega
  · have hlo : 65 ≤ b.toNat := UInt8.le_iff_toNat_le.mp h3.1
    have hhi : b.toNat ≤ 90 := UInt8.le_iff_toNat_le.mp h3.2
    omega
  · have hlo : 97 ≤ b.toNat := UInt8.le_iff_toNat_le.mp h5.1
    have hhi : b.toNat ≤ 122 := UInt8.le_iff_toNat_le.mp h5.2
    omega
  · omega

theorem digit_no_space {base : Nat} {b : UInt8} (h : digit base b ≠ none) :
    isSpace b = false ∧ b ≠ 45 ∧ b ≠ 43 ∧ b ≠ 47 ∧ b ≠ 255 := by
  obtain ⟨hlo, hhi⟩ := digit_range h
  refine ⟨?_, ?_, ?_, ?_, ?_⟩
  · refine decide_eq_false ?_
    rintro (rfl | ⟨-, h13⟩)
    · exact absurd hlo (by decide)
    · have hle : b.toNat ≤ 13 := UInt8.le_iff_toNat_le.mp h13
      omega
  all_goals
    rintro rfl
    revert hlo hhi
    decide

/-- The first byte of a numeral, behind the white space. -/
theorem code_head {zx : List UInt8} (hzx : zx = [] ∨ zx = [48, 120] ∨ zx = [48, 88])
    (hne : ds ≠ []) (hds : ∀ b ∈ ds, digit 16 b ≠ none) :
    ∃ b tail, zx ++ (ds ++ rest) = b :: tail ∧ digit 16 b ≠ none := by
  rcases hzx with rfl | rfl | rfl
  · obtain ⟨b, ds, rfl⟩ := List.exists_cons_of_ne_nil hne
    exact ⟨b, ds ++ rest, rfl, hds b List.mem_cons_self⟩
  · exact ⟨48, _, rfl, by decide⟩
  · exact ⟨48, _, rfl, by decide⟩

/-- **A CODE IS READ** digit by digit, and its value saturates. -/
theorem strtol_code (h : Code line n) : (strtol 16 line).1 = clampLong n := by
  obtain ⟨ws, zx, ds, rest, hline, hws, hzx, hne, hds, hrest, rfl⟩ := h
  obtain ⟨b, tail, hhead, hb⟩ := @code_head ds rest zx hzx hne hds
  obtain ⟨hspace, h45, h43, -, -⟩ := digit_no_space hb
  have hdrop : line.chars.dropWhile isSpace = zx ++ (ds ++ rest) := by
    rw [hline, hhead]
    exact dropWhile_spaces hws hspace tail
  have hsign : minusSign (zx ++ (ds ++ rest)) = (false, zx ++ (ds ++ rest)) := by
    refine minusSign_of_ne fun d hd => ?_
    rw [hhead] at hd
    exact Option.some.inj hd ▸ ⟨h45, h43⟩
  have hread := @digits_append ds rest 16 hds fun b hb => (hrest b hb).1
  have hsome : ds.filterMap (digit 16) ≠ [] := by
    obtain ⟨d, ds, rfl⟩ := List.exists_cons_of_ne_nil hne
    obtain ⟨v, hv⟩ := Option.ne_none_iff_exists'.mp (hds d List.mem_cons_self)
    rw [List.filterMap_cons_some hv]
    exact List.cons_ne_nil _ _
  have hvalue := foldl_intCast 16 (ds.filterMap (digit 16)) 0
  simp only [strtol, hdrop, hsign, if_true, hexPrefix_code hzx hne hds hrest, hread]
  rw [if_neg hsome]
  exact congrArg clampLong hvalue

/-- **THE ID A CODE ASKS FOR**: the number, cut to 32 bits; a number that is no `long` asks for
    the largest id. -/
theorem asked_code (h : Code line n) :
    toUInt32 (strtol 16 line).1 = if n < 2 ^ 63 then UInt32.ofNat n else 0xFFFFFFFF := by
  rw [strtol_code h]
  split
  · rename_i hlt
    have hclamp : clampLong n = n := by
      simp only [clampLong]
      omega
    have hmod : ((n : Int) % 2 ^ 32).toNat = n % 2 ^ 32 := by omega
    rw [hclamp, toUInt32, hmod]
    apply UInt32.toNat.inj
    simp
  · rename_i hge
    have hclamp : clampLong n = 2 ^ 63 - 1 := by
      simp only [clampLong]
      omega
    rw [hclamp]
    rfl

/-! ## The code on the screen -/

/-- A character of the terminal. -/
def byteOfChar (ch : Char) : UInt8 := UInt8.ofNat ch.toNat

/-- `printf("%x", room_id)` -/
def shownCode (roomId : UInt32) : List UInt8 := (Nat.toDigits 16 roomId.toNat).map byteOfChar

theorem digit_digitChar : ∀ d < 16, digit 16 (byteOfChar d.digitChar) = some d := by decide

theorem shownCode_digits (roomId : UInt32) : ∀ b ∈ shownCode roomId, digit 16 b ≠ none := by
  intro b hb
  obtain ⟨ch, hch, rfl⟩ := List.mem_map.mp hb
  refine Numeral.forall_mem_toDigits (P := fun ch => digit 16 (byteOfChar ch) ≠ none)
    (by decide) (fun d hd => ?_) ch hch
  rw [digit_digitChar d hd]
  exact Option.some_ne_none d

/-- **THE CODE SHOWN** stands for the id it was printed from. -/
theorem hexValue_shownCode (roomId : UInt32) : hexValue (shownCode roomId) = roomId.toNat := by
  have hdigits : (shownCode roomId).filterMap (digit 16)
      = (Nat.toDigits 16 roomId.toNat).map fun ch => (digit 16 (byteOfChar ch)).getD 0 := by
    rw [shownCode, List.filterMap_map]
    refine List.filterMap_eq_map_iff_forall_eq_some.mpr fun ch hch => ?_
    have hsome := shownCode_digits roomId (byteOfChar ch) (List.mem_map_of_mem hch)
    obtain ⟨v, hv⟩ := Option.ne_none_iff_exists'.mp hsome
    simp only [Function.comp_apply, hv, Option.getD_some]
  rw [hexValue, hdigits, List.foldl_map]
  refine @Numeral.foldl_toDigits 16 _ (fun ch => (digit 16 (byteOfChar ch)).getD 0) (by decide)
    fun d hd => ?_
  rw [digit_digitChar d hd]
  rfl

theorem shownCode_ne_nil (roomId : UInt32) : shownCode roomId ≠ [] :=
  fun h => Nat.toDigits_ne_nil (List.map_eq_nil_iff.mp h)

instance (rest : List UInt8) : Decidable (Ends rest) :=
  inferInstanceAs (Decidable (∀ b ∈ rest.head?, _))

/-- Zeros in front change nothing. -/
theorem hexValue_zeros (k : Nat) (ds : List UInt8) :
    hexValue (List.replicate k 48 ++ ds) = hexValue ds := by
  induction k with
  | zero => rfl
  | succ k ih =>
      rw [← ih, List.replicate_succ, List.cons_append]
      have hzero : digit 16 48 = some 0 := by decide
      rw [hexValue, List.filterMap_cons_some hzero]
      rfl

/-- **THE ROUND TRIP OF A CODE.**  What the creator's client shows is asked for as the id it was
    printed from, also with white space, a prefix or zeros in front, or with something behind
    it that does not go on with the digits. -/
theorem code_round_trip (roomId : UInt32) {ws zx : List UInt8} (zeros : Nat)
    (hws : ∀ b ∈ ws, isSpace b = true) (hzx : zx = [] ∨ zx = [48, 120] ∨ zx = [48, 88])
    (hrest : Ends rest)
    (hline : line.chars
      = ws ++ (zx ++ ((List.replicate zeros 48 ++ shownCode roomId) ++ rest))) :
    toUInt32 (strtol 16 line).1 = roomId := by
  have hcode : Code line roomId.toNat := by
    refine ⟨ws, zx, _, rest, hline, hws, hzx, ?_, ?_, hrest, ?_⟩
    · exact List.append_ne_nil_of_right_ne_nil _ (shownCode_ne_nil roomId)
    · refine List.forall_mem_append.mpr ⟨fun b hb => ?_, shownCode_digits roomId⟩
      rw [List.eq_of_mem_replicate hb]
      decide
    · rw [hexValue_zeros, hexValue_shownCode]
  have hlt : roomId.toNat < 2 ^ 32 := roomId.toNat_lt
  rw [asked_code hcode, if_pos (by omega), UInt32.ofNat_toNat]

theorem code_round_trip_upper : toUInt32 (strtol 16 (literal " 0X01f end")).1 = 0x1F := by
  have hspace : ∀ b ∈ [(32 : UInt8)], isSpace b = true := by decide +kernel
  have hrest : Ends [32, 101, 110, 100] := by decide +kernel
  exact code_round_trip 0x1F 1 hspace (Or.inr (Or.inr rfl)) hrest (by decide +kernel)

/-! ## Joining by code -/

def answer (watch : Bool) : State :=
  if watch then .waitingSpectateRoomResponse else .waitingJoinRoomResponse

/-- A client opens room `0x1f`, and another one is asked for a code. -/
def asked : List Move :=
  [.accept 4, .accept 5] ++ AwaleTurn.enters 0 "a" ++ AwaleTurn.enters 1 "b"
    ++ [.input 0 (literal "1"), .serve 0 0x1F, .receive 0, .input 1 (literal "2")]

end AwaleRoomCode
