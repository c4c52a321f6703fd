import AwaleOnline.AwaleCodecProofs
import AwaleOnline.AwaleTypingProofs

/-!
# Lines of the keyboard

The client's loop asks `fgets` for `BUF_SIZE - 1` bytes, a NUL included.  `handle_user_input`
encodes the line into `uint8_t buf[1024]`, behind a prefix and a type and with a NUL of its own.

* **`typable_iff`** — what the loop passes on has at most 1022 characters and no newline;
* **`inside_iff`** — an encoder leaves what is behind the buffer alone just when its frame fits;
* **`typed_line_fits`** — the frames built of a line stay inside just when it has at most 1020
  characters or none is built (`LineFits`).
-/

namespace AwaleKeyboard

open AwaleProtocol AwaleClient AwaleCodec AwaleTyping ByteBuffer

variable {state : State} {line : CString} {q : Request} {l : List UInt8}

/-! ## The lines -/

/-- What `fgets` stores in an array of `n + 1` bytes, before its NUL. -/
def fgets : Nat → List UInt8 → List UInt8
  | 0, _ => []
  | _ + 1, [] => []
  | n + 1, b :: input => if b = 10 then [b] else b :: fgets n input

/-- `fgets(buffer, BUF_SIZE - 1, stdin)`, its newline overwritten with a NUL. -/
def typedLine (input : List UInt8) : CString :=
  CString.ofBytes ((fgets (bufSize - 1 - 1) input).takeWhile (· ≠ 10))

/-- A line that the loop passes on when there is something to read. -/
def Typable (line : CString) : Prop := ∃ input, input ≠ [] ∧ typedLine input = line

theorem fgets_length (n : Nat) : ∀ input, (fgets n input).length ≤ n := by
  induction n with
  | zero => exact fun _ => Nat.le_refl 0
  | succ n ih =>
      intro input
      cases input with
      | nil => exact Nat.zero_le _
      | cons b input =>
          simp only [fgets]
          split
          · exact Nat.succ_le_succ (Nat.zero_le n)
          · exact Nat.succ_le_succ (ih input)

/-- A line that fits is stored whole. -/
theorem fgets_line (hl : 10 ∉ l) : ∀ {n}, l.length ≤ n →
    (fgets n (l ++ [10])).takeWhile (· ≠ 10) = l := by
  induction l with
  | nil =>
      intro n _
      cases n with
      | zero => rfl
      | succ n => rfl
  | cons b l ih =>
      intro n hn
      have hb : 10 ≠ b := List.ne_of_not_mem_cons hl
      cases n with
      | zero => cases hn
      | succ n =>
          have hb' : b ≠ 10 := fun h => hb h.symm
          rw [List.cons_append, fgets, if_neg hb',
            List.takeWhile_cons_of_pos (by simpa using hb'),
            ih (List.not_mem_of_not_mem_cons hl) (Nat.le_of_succ_le_succ hn)]

theorem fgets_isPrefix (n : Nat) : ∀ l, fgets n l <+: l := by
  induction n with
  | zero => exact fun l => List.nil_prefix
  | succ n ih =>
      intro l
      cases l with
      | nil => exact List.nil_prefix
      | cons b l =>
          simp only [fgets]
          split
          · exact ⟨l, rfl⟩
          · exact List.prefix_cons_inj b |>.mpr (ih l)

/-- What comes behind a line makes no difference to it. -/
theorem fgets_append (n : Nat) : ∀ {l : List UInt8} (r : List UInt8),
    10 ∈ fgets n l ∨ (fgets n l).length = n → fgets n (l ++ r) = fgets n l := by
  induction n with
  | zero => exact fun _ _ => rfl
  | succ n ih =>
      intro l r h
      cases l with
      | nil => rcases h with h | h <;> cases h
      | cons b l =>
          simp only [List.cons_append, fgets] at h ⊢
          split
          · rfl
          · rename_i hb
            rw [if_neg hb] at h
            refine congrArg (b :: ·) (ih r (h.imp (fun hmem => ?_) fun hlen => ?_))
            · exact (List.mem_cons.mp hmem).resolve_left fun heq => hb heq.symm
            · exact Nat.succ.inj hlen

/-- What is stored would be stored again. -/
theorem fgets_fgets (n : Nat) : ∀ l, fgets n (fgets n l) = fgets n l := by
  induction n with
  | zero => exact fun _ => rfl
  | succ n ih =>
      intro l
      cases l with
      | nil => rfl
      | cons b l =>
          by_cases hb : b = 10
          · simp [fgets, hb]
          · simp [fgets, hb, ih l]

theorem fgets_enough (n : Nat) : ∀ {l : List UInt8}, 10 ∈ l →
    10 ∈ fgets n l ∨ (fgets n l).length = n := by
  induction n with
  | zero => exact fun _ => Or.inr rfl
  | succ n ih =>
      intro l hmem
      cases l with
      | nil => cases hmem
      | cons b l =>
          simp only [fgets]
          split
          · rename_i hb
            exact Or.inl (List.mem_singleton.mpr hb.symm)
          · rename_i hb
            have hmem' := (List.mem_cons.mp hmem).resolve_left fun h => hb h.symm
            refine (ih hmem').imp (fun h => List.mem_cons_of_mem b h) fun h => ?_
            rw [List.length_cons, h]

theorem ofBytes_chars (str : CString) : CString.ofBytes str.chars = str := by
  apply CString.ext
  refine List.takeWhile_eq_self_iff.mpr fun b hb => ?_
  have hne : b ≠ 0 := fun h => str.nulFree (h ▸ hb)
  simpa using hne

/-- A line that fits is passed on as it is. -/
theorem typedLine_chars (hlen : line.strlen + 2 ≤ bufSize) (hnone : 10 ∉ line.chars) :
    typedLine (line.chars ++ [10]) = line := by
  have hsize : bufSize = 1024 := rfl
  have hle : line.chars.length ≤ bufSize - 1 - 1 := by
    simp only [CString.strlen] at hlen
    omega
  rw [typedLine, fgets_line hnone hle, ofBytes_chars]

theorem typable_iff : Typable line ↔ line.strlen + 2 ≤ bufSize ∧ 10 ∉ line.chars := by
  constructor
  · rintro ⟨input, -, rfl⟩
    have hstored := fgets_length (bufSize - 1 - 1) input
    have hline : (typedLine input).chars
        <+: (fgets (bufSize - 1 - 1) input).takeWhile (· ≠ 10) := List.takeWhile_prefix _
    refine ⟨?_, fun h => ?_⟩
    · have hcut := (List.takeWhile_prefix (l := fgets (bufSize - 1 - 1) input)
        fun b => decide (b ≠ 10)).length_le
      have hle := hline.length_le
      have hsize : bufSize = 1024 := rfl
      simp only [CString.strlen]
      omega
    · have hmem := List.mem_takeWhile_imp (hline.subset h)
      exact absurd hmem (by decide)
  · rintro ⟨hlen, hnone⟩
    exact ⟨line.chars ++ [10], by simp, typedLine_chars hlen hnone⟩

/-! ## The buffer -/

/-- **THE ENCODER STAYS INSIDE** the buffer: what is behind it is left alone. -/
def Inside (q : Request) : Prop :=
  ∀ (buf : ByteBuffer) (k : Nat), bufSize ≤ k → (writeRequest buf q).1 k = buf k

theorem inside_iff (h : q.body.length < 65536) : Inside q ↔ q.body.length + 2 ≤ bufSize := by
  constructor
  · intro hin
    by_contra hlong
    -- the byte at 1024 is one of the frame, whatever was there
    have hlt : bufSize < (bytesUInt16 (UInt16.ofNat q.body.length) ++ q.body).length := by
      simp only [bytesUInt16, List.length_append, List.length_cons, List.length_nil]
      omega
    have hat : ∀ buf, (writeRequest buf q).1 bufSize
        = (bytesUInt16 (UInt16.ofNat q.body.length) ++ q.body)[bufSize] := by
      intro buf
      have hstored := storeBytes_at buf 0 _ hlt
      rw [Nat.zero_add] at hstored
      rw [request_frame buf q h]
      exact hstored
    have hzero := (hat fun _ => 0).symm.trans (hin _ bufSize (Nat.le_refl _))
    have hone := (hat fun _ => 1).symm.trans (hin _ bufSize (Nat.le_refl _))
    exact absurd (hzero.symm.trans hone) (by decide)
  · intro hle buf k hk
    rw [request_frame buf q h]
    exact frame_rest buf q.body (Nat.le_trans hle hk)

/-! ## The texts -/

/-- What is typed in a room. -/
def roomTexts (line : CString) : List Request :=
  if line = literal "/leave" then [] else [.sendMessage line]

/-- The CONNECT, SET_BIOGRAPHY and SEND_MESSAGE frames that `handle_user_input` builds. -/
def texts (state : State) (line : CString) : List Request :=
  if line.chars.head? = some 255 then []
  else if line = literal "/close" then []
  else
    match state with
    | .connecting => [.connect line]
    | .waitingBioInput => [.setBiography line]
    | .waitingPlayInput => if (strtol 10 line).2 = [] then [] else roomTexts line
    | .inRoom => roomTexts line
    | .spectating => roomTexts line
    | .inGame => roomTexts line
    | _ => []

theorem roomTexts_length : ∀ q ∈ roomTexts line, q.body.length = line.strlen + 2 := by
  intro q hq
  simp only [roomTexts] at hq
  split at hq
  · cases hq
  · obtain rfl := List.mem_singleton.mp hq
    simp [Request.body, CString.strlen]

/-- Each of them holds the line, a type and a NUL. -/
theorem texts_length : ∀ q ∈ texts state line, q.body.length = line.strlen + 2 := by
  have hone : ∀ {q' : Request}, q'.body.length = line.strlen + 2 →
      ∀ q ∈ [q'], q.body.length = line.strlen + 2 := fun h => List.forall_mem_singleton.mpr h
  intro q hq
  simp only [texts] at hq
  split at hq
  · cases hq
  split at hq
  · cases hq
  revert q
  cases state with
  | connecting => exact hone (by simp [Request.body, CString.strlen])
  | waitingBioInput => exact hone (by simp [Request.body, CString.strlen])
  | waitingPlayInput =>
      dsimp only
      split
      · exact List.forall_mem_nil _
      · exact roomTexts_length
  | inRoom => exact roomTexts_length
  | spectating => exact roomTexts_length
  | inGame => exact roomTexts_length
  | _ => exact List.forall_mem_nil _

/-! ## The reaction -/

theorem encoded_overrun {k : List Request → Reaction} (hk : k [q] ≠ .overrun) :
    encoded q k = .overrun ↔ bufSize < q.body.length + 2 := by
  rw [encoded]
  split
  · rename_i hlong
    exact iff_of_true rfl hlong
  · rename_i hlong
    exact iff_of_false hk hlong

theorem enter_ne (state : State) (sent : List Request) : enter state sent ≠ .overrun :=
  fun h => by cases h

theorem room_overrun (state : State) :
    handleRoomInput state line = .overrun
      ↔ ∃ q ∈ roomTexts line, bufSize < q.body.length + 2 := by
  simp only [handleRoomInput, roomTexts]
  split
  · rw [encoded_overrun (enter_ne _ _)]
    simp [Request.body, bufSize]
  · rw [encoded_overrun fun h => by cases h]
    simp

/-- **A LINE OVERRUNS THE BUFFER** of the model just when a text it is sent as is too long: the
    other encoders write eight bytes at most. -/
theorem overrun_iff (state : State) (line : CString) :
    handleUserInput state line = .overrun
      ↔ ∃ q ∈ texts state line, bufSize < q.body.length + 2 := by
  have hnone : ¬ ∃ q ∈ ([] : List Request), bufSize < q.body.length + 2 := by simp
  have hjoin : ∀ roomId spectate, (Request.joinRoom roomId spectate).body.length + 2 ≤ bufSize :=
    fun _ _ => by simp [Request.body, bytesUInt32, bufSize]
  have hshort : ∀ {q : Request} {k : List Request → Reaction}, k [q] ≠ .overrun →
      q.body.length + 2 ≤ bufSize → encoded q k ≠ .overrun :=
    fun hk hle h => absurd ((encoded_overrun hk).mp h) (Nat.not_lt.mpr hle)
  simp only [handleUserInput, texts]
  split
  · exact iff_of_false (fun h => by cases h) hnone
  split
  · exact iff_of_false (fun h => by cases h) hnone
  cases state with
  | connecting =>
      rw [encoded_overrun (enter_ne _ _)]
      simp
  | waitingBioInput =>
      rw [encoded_overrun (enter_ne _ _)]
      simp
  | connected =>
      refine iff_of_false ?_ hnone
      dsimp only
      split <;> exact enter_ne _ _
  | waitingJoinRoomInput =>
      exact iff_of_false (hshort (enter_ne _ _) (hjoin _ _)) hnone
  | waitingSpectateRoomInput =>
      exact iff_of_false (hshort (enter_ne _ _) (hjoin _ _)) hnone
  | waitingPlayInput =>
      dsimp only
      split
      · exact iff_of_false (hshort (enter_ne _ _) (by simp [Request.body, bufSize])) hnone
      · exact room_overrun _
  | inRoom => exact room_overrun _
  | spectating => exact room_overrun _
  | inGame => exact room_overrun _
  | waitingConnection => exact iff_of_false (fun h => by cases h) hnone
  | waitingCreateRoomResponse => exact iff_of_false (fun h => by cases h) hnone
  | waitingJoinRoomResponse => exact iff_of_false (fun h => by cases h) hnone
  | waitingSpectateRoomResponse => exact iff_of_false (fun h => by cases h) hnone
  | waitingPlayAck => exact iff_of_false (fun h => by cases h) hnone

/-! ## The lines that fit -/

/-- The states in which a line may be sent as it is. -/
def takesText : State → Bool
  | .connecting => true
  | .waitingBioInput => true
  | .waitingPlayInput => true
  | .inRoom => true
  | .spectating => true
  | .inGame => true
  | _ => false

/-- The line leaves room for the other four bytes, or it is not sent as it is. -/
def LineFits (state : State) (line : CString) : Prop :=
  line.strlen + 4 ≤ bufSize ∨ line.chars.head? = some 255 ∨ takesText state = false
    ∨ (state = .waitingPlayInput ∧ ∃ n, Decimal line n)

theorem roomTexts_nil (h : roomTexts line = []) : line.strlen + 4 ≤ bufSize := by
  simp only [roomTexts] at h
  split at h
  · rename_i hleave
    rw [hleave]
    decide +kernel
  · cases h

/-- A line that is not sent as it is. -/
theorem lineFits_of_nil (h : texts state line = []) : LineFits state line := by
  simp only [texts] at h
  split at h
  · rename_i heof
    exact Or.inr (Or.inl heof)
  split at h
  · rename_i hclose
    refine Or.inl ?_
    rw [hclose]
    decide +kernel
  cases state with
  | connecting => cases h
  | waitingBioInput => cases h
  | waitingPlayInput =>
      dsimp only at h
      split at h
      · rename_i hend
        rcases decimal_of_strtol hend with hnil | hdecimal
        · refine Or.inl ?_
          rw [CString.strlen, hnil]
          decide
        · exact Or.inr (Or.inr (Or.inr ⟨rfl, hdecimal⟩))
      · exact Or.inl (roomTexts_nil h)
  | inRoom => exact Or.inl (roomTexts_nil h)
  | spectating => exact Or.inl (roomTexts_nil h)
  | inGame => exact Or.inl (roomTexts_nil h)
  | _ => exact Or.inr (Or.inr (Or.inl rfl))

theorem texts_nil (h : line.chars.head? = some 255 ∨ takesText state = false
    ∨ (state = .waitingPlayInput ∧ ∃ n, Decimal line n)) : texts state line = [] := by
  simp only [texts]
  split
  · rfl
  rename_i heof
  split
  · rfl
  rcases h with h | h | ⟨rfl, n, hn⟩
  · exact absurd h heof
  · cases state with
    | connecting => cases h
    | waitingBioInput => cases h
    | waitingPlayInput => cases h
    | inRoom => cases h
    | spectating => cases h
    | inGame => cases h
    | _ => rfl
  · exact if_pos (congrArg Prod.snd (strtol_decimal hn))

/-- **LINES.**  In every state, the frames built of a line of the keyboard stay inside the buffer
    just when the line leaves room for four more bytes or is not sent as it is. -/
theorem typed_line_fits (state : State) (h : Typable line) :
    (∀ q ∈ texts state line, Inside q) ↔ LineFits state line := by
  have hlen := (typable_iff.mp h).1
  have hsize : bufSize = 1024 := rfl
  have hin : ∀ q ∈ texts state line, Inside q ↔ line.strlen + 4 ≤ bufSize := by
    intro q hq
    have hbody := texts_length q hq
    rw [inside_iff (by omega), hbody]
  constructor
  · intro hall
    cases htexts : texts state line with
    | nil => exact lineFits_of_nil htexts
    | cons q qs =>
        have hq : q ∈ texts state line := by
          rw [htexts]
          exact List.mem_cons_self
        exact Or.inl ((hin q hq).mp (hall q hq))
  · rintro (hfits | hnone) q hq
    · exact (hin q hq).mpr hfits
    · rw [texts_nil hnone] at hq
      cases hq

/-- A new client types its name. -/
theorem typed_line_fits_name :
    texts .connecting (literal "ann") = [.connect (literal "ann")]
      ∧ ∀ q ∈ texts .connecting (literal "ann"), Inside q := by
  have hline : Typable (literal "ann") :=
    typable_iff.mpr ⟨by decide +kernel, by decide +kernel⟩
  exact ⟨by decide +kernel, (typed_line_fits .connecting hline).mpr (Or.inl (by decide +kernel))⟩

/-- A name of 1022 characters. -/
def longName : CString :=
  ⟨List.replicate 1022 97, fun h => absurd (List.eq_of_mem_replicate h) (by decide)⟩

/-- **A NAME OF 1022 CHARACTERS** is passed on whole, and its frame takes 1026 bytes. -/
theorem name_overruns :
    typedLine (longName.chars ++ [10]) = longName
      ∧ handleUserInput .connecting longName = .overrun
      ∧ ¬ ∀ q ∈ texts .connecting longName, Inside q := by
  have hlen : longName.strlen = 1022 := List.length_replicate
  have hnone : 10 ∉ longName.chars :=
    fun h => absurd (List.eq_of_mem_replicate h) (by decide)
  have hclose : longName ≠ literal "/close" := by
    intro h
    rw [h] at hlen
    exact absurd hlen (by decide +kernel)
  have heof : longName.chars.head? ≠ some 255 := by
    intro h
    exact absurd (List.eq_of_mem_replicate (List.mem_of_mem_head? h)) (by decide)
  have hsent : Request.connect longName ∈ texts .connecting longName := by
    rw [texts, if_neg heof, if_neg hclose]
    exact List.mem_singleton_self _
  have hbody := texts_length _ hsent
  have hsize : bufSize = 1024 := rfl
  refine ⟨typedLine_chars (by omega) hnone, (overrun_iff _ _).mpr ⟨_, hsent, by omega⟩, ?_⟩
  intro hall
  have hle := (inside_iff (by omega)).mp (hall _ hsent)
  omega

end AwaleKeyboard
