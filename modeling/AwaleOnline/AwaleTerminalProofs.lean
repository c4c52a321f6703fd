import AwaleOnline.AwaleKeyboardProofs
import AwaleOnline.AwaleWireProofs

/-!
# The client's main loop: `app`

One round of the loop waits in `select` for the keyboard or the socket, and serves the keyboard
first.  What is typed and what is received go through the same `buffer`.

* **`step`** — the loop, its keyboard and its connection, with the line each round hands to
  `handle_user_input`;
* **`lines_in_order`** — the lines handed on are the first lines of what was typed, however the
  bytes have come in; only after the end of the input is the last one handed on again;
* **`after_end`** — when the input has ended, the client reads nothing from its socket any more,
  and asks for two more things at most or repeats itself (`Floods`) until a `send` fails.
-/

namespace AwaleTerminal

open AwaleProtocol AwaleClient AwaleCodec ByteBuffer
open AwaleKeyboard (fgets fgets_isPrefix fgets_append typedLine)
open AwaleReceiving (filled contents)
open AwaleWire (Wire Call call)

/-- Standard input: what `fgets` has read ahead, what `select` looks at, and whether it ends
    there. -/
structure Keyboard where
  ahead : List UInt8
  fd : List UInt8
  ended : Bool
  deriving DecidableEq

/-- The client, and whether the server has closed the connection. -/
structure Terminal where
  wire : Wire
  keyboard : Keyboard
  buffer : ByteBuffer
  hungUp : Bool

/-- What can happen: somebody types, the input ends, bytes of the server arrive, the server closes,
    or the client goes through the loop once.  A call on a connection that the server has closed
    may return -1 (`fails`). -/
inductive Event where
  | typed (bytes : List UInt8)
  | endInput
  | arrive (bytes : List UInt8)
  | hangUp
  | round (k : Nat) (recvs : Call) (scratch : ByteBuffer) (fails : Bool)

/-- The line handed to `handle_user_input`, and the requests that are sent. -/
structure Output where
  line : Option CString
  sent : List Request

def Output.nothing : Output := ⟨none, []⟩

/-- `fgets` has all it wants: a newline, or as many bytes as it may store. -/
def Enough (stored : List UInt8) : Prop := 10 ∈ stored ∨ stored.length = bufSize - 1 - 1

instance (stored : List UInt8) : Decidable (Enough stored) := inferInstanceAs (Decidable (_ ∨ _))

/-- A call of `fgets(buffer, BUF_SIZE - 1, stdin)` that reads `k` bytes of the descriptor: none
    when it has enough, and else until it has, or up to the end of the input. -/
def getLine (kb : Keyboard) (k : Nat) : Option (List UInt8 × Keyboard) :=
  let input := kb.ahead ++ kb.fd.take k
  let stored := fgets (bufSize - 1 - 1) input
  if k ≤ kb.fd.length ∧ (Enough (fgets (bufSize - 1 - 1) kb.ahead) → k = 0)
      ∧ (Enough stored ∨ (kb.ended = true ∧ k = kb.fd.length)) then
    some (stored, ⟨input.drop stored.length, kb.fd.drop k, kb.ended⟩)
  else none

/-- The newline is overwritten with a NUL, or else the last byte of the buffer. -/
def chomp (buf : ByteBuffer) : ByteBuffer :=
  let str := (CString.read buf bufSize 0).chars
  if 10 ∈ str then storeByte buf (str.idxOf 10) 0 else storeByte buf (bufSize - 1) 0

/-- At the end of the input `fgets` leaves the buffer as it is. -/
def lineBuffer (buf : ByteBuffer) (stored : List UInt8) : ByteBuffer :=
  chomp (if stored = [] then buf else storeBytes buf 0 (stored ++ [0]))

/-- What `handle_user_input` is given. -/
def lineIn (buf : ByteBuffer) (stored : List UInt8) : CString :=
  CString.read (lineBuffer buf stored) bufSize 0

/-- The branch for `STDIN_FILENO`; `exit` is called for `/close` and after a `send` that fails. -/
def readKeyboard (t : Terminal) (k : Nat) (scratch : ByteBuffer) (fails : Bool) :
    Option (Terminal × Output) :=
  (getLine t.keyboard k).bind fun got =>
    let buffer := lineBuffer t.buffer got.1
    let line := lineIn t.buffer got.1
    match handleUserInput t.wire.state line with
    | .exit => some (⟨{ t.wire with closed := true }, got.2, buffer, t.hungUp⟩, ⟨some line, []⟩)
    | .overrun => none
    | .next state sent =>
        let fails := t.hungUp && fails
        some (⟨t.wire.next fails scratch state sent, got.2, buffer, t.hungUp⟩,
          ⟨some line, if fails then [] else sent⟩)

/-- The branch for the socket. -/
def readSocket (t : Terminal) (recvs : Call) (scratch : ByteBuffer) (fails : Bool) :
    Option (Terminal × Output) :=
  -- `recv` fails and the process exits
  if t.hungUp = true ∧ fails = true then
    some ({ t with wire := { t.wire with closed := true } }, .nothing)
  else
    (call .client t.buffer t.hungUp recvs t.wire.down).bind fun got =>
      let buffer := filled .client t.buffer got.head got.body
      let w := { t.wire with down := got.rest }
      -- server down
      if got.head = [] ∨ got.body = [] then
        some ({ t with wire := { w with closed := true }, buffer := buffer }, .nothing)
      else if got.body.length ≥ bufSize then none
      else
        -- no handler of a frame sends anything
        (serverClientProtocolRead (contents buffer)).map fun h =>
          let r := h.elim (w.state, []) (dispatch w.state)
          ({ t with wire := w.next false scratch r.1 r.2, buffer := buffer }, ⟨none, r.2⟩)

/-- One round; `none` when `select` or a call in the loop blocks, the client has left the loop, or
    it leaves the defined behaviour. -/
def round (t : Terminal) (k : Nat) (recvs : Call) (scratch : ByteBuffer) (fails : Bool) :
    Option (Terminal × Output) :=
  if t.wire.closed then none
  else if t.keyboard.fd ≠ [] ∨ t.keyboard.ended = true then readKeyboard t k scratch fails
  else if t.wire.down ≠ [] ∨ t.hungUp = true then readSocket t recvs scratch fails
  else none

def step (t : Terminal) : Event → Option (Terminal × Output)
  | .typed bytes =>
      if t.keyboard.ended then none
      else some ({ t with keyboard := { t.keyboard with fd := t.keyboard.fd ++ bytes } }, .nothing)
  | .endInput => some ({ t with keyboard := { t.keyboard with ended := true } }, .nothing)
  | .arrive bytes =>
      if t.hungUp then none
      else some ({ t with wire := { t.wire with down := t.wire.down ++ bytes } }, .nothing)
  | .hangUp => some ({ t with hungUp := true }, .nothing)
  | .round k recvs scratch fails => round t k recvs scratch fails

def typedBy : Event → List UInt8
  | .typed bytes => bytes
  | _ => []

/-- What is typed in a run. -/
def typedIn (es : List Event) : List UInt8 := es.flatMap typedBy

/-- The lines that a run hands to `handle_user_input`. -/
def linesOf (outs : List Output) : List CString := outs.flatMap fun o => o.line.toList

/-- The requests that a run sends. -/
def requestsOf (outs : List Output) : List Request := outs.flatMap Output.sent

/-- A client that has just started; nothing is said about its buffer. -/
def Initial (t : Terminal) : Prop :=
  t.wire = .fresh ∧ t.keyboard = ⟨[], [], false⟩ ∧ t.hungUp = false

abbrev Reachable : Terminal → Prop := GuardedRun.Reachable step GuardedRun.Always Initial

/-- Nothing will be typed any more. -/
def AtEnd (t : Terminal) : Prop := t.keyboard = ⟨[], [], true⟩

instance (t : Terminal) : Decidable (AtEnd t) := inferInstanceAs (Decidable (_ = _))

/-- What the next round hands on when `fgets` stores nothing. -/
def repeated (t : Terminal) : CString := lineIn t.buffer []

variable {t t' : Terminal} {kb kb' : Keyboard} {k n m : Nat} {recvs : Call}
  {scratch buf : ByteBuffer} {fails : Bool} {sent : List Request} {l p stored : List UInt8}
  {line : CString} {e : Event} {o : Output} {es : List Event} {outs : List Output}

/-! ## The line in the buffer -/

section Line

theorem takeWhile_set {α : Type} {f : α → Bool} {a : α} (ha : f a = false) {i : Nat} :
    ∀ {l : List α}, i < l.length → (l.set i a).takeWhile f = (l.takeWhile f).take i := by
  induction i with
  | zero =>
      intro l hi
      cases l with
      | nil => cases hi
      | cons b l => simp [ha]
  | succ i ih =>
      intro l hi
      cases l with
      | nil => cases hi
      | cons b l =>
          rw [List.set_cons_succ, List.takeWhile_cons, List.takeWhile_cons]
          split
          · rw [ih (Nat.lt_of_succ_lt_succ hi), List.take_succ_cons]
          · rfl

/-- What a NUL cuts off the string in the buffer. -/
theorem read_storeByte {i : Nat} (hi : i < bufSize) :
    (CString.read (storeByte buf i 0) bufSize 0).chars
      = (CString.read buf bufSize 0).chars.take i := by
  have hset : (List.range' 0 (bufSize - 0)).map (storeByte buf i 0)
      = ((List.range' 0 (bufSize - 0)).map buf).set i 0 := by
    refine List.ext_getElem (by simp) fun j h1 h2 => ?_
    rw [List.getElem_set, List.getElem_map, List.getElem_map, List.getElem_range']
    have hj : 0 + 1 * j = j := by omega
    rw [hj]
    split
    · rename_i heq
      obtain rfl := heq
      exact storeBytes_at buf i [0] (k := 0) Nat.zero_lt_one
    · rename_i hne
      exact storeBytes_off buf i [0] (by rw [List.length_singleton]; omega)
  show ((List.range' 0 (bufSize - 0)).map (storeByte buf i 0)).takeWhile (· ≠ 0) = _
  rw [hset, takeWhile_set (by decide) (by simpa using hi)]
  rfl

theorem read_length (buf : ByteBuffer) : (CString.read buf bufSize 0).chars.length ≤ bufSize := by
  have hle := (List.takeWhile_prefix (l := (List.range' 0 (bufSize - 0)).map buf)
    fun b => decide (b ≠ 0)).length_le
  rw [List.length_map, List.length_range'] at hle
  exact hle

theorem takeWhile_of_notMem (h : 10 ∉ l) : l.takeWhile (· ≠ 10) = l := by
  refine List.takeWhile_eq_self_iff.mpr fun b hb => ?_
  have hne : b ≠ 10 := fun heq => h (heq ▸ hb)
  simpa using hne

theorem take_idxOf (l : List UInt8) : l.take (l.idxOf 10) = l.takeWhile (· ≠ 10) := by
  rw [List.takeWhile_eq_take_findIdx_not, List.idxOf]
  congr 2
  funext b
  by_cases hb : b = 10 <;> simp [hb]

/-- **THE LINE** is the string in the buffer up to its newline, and leaves room for a NUL. -/
theorem read_chomp (buf : ByteBuffer) : (CString.read (chomp buf) bufSize 0).chars
    = ((CString.read buf bufSize 0).chars.takeWhile (· ≠ 10)).take (bufSize - 1) := by
  have hle := read_length buf
  simp only [chomp]
  split
  · rename_i hmem
    have hlt := List.idxOf_lt_length_iff.mpr hmem
    rw [read_storeByte (Nat.lt_of_lt_of_le hlt hle), take_idxOf]
    refine (List.take_of_length_le ?_).symm
    have hshort := List.length_take_le ((CString.read buf bufSize 0).chars.idxOf 10)
      (CString.read buf bufSize 0).chars
    rw [take_idxOf] at hshort
    omega
  · rename_i hmem
    rw [read_storeByte (by decide), takeWhile_of_notMem hmem]

/-- A line that is still in the buffer is read again. -/
theorem lineIn_again (buf : ByteBuffer) : lineIn (lineBuffer buf []) [] = lineIn buf [] := by
  show CString.read (chomp (chomp buf)) bufSize 0 = CString.read (chomp buf) bufSize 0
  apply CString.ext
  rw [read_chomp (chomp buf), read_chomp buf]
  have hnone : 10 ∉ ((CString.read buf bufSize 0).chars.takeWhile (· ≠ 10)).take (bufSize - 1) := by
    intro h
    have hmem := List.mem_takeWhile_imp (List.mem_of_mem_take h)
    exact absurd hmem (by decide)
  rw [takeWhile_of_notMem hnone, List.take_take, Nat.min_self]

theorem read_stored (hlen : p.length < bufSize) :
    (CString.read (storeBytes buf 0 (p ++ [0])) bufSize 0) = CString.ofBytes p := by
  have hat : ∀ {j : Nat} (hj : j < (p ++ [(0 : UInt8)]).length),
      storeBytes buf 0 (p ++ [0]) j = (p ++ [0])[j] := by
    intro j hj
    have h := storeBytes_at buf 0 (p ++ [0]) hj
    rwa [Nat.zero_add] at h
  have hnul : storeBytes buf 0 (p ++ [0]) p.length = 0 := by
    rw [hat (by simp), List.getElem_append_right (Nat.le_refl _)]
    simp
  rw [CString.read_eq_ofBytes hnul (Nat.zero_le _) hlen]
  congr 1
  refine List.ext_getElem (by simp) fun j h1 h2 => ?_
  rw [List.getElem_map, List.getElem_range', Nat.zero_add, Nat.one_mul,
    hat (by rw [List.length_append]; omega), List.getElem_append_left h2]

/-- **A LINE THAT WAS TYPED**, as it is handed on. -/
theorem lineIn_typed (hne : fgets (bufSize - 1 - 1) l ≠ []) :
    lineIn buf (fgets (bufSize - 1 - 1) l) = typedLine l := by
  have hlen := AwaleKeyboard.fgets_length (bufSize - 1 - 1) l
  have hsize : bufSize = 1024 := rfl
  rw [lineIn, lineBuffer, if_neg hne]
  apply CString.ext
  rw [read_chomp, read_stored (by omega)]
  show (((fgets (bufSize - 1 - 1) l).takeWhile (· ≠ 0)).takeWhile (· ≠ 10)).take (bufSize - 1)
    = ((fgets (bufSize - 1 - 1) l).takeWhile (· ≠ 10)).takeWhile (· ≠ 0)
  rw [List.take_of_length_le, List.takeWhile_takeWhile, List.takeWhile_takeWhile]
  · congr 1
    funext b
    exact decide_eq_decide.mpr and_comm
  · refine Nat.le_trans (List.IsPrefix.length_le
      ((List.takeWhile_prefix _).trans (List.takeWhile_prefix _))) ?_
    omega

end Line

/-! ## Lines in order -/

section Lines

/-- What `fgets` leaves of the input. -/
def behind (l : List UInt8) : List UInt8 := l.drop (fgets (bufSize - 1 - 1) l).length

/-- The first lines of an input. -/
def firstLines : Nat → List UInt8 → List CString
  | 0, _ => []
  | n + 1, l => typedLine l :: firstLines n (behind l)

theorem behind_append (h : Enough (fgets (bufSize - 1 - 1) l)) (r : List UInt8) :
    typedLine (l ++ r) = typedLine l ∧ behind (l ++ r) = behind l ++ r := by
  have hline := fgets_append (bufSize - 1 - 1) r h
  refine ⟨by rw [typedLine, hline, typedLine], ?_⟩
  rw [behind, behind, hline]
  exact List.drop_append_of_le_length (fgets_isPrefix _ l).length_le

/-- **WHAT `fgets` DOES**, whatever it has read ahead and however much it reads: it takes the first
    line, a whole one unless the input ends in it. -/
theorem getLine_eq_some (h : getLine kb k = some (stored, kb')) :
    stored = fgets (bufSize - 1 - 1) (kb.ahead ++ kb.fd)
      ∧ kb'.ahead ++ kb'.fd = behind (kb.ahead ++ kb.fd) ∧ kb'.ended = kb.ended
      ∧ (kb.ended = false → Enough stored) := by
  simp only [getLine] at h
  split at h
  · rename_i hcond
    obtain ⟨hk, -, hend⟩ := hcond
    obtain ⟨rfl, rfl⟩ := Prod.mk.inj (Option.some.inj h)
    have hinput : kb.ahead ++ kb.fd = (kb.ahead ++ kb.fd.take k) ++ kb.fd.drop k := by
      rw [List.append_assoc, List.take_append_drop]
    rcases hend with henough | ⟨hended, rfl⟩
    · obtain ⟨-, hbehind⟩ := behind_append henough (kb.fd.drop k)
      rw [hinput, hbehind]
      exact ⟨(fgets_append _ _ henough).symm, rfl, rfl, fun _ => henough⟩
    · rw [List.take_length, List.drop_length, List.append_nil]
      refine ⟨rfl, rfl, rfl, fun hopen => ?_⟩
      rw [hended] at hopen
      cases hopen
  · cases h

/-- The lines of the input so far, and what is left of it behind them. -/
def leftOver : Nat → List UInt8 → List UInt8
  | 0, l => l
  | n + 1, l => leftOver n (behind l)

/-- No line is cut short by the end of the input. -/
def WholeLines (n : Nat) (l : List UInt8) : Prop :=
  ∀ i < n, Enough (fgets (bufSize - 1 - 1) (leftOver i l))

theorem leftOver_succ (n : Nat) : ∀ l, leftOver (n + 1) l = behind (leftOver n l) := by
  induction n with
  | zero => exact fun _ => rfl
  | succ n ih => exact fun l => ih (behind l)

theorem firstLines_succ (n : Nat) :
    ∀ l, firstLines (n + 1) l = firstLines n l ++ [typedLine (leftOver n l)] := by
  induction n with
  | zero => exact fun _ => rfl
  | succ n ih => exact fun l => congrArg (typedLine l :: ·) (ih (behind l))

theorem WholeLines.succ (h : WholeLines n l)
    (hn : Enough (fgets (bufSize - 1 - 1) (leftOver n l))) : WholeLines (n + 1) l := by
  intro i hi
  rcases Nat.lt_succ_iff_lt_or_eq.mp hi with hlt | rfl
  · exact h i hlt
  · exact hn

/-- What is typed later comes behind the lines. -/
theorem WholeLines.append (r : List UInt8) : ∀ {n : Nat}, WholeLines n l →
    firstLines n (l ++ r) = firstLines n l ∧ leftOver n (l ++ r) = leftOver n l ++ r
      ∧ WholeLines n (l ++ r) := by
  intro n
  induction n with
  | zero => exact fun _ => ⟨rfl, rfl, fun _ hi => absurd hi (Nat.not_lt_zero _)⟩
  | succ n ih =>
      intro h
      obtain ⟨hlines, hleft, hwhole⟩ := ih fun i hi => h i (Nat.lt_succ_of_lt hi)
      have hn := h n (Nat.lt_succ_self n)
      obtain ⟨hline, hbehind⟩ := behind_append hn r
      refine ⟨?_, ?_, hwhole.succ ?_⟩
      · rw [firstLines_succ, firstLines_succ, hlines, hleft, hline]
      · rw [leftOver_succ, leftOver_succ, hleft, hbehind]
      · rw [hleft, fgets_append _ r hn]
        exact hn

/-- `fgets` stores nothing at the end of the input only. -/
theorem getLine_nothing (h : getLine kb k = some ([], kb')) :
    kb = ⟨[], [], true⟩ ∧ kb' = kb := by
  have hnone : ¬ Enough [] := by decide
  obtain ⟨hstored, hleft, hended, henough⟩ := getLine_eq_some h
  have hend : kb.ended = true := by
    by_contra hopen
    exact hnone (henough (by simpa using hopen))
  -- there was nothing to store
  have hnil : kb.ahead ++ kb.fd = [] := by
    cases hinput : kb.ahead ++ kb.fd with
    | nil => rfl
    | cons b l =>
        rw [hinput] at hstored
        simp only [fgets, bufSize] at hstored
        split at hstored <;> cases hstored
  obtain ⟨hahead, hfd⟩ := List.append_eq_nil_iff.mp hnil
  rw [hnil] at hleft
  obtain ⟨hahead', hfd'⟩ := List.append_eq_nil_iff.mp hleft
  obtain ⟨ahead, fd, ended⟩ := kb
  obtain ⟨ahead', fd', ended'⟩ := kb'
  cases hahead
  cases hfd
  cases hend
  cases hahead'
  cases hfd'
  cases hended
  exact ⟨rfl, rfl⟩

/-- `n` lines of what was typed have been handed on, and then `m` times what the buffer holds. -/
structure InOrder (t : Terminal) (typed : List UInt8) (lines : List CString) (n m : Nat) :
    Prop where
  lines : lines = firstLines n typed ++ List.replicate m (repeated t)
  left : leftOver n typed = t.keyboard.ahead ++ t.keyboard.fd
  whole : t.keyboard.ended = false → WholeLines n typed
  last : m ≠ 0 → AtEnd t

variable {typed : List UInt8} {lines : List CString}

theorem InOrder.of_rest (h : InOrder t typed lines n m) (hkb : t'.keyboard = t.keyboard)
    (hbuffer : m ≠ 0 → t'.buffer = t.buffer) : InOrder t' typed lines n m where
  lines := by
    by_cases hm : m = 0
    · subst hm
      exact h.lines
    · rw [h.lines, repeated, repeated, hbuffer hm]
  left := hkb ▸ h.left
  whole := hkb ▸ h.whole
  last hm := hkb.trans (h.last hm)

theorem readKeyboard_got (h : readKeyboard t k scratch fails = some (t', o)) :
    (∃ stored, getLine t.keyboard k = some (stored, t'.keyboard)
      ∧ t'.buffer = lineBuffer t.buffer stored ∧ o.line = some (lineIn t.buffer stored))
      ∧ t'.hungUp = t.hungUp := by
  simp only [readKeyboard] at h
  obtain ⟨got, hgot, hr⟩ := Option.bind_eq_some_iff.mp h
  split at hr
  · obtain ⟨rfl, rfl⟩ := Prod.mk.inj (Option.some.inj hr)
    exact ⟨⟨got.1, hgot, rfl, rfl⟩, rfl⟩
  · cases hr
  · obtain ⟨rfl, rfl⟩ := Prod.mk.inj (Option.some.inj hr)
    exact ⟨⟨got.1, hgot, rfl, rfl⟩, rfl⟩

theorem readSocket_rest (h : readSocket t recvs scratch fails = some (t', o)) :
    t'.keyboard = t.keyboard ∧ t'.hungUp = t.hungUp ∧ o.line = none := by
  simp only [readSocket] at h
  split at h
  · obtain ⟨rfl, rfl⟩ := Prod.mk.inj (Option.some.inj h)
    exact ⟨rfl, rfl, rfl⟩
  · obtain ⟨got, -, hr⟩ := Option.bind_eq_some_iff.mp h
    split at hr
    · obtain ⟨rfl, rfl⟩ := Prod.mk.inj (Option.some.inj hr)
      exact ⟨rfl, rfl, rfl⟩
    · split at hr
      · cases hr
      · obtain ⟨h, -, heq⟩ := Option.map_eq_some_iff.mp hr
        obtain ⟨rfl, rfl⟩ := Prod.mk.inj heq
        exact ⟨rfl, rfl, rfl⟩

/-- **WHAT A ROUND READS**: a line, which it hands on, or something from the socket. -/
theorem round_cases (h : round t k recvs scratch fails = some (t', o)) :
    t'.hungUp = t.hungUp
      ∧ (((t.keyboard.fd ≠ [] ∨ t.keyboard.ended = true) ∧ ∃ stored,
            getLine t.keyboard k = some (stored, t'.keyboard)
              ∧ t'.buffer = lineBuffer t.buffer stored ∧ o.line = some (lineIn t.buffer stored))
        ∨ (¬ (t.keyboard.fd ≠ [] ∨ t.keyboard.ended = true) ∧ t'.keyboard = t.keyboard
          ∧ o.line = none)) := by
  simp only [round] at h
  split at h
  · cases h
  · split at h
    · rename_i hready
      obtain ⟨hgot, hup⟩ := readKeyboard_got h
      exact ⟨hup, Or.inl ⟨hready, hgot⟩⟩
    · rename_i hready
      split at h
      · obtain ⟨hkb, hup, hline⟩ := readSocket_rest h
        exact ⟨hup, Or.inr ⟨hready, hkb, hline⟩⟩
      · cases h

/-- A round hands on the first line of what is left, or, when nothing is left, the line that is
    still in the buffer. -/
theorem InOrder.read (h : InOrder t typed lines n m)
    (hgot : getLine t.keyboard k = some (stored, t'.keyboard))
    (hbuffer : t'.buffer = lineBuffer t.buffer stored) :
    ∃ n' m', InOrder t' typed (lines ++ [lineIn t.buffer stored]) n' m' := by
  by_cases hnil : stored = []
  · subst hnil
    obtain ⟨hend, hkb⟩ := getLine_nothing hgot
    have hsame : repeated t' = repeated t := by
      rw [repeated, hbuffer]
      exact lineIn_again t.buffer
    refine ⟨n, m + 1, ?_, hkb ▸ h.left, hkb ▸ h.whole, fun _ => hkb.trans hend⟩
    rw [h.lines, hsame, List.append_assoc, List.replicate_succ']
    rfl
  · obtain ⟨hstored, hleft, hended, henough⟩ := getLine_eq_some hgot
    rw [← h.left] at hstored hleft
    have hm : m = 0 := by
      by_contra hm
      rw [h.last hm] at hgot
      obtain ⟨hempty, -⟩ := getLine_eq_some hgot
      exact hnil hempty
    subst hm
    have hline : lineIn t.buffer stored = typedLine (leftOver n typed) := by
      rw [hstored] at hnil ⊢
      exact lineIn_typed hnil
    refine ⟨n + 1, 0, ?_, ?_, fun hopen => ?_, fun h => absurd rfl h⟩
    · rw [h.lines, hline, firstLines_succ]
      simp
    · rw [leftOver_succ]
      exact hleft.symm
    · rw [hended] at hopen
      exact (h.whole hopen).succ (hstored ▸ henough hopen)

theorem InOrder.step (h : InOrder t typed lines n m) (hs : step t e = some (t', o)) :
    ∃ n' m', InOrder t' (typed ++ typedBy e) (lines ++ o.line.toList) n' m' := by
  -- what is neither typed nor handed on
  have hquiet : typedBy e = [] → o.line = none → InOrder t' typed lines n m →
      ∃ n' m', InOrder t' (typed ++ typedBy e) (lines ++ o.line.toList) n' m' := by
    intro htyped hline h'
    rw [htyped, hline, Option.toList_none, List.append_nil, List.append_nil]
    exact ⟨n, m, h'⟩
  cases e with
  | typed bytes =>
      simp only [AwaleTerminal.step] at hs
      split at hs
      · cases hs
      · rename_i hopen
        obtain ⟨rfl, rfl⟩ := Prod.mk.inj (Option.some.inj hs)
        have hopen' : t.keyboard.ended = false := by simpa using hopen
        obtain ⟨hlines, hleft, hwhole⟩ := (h.whole hopen').append bytes
        have hm : m = 0 := by
          by_contra hm
          rw [h.last hm] at hopen'
          cases hopen'
        refine ⟨n, m, ?_, ?_, fun _ => hwhole, fun h => absurd hm h⟩
        · show lines ++ [] = firstLines n (typed ++ bytes) ++ _
          rw [List.append_nil, hlines]
          exact h.lines
        · exact hleft.trans (by rw [h.left, List.append_assoc])
  | endInput =>
      obtain ⟨rfl, rfl⟩ := Prod.mk.inj (Option.some.inj hs)
      refine hquiet rfl rfl ⟨h.lines, h.left, fun hopen => (by cases hopen), fun hm => ?_⟩
      show Keyboard.mk t.keyboard.ahead t.keyboard.fd true = _
      rw [h.last hm]
  | arrive bytes =>
      simp only [AwaleTerminal.step] at hs
      split at hs
      · cases hs
      · obtain ⟨rfl, rfl⟩ := Prod.mk.inj (Option.some.inj hs)
        exact hquiet rfl rfl (h.of_rest rfl fun _ => rfl)
  | hangUp =>
      obtain ⟨rfl, rfl⟩ := Prod.mk.inj (Option.some.inj hs)
      exact hquiet rfl rfl (h.of_rest rfl fun _ => rfl)
  | round k recvs scratch fails =>
      obtain ⟨-, ⟨-, stored, hgot, hbuffer, hline⟩ | ⟨hready, hkb, hline⟩⟩ := round_cases hs
      · have htyped : typed ++ typedBy (.round k recvs scratch fails) = typed := List.append_nil _
        rw [htyped, hline]
        exact h.read hgot hbuffer
      · refine hquiet rfl hline (h.of_rest hkb fun hm => absurd (Or.inr ?_) hready)
        rw [h.last hm]

theorem InOrder.run (h : InOrder t typed lines n m)
    (hr : GuardedRun.run AwaleTerminal.step t es = some (t', outs)) :
    ∃ n' m', InOrder t' (typed ++ typedIn es) (lines ++ linesOf outs) n' m' := by
  induction es generalizing t typed lines n m outs with
  | nil =>
      obtain ⟨rfl, rfl⟩ := Prod.mk.inj (Option.some.inj hr)
      have htyped : typed ++ typedIn [] = typed := List.append_nil _
      have hlines : lines ++ linesOf [] = lines := List.append_nil _
      rw [htyped, hlines]
      exact ⟨n, m, h⟩
  | cons e es ih =>
      obtain ⟨t₁, o, outs', hs, hrest, rfl⟩ := GuardedRun.run_cons hr
      obtain ⟨n₁, m₁, h₁⟩ := h.step hs
      obtain ⟨n', m', h'⟩ := ih h₁ hrest
      rw [List.append_assoc, List.append_assoc] at h'
      exact ⟨n', m', h'⟩

/-- **LINES IN ORDER.**  In every run of the loop, whatever arrives in between and however many
    bytes a `read` returns, the lines handed on are the first ones of what has been typed, and the
    rest is still there.  While the input is open each is a whole line; when it has ended and
    nothing is left of it, the line in the buffer is handed on again. -/
theorem lines_in_order (hi : Initial t) (hr : GuardedRun.run step t es = some (t', outs)) :
    ∃ n m, linesOf outs = firstLines n (typedIn es) ++ List.replicate m (repeated t')
      ∧ t'.keyboard.ahead ++ t'.keyboard.fd = leftOver n (typedIn es)
      ∧ (t'.keyboard.ended = false → m = 0 ∧ WholeLines n (typedIn es))
      ∧ (m ≠ 0 → AtEnd t') := by
  have hstart : InOrder t [] [] 0 0 := by
    refine ⟨rfl, ?_, fun _ _ hi => absurd hi (Nat.not_lt_zero _), fun h => absurd rfl h⟩
    rw [hi.2.1]
    rfl
  obtain ⟨n, m, h⟩ := hstart.run hr
  simp only [List.nil_append] at h
  refine ⟨n, m, h.lines, h.left.symm, fun hopen => ⟨?_, h.whole hopen⟩, h.last⟩
  by_contra hm
  rw [h.last hm] at hopen
  cases hopen

/-- A loop that has just started, with nothing in its buffer. -/
def start : Terminal := ⟨.fresh, ⟨[], [], false⟩, fun _ => 0, false⟩

/-- Two lines that come in one `read`. -/
def twoLines : List Event :=
  [.typed [98, 111], .typed [98, 10, 52, 10], .round 6 ⟨0, 0⟩ (fun _ => 0) false]

/-- The second one stays with `fgets`, where `select` does not see it. -/
theorem lines_in_order_ahead : ∃ t' outs, GuardedRun.run step start twoLines = some (t', outs)
    ∧ linesOf outs = [literal "bob"]
    ∧ (∃ n m, linesOf outs = firstLines n (typedIn twoLines) ++ List.replicate m (repeated t')
      ∧ m = 0)
    ∧ ∀ k recvs scratch fails, round t' k recvs scratch fails = none := by
  let f := fun r : Terminal × List Output =>
    (linesOf r.2, r.1.keyboard.fd, r.1.keyboard.ended, r.1.wire.down, r.1.hungUp)
  have hrun : (GuardedRun.run step start twoLines).map f
      = some ([literal "bob"], [], false, [], false) := by
    decide +kernel
  obtain ⟨⟨t', outs⟩, hr, hp⟩ := Option.map_eq_some_iff.mp hrun
  simp only [f, Prod.mk.injEq] at hp
  obtain ⟨hlines, hfd, hended, hdown, hup⟩ := hp
  obtain ⟨n, m, horder, -, hopen, -⟩ := lines_in_order ⟨rfl, rfl, rfl⟩ hr
  refine ⟨t', outs, hr, hlines, ⟨n, m, horder, (hopen hended).1⟩, fun k recvs scratch fails => ?_⟩
  simp [round, hfd, hended, hdown, hup]

end Lines

/-! ## After the end of the input -/

section End

/-- The line is handled, and the loop is left or goes on. -/
inductive Handled (t : Terminal) (line : CString) (t' : Terminal) (o : Output) : Prop where
  | exit : handleUserInput t.wire.state line = .exit → t'.wire.state = t.wire.state →
      o.sent = [] → Handled t line t' o
  | next : handleUserInput t.wire.state line = .next t'.wire.state o.sent →
      t'.wire.closed = false → Handled t line t' o
  /-- `send` returns -1. -/
  | failed {state : State} {qs : List Request} : handleUserInput t.wire.state line = .next state qs →
      qs ≠ [] → t.hungUp = true → t'.wire.closed = true → t'.wire.state = t.wire.state →
      o.sent = [] → Handled t line t' o

theorem getLine_end :
    getLine ⟨[], [], true⟩ k = if k = 0 then some ([], ⟨[], [], true⟩) else none := by
  cases k with
  | zero => rfl
  | succ k =>
      simp only [getLine]
      rw [if_neg, if_neg (Nat.succ_ne_zero k)]
      rintro ⟨hk, -⟩
      cases hk

theorem AtEnd.ready (h : AtEnd t) : t.keyboard.fd ≠ [] ∨ t.keyboard.ended = true :=
  Or.inr (by rw [h])

/-- **A ROUND AFTER THE END** handles the line that is in the buffer. -/
theorem round_at_end (hend : AtEnd t) (h : round t k recvs scratch fails = some (t', o)) :
    AtEnd t' ∧ repeated t' = repeated t ∧ t'.wire.down = t.wire.down ∧ t'.hungUp = t.hungUp
      ∧ t.wire.closed = false ∧ Handled t (repeated t) t' o := by
  simp only [round] at h
  split at h
  · cases h
  · rename_i hopen
    have hopen' : t.wire.closed = false := by simpa using hopen
    rw [if_pos hend.ready] at h
    simp only [readKeyboard] at h
    obtain ⟨got, hgot, hr⟩ := Option.bind_eq_some_iff.mp h
    rw [hend, getLine_end] at hgot
    split at hgot
    · obtain rfl := Option.some.inj hgot
      split at hr
      · rename_i hexit
        obtain ⟨rfl, rfl⟩ := Prod.mk.inj (Option.some.inj hr)
        exact ⟨rfl, lineIn_again t.buffer, rfl, rfl, hopen', .exit hexit rfl rfl⟩
      · cases hr
      · rename_i state qs hnext
        obtain ⟨rfl, rfl⟩ := Prod.mk.inj (Option.some.inj hr)
        by_cases hfail : (t.hungUp && fails) = true ∧ qs ≠ []
        · have hup : t.hungUp = true := (Bool.and_eq_true _ _ |>.mp hfail.1).1
          rw [Wire.next_failed hfail, hfail.1]
          exact ⟨rfl, lineIn_again t.buffer, rfl, rfl, hopen',
            .failed hnext hfail.2 hup rfl rfl rfl⟩
        · obtain ⟨hstate, hdown, hclosed⟩ := Wire.next_sent t.wire scratch state hfail
          have hsent : (if (t.hungUp && fails) = true then [] else qs) = qs := by
            by_cases hf : (t.hungUp && fails) = true
            · rw [if_pos hf, not_not.mp fun hne => hfail ⟨hf, hne⟩]
            · exact if_neg hf
          refine ⟨rfl, lineIn_again t.buffer, hdown, rfl, hopen', .next ?_ (hclosed.trans hopen')⟩
          show handleUserInput t.wire.state (repeated t) = .next (t.wire.next _ _ _ _).state _
          rw [hstate, hsent]
          exact hnext
    · cases hgot

/-- The choice in the menu that a line is. -/
def choice (line : CString) : UInt8 := toUInt8 (strtol 10 line).1

/-- **THE CLIENT REPEATS ITSELF**: it says the line to its room, or describes itself over and
    over. -/
def Floods (line : CString) (state : State) : Prop :=
  line.chars.head? ≠ some 255 ∧ line ≠ literal "/close"
    ∧ ((InRoom state ∧ line ≠ literal "/leave"
        ∧ ¬ (state = .waitingPlayInput ∧ (strtol 10 line).2 = []))
      ∨ ((state = .connected ∨ state = .waitingBioInput) ∧ choice line = 4))

instance (line : CString) (state : State) : Decidable (Floods line state) := by
  unfold Floods InRoom
  infer_instance

/-- What one line can still lead to. -/
def budget : State → Nat
  | .waitingBioInput => 2
  | .inRoom => 2
  | .spectating => 2
  | .inGame => 2
  | .waitingPlayInput => 2
  | .connecting => 1
  | .connected => 1
  | .waitingJoinRoomInput => 1
  | .waitingSpectateRoomInput => 1
  | _ => 0

variable {state state' : State}

theorem room_sent (h : handleRoomInput state line = .next state' sent) :
    (line = literal "/leave" ∧ state' = .connected ∧ sent.length = 1)
      ∨ (line ≠ literal "/leave" ∧ state' = state ∧ sent.length = 1) := by
  simp only [handleRoomInput, encoded] at h
  split at h
  · rename_i hleave
    split at h
    · cases h
    · cases h
      exact Or.inl ⟨hleave, rfl, rfl⟩
  · rename_i hleave
    split at h
    · cases h
    · cases h
      exact Or.inr ⟨hleave, rfl, rfl⟩

theorem menu_sent (h : handleUserInput .connected line = .next state' sent)
    (heof : line.chars.head? ≠ some 255) :
    (choice line = 4 ∧ state' = .waitingBioInput ∧ sent = [])
      ∨ (choice line ≠ 4 ∧ ¬ InRoom state' ∧ state' ≠ .waitingBioInput
        ∧ sent.length + budget state' = 1) := by
  have hclose : line ≠ literal "/close" := by
    rintro rfl
    simp only [handleUserInput, if_neg heof, if_true] at h
    cases h
  simp only [handleUserInput, if_neg heof, if_neg hclose] at h
  have hother : ∀ {n : Nat}, (toUInt8 (strtol 10 line).1).toNat = n → n ≠ 4 → choice line ≠ 4 := by
    rintro n rfl hne heq
    exact hne (congrArg UInt8.toNat heq)
  split at h
  · rename_i hone
    cases h
    exact Or.inr ⟨hother hone (by decide), by simp [InRoom, setCurrentState], by decide, rfl⟩
  · rename_i htwo
    cases h
    exact Or.inr ⟨hother htwo (by decide), by simp [InRoom, setCurrentState], by decide, rfl⟩
  · rename_i hthree
    cases h
    exact Or.inr ⟨hother hthree (by decide), by simp [InRoom, setCurrentState], by decide, rfl⟩
  · rename_i hfour
    cases h
    exact Or.inl ⟨UInt8.toNat_inj.mp hfour, rfl, rfl⟩
  · rename_i hfour
    cases h
    have hne : choice line ≠ 4 := fun heq => hfour (congrArg UInt8.toNat heq)
    exact Or.inr ⟨hne, by simp [InRoom, setCurrentState], by decide, rfl⟩

/-- Only one line leaves the loop. -/
theorem exit_close (h : handleUserInput state line = .exit) : line = literal "/close" := by
  have hencoded : ∀ {q : Request} {k : List Request → Reaction}, k [q] ≠ .exit →
      encoded q k ≠ .exit := by
    intro q k hk
    simp only [encoded]
    split
    · exact fun h => by cases h
    · exact hk
  have henter : ∀ {target : State} {qs : List Request}, enter target qs ≠ .exit :=
    fun h => by cases h
  have hroom : ∀ target : State, handleRoomInput target line ≠ .exit := by
    intro target
    simp only [handleRoomInput]
    split
    · exact hencoded henter
    · exact hencoded fun h => by cases h
  by_contra hclose
  simp only [handleUserInput, if_neg hclose] at h
  split at h
  · cases h
  cases state with
  | connecting => exact hencoded henter h
  | connected =>
      dsimp only at h
      split at h <;> exact henter h
  | waitingJoinRoomInput => exact hencoded henter h
  | waitingSpectateRoomInput => exact hencoded henter h
  | waitingBioInput => exact hencoded henter h
  | waitingPlayInput =>
      dsimp only at h
      split at h
      · exact hencoded henter h
      · exact hroom _ h
  | inRoom => exact hroom _ h
  | spectating => exact hroom _ h
  | inGame => exact hroom _ h
  | _ => cases h

theorem encoded_one {q : Request} {target : State}
    (h : encoded q (enter target) = .next state' sent)
    (hquiet : (setCurrentState target).2 = []) : state' = target ∧ sent.length = 1 := by
  simp only [encoded] at h
  split at h
  · cases h
  · simp only [enter, hquiet, List.append_nil] at h
    cases h
    refine ⟨?_, rfl⟩
    cases target <;> rfl

theorem play_sent (h : handleUserInput .waitingPlayInput line = .next state' sent)
    (heof : line.chars.head? ≠ some 255) :
    ((strtol 10 line).2 = [] ∧ state' = .waitingPlayAck ∧ sent.length = 1)
      ∨ ((strtol 10 line).2 ≠ [] ∧ handleRoomInput .waitingPlayInput line = .next state' sent) := by
  have hclose : line ≠ literal "/close" := by
    rintro rfl
    simp only [handleUserInput, if_neg heof, if_true] at h
    cases h
  simp only [handleUserInput, if_neg heof, if_neg hclose] at h
  split at h
  · rename_i hnumber
    exact Or.inl ⟨hnumber, encoded_one h rfl⟩
  · rename_i hnumber
    exact Or.inr ⟨hnumber, h⟩

/-- A line that repeats itself does so in the next state, after a request or in front of one. -/
theorem Floods.next (hf : Floods line state) (h : handleUserInput state line = .next state' sent) :
    Floods line state' ∧ sent.length = (if state = .connected then 0 else 1)
      ∧ (state = .connected → state' ≠ .connected) := by
  obtain ⟨heof, hclose, ⟨hroom, hleave, hnumber⟩ | ⟨hst, hfour⟩⟩ := hf
  · have hstay : handleRoomInput state line = .next state' sent := by
      rcases hroom with rfl | rfl | rfl | rfl
      · simpa only [handleUserInput, if_neg heof, if_neg hclose] using h
      · simpa only [handleUserInput, if_neg heof, if_neg hclose] using h
      · simpa only [handleUserInput, if_neg heof, if_neg hclose] using h
      · rcases play_sent h heof with ⟨hnil, -⟩ | ⟨-, hstay⟩
        · exact absurd ⟨rfl, hnil⟩ hnumber
        · exact hstay
    obtain ⟨hleave', -⟩ | ⟨-, rfl, hone⟩ := room_sent hstay
    · exact absurd hleave' hleave
    · have hne : state' ≠ .connected := by
        rintro rfl
        simp [InRoom] at hroom
      rw [if_neg hne]
      exact ⟨⟨heof, hclose, Or.inl ⟨hroom, hleave, hnumber⟩⟩, hone, fun h => absurd h hne⟩
  · rcases hst with rfl | rfl
    · obtain ⟨-, rfl, rfl⟩ | ⟨hne, -⟩ := menu_sent h heof
      · exact ⟨⟨heof, hclose, Or.inr ⟨Or.inr rfl, hfour⟩⟩, rfl, fun _ h => by cases h⟩
      · exact absurd hfour hne
    · simp only [handleUserInput, if_neg heof, if_neg hclose] at h
      obtain ⟨rfl, hone⟩ := encoded_one h rfl
      exact ⟨⟨heof, hclose, Or.inr ⟨Or.inl rfl, hfour⟩⟩, hone, fun h => by cases h⟩

theorem leave_choice : choice (literal "/leave") ≠ 4 := by decide +kernel

/-- A room is left at most. -/
theorem room_budget (hroom : InRoom state) (heof : line.chars.head? ≠ some 255)
    (hclose : line ≠ literal "/close")
    (hno : ¬ Floods line state) (hnumber : ¬ (state = .waitingPlayInput ∧ (strtol 10 line).2 = []))
    (h : handleRoomInput state line = .next state' sent) :
    ¬ Floods line state' ∧ sent.length + budget state' ≤ budget state := by
  obtain ⟨rfl, rfl, hone⟩ | ⟨hleave, -⟩ := room_sent h
  · refine ⟨?_, ?_⟩
    · rintro ⟨-, -, ⟨hin, -⟩ | ⟨-, hfour⟩⟩
      · simp [InRoom] at hin
      · exact leave_choice hfour
    · have htwo : budget state = 2 := by rcases hroom with rfl | rfl | rfl | rfl <;> rfl
      rw [hone, htwo]
      decide
  · exact absurd ⟨heof, hclose, Or.inl ⟨hroom, hleave, hnumber⟩⟩ hno

theorem Floods.budget_pos (h : Floods line state) : 0 < budget state := by
  obtain ⟨-, -, ⟨rfl | rfl | rfl | rfl, -⟩ | ⟨rfl | rfl, -⟩⟩ := h <;> decide

/-- Any other line comes to its end. -/
theorem budget_next (hno : ¬ Floods line state)
    (h : handleUserInput state line = .next state' sent) :
    ¬ Floods line state' ∧ sent.length + budget state' ≤ budget state := by
  have hsame : Reaction.next state [] = .next state' sent →
      ¬ Floods line state' ∧ sent.length + budget state' ≤ budget state := by
    intro heq
    cases heq
    exact ⟨hno, by simp⟩
  -- the client waits for an answer
  have hasked : ∀ {q : Request} {target : State}, budget target = 0 →
      (setCurrentState target).2 = [] → 0 < budget state →
      encoded q (enter target) = .next state' sent →
      ¬ Floods line state' ∧ sent.length + budget state' ≤ budget state := by
    intro q target hzero hsilent hpos heq
    obtain ⟨rfl, hone⟩ := encoded_one heq hsilent
    refine ⟨fun hf => absurd hf.budget_pos (by omega), by omega⟩
  by_cases heof : line.chars.head? = some 255
  · simp only [handleUserInput, if_pos heof] at h
    exact hsame h
  by_cases hclose : line = literal "/close"
  · simp only [handleUserInput, if_neg heof, if_pos hclose] at h
    cases h
  have hroom : InRoom state → ¬ (state = .waitingPlayInput ∧ (strtol 10 line).2 = []) →
      handleRoomInput state line = .next state' sent →
      ¬ Floods line state' ∧ sent.length + budget state' ≤ budget state :=
    fun hin hnumber heq => room_budget hin heof hclose hno hnumber heq
  cases state with
  | connected =>
      rcases menu_sent h heof with ⟨hfour, -⟩ | ⟨hne, hin, hbio, hcount⟩
      · exact absurd ⟨heof, hclose, Or.inr ⟨Or.inl rfl, hfour⟩⟩ hno
      · refine ⟨?_, Nat.le_of_eq hcount⟩
        rintro ⟨-, -, ⟨hin', -⟩ | ⟨-, hfour⟩⟩
        · exact hin hin'
        · exact hne hfour
  | waitingBioInput =>
      simp only [handleUserInput, if_neg heof, if_neg hclose] at h
      obtain ⟨rfl, hone⟩ := encoded_one h rfl
      refine ⟨?_, by rw [hone]; decide⟩
      rintro ⟨-, -, ⟨hin, -⟩ | ⟨-, hfour⟩⟩
      · simp [InRoom] at hin
      · exact hno ⟨heof, hclose, Or.inr ⟨Or.inr rfl, hfour⟩⟩
  | waitingPlayInput =>
      rcases play_sent h heof with ⟨-, rfl, hone⟩ | ⟨hnumber, hstay⟩
      · exact ⟨fun hf => absurd hf.budget_pos (by decide), by rw [hone]; decide⟩
      · exact hroom (by simp [InRoom]) (fun h => hnumber h.2) hstay
  | inRoom =>
      simp only [handleUserInput, if_neg heof, if_neg hclose] at h
      exact hroom (by simp [InRoom]) (fun h => by cases h.1) h
  | spectating =>
      simp only [handleUserInput, if_neg heof, if_neg hclose] at h
      exact hroom (by simp [InRoom]) (fun h => by cases h.1) h
  | inGame =>
      simp only [handleUserInput, if_neg heof, if_neg hclose] at h
      exact hroom (by simp [InRoom]) (fun h => by cases h.1) h
  | connecting =>
      simp only [handleUserInput, if_neg heof, if_neg hclose] at h
      exact hasked rfl rfl (by decide) h
  | waitingJoinRoomInput =>
      simp only [handleUserInput, if_neg heof, if_neg hclose] at h
      exact hasked rfl rfl (by decide) h
  | waitingSpectateRoomInput =>
      simp only [handleUserInput, if_neg heof, if_neg hclose] at h
      exact hasked rfl rfl (by decide) h
  | _ =>
      simp only [handleUserInput, if_neg heof, if_neg hclose] at h
      exact hsame h

/-- One pass through the loop, whatever it does. -/
def isRound : Event → Bool
  | .round _ _ _ _ => true
  | _ => false

/-- A step after the end: a round, or something that the client does not notice. -/
theorem step_at_end (hend : AtEnd t) (hs : step t e = some (t', o)) :
    AtEnd t' ∧ repeated t' = repeated t ∧ t.wire.down <+: t'.wire.down
      ∧ (t.hungUp = true → t'.hungUp = true)
      ∧ (if isRound e then t.wire.closed = false ∧ Handled t (repeated t) t' o
        else t'.wire.state = t.wire.state ∧ t'.wire.closed = t.wire.closed ∧ o.sent = []) := by
  cases e with
  | typed bytes =>
      simp only [step] at hs
      rw [if_pos (by rw [hend])] at hs
      cases hs
  | endInput =>
      obtain ⟨rfl, rfl⟩ := Prod.mk.inj (Option.some.inj hs)
      have hkb : AtEnd { t with keyboard := { t.keyboard with ended := true } } := by
        show Keyboard.mk t.keyboard.ahead t.keyboard.fd true = _
        rw [hend]
      exact ⟨hkb, rfl, List.prefix_refl _, id, rfl, rfl, rfl⟩
  | arrive bytes =>
      simp only [step] at hs
      split at hs
      · cases hs
      · obtain ⟨rfl, rfl⟩ := Prod.mk.inj (Option.some.inj hs)
        exact ⟨hend, rfl, List.prefix_append _ _, id, rfl, rfl, rfl⟩
  | hangUp =>
      obtain ⟨rfl, rfl⟩ := Prod.mk.inj (Option.some.inj hs)
      exact ⟨hend, rfl, List.prefix_refl _, fun _ => rfl, rfl, rfl, rfl⟩
  | round k recvs scratch fails =>
      obtain ⟨hend', hline, hdown, hup, hopen, hhandled⟩ := round_at_end hend hs
      rw [hdown]
      exact ⟨hend', hline, List.prefix_refl _, fun h => hup.trans h, hopen, hhandled⟩

/-- Whatever happens after the end, what has arrived stays unread. -/
theorem run_at_end (hend : AtEnd t) (hr : GuardedRun.run step t es = some (t', outs)) :
    AtEnd t' ∧ repeated t' = repeated t ∧ t.wire.down <+: t'.wire.down := by
  induction es generalizing t outs with
  | nil =>
      obtain ⟨rfl, -⟩ := Prod.mk.inj (Option.some.inj hr)
      exact ⟨hend, rfl, List.prefix_refl _⟩
  | cons e es ih =>
      obtain ⟨t₁, o, outs', hs, hrest, -⟩ := GuardedRun.run_cons hr
      obtain ⟨hend₁, hline₁, hdown₁, -⟩ := step_at_end hend hs
      obtain ⟨hend', hline', hdown'⟩ := ih hend₁ hrest
      exact ⟨hend', hline'.trans hline₁, hdown₁.trans hdown'⟩

/-- A loop that has been left makes no round. -/
theorem closed_run (hend : AtEnd t) (hclosed : t.wire.closed = true)
    (hr : GuardedRun.run step t es = some (t', outs)) :
    es.countP isRound = 0 ∧ t'.wire.closed = true := by
  induction es generalizing t outs with
  | nil =>
      obtain ⟨rfl, -⟩ := Prod.mk.inj (Option.some.inj hr)
      exact ⟨rfl, hclosed⟩
  | cons e es ih =>
      obtain ⟨t₁, o, outs', hs, hrest, -⟩ := GuardedRun.run_cons hr
      obtain ⟨hend₁, -, -, -, hstep⟩ := step_at_end hend hs
      rw [List.countP_cons]
      split at hstep
      · rw [hclosed] at hstep
        cases hstep.1
      · rename_i he
        obtain ⟨hnone, hclosed'⟩ := ih hend₁ (hstep.2.1.trans hclosed) hrest
        rw [if_neg he]
        exact ⟨hnone, hclosed'⟩

/-- A client that repeats itself sends something in one of two rounds, until a `send` fails. -/
theorem floods_run (hend : AtEnd t) (hf : Floods (repeated t) t.wire.state)
    (hr : GuardedRun.run step t es = some (t', outs)) :
    es.countP isRound ≤ 2 * (requestsOf outs).length
      + ((if t.wire.state = .connected then 1 else 0) + if t'.wire.closed then 1 else 0) := by
  induction es generalizing t outs with
  | nil => exact Nat.zero_le _
  | cons e es ih =>
      obtain ⟨t₁, o, outs', hs, hrest, rfl⟩ := GuardedRun.run_cons hr
      obtain ⟨hend₁, hline₁, -, -, hstep⟩ := step_at_end hend hs
      rw [List.countP_cons, requestsOf, List.flatMap_cons, List.length_append]
      split at hstep
      · rename_i he
        rw [if_pos he]
        obtain ⟨-, ⟨hexit, -, -⟩ | ⟨hnext, -⟩ | ⟨-, -, -, hdead, -, -⟩⟩ := hstep
        · exact absurd (exit_close hexit) hf.2.1
        · obtain ⟨hf₁, hcount, hmenu⟩ := hf.next hnext
          have hle := ih hend₁ (hline₁ ▸ hf₁) hrest
          rw [requestsOf] at hle
          by_cases hst : t.wire.state = .connected
          · rw [if_pos hst] at hcount ⊢
            rw [if_neg (hmenu hst)] at hle
            omega
          · rw [if_neg hst] at hcount ⊢
            split at hle <;> omega
        · -- the last round
          obtain ⟨hnone, hclosed⟩ := closed_run hend₁ hdead hrest
          rw [hnone, if_pos hclosed]
          omega
      · rename_i he
        rw [if_neg he]
        obtain ⟨hstate, -, hsent⟩ := hstep
        have hle := ih hend₁ (by rw [hline₁, hstate]; exact hf) hrest
        rw [hstate, requestsOf] at hle
        rw [hsent]
        simpa using hle

/-- A client that does not comes to an end. -/
theorem budget_run (hend : AtEnd t) (hno : ¬ Floods (repeated t) t.wire.state)
    (hr : GuardedRun.run step t es = some (t', outs)) :
    (requestsOf outs).length ≤ budget t.wire.state := by
  induction es generalizing t outs with
  | nil =>
      obtain ⟨-, rfl⟩ := Prod.mk.inj (Option.some.inj hr)
      exact Nat.zero_le _
  | cons e es ih =>
      obtain ⟨t₁, o, outs', hs, hrest, rfl⟩ := GuardedRun.run_cons hr
      obtain ⟨hend₁, hline₁, -, -, hstep⟩ := step_at_end hend hs
      rw [requestsOf, List.flatMap_cons, List.length_append]
      have hidle : t₁.wire.state = t.wire.state → o.sent = [] →
          o.sent.length + (outs'.flatMap Output.sent).length ≤ budget t.wire.state := by
        intro hstate hsent
        have hle := ih hend₁ (by rw [hline₁, hstate]; exact hno) hrest
        rw [hstate, requestsOf] at hle
        rw [hsent]
        simpa using hle
      split at hstep
      · obtain ⟨-, ⟨-, hstate, hsent⟩ | ⟨hnext, -⟩ | ⟨-, -, -, -, hstate, hsent⟩⟩ := hstep
        · exact hidle hstate hsent
        · obtain ⟨hno₁, hcount⟩ := budget_next hno hnext
          have hle := ih hend₁ (by rw [hline₁]; exact hno₁) hrest
          rw [requestsOf] at hle
          omega
        · exact hidle hstate hsent
      · exact hidle hstep.1 hstep.2.2

/-- The loop is not left, unless the server has hung up. -/
theorem open_run (hend : AtEnd t) (hclose : repeated t ≠ literal "/close")
    (hopen : t.wire.closed = true → t.hungUp = true)
    (hr : GuardedRun.run step t es = some (t', outs)) :
    t'.wire.closed = true → t'.hungUp = true := by
  induction es generalizing t outs with
  | nil =>
      obtain ⟨rfl, -⟩ := Prod.mk.inj (Option.some.inj hr)
      exact hopen
  | cons e es ih =>
      obtain ⟨t₁, o, outs', hs, hrest, -⟩ := GuardedRun.run_cons hr
      obtain ⟨hend₁, hline₁, -, hup, hstep⟩ := step_at_end hend hs
      refine ih hend₁ (hline₁ ▸ hclose) (fun hclosed => hup ?_) hrest
      split at hstep
      · obtain ⟨-, ⟨hexit, -, -⟩ | ⟨-, hopen₁⟩ | ⟨-, -, hup₁, -⟩⟩ := hstep
        · exact absurd (exit_close hexit) hclose
        · rw [hopen₁] at hclosed
          cases hclosed
        · exact hup₁
      · exact hopen (hstep.2.1.symm.trans hclosed)

/-- After the end, a round does not wait for anything. -/
theorem round_goes_on (hend : AtEnd t) (hopen : t.wire.closed = false)
    (hfits : (repeated t).strlen + 4 ≤ bufSize) (recvs : Call) (scratch : ByteBuffer)
    (fails : Bool) : (round t 0 recvs scratch fails).isSome := by
  have hno : handleUserInput t.wire.state (repeated t) ≠ .overrun := by
    intro hover
    obtain ⟨q, hq, hlong⟩ := (AwaleKeyboard.overrun_iff _ _).mp hover
    have hlen := AwaleKeyboard.texts_length q hq
    omega
  simp only [round, hopen, if_pos hend.ready, readKeyboard]
  rw [hend, getLine_end, if_pos rfl]
  simp only [Option.bind_some, Bool.false_eq_true, if_false]
  cases hline : handleUserInput t.wire.state (lineIn t.buffer []) with
  | exit => rfl
  | overrun => exact absurd hline hno
  | next state sent => rfl

/-- What becomes of a client whose input has ended. -/
structure Left (t : Terminal) (es : List Event) (t' : Terminal) (outs : List Output) : Prop where
  /-- Nothing is read from the socket. -/
  unread : t.wire.down <+: t'.wire.down
  /-- One round in two sends something, but for the one in which a `send` fails. -/
  floods : Floods (repeated t) t.wire.state → es.countP isRound
    ≤ 2 * (requestsOf outs).length + (1 + if t'.wire.closed then 1 else 0)
  ends : ¬ Floods (repeated t) t.wire.state → (requestsOf outs).length ≤ 2
  /-- The loop is left for the line `/close`, or when the server has hung up. -/
  stays : t.wire.closed = false → repeated t ≠ literal "/close" → t'.wire.closed = true →
    t'.hungUp = true
  /-- The next round waits for nothing. -/
  spins : t'.wire.closed = false → (repeated t).strlen + 4 ≤ bufSize →
    ∀ recvs scratch fails, (round t' 0 recvs scratch fails).isSome

/-- **AFTER THE END OF THE INPUT** a client reads nothing from its socket any more.  It sends two
    requests at most, or one in every other round; unless the line in its buffer is too long it
    never waits, and unless it is `/close` only a `send` that fails ends it. -/
theorem after_end (hend : AtEnd t) (hr : GuardedRun.run step t es = some (t', outs)) :
    Left t es t' outs := by
  obtain ⟨hend', hline, hdown⟩ := run_at_end hend hr
  refine ⟨hdown, fun hf => ?_, fun hno => ?_, fun hopen hclose => ?_,
    fun hopen hfits recvs scratch fails => ?_⟩
  · have hle := floods_run hend hf hr
    split at hle <;> omega
  · refine Nat.le_trans (budget_run hend hno hr) ?_
    cases t.wire.state <;> decide
  · refine open_run hend hclose (fun hclosed => ?_) hr
    rw [hopen] at hclosed
    cases hclosed
  · exact round_goes_on hend' hopen (by rw [hline]; exact hfits) _ _ _

/-- Five rounds after the end. -/
def fiveRounds : List Event := List.replicate 5 (.round 0 ⟨0, 0⟩ (fun _ => 0) false)

/-- A client whose input ends at a prompt of the menu describes itself over and over. -/
theorem after_end_menu : ∃ t, Reachable t ∧ Floods (repeated t) t.wire.state
    ∧ ∃ t' outs, GuardedRun.run step t fiveRounds = some (t', outs)
      ∧ Left t fiveRounds t' outs := by
  have hinit : Initial start := ⟨rfl, rfl, rfl⟩
  have hrun : (GuardedRun.run step start [.typed [98, 111, 98, 10],
      .round 4 ⟨0, 0⟩ (fun _ => 0) false, .arrive [1, 0, 0], .round 0 ⟨2, 1⟩ (fun _ => 0) false,
      .typed [52, 10], .round 2 ⟨0, 0⟩ (fun _ => 0) false, .endInput]).map
        (fun r => decide (AtEnd r.1 ∧ Floods (repeated r.1) r.1.wire.state
          ∧ (GuardedRun.run step r.1 fiveRounds).isSome)) = some true := by decide +kernel
  obtain ⟨t, hr, ht⟩ := GuardedRun.reachable_of_eval
    (f := fun t => decide (AtEnd t ∧ Floods (repeated t) t.wire.state
      ∧ (GuardedRun.run step t fiveRounds).isSome)) hinit (GuardedRun.meets_always _ _) hrun
  obtain ⟨hend, hf, hrun⟩ := of_decide_eq_true ht
  obtain ⟨⟨t', outs⟩, hrun⟩ := Option.isSome_iff_exists.mp hrun
  exact ⟨t, hr, hf, t', outs, hrun, after_end hend hrun⟩

end End

end AwaleTerminal
