import AwaleOnline.AwaleClosingProofs

/-!
# What the player types

A line typed at the move prompt goes through `strtol`, a subtraction, a `uint8_t`, the wire and
the side offset of `handle_play` before `game_play` checks it.

* **`Decimal`** — the line is a decimal integer, of any size; `strtol` reads all of it and
  saturates (`strtol_decimal`), and of no other line but the empty one does it read all
  (`decimal_of_strtol`);
* **`open_reachable`** — the game of a room with two players is not over;
* **`typed_is_played`** — a line has the effect its text says just when it meets `LineMeets`.
-/

namespace AwaleTyping

open AwaleGame AwaleProtocol AwaleServer AwaleEffect AwaleBounds AwaleRoster AwaleStanding
  AwaleView AwaleRejection AwaleClient

variable {s s' : Server} {c i side : Nat} {p : UInt8} {rand : UInt32} {line : CString} {n : Int}

/-! ## Decimal integers -/

def IsDigit (b : UInt8) : Prop := 48 ≤ b ∧ b ≤ 57

instance (b : UInt8) : Decidable (IsDigit b) := inferInstanceAs (Decidable (_ ∧ _))

/-- The number that decimal digits stand for. -/
def positional (ds : List UInt8) : Nat := ds.foldl (fun n b => n * 10 + (b.toNat - 48)) 0

/-- Digits with an optional sign. -/
inductive Numeral : List UInt8 → Int → Prop where
  | plain {ds : List UInt8} : ds ≠ [] → (∀ b ∈ ds, IsDigit b) → Numeral ds (positional ds)
  | plus {ds : List UInt8} : ds ≠ [] → (∀ b ∈ ds, IsDigit b) →
      Numeral (43 :: ds) (positional ds)
  | minus {ds : List UInt8} : ds ≠ [] → (∀ b ∈ ds, IsDigit b) →
      Numeral (45 :: ds) (-(positional ds : Int))

/-- The line is the integer `n`, with white space in front at most. -/
def Decimal (line : CString) (n : Int) : Prop :=
  ∃ ws bs, line.chars = ws ++ bs ∧ (∀ b ∈ ws, isSpace b = true) ∧ Numeral bs n

theorem digit_of_isDigit {b : UInt8} (h : IsDigit b) : digit 10 b = some (b.toNat - 48) := by
  have hle : b.toNat ≤ 57 := UInt8.le_iff_toNat_le.mp h.2
  have hrange : 48 ≤ b ∧ b ≤ 57 := h
  have hten : b.toNat - 48 < 10 := by omega
  simp only [digit]
  rw [if_pos hrange, if_pos hten]

theorem isDigit_of_digit {b : UInt8} {v : Nat} (h : digit 10 b = some v) : IsDigit b := by
  by_contra hno
  have hrange : ¬ (48 ≤ b ∧ b ≤ 57) := hno
  simp only [digit] at h
  rw [if_neg hrange] at h
  split_ifs at h with h1 h2 h3 h4
  · -- letters are worth ten or more
    have hge : 65 ≤ b.toNat := UInt8.le_iff_toNat_le.mp h1.1
    omega
  · have hge : 97 ≤ b.toNat := UInt8.le_iff_toNat_le.mp h3.1
    omega
  · omega

/-- `strtol` reads digits to the end. -/
theorem digits_all {ds : List UInt8} (h : ∀ b ∈ ds, IsDigit b) :
    digits 10 ds = (ds.map fun b => b.toNat - 48, []) := by
  induction ds with
  | nil => rfl
  | cons b ds ih =>
      have hb := digit_of_isDigit (h b List.mem_cons_self)
      have hrest := ih fun b' hb' => h b' (List.mem_cons_of_mem _ hb')
      simp only [digits]
      rw [hb, hrest]
      rfl

/-- What it reads to the end are digits. -/
theorem digits_end {bs : List UInt8} (h : (digits 10 bs).2 = []) : ∀ b ∈ bs, IsDigit b := by
  induction bs with
  | nil => exact List.forall_mem_nil _
  | cons b bs ih =>
      simp only [digits] at h
      cases hb : digit 10 b with
      | none =>
          rw [hb] at h
          cases h
      | some v =>
          rw [hb] at h
          intro b' hb'
          rcases List.mem_cons.mp hb' with rfl | hmem
          · exact isDigit_of_digit hb
          · exact ih h b' hmem

theorem minusSign_of_ne {bs : List UInt8} (h : ∀ b ∈ bs.head?, b ≠ 45 ∧ b ≠ 43) :
    minusSign bs = (false, bs) := by
  cases bs with
  | nil => rfl
  | cons b bs =>
      obtain ⟨h1, h2⟩ := h b rfl
      simp only [minusSign]
      split
      · rename_i heq
        exact absurd (List.cons.inj heq).1 h1
      · rename_i heq
        exact absurd (List.cons.inj heq).1 h2
      · rfl

/-- The first byte of a numeral is no white space. -/
theorem Numeral.head {bs : List UInt8} (h : Numeral bs n) :
    ∃ b rest, bs = b :: rest ∧ isSpace b = false ∧ b ≠ 255 := by
  have hdigit : ∀ {b : UInt8}, IsDigit b → isSpace b = false ∧ b ≠ 255 := by
    rintro b ⟨hge, hle⟩
    have hge' : 48 ≤ b.toNat := UInt8.le_iff_toNat_le.mp hge
    have hle' : b.toNat ≤ 57 := UInt8.le_iff_toNat_le.mp hle
    constructor
    · refine decide_eq_false ?_
      rintro (rfl | ⟨-, h13⟩)
      · exact absurd hge (by decide)
      · have hle13 : b.toNat ≤ 13 := UInt8.le_iff_toNat_le.mp h13
        omega
    · rintro rfl
      exact absurd hle (by decide)
  cases h with
  | @plain ds hne hds =>
      obtain ⟨b, rest, rfl⟩ := List.exists_cons_of_ne_nil hne
      exact ⟨b, rest, rfl, hdigit (hds b List.mem_cons_self)⟩
  | plus _ _ => exact ⟨43, _, rfl, by decide, by decide⟩
  | minus _ _ => exact ⟨45, _, rfl, by decide, by decide⟩

theorem dropWhile_spaces {ws : List UInt8} (h : ∀ b ∈ ws, isSpace b = true)
    {b : UInt8} (hb : isSpace b = false) (rest : List UInt8) :
    (ws ++ b :: rest).dropWhile isSpace = b :: rest := by
  rw [List.dropWhile_append_of_pos h, List.dropWhile_cons_of_neg (by rw [hb]; decide)]

/-- The value `strtol` accumulates. -/
theorem foldl_digits (ds : List UInt8) :
    (ds.map fun b => b.toNat - 48).foldl (fun n d => n * 10 + d) 0 = positional ds :=
  List.foldl_map ..

/-- The same in `Nat` and in `Int`. -/
theorem foldl_intCast (base : Nat) (l : List Nat) (a : Nat) :
    List.foldl (fun (n d : Int) => n * (base : Nat) + d) (a : Int)
        (do let d ← l; pure (d : Int))
      = ((l.foldl (fun n d => n * base + d) a : Nat) : Int) := by
  induction l generalizing a with
  | nil => rfl
  | cons d l ih =>
      have hlist : (do let d ← d :: l; pure (d : Int))
          = (d : Int) :: (do let d ← l; pure (d : Int)) := rfl
      rw [List.foldl_cons, ← ih (a * base + d), hlist, List.foldl_cons]
      congr 1

/-- `strtol` in base ten. -/
theorem strtol_ten (line : CString) :
    strtol 10 line =
      let signed := minusSign (line.chars.dropWhile isSpace)
      let ds := digits 10 signed.2
      let value : Nat := ds.1.foldl (fun n d => n * 10 + d) 0
      if ds.1 = [] then (0, line.chars)
      else (clampLong (if signed.1 then -(value : Int) else value), ds.2) := by
  simp only [strtol]
  rw [← foldl_intCast]
  rfl

/-- **A DECIMAL LINE** is read to its end, and its value saturates. -/
theorem strtol_decimal (h : Decimal line n) : strtol 10 line = (clampLong n, []) := by
  obtain ⟨ws, bs, hline, hws, hnum⟩ := h
  have hdrop : line.chars.dropWhile isSpace = bs := by
    obtain ⟨b, rest, rfl, hspace, -⟩ := hnum.head
    rw [hline]
    exact dropWhile_spaces hws hspace rest
  have hread : ∀ {ds : List UInt8} {neg : Bool}, minusSign bs = (neg, ds) → ds ≠ [] →
      (∀ d ∈ ds, IsDigit d) →
      strtol 10 line = (clampLong (if neg then -(positional ds : Int) else positional ds), []) := by
    intro ds neg hsign hne hds
    have hsome : ds.map (fun b => b.toNat - 48) ≠ [] := fun h => hne (List.map_eq_nil_iff.mp h)
    rw [strtol_ten, hdrop]
    simp only [hsign, digits_all hds, foldl_digits]
    rw [if_neg hsome]
  cases hnum with
  | plain hne hds =>
      refine hread (minusSign_of_ne fun d hd => ?_) hne hds
      have hdigit := hds d (List.mem_of_mem_head? hd)
      constructor
      · rintro rfl
        exact absurd hdigit (by decide)
      · rintro rfl
        exact absurd hdigit (by decide)
  | plus hne hds => exact hread rfl hne hds
  | minus hne hds => exact hread rfl hne hds

/-- **NO OTHER LINE** but the empty one is read to its end. -/
theorem decimal_of_strtol (h : (strtol 10 line).2 = []) :
    line.chars = [] ∨ ∃ n, Decimal line n := by
  have hline : line.chars
      = line.chars.takeWhile isSpace ++ line.chars.dropWhile isSpace :=
    List.takeWhile_append_dropWhile.symm
  have hws : ∀ b ∈ line.chars.takeWhile isSpace, isSpace b = true :=
    fun b hb => List.mem_takeWhile_imp hb
  rw [strtol_ten] at h
  generalize line.chars.dropWhile isSpace = bs at hline h
  dsimp only at h
  split at h
  · exact Or.inl h
  · rename_i hsome
    refine Or.inr ?_
    have hds := digits_end h
    have hne : (minusSign bs).2 ≠ [] := by
      intro hnil
      rw [hnil] at hsome
      exact hsome rfl
    cases bs with
    | nil => exact absurd rfl hne
    | cons b ds =>
        by_cases h45 : b = 45
        · subst h45
          exact ⟨_, _, _, hline, hws, .minus hne hds⟩
        · by_cases h43 : b = 43
          · subst h43
            exact ⟨_, _, _, hline, hws, .plus hne hds⟩
          · have hsign : minusSign (b :: ds) = (false, b :: ds) :=
              minusSign_of_ne fun d hd => Option.some.inj hd ▸ ⟨h45, h43⟩
            rw [hsign] at hne hds
            exact ⟨_, _, _, hline, hws, .plain hne hds⟩

/-! ## The reaction -/

/-- The byte a line that is the integer `n` is sent as. -/
def byteOf (n : Int) : UInt8 := toUInt8 (clampLong n - 1)

theorem Decimal.head (h : Decimal line n) : line.chars.head? ≠ some 255 ∧ line.chars ≠ [] := by
  obtain ⟨ws, bs, hline, hws, hnum⟩ := h
  obtain ⟨b, rest, rfl, -, hb⟩ := hnum.head
  rw [hline]
  cases ws with
  | nil => exact ⟨fun h => hb (Option.some.inj h), List.cons_ne_nil _ _⟩
  | cons w ws =>
      refine ⟨fun h => ?_, List.cons_ne_nil _ _⟩
      have hw := hws w List.mem_cons_self
      rw [Option.some.inj h] at hw
      exact absurd hw (by decide)

/-- An integer is sent as a move. -/
theorem reaction_decimal (h : Decimal line n) (hclose : line ≠ literal "/close") :
    handleUserInput .waitingPlayInput line = .next .waitingPlayAck [.play (byteOf n)] := by
  have hread := strtol_decimal h
  simp only [handleUserInput]
  rw [if_neg h.head.1, if_neg hclose, hread, if_pos rfl]
  rfl

/-- The empty line is, too. -/
theorem reaction_empty : handleUserInput .waitingPlayInput CString.empty
    = .next .waitingPlayAck [.play 255] := by
  decide +kernel

/-- Anything else is a message, if it can be sent. -/
theorem reaction_text (h : ∀ n, ¬ Decimal line n) (hne : line ≠ CString.empty)
    (hclose : line ≠ literal "/close") (hleave : line ≠ literal "/leave") :
    handleUserInput .waitingPlayInput line =
      if line.chars.head? = some 255 then .next .waitingPlayInput []
      else if line.strlen + 4 > bufSize then .overrun
      else .next .waitingPlayInput [.sendMessage line] := by
  have hend : (strtol 10 line).2 ≠ [] := by
    intro hend
    rcases decimal_of_strtol hend with hnil | ⟨n, hn⟩
    · exact hne (CString.ext hnil)
    · exact h n hn
  have hsize : (Request.sendMessage line).body.length + 2 = line.strlen + 4 := by
    show (5 :: (line.chars ++ [0])).length + 2 = line.chars.length + 4
    rw [List.length_cons, List.length_append, List.length_singleton]
  simp only [handleUserInput, handleRoomInput, encoded]
  rw [if_neg hclose, if_neg hend, if_neg hleave, hsize]

/-! ## The game that is played -/

/-- In a live room nobody has won: neither the player that waits nor, with two, the pair. -/
def Open (game : Game) : Prop :=
  (game.players 0).captured ≤ boardSize * 2
    ∧ (game.nbPlayers = 2 → gameIsEnded game = .notEnded)

theorem open_congr {g h : Game} (hn : h.nbPlayers = g.nbPlayers)
    (hc : ∀ e < 2, (h.players e).captured = (g.players e).captured) (ho : Open g) : Open h := by
  have hend : gameIsEnded h = gameIsEnded g := by
    simp only [gameIsEnded]
    rw [hc 0 (by decide), hc 1 (by decide)]
  obtain ⟨hfirst, hpair⟩ := ho
  refine ⟨by rw [hc 0 (by decide)]; exact hfirst, fun htwo => ?_⟩
  rw [hend]
  exact hpair (hn ▸ htwo)

theorem captured_of_open {game : Game} (h : gameIsEnded game = .notEnded) :
    (game.players 0).captured ≤ boardSize * 2 := by
  by_contra hmore
  simp only [gameIsEnded] at h
  rw [if_pos (by omega)] at h
  cases h

/-- A newcomer has captured nothing. -/
theorem open_joined (hpos : 0 < (s.rooms i).game.nbPlayers)
    (ho : Open (s.rooms i).game) (spectate : UInt8) : Open (joinedGame s c i spectate) := by
  by_cases hsp : spectate = 0
  · subst hsp
    have hidx : addIndex (s.rooms i).game ((0 : UInt8) ≠ 0) = (s.rooms i).game.nbPlayers := rfl
    have hzero : (joinedGame s c i 0).players 0 = (s.rooms i).game.players 0 :=
      gameAddPlayer_of_ne (by rw [hidx]; omega)
    refine ⟨by rw [hzero]; exact ho.1, fun htwo => ?_⟩
    have hone : (s.rooms i).game.nbPlayers = 1 := Nat.succ.inj htwo
    obtain ⟨-, -, hnew⟩ := started_players (c := c) hone
    have hfirst := ho.1
    have hcaptured : ((joinedGame s c i 0).players 1).captured = 0 := by
      rw [hnew]
    simp only [gameIsEnded]
    rw [hzero, hcaptured, if_neg (by omega), if_neg (by decide),
      if_neg fun h => absurd h.2 (by decide)]
  · have hidx : addIndex (s.rooms i).game (spectate ≠ 0) = 2 + (s.rooms i).game.nbSpectators := by
      simp [addIndex, hsp]
    have hcount : (joinedGame s c i spectate).nbPlayers = (s.rooms i).game.nbPlayers := by
      simp [joinedGame, gameAddPlayer, hsp]
    refine open_congr hcount (fun e he => ?_) ho
    rw [joinedGame, gameAddPlayer_of_ne (by rw [hidx]; omega)]

/-- **OPEN ROOMS.**  In every reachable state the game of a live room is not over. -/
theorem open_reachable {g : Guard} (h : AwaleServer.Reachable g.meets s) :
    ∀ k, Live s k → Open (s.rooms k).game := by
  refine Guard.invariant_with (I := fun s => ∀ k, Live s k → Open (s.rooms k).game)
    (J := fun s => ∀ k, Live s k → 0 < (s.rooms k).game.nbPlayers)
    (fun t ht => founded_reachable ht) (fun _ _ h => h) ?_ ?_ ?_ ?_ ?_ h
  · intro b k hk
    exact absurd hk (not_live_of_le (Int.le_refl 0) k)
  · intro t b ht
    exact ht
  · intro t csock _ ht _ _ _ _
    exact ht
  · intro t c rand q t' out hfounded ht _ _ heff
    have hset : ∀ (u : Server) i (game : Game), u.rooms = t.rooms → Open game →
        ∀ k, Live t k → Open ((setGame u i game).rooms k).game := fun u i game hu ho =>
      setGame_slots (P := fun k game => Live t k → Open game)
        (fun k _ hk => by rw [hu]; exact ht k hk) fun _ => ho
    have hdel : ∀ (u : Server) i, u.nbRooms = t.nbRooms →
        (∀ k, k ≠ i → u.rooms k = t.rooms k) →
        ∀ k, Live (deleteRoom u i) k → Open ((deleteRoom u i).rooms k).game := by
      intro u i hnb hu k hk
      obtain ⟨hlive, hroom⟩ := live_deleteRoom hk
      rw [hroom, hu _ (SlotArray.skip_ne i k)]
      exact ht _ ((live_congr hnb _).mp hlive)
    have hjoin : ∀ {i}, Live t i → ∀ spectate, Open (joinedGame t c i spectate) := fun hi =>
      open_joined (hfounded _ hi) (ht _ hi)
    cases heff with
    | nameRefused _ => exact ht
    | named _ _ => exact ht
    | @resumed name i j m _ hseat _ =>
        refine hset (setClient t c { t.clients c with name := name }) i _ rfl
          (open_congr (by rfl) (fun e _ => ?_) (ht i (findSeat_some hseat).1))
        by_cases hej : e = j
        · rw [hej, setPlayerId_self]
        · rw [setPlayerId_of_ne hej]
    | created _ _ =>
        refine setRoom_slots (s := t)
          (P := fun k game => Live (created t c rand) k → Open game)
          (fun k hki hk => ht k (live_of_lt_succ hk hki)) fun _ => ⟨?_, ?_⟩
        · show (0 : Int) ≤ boardSize * 2
          decide
        · intro htwo
          cases htwo
    | joinNotFound _ => exact ht
    | joinFull _ _ => exact ht
    | joined hfind _ _ _ => exact hset t _ _ rfl (hjoin (findRoom_eq_some.mp hfind).1 _)
    | @started roomId spectate i frame hfind _ _ _ =>
        rw [setGame_joined]
        exact hset t _ _ rfl (open_congr (by rfl) (fun _ _ => rfl)
          (hjoin (findRoom_eq_some.mp hfind).1 spectate))
    | playedNowhere _ => exact ht
    | played _ hopen => exact hset t _ _ rfl ⟨captured_of_open hopen, fun _ => hopen⟩
    | playedLast _ _ => exact hdel _ _ rfl fun k hk => setGame_of_ne hk _
    | closed _ _ _ _ => exact hdel _ _ rfl fun _ _ => rfl
    | @unwatched i j _ _ _ _ _ =>
        refine setGame_slots (s := setRoomId t c 0) (P := fun k game => Live t k → Open game)
          (fun k _ => ht k) fun hi => open_congr (by rfl) (fun e he => ?_) (ht i hi)
        rw [removeSpectator_of_ne (by omega)]
    | leftNothing _ _ _ _ _ => exact ht
    | messaged _ _ => exact ht
    | described => exact ht
  · rintro t c t₁ - ht _ _ hd
    refine (disconnectUser_invariant
      (I := fun u => u.nbRooms = t.nbRooms ∧ ∀ k, Live u k → Open (u.rooms k).game)
      (fun u hu => hu.1) ?_ ?_ ⟨rfl, ht⟩ rfl rfl hd).2
    · intro u i j hu hi _ _
      refine ⟨hu.1, setGame_slots (P := fun k game => Live u k → Open game)
        (fun k _ => hu.2 k) fun _ => open_congr (by rfl) (fun e _ => ?_) (hu.2 i hi)⟩
      by_cases hej : e = j
      · rw [hej, setPlayerId_self]
      · rw [setPlayerId_of_ne hej]
    · intro u i j hu hi _ _ _
      refine ⟨hu.1, setGame_slots (P := fun k game => Live u k → Open game)
        (fun k _ => hu.2 k) fun _ => open_congr (by rfl) (fun e he => ?_) (hu.2 i hi)⟩
      rw [removeSpectator_of_ne (by omega)]

/-! ## What the line comes to -/

/-- What `handle_play` leaves and sends once `game_play` has returned `r` for `side` of room
    `i`. -/
def answered (s : Server) (i side : Nat) (r : Game × PlayResult) : Result :=
  let replies :=
    if r.2 = .validPlay then playedFrames r.1
    else writeClient (r.1.players side).id (.invalidPlay (invalidPlayText r.2))
  let gs := gameIsEnded r.1
  if gs ≠ .notEnded then
    let frame := ServerMsg.gameStopped (gs = .draw) (winnerName r.1 gs)
    if frame.size > bufSize then .error .buffer
    else
      .ok (deleteRoom (setGame s i r.1) i,
        replies ++ writeClient (r.1.players 0).id frame ++ writeClient (r.1.players 1).id frame)
  else .ok (setGame s i r.1, replies)

theorem handlePlay_answered (hfind : findRoom s (s.clients c).roomId = some i) :
    handlePlay s c p = answered s i (sideIn s c i) (playIn s c i p) := handlePlay_eq hfind

/-- A PLAY with the byte `p` makes the server call `game_play` for `pos` and `side`, and answer
    what it returns. -/
def Calls (s : Server) (c i : Nat) (p : UInt8) (rand : UInt32) (pos : Int) (side : Nat) : Prop :=
  step s (.frame c (Request.play p).body rand)
    = answered (received s (Request.play p).body) i side
        (gamePlay machine (s.rooms i).game pos side)

/-- **PLAYED AS TYPED.**  The numbers 1 to 6 are the houses of the player's row, any other
    integer is refused, and anything else is a message. -/
structure PlayedAsTyped (s : Server) (c i side : Nat) (rand : UInt32) (line : CString) : Prop where
  own : ∀ n, Decimal line n → 1 ≤ n → n ≤ 6 →
    ∃ p, handleUserInput .waitingPlayInput line = .next .waitingPlayAck [.play p]
      ∧ Calls s c i p rand (side * 6 + (n - 1)) side
  other : ∀ n, Decimal line n → ¬ (1 ≤ n ∧ n ≤ 6) →
    ∃ p, handleUserInput .waitingPlayInput line = .next .waitingPlayAck [.play p]
      ∧ Refused s c i p rand
  text : (∀ n, ¬ Decimal line n) →
    handleUserInput .waitingPlayInput line = .next .waitingPlayInput [.sendMessage line]

/-- The integer is a house, or what is left of it in a byte is none, or that house is empty. -/
def NumberMeets (game : Game) (side : Nat) (n : Int) : Prop :=
  (1 ≤ n ∧ n ≤ 6) ∨ n < -2 ^ 63 ∨ 2 ^ 63 ≤ n ∨ 6 ≤ (n - 1) % 256
    ∨ game.board (house (side * 6 + ((n - 1) % 256).toNat)) = 0

/-- The line is such an integer, or a text that `handle_user_input` takes for one and that fits
    the buffer it is encoded in. -/
structure LineMeets (game : Game) (side : Nat) (line : CString) : Prop where
  number : ∀ n, Decimal line n → NumberMeets game side n
  text : (∀ n, ¬ Decimal line n) →
    line ≠ CString.empty ∧ line.chars.head? ≠ some 255 ∧ line.strlen + 4 ≤ bufSize

theorem byteOf_toNat (n : Int) : (byteOf n).toNat = ((clampLong n - 1) % 256).toNat := by
  have hlt : ((clampLong n - 1) % 256).toNat < 256 := by omega
  show (UInt8.ofNat ((clampLong n - 1) % 2 ^ 8).toNat).toNat = _
  rw [UInt8.toNat_ofNat']
  exact Nat.mod_eq_of_lt hlt

theorem sent_play {state state' : State} {p q : UInt8}
    (h : Reaction.next state [.play p] = .next state' [.play q]) : p = q := by
  injection h with _ h
  injection h with h
  injection h

/-- Outside `long` the byte is 254 or 255; inside it is what is left of the number. -/
theorem byteOf_cases (n : Int) :
    ((n < -2 ^ 63 ∨ 2 ^ 63 ≤ n) ∧ 6 ≤ (byteOf n).toNat)
      ∨ (¬ (n < -2 ^ 63 ∨ 2 ^ 63 ≤ n) ∧ (byteOf n).toNat = ((n - 1) % 256).toNat) := by
  rw [byteOf_toNat, clampLong]
  by_cases hlow : n < -2 ^ 63
  · refine Or.inl ⟨Or.inl hlow, ?_⟩
    omega
  · by_cases hhigh : 2 ^ 63 ≤ n
    · refine Or.inl ⟨Or.inr hhigh, ?_⟩
      omega
    · have hsame : max (-2 ^ 63) (min n (2 ^ 63 - 1)) = n := by omega
      refine Or.inr ⟨by omega, ?_⟩
      rw [hsame]

/-- A seated player moves on its own row. -/
theorem playIn_own (hside : sideIn s c i = side) :
    playIn s c i p
      = gamePlay machine (s.rooms i).game (side * 6 + p.toNat : Nat) side := by
  have hoffset : side * boardSize / 2 = side * 6 := Nat.mul_div_assoc side (by decide)
  rw [playIn, hside, hoffset]

/-- The bytes `game_play` accepts: those of the seeded houses of the row. -/
theorem playIn_valid (hle : side ≤ 1) (hside : sideIn s c i = side) :
    (playIn s c i p).2 = .validPlay
      ↔ p.toNat < 6
        ∧ (s.rooms i).game.board (house (side * 6 + p.toNat)) ≠ 0 := by
  have hlow : boardSize / 2 * side ≤ side * 6 + p.toNat := by
    show 6 * side ≤ _
    omega
  have hhigh : p.toNat < 6 → side * 6 + p.toNat < boardSize / 2 * side + boardSize / 2 := by
    show _ → _ < 6 * side + 6
    omega
  rw [playIn_own hside, gamePlay_result]
  by_cases hp : p.toNat < 6
  · rw [playCheck_own hle hlow (hhigh hp), and_iff_right hp]
    by_cases hempty : (s.rooms i).game.board (house (side * 6 + p.toNat)) = 0
    · rw [if_pos (Nat.le_of_eq hempty)]
      exact iff_of_false (by decide) fun h => h hempty
    · rw [if_neg (by omega)]
      exact iff_of_true rfl hempty
  · refine iff_of_false (fun hv => ?_) fun h => hp h.1
    rw [playCheck] at hv
    split at hv
    · cases hv
    · rename_i hbounds
      simp only [boardSize] at hbounds
      omega

/-- A move is refused exactly when `game_play` rejects it. -/
theorem refused_iff (hp : Possible s (.frame c (Request.play p).body rand))
    (hfind : findRoom s (s.clients c).roomId = some i)
    (hopen : gameIsEnded (s.rooms i).game = .notEnded) (hsock : (s.clients c).sock ≠ -1)
    (hseated : ((s.rooms i).game.players (sideIn s c i)).id = (s.clients c).sock) :
    Refused s c i p rand ↔ (playIn s c i p).2 ≠ .validPlay := by
  have hfind' : findRoom (received s (Request.play p).body)
      ((received s (Request.play p).body).clients c).roomId = some i := hfind
  have hstep : step s (.frame c (Request.play p).body rand)
      = handlePlay (received s (Request.play p).body) c p := step_play s c p rand
  constructor
  · intro h hvalid
    have hplay := hstep.symm.trans (trans_eq_some h).2
    -- every answer to a valid move shows the board or the end of the game
    have hnot : ∀ {out : List Sent} {s' : Server} {text : CString} {x : Int},
        Effect (received s (Request.play p).body) c rand (.play p) s' out →
        (x, .invalidPlay text) ∉ out := by
      intro out s' text x heff hmem
      have hreply : ∀ {i₁}, findRoom (received s (Request.play p).body)
          ((received s (Request.play p).body).clients c).roomId = some i₁ →
          (x, .invalidPlay text) ∉ replies (received s (Request.play p).body) c i₁ p := by
        intro i₁ hi₁ hmem
        obtain rfl : i = i₁ := Option.some.inj (hfind'.symm.trans hi₁)
        have hvalid' : (playIn (received s (Request.play p).body) c i p).2 = .validPlay := hvalid
        rw [replies_valid hvalid'] at hmem
        obtain ⟨_, _, _, _, -, -, heq⟩ := mem_playedFrames hmem
        cases heq
      cases heff with
      | playedNowhere _ => exact List.not_mem_nil hmem
      | played hi₁ _ => exact hreply hi₁ hmem
      | playedLast hi₁ _ =>
          rcases List.mem_append.mp hmem with hmem | hmem
          · rcases List.mem_append.mp hmem with hmem | hmem
            · exact hreply hi₁ hmem
            · cases (Prod.mk.inj (mem_writeClient.mp hmem).2).2
          · cases (Prod.mk.inj (mem_writeClient.mp hmem).2).2
    exact hnot (handleRequest_effect (q := .play p) hplay) List.mem_cons_self
  · intro hrej
    have hplay := rejected_play (p := p) hfind' hrej hopen
    have hsent : writeClient ((s.rooms i).game.players (sideIn s c i)).id
          (.invalidPlay (invalidPlayText (playIn s c i p).2))
        = [((s.clients c).sock, .invalidPlay (invalidPlayText (playIn s c i p).2))] :=
      (writeClient_eq_iff hsock).mpr hseated
    have hopened : Opened s (writeClient ((s.rooms i).game.players (sideIn s c i)).id
        (.invalidPlay (invalidPlayText (playIn s c i p).2))) := by
      rw [hseated]
      exact opened_own hp.1 _
    rw [Refused, trans_eq hp (hstep.trans hplay) hopened]
    exact congrArg some (Prod.ext rfl hsent)

/-- **THE MOVE PROMPT.**  In every reachable state, for a client that sits at `side` of a started
    room, a line other than the two commands is played as typed exactly under `LineMeets`. -/
theorem typed_is_played (hr : AwaleServer.Reachable Guard.any.meets s) (hc : c < s.nbClients)
    (hfind : findRoom s (s.clients c).roomId = some i)
    (hstarted : (s.rooms i).game.isStarted = true)
    (hseat : findPlayer (s.rooms i).game (s.clients c).sock = some side)
    (hclose : line ≠ literal "/close") (hleave : line ≠ literal "/leave") :
    PlayedAsTyped s c i side rand line ↔ LineMeets (s.rooms i).game side line := by
  have htwo : (s.rooms i).game.nbPlayers = 2 := (sized_reachable hr i).started.mp hstarted
  have hopen : gameIsEnded (s.rooms i).game = .notEnded :=
    (open_reachable hr i (findRoom_eq_some.mp hfind).1).2 htwo
  have hsock : (s.clients c).sock ≠ -1 := connected_reachable hr hc
  obtain ⟨hlt, hid, hfirst⟩ := findPlayer_eq_some.mp hseat
  have hle : side ≤ 1 := by omega
  have hside : sideIn s c i = side := by
    by_cases h0 : side = 0
    · subst h0
      exact sideIn_zero hid
    · have h1 : side = 1 := by omega
      rw [h1]
      exact sideIn_one (hfirst 0 (by omega))
  have hrefused : ∀ n, Refused s c i (byteOf n) rand
      ↔ ¬ ((byteOf n).toNat < 6 ∧ (s.rooms i).game.board
        (house (side * 6 + (byteOf n).toNat)) ≠ 0) := by
    intro n
    rw [← playIn_valid hle hside]
    have hlen : (Request.play (byteOf n)).body.length = 2 := rfl
    exact refused_iff ⟨hc, by omega, by omega⟩ hfind hopen hsock (by rw [hside]; exact hid)
  constructor
  · intro h
    refine ⟨fun n hn => ?_, fun hn => ?_⟩
    · by_cases hown : 1 ≤ n ∧ n ≤ 6
      · exact Or.inl hown
      · obtain ⟨p, hp, href⟩ := h.other n hn hown
        rw [reaction_decimal hn hclose] at hp
        obtain rfl := sent_play hp
        have hnot := (hrefused n).mp href
        rcases byteOf_cases n with ⟨hbig, -⟩ | ⟨hsmall, hbyte⟩
        · rcases hbig with hlow | hhigh
          · exact Or.inr (Or.inl hlow)
          · exact Or.inr (Or.inr (Or.inl hhigh))
        · rw [hbyte] at hnot
          refine Or.inr (Or.inr (Or.inr ?_))
          by_cases hsix : 6 ≤ (n - 1) % 256
          · exact Or.inl hsix
          · refine Or.inr ?_
            by_contra hne
            exact hnot ⟨by omega, hne⟩
    · have htext := h.text hn
      have hne : line ≠ CString.empty := by
        rintro rfl
        rw [reaction_empty] at htext
        cases htext
      rw [reaction_text hn hne hclose hleave] at htext
      split_ifs at htext with h255 hsize
      · cases htext
      · exact ⟨hne, h255, by omega⟩
  · intro h
    refine ⟨fun n hn h1 h6 => ?_, fun n hn hout => ?_, fun hn => ?_⟩
    · refine ⟨byteOf n, reaction_decimal hn hclose, ?_⟩
      have hbyte : ((side * 6 + (byteOf n).toNat : Nat) : Int) = side * 6 + (n - 1) := by
        rcases byteOf_cases n with ⟨hbig, -⟩ | ⟨-, hbyte⟩
        · omega
        · rw [hbyte]
          push_cast
          omega
      have hfind' : findRoom (received s (Request.play (byteOf n)).body)
          ((received s (Request.play (byteOf n)).body).clients c).roomId = some i := hfind
      have hside' : sideIn (received s (Request.play (byteOf n)).body) c i = side := hside
      refine (step_play s c (byteOf n) rand).trans ?_
      rw [handlePlay_answered hfind', hside', playIn_own hside', hbyte]
      rfl
    · refine ⟨byteOf n, reaction_decimal hn hclose, (hrefused n).mpr ?_⟩
      rintro ⟨hlt6, hseeded⟩
      rcases byteOf_cases n with ⟨-, hbig⟩ | ⟨hsmall, hbyte⟩
      · omega
      · rw [hbyte] at hlt6 hseeded
        rcases h.number n hn with hown | hlow | hhigh | hsix | hempty
        · exact hout hown
        · exact hsmall (Or.inl hlow)
        · exact hsmall (Or.inr hhigh)
        · omega
        · exact hseeded hempty
    · obtain ⟨hne, h255, hsize⟩ := h.text hn
      rw [reaction_text hn hne hclose hleave, if_neg h255, if_neg (by omega)]

/-- Two players. -/
def startedRoom : List Event :=
  [.accept 4, .accept 5, .frame 0 Request.createRoom.body 7,
    .frame 1 (Request.joinRoom 7 0).body 0]

/-- The first player types `3`. -/
theorem typed_is_played_third_house :
    ∃ s, (s.rooms 0).game.isStarted = true
      ∧ handleUserInput .waitingPlayInput (literal "3") = .next .waitingPlayAck [.play 2]
      ∧ PlayedAsTyped s 0 0 0 0 (literal "3") := by
  obtain ⟨s, hs, hf⟩ := Guard.reaches (g := Guard.any)
    (f := fun s => decide (0 < s.nbClients ∧ findRoom s (s.clients 0).roomId = some 0
      ∧ (s.rooms 0).game.isStarted = true
      ∧ findPlayer (s.rooms 0).game (s.clients 0).sock = some 0))
    (b := true) startedRoom (by decide +kernel) (by decide +kernel)
  obtain ⟨hc, hfind, hstarted, hseat⟩ := of_decide_eq_true hf
  have hread : (strtol 10 (literal "3")).1 = 3 := by decide +kernel
  refine ⟨s, hstarted, by decide +kernel, (typed_is_played hs hc hfind hstarted hseat
    (by decide +kernel) (by decide +kernel)).mpr ⟨fun n hn => Or.inl ?_, fun _ => ?_⟩⟩
  · have hvalue : max (-2 ^ 63) (min n (2 ^ 63 - 1)) = 3 := by
      rw [strtol_decimal hn] at hread
      exact hread
    omega
  · exact ⟨by decide +kernel, by decide +kernel, by decide +kernel⟩

/-- The first player types `257`: the first house is sown. -/
theorem number_wraps :
    ∃ s, AwaleServer.Reachable Guard.any.meets s ∧ (s.rooms 0).game.isStarted = true
      ∧ findPlayer (s.rooms 0).game (s.clients 0).sock = some 0
      ∧ Decimal (literal "257") 257
      ∧ handleUserInput .waitingPlayInput (literal "257") = .next .waitingPlayAck [.play 0]
      ∧ (playIn s 0 0 0).2 = .validPlay ∧ ¬ PlayedAsTyped s 0 0 0 0 (literal "257") := by
  obtain ⟨s, hs, hf⟩ := Guard.reaches (g := Guard.any)
    (f := fun s => (decide ((s.rooms 0).game.isStarted = true
        ∧ findPlayer (s.rooms 0).game (s.clients 0).sock = some 0
        ∧ (playIn s 0 0 0).2 = .validPlay),
      (AwaleServer.trans s (.frame 0 (Request.play 0).body 0)).map fun r => r.2.length))
    (b := (true, some 2)) startedRoom (by decide +kernel) (by decide +kernel)
  obtain ⟨hd, hlen⟩ := Prod.mk.inj hf
  obtain ⟨hstarted, hseat, hvalid⟩ := of_decide_eq_true hd
  have hdecimal : Decimal (literal "257") 257 :=
    ⟨[], [50, 53, 55], by decide +kernel, List.forall_mem_nil _,
      .plain (List.cons_ne_nil _ _) (by decide +kernel)⟩
  have hreaction : handleUserInput .waitingPlayInput (literal "257")
      = .next .waitingPlayAck [.play 0] := by decide +kernel
  refine ⟨s, hs, hstarted, hseat, hdecimal, hreaction, hvalid, fun h => ?_⟩
  obtain ⟨p, hp, href⟩ := h.other 257 hdecimal (by decide)
  rw [hreaction] at hp
  obtain rfl := sent_play hp
  have hone : (AwaleServer.trans s (.frame 0 (Request.play 0).body 0)).map
      (fun r => r.2.length) = some 1 := by
    rw [href]
    rfl
  rw [hone] at hlen
  exact absurd hlen (by decide)

end AwaleTyping
