import AwaleOnline.AwaleBoundsProofs

/-!
# The roster: who is connected and who is a member of what

An abstract model of what the client table and the room table are for.

* **`Roster`** — the connected sockets with the room each believes to be in, the ids of the
  live rooms, and the socket in each member entry; `put`, `launch`, `enter`, `close`, `enrol`
  and `dismiss` are what can happen to it;
* **`Sound`**, **`Single`**, **`Consistent`** — no entry names a closed socket, no socket is
  in two entries, every client is a member of the room it believes to be in; one lemma for
  each operation says when it keeps them;
* **`roster`** — the roster of a server state, with an equation for every update the handlers
  make; **`detached`** — what `disconnect_user` does to it when its loops find what they look
  for.
-/

namespace AwaleRoster

open AwaleGame AwaleProtocol AwaleServer AwaleEffect AwaleBounds

/-! ## The abstract model -/

/-- `live k` is the id of live room `k`, `entry k e` the socket in member entry `e` of live
    room `k`. -/
@[ext] structure Roster where
  nbClients : Nat
  sock : Nat → Int
  room : Nat → UInt32
  nbRooms : Nat
  live : Nat → Option UInt32
  entry : Nat → Nat → Option Int

namespace Roster

/-- Write or clear an entry. -/
def put (r : Roster) (i e : Nat) (x : Option Int) : Roster :=
  { r with entry := fun k e' => if k = i ∧ e' = e then x else r.entry k e' }

/-- A new room behind the others. -/
def launch (r : Roster) (id : UInt32) : Roster :=
  { r with
    nbRooms := r.nbRooms + 1
    live := fun k => if k = r.nbRooms then some id else r.live k }

/-- A client changes the room it believes to be in. -/
def enter (r : Roster) (c : Nat) (id : UInt32) : Roster :=
  { r with room := Function.update r.room c id }

/-- A room is closed; the ones behind it move up. -/
def close (r : Roster) (i : Nat) : Roster :=
  { r with
    nbRooms := r.nbRooms - 1
    live := fun k => if k + 1 < r.nbRooms then r.live (SlotArray.skip i k) else none
    entry := fun k e =>
      if k + 1 < r.nbRooms then r.entry (SlotArray.skip i k) e else none }

/-- A new connection. -/
def enrol (r : Roster) (x : Int) : Roster :=
  { r with
    nbClients := r.nbClients + 1
    sock := Function.update r.sock r.nbClients x
    room := Function.update r.room r.nbClients 0 }

/-- A connection ends; the clients behind it move up. -/
def dismiss (r : Roster) (c : Nat) : Roster :=
  { r with
    nbClients := r.nbClients - 1
    sock := SlotArray.shiftDown r.sock c (r.nbClients - 1)
    room := SlotArray.shiftDown r.room c (r.nbClients - 1) }

/-! ### Properties -/

/-- A socket of the client table. -/
def Connected (r : Roster) (x : Int) : Prop := ∃ c < r.nbClients, r.sock c = x

/-- Connected sockets are positive and pairwise different. -/
def Distinct (r : Roster) : Prop :=
  ∀ a < r.nbClients, 0 < r.sock a ∧ ∀ b < r.nbClients, r.sock a = r.sock b → a = b

/-- Every member entry is vacant or holds the socket of a connected client. -/
def Sound (r : Roster) : Prop :=
  ∀ k e x, r.entry k e = some x → x = -1 ∨ r.Connected x

/-- A connected socket is in at most one member entry. -/
def Single (r : Roster) : Prop :=
  ∀ c < r.nbClients, ∀ k e k' e', r.entry k e = some (r.sock c) →
    r.entry k' e' = some (r.sock c) → k = k' ∧ e = e'

/-- A client that believes to be in a room is a member of a live room of that id. -/
def Consistent (r : Roster) : Prop :=
  ∀ c < r.nbClients, r.room c ≠ 0 →
    ∃ k e, r.live k = some (r.room c) ∧ r.entry k e = some (r.sock c)

instance (r : Roster) (x : Int) : Decidable (r.Connected x) :=
  inferInstanceAs (Decidable (∃ c < r.nbClients, r.sock c = x))

variable {r : Roster} {a c i e : Nat} {x : Int} {id : UInt32}

theorem enter_self (r : Roster) (c : Nat) (id : UInt32) : (r.enter c id).room c = id :=
  Function.update_self ..

theorem enter_of_ne (hac : a ≠ c) : (r.enter c id).room a = r.room a :=
  Function.update_of_ne hac ..

theorem enrol_self (r : Roster) (x : Int) :
    (r.enrol x).sock r.nbClients = x ∧ (r.enrol x).room r.nbClients = 0 :=
  ⟨Function.update_self .., Function.update_self ..⟩

theorem enrol_of_ne (ha : a ≠ r.nbClients) :
    (r.enrol x).sock a = r.sock a ∧ (r.enrol x).room a = r.room a :=
  ⟨Function.update_of_ne ha .., Function.update_of_ne ha ..⟩

/-- The last write to an entry counts. -/
theorem put_put (r : Roster) (i e : Nat) (x y : Option Int) :
    (r.put i e x).put i e y = r.put i e y := by
  refine Roster.ext rfl rfl rfl rfl rfl ?_
  funext k e'
  show (if k = i ∧ e' = e then y else if k = i ∧ e' = e then x else r.entry k e')
    = if k = i ∧ e' = e then y else r.entry k e'
  split
  · rfl
  · rfl

/-- Writes to different entries commute. -/
theorem put_comm (r : Roster) (i : Nat) {e e' : Nat} (hne : e ≠ e') (x y : Option Int) :
    (r.put i e x).put i e' y = (r.put i e' y).put i e x := by
  refine Roster.ext rfl rfl rfl rfl rfl ?_
  funext k e₁
  show (if k = i ∧ e₁ = e' then y else if k = i ∧ e₁ = e then x else r.entry k e₁)
    = if k = i ∧ e₁ = e then x else if k = i ∧ e₁ = e' then y else r.entry k e₁
  by_cases h : k = i ∧ e₁ = e'
  · rw [if_pos h, if_neg (fun h' => hne (h'.2.symm.trans h.2)), if_pos h]
  · rw [if_neg h, if_neg h]

/-! ### `Distinct` -/

theorem distinct_enrol (h : r.Distinct) (hx : 0 < x)
    (hnew : ∀ a < r.nbClients, r.sock a ≠ x) : (r.enrol x).Distinct := by
  have hold : ∀ a < r.nbClients, (r.enrol x).sock a = r.sock a := by
    intro a ha
    exact (enrol_of_ne (Nat.ne_of_lt ha)).1
  have hself : (r.enrol x).sock r.nbClients = x := (enrol_self r x).1
  intro a ha
  have ha' : a < r.nbClients + 1 := ha
  rcases Nat.lt_succ_iff_lt_or_eq.mp ha' with ha | rfl
  · rw [hold a ha]
    refine ⟨(h a ha).1, ?_⟩
    intro b hb heq
    have hb' : b < r.nbClients + 1 := hb
    rcases Nat.lt_succ_iff_lt_or_eq.mp hb' with hb | rfl
    · rw [hold b hb] at heq
      exact (h a ha).2 b hb heq
    · rw [hself] at heq
      exact absurd heq (hnew a ha)
  · rw [hself]
    refine ⟨hx, ?_⟩
    intro b hb heq
    have hb' : b < r.nbClients + 1 := hb
    rcases Nat.lt_succ_iff_lt_or_eq.mp hb' with hb | hb
    · rw [hold b hb] at heq
      exact absurd heq.symm (hnew b hb)
    · exact hb.symm

/-- Client `a` of the shorter table is client `skip c a` of the longer one. -/
theorem dismiss_client (r : Roster) {a : Nat} (ha : a < (r.dismiss c).nbClients) :
    SlotArray.skip c a < r.nbClients ∧ SlotArray.skip c a ≠ c
      ∧ (r.dismiss c).sock a = r.sock (SlotArray.skip c a)
      ∧ (r.dismiss c).room a = r.room (SlotArray.skip c a) := by
  have ha' : a < r.nbClients - 1 := ha
  have hlt := SlotArray.skip_lt (i := c) ha'
  exact ⟨by omega, SlotArray.skip_ne c a, SlotArray.shiftDown_skip _ ha',
    SlotArray.shiftDown_skip _ ha'⟩

theorem distinct_dismiss (h : r.Distinct) : (r.dismiss c).Distinct := by
  intro a ha
  obtain ⟨h1, -, h2, -⟩ := r.dismiss_client ha
  rw [h2]
  refine ⟨(h _ h1).1, ?_⟩
  intro b hb heq
  obtain ⟨h3, -, h4, -⟩ := r.dismiss_client hb
  rw [h4] at heq
  exact SlotArray.skip_injective c ((h _ h1).2 _ h3 heq)

/-- Every other client survives a dismissal. -/
theorem connected_dismiss (hc : c < r.nbClients) (hx : r.Connected x) (hne : x ≠ r.sock c) :
    (r.dismiss c).Connected x := by
  obtain ⟨a, ha, rfl⟩ := hx
  have hac : a ≠ c := fun h => hne (by rw [h])
  obtain ⟨b, hb, hskip⟩ := SlotArray.exists_skip (i := c) (j := a) (n := r.nbClients - 1)
    (by omega) hac (by omega)
  refine ⟨b, hb, ?_⟩
  rw [(r.dismiss_client (c := c) hb).2.2.1, hskip]

/-! ### `Sound` -/

theorem Sound.put (h : r.Sound) (hx : x = -1 ∨ r.Connected x) :
    (r.put i e (some x)).Sound := by
  intro k e' y hy
  simp only [Roster.put] at hy
  split at hy
  · exact Option.some.inj hy ▸ hx
  · exact h k e' y hy

theorem Sound.clear (h : r.Sound) : (r.put i e none).Sound := by
  intro k e' y hy
  simp only [Roster.put] at hy
  split at hy
  · exact nomatch hy
  · exact h k e' y hy

theorem Sound.close (h : r.Sound) : (r.close i).Sound := by
  intro k e' y hy
  simp only [Roster.close] at hy
  split at hy
  · exact h _ e' y hy
  · exact nomatch hy

theorem Sound.enrol (h : r.Sound) : (r.enrol x).Sound := by
  intro k e' y hy
  rcases h k e' y hy with hy | ⟨a, ha, hsock⟩
  · exact Or.inl hy
  · refine Or.inr ⟨a, Nat.lt_succ_of_lt ha, ?_⟩
    rw [(enrol_of_ne (Nat.ne_of_lt ha)).1, hsock]

/-- A dismissal needs the socket to be in no entry. -/
theorem Sound.dismiss (h : r.Sound) (hc : c < r.nbClients)
    (hgone : ∀ k e, r.entry k e ≠ some (r.sock c)) : (r.dismiss c).Sound := by
  intro k e' y hy
  rcases h k e' y hy with hneg | hconn
  · exact Or.inl hneg
  · refine Or.inr (connected_dismiss hc hconn ?_)
    intro heq
    exact hgone k e' (heq ▸ hy)

/-! ### `Single` -/

theorem Single.put (h : r.Single)
    (hx : ∀ c < r.nbClients, r.sock c = x → ∀ k e', r.entry k e' = some x → k = i ∧ e' = e) :
    (r.put i e (some x)).Single := by
  intro c hc k e₁ k' e₂ h1 h2
  simp only [Roster.put] at h1 h2
  split at h1
  · rename_i hke
    split at h2
    · rename_i hke'
      exact ⟨hke.1.trans hke'.1.symm, hke.2.trans hke'.2.symm⟩
    · have hsock : r.sock c = x := (Option.some.inj h1).symm
      obtain ⟨h3, h4⟩ := hx c hc hsock k' e₂ (hsock ▸ h2)
      exact ⟨hke.1.trans h3.symm, hke.2.trans h4.symm⟩
  · split at h2
    · rename_i hke'
      have hsock : r.sock c = x := (Option.some.inj h2).symm
      obtain ⟨h3, h4⟩ := hx c hc hsock k e₁ (hsock ▸ h1)
      exact ⟨h3.trans hke'.1.symm, h4.trans hke'.2.symm⟩
    · exact h c hc k e₁ k' e₂ h1 h2

theorem Single.clear (h : r.Single) : (r.put i e none).Single := by
  intro c hc k e₁ k' e₂ h1 h2
  simp only [Roster.put] at h1 h2
  split at h1
  · exact nomatch h1
  · split at h2
    · exact nomatch h2
    · exact h c hc k e₁ k' e₂ h1 h2

theorem Single.close (h : r.Single) : (r.close i).Single := by
  intro c hc k e₁ k' e₂ h1 h2
  simp only [Roster.close] at h1 h2
  split at h1
  · split at h2
    · obtain ⟨hk, he⟩ := h c hc _ e₁ _ e₂ h1 h2
      exact ⟨SlotArray.skip_injective i hk, he⟩
    · exact nomatch h2
  · exact nomatch h1

/-- A new connection needs its descriptor to be in at most one stale entry. -/
theorem Single.enrol (h : r.Single)
    (hx : ∀ k e k' e', r.entry k e = some x → r.entry k' e' = some x → k = k' ∧ e = e') :
    (r.enrol x).Single := by
  intro c hc k e₁ k' e₂ h1 h2
  have hc' : c < r.nbClients + 1 := hc
  by_cases heq : c = r.nbClients
  · subst heq
    rw [(enrol_self r x).1] at h1 h2
    exact hx k e₁ k' e₂ h1 h2
  · rw [(enrol_of_ne heq).1] at h1 h2
    exact h c (by omega) k e₁ k' e₂ h1 h2

theorem Single.dismiss (h : r.Single) : (r.dismiss c).Single := by
  intro a ha k e₁ k' e₂ h1 h2
  obtain ⟨h3, -, h4, -⟩ := r.dismiss_client ha
  rw [h4] at h1 h2
  exact h _ h3 k e₁ k' e₂ h1 h2

/-! ### `Consistent` -/

/-- An entry that holds no socket some other client relies on can be overwritten, when the
    client that enters the room is the one written. -/
theorem Consistent.put_enter (h : r.Consistent) (hlive : r.live i = some id)
    (hfree : ∀ a < r.nbClients, a ≠ c → r.room a = id → r.entry i e ≠ some (r.sock a)) :
    ((r.put i e (some (r.sock c))).enter c id).Consistent := by
  intro a ha hroom
  by_cases hac : a = c
  · subst hac
    refine ⟨i, e, ?_, ?_⟩
    · rw [enter_self]
      exact hlive
    · exact if_pos ⟨rfl, rfl⟩
  · rw [enter_of_ne hac] at hroom
    obtain ⟨k, e', h1, h2⟩ := h a ha hroom
    refine ⟨k, e', ?_, ?_⟩
    · rw [enter_of_ne hac]
      exact h1
    · show (if k = i ∧ e' = e then some (r.sock c) else r.entry k e') = some (r.sock a)
      rw [if_neg]
      · exact h2
      · rintro ⟨rfl, rfl⟩
        rw [hlive] at h1
        exact hfree a ha hac (Option.some.inj h1).symm h2

theorem Consistent.launch (h : r.Consistent) (hnew : r.live r.nbRooms = none) :
    (r.launch id).Consistent := by
  intro a ha hroom
  obtain ⟨k, e', h1, h2⟩ := h a ha hroom
  refine ⟨k, e', ?_, h2⟩
  show (if k = r.nbRooms then some id else r.live k) = some (r.room a)
  rw [if_neg]
  · exact h1
  · rintro rfl
    rw [hnew] at h1
    exact nomatch h1

/-- A client leaves a room for no room. -/
theorem Consistent.leave (h : r.Consistent) : (r.enter c 0).Consistent := by
  intro a ha hroom
  by_cases hac : a = c
  · subst hac
    exact absurd (enter_self r a 0) hroom
  · rw [enter_of_ne hac] at hroom ⊢
    exact h a ha hroom

/-- An entry no client relies on can be rewritten or cleared. -/
theorem Consistent.put {x : Option Int} (h : r.Consistent)
    (hfree : ∀ a < r.nbClients, r.room a ≠ 0 → r.live i = some (r.room a) →
      r.entry i e ≠ some (r.sock a)) : (r.put i e x).Consistent := by
  intro a ha hroom
  obtain ⟨k, e', h1, h2⟩ := h a ha hroom
  refine ⟨k, e', h1, ?_⟩
  show (if k = i ∧ e' = e then x else r.entry k e') = some (r.sock a)
  rw [if_neg]
  · exact h2
  · rintro ⟨rfl, rfl⟩
    exact hfree a ha hroom h1 h2

/-- A room nobody believes to be in can be closed. -/
theorem Consistent.close (h : r.Consistent) (hi : i < r.nbRooms)
    (hdead : ∀ k, r.nbRooms ≤ k → r.live k = none)
    (hfree : ∀ a < r.nbClients, r.room a ≠ 0 → r.live i ≠ some (r.room a)) :
    (r.close i).Consistent := by
  intro a ha hroom
  obtain ⟨k, e', h1, h2⟩ := h a ha hroom
  have hk : k < r.nbRooms := by
    by_contra hge
    rw [hdead k (by omega)] at h1
    exact nomatch h1
  have hki : k ≠ i := by
    rintro rfl
    exact hfree a ha hroom h1
  obtain ⟨k', hk', hskip⟩ := SlotArray.exists_skip (i := i) (j := k) (n := r.nbRooms - 1)
    (by omega) hki (by omega)
  refine ⟨k', e', ?_, ?_⟩
  · show (if k' + 1 < r.nbRooms then r.live (SlotArray.skip i k') else none) = _
    rw [if_pos (by omega), hskip]
    exact h1
  · show (if k' + 1 < r.nbRooms then r.entry (SlotArray.skip i k') e' else none) = _
    rw [if_pos (by omega), hskip]
    exact h2

theorem Consistent.enrol (h : r.Consistent) : (r.enrol x).Consistent := by
  intro a ha hroom
  have ha' : a < r.nbClients + 1 := ha
  by_cases heq : a = r.nbClients
  · subst heq
    exact absurd (enrol_self r x).2 hroom
  · obtain ⟨hsock, hroom'⟩ := enrol_of_ne (x := x) heq
    rw [hroom'] at hroom ⊢
    rw [hsock]
    exact h a (by omega) hroom

/-- Nothing is asked of the client that is dismissed. -/
theorem Consistent.dismiss (h : (r.enter c 0).Consistent) : (r.dismiss c).Consistent := by
  intro a ha hroom
  obtain ⟨h1, h2, h3, h4⟩ := r.dismiss_client ha
  have hold : (r.enter c 0).room (SlotArray.skip c a) = r.room (SlotArray.skip c a) :=
    enter_of_ne h2
  rw [h4] at hroom ⊢
  rw [h3, ← hold]
  exact h _ h1 (hold ▸ hroom)

end Roster

/-! ## The roster of a server state -/

/-- The member entries of a game: the seats taken, then the spectators from entry `2` on. -/
def MemberAt (game : Game) (e : Nat) : Prop :=
  e < game.nbPlayers ∨ (2 ≤ e ∧ e < 2 + game.nbSpectators)

instance (game : Game) (e : Nat) : Decidable (MemberAt game e) :=
  inferInstanceAs (Decidable (_ ∨ _))

theorem memberAt_congr {g h : Game} (hplayers : g.nbPlayers = h.nbPlayers)
    (hspec : g.nbSpectators = h.nbSpectators) (e : Nat) : MemberAt g e ↔ MemberAt h e := by
  rw [MemberAt, MemberAt, hplayers, hspec]

def entry (s : Server) (k e : Nat) : Option Int :=
  if Live s k ∧ MemberAt (s.rooms k).game e then some ((s.rooms k).game.players e).id else none

def roster (s : Server) : Roster where
  nbClients := s.nbClients
  sock c := (s.clients c).sock
  room c := (s.clients c).roomId
  nbRooms := s.nbRooms.toNat
  live k := if Live s k then some (s.rooms k).id else none
  entry := entry s

variable {s s' : Server} {c i j : Nat}

theorem entry_eq_some {k e : Nat} {x : Int} :
    entry s k e = some x
      ↔ Live s k ∧ MemberAt (s.rooms k).game e ∧ ((s.rooms k).game.players e).id = x := by
  simp only [entry]
  split
  · rename_i h
    constructor
    · intro heq
      exact ⟨h.1, h.2, Option.some.inj heq⟩
    · rintro ⟨-, -, rfl⟩
      rfl
  · rename_i h
    constructor
    · intro heq
      exact nomatch heq
    · rintro ⟨h1, h2, -⟩
      exact absurd ⟨h1, h2⟩ h

theorem live_eq_some {k : Nat} {id : UInt32} :
    (roster s).live k = some id ↔ Live s k ∧ (s.rooms k).id = id := by
  show (if Live s k then some (s.rooms k).id else none) = some id ↔ _
  split
  · rename_i h
    constructor
    · intro heq
      exact ⟨h, Option.some.inj heq⟩
    · rintro ⟨-, rfl⟩
      rfl
  · rename_i h
    constructor
    · intro heq
      exact nomatch heq
    · rintro ⟨h1, -⟩
      exact absurd h1 h

theorem live_of_le {k : Nat} (hk : (roster s).nbRooms ≤ k) : (roster s).live k = none := by
  refine if_neg ?_
  rw [live_iff]
  exact Nat.not_lt.mpr hk

theorem entry_none_of_le {k e : Nat} (hk : (roster s).nbRooms ≤ k) : entry s k e = none := by
  refine if_neg ?_
  rintro ⟨hlive, -⟩
  exact Nat.not_lt.mpr hk (live_iff.mp hlive)

/-! ### Where a socket stands -/

/-- Every live member entry that holds `x` satisfies `P`. -/
def InOnly (s : Server) (x : Int) (P : Nat → Nat → Prop) : Prop :=
  ∀ k < s.nbRooms.toNat, ∀ e < (s.rooms k).game.nbPlayers + (2 + (s.rooms k).game.nbSpectators),
    entry s k e = some x → P k e

/-- The bounds in `InOnly` are there to let it be evaluated. -/
theorem inOnly_iff {x : Int} {P : Nat → Nat → Prop} :
    InOnly s x P ↔ ∀ k e, entry s k e = some x → P k e := by
  constructor
  · intro h k e he
    obtain ⟨hlive, hmem, -⟩ := entry_eq_some.mp he
    simp only [MemberAt] at hmem
    exact h k (live_iff.mp hlive) e (by omega) he
  · intro h k _ e _ he
    exact h k e he

instance (s : Server) (x : Int) (P : Nat → Nat → Prop) [∀ k e, Decidable (P k e)] :
    Decidable (InOnly s x P) :=
  inferInstanceAs (Decidable (∀ k < s.nbRooms.toNat, ∀ e < _ + _, _ → _))

/-- No live member entry holds `x`. -/
def Nowhere (s : Server) (x : Int) : Prop := InOnly s x fun _ _ => False

/-- At most one live member entry holds `x`. -/
def Once (s : Server) (x : Int) : Prop :=
  InOnly s x fun k e => InOnly s x fun k' e' => k = k' ∧ e = e'

instance (s : Server) (x : Int) : Decidable (Nowhere s x) :=
  inferInstanceAs (Decidable (InOnly s x fun _ _ => False))

instance (s : Server) (x : Int) : Decidable (Once s x) :=
  inferInstanceAs (Decidable (InOnly s x fun k e => InOnly s x fun k' e' => k = k' ∧ e = e'))

/-! ### The updates of the handlers -/

/-- The roster does not look at names, biographies or the buffer. -/
theorem roster_setClient {client : Client} (hsock : client.sock = (s.clients c).sock)
    (hroom : client.roomId = (s.clients c).roomId) :
    roster (setClient s c client) = roster s := by
  refine Roster.ext rfl ?_ ?_ rfl rfl rfl
  · funext a
    exact setClient_field Client.sock hsock a
  · funext a
    exact setClient_field Client.roomId hroom a

theorem roster_rename (s : Server) (c : Nat) (name : CString) :
    roster (setClient s c { s.clients c with name := name }) = roster s :=
  roster_setClient rfl rfl

theorem roster_describe (s : Server) (c : Nat) (biography : CString) :
    roster (setClient s c { s.clients c with biography := biography }) = roster s :=
  roster_setClient rfl rfl

theorem roster_setRoomId (s : Server) (c : Nat) (id : UInt32) :
    roster (setRoomId s c id) = (roster s).enter c id := by
  refine Roster.ext rfl ?_ ?_ rfl rfl rfl
  · funext a
    exact setRoomId_sock s c id a
  · funext a
    show ((setClient s c _).clients a).roomId = ((roster s).enter c id).room a
    by_cases h : a = c
    · rw [h, setClient_self, Roster.enter_self]
    · rw [setClient_of_ne h, Roster.enter_of_ne h]
      rfl

/-- Rewriting the game of one slot shows in the entries of that slot only. -/
theorem roster_setGame {game : Game} {w : Nat → Nat → Option Int}
    (hself : ∀ e, w i e
      = if Live s i ∧ MemberAt game e then some (game.players e).id else none)
    (hother : ∀ k, k ≠ i → ∀ e, w k e = entry s k e) :
    roster (setGame s i game) = { roster s with entry := w } := by
  refine Roster.ext rfl rfl rfl rfl ?_ ?_
  · funext k
    show (if Live s k then some ((setGame s i game).rooms k).id else none)
      = if Live s k then some (s.rooms k).id else none
    rw [setGame_id]
  · funext k e
    show (if Live s k ∧ MemberAt ((setGame s i game).rooms k).game e then
      some (((setGame s i game).rooms k).game.players e).id else none) = w k e
    by_cases h : k = i
    · rw [h, setGame_self, hself]
    · rw [setGame_of_ne h, hother k h]
      rfl

/-- A slot that is not in use has no entries. -/
theorem roster_setGame_dead {game : Game} (hi : ¬ Live s i) :
    roster (setGame s i game) = roster s := by
  refine roster_setGame (w := entry s) ?_ (fun _ _ _ => rfl)
  intro e
  rw [if_neg (fun h => hi h.1)]
  exact if_neg fun h => hi h.1

/-- A game with the same members. -/
theorem roster_setGame_same {game : Game}
    (hplayers : game.nbPlayers = (s.rooms i).game.nbPlayers)
    (hspec : game.nbSpectators = (s.rooms i).game.nbSpectators)
    (hid : ∀ e, (game.players e).id = ((s.rooms i).game.players e).id) :
    roster (setGame s i game) = roster s := by
  refine roster_setGame (w := entry s) ?_ (fun _ _ _ => rfl)
  intro e
  simp only [memberAt_congr hplayers hspec, hid]
  rfl

theorem roster_setPlayerId {x : Int} (hi : Live s i) (hj : MemberAt (s.rooms i).game j) :
    roster (setGame s i (setPlayerId (s.rooms i).game j x))
      = (roster s).put i j (some x) := by
  refine roster_setGame ?_ ?_
  · intro e
    show (if i = i ∧ e = j then some x else entry s i e)
      = if Live s i ∧ MemberAt (s.rooms i).game e then
          some (Function.update (s.rooms i).game.players j _ e).id else none
    by_cases h : e = j
    · rw [if_pos ⟨rfl, h⟩, h, if_pos ⟨hi, hj⟩, Function.update_self]
    · rw [if_neg (fun hk => h hk.2), Function.update_of_ne h]
      rfl
  · intro k hk e
    exact if_neg fun h => hk h.1

/-- A reconnection writes the seat it takes. -/
theorem roster_reseated {name : CString} (hi : Live s i) (hj : j < (s.rooms i).game.nbPlayers) :
    roster (reseated s c name i j)
      = ((roster s).put i j (some (s.clients c).sock)).enter c (s.rooms i).id := by
  rw [reseated, roster_setRoomId]
  congr 1
  refine (roster_setPlayerId (s := setClient s c { s.clients c with name := name })
    hi (Or.inl hj)).trans ?_
  rw [roster_rename]

/-- A move changes no member. -/
theorem roster_played (s : Server) (c i : Nat) (pos : UInt8) :
    roster (setGame s i (playIn s c i pos).1) = roster s := by
  obtain ⟨h1, h2, -, h4⟩ := play_frame s c i pos
  exact roster_setGame_same h1 h2 fun e => (h4 e).1

/-- The entry a join fills was no member's. -/
theorem addIndex_not_member {game : Game} (h : game.nbPlayers ≤ 2) {spectate : UInt8}
    (hopen : JoinOpen game spectate) : ¬ MemberAt game (addIndex game (spectate ≠ 0)) := by
  have hfull := hopen.1
  simp only [MemberAt, addIndex]
  by_cases hsp : spectate = 0
  · have hlt : ¬ game.nbPlayers ≥ 2 := fun hge => hfull (Or.inl ⟨hsp, hge⟩)
    simp only [hsp, ne_eq, not_true_eq_false, decide_false, Bool.false_eq_true, if_false]
    omega
  · simp only [hsp, ne_eq, not_false_eq_true, decide_true, if_true]
    omega

/-- The entry a join fills becomes a member's. -/
theorem memberAt_added {game : Game} (player : Player)
    {spectate : UInt8} (hopen : JoinOpen game spectate) (e : Nat) :
    MemberAt (gameAddPlayer game player (spectate ≠ 0)) e
      ↔ MemberAt game e ∨ e = addIndex game (spectate ≠ 0) := by
  have hfull := hopen.1
  simp only [MemberAt, addIndex, gameAddPlayer]
  by_cases hsp : spectate = 0
  · have hlt : ¬ game.nbPlayers ≥ 2 := fun hge => hfull (Or.inl ⟨hsp, hge⟩)
    simp only [hsp, ne_eq, not_true_eq_false, decide_false, Bool.false_eq_true, if_false]
    omega
  · simp only [hsp, ne_eq, not_false_eq_true, decide_true, if_true]
    omega

/-- A join, started or not. -/
theorem roster_joined {roomId : UInt32} {spectate : UInt8} {game : Game} (hi : Live s i)
    (hopen : JoinOpen (s.rooms i).game spectate)
    (h1 : game.nbPlayers = (joinedGame s c i spectate).nbPlayers)
    (h2 : game.nbSpectators = (joinedGame s c i spectate).nbSpectators)
    (h3 : game.players = (joinedGame s c i spectate).players) :
    roster (setRoomId (setGame s i game) c roomId)
      = ((roster s).put i (addIndex (s.rooms i).game (spectate ≠ 0))
          (some (s.clients c).sock)).enter c roomId := by
  rw [roster_setRoomId]
  congr 1
  have hmem : ∀ e, MemberAt game e
      ↔ MemberAt (s.rooms i).game e ∨ e = addIndex (s.rooms i).game (spectate ≠ 0) := by
    intro e
    rw [← memberAt_added (newPlayer s c) hopen e]
    exact memberAt_congr h1 h2 e
  refine roster_setGame ?_ ?_
  · intro e
    show (if i = i ∧ e = addIndex (s.rooms i).game (spectate ≠ 0) then
        some (s.clients c).sock else entry s i e) = _
    rw [h3]
    show _ = if Live s i ∧ MemberAt game e then
      some (Function.update (s.rooms i).game.players
        (addIndex (s.rooms i).game (spectate ≠ 0)) _ e).id else none
    by_cases h : e = addIndex (s.rooms i).game (spectate ≠ 0)
    · rw [if_pos ⟨rfl, h⟩, if_pos ⟨hi, (hmem e).mpr (Or.inr h)⟩, h, Function.update_self]
      rfl
    · rw [if_neg (fun hk => h hk.2), Function.update_of_ne h]
      have hiff : MemberAt game e ↔ MemberAt (s.rooms i).game e := by
        rw [hmem e]
        exact or_iff_left h
      simp only [hiff]
      rfl
  · intro k hk e
    exact if_neg fun h => hk h.1

theorem roster_created {rand : UInt32} (h0 : 0 ≤ s.nbRooms) :
    roster (created s c rand)
      = (((roster s).launch rand).put s.nbRooms.toNat 0
          (some (s.clients c).sock)).enter c rand := by
  have hlive : ∀ k, Live (created s c rand) k ↔ k = s.nbRooms.toNat ∨ Live s k := by
    intro k
    show (k : Int) < s.nbRooms + 1 ↔ k = s.nbRooms.toNat ∨ (k : Int) < s.nbRooms
    omega
  have hdead := not_live_end s
  have hsock : (roster (setRoomId s c rand)).sock = (roster s).sock := by
    rw [roster_setRoomId]
    rfl
  have hroom : (roster (setRoomId s c rand)).room = ((roster s).enter c rand).room := by
    rw [roster_setRoomId]
  refine Roster.ext rfl hsock hroom ?_ ?_ ?_
  · show (s.nbRooms + 1).toNat = s.nbRooms.toNat + 1
    omega
  · funext k
    show (if Live (created s c rand) k then
        some (Function.update s.rooms s.nbRooms.toNat (newRoom s c rand) k).id else none)
      = if k = s.nbRooms.toNat then some rand
        else if Live s k then some (s.rooms k).id else none
    by_cases hk : k = s.nbRooms.toNat
    · rw [if_pos ((hlive k).mpr (Or.inl hk)), if_pos hk, hk, Function.update_self]
      rfl
    · rw [if_neg hk, Function.update_of_ne hk]
      simp only [hlive, hk, false_or]
  · funext k e
    show (if Live (created s c rand) k
          ∧ MemberAt (Function.update s.rooms s.nbRooms.toNat (newRoom s c rand) k).game e then
        some ((Function.update s.rooms s.nbRooms.toNat
          (newRoom s c rand) k).game.players e).id else none)
      = if k = s.nbRooms.toNat ∧ e = 0 then some (s.clients c).sock else entry s k e
    by_cases hk : k = s.nbRooms.toNat
    · have hmem : MemberAt (newRoom s c rand).game e ↔ e = 0 := by
        show e < 1 ∨ (2 ≤ e ∧ e < 2 + 0) ↔ e = 0
        omega
      rw [hk, Function.update_self]
      by_cases he : e = 0
      · rw [if_pos ⟨(hlive _).mpr (Or.inl rfl), hmem.mpr he⟩, if_pos ⟨rfl, he⟩, he]
        rfl
      · rw [if_neg (fun h => he (hmem.mp h.2)), if_neg (fun h => he h.2)]
        exact (if_neg fun h => hdead h.1).symm
    · rw [if_neg (fun h : k = s.nbRooms.toNat ∧ e = 0 => hk h.1), Function.update_of_ne hk]
      simp only [hlive, hk, false_or]
      rfl

theorem roster_deleteRoom (s : Server) (i : Nat) :
    roster (deleteRoom s i) = (roster s).close i := by
  have hlive : ∀ k, Live (deleteRoom s i) k ↔ k + 1 < s.nbRooms.toNat := by
    intro k
    show (k : Int) < s.nbRooms - 1 ↔ k + 1 < s.nbRooms.toNat
    omega
  have hroom : ∀ k, k + 1 < s.nbRooms.toNat →
      (deleteRoom s i).rooms k = s.rooms (SlotArray.skip i k)
        ∧ Live s (SlotArray.skip i k) := by
    intro k hk
    obtain ⟨hold, hshift⟩ := live_deleteRoom ((hlive k).mpr hk)
    exact ⟨hshift, hold⟩
  refine Roster.ext rfl rfl rfl ?_ ?_ ?_
  · show (s.nbRooms - 1).toNat = s.nbRooms.toNat - 1
    omega
  · funext k
    show (if Live (deleteRoom s i) k then some ((deleteRoom s i).rooms k).id else none)
      = if k + 1 < s.nbRooms.toNat then (roster s).live (SlotArray.skip i k) else none
    by_cases hk : k + 1 < s.nbRooms.toNat
    · obtain ⟨h1, h2⟩ := hroom k hk
      rw [if_pos ((hlive k).mpr hk), if_pos hk, h1]
      exact (if_pos h2).symm
    · rw [if_neg (fun h => hk ((hlive k).mp h)), if_neg hk]
  · funext k e
    show (if Live (deleteRoom s i) k ∧ MemberAt ((deleteRoom s i).rooms k).game e then
        some (((deleteRoom s i).rooms k).game.players e).id else none)
      = if k + 1 < s.nbRooms.toNat then entry s (SlotArray.skip i k) e else none
    by_cases hk : k + 1 < s.nbRooms.toNat
    · obtain ⟨h1, h2⟩ := hroom k hk
      rw [if_pos hk, h1]
      simp only [(hlive k).mpr hk, true_and]
      simp only [entry, h2, true_and]
    · rw [if_neg (fun h => hk ((hlive k).mp h.1)), if_neg hk]

/-- The removal of spectator `j`: its entry takes the socket of entry `nb_spectators - 1`, and
    the last spectator entry is dropped. -/
theorem roster_removeSpectator (hi : Live s i) (hseats : (s.rooms i).game.nbPlayers ≤ 2)
    (hj : j < (s.rooms i).game.nbSpectators) :
    roster (setGame s i (removeSpectator (s.rooms i).game j))
      = ((roster s).put i (j + 2)
          (some ((s.rooms i).game.players ((s.rooms i).game.nbSpectators - 1)).id)).put i
          ((s.rooms i).game.nbSpectators + 1) none := by
  refine roster_setGame ?_ ?_
  · intro e
    show (if i = i ∧ e = (s.rooms i).game.nbSpectators + 1 then none
        else if i = i ∧ e = j + 2 then
          some ((s.rooms i).game.players ((s.rooms i).game.nbSpectators - 1)).id
        else entry s i e)
      = if Live s i ∧ (e < (s.rooms i).game.nbPlayers
            ∨ (2 ≤ e ∧ e < 2 + ((s.rooms i).game.nbSpectators - 1))) then
          some (Function.update (s.rooms i).game.players (j + 2) _ e).id else none
    by_cases hlast : e = (s.rooms i).game.nbSpectators + 1
    · rw [if_pos ⟨rfl, hlast⟩, if_neg (by rintro ⟨-, h⟩; omega)]
    · rw [if_neg (fun h => hlast h.2)]
      by_cases he : e = j + 2
      · rw [if_pos ⟨rfl, he⟩, if_pos ⟨hi, by omega⟩, he, Function.update_self]
      · rw [if_neg (fun h => he h.2), Function.update_of_ne he]
        have hiff : (e < (s.rooms i).game.nbPlayers
            ∨ (2 ≤ e ∧ e < 2 + ((s.rooms i).game.nbSpectators - 1)))
            ↔ MemberAt (s.rooms i).game e := by
          simp only [MemberAt]
          omega
        simp only [hiff]
        rfl
  · intro k hk e
    show (if k = i ∧ _ then none else if k = i ∧ _ then _ else entry s k e) = _
    rw [if_neg (fun h => hk h.1), if_neg (fun h => hk h.1)]

theorem roster_accepted (s : Server) (csock : Int) :
    roster (accepted s csock) = (roster s).enrol csock := by
  refine Roster.ext rfl ?_ ?_ rfl rfl rfl
  · funext a
    show ((setClient s s.nbClients _).clients a).sock = ((roster s).enrol csock).sock a
    by_cases h : a = s.nbClients
    · rw [h, setClient_self]
      exact (Roster.enrol_self (roster s) csock).1.symm
    · rw [setClient_of_ne h, (Roster.enrol_of_ne (r := roster s) h).1]
      rfl
  · funext a
    show ((setClient s s.nbClients _).clients a).roomId = ((roster s).enrol csock).room a
    by_cases h : a = s.nbClients
    · rw [h, setClient_self]
      exact (Roster.enrol_self (roster s) csock).2.symm
    · rw [setClient_of_ne h, (Roster.enrol_of_ne (r := roster s) h).2]
      rfl

theorem roster_removeClient (s : Server) (c : Nat) :
    roster (removeClient s c) = (roster s).dismiss c := by
  refine Roster.ext rfl ?_ ?_ rfl rfl rfl
  · funext a
    show (SlotArray.shiftDown s.clients c (s.nbClients - 1) a).sock
      = SlotArray.shiftDown (fun a => (s.clients a).sock) c (s.nbClients - 1) a
    rw [SlotArray.shiftDown_apply, SlotArray.shiftDown_apply]
    split <;> rfl
  · funext a
    show (SlotArray.shiftDown s.clients c (s.nbClients - 1) a).roomId
      = SlotArray.shiftDown (fun a => (s.clients a).roomId) c (s.nbClients - 1) a
    rw [SlotArray.shiftDown_apply, SlotArray.shiftDown_apply]
    split <;> rfl

/-- **What a request does to the roster.**  The tests of the branch that was taken stand
    with it, as far as the conditions of later modules speak of them. -/
inductive Transfer (s : Server) (c : Nat) (rand : UInt32) : Request → Roster → Prop where
  | keep {q : Request} : Transfer s c rand q (roster s)
  | seat {name : CString} {i j : Nat} : nameInUse s name = false →
      findSeat s name = some (i, j) →
      Transfer s c rand (.connect name)
        (((roster s).put i j (some (s.clients c).sock)).enter c (s.rooms i).id)
  | launch : 0 ≤ s.nbRooms →
      Transfer s c rand .createRoom
        ((((roster s).launch rand).put s.nbRooms.toNat 0
          (some (s.clients c).sock)).enter c rand)
  | join {roomId : UInt32} {spectate : UInt8} {i : Nat} : findRoom s roomId = some i →
      JoinOpen (s.rooms i).game spectate →
      Transfer s c rand (.joinRoom roomId spectate)
        (((roster s).put i (addIndex (s.rooms i).game (spectate ≠ 0))
          (some (s.clients c).sock)).enter c roomId)
  | finish {pos : UInt8} {i : Nat} : findRoom s (s.clients c).roomId = some i →
      gameIsEnded (playIn s c i pos).1 ≠ .notEnded →
      Transfer s c rand (.play pos) ((roster s).close i)
  | shut {i j : Nat} : targetRoom s (s.clients c).roomId = i →
      findPlayer (s.rooms i).game (s.clients c).sock = some j →
      Transfer s c rand .leaveRoom (((roster s).enter c 0).close i)
  | unwatch {i j : Nat} : findRoom s (s.clients c).roomId = some i →
      findPlayer (s.rooms i).game (s.clients c).sock = none →
      findSpectator (s.rooms i).game (s.clients c).sock = some j →
      Transfer s c rand .leaveRoom
        ((((roster s).enter c 0).put i (j + 2)
          (some ((s.rooms i).game.players ((s.rooms i).game.nbSpectators - 1)).id)).put i
          ((s.rooms i).game.nbSpectators + 1) none)
  | leave : Transfer s c rand .leaveRoom ((roster s).enter c 0)

/-- **REFINEMENT.**  Every handler acts on the roster in one of these ways. -/
theorem transfer {rand : UInt32} {q : Request} {out : List Sent}
    (hseats : ∀ k, (s.rooms k).game.nbPlayers ≤ 2) (h : Effect s c rand q s' out) :
    Transfer s c rand q (roster s') := by
  cases h with
  | nameRefused _ => exact .keep
  | named _ _ =>
      rw [roster_rename]
      exact .keep
  | @resumed name i j m hfree hseat _ =>
      obtain ⟨hi, hj, -⟩ := findSeat_some hseat
      rw [roster_reseated hi hj]
      exact .seat hfree hseat
  | created h0 _ =>
      rw [roster_created h0]
      exact .launch h0
  | joinNotFound _ => exact .keep
  | joinFull _ _ => exact .keep
  | joined hfind hopen _ _ =>
      rw [joined, roster_joined (findRoom_eq_some.mp hfind).1 hopen rfl rfl rfl]
      exact .join hfind hopen
  | @started roomId spectate i frame hfind hopen _ _ =>
      have hroster : roster (setRoomId (setGame s i
          { joinedGame s c i spectate with isStarted := true }) c roomId) = _ :=
        roster_joined (findRoom_eq_some.mp hfind).1 hopen rfl rfl rfl
      rw [setGame_joined, hroster]
      exact .join hfind hopen
  | playedNowhere _ => exact .keep
  | played _ _ =>
      rw [roster_played]
      exact .keep
  | playedLast hfind hend =>
      rw [roster_deleteRoom, roster_played]
      exact .finish hfind hend
  | closed hi _ _ hp =>
      rw [roster_deleteRoom, roster_setRoomId]
      exact .shut hi hp
  | @unwatched i j hi _ _ hp hw =>
      rcases targetRoom_cases s (s.clients c).roomId with hfind | ⟨-, htarget⟩
      · rw [hi] at hfind
        have hroster := roster_removeSpectator (s := setRoomId s c 0)
          (findRoom_eq_some.mp hfind).1 (hseats i) (findSpectator_eq_some.mp hw).1
        rw [roster_setRoomId] at hroster
        have heq : setGame (setRoomId s c 0) i (removeSpectator (s.rooms i).game j)
            = setGame (setRoomId s c 0) i
              (removeSpectator ((setRoomId s c 0).rooms i).game j) := rfl
        rw [heq, hroster]
        exact .unwatch hfind hp hw
      · -- the slot behind the last room has no entries
        have hdead : ¬ Live (setRoomId s c 0) i := by
          show ¬ (i : Int) < s.nbRooms
          omega
        rw [roster_setGame_dead hdead, roster_setRoomId]
        exact .leave
  | leftNothing _ _ _ _ _ =>
      rw [roster_setRoomId]
      exact .leave
  | messaged _ _ => exact .keep
  | described =>
      rw [roster_describe]
      exact .keep

/-! ## Properties of every run -/

variable {g : Guard}

/-- At most two seats are taken, in every slot of every reachable state. -/
theorem seats_reachable (s : Server) (h : Reachable g.meets s) (k : Nat) :
    (s.rooms k).game.nbPlayers ≤ 2 :=
  (sized_reachable h k).seats

theorem roster_disconnect_clients {s₁ : Server} (h : disconnectUser s c = .ok s₁) :
    (roster s₁).nbClients = (roster s).nbClients ∧ (roster s₁).sock = (roster s).sock
      ∧ (roster s₁).room = (roster s).room := by
  obtain ⟨h1, h2, -⟩ := disconnectUser_frame h
  refine ⟨h2, ?_, ?_⟩
  · funext a
    show (s₁.clients a).sock = (s.clients a).sock
    rw [h1]
  · funext a
    show (s₁.clients a).roomId = (s.clients a).roomId
    rw [h1]

/-- Connected sockets are positive and pairwise different, whatever the clients send. -/
theorem distinct_reachable (h : Reachable g.meets s) : (roster s).Distinct := by
  refine Guard.invariant_with (J := fun s => ∀ k, (s.rooms k).game.nbPlayers ≤ 2)
    (I := fun s => (roster s).Distinct) seats_reachable (fun _ _ h => h) ?_ ?_ ?_ ?_ ?_ h
  · intro b a ha
    exact absurd ha (Nat.not_lt_zero a)
  · intro t b ht
    exact ht
  · intro t csock _ ht _ _ hnew hpos
    rw [roster_accepted]
    exact Roster.distinct_enrol ht hpos hnew
  · intro t c rand q t' out hseats ht _ _ heff
    have htransfer := transfer hseats heff
    generalize roster t' = r at htransfer ⊢
    cases htransfer <;> exact ht
  · intro t c t₁ _ ht _ _ hd
    obtain ⟨h1, h2, -⟩ := roster_disconnect_clients hd
    rw [roster_removeClient]
    refine Roster.distinct_dismiss ?_
    simp only [Roster.Distinct]
    rw [h1, h2]
    exact ht

/-- A connected client's socket is not the mark of a vacant entry. -/
theorem connected_reachable (h : Reachable g.meets s) {a : Nat} (ha : a < s.nbClients) :
    (s.clients a).sock ≠ -1 := by
  have hpos : 0 < (s.clients a).sock := (distinct_reachable h a ha).1
  omega

/-- Every live room has a player in seat `0`. -/
theorem founded_reachable (h : Reachable g.meets s) :
    ∀ k, Live s k → 0 < (s.rooms k).game.nbPlayers := by
  refine Guard.invariant (I := fun s => ∀ k, Live s k → 0 < (s.rooms k).game.nbPlayers)
    ?_ ?_ ?_ ?_ ?_ h
  · intro b k hk
    have hk' : (k : Int) < 0 := hk
    omega
  · intro t b ht
    exact ht
  · intro t csock ht _ _ _ _
    exact ht
  · intro t c rand q t' out ht _ _ heff
    -- the slot written, if any, keeps or gains players
    have hset : ∀ i (room : Room), 0 < room.game.nbPlayers → ∀ k, Live t k →
        0 < ((setRoom t i room).rooms k).game.nbPlayers :=
      fun i room hpos => setRoom_slots (P := fun k game => Live t k → 0 < game.nbPlayers)
        (fun k _ => ht k) fun _ => hpos
    have hdel : ∀ (u : Server) i, u.nbRooms = t.nbRooms →
        (∀ k, Live t k → 0 < (u.rooms k).game.nbPlayers) →
        ∀ k, Live (deleteRoom u i) k → 0 < ((deleteRoom u i).rooms k).game.nbPlayers := by
      intro u i hnb hu k hk
      obtain ⟨hlive, hroom⟩ := live_deleteRoom hk
      rw [hroom]
      exact hu _ ((live_congr hnb _).mp hlive)
    have hjoin : ∀ c i spectate, Live t i → 0 < (joinedGame t c i spectate).nbPlayers := by
      intro c i spectate hi
      have hpos := ht i hi
      show 0 < if (spectate ≠ 0 : Bool) then (t.rooms i).game.nbPlayers
        else (t.rooms i).game.nbPlayers + 1
      split <;> omega
    have hplay : ∀ c i pos, Live t i → 0 < (playIn t c i pos).1.nbPlayers := by
      intro c i pos hi
      rw [(play_frame t c i pos).1]
      exact ht i hi
    cases heff with
    | nameRefused _ => exact ht
    | named _ _ => exact ht
    | resumed _ hseat _ => exact hset _ _ (ht _ (findSeat_some hseat).1)
    | created h0 _ =>
        exact setRoom_slots (s := t)
          (P := fun k game => Live (created t c rand) k → 0 < game.nbPlayers)
          (fun k hki hk => ht k (live_of_lt_succ hk hki)) fun _ => Nat.zero_lt_one
    | joinNotFound _ => exact ht
    | joinFull _ _ => exact ht
    | joined hfind _ _ _ => exact hset _ _ (hjoin c _ _ (findRoom_eq_some.mp hfind).1)
    | started hfind _ _ _ =>
        rw [setGame_joined]
        exact hset _ _ (hjoin c _ _ (findRoom_eq_some.mp hfind).1)
    | playedNowhere _ => exact ht
    | played hfind _ => exact hset _ _ (hplay c _ _ (findRoom_eq_some.mp hfind).1)
    | playedLast hfind _ =>
        exact hdel _ _ rfl (hset _ _ (hplay c _ _ (findRoom_eq_some.mp hfind).1))
    | closed _ _ _ _ => exact hdel (setRoomId t c 0) _ rfl ht
    | @unwatched i j _ _ _ _ _ =>
        exact setGame_slots (s := setRoomId t c 0)
          (P := fun k game => Live t k → 0 < game.nbPlayers) (fun k _ => ht k) (ht i)
    | leftNothing _ _ _ _ _ => exact ht
    | messaged _ _ => exact ht
    | described => exact ht
  · -- neither loop of `disconnect_user` counts `nb_players` down
    intro t c t₁ ht _ _ hd
    refine (disconnectUser_invariant
      (I := fun u => u.nbRooms = t.nbRooms ∧ ∀ k, Live u k → 0 < (u.rooms k).game.nbPlayers)
      (fun u hu => hu.1) ?_ ?_ ⟨rfl, ht⟩ rfl rfl hd).2
    · intro u i j hu _ _ _
      exact ⟨hu.1, setGame_slots (P := fun k game => Live u k → 0 < game.nbPlayers)
        (fun k _ => hu.2 k) (hu.2 i)⟩
    · intro u i j hu _ _ _ _
      exact ⟨hu.1, setGame_slots (P := fun k game => Live u k → 0 < game.nbPlayers)
        (fun k _ => hu.2 k) (hu.2 i)⟩

/-! ## `disconnect_user` -/

/-- No room the client believes to be in lists it as a player. -/
def NoSeat (s : Server) (c : Nat) : Prop :=
  ∀ i < s.nbRooms.toNat, (s.rooms i).id = (s.clients c).roomId →
    findPlayer (s.rooms i).game (s.clients c).sock = none

/-- The seat the loops stop at: in the first such room that lists the client as a player. -/
def SeatFound (s : Server) (c i j : Nat) : Prop :=
  i < s.nbRooms.toNat ∧ (s.rooms i).id = (s.clients c).roomId
    ∧ findPlayer (s.rooms i).game (s.clients c).sock = some j
    ∧ ∀ k < i, (s.rooms k).id = (s.clients c).roomId →
        findPlayer (s.rooms k).game (s.clients c).sock = none

/-- The spectator loop for room `i` finds the client's socket at index `j`: in entry `2 + j` of
    room `j`. -/
def Hit (s : Server) (c i j : Nat) : Prop :=
  i < s.nbRooms.toNat ∧ (s.rooms i).id = (s.clients c).roomId
    ∧ (∀ k < i + 1, (s.rooms k).id = (s.clients c).roomId →
        findPlayer (s.rooms k).game (s.clients c).sock = none)
    ∧ j < (s.rooms i).game.nbSpectators
    ∧ ((s.rooms j).game.players (2 + j)).id = (s.clients c).sock

theorem NoSeat.not_found (h : NoSeat s c) : ¬ SeatFound s c i j := by
  rintro ⟨h1, h2, h3, -⟩
  rw [h i h1 h2] at h3
  exact nomatch h3

/-- The spectator loops find the client's socket nowhere else. -/
def OnlyHit (s : Server) (c i j : Nat) : Prop :=
  ∀ i' < s.nbRooms.toNat, ∀ j' < (s.rooms i').game.nbSpectators,
    Hit s c i' j' → i' = i ∧ j' = j

/-- The spectator loops find nothing, or one entry, which is the last of its room, and whose
    copy does not bring the socket back. -/
def ScanMeets (s : Server) (c : Nat) : Prop :=
  ∀ i < s.nbRooms.toNat, ∀ j < (s.rooms i).game.nbSpectators, Hit s c i j →
    NoSeat s c ∧ j + 1 = (s.rooms i).game.nbSpectators
      ∧ ((s.rooms i).game.players j).id ≠ (s.clients c).sock ∧ OnlyHit s c i j

instance (s : Server) (c : Nat) : Decidable (NoSeat s c) :=
  inferInstanceAs (Decidable (∀ i < s.nbRooms.toNat, _ → _))

instance (s : Server) (c i j : Nat) : Decidable (SeatFound s c i j) :=
  inferInstanceAs (Decidable (_ ∧ _ ∧ _ ∧ ∀ k < i, _ → _))

instance (s : Server) (c i j : Nat) : Decidable (Hit s c i j) :=
  inferInstanceAs (Decidable (_ ∧ _ ∧ (∀ k < i + 1, _ → _) ∧ _ ∧ _))

instance (s : Server) (c i j : Nat) : Decidable (OnlyHit s c i j) :=
  inferInstanceAs (Decidable
    (∀ i' < s.nbRooms.toNat, ∀ j' < (s.rooms i').game.nbSpectators, _ → _ ∧ _))

instance (s : Server) (c : Nat) : Decidable (ScanMeets s c) :=
  inferInstanceAs (Decidable
    (∀ i < s.nbRooms.toNat, ∀ j < (s.rooms i).game.nbSpectators, _ → _ ∧ _ ∧ _ ∧ _))

/-- What `disconnect_user` leaves behind. -/
inductive Detached (s : Server) (c : Nat) : Server → Prop where
  | seat {i j : Nat} : SeatFound s c i j →
      Detached s c (setGame s i (setPlayerId (s.rooms i).game j (-1)))
  | spectator {i j : Nat} : NoSeat s c → Hit s c i j →
      j + 1 = (s.rooms i).game.nbSpectators →
      Detached s c (setGame s i (removeSpectator (s.rooms i).game j))
  | absent : NoSeat s c → (∀ i j, ¬ Hit s c i j) → Detached s c s

section Scan

variable {sock : Int} {s₁ : Server}

private theorem dropSpectators_quiet {i : Nat}
    (hq : ∀ j < (s.rooms i).game.nbSpectators, ((s.rooms j).game.players (2 + j)).id ≠ sock)
    (h : dropSpectators sock i (s.rooms i).game.nbSpectators 0 s = .ok s₁) : s₁ = s := by
  rcases dropSpectators_cases _ 0 (by omega) h with ⟨hsame, -⟩ | ⟨j, -, -, hj, hhit, -⟩
  · exact hsame
  · exact absurd hhit (hq j hj)

/-- The loop meets the socket at the last index only. -/
private theorem dropSpectators_last {i j₀ : Nat}
    (hlast : j₀ + 1 = (s.rooms i).game.nbSpectators)
    (hhit : ((s.rooms j₀).game.players (2 + j₀)).id = sock)
    (hq : ∀ j < j₀, ((s.rooms j).game.players (2 + j)).id ≠ sock)
    (h : dropSpectators sock i (s.rooms i).game.nbSpectators 0 s = .ok s₁) :
    s₁ = setGame s i (removeSpectator (s.rooms i).game j₀) := by
  rcases dropSpectators_cases _ 0 (by omega) h with
    ⟨-, hquiet⟩ | ⟨j, fuel, -, hj, hhit', -, -, -, hrest⟩
  · exact absurd hhit (hquiet j₀ (Nat.zero_le j₀) (by omega)).2
  · obtain rfl : j = j₀ := by
      by_contra hne
      exact hq j (by omega) hhit'
    -- the count shrank under the loop, which is over
    have hcount : ((setGame s i (removeSpectator (s.rooms i).game j)).rooms i).game.nbSpectators
        ≤ j + 1 := by
      rw [setGame_self]
      show (s.rooms i).game.nbSpectators - 1 ≤ j + 1
      omega
    rw [dropSpectators_end fuel hcount] at hrest
    exact (Except.ok.inj hrest).symm

private theorem disconnectRooms_quiet (hq : ∀ i j, ¬ Hit s c i j) :
    ∀ (n a : Nat), a + n = s.nbRooms.toNat →
      (∀ k < a, (s.rooms k).id = (s.clients c).roomId →
        findPlayer (s.rooms k).game (s.clients c).sock = none) →
      disconnectRooms (s.clients c).sock (s.clients c).roomId (List.range' a n) s = .ok s₁ →
      (∃ i j, SeatFound s c i j ∧ s₁ = setGame s i (setPlayerId (s.rooms i).game j (-1)))
        ∨ (NoSeat s c ∧ s₁ = s) := by
  intro n
  induction n with
  | zero =>
      intro a ha hbefore h
      refine Or.inr ⟨?_, (Except.ok.inj h).symm⟩
      intro i hi hid
      exact hbefore i (by omega) hid
  | succ n ih =>
      intro a ha hbefore h
      rw [List.range'_succ] at h
      simp only [disconnectRooms] at h
      by_cases hid : (s.rooms a).id = (s.clients c).roomId
      · rw [if_pos hid] at h
        cases hp : findPlayer (s.rooms a).game (s.clients c).sock with
        | some j =>
            rw [hp] at h
            exact Or.inl ⟨a, j, ⟨by omega, hid, hp, hbefore⟩, (Except.ok.inj h).symm⟩
        | none =>
            rw [hp] at h
            have hupto : ∀ k < a + 1, (s.rooms k).id = (s.clients c).roomId →
                findPlayer (s.rooms k).game (s.clients c).sock = none := by
              intro k hk hidk
              rcases Nat.lt_succ_iff_lt_or_eq.mp hk with hlt | rfl
              · exact hbefore k hlt hidk
              · exact hp
            dsimp only at h
            split at h
            · cases h
            · rename_i s₂ hs₂
              have hsame : s₂ = s := dropSpectators_quiet (fun j hj hread =>
                hq a j ⟨by omega, hid, hupto, hj, hread⟩) hs₂
              rw [hsame] at h
              exact ih (a + 1) (by omega) hupto h
      · rw [if_neg hid] at h
        refine ih (a + 1) (by omega) ?_ h
        intro k hk hidk
        rcases Nat.lt_succ_iff_lt_or_eq.mp hk with hlt | rfl
        · exact hbefore k hlt hidk
        · exact absurd hidk hid

/-- The entry the spectator loop reads, after one removal: only one entry has changed. -/
private theorem removeSpectator_read {i j₀ : Nat} (s : Server) (k e : Nat) :
    (((setGame s i (removeSpectator (s.rooms i).game j₀)).rooms k).game.players e).id
      = if k = i ∧ e = j₀ + 2 then
          ((s.rooms i).game.players ((s.rooms i).game.nbSpectators - 1)).id
        else ((s.rooms k).game.players e).id := by
  by_cases hk : k = i
  · subst hk
    rw [setGame_self]
    show (Function.update (s.rooms k).game.players (j₀ + 2) _ e).id = _
    by_cases he : e = j₀ + 2
    · rw [if_pos ⟨rfl, he⟩, he, Function.update_self]
    · rw [if_neg (fun h => he h.2), Function.update_of_ne he]
  · rw [if_neg (fun h => hk h.1), setGame_of_ne hk]

/-- Removing a spectator leaves the seats, and so the result of `findPlayer`, alone. -/
private theorem findPlayer_removeSpectator {game : Game} (h : game.nbPlayers ≤ 2) (j₀ : Nat)
    (sock : Int) : findPlayer (removeSpectator game j₀) sock = findPlayer game sock := by
  refine findPlayer_congr (by rfl) ?_ sock
  intro j hj
  show (Function.update game.players (j₀ + 2) _ j).id = (game.players j).id
  rw [Function.update_of_ne (by omega)]

private theorem findPlayer_unwatched {i : Nat} (hseats : ∀ k, (s.rooms k).game.nbPlayers ≤ 2)
    (j₀ : Nat) (sock : Int) (k : Nat) :
    findPlayer ((setGame s i (removeSpectator (s.rooms i).game j₀)).rooms k).game sock
      = findPlayer (s.rooms k).game sock :=
  setGame_slots (P := fun k game => findPlayer game sock = findPlayer (s.rooms k).game sock)
    (fun _ _ => rfl) (findPlayer_removeSpectator (hseats i) j₀ sock) k

private theorem NoSeat.unwatched {i : Nat} (hseats : ∀ k, (s.rooms k).game.nbPlayers ≤ 2)
    (h : NoSeat s c) (j₀ : Nat) :
    NoSeat (setGame s i (removeSpectator (s.rooms i).game j₀)) c := by
  intro k hk hid
  rw [setGame_id] at hid
  rw [findPlayer_unwatched hseats]
  exact h k hk hid

private theorem quiet_after {i j₀ : Nat} (hseats : ∀ k, (s.rooms k).game.nbPlayers ≤ 2)
    (hlast : j₀ + 1 = (s.rooms i).game.nbSpectators)
    (hcopy : ((s.rooms i).game.players j₀).id ≠ (s.clients c).sock)
    (honly : ∀ i' j', Hit s c i' j' → i' = i ∧ j' = j₀) (k j : Nat) :
    ¬ Hit (setGame s i (removeSpectator (s.rooms i).game j₀)) c k j := by
  have hcopy' : (s.rooms i).game.nbSpectators - 1 = j₀ := by omega
  rintro ⟨h1, h2, h3, h4, h5⟩
  have h2' : (s.rooms k).id = (s.clients c).roomId := (setGame_id s i _ k).symm.trans h2
  have h3' : ∀ k' < k + 1, (s.rooms k').id = (s.clients c).roomId →
      findPlayer (s.rooms k').game (s.clients c).sock = none := by
    intro k' hk' hid'
    rw [← findPlayer_unwatched (i := i) hseats j₀]
    exact h3 k' hk' ((setGame_id s i _ k').trans hid')
  have h4' : j < (s.rooms k).game.nbSpectators := by
    by_cases hk : k = i
    · subst hk
      rw [setGame_self] at h4
      exact Nat.lt_of_lt_of_le h4 (Nat.sub_le _ _)
    · rw [setGame_of_ne hk] at h4
      exact h4
  rw [removeSpectator_read] at h5
  split at h5
  · -- the rewritten entry holds the copy
    rw [hcopy'] at h5
    exact hcopy h5
  · obtain ⟨rfl, rfl⟩ := honly k j ⟨h1, h2', h3', h4', h5⟩
    rw [setGame_self] at h4
    have hm : j < (s.rooms k).game.nbSpectators - 1 := h4
    omega

private theorem disconnectRooms_hit {i j₀ : Nat} (hseats : ∀ k, (s.rooms k).game.nbPlayers ≤ 2)
    (hno : NoSeat s c) (hhit : Hit s c i j₀)
    (hlast : j₀ + 1 = (s.rooms i).game.nbSpectators)
    (hcopy : ((s.rooms i).game.players j₀).id ≠ (s.clients c).sock)
    (honly : ∀ i' j', Hit s c i' j' → i' = i ∧ j' = j₀) :
    ∀ (n a : Nat), a + n = s.nbRooms.toNat → a ≤ i →
      disconnectRooms (s.clients c).sock (s.clients c).roomId (List.range' a n) s = .ok s₁ →
      s₁ = setGame s i (removeSpectator (s.rooms i).game j₀) := by
  have hlive := hhit.1
  have hupto : ∀ a, a ≤ i → ∀ k < a + 1, (s.rooms k).id = (s.clients c).roomId →
      findPlayer (s.rooms k).game (s.clients c).sock = none :=
    fun a ha k hk hid => hno k (by omega) hid
  -- on the rooms not yet scanned: up to room `i` nothing is found
  intro n
  induction n with
  | zero =>
      intro a ha hle _
      exact absurd ha (by omega)
  | succ n ih =>
      intro a ha hle h
      rw [List.range'_succ] at h
      simp only [disconnectRooms] at h
      by_cases hid : (s.rooms a).id = (s.clients c).roomId
      · rw [if_pos hid, hno a (by omega) hid] at h
        dsimp only at h
        split at h
        · cases h
        · rename_i s₂ hs₂
          rcases Nat.lt_or_eq_of_le hle with hlt | rfl
          · have hsame : s₂ = s := dropSpectators_quiet (fun j hj hread => by
              obtain ⟨rfl, -⟩ := honly a j ⟨by omega, hid, hupto a hle, hj, hread⟩
              exact Nat.lt_irrefl _ hlt) hs₂
            rw [hsame] at h
            exact ih (a + 1) (by omega) hlt h
          · have hgone := dropSpectators_last hlast hhit.2.2.2.2
              (fun j' hj' hread => by
                obtain ⟨-, rfl⟩ := honly a j'
                  ⟨by omega, hid, hupto a hle, by omega, hread⟩
                exact Nat.lt_irrefl _ hj') hs₂
            subst hgone
            -- the rooms that are left are read after the removal
            have hno' := hno.unwatched (i := a) hseats j₀
            have hleft : a + 1 + n = s.nbRooms.toNat := by omega
            rcases disconnectRooms_quiet (quiet_after hseats hlast hcopy honly) n (a + 1) hleft
                (fun k hk => hno' k (Nat.lt_of_lt_of_le hk (by
                  show a + 1 ≤ s.nbRooms.toNat
                  omega))) h with ⟨k, j, hseat, -⟩ | ⟨-, hsame⟩
            · exact absurd hseat hno'.not_found
            · exact hsame
      · rw [if_neg hid] at h
        have hne : a ≠ i := by
          rintro rfl
          exact hid hhit.2.1
        exact ih (a + 1) (by omega) (by omega) h

/-- **DISCONNECTION.**  When the spectator loops find at most the last entry of one room,
    `disconnect_user` clears the first seat found, or drops that entry, or does nothing. -/
theorem detached (hseats : ∀ k, (s.rooms k).game.nbPlayers ≤ 2) (hm : ScanMeets s c)
    (h : disconnectUser s c = .ok s₁) : Detached s c s₁ := by
  have hrun : disconnectRooms (s.clients c).sock (s.clients c).roomId
      (List.range' 0 s.nbRooms.toNat) s = .ok s₁ := by
    rw [← List.range_eq_range']
    exact h
  by_cases hex : ∃ i j, Hit s c i j
  · obtain ⟨i, j, hhit⟩ := hex
    obtain ⟨hno, hlast, hcopy, honly⟩ := hm i hhit.1 j hhit.2.2.2.1 hhit
    have honly' : ∀ i' j', Hit s c i' j' → i' = i ∧ j' = j :=
      fun i' j' h' => honly i' h'.1 j' h'.2.2.2.1 h'
    rw [disconnectRooms_hit hseats hno hhit hlast hcopy honly' _ 0 (Nat.zero_add _)
      (Nat.zero_le i) hrun]
    exact .spectator hno hhit hlast
  · have hq : ∀ i j, ¬ Hit s c i j := fun i j hh => hex ⟨i, j, hh⟩
    rcases disconnectRooms_quiet hq _ 0 (Nat.zero_add _) (fun k hk => absurd hk (by omega))
      hrun with ⟨i, j, hseat, rfl⟩ | ⟨hno, rfl⟩
    · exact .seat hseat
    · exact .absent hno hq

/-- The same on the roster. -/
theorem Detached.roster_eq (hseats : ∀ k, (s.rooms k).game.nbPlayers ≤ 2)
    (h : Detached s c s₁) :
    (∃ i j, SeatFound s c i j ∧ roster s₁ = (roster s).put i j (some (-1)))
      ∨ (∃ i j, NoSeat s c ∧ Hit s c i j ∧ roster s₁ = (roster s).put i (j + 2) none)
      ∨ (NoSeat s c ∧ (∀ i j, ¬ Hit s c i j) ∧ roster s₁ = roster s) := by
  cases h with
  | @seat i j hseat =>
      have hj := (findPlayer_eq_some.mp hseat.2.2.1).1
      have hi : Live s i := live_iff.mpr hseat.1
      exact Or.inl ⟨i, j, hseat, roster_setPlayerId hi (Or.inl hj)⟩
  | @spectator i j hno hhit hlast =>
      have hi : Live s i := live_iff.mpr hhit.1
      refine Or.inr (Or.inl ⟨i, j, hno, hhit, ?_⟩)
      rw [roster_removeSpectator hi (hseats i) hhit.2.2.2.1, ← hlast, Roster.put_put]
  | absent hno hq => exact Or.inr (Or.inr ⟨hno, hq, rfl⟩)

end Scan

end AwaleRoster
