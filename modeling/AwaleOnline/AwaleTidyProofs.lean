import AwaleOnline.AwaleDescriptorProofs

/-!
# A tidy roster

What the rosters of Membership and Descriptor are kept for, in one invariant.

* **`Settled`** — member entries hold connected sockets, each in one place; live rooms have
  different ids; and a client carries the id of a live room exactly if it is a member of it.
  One lemma for each operation of a roster keeps it;
* **`settled_disconnected`** — so does a disconnection whose loops find the client's entry.
-/

namespace AwaleTidy

open AwaleServer AwaleEffect AwaleRoster AwaleDescriptor

/-! ## The invariant -/

structure Settled (r : Roster) : Prop where
  sound : r.Sound
  single : r.Single
  numbered : ∀ k id, r.live k = some id → id ≠ 0 ∧ ∀ k', r.live k' = some id → k' = k
  homed : ∀ a < r.nbClients, ∀ k e, r.entry k e = some (r.sock a) → r.live k = some (r.room a)
  resident : ∀ a < r.nbClients, ∀ k, r.live k = some (r.room a) →
    ∃ e, r.entry k e = some (r.sock a)

/-- A client that is a member of no room. -/
def Absent (r : Roster) (c : Nat) : Prop := ∀ k e, r.entry k e ≠ some (r.sock c)

variable {r : Roster} {c i e : Nat} {id : UInt32} {x : Option Int}

/-- A client in no room takes an entry that no client holds. -/
theorem Settled.seat (h : Settled r) (hd : r.Distinct) (hc : c < r.nbClients)
    (habsent : Absent r c) (hlive : r.live i = some id)
    (hfree : ∀ a < r.nbClients, r.entry i e ≠ some (r.sock a)) :
    Settled ((r.put i e (some (r.sock c))).enter c id) where
  sound := Roster.Sound.put h.sound (Or.inr ⟨c, hc, rfl⟩)
  single := by
    refine Roster.Single.put h.single ?_
    intro a _ hsock k e' he
    exact absurd he (habsent k e')
  numbered := h.numbered
  homed := by
    intro a ha k e' he
    have he' : (if k = i ∧ e' = e then some (r.sock c) else r.entry k e') = some (r.sock a) := he
    split at he'
    · rename_i hke
      obtain rfl : a = c := ((hd c hc).2 a ha (Option.some.inj he')).symm
      rw [Roster.enter_self, hke.1]
      exact hlive
    · have hac : a ≠ c := by
        rintro rfl
        exact habsent k e' he'
      rw [Roster.enter_of_ne hac]
      exact h.homed a ha k e' he'
  resident := by
    intro a ha k hk
    show ∃ e', (if k = i ∧ e' = e then some (r.sock c) else r.entry k e') = some (r.sock a)
    by_cases hac : a = c
    · subst hac
      rw [Roster.enter_self] at hk
      exact ⟨e, if_pos ⟨(h.numbered i id hlive).2 k hk, rfl⟩⟩
    · rw [Roster.enter_of_ne hac] at hk
      obtain ⟨e', he'⟩ := h.resident a ha k hk
      refine ⟨e', ?_⟩
      rw [if_neg]
      · exact he'
      · rintro ⟨rfl, rfl⟩
        exact hfree a ha he'

/-- A room whose id no room and no client has. -/
theorem Settled.launch (h : Settled r) (hid : id ≠ 0) (hnew : ∀ k, r.live k ≠ some id)
    (hroom : ∀ a < r.nbClients, r.room a ≠ id) (hentry : ∀ e, r.entry r.nbRooms e = none) :
    Settled (r.launch id) where
  sound := h.sound
  single := h.single
  numbered := by
    intro k id' hk
    have hk' : (if k = r.nbRooms then some id else r.live k) = some id' := hk
    show id' ≠ 0 ∧ ∀ k', (if k' = r.nbRooms then some id else r.live k') = some id' → k' = k
    split at hk'
    · rename_i hkn
      obtain rfl := Option.some.inj hk'
      refine ⟨hid, fun k' hk'' => ?_⟩
      split at hk''
      · rename_i hkn'
        exact hkn'.trans hkn.symm
      · exact absurd hk'' (hnew k')
    · obtain ⟨h1, h2⟩ := h.numbered k id' hk'
      refine ⟨h1, fun k' hk'' => ?_⟩
      split at hk''
      · obtain rfl := Option.some.inj hk''
        exact absurd hk' (hnew k)
      · exact h2 k' hk''
  homed := by
    intro a ha k e' he
    show (if k = r.nbRooms then some id else r.live k) = some (r.room a)
    rw [if_neg]
    · exact h.homed a ha k e' he
    · rintro rfl
      have he' : r.entry r.nbRooms e' = some (r.sock a) := he
      rw [hentry e'] at he'
      cases he'
  resident := by
    intro a ha k hk
    have hk' : (if k = r.nbRooms then some id else r.live k) = some (r.room a) := hk
    split at hk'
    · exact absurd (Option.some.inj hk').symm (hroom a ha)
    · exact h.resident a ha k hk'

/-- A client in no room forgets the id of the last one. -/
theorem Settled.forget (h : Settled r) (habsent : Absent r c) : Settled (r.enter c 0) where
  sound := h.sound
  single := h.single
  numbered := h.numbered
  homed := by
    intro a ha k e' he
    have hac : a ≠ c := by
      rintro rfl
      exact habsent k e' he
    rw [Roster.enter_of_ne hac]
    exact h.homed a ha k e' he
  resident := by
    intro a ha k hk
    by_cases hac : a = c
    · subst hac
      rw [Roster.enter_self] at hk
      exact absurd rfl (h.numbered k 0 hk).1
    · rw [Roster.enter_of_ne hac] at hk
      exact h.resident a ha k hk

/-- A client gives up its entry, which is cleared or marked vacant. -/
theorem Settled.depart (h : Settled r) (hd : r.Distinct) (hc : c < r.nbClients)
    (hown : r.entry i e = some (r.sock c)) (hx : x = none ∨ x = some (-1)) :
    Settled ((r.put i e x).enter c 0) ∧ Absent (r.put i e x) c := by
  have hnot : ∀ a < r.nbClients, x ≠ some (r.sock a) := by
    intro a ha heq
    have hpos := (hd a ha).1
    rcases hx with rfl | rfl
    · cases heq
    · have hneg := Option.some.inj heq
      omega
  have hput : ∀ a < r.nbClients, ∀ k e', (r.put i e x).entry k e' = some (r.sock a) →
      ¬ (k = i ∧ e' = e) ∧ r.entry k e' = some (r.sock a) := by
    intro a ha k e' he
    have he' : (if k = i ∧ e' = e then x else r.entry k e') = some (r.sock a) := he
    split at he'
    · exact absurd he' (hnot a ha)
    · rename_i hne
      exact ⟨hne, he'⟩
  have habsent : Absent (r.put i e x) c := by
    intro k e' he
    obtain ⟨hne, he'⟩ := hput c hc k e' he
    exact hne (h.single c hc k e' i e he' hown)
  refine ⟨⟨?_, ?_, h.numbered, ?_, ?_⟩, habsent⟩
  · rcases hx with rfl | rfl
    · exact Roster.Sound.clear (r := r) h.sound
    · exact Roster.Sound.put (r := r) h.sound (Or.inl rfl)
  · rcases hx with rfl | rfl
    · exact Roster.Single.clear (r := r) h.single
    · refine Roster.Single.put (r := r) h.single ?_
      intro a ha hsock
      have hpos := (hd a ha).1
      omega
  · intro a ha k e' he
    have hac : a ≠ c := by
      rintro rfl
      exact habsent k e' he
    rw [Roster.enter_of_ne hac]
    exact h.homed a ha k e' (hput a ha k e' he).2
  · intro a ha k hk
    show ∃ e', (if k = i ∧ e' = e then x else r.entry k e') = some (r.sock a)
    by_cases hac : a = c
    · subst hac
      rw [Roster.enter_self] at hk
      exact absurd rfl (h.numbered k 0 hk).1
    · rw [Roster.enter_of_ne hac] at hk
      obtain ⟨e', he'⟩ := h.resident a ha k hk
      refine ⟨e', ?_⟩
      rw [if_neg]
      · exact he'
      · rintro ⟨rfl, rfl⟩
        exact hac ((hd a ha).2 c hc (Option.some.inj (he'.symm.trans hown)))

theorem Settled.close (h : Settled r) : Settled (r.close i) where
  sound := Roster.Sound.close h.sound
  single := Roster.Single.close h.single
  numbered := by
    intro k id hk
    have hk' : (if k + 1 < r.nbRooms then r.live (SlotArray.skip i k) else none) = some id := hk
    split at hk'
    · obtain ⟨h1, h2⟩ := h.numbered _ id hk'
      refine ⟨h1, fun k₁ hk₁ => ?_⟩
      have hk₁' : (if k₁ + 1 < r.nbRooms then r.live (SlotArray.skip i k₁) else none)
        = some id := hk₁
      split at hk₁'
      · exact SlotArray.skip_injective i (h2 _ hk₁')
      · cases hk₁'
    · cases hk'
  homed := by
    intro a ha k e' he
    have he' : (if k + 1 < r.nbRooms then r.entry (SlotArray.skip i k) e' else none)
      = some (r.sock a) := he
    show (if k + 1 < r.nbRooms then r.live (SlotArray.skip i k) else none) = some (r.room a)
    split at he'
    · rename_i hlt
      rw [if_pos hlt]
      exact h.homed a ha _ e' he'
    · cases he'
  resident := by
    intro a ha k hk
    have hk' : (if k + 1 < r.nbRooms then r.live (SlotArray.skip i k) else none)
      = some (r.room a) := hk
    show ∃ e', (if k + 1 < r.nbRooms then r.entry (SlotArray.skip i k) e' else none)
      = some (r.sock a)
    split at hk'
    · rename_i hlt
      obtain ⟨e', he'⟩ := h.resident a ha _ hk'
      exact ⟨e', (if_pos hlt).trans he'⟩
    · cases hk'

/-- The members of a closed room are members of none. -/
theorem Settled.closed_absent (h : Settled r) (hc : c < r.nbClients)
    (hown : r.entry i e = some (r.sock c)) : Absent (r.close i) c := by
  intro k e' he
  have he' : (if k + 1 < r.nbRooms then r.entry (SlotArray.skip i k) e' else none)
    = some (r.sock c) := he
  split at he'
  · exact SlotArray.skip_ne i k (h.single c hc _ e' i e he' hown).1
  · cases he'

theorem Settled.enrol {y : Int} (h : Settled r) (hy : 0 < y)
    (hnew : ∀ a < r.nbClients, r.sock a ≠ y) : Settled (r.enrol y) := by
  -- the new descriptor is in no entry
  have hnone : ∀ k e', r.entry k e' ≠ some y := by
    intro k e' he
    rcases h.sound k e' y he with rfl | ⟨a, ha, hsock⟩
    · omega
    · exact hnew a ha hsock
  have hlast : ∀ a < r.nbClients + 1, a ≠ r.nbClients → a < r.nbClients := by
    intro a ha hne
    omega
  refine ⟨Roster.Sound.enrol h.sound, Roster.Single.enrol h.single ?_, h.numbered, ?_, ?_⟩
  · intro k e' _ _ he
    exact absurd he (hnone k e')
  · intro a ha k e' he
    by_cases hac : a = r.nbClients
    · rw [hac, (Roster.enrol_self r y).1] at he
      exact absurd he (hnone k e')
    · obtain ⟨hsock, hroom⟩ := Roster.enrol_of_ne (x := y) hac
      rw [hsock] at he
      rw [hroom]
      exact h.homed a (hlast a ha hac) k e' he
  · intro a ha k hk
    by_cases hac : a = r.nbClients
    · rw [hac, (Roster.enrol_self r y).2] at hk
      exact absurd rfl (h.numbered k 0 hk).1
    · obtain ⟨hsock, hroom⟩ := Roster.enrol_of_ne (x := y) hac
      rw [hroom] at hk
      rw [hsock]
      exact h.resident a (hlast a ha hac) k hk

/-- A client in no room is dropped from the table. -/
theorem Settled.dismiss (h : Settled (r.enter c 0)) (hc : c < r.nbClients)
    (habsent : Absent r c) : Settled (r.dismiss c) where
  sound := Roster.Sound.dismiss h.sound hc habsent
  single := Roster.Single.dismiss h.single
  numbered := h.numbered
  homed := by
    intro a ha k e' he
    obtain ⟨h1, h2, h3, h4⟩ := r.dismiss_client ha
    have hold : (r.enter c 0).room (SlotArray.skip c a) = r.room (SlotArray.skip c a) :=
      Roster.enter_of_ne h2
    rw [h3] at he
    rw [h4, ← hold]
    exact h.homed _ h1 k e' he
  resident := by
    intro a ha k hk
    obtain ⟨h1, h2, h3, h4⟩ := r.dismiss_client ha
    have hold : (r.enter c 0).room (SlotArray.skip c a) = r.room (SlotArray.skip c a) :=
      Roster.enter_of_ne h2
    rw [h4, ← hold] at hk
    rw [h3]
    exact h.resident _ h1 k hk

/-! ## The server -/

variable {s s₁ : Server}

theorem entry_of_not_absent (h : ¬ Absent (roster s) c) :
    ∃ k e, entry s k e = some (s.clients c).sock := by
  obtain ⟨k, hk⟩ := not_forall.mp h
  obtain ⟨e, he⟩ := not_forall.mp hk
  exact ⟨k, e, not_not.mp he⟩

theorem settled_accepted {csock : Int} (h : Settled (roster s)) (hpos : 0 < csock)
    (hnew : ∀ a < s.nbClients, (s.clients a).sock ≠ csock) :
    Settled (roster (accepted s csock)) := by
  rw [roster_accepted]
  exact h.enrol hpos hnew

/-- The room of a client is the one its room id names. -/
theorem Settled.findRoom_member (h : Settled (roster s)) (hc : c < s.nbClients)
    (hown : entry s i e = some (s.clients c).sock) :
    findRoom s (s.clients c).roomId = some i := by
  have hlive := h.homed c hc i e hown
  obtain ⟨hi, hid⟩ := live_eq_some.mp hlive
  refine findRoom_eq_some.mpr ⟨hi, hid, fun k hk hid' => ?_⟩
  have hk' : Live s k := live_iff.mpr (Nat.lt_trans hk (live_iff.mp hi))
  have hsame := (h.numbered i _ hlive).2 k (live_eq_some.mpr ⟨hk', hid'⟩)
  omega

/-- A client in no room carries the id of no room. -/
theorem Settled.findRoom_absent (h : Settled (roster s)) (hc : c < s.nbClients)
    (habsent : Absent (roster s) c) : findRoom s (s.clients c).roomId = none := by
  refine findRoom_eq_none.mpr fun i hi hid => ?_
  obtain ⟨e, he⟩ := h.resident c hc i (live_eq_some.mpr ⟨hi, hid⟩)
  exact habsent i e he

/-- The entry `disconnect_user` clears is the client's. -/
theorem settled_disconnected (h : Settled (roster s)) (hd : (roster s).Distinct)
    (hseats : ∀ k, (s.rooms k).game.nbPlayers ≤ 2) (hc : c < s.nbClients)
    (hm : ScanMeets s c) (hall : AllFound s c) (hdis : disconnectUser s c = .ok s₁) :
    Settled ((roster s₁).enter c 0) ∧ Absent (roster s₁) c := by
  have hfound := inOnly_iff.mp hall
  rcases (detached hseats hm hdis).roster_eq hseats with
    ⟨i, j, hseat, heq⟩ | ⟨i, j, hno, hhit, heq⟩ | ⟨hno, hq, heq⟩ <;> rw [heq]
  · obtain ⟨hj, hsock, -⟩ := findPlayer_eq_some.mp hseat.2.2.1
    have hi : Live s i := live_iff.mpr hseat.1
    exact h.depart hd hc (entry_eq_some.mpr ⟨hi, Or.inl hj, hsock⟩) (Or.inr rfl)
  · have hi : Live s i := live_iff.mpr hhit.1
    -- the room's id makes the client a member, and the loops find its entry
    obtain ⟨e, he⟩ := h.resident c hc i (live_eq_some.mpr ⟨hi, hhit.2.1⟩)
    rcases hfound i e he with hseat | ⟨h2, hhit'⟩
    · exact absurd hseat hno.not_found
    · obtain ⟨-, -, -, honly⟩ := hm i hhit.1 j hhit.2.2.2.1 hhit
      have hej : e - 2 = j := (honly i hhit'.1 (e - 2) hhit'.2.2.2.1 hhit').2
      have he' : e = j + 2 := by omega
      subst he'
      exact h.depart hd hc he (Or.inl rfl)
  · have habsent : Absent (roster s) c := by
      intro k e he
      rcases hfound k e he with hseat | ⟨-, hhit⟩
      · exact hno.not_found hseat
      · exact hq k (e - 2) hhit
    exact ⟨h.forget habsent, habsent⟩

end AwaleTidy
