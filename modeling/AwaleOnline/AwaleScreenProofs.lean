import AwaleOnline.AwaleDialogueProofs

/-!
# The board on a client's screen

A client keeps no copy of the board: it prints the one in the PLAYED frame it reads, if it is
in a state that does.  So there are two histories to compare, frame by frame.

* **`display`** — what the client has on its screen since it heard that it is in its room or that
  the game starts: the last board its callbacks have printed;
* **`tell`** — what the server has told it since: the last PLAYED frame it was sent;
* **`shows_walk`** — a client in a room that reads frames it is waiting for prints what it is told;
* **`shows_pending`** — one that waits to be let into a room does so whatever was on the
  screen before.
-/

namespace AwaleScreen

open AwaleProtocol AwaleClient AwaleDialogue

/-- The states in which `handle_played` calls `action_show_board`. -/
def Draws (st : State) : Prop :=
  st = .inGame ∨ st = .spectating ∨ st = .waitingPlayAck ∨ st = .waitingConnection

instance (st : State) : Decidable (Draws st) := inferInstanceAs (Decidable (_ ∨ _))

/-- What one frame does to the screen of a client in state `st`; `none` stands for no board. -/
def display (st : State) (screen : Option ServerMsg) : ServerMsg → Option ServerMsg
  | .played score score' board =>
      if Draws st then some (.played score score' board) else screen
  | .roomCreationSuccessful _ => if st = .waitingCreateRoomResponse then none else screen
  | .joinRoomSuccessful _ _ _ _ =>
      if st = .waitingJoinRoomResponse ∨ st = .waitingSpectateRoomResponse
          ∨ st = .waitingConnection then none
      else screen
  -- "Game starting !" is printed in every state
  | .gameStart _ => none
  | _ => screen

/-- What one frame tells, whoever reads it. -/
def tell (told : Option ServerMsg) : ServerMsg → Option ServerMsg
  | .played score score' board => some (.played score score' board)
  | .roomCreationSuccessful _ => none
  | .joinRoomSuccessful _ _ _ _ => none
  | .gameStart _ => none
  | _ => told

/-- The screen of a client that reads the frames one by one. -/
def shows : State → Option ServerMsg → List ServerMsg → Option ServerMsg
  | _, screen, [] => screen
  | st, screen, m :: D => shows (after st m) (display st screen m) D

/-- A frame that tells nothing. -/
def Mute (m : ServerMsg) : Prop := ∀ told, tell told m = told

variable {st st' t : State} {m : ServerMsg} {D fs : List ServerMsg}
  {screen told : Option ServerMsg}

theorem foldl_mute (h : ∀ m ∈ fs, Mute m) : fs.foldl tell told = told := by
  induction fs with
  | nil => rfl
  | cons m fs ih =>
      rw [List.foldl_cons, h m List.mem_cons_self]
      exact ih fun m' hm' => h m' (List.mem_cons_of_mem _ hm')

theorem mute_idle (h : Idle m) : Mute m := by
  intro told
  cases m with
  | message username message => rfl
  | gameStopped draw winner => rfl
  | _ => exact h.elim

theorem display_idle (h : Idle m) (st : State) (screen : Option ServerMsg) :
    display st screen m = screen := by
  cases m with
  | message username message => rfl
  | gameStopped draw winner => rfl
  | _ => exact h.elim

/-- Messages show nothing of the board. -/
theorem shows_chat (h : ∀ m ∈ D, Chat m) : shows st screen D = screen := by
  induction D with
  | nil => rfl
  | cons m D ih =>
      have hm := h m List.mem_cons_self
      rw [shows, after_chat st hm, display_idle hm.idle]
      exact ih fun m' hm' => h m' (List.mem_cons_of_mem _ hm')

theorem shows_append (st : State) (screen : Option ServerMsg) (D fs : List ServerMsg) :
    shows st screen (D ++ fs) = shows (D.foldl after st) (shows st screen D) fs := by
  induction D generalizing st screen with
  | nil => rfl
  | cons m D ih => exact ih (after st m) (display st screen m)

/-! ## Along the frames a client waits for -/

theorem foldl_after (h : Walk st D t) : D.foldl after st = t := by
  induction h with
  | nil => rfl
  | cons he _ ih =>
      rw [List.foldl_cons, he.after]
      exact ih

theorem shows_append_walk (h : Walk st D t) (screen : Option ServerMsg) (fs : List ServerMsg) :
    shows st screen (D ++ fs) = shows t (shows st screen D) fs := by
  rw [shows_append, foldl_after h]

/-- The frames leave no choice. -/
theorem walk_rest (h : Walk st D t) {u : State} (h' : Walk st (D ++ fs) u) : Walk t fs u := by
  induction h with
  | nil => exact h'
  | cons he _ ih =>
      cases h' with
      | cons he' hw' =>
          obtain rfl := he.after.symm.trans he'.after
          exact ih hw'

/-- In a room, a frame the client waits for is printed exactly when it tells something. -/
theorem display_expects (hst : Placed st) (h : Expects st m st') :
    display st screen m = tell screen m := by
  have hno : ∀ {st : State}, Pending st → Placed st → False := by
    rintro st (rfl | rfl | rfl | rfl) ((h | h | h | h) | h) <;> cases h
  cases h with
  | chat hm => rw [display_idle hm.idle, mute_idle hm.idle]
  | skip hask _ => exact (hno (Or.inr hask) hst).elim
  | stopped hm => exact (hno (Or.inl rfl) hst).elim
  | created => exact (hno (Or.inr (Or.inl rfl)) hst).elim
  | joined => exact (hno (Or.inr (Or.inr (Or.inl rfl))) hst).elim
  | watching => exact (hno (Or.inr (Or.inr (Or.inr rfl))) hst).elim
  | back => exact (hno (Or.inl rfl) hst).elim
  | _ => rfl

/-- **A CLIENT IN A ROOM** shows what it is told. -/
theorem shows_walk (hst : Placed st) (h : Walk st D t) :
    shows st screen D = D.foldl tell screen := by
  induction h generalizing screen with
  | nil => rfl
  | cons he _ ih =>
      rw [shows, display_expects hst he, he.after, List.foldl_cons]
      exact ih (he.placed hst).1

/-- The answer that lets a client into a room starts both histories anew. -/
theorem expects_enters (hst : Pending st) (h : Expects st m st') :
    st' = st ∨ (Placed st' ∧ ∀ screen told, display st screen m = tell told m) := by
  cases h with
  | chat _ => exact Or.inl rfl
  | skip _ _ => exact Or.inl rfl
  | stopped _ => exact Or.inl rfl
  | created => exact Or.inr ⟨Or.inl (Or.inl rfl), fun _ _ => rfl⟩
  | joined => exact Or.inr ⟨Or.inl (Or.inl rfl), fun _ _ => rfl⟩
  | watching => exact Or.inr ⟨Or.inl (Or.inr (Or.inl rfl)), fun _ _ => rfl⟩
  | back => exact Or.inr ⟨Or.inl (Or.inl rfl), fun _ _ => rfl⟩
  | backToMove => exact Or.inr ⟨Or.inl (Or.inr (Or.inr (Or.inr rfl))), fun _ _ => rfl⟩
  | backToWait => exact Or.inr ⟨Or.inl (Or.inr (Or.inr (Or.inl rfl))), fun _ _ => rfl⟩
  | _ => rcases hst with hst | hst | hst | hst <;> cases hst

/-- **A CLIENT THAT IS LET IN** shows what it is told from then on. -/
theorem shows_pending (hst : Pending st) (ht : InRoom t) (h : Walk st D t)
    (screen told : Option ServerMsg) : shows st screen D = D.foldl tell told := by
  induction h generalizing screen told with
  | nil => exact absurd hst (inRoom_not_pending ht)
  | cons he hw ih =>
      rw [shows, he.after, List.foldl_cons]
      rcases expects_enters hst he with rfl | ⟨hplaced, hsame⟩
      · exact ih hst ht _ _
      · rw [hsame screen told]
        exact shows_walk hplaced hw

end AwaleScreen
