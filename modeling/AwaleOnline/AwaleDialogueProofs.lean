import AwaleOnline.AwaleClientProofs

/-!
# What can be in flight on a connection

The client counts frames: it has no copy of the turn.  So what matters about a connection is
its client's state together with the requests and frames on their way.

* **`Walk`** — the frames in flight lead the client from its state to another, each one a frame
  that the state is waiting for;
* **`Fresh`**, **`Loose`**, **`Inside`** — a client without a name, one that is in no room, and
  one whose room entry stands for the state `t`; each is kept by what the client types and
  receives, and by what the server may send.
-/

namespace AwaleDialogue

open AwaleProtocol AwaleClient

/-! ## Kinds of states, frames and requests -/

/-- Waiting for the answer to CREATE_ROOM or JOIN_ROOM. -/
def Asking (st : State) : Prop :=
  st = .waitingCreateRoomResponse ∨ st = .waitingJoinRoomResponse
    ∨ st = .waitingSpectateRoomResponse

/-- Waiting for an answer that decides whether the client is in a room. -/
def Pending (st : State) : Prop := st = .waitingConnection ∨ Asking st

/-- The states of a client in a room. -/
def Placed (st : State) : Prop := InRoom st ∨ st = .waitingPlayAck

def Free (st : State) : Prop := Menu st ∨ Placed st

/-- A MESSAGE, which changes no state. -/
def Chat : ServerMsg → Prop
  | .message _ _ => True
  | _ => False

/-- A frame that a client without a name can be sent by mistake. -/
def Idle : ServerMsg → Prop
  | .message _ _ => True
  | .gameStopped _ _ => True
  | _ => False

/-- A frame that answers neither CONNECT nor CREATE_ROOM nor JOIN_ROOM. -/
def Stale : ServerMsg → Prop
  | .connectionSuccessful => False
  | .connectionRefused _ => False
  | .roomCreationSuccessful _ => False
  | .roomCreationRefused _ => False
  | .joinRoomSuccessful _ _ _ _ => False
  | .joinRoomRefused _ => False
  | _ => True

def Say : Request → Prop
  | .sendMessage _ => True
  | _ => False

/-- A request that gives its sender no name and no room. -/
def Harmless : Request → Prop
  | .connect _ => False
  | .createRoom => False
  | .joinRoom _ _ => False
  | _ => True

/-- The request a client in an `Asking` state has sent. -/
inductive Asks : State → Request → Prop where
  | create : Asks .waitingCreateRoomResponse .createRoom
  | join {roomId : UInt32} : Asks .waitingJoinRoomResponse (.joinRoom roomId 0)
  | spectate {roomId : UInt32} : Asks .waitingSpectateRoomResponse (.joinRoom roomId 1)

variable {st st' t t' : State} {m : ServerMsg} {q : Request} {U T sent : List Request}
  {D fs : List ServerMsg}

theorem Chat.idle (h : Chat m) : Idle m := by
  cases m <;> trivial

theorem Idle.stale (h : Idle m) : Stale m := by
  cases m <;> trivial

theorem Say.harmless (h : Say q) : Harmless q := by
  cases q <;> trivial

theorem Asks.asking (h : Asks st q) : Asking st := by
  cases h with
  | create => exact Or.inl rfl
  | join => exact Or.inr (Or.inl rfl)
  | spectate => exact Or.inr (Or.inr rfl)

/-! ## What a frame does to a state -/

theorem after_chat (st : State) (h : Chat m) : after st m = st := by
  cases m with
  | message username message => rfl
  | _ => exact h.elim

theorem after_idle (h : Idle m) : after .waitingConnection m = .waitingConnection := by
  cases m with
  | message username message => rfl
  | gameStopped draw winner => rfl
  | _ => exact h.elim

theorem after_idle_connecting (h : Idle m) : after .connecting m = .connecting := by
  cases m with
  | message username message => rfl
  | gameStopped draw winner => rfl
  | _ => exact h.elim

theorem after_asking (hst : Asking st) (h : Stale m) : after st m = st := by
  rcases hst with rfl | rfl | rfl <;> cases m <;> first | rfl | exact h.elim

/-- No frame makes a client in a room or in the menu wait for an answer. -/
theorem after_free (hst : Free st) (m : ServerMsg) : Free (after st m) := by
  have hsame : after st m = st → Free (after st m) := by
    intro heq
    rw [heq]
    exact hst
  have hmenu : after st m = .connected → Free (after st m) := by
    intro heq
    rw [heq]
    exact Or.inl (Or.inl rfl)
  have hroom : InRoom (after st m) → Free (after st m) := fun hin => Or.inr (Or.inl hin)
  rcases hst with (rfl | rfl | rfl | rfl) | (rfl | rfl | rfl | rfl) | rfl
  case inl.inl | inl.inr.inl | inl.inr.inr.inl | inl.inr.inr.inr => cases m <;> exact hsame rfl
  case inr.inl.inl =>
    cases m with
    | gameStart pos =>
        refine hroom ?_
        simp only [after, receive, handleGameStart, setCurrentState, if_true]
        split_ifs
        · exact Or.inr (Or.inr (Or.inr rfl))
        · exact Or.inr (Or.inr (Or.inl rfl))
        · exact Or.inl rfl
    | gameStopped draw winner => exact hmenu rfl
    | _ => exact hsame rfl
  case inr.inl.inr.inl => cases m <;> first | exact hsame rfl | exact hmenu rfl
  case inr.inl.inr.inr.inl =>
    cases m with
    | played score score' board => exact hroom (Or.inr (Or.inr (Or.inr rfl)))
    | gameStopped draw winner => exact hmenu rfl
    | _ => exact hsame rfl
  case inr.inl.inr.inr.inr => cases m <;> first | exact hsame rfl | exact hmenu rfl
  case inr.inr =>
    cases m with
    | played score score' board => exact hroom (Or.inr (Or.inr (Or.inl rfl)))
    | invalidPlay text => exact hroom (Or.inr (Or.inr (Or.inr rfl)))
    | _ => exact hsame rfl

/-- A client that waits for an answer ignores its keyboard. -/
theorem typed_pending (hst : Pending st) (h : Typed st st' sent) : st' = st ∧ sent = [] := by
  have hroom : ¬ InRoom st := by
    rcases hst with rfl | rfl | rfl | rfl <;> rintro (hin | hin | hin | hin) <;> cases hin
  cases h with
  | nothing => exact ⟨rfl, rfl⟩
  | leave hin => exact absurd hin hroom
  | say hin => exact absurd hin hroom
  | _ => rcases hst with hst | hst | hst | hst <;> cases hst

/-! ## Expected frames -/

/-- **A frame a client is waiting for**, with the state it leads to. -/
inductive Expects : State → ServerMsg → State → Prop where
  | chat {st : State} {m : ServerMsg} : Chat m → Expects st m st
  | skip {st : State} {m : ServerMsg} : Asking st → Stale m → Expects st m st
  | stopped {m : ServerMsg} : Idle m → Expects .waitingConnection m .waitingConnection
  | created {roomId : UInt32} :
      Expects .waitingCreateRoomResponse (.roomCreationSuccessful roomId) .inRoom
  | joined {n k : UInt8} {users bios : List CString} :
      Expects .waitingJoinRoomResponse (.joinRoomSuccessful n k users bios) .inRoom
  | watching {n k : UInt8} {users bios : List CString} :
      Expects .waitingSpectateRoomResponse (.joinRoomSuccessful n k users bios) .spectating
  | back {n k : UInt8} {users bios : List CString} :
      Expects .waitingConnection (.joinRoomSuccessful n k users bios) .inRoom
  | backToMove {score score' : UInt8} {board : List UInt8} :
      Expects .waitingConnection (.played score score' board) .waitingPlayInput
  | backToWait {pos : UInt8} : Expects .waitingConnection (.gameStart pos) .inGame
  | startFirst : Expects .inRoom (.gameStart 0) .waitingPlayInput
  | startSecond : Expects .inRoom (.gameStart 1) .inGame
  | yourTurn {score score' : UInt8} {board : List UInt8} :
      Expects .inGame (.played score score' board) .waitingPlayInput
  | acked {score score' : UInt8} {board : List UInt8} :
      Expects .waitingPlayAck (.played score score' board) .inGame
  | rejected {text : CString} : Expects .waitingPlayAck (.invalidPlay text) .waitingPlayInput
  | shown {score score' : UInt8} {board : List UInt8} :
      Expects .spectating (.played score score' board) .spectating

/-- What is expected is what the callbacks do. -/
theorem Expects.after (h : Expects st m st') : after st m = st' := by
  cases h with
  | chat hm => exact after_chat st hm
  | skip hst hm => exact after_asking hst hm
  | stopped hm => exact after_idle hm
  | _ => rfl

/-- Frames that lead from one state to another. -/
inductive Walk : State → List ServerMsg → State → Prop where
  | nil {st : State} : Walk st [] st
  | cons {st st' t : State} {m : ServerMsg} {ms : List ServerMsg} :
      Expects st m st' → Walk st' ms t → Walk st (m :: ms) t

theorem Walk.append (h : Walk st D t) (h' : Walk t fs t') : Walk st (D ++ fs) t' := by
  induction h with
  | nil => exact h'
  | cons he _ ih => exact .cons he (ih h')

theorem Walk.single (h : Expects st m st') : Walk st [m] st' := .cons h .nil

/-- Frames that a state is waiting for and that change nothing. -/
theorem Walk.stay (h : ∀ m ∈ D, Expects st m st) : Walk st D st := by
  induction D with
  | nil => exact .nil
  | cons m D ih =>
      exact .cons (h m List.mem_cons_self) (ih fun m' hm' => h m' (List.mem_cons_of_mem _ hm'))

/-- A client in a room is waiting for no answer. -/
theorem Expects.placed (hst : Placed st) (h : Expects st m st') : Placed st' ∧ Stale m := by
  cases h with
  | chat hm => exact ⟨hst, hm.idle.stale⟩
  | skip _ hm => exact ⟨hst, hm⟩
  | stopped hm => exact ⟨hst, hm.stale⟩
  | startFirst => exact ⟨Or.inl (Or.inr (Or.inr (Or.inr rfl))), trivial⟩
  | startSecond => exact ⟨Or.inl (Or.inr (Or.inr (Or.inl rfl))), trivial⟩
  | yourTurn => exact ⟨Or.inl (Or.inr (Or.inr (Or.inr rfl))), trivial⟩
  | acked => exact ⟨Or.inl (Or.inr (Or.inr (Or.inl rfl))), trivial⟩
  | rejected => exact ⟨Or.inl (Or.inr (Or.inr (Or.inr rfl))), trivial⟩
  | shown => exact ⟨hst, trivial⟩
  | backToMove => rcases hst with (hst | hst | hst | hst) | hst <;> cases hst
  | backToWait => rcases hst with (hst | hst | hst | hst) | hst <;> cases hst
  | _ => rcases hst with (hst | hst | hst | hst) | hst <;> cases hst

theorem Walk.stale (hst : Placed st) (h : Walk st D t) : ∀ m ∈ D, Stale m := by
  induction h with
  | nil => exact List.forall_mem_nil _
  | cons he _ ih =>
      obtain ⟨hst', hm⟩ := he.placed hst
      intro m' hm'
      rcases List.mem_cons.mp hm' with rfl | hm'
      · exact hm
      · exact ih hst' m' hm'

/-- A client whose turn it is waits for no frame. -/
theorem Walk.to_move (h : Walk .waitingPlayInput D t) :
    t = .waitingPlayInput ∧ ∀ m ∈ D, Chat m := by
  generalize hst : State.waitingPlayInput = st at h
  induction h with
  | nil => exact ⟨rfl, List.forall_mem_nil _⟩
  | cons he _ ih =>
      cases he with
      | chat hm =>
          obtain ⟨ht, hD⟩ := ih hst
          refine ⟨ht, fun m' hm' => ?_⟩
          rcases List.mem_cons.mp hm' with rfl | hm'
          · exact hm
          · exact hD m' hm'
      | skip hask _ =>
          subst hst
          rcases hask with hask | hask | hask <;> cases hask
      | _ => cases hst

theorem inRoom_not_pending (ht : InRoom t) : ¬ Pending t := by
  rcases ht with rfl | rfl | rfl | rfl <;> rintro (h | h | h | h) <;> cases h

/-- A client waits for an answer, is in a room, or has nothing in flight to hear of. -/
theorem state_kinds (st : State) : Pending st ∨ Placed st ∨ Menu st ∨ st = .connecting := by
  cases st <;> simp [Pending, Asking, Placed, InRoom, Menu]

/-- From the menu or the name prompt no frame leads anywhere. -/
theorem Walk.idle_end (hst : Menu st ∨ st = .connecting) (h : Walk st D t) : t = st := by
  induction h with
  | nil => rfl
  | cons he _ ih =>
      cases he with
      | chat _ => exact ih hst
      | skip _ _ => exact ih hst
      | stopped _ => exact ih hst
      | _ => rcases hst with (hst | hst | hst | hst) | hst <;> cases hst

/-- A client that waits for an answer and is led into a room has the answer in flight. -/
theorem Walk.answer (hst : Pending st) (ht : InRoom t) (h : Walk st D t) :
    ∃ D₀ m D₁, D = D₀ ++ m :: D₁ ∧ (∀ m' ∈ D₀, after st m' = st) ∧ Placed (after st m)
      ∧ ∀ m' ∈ D₁, Stale m' := by
  induction h with
  | nil => exact absurd hst (inRoom_not_pending ht)
  | @cons st st' t m ms he hw ih =>
      have hlater : st' = st → ∃ D₀ m' D₁, m :: ms = D₀ ++ m' :: D₁
          ∧ (∀ m' ∈ D₀, after st m' = st) ∧ Placed (after st m')
          ∧ ∀ m' ∈ D₁, Stale m' := by
        rintro rfl
        obtain ⟨D₀, m₁, D₁, rfl, hD₀, hplaced, hD₁⟩ := ih hst ht
        refine ⟨m :: D₀, m₁, D₁, rfl, ?_, hplaced, hD₁⟩
        intro m' hm'
        rcases List.mem_cons.mp hm' with rfl | hm'
        · exact he.after
        · exact hD₀ m' hm'
      have hnow : Placed st' → ∃ D₀ m' D₁, m :: ms = D₀ ++ m' :: D₁
          ∧ (∀ m' ∈ D₀, after st m' = st) ∧ Placed (after st m')
          ∧ ∀ m' ∈ D₁, Stale m' := by
        intro hplaced
        refine ⟨[], m, ms, rfl, fun m' hm' => absurd hm' List.not_mem_nil, ?_, hw.stale hplaced⟩
        rw [he.after]
        exact hplaced
      cases he with
      | chat _ => exact hlater rfl
      | skip _ _ => exact hlater rfl
      | stopped _ => exact hlater rfl
      | created => exact hnow (Or.inl (Or.inl rfl))
      | joined => exact hnow (Or.inl (Or.inl rfl))
      | watching => exact hnow (Or.inl (Or.inr (Or.inl rfl)))
      | back => exact hnow (Or.inl (Or.inl rfl))
      | backToMove => exact hnow (Or.inl (Or.inr (Or.inr (Or.inr rfl))))
      | backToWait => exact hnow (Or.inl (Or.inr (Or.inr (Or.inl rfl))))
      | _ => rcases hst with hst | hst | hst | hst <;> cases hst

/-! ## A client without a name -/

inductive Fresh : State → List Request → List ServerMsg → Prop where
  | start {D : List ServerMsg} : (∀ m ∈ D, Idle m) → Fresh .connecting [] D
  | asked {name : CString} {D : List ServerMsg} : (∀ m ∈ D, Idle m) →
      Fresh .waitingConnection [.connect name] D
  | refused {text : CString} {D₀ D₁ : List ServerMsg} : (∀ m ∈ D₀, Idle m) →
      (∀ m ∈ D₁, Idle m) → Fresh .waitingConnection [] (D₀ ++ .connectionRefused text :: D₁)

theorem Fresh.typed (h : Fresh st U D) (ht : Typed st st' sent) : Fresh st' (U ++ sent) D := by
  cases h with
  | start hD =>
      cases ht with
      | nothing => exact .start hD
      | connect => exact .asked hD
      | leave hin => rcases hin with hin | hin | hin | hin <;> cases hin
      | say hin => rcases hin with hin | hin | hin | hin <;> cases hin
  | asked hD =>
      obtain ⟨rfl, rfl⟩ := typed_pending (Or.inl rfl) ht
      exact .asked hD
  | refused hD₀ hD₁ =>
      obtain ⟨rfl, rfl⟩ := typed_pending (Or.inl rfl) ht
      exact .refused hD₀ hD₁

theorem Fresh.received (h : Fresh st U (m :: D)) : Fresh (after st m) U D := by
  generalize hmD : m :: D = D' at h
  cases h with
  | start hD =>
      subst hmD
      rw [after_idle_connecting (hD m List.mem_cons_self)]
      exact .start fun m' hm' => hD m' (List.mem_cons_of_mem _ hm')
  | asked hD =>
      subst hmD
      rw [after_idle (hD m List.mem_cons_self)]
      exact .asked fun m' hm' => hD m' (List.mem_cons_of_mem _ hm')
  | @refused text D₀ D₁ hD₀ hD₁ =>
      cases D₀ with
      | nil =>
          obtain ⟨rfl, rfl⟩ := List.cons.inj hmD
          exact .start hD₁
      | cons m₀ D₀ =>
          obtain ⟨rfl, rfl⟩ := List.cons.inj hmD
          rw [after_idle (hD₀ m List.mem_cons_self)]
          exact .refused (fun m' hm' => hD₀ m' (List.mem_cons_of_mem _ hm')) hD₁

theorem Fresh.more (h : Fresh st U D) (hfs : ∀ m ∈ fs, Idle m) : Fresh st U (D ++ fs) := by
  cases h with
  | start hD => exact .start (List.forall_mem_append.mpr ⟨hD, hfs⟩)
  | asked hD => exact .asked (List.forall_mem_append.mpr ⟨hD, hfs⟩)
  | refused hD₀ hD₁ =>
      rw [List.append_assoc]
      exact .refused hD₀ (List.forall_mem_append.mpr ⟨hD₁, hfs⟩)

/-- The only request of a client without a name. -/
theorem Fresh.head (h : Fresh st (q :: U) D) :
    st = .waitingConnection ∧ U = [] ∧ (∀ m ∈ D, Idle m) ∧ ∃ name, q = .connect name := by
  cases h with
  | asked hD => exact ⟨rfl, rfl, hD, _, rfl⟩

/-! ## A client with a name and in no room -/

inductive Loose : State → List Request → List ServerMsg → Prop where
  | free {st : State} {U : List Request} {D : List ServerMsg} : Free st →
      (∀ q ∈ U, Harmless q) → (∀ m ∈ D, Stale m) → Loose st U D
  | asking {st : State} {q : Request} {U : List Request} {D : List ServerMsg} : Asks st q →
      (∀ q ∈ U, Harmless q) → (∀ m ∈ D, Stale m) → Loose st (U ++ [q]) D
  | answered {st : State} {m : ServerMsg} {U : List Request} {D₀ D₁ : List ServerMsg} :
      Pending st → (∀ q ∈ U, Harmless q) → (∀ m ∈ D₀, after st m = st) →
      Free (after st m) → (∀ m ∈ D₁, Stale m) → Loose st U (D₀ ++ m :: D₁)
  -- `handle_join_room_refused` ignores the answer to a spectator
  | ignored {U : List Request} {D : List ServerMsg} : (∀ q ∈ U, Harmless q) →
      (∀ m ∈ D, after .waitingSpectateRoomResponse m = .waitingSpectateRoomResponse) →
      Loose .waitingSpectateRoomResponse U D

private theorem harmless_snoc (hU : ∀ q ∈ U, Harmless q) (hq : Harmless q) :
    ∀ q' ∈ U ++ [q], Harmless q' := by
  refine List.forall_mem_append.mpr ⟨hU, fun q' hq' => ?_⟩
  rw [List.mem_singleton.mp hq']
  exact hq

theorem Loose.typed (h : Loose st U D) (ht : Typed st st' sent) :
    Loose st' (U ++ sent) D := by
  have hpending : Pending st → Loose st' (U ++ sent) D := by
    intro hst
    obtain ⟨rfl, rfl⟩ := typed_pending hst ht
    rw [List.append_nil]
    exact h
  cases h with
  | free hst hU hD =>
      cases ht with
      | nothing =>
          rw [List.append_nil]
          exact .free hst hU hD
      | connect => rcases hst with (h | h | h | h) | (h | h | h | h) | h <;> cases h
      | choose hmenu =>
          rw [List.append_nil]
          exact .free (Or.inl hmenu) hU hD
      | create => exact .asking .create hU hD
      | join => exact .asking .join hU hD
      | spectate => exact .asking .spectate hU hD
      | describe => exact .free (Or.inl (Or.inl rfl)) (harmless_snoc hU trivial) hD
      | play => exact .free (Or.inr (Or.inr rfl)) (harmless_snoc hU trivial) hD
      | leave _ => exact .free (Or.inl (Or.inl rfl)) (harmless_snoc hU trivial) hD
      | say _ => exact .free hst (harmless_snoc hU trivial) hD
  | asking hasks _ _ => exact hpending (Or.inr hasks.asking)
  | answered hst _ _ _ _ => exact hpending hst
  | ignored _ _ => exact hpending (Or.inr (Or.inr (Or.inr rfl)))

theorem Loose.received (h : Loose st U (m :: D)) : Loose (after st m) U D := by
  generalize hmD : m :: D = D' at h
  cases h with
  | free hst hU hD =>
      subst hmD
      exact .free (after_free hst m) hU fun m' hm' => hD m' (List.mem_cons_of_mem _ hm')
  | asking hasks hU hD =>
      subst hmD
      rw [after_asking hasks.asking (hD m List.mem_cons_self)]
      exact .asking hasks hU fun m' hm' => hD m' (List.mem_cons_of_mem _ hm')
  | @answered st m' U D₀ D₁ hst hU hD₀ hfree hD₁ =>
      cases D₀ with
      | nil =>
          obtain ⟨rfl, rfl⟩ := List.cons.inj hmD
          exact .free hfree hU hD₁
      | cons m₀ D₀ =>
          obtain ⟨rfl, rfl⟩ := List.cons.inj hmD
          rw [hD₀ m List.mem_cons_self]
          exact .answered hst hU (fun m' hm' => hD₀ m' (List.mem_cons_of_mem _ hm')) hfree hD₁
  | ignored hU hD =>
      subst hmD
      rw [hD m List.mem_cons_self]
      exact .ignored hU fun m' hm' => hD m' (List.mem_cons_of_mem _ hm')

theorem Loose.more (h : Loose st U D) (hfs : ∀ m ∈ fs, Stale m) : Loose st U (D ++ fs) := by
  cases h with
  | free hst hU hD => exact .free hst hU (List.forall_mem_append.mpr ⟨hD, hfs⟩)
  | asking hasks hU hD => exact .asking hasks hU (List.forall_mem_append.mpr ⟨hD, hfs⟩)
  | answered hst hU hD₀ hfree hD₁ =>
      rw [List.append_assoc]
      exact .answered hst hU hD₀ hfree (List.forall_mem_append.mpr ⟨hD₁, hfs⟩)
  | ignored hU hD =>
      refine .ignored hU (List.forall_mem_append.mpr ⟨hD, fun m hm => ?_⟩)
      exact after_asking (Or.inr (Or.inr rfl)) (hfs m hm)

/-- Requests that are still in front. -/
theorem Loose.behind (h : Loose st T D) (hU : ∀ q ∈ U, Harmless q) : Loose st (U ++ T) D := by
  cases h with
  | free hst hT hD => exact .free hst (List.forall_mem_append.mpr ⟨hU, hT⟩) hD
  | asking hasks hT hD =>
      rw [← List.append_assoc]
      exact .asking hasks (List.forall_mem_append.mpr ⟨hU, hT⟩) hD
  | answered hst hT hD₀ hfree hD₁ =>
      exact .answered hst (List.forall_mem_append.mpr ⟨hU, hT⟩) hD₀ hfree hD₁
  | ignored hT hD => exact .ignored (List.forall_mem_append.mpr ⟨hU, hT⟩) hD

/-- The oldest request of a client in no room is harmless, or it is its last one. -/
theorem Loose.head (h : Loose st (q :: U) D) :
    (Harmless q ∧ Loose st U D) ∨ (Asks st q ∧ U = [] ∧ ∀ m ∈ D, Stale m) := by
  generalize hqU : q :: U = U' at h
  have htail : ∀ q' ∈ U, q' ∈ q :: U := fun q' hq' => List.mem_cons_of_mem _ hq'
  cases h with
  | free hst hU hD =>
      subst hqU
      exact Or.inl ⟨hU q List.mem_cons_self, .free hst (fun q' hq' => hU q' (htail q' hq')) hD⟩
  | @asking st q₀ U₀ D hasks hU hD =>
      cases U₀ with
      | nil =>
          obtain ⟨rfl, rfl⟩ := List.cons.inj hqU
          exact Or.inr ⟨hasks, rfl, hD⟩
      | cons q' U₀ =>
          obtain ⟨rfl, rfl⟩ := List.cons.inj hqU
          exact Or.inl ⟨hU q List.mem_cons_self,
            .asking hasks (fun q' hq' => hU q' (List.mem_cons_of_mem _ hq')) hD⟩
  | answered hst hU hD₀ hfree hD₁ =>
      subst hqU
      exact Or.inl ⟨hU q List.mem_cons_self,
        .answered hst (fun q' hq' => hU q' (htail q' hq')) hD₀ hfree hD₁⟩
  | ignored hU hD =>
      subst hqU
      exact Or.inl ⟨hU q List.mem_cons_self, .ignored (fun q' hq' => hU q' (htail q' hq')) hD⟩

/-! ## A client in a room -/

/-- The frames in flight lead the client to `t`, unless its move or its leave is in flight. -/
inductive Inside (t : State) : State → List Request → List ServerMsg → Prop where
  | settled {st : State} {U : List Request} {D : List ServerMsg} : Walk st D t →
      (∀ q ∈ U, Say q) → Inside t st U D
  | moved {pos : UInt8} {U : List Request} {D : List ServerMsg} : t = .waitingPlayInput →
      (∀ q ∈ U, Say q) → (∀ m ∈ D, Chat m) → Inside t .waitingPlayAck (U ++ [.play pos]) D
  | leaving {st : State} {U T : List Request} {D : List ServerMsg} : (∀ q ∈ U, Say q) →
      Loose st T D → Inside t st (U ++ .leaveRoom :: T) D

theorem Inside.typed (hroom : InRoom t) (h : Inside t st U D) (ht : Typed st st' sent) :
    Inside t st' (U ++ sent) D := by
  cases h with
  | settled hw hU =>
      -- no frame leads from the menu or the name prompt into a room
      have hend : Menu st ∨ st = .connecting → False := by
        intro hst
        obtain rfl := hw.idle_end hst
        rcases hst with hst | rfl
        · rcases hroom with rfl | rfl | rfl | rfl <;> rcases hst with h | h | h | h <;> cases h
        · rcases hroom with h | h | h | h <;> cases h
      cases ht with
      | nothing =>
          rw [List.append_nil]
          exact .settled hw hU
      | connect => exact (hend (Or.inr rfl)).elim
      | choose _ => exact (hend (Or.inl (Or.inl rfl))).elim
      | create => exact (hend (Or.inl (Or.inl rfl))).elim
      | join => exact (hend (Or.inl (Or.inr (Or.inl rfl)))).elim
      | spectate => exact (hend (Or.inl (Or.inr (Or.inr (Or.inl rfl))))).elim
      | describe => exact (hend (Or.inl (Or.inr (Or.inr (Or.inr rfl))))).elim
      | play => exact .moved hw.to_move.1 hU hw.to_move.2
      | leave hin =>
          exact .leaving hU (.free (Or.inl (Or.inl rfl)) (List.forall_mem_nil _)
            (hw.stale (Or.inl hin)))
      | say hin =>
          refine .settled hw (List.forall_mem_append.mpr ⟨hU, fun q hq => ?_⟩)
          rw [List.mem_singleton.mp hq]
          trivial
  | moved ht' hU hD =>
      cases ht with
      | nothing =>
          rw [List.append_nil]
          exact .moved ht' hU hD
      | leave hin => rcases hin with hin | hin | hin | hin <;> cases hin
      | say hin => rcases hin with hin | hin | hin | hin <;> cases hin
  | leaving hU hl =>
      rw [List.append_assoc]
      exact .leaving hU (hl.typed ht)

theorem Inside.received (h : Inside t st U (m :: D)) : Inside t (after st m) U D := by
  cases h with
  | settled hw hU =>
      cases hw with
      | cons he hw =>
          rw [he.after]
          exact .settled hw hU
  | moved ht hU hD =>
      rw [after_chat _ (hD m List.mem_cons_self)]
      exact .moved ht hU fun m' hm' => hD m' (List.mem_cons_of_mem _ hm')
  | leaving hU hl => exact .leaving hU hl.received

/-- The room moves on to `t'` and tells the client so. -/
theorem Inside.more (h : Inside t st U D) (hw : Walk t fs t') (hfs : ∀ m ∈ fs, Stale m) :
    Inside t' st U (D ++ fs) := by
  cases h with
  | settled hw' hU => exact .settled (hw'.append hw) hU
  | moved ht hU hD =>
      subst ht
      obtain ⟨rfl, hchat⟩ := hw.to_move
      exact .moved rfl hU (List.forall_mem_append.mpr ⟨hD, hchat⟩)
  | leaving hU hl => exact .leaving hU (hl.more hfs)

/-- The room is closed. -/
theorem Inside.out (hroom : InRoom t) (h : Inside t st U D) (hfs : ∀ m ∈ fs, Stale m) :
    Loose st U (D ++ fs) := by
  have hsay : ∀ {U : List Request}, (∀ q ∈ U, Say q) → ∀ q ∈ U, Harmless q :=
    fun hU q hq => (hU q hq).harmless
  cases h with
  | settled hw hU =>
      refine Loose.more ?_ hfs
      by_cases hpending : Pending st
      · obtain ⟨D₀, m, D₁, rfl, hD₀, hplaced, hD₁⟩ := hw.answer hpending hroom
        exact .answered hpending (hsay hU) hD₀ (Or.inr hplaced) hD₁
      · have hplaced : Placed st := by
          obtain hp | hp | hidle := state_kinds st
          · exact absurd hp hpending
          · exact hp
          -- the frames on their way end in the room, and an idle state awaits none
          · obtain rfl := hw.idle_end hidle
            exact Or.inl hroom
        exact .free (Or.inr hplaced) (hsay hU) (hw.stale hplaced)
  | moved _ hU hD =>
      refine Loose.more (.free (Or.inr (Or.inr rfl)) (harmless_snoc (hsay hU) trivial) ?_) hfs
      exact fun m hm => (hD m hm).idle.stale
  | @leaving st U T D hU hl =>
      have hleave : ∀ q ∈ U ++ [Request.leaveRoom], Harmless q := harmless_snoc (hsay hU) trivial
      rw [List.append_cons]
      exact (hl.behind hleave).more hfs

/-- The oldest request of a client in a room is a message, its move, or its leave. -/
theorem Inside.head (h : Inside t st (q :: U) D) :
    (Say q ∧ Inside t st U D)
      ∨ (t = .waitingPlayInput ∧ st = .waitingPlayAck ∧ U = [] ∧ (∀ m ∈ D, Chat m)
        ∧ ∃ pos, q = .play pos)
      ∨ (q = .leaveRoom ∧ Loose st U D) := by
  generalize hqU : q :: U = U' at h
  cases h with
  | settled hw hU =>
      subst hqU
      exact Or.inl ⟨hU q List.mem_cons_self,
        .settled hw fun q' hq' => hU q' (List.mem_cons_of_mem _ hq')⟩
  | @moved pos U₀ D ht hU hD =>
      cases U₀ with
      | nil =>
          obtain ⟨rfl, rfl⟩ := List.cons.inj hqU
          exact Or.inr (Or.inl ⟨ht, rfl, rfl, hD, pos, rfl⟩)
      | cons q₀ U₀ =>
          obtain ⟨rfl, rfl⟩ := List.cons.inj hqU
          exact Or.inl ⟨hU q List.mem_cons_self,
            .moved ht (fun q' hq' => hU q' (List.mem_cons_of_mem _ hq')) hD⟩
  | @leaving st U₀ T D hU hl =>
      cases U₀ with
      | nil =>
          obtain ⟨rfl, rfl⟩ := List.cons.inj hqU
          exact Or.inr (Or.inr ⟨rfl, hl⟩)
      | cons q₀ U₀ =>
          obtain ⟨rfl, rfl⟩ := List.cons.inj hqU
          exact Or.inl ⟨hU q List.mem_cons_self,
            .leaving (fun q' hq' => hU q' (List.mem_cons_of_mem _ hq')) hl⟩

/-- A client in a room with nothing in flight is in the state its entry stands for. -/
theorem Inside.quiet (h : Inside t st [] []) : st = t := by
  generalize hU : ([] : List Request) = U at h
  cases h with
  | settled hw _ =>
      cases hw with
      | nil => rfl
  | moved _ _ _ =>
      exact absurd hU.symm (List.append_ne_nil_of_right_ne_nil _ (List.cons_ne_nil _ _))
  | leaving _ _ =>
      exact absurd hU.symm (List.append_ne_nil_of_right_ne_nil _ (List.cons_ne_nil _ _))

end AwaleDialogue
