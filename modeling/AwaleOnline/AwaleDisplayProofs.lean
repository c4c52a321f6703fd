import AwaleOnline.AwaleNewsProofs
import AwaleOnline.AwaleTurnProofs

/-!
# Screens are current

A run of the system with two histories beside it: for each connection, what its client has on
its screen, and what the server has told it.

* **`watch`** — how the histories grow: a frame that is read is displayed, a frame that is sent is
  told, and a new connection starts with neither;
* **`shows_own`** — whatever a client of a room does next, once it has read all that is on its
  way it shows all that it was told;
* **`screens_current`** — in every run under `turnGuard`, a member of a room with nothing in flight
  has on its screen the board its room's game has, from its own side, if it was told of any
  since it entered, and no board otherwise.
-/

namespace AwaleDisplay

open AwaleGame AwaleProtocol AwaleServer AwaleEffect AwaleBounds AwaleRoster
open AwaleClient AwaleSystem AwaleTidy AwaleDialogue AwaleStanding AwaleService AwaleTurn
open AwaleScreen AwaleNews

variable {sys sys' : System} {s s' : Server} {a c k e : Nat} {rand : UInt32} {q : Request}
  {st st' t t' : State} {U U' : List Request} {D fs : List ServerMsg} {m : ServerMsg}
  {sent : List Request} {screen : Option ServerMsg} {out : List Sent}

/-! ## A client in a room -/

/-- What a client in a room types shows nothing. -/
theorem shows_typed (hroom : InRoom t) (h : Inside t st U D) (ht : Typed st st' sent)
    (hno : ∀ q ∈ U ++ sent, q ≠ .leaveRoom) : shows st' screen D = shows st screen D := by
  cases h with
  | settled hw hU =>
      have hend : Menu st ∨ st = .connecting → False := by
        intro hst
        obtain rfl := hw.idle_end hst
        rcases hst with hst | rfl
        · rcases hroom with rfl | rfl | rfl | rfl <;> rcases hst with h | h | h | h <;> cases h
        · rcases hroom with h | h | h | h <;> cases h
      cases ht with
      | nothing => rfl
      | connect => exact (hend (Or.inr rfl)).elim
      | choose _ => exact (hend (Or.inl (Or.inl rfl))).elim
      | create => exact (hend (Or.inl (Or.inl rfl))).elim
      | join => exact (hend (Or.inl (Or.inr (Or.inl rfl)))).elim
      | spectate => exact (hend (Or.inl (Or.inr (Or.inr (Or.inl rfl))))).elim
      | describe => exact (hend (Or.inl (Or.inr (Or.inr (Or.inr rfl))))).elim
      | play => rw [shows_chat hw.to_move.2, shows_chat hw.to_move.2]
      | leave _ =>
          have hmem : Request.leaveRoom ∈ U ++ [Request.leaveRoom] :=
            List.mem_append_right _ List.mem_cons_self
          exact absurd rfl (hno _ hmem)
      | say _ => rfl
  | moved _ _ hD =>
      cases ht with
      | nothing => rfl
      | leave hin => rcases hin with hin | hin | hin | hin <;> cases hin
      | say hin => rcases hin with hin | hin | hin | hin <;> cases hin
  | leaving _ _ =>
      have hmem : ∀ {V T : List Request}, Request.leaveRoom ∈ V ++ .leaveRoom :: T :=
        fun {V T} => List.mem_append_right V List.mem_cons_self
      exact absurd rfl (hno _ (List.mem_append_left _ hmem))

/-- Without a leave in flight, the frames on their way lead into the room, or they are messages
    behind a move. -/
theorem inside_stays (h : Inside t st U D) (hno : ∀ q ∈ U, q ≠ .leaveRoom) :
    Walk st D t ∨ (st = .waitingPlayAck ∧ ∀ m ∈ D, Chat m) := by
  cases h with
  | settled hw _ => exact Or.inl hw
  | moved _ _ hD => exact Or.inr ⟨rfl, hD⟩
  | leaving _ _ =>
      exact absurd rfl (hno _ (List.mem_append_right _ List.mem_cons_self))

theorem told_chat (h : ∀ m ∈ D, Chat m) (told : Option ServerMsg) : D.foldl tell told = told :=
  foldl_mute fun m hm => mute_idle (h m hm).idle

/-- **A MEMBER BEFORE AND AFTER**: the new frames are shown as they are told. -/
theorem shows_own (hroom : InRoom t) (h : Inside t st U D) (hno : ∀ q ∈ U, q ≠ .leaveRoom)
    (h' : Inside t' st U' (D ++ fs)) (hno' : ∀ q ∈ U', q ≠ .leaveRoom) :
    shows st screen (D ++ fs) = fs.foldl tell (shows st screen D) := by
  have hchat : (∀ m ∈ D ++ fs, Chat m) →
      shows st screen (D ++ fs) = fs.foldl tell (shows st screen D) := by
    intro hall
    obtain ⟨hD, hfs⟩ := List.forall_mem_append.mp hall
    rw [shows_chat hall, shows_chat hD, told_chat hfs]
  rcases inside_stays h' hno' with hw' | ⟨-, hall⟩
  · rcases inside_stays h hno with hw | ⟨rfl, hD⟩
    · rw [shows_append_walk hw, shows_walk (Or.inl hroom) (walk_rest hw hw')]
    · -- the answer to its move
      rw [shows_walk (Or.inr rfl) hw', List.foldl_append, shows_chat hD, told_chat hD]
  · exact hchat hall

/-- **A CLIENT THAT WAS LET IN**: what is on its way before the answer is of no account. -/
theorem shows_let_in (hst : Pending st) (hstay : Walk st D st) (hroom : InRoom t)
    (h : Inside t st U (D ++ fs)) (hno : ∀ q ∈ U, q ≠ .leaveRoom) (told : Option ServerMsg) :
    shows st screen (D ++ fs) = fs.foldl tell told := by
  rcases inside_stays h hno with hw | ⟨rfl, -⟩
  · rw [shows_append_walk hstay]
    exact shows_pending hst hroom (walk_rest hstay hw) _ told
  · rcases hst with hst | hst | hst | hst <;> cases hst

/-! ## Out of the rooms -/

/-- A client whose room is `0` is in none. -/
theorem absent_of_zero (hset : Settled (roster s)) (hc : c < s.nbClients)
    (hzero : (s.clients c).roomId = 0) : Absent (roster s) c := by
  intro k e he
  have hlive := hset.homed c hc k e he
  exact (hset.numbered k _ hlive).1 hzero

theorem absent_leave (hset : Settled (roster s')) (hc : c < s.nbClients)
    (heff : Effect s c rand .leaveRoom s' out) : Absent (roster s') c := by
  have hn := heff.counts
  have hzero : (s'.clients c).roomId = 0 := by
    cases heff with
    | closed _ _ _ _ => exact congrArg Client.roomId (setClient_self s c _)
    | unwatched _ _ _ _ _ => exact congrArg Client.roomId (setClient_self s c _)
    | leftNothing _ _ _ _ _ => exact congrArg Client.roomId (setClient_self s c _)
  exact absent_of_zero hset (by omega) hzero

/-- A client in no room gets into one by CONNECT, CREATE_ROOM or JOIN_ROOM only. -/
theorem absent_harmless (hset : Settled (roster s)) (hset' : Settled (roster s'))
    (hc : c < s.nbClients) (habsent : Absent (roster s) c) (hq : Harmless q)
    (heff : Effect s c rand q s' out) : Absent (roster s') c := by
  have hnone := hset.findRoom_absent hc habsent
  have hkept : s'.rooms = s.rooms → s'.nbRooms = s.nbRooms →
      (s'.clients c).sock = (s.clients c).sock → Absent (roster s') c := by
    intro hrooms hnb hsock k e he
    have he' : entry s' k e = some (s'.clients c).sock := he
    rw [entry_congr hrooms hnb, hsock] at he'
    exact habsent k e he'
  have hsock := heff.sock c
  cases q with
  | connect name => exact hq.elim
  | createRoom => exact hq.elim
  | joinRoom roomId spectate => exact hq.elim
  | leaveRoom => exact absent_leave hset' hc heff
  | play pos =>
      cases heff with
      | playedNowhere _ => exact habsent
      | played hfind _ =>
          rw [hnone] at hfind
          cases hfind
      | playedLast hfind _ =>
          rw [hnone] at hfind
          cases hfind
  | sendMessage message =>
      cases heff with
      | messaged _ _ => exact habsent
  | setBiography biography =>
      cases heff with
      | described => exact hkept rfl rfl hsock

/-! ## The histories -/

/-- The boards on the screens and the boards told, by the descriptor of the server's end. -/
structure Sight where
  screen : Int → Option ServerMsg
  told : Int → Option ServerMsg

def Sight.blank : Sight := ⟨fun _ => none, fun _ => none⟩

/-- Client `c` has read a frame. -/
def Sight.read (g : Sight) (sys : System) (c : Nat) (m : ServerMsg) : Sight :=
  let sock := (sys.server.clients c).sock
  ⟨Function.update g.screen sock (display (sys.linkOf c).state (g.screen sock) m), g.told⟩

/-- The server has sent frames. -/
def Sight.hear (g : Sight) (out : List Sent) : Sight :=
  ⟨g.screen, fun sock => (framesTo sock out).foldl tell (g.told sock)⟩

/-- A connection is opened at `csock`. -/
def Sight.open (g : Sight) (csock : Int) : Sight :=
  ⟨Function.update g.screen csock none, Function.update g.told csock none⟩

def watch (sys : System) (e : Move) (g : Sight) : Sight :=
  match e with
  | .accept csock => g.open csock
  | .receive c =>
      match (sys.linkOf c).down with
      | [] => g
      | m :: _ => g.read sys c m
  | .serve c rand =>
      match serve sys c rand with
      | none => g
      | some r => g.hear r.2
  | _ => g

/-- The states under `turnGuard`, with their histories. -/
abbrev Watched : System × Sight → Prop :=
  GuardedRun.Reachable (GuardedRun.recording move watch) (fun p e => turnGuard p.1 e)
    (fun p => Initial p.1 ∧ p.2 = .blank)

/-- The members were told the board there is, and will have it on their screens. -/
structure InSight (sys : System) (g : Sight) : Prop where
  current : ∀ a < sys.server.nbClients, ∀ k e,
    entry sys.server k e = some (sys.server.clients a).sock →
    Current (sys.server.rooms k).game e (g.told (sys.server.clients a).sock)
  shown : ∀ a < sys.server.nbClients, ∀ k e,
    entry sys.server k e = some (sys.server.clients a).sock →
    (∀ q ∈ (sys.linkOf a).up, q ≠ .leaveRoom) →
    shows (sys.linkOf a).state (g.screen (sys.server.clients a).sock) (sys.linkOf a).down
      = g.told (sys.server.clients a).sock

variable {g : Sight}

/-- A move of one client's connection. -/
theorem InSight.setLink (h : InSight sys g) (hJ : Known sys.server) (hc : c < sys.server.nbClients)
    {l : Link} {screen : Option ServerMsg}
    (hl : ∀ k e, entry sys.server k e = some (sys.server.clients c).sock →
      (∀ q ∈ l.up, q ≠ .leaveRoom) →
      shows l.state screen l.down = g.told (sys.server.clients c).sock) :
    InSight ⟨sys.server, sys.setLink c l⟩
      { g with screen := Function.update g.screen (sys.server.clients c).sock screen } := by
  refine ⟨h.current, fun a ha k e he hno => ?_⟩
  by_cases hac : a = c
  · subst hac
    have hlink : System.linkOf ⟨sys.server, sys.setLink a l⟩ a = l := by
      rw [linkOf_setLink, if_pos rfl]
    rw [hlink] at hno ⊢
    show shows l.state (Function.update g.screen _ screen (sys.server.clients a).sock) l.down = _
    rw [Function.update_self]
    exact hl k e he hno
  · have hsock : (sys.server.clients a).sock ≠ (sys.server.clients c).sock :=
      fun heq => hac ((hJ.distinct a ha).2 c hc heq)
    have hlink : System.linkOf ⟨sys.server, sys.setLink c l⟩ a = sys.linkOf a := by
      rw [linkOf_setLink, if_neg hsock]
    rw [hlink] at hno ⊢
    show shows _ (Function.update g.screen _ screen (sys.server.clients a).sock) _ = _
    rw [Function.update_of_ne hsock]
    exact h.shown a ha k e he hno

theorem InSight.setState (h : InSight sys g) (hJ : Known sys.server)
    (hc : c < sys.server.nbClients) {l : Link}
    (hl : ∀ k e, entry sys.server k e = some (sys.server.clients c).sock →
      (∀ q ∈ l.up, q ≠ .leaveRoom) → shows l.state (g.screen (sys.server.clients c).sock) l.down
        = g.told (sys.server.clients c).sock) :
    InSight ⟨sys.server, sys.setLink c l⟩ g := by
  have hkept := h.setLink hJ hc hl
  rwa [Function.update_eq_self] at hkept

/-- A client with an entry is inside its room. -/
theorem InStep.inside (h : InStep sys) (ha : a < sys.server.nbClients)
    (hown : entry sys.server k e = some (sys.server.clients a).sock) :
    Inside (expected (sys.server.rooms k).game e) (sys.linkOf a).state (sys.linkOf a).up
      (sys.linkOf a).down := by
  cases h.coherent a ha with
  | fresh _ hout _ => exact absurd hown (hout k e)
  | loose _ hout _ => exact absurd hown (hout k e)
  | inside _ hown' _ hin =>
      obtain ⟨rfl, rfl⟩ := h.settled.single a ha k e _ _ hown hown'
      exact hin

/-! ## One move -/

theorem inSight_typed (hJ : Known sys.server) (hin : InStep sys) (h : InSight sys g)
    (hc : c < sys.server.nbClients) (ht : Typed (sys.linkOf c).state st sent) :
    InSight ⟨sys.server, sys.setLink c
      { sys.linkOf c with state := st, up := (sys.linkOf c).up ++ sent }⟩ g := by
  refine h.setState hJ hc fun k e he hno => ?_
  rw [shows_typed (expected_inRoom _ _) (InStep.inside hin hc he) ht hno]
  exact h.shown c hc k e he fun q hq => hno q (List.mem_append_left _ hq)

theorem inSight_received (hJ : Known sys.server) (h : InSight sys g)
    (hc : c < sys.server.nbClients) (hdown : (sys.linkOf c).down = m :: D) :
    InSight ⟨sys.server, sys.setLink c
      { sys.linkOf c with state := after (sys.linkOf c).state m, down := D }⟩ (g.read sys c m) := by
  refine h.setLink hJ hc fun k e he hno => ?_
  have hshown := h.shown c hc k e he hno
  rw [hdown] at hshown
  exact hshown

/-- The connections after the server has served the oldest request of client `c`. -/
theorem linkOf_after {up : List Request} (hJ : Known sys.server) (hc : c < sys.server.nbClients)
    (ha : a < sys.server.nbClients)
    (hsock : ∀ a, (s'.clients a).sock = (sys.server.clients a).sock) :
    System.linkOf ⟨s', deliver (sys.setLink c { sys.linkOf c with up := up }) out⟩ a
      = { sys.linkOf a with
          up := if a = c then up else (sys.linkOf a).up
          down := (sys.linkOf a).down ++ framesTo (sys.server.clients a).sock out } := by
  rw [linkOf_served hsock, linkOf_setLink]
  by_cases hac : a = c
  · subst hac
    rw [if_pos rfl, if_pos rfl]
  · have hne : (sys.server.clients a).sock ≠ (sys.server.clients c).sock :=
      fun heq => hac ((hJ.distinct a ha).2 c hc heq)
    rw [if_neg hne, if_neg hac]

/-- A client that is let into a room by the request served. -/
theorem shows_arrival (ho : Orderly s) (hset' : Settled (roster s')) (hc : c < s.nbClients)
    (habsent : Absent (roster s) c) (hcoh : Coherent s c st (q :: U) D)
    (heff : Effect s c rand q s' out) (hown : entry s' k e = some (s'.clients c).sock)
    (hin : Inside t st U (D ++ fs)) (hroom : InRoom t) (hno : ∀ q ∈ U, q ≠ .leaveRoom)
    (told : Option ServerMsg) : shows st screen (D ++ fs) = fs.foldl tell told := by
  have hasked : q = .createRoom ∨ (∃ roomId spectate, q = .joinRoom roomId spectate) →
      shows st screen (D ++ fs) = fs.foldl tell told := by
    intro hq
    obtain ⟨-, -, hasks, -, hD⟩ := hcoh.asking hq
    have hstay : Walk st D st := .stay fun m hm => .skip hasks.asking (hD m hm)
    exact shows_let_in (Or.inr hasks.asking) hstay hroom hin hno told
  have hharmless : Harmless q → shows st screen (D ++ fs) = fs.foldl tell told := fun hq =>
    absurd hown (absent_harmless ho.settled hset' hc habsent hq heff k e)
  cases q with
  | connect name =>
      obtain ⟨-, -, rfl, -, hD⟩ := hcoh.connecting
      have hstay : Walk .waitingConnection D .waitingConnection :=
        .stay fun m hm => .stopped (hD m hm)
      exact shows_let_in (Or.inl rfl) hstay hroom hin hno told
  | createRoom => exact hasked (Or.inl rfl)
  | joinRoom roomId spectate => exact hasked (Or.inr ⟨_, _, rfl⟩)
  | play pos => exact hharmless trivial
  | leaveRoom => exact hharmless trivial
  | sendMessage message => exact hharmless trivial
  | setBiography biography => exact hharmless trivial

/-- **SERVING A REQUEST**, for the sender and for everyone else. -/
theorem inSight_served {up : List Request} (hJ : Known sys.server) (hin : InStep sys)
    (hin' : InStep ⟨s', deliver (sys.setLink c { sys.linkOf c with up := up }) out⟩)
    (h : InSight sys g) (hc : c < sys.server.nbClients) (hup : (sys.linkOf c).up = q :: up)
    (hq : RequestMeets sys.server c rand q)
    (heff : Effect (AwaleEffect.received sys.server q.body) c rand q s' out) :
    InSight ⟨s', deliver (sys.setLink c { sys.linkOf c with up := up }) out⟩ (g.hear out) := by
  have ho : Orderly (AwaleEffect.received sys.server q.body) :=
    ⟨hin.settled, hJ.distinct, hJ.sized, hJ.founded, hin.opening⟩
  have hcoh : Coherent (AwaleEffect.received sys.server q.body) c (sys.linkOf c).state (q :: up)
      (sys.linkOf c).down := hup ▸ (hin.coherent c hc).congr rfl rfl rfl
  have hsock : ∀ a, (s'.clients a).sock = (sys.server.clients a).sock := fun a => heff.sock a
  have hn : s'.nbClients = sys.server.nbClients := heff.counts
  refine ⟨fun a ha k e he => ?_, fun a ha k e he hno => ?_⟩
  · have ha' : a < sys.server.nbClients := hn ▸ ha
    have he' : entry s' k e = some (s'.clients a).sock := he
    have hinf := informs_request ho hc (requestMeets_received hq) hcoh heff ha'
    rw [hsock a] at he'
    show Current (s'.rooms k).game e ((g.hear out).told (s'.clients a).sock)
    rw [hsock a]
    exact hinf k e he' _ fun k₀ hk₀ => h.current a ha' k₀ e hk₀
  · have ha' : a < sys.server.nbClients := hn ▸ ha
    have hinside := InStep.inside hin' ha he
    rw [linkOf_after hJ hc ha' hsock] at hno hinside ⊢
    show shows (sys.linkOf a).state (g.screen (s'.clients a).sock) ((sys.linkOf a).down ++ _)
      = (framesTo (s'.clients a).sock out).foldl tell (g.told (s'.clients a).sock)
    rw [hsock a]
    by_cases hac : a = c
    · subst hac
      have hleft : ∀ q' ∈ up, q' ≠ .leaveRoom := fun q' hq' => hno q' (by rwa [if_pos rfl])
      have hinside' : Inside _ (sys.linkOf a).state up _ := if_pos (rfl : a = a) ▸ hinside
      by_cases habsent : Absent (roster sys.server) a
      · exact shows_arrival ho hin'.settled hc habsent hcoh heff he hinside'
          (expected_inRoom _ _) hleft _
      · obtain ⟨k₀, e₀, hown⟩ := entry_of_not_absent habsent
        have hstay : ∀ q' ∈ q :: up, q' ≠ .leaveRoom := by
          intro q' hq'
          rcases List.mem_cons.mp hq' with rfl | hq'
          · rintro rfl
            exact absent_leave (s := AwaleEffect.received sys.server _) hin'.settled hc heff k e he
          · exact hleft q' hq'
        have hbefore := InStep.inside hin hc hown
        rw [hup] at hbefore
        rw [shows_own (expected_inRoom _ _) hbefore hstay hinside' hleft,
          h.shown a hc k₀ e₀ hown (by rwa [hup])]
    · have hserved := served_request ho hc (fun b hb k e he hown => hin.named hb he hown)
        (requestMeets_received hq) hcoh heff
      have he' : entry s' k e = some (s'.clients a).sock := he
      rw [hsock a] at he'
      obtain ⟨k₀, hown, -⟩ := (hserved.others a ha' hac).origin k e he'
      have hleft : ∀ q' ∈ (sys.linkOf a).up, q' ≠ .leaveRoom :=
        fun q' hq' => hno q' (by rwa [if_neg hac])
      have hinside' : Inside _ (sys.linkOf a).state (sys.linkOf a).up _ := if_neg hac ▸ hinside
      rw [shows_own (expected_inRoom _ _) (InStep.inside hin ha' hown) hleft hinside' hleft,
        h.shown a ha' k₀ e hown hleft]

theorem inSight_accepted {csock : Int} (hin : InStep sys) (h : InSight sys g)
    (hpos : 0 < csock) (hnew : ∀ i < sys.server.nbClients, (sys.server.clients i).sock ≠ csock) :
    InSight ⟨accepted sys.server csock, Function.update sys.link csock .fresh⟩
      (g.open csock) := by
  have hold : ∀ a < sys.server.nbClients + 1, ∀ k e,
      entry (accepted sys.server csock) k e
        = some ((accepted sys.server csock).clients a).sock →
      a < sys.server.nbClients
        ∧ (accepted sys.server csock).clients a = sys.server.clients a
        ∧ entry sys.server k e = some (sys.server.clients a).sock := by
    intro a ha k e he
    by_cases hlast : a = sys.server.nbClients
    · -- no entry holds the new descriptor
      have hself : (accepted sys.server csock).clients a
          = ⟨csock, CString.empty, 0, CString.empty⟩ := hlast ▸ Function.update_self ..
      rw [hself] at he
      rcases hin.settled.sound k e csock he with hneg | ⟨b, hb, hsock⟩
      · omega
      · exact absurd hsock (hnew b hb)
    · have hkept : (accepted sys.server csock).clients a = sys.server.clients a :=
        Function.update_of_ne hlast ..
      rw [hkept] at he
      exact ⟨by omega, hkept, he⟩
  refine ⟨fun a ha k e he => ?_, fun a ha k e he hno => ?_⟩
  · obtain ⟨hlt, hclient, he'⟩ := hold a ha k e he
    show Current (sys.server.rooms k).game e
      (Function.update g.told csock none ((accepted sys.server csock).clients a).sock)
    rw [hclient, Function.update_of_ne (hnew a hlt)]
    exact h.current a hlt k e he'
  · obtain ⟨hlt, hclient, he'⟩ := hold a ha k e he
    rcases linkOf_accepted hnew ha with ⟨rfl, -⟩ | ⟨-, hlink⟩
    · exact absurd hlt (Nat.lt_irrefl _)
    · rw [hlink] at hno ⊢
      show shows (sys.linkOf a).state
          (Function.update g.screen csock none ((accepted sys.server csock).clients a).sock) _
        = Function.update g.told csock none ((accepted sys.server csock).clients a).sock
      rw [hclient, Function.update_of_ne (hnew a hlt), Function.update_of_ne (hnew a hlt)]
      exact h.shown a hlt k e he' hno

theorem inSight_hungUp {s₁ : Server} {buffer : Buffer} (hJ : Known sys.server) (hin : InStep sys)
    (h : InSight sys g) (hc : c < sys.server.nbClients) (hm : ScanMeets sys.server c)
    (hd : disconnectUser sys.server c = .ok s₁) :
    InSight ⟨{ removeClient s₁ c with buffer := buffer }, sys.link⟩ g := by
  have ho := hin.orderly hJ
  have hdet := detached (fun k => (hJ.sized k).seats) hm hd
  obtain ⟨hclients, -, -⟩ := disconnectUser_frame hd
  -- an entry that is left was the client's before, and its view has not changed
  have hinf : ∀ x : Int, x ≠ -1 → Informs sys.server s₁ x [] :=
    fun x hx => informs_detached ho hdet hx
  refine ⟨fun a ha k e he => ?_, fun a ha k e he hno => ?_⟩
  · obtain ⟨hlt, hentry, -⟩ := linkOf_hungUp (b := buffer) hc hd ha
    have he' : entry s₁ k e = some ((removeClient s₁ c).clients a).sock := he
    rw [hentry] at he'
    show Current (s₁.rooms k).game e (g.told ((removeClient s₁ c).clients a).sock)
    rw [hentry]
    exact hinf _ (ho.sock_ne_vacant hlt) k e he' _ fun k₀ hk₀ => h.current _ hlt k₀ e hk₀
  · obtain ⟨hlt, hentry, hlink⟩ := linkOf_hungUp (b := buffer) hc hd ha
    have he' : entry s₁ k e = some ((removeClient s₁ c).clients a).sock := he
    rw [hentry] at he'
    obtain ⟨k₀, hk₀, -⟩ := (ho.keeps_detached hlt hdet).origin k e he'
    rw [hlink] at hno ⊢
    show shows _ (g.screen ((removeClient s₁ c).clients a).sock) _
      = g.told ((removeClient s₁ c).clients a).sock
    rw [hentry]
    exact h.shown _ hlt k₀ e hk₀ hno

/-! ## Runs -/

theorem inSight_moved {e : Move} (hJ : Known sys.server) (hin : InStep sys) (h : InSight sys g)
    (hC : turnGuard sys e) (hmove : move sys e = some (sys', out)) (hfits : Fits sys) :
    InSight sys' (watch sys e g) := by
  have hm := move_moved hfits hmove
  have hin' := inStep_moved hJ hin hC hm
  cases hm with
  | accepted _ hpos hnew => exact inSight_accepted hin h hpos hnew
  | exited hc _ => exact h.setState hJ hc fun k e he hno => h.shown _ hc k e he hno
  | typed hc _ ht _ => exact inSight_typed hJ hin h hc ht
  | @received c m down hc _ hdown =>
      have hwatch : watch sys (.receive c) g = g.read sys c m := by
        simp only [watch, hdown]
      rw [hwatch]
      exact inSight_received hJ h hc hdown
  | @served c rand q up s' out hc hup heff =>
      have hserve : serve sys c rand = some (_, out) := hmove
      have hwatch : watch sys (.serve c rand) g = g.hear out := by
        simp only [watch, hserve]
      rw [hwatch]
      refine inSight_served hJ hin hin' h hc hup (hC q ?_) heff
      rw [hup]
      rfl
  | hungUp hc _ _ hd => exact inSight_hungUp hJ hin h hc hC.1 hd

theorem watched_reachable {p : System × Sight} (h : Watched p) : Reachable turnGuard p.1 :=
  GuardedRun.Reachable.forget h

theorem inSight_watched {p : System × Sight} (h : Watched p) : InSight p.1 p.2 := by
  refine GuardedRun.Reachable.invariant_of (I := fun p => InSight p.1 p.2) ?_ ?_ h
  · rintro ⟨⟨s, link⟩, g⟩ ⟨⟨⟨b, rfl⟩, -⟩, rfl⟩
    exact ⟨fun a ha => absurd ha (Nat.not_lt_zero a), fun a ha => absurd ha (Nat.not_lt_zero a)⟩
  · intro p e p' out hr hI hC hstep
    obtain ⟨hmove, hg⟩ := GuardedRun.recording_eq_some hstep
    have hreach := watched_reachable hr
    rw [hg]
    exact inSight_moved (known_reachable hreach) (inStep_reachable hreach) hI hC hmove
      (fits hreach)

/-- With nothing in flight, what was told is what is shown. -/
theorem InSight.read_all {g : Sight} (h : InSight sys g) (hc : c < sys.server.nbClients)
    (hown : entry sys.server k e = some (sys.server.clients c).sock)
    (hquiet : Quiet (sys.linkOf c)) :
    g.screen (sys.server.clients c).sock = g.told (sys.server.clients c).sock := by
  have hshown : shows (sys.linkOf c).state (g.screen (sys.server.clients c).sock)
      (sys.linkOf c).down = g.told (sys.server.clients c).sock := by
    refine h.shown c hc k e hown fun q hq => ?_
    have hup : (sys.linkOf c).up = [] := hquiet.1
    rw [hup] at hq
    exact absurd hq List.not_mem_nil
  have hdown : (sys.linkOf c).down = [] := hquiet.2
  rw [hdown] at hshown
  exact hshown

/-- **SCREENS ARE CURRENT.**  In every state of a run under `turnGuard`, a member of a room with
    nothing in flight shows what it was last told since it entered: no board, or, once the game
    has started, the board of the game as its entry sees it. -/
theorem screens_current {g : Sight} (h : Watched (sys, g)) (hc : c < sys.server.nbClients)
    (hown : entry sys.server k e = some (sys.server.clients c).sock)
    (hquiet : Quiet (sys.linkOf c)) :
    g.screen (sys.server.clients c).sock = g.told (sys.server.clients c).sock
      ∧ (g.screen (sys.server.clients c).sock = none
        ∨ ((sys.server.rooms k).game.isStarted = true
          ∧ g.screen (sys.server.clients c).sock
            = some (writePlayed (viewSide (sys.server.rooms k).game e)
                (sys.server.rooms k).game))) := by
  have hin := inSight_watched h
  have hsame := hin.read_all hc hown hquiet
  refine ⟨hsame, ?_⟩
  rw [hsame]
  exact hin.current c hc k e hown

/-- The second player is back in its seat, with nothing in flight and a board on its screen. -/
def Back (p : System × Sight) : Prop :=
  p.1.linkOf 1 = ⟨.waitingPlayInput, [], [], false⟩ ∧ p.1.server.nbClients = 2
    ∧ p.1.server.nbRooms = 1 ∧ (p.1.server.rooms 0).game.nbPlayers = 2
    ∧ ((p.1.server.rooms 0).game.players 1).id = (p.1.server.clients 1).sock
    ∧ (p.2.screen (p.1.server.clients 1).sock).isSome = true

instance (p : System × Sight) : Decidable (Back p) :=
  inferInstanceAs (Decidable (_ ∧ _ ∧ _ ∧ _ ∧ _ ∧ _))

theorem comeback_watched : ∃ p : System × Sight, Watched p ∧ Back p := by
  have hmeets : GuardedRun.Meets (GuardedRun.recording move watch) (fun p e => turnGuard p.1 e)
      (start, .blank) comeback := by
    decide +kernel
  have hrun : (GuardedRun.run (GuardedRun.recording move watch) (start, .blank) comeback).map
      (fun r => decide (Back r.1)) = some true := by
    decide +kernel
  have hinit : Initial start ∧ Sight.blank = .blank := ⟨⟨⟨_, rfl⟩, rfl⟩, rfl⟩
  obtain ⟨p, hp, hf⟩ : ∃ p, Watched p ∧ decide (Back p) = true :=
    GuardedRun.reachable_of_eval hinit hmeets hrun
  exact ⟨p, hp, of_decide_eq_true hf⟩

theorem Back.quiet {p : System × Sight} (h : Back p) : Quiet (p.1.linkOf 1) := by
  rw [h.1]
  exact ⟨rfl, rfl⟩

theorem Back.seated {p : System × Sight} (h : Back p) :
    entry p.1.server 0 1 = some (p.1.server.clients 1).sock := by
  obtain ⟨-, -, hnb, hplayers, hid, -⟩ := h
  refine entry_eq_some.mpr ⟨live_iff.mpr ?_, Or.inl (hplayers.symm ▸ Nat.one_lt_two), hid⟩
  rw [hnb]
  decide

/-- It has lost its connection and seen nothing of the first move, which it is shown now. -/
theorem screens_current_comeback :
    ∃ p : System × Sight, (p.1.linkOf 1).state = .waitingPlayInput
      ∧ p.2.screen (p.1.server.clients 1).sock
        = some (writePlayed 1 (p.1.server.rooms 0).game) := by
  obtain ⟨⟨sys, g⟩, hp, hback⟩ := comeback_watched
  obtain ⟨-, hnone | ⟨-, hboard⟩⟩ :=
    screens_current hp (hback.2.1.symm ▸ Nat.one_lt_two) hback.seated hback.quiet
  all_goals obtain ⟨hlink, -, -, hplayers, -, hsome⟩ := hback
  · rw [hnone] at hsome
    cases hsome
  · refine ⟨(sys, g), congrArg Link.state hlink, ?_⟩
    have hside : viewSide (sys.server.rooms 0).game 1 = 1 := if_pos (hplayers.symm ▸ Nat.one_lt_two)
    rw [hside] at hboard
    exact hboard

end AwaleDisplay
