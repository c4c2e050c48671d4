import Werewolf.Authority.GateProperties
import Werewolf.Library.Transition

/-! The life of a ticket. It ends when the epoch passes it, when the gate is
locked in its last epoch, or when its generation is denied or removed; none of
these is ever undone, as epochs only grow and a generation's number is never
given out twice. -/

namespace Werewolf.Authority
open Library

/-- An operation on the gate, or a use that is made of a lease. -/
inductive GateEvent (Use : Type) where
  | connection
  | ticket (text : String)
  | reserve (ticket : AuthorityTicket) (transport : Transport)
  | publish (lease : UInt64)
  | denyPeer (text : String)
  | removed (text : String)
  | lock
  | openAfterDurable (expected : UInt64)
  | lease (use : Use)

inductive Working where
  | submit (lease : UInt64)
  | release (lease : UInt64)

namespace Gate

variable {gate after before : Gate} {id : UInt64}

def step (gate : Gate) : GateEvent Working → Gate
  | .connection => (gate.allocate.map (·.2)).getD gate
  | .ticket text => ((gate.ticket text).map (·.2)).getD gate
  | .reserve ticket transport => ((gate.reserve ticket transport).map (·.2)).getD gate
  | .publish lease => (gate.publish lease).getD gate
  | .lease (.submit _) => gate
  | .denyPeer text => (gate.denyPeer text).getD gate
  | .removed text => (gate.removed text).getD gate
  | .lock => gate.lock.1
  | .openAfterDurable expected => (gate.openAfterDurable expected).getD gate
  | .lease (.release lease) => gate.release lease

def lastEpoch : UInt64 := 0xFFFFFFFFFFFFFFFF

theorem cancelSessions_lookup {selects : Entry → Bool} {entry : Entry}
    (found : (gate.cancelSessions selects).sessions.lookup id = some entry) :
    ∃ older, gate.sessions.lookup id = some older ∧ older.ticket = entry.ticket ∧
      (entry.cancelled = false → older = entry ∧ selects entry = false) := by
  let signal : UInt64 → Entry → Entry :=
    fun _ entry => if selects entry then { entry with cancelled := true } else entry
  have shape : (gate.cancelSessions selects).sessions.lookup id = (gate.sessions.lookup id).map (signal id) :=
    (AList.lookup_to_alist _).trans (List.dlookup_map₂ (f := signal) (l := gate.sessions.entries) id)
  rw [shape] at found
  obtain ⟨older, known, rfl⟩ := Option.map_eq_some_iff.mp found
  refine ⟨older, known, ?_⟩
  simp only [signal]
  split <;> simp_all

/-- What any operation does to what a ticket depends on. An authorized
generation was there before or has a number that was not given out before. -/
structure Advances (before after : Gate) : Prop where
  next : before.next.toNat ≤ after.next.toNat
  epoch : (after.epoch = before.epoch ∧ after.locked = before.locked) ∨
    before.epoch.toNat < after.epoch.toNat ∨
    (after.epoch = before.epoch ∧ after.locked = true ∧ after.epoch = lastEpoch)
  authorized : ∀ peer generation, after.peers.lookup peer = some generation →
    generation.state = .authorized →
      before.peers.lookup peer = some generation ∨ generation.number = before.next
  numbers : ∀ peer generation, after.peers.lookup peer = some generation →
    (∃ older, before.peers.lookup peer = some older ∧ older.number = generation.number) ∨
      (generation.number = before.next ∧ before.next.toNat < after.next.toNat)
  tickets : ∀ id entry, after.sessions.lookup id = some entry →
    (∃ older, before.sessions.lookup id = some older ∧ older.ticket = entry.ticket) ∨
      (id = before.next ∧ before.next.toNat < after.next.toNat)

namespace Advances

theorem refl (gate : Gate) : Advances gate gate where
  next := Nat.le_refl _
  epoch := .inl ⟨rfl, rfl⟩
  authorized _ _ found _ := .inl found
  numbers _ generation found := .inl ⟨generation, found, rfl⟩
  tickets _ entry found := .inl ⟨entry, found, rfl⟩

theorem of_epoch {gate : Gate} {next epoch : UInt64} {locked : Bool} (grows : gate.next.toNat ≤ next.toNat)
    (moves : (epoch = gate.epoch ∧ locked = gate.locked) ∨ gate.epoch.toNat < epoch.toNat ∨
      (epoch = gate.epoch ∧ locked = true ∧ epoch = lastEpoch)) :
    Advances gate { gate with next := next, epoch := epoch, locked := locked } where
  next := grows
  epoch := moves
  authorized _ _ found _ := .inl found
  numbers _ generation found := .inl ⟨generation, found, rfl⟩
  tickets _ entry found := .inl ⟨entry, found, rfl⟩

theorem cancelSessions {before after : Gate} (advances : Advances before after)
    (selects : Entry → Bool) : Advances before (after.cancelSessions selects) where
  next := advances.next
  epoch := advances.epoch
  authorized := advances.authorized
  numbers := advances.numbers
  tickets id entry found := by
    obtain ⟨older, known, same, _⟩ := cancelSessions_lookup found
    rw [← same]
    exact advances.tickets id older known

end Advances

theorem enroll_advances {peer : Peer} {state : PeerAuthority}
    (enrolled : gate.enroll peer state = some after) : Advances gate after := by
  obtain ⟨next, rfl, grows⟩ := enroll_some enrolled
  have fresh (other : Peer) (generation : Generation)
      (known : (gate.peers.insert peer ⟨gate.next, state⟩).lookup other = some generation) :
      gate.peers.lookup other = some generation ∨ generation = ⟨gate.next, state⟩ := by
    by_cases same : other = peer
    · subst same
      rw [AList.lookup_insert] at known
      exact .inr (Option.some.inj known).symm
    · rw [AList.lookup_insert_ne same] at known
      exact .inl known
  refine ⟨by simp only; omega, .inl ⟨rfl, rfl⟩, fun other generation known _ => ?_,
    fun other generation known => ?_, fun id entry known => .inl ⟨entry, known, rfl⟩⟩
  · rcases fresh other generation known with known | rfl
    · exact .inl known
    · exact .inr rfl
  · rcases fresh other generation known with known | rfl
    · exact .inl ⟨generation, known, rfl⟩
    · exact .inr ⟨rfl, by simp only; omega⟩

theorem ticket_advances {text : String} {ticket : AuthorityTicket}
    (issued : gate.ticket text = some (ticket, after)) : Advances gate after := by
  rcases ticket_enrolls issued with rfl | ⟨peer, _, enrolled⟩
  · exact .refl _
  · exact enroll_advances enrolled

theorem reserve_advances {ticket : AuthorityTicket} {transport : Transport}
    (reserved : gate.reserve ticket transport = some (id, after)) :
    Advances gate after ∧ after.sessions.lookup id = some ⟨ticket, transport, false, false⟩ := by
  obtain ⟨_, rfl, next, rfl, grows⟩ := reserve_eq reserved
  refine ⟨⟨by simp only; omega, .inl ⟨rfl, rfl⟩, fun _ _ known _ => .inl known,
    fun _ generation known => .inl ⟨generation, known, rfl⟩, fun other entry known => ?_⟩,
    AList.lookup_insert _⟩
  by_cases same : other = gate.next
  · exact .inr ⟨same, by simp only; omega⟩
  · simp only [AList.lookup_insert_ne same] at known
    exact .inl ⟨entry, known, rfl⟩

theorem publish_advances (published : gate.publish id = some after) : Advances gate after := by
  obtain ⟨entry, listed, rfl⟩ := publish_some published
  refine ⟨Nat.le_refl _, .inl ⟨rfl, rfl⟩, fun _ _ known _ => .inl known,
    fun _ generation known => .inl ⟨generation, known, rfl⟩, fun other later known => .inl ?_⟩
  by_cases same : other = id
  · subst same
    simp only [AList.lookup_insert, Option.some.injEq] at known
    exact ⟨entry, listed, by rw [← known]⟩
  · simp only [AList.lookup_insert_ne same] at known
    exact ⟨later, known, rfl⟩

theorem denied_advances {peer : Peer} (denied : gate.denied peer = some after) : Advances gate after := by
  unfold Gate.denied at denied
  split at denied
  · exact enroll_advances denied
  · rename_i generation listed
    cases denied
    refine ⟨Nat.le_refl _, .inl ⟨rfl, rfl⟩, fun other later known authorized => ?_,
      fun other later known => ?_, fun _ entry known => .inl ⟨entry, known, rfl⟩⟩
    · by_cases same : other = peer
      · subst same
        simp only [AList.lookup_insert, Option.some.injEq] at known
        subst known
        cases authorized
      · simp only [AList.lookup_insert_ne same] at known
        exact .inl known
    · by_cases same : other = peer
      · subst same
        simp only [AList.lookup_insert, Option.some.injEq] at known
        exact .inl ⟨generation, listed, by rw [← known]⟩
      · simp only [AList.lookup_insert_ne same] at known
        exact .inl ⟨later, known, rfl⟩

theorem removed_advances {text : String} (removal : gate.removed text = some after) : Advances gate after := by
  simp only [removed, bind_eq_some, return_eq_some] at removal
  obtain ⟨peer, _, _, _, _, _, rfl⟩ := removal
  have kept (other : Peer) (generation : Generation)
      (known : (gate.peers.erase peer).lookup other = some generation) :
      gate.peers.lookup other = some generation := by
    by_cases same : other = peer
    · subst same
      rw [AList.lookup_erase] at known
      cases known
    · rwa [AList.lookup_erase_ne same] at known
  exact ⟨Nat.le_refl _, .inl ⟨rfl, rfl⟩, fun other generation known _ => .inl (kept _ _ known),
    fun other generation known => .inl ⟨generation, kept _ _ known, rfl⟩,
    fun _ entry known => .inl ⟨entry, known, rfl⟩⟩

theorem lock_advances (gate : Gate) : Advances gate gate.lock.1 := by
  have signalled := (Advances.refl gate).cancelSessions (fun _ => true)
  refine ⟨signalled.next, .inr ?_, signalled.authorized, signalled.numbers, signalled.tickets⟩
  simp only [lock]
  cases advanced : checkedSucc gate.epoch with
  | some epoch =>
    have grows := checkedSucc_some advanced
    exact .inl (by rw [Option.getD_some]; omega)
  | none =>
    simp only [checkedSucc, ite_eq_left_iff, reduceCtorEq, imp_false, not_not] at advanced
    refine .inr ⟨?_, trivial, rfl⟩
    rw [Option.getD_none, advanced]

theorem openAfterDurable_advances {expected : UInt64}
    (opened : gate.openAfterDurable expected = some after) : Advances gate after := by
  simp only [openAfterDurable, bind_eq_some, return_eq_some] at opened
  obtain ⟨_, _, epoch, advanced, rfl⟩ := opened
  have grows := checkedSucc_some advanced
  exact .of_epoch (Nat.le_refl _) (.inr (.inl (by omega)))

theorem release_advances (gate : Gate) (id : UInt64) : Advances gate (gate.release id) := by
  refine ⟨Nat.le_refl _, .inl ⟨rfl, rfl⟩, fun _ _ known _ => .inl known,
    fun _ generation known => .inl ⟨generation, known, rfl⟩, fun other entry known => .inl ?_⟩
  by_cases same : other = id
  · subst same
    simp only [release, AList.lookup_erase, reduceCtorEq] at known
  · simp only [release, AList.lookup_erase_ne same] at known
    exact ⟨entry, known, rfl⟩

private theorem advances_getD {result : Option Gate} (accepted : ∀ after, result = some after → Advances gate after) :
    Advances gate (result.getD gate) := by
  cases result with
  | none => exact .refl gate
  | some after => exact accepted after rfl

private theorem advances_map_getD {α : Type} {result : Option (α × Gate)}
    (accepted : ∀ value after, result = some (value, after) → Advances gate after) :
    Advances gate ((result.map (·.2)).getD gate) := by
  cases result with
  | none => exact .refl gate
  | some pair => exact accepted pair.1 pair.2 rfl

theorem step_advances (gate : Gate) (event : GateEvent Working) : Advances gate (gate.step event) := by
  cases event with
  | connection =>
    refine advances_map_getD fun id after allocated => ?_
    obtain ⟨_, next, rfl, grows⟩ := allocate_some allocated
    exact .of_epoch (by omega) (.inl ⟨rfl, rfl⟩)
  | ticket text => exact advances_map_getD fun _ _ issued => ticket_advances issued
  | reserve ticket transport =>
    exact advances_map_getD fun _ _ reserved => (reserve_advances reserved).1
  | publish lease => exact advances_getD fun _ published => publish_advances published
  | denyPeer text =>
    refine advances_getD fun after denied => ?_
    simp only [denyPeer, bind_eq_some, return_eq_some] at denied
    obtain ⟨peer, _, reached, marked, rfl⟩ := denied
    exact (denied_advances marked).cancelSessions _
  | removed text => exact advances_getD fun _ removal => removed_advances removal
  | lock => exact lock_advances gate
  | openAfterDurable expected => exact advances_getD fun _ opened => openAfterDurable_advances opened
  | lease use =>
    cases use with
    | submit lease => exact .refl gate
    | release lease => exact release_advances gate lease

structure Numbered (gate : Gate) : Prop where
  generations : ∀ peer generation, gate.peers.lookup peer = some generation →
    generation.number.toNat < gate.next.toNat
  leases : ∀ id entry, gate.sessions.lookup id = some entry → id.toNat < gate.next.toNat

theorem numbered_initial (locked : Bool) : (initial locked).Numbered :=
  ⟨fun _ _ found => (nomatch found), fun _ _ found => (nomatch found)⟩

theorem Numbered.advances (numbered : before.Numbered) (advances : Advances before after) : after.Numbered where
  generations peer generation found := by
    have grows := advances.next
    rcases advances.numbers peer generation found with ⟨older, known, same⟩ | ⟨same, fresh⟩
    · have below := numbered.generations peer older known
      rw [← same]
      omega
    · rw [same]
      exact fresh
  leases id entry found := by
    have grows := advances.next
    rcases advances.tickets id entry found with ⟨older, known, _⟩ | ⟨rfl, fresh⟩
    · have below := numbered.leases id older known
      omega
    · exact fresh

/-- The three ways in which a ticket has come to its end. -/
inductive Spent (gate : Gate) (ticket : AuthorityTicket) : Prop where
  | passed (epoch : ticket.epoch.toNat < gate.epoch.toNat)
  | exhausted (locked : gate.locked = true) (last : gate.epoch = lastEpoch)
  | withdrawn (issued : ticket.generation.toNat < gate.next.toNat)
      (gone : ∀ generation, gate.peers.lookup ticket.peer = some generation →
        generation.state = .authorized → generation.number ≠ ticket.generation)

theorem current_iff {ticket : AuthorityTicket} :
    gate.current ticket = true ↔ gate.locked = false ∧ gate.epoch = ticket.epoch ∧
      ∃ generation, gate.peers.lookup ticket.peer = some generation ∧
        generation.number = ticket.generation ∧ generation.state = .authorized := by
  simp only [current, Bool.and_eq_true, Bool.not_eq_true', decide_eq_true_eq, Option.any_eq_true, and_assoc]

theorem Spent.not_current {ticket : AuthorityTicket} (spent : gate.Spent ticket) : gate.current ticket = false := by
  rw [← Bool.not_eq_true, current_iff]
  rintro ⟨unlocked, epoch, generation, found, number, authorized⟩
  cases spent with
  | passed later => rw [epoch] at later; omega
  | exhausted locked _ => rw [locked] at unlocked; cases unlocked
  | withdrawn _ gone => exact gone generation found authorized number

theorem Spent.advances {ticket : AuthorityTicket} (spent : before.Spent ticket)
    (advances : Advances before after) : after.Spent ticket := by
  cases spent with
  | passed epoch =>
    refine .passed ?_
    rcases advances.epoch with ⟨same, _⟩ | later | ⟨same, _⟩
    · rwa [same]
    · omega
    · rwa [same]
  | exhausted locked last =>
    rcases advances.epoch with ⟨same, kept⟩ | later | ⟨_, kept, still⟩
    · exact .exhausted (kept.trans locked) (same.trans last)
    · have bound := UInt64.toNat_lt after.epoch
      rw [last] at later
      simp only [lastEpoch, UInt64.reduceToNat] at later
      omega
    · exact .exhausted kept still
  | withdrawn issued gone =>
    have grows := advances.next
    refine .withdrawn (by omega) fun generation found authorized same => ?_
    rcases advances.authorized _ _ found authorized with known | fresh
    · exact gone generation known authorized same
    · rw [← same, fresh] at issued
      omega

theorem current_or_spent {ticket : AuthorityTicket} (numbered : before.Numbered)
    (advances : Advances before after) (current : before.current ticket = true) :
    after.current ticket = true ∨ after.Spent ticket := by
  obtain ⟨unlocked, epoch, generation, found, number, authorized⟩ := current_iff.mp current
  have grows := advances.next
  have issued : ticket.generation.toNat < after.next.toNat := by
    have below := numbered.generations _ _ found
    rw [number] at below
    omega
  rcases advances.epoch with ⟨same, kept⟩ | later | ⟨_, locked, last⟩
  · by_cases listed : ∃ generation, after.peers.lookup ticket.peer = some generation ∧
        generation.number = ticket.generation ∧ generation.state = .authorized
    · exact .inl (current_iff.mpr ⟨kept.trans unlocked, same.trans epoch, listed⟩)
    · exact .inr (.withdrawn issued fun generation found authorized number =>
        listed ⟨generation, found, number, authorized⟩)
  · rw [epoch] at later
    exact .inr (.passed later)
  · exact .inr (.exhausted locked last)

section Runs

variable {gate : Gate} {id : UInt64}

theorem numbered_run (locked : Bool) (events : List (GateEvent Working)) :
    (run step (initial locked) events).Numbered :=
  run_invariant Numbered (fun gate event numbered => numbered.advances (gate.step_advances event))
    (numbered_initial locked) events

theorem Spent.run {ticket : AuthorityTicket} (spent : gate.Spent ticket) (events : List (GateEvent Working)) :
    (run step gate events).Spent ticket :=
  run_invariant (Spent · ticket) (fun gate event spent => spent.advances (gate.step_advances event)) spent events

theorem current_or_spent_run {ticket : AuthorityTicket} (numbered : gate.Numbered)
    (current : gate.current ticket = true) (events : List (GateEvent Working)) :
    (run step gate events).current ticket = true ∨ (run step gate events).Spent ticket := by
  suffices kept : (run step gate events).Numbered ∧
      ((run step gate events).current ticket = true ∨ (run step gate events).Spent ticket) from
    kept.2
  refine run_invariant (fun gate : Gate => gate.Numbered ∧ (gate.current ticket = true ∨ gate.Spent ticket))
    (fun gate event known => ?_) ⟨numbered, .inl current⟩ events
  have advances := gate.step_advances event
  obtain ⟨numbered, alive | spent⟩ := known
  · exact ⟨numbered.advances advances, current_or_spent numbered advances alive⟩
  · exact ⟨numbered.advances advances, .inr (spent.advances advances)⟩

def Leased (gate : Gate) (id : UInt64) (ticket : AuthorityTicket) : Prop :=
  id.toNat < gate.next.toNat ∧ ∀ entry, gate.sessions.lookup id = some entry → entry.ticket = ticket

theorem Leased.advances {before after : Gate} {ticket : AuthorityTicket}
    (leased : before.Leased id ticket) (advances : Advances before after) :
    after.Leased id ticket := by
  obtain ⟨issued, owned⟩ := leased
  have grows := advances.next
  refine ⟨by omega, fun entry found => ?_⟩
  rcases advances.tickets id entry found with ⟨older, known, same⟩ | ⟨rfl, _⟩
  · rw [← same]
    exact owned older known
  · omega

theorem Leased.run {ticket : AuthorityTicket} (leased : gate.Leased id ticket) (events : List (GateEvent Working)) :
    (run step gate events).Leased id ticket :=
  run_invariant (Leased · id ticket)
    (fun gate event leased => leased.advances (gate.step_advances event)) leased events

theorem leased_of_reserve {after : Gate} {ticket : AuthorityTicket} {transport : Transport}
    (numbered : gate.Numbered) (reserved : gate.reserve ticket transport = some (id, after)) :
    after.Leased id ticket := by
  obtain ⟨advances, listed⟩ := reserve_advances reserved
  refine ⟨(numbered.advances advances).leases id _ listed, fun entry found => ?_⟩
  cases listed.symm.trans found
  rfl

theorem Leased.refused {ticket : AuthorityTicket} (leased : gate.Leased id ticket) (spent : gate.Spent ticket) :
    gate.publish id = none ∧ ∀ {α : Type} (poll : Unit → α), gate.submit id poll = none := by
  cases found : gate.sessions.lookup id with
  | none => simp [publish, submit, found]
  | some entry =>
    have stale : gate.current entry.ticket = false := by
      rw [leased.2 entry found]
      exact spent.not_current
    simp [publish, submit, found, stale, require]

def Ends (event : GateEvent Working) (peer : Peer) : Prop :=
  event = .lock ∨ ∃ text, event = .denyPeer text ∧ fingerprint text = some peer

theorem spent_of_ends {ticket : AuthorityTicket} {event : GateEvent Working} (numbered : gate.Numbered)
    (current : gate.current ticket = true) (ends : Ends event ticket.peer) :
    (gate.step event).Spent ticket := by
  refine (current_or_spent numbered (gate.step_advances event) current).resolve_left ?_
  intro still
  rcases ends with rfl | ⟨text, rfl, parsed⟩
  · obtain ⟨unlocked, _⟩ := current_iff.mp still
    cases unlocked
  · obtain ⟨_, _, generation, found, _⟩ := current_iff.mp current
    have accepted : ∃ after, gate.denyPeer text = some after := by
      simp [denyPeer, parsed, denied, found]
    obtain ⟨after, marked⟩ := accepted
    obtain ⟨peer, named, denies, _⟩ := denyPeer_some marked
    cases parsed.symm.trans named
    refine denies.not_authorizes (current_authorizes ?_)
    rwa [step, marked] at still

/-- A ticket that stopped being current stays so; and once its peer is denied or
the gate locked, no lease reserved on it before publishes, polls or writes. -/
theorem ticket_never_revives (locked : Bool) (before middle later : List (GateEvent Working))
    (ticket : AuthorityTicket) :
    ((run step (initial locked) before).current ticket = true →
      (run step (initial locked) (before ++ middle)).current ticket = false →
      (run step (initial locked) (before ++ middle ++ later)).current ticket = false) ∧
    ∀ transport id reserved ending,
      (run step (initial locked) before).reserve ticket transport = some (id, reserved) →
      Ends ending ticket.peer →
      (run step reserved (middle ++ ending :: later)).publish id = none ∧ (∀ {α : Type} (poll : Unit → α),
          (run step reserved (middle ++ ending :: later)).submit id poll = none) ∧
        ∀ written bytes accepts, AuthorityWriter.pollWrite (run step reserved (middle ++ ending :: later))
            ⟨written, some id⟩ bytes accepts = (none, ⟨written, some id⟩) := by
  have numbered := numbered_run locked before
  refine ⟨fun current stopped => ?_, fun transport id reserved ending granted ends => ?_⟩
  · rw [run_append] at stopped
    rcases current_or_spent_run numbered current middle with still | spent
    · rw [still] at stopped
      cases stopped
    · rw [run_append, run_append]
      exact (spent.run later).not_current
  · obtain ⟨advances, _⟩ := reserve_advances granted
    have leased := leased_of_reserve numbered granted
    have held : reserved.current ticket = true ∨ reserved.Spent ticket :=
      current_or_spent numbered advances (reserve_some granted).1
    have numbered := numbered.advances advances
    have spent : (run step reserved (middle ++ ending :: later)).Spent ticket := by
      rw [run_append, run_cons]
      refine Spent.run ?_ later
      have reached : (run step reserved middle).current ticket = true ∨ (run step reserved middle).Spent ticket :=
        held.elim (fun current => current_or_spent_run numbered current middle) (fun spent => .inr (spent.run middle))
      rcases reached with current | spent
      · refine spent_of_ends ?_ current ends
        exact run_invariant Numbered
          (fun gate event numbered => numbered.advances (gate.step_advances event)) numbered middle
      · exact spent.advances (step_advances _ ending)
    obtain ⟨unpublished, unsubmitted⟩ := (leased.run _).refused spent
    refine ⟨unpublished, unsubmitted, fun written bytes accepts => ?_⟩
    simp only [AuthorityWriter.pollWrite, unsubmitted]

namespace Sample

def text : String := "wwp1:00-00-00-00-00-00-00-00"

def ticket : AuthorityTicket := ⟨⟨List.replicate 8 0, rfl⟩, 1, 1⟩

end Sample

/-- The peer is denied, removed and enrolled once more. -/
theorem ticket_never_revives_readded : (run step (initial false) [.ticket Sample.text]).current Sample.ticket = true ∧
      (run step (initial false) [.ticket Sample.text, .denyPeer Sample.text,
        .removed Sample.text, .ticket Sample.text]).current Sample.ticket = false ∧
      ∃ id reserved, (run step (initial false) [.ticket Sample.text]).reserve Sample.ticket .tcp =
          some (id, reserved) ∧
        (run step reserved [.lock, .openAfterDurable 2]).publish id = none := by
  have current : (run step (initial false) [.ticket Sample.text]).current Sample.ticket = true := by
    decide +kernel
  have stopped : (run step (initial false) [.ticket Sample.text,
      .denyPeer Sample.text]).current Sample.ticket = false := by
    decide +kernel
  have granted : ((run step (initial false) [.ticket Sample.text]).reserve Sample.ticket .tcp).isSome := by
    decide +kernel
  obtain ⟨⟨id, reserved⟩, granted⟩ := Option.isSome_iff_exists.mp granted
  refine ⟨current, ?_, id, reserved, granted, ?_⟩
  · exact (ticket_never_revives false [.ticket Sample.text] [.denyPeer Sample.text]
      [.removed Sample.text, .ticket Sample.text] Sample.ticket).1 current stopped
  · exact ((ticket_never_revives false [.ticket Sample.text] [] [.openAfterDurable 2]
      Sample.ticket).2 .tcp id reserved .lock granted (.inl rfl)).1

end Runs

end Gate

end Werewolf.Authority
