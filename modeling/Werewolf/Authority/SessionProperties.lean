import Werewolf.Authority.TicketProperties

/-! The sessions of the gate and the leases that hold them. A session is
registered for as long as some clone of its lease is held, within the quotas, and
no number is given out twice. -/

namespace Werewolf.Authority
open Library

namespace Gate

def registered (gate : Gate) : List (UInt64 × AuthorityTicket × Transport) :=
  gate.sessions.entries.map (fun entry => (entry.1, entry.2.ticket, entry.2.transport))

structure Bounded (gate : Gate) : Prop where
  sessions : gate.sessions.entries.length ≤ globalSessions
  peers : ∀ peer, gate.sessionCount (fun entry => entry.ticket.peer = peer) ≤ peerSessions
  connections : ∀ connection,
    gate.sessionCount (fun entry => entry.transport = .quic connection) ≤ connectionSessions

section Table

variable {gate after : Gate} {id : UInt64}

theorem mem_sessions_iff : id ∈ gate.sessions ↔ ∃ session ∈ gate.registered, session.1 = id := by
  rw [AList.mem_keys, AList.keys, List.keys, registered]
  simp

theorem registered_nodup (gate : Gate) : (gate.registered.map (·.1)).Nodup := by
  rw [registered, List.map_map]
  exact gate.sessions.nodupKeys

theorem sessionCount_eq (gate : Gate) (counts : AuthorityTicket → Transport → Bool) :
    gate.sessionCount (fun entry => counts entry.ticket entry.transport) =
      gate.registered.countP (fun session => counts session.2.1 session.2.2) := by
  rw [sessionCount, registered, List.countP_map]
  rfl

theorem Bounded.of_subperm (bounded : gate.Bounded)
    (fewer : after.registered.Subperm gate.registered) : after.Bounded := by
  have count (counts : AuthorityTicket → Transport → Bool) :
      after.sessionCount (fun entry => counts entry.ticket entry.transport) ≤
        gate.sessionCount (fun entry => counts entry.ticket entry.transport) := by
    rw [sessionCount_eq, sessionCount_eq]
    exact fewer.countP_le _
  refine ⟨?_, fun peer => ?_, fun connection => ?_⟩
  · have length := fewer.length_le
    rw [registered, registered, List.length_map, List.length_map] at length
    exact length.trans bounded.sessions
  · exact (count (fun ticket _ => ticket.peer = peer)).trans (bounded.peers peer)
  · exact (count (fun _ transport => transport = .quic connection)).trans (bounded.connections connection)

private theorem dedupKeys_eq {entries : List (Sigma (fun _ : UInt64 => Entry))}
    (distinct : entries.NodupKeys) : entries.dedupKeys = entries := by
  induction entries with
  | nil => rfl
  | cons entry entries ih =>
    obtain ⟨absent, later⟩ := List.nodupKeys_cons.mp distinct
    rw [List.dedupKeys_cons, ih later, List.kinsert_def, List.kerase_of_notMem_keys absent]

theorem registered_cancelSessions (gate : Gate) (selects : Entry → Bool) :
    (gate.cancelSessions selects).registered = gate.registered := by
  have keys : (gate.sessions.entries.map (fun entry =>
      (⟨entry.1, if selects entry.2 then { entry.2 with cancelled := true } else entry.2⟩ :
        Sigma (fun _ : UInt64 => Entry)))).NodupKeys := by
    rw [List.NodupKeys, List.keys, List.map_map]
    exact gate.sessions.nodupKeys
  rw [registered, cancelSessions, AList.entries_toAList, dedupKeys_eq keys, List.map_map, registered]
  refine List.map_congr_left (fun entry _ => ?_)
  simp only [Function.comp_apply]
  split <;> rfl

theorem registered_release (gate : Gate) (id : UInt64) : (gate.release id).registered.Sublist gate.registered :=
  (List.kerase_sublist id gate.sessions.entries).map _

theorem mem_registered_release {session : UInt64 × AuthorityTicket × Transport}
    (listed : session ∈ gate.registered) (other : session.1 ≠ id) :
    session ∈ (gate.release id).registered := by
  obtain ⟨entry, member, rfl⟩ := List.mem_map.mp listed
  refine List.mem_map.mpr ⟨entry, ?_, rfl⟩
  obtain ⟨key, entry⟩ := entry
  have found : gate.sessions.lookup key = some entry := AList.mem_lookup_iff.mpr member
  exact AList.mem_lookup_iff.mp ((AList.lookup_erase_ne other).trans found)

theorem publish_registered (published : gate.publish id = some after) : after.registered.Perm gate.registered := by
  obtain ⟨entry, found, rfl⟩ := publish_some published
  have listed : (⟨id, entry⟩ : Sigma (fun _ : UInt64 => Entry)) ∈ gate.sessions.entries :=
    AList.mem_lookup_iff.mp found
  obtain ⟨other, before, behind, absent, split, erased⟩ :=
    List.exists_of_kerase (List.mem_keys_of_mem listed)
  have same : other = entry := by
    have again : gate.sessions.lookup id = some other :=
      AList.mem_lookup_iff.mpr (by rw [split]; simp)
    exact Option.some.inj (again.symm.trans found)
  subst same
  have entries : (gate.sessions.insert id { other with active := true }).entries =
      ⟨id, { other with active := true }⟩ :: (before ++ behind) := by
    rw [AList.entries_insert, erased]
  rw [registered, registered, entries, split, List.map_cons, List.map_append, List.map_append, List.map_cons]
  exact List.perm_middle.symm

theorem enroll_sessions {peer : Peer} {state : PeerAuthority}
    (enrolled : gate.enroll peer state = some after) : after.sessions = gate.sessions := by
  obtain ⟨_, rfl, _⟩ := enroll_some enrolled
  rfl

theorem ticket_sessions {text : String} {ticket : AuthorityTicket}
    (issued : gate.ticket text = some (ticket, after)) : after.sessions = gate.sessions := by
  rcases ticket_enrolls issued with rfl | ⟨peer, _, enrolled⟩
  · rfl
  · exact enroll_sessions enrolled

theorem denied_sessions {peer : Peer} (denied : gate.denied peer = some after) : after.sessions = gate.sessions := by
  unfold Gate.denied at denied
  split at denied
  · exact enroll_sessions denied
  · cases denied
    rfl

theorem reserve_registered {ticket : AuthorityTicket} {transport : Transport} (numbered : gate.Numbered)
    (bounded : gate.Bounded) (reserved : gate.reserve ticket transport = some (id, after)) :
    id = gate.next ∧ after.registered = (id, ticket, transport) :: gate.registered ∧ after.Bounded := by
  simp only [reserve, bind_eq_some, require_eq_some, return_eq_some, decide_eq_true_eq,
    Bool.or_eq_true] at reserved
  obtain ⟨_, _, _, room, _, peerRoom, _, connectionRoom, ⟨number, allocated⟩, found, shape⟩ :=
    reserved
  obtain ⟨rfl, next, rfl, _⟩ := allocate_some found
  cases shape
  have fresh : gate.next ∉ gate.sessions := by
    intro listed
    obtain ⟨entry, known⟩ := Option.isSome_iff_exists.mp (AList.lookup_isSome.mpr listed)
    exact Nat.lt_irrefl _ (numbered.leases _ entry known)
  have entries : (gate.sessions.insert gate.next ⟨ticket, transport, false, false⟩).entries =
      ⟨gate.next, ticket, transport, false, false⟩ :: gate.sessions.entries :=
    AList.entries_insert_of_notMem fresh
  refine ⟨rfl, by rw [registered, registered, entries, List.map_cons], ?_, fun peer => ?_,
    fun connection => ?_⟩
  · rw [entries, List.length_cons]
    exact room
  · rw [sessionCount, entries, List.countP_cons]
    by_cases same : ticket.peer = peer
    · subst same
      rw [if_pos (decide_eq_true rfl)]
      exact peerRoom
    · rw [if_neg (by simpa using same)]
      exact bounded.peers peer
  · rw [sessionCount, entries, List.countP_cons]
    by_cases same : transport = .quic connection
    · subst same
      rw [if_pos (decide_eq_true rfl)]
      exact connectionRoom.resolve_left (by simp)
    · rw [if_neg (by simpa using same)]
      exact bounded.connections connection

end Table

def newGeneration (before after : Gate) (text : String) : Option UInt64 := do
  let peer ← fingerprint text
  require (peer ∉ before.peers)
  let generation ← after.peers.lookup peer
  return generation.number

end Gate

inductive Sharing where
  | clone (lease : UInt64)
  | drop (lease : UInt64)

/-- The gate with the leases that are held, one entry for each clone, and with the
numbers it has given out to connections, generations and sessions. -/
structure Holding where
  gate : Gate
  leases : List UInt64
  issued : List UInt64

namespace Holding

def initial (locked : Bool) : Holding := ⟨.initial locked, [], []⟩

def step (holding : Holding) : GateEvent Sharing → Holding
  | .connection =>
      match holding.gate.allocate with
      | some (id, gate) => { holding with gate := gate, issued := id :: holding.issued }
      | none => holding
  | .ticket text =>
      match holding.gate.ticket text with
      | some (_, gate) => { holding with
          gate := gate
          issued := (holding.gate.newGeneration gate text).toList ++ holding.issued }
      | none => holding
  | .reserve ticket transport =>
      match holding.gate.reserve ticket transport with
      | some (id, gate) => ⟨gate, id :: holding.leases, id :: holding.issued⟩
      | none => holding
  | .publish lease => { holding with gate := (holding.gate.publish lease).getD holding.gate }
  | .denyPeer text =>
      match holding.gate.denyPeer text with
      | some gate => { holding with
          gate := gate
          issued := (holding.gate.newGeneration gate text).toList ++ holding.issued }
      | none => holding
  | .removed text => { holding with gate := (holding.gate.removed text).getD holding.gate }
  | .lock => { holding with gate := holding.gate.lock.1 }
  | .openAfterDurable expected =>
      { holding with gate := (holding.gate.openAfterDurable expected).getD holding.gate }
  | .lease (.clone lease) =>
      if lease ∈ holding.leases then { holding with leases := lease :: holding.leases }
      else holding
  | .lease (.drop lease) =>
      if lease ∈ holding.leases then
        let leases := holding.leases.erase lease
        { holding with
          leases := leases
          gate := if lease ∈ leases then holding.gate else holding.gate.release lease }
      else holding

/-- What ties the leases and the numbers to the gate. -/
structure Kept (holding : Holding) : Prop where
  numbered : holding.gate.Numbered
  bounded : holding.gate.Bounded
  held : ∀ id, id ∈ holding.gate.sessions ↔ id ∈ holding.leases
  issuedBefore : ∀ id ∈ holding.issued, id.toNat < holding.gate.next.toNat
  distinct : holding.issued.Nodup

section Steps

variable {holding : Holding} {gate : Gate}

theorem kept_initial (locked : Bool) : (initial locked).Kept where
  numbered := Gate.numbered_initial locked
  bounded := ⟨Nat.zero_le _, fun _ => Nat.zero_le _, fun _ => Nat.zero_le _⟩
  held id := by simp [initial, Gate.initial]
  issuedBefore := by simp [initial]
  distinct := List.nodup_nil

theorem Kept.issue (kept : { holding with gate := gate }.Kept) {id : UInt64}
    (fresh : ∀ other ∈ holding.issued, other.toNat < id.toNat) (passed : id.toNat < gate.next.toNat) :
    { holding with gate := gate, issued := id :: holding.issued }.Kept where
  numbered := kept.numbered
  bounded := kept.bounded
  held := kept.held
  issuedBefore := List.forall_mem_cons.mpr ⟨passed, kept.issuedBefore⟩
  distinct := List.nodup_cons.mpr ⟨fun listed => Nat.lt_irrefl _ (fresh id listed), kept.distinct⟩

private theorem perm_of_sessions {gate after : Gate} (same : after.sessions = gate.sessions) :
    after.registered.Perm gate.registered := by
  rw [Gate.registered, Gate.registered, same]

abbrev Carries (holding after : Holding) : Prop :=
  after.Kept ∧ ∀ session ∈ holding.gate.registered, session.1 ∈ after.leases → session ∈ after.gate.registered

theorem Kept.carries {after : Holding} (later : after.Kept)
    (same : after.gate.registered.Perm holding.gate.registered) : holding.Carries after :=
  ⟨later, fun _ listed _ => same.mem_iff.mpr listed⟩

variable (kept : holding.Kept)

include kept

theorem Kept.of_perm (advances : Gate.Advances holding.gate gate)
    (same : gate.registered.Perm holding.gate.registered) : { holding with gate := gate }.Kept where
  numbered := kept.numbered.advances advances
  bounded := kept.bounded.of_subperm same.subperm
  held id := by
    rw [← kept.held id, Gate.mem_sessions_iff, Gate.mem_sessions_iff]
    simp only [same.mem_iff]
  issuedBefore id listed := (kept.issuedBefore id listed).trans_le advances.next
  distinct := kept.distinct

theorem Kept.enroll (advances : Gate.Advances holding.gate gate)
    (same : gate.registered.Perm holding.gate.registered) (text : String) :
    { holding with
      gate := gate
      issued := (holding.gate.newGeneration gate text).toList ++ holding.issued }.Kept := by
  have later := kept.of_perm advances same
  cases given : holding.gate.newGeneration gate text with
  | none => exact later
  | some number =>
    simp only [Gate.newGeneration, bind_eq_some, return_eq_some, require_eq_some, decide_eq_true_eq] at given
    obtain ⟨peer, _, _, absent, generation, found, rfl⟩ := given
    rcases advances.numbers peer generation found with ⟨older, known, _⟩ | ⟨next, passed⟩
    · exact absurd (AList.lookup_isSome.mp (by rw [known]; rfl)) absent
    · rw [next]
      exact later.issue kept.issuedBefore passed

theorem Kept.getD {gate : Option Gate} (advances : ∀ after, gate = some after → Gate.Advances holding.gate after)
    (same : ∀ after, gate = some after → after.registered.Perm holding.gate.registered) :
    holding.Carries { holding with gate := gate.getD holding.gate } := by
  cases gate with
  | none => exact kept.carries (.refl _)
  | some after => exact (kept.of_perm (advances _ rfl) (same _ rfl)).carries (same _ rfl)

theorem Kept.reserve {ticket : AuthorityTicket} {transport : Transport} {id : UInt64}
    (reserved : holding.gate.reserve ticket transport = some (id, gate)) :
    holding.Carries ⟨gate, id :: holding.leases, id :: holding.issued⟩ := by
  obtain ⟨advances, leased⟩ := Gate.reserve_advances reserved
  obtain ⟨rfl, table, bounded⟩ := Gate.reserve_registered kept.numbered kept.bounded reserved
  have numbered := kept.numbered.advances advances
  refine ⟨⟨numbered, bounded, ?_, ?_, ?_⟩, ?_⟩
  · intro id
    rw [Gate.mem_sessions_iff, table, List.mem_cons, ← kept.held id, Gate.mem_sessions_iff]
    simp [eq_comm]
  · exact List.forall_mem_cons.mpr ⟨numbered.leases _ _ leased, fun id listed =>
      (kept.issuedBefore id listed).trans_le advances.next⟩
  · exact List.nodup_cons.mpr ⟨fun listed => Nat.lt_irrefl _ (kept.issuedBefore _ listed), kept.distinct⟩
  · intro session listed _
    rw [table]
    exact List.mem_cons_of_mem _ listed

theorem Kept.denyPeer {text : String} (denied : holding.gate.denyPeer text = some gate) :
    holding.Carries { holding with
      gate := gate
      issued := (holding.gate.newGeneration gate text).toList ++ holding.issued } := by
  have advances : Gate.Advances holding.gate gate := by
    have stepped := holding.gate.step_advances (.denyPeer text)
    rwa [Gate.step, denied, Option.getD_some] at stepped
  simp only [Gate.denyPeer, bind_eq_some, return_eq_some] at denied
  obtain ⟨peer, _, reached, marked, rfl⟩ := denied
  have same : (reached.cancelSessions (fun entry => entry.ticket.peer = peer)).registered.Perm
      holding.gate.registered := by
    rw [Gate.registered_cancelSessions]
    exact perm_of_sessions (Gate.denied_sessions marked)
  exact (kept.enroll advances same text).carries same

theorem Kept.leases {leases : List UInt64} (same : ∀ id, id ∈ holding.leases ↔ id ∈ leases) :
    holding.Carries { holding with leases := leases } :=
  Kept.carries ⟨kept.numbered, kept.bounded, fun id => (kept.held id).trans (same id),
    kept.issuedBefore, kept.distinct⟩ (.refl _)

theorem Kept.release {lease : UInt64} (last : lease ∉ holding.leases.erase lease) : holding.Carries { holding with
      leases := holding.leases.erase lease
      gate := holding.gate.release lease } := by
  refine ⟨⟨kept.numbered.advances (holding.gate.release_advances lease),
    kept.bounded.of_subperm (holding.gate.registered_release lease).subperm, ?_,
    kept.issuedBefore, kept.distinct⟩, ?_⟩
  · intro id
    rw [Gate.release, AList.mem_erase, kept.held id]
    by_cases same : id = lease
    · subst same
      exact iff_of_false (fun kept => kept.1 rfl) last
    · rw [List.mem_erase_of_ne same]
      simp [same]
  · intro session listed held
    refine Gate.mem_registered_release listed ?_
    rintro rfl
    exact last held

end Steps

theorem step_kept (holding : Holding) (kept : holding.Kept) (event : GateEvent Sharing) :
    holding.Carries (holding.step event) := by
  have unchanged : holding.Carries holding := kept.carries (.refl _)
  cases event with
  | connection =>
    simp only [step]
    split
    · rename_i id after allocated
      obtain ⟨rfl, next, rfl, grows⟩ := Gate.allocate_some allocated
      have later := kept.of_perm (.of_epoch (show _ ≤ next.toNat by omega) (.inl ⟨rfl, rfl⟩)) (.refl _)
      exact (later.issue kept.issuedBefore (by simp only; omega)).carries (.refl _)
    · exact unchanged
  | ticket text =>
    simp only [step]
    split
    · rename_i ticket after issued
      have same := perm_of_sessions (Gate.ticket_sessions issued)
      exact (kept.enroll (Gate.ticket_advances issued) same text).carries same
    · exact unchanged
  | reserve ticket transport =>
    simp only [step]
    split
    · rename_i id after reserved
      exact kept.reserve reserved
    · exact unchanged
  | publish lease =>
    exact kept.getD (fun _ published => Gate.publish_advances published)
      (fun _ published => Gate.publish_registered published)
  | denyPeer text =>
    simp only [step]
    split
    · rename_i after denied
      exact kept.denyPeer denied
    · exact unchanged
  | removed text =>
    refine kept.getD (fun _ removal => Gate.removed_advances removal) (fun _ removal => ?_)
    simp only [Gate.removed, bind_eq_some, return_eq_some] at removal
    obtain ⟨_, _, _, _, _, _, rfl⟩ := removal
    exact .refl _
  | lock =>
    have same : holding.gate.lock.1.registered.Perm holding.gate.registered :=
      .of_eq (holding.gate.registered_cancelSessions (fun _ => true))
    exact (kept.of_perm holding.gate.lock_advances same).carries same
  | openAfterDurable expected =>
    refine kept.getD (fun _ opened => Gate.openAfterDurable_advances opened) (fun _ opened => ?_)
    simp only [Gate.openAfterDurable, bind_eq_some, return_eq_some] at opened
    obtain ⟨_, _, _, _, rfl⟩ := opened
    exact .refl _
  | lease use =>
    cases use with
    | clone lease =>
      simp only [step]
      split
      · rename_i listed
        refine kept.leases (fun id => ?_)
        rw [List.mem_cons, or_iff_right_of_imp]
        rintro rfl
        exact listed
      · exact unchanged
    | drop lease =>
      simp only [step]
      split
      · rename_i listed
        by_cases shared : lease ∈ holding.leases.erase lease
        · rw [if_pos shared]
          refine kept.leases (fun id => ?_)
          by_cases same : id = lease
          · subst same
            exact iff_of_true listed shared
          · exact (List.mem_erase_of_ne same).symm
        · rw [if_neg shared]
          exact kept.release shared
      · exact unchanged

theorem leaves_iff (holding : Holding) (event : GateEvent Sharing) (id : UInt64) :
    (id ∈ holding.leases ∧ id ∉ (holding.step event).leases) ↔
      event = .lease (.drop id) ∧ holding.leases.count id = 1 := by
  have stays (same : ∀ lease, event ≠ .lease (.drop lease)) (grows : holding.leases ⊆ (holding.step event).leases) :
      (id ∈ holding.leases ∧ id ∉ (holding.step event).leases) ↔
        event = .lease (.drop id) ∧ holding.leases.count id = 1 :=
    iff_of_false (fun left => left.2 (grows left.1)) (fun dropped => same id dropped.1)
  cases event with
  | connection | ticket | denyPeer =>
    refine stays (fun _ same => by cases same) ?_
    simp only [step]
    split <;> exact List.Subset.refl _
  | publish | removed | lock | openAfterDurable =>
    exact stays (fun _ same => by cases same) (List.Subset.refl _)
  | reserve =>
    refine stays (fun _ same => by cases same) ?_
    simp only [step]
    split
    · exact List.subset_cons_self _ _
    · exact List.Subset.refl _
  | lease use =>
    cases use with
    | clone =>
      refine stays (fun _ same => by cases same) ?_
      simp only [step]
      split
      · exact List.subset_cons_self _ _
      · exact List.Subset.refl _
    | drop lease =>
      simp only [step, GateEvent.lease.injEq, Sharing.drop.injEq]
      split
      · rename_i listed
        by_cases same : lease = id
        · subst same
          have counted := List.count_erase_self (a := lease) (l := holding.leases)
          have some := List.count_pos_iff.mpr listed
          rw [← List.count_eq_zero, counted]
          constructor
          · rintro ⟨_, last⟩
            exact ⟨rfl, by omega⟩
          · rintro ⟨_, last⟩
            exact ⟨listed, by omega⟩
        · refine iff_of_false (fun left => left.2 ?_) (fun dropped => same dropped.1)
          exact (List.mem_erase_of_ne (Ne.symm same)).mpr left.1
      · rename_i absent
        refine iff_of_false (fun left => left.2 left.1) ?_
        rintro ⟨rfl, last⟩
        rw [List.count_eq_zero.mpr absent] at last
        exact absurd last (by decide)

theorem kept_of_run (locked : Bool) (events : List (GateEvent Sharing)) : (run step (initial locked) events).Kept :=
  run_invariant Kept (fun holding event kept => (holding.step_kept kept event).1) (kept_initial locked) events

/-- In every interleaving the table stays within its quotas and holds one session
for each live lease, which only the last drop of that lease takes out; no number is
given out twice. -/
theorem sessions_live_as_long_as_their_leases (locked : Bool) (events : List (GateEvent Sharing)) :
    let holding := run step (initial locked) events
    (holding.gate.sessions.entries.length ≤ 1024 ∧
      (∀ peer, holding.gate.sessionCount (fun entry => entry.ticket.peer = peer) ≤ 64) ∧
      ∀ connection, holding.gate.sessionCount (fun entry => entry.transport = .quic connection) ≤ 64) ∧
    ((∀ id, id ∈ holding.gate.sessions ↔ id ∈ holding.leases) ∧ (holding.gate.registered.map (·.1)).Nodup) ∧
    (∀ event id, (id ∈ holding.gate.sessions ∧ id ∉ (holding.step event).gate.sessions ↔
        event = .lease (.drop id) ∧ holding.leases.count id = 1)) ∧
    (∀ event, ∀ session ∈ holding.gate.registered,
      session.1 ∈ (holding.step event).leases → session ∈ (holding.step event).gate.registered) ∧
    holding.issued.Nodup := by
  intro holding
  have kept : holding.Kept := kept_of_run locked events
  refine ⟨⟨kept.bounded.sessions, kept.bounded.peers, kept.bounded.connections⟩,
    ⟨kept.held, holding.gate.registered_nodup⟩, fun event id => ?_,
    fun event => (holding.step_kept kept event).2, kept.distinct⟩
  rw [kept.held id, (holding.step_kept kept event).1.held id]
  exact holding.leaves_iff event id

end Holding

namespace Gate

def Attended (gate : Gate) : Prop :=
  ∀ id entry, gate.sessions.lookup id = some entry → gate.current entry.ticket = false → entry.cancelled = true

section Attending

variable {gate after : Gate} {peer : Peer} {id : UInt64}

theorem attended_initial (locked : Bool) : (initial locked).Attended :=
  fun _ _ found => (nomatch found)

/-- A session that is not told to end has a current ticket or was there before;
no ticket of such a session ran out. -/
theorem Attended.step (attended : gate.Attended)
    (running : ∀ id entry, after.sessions.lookup id = some entry → entry.cancelled = false →
      after.current entry.ticket = true ∨ ∃ older, gate.sessions.lookup id = some older ∧ older.cancelled = false ∧
          (gate.current older.ticket = true → after.current entry.ticket = true)) :
    after.Attended := by
  intro id entry found stale
  by_contra unsignalled
  rcases running id entry found (Bool.not_eq_true _ ▸ unsignalled) with current | known
  · exact absurd (current.symm.trans stale) (by decide)
  · obtain ⟨older, listed, waiting, keeps⟩ := known
    cases current : gate.current older.ticket with
    | true => exact absurd ((keeps current).symm.trans stale) (by decide)
    | false => exact absurd ((attended id older listed current).symm.trans waiting) (by decide)

theorem Attended.of_sessions (attended : gate.Attended) (fewer : ∀ id entry, after.sessions.lookup id = some entry →
      gate.sessions.lookup id = some entry)
    (keeps : ∀ ticket, gate.current ticket = true → after.current ticket = true) :
    after.Attended :=
  attended.step (fun id entry found waiting =>
    .inr ⟨entry, fewer id entry found, waiting, keeps entry.ticket⟩)

theorem enroll_current {state : PeerAuthority} (absent : peer ∉ gate.peers)
    (enrolled : gate.enroll peer state = some after) (ticket : AuthorityTicket)
    (current : gate.current ticket = true) : after.current ticket = true := by
  obtain ⟨next, rfl, _⟩ := enroll_some enrolled
  obtain ⟨unlocked, epoch, generation, listed, valid⟩ := current_iff.mp current
  have other : ticket.peer ≠ peer := by
    rintro rfl
    exact absent (AList.lookup_isSome.mp (listed ▸ rfl))
  exact current_iff.mpr ⟨unlocked, epoch, generation, (AList.lookup_insert_ne other).trans listed, valid⟩

theorem Attended.enroll {state : PeerAuthority} (attended : gate.Attended)
    (absent : peer ∉ gate.peers) (enrolled : gate.enroll peer state = some after) :
    after.Attended :=
  attended.of_sessions (fun _ _ found => enroll_sessions enrolled ▸ found) (enroll_current absent enrolled)

theorem Attended.ticket {text : String} {ticket : AuthorityTicket} (attended : gate.Attended)
    (issued : gate.ticket text = some (ticket, after)) : after.Attended := by
  rcases ticket_enrolls issued with rfl | ⟨peer, absent, enrolled⟩
  · exact attended
  · exact attended.enroll absent enrolled

theorem Attended.reserve {ticket : AuthorityTicket} {transport : Transport}
    (attended : gate.Attended) (reserved : gate.reserve ticket transport = some (id, after)) :
    after.Attended := by
  obtain ⟨current, rfl, next, rfl, _⟩ := reserve_eq reserved
  refine attended.step (fun id entry found waiting => ?_)
  by_cases same : id = gate.next
  · subst same
    simp only [AList.lookup_insert, Option.some.injEq] at found
    subst found
    exact .inl current
  · simp only [AList.lookup_insert_ne same] at found
    exact .inr ⟨entry, found, waiting, fun kept => kept⟩

theorem Attended.publish (attended : gate.Attended) (published : gate.publish id = some after) : after.Attended := by
  obtain ⟨entry, listed, rfl⟩ := publish_some published
  refine attended.step (fun other later found waiting => .inr ?_)
  by_cases same : other = id
  · subst same
    simp only [AList.lookup_insert, Option.some.injEq] at found
    subst found
    exact ⟨entry, listed, waiting, fun kept => kept⟩
  · simp only [AList.lookup_insert_ne same] at found
    exact ⟨later, found, waiting, fun kept => kept⟩

theorem cancelSessions_waiting {selects : Entry → Bool} {entry : Entry}
    (found : (gate.cancelSessions selects).sessions.lookup id = some entry) (waiting : entry.cancelled = false) :
    gate.sessions.lookup id = some entry ∧ selects entry = false := by
  obtain ⟨_, known, _, kept⟩ := cancelSessions_lookup found
  obtain ⟨rfl, unselected⟩ := kept waiting
  exact ⟨known, unselected⟩

theorem denied_current (denied : gate.denied peer = some after) {ticket : AuthorityTicket}
    (other : ticket.peer ≠ peer) (current : gate.current ticket = true) :
    after.current ticket = true := by
  unfold Gate.denied at denied
  split at denied
  · rename_i absent
    exact enroll_current (AList.lookup_eq_none.mp absent) denied ticket current
  · cases denied
    obtain ⟨unlocked, epoch, generation, listed, valid⟩ := current_iff.mp current
    exact current_iff.mpr ⟨unlocked, epoch, generation, (AList.lookup_insert_ne other).trans listed, valid⟩

theorem Attended.denyPeer {text : String} (attended : gate.Attended)
    (denied : gate.denyPeer text = some after) : after.Attended := by
  simp only [Gate.denyPeer, bind_eq_some, return_eq_some] at denied
  obtain ⟨peer, _, reached, marked, rfl⟩ := denied
  refine attended.step (fun id entry found waiting => .inr ?_)
  obtain ⟨listed, unselected⟩ := cancelSessions_waiting found waiting
  rw [denied_sessions marked] at listed
  exact ⟨entry, listed, waiting, denied_current marked (of_decide_eq_false unselected)⟩

theorem Attended.removed {text : String} (attended : gate.Attended)
    (removal : gate.removed text = some after) : after.Attended := by
  simp only [Gate.removed, bind_eq_some, require_eq_some, decide_eq_true_eq, return_eq_some] at removal
  obtain ⟨peer, _, generation, known, _, denied, rfl⟩ := removal
  refine attended.of_sessions (fun _ _ found => found) (fun ticket current => ?_)
  obtain ⟨unlocked, epoch, other, listed, number, authorized⟩ := current_iff.mp current
  have different : ticket.peer ≠ peer := by
    rintro rfl
    cases known.symm.trans listed
    exact absurd (denied.symm.trans authorized) (by decide)
  exact current_iff.mpr ⟨unlocked, epoch, other, (AList.lookup_erase_ne different).trans listed, number, authorized⟩

theorem lock_attended (gate : Gate) : gate.lock.1.Attended := by
  intro id entry found _
  by_contra unsignalled
  have waiting := Bool.not_eq_true _ ▸ unsignalled
  have selected := (cancelSessions_waiting (show
    (gate.cancelSessions (fun _ => true)).sessions.lookup id = some entry from found) waiting).2
  cases selected

theorem Attended.release (attended : gate.Attended) (id : UInt64) : (gate.release id).Attended := by
  refine attended.of_sessions (fun other entry found => ?_) (fun _ current => current)
  by_cases same : other = id
  · subst same
    simp only [Gate.release, AList.lookup_erase, reduceCtorEq] at found
  · rwa [Gate.release, AList.lookup_erase_ne same] at found

/-- Nothing but an opening of an open gate lets tickets run out in silence. -/
def Heeds (gate : Gate) : GateEvent Working → Prop
  | .openAfterDurable expected => (gate.openAfterDurable expected).isSome → gate.locked = false →
      ∀ id entry, gate.sessions.lookup id = some entry → entry.cancelled = true
  | _ => True

theorem openAfterDurable_stale {expected : UInt64} {ticket : AuthorityTicket}
    (opened : gate.openAfterDurable expected = some after) (current : gate.current ticket = true) :
    after.current ticket = false := by
  simp only [openAfterDurable, bind_eq_some, return_eq_some] at opened
  obtain ⟨_, _, epoch, advanced, rfl⟩ := opened
  have grows := checkedSucc_some advanced
  obtain ⟨_, same, _⟩ := current_iff.mp current
  rw [← Bool.not_eq_true, current_iff]
  rintro ⟨_, later, _⟩
  rw [same, ← later] at grows
  simp only at grows
  omega

theorem Attended.opened_iff {expected : UInt64} (attended : gate.Attended)
    (opened : gate.openAfterDurable expected = some after) :
    after.Attended ↔ (gate.locked = false →
      ∀ id entry, gate.sessions.lookup id = some entry → entry.cancelled = true) := by
  have same : after.sessions = gate.sessions := by
    simp only [openAfterDurable, bind_eq_some, return_eq_some] at opened
    obtain ⟨_, _, _, _, rfl⟩ := opened
    rfl
  constructor
  · intro later _ id entry found
    cases current : gate.current entry.ticket with
    | false => exact attended id entry found current
    | true => exact later id entry (same ▸ found) (openAfterDurable_stale opened current)
  · intro heeded id entry found _
    rw [same] at found
    cases locked : gate.locked with
    | false => exact heeded locked id entry found
    | true =>
      refine attended id entry found ?_
      rw [current, locked]
      rfl

private theorem attended_getD {result : Option Gate} (attended : gate.Attended)
    (accepted : ∀ after, result = some after → after.Attended) :
    (result.getD gate).Attended := by
  cases result with
  | none => exact attended
  | some after => exact accepted after rfl

private theorem attended_map_getD {α : Type} {result : Option (α × Gate)} (attended : gate.Attended)
    (accepted : ∀ value after, result = some (value, after) → after.Attended) :
    ((result.map (·.2)).getD gate).Attended := by
  cases result with
  | none => exact attended
  | some pair => exact accepted pair.1 pair.2 rfl

theorem Attended.step_iff (attended : gate.Attended) (event : GateEvent Working) :
    (gate.step event).Attended ↔ gate.Heeds event := by
  cases event with
  | openAfterDurable expected =>
    simp only [Gate.step, Heeds]
    cases opened : gate.openAfterDurable expected with
    | none => simpa using attended
    | some after => simpa using attended.opened_iff opened
  | connection =>
    refine iff_of_true (attended_map_getD attended fun id after allocated => ?_) trivial
    obtain ⟨_, next, rfl, _⟩ := allocate_some allocated
    exact attended
  | ticket text =>
    exact iff_of_true (attended_map_getD attended fun _ _ issued => attended.ticket issued) trivial
  | reserve ticket transport =>
    exact iff_of_true (attended_map_getD attended fun _ _ reserved => attended.reserve reserved)
      trivial
  | publish lease =>
    exact iff_of_true (attended_getD attended fun _ published => attended.publish published)
      trivial
  | denyPeer text =>
    exact iff_of_true (attended_getD attended fun _ denied => attended.denyPeer denied) trivial
  | removed text =>
    exact iff_of_true (attended_getD attended fun _ removal => attended.removed removal) trivial
  | lock => exact iff_of_true gate.lock_attended trivial
  | lease use =>
    cases use with
    | submit lease => exact iff_of_true attended trivial
    | release lease => exact iff_of_true (attended.release lease) trivial

end Attending

/-- No session is left waiting on a dead lease in any state of a run, exactly if no
step of it opens the gate over sessions that nothing tells to end. -/
theorem expired_sessions_are_told_to_end_iff (locked : Bool) (events : List (GateEvent Working)) :
    (∀ before after, events = before ++ after → (run step (initial locked) before).Attended) ↔
      ∀ before event after, events = before ++ event :: after → (run step (initial locked) before).Heeds event :=
  run_always_iff (fun _ => True) Attended Heeds (fun _ _ _ => trivial)
    (fun _ event _ attended => attended.step_iff event) trivial (attended_initial locked) events

end Gate

end Werewolf.Authority
