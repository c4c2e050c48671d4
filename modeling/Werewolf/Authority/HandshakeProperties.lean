import Werewolf.Authority.GateProperties
import Werewolf.Authority.Handshake
import Werewolf.Governance.RunProperties
import Werewolf.State.ValidationProperties

/-! Who can obtain a ticket or a lease. The gate creates a generation for any
fingerprint it does not know, so it is the caller's look at the Pack that keeps
strangers out, and that look is a critical section of its own. -/

namespace Werewolf.Authority
open Governance State Library

variable {peers : List PeerRecord} {mutation : Mutation} {sender : String} {gate : Gate}

def Mutation.undenied (mutation : Mutation) : List String :=
  match mutation.stage with
  | .fencing => mutation.revoked
  | .denying pending => pending
  | _ => []

def Mutation.unpublished (mutation : Mutation) : Bool :=
  match mutation.stage with
  | .removing _ | .cleaning _ => false
  | _ => true

/-- A mutation on its way to publish: the Pack it prepared keeps every member it
does not deny, and those it took up are denied. -/
structure Pending (peers : List PeerRecord) (gate : Gate) (mutation : Mutation) : Prop where
  names : (mutation.candidate.map (·.name)).Nodup
  covers : ∀ record ∈ peers, record.fingerprint ∈ mutation.candidate.map (·.fingerprint) ∨
    record.fingerprint ∈ mutation.revoked
  denied : ∀ text ∈ mutation.revoked, text ∈ mutation.undenied ∨
    ∃ peer, fingerprint text = some peer ∧ gate.Denies peer

/-- The gate authorizes members only. -/
structure Guarded (system : System) : Prop where
  names : (system.peers.map (·.name)).Nodup
  authorized : ∀ peer, system.gate.Authorizes peer →
    ∃ record ∈ system.peers, fingerprint record.fingerprint = some peer
  tickets : ∀ id handshake ticket, system.handshakes.lookup id = some handshake →
    handshake.ticket = some ticket → fingerprint handshake.sender = some ticket.peer
  pending : ∀ mutation ∈ system.mutation, mutation.unpublished = true →
    Pending system.peers system.gate mutation

theorem Guarded.start {external : External} (governance : Option Head) (ownKey : Option Key)
    (silverActive : Bool) (valid : pack external peers = true) :
    Guarded (System.start peers governance ownKey silverActive) where
  names := ((pack_iff external peers).mp valid).2.2.1
  authorized peer authorized := by
    obtain ⟨generation, found, _⟩ := authorized
    simp [System.start, Gate.initial] at found
  tickets id handshake ticket found := by simp [System.start] at found
  pending mutation running := by simp [System.start] at running

theorem Gate.Authorizes.of_peers_eq {before after : Gate} {peer : Peer}
    (same : after.peers = before.peers) (authorizes : after.Authorizes peer) :
    before.Authorizes peer := by
  rw [Gate.Authorizes, same] at authorizes
  exact authorizes

theorem Pending.of_peers_eq {before after : Gate} (same : after.peers = before.peers)
    (pending : Pending peers before mutation) :
    Pending peers after mutation := by
  refine ⟨pending.names, pending.covers, fun text member => ?_⟩
  rcases pending.denied text member with waiting | ⟨peer, parsed, denies⟩
  · exact .inl waiting
  · exact .inr ⟨peer, parsed, by rwa [Gate.Denies, same]⟩

theorem Guarded.carried {before after : System} (guarded : Guarded before) (peers : after.peers = before.peers)
    (table : after.gate.peers = before.gate.peers) (handshakes : after.handshakes = before.handshakes)
    (pending : ∀ mutation ∈ after.mutation, mutation.unpublished = true →
      Pending before.peers before.gate mutation) : Guarded after where
  names := peers ▸ guarded.names
  authorized peer authorizes := by
    rw [peers]
    exact guarded.authorized peer (authorizes.of_peers_eq table)
  tickets := handshakes ▸ guarded.tickets
  pending mutation running unpublished := by
    rw [peers]
    exact (pending mutation running unpublished).of_peers_eq table

theorem Guarded.dropHandshake {system : System} (guarded : Guarded system) (id : Nat) :
    Guarded { system with handshakes := system.handshakes.erase id } where
  names := guarded.names
  authorized := guarded.authorized
  tickets other handshake ticket found issued := by
    by_cases same : other = id
    · subst same
      simp at found
    · simp only [AList.lookup_erase_ne same] at found
      exact guarded.tickets other handshake ticket found issued
  pending := guarded.pending

theorem Guarded.putHandshake {system : System} (guarded : Guarded system) (id : Nat)
    {handshake : Handshake} (ticketed : ∀ ticket, handshake.ticket = some ticket →
      fingerprint handshake.sender = some ticket.peer) :
    Guarded { system with handshakes := system.handshakes.insert id handshake } where
  names := guarded.names
  authorized := guarded.authorized
  tickets other found ticket lookup issued := by
    by_cases same : other = id
    · subst same
      simp only [AList.lookup_insert, Option.some.injEq] at lookup
      subst lookup
      exact ticketed ticket issued
    · simp only [AList.lookup_insert_ne same] at lookup
      exact guarded.tickets other found ticket lookup issued
  pending := guarded.pending

private theorem record_of_name (names : (peers.map (·.name)).Nodup) {left right : PeerRecord}
    (leftMember : left ∈ peers) (rightMember : right ∈ peers) (same : left.name = right.name) :
    left = right :=
  List.inj_on_of_nodup_map names leftMember rightMember same

theorem preparePackAdd_pending {external : External} {system : System}
    {name fingerprint address publicKeyB64 : String}
    (prepared : preparePackAdd external system name fingerprint address publicKeyB64 =
      some mutation) : Pending system.peers system.gate mutation := by
  simp only [preparePackAdd, bind_eq_some, require_eq_some, return_eq_some] at prepared
  obtain ⟨_, _, _, _, _, valid, rfl⟩ := prepared
  refine ⟨((pack_iff external _).mp valid).2.2.1, fun record member => .inl ?_, by
    simp [Mutation.ofPack]⟩
  exact List.mem_map_of_mem (List.mem_append_left _ member)

theorem preparePackRemove_pending {external : External} {system : System} {name : String}
    (names : (system.peers.map (·.name)).Nodup) (prepared : preparePackRemove external system name = some mutation) :
    Pending system.peers system.gate mutation := by
  simp only [preparePackRemove, bind_eq_some, require_eq_some, return_eq_some] at prepared
  obtain ⟨_, _, _, valid, rfl⟩ := prepared
  refine ⟨((pack_iff external _).mp valid).2.2.1, fun record member => ?_,
    fun text member => .inl member⟩
  by_cases named : record.name = name
  · -- The first record of the name is the only one.
    cases found : system.peers.find? (fun peer => peer.name = name) with
    | none =>
      have absent := List.find?_eq_none.mp found record member
      simp [named] at absent
    | some first =>
      have firstNamed : first.name = name := by simpa using List.find?_some found
      have same := record_of_name names member (List.mem_of_find?_eq_some found) (named.trans firstNamed.symm)
      exact .inr (by simp [Mutation.ofPack, same])
  · exact .inl (List.mem_map_of_mem (List.mem_filter.mpr ⟨member, by simpa using named⟩))

theorem prepareGovernance_pending {external : External} {system : System} {statement : Statement}
    {expectHash : Option Hash} {archived : Bool} (names : (system.peers.map (·.name)).Nodup)
    (prepared : prepareGovernance external system statement expectHash archived = some mutation) :
    Pending system.peers system.gate mutation := by
  unfold prepareGovernance at prepared
  split at prepared
  · rename_i next _
    simp only [bind_eq_some, require_eq_some, return_eq_some] at prepared
    obtain ⟨_, _, rfl⟩ := prepared
    refine ⟨names.sublist (List.filter_sublist.map _), fun record member => ?_,
      fun text member => .inl member⟩
    by_cases kept : (system.peers.filter (excludes external next)).any (fun other => other.name = record.name)
    · obtain ⟨other, otherMember, named⟩ := List.any_eq_true.mp kept
      have same := record_of_name names (List.mem_of_mem_filter otherMember) member (by simpa using named)
      subst same
      exact .inr (List.mem_map_of_mem otherMember)
    · exact .inl (List.mem_map_of_mem (List.mem_filter.mpr ⟨member, by simpa using kept⟩))
  · cases prepared
    exact ⟨names, fun record member => .inl (List.mem_map_of_mem member), by
      simp [Mutation.ofPack]⟩
  · cases prepared

theorem prepare_pending {external : External} {system : System} {archived : Bool}
    {request : Request} (names : (system.peers.map (·.name)).Nodup)
    (prepared : prepare external system archived request = some mutation) :
    Pending system.peers system.gate mutation := by
  cases request with
  | packAdd name fingerprint address publicKeyB64 => exact preparePackAdd_pending prepared
  | packRemove name => exact preparePackRemove_pending names prepared
  | governanceApply statement expectHash => exact prepareGovernance_pending names prepared

theorem Guarded.ticket {system : System} (guarded : Guarded system) {ticket : AuthorityTicket}
    (issued : system.gate.ticket sender = some (ticket, gate))
    (member : ticket.peer ∉ system.gate.peers → ∃ record ∈ system.peers, record.fingerprint = sender) :
    Guarded { system with gate := gate } := by
  obtain ⟨parsed, _, ⟨_, rfl⟩ | ⟨unknown, number, shape⟩⟩ := Gate.ticket_some issued
  · exact guarded
  · have others {peer : Peer} (different : peer ≠ ticket.peer) :
        gate.peers.lookup peer = system.gate.peers.lookup peer := by
      rw [shape, AList.lookup_insert_ne different]
    refine ⟨guarded.names, fun peer authorizes => ?_, guarded.tickets,
      fun mutation running unpublished => ?_⟩
    · by_cases same : peer = ticket.peer
      · obtain ⟨record, recordMember, named⟩ := member unknown
        exact ⟨record, recordMember, by rw [named, parsed, same]⟩
      · obtain ⟨generation, found, state⟩ := authorizes
        exact guarded.authorized peer ⟨generation, (others same).symm.trans found, state⟩
    · have pending := guarded.pending mutation running unpublished
      refine ⟨pending.names, pending.covers, fun text textMember => ?_⟩
      rcases pending.denied text textMember with waiting | ⟨peer, peerParsed, generation, found, state⟩
      · exact .inl waiting
      · -- A denied peer has a generation, so the new one is not its own.
        have different : peer ≠ ticket.peer := by
          rintro rfl
          exact unknown (AList.lookup_isSome.mp (by simp [found]))
        exact .inr ⟨peer, peerParsed, generation, (others different).trans found, state⟩

theorem Guarded.deny {system : System} (guarded : Guarded system) {text : String} {rest : List String}
    (running : system.mutation = some mutation) (stage : mutation.stage = .denying (text :: rest))
    (denied : system.gate.denyPeer text = some gate) :
    Guarded { system with
      gate := gate
      mutation := some { mutation with stage := .denying rest } } := by
  obtain ⟨peer, parsed, denies, others⟩ := Gate.denyPeer_some denied
  have pending := guarded.pending mutation running (by simp [Mutation.unpublished, stage])
  have kept : ∀ other, gate.Authorizes other → system.gate.Authorizes other := by
    rintro other authorizes
    by_cases same : other = peer
    · subst same
      exact absurd authorizes denies.not_authorizes
    · obtain ⟨generation, found, state⟩ := authorizes
      exact ⟨generation, (others other same).symm.trans found, state⟩
  refine ⟨guarded.names, fun other authorizes => guarded.authorized other (kept other authorizes),
    guarded.tickets, fun other otherRunning _ => ?_⟩
  cases otherRunning
  refine ⟨pending.names, pending.covers, fun other member => ?_⟩
  rcases pending.denied other member with waiting | ⟨known, knownParsed, generation, found, state⟩
  · simp only [Mutation.undenied, stage, List.mem_cons] at waiting
    rcases waiting with rfl | later
    · exact .inr ⟨peer, parsed, denies⟩
    · exact .inl later
  · by_cases same : known = peer
    · exact .inr ⟨known, knownParsed, same ▸ denies⟩
    · exact .inr ⟨known, knownParsed, generation, (others known same).trans found, state⟩

theorem Guarded.publishPack {system : System} (guarded : Guarded system) (running : system.mutation = some mutation)
    (stage : mutation.stage = .publishing) (governance : Option Head) :
    Guarded { system with
      peers := mutation.candidate
      governance := governance
      mutation := some { mutation with stage := .removing mutation.revoked } } := by
  have pending := guarded.pending mutation running (by simp [Mutation.unpublished, stage])
  refine ⟨pending.names, fun peer authorizes => ?_, guarded.tickets, fun other otherRunning => ?_⟩
  · obtain ⟨record, member, parsed⟩ := guarded.authorized peer authorizes
    rcases pending.covers record member with kept | revoked
    · obtain ⟨other, otherMember, same⟩ := List.mem_map.mp kept
      exact ⟨other, otherMember, same ▸ parsed⟩
    · rcases pending.denied _ revoked with waiting | ⟨denied, deniedParsed, denies⟩
      · simp [Mutation.undenied, stage] at waiting
      · cases parsed.symm.trans deniedParsed
        exact absurd authorizes denies.not_authorizes
  · cases otherRunning
    simp [Mutation.unpublished]

theorem Guarded.remove {system : System} (guarded : Guarded system) {text : String}
    {rest : List String} (removed : system.gate.removed text = some gate) :
    Guarded { system with
      gate := gate
      mutation := some { mutation with stage := .removing rest } } := by
  obtain ⟨peer, _, shape⟩ := Gate.removed_some removed
  refine ⟨guarded.names, fun other authorizes => guarded.authorized other ?_, guarded.tickets,
    fun other otherRunning => ?_⟩
  · obtain ⟨generation, found, state⟩ := authorizes
    by_cases same : other = peer
    · subst same
      simp [shape] at found
    · exact ⟨generation, by rwa [shape, AList.lookup_erase_ne same] at found, state⟩
  · cases otherRunning
    simp [Mutation.unpublished]

theorem Guarded.finish {system : System} (guarded : Guarded system) (mutation : Mutation) :
    Guarded (finish system mutation) := by
  unfold Authority.finish
  split
  · exact guarded.carried rfl (Gate.lock_peers _) rfl (by simp)
  · split
    · refine guarded.carried rfl ?_ rfl (by simp)
      cases opened : system.gate.openAfterDurable mutation.reopenEpoch with
      | none => rfl
      | some gate => exact (Gate.openAfterDurable_some opened).1
    · exact guarded.carried rfl rfl rfl (by simp)

theorem Pending.restage {before after : Mutation} (pending : Pending peers gate before)
    (candidate : after.candidate = before.candidate) (revoked : after.revoked = before.revoked)
    (undenied : after.undenied = before.undenied) :
    Pending peers gate after where
  names := candidate ▸ pending.names
  covers := by
    rw [candidate, revoked]
    exact pending.covers
  denied := by
    rw [revoked, undenied]
    exact pending.denied

theorem Guarded.advance {system : System} (guarded : Guarded system)
    (running : system.mutation = some mutation) (report : Report) :
    Guarded (advance system mutation report) := by
  have ended {gate : Gate} {degraded : Bool} (table : gate.peers = system.gate.peers) :
      Guarded { system with gate := gate, mutation := none, storageDegraded := degraded } :=
    guarded.carried rfl table rfl (by simp)
  have published {after : Mutation} (past : after.unpublished = false) :
      Guarded { system with mutation := some after } :=
    guarded.carried rfl rfl rfl (by simp [past])
  have moved {after : Mutation} {gate : Gate} (table : gate.peers = system.gate.peers)
      (unpublished : mutation.unpublished = true) (candidate : after.candidate = mutation.candidate)
      (revoked : after.revoked = mutation.revoked) (undenied : after.undenied = mutation.undenied) :
      Guarded { system with gate := gate, mutation := some after } := by
    refine guarded.carried rfl table rfl fun other otherRunning _ => ?_
    cases otherRunning
    exact (guarded.pending mutation running unpublished).restage candidate revoked undenied
  cases stage : mutation.stage with
  | fencing =>
    simp only [Authority.advance, stage]
    split
    · split
      · exact moved (Gate.lock_peers _) (by simp [Mutation.unpublished, stage]) rfl rfl
          (by simp [Mutation.undenied, stage])
      · exact ended (Gate.lock_peers _)
    · exact moved rfl (by simp [Mutation.unpublished, stage]) rfl rfl (by simp [Mutation.undenied, stage])
  | denying pending =>
    cases pending with
    | nil =>
      simp only [Authority.advance, stage]
      exact moved rfl (by simp [Mutation.unpublished, stage]) rfl rfl (by simp [Mutation.undenied, stage])
    | cons text rest =>
      simp only [Authority.advance, stage]
      split
      · rename_i gate denied
        exact guarded.deny running stage denied
      · exact ended rfl
  | committing =>
    cases report with
    | done =>
      simp only [Authority.advance, stage]
      exact moved rfl (by simp [Mutation.unpublished, stage]) rfl rfl (by simp [Mutation.undenied, stage])
    | failed =>
      simp only [Authority.advance, stage]
      exact ended rfl
    | indeterminate =>
      simp only [Authority.advance, stage]
      exact ended rfl
  | publishing =>
    simp only [Authority.advance, stage]
    exact guarded.publishPack running stage _
  | removing pending =>
    cases pending with
    | nil =>
      simp only [Authority.advance, stage]
      exact published rfl
    | cons text rest =>
      simp only [Authority.advance, stage]
      split
      · rename_i gate removed
        exact guarded.remove removed
      · exact ended rfl
  | cleaning pending =>
    cases pending with
    | nil =>
      simp only [Authority.advance, stage]
      exact guarded.finish mutation
    | cons text rest =>
      simp only [Authority.advance, stage]
      split
      · exact published rfl
      · cases report with
        | done => exact guarded
        | failed => exact ended rfl
        | indeterminate => exact ended rfl

def granted (system : System) : Event → Option String
  | .ticket id =>
      match system.handshakes.lookup id with
      | some ⟨sender, _, none⟩ => (system.gate.ticket sender).map (fun _ => sender)
      | _ => none
  | .reserve id =>
      match system.handshakes.lookup id with
      | some ⟨sender, transport, some ticket⟩ =>
          (system.gate.reserve ticket transport).map (fun _ => sender)
      | _ => none
  | _ => none

/-- The sender that a ticket step finds without a generation and enrolls. -/
def enrolls (system : System) : Event → Option String
  | .ticket id =>
      match system.handshakes.lookup id with
      | some ⟨sender, _, none⟩ =>
          (system.gate.ticket sender).bind (fun (ticket, _) =>
            if ticket.peer ∈ system.gate.peers then none else some sender)
      | _ => none
  | _ => none

/-- Along the run, whoever a step selects is in the live Pack at that moment. -/
def MembersOnly (selects : System → Event → Option String) (external : External)
    (start : System) (events : List Event) : Prop :=
  ∀ before event after sender, events = before ++ event :: after →
    selects (run (step external) start before) event = some sender →
    sender ∈ (run (step external) start before).peers.map (·.fingerprint)

theorem membersOnly_cons (selects : System → Event → Option String) (external : External)
    (start : System) (event : Event) (events : List Event) :
    MembersOnly selects external start (event :: events) ↔
      (∀ sender ∈ selects start event, sender ∈ start.peers.map (·.fingerprint)) ∧
        MembersOnly selects external (step external start event) events := by
  constructor
  · intro members
    refine ⟨fun sender selected => members [] event events sender rfl selected, ?_⟩
    intro before next after sender split selected
    exact members (event :: before) next after sender (by rw [split, List.cons_append]) selected
  · rintro ⟨first, later⟩ before next after sender split selected
    cases before with
    | nil =>
      cases split
      exact first sender selected
    | cons _ before =>
      cases split
      exact later before next after sender rfl selected

instance decidableMembersOnly (selects : System → Event → Option String) (external : External) :
    (start : System) → (events : List Event) → Decidable (MembersOnly selects external start events)
  | _, [] => isTrue (by simp [MembersOnly])
  | start, event :: events =>
      have := decidableMembersOnly selects external (step external start event) events
      decidable_of_iff' _ (membersOnly_cons selects external start event events)

theorem granted_of_enrolls {system : System} {event : Event}
    (selected : enrolls system event = some sender) : granted system event = some sender := by
  cases event with
  | ticket id =>
    simp only [enrolls] at selected
    split at selected
    · rename_i waiting _ found
      obtain ⟨⟨ticket, gate⟩, issued, choice⟩ := Option.bind_eq_some_iff.mp selected
      obtain ⟨_, same⟩ := Option.ite_none_left_eq_some.mp choice
      cases same
      simp [granted, found, issued]
    · cases selected
  | _ => cases selected

theorem Guarded.step {external : External} {system : System} (guarded : Guarded system)
    (event : Event) (members : ∀ sender, enrolls system event = some sender →
      sender ∈ system.peers.map (·.fingerprint)) :
    Guarded (step external system event) := by
  cases event with
  | arrive id sender transport =>
    simp only [Authority.step]
    split
    · exact guarded
    · exact guarded.putHandshake id (by simp)
  | refuse id => exact guarded.dropHandshake id
  | ticket id =>
    simp only [Authority.step]
    split
    · rename_i sender transport found
      split
      · rename_i ticket gate issued
        have kept : Guarded { system with gate := gate } := by
          refine guarded.ticket issued fun unknown => List.mem_map.mp (members sender ?_)
          simp [enrolls, found, issued, unknown]
        refine kept.putHandshake id fun other same => ?_
        cases same
        exact (Gate.ticket_some issued).1
      · exact guarded.dropHandshake id
    · exact guarded
  | reserve id =>
    simp only [Authority.step]
    split
    · split
      · rename_i reserved
        have kept := guarded.dropHandshake id
        exact kept.carried rfl (Gate.reserve_some reserved).2 rfl kept.pending
      · exact guarded.dropHandshake id
    · exact guarded
  | publish lease =>
    refine guarded.carried rfl ?_ rfl guarded.pending
    cases published : system.gate.publish lease with
    | none => simp [Authority.step, published]
    | some gate => simp [Authority.step, published, Gate.publish_peers published]
  | release lease => exact guarded.carried rfl (Gate.release_peers _ _) rfl guarded.pending
  | begin request archived =>
    simp only [Authority.step]
    split
    · exact guarded
    · exact guarded.carried rfl rfl rfl fun mutation running _ =>
        prepare_pending guarded.names running
  | advance report =>
    cases running : system.mutation with
    | none => simpa only [Authority.step, running] using guarded
    | some mutation => simpa only [Authority.step, running] using guarded.advance running report

theorem Guarded.granted_member {system : System} (guarded : Guarded system) {event : Event}
    (members : ∀ sender, enrolls system event = some sender →
      sender ∈ system.peers.map (·.fingerprint)) (grant : granted system event = some sender) :
    sender ∈ system.peers.map (·.fingerprint) := by
  have authorizedMember {peer : Peer} (parsed : fingerprint sender = some peer)
      (authorizes : system.gate.Authorizes peer) :
      sender ∈ system.peers.map (·.fingerprint) := by
    obtain ⟨record, member, recordParsed⟩ := guarded.authorized peer authorizes
    exact List.mem_map.mpr ⟨record, member, fingerprint_injective recordParsed parsed⟩
  unfold granted at grant
  split at grant
  · split at grant
    · rename_i waiting _ found
      obtain ⟨⟨ticket, gate⟩, issued, same⟩ := Option.map_eq_some_iff.mp grant
      subst same
      obtain ⟨parsed, authorizes, ⟨_, same⟩ | ⟨unknown, _⟩⟩ := Gate.ticket_some issued
      · exact authorizedMember parsed (same ▸ authorizes)
      · exact members _ (by simp [enrolls, found, issued, unknown])
    · cases grant
  · split at grant
    · rename_i waiting _ ticket found
      obtain ⟨⟨lease, gate⟩, reserved, same⟩ := Option.map_eq_some_iff.mp grant
      subst same
      exact authorizedMember (guarded.tickets _ _ ticket found rfl)
        (Gate.current_authorizes (Gate.reserve_some reserved).1)
    · cases grant
  · cases grant

/-- Tickets and leases go to members only, in exactly the runs where the ticket
steps enroll members only. -/
theorem granted_members_iff (external : External) (peers : List PeerRecord) (governance : Option Head)
    (ownKey : Option Key) (silverActive : Bool) (valid : pack external peers = true) (events : List Event) :
    MembersOnly granted external (System.start peers governance ownKey silverActive) events ↔
      MembersOnly enrolls external (System.start peers governance ownKey silverActive) events := by
  constructor
  · intro members before event after sender split selected
    exact members before event after sender split (granted_of_enrolls selected)
  · intro members before event after sender split grant
    have guarded := run_invariant_of_steps Guarded (fun system event => ∀ sender, enrolls system event = some sender →
        sender ∈ system.peers.map (·.fingerprint))
      (fun _ event guarded enrolled => guarded.step event enrolled)
      (Guarded.start governance ownKey silverActive valid) before
      (fun earlier next later cut sender selected => members earlier next (later ++ event :: after)
        sender (by simp [split, cut]) selected)
    exact guarded.granted_member (fun other selected => members before event after other split selected) grant

namespace Sample

def external : External where
  toCrypto := Governance.Sample.crypto
  base64Decode _ := none
  base64Encode _ := ""
  isSocketAddr _ := true

def member : PeerRecord :=
  ⟨"howler", "wwp1:12-34-56-78-9A-BC-DE-F0", "tcp://127.0.0.1:7000", .packmate, none⟩

def removal : List Event :=
  .begin (.packRemove "howler") true :: List.replicate 9 (.advance .done)

end Sample

open Sample

/-- A handshake that holds its lease when the member is removed. -/
theorem early_lease_for_member : pack external [Sample.member] = true ∧
      MembersOnly granted external (System.start [Sample.member] none none false)
        ([.arrive 0 Sample.member.fingerprint .tcp, .ticket 0, .reserve 0] ++ removal) :=
  ⟨by decide +kernel, (granted_members_iff external [Sample.member] none none false (by decide +kernel)
      ([.arrive 0 Sample.member.fingerprint .tcp, .ticket 0, .reserve 0] ++ removal)).mpr
      (by decide +kernel)⟩

/-- A handshake that looked at the Pack before the removal and asks for its
ticket after it obtains the ticket and the lease. -/
theorem stale_handshake_obtains_lease : pack external [Sample.member] = true ∧
      ¬ MembersOnly granted external (System.start [Sample.member] none none false)
        (.arrive 0 Sample.member.fingerprint .tcp :: removal ++ [.ticket 0, .reserve 0]) ∧
      (run (step external) (System.start [Sample.member] none none false)
        (.arrive 0 Sample.member.fingerprint .tcp :: removal)).peers = [] ∧
      granted (run (step external) (System.start [Sample.member] none none false)
        (.arrive 0 Sample.member.fingerprint .tcp :: removal ++ [.ticket 0])) (.reserve 0) =
          some Sample.member.fingerprint := by
  decide +kernel

end Werewolf.Authority
