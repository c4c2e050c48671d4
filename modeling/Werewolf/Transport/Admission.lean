import Werewolf.Authority.GateProperties
import Werewolf.Library.Transition
import Werewolf.Transport.Receiver

/-! Handshake and target-work permits under any interleaving. What happens under one
lock is one step; a semaphore is taken before the lock of its counter and given back
after it. -/

namespace Werewolf.Transport
open Governance State Library
open Authority (Peer require require_eq_some)

section Model

def globalHandshakes : Nat := 256
def globalTargetWork : Nat := 64

/-- The permits of a process: those held, by the peer they were authenticated as;
target work that has its global permit and waits for its counter, and target work that
was granted; and global permits that are on their way back. -/
structure Permits where
  admission : Admission
  available : Nat
  handshakes : List HandshakePermit
  releasing : Nat
  waiting : List Peer
  works : List Peer
  targetReleasing : Nat
  underflowed : Bool

def Permits.initial : Permits where
  admission := ⟨∅, globalTargetWork, ∅⟩
  available := globalHandshakes
  handshakes := []
  releasing := 0
  waiting := []
  works := []
  targetReleasing := 0
  underflowed := false

/-- The counter of a peer goes down with a permit, and an entry that reaches zero is
removed. The second value tells an underflow. -/
def countDown (counts : AList (fun _ : Peer => Nat)) (peer : Peer) : AList (fun _ : Peer => Nat) × Bool :=
  match counts.lookup peer with
  | none => (counts, false)
  | some 0 => (counts, true)
  | some (count + 1) =>
      (if count = 0 then counts.erase peer else counts.insert peer count, false)

inductive PermitEvent where
  | handshake
  | authenticated (index : Nat) (fingerprint : String)
  | dropHandshake (index : Nat)
  | release
  /-- `target_work` up to its global permit. -/
  | targetWork (index : Nat) (fingerprint : String)
  /-- The counter of waiting target work. -/
  | count (index : Nat)
  | dropWork (index : Nat)
  | targetRelease

def Permits.step (permits : Permits) : PermitEvent → Permits
  | .handshake =>
      if 0 < permits.available then
        { permits with
          available := permits.available - 1
          handshakes := ⟨none⟩ :: permits.handshakes }
      else permits
  | .authenticated index fingerprint =>
      match permits.handshakes[index]? with
      | none => permits
      | some permit =>
          match permits.admission.authenticated permit fingerprint with
          | none => permits
          | some (permit, admission) =>
              { permits with
                admission := admission
                handshakes := permits.handshakes.set index permit }
  | .dropHandshake index =>
      match permits.handshakes[index]? with
      | none => permits
      | some permit =>
          let dropped := { permits with
            handshakes := permits.handshakes.eraseIdx index
            releasing := permits.releasing + 1 }
          match permit.peer with
          | none => dropped
          | some peer =>
              let counted := countDown permits.admission.peers peer
              { dropped with
                admission := { permits.admission with peers := counted.1 }
                underflowed := permits.underflowed || counted.2 }
  | .release =>
      if 0 < permits.releasing then
        { permits with
          available := permits.available + 1
          releasing := permits.releasing - 1 }
      else permits
  | .targetWork index fingerprint =>
      match permits.handshakes[index]?, Authority.fingerprint fingerprint with
      | some permit, some peer =>
          if permit.peer = some peer ∧ 0 < permits.admission.targetPermits then
            { permits with
              admission := { permits.admission with
                targetPermits := permits.admission.targetPermits - 1 }
              waiting := peer :: permits.waiting }
          else permits
      | _, _ => permits
  | .count index =>
      match permits.waiting[index]? with
      | none => permits
      | some peer =>
          let count := (permits.admission.targetPeers.lookup peer).getD 0
          let served := { permits with waiting := permits.waiting.eraseIdx index }
          if count < peerTargetWork then
            { served with
              admission := { permits.admission with
                targetPeers := permits.admission.targetPeers.insert peer (count + 1) }
              works := peer :: permits.works }
          else { served with targetReleasing := permits.targetReleasing + 1 }
  | .dropWork index =>
      match permits.works[index]? with
      | none => permits
      | some peer =>
          let counted := countDown permits.admission.targetPeers peer
          { permits with
            admission := { permits.admission with targetPeers := counted.1 }
            works := permits.works.eraseIdx index
            targetReleasing := permits.targetReleasing + 1
            underflowed := permits.underflowed || counted.2 }
  | .targetRelease =>
      if 0 < permits.targetReleasing then
        { permits with
          admission := { permits.admission with
            targetPermits := permits.admission.targetPermits + 1 }
          targetReleasing := permits.targetReleasing - 1 }
      else permits

def Permits.held (permits : Permits) (peer : Peer) : Nat :=
  (permits.handshakes.map HandshakePermit.peer).count (some peer)

end Model

section Counters

variable {counts : AList (fun _ : Peer => Nat)} {number next : Peer → Nat} {peer : Peer}

def Tallies (counts : AList (fun _ : Peer => Nat)) (number : Peer → Nat) : Prop :=
  ∀ peer, counts.lookup peer = if number peer = 0 then none else some (number peer)

theorem Tallies.getD (tallies : Tallies counts number) (peer : Peer) : (counts.lookup peer).getD 0 = number peer := by
  rw [tallies peer]
  split
  · rename_i none
    exact none.symm
  · rfl

theorem Tallies.insert (tallies : Tallies counts number)
    (added : ∀ other, next other = number other + if other = peer then 1 else 0) :
    Tallies (counts.insert peer ((counts.lookup peer).getD 0 + 1)) next := by
  intro other
  rw [tallies.getD, added]
  by_cases same : other = peer
  · subst same
    simp [AList.lookup_insert]
  · simp only [same, if_false, Nat.add_zero]
    rw [AList.lookup_insert_ne same]
    exact tallies other

theorem Tallies.countDown (tallies : Tallies counts number)
    (removed : ∀ other, number other = next other + if other = peer then 1 else 0) :
    (countDown counts peer).2 = false ∧ Tallies (countDown counts peer).1 next := by
  have found : counts.lookup peer = some (next peer + 1) := by
    rw [tallies peer, removed peer, if_pos rfl]
    simp
  simp only [Transport.countDown, found, true_and]
  intro other
  by_cases same : other = peer
  · subst same
    split
    · rw [AList.lookup_erase]
    · rw [AList.lookup_insert]
  · have kept : number other = next other := by simp [removed, same]
    rw [← kept, ← tallies other]
    split
    · rw [AList.lookup_erase_ne same]
    · rw [AList.lookup_insert_ne same]

theorem count_cons_eq {α : Type} [DecidableEq α] [BEq α] [LawfulBEq α] (values : List α) (value other : α) :
    (value :: values).count other = values.count other + if other = value then 1 else 0 := by
  by_cases same : other = value
  · simp [same]
  · simp [same, Ne.symm same]

theorem count_eraseIdx {α : Type} [DecidableEq α] [BEq α] [LawfulBEq α] {values : List α}
    {index : Nat} {value : α} (found : values[index]? = some value) (other : α) :
    values.count other = (values.eraseIdx index).count other + if other = value then 1 else 0 := by
  obtain ⟨inside, rfl⟩ := List.getElem?_eq_some_iff.mp found
  rw [← (List.getElem_cons_eraseIdx_perm inside).count_eq, count_cons_eq]

end Counters

section Invariant

variable {permits : Permits}

/-- The counters tell the permits held, none of them passes its bound, and no global
permit is lost. -/
structure Permits.Accounted (permits : Permits) : Prop where
  peers : Tallies permits.admission.peers permits.held
  targetPeers : Tallies permits.admission.targetPeers permits.works.count
  bounded : ∀ peer, permits.held peer ≤ peerHandshakes
  targetBounded : ∀ peer, permits.works.count peer ≤ peerTargetWork
  total : permits.available + permits.handshakes.length + permits.releasing = globalHandshakes
  targetTotal : permits.admission.targetPermits + permits.waiting.length + permits.works.length +
    permits.targetReleasing = globalTargetWork
  sound : permits.underflowed = false

theorem Permits.Accounted.authenticated (accounted : permits.Accounted) (index : Nat)
    (fingerprint : String) : (permits.step (.authenticated index fingerprint)).Accounted := by
  simp only [step]
  split
  · exact accounted
  · rename_i permit found
    split
    · exact accounted
    · rename_i next admission granted
      simp only [Admission.authenticated, bind_eq_some, return_eq_some, Prod.mk.injEq,
        require_eq_some, decide_eq_true_eq, Option.isNone_iff_eq_none] at granted
      obtain ⟨_, unnamed, peer, _, _, room, rfl, rfl⟩ := granted
      obtain ⟨inside, here⟩ := List.getElem?_eq_some_iff.mp found
      have added : ∀ other, ((permits.handshakes.set index ⟨some peer⟩).map HandshakePermit.peer).count (some other) =
            permits.held other + if other = peer then 1 else 0 := by
        intro other
        rw [List.map_set, List.count_set (by simpa using inside)]
        by_cases same : other = peer
        · simp [held, here, unnamed, same]
        · have apart : peer.val ≠ other.val := fun equal => same (Subtype.ext equal.symm)
          simp [held, here, unnamed, same, apart]
      rw [accounted.peers.getD] at room
      refine ⟨accounted.peers.insert added, accounted.targetPeers, fun other => ?_,
        accounted.targetBounded, ?_, accounted.targetTotal, accounted.sound⟩
      · have count := added other
        have bound := accounted.bounded other
        change ((permits.handshakes.set index ⟨some peer⟩).map HandshakePermit.peer).count
          (some other) ≤ peerHandshakes
        by_cases same : other = peer
        · subst same
          simp only [if_true] at count
          omega
        · simp only [same, if_false] at count
          omega
      · simpa using accounted.total

theorem Permits.Accounted.dropHandshake (accounted : permits.Accounted) (index : Nat) :
    (permits.step (.dropHandshake index)).Accounted := by
  simp only [step]
  split
  · exact accounted
  · rename_i permit found
    obtain ⟨inside, here⟩ := List.getElem?_eq_some_iff.mp found
    have removed : ∀ other, permits.held other =
        ((permits.handshakes.eraseIdx index).map HandshakePermit.peer).count (some other) +
          if some other = permit.peer then 1 else 0 := by
      intro other
      rw [← List.eraseIdx_map]
      exact count_eraseIdx (by simp [found]) (some other)
    have fewer : ∀ other, ((permits.handshakes.eraseIdx index).map HandshakePermit.peer).count
        (some other) ≤ peerHandshakes :=
      fun other => (Nat.le_add_right _ _).trans ((removed other).symm.le.trans (accounted.bounded other))
    have total : permits.available + (permits.handshakes.eraseIdx index).length +
        (permits.releasing + 1) = globalHandshakes := by
      rw [List.length_eraseIdx_of_lt inside]
      have total := accounted.total
      omega
    split
    · rename_i unnamed
      refine ⟨?_, accounted.targetPeers, fewer, accounted.targetBounded, total,
        accounted.targetTotal, accounted.sound⟩
      intro other
      have same : ((permits.handshakes.eraseIdx index).map HandshakePermit.peer).count (some other) =
          permits.held other := by
        simp [removed, unnamed]
      have told := accounted.peers other
      rw [← same] at told
      exact told
    · rename_i peer named
      obtain ⟨safe, peers⟩ := @Tallies.countDown _ _ _ peer accounted.peers
        (fun other => by simpa [named] using removed other)
      exact ⟨peers, accounted.targetPeers, fewer, accounted.targetBounded, total,
        accounted.targetTotal, by simp [accounted.sound, safe]⟩

theorem Permits.Accounted.count (accounted : permits.Accounted) (index : Nat) :
    (permits.step (.count index)).Accounted := by
  simp only [step]
  split
  · exact accounted
  · rename_i peer found
    obtain ⟨inside, _⟩ := List.getElem?_eq_some_iff.mp found
    have total := accounted.targetTotal
    split
    · rename_i room
      rw [accounted.targetPeers.getD] at room
      have added : ∀ other, (peer :: permits.works).count other =
          permits.works.count other + if other = peer then 1 else 0 :=
        count_cons_eq permits.works peer
      refine ⟨accounted.peers, accounted.targetPeers.insert added, accounted.bounded,
        fun other => ?_, accounted.total, ?_, accounted.sound⟩
      · have bound := accounted.targetBounded other
        change (peer :: permits.works).count other ≤ peerTargetWork
        rw [added]
        by_cases same : other = peer
        · subst same
          simp only [if_true]
          omega
        · simpa [same] using bound
      · simp only [List.length_eraseIdx_of_lt inside, List.length_cons]
        omega
    · exact { accounted with
        targetTotal := by simp only [List.length_eraseIdx_of_lt inside]; omega }

theorem Permits.Accounted.dropWork (accounted : permits.Accounted) (index : Nat) :
    (permits.step (.dropWork index)).Accounted := by
  simp only [step]
  split
  · exact accounted
  · rename_i peer found
    obtain ⟨inside, _⟩ := List.getElem?_eq_some_iff.mp found
    have removed := count_eraseIdx found
    obtain ⟨safe, peers⟩ := accounted.targetPeers.countDown removed
    refine ⟨accounted.peers, peers, accounted.bounded, fun other => ?_, accounted.total, ?_,
      by simp [accounted.sound, safe]⟩
    · exact (Nat.le_add_right _ _).trans ((removed other).symm.le.trans (accounted.targetBounded other))
    · have total := accounted.targetTotal
      simp only [List.length_eraseIdx_of_lt inside]
      omega

theorem Permits.Accounted.step (accounted : permits.Accounted) (event : PermitEvent) :
    (permits.step event).Accounted := by
  have total := accounted.total
  have targetTotal := accounted.targetTotal
  cases event with
  | authenticated index fingerprint => exact accounted.authenticated index fingerprint
  | dropHandshake index => exact accounted.dropHandshake index
  | count index => exact accounted.count index
  | dropWork index => exact accounted.dropWork index
  | handshake =>
    simp only [Permits.step]
    split
    · exact { accounted with total := by simp only [List.length_cons]; omega }
    · exact accounted
  | release =>
    simp only [Permits.step]
    split
    · exact { accounted with total := by dsimp only; omega }
    · exact accounted
  | targetWork index fingerprint =>
    simp only [Permits.step]
    split
    · split
      · exact { accounted with targetTotal := by simp only [List.length_cons]; omega }
      · exact accounted
    · exact accounted
  | targetRelease =>
    simp only [Permits.step]
    split
    · exact { accounted with targetTotal := by dsimp only; omega }
    · exact accounted

theorem Permits.targetWork_authenticated (permits : Permits) (index : Nat) (fingerprint : String) :
    (permits.step (.targetWork index fingerprint)).waiting = permits.waiting ∨
      ∃ peer, Authority.fingerprint fingerprint = some peer ∧ permits.handshakes[index]? = some ⟨some peer⟩ ∧
        (permits.step (.targetWork index fingerprint)).waiting = peer :: permits.waiting := by
  simp only [step]
  split
  · rename_i permit peer found named
    split
    · rename_i grants
      refine .inr ⟨peer, named, ?_, rfl⟩
      rw [found, ← grants.1]
    · exact .inl rfl
  · exact .inl rfl

end Invariant

/-- Under every interleaving: each counter is the number of permits held for its peer,
without an entry for zero and without an underflow; a peer holds 16 handshakes and 8
target works at most, and all together hold 256 and 64; and target work begins only
for the peer its permit was authenticated as. -/
theorem permits_are_accounted (events : List PermitEvent) :
    let permits := run Permits.step Permits.initial events
    (∀ peer, permits.admission.peers.lookup peer =
        (if permits.held peer = 0 then none else some (permits.held peer)) ∧
      permits.admission.targetPeers.lookup peer =
        (if permits.works.count peer = 0 then none else some (permits.works.count peer)) ∧
      permits.held peer ≤ 16 ∧ permits.works.count peer ≤ 8) ∧
    permits.underflowed = false ∧ permits.handshakes.length ≤ 256 ∧ permits.works.length ≤ 64 ∧
    ∀ index fingerprint, (permits.step (.targetWork index fingerprint)).waiting = permits.waiting ∨
        ∃ peer, Authority.fingerprint fingerprint = some peer ∧ permits.handshakes[index]? = some ⟨some peer⟩ ∧
          (permits.step (.targetWork index fingerprint)).waiting = peer :: permits.waiting := by
  intro permits
  have initial : Permits.initial.Accounted :=
    ⟨fun _ => rfl, fun _ => rfl, fun _ => Nat.zero_le _, fun _ => Nat.zero_le _, rfl, rfl, rfl⟩
  have accounted : permits.Accounted :=
    run_invariant Permits.Accounted (fun _ event accounted => accounted.step event) initial events
  have total := accounted.total
  have targetTotal := accounted.targetTotal
  simp only [globalHandshakes, globalTargetWork] at total targetTotal
  exact ⟨fun peer => ⟨accounted.peers peer, accounted.targetPeers peer, accounted.bounded peer,
    accounted.targetBounded peer⟩, accounted.sound, by omega, by omega,
    permits.targetWork_authenticated⟩

end Werewolf.Transport
