import Mathlib.Data.Fintype.Basic
import Werewolf.Authority.Gate
import Werewolf.Library.Result

/-! What each gate operation does to the authority of each peer. -/

namespace Werewolf.Authority
open Library

variable {peer : Peer}

def upperHexDigit (value : UInt8) : UInt8 :=
  if value < 10 then value + 0x30 else value + 0x37

/-- The text of a nonempty list of bytes, the inverse of `fingerprintPairs`. -/
def pairsText : List UInt8 → List UInt8
  | [] => []
  | [byte] => [upperHexDigit (byte / 16), upperHexDigit (byte % 16)]
  | byte :: rest => upperHexDigit (byte / 16) :: upperHexDigit (byte % 16) :: 0x2D :: pairsText rest

private theorem upperHexValue_pair {high low highValue lowValue : UInt8}
    (highDigit : upperHexValue high = some highValue) (lowDigit : upperHexValue low = some lowValue) :
    high = upperHexDigit ((highValue * 16 + lowValue) / 16) ∧
      low = upperHexDigit ((highValue * 16 + lowValue) % 16) := by
  have digit : ∀ byte, ∀ value ∈ upperHexValue byte, value.toNat < 16 ∧ byte = upperHexDigit value :=
    forall_byte (by decide +kernel)
  obtain ⟨highFits, highEq⟩ := digit high highValue highDigit
  obtain ⟨lowFits, lowEq⟩ := digit low lowValue lowDigit
  have quotient : (highValue * 16 + lowValue) / 16 = highValue := by
    apply UInt8.toNat.inj
    simp only [UInt8.toNat_div, UInt8.toNat_add, UInt8.toNat_mul, UInt8.reduceToNat]
    omega
  have remainder : (highValue * 16 + lowValue) % 16 = lowValue := by
    apply UInt8.toNat.inj
    simp only [UInt8.toNat_mod, UInt8.toNat_add, UInt8.toNat_mul, UInt8.reduceToNat]
    omega
  rw [quotient, remainder]
  exact ⟨highEq, lowEq⟩

theorem fingerprintPairs_text {text pairs : List UInt8}
    (parsed : fingerprintPairs text = some pairs) : text = pairsText pairs ∧ pairs ≠ [] := by
  fun_induction fingerprintPairs text generalizing pairs with
  | case1 high low =>
    simp only [bind_eq_some, return_eq_some] at parsed
    obtain ⟨highValue, highDigit, lowValue, lowDigit, rfl⟩ := parsed
    obtain ⟨highEq, lowEq⟩ := upperHexValue_pair highDigit lowDigit
    exact ⟨by rw [pairsText, ← highEq, ← lowEq], by simp⟩
  | case2 => cases parsed
  | case3 high low dash rest isDash ih =>
    simp only [bind_eq_some, return_eq_some] at parsed
    obtain ⟨highValue, highDigit, lowValue, lowDigit, later, restParsed, rfl⟩ := parsed
    obtain ⟨highEq, lowEq⟩ := upperHexValue_pair highDigit lowDigit
    obtain ⟨restEq, nonempty⟩ := ih restParsed
    refine ⟨?_, by simp⟩
    rw [pairsText, ← highEq, ← lowEq, ← restEq, not_not.mp isDash]
    exact nonempty
  | case4 => cases parsed

theorem fingerprint_text {text : String} (parsed : fingerprint text = some peer) :
    text.toUTF8.data.toList = leadingBytes ++ pairsText peer.val := by
  simp only [fingerprint] at parsed
  split at parsed
  · rename_i starts
    split at parsed
    · rename_i pairs found
      split at parsed
      · cases parsed
        obtain ⟨rest, shape⟩ := List.isPrefixOf_iff_prefix.mp starts
        rw [← shape, List.drop_left] at found
        rw [← shape, (fingerprintPairs_text found).1]
      · cases parsed
    · cases parsed
  · cases parsed

theorem fingerprint_injective {left right : String} (leftParsed : fingerprint left = some peer)
    (rightParsed : fingerprint right = some peer) :
    left = right := by
  have same := (fingerprint_text leftParsed).trans (fingerprint_text rightParsed).symm
  exact String.toByteArray_inj.mp (ByteArray.ext (Array.toList_inj.mp same))

theorem length_pairsText {pairs : List UInt8} (nonempty : pairs ≠ []) :
    (pairsText pairs).length + 1 = 3 * pairs.length := by
  fun_induction pairsText pairs with
  | case1 => cases nonempty rfl
  | case2 => rfl
  | case3 byte rest later ih =>
    have size := ih later
    simp only [List.length_cons]
    omega

theorem Peer.ne_nil (peer : Peer) : peer.val ≠ [] :=
  List.ne_nil_of_length_eq_add_one peer.2

theorem fingerprint_size {text : String} (parsed : fingerprint text = some peer) : text.utf8ByteSize = 28 := by
  have bytes := congrArg List.length (fingerprint_text parsed)
  have leading : leadingBytes.length = 5 := by decide
  have pairs := length_pairsText peer.ne_nil
  rw [peer.2] at pairs
  rw [List.length_append, leading] at bytes
  have size : text.toUTF8.data.toList.length = text.utf8ByteSize := rfl
  omega

theorem require_eq_some {condition : Bool} {result : Unit} : require condition = some result ↔ condition = true := by
  cases condition <;> simp [require]

namespace Gate

variable {gate after : Gate} {id : UInt64}

def Authorizes (gate : Gate) (peer : Peer) : Prop :=
  ∃ generation, gate.peers.lookup peer = some generation ∧ generation.state = .authorized

def Denies (gate : Gate) (peer : Peer) : Prop :=
  ∃ generation, gate.peers.lookup peer = some generation ∧ generation.state = .runtimeDeniedPendingDurability

theorem Denies.not_authorizes {peer : Peer} (denies : gate.Denies peer) : ¬ gate.Authorizes peer := by
  rintro ⟨generation, found, authorized⟩
  obtain ⟨denied, deniedFound, state⟩ := denies
  cases found.symm.trans deniedFound
  rw [authorized] at state
  cases state

theorem checkedSucc_some {value next : UInt64} (advanced : checkedSucc value = some next) :
    next.toNat = value.toNat + 1 := by
  simp only [checkedSucc, Option.ite_none_left_eq_some, Option.some.injEq] at advanced
  obtain ⟨room, rfl⟩ := advanced
  have bound := UInt64.toNat_lt value
  have different : value.toNat ≠ 0xFFFFFFFFFFFFFFFF := fun same => room (UInt64.toNat.inj same)
  rw [UInt64.toNat_add, UInt64.toNat_one]
  omega

theorem allocate_some (allocated : gate.allocate = some (id, after)) :
    id = gate.next ∧ ∃ next, after = { gate with next := next } ∧
      next.toNat = gate.next.toNat + 1 := by
  obtain ⟨next, advanced, pair⟩ := Option.map_eq_some_iff.mp allocated
  cases pair
  exact ⟨rfl, next, rfl, checkedSucc_some advanced⟩

@[simp] theorem cancelSessions_peers (gate : Gate) (selects : Entry → Bool) :
    (gate.cancelSessions selects).peers = gate.peers := rfl

@[simp] theorem lock_peers (gate : Gate) : gate.lock.1.peers = gate.peers := rfl

@[simp] theorem release_peers (gate : Gate) (id : UInt64) : (gate.release id).peers = gate.peers :=
  rfl

theorem openAfterDurable_some {expected : UInt64} (opened : gate.openAfterDurable expected = some after) :
    after.peers = gate.peers ∧ after.locked = false := by
  simp only [openAfterDurable, bind_eq_some, require_eq_some, return_eq_some] at opened
  obtain ⟨_, _, epoch, _, rfl⟩ := opened
  exact ⟨rfl, rfl⟩

theorem publish_some (published : gate.publish id = some after) :
    ∃ entry, gate.sessions.lookup id = some entry ∧ after = { gate with
      sessions := gate.sessions.insert id { entry with active := true } } := by
  simp only [publish, bind_eq_some, return_eq_some] at published
  obtain ⟨entry, found, _, _, rfl⟩ := published
  exact ⟨entry, found, rfl⟩

theorem publish_peers (published : gate.publish id = some after) : after.peers = gate.peers := by
  obtain ⟨_, _, rfl⟩ := publish_some published
  rfl

theorem enroll_some {peer : Peer} {state : PeerAuthority} (enrolled : gate.enroll peer state = some after) :
    ∃ next, after = { gate with
      next := next, peers := gate.peers.insert peer ⟨gate.next, state⟩ } ∧
      next.toNat = gate.next.toNat + 1 := by
  simp only [enroll, bind_eq_some, require_eq_some, return_eq_some] at enrolled
  obtain ⟨_, _, ⟨number, allocated⟩, found, rfl⟩ := enrolled
  obtain ⟨rfl, next, rfl, grows⟩ := allocate_some found
  exact ⟨next, rfl, grows⟩

theorem ticket_some {text : String} {ticket : AuthorityTicket} (issued : gate.ticket text = some (ticket, after)) :
    fingerprint text = some ticket.peer ∧ after.Authorizes ticket.peer ∧ ((ticket.peer ∈ gate.peers ∧ after = gate) ∨
        ticket.peer ∉ gate.peers ∧ ∃ number, after.peers = gate.peers.insert ticket.peer ⟨number, .authorized⟩) := by
  simp only [Gate.ticket, bind_eq_some, require_eq_some, return_eq_some] at issued
  obtain ⟨peer, parsed, _, _, enrolled, source, generation, found, _, authorized, shape⟩ := issued
  cases shape
  refine ⟨parsed, ⟨generation, found, by simpa using authorized⟩, ?_⟩
  unfold Gate.enrolled at source
  split at source
  · rename_i known
    cases source
    exact .inl ⟨known, rfl⟩
  · rename_i unknown
    obtain ⟨next, rfl, _⟩ := enroll_some source
    exact .inr ⟨unknown, _, rfl⟩

theorem reserve_eq {ticket : AuthorityTicket} {transport : Transport}
    (reserved : gate.reserve ticket transport = some (id, after)) :
    gate.current ticket = true ∧ id = gate.next ∧ ∃ next, after = { gate with
      next := next, sessions := gate.sessions.insert gate.next ⟨ticket, transport, false, false⟩ } ∧
      next.toNat = gate.next.toNat + 1 := by
  simp only [reserve, bind_eq_some, require_eq_some, return_eq_some] at reserved
  obtain ⟨_, current, _, _, _, _, _, _, ⟨number, allocated⟩, found, shape⟩ := reserved
  obtain ⟨rfl, next, rfl, grows⟩ := allocate_some found
  cases shape
  exact ⟨current, rfl, next, rfl, grows⟩

theorem reserve_some {ticket : AuthorityTicket} {transport : Transport}
    (reserved : gate.reserve ticket transport = some (id, after)) :
    gate.current ticket = true ∧ after.peers = gate.peers := by
  obtain ⟨current, _, _, rfl, _⟩ := reserve_eq reserved
  exact ⟨current, rfl⟩

theorem current_authorizes {ticket : AuthorityTicket} (current : gate.current ticket = true) :
    gate.Authorizes ticket.peer := by
  simp only [Gate.current, Bool.and_eq_true, Option.any_eq_true, decide_eq_true_eq] at current
  obtain ⟨_, generation, found, _, authorized⟩ := current
  exact ⟨generation, found, authorized⟩

theorem denyPeer_some {text : String} (denied : gate.denyPeer text = some after) :
    ∃ peer, fingerprint text = some peer ∧ after.Denies peer ∧
      ∀ other, other ≠ peer → after.peers.lookup other = gate.peers.lookup other := by
  simp only [denyPeer, bind_eq_some, return_eq_some] at denied
  obtain ⟨peer, parsed, before, source, rfl⟩ := denied
  obtain ⟨generation, state, shape⟩ : ∃ generation : Generation, generation.state = .runtimeDeniedPendingDurability ∧
        before.peers = gate.peers.insert peer generation := by
    unfold Gate.denied at source
    split at source
    · obtain ⟨next, rfl, _⟩ := enroll_some source
      exact ⟨_, rfl, rfl⟩
    · cases source
      exact ⟨_, rfl, rfl⟩
  refine ⟨peer, parsed, ⟨generation, ?_, state⟩, fun other different => ?_⟩
  · rw [cancelSessions_peers, shape, AList.lookup_insert]
  · rw [cancelSessions_peers, shape, AList.lookup_insert_ne different]

theorem removed_some {text : String} (removed : gate.removed text = some after) :
    ∃ peer, fingerprint text = some peer ∧ after.peers = gate.peers.erase peer := by
  simp only [Gate.removed, bind_eq_some, require_eq_some, return_eq_some] at removed
  obtain ⟨peer, parsed, _, _, _, _, rfl⟩ := removed
  exact ⟨peer, parsed, rfl⟩

theorem enroll_locked {peer : Peer} {state : PeerAuthority}
    (enrolled : gate.enroll peer state = some after) : after.locked = gate.locked := by
  obtain ⟨_, rfl, _⟩ := enroll_some enrolled
  rfl

theorem ticket_enrolls {text : String} {ticket : AuthorityTicket} (issued : gate.ticket text = some (ticket, after)) :
    after = gate ∨ ∃ peer, peer ∉ gate.peers ∧ gate.enroll peer .authorized = some after := by
  simp only [Gate.ticket, bind_eq_some, return_eq_some, Prod.mk.injEq] at issued
  obtain ⟨peer, _, _, _, reached, enrolled, _, _, _, _, _, rfl⟩ := issued
  unfold Gate.enrolled at enrolled
  split at enrolled
  · cases enrolled
    exact .inl rfl
  · rename_i absent
    exact .inr ⟨peer, absent, enrolled⟩

theorem ticket_locked {text : String} {ticket : AuthorityTicket}
    (issued : gate.ticket text = some (ticket, after)) : after.locked = gate.locked := by
  rcases ticket_enrolls issued with rfl | ⟨peer, _, enrolled⟩
  · rfl
  · exact enroll_locked enrolled

theorem reserve_locked {ticket : AuthorityTicket} {transport : Transport}
    (reserved : gate.reserve ticket transport = some (id, after)) :
    after.locked = gate.locked := by
  obtain ⟨_, _, _, rfl, _⟩ := reserve_eq reserved
  rfl

theorem publish_locked (published : gate.publish id = some after) : after.locked = gate.locked := by
  obtain ⟨_, _, rfl⟩ := publish_some published
  rfl

theorem denyPeer_locked {text : String} (denied : gate.denyPeer text = some after) : after.locked = gate.locked := by
  simp only [denyPeer, bind_eq_some, return_eq_some] at denied
  obtain ⟨peer, _, reached, marked, rfl⟩ := denied
  change reached.locked = gate.locked
  unfold Gate.denied at marked
  split at marked
  · exact enroll_locked marked
  · cases marked
    rfl

theorem removed_locked {text : String} (removal : gate.removed text = some after) : after.locked = gate.locked := by
  simp only [removed, bind_eq_some, return_eq_some] at removal
  obtain ⟨_, _, _, _, _, _, rfl⟩ := removal
  rfl

end Gate

end Werewolf.Authority
