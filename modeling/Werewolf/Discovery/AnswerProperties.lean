import Werewolf.Control.Archive
import Werewolf.Discovery.ResolveSync
import Werewolf.Governance.ApplyProperties
import Werewolf.Governance.Commitment
import Werewolf.Transport.ResultProperties

/-! A node that asks a peer further along the same chain gets the statements that
come next, and it can apply them. The peer's archive, the check of the answer and
`apply` on the two nodes fit together because a hash stands for one state. -/

namespace Werewolf.Discovery
open Library Governance
open Control (governanceArchiveName readArchive recordsOf governanceRecords)
open Transport (chained acceptedGovernance RpcRequest)
open Authority (require require_eq_some)

section Chains

variable {crypto : Crypto} {presentations : List Presentation} {head : Head}
  {index : Nat} {statement : Statement} {before : Head}

structure AppliedAt (crypto : Crypto) (presentations : List Presentation) (head : Head)
    (index : Nat) (statement : Statement) (before : Head) : Prop where
  step : ∃ earlier pin later, presentations = earlier ++ (statement, pin) :: later ∧
    history crypto earlier = some before ∧
    ∃ next, apply crypto (some before) statement pin = .ok (.applied next)
  sequence : statement.core.sequence.toNat = index + 1
  previous : head.applied[index]? = some before.hash
  recorded : head.applied[index + 1]? = some (statement.core.hash crypto)

private theorem getElem?_of_prior {α : Type} {shorter longer : List α} {value : α}
    (prior : shorter <+: longer) (found : shorter[index]? = some value) :
    longer[index]? = some value := by
  obtain ⟨rest, rfl⟩ := prior
  rw [List.getElem?_append_left (List.getElem?_eq_some_iff.mp found).1]
  exact found

theorem applied_last (wellFormed : head.WellFormed crypto) : head.applied[head.sequence.toNat]? = some head.hash := by
  have last := wellFormed.appliedLast
  rwa [List.getLast?_eq_getElem?, wellFormed.appliedLength, Nat.add_sub_cancel] at last

theorem exists_appliedAt (reached : history crypto presentations = some head)
    (settled : index + 1 ≤ head.sequence.toNat) :
    ∃ statement before, AppliedAt crypto presentations head index statement before := by
  obtain ⟨earlier, statement, pin, later, before, keys, effect, rfl, known, rfl, advances⟩ :=
    history_advanced reached settled
  have accepted : apply crypto (history crypto earlier) statement pin =
      .ok (.applied (effect.advance crypto statement.core)) := by
    rw [known]
    exact advances.applyTo
  have after := history_snoc_applied accepted
  have recorded := applied_last (history_wellFormed after)
  simp only [Head.advance, advances.sequence] at recorded
  refine ⟨statement, before, ⟨earlier, pin, later, rfl, known, _, advances.applyTo⟩, advances.sequence, ?_, ?_⟩
  · exact getElem?_of_prior (history_follows known reached).applied (applied_last (history_wellFormed known))
  · rw [← List.singleton_append, ← List.append_assoc] at reached
    exact getElem?_of_prior (history_follows after reached).applied recorded

def Archives (crypto : Crypto) (den : Storage.Den) (presentations : List Presentation) : Prop :=
  ∀ earlier statement pin later next, presentations = earlier ++ (statement, pin) :: later →
    apply crypto (history crypto earlier) statement pin = .ok (.applied next) →
      den (governanceArchiveName statement.core.sequence) = some statement.encode

theorem AppliedAt.accepted (applied : AppliedAt crypto presentations head index statement before) :
    Accepted crypto statement := by
  obtain ⟨earlier, pin, _, _, reached, next, accepted⟩ := applied.step
  exact ⟨earlier, pin, next, by rw [reached]; exact accepted⟩

theorem AppliedAt.readArchive {den : Storage.Den} (archives : Archives crypto den presentations)
    (applied : AppliedAt crypto presentations head index statement before) :
    readArchive den (UInt64.ofNat (index + 1)) = some statement := by
  obtain ⟨earlier, pin, later, split, reached, next, accepted⟩ := applied.step
  have stored := archives earlier statement pin later next split (by rw [reached]; exact accepted)
  have short := applied.accepted.short
  have fits : ¬ maxStatementLen < statement.encode.length :=
    Nat.not_lt.mpr (short.length_le.trans (by decide))
  rw [← applied.sequence, UInt64.ofNat_toNat]
  simp only [Control.readArchive, Storage.read, stored, fits, ↓reduceIte, short.decode_encode, Except.toOption]

theorem AppliedAt.follows {cores : Set Core} (collisionFree : CollisionFreeOn crypto cores)
    {visited : List Presentation} {requester : Head}
    (applied : AppliedAt crypto presentations head index statement before)
    (responding : presentedCores presentations ⊆ cores) (asking : presentedCores visited ⊆ cores)
    (reached : history crypto visited = some requester) (unforked : requester.forked = false)
    (known : head.applied[index]? = some requester.hash) :
    statement.core.previous = requester.hash ∧ requester.sequence.toNat = index ∧
      ∃ next, apply crypto (some requester) statement none = .ok (.applied next) ∧
        next.forked = false ∧ next.hash = statement.core.hash crypto := by
  obtain ⟨earlier, pin, later, split, past, next, accepted⟩ := applied.step
  obtain ⟨keys, effect, advances, _⟩ := applyTo_applied accepted
  have included : presentedCores earlier ⊆ cores := by
    rintro core ⟨presentation, member, rfl⟩
    exact responding ⟨presentation, by simp [split, member], rfl⟩
  have hashes : requester.chain.hash = before.chain.hash :=
    Option.some.inj (known.symm.trans applied.previous)
  have same := ((history_derived reached).mono asking).eq_of_hash collisionFree
    ((history_derived past).mono included) hashes
  rw [chain_of_unforked unforked] at same
  subst same
  have sequence := advances.sequence
  have number := applied.sequence
  exact ⟨advances.previous, by simp only [Head.chain]; omega, _, advances.chain.applyTo,
    (advances.chain.extends (history_wellFormed reached)).forked, rfl⟩

end Chains

section Answers

variable {crypto : Crypto} {presentations : List Presentation} {head : Head}

theorem chained_first {previous : Hash} {sequence : UInt64} {records : List Statement}
    (linked : chained crypto previous (some sequence) records = some ()) :
    chained crypto previous none records = some () := by
  cases records with
  | nil => rfl
  | cons statement rest =>
    simp only [chained, bind_eq_some, require_eq_some] at linked ⊢
    obtain ⟨_, previous, _, _, _, _, rest⟩ := linked
    exact ⟨(), previous, rest⟩

structure Leads (crypto : Crypto) (cores : Set Core) (start : Head) (records : List Statement)
    (final : Head) : Prop where
  accepted : ∀ record ∈ records, Accepted crypto record
  linked : chained crypto start.hash (some start.sequence) records = some ()
  applied : applyAll crypto start records = some final
  unforked : final.forked = false
  reached : ∃ visited, history crypto visited = some final ∧ presentedCores visited ⊆ cores

theorem Leads.cons {cores : Set Core} {start next final : Head} {statement : Statement} {records : List Statement}
    (acceptable : Accepted crypto statement) (previous : statement.core.previous = start.hash)
    (sequence : statement.core.sequence.toNat = start.sequence.toNat + 1)
    (accepted : apply crypto (some start) statement none = .ok (.applied next))
    (leads : Leads crypto cores next records final) :
    Leads crypto cores start (statement :: records) final := by
  obtain ⟨_, _, _, rfl⟩ := applyTo_applied accepted
  refine ⟨?_, ?_, ?_, leads.unforked, leads.reached⟩
  · intro record member
    cases member with
    | head => exact acceptable
    | tail _ rest => exact leads.accepted record rest
  · have bound : start.sequence.toNat + 1 < 2 ^ 64 :=
      sequence ▸ statement.core.sequence.toNat_lt
    have number : statement.core.sequence = start.sequence + 1 := by
      rw [← UInt64.toNat_inj, sequence, UInt64.toNat_add]
      exact (Nat.mod_eq_of_lt bound).symm
    simp only [chained, bind_eq_some, require_eq_some, decide_eq_true_eq]
    exact ⟨(), previous, (), bound, (), number, leads.linked⟩
  · have step := successor_eq_some_iff.mpr accepted
    rw [applyAll, List.foldlM_cons, step]
    exact leads.applied

theorem recordsOf_leads {den : Storage.Den} {cores : Set Core} (collisionFree : CollisionFreeOn crypto cores)
    (holds : history crypto presentations = some head) (archives : Archives crypto den presentations)
    (responding : presentedCores presentations ⊆ cores) (count : Nat) :
    ∀ {position : Nat} {requester : Head} {visited : List Presentation},
      history crypto visited = some requester → presentedCores visited ⊆ cores →
      requester.forked = false → head.applied[position]? = some requester.hash →
      position + count ≤ head.sequence.toNat →
      ∃ final, Leads crypto cores requester (recordsOf crypto den head (List.range' (position + 1) count)) final ∧
        (recordsOf crypto den head (List.range' (position + 1) count)).length = count ∧
        head.applied[position + count]? = some final.hash := by
  induction count with
  | zero =>
    intro position requester visited reached asking unforked known _
    exact ⟨requester, ⟨fun _ member => (nomatch member), rfl, rfl, unforked, visited, reached, asking⟩, rfl, known⟩
  | succ count ih =>
    intro position requester visited reached asking unforked known within
    obtain ⟨statement, before, applied⟩ :=
      exists_appliedAt holds (show position + 1 ≤ head.sequence.toNat by omega)
    obtain ⟨previous, number, next, accepted, nextUnforked, nextHash⟩ :=
      applied.follows collisionFree responding asking reached unforked known
    have member : statement.core ∈ cores := by
      obtain ⟨earlier, pin, later, split, _⟩ := applied.step
      exact responding ⟨(statement, pin), by simp [split], rfl⟩
    have nextReached : history crypto (visited ++ [(statement, none)]) = some next :=
      history_snoc_applied (by rw [reached]; exact accepted)
    have nextAsking : presentedCores (visited ++ [(statement, none)]) ⊆ cores := by
      rintro core ⟨presentation, listed, rfl⟩
      rcases List.mem_append.mp listed with old | new
      · exact asking ⟨presentation, old, rfl⟩
      · cases List.mem_singleton.mp new
        exact member
    obtain ⟨final, leads, length, ends⟩ := ih nextReached nextAsking nextUnforked
      (nextHash ▸ applied.recorded) (by omega)
    have records : recordsOf crypto den head (List.range' (position + 1) (count + 1)) =
        statement :: recordsOf crypto den head (List.range' (position + 1 + 1) count) := by
      rw [List.range'_succ]
      simp only [recordsOf, applied.readArchive archives, applied.recorded, ↓reduceIte]
    rw [records]
    refine ⟨final, leads.cons applied.accepted previous (by rw [applied.sequence, number])
      accepted, by rw [List.length_cons, length], ?_⟩
    rwa [show position + (count + 1) = position + 1 + count by omega]

theorem parse_governance {op target : String} {count : UInt8} {hash : Hash} {k : UInt8}
    (parsed : RpcRequest.parse op target count = some (.governance hash k)) :
    k ≤ Transport.maxGovernanceK := by
  unfold RpcRequest.parse at parsed
  split_ifs at parsed <;>
    simp only [bind_eq_some, require_eq_some, return_eq_some, reduceCtorEq, and_false,
      exists_false, Bool.and_eq_true, decide_eq_true_eq, RpcRequest.governance.injEq] at parsed
  obtain ⟨_, bounds, _, _, _, rfl⟩ := parsed
  exact bounds.2

theorem governanceRecords_leads {den : Storage.Den} {responder requester : Head}
    {responding requesting : List Presentation} (holds : history crypto responding = some responder)
    (archives : Archives crypto den responding) (asks : history crypto requesting = some requester)
    (unforked : requester.forked = false)
    (collisionFree : CollisionFreeOn crypto (presentedCores responding ∪ presentedCores requesting))
    (known : requester.hash ∈ responder.applied) (k : UInt8) :
    ∃ final, Leads crypto (presentedCores responding ∪ presentedCores requesting) requester
        (governanceRecords crypto den (some responder) requester.hash k) final ∧
      (governanceRecords crypto den (some responder) requester.hash k).length ≤ k.toNat ∧
      ((governanceRecords crypto den (some responder) requester.hash k).length < k.toNat →
        final = responder.chain) := by
  have wellFormed := history_wellFormed holds
  obtain ⟨position, found⟩ : ∃ position, responder.applied.findIdx? (· = requester.hash) = some position := by
    rw [← Option.isSome_iff_exists, List.findIdx?_isSome, List.any_eq_true]
    exact ⟨_, known, by simp⟩
  obtain ⟨below, here, _⟩ := List.findIdx?_eq_some_iff_getElem.mp found
  have settled : responder.applied[position]? = some requester.hash := by
    rw [List.getElem?_eq_getElem below, of_decide_eq_true here]
  have length := wellFormed.appliedLength
  have answer : governanceRecords crypto den (some responder) requester.hash k =
      recordsOf crypto den responder (List.range' (position + 1)
        (min k.toNat (responder.sequence.toNat - position))) := by
    simp only [governanceRecords, found]
    exact congrArg _ (List.ext_getElem (by simp) (by simp))
  obtain ⟨final, leads, count, ends⟩ := recordsOf_leads collisionFree holds archives
    Set.subset_union_left (min k.toNat (responder.sequence.toNat - position)) asks
    Set.subset_union_right unforked settled (by omega)
  rw [answer]
  refine ⟨final, leads, by omega, fun shorter => ?_⟩
  -- Fewer than `k` records were there, so the last of them is the responder's own.
  rw [show position + min k.toNat (responder.sequence.toNat - position) = responder.sequence.toNat by omega] at ends
  obtain ⟨visited, reached, included⟩ := leads.reached
  have same := ((history_derived reached).mono included).eq_of_hash collisionFree
    ((history_derived holds).mono Set.subset_union_left)
    (Option.some.inj (ends.symm.trans (applied_last wellFormed)))
  rwa [chain_of_unforked leads.unforked] at same

/-- The answer of a peer further along the chain fits its line, passes the check
of the node that asked, and brings that node forward; if it has less than was
asked for, it brings the node to the peer's own head. -/
theorem governance_answer_advances (signer : Transport.Signer)
    (standard : Base64.Standard signer.base64Encode signer.base64Decode) {den : Storage.Den}
    {responder requester : Head} {responding requesting : List Presentation}
    (holds : history signer.toCrypto responding = some responder) (archives : Archives signer.toCrypto den responding)
    (asks : history signer.toCrypto requesting = some requester) (unforked : requester.forked = false)
    (collisionFree : CollisionFreeOn signer.toCrypto (presentedCores responding ∪ presentedCores requesting))
    (known : requester.hash ∈ responder.applied) {op target : String} {count k : UInt8}
    (request : RpcRequest.parse op target count = some (.governance requester.hash k)) :
    let records := governanceRecords signer.toCrypto den (some responder) requester.hash k
    let raw := records.map Statement.encode
    (∀ (rpc : Transport.QuicRpc) (binding : ByteArr 32) retained receiver result,
      rpc.transcript binding = some retained →
        Transport.QuicRpcResult.new signer rpc retained receiver raw = some result →
          ∃ line, Transport.resultLine Transport.quicRpcResultCodec result = some line) ∧
    (∀ (rpc : Transport.TcpRpc) retained receiver result, rpc.transcript signer.toExternal = some retained →
        Transport.TcpRpcResult.new signer rpc retained receiver raw = some result →
          ∃ line, Transport.resultLine Transport.tcpRpcResultCodec result = some line) ∧
    Transport.recordBytes signer.toExternal (raw.map signer.base64Encode)
      (RpcRequest.governance requester.hash k).maxRecords = some raw ∧
    acceptedGovernance signer.toCrypto raw (.governance requester.hash k) = some records ∧
    ∃ final, applyAll signer.toCrypto requester records = some final ∧
      (records.length < k.toNat → final = responder.chain) := by
  intro records raw
  obtain ⟨final, leads, few, ends⟩ :=
    governanceRecords_leads holds archives asks unforked collisionFree known k
  have counted : raw.length ≤ k.toNat := by rw [List.length_map]; exact few
  have bounded : raw.length ≤ Transport.maxGovernanceK.toNat :=
    counted.trans (UInt8.le_iff_toNat_le.mp (parse_governance request))
  have short : ∀ record ∈ raw, record.length ≤ maxAcceptedStatement := by
    intro record member
    obtain ⟨statement, listed, rfl⟩ := List.mem_map.mp member
    exact (leads.accepted statement listed).short.length_le
  refine ⟨fun rpc binding retained receiver result asked built => ?_,
    fun rpc retained receiver result asked built => ?_, Transport.recordBytes_encode standard counted, ?_,
    final, leads.applied, ends⟩
  · exact Transport.QuicRpcResult.line_fits standard asked built
      (Transport.length_statements_le standard bounded short)
  · exact Transport.TcpRpcResult.line_fits standard asked built
      (Transport.length_statements_le standard bounded short)
  · have linked := chained_first leads.linked
    have decoded : raw.mapM (fun bytes => (Statement.decode bytes).toOption) = some records :=
      mapM_map_some (fun record member => by
        rw [(leads.accepted record member).short.decode_encode]
        rfl)
    simp only [acceptedGovernance, decoded, records, linked, Option.bind_eq_bind, Option.bind_some, Option.pure_def]

end Answers

def Sample.rotatedDen : Storage.Den := fun name =>
  if name = "governance_00000000.wwgov" then
    some (Governance.Sample.signedWith 0 Governance.Sample.genesis).encode
  else if name = "governance_00000001.wwgov" then
    some (Governance.Sample.signedWith 0 Governance.Sample.rotation).encode
  else none

def Sample.signer : Transport.Signer where
  toCrypto := Governance.Sample.crypto
  base64Decode := Base64.decode
  base64Encode := Base64.encode
  isSocketAddr _ := false
  sign key _ := ⟨key.1 ++ List.replicate 32 1, by simp [key.2]⟩

theorem Sample.rotatedDen_archives :
    Archives Governance.Sample.crypto Sample.rotatedDen Governance.Sample.rotatedRun := by
  intro earlier statement pin later next split _
  have member : (statement, pin) ∈ Governance.Sample.rotatedRun := by simp [split]
  simp only [Governance.Sample.rotatedRun, Governance.Sample.started, List.cons_append,
    List.nil_append, List.mem_cons, Prod.mk.injEq, List.not_mem_nil, or_false] at member
  rcases member with ⟨rfl, _⟩ | ⟨rfl, _⟩
  · decide +kernel
  · decide +kernel

/-- A node that knows the genesis catches up with one that knows the rotation. -/
theorem rotation_answer_advances :
    ∃ started rotated, history Governance.Sample.crypto Governance.Sample.started = some started ∧
      history Governance.Sample.crypto Governance.Sample.rotatedRun = some rotated ∧
      applyAll Governance.Sample.crypto started
        [Governance.Sample.signedWith 0 Governance.Sample.rotation] = some rotated := by
  have startedReached : history Sample.signer.toCrypto Governance.Sample.started =
      some ((history Governance.Sample.crypto Governance.Sample.started).get
        (by decide +kernel)) := by simp [Sample.signer]
  have rotatedReached : history Sample.signer.toCrypto Governance.Sample.rotatedRun =
      some ((history Governance.Sample.crypto Governance.Sample.rotatedRun).get
        (by decide +kernel)) := by simp [Sample.signer]
  have requested : RpcRequest.parse "governance"
      (hex (Governance.Sample.genesis.hash Governance.Sample.crypto).val) 4 =
      some (.governance ((history Governance.Sample.crypto Governance.Sample.started).get
        (by decide +kernel)).hash 4) := by decide +kernel
  have collisionFree : CollisionFreeOn Sample.signer.toCrypto (presentedCores Governance.Sample.rotatedRun ∪
        presentedCores Governance.Sample.started) := by
    have distinct : ([Governance.Sample.genesis, Governance.Sample.rotation].map
        (Core.hash Sample.signer.toCrypto)).Nodup := by decide +kernel
    refine collisionFreeOn_of_nodup distinct ?_
    rintro core (⟨presentation, member, rfl⟩ | ⟨presentation, member, rfl⟩) <;>
      simp only [Governance.Sample.rotatedRun, Governance.Sample.started, List.cons_append,
        List.nil_append, List.mem_cons, List.not_mem_nil, or_false] at member
    · rcases member with rfl | rfl <;> simp [Governance.Sample.signedWith]
    · rw [member]
      exact List.mem_cons_self
  obtain ⟨_, _, _, _, final, applied, ends⟩ := governance_answer_advances Sample.signer
    Base64.standard rotatedReached Sample.rotatedDen_archives startedReached (by decide +kernel)
    collisionFree (by decide +kernel) requested
  have records : governanceRecords Sample.signer.toCrypto Sample.rotatedDen
      (some ((history Governance.Sample.crypto Governance.Sample.rotatedRun).get (by decide +kernel)))
      ((history Governance.Sample.crypto Governance.Sample.started).get (by decide +kernel)).hash
      4 = [Governance.Sample.signedWith 0 Governance.Sample.rotation] := by decide +kernel
  rw [records] at applied ends
  rw [ends (by decide)] at applied
  exact ⟨_, _, startedReached, rotatedReached, applied.trans (congrArg some (chain_of_unforked (by decide +kernel)))⟩

end Werewolf.Discovery
