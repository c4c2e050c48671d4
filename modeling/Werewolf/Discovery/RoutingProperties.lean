import Werewolf.Discovery.CacheProperties
import Werewolf.Discovery.Routing

/-! What holds in every routing table that is built by adding and removing peers,
and that the peer store keeps all of it. -/

namespace Werewolf.Discovery.Routing
open Library

def bitAt (bytes : List UInt8) (index : Nat) : Bool :=
  (bytes[index / 8]?.getD 0).toNat.testBit (7 - index % 8)

def LeadingDifference (id other : NodeId) (index : Nat) : Prop :=
  bitAt id.val index ≠ bitAt other.val index ∧ ∀ earlier < index, bitAt id.val earlier = bitAt other.val earlier

theorem leadingZeros_bits (byte : UInt8) (nonzero : byte ≠ 0) : byte.toNat.testBit (7 - leadingZeros byte) = true ∧
      ∀ earlier < leadingZeros byte, byte.toNat.testBit (7 - earlier) = false := by
  have positive : byte.toNat ≠ 0 := fun zero => nonzero (UInt8.toNat_inj.mp zero)
  have below : byte.toNat.log2 < 8 := (Nat.log2_lt positive).mpr byte.toNat_lt
  rw [leadingZeros, if_neg nonzero]
  constructor
  · rw [show 7 - (7 - byte.toNat.log2) = byte.toNat.log2 by omega]
    exact Nat.testBit_log2 positive
  · intro earlier before
    exact Nat.testBit_lt_two_pow ((Nat.log2_lt positive).mp (by omega))

theorem bitAt_cons_add (byte : UInt8) (rest : List UInt8) (index : Nat) :
    bitAt (byte :: rest) (8 + index) = bitAt rest index := by
  rw [bitAt, bitAt, show (8 + index) / 8 = index / 8 + 1 by omega,
    show (8 + index) % 8 = index % 8 by omega, List.getElem?_cons_succ]

theorem bitAt_cons_of_lt (byte : UInt8) (rest : List UInt8) {index : Nat} (first : index < 8) :
    bitAt (byte :: rest) index = byte.toNat.testBit (7 - index) := by
  rw [bitAt, Nat.div_eq_of_lt first, Nat.mod_eq_of_lt first, List.getElem?_cons_zero, Option.getD_some]

theorem bucketIndexFrom_bits (bytes : List UInt8) (position : Nat) (nonzero : ∃ byte ∈ bytes, byte ≠ 0) :
    ∃ index, bucketIndexFrom position bytes = position * 8 + index ∧ bitAt bytes index = true ∧
      ∀ earlier < index, bitAt bytes earlier = false := by
  induction bytes generalizing position with
  | nil => simp at nonzero
  | cons byte rest ih =>
    by_cases zero : byte = 0
    · subst zero
      obtain ⟨index, found, set, clear⟩ := ih (position + 1) (by simpa using nonzero)
      refine ⟨8 + index, ?_, (bitAt_cons_add 0 rest index).trans set, ?_⟩
      · rw [bucketIndexFrom, if_neg (not_not_intro rfl), found]
        omega
      · intro earlier before
        rcases Nat.lt_or_ge earlier 8 with first | later
        · rw [bitAt_cons_of_lt 0 rest first, UInt8.toNat_zero, Nat.zero_testBit]
        · obtain ⟨rest', rfl⟩ := Nat.exists_eq_add_of_le later
          rw [bitAt_cons_add]
          exact clear rest' (by omega)
    · have small := leadingZeros_lt zero
      obtain ⟨set, clear⟩ := leadingZeros_bits byte zero
      refine ⟨leadingZeros byte, if_pos zero, ?_, fun earlier before => ?_⟩
      · rw [bitAt_cons_of_lt byte rest small, set]
      · rw [bitAt_cons_of_lt byte rest (before.trans small), clear earlier before]

theorem bitAt_xorDistance (id other : NodeId) (index : Nat) :
    bitAt (id.xorDistance other).val index = (bitAt id.val index ^^ bitAt other.val index) := by
  simp only [bitAt, NodeId.xorDistance, List.getElem?_zipWith]
  by_cases inside : index / 8 < 32
  · rw [List.getElem?_eq_getElem (by omega), List.getElem?_eq_getElem (by omega)]
    simp
  · rw [List.getElem?_eq_none (by omega), List.getElem?_eq_none (by omega)]
    simp

theorem bucketIndex_leading {id other : NodeId} (differ : other ≠ id) :
    LeadingDifference id other (bucketIndex id other) := by
  have nonzero : ∃ byte ∈ (id.xorDistance other).val, byte ≠ 0 := by
    by_contra! zero
    refine differ (Subtype.ext (List.ext_getElem (other.2.trans id.2.symm) ?_))
    intro index inOther inId
    have inside : index < (id.xorDistance other).val.length := by
      rwa [(id.xorDistance other).2, ← id.2]
    have same := zero _ (List.getElem_mem inside)
    exact (UInt8.xor_eq_zero_iff.mp (List.getElem_zipWith.symm.trans same)).symm
  obtain ⟨index, found, set, clear⟩ := bucketIndexFrom_bits _ 0 nonzero
  have reached : (bucketIndex id other).val = index := found.trans (by omega)
  rw [bitAt_xorDistance] at set
  rw [LeadingDifference, reached]
  refine ⟨by simpa using set, fun earlier before => ?_⟩
  have same := clear earlier before
  rw [bitAt_xorDistance] at same
  simpa using same

variable {δ : Type}

structure KBucket.Sound (localId : NodeId) (index : Fin 256) (bucket : KBucket δ) : Prop where
  bounded : bucket.length ≤ bucketSize
  distinct : (bucket.map Peer.id).Nodup
  placed : ∀ peer ∈ bucket, peer.id ≠ localId ∧ bucketIndex localId peer.id = index

namespace KBucket

variable {localId : NodeId} {index : Fin 256} {bucket : KBucket δ} {peer : Peer δ}

theorem contains_iff {id : NodeId} : bucket.contains id = true ↔ id ∈ bucket.map Peer.id := by
  simp [contains]

theorem not_mem_erase (distinct : (bucket.map Peer.id).Nodup) (id : NodeId) : id ∉ (bucket.erase id).map Peer.id := by
  induction bucket with
  | nil => simp [erase]
  | cons first rest ih =>
    obtain ⟨fresh, later⟩ := List.nodup_cons.mp distinct
    rw [erase, List.eraseP_cons]
    by_cases same : first.id = id
    · rwa [decide_eq_true same, cond_true, ← same]
    · rw [decide_eq_false same, cond_false, List.map_cons, List.mem_cons, not_or]
      exact ⟨Ne.symm same, ih later⟩

theorem Sound.erase (sound : bucket.Sound localId index) (id : NodeId) : (bucket.erase id).Sound localId index where
  bounded := List.eraseP_sublist.length_le.trans sound.bounded
  distinct := sound.distinct.sublist (List.eraseP_sublist.map Peer.id)
  placed known member := sound.placed known (List.eraseP_sublist.mem member)

theorem Sound.push (sound : bucket.Sound localId (bucketIndex localId peer.id)) (foreign : peer.id ≠ localId)
    (room : bucket.length < bucketSize) (fresh : peer.id ∉ bucket.map Peer.id) :
    Sound localId (bucketIndex localId peer.id) (bucket ++ [peer]) where
  bounded := by
    rw [List.length_append]
    exact room
  distinct := by
    rw [List.map_append]
    refine List.nodup_append.mpr ⟨sound.distinct, List.nodup_singleton _, ?_⟩
    rintro id known other added rfl
    exact fresh (List.mem_singleton.mp added ▸ known)
  placed known member := by
    rcases List.mem_append.mp member with before | added
    · exact sound.placed known before
    · rw [List.mem_singleton.mp added]
      exact ⟨foreign, rfl⟩

theorem Sound.insert (sound : bucket.Sound localId (bucketIndex localId peer.id)) (foreign : peer.id ≠ localId) :
    (bucket.insert peer).1.Sound localId (bucketIndex localId peer.id) := by
  rw [KBucket.insert]
  split_ifs with known full
  · obtain ⟨old, member, same⟩ := List.mem_map.mp (contains_iff.mp known)
    refine (sound.erase peer.id).push foreign ?_ (not_mem_erase sound.distinct peer.id)
    have shorter : (bucket.erase peer.id).length = bucket.length - 1 :=
      List.length_eraseP_of_mem member (decide_eq_true same)
    have := List.length_pos_of_mem member
    have := sound.bounded
    omega
  · exact sound
  · exact sound.push foreign (Nat.lt_of_not_le full) (fun member => known (contains_iff.mpr member))

theorem insert_fresh (fresh : peer.id ∉ bucket.map Peer.id) (room : bucket.length < bucketSize) :
    (bucket.insert peer).1 = bucket ++ [peer] := by
  rw [KBucket.insert, if_neg (fun known => fresh (contains_iff.mp known)), dif_neg (Nat.not_le_of_lt room)]

theorem mem_insert {known : Peer δ} (member : known ∈ bucket) (other : known.id ≠ peer.id) :
    known ∈ (bucket.insert peer).1 := by
  rw [KBucket.insert]
  split_ifs with present full
  · exact List.mem_append_left _ ((List.mem_eraseP_of_neg (by simpa using other)).mpr member)
  · exact member
  · exact List.mem_append_left _ member

end KBucket

namespace RoutingTable

structure Lawful (table : RoutingTable δ) : Prop where
  bounded : ∀ index, (table.buckets index).length ≤ 20
  distinct : (table.allPeers.map Peer.id).Nodup
  foreign : table.localId ∉ table.allPeers.map Peer.id
  leading : ∀ index, ∀ peer ∈ table.buckets index, LeadingDifference table.localId peer.id index

def Sound (table : RoutingTable δ) : Prop :=
  ∀ index, (table.buckets index).Sound table.localId index

variable {table : RoutingTable δ}

theorem mem_allPeers {peer : Peer δ} : peer ∈ table.allPeers ↔ ∃ index, peer ∈ table.buckets index := by
  simp [allPeers]

@[simp] theorem withBucket_buckets (index other : Fin 256) (bucket : KBucket δ) :
    (table.withBucket index bucket).buckets other =
      if other = index then bucket else table.buckets other :=
  Function.update_apply table.buckets index bucket other

theorem Sound.withBucket (sound : table.Sound) {index : Fin 256} {bucket : KBucket δ}
    (inside : bucket.Sound table.localId index) : (table.withBucket index bucket).Sound := by
  intro other
  rw [withBucket_buckets]
  split
  · next same => exact same ▸ inside
  · exact sound other

theorem Sound.after (sound : table.Sound) (call : TableCall δ) : (table.after call).Sound := by
  cases call with
  | addPeer peer =>
    rw [RoutingTable.after, addPeer]
    split_ifs with own
    · exact sound
    · exact sound.withBucket ((sound _).insert own)
  | removePeer id =>
    rw [RoutingTable.after, removePeer]
    split_ifs with own
    · exact sound
    · exact sound.withBucket ((sound _).erase id)

theorem after_localId (call : TableCall δ) : (table.after call).localId = table.localId := by
  cases call <;> simp only [after, addPeer, removePeer] <;> split <;> rfl

theorem run_sound (localId : NodeId) (calls : List (TableCall δ)) :
    (run after (new localId) calls).Sound ∧ (run after (new localId) calls).localId = localId := by
  refine run_invariant (fun table : RoutingTable δ => table.Sound ∧ table.localId = localId)
    (fun table call held => ⟨held.1.after call, (after_localId call).trans held.2⟩) ⟨?_, rfl⟩ calls
  exact fun index => ⟨Nat.zero_le _, List.nodup_nil, by simp [new]⟩

theorem Sound.distinct (sound : table.Sound) : (table.allPeers.map Peer.id).Nodup := by
  rw [allPeers, List.map_flatMap, List.nodup_flatMap]
  refine ⟨fun index _ => (sound index).distinct, (List.nodup_finRange 256).imp ?_⟩
  intro left right apart id inLeft inRight
  obtain ⟨peer, member, rfl⟩ := List.mem_map.mp inLeft
  obtain ⟨other, otherMember, same⟩ := List.mem_map.mp inRight
  refine apart (((sound left).placed peer member).2.symm.trans ?_)
  rw [← same]
  exact ((sound right).placed other otherMember).2

theorem Sound.lawful (sound : table.Sound) : table.Lawful where
  bounded index := (sound index).bounded
  distinct := sound.distinct
  foreign member := by
    obtain ⟨peer, present, own⟩ := List.mem_map.mp member
    obtain ⟨index, stored⟩ := mem_allPeers.mp present
    exact ((sound index).placed peer stored).1 own
  leading index peer member := by
    obtain ⟨foreign, rfl⟩ := (sound index).placed peer member
    exact bucketIndex_leading foreign

theorem mem_addPeer {index : Fin 256} {peer newcomer : Peer δ} (member : peer ∈ table.buckets index)
    (other : peer.id ≠ newcomer.id) : peer ∈ (table.addPeer newcomer).1.buckets index := by
  rw [addPeer]
  split_ifs with own
  · exact member
  · rw [withBucket_buckets]
    split
    · next same => exact KBucket.mem_insert (same ▸ member) other
    · exact member

theorem nearest_strict (distinct : (table.allPeers.map Peer.id).Nodup) (target : NodeId) :
    (sortOn (fun peer => target.xorDistance peer.id) table.allPeers).Pairwise
      (fun near far => target.xorDistance near.id < target.xorDistance far.id) := by
  refine sortOn_strict ?_
  have apart := distinct.map (NodeId.xorDistance_injective target)
  rwa [List.map_map] at apart

theorem lt_of_not_mem_nearest (distinct : (table.allPeers.map Peer.id).Nodup) {target : NodeId}
    {limit : Nat} {peer near : Peer δ} (member : peer ∈ table.allPeers)
    (left : peer ∉ table.nearest target limit) (found : near ∈ table.nearest target limit) :
    target.xorDistance near.id < target.xorDistance peer.id := by
  have listed := (sortOn_perm (fun peer => target.xorDistance peer.id) table.allPeers).mem_iff.mpr member
  exact (take_of_sorted (nearest_strict distinct target) listed left).2 near found

/-- A table built by any calls is lawful, an added peer never puts another one out, and
`nearest` finds the closest peers, in strictly increasing distance. -/
theorem table_lawful_and_nearest (localId : NodeId) (calls : List (TableCall δ)) :
    let table := run after (new localId) calls
    table.localId = localId ∧ table.Lawful ∧ (∀ newcomer index, ∀ peer ∈ table.buckets index, peer.id ≠ newcomer.id →
        peer ∈ (table.addPeer newcomer).1.buckets index) ∧
      ∀ target limit, (table.nearest target limit).length = min limit table.allPeers.length ∧
        (table.nearest target limit).Pairwise (fun near far =>
          target.xorDistance near.id < target.xorDistance far.id) ∧
        (∀ peer ∈ table.nearest target limit, peer ∈ table.allPeers) ∧
        ∀ peer ∈ table.allPeers, peer ∉ table.nearest target limit → ∀ near ∈ table.nearest target limit,
            target.xorDistance near.id < target.xorDistance peer.id := by
  intro table
  obtain ⟨sound, kept⟩ := run_sound localId calls
  refine ⟨kept, sound.lawful, ?_, ?_⟩
  · intro newcomer index peer member other
    exact mem_addPeer member other
  · intro target limit
    have permuted := sortOn_perm (fun peer => target.xorDistance peer.id) table.allPeers
    refine ⟨?_, (nearest_strict sound.distinct target).sublist (List.take_sublist limit _), ?_, ?_⟩
    · rw [nearest, List.length_take, permuted.length_eq]
    · intro peer found
      exact permuted.mem_iff.mp (List.mem_of_mem_take found)
    · intro peer member left near found
      exact lt_of_not_mem_nearest sound.distinct member left found

theorem Sound.filter_allPeers (sound : table.Sound) (index : Fin 256) :
    table.allPeers.filter (fun peer => bucketIndex table.localId peer.id = index) = table.buckets index := by
  obtain ⟨before, after, split⟩ := List.append_of_mem (List.mem_finRange index)
  have distinct := List.nodup_finRange 256
  have elsewhere : ∀ indices : List (Fin 256), index ∉ indices → (indices.flatMap table.buckets).filter
        (fun peer => bucketIndex table.localId peer.id = index) = [] := by
    intro indices absent
    refine List.filter_eq_nil_iff.mpr fun peer member same => ?_
    obtain ⟨other, listed, stored⟩ := List.mem_flatMap.mp member
    rw [((sound other).placed peer stored).2] at same
    exact absent (of_decide_eq_true same ▸ listed)
  have here : (table.buckets index).filter
      (fun peer => bucketIndex table.localId peer.id = index) = table.buckets index :=
    List.filter_eq_self.mpr fun peer stored => decide_eq_true ((sound index).placed peer stored).2
  rw [split, List.nodup_append] at distinct
  obtain ⟨_, later, apart⟩ := distinct
  rw [allPeers, split, List.flatMap_append, List.flatMap_cons, List.filter_append,
    List.filter_append, here, elsewhere before (fun member =>
      apart index member index List.mem_cons_self rfl),
    elsewhere after (List.nodup_cons.mp later).1, List.nil_append, List.append_nil]

theorem addPeer_fresh {peer : Peer δ} (foreign : peer.id ≠ table.localId)
    (fresh : peer.id ∉ (table.buckets (bucketIndex table.localId peer.id)).map Peer.id)
    (room : (table.buckets (bucketIndex table.localId peer.id)).length < bucketSize) :
    (table.addPeer peer).1 = table.withBucket (bucketIndex table.localId peer.id)
      (table.buckets (bucketIndex table.localId peer.id) ++ [peer]) := by
  rw [addPeer, if_neg foreign]
  exact congrArg (table.withBucket _) (KBucket.insert_fresh fresh room)

theorem intoRoutingTable_eq {localId : NodeId} {peers : List (Peer δ)}
    (distinct : (peers.map Peer.id).Nodup) (foreign : localId ∉ peers.map Peer.id)
    (few : ∀ index, (peers.filter (fun peer => bucketIndex localId peer.id = index)).length ≤ bucketSize) :
    PeerStore.intoRoutingTable ⟨localId, peers⟩ =
      ⟨localId, fun index => peers.filter (fun peer => bucketIndex localId peer.id = index)⟩ := by
  induction peers using List.reverseRecOn with
  | nil => rfl
  | append_singleton earlier peer ih =>
    rw [List.map_append] at distinct foreign
    obtain ⟨before, _, apart⟩ := List.nodup_append.mp distinct
    have stored := ih before (fun member => foreign (List.mem_append_left _ member))
      (fun index => le_trans (by simp [List.filter_append]) (few index))
    have room := few (bucketIndex localId peer.id)
    rw [List.filter_append, List.filter_singleton, decide_eq_true rfl, List.length_append] at room
    rw [PeerStore.intoRoutingTable] at stored ⊢
    rw [List.foldl_append, stored, List.foldl_cons, List.foldl_nil, addPeer_fresh]
    · refine congrArg (RoutingTable.mk localId) (funext fun index => ?_)
      rw [Function.update_apply, List.filter_append, List.filter_singleton]
      by_cases here : index = bucketIndex localId peer.id
      · simp [here]
      · simp [here, Ne.symm here]
    · exact fun own => foreign (by simp [own])
    · intro known
      obtain ⟨old, member, same⟩ := List.mem_map.mp known
      exact apart _ (List.mem_map_of_mem (List.mem_of_mem_filter member)) _ List.mem_cons_self same
    · exact room

theorem Sound.rebuild (sound : table.Sound) : (PeerStore.fromRoutingTable table).intoRoutingTable = table := by
  refine (intoRoutingTable_eq sound.distinct sound.lawful.foreign ?_).trans ?_
  · intro index
    rw [sound.filter_allPeers]
    exact (sound index).bounded
  · simp only [sound.filter_allPeers]

/-- A table built by any calls comes back from its store as it was, and whatever stands
in a store, the table read from it is lawful and comes back from its own store. -/
theorem store_rebuilds_table (localId : NodeId) (calls : List (TableCall δ)) (store : PeerStore δ) :
    (PeerStore.fromRoutingTable (run after (new localId) calls)).intoRoutingTable = run after (new localId) calls ∧
      store.intoRoutingTable.localId = store.localId ∧ store.intoRoutingTable.Lawful ∧
      (PeerStore.fromRoutingTable store.intoRoutingTable).intoRoutingTable = store.intoRoutingTable := by
  have added : store.intoRoutingTable = run after (new store.localId) (store.peers.map TableCall.addPeer) := by
    rw [run, List.foldl_map]
    rfl
  obtain ⟨sound, kept⟩ := run_sound store.localId (store.peers.map TableCall.addPeer)
  rw [← added] at sound kept
  exact ⟨(run_sound localId calls).1.rebuild, kept, sound.lawful, sound.rebuild⟩

end RoutingTable

end Werewolf.Discovery.Routing
