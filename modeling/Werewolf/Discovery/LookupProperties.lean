import Werewolf.Discovery.CacheProperties
import Werewolf.Discovery.Lookup

/-! Whatever the nodes that are asked answer, a lookup stays within its bounds, asks
no key twice, and dials nobody past a route of the Pack. -/

namespace Werewolf.Discovery
open Library Governance State Policy Transport

section Seeds

variable {contacting : Contacting} {routes : List Control.Route} {peers : List PeerRecord}
  {peer : PeerRecord} {seed : Seed}

theorem key_of_binary {external : External} {text : String} {bytes : Key}
    (read : binary external 32 text = some bytes) : key external text = some bytes :=
  key_iff.mpr ⟨binary_some read, binary_spelling read⟩

theorem fromPeer_some (made : Seed.fromPeer contacting routes peers peer = some seed) :
    peerKey contacting.toExternal peer = some seed.key ∧
      (seed.path = .direct → ∀ route ∈ routes, route.peer ≠ peer.name) := by
  simp only [Seed.fromPeer, bind_eq_some, return_eq_some] at made
  obtain ⟨text, stored, bytes, read, rfl⟩ := made
  refine ⟨by rw [peerKey, stored]; exact key_of_binary read, fun direct route listed same => ?_⟩
  cases found : routes.find? (fun route => route.peer = peer.name) with
  | none => exact absurd same (by simpa using List.find?_eq_none.mp found route listed)
  | some other =>
    simp only [found] at direct
    split at direct <;> cases direct

theorem seeds_nodup (packed : pack contacting.toExternal peers = true) :
    ((peers.filterMap (Seed.fromPeer contacting routes peers)).map (·.key)).Nodup := by
  have part (members : List PeerRecord) :
      ((members.filterMap (Seed.fromPeer contacting routes peers)).map (·.key)).Sublist
        (members.filterMap (peerKey contacting.toExternal)) := by
    induction members with
    | nil => exact List.nil_sublist _
    | cons peer rest ih =>
      cases made : Seed.fromPeer contacting routes peers peer with
      | none =>
        rw [List.filterMap_cons_none made]
        refine ih.trans ?_
        rw [List.filterMap_cons]
        split
        · exact List.Sublist.refl _
        · exact List.sublist_cons_self _ _
      | some seed =>
        rw [List.filterMap_cons_some made, List.filterMap_cons_some (fromPeer_some made).1]
        exact ih.cons_cons seed.key
  exact (((pack_iff _ _).mp packed).2.2.2.2).sublist (part peers)

theorem exists_fromPeer (standard : Base64.Standard contacting.base64Encode contacting.base64Decode)
    {bytes : Key} (stored : peerKey contacting.toExternal peer = some bytes) :
    ∃ seed, Seed.fromPeer contacting routes peers peer = some seed ∧ seed.key = bytes := by
  obtain ⟨text, held, read⟩ := Option.bind_eq_some_iff.mp stored
  have canonical : binary contacting.toExternal 32 text = some bytes := by
    rw [← (key_iff.mp read).2]
    exact @binary_encode contacting.toSigner standard 32 bytes
  simp only [Seed.fromPeer, held, canonical, Option.bind_eq_bind, Option.bind_some, Option.pure_def]
  exact ⟨_, rfl, rfl⟩

end Seeds

namespace Search

variable {contacting : Contacting} {sha256 : List UInt8 → NodeId} {target : NodeId}
  {peers : List PeerRecord} {own : Key} {transport : String} {seeds : List Seed} {search : Search}
  {seed : Seed}

def Found (contacting : Contacting) (own : Key) (transport : String) (learned : List ContactRecord)
    (seed : Seed) : Prop :=
  seed.key ≠ own ∧ ∃ record ∈ learned, ∃ name, Seed.fromRecord contacting record name transport = some seed

structure Sound (contacting : Contacting) (own : Key) (transport : String) (seeds : List Seed)
    (search : Search) : Prop where
  distinct : (search.shortlist.map (·.key)).Nodup
  kept : ∀ seed ∈ seeds, seed ∈ search.shortlist
  origin : ∀ seed ∈ search.shortlist,
    seed ∈ seeds ∨ Found contacting own transport search.learned seed
  queried : ∀ seed ∈ search.queried, seed ∈ search.shortlist
  keys : search.asked = search.queried.map (·.key)
  once : search.asked.Nodup
  few : search.asked.length ≤ maxQueries

theorem fromRecord_key {record : ContactRecord} {name : String}
    (made : Seed.fromRecord contacting record name transport = some seed) :
    seed.key = record.publicKey := by
  simp only [Seed.fromRecord, bind_eq_some, return_eq_some] at made
  obtain ⟨_, _, _, _, rfl⟩ := made
  rfl

theorem Found.mono {learned more : List ContactRecord}
    (found : Found contacting own transport learned seed) (grows : learned ⊆ more) :
    Found contacting own transport more seed := by
  obtain ⟨other, record, arrived, name, made⟩ := found
  exact ⟨other, record, grows arrived, name, made⟩

theorem Sound.receive (sound : Sound contacting own transport seeds search) (record : ContactRecord) :
    Sound contacting own transport seeds (search.receive contacting sha256 peers own transport record) := by
  have grows : search.learned ⊆ search.learned ++ [record] := List.subset_append_left _ _
  dsimp only [Search.receive]
  split
  · exact { sound with origin := fun seed listed =>
      (sound.origin seed listed).imp id (fun found => found.mono grows) }
  · rename_i known
    rw [not_or, Bool.not_eq_true, List.any_eq_false] at known
    obtain ⟨other, fresh⟩ := known
    cases made : Seed.fromRecord contacting record (label contacting sha256 record peers) transport with
    | none =>
      simp only [Option.toList_none, List.append_nil]
      exact { sound with origin := fun seed listed =>
        (sound.origin seed listed).imp id (fun found => found.mono grows) }
    | some seed =>
      have key := fromRecord_key made
      simp only [Option.toList_some]
      refine { sound with distinct := ?_, kept := ?_, origin := ?_, queried := ?_ }
      · rw [List.map_append, List.map_singleton, key]
        refine sound.distinct.append (List.nodup_singleton _) ?_
        rw [List.disjoint_singleton]
        intro member
        obtain ⟨old, listed, same⟩ := List.mem_map.mp member
        exact fresh old listed (decide_eq_true same)
      · exact fun old listed => List.mem_append_left _ (sound.kept old listed)
      · intro old listed
        rcases List.mem_append.mp listed with before | new
        · exact (sound.origin old before).imp id (fun found => found.mono grows)
        · rw [List.mem_singleton.mp new]
          exact .inr ⟨by rw [key]; exact other, record, List.mem_append_right _ (by simp), _, made⟩
      · exact fun old listed => List.mem_append_left _ (sound.queried old listed)

theorem Sound.join (sound : Sound contacting own transport seeds search)
    (joined : Option (String × Except String (List ContactRecord))) :
    Sound contacting own transport seeds (search.join contacting sha256 peers own transport joined) := by
  cases joined with
  | none => exact sound
  | some result =>
    obtain ⟨name, answer⟩ := result
    cases answer with
    | error reason => exact { sound with }
    | ok records =>
      have received : Sound contacting own transport seeds
          (records.foldl (Search.receive contacting sha256 peers own transport) search) :=
        run_invariant _ (fun _ record sound => sound.receive record) sound records
      exact { received with }

theorem Sound.joinAll (sound : Sound contacting own transport seeds search)
    (results : List (Option (String × Except String (List ContactRecord)))) :
    Sound contacting own transport seeds (results.foldl (Search.join contacting sha256 peers own transport) search) :=
  run_invariant _ (fun _ joined sound => sound.join joined) sound results

theorem mem_batch (member : seed ∈ search.batch sha256 target) :
    seed ∈ search.nearest sha256 target ∧ seed.key ∉ search.asked := by
  simpa using List.mem_filter.mp (List.mem_of_mem_take member)

theorem mem_shortlist (member : seed ∈ search.batch sha256 target) : seed ∈ search.shortlist :=
  (sortOn_perm _ _).mem_iff.mp (List.mem_of_mem_take (mem_batch member).1)

theorem length_batch : (search.batch sha256 target).length ≤ maxQueries - search.asked.length :=
  (List.length_take_le _ _).trans (min_le_right _ _)

theorem batch_nodup (distinct : (search.shortlist.map (·.key)).Nodup) :
    ((search.batch sha256 target).map (·.key)).Nodup := by
  have part : (search.batch sha256 target).Sublist (sortOn (distance sha256 target) search.shortlist) :=
    (List.take_sublist _ _).trans (List.filter_sublist.trans (List.take_sublist _ _))
  exact (((sortOn_perm _ _).map _).nodup_iff.mpr distinct).sublist (part.map _)

theorem batch_nearest {other : Seed} (near : other ∈ search.nearest sha256 target)
    (unasked : other.key ∉ search.asked) (out : other ∉ search.batch sha256 target) :
    (search.batch sha256 target).length = min alpha (maxQueries - search.asked.length) ∧
      ∀ seed ∈ search.batch sha256 target, distance sha256 target seed ≤ distance sha256 target other := by
  have sorted : ((search.nearest sha256 target).filter (fun seed => !search.asked.contains seed.key)).Pairwise
      (fun seed farther => distance sha256 target seed ≤ distance sha256 target farther) :=
    (sortOn_sorted _ _).sublist (List.filter_sublist.trans (List.take_sublist _ _))
  exact take_of_sorted sorted (List.mem_filter.mpr ⟨near, by simpa using unasked⟩) out

theorem nearest_spec {other : Seed} (known : other ∈ search.shortlist) (out : other ∉ search.nearest sha256 target) :
    (search.nearest sha256 target).length = maxK.toNat ∧ ∀ seed ∈ search.nearest sha256 target,
        distance sha256 target seed ≤ distance sha256 target other :=
  take_of_sorted (sortOn_sorted _ _) ((sortOn_perm _ _).mem_iff.mpr known) out

theorem Sound.sorted (sound : Sound contacting own transport seeds search) (hop : Nat) :
    Sound contacting own transport seeds
      { search with hop := hop, shortlist := sortOn (distance sha256 target) search.shortlist } :=
  have same := sortOn_perm (distance sha256 target) search.shortlist
  { sound with
    distinct := (same.map _).nodup_iff.mpr sound.distinct
    kept := fun seed listed => same.mem_iff.mpr (sound.kept seed listed)
    origin := fun seed listed => sound.origin seed (same.mem_iff.mp listed)
    queried := fun seed listed => same.mem_iff.mpr (sound.queried seed listed) }

theorem Sound.asking (sound : Sound contacting own transport seeds search) (hop : Nat) :
    Sound contacting own transport seeds { search with
        hop := hop
        shortlist := sortOn (distance sha256 target) search.shortlist
        asked := search.asked ++ (search.batch sha256 target).map (·.key)
        queried := search.queried ++ search.batch sha256 target } := by
  refine { sound.sorted hop with queried := ?_, keys := ?_, once := ?_, few := ?_ }
  · intro seed listed
    rcases List.mem_append.mp listed with before | new
    · exact (sound.sorted hop).queried seed before
    · exact (sortOn_perm _ _).mem_iff.mpr (mem_shortlist new)
  · rw [List.map_append, ← sound.keys]
  · refine sound.once.append (batch_nodup sound.distinct) ?_
    intro key before new
    obtain ⟨seed, member, rfl⟩ := List.mem_map.mp new
    exact (mem_batch member).2 before
  · have room := @length_batch sha256 target search
    have few := sound.few
    rw [List.length_append, List.length_map]
    omega

theorem Sound.step (sound : Sound contacting own transport seeds search) (hop : Hop) :
    Sound contacting own transport seeds (search.step contacting sha256 target peers own transport hop) := by
  unfold Search.step
  split
  · exact sound
  · dsimp only
    split
    · exact { sound.sorted (search.hop + 1) with }
    · have asking := @Sound.asking _ sha256 target _ _ _ _ sound (search.hop + 1)
      have joined := @Sound.joinAll _ sha256 peers _ _ _ _ asking (hop.joined (search.batch sha256 target))
      exact { joined with }

theorem Sound.initial (distinct : (seeds.map (·.key)).Nodup) :
    Sound contacting own transport seeds (.initial seeds) where
  distinct := distinct
  kept _ listed := listed
  origin _ listed := .inl listed
  queried _ listed := nomatch listed
  keys := rfl
  once := List.nodup_nil
  few := Nat.zero_le _

theorem queried_join (joined : Option (String × Except String (List ContactRecord))) :
    (search.join contacting sha256 peers own transport joined).queried = search.queried := by
  cases joined with
  | none => rfl
  | some result =>
    obtain ⟨name, answer⟩ := result
    cases answer with
    | error reason => rfl
    | ok records =>
      exact @run_invariant _ _ (Search.receive contacting sha256 peers own transport)
        (fun after => after.queried = search.queried) (fun _ _ same => same) search rfl records

theorem queried_step (hop : Hop) :
    let next := search.step contacting sha256 target peers own transport hop
    next.queried = search.queried ++ search.batch sha256 target ∨
      (next.queried = search.queried ∧ next.finished = true) := by
  dsimp only
  unfold Search.step
  split
  · rename_i finished
    exact .inr ⟨rfl, finished⟩
  · dsimp only
    split
    · exact .inr ⟨rfl, rfl⟩
    · exact .inl (run_invariant (fun after : Search => after.queried = search.queried ++ search.batch sha256 target)
        (fun _ joined same => (queried_join joined).trans same) rfl _)

end Search

def Pinned (contacting : Contacting) (seed : Seed) (record : ContactRecord) : Prop :=
  seed.key = record.publicKey ∧ seed.expected.publicKeyB64 = some (contacting.base64Encode record.publicKey.val) ∧
    fingerprintFromPublicKeyB64 contacting.toExternal
      (contacting.base64Encode record.publicKey.val) = some seed.expected.fingerprint

theorem pinned_of_fromRecord {contacting : Contacting} {record : ContactRecord} {name transport : String}
    {seed : Seed} (made : Seed.fromRecord contacting record name transport = some seed) :
    Pinned contacting seed record ∧ seed.path = .direct := by
  simp only [Seed.fromRecord, bind_eq_some, return_eq_some] at made
  obtain ⟨_, _, fingerprint, printed, rfl⟩ := made
  exact ⟨⟨rfl, rfl, printed⟩, rfl⟩

/-- Whatever the nodes answer and however the queries end, after any number of hops no
key was asked twice and no more than 24 were; the next hop asks the nearest that were
not asked among the 20 nearest known, or none and is the last; a Pack member with a
key and a route is asked through its route only; and a node from an answer is not
this one and is pinned to the key of its record. -/
theorem lookup_is_bounded_and_pinned (contacting : Contacting) (sha256 : List UInt8 → NodeId)
    (standard : Base64.Standard contacting.base64Encode contacting.base64Decode) (peers : List PeerRecord)
    (packed : pack contacting.toExternal peers = true) (routes : List Control.Route) (identity : PeltIdentity)
    (transport : String) (target : NodeId) (hops : List Hop) :
    let search := searchAfter contacting sha256 peers routes identity transport target hops
    let next (hop : Hop) := searchAfter contacting sha256 peers routes identity transport target
      (hops ++ [hop])
    let seeds := peers.filterMap (Seed.fromPeer contacting routes peers)
    let distance := Search.distance sha256 target
    let batch := search.batch sha256 target
    let nearest := search.nearest sha256 target
    (search.asked = search.queried.map (·.key) ∧ search.asked.Nodup ∧ search.asked.length ≤ 24) ∧
    (∀ hop, (next hop).queried = search.queried ++ batch ∨
      ((next hop).queried = search.queried ∧ (next hop).finished = true)) ∧
    ((∀ seed ∈ batch, seed ∈ nearest ∧ seed.key ∉ search.asked) ∧
      (∀ other ∈ nearest, other.key ∉ search.asked → other ∉ batch → batch.length = min 3 (24 - search.asked.length) ∧
          ∀ seed ∈ batch, distance seed ≤ distance other) ∧
      (∀ seed ∈ nearest, seed ∈ search.shortlist) ∧
      ∀ other ∈ search.shortlist, other ∉ nearest →
        nearest.length = 20 ∧ ∀ seed ∈ nearest, distance seed ≤ distance other) ∧
    (∀ seed ∈ search.shortlist, seed.path = .direct → ∀ peer ∈ peers,
      peerKey contacting.toExternal peer = some seed.key → ∀ route ∈ routes, route.peer ≠ peer.name) ∧
    (∀ peer ∈ peers, peer.publicKeyB64.isSome = true → ∃ bytes, peerKey contacting.toExternal peer = some bytes) ∧
    (∀ seed ∈ search.queried, seed ∈ search.shortlist) ∧
    ∀ seed ∈ search.shortlist, seed ∈ seeds ∨ (seed.key ≠ hsKey contacting.toExternal identity ∧
        ∃ record ∈ search.learned, Pinned contacting seed record) := by
  intro search next seeds distance batch nearest
  have sound : Search.Sound contacting (hsKey contacting.toExternal identity) transport seeds search :=
    run_invariant _ (fun _ hop sound => sound.step hop) (.initial (seeds_nodup packed)) hops
  refine ⟨⟨sound.keys, sound.once, sound.few⟩, fun hop => ?_, ⟨fun seed member => Search.mem_batch member,
      fun other near unasked out => Search.batch_nearest near unasked out,
      fun seed member => (sortOn_perm _ _).mem_iff.mp (List.mem_of_mem_take member),
      fun other known out => Search.nearest_spec known out⟩,
    fun seed known direct peer listed stored => ?_, fun peer listed keyed => ?_, sound.queried,
    fun seed known => ?_⟩
  · dsimp only [next, searchAfter]
    rw [run_append, run_cons, run_nil]
    exact Search.queried_step hop
  · -- The seed of the member has the same key, and each key is known once.
    obtain ⟨own, made, same⟩ := exists_fromPeer standard stored
    have first := sound.kept own (List.mem_filterMap.mpr ⟨peer, listed, made⟩)
    have alike := List.inj_on_of_nodup_map sound.distinct first known same
    subst alike
    exact (fromPeer_some made).2 direct
  · have valid := ((pack_iff _ _).mp packed).2.1 peer listed
    obtain ⟨text, held⟩ := Option.isSome_iff_exists.mp keyed
    obtain ⟨bytes, read, _⟩ := (peerValid_some valid).2 text held
    exact ⟨bytes, by rw [peerKey, held]; exact read⟩
  · rcases sound.origin seed known with first | ⟨other, record, arrived, name, made⟩
    · exact .inl first
    · exact .inr ⟨other, record, arrived, (pinned_of_fromRecord made).1⟩

namespace Sample

def announcer : PeerRecord :=
  ⟨"howler", "wwp1:00-00-00-00-00-00-00-00", "quic://203.0.113.7:9560", .packmate,
    some announcerPelt.publicKeyB64⟩

def hops : List Hop := [⟨false, fun _ => [some ("howler", .ok (announced 2))]⟩, ⟨false, fun _ => []⟩]

end Sample

open Sample

/-- The record that the member answers with is asked next. -/
theorem fruitful_lookup_is_bounded :
    let search := searchAfter Sample.contacting digest [announcer] [] ⟨"", "", ""⟩ "quic" (.zero 32) Sample.hops
    search.queried.map (·.name) = ["howler", "node:0202020202020202"] ∧
      search.asked.Nodup ∧ search.asked.length ≤ 24 := by
  have bounded := lookup_is_bounded_and_pinned Sample.contacting digest Base64.standard
    [announcer] (by decide +kernel) [] ⟨"", "", ""⟩ "quic" (.zero 32) Sample.hops
  exact ⟨by decide +kernel, bounded.1.2⟩

end Werewolf.Discovery
