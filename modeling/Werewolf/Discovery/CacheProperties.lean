import Werewolf.Discovery.Cache
import Werewolf.Discovery.RecordProperties
import Werewolf.Transport.ResultProperties

/-! What the cache of contact records holds after a node has learned, and what it
answers from it. -/

namespace Werewolf.Discovery
open Library Governance State Policy Transport
open Authority (require require_eq_some)

namespace Contacts

section Learning

variable (contacting : Contacting) (contacts : Contacts) (records : List ContactRecord)
  (ownKey : Key) (pack : List Key) (now : UInt64) {record : ContactRecord}

def valid : List ContactRecord :=
  (contacts.known ++ records).filter (fun record =>
    record.publicKey ≠ ownKey && record.verify contacting now)

def merged : List ContactRecord :=
  (valid contacting contacts records ownKey now).foldl (place (·.publicKey) ContactRecord.supersedes) []

variable {contacting contacts records ownKey pack now}

theorem mem_valid : record ∈ valid contacting contacts records ownKey now ↔
      record ∈ contacts.known ++ records ∧ record.publicKey ≠ ownKey ∧ record.verify contacting now = true := by
  rw [valid, List.mem_filter, Bool.and_eq_true, decide_eq_true_eq]

theorem learn_eq : learn contacting contacts records ownKey pack now =
    (sortOn (evictionKey pack) (merged contacting contacts records ownKey now)).take cacheLimit := by
  have step : merge contacting ownKey now = fun kept record =>
      if (decide (record.publicKey ≠ ownKey) && record.verify contacting now) = true then
        place (·.publicKey) ContactRecord.supersedes kept record
      else kept := by
    funext kept record
    unfold merge
    by_cases own : record.publicKey = ownKey
    · simp [own]
    · cases record.verify contacting now <;> simp [own]
  rw [learn, merged, valid, List.foldl_filter, step]

theorem merged_highest : KeepsHighest (·.publicKey) (·.seq.toNat) (valid contacting contacts records ownKey now)
    (merged contacting contacts records ownKey now) := by
  refine keepsHighest_foldl (fun value old same => ?_) _
  simp only [ContactRecord.supersedes, same, decide_true, Bool.true_and, decide_eq_true_eq, UInt64.lt_iff_toNat_lt]

theorem mem_learn (member : record ∈ learn contacting contacts records ownKey pack now) :
    record ∈ merged contacting contacts records ownKey now := by
  rw [learn_eq] at member
  exact (sortOn_perm _ _).mem_iff.mp (List.mem_of_mem_take member)

theorem learn_nodup : ((learn contacting contacts records ownKey pack now).map (·.publicKey)).Nodup := by
  rw [learn_eq]
  refine List.Nodup.sublist ((List.take_sublist _ _).map _) ?_
  exact ((sortOn_perm _ _).map _).nodup_iff.mpr merged_highest.distinct

theorem evicted {best : ContactRecord} (highest : FirstHighest (·.publicKey) (·.seq.toNat)
      (valid contacting contacts records ownKey now) best)
    (out : ∀ kept ∈ learn contacting contacts records ownKey pack now, kept.publicKey ≠ best.publicKey) :
    (learn contacting contacts records ownKey pack now).length = cacheLimit ∧
      ∀ kept ∈ learn contacting contacts records ownKey pack now, evictionKey pack kept ≤ evictionKey pack best := by
  obtain ⟨found, member, same⟩ := List.mem_map.mp (merged_highest.covers best highest.mem)
  have alike := (merged_highest.highest found member).unique highest same
  subst alike
  rw [learn_eq] at out ⊢
  exact take_of_sorted (sortOn_sorted _ _) ((sortOn_perm _ _).mem_iff.mpr member) (fun kept => out found kept rfl)

theorem evictionKey_le_iff {other : ContactRecord} : evictionKey pack record ≤ evictionKey pack other ↔
      (record.publicKey ∈ pack ∧ other.publicKey ∉ pack) ∨
        ((record.publicKey ∈ pack ↔ other.publicKey ∈ pack) ∧ other.expiresAt ≤ record.expiresAt) := by
  unfold evictionKey
  rw [Prod.Lex.toLex_le_toLex, UInt64.le_iff_toNat_le]
  by_cases here : record.publicKey ∈ pack <;> by_cases there : other.publicKey ∈ pack <;>
    simp [here, there]

theorem learn_again : learn contacting
        { contacts with known := learn contacting contacts records ownKey pack now } [] ownKey pack now =
      learn contacting contacts records ownKey pack now := by
  have all : valid contacting
      { contacts with known := learn contacting contacts records ownKey pack now } [] ownKey now =
        learn contacting contacts records ownKey pack now := by
    rw [valid, List.append_nil, List.filter_eq_self]
    intro record member
    have known := (merged_highest.highest record (mem_learn member)).mem
    obtain ⟨_, other, verified⟩ := mem_valid.mp known
    simp [other, verified]
  have same : merged contacting
      { contacts with known := learn contacting contacts records ownKey pack now } [] ownKey now =
        learn contacting contacts records ownKey pack now := by
    rw [merged, all]
    exact foldl_place_of_nodup [] _ learn_nodup
  have sorted : (learn contacting contacts records ownKey pack now).Pairwise
      (fun left right => evictionKey pack left ≤ evictionKey pack right) := by
    rw [learn_eq]
    exact (sortOn_sorted _ _).sublist (List.take_sublist _ _)
  have few : (learn contacting contacts records ownKey pack now).length ≤ cacheLimit := by
    rw [learn_eq]
    exact List.length_take_le _ _
  conv_lhs => rw [learn_eq, same, sortOn_of_sorted sorted, List.take_of_length_le few]

theorem exists_firstHighest (counts : record ∈ valid contacting contacts records ownKey now) :
    ∃ best, best.publicKey = record.publicKey ∧ FirstHighest (·.publicKey) (·.seq.toNat)
        (valid contacting contacts records ownKey now) best := by
  obtain ⟨best, member, same⟩ := List.mem_map.mp (merged_highest.covers record counts)
  exact ⟨best, same, merged_highest.highest best member⟩

end Learning

end Contacts

/-- What a node keeps of all it knew and was given. Only for want of room is a node
left out, a Pack member only for others of the Pack, and any other for records that
expire no earlier than its own. -/
theorem learn_keeps_the_best (contacting : Contacting) (contacts : Contacts)
    (records : List ContactRecord) (ownKey : Key) (pack : List Key) (now : UInt64) :
    let kept := contacts.learn contacting records ownKey pack now
    let known := contacts.known ++ records
    let counts (record : ContactRecord) : Prop := record ∈ known ∧ record.publicKey ≠ ownKey ∧
      record.verify contacting now = true
    let highest (best : ContactRecord) : Prop := FirstHighest (·.publicKey) (·.seq.toNat)
      (known.filter (fun record => record.publicKey ≠ ownKey && record.verify contacting now)) best
    kept.length ≤ 256 ∧ (kept.map (·.publicKey)).Nodup ∧
    (∀ record ∈ kept, counts record ∧ highest record ∧
      ∀ other, counts other → other.publicKey = record.publicKey → other.seq ≤ record.seq) ∧
    (∀ record, counts record → record.publicKey ∈ pack → (∀ other ∈ kept, other.publicKey ≠ record.publicKey) →
        kept.length = 256 ∧ ∀ other ∈ kept, other.publicKey ∈ pack) ∧
    (∀ record, counts record → record.publicKey ∉ pack → (∀ other ∈ kept, other.publicKey ≠ record.publicKey) →
        kept.length = 256 ∧ ∃ best, best.publicKey = record.publicKey ∧ highest best ∧
          ∀ other ∈ kept, other.publicKey ∈ pack ∨ best.expiresAt ≤ other.expiresAt) ∧
    { contacts with known := kept }.learn contacting [] ownKey pack now = kept := by
  intro kept known counts highest
  have out {record : ContactRecord} (counting : counts record)
      (absent : ∀ other ∈ kept, other.publicKey ≠ record.publicKey) :
      ∃ best, best.publicKey = record.publicKey ∧ highest best ∧ kept.length = 256 ∧
        ∀ other ∈ kept, Contacts.evictionKey pack other ≤ Contacts.evictionKey pack best := by
    obtain ⟨best, same, first⟩ := Contacts.exists_firstHighest (Contacts.mem_valid.mpr counting)
    rw [← same] at absent
    exact ⟨best, same, first, Contacts.evicted first absent⟩
  refine ⟨?_, Contacts.learn_nodup, fun record member => ?_, fun record counting listed absent => ?_,
    fun record counting unlisted absent => ?_, Contacts.learn_again⟩
  · show (contacts.learn contacting records ownKey pack now).length ≤ 256
    rw [Contacts.learn_eq]
    exact List.length_take_le _ _
  · have first := Contacts.merged_highest.highest record (Contacts.mem_learn member)
    refine ⟨Contacts.mem_valid.mp first.mem, first, fun other counting same => ?_⟩
    exact UInt64.le_iff_toNat_le.mpr (first.rank_le (Contacts.mem_valid.mpr counting) same)
  · obtain ⟨best, same, _, full, before⟩ := out counting absent
    refine ⟨full, fun other member => ?_⟩
    rw [← same] at listed
    rcases Contacts.evictionKey_le_iff.mp (before other member) with ⟨inside, _⟩ | ⟨both, _⟩
    · exact inside
    · exact both.mpr listed
  · obtain ⟨best, same, first, full, before⟩ := out counting absent
    refine ⟨full, best, same, first, fun other member => ?_⟩
    rcases Contacts.evictionKey_le_iff.mp (before other member) with ⟨inside, _⟩ | ⟨_, later⟩
    · exact .inl inside
    · exact .inr later

section Distances

theorem NodeId.xorDistance_xorDistance (id other : NodeId) : xorDistance id (xorDistance id other) = other := by
  refine Subtype.ext (List.ext_getElem (by simp [xorDistance, id.2, other.2]) ?_)
  intro index _ _
  simp only [xorDistance, List.getElem_zipWith, ← UInt8.xor_assoc, UInt8.xor_self, UInt8.zero_xor]

theorem NodeId.xorDistance_injective (id : NodeId) : Function.Injective (xorDistance id) :=
  Function.LeftInverse.injective (NodeId.xorDistance_xorDistance id)

end Distances

section Fitting

variable {α : Type} {build : List ContactRecord → Option α} {size : α → Nat}
  {records : List ContactRecord} {result : α}

end Fitting

section Answering

variable {contacting : Contacting} {sha256 : List UInt8 → NodeId} {contacts : Contacts}
  {requester receiver target : Key} {pack : List Key} {now : UInt64} {k : UInt8}

def distance (sha256 : List UInt8 → NodeId) (target : NodeId) (record : ContactRecord) : NodeId :=
  target.xorDistance (.fromPublicKey sha256 record.publicKey)

def relayed (contacting : Contacting) (sha256 : List UInt8 → NodeId) (contacts : Contacts)
    (requester : Key) (pack : List Key) (now : UInt64) (target : NodeId) : List ContactRecord :=
  (sortOn (distance sha256 target) (contacts.known.filter (fun record =>
    record.publicKey ≠ requester && pack.contains record.publicKey))).filter
    (fun record => record.verify contacting now)

end Answering

namespace Sample

def digest (bytes : List UInt8) : NodeId := (sized 32 (bytes.drop 20)).getD (.zero 32)

def announced (byte : UInt8) : List ContactRecord :=
  let key := Base64.encode (List.replicate 32 byte)
  (ContactRecord.sign contacting ⟨key, key, ""⟩ ["quic://203.0.113.7:9560"] 1 1800003600 1800000000).toList

end Sample

open Sample

end Werewolf.Discovery
