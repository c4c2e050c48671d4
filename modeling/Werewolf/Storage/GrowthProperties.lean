import Mathlib.Algebra.BigOperators.Group.List.Basic
import Mathlib.Algebra.Group.Action.Defs
import Werewolf.Storage.Durability

/-! How large the governance document is. It lists the hash of every statement
that was ever applied, and no rule bounds their number, so a chain can outgrow
the largest document that is written. -/

namespace Werewolf.Governance
open Library
open Json hiding key number

section Sizes

def digitCount (value : Nat) : Nat := if value = 0 then 1 else (Nat.digits 10 value).length

def hexListBytes (count : Nat) : Nat := if count = 0 then 2 else 67 * count + 1

def epochBytes (epoch : UInt64 × Nat) : Nat :=
  19 + digitCount epoch.1.toNat + hexListBytes epoch.2

/-- What the size of a document depends on. Of every list that is its length. -/
structure Extent where
  sequence : UInt64
  threshold : UInt8
  keyEpochs : List (UInt64 × Nat)
  revoked : Nat
  applied : Nat
  forked : Bool
  roster : Nat
  activatedAt : Option UInt64
  deadAt : Option UInt64

def Extent.bytes (extent : Extent) : Nat :=
  238 + digitCount extent.sequence.toNat + digitCount extent.threshold.toNat +
    listBytes (extent.keyEpochs.map epochBytes) + hexListBytes extent.revoked +
    hexListBytes extent.applied + (if extent.forked then 4 else 5) +
    (if extent.roster = 0 then 0 else 10 + hexListBytes extent.roster) +
    extent.activatedAt.elim 0 (fun sequence => 16 + digitCount sequence.toNat) +
    extent.deadAt.elim 0 (fun sequence => 11 + digitCount sequence.toNat)

def Head.extent (head : Head) : Extent where
  sequence := head.sequence
  threshold := head.threshold
  keyEpochs := head.keyEpochs.map (fun epoch => (epoch.1, epoch.2.length))
  revoked := head.revoked.length
  applied := head.applied.length
  forked := head.forked
  roster := head.roster.length
  activatedAt := head.activatedAt
  deadAt := head.deadAt

/-- The extent after a statement, from the head before it and what the statement
says. -/
def extentAfter : Option Head → Core → Extent
  | none, _ => ⟨0, UInt8.ofNat thresholdCount, [(0, keyCount)], 0, 1, false, 0, none, none⟩
  | some head, core =>
      let longer := { head.extent with
        sequence := core.sequence
        applied := head.applied.length + 1 }
      match core.body with
      | .rotation _ => { longer with keyEpochs := longer.keyEpochs ++ [(core.sequence, keyCount)] }
      | .revocation keys => { longer with
          revoked := (keys.toFinset ∪ head.revoked.toFinset).card
          roster := (head.roster.toFinset \ keys.toFinset).card }
      | .admission keys => { longer with roster := head.roster.length + keys.length }
      | .activation => { longer with activatedAt := some core.sequence }
      | .death => { longer with deadAt := some core.sequence }
      | .genesis .. => longer

private theorem plain_digits : ∀ digit < 16, escape (Nat.digitChar digit) = [Nat.digitChar digit] ∧
      (Nat.digitChar digit).utf8Size = 1 := by
  decide +kernel

private theorem length_number (value : Nat) : (toVec Json.number value).length = digitCount value := by
  by_cases zero : value = 0
  · subst zero
    decide +kernel
  · have ascii : ∀ char ∈ ((Nat.digits 10 value).map Nat.digitChar).reverse, char.utf8Size = 1 := by
      intro char member
      obtain ⟨digit, listed, rfl⟩ := List.mem_map.mp (List.mem_reverse.mp member)
      have small := Nat.digits_lt_base (by decide : 1 < 10) listed
      exact (plain_digits digit (by omega)).2
    simp only [toVec, Json.number, zero, ↓reduceIte, digitCount]
    rw [length_flatMap_ascii ascii, List.length_reverse, List.length_map]

private theorem length_hexText (bytes : ByteArr 32) : (toVec string (hex bytes.val)).length = 66 := by
  have digits : ∀ char ∈ hexChars bytes.val, escape char = [char] ∧ char.utf8Size = 1 := by
    intro char member
    obtain ⟨byte, _, written⟩ := List.mem_flatMap.mp member
    have bound := byte.toNat_lt
    rcases List.mem_pair.mp written with rfl | rfl
    · exact plain_digits _ (by omega)
    · exact plain_digits _ (by omega)
  have listed : (hex bytes.val).toList = hexChars bytes.val := String.toList_ofList
  rw [length_toVec_string (fun char member => (digits char (listed ▸ member)).1), ← length_utf8, listed,
    length_flatMap_ascii (fun char member => (digits char member).2), length_hexChars, bytes.2]

private theorem length_hexList (values : List (ByteArr 32)) :
    (toVec (array string) (values.map (fun value => hex value.val))).length =
      hexListBytes values.length := by
  have sizes : (values.map (fun value => hex value.val)).map
      (fun text => (toVec string text).length) = List.replicate values.length 66 := by
    rw [List.map_map, List.eq_replicate_iff]
    refine ⟨List.length_map _, fun size member => ?_⟩
    obtain ⟨value, _, rfl⟩ := List.mem_map.mp member
    exact length_hexText value
  rw [length_toVec_array, sizes]
  cases values with
  | nil => rfl
  | cons value values =>
    simp only [listBytes, hexListBytes, List.length_cons, List.replicate_succ_ne_nil,
      ↓reduceIte, List.map_replicate, List.sum_replicate, smul_eq_mul, Nat.succ_ne_zero]
    omega

private theorem length_epoch (epoch : UInt64 × List Key) :
    (toVec keyEpochCodec ⟨epoch.1, epoch.2.map (fun key => hex key.val)⟩).length =
      epochBytes (epoch.1, epoch.2.length) := by
  have keys : keyBytes "set_at" + keyBytes "keys" = 16 := by decide +kernel
  have printed : toVec keyEpochCodec ⟨epoch.1, epoch.2.map (fun key => hex key.val)⟩ =
      toVec (object _) (epoch.1, epoch.2.map (fun key => hex key.val)) := rfl
  have number : (toVec u64 epoch.1).length = digitCount epoch.1.toNat :=
    length_number epoch.1.toNat
  simp only [printed, length_toVec_object, length_toVec_fields, length_toVec_field,
    number, length_hexList, epochBytes]
  omega

theorem length_document (head : Head) : (toVec documentCodec (document head)).length = head.extent.bytes := by
  have keys : keyBytes "version" + keyBytes "network_id" + keyBytes "sequence" +
      keyBytes "hash" + keyBytes "threshold" + keyBytes "key_epochs" +
      keyBytes "revoked" + keyBytes "applied" + keyBytes "forked" = 95 := by
    decide +kernel
  have optional : keyBytes "roster" = 9 ∧ keyBytes "activated_at" = 15 ∧
      keyBytes "dead_at" = 10 := by decide +kernel
  have number (value : UInt64) : (toVec u64 value).length = digitCount value.toNat :=
    length_number value.toNat
  have small (value : UInt8) : (toVec u8 value).length = digitCount value.toNat :=
    length_number value.toNat
  have version : digitCount (1 : UInt8).toNat = 1 := by decide +kernel
  have boolean : (toVec boolean head.forked).length = if head.forked then 4 else 5 := by
    cases head.forked <;> decide +kernel
  have epochs : (toVec (array keyEpochCodec) (head.keyEpochs.map (fun epoch =>
      (⟨epoch.1, epoch.2.map (fun key => hex key.val)⟩ : KeyEpoch)))).length =
        listBytes ((head.keyEpochs.map (fun epoch => (epoch.1, epoch.2.length))).map epochBytes) := by
    rw [length_toVec_array, List.map_map, List.map_map]
    exact congrArg listBytes (List.map_congr_left (fun epoch _ => length_epoch epoch))
  have printed : toVec documentCodec (document head) = toVec
      (object (optionalField (optionalField (optionalField commonFields
        "roster" (array string)) "activated_at" u64) "dead_at" u64))
      (((((1, hex head.networkId.val, head.sequence, hex head.hash.val, head.threshold,
        head.keyEpochs.map (fun epoch =>
          (⟨epoch.1, epoch.2.map (fun key => hex key.val)⟩ : KeyEpoch)),
        head.revoked.map (fun key => hex key.val), head.applied.map (fun hash => hex hash.val),
        head.forked), if head.roster.map (fun key => hex key.val) = [] then none
          else some (head.roster.map (fun key => hex key.val))), head.activatedAt),
        head.deadAt)) := rfl
  have roster : (if head.roster.map (fun key => hex key.val) = [] then none
      else some (head.roster.map (fun key => hex key.val))).elim 0 (fun present =>
        1 + keyBytes "roster" + (toVec (array string) present).length) =
      if head.roster.length = 0 then 0 else 10 + hexListBytes head.roster.length := by
    by_cases empty : head.roster = []
    · simp [empty]
    · simp only [List.map_eq_nil_iff, List.length_eq_zero_iff, empty, ↓reduceIte, Option.elim_some,
        length_hexList, optional]
  rw [Head.extent]
  simp only [printed, commonFields, length_toVec_object, length_toVec_optionalField,
    length_toVec_fields, length_toVec_field, number, small, version, boolean, epochs,
    length_hexList, length_hexText, roster, Extent.bytes]
  simp only [optional, Nat.reduceAdd]
  omega

theorem canonical_extent {crypto : Crypto} {head : Head} (wellFormed : head.WellFormed crypto) :
    ∃ bytes, canonical head = some bytes ∧ bytes.length = head.extent.bytes :=
  ⟨_, if_pos (check_of_wellFormed wellFormed), length_document head⟩

theorem Head.WellFormed.bytes_gt {crypto : Crypto} {head : Head}
    (wellFormed : head.WellFormed crypto) : 67 * head.sequence.toNat < head.extent.bytes := by
  simp only [Extent.bytes, Head.extent, hexListBytes, wellFormed.appliedLength, Nat.succ_ne_zero, ↓reduceIte]
  omega

theorem length_of_sorted {keys : List Key} (sorted : StrictlySorted keys) : keys.length = keys.toFinset.card :=
  (List.toFinset_card_of_nodup (sorted.imp ne_of_lt)).symm

/-- What an accepted statement makes of the head is told beforehand by the counts. -/
theorem extent_applied {crypto : Crypto} {presentations : List Presentation} {next : Head} {statement : Statement}
    {pin : Option Hash} (accepted : apply crypto (history crypto presentations) statement pin = .ok (.applied next)) :
    next.extent = extentAfter (history crypto presentations) statement.core := by
  have after := history_wellFormed (history_snoc_applied accepted)
  cases reached : history crypto presentations with
  | none =>
    rw [reached] at accepted
    obtain ⟨threshold, keys, starts, shape⟩ := applyGenesis_ok_iff.mp accepted
    cases shape
    obtain ⟨count, keySet⟩ := checkGenesis_ok starts.checked
    have seven : threshold = UInt8.ofNat thresholdCount := UInt8.toNat.inj count
    simp [Head.extent, Head.initial, extentAfter, keySet.count, seven]
  | some head =>
    rw [reached] at accepted
    have before := history_wellFormed reached
    obtain ⟨_, effect, advances, rfl⟩ := applyTo_applied accepted
    cases applyBody_ok advances.body with
    | @rotation _ _ keys body =>
      have renewed := after.epochsKeys (statement.core.sequence, keys) (by simp [Head.advance])
      simp [Head.extent, Head.advance, extentAfter, body, renewed.count]
    | @revocation keys body =>
      have revoked : (keys.foldl insertAbsent head.revoked).toFinset = keys.toFinset ∪ head.revoked.toFinset := by
        ext key
        simp [mem_foldl_insertAbsent before.revokedSorted]
      have roster : (keys.foldl removePresent head.roster).toFinset = head.roster.toFinset \ keys.toFinset := by
        ext key
        simp [mem_foldl_removePresent before.rosterSorted]
      have sorted : StrictlySorted (keys.foldl insertAbsent head.revoked) ∧
          StrictlySorted (keys.foldl removePresent head.roster) :=
        ⟨after.revokedSorted, after.rosterSorted⟩
      simp [Head.extent, Head.advance, extentAfter, body, length_of_sorted sorted.1,
        length_of_sorted sorted.2, revoked, roster]
    | admission body _ admitted =>
      have size := (admitKeys_ok before.rosterSorted admitted).2.2
      simp [Head.extent, Head.advance, extentAfter, body, size]
    | activation body => simp [Head.extent, Head.advance, extentAfter, body]
    | death body => simp [Head.extent, Head.advance, extentAfter, body]

end Sizes

namespace Sample

def continuing (head : Head) (body : Body) : Statement :=
  signedWith 0 ⟨head.networkId, head.sequence + 1, head.hash, body⟩

structure Growing (presentations : List Presentation) (head : Head) : Prop where
  reached : history crypto presentations = some head
  unforked : head.forked = false
  alive : head.deadAt = none
  epochs : head.keyEpochs = [(0, keys)]

theorem Growing.advances {presentations : List Presentation} {head effect : Head} {body : Body}
    (growing : Growing presentations head) (room : head.sequence.toNat + 1 < 2 ^ 64)
    (accepted : applyBody crypto head (continuing head body).core = .ok effect) :
    Advances crypto head (continuing head body) keys effect := by
  have wellFormed := history_wellFormed growing.reached
  obtain ⟨epoch, last, inForce, keySet⟩ := wellFormed.keys
  rw [growing.epochs, List.getLast?_singleton, Option.some.injEq] at last
  subst last
  have number : (head.sequence + 1).toNat = head.sequence.toNat + 1 := by
    rw [UInt64.toNat_add, UInt64.toNat_one, Nat.mod_eq_of_lt room]
  refine ⟨growing.alive, fun fenced => ?_, rfl, number, rfl, inForce, ?_, accepted⟩
  · rw [growing.unforked] at fenced
    cases fenced
  · rw [wellFormed.threshold]
    exact (checkSignatures_ok_iff keySet.strong _ _).mpr (signedWith_signedBy 0 _)

theorem Growing.applied {presentations : List Presentation} {head effect : Head} {body : Body}
    (growing : Growing presentations head) (room : head.sequence.toNat + 1 < 2 ^ 64)
    (accepted : applyBody crypto head (continuing head body).core = .ok effect) :
    apply crypto (history crypto presentations) (continuing head body) none =
      .ok (.applied (effect.advance crypto (continuing head body).core)) := by
  rw [growing.reached]
  exact (growing.advances room accepted).applyTo

theorem exists_growing (count : Nat) (room : count < 2 ^ 64) :
    ∃ presentations head, Growing presentations head ∧ head.sequence.toNat = count := by
  induction count with
  | zero =>
    have reached : history crypto started = some ((history crypto started).get (by decide +kernel)) := by simp
    exact ⟨started, _, ⟨reached, by decide +kernel, by decide +kernel, by decide +kernel⟩,
      by decide +kernel⟩
  | succ count ih =>
    obtain ⟨presentations, head, growing, number⟩ := ih (by omega)
    have checked : checkRevocation crypto [key 0] = .ok () := by decide +kernel
    have accepted : applyBody crypto head (continuing head (.revocation [key 0])).core = .ok { head with
          revoked := [key 0].foldl insertAbsent head.revoked
          roster := [key 0].foldl removePresent head.roster } :=
      bind_eq_ok.mpr ⟨(), checked, rfl⟩
    exact ⟨_, _, ⟨history_snoc_applied (growing.applied (by omega) accepted), growing.unforked,
      growing.alive, growing.epochs⟩,
      number ▸ (growing.advances (by omega) accepted).sequence⟩

end Sample

end Werewolf.Governance

namespace Werewolf.Storage
open Library Governance
open Json hiding key number

section Committing

variable {platform : Platform}

theorem documents_governed {state : ProtectedState} {contents : Documents} {head : Head}
    {bytes : List UInt8} (written : canonical head = some bytes)
    (documented : documents platform { state with governance := none } = .ok contents) :
    documents platform { state with governance := some head } = .ok { contents with governance := some bytes } := by
  simp only [documents, bind_eq_ok, return_eq_ok] at documented ⊢
  obtain ⟨pack, packed, policy, policed, fangs, profiled, active, activated, absent, _, rfl⟩ :=
    documented
  exact ⟨pack, packed, policy, policed, fangs, profiled, active, activated, some bytes,
    by simp [canonicalGovernance, written, orError, Except.map], rfl⟩

theorem governance_fits_of_committed {den : Den} {current : UInt64} {state : ProtectedState}
    {fates : Nat → Replacement} {generation : Generation} {contents : Documents} {bytes : List UInt8}
    (documented : documents platform state = .ok contents) (governed : contents.governance = some bytes)
    (committed : (commit platform den current state fates).2 =
      .reported (.durablyCommitted generation)) : bytes.length ≤ documentLimit := by
  obtain ⟨observed, writes, attempted⟩ := attempted_of_committed committed
  have written := attempted.written
  simp only [slotWrites, documented, bind_eq_ok, return_eq_ok, Except.ok.injEq, exists_eq_left'] at written
  obtain ⟨manifest, _, rfl⟩ := written
  have all := attempted.performed.complete rfl
  exact attempted.performed.fits ⟨name generation.slot .governance, bytes⟩ (by rw [all]; simp [governed])

end Committing

/-- An accepted statement is committed on healthy storage exactly if the counts of the
head before it, with what it adds, make no document above the limit. One of them
counts every statement of the chain. -/
theorem governed_state_commits_iff (platform : Platform) (presentations : List Presentation) (statement : Statement)
    (pin : Option Hash) (next : Head)
    (accepted : apply platform.toCrypto (history platform.toCrypto presentations) statement pin = .ok (.applied next))
    (den : Den) (observed following : Generation) (state : ProtectedState) (contents : Documents)
    (selected : loadCurrent platform den = .ok (some observed)) (follows : nextGeneration observed = some following)
    (documented : documents platform { state with governance := none } = .ok contents)
    (fits : ∀ bytes ∈ contents.bytes, bytes.length ≤ documentLimit) :
    let extent := extentAfter (history platform.toCrypto presentations) statement.core
    (∃ bytes, canonical next = some bytes ∧ bytes.length = extent.bytes) ∧
      ((commit platform den observed.number { state with governance := some next }
          (fun _ => .durablyCommitted)).2 = .reported (.durablyCommitted following) ↔
        extent.bytes ≤ documentLimit) := by
  intro extent
  have wellFormed := history_wellFormed (history_snoc_applied accepted)
  obtain ⟨bytes, written, size⟩ := canonical_extent wellFormed
  rw [extent_applied accepted] at size
  have governed := documents_governed written documented
  refine ⟨⟨bytes, written, size⟩, fun committed => ?_, fun small => ?_⟩
  · exact size ▸ governance_fits_of_committed governed rfl committed
  · refine commit_durable selected follows governed (fun data member => ?_)
    simp only [Documents.bytes, List.mem_append, Option.mem_toList, Option.some.injEq] at member
    rcases member with other | rfl
    · exact fits data (by simp only [Documents.bytes, List.mem_append]; exact .inl other)
    · rw [size]
      exact small

theorem Sample.ungoverned_documents :
    ∃ contents, documents platform { state .deny with governance := none } = .ok contents ∧
      ∀ bytes ∈ contents.bytes, bytes.length ≤ documentLimit := by
  have small : fits .deny = true := by decide +kernel
  unfold fits at small
  split at small
  · rename_i contents documented
    exact ⟨contents, documented, by simpa using small⟩
  · cases small

/-- The genesis is committed. -/
theorem genesis_commits : ∃ next, apply Governance.Sample.crypto (history Governance.Sample.crypto [])
        (Governance.Sample.signedWith 0 Governance.Sample.genesis) Governance.Sample.pin = .ok (.applied next) ∧
      (commit Sample.platform Sample.den 1 { Sample.state .deny with governance := some next }
        (fun _ => .durablyCommitted)).2 = .reported (.durablyCommitted ⟨2, .b⟩) := by
  have accepted : apply Governance.Sample.crypto (history Governance.Sample.crypto [])
      (Governance.Sample.signedWith 0 Governance.Sample.genesis) Governance.Sample.pin =
        .ok (.applied ((history Governance.Sample.crypto Governance.Sample.started).get
          (by decide +kernel))) := by decide +kernel
  obtain ⟨contents, documented, fits⟩ := Sample.ungoverned_documents
  obtain ⟨_, commits⟩ := governed_state_commits_iff Sample.platform [] _ _ _ accepted Sample.den
    ⟨1, .a⟩ ⟨2, .b⟩ _ contents Sample.selected (by decide) documented fits
  exact ⟨_, accepted, commits.mpr (by decide +kernel)⟩

/-- After fifteen thousand revocations a death is accepted and cannot be saved. -/
theorem outgrown_death_never_commits : ∃ presentations statement next, statement.core.body = .death ∧
      apply Sample.platform.toCrypto (history Sample.platform.toCrypto presentations) statement
        none = .ok (.applied next) ∧
      (∀ bytes, canonical next = some bytes → documentLimit < bytes.length) ∧
      ∀ fates, (commit Sample.platform Sample.den 1 { Sample.state .deny with governance := some next } fates).2 ≠
          .reported (.durablyCommitted ⟨2, .b⟩) := by
  obtain ⟨presentations, head, growing, number⟩ := Governance.Sample.exists_growing 15651 (by decide)
  have accepted : applyBody Governance.Sample.crypto head (Governance.Sample.continuing head .death).core =
        .ok { head with deadAt := some (Governance.Sample.continuing head .death).core.sequence } :=
    rfl
  have applied := growing.applied (by omega) accepted
  have wellFormed := history_wellFormed (history_snoc_applied applied)
  obtain ⟨bytes, written, size⟩ := canonical_extent wellFormed
  have large : documentLimit < bytes.length := by
    have grown : 67 * (Governance.Sample.continuing head .death).core.sequence.toNat < _ :=
      wellFormed.bytes_gt
    have last := (growing.advances (by omega) accepted).sequence
    rw [size, documentLimit]
    omega
  refine ⟨presentations, _, _, rfl, applied, fun other again => ?_, fun fates committed => ?_⟩
  · cases written.symm.trans again
    exact large
  · obtain ⟨contents, documented, _⟩ := Sample.ungoverned_documents
    exact absurd (governance_fits_of_committed (documents_governed written documented) rfl committed)
      (Nat.not_le.mpr large)

end Werewolf.Storage
