import Werewolf.Control.Archive
import Werewolf.Governance.DocumentProperties
import Werewolf.Governance.KeyCheck

/-! No head, whether `apply` reached it or the loader accepted it, makes the
daemon index out of range or fail an `expect`. Both kinds of head pass the check
of the document, and that check is enough. -/

namespace Werewolf.Governance
open Library

structure Head.Checked (head : Head) : Prop where
  recorded : ∀ sequence, sequence ≤ head.sequence → sequence.toNat < head.applied.length
  counted : head.applied.length % 2 ^ 64 = (head.sequence + 1).toNat
  epochsStart : ∃ keys later, head.keyEpochs = (0, keys) :: later
  epochsCount : ∀ epoch ∈ head.keyEpochs, epoch.2.length = keyCount
  rosterSorted : StrictlySorted head.roster

theorem Head.Checked.of_check {head : Head} (passed : check head = true) : head.Checked := by
  simp only [check, Bool.and_eq_true, decide_eq_true_eq, List.all_eq_true, Bool.not_eq_true',
    hasDescent_eq_false_iff] at passed
  obtain ⟨⟨⟨⟨⟨⟨⟨⟨⟨⟨⟨⟨_, counted⟩, last⟩, first⟩, _⟩, _⟩, epochs⟩, _⟩, _⟩, sorted⟩, _⟩, _⟩, _⟩ :=
    passed
  have nonempty : 0 < head.applied.length := by
    cases shape : head.applied with
    | nil => simp [shape] at last
    | cons hash rest => simp
  refine ⟨fun sequence settled => ?_, counted, ?_, fun epoch member => (epochs epoch member).1, sorted⟩
  · -- The sum wraps only where the list is at least as long as a word counts.
    have below := UInt64.le_iff_toNat_le.mp settled
    have bound := UInt64.toNat_lt head.sequence
    have sum : (head.sequence + 1).toNat = (head.sequence.toNat + 1) % 2 ^ 64 :=
      UInt64.toNat_add head.sequence 1
    omega
  · cases shape : head.keyEpochs with
    | nil => simp [shape] at first
    | cons epoch later =>
      obtain ⟨setAt, keys⟩ := epoch
      simp only [shape, List.head?_cons, Option.any_some, decide_eq_true_eq] at first
      exact ⟨keys, later, by rw [first]⟩

/-- Every head a run reaches has its document, and all the rules that the check of
the document looks at hold of it. -/
theorem reached_head_has_document (crypto : Crypto) (presentations : List Presentation)
    (head : Head) (reached : history crypto presentations = some head) :
    check head = true ∧ (∃ bytes, canonical head = some bytes) ∧ head.WellFormed crypto := by
  have wellFormed := history_wellFormed reached
  have passed := check_of_wellFormed wellFormed
  exact ⟨passed, ⟨_, if_pos passed⟩, wellFormed⟩

open Sample

/-- A rotation, and then a conflicting statement that fences the head. -/
theorem fenced_head_has_document : ∃ head bytes, history Sample.crypto fencedRun = some head ∧ head.forked = true ∧
      canonical head = some bytes := by
  have reached : history Sample.crypto fencedRun =
      some ((history Sample.crypto fencedRun).get (by decide +kernel)) := by simp
  obtain ⟨_, ⟨bytes, written⟩, _⟩ := reached_head_has_document _ _ _ reached
  exact ⟨_, bytes, reached, by decide +kernel, written⟩

inductive Head.Known (crypto : Crypto) (head : Head) : Prop where
  | reached {presentations : List Presentation}
      (reached : history crypto presentations = some head)
  | loaded {fromSlice : List UInt8 → Option Document} {bytes : List UInt8}
      (read : parse fromSlice bytes = some head)

theorem Head.Known.checked {crypto : Crypto} {head : Head} (known : head.Known crypto) : head.Checked := by
  cases known with
  | reached reached => exact .of_check (check_of_wellFormed (history_wellFormed reached))
  | loaded read =>
    have written := canonical_of_parse read
    simp only [canonical, Option.ite_none_right_eq_some] at written
    exact .of_check written.1

section Applying

variable {crypto : Crypto} {head : Head}

theorem Head.Checked.keys (checked : head.Checked) : ∃ keys, head.keys = .ok keys ∧ keys.length = keyCount := by
  obtain ⟨first, later, shape⟩ := checked.epochsStart
  cases last : head.keyEpochs.getLast? with
  | none => simp [shape] at last
  | some epoch =>
    exact ⟨epoch.2, by simp [Head.keys, last], checked.epochsCount epoch (List.mem_of_getLast? last)⟩

theorem Head.Checked.keysBefore (checked : head.Checked) {sequence : UInt64}
    (afterGenesis : sequence ≠ 0) : ∃ keys, head.keysBefore sequence = .ok keys := by
  obtain ⟨first, later, shape⟩ := checked.epochsStart
  have before : (0 : UInt64) < sequence := UInt64.pos_iff_ne_zero.mpr afterGenesis
  have found : (head.keyEpochs.reverse.find? (fun epoch => epoch.1 < sequence)).isSome = true := by
    rw [List.find?_isSome]
    exact ⟨(0, first), by simp [shape], by simpa using before⟩
  obtain ⟨epoch, isFound⟩ := Option.isSome_iff_exists.mp found
  exact ⟨epoch.2, by simp only [Head.keysBefore, isFound]⟩

theorem checkSignatures_avoids (statement : Statement) (keys : List Key) (threshold : Nat) :
    Avoids .panicked (checkSignatures crypto statement keys threshold) := by
  intro failed
  cases checkSignatures_error failed

theorem rotateEntries_avoids {last : Option UInt8} {keys : List Key}
    (sized : keys.length = keyCount) (entries : List (UInt8 × Key)) :
    Avoids .panicked (rotateEntries crypto last keys entries) := by
  induction entries generalizing last keys with
  | nil => exact avoids_ok _
  | cons entry rest ih =>
    obtain ⟨index, key⟩ := entry
    refine avoids_ite (by simp) (fun ordered => avoids_ite (by simp) (fun _ => ?_))
    simp only [Bool.or_eq_true, decide_eq_true_eq, not_or, not_le] at ordered
    rw [if_neg (by rw [sized]; exact Nat.not_le.mpr ordered.2)]
    exact ih (by rw [List.length_set, sized])

theorem rotated_avoids {current : List Key} (sized : current.length = keyCount)
    (entries : List (UInt8 × Key)) : Avoids .panicked (rotated crypto current entries) :=
  avoids_ite (by simp) (fun _ => avoids_bind (rotateEntries_avoids sized entries)
    (fun _ _ => avoids_ite (by simp) (fun _ => avoids_ite (by simp) (fun _ => avoids_ok _))))

theorem checkRevocation_avoids (keys : List Key) : Avoids .panicked (checkRevocation crypto keys) :=
  avoids_ite (by simp) (fun _ => avoids_ite (by simp) (fun _ => avoids_ite (by simp) (fun _ => avoids_ok _)))

theorem checkAdmission_avoids (keys : List Key) : Avoids .panicked (checkAdmission crypto head keys) :=
  avoids_ite (by simp) (fun _ => avoids_ite (by simp) (fun _ => avoids_ite (by simp)
    (fun _ => avoids_ite (by simp) (fun _ => avoids_ok _))))

theorem admitKeys_avoids {roster keys : List Key} (sorted : StrictlySorted roster)
    (increasing : StrictlySorted keys) (fresh : ∀ key ∈ keys, key ∉ roster) :
    Avoids .panicked (admitKeys roster keys) := by
  induction keys generalizing roster with
  | nil => exact avoids_ok _
  | cons key rest ih =>
    obtain ⟨below, later⟩ := List.pairwise_cons.mp increasing
    have absent := fresh key (List.mem_cons_self ..)
    unfold admitKeys
    cases searched : binarySearch roster key with
    | ok position =>
      have found := (binarySearch_isOk_iff sorted key).mp (by rw [searched]; rfl)
      exact absurd found absent
    | error position =>
      have inserted : roster.insertIdx position key = insertAbsent roster key := by
        simp only [insertAbsent, searched]
      simp only [inserted]
      refine ih (insertAbsent_sorted sorted key) later (fun other member listed => ?_)
      rcases (mem_insertAbsent sorted key other).mp listed with rfl | old
      · exact lt_irrefl _ (below other member)
      · exact fresh other (List.mem_cons_of_mem _ member) old

theorem Head.Checked.applyBody_avoids (checked : head.Checked) (core : Core) :
    Avoids .panicked (applyBody crypto head core) := by
  unfold applyBody
  cases core.body with
  | genesis threshold keys => exact avoids_error (by simp)
  | rotation entries =>
    obtain ⟨keys, inForce, sized⟩ := checked.keys
    simp only [inForce]
    exact avoids_ok_bind (avoids_bind (rotated_avoids sized entries) (fun _ _ => avoids_ok _))
  | revocation keys => exact avoids_bind (checkRevocation_avoids keys) (fun _ _ => avoids_ok _)
  | admission keys =>
    refine avoids_bind (checkAdmission_avoids keys) (fun _ accepted => avoids_bind ?_ (fun _ _ => avoids_ok _))
    simp only [checkAdmission, ite_eq_ok_iff, Bool.not_eq_true, hasDescent_eq_false_iff,
      List.any_eq_false, Bool.or_eq_true, not_or] at accepted
    obtain ⟨_, increasing, allowed, _⟩ := accepted
    refine admitKeys_avoids checked.rosterSorted increasing (fun key member => ?_)
    rw [← binarySearch_isOk_eq_false_iff checked.rosterSorted key]
    simpa using (allowed key member).2
  | activation => exact avoids_ite (by simp) (fun _ => avoids_ok _)
  | death => exact avoids_ok _

theorem Head.Checked.applyTo_avoids (checked : head.Checked) (statement : Statement) :
    Avoids .panicked (applyTo crypto head statement) := by
  have recorded (settled : statement.core.sequence ≤ head.sequence) :
      ∃ entry, head.applied[statement.core.sequence.toNat]? = some entry :=
    ⟨_, List.getElem?_eq_getElem (checked.recorded _ settled)⟩
  unfold applyTo
  dsimp only
  split
  · unfold applyDead
    split
    · rename_i settled
      obtain ⟨entry, found⟩ := recorded settled
      simp only [found]
      split
      · exact avoids_ok _
      · exact avoids_error (by simp)
    · exact avoids_error (by simp)
  · refine avoids_ite (by simp) (fun _ => avoids_ite (by simp) (fun _ => ?_))
    split
    · rename_i settled
      obtain ⟨entry, found⟩ := recorded settled
      simp only [applySettled, found]
      split
      · exact avoids_ok _
      · refine avoids_ite (by simp) (fun afterGenesis => ?_)
        obtain ⟨keys, inForce⟩ := checked.keysBefore afterGenesis
        simp only [inForce]
        exact avoids_ok_bind (avoids_bind (checkSignatures_avoids _ _ _) (fun _ _ => avoids_ok _))
    · refine avoids_ite (by simp) (fun _ => avoids_ite (by simp) (fun _ => ?_))
      obtain ⟨keys, inForce, _⟩ := checked.keys
      simp only [applyNext, inForce]
      exact avoids_ok_bind (avoids_bind (checkSignatures_avoids _ _ _) (fun _ _ =>
        avoids_bind (checked.applyBody_avoids _) (fun _ _ => avoids_ok _)))

end Applying

section Checking

variable {crypto : Crypto} {head : Head} {challenge : Challenge}

theorem unhexLower_avoids (size : Nat) (text : String) : Avoids .panicked (unhexLower size text) := by
  unfold unhexLower
  extract_lets found
  cases found with
  | none => exact avoids_error (by simp)
  | some bytes =>
    dsimp only
    split
    · exact avoids_ok _
    · exact avoids_error (by simp)

theorem Head.Checked.verifyAnswers_avoids (checked : head.Checked) {message : List UInt8}
    {indices : List UInt8} (answers : List Answer) :
    Avoids .panicked (challenge.verifyAnswers crypto head message indices answers) := by
  induction answers generalizing indices with
  | nil => exact avoids_ok _
  | cons answer rest ih =>
    refine avoids_ite (by simp) (fun _ => avoids_ite (by simp) (fun within => ?_))
    obtain ⟨keys, inForce, sized⟩ := checked.keys
    have inside : answer.index.toNat < keys.length := by
      rw [sized]
      exact Nat.not_le.mp (fun beyond => within (.inl beyond))
    have found : Challenge.keyAt head answer.index = .ok (keys.get ⟨_, inside⟩) := by
      simp [Challenge.keyAt, inForce, List.getElem?_eq_getElem inside]
    rw [found]
    exact avoids_ok_bind (avoids_ite (by simp) (fun _ => avoids_bind (unhexLower_avoids 64 _)
      (fun _ _ => avoids_ite (by simp) (fun _ => ih))))

theorem Head.Checked.verify_avoids (checked : head.Checked) (answers : List Answer) :
    Avoids .panicked (challenge.verify crypto head answers) := by
  refine avoids_bind ?_ (fun _ _ => avoids_ite (by simp) (fun _ =>
    avoids_bind (checked.verifyAnswers_avoids answers) (fun _ _ => avoids_ok _)))
  exact avoids_ite (by simp) (fun _ => avoids_bind (unhexLower_avoids 32 _)
    (fun _ _ => avoids_bind (unhexLower_avoids 32 _) (fun _ _ => avoids_ok _)))

end Checking

section Answering

variable {crypto : Crypto} {head : Head} {den : Storage.Den}

/-- The walk over the archive with the indexing of the source,
`head.applied[sequence as usize]`. -/
def walkArchive (crypto : Crypto) (den : Storage.Den) (head : Head) : List Nat → Except Failure (List Statement)
  | [] => .ok []
  | sequence :: rest =>
      match Control.readArchive den (UInt64.ofNat sequence) with
      | none => .ok []
      | some statement =>
          match head.applied[sequence]? with
          | none => .error .panicked
          | some recorded =>
              if statement.core.hash crypto ≠ recorded then .ok []
              else (walkArchive crypto den head rest).map (statement :: ·)

theorem walkArchive_eq (sequences : List Nat) (recorded : ∀ sequence ∈ sequences, sequence < head.applied.length) :
    walkArchive crypto den head sequences = .ok (Control.recordsOf crypto den head sequences) := by
  induction sequences with
  | nil => rfl
  | cons sequence rest ih =>
    have later := ih (fun other member => recorded other (List.mem_cons_of_mem _ member))
    have inside := recorded sequence (List.mem_cons_self ..)
    unfold walkArchive Control.recordsOf
    cases Control.readArchive den (UInt64.ofNat sequence) with
    | none => rfl
    | some statement =>
      simp only [List.getElem?_eq_getElem inside, later, Option.some.injEq]
      by_cases same : statement.core.hash crypto = head.applied[sequence]
      · simp [same, Except.map]
      · simp [same, Ne.symm same]

def walkRecords (crypto : Crypto) (den : Storage.Den) (head : Head) (headHash : Hash)
    (count : UInt8) : Except Failure (List Statement) :=
  match head.applied.findIdx? (· = headHash) with
  | none => .ok []
  | some position => walkArchive crypto den head
      ((List.range' (position + 1) (head.sequence.toNat - position)).take count.toNat)

theorem Head.Checked.walkRecords_eq (checked : head.Checked) (headHash : Hash) (count : UInt8) :
    walkRecords crypto den head headHash count =
      .ok (Control.governanceRecords crypto den (some head) headHash count) := by
  unfold walkRecords Control.governanceRecords
  dsimp only
  cases head.applied.findIdx? (· = headHash) with
  | none => rfl
  | some position =>
    refine walkArchive_eq _ (fun sequence member => ?_)
    have listed := List.mem_range'_1.mp (List.mem_of_mem_take member)
    have settled := checked.recorded head.sequence (UInt64.le_refl _)
    omega

/-- A vector has fewer entries than a machine word counts, so the sums of the
source do not wrap. -/
theorem Head.Checked.no_overflow (checked : head.Checked) (word : head.applied.length < 2 ^ 64) :
    head.sequence.toNat + 1 < 2 ^ 64 ∧ ∀ headHash position, head.applied.findIdx? (· = headHash) = some position →
        position + 1 < 2 ^ 64 := by
  have settled := checked.recorded head.sequence (UInt64.le_refl _)
  refine ⟨by omega, fun headHash position found => ?_⟩
  have inside := (List.findIdx?_eq_some_iff_getElem.mp found).1
  omega

end Answering

/-- No statement, peer or challenge makes the daemon index out of range, fail an
`expect` or wrap a sum, whichever way it came by its head. `apply` looks for the
keys before a sequence only past the genesis. -/
theorem known_head_is_safe (crypto : Crypto) (head : Head) (known : head.Known crypto) :
    (∀ statement pin, apply crypto (some head) statement pin ≠ .error .panicked) ∧
    (∀ sequence, sequence ≠ 0 → ∃ keys, head.keysBefore sequence = .ok keys) ∧
    (∀ den headHash count, walkRecords crypto den head headHash count =
      .ok (Control.governanceRecords crypto den (some head) headHash count)) ∧
    (∀ (challenge : Challenge) answers, challenge.verify crypto head answers ≠ .error .panicked) ∧
    (head.applied.length < 2 ^ 64 → head.sequence.toNat + 1 < 2 ^ 64 ∧
      ∀ headHash position, head.applied.findIdx? (· = headHash) = some position → position + 1 < 2 ^ 64) := by
  have checked := known.checked
  exact ⟨fun statement _ => checked.applyTo_avoids statement,
    fun _ afterGenesis => checked.keysBefore afterGenesis,
    fun _ headHash count => checked.walkRecords_eq headHash count,
    fun _ answers => checked.verify_avoids answers, checked.no_overflow⟩

theorem rotated_head_is_safe : ∃ head, history Sample.crypto rotatedRun = some head ∧
      ∀ statement pin, apply Sample.crypto (some head) statement pin ≠ .error .panicked := by
  have reached : history Sample.crypto rotatedRun =
      some ((history Sample.crypto rotatedRun).get (by decide +kernel)) := by simp
  exact ⟨_, reached, (known_head_is_safe _ _ (.reached reached)).1⟩

end Werewolf.Governance
