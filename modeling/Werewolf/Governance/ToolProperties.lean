import Werewolf.Governance.Commitment
import Werewolf.Governance.DocumentProperties
import Werewolf.Governance.Tool
import Werewolf.Library.Base64

/-! Statements made with the offline tool are those that a node accepts: the
parts of enough holders combine in any order, and a chain is replayed as a node
applies it. -/

namespace Werewolf.Governance
open Library

section Combining

variable {crypto : Crypto} {draft statement : Statement} {parts : List Part} {hash : String}

theorem Part.read_ok {part : Part} {entry : UInt8 × Signature} (read : part.read hash = .ok entry) :
    part.hash = hash ∧ entry.1 = part.index := by
  simp only [Part.read, ite_eq_ok_iff, bind_eq_ok, return_eq_ok, not_or, not_not] at read
  obtain ⟨⟨_, same⟩, _, _, rfl⟩ := read
  exact ⟨same, rfl⟩

theorem combine_ok_iff : combine crypto draft parts = .ok statement ↔ ∃ signatures, List.Forall₂ (fun part entry =>
        part.read (hex (draft.core.hash crypto).val) = .ok entry) parts signatures ∧
      (signatures.map Prod.fst).Nodup ∧ ⟨draft.core, sortOn Prod.fst signatures⟩ = statement := by
  simp only [combine, bind_eq_ok, mapM_eq_ok_iff, ite_eq_ok_iff, return_eq_ok,
    Bool.not_eq_true, hasTwin_sortOn]

theorem indices_of_read {signatures : List (UInt8 × Signature)}
    (read : List.Forall₂ (fun part entry => Part.read hash part = .ok entry) parts signatures) :
    signatures.map Prod.fst = parts.map Part.index := by
  induction read with
  | nil => rfl
  | cons first _ ih => rw [List.map_cons, List.map_cons, ih, (Part.read_ok first).2]

theorem hash_of_read {signatures : List (UInt8 × Signature)}
    (read : List.Forall₂ (fun part entry => Part.read hash part = .ok entry) parts signatures) :
    ∀ part ∈ parts, part.hash = hash := by
  induction read with
  | nil => exact fun _ member => (nomatch member)
  | cons first _ ih => exact List.forall_mem_cons.mpr ⟨(Part.read_ok first).1, ih⟩

theorem combine_perm {others : List Part} (permuted : parts.Perm others)
    (combined : combine crypto draft parts = .ok statement) :
    combine crypto draft others = .ok statement := by
  obtain ⟨signatures, read, distinct, rfl⟩ := combine_ok_iff.mp combined
  obtain ⟨reordered, readOthers, same⟩ := List.perm_comp_forall₂ permuted.symm read
  refine combine_ok_iff.mpr ⟨reordered, readOthers, (same.map _).nodup_iff.mpr distinct, ?_⟩
  rw [sortOn_eq_of_perm same.symm distinct]

end Combining

section Signing

variable {tooling : Tooling} {draft : Statement} {keys : List Key} {part : Part} {parts : List Part}

structure MadeBy (tooling : Tooling) (draft : Statement) (keys : List Key) (part : Part) :
    Prop where
  signed : ∃ file secret, readKeyFile tooling file = .ok secret ∧
    keys[part.index.toNat]? = some (tooling.verifyingKey secret) ∧
    signPart tooling draft file part.index = .ok part

theorem MadeBy.read (signs : tooling.Signs) (made : MadeBy tooling draft keys part) :
    ∃ entry key, part.read (hex (draft.core.hash tooling.toCrypto).val) = .ok entry ∧
      keys[entry.1.toNat]? = some key ∧
      tooling.verifyStrict key draft.core.signingInput entry.2 = true := by
  obtain ⟨file, secret, opened, inForce, signed⟩ := made.signed
  simp only [signPart, opened, ite_eq_ok_iff, bind_eq_ok, return_eq_ok,
    Except.ok.injEq, exists_eq_left'] at signed
  obtain ⟨_, shape⟩ := signed
  refine ⟨(part.index, tooling.sign secret draft.core.signingInput),
    tooling.verifyingKey secret, ?_, inForce, signs secret _⟩
  have version : part.version = 1 := congrArg Part.version shape.symm
  have hash : part.hash = hex (draft.core.hash tooling.toCrypto).val :=
    congrArg Part.hash shape.symm
  have signature : part.signature = hex (tooling.sign secret draft.core.signingInput).val :=
    congrArg Part.signature shape.symm
  simp only [Part.read, version, hash, signature, unhexSignature, unhex_hex, ne_eq, not_true, or_self, ↓reduceIte]
  rfl

theorem exists_signatures (signs : tooling.Signs) (made : ∀ part ∈ parts, MadeBy tooling draft keys part) :
    ∃ signatures, List.Forall₂ (fun part entry =>
        Part.read (hex (draft.core.hash tooling.toCrypto).val) part = .ok entry)
        parts signatures ∧
      ∀ entry ∈ signatures, ∃ key, keys[entry.1.toNat]? = some key ∧
        tooling.verifyStrict key draft.core.signingInput entry.2 = true := by
  induction parts with
  | nil => exact ⟨[], .nil, fun _ member => (nomatch member)⟩
  | cons part rest ih =>
    obtain ⟨entry, key, read, found, verified⟩ := (made part List.mem_cons_self).read signs
    obtain ⟨signatures, others, valid⟩ :=
      ih (fun other member => made other (List.mem_cons_of_mem part member))
    refine ⟨entry :: signatures, .cons read others, ?_⟩
    intro other member
    cases member with
    | head => exact ⟨key, found, verified⟩
    | tail _ later => exact valid other later

theorem combine_signedBy (signs : tooling.Signs) {threshold : Nat}
    (made : ∀ part ∈ parts, MadeBy tooling draft keys part) (enough : threshold ≤ parts.length)
    (distinct : (parts.map Part.index).Nodup) :
    ∃ statement, combine tooling.toCrypto draft parts = .ok statement ∧
      statement.core = draft.core ∧ SignedBy tooling.toCrypto keys threshold statement := by
  obtain ⟨signatures, read, valid⟩ := exists_signatures signs made
  have single : (signatures.map Prod.fst).Nodup := indices_of_read read ▸ distinct
  have permuted := sortOn_perm Prod.fst signatures
  refine ⟨_, combine_ok_iff.mpr ⟨signatures, read, single, rfl⟩, rfl, ?_, ?_, ?_⟩
  · show threshold ≤ (sortOn Prod.fst signatures).length
    rw [permuted.length_eq, ← read.length_eq]
    exact enough
  · exact pairwise_lt_of_hasTwin (sortOn_sorted _ _) (hasTwin_sortOn.mpr single)
  · exact fun entry member => valid entry (permuted.mem_iff.mp member)

theorem combine_foreign {other : Statement} {file : KeyFile} {index : UInt8}
    (collisionFree : CollisionFreeOn tooling.toCrypto {draft.core, other.core}) (different : other.core ≠ draft.core)
    (signed : signPart tooling other file index = .ok part) (member : part ∈ parts) (statement : Statement) :
    combine tooling.toCrypto draft parts ≠ .ok statement := by
  intro combined
  obtain ⟨signatures, read, _, _⟩ := combine_ok_iff.mp combined
  have named := hash_of_read read part member
  simp only [signPart, ite_eq_ok_iff, bind_eq_ok, return_eq_ok] at signed
  obtain ⟨_, _, _, rfl⟩ := signed
  have hashes : unhex 32 (hex (other.core.hash tooling.toCrypto).val) =
      unhex 32 (hex (draft.core.hash tooling.toCrypto).val) :=
    congrArg (unhex 32) named
  rw [unhex_hex, unhex_hex] at hashes
  exact different (collisionFree.eq_of_hash (by simp) (by simp) (Option.some.inj hashes))

theorem combine_repeated {crypto : Crypto} (repeated : ¬ (parts.map Part.index).Nodup) (statement : Statement) :
    combine crypto draft parts ≠ .ok statement := by
  intro combined
  obtain ⟨signatures, read, distinct, _⟩ := combine_ok_iff.mp combined
  exact repeated (indices_of_read read ▸ distinct)

end Signing

section Drafting

variable {presentations : List Presentation}

/-- What `apply` asks of the next statement besides its signatures: the number
after the head's, and a body that meets the rules. -/
structure Allows (crypto : Crypto) (head : Head) (body : Body) : Prop where
  sequence : head.sequence.toNat + 1 < 2 ^ 64
  body : ∃ effect,
    applyBody crypto head ⟨head.networkId, head.sequence + 1, head.hash, body⟩ = .ok effect

theorem draftAfter_core {crypto : Crypto} {head : Head} {previous : Statement}
    (reached : history crypto presentations = some head)
    (collisionFree : CollisionFreeOn crypto (insert previous.core (presentedCores presentations)))
    (last : previous.core.hash crypto = head.hash) (body : Body) :
    (draftAfter crypto previous body).core = ⟨head.networkId, head.sequence + 1, head.hash, body.normalized⟩ := by
  obtain ⟨core, member, hash, sequence, network⟩ := history_last reached
  have same : previous.core = core := collisionFree.eq_of_hash (Set.mem_insert _ _)
    (Set.mem_insert_of_mem _ member) (last.trans hash.symm)
  subst same
  rw [draftAfter, unsigned, sequence, network, hash]

theorem drafted_applies {tooling : Tooling} (signs : tooling.Signs) {head : Head} {previous : Statement} {body : Body}
    {keys : List Key} {parts : List Part} (reached : history tooling.toCrypto presentations = some head)
    (unforked : head.forked = false) (alive : head.deadAt = none) (collisionFree : CollisionFreeOn tooling.toCrypto
      (insert previous.core (presentedCores presentations))) (last : previous.core.hash tooling.toCrypto = head.hash)
    (allows : Allows tooling.toCrypto head body.normalized) (inForce : head.keys = .ok keys)
    (made : ∀ part ∈ parts, MadeBy tooling (draftAfter tooling.toCrypto previous body) keys part)
    (enough : thresholdCount ≤ parts.length) (distinct : (parts.map Part.index).Nodup) :
    ∃ statement next, combine tooling.toCrypto (draftAfter tooling.toCrypto previous body) parts = .ok statement ∧
      statement.core.body = body.normalized ∧
      ∀ pin, apply tooling.toCrypto (some head) statement pin = .ok (.applied next) := by
  obtain ⟨statement, combined, core, signed⟩ := combine_signedBy signs made enough distinct
  rw [draftAfter_core reached collisionFree last body] at core
  obtain ⟨effect, accepted⟩ := allows.body
  have wellFormed := history_wellFormed reached
  have keySet : KeySet tooling.toCrypto keys := by
    obtain ⟨_, _, known, keySet⟩ := wellFormed.keys
    cases inForce.symm.trans known
    exact keySet
  have checked : checkSignatures tooling.toCrypto statement keys head.threshold.toNat = .ok () := by
    rw [wellFormed.threshold]
    exact (checkSignatures_ok_iff keySet.strong _ _).mpr signed
  have advances : Advances tooling.toCrypto head statement keys effect := by
    refine ⟨alive, fun fenced => ?_, ?_, ?_, ?_, inForce, checked, ?_⟩
    · cases unforked.symm.trans fenced
    · rw [core]
    · rw [core, UInt64.toNat_add]
      exact Nat.mod_eq_of_lt allows.sequence
    · rw [core]
    · rw [core]
      exact accepted
  exact ⟨statement, _, combined, by rw [core], fun _ => advances.applyTo⟩

theorem replayFrom_run {crypto : Crypto} {expectGenesis : Hash} {final : Option Head} :
    ∀ {presentations : List Presentation} {head : Option Head},
      (head = none → ∀ first ∈ presentations.head?, first.2 = some expectGenesis) →
      replayFrom crypto expectGenesis head (presentations.map Prod.fst) = .ok final →
      run (present crypto) head presentations = final := by
  intro presentations
  induction presentations with
  | nil =>
    rintro head _ ⟨⟩
    rfl
  | cons presentation rest ih =>
    obtain ⟨statement, pin⟩ := presentation
    intro head pinned replayed
    have same : apply crypto head statement pin =
        apply crypto head statement (some expectGenesis) := by
      cases head with
      | none => rw [show pin = some expectGenesis from pinned rfl _ rfl]
      | some head => rfl
    rw [run_cons, present, same]
    simp only [List.map_cons, replayFrom] at replayed
    cases outcome : apply crypto head statement (some expectGenesis) with
    | error failure => simp [outcome] at replayed
    | ok result =>
      rw [outcome] at replayed
      cases result with
      | applied next => exact ih (fun none => (by cases none)) replayed
      | fork fenced => cases replayed
      | alreadyApplied =>
        cases head with
        | none =>
          obtain ⟨_, _, _, started⟩ := applyGenesis_ok_iff.mp outcome
          cases started
        | some head => exact ih (fun none => (by cases none)) replayed

theorem replay_history {crypto : Crypto} {expectGenesis : Hash} {head : Head}
    (pinned : ∀ first ∈ presentations.head?, first.2 = some expectGenesis)
    (replayed : replay crypto (presentations.map Prod.fst) expectGenesis = .ok head) :
    history crypto presentations = some head := by
  simp only [replay, bind_eq_ok] at replayed
  obtain ⟨final, walked, ended⟩ := replayed
  cases final with
  | none => cases ended
  | some final =>
    cases ended
    exact replayFrom_run (fun _ => pinned) walked

/-- What the tool makes of a draft and of a chain is what a node makes of them. -/
theorem tool_agrees_with_node {tooling : Tooling} (signs : tooling.Signs) :
    (∀ {presentations : List Presentation} {head : Head} {previous : Statement} {body : Body}
      {keys : List Key} {parts : List Part},
      history tooling.toCrypto presentations = some head → head.forked = false →
      head.deadAt = none →
      CollisionFreeOn tooling.toCrypto (insert previous.core (presentedCores presentations)) →
      previous.core.hash tooling.toCrypto = head.hash →
      Allows tooling.toCrypto head body.normalized → head.keys = .ok keys →
      (∀ part ∈ parts, MadeBy tooling (draftAfter tooling.toCrypto previous body) keys part) →
      thresholdCount ≤ parts.length → (parts.map Part.index).Nodup →
      ∃ statement next, combine tooling.toCrypto (draftAfter tooling.toCrypto previous body) parts = .ok statement ∧
        statement.core.body = body.normalized ∧
        ∀ pin, apply tooling.toCrypto (some head) statement pin = .ok (.applied next)) ∧
    (∀ {draft statement : Statement} {parts others : List Part}, parts.Perm others →
      (combine tooling.toCrypto draft parts = .ok statement ↔
        combine tooling.toCrypto draft others = .ok statement)) ∧
    (∀ {draft other statement : Statement} {file : KeyFile} {index : UInt8} {part : Part}
      {parts : List Part}, CollisionFreeOn tooling.toCrypto {draft.core, other.core} →
      other.core ≠ draft.core → signPart tooling other file index = .ok part → part ∈ parts →
      combine tooling.toCrypto draft parts ≠ .ok statement) ∧
    (∀ {draft statement : Statement} {parts : List Part}, ¬ (parts.map Part.index).Nodup →
      combine tooling.toCrypto draft parts ≠ .ok statement) ∧
    (∀ {presentations : List Presentation} {expectGenesis : Hash} {head : Head},
      (∀ first ∈ presentations.head?, first.2 = some expectGenesis) →
      replay tooling.toCrypto (presentations.map Prod.fst) expectGenesis = .ok head →
      history tooling.toCrypto presentations = some head) := by
  refine ⟨fun reached unforked alive collisionFree last allows inForce made enough distinct =>
      drafted_applies signs reached unforked alive collisionFree last allows inForce made enough
        distinct, fun permuted => ⟨combine_perm permuted, combine_perm permuted.symm⟩,
    fun collisionFree different signed member =>
      combine_foreign collisionFree different signed member _,
    fun repeated => combine_repeated repeated _, fun pinned => replay_history pinned⟩

end Drafting

private theorem exists_of_isOk {ε α : Type} {result : Except ε α} (succeeds : result.isOk = true) :
    ∃ value, result = .ok value := by
  cases result with
  | error error => cases succeeds
  | ok value => exact ⟨value, rfl⟩

namespace Sample

def tooling : Tooling where
  toCrypto := crypto
  verifyingKey := id
  sign key _ := ⟨key.1 ++ List.replicate 32 0, by simp [key.2]⟩
  base64Encode := Base64.encode
  base64Decode := Base64.decode

def keyFile (tag : UInt8) : KeyFile :=
  ⟨0o600, 1, keyType, Base64.encode (key tag).val, Base64.encode (key tag).val⟩

def revocationDraft : Statement :=
  draftAfter crypto (signedWith 0 genesis) (.revocation [key 21, key 20, key 21])

def holders : List UInt8 := [8, 0, 5, 1, 9, 2, 3]

def part (tag : UInt8) : Part where
  version := 1
  hash := hex (revocationDraft.core.hash crypto).val
  index := tag
  signature := hex (signature tag 0).val

theorem part_signed : ∀ tag ∈ holders, readKeyFile tooling (keyFile tag) = .ok (key tag) ∧
      keys[tag.toNat]? = some (key tag) ∧
      signPart tooling revocationDraft (keyFile tag) tag = .ok (part tag) := by
  decide +kernel

end Sample

open Sample

/-- Seven holders out of order revoke two keys. -/
theorem revocation_ceremony_applies : ∃ statement next,
      combine Sample.crypto revocationDraft (holders.map Sample.part) = .ok statement ∧
      statement.core.body = .revocation [Sample.key 20, Sample.key 21] ∧
      ∀ pin, apply Sample.crypto (history Sample.crypto Sample.started) statement pin = .ok (.applied next) := by
  have signs : Sample.tooling.Signs := fun secret _ => by
    simp [Sample.tooling, Sample.crypto, secret.2]
  have reached : history Sample.tooling.toCrypto Sample.started =
      some ((history Sample.crypto Sample.started).get (by decide +kernel)) := by
    simp [Sample.tooling]
  have collisionFree : CollisionFreeOn Sample.tooling.toCrypto
      (insert (signedWith 0 Sample.genesis).core (presentedCores Sample.started)) := by
    refine collisionFreeOn_of_nodup (show ([Sample.genesis].map
      (Core.hash Sample.tooling.toCrypto)).Nodup from List.nodup_singleton _) ?_
    rintro core (rfl | ⟨presentation, member, rfl⟩)
    · exact List.mem_cons_self
    · cases List.mem_singleton.mp member
      exact List.mem_cons_self
  have normalized : (Body.revocation [Sample.key 21, Sample.key 20, Sample.key 21]).normalized =
      .revocation [Sample.key 20, Sample.key 21] := by decide +kernel
  have made : ∀ part ∈ holders.map Sample.part, MadeBy Sample.tooling revocationDraft Sample.keys part := by
    intro part member
    obtain ⟨tag, listed, rfl⟩ := List.mem_map.mp member
    obtain ⟨opened, inForce, signed⟩ := part_signed tag listed
    exact ⟨keyFile tag, Sample.key tag, opened, inForce, signed⟩
  have applies := (tool_agrees_with_node signs).1 reached (by decide +kernel) (by decide +kernel)
    collisionFree (by decide +kernel) ⟨by decide +kernel, ?_⟩ (by decide +kernel) made
    (by decide) (by decide +kernel)
  · rw [normalized, ← reached] at applies
    exact applies
  · rw [normalized]
    exact exists_of_isOk (by decide +kernel)

end Werewolf.Governance
