import Werewolf.Terminal.Tombstone

/-! Whatever Tombstone this code makes is written within the limit and read back.
The limit also keeps the count of its signatures from being cut short. -/

namespace Werewolf.Terminal
open Library Governance
open Json hiding key number
open Control (Tombstone Destruction checkSoftware tombstoneMaxLen)

/-- A Tombstone that one of the three functions returned. -/
inductive Returned (outside : Outside) (tombstone : Tombstone) : Prop where
  | death {statement : Statement} {destruction : Destruction} {software : String}
      (made : death outside statement destruction software = some tombstone)
  | retirement {destruction : Destruction} {software : String}
      (made : retirement outside destruction software = some tombstone)
  | parsed {bytes : List UInt8} (read : parse outside bytes = some tombstone)

/-- The bytes are those of the Tombstone, and say of its network what its own death
statement says. -/
structure Written (outside : Outside) (tombstone : Tombstone) (bytes : List UInt8) : Prop where
  encoded : encode outside tombstone = some bytes
  short : bytes.length ≤ 8 * 1024
  read : parse outside bytes = some tombstone
  consistent : ∃ doc, outside.readDocument bytes = some doc ∧
    toVec documentCodec doc = bytes ∧
    doc.networkId = tombstone.death.map (fun statement => hex statement.core.networkId.val) ∧
    doc.terminalSequence = tombstone.death.map (fun statement => statement.core.sequence) ∧
    doc.terminalHash = tombstone.death.map (fun statement =>
      hex (statement.core.hash outside.toCrypto).val) ∧
    doc.deathStatement = tombstone.death.map (fun statement =>
      outside.base64Encode statement.encode) ∧
    ∀ statement, tombstone.death = some statement → statement.core.body = .death

section Writing

variable {outside : Outside} {tombstone : Tombstone} {bytes : List UInt8}

theorem decode_of_encoded (base64 : Base64.Standard outside.base64Encode outside.base64Decode)
    (written : encode outside tombstone = some bytes) {statement : Statement}
    (dead : tombstone.death = some statement) (body : statement.core.body = .death) :
    Statement.decode statement.encode = .ok statement := by
  obtain ⟨printed, short⟩ := encode_eq_some.mp written
  obtain ⟨before, after, text⟩ := toVec_document outside tombstone
  have labels : (toVec string (label .incomplete)).length ≤
      (toVec string (label tombstone.destruction)).length + 2 := by
    cases tombstone.destruction <;> decide +kernel
  have whole := congrArg List.length (text .incomplete)
  have own := congrArg List.length (text tombstone.destruction)
  rw [show ({ tombstone with destruction := tombstone.destruction } : Tombstone) = tombstone from rfl, printed] at own
  rw [show ({ tombstone with destruction := .incomplete } : Tombstone) =
    ⟨some statement, .incomplete, tombstone.software⟩ by rw [← dead],
    length_document_death, base64.length_toVec] at whole
  have size := statement.length_encode
  simp only [List.length_append, tombstoneMaxLen] at whole own short
  have few : statement.signatures.length < 2 ^ 8 := by omega
  refine Statement.decode_encode ⟨?_, ?_, few⟩ ?_
  · rw [body]
    trivial
  · rw [body]
    decide
  · simp only [maxStatementLen]
    omega

theorem length_document_retirement (destruction : Destruction) (software : String) :
    (toVec documentCodec (document outside ⟨none, destruction, software⟩)).length ≤
      (toVec string software).length + 200 := by
  have texts : (toVec string format).length = 20 ∧
      (toVec u8 1).length = 1 ∧ (toVec string "retirement").length = 12 := by
    decide +kernel
  have labels : (toVec string (label destruction)).length ≤ 12 := by
    cases destruction <;> decide +kernel
  have keys : keyBytes "format" + keyBytes "version" + keyBytes "kind" +
      keyBytes "destruction" + keyBytes "software" ≤ 100 := by decide +kernel
  have printed : toVec documentCodec (document outside ⟨none, destruction, software⟩) =
      toVec (object (fields leadingFields (fields
        (field "destruction" string) (field "software" string))))
        ((((((format, 1, "retirement"), none), none), none), none), label destruction,
          software) := rfl
  rw [printed]
  simp only [leadingFields, length_toVec_object, length_toVec_fields,
    length_toVec_field, length_toVec_optionalField, Option.elim_none]
  omega

theorem encode_retirement {destruction : Destruction} {software : String} (checked : checkSoftware software = true) :
    ∃ bytes, encode outside ⟨none, destruction, software⟩ = some bytes := by
  have bounded := @length_document_retirement outside destruction software
  have nameText := length_toVec_string_le software
  simp only [checkSoftware, Control.maxSoftwareLen, Bool.and_eq_true, decide_eq_true_eq] at checked
  have named := (length_le_byteLength software).trans (of_decide_eq_true checked.1.2)
  refine ⟨_, encode_of_fits ?_⟩
  simp only [tombstoneMaxLen]
  omega

end Writing

section Returning

variable {outside : Outside} {tombstone : Tombstone} {bytes : List UInt8}
  (base64 : Base64.Standard outside.base64Encode outside.base64Decode)
  (readBack : ∀ doc, outside.readDocument (toVec documentCodec doc) = some doc)

include base64 in
theorem Returned.encoded (returned : Returned outside tombstone) :
    Made tombstone ∧ ∃ bytes, encode outside tombstone = some bytes := by
  cases returned with
  | death made =>
    obtain ⟨body, checked, rfl, bytes, written⟩ := death_eq_some.mp made
    refine ⟨⟨checked, ?_⟩, bytes, written⟩
    rintro statement ⟨⟩
    exact ⟨body, decode_of_encoded base64 written rfl body⟩
  | retirement made =>
    simp only [Terminal.retirement, Tombstone.retirement, bind_eq_some, Authority.require_eq_some,
      return_eq_some] at made
    obtain ⟨_, checked, rfl⟩ := made
    exact ⟨⟨checked, fun _ dead => by cases dead⟩, encode_retirement checked⟩
  | parsed read =>
    obtain ⟨made, written⟩ := parse_made read
    exact ⟨made, _, written⟩

include base64 readBack in
theorem Made.written (made : Made tombstone) (encoded : encode outside tombstone = some bytes) :
    Written outside tombstone bytes := by
  obtain ⟨printed, short⟩ := encode_eq_some.mp encoded
  refine ⟨encoded, short, parse_encode base64 readBack made encoded,
    document outside tombstone, ?_, printed, rfl, rfl, rfl, rfl,
    fun statement dead => (made.death statement dead).1⟩
  rw [← printed]
  exact readBack _

end Returning

/-- Every Tombstone that this code makes is written within the limit and read back,
and nothing else is read. Completing a destruction keeps that, and so does taking a
death that was applied back to incomplete. -/
theorem tombstone_has_one_encoding (outside : Outside)
    (base64 : Base64.Standard outside.base64Encode outside.base64Decode)
    (readBack : ∀ doc, outside.readDocument (toVec documentCodec doc) = some doc) :
    (∀ tombstone, Returned outside tombstone → ∃ bytes, Written outside tombstone bytes) ∧
    (∀ bytes tombstone, parse outside bytes = some tombstone → Written outside tombstone bytes) ∧
    (∀ tombstone, Returned outside tombstone → tombstone.destruction = .incomplete →
      ∃ bytes, Written outside { tombstone with destruction := .complete } bytes) ∧
    ∀ tombstone statement, Returned outside tombstone → tombstone.death = some statement →
      Accepted outside.toCrypto statement →
        ∃ bytes, Written outside { tombstone with destruction := .incomplete } bytes := by
  refine ⟨?_, ?_, ?_, ?_⟩
  · intro tombstone returned
    obtain ⟨made, bytes, encoded⟩ := returned.encoded base64
    exact ⟨bytes, made.written base64 readBack encoded⟩
  · intro bytes tombstone read
    obtain ⟨made, encoded⟩ := parse_made read
    exact made.written base64 readBack encoded
  · intro tombstone returned incomplete
    obtain ⟨made, bytes, encoded⟩ := returned.encoded base64
    rw [show tombstone = { tombstone with destruction := .incomplete } by rw [← incomplete]] at encoded
    obtain ⟨text, completed⟩ := encode_complete encoded
    exact ⟨text, (made.marked .complete).written base64 readBack completed⟩
  · intro tombstone statement returned dead accepted
    obtain ⟨made, _⟩ := returned.encoded base64
    obtain ⟨built, fits⟩ := death_fits base64 (made.death statement dead).1
      accepted.short.signatures made.software .incomplete
    obtain ⟨_, _, rfl, bytes, encoded⟩ := death_eq_some.mp fits
    rw [← dead] at encoded
    exact ⟨bytes, (made.marked .incomplete).written base64 readBack encoded⟩

namespace Sample

/-- The death of a network whose keys were rotated once. -/
def ended : Statement := Governance.Sample.signedWith 0
  (Governance.Sample.following Governance.Sample.rotation .death)

theorem ended_accepted : Accepted Sample.outside.toCrypto ended := by
  have applied : (history Sample.outside.toCrypto (Governance.Sample.rotatedRun ++ [(ended, none)])).any
      (fun next => apply Sample.outside.toCrypto (history Sample.outside.toCrypto
        Governance.Sample.rotatedRun) ended none = .ok (.applied next)) = true := by decide +kernel
  obtain ⟨next, _, accepted⟩ := (Option.any_eq_true _ _).mp applied
  exact ⟨_, _, next, of_decide_eq_true accepted⟩

theorem death_ended : death Sample.outside ended .complete "sample" = some ⟨some ended, .complete, "sample"⟩ := by
  have checked : checkSoftware "sample" = true := by decide +kernel
  obtain ⟨_, made⟩ := death_fits Sample.faithful.base64 (show ended.core.body = .death from rfl)
    (by decide) checked .complete
  obtain ⟨_, _, rfl, _⟩ := death_eq_some.mp made
  exact made

end Sample

/-- A retirement that is completed, and a completed death that is taken back. -/
theorem completed_retirement_is_written :
    (∃ bytes, Written Sample.outside ⟨none, .complete, "sample"⟩ bytes) ∧
      ∃ bytes, Written Sample.outside ⟨some Sample.ended, .incomplete, "sample"⟩ bytes := by
  obtain ⟨_, _, completed, reverted⟩ :=
    tombstone_has_one_encoding Sample.outside Sample.faithful.base64 Sample.faithful.document
  have returned : Returned Sample.outside ⟨none, .incomplete, "sample"⟩ :=
    @Returned.retirement _ _ .incomplete "sample" (by decide +kernel)
  exact ⟨completed _ returned rfl, reverted _ Sample.ended (.death Sample.death_ended) rfl Sample.ended_accepted⟩

end Werewolf.Terminal
