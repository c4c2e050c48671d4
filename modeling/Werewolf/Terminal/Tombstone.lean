import Werewolf.Control.SampleHost
import Werewolf.Governance.SizeProperties
import Werewolf.Library.Base64

/-! The text of a Tombstone. It has one encoding, and only that is read back. A
Tombstone that could be written as incomplete can be written as complete. -/

namespace Werewolf.Terminal
open Library Governance
open Json hiding key number
open Control (Host Tombstone Destruction checkSoftware tombstoneMaxLen)

/-- The form of a Tombstone on disk, with the fields in their order. -/
structure Document where
  format : String
  version : UInt8
  kind : String
  networkId : Option String
  terminalSequence : Option UInt64
  terminalHash : Option String
  deathStatement : Option String
  destruction : String
  software : String
  deriving DecidableEq

def leadingFields : Codec (((((String × UInt8 × String) × Option String) × Option UInt64) ×
    Option String) × Option String) :=
  optionalField (optionalField (optionalField (optionalField
    (fields (field "format" string)
      (fields (field "version" u8) (field "kind" string)))
    "network_id" string) "terminal_sequence" u64) "terminal_hash" string)
    "death_statement" string

def documentCodec : Codec Document :=
  (object (fields leadingFields
    (fields (field "destruction" string) (field "software" string)))).imap
    (fun doc => (((((((doc.format, doc.version, doc.kind), doc.networkId), doc.terminalSequence),
      doc.terminalHash), doc.deathStatement), doc.destruction, doc.software)))
    (fun (((((((format, version, kind), networkId), terminalSequence), terminalHash),
      deathStatement), destruction, software)) =>
      some ⟨format, version, kind, networkId, terminalSequence, terminalHash, deathStatement, destruction, software⟩)

/-- What the end of a node takes from outside the repository, besides the needs
of a start: `serde_json::from_slice` at the document. -/
structure Outside extends Host where
  readDocument : List UInt8 → Option Document

/-- What is assumed of it: Base64 is the standard one, the document is read back
as it was written, and the build has a name that a Tombstone can hold. -/
structure Outside.Faithful (outside : Outside) : Prop where
  base64 : Base64.Standard outside.base64Encode outside.base64Decode
  document : ∀ doc, outside.readDocument (toVec documentCodec doc) = some doc
  software : checkSoftware outside.software = true

def format : String := "werewolf-tombstone"

def label : Destruction → String
  | .incomplete => "incomplete"
  | .complete => "complete"

def readDestruction (text : String) : Option Destruction :=
  if text = "incomplete" then some .incomplete
  else if text = "complete" then some .complete
  else none

section Texts

variable (outside : Outside)

def document (tombstone : Tombstone) : Document where
  format := format
  version := 1
  kind := if tombstone.death.isSome then "death" else "retirement"
  networkId := tombstone.death.map (fun statement => hex statement.core.networkId.val)
  terminalSequence := tombstone.death.map (fun statement => statement.core.sequence)
  terminalHash := tombstone.death.map (fun statement =>
    hex (statement.core.hash outside.toCrypto).val)
  deathStatement := tombstone.death.map (fun statement => outside.base64Encode statement.encode)
  destruction := label tombstone.destruction
  software := tombstone.software

/-- The host, with the text of a Tombstone written out. -/
def Outside.writing (software : String) : Host :=
  { outside.toHost with
    tombstoneText := fun tombstone => toVec documentCodec (document outside tombstone)
    software := software }

def encode (tombstone : Tombstone) : Option (List UInt8) :=
  tombstone.encode (outside.writing tombstone.software)

def death (statement : Statement) (destruction : Destruction) (software : String) : Option Tombstone :=
  Tombstone.ofDeath (outside.writing software) statement destruction

def retirement (destruction : Destruction) (software : String) : Option Tombstone :=
  Tombstone.retirement (outside.writing software) destruction

def tombstoneOf (doc : Document) (destruction : Destruction) : Option Tombstone :=
  if doc.kind = "death" then do
    let encoded ← doc.deathStatement
    let bytes ← outside.base64Decode encoded
    let statement ← (Statement.decode bytes).toOption
    let tombstone ← death outside statement destruction doc.software
    let expected := document outside tombstone
    Authority.require (doc.networkId = expected.networkId &&
      doc.terminalSequence = expected.terminalSequence && doc.terminalHash = expected.terminalHash)
    return tombstone
  else if doc.kind = "retirement" then do
    Authority.require (doc.networkId.isNone && doc.terminalSequence.isNone &&
      doc.terminalHash.isNone && doc.deathStatement.isNone)
    retirement outside destruction doc.software
  else none

def parse (bytes : List UInt8) : Option Tombstone := do
  Authority.require (bytes.length ≤ tombstoneMaxLen)
  let doc ← outside.readDocument bytes
  Authority.require (doc.format = format && doc.version = 1)
  let destruction ← readDestruction doc.destruction
  let tombstone ← tombstoneOf outside doc destruction
  Authority.require (encode outside tombstone = some bytes)
  return tombstone

end Texts

section Reading

variable {outside : Outside} {tombstone : Tombstone} {bytes : List UInt8}
  {statement : Statement} {software : String}

/-- A Tombstone that this code makes: of a death statement that can be read
back, or of a retirement. -/
structure Made (tombstone : Tombstone) : Prop where
  software : checkSoftware tombstone.software = true
  death : ∀ statement, tombstone.death = some statement →
    statement.core.body = .death ∧ Statement.decode statement.encode = .ok statement

theorem Made.marked (made : Made tombstone) (destruction : Destruction) :
    Made { tombstone with destruction := destruction } :=
  ⟨made.software, made.death⟩

theorem toVec_document (outside : Outside) (tombstone : Tombstone) :
    ∃ before after, ∀ destruction, toVec documentCodec
      (document outside { tombstone with destruction := destruction }) =
        before ++ toVec string (label destruction) ++ after := by
  let doc := document outside tombstone
  have printed (destruction : Destruction) :
      documentCodec.print (document outside { tombstone with destruction := destruction }) =
        ('\x7b' :: leadingFields.print (((((doc.format, doc.version, doc.kind), doc.networkId),
          doc.terminalSequence), doc.terminalHash), doc.deathStatement) ++
          ',' :: Json.key "destruction") ++
        string.print (label destruction) ++
        (',' :: Json.key "software" ++ string.print doc.software ++ ['\x7d']) := by
    simp [documentCodec, Codec.imap, object, Codec.after, Codec.before, fields,
      Codec.andThen, field, document, doc]
  exact ⟨_, _, fun destruction => by
    rw [toVec, printed, List.flatMap_append, List.flatMap_append]
    rfl⟩

theorem encode_eq : encode outside tombstone =
    let bytes := toVec documentCodec (document outside tombstone)
    if tombstoneMaxLen < bytes.length then none else some bytes := rfl

theorem encode_eq_some : encode outside tombstone = some bytes ↔
    toVec documentCodec (document outside tombstone) = bytes ∧ bytes.length ≤ tombstoneMaxLen := by
  simp only [encode_eq, Option.ite_none_left_eq_some, Option.some.injEq, not_lt]
  constructor
  · rintro ⟨short, rfl⟩
    exact ⟨rfl, short⟩
  · rintro ⟨rfl, short⟩
    exact ⟨short, rfl⟩

theorem encode_complete (written : encode outside { tombstone with destruction := .incomplete } = some bytes) :
    ∃ text, encode outside { tombstone with destruction := .complete } = some text := by
  obtain ⟨before, after, text⟩ := toVec_document outside tombstone
  have labels : (toVec string (label .complete)).length ≤
      (toVec string (label .incomplete)).length := by decide +kernel
  simp only [encode_eq, text] at written ⊢
  split at written
  · cases written
  · rename_i small
    refine ⟨_, if_neg ?_⟩
    simp only [List.length_append, not_lt] at small ⊢
    omega

theorem death_eq_some {destruction : Destruction} : death outside statement destruction software = some tombstone ↔
      statement.core.body = .death ∧ checkSoftware software = true ∧
        tombstone = ⟨some statement, destruction, software⟩ ∧
        ∃ bytes, encode outside tombstone = some bytes := by
  simp only [death, Tombstone.ofDeath, bind_eq_some, Authority.require_eq_some, Bool.and_eq_true,
    decide_eq_true_eq, return_eq_some]
  constructor
  · rintro ⟨_, ⟨body, checked⟩, bytes, written, rfl⟩
    exact ⟨body, checked, rfl, bytes, written⟩
  · rintro ⟨body, checked, rfl, bytes, written⟩
    exact ⟨(), ⟨body, checked⟩, bytes, written, rfl⟩

theorem length_encode_death (body : statement.core.body = .death)
    (few : statement.signatures.length ≤ keyCount) : statement.encode.length ≤ 727 := by
  have bounded : statement.signatures.length ≤ 10 := few
  rw [statement.length_encode, body, Body.encode, List.length_nil]
  omega

theorem encode_of_fits (fits : (toVec documentCodec (document outside tombstone)).length ≤ tombstoneMaxLen) :
    encode outside tombstone = some (toVec documentCodec (document outside tombstone)) :=
  encode_eq_some.mpr ⟨rfl, fits⟩

theorem length_document_death (statement : Statement) (software : String) :
    (toVec documentCodec (document outside ⟨some statement, .incomplete, software⟩)).length =
      (toVec string (hex statement.core.networkId.val)).length +
      (toVec u64 statement.core.sequence).length +
      (toVec string (hex (statement.core.hash outside.toCrypto).val)).length +
      (toVec string (outside.base64Encode statement.encode)).length +
      (toVec string software).length + 168 := by
  have texts : (toVec string format).length = 20 ∧
      (toVec u8 1).length = 1 ∧ (toVec string "death").length = 7 ∧
      (toVec string (label .incomplete)).length = 12 := by decide +kernel
  have keys : keyBytes "format" + keyBytes "version" + keyBytes "kind" +
      keyBytes "network_id" + keyBytes "terminal_sequence" +
      keyBytes "terminal_hash" + keyBytes "death_statement" +
      keyBytes "destruction" + keyBytes "software" = 118 := by decide +kernel
  have printed : toVec documentCodec (document outside ⟨some statement, .incomplete, software⟩) =
      toVec (object (fields leadingFields (fields
        (field "destruction" string) (field "software" string))))
        ((((((format, 1, "death"), some (hex statement.core.networkId.val)),
          some statement.core.sequence), some (hex (statement.core.hash outside.toCrypto).val)),
          some (outside.base64Encode statement.encode)), label .incomplete, software) := rfl
  rw [printed]
  simp only [leadingFields, length_toVec_object, length_toVec_fields,
    length_toVec_field, length_toVec_optionalField_some]
  omega

theorem death_some (base64 : Base64.Standard outside.base64Encode outside.base64Decode)
    (body : statement.core.body = .death) (few : statement.signatures.length ≤ keyCount)
    (checked : checkSoftware software = true) :
    ∃ tombstone, death outside statement .incomplete software = some tombstone := by
  have hashText (bytes : ByteArr 32) : (toVec string (hex bytes.val)).length ≤ 386 := by
    have bounded := length_toVec_string_le (hex bytes.val)
    rwa [hex, String.toList_ofList, length_hexChars, bytes.2] at bounded
  have sequenceText := (length_toVec_le u64 statement.core.sequence).trans
    (Nat.mul_le_mul_left 4 (length_u64_le statement.core.sequence))
  have statementText := base64.length_toVec statement.encode
  have short := length_encode_death body few
  have nameText := length_toVec_string_le software
  have networkText := hashText statement.core.networkId
  have terminalText := hashText (statement.core.hash outside.toCrypto)
  have fits := @length_document_death outside statement software
  refine ⟨⟨some statement, .incomplete, software⟩, death_eq_some.mpr ⟨body, checked, rfl, _, encode_of_fits ?_⟩⟩
  simp only [checkSoftware, Control.maxSoftwareLen, Bool.and_eq_true, decide_eq_true_eq] at checked
  obtain ⟨⟨_, size⟩, _⟩ := checked
  have named := (length_le_byteLength software).trans (of_decide_eq_true size)
  rw [fits]
  simp only [tombstoneMaxLen]
  omega

theorem death_fits (base64 : Base64.Standard outside.base64Encode outside.base64Decode)
    (body : statement.core.body = .death) (few : statement.signatures.length ≤ keyCount)
    (checked : checkSoftware software = true) (destruction : Destruction) :
    ∃ tombstone, death outside statement destruction software = some tombstone := by
  obtain ⟨tombstone, made⟩ := death_some base64 body few checked
  cases destruction with
  | incomplete => exact ⟨tombstone, made⟩
  | complete =>
    obtain ⟨_, _, rfl, _, written⟩ := death_eq_some.mp made
    exact ⟨_, death_eq_some.mpr ⟨body, checked, rfl,
      @encode_complete outside ⟨some statement, .incomplete, software⟩ _ written⟩⟩

theorem readDestruction_label (destruction : Destruction) :
    readDestruction (label destruction) = some destruction := by
  cases destruction <;> decide +kernel

theorem parse_encode (base64 : Base64.Standard outside.base64Encode outside.base64Decode)
    (readBack : ∀ doc, outside.readDocument (toVec documentCodec doc) = some doc) (made : Made tombstone)
    (written : encode outside tombstone = some bytes) : parse outside bytes = some tombstone := by
  have text := encode_eq_some.mp written
  have spelled : tombstoneOf outside (document outside tombstone) tombstone.destruction = some tombstone := by
    obtain ⟨statement, destruction, software⟩ := tombstone
    cases statement with
    | none => simp [tombstoneOf, document, retirement, Tombstone.retirement,
        Authority.require, Outside.writing, made.software]
    | some statement =>
      obtain ⟨body, decoded⟩ := made.death statement rfl
      have built := death_eq_some.mpr ⟨body, made.software, rfl, bytes, written⟩
      simp [tombstoneOf, document, base64.roundTrip, decoded, built, Except.toOption, Authority.require]
  simp only [parse, bind_eq_some, Authority.require_eq_some, return_eq_some]
  refine ⟨(), by simp [text.2], document outside tombstone, ?_, (), by simp [document],
    tombstone.destruction, readDestruction_label _, tombstone, spelled, (), by simp [written], rfl⟩
  rw [← text.1]
  exact readBack _

theorem tombstoneOf_made {doc : Document} {destruction : Destruction}
    (spelled : tombstoneOf outside doc destruction = some tombstone) : Made tombstone := by
  unfold tombstoneOf at spelled
  split at spelled
  · simp only [bind_eq_some, return_eq_some] at spelled
    obtain ⟨_, _, bytes, _, statement, decoded, built, made, _, _, rfl⟩ := spelled
    obtain ⟨body, checked, rfl, _⟩ := death_eq_some.mp made
    refine ⟨checked, ?_⟩
    rintro _ ⟨⟩
    cases read : Statement.decode bytes with
    | error error => simp [read, Except.toOption] at decoded
    | ok value =>
      simp only [read, Except.toOption, Option.some.injEq] at decoded
      subst decoded
      exact ⟨body, Statement.decode_encode_of_decode read⟩
  · split at spelled
    · simp only [retirement, Tombstone.retirement, bind_eq_some, Authority.require_eq_some,
        return_eq_some] at spelled
      obtain ⟨_, _, _, checked, rfl⟩ := spelled
      exact ⟨checked, fun _ some => by cases some⟩
    · cases spelled

theorem parse_made (read : parse outside bytes = some tombstone) :
    Made tombstone ∧ encode outside tombstone = some bytes := by
  simp only [parse, bind_eq_some, Authority.require_eq_some, return_eq_some, decide_eq_true_eq] at read
  obtain ⟨_, _, doc, _, _, _, destruction, _, _, spelled, _, written, rfl⟩ := read
  exact ⟨tombstoneOf_made spelled, written⟩

end Reading

theorem documentCodec_lawful : documentCodec.Lawful (fun _ => True) := by
  have text (name : String) {follows : List Char → Prop} : (field name string).Lawful follows :=
    (field_lawful string_lawful name).anywhere
  have required : (fields (field "format" string) (fields
      (field "version" u8) (field "kind" string))).Lawful (Past []) :=
    fields_lawful (text _) (fields_lawful (field_lawful u8_lawful _) (text _))
  have network := optionalField_lawful required "network_id" string_lawful.anywhere
    (by simp)
  have sequence := optionalField_lawful network "terminal_sequence" u64_lawful
    (by simp [Json.key])
  have hash := optionalField_lawful sequence "terminal_hash" string_lawful.anywhere
    (by simp [Json.key])
  have leading : leadingFields.Lawful _ := optionalField_lawful hash "death_statement"
    string_lawful.anywhere (by simp [Json.key])
  have last : (fields (field "destruction" string)
      (field "software" string)).Lawful Delimited :=
    fields_lawful (text _) (text _)
  -- What follows the optional fields is the label of the destruction.
  have whole : (fields leadingFields (fields (field "destruction" string)
      (field "software" string))).Lawful Delimited :=
    leading.andThen (last.after [',']) (fun value rest _ => by
      simp [Past, Delimited, Codec.after, fields, field, Json.key, Codec.andThen])
  exact (record_lawful whole).imap (fun _ => rfl)

namespace Sample

def outside : Outside where
  toHost := Control.Sample.compact { Control.Sample.platform with
    base64Decode := Base64.decode, base64Encode := Base64.encode }
  readDocument := fromSlice documentCodec

theorem faithful : outside.Faithful where
  base64 := Base64.standard
  document doc := by
    rw [show outside.readDocument = fromSlice documentCodec from rfl]
    exact fromSlice_toVec documentCodec_lawful trivial doc
  software := by decide +kernel

end Sample

end Werewolf.Terminal
