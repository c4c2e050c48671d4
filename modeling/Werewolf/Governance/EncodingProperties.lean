import Werewolf.Governance.Decode
import Werewolf.Governance.RunProperties

/-! A statement and its bytes. Decoding inverts encoding as long as the counts
fit their length fields, so no statement has two encodings. -/

namespace Werewolf.Governance
open Library

def Body.CountsFit : Body → Prop
  | .genesis _ keys => keys.length < 2 ^ 8
  | .rotation entries => entries.length < 2 ^ 8
  | .revocation keys => keys.length < 2 ^ 16
  | .admission keys => keys.length < 2 ^ 16
  | .activation => True
  | .death => True

structure Statement.CountsFit (statement : Statement) : Prop where
  body : statement.core.body.CountsFit
  length : statement.core.body.encode.length < 2 ^ 16
  signatures : statement.signatures.length < 2 ^ 8

section Reading

private theorem readKey_reads (key : Key) : readKey.Reads key.val key := Reader.take_reads _ key

private theorem readEntry_reads (entry : UInt8 × Key) : readEntry.Reads (entry.1 :: entry.2.val) entry :=
  Reader.reads_bind (Reader.byte_reads _ entry.1)
    (Reader.reads_map (fun key => (entry.1, key)) (readKey_reads entry.2))

private theorem readSignature_reads (entry : UInt8 × Signature) :
    readSignature.Reads (entry.1 :: entry.2.val) entry :=
  Reader.reads_bind (Reader.byte_reads _ entry.1)
    (Reader.reads_map (fun signature => (entry.1, signature)) (Reader.take_reads _ entry.2))

private theorem readKeyList_reads {keys : List Key} (few : keys.length < 2 ^ 16) :
    readKeyList.Reads (encodeKeyList keys) keys :=
  Reader.reads_bind (Reader.number_reads _ few) (Reader.repeated_reads keys (fun key _ => readKey_reads key))

private theorem counted_reads {α : Type} {reader : Reader GovError α} {encode : α → List UInt8} {values : List α}
    (reads : ∀ value, reader.Reads (encode value) value) (few : values.length < 2 ^ 8) :
    (Reader.repeated reader (UInt8.ofNat values.length).toNat).Reads (values.flatMap encode) values := by
  rw [UInt8.toNat_ofNat_of_lt' few]
  exact Reader.repeated_reads values (fun value _ => reads value)

theorem Body.read_reads {body : Body} (fits : body.CountsFit) : (Body.read body.kind).Reads body.encode body := by
  cases body with
  | genesis threshold keys =>
    exact Reader.reads_bind (Reader.byte_reads _ threshold)
      (Reader.reads_bind (Reader.byte_reads _ (UInt8.ofNat keys.length))
        (Reader.reads_map (Body.genesis threshold) (counted_reads readKey_reads fits)))
  | rotation entries =>
    exact Reader.reads_bind (Reader.byte_reads _ (UInt8.ofNat entries.length))
      (Reader.reads_map Body.rotation (counted_reads readEntry_reads fits))
  | revocation keys => exact Reader.reads_map Body.revocation (readKeyList_reads fits)
  | admission keys => exact Reader.reads_map Body.admission (readKeyList_reads fits)
  | activation => exact Reader.reads_pure Body.activation
  | death => exact Reader.reads_pure Body.death

theorem Body.decode_encode {body : Body} (fits : body.CountsFit) : Body.decode body.kind body.encode = .ok body := by
  have read := Body.read_reads fits []
  rw [List.append_nil] at read
  simp only [Body.decode, read]
  rfl

theorem Core.read_reads {core : Core} (fits : core.body.CountsFit) (short : core.body.encode.length < 2 ^ 16) :
    ∃ encoding, core.encode = version :: encoding ∧ Core.read.Reads encoding core := by
  refine ⟨core.networkId.val ++ (beBytes 8 core.sequence.toNat ++ (core.previous.val ++
    ([core.body.kind] ++ (beBytes 2 core.body.encode.length ++ (core.body.encode ++ []))))),
    by simp [Core.encode], ?_⟩
  refine Reader.reads_bind (Reader.take_reads _ core.networkId) ?_
  refine Reader.reads_bind (Reader.number_reads _ (UInt64.toNat_lt core.sequence)) ?_
  refine Reader.reads_bind (Reader.take_reads _ core.previous) ?_
  refine Reader.reads_bind (Reader.byte_reads _ core.body.kind) ?_
  refine Reader.reads_bind (Reader.number_reads _ short) ?_
  refine Reader.reads_bind (Reader.take_reads _ ⟨core.body.encode, rfl⟩) ?_
  have decoded := Reader.reads_map (fun body => (⟨core.networkId,
    UInt64.ofNat core.sequence.toNat, core.previous, body⟩ : Core))
    (Reader.lift_reads (Body.decode_encode fits))
  simpa only [UInt64.ofNat_toNat] using decoded

end Reading

theorem Statement.decode_encode {statement : Statement} (fits : statement.CountsFit)
    (short : statement.encode.length ≤ maxStatementLen) :
    Statement.decode statement.encode = .ok statement := by
  obtain ⟨encoding, split, core⟩ := Core.read_reads fits.body fits.length
  have signatures := counted_reads readSignature_reads fits.signatures []
  rw [List.append_nil] at signatures
  have bytes : statement.encode = version :: (encoding ++ (UInt8.ofNat statement.signatures.length ::
        statement.signatures.flatMap (fun entry => entry.1 :: entry.2.val))) := by
    rw [Statement.encode, split]
    simp
  have read : Statement.read (encoding ++ (UInt8.ofNat statement.signatures.length ::
      statement.signatures.flatMap (fun entry => entry.1 :: entry.2.val))) =
      .ok (statement, []) :=
    Reader.bind_ok_iff.mpr ⟨_, _, core _, Reader.bind_ok_iff.mpr ⟨_, _, rfl,
      Reader.bind_ok_iff.mpr ⟨_, _, signatures, rfl⟩⟩⟩
  rw [bytes] at short ⊢
  simp only [Statement.decode, Nat.not_lt.mpr short, ↓reduceIte, ne_eq, not_true_eq_false, read, Except.map]

/-- Whatever is decoded encodes to its own bytes, and whatever fits its length
fields and the limit is decoded from its encoding. So no statement has two
encodings, and no two cores have the same bytes to sign and to hash. -/
theorem statement_has_one_encoding :
    (∀ bytes statement, Statement.decode bytes = .ok statement → statement.encode = bytes) ∧
      (∀ statement : Statement, statement.CountsFit → statement.encode.length ≤ maxStatementLen →
          Statement.decode statement.encode = .ok statement) ∧
      (∀ left right statement, Statement.decode left = .ok statement →
        Statement.decode right = .ok statement → left = right) ∧
      ∀ left right : Core, hashDomain ++ left.encode = hashDomain ++ right.encode ↔
        left = right := by
  refine ⟨fun _ _ decoded => (Statement.encode_of_decode decoded).1,
    fun _ fits short => Statement.decode_encode fits short, ?_, ?_⟩
  · intro left right statement first second
    rw [← (Statement.encode_of_decode first).1, ← (Statement.encode_of_decode second).1]
  · intro left right
    constructor
    · exact fun same => Core.encode_injective (List.append_cancel_left same)
    · rintro rfl
      rfl

/-- The theorem at a rotation with seven signatures. -/
theorem rotation_has_one_encoding : Statement.decode (Sample.signedWith 0 Sample.rotation).encode =
      .ok (Sample.signedWith 0 Sample.rotation) :=
  statement_has_one_encoding.2.1 _ ⟨show 1 < 2 ^ 8 by decide, by decide +kernel, by decide⟩ (by decide +kernel)

end Werewolf.Governance
