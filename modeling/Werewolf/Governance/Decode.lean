import Werewolf.Governance.Apply
import Werewolf.Library.Reader

/-! Strict decoding of a statement. It checks the encoding only; the rules are
those of `apply`. What it accepts is the encoding of what it returns, so an
accepted statement can be stored and decoded again. -/

namespace Werewolf.Governance
open Library

def maxStatementLen : Nat := 16 * 1024

def readKey : Reader GovError Key := Reader.take .malformed 32

def readEntry : Reader GovError (UInt8 × Key) := do
  let index ← Reader.byte .malformed
  let key ← readKey
  return (index, key)

def readKeyList : Reader GovError (List Key) := do
  let count ← Reader.number .malformed 2
  Reader.repeated readKey count

def Body.read (kind : UInt8) : Reader GovError Body :=
  if kind = 0 then do
    let threshold ← Reader.byte .malformed
    let count ← Reader.byte .malformed
    let keys ← Reader.repeated readKey count.toNat
    return .genesis threshold keys
  else if kind = 1 then do
    let count ← Reader.byte .malformed
    let entries ← Reader.repeated readEntry count.toNat
    return .rotation entries
  else if kind = 2 then do
    let keys ← readKeyList
    return .revocation keys
  else if kind = 3 then do
    let keys ← readKeyList
    return .admission keys
  else if kind = 4 then pure .activation
  else if kind = 5 then pure .death
  else fun _ => .error .unknownKind

def Body.decode (kind : UInt8) (bytes : List UInt8) : Except GovError Body := do
  let (body, rest) ← Body.read kind bytes
  let _ ← Reader.finished .malformed rest
  return body

def Core.read : Reader GovError Core := do
  let networkId ← Reader.take .malformed 32
  let sequence ← Reader.number .malformed 8
  let previous ← Reader.take .malformed 32
  let kind ← Reader.byte .malformed
  let length ← Reader.number .malformed 2
  let bytes ← Reader.take .malformed length
  let body ← Reader.lift (Body.decode kind bytes.val)
  return ⟨networkId, UInt64.ofNat sequence, previous, body⟩

def readSignature : Reader GovError (UInt8 × Signature) := do
  let index ← Reader.byte .malformed
  let signature ← Reader.take .malformed 64
  return (index, signature)

def Statement.read : Reader GovError Statement := do
  let core ← Core.read
  let count ← Reader.byte .malformed
  let signatures ← Reader.repeated readSignature count.toNat
  Reader.finished .malformed
  return ⟨core, signatures⟩

def Statement.decode (bytes : List UInt8) : Except GovError Statement :=
  if maxStatementLen < bytes.length then .error .tooLarge
  else
    match bytes with
    | [] => .error .malformed
    | first :: rest =>
        if first ≠ version then .error .unknownVersion
        else (Statement.read rest).map (·.1)

section Canonical

open Reader (bind_ok_iff pure_ok_iff lift_ok_iff)

variable {bytes : List UInt8}

private theorem readKey_inverts : readKey.Inverts Subtype.val := Reader.take_inverts _ 32

private theorem readEntry_inverts : readEntry.Inverts (fun entry => entry.1 :: entry.2.val) := by
  intro bytes entry rest read
  simp only [readEntry, bind_ok_iff, pure_ok_iff] at read
  obtain ⟨index, middle, first, key, last, second, rfl, rfl⟩ := read
  rw [Reader.byte_inverts _ _ _ _ first, readKey_inverts _ _ _ second]
  rfl

private theorem readKeyList_inverts : readKeyList.Inverts encodeKeyList := by
  intro bytes keys rest read
  simp only [readKeyList, bind_ok_iff] at read
  obtain ⟨count, middle, counted, listed⟩ := read
  obtain ⟨split, length⟩ := Reader.repeated_inverts readKey_inverts listed
  rw [Reader.number_inverts _ _ _ _ _ counted, split, encodeKeyList, length, List.append_assoc]

private theorem ofNat_count {count : UInt8} {length : Nat} (counted : length = count.toNat) :
    UInt8.ofNat length = count := by
  rw [counted, UInt8.ofNat_toNat]

theorem Body.read_inverts {kind : UInt8} {body : Body} {rest : List UInt8}
    (read : Body.read kind bytes = .ok (body, rest)) :
    bytes = body.encode ++ rest ∧ body.kind = kind := by
  unfold Body.read at read
  split at read
  · rename_i isKind
    simp only [bind_ok_iff, pure_ok_iff] at read
    obtain ⟨threshold, _, first, count, _, second, keys, _, third, rfl, rfl⟩ := read
    obtain ⟨split, length⟩ := Reader.repeated_inverts readKey_inverts third
    rw [Reader.byte_inverts _ _ _ _ first, Reader.byte_inverts _ _ _ _ second, split, Body.encode, ofNat_count length]
    exact ⟨rfl, isKind.symm⟩
  split at read
  · rename_i isKind
    simp only [bind_ok_iff, pure_ok_iff] at read
    obtain ⟨count, _, first, entries, _, second, rfl, rfl⟩ := read
    obtain ⟨split, length⟩ := Reader.repeated_inverts readEntry_inverts second
    rw [Reader.byte_inverts _ _ _ _ first, split, Body.encode, ofNat_count length]
    exact ⟨rfl, isKind.symm⟩
  split at read
  · rename_i isKind
    simp only [bind_ok_iff, pure_ok_iff] at read
    obtain ⟨keys, _, listed, rfl, rfl⟩ := read
    exact ⟨readKeyList_inverts _ _ _ listed, isKind.symm⟩
  split at read
  · rename_i isKind
    simp only [bind_ok_iff, pure_ok_iff] at read
    obtain ⟨keys, _, listed, rfl, rfl⟩ := read
    exact ⟨readKeyList_inverts _ _ _ listed, isKind.symm⟩
  split at read
  · rename_i isKind
    obtain ⟨rfl, rfl⟩ := pure_ok_iff.mp read
    exact ⟨rfl, isKind.symm⟩
  split at read
  · rename_i isKind
    obtain ⟨rfl, rfl⟩ := pure_ok_iff.mp read
    exact ⟨rfl, isKind.symm⟩
  · cases read

theorem Body.encode_of_decode {kind : UInt8} {body : Body}
    (decoded : Body.decode kind bytes = .ok body) : body.encode = bytes ∧ body.kind = kind := by
  simp only [Body.decode, bind_eq_ok, return_eq_ok] at decoded
  obtain ⟨⟨found, rest⟩, read, ended⟩ := decoded
  obtain ⟨⟨_, _⟩, ended, rfl⟩ := ended
  obtain ⟨split, isKind⟩ := Body.read_inverts read
  have nothing : rest = [] := Reader.finished_ok ended
  rw [nothing, List.append_nil] at split
  exact ⟨split.symm, isKind⟩

theorem Core.read_inverts {core : Core} {rest : List UInt8} (read : Core.read bytes = .ok (core, rest)) :
    version :: bytes = core.encode ++ rest := by
  simp only [Core.read, bind_ok_iff, pure_ok_iff] at read
  obtain ⟨networkId, _, first, sequence, _, second, previous, _, third, kind, _, fourth, length, _,
    fifth, slice, _, sixth, body, _, lifted, rfl, rfl⟩ := read
  obtain ⟨decoded, rfl⟩ := lift_ok_iff.mp lifted
  obtain ⟨encoded, rfl⟩ := Body.encode_of_decode decoded
  have number : (UInt64.ofNat sequence).toNat = sequence :=
    UInt64.toNat_ofNat_of_lt' (Reader.number_lt second)
  rw [Reader.take_inverts _ _ _ _ _ first, Reader.number_inverts _ _ _ _ _ second,
    Reader.take_inverts _ _ _ _ _ third, Reader.byte_inverts _ _ _ _ fourth,
    Reader.number_inverts _ _ _ _ _ fifth, Reader.take_inverts _ _ _ _ _ sixth]
  simp only [Core.encode, encoded, slice.property, number, List.append_assoc, List.cons_append, List.nil_append]

private theorem readSignature_inverts : readSignature.Inverts (fun entry => entry.1 :: entry.2.val) := by
  intro bytes entry rest read
  simp only [readSignature, bind_ok_iff, pure_ok_iff] at read
  obtain ⟨index, _, first, signature, _, second, rfl, rfl⟩ := read
  rw [Reader.byte_inverts _ _ _ _ first, Reader.take_inverts _ _ _ _ _ second]
  rfl

theorem Statement.encode_of_decode {statement : Statement} (decoded : Statement.decode bytes = .ok statement) :
    statement.encode = bytes ∧ bytes.length ≤ maxStatementLen := by
  simp only [Statement.decode, ite_eq_ok_iff, Nat.not_lt] at decoded
  obtain ⟨fits, decoded⟩ := decoded
  cases bytes with
  | nil => cases decoded
  | cons first rest =>
    simp only [ite_eq_ok_iff, ne_eq, not_not] at decoded
    obtain ⟨rfl, found⟩ := decoded
    cases read : Statement.read rest with
    | error error => simp [read, Except.map] at found
    | ok value =>
      obtain ⟨result, remaining⟩ := value
      simp only [read, Except.map, Except.ok.injEq] at found
      subst found
      simp only [Statement.read, bind_ok_iff, pure_ok_iff] at read
      obtain ⟨core, _, coreRead, count, _, counted, signatures, _, listed, _, last, ended, rfl,
        rfl⟩ := read
      obtain ⟨split, length⟩ := Reader.repeated_inverts readSignature_inverts listed
      refine ⟨?_, fits⟩
      rw [Core.read_inverts coreRead, Reader.byte_inverts _ _ _ _ counted, split,
        Reader.finished_ok ended, Statement.encode, length, UInt8.ofNat_toNat,
        List.append_nil, List.append_assoc]

theorem Statement.decode_encode_of_decode {statement : Statement} (decoded : Statement.decode bytes = .ok statement) :
    Statement.decode statement.encode = .ok statement := by
  rw [(Statement.encode_of_decode decoded).1]
  exact decoded

end Canonical

end Werewolf.Governance
