import Werewolf.Governance.WellFormed
import Werewolf.Library.Bytes
import Werewolf.Library.Json

/-! The persisted form of a chain head. -/

namespace Werewolf.Governance
open Library
open Json hiding key number sequence

structure KeyEpoch where
  setAt : UInt64
  keys : List String
  deriving DecidableEq

structure Document where
  version : UInt8
  networkId : String
  sequence : UInt64
  hash : String
  threshold : UInt8
  keyEpochs : List KeyEpoch
  revoked : List String
  applied : List String
  forked : Bool
  roster : List String
  activatedAt : Option UInt64
  deadAt : Option UInt64
  deriving DecidableEq

def hexValue (char : Char) : Option Nat :=
  if '0' ≤ char ∧ char ≤ '9' then some (char.toNat - 0x30)
  else if 'a' ≤ char ∧ char ≤ 'f' then some (char.toNat - 0x57)
  else if 'A' ≤ char ∧ char ≤ 'F' then some (char.toNat - 0x37)
  else none

/-- `u8::from_str_radix` on two characters, which lets the first be a sign. -/
def fromStrRadix (first second : Char) : Option UInt8 :=
  if first = '+' then (hexValue second).map UInt8.ofNat
  else (hexValue first).bind (fun high =>
    (hexValue second).map (fun low => UInt8.ofNat (16 * high + low)))

/-- The length is that of an ASCII text, so it counts characters. -/
def unhex (size : Nat) (text : String) : Option (ByteArr size) :=
  if text.toList.length ≠ 2 * size ∨ text.toList.any (fun char => 128 ≤ char.toNat) then none
  else (readPairs fromStrRadix text.toList).bind (fun bytes =>
    if sized : bytes.length = size then some ⟨bytes, sized⟩ else none)

def document (head : Head) : Document where
  version := 1
  networkId := hex head.networkId.val
  sequence := head.sequence
  hash := hex head.hash.val
  threshold := head.threshold
  keyEpochs := head.keyEpochs.map (fun epoch => ⟨epoch.1, epoch.2.map (fun key => hex key.val)⟩)
  revoked := head.revoked.map (fun key => hex key.val)
  applied := head.applied.map (fun hash => hex hash.val)
  forked := head.forked
  roster := head.roster.map (fun key => hex key.val)
  activatedAt := head.activatedAt
  deadAt := head.deadAt

def check (head : Head) : Bool :=
  head.threshold.toNat = thresholdCount &&
  head.applied.length % 2 ^ 64 = (head.sequence + 1).toNat &&
  head.applied.getLast? = some head.hash &&
  head.keyEpochs.head?.any (fun epoch => epoch.1 = 0) &&
  !hasDescent (head.keyEpochs.map (fun epoch => epoch.1.toNat)) &&
  head.keyEpochs.getLast?.any (fun epoch => epoch.1 ≤ head.sequence) &&
  head.keyEpochs.all (fun epoch => epoch.2.length = keyCount && !hasRepeat [] epoch.2) &&
  !hasDescent head.revoked &&
  head.roster.length ≤ maxRoster &&
  !hasDescent head.roster &&
  head.roster.all (fun key => !(binarySearch head.revoked key).isOk) &&
  head.activatedAt.all (fun sequence => sequence ≤ head.sequence) &&
  head.deadAt.all (fun sequence => sequence = head.sequence)

def keyEpochCodec : Codec KeyEpoch :=
  (object (fields (field "set_at" u64)
    (field "keys" (array string)))).imap
    (fun epoch => (epoch.setAt, epoch.keys)) (fun (setAt, keys) => some ⟨setAt, keys⟩)

def commonFields := fields (field "version" u8)
  (fields (field "network_id" string)
  (fields (field "sequence" u64)
  (fields (field "hash" string)
  (fields (field "threshold" u8)
  (fields (field "key_epochs" (array keyEpochCodec))
  (fields (field "revoked" (array string))
  (fields (field "applied" (array string))
  (field "forked" boolean))))))))

def documentCodec : Codec Document :=
  (object (optionalField (optionalField (optionalField commonFields
    "roster" (array string)) "activated_at" u64) "dead_at" u64)).imap
    (fun doc => ((((doc.version, doc.networkId, doc.sequence, doc.hash, doc.threshold,
      doc.keyEpochs, doc.revoked, doc.applied, doc.forked),
      if doc.roster = [] then none else some doc.roster), doc.activatedAt), doc.deadAt))
    (fun ((((version, networkId, sequence, hash, threshold, keyEpochs, revoked, applied, forked),
      roster), activatedAt), deadAt) => some ⟨version, networkId, sequence, hash, threshold,
      keyEpochs, revoked, applied, forked, roster.getD [], activatedAt, deadAt⟩)

def canonical (head : Head) : Option (List UInt8) :=
  if check head then some (toVec documentCodec (document head)) else none

def headOf (doc : Document) : Option Head := do
  if doc.version ≠ 1 then none
  else
    let networkId ← unhex 32 doc.networkId
    let hash ← unhex 32 doc.hash
    let keyEpochs ← doc.keyEpochs.mapM (fun epoch => do
      let keys ← epoch.keys.mapM (unhex 32)
      return (epoch.setAt, keys))
    let revoked ← doc.revoked.mapM (unhex 32)
    let applied ← doc.applied.mapM (unhex 32)
    let roster ← doc.roster.mapM (unhex 32)
    return {
      networkId := networkId
      sequence := doc.sequence
      hash := hash
      threshold := doc.threshold
      keyEpochs := keyEpochs
      revoked := revoked
      applied := applied
      forked := doc.forked
      roster := roster
      activatedAt := doc.activatedAt
      deadAt := doc.deadAt }

def parse (fromSlice : List UInt8 → Option Document) (bytes : List UInt8) : Option Head := do
  let head ← (fromSlice bytes).bind headOf
  let again ← canonical head
  if again = bytes then some head else none

end Werewolf.Governance
