import Werewolf.Governance.Document
import Werewolf.Library.Sort

/-! The check of the governance keys: which of the keys in force answer a
challenge. As in `apply`, an index out of range and a failed `expect` are
failures of their own. -/

namespace Werewolf.Governance
open Library

def keyCheckDomain : List UInt8 := "werewolfproxy/governance/v1/key-check\x00".toUTF8.data.toList
def challengeFormat : String := "werewolf-key-check"
def answerFormat : String := "werewolf-key-check-answer"

structure Challenge where
  format : String
  version : UInt8
  networkId : String
  challenge : String
  deriving DecidableEq

structure Answer where
  format : String
  version : UInt8
  networkId : String
  challenge : String
  index : UInt8
  signature : String
  deriving DecidableEq

inductive Verdict where
  | atLeast7Usable
  | unverified
  deriving DecidableEq

def Verdict.label : Verdict → String
  | .atLeast7Usable => "at_least_7_usable"
  | .unverified => "unverified"

inductive CheckFailure where
  | invalid (message : String)
  | panicked
  deriving DecidableEq

def lowerHexValue (char : Char) : Option Nat :=
  if '0' ≤ char ∧ char ≤ '9' then some (char.toNat - 0x30)
  else if 'a' ≤ char ∧ char ≤ 'f' then some (char.toNat - 0x57)
  else none

def unhexLower (size : Nat) (text : String) : Except CheckFailure (ByteArr size) :=
  let found :=
    if text.toList.length ≠ 2 * size then none
    else readPairs (fun first second => (lowerHexValue first).bind (fun high =>
      (lowerHexValue second).map (fun low => UInt8.ofNat (16 * high + low)))) text.toList
  match found with
  | some bytes =>
      if sized : bytes.length = size then .ok ⟨bytes, sized⟩
      else .error (.invalid "expected lowercase hex")
  | none => .error (.invalid "expected lowercase hex")

def keyCheckInput (networkId challenge : ByteArr 32) : List UInt8 :=
  keyCheckDomain ++ networkId.val ++ challenge.val

namespace Challenge

def fields (challenge : Challenge) : Except CheckFailure (ByteArr 32 × ByteArr 32) :=
  if challenge.format ≠ challengeFormat ∨ challenge.version ≠ 1 then
    .error (.invalid "not a key-check challenge")
  else do
    let networkId ← unhexLower 32 challenge.networkId
    let bytes ← unhexLower 32 challenge.challenge
    return (networkId, bytes)

/-- `&head.keys()[index as usize]`. -/
def keyAt (head : Head) (index : UInt8) : Except CheckFailure Key :=
  match head.keys with
  | .error _ => .error .panicked
  | .ok keys =>
      match keys[index.toNat]? with
      | none => .error .panicked
      | some key => .ok key

variable (crypto : Crypto) (challenge : Challenge)

def verifyAnswers (head : Head) (message : List UInt8) (indices : List UInt8) :
    List Answer → Except CheckFailure (List UInt8)
  | [] => .ok indices
  | answer :: rest =>
      if answer.format ≠ answerFormat ∨ answer.version ≠ 1 ∨
          answer.networkId ≠ challenge.networkId ∨ answer.challenge ≠ challenge.challenge then
        .error (.invalid "an answer is for another challenge or network")
      else if keyCount ≤ answer.index.toNat ∨ answer.index ∈ indices then
        .error (.invalid "answer indices must be distinct and 0-9")
      else do
        let key ← keyAt head answer.index
        if !crypto.fromBytes key then .error (.invalid "bad governance key")
        else
          let signature ← unhexLower 64 answer.signature
          if !crypto.verifyStrict key message signature then
            .error (.invalid "an answer's signature does not verify")
          else verifyAnswers head message (indices ++ [answer.index]) rest

/-- The indices whose answers verify against the keys in force, and the verdict. -/
def verify (head : Head) (answers : List Answer) :
    Except CheckFailure (List UInt8 × Verdict) := do
  let (networkId, bytes) ← challenge.fields
  if networkId ≠ head.networkId then
    .error (.invalid "the challenge belongs to another network")
  else
    let indices ← verifyAnswers crypto challenge head (keyCheckInput networkId bytes) [] answers
    let verdict :=
      if thresholdCount ≤ indices.length then Verdict.atLeast7Usable else Verdict.unverified
    return (sortOn id indices, verdict)

end Challenge

end Werewolf.Governance
