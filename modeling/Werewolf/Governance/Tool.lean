import Mathlib.Data.List.Destutter
import Werewolf.Governance.Document
import Werewolf.Library.Sort

/-! The offline tool: drafts, signature parts, combined statements and the
replay of a chain. Files are given by what was read from them, and a random
network ID by its bytes. -/

namespace Werewolf.Governance
open Library

/-- What the tool takes from outside the repository, besides the needs of a
node: the public key of a secret one, signing and Base64. -/
structure Tooling extends Crypto where
  verifyingKey : Key → Key
  sign : Key → List UInt8 → Signature
  base64Encode : List UInt8 → String
  base64Decode : String → Option (List UInt8)

def Tooling.Signs (tooling : Tooling) : Prop :=
  ∀ secret message, tooling.verifyStrict (tooling.verifyingKey secret) message (tooling.sign secret message) = true

inductive ToolError where
  | invalid (message : String)
  | governance (failure : Failure)
  deriving DecidableEq

abbrev ToolResult := Except ToolError

section Keys

def keyType : String := "werewolf-governance-key"

structure KeyFile where
  mode : UInt32
  version : UInt8
  type : String
  publicB64 : String
  secretB64 : String

def readKeyFile (tooling : Tooling) (file : KeyFile) : ToolResult Key :=
  if file.mode &&& 0o077 ≠ 0 then
    .error (.invalid "governance key file must be readable by its owner only")
  else if file.version ≠ 1 ∨ file.type ≠ keyType then
    .error (.invalid "not a governance key file")
  else
    match tooling.base64Decode file.secretB64 with
    | none => .error (.invalid "bad secret encoding")
    | some secret =>
        if sized : secret.length = 32 then
          if tooling.base64Encode (tooling.verifyingKey ⟨secret, sized⟩).val ≠ file.publicB64 then
            .error (.invalid "key file public key does not match its secret")
          else .ok ⟨secret, sized⟩
        else .error (.invalid "bad secret length")

/-- The new key file of a holder, and the public key that the genesis needs. -/
def Tooling.keygen (tooling : Tooling) (secret : Key) : KeyFile × String :=
  let publicB64 := tooling.base64Encode (tooling.verifyingKey secret).val
  (⟨0o600, 1, keyType, publicB64, tooling.base64Encode secret.val⟩, publicB64)

def Tooling.publicKey (tooling : Tooling) (b64 : String) : ToolResult Key :=
  match tooling.base64Decode b64 with
  | none => .error (.invalid "expected a base64 Ed25519 public key")
  | some bytes =>
      if sized : bytes.length = 32 then .ok ⟨bytes, sized⟩
      else .error (.invalid "expected a base64 Ed25519 public key")

end Keys

section Drafts

def unsigned (core : Core) : Statement := ⟨core, []⟩

def draftGenesis (keys : List Key) (networkId : ByteArr 32) : Statement :=
  unsigned ⟨networkId, 0, ByteArr.zero 32, .genesis (UInt8.ofNat thresholdCount) keys⟩

/-- The body of a draft: keys in ascending order and once each, entries of a
rotation in the order of their indices. -/
def Body.normalized : Body → Body
  | .revocation keys => .revocation ((sortOn id keys).destutter (· ≠ ·))
  | .admission keys => .admission ((sortOn id keys).destutter (· ≠ ·))
  | .rotation entries => .rotation (sortOn Prod.fst entries)
  | other => other

def draftAfter (crypto : Crypto) (previous : Statement) (body : Body) : Statement :=
  unsigned ⟨previous.core.networkId, previous.core.sequence + 1, previous.core.hash crypto, body.normalized⟩

end Drafts

section Parts

structure Part where
  version : UInt8
  hash : String
  index : UInt8
  signature : String
  deriving DecidableEq

def signPart (tooling : Tooling) (draft : Statement) (file : KeyFile) (index : UInt8) :
    ToolResult Part :=
  if keyCount ≤ index.toNat then .error (.invalid "key index must be 0 to 9")
  else do
    let secret ← readKeyFile tooling file
    return {
      version := 1
      hash := hex (draft.core.hash tooling.toCrypto).val
      index := index
      signature := hex (tooling.sign secret draft.core.signingInput).val }

def unhexSignature (text : String) : ToolResult Signature :=
  match unhex 64 text with
  | some signature => .ok signature
  | none =>
      if text.toList.length ≠ 2 * 64 ∨ text.toList.any (fun char => 128 ≤ char.toNat) then
        .error (.invalid "expected \x7bN\x7d bytes of hex")
      else .error (.invalid "expected hex")

/-- One round of the loop of `combine`. -/
def Part.read (hash : String) (part : Part) : ToolResult (UInt8 × Signature) :=
  if part.version ≠ 1 ∨ part.hash ≠ hash then
    .error (.invalid ("part for key " ++ toString part.index.toNat ++ " signs another statement"))
  else do
    let signature ← unhexSignature part.signature
    return (part.index, signature)

def combine (crypto : Crypto) (draft : Statement) (parts : List Part) : ToolResult Statement := do
  let signatures ← parts.mapM (Part.read (hex (draft.core.hash crypto).val))
  let sorted := sortOn Prod.fst signatures
  if hasTwin Prod.fst sorted then
    .error (.invalid "two parts for the same key index")
  else return ⟨draft.core, sorted⟩

end Parts

/-- The loop of `replay`. -/
def replayFrom (crypto : Crypto) (expectGenesis : Hash) (head : Option Head) :
    List Statement → ToolResult (Option Head)
  | [] => .ok head
  | statement :: rest =>
      match apply crypto head statement (some expectGenesis) with
      | .error failure => .error (.governance failure)
      | .ok (.applied next) => replayFrom crypto expectGenesis (some next) rest
      | .ok .alreadyApplied => replayFrom crypto expectGenesis head rest
      | .ok (.fork _) => .error (.invalid "the chain contains a fork")

def replay (crypto : Crypto) (chain : List Statement) (expectGenesis : Hash) : ToolResult Head := do
  match ← replayFrom crypto expectGenesis none chain with
  | some head => return head
  | none => .error (.invalid "empty chain")

end Werewolf.Governance
