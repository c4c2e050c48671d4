import Werewolf.Governance.Statement
import Werewolf.Library.SortedList

/-! Verification of a statement against a chain head. Sequence arithmetic
wraps as it does in a release build; an index out of range and a failed
`expect` are the separate failure `panicked`. -/

namespace Werewolf.Governance
open Library

inductive GovError where
  | tooLarge
  | malformed
  | unknownVersion
  | unknownKind
  | bodyRule
  | signatures
  | wrongNetwork
  | noGenesis
  | genesisMismatch
  | outOfOrder
  | previousMismatch
  | fork
  | forked
  | terminal
  deriving DecidableEq

inductive Failure where
  | rejected (error : GovError)
  | panicked
  deriving DecidableEq

/-- What a node knows of its network's governance. -/
structure Head where
  networkId : ByteArr 32
  sequence : UInt64
  hash : Hash
  threshold : UInt8
  keyEpochs : List (UInt64 × List Key)
  revoked : List Key
  applied : List Hash
  forked : Bool
  roster : List Key
  activatedAt : Option UInt64
  deadAt : Option UInt64
  deriving DecidableEq

def Head.admits (head : Head) (own : Key) : Bool :=
  head.activatedAt.isNone || ((binarySearch head.roster own).isOk && !(binarySearch head.revoked own).isOk)

def Head.keys (head : Head) : Except Failure (List Key) :=
  match head.keyEpochs.getLast? with
  | some epoch => .ok epoch.2
  | none => .error .panicked

def Head.keysBefore (head : Head) (sequence : UInt64) : Except Failure (List Key) :=
  match head.keyEpochs.reverse.find? (fun epoch => epoch.1 < sequence) with
  | some epoch => .ok epoch.2
  | none => .error .panicked

inductive Outcome where
  | applied (next : Head)
  | alreadyApplied
  | fork (fenced : Head)
  deriving DecidableEq

def strongKey (crypto : Crypto) (key : Key) : Bool :=
  crypto.fromBytes key && !crypto.isWeak key

def checkGenesis (crypto : Crypto) (threshold : UInt8) (keys : List Key) : Except Failure Unit :=
  if threshold.toNat ≠ thresholdCount ∨ keys.length ≠ keyCount then .error (.rejected .bodyRule)
  else if !keys.all (strongKey crypto) || hasRepeat [] keys then .error (.rejected .bodyRule)
  else .ok ()

/-- The loop of `rotated` over the entries, with the index of the last one. -/
def rotateEntries (crypto : Crypto) (last : Option UInt8) (keys : List Key) :
    List (UInt8 × Key) → Except Failure (List Key)
  | [] => .ok keys
  | (index, key) :: rest =>
      if last.any (index ≤ ·) || keyCount ≤ index.toNat then .error (.rejected .bodyRule)
      else if !strongKey crypto key then .error (.rejected .bodyRule)
      else if keys.length ≤ index.toNat then .error .panicked
      else rotateEntries crypto (some index) (keys.set index.toNat key) rest

def rotated (crypto : Crypto) (current : List Key) (entries : List (UInt8 × Key)) :
    Except Failure (List Key) :=
  if entries.isEmpty || keyCount < entries.length then .error (.rejected .bodyRule)
  else do
    let keys ← rotateEntries crypto none current entries
    if hasRepeat [] keys then .error (.rejected .bodyRule)
    else if entries.any (fun entry => current[entry.1.toNat]? = some entry.2) then
      .error (.rejected .bodyRule)
    else .ok keys

def checkAdmission (crypto : Crypto) (head : Head) (keys : List Key) : Except Failure Unit :=
  if keys.isEmpty || maxAdmittedPerStatement < keys.length then .error (.rejected .bodyRule)
  else if hasDescent keys then .error (.rejected .bodyRule)
  else if keys.any (fun key => !strongKey crypto key || (binarySearch head.revoked key).isOk ||
      (binarySearch head.roster key).isOk) then .error (.rejected .bodyRule)
  else if maxRoster < head.roster.length + keys.length then .error (.rejected .bodyRule)
  else .ok ()

def checkRevocation (crypto : Crypto) (keys : List Key) : Except Failure Unit :=
  if keys.isEmpty || maxRevokedPerStatement < keys.length then .error (.rejected .bodyRule)
  else if hasDescent keys then .error (.rejected .bodyRule)
  else if keys.any (fun key => !crypto.fromBytes key) then .error (.rejected .bodyRule)
  else .ok ()

/-- The loop of `checkSignatures` over the signatures, with the last index. -/
def verifySignatures (crypto : Crypto) (keys : List Key) (input : List UInt8)
    (last : Option UInt8) : List (UInt8 × Signature) → Except Failure Unit
  | [] => .ok ()
  | (index, signature) :: rest =>
      if last.any (index ≤ ·) || keys.length ≤ index.toNat then .error (.rejected .signatures)
      else
        match keys[index.toNat]? with
        | none => .error .panicked
        | some key =>
            if !strongKey crypto key then .error (.rejected .signatures)
            else if !crypto.verifyStrict key input signature then .error (.rejected .signatures)
            else verifySignatures crypto keys input (some index) rest

def checkSignatures (crypto : Crypto) (statement : Statement) (keys : List Key)
    (threshold : Nat) : Except Failure Unit :=
  let signatures := statement.signatures
  if signatures.length < threshold ∨ keys.length < signatures.length then
    .error (.rejected .signatures)
  else verifySignatures crypto keys statement.core.signingInput none signatures

/-- Insert the admitted keys; a key already on the roster fails the `expect_err`. -/
def admitKeys (roster : List Key) : List Key → Except Failure (List Key)
  | [] => .ok roster
  | key :: rest =>
      match binarySearch roster key with
      | .ok _ => .error .panicked
      | .error position => admitKeys (roster.insertIdx position key) rest

/-- The fields a statement body changes, before the head moves to it. -/
def applyBody (crypto : Crypto) (head : Head) (core : Core) : Except Failure Head :=
  match core.body with
  | .genesis .. => .error (.rejected .outOfOrder)
  | .rotation entries => do
      let current ← head.keys
      let keys ← rotated crypto current entries
      return { head with keyEpochs := head.keyEpochs ++ [(core.sequence, keys)] }
  | .revocation keys => do
      checkRevocation crypto keys
      return { head with
        revoked := keys.foldl insertAbsent head.revoked
        roster := keys.foldl removePresent head.roster }
  | .admission keys => do
      checkAdmission crypto head keys
      let roster ← admitKeys head.roster keys
      return { head with roster := roster }
  | .activation =>
      if head.activatedAt.isSome then .error (.rejected .bodyRule)
      else .ok { head with activatedAt := some core.sequence }
  | .death => .ok { head with deadAt := some core.sequence }

def applyGenesis (crypto : Crypto) (statement : Statement) (expectGenesis : Option Hash) :
    Except Failure Outcome :=
  let core := statement.core
  match core.body with
  | .genesis threshold keys =>
      if core.sequence ≠ 0 ∨ core.previous ≠ ByteArr.zero 32 then .error (.rejected .outOfOrder)
      else if expectGenesis ≠ some (core.hash crypto) then .error (.rejected .genesisMismatch)
      else do
        checkGenesis crypto threshold keys
        checkSignatures crypto statement keys threshold.toNat
        return .applied
          { networkId := core.networkId
            sequence := 0
            hash := core.hash crypto
            threshold := threshold
            keyEpochs := [(0, keys)]
            revoked := []
            applied := [core.hash crypto]
            forked := false
            roster := []
            activatedAt := none
            deadAt := none }
  | _ => .error (.rejected .noGenesis)

/-- A statement presented after a death: only re-presentation is recognized. -/
def applyDead (crypto : Crypto) (head : Head) (core : Core) : Except Failure Outcome :=
  if core.sequence ≤ head.sequence then
    match head.applied[core.sequence.toNat]? with
    | none => .error .panicked
    | some recorded =>
        if recorded = core.hash crypto ∧ core.networkId = head.networkId then .ok .alreadyApplied
        else .error (.rejected .terminal)
  else .error (.rejected .terminal)

/-- A statement at an applied sequence: a repetition, or evidence of a fork. -/
def applySettled (crypto : Crypto) (head : Head) (statement : Statement) :
    Except Failure Outcome :=
  let core := statement.core
  match head.applied[core.sequence.toNat]? with
  | none => .error .panicked
  | some recorded =>
      if recorded = core.hash crypto then .ok .alreadyApplied
      -- A different genesis is no evidence about this network's keys: it is pinned.
      else if core.sequence = 0 then .error (.rejected .genesisMismatch)
      else do
        let keys ← head.keysBefore core.sequence
        checkSignatures crypto statement keys head.threshold.toNat
        return .fork { head with forked := true }

def applyNext (crypto : Crypto) (head : Head) (statement : Statement) : Except Failure Outcome := do
  let core := statement.core
  let keys ← head.keys
  checkSignatures crypto statement keys head.threshold.toNat
  let next ← applyBody crypto head core
  return .applied { next with
    sequence := core.sequence
    hash := core.hash crypto
    applied := next.applied ++ [core.hash crypto] }

/-- A death that chains to the head, the one statement a forked node accepts. -/
def Head.chainsDeath (head : Head) (core : Core) : Bool :=
  core.body = .death && core.sequence = head.sequence + 1 && core.previous = head.hash

def applyTo (crypto : Crypto) (head : Head) (statement : Statement) : Except Failure Outcome :=
  let core := statement.core
  if head.deadAt.isSome then applyDead crypto head core
  else if head.forked && !head.chainsDeath core then .error (.rejected .forked)
  else if core.networkId ≠ head.networkId then .error (.rejected .wrongNetwork)
  else if core.sequence ≤ head.sequence then applySettled crypto head statement
  else if core.sequence ≠ head.sequence + 1 then .error (.rejected .outOfOrder)
  else if core.previous ≠ head.hash then .error (.rejected .previousMismatch)
  else applyNext crypto head statement

def apply (crypto : Crypto) (head : Option Head) (statement : Statement)
    (expectGenesis : Option Hash) : Except Failure Outcome :=
  match head with
  | none => applyGenesis crypto statement expectGenesis
  | some head => applyTo crypto head statement

end Werewolf.Governance
