import Werewolf.Governance.Apply
import Werewolf.Library.Text

/-! Semantic validation of the persistent trust documents. Every failure is the
same error, so a check is a truth value. What a governance head says about Pack
members and about the node itself. -/

namespace Werewolf.State
open Library

/-- What validation takes from outside the repository, besides the hash and the
curve: the standard Base64 alphabet with padding, and `SocketAddr` syntax. -/
structure External extends Governance.Crypto where
  base64Decode : String → Option (List UInt8)
  base64Encode : List UInt8 → String
  isSocketAddr : String → Bool

inductive TrustLevel where
  | stranger
  | known
  | packmate
  | alpha
  deriving DecidableEq

structure PeerRecord where
  name : String
  fingerprint : String
  address : String
  trust : TrustLevel
  publicKeyB64 : Option String
  deriving DecidableEq

structure PeltIdentity where
  publicKeyB64 : String
  secretKeyB64 : String
  fingerprint : String
  deriving DecidableEq

structure FangProfile where
  name : String
  peer : String
  «local» : String
  remote : String
  transport : String
  deriving DecidableEq

def key (external : External) (text : String) : Option Governance.Key :=
  match external.base64Decode text with
  | none => none
  | some bytes =>
      if external.base64Encode bytes ≠ text then none
      else if size : bytes.length = 32 then some ⟨bytes, size⟩
      else none

def isUpperHex (character : Char) : Bool :=
  character.isDigit || ('A' ≤ character && character ≤ 'F')

/-- Eight pairs of upper-case hexadecimal digits behind `wwp1:`. -/
def fingerprint (text : String) : Bool :=
  match stripLeading "wwp1:".toList text.toList with
  | none => false
  | some hex =>
      let parts := hex.splitOn '-'
      parts.length = 8 && parts.all (fun part => part.length = 2 && part.all isUpperHex)

def upperHexDigit (value : Nat) : Char :=
  if value < 10 then Char.ofNat ('0'.toNat + value) else Char.ofNat ('A'.toNat + (value - 10))

def hexish (bytes : List UInt8) : List Char :=
  List.intercalate ['-'] (bytes.map (fun byte => [upperHexDigit (byte.toNat / 16), upperHexDigit (byte.toNat % 16)]))

def fingerprintFromPublicKeyB64 (external : External) (publicKeyB64 : String) : Option String :=
  (external.base64Decode publicKeyB64).map (fun bytes =>
    String.ofList ("wwp1:".toList ++ hexish ((external.blake3 bytes).val.take 8)))

/-- `verifyingKey` is the public key of a secret one. -/
def identity (external : External) (verifyingKey : Governance.Key → Governance.Key) (pelt : PeltIdentity) : Bool :=
  match key external pelt.publicKeyB64, key external pelt.secretKeyB64 with
  | some bytes, some secret =>
      verifyingKey secret = bytes && fingerprint pelt.fingerprint &&
        fingerprintFromPublicKeyB64 external pelt.publicKeyB64 = some pelt.fingerprint
  | _, _ => false

def name (text : String) : Bool :=
  text.toList ≠ [] && byteLength text ≤ 128 && isTrimmed text.toList && !text.toList.any isControl

def endpoint (text : List Char) : Bool :=
  if text.isEmpty || 512 < byteLength (String.ofList text) || text.any isWhitespace || text.any isControl then false
  else
    match rsplitOnce ':' text with
    | none => false
    | some (host, port) => !host.isEmpty && (parseU16 port).any (· ≠ 0)

def peerEndpoint (address : String) : Option (List Char) :=
  (stripLeading "tcp://".toList address.toList).or (stripLeading "quic://".toList address.toList)

/-- The loop of `pack`, with what the three hash sets hold so far. -/
def packFrom (external : External) (names fingerprints : List String)
    (keys : List Governance.Key) : List PeerRecord → Bool
  | [] => true
  | peer :: rest =>
      match peerEndpoint peer.address with
      | none => false
      | some address =>
          if !name peer.name || !fingerprint peer.fingerprint || !endpoint address ||
              peer.name ∈ names || peer.fingerprint ∈ fingerprints then false
          else
            match peer.publicKeyB64 with
            | none =>
                packFrom external (peer.name :: names) (peer.fingerprint :: fingerprints) keys rest
            | some text =>
                match key external text with
                | none => false
                | some bytes =>
                    if !external.fromBytes bytes || bytes ∈ keys ||
                        fingerprintFromPublicKeyB64 external text ≠ some peer.fingerprint then false
                    else
                      packFrom external (peer.name :: names) (peer.fingerprint :: fingerprints) (bytes :: keys) rest

def pack (external : External) (peers : List PeerRecord) : Bool :=
  peers.length ≤ 1024 && packFrom external [] [] [] peers

def profilesFrom (external : External) (names : List String) : List FangProfile → Bool
  | [] => true
  | profile :: rest =>
      if !name profile.name || profile.name ∈ names || !name profile.peer ||
          !external.isSocketAddr profile.local || !endpoint profile.remote.toList ||
          profile.transport ∉ ["quic", "tcp", "tcp-plain"] then false
      else profilesFrom external (profile.name :: names) rest

def profileDocument (external : External) (profiles : List FangProfile) : Bool :=
  profiles.length ≤ 512 && profilesFrom external [] profiles

def activeFrom (profiles : List FangProfile) (names : List String) : List String → Bool
  | [] => true
  | name :: rest =>
      if name ∈ names || !profiles.any (fun profile => profile.name = name) then false
      else activeFrom profiles (name :: names) rest

def active (active : List String) (profiles : List FangProfile) : Bool :=
  active.length ≤ 512 && activeFrom profiles [] active

example : fingerprint "wwp1:00-11-22-33-44-55-66-77" = true := by decide +kernel

example : endpoint "relay.example:443".toList = true := by decide +kernel

section Membership

open Governance

/-- A Base64 text of 32 bytes; unlike `key`, any accepted spelling will do. -/
def publicKey (external : External) (text : String) : Option Key :=
  match external.base64Decode text with
  | none => none
  | some bytes => if size : bytes.length = 32 then some ⟨bytes, size⟩ else none

/-- The head keeps this member out: its key is revoked, or after activation it
is not on the roster or unknown. -/
def excludes (external : External) (head : Head) (peer : PeerRecord) : Bool :=
  match peer.publicKeyB64.bind (publicKey external) with
  | some key =>
      (binarySearch head.revoked key).isOk || (head.activatedAt.isSome && !(binarySearch head.roster key).isOk)
  | none => head.activatedAt.isSome

/-- A node without a Pelt is unadmitted once the network is activated. -/
def admitsOwn (own : Option Key) (head : Head) : Bool :=
  match own with
  | some key => head.admits key
  | none => head.activatedAt.isNone

def unadmitted (governance : Option Head) (own : Option Key) : Bool :=
  match governance with
  | some head => !admitsOwn own head
  | none => false

end Membership

end Werewolf.State
