import Werewolf.Control.Services
import Werewolf.Transport.Results

/-! Signed contact records, and the record that a node keeps of itself. A record
says where a node can be reached; of two records of a node the one with the
larger `seq` counts. -/

namespace Werewolf.Discovery
open Library Governance State Policy Transport

def contactDomain : List UInt8 := "werewolf/contact/v1".toUTF8.data.toList ++ [0]
def maxLifetimeSecs : UInt64 := 7 * 24 * 60 * 60
/-- The own record is signed again once less than this much validity is left. -/
def resignMarginSecs : UInt64 := 24 * 60 * 60

def maxEncodedLen : Nat := 32 + 1 + Control.maxAddresses * (2 + Control.maxAddressLen) + 8 + 8 + 64

inductive ContactError where
  | addressCount
  | address
  | malformed
  deriving DecidableEq

/-- What a contact record takes from outside the repository: signatures, and the
parser of an address. -/
structure Contacting extends Signer, Addressing

structure ContactRecord where
  publicKey : Key
  addresses : List String
  seq : UInt64
  expiresAt : UInt64
  signature : Signature
  deriving DecidableEq

namespace ContactRecord

def body (record : ContactRecord) : List UInt8 :=
  record.publicKey.val ++ [UInt8.ofNat record.addresses.length] ++ record.addresses.flatMap (fun address =>
      beBytes 2 address.utf8ByteSize ++ address.toUTF8.data.toList) ++
    beBytes 8 record.seq.toNat ++ beBytes 8 record.expiresAt.toNat

def encode (record : ContactRecord) : List UInt8 := record.body ++ record.signature.val

def signedBytes (record : ContactRecord) : List UInt8 := contactDomain ++ record.body

def read : Reader ContactError ContactRecord := do
  let publicKey ← Reader.take .malformed 32
  let count ← Reader.byte .malformed
  Reader.lift (if count = 0 ∨ Control.maxAddresses < count.toNat then .error .addressCount
    else .ok ())
  let addresses ← Reader.repeated
    (Reader.text .malformed .address .address Control.maxAddressLen) count.toNat
  let seq ← Reader.number .malformed 8
  let expiresAt ← Reader.number .malformed 8
  let signature ← Reader.take .malformed 64
  Reader.finished .malformed
  return ⟨publicKey, addresses, UInt64.ofNat seq, UInt64.ofNat expiresAt, signature⟩

def decode (bytes : List UInt8) : Except ContactError ContactRecord :=
  if maxEncodedLen < bytes.length then .error .malformed else (read bytes).map (·.1)

variable (contacting : Contacting)

def checkFields (record : ContactRecord) (now : UInt64) : Bool :=
  Control.checkAddresses contacting.toAddressing record.addresses &&
    now < record.expiresAt && record.expiresAt - now ≤ maxLifetimeSecs

/-- Unix seconds. The sum of a time and a span wraps as the release build does. -/
def sign (identity : PeltIdentity) (addresses : List String) (seq expiresAt now : UInt64) :
    Option ContactRecord := do
  let publicKey ← sized 32 (← contacting.base64Decode identity.publicKeyB64)
  let record : ContactRecord := ⟨publicKey, addresses, seq, expiresAt, .zero 64⟩
  Authority.require (record.checkFields contacting now)
  let text ← signMessage contacting.toSigner identity record.signedBytes
  let signature ← sized 64 (← contacting.base64Decode text)
  return { record with signature := signature }

def verify (record : ContactRecord) (now : UInt64) : Bool :=
  record.checkFields contacting now && contacting.fromBytes record.publicKey &&
    contacting.verifyStrict record.publicKey record.signedBytes record.signature

/-- Both records are of one node, and this one is to replace the older. -/
def supersedes (record older : ContactRecord) : Bool :=
  record.publicKey = older.publicKey && older.seq < record.seq

end ContactRecord

/-- The addresses the operator advertises, the record of them, and the records of
other nodes. -/
structure Contacts where
  advertised : List String
  own : Option ContactRecord
  known : List ContactRecord
  deriving DecidableEq

namespace Contacts

variable (contacting : Contacting)

def isCurrent (contacts : Contacts) (now : UInt64) : Bool :=
  contacts.own.any (fun record => record.addresses = contacts.advertised &&
    now + resignMarginSecs < record.expiresAt && record.verify contacting now)

def saturatingSucc (value : UInt64) : UInt64 :=
  if value = 0xFFFFFFFFFFFFFFFF then value else value + 1

/-- The `seq` follows the clock and the current record. -/
def nextSeq (contacts : Contacts) (now : UInt64) : UInt64 :=
  match contacts.own with
  | none => now
  | some record => max now (saturatingSucc record.seq)

def refreshOwn (contacts : Contacts) (identity : PeltIdentity) (now : UInt64) : Contacts :=
  if contacts.advertised = [] then { contacts with own := none }
  else if contacts.isCurrent contacting now then contacts
  else
    { contacts with
      own := ContactRecord.sign contacting identity contacts.advertised (contacts.nextSeq now)
        (now + maxLifetimeSecs) now }

end Contacts

structure Announcer where
  pelt : Option PeltIdentity
  contacts : Contacts
  signed : List ContactRecord
  deriving DecidableEq

/-- Of `discover.advertise` it is given whether the save succeeded. The command
`discover.show` and every remote call sign the record again where it is due. -/
inductive AnnouncerEvent where
  | init (identity : PeltIdentity)
  | advertise (addresses : String) (saved : Bool) (now : UInt64)
  | refresh (now : UInt64)
  deriving DecidableEq

namespace Announcer

def initial (pelt : Option PeltIdentity) (advertised : List String)
    (known : List ContactRecord) : Announcer := ⟨pelt, ⟨advertised, none, known⟩, []⟩

variable (contacting : Contacting)

def due (announcer : Announcer) (now : UInt64) : Bool :=
  announcer.contacts.advertised ≠ [] && !announcer.contacts.isCurrent contacting now

def refresh (announcer : Announcer) (now : UInt64) : Announcer :=
  match announcer.pelt with
  | none => announcer
  | some identity =>
      let contacts := announcer.contacts.refreshOwn contacting identity now
      { announcer with
        contacts := contacts
        signed := (if announcer.due contacting now then contacts.own.toList else []) ++
          announcer.signed }

def advertise (announcer : Announcer) (addresses : List String) : Announcer :=
  { announcer with contacts := { announcer.contacts with advertised := addresses } }

def accepted (addresses : String) (saved : Bool) : Option (List String) :=
  let candidate := Control.splitAddresses addresses
  if Control.validateAdvertised contacting.toAddressing candidate && saved then some candidate
  else none

def step (announcer : Announcer) : AnnouncerEvent → Announcer
  | .init identity => { announcer with pelt := announcer.pelt.or (some identity) }
  | .advertise addresses saved now =>
      match accepted contacting addresses saved with
      | some candidate => (announcer.advertise candidate).refresh contacting now
      | none => announcer
  | .refresh now => announcer.refresh contacting now

end Announcer

end Werewolf.Discovery
