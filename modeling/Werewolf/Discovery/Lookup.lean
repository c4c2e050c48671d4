import Werewolf.Control.Dial
import Werewolf.Discovery.Cache

/-! The iterative lookup of a node. It starts at the Pack and goes on to nodes that
were found on the way. How the queries of a hop end, and in which order, is given
with the hop. -/

namespace Werewolf.Discovery
open Library Governance State Policy Transport
open Control (ExpectedPeerIdentity Routed relayResolve)

def alpha : Nat := 3
def maxHops : Nat := 8
def maxQueries : Nat := 24

inductive Path where
  | direct
  | relay (routed : Routed)
  | badRoute
  deriving DecidableEq

structure Seed where
  name : String
  key : Key
  address : String
  expected : ExpectedPeerIdentity
  path : Path
  deriving DecidableEq

namespace Seed

variable (contacting : Contacting)

def fromPeer (routes : List Control.Route) (peers : List PeerRecord) (peer : PeerRecord) :
    Option Seed := do
  let publicKey ← peer.publicKeyB64
  let path :=
    match routes.find? (fun route => route.peer = peer.name) with
    | none => .direct
    | some route =>
        match relayResolve contacting.toAddressing route peer peers "tcp" with
        | some routed => .relay routed
        | none => .badRoute
  let key ← binary contacting.toExternal 32 publicKey
  return ⟨peer.name, key, peer.address, ⟨peer.fingerprint, some publicKey⟩, path⟩

/-- A node is dialled at the address of its record for the transport, and pinned to
the key of its record. -/
def fromRecord (record : ContactRecord) (name transport : String) : Option Seed := do
  let address ← record.addresses.find? (fun address =>
    (transport ++ "://").toList.isPrefixOf address.toList)
  let publicKeyB64 := contacting.base64Encode record.publicKey.val
  let fingerprint ← fingerprintFromPublicKeyB64 contacting.toExternal publicKeyB64
  return ⟨name, record.publicKey, address, ⟨fingerprint, some publicKeyB64⟩, .direct⟩

end Seed

def hsKey (external : External) (identity : PeltIdentity) : Key :=
  (binary external 32 identity.publicKeyB64).getD (.zero 32)

def label (contacting : Contacting) (sha256 : List UInt8 → NodeId) (record : ContactRecord)
    (peers : List PeerRecord) : String :=
  match peers.find? (fun peer =>
      peer.publicKeyB64 = some (contacting.base64Encode record.publicKey.val)) with
  | some peer => peer.name
  | none => "node:" ++ String.ofList
      ((hex (NodeId.fromPublicKey sha256 record.publicKey).val).toList.take 16)

/-- The number of records of an answer, or why there is none. -/
structure QueryStatus where
  peer : String
  hop : Nat
  status : Except String Nat

/-- `asked` are the keys that the loop keeps, `queried` the seeds they are of. -/
structure Search where
  hop : Nat
  shortlist : List Seed
  asked : List Key
  queried : List Seed
  statuses : List QueryStatus
  learned : List ContactRecord
  finished : Bool

/-- How one hop goes: whether the time is up, and how the queries of its batch end,
in their order. A query that fails to be joined is left out. -/
structure Hop where
  late : Bool
  joined : List Seed → List (Option (String × Except String (List ContactRecord)))

namespace Search

def initial (seeds : List Seed) : Search := ⟨0, seeds, [], [], [], [], false⟩

section Steps

variable (contacting : Contacting) (sha256 : List UInt8 → NodeId) (target : NodeId)

def distance (seed : Seed) : NodeId := target.xorDistance (.fromPublicKey sha256 seed.key)

def nearest (search : Search) : List Seed :=
  (sortOn (distance sha256 target) search.shortlist).take maxK.toNat

def batch (search : Search) : List Seed :=
  ((search.nearest sha256 target).filter (fun seed => !search.asked.contains seed.key)).take
    (min alpha (maxQueries - search.asked.length))

variable (peers : List PeerRecord) (own : Key) (transport : String)

def receive (search : Search) (record : ContactRecord) : Search :=
  let known := record.publicKey = own ∨ search.shortlist.any (fun seed => seed.key = record.publicKey)
  { search with
    shortlist := if known then search.shortlist else search.shortlist ++
      (Seed.fromRecord contacting record (label contacting sha256 record peers) transport).toList
    learned := search.learned ++ [record] }

def join (search : Search) : Option (String × Except String (List ContactRecord)) → Search
  | none => search
  | some (name, .ok records) =>
      let after := records.foldl (receive contacting sha256 peers own transport) search
      { after with statuses := after.statuses ++ [⟨name, after.hop, .ok records.length⟩] }
  | some (name, .error reason) =>
      { search with statuses := search.statuses ++ [⟨name, search.hop, .error reason⟩] }

/-- One hop. It is the last if nothing is left to ask, the time is up, or a record of
the target has arrived. -/
def step (search : Search) (hop : Hop) : Search :=
  if search.finished then search
  else
    let batch := search.batch sha256 target
    let sorted := { search with
      hop := search.hop + 1
      shortlist := sortOn (distance sha256 target) search.shortlist }
    if batch = [] ∨ hop.late then { sorted with finished := true }
    else
      let asking := { sorted with
        asked := search.asked ++ batch.map (·.key)
        queried := search.queried ++ batch }
      let after := (hop.joined batch).foldl (join contacting sha256 peers own transport) asking
      { after with finished := after.learned.any (fun record =>
          NodeId.fromPublicKey sha256 record.publicKey = target) }

end Steps

end Search

def searchAfter (contacting : Contacting) (sha256 : List UInt8 → NodeId) (peers : List PeerRecord)
    (routes : List Control.Route) (identity : PeltIdentity) (transport : String) (target : NodeId)
    (hops : List Hop) : Search :=
  run (Search.step contacting sha256 target peers (hsKey contacting.toExternal identity) transport)
    (.initial (peers.filterMap (Seed.fromPeer contacting routes peers))) hops

def lookup (contacting : Contacting) (sha256 : List UInt8 → NodeId) (peers : List PeerRecord)
    (routes : List Control.Route) (identity : PeltIdentity) (transport : String) (target : NodeId)
    (hops : List Hop) : List QueryStatus × List ContactRecord :=
  let search := searchAfter contacting sha256 peers routes identity transport target
    (hops.take maxHops)
  (search.statuses, search.learned)

end Werewolf.Discovery
