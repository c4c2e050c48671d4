import Mathlib.Data.Finmap
import Mathlib.Data.String.Basic
import Werewolf.Library.Bytes
import Werewolf.Library.Json
import Werewolf.Library.Sort
import Werewolf.Library.Text

/-! The policy on the targets a peer may reach: its runtime form, its document,
and the decision it makes. A `BTreeSet` is a finite set and either kind of map a
finite map; where the source iterates a tree, the members come in ascending
order. -/

namespace Werewolf.Policy
open Library
open Json hiding key number

inductive IpAddr where
  | v4 (octets : ByteArr 4)
  | v6 (octets : ByteArr 16)
  deriving DecidableEq

inductive SocketAddr where
  | v4 (ip : ByteArr 4) (port : UInt16)
  | v6 (ip : ByteArr 16) (port : UInt16) (flowinfo scopeId : UInt32)
  deriving DecidableEq

namespace SocketAddr

/-- `SocketAddr::new`: an address without flow label and scope. -/
def new (address : IpAddr) (port : UInt16) : SocketAddr :=
  match address with
  | .v4 octets => .v4 octets port
  | .v6 octets => .v6 octets port 0 0

def ip : SocketAddr → IpAddr
  | .v4 octets _ => .v4 octets
  | .v6 octets _ _ _ => .v6 octets

def port : SocketAddr → UInt16
  | .v4 _ port => port
  | .v6 _ port _ _ => port

def orderKey : SocketAddr → List Nat
  | .v4 octets port => 0 :: octets.val.map UInt8.toNat ++ [port.toNat]
  | .v6 octets port flowinfo scopeId =>
      1 :: octets.val.map UInt8.toNat ++ [port.toNat, flowinfo.toNat, scopeId.toNat]

private theorem octets_injective {left right : List UInt8}
    (same : left.map UInt8.toNat = right.map UInt8.toNat) : left = right :=
  List.map_injective_iff.mpr (fun _ _ => UInt8.toNat.inj) same

theorem orderKey_injective : Function.Injective orderKey := by
  rintro (⟨leftIp, leftPort⟩ | ⟨leftIp, leftPort, leftFlow, leftScope⟩)
    (⟨rightIp, rightPort⟩ | ⟨rightIp, rightPort, rightFlow, rightScope⟩) same
  · simp only [orderKey, List.cons_append, List.cons.injEq, true_and] at same
    obtain ⟨ips, ports⟩ := List.append_inj same (by simp [leftIp.2, rightIp.2])
    rw [Subtype.ext (octets_injective ips), UInt16.toNat.inj (List.singleton_inj.mp ports)]
  · simp [orderKey] at same
  · simp [orderKey] at same
  · simp only [orderKey, List.cons_append, List.cons.injEq, true_and] at same
    obtain ⟨ips, rest⟩ := List.append_inj same (by simp [leftIp.2, rightIp.2])
    simp only [List.cons.injEq, and_true] at rest
    rw [Subtype.ext (octets_injective ips), UInt16.toNat.inj rest.1, UInt32.toNat.inj rest.2.1,
      UInt32.toNat.inj rest.2.2]

end SocketAddr

instance socketAddrLinearOrder : LinearOrder SocketAddr :=
  LinearOrder.lift' SocketAddr.orderKey SocketAddr.orderKey_injective

abbrev Grants := Finmap (fun _ : String => Finset SocketAddr)

inductive TargetPolicy where
  | deny
  | legacyAllow
  | grants (grants : Grants)
  | invalid
  deriving DecidableEq

structure TargetGrant where
  address : IpAddr
  port : UInt16
  deriving DecidableEq

/-- The document, with the peers as the text lists them. -/
structure PolicyFile where
  mode : String
  peers : Option (List (String × List TargetGrant))
  deriving DecidableEq

/-- The text of `IpAddr`, and the parser of a target. -/
structure Addressing where
  ipText : IpAddr → String
  parseIp : String → Option IpAddr
  parseSocketAddr : String → Option SocketAddr

def validFingerprint (text : String) : Bool :=
  match stripLeading "wwp1:".toList text.toList with
  | none => false
  | some suffix =>
      let bytes := (String.ofList suffix).toUTF8.data.toList
      bytes.length = 23 && bytes.zipIdx.all (fun (byte, index) =>
        if index % 3 = 2 then byte = 0x2D
        else (0x30 ≤ byte && byte ≤ 0x39) || (0x41 ≤ byte && byte ≤ 0x46))

/-- `Ipv6Addr::is_unicast_link_local`: the block fe80::/10. -/
def isUnicastLinkLocal (octets : ByteArr 16) : Bool :=
  match octets.val with
  | first :: second :: _ => first = 0xFE && second &&& 0xC0 = 0x80
  | _ => false

/-- Grants cannot represent a scope, so link-local addresses are refused. -/
def supportedEndpoint (endpoint : SocketAddr) : Bool :=
  endpoint.port ≠ 0 &&
    match endpoint with
    | .v4 _ _ => true
    | .v6 octets _ _ scopeId => scopeId = 0 && !isUnicastLinkLocal octets

abbrev Peers := Finmap (fun _ : String => List TargetGrant)

/-- The visitor of the peers' object, which refuses a repeated key. -/
def visitMap (entries : List (String × List TargetGrant)) : Option Peers :=
  entries.foldlM (fun peers (fingerprint, targets) =>
      if !validFingerprint fingerprint || fingerprint ∈ peers then none
      else some (peers.insert fingerprint targets))
    ∅

def endpointsOf (targets : List TargetGrant) : Option (Finset SocketAddr) :=
  targets.foldlM
    (fun endpoints target =>
      let endpoint := SocketAddr.new target.address target.port
      if !supportedEndpoint endpoint || endpoint ∈ endpoints then none
      else some (insert endpoint endpoints))
    ∅

def grantsOf (peers : Peers) : Option Grants :=
  (ascending peers.keys).foldlM (fun grants fingerprint =>
      (endpointsOf ((peers.lookup fingerprint).getD [])).map (grants.insert fingerprint))
    ∅

def policyFromFile (mode : String) (peers : Option Peers) : TargetPolicy :=
  if mode = "legacy-allow" ∧ peers = none then .legacyAllow
  else if mode = "deny-by-default" then
    match peers.bind grantsOf with
    | some grants => .grants grants
    | none => .invalid
  else .invalid

/-- `parse`, on a document that was read; `none` where the visitor refuses. -/
def policyOf (file : PolicyFile) : Option TargetPolicy :=
  match file.peers with
  | none => some (policyFromFile file.mode none)
  | some entries => (visitMap entries).map (fun peers => policyFromFile file.mode (some peers))

def runtimeFile : TargetPolicy → Option PolicyFile
  | .deny => some ⟨"deny-by-default", some []⟩
  | .legacyAllow => some ⟨"legacy-allow", none⟩
  | .grants grants => some ⟨"deny-by-default", some ((ascending grants.keys).map
      (fun fingerprint => (fingerprint, (ascending ((grants.lookup fingerprint).getD ∅)).map
          (fun endpoint => ⟨endpoint.ip, endpoint.port⟩))))⟩
  | .invalid => none

section Document

variable (addressing : Addressing)

def ipAddr : Codec IpAddr := string.imap addressing.ipText addressing.parseIp

def targetGrant : Codec TargetGrant :=
  (object (fields (field "address" (ipAddr addressing))
    (field "port" u16))).imap
    (fun grant => (grant.address, grant.port)) (fun (address, port) => some ⟨address, port⟩)

/-- One entry of the peers' object: a fingerprint and its grant. -/
def peerEntry : Codec (String × List TargetGrant) :=
  string.andThen
    ((object (field "targets" (array (targetGrant addressing)))).after [':'])

def policyFile : Codec PolicyFile :=
  (object (optionalField (field "mode" string) "peers"
    (sequence '\x7b' '\x7d' (peerEntry addressing)))).imap
    (fun file => (file.mode, file.peers)) (fun (mode, peers) => some ⟨mode, peers⟩)

def canonicalFromRuntime (policy : TargetPolicy) : Option (List UInt8) :=
  (runtimeFile policy).map (toVec (policyFile addressing))

/-- The canonical form of a document that `fromSlice` reads. -/
def canonicalize (fromSlice : List UInt8 → Option PolicyFile) (data : List UInt8) : Option (List UInt8) :=
  ((fromSlice data).bind policyOf).bind (canonicalFromRuntime addressing)

/-- The document must be the canonical one of the policy it holds. -/
def parseCanonical (fromSlice : List UInt8 → Option PolicyFile) (data : List UInt8) :
    Option TargetPolicy := do
  let policy ← (fromSlice data).bind policyOf
  let canonical ← canonicalFromRuntime addressing policy
  if canonical = data then some policy else none

end Document

def allowExact (policy : TargetPolicy) (fingerprint : String) (endpoint : SocketAddr) : Option TargetPolicy :=
  if !validFingerprint fingerprint || !supportedEndpoint endpoint then none
  else
    match policy with
    | .deny => some (.grants ((∅ : Grants).insert fingerprint {endpoint}))
    | .grants grants => some (.grants (grants.insert fingerprint
        (insert endpoint ((grants.lookup fingerprint).getD ∅))))
    | .legacyAllow | .invalid => none

def removeExact (policy : TargetPolicy) (fingerprint : String) (endpoint : SocketAddr) : Option TargetPolicy :=
  if !validFingerprint fingerprint || !supportedEndpoint endpoint then none
  else
    match policy with
    | .grants grants =>
        match grants.lookup fingerprint with
        | none => none
        | some targets =>
            if endpoint ∉ targets then none
            else if targets.erase endpoint = ∅ then some (.grants (grants.erase fingerprint))
            else some (.grants (grants.insert fingerprint (targets.erase endpoint)))
    | .deny | .legacyAllow | .invalid => none

def denied : String := "target authorization denied"

/-- The endpoints a target names: itself, or what the one lookup returns. -/
def targetEndpoints (addressing : Addressing)
    (resolver : String → UInt16 → Option (List SocketAddr)) (target : String) :
    Except String (List SocketAddr) :=
  match addressing.parseSocketAddr target with
  | some endpoint => .ok [endpoint]
  | none =>
      match rsplitOnce ':' target.toList with
      | none => .error denied
      | some (host, portText) =>
          match parseU16 portText with
          | none => .error denied
          | some port =>
              if host.isEmpty || host.any (fun char => char ∈ [':', '[', ']']) ||
                  host.any isWhitespace || port = 0 then .error denied
              else
                match resolver (String.ofList host) (UInt16.ofNat port) with
                | some endpoints => .ok endpoints
                | none => .error denied

def decideEndpoints (policy : TargetPolicy) (peer : String) (named : List SocketAddr) :
    Except String (List SocketAddr) :=
  let endpoints := named.toFinset
  if endpoints = ∅ ∨ ∃ endpoint ∈ endpoints, supportedEndpoint endpoint = false then .error denied
  else
    match policy with
    | .legacyAllow => .ok (ascending endpoints)
    | .grants grants =>
        if (grants.lookup peer).any (fun allowed => endpoints ⊆ allowed) then
          .ok (ascending endpoints)
        else .error denied
    | .deny | .invalid => .error denied

/-- The lookup is an effect, so that it shows when it is made. -/
def authorizeWithResolver {m : Type → Type} [Monad m] (addressing : Addressing)
    (resolver : String → UInt16 → m (Option (List SocketAddr))) (policy : TargetPolicy)
    (peer target : String) : m (Except String (List SocketAddr)) :=
  if policy = .deny ∨ policy = .invalid ∨ '%' ∈ target.toList then pure (.error denied)
  else
    match addressing.parseSocketAddr target with
    | some endpoint => pure (decideEndpoints policy peer [endpoint])
    | none =>
        match rsplitOnce ':' target.toList with
        | none => pure (.error denied)
        | some (host, portText) =>
            match parseU16 portText with
            | none => pure (.error denied)
            | some port =>
                if host.isEmpty || host.any (fun char => char ∈ [':', '[', ']']) ||
                    host.any isWhitespace || port = 0 then pure (.error denied)
                else do
                  match ← resolver (String.ofList host) (UInt16.ofNat port) with
                  | some endpoints => pure (decideEndpoints policy peer endpoints)
                  | none => pure (.error denied)

def authorize (addressing : Addressing) (resolver : String → UInt16 → Option (List SocketAddr))
    (policy : TargetPolicy) (peer target : String) : Except String (List SocketAddr) :=
  Id.run (authorizeWithResolver addressing (fun host port => pure (resolver host port)) policy peer target)

end Werewolf.Policy
