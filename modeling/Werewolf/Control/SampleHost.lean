import Mathlib.Algebra.Order.BigOperators.Group.List
import Werewolf.Control.Transition
import Werewolf.Storage.Durability

/-! A host that meets all that is assumed of one: compact JSON for the files
outside the manifest, and a Base64 that spells only repetitions of one byte. -/

namespace Werewolf.Control.Sample
open Library Governance Policy
open Json hiding key number
open State hiding name
open Storage hiding name

section Codecs

def kindCodec : Codec ServiceKind :=
  string.imap (fun
      | .tcp => "tcp"
      | .http => "http"
      | .https => "https"
      | .ssh => "ssh")
    serviceKind

def hopCodec : Codec RouteHop :=
  string.imap (fun
      | .quic => "quic"
      | .tcp => "tcp")
    routeHop

def providerCodec : Codec ServiceProvider :=
  (object (fields (Json.field "peer" string)
    (Json.field "target" string))).imap
    (fun provider => (provider.peer, provider.target))
    (fun (peer, target) => some ⟨peer, target⟩)

def serviceCodec : Codec ServiceDefinition :=
  (object (fields (Json.field "name" string)
    (fields (Json.field "peer" string)
    (fields (Json.field "target" string)
    (fields (Json.field "kind" kindCodec)
    (Json.field "fallbacks" (array providerCodec))))))).imap
    (fun service => (service.name, service.peer, service.target, service.kind, service.fallbacks))
    (fun (name, peer, target, kind, fallbacks) => some ⟨name, peer, target, kind, fallbacks⟩)

def publishedCodec : Codec PublishedService :=
  (object (fields (Json.field "name" string)
    (fields (Json.field "kind" kindCodec)
    (Json.field "target" string)))).imap
    (fun service => (service.name, service.kind, service.target))
    (fun (name, kind, target) => some ⟨name, kind, target⟩)

def routeCodec : Codec Route :=
  (object (fields (Json.field "peer" string)
    (fields (Json.field "via" string)
    (Json.field "hop" hopCodec)))).imap
    (fun route => (route.peer, route.via, route.hop))
    (fun (peer, via, hop) => some ⟨peer, via, hop⟩)

def advertiseCodec : Codec (UInt8 × List String) :=
  object (fields (Json.field "version" u8)
    (Json.field "addresses" (array string)))

def peltCodec : Codec PeltIdentity :=
  (object (fields (Json.field "public_key_b64" string)
    (fields (Json.field "secret_key_b64" string)
    (Json.field "fingerprint" string)))).imap
    (fun pelt => (pelt.publicKeyB64, pelt.secretKeyB64, pelt.fingerprint))
    (fun (publicKeyB64, secretKeyB64, fingerprint) =>
      some ⟨publicKeyB64, secretKeyB64, fingerprint⟩)

private theorem text_lawful (name : String) {follows : List Char → Prop} :
    (Json.field name string).Lawful follows :=
  (field_lawful string_lawful name).anywhere

theorem kindCodec_lawful : kindCodec.Lawful (fun _ => True) :=
  string_lawful.imap (fun kind => by cases kind <;> decide)

theorem hopCodec_lawful : hopCodec.Lawful (fun _ => True) :=
  string_lawful.imap (fun hop => by cases hop <;> decide)

theorem providerCodec_lawful : providerCodec.Lawful (fun _ => True) :=
  (record_lawful (fields_lawful (text_lawful _) (text_lawful _))).imap (fun _ => rfl)

theorem serviceCodec_lawful : serviceCodec.Lawful (fun _ => True) := by
  have fallbacks : (array providerCodec).Lawful (fun _ => True) :=
    array_lawful providerCodec_lawful.anywhere (fun _ => object_opens _ _) (by decide)
  exact (record_lawful (fields_lawful (text_lawful _) (fields_lawful (text_lawful _)
    (fields_lawful (text_lawful _)
    (fields_lawful (field_lawful kindCodec_lawful _).anywhere
    (field_lawful fallbacks _).anywhere))))).imap (fun _ => rfl)

theorem publishedCodec_lawful : publishedCodec.Lawful (fun _ => True) :=
  (record_lawful (fields_lawful (text_lawful _)
    (fields_lawful (field_lawful kindCodec_lawful _).anywhere
    (text_lawful _)))).imap (fun _ => rfl)

theorem routeCodec_lawful : routeCodec.Lawful (fun _ => True) :=
  (record_lawful (fields_lawful (text_lawful _) (fields_lawful (text_lawful _)
    (field_lawful hopCodec_lawful _).anywhere))).imap (fun _ => rfl)

theorem advertiseCodec_lawful : advertiseCodec.Lawful (fun _ => True) := by
  have addresses : (array string).Lawful (fun _ => True) :=
    array_lawful string_lawful.anywhere string_opens (by decide)
  exact record_lawful (fields_lawful (field_lawful u8_lawful _)
    (field_lawful addresses _).anywhere)

theorem peltCodec_lawful : peltCodec.Lawful (fun _ => True) :=
  (record_lawful (fields_lawful (text_lawful _) (fields_lawful (text_lawful _)
    (text_lawful _)))).imap (fun _ => rfl)

end Codecs

section Host

def base64Encode (bytes : List UInt8) : String :=
  String.ofList (List.replicate (4 * ((bytes.length + 2) / 3)) (Char.ofNat (0x41 + (bytes.headD 0).toNat % 26)))

def base64Decode (text : String) : Option (List UInt8) :=
  if text.length = 44 then
    some (List.replicate 32 (UInt8.ofNat ((text.toList.headD 'A').toNat - 0x41)))
  else none

def platform : Platform :=
  { Storage.Sample.platform with base64Decode := base64Decode, base64Encode := base64Encode }

theorem roundTrip_base64 {platform : Platform} (roundTrip : platform.RoundTrip)
    (decode : String → Option (List UInt8)) (encode : List UInt8 → String) :
    ({ platform with base64Decode := decode, base64Encode := encode } : Platform).RoundTrip :=
  ⟨roundTrip.mode, roundTrip.current, roundTrip.manifest, roundTrip.silver, roundTrip.peers,
    roundTrip.policy, roundTrip.profiles, roundTrip.names, roundTrip.governance⟩

theorem roundTrip : platform.RoundTrip := roundTrip_base64 Storage.Sample.roundTrip _ _

def compact (platform : Platform) : Host where
  toPlatform := platform
  verifyingKey := id
  socketText _ := ""
  servicesText := toVec (array serviceCodec)
  publishedText := toVec (array publishedCodec)
  routesText := toVec (array routeCodec)
  advertiseText := toVec advertiseCodec
  peltText := toVec peltCodec
  packText := toVec (array peerCodec)
  profilesText := toVec (array profileCodec)
  namesText := toVec (array string)
  tombstoneText _ := []
  readServices := fromSlice (array serviceCodec)
  readPublished := fromSlice (array publishedCodec)
  readRoutes := fromSlice (array routeCodec)
  readAdvertise := fromSlice advertiseCodec
  readPelt := fromSlice peltCodec
  readTombstone _ := none
  software := "werewolfd"

def host : Host := compact platform

private theorem bytes_append (left right : List Char) : ((left ++ right).flatMap String.utf8EncodeChar).length =
      (left.flatMap String.utf8EncodeChar).length + (right.flatMap String.utf8EncodeChar).length := by
  simp

private theorem addresses_length (addresses : List String) : (toVec (array string) addresses).length ≤
      2 + (addresses.map (fun address => (toVec string address).length + 8)).sum := by
  have listed := length_toVec_sequence_le string addresses
    (by decide : '['.utf8Size = 1) (by decide : ']'.utf8Size = 1)
  have wider : (addresses.map (fun address => (toVec string address).length + 1)).sum ≤
      (addresses.map (fun address => (toVec string address).length + 8)).sum :=
    List.sum_le_sum (fun address _ => by omega)
  exact listed.trans (Nat.add_le_add_left wider 2)

private theorem advertise_length (version : UInt8) (addresses : List String) :
    (toVec advertiseCodec (version, addresses)).length ≤
      64 + (addresses.map (fun address => (toVec string address).length + 8)).sum := by
  have shape : advertiseCodec.print (version, addresses) =
      "\x7b\"version\":".toList ++ u8.print version ++ ",\"addresses\":".toList ++
        (array string).print addresses ++ ['\x7d'] := by
    simp [advertiseCodec, object, fields, Json.field, Json.key, Codec.after, Codec.before, Codec.andThen]
  have listed := addresses_length addresses
  have number := length_toVec_le u8 version
  have digits := length_u8_le version
  have first : ("\x7b\"version\":".toList.flatMap String.utf8EncodeChar).length = 11 := by decide
  have second : (",\"addresses\":".toList.flatMap String.utf8EncodeChar).length = 13 := by decide
  have last : (['\x7d'].flatMap String.utf8EncodeChar).length = 1 := by decide
  simp only [toVec, shape, bytes_append, first, second, last] at listed number ⊢
  omega

private theorem pelt_length (pelt : PeltIdentity) : (toVec peltCodec pelt).length ≤
      128 + (toVec string pelt.publicKeyB64).length + (toVec string pelt.secretKeyB64).length +
        (toVec string pelt.fingerprint).length := by
  have shape : peltCodec.print pelt =
      "\x7b\"public_key_b64\":".toList ++ string.print pelt.publicKeyB64 ++
        ",\"secret_key_b64\":".toList ++ string.print pelt.secretKeyB64 ++
        ",\"fingerprint\":".toList ++ string.print pelt.fingerprint ++ ['\x7d'] := by
    simp [peltCodec, object, fields, Json.field, Json.key, Codec.after, Codec.before,
      Codec.andThen, Codec.imap]
  have first : ("\x7b\"public_key_b64\":".toList.flatMap String.utf8EncodeChar).length = 18 := by
    decide
  have second : (",\"secret_key_b64\":".toList.flatMap String.utf8EncodeChar).length = 18 := by
    decide
  have third : (",\"fingerprint\":".toList.flatMap String.utf8EncodeChar).length = 15 := by decide
  have last : (['\x7d'].flatMap String.utf8EncodeChar).length = 1 := by decide
  simp only [toVec, shape, bytes_append, first, second, third, last]
  omega

private theorem base64_length (bytes : List UInt8) :
    byteLength (base64Encode bytes) = 4 * ((bytes.length + 2) / 3) := by
  have ascii : ∀ digit < 26, (Char.ofNat (0x41 + digit)).utf8Size = 1 := by decide
  have repeated (count : Nat) (character : Char) :
      ((List.replicate count character).flatMap String.utf8EncodeChar).length = count * character.utf8Size := by
    induction count with
    | zero => simp
    | succ count ih =>
      simp only [List.replicate_succ, List.flatMap_cons, List.length_append,
        String.length_utf8EncodeChar, ih, Nat.succ_mul]
      omega
  rw [byteLength, ← length_utf8, base64Encode, String.toList_ofList, repeated,
    ascii _ (Nat.mod_lt _ (by decide)), Nat.mul_one]

theorem compact_faithful {platform : Platform}
    (base64Length : ∀ bytes, byteLength (platform.base64Encode bytes) = 4 * ((bytes.length + 2) / 3))
    (noSockets : ∀ text, platform.parseSocketAddr text = none) :
    (compact platform).Faithful := by
  have services := array_lawful serviceCodec_lawful.anywhere (fun _ => object_opens _ _) (by decide)
  have published := array_lawful publishedCodec_lawful.anywhere (fun _ => object_opens _ _) (by decide)
  have routes := array_lawful routeCodec_lawful.anywhere (fun _ => object_opens _ _) (by decide)
  constructor <;> dsimp only [compact]
  · exact fromSlice_toVec services trivial
  · exact fromSlice_toVec published trivial
  · exact fromSlice_toVec routes trivial
  · exact fromSlice_toVec advertiseCodec_lawful trivial
  · exact fromSlice_toVec peltCodec_lawful trivial
  · exact advertise_length
  · exact pelt_length
  · exact base64Length
  · intro text _ parsed
    cases (noSockets text).symm.trans parsed
  · intro text _ _ _ _ parsed
    cases (noSockets text).symm.trans parsed

theorem faithful : host.Faithful := compact_faithful base64_length (fun _ => rfl)

end Host

section Running

def keyText : String := base64Encode (List.replicate 32 1)

def pelt : PeltIdentity :=
  ⟨keyText, keyText, (fingerprintFromPublicKeyB64 platform.toExternal keyText).getD ""⟩

def environment : Environment where
  documents _ := .durablyCommitted
  archive := .durablyCommitted
  protectedState _ := .durablyCommitted
  tombstone := .durablyCommitted
  completion := .durablyCommitted
  demise := ⟨stages, fun _ => .untouched⟩
  bareBefore := true
  bareAfter := true
  drained _ := true
  listener := none
  released := true
  finished := []
  identity := pelt
  servesTls := true
  contacts := none

def stopped (den : Den) : System where
  node := {
    generation := none
    pelt := none
    peers := []
    targetPolicy := .deny
    fangProfiles := []
    activeProfiles := []
    governance := none
    services := []
    published := []
    routes := []
    advertised := []
    autoSync := true
    gate := Authority.Gate.initial true
    silver := .active
    mode := .silver
    fangs := []
    storageDegraded := false
    dying := false }
  den := den
  running := false
  indeterminate := false

def started : System := step host (stopped (fun _ => none)) (.restart environment)

def smoothly (command : Command) : Event := .command command (fun _ => environment)

end Running

end Werewolf.Control.Sample
