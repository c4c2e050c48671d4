import Werewolf.Control.Services
import Werewolf.Library.Reader
import Werewolf.Policy.SocketText

/-! The encoding of a published service. The encoder relies on the check for the
lengths of its fields, and the check bounds only the name: the text of an address
with a scope can be longer than the decoder takes. -/

namespace Werewolf.Control
open Library Policy

inductive PublishedError where
  | name
  | target
  | duplicate
  | tooMany
  | malformed
  deriving DecidableEq

/-- `[`, 39 characters of IPv6, `]:` and five digits. -/
def maxTargetLen : Nat := 47

def maxEncodedLen : Nat := 1 + 2 + maxNameLen + 2 + maxTargetLen

def kindCode : ServiceKind → UInt8
  | .tcp => 0
  | .http => 1
  | .https => 2
  | .ssh => 3

def kindFromCode (code : UInt8) : Option ServiceKind :=
  if code = 0 then some .tcp
  else if code = 1 then some .http
  else if code = 2 then some .https
  else if code = 3 then some .ssh
  else none

def encodeField (text : String) : List UInt8 :=
  beBytes 2 (byteLength text) ++ text.toUTF8.data.toList

def readField (limit : Nat) : Reader PublishedError String := do
  let length ← Reader.number .malformed 2
  if limit < length then Reader.lift (.error .malformed)
  else
    let bytes ← Reader.take .malformed length
    match String.fromUTF8? ⟨bytes.val.toArray⟩ with
    | none => Reader.lift (.error .malformed)
    | some text => pure text

namespace PublishedService

def encode (service : PublishedService) : List UInt8 :=
  kindCode service.kind :: ([service.name, service.target].flatMap encodeField)

variable (addressing : Addressing) (socketText : SocketAddr → String)

def checked (service : PublishedService) : Except PublishedError Unit :=
  if !checkName service.name then .error .name
  else if !checkTarget addressing socketText service.target then .error .target
  else .ok ()

def readFields : Reader PublishedError (String × String) := do
  let name ← readField maxNameLen
  let target ← readField maxTargetLen
  Reader.finished .malformed
  return (name, target)

def decode : List UInt8 → Except PublishedError PublishedService
  | [] => .error .malformed
  | code :: rest =>
      if maxEncodedLen < rest.length + 1 then .error .malformed
      else
        match kindFromCode code with
        | none => .error .malformed
        | some kind => do
            let ((name, target), _) ← readFields rest
            let service : PublishedService := ⟨name, kind, target⟩
            checked addressing socketText service
            return service

section Reading

variable {addressing : Addressing} {socketText : SocketAddr → String}

theorem checked_eq_ok {service : PublishedService} : checked addressing socketText service = .ok () ↔
      service.check addressing socketText = true := by
  simp [checked, check, ite_eq_ok_iff]

end Reading

end PublishedService

section Fields

theorem length_encodeField (text : String) : (encodeField text).length = 2 + byteLength text :=
  Reader.length_prefixedText text

theorem readField_reads {limit : Nat} {text : String} (short : byteLength text ≤ limit)
    (word : limit < 2 ^ 16) : (readField limit).Reads (encodeField text) text :=
  Reader.text_reads short word

theorem readField_inverts {limit : Nat} {bytes rest : List UInt8} {text : String}
    (read : readField limit bytes = .ok (text, rest)) :
    bytes = encodeField text ++ rest ∧ byteLength text ≤ limit :=
  Reader.text_ok read

end Fields

namespace PublishedService

variable {addressing : Addressing} {socketText : SocketAddr → String}

theorem kindFromCode_kindCode (kind : ServiceKind) : kindFromCode (kindCode kind) = some kind := by
  cases kind <;> decide

theorem kindCode_of_kindFromCode {code : UInt8} {kind : ServiceKind}
    (found : kindFromCode code = some kind) : kindCode kind = code := by
  unfold kindFromCode at found
  split at found
  · cases found
    simp_all [kindCode]
  · split at found
    · cases found
      simp_all [kindCode]
    · split at found
      · cases found
        simp_all [kindCode]
      · split at found
        · cases found
          simp_all [kindCode]
        · cases found

theorem readFields_ok_iff {bytes rest : List UInt8} {name target : String} :
    readFields bytes = .ok ((name, target), rest) ↔ (bytes = encodeField name ++ encodeField target ∧ rest = []) ∧
        byteLength name ≤ maxNameLen ∧ byteLength target ≤ maxTargetLen := by
  constructor
  · intro read
    obtain ⟨_, _, first, read⟩ := Reader.bind_ok_iff.mp read
    obtain ⟨_, _, second, read⟩ := Reader.bind_ok_iff.mp read
    obtain ⟨_, _, last, read⟩ := Reader.bind_ok_iff.mp read
    obtain ⟨same, rfl⟩ := Reader.pure_ok_iff.mp read
    cases same
    obtain ⟨rfl, short⟩ := readField_inverts first
    obtain ⟨rfl, short'⟩ := readField_inverts second
    cases Reader.finished_ok last
    cases last
    exact ⟨⟨by rw [List.append_nil], rfl⟩, short, short'⟩
  · rintro ⟨⟨rfl, rfl⟩, short, short'⟩
    have first := readField_reads short (by decide)
    have second := readField_reads short' (by decide) []
    rw [List.append_nil] at second
    exact Reader.bind_ok_iff.mpr ⟨_, _, first _, Reader.bind_ok_iff.mpr ⟨_, _, second,
      Reader.bind_ok_iff.mpr ⟨(), [], rfl, rfl⟩⟩⟩

/-- The decoder takes exactly the encodings of checked services whose fields keep
to its limits. -/
theorem decode_eq_ok_iff {bytes : List UInt8} {service : PublishedService} :
    decode addressing socketText bytes = .ok service ↔
      service.encode = bytes ∧ service.check addressing socketText = true ∧
        byteLength service.name ≤ maxNameLen ∧ byteLength service.target ≤ maxTargetLen := by
  obtain ⟨name, kind, target⟩ := service
  constructor
  · intro decoded
    cases bytes with
    | nil => cases decoded
    | cons code rest =>
      simp only [decode, ite_eq_ok_iff] at decoded
      cases found : kindFromCode code with
      | none => simp [found] at decoded
      | some kind =>
        simp only [found, bind_eq_ok, return_eq_ok] at decoded
        obtain ⟨_, ⟨⟨_, _⟩, _⟩, read, _, passed, same⟩ := decoded
        cases same
        obtain ⟨⟨rfl, rfl⟩, short, short'⟩ := readFields_ok_iff.mp read
        refine ⟨?_, checked_eq_ok.mp passed, short, short'⟩
        simp [encode, kindCode_of_kindFromCode found]
  · rintro ⟨rfl, passed, short, short'⟩
    have read : readFields (encodeField name ++ encodeField target) = .ok ((name, target), []) :=
      readFields_ok_iff.mpr ⟨⟨rfl, rfl⟩, short, short'⟩
    have bounded : ¬ maxEncodedLen < (encodeField name ++ encodeField target).length + 1 := by
      simp only [List.length_append, length_encodeField, maxEncodedLen] at short short' ⊢
      omega
    simp only [encode, List.flatMap_cons, List.flatMap_nil, List.append_nil, decode,
      kindFromCode_kindCode, ite_eq_ok_iff, bind_eq_ok, return_eq_ok]
    exact ⟨bounded, ((name, target), []), read, (), checked_eq_ok.mpr passed, rfl⟩

end PublishedService

/-- A checked service is decoded from its encoding exactly if its target is within
the decoder's limit, as that of every address without a scope is. Whatever is
decoded encodes to its own bytes. -/
theorem published_encoding_is_canonical (addressing : Addressing) (socketText : SocketAddr → String) :
    (∀ service : PublishedService, service.check addressing socketText = true →
      (PublishedService.decode addressing socketText service.encode = .ok service ↔ byteLength service.target ≤ 47)) ∧
    (∀ bytes service, PublishedService.decode addressing socketText bytes = .ok service → service.encode = bytes) ∧
    ∀ (service : PublishedService) socket, service.check addressing SocketAddr.text = true →
      addressing.parseSocketAddr service.target = some socket →
      (∀ octets port flowinfo scopeId, socket = .v6 octets port flowinfo scopeId → scopeId = 0) →
        PublishedService.decode addressing SocketAddr.text service.encode = .ok service := by
  have named {socketText : SocketAddr → String} {service : PublishedService}
      (passed : service.check addressing socketText = true) :
      byteLength service.name ≤ maxNameLen := by
    simp only [PublishedService.check, checkName, field, Bool.and_eq_true, decide_eq_true_eq] at passed
    exact passed.1.1.2
  refine ⟨fun service passed => ?_, ?_, ?_⟩
  · rw [PublishedService.decode_eq_ok_iff]
    exact ⟨fun decoded => decoded.2.2.2, fun short => ⟨rfl, passed, named passed, short⟩⟩
  · exact fun bytes service decoded => (PublishedService.decode_eq_ok_iff.mp decoded).1
  · intro service socket passed parsed unscoped
    refine PublishedService.decode_eq_ok_iff.mpr ⟨rfl, passed, named passed, ?_⟩
    simp only [PublishedService.check, checkTarget, parsed, Option.any_some, Bool.and_eq_true,
      decide_eq_true_eq] at passed
    rw [← passed.2.2]
    exact SocketAddr.byteLength_text_le unscoped

namespace Sample

def linkLocal : SocketAddr :=
  .v6 ⟨[0xFE, 0x80, 0x11, 0x11, 0x22, 0x22, 0x33, 0x33, 0x44, 0x44, 0x55, 0x55, 0x66, 0x66, 0x77,
    0x77], rfl⟩ 65535 0 1

def loopback : SocketAddr := .v6 ⟨List.replicate 15 0 ++ [1], rfl⟩ 80 0 0

def literals : Addressing where
  ipText _ := ""
  parseIp _ := none
  parseSocketAddr text :=
    if text = linkLocal.text then some linkLocal
    else if text = loopback.text then some loopback
    else none

def published (socket : SocketAddr) : PublishedService := ⟨"files", .tcp, socket.text⟩

end Sample

open Sample

/-- A service at an address with a scope is published, but its encoding is
malformed. -/
theorem scoped_target_is_not_decoded :
    linkLocal.text = "[fe80:1111:2222:3333:4444:5555:6666:7777%1]:65535" ∧
    servicePublish literals SocketAddr.text [] "files" "tcp" linkLocal.text =
      .ok [published linkLocal] ∧
    PublishedService.decode literals SocketAddr.text (published linkLocal).encode = .error .malformed := by
  decide +kernel

/-- One at an address without a scope is decoded. -/
theorem loopback_target_is_decoded : PublishedService.decode literals SocketAddr.text
      (published loopback).encode = .ok (published loopback) :=
  ((published_encoding_is_canonical literals SocketAddr.text).1 _ (by decide +kernel)).mpr (by decide +kernel)

end Werewolf.Control
