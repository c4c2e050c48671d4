import Werewolf.Library.Json
import Werewolf.State.Validation

/-! The bounds on a request at the control socket: the line that carries it and
the arguments each command may have. -/

namespace Werewolf.Control
open Library State

structure ControlRequest where
  id : String
  cmd : String
  args : List (String × String)
  deriving DecidableEq

def requestBytes : Nat := 16 * 1024

def argumentTable : List (List String × List String) := [
  (["pack.add"], ["name", "fingerprint", "address", "public_key_b64"]),
  (["pack.set_address"], ["name", "address"]),
  (["service.add"], ["name", "peer", "target", "kind"]),
  (["service.publish"], ["name", "target", "kind"]),
  (["service.add_from"], ["name", "peer", "transport"]),
  (["service.provider.add"], ["name", "peer", "target", "kind"]),
  (["service.provider.add_from"], ["name", "peer", "transport"]),
  (["service.provider.remove"], ["name", "peer"]),
  (["discover.services"], ["peer", "transport"]),
  (["route.set"], ["peer", "via", "hop"]),
  (["governance.apply"], ["statement", "expect_hash"]),
  (["governance.sync"], ["peer", "transport"]),
  (["den.retire"], ["confirm"]),
  (["governance.auto_sync"], ["state"]),
  (["route.remove"], ["peer"]),
  (["pack.remove", "pack.revoke", "service.remove", "service.unpublish", "service.show",
    "fang.profile.remove", "fang.open_profile", "fang.deactivate_profile"], ["name"]),
  (["fang.open"], ["peer", "local", "remote", "transport"]),
  (["service.connect"], ["name", "local", "transport"]),
  (["fang.profile.add"], ["name", "peer", "local", "remote", "transport"]),
  (["fang.close"], ["fang_id"]),
  (["target.policy.set"], ["document"]),
  (["target.allow", "target.remove"], ["peer", "target"]),
  (["discover.advertise"], ["addresses"]),
  (["discover.refresh"], ["transport"]),
  (["discover.find"], ["target", "transport"])]

def allowedArguments (cmd : String) : List String :=
  match argumentTable.find? (fun row => row.1.contains cmd) with
  | some row => row.2
  | none => []

def argumentLimit (key : String) : Nat :=
  if key ∈ ["name", "peer", "via"] then 128
  else if key ∈ ["local", "remote", "address", "public_key_b64", "target"] then 512
  else if key = "document" then 12 * 1024
  else if key = "statement" then 12 * 1024
  else if key = "addresses" then 4 * 257
  else 128

def checkRequest (request : ControlRequest) : Bool :=
  byteLength request.id ≤ 128 && request.cmd ≠ "" && byteLength request.cmd ≤ 64 &&
    request.cmd.toList.all (fun character => character.toNat < 128) &&
    request.args.all (fun argument => (allowedArguments request.cmd).contains argument.1 &&
      byteLength argument.2 ≤ argumentLimit argument.1)

def requestCodec : Codec ControlRequest :=
  (Json.object (Json.fields (Json.field "id" Json.string)
    (Json.fields (Json.field "cmd" Json.string)
    (Json.field "args" (Json.sequence '\x7b' '\x7d'
      (Json.string.andThen (Json.string.after [':']))))))).imap
    (fun request => (request.id, request.cmd, request.args))
    (fun (id, cmd, args) => some ⟨id, cmd, args⟩)

/-- A request as `werewolfctl` writes it. -/
def requestLine (request : ControlRequest) : List UInt8 :=
  Json.toVec requestCodec request ++ [0x0A]

/-- The request of `werewolfctl governance apply`, with its arguments in the order
of their keys. -/
def applyRequest (external : External) (statement : Governance.Statement)
    (expectHash : Option String) : ControlRequest where
  id := "werewolfctl"
  cmd := "governance.apply"
  args := (expectHash.map (fun hash => ("expect_hash", hash))).toList ++
    [("statement", external.base64Encode statement.encode)]

end Werewolf.Control
