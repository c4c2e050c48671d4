import Werewolf.Control.Dial

/-! The restoration of Fangs at the start of the daemon. The control socket is
served already: the commands come between any two of its steps, each of which
holds the lock of the state once. -/

namespace Werewolf.Control
open Library State Policy

/-- How far the restoration is: the active profiles are read, and of each in turn
its profile is looked up, its Fang prepared, and the Fang published. -/
inductive Restoration where
  | waiting
  | looking (names : List String)
  | found (profile : FangProfile) (names : List String)
  | prepared (fang : Fang) (provider : Provider) (names : List String)

structure Restoring where
  system : System
  restoration : Restoration

inductive RestoringEvent where
  | control (event : Event) (requested : String)
  | restore (environment : Environment)

variable (host : Host) (environment : Environment)

def prepare (node : Node) (profile : FangProfile) (names : List String) : Restoration :=
  match fangGates host profile.peer profile.local profile.remote node,
    directResolve host.toAddressing node profile.transport profile.peer profile.remote,
    environment.listener with
  | .ok (), some provider, some listener =>
      .prepared ⟨listener.1, profile.peer, profile.local, profile.remote, provider.uses.tail⟩ provider names
  | _, _, _ => .looking names

/-- The prepared Fang is published as it is, whatever the node has become. -/
def System.publishFang (system : System) (fang : Fang) : System :=
  { system with node := { system.node with
      fangs := system.node.fangs ++ [fang]
      mode := .wolf
      storageDegraded := system.node.storageDegraded || !environment.released } }

namespace Restoring

def restore (state : Restoring) : Restoring :=
  match state.restoration with
  | .waiting => { state with restoration := .looking state.system.node.activeProfiles }
  | .looking [] => state
  | .looking (name :: names) =>
      match state.system.node.fangProfiles.find? (fun profile => profile.name = name) with
      | some profile => { state with restoration := .found profile names }
      | none => { state with restoration := .looking names }
  | .found profile names =>
      { state with restoration := prepare host environment state.system.node profile names }
  | .prepared fang _ names => ⟨state.system.publishFang environment fang, .looking names⟩

def onControl (state : Restoring) (event : Event) (requested : String) : Restoring where
  system := Control.step host state.system (event.listening host state.system.node requested)
  restoration :=
    match event with
    | .restart _ => .waiting
    | _ => state.restoration

def step (state : Restoring) : RestoringEvent → Restoring
  | .control event requested => state.onControl host event requested
  | .restore environment => if state.system.running then state.restore host environment else state

def dialling (state : Restoring) : RestoringEvent → List Provider
  | .control event requested =>
      ((event.opening host state.system.node requested).map (·.providers)).getD []
  | .restore _ =>
      match state.restoration with
      | .prepared _ provider _ => [provider]
      | _ => []

end Restoring

end Werewolf.Control
