import Werewolf.Control.Node

/-! The registry of Fangs and the tasks behind it. Every Fang has a listener, and
shares with it a tracker of the session children that the listener spawns. Whoever
drops the last tracker of a child without aborting it leaves the child to itself. -/

namespace Werewolf.Control
open Library

/-- A session child, by the Fang that spawned it. Fangs are counted as they open,
children as they start. -/
structure Child where
  fang : Nat
  number : Nat
  deriving DecidableEq

structure ChildTasks where
  accepting : Bool
  handles : List Child
  deriving DecidableEq

structure FangTermination where
  listeners : List Nat
  cancellations : List Nat
  deriving DecidableEq

/-- The listener and the tracker of a Fang are kept by its id. -/
structure FangRegistry where
  fangs : List Fang
  tasks : AList (fun _ : String => Nat)
  cancellations : AList (fun _ : String => Nat)

/-- The registry, the trackers as listeners and registry share them, and the tasks
themselves: the listeners that still run, and the children that run and have not
been aborted. The record of every Fang that was opened is kept by its count. -/
structure Runtime where
  registry : FangRegistry
  trackers : Nat → ChildTasks
  listening : Nat → Bool
  alive : List Child
  bundles : List FangTermination
  records : Nat → Fang
  opened : Nat
  spawned : Nat

namespace Runtime

def initial : Runtime where
  registry := ⟨[], ∅, ∅⟩
  trackers _ := ⟨true, []⟩
  listening _ := false
  alive := []
  bundles := []
  records _ := ⟨"", "", "", "", []⟩
  opened := 0
  spawned := 0

section Tasks

variable (runtime : Runtime)

def spawn (fang : Nat) : Runtime :=
  let tracker := runtime.trackers fang
  if runtime.listening fang && tracker.accepting then
    let child : Child := ⟨fang, runtime.spawned⟩
    { runtime with
      trackers := Function.update runtime.trackers fang
        { tracker with handles := tracker.handles.filter (· ∈ runtime.alive) ++ [child] }
      alive := runtime.alive ++ [child]
      spawned := runtime.spawned + 1 }
  else runtime

def closeAdmission (fang : Nat) : Runtime :=
  { runtime with
    trackers := Function.update runtime.trackers fang { runtime.trackers fang with accepting := false } }

def abortTaken (fang : Nat) : Runtime :=
  { runtime with
    trackers := Function.update runtime.trackers fang { runtime.trackers fang with handles := [] }
    alive := runtime.alive.filter (· ∉ (runtime.trackers fang).handles) }

def abortChildren (fang : Nat) : Runtime := (runtime.closeAdmission fang).abortTaken fang

def stopListener (fang : Nat) : Runtime :=
  { runtime with listening := Function.update runtime.listening fang false }

end Tasks

section Registering

variable (runtime : Runtime)

def publish (fang : Fang) : Runtime :=
  { runtime with
    registry := {
      fangs := runtime.registry.fangs ++ [fang]
      tasks := runtime.registry.tasks.insert fang.id runtime.opened
      cancellations := runtime.registry.cancellations.insert fang.id runtime.opened }
    trackers := Function.update runtime.trackers runtime.opened ⟨true, []⟩
    listening := Function.update runtime.listening runtime.opened true
    records := Function.update runtime.records runtime.opened fang
    opened := runtime.opened + 1 }

def dropTask (id : String) : Runtime :=
  { runtime with registry := { runtime.registry with tasks := runtime.registry.tasks.erase id } }

def dropCancellation (id : String) : Runtime :=
  { runtime with registry := { runtime.registry with
      cancellations := runtime.registry.cancellations.erase id } }

def retainRecords (keep : Fang → Bool) : Runtime :=
  { runtime with registry := { runtime.registry with
      fangs := runtime.registry.fangs.filter keep } }

def terminate (id : String) : Runtime :=
  let runtime :=
    match runtime.registry.tasks.lookup id with
    | some fang => (runtime.stopListener fang).dropTask id
    | none => runtime
  match runtime.registry.cancellations.lookup id with
  | some fang => (runtime.abortChildren fang).dropCancellation id
  | none => runtime

def terminateIds (ids : List String) : Runtime :=
  (ids.foldl terminate runtime).retainRecords (fun fang => fang.id ∉ ids)

def idsUsingPeer (peer : String) : List String :=
  (runtime.registry.fangs.filter (fun fang => fang.uses peer)).map (·.id)

def terminatePeer (peer : String) : Runtime := runtime.terminateIds (runtime.idsUsingPeer peer)

def detach (state : Runtime × FangTermination) (id : String) : Runtime × FangTermination :=
  let state :=
    match state.1.registry.cancellations.lookup id with
    | some fang => ((state.1.closeAdmission fang).dropCancellation id,
        { state.2 with cancellations := state.2.cancellations ++ [fang] })
    | none => state
  match state.1.registry.tasks.lookup id with
  | some fang => (state.1.dropTask id, { state.2 with listeners := state.2.listeners ++ [fang] })
  | none => state

def detachIds (ids : List String) : Runtime :=
  let detached := ids.foldl detach (runtime, ⟨[], []⟩)
  let kept := detached.1.retainRecords (fun fang => fang.id ∉ ids)
  { kept with bundles := kept.bundles ++ [detached.2] }

/-- `quiesce`, or the drop of the bundle. -/
def quiesce (index : Nat) : Runtime :=
  match runtime.bundles[index]? with
  | none => runtime
  | some bundle =>
      let stopped := bundle.listeners.foldl stopListener runtime
      let aborted := bundle.cancellations.foldl abortTaken stopped
      { aborted with bundles := aborted.bundles.eraseIdx index }

def finishedIds : List String :=
  (runtime.registry.tasks.entries.filter (fun entry => !runtime.listening entry.2)).map (·.1)

/-- `fang.list` and `fang.cleanup` drop what belongs to a listener that has ended. -/
def removeFinished : Runtime :=
  let dead := runtime.finishedIds
  (dead.foldl (fun runtime id => (runtime.dropTask id).dropCancellation id) runtime).retainRecords
    (fun fang => fang.id ∉ dead)

/-- `abort_all` and the clearing of the records. -/
def abortAll : Runtime :=
  let aborted := (runtime.registry.cancellations.entries.map (·.2)).foldl abortChildren runtime
  let stopped := (runtime.registry.tasks.entries.map (·.2)).foldl stopListener aborted
  { stopped with registry := ⟨[], ∅, ∅⟩ }

end Registering

end Runtime

/-- What happens to the registry and to the tasks behind it: a Fang is published,
closed, or closed with a peer; its listener takes a connection or ends; a child
ends; the finished are removed; Fangs are detached and their bundle quiesced; and
Silver, a fence or a terminal lock aborts everything. -/
inductive RegistryEvent where
  | publish (fang : Fang)
  | spawn (fang : Nat)
  | listenerEnds (fang : Nat)
  | childEnds (child : Child)
  | removeFinished
  | terminateIds (ids : List String)
  | terminatePeer (peer : String)
  | detachIds (ids : List String)
  | quiesce (index : Nat)
  | abortAll

def Runtime.step (runtime : Runtime) : RegistryEvent → Runtime
  | .publish fang => runtime.publish fang
  | .spawn fang => runtime.spawn fang
  | .listenerEnds fang => runtime.stopListener fang
  | .childEnds child => { runtime with alive := runtime.alive.filter (· ≠ child) }
  | .removeFinished => runtime.removeFinished
  | .terminateIds ids => runtime.terminateIds ids
  | .terminatePeer peer => runtime.terminatePeer peer
  | .detachIds ids => runtime.detachIds ids
  | .quiesce index => runtime.quiesce index
  | .abortAll => runtime.abortAll

end Werewolf.Control
