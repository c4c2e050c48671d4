import Mathlib.Tactic.Common

/-! A directory with all that is below it, as a process sees it through names.
Two directories are told apart by what their names lead to, so the lemmas speak
of `find?` only. -/

namespace Werewolf.Library

/-- A regular file: its contents, its permission bits, whether it belongs to the
user and the group of the process, and its number of links. -/
structure File where
  data : List UInt8
  mode : Nat
  owned : Bool
  grouped : Bool
  links : Nat
  deriving DecidableEq

inductive Leaf where
  | file (file : File)
  | special
  deriving DecidableEq

inductive Tree where
  | nil
  | leaf (name : String) (leaf : Leaf) (rest : Tree)
  | directory (name : String) (children rest : Tree)
  deriving DecidableEq

inductive Entry where
  | leaf (leaf : Leaf)
  | directory (children : Tree)
  deriving DecidableEq

namespace Tree

variable {name : String} {tree : Tree}

def find? (name : String) : Tree → Option Entry
  | nil => none
  | leaf other found rest => if other = name then some (.leaf found) else find? name rest
  | directory other children rest =>
      if other = name then some (.directory children) else find? name rest

def erase (name : String) : Tree → Tree
  | nil => nil
  | leaf other found rest =>
      if other = name then erase name rest else leaf other found (erase name rest)
  | directory other children rest =>
      if other = name then erase name rest else directory other children (erase name rest)

def set (name : String) (entry : Entry) (tree : Tree) : Tree :=
  match entry with
  | .leaf found => leaf name found (tree.erase name)
  | .directory children => directory name children (tree.erase name)

def names : Tree → List String
  | nil => []
  | leaf name _ rest => name :: names rest
  | directory name _ rest => name :: names rest

/-- The tree with what another holds under a name. -/
def keep (name : String) (source tree : Tree) : Tree :=
  match source.find? name with
  | some entry => tree.set name entry
  | none => tree.erase name

def rename (source target : String) (tree : Tree) : Tree :=
  match tree.find? source with
  | some entry => (tree.erase source).set target entry
  | none => tree

@[simp] theorem find?_nil (name : String) : nil.find? name = none := rfl

theorem find?_erase (name other : String) (tree : Tree) :
    (tree.erase name).find? other = if other = name then none else tree.find? other := by
  induction tree with
  | nil => simp [erase]
  | leaf own found rest ih => by_cases same : own = name <;> grind [erase, find?]
  | directory own children rest _ ih => by_cases same : own = name <;> grind [erase, find?]

theorem find?_set (name other : String) (entry : Entry) (tree : Tree) :
    (tree.set name entry).find? other = if other = name then some entry else tree.find? other := by
  cases entry <;> simp only [set, find?, find?_erase, eq_comm (a := name)] <;> split <;> simp_all

theorem mem_names : name ∈ tree.names ↔ tree.find? name ≠ none := by
  induction tree with
  | nil => simp [names]
  | leaf own found rest ih =>
    simp only [names, List.mem_cons, find?, ih, eq_comm (a := name)]
    split <;> simp_all
  | directory own children rest _ ih =>
    simp only [names, List.mem_cons, find?, ih, eq_comm (a := name)]
    split <;> simp_all

theorem find?_rename {source target : String} {entry : Entry}
    (found : tree.find? source = some entry) (other : String) :
    (tree.rename source target).find? other =
      if other = target then some entry else if other = source then none else tree.find? other := by
  simp only [rename, found, find?_set, find?_erase]

end Tree

end Werewolf.Library
