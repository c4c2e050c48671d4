import Mathlib.Data.List.Basic
import Werewolf.Library.Directory

/-! The destruction of one entry of a directory. Between the look at an entry and its
opening someone else may put anything in its place; every call may fail. -/

namespace Werewolf.Storage.Destroy
open Library (File)

/-- What a name leads to, where no link is followed. -/
inductive Object where
  | file (file : File)
  | symlink
  | special
  | directory (children : List (String × Object))

abbrev Dir := List (String × Object)

def look (dir : Dir) (name : String) : Option Object :=
  (dir.find? (fun entry => entry.1 = name)).map (·.2)

def remove (dir : Dir) (name : String) : Dir := dir.filter (fun entry => entry.1 ≠ name)

def swap (dir : Dir) (name : String) (object : Option Object) : Dir :=
  (object.map (fun object => (name, object))).toList ++ remove dir name

inductive Effect where
  | opened (path : List String) (object : Object)
  | wrote (path : List String) (object : Object) (bytes : List UInt8)
  | removed (path : List String)

def Object.eligible : Object → Bool
  | .file found => found.links = 1 && found.owned
  | _ => false

def Object.opens : Object → Bool
  | .file _ => true
  | .special => true
  | _ => false

def Object.isDirectory : Object → Bool
  | .directory _ => true
  | _ => false

def Object.size : Object → Nat
  | .file found => found.data.length
  | _ => 0

def zerosLen : Nat := 64 * 1024

def zeros (left : Nat) : List (List UInt8) :=
  if left = 0 then []
  else
    let chunk := min left zerosLen
    List.replicate chunk 0 :: zeros (left - chunk)
decreasing_by
  simp only [zerosLen]
  omega

/-- `overwrite_if_eligible` of an opened descriptor, as far as it comes. -/
inductive Overwrites (path : List String) (object : Object) : List Effect → Bool → Prop where
  | failed : Overwrites path object [] false
  | ineligible (not : object.eligible = false) : Overwrites path object [] true
  | interrupted {bytes : List UInt8} (eligible : object.eligible = true)
      (part : bytes <+: (zeros object.size).flatten) :
      Overwrites path object [.wrote path object bytes] false
  | whole (eligible : object.eligible = true) :
      Overwrites path object [.wrote path object (zeros object.size).flatten] true

inductive Unlinks (path : List String) (dir : Dir) (name : String) :
    List Effect → Dir → Bool → Prop where
  | gone (absent : look dir name = none) : Unlinks path dir name [] dir true
  | failed : Unlinks path dir name [] dir false
  | unlinked {object : Object} (found : look dir name = some object)
      (plain : object.isDirectory = false) :
      Unlinks path dir name [.removed (path ++ [name])] (remove dir name) true

/-- `destroy_in` of an entry that was not seen as a directory. -/
inductive DestroysLeaf (path : List String) (dir : Dir) (name : String) :
    List Effect → Dir → Bool → Prop where
  | unseen : DestroysLeaf path dir name [] dir false
  | missing (absent : look dir name = none) : DestroysLeaf path dir name [] dir true
  /-- Symbolic links, sockets, pipes and devices. -/
  | special {object : Object} {effects : List Effect} {final : Dir} {ok : Bool}
      (seen : look dir name = some object) (other : object = .symlink ∨ object = .special)
      (unlinks : Unlinks path dir name effects final ok) :
      DestroysLeaf path dir name effects final ok
  | shut {file : File} {effects : List Effect} {final : Dir} {ok : Bool}
      (seen : look dir name = some (.file file)) (swapped : Option Object)
      (unlinks : Unlinks path (swap dir name swapped) name effects final ok) :
      DestroysLeaf path dir name effects final ok
  | spoiled {file : File} {swapped : Object} {written : List Effect}
      (seen : look dir name = some (.file file)) (opens : swapped.opens = true)
      (overwrites : Overwrites (path ++ [name]) swapped written false) :
      DestroysLeaf path dir name (.opened (path ++ [name]) swapped :: written)
        (swap dir name (some swapped)) false
  | overwritten {file : File} {swapped : Object} {written effects : List Effect} {final : Dir}
      {ok : Bool} (seen : look dir name = some (.file file)) (opens : swapped.opens = true)
      (overwrites : Overwrites (path ++ [name]) swapped written true)
      (unlinks : Unlinks path (swap dir name (some swapped)) name effects final ok) :
      DestroysLeaf path dir name (.opened (path ++ [name]) swapped :: written ++ effects) final ok

/-- `destroy_in` of some entries, one after the other and up to the first that fails. The
entries of a directory are destroyed before it is removed. -/
inductive Destroys : List String → Dir → List String → List Effect → Dir → Bool → Prop where
  | nil (path : List String) (dir : Dir) : Destroys path dir [] [] dir true
  | stuck {path rest : List String} {dir middle : Dir} {name : String} {effects : List Effect}
      (head : DestroysLeaf path dir name effects middle false) :
      Destroys path dir (name :: rest) effects middle false
  | leaf {path rest : List String} {dir middle final : Dir} {name : String}
      {effects more : List Effect} {ok : Bool}
      (head : DestroysLeaf path dir name effects middle true)
      (tail : Destroys path middle rest more final ok) :
      Destroys path dir (name :: rest) (effects ++ more) final ok
  | closed {path rest : List String} {dir : Dir} {name : String} {old : Dir}
      (seen : look dir name = some (.directory old)) (swapped : Option Object) :
      Destroys path dir (name :: rest) [] (swap dir name swapped) false
  /-- An entry of the directory cannot be destroyed, or the directory not be removed. -/
  | halted {path rest listed : List String} {dir old children left : Dir} {name : String}
      {effects : List Effect} {ok : Bool} (seen : look dir name = some (.directory old))
      (all : listed.Perm (children.map (·.1)))
      (inside : Destroys (path ++ [name]) children listed effects left ok) :
      Destroys path dir (name :: rest) (.opened (path ++ [name]) (.directory children) :: effects)
        (swap dir name (some (.directory left))) false
  | emptied {path rest listed : List String} {dir old children final : Dir} {name : String}
      {effects more : List Effect} {ok : Bool} (seen : look dir name = some (.directory old))
      (all : listed.Perm (children.map (·.1)))
      (inside : Destroys (path ++ [name]) children listed effects [] true)
      (tail : Destroys path (remove dir name) rest more final ok) :
      Destroys path dir (name :: rest) (.opened (path ++ [name]) (.directory children) :: effects ++
        .removed (path ++ [name]) :: more) final ok

section Looking

variable {dir : Dir} {name other : String}

theorem look_remove_self : look (remove dir name) name = none := by
  simp [look, remove]

theorem look_remove (apart : other ≠ name) : look (remove dir name) other = look dir other := by
  unfold look remove
  rw [List.find?_filter]
  congr 2
  funext entry
  by_cases same : entry.1 = other <;> simp [same, apart]

theorem look_swap (apart : other ≠ name) (object : Option Object) :
    look (swap dir name object) other = look dir other := by
  have rest : look (remove dir name) other = look dir other := look_remove apart
  cases object with
  | none => exact rest
  | some object =>
    rw [← rest]
    simp [look, swap, Ne.symm apart]

end Looking

theorem zeros_flatten (size : Nat) : (zeros size).flatten = List.replicate size 0 := by
  fun_induction zeros size with
  | case1 => rfl
  | case2 left some chunk ih =>
    rw [List.flatten_cons, ih, List.replicate_append_replicate]
    congr 1
    omega

def Effect.Confined (path names : List String) : Effect → Prop
  | .opened place object => object ≠ .symlink ∧ ∃ name ∈ names, path ++ [name] <+: place
  | .removed place => ∃ name ∈ names, path ++ [name] <+: place
  | .wrote place object bytes => (∃ file, object = .file file ∧ file.links = 1 ∧ file.owned = true ∧
      bytes.length ≤ file.data.length) ∧ (∀ byte ∈ bytes, byte = 0) ∧ ∃ name ∈ names, path ++ [name] <+: place

structure Confines (path : List String) (dir : Dir) (names : List String) (effects : List Effect)
    (final : Dir) (ok : Bool) : Prop where
  effects : ∀ effect ∈ effects, effect.Confined path names
  apart : ∀ other, other ∉ names → look final other = look dir other
  gone : ok = true → ∀ name ∈ names, look final name = none

section Confining

variable {path names : List String} {dir final : Dir} {name : String} {effects : List Effect}
  {ok : Bool} {effect : Effect}

theorem Effect.Confined.mono {wider more : List String} (confined : effect.Confined path names)
    (within : ∀ place, (∃ name ∈ names, path ++ [name] <+: place) →
      ∃ name ∈ more, wider ++ [name] <+: place) : effect.Confined wider more := by
  cases effect with
  | opened => exact ⟨confined.1, within _ confined.2⟩
  | removed => exact within _ confined
  | wrote => exact ⟨confined.1, confined.2.1, within _ confined.2.2⟩

theorem Effect.Confined.widen {more : List String} (confined : effect.Confined path names)
    (included : ∀ name ∈ names, name ∈ more) :
    effect.Confined path more :=
  confined.mono (fun _ ⟨name, listed, below⟩ => ⟨name, included name listed, below⟩)

theorem Effect.Confined.lift (confined : effect.Confined (path ++ [name]) names) : effect.Confined path [name] :=
  confined.mono (fun _ ⟨_, _, below⟩ => ⟨name, by simp, (List.prefix_append _ _).trans below⟩)

theorem Overwrites.confined {object : Object} (overwrites : Overwrites (path ++ [name]) object effects ok) :
    ∀ effect ∈ effects, effect.Confined path [name] := by
  have wrote {bytes : List UInt8} (eligible : object.eligible = true) (part : bytes <+: (zeros object.size).flatten) :
      (Effect.wrote (path ++ [name]) object bytes).Confined path [name] := by
    rw [zeros_flatten] at part
    cases object with
    | file file =>
      simp only [Object.eligible, Bool.and_eq_true, decide_eq_true_eq] at eligible
      refine ⟨⟨file, rfl, eligible.1, eligible.2, ?_⟩, fun byte listed => ?_, name, by simp, List.prefix_refl _⟩
      · simpa [Object.size] using part.length_le
      · exact List.eq_of_mem_replicate (part.subset listed)
    | symlink => cases eligible
    | special => cases eligible
    | directory => cases eligible
  cases overwrites with
  | failed => simp
  | ineligible => simp
  | interrupted eligible part => simpa using wrote eligible part
  | whole eligible => simpa using wrote eligible (List.prefix_refl _)

theorem Unlinks.confines (unlinks : Unlinks path dir name effects final ok) :
    Confines path dir [name] effects final ok := by
  cases unlinks with
  | gone absent => exact ⟨by simp, fun _ _ => rfl, by simpa using absent⟩
  | failed => exact ⟨by simp, fun _ _ => rfl, by simp⟩
  | unlinked found plain =>
    refine ⟨?_, fun other apart => look_remove (by simpa using apart), fun _ => ?_⟩
    · simp [Effect.Confined]
    · simpa using look_remove_self

theorem Confines.swapped {object : Option Object}
    (confines : Confines path (swap dir name object) [name] effects final ok) :
    Confines path dir [name] effects final ok :=
  ⟨confines.effects, fun other apart => (confines.apart other apart).trans
    (look_swap (by simpa using apart) object), confines.gone⟩

theorem DestroysLeaf.confines (destroys : DestroysLeaf path dir name effects final ok) :
    Confines path dir [name] effects final ok := by
  have opened {object : Object} (opens : object.opens = true) :
      (Effect.opened (path ++ [name]) object).Confined path [name] := by
    refine ⟨fun same => ?_, name, by simp, List.prefix_refl _⟩
    rw [same] at opens
    cases opens
  cases destroys with
  | unseen => exact ⟨by simp, fun _ _ => rfl, by simp⟩
  | missing absent => exact ⟨by simp, fun _ _ => rfl, by simpa using absent⟩
  | special _ _ unlinks => exact unlinks.confines
  | shut _ _ unlinks => exact unlinks.confines.swapped
  | spoiled _ opens overwrites =>
    refine ⟨?_, fun other apart => look_swap (by simpa using apart) _, by simp⟩
    exact List.forall_mem_cons.mpr ⟨opened opens, overwrites.confined⟩
  | overwritten _ opens overwrites unlinks =>
    have confines := unlinks.confines.swapped
    refine ⟨?_, confines.apart, confines.gone⟩
    exact List.forall_mem_append.mpr ⟨List.forall_mem_cons.mpr ⟨opened opens, overwrites.confined⟩, confines.effects⟩

theorem Confines.cons {rest : List String} {middle : Dir} {more : List Effect}
    (head : Confines path dir [name] effects middle true) (tail : Confines path middle rest more final ok) :
    Confines path dir (name :: rest) (effects ++ more) final ok := by
  refine ⟨?_, fun other apart => ?_, fun succeeds => ?_⟩
  · refine List.forall_mem_append.mpr ⟨fun effect listed => ?_, fun effect listed => ?_⟩
    · exact (head.effects effect listed).widen (by simp)
    · exact (tail.effects effect listed).widen (fun _ => List.mem_cons_of_mem _)
  · rw [List.mem_cons, not_or] at apart
    exact (tail.apart other apart.2).trans (head.apart other (by simpa using apart.1))
  · refine List.forall_mem_cons.mpr ⟨?_, tail.gone succeeds⟩
    by_cases again : name ∈ rest
    · exact tail.gone succeeds name again
    · rw [tail.apart name again]
      exact head.gone rfl name (by simp)

theorem Confines.failed {rest : List String} (head : Confines path dir [name] effects final ok) :
    Confines path dir (name :: rest) effects final false := by
  refine ⟨fun effect listed => (head.effects effect listed).widen (by simp), fun other apart => ?_,
    by simp⟩
  rw [List.mem_cons, not_or] at apart
  exact head.apart other (by simpa using apart.1)

theorem Confines.inside {children left : Dir} (inside : Confines (path ++ [name]) children names effects left ok) :
    ∀ effect ∈ .opened (path ++ [name]) (.directory children) :: effects, effect.Confined path [name] := by
  refine List.forall_mem_cons.mpr ⟨⟨nofun, name, by simp, List.prefix_refl _⟩, ?_⟩
  exact fun effect listed => (inside.effects effect listed).lift

theorem Destroys.confines (destroys : Destroys path dir names effects final ok) :
    Confines path dir names effects final ok := by
  induction destroys with
  | nil path dir => exact ⟨by simp, fun _ _ => rfl, by simp⟩
  | stuck head => exact head.confines.failed
  | leaf head _ ih => exact head.confines.cons ih
  | @closed path rest dir name _ _ swapped =>
    have head : Confines path dir [name] [] (swap dir name swapped) false :=
      ⟨by simp, fun other apart => look_swap (by simpa using apart) _, by simp⟩
    exact head.failed
  | @halted path rest _ dir _ _ left name effects _ _ _ _ ih =>
    have head : Confines path dir [name] _ (swap dir name (some (.directory left))) false :=
      ⟨ih.inside, fun other apart => look_swap (by simpa using apart) _, by simp⟩
    exact head.failed
  | @emptied path rest _ dir _ _ _ name effects _ _ _ _ _ _ ih later =>
    have removed : (Effect.removed (path ++ [name])).Confined path [name] :=
      ⟨name, by simp, List.prefix_refl _⟩
    have head : Confines path dir [name] (_ ++ [.removed (path ++ [name])]) (remove dir name) true :=
      ⟨List.forall_mem_append.mpr ⟨ih.inside, by simpa using removed⟩,
        fun other apart => look_remove (by simpa using apart), by simpa using look_remove_self⟩
    simpa using head.cons later

end Confining

/-- Whatever is put in the place of an entry before it is opened: only zeros are written,
to files of one link and this owner and no more than their size, no link is followed, only what
is below the name is removed, and after a success the name is gone. -/
theorem destruction_is_confined (dir final : Dir) (name : String) (effects : List Effect) (ok : Bool)
    (destroys : Destroys [] dir [name] effects final ok) :
    (∀ path object bytes, .wrote path object bytes ∈ effects →
      (∃ file, object = .file file ∧ file.links = 1 ∧ file.owned = true ∧
        bytes.length ≤ file.data.length) ∧ (∀ byte ∈ bytes, byte = 0) ∧ [name] <+: path) ∧
      (∀ path object, .opened path object ∈ effects → object ≠ .symlink ∧ [name] <+: path) ∧
      (∀ path, .removed path ∈ effects → [name] <+: path) ∧
      (∀ other, other ≠ name → look final other = look dir other) ∧
      (ok = true → look final name = none) := by
  have confines := destroys.confines
  have within {path : List String} : (∃ inner ∈ [name], [] ++ [inner] <+: path) → [name] <+: path := by
    simp
  refine ⟨fun path object bytes wrote => ?_, fun path object opened => ?_, fun path removed => ?_,
    fun other apart => confines.apart other (by simpa using apart),
    fun succeeds => confines.gone succeeds name (by simp)⟩
  · obtain ⟨eligible, zero, below⟩ := confines.effects _ wrote
    exact ⟨eligible, zero, within below⟩
  · obtain ⟨followed, below⟩ := confines.effects _ opened
    exact ⟨followed, within below⟩
  · exact within (confines.effects _ removed)

namespace Sample

def secret : File := ⟨[1, 2, 3], 0o600, true, true, 1⟩

def shared : File := ⟨[4, 5], 0o600, true, true, 2⟩

theorem shared_is_unlinked : look [] "pelt" = none ∧
    Destroys [] [("pelt", .file secret)] ["pelt"]
      [.opened ["pelt"] (.file shared), .removed ["pelt"]] [] true := by
  have destroys : Destroys [] [("pelt", .file secret)] ["pelt"]
      [.opened ["pelt"] (.file shared), .removed ["pelt"]] [] true :=
    .leaf (.overwritten rfl rfl (.ineligible rfl) (.unlinked rfl rfl)) (.nil _ _)
  exact ⟨(destruction_is_confined _ _ _ _ _ destroys).2.2.2.2 rfl, destroys⟩

end Sample

end Werewolf.Storage.Destroy
