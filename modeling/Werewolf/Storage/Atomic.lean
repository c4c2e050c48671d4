import Mathlib.Logic.Function.Basic
import Werewolf.Library.Procedure

/-! The replacement of a file in a private directory, one system call at a time. Any
call may fail, and the process may stop at any of them. -/

namespace Werewolf.Storage.Atomic
open Library Procedure

/-- A file with its number, and whether it is a regular one of this process with no other
link. -/
structure Inode where
  number : Nat
  data : List UInt8
  regular : Bool

/-- The entries of a directory with their files as they are now; and which files the
entries lead to, and what is in the files, if the power is lost. -/
structure Folder where
  entries : String → Option Inode
  syncedEntries : String → Option Nat
  syncedData : Nat → List UInt8
  next : Nat

namespace Folder

variable (folder : Folder) (name : String)

/-- `openat` with `O_CREAT | O_EXCL`. -/
def create : Folder :=
  { folder with
    entries := Function.update folder.entries name (some ⟨folder.next, [], true⟩)
    next := folder.next + 1 }

/-- Bytes for the file that the call has created. It has no other name before it takes its
place. -/
def append (bytes : List UInt8) : Folder :=
  { folder with
    entries := Function.update folder.entries name ((folder.entries name).map (fun inode =>
      { inode with data := inode.data ++ bytes })) }

def syncFile : Folder :=
  match folder.entries name with
  | none => folder
  | some inode =>
      { folder with syncedData := Function.update folder.syncedData inode.number inode.data }

def sync : Folder :=
  { folder with syncedEntries := fun name => (folder.entries name).map (·.number) }

def unlink : Folder := { folder with entries := Function.update folder.entries name none }

def rename (target : String) : Folder :=
  { folder with
    entries := Function.update (Function.update folder.entries name none) target (folder.entries name) }

end Folder

/-- What becomes of a call. One that is interrupted may have done a part of its work. -/
inductive Fate where
  | succeeds
  | fails (part : Nat)
  | stops (part : Nat)

inductive Failure where
  | failed
  | stopped

structure Attempt where
  folder : Folder
  created : Option Nat
  renamed : Bool

abbrev Calls := Procedure (Attempt × List Fate) Failure

variable {α β : Type}

def Attempt.call (part : Nat → Folder → Folder) (whole : Folder → Option (α × Folder)) :
    Attempt × List Fate → Except Failure α × Attempt × List Fate
  | (attempt, fates) =>
      match fates.headD .succeeds with
      | .fails count =>
          (.error .failed, { attempt with folder := part count attempt.folder }, fates.tail)
      | .stops count =>
          (.error .stopped, { attempt with folder := part count attempt.folder }, fates.tail)
      | .succeeds =>
          match whole attempt.folder with
          | some (value, folder) => (.ok value, { attempt with folder := folder }, fates.tail)
          | none => (.error .failed, attempt, fates.tail)

def callInPart (part : Nat → Folder → Folder) (whole : Folder → Option (α × Folder)) : Calls α :=
  alter (Attempt.call part whole) >>= liftExcept

def call (whole : Folder → Option (α × Folder)) : Calls α := callInPart (fun _ => id) whole

def pass : Calls Unit := call (fun folder => some ((), folder))

def assign (change : Attempt → Attempt) : Calls Unit :=
  alter (fun (attempt, fates) => ((), change attempt, fates))

/-- The result of a procedure that may fail. A process that has stopped does not go on. -/
def survive (procedure : Calls α) : Calls (Option α) :=
  attempt procedure >>= fun
    | .ok value => pure (some value)
    | .error .failed => pure none
    | .error .stopped => throw .stopped

inductive CommitOutcome where
  | notCommitted
  | durablyCommitted
  | indeterminateAfterRename
  deriving DecidableEq

section Replacing

variable (valid : String → Bool) (name : String) (data : List UInt8) (createOnly : Bool)
  (temporary : String)

def namedRegular (name : String) : Calls (Option Nat) := do
  check (valid name) .failed
  pass -- `revalidate`
  call (fun folder =>
    match folder.entries name with
    | none => some (none, folder)
    | some inode => if inode.regular then some (some inode.number, folder) else none)

def writeAll (bytes : List UInt8) : Calls Unit :=
  callInPart (fun part folder => folder.append temporary (bytes.take part))
    (fun folder => some ((), folder.append temporary bytes))

def createTemporary : Calls Nat := do
  let inode ← call (fun folder =>
    match folder.entries temporary with
    | some _ => none
    | none => some (folder.next, folder.create temporary))
  pass -- `fstat` and `regular`
  assign (fun attempt => { attempt with created := some inode })
  return inode

def fill : Calls Unit := do
  pass -- AfterCreate
  writeAll temporary (data.take (data.length / 2))
  pass -- MidWrite
  writeAll temporary (data.drop (data.length / 2))
  pass -- `flush`
  pass -- BeforeFileSync
  call (fun folder => some ((), folder.syncFile temporary))
  pass -- BeforeRename

def takePlace (before : Option Nat) (inode : Nat) : Calls Unit := do
  let again ← namedRegular valid name
  check (again = before) .failed
  let created ← namedRegular valid temporary
  check (created = some inode) .failed
  call (fun folder =>
    if before.isNone && (folder.entries name).isSome then none
    else some ((), folder.rename temporary name))
  assign (fun attempt => { attempt with renamed := true })

def commit : Calls Unit := do
  check (valid temporary) .failed
  check (data.length ≤ 1024 * 1024 && name ≠ temporary) .failed
  let before ← namedRegular valid name
  check (!(createOnly && before.isSome)) .failed
  pass -- BeforeCreate
  let inode ← createTemporary temporary
  fill data temporary
  takePlace valid name temporary before inode
  pass -- AfterRename
  call (fun folder => some ((), folder.sync))
  pass -- AfterDirectorySync

/-- Only the file that this call has created is removed, and as far as that works. -/
def cleanup (inode : Nat) : Calls Unit := do
  let found ← namedRegular valid temporary
  check (found = some inode) .failed
  call (fun folder => some ((), folder.unlink temporary))

def replaceWith : Calls CommitOutcome := do
  match ← survive (commit valid name data createOnly temporary) with
  | some () => return .durablyCommitted
  | none =>
      let attempt ← alter (fun state => (state.1, state))
      if attempt.renamed then return .indeterminateAfterRename
      else
        match attempt.created with
        | none => return .notCommitted
        | some inode =>
            let _ ← survive (cleanup valid temporary inode)
            return .notCommitted

end Replacing

section Rules

variable {state : Attempt} {fails : Attempt → Prop} {after : α → Attempt → Prop}
  {part : Nat → Folder → Folder} {whole : Folder → Option (α × Folder)}

/-- Whatever the fates of its calls are, what a procedure leaves meets the condition, and
what it returns the other one. -/
def Stays (state : Attempt) (procedure : Calls α) (fails : Attempt → Prop) (after : α → Attempt → Prop) : Prop :=
  ∀ fates, Replies (state, fates) procedure (fun _ next => fails next.1) (fun value next => after value next.1)

theorem stays_pure {value : α} (holds : after value state) :
    Stays state (pure value) fails after := fun _ => replies_pure holds

theorem stays_bind {first : Calls α} {rest : α → Calls β} {middle : α → Attempt → Prop}
    {after : β → Attempt → Prop} (now : Stays state first fails middle)
    (later : ∀ value next, middle value next → Stays next (rest value) fails after) :
    Stays state (first >>= rest) fails after :=
  fun fates => replies_bind (now fates) (fun value next holds => later value next.1 holds next.2)

theorem stays_check {condition : Bool} {rest : Unit → Calls β} {after : β → Attempt → Prop}
    (failed : fails state) (passes : condition = true → Stays state (rest ()) fails after) :
    Stays state (check condition .failed >>= rest) fails after :=
  fun fates => replies_check_bind (fun _ => failed) (fun holds => passes holds fates)

theorem stays_callInPart (spoiled : ∀ count, fails { state with folder := part count state.folder })
    (refused : fails state) (works : ∀ value folder, whole state.folder = some (value, folder) →
      after value { state with folder := folder }) :
    Stays state (callInPart part whole) fails after := by
  refine fun fates => replies_alter_bind ?_
  simp only [Attempt.call]
  cases fates.headD .succeeds with
  | fails count =>
    refine replies_throw ?_
    exact spoiled count
  | stops count =>
    refine replies_throw ?_
    exact spoiled count
  | succeeds =>
    cases worked : whole state.folder with
    | none =>
      refine replies_throw ?_
      exact refused
    | some result =>
      refine replies_pure ?_
      exact works result.1 result.2 worked

theorem stays_call (failed : fails state) (works : ∀ value folder, whole state.folder = some (value, folder) →
      after value { state with folder := folder }) : Stays state (call whole) fails after :=
  stays_callInPart (fun _ => failed) failed works

theorem stays_pass {after : Unit → Attempt → Prop} (failed : fails state) (holds : after () state) :
    Stays state pass fails after := by
  refine stays_call failed (fun _ _ worked => ?_)
  cases worked
  exact holds

theorem stays_survive {procedure : Calls α} {ends : Attempt → Prop}
    (stays : Stays state procedure ends after) (stopped : ∀ next, ends next → fails next) :
    Stays state (survive procedure) fails (fun value next =>
      match value with
      | some value => after value next
      | none => ends next) := by
  refine fun fates => replies_alter_bind ?_
  obtain ⟨failed, returned⟩ := stays fates
  cases result : (execute procedure (state, fates)).1 with
  | ok value => exact replies_pure (returned value result)
  | error failure =>
    cases failure with
    | failed => exact replies_pure (failed _ result)
    | stopped => exact replies_throw (stopped _ (failed _ result))

theorem stays_namedRegular {valid : String → Bool} {name : String} (failed : fails state) :
    Stays state (namedRegular valid name) fails (fun found next =>
      next = state ∧ found = (state.folder.entries name).map (·.number)) := by
  refine stays_check failed (fun _ => stays_bind
    (stays_pass failed rfl : Stays state pass fails (fun _ next => next = state)) ?_)
  rintro _ _ rfl
  refine stays_call failed (fun found folder worked => ?_)
  split at worked
  · rename_i absent
    cases worked
    exact ⟨rfl, by rw [absent]; rfl⟩
  · rename_i inode present
    simp only [Option.ite_none_right_eq_some, Option.some.injEq, Prod.mk.injEq] at worked
    obtain ⟨_, rfl, rfl⟩ := worked
    exact ⟨rfl, by rw [present]; rfl⟩

end Rules

structure Job where
  original : Folder
  name : String
  temporary : String
  data : List UInt8
  createOnly : Bool

namespace Job

variable (job : Job)

def Begun (state : Attempt) : Prop := state = ⟨job.original, none, false⟩

structure Made (bytes : List UInt8) (state : Attempt) : Prop where
  different : job.name ≠ job.temporary
  free : job.original.entries job.temporary = none
  entries : state.folder.entries =
    Function.update job.original.entries job.temporary (some ⟨job.original.next, bytes, true⟩)
  renamed : state.renamed = false

structure Placed (state : Attempt) : Prop where
  different : job.name ≠ job.temporary
  free : job.original.entries job.temporary = none
  allowed : job.createOnly = true → job.original.entries job.name = none
  entries : state.folder.entries =
    Function.update (Function.update job.original.entries job.temporary none) job.name
      (some ⟨job.original.next, job.data, true⟩)
  durable : state.folder.syncedData job.original.next = job.data
  renamed : state.renamed = true

inductive Left (state : Attempt) : Prop where
  | begun (begun : job.Begun state)
  | made (bytes : List UInt8) (made : job.Made bytes state)
  | placed (placed : job.Placed state)

variable {job} {state : Attempt} {valid : String → Bool} {bytes : List UInt8}

theorem createTemporary_stays (begun : job.Begun state) (different : job.name ≠ job.temporary) :
    Stays state (createTemporary job.temporary) job.Left (fun inode next =>
      inode = job.original.next ∧ job.Made [] next) := by
  have created : Stays state (call (fun folder =>
      match folder.entries job.temporary with
      | some _ => none
      | none => some (folder.next, folder.create job.temporary))) job.Left
      (fun inode next => inode = job.original.next ∧ job.Made [] next) := by
    refine stays_call (.begun begun) (fun inode folder worked => ?_)
    cases begun
    split at worked
    · cases worked
    · rename_i free
      cases worked
      exact ⟨rfl, different, free, rfl, rfl⟩
  refine stays_bind created ?_
  rintro _ next ⟨rfl, made⟩
  refine stays_bind (stays_pass (.made _ made) made : Stays _ _ _ (fun _ => job.Made []))
    (fun _ _ made _ => replies_alter_bind (replies_pure ⟨rfl, ?_⟩))
  exact ⟨made.different, made.free, made.entries, made.renamed⟩

theorem writeAll_stays {more : List UInt8} (made : job.Made bytes state) :
    Stays state (writeAll job.temporary more) job.Left (fun _ => job.Made (bytes ++ more)) := by
  have appended (extra : List UInt8) : job.Made (bytes ++ extra)
      { state with folder := state.folder.append job.temporary extra } :=
    ⟨made.different, made.free, by simp [Folder.append, made.entries], made.renamed⟩
  refine stays_callInPart (fun _ => .made _ (appended _)) (.made _ made) (fun _ _ worked => ?_)
  cases worked
  exact appended more

def Filled (job : Job) (state : Attempt) : Prop :=
  job.Made job.data state ∧ state.folder.syncedData job.original.next = job.data

theorem fill_stays (made : job.Made [] state) :
    Stays state (fill job.data job.temporary) job.Left (fun _ => job.Filled) := by
  have passes {bytes : List UInt8} {state : Attempt} (made : job.Made bytes state) :
      Stays state pass job.Left (fun _ => job.Made bytes) := stays_pass (.made _ made) made
  refine stays_bind (passes made) (fun _ _ made => stays_bind (writeAll_stays made) ?_)
  refine fun _ _ made => stays_bind (passes made) (fun _ _ made => ?_)
  refine stays_bind (writeAll_stays made) (fun _ _ made => ?_)
  rw [List.nil_append, List.take_append_drop] at made
  refine stays_bind (passes made) (fun _ _ made => stays_bind (passes made) ?_)
  refine fun _ next made => stays_bind (stays_call (.made _ made) (fun _ _ worked => ?_ :
    ∀ _ _, _ → job.Filled _)) (fun _ _ filled => stays_pass (.made _ filled.1) filled)
  cases worked
  have synced : next.folder.syncFile job.temporary = { next.folder with
      syncedData := Function.update next.folder.syncedData job.original.next job.data } := by
    simp [Folder.syncFile, made.entries]
  rw [synced]
  exact ⟨⟨made.different, made.free, made.entries, made.renamed⟩, by simp⟩

theorem takePlace_stays {inode : Nat} {before : Option Nat} (filled : job.Filled state)
    (allowed : job.createOnly = true → job.original.entries job.name = none) :
    Stays state (takePlace valid job.name job.temporary before inode) job.Left (fun _ => job.Placed) := by
  have left : job.Left state := .made _ filled.1
  refine stays_bind (stays_namedRegular left) ?_
  rintro _ _ ⟨rfl, _⟩
  refine stays_check left (fun _ => stays_bind (stays_namedRegular left) ?_)
  rintro _ _ ⟨rfl, _⟩
  refine stays_check left (fun _ => stays_bind (stays_call left (fun _ _ worked => ?_) :
    Stays _ _ _ (fun _ next => job.Placed { next with renamed := true }))
    (fun _ _ placed _ => replies_alter placed))
  obtain ⟨made, durable⟩ := filled
  split at worked
  · cases worked
  · cases worked
    exact ⟨made.different, made.free, allowed, by simp [Folder.rename, made.entries], durable, rfl⟩

theorem commit_stays (begun : job.Begun state) :
    Stays state (commit valid job.name job.data job.createOnly job.temporary) job.Left
      (fun _ next => job.Placed next ∧
        next.folder.syncedEntries job.name = some job.original.next) := by
  have left : job.Left state := .begun begun
  refine stays_check left (fun _ => stays_check left (fun fits => ?_))
  simp only [Bool.and_eq_true, decide_eq_true_eq] at fits
  refine stays_bind (stays_namedRegular left) ?_
  rintro _ _ ⟨rfl, rfl⟩
  refine stays_check left (fun free => ?_)
  have allowed : job.createOnly = true → job.original.entries job.name = none := by
    cases begun
    intro only
    simpa [only] using free
  refine stays_bind (stays_pass left begun : Stays _ _ _ (fun _ => job.Begun)) (fun _ _ begun => ?_)
  refine stays_bind (createTemporary_stays begun fits.2) ?_
  rintro _ _ ⟨rfl, made⟩
  refine stays_bind (fill_stays made) (fun _ _ filled => ?_)
  refine stays_bind (takePlace_stays filled allowed) (fun _ _ placed => ?_)
  refine stays_bind (stays_pass (.placed placed) placed : Stays _ _ _ (fun _ => job.Placed)) (fun _ _ placed => ?_)
  refine stays_bind (stays_call (.placed placed) (fun _ _ worked => ?_ : ∀ _ _, _ →
    job.Placed _ ∧ _)) (fun _ _ synced => stays_pass (.placed synced.1) synced)
  cases worked
  refine ⟨⟨placed.different, placed.free, placed.allowed, placed.entries, placed.durable, placed.renamed⟩, ?_⟩
  simp [Folder.sync, placed.entries]

structure Kept (job : Job) (state : Attempt) : Prop where
  name : state.folder.entries job.name = job.original.entries job.name
  other : ∀ other, other ≠ job.temporary →
    state.folder.entries other = job.original.entries other
  foreign : job.original.entries job.temporary ≠ none →
    state.folder.entries job.temporary = job.original.entries job.temporary

theorem Made.kept_of (made : job.Made bytes state) {folder : Folder}
    (others : ∀ other, other ≠ job.temporary → folder.entries other = state.folder.entries other) :
    job.Kept { state with folder := folder } := by
  have other : ∀ other, other ≠ job.temporary → folder.entries other = job.original.entries other := by
    intro other apart
    rw [others other apart, made.entries, Function.update_of_ne apart]
  exact ⟨other _ made.different, other, fun taken => absurd made.free taken⟩

theorem Left.cases (left : job.Left state) : state.renamed = false ∧ job.Kept state ∨ job.Placed state := by
  cases left with
  | begun begun =>
    cases begun
    exact .inl ⟨rfl, rfl, fun _ _ => rfl, fun _ => rfl⟩
  | made bytes made => exact .inl ⟨made.renamed, made.kept_of (fun _ _ => rfl)⟩
  | placed placed => exact .inr placed

theorem cleanup_stays {inode : Nat} (left : job.Left state) (created : state.created = some inode)
    (pending : state.renamed = false) :
    Stays state (cleanup valid job.temporary inode) job.Kept (fun _ => job.Kept) := by
  cases left with
  | begun begun =>
    cases begun
    cases created
  | placed placed => simp [placed.renamed] at pending
  | made bytes made =>
    have kept : job.Kept state := made.kept_of (fun _ _ => rfl)
    refine stays_bind (stays_namedRegular kept) ?_
    rintro _ _ ⟨rfl, _⟩
    refine stays_check kept (fun _ => stays_call kept (fun _ _ worked => ?_))
    cases worked
    exact made.kept_of (fun _ apart => Function.update_of_ne apart _ _)

def Means (job : Job) (state : Attempt) : CommitOutcome → Prop
  | .notCommitted => job.Kept state
  | .durablyCommitted => job.Placed state ∧ state.folder.syncedEntries job.name = some job.original.next
  | .indeterminateAfterRename => job.Placed state

theorem replaceWith_stays (begun : job.Begun state) :
    Stays state (replaceWith valid job.name job.data job.createOnly job.temporary)
      (fun next => job.Kept next ∨ job.Placed next) (fun outcome next => job.Means next outcome) := by
  refine stays_bind (stays_survive (commit_stays begun)
    (fun next left => left.cases.imp_left (·.2))) (fun result next ended => ?_)
  cases result with
  | some value => exact stays_pure ended
  | none =>
    change job.Left next at ended
    refine fun fates => replies_alter_bind ?_
    dsimp only
    rcases ended.cases with ⟨pending, kept⟩ | placed
    · rw [pending]
      cases created : next.created with
      | none => exact replies_pure kept
      | some inode =>
        have cleaned := stays_survive (@cleanup_stays job next valid inode ended created pending)
          (fun next kept => (.inl kept : job.Kept next ∨ job.Placed next))
        refine replies_bind (cleaned fates) (fun result _ kept => replies_pure ?_)
        cases result <;> exact kept
    · rw [placed.renamed]
      exact replies_pure placed

end Job

namespace Folder

def Holds (folder : Folder) (name : String) (data : List UInt8) : Prop :=
  ∃ number, folder.entries name = some ⟨number, data, true⟩

def Survives (folder : Folder) (name : String) (data : List UInt8) : Prop :=
  ∃ number, folder.syncedEntries name = some number ∧ folder.syncedData number = data

end Folder

/-- With any fates of its calls: what a replacement reports is so, where it stops the name
leads to the old file or to all of the new content, creation replaces nothing, and nothing but
the name and the temporary of the call is touched. -/
theorem replacement_is_atomic (valid : String → Bool) (folder : Folder) (name temporary : String)
    (data : List UInt8) (createOnly : Bool) (fates : List Fate) :
    let ended := execute (replaceWith valid name data createOnly temporary)
      (⟨folder, none, false⟩, fates)
    let after := ended.2.1.folder
    (match ended.1 with
      | .ok .notCommitted => after.entries name = folder.entries name
      | .ok .durablyCommitted => after.Holds name data ∧ after.Survives name data
      | .ok .indeterminateAfterRename => after.Holds name data
      | .error _ => after.entries name = folder.entries name ∨ after.Holds name data) ∧
      (createOnly = true → folder.entries name ≠ none → after.entries name = folder.entries name) ∧
      (∀ other, other ≠ name → other ≠ temporary → after.entries other = folder.entries other) ∧
      (folder.entries temporary ≠ none → after.entries temporary = folder.entries temporary) := by
  intro ended after
  let job : Job := ⟨folder, name, temporary, data, createOnly⟩
  obtain ⟨failed, returned⟩ := @Job.replaceWith_stays job _ valid rfl fates
  have holds (placed : job.Placed ended.2.1) : after.Holds name data :=
    ⟨folder.next, (congrFun placed.entries name).trans (Function.update_self ..)⟩
  have left : job.Kept ended.2.1 ∨ job.Placed ended.2.1 := by
    cases result : ended.1 with
    | error failure => exact failed failure result
    | ok outcome =>
        have means := returned outcome result
        cases outcome with
        | notCommitted => exact .inl means
        | durablyCommitted => exact .inr means.1
        | indeterminateAfterRename => exact .inr means
  refine ⟨?_, fun only present => ?_, fun other apart different => ?_, fun taken => ?_⟩
  · cases result : ended.1 with
    | error failure => exact left.imp (·.name) holds
    | ok outcome =>
        have means := returned outcome result
        cases outcome with
        | notCommitted => exact means.name
        | indeterminateAfterRename => exact holds means
        | durablyCommitted => exact ⟨holds means.1, folder.next, means.2, means.1.durable⟩
  all_goals rcases left with kept | placed
  · exact kept.name
  · exact absurd (placed.allowed only) present
  · exact kept.other other different
  · refine (congrFun placed.entries other).trans ?_
    rw [Function.update_of_ne apart, Function.update_of_ne different]
  · exact kept.foreign taken
  · exact absurd placed.free taken

end Werewolf.Storage.Atomic
