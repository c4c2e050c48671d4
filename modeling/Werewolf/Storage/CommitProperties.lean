import Werewolf.Storage.Selection

/-! What a commit leaves behind, whatever comes of its replacements. It writes
only the slot that is not selected until its last write, which is the selector
itself. -/

namespace Werewolf.Storage
open Library Governance State Policy

theorem apply_of_notMem {den : Den} {writes : List Write} {file : String}
    (untouched : file ∉ writes.map Write.file) : den.apply writes file = den file := by
  induction writes generalizing den with
  | nil => rfl
  | cons write writes ih =>
    simp only [List.map_cons, List.mem_cons, not_or] at untouched
    rw [Den.apply, List.foldl_cons]
    exact (ih untouched.2).trans (Function.update_of_ne untouched.1 _ _)

theorem apply_of_mem {den : Den} {writes : List Write}
    (distinct : (writes.map Write.file).Nodup) {write : Write} (member : write ∈ writes) :
    den.apply writes write.file = some write.data := by
  induction writes generalizing den with
  | nil => cases member
  | cons first writes ih =>
    rw [List.map_cons, List.nodup_cons] at distinct
    rw [Den.apply, List.foldl_cons]
    rcases List.mem_cons.mp member with rfl | later
    · exact (apply_of_notMem distinct.1).trans (Function.update_self _ _ _)
    · exact ih distinct.2 later

theorem replace_spec (write : Write) (fate : Replacement) :
    ((replace write fate).2 = none → (replace write fate).1 = true) ∧
      ((replace write fate).1 = true → write.data.length ≤ documentLimit) ∧
      (∀ error, (replace write fate).2 = some (.reported (.notCommitted error)) → (replace write fate).1 = false) ∧
      (∀ generation, (replace write fate).2 ≠ some (.reported (.durablyCommitted generation))) := by
  cases fate with
  | stopsBefore => simp [replace]
  | durablyCommitted =>
    simp only [replace]
    split <;> simp_all
  | notCommitted =>
    simp only [replace]
    split <;> simp_all
  | indeterminateAfterRename visible =>
    simp only [replace]
    split <;> simp_all
  | stopsAfter =>
    simp only [replace]
    split <;> simp_all

/-- The writes that take effect are the first ones; all of them do when nothing
ended the commit, and not all when it reports that nothing was committed. -/
structure Performed (writes visible : List Write) (ended : Option Outcome) : Prop where
  first : visible <+: writes
  fits : ∀ write ∈ visible, write.data.length ≤ documentLimit
  complete : ended = none → visible = writes
  refused : ∀ error, ended = some (.reported (.notCommitted error)) →
    visible.length < writes.length
  undecided : ∀ generation, ended ≠ some (.reported (.durablyCommitted generation))

theorem replaceAll_performed (writes : List Write) (fates : Nat → Replacement) :
    Performed writes (replaceAll writes fates).1 (replaceAll writes fates).2 := by
  induction writes generalizing fates with
  | nil => exact ⟨by simp [replaceAll], by simp [replaceAll], by simp [replaceAll],
      by simp [replaceAll], by simp [replaceAll]⟩
  | cons write writes ih =>
    obtain ⟨continues, fits, refused, undecided⟩ := replace_spec write (fates 0)
    cases result : replace write (fates 0) with
    | mk visible ended =>
      simp only [result] at continues fits refused undecided
      cases ended with
      | none =>
        have later := ih (fun index => fates (index + 1))
        simp only [replaceAll, result]
        refine ⟨(List.prefix_cons_inj write).mpr later.first, ?_,
          fun ended => by rw [later.complete ended], fun error ended => ?_,
          later.undecided⟩
        · intro other member
          rcases List.mem_cons.mp member with rfl | member
          · exact fits (continues rfl)
          · exact later.fits other member
        · simpa using later.refused error ended
      | some outcome =>
        simp only [replaceAll, result]
        refine ⟨?_, ?_, by simp, fun error ended => ?_, undecided⟩
        · cases visible <;> simp
        · intro other member
          cases visible with
          | false => cases member
          | true =>
            cases List.mem_singleton.mp member
            exact fits rfl
        · rw [refused error ended]
          simp

theorem replaceAll_healthy (writes : List Write) {fates : Nat → Replacement}
    (healthy : ∀ index, fates index = .durablyCommitted) :
    (replaceAll writes fates).2 = none ∨
      ∃ error, (replaceAll writes fates).2 = some (.reported (.notCommitted error)) := by
  induction writes generalizing fates with
  | nil => exact .inl rfl
  | cons write writes ih =>
    by_cases large : documentLimit < write.data.length
    · simp [replaceAll, replace, healthy 0, large]
    · simp only [replaceAll, replace, healthy 0, large, if_false]
      exact ih (fun index => healthy (index + 1))

theorem names_distinct (slot : Slot) : (Logical.all.map (name slot)).Nodup ∧
      ∀ document ∈ Logical.all, name slot document ≠ modeFile ∧ name slot document ≠ currentFile ∧
        name slot document ∉ Logical.all.map (name slot.inactive) := by
  cases slot <;> decide +kernel

theorem mem_all (document : Logical) : document ∈ Logical.all := by
  cases document <;> decide

section Commits

variable {platform : Platform}
  {generation : Generation} {current : UInt64} {fates : Nat → Replacement}

theorem holds_of_slot {den : Den} {next : Generation} {state : ProtectedState}
    {writes : List Write} (mode : den modeFile = some modeBytes) (positive : next.number ≠ 0)
    (written : slotWrites platform next state = .ok writes)
    (fits : ∀ write ∈ writes, write.data.length ≤ documentLimit) :
    Holds platform (den.apply (writes ++ [⟨currentFile, currentBytes next⟩])) next state := by
  obtain ⟨distinct, others⟩ := names_distinct next.slot
  have files : ∀ write ∈ writes, ∃ document, write.file = name next.slot document :=
    fun write member => slotWrites_file written member
  have nodup : ((writes ++ [(⟨currentFile, currentBytes next⟩ : Write)]).map Write.file).Nodup := by
    rw [List.map_append, List.nodup_append]
    refine ⟨distinct.sublist (slotWrites_files written), by simp, ?_⟩
    intro file member other isSelector
    obtain ⟨write, writeMember, rfl⟩ := List.mem_map.mp member
    obtain ⟨document, named⟩ := files write writeMember
    cases List.mem_singleton.mp isSelector
    exact named ▸ (others document (mem_all document)).2.1
  refine ⟨?_, ?_, positive, writes, written, fun write member => ?_⟩
  · rw [apply_of_notMem, mode]
    simp only [List.map_append, List.mem_append, List.mem_map, not_or, not_exists, not_and]
    refine ⟨fun write member same => ?_, fun write member same => ?_⟩
    · obtain ⟨document, named⟩ := files write member
      exact (others document (mem_all document)).1 (named.symm.trans same)
    · cases List.mem_singleton.mp member
      exact absurd same (show currentFile ≠ modeFile by decide)
  · have selector : (⟨currentFile, currentBytes next⟩ : Write) ∈
        writes ++ [⟨currentFile, currentBytes next⟩] := by simp
    exact apply_of_mem nodup selector
  · exact ⟨apply_of_mem nodup (List.mem_append_left _ member), fits write member⟩

def tookEffect (visible : List Write) : Bool := visible.any (fun write => write.file = currentFile)

structure Attempted (platform : Platform) (den : Den) (current : UInt64) (state : ProtectedState)
    (observed next : Generation) (writes visible : List Write) (ended : Option Outcome) :
    Prop where
  selected : loadCurrent platform den = .ok (some observed)
  number : observed.number = current
  follows : nextGeneration observed = some next
  written : slotWrites platform next state = .ok writes
  performed : Performed (writes ++ [⟨currentFile, currentBytes next⟩]) visible ended

theorem commit_cases (den : Den) (current : UInt64) (state : ProtectedState) (fates : Nat → Replacement) :
    (∃ error, commit platform den current state fates = ([], .reported (.notCommitted error))) ∨
      ∃ observed next writes visible ended, Attempted platform den current state observed next writes visible ended ∧
        ended = (replaceAll (writes ++ [⟨currentFile, currentBytes next⟩]) fates).2 ∧
        commit platform den current state fates = (visible, ended.getD (.reported (.durablyCommitted next))) := by
  cases selected : loadCurrent platform den with
  | error error => exact .inl ⟨error, by simp only [commit, selected]⟩
  | ok found =>
    cases found with
    | none => exact .inl ⟨.invalidGeneration, by simp only [commit, selected]⟩
    | some observed =>
      by_cases number : observed.number = current
      · cases follows : nextGeneration observed with
        | none =>
          exact .inl ⟨.generationExhausted, by
            simp only [commit, selected, number, ne_eq, not_true_eq_false, if_false, follows]⟩
        | some next =>
          cases written : slotWrites platform next state with
          | error error =>
            exact .inl ⟨error, by
              simp only [commit, selected, number, ne_eq, not_true_eq_false, if_false, follows, written]⟩
          | ok writes =>
            refine .inr ⟨observed, next, writes, _, _, ⟨selected, number, follows, written,
              replaceAll_performed _ fates⟩, rfl, ?_⟩
            simp only [commit, selected, number, ne_eq, not_true_eq_false, if_false, follows, written]
      · exact .inl ⟨.invalidGeneration, by
          simp only [commit, selected, ne_eq, number, not_false_eq_true, if_true]⟩

theorem commit_frame (den : Den) (current : UInt64) (state : ProtectedState)
    (fates : Nat → Replacement) {file : String} (outside : file ∉ protectedFiles) :
    den.apply (commit platform den current state fates).1 file = den file := by
  refine apply_of_notMem (fun touched => outside ?_)
  rcases commit_cases den current state fates with
    ⟨error, refused⟩ | ⟨observed, next, writes, visible, ended, attempted, _, result⟩
  · rw [refused] at touched
    cases touched
  · rw [result] at touched
    obtain ⟨write, member, rfl⟩ := List.mem_map.mp touched
    rcases List.mem_append.mp (attempted.performed.first.subset member) with slot | selector
    · obtain ⟨document, named⟩ := slotWrites_file attempted.written slot
      exact named ▸ name_mem_protectedFiles next.slot document
    · cases List.mem_singleton.mp selector
      simp [protectedFiles]

namespace Attempted

variable {den : Den} {current : UInt64} {state : ProtectedState} {observed next : Generation}
  {writes visible : List Write} {ended : Option Outcome}
  (attempted : Attempted platform den current state observed next writes visible ended)

include attempted

theorem next_slot : next.slot = observed.slot.inactive ∧
      next.number.toNat = observed.number.toNat + 1 := by
  have found := attempted.follows
  simp only [nextGeneration, Option.ite_none_right_eq_some, Option.some.injEq] at found
  obtain ⟨room, rfl⟩ := found
  refine ⟨rfl, ?_⟩
  rw [UInt64.toNat_add]
  exact Nat.mod_eq_of_lt room

theorem all_visible (effect : tookEffect visible = true) :
    visible = writes ++ [⟨currentFile, currentBytes next⟩] := by
  obtain ⟨write, member, isSelector⟩ := List.any_eq_true.mp effect
  rcases List.prefix_concat_iff.mp attempted.performed.first with whole | short
  · exact whole
  · obtain ⟨document, named⟩ := slotWrites_file attempted.written (short.subset member)
    have differs := ((names_distinct next.slot).2 document (mem_all document)).2.1
    exact absurd (named.symm.trans (by simpa using isSelector)) differs

theorem slot_only (effect : tookEffect visible = false) : visible <+: writes := by
  rcases List.prefix_concat_iff.mp attempted.performed.first with whole | short
  · rw [whole] at effect
    simp [tookEffect] at effect
  · exact short

theorem holds_next (effect : tookEffect visible = true) : Holds platform (den.apply visible) next state := by
  have whole := attempted.all_visible effect
  obtain ⟨mode, _, _⟩ := selected_of_loadCurrent attempted.selected
  rw [whole]
  refine holds_of_slot mode (fun zero => ?_) attempted.written fun write member =>
    attempted.performed.fits write (by simp [whole, member])
  have increased := attempted.next_slot.2
  rw [zero] at increased
  simp at increased

theorem untouched (effect : tookEffect visible = false) {file : String}
    (differs : ∀ document, name next.slot document ≠ file) : den.apply visible file = den file := by
  refine apply_of_notMem fun touched => ?_
  obtain ⟨write, member, same⟩ := List.mem_map.mp touched
  obtain ⟨document, isName⟩ := slotWrites_file attempted.written ((attempted.slot_only effect).subset member)
  exact differs document (isName.symm.trans same)

theorem inactive_slot : next.slot.inactive = observed.slot := by
  rw [attempted.next_slot.1]
  cases observed.slot <;> rfl

theorem selected_eq (roundTrip : platform.RoundTrip) {generation : Generation} (mode : den modeFile = some modeBytes)
    (selector : den currentFile = some (currentBytes generation))
    (positive : generation.number ≠ 0) : observed = generation := by
  have selected := loadCurrent_of_selected roundTrip mode selector positive
  exact Option.some.inj (Except.ok.inj (attempted.selected.symm.trans selected))

theorem holds_iff (effect : tookEffect visible = false) {generation : Generation}
    {before : ProtectedState} (roundTrip : platform.RoundTrip) :
    Holds platform (den.apply visible) generation before ↔ Holds platform den generation before := by
  obtain ⟨_, others⟩ := names_distinct next.slot
  have mode : den.apply visible modeFile = den modeFile :=
    attempted.untouched effect fun document => (others document (mem_all document)).1
  have selector : den.apply visible currentFile = den currentFile :=
    attempted.untouched effect fun document => (others document (mem_all document)).2.1
  -- The selected slot is the other one.
  have slot (same : observed = generation) {stored : List Write} {write : Write}
      (written : slotWrites platform generation before = .ok stored) (member : write ∈ stored) :
      den.apply visible write.file = den write.file := by
    refine attempted.untouched effect fun document named => ?_
    obtain ⟨other, otherNamed⟩ := slotWrites_file written member
    refine (others document (mem_all document)).2.2 ?_
    rw [named, otherNamed, attempted.inactive_slot, same]
    exact List.mem_map_of_mem (mem_all other)
  constructor
  · intro holds
    have same := attempted.selected_eq roundTrip (mode.symm.trans holds.mode)
      (selector.symm.trans holds.current) holds.positive
    obtain ⟨stored, written, contents⟩ := holds.slot
    refine ⟨mode.symm.trans holds.mode, selector.symm.trans holds.current, holds.positive, stored,
      written, fun write member => ?_⟩
    rw [← slot same written member]
    exact contents write member
  · intro holds
    have same := attempted.selected_eq roundTrip holds.mode holds.current holds.positive
    obtain ⟨stored, written, contents⟩ := holds.slot
    refine ⟨mode.trans holds.mode, selector.trans holds.current, holds.positive, stored, written,
      fun write member => ?_⟩
    rw [slot same written member]
    exact contents write member

end Attempted

def Documents.bytes (contents : Documents) : List (List UInt8) :=
  [contents.pack, contents.silver, contents.targetPolicy, contents.fangs, contents.activeFangs] ++
    contents.governance.toList

theorem slotWrites_fits {state : ProtectedState} {contents : Documents}
    (documented : documents platform state = .ok contents)
    (fits : ∀ bytes ∈ contents.bytes, bytes.length ≤ documentLimit) :
    ∃ writes, slotWrites platform generation state = .ok writes ∧
      ∀ write ∈ writes, write.data.length ≤ documentLimit := by
  obtain ⟨value, built, _, _, small⟩ := manifest_ok platform.toCrypto generation.number contents
  refine ⟨_, bind_eq_ok.mpr ⟨contents, documented, bind_eq_ok.mpr ⟨value, built, rfl⟩⟩, ?_⟩
  intro write member
  simp only [List.mem_append, List.mem_cons, List.not_mem_nil, or_false, Option.mem_toList,
    Option.map_eq_some_iff] at member
  rcases member with ((rfl | rfl | rfl | rfl | rfl) | ⟨data, given, rfl⟩) | rfl
  · exact fits _ (by simp [Documents.bytes])
  · exact fits _ (by simp [Documents.bytes])
  · exact fits _ (by simp [Documents.bytes])
  · exact fits _ (by simp [Documents.bytes])
  · exact fits _ (by simp [Documents.bytes])
  · exact fits _ (by simp [Documents.bytes, given])
  · exact small.trans (by decide)

theorem replaceAll_durable {writes : List Write} (fits : ∀ write ∈ writes, write.data.length ≤ documentLimit) :
    replaceAll writes (fun _ => .durablyCommitted) = (writes, none) := by
  induction writes with
  | nil => rfl
  | cons write writes ih =>
    have first := Nat.not_lt.mpr (fits write (by simp))
    have rest := ih (fun other member => fits other (by simp [member]))
    simp only [replaceAll, replace, if_neg first, rest]

theorem commit_durable {den : Den} {observed next : Generation} {state : ProtectedState} {contents : Documents}
    (selected : loadCurrent platform den = .ok (some observed)) (follows : nextGeneration observed = some next)
    (documented : documents platform state = .ok contents)
    (fits : ∀ bytes ∈ contents.bytes, bytes.length ≤ documentLimit) :
    (commit platform den observed.number state (fun _ => .durablyCommitted)).2 =
      .reported (.durablyCommitted next) := by
  obtain ⟨writes, written, sizes⟩ : ∃ writes, slotWrites platform next state = .ok writes ∧
      ∀ write ∈ writes, write.data.length ≤ documentLimit := slotWrites_fits documented fits
  have finished : replaceAll (writes ++ [⟨currentFile, currentBytes next⟩])
      (fun _ => .durablyCommitted) = (writes ++ [⟨currentFile, currentBytes next⟩], none) := by
    refine replaceAll_durable fun write member => ?_
    rcases List.mem_append.mp member with slot | selector
    · exact sizes write slot
    · cases List.mem_singleton.mp selector
      exact (currentBytes_length next).trans (by decide)
  simp only [commit, selected, ne_eq, not_true_eq_false, if_false, follows, written, finished]
  rfl

theorem attempted_of_committed {den : Den} {state : ProtectedState}
    (committed : (commit platform den current state fates).2 = .reported (.durablyCommitted generation)) :
    ∃ observed writes, Attempted platform den current state observed generation writes
      (commit platform den current state fates).1 none := by
  rcases commit_cases den current state fates with
    ⟨error, refused⟩ | ⟨observed, next, writes, visible, ended, attempted, _, result⟩
  · rw [refused] at committed
    cases committed
  · rw [result] at committed ⊢
    cases ended with
    | some early => exact absurd (congrArg some committed) (attempted.performed.undecided _)
    | none =>
      cases committed
      exact ⟨observed, writes, attempted⟩

theorem tookEffect_of_committed {den : Den} {state : ProtectedState}
    (committed : (commit platform den current state fates).2 = .reported (.durablyCommitted generation)) :
    tookEffect (commit platform den current state fates).1 = true := by
  obtain ⟨observed, writes, attempted⟩ := attempted_of_committed committed
  rw [attempted.performed.complete rfl]
  simp [tookEffect]

theorem holds_of_committed {den : Den} {state : ProtectedState}
    (committed : (commit platform den current state fates).2 = .reported (.durablyCommitted generation)) :
    Holds platform (den.apply (commit platform den current state fates).1) generation state := by
  obtain ⟨observed, writes, attempted⟩ := attempted_of_committed committed
  exact attempted.holds_next (tookEffect_of_committed committed)

theorem commit_healthy (platform : Platform) (healthy : ∀ index, fates index = .durablyCommitted)
    (den : Den) (current : UInt64) (state : ProtectedState) :
    (∃ error, (commit platform den current state fates).2 = .reported (.notCommitted error)) ∨
      ∃ generation, (commit platform den current state fates).2 = .reported (.durablyCommitted generation) := by
  rcases commit_cases den current state fates with
    ⟨error, refused⟩ | ⟨observed, next, writes, visible, ended, _, ending, result⟩
  · exact .inl ⟨error, by rw [refused]⟩
  · rw [result]
    rcases replaceAll_healthy _ healthy with finished | ⟨error, early⟩
    · exact .inr ⟨next, by rw [ending, finished]; rfl⟩
    · exact .inl ⟨error, by rw [ending, early]; rfl⟩

theorem holds_of_not_tookEffect (roundTrip : platform.RoundTrip) {den : Den} {state before : ProtectedState}
    (effect : tookEffect (commit platform den current state fates).1 = false)
    (holds : Holds platform den generation before) :
    Holds platform (den.apply (commit platform den current state fates).1) generation before := by
  rcases commit_cases den current state fates with
    ⟨error, refused⟩ | ⟨observed, next, writes, visible, ended, attempted, _, result⟩
  · rw [refused]
    exact holds
  · rw [result] at effect ⊢
    exact (attempted.holds_iff effect roundTrip).mpr holds

theorem holds_after_commit (roundTrip : platform.RoundTrip) {den : Den} {state after : ProtectedState}
    (holds : Holds platform (den.apply (commit platform den current state fates).1) generation after) :
    (∃ next, Holds platform (den.apply (commit platform den current state fates).1) next state) ∨
      Holds platform den generation after := by
  rcases commit_cases den current state fates with
    ⟨error, refused⟩ | ⟨observed, next, writes, visible, ended, attempted, _, result⟩
  · rw [refused] at holds
    exact .inr holds
  · rw [result] at holds ⊢
    cases effect : tookEffect visible with
    | true => exact .inl ⟨next, attempted.holds_next effect⟩
    | false => exact .inr ((attempted.holds_iff effect roundTrip).mp holds)

theorem holds_of_tookEffect (roundTrip : platform.RoundTrip) {den : Den} {state before : ProtectedState}
    (effect : tookEffect (commit platform den current state fates).1 = true)
    (holds : Holds platform den generation before) :
    Holds platform (den.apply (commit platform den current state fates).1)
        ⟨current + 1, generation.slot.inactive⟩ state ∧
      (current + 1).toNat = generation.number.toNat + 1 := by
  rcases commit_cases den current state fates with
    ⟨error, refused⟩ | ⟨observed, next, writes, visible, ended, attempted, _, result⟩
  · rw [refused] at effect
    cases effect
  · obtain rfl := attempted.selected_eq roundTrip holds.mode holds.current holds.positive
    have named : next = ⟨current + 1, observed.slot.inactive⟩ := by
      have found := attempted.follows
      rw [nextGeneration, attempted.number, Option.ite_none_right_eq_some] at found
      exact (Option.some.inj found.2).symm
    obtain ⟨_, number⟩ := attempted.next_slot
    rw [result] at effect ⊢
    subst named
    exact ⟨attempted.holds_next effect, number⟩

theorem commit_fails (platform : Platform) (fails : fates 0 = .notCommitted) (den : Den)
    (current : UInt64) (state : ProtectedState) :
    ∃ error, (commit platform den current state fates).2 = .reported (.notCommitted error) := by
  rcases commit_cases den current state fates with ⟨error, refused⟩ |
    ⟨_, next, writes, visible, ended, _, ends, result⟩
  · exact ⟨error, by rw [refused]⟩
  · have stops : ∀ writes : List Write, writes ≠ [] →
        ∃ error, (replaceAll writes fates).2 = some (.reported (.notCommitted error)) := by
      intro writes nonempty
      obtain ⟨first, rest, rfl⟩ := List.exists_cons_of_ne_nil nonempty
      by_cases large : documentLimit < first.data.length
      · exact ⟨.unsafeFile, by simp [replaceAll, replace, fails, large]⟩
      · exact ⟨.replacement, by simp [replaceAll, replace, fails, large]⟩
    obtain ⟨error, failed⟩ := stops (writes ++ [⟨currentFile, currentBytes next⟩]) (by simp)
    refine ⟨error, ?_⟩
    rw [result, ends, failed]
    rfl

theorem not_tookEffect_of_notCommitted {den : Den} {state : ProtectedState} {error : Error}
    (failed : (commit platform den current state fates).2 = .reported (.notCommitted error)) :
    tookEffect (commit platform den current state fates).1 = false := by
  rcases commit_cases den current state fates with
    ⟨_, refused⟩ | ⟨observed, next, writes, visible, ended, attempted, _, result⟩
  · rw [refused]
    rfl
  · rw [result] at failed ⊢
    cases ended with
    | none => cases failed
    | some early =>
      have short := attempted.performed.refused error (congrArg some failed)
      cases effect : tookEffect visible with
      | false => rfl
      | true =>
        rw [attempted.all_visible effect] at short
        exact absurd short (Nat.lt_irrefl _)

end Commits

end Werewolf.Storage
