import Mathlib.Data.List.Basic

/-! Printers with their parsers. A codec is lawful when its parser reads back
what its printer wrote and leaves the rest of the text, for every rest that may
follow. -/

namespace Werewolf.Library

structure Codec (α : Type) where
  print : α → List Char
  parse : List Char → Option (α × List Char)

namespace Codec

variable {α β : Type} {follows : List Char → Prop}

def Lawful (codec : Codec α) (follows : List Char → Prop) : Prop :=
  ∀ value rest, follows rest → codec.parse (codec.print value ++ rest) = some (value, rest)

theorem Lawful.weaken {codec : Codec α} {wider narrower : List Char → Prop}
    (lawful : codec.Lawful wider) (within : ∀ rest, narrower rest → wider rest) :
    codec.Lawful narrower :=
  fun value rest follows => lawful value rest (within rest follows)

theorem Lawful.anywhere {codec : Codec α} (lawful : codec.Lawful (fun _ => True)) : codec.Lawful follows :=
  lawful.weaken (fun _ _ => trivial)

def strip : List Char → List Char → Option (List Char)
  | [], text => some text
  | _ :: _, [] => none
  | expected :: more, char :: text => if char = expected then strip more text else none

@[simp] theorem strip_append (expected rest : List Char) : strip expected (expected ++ rest) = some rest := by
  induction expected with
  | nil => rfl
  | cons char more ih => simpa [strip] using ih

theorem strip_eq_none {expected text : List Char} (differs : ¬ expected <+: text) : strip expected text = none := by
  induction expected generalizing text with
  | nil => exact absurd List.nil_prefix differs
  | cons char more ih =>
    cases text with
    | nil => rfl
    | cons head text =>
      simp only [strip]
      split
      · rename_i same
        subst same
        exact ih (fun starts => differs (List.prefix_cons_inj _ |>.mpr starts))
      · rfl

def imap (codec : Codec α) (forth : β → α) (back : α → Option β) : Codec β where
  print value := codec.print (forth value)
  parse text := (codec.parse text).bind (fun (value, rest) => (back value).map (·, rest))

theorem Lawful.imap {codec : Codec α} (lawful : codec.Lawful follows) {forth : β → α}
    {back : α → Option β} (inverse : ∀ value, back (forth value) = some value) :
    (codec.imap forth back).Lawful follows := by
  intro value rest allowed
  simp [Codec.imap, lawful (forth value) rest allowed, inverse]

def andThen (first : Codec α) (second : Codec β) : Codec (α × β) where
  print value := first.print value.1 ++ second.print value.2
  parse text :=
    (first.parse text).bind (fun (left, later) =>
      (second.parse later).map (fun (right, rest) => ((left, right), rest)))

theorem Lawful.andThen {first : Codec α} {second : Codec β} {between after : List Char → Prop}
    (firstLawful : first.Lawful between) (secondLawful : second.Lawful after)
    (joins : ∀ value rest, after rest → between (second.print value ++ rest)) :
    (first.andThen second).Lawful after := by
  intro value rest allowed
  simp [Codec.andThen, firstLawful value.1 _ (joins value.2 rest allowed), secondLawful value.2 rest allowed]

def after (text : List Char) (codec : Codec α) : Codec α where
  print value := text ++ codec.print value
  parse input := (strip text input).bind codec.parse

theorem Lawful.after {codec : Codec α} (lawful : codec.Lawful follows) (text : List Char) :
    (codec.after text).Lawful follows := by
  intro value rest allowed
  simp [Codec.after, lawful value rest allowed]

def before (codec : Codec α) (text : List Char) : Codec α where
  print value := codec.print value ++ text
  parse input := (codec.parse input).bind (fun (value, later) => (strip text later).map (value, ·))

theorem Lawful.before {codec : Codec α} (lawful : codec.Lawful follows) {text : List Char}
    (ends : ∀ rest, follows (text ++ rest)) :
    (codec.before text).Lawful (fun _ => True) := by
  intro value rest _
  simp [Codec.before, lawful value _ (ends rest)]

/-- Nothing, or fixed text and the value behind it. -/
def optional (text : List Char) (codec : Codec α) : Codec (Option α) where
  print
    | none => []
    | some value => text ++ codec.print value
  parse input :=
    match strip text input with
    | none => some (none, input)
    | some later => (codec.parse later).map (fun (value, rest) => (some value, rest))

theorem Lawful.optional {codec : Codec α} (lawful : codec.Lawful follows) (text : List Char) :
    (codec.optional text).Lawful (fun rest => follows rest ∧ ¬ text <+: rest) := by
  rintro (_ | value) rest ⟨allowed, absent⟩
  · simp [Codec.optional, strip_eq_none absent]
  · simp [Codec.optional, lawful value rest allowed]

def readUntil (closing : Char) (item : List Char → Option (α × List Char)) :
    Nat → List Char → Option (List α × List Char)
  | 0, _ => none
  | _ + 1, [] => none
  | fuel + 1, char :: text =>
      if char = closing then some ([], text)
      else
        (item (char :: text)).bind (fun (value, later) =>
          (readUntil closing item fuel later).map (fun (values, rest) => (value :: values, rest)))

def upTo (closing : Char) (item : Codec α) : Codec (List α) where
  print values := values.flatMap item.print ++ [closing]
  parse text := readUntil closing item.parse (text.length + 1) text

theorem Lawful.upTo {item : Codec α} (lawful : item.Lawful follows) {closing : Char}
    (closes : ∀ rest, follows (closing :: rest)) (continues : ∀ value rest, follows (item.print value ++ rest))
    (opens : ∀ value, ∃ char text, item.print value = char :: text ∧ char ≠ closing) :
    (item.upTo closing).Lawful (fun _ => True) := by
  have reads : ∀ (values : List α) (rest : List Char) (fuel : Nat), values.length < fuel →
      readUntil closing item.parse fuel (values.flatMap item.print ++ closing :: rest) = some (values, rest) := by
    intro values rest fuel enough
    induction values generalizing fuel with
    | nil =>
      obtain ⟨fuel, rfl⟩ := Nat.exists_eq_succ_of_ne_zero (Nat.ne_of_gt enough)
      simp [readUntil]
    | cons value values ih =>
      obtain ⟨fuel, rfl⟩ := Nat.exists_eq_succ_of_ne_zero (by omega : fuel ≠ 0)
      obtain ⟨char, text, shape, differs⟩ := opens value
      have allowed : follows (values.flatMap item.print ++ closing :: rest) := by
        cases values with
        | nil => exact closes rest
        | cons next values => simpa using continues next _
      have first := lawful value _ allowed
      simp only [List.flatMap_cons, List.append_assoc]
      rw [shape, List.cons_append] at first ⊢
      simp [readUntil, differs, first, ih fuel (by simpa using enough)]
  intro values rest _
  have bound : values.length ≤ (values.flatMap item.print).length := by
    induction values with
    | nil => simp
    | cons value values ih =>
      obtain ⟨char, text, shape, _⟩ := opens value
      simp only [List.flatMap_cons, List.length_append, shape, List.length_cons]
      omega
  simp only [Codec.upTo, List.append_assoc, List.singleton_append]
  refine reads values rest _ ?_
  simp only [List.length_append, List.length_cons]
  omega

end Codec

end Werewolf.Library
