import Mathlib.Algebra.Group.Nat.Defs
import Mathlib.Data.Fintype.Basic
import Mathlib.Data.List.Basic
import Mathlib.Data.List.Lex
import Mathlib.Order.Lattice

/-! Fixed-size byte arrays under the lexicographic order of their bytes,
big-endian numerals and lower-case hexadecimal text. -/

namespace Werewolf.Library

instance byteLinearOrder : LinearOrder UInt8 where
  le_refl := UInt8.le_refl
  le_trans _ _ _ := UInt8.le_trans
  lt_iff_le_not_ge left right := by
    simp only [UInt8.lt_iff_toNat_lt, UInt8.le_iff_toNat_le]
    omega
  le_antisymm _ _ := UInt8.le_antisymm
  le_total := UInt8.le_total
  toDecidableLE := inferInstance
  toDecidableEq := inferInstance
  toDecidableLT := inferInstance

theorem forall_byte {p : UInt8 → Prop} (all : ∀ code : Fin 256, p (UInt8.ofNat code)) (byte : UInt8) : p byte := by
  have known := all ⟨byte.toNat, byte.toNat_lt⟩
  rwa [UInt8.ofNat_toNat] at known

abbrev ByteArr (size : Nat) := {bytes : List UInt8 // bytes.length = size}

def ByteArr.zero (size : Nat) : ByteArr size :=
  ⟨List.replicate size 0, List.length_replicate⟩

/-- The big-endian numeral of `value` in exactly `width` bytes; higher digits
are dropped, as a machine cast drops them. -/
def beBytes : (width value : Nat) → List UInt8
  | 0, _ => []
  | width + 1, value => UInt8.ofNat (value / 256 ^ width) :: beBytes width value

def beValue : List UInt8 → Nat
  | [] => 0
  | byte :: rest => byte.toNat * 256 ^ rest.length + beValue rest

@[simp] theorem length_beBytes (width value : Nat) : (beBytes width value).length = width := by
  induction width with
  | zero => rfl
  | succ width ih => simp [beBytes, ih]

theorem beValue_beBytes (width value : Nat) : beValue (beBytes width value) = value % 256 ^ width := by
  induction width with
  | zero => simp [beBytes, beValue, Nat.mod_one]
  | succ width ih =>
    simp only [beBytes, beValue, length_beBytes, ih, UInt8.toNat_ofNat']
    rw [Nat.pow_succ 256 width, Nat.mod_mul, Nat.mul_comm, Nat.add_comm]

theorem beValue_lt (digits : List UInt8) : beValue digits < 256 ^ digits.length := by
  induction digits with
  | nil => simp [beValue]
  | cons digit digits ih =>
    have bound : digit.toNat + 1 ≤ 256 := UInt8.toNat_lt digit
    calc
      beValue (digit :: digits) < digit.toNat * 256 ^ digits.length + 256 ^ digits.length :=
        Nat.add_lt_add_left ih _
      _ = (digit.toNat + 1) * 256 ^ digits.length := by rw [Nat.add_mul, Nat.one_mul]
      _ ≤ 256 * 256 ^ digits.length := Nat.mul_le_mul_right _ bound
      _ = 256 ^ (digit :: digits).length := by rw [List.length_cons, Nat.pow_succ, Nat.mul_comm]

theorem beBytes_injective {width left right : Nat} (leftFits : left < 256 ^ width)
    (rightFits : right < 256 ^ width) (same : beBytes width left = beBytes width right) :
    left = right := by
  have values := congrArg beValue same
  rwa [beValue_beBytes, beValue_beBytes, Nat.mod_eq_of_lt leftFits, Nat.mod_eq_of_lt rightFits] at values

theorem beBytes_mul_add (width high low : Nat) : beBytes width (high * 256 ^ width + low) = beBytes width low := by
  induction width generalizing high with
  | zero => rfl
  | succ width ih =>
    have shifted : high * 256 ^ (width + 1) = high * 256 * 256 ^ width := by
      rw [Nat.pow_succ, Nat.mul_assoc, Nat.mul_comm 256]
    rw [shifted]
    simp only [beBytes, ih]
    congr 1
    rw [Nat.add_comm, Nat.add_mul_div_right _ _ (Nat.pow_pos (by decide)), Nat.add_comm]
    apply UInt8.toNat.inj
    simp only [UInt8.toNat_ofNat', Nat.reducePow]
    omega

theorem beBytes_beValue {digits : List UInt8} {width : Nat} (sized : digits.length = width) :
    beBytes width (beValue digits) = digits := by
  subst sized
  induction digits with
  | nil => rfl
  | cons digit digits ih =>
    simp only [List.length_cons, beBytes, beValue, beBytes_mul_add, ih]
    rw [Nat.add_comm, Nat.add_mul_div_right _ _ (Nat.pow_pos (by decide)),
      Nat.div_eq_of_lt (beValue_lt digits), Nat.zero_add, UInt8.ofNat_toNat]

def hexChars (bytes : List UInt8) : List Char :=
  bytes.flatMap (fun byte => [Nat.digitChar (byte.toNat / 16), Nat.digitChar (byte.toNat % 16)])

def hex (bytes : List UInt8) : String := String.ofList (hexChars bytes)

theorem length_hexChars (bytes : List UInt8) : (hexChars bytes).length = 2 * bytes.length := by
  induction bytes with
  | nil => rfl
  | cons byte bytes ih =>
    simp only [hexChars, List.flatMap_cons, List.length_append] at ih ⊢
    rw [ih, List.length_cons, List.length_cons, List.length_cons, List.length_nil]
    omega

def readPairs (pair : Char → Char → Option UInt8) : List Char → Option (List UInt8)
  | [] => some []
  | [_] => none
  | high :: low :: rest =>
      (pair high low).bind (fun byte => (readPairs pair rest).map (byte :: ·))

theorem readPairs_hexChars {pair : Char → Char → Option UInt8}
    (reads : ∀ code : Fin 256, pair (Nat.digitChar (code / 16)) (Nat.digitChar (code % 16)) =
      some (UInt8.ofNat code)) (bytes : List UInt8) :
    readPairs pair (hexChars bytes) = some bytes := by
  induction bytes with
  | nil => rfl
  | cons byte bytes ih =>
    have first := reads ⟨byte.toNat, UInt8.toNat_lt byte⟩
    simp only [UInt8.ofNat_toNat] at first
    simp only [hexChars] at ih
    simp [hexChars, readPairs, first, ih]

private theorem digitChar_plain (code : Fin 256) :
    (Nat.digitChar (code / 16)).toNat < 128 ∧ (Nat.digitChar (code % 16)).toNat < 128 := by
  revert code
  decide +kernel

theorem hexChars_ascii {bytes : List UInt8} {char : Char} (member : char ∈ hexChars bytes) : char.toNat < 128 := by
  obtain ⟨byte, _, written⟩ := List.mem_flatMap.mp member
  have plain := digitChar_plain ⟨byte.toNat, UInt8.toNat_lt byte⟩
  rcases List.mem_pair.mp written with rfl | rfl
  · exact plain.1
  · exact plain.2

end Werewolf.Library
