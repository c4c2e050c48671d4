import Werewolf.Policy.Target

/-! How the standard library writes the address of a socket, and how long the text
gets. Only a scope makes it longer than 47 bytes. -/

namespace Werewolf.Policy
open Library

def numeral (base value : Nat) : String := String.ofList (Nat.toDigits base value)

def separated (separator : String) : List String → String
  | [] => ""
  | first :: rest => rest.foldl (fun text part => text ++ separator ++ part) first

def ipv4Text (octets : List UInt8) : String :=
  separated "." (octets.map (fun octet => numeral 10 octet.toNat))

/-- `Ipv6Addr::segments`. -/
def segments : List UInt8 → List Nat
  | high :: low :: rest => (256 * high.toNat + low.toNat) :: segments rest
  | _ => []

structure Span where
  start : Nat
  len : Nat

/-- The first longest run of zero segments behind those already seen. -/
def longestZeroes (index : Nat) (longest current : Span) : List Nat → Span
  | [] => longest
  | segment :: rest =>
      if segment = 0 then
        let current : Span := ⟨if current.len = 0 then index else current.start, current.len + 1⟩
        longestZeroes (index + 1) (if longest.len < current.len then current else longest) current
          rest
      else longestZeroes (index + 1) longest ⟨0, 0⟩ rest

def groupsText (segments : List Nat) : String :=
  separated ":" (segments.map (numeral 16))

/-- A run of at least two zero segments is left out, and a mapped IPv4 address is
written as one. -/
def ipv6Text (octets : ByteArr 16) : String :=
  if octets.val.take 12 = List.replicate 10 0 ++ [0xFF, 0xFF] then
    "::ffff:" ++ ipv4Text (octets.val.drop 12)
  else
    let groups := segments octets.val
    let zeroes := longestZeroes 0 ⟨0, 0⟩ ⟨0, 0⟩ groups
    if 1 < zeroes.len then
      groupsText (groups.take zeroes.start) ++ "::" ++
        groupsText (groups.drop (zeroes.start + zeroes.len))
    else groupsText groups

/-- `SocketAddr` as text. The flow label is not written. -/
def SocketAddr.text : SocketAddr → String
  | .v4 octets port => ipv4Text octets.val ++ ":" ++ numeral 10 port.toNat
  | .v6 octets port _ scopeId =>
      let scope := if scopeId = 0 then "" else "%" ++ numeral 10 scopeId.toNat
      "[" ++ ipv6Text octets ++ scope ++ "]:" ++ numeral 10 port.toNat

example : SocketAddr.text (.v6 ⟨List.replicate 15 0 ++ [1], rfl⟩ 80 0 4) = "[::1%4]:80" := by
  decide +kernel

section Sizes

private theorem digitChar_utf8Size {digit : Nat} (small : digit < 16) : (Nat.digitChar digit).utf8Size = 1 := by
  revert digit
  decide

private theorem utf8Len_toDigits {base : Nat} (more : 1 < base) (few : base ≤ 16) (value : Nat) :
    String.utf8Len (Nat.toDigits base value) = (Nat.toDigits base value).length := by
  induction value using Nat.strongRecOn with
  | ind value ih =>
    by_cases small : value < base
    · rw [Nat.toDigits_of_lt_base small]
      simp [String.utf8Len, digitChar_utf8Size (small.trans_le few)]
    · have shorter : value / base < value := Nat.div_lt_self (by omega) more
      have digit : value % base < 16 := (Nat.mod_lt _ (by omega)).trans_le few
      rw [Nat.toDigits_of_base_le more (by omega), String.utf8Len_append, ih _ shorter, List.length_append]
      simp [String.utf8Len, digitChar_utf8Size digit]

theorem byteLength_numeral_le {base value width : Nat} (more : 1 < base) (few : base ≤ 16)
    (positive : 0 < width) (small : value < base ^ width) :
    byteLength (numeral base value) ≤ width := by
  rw [numeral, byteLength, String.utf8ByteSize_ofList, utf8Len_toDigits more few]
  exact (Nat.length_toDigits_le_iff more positive).mpr small

theorem byteLength_separated_le {separator : String} (single : byteLength separator = 1)
    {width : Nat} {parts : List String} (short : ∀ part ∈ parts, byteLength part ≤ width) :
    byteLength (separated separator parts) + 1 ≤ (width + 1) * max 1 parts.length := by
  cases parts with
  | nil => simp [separated]
  | cons first rest =>
    have folded (text : String) (rest : List String) (short : ∀ part ∈ rest, byteLength part ≤ width) :
        byteLength (rest.foldl (fun text part => text ++ separator ++ part) text) ≤
          byteLength text + (width + 1) * rest.length := by
      induction rest generalizing text with
      | nil => simp
      | cons part rest ih =>
        have later := ih (text ++ separator ++ part) (fun other member => short other (List.mem_cons_of_mem _ member))
        have own := short part List.mem_cons_self
        simp only [byteLength, String.utf8ByteSize_append] at later own single ⊢
        rw [List.foldl_cons, List.length_cons, Nat.mul_succ]
        omega
    have bounded := folded first rest (fun other member => short other (List.mem_cons_of_mem _ member))
    have own := short first List.mem_cons_self
    rw [separated, List.length_cons, Nat.max_eq_right (Nat.le_add_left ..), Nat.mul_succ]
    omega

theorem byteLength_ipv4Text_le {octets : List UInt8} (sized : octets.length = 4) :
    byteLength (ipv4Text octets) ≤ 15 := by
  have bounded := @byteLength_separated_le "." (by decide +kernel) 3
    (octets.map (fun octet => numeral 10 octet.toNat)) (by
      simp only [List.forall_mem_map]
      exact fun octet _ => byteLength_numeral_le (by decide) (by decide) (by decide)
        (octet.toNat_lt.trans (by decide)))
  rw [List.length_map, sized] at bounded
  exact Nat.le_of_succ_le_succ bounded

theorem length_segments (octets : List UInt8) : (segments octets).length = octets.length / 2 := by
  induction octets using segments.induct with
  | case1 high low rest ih =>
    simp only [segments, List.length_cons, ih]
    omega
  | case2 octets short =>
    rcases octets with _ | ⟨first, _ | ⟨second, rest⟩⟩
    · rfl
    · simp [segments]
    · exact absurd rfl (short first second rest)

theorem segments_lt (octets : List UInt8) : ∀ segment ∈ segments octets, segment < 16 ^ 4 := by
  induction octets using segments.induct with
  | case1 high low rest ih =>
    have highBound := high.toNat_lt
    have lowBound := low.toNat_lt
    simp only [segments, List.forall_mem_cons]
    exact ⟨by omega, ih⟩
  | case2 octets short =>
    rw [segments.eq_2 octets short]
    simp

theorem byteLength_groupsText_le {groups : List Nat} (small : ∀ group ∈ groups, group < 16 ^ 4) :
    byteLength (groupsText groups) + 1 ≤ 5 * max 1 groups.length := by
  have bounded := @byteLength_separated_le ":" (by decide +kernel) 4 (groups.map (numeral 16)) (by
    simp only [List.forall_mem_map]
    exact fun group member => byteLength_numeral_le (by decide) (by decide) (by decide) (small group member))
  rwa [List.length_map] at bounded

theorem longestZeroes_within (groups : List Nat) (index : Nat) (longest current : Span)
    (found : longest.start + longest.len ≤ index) (running : current.len = 0 ∨ current.start + current.len = index) :
    (longestZeroes index longest current groups).start +
      (longestZeroes index longest current groups).len ≤ index + groups.length := by
  induction groups generalizing index longest current with
  | nil => exact found
  | cons group rest ih =>
    rw [List.length_cons, Nat.add_comm rest.length, ← Nat.add_assoc]
    unfold longestZeroes
    split
    · dsimp only
      refine ih _ _ _ ?_ (.inr ?_)
      · split
        · dsimp only
          split <;> omega
        · omega
      · dsimp only
        split <;> omega
    · exact ih _ _ _ (by omega) (.inl rfl)

theorem byteLength_ipv6Text_le (octets : ByteArr 16) : byteLength (ipv6Text octets) ≤ 39 := by
  have count : (segments octets.val).length = 8 := by rw [length_segments, octets.2]
  have small := segments_lt octets.val
  unfold ipv6Text
  split
  · have bounded := @byteLength_ipv4Text_le (octets.val.drop 12) (by rw [List.length_drop, octets.2])
    have leading : byteLength "::ffff:" = 7 := by decide +kernel
    simp only [byteLength, String.utf8ByteSize_append] at bounded leading ⊢
    omega
  · dsimp only
    have within := longestZeroes_within (segments octets.val) 0 ⟨0, 0⟩ ⟨0, 0⟩ (le_refl 0) (.inl rfl)
    generalize longestZeroes 0 ⟨0, 0⟩ ⟨0, 0⟩ (segments octets.val) = zeroes at within ⊢
    split
    · have before := @byteLength_groupsText_le ((segments octets.val).take zeroes.start)
        (fun group member => small group (List.mem_of_mem_take member))
      have after := @byteLength_groupsText_le ((segments octets.val).drop (zeroes.start + zeroes.len))
        (fun group member => small group (List.mem_of_mem_drop member))
      have gap : byteLength "::" = 2 := by decide +kernel
      rw [List.length_take] at before
      rw [List.length_drop] at after
      simp only [byteLength, String.utf8ByteSize_append] at before after gap ⊢
      omega
    · have bounded := byteLength_groupsText_le small
      rw [count] at bounded
      omega

theorem SocketAddr.byteLength_text_le {socket : SocketAddr}
    (unscoped : ∀ octets port flowinfo scopeId, socket = .v6 octets port flowinfo scopeId →
      scopeId = 0) : byteLength socket.text ≤ 47 := by
  have portText (port : UInt16) : byteLength (numeral 10 port.toNat) ≤ 5 :=
    byteLength_numeral_le (by decide) (by decide) (by decide) (port.toNat_lt.trans (by decide))
  cases socket with
  | v4 octets port =>
    have bounded := byteLength_ipv4Text_le octets.2
    have own := portText port
    have colon : byteLength ":" = 1 := by decide +kernel
    simp only [text, byteLength, String.utf8ByteSize_append] at bounded own colon ⊢
    omega
  | v6 octets port flowinfo scopeId =>
    have bounded := byteLength_ipv6Text_le octets
    have own := portText port
    have brackets : byteLength "[" = 1 ∧ byteLength "]:" = 2 ∧ byteLength "" = 0 := by
      decide +kernel
    rw [text, if_pos (unscoped _ _ _ _ rfl)]
    simp only [byteLength, String.utf8ByteSize_append] at bounded own brackets ⊢
    omega

end Sizes

end Werewolf.Policy
