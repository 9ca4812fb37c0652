import Mathlib.Tactic.Ring

/-!
# Byte order

`pj_htons` and its siblings, and the bytes of words in memory, on machines of either byte order.
-/

namespace Pj

/-- The byte order of a machine. -/
inductive ByteOrder
  | little
  | big
deriving DecidableEq, Repr

/-- The bytes of a 16-bit word in reverse. -/
def swap16 (word : UInt16) : UInt16 := UInt16.ofNat (word.toNat % 256 * 256 + word.toNat / 256)

/-- The bytes of a 32-bit word in reverse. -/
def swap32 (word : UInt32) : UInt32 :=
  UInt32.ofNat
    (word.toNat % 256 * 2 ^ 24 + word.toNat / 256 % 256 * 2 ^ 16 +
      word.toNat / 2 ^ 16 % 256 * 256 + word.toNat / 2 ^ 24)

/-- `pj_htons`, which is `pj_ntohs` too. -/
def pjHtons : ByteOrder → UInt16 → UInt16
  | .little, word => swap16 word
  | .big, word => word

/-- `pj_htonl`, which is `pj_ntohl` too. -/
def pjHtonl : ByteOrder → UInt32 → UInt32
  | .little, word => swap32 word
  | .big, word => word

/-- The bytes of a 16-bit word in memory. -/
def store16 (order : ByteOrder) (word : UInt16) : List UInt8 :=
  let high := UInt8.ofNat (word.toNat / 256)
  let low := UInt8.ofNat word.toNat
  match order with
  | .little => [low, high]
  | .big => [high, low]

/-- The 16-bit word at an address. -/
def load16 (order : ByteOrder) (memory : Nat → UInt8) (address : Nat) : UInt16 :=
  let first := (memory address).toNat
  let second := (memory (address + 1)).toNat
  UInt16.ofNat (match order with
    | .little => second * 256 + first
    | .big => first * 256 + second)

/-- The bytes of a 32-bit word in memory. -/
def store32 (order : ByteOrder) (word : UInt32) : List UInt8 :=
  let high := UInt16.ofNat (word.toNat / 2 ^ 16)
  let low := UInt16.ofNat word.toNat
  match order with
  | .little => store16 order low ++ store16 order high
  | .big => store16 order high ++ store16 order low

/-- The 32-bit word at an address. -/
def load32 (order : ByteOrder) (memory : Nat → UInt8) (address : Nat) : UInt32 :=
  let first := (load16 order memory address).toNat
  let second := (load16 order memory (address + 2)).toNat
  UInt32.ofNat (match order with
    | .little => second * 2 ^ 16 + first
    | .big => first * 2 ^ 16 + second)

theorem length_store16 (order : ByteOrder) (word : UInt16) : (store16 order word).length = 2 := by
  cases order <;> rfl

theorem length_store32 (order : ByteOrder) (word : UInt32) : (store32 order word).length = 4 := by
  cases order <;> rfl

theorem swap16_toNat (word : UInt16) :
    (swap16 word).toNat = word.toNat % 256 * 256 + word.toNat / 256 := by
  have bound := word.toNat_lt
  exact Nat.mod_eq_of_lt (by omega)

theorem swap32_toNat (word : UInt32) :
    (swap32 word).toNat =
      word.toNat % 256 * 2 ^ 24 + word.toNat / 256 % 256 * 2 ^ 16 +
        word.toNat / 2 ^ 16 % 256 * 256 + word.toNat / 2 ^ 24 := by
  have bound := word.toNat_lt
  rw [swap32, UInt32.toNat_ofNat']
  exact Nat.mod_eq_of_lt (by omega)

/-- The bytes of a sum of bytes. -/
theorem digits_of_sum {a b c d : Nat} (_ha : a < 256) (hb : b < 256) (hc : c < 256) (hd : d < 256) :
    (a * 2 ^ 24 + b * 2 ^ 16 + c * 256 + d) % 256 = d ∧
      (a * 2 ^ 24 + b * 2 ^ 16 + c * 256 + d) / 256 % 256 = c ∧
      (a * 2 ^ 24 + b * 2 ^ 16 + c * 256 + d) / 2 ^ 16 % 256 = b ∧
      (a * 2 ^ 24 + b * 2 ^ 16 + c * 256 + d) / 2 ^ 24 = a := by
  refine ⟨?_, ?_, ?_, ?_⟩ <;> omega

/-- A number is the sum of its bytes. -/
theorem sum_of_digits (value : Nat) :
    value / 2 ^ 24 * 2 ^ 24 + value / 2 ^ 16 % 256 * 2 ^ 16 + value / 256 % 256 * 256 +
      value % 256 = value := by
  omega

@[simp] theorem pjHtons_pjHtons (order : ByteOrder) (word : UInt16) :
    pjHtons order (pjHtons order word) = word := by
  cases order with
  | big => rfl
  | little =>
    have bound := word.toNat_lt
    apply UInt16.toNat_inj.mp
    rw [pjHtons, pjHtons, swap16_toNat, swap16_toNat]
    omega

@[simp] theorem pjHtonl_pjHtonl (order : ByteOrder) (word : UInt32) :
    pjHtonl order (pjHtonl order word) = word := by
  cases order with
  | big => rfl
  | little =>
    have bound := word.toNat_lt
    apply UInt32.toNat_inj.mp
    rw [pjHtonl, pjHtonl, swap32_toNat, swap32_toNat]
    generalize word.toNat = value at bound
    have digits := digits_of_sum (Nat.mod_lt value (by decide : 0 < 256))
      (Nat.mod_lt (value / 256) (by decide : 0 < 256))
      (Nat.mod_lt (value / 2 ^ 16) (by decide : 0 < 256)) (by omega : value / 2 ^ 24 < 256)
    have ⟨first, second, third, fourth⟩ := digits
    rw [first, second, third, fourth]
    exact sum_of_digits value

theorem pjHtonl_zero (order : ByteOrder) : pjHtonl order 0 = 0 := by
  cases order <;> rfl

/-- The memory from an address on begins with some bytes. -/
def Holds (memory : Nat → UInt8) : Nat → List UInt8 → Prop
  | _, [] => True
  | address, byte :: rest => memory address = byte ∧ Holds memory (address + 1) rest

variable {memory : Nat → UInt8}

theorem holds_append {address : Nat} {left right : List UInt8} :
    Holds memory address (left ++ right) ↔
      Holds memory address left ∧ Holds memory (address + left.length) right := by
  induction left generalizing address with
  | nil => exact (and_iff_right trivial).symm
  | cons byte rest ih =>
    have next : address + 1 + rest.length = address + (byte :: rest).length := by
      rw [List.length_cons]
      omega
    rw [List.cons_append, Holds, Holds, ih, next, and_assoc]

/-- Bytes that the memory holds are read back. -/
theorem Holds.map_range {bytes : List UInt8} :
    ∀ {address : Nat}, Holds memory address bytes →
      (List.range bytes.length).map (fun offset => memory (address + offset)) = bytes := by
  induction bytes with
  | nil => exact fun _ => rfl
  | cons byte rest ih =>
    intro address ⟨first, later⟩
    rw [List.length_cons, List.range_succ_eq_map, List.map_cons, List.map_map]
    have tail := ih later
    simp only [Nat.add_assoc, Nat.add_comm 1] at tail
    exact congrArg₂ (· :: ·) first tail

variable {order : ByteOrder}

theorem Holds.load16 {address : Nat} {word : UInt16}
    (h : Holds memory address (store16 order word)) : Pj.load16 order memory address = word := by
  have bound := word.toNat_lt
  apply UInt16.toNat_inj.mp
  cases order with
  | little =>
    have ⟨first, second, _⟩ := h
    simp only [Pj.load16, first, second, UInt16.toNat_ofNat', UInt8.toNat_ofNat']
    omega
  | big =>
    have ⟨first, second, _⟩ := h
    simp only [Pj.load16, first, second, UInt16.toNat_ofNat', UInt8.toNat_ofNat']
    omega

theorem Holds.load32 {address : Nat} {word : UInt32}
    (h : Holds memory address (store32 order word)) : Pj.load32 order memory address = word := by
  have bound := word.toNat_lt
  apply UInt32.toNat_inj.mp
  cases order with
  | little =>
    have ⟨first, second⟩ := holds_append.mp h
    have next : Pj.load16 .little memory (address + 2) = _ := second.load16
    simp only [Pj.load32, first.load16, next, UInt32.toNat_ofNat', UInt16.toNat_ofNat']
    omega
  | big =>
    have ⟨first, second⟩ := holds_append.mp h
    have next : Pj.load16 .big memory (address + 2) = _ := second.load16
    simp only [Pj.load32, first.load16, next, UInt32.toNat_ofNat', UInt16.toNat_ofNat']
    omega

/-- A list of bytes, as memory, holds what it ends with. -/
theorem holds_getD (before bytes : List UInt8) :
    Holds (fun address => (before ++ bytes).getD address 0) before.length bytes := by
  induction bytes generalizing before with
  | nil => trivial
  | cons byte rest ih =>
    have here : (before ++ byte :: rest).getD before.length 0 = byte := by simp
    have shifted := ih (before ++ [byte])
    rw [List.append_assoc, List.singleton_append, List.length_append] at shifted
    exact ⟨here, shifted⟩

end Pj
