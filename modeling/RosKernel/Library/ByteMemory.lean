import Mathlib.Algebra.Group.Nat.Defs
import Mathlib.Data.List.Nodup

/-!
# Translated byte memory

Byte-addressed memory behind an address translation. An access to consecutive
virtual addresses reaches a list of cells, or no list at all when one of the
addresses does not translate. Numbers are stored least significant byte first.
-/

universe u v

/-- Successor and translation of virtual addresses. -/
structure Translation (V : Type u) (P : Type v) where
  next : V → V
  /-- The cell behind an address. -/
  translate : V → Option P

namespace Translation

variable {V : Type u} {P : Type v}

/-- The cells behind consecutive addresses. -/
def cells (translation : Translation V P) : V → ℕ → Option (List P)
  | _, 0 => some []
  | address, count + 1 =>
    (translation.translate address).bind fun cell =>
      (translation.cells (translation.next address) count).map fun rest => cell :: rest

theorem length_cells {translation : Translation V P} {address : V} {count : ℕ} {found : List P}
    (reached : translation.cells address count = some found) : found.length = count := by
  induction count generalizing address found with
  | zero =>
    rw [cells, Option.some.injEq] at reached
    rw [← reached, List.length_nil]
  | succ _ ih =>
    rw [cells, Option.bind_eq_some_iff] at reached
    obtain ⟨_, _, reached⟩ := reached
    obtain ⟨_, later, rfl⟩ := Option.map_eq_some_iff.mp reached
    rw [List.length_cons, ih later]

end Translation

namespace ByteMemory

variable {P : Type v} [DecidableEq P]

/-- Write bytes into cells, in order. -/
def write : List P → List UInt8 → (P → UInt8) → P → UInt8
  | cell :: cells, byte :: bytes, memory => write cells bytes (Function.update memory cell byte)
  | _, _, memory => memory

/-- The bytes in some cells. -/
def read (cells : List P) (memory : P → UInt8) : List UInt8 :=
  cells.map memory

variable {cells : List P} {bytes : List UInt8}

/-- A cell outside the written ones keeps its byte. -/
theorem write_of_notMem {memory : P → UInt8} {cell : P}
    (outside : cell ∉ cells) : write cells bytes memory cell = memory cell := by
  induction cells generalizing bytes memory with
  | nil => cases bytes <;> rfl
  | cons _ _ ih =>
    rw [List.mem_cons, not_or] at outside
    cases bytes with
    | nil => rfl
    | cons => rw [write, ih outside.2, Function.update_of_ne outside.1]

/-- The final byte of a written cell does not depend on the memory before. -/
theorem write_determined {cell : P}
    (long : cells.length ≤ bytes.length) (written : cell ∈ cells) (memory other : P → UInt8) :
    write cells bytes memory cell = write cells bytes other cell := by
  induction cells generalizing bytes memory other with
  | nil => cases written
  | cons head rest ih =>
    cases bytes with
    | nil => exact absurd long (by simp)
    | cons _ bytes =>
      have longRest : rest.length ≤ bytes.length := Nat.le_of_succ_le_succ long
      rw [write, write]
      by_cases later : cell ∈ rest
      · exact ih longRest later _ _
      · have same : cell = head := (List.mem_cons.mp written).resolve_right later
        rw [write_of_notMem later, write_of_notMem later, same, Function.update_self,
          Function.update_self]

/-- Reading distinct cells back after writing them. -/
theorem read_write_same {memory : P → UInt8}
    (distinct : cells.Nodup) (same : cells.length = bytes.length) :
    read cells (write cells bytes memory) = bytes := by
  induction cells generalizing bytes memory with
  | nil => exact (List.length_eq_zero_iff.mp same.symm).symm
  | cons head rest ih =>
    obtain ⟨notRest, restDistinct⟩ := List.nodup_cons.mp distinct
    cases bytes with
    | nil => exact absurd same (by simp)
    | cons byte bytes =>
      have first : write rest bytes (Function.update memory head byte) head = byte := by
        rw [write_of_notMem notRest, Function.update_self]
      have later : read rest (write rest bytes (Function.update memory head byte)) = bytes :=
        ih restDistinct (Nat.succ.inj same)
      rw [read] at later ⊢
      rw [write, List.map_cons, first, later]

/-! ## Numbers -/

/-- The low bytes of a number, least significant first. -/
def encode : ℕ → ℕ → List UInt8
  | 0, _ => []
  | width + 1, value => UInt8.ofNat value :: encode width (value / 256)

/-- The number given by its bytes, least significant first. -/
def decode : List UInt8 → ℕ
  | [] => 0
  | byte :: bytes => byte.toNat + 256 * decode bytes

variable (width value : ℕ)

@[simp] theorem length_encode : (encode width value).length = width := by
  induction width generalizing value with
  | zero => rfl
  | succ _ ih => rw [encode, List.length_cons, ih]

theorem decode_encode : decode (encode width value) = value % 256 ^ width := by
  induction width generalizing value with
  | zero => rw [encode, decode, Nat.pow_zero, Nat.mod_one]
  | succ _ ih =>
    have low : (UInt8.ofNat value).toNat = value % 256 := UInt8.toNat_ofNat'
    rw [encode, decode, ih, low, Nat.pow_succ, Nat.mul_comm _ 256, Nat.mod_mul]

theorem decode_lt (bytes : List UInt8) : decode bytes < 256 ^ bytes.length := by
  induction bytes with
  | nil => decide
  | cons byte =>
    have head := byte.toNat_lt
    rw [decode, List.length_cons, Nat.pow_succ]
    omega

theorem encode_mod : encode width (value % 256 ^ width) = encode width value := by
  induction width generalizing value with
  | zero => rfl
  | succ width ih =>
    have low : UInt8.ofNat (value % 256 ^ (width + 1)) = UInt8.ofNat value := by
      apply UInt8.toNat_inj.mp
      exact Nat.mod_mul_left_mod _ _ _
    rw [encode, encode, low, Nat.pow_succ, Nat.mul_comm, Nat.mod_mul_right_div_self, ih]

theorem encode_eq_encode_iff {width left right : ℕ} :
    encode width left = encode width right ↔ left % 256 ^ width = right % 256 ^ width := by
  constructor
  · intro same
    rw [← decode_encode, ← decode_encode, same]
  · intro same
    rw [← encode_mod, same, encode_mod]

theorem encode_decode (bytes : List UInt8) : encode bytes.length (decode bytes) = bytes := by
  induction bytes with
  | nil => rfl
  | cons byte bytes ih =>
    have small := byte.toNat_lt
    have low : UInt8.ofNat (byte.toNat + 256 * decode bytes) = byte := by
      apply UInt8.toNat_inj.mp
      rw [UInt8.toNat_ofNat']
      omega
    have high : (byte.toNat + 256 * decode bytes) / 256 = decode bytes := by omega
    rw [decode, List.length_cons, encode, low, high, ih]

theorem take_encode {width count : ℕ} (short : count ≤ width) {value : ℕ} :
    (encode width value).take count = encode count value := by
  induction count generalizing width value with
  | zero => rfl
  | succ _ ih =>
    obtain ⟨_, rfl⟩ := Nat.exists_eq_add_of_le' (Nat.zero_lt_of_lt short)
    rw [encode, encode, List.take_succ_cons, ih (by omega)]

end ByteMemory
