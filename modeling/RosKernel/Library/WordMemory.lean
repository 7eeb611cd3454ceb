import Mathlib.Data.Nat.ModEq
import RosKernel.Library.ByteMemory

/-!
# Words in flat byte memory

Little-endian loads and stores at byte addresses: 64-bit words, and numbers of any width.
-/

namespace WordMemory

open List ByteMemory

/-- Flat byte memory. -/
abbrev Memory := ℕ → UInt8

/-- The word at an address. -/
def load (memory : Memory) (address : ℕ) : ℕ :=
  decode (ByteMemory.read (List.range' address 8) memory)

/-- Store a word at an address. -/
def store (memory : Memory) (address value : ℕ) : Memory :=
  write (List.range' address 8) (encode 8 value) memory

variable {memory other : Memory} {address value count width : ℕ}

/-- The number in some bytes from an address on. -/
def field (width : ℕ) (memory : Memory) (address : ℕ) : ℕ :=
  decode (ByteMemory.read (List.range' address width) memory)

/-- Store a number in some bytes from an address on. -/
def setField (width : ℕ) (memory : Memory) (address value : ℕ) : Memory :=
  write (List.range' address width) (encode width value) memory

theorem read_congr
    (same : ∀ place, address ≤ place → place < address + count → memory place = other place) :
    ByteMemory.read (List.range' address count) memory =
      ByteMemory.read (List.range' address count) other := by
  apply map_congr_left
  intro place mem
  rw [mem_range'_1] at mem
  exact same place mem.1 mem.2

theorem read_eq_iff :
    ByteMemory.read (List.range' address count) memory =
        ByteMemory.read (List.range' address count) other ↔
      ∀ place, address ≤ place → place < address + count → memory place = other place := by
  constructor
  · intro same place lower upper
    exact map_eq_map_iff.mp same place (mem_range'_1.mpr ⟨lower, upper⟩)
  · exact read_congr

theorem field_congr
    (same : ∀ place, address ≤ place → place < address + width → memory place = other place) :
    field width memory address = field width other address := by
  rw [field, field, read_congr same]

theorem setField_of_outside {place : ℕ} (outside : place < address ∨ address + width ≤ place) :
    setField width memory address value place = memory place := by
  apply write_of_notMem
  rw [mem_range'_1]
  omega

/-! ## Words -/

theorem store_of_outside {place : ℕ} (outside : place < address ∨ address + 8 ≤ place) :
    store memory address value place = memory place :=
  setField_of_outside outside

theorem load_store_same (small : value < 2 ^ 64) :
    load (store memory address value) address = value := by
  rw [load, store, read_write_same nodup_range' (by simp), decode_encode]
  exact Nat.mod_eq_of_lt small

theorem load_congr
    (same : ∀ place, address ≤ place → place < address + 8 → memory place = other place) :
    load memory address = load other address :=
  field_congr same

theorem load_store_of_apart {other : ℕ} (apart : other + 8 ≤ address ∨ address + 8 ≤ other) :
    load (store memory address value) other = load memory other := by
  apply load_congr
  intro _ _ _
  apply store_of_outside
  omega

/-! ## Numbers of any width -/

variable (memory : Memory)

theorem take_read (address : ℕ) (short : count ≤ width) :
    (ByteMemory.read (List.range' address width) memory).take count =
      ByteMemory.read (List.range' address count) memory := by
  have split : List.range' address count ++ List.range' (address + count) (width - count) =
      List.range' address width := by
    rw [List.range'_append_1, Nat.add_sub_cancel' short]
  rw [ByteMemory.read, ← split, map_append]
  exact take_left' (by simp)

/-- The first bytes of a number are its low bytes. -/
theorem read_eq_encode_field (address : ℕ) (short : count ≤ width) :
    ByteMemory.read (List.range' address count) memory =
      encode count (field width memory address) := by
  have whole : encode width (field width memory address) =
      ByteMemory.read (List.range' address width) memory := by
    have back := encode_decode (ByteMemory.read (List.range' address width) memory)
    rwa [ByteMemory.read, length_map, length_range'] at back
  rw [← take_encode short, whole, take_read memory address short]

theorem read_setField (address value : ℕ) (short : count ≤ width) :
    ByteMemory.read (List.range' address count) (setField width memory address value) =
      encode count value := by
  have whole : ByteMemory.read (List.range' address width) (setField width memory address value) =
      encode width value :=
    read_write_same nodup_range' (by simp)
  rw [← take_encode short, ← whole, take_read _ address short]

/-- Adding to a number keeps its first bytes exactly when the addend has none of them. -/
theorem setField_add_keeps_iff (address addend : ℕ) (short : count ≤ width) :
    (∀ place, address ≤ place → place < address + count →
        setField width memory address (field width memory address + addend) place = memory place) ↔
      256 ^ count ∣ addend := by
  rw [← read_eq_iff, read_setField memory address _ short,
    read_eq_encode_field memory address short, encode_eq_encode_iff]
  constructor
  · intro same
    have shifted : Nat.ModEq (256 ^ count) addend 0 := Nat.ModEq.add_left_cancel' _ same
    exact Nat.modEq_zero_iff_dvd.mp shifted
  · rintro ⟨_, rfl⟩
    exact Nat.add_mul_mod_self_left _ _ _

end WordMemory
