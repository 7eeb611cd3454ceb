import Mathlib.Algebra.BigOperators.Group.List.Basic
import Mathlib.Algebra.GroupWithZero.Nat

/-!
# Tilings of an interval

A list of tiles, each a header of fixed size followed by a payload, laid out one after the
other from a start address.
-/

namespace RosKernel

open List

/-- One tile. -/
structure Tile where
  payload : ℕ
  free : Bool
  deriving DecidableEq

namespace Tiling

variable (header : ℕ)

/-- Bytes a list of tiles covers. -/
def extent (tiles : List Tile) : ℕ := (tiles.map fun tile => header + tile.payload).sum

/-- The tiles with their addresses. -/
def placed : ℕ → List Tile → List (ℕ × Tile)
  | _, [] => []
  | start, tile :: rest => (start, tile) :: placed (start + header + tile.payload) rest

variable {header}

@[simp]
theorem extent_nil : extent header [] = 0 := rfl

@[simp]
theorem extent_cons (tile : Tile) (rest : List Tile) :
    extent header (tile :: rest) = header + tile.payload + extent header rest := by
  simp [extent]

@[simp]
theorem extent_append (front back : List Tile) :
    extent header (front ++ back) = extent header front + extent header back := by
  simp [extent]

theorem placed_append (start : ℕ) (front back : List Tile) :
    placed header start (front ++ back) =
      placed header start front ++ placed header (start + extent header front) back := by
  induction front generalizing start with
  | nil => rfl
  | cons _ _ ih =>
    rw [cons_append, placed, placed, ih, cons_append, extent_cons, ← Nat.add_assoc, ← Nat.add_assoc]

variable {start : ℕ} {tiles : List Tile} {entry : ℕ × Tile}

/-- Tiles lie inside the interval. -/
theorem placed_bounds (mem : entry ∈ placed header start tiles) :
    start ≤ entry.1 ∧ entry.1 + header + entry.2.payload ≤ start + extent header tiles := by
  induction tiles generalizing start with
  | nil => cases mem
  | cons _ _ ih =>
    rw [extent_cons]
    rcases mem_cons.mp mem with rfl | later
    · simp only
      omega
    · have bounds := ih later
      omega

/-- A placed tile with its neighbours. -/
theorem exists_split (mem : entry ∈ placed header start tiles) :
    ∃ front back, tiles = front ++ entry.2 :: back ∧ entry.1 = start + extent header front := by
  induction tiles generalizing start with
  | nil => cases mem
  | cons tile rest ih =>
    rcases mem_cons.mp mem with rfl | later
    · exact ⟨[], rest, rfl, rfl⟩
    · obtain ⟨front, back, rfl, place⟩ := ih later
      refine ⟨tile :: front, back, rfl, ?_⟩
      rw [place, extent_cons]
      omega

theorem mem_placed_middle (start : ℕ) (front : List Tile) (tile : Tile) (back : List Tile) :
    (start + extent header front, tile) ∈ placed header start (front ++ tile :: back) := by
  rw [placed_append, placed]
  exact mem_append_right _ (.head _)

/-- Tiles do not overlap. -/
theorem placed_apart {left right : ℕ × Tile} (leftMember : left ∈ placed header start tiles)
    (rightMember : right ∈ placed header start tiles) :
    left = right ∨ left.1 + header + left.2.payload ≤ right.1 ∨
      right.1 + header + right.2.payload ≤ left.1 := by
  induction tiles generalizing start with
  | nil => cases leftMember
  | cons _ _ ih =>
    rcases mem_cons.mp leftMember with rfl | leftLater <;>
      rcases mem_cons.mp rightMember with rfl | rightLater
    · exact .inl rfl
    · exact .inr (.inl (placed_bounds rightLater).1)
    · exact .inr (.inr (placed_bounds leftLater).1)
    · exact ih leftLater rightLater

/-- Replacing tiles by others of the same extent leaves the rest in place. -/
theorem mem_placed_replace {front middle replacement back : List Tile}
    (same : extent header replacement = extent header middle)
    (mem : entry ∈ placed header start (front ++ middle ++ back)) :
    entry ∈ placed header start (front ++ replacement ++ back) ∨
      entry ∈ placed header (start + extent header front) middle := by
  rw [placed_append, placed_append, mem_append, mem_append] at mem
  rw [placed_append, placed_append, mem_append, mem_append, extent_append, same, ← extent_append]
  tauto

/-- A byte of some tile's header. -/
def HeaderByte (header start : ℕ) (tiles : List Tile) (place : ℕ) : Prop :=
  ∃ entry ∈ placed header start tiles, entry.1 ≤ place ∧ place < entry.1 + header

/-- Payloads and headers are apart. -/
theorem not_headerByte {place : ℕ}
    (mem : entry ∈ placed header start tiles) (lower : entry.1 + header ≤ place)
    (upper : place < entry.1 + header + entry.2.payload) :
    ¬ HeaderByte header start tiles place := by
  rintro ⟨_, otherMem, _, _⟩
  rcases placed_apart mem otherMem with rfl | _ | _
  · omega
  · omega
  · omega

end Tiling
end RosKernel
