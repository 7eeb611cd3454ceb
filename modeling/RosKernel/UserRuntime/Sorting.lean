import Mathlib.Logic.Equiv.Basic

/-!
# Sorting and searching arrays

`qsort` and `bsearch` of `crt.c` on the bytes of memory. The size of the array does not
overflow, so that addresses are natural numbers.
-/

namespace RosKernel.Sorting

open List Equiv

abbrev Memory := ℕ → UInt8

/-- The bytes from an address on. -/
def load (memory : Memory) (address size : ℕ) : List UInt8 :=
  (List.range size).map fun offset => memory (address + offset)

def store (memory : Memory) (address : ℕ) (bytes : List UInt8) : Memory := fun place =>
  if address ≤ place then bytes.getD (place - address) (memory place) else memory place

/-- The swap in `qsort`, through a buffer of 256 bytes. -/
def swap (memory : Memory) (lhs rhs remaining : ℕ) : Memory :=
  if remaining = 0 then
    memory
  else
    let chunk := min remaining 256
    let temp := load memory lhs chunk
    let copied := store memory lhs (load memory rhs chunk)
    swap (store copied rhs temp) (lhs + chunk) (rhs + chunk) (remaining - chunk)
termination_by remaining
decreasing_by omega

def element (memory : Memory) (base size index : ℕ) : List UInt8 :=
  load memory (base + index * size) size

section

variable (compare : List UInt8 → List UInt8 → ℤ) (base count size : ℕ)

/-- One turn of the inner loop of `qsort`. -/
def compareSwap (i : ℕ) (memory : Memory) (j : ℕ) : Memory :=
  if 0 < compare (element memory base size i) (element memory base size j) then
    swap memory (base + i * size) (base + j * size) size
  else
    memory

def qsort (memory : Memory) : Memory :=
  if base = 0 ∨ size = 0 ∨ count < 2 then
    memory
  else
    (List.range' 0 count).foldl (fun memory i =>
      (List.range' (i + 1) (count - (i + 1))).foldl (compareSwap compare base size i) memory) memory

variable (key : List UInt8) (memory : Memory)

/-- The loop of `bsearch`. -/
def bsearchLoop (low high : ℕ) : Option ℕ :=
  if low < high then
    let mid := low + (high - low) / 2
    let compared := compare key (element memory base size mid)
    if compared = 0 then some (base + mid * size)
    else if compared < 0 then bsearchLoop low mid
    else bsearchLoop (mid + 1) high
  else
    none
termination_by high - low

def bsearch : Option ℕ :=
  if base = 0 ∨ size = 0 then none else bsearchLoop compare base size key memory 0 count

end

/-- The comparator is a total preorder: swapping its arguments swaps the sign. -/
structure TotalPreorder (compare : List UInt8 → List UInt8 → ℤ) : Prop where
  mirrored : ∀ left right, 0 < compare left right ↔ compare right left < 0
  trans : ∀ left middle right, compare left middle ≤ 0 → compare middle right ≤ 0 →
    compare left right ≤ 0

/-! ## Swapping elements -/

variable {memory : Memory} {base count size : ℕ}

theorem store_load (other : Memory) (target source place : ℕ) :
    store memory target (load other source size) place =
      if target ≤ place ∧ place < target + size then other (source + (place - target))
      else memory place := by
  unfold store load
  by_cases above : target ≤ place
  · by_cases inside : place - target < size
    · simp [above, inside, show place < target + size by omega]
    · simp [above, inside, show ¬ place < target + size by omega]
  · simp [above]

theorem swap_apply {lhs rhs remaining : ℕ} (apart : lhs + remaining ≤ rhs) (place : ℕ) :
    swap memory lhs rhs remaining place =
      if lhs ≤ place ∧ place < lhs + remaining then memory (rhs + (place - lhs))
      else if rhs ≤ place ∧ place < rhs + remaining then memory (lhs + (place - rhs))
      else memory place := by
  induction remaining using Nat.strongRecOn generalizing memory lhs rhs with
  | ind remaining ih =>
    unfold swap
    split
    · rw [if_neg (by omega), if_neg (by omega)]
    · rw [ih _ (by omega) (by omega)]
      simp only [store_load]
      split_ifs <;> first | omega | exact congrArg memory (by omega)

variable {i j : ℕ}

theorem apart_of_lt (base size : ℕ) (less : i < j) : base + i * size + size ≤ base + j * size := by
  have scaled := Nat.mul_le_mul_right size less
  rw [Nat.succ_mul] at scaled
  omega

/-- The bytes of an element belong to no other. -/
theorem mem_element_iff {offset : ℕ} (inside : offset < size) :
    (base + i * size ≤ base + j * size + offset ∧
      base + j * size + offset < base + i * size + size) ↔ j = i := by
  refine ⟨fun ⟨above, below⟩ => ?_, fun same => by subst same; omega⟩
  rcases Nat.lt_trichotomy j i with less | same | more
  · have apart := apart_of_lt base size less
    omega
  · exact same
  · have apart := apart_of_lt base size more
    omega

theorem element_swap (less : i < j) (index : ℕ) :
    element (swap memory (base + i * size) (base + j * size) size) base size index =
      element memory base size (Equiv.swap i j index) := by
  refine map_congr_left fun offset inside => ?_
  have inside := mem_range.mp inside
  rw [swap_apply (apart_of_lt base size less), swap_apply_def]
  simp only [mem_element_iff inside]
  split_ifs <;> first | rfl | (subst_vars; exact congrArg memory (by omega))

/-! ## Sorting -/

variable {compare : List UInt8 → List UInt8 → ℤ}

/-- What every turn of a counting loop keeps. -/
theorem foldl_range'_invariant {σ : Type} (holds : ℕ → σ → Prop) {turn : σ → ℕ → σ}
    {state : σ} (start length : ℕ) (initial : holds start state)
    (step : ∀ index state, start ≤ index → index < start + length → holds index state →
      holds (index + 1) (turn state index)) :
    holds (start + length) ((List.range' start length).foldl turn state) := by
  induction length with
  | zero => exact initial
  | succ length ih =>
    rw [List.range'_1_concat, foldl_append]
    exact step (start + length) _ (by omega) (by omega) (ih fun index state above below =>
      step index state above (by omega))

/-- The array is a permutation of the original one, in order up to an index, and nothing else
has changed. -/
structure Progress (compare : List UInt8 → List UInt8 → ℤ) (original : Memory)
    (base count size done : ℕ) (memory : Memory) : Prop where
  permuted : ∃ permutation : Perm ℕ, (∀ index, count ≤ index → permutation index = index) ∧
    ∀ index, element memory base size index = element original base size (permutation index)
  outside : ∀ place, place < base ∨ base + count * size ≤ place → memory place = original place
  sorted : ∀ left < done, ∀ right, left ≤ right → right < count →
    compare (element memory base size left) (element memory base size right) ≤ 0

variable {original : Memory}

theorem Progress.swap (progress : Progress compare original base count size i memory)
    (less : i < j) (bound : j < count) : Progress compare original base count size i
      (swap memory (base + i * size) (base + j * size) size) := by
  obtain ⟨⟨permutation, fixed, same⟩, outside, sorted⟩ := progress
  refine ⟨⟨(Equiv.swap i j).trans permutation, fun index above => ?_, fun index => ?_⟩,
    fun place away => ?_, fun left before right above below => ?_⟩
  · rw [trans_apply, swap_apply_of_ne_of_ne (by omega) (by omega), fixed index above]
  · rw [element_swap less, same]
    rfl
  · have first := apart_of_lt base size less
    have last := apart_of_lt base size bound
    rw [swap_apply (by omega), if_neg (by omega), if_neg (by omega), outside place away]
  · rw [element_swap less, element_swap less, swap_apply_of_ne_of_ne (by omega) (by omega)]
    refine sorted left before _ ?_ ?_ <;> rw [swap_apply_def] <;> split_ifs <;> omega

section

variable (order : TotalPreorder compare)
include order

theorem TotalPreorder.refl (left : List UInt8) : compare left left ≤ 0 := by
  have mirrored := order.mirrored left left
  omega

/-- The element is at most as large as those between it and another index. -/
def Least (compare : List UInt8 → List UInt8 → ℤ) (base size i j : ℕ) (memory : Memory) : Prop :=
  ∀ other, i ≤ other → other < j →
    compare (element memory base size i) (element memory base size other) ≤ 0

theorem Progress.turn (progress : Progress compare original base count size i memory)
    (least : Least compare base size i j memory) (less : i < j) (bound : j < count) :
    Progress compare original base count size i (compareSwap compare base size i memory j) ∧
      Least compare base size i (j + 1) (compareSwap compare base size i memory j) := by
  unfold compareSwap
  split
  · rename_i greater
    have smaller := Int.le_of_lt ((order.mirrored _ _).mp greater)
    refine ⟨progress.swap less bound, fun other above upTo => ?_⟩
    rw [element_swap less, element_swap less, swap_apply_left, swap_apply_def]
    split_ifs
    · exact order.refl _
    · exact smaller
    · exact order.trans _ _ _ smaller (least other above (by omega))
  · rename_i notGreater
    refine ⟨progress, fun other above upTo => ?_⟩
    by_cases isLast : other = j
    · rw [isLast]
      exact Int.not_lt.mp notGreater
    · exact least other above (by omega)

/-- The inner loop leaves the least of the remaining elements in front of them. -/
theorem Progress.inner (progress : Progress compare original base count size i memory)
    (bound : i < count) : Progress compare original base count size (i + 1)
      ((List.range' (i + 1) (count - (i + 1))).foldl (compareSwap compare base size i) memory) := by
  have first : Least compare base size i (i + 1) memory := fun other above upTo => by
    rw [show other = i by omega]
    exact order.refl _
  obtain ⟨⟨permuted, outside, sorted⟩, least⟩ := foldl_range'_invariant (fun j memory =>
      Progress compare original base count size i memory ∧ Least compare base size i j memory)
    (i + 1) (count - (i + 1)) ⟨progress, first⟩ fun j memory above below inner =>
      inner.1.turn order inner.2 (by omega) (by omega)
  refine ⟨permuted, outside, fun left before right above below => ?_⟩
  by_cases isLast : left = i
  · subst isLast
    exact least right above (by omega)
  · exact sorted left (by omega) right above below

theorem qsort_progress (nonnull : base ≠ 0) :
    Progress compare memory base count size count (qsort compare base count size memory) := by
  have start (done : ℕ) (trivially : ∀ left < done, ∀ right, left ≤ right → right < count →
      element memory base size left = element memory base size right) :
      Progress compare memory base count size done memory :=
    ⟨⟨Equiv.refl ℕ, fun _ _ => rfl, fun _ => rfl⟩, fun _ _ => rfl,
      fun left before right above below => by
        rw [trivially left before right above below]
        exact order.refl _⟩
  unfold qsort
  split
  · rename_i early
    refine start count fun left before right above below => ?_
    rcases early with null | rfl | few
    · exact absurd null nonnull
    · rfl
    · rw [show left = right by omega]
  · have sorted := foldl_range'_invariant (Progress compare memory base count size) 0 count
      (start 0 nofun) fun _ _ _ below progress => progress.inner order (by omega)
    rwa [Nat.zero_add] at sorted

/-! ## Searching -/

variable {key : List UInt8}

/-- What a search has to return. -/
def Answers (compare : List UInt8 → List UInt8 → ℤ) (base count size : ℕ) (key : List UInt8)
    (memory : Memory) : Option ℕ → Prop
  | some address => ∃ index < count, address = base + index * size ∧
      compare key (element memory base size index) = 0
  | none => ∀ index < count, compare key (element memory base size index) ≠ 0

theorem bsearchLoop_answers {low high : ℕ}
    (sorted : ∀ left < count, ∀ right, left ≤ right → right < count →
      compare (element memory base size left) (element memory base size right) ≤ 0)
    (bound : high ≤ count)
    (before : ∀ index < low, 0 < compare key (element memory base size index))
    (behind : ∀ index, high ≤ index → index < count →
      compare key (element memory base size index) < 0) :
    Answers compare base count size key memory
      (bsearchLoop compare base size key memory low high) := by
  induction distance : high - low using Nat.strongRecOn generalizing low high with
  | ind _ ih =>
    unfold bsearchLoop
    split
    · extract_lets mid compared
      have inside : mid < count := by omega
      have mirrored := order.mirrored (element memory base size mid) key
      split
      · rename_i equal
        exact ⟨mid, inside, rfl, equal⟩
      split
      · refine ih _ (by omega) (Nat.le_of_lt inside) before (fun index above below => ?_) rfl
        have other := order.mirrored (element memory base size index) key
        have ordered := order.trans _ _ key (sorted mid inside index above below)
        omega
      · refine ih _ (by omega) bound (fun index upTo => ?_) behind rfl
        have ordered := fun small => order.trans key _ _ small
          (sorted index (by omega) mid (by omega) inside)
        omega
    · intro index inside
      rcases Nat.lt_or_ge index low with first | last
      · exact Int.ne_of_gt (before index first)
      · exact Int.ne_of_lt (behind index (by omega) inside)

/-- Sorting permutes the elements of an array into order and touches nothing else. Afterwards
a search finds an element that compares equal to the key if there is one, and finds nothing
among elements of no bytes. -/
theorem qsort_bsearch (nonnull : base ≠ 0) (count size : ℕ) (memory : Memory) :
    let after := qsort compare base count size memory
    Progress compare memory base count size count after ∧ ∀ key,
      if size = 0 then bsearch compare base count size key after = none
      else Answers compare base count size key after
        (bsearch compare base count size key after) := by
  have progress := @qsort_progress memory base count size compare order nonnull
  refine ⟨progress, fun key => ?_⟩
  unfold bsearch
  split
  · rename_i empty
    rw [if_pos (.inr empty)]
  · rename_i nonempty
    rw [if_neg (not_or.mpr ⟨nonnull, nonempty⟩)]
    exact bsearchLoop_answers order progress.sorted (Nat.le_refl _) nofun
      fun index above below => absurd above (by omega)

end

/-- Three elements of one byte, ordered by their bytes. -/
theorem qsort_bsearch_threeBytes :
    let compare := fun left right : List UInt8 => ((left.headD 0).toNat : ℤ) - (right.headD 0).toNat
    let memory : Memory := fun place => if place = 16 then 3 else if place = 17 then 1 else 2
    let after := qsort compare 16 3 1 memory
    Progress compare memory 16 3 1 3 after ∧
      Answers compare 16 3 1 [2] after (bsearch compare 16 3 1 [2] after) := by
  intro compare memory
  have order : TotalPreorder compare :=
    ⟨fun _ _ => by simp only [compare]; omega, fun _ _ _ => by simp only [compare]; omega⟩
  obtain ⟨progress, answers⟩ := qsort_bsearch order (by decide : 16 ≠ 0) 3 1 memory
  exact ⟨progress, answers [2]⟩

/-- An element of no bytes compares equal to the key, but `bsearch` refuses the element size. -/
theorem bsearch_emptyElement :
    let compare : List UInt8 → List UInt8 → ℤ := fun _ _ => 0
    let after := qsort compare 16 1 0 fun _ => 0
    TotalPreorder compare ∧ compare [] (element after 16 0 0) = 0 ∧
      bsearch compare 16 1 0 [] after = none ∧
      ¬ Answers compare 16 1 0 [] after (bsearch compare 16 1 0 [] after) :=
  ⟨⟨by simp, by simp⟩, rfl, rfl, fun answers => answers 0 Nat.one_pos rfl⟩

end RosKernel.Sorting
