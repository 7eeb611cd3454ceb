import Mathlib.Data.BitVec
import Mathlib.Data.Set.Card
import Mathlib.Order.CompletePartialOrder

/-!
# Moving a window with its descendants

`gwes_render_move_window` in `window.cpp`: the window goes to a new position, and a recursive
scan over the table, which is in stacking order, shifts everything below it. The scan carries
fuel for its depth. The damage it reports is left out.
-/

namespace RosKernel.Compositor

open List Relation

structure Rect where
  x : BitVec 32
  y : BitVec 32
  width : BitVec 32
  height : BitVec 32

/-- `Window`, as far as its place depends on it. -/
structure Window where
  /-- `static_cast<unsigned long>(window->id)`. -/
  id : ℕ
  parentId : ℕ
  frame : Rect
  surfaceFrame : Rect
  clientOffsetX : BitVec 32
  clientOffsetY : BitVec 32
  inset : surfaceFrame.x = frame.x + clientOffsetX ∧ surfaceFrame.y = frame.y + clientOffsetY

def dialogBorderThickness : BitVec 32 := 4

def dialogTitleHeight : BitVec 32 := 28

def computeDecoratedSurfaceFrame (outer : Rect) : Rect where
  x := outer.x + dialogBorderThickness
  y := outer.y + dialogTitleHeight
  width := if dialogBorderThickness * 2 < outer.width then outer.width - dialogBorderThickness * 2
    else 1
  height := if dialogTitleHeight + dialogBorderThickness < outer.height then
    outer.height - dialogTitleHeight - dialogBorderThickness else 1

/-- A window that is created or resized: the end of `gwes_compute_window_layout`. -/
def Window.layout (id parentId : ℕ) (frame : Rect) (decorated : Bool) : Window :=
  if decorated then ⟨id, parentId, frame, computeDecoratedSurfaceFrame frame,
    dialogBorderThickness, dialogTitleHeight, rfl, rfl⟩
  else ⟨id, parentId, frame, frame, 0, 0, by simp⟩

/-- `static_cast<U32>(static_cast<long>(coordinate) + delta)`. -/
def translate (coordinate : BitVec 32) (delta : ℤ) : BitVec 32 :=
  BitVec.ofInt 32 (coordinate.toNat + delta)

theorem translate_eq (coordinate : BitVec 32) (delta : ℤ) :
    translate coordinate delta = coordinate + BitVec.ofInt 32 delta := by
  simp [translate, BitVec.ofInt_add]

/-- A rectangle at another place. -/
def Rect.shift (rect : Rect) (deltaX deltaY : ℤ) : Rect :=
  { rect with x := translate rect.x deltaX, y := translate rect.y deltaY }

/-- The statements of `gwes_shift_descendants` for one window. -/
def Window.shift (window : Window) (deltaX deltaY : ℤ) : Window :=
  { window with
    frame := window.frame.shift deltaX deltaY
    surfaceFrame := window.surfaceFrame.shift deltaX deltaY
    inset := by
      simp only [Rect.shift, translate_eq, window.inset, BitVec.add_assoc]
      simp only [BitVec.add_comm, and_self] }

/-- `static_cast<U32>(gwes_clamp_non_negative(value))`. -/
def clampNonNegative (value : ℤ) : BitVec 32 := BitVec.ofInt 32 (if value < 0 then 0 else value)

/-- The statements of `gwes_render_move_window` for the window itself. -/
def Window.moveTo (window : Window) (x y : ℤ) : Window :=
  { window with
    frame := { window.frame with x := clampNonNegative x, y := clampNonNegative y }
    surfaceFrame := { window.surfaceFrame with
      x := clampNonNegative x + window.clientOffsetX
      y := clampNonNegative y + window.clientOffsetY }
    inset := ⟨rfl, rfl⟩ }

/-- One turn of the loop in `gwes_shift_descendants`, given the recursive call. -/
def shiftTurn (deltaX deltaY : ℤ) (recurse : List Window → ℕ → Option (List Window)) (parent : ℕ)
    (windows : List Window) (index : ℕ) : Option (List Window) :=
  match windows[index]? with
  | none => some windows
  | some window =>
    if window.parentId ≠ parent then some windows
    else recurse (windows.set index (window.shift deltaX deltaY)) window.id

def shiftDescendants (deltaX deltaY : ℤ) : (fuel : ℕ) → List Window → ℕ → Option (List Window)
  | 0, _, _ => none
  | fuel + 1, windows, parent =>
    (List.range windows.length).foldlM
      (shiftTurn deltaX deltaY (shiftDescendants deltaX deltaY fuel) parent) windows

/-- `gwes_render_move_window`, with the status it returns. -/
def renderMoveWindow (fuel : ℕ) (windows : List Window) (hwnd : ℕ) (x y : ℤ) :
    Option (ℤ × List Window) :=
  match windows.find? (·.id = hwnd) with
  | none => some (-1, windows)
  | some old =>
    let deltaX : ℤ := (clampNonNegative x).toNat - old.frame.x.toNat
    let deltaY : ℤ := (clampNonNegative y).toNat - old.frame.y.toNat
    let windows := windows.set (windows.findIdx (·.id = hwnd)) (old.moveTo x y)
    if deltaX ≠ 0 ∨ deltaY ≠ 0 then
      (shiftDescendants deltaX deltaY fuel windows hwnd).map fun windows => (0, windows)
    else
      some (0, windows)

/-- A window of the table is the child of another. -/
def Parent (windows : List Window) (parent child : ℕ) : Prop :=
  ∃ window ∈ windows, window.id = child ∧ window.parentId = parent

/-- The descendants of a window. -/
def below (windows : List Window) (id : ℕ) : Set ℕ := {other | TransGen (Parent windows) id other}

/-- A window and its descendants. -/
def subtree (windows : List Window) (id : ℕ) : Set ℕ :=
  {other | ReflTransGen (Parent windows) id other}

/-- Windows have different handles, and none is below itself. -/
structure Forest (windows : List Window) : Prop where
  distinct : (windows.map Window.id).Nodup
  acyclic : ∀ id, id ∉ below windows id

variable {windows : List Window} {deltaX deltaY : ℤ} {parent : ℕ}

/-- Moving a window is a shift. -/
theorem Window.moveTo_eq_shift (window : Window) (x y : ℤ) :
    window.moveTo x y = window.shift ((clampNonNegative x).toNat - window.frame.x.toNat)
      ((clampNonNegative y).toNat - window.frame.y.toNat) := by
  have reaches (old new : BitVec 32) : translate old (new.toNat - old.toNat) = new := by
    rw [translate, add_sub_cancel]
    simp
  have follows (old offset new : BitVec 32) :
      translate (old + offset) (new.toNat - old.toNat) = new + offset := by
    rw [translate_eq, add_right_comm, ← translate_eq, reaches]
  simp only [moveTo, shift, Rect.shift, window.inset, reaches, follows]

theorem subtree_eq (windows : List Window) (id : ℕ) :
    subtree windows id = {id} ∪ below windows id := by
  ext other
  exact reflTransGen_iff_eq_or_transGen

theorem below_subset : below windows parent ⊆ (windows.map Window.id).toFinset := by
  intro id inside
  obtain ⟨_, -, window, mem, rfl, -⟩ := TransGen.tail'_iff.mp inside
  simpa using ⟨window, mem, rfl⟩

theorem ncard_below_le : (below windows parent).ncard ≤ windows.length :=
  calc (below windows parent).ncard
    _ ≤ (windows.map Window.id).toFinset.card := by
      rw [← Set.ncard_coe_finset]
      exact Set.ncard_le_ncard below_subset
    _ ≤ windows.length := by simpa using toFinset_card_le (windows.map Window.id)

section

variable (forest : Forest windows)
include forest

/-- A window has one parent. -/
theorem Forest.parent_unique {first second child : ℕ} (isParent : Parent windows first child)
    (alsoParent : Parent windows second child) : first = second := by
  obtain ⟨window, mem, rfl, rfl⟩ := isParent
  obtain ⟨other, otherMem, same, rfl⟩ := alsoParent
  rw [inj_on_of_nodup_map forest.distinct otherMem mem same]

/-- No window is in the subtrees of two children of one parent. -/
theorem Forest.siblings_apart {first second id : ℕ} (isChild : Parent windows parent first)
    (alsoChild : Parent windows parent second) (inside : id ∈ subtree windows first)
    (alsoInside : id ∈ subtree windows second) : first = second := by
  have apart {left right : ℕ} (leftChild : Parent windows parent left)
      (rightChild : Parent windows parent right)
      (under : ReflTransGen (Parent windows) left right) : left = right := by
    rcases reflTransGen_iff_eq_or_transGen.mp under with same | strict
    · exact same.symm
    · obtain ⟨above, reaches, isParent⟩ := TransGen.tail'_iff.mp strict
      rw [forest.parent_unique isParent rightChild] at reaches
      exact absurd (TransGen.head' leftChild reaches) (forest.acyclic parent)
  have unique : Relator.RightUnique (Function.swap (Parent windows)) :=
    fun _ _ _ one other => forest.parent_unique one other
  rcases ReflTransGen.total_of_right_unique unique (reflTransGen_swap.mpr inside)
    (reflTransGen_swap.mpr alsoInside) with under | under
  · exact (apart alsoChild isChild (reflTransGen_swap.mp under)).symm
  · exact apart isChild alsoChild (reflTransGen_swap.mp under)

/-- A child has fewer descendants than its parent. -/
theorem Forest.ncard_below_lt {child : ℕ} (isChild : Parent windows parent child) :
    (below windows child).ncard < (below windows parent).ncard := by
  refine Set.ncard_lt_ncard ⟨fun _ inside => .head isChild inside, fun within => ?_⟩
    (Finset.finite_toSet _ |>.subset below_subset)
  exact forest.acyclic child (within (.single isChild))

open scoped Classical in
omit forest in
/-- The table in which the windows with some handles are shifted. -/
noncomputable def shifted (deltaX deltaY : ℤ) (windows : List Window) (handles : Set ℕ) :
    List Window :=
  windows.map fun window => if window.id ∈ handles then window.shift deltaX deltaY else window

variable {handles : Set ℕ} {index fuel : ℕ} {window : Window}

/-- Shifting one more window. -/
theorem Forest.set_shifted (found : windows[index]? = some window) :
    (shifted deltaX deltaY windows handles).set index (window.shift deltaX deltaY) =
      shifted deltaX deltaY windows (handles ∪ {window.id}) := by
  have bound : index < windows.length := (List.getElem?_eq_some_iff.mp found).1
  apply ext_getElem?
  intro other
  simp only [shifted, getElem?_set, getElem?_map, length_map]
  split
  · rename_i same
    subst same
    simp [found]
  · rename_i ne
    cases otherFound : windows[other]? with
    | none => rfl
    | some otherWindow =>
      have differs : otherWindow.id ≠ window.id := by
        intro same
        refine ne ((List.getElem?_inj (by simpa using bound) forest.distinct).mp ?_)
        simp [found, otherFound, same]
      by_cases inside : otherWindow.id ∈ handles <;> simp [inside, differs]

/-- The subtrees of the children of a window before an index. -/
def subtreesBefore (windows : List Window) (parent index : ℕ) : Set ℕ :=
  {id | ∃ child ∈ windows.take index, child.parentId = parent ∧ id ∈ subtree windows child.id}

/-- One turn shifts the subtree of the window at the index if it is a child. -/
theorem Forest.shiftTurn {recurse : List Window → ℕ → Option (List Window)}
    (recursive : ∀ child handles, Parent windows parent child →
      Disjoint (below windows child) handles →
      recurse (shifted deltaX deltaY windows handles) child =
        some (shifted deltaX deltaY windows (handles ∪ below windows child)))
    (untouched : Disjoint (below windows parent) handles) (within : index < windows.length) :
    shiftTurn deltaX deltaY recurse parent
        (shifted deltaX deltaY windows (handles ∪ subtreesBefore windows parent index)) index =
      some (shifted deltaX deltaY windows
        (handles ∪ subtreesBefore windows parent (index + 1))) := by
  obtain ⟨window, found⟩ : ∃ window, windows[index]? = some window :=
    ⟨_, getElem?_eq_getElem within⟩
  have grown : subtreesBefore windows parent (index + 1) = subtreesBefore windows parent index ∪
      {id | window.parentId = parent ∧ id ∈ subtree windows window.id} := by
    ext id
    simp [subtreesBefore, take_add_one, found, or_and_right, exists_or]
  unfold Compositor.shiftTurn
  rw [show (shifted deltaX deltaY windows _)[index]? = _ from getElem?_map .., found,
    Option.map_some]
  by_cases isChild : window.parentId = parent
  · have child : Parent windows parent window.id := ⟨window, mem_of_getElem? found, rfl, isChild⟩
    have fresh : ∀ id ∈ subtree windows window.id,
        id ∉ handles ∪ subtreesBefore windows parent index := by
      rintro id inside (touched | ⟨earlier, listed, isSibling, alsoInside⟩)
      · exact Set.disjoint_left.mp untouched (TransGen.head' child inside) touched
      · have same := forest.siblings_apart child
          ⟨earlier, mem_of_mem_take listed, rfl, isSibling⟩ inside alsoInside
        have before : window.id ∈ (windows.map Window.id).take index := by
          rw [same, ← map_take]
          exact mem_map_of_mem listed
        have behind : window.id ∈ (windows.map Window.id).drop index :=
          mem_of_getElem? (i := 0) (by simp [found])
        exact disjoint_take_drop forest.distinct (Nat.le_refl _) before behind
    rw [if_neg (fresh _ .refl)]
    dsimp only
    rw [if_neg (not_not.mpr isChild), forest.set_shifted found, recursive _ _ child, grown]
    · simp only [isChild, true_and]
      rw [show {id | id ∈ subtree windows window.id} = _ from subtree_eq windows window.id]
      simp only [Set.union_assoc]
    · refine Set.disjoint_left.mpr ?_
      rintro id inside (touched | rfl)
      · exact fresh id inside.to_reflTransGen touched
      · exact forest.acyclic _ inside
  · rw [grown]
    simp only [isChild, false_and, Set.ofPred_false, Set.union_empty]
    refine if_pos ?_
    split <;> exact isChild

/-- The recursive scan shifts what is below a window, each once. -/
theorem Forest.shiftDescendants (untouched : Disjoint (below windows parent) handles)
    (enough : (below windows parent).ncard < fuel) :
    shiftDescendants deltaX deltaY fuel (shifted deltaX deltaY windows handles) parent =
      some (shifted deltaX deltaY windows (handles ∪ below windows parent)) := by
  induction fuel generalizing parent handles with
  | zero => omega
  | succ fuel ih =>
    have loop : ∀ count ≤ windows.length, (List.range count).foldlM
        (Compositor.shiftTurn deltaX deltaY (Compositor.shiftDescendants deltaX deltaY fuel) parent)
        (shifted deltaX deltaY windows handles) =
          some (shifted deltaX deltaY windows (handles ∪ subtreesBefore windows parent count)) := by
      intro count within
      induction count with
      | zero => simp [subtreesBefore]
      | succ count earlier =>
        rw [range_succ, foldlM_append, earlier (Nat.le_of_lt within)]
        change (Compositor.shiftTurn .. >>= pure) = _
        rw [bind_pure]
        refine forest.shiftTurn (fun child _ isChild apart => ?_) untouched within
        have fewer := forest.ncard_below_lt isChild
        exact ih apart (by omega)
    have all : subtreesBefore windows parent windows.length = below windows parent := by
      ext id
      refine Iff.trans ?_ TransGen.head'_iff.symm
      simp only [subtreesBefore, take_length]
      constructor
      · rintro ⟨child, mem, isChild, inside⟩
        exact ⟨_, ⟨child, mem, rfl, isChild⟩, inside⟩
      · rintro ⟨_, ⟨child, mem, rfl, isChild⟩, inside⟩
        exact ⟨child, mem, isChild, inside⟩
    have same : (shifted deltaX deltaY windows handles).length = windows.length := length_map _
    rw [Compositor.shiftDescendants, same, ← all]
    exact loop _ (Nat.le_refl _)

end

/-- The window and all its descendants move by one vector, each once, and no other window moves. -/
theorem renderMoveWindow_shiftsSubtree (forest : Forest windows) {hwnd fuel : ℕ} {old : Window}
    (found : windows.find? (·.id = hwnd) = some old) (x y : ℤ) (enough : windows.length < fuel) :
    renderMoveWindow fuel windows hwnd x y = some (0,
      shifted ((clampNonNegative x).toNat - old.frame.x.toNat)
        ((clampNonNegative y).toNat - old.frame.y.toNat) windows (subtree windows hwnd)) := by
  have place : windows[windows.findIdx (·.id = hwnd)]? = some old :=
    find?_eq_getElem?_findIdx.symm.trans found
  obtain rfl : old.id = hwnd := by simpa using List.find?_some found
  unfold renderMoveWindow
  rw [found]
  dsimp only
  rw [Window.moveTo_eq_shift]
  generalize ((clampNonNegative x).toNat - old.frame.x.toNat : ℤ) = deltaX
  generalize ((clampNonNegative y).toNat - old.frame.y.toNat : ℤ) = deltaY
  have moved := @Forest.set_shifted _ deltaX deltaY forest ∅ _ _ place
  rw [Set.empty_union, show shifted deltaX deltaY windows ∅ = windows by simp [shifted]] at moved
  rw [moved]
  split
  · rw [forest.shiftDescendants, subtree_eq]
    · rfl
    · exact Set.disjoint_singleton_right.mpr (forest.acyclic _)
    · exact ncard_below_le.trans_lt enough
  · rename_i still
    obtain ⟨rfl, rfl⟩ : deltaX = 0 ∧ deltaY = 0 := by simpa using still
    simp [shifted, Window.shift, Rect.shift, translate]

/-- A decorated window at the origin. -/
def atOrigin (id parentId : ℕ) : Window := .layout id parentId ⟨0, 0, 104, 80⟩ true

/-- A window moves with a child above it and a grandchild below it in the stack. -/
theorem renderMoveWindow_shiftsSubtree_three :
    let windows := [atOrigin 3 2, atOrigin 1 0, atOrigin 2 1]
    renderMoveWindow 4 windows 1 5 9 = some (0, shifted 5 9 windows (subtree windows 1)) := by
  intro windows
  have ordered {first second : ℕ} (isParent : Parent windows first second) : first < second := by
    obtain ⟨window, mem, rfl, rfl⟩ := isParent
    revert window
    decide
  have rising {first second : ℕ} (path : TransGen (Parent windows) first second) :
      first < second := by
    induction path with
    | single isParent => exact ordered isParent
    | tail _ isParent above => exact above.trans (ordered isParent)
  have forest : Forest windows := ⟨by decide, fun _ path => Nat.lt_irrefl _ (rising path)⟩
  have found : windows.find? (·.id = 1) = some (atOrigin 1 0) := rfl
  exact renderMoveWindow_shiftsSubtree forest found 5 9 (by decide)

end RosKernel.Compositor
