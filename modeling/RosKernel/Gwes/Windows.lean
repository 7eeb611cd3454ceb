import RosKernel.Library.Runs
import Mathlib.Data.List.Nodup
import Mathlib.Data.List.Perm.Basic
import Mathlib.Data.List.TakeWhile
import Mathlib.Order.Basic

/-!
# Window ancestry and stacking in GWES

The windows of the window server in stacking order, which is the order of the compositor's
records in `window.cpp`, and what changes them: the requests of `message_router.cpp`, the popups
of menus and the release of clients that quit, died or could not be reached. The loops that
follow parent links carry fuel; without an answer they go on for ever, and with them the server.
-/

namespace RosKernel
namespace Gwes

open List

/-- `GwesWindowRecord`, as far as ancestry and stacking depend on it. -/
structure Window where
  hwnd : ℕ
  ownerPid : ℕ
  /-- The parent that the client named, 0 for none. -/
  parent : ℕ
  /-- `ROS_WINDOW_STYLE_TOPMOST`. -/
  topmost : Bool
  deriving DecidableEq

/-- The state of the server. -/
structure Desktop where
  /-- From the bottom of the stack to its top. -/
  windows : List Window
  nextHwnd : ℕ

/-- `gwes_find_window_any` and `gwes_find_window_record`. -/
def findWindow (windows : List Window) (hwnd : ℕ) : Option Window :=
  windows.find? (·.hwnd = hwnd)

/-- The loops that go from window to parent: they stop early, at a window without parent, or
with a given answer at a parent that is not there. -/
def climb {α : Type} (windows : List Window) (stop : α → Bool) (step : α → Window → α)
    (lost : α) : (fuel parent : ℕ) → α → Option α
  | 0, _, _ => none
  | fuel + 1, parent, found =>
    if stop found = true ∨ parent = 0 then
      some found
    else
      match findWindow windows parent with
      | none => some lost
      | some window => climb windows stop step lost fuel window.parent (step found window)

def findRootWindow (windows : List Window) (fuel : ℕ) (window : Window) : Option (Option Window) :=
  climb windows (fun _ => false) (fun _ parent => some parent) none fuel window.parent (some window)

/-- `gwes_clip_to_ancestors`, for any kind of rectangle. -/
def clipToAncestors {Rect : Type} (isEmpty : Rect → Bool) (clip : Rect → Window → Rect)
    (empty : Rect) (windows : List Window) (fuel : ℕ) (window : Window) (rect : Rect) :
    Option Rect :=
  climb windows isEmpty clip empty fuel window.parent rect

def windowBelongsToSubtree (windows : List Window) (fuel : ℕ) (window : Window) (ancestor : ℕ) :
    Option Bool :=
  let isAncestor := fun parent : ℕ => decide (parent ≠ 0 ∧ parent = ancestor)
  if window.hwnd = ancestor then
    some true
  else
    climb windows id (fun _ parent => isAncestor parent.parent) false fuel window.parent
      (isAncestor window.parent)

/-- `gwes_shift_descendants`: the windows that are shifted. -/
def shiftDescendants (windows : List Window) : (fuel parent : ℕ) → Option (List Window)
  | 0, _ => none
  | fuel + 1, parent =>
    let children := windows.filter (·.parent = parent)
    if children.all fun child => (shiftDescendants windows fuel child.hwnd).isSome then
      some (children.flatMap fun child =>
        child :: (shiftDescendants windows fuel child.hwnd).getD [])
    else
      none

/-! ## Requests -/

/-- `gwes_reorder_topmost_windows`, given memory. -/
def reorderTopmostWindows (windows : List Window) : List Window :=
  windows.filter (!·.topmost) ++ windows.filter (·.topmost)

/-- `gwes_remove_window_at`: the last record takes the place of the removed one. -/
def removeWindowAt (windows : List Window) (index : ℕ) : List Window :=
  match windows.getLast? with
  | none => windows
  | some last => (windows.set index last).dropLast

/-- `gwes_render_raise_window`, given memory. -/
def renderRaiseWindow (desktop : Desktop) (hwnd : ℕ) : Option Desktop :=
  let inside := fun window => windowBelongsToSubtree desktop.windows desktop.nextHwnd window hwnd
  if findWindow desktop.windows hwnd = none then
    some desktop
  else if desktop.windows.all fun window => (inside window).isSome then
    some { desktop with
      windows := reorderTopmostWindows (desktop.windows.filter (inside · != some true) ++
        desktop.windows.filter (inside · == some true)) }
  else
    none

/-- What changes the windows or looks through them. -/
inductive Action
  /-- `rendered`: the compositor has room and a surface. `focused`: the style is visible and
  not system UI, or the window is a menu popup. -/
  | create (pid parent : ℕ) (child topmost focused rendered : Bool)
  | destroy (pid hwnd : ℕ)
  /-- `gwes_menu_close_popups_from`, for the popups in the order they are closed. -/
  | closePopups (popups : List ℕ)
  /-- `gwes_release_client_objects`, after a quit packet, a failed delivery of a message to the
  client or its death. -/
  | release (pid : ℕ)
  | bounds (hwnd : ℕ)
  | foreground (hwnd : ℕ)

/-- `gwes_handle_create_window`. Only a child window has its parent looked up. -/
def createWindow (desktop : Desktop) (pid parent : ℕ) (child topmost focused rendered : Bool) :
    Option Desktop :=
  let grown := { desktop with nextHwnd := desktop.nextHwnd + 1 }
  if rendered = false ∨ (child = true ∧ findWindow desktop.windows parent = none) then
    some grown
  else
    let added := { grown with
      windows := reorderTopmostWindows (desktop.windows ++ [⟨desktop.nextHwnd, pid, parent,
          topmost⟩]) }
    -- the regrouping that follows finds the windows grouped
    if parent = 0 ∧ focused = true then renderRaiseWindow added desktop.nextHwnd else some added

/-- `gwes_release_window_record` of a window the compositor shows. -/
def releaseWindowRecord (windows : List Window) (hwnd : ℕ) : List Window :=
  match windows.findIdx? fun window => window.hwnd = hwnd with
  | none => windows
  | some index => removeWindowAt windows index

/-- `gwes_handle_destroy_window`. -/
def destroyWindow (desktop : Desktop) (pid hwnd : ℕ) : Desktop :=
  if desktop.windows.any fun window => window.ownerPid = pid && window.hwnd = hwnd then
    { desktop with windows := reorderTopmostWindows (releaseWindowRecord desktop.windows hwnd) }
  else
    desktop

/-- The windows of a client in the order of the registry, the youngest first. -/
def clientWindows (desktop : Desktop) (pid : ℕ) : List ℕ :=
  (range desktop.nextHwnd).reverse.filter fun hwnd =>
    desktop.windows.any fun window => window.ownerPid = pid && window.hwnd = hwnd

/-- `gwes_release_client_objects`. Nothing regroups the windows that are left. -/
def releaseClientObjects (desktop : Desktop) (pid : ℕ) : Desktop :=
  { desktop with
    windows := (clientWindows desktop pid).foldl releaseWindowRecord desktop.windows }

def applyForegroundWindow (desktop : Desktop) (hwnd : ℕ) : Option Desktop :=
  match findWindow desktop.windows hwnd with
  | none => some desktop
  | some target =>
    match findRootWindow desktop.windows desktop.nextHwnd target with
    | none => none
    | some none => some desktop
    | some (some root) => renderRaiseWindow desktop root.hwnd

/-- The handling of one request; `none` when it does not come to an end. -/
def perform (desktop : Desktop) : Action → Option Desktop
  | .create pid parent child topmost focused rendered =>
    createWindow desktop pid parent child topmost focused rendered
  | .destroy pid hwnd => some (destroyWindow desktop pid hwnd)
  | .closePopups popups => some { desktop with
      windows := reorderTopmostWindows (popups.foldl releaseWindowRecord desktop.windows) }
  | .release pid => some (releaseClientObjects desktop pid)
  | .bounds hwnd =>
    (shiftDescendants desktop.windows (desktop.nextHwnd + 1) hwnd).map fun _ => desktop
  | .foreground hwnd => applyForegroundWindow desktop hwnd

namespace Action

/-- The windows that an action takes away. -/
def takes : Action → Window → Bool
  | .destroy pid hwnd, window => window.ownerPid = pid && window.hwnd = hwnd
  | .closePopups popups, window => popups.contains window.hwnd
  | .release pid, window => window.ownerPid = pid
  | _, _ => false

/-- Whether an action does nothing but take windows away. -/
def removes : Action → Bool
  | .destroy _ _ | .closePopups _ | .release _ => true
  | _ => false

end Action

/-- The server before the first request. -/
def Initial (desktop : Desktop) : Prop :=
  desktop = ⟨[], 1⟩

abbrev Reachable := Runs.Reachable Initial perform

/-! ## Grouping and raising -/

variable {desktop next : Desktop} {windows : List Window} {window : Window} {hwnd parent fuel : ℕ}

theorem reorderTopmostWindows_perm (windows : List Window) :
    (reorderTopmostWindows windows).Perm windows :=
  perm_append_comm.trans (filter_append_perm _ windows)

/-- Every topmost window is above every other window. -/
def Layered (windows : List Window) : Prop :=
  windows.Pairwise fun below above => below.topmost = true → above.topmost = true

theorem layered_reorderTopmostWindows (windows : List Window) :
    Layered (reorderTopmostWindows windows) := by
  have low : ∀ window ∈ windows.filter (!·.topmost), window.topmost ≠ true := by simp
  have high : ∀ window ∈ windows.filter (·.topmost), window.topmost = true := by simp
  refine pairwise_append.mpr ⟨?_, ?_, fun _ _ above mem _ => high above mem⟩
  · exact List.Pairwise.imp_of_mem (fun mem _ _ isTop => absurd isTop (low _ mem))
      (pairwise_of_forall fun _ _ => trivial)
  · exact List.Pairwise.imp_of_mem (fun _ mem _ _ => high _ mem)
      (pairwise_of_forall fun _ _ => trivial)

theorem renderRaiseWindow_spec (raised : renderRaiseWindow desktop hwnd = some next) :
    next.windows.Perm desktop.windows ∧ next.nextHwnd = desktop.nextHwnd ∧
      (Layered desktop.windows → Layered next.windows) := by
  unfold renderRaiseWindow at raised
  dsimp only at raised
  split at raised
  · cases raised
    exact ⟨.refl _, rfl, id⟩
  split at raised
  · cases raised
    refine ⟨(reorderTopmostWindows_perm _).trans ?_, rfl, fun _ => layered_reorderTopmostWindows _⟩
    exact perm_append_comm.trans (filter_append_perm _ desktop.windows)
  · cases raised

/-! ## Removing -/

/-- The first window goes, and the last one takes its place. -/
theorem releaseWindowRecord_cons (window : Window) (back : List Window) :
    releaseWindowRecord (window :: back) window.hwnd = back.getLast?.toList ++ back.dropLast := by
  have found : (window :: back).findIdx? (·.hwnd = window.hwnd) = some 0 := by
    simp [List.findIdx?_cons]
  rcases eq_nil_or_concat' back with rfl | ⟨middle, last, rfl⟩
  · simp [releaseWindowRecord, removeWindowAt, found]
  · have isLast : (window :: (middle ++ [last])).getLast? = some last := by
      rw [← cons_append, List.getLast?_concat]
    unfold releaseWindowRecord
    rw [found]
    simp only [removeWindowAt, isLast, set_cons_zero]
    rw [← cons_append, dropLast_concat, getLast?_concat, dropLast_concat]
    rfl

/-- The windows below the one that goes stay where they are. -/
theorem releaseWindowRecord_append {front : List Window} (rest : List Window)
    (others : ∀ window ∈ front, window.hwnd ≠ hwnd) :
    releaseWindowRecord (front ++ rest) hwnd = front ++ releaseWindowRecord rest hwnd := by
  have missing : front.findIdx? (·.hwnd = hwnd) = none := by simpa using others
  unfold releaseWindowRecord
  rw [List.findIdx?_append, missing, Option.none_or]
  cases found : rest.findIdx? (·.hwnd = hwnd) with
  | none => rfl
  | some index =>
    have nonempty : rest ≠ [] := by
      rintro rfl
      cases found
    simp only [Option.map_some, removeWindowAt, getLast?_append_of_ne_nil front nonempty,
      List.getLast?_eq_some_getLast nonempty]
    rw [set_append_right _ _ (Nat.le_add_left ..), Nat.add_sub_cancel,
      dropLast_append_of_ne_nil (by simpa using nonempty)]

theorem releaseWindowRecord_of_notMem (others : ∀ window ∈ windows, window.hwnd ≠ hwnd) :
    releaseWindowRecord windows hwnd = windows := by
  have kept := releaseWindowRecord_append [] others
  rwa [append_nil, show releaseWindowRecord [] hwnd = [] from rfl, append_nil] at kept

/-- A window of the stack, with the windows below and above it. -/
theorem exists_split (distinct : (windows.map Window.hwnd).Nodup) (mem : window ∈ windows) :
    ∃ front back, windows = front ++ window :: back ∧
      ∀ other ∈ front ++ back, other.hwnd ≠ window.hwnd := by
  obtain ⟨front, back, rfl⟩ := append_of_mem mem
  rw [map_append, map_cons] at distinct
  have apart := (nodup_cons.mp (perm_middle.nodup_iff.mp distinct)).1
  rw [← map_append] at apart
  exact ⟨front, back, rfl, fun other listed same => apart (same ▸ mem_map_of_mem listed)⟩

/-- Exactly the window of that handle goes. -/
theorem releaseWindowRecord_perm (distinct : (windows.map Window.hwnd).Nodup) (hwnd : ℕ) :
    (releaseWindowRecord windows hwnd).Perm (windows.filter fun window => window.hwnd ≠ hwnd) := by
  by_cases present : ∃ window ∈ windows, window.hwnd = hwnd
  · obtain ⟨window, mem, rfl⟩ := present
    obtain ⟨front, back, rfl, others⟩ := exists_split distinct mem
    obtain ⟨below, above⟩ := forall_mem_append.mp others
    rw [releaseWindowRecord_append _ below, releaseWindowRecord_cons, filter_append,
      filter_cons_of_neg (by simp), filter_eq_self.mpr (by simpa using below),
      filter_eq_self.mpr (by simpa using above)]
    refine .append_left front ?_
    rcases eq_nil_or_concat' back with rfl | ⟨middle, last, rfl⟩
    · exact .refl _
    · simpa using (perm_append_singleton last middle).symm
  · have others : ∀ window ∈ windows, window.hwnd ≠ hwnd :=
      fun window mem same => present ⟨window, mem, same⟩
    rw [releaseWindowRecord_of_notMem others, filter_eq_self.mpr (by simpa using others)]

section

variable {handles : List ℕ} {takes : Window → Bool}

/-- One window after the other goes. -/
theorem foldl_releaseWindowRecord_perm (distinct : (windows.map Window.hwnd).Nodup)
    (named : ∀ window ∈ windows, window.hwnd ∈ handles ↔ takes window = true) :
    (handles.foldl releaseWindowRecord windows).Perm (windows.filter (!takes ·)) := by
  have listed : windows.filter (!takes ·) = windows.filter fun window => window.hwnd ∉ handles :=
    filter_congr fun window mem => by simp [named window mem]
  rw [listed]
  clear named listed
  induction handles generalizing windows with
  | nil => simp
  | cons hwnd rest ih =>
    have gone := releaseWindowRecord_perm distinct hwnd
    have left := (gone.map Window.hwnd).nodup_iff.mpr (distinct.sublist (filter_sublist.map _))
    refine (ih left).trans ((gone.filter _).trans (.of_eq ?_))
    rw [filter_filter]
    exact filter_congr fun window _ => by simp [Bool.and_comm]

/-- Windows that go from the top of the stack, but for one that stays, leave the others in
their order. -/
theorem foldl_releaseWindowRecord_eq (distinct : (windows.map Window.hwnd).Nodup)
    (named : ∀ window ∈ windows, window.hwnd ∈ handles ↔ takes window = true)
    (top : ((windows.dropWhile (!takes ·)).filter (!takes ·)).length ≤ 1) :
    handles.foldl releaseWindowRecord windows = windows.filter (!takes ·) := by
  have below : ∀ front rest, (∀ window ∈ front, window.hwnd ∉ handles) →
      handles.foldl releaseWindowRecord (front ++ rest) =
        front ++ handles.foldl releaseWindowRecord rest := by
    clear named
    induction handles with
    | nil => exact fun _ _ _ => rfl
    | cons hwnd later ih =>
      intro front rest others
      rw [foldl_cons, foldl_cons, releaseWindowRecord_append rest fun window mem same =>
        others window mem (same ▸ .head _)]
      exact ih _ _ fun window mem taken => others window mem (.tail _ taken)
  have split := takeWhile_append_dropWhile (p := (!takes ·)) (l := windows)
  have stays : ∀ window ∈ windows.takeWhile (!takes ·), (!takes window) = true :=
    fun window mem => mem_takeWhile_imp (p := (!takes ·)) mem
  have sublist : (windows.dropWhile (!takes ·)).Sublist windows := dropWhile_sublist _
  have upper := foldl_releaseWindowRecord_perm (distinct.sublist (sublist.map _))
    fun window mem => named window (sublist.subset mem)
  rw [← split, below, filter_append, filter_eq_self.mpr stays]
  · congr 1
    generalize (windows.dropWhile (!takes ·)).filter (!takes ·) = left at top upper
    match left, top with
    | [], _ => exact upper.eq_nil
    | [_], _ => exact perm_singleton.mp upper
  · intro window mem taken
    have goes := (named window ((takeWhile_sublist _).subset mem)).mp taken
    simpa [goes] using stays window mem

end

/-! ## Handles -/

/-- Windows have different handles, and none has a parent that is younger. -/
structure Ranked (desktop : Desktop) : Prop where
  distinct : (desktop.windows.map Window.hwnd).Nodup
  started : 0 < desktop.nextHwnd
  bounds : ∀ window ∈ desktop.windows, window.hwnd < desktop.nextHwnd
  older : ∀ window ∈ desktop.windows, window.parent < window.hwnd

/-- What one action does to the windows. -/
inductive Change (desktop next : Desktop) : Action → Prop
  | kept {action : Action} : next.windows.Perm (desktop.windows.filter (!action.takes ·)) →
      next.nextHwnd = desktop.nextHwnd → Change desktop next action
  | refused {pid parent : ℕ} {child topmost focused rendered : Bool} :
      next = { desktop with nextHwnd := desktop.nextHwnd + 1 } →
      Change desktop next (.create pid parent child topmost focused rendered)
  | added {pid parent : ℕ} {child topmost focused rendered : Bool} :
      next.windows.Perm (⟨desktop.nextHwnd, pid, parent, topmost⟩ :: desktop.windows) →
      next.nextHwnd = desktop.nextHwnd + 1 →
      (child = true → ∃ window ∈ desktop.windows, window.hwnd = parent) →
      Change desktop next (.create pid parent child topmost focused rendered)

theorem findWindow_eq (found : findWindow windows hwnd = some window) :
    window ∈ windows ∧ window.hwnd = hwnd :=
  ⟨mem_of_find?_eq_some found, by simpa using List.find?_some found⟩

variable {action : Action}

/-- An action that takes no window away. -/
theorem Change.of_perm (same : next.windows.Perm desktop.windows)
    (handles : next.nextHwnd = desktop.nextHwnd) (none : ∀ window, action.takes window = false) :
    Change desktop next action := by
  refine .kept (same.trans (.of_eq (filter_eq_self.mpr fun window _ => ?_).symm)) handles
  rw [none, Bool.not_false]

theorem filter_not_eq_self {takes : Window → Bool} (missing : ¬windows.any takes = true) :
    windows.filter (!takes ·) = windows :=
  filter_eq_self.mpr fun window mem => by
    rw [Bool.not_eq_true', Bool.eq_false_iff]
    exact fun taken => missing (any_eq_true.mpr ⟨window, mem, taken⟩)

/-- The registry lists exactly the windows of the client. -/
theorem Ranked.mem_clientWindows (ranked : Ranked desktop) {pid : ℕ}
    (mem : window ∈ desktop.windows) :
    window.hwnd ∈ clientWindows desktop pid ↔ (Action.release pid).takes window = true := by
  simp only [clientWindows, mem_filter, mem_reverse, mem_range, any_eq_true, Bool.and_eq_true,
    decide_eq_true_eq, Action.takes]
  constructor
  · rintro ⟨-, other, listed, isOwner, same⟩
    obtain rfl := inj_on_of_nodup_map ranked.distinct listed mem same
    exact isOwner
  · exact fun isOwner => ⟨ranked.bounds window mem, window, mem, isOwner, rfl⟩

theorem perform_change (ranked : Ranked desktop) (performed : perform desktop action = some next) :
    Change desktop next action := by
  cases action with
  | create pid parent child topmost =>
    simp only [perform, createWindow] at performed
    split at performed
    · cases performed
      exact .refused rfl
    rename_i found
    have live (isChild : child = true) : ∃ window ∈ desktop.windows, window.hwnd = parent := by
      obtain ⟨window, isParent⟩ :=
        Option.ne_none_iff_exists'.mp fun none => found (.inr ⟨isChild, none⟩)
      exact ⟨window, findWindow_eq isParent⟩
    have grouped := (reorderTopmostWindows_perm (desktop.windows ++
      [⟨desktop.nextHwnd, pid, parent, topmost⟩])).trans (perm_append_singleton _ _)
    split at performed
    · obtain ⟨same, handles, _⟩ := renderRaiseWindow_spec performed
      exact .added (same.trans grouped) handles live
    · cases performed
      exact .added grouped rfl live
  | destroy pid hwnd =>
    cases performed
    unfold destroyWindow
    split
    · rename_i found
      obtain ⟨window, mem, isWindow⟩ := any_eq_true.mp found
      simp only [Bool.and_eq_true, decide_eq_true_eq] at isWindow
      obtain ⟨rfl, rfl⟩ := isWindow
      refine .kept ((reorderTopmostWindows_perm _).trans
        ((releaseWindowRecord_perm ranked.distinct _).trans (.of_eq ?_))) rfl
      refine filter_congr fun other listed => ?_
      by_cases same : other.hwnd = window.hwnd
      · obtain rfl := inj_on_of_nodup_map ranked.distinct listed mem same
        simp [Action.takes]
      · simp [Action.takes, same]
    · rename_i missing
      exact .kept (.of_eq (filter_not_eq_self missing).symm) rfl
  | closePopups popups =>
    cases performed
    refine .kept ((reorderTopmostWindows_perm _).trans
      (foldl_releaseWindowRecord_perm ranked.distinct fun window _ => ?_)) rfl
    simp [Action.takes]
  | release pid =>
    cases performed
    exact .kept (foldl_releaseWindowRecord_perm ranked.distinct fun window mem =>
      ranked.mem_clientWindows mem) rfl
  | bounds =>
    obtain ⟨_, _, rfl⟩ := Option.map_eq_some_iff.mp performed
    exact .of_perm (.refl _) rfl fun _ => rfl
  | foreground =>
    simp only [perform, applyForegroundWindow] at performed
    split at performed
    · cases performed
      exact .of_perm (.refl _) rfl fun _ => rfl
    split at performed
    · cases performed
    · cases performed
      exact .of_perm (.refl _) rfl fun _ => rfl
    · obtain ⟨same, handles, _⟩ := renderRaiseWindow_spec performed
      exact .of_perm same handles fun _ => rfl

/-- A window that is created without the child style names no parent that is to come. -/
def NamesOlder (desktop : Desktop) : Action → Prop
  | .create _ parent child _ _ _ => child = true ∨ parent < desktop.nextHwnd
  | _ => True

theorem Ranked.change (ranked : Ranked desktop)
    (old : NamesOlder desktop action) (change : Change desktop next action) : Ranked next := by
  have grown (window : Window) (mem : window ∈ desktop.windows) :
      window.hwnd < desktop.nextHwnd + 1 := Nat.lt_succ_of_lt (ranked.bounds window mem)
  cases change with
  | kept same handles =>
    have older (window : Window) (mem : window ∈ next.windows) : window ∈ desktop.windows :=
      mem_of_mem_filter (same.subset mem)
    exact ⟨(same.map _).nodup_iff.mpr (ranked.distinct.sublist (filter_sublist.map _)),
      handles ▸ ranked.started, fun window mem => handles ▸ ranked.bounds window
        (older window mem), fun window mem => ranked.older window (older window mem)⟩
  | refused result =>
    subst result
    exact ⟨ranked.distinct, Nat.succ_pos _, grown, ranked.older⟩
  | @added pid parent child topmost focused rendered same handles live =>
    have young : parent < desktop.nextHwnd := by
      refine old.elim (fun isChild => ?_) id
      obtain ⟨window, mem, rfl⟩ := live isChild
      exact ranked.bounds window mem
    refine ⟨(same.map _).nodup_iff.mpr (nodup_cons.mpr ⟨fun taken => ?_, ranked.distinct⟩),
      handles ▸ Nat.succ_pos _, fun window mem => ?_, fun window mem => ?_⟩
    · obtain ⟨window, mem, same⟩ := mem_map.mp taken
      exact absurd same (Nat.ne_of_lt (ranked.bounds window mem))
    · rw [handles]
      rcases mem_cons.mp (same.subset mem) with rfl | older
      · exact Nat.lt_succ_self _
      · exact grown window older
    · rcases mem_cons.mp (same.subset mem) with rfl | older
      · exact young
      · exact ranked.older window older

theorem Ranked.reachable {condition : Desktop → Action → Prop}
    (older : ∀ {desktop action}, Ranked desktop → condition desktop action →
      NamesOlder desktop action) (reachable : Reachable condition desktop) : Ranked desktop := by
  refine Runs.Reachable.invariant reachable ?_ fun _ _ _ ranked met performed =>
    ranked.change (older ranked met) (perform_change ranked performed)
  rintro _ rfl
  exact ⟨nodup_nil, by decide, nofun, nofun⟩

/-! ## The loops come to an end -/

section

variable (ranked : Ranked desktop)
include ranked

theorem Ranked.climb {α : Type} {stop : α → Bool} {step : α → Window → α} {lost : α}
    (below : parent < fuel) (found : α) :
    (climb desktop.windows stop step lost fuel parent found).isSome := by
  induction fuel generalizing parent found with
  | zero => omega
  | succ _ ih =>
    unfold Gwes.climb
    split
    · rfl
    split
    · rfl
    · rename_i window isParent
      obtain ⟨mem, rfl⟩ := findWindow_eq isParent
      have older := ranked.older window mem
      exact ih (by omega) _

theorem Ranked.parent_lt (mem : window ∈ desktop.windows) : window.parent < desktop.nextHwnd :=
  Nat.lt_trans (ranked.older window mem) (ranked.bounds window mem)

theorem Ranked.windowBelongsToSubtree (mem : window ∈ desktop.windows) (ancestor : ℕ) :
    (windowBelongsToSubtree desktop.windows desktop.nextHwnd window ancestor).isSome := by
  unfold Gwes.windowBelongsToSubtree
  split
  · rfl
  · exact ranked.climb (ranked.parent_lt mem) _

theorem Ranked.shiftDescendants
    (enough : desktop.nextHwnd < parent + fuel) (old : parent < desktop.nextHwnd) :
    (shiftDescendants desktop.windows fuel parent).isSome := by
  induction fuel generalizing parent with
  | zero => omega
  | succ _ ih =>
    unfold Gwes.shiftDescendants
    rw [if_pos]
    · rfl
    refine all_eq_true.mpr fun child isChild => ?_
    obtain ⟨mem, isParent⟩ := mem_filter.mp isChild
    have older := ranked.older child mem
    rw [of_decide_eq_true isParent] at older
    exact ih (by omega) (ranked.bounds child mem)

/-! ## The forest of windows -/

/-- Following parent links ends at a window without parent. -/
inductive Rooted (windows : List Window) : Window → Prop
  | root {window : Window} : window.parent = 0 → Rooted windows window
  | up {window parent : Window} : findWindow windows window.parent = some parent →
      Rooted windows parent → Rooted windows window

/-- Every parent is alive. -/
def ParentsLive (windows : List Window) : Prop :=
  ∀ window ∈ windows, window.parent ≠ 0 → ∃ parent ∈ windows, parent.hwnd = window.parent

/-- Window ancestry is a forest, and everything that follows it comes to an end. -/
structure Forest (windows : List Window) : Prop where
  live : ParentsLive windows
  rooted : ∀ window ∈ windows, Rooted windows window
  findRoot : ∀ window ∈ windows, ∃ fuel, (findRootWindow windows fuel window).isSome
  clip : ∀ window ∈ windows, ∀ (Rect : Type) (isEmpty : Rect → Bool)
    (clip : Rect → Window → Rect) (empty rect : Rect), ∃ fuel,
      (clipToAncestors isEmpty clip empty windows fuel window rect).isSome
  belongs : ∀ window ∈ windows, ∀ ancestor, ∃ fuel,
    (windowBelongsToSubtree windows fuel window ancestor).isSome
  shift : ∀ window ∈ windows, ∃ fuel, (shiftDescendants windows fuel window.hwnd).isSome

/-- A window that is created without the child style names no parent or a live window, and no
window that is taken away is the parent of one that stays. -/
def KeepsParents (desktop : Desktop) : Action → Prop
  | .create _ parent child _ _ _ =>
    child = true ∨ parent = 0 ∨ ∃ window ∈ desktop.windows, window.hwnd = parent
  | action => ∀ window ∈ desktop.windows, action.takes window = false →
      ∀ parent ∈ desktop.windows, action.takes parent = true → window.parent ≠ parent.hwnd

theorem KeepsParents.namesOlder
    (keeps : KeepsParents desktop action) : NamesOlder desktop action := by
  cases action with
  | create =>
    refine keeps.imp_right fun named => ?_
    rcases named with rfl | ⟨window, mem, rfl⟩
    · exact ranked.started
    · exact ranked.bounds window mem
  | _ => trivial

end

theorem ParentsLive.change (live : ParentsLive desktop.windows)
    (keeps : KeepsParents desktop action) (change : Change desktop next action) :
    ParentsLive next.windows := by
  intro window mem named
  cases change with
  | kept same =>
    obtain ⟨older, stays⟩ := mem_filter.mp (same.subset mem)
    rw [Bool.not_eq_true'] at stays
    obtain ⟨above, listed, isParent⟩ := live window older named
    refine ⟨above, same.mem_iff.mpr (mem_filter.mpr ⟨listed, ?_⟩), isParent⟩
    rw [Bool.not_eq_true', Bool.eq_false_iff]
    intro goes
    cases action with
    | create => cases goes
    | _ => exact keeps window older stays above listed goes isParent.symm
  | refused result =>
    subst result
    exact live window mem named
  | added same _ found =>
    have old : (∃ above ∈ desktop.windows, above.hwnd = window.parent) := by
      rcases mem_cons.mp (same.subset mem) with rfl | older
      · exact keeps.elim found (·.resolve_left named)
      · exact live window older named
    obtain ⟨above, listed, isParent⟩ := old
    exact ⟨above, same.mem_iff.mpr (.tail _ listed), isParent⟩

theorem Ranked.rooted (ranked : Ranked desktop) (live : ParentsLive desktop.windows)
    (mem : window ∈ desktop.windows) : Rooted desktop.windows window := by
  induction rank : window.hwnd using Nat.strongRecOn generalizing window with
  | ind _ ih =>
    by_cases top : window.parent = 0
    · exact .root top
    obtain ⟨above, listed, same⟩ := live window mem top
    obtain ⟨parent, found⟩ : ∃ parent, findWindow desktop.windows window.parent = some parent :=
      Option.isSome_iff_exists.mp (List.find?_isSome.mpr ⟨above, listed, by simpa using same⟩)
    obtain ⟨isMember, _⟩ := findWindow_eq found
    have older := ranked.older window mem
    exact .up found (ih parent.hwnd (by omega) isMember rfl)

theorem reachable_performAll (actions : List Action)
    (ran : Runs.performAll perform ⟨[], 1⟩ actions = some desktop) :
    Reachable (fun _ _ => True) desktop :=
  Runs.Reachable.performAll (.start rfl) (fun _ _ _ => trivial) ran

/-- A window is the ancestor or below it. -/
inductive Under (windows : List Window) (ancestor : ℕ) : Window → Prop
  | self {window : Window} : window.hwnd = ancestor → Under windows ancestor window
  | child {window : Window} : window.parent ≠ 0 → window.parent = ancestor →
      Under windows ancestor window
  | up {window parent : Window} : window.parent ≠ 0 →
      findWindow windows window.parent = some parent → Under windows ancestor parent →
      Under windows ancestor window

theorem windowBelongsToSubtree_iff {ancestor : ℕ} {answer : Bool}
    (answers : windowBelongsToSubtree windows fuel window ancestor = some answer) :
    answer = true ↔ Under windows ancestor window := by
  unfold windowBelongsToSubtree at answers
  dsimp only at answers
  split at answers
  · rename_i isSelf
    cases answers
    exact iff_of_true rfl (.self isSelf)
  rename_i notSelf
  induction fuel generalizing window with
  | zero => cases answers
  | succ _ ih =>
    unfold climb at answers
    split at answers
    · rename_i stops
      cases answers
      rw [decide_eq_true_eq]
      refine ⟨fun above => .child above.1 above.2, fun under => ?_⟩
      cases under with
      | self isSelf => exact absurd isSelf notSelf
      | child named isParent => exact ⟨named, isParent⟩
      | up named => exact (stops.resolve_right named |> of_decide_eq_true)
    · rename_i goesOn
      obtain ⟨notParent, named⟩ := not_or.mp goesOn
      have ne : window.parent ≠ ancestor := fun same =>
        notParent (decide_eq_true ⟨named, same⟩)
      have upwards : ∀ {above}, findWindow windows window.parent = some above →
          (Under windows ancestor window ↔ Under windows ancestor above) := by
        refine fun found => ⟨fun under => ?_, fun under => .up named found under⟩
        cases under with
        | self isSelf => exact absurd isSelf notSelf
        | child _ isParent => exact absurd isParent ne
        | up _ isParent under =>
          cases found.symm.trans isParent
          exact under
      split at answers
      · rename_i missing
        cases answers
        refine iff_of_false nofun fun under => ?_
        cases under with
        | self isSelf => exact absurd isSelf notSelf
        | child _ isParent => exact absurd isParent ne
        | up _ isParent => exact absurd (missing.symm.trans isParent) nofun
      · rename_i above found
        rw [upwards found]
        exact ih ((findWindow_eq found).2 ▸ ne) answers

theorem filter_reorderTopmostWindows (keep : Window → Bool) (windows : List Window) :
    (reorderTopmostWindows windows).filter keep = reorderTopmostWindows (windows.filter keep) := by
  simp [reorderTopmostWindows, filter_filter, Bool.and_comm]

theorem reorderTopmostWindows_eq (layered : Layered windows) :
    reorderTopmostWindows windows = windows := by
  induction windows with
  | nil => rfl
  | cons window rest ih =>
    obtain ⟨above, restLayered⟩ := pairwise_cons.mp layered
    have same := ih restLayered
    unfold reorderTopmostWindows at same ⊢
    cases isTop : window.topmost with
    | false => simp [isTop, same]
    | true =>
      have all : ∀ other ∈ rest, other.topmost = true := fun other mem =>
        above other mem isTop
      simpa [isTop, filter_eq_self.mpr all, filter_eq_nil_iff] using all

/-- Raising moves a subtree above the other windows of each layer, and keeps the order inside
and outside of it. -/
def Raised (hwnd : ℕ) (before after : List Window) : Prop :=
  ∃ inside : Window → Bool,
    (∀ window ∈ before, inside window = true ↔ Under before hwnd window) ∧
    after.filter inside = before.filter inside ∧
    after.filter (!inside ·) = before.filter (!inside ·) ∧
    ∀ layer, after.filter (·.topmost == layer) =
      (before.filter (!inside ·)).filter (·.topmost == layer) ++
        (before.filter inside).filter (·.topmost == layer)

theorem filter_topmost_reorder (windows : List Window) (layer : Bool) :
    (reorderTopmostWindows windows).filter (·.topmost == layer) =
      windows.filter (·.topmost == layer) := by
  cases layer <;>
    simp +contextual [reorderTopmostWindows, filter_filter]

/-- Moving the windows of a subtree to the end and regrouping the layers changes nothing within
the subtree and nothing outside it. -/
theorem Layered.filter_regrouped (layered : Layered windows) (inside : Window → Bool) :
    (reorderTopmostWindows (windows.filter (!inside ·) ++ windows.filter inside)).filter inside =
      windows.filter inside ∧
    (reorderTopmostWindows (windows.filter (!inside ·) ++ windows.filter inside)).filter
      (!inside ·) = windows.filter (!inside ·) := by
  rw [filter_reorderTopmostWindows, filter_reorderTopmostWindows]
  have kept := fun chosen : Window → Bool =>
    reorderTopmostWindows_eq (layered.sublist (filter_sublist (p := chosen)))
  exact ⟨by simpa [filter_filter] using kept inside,
    by simpa [filter_filter] using kept (!inside ·)⟩

theorem Ranked.renderRaiseWindow (ranked : Ranked desktop) (layered : Layered desktop.windows)
    (mem : window ∈ desktop.windows) : ∃ next, renderRaiseWindow desktop window.hwnd = some next ∧
        Raised window.hwnd desktop.windows next.windows := by
  have present : findWindow desktop.windows window.hwnd ≠ none := by
    rw [← Option.isSome_iff_ne_none]
    exact List.find?_isSome.mpr ⟨window, mem, by simp⟩
  have answered := fun other (listed : other ∈ desktop.windows) =>
    ranked.windowBelongsToSubtree listed window.hwnd
  unfold Gwes.renderRaiseWindow
  rw [if_neg present, if_pos (all_eq_true.mpr answered)]
  obtain ⟨within, outside⟩ := layered.filter_regrouped fun other =>
    Gwes.windowBelongsToSubtree desktop.windows desktop.nextHwnd other window.hwnd == some true
  refine ⟨_, rfl, _, fun other listed => ?_, within, outside, fun layer => ?_⟩
  · obtain ⟨_, answers⟩ := Option.isSome_iff_exists.mp (answered other listed)
    rw [← windowBelongsToSubtree_iff answers]
    simp [answers]
  · exact (filter_topmost_reorder _ layer).trans (filter_append ..)

/-! ### Removing in order -/

/-- Handles of windows without the child style name no parent that is to come. A window that is
destroyed has no window above it, the last one apart, that is in the layer of the last one. Above
the lowest of several windows that go, at most one stays. -/
def KeepsOrder (desktop : Desktop) : Action → Prop
  | .destroy pid hwnd => ∀ front window middle last,
      desktop.windows = front ++ window :: (middle ++ [last]) → window.ownerPid = pid →
      window.hwnd = hwnd → ∀ between ∈ middle, between.topmost ≠ last.topmost
  | .create pid parent child topmost focused rendered =>
    NamesOlder desktop (.create pid parent child topmost focused rendered)
  | action => ((desktop.windows.dropWhile (!action.takes ·)).filter (!action.takes ·)).length ≤ 1

theorem KeepsOrder.namesOlder (keeps : KeepsOrder desktop action) : NamesOlder desktop action := by
  cases action with
  | create => exact keeps
  | _ => trivial

/-- A window that has no other of its layer to pass may move to the end. -/
theorem filter_cons_eq_concat {middle : List Window} {last : Window}
    (alone : ∀ between ∈ middle, between.topmost ≠ last.topmost) (layer : Window → Bool)
    (byLayer : ∀ {one other : Window}, layer one = layer other ↔ one.topmost = other.topmost) :
    (last :: middle).filter layer = (middle ++ [last]).filter layer := by
  cases isLayer : layer last with
  | false => simp [isLayer]
  | true =>
    have empty : middle.filter layer = [] := filter_eq_nil_iff.mpr fun between mem isIn =>
      alone between mem (byLayer.mp (isIn.trans isLayer.symm))
    simp [isLayer, empty]

theorem reorderTopmostWindows_filter (layered : Layered windows) (stays : Window → Bool) :
    reorderTopmostWindows (windows.filter stays) = windows.filter stays :=
  reorderTopmostWindows_eq (layered.sublist filter_sublist)

theorem destroyWindow_kept {pid : ℕ} (ranked : Ranked desktop)
    (layered : Layered desktop.windows) (keeps : KeepsOrder desktop (.destroy pid hwnd)) :
    (destroyWindow desktop pid hwnd).windows =
      desktop.windows.filter (!(Action.destroy pid hwnd).takes ·) := by
  unfold destroyWindow
  split
  · rename_i found
    obtain ⟨window, mem, isWindow⟩ := any_eq_true.mp found
    simp only [Bool.and_eq_true, decide_eq_true_eq] at isWindow
    obtain ⟨rfl, rfl⟩ := isWindow
    obtain ⟨front, back, split, others⟩ := exists_split ranked.distinct mem
    rw [← reorderTopmostWindows_filter layered]
    have left : desktop.windows.filter (!(Action.destroy window.ownerPid window.hwnd).takes ·) =
        front ++ back := by
      have stays := fun other listed => others other (listed : other ∈ front ++ back)
      rw [split, filter_append, filter_cons_of_neg (by simp [Action.takes]), ← filter_append]
      exact filter_eq_self.mpr fun other listed => by simp [Action.takes, stays other listed]
    rw [left]
    simp only
    rw [split, releaseWindowRecord_append _ (forall_mem_append.mp others).1,
      releaseWindowRecord_cons]
    rcases eq_nil_or_concat' back with rfl | ⟨middle, last, rfl⟩
    · rfl
    · have alone := keeps front window middle last split rfl rfl
      rw [getLast?_concat, dropLast_concat, Option.toList_some, singleton_append]
      unfold reorderTopmostWindows
      simp only [filter_append front]
      rw [filter_cons_eq_concat alone (!·.topmost) (by simp),
        filter_cons_eq_concat alone (·.topmost) .rfl]
  · rename_i missing
    exact (filter_not_eq_self missing).symm

/-- An action that takes windows away leaves the others in their order. -/
theorem perform_kept (ranked : Ranked desktop) (layered : Layered desktop.windows)
    (keeps : KeepsOrder desktop action) (removes : action.removes = true)
    (performed : perform desktop action = some next) :
    next.windows = desktop.windows.filter (!action.takes ·) := by
  cases action with
  | create | bounds | foreground => cases removes
  | destroy =>
    cases performed
    exact destroyWindow_kept ranked layered keeps
  | closePopups popups =>
    cases performed
    rw [← reorderTopmostWindows_filter layered]
    exact congrArg reorderTopmostWindows (foldl_releaseWindowRecord_eq ranked.distinct
      (fun window _ => by simp [Action.takes]) keeps)
  | release =>
    cases performed
    exact foldl_releaseWindowRecord_eq ranked.distinct
      (fun window mem => ranked.mem_clientWindows mem) keeps

/-- Every action regroups the layers, or leaves the windows that stay in their order. -/
theorem perform_layered (ranked : Ranked desktop) (layered : Layered desktop.windows)
    (keeps : KeepsOrder desktop action) (performed : perform desktop action = some next) :
    Layered next.windows := by
  cases action with
  | destroy | closePopups | release =>
    rw [perform_kept ranked layered keeps rfl performed]
    exact layered.sublist filter_sublist
  | create =>
    simp only [perform, createWindow] at performed
    split at performed
    · cases performed
      exact layered
    split at performed
    · exact (renderRaiseWindow_spec performed).2.2 (layered_reorderTopmostWindows _)
    · cases performed
      exact layered_reorderTopmostWindows _
  | bounds =>
    obtain ⟨_, _, rfl⟩ := Option.map_eq_some_iff.mp performed
    exact layered
  | foreground =>
    simp only [perform, applyForegroundWindow] at performed
    split at performed
    · cases performed
      exact layered
    split at performed
    · cases performed
    · cases performed
      exact layered
    · exact (renderRaiseWindow_spec performed).2.2 layered

end RosKernel.Gwes
