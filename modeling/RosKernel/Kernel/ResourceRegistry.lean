import Mathlib.Algebra.BigOperators.Group.List.Basic
import Mathlib.Algebra.GroupWithZero.Nat
import RosKernel.Kernel.ResourceManager

/-!
# Integrity of the resource registry

What a registry with its list, its records and its counters in order stands for, and what the
locked operations and a finished append do to it.
-/

namespace RosKernel.ResourceManager

open List Function KernelResourceRecord

namespace KernelResourceRecord

variable (record : KernelResourceRecord)

@[simp]
theorem resource_address : record.resource.address = record.address := rfl

@[simp]
theorem resource_kind : record.resource.kind = record.kind := rfl

@[simp]
theorem resource_size : record.resource.size = record.size := rfl

end KernelResourceRecord

/-- Bytes tracked under one kind. -/
def bytesOf (live : List LiveResource) (kind : KernelResourceKind) : ℕ :=
  ((live.filter (·.kind = kind)).map LiveResource.size).sum

/-- Resources tracked under one kind. -/
def countOf (live : List LiveResource) (kind : KernelResourceKind) : ℕ :=
  live.countP (·.kind = kind)

theorem bytesOf_append (first second : List LiveResource) (kind : KernelResourceKind) :
    bytesOf (first ++ second) kind = bytesOf first kind + bytesOf second kind := by
  simp [bytesOf]

theorem countOf_append (first second : List LiveResource) (kind : KernelResourceKind) :
    countOf (first ++ second) kind = countOf first kind + countOf second kind :=
  countP_append

theorem bytesOf_singleton (resource : LiveResource) (kind : KernelResourceKind) :
    bytesOf [resource] kind = if resource.kind = kind then resource.size else 0 := by
  unfold bytesOf
  split <;> simp [*]

theorem countOf_singleton (resource : LiveResource) (kind : KernelResourceKind) :
    countOf [resource] kind = if resource.kind = kind then 1 else 0 := by
  simp [countOf, countP_singleton]

namespace Registry

/-- The list has these records, which stand for these resources, and the counters count them. -/
structure Holds (registry : Registry) (nodes : List ℕ) (live : List LiveResource) : Prop where
  represents : registry.links.Represents nodes
  tracked : nodes.map (fun record => (registry.records record).resource) = live
  distinct : (live.map LiveResource.address).Nodup
  nonzero : ∀ resource ∈ live, resource.address ≠ 0
  liveCount : ∀ kind, (registry.stats kind).liveCount = countOf live kind
  liveBytes : ∀ kind, (registry.stats kind).liveBytes = bytesOf live kind

theorem holds_zeroed : zeroed.Holds [] [] :=
  ⟨Links.represents_empty, rfl, nodup_nil, nofun, fun _ => rfl, fun _ => rfl⟩

variable {registry : Registry} {nodes : List ℕ} {live : List LiveResource}

/-- Initializing a registry that holds nothing. -/
theorem Holds.init (holds : registry.Holds nodes live)
    (unused : registry.initialized = false → live = []) : registry.init.Holds nodes live := by
  unfold Registry.init
  split
  · exact holds
  · rename_i uninitialized
    obtain rfl : live = [] := unused (Bool.eq_false_iff.mpr uninitialized)
    obtain rfl : nodes = [] := map_eq_nil_iff.mp holds.tracked
    exact ⟨⟨nodup_nil, rfl, rfl, rfl, .nil, nofun, nofun⟩, rfl, nodup_nil,
      nofun, fun _ => rfl, fun _ => rfl⟩

theorem liveBytes_init_le (registry : Registry) (kind : KernelResourceKind) :
    (registry.init.stats kind).liveBytes ≤ (registry.stats kind).liveBytes := by
  unfold Registry.init
  split
  · exact le_rfl
  · exact Nat.zero_le _

theorem initialized_init (registry : Registry) : registry.init.initialized = true := by
  unfold Registry.init
  split
  · assumption
  · rfl

/-! ## The search -/

variable {address fuel : ℕ}

/-- The loop from a record on runs out of fuel, or finds the first record of the address. -/
theorem findRecord_cases (fuel : ℕ) {front back : List ℕ}
    (represents : registry.links.Represents (front ++ back)) :
    fuel < back.length ∧ registry.findRecord address fuel back.head? = none ∨
      registry.findRecord address fuel back.head? =
        some (back.find? fun record => (registry.records record).address = address) := by
  induction back generalizing front fuel with
  | nil =>
    right
    cases fuel <;> rfl
  | cons _ _ ih =>
    cases fuel with
    | zero => exact .inl ⟨Nat.succ_pos _, rfl⟩
    | succ fuel =>
      rw [List.head?_cons, findRecord]
      split
      · rename_i here
        rw [List.find?_cons_of_pos (by simpa using here)]
        exact .inr rfl
      · rename_i elsewhere
        rw [List.find?_cons_of_neg (by simpa using elsewhere), represents.neighbours.2]
        rw [append_cons] at represents
        exact (ih fuel represents).imp_left (.imp_left Nat.succ_lt_succ)

section

variable (holds : registry.Holds nodes live)
include holds

/-- A search that ends finds the first record of the address. -/
theorem Holds.find_eq {found : Option ℕ}
    (ended : registry.findRecord address fuel registry.links.head = some found) :
    nodes.find? (fun record => (registry.records record).address = address) = found := by
  have represents : registry.links.Represents ([] ++ nodes) := holds.represents
  rw [holds.represents.head] at ended
  rcases findRecord_cases fuel represents with ⟨-, out⟩ | searched
  · cases out.symm.trans ended
  · exact Option.some.inj (searched.symm.trans ended)

theorem Holds.notMem_of_find
    (missing : nodes.find? (fun record => (registry.records record).address = address) = none) :
    address ∉ live.map LiveResource.address := by
  rw [← holds.tracked, map_map]
  intro mem
  obtain ⟨record, recordMember, same⟩ := mem_map.mp mem
  have ne := List.find?_eq_none.mp missing record recordMember
  exact ne (by simpa using same)

theorem Holds.mem_of_find {record : ℕ}
    (found : nodes.find? (fun record => (registry.records record).address = address) =
      some record) :
    record ∈ nodes ∧ (registry.records record).address = address ∧
      (registry.records record).resource ∈ live := by
  have mem := mem_of_find?_eq_some found
  refine ⟨mem, by simpa using List.find?_some found, ?_⟩
  rw [← holds.tracked]
  exact mem_map.mpr ⟨record, mem, rfl⟩

/-! ## Linking and unlinking -/

theorem Holds.writeRecord {place : ℕ} (fresh : place ∉ nodes)
    (record : KernelResourceRecord) : (registry.writeRecord place record).Holds nodes live := by
  refine { holds with tracked := ?_ }
  rw [← holds.tracked]
  apply map_congr_left
  intro other mem
  have ne : other ≠ place := fun same => fresh (same ▸ mem)
  simp [Registry.writeRecord, ne]

end

theorem length_lt_of_nodup {addresses : List ℕ} (distinct : addresses.Nodup)
    (bounded : ∀ address ∈ addresses, 0 < address ∧ address < 2 ^ 64) :
    addresses.length < 2 ^ 64 := by
  have subset : addresses ⊆ List.range' 1 (2 ^ 64 - 1) := by
    intro address mem
    obtain ⟨_, _⟩ := bounded address mem
    rw [mem_range'_1]
    omega
  have short := (subperm_of_subset distinct subset).length_le
  rw [length_range'] at short
  omega

theorem Holds.countOf_le (holds : registry.Holds nodes live) (kind : KernelResourceKind) :
    countOf live kind ≤ nodes.length := by
  rw [← holds.tracked, countOf]
  apply le_trans countP_le_length
  rw [length_map]

/-- Linking a filled record tracks its resource. -/
theorem Holds.linkRecord (holds : registry.Holds nodes live) {record : ℕ} (fresh : record ∉ nodes)
    (untracked : (registry.records record).address ∉ live.map LiveResource.address)
    (nonzero : (registry.records record).address ≠ 0)
    (bounded : ∀ node ∈ nodes ++ [record], 0 < node ∧ node < 2 ^ 64)
    (fits : (registry.stats (registry.records record).kind).liveBytes +
      (registry.records record).size < sizeRange) :
    (registry.linkRecord record).Holds (nodes ++ [record])
      (live ++ [(registry.records record).resource]) := by
  have linked := holds.represents.append fresh
  have short := length_lt_of_nodup linked.distinct bounded
  rw [length_append, length_singleton] at short
  refine ⟨linked, ?_, ?_, ?_, ?_, ?_⟩
  · rw [map_append, map_singleton]
    exact congrArg (· ++ [_]) holds.tracked
  · rw [map_append, map_singleton]
    apply nodup_append.mpr
    refine ⟨holds.distinct, nodup_singleton _, ?_⟩
    intro _ mem _ otherMem same
    rw [same, mem_singleton.mp otherMem] at mem
    exact untracked mem
  · intro resource mem
    rcases mem_append.mp mem with old | new
    · exact holds.nonzero resource old
    · rw [mem_singleton.mp new]
      exact nonzero
  · intro kind
    have few : countOf live kind + 1 < sizeRange :=
      lt_of_le_of_lt (Nat.succ_le_succ (holds.countOf_le kind)) short
    rw [countOf_append, countOf_singleton, resource_kind]
    by_cases same : (registry.records record).kind = kind
    · subst same
      simp only [Registry.linkRecord, updateStats, update_self, KernelResourceStats.add, if_true]
      rw [holds.liveCount, Nat.mod_eq_of_lt few]
    · rw [if_neg same, Nat.add_zero, ← holds.liveCount]
      simp [Registry.linkRecord, updateStats, Ne.symm same]
  · intro kind
    rw [bytesOf_append, bytesOf_singleton, resource_kind, resource_size]
    by_cases same : (registry.records record).kind = kind
    · subst same
      simp only [Registry.linkRecord, updateStats, update_self, KernelResourceStats.add, if_true]
      rw [Nat.mod_eq_of_lt fits, holds.liveBytes]
    · rw [if_neg same, Nat.add_zero, ← holds.liveBytes]
      simp [Registry.linkRecord, updateStats, Ne.symm same]

/-- Of resources with distinct addresses one leaves. -/
theorem filter_address {front back : List LiveResource} {resource : LiveResource}
    (distinct : ((front ++ resource :: back).map LiveResource.address).Nodup) :
    (front ++ resource :: back).filter (·.address ≠ resource.address) = front ++ back := by
  rw [map_append, map_cons] at distinct
  obtain ⟨_, rest, apart⟩ := nodup_append.mp distinct
  have notBack := (nodup_cons.mp rest).1
  rw [filter_append, filter_cons_of_neg (by simp)]
  congr 1
  · apply filter_eq_self.mpr
    intro other mem
    have ne := apart other.address (mem_map_of_mem mem) resource.address (.head _)
    simpa using ne
  · apply filter_eq_self.mpr
    intro other mem
    have ne : other.address ≠ resource.address := fun same =>
      notBack (same ▸ mem_map_of_mem mem)
    simpa using ne

/-- Unlinking a record gives up its resource. -/
theorem Holds.unlinkRecord (holds : registry.Holds nodes live) {record : ℕ} (mem : record ∈ nodes) :
    (registry.unlinkRecord record).Holds (nodes.erase record)
      (live.filter (·.address ≠ (registry.records record).address)) := by
  obtain ⟨front, back, rfl, notFront⟩ := eq_append_cons_of_mem mem
  have tracked := holds.tracked
  rw [map_append, map_cons] at tracked
  have distinct := holds.distinct
  rw [← tracked] at distinct
  have remaining : live.filter (·.address ≠ (registry.records record).address) =
      front.map (fun record => (registry.records record).resource) ++
        back.map fun record => (registry.records record).resource := by
    rw [← tracked]
    exact filter_address distinct
  have erased : (front ++ record :: back).erase record = front ++ back := by
    rw [erase_append_right _ notFront, erase_cons_head]
  rw [remaining, erased]
  refine ⟨holds.represents.remove, map_append, ?_, ?_, fun kind => ?_, fun kind => ?_⟩
  · rw [← remaining]
    exact holds.distinct.sublist (filter_sublist.map _)
  · rw [← remaining]
    intro resource mem
    exact holds.nonzero resource (mem_of_mem_filter mem)
  on_goal 1 =>
    have total := holds.liveCount kind
    rw [← tracked, append_cons, countOf_append, countOf_append, countOf_singleton,
      resource_kind] at total
    rw [countOf_append]
  on_goal 2 =>
    have total := holds.liveBytes kind
    rw [← tracked, append_cons, bytesOf_append, bytesOf_append, bytesOf_singleton,
      resource_kind, resource_size] at total
    rw [bytesOf_append]
  all_goals
    by_cases same : (registry.records record).kind = kind
    · subst same
      rw [if_pos rfl] at total
      simp only [Registry.unlinkRecord, updateStats, update_self, KernelResourceStats.remove]
      rw [total, if_pos (by omega)]
      omega
    · rw [if_neg same] at total
      simpa [Registry.unlinkRecord, updateStats, Ne.symm same] using total

end Registry

/-! ## Finishing an append -/

/-- An upper bound of the accesses left. -/
def LinkStage.remaining : LinkStage → ℕ
  | .enter => 11
  | .attach => 10
  | .attachTo _ => 9
  | .publish => 8
  | .loadCount => 7
  | .storeCount _ => 6
  | .loadBytes => 5
  | .storeBytes _ => 4
  | .loadPeakCount => 3
  | .storePeakCount _ => 2
  | .loadPeakBytes => 1
  | .storePeakBytes _ => 0

variable {later : Registry} {stage : LinkStage}

theorem linkStep_remaining {registry : Registry} {record : ℕ} {next : LinkStage}
    (stepped : linkStep registry record stage = (later, some next)) :
    next.remaining < stage.remaining := by
  rcases stage with _ | _ | (_ | _) | _ | _ | _ | _ | _ | _ | _ | _ | _
  all_goals
    simp only [linkStep] at stepped
    try split at stepped
  all_goals cases stepped
  all_goals simp [LinkStage.remaining]

/-- The registry once the accesses left at a stage have been made without a switch. -/
def finishLink (registry : Registry) (record : ℕ) (stage : LinkStage) : Registry :=
  match _stepped : linkStep registry record stage with
  | (later, none) => later
  | (later, some next) => finishLink later record next
termination_by stage.remaining
decreasing_by exact linkStep_remaining _stepped

theorem finishLink_of_some {registry : Registry} {record : ℕ} {next : LinkStage}
    (stepped : linkStep registry record stage = (later, some next)) :
    finishLink registry record stage = finishLink later record next := by
  rw [finishLink]
  split
  · rename_i ended
    cases stepped.symm.trans ended
  · rename_i continued
    cases stepped.symm.trans continued
    rfl

theorem finishLink_of_none {registry : Registry} {record : ℕ}
    (stepped : linkStep registry record stage = (later, none)) :
    finishLink registry record stage = later := by
  rw [finishLink]
  split
  · rename_i ended
    cases stepped.symm.trans ended
    rfl
  · rename_i continued
    cases stepped.symm.trans continued

variable (registry : Registry) (record : ℕ)
include registry record

/-- Memory accesses do not change the records themselves. -/
theorem linkStep_records (stage : LinkStage) :
    (linkStep registry record stage).1.records = registry.records := by
  rcases stage with _ | _ | (_ | _) | _ | _ | _ | _ | _ | _ | _ | _ | _
  all_goals
    simp only [linkStep]
    try split
  all_goals rfl

theorem linkStep_initialized (stage : LinkStage) :
    (linkStep registry record stage).1.initialized = registry.initialized := by
  rcases stage with _ | _ | (_ | _) | _ | _ | _ | _ | _ | _ | _ | _ | _
  all_goals
    simp only [linkStep]
    try split
  all_goals rfl

/-- The last two tests of an append. -/
theorem finishLink_loadPeakCount :
    finishLink registry record .loadPeakCount =
      registry.updateStats (registry.records record).kind fun stats =>
        { stats with
          peakCount := if stats.peakCount < stats.liveCount then stats.liveCount
            else stats.peakCount
          peakBytes := if stats.peakBytes < stats.liveBytes then stats.liveBytes
            else stats.peakBytes } := by
  have bytes : ∀ registry : Registry, finishLink registry record .loadPeakBytes =
      registry.updateStats (registry.records record).kind fun stats =>
        { stats with
          peakBytes := if stats.peakBytes < stats.liveBytes then stats.liveBytes
            else stats.peakBytes } := by
    intro registry
    by_cases exceeded : (registry.stats (registry.records record).kind).peakBytes <
        (registry.stats (registry.records record).kind).liveBytes
    · rw [finishLink_of_some (by rw [linkStep, if_pos exceeded]), finishLink_of_none rfl]
      simp [Registry.updateStats, exceeded]
    · rw [finishLink_of_none (by rw [linkStep, if_neg exceeded])]
      simp [Registry.updateStats, exceeded]
  by_cases exceeded : (registry.stats (registry.records record).kind).peakCount <
      (registry.stats (registry.records record).kind).liveCount
  · rw [finishLink_of_some (by rw [linkStep, if_pos exceeded]), finishLink_of_some rfl, bytes]
    simp [Registry.updateStats, exceeded]
  · rw [finishLink_of_some (by rw [linkStep, if_neg exceeded]), bytes]
    simp [Registry.updateStats, exceeded]

/-- An append without a switch is the locked one. -/
theorem finishLink_enter : finishLink registry record .enter = registry.linkRecord record := by
  have linked : ∀ links : Links ℕ, links = registry.links.append record →
      finishLink { registry with links } record .loadCount = registry.linkRecord record := by
    rintro _ rfl
    rw [finishLink_of_some rfl, finishLink_of_some rfl, finishLink_of_some rfl,
      finishLink_of_some rfl, finishLink_loadPeakCount]
    simp [Registry.updateStats, Registry.linkRecord, KernelResourceStats.add]
  rw [finishLink_of_some rfl, finishLink_of_some rfl]
  cases found : registry.links.tail with
  | none =>
    have noTail : ((registry.links.setPrev record none).setNext record none).tail = none := found
    rw [noTail, finishLink_of_some rfl, finishLink_of_some rfl]
    apply linked
    simp [Links.append, Links.setNext, Links.setPrev, found]
  | some last =>
    have tail : ((registry.links.setPrev record (some last)).setNext record none).tail =
        some last := found
    rw [tail, finishLink_of_some rfl, finishLink_of_some rfl]
    apply linked
    simp [Links.append, Links.setNext, Links.setPrev, found]

end RosKernel.ResourceManager
