import RosKernel.Kernel.ResourceRegistry

/-!
# Heap blocks of the resource manager

Records in the list, records being appended, payloads of live resources and payloads in the
hands of a thread are heap blocks, each with one use at a time.
-/

namespace RosKernel.ResourceManager

open List

/-! ## What a thread holds -/

namespace Progress

/-- The payload block a thread has allocated or is to free. -/
def payload : Progress → Option ℕ
  | .idle => none
  | .allocating _ => none
  | .registering _ address => some address
  | .searching _ address _ => some address
  | .advancing _ address _ => some address
  | .recording _ address => some address
  | .linking address _ _ => some address
  | .undoing address => some address
  | .releasing address => some address

/-- The record a thread is appending. -/
def record : Progress → Option ℕ
  | .linking _ record _ => some record
  | _ => none

/-- The thread has started to read the list in `allocate`, and has not finished its append. -/
def Inside : Progress → Prop
  | .searching _ _ _ => True
  | .advancing _ _ _ => True
  | .recording _ _ => True
  | .linking _ _ _ => True
  | _ => False

theorem record_eq_none_of_not_inside {progress : Progress} (outside : ¬ progress.Inside) :
    progress.record = none := by
  cases progress <;> first | rfl | exact absurd trivial outside

end Progress

/-- What a heap block is used for. -/
inductive Use
  | node
  | inFlight (thread : ℕ)
  | resource
  | payload (thread : ℕ)

/-- The block at an address has that use. -/
def State.Uses (state : State) (nodes : List ℕ) (address : ℕ) : Use → Prop
  | .node => address ∈ nodes
  | .inFlight thread => (state.progress thread).record = some address
  | .resource => ∃ resource ∈ state.live, resource.ownsMemory ∧ resource.address = address
  | .payload thread => (state.progress thread).payload = some address

/-- Every block in use is live and has one use. -/
structure State.Owned (state : State) (nodes : List ℕ) : Prop where
  block : ∀ address use, state.Uses nodes address use →
    address ∈ state.blocks ∧ 0 < address ∧ address < 2 ^ 64
  single : ∀ address first second, state.Uses nodes address first →
    state.Uses nodes address second → first = second

variable {later : State} {laterNodes : List ℕ} {nodes : List ℕ} {state : State}

/-- Uses that come from earlier uses, each from its own. -/
theorem State.Owned.transfer (owned : state.Owned nodes) (origin : ℕ → Use → Use)
    (uses : ∀ address use, later.Uses laterNodes address use →
      state.Uses nodes address (origin address use))
    (injective : ∀ address first second, later.Uses laterNodes address first →
      later.Uses laterNodes address second → origin address first = origin address second →
      first = second) (blocks : ∀ address use, later.Uses laterNodes address use →
      address ∈ state.blocks → address ∈ later.blocks) :
    later.Owned laterNodes := by
  constructor
  · intro address use used
    obtain ⟨block, bounds⟩ := owned.block address _ (uses address use used)
    exact ⟨blocks address use used block, bounds⟩
  · intro address first second firstUsed secondUsed
    apply injective address first second firstUsed secondUsed
    exact owned.single address _ _ (uses address first firstUsed) (uses address second secondUsed)

/-- Uses only end. -/
theorem State.Owned.mono (owned : state.Owned nodes)
    (uses : ∀ address use, later.Uses laterNodes address use → state.Uses nodes address use)
    (blocks : ∀ address use, later.Uses laterNodes address use →
      address ∈ state.blocks → address ∈ later.blocks) :
    later.Owned laterNodes :=
  owned.transfer (fun _ use => use) uses (fun _ _ _ _ _ same => same) blocks

/-- A fresh block gets its first use, and other uses stay or end. -/
theorem State.Owned.fresh {answer : ℕ} {new : Use}
    (owned : state.Owned nodes) (answers : state.HeapAnswers answer) (given : answer ≠ 0)
    (uses : ∀ address use, later.Uses laterNodes address use →
      state.Uses nodes address use ∨ address = answer ∧ use = new)
    (blocks : later.blocks = answer :: state.blocks) : later.Owned laterNodes := by
  obtain ⟨below, absent⟩ := answers.resolve_left given
  have unused : ∀ use, ¬ state.Uses nodes answer use := fun use used =>
    absent (owned.block answer use used).1
  constructor
  · intro address use used
    rw [blocks]
    rcases uses address use used with old | ⟨rfl, -⟩
    · obtain ⟨block, bounds⟩ := owned.block address use old
      exact ⟨.tail _ block, bounds⟩
    · exact ⟨.head _, Nat.pos_of_ne_zero given, below⟩
  · intro address first second firstUsed secondUsed
    rcases uses address first firstUsed with firstOld | ⟨rfl, rfl⟩ <;>
      rcases uses _ second secondUsed with secondOld | ⟨same, rfl⟩
    · exact owned.single address first second firstOld secondOld
    · exact absurd (same ▸ firstOld) (unused first)
    · exact absurd secondOld (unused second)
    · rfl

namespace State

variable {state : State} {nodes : List ℕ} {thread address : ℕ} {place : Progress} {use : Use}

@[simp]
theorem uses_inFlight : state.Uses nodes address (.inFlight thread) ↔
    (state.progress thread).record = some address := Iff.rfl

@[simp]
theorem uses_payload : state.Uses nodes address (.payload thread) ↔
    (state.progress thread).payload = some address := Iff.rfl

@[simp]
theorem progress_setProgress (other : ℕ) : (state.setProgress thread place).progress other =
    if other = thread then place else state.progress other := by
  simp [setProgress, Function.update_apply]

/-- After a thread has moved a use is an earlier one, or is what its new place holds. -/
theorem uses_setProgress_cases (used : (state.setProgress thread place).Uses nodes address use) :
    state.Uses nodes address use ∧ use ≠ .inFlight thread ∧ use ≠ .payload thread ∨
      use = .inFlight thread ∧ place.record = some address ∨
      use = .payload thread ∧ place.payload = some address := by
  cases use with
  | node | resource => exact .inl ⟨used, nofun, nofun⟩
  | inFlight other | payload other =>
    by_cases same : other = thread
    · simpa [same] using used
    · simpa [same] using used

section

variable
    (payload : ∀ held, place.payload = some held → (state.progress thread).payload = some held)
    (record : ∀ held, place.record = some held → (state.progress thread).record = some held)
include payload record

/-- A thread that moves keeps what it holds, or gives it up. -/
theorem uses_of_setProgress
    (used : (state.setProgress thread place).Uses nodes address use) :
    state.Uses nodes address use := by
  rcases uses_setProgress_cases used with ⟨old, -⟩ | ⟨rfl, held⟩ | ⟨rfl, held⟩
  · exact old
  · exact record address held
  · exact payload address held

theorem Owned.setProgress (owned : state.Owned nodes) :
    (state.setProgress thread place).Owned nodes :=
  owned.mono (fun _ _ => uses_of_setProgress payload record) fun _ _ _ block => block

end

/-- A thread frees its payload. -/
theorem Owned.heapFree_payload (owned : state.Owned nodes)
    (held : (state.progress thread).payload = some address) :
    ((state.heapFree address).setProgress thread .idle).Owned nodes := by
  have kept : ∀ other use,
      ((state.heapFree address).setProgress thread .idle).Uses nodes other use →
      state.Uses nodes other use := fun other use used =>
    @uses_of_setProgress state nodes thread other .idle use nofun nofun used
  refine owned.mono kept ?_
  intro other use used block
  refine mem_filter.mpr ⟨block, ?_⟩
  have ne : other ≠ address := by
    rintro rfl
    -- the block's one use was the payload that the thread has just given up
    obtain rfl := owned.single other use (.payload thread) (kept other use used) held
    simp [Progress.payload] at used
  simpa using ne

/-- An append ends: the record joins the list and the payload becomes a resource. -/
theorem Owned.linked {record : ℕ} {registry : Registry} {resource : LiveResource}
    (owned : state.Owned nodes) (payload : (state.progress thread).payload = some address)
    (inFlight : (state.progress thread).record = some record) (named : resource.address = address) :
    (({ state with registry }.track resource).setProgress thread .idle).Owned
      (nodes ++ [record]) := by
  refine owned.transfer (fun place use => match use with
    | .node => if place = record then .inFlight thread else .node
    | .resource => if place = address then .payload thread else .resource
    | other => other) ?_ ?_ fun _ _ _ block => block
  · intro place use used
    cases use with
    | node =>
      rcases mem_append.mp used with old | new
      · by_cases same : place = record
        · simpa [same, Uses] using inFlight
        · simpa [same, Uses] using old
      · simpa [mem_singleton.mp new, Uses] using inFlight
    | resource =>
      obtain ⟨found, mem, owns, rfl⟩ := used
      by_cases same : found.address = address
      · simpa [same, Uses] using payload
      · have old : found ∈ state.live := by
          rcases mem_append.mp mem with old | new
          · exact old
          · rw [mem_singleton.mp new] at same
            exact absurd named same
        simpa [same, Uses] using ⟨found, old, owns, rfl⟩
    | inFlight | payload =>
      rcases uses_setProgress_cases used with ⟨old, -⟩ | ⟨-, held⟩ | ⟨-, held⟩
      · exact old
      · cases held
      · cases held
  · -- the moving thread has no use left, so the two uses it passed on stay apart
    intro place first second _ _ _
    have noRecord : ¬ (({ state with registry }.track resource).setProgress thread .idle).Uses
        (nodes ++ [record]) place (.inFlight thread) := by
      simp [Progress.record]
    have noPayload : ¬ (({ state with registry }.track resource).setProgress thread .idle).Uses
        (nodes ++ [record]) place (.payload thread) := by
      simp [Progress.payload]
    cases first <;> cases second <;> grind

end State

/-- The state once a record is unlinked and freed and its resource given up. -/
def State.dropRecord (state : State) (record address : ℕ) : State :=
  ({ state with registry := state.registry.unlinkRecord record }.heapFree record).forget address

/-- A record leaves the list; its payload goes to the thread that is to free it. -/
theorem State.Owned.dropRecord {thread address record : ℕ}
    {next : Progress} (owned : state.Owned nodes) (distinct : nodes.Nodup)
    (mem : record ∈ nodes) (unlinked : next.record = none)
    (payload : ∀ held, next.payload = some held →
      held = address ∧ state.Uses nodes held .resource) :
    ((state.dropRecord record address).setProgress thread next).Owned (nodes.erase record) := by
  have uses : ∀ place use,
      ((state.dropRecord record address).setProgress thread next).Uses (nodes.erase record) place
        use → state.Uses nodes place (match use with
          | .payload other => if other = thread then .resource else .payload other
          | other => other) := by
    intro place use used
    rcases uses_setProgress_cases used with ⟨old, -, ne⟩ | ⟨-, held⟩ | ⟨rfl, held⟩
    · cases use with
      | node => exact mem_of_mem_erase old
      | resource =>
        obtain ⟨resource, resourceMember, facts⟩ := old
        exact ⟨resource, mem_of_mem_filter resourceMember, facts⟩
      | inFlight => exact old
      | payload =>
        simp only [if_neg (mt (congrArg Use.payload) ne)]
        exact old
    · cases unlinked.symm.trans held
    · simp only [if_true]
      exact (payload place held).2
  refine owned.transfer (fun _ use => match use with
    | .payload other => if other = thread then .resource else .payload other
    | other => other) uses ?_ ?_
  · intro place first second _ _ _
    -- the resource that became a payload is no longer tracked
    have apart : ((state.dropRecord record address).setProgress thread next).Uses
        (nodes.erase record) place (.payload thread) →
        ¬ ((state.dropRecord record address).setProgress thread next).Uses (nodes.erase record)
          place .resource := by
      rintro held ⟨resource, resourceMember, -, named⟩
      rw [uses_payload, progress_setProgress, if_pos rfl] at held
      have ne := (mem_filter.mp resourceMember).2
      rw [named, (payload place held).1] at ne
      simp at ne
    cases first <;> cases second <;> grind
  · intro place use used block
    refine mem_filter.mpr ⟨block, ?_⟩
    have ne : place ≠ record := by
      rintro rfl
      have only := owned.single place _ .node (uses place use used) mem
      cases use with
      | node => exact (List.Nodup.mem_erase_iff distinct).mp used |>.1 rfl
      | resource | inFlight => cases only
      | payload =>
        simp only at only
        split at only <;> cases only
    simpa using ne

end RosKernel.ResourceManager
