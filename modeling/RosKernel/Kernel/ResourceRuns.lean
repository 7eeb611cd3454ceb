import Mathlib.Tactic.IntervalCases
import RosKernel.Kernel.ResourceSteps

/-!
# Runs of the resource registry

`allocate` searches and appends without the interrupt lock. As long as no other thread works
on the registry while one is in that part, the registry stays intact in every run; a thread
that is switched out in the middle of the append can lose a record.
-/

namespace RosKernel.ResourceManager

open List Function ResourceManager.Registry Option

/-! ## The locked operations -/

namespace InvariantAt

variable {state later : State} {base : Registry} {nodes : List ℕ} {thread answer : ℕ}

theorem allocate {request : Request} (inv : InvariantAt state base nodes)
    (idle : state.progress thread = .idle) :
    ∃ laterBase, InvariantAt ({ state with registry := state.registry.init }.setProgress thread
      (.allocating request)) laterBase nodes := by
  have owned : ({ state with registry := state.registry.init }.setProgress thread
      (.allocating request)).Owned nodes := by
    have same : State.Owned { state with registry := state.registry.init } nodes :=
      ⟨inv.owned.block, inv.owned.single⟩
    exact same.setProgress nofun nofun
  rcases inv.started with started | ⟨unused, allIdle⟩
  · have noop : state.registry.init = state.registry := by
      rw [Registry.init, if_pos (inv.initialized.trans started)]
    exact ⟨base, inv.bystander (by rw [idle]; exact id) id rfl noop rfl started owned⟩
  · have others : state.Alone thread := by
      intro _ _
      rw [allIdle]
      exact id
    have same := inv.registry_eq others (by rw [idle]; rfl)
    refine ⟨base.init, moved others rfl (inv.holds.init fun _ => unused) owned ?_
      (initialized_init base) (fun _ => ?_) trivial⟩
    · rw [← same]
      rfl
    · rw [← same]
      rfl

section

variable (inv : InvariantAt state base nodes) (others : state.Alone thread)
    (idle : state.progress thread = .idle)
include inv others idle

/-- A locked operation by an idle thread starts from a registry in order. -/
theorem holds_registry : state.registry.Holds nodes state.live := by
  rw [inv.registry_eq others (by rw [idle]; rfl)]
  exact inv.holds

/-- An operation that changes nothing but, at most, initializes. -/
theorem unchanged : InvariantAt { state with registry := state.registry.init } base.init nodes := by
  have same := inv.registry_eq others (by rw [idle]; rfl)
  have unused : base.initialized = false → state.live = [] := by
    intro uninitialized
    rcases inv.started with started | ⟨unused, -⟩
    · cases started.symm.trans uninitialized
    · exact unused
  refine moved others (update_eq_self thread state.progress).symm
    (inv.holds.init unused) ⟨inv.owned.block, inv.owned.single⟩ ?_
    (initialized_init base) (fun _ => ?_) ?_
  · rw [← same]
  · rw [← same]
  · rw [idle]
    trivial

end

variable {address fuel : ℕ}

theorem trackExternal {request : Request} {status : Status}
    (inv : InvariantAt state base nodes) (others : state.Alone thread)
    (idle : state.progress thread = .idle) (answers : state.HeapAnswers answer)
    (fits : (state.registry.stats request.kind).liveBytes + request.size < sizeRange)
    (tracked : state.trackExternal request address fuel answer = some (status, later)) :
    ∃ laterBase laterNodes, InvariantAt
      (if status = .ok then later.track (request.record address false).resource else later)
      laterBase laterNodes := by
  have started := inv.unchanged others idle
  have holds := started.holds_registry others idle
  rw [State.trackExternal, State.registerRecord] at tracked
  split at tracked
  · cases tracked
    exact ⟨base.init, nodes, started⟩
  rename_i valid
  split at tracked
  · cases tracked
  · cases tracked
    exact ⟨base.init, nodes, started⟩
  rename_i ended
  split at tracked
  · cases tracked
    exact ⟨base.init, nodes, started⟩
  rename_i given
  cases tracked
  have missing := holds.find_eq ended
  have absent := (answers.resolve_left given).2
  have fresh : answer ∉ nodes := fun mem =>
    absent (inv.owned.block answer .node mem).1
  have bounded : ∀ node ∈ nodes ++ [answer], 0 < node ∧ node < 2 ^ 64 := by
    intro node mem
    rcases mem_append.mp mem with old | new
    · exact (inv.owned.block node .node old).2
    · rw [mem_singleton.mp new]
      exact ⟨Nat.pos_of_ne_zero given, (answers.resolve_left given).1⟩
  have written : (state.registry.init.writeRecord answer (request.record address false)).records
      answer = request.record address false := update_self _ _ _
  have linked := (holds.writeRecord fresh (request.record address false)).linkRecord fresh
  rw [written] at linked
  refine ⟨_, nodes ++ [answer], moved others
    (update_eq_self thread state.progress).symm (linked ?_ ?_ bounded ?_) ?_ rfl
    (initialized_init _) (fun _ => rfl) (by rw [idle]; trivial)⟩
  · exact holds.notMem_of_find missing
  · exact fun zero => valid (.inr (.inl zero))
  · exact lt_of_le_of_lt (Nat.add_le_add_right (liveBytes_init_le _ _) _) fits
  · apply @State.Owned.fresh _ _ nodes state answer .node inv.owned answers given _ rfl
    intro _ use used
    cases use with
    | node =>
      rcases mem_append.mp used with old | new
      · exact .inl old
      · exact .inr ⟨mem_singleton.mp new, rfl⟩
    | resource =>
      obtain ⟨found, mem, owns, named⟩ := used
      rcases mem_append.mp mem with old | new
      · exact .inl ⟨found, old, owns, named⟩
      · rw [mem_singleton.mp new] at owns
        cases owns
    | inFlight | payload => exact .inl used

/-- Giving up an address that is not tracked changes nothing. -/
theorem forget_eq (untracked : address ∉ state.live.map LiveResource.address) :
    state.forget address = state := by
  have kept : state.live.filter (·.address ≠ address) = state.live := by
    apply filter_eq_self.mpr
    intro resource mem
    have ne : resource.address ≠ address := fun same =>
      untracked (same ▸ mem_map_of_mem mem)
    simpa using ne
  unfold State.forget
  rw [kept]

variable (inv : InvariantAt state base nodes)
include inv

/-- A locked operation has unlinked the record of an address; the thread moves on, with the
payload to free if the record owned one. -/
theorem dropRecord {record : ℕ} {next : Progress} (others : state.Alone thread)
    (idle : state.progress thread = .idle)
    (found : nodes.find? (fun record => (state.registry.records record).address = address) =
      some record) (outside : ¬ next.Inside) (payload : ∀ held, next.payload = some held →
      held = address ∧ (state.registry.records record).ownsMemory) :
    InvariantAt ((state.dropRecord record address).setProgress thread next)
      (state.registry.unlinkRecord record) (nodes.erase record) := by
  have holds := inv.holds_registry others idle
  obtain ⟨mem, named, tracked⟩ := holds.mem_of_find found
  have started : base.initialized = true := by
    rcases inv.started with started | ⟨unused, -⟩
    · exact started
    · rw [unused] at tracked
      cases tracked
  have laterHolds := holds.unlinkRecord mem
  rw [named] at laterHolds
  refine moved others rfl laterHolds ?_ rfl (inv.initialized.trans started)
    (fun _ => rfl) (position_of_not_inside outside)
  apply inv.owned.dropRecord holds.represents.distinct mem
    (Progress.record_eq_none_of_not_inside outside)
  intro held isHeld
  obtain ⟨rfl, owns⟩ := payload held isHeld
  exact ⟨rfl, _, tracked, owns, named⟩

theorem untrack {kind : KernelResourceKind} {status : Status} (others : state.Alone thread)
    (idle : state.progress thread = .idle)
    (untracked : state.untrack kind address fuel = some (status, later)) :
    ∃ laterBase laterNodes, InvariantAt (if status = .ok then later.forget address else later)
      laterBase laterNodes := by
  have holds := inv.holds_registry others idle
  rw [State.untrack] at untracked
  split at untracked
  · cases untracked
    exact ⟨base, nodes, inv⟩
  split at untracked
  · cases untracked
  · cases untracked
    exact ⟨base, nodes, inv⟩
  rename_i record ended
  split at untracked
  · cases untracked
    exact ⟨base, nodes, inv⟩
  · cases untracked
    have dropped := inv.dropRecord others idle (holds.find_eq ended)
      (show ¬ Progress.idle.Inside from id) nofun
    have stays : (state.dropRecord record address).setProgress thread .idle =
        state.dropRecord record address := by
      rw [State.setProgress, ← idle]
      exact congrArg (fun progress => { state.dropRecord record address with progress })
        (update_eq_self thread state.progress)
    rw [stays] at dropped
    exact ⟨_, _, dropped⟩

theorem release {ownsMemory : Bool} (others : state.Alone thread)
    (idle : state.progress thread = .idle)
    (released : state.release address fuel = some (ownsMemory, later)) :
    ∃ laterBase laterNodes, InvariantAt ((later.forget address).setProgress thread
      (if ownsMemory then .releasing address else .idle)) laterBase laterNodes := by
  have holds := inv.holds_registry others idle
  have unaffected : address ∉ state.live.map LiveResource.address →
      InvariantAt ((state.forget address).setProgress thread .idle) base nodes := by
    intro untracked
    have stays : state.setProgress thread .idle = state := by
      rw [State.setProgress, ← idle, update_eq_self]
    rw [forget_eq untracked, stays]
    exact inv
  rw [State.release] at released
  split at released
  · rename_i zero
    cases released
    refine ⟨base, nodes, unaffected ?_⟩
    intro mem
    obtain ⟨resource, resourceMember, same⟩ := mem_map.mp mem
    exact holds.nonzero resource resourceMember (same.trans zero)
  split at released
  · cases released
  · rename_i ended
    cases released
    exact ⟨base, nodes, unaffected (holds.notMem_of_find (holds.find_eq ended))⟩
  · rename_i record ended
    cases released
    refine ⟨_, _, inv.dropRecord others idle (holds.find_eq ended) ?_ ?_⟩
    · split <;> exact id
    · intro _ isHeld
      split at isHeld
      · rename_i owns
        exact ⟨(Option.some.inj isHeld).symm, owns⟩
      · cases isHeld

/-- One action. -/
theorem perform {action : Action} (orderly : Orderly state action)
    (performed : ResourceManager.perform state action = some later) :
    ∃ laterBase laterNodes, InvariantAt later laterBase laterNodes := by
  cases action with
  | allocate =>
    rw [ResourceManager.perform] at performed
    split at performed
    · rename_i idle
      cases performed
      obtain ⟨laterBase, kept⟩ := inv.allocate idle
      exact ⟨laterBase, nodes, kept⟩
    · cases performed
  | trackExternal =>
    rw [ResourceManager.perform] at performed
    split at performed
    · rename_i possible
      obtain ⟨⟨status, _⟩, isTracked, rfl⟩ := map_eq_some_iff.mp performed
      exact inv.trackExternal (orderly.1 trivial) possible.1 possible.2 orderly.2 isTracked
    · cases performed
  | untrack =>
    rw [ResourceManager.perform] at performed
    split at performed
    · rename_i idle
      obtain ⟨⟨_, _⟩, isUntracked, rfl⟩ := map_eq_some_iff.mp performed
      exact inv.untrack (orderly.1 trivial) idle isUntracked
    · cases performed
  | release =>
    rw [ResourceManager.perform] at performed
    split at performed
    · rename_i idle
      obtain ⟨⟨_, _⟩, isReleased, rfl⟩ := map_eq_some_iff.mp performed
      exact inv.release (orderly.1 trivial) idle isReleased
    · cases performed
  | advance =>
    rw [ResourceManager.perform] at performed
    split at performed
    · rename_i answers
      exact inv.advance orderly answers performed
    · cases performed

end InvariantAt

theorem invariantAt_boot : InvariantAt .boot .zeroed [] := by
  refine ⟨holds_zeroed, ⟨?_, ?_⟩, rfl, .inr ⟨rfl, fun _ => rfl⟩, ?_, fun _ => rfl, fun _ => trivial⟩
  · intro address use used
    cases use with
    | node | inFlight | payload => cases used
    | resource =>
      obtain ⟨_, mem, _⟩ := used
      cases mem
  · intro _ first _ used
    cases first with
    | node | inFlight | payload => cases used
    | resource =>
      obtain ⟨_, mem, _⟩ := used
      cases mem
  · exact fun _ _ inside => inside.elim

variable {state : State}

/-- The invariant along a run. -/
theorem Reachable.invariantAt (reachable : Reachable Orderly state) :
    ∃ base nodes, InvariantAt state base nodes := by
  induction reachable with
  | start isBoot =>
    subst isBoot
    exact ⟨_, _, invariantAt_boot⟩
  | step _ _ meets performed ih =>
    obtain ⟨_, _, inv⟩ := ih
    exact inv.perform meets performed

/-! ## Integrity -/

/-- The registry has one record for each live resource, in a chain whose links agree, its
counters count them, and releasing a live address takes its record out and frees its memory. -/
structure Intact (state : State) : Prop where
  chain : ∃ nodes, state.registry.Holds nodes state.live
  releases : ∀ resource ∈ state.live, ∀ thread, state.progress thread = .idle →
    ∃ fuel later, perform state (.release thread resource.address fuel) = some later ∧
      later.live = state.live.filter (·.address ≠ resource.address) ∧
      (∃ nodes, later.registry.Holds nodes later.live) ∧
      (resource.ownsMemory → resource.address ∈ state.blocks ∧
        ∃ final, perform later (.advance thread 0) = some final ∧ resource.address ∉ final.blocks)

/-- Releasing a live resource of a registry in order. -/
theorem releases_of_holds {nodes : List ℕ}
    (holds : state.registry.Holds nodes state.live) {resource : LiveResource}
    (mem : resource ∈ state.live) {thread : ℕ} (idle : state.progress thread = .idle) :
    ∃ record ∈ nodes, (state.registry.records record).resource = resource ∧
      perform state (.release thread resource.address nodes.length) =
        some ((state.dropRecord record resource.address).setProgress thread
          (if resource.ownsMemory then .releasing resource.address else .idle)) := by
  have represents : state.registry.links.Represents ([] ++ nodes) := holds.represents
  have ended := (@Registry.findRecord_cases _ resource.address nodes.length [] nodes
    represents).resolve_left fun out => lt_irrefl _ out.1
  rw [← holds.represents.head] at ended
  cases found : nodes.find? fun record =>
      (state.registry.records record).address = resource.address with
  | none => exact absurd (mem_map_of_mem mem) (holds.notMem_of_find found)
  | some record =>
    obtain ⟨recordMember, named, tracked⟩ := holds.mem_of_find found
    have same : (state.registry.records record).resource = resource :=
      inj_on_of_nodup_map holds.distinct tracked mem named
    refine ⟨record, recordMember, same, ?_⟩
    rw [found] at ended
    rw [perform, if_pos idle, State.release, if_neg (holds.nonzero resource mem), ended, ← same]
    rfl

theorem perform_releasing {thread address : ℕ}
    (place : state.progress thread = .releasing address) :
    perform state (.advance thread 0) =
      some ((state.heapFree address).setProgress thread .idle) := by
  rw [perform, if_pos (.inl rfl), State.advance, place]

/-- In every run in which no thread works on the registry while another is in the unlocked part
of `allocate`, and no kind's bytes pass the range of `Size`, the registry is intact whenever no
append is under way. -/
theorem registry_intact (reachable : Reachable Orderly state)
    (settled : ∀ thread, (state.progress thread).record = none) : Intact state := by
  obtain ⟨_, nodes, invariant⟩ := reachable.invariantAt
  have holds : state.registry.Holds nodes state.live := by
    rw [invariant.quiet settled]
    exact invariant.holds
  refine ⟨⟨nodes, holds⟩, ?_⟩
  intro resource member thread idle
  obtain ⟨record, recordMember, same, performed⟩ := releases_of_holds holds member idle
  refine ⟨nodes.length, _, performed, rfl, ⟨nodes.erase record, ?_⟩, ?_⟩
  · have unlinked := holds.unlinkRecord recordMember
    rwa [← KernelResourceRecord.resource_address, same] at unlinked
  · intro owns
    refine ⟨(invariant.owned.block _ .resource ⟨resource, member, owns, rfl⟩).1, _,
      @perform_releasing _ thread resource.address ?_, ?_⟩
    · rw [State.progress_setProgress, if_pos rfl, if_pos owns]
    · simp [State.setProgress, State.heapFree]

/-- A stack of one page. -/
def stackRequest : Request := ⟨.loaderStackBacking, 4096, 0, []⟩

/-- A surface record of 64 bytes. -/
def surfaceRequest : Request := ⟨.guiSurfaceRecord, 64, 0, []⟩

/-- Two threads track a surface each, at 50 and 60, with their records at 200 and 300. -/
theorem registry_intact_surfacesTracked : ∃ state, Reachable Orderly state ∧
    state.live = [⟨50, .guiSurfaceRecord, 64, false⟩, ⟨60, .guiSurfaceRecord, 64, false⟩] ∧
    Intact state := by
  have first : Reachable Orderly _ := .step (.start rfl) (.trackExternal 0 surfaceRequest 50 0 200)
    ⟨fun _ _ _ => id, by rw [BytesFit]; decide⟩ rfl
  have second := first.step (.trackExternal 1 surfaceRequest 60 1 300)
    ⟨fun _ _ _ => id, by rw [BytesFit]; decide⟩ rfl
  exact ⟨_, second, rfl, registry_intact second fun _ => rfl⟩

/-- Thread 0 allocates a stack at 100 and is switched out after its store to the head and
before its store to the tail; thread 1 tracks a surface at 50; thread 0 finishes. -/
def switchedAppend : List Action :=
  [.allocate 0 stackRequest, .advance 0 100, .advance 0 0, .advance 0 0, .advance 0 300,
    .advance 0 0, .advance 0 0, .advance 0 0,
    .trackExternal 1 surfaceRequest 50 1 200,
    .advance 0 0, .advance 0 0, .advance 0 0, .advance 0 0, .advance 0 0, .advance 0 0,
    .advance 0 0, .advance 0 0, .advance 0 0]

/-- After that run the stack is live and no thread is in the manager, but the list starts at the
surface's record, which is its end, so that a release of the stack finds nothing. -/
theorem registry_loses_record :
    ∃ state, Reachable (fun _ _ => True) state ∧ (∀ thread < 2, state.progress thread = .idle) ∧
      state.live = [⟨50, .guiSurfaceRecord, 64, false⟩, ⟨100, .loaderStackBacking, 4096, true⟩] ∧
      state.registry.findRecord 100 2 state.registry.links.head = some none ∧
      ¬ Intact state := by
  have performed : Runs.performAll perform .boot switchedAppend = some _ := rfl
  refine ⟨_, .performAll (.start rfl) (fun _ _ _ => trivial) performed, ?_, rfl, rfl, ?_⟩
  · intro thread _
    interval_cases thread <;> rfl
  · rintro ⟨⟨_, holds⟩, -⟩
    refine holds.notMem_of_find (holds.find_eq (show Registry.findRecord _ 100 2 _ = some none
      from rfl)) (show 100 ∈ [50, 100] from .tail _ (.head _))

end RosKernel.ResourceManager
