import RosKernel.Kernel.ResourceOwnership

/-!
# Steps of the unlocked part of `allocate`

The condition under which threads keep out of each other's way in the registry, the invariant
it preserves, and the steps of `allocate` under it.
-/

namespace RosKernel.ResourceManager

open List Function

/-! ## The condition on steps -/

/-- The acting thread. -/
def Action.thread : Action → ℕ
  | .allocate thread _ => thread
  | .trackExternal thread _ _ _ _ => thread
  | .untrack thread _ _ _ => thread
  | .release thread _ _ => thread
  | .advance thread _ => thread

/-- The action reads or writes the registry's list. -/
def TouchesRegistry (state : State) : Action → Prop
  | .allocate _ _ => False
  | .trackExternal _ _ _ _ _ => True
  | .untrack _ _ _ _ => True
  | .release _ _ _ => True
  | .advance thread _ =>
    (state.progress thread).Inside ∨
      ∃ request address, state.progress thread = .registering request address

/-- No thread but one is in the unlocked part of `allocate`. -/
def State.Alone (state : State) (thread : ℕ) : Prop :=
  ∀ other, other ≠ thread → ¬ (state.progress other).Inside

/-- No thread works on the registry while another is in the unlocked part of `allocate`. -/
def Undisturbed (state : State) (action : Action) : Prop :=
  TouchesRegistry state action → ∀ other, other ≠ action.thread → ¬ (state.progress other).Inside

/-- A record that is about to be made does not carry the bytes of its kind past `Size`. -/
def BytesFit (state : State) : Action → Prop
  | .trackExternal _ request _ _ _ =>
    (state.registry.stats request.kind).liveBytes + request.size < sizeRange
  | .advance thread _ => ∀ request address, state.progress thread = .recording request address →
    (state.registry.stats request.kind).liveBytes + request.size < sizeRange
  | _ => True

/-- The condition of the integrity result. -/
def Orderly (state : State) (action : Action) : Prop :=
  Undisturbed state action ∧ BytesFit state action

/-! ## The invariant -/

/-- What a thread's place says about the registry it started from and the one it works on. -/
def Position (registry base : Registry) (nodes : List ℕ) : Progress → Prop
  | .searching request address cursor => ¬ request.Invalid address ∧ ∃ front back,
      nodes = front ++ back ∧ cursor = back.head? ∧
        ∀ record ∈ front, (base.records record).address ≠ address
  | .advancing request address record => ¬ request.Invalid address ∧ ∃ front back,
      nodes = front ++ record :: back ∧
        ∀ visited ∈ front ++ [record], (base.records visited).address ≠ address
  | .recording request address => ¬ request.Invalid address ∧
      ∀ record ∈ nodes, (base.records record).address ≠ address
  | .linking address record stage => registry.records = base.records ∧
      (base.records record).address = address ∧ (base.records record).ownsMemory ∧
      (∀ other ∈ nodes, (base.records other).address ≠ address) ∧
      (base.stats (base.records record).kind).liveBytes + (base.records record).size < sizeRange ∧
      finishLink registry record stage = base.linkRecord record
  | _ => True

theorem position_of_not_inside {registry base : Registry} {nodes : List ℕ} {progress : Progress}
    (outside : ¬ progress.Inside) : Position registry base nodes progress := by
  cases progress <;> first | trivial | exact absurd trivial outside

/-- The registry a state's append started from is in order, and so are the places of the
threads. -/
structure InvariantAt (state : State) (base : Registry) (nodes : List ℕ) : Prop where
  holds : base.Holds nodes state.live
  owned : state.Owned nodes
  initialized : state.registry.initialized = base.initialized
  started : base.initialized = true ∨ state.live = [] ∧ ∀ thread, state.progress thread = .idle
  alone : ∀ first second, (state.progress first).Inside → (state.progress second).Inside →
    first = second
  quiet : (∀ thread, (state.progress thread).record = none) → state.registry = base
  position : ∀ thread, Position state.registry base nodes (state.progress thread)

namespace InvariantAt

variable {state later : State} {base : Registry} {nodes : List ℕ} {thread : ℕ} {place : Progress}

/-- A thread that no other thread disturbs has moved. -/
theorem moved (others : state.Alone thread)
    (progress : later.progress = Function.update state.progress thread place)
    (holds : base.Holds nodes later.live) (owned : later.Owned nodes)
    (initialized : later.registry.initialized = base.initialized)
    (started : base.initialized = true) (quiet : place.record = none → later.registry = base)
    (position : Position later.registry base nodes place) : InvariantAt later base nodes := by
  have here : later.progress thread = place := by rw [progress, update_self]
  have elsewhere : ∀ other, other ≠ thread → ¬ (later.progress other).Inside := by
    intro other ne
    rw [progress, update_of_ne ne]
    exact others other ne
  refine ⟨holds, owned, initialized, .inl started, ?_, ?_, ?_⟩
  · intro first second firstInside secondInside
    rw [not_imp_not.mp (elsewhere first) firstInside,
      not_imp_not.mp (elsewhere second) secondInside]
  · intro none
    exact quiet (here ▸ none thread)
  · intro other
    by_cases same : other = thread
    · rw [same, here]
      exact position
    · exact position_of_not_inside (elsewhere other same)

variable (inv : InvariantAt state base nodes)
include inv

/-- A thread outside the unlocked part has moved without touching the registry. -/
theorem bystander (outside : ¬ (state.progress thread).Inside) (placed : ¬ place.Inside)
    (progress : later.progress = Function.update state.progress thread place)
    (registry : later.registry = state.registry) (live : later.live = state.live)
    (started : base.initialized = true) (owned : later.Owned nodes) :
    InvariantAt later base nodes := by
  have here : later.progress thread = place := by rw [progress, update_self]
  have elsewhere : ∀ other, other ≠ thread → later.progress other = state.progress other := by
    intro other ne
    rw [progress, update_of_ne ne]
  have inside : ∀ other, (later.progress other).Inside → (state.progress other).Inside := by
    intro other isInside
    by_cases same : other = thread
    · rw [same, here] at isInside
      exact absurd isInside placed
    · rwa [elsewhere other same] at isInside
  refine ⟨live ▸ inv.holds, owned, registry ▸ inv.initialized, .inl started, ?_, ?_, ?_⟩
  · intro first second firstInside secondInside
    exact inv.alone first second (inside first firstInside) (inside second secondInside)
  · intro none
    rw [registry]
    apply inv.quiet
    intro other
    by_cases same : other = thread
    · rw [same]
      exact Progress.record_eq_none_of_not_inside outside
    · rw [← elsewhere other same]
      exact none other
  · intro other
    rw [registry]
    by_cases same : other = thread
    · rw [same, here]
      exact position_of_not_inside placed
    · rw [elsewhere other same]
      exact inv.position other

/-- Without an append in progress the registry is the one the invariant is about. -/
theorem registry_eq (others : state.Alone thread)
    (here : (state.progress thread).record = none) : state.registry = base := by
  apply inv.quiet
  intro other
  by_cases same : other = thread
  · rw [same]
    exact here
  · exact Progress.record_eq_none_of_not_inside (others other same)

theorem started_of_busy (busy : state.progress thread ≠ .idle) : base.initialized = true := by
  rcases inv.started with started | ⟨-, idle⟩
  · exact started
  · exact absurd (idle thread) busy

end InvariantAt

namespace InvariantAt

variable {state later : State} {base : Registry} {nodes : List ℕ} {thread answer : ℕ}

variable {request : Request}

/-- The steps of `allocate` before it reads the list, and its last one. -/
theorem allocating (inv : InvariantAt state base nodes) (answers : state.HeapAnswers answer)
    (place : state.progress thread = .allocating request)
    (advanced : state.advance thread answer = some later) : InvariantAt later base nodes := by
  have outside : ¬ (state.progress thread).Inside := by rw [place]; exact not_false
  have started := inv.started_of_busy (show state.progress thread ≠ .idle by
      rw [place]; exact nofun)
  rw [State.advance, place] at advanced
  simp only at advanced
  split at advanced
  · cases advanced
    exact inv.bystander outside id rfl rfl rfl started (inv.owned.setProgress nofun nofun)
  · rename_i given
    cases advanced
    have uses : ∀ address use, ({ state with blocks := answer :: state.blocks }.setProgress thread
        (.registering request answer)).Uses nodes address use →
        state.Uses nodes address use ∨ address = answer ∧ use = .payload thread := by
      intro _ _ used
      rcases State.uses_setProgress_cases used with ⟨old, -⟩ | ⟨-, held⟩ | ⟨same, held⟩
      · exact .inl old
      · cases held
      · exact .inr ⟨(Option.some.inj held).symm, same⟩
    exact inv.bystander outside id rfl rfl rfl started (inv.owned.fresh answers given uses rfl)

variable {address : ℕ}

variable (inv : InvariantAt state base nodes)
include inv

theorem freeing
    (place : state.progress thread = .undoing address ∨ state.progress thread = .releasing address)
    (advanced : state.advance thread answer = some later) : InvariantAt later base nodes := by
  have outside : ¬ (state.progress thread).Inside := by
    rcases place with place | place <;> rw [place] <;> exact not_false
  have held : (state.progress thread).payload = some address := by
    rcases place with place | place <;> rw [place] <;> rfl
  have busy : state.progress thread ≠ .idle := by
    rcases place with place | place <;> rw [place] <;> exact nofun
  have freed : later = (state.heapFree address).setProgress thread .idle := by
    rcases place with place | place <;>
      · rw [State.advance, place] at advanced
        exact (Option.some.inj advanced).symm
  subst freed
  exact inv.bystander outside id rfl rfl rfl (inv.started_of_busy busy)
    (inv.owned.heapFree_payload held)

/-- A thread moves on without changing the registry, undisturbed. -/
theorem walked {before next : Progress} (others : state.Alone thread)
    (place : state.progress thread = before) (busy : before ≠ .idle)
    (unlinked : before.record = none)
    (payload : ∀ held, next.payload = some held → before.payload = some held)
    (record : next.record = none) (position : Position state.registry base nodes next) :
    InvariantAt (state.setProgress thread next) base nodes := by
  subst place
  refine moved others rfl inv.holds (inv.owned.setProgress payload ?_)
    inv.initialized (inv.started_of_busy busy)
    (fun _ => inv.registry_eq others unlinked) position
  rw [record]
  exact nofun

section

variable (others : state.Alone thread) (advanced : state.advance thread answer = some later)
include others advanced

theorem registering (place : state.progress thread = .registering request address) :
    InvariantAt later base nodes := by
  have same := inv.registry_eq others (by rw [place]; rfl)
  rw [State.advance, place] at advanced
  simp only at advanced
  split at advanced
  · cases advanced
    exact inv.walked others place nofun rfl (fun _ held => held) rfl trivial
  · rename_i valid
    cases advanced
    refine inv.walked others place nofun rfl (fun _ held => held) rfl
      ⟨valid, [], nodes, rfl, ?_, nofun⟩
    rw [same]
    exact inv.holds.represents.head

theorem searching {cursor : Option ℕ}
    (place : state.progress thread = .searching request address cursor) :
    InvariantAt later base nodes := by
  have same := inv.registry_eq others (by rw [place]; rfl)
  have position := inv.position thread
  rw [place] at position
  obtain ⟨valid, front, back, split, rfl, visited⟩ := position
  cases back with
  | nil =>
    rw [State.advance, place] at advanced
    cases advanced
    refine inv.walked others place nofun rfl (fun _ held => held) rfl ⟨valid, ?_⟩
    rwa [split, append_nil]
  | cons _ rest =>
    rw [State.advance, place] at advanced
    simp only [List.head?_cons] at advanced
    split at advanced
    · cases advanced
      exact inv.walked others place nofun rfl (fun _ held => held) rfl trivial
    · rename_i ne
      cases advanced
      refine inv.walked others place nofun rfl (fun _ held => held) rfl
        ⟨valid, front, rest, split, ?_⟩
      intro other mem
      rcases mem_append.mp mem with early | here
      · exact visited other early
      · rw [mem_singleton.mp here, ← same]
        exact ne

theorem advancing {record : ℕ} (place : state.progress thread = .advancing request address record) :
    InvariantAt later base nodes := by
  have same := inv.registry_eq others (by rw [place]; rfl)
  have position := inv.position thread
  rw [place] at position
  obtain ⟨valid, front, back, split, visited⟩ := position
  rw [State.advance, place] at advanced
  cases advanced
  refine inv.walked others place nofun rfl (fun _ held => held) rfl
    ⟨valid, front ++ [record], back, by simpa using split, ?_, visited⟩
  have represents := inv.holds.represents
  rw [split] at represents
  rw [same]
  exact represents.neighbours.2

theorem recording (answers : state.HeapAnswers answer)
    (place : state.progress thread = .recording request address)
    (fits : (state.registry.stats request.kind).liveBytes + request.size < sizeRange) :
    ∃ laterBase, InvariantAt later laterBase nodes := by
  have same := inv.registry_eq others (by rw [place]; rfl)
  have position := inv.position thread
  rw [place] at position
  obtain ⟨_, unregistered⟩ := position
  rw [State.advance, place] at advanced
  simp only at advanced
  split at advanced
  · cases advanced
    exact ⟨base, inv.walked others place nofun rfl (fun _ held => held) rfl trivial⟩
  · rename_i given
    cases advanced
    have absent := (answers.resolve_left given).2
    have fresh : answer ∉ nodes := fun mem =>
      absent (inv.owned.block answer .node mem).1
    refine ⟨base.writeRecord answer (request.record address true),
      moved others rfl (inv.holds.writeRecord fresh _) ?_ ?_
        (inv.started_of_busy (by rw [place]; exact nofun)) nofun ?_⟩
    · apply @State.Owned.fresh _ _ _ _ _ (.inFlight thread) inv.owned answers given _ rfl
      intro _ _ used
      rcases State.uses_setProgress_cases used with ⟨old, -⟩ | ⟨same, held⟩ | ⟨rfl, held⟩
      · exact .inl old
      · exact .inr ⟨(Option.some.inj held).symm, same⟩
      · left
        rw [State.uses_payload, place]
        exact held
    · exact inv.initialized
    · rw [same] at fits
      have written : (base.writeRecord answer (request.record address true)).records answer =
          request.record address true := update_self _ _ _
      rw [Position, written]
      refine ⟨by rw [← same]; rfl, rfl, rfl, ?_, fits, ?_⟩
      · intro other mem
        have ne : other ≠ answer := fun equal => fresh (equal ▸ mem)
        simpa [Registry.writeRecord, ne] using unregistered other mem
      · rw [finishLink_enter, ← same]
        rfl

theorem linking {record : ℕ} {stage : LinkStage}
    (place : state.progress thread = .linking address record stage) :
    ∃ laterBase laterNodes, InvariantAt later laterBase laterNodes := by
  have busy : state.progress thread ≠ .idle := by rw [place]; exact nofun
  have started := inv.started_of_busy busy
  have payload : (state.progress thread).payload = some address := by rw [place]; rfl
  have inFlight : (state.progress thread).record = some record := by rw [place]; rfl
  have position := inv.position thread
  rw [place] at position
  obtain ⟨records, named, owns, unregistered, fits, finished⟩ := position
  rw [State.advance, place] at advanced
  simp only at advanced
  have keptRecords := linkStep_records state.registry record stage
  have keptInitialized := linkStep_initialized state.registry record stage
  split at advanced
  · rename_i registry next stepped
    cases advanced
    rw [stepped] at keptRecords keptInitialized
    refine ⟨base, nodes, moved others rfl inv.holds ?_
      (keptInitialized.trans inv.initialized) started nofun ?_⟩
    · have owned : State.Owned { state with registry } nodes := ⟨inv.owned.block, inv.owned.single⟩
      apply owned.setProgress
      · exact fun _ held => payload.trans held
      · exact fun _ held => inFlight.trans held
    · exact ⟨keptRecords.trans records, named, owns, unregistered, fits,
        (finishLink_of_some stepped).symm.trans finished⟩
  · rename_i registry stepped
    cases advanced
    have linked : registry = base.linkRecord record :=
      (finishLink_of_none stepped).symm.trans finished
    have fresh : record ∉ nodes := fun mem =>
      nomatch inv.owned.single record .node (.inFlight thread) mem inFlight
    have untracked : (base.records record).address ∉ state.live.map LiveResource.address := by
      rw [named, ← inv.holds.tracked, map_map]
      intro mem
      obtain ⟨other, otherMem, equal⟩ := mem_map.mp mem
      exact unregistered other otherMem equal
    have nonzero : (base.records record).address ≠ 0 := by
      rw [named]
      exact (inv.owned.block address (.payload thread) payload).2.1.ne'
    have bounded : ∀ node ∈ nodes ++ [record], 0 < node ∧ node < 2 ^ 64 := by
      intro node mem
      rcases mem_append.mp mem with old | new
      · exact (inv.owned.block node .node old).2
      · rw [mem_singleton.mp new]
        exact (inv.owned.block record (.inFlight thread) inFlight).2
    have shown : (registry.records record).resource = (base.records record).resource := by
      rw [linked]
      rfl
    refine ⟨base.linkRecord record, nodes ++ [record], moved others rfl ?_ ?_ ?_ started
      (fun _ => linked) trivial⟩
    · have holds := inv.holds.linkRecord fresh untracked nonzero bounded fits
      rwa [← shown] at holds
    · apply inv.owned.linked payload inFlight
      rw [shown]
      exact named
    · exact congrArg Registry.initialized linked

end

/-- Every step of a thread in `allocate` or at the end of `release`. -/
theorem advance
    (orderly : Orderly state (.advance thread answer)) (answers : state.HeapAnswers answer)
    (advanced : state.advance thread answer = some later) :
    ∃ laterBase laterNodes, InvariantAt later laterBase laterNodes := by
  have others : (state.progress thread).Inside → state.Alone thread :=
    fun inside => orderly.1 (.inl inside)
  cases place : state.progress thread with
  | idle =>
    rw [State.advance, place] at advanced
    cases advanced
  | allocating => exact ⟨base, nodes, inv.allocating answers place advanced⟩
  | registering request address =>
    exact ⟨base, nodes, inv.registering (orderly.1 (.inr ⟨request, address, place⟩)) advanced place⟩
  | searching => exact ⟨base, nodes, inv.searching (others (by rw [place]; trivial)) advanced place⟩
  | advancing => exact ⟨base, nodes, inv.advancing (others (by rw [place]; trivial)) advanced place⟩
  | recording request address =>
    obtain ⟨laterBase, kept⟩ := inv.recording (others (by rw [place]; trivial)) advanced answers
      place (orderly.2 request address place)
    exact ⟨laterBase, nodes, kept⟩
  | linking => exact inv.linking (others (by rw [place]; trivial)) advanced place
  | undoing => exact ⟨base, nodes, inv.freeing (.inl place) advanced⟩
  | releasing => exact ⟨base, nodes, inv.freeing (.inr place) advanced⟩

end InvariantAt

end RosKernel.ResourceManager
