import RosKernel.Kernel.CoreMoves

/-!
# The functions of the core are runs of moves

Each function of the re-entrant core, run over an environment whose calls are
runs of moves, is such a run itself; by induction on the depth every bounded core
is one.
-/

namespace RosKernel

open Option

/-- The calls an environment supplies are runs of moves below any other calls. -/
structure Env.Runs (env : Env) : Prop where
  publish : ∀ {record : KernelEventRecord} {kernel after : Kernel} (frames : List Frame),
    kernel.currentThread.isSome →
    record.OfCore ∨ frames = [.external] →
    Kernel.Calm frames →
    env.publish record kernel = some after →
    Kernel.CoreRun (frames, kernel) (frames, after)
  destroyProcess : ∀ {id status} {kernel after : Kernel} (frames : List Frame),
    kernel.currentThread.isSome →
    Kernel.Calm frames →
    kernel.processThreads id = [] →
    env.destroyProcess id kernel = some (status, after) →
    Kernel.CoreRun (frames, kernel) (frames, after)

attribute [class] Env.Runs

namespace Kernel

section

variable {env : Env} [runs : env.Runs] {kernel after : Kernel} {status : Status}

variable {id : ThreadId} {thread : Thread} (frames : List Frame)

theorem prepareReady_run (cause : WakeCause) (asked : Asked id frames)
    (found : kernel.thread id = some thread) (alive : thread.currentState ≠ .terminated)
    (notQueued : thread.inReadyQueue = false) (guarded : kernel.currentThread ≠ some id ∨
      thread.currentState = .waiting ∧ frames.head? = some (.requested id)) :
    CoreRun (frames, kernel) (frames, kernel.prepareReady id cause thread) := by
  unfold prepareReady
  cases thread.parent with
  | none => exact .single (.leaveWait _ _ _ _ thread asked found alive notQueued guarded)
  | some parent =>
    exact .tail (.single (.revive _ kernel parent))
      (.leaveWait _ _ _ _ thread asked found alive notQueued guarded)

theorem thread_prepareReady {cause : WakeCause} (other : ThreadId) :
    (kernel.prepareReady id cause thread).thread other =
      if other = id then (kernel.thread other).map (leaveWait cause)
      else kernel.thread other := by
  unfold prepareReady
  cases thread.parent with
  | none | some => exact thread_modifyThread _ _ _ _

theorem requestReschedule_thread (id other : ThreadId) :
    (kernel.requestReschedule id).thread other = kernel.thread other := by
  unfold requestReschedule
  split <;> rfl

variable {record : KernelEventRecord}

theorem publishIf_run
    {condition : Prop} [Decidable condition] (active : kernel.currentThread.isSome)
    (ofCore : record.OfCore) (calm : Calm frames)
    (call : (if condition then env.publish record kernel else some kernel) = some after) :
    CoreRun (frames, kernel) (frames, after) := by
  split at call
  · exact runs.publish frames active (.inl ofCore) calm call
  · cases call
    exact .refl

/-- A transition is a run, after which the thread is not waiting unless it was
refused as already queued. -/
theorem transitionThreadToReady_run (active : kernel.currentThread.isSome)
    (frames : List Frame) {atTail : Bool} {cause : WakeCause} (asked : Asked id frames)
    (guarded : ∀ thread, kernel.thread id = some thread → kernel.currentThread ≠ some id ∨
        thread.currentState = .waiting ∧ frames.head? = some (.requested id))
    (call : kernel.transitionThreadToReady env id atTail cause = some (status, after)) :
    CoreRun (frames, kernel) (frames, after) ∧ ∀ thread, after.thread id = some thread →
        thread.currentState ≠ .waiting ∨ thread.inReadyQueue = true := by
  simp only [transitionThreadToReady, bind_eq_some] at call
  obtain ⟨thread, found, call⟩ := call
  split at call
  · rename_i dead
    cases call
    exact ⟨.refl, of_found found (.inl (by simp [dead]))⟩
  split at call
  · rename_i queued
    cases call
    exact ⟨.refl, of_found found (.inr queued)⟩
  rename_i alive notQueued
  have prepared := prepareReady_run frames cause asked found alive (by simpa using notQueued)
    (guarded thread found)
  have preparedFound : (kernel.prepareReady id cause thread).thread id =
      some (leaveWait cause thread) := by
    rw [thread_prepareReady, if_pos rfl, found]
    rfl
  rcases push : (kernel.prepareReady id cause thread).readyQueuePush id atTail with
    ⟨pushStatus, pushed⟩
  rw [push] at call
  rcases readyQueuePush_cases push with ⟨refused, rfl⟩ | ⟨candidate, candidateFound,
    eligible, valid, unqueued, rfl, rfl⟩
  · rw [if_pos refused] at call
    cases call
    exact ⟨prepared, of_found preparedFound (.inl (by simp [leaveWait]))⟩
  · obtain rfl : leaveWait cause thread = candidate :=
      Option.some.inj (preparedFound.symm.trans candidateFound)
    rw [if_neg (by simp)] at call
    simp only [bind_eq_some] at call
    obtain ⟨_, publication, _, _, result⟩ := call
    cases result
    have linked : CoreRun (frames, kernel) (.readied id :: frames,
        (kernel.prepareReady id cause thread).linkReady id
          (leaveWait cause thread).currentPriority atTail) := by
      refine prepared.tail (.link _ _ _ _ _ asked candidateFound rfl ?_ valid unqueued ?_)
      case refine_2 =>
        rw [prepared.frame.currentThread]
        exact (guarded thread found).imp_right And.right
      simp only [threadCanEnterReadyQueue, Bool.and_eq_true, decide_eq_true_eq] at eligible
      exact eligible.2
    have publicationRun := publishIf_run (.readied id :: frames)
      (linked.active active) (threadRecord_ofCore _ _ _ _ _) (calm_cons rfl _)
      publication
    refine ⟨(linked.trans publicationRun).tail (.announce _ _ _), ?_⟩
    intro final finalFound
    rw [requestReschedule_thread] at finalFound
    refine .inl (publicationRun.frame.not_waiting ?_ final finalFound)
    intro _ otherFound
    rw [thread_linkReady, if_pos rfl, preparedFound] at otherFound
    cases otherFound
    simp [leaveWait]

/-! ## Destroying threads -/

theorem unlink_run (found : kernel.thread id = some thread)
    (notCurrent : kernel.currentThread ≠ some id) :
    CoreRun (frames, kernel) (frames, kernel.readyQueueRemove id) ∧
      ∃ remaining, (kernel.readyQueueRemove id).thread id = some remaining ∧
        remaining.parent = thread.parent ∧
        (remaining.inReadyQueue = true →
          ¬ remaining.currentPriority < threadPriorityLevelCount) := by
  rcases readyQueueRemove_cases kernel id with ⟨same, unqueued⟩ | ⟨_,
    queuedFound, queued, valid, removed⟩
  · rw [same]
    exact ⟨.refl, thread, found, rfl, unqueued thread found⟩
  · cases found.symm.trans queuedFound
    rw [removed]
    refine ⟨.single (.unlink _ _ _ _ queuedFound queued valid (.inl notCurrent)),
      { thread with inReadyQueue := false }, ?_, rfl, by simp⟩
    rw [thread_unlinkReady, if_pos rfl, queuedFound]
    rfl

/-- What `destroy_thread` does before its publication to a thread that is not
current. -/
theorem forget_terminated (notCurrent : kernel.currentThread ≠ some id) :
    ((kernel.forget id).modifyThread id fun thread =>
        { thread with currentState := .terminated }) =
      ((kernel.readyQueueRemove id).sleepQueueRemove id).modifyThread id endThread := by
  have stillOther : ¬ ((kernel.readyQueueRemove id).sleepQueueRemove id).currentThread =
      some id := by
    rw [readyQueueRemove_eq]
    exact notCurrent
  simp only [forget, stillOther, if_false, modifyThread_modifyThread]
  rfl

/-- `reap_retired_threads` begins to destroy the head of its list. -/
theorem reap_run {rest : List ThreadId}
    (head : kernel.retiredThreads = id :: rest) (found : kernel.thread id = some thread)
    (notCurrent : kernel.currentThread ≠ some id) (calm : Calm frames) :
    CoreRun (frames, kernel)
      (.dying id :: frames,
        (({ kernel with retiredThreads := rest } : Kernel).forget id).modifyThread id
          fun thread => { thread with currentState := .terminated }) := by
  obtain ⟨unlinked, remaining, remainingFound, -, unqueued⟩ := unlink_run frames found notCurrent
  have frame := unlinked.frame
  have detached : ({ kernel with retiredThreads := rest } : Kernel).readyQueueRemove id =
      { kernel.readyQueueRemove id with retiredThreads := rest } := by
    have sameFound : ({ kernel with retiredThreads := rest } : Kernel).thread id = some thread :=
      found
    simp only [readyQueueRemove, sameFound, found]
    split <;> rfl
  have sameHead : (kernel.readyQueueRemove id).retiredThreads = id :: rest := by
    rw [readyQueueRemove_eq]
    exact head
  rw [forget_terminated (by exact notCurrent), detached]
  refine unlinked.tail (.reap _ _ _ _ remaining sameHead remainingFound ?_ unqueued calm)
  rw [frame.currentThread]
  exact notCurrent

/-- `destroy_process` begins to destroy one of its threads. -/
theorem terminate_run {owner : ProcessId} {process : Process}
    (found : kernel.thread id = some thread) (mem : thread.parent = some owner)
    (owned : kernel.process owner = some process) (closed : process.currentState = .terminated)
    (notCurrent : kernel.currentThread ≠ some id) (calm : Calm frames) :
    CoreRun (frames, kernel) (.dying id :: frames, (kernel.forget id).modifyThread id fun thread =>
          { thread with currentState := .terminated }) := by
  obtain ⟨unlinked, remaining, remainingFound, parent, unqueued⟩ :=
    unlink_run frames found notCurrent
  have sameProcess : (kernel.readyQueueRemove id).process owner = some process := by
    rw [readyQueueRemove_eq]
    exact owned
  rw [forget_terminated notCurrent]
  refine unlinked.tail (.terminate _ _ _ remaining owner process remainingFound
    (parent.trans mem) sameProcess closed ?_ unqueued calm)
  rw [unlinked.frame.currentThread]
  exact notCurrent

theorem CoreRun.terminated {before : Kernel} {frames remaining : List Frame}
    (run : CoreRun (frames, before) (remaining, kernel))
    (terminated : ∀ thread, before.thread id = some thread → thread.currentState = .terminated)
    (found : kernel.thread id = some thread) :
    thread.currentState = .terminated := by
  obtain ⟨old, oldFound, -, -, -, -, -, stays⟩ := run.frame.thread id thread found
  exact stays (terminated old oldFound)

/-- `destroy_thread` once it is known how it begins. -/
theorem destroyThread_run {start : List Frame × Kernel}
    (active : kernel.currentThread.isSome) (frames : List Frame)
    (found : kernel.thread id = some thread) (notCurrent : kernel.currentThread ≠ some id)
    (calm : Calm frames)
    (begun : (∀ owner, thread.parent = some owner → kernel.process owner ≠ none) →
      CoreRun start (.dying id :: frames, (kernel.forget id).modifyThread id fun thread =>
            { thread with currentState := .terminated }))
    (call : kernel.destroyThread env id = some (status, after)) :
    CoreRun start (frames, after) := by
  unfold destroyThread at call
  rw [found] at call
  simp only [bind_eq_some] at call
  obtain ⟨published, publication, remaining, remainingFound, call⟩ := call
  rw [forget_terminated notCurrent] at publication begun
  set ended := ((kernel.readyQueueRemove id).sleepQueueRemove id).modifyThread id endThread
    with isEnded
  obtain ⟨unlinked, linked, linkedFound, sameParent, -⟩ := unlink_run frames found notCurrent
  have unlinkedFrame := unlinked.frame
  have endedActive : ended.currentThread.isSome := unlinked.active active
  have publicationRun := runs.publish (.dying id :: frames) endedActive
    (.inl (threadRecord_ofCore _ _ _ _ _)) (calm_cons rfl _) publication
  have endedFound : ended.thread id = some (endThread linked) := by
    rw [isEnded, thread_modifyThread, if_pos rfl]
    exact congrArg (Option.map endThread) linkedFound
  have terminated : remaining.currentState = .terminated :=
    publicationRun.terminated (of_found endedFound rfl) remainingFound
  have remainingParent : remaining.parent = thread.parent := by
    obtain ⟨old, oldFound, parent, -⟩ := publicationRun.frame.thread id remaining remainingFound
    cases endedFound.symm.trans oldFound
    exact parent.trans sameParent
  have removed (owned : ∀ owner, thread.parent = some owner → kernel.process owner ≠ none) :
      CoreRun start (frames, { published with threads := published.threads.remove id }) :=
    ((begun owned).trans publicationRun).tail (.unregister _ _ _ _ remainingFound terminated)
  have removedActive : published.currentThread.isSome := publicationRun.active endedActive
  cases parentCase : remaining.parent with
  | none =>
    rw [parentCase] at call
    cases call
    refine removed fun owner mem => ?_
    rw [← remainingParent, parentCase] at mem
    cases mem
  | some parent =>
    rw [parentCase] at call
    simp only [bind_eq_some] at call
    obtain ⟨process, processFound, call⟩ := call
    have owned : ∀ owner, thread.parent = some owner → kernel.process owner ≠ none := by
      intro _ mem absent
      rw [← remainingParent, parentCase] at mem
      cases mem
      obtain ⟨middle, middleFound, -⟩ := publicationRun.frame.process parent process processFound
      obtain ⟨_, oldFound, -⟩ := unlinkedFrame.process parent middle middleFound
      cases absent.symm.trans oldFound
    split at call
    · rename_i lastThread
      simp only [bind_eq_some] at call
      obtain ⟨⟨_, _⟩, destruction, result⟩ := call
      cases result
      exact (removed owned).trans
        (runs.destroyProcess frames removedActive calm lastThread.1 destruction)
    · cases call
      exact removed owned

variable {kernel after : Kernel} (rounds : ℕ)

theorem reapRetiredThreads_run (active : kernel.currentThread.isSome) (calm : Calm frames)
    (call : kernel.reapRetiredThreads env rounds = some after) :
    CoreRun (frames, kernel) (frames, after) := by
  induction rounds generalizing kernel with
  | zero => cases call
  | succ _ ih =>
    unfold reapRetiredThreads at call
    split at call
    · cases call
      exact .refl
    · rename_i retired rest head
      split at call
      · cases call
        exact .refl
      · rename_i notCurrent
        simp only [bind_eq_some] at call
        obtain ⟨_, found, ⟨_, _⟩, destruction, call⟩ := call
        have run := destroyThread_run (by exact active) frames (by exact found)
          (by exact notCurrent) calm (fun _ => reap_run frames head found notCurrent calm)
          destruction
        exact run.trans (ih (run.active active) call)

/-! ## Waking and publishing -/

/-- `Scheduler::enqueue` is a run that settles the thread it was called for. -/
theorem enqueue_run (active : kernel.currentThread.isSome) (frames : List Frame)
    (asked : Asked id frames) (call : kernel.enqueue env id = some (status, after)) :
    CoreRun (frames, kernel) (frames, after) ∧ (after.currentThread = some id ∨
        ∀ thread, after.thread id = some thread →
          thread.currentState ≠ .waiting ∨ thread.inReadyQueue = true) := by
  simp only [enqueue, bind_eq_some] at call
  obtain ⟨reaped, reaping, call⟩ := call
  have run := reapRetiredThreads_run frames env.rounds active asked.calm reaping
  have reapedActive := run.active active
  cases found : reaped.thread id with
  | none =>
    rw [found] at call
    cases call
    exact ⟨run, .inr (by simp [found])⟩
  | some =>
    rw [found] at call
    dsimp only at call
    split at call
    · rename_i dead
      cases call
      exact ⟨run, .inr (of_found found (.inl (by simp [dead])))⟩
    split at call
    · rename_i isCurrent
      cases call
      exact ⟨run, .inl isCurrent⟩
    split at call
    · rename_i noCurrent
      simp [noCurrent] at reapedActive
    · rename_i notCurrent _
      obtain ⟨transition, settled⟩ := transitionThreadToReady_run reapedActive
        frames asked (fun _ _ => .inl notCurrent) call
      exact ⟨run.trans transition, .inr settled⟩

/-- `wake_waiter` from the state in which it has detached the waiter. -/
theorem woken_run {frames : List Frame} {before : List Frame × Kernel} {waiter : ThreadId}
    (active : kernel.currentThread.isSome)
    (detached : CoreRun before (.waking waiter :: frames, kernel))
    (call : kernel.enqueue env waiter = some (status, after)) :
    CoreRun before (frames, after) := by
  obtain ⟨run, settled⟩ := enqueue_run active (.waking waiter :: frames) (.inl rfl) call
  exact (detached.trans run).tail (.woken _ _ _ settled)

variable {subscription : SubscriptionId}

theorem wakeWaiter_run (active : kernel.currentThread.isSome)
    (frames : List Frame) (origin : frames = [.unsubscribing] ∨
      ∀ subscriber, kernel.subscriber subscription = some subscriber →
        kernel.processThreads subscriber.ownerProcessId = [])
    (calm : Calm frames) (call : kernel.wakeWaiter env subscription = some after) :
    CoreRun (frames, kernel) (frames, after) := by
  simp only [wakeWaiter, bind_eq_some] at call
  obtain ⟨subscriber, found, call⟩ := call
  cases waits : subscriber.waitingThread with
  | none =>
    rw [waits] at call
    cases call
    exact .refl
  | some waiter =>
    rw [waits] at call
    simp only [bind_eq_some] at call
    obtain ⟨⟨_, _⟩, enqueued, result⟩ := call
    cases result
    have detached : CoreRun (frames, kernel)
        (.waking waiter :: frames, kernel.detachWaiter subscription waiter) :=
      .single (.detach _ _ _ _ _ found waits
        (origin.imp_right fun departed => departed subscriber found) calm)
    exact woken_run (by exact active) detached enqueued

theorem heapAlloc_run (condition : Bool) {allocated : Bool}
    (call : (if condition then kernel.heapAlloc else (true, kernel)) = (allocated, after)) :
    CoreRun (frames, kernel) (frames, after) := by
  split at call
  · cases call
    exact .single (.bookkeeping _ _ kernel.heapOutcomes.tail kernel.exitRecords)
  · cases call
    exact .refl

theorem subscriber_heapAlloc (condition : Bool) {allocated : Bool}
    (call : (if condition then kernel.heapAlloc else (true, kernel)) =
      (allocated, after)) (subscription : SubscriptionId) :
    after.subscriber subscription = kernel.subscriber subscription := by
  split at call <;> (cases call; rfl)

/-- `enqueue_record` takes a publication over one subscriber. -/
theorem enqueueRecord_run (active : kernel.currentThread.isSome)
    (frames : List Frame) {subscriber : EventSubscriber}
    (found : kernel.subscriber subscription = some subscriber)
    (accepted : subscriptionMatches subscriber.request record = true)
    (call : kernel.enqueueRecord env subscription record = some after) :
    CoreRun (.publishing record (some subscription) :: frames, kernel)
      (.delivered record subscription :: frames, after) := by
  simp only [enqueueRecord, found, bind_eq_bind, bind_some] at call
  rcases allocation : (if subscriber.needsAllocation (subscriber.queuedCount + 1) then
    kernel.heapAlloc else (true, kernel)) with ⟨allocated, charged⟩
  rw [allocation] at call
  have chargedRun := heapAlloc_run (.publishing record (some subscription) :: frames) _ allocation
  have chargedFound : charged.subscriber subscription = some subscriber := by
    rw [subscriber_heapAlloc _ allocation, found]
  rcases store : subscriber.storeRecord record allocated with ⟨stored, updated⟩
  rw [store] at call
  have sameWaiter : updated.waitingThread = subscriber.waitingThread :=
    congrArg (fun triple => triple.2.2) (identity_of_storeRecord store)
  have silentRun (silent : stored = true → subscriber.waitingThread = none) :
      CoreRun (.publishing record (some subscription) :: frames, kernel)
        (.delivered record subscription :: frames,
          charged.modifySubscriber subscription fun _ => updated) :=
    chargedRun.tail (.store _ _ _ _ _ _ _ _ chargedFound accepted store silent)
  cases stored with
  | false =>
    cases call
    exact silentRun (by simp)
  | true =>
    simp only [if_true, wakeWaiter, bind_eq_some,
      subscriber_modifySubscriber, chargedFound, map_some,
      Option.some.injEq] at call
    obtain ⟨_, rfl, call⟩ := call
    cases waits : subscriber.waitingThread with
    | none =>
      rw [sameWaiter, waits] at call
      cases call
      exact silentRun fun _ => waits
    | some waiter =>
      rw [sameWaiter, waits] at call
      simp only [bind_eq_some] at call
      obtain ⟨⟨_, _⟩, enqueued, result⟩ := call
      cases result
      have detached := chargedRun.tail
        (.storeWake _ _ _ _ _ _ _ waiter chargedFound accepted store waits)
      exact woken_run (CoreRun.active detached active) detached enqueued

variable {cursor : Option SubscriptionId}

theorem publishFrom_run (active : kernel.currentThread.isSome)
    (call : kernel.publishFrom env record rounds cursor = some after) :
    CoreRun (.publishing record cursor :: frames, kernel) (frames, after) := by
  fun_induction publishFrom env record rounds cursor kernel with
  | case1 =>
    cases call
    exact .single (.published _ _ _)
  | case2 => cases call
  | case3 _ subscription kernel ih =>
    simp only [bind_eq_some] at call
    obtain ⟨_, found, middle, delivery, _, linked, call⟩ := call
    have delivered : CoreRun (.publishing record (some subscription) :: frames, kernel)
        (.delivered record subscription :: frames, middle) := by
      split at delivery
      · rename_i accepted
        exact enqueueRecord_run active frames found accepted delivery
      · cases delivery
        exact .single (.skip _ _ _ _)
    have advanced := delivered.tail (.advance _ _ _ _ (by rw [linked]; simp))
    exact advanced.trans (ih _ (delivered.active active) call)

theorem publishRecord_run (active : kernel.currentThread.isSome)
    (frames : List Frame) (family : record.OfCore ∨ frames = [.external]) (calm : Calm frames)
    (call : kernel.publishRecord env record = some after) :
    CoreRun (frames, kernel) (frames, after) :=
  .head (.publish _ _ _ family calm) (publishFrom_run frames env.rounds (by exact active) call)

/-! ## Destroying processes -/

/-- `unsubscribe_process` for a process whose threads are gone. -/
theorem unsubscribeFrom_run {owner : ProcessId} (active : kernel.currentThread.isSome)
    (calm : Calm frames) (empty : kernel.processThreads owner = [])
    (call : kernel.unsubscribeFrom env owner rounds cursor = some after) :
    CoreRun (frames, kernel) (frames, after) := by
  fun_induction unsubscribeFrom env owner rounds cursor kernel with
  | case1 =>
    cases call
    exact .refl
  | case2 => cases call
  | case3 _ subscription kernel ih =>
    simp only [bind_eq_some] at call
    obtain ⟨_, found, middle, release, call⟩ := call
    have released : CoreRun (frames, kernel) (frames, middle) := by
      split at release
      · rename_i owns
        simp only [destroySubscriber, bind_eq_some] at release
        obtain ⟨_, waking, remaining, linked, result⟩ := release
        cases result
        have wokenRun := wakeWaiter_run active frames
          (.inr (of_found found (by rwa [owns]))) calm waking
        obtain ⟨_, oldFound, sameOwner, -⟩ :=
          wokenRun.subscribersKept subscription remaining linked
        cases found.symm.trans oldFound
        refine wokenRun.tail (.unsubscribe _ _ _ remaining linked ?_)
        rw [sameOwner, owns]
        exact wokenRun.frame.processThreads_nil empty
      · cases release
        exact .refl
    exact released.trans (ih _ (released.active active)
      (released.frame.processThreads_nil empty) call)

/-- The current thread is not one of the process's threads. -/
def SparesCurrent (kernel : Kernel) (process : ProcessId) : Prop :=
  ∀ id ∈ kernel.processThreads process, kernel.currentThread ≠ some id

theorem CoreFrame.sparesCurrent {before after : Kernel} (frame : CoreFrame before after)
    {process : ProcessId}
    (spares : before.SparesCurrent process) : after.SparesCurrent process := by
  intro id mem
  rw [frame.currentThread]
  apply spares
  obtain ⟨thread, found, parent⟩ := mem_processThreads_iff.mp mem
  obtain ⟨old, oldFound, sameParent, -⟩ := frame.thread id thread found
  exact mem_processThreads_iff.mpr ⟨old, oldFound, sameParent.symm.trans parent⟩

theorem destroyThreads_run {id : ProcessId} {status : Status} (active : kernel.currentThread.isSome)
    (calm : Calm frames) (spares : kernel.SparesCurrent id) (closed : kernel.Closed id)
    (call : kernel.destroyThreads env id rounds = some (status, after)) :
    CoreRun (frames, kernel) (frames, after) ∧ (status = .ok → after.processThreads id = []) := by
  induction rounds generalizing kernel with
  | zero => cases call
  | succ _ ih =>
    unfold destroyThreads at call
    split at call
    · rename_i threads
      cases call
      exact ⟨.refl, fun _ => threads⟩
    · rename_i thread rest threads
      simp only [bind_eq_some] at call
      obtain ⟨⟨_, destroyed⟩, destruction, call⟩ := call
      have mem : thread ∈ kernel.processThreads id := by simp [threads]
      obtain ⟨_, found, parent⟩ := mem_processThreads_iff.mp mem
      have notCurrent := spares thread mem
      have run : CoreRun (frames, kernel) (frames, destroyed) := by
        refine destroyThread_run active frames found notCurrent calm (fun owned => ?_) destruction
        obtain ⟨process, processFound⟩ := ne_none_iff_exists'.mp (owned id parent)
        exact terminate_run frames found parent processFound
          (closed process processFound) notCurrent calm
      split at call
      · rename_i failed
        cases call
        exact ⟨run, fun isOk => absurd isOk failed⟩
      · obtain ⟨laterRun, emptied⟩ := ih (run.active active)
          (run.frame.sparesCurrent spares) (run.closed closed) call
        exact ⟨run.trans laterRun, emptied⟩

theorem rememberExitStatus_run (id : ProcessId) (process : Process) :
    CoreRun (frames, kernel) (frames, kernel.rememberExitStatus id process) := by
  unfold rememberExitStatus heapAlloc
  dsimp only
  split_ifs <;> exact .single (.bookkeeping ..)

theorem retireProcess_run (id : ProcessId) (process : Process)
    (empty : kernel.processThreads id = []) :
    CoreRun (frames, kernel) (frames, kernel.retireProcess id process) := by
  have removed : kernel.retireProcess id process = { kernel.rememberExitStatus id process with
        processes :=
          ((kernel.rememberExitStatus id process).orphanLaunchedProcesses
            id).processes.remove id } := by
    unfold retireProcess orphanLaunchedProcesses
    split <;> rfl
  rw [removed]
  have remembered : CoreRun (frames, kernel)
      (frames, kernel.rememberExitStatus id process) :=
    rememberExitStatus_run frames id process
  exact remembered.tail (.removeProcess _ _ _ (remembered.frame.processThreads_nil empty))

/-- Destroying a process is a run from the state in which it is terminated. -/
theorem destroyProcess_run (active : kernel.currentThread.isSome)
    (frames : List Frame) (calm : Calm frames) {id : ProcessId} (spares : kernel.SparesCurrent id)
    (call : kernel.destroyProcess env id = some (status, after)) :
    (kernel.process id = none ∧ after = kernel) ∨
      CoreRun (frames, kernel.modifyProcess id fun process =>
          { process with currentState := .terminated })
        (frames, after) := by
  unfold destroyProcess at call
  cases found : kernel.process id with
  | none =>
    rw [found] at call
    cases call
    exact .inl ⟨rfl, rfl⟩
  | some =>
    refine .inr ?_
    rw [found] at call
    simp only [bind_eq_some] at call
    obtain ⟨⟨_, _⟩, loop, call⟩ := call
    have closed : (kernel.modifyProcess id fun process =>
        { process with currentState := .terminated }).Closed id := by
      intro process processFound
      rw [process_modifyProcess, if_pos rfl] at processFound
      obtain ⟨_, -, rfl⟩ := map_eq_some_iff.mp processFound
      rfl
    obtain ⟨emptiedRun, emptiedThreads⟩ := destroyThreads_run frames env.rounds
      (by exact active) calm (by exact spares) closed loop
    split at call
    · cases call
      exact emptiedRun
    · rename_i succeeded
      simp only [bind_eq_some] at call
      obtain ⟨_, _, published, publication, process, _, _, release, result⟩ := call
      cases result
      have publicationRun := runs.publish frames (emptiedRun.active active)
        (.inl (processRecord_ofCore _ _ _)) calm publication
      have empty : published.processThreads id = [] :=
        publicationRun.frame.processThreads_nil (emptiedThreads (not_not.mp succeeded))
      have retiring := retireProcess_run frames id process empty
      have retired := (emptiedRun.trans publicationRun).trans retiring
      exact retired.trans (unsubscribeFrom_run frames env.rounds
        (CoreRun.active retired active) calm
        (retiring.frame.processThreads_nil empty) release)

end

/-- Every bounded core runs by moves. -/
instance env_runs (depth : ℕ) : (env depth).Runs := by
  induction depth with
  | zero =>
    exact ⟨fun _ _ _ _ call => (by cases call), fun _ _ _ _ call => (by cases call)⟩
  | succ depth ih =>
    refine ⟨fun frames active family calm call =>
      publishRecord_run active frames family calm call, ?_⟩
    intro id status kernel after frames active calm empty call
    have spares : kernel.SparesCurrent id := by
      intro thread member
      rw [empty] at member
      cases member
    rcases destroyProcess_run active frames calm spares call with
      ⟨-, rfl⟩ | run
    · exact .refl
    · exact .head (.closeProcess _ _ _ empty) run

end Kernel

end RosKernel
