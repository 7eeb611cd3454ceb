import RosKernel.Kernel.ParkedWaiters

/-!
# Waiting for events

Between its check of the queue and the switch, `KernelEventBroker::wait` is open to
records about the thread that is dispatched instead: `bind_current_thread`
publishes while `g_current_thread` still names the waiter, `wake_waiter` detaches
the waiter, and `Scheduler::enqueue` refuses to wake the current thread. A wait
that no such record concerns loses no wake-up.
-/

namespace RosKernel

/-- Whether a subscription matches the records about a thread. -/
def threadMatches (request : SubscriptionRequest) (id : ThreadId) (thread : Thread) : Bool :=
  subscriptionMatches request (Kernel.threadRecord .threadReady id thread .waiting .ready)

/-- Neither the kind of the event nor its stamps matter for a match. -/
theorem subscriptionMatches_threadRecord
    (request : SubscriptionRequest) (type : KernelEventType) (id : ThreadId)
    (thread : Thread) (previous current : ThreadState) (sequence uptimeMsec : ℕ) :
    subscriptionMatches request
        { Kernel.threadRecord type id thread previous current with
          sequence := sequence
          uptimeMsec := uptimeMsec } =
      threadMatches request id thread :=
  rfl

theorem threadMatches_congr (request : SubscriptionRequest) (id : ThreadId) {thread old : Thread}
    (parent : thread.parent = old.parent) (name : thread.name = old.name) :
    threadMatches request id thread = threadMatches request id old := by
  simp [threadMatches, subscriptionMatches, Kernel.threadRecord, parent, name]

namespace Kernel

/-- The threads an event is published about when the current thread gives up the
processor: the one dispatched instead, unless it counts as running already, and
the waiters of matching subscriptions, which are made ready. -/
inductive Announced (kernel : Kernel) : ThreadId → Prop
  | next {id thread}
      (next : kernel.nextDispatched = some id)
      (found : kernel.thread id = some thread)
      (notRunning : thread.currentState ≠ .running) : Announced kernel id
  | waiter {id thread subscription subscriber waiter}
      (announced : Announced kernel id)
      (found : kernel.thread id = some thread)
      (subscribed : kernel.subscriber subscription = some subscriber)
      (isMatch : threadMatches subscriber.request id thread = true)
      (waits : subscriber.waitingThread = some waiter) : Announced kernel waiter

/-- No thread is left to be destroyed, and no event that giving up the processor
publishes matches the subscription. -/
structure QuietFor (kernel : Kernel) (subscription : SubscriptionId) : Prop where
  reaped : kernel.retiredThreads = []
  unmatched : ∀ id thread subscriber, kernel.Announced id → kernel.thread id = some thread →
    kernel.subscriber subscription = some subscriber →
    threadMatches subscriber.request id thread = false

/-! ## Between the check and the switch -/

/-- A state between the check of a wait and its switch, compared with the state the
wait started in. -/
structure Window (origin : Kernel) (subscription : SubscriptionId)
    (waited : EventSubscriber) (kernel : Kernel) : Prop where
  reaped : kernel.retiredThreads = []
  active : kernel.currentThread.isSome
  threads : ∀ id thread, kernel.thread id = some thread →
    ∃ old, origin.thread id = some old ∧ thread.parent = old.parent ∧ thread.name = old.name
  subscribers : ∀ other subscriber, other ≠ subscription →
    kernel.subscriber other = some subscriber →
    ∃ old, origin.subscriber other = some old ∧
      subscriber.request = old.request ∧
      ∀ waiter, subscriber.waitingThread = some waiter → old.waitingThread = some waiter
  waited : kernel.subscriber subscription = some waited

variable {subscriber : EventSubscriber}

section

variable {origin kernel after : Kernel} {subscription : SubscriptionId}
  {waited : EventSubscriber} {env : Env}

variable {target : SubscriptionId}

namespace Window

variable (window : Window origin subscription waited kernel)
include window

section

variable (subscribers : after.subscribers = kernel.subscribers)
  (retiredThreads : after.retiredThreads = kernel.retiredThreads)
  (currentThread : after.currentThread = kernel.currentThread)
include subscribers retiredThreads currentThread

theorem of_threads (threads : ∀ id thread, after.thread id = some thread →
      ∃ middle, kernel.thread id = some middle ∧
        thread.parent = middle.parent ∧ thread.name = middle.name) :
    Window origin subscription waited after := by
  refine ⟨retiredThreads.trans window.reaped, currentThread ▸ window.active, ?_, ?_, ?_⟩
  · intro id thread found
    obtain ⟨middle, middleFound, parent, name⟩ := threads id thread found
    obtain ⟨old, oldFound, oldParent, oldName⟩ := window.threads id middle middleFound
    exact ⟨old, oldFound, parent.trans oldParent, name.trans oldName⟩
  · unfold Kernel.subscriber
    rw [subscribers]
    exact window.subscribers
  · rw [Kernel.subscriber, subscribers]
    exact window.waited

theorem of_rewrites {target : ThreadId} {update : Thread → Thread}
    (rewritten : Rewrites kernel after target update)
    (kept : ∀ thread, (update thread).parent = thread.parent ∧ (update thread).name = thread.name) :
    Window origin subscription waited after := by
  refine window.of_threads subscribers retiredThreads currentThread fun _ thread found => ?_
  rcases written_cases (rewritten _) found with ⟨-, middle, middleFound, rfl⟩ | ⟨-, found⟩
  · exact ⟨middle, middleFound, kept middle⟩
  · exact ⟨thread, found, rfl, rfl⟩

theorem of_registry (threads : after.threads = kernel.threads) :
    Window origin subscription waited after := by
  refine window.of_threads subscribers retiredThreads currentThread fun _ thread found => ?_
  rw [Kernel.thread, threads] at found
  exact ⟨thread, found, rfl, rfl⟩

end

/-- A write to another subscription that adds no waiter. -/
theorem of_modifySubscriber {update : EventSubscriber → EventSubscriber}
    (ne : target ≠ subscription) (kept : ∀ subscriber, kernel.subscriber target = some subscriber →
      (update subscriber).request = subscriber.request ∧
      ∀ waiter, (update subscriber).waitingThread = some waiter →
        subscriber.waitingThread = some waiter) :
    Window origin subscription waited (kernel.modifySubscriber target update) := by
  refine ⟨window.reaped, window.active, window.threads, ?_, ?_⟩
  · intro other subscriber notWaited found
    rcases written_cases (subscriber_modifySubscriber ..) found with
      ⟨rfl, middle, middleFound, rfl⟩ | ⟨-, found⟩
    · obtain ⟨old, oldFound, request, waiters⟩ :=
        window.subscribers other middle notWaited middleFound
      obtain ⟨sameRequest, sameWaiters⟩ := kept middle middleFound
      exact ⟨old, oldFound, sameRequest.trans request,
        fun waiter waits => waiters waiter (sameWaiters waiter waits)⟩
    · exact window.subscribers other subscriber notWaited found
  · rw [subscriber_modifySubscriber, if_neg (Ne.symm ne)]
    exact window.waited

end Window

/-- Publishing about an announced thread stays in the window. -/
def QuietEnv (origin : Kernel) (subscription : SubscriptionId) (waited : EventSubscriber)
    (env : Env) : Prop :=
  ∀ type id thread old previous current kernel after,
    origin.Announced id → origin.thread id = some old →
    thread.parent = old.parent → thread.name = old.name →
    Window origin subscription waited kernel →
    env.publish (threadRecord type id thread previous current) kernel = some after →
    Window origin subscription waited after

theorem reapRetiredThreads_of_reaped {rounds : ℕ} (reaped : kernel.retiredThreads = [])
    (call : kernel.reapRetiredThreads env rounds = some after) : after = kernel := by
  cases rounds with
  | zero => cases call
  | succ =>
    unfold reapRetiredThreads at call
    rw [reaped] at call
    cases call
    rfl

section

variable (window : Window origin subscription waited kernel) (id : ThreadId)
include window id

theorem Window.prepareReady (cause : WakeCause) (thread : Thread) :
    Window origin subscription waited (kernel.prepareReady id cause thread) := by
  unfold Kernel.prepareReady
  cases thread.parent <;>
    exact window.of_rewrites rfl rfl rfl (.modify rfl) fun _ => ⟨rfl, rfl⟩

theorem Window.linkReady (priority : ℕ) (atTail : Bool) :
    Window origin subscription waited (kernel.linkReady id priority atTail) := by
  exact window.of_rewrites rfl rfl rfl (.modify rfl) fun _ => ⟨rfl, rfl⟩

theorem Window.requestReschedule :
    Window origin subscription waited (kernel.requestReschedule id) := by
  unfold Kernel.requestReschedule
  split
  · exact window.of_registry rfl rfl rfl rfl
  · exact window

end

variable {id : ThreadId}

section

variable (quiet : QuietEnv origin subscription waited env)
include quiet

variable {record : KernelEventRecord}

section

variable (window : Window origin subscription waited kernel)
include window

theorem Window.transitionThreadToReady (announced : origin.Announced id)
    {atTail : Bool} {cause : WakeCause} {status : Status}
    (call : kernel.transitionThreadToReady env id atTail cause = some (status, after)) :
    Window origin subscription waited after := by
  simp only [Kernel.transitionThreadToReady, bind_eq_some] at call
  obtain ⟨thread, found, call⟩ := call
  obtain ⟨_, oldFound, parent, name⟩ := window.threads id thread found
  split at call
  · cases call
    exact window
  split at call
  · cases call
    exact window
  have prepared := window.prepareReady id cause thread
  rcases push : (kernel.prepareReady id cause thread).readyQueuePush id atTail with
    ⟨pushStatus, pushed⟩
  rw [push] at call
  have pushedWindow : Window origin subscription waited pushed := by
    rcases readyQueuePush_cases push with ⟨-, rfl⟩ | ⟨_, -, -, -, -, -, rfl⟩
    · exact prepared
    · exact prepared.linkReady _ _ _
  split at call
  · cases call
    exact pushedWindow
  simp only [bind_eq_some] at call
  obtain ⟨_, publication, _, _, result⟩ := call
  cases result
  refine Window.requestReschedule ?_ id
  split at publication
  · exact quiet _ _ _ _ _ _ _ _ announced oldFound parent name pushedWindow publication
  · cases publication
    exact pushedWindow

theorem Window.enqueue (announced : origin.Announced id) {status : Status}
    (call : kernel.enqueue env id = some (status, after)) :
    Window origin subscription waited after := by
  simp only [Kernel.enqueue, bind_eq_some] at call
  obtain ⟨_, reaping, call⟩ := call
  obtain rfl := reapRetiredThreads_of_reaped window.reaped reaping
  split at call
  · cases call
    exact window
  split at call
  · cases call
    exact window
  split at call
  · cases call
    exact window
  split at call
  · rename_i inactive
    have active := window.active
    rw [inactive] at active
    cases active
  · exact window.transitionThreadToReady quiet announced call

theorem Window.wakeWaiter (ne : target ≠ subscription)
    (announced : ∀ subscriber waiter, kernel.subscriber target = some subscriber →
      subscriber.waitingThread = some waiter → origin.Announced waiter)
    (call : kernel.wakeWaiter env target = some after) :
    Window origin subscription waited after := by
  simp only [Kernel.wakeWaiter, bind_eq_some] at call
  obtain ⟨subscriber, found, call⟩ := call
  split at call
  · cases call
    exact window
  · rename_i waiter waits
    simp only [bind_eq_some] at call
    obtain ⟨⟨_, _⟩, wake, result⟩ := call
    cases result
    have detached : Window origin subscription waited (kernel.detachWaiter target waiter) := by
      have cleared : Window origin subscription waited (kernel.modifySubscriber target
          fun subscriber => { subscriber with waitingThread := none }) :=
        window.of_modifySubscriber ne fun _ _ => ⟨rfl, fun _ waits => by cases waits⟩
      exact cleared.of_rewrites rfl rfl rfl (.modify rfl) fun _ => ⟨rfl, rfl⟩
    exact detached.enqueue quiet (announced subscriber waiter found waits) wake

theorem Window.enqueueRecord (ne : target ≠ subscription)
    (announced : ∀ subscriber waiter, kernel.subscriber target = some subscriber →
      subscriber.waitingThread = some waiter → origin.Announced waiter)
    (call : kernel.enqueueRecord env target record = some after) :
    Window origin subscription waited after := by
  simp only [Kernel.enqueueRecord, bind_eq_some] at call
  obtain ⟨subscriber, found, call⟩ := call
  rcases allocation : (if subscriber.needsAllocation (subscriber.queuedCount + 1) then
    kernel.heapAlloc else (true, kernel)) with ⟨allocated, charged⟩
  rw [allocation] at call
  have chargedFound : charged.subscriber target = some subscriber := by
    rw [subscriber_heapAlloc _ allocation, found]
  have chargedWindow : Window origin subscription waited charged := by
    split at allocation
    · cases allocation
      exact window.of_registry rfl rfl rfl rfl
    · cases allocation
      exact window
  rcases store : subscriber.storeRecord record allocated with ⟨_, updated⟩
  rw [store] at call
  have sameIdentity := identity_of_storeRecord store
  have sameRequest : updated.request = subscriber.request :=
    congrArg (fun triple => triple.2.1) sameIdentity
  have sameWaiter : updated.waitingThread = subscriber.waitingThread :=
    congrArg (fun triple => triple.2.2) sameIdentity
  have storedWindow : Window origin subscription waited
      (charged.modifySubscriber target fun _ => updated) :=
    chargedWindow.of_modifySubscriber ne
      (of_found chargedFound ⟨sameRequest, fun waiter waits => sameWaiter ▸ waits⟩)
  split at call
  · refine storedWindow.wakeWaiter quiet ne ?_ call
    intro _ waiter writtenFound waits
    rw [subscriber_modifySubscriber, if_pos rfl, chargedFound] at writtenFound
    cases writtenFound
    exact announced subscriber waiter found (sameWaiter ▸ waits)
  · cases call
    exact storedWindow

end

/-- A record about an announced thread passes the waited subscription by. -/
theorem Window.publishFrom
    (unmatched : ∀ id thread, origin.Announced id → origin.thread id = some thread →
      threadMatches waited.request id thread = false)
    {old : Thread} (announced : origin.Announced id) (oldFound : origin.thread id = some old)
    (about : ∀ request, subscriptionMatches request record = threadMatches request id old)
    (rounds : ℕ) {cursor : Option SubscriptionId} {kernel : Kernel}
    (window : Window origin subscription waited kernel)
    (call : kernel.publishFrom env record rounds cursor = some after) :
    Window origin subscription waited after := by
  fun_induction Kernel.publishFrom env record rounds cursor kernel with
  | case1 =>
    cases call
    exact window
  | case2 => cases call
  | case3 _ target kernel ih =>
    simp only [bind_eq_some] at call
    obtain ⟨subscriber, found, _, delivery, _, _, call⟩ := call
    refine ih _ ?_ call
    split at delivery
    · rename_i isMatch
      rw [about] at isMatch
      have ne : target ≠ subscription := by
        rintro rfl
        obtain rfl := Option.mem_unique window.waited found
        rw [unmatched id old announced oldFound] at isMatch
        cases isMatch
      refine window.enqueueRecord quiet ne ?_ delivery
      intro _ waiter otherFound waits
      cases found.symm.trans otherFound
      obtain ⟨_, sourceFound, request, waiters⟩ := window.subscribers target subscriber ne found
      rw [request] at isMatch
      exact .waiter announced oldFound sourceFound isMatch (waiters waiter waits)
    · cases delivery
      exact window

end

theorem quietEnv_env
    (unmatched : ∀ id thread, origin.Announced id → origin.thread id = some thread →
      threadMatches waited.request id thread = false)
    (depth : ℕ) : QuietEnv origin subscription waited (RosKernel.env depth) := by
  induction depth with
  | zero =>
    intro type id thread old previous current kernel after _ _ _ _ _ call
    cases call
  | succ _ ih =>
    intro _ id _ _ _ _ kernel _ announced oldFound
      parent name window call
    have stamped : Window origin subscription waited
        { kernel with nextSequence := kernel.nextSequence + 1 } :=
      window.of_registry rfl rfl rfl rfl
    refine stamped.publishFrom ih unmatched announced oldFound ?_ _ call
    intro request
    exact threadMatches_congr request id parent name

/-! ## The wait -/

theorem Window.of_queueFrame (window : Window origin subscription waited kernel)
    (frame : QueueFrame kernel after) : Window origin subscription waited after := by
  refine window.of_threads frame.subscribers frame.retiredThreads frame.currentThread ?_
  intro _ _ found
  obtain ⟨middle, middleFound, same⟩ := frame.found found
  exact ⟨middle, middleFound, (congrArg Thread.parent same :), (congrArg Thread.name same :)⟩

theorem Window.startRunning
    (window : Window origin subscription waited kernel) (id : ThreadId) (thread : Thread) :
    Window origin subscription waited (kernel.startRunning id thread) := by
  rw [startRunning_eq]
  exact window.of_rewrites rfl rfl rfl (.modify rfl) fun _ => ⟨rfl, rfl⟩

/-- The window a wait opens by registering the current thread. -/
theorem Window.open (reaped : kernel.retiredThreads = []) (current : kernel.currentThread = some id)
    (found : kernel.subscriber subscription = some subscriber) :
    Window kernel subscription { subscriber with waitingThread := some id }
      (kernel.modifySubscriber subscription fun subscriber =>
        { subscriber with waitingThread := some id }) := by
  constructor
  · exact reaped
  · exact Option.isSome_iff_exists.mpr ⟨id, current⟩
  · exact fun _ thread threadFound => ⟨thread, threadFound, rfl, rfl⟩
  · intro _ written notWaited writtenFound
    rw [subscriber_modifySubscriber, if_neg notWaited] at writtenFound
    exact ⟨written, writtenFound, rfl, fun _ waits => waits⟩
  · rw [subscriber_modifySubscriber, if_pos rfl, found]
    rfl

/-- Every step but parking in an event wait. -/
def Permits.waitless : Permits :=
  ⟨fun continuation => ∀ subscription, continuation ≠ .eventWait subscription, True, True, True⟩

theorem Permits.waitless_noWait (subscription : SubscriptionId) :
    ¬ Permits.waitless.suspend (.eventWait subscription) :=
  fun allowed => allowed subscription rfl

/-- A dispatch inside the window publishes about announced threads only. -/
theorem Window.bound (quiet : QuietEnv origin subscription waited env)
    (window : Window origin subscription waited kernel) {published : Kernel}
    {continuation : Continuation}
    (bound : Bound Permits.waitless.scope env continuation kernel id published)
    (announced : ∀ thread, kernel.thread id = some thread →
      thread.currentState ≠ .running → origin.Announced id) :
    Window origin subscription waited published := by
  obtain ⟨thread, found, publication⟩ := bound.publication
  have started := window.startRunning id thread
  split at publication
  · rename_i notRunning
    obtain ⟨_, oldFound, parent, name⟩ := window.threads id thread found
    exact quiet _ _ _ _ _ _ _ _ (announced thread found notRunning) oldFound parent
      name started publication
  · cases publication
    exact started

end

variable {kernel after : Kernel} {subscription : SubscriptionId}

variable {transfer : Transfer}

/-- Blocking inside the window of a wait: either the caller may not block and the
state is unchanged, or the caller is parked and will be woken. -/
theorem blockCurrent_orderly {depth : ℕ} {registered : Kernel} {id : ThreadId}
    (quiet : kernel.QuietFor subscription) (current : kernel.currentThread = some id)
    (found : kernel.subscriber subscription = some subscriber) (empty : subscriber.queuedCount = 0)
    (isRegistered : registered = kernel.modifySubscriber subscription fun subscriber =>
      { subscriber with waitingThread := some id })
    (orderly : registered.Orderly) (executing : registered.Executing)
    (call : registered.blockCurrent (env depth) .event (.eventWait subscription) =
      some (transfer, after)) :
    (transfer ≠ .switched ∧ after = registered) ∨ (transfer = .switched ∧ after.Orderly) := by
  have opened : Window kernel subscription { subscriber with waitingThread := some id }
      registered := by
    rw [isRegistered]
    exact .open quiet.reaped current found
  have quietEnv : QuietEnv kernel subscription
      { subscriber with waitingThread := some id } (env depth) := by
    refine quietEnv_env (fun other thread announced threadFound => ?_) depth
    exact quiet.unmatched other thread subscriber announced threadFound found
  simp only [blockCurrent, bind_eq_some] at call
  obtain ⟨reaped, reaping, blockable, check, call⟩ := call
  obtain rfl := reapRetiredThreads_of_reaped opened.reaped reaping
  cases blockable with
  | none =>
    cases call
    exact .inl ⟨by simp, rfl⟩
  | some =>
    simp only [bind_eq_some] at call
    obtain ⟨⟨next, picked⟩, pick, ⟨inner, switched⟩, switch, call⟩ := call
    obtain ⟨isCurrent, notIdle, thread, threadFound, running⟩ := blockableThread_cases check
    have stillCurrent : reaped.currentThread = some id := by
      rw [isRegistered]
      exact current
    cases stillCurrent.symm.trans isCurrent
    have parking : KernelMove Permits.waitless.scope (.waiting subscription, reaped)
        (.leaving (.eventWait subscription), reaped.modifyThread id fun thread =>
          { thread with waitStatus := .event, currentState := .waiting }) :=
      .park _ _ _ _ _ _ Thread.wakeTick (.event subscription) isCurrent notIdle threadFound
        running (executing id thread isCurrent threadFound) trivial trivial
    have parked := parking.orderly Permits.waitless_noWait orderly
    have relinquished : (reaped.modifyThread id fun thread =>
        { thread with waitStatus := .event, currentState := .waiting }).Relinquished :=
      relinquished_modifyThread isCurrent fun _ => by simp
    obtain ⟨frame, chosenId, rfl, chosen, picking⟩ := pickNextThread_moves
      Permits.waitless.scope (.eventWait subscription) parked.operational relinquished pick
    have pickedOrderly := picking.orderly Permits.waitless_noWait parked
    have other : picked.currentThread ≠ some chosenId := fun same =>
      not_keepable_of_parked isCurrent notIdle (fun _ => rfl) (keepable_of_chosen frame chosen same)
    obtain ⟨rfl, published, bound, rfl⟩ : inner = .switched ∧ ∃ published,
        Bound Permits.waitless.scope (env depth) (.eventWait subscription) picked chosenId
            published ∧
          switched = published.switchIn chosenId (.eventWait subscription) :=
      switchToThread_bound pickedOrderly.operational trivial chosen other switch
    cases call
    refine .inr ⟨rfl, ?_⟩
    have pickedCurrent : picked.currentThread = some id := frame.currentThread.trans isCurrent
    have parkedWindow : Window kernel subscription
        { subscriber with waitingThread := some id }
        (reaped.modifyThread id fun thread =>
          { thread with waitStatus := .event, currentState := .waiting }) :=
      opened.of_rewrites rfl rfl rfl (.modify rfl) fun _ => ⟨rfl, rfl⟩
    have pickedWindow := parkedWindow.of_queueFrame frame
    have announced : ∀ chosenThread, picked.thread chosenId = some chosenThread →
        chosenThread.currentState ≠ .running → kernel.Announced chosenId := by
      intro chosenThread chosenFound notRunning
      obtain ⟨old, oldFound, same⟩ := frame.found chosenFound
      have ne : chosenId ≠ id := by
        rintro rfl
        exact other pickedCurrent
      rw [thread_modifyThread, if_neg ne, isRegistered] at oldFound
      have next : some chosenId = kernel.nextDispatched := by
        have chosenNext := parked.queues.pickNextThread parked.operational relinquished pick
        rwa [isRegistered] at chosenNext
      refine .next next.symm oldFound ?_
      have sameState : (unflagged chosenThread).currentState =
          (unflagged old).currentState := congrArg Thread.currentState same
      exact fun running => notRunning (sameState.trans running)
    have publishedWindow := pickedWindow.bound quietEnv bound announced
    exact (KernelMoves.orderly Permits.waitless_noWait bound.moves
      pickedOrderly).switchIn_eventWait bound.notCurrent bound.awake
      (bound.currentThread.trans pickedCurrent) publishedWindow.waited ⟨empty, rfl⟩

theorem eventWait_orderly {depth : ℕ} {owner : ProcessId} (quiet : kernel.QuietFor subscription)
    (orderly : kernel.Orderly) (executing : kernel.Executing)
    (call : kernel.eventWait (env depth) owner subscription = some (transfer, after)) :
    after.Orderly := by
  rcases eventWait_cases call with rfl | ⟨id, subscriber, _, _, blocked, current,
    linked, -, empty, free, -, -, block, rfl⟩
  · exact orderly
  have registering : KernelMove Permits.waitless.scope (.running, kernel)
      (.waiting subscription, kernel.modifySubscriber subscription fun subscriber =>
        { subscriber with waitingThread := some id }) :=
    .setWaiter _ _ _ subscriber id trivial current linked rfl empty free trivial
  have registered := registering.orderly Permits.waitless_noWait orderly
  rcases blockCurrent_orderly quiet current linked empty rfl registered (by exact executing)
    block with ⟨stays, same⟩ | ⟨rfl, parked⟩
  · rw [if_neg stays]
    have clearing : KernelMove Permits.waitless.scope (.waiting subscription, blocked)
        (.running, blocked.eventWaitTail subscription id) :=
      .clearWaiter _ _ _ (by rw [same]; exact current)
    exact clearing.orderly Permits.waitless_noWait (same ▸ registered)
  · exact parked

theorem Permits.waitless_allows
    {op : Op} (noWait : ∀ owner subscription, op ≠ .eventWait owner subscription) :
    Permits.waitless.Allows op := by
  have blocks : Permits.waitless.Blocks := ⟨trivial, fun _ ne => ne⟩
  cases op with
  | eventWait owner subscription => exact absurd rfl (noWait owner subscription)
  | _ =>
    first
    | exact trivial
    | exact blocks
    | exact ⟨trivial, blocks⟩

/-! ## Runs -/

/-- Waits are quiet; nothing is asked of other operations. -/
def QuietWaits (kernel : Kernel) : Op → Prop
  | .eventWait _ subscription => kernel.QuietFor subscription
  | _ => True

/-- Which allocations will succeed does not matter for a quiet wait. -/
theorem quietFor_heapOutcomes (quiet : kernel.QuietFor subscription) (outcomes : List Bool) :
    ({ kernel with heapOutcomes := outcomes } : Kernel).QuietFor subscription := by
  refine ⟨quiet.reaped, fun id thread subscriber announced => ?_⟩
  have same : kernel.Announced id := by
    induction announced with
    | next next found notRunning => exact .next next found notRunning
    | waiter _ found subscribed isMatch waits ih => exact .waiter ih found subscribed isMatch waits
  exact quiet.unmatched id thread subscriber same

theorem Step.orderly {op : Op} (step : kernel.Step op transfer after) (quiet : kernel.QuietWaits op)
    (orderly : kernel.Orderly) : after.Orderly := by
  by_cases waits : ∃ owner subscription, op = .eventWait owner subscription
  · obtain ⟨owner, subscription, rfl⟩ := waits
    obtain ⟨starts, _, outcomes, call⟩ := step
    have executing : kernel.Executing := executing_of_startable starts nofun
    have moves : Permits.waitless.scope.Moves kernel { kernel with heapOutcomes := outcomes } :=
      heapOutcomes_moves outcomes
    exact eventWait_orderly (quietFor_heapOutcomes quiet outcomes)
      (moves.orderly Permits.waitless_noWait orderly) (by exact executing) call
  · refine KernelMoves.orderly Permits.waitless_noWait (step.moves orderly.operational
      (Permits.Allows.admits (Permits.waitless_allows ?_))) orderly
    exact fun owner subscription same => waits ⟨owner, subscription, same⟩

theorem Reachable.orderly (reachable : Reachable QuietWaits kernel) : kernel.Orderly := by
  induction reachable with
  | boot _ _ _ table => exact orderly_booted _ _ table
  | step _ quiet step ih => exact step.orderly quiet ih

/-- Every thread parked in a wait on a live subscription will be woken by the next
matching record, in every run whose waits are quiet. -/
theorem eventWait_noLostWakeup (reachable : Reachable QuietWaits kernel)
    {id : ThreadId} {thread : Thread} {subscriber : EventSubscriber}
    (found : kernel.thread id = some thread) (parked : ParkedIn subscription thread)
    (subscribed : kernel.subscriber subscription = some subscriber) :
    subscriber.queuedCount = 0 ∧ subscriber.waitingThread = some id := by
  obtain ⟨empty, registered⟩ := reachable.orderly.waiters.linked id thread subscription
    subscriber found parked subscribed List.not_mem_nil
  exact ⟨empty, registered⟩

/-- A subscription to one family of events. -/
def familyRequest (familyMask : ℕ) : SubscriptionRequest := ⟨1, 0, familyMask, 0, 0, [], []⟩

/-- A subscription to thread events gets the event about the thread dispatched
instead of the waiter: the waiter is parked, detached and will not be woken. -/
theorem eventWait_wakeup_lost :
    ∃ (kernel : Kernel) (thread : Thread) (subscriber : EventSubscriber),
      Reachable (fun _ _ => True) kernel ∧ kernel.thread 1 = some thread ∧
        ParkedIn 1 thread ∧ kernel.subscriber 1 = some subscriber ∧
        subscriber.queuedCount ≠ 0 ∧ subscriber.waitingThread = none := by
  have ran : (booted [] [] 4096).run (fun _ _ => true) 4
      [.subscribe 1 (familyRequest EventFamily.thread), .eventWait 1 1] = some _ := rfl
  exact ⟨_, _, _, .of_run (fun _ _ _ => trivial) ran, rfl, ⟨rfl, rfl⟩, rfl, by decide +kernel, rfl⟩

/-- A subscription without thread events is quiet. -/
theorem threadMatches_of_family
    {request : SubscriptionRequest} (family : EventFamily.thread &&& request.familyMask = 0)
    (id : ThreadId) (thread : Thread) : threadMatches request id thread = false := by
  simp [threadMatches, subscriptionMatches, threadRecord, family]

/-- A wait for filesystem events parks the boot thread, which will be woken. -/
theorem eventWait_noLostWakeup_filesystem :
    ∃ (kernel : Kernel) (thread : Thread) (subscriber : EventSubscriber),
      Reachable QuietWaits kernel ∧ kernel.thread 1 = some thread ∧ ParkedIn 1 thread ∧
        kernel.subscriber 1 = some subscriber ∧ subscriber.queuedCount = 0 ∧
        subscriber.waitingThread = some 1 := by
  have subscribeStep : (booted [] [] 4096).Step
      (.subscribe 1 (familyRequest EventFamily.filesystem)) (.returned .ok) _ :=
    ⟨rfl, 4, [], rfl⟩
  have reachable : Reachable QuietWaits _ :=
    @Reachable.step _ _ (.eventWait 1 1) .switched _ (.step (.boot [] [] 4096 (by decide))
      (by exact trivial) subscribeStep) ⟨rfl, fun id announced _ _ _ otherFound => by
        cases otherFound
        exact threadMatches_of_family rfl id announced⟩ ⟨rfl, 4, [], rfl⟩
  exact ⟨_, _, _, reachable, rfl, ⟨rfl, rfl⟩, rfl,
    eventWait_noLostWakeup reachable rfl ⟨rfl, rfl⟩ rfl⟩

end Kernel

end RosKernel
