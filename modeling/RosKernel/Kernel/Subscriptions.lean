import RosKernel.Kernel.Roles

/-!
# Writes to the subscriptions

What a move does to the registry of subscriptions: the core stores records, detaches
waiters and releases the subscriptions of a process without threads; the rest is done
by the calls of the broker themselves.
-/

namespace RosKernel.Kernel

/-- What a move of the core does to the subscriptions. -/
inductive SubscribersWrite (before after : List Frame × Kernel) : Prop
  | same (subscribers : after.2.subscribers = before.2.subscribers)
      (sequence : before.2.nextSequence ≤ after.2.nextSequence)
  | stored {record : KernelEventRecord} {target : SubscriptionId} {rest : List Frame}
      {subscriber updated : EventSubscriber} {allocated stored : Bool}
      (top : before.1 = .publishing record (some target) :: rest)
      (found : before.2.subscriber target = some subscriber)
      (accepted : subscriptionMatches subscriber.request record = true)
      (result : subscriber.storeRecord record allocated = (stored, updated))
      (waiter : Option ThreadId)
      (subscribers : after.2.subscribers = before.2.subscribers.modify target fun _ =>
        { updated with waitingThread := waiter })
      (sequence : after.2.nextSequence = before.2.nextSequence)
  | detached (target : SubscriptionId)
      (subscribers : after.2.subscribers = before.2.subscribers.modify target fun subscriber =>
        { subscriber with waitingThread := none })
      (sequence : after.2.nextSequence = before.2.nextSequence)
  | removed (target : SubscriptionId) (subscriber : EventSubscriber)
      (found : before.2.subscriber target = some subscriber)
      (empty : before.2.processThreads subscriber.ownerProcessId = [])
      (subscribers : after.2.subscribers = before.2.subscribers.remove target)
      (sequence : after.2.nextSequence = before.2.nextSequence)

section

variable {before after : List Frame × Kernel}

theorem CoreMove.subscribersWrite
    (move : CoreMove before after) : SubscribersWrite before after := by
  cases move with
  | publish => exact .same rfl (Nat.le_succ _)
  | store _ _ _ _ _ _ _ updated found accepted result =>
    exact .stored rfl found accepted result updated.waitingThread rfl rfl
  | storeWake _ kernel _ target subscriber _ updated _ found accepted result =>
    have rewritten := kernel.subscribers.modify_modify target (fun _ => updated)
      fun subscriber => { subscriber with waitingThread := none }
    exact .stored rfl found accepted result none rewritten rfl
  | detach _ _ target => exact .detached target rfl rfl
  | announce =>
    rw [requestReschedule_eq]
    exact .same rfl le_rfl
  | unsubscribe _ _ target subscriber found empty =>
    exact .removed target subscriber found empty rfl rfl
  | _ => exact .same rfl le_rfl

end

/-- What a move does to the subscriptions. -/
inductive SubscriptionsMove (scope : Scope) (before after : Kernel) : Prop
  | core {frames : List Frame} (entry : Entry scope before frames)
      (run : CoreRun (frames, before) (frames, after))
  | same (subscribers : after.subscribers = before.subscribers)
      (sequence : after.nextSequence = before.nextSequence)
  | subscribed (owner : ProcessId) (request : SubscriptionRequest)
      (allowed : scope.subscribe owner request)
      (subscribers : after.subscribers = before.subscribers.insert (newSubscriber owner request))
      (sequence : after.nextSequence = before.nextSequence)
  | removed (owner : ProcessId) (target : SubscriptionId)
      (allowed : scope.unsubscribe owner target)
      (subscribers : after.subscribers = before.subscribers.remove target)
      (sequence : after.nextSequence = before.nextSequence)
  | read (target : SubscriptionId) (subscriber : EventSubscriber) (count : ℕ)
      (found : before.subscriber target = some subscriber)
      (available : count ≤ subscriber.queuedCount)
      (subscribers : after.subscribers = before.subscribers.modify target fun _ =>
        (EventSubscriber.readRecords count subscriber).2)
      (sequence : after.nextSequence = before.nextSequence)
  | waiter (target : SubscriptionId) (waiter : EventSubscriber → Option ThreadId)
      (subscribers : after.subscribers = before.subscribers.modify target fun subscriber =>
        { subscriber with waitingThread := waiter subscriber })
      (sequence : after.nextSequence = before.nextSequence)

variable {scope : Scope} {before after : Stage × Kernel}

theorem KernelMove.subscriptionsMove
    (move : KernelMove scope before after) : SubscriptionsMove scope before.2 after.2 := by
  cases move with
  | core _ entry _ run => exact .core entry run
  | subscribe _ owner request allowed => exact .subscribed owner request allowed rfl rfl
  | unsubscribe _ owner target _ allowed => exact .removed owner target allowed rfl rfl
  | readEvents _ target subscriber count found available =>
    exact .read target subscriber count found available rfl rfl
  | setWaiter _ _ target _ id => exact .waiter target (fun _ => some id) rfl rfl
  | clearWaiter kernel target id =>
    have cleared : (fun subscriber : EventSubscriber =>
        if subscriber.waitingThread = some id then { subscriber with waitingThread := none }
        else subscriber) = fun subscriber =>
          { subscriber with
            waitingThread :=
              if subscriber.waitingThread = some id then none
              else subscriber.waitingThread } := by
      funext subscriber
      split <;> rfl
    exact .waiter target _ (congrArg (kernel.subscribers.modify target) cleared) rfl
  | pop =>
    rw [readyQueueRemove_eq]
    exact .same rfl rfl
  | bind =>
    rw [startRunning_eq]
    exact .same rfl rfl
  | switchIn =>
    rw [switchIn_eq]
    exact .same rfl rfl
  | _ => exact .same rfl rfl

end RosKernel.Kernel
