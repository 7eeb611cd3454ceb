import RosKernel.Kernel.EventRing
import RosKernel.Kernel.EventWait
import RosKernel.Kernel.Subscriptions

/-!
# The order of events

Waking the waiter of a subscription publishes a record of its own before the outer
publication has come to the later subscriptions. A later subscription that takes both
records gets the inner one first. So does a timer tick that wakes a thread inside a
publication of a kernel thread, where interrupts are enabled. Sequence numbers stay
increasing in every ring as long as no publication is interrupted and nobody waits on a
subscription in front of one that takes thread or process records.
-/

namespace RosKernel

open List Function Registry Option

/-! ## Ordered rings -/

namespace EventSubscriber

/-- Sequence numbers of a ring increase from above a floor up to the newest one. -/
structure RingOrdered (floor limit : ℕ) (subscriber : EventSubscriber) : Prop where
  sound : subscriber.RingSound
  increasing : subscriber.queuedRecords.Pairwise (·.sequence < ·.sequence)
  above : ∀ record ∈ subscriber.queuedRecords, floor < record.sequence
  below : ∀ record ∈ subscriber.queuedRecords, record.sequence ≤ subscriber.newestSequence
  floor_le : floor ≤ subscriber.newestSequence
  le_limit : subscriber.newestSequence ≤ limit

namespace RingOrdered

variable {floor limit : ℕ} {subscriber updated : EventSubscriber}

variable (ordered : subscriber.RingOrdered floor limit)
include ordered

theorem mono {larger : ℕ} (le : limit ≤ larger) : subscriber.RingOrdered floor larger :=
  { ordered with le_limit := ordered.le_limit.trans le }

/-- The waiter has no part in it. -/
theorem withWaiter (waiter : Option ThreadId) :
    { subscriber with waitingThread := waiter }.RingOrdered floor limit :=
  { ordered with sound := { ordered.sound with } }

/-- A newer record keeps the ring ordered. -/
theorem store {record : KernelEventRecord} {allocated stored : Bool}
    (result : subscriber.storeRecord record allocated = (stored, updated))
    (newer : subscriber.newestSequence < record.sequence)
    (bounded : record.sequence ≤ limit) : updated.RingOrdered floor limit := by
  obtain ⟨sound, -, ⟨-, same, newest, -⟩ | ⟨-, newest, kept, isSuffix, appended⟩⟩ :=
    storeRecord_spec ordered.sound result
  · refine ⟨sound, ?_, ?_, ?_, newest ▸ ordered.floor_le, newest ▸ ordered.le_limit⟩ <;> rw [same]
    · exact ordered.increasing
    · exact ordered.above
    · exact newest ▸ ordered.below
  · have older : ∀ other ∈ kept, floor < other.sequence ∧ other.sequence < record.sequence := by
      intro other mem
      have held := isSuffix.mem mem
      exact ⟨ordered.above other held, (ordered.below other held).trans_lt newer⟩
    have highest : floor < record.sequence := ordered.floor_le.trans_lt newer
    refine ⟨sound, ?_, ?_, ?_, ?_, ?_⟩
    · rw [appended]
      refine pairwise_append.mpr
        ⟨ordered.increasing.sublist isSuffix.sublist, pairwise_singleton _ _, ?_⟩
      intro other mem _ isLast
      rw [mem_singleton.mp isLast]
      exact (older other mem).2
    · intro other mem
      rw [appended] at mem
      rcases mem_append.mp mem with earlier | isLast
      · exact (older other earlier).1
      · rw [mem_singleton.mp isLast]
        exact highest
    · intro other mem
      rw [appended] at mem
      rw [newest]
      rcases mem_append.mp mem with earlier | isLast
      · exact (older other earlier).2.le
      · rw [mem_singleton.mp isLast]
    · exact newest ▸ highest.le
    · exact newest ▸ bounded

/-- What a read leaves is ordered above every record it delivers. -/
theorem read {count : ℕ} (available : count ≤ subscriber.queuedCount)
    {higher : ℕ} (delivered : higher = floor ∨
      ∃ record ∈ (readRecords count subscriber).1, record.sequence = higher) :
    (readRecords count subscriber).2.RingOrdered higher limit := by
  obtain ⟨sound, newest, front, rest⟩ := readRecords_spec ordered.sound available
  have split : subscriber.queuedRecords =
      (readRecords count subscriber).1 ++ (readRecords count subscriber).2.queuedRecords := by
    rw [front, rest, take_append_drop]
  have increasing := ordered.increasing
  rw [split, pairwise_append] at increasing
  refine ⟨sound, increasing.2.1, ?_, ?_, ?_, newest ▸ ordered.le_limit⟩
  · intro other mem
    rcases delivered with rfl | ⟨record, isRead, rfl⟩
    · exact ordered.above other (split ▸ mem_append_right _ mem)
    · exact increasing.2.2 record isRead other mem
  · intro other mem
    rw [newest]
    exact ordered.below other (split ▸ mem_append_right _ mem)
  · rw [newest]
    rcases delivered with rfl | ⟨record, isRead, rfl⟩
    · exact ordered.floor_le
    · exact ordered.below record (split ▸ mem_append_left _ isRead)

end RingOrdered

end EventSubscriber

/-- Whether a filter lets records of the core's own families through. -/
def SubscriptionRequest.listens (request : SubscriptionRequest) : Bool :=
  request.familyMask &&& (EventFamily.thread ||| EventFamily.process) != 0

variable {record : KernelEventRecord}

/-- A record of the core is accepted only by a filter that listens. -/
theorem listens_of_matches {request : SubscriptionRequest} (ofCore : record.OfCore)
    (accepted : subscriptionMatches request record = true) : request.listens = true := by
  simp only [subscriptionMatches, Bool.and_eq_true, bne_iff_ne, ne_eq] at accepted
  obtain ⟨⟨⟨⟨family, -⟩, -⟩, -⟩, -⟩ := accepted
  simp only [SubscriptionRequest.listens, bne_iff_ne, ne_eq, Nat.and_or_distrib_left,
    Nat.or_eq_zero_iff]
  rintro ⟨noThread, noProcess⟩
  rw [Nat.and_comm] at family
  rcases ofCore with thread | process
  · exact family (thread ▸ noThread)
  · exact family (process ▸ noProcess)

/-- A record that a call in progress is going to offer to a subscription. -/
def Frame.Owes : Frame → KernelEventRecord → SubscriptionId → Prop
  | .publishing record (some cursor), owed, id => owed = record ∧ cursor ≤ id
  | .delivered record subscription, owed, id => owed = record ∧ subscription < id
  | _, _, _ => False

variable {id : SubscriptionId}

theorem Frame.Owes.publishes {frame : Frame}
    (owes : frame.Owes record id) : frame.publishes = true := by
  cases frame <;> first | rfl | cases owes

namespace Kernel

/-! ## Publications in progress -/

/-- The subscription takes no records of the core. -/
def Deaf (kernel : Kernel) (id : SubscriptionId) : Prop :=
  ∀ subscriber, kernel.subscriber id = some subscriber → subscriber.request.listens = false

theorem Deaf.of_kept {before after : Kernel} (kept : SubscribersKept before after)
    (deaf : before.Deaf id) : after.Deaf id := by
  intro subscriber found
  obtain ⟨old, oldFound, -, sameRequest⟩ := kept id subscriber found
  rw [sameRequest]
  exact deaf old oldFound

/-- The record is newer than what the subscription holds. -/
def Awaits (kernel : Kernel) (record : KernelEventRecord) (id : SubscriptionId) : Prop :=
  record.sequence ≤ kernel.nextSequence ∧
    ∀ subscriber, kernel.subscriber id = some subscriber →
      subscriber.newestSequence < record.sequence

/-- What a publication can rely on: its record is newer than what the subscriptions
ahead of it hold, and while it wakes a waiter the records published meanwhile pass
these subscriptions by. -/
structure FramesOrdered (frames : List Frame) (kernel : Kernel) : Prop where
  owed : ∀ frame ∈ frames, ∀ record id, frame.Owes record id → kernel.Awaits record id
  shielded : ∀ frame ∈ frames.tail, ∀ record id, frame.Owes record id → kernel.Deaf id
  nested : frames.Pairwise fun upper lower => lower.publishes = true →
    ∀ record id, upper.Owes record id → record.OfCore

variable {target : SubscriptionId} {subscriber : EventSubscriber}

namespace FramesOrdered

variable {frames : List Frame} {frame top : Frame} {kernel after : Kernel}

theorem pop (ordered : FramesOrdered (frame :: frames) kernel) : FramesOrdered frames kernel where
  owed other mem := ordered.owed other (.tail _ mem)
  shielded other mem := ordered.shielded other (mem_of_mem_tail mem)
  nested := ordered.nested.of_cons

/-- While the innermost call publishes nothing, all publications are sheltered. -/
theorem sheltered (ordered : FramesOrdered frames kernel) (calm : Calm frames) :
    ∀ frame ∈ frames, ∀ record id, frame.Owes record id → kernel.Deaf id := by
  intro frame mem record id owes
  cases frames with
  | nil => cases mem
  | cons =>
    rcases mem_cons.mp mem with rfl | below
    · have quiet := calm frame rfl
      cases owes.publishes.symm.trans quiet
    · exact ordered.shielded frame below record id owes

theorem pushQuiet (ordered : FramesOrdered frames kernel)
    (sheltered : ∀ frame ∈ frames, ∀ record id, frame.Owes record id → kernel.Deaf id)
    (quiet : top.publishes = false) : FramesOrdered (top :: frames) kernel where
  owed frame mem record id owes := by
    rcases mem_cons.mp mem with rfl | below
    · cases owes.publishes.symm.trans quiet
    · exact ordered.owed frame below record id owes
  shielded := sheltered
  nested := by
    refine pairwise_cons.mpr ⟨?_, ordered.nested⟩
    intro _ _ _ _ _ owes
    cases owes.publishes.symm.trans quiet

/-- A publication that comes further owes less. -/
theorem advance (ordered : FramesOrdered (frame :: frames) kernel)
    (less : ∀ record id, top.Owes record id → frame.Owes record id) :
    FramesOrdered (top :: frames) kernel where
  owed other mem record id owes := by
    rcases mem_cons.mp mem with rfl | below
    · exact ordered.owed frame (.head _) record id (less record id owes)
    · exact ordered.owed other (.tail _ below) record id owes
  shielded := ordered.shielded
  nested := by
    obtain ⟨first, rest⟩ := pairwise_cons.mp ordered.nested
    refine pairwise_cons.mpr ⟨?_, rest⟩
    exact fun lower mem publishes record id owes =>
      first lower mem publishes record id (less record id owes)

/-- Writes to the subscriptions that none of the publications has ahead of it. -/
theorem of_kernel (ordered : FramesOrdered frames kernel)
    (sequence : kernel.nextSequence ≤ after.nextSequence)
    (deaf : ∀ id, kernel.Deaf id → after.Deaf id)
    (newest : ∀ frame ∈ frames, ∀ record id, frame.Owes record id →
      ∀ subscriber, after.subscriber id = some subscriber → ∃ old, kernel.subscriber id = some old ∧
          subscriber.newestSequence = old.newestSequence) :
    FramesOrdered frames after where
  owed frame mem record id owes := by
    obtain ⟨bounded, newer⟩ := ordered.owed frame mem record id owes
    refine ⟨bounded.trans sequence, fun subscriber found => ?_⟩
    obtain ⟨old, oldFound, same⟩ := newest frame mem record id owes subscriber found
    rw [same]
    exact newer old oldFound
  shielded frame mem record id owes := deaf id (ordered.shielded frame mem record id owes)
  nested := ordered.nested

/-- A publication begins. -/
theorem publish (ordered : FramesOrdered frames kernel) (calm : Calm frames)
    (family : record.OfCore ∨ frames = [.external]) (first : Option SubscriptionId)
    (bounded : ∀ id subscriber, kernel.subscriber id = some subscriber →
      subscriber.newestSequence ≤ kernel.nextSequence) :
    FramesOrdered (.publishing (kernel.numbered record) first :: frames)
      { kernel with nextSequence := kernel.nextSequence + 1 } := by
  have below : FramesOrdered frames { kernel with nextSequence := kernel.nextSequence + 1 } :=
    ordered.of_kernel (Nat.le_succ _) (fun _ deaf => deaf)
      fun _ _ _ _ _ subscriber found => ⟨subscriber, found, rfl⟩
  have offered : ∀ owed id, (Frame.publishing (kernel.numbered record) first).Owes owed id →
      owed = kernel.numbered record := by
    intro owed id owes
    cases first with
    | none => cases owes
    | some => exact owes.1
  refine ⟨?_, below.sheltered calm, ?_⟩
  · intro frame mem owed id owes
    rcases mem_cons.mp mem with rfl | deeper
    · obtain rfl := offered owed id owes
      exact ⟨le_rfl, fun subscriber found => Nat.lt_succ_of_le (bounded id subscriber found)⟩
    · exact below.owed frame deeper owed id owes
  · refine pairwise_cons.mpr ⟨?_, ordered.nested⟩
    intro _ mem publishes owed id owes
    obtain rfl := offered owed id owes
    rcases family with ofCore | rfl
    · exact ofCore
    · rw [mem_singleton.mp mem] at publishes
      cases publishes

/-- A record is stored only where no outer publication is still to come. -/
theorem behind (ordered : FramesOrdered (.publishing record (some target) :: frames) kernel)
    (found : kernel.subscriber target = some subscriber)
    (accepted : subscriptionMatches subscriber.request record = true) {owed : KernelEventRecord}
    (mem : frame ∈ frames) (owes : frame.Owes owed id) : id ≠ target := by
  rintro rfl
  have deaf := ordered.shielded frame mem owed id owes subscriber found
  have ofCore : record.OfCore := rel_of_pairwise_cons ordered.nested mem
    owes.publishes record id ⟨rfl, le_rfl⟩
  rw [listens_of_matches ofCore accepted] at deaf
  cases deaf

end FramesOrdered

/-! ## Rings below the calls of the core -/

section

variable {before after : List Frame × Kernel}

/-- Every ring is ordered, publications in progress can rely on what is ahead of them,
and no subscription that takes records of the core is linked behind one with a
waiter. -/
structure OrderKept (floor : SubscriptionId → ℕ) (frames : List Frame) (kernel : Kernel) :
    Prop extends FramesOrdered frames kernel where
  rings : ∀ id subscriber, kernel.subscriber id = some subscriber →
    subscriber.RingOrdered (floor id) kernel.nextSequence
  waiters : ∀ subscription waiter, kernel.IsWaiter subscription waiter →
    ∀ id, subscription < id → kernel.Deaf id
  ascending : kernel.subscribers.Ascending
  fresh : ∀ id, kernel.subscribers.nextId ≤ id → floor id = 0

variable {floor : SubscriptionId → ℕ}

variable {first second : Kernel}

/-- Rings after one subscription was rewritten. -/
theorem rings_of_modify {update : EventSubscriber → EventSubscriber}
    (rings : ∀ id subscriber, first.subscriber id = some subscriber →
      subscriber.RingOrdered (floor id) first.nextSequence)
    (subscribers : second.subscribers = first.subscribers.modify target update)
    (sequence : second.nextSequence = first.nextSequence)
    (ordered : ∀ subscriber, first.subscriber target = some subscriber →
      (update subscriber).RingOrdered (floor target) first.nextSequence) :
    ∀ id subscriber, second.subscriber id = some subscriber →
      subscriber.RingOrdered (floor id) second.nextSequence := by
  intro id subscriber found
  rw [sequence]
  rw [Kernel.subscriber, subscribers, lookup_modify] at found
  rcases written_cases rfl found with ⟨rfl, old, oldFound, rfl⟩ | ⟨-, found⟩
  · exact ordered old oldFound
  · exact rings id subscriber found

theorem CoreMove.rings (move : CoreMove before after) (kept : OrderKept floor before.1 before.2) :
    ∀ id subscriber, after.2.subscriber id = some subscriber →
      subscriber.RingOrdered (floor id) after.2.nextSequence := by
  cases move.subscribersWrite with
  | same subscribers sequence =>
    intro id subscriber found
    rw [Kernel.subscriber, subscribers] at found
    exact (kept.rings id subscriber found).mono sequence
  | @stored record target rest subscriber updated allocated stored top found accepted result
      waiter subscribers sequence =>
    refine rings_of_modify kept.rings subscribers sequence fun _ _ => ?_
    have mem : .publishing record (some target) ∈ before.1 := by
      rw [top]
      exact .head _
    have awaited := kept.owed _ mem record target ⟨rfl, le_rfl⟩
    exact ((kept.rings target subscriber found).store result (awaited.2 subscriber found)
      awaited.1).withWaiter waiter
  | detached target subscribers sequence =>
    exact rings_of_modify kept.rings subscribers sequence fun subscriber found =>
      (kept.rings target subscriber found).withWaiter none
  | removed _ _ _ _ subscribers sequence =>
    intro id subscriber found
    rw [Kernel.subscriber, subscribers] at found
    exact sequence ▸ kept.rings id subscriber (of_remove found)

theorem CoreMove.ascending
    (move : CoreMove before after) (ascending : before.2.subscribers.Ascending) :
    after.2.subscribers.Ascending ∧ after.2.subscribers.nextId = before.2.subscribers.nextId := by
  cases move.subscribersWrite with
  | same subscribers =>
    rw [subscribers]
    exact ⟨ascending, rfl⟩
  | stored _ _ _ _ _ subscribers =>
    rw [subscribers]
    exact ⟨ascending.modify _ _, rfl⟩
  | detached _ subscribers =>
    rw [subscribers]
    exact ⟨ascending.modify _ _, rfl⟩
  | removed _ _ _ _ subscribers =>
    rw [subscribers]
    exact ⟨ascending.remove _, rfl⟩

variable {frames : List Frame}

/-- Publications while a subscription is rewritten. -/
theorem FramesOrdered.of_modify (ordered : FramesOrdered frames first)
    (kept : SubscribersKept first second) (sequence : first.nextSequence ≤ second.nextSequence)
    (target : SubscriptionId) (update : EventSubscriber → EventSubscriber)
    (subscribers : second.subscribers = first.subscribers.modify target update)
    (behind : ∀ frame ∈ frames, ∀ record id, frame.Owes record id → id = target →
      ∀ subscriber, (update subscriber).newestSequence = subscriber.newestSequence) :
    FramesOrdered frames second := by
  refine ordered.of_kernel sequence (fun _ deaf => deaf.of_kept kept) ?_
  intro frame mem record id owes subscriber found
  rw [Kernel.subscriber, subscribers, lookup_modify] at found
  rcases written_cases rfl found with ⟨isTarget, old, oldFound, rfl⟩ | ⟨-, found⟩
  · exact ⟨old, oldFound, behind frame mem record id owes isTarget old⟩
  · exact ⟨subscriber, found, rfl⟩

/-- A publication has offered its record to a subscription that takes it. -/
theorem FramesOrdered.deliver
    (ordered : FramesOrdered (.publishing record (some target) :: frames) first)
    (found : first.subscriber target = some subscriber)
    (accepted : subscriptionMatches subscriber.request record = true)
    (kept : SubscribersKept first second) (sequence : first.nextSequence ≤ second.nextSequence)
    (update : EventSubscriber → EventSubscriber)
    (subscribers : second.subscribers = first.subscribers.modify target update) :
    FramesOrdered (.delivered record target :: frames) second := by
  have passed : FramesOrdered (.delivered record target :: frames) first :=
    ordered.advance fun owed id owes => ⟨owes.1, owes.2.le⟩
  refine passed.of_modify kept sequence target update subscribers ?_
  intro _ mem _ _ owes isTarget
  rcases mem_cons.mp mem with rfl | below
  · exact absurd isTarget owes.2.ne'
  · exact absurd isTarget (ordered.behind found accepted below owes)

theorem CoreMove.framesOrdered
    (move : CoreMove before after) (kept : OrderKept floor before.1 before.2) :
    FramesOrdered after.1 after.2 := by
  have subscriptions := move.subscribersKept
  have ordered := kept.toFramesOrdered
  -- Moves that leave the subscriptions alone change the calls in progress only.
  have unchanged {frames : List Frame} (reframed : FramesOrdered frames before.2)
      (subscribers : after.2.subscribers = before.2.subscribers)
      (sequence : before.2.nextSequence ≤ after.2.nextSequence) :
      FramesOrdered frames after.2 := by
    refine reframed.of_kernel sequence (fun _ deaf => deaf.of_kept subscriptions) ?_
    intro _ _ _ _ _ subscriber found
    rw [Kernel.subscriber, subscribers] at found
    exact ⟨subscriber, found, rfl⟩
  cases move with
  | publish _ _ _ family calm =>
    exact ordered.publish calm family _ fun id subscriber found =>
      (kept.rings id subscriber found).le_limit
  | skip => exact ordered.advance fun owed id owes => ⟨owes.1, owes.2.le⟩
  | advance _ kernel _ target =>
    refine ordered.advance fun owed id owes => ?_
    cases next : kernel.subscribers.next target with
    | none =>
      rw [next] at owes
      cases owes
    | some =>
      rw [next] at owes
      exact ⟨owes.1, (kept.ascending.lt_next next).trans_le owes.2⟩
  | published | woken => exact ordered.pop
  | unregister => exact unchanged ordered.pop rfl le_rfl
  | announce =>
    rw [requestReschedule_eq] at unchanged ⊢
    exact unchanged ordered.pop rfl le_rfl
  | link _ _ _ _ _ asked =>
    exact unchanged (ordered.pushQuiet (ordered.sheltered asked.calm) rfl) rfl le_rfl
  | reap _ _ _ _ _ _ _ _ _ calm =>
    exact unchanged (ordered.pushQuiet (ordered.sheltered calm) rfl) rfl le_rfl
  | terminate _ _ _ _ _ _ _ _ _ _ _ _ calm =>
    exact unchanged (ordered.pushQuiet (ordered.sheltered calm) rfl) rfl le_rfl
  | store _ _ _ _ _ _ _ updated found accepted =>
    exact ordered.deliver found accepted subscriptions le_rfl (fun _ => updated) rfl
  | storeWake _ kernel _ target subscriber _ updated waiter found accepted _ waits =>
    have rewritten := kernel.subscribers.modify_modify target (fun _ => updated)
      fun subscriber => { subscriber with waitingThread := none }
    have delivered := ordered.deliver found accepted subscriptions le_rfl _ rewritten
    refine delivered.pushQuiet (fun frame mem owed id owes => ?_) rfl
    refine Deaf.of_kept subscriptions ?_
    rcases mem_cons.mp mem with rfl | below
    · exact kept.waiters target waiter ⟨subscriber, found, waits⟩ id owes.2
    · exact ordered.shielded frame below owed id owes
  | detach frames kernel target subscriber waiter _ _ _ calm =>
    have pushed : FramesOrdered (.waking waiter :: frames) kernel :=
        ordered.pushQuiet (ordered.sheltered calm) rfl
    exact pushed.of_modify subscriptions le_rfl target
      (fun subscriber => { subscriber with waitingThread := none }) rfl
      fun _ _ _ _ _ _ _ => rfl
  | unsubscribe =>
    refine ordered.of_kernel le_rfl (fun _ deaf => deaf.of_kept subscriptions) ?_
    intro _ _ _ _ _ subscriber found
    exact ⟨subscriber, of_remove found, rfl⟩
  | _ => exact unchanged ordered rfl le_rfl

/-- Every move of the core keeps the order. -/
theorem CoreMove.orderKept (move : CoreMove before after)
    (kept : OrderKept floor before.1 before.2) : OrderKept floor after.1 after.2 where
  toFramesOrdered := move.framesOrdered kept
  rings := move.rings kept
  waiters subscription waiter waits id later :=
    (kept.waiters subscription waiter (move.isWaiter waits) id later).of_kept move.subscribersKept
  ascending := (move.ascending kept.ascending).1
  fresh id unused := kept.fresh id ((move.ascending kept.ascending).2 ▸ unused)

theorem CoreRun.orderKept (run : CoreRun before after)
    (kept : OrderKept floor before.1 before.2) : OrderKept floor after.1 after.2 := by
  induction run with
  | refl => exact kept
  | tail _ move ih => exact move.orderKept ih

/-- Without publications in progress the frames do not matter. -/
theorem OrderKept.reframe
    {frames other : List Frame} {kernel : Kernel} (kept : OrderKept floor frames kernel)
    (quiet : ∀ frame ∈ other, frame.publishes = false) : OrderKept floor other kernel := by
  have silent : ∀ frame ∈ other, ∀ record id, ¬ frame.Owes record id := by
    intro frame mem record id owes
    cases owes.publishes.symm.trans (quiet frame mem)
  refine { kept with owed := ?_, shielded := ?_, nested := ?_ }
  · exact fun frame mem record id owes => absurd owes (silent frame mem record id)
  · exact fun frame mem record id owes =>
      absurd owes (silent frame (mem_of_mem_tail mem) record id)
  · refine pairwise_of_forall_mem_list fun _ _ lower mem publishes => ?_
    cases publishes.symm.trans (quiet lower mem)

theorem Entry.quiet {scope : Scope} {kernel : Kernel}
    (entry : Entry scope kernel frames) : ∀ frame ∈ frames, frame.publishes = false := by
  cases entry <;> simp [Frame.publishes]

end

/-! ## Rings through an operation -/

/-- The order between the moves of an operation, and that the operation adds neither a
waiter in front of a subscription that listens nor a subscription that listens behind a
waiter. -/
structure OrderSound (floor : SubscriptionId → ℕ) (scope : Scope) (state : Stage × Kernel) :
    Prop where
  kept : OrderKept floor [] state.2
  wait : ∀ owner subscription, scope.wait owner subscription →
    ∀ id, subscription < id → state.2.Deaf id
  subscribe : ∀ owner request, scope.subscribe owner request → request.listens = true →
    ∀ subscription waiter, ¬ state.2.IsWaiter subscription waiter
  apart : ∀ owner request, scope.subscribe owner request →
    ∀ owner subscription, ¬ scope.wait owner subscription

section

variable {scope : Scope} {before after : Stage × Kernel} {floor : SubscriptionId → ℕ}

variable {first second : Kernel}

/-- Requests of subscriptions stay as they are, and new subscriptions do not listen. -/
theorem SubscriptionsMove.deaf (written : SubscriptionsMove scope first second)
    (quiet : ∀ owner request, scope.subscribe owner request → request.listens = false)
    (deaf : first.Deaf id) : second.Deaf id := by
  cases written with
  | core _ run => exact deaf.of_kept (run.subscribersKept)
  | same subscribers =>
    intro subscriber found
    rw [Kernel.subscriber, subscribers] at found
    exact deaf subscriber found
  | subscribed owner request allowed subscribers =>
    intro subscriber found
    rw [Kernel.subscriber, subscribers] at found
    rcases of_insert found with rfl | found
    · exact quiet owner request allowed
    · exact deaf subscriber found
  | removed _ _ _ subscribers =>
    intro subscriber found
    rw [Kernel.subscriber, subscribers] at found
    exact deaf subscriber (of_remove found)
  | read target subscriber count found _ subscribers =>
    refine deaf.of_kept (.of_modify target _ subscribers (of_found found ?_))
    have same := EventSubscriber.identity_readRecords count subscriber
    exact ⟨congrArg Prod.fst same, congrArg (fun identity => identity.2.1) same⟩
  | waiter target _ subscribers =>
    exact deaf.of_kept (.of_modify target _ subscribers fun _ _ => ⟨rfl, rfl⟩)

theorem framesOrdered_nil (kernel : Kernel) : FramesOrdered [] kernel where
  owed _ mem := absurd mem not_mem_nil
  shielded _ mem := absurd mem not_mem_nil
  nested := .nil

theorem ringOrdered_newSubscriber (owner : ProcessId) (request : SubscriptionRequest) (limit : ℕ) :
    (newSubscriber owner request).RingOrdered 0 limit where
  sound := ⟨rfl, le_rfl, rfl, rfl⟩
  increasing := .nil
  above _ mem := absurd mem not_mem_nil
  below _ mem := absurd mem not_mem_nil
  floor_le := le_rfl
  le_limit := Nat.zero_le _

theorem SubscriptionsMove.rings (written : SubscriptionsMove scope first second)
    (kept : OrderKept floor [] first) :
    ∀ id subscriber, second.subscriber id = some subscriber →
      subscriber.RingOrdered (floor id) second.nextSequence := by
  cases written with
  | core entry run => exact (run.orderKept (kept.reframe entry.quiet)).rings
  | same subscribers sequence =>
    intro id subscriber found
    rw [Kernel.subscriber, subscribers] at found
    exact sequence ▸ kept.rings id subscriber found
  | subscribed owner request _ subscribers sequence =>
    intro id subscriber found
    rw [Kernel.subscriber, subscribers, lookup_insert] at found
    split at found
    · rename_i isNew
      cases found
      rw [kept.fresh id isNew.ge]
      exact ringOrdered_newSubscriber owner request _
    · exact sequence ▸ kept.rings id subscriber found
  | removed _ _ _ subscribers sequence =>
    intro id subscriber found
    rw [Kernel.subscriber, subscribers] at found
    exact sequence ▸ kept.rings id subscriber (of_remove found)
  | read target subscriber _ found available subscribers sequence =>
    exact rings_of_modify kept.rings subscribers sequence fun _ _ =>
      (kept.rings target subscriber found).read available (.inl rfl)
  | waiter target _ subscribers sequence =>
    exact rings_of_modify kept.rings subscribers sequence fun subscriber found =>
      (kept.rings target subscriber found).withWaiter _

theorem SubscriptionsMove.ascending (written : SubscriptionsMove scope first second)
    (kept : OrderKept floor [] first) :
    second.subscribers.Ascending ∧ ∀ id, second.subscribers.nextId ≤ id → floor id = 0 := by
  cases written with
  | core entry run =>
    have after := run.orderKept (kept.reframe entry.quiet)
    exact ⟨after.ascending, after.fresh⟩
  | same subscribers =>
    rw [subscribers]
    exact ⟨kept.ascending, kept.fresh⟩
  | subscribed _ _ _ subscribers =>
    rw [subscribers]
    exact ⟨kept.ascending.insert _, fun id unused => kept.fresh id (Nat.le_of_succ_le unused)⟩
  | removed _ _ _ subscribers =>
    rw [subscribers]
    exact ⟨kept.ascending.remove _, kept.fresh⟩
  | read _ _ _ _ _ subscribers =>
    rw [subscribers]
    exact ⟨kept.ascending.modify _ _, kept.fresh⟩
  | waiter _ _ subscribers =>
    rw [subscribers]
    exact ⟨kept.ascending.modify _ _, kept.fresh⟩

/-- Every move keeps the order. -/
theorem KernelMove.orderSound (move : KernelMove scope before after)
    (sound : OrderSound floor scope before) : OrderSound floor scope after := by
  have written := move.subscriptionsMove
  obtain ⟨ascending, fresh⟩ := written.ascending sound.kept
  have kept (waiters : ∀ subscription waiter, after.2.IsWaiter subscription waiter →
      ∀ id, subscription < id → after.2.Deaf id) : OrderKept floor [] after.2 :=
    ⟨framesOrdered_nil _, written.rings sound.kept, waiters, ascending, fresh⟩
  -- Either a subscription that listens is being added, or none is.
  by_cases listening : ∃ owner request, scope.subscribe owner request ∧ request.listens = true
  · obtain ⟨owner, request, allowed, listens⟩ := listening
    have unwaited : ∀ subscription waiter, ¬ after.2.IsWaiter subscription waiter := by
      intro subscription waiter waits
      rcases move.isWaiter waits with earlier | ⟨⟨other, starts⟩, -⟩
      · exact sound.subscribe owner request allowed listens subscription waiter earlier
      · exact sound.apart owner request allowed other subscription starts
    refine ⟨kept fun subscription waiter waits => absurd waits (unwaited subscription waiter),
      ?_, fun _ _ _ _ => unwaited, sound.apart⟩
    exact fun other subscription starts =>
      absurd starts (sound.apart owner request allowed other subscription)
  · have deaf {id : SubscriptionId} : before.2.Deaf id → after.2.Deaf id :=
      written.deaf fun owner request allowed =>
        Bool.eq_false_iff.mpr fun listens => listening ⟨owner, request, allowed, listens⟩
    refine ⟨kept ?_, fun owner subscription starts id later =>
      deaf (sound.wait owner subscription starts id later), ?_, sound.apart⟩
    · intro subscription waiter waits id later
      rcases move.isWaiter waits with earlier | ⟨⟨owner, starts⟩, -⟩
      · exact deaf (sound.kept.waiters subscription waiter earlier id later)
      · exact deaf (sound.wait owner subscription starts id later)
    · exact fun owner request allowed listens =>
        absurd ⟨owner, request, allowed, listens⟩ listening

end

/-! ## Runs -/

/-- Nobody starts to wait in front of a subscription that takes thread or process
records, and no such subscription is added while somebody waits. -/
def OrderlyWaits (kernel : Kernel) : Op → Prop
  | .eventWait _ subscription => ∀ id, subscription < id → kernel.Deaf id
  | .subscribe _ request => request.listens = true →
      ∀ subscription waiter, ¬ kernel.IsWaiter subscription waiter
  | _ => True

variable {kernel after : Kernel} {op : Op} {floor : SubscriptionId → ℕ}

theorem OrderKept.begin (kept : OrderKept floor [] kernel) (orderly : kernel.OrderlyWaits op) :
    OrderSound floor (kernel.scopeOf op) (.running, kernel) where
  kept := kept
  wait := by
    rintro owner _ rfl
    exact orderly
  subscribe := by
    rintro owner request rfl
    exact orderly
  apart := by
    rintro _ _ rfl _ _ starts
    cases starts

theorem OrderKept.continues (kept : OrderKept floor [] kernel) (operational : kernel.Operational)
    (later : Continues OrderlyWaits kernel after) : OrderKept floor [] after := by
  suffices reached : after.Operational ∧ OrderKept floor [] after from reached.2
  induction later with
  | refl => exact ⟨operational, kept⟩
  | tail _ last ih =>
    obtain ⟨_, _, orderly, step⟩ := last
    obtain ⟨operational, kept⟩ := ih
    exact (step.carries (fun move _ sound => move.orderSound sound) operational
      (kept.begin orderly)).imp_right OrderSound.kept

theorem orderKept_booted (processName threadName : Text) (pageTableRoot : ℕ) :
    OrderKept (fun _ => 0) [] (booted processName threadName pageTableRoot) where
  toFramesOrdered := framesOrdered_nil _
  rings id subscriber found := by cases found
  waiters subscription waiter waits := by
    obtain ⟨_, found, -⟩ := waits
    cases found
  ascending := .empty 1
  fresh _ _ := rfl

theorem Reachable.orderKept
    (reachable : Reachable OrderlyWaits kernel) : OrderKept (fun _ => 0) [] kernel := by
  induction reachable with
  | boot => exact orderKept_booted _ _ _
  | step earlier meets step ih =>
    exact ih.continues earlier.operational (.single ⟨_, _, meets, step⟩)

/-- The records a read delivers are increasing and above the floor. -/
theorem OrderKept.read_records (kept : OrderKept floor [] kernel)
    (owner : ProcessId) (subscription : SubscriptionId) (capacity : ℕ) :
    (kernel.readEvents owner subscription capacity).2.1.Pairwise (·.sequence < ·.sequence) ∧
      ∀ record ∈ (kernel.readEvents owner subscription capacity).2.1,
        floor subscription < record.sequence := by
  unfold readEvents
  split
  · exact ⟨.nil, fun _ mem => absurd mem not_mem_nil⟩
  · rename_i subscriber found
    obtain ⟨linked, -⟩ := filter_eq_some_iff.mp found
    have ordered := kept.rings subscription subscriber linked
    obtain ⟨-, -, front, -⟩ := EventSubscriber.readRecords_spec ordered.sound
      (min_le_right capacity subscriber.queuedCount)
    rw [front]
    exact ⟨ordered.increasing.sublist (take_sublist _ _),
      fun record mem => ordered.above record (mem_of_mem_take mem)⟩

/-- Behind a read the order starts above any record it delivered. -/
theorem OrderKept.read_after (kept : OrderKept floor [] kernel)
    {owner : ProcessId} {subscription : SubscriptionId} {capacity higher : ℕ}
    (delivered : higher = floor subscription ∨
      ∃ record ∈ (kernel.readEvents owner subscription capacity).2.1, record.sequence = higher) :
    OrderKept (Function.update floor subscription higher) []
      (kernel.readEvents owner subscription capacity).2.2 := by
  unfold readEvents at delivered ⊢
  split at delivered
  · obtain rfl : higher = floor subscription := delivered.resolve_right fun read => by
        obtain ⟨_, mem, -⟩ := read
        cases mem
    rw [update_eq_self]
    exact kept
  · rename_i subscriber found
    obtain ⟨linked, -⟩ := filter_eq_some_iff.mp found
    have available := min_le_right capacity subscriber.queuedCount
    have begun : OrderSound floor (kernel.scopeOf (.readEvents owner subscription capacity))
        (.running, kernel) := kept.begin trivial
    have moved := (KernelMove.readEvents kernel subscription subscriber _ linked
      available).orderSound begun
    refine { moved.kept with rings := ?_, fresh := ?_ }
    · intro id written writtenFound
      rcases written_cases (subscriber_modifySubscriber ..) writtenFound with
        ⟨rfl, _, _, rfl⟩ | ⟨isOther, -⟩
      · rw [update_self]
        exact (kept.rings id subscriber linked).read available delivered
      · rw [update_of_ne isOther]
        exact moved.kept.rings id written writtenFound
    · intro id unused
      have known : subscription < kernel.subscribers.nextId :=
        kernel.subscribers.lookup_lt_nextId linked
      rw [update_of_ne (known.trans_le unused).ne']
      exact moved.kept.fresh id unused

/-! ## Interrupted publications -/

/-- The first turns of the loop of `publish_record`, with the subscriber it goes on with. -/
def publishTurns (env : Env) (record : KernelEventRecord) :
    ℕ → Option SubscriptionId → Kernel → Option (Option SubscriptionId × Kernel)
  | _, none, kernel => some (none, kernel)
  | 0, cursor, kernel => some (cursor, kernel)
  | turns + 1, some subscription, kernel => do
      let subscriber ← kernel.subscriber subscription
      let kernel ←
        (if subscriptionMatches subscriber.request record then
           kernel.enqueueRecord env subscription record
         else some kernel)
      let _ ← kernel.subscriber subscription
      publishTurns env record turns (kernel.subscribers.next subscription) kernel

/-- `publish_record` with a timer interrupt after some turns of its loop that comes back to it
without a switch. -/
def publishInterrupted (env : Env) (record : KernelEventRecord) (turns : ℕ) (kernel : Kernel) :
    Option Kernel := do
  let kernel := { kernel with nextSequence := kernel.nextSequence + 1 }
  let record :=
    { record with
      sequence := kernel.nextSequence
      uptimeMsec := ticksToMilliseconds kernel.tickCount }
  let (cursor, kernel) ← publishTurns env record turns kernel.subscribers.ids.head? kernel
  match ← kernel.handleCurrentElTimerIrq env with
  | (.returned _, kernel) => kernel.publishFrom env record env.rounds cursor
  | (.switched, _) => none

/-- An operation without an interrupt inside it, or an interrupted publication. -/
inductive BrokerOp
  | whole (op : Op)
  | interrupted (record : KernelEventRecord) (turns : ℕ)

/-- One step of a kernel that takes interrupts inside publications. -/
def BrokerStep (kernel : Kernel) (after : Kernel) : BrokerOp → Prop
  | .whole op => ∃ transfer, kernel.Step op transfer after
  | .interrupted record turns => kernel.executing = true ∧ ∃ depth outcomes,
    ({ kernel with heapOutcomes := outcomes } : Kernel).publishInterrupted (env depth) record
      turns = some after

/-- No publication is interrupted, and waits are orderly. -/
def Uninterrupted (kernel : Kernel) : BrokerOp → Prop
  | .whole op => kernel.OrderlyWaits op
  | .interrupted _ _ => False

/-- A later state of a run whose every step met the condition. -/
abbrev BrokerContinues (condition : Kernel → BrokerOp → Prop) : Kernel → Kernel → Prop :=
  Relation.ReflTransGen fun kernel after => ∃ op, condition kernel op ∧ kernel.BrokerStep after op

theorem BrokerContinues.continues (later : BrokerContinues Uninterrupted kernel after) :
    Continues OrderlyWaits kernel after := by
  refine Relation.ReflTransGen.mono ?_ _ _ later
  rintro _ _ ⟨_ | _, orderly, step⟩
  · obtain ⟨transfer, step⟩ := step
    exact ⟨_, transfer, orderly, step⟩
  · exact orderly.elim

theorem Continues.broker {condition : Kernel → Op → Prop} {weak : Kernel → BrokerOp → Prop}
    (weaker : ∀ kernel op, condition kernel op → weak kernel (.whole op))
    (later : Continues condition kernel after) : BrokerContinues weak kernel after := by
  refine Relation.ReflTransGen.mono ?_ _ _ later
  rintro kernel _ ⟨op, transfer, meets, step⟩
  exact ⟨.whole op, weaker kernel op meets, transfer, step⟩

/-- In every run in which no publication is interrupted and nobody waits in front of a
subscription that takes thread or process records, the rings hold increasing sequence numbers,
and a later read delivers larger ones than an earlier read of the same subscription. -/
theorem eventRecords_increasing {processName threadName : Text} {pageTableRoot : ℕ}
    (table : pageTableRoot ≠ 0)
    (reached : BrokerContinues Uninterrupted (booted processName threadName pageTableRoot) kernel) :
    (∀ id subscriber, kernel.subscriber id = some subscriber →
        subscriber.queuedRecords.Pairwise (·.sequence < ·.sequence)) ∧
      ∀ owner subscription capacity later laterOwner laterCapacity,
        BrokerContinues Uninterrupted (kernel.readEvents owner subscription capacity).2.2 later →
        ((kernel.readEvents owner subscription capacity).2.1 ++
          (later.readEvents laterOwner subscription laterCapacity).2.1).Pairwise
            (·.sequence < ·.sequence) := by
  have reachable := (Reachable.boot _ _ _ table).continues reached.continues
  have kept := reachable.orderKept
  refine ⟨fun id subscriber found => (kept.rings id subscriber found).increasing, ?_⟩
  intro owner subscription capacity _ laterOwner laterCapacity continues
  have moves : KernelMoves Permits.all.scope (.running, kernel)
      (.running, (kernel.readEvents owner subscription capacity).2.2) := readEvents_moves
  have operational := moves.operational reachable.operational
  have reread {higher : ℕ} (delivered : higher = 0 ∨
      ∃ record ∈ (kernel.readEvents owner subscription capacity).2.1, record.sequence = higher) :=
    ((kept.read_after delivered).continues operational continues.continues).read_records laterOwner
      subscription laterCapacity
  refine pairwise_append.mpr
    ⟨(kept.read_records owner subscription capacity).1, (reread (.inl rfl)).1, ?_⟩
  intro record isRead laterRecord isReadLater
  have above := (reread (.inr ⟨record, isRead, rfl⟩)).2 laterRecord isReadLater
  rwa [update_self] at above

/-- The condition on waits, evaluated. -/
def orderlyWaits (kernel : Kernel) : Op → Bool
  | .eventWait _ subscription => kernel.subscribers.entries.all fun entry =>
    decide (entry.1 ≤ subscription) || !entry.2.request.listens
  | .subscribe _ request => !request.listens || kernel.nobodyWaits
  | _ => true

theorem orderlyWaits_sound (orderly : kernel.orderlyWaits op = true) : kernel.OrderlyWaits op := by
  cases op with
  | eventWait =>
    intro _ later subscriber found
    have checked := all_eq_true.mp orderly _ (kernel.subscribers.mem_of_lookup found)
    simp only [Bool.or_eq_true, decide_eq_true_eq, Bool.not_eq_true'] at checked
    exact checked.resolve_left later.not_ge
  | subscribe =>
    intro listens _ _
    simp only [orderlyWaits, listens, Bool.not_true, Bool.false_or] at orderly
    exact not_isWaiter_of_nobodyWaits orderly
  | _ => trivial

/-- A thread waits for a filesystem event while a second thread reports one. The order
of the two subscriptions is the order of the two filters. -/
def reportedWaitRun (first second : ℕ) (waited : SubscriptionId) : List Op :=
  [.createProcess [] true 4096, .createThread 2 [] 1 16 1 true, .enqueue 3,
    .subscribe 1 (familyRequest first), .subscribe 1 (familyRequest second),
    .eventWait 1 waited, .resume, .publishVfs .filesystemCreated [] 1 .ok]

/-- A kernel thread runs while the boot thread sleeps for one tick. -/
def sleeperRun : List Op :=
  [.createThread 1 [] 1 16 5 false, .enqueue 3,
    .subscribe 1 (familyRequest (EventFamily.filesystem ||| EventFamily.thread)),
    .sleepCurrent 1, .resume]

/-- A subscription behind the one that is waited on gets the wake of the waiter before
the event the waiter is woken for, and delivers them in this order. An interrupt between the
draw of a sequence number and the loop does the same to every subscription. -/
theorem eventRecords_reordered :
    (∃ (kernel : Kernel) (subscriber : EventSubscriber),
      BrokerContinues (fun _ _ => True) (booted [] [] 4096) kernel ∧
        kernel.subscriber 2 = some subscriber ∧
        ¬ subscriber.queuedRecords.Pairwise (·.sequence < ·.sequence) ∧
        ¬ ((kernel.readEvents 1 2 2).2.1 ++
          ((kernel.readEvents 1 2 2).2.2.readEvents 1 2 1).2.1).Pairwise
            (·.sequence < ·.sequence)) ∧
      ∃ (kernel after : Kernel) (subscriber : EventSubscriber),
        BrokerContinues Uninterrupted (booted [] [] 4096) kernel ∧
        kernel.BrokerStep after
          (.interrupted (kernel.vfsRecord .filesystemCreated [] 1 .ok) 0) ∧
        after.subscriber 1 = some subscriber ∧
        ¬ subscriber.queuedRecords.Pairwise (·.sequence < ·.sequence) := by
  have waited : (booted [] [] 4096).run (fun _ _ => true) 6 (reportedWaitRun
      EventFamily.filesystem (EventFamily.filesystem ||| EventFamily.thread) 1) = some _ := rfl
  have slept : (booted [] [] 4096).run orderlyWaits 6 sleeperRun = some _ := rfl
  refine ⟨⟨_, _, (continues_of_run waited).broker fun _ _ _ => trivial, rfl, by decide +kernel,
    by decide +kernel⟩, _, _, _, (continues_of_run slept).broker fun _ _ => orderlyWaits_sound,
    ⟨rfl, 6, [], rfl⟩, rfl, by decide +kernel⟩

/-- With the subscriptions the other way round both records arrive in order. -/
theorem eventRecords_increasing_reportedWait :
    ∃ (kernel : Kernel) (subscriber : EventSubscriber),
      BrokerContinues Uninterrupted (booted [] [] 4096) kernel ∧
        kernel.subscriber 1 = some subscriber ∧
        subscriber.queuedCount = 3 ∧
        subscriber.queuedRecords.Pairwise (·.sequence < ·.sequence) ∧
        ((kernel.readEvents 1 1 2).2.1 ++
          ((kernel.readEvents 1 1 2).2.2.readEvents 1 1 1).2.1).Pairwise
            (·.sequence < ·.sequence) := by
  have ran : (booted [] [] 4096).run orderlyWaits 6 (reportedWaitRun
      (EventFamily.filesystem ||| EventFamily.thread) EventFamily.filesystem 2) = some _ := rfl
  have reached : BrokerContinues Uninterrupted _ _ :=
    (continues_of_run ran).broker fun _ _ => orderlyWaits_sound
  obtain ⟨rings, reads⟩ := eventRecords_increasing (by decide) reached
  exact ⟨_, _, reached, rfl, rfl, rings 1 _ rfl, reads 1 1 2 _ 1 1 .refl⟩

end Kernel

end RosKernel
