import Pjproject.Event.Distribution

/-!
# Delivery of events

In a run where no event is published to a full ring, and where no manager publishes an event at once
while another one does, a subscriber that stays is called once with each event for it, in order.
-/

namespace Pjmedia.Event
open List Pjnath.Stun

variable {α : Type}

/-- The thread is told of the events that it has not begun with, a publication ends when all its
events have been distributed, and an event that is lost is an error. -/
structure EventMgr.Delivered (mgr : EventMgr α) : Prop where
  posted : mgr.th.Delivered
  immediate : mgr.pub.Delivered
  told : mgr.th.accepted.length = mgr.th.begun.length + mgr.sem
  distributed : mgr.publishing = false → mgr.pub.past.map Distribution.event = mgr.pub.accepted
  refused : ∀ status ∈ mgr.refused, status ≠ pjSuccess

def World.Delivered (world : World α) : Prop := ∀ mgr ∈ world.mgrs, mgr.Delivered

/-! ## The condition -/

/-- The queue of an event that is published has room, and no other manager publishes at once. -/
def World.Fits (world : World α) : Op α → Prop
  | .post number _ => ∀ mgr : EventMgr α, mgr ∈ world.mgrs[number]? → mgr.evQueue.isFull = false
  | .publish number _ => ∀ mgr : EventMgr α, mgr ∈ world.mgrs[number]? →
    if mgr.publishing = true then world.evQueue.isFull = false
    else ∀ other ∈ world.mgrs, other.publishing = false
  | _ => True

instance (world : World α) : ∀ op, Decidable (world.Fits op)
  | .subscribe .. => .isTrue trivial
  | .unsubscribe .. => .isTrue trivial
  | .post number _ => inferInstanceAs (Decidable
      (∀ mgr : EventMgr α, mgr ∈ world.mgrs[number]? → mgr.evQueue.isFull = false))
  | .publish number _ => inferInstanceAs (Decidable
      (∀ mgr : EventMgr α, mgr ∈ world.mgrs[number]? →
        if mgr.publishing = true then world.evQueue.isFull = false
        else ∀ other ∈ world.mgrs, other.publishing = false))
  | .returns _ => .isTrue trivial
  | .work _ => .isTrue trivial

/-! ## Managers -/

/-- What a manager keeps besides the publication that it may be in. -/
structure EventMgr.Kept (mgr : EventMgr α) : Prop where
  listed : mgr.Listed
  proper : mgr.evQueue.Proper
  accounts : mgr.th.Accounts mgr.evQueue.waiting
  stage : mgr.th.Idle ∨ mgr.th.Calling mgr mgr.evQueue
  told : mgr.evQueue.waiting.length = mgr.sem + mgr.th.current.toList.length
  refused : mgr.refused = []

/-- A manager that is not in a publication. -/
structure EventMgr.Quiet (mgr : EventMgr α) : Prop where
  publishing : mgr.publishing = false
  accounts : mgr.pub.Accounts []
  idle : mgr.pub.Idle

/-- A manager in a publication with the static queue. -/
structure EventMgr.Publishing (mgr : EventMgr α) (queue : EventQueue α) : Prop where
  publishing : mgr.publishing = true
  proper : queue.Proper
  accounts : mgr.pub.Accounts queue.waiting
  calling : mgr.pub.Calling mgr queue

namespace EventMgr

variable {mgr : EventMgr α} {queue : EventQueue α} {rest : List Esub}

/-- Only the publication has changed. -/
theorem Kept.publication (kept : mgr.Kept) (pub : Walker α) (publishing : Bool) :
    { mgr with pub := pub, publishing := publishing }.Kept where
  listed := ⟨kept.listed.nodes, kept.listed.allocated, kept.listed.numbers, kept.listed.counted⟩
  proper := kept.proper
  accounts := kept.accounts
  stage := kept.stage.imp_right fun calling => calling.congr rfl rfl rfl
  told := kept.told
  refused := kept.refused

variable {distribution : Distribution α}

/-- The loop of a publication ends with a callback, or when all events have been distributed. -/
theorem Kept.distributeNow (kept : mgr.Kept) (publishing : mgr.publishing = true)
    (proper : queue.Proper) (accounts : mgr.pub.Accounts queue.waiting)
    (underway : mgr.pub.Underway mgr queue rest distribution) {rounds : Nat}
    (enough : queue.waiting.length ≤ rounds) :
    ∃ mgr' queue', EventMgr.distributeNow rounds mgr queue rest = some (mgr', queue') ∧ mgr'.Kept ∧
      (mgr'.Quiet ∨ mgr'.Publishing queue') := by
  induction rounds generalizing mgr queue rest distribution with
  | zero =>
    have ⟨later, front⟩ := underway.front
    rw [front] at enough
    cases enough
  | succ rounds ih =>
    have ⟨later, front⟩ := underway.front
    have ⟨proper', waiting'⟩ := proper.pop front
    rcases underway.distribute accounts proper kept.listed with ⟨same, accounts', calling⟩ |
      ⟨popped, accounts', idle⟩
    · have stop := calling.nextSub
      refine ⟨_, queue, ?_, kept.publication (mgr.distribute mgr.pub queue rest).1 mgr.publishing,
        .inr ⟨publishing, proper, accounts', calling.congr rfl rfl rfl⟩⟩
      rw [EventMgr.distributeNow]
      simp [stop, same]
    · have more := proper'.more_iff
      rw [EventMgr.distributeNow]
      simp only [ne_eq, idle.nextSub, not_true_eq_false, if_false, popped]
      by_cases goesOn : queue.pop.waiting = []
      · rw [if_neg (fun found => more.mp found goesOn)]
        refine ⟨_, _, rfl, kept.publication (mgr.distribute mgr.pub queue rest).1 false,
          .inl ⟨rfl, ?_, idle⟩⟩
        rw [← goesOn]
        exact accounts'
      · rw [if_pos (more.mpr goesOn)]
        have ⟨accounts'', distribution', underway'⟩ :=
          @Walker.Accounts.start _ _ mgr _ accounts' proper' goesOn
        have smaller : queue.pop.waiting.length ≤ rounds := by
          rw [front, ← waiting', length_cons] at enough
          exact Nat.le_of_succ_le_succ enough
        exact ih (kept.publication _ mgr.publishing) publishing proper' accounts''
          (underway'.congr rfl rfl rfl) smaller

/-- A manager between two steps, with the static queue. -/
structure Good (mgr : EventMgr α) (queue : EventQueue α) : Prop where
  kept : mgr.Kept
  stage : mgr.Quiet ∨ mgr.Publishing queue

/-- The thread calls a subscriber or is through with an event. -/
theorem kept_distributePosted (listed : mgr.Listed) (proper : mgr.evQueue.Proper)
    (accounts : mgr.th.Accounts mgr.evQueue.waiting)
    (underway : mgr.th.Underway mgr mgr.evQueue rest distribution)
    (told : mgr.evQueue.waiting.length = mgr.sem + 1) (refused : mgr.refused = []) :
    (mgr.distributePosted rest).Kept := by
  have ⟨later, front⟩ := underway.front
  have ⟨proper', waiting'⟩ := proper.pop front
  have listed' : (mgr.distributePosted rest).Listed :=
    ⟨listed.nodes, listed.allocated, listed.numbers, listed.counted⟩
  rcases underway.distribute accounts proper listed with ⟨same, accounts', calling⟩ |
    ⟨popped, accounts', idle⟩
  · have ⟨rest', distribution', underway', next⟩ := calling.walk
    have queue : (mgr.distributePosted rest).evQueue = mgr.evQueue := same
    exact {
      listed := listed'
      proper := by
        rw [queue]
        exact proper
      accounts := by
        rw [queue]
        exact accounts'
      stage := by
        rw [queue]
        exact .inr (calling.congr rfl rfl rfl)
      told := by
        change _ = mgr.sem + (mgr.distribute mgr.th mgr.evQueue rest).1.current.toList.length
        rw [queue, told, underway'.current]
        rfl
      refused := refused }
  · have queue : (mgr.distributePosted rest).evQueue = mgr.evQueue.pop := popped
    exact {
      listed := listed'
      proper := by
        rw [queue]
        exact proper'
      accounts := by
        rw [queue]
        exact accounts'
      stage := .inl idle
      told := by
        change _ = mgr.sem + (mgr.distribute mgr.th mgr.evQueue rest).1.current.toList.length
        rw [queue, waiting', idle.current]
        rw [front, length_cons] at told
        exact Nat.succ.inj told
      refused := refused }

section
variable (good : mgr.Good queue)
include good

/-- The thread goes on. -/
theorem Good.work :
    ∃ mgr', mgr.work = some mgr' ∧ mgr'.Good queue ∧ mgr'.publishing = mgr.publishing := by
  have kept := good.kept
  unfold EventMgr.work
  by_cases publishing : mgr.publishing = true
  · rw [if_pos publishing]
    exact ⟨mgr, rfl, good, rfl⟩
  · have quiet : mgr.Quiet := by
      rcases good.stage with quiet | published
      · exact quiet
      · exact absurd published.publishing publishing
    rw [if_neg publishing]
    rcases kept.stage with idle | calling
    · have told := kept.told
      rw [idle.current] at told
      rw [if_pos idle.nextSub]
      by_cases none : mgr.sem = 0
      · rw [if_pos none]
        exact ⟨mgr, rfl, good, rfl⟩
      · have waits : mgr.evQueue.waiting ≠ [] := by
          intro empty
          rw [empty] at told
          exact none told.symm
        have ⟨accounts, distribution, underway⟩ :=
          @Walker.Accounts.start _ _ mgr _ kept.accounts kept.proper waits
        have fewer : mgr.evQueue.waiting.length = mgr.sem - 1 + 1 := by
          rw [told]
          exact (Nat.succ_pred_eq_of_ne_zero none).symm
        rw [if_neg none]
        refine ⟨_, rfl, ⟨?_, .inl ⟨quiet.publishing, quiet.accounts, quiet.idle⟩⟩, rfl⟩
        exact kept_distributePosted
          ⟨kept.listed.nodes, kept.listed.allocated, kept.listed.numbers, kept.listed.counted⟩
          kept.proper accounts (underway.congr rfl rfl rfl) fewer kept.refused
    · have ⟨rest, distribution, underway, next⟩ := calling.walk
      have told := kept.told
      rw [underway.current] at told
      rw [if_neg calling.nextSub, next, kept.listed.nodesFrom underway.suffix]
      refine ⟨_, rfl, ⟨kept_distributePosted kept.listed kept.proper kept.accounts underway told
        kept.refused, ?_⟩, rfl⟩
      exact .inl ⟨quiet.publishing, quiet.accounts, quiet.idle⟩

/-- An event that is posted waits behind the others. -/
theorem Good.post (room : mgr.evQueue.isFull = false) (event : MediaEvent α) :
    (mgr.post event).Good queue ∧ (mgr.post event).publishing = mgr.publishing := by
  have kept := good.kept
  have ⟨status, proper, head, waiting⟩ := @EventQueue.Proper.addEvent _ _ event kept.proper room
  have posted : mgr.post event = { mgr with
      evQueue := (mgr.evQueue.addEvent event).1, sem := mgr.sem + 1, th := mgr.th.accept event } := by
    unfold EventMgr.post
    simp [status]
  rw [posted]
  refine ⟨⟨?_, ?_⟩, rfl⟩
  · exact {
      listed := ⟨kept.listed.nodes, kept.listed.allocated, kept.listed.numbers, kept.listed.counted⟩
      proper := proper
      accounts := by
        rw [waiting]
        exact kept.accounts.accept
      stage := kept.stage.imp (fun idle => ⟨idle.current, idle.nextSub⟩) fun calling =>
        (calling.accept head waiting).congr rfl rfl rfl
      told := by
        change (mgr.evQueue.addEvent event).1.waiting.length =
          mgr.sem + 1 + mgr.th.current.toList.length
        rw [waiting, length_append, kept.told, length_singleton, Nat.add_right_comm]
      refused := kept.refused }
  · exact good.stage.imp (fun quiet => ⟨quiet.publishing, quiet.accounts, quiet.idle⟩)
      fun published => ⟨published.publishing, published.proper, published.accounts,
        published.calling.congr rfl rfl rfl⟩

/-- An event that is published at once. -/
theorem Good.publish (event : MediaEvent α) (room : mgr.publishing = true → queue.isFull = false) :
    ∃ mgr' queue', mgr.publish queue event = some (mgr', queue') ∧ mgr'.Good queue' := by
  have kept := good.kept
  unfold EventMgr.publish
  rcases good.stage with quiet | published
  · have ⟨_, proper, _, waiting⟩ :=
      @EventQueue.Proper.addEvent _ queue.reset event (EventQueue.proper_of_zero rfl rfl) rfl
    rw [@EventQueue.waiting_of_zero _ queue.reset rfl rfl rfl] at waiting
    have accounts : (mgr.pub.accept event).Accounts (queue.reset.addEvent event).1.waiting := by
      rw [waiting]
      exact quiet.accounts.accept
    have waits : (queue.reset.addEvent event).1.waiting ≠ [] := by
      rw [waiting]
      exact cons_ne_nil _ _
    have ⟨accounts', distribution, underway⟩ :=
      @Walker.Accounts.start _ _ mgr _ accounts proper waits
    rw [if_neg (by simp [quiet.publishing])]
    have enough : (queue.reset.addEvent event).1.waiting.length ≤ maxEvents := by
      rw [waiting]
      change 1 ≤ maxEvents
      decide
    have ⟨mgr', queue', done, kept', stage⟩ :=
      Kept.distributeNow (kept.publication _ true) rfl proper accounts'
        (underway.congr rfl rfl rfl) enough
    exact ⟨mgr', queue', done, kept', stage⟩
  · have proper := published.proper
    have ⟨status, proper', head, waiting⟩ :=
      @EventQueue.Proper.addEvent _ _ event proper (room published.publishing)
    rw [if_pos published.publishing]
    simp only [status, if_true]
    refine ⟨_, _, rfl, kept.publication (mgr.pub.accept event) mgr.publishing,
      .inr ⟨published.publishing, proper', ?_, (published.calling.accept head waiting).congr rfl rfl rfl⟩⟩
    rw [waiting]
    exact published.accounts.accept

/-- A callback of a publication returns. -/
theorem Good.returns :
    ∃ mgr' queue', mgr.returns queue = some (mgr', queue') ∧ mgr'.Good queue' := by
  unfold EventMgr.returns
  rcases good.stage with quiet | published
  · rw [if_neg (by simp [quiet.publishing])]
    exact ⟨mgr, queue, rfl, good⟩
  · have ⟨rest, distribution, underway, next⟩ := published.calling.walk
    have enough : queue.waiting.length ≤ maxEvents := by
      rw [EventQueue.length_waiting]
      exact EventQueue.size_le
    have ⟨mgr', queue', done, kept', stage⟩ := good.kept.distributeNow published.publishing
      published.proper published.accounts underway enough
    rw [if_pos published.publishing, next, good.kept.listed.nodesFrom underway.suffix]
    exact ⟨mgr', queue', done, kept', stage⟩

/-- A new subscription. -/
theorem Good.subscribe (cb : Nat) (userData epub : Option Nat) :
    (mgr.subscribe cb userData epub).Good queue ∧
      (mgr.subscribe cb userData epub).publishing = mgr.publishing := by
  have kept := good.kept
  have same : mgr.subscribe cb userData epub = { mgr with
      esubList := (mgr.subscribe cb userData epub).esubList
      freeEsubList := (mgr.subscribe cb userData epub).freeEsubList
      nextNode := (mgr.subscribe cb userData epub).nextNode
      subscribed := (mgr.subscribe cb userData epub).subscribed } := by
    unfold EventMgr.subscribe
    split <;> rfl
  have listed := kept.listed.subscribe cb userData epub
  have th := kept.stage.imp_right fun calling => calling.subscribe cb userData epub
  have pub : mgr.Publishing queue → mgr.pub.Calling (mgr.subscribe cb userData epub) queue :=
    fun published => published.calling.subscribe cb userData epub
  rw [same] at listed th pub ⊢
  refine ⟨⟨⟨listed, kept.proper, kept.accounts, th, kept.told, kept.refused⟩, ?_⟩, rfl⟩
  exact good.stage.imp (fun quiet => ⟨quiet.publishing, quiet.accounts, quiet.idle⟩)
    fun published => ⟨published.publishing, published.proper, published.accounts, pub published⟩

/-- A subscriber leaves. -/
theorem Good.remove {sub : Esub} (member : sub ∈ mgr.esubList) : (mgr.remove sub).Good queue := by
  have kept := good.kept
  constructor
  · exact {
      listed := kept.listed.remove member
      proper := kept.proper
      accounts := kept.accounts.remove
      stage := kept.stage.imp (fun idle => idle.remove) fun calling =>
        calling.remove kept.listed member
      told := by
        change _ = mgr.sem + (mgr.moveOn sub mgr.th).current.toList.length
        rw [Walker.moveOn_eq]
        exact kept.told
      refused := kept.refused }
  · exact good.stage.imp (fun quiet => ⟨quiet.publishing, quiet.accounts.remove, quiet.idle.remove⟩)
      fun published => ⟨published.publishing, published.proper, published.accounts.remove,
        published.calling.remove kept.listed member⟩

theorem Good.unsubscribeFrom (cb : Nat) (userData epub : Option Nat)
    (nodup : (rest.map Esub.node).Nodup) (inside : ∀ sub ∈ rest, sub ∈ mgr.esubList) :
    (EventMgr.unsubscribeFrom cb userData epub rest mgr).Good queue ∧
      (EventMgr.unsubscribeFrom cb userData epub rest mgr).publishing = mgr.publishing := by
  induction rest generalizing mgr with
  | nil => exact ⟨good, rfl⟩
  | cons sub rest ih =>
    rw [map_cons, nodup_cons] at nodup
    have removed := good.remove (inside sub mem_cons_self)
    unfold EventMgr.unsubscribeFrom
    split
    · split
      · exact ⟨removed, rfl⟩
      · apply ih removed nodup.2
        intro other member
        apply mem_filter.mpr
        refine ⟨inside other (mem_cons_of_mem _ member), decide_eq_true ?_⟩
        intro same
        exact nodup.1 (same ▸ mem_map_of_mem member)
    · exact ih good nodup.2 fun other member => inside other (mem_cons_of_mem _ member)

theorem Good.unsubscribe (cb : Nat) (userData epub : Option Nat) :
    (mgr.unsubscribe cb userData epub).Good queue ∧
      (mgr.unsubscribe cb userData epub).publishing = mgr.publishing :=
  good.unsubscribeFrom cb userData epub good.kept.listed.nodup_nodes fun _ member => member

/-- What a manager has delivered. -/
theorem Good.delivered : mgr.Delivered := by
  have kept := good.kept
  exact {
    posted := kept.accounts.delivered kept.stage
    immediate := by
      rcases good.stage with quiet | published
      · have empty := @EventQueue.waiting_of_zero _ queue.reset rfl rfl rfl
        have accounts := quiet.accounts
        rw [← empty] at accounts
        exact @Walker.Accounts.delivered _ _ mgr _ accounts (.inl quiet.idle)
      · exact published.accounts.delivered (.inr published.calling)
    told := by
      rw [kept.accounts.accepted, Walker.begun, length_append, length_append,
        length_map, kept.told, Nat.add_comm mgr.sem, Nat.add_assoc]
    distributed := by
      intro ended
      rcases good.stage with quiet | published
      · rw [quiet.accounts.accepted, append_nil]
      · rw [published.publishing] at ended
        cases ended
    refused := by
      intro status member
      rw [kept.refused] at member
      cases member }

end

theorem good_create (blank : MediaEvent α) (queue : EventQueue α) : (create blank).Good queue where
  kept := {
    listed := ⟨nodup_nil, forall_mem_nil _, nodup_nil, forall_mem_nil _⟩
    proper := EventQueue.proper_of_zero rfl rfl
    accounts := ⟨(EventQueue.waiting_of_zero rfl rfl rfl).symm, forall_mem_nil _⟩
    stage := .inl ⟨rfl, rfl⟩
    told := congrArg List.length (EventQueue.waiting_of_zero rfl rfl rfl)
    refused := rfl }
  stage := .inl ⟨rfl, ⟨rfl, forall_mem_nil _⟩, ⟨rfl, rfl⟩⟩

end EventMgr

/-! ## Runs -/

/-- At most one manager is in a publication. -/
structure World.Good (world : World α) : Prop where
  mgrs : ∀ mgr ∈ world.mgrs, mgr.Good world.evQueue
  one : ∀ (first second : Nat) (mgr other : EventMgr α), world.mgrs[first]? = some mgr →
    world.mgrs[second]? = some other → mgr.publishing = true → other.publishing = true →
    first = second

/-- One manager changes, and the static queue only if no other manager publishes. -/
theorem World.Good.change {world : World α} (good : world.Good) {number : Nat}
    {act : EventMgr α → EventQueue α → Option (EventMgr α × EventQueue α)}
    (acts : ∀ mgr, world.mgrs[number]? = some mgr → mgr.Good world.evQueue →
      ∃ mgr' queue, act mgr world.evQueue = some (mgr', queue) ∧ mgr'.Good queue ∧
        ((queue = world.evQueue ∧ mgr'.publishing = mgr.publishing) ∨
          ∀ second other, world.mgrs[second]? = some other → number ≠ second →
            other.publishing = false)) :
    ∃ world', world.change number act = some world' ∧ world'.Good := by
  unfold World.change
  cases found : world.mgrs[number]? with
  | none => exact ⟨world, rfl, good⟩
  | some mgr =>
    have ⟨mgr', queue, done, good', frame⟩ :=
      acts mgr found (good.mgrs mgr (mem_of_getElem? found))
    have inside : number < world.mgrs.length := (List.getElem?_eq_some_iff.mp found).1
    have others : ∀ second other, (world.mgrs.set number mgr')[second]? = some other →
        (second = number ∧ other = mgr') ∨
          (number ≠ second ∧ world.mgrs[second]? = some other) := by
      intro second other at'
      rw [getElem?_set] at at'
      by_cases same : number = second
      · rw [if_pos same, if_pos inside] at at'
        exact .inl ⟨same.symm, (Option.some.inj at').symm⟩
      · rw [if_neg same] at at'
        exact .inr ⟨same, at'⟩
    have idle : ∀ second other, number ≠ second → world.mgrs[second]? = some other →
        mgr'.publishing = true → other.publishing = false := by
      intro second other apart at' publishing
      rcases frame with ⟨_, same⟩ | alone
      · rw [same] at publishing
        by_contra published
        exact apart (good.one number second mgr other found at' publishing (by simpa using published))
      · exact alone second other at' apart
    simp only [done, Option.map_some]
    refine ⟨_, rfl, ?_, ?_⟩
    · intro other member
      have ⟨second, at'⟩ := mem_iff_getElem?.mp member
      rcases others second other at' with ⟨_, same⟩ | ⟨apart, before⟩
      · rw [same]
        exact good'
      · have good'' := good.mgrs other (mem_of_getElem? before)
        rcases frame with ⟨same, _⟩ | alone
        · rw [same]
          exact good''
        · refine ⟨good''.kept, .inl ?_⟩
          rcases good''.stage with quiet | published
          · exact quiet
          · exact absurd published.publishing (by simp [alone second other before apart])
    · intro first second one two firstAt secondAt publishing publishing'
      rcases others first one firstAt with ⟨here, same⟩ | ⟨apart, before⟩
      · rcases others second two secondAt with ⟨here', _⟩ | ⟨apart', before'⟩
        · exact here.trans here'.symm
        · rw [same] at publishing
          rw [idle second two apart' before' publishing] at publishing'
          cases publishing'
      · rcases others second two secondAt with ⟨_, same'⟩ | ⟨_, before'⟩
        · rw [same'] at publishing'
          rw [idle first one apart before publishing'] at publishing
          cases publishing
        · exact good.one first second one two before before' publishing publishing'

/-- One step. -/
theorem World.Good.step {world : World α} (good : world.Good) {op : Op α} (fits : world.Fits op) :
    ∃ world', world.step op = some world' ∧ world'.Good := by
  cases op with
  | subscribe number cb userData epub =>
    rw [World.step]
    apply good.change
    intro mgr _ kept
    have ⟨kept', same⟩ := kept.subscribe cb userData epub
    exact ⟨_, _, rfl, kept', .inl ⟨rfl, same⟩⟩
  | unsubscribe number cb userData epub =>
    rw [World.step]
    apply good.change
    intro mgr _ kept
    have ⟨kept', same⟩ := kept.unsubscribe cb userData epub
    exact ⟨_, _, rfl, kept', .inl ⟨rfl, same⟩⟩
  | post number event =>
    rw [World.step]
    apply good.change
    intro mgr found kept
    have ⟨kept', same⟩ := kept.post (fits mgr found) event
    exact ⟨_, _, rfl, kept', .inl ⟨rfl, same⟩⟩
  | publish number event =>
    rw [World.step]
    apply good.change
    intro mgr found kept
    have free := fits mgr found
    have ⟨mgr', queue, done, kept'⟩ := kept.publish event (by
      intro publishing
      rw [if_pos publishing] at free
      exact free)
    refine ⟨mgr', queue, done, kept', .inr ?_⟩
    intro second other at' apart
    by_cases publishing : mgr.publishing = true
    · by_contra published
      exact apart (good.one number second mgr other found at' publishing (by simpa using published))
    · rw [if_neg publishing] at free
      exact free other (mem_of_getElem? at')
  | returns number =>
    apply good.change
    intro mgr found kept
    have ⟨mgr', queue, done, kept'⟩ := kept.returns
    by_cases publishing : mgr.publishing = true
    · refine ⟨mgr', queue, done, kept', .inr ?_⟩
      intro second other at' apart
      by_contra published
      exact apart (good.one number second mgr other found at' publishing (by simpa using published))
    · rw [EventMgr.returns, if_neg publishing] at done
      cases done
      exact ⟨mgr, world.evQueue, if_neg publishing, kept, .inl ⟨rfl, rfl⟩⟩
  | work number =>
    rw [World.step]
    apply good.change
    intro mgr _ kept
    have ⟨mgr', done, kept', same⟩ := kept.work
    refine ⟨mgr', world.evQueue, ?_, kept', .inl ⟨rfl, same⟩⟩
    rw [done]
    rfl

/-- Every step of the run fits in the state before it. -/
def RunFits (blank : MediaEvent α) (count : Nat) (ops : List (Op α)) : Prop :=
  Run.Meets next (fun state op => ∀ world : World α, world ∈ state → world.Fits op)
    (some (World.start blank count)) ops

instance (blank : MediaEvent α) (count : Nat) (ops : List (Op α)) :
    Decidable (RunFits blank count ops) :=
  inferInstanceAs (Decidable (Run.Meets next
    (fun state op => ∀ world : World α, world ∈ state → world.Fits op) _ ops))

/-- No step is without an outcome, and events are delivered. -/
def RunDelivers (blank : MediaEvent α) (count : Nat) (ops : List (Op α)) : Prop :=
  Run.Always next (fun state => ∃ world : World α, state = some world ∧ world.Delivered)
    (some (World.start blank count)) ops

theorem eventMgr_delivers (blank : MediaEvent α) (count : Nat) (ops : List (Op α))
    (fits : RunFits blank count ops) : RunDelivers blank count ops := by
  have start : (World.start blank count).Good := by
    have created : ∀ mgr ∈ (World.start blank count).mgrs, mgr = .create blank :=
      fun mgr member => eq_of_mem_replicate member
    constructor
    · intro mgr member
      rw [created mgr member]
      exact EventMgr.good_create ..
    · intro first second mgr other at' _ publishing _
      rw [created mgr (mem_of_getElem? at')] at publishing
      cases publishing
  have always : Run.Always next (fun state => ∃ world : World α, state = some world ∧ world.Good)
      (some (World.start blank count)) ops := by
    apply Run.always ?_ ⟨_, rfl, start⟩ fits
    rintro state op ⟨world, rfl, good⟩ fits
    exact good.step (fits world rfl)
  apply always.imp
  rintro state ⟨world, same, good⟩
  exact ⟨world, same, fun mgr member => (good.mgrs mgr member).delivered⟩

/-- A subscriber leaves while an event is on its way to it, and another takes its node; callbacks
post and publish events. -/
def deliveryRun : List (Op Nat) :=
  [.subscribe 0 1 none none, .subscribe 0 2 (some 5) (some 7), .post 0 ⟨7, 1⟩, .work 0,
    .post 0 ⟨8, 2⟩, .publish 0 ⟨7, 3⟩, .unsubscribe 0 2 (some 5) (some 7),
    .subscribe 0 3 none (some 7), .publish 0 ⟨8, 4⟩, .returns 0, .returns 0, .returns 0, .work 0,
    .publish 1 ⟨7, 5⟩, .work 0, .work 0]

theorem eventMgr_delivers_nested : RunDelivers ⟨0, 0⟩ 2 deliveryRun :=
  eventMgr_delivers ⟨0, 0⟩ 2 deliveryRun (by decide)

/-- Another manager publishes an event before the second subscriber is called. -/
def sharedRun : List (Op Nat) :=
  [.subscribe 0 1 none none, .subscribe 0 2 none none, .publish 0 ⟨7, 1⟩, .publish 1 ⟨8, 2⟩, .returns 0]

/-- More events are posted than the ring holds. -/
def crowdedRun : List (Op Nat) := List.replicate 17 (.post 0 ⟨7, 1⟩)

/-- The second subscriber gets the event of the other manager, and an event is lost without an
error. -/
theorem eventMgr_loses :
    ¬RunDelivers ⟨0, 0⟩ 2 sharedRun ∧ ¬RunDelivers ⟨0, 0⟩ 1 crowdedRun := by
  constructor
  · intro delivers
    have wrong : (sharedRun.foldl next (some (.start ⟨0, 0⟩ 2))).all (fun world =>
        world.mgrs.any fun mgr => mgr.pub.begun.any fun distribution =>
          distribution.calls.any fun call => decide (call.event ≠ distribution.event)) = true := by
      decide
    have ⟨world, reached, delivered⟩ := delivers.last
    rw [reached] at wrong
    simp only [Option.all_some, any_eq_true, decide_eq_true_eq] at wrong
    have ⟨mgr, member, distribution, begun, call, called, apart⟩ := wrong
    exact apart (((delivered mgr member).immediate.right distribution begun).calls call called).1
  · intro delivers
    have lost : (crowdedRun.foldl next (some (.start ⟨0, 0⟩ 1))).all (fun world =>
        world.mgrs.any fun mgr => decide (pjSuccess ∈ mgr.refused)) = true := by
      decide
    have ⟨world, reached, delivered⟩ := delivers.last
    rw [reached] at lost
    simp only [Option.all_some, any_eq_true, decide_eq_true_eq] at lost
    have ⟨mgr, member, refused⟩ := lost
    exact (delivered mgr member).refused pjSuccess refused rfl

end Pjmedia.Event
