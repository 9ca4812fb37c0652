import Mathlib.Data.List.Nodup
import Pjproject.Event.Queue

/-!
# Distributions

A walk keeps a rest of the list of subscribers ahead of it, and whoever was there when it began has
been called, is ahead, or has left. Subscribers that come and go in between keep it so.
-/

namespace Pjmedia.Event
open List

variable {α : Type}

/-! ## What subscribers get -/

/-- The subscriptions that were called in a distribution. -/
def Distribution.called (distribution : Distribution α) : List Nat :=
  distribution.calls.map fun call => call.sub.subscription

/-- The calls of a distribution have its event, and go to subscribers for its publisher that have
not left, to none twice. -/
structure Distribution.Right (distribution : Distribution α) : Prop where
  calls : ∀ call ∈ distribution.calls, call.event = distribution.event ∧
    call.sub.interested distribution.event = true ∧ call.gone = false
  once : distribution.called.Nodup

/-- Who stayed throughout a distribution was called. -/
def Distribution.Complete (distribution : Distribution α) : Prop :=
  ∀ subscription ∈ distribution.present, subscription ∈ distribution.stayed →
    subscription ∈ distribution.called

/-- The distributions that have begun. -/
def Walker.begun (walker : Walker α) : List (Distribution α) := walker.past ++ walker.current.toList

/-- The events of a queue are distributed in the order in which they were accepted. -/
structure Walker.Delivered (walker : Walker α) : Prop where
  order : walker.begun.map Distribution.event <+: walker.accepted
  right : ∀ distribution ∈ walker.begun, distribution.Right
  complete : ∀ distribution ∈ walker.past, distribution.Complete

/-! ## Subscriptions -/

/-- No node and no number of a subscription is used twice. -/
structure EventMgr.Listed (mgr : EventMgr α) : Prop where
  nodes : (mgr.esubList.map Esub.node ++ mgr.freeEsubList).Nodup
  allocated : ∀ node ∈ mgr.esubList.map Esub.node ++ mgr.freeEsubList, node < mgr.nextNode
  numbers : (mgr.esubList.map Esub.subscription ++ mgr.unsubscribed).Nodup
  counted : ∀ number ∈ mgr.esubList.map Esub.subscription ++ mgr.unsubscribed,
    number < mgr.subscribed

namespace EventMgr.Listed

variable {mgr : EventMgr α} {sub : Esub} {rest : List Esub}

section
variable (listed : mgr.Listed)
include listed

theorem nodup_nodes : (mgr.esubList.map Esub.node).Nodup :=
  (nodup_append.mp listed.nodes).1

theorem nodup_numbers : (mgr.esubList.map Esub.subscription).Nodup :=
  (nodup_append.mp listed.numbers).1

/-- A subscriber in the list has not left. -/
theorem stays (member : sub ∈ mgr.esubList) : sub.subscription ∉ mgr.unsubscribed := by
  intro left
  exact (nodup_append.mp listed.numbers).2.2 _ (mem_map_of_mem member) _ left rfl

theorem fresh (member : sub ∈ mgr.esubList) : sub.subscription < mgr.subscribed :=
  listed.counted _ (mem_append_left _ (mem_map_of_mem member))

/-- The nodes from the pointer of a walk on. -/
theorem nodesFrom (suffix : rest <:+ mgr.esubList) :
    mgr.nodesFrom (.ofCursor (Walk.cursor Esub.node rest)) = some rest := by
  cases rest with
  | nil => rfl
  | cons sub rest =>
    have inside : sub.node ∈ mgr.esubList.map Esub.node :=
      mem_map_of_mem (suffix.mem mem_cons_self)
    have ahead := Walk.ahead_cursor listed.nodup_nodes suffix
    change (if sub.node ∈ mgr.esubList.map Esub.node then
      some (Walk.ahead Esub.node mgr.esubList (some sub.node)) else none) = _
    rw [if_pos inside]
    exact congrArg some ahead

/-- A node from the free list, or a new one. -/
theorem subscribe (cb : Nat) (userData epub : Option Nat) :
    (mgr.subscribe cb userData epub).Listed := by
  unfold EventMgr.subscribe
  split
  · exact listed
  · exact {
      nodes := by
        simp only [map_append, map_singleton]
        cases free : mgr.freeEsubList with
        | nil =>
          have allocated := listed.allocated
          have nodup := listed.nodup_nodes
          rw [free, append_nil] at allocated
          simp only [headD_nil, tail_nil, append_nil]
          apply nodup_append.mpr
          refine ⟨nodup, by simp, ?_⟩
          intro node member other new same
          rw [mem_singleton.mp new] at same
          exact absurd (allocated node member) (by omega)
        | cons node rest =>
          have nodes := listed.nodes
          rw [free] at nodes
          simp only [headD_cons, tail_cons, append_assoc, singleton_append]
          exact nodes
      allocated := by
        intro node member
        have allocated := listed.allocated node
        simp only [map_append, map_singleton] at member
        cases free : mgr.freeEsubList with
        | nil =>
          rw [free] at member allocated
          simp only [headD_nil, tail_nil, append_nil, mem_append,
            mem_singleton] at member allocated
          rcases member with old | new
          · exact Nat.lt_succ_of_lt (allocated old)
          · rw [new]
            exact Nat.lt_succ_self _
        | cons first rest =>
          rw [free] at member allocated
          simp only [headD_cons, tail_cons, append_assoc,
            singleton_append] at member
          exact allocated member
      numbers := by
        simp only [map_append, map_singleton, append_assoc, singleton_append]
        apply perm_middle.nodup_iff.mpr
        apply nodup_cons.mpr
        refine ⟨?_, listed.numbers⟩
        intro member
        exact absurd (listed.counted _ member) (Nat.lt_irrefl _)
      counted := by
        intro number member
        simp only [map_append, map_singleton, append_assoc, singleton_append,
          mem_append, mem_cons] at member
        have counted := listed.counted number
        rw [mem_append] at counted
        rcases member with old | new | left
        · exact Nat.lt_succ_of_lt (counted (.inl old))
        · rw [new]
          exact Nat.lt_succ_self _
        · exact Nat.lt_succ_of_lt (counted (.inr left)) }

/-- What the subscribers and those behind have in common with what they had before one left. -/
theorem perm_remove {ν : Type} (member : sub ∈ mgr.esubList) (field : Esub → ν) (behind : List ν) :
    ((mgr.remove sub).esubList.map field ++ (behind ++ [field sub])).Perm
      (mgr.esubList.map field ++ behind) := by
  have taken := (Walk.perm_erase listed.nodup_nodes member).map field
  calc
    List.Perm ((mgr.remove sub).esubList.map field ++ (behind ++ [field sub]))
        ((mgr.remove sub).esubList.map field ++ (field sub :: behind)) :=
      (perm_append_singleton _ _).append_left _
    List.Perm _ (field sub :: ((mgr.remove sub).esubList.map field ++ behind)) :=
      perm_middle
    List.Perm _ (mgr.esubList.map field ++ behind) := (taken.append_right behind).symm

/-- A node goes to the free list. -/
theorem remove (member : sub ∈ mgr.esubList) : (mgr.remove sub).Listed where
  nodes := (listed.perm_remove member Esub.node _).nodup_iff.mpr listed.nodes
  allocated node inside :=
    listed.allocated node ((listed.perm_remove member Esub.node _).mem_iff.mp inside)
  numbers := (listed.perm_remove member Esub.subscription _).nodup_iff.mpr listed.numbers
  counted number inside :=
    listed.counted number ((listed.perm_remove member Esub.subscription _).mem_iff.mp inside)

end

end EventMgr.Listed

/-! ## Walks -/

/-- Nobody ahead is interested. -/
theorem EventMgr.distribute_through {mgr : EventMgr α} {walker : Walker α} {queue : EventQueue α}
    {rest : List Esub}
    (found : (rest.dropWhile fun sub => !sub.interested (queue.events walker.ev)) = []) :
    mgr.distribute walker queue rest = (walker.finish mgr.esubList, queue.pop) := by
  unfold distribute
  simp only [found]

/-- The next subscriber that is interested. -/
theorem EventMgr.distribute_calls {mgr : EventMgr α} {walker : Walker α} {queue : EventQueue α}
    {rest ahead : List Esub} {sub : Esub}
    (found : (rest.dropWhile fun sub => !sub.interested (queue.events walker.ev)) = sub :: ahead) :
    mgr.distribute walker queue rest =
      (walker.call sub (.ofCursor (Walk.cursor Esub.node ahead)) (queue.events walker.ev)
        mgr.unsubscribed, queue) := by
  unfold distribute
  simp only [found]

/-- The accounts of a queue: what was accepted was distributed or waits. -/
structure Walker.Accounts (walker : Walker α) (waiting : List (MediaEvent α)) : Prop where
  accepted : walker.accepted = walker.past.map Distribution.event ++ waiting
  past : ∀ distribution ∈ walker.past, distribution.Right ∧ distribution.Complete

/-- A distribution of the event in front of a queue, with a rest of the subscribers ahead. -/
structure Walker.Underway (walker : Walker α) (mgr : EventMgr α) (queue : EventQueue α)
    (rest : List Esub) (distribution : Distribution α) : Prop where
  current : walker.current = some distribution
  ev : walker.ev = queue.head
  front : ∃ later, queue.waiting = distribution.event :: later
  suffix : rest <:+ mgr.esubList
  calls : ∀ call ∈ distribution.calls, call.event = distribution.event ∧
    call.sub.interested distribution.event = true ∧ call.gone = false
  counted : ∀ number ∈ distribution.called, number < mgr.subscribed
  visits : Walk.Visits Esub.subscription (Esub.interested distribution.event) rest
    distribution.present distribution.called mgr.unsubscribed

/-- Nothing is distributed. -/
structure Walker.Idle (walker : Walker α) : Prop where
  current : walker.current = none
  nextSub : walker.nextSub = .null

/-- A callback is called, and the walk goes on behind it. -/
structure Walker.Calling (walker : Walker α) (mgr : EventMgr α) (queue : EventQueue α) : Prop where
  walk : ∃ rest distribution, walker.Underway mgr queue rest distribution ∧
    walker.nextSub = .ofCursor (Walk.cursor Esub.node rest)

namespace Walker

variable {walker : Walker α} {mgr : EventMgr α} {queue : EventQueue α} {rest : List Esub}
  {distribution : Distribution α} {waiting : List (MediaEvent α)}

theorem ofCursor_ne (cursor : Option Nat) : NextSub.ofCursor cursor ≠ .null := by
  intro same
  cases cursor with
  | none => cases same
  | some address => cases same

theorem Calling.nextSub (calling : walker.Calling mgr queue) : walker.nextSub ≠ .null := by
  have ⟨rest, distribution, _, next⟩ := calling.walk
  rw [next]
  exact ofCursor_ne _

variable {mgr' : EventMgr α}

/-- A walk depends on the subscriptions of its manager alone. -/
theorem Underway.congr (underway : walker.Underway mgr queue rest distribution)
    (subs : mgr'.esubList = mgr.esubList) (gone : mgr'.unsubscribed = mgr.unsubscribed)
    (subscribed : mgr'.subscribed = mgr.subscribed) :
    walker.Underway mgr' queue rest distribution where
  current := underway.current
  ev := underway.ev
  front := underway.front
  suffix := by
    rw [subs]
    exact underway.suffix
  calls := underway.calls
  counted := by
    rw [subscribed]
    exact underway.counted
  visits := by
    rw [gone]
    exact underway.visits

theorem Calling.congr (calling : walker.Calling mgr queue) (subs : mgr'.esubList = mgr.esubList)
    (gone : mgr'.unsubscribed = mgr.unsubscribed) (subscribed : mgr'.subscribed = mgr.subscribed) :
    walker.Calling mgr' queue := by
  have ⟨rest, distribution, underway, next⟩ := calling.walk
  exact ⟨rest, distribution, underway.congr subs gone subscribed, next⟩

/-- The distribution of the event in front begins. -/
theorem Accounts.start (accounts : walker.Accounts queue.waiting) (proper : queue.Proper)
    (waits : queue.waiting ≠ []) :
    (walker.start queue mgr.esubList).Accounts queue.waiting ∧
      ∃ distribution, (walker.start queue mgr.esubList).Underway mgr queue mgr.esubList distribution := by
  have ⟨event, later, waits⟩ := exists_cons_of_ne_nil waits
  have front := proper.front waits
  constructor
  · exact ⟨accounts.accepted, accounts.past⟩
  · exact ⟨_, {
      current := rfl
      ev := rfl
      front := ⟨later, waits.trans (by rw [front])⟩
      suffix := suffix_refl _
      calls := by
        intro call member
        cases member
      counted := by
        intro number member
        cases member
      visits := Walk.visits_start }⟩

/-- A part of a distribution ends with a callback, or with the event. -/
theorem Underway.distribute (underway : walker.Underway mgr queue rest distribution)
    (accounts : walker.Accounts queue.waiting) (proper : queue.Proper) (listed : mgr.Listed) :
    ((mgr.distribute walker queue rest).2 = queue ∧
      (mgr.distribute walker queue rest).1.Accounts queue.waiting ∧
      (mgr.distribute walker queue rest).1.Calling mgr queue) ∨
    ((mgr.distribute walker queue rest).2 = queue.pop ∧
      (mgr.distribute walker queue rest).1.Accounts queue.pop.waiting ∧
      (mgr.distribute walker queue rest).1.Idle) := by
  have ⟨later, waits⟩ := underway.front
  have event : queue.events walker.ev = distribution.event := by
    rw [underway.ev]
    exact proper.front waits
  have visits := underway.visits
  cases found : rest.dropWhile fun sub => !sub.interested distribution.event with
  | nil =>
    have called := visits.through found
    rw [← event] at found
    rw [EventMgr.distribute_through found]
    right
    refine ⟨rfl, ⟨?_, ?_⟩, rfl, rfl⟩
    · change walker.accepted = List.map Distribution.event (walker.past ++
        (walker.current.map fun distribution => { distribution with
          stayed := mgr.esubList.map Esub.subscription }).toList) ++ queue.pop.waiting
      rw [underway.current, (proper.pop waits).2, map_append, append_assoc,
        accounts.accepted, waits]
      rfl
    · intro past member
      change past ∈ walker.past ++ (walker.current.map fun distribution => { distribution with
        stayed := mgr.esubList.map Esub.subscription }).toList at member
      rw [underway.current] at member
      rcases mem_append.mp member with before | now
      · exact accounts.past past before
      · rw [mem_singleton.mp now]
        refine ⟨⟨underway.calls, visits.once⟩, ?_⟩
        intro number here stayed
        rcases called number here with visited | left
        · exact visited
        · have ⟨sub, inside, same⟩ := mem_map.mp stayed
          rw [← same] at left
          exact absurd left (listed.stays inside)
  | cons sub ahead =>
    have suffix : sub :: ahead <:+ mgr.esubList :=
      List.IsSuffix.trans (found ▸ List.dropWhile_suffix _) underway.suffix
    have inside : sub ∈ mgr.esubList := suffix.mem mem_cons_self
    have wanted : sub.interested distribution.event = true := by
      have head := head?_dropWhile_not (fun sub => !sub.interested distribution.event) rest
      rw [found] at head
      simpa using head
    have numbers : (rest.map Esub.subscription).Nodup :=
      (underway.suffix.sublist.map _).nodup listed.nodup_numbers
    have visited := visits.visit numbers found
    rw [← event] at found
    rw [EventMgr.distribute_calls found, event]
    left
    refine ⟨rfl, ⟨accounts.accepted, accounts.past⟩, ⟨ahead, { distribution with
      calls := distribution.calls ++ [⟨sub, distribution.event, decide (sub.subscription ∈
        mgr.unsubscribed)⟩] }, ?_, rfl⟩⟩
    exact {
      current := by
        change walker.current.map _ = _
        rw [underway.current]
        rfl
      ev := underway.ev
      front := underway.front
      suffix := List.IsSuffix.trans (suffix_cons sub ahead) suffix
      calls := by
        intro call member
        rcases mem_append.mp member with before | now
        · exact underway.calls call before
        · rw [mem_singleton.mp now]
          exact ⟨rfl, wanted, decide_eq_false (listed.stays inside)⟩
      counted := by
        intro number member
        rw [Distribution.called, map_append] at member
        rcases mem_append.mp member with before | now
        · exact underway.counted number before
        · rw [mem_singleton.mp now]
          exact listed.fresh inside
      visits := by
        rw [Distribution.called, map_append]
        exact visited }

/-- A new subscriber is ahead of a walk that has not come to the end. -/
theorem Calling.subscribe (calling : walker.Calling mgr queue) (cb : Nat)
    (userData epub : Option Nat) : walker.Calling (mgr.subscribe cb userData epub) queue := by
  have ⟨rest, distribution, underway, next⟩ := calling.walk
  unfold EventMgr.subscribe
  split
  · exact calling
  · have counted : ∀ number ∈ distribution.called, number < mgr.subscribed + 1 := by
      intro number member
      exact Nat.lt_succ_of_lt (underway.counted number member)
    cases rest with
    | nil =>
      exact ⟨[], distribution, {
        current := underway.current
        ev := underway.ev
        front := underway.front
        suffix := nil_suffix
        calls := underway.calls
        counted := counted
        visits := underway.visits }, next⟩
    | cons sub rest =>
      have fresh : mgr.subscribed ∉ distribution.called := by
        intro member
        exact absurd (underway.counted _ member) (Nat.lt_irrefl _)
      have ⟨front, split⟩ := underway.suffix
      exact ⟨sub :: rest ++ [⟨_, cb, userData, epub, mgr.subscribed⟩], distribution, {
        current := underway.current
        ev := underway.ev
        front := underway.front
        suffix := ⟨front, by rw [← append_assoc, split]⟩
        calls := underway.calls
        counted := counted
        visits := underway.visits.append fresh }, next⟩

/-- The pointer of a walk when a subscriber is taken out. -/
theorem nextSub_moveOn {sub : Esub} (listed : mgr.Listed) (suffix : rest <:+ mgr.esubList)
    (next : walker.nextSub = .ofCursor (Walk.cursor Esub.node rest)) :
    (mgr.moveOn sub walker).nextSub =
      .ofCursor (Walk.cursor Esub.node (Walk.erase Esub.node rest sub.node)) := by
  have moved : Walk.step Esub.node mgr.esubList sub.node (Walk.cursor Esub.node rest) =
      Walk.cursor Esub.node (Walk.erase Esub.node rest sub.node) :=
    Walk.step_cursor listed.nodup_nodes suffix
  rw [← moved, Walk.step]
  have same : walker.nextSub = .node sub.node ↔ Walk.cursor Esub.node rest = some sub.node := by
    rw [next]
    cases Walk.cursor Esub.node rest with
    | none => simp [NextSub.ofCursor]
    | some address => simp [NextSub.ofCursor]
  unfold EventMgr.moveOn
  by_cases at' : Walk.cursor Esub.node rest = some sub.node
  · rw [if_pos (same.mpr at'), if_pos at']
  · rw [if_neg (fun node => at' (same.mp node)), if_neg at']
    exact next

/-- Besides its pointer, a walk stays as it is when a subscriber is taken out. -/
theorem moveOn_eq (sub : Esub) :
    mgr.moveOn sub walker = { walker with nextSub := (mgr.moveOn sub walker).nextSub } := by
  unfold EventMgr.moveOn
  split <;> rfl

/-- A subscriber that is taken out is not ahead any more. -/
theorem Calling.remove {sub : Esub} (calling : walker.Calling mgr queue) (listed : mgr.Listed)
    (member : sub ∈ mgr.esubList) : (mgr.moveOn sub walker).Calling (mgr.remove sub) queue := by
  have ⟨rest, distribution, underway, next⟩ := calling.walk
  have moved : (mgr.moveOn sub walker).nextSub =
      .ofCursor (Walk.cursor Esub.node (Walk.erase Esub.node rest sub.node)) :=
    nextSub_moveOn listed underway.suffix next
  have leaving : ∀ entry ∈ rest, entry.node = sub.node → entry.subscription = sub.subscription := by
    intro entry inside same
    rw [inj_on_of_nodup_map listed.nodup_nodes (underway.suffix.mem inside) member same]
  rw [moveOn_eq]
  exact ⟨Walk.erase Esub.node rest sub.node, distribution, {
    current := underway.current
    ev := underway.ev
    front := underway.front
    suffix := Walk.suffix_erase underway.suffix
    calls := underway.calls
    counted := underway.counted
    visits := underway.visits.erase leaving }, moved⟩

theorem Idle.remove {sub : Esub} (idle : walker.Idle) : (mgr.moveOn sub walker).Idle := by
  unfold EventMgr.moveOn
  rw [if_neg (by rw [idle.nextSub]; exact NextSub.noConfusion)]
  exact idle

theorem Accounts.remove {sub : Esub} (accounts : walker.Accounts waiting) :
    (mgr.moveOn sub walker).Accounts waiting := by
  rw [moveOn_eq]
  exact ⟨accounts.accepted, accounts.past⟩

variable {event : MediaEvent α}

/-- An event that is put into the queue waits behind the one that is distributed. -/
theorem Calling.accept {queue' : EventQueue α} (calling : walker.Calling mgr queue)
    (head : queue'.head = queue.head) (waiting : queue'.waiting = queue.waiting ++ [event]) :
    (walker.accept event).Calling mgr queue' := by
  have ⟨rest, distribution, underway, next⟩ := calling.walk
  have ⟨later, front⟩ := underway.front
  exact ⟨rest, distribution, {
    current := underway.current
    ev := underway.ev.trans head.symm
    front := ⟨later ++ [event], by rw [waiting, front, cons_append]⟩
    suffix := underway.suffix
    calls := underway.calls
    counted := underway.counted
    visits := underway.visits }, next⟩

/-- An event is accepted behind the others. -/
theorem Accounts.accept (accounts : walker.Accounts waiting) :
    (walker.accept event).Accounts (waiting ++ [event]) where
  accepted := by
    change walker.accepted ++ [event] = _
    rw [accounts.accepted, append_assoc]
    rfl
  past := accounts.past

/-- What a walker between two steps has delivered. -/
theorem Accounts.delivered (accounts : walker.Accounts queue.waiting)
    (stage : walker.Idle ∨ walker.Calling mgr queue) : walker.Delivered := by
  rcases stage with idle | calling
  · have begun : walker.begun = walker.past := by
      rw [Walker.begun, idle.current]
      exact append_nil _
    exact {
      order := by
        rw [begun, accounts.accepted]
        exact prefix_append ..
      right := by
        intro distribution member
        rw [begun] at member
        exact (accounts.past distribution member).1
      complete := fun distribution member => (accounts.past distribution member).2 }
  · have ⟨rest, distribution, underway, _⟩ := calling.walk
    have ⟨later, front⟩ := underway.front
    have begun : walker.begun = walker.past ++ [distribution] := by
      rw [Walker.begun, underway.current]
      rfl
    exact {
      order := by
        refine ⟨later, ?_⟩
        rw [begun, accounts.accepted, front, map_append, append_assoc]
        rfl
      right := by
        intro other member
        rw [begun] at member
        rcases mem_append.mp member with before | now
        · exact (accounts.past other before).1
        · rw [mem_singleton.mp now]
          exact ⟨underway.calls, underway.visits.once⟩
      complete := fun distribution member => (accounts.past distribution member).2 }

end Walker

end Pjmedia.Event
