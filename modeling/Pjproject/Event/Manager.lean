import Pjproject.Lib.Circular
import Pjproject.Lib.Run
import Pjproject.Lib.Walk
import Pjproject.Stun.Errno

/-!
# Event managers

`event.c`: a manager passes events to its subscribers. An event that is posted waits in the ring of
the manager for its thread, which lets go of the lock around each callback; one that is published at
once is distributed by the caller under the lock, and so are those that callbacks publish meanwhile,
from a ring that all managers share. A step goes from the return of one callback to the call of the
next, so that other calls come in between, from the callback or from other threads. A walk that
follows a pointer out of the list of subscribers has no outcome. What callbacks return, which only
the first of nested calls passes on, and the creation and destruction of managers are left out.
-/

namespace Pjmedia.Event
open Pjnath.Stun

/-! ## Data -/

/-- `MAX_EVENTS`. -/
def maxEvents : Nat := 16

/-- `pjmedia_event`: the publisher and the rest. -/
structure MediaEvent (α : Type) where
  epub : Nat
  content : α
deriving DecidableEq, Repr

/-- `esub`, a node with its address. A null pointer stands for any publisher. The number of the
subscription is history. -/
structure Esub where
  node : Nat
  cb : Nat
  userData : Option Nat
  epub : Option Nat
  subscription : Nat
deriving DecidableEq, Repr

/-- `event_queue`. -/
structure EventQueue (α : Type) where
  events : Nat → MediaEvent α
  head : Nat
  tail : Nat
  isFull : Bool

/-- The next subscriber of a walk: a null pointer where no walk goes on, the list itself at its end,
or a node. -/
inductive NextSub
  | null | list | node (node : Nat)
deriving DecidableEq, Repr

/-- A callback that was called: the subscriber, the event, and whether the subscription had ended. -/
structure Call (α : Type) where
  sub : Esub
  event : MediaEvent α
  gone : Bool
deriving DecidableEq, Repr

/-- The distribution of an event: the subscriptions for its publisher at the beginning, the calls,
and the subscriptions at the end. -/
structure Distribution (α : Type) where
  event : MediaEvent α
  present : List Nat
  calls : List (Call α)
  stayed : List Nat
deriving DecidableEq, Repr

/-- `th_next_sub` or `pub_next_sub`, with the slot of the event that is distributed. What follows is
history: the events that were accepted, the distributions that have ended and the one that goes on. -/
structure Walker (α : Type) where
  nextSub : NextSub
  ev : Nat
  accepted : List (MediaEvent α)
  past : List (Distribution α)
  current : Option (Distribution α)
deriving DecidableEq, Repr

/-- `pjmedia_event_mgr`. `publishing` says that `pub_ev_queue` is set, and `nextNode` is the address
of the next node from the pool. What follows is history: how many subscriptions there were, those
that have ended, and what was returned for events that were lost. -/
structure EventMgr (α : Type) where
  evQueue : EventQueue α
  sem : Nat
  publishing : Bool
  esubList : List Esub
  freeEsubList : List Nat
  th : Walker α
  pub : Walker α
  nextNode : Nat
  subscribed : Nat
  unsubscribed : List Nat
  refused : List Int

variable {α : Type}

/-! ## Queues -/

namespace EventQueue

/-- A queue that is zeroed. -/
def empty (blank : MediaEvent α) : EventQueue α := ⟨fun _ => blank, 0, 0, false⟩

/-- `event_queue_add_event`. -/
def addEvent (queue : EventQueue α) (event : MediaEvent α) : EventQueue α × Int :=
  if queue.isFull then (queue, pjEtoomany) else
  let tail := (queue.tail + 1) % maxEvents
  ({ queue with
      events := Function.update queue.events queue.tail event
      tail := tail
      isFull := decide (tail = queue.head) }, pjSuccess)

/-- The event in front has been distributed. -/
def pop (queue : EventQueue α) : EventQueue α :=
  { queue with head := (queue.head + 1) % maxEvents, isFull := false }

/-- The queue is set up for a publication. -/
def reset (queue : EventQueue α) : EventQueue α := { queue with head := 0, tail := 0, isFull := false }

end EventQueue

/-! ## Distribution -/

/-- A subscriber is interested in an event. -/
def Esub.interested (event : MediaEvent α) (sub : Esub) : Bool :=
  sub.epub = some event.epub || sub.epub = none

/-- The pointer to the first of some nodes of the list. -/
def NextSub.ofCursor : Option Nat → NextSub
  | none => .list
  | some address => .node address

namespace Walker

/-- Nothing has been published. -/
def idle : Walker α := ⟨.null, 0, [], [], none⟩

/-- An event is accepted. -/
def accept (walker : Walker α) (event : MediaEvent α) : Walker α :=
  { walker with accepted := walker.accepted ++ [event] }

/-- `event_mgr_distribute_events` takes the event in front of a queue. -/
def start (walker : Walker α) (queue : EventQueue α) (subs : List Esub) : Walker α :=
  let event := queue.events queue.head
  { walker with
    ev := queue.head
    current := some {
      event := event
      present := (subs.filter (Esub.interested event)).map Esub.subscription
      calls := []
      stayed := [] } }

/-- A subscriber is called. -/
def call (walker : Walker α) (sub : Esub) (next : NextSub) (event : MediaEvent α) (gone : List Nat) :
    Walker α :=
  { walker with
    nextSub := next
    current := walker.current.map fun distribution =>
      { distribution with
        calls := distribution.calls ++ [⟨sub, event, decide (sub.subscription ∈ gone)⟩] } }

/-- No subscriber is left. -/
def finish (walker : Walker α) (subs : List Esub) : Walker α :=
  { walker with
    nextSub := .null
    past := walker.past ++ (walker.current.map fun distribution =>
      { distribution with stayed := subs.map Esub.subscription }).toList
    current := none }

end Walker

namespace EventMgr

/-- A manager as it is created. -/
def create (blank : MediaEvent α) : EventMgr α where
  evQueue := .empty blank
  sem := 0
  publishing := false
  esubList := []
  freeEsubList := []
  th := .idle
  pub := .idle
  nextNode := 0
  subscribed := 0
  unsubscribed := []
  refused := []

/-- The nodes from a pointer on. -/
def nodesFrom (mgr : EventMgr α) : NextSub → Option (List Esub)
  | .null => none
  | .list => some []
  | .node node =>
    if node ∈ mgr.esubList.map Esub.node then some (Walk.ahead Esub.node mgr.esubList (some node))
    else none

/-- `event_mgr_distribute_events` from a node on: it calls the next subscriber that is interested,
or is through with the event. -/
def distribute (mgr : EventMgr α) (walker : Walker α) (queue : EventQueue α) (rest : List Esub) :
    Walker α × EventQueue α :=
  let event := queue.events walker.ev
  match rest.dropWhile fun sub => !sub.interested event with
  | sub :: later =>
    (walker.call sub (.ofCursor (Walk.cursor Esub.node later)) event mgr.unsubscribed, queue)
  | [] => (walker.finish mgr.esubList, queue.pop)

/-- `event_mgr_distribute_events` on the queue of the manager. -/
def distributePosted (mgr : EventMgr α) (rest : List Esub) : EventMgr α :=
  let (th, queue) := mgr.distribute mgr.th mgr.evQueue rest
  { mgr with th := th, evQueue := queue }

/-- `event_worker_thread`: an event is taken, or a callback has returned. The thread waits for an
event, and for the lock while one is published at once. -/
def work (mgr : EventMgr α) : Option (EventMgr α) :=
  if mgr.publishing then some mgr
  else if mgr.th.nextSub = .null then
    if mgr.sem = 0 then some mgr else
    let mgr := { mgr with sem := mgr.sem - 1, th := mgr.th.start mgr.evQueue mgr.esubList }
    some (mgr.distributePosted mgr.esubList)
  else (mgr.nodesFrom mgr.th.nextSub).map mgr.distributePosted

/-- The loop of `pjmedia_event_publish`, which runs until it calls a subscriber or all events have
been distributed. -/
def distributeNow : Nat → EventMgr α → EventQueue α → List Esub → Option (EventMgr α × EventQueue α)
  | 0, _, _, _ => none
  | rounds + 1, mgr, queue, rest =>
    let (pub, queue) := mgr.distribute mgr.pub queue rest
    if pub.nextSub ≠ .null then some ({ mgr with pub := pub }, queue)
    else if queue.head ≠ queue.tail ∨ queue.isFull = true then
      distributeNow rounds { mgr with pub := pub.start queue mgr.esubList } queue mgr.esubList
    else some ({ mgr with pub := pub, publishing := false }, queue)

/-- `pjmedia_event_publish`, of an event that is posted. -/
def post (mgr : EventMgr α) (event : MediaEvent α) : EventMgr α :=
  let (queue, status) := mgr.evQueue.addEvent event
  if status = pjSuccess then
    { mgr with evQueue := queue, sem := mgr.sem + 1, th := mgr.th.accept event }
  else { mgr with refused := mgr.refused ++ [pjSuccess] }

/-- `pjmedia_event_publish`, of an event that is published at once, with the ring of all managers. -/
def publish (mgr : EventMgr α) (queue : EventQueue α) (event : MediaEvent α) :
    Option (EventMgr α × EventQueue α) :=
  if mgr.publishing then
    let (queue, status) := queue.addEvent event
    if status = pjSuccess then some ({ mgr with pub := mgr.pub.accept event }, queue)
    else some ({ mgr with refused := mgr.refused ++ [pjSuccess] }, queue)
  else
    let queue := (queue.reset.addEvent event).1
    let pub := (mgr.pub.accept event).start queue mgr.esubList
    distributeNow maxEvents { mgr with publishing := true, pub := pub } queue mgr.esubList

/-- A callback of an event that was published at once has returned. -/
def returns (mgr : EventMgr α) (queue : EventQueue α) : Option (EventMgr α × EventQueue α) :=
  if mgr.publishing then
    (mgr.nodesFrom mgr.pub.nextSub).bind (distributeNow maxEvents mgr queue)
  else some (mgr, queue)

/-! ## Subscriptions -/

/-- `pjmedia_event_subscribe`. -/
def subscribe (mgr : EventMgr α) (cb : Nat) (userData epub : Option Nat) : EventMgr α :=
  if mgr.esubList.any fun sub => sub.cb = cb && sub.userData = userData && sub.epub = epub then mgr
  else
    { mgr with
      esubList := mgr.esubList ++
        [⟨mgr.freeEsubList.headD mgr.nextNode, cb, userData, epub, mgr.subscribed⟩]
      freeEsubList := mgr.freeEsubList.tail
      nextNode := if mgr.freeEsubList = [] then mgr.nextNode + 1 else mgr.nextNode
      subscribed := mgr.subscribed + 1 }

/-- A pointer to a node that is taken out moves to the next one. -/
def moveOn (mgr : EventMgr α) (sub : Esub) (walker : Walker α) : Walker α :=
  if walker.nextSub = .node sub.node then
    { walker with nextSub := .ofCursor (Walk.behind Esub.node mgr.esubList sub.node) }
  else walker

/-- A node goes to the free list. -/
def remove (mgr : EventMgr α) (sub : Esub) : EventMgr α :=
  { mgr with
    th := mgr.moveOn sub mgr.th
    pub := mgr.moveOn sub mgr.pub
    esubList := Walk.erase Esub.node mgr.esubList sub.node
    freeEsubList := mgr.freeEsubList ++ [sub.node]
    unsubscribed := mgr.unsubscribed ++ [sub.subscription] }

/-- The loop of `pjmedia_event_unsubscribe`. -/
def unsubscribeFrom (cb : Nat) (userData epub : Option Nat) : List Esub → EventMgr α → EventMgr α
  | [], mgr => mgr
  | sub :: rest, mgr =>
    if sub.cb = cb ∧ (sub.userData = userData ∨ userData = none) ∧ (sub.epub = epub ∨ epub = none) then
      if userData.isSome ∧ epub.isSome then mgr.remove sub
      else unsubscribeFrom cb userData epub rest (mgr.remove sub)
    else unsubscribeFrom cb userData epub rest mgr

/-- `pjmedia_event_unsubscribe`. -/
def unsubscribe (mgr : EventMgr α) (cb : Nat) (userData epub : Option Nat) : EventMgr α :=
  unsubscribeFrom cb userData epub mgr.esubList mgr

end EventMgr

/-! ## Several managers -/

/-- The managers, and the static queue of `pjmedia_event_publish`. -/
structure World (α : Type) where
  mgrs : List (EventMgr α)
  evQueue : EventQueue α

/-- What happens: a call, the return of a callback of an event that was published at once, or the
next part of the work of a thread. -/
inductive Op (α : Type)
  | subscribe (mgr cb : Nat) (userData epub : Option Nat)
  | unsubscribe (mgr cb : Nat) (userData epub : Option Nat)
  | post (mgr : Nat) (event : MediaEvent α)
  | publish (mgr : Nat) (event : MediaEvent α)
  | returns (mgr : Nat)
  | work (mgr : Nat)

namespace World

/-- Managers that were created. -/
def start (blank : MediaEvent α) (count : Nat) : World α :=
  ⟨List.replicate count (.create blank), .empty blank⟩

/-- One manager changes, with the static queue. -/
def change (world : World α) (mgr : Nat)
    (act : EventMgr α → EventQueue α → Option (EventMgr α × EventQueue α)) : Option (World α) :=
  match world.mgrs[mgr]? with
  | none => some world
  | some old => (act old world.evQueue).map fun (new, queue) => ⟨world.mgrs.set mgr new, queue⟩

/-- What a step does to its manager. -/
def step (world : World α) : Op α → Option (World α)
  | .subscribe mgr cb userData epub =>
    world.change mgr fun mgr queue => some (mgr.subscribe cb userData epub, queue)
  | .unsubscribe mgr cb userData epub =>
    world.change mgr fun mgr queue => some (mgr.unsubscribe cb userData epub, queue)
  | .post mgr event => world.change mgr fun mgr queue => some (mgr.post event, queue)
  | .publish mgr event => world.change mgr fun mgr queue => mgr.publish queue event
  | .returns mgr => world.change mgr fun mgr queue => mgr.returns queue
  | .work mgr => world.change mgr fun mgr queue => mgr.work.map fun mgr => (mgr, queue)

end World

/-- A run goes on as long as its steps have an outcome. -/
def next (world : Option (World α)) (op : Op α) : Option (World α) :=
  world.bind fun world => world.step op

end Pjmedia.Event
