import Mathlib.Data.Set.Card
import Pjproject.Conference.Calls
import Pjproject.Lib.Run

/-!
# The graph of connections

The listener lists of the ports are the adjacency lists of a graph on the slots. The bridge
counts its ports, its connections and the transmitters of every port besides; the counters
agree with the graph after every sequence of calls.
-/

namespace Pjmedia.Conference

open Option Function List Pj Adjacency

variable {conf : Conf}

/-- The slots that have a port. -/
def Conf.occupied (conf : Conf) : Set Nat :=
  {slot | (conf.ports slot).isSome}

/-- The transmitter count of a slot, zero for an empty one. -/
def Conf.transmitters (conf : Conf) (slot : Nat) : Int :=
  ((conf.ports slot).map ConfPort.transmitterCnt).getD 0

/-- The counters agree with the graph of connections. -/
structure Linked (conf : Conf) : Prop where
  inside : ∀ slot, (conf.ports slot).isSome → slot < conf.maxPorts ∨ slot = 0
  portCount : conf.portCnt = conf.occupied.ncard
  nodup : ∀ slot, (conf.listeners slot).Nodup
  named : ∀ slot sink, sink ∈ conf.listeners slot → (conf.ports sink).isSome
  transmitters : ∀ slot, conf.transmitters slot = inDegree conf.maxPorts conf.listeners slot
  connections : conf.connectCnt = arcs conf.maxPorts conf.listeners

/-- No counter is below zero. Within a call the counters of the bridge and of its ports only
go one way, so none was below zero in between. -/
def Conf.NoUnderflow (conf : Conf) : Prop :=
  0 ≤ conf.portCnt ∧ 0 ≤ conf.connectCnt ∧ ∀ slot, 0 ≤ conf.transmitters slot

/-- Counters that agree with the graph are not below zero. -/
theorem Linked.noUnderflow (linked : Linked conf) : conf.NoUnderflow := by
  refine ⟨?_, ?_, ?_⟩
  · rw [linked.portCount]
    exact Int.natCast_nonneg _
  · rw [linked.connections]
    exact Int.natCast_nonneg _
  · intro slot
    rw [linked.transmitters slot]
    exact Int.natCast_nonneg _

/-- Finitely many slots have a port. -/
theorem Linked.finite (linked : Linked conf) : conf.occupied.Finite := by
  apply (Finset.range (conf.maxPorts + 1)).finite_toSet.subset
  intro slot occupied
  have within := linked.inside slot occupied
  rw [Finset.coe_range, Set.mem_Iio]
  omega

variable {slot : Nat}

/-- An empty slot is nobody's listener. -/
theorem Linked.not_mem_of_none (linked : Linked conf) {sink : Nat}
    (empty : conf.ports sink = none) : sink ∉ conf.listeners slot := by
  intro member
  have occupied := linked.named slot sink member
  rw [empty] at occupied
  exact absurd occupied Bool.false_ne_true

/-- A bridge with fewer ports than slots has a free slot. -/
theorem Linked.exists_free (linked : Linked conf) (room : conf.portCnt < conf.maxPorts) :
    ∃ slot, slot < conf.maxPorts ∧ conf.ports slot = none := by
  by_contra full
  have all : (Finset.range conf.maxPorts : Set Nat) ⊆ conf.occupied := by
    intro slot member
    rw [Finset.coe_range, Set.mem_Iio] at member
    show (conf.ports slot).isSome
    rw [isSome_iff_ne_none]
    intro empty
    exact full ⟨slot, member, empty⟩
  have count := Set.ncard_le_ncard all linked.finite
  rw [Set.ncard_coe_finset, Finset.card_range] at count
  have ports := linked.portCount
  omega

/-- Two bridges with the same occupied slots. -/
theorem occupied_congr {other : Conf}
    (same : ∀ slot, (other.ports slot).isSome = (conf.ports slot).isSome) :
    other.occupied = conf.occupied := by
  ext slot
  show (other.ports slot).isSome = true ↔ (conf.ports slot).isSome = true
  rw [same slot]

/-- Changing a port keeps its slot occupied. -/
theorem isSome_modify (conf : Conf) (slot index : Nat) (change : ConfPort → ConfPort) :
    ((conf.modify slot change).ports index).isSome = (conf.ports index).isSome := by
  rw [ports_modify]
  split
  · exact isSome_map
  · rfl

section
variable {settings : Settings} {maxPorts : Nat} (created : createConf settings maxPorts = some conf)
include created

/-- A new bridge has one port, in slot 0. -/
theorem createConf_cases :
    conf.portCnt = 1 ∧ conf.connectCnt = 0 ∧
      ∃ port, port.listenerSlots = [] ∧ port.transmitterCnt = 0 ∧
        conf.ports = fun slot => if slot = 0 then some port else none := by
  have ⟨port, fresh, made⟩ := map_eq_some_iff.mp created
  have empty := createConfPort_fresh fresh
  rw [← made]
  exact ⟨rfl, rfl, port, empty.1, empty.2, rfl⟩

/-- A new bridge has no connections. -/
theorem createConf_listeners (slot : Nat) : conf.listeners slot = [] := by
  have ⟨_, _, port, listens, _, ports⟩ := createConf_cases created
  rw [Conf.listeners, ports]
  dsimp only
  split
  · exact listens
  · rfl

/-- The counters of a new bridge agree with the graph. -/
theorem createConf_linked : Linked conf := by
  have ⟨portCnt, connectCnt, port, _, transmits, ports⟩ := createConf_cases created
  have silent := createConf_listeners created
  have occupied : ∀ slot, (conf.ports slot).isSome ↔ slot = 0 := by
    intro slot
    rw [ports]
    by_cases first : slot = 0 <;> simp [first]
  constructor
  · intro slot found
    exact .inr ((occupied slot).mp found)
  · have single : conf.occupied = {0} := Set.ext occupied
    rw [single, Set.ncard_singleton, portCnt]
    rfl
  · intro slot
    rw [silent]
    exact nodup_nil
  · intro slot sink member
    rw [silent] at member
    exact absurd member not_mem_nil
  · intro slot
    rw [inDegree_eq_zero, Conf.transmitters, ports]
    · dsimp only
      split
      · exact transmits
      · rfl
    · intro source _
      rw [silent]
      exact not_mem_nil
  · have none : arcs conf.maxPorts conf.listeners = 0 := by
      apply Finset.sum_eq_zero
      intro slot _
      rw [silent]
      rfl
    rw [connectCnt, none]
    rfl

end

/-- A bridge for telephone frames, with four slots. -/
def telephone : Conf where
  settings := ⟨8000, 1, 160⟩
  maxPorts := 4
  portCnt := 1
  connectCnt := 0
  ports := fun slot => if slot = 0 then some (newPort 8000 160 1 0) else none

theorem createConf_telephone : createConf ⟨8000, 1, 160⟩ 4 = some telephone := rfl

/-- The listeners after a port was changed. -/
theorem listeners_modify {port : ConfPort} (src : conf.ports slot = some port)
    (change : ConfPort → ConfPort) :
    (conf.modify slot change).listeners =
      update conf.listeners slot (change port).listenerSlots := by
  funext index
  unfold Conf.listeners
  rw [ports_modify]
  by_cases same : index = slot
  · rw [if_pos same, same, update_self, src]
    rfl
  · rw [if_neg same, update_of_ne same]

/-- Counting transmitters does not change the listeners. -/
theorem listeners_transmit (conf : Conf) (slot : Nat) (change : Int) :
    (conf.modify slot (·.transmit change)).listeners = conf.listeners := by
  funext index
  unfold Conf.listeners
  rw [ports_modify]
  split
  · cases conf.ports index <;> rfl
  · rfl

variable {srcSlot : Nat}

/-- A connection adds a listener. -/
theorem listeners_link (src : (conf.ports srcSlot).isSome) (sinkSlot : Nat) (adjLevel : Int) :
    (conf.link srcSlot sinkSlot adjLevel).listeners =
      update conf.listeners srcSlot (conf.listeners srcSlot ++ [sinkSlot]) := by
  have ⟨port, src⟩ := isSome_iff_exists.mp src
  have changed := listeners_modify src (·.listen sinkSlot adjLevel)
  rw [← listeners_transmit _ sinkSlot 1] at changed
  rw [listeners_of_some src]
  exact changed

@[simp] theorem listenerSlots_unlisten (port : ConfPort) (index : Nat) :
    (port.unlisten index).listenerSlots = port.listenerSlots.eraseIdx index := rfl

/-- Taking a connection away takes a listener off. -/
theorem listeners_unlink (src : (conf.ports srcSlot).isSome) (sinkSlot : Nat) :
    (conf.unlink srcSlot sinkSlot).listeners =
      update conf.listeners srcSlot ((conf.listeners srcSlot).erase sinkSlot) := by
  have ⟨port, src⟩ := isSome_iff_exists.mp src
  have changed := listeners_modify src
    (·.unlisten ((conf.listeners srcSlot).idxOf sinkSlot))
  rw [← listeners_transmit _ sinkSlot (-1)] at changed
  rw [listenerSlots_unlisten, ← listeners_of_some src] at changed
  rw [erase_eq_eraseIdx_of_idxOf rfl]
  exact changed

/-- Levels do not change the listeners. -/
theorem listeners_adjust (conf : Conf) (srcSlot sinkSlot : Nat) (adjLevel : Int) :
    (conf.adjust srcSlot sinkSlot adjLevel).listeners = conf.listeners := by
  funext index
  unfold Conf.listeners Conf.adjust
  rw [ports_modify]
  split
  · cases conf.ports index <;> rfl
  · rfl

/-- A new port has no listeners. -/
theorem listeners_put {port : ConfPort} (empty : conf.ports slot = none)
    (fresh : port.listenerSlots = []) :
    (conf.put slot (some port)).listeners = conf.listeners := by
  funext index
  unfold Conf.listeners Conf.put
  dsimp only
  by_cases same : index = slot
  · rw [same, update_self, empty]
    exact fresh
  · rw [update_of_ne same]

/-- Removing a port takes it off every list, and its own list with it. -/
theorem listeners_without (conf : Conf) (port : Nat) :
    (conf.without port).listeners =
      update (fun slot => (conf.listeners slot).erase port) port [] := by
  funext slot
  unfold Conf.listeners Conf.without
  dsimp only
  by_cases same : slot = port
  · rw [if_pos same, same, update_self]
    rfl
  · rw [if_neg same, update_of_ne same]
    cases conf.ports slot with
    | none => rfl
    | some confPort => exact listenerSlots_forget confPort port

variable {sinkSlot : Nat}

/-- The transmitter counts after a port got more or fewer. -/
theorem transmitters_transmit (sink : (conf.ports sinkSlot).isSome) (change : Int) (slot : Nat) :
    (conf.modify sinkSlot (·.transmit change)).transmitters slot =
      conf.transmitters slot + if slot = sinkSlot then change else 0 := by
  unfold Conf.transmitters
  rw [ports_modify]
  by_cases same : slot = sinkSlot
  · rw [if_pos same, if_pos same, same]
    have ⟨port, atSink⟩ := isSome_iff_exists.mp sink
    rw [atSink]
    rfl
  · rw [if_neg same, if_neg same, Int.add_zero]

/-- Other changes of a port keep the transmitter counts. -/
theorem transmitters_modify {change : ConfPort → ConfPort}
    (same : ∀ port, (change port).transmitterCnt = port.transmitterCnt) (srcSlot slot : Nat) :
    (conf.modify srcSlot change).transmitters slot = conf.transmitters slot := by
  unfold Conf.transmitters
  rw [ports_modify]
  split
  · cases conf.ports slot with
    | none => rfl
    | some port => exact same port
  · rfl

/-- The transmitter counts without a port. -/
theorem transmitters_without (conf : Conf) {port : Nat} (other : slot ≠ port)
    (occupied : (conf.ports slot).isSome) :
    (conf.without port).transmitters slot =
      conf.transmitters slot - ((conf.listeners port).erase port).count slot := by
  unfold Conf.transmitters Conf.without
  dsimp only
  have ⟨confPort, atSlot⟩ := isSome_iff_exists.mp occupied
  rw [if_neg other, atSlot]
  rfl

section
variable (linked : Linked conf)
include linked

/-- A call that replaces one list of listeners and counts the difference. -/
theorem Linked.replace (other : Conf) {list : List Nat} (maxPorts : other.maxPorts = conf.maxPorts)
    (portCnt : other.portCnt = conf.portCnt)
    (same : ∀ slot, (other.ports slot).isSome = (conf.ports slot).isSome)
    (listeners : other.listeners = update conf.listeners srcSlot list) (nodup : list.Nodup)
    (named : ∀ sink ∈ list, (conf.ports sink).isSome)
    (transmitters : ∀ slot, other.transmitters slot =
      inDegree conf.maxPorts (update conf.listeners srcSlot list) slot)
    (connections : other.connectCnt = arcs conf.maxPorts (update conf.listeners srcSlot list)) :
    Linked other := by
  constructor
  · intro slot occupied
    rw [same] at occupied
    rw [maxPorts]
    exact linked.inside slot occupied
  · rw [occupied_congr same, portCnt]
    exact linked.portCount
  · intro slot
    rw [listeners]
    by_cases hit : slot = srcSlot
    · rwa [hit, update_self]
    · rw [update_of_ne hit]
      exact linked.nodup slot
  · intro slot sink member
    rw [same]
    rw [listeners] at member
    by_cases hit : slot = srcSlot
    · rw [hit, update_self] at member
      exact named sink member
    · rw [update_of_ne hit] at member
      exact linked.named slot sink member
  · intro slot
    rw [listeners, maxPorts]
    exact transmitters slot
  · rw [listeners, maxPorts]
    exact connections

/-- A new connection counts once at its sink and once in all. -/
theorem Linked.link (inside : srcSlot < conf.maxPorts) (src : (conf.ports srcSlot).isSome)
    (sink : (conf.ports sinkSlot).isSome) (absent : sinkSlot ∉ conf.listeners srcSlot)
    (adjLevel : Int) :
    Linked (conf.link srcSlot sinkSlot adjLevel) := by
  apply linked.replace (conf.link srcSlot sinkSlot adjLevel) rfl rfl _
    (listeners_link src sinkSlot adjLevel)
  · rw [← concat_eq_append]
    exact (linked.nodup srcSlot).concat absent
  · intro listener member
    rw [mem_append, mem_singleton] at member
    cases member with
    | inl old => exact linked.named srcSlot listener old
    | inr new => rwa [new]
  · intro slot
    have changed := inDegree_update conf.listeners inside
      (conf.listeners srcSlot ++ [sinkSlot]) slot
    have there : ((conf.modify srcSlot (·.listen sinkSlot adjLevel)).ports sinkSlot).isSome := by
      rwa [isSome_modify]
    have fixed : ∀ port : ConfPort,
        (port.listen sinkSlot adjLevel).transmitterCnt = port.transmitterCnt := fun _ => rfl
    have counted := transmitters_transmit there 1 slot
    rw [transmitters_modify fixed, linked.transmitters] at counted
    apply Eq.trans counted
    by_cases hit : slot = sinkSlot
    · subst hit
      simp only [absent, mem_append, mem_singleton, or_true, if_true, if_false]
        at changed ⊢
      omega
    · simp only [mem_append, mem_singleton, hit, or_false, if_false] at changed ⊢
      omega
  · have changed := arcs_update conf.listeners inside
      (conf.listeners srcSlot ++ [sinkSlot])
    have before := linked.connections
    rw [length_append, length_singleton] at changed
    show conf.connectCnt + 1 = _
    omega
  · intro slot
    exact (isSome_modify _ sinkSlot slot _).trans (isSome_modify conf srcSlot slot _)

/-- Taking a connection away counts once at its sink and once in all. -/
theorem Linked.unlink (inside : srcSlot < conf.maxPorts)
    (present : sinkSlot ∈ conf.listeners srcSlot) : Linked (conf.unlink srcSlot sinkSlot) := by
  apply linked.replace (conf.unlink srcSlot sinkSlot) rfl rfl _
    (listeners_unlink (isSome_of_mem present) sinkSlot)
  · exact (linked.nodup srcSlot).erase sinkSlot
  · intro listener member
    exact linked.named srcSlot listener (mem_of_mem_erase member)
  · intro slot
    have changed := inDegree_update conf.listeners inside
      ((conf.listeners srcSlot).erase sinkSlot) slot
    have there : ((conf.modify srcSlot
        (·.unlisten ((conf.listeners srcSlot).idxOf sinkSlot))).ports sinkSlot).isSome := by
      rw [isSome_modify]
      exact linked.named srcSlot sinkSlot present
    have fixed : ∀ port : ConfPort, (port.unlisten
        ((conf.listeners srcSlot).idxOf sinkSlot)).transmitterCnt = port.transmitterCnt :=
      fun _ => rfl
    have counted := transmitters_transmit there (-1) slot
    rw [transmitters_modify fixed, linked.transmitters] at counted
    apply Eq.trans counted
    by_cases hit : slot = sinkSlot
    · subst hit
      have gone : slot ∉ (conf.listeners srcSlot).erase slot :=
        (linked.nodup srcSlot).not_mem_erase
      simp only [present, gone, if_true, if_false] at changed ⊢
      omega
    · simp only [mem_erase_of_ne hit, hit, if_false] at changed ⊢
      omega
  · have changed := arcs_update conf.listeners inside
      ((conf.listeners srcSlot).erase sinkSlot)
    have positive := length_pos_of_mem present
    have before := linked.connections
    rw [length_erase_of_mem present] at changed
    show conf.connectCnt - 1 = _
    omega
  · intro slot
    exact (isSome_modify _ sinkSlot slot _).trans (isSome_modify conf srcSlot slot _)

/-- Levels are no part of the graph. -/
theorem Linked.adjust (srcSlot sinkSlot : Nat) (adjLevel : Int) :
    Linked (conf.adjust srcSlot sinkSlot adjLevel) := by
  have kept : update conf.listeners srcSlot (conf.listeners srcSlot) = conf.listeners :=
    update_eq_self srcSlot conf.listeners
  have fixed : ∀ port : ConfPort, ConfPort.transmitterCnt
      { port with
        listenerAdjLevel := update port.listenerAdjLevel
          ((conf.listeners srcSlot).idxOf sinkSlot) (u32 (adjLevel + normalLevel)) } =
        port.transmitterCnt := fun _ => rfl
  have listeners : (conf.adjust srcSlot sinkSlot adjLevel).listeners =
      update conf.listeners srcSlot (conf.listeners srcSlot) := by
    rw [kept]
    exact listeners_adjust conf srcSlot sinkSlot adjLevel
  apply linked.replace (conf.adjust srcSlot sinkSlot adjLevel) rfl rfl _ listeners
  · exact linked.nodup srcSlot
  · intro sink member
    exact linked.named srcSlot sink member
  · intro slot
    rw [kept]
    exact (transmitters_modify fixed srcSlot slot).trans (linked.transmitters slot)
  · rw [kept]
    exact linked.connections
  · intro slot
    exact isSome_modify conf srcSlot slot _

/-- A new port counts as a port. -/
theorem Linked.put {port : ConfPort} (inside : slot < conf.maxPorts)
    (empty : conf.ports slot = none) (listens : port.listenerSlots = [])
    (transmits : port.transmitterCnt = 0) :
    Linked { conf.put slot (some port) with portCnt := conf.portCnt + 1 } := by
  have listeners : Conf.listeners { conf.put slot (some port) with portCnt := conf.portCnt + 1 } =
      conf.listeners := listeners_put empty listens
  have occupied : ∀ index, ((update conf.ports slot (some port)) index).isSome ↔
      index = slot ∨ (conf.ports index).isSome := by
    intro index
    by_cases same : index = slot
    · simp [same]
    · simp [same]
  constructor
  · intro index found
    cases (occupied index).mp found with
    | inl new => exact .inl (new ▸ inside)
    | inr old => exact linked.inside index old
  · have more : Conf.occupied { conf.put slot (some port) with portCnt := conf.portCnt + 1 } =
        insert slot conf.occupied := Set.ext occupied
    have free : slot ∉ conf.occupied := by
      show ¬(conf.ports slot).isSome = true
      rw [empty]
      exact Bool.false_ne_true
    rw [more, Set.ncard_insert_of_notMem free linked.finite]
    have before := linked.portCount
    push_cast
    omega
  · intro index
    rw [listeners]
    exact linked.nodup index
  · intro index sink member
    rw [listeners] at member
    exact (occupied sink).mpr (.inr (linked.named index sink member))
  · intro index
    rw [listeners]
    unfold Conf.transmitters Conf.put
    dsimp only
    by_cases same : index = slot
    · rw [same, update_self]
      have before := linked.transmitters slot
      rw [Conf.transmitters, empty] at before
      exact transmits.trans before
    · rw [update_of_ne same]
      exact linked.transmitters index
  · rw [listeners]
    exact linked.connections

/-- Removing a port takes its connections off the counters, those to itself once. -/
theorem Linked.without {port : Nat} (inside : port < conf.maxPorts)
    (present : (conf.ports port).isSome) : Linked (conf.without port) := by
  have listeners := listeners_without conf port
  have occupied : ∀ slot, ((conf.without port).ports slot).isSome ↔
      slot ≠ port ∧ (conf.ports slot).isSome := by
    intro slot
    unfold Conf.without
    by_cases same : slot = port
    · simp [same]
    · simp [same]
  have outside : ∀ slot, slot ≠ port → (conf.without port).listeners slot =
      (conf.listeners slot).erase port := by
    intro slot other
    rw [listeners, update_of_ne other]
  have named : ∀ slot sink, sink ∈ (conf.without port).listeners slot →
      ((conf.without port).ports sink).isSome := by
    intro slot sink member
    by_cases same : slot = port
    · rw [listeners, same, update_self] at member
      exact absurd member not_mem_nil
    · rw [outside slot same, (linked.nodup slot).mem_erase_iff] at member
      exact (occupied sink).mpr ⟨member.1, linked.named slot sink member.2⟩
  constructor
  · intro slot found
    exact linked.inside slot ((occupied slot).mp found).2
  · have fewer : (conf.without port).occupied = conf.occupied \ {port} := by
      ext slot
      rw [Set.mem_sdiff, Set.mem_singleton_iff, and_comm]
      exact occupied slot
    have count := Set.ncard_sdiff_singleton_add_one (s := conf.occupied) present linked.finite
    have before := linked.portCount
    rw [fewer]
    show conf.portCnt - 1 = _
    omega
  · intro slot
    by_cases same : slot = port
    · rw [listeners, same, update_self]
      exact nodup_nil
    · rw [outside slot same]
      exact (linked.nodup slot).erase port
  · exact named
  · intro slot
    by_cases found : ((conf.without port).ports slot).isSome
    · have ⟨same, present⟩ := (occupied slot).mp found
      have changed := inDegree_update (fun source => (conf.listeners source).erase port)
        inside [] slot
      have degrees :
          inDegree conf.maxPorts (fun source => (conf.listeners source).erase port) slot =
            inDegree conf.maxPorts conf.listeners slot := by
        unfold inDegree
        simp only [mem_erase_of_ne same]
      have count : ((conf.listeners port).erase port).count slot =
          if slot ∈ (conf.listeners port).erase port then 1 else 0 := by
        by_cases member : slot ∈ (conf.listeners port).erase port
        · rw [if_pos member, count_eq_one_of_mem ((linked.nodup port).erase port) member]
        · rw [if_neg member, count_eq_zero_of_not_mem member]
      simp only [not_mem_nil, if_false] at changed
      rw [listeners, transmitters_without conf same present, linked.transmitters, count]
      show _ = (inDegree conf.maxPorts _ slot : Int)
      omega
    · have empty := not_isSome_iff_eq_none.mp found
      rw [inDegree_eq_zero, Conf.transmitters, empty]
      · rfl
      · intro source _ member
        exact found (named source slot member)
  · have changed := arcs_update (fun source => (conf.listeners source).erase port) inside []
    have erased := arcs_erase conf.maxPorts conf.listeners port
    have before := linked.connections
    rw [length_nil] at changed
    rw [listeners]
    show conf.connectCnt - inDegree conf.maxPorts conf.listeners port -
      ((conf.listeners port).erase port).length = (arcs conf.maxPorts _ : Int)
    omega

end

/-- The bridge after a call. -/
def next (conf : Conf) (op : Op) : Conf :=
  (execute conf op).conf

/-- Every call keeps the counters and the graph in agreement. -/
theorem next_linked (linked : Linked conf) (op : Op) : Linked (next conf op) := by
  unfold next
  cases op with
  | addPort format =>
    rw [execute]
    cases addPort_cases conf format linked.exists_free with
    | inl same => rwa [same.2]
    | inr added =>
      have ⟨slot, port, inside, empty, listens, transmits, changed⟩ := added
      rw [changed]
      exact linked.put inside empty listens transmits
  | connect srcSlot sinkSlot adjLevel =>
    rw [execute]
    cases connectPort_cases conf srcSlot sinkSlot adjLevel with
    | inl same => rwa [same.2.1]
    | inr made =>
      have ⟨inside, src, sink, absent, changed⟩ := made
      rw [changed]
      exact linked.link inside src sink absent adjLevel
  | disconnect srcSlot sinkSlot =>
    rw [execute]
    cases disconnectPort_cases conf srcSlot sinkSlot with
    | inl same => rwa [same.2.1]
    | inr taken =>
      have ⟨inside, present, changed⟩ := taken
      rw [changed]
      exact linked.unlink inside present
  | remove port =>
    rw [execute]
    cases removePort_cases conf port linked.inside with
    | inl same => rwa [same.1]
    | inr removed =>
      have ⟨inside, present, changed⟩ := removed
      rw [changed]
      exact linked.without inside present
  | adjust srcSlot sinkSlot adjLevel =>
    rw [execute]
    cases adjustConnLevel_cases conf srcSlot sinkSlot adjLevel with
    | inl same => rwa [same]
    | inr found =>
      rw [found.2]
      exact linked.adjust srcSlot sinkSlot adjLevel

theorem foldl_next_linked {settings : Settings} {maxPorts : Nat}
    (created : createConf settings maxPorts = some conf) (ops : List Op) :
    Linked (ops.foldl next conf) :=
  foldlRecOn ops next (createConf_linked created) fun _ linked op _ => next_linked linked op

/-- A listener list never has more entries than the array for it, one for every slot. -/
theorem Linked.length_listeners_le (linked : Linked conf) (slot : Nat) :
    (conf.listeners slot).length ≤ max conf.maxPorts 1 := by
  have within : (conf.listeners slot).toFinset ⊆ Finset.range (max conf.maxPorts 1) := by
    intro sink member
    have occupied := linked.named slot sink (mem_toFinset.mp member)
    have bound := linked.inside sink occupied
    rw [Finset.mem_range]
    omega
  have count := Finset.card_le_card within
  rw [toFinset_card_of_nodup (linked.nodup slot), Finset.card_range] at count
  exact count

/-- After every call on a bridge the number of ports, the number of connections and the
transmitter counts are those of the graph of connections, every list of listeners is free of
duplicates and names occupied slots only, and no counter is below zero. -/
theorem conference_linked {settings : Settings} {maxPorts : Nat} {conf : Conf}
    (created : createConf settings maxPorts = some conf) (ops : List Op) :
    Run.Always next (fun conf => Linked conf ∧ conf.NoUnderflow) conf ops := by
  have kept : ∀ (conf : Conf) (op : Op), Linked conf → True → Linked (next conf op) :=
    fun conf op linked _ => next_linked linked op
  have always := Run.always kept (createConf_linked created)
    (Run.meets_of_forall (fun _ _ => trivial) conf ops)
  exact always.imp fun conf linked => ⟨linked, linked.noUnderflow⟩

/-- A port that listens to slot 0 and to itself, and is removed. -/
theorem conference_linked_self :
    Run.Always next (fun conf => Linked conf ∧ conf.NoUnderflow) telephone
      [.addPort ⟨8000, 1, 20000⟩, .connect 0 1 0, .connect 1 1 0, .connect 1 0 0,
        .disconnect 0 1, .remove 1] :=
  conference_linked createConf_telephone _

end Pjmedia.Conference
