import Pjproject.Conference.Bridge
import Pjproject.Lib.Adjacency

/-!
# What a call does to the bridge

Every call either leaves the bridge as it is or makes one change, which is stated here in full.
Removing a port is two loops over the other ports, whose joint effect is one formula: the port
leaves every list of listeners, and its own listeners lose a transmitter.
-/

namespace Pjmedia.Conference

open Function List Pj Adjacency

variable {conf : Conf}

@[simp] theorem ports_modify (conf : Conf) (slot index : Nat) (change : ConfPort → ConfPort) :
    (conf.modify slot change).ports index =
      if index = slot then (conf.ports index).map change else conf.ports index := rfl

theorem listeners_of_some {slot : Nat} {port : ConfPort} (h : conf.ports slot = some port) :
    conf.listeners slot = port.listenerSlots := by
  rw [Conf.listeners, h]
  rfl

variable {sink : Nat}

/-- Only an occupied slot has listeners. -/
theorem isSome_of_mem {slot : Nat} (h : sink ∈ conf.listeners slot) :
    (conf.ports slot).isSome := by
  unfold Conf.listeners at h
  cases port : conf.ports slot with
  | none =>
    rw [port] at h
    exact absurd h not_mem_nil
  | some _ => rfl

/-- The index of a listener is the length of the list if it is none. -/
theorem idxOf_eq_length {slots : List Nat} :
    slots.idxOf sink = slots.length ↔ sink ∉ slots := idxOf_eq_length_iff

/-- The bridge with a new connection. -/
def Conf.link (conf : Conf) (srcSlot sinkSlot : Nat) (adjLevel : Int) : Conf :=
  { (conf.modify srcSlot (·.listen sinkSlot adjLevel)).modify sinkSlot (·.transmit 1) with
    connectCnt := conf.connectCnt + 1 }

/-- The bridge without a connection. -/
def Conf.unlink (conf : Conf) (srcSlot sinkSlot : Nat) : Conf :=
  { (conf.modify srcSlot (·.unlisten ((conf.listeners srcSlot).idxOf sinkSlot))).modify sinkSlot
      (·.transmit (-1)) with
    connectCnt := conf.connectCnt - 1 }

/-- The bridge with another level on a connection. -/
def Conf.adjust (conf : Conf) (srcSlot sinkSlot : Nat) (adjLevel : Int) : Conf :=
  conf.modify srcSlot fun port =>
    { port with
      listenerAdjLevel := update port.listenerAdjLevel
        ((conf.listeners srcSlot).idxOf sinkSlot) (u32 (adjLevel + normalLevel)) }

/-- A connection is made between two occupied slots that are not connected, and is reported to
the sound device if it is the first one of slot 0. -/
theorem connectPort_cases (conf : Conf) (srcSlot sinkSlot : Nat) (adjLevel : Int) :
    ((connectPort conf srcSlot sinkSlot adjLevel).sounds = [] ∧
        (connectPort conf srcSlot sinkSlot adjLevel).conf = conf ∧
        ((connectPort conf srcSlot sinkSlot adjLevel).status = .success →
          sinkSlot ∈ conf.listeners srcSlot)) ∨
      (srcSlot < conf.maxPorts ∧ (conf.ports srcSlot).isSome ∧ (conf.ports sinkSlot).isSome ∧
        sinkSlot ∉ conf.listeners srcSlot ∧
        connectPort conf srcSlot sinkSlot adjLevel =
          ⟨.success, if conf.listeners srcSlot = [] ∧ srcSlot = 0 then [.resume] else [],
            conf.link srcSlot sinkSlot adjLevel⟩) := by
  unfold connectPort
  by_cases bounds : ¬(srcSlot < conf.maxPorts ∧ sinkSlot < conf.maxPorts)
  · simp only [if_pos bounds]
    exact .inl ⟨trivial, trivial, nofun⟩
  by_cases quiet : adjLevel < -128
  · simp only [if_neg bounds, if_pos quiet]
    exact .inl ⟨trivial, trivial, nofun⟩
  simp only [if_neg bounds, if_neg quiet]
  cases src : conf.ports srcSlot with
  | none => exact .inl ⟨rfl, rfl, nofun⟩
  | some srcPort =>
    cases sink : conf.ports sinkSlot with
    | none => exact .inl ⟨rfl, rfl, nofun⟩
    | some sinkPort =>
      rw [listeners_of_some src]
      dsimp only
      by_cases absent : srcPort.listenerSlots.idxOf sinkSlot = srcPort.listenerSlots.length
      · refine .inr ⟨(not_not.mp bounds).1, rfl, rfl, idxOf_eq_length.mp absent, ?_⟩
        rw [if_pos absent]
        simp only [Nat.add_eq_right, length_eq_zero_iff]
        rfl
      · rw [if_neg absent]
        refine .inl ⟨rfl, rfl, fun _ => ?_⟩
        exact not_not.mp (mt idxOf_eq_length.mpr absent)

/-- A connection is taken away if there is one, and is reported to the sound device if it was
the last one of slot 0. -/
theorem disconnectPort_cases (conf : Conf) (srcSlot sinkSlot : Nat) :
    ((disconnectPort conf srcSlot sinkSlot).sounds = [] ∧
        (disconnectPort conf srcSlot sinkSlot).conf = conf ∧
        (srcSlot < conf.maxPorts → sinkSlot < conf.maxPorts → (conf.ports sinkSlot).isSome →
          sinkSlot ∉ conf.listeners srcSlot)) ∨
      (srcSlot < conf.maxPorts ∧ sinkSlot ∈ conf.listeners srcSlot ∧
        disconnectPort conf srcSlot sinkSlot =
          ⟨.success, if srcSlot = 0 ∧ (conf.listeners srcSlot).length = 1 then [.pause] else [],
            conf.unlink srcSlot sinkSlot⟩) := by
  unfold disconnectPort
  by_cases bounds : ¬(srcSlot < conf.maxPorts ∧ sinkSlot < conf.maxPorts)
  · simp only [if_pos bounds]
    exact .inl ⟨trivial, trivial, fun src sink => absurd ⟨src, sink⟩ bounds⟩
  simp only [if_neg bounds]
  cases src : conf.ports srcSlot with
  | none =>
    refine .inl ⟨rfl, rfl, fun _ _ _ member => ?_⟩
    have occupied := isSome_of_mem member
    rw [src] at occupied
    exact absurd occupied Bool.false_ne_true
  | some srcPort =>
    cases sink : conf.ports sinkSlot with
    | none => exact .inl ⟨rfl, rfl, fun _ _ occupied => absurd occupied Bool.false_ne_true⟩
    | some sinkPort =>
      unfold Conf.unlink
      rw [listeners_of_some src]
      dsimp only
      by_cases absent : srcPort.listenerSlots.idxOf sinkSlot = srcPort.listenerSlots.length
      · rw [if_neg (not_not.mpr absent)]
        exact .inl ⟨rfl, rfl, fun _ _ _ => idxOf_eq_length.mp absent⟩
      · have member := not_not.mp (mt idxOf_eq_length.mpr absent)
        have positive := length_pos_of_mem member
        have last : srcPort.listenerSlots.length - 1 = 0 ↔ srcPort.listenerSlots.length = 1 := by
          omega
        rw [if_pos absent]
        simp only [last]
        exact .inr ⟨(not_not.mp bounds).1, member, trivial⟩

/-- A level is set on a connection if there is one. -/
theorem adjustConnLevel_cases (conf : Conf) (srcSlot sinkSlot : Nat) (adjLevel : Int) :
    (adjustConnLevel conf srcSlot sinkSlot adjLevel = ⟨.einval, [], conf⟩) ∨
      (sinkSlot ∈ conf.listeners srcSlot ∧
        adjustConnLevel conf srcSlot sinkSlot adjLevel =
          ⟨.success, [], conf.adjust srcSlot sinkSlot adjLevel⟩) := by
  unfold adjustConnLevel
  by_cases bounds : ¬(srcSlot < conf.maxPorts ∧ sinkSlot < conf.maxPorts)
  · exact .inl (if_pos bounds)
  by_cases quiet : adjLevel < -128
  · rw [if_neg bounds, if_pos quiet]
    exact .inl rfl
  rw [if_neg bounds, if_neg quiet]
  cases src : conf.ports srcSlot with
  | none => exact .inl rfl
  | some srcPort =>
    cases sink : conf.ports sinkSlot with
    | none => exact .inl rfl
    | some sinkPort =>
      unfold Conf.adjust
      rw [listeners_of_some src]
      dsimp only
      by_cases absent : srcPort.listenerSlots.idxOf sinkSlot = srcPort.listenerSlots.length
      · rw [if_pos absent]
        exact .inl rfl
      · rw [if_neg absent]
        exact .inr ⟨not_not.mp (mt idxOf_eq_length.mpr absent), rfl⟩

/-- A new port has no listeners and no transmitters. -/
theorem createConfPort_fresh {settings : Settings} {format : Option Format} {port : ConfPort}
    (created : createConfPort settings format = some port) :
    port.listenerSlots = [] ∧ port.transmitterCnt = 0 := by
  unfold createConfPort at created
  dsimp only at created
  split at created
  · exact absurd created nofun
  · split at created
    · rw [← Option.some.inj created]
      exact ⟨rfl, rfl⟩
    · split at created
      · exact absurd created nofun
      · rw [← Option.some.inj created]
        exact ⟨rfl, rfl⟩

/-- A port is put in a free slot, without listeners or transmitters. -/
theorem addPort_cases (conf : Conf) (format : Format)
    (free : conf.portCnt < conf.maxPorts → ∃ slot, slot < conf.maxPorts ∧ conf.ports slot = none) :
    ((addPort conf format).sounds = [] ∧ (addPort conf format).conf = conf) ∨
      ∃ slot port, slot < conf.maxPorts ∧ conf.ports slot = none ∧ port.listenerSlots = [] ∧
        port.transmitterCnt = 0 ∧
        addPort conf format =
          ⟨.success, [], { conf.put slot (some port) with portCnt := conf.portCnt + 1 }⟩ := by
  unfold addPort
  by_cases channels : format.channelCount ≠ conf.settings.channelCount ∧
      (format.channelCount ≠ 1 ∧ conf.settings.channelCount ≠ 1)
  · rw [if_pos channels]
    exact .inl ⟨rfl, rfl⟩
  by_cases full : (conf.maxPorts : Int) ≤ conf.portCnt
  · rw [if_neg channels, if_pos full]
    exact .inl ⟨rfl, rfl⟩
  rw [if_neg channels, if_neg full]
  cases created : createConfPort conf.settings (some format) with
  | none => exact .inl ⟨rfl, rfl⟩
  | some port =>
    have ⟨slot, inside, empty⟩ := free (not_le.mp full)
    have found : ((List.range conf.maxPorts).findIdx fun slot => (conf.ports slot).isNone) <
        (List.range conf.maxPorts).length := by
      apply findIdx_lt_length_of_exists
      exact ⟨slot, mem_range.mpr inside, by rw [empty]; rfl⟩
    have vacant := findIdx_getElem (w := found)
    have index := found
    rw [getElem_range, Option.isNone_iff_eq_none] at vacant
    rw [length_range] at index
    have fresh := createConfPort_fresh created
    exact .inr ⟨_, port, index, vacant, fresh.1, fresh.2, rfl⟩

/-- A port that listens to a port no more. -/
def ConfPort.forget (port : ConfPort) (sink : Nat) : ConfPort :=
  port.unlisten (port.listenerSlots.idxOf sink)

@[simp] theorem listenerSlots_forget (port : ConfPort) (sink : Nat) :
    (port.forget sink).listenerSlots = port.listenerSlots.erase sink :=
  (erase_eq_eraseIdx_of_idxOf rfl).symm

/-- The bridge after the first passes of the first loop of removing a port. -/
def Conf.dropBelow (conf : Conf) (port passes : Nat) : Conf :=
  { conf with
    ports := fun slot =>
      if slot < passes then (conf.ports slot).map (·.forget port) else conf.ports slot
    connectCnt := conf.connectCnt - inDegree passes conf.listeners port }

/-- A port that does not listen is not changed by forgetting it. -/
theorem forget_of_not_mem {port : ConfPort} (h : sink ∉ port.listenerSlots) :
    port.forget sink = port := by
  have past : port.listenerSlots.length ≤ port.listenerSlots.idxOf sink :=
    le_of_eq (idxOf_eq_length.mpr h).symm
  unfold ConfPort.forget ConfPort.unlisten
  rw [eraseIdx_of_length_le past]

/-- A pass over a slot that the port does not listen to. -/
theorem dropBelow_skip {port passes : Nat} (h : port ∉ conf.listeners passes) :
    conf.dropBelow port (passes + 1) = conf.dropBelow port passes := by
  unfold Conf.dropBelow
  rw [inDegree_succ, if_neg h, Nat.add_zero]
  congr 1
  funext slot
  by_cases last : slot = passes
  · subst last
    rw [if_pos (Nat.lt_succ_self slot), if_neg (Nat.lt_irrefl slot)]
    cases src : conf.ports slot with
    | none => rfl
    | some srcPort =>
      rw [listeners_of_some src] at h
      exact congrArg some (forget_of_not_mem h)
  · have same : slot < passes + 1 ↔ slot < passes := by omega
    simp only [same]

/-- A pass over a slot that the port listens to. -/
theorem dropBelow_drop {port passes : Nat} {srcPort : ConfPort}
    (src : conf.ports passes = some srcPort) (h : port ∈ srcPort.listenerSlots) :
    conf.dropBelow port (passes + 1) =
      { (conf.dropBelow port passes).modify passes
          (·.unlisten (srcPort.listenerSlots.idxOf port)) with
        connectCnt := (conf.dropBelow port passes).connectCnt - 1 } := by
  unfold Conf.dropBelow Conf.modify
  rw [inDegree_succ, listeners_of_some src, if_pos h]
  congr 1
  · push_cast
    omega
  · funext slot
    dsimp only
    by_cases last : slot = passes
    · subst last
      rw [if_pos (Nat.lt_succ_self slot), if_pos rfl, if_neg (Nat.lt_irrefl slot), src]
      rfl
    · have same : slot < passes + 1 ↔ slot < passes := by omega
      simp only [same, if_neg last]

/-- A list with a member has no more if one less is none. -/
theorem eq_singleton_of_mem {slots : List Nat} (h : sink ∈ slots) :
    slots.length - 1 = 0 ↔ slots = [sink] := by
  constructor
  · intro short
    obtain ⟨only, rfl⟩ : ∃ only, slots = [only] := by
      have positive := length_pos_of_mem h
      exact length_eq_one_iff.mp (by omega)
    rw [mem_singleton.mp h]
  · intro single
    rw [single]
    rfl

/-- The first loop of removing a port: the port leaves every list of listeners, and the flag
says whether it was the only listener of slot 0. -/
theorem dropListener_foldl (conf : Conf) (port passes : Nat) :
    (List.range passes).foldl (dropListener port) (conf, false) =
      (conf.dropBelow port passes, decide (0 < passes ∧ conf.listeners 0 = [port])) := by
  induction passes with
  | zero => simp [Conf.dropBelow, inDegree]
  | succ passes ih =>
    have reached : (conf.dropBelow port passes).ports passes = conf.ports passes :=
      if_neg (Nat.lt_irrefl passes)
    rw [range_succ, foldl_append, ih, foldl_cons, foldl_nil, dropListener,
      reached]
    cases src : conf.ports passes with
    | none =>
      have silent : conf.listeners passes = [] := by
        rw [Conf.listeners, src]
        rfl
      have absent : port ∉ conf.listeners passes := by
        rw [silent]
        exact not_mem_nil
      rw [dropBelow_skip absent]
      congr 1
      by_cases first : passes = 0
      · subst first
        simp [silent]
      · simp [Nat.pos_of_ne_zero first]
    | some srcPort =>
      have slots := listeners_of_some src
      dsimp only
      by_cases listens : port ∈ srcPort.listenerSlots
      · have found := mt idxOf_eq_length.mp (not_not.mpr listens)
        rw [if_pos found, dropBelow_drop src listens]
        congr 1
        by_cases first : passes = 0
        · subst first
          have flag : (srcPort.listenerSlots.length - 1 == 0) =
              decide (srcPort.listenerSlots = [port]) := by
            rw [Bool.eq_iff_iff, beq_iff_eq, decide_eq_true_iff]
            exact eq_singleton_of_mem listens
          rw [flag, slots]
          simp
        · simp [Nat.pos_of_ne_zero first, first]
      · have absent := idxOf_eq_length.mpr listens
        rw [if_neg (not_not.mpr absent), dropBelow_skip (by rwa [slots])]
        congr 1
        by_cases first : passes = 0
        · subst first
          have other : srcPort.listenerSlots ≠ [port] := by
            intro only
            rw [only] at listens
            exact listens mem_cons_self
          simp [slots, other]
        · simp [Nat.pos_of_ne_zero first]

/-- The second loop of removing a port: the slots of the list lose a transmitter each. -/
theorem dropTransmitter_foldl (port : Nat) (slots : List Nat) (conf : Conf) :
    let dropped := slots.foldl (dropTransmitter port) conf
    dropped.settings = conf.settings ∧ dropped.maxPorts = conf.maxPorts ∧
      dropped.portCnt = conf.portCnt ∧ dropped.connectCnt = conf.connectCnt - slots.length ∧
      ∀ slot, slot ≠ port →
        dropped.ports slot = (conf.ports slot).map (·.transmit (-(slots.count slot : Int))) := by
  induction slots generalizing conf with
  | nil =>
    refine ⟨rfl, rfl, rfl, by simp, ?_⟩
    intro slot _
    have same : (fun confPort : ConfPort =>
        confPort.transmit (-(([] : List Nat).count slot : Int))) = id := by
      funext confPort
      simp [ConfPort.transmit]
    rw [foldl_nil, same, Option.map_id]
    rfl
  | cons sink slots ih =>
    have ⟨settings, maxPorts, portCnt, connectCnt, ports⟩ := ih (dropTransmitter port conf sink)
    refine ⟨settings, maxPorts, portCnt, ?_, ?_⟩
    · rw [foldl_cons, connectCnt, length_cons]
      show conf.connectCnt - 1 - (slots.length : Int) = _
      omega
    · intro slot other
      rw [foldl_cons, ports slot other]
      unfold dropTransmitter
      simp only [ports_modify, if_neg other]
      by_cases hit : slot = sink
      · subst hit
        rw [if_pos rfl, Option.map_map, count_cons_self]
        congr 1
        funext confPort
        simp only [comp_apply, ConfPort.transmit]
        congr 1
        omega
      · rw [if_neg hit, count_cons_of_ne (Ne.symm hit)]

/-- The bridge without a port: no slot has it as a listener, and its listeners have a
transmitter less. -/
def Conf.without (conf : Conf) (port : Nat) : Conf :=
  { conf with
    portCnt := conf.portCnt - 1
    connectCnt := conf.connectCnt - inDegree conf.maxPorts conf.listeners port -
      ((conf.listeners port).erase port).length
    ports := fun slot =>
      if slot = port then none
      else (conf.ports slot).map fun confPort =>
        (confPort.forget port).transmit (-(((conf.listeners port).erase port).count slot : Int)) }

/-- A port is removed from its slot, and is reported to the sound device if it was the only
listener of slot 0. -/
theorem removePort_cases (conf : Conf) (port : Nat)
    (inside : ∀ slot, (conf.ports slot).isSome → slot < conf.maxPorts ∨ slot = 0) :
    (removePort conf port = ⟨.einval, [], conf⟩ ∧
        (port < conf.maxPorts → conf.ports port = none)) ∨
      (port < conf.maxPorts ∧ (conf.ports port).isSome ∧
        removePort conf port =
          ⟨.success, if conf.listeners 0 = [port] then [.pause] else [], conf.without port⟩) := by
  unfold removePort
  by_cases bound : ¬port < conf.maxPorts
  · exact .inl ⟨if_pos bound, fun inside => absurd inside bound⟩
  rw [if_neg bound]
  cases removed : conf.ports port with
  | none => exact .inl ⟨rfl, fun _ => rfl⟩
  | some confPort =>
    refine .inr ⟨not_not.mp bound, rfl, ?_⟩
    have positive : 0 < conf.maxPorts := by omega
    obtain ⟨disabled, hdisabled⟩ : ∃ disabled : Conf, disabled = conf.modify port fun confPort =>
        { confPort with txSetting := .disable, rxSetting := .disable } := ⟨_, rfl⟩
    have listeners : disabled.listeners = conf.listeners := by
      funext slot
      rw [hdisabled, Conf.listeners, Conf.listeners, ports_modify]
      split
      · cases conf.ports slot <;> rfl
      · rfl
    have maxPorts : disabled.maxPorts = conf.maxPorts := by rw [hdisabled]; rfl
    have others : ∀ slot, slot ≠ port → disabled.ports slot = conf.ports slot := by
      intro slot other
      rw [hdisabled, ports_modify, if_neg other]
    have portCnt : disabled.portCnt = conf.portCnt := by rw [hdisabled]; rfl
    have connectCnt : disabled.connectCnt = conf.connectCnt := by rw [hdisabled]; rfl
    have settings : disabled.settings = conf.settings := by rw [hdisabled]; rfl
    have own : (disabled.dropBelow port conf.maxPorts).listeners port =
        (conf.listeners port).erase port := by
      rw [← listeners]
      unfold Conf.listeners Conf.dropBelow
      simp only [if_pos (not_not.mp bound)]
      cases disabled.ports port with
      | none => rfl
      | some _ => simp
    have ⟨dSettings, dMaxPorts, dPortCnt, dConnectCnt, dPorts⟩ := dropTransmitter_foldl port
      ((conf.listeners port).erase port).reverse (disabled.dropBelow port conf.maxPorts)
    dsimp only
    rw [← hdisabled, dropListener_foldl]
    rw [own, listeners]
    have stopSound : decide (0 < conf.maxPorts ∧ conf.listeners 0 = [port]) = true ↔
        conf.listeners 0 = [port] := by
      rw [decide_eq_true_iff, and_iff_right positive]
    simp only [stopSound]
    congr 1
    obtain ⟨dropped, hdropped⟩ : ∃ dropped : Conf, dropped =
        ((conf.listeners port).erase port).reverse.foldl (dropTransmitter port)
          (disabled.dropBelow port conf.maxPorts) := ⟨_, rfl⟩
    unfold Conf.put Conf.without
    rw [dSettings, dMaxPorts, dPortCnt, dConnectCnt]
    congr 1
    · exact congrArg (· - 1) portCnt
    · rw [length_reverse]
      unfold Conf.dropBelow
      rw [listeners, connectCnt]
    · funext slot
      dsimp only
      by_cases this : slot = port
      · rw [this, if_pos rfl, update_self]
      · rw [if_neg this, update_of_ne this, dPorts slot this, count_reverse]
        unfold Conf.dropBelow
        dsimp only
        rw [others slot this]
        by_cases low : slot < conf.maxPorts
        · rw [if_pos low, Option.map_map]
          rfl
        · cases empty : conf.ports slot with
          | none =>
            rw [if_neg low]
            rfl
          | some _ =>
            have within := inside slot (by rw [empty]; rfl)
            omega

end Pjmedia.Conference
