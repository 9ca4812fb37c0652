import Pjproject.Conference.Graph

/-!
# The level of a connection

A source port has the slots of its listeners in one array and their levels in another. A
listener that is taken off moves the later slots down, and leaves the levels where they are.
-/

namespace Pjmedia.Conference

open Function List Pj

variable {conf : Conf}

/-- The levels of a slot, as the mixer applies them. -/
def Conf.levels (conf : Conf) (slot : Nat) : Nat → Nat :=
  ((conf.ports slot).map ConfPort.listenerAdjLevel).getD fun _ => 0

/-- A bridge, and the level that was last given for every pair of slots. -/
structure Levelling where
  conf : Conf
  given : Nat → Nat → Nat

/-- The levels after one was given. -/
def give (given : Nat → Nat → Nat) (srcSlot sinkSlot : Nat) (adjLevel : Int) : Nat → Nat → Nat :=
  update given srcSlot
    (update (given srcSlot) sinkSlot (u32 (adjLevel + normalLevel)))

/-- A level is given by a successful call that makes a connection or adjusts one. -/
def Levelling.next (state : Levelling) (op : Op) : Levelling where
  conf := Conference.next state.conf op
  given :=
    match op with
    | .connect srcSlot sinkSlot adjLevel =>
      if (execute state.conf op).status = .success ∧
          sinkSlot ∉ state.conf.listeners srcSlot then
        give state.given srcSlot sinkSlot adjLevel
      else state.given
    | .adjust srcSlot sinkSlot adjLevel =>
      if (execute state.conf op).status = .success then
        give state.given srcSlot sinkSlot adjLevel
      else state.given
    | _ => state.given

/-- Every connection has the level that was last given for it. -/
def Levelling.Kept (state : Levelling) : Prop :=
  ∀ slot index sink, (state.conf.listeners slot)[index]? = some sink →
    state.conf.levels slot index = state.given slot sink

/-- The listeners from a sink on have one level. -/
def Conf.EvenFrom (conf : Conf) (slot sink : Nat) : Prop :=
  ∀ index, (conf.listeners slot).idxOf sink ≤ index → index + 1 < (conf.listeners slot).length →
    conf.levels slot index = conf.levels slot (index + 1)

/-- A listener is only taken off before listeners of the same level. -/
def Levelling.Evenly (state : Levelling) : Op → Prop
  | .disconnect srcSlot sinkSlot => state.conf.EvenFrom srcSlot sinkSlot
  | .remove port => ∀ slot, slot ≠ port → state.conf.EvenFrom slot port
  | _ => True

/-- After a member was erased the levels still fit the list if and only if those from its index
on are all the same. -/
theorem fits_erase_iff {list : List Nat} {levels given : Nat → Nat} (sink : Nat)
    (fits : ∀ index (member : Nat), list[index]? = some member → levels index = given member) :
    (∀ index (member : Nat), (list.erase sink)[index]? = some member →
        levels index = given member) ↔
      ∀ index, list.idxOf sink ≤ index → index + 1 < list.length →
        levels index = levels (index + 1) := by
  rw [erase_eq_eraseIdx_of_idxOf rfl]
  constructor
  · intro after index from_sink inside
    have moved : (list.eraseIdx (list.idxOf sink))[index]? = some list[index + 1] := by
      rw [getElem?_eraseIdx, if_neg (Nat.not_lt.mpr from_sink)]
      exact getElem?_eq_getElem inside
    rw [after index _ moved]
    exact (fits (index + 1) _ (getElem?_eq_getElem inside)).symm
  · intro even index member found
    rw [getElem?_eraseIdx] at found
    by_cases early : index < list.idxOf sink
    · rw [if_pos early] at found
      exact fits index member found
    · rw [if_neg early] at found
      have inside : index + 1 < list.length := by
        by_contra past
        rw [getElem?_eq_none (Nat.not_lt.mp past)] at found
        exact absurd found nofun
      rw [even index (Nat.not_lt.mp early) inside]
      exact fits (index + 1) member found

/-- The levels after a port was changed. -/
theorem levels_modify {slot : Nat} {port : ConfPort} (src : conf.ports slot = some port)
    (change : ConfPort → ConfPort) :
    (conf.modify slot change).levels =
      update conf.levels slot (change port).listenerAdjLevel := by
  funext index
  unfold Conf.levels
  rw [ports_modify]
  by_cases same : index = slot
  · rw [if_pos same, same, update_self, src]
    rfl
  · rw [if_neg same, update_of_ne same]

/-- Other changes of a port keep its levels. -/
theorem levels_modify_of_same {change : ConfPort → ConfPort}
    (same : ∀ port, (change port).listenerAdjLevel = port.listenerAdjLevel) (conf : Conf)
    (slot : Nat) : (conf.modify slot change).levels = conf.levels := by
  funext index
  unfold Conf.levels
  rw [ports_modify]
  split
  · cases conf.ports index with
    | none => rfl
    | some port => exact same port
  · rfl

theorem levels_transmit (conf : Conf) (slot : Nat) (change : Int) :
    (conf.modify slot (·.transmit change)).levels = conf.levels := by
  apply levels_modify_of_same
  intro port
  rfl

theorem levels_unlisten (conf : Conf) (slot index : Nat) :
    (conf.modify slot (·.unlisten index)).levels = conf.levels := by
  apply levels_modify_of_same
  intro port
  rfl

theorem levels_of_some {slot : Nat} {port : ConfPort} (h : conf.ports slot = some port) :
    conf.levels slot = port.listenerAdjLevel := by
  rw [Conf.levels, h]
  rfl

variable {srcSlot : Nat}

/-- A connection puts its level after the others of its source. -/
theorem levels_link (src : (conf.ports srcSlot).isSome) (sinkSlot : Nat) (adjLevel : Int) :
    (conf.link srcSlot sinkSlot adjLevel).levels =
      update conf.levels srcSlot
        (update (conf.levels srcSlot) (conf.listeners srcSlot).length
          (u32 (adjLevel + normalLevel))) := by
  have ⟨port, atSource⟩ := Option.isSome_iff_exists.mp src
  have changed := levels_modify atSource (·.listen sinkSlot adjLevel)
  rw [listeners_of_some atSource, levels_of_some atSource]
  exact (levels_transmit _ sinkSlot 1).trans changed

/-- Taking a connection away leaves the levels where they are. -/
theorem levels_unlink (conf : Conf) (srcSlot sinkSlot : Nat) :
    (conf.unlink srcSlot sinkSlot).levels = conf.levels :=
  (levels_transmit _ sinkSlot (-1)).trans (levels_unlisten conf srcSlot _)

/-- Adjusting a connection changes the level at the index of its sink. -/
theorem levels_adjust (src : (conf.ports srcSlot).isSome) (sinkSlot : Nat) (adjLevel : Int) :
    (conf.adjust srcSlot sinkSlot adjLevel).levels =
      update conf.levels srcSlot
        (update (conf.levels srcSlot) ((conf.listeners srcSlot).idxOf sinkSlot)
          (u32 (adjLevel + normalLevel))) := by
  have ⟨port, atSource⟩ := Option.isSome_iff_exists.mp src
  rw [levels_of_some atSource]
  exact levels_modify atSource _

/-- Removing a port leaves the levels of the others where they are. -/
theorem levels_without (conf : Conf) {port slot : Nat} (other : slot ≠ port) :
    (conf.without port).levels slot = conf.levels slot := by
  unfold Conf.levels Conf.without
  dsimp only
  rw [if_neg other]
  cases conf.ports slot <;> rfl

/-- What every level was given, after a call gave one more. -/
theorem give_apply (given : Nat → Nat → Nat) (srcSlot sinkSlot : Nat) (adjLevel : Int)
    (slot sink : Nat) :
    give given srcSlot sinkSlot adjLevel slot sink =
      if slot = srcSlot ∧ sink = sinkSlot then u32 (adjLevel + normalLevel)
      else given slot sink := by
  unfold give
  by_cases src : slot = srcSlot
  · rw [src, update_self]
    by_cases last : sink = sinkSlot
    · rw [last, update_self, if_pos ⟨rfl, rfl⟩]
    · rw [update_of_ne last, if_neg fun both => last both.2]
  · rw [update_of_ne src, if_neg fun both => src both.1]

variable {given : Nat → Nat → Nat}

variable {sinkSlot : Nat}

/-- A new connection has the level it is given. -/
theorem kept_link (kept : Levelling.Kept ⟨conf, given⟩) (src : (conf.ports srcSlot).isSome)
    (absent : sinkSlot ∉ conf.listeners srcSlot) (adjLevel : Int) :
    Levelling.Kept ⟨conf.link srcSlot sinkSlot adjLevel, give given srcSlot sinkSlot adjLevel⟩ := by
  intro slot index sink found
  dsimp only at found ⊢
  rw [listeners_link src] at found
  rw [levels_link src, give_apply]
  by_cases hit : slot = srcSlot
  · rw [hit, update_self] at found ⊢
    by_cases old : index < (conf.listeners srcSlot).length
    · rw [getElem?_append_left old] at found
      have member : sink ∈ conf.listeners srcSlot := mem_of_getElem? found
      have other : sink ≠ sinkSlot := fun same => absent (same ▸ member)
      rw [update_of_ne (Nat.ne_of_lt old), if_neg fun both => other both.2]
      exact kept srcSlot index sink found
    · have inside : index < (conf.listeners srcSlot ++ [sinkSlot]).length := by
        by_contra past
        rw [getElem?_eq_none (Nat.not_lt.mp past)] at found
        exact absurd found nofun
      have last : index = (conf.listeners srcSlot).length := by
        rw [length_append, length_singleton] at inside
        omega
      rw [last, getElem?_concat_length] at found
      rw [last, update_self, if_pos ⟨rfl, (Option.some.inj found).symm⟩]
  · rw [update_of_ne hit] at found ⊢
    rw [if_neg fun both => hit both.1]
    exact kept slot index sink found

/-- An adjusted connection has its new level. -/
theorem kept_adjust (linked : Linked conf) (kept : Levelling.Kept ⟨conf, given⟩)
    (present : sinkSlot ∈ conf.listeners srcSlot) (adjLevel : Int) :
    Levelling.Kept ⟨conf.adjust srcSlot sinkSlot adjLevel,
      give given srcSlot sinkSlot adjLevel⟩ := by
  intro slot index sink found
  dsimp only at found ⊢
  rw [listeners_adjust] at found
  rw [levels_adjust (isSome_of_mem present), give_apply]
  by_cases hit : slot = srcSlot
  · rw [hit] at found
    rw [hit, update_self]
    by_cases adjusted : sink = sinkSlot
    · have inside : index < (conf.listeners srcSlot).length := by
        by_contra past
        rw [getElem?_eq_none (Nat.not_lt.mp past)] at found
        exact absurd found nofun
      have place : (conf.listeners srcSlot).idxOf sinkSlot = index := by
        rw [getElem?_eq_getElem inside] at found
        rw [← adjusted, ← Option.some.inj found]
        exact (linked.nodup srcSlot).idxOf_getElem index inside
      rw [place, update_self, if_pos ⟨rfl, adjusted⟩]
    · have elsewhere : index ≠ (conf.listeners srcSlot).idxOf sinkSlot := by
        intro same
        rw [same, getElem?_idxOf present] at found
        exact adjusted (Option.some.inj found).symm
      rw [update_of_ne elsewhere, if_neg fun both => adjusted both.2]
      exact kept srcSlot index sink found
  · rw [update_of_ne hit, if_neg fun both => hit both.1]
    exact kept slot index sink found

/-- The levels after a connection was taken away are right if and only if the later ones were
the same. -/
theorem kept_unlink_iff (kept : Levelling.Kept ⟨conf, given⟩)
    (present : sinkSlot ∈ conf.listeners srcSlot) :
    Levelling.Kept ⟨conf.unlink srcSlot sinkSlot, given⟩ ↔ conf.EvenFrom srcSlot sinkSlot := by
  have source := fits_erase_iff sinkSlot (kept srcSlot)
  have listeners := listeners_unlink (isSome_of_mem present) sinkSlot
  have levels := levels_unlink conf srcSlot sinkSlot
  refine Iff.trans ?_ source
  constructor
  · intro after index sink found
    rw [← levels]
    apply after srcSlot index sink
    rwa [listeners, update_self]
  · intro after slot index sink found
    rw [listeners] at found
    rw [levels]
    by_cases hit : slot = srcSlot
    · rw [hit, update_self] at found
      rw [hit]
      exact after index sink found
    · rw [update_of_ne hit] at found
      exact kept slot index sink found

/-- The levels after a port was removed are right if and only if, in every list that it was
in, the later ones were the same. -/
theorem kept_without_iff (kept : Levelling.Kept ⟨conf, given⟩) (port : Nat) :
    Levelling.Kept ⟨conf.without port, given⟩ ↔
      ∀ slot, slot ≠ port → conf.EvenFrom slot port := by
  have listeners := listeners_without conf port
  constructor
  · intro after slot other
    apply (fits_erase_iff port (kept slot)).mp
    intro index sink found
    rw [← levels_without conf other]
    apply after slot index sink
    rwa [listeners, update_of_ne other]
  · intro even slot index sink found
    rw [listeners] at found
    by_cases other : slot = port
    · rw [other, update_self] at found
      exact absurd found nofun
    · rw [update_of_ne other] at found
      rw [levels_without conf other]
      exact (fits_erase_iff port (kept slot)).mpr (even slot other) index sink found

/-- A listener with others after it names a slot of the bridge. -/
theorem Linked.bounds_of_uneven (linked : Linked conf) {slot sink : Nat}
    (uneven : ¬conf.EvenFrom slot sink) :
    slot < conf.maxPorts ∧ sink < conf.maxPorts ∧ sink ∈ conf.listeners slot := by
  simp only [Conf.EvenFrom, not_forall] at uneven
  have ⟨index, from_sink, inside, _⟩ := uneven
  have present : sink ∈ conf.listeners slot := idxOf_lt_length_iff.mp (by omega)
  have few := linked.length_listeners_le slot
  have src := linked.inside slot (isSome_of_mem present)
  have named := linked.inside sink (linked.named slot sink present)
  exact ⟨by omega, by omega, present⟩

section
variable (state : Levelling) (op : Op) (linked : Linked state.conf) (kept : state.Kept)
include state op linked kept

/-- A call that takes listeners off evenly keeps the levels right. -/
theorem kept_next (evenly : state.Evenly op) : (state.next op).Kept := by
  obtain ⟨conf, given⟩ := state
  cases op with
  | addPort format =>
    show Levelling.Kept ⟨(addPort conf format).conf, given⟩
    cases addPort_cases conf format linked.exists_free with
    | inl same => rwa [same.2]
    | inr added =>
      obtain ⟨slot, port, _, empty, listens, _, changed⟩ := added
      rw [changed]
      intro index place sink found
      have old : (conf.listeners index)[place]? = some sink := by
        rw [← listeners_put empty listens]
        exact found
      have other : index ≠ slot := by
        intro same
        rw [same, Conf.listeners, empty] at old
        cases old
      have level : Conf.levels (conf.put slot (some port)) index = conf.levels index := by
        unfold Conf.levels Conf.put
        dsimp only
        rw [update_of_ne other]
      exact (congrFun level place).trans (kept index place sink old)
  | connect srcSlot sinkSlot adjLevel =>
    show Levelling.Kept ⟨(connectPort conf srcSlot sinkSlot adjLevel).conf,
      if (connectPort conf srcSlot sinkSlot adjLevel).status = .success ∧
          sinkSlot ∉ conf.listeners srcSlot then
        give given srcSlot sinkSlot adjLevel
      else given⟩
    cases connectPort_cases conf srcSlot sinkSlot adjLevel with
    | inl same =>
      rw [same.2.1, if_neg]
      · exact kept
      · intro both
        exact both.2 (same.2.2 both.1)
    | inr made =>
      obtain ⟨_, src, _, absent, changed⟩ := made
      have fresh : Status.success = Status.success ∧ sinkSlot ∉ conf.listeners srcSlot :=
        ⟨rfl, absent⟩
      rw [changed, if_pos fresh]
      exact kept_link kept src absent adjLevel
  | disconnect srcSlot sinkSlot =>
    show Levelling.Kept ⟨(disconnectPort conf srcSlot sinkSlot).conf, given⟩
    cases disconnectPort_cases conf srcSlot sinkSlot with
    | inl same => rwa [same.2.1]
    | inr taken =>
      obtain ⟨_, present, changed⟩ := taken
      rw [changed]
      exact (kept_unlink_iff kept present).mpr evenly
  | remove port =>
    show Levelling.Kept ⟨(removePort conf port).conf, given⟩
    cases removePort_cases conf port linked.inside with
    | inl same => rwa [same.1]
    | inr removed =>
      obtain ⟨_, _, changed⟩ := removed
      rw [changed]
      exact (kept_without_iff kept port).mpr evenly
  | adjust srcSlot sinkSlot adjLevel =>
    show Levelling.Kept ⟨(adjustConnLevel conf srcSlot sinkSlot adjLevel).conf,
      if (adjustConnLevel conf srcSlot sinkSlot adjLevel).status = .success then
        give given srcSlot sinkSlot adjLevel
      else given⟩
    cases adjustConnLevel_cases conf srcSlot sinkSlot adjLevel with
    | inl same =>
      rw [same, if_neg (by simp)]
      exact kept
    | inr found =>
      rw [found.2, if_pos rfl]
      exact kept_adjust linked kept found.1 adjLevel

/-- A call that takes a listener off unevenly leaves a connection with another's level. -/
theorem not_kept_next (unevenly : ¬state.Evenly op) : ¬(state.next op).Kept := by
  have ⟨conf, given⟩ := state
  cases op with
  | addPort format => exact absurd trivial unevenly
  | connect srcSlot sinkSlot adjLevel => exact absurd trivial unevenly
  | adjust srcSlot sinkSlot adjLevel => exact absurd trivial unevenly
  | disconnect srcSlot sinkSlot =>
    show ¬Levelling.Kept ⟨(disconnectPort conf srcSlot sinkSlot).conf, given⟩
    have ⟨src, sink, present⟩ := linked.bounds_of_uneven unevenly
    cases disconnectPort_cases conf srcSlot sinkSlot with
    | inl same => exact absurd present (same.2.2 src sink (linked.named srcSlot sinkSlot present))
    | inr taken =>
      rw [taken.2.2]
      exact mt (kept_unlink_iff kept present).mp unevenly
  | remove port =>
    show ¬Levelling.Kept ⟨(removePort conf port).conf, given⟩
    cases removePort_cases conf port linked.inside with
    | inl same =>
      apply absurd _ unevenly
      intro slot _
      by_contra uneven
      have ⟨_, inside, present⟩ := linked.bounds_of_uneven uneven
      exact linked.not_mem_of_none (same.2 inside) present
    | inr removed =>
      rw [removed.2.2]
      exact mt (kept_without_iff kept port).mp unevenly

end

/-- In a run of calls on a new bridge every connection always has the level that was last given
for it if and only if listeners are only taken off where the later ones have the same level. -/
theorem connection_levels_iff {settings : Settings} {maxPorts : Nat} {conf : Conf}
    (created : createConf settings maxPorts = some conf) (ops : List Op) :
    Run.Always Levelling.next Levelling.Kept ⟨conf, fun _ _ => 0⟩ ops ↔
      Run.Meets Levelling.next Levelling.Evenly ⟨conf, fun _ _ => 0⟩ ops := by
  have start : Linked conf ∧ Levelling.Kept ⟨conf, fun _ _ => 0⟩ := by
    refine ⟨createConf_linked created, ?_⟩
    intro slot index sink found
    rw [createConf_listeners created] at found
    exact absurd found nofun
  have step : ∀ (state : Levelling) (op : Op), (Linked state.conf ∧ state.Kept) →
      state.Evenly op → Linked (state.next op).conf ∧ (state.next op).Kept :=
    fun state op both evenly =>
      ⟨next_linked both.1 op, kept_next state op both.1 both.2 evenly⟩
  have broken : ∀ (state : Levelling) (op : Op), (Linked state.conf ∧ state.Kept) →
      ¬state.Evenly op → ¬(state.next op).Kept :=
    fun state op both unevenly => not_kept_next state op both.1 both.2 unevenly
  exact Run.always_iff step (fun _ both => both.2) broken start

/-- A listener of slot 0 at the normal level, and one at half as much again. -/
theorem connection_levels_iff_adjust :
    Run.Always Levelling.next Levelling.Kept ⟨telephone, fun _ _ => 0⟩
        [.addPort ⟨8000, 1, 20000⟩, .addPort ⟨8000, 1, 20000⟩, .connect 0 1 0, .connect 0 2 0,
          .adjust 0 2 64] ↔
      Run.Meets Levelling.next Levelling.Evenly ⟨telephone, fun _ _ => 0⟩
        [.addPort ⟨8000, 1, 20000⟩, .addPort ⟨8000, 1, 20000⟩, .connect 0 1 0, .connect 0 2 0,
          .adjust 0 2 64] :=
  connection_levels_iff createConf_telephone _

/-- The second listener of slot 0 gets the level of the first one when that is disconnected. -/
theorem disconnect_shifts_level :
    ¬Run.Always Levelling.next Levelling.Kept ⟨telephone, fun _ _ => 0⟩
      [.addPort ⟨8000, 1, 20000⟩, .addPort ⟨8000, 1, 20000⟩, .connect 0 1 0, .connect 0 2 64,
        .disconnect 0 1] := by
  intro always
  have level := always.last 0 0 2 rfl
  exact absurd level (by decide)

end Pjmedia.Conference
