import Pjproject.Conference.Graph

/-!
# Pausing and resuming the sound device

The sound device is resumed when slot 0 gets its first listener, and paused when it loses the
last one. The calls find out which by the length of its list before and after.
-/

namespace Pjmedia.Conference
open Function List

variable {conf other : Conf} {sounds : List Sound}

/-- A bridge, and the callbacks it has made. -/
structure Sounding where
  conf : Conf
  sounds : List Sound

/-- A call makes its callbacks after those before it. -/
def Sounding.next (state : Sounding) (op : Op) : Sounding where
  conf := Conference.next state.conf op
  sounds := state.sounds ++ (execute state.conf op).sounds

/-- Slot 0 is occupied, and somebody listens to it. -/
def Conf.Heard (conf : Conf) : Prop :=
  (conf.ports 0).isSome ∧ conf.listeners 0 ≠ []

/-- The callbacks alternate, a resume first, and the last one tells whether slot 0 is heard. -/
def Sounding.Tracks (state : Sounding) : Prop :=
  state.sounds.head? ≠ some .pause ∧ state.sounds.IsChain (· ≠ ·) ∧
    (state.sounds.getLast? = some .resume ↔ state.conf.Heard)

/-- Slot 0 is not removed while another slot listens to it. -/
def Sounding.Quiet (state : Sounding) : Op → Prop
  | .remove port => port = 0 → ∀ sink ∈ state.conf.listeners 0, sink = 0
  | _ => True

theorem heard_iff : conf.Heard ↔ conf.listeners 0 ≠ [] := by
  constructor
  · exact And.right
  · intro listened
    have ⟨sink, member⟩ := exists_mem_of_ne_nil _ listened
    exact ⟨isSome_of_mem member, listened⟩

section
variable (tracks : Sounding.Tracks ⟨conf, sounds⟩)
include tracks

/-- A call that makes no callback, and leaves slot 0 heard or not. -/
theorem tracks_silent (same : other.listeners 0 = [] ↔ conf.listeners 0 = []) :
    Sounding.Tracks ⟨other, sounds ++ []⟩ := by
  have ⟨first, chain, last⟩ := tracks
  rw [append_nil]
  refine ⟨first, chain, ?_⟩
  rw [last, heard_iff, heard_iff]
  exact (not_congr same).symm

/-- A call that resumes the sound when slot 0 gets its first listener. -/
theorem tracks_resume (before : conf.listeners 0 = []) (after : other.listeners 0 ≠ []) :
    Sounding.Tracks ⟨other, sounds ++ [.resume]⟩ := by
  have ⟨first, chain, last⟩ := tracks
  have paused : sounds.getLast? ≠ some .resume := fun resumed =>
    heard_iff.mp (last.mp resumed) before
  refine ⟨?_, ?_, ?_⟩
  · cases sounds with
    | nil => exact nofun
    | cons sound rest => exact first
  · apply chain.append (isChain_singleton _)
    intro sound atEnd next atStart
    rw [← Option.some.inj atStart]
    intro same
    rw [same] at atEnd
    exact paused atEnd
  · rw [getLast?_concat, heard_iff]
    exact iff_of_true rfl after

/-- A call that pauses the sound when slot 0 loses its last listener. -/
theorem tracks_pause (before : conf.listeners 0 ≠ []) (after : other.listeners 0 = []) :
    Sounding.Tracks ⟨other, sounds ++ [.pause]⟩ := by
  have ⟨first, chain, last⟩ := tracks
  have resumed : sounds.getLast? = some .resume := last.mpr (heard_iff.mpr before)
  refine ⟨?_, ?_, ?_⟩
  · cases sounds with
    | nil => exact absurd resumed nofun
    | cons sound rest => exact first
  · apply chain.append (isChain_singleton _)
    intro sound atEnd next atStart
    rw [Option.mem_def, resumed] at atEnd
    rw [← Option.some.inj atStart, ← Option.some.inj atEnd]
    exact nofun
  · rw [getLast?_concat, heard_iff]
    exact iff_of_false nofun (not_not.mpr after)

end

/-- A list without duplicates that has one value only. -/
theorem eq_singleton_of_nodup {list : List Nat} {only : Nat} (nodup : list.Nodup)
    (filled : list ≠ []) (all : ∀ member ∈ list, member = only) : list = [only] := by
  have repeated := eq_replicate_length.mpr all
  rw [repeated, nodup_replicate] at nodup
  have positive := length_pos_of_ne_nil filled
  have one : list.length = 1 := by omega
  rw [repeated, one, replicate_one]

section
variable (state : Sounding) (op : Op) (linked : Linked state.conf) (tracks : state.Tracks)
include state op linked tracks

/-- A call that does not remove slot 0 under a listener tells whether it is heard. -/
theorem tracks_next (quiet : state.Quiet op) : (state.next op).Tracks := by
  have ⟨conf, sounds⟩ := state
  cases op with
  | addPort format =>
    show Sounding.Tracks ⟨(addPort conf format).conf, sounds ++ (addPort conf format).sounds⟩
    cases addPort_cases conf format linked.exists_free with
    | inl same =>
      rw [same.1, same.2]
      exact tracks_silent tracks Iff.rfl
    | inr added =>
      have ⟨slot, port, _, empty, listens, _, changed⟩ := added
      have listeners : Conf.listeners { conf.put slot (some port) with
          portCnt := conf.portCnt + 1 } = conf.listeners := listeners_put empty listens
      rw [changed]
      exact tracks_silent tracks (by rw [listeners])
  | connect srcSlot sinkSlot adjLevel =>
    show Sounding.Tracks ⟨(connectPort conf srcSlot sinkSlot adjLevel).conf,
      sounds ++ (connectPort conf srcSlot sinkSlot adjLevel).sounds⟩
    cases connectPort_cases conf srcSlot sinkSlot adjLevel with
    | inl same =>
      rw [same.1, same.2.1]
      exact tracks_silent tracks Iff.rfl
    | inr made =>
      have ⟨_, src, _, _, changed⟩ := made
      have listeners := congrFun (listeners_link src sinkSlot adjLevel) 0
      rw [changed]
      by_cases device : srcSlot = 0
      · subst device
        have after : (conf.link 0 sinkSlot adjLevel).listeners 0 ≠ [] := by
          rw [listeners]
          exact append_ne_nil_of_right_ne_nil _ nofun
        by_cases before : conf.listeners 0 = []
        · rw [if_pos ⟨before, rfl⟩]
          exact tracks_resume tracks before after
        · rw [if_neg fun both => before both.1]
          exact tracks_silent tracks (iff_of_false after before)
      · rw [update_of_ne (Ne.symm device)] at listeners
        rw [if_neg fun both => device both.2]
        exact tracks_silent tracks (by rw [listeners])
  | disconnect srcSlot sinkSlot =>
    show Sounding.Tracks ⟨(disconnectPort conf srcSlot sinkSlot).conf,
      sounds ++ (disconnectPort conf srcSlot sinkSlot).sounds⟩
    cases disconnectPort_cases conf srcSlot sinkSlot with
    | inl same =>
      rw [same.1, same.2.1]
      exact tracks_silent tracks Iff.rfl
    | inr taken =>
      have ⟨_, present, changed⟩ := taken
      have listeners := congrFun (listeners_unlink (isSome_of_mem present) sinkSlot) 0
      rw [changed]
      dsimp only
      by_cases device : srcSlot = 0
      · subst device
        have before := ne_nil_of_mem present
        have length := length_erase_of_mem present
        have positive := length_pos_of_mem present
        rw [update_self] at listeners
        by_cases last : (conf.listeners 0).length = 1
        · rw [if_pos ⟨rfl, last⟩]
          apply tracks_pause tracks before
          rw [listeners, ← length_eq_zero_iff]
          omega
        · rw [if_neg fun both => last both.2]
          apply tracks_silent tracks
          rw [listeners, ← length_eq_zero_iff, ← length_eq_zero_iff]
          omega
      · rw [update_of_ne (Ne.symm device)] at listeners
        rw [if_neg fun both => device both.1]
        exact tracks_silent tracks (by rw [listeners])
  | remove port =>
    show Sounding.Tracks ⟨(removePort conf port).conf, sounds ++ (removePort conf port).sounds⟩
    cases removePort_cases conf port linked.inside with
    | inl same =>
      rw [same.1]
      exact tracks_silent tracks Iff.rfl
    | inr removed =>
      have listeners := congrFun (listeners_without conf port) 0
      rw [removed.2.2]
      by_cases only : conf.listeners 0 = [port]
      · rw [if_pos only]
        apply tracks_pause tracks
        · rw [only]
          exact nofun
        · rw [listeners]
          by_cases device : port = 0
          · rw [device, update_self]
          · rw [update_of_ne (Ne.symm device), only, erase_cons_head]
      · rw [if_neg only]
        apply tracks_silent tracks
        rw [listeners]
        by_cases device : port = 0
        · rw [device, update_self]
          apply iff_of_true rfl
          by_contra listened
          apply only
          rw [device]
          exact eq_singleton_of_nodup (linked.nodup 0) listened (quiet device)
        · rw [update_of_ne (Ne.symm device), erase_eq_nil_iff]
          exact or_iff_left only
  | adjust srcSlot sinkSlot adjLevel =>
    show Sounding.Tracks ⟨(adjustConnLevel conf srcSlot sinkSlot adjLevel).conf,
      sounds ++ (adjustConnLevel conf srcSlot sinkSlot adjLevel).sounds⟩
    cases adjustConnLevel_cases conf srcSlot sinkSlot adjLevel with
    | inl same =>
      rw [same]
      exact tracks_silent tracks Iff.rfl
    | inr found =>
      rw [found.2]
      exact tracks_silent tracks (by rw [listeners_adjust])

/-- Removing slot 0 under a listener leaves the sound device running. -/
theorem not_tracks_next (loud : ¬state.Quiet op) : ¬(state.next op).Tracks := by
  have ⟨conf, sounds⟩ := state
  dsimp only at linked
  cases op with
  | addPort format => exact absurd trivial loud
  | connect srcSlot sinkSlot adjLevel => exact absurd trivial loud
  | disconnect srcSlot sinkSlot => exact absurd trivial loud
  | adjust srcSlot sinkSlot adjLevel => exact absurd trivial loud
  | remove port =>
    simp only [Sounding.Quiet, not_forall] at loud
    have ⟨device, sink, present, other⟩ := loud
    subst device
    show ¬Sounding.Tracks ⟨(removePort conf 0).conf, sounds ++ (removePort conf 0).sounds⟩
    cases removePort_cases conf 0 linked.inside with
    | inl same =>
      have named := linked.inside sink (linked.named 0 sink present)
      have empty := same.2 (by omega)
      have occupied := isSome_of_mem present
      rw [empty] at occupied
      exact absurd occupied Bool.false_ne_true
    | inr removed =>
      have listeners := congrFun (listeners_without conf 0) 0
      have heard := heard_iff.mpr (ne_nil_of_mem present)
      have only : conf.listeners 0 ≠ [0] := by
        intro alone
        rw [alone] at present
        exact other (mem_singleton.mp present)
      rw [removed.2.2, if_neg only, append_nil]
      intro after
      apply heard_iff.mp (after.2.2.mp (tracks.2.2.mpr heard))
      rw [listeners, update_self]

end

/-- In a run of calls on a new bridge the callbacks always alternate and tell whether slot 0 is
heard if and only if slot 0 is never removed while another slot listens to it. -/
theorem sound_tracks_iff {settings : Settings} {maxPorts : Nat} {conf : Conf}
    (created : createConf settings maxPorts = some conf) (ops : List Op) :
    Run.Always Sounding.next Sounding.Tracks ⟨conf, []⟩ ops ↔
      Run.Meets Sounding.next Sounding.Quiet ⟨conf, []⟩ ops := by
  have start : Linked conf ∧ Sounding.Tracks ⟨conf, []⟩ := by
    refine ⟨createConf_linked created, nofun, isChain_nil, ?_⟩
    rw [heard_iff]
    exact iff_of_false nofun (not_not.mpr (createConf_listeners created 0))
  have step : ∀ (state : Sounding) (op : Op), (Linked state.conf ∧ state.Tracks) →
      state.Quiet op → Linked (state.next op).conf ∧ (state.next op).Tracks :=
    fun state op both quiet =>
      ⟨next_linked both.1 op, tracks_next state op both.1 both.2 quiet⟩
  have broken : ∀ (state : Sounding) (op : Op), (Linked state.conf ∧ state.Tracks) →
      ¬state.Quiet op → ¬(state.next op).Tracks :=
    fun state op both loud => not_tracks_next state op both.1 both.2 loud
  exact Run.always_iff step (fun _ both => both.2) broken start

/-- Two listeners of slot 0 come and go. -/
theorem sound_tracks_iff_listeners :
    Run.Always Sounding.next Sounding.Tracks ⟨telephone, []⟩
        [.addPort ⟨8000, 1, 20000⟩, .connect 0 1 0, .connect 0 0 0, .remove 1, .remove 0] ↔
      Run.Meets Sounding.next Sounding.Quiet ⟨telephone, []⟩
        [.addPort ⟨8000, 1, 20000⟩, .connect 0 1 0, .connect 0 0 0, .remove 1, .remove 0] :=
  sound_tracks_iff createConf_telephone _

/-- Slot 0 is removed while a port listens to it, and the sound is not paused. -/
theorem remove_misses_pause :
    ¬Run.Always Sounding.next Sounding.Tracks ⟨telephone, []⟩
      [.addPort ⟨8000, 1, 20000⟩, .connect 0 1 0, .remove 0] := by
  intro always
  have heard := always.last.2.2.mp rfl
  exact absurd heard.1 (by decide)

end Pjmedia.Conference
