import Pjproject.Conference.Mixing

/-!
# The order of the slots

Two bridges with the same ports in other slots mix the same sums for a listener. The factor of the
mix depends on the order of the slots where a running sum is louder than the sum of all sources.
-/

namespace Pjmedia.Conference.Mixer
open List Pj Circbuf

variable {samplesPerFrame : Nat}

/-- A port whose listeners are in other slots. -/
def relabel (place : Nat → Nat) (port : ConfPort) : ConfPort :=
  { port with listenerSlots := port.listenerSlots.map place }

/-- A tick with the same ports, levels and frames in other slots. -/
structure Relocated (place : Equiv.Perm Nat) (tick tick' : Tick samplesPerFrame) : Prop where
  ports : ∀ slot, tick'.conf.ports (place slot) = (tick.conf.ports slot).map (relabel place)
  rxAdjLevel : ∀ slot, tick'.rxAdjLevel (place slot) = tick.rxAdjLevel slot
  txAdjLevel : ∀ slot, tick'.txAdjLevel (place slot) = tick.txAdjLevel slot
  frames : ∀ slot, tick'.frames (place slot) = tick.frames slot

/-- No running sum on the way is louder than the sum of all sources, and none overflows. -/
def Tick.Steady (tick : Tick samplesPerFrame) (sink : Nat) : Prop :=
  let sources := (tick.framesTo sink).map signalOf
  ∀ sums ∈ runningSums 0 sources, Fits sums ∧ peakFactor sources.sum ≤ peakFactor sums

instance (tick : Tick samplesPerFrame) (sink : Nat) : Decidable (tick.Steady sink) :=
  inferInstanceAs (Decidable (∀ sums ∈ runningSums 0 ((tick.framesTo sink).map signalOf),
    Fits sums ∧ peakFactor ((tick.framesTo sink).map signalOf).sum ≤ peakFactor sums))

/-! ## Sums -/

/-- A sum of sums that wrapped. -/
theorem i32_i32_add (left right : Int) : i32 (i32 left + right) = i32 (left + right) := by
  rw [i32_eq, i32_eq, i32_eq, Int.bmod_add_bmod]

/-- Mixing adds up the frames in 32 bits, whatever the factors are. -/
theorem mixBuf_foldl (frames : List (Frame samplesPerFrame)) (mix : Mix samplesPerFrame)
    (start : ∀ k, i32 (mix.mixBuf k) = mix.mixBuf k) (k : Fin samplesPerFrame) :
    (frames.foldl mixSamples mix).mixBuf k =
      i32 (mix.mixBuf k + (frames.map signalOf).sum k) := by
  induction frames generalizing mix with
  | nil =>
    rw [map_nil, sum_nil, Pi.zero_apply, Int.add_zero]
    exact (start k).symm
  | cons frame rest ih =>
    have first : (mixSamples mix frame).mixBuf =
        fun k => i32 (mix.mixBuf k + (frame k).toInt) := by
      unfold mixSamples
      dsimp only
      split <;> rfl
    have wrapped : ∀ k, i32 ((mixSamples mix frame).mixBuf k) =
        (mixSamples mix frame).mixBuf k := by
      intro k
      rw [first]
      have twice := i32_i32_add (mix.mixBuf k + (frame k).toInt) 0
      rwa [Int.add_zero, Int.add_zero] at twice
    rw [foldl_cons, ih _ wrapped, first, i32_i32_add, map_cons, sum_cons,
      Pi.add_apply, Int.add_assoc]
    rfl

/-- If no running sum is louder than the last one, the factor is that of the last one. -/
theorem factor_steady {sources : List (Signal samplesPerFrame)}
    (steady : ∀ sums ∈ runningSums 0 sources, peakFactor sources.sum ≤ peakFactor sums) :
    factor sources = peakFactor sources.sum := by
  apply Int.le_antisymm
  · by_cases none : sources = []
    · subst none
      have silent : peakFactor (0 : Signal samplesPerFrame) = normalLevel :=
        if_pos fun _ => (by decide : InRange 0)
      exact Int.le_of_eq silent.symm
    · have member := sum_mem_runningSums none 0
      rw [zero_add] at member
      exact factor_le_of_mem member
  · apply (le_foldl_min_iff peakFactor _ _ _).mpr
    exact ⟨(peakFactor_bounds sources.sum).2.1, steady⟩

/-! ## Other slots -/

section Relocated
variable {place : Equiv.Perm Nat} {tick tick' : Tick samplesPerFrame}

/-- The frames from a slot are those from its other slot. -/
theorem framesFrom_relocated (relocated : Relocated place tick tick') (sink slot : Nat) :
    tick'.framesFrom (place sink) (place slot) = tick.framesFrom sink slot := by
  unfold Tick.framesFrom
  rw [relocated.ports, relocated.frames, relocated.rxAdjLevel]
  cases tick.conf.ports slot with
  | none => rfl
  | some port =>
    cases tick.frames slot with
    | none => rfl
    | some frame =>
      show (if port.rxSetting = .disable then [] else
          (((port.listenerSlots.map place).zipIdx.filter
            fun listener => listener.1 = place sink).map _)) = _
      have same : ∀ listeners : List (Nat × Nat),
          ((listeners.map (Prod.map place id)).filter fun listener => listener.1 = place sink).map
            (fun listener => adjustFrame (port.listenerAdjLevel listener.2)
              (adjustFrame (tick.rxAdjLevel slot) frame)) =
          (listeners.filter fun listener => listener.1 = sink).map
            (fun listener => adjustFrame (port.listenerAdjLevel listener.2)
              (adjustFrame (tick.rxAdjLevel slot) frame)) := by
        intro listeners
        rw [filter_map, map_map]
        congr 1
        apply filter_congr
        intro listener _
        exact decide_eq_decide.mpr place.injective.eq_iff
      rw [zipIdx_map]
      exact if_congr Iff.rfl rfl (same _)

section
variable (relocated : Relocated place tick tick') (inside : 0 < tick.conf.maxPorts)
  (inside' : 0 < tick'.conf.maxPorts)
include relocated inside inside'

/-- The loops visit the same ports in another order. -/
theorem visited_relocated : (visited tick'.conf).Perm ((visited tick.conf).map place) := by
  have members : ∀ {tick : Tick samplesPerFrame}, 0 < tick.conf.maxPorts → ∀ slot,
      slot ∈ visited tick.conf ↔ (tick.conf.ports slot).isSome := by
    intro tick inside slot
    rw [visited_eq tick.linked, mem_filter, mem_range]
    constructor
    · exact And.right
    · intro occupied
      have within := tick.linked.inside slot occupied
      exact ⟨by omega, occupied⟩
  have nodup : ∀ {tick : Tick samplesPerFrame}, (visited tick.conf).Nodup := by
    intro tick
    rw [visited_eq tick.linked]
    exact nodup_range.filter _
  apply (perm_ext_iff_of_nodup nodup (nodup.map place.injective)).mpr
  intro slot
  obtain ⟨origin, rfl⟩ := place.surjective slot
  rw [mem_map_of_injective place.injective, members inside', members inside,
    relocated.ports, Option.isSome_map]

/-- A listener gets the same frames in another order. -/
theorem framesTo_relocated (sink : Nat) :
    (tick'.framesTo (place sink)).Perm (tick.framesTo sink) := by
  rw [← flatMap_visited tick', ← flatMap_visited tick]
  have same : ((visited tick.conf).map place).flatMap (tick'.framesFrom (place sink)) =
      (visited tick.conf).flatMap (tick.framesFrom sink) := by
    rw [flatMap_map]
    congr 1
    funext slot
    exact framesFrom_relocated relocated sink slot
  rw [← same]
  exact (visited_relocated relocated inside inside').flatMap_right _

/-- The sums of a listener are the same. -/
theorem sum_relocated (sink : Nat) :
    ((tick'.framesTo (place sink)).map signalOf).sum =
      ((tick.framesTo sink).map signalOf).sum :=
  ((framesTo_relocated relocated inside inside' sink).map signalOf).sum_eq

end

variable {sink : Nat} {listener : ConfPort}

theorem ports_relocated (relocated : Relocated place tick tick')
    (atSink : tick.conf.ports sink = some listener) :
    tick'.conf.ports (place sink) = some (relabel place listener) := by
  rw [relocated.ports, atSink]
  rfl

section
variable (relocated : Relocated place tick tick') (inside : 0 < tick.conf.maxPorts)
  (inside' : 0 < tick'.conf.maxPorts) (atSink : tick.conf.ports sink = some listener)
  (enabled : listener.txSetting = .enable) (heard : listener.transmitterCnt ≠ 0)
include relocated inside inside' atSink enabled heard

/-- The mix buffers of a listener are the same. -/
theorem mixBuf_relocated : (mixed tick' (place sink)).mixBuf = (mixed tick sink).mixBuf := by
  have atSink' := ports_relocated relocated atSink
  have frames := framesTo_relocated relocated inside inside' sink
  have length := length_framesTo tick sink
  rw [transmitters_of_some atSink] at length
  rw [mixed_eq_foldl atSink enabled heard, mixed_eq_foldl atSink' enabled heard]
  show ((tick'.framesTo (place sink)).foldl (addFrame listener.transmitterCnt) _).mixBuf = _
  by_cases several : 1 < listener.transmitterCnt
  · have zero : ∀ k : Fin samplesPerFrame, i32 ((fun _ => 0 : Signal samplesPerFrame) k) = 0 := by
      intro k
      rfl
    rw [addFrame_eq_mixSamples several]
    funext k
    rw [mixBuf_foldl _ _ zero, mixBuf_foldl _ _ zero,
      sum_relocated relocated inside inside' sink]
  · have same : tick'.framesTo (place sink) = tick.framesTo sink := by
      match only : tick.framesTo sink, frames, length with
      | [], frames, _ => exact frames.eq_nil
      | [frame], frames, _ => exact perm_singleton.mp frames
      | _ :: _ :: rest, _, length =>
        rw [length_cons, length_cons] at length
        omega
    rw [same]

/-- Where the sums are steady, the factors of a listener are the same. -/
theorem mixAdj_relocated (steady : tick.Steady sink) (steady' : tick'.Steady (place sink)) :
    (mixed tick' (place sink)).mixAdj = (mixed tick sink).mixAdj := by
  have atSink' := ports_relocated relocated atSink
  rw [mixed_apply atSink enabled heard fun sums member => (steady sums member).1,
    mixed_apply atSink' enabled heard fun sums member => (steady' sums member).1]
  rw [factor_steady fun sums member => (steady sums member).2,
    factor_steady fun sums member => (steady' sums member).2,
    sum_relocated relocated inside inside' sink]

end

end Relocated

/-- Two frames have steady sums. -/
theorem steady_of_two {tick : Tick samplesPerFrame} {sink : Nat}
    (two : (tick.framesTo sink).length ≤ 2) : tick.Steady sink := by
  have quiet : ∀ frame : Frame samplesPerFrame, Fits (signalOf frame) ∧
      peakFactor (signalOf frame) = normalLevel := by
    intro frame
    refine ⟨?_, if_pos (signalOf_inRange frame)⟩
    intro k
    have range := signalOf_inRange frame k
    unfold InRange minLevel maxLevel at range
    omega
  unfold Tick.Steady
  generalize tick.framesTo sink = frames at two ⊢
  match frames, two with
  | [], _ => exact nofun
  | [frame], _ =>
    intro sources sums member
    have total : sources.sum = signalOf frame := sum_singleton
    rw [mem_singleton.mp member, zero_add, total]
    exact ⟨(quiet frame).1, Int.le_refl _⟩
  | [first, second], _ =>
    intro sources sums member
    have total : sources.sum = signalOf first + signalOf second := sum_pair
    rw [total]
    rcases mem_cons.mp member with rfl | member
    · rw [zero_add, (quiet first).2]
      exact ⟨(quiet first).1, (peakFactor_bounds _).2.1⟩
    · rw [mem_singleton.mp member, zero_add]
      refine ⟨?_, Int.le_refl _⟩
      intro k
      have one := signalOf_inRange first k
      have two := signalOf_inRange second k
      have sum : (signalOf first + signalOf second) k = signalOf first k + signalOf second k := rfl
      unfold InRange minLevel maxLevel at one two
      omega

/-- In other slots a listener is handed the same frame if the factors of the mixes are the same,
which they are where the running sums are steady, as with two frames. -/
theorem getFrame_relocated {place : Equiv.Perm Nat} {tick tick' : Tick samplesPerFrame}
    (relocated : Relocated place tick tick') {sink : Nat} {listener : ConfPort}
    (inside : sink < tick.conf.maxPorts) (inside' : place sink < tick'.conf.maxPorts)
    (atSink : tick.conf.ports sink = some listener) (enabled : listener.txSetting = .enable)
    (heard : listener.transmitterCnt ≠ 0) :
    (mixed tick' (place sink)).mixBuf = (mixed tick sink).mixBuf ∧
      ((mixed tick' (place sink)).mixAdj = (mixed tick sink).mixAdj ∨
          tick.Steady sink ∧ tick'.Steady (place sink) ∨ (tick.framesTo sink).length ≤ 2 →
        ∀ handed, (place sink, handed) ∈ getFrame tick' ↔ (sink, handed) ∈ getFrame tick) := by
  have some : 0 < tick.conf.maxPorts := by omega
  have some' : 0 < tick'.conf.maxPorts := by omega
  have buffers := mixBuf_relocated relocated some some' atSink enabled heard
  refine ⟨buffers, ?_⟩
  intro condition handed
  have factors : (mixed tick' (place sink)).mixAdj = (mixed tick sink).mixAdj := by
    rcases condition with same | ⟨steady, steady'⟩ | two
    · exact same
    · exact mixAdj_relocated relocated some some' atSink enabled heard steady steady'
    · have two' : (tick'.framesTo (place sink)).length ≤ 2 := by
        rw [(framesTo_relocated relocated some some' sink).length_eq]
        exact two
      exact mixAdj_relocated relocated some some' atSink enabled heard (steady_of_two two)
        (steady_of_two two')
  have mixes : mixed tick' (place sink) = mixed tick sink := by
    cases first : mixed tick' (place sink)
    cases second : mixed tick sink
    rw [first, second] at buffers factors
    cases buffers
    cases factors
    rfl
  rw [mem_getFrame inside atSink, mem_getFrame inside' (ports_relocated relocated atSink), mixes,
    relocated.txAdjLevel]
  rfl

/-! ## Three transmitters -/

/-- A bridge with three ports connected to port 0. -/
def party : Conf :=
  [Op.addPort ⟨8000, 1, 20000⟩, .addPort ⟨8000, 1, 20000⟩, .addPort ⟨8000, 1, 20000⟩,
    .connect 1 0 0, .connect 2 0 0, .connect 3 0 0].foldl next telephone

/-- A tick of the bridge with one sample a frame, of which one is inverted. -/
def inverted (quiet : Nat) (loudness : Int) : Tick 1 where
  conf := party
  linked := foldl_next_linked createConf_telephone _
  rxAdjLevel _ := 128
  txAdjLevel _ := 128
  frames slot := some fun _ => Int16.ofInt (if slot = quiet then -loudness else loudness)
  mixes _ := { mixBuf := fun _ => 0, mixAdj := 128 }

/-- The ports 2 and 3 in each other's slots. -/
theorem relocated_inverted (loudness : Int) :
    Relocated (Equiv.swap 2 3) (inverted 3 loudness) (inverted 2 loudness) where
  ports := by
    intro slot
    match slot with
    | 0 => rfl
    | 1 => rfl
    | 2 => rfl
    | 3 => rfl
    | slot + 4 =>
      have stays : Equiv.swap 2 3 (slot + 4) = slot + 4 :=
        Equiv.swap_apply_of_ne_of_ne (by omega) (by omega)
      rfl
  rxAdjLevel _ := rfl
  txAdjLevel _ := rfl
  frames := by
    intro slot
    have moved : Equiv.swap 2 3 slot = 2 ↔ slot = 3 := by
      rw [Equiv.swap_apply_eq_iff, Equiv.swap_apply_left]
    show some _ = some _
    simp only [moved]

/-- Three transmitters that are not loud have steady sums. -/
theorem getFrame_relocated_quiet :
    (mixed (inverted 2 1000) 0).mixBuf = (mixed (inverted 3 1000) 0).mixBuf ∧
      ∀ handed, (0, handed) ∈ getFrame (inverted 2 1000) ↔
        (0, handed) ∈ getFrame (inverted 3 1000) := by
  have steady : (inverted 3 1000).Steady 0 := by decide +kernel
  have steady' : (inverted 2 1000).Steady 0 := by decide +kernel
  have ⟨buffers, frames⟩ := @getFrame_relocated 1 _ _ _ (relocated_inverted 1000) 0 _ (by decide)
    (by decide) rfl rfl (by decide)
  exact ⟨buffers, frames (.inr (.inl ⟨steady, steady'⟩))⟩

/-- Three loud transmitters, of which one is inverted: in slot 3 it comes after a sum of 60000, and
the listener is handed 16171; in slot 2 the sums are in range, and it is handed 30000. -/
theorem getFrame_reordered_loud :
    Relocated (Equiv.swap 2 3) (inverted 3 30000) (inverted 2 30000) ∧
      (∃ frame : Frame 1, (0, Handed.audio frame) ∈ getFrame (inverted 3 30000) ∧
        (frame 0).toInt = 16171) ∧
      ∃ frame : Frame 1, (0, Handed.audio frame) ∈ getFrame (inverted 2 30000) ∧
        (frame 0).toInt = 30000 := by
  refine ⟨relocated_inverted 30000, ⟨_, mem_cons_self, ?_⟩, ⟨_, mem_cons_self, ?_⟩⟩
  · decide +kernel
  · decide +kernel

end Pjmedia.Conference.Mixer
