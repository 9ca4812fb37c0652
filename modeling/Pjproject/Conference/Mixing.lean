import Mathlib.Order.Lattice.Nat
import Pjproject.Conference.Mixer

/-!
# What the mixer delivers

A listener is handed the exact sum of its sources at the product of its level and the smallest
factor of the running sums, clipped, unless that product is the normal level while the sum is too
loud for it.
-/

namespace Pjmedia.Conference.Mixer
open Function List Pj Circbuf

/-! ## Signals -/

/-- A signal of any loudness. -/
abbrev Signal (samplesPerFrame : Nat) := Fin samplesPerFrame → Int

/-- A value that a 16-bit sample can have. -/
def InRange (value : Int) : Prop := minLevel ≤ value ∧ value ≤ maxLevel

instance (value : Int) : Decidable (InRange value) := inferInstanceAs (Decidable (_ ∧ _))

variable {samplesPerFrame : Nat}

/-- The largest magnitude of a signal. -/
def peak (signal : Signal samplesPerFrame) : Nat :=
  Finset.univ.sup fun k => (signal k).natAbs

/-- The factor that brings a signal into the 16-bit range; 128 is 1. -/
def peakFactor (signal : Signal samplesPerFrame) : Int :=
  if ∀ k, InRange (signal k) then normalLevel else maxLevel * 128 / peak signal

/-- The sums that adding signals one by one gives. -/
def runningSums (start : Signal samplesPerFrame) :
    List (Signal samplesPerFrame) → List (Signal samplesPerFrame)
  | [] => []
  | signal :: rest => (start + signal) :: runningSums (start + signal) rest

/-- The smallest factor of the running sums. -/
def factor (sources : List (Signal samplesPerFrame)) : Int :=
  (runningSums 0 sources).foldl (fun least sums => min least (peakFactor sums)) normalLevel

/-- The magnitudes of a signal fit an `int`. -/
def Fits (signal : Signal samplesPerFrame) : Prop := ∀ k, (signal k).natAbs < 2 ^ 31

instance (signal : Signal samplesPerFrame) : Decidable (Fits signal) :=
  inferInstanceAs (Decidable (∀ k, _))

theorem natAbs_le_peak (signal : Signal samplesPerFrame) (k : Fin samplesPerFrame) :
    (signal k).natAbs ≤ peak signal :=
  Finset.le_sup (f := fun k => (signal k).natAbs) (Finset.mem_univ k)

section Extremes
variable {α : Type} (value : α → Int)

/-- A running minimum is below a bound if a value is. -/
theorem foldl_least_lt_iff (bound : Int) (list : List α) (start : Int) :
    list.foldl (fun least k => if value k < least then value k else least) start < bound ↔
      start < bound ∨ ∃ k ∈ list, value k < bound := by
  induction list generalizing start with
  | nil => exact ⟨.inl, fun h => h.resolve_right nofun⟩
  | cons first rest ih =>
    have step : (if value first < start then value first else start) < bound ↔
        start < bound ∨ value first < bound := by
      split <;> omega
    rw [foldl_cons, ih, step, or_assoc, exists_mem_cons_iff]

/-- A running maximum is above a bound if a value is. -/
theorem lt_foldl_most_iff (bound : Int) (list : List α) (start : Int) :
    bound < list.foldl (fun most k => if most < value k then value k else most) start ↔
      bound < start ∨ ∃ k ∈ list, bound < value k := by
  induction list generalizing start with
  | nil => exact ⟨.inl, fun h => h.resolve_right nofun⟩
  | cons first rest ih =>
    have step : bound < (if start < value first then value first else start) ↔
        bound < start ∨ bound < value first := by
      split <;> omega
    rw [foldl_cons, ih, step, or_assoc, exists_mem_cons_iff]

end Extremes

section
variable (signal : Signal samplesPerFrame)
include signal

theorem mixBufMin_lt_iff (bound : Int) :
    mixBufMin signal < bound ↔ 0 < bound ∨ ∃ k, signal k < bound := by
  have least := foldl_least_lt_iff signal bound (List.finRange samplesPerFrame) 0
  exact least.trans (or_congr_right (exists_congr fun k => and_iff_right (mem_finRange k)))

theorem lt_mixBufMax_iff (bound : Int) :
    bound < mixBufMax signal ↔ bound < 0 ∨ ∃ k, bound < signal k := by
  have most := lt_foldl_most_iff signal bound (List.finRange samplesPerFrame) 0
  exact most.trans (or_congr_right (exists_congr fun k => and_iff_right (mem_finRange k)))

/-- The mixer adjusts a mix exactly if a sum is out of range. -/
theorem adjusts_iff :
    (mixBufMin signal < minLevel ∨ maxLevel < mixBufMax signal) ↔ ¬∀ k, InRange (signal k) := by
  rw [mixBufMin_lt_iff, lt_mixBufMax_iff]
  constructor
  · rintro ((absurdity | ⟨k, low⟩) | (absurdity | ⟨k, high⟩)) within
    · exact absurd absurdity (by decide)
    · have range := within k
      unfold InRange at range
      omega
    · exact absurd absurdity (by decide)
    · have range := within k
      unfold InRange at range
      omega
  · intro beyond
    have ⟨k, out⟩ := not_forall.mp beyond
    unfold InRange at out
    by_cases low : signal k < minLevel
    · exact .inl (.inr ⟨k, low⟩)
    · exact .inr (.inr ⟨k, by omega⟩)

/-- The larger one of the extremes is the largest magnitude. -/
theorem peak_eq : (peak signal : Int) = max (mixBufMax signal) (-mixBufMin signal) := by
  apply Int.le_antisymm
  · have bound : peak signal ≤ (max (mixBufMax signal) (-mixBufMin signal)).toNat := by
      apply Finset.sup_le
      intro k _
      have most := mt (lt_mixBufMax_iff signal (mixBufMax signal)).mpr (Int.lt_irrefl _)
      have least := mt (mixBufMin_lt_iff signal (mixBufMin signal)).mpr (Int.lt_irrefl _)
      have high : ¬mixBufMax signal < signal k := fun above => most (.inr ⟨k, above⟩)
      have low : ¬signal k < mixBufMin signal := fun below => least (.inr ⟨k, below⟩)
      omega
    have most := mt (lt_mixBufMax_iff signal (mixBufMax signal)).mpr (Int.lt_irrefl _)
    have positive : ¬mixBufMax signal < 0 := fun negative => most (.inl negative)
    omega
  · have most : ¬(peak signal : Int) < mixBufMax signal := by
      rw [lt_mixBufMax_iff]
      rintro (negative | ⟨k, above⟩)
      · omega
      · have within := natAbs_le_peak signal k
        omega
    have least : ¬mixBufMin signal < -(peak signal : Int) := by
      rw [mixBufMin_lt_iff]
      rintro (positive | ⟨k, below⟩)
      · omega
      · have within := natAbs_le_peak signal k
        omega
    omega

end

/-- The factor of a signal out of range brings it into the range. -/
theorem mul_peakFactor_le {signal : Signal samplesPerFrame} (beyond : ¬∀ k, InRange (signal k))
    (k : Fin samplesPerFrame) : (signal k).natAbs * peakFactor signal ≤ maxLevel * 128 := by
  have magnitude := natAbs_le_peak signal k
  have nonneg : 0 ≤ maxLevel * 128 / (peak signal : Int) :=
    Int.ediv_nonneg (by decide) (Int.natCast_nonneg _)
  unfold peakFactor
  rw [if_neg beyond]
  by_cases silent : peak signal = 0
  · have zero : (signal k).natAbs = 0 := by omega
    rw [zero, silent]
    decide
  calc ((signal k).natAbs : Int) * (maxLevel * 128 / peak signal)
      ≤ peak signal * (maxLevel * 128 / peak signal) :=
        Int.mul_le_mul_of_nonneg_right (Int.ofNat_le.mpr magnitude) nonneg
    _ = maxLevel * 128 / peak signal * peak signal := Int.mul_comm _ _
    _ ≤ maxLevel * 128 := Int.ediv_mul_le _ (by omega)

/-- A factor is from 0 to 128, and 128 only for a signal in range. -/
theorem peakFactor_bounds (signal : Signal samplesPerFrame) :
    0 ≤ peakFactor signal ∧ peakFactor signal ≤ normalLevel ∧
      (peakFactor signal = normalLevel → ∀ k, InRange (signal k)) := by
  unfold peakFactor
  by_cases within : ∀ k, InRange (signal k)
  · rw [if_pos within]
    exact ⟨by decide, by decide, fun _ => within⟩
  · rw [if_neg within]
    have ⟨k, out⟩ := not_forall.mp within
    have loud : 2 ^ 15 ≤ peak signal := by
      have magnitude := natAbs_le_peak signal k
      unfold InRange minLevel maxLevel at out
      omega
    have nonneg : 0 ≤ maxLevel * 128 / (peak signal : Int) :=
      Int.ediv_nonneg (by decide) (Int.natCast_nonneg _)
    have below : maxLevel * 128 / (peak signal : Int) < normalLevel := by
      apply Int.ediv_lt_of_lt_mul (by omega)
      unfold maxLevel normalLevel
      omega
    exact ⟨nonneg, Int.le_of_lt below, fun full => absurd full (Int.ne_of_lt below)⟩

/-! ## Sums -/

/-- A bound of a running minimum bounds all values. -/
theorem le_foldl_min_iff {α : Type} (value : α → Int) (bound : Int) (list : List α) (start : Int) :
    bound ≤ list.foldl (fun least element => min least (value element)) start ↔
      bound ≤ start ∧ ∀ element ∈ list, bound ≤ value element := by
  induction list generalizing start with
  | nil => exact ⟨fun h => ⟨h, nofun⟩, And.left⟩
  | cons first rest ih =>
    rw [foldl_cons, ih, le_min_iff, and_assoc, forall_mem_cons]

/-- The last running sum is the sum of all signals. -/
theorem sum_mem_runningSums {sources : List (Signal samplesPerFrame)} (some : sources ≠ [])
    (start : Signal samplesPerFrame) : start + sources.sum ∈ runningSums start sources := by
  induction sources generalizing start with
  | nil => contradiction
  | cons signal rest ih =>
    by_cases last : rest = []
    · subst last
      rw [sum_cons, sum_nil, add_zero]
      exact mem_cons_self
    · rw [sum_cons, ← add_assoc]
      exact mem_cons_of_mem _ (ih last _)

theorem factor_nonneg (sources : List (Signal samplesPerFrame)) : 0 ≤ factor sources := by
  apply (le_foldl_min_iff peakFactor 0 _ _).mpr
  exact ⟨by decide, fun sums _ => (peakFactor_bounds sums).1⟩

theorem factor_le (sources : List (Signal samplesPerFrame)) : factor sources ≤ normalLevel :=
  ((le_foldl_min_iff peakFactor _ _ _).mp (Int.le_refl _)).1

theorem factor_le_of_mem {sources : List (Signal samplesPerFrame)}
    {sums : Signal samplesPerFrame} (member : sums ∈ runningSums 0 sources) :
    factor sources ≤ peakFactor sums :=
  ((le_foldl_min_iff peakFactor _ _ _).mp (Int.le_refl _)).2 sums member

/-- The factor is 128 exactly if no running sum is out of range. -/
theorem factor_eq_iff (sources : List (Signal samplesPerFrame)) :
    factor sources = normalLevel ↔ ∀ sums ∈ runningSums 0 sources, ∀ k, InRange (sums k) := by
  constructor
  · intro full sums member
    have most := factor_le_of_mem member
    have bounds := peakFactor_bounds sums
    exact bounds.2.2 (by omega)
  · intro within
    apply Int.le_antisymm (factor_le sources)
    apply (le_foldl_min_iff peakFactor _ _ _).mpr
    refine ⟨Int.le_refl _, ?_⟩
    intro sums member
    exact Int.le_of_eq (if_pos (within sums member)).symm

/-- A sum out of range is brought into it by the factor. -/
theorem sum_mul_factor_le {sources : List (Signal samplesPerFrame)} {k : Fin samplesPerFrame}
    (beyond : ¬InRange (sources.sum k)) :
    (sources.sum k).natAbs * factor sources ≤ maxLevel * 128 := by
  have some : sources ≠ [] := by
    rintro rfl
    exact beyond (by decide : InRange 0)
  have member := sum_mem_runningSums some 0
  rw [zero_add] at member
  calc ((sources.sum k).natAbs : Int) * factor sources
      ≤ (sources.sum k).natAbs * peakFactor sources.sum :=
        Int.mul_le_mul_of_nonneg_left (factor_le_of_mem member) (Int.natCast_nonneg _)
    _ ≤ maxLevel * 128 := mul_peakFactor_le (fun within => beyond (within k)) k

/-- At the full factor the sum is in range. -/
theorem sum_inRange {sources : List (Signal samplesPerFrame)}
    (full : factor sources = normalLevel) (k : Fin samplesPerFrame) : InRange (sources.sum k) := by
  by_cases none : sources = []
  · subst none
    exact (by decide : InRange 0)
  · have member := sum_mem_runningSums none 0
    rw [zero_add] at member
    exact (factor_eq_iff sources).mp full _ member k

section
variable (sources : List (Signal samplesPerFrame)) (k : Fin samplesPerFrame)
include sources k

/-- The factor and the sum have a product of bounded magnitude. -/
theorem sum_mul_factor_bound : (sources.sum k).natAbs * factor sources ≤ 2 ^ 15 * 128 := by
  by_cases within : InRange (sources.sum k)
  · unfold InRange minLevel maxLevel at within
    have high := factor_le sources
    calc ((sources.sum k).natAbs : Int) * factor sources
        ≤ (sources.sum k).natAbs * normalLevel :=
          Int.mul_le_mul_of_nonneg_left high (Int.natCast_nonneg _)
      _ ≤ 2 ^ 15 * 128 := by
          unfold normalLevel
          omega
  · exact Int.le_trans (sum_mul_factor_le within) (by decide)

/-- The factor alone clips nothing. -/
theorem sum_mul_factor_inRange : InRange (sources.sum k * factor sources / 128) := by
  by_cases full : factor sources = normalLevel
  · rw [full]
    have unchanged : sources.sum k * normalLevel / 128 = sources.sum k :=
      Int.mul_ediv_cancel _ (by decide)
    rw [unchanged]
    exact sum_inRange full k
  have low := factor_nonneg sources
  have bound : ((sources.sum k * factor sources).natAbs : Int) ≤ maxLevel * 128 := by
    rw [Int.natAbs_mul, Int.natCast_mul, Int.natAbs_of_nonneg low]
    by_cases within : InRange (sources.sum k)
    · have high : factor sources ≤ 127 := by
        have most := factor_le sources
        unfold normalLevel at most full
        omega
      unfold InRange minLevel maxLevel at within
      calc ((sources.sum k).natAbs : Int) * factor sources
          ≤ (sources.sum k).natAbs * 127 :=
            Int.mul_le_mul_of_nonneg_left high (Int.natCast_nonneg _)
        _ ≤ maxLevel * 128 := by
            unfold maxLevel
            omega
    · exact sum_mul_factor_le within
  unfold maxLevel at bound
  unfold InRange minLevel maxLevel
  omega

end

/-! ## Mixing -/

/-- The signal of a frame. -/
def signalOf (frame : Frame samplesPerFrame) : Signal samplesPerFrame := fun k => (frame k).toInt

theorem signalOf_inRange (frame : Frame samplesPerFrame) (k : Fin samplesPerFrame) :
    InRange (signalOf frame k) := by
  have low := (frame k).le_toInt
  have high := (frame k).toInt_lt
  unfold InRange minLevel maxLevel signalOf
  omega

theorem i32_of_fits {value : Int} (fits : value.natAbs < 2 ^ 31) : i32 value = value := by
  rw [i32_eq, Int.bmod_def]
  split <;> omega

section
variable {mix : Mix samplesPerFrame} (adj : mix.mixAdj ≤ normalLevel)
include adj

/-- Mixing adds a frame, and keeps the smaller factor. -/
theorem mixSamples_eq {frame : Frame samplesPerFrame} (fits : Fits (mix.mixBuf + signalOf frame)) :
    mixSamples mix frame =
      { mixBuf := mix.mixBuf + signalOf frame
        mixAdj := min mix.mixAdj (peakFactor (mix.mixBuf + signalOf frame)) } := by
  have sums : (fun k => i32 (mix.mixBuf k + (frame k).toInt)) = mix.mixBuf + signalOf frame := by
    funext k
    exact i32_of_fits (fits k)
  unfold mixSamples
  dsimp only
  rw [sums]
  generalize mix.mixBuf + signalOf frame = signal at fits
  have larger := peak_eq signal
  by_cases within : ∀ k, InRange (signal k)
  · rw [if_neg (mt (adjusts_iff signal).mp (not_not_intro within)), peakFactor, if_pos within,
      min_eq_left adj]
  · have magnitude : peak signal < 2 ^ 31 := by
      apply (Finset.sup_lt_iff (by decide)).mpr
      exact fun k _ => fits k
    have least := mt (mixBufMin_lt_iff signal (mixBufMin signal)).mpr (Int.lt_irrefl _)
    have negated : i32 (-mixBufMin signal) = -mixBufMin signal := by
      apply i32_of_fits
      omega
    have loudest : (if mixBufMax signal < -mixBufMin signal then -mixBufMin signal
        else mixBufMax signal) = peak signal := by
      split <;> omega
    rw [if_pos ((adjusts_iff signal).mpr within), negated, loudest, peakFactor, if_neg within,
      Int.tdiv_eq_ediv_of_nonneg (by decide)]
    congr 1
    split <;> omega

/-- Mixing one frame after the other gives their sum, and the smallest factor on the way. -/
theorem foldl_mixSamples {frames : List (Frame samplesPerFrame)}
    (fits : ∀ sums ∈ runningSums mix.mixBuf (frames.map signalOf), Fits sums) :
    frames.foldl mixSamples mix =
      { mixBuf := mix.mixBuf + (frames.map signalOf).sum
        mixAdj := (runningSums mix.mixBuf (frames.map signalOf)).foldl
          (fun least sums => min least (peakFactor sums)) mix.mixAdj } := by
  induction frames generalizing mix with
  | nil =>
    rw [map_nil, sum_nil, add_zero]
    rfl
  | cons frame rest ih =>
    have first := mixSamples_eq adj (fits _ mem_cons_self)
    rw [foldl_cons, first, ih (Int.le_trans (min_le_left _ _) adj)
      fun sums member => fits sums (mem_cons_of_mem _ member)]
    rw [map_cons, sum_cons, ← add_assoc]
    rfl

end

/-! ## The conversion in place -/

variable {mixBuf : Signal samplesPerFrame}

/-- The conversion overwrites what it has read already. -/
theorem convertInPlace_apply (convert : Int → Sample) (count : Nat) (memory : Nat → Sample)
    (i : Nat) :
    convertInPlace convert count memory i =
      if i < count then convert (loadWord memory i) else memory i := by
  induction count generalizing i with
  | zero => rfl
  | succ count ih =>
    have step : convertInPlace convert (count + 1) memory =
        update (convertInPlace convert count memory) count
          (convert (loadWord (convertInPlace convert count memory) count)) := by
      unfold convertInPlace
      rw [range_succ, foldl_concat]
    have unread : loadWord (convertInPlace convert count memory) count = loadWord memory count := by
      unfold loadWord
      rw [ih, ih, if_neg (by omega), if_neg (by omega)]
    rw [step, unread]
    by_cases same : i = count
    · rw [same, update_self, if_pos (Nat.lt_succ_self count)]
    · rw [update_of_ne same, ih]
      by_cases before : i < count
      · rw [if_pos before, if_pos (by omega)]
      · rw [if_neg before, if_neg (by omega)]

/-- The word at an index of the mix buffer. -/
theorem loadWord_halves (fits : Fits mixBuf) (j : Fin samplesPerFrame) :
    loadWord (halves mixBuf) j = mixBuf j := by
  have magnitude := fits j
  have lower : halves mixBuf (2 * j) = Int16.ofInt (mixBuf j) := by
    unfold halves
    have index : 2 * (j : Nat) / 2 = j := by omega
    simp
  have upper : halves mixBuf (2 * j + 1) = Int16.ofInt (mixBuf j / 2 ^ 16) := by
    unfold halves
    have index : (2 * (j : Nat) + 1) / 2 = j := by omega
    rw [dif_pos (by omega), if_neg (by omega)]
    simp only [index]
  have low : (Int16.ofInt (mixBuf j)).toUInt16.toNat = (mixBuf j % 2 ^ 16).toNat :=
    BitVec.toNat_ofInt (mixBuf j)
  unfold loadWord
  rw [lower, upper, low, Int16.toInt_ofInt_of_le (by omega) (by omega)]
  omega

/-- `write_port` converts the mixed samples one by one. -/
theorem convertInPlace_halves (convert : Int → Sample) (fits : Fits mixBuf)
    (j : Fin samplesPerFrame) :
    convertInPlace convert samplesPerFrame (halves mixBuf) j = convert (mixBuf j) := by
  rw [convertInPlace_apply, if_pos j.isLt, loadWord_halves fits]

/-! ## The sources of a listener -/

/-- The frames that a slot adds to the mix of a listener. -/
def Tick.framesFrom (tick : Tick samplesPerFrame) (sink slot : Nat) :
    List (Frame samplesPerFrame) :=
  match tick.conf.ports slot, tick.frames slot with
  | some port, some frame =>
    if port.rxSetting = .disable then []
    else
      (port.listenerSlots.zipIdx.filter fun listener => listener.1 = sink).map fun listener =>
        adjustFrame (port.listenerAdjLevel listener.2) (adjustFrame (tick.rxAdjLevel slot) frame)
  | _, _ => []

/-- The frames that are added to the mix of a listener, in the order of their slots. -/
def Tick.framesTo (tick : Tick samplesPerFrame) (sink : Nat) : List (Frame samplesPerFrame) :=
  (List.range tick.conf.maxPorts).flatMap (tick.framesFrom sink)

section Listener
variable {tick : Tick samplesPerFrame} {sink : Nat} {listener : ConfPort}

section
variable (atSink : tick.conf.ports sink = some listener) (enabled : listener.txSetting = .enable)
include atSink enabled

section
variable (port : ConfPort) (pIn : Frame samplesPerFrame) (mixes : Nat → Mix samplesPerFrame)
include port pIn mixes

/-- A frame reaches the mix of the listener it goes to, and no other. -/
theorem addToListener_apply (target : Nat × Nat) :
    addToListener tick.conf port pIn mixes target sink =
      if target.1 = sink then
        addFrame listener.transmitterCnt (mixes sink)
          (adjustFrame (port.listenerAdjLevel target.2) pIn)
      else mixes sink := by
  have ⟨slot, index⟩ := target
  unfold addToListener
  by_cases same : slot = sink
  · subst same
    rw [atSink]
    dsimp only
    rw [if_neg (not_not_intro enabled), if_pos rfl, update_self]
  · rw [if_neg same]
    cases tick.conf.ports slot with
    | none => rfl
    | some other =>
      dsimp only
      split
      · rfl
      · rw [update_of_ne (Ne.symm same)]

/-- The loop over the listeners of a source. -/
theorem foldl_addToListener (targets : List (Nat × Nat)) :
    targets.foldl (addToListener tick.conf port pIn) mixes sink =
      ((targets.filter fun target => target.1 = sink).map fun target =>
        adjustFrame (port.listenerAdjLevel target.2) pIn).foldl
          (addFrame listener.transmitterCnt) (mixes sink) := by
  induction targets generalizing mixes with
  | nil => rfl
  | cons target rest ih =>
    rw [foldl_cons, ih, addToListener_apply atSink enabled]
    rw [filter_cons]
    by_cases same : target.1 = sink
    · rw [if_pos same, if_pos (decide_eq_true same), map_cons, foldl_cons]
    · rw [if_neg same, if_neg (by simpa using same)]

end

/-- A round of the second loop adds the frames of a slot. -/
theorem addSource_apply (mixes : Nat → Mix samplesPerFrame) (slot : Nat) :
    addSource tick mixes slot sink =
      (tick.framesFrom sink slot).foldl (addFrame listener.transmitterCnt) (mixes sink) := by
  unfold addSource Tick.framesFrom
  cases tick.conf.ports slot with
  | none => rfl
  | some port =>
    cases tick.frames slot with
    | none =>
      dsimp only
      split
      · rfl
      · split <;> rfl
    | some frame =>
      dsimp only
      by_cases disabled : port.rxSetting = .disable
      · rw [if_pos disabled, if_pos disabled]
        rfl
      · rw [if_neg disabled, if_neg disabled]
        by_cases unheard : port.listenerSlots.length = 0
        · rw [if_pos unheard, eq_nil_of_length_eq_zero unheard]
          rfl
        · rw [if_neg unheard, foldl_addToListener atSink enabled]

theorem foldl_addSource (mixes : Nat → Mix samplesPerFrame) (slots : List Nat) :
    slots.foldl (addSource tick) mixes sink =
      (slots.flatMap (tick.framesFrom sink)).foldl (addFrame listener.transmitterCnt)
        (mixes sink) := by
  induction slots generalizing mixes with
  | nil => rfl
  | cons slot rest ih =>
    rw [foldl_cons, ih, addSource_apply atSink enabled, flatMap_cons, foldl_append]

end

end Listener

/-- The loops visit all ports. -/
theorem visited_eq {conf : Conf} (linked : Linked conf) :
    visited conf =
      (List.range conf.maxPorts).filter fun slot => (conf.ports slot).isSome := by
  apply take_of_length_le
  have within : (((List.range conf.maxPorts).filter fun slot => (conf.ports slot).isSome).toFinset :
      Set Nat) ⊆ conf.occupied := by
    intro slot member
    exact (mem_filter.mp (mem_toFinset.mp member)).2
  have count := Set.ncard_le_ncard within linked.finite
  rw [Set.ncard_coe_finset,
    toFinset_card_of_nodup (nodup_range.filter _)] at count
  have ports := linked.portCount
  omega

theorem mem_visited {conf : Conf} (linked : Linked conf) {slot : Nat} {port : ConfPort}
    (inside : slot < conf.maxPorts) (atSlot : conf.ports slot = some port) :
    slot ∈ visited conf := by
  rw [visited_eq linked, mem_filter]
  exact ⟨mem_range.mpr inside, by rw [atSlot]; rfl⟩

section
variable (tick : Tick samplesPerFrame)
include tick

/-- Slots without a port add no frames. -/
theorem flatMap_visited (sink : Nat) :
    (visited tick.conf).flatMap (tick.framesFrom sink) = tick.framesTo sink := by
  rw [visited_eq tick.linked]
  unfold Tick.framesTo
  induction List.range tick.conf.maxPorts with
  | nil => rfl
  | cons slot rest ih =>
    rw [flatMap_cons, ← ih]
    cases port : tick.conf.ports slot with
    | none =>
      have silent : tick.framesFrom sink slot = [] := by
        unfold Tick.framesFrom
        rw [port]
      rw [filter_cons_of_neg (by rw [port]; exact Bool.false_ne_true), silent]
      rfl
    | some _ => rw [filter_cons_of_pos (by rw [port]; rfl), flatMap_cons]

/-- A slot adds no more than one frame to a listener. -/
theorem length_framesFrom (sink slot : Nat) :
    (tick.framesFrom sink slot).length ≤
      if sink ∈ tick.conf.listeners slot then 1 else 0 := by
  unfold Tick.framesFrom
  split
  · next port frame atSlot _ =>
    split
    · exact Nat.zero_le _
    · have once := tick.linked.nodup slot
      rw [listeners_of_some atSlot] at once ⊢
      have entries : (port.listenerSlots.zipIdx.filter fun listener => listener.1 = sink).length =
          port.listenerSlots.count sink := by
        calc (port.listenerSlots.zipIdx.filter fun listener => listener.1 = sink).length
            = port.listenerSlots.zipIdx.countP ((· == sink) ∘ Prod.fst) :=
              countP_eq_length_filter.symm
          _ = (port.listenerSlots.zipIdx.map Prod.fst).countP (· == sink) := countP_map.symm
          _ = port.listenerSlots.count sink := by rw [zipIdx_map_fst, List.count]
      rw [length_map, entries]
      split
      · next member => exact Nat.le_of_eq (count_eq_one_of_mem once member)
      · next absent => exact Nat.le_of_eq (count_eq_zero_of_not_mem absent)
  · exact Nat.zero_le _

/-- A listener gets no more frames than it has transmitters. -/
theorem length_framesTo (sink : Nat) :
    ((tick.framesTo sink).length : Int) ≤ tick.conf.transmitters sink := by
  have most : ∀ bound, ((List.range bound).flatMap (tick.framesFrom sink)).length ≤
      Adjacency.inDegree bound tick.conf.listeners sink := by
    intro bound
    induction bound with
    | zero => exact Nat.zero_le _
    | succ bound ih =>
      rw [range_succ, flatMap_append, length_append, Adjacency.inDegree_succ,
        flatMap_singleton]
      exact Nat.add_le_add ih (length_framesFrom tick sink bound)
  rw [tick.linked.transmitters sink]
  exact Int.ofNat_le.mpr (most tick.conf.maxPorts)

end

/-! ## Levels -/

/-- A sample at a level. -/
def leveled (level : Nat) (sample : Int) : Int := clip (sample * level / 128)

/-- The levels of a tick are from 0 to 255. -/
structure Tick.WithinLevels (tick : Tick samplesPerFrame) : Prop where
  rx : ∀ slot, tick.rxAdjLevel slot ≤ 255
  tx : ∀ slot, tick.txAdjLevel slot ≤ 255
  connection : ∀ slot port, tick.conf.ports slot = some port →
    ∀ index, index < port.listenerSlots.length → port.listenerAdjLevel index ≤ 255

/-- The signals of a slot for a listener, at the level of the port and at that of the connection. -/
def Tick.signalsFrom (tick : Tick samplesPerFrame) (sink slot : Nat) :
    List (Signal samplesPerFrame) :=
  match tick.conf.ports slot, tick.frames slot with
  | some port, some frame =>
    if port.rxSetting = .disable then []
    else
      (port.listenerSlots.zipIdx.filter fun listener => listener.1 = sink).map fun listener k =>
        leveled (port.listenerAdjLevel listener.2)
          (leveled (tick.rxAdjLevel slot) (frame k).toInt)
  | _, _ => []

/-- The sources of a listener. -/
def Tick.sources (tick : Tick samplesPerFrame) (sink : Nat) : List (Signal samplesPerFrame) :=
  (List.range tick.conf.maxPorts).flatMap (tick.signalsFrom sink)

theorem clip_inRange (value : Int) : InRange (clip value) := by
  unfold clip InRange minLevel maxLevel
  split
  · omega
  · split <;> omega

theorem clip_of_inRange {value : Int} (h : InRange value) : clip value = value := by
  unfold InRange at h
  unfold clip
  rw [if_neg (by omega), if_neg (by omega)]

theorem toInt_clip (value : Int) : (Int16.ofInt (clip value)).toInt = clip value := by
  have range := clip_inRange value
  unfold InRange minLevel maxLevel at range
  exact Int16.toInt_ofInt_of_le (by omega) (by omega)

/-- At the normal level a value is only clipped. -/
theorem mul_normalLevel_div (value : Int) : value * normalLevel / 128 = value :=
  Int.mul_ediv_cancel value (by decide)

/-- A product with a level fits an `int`. -/
theorem mul_fits {value level : Int} (range : value.natAbs ≤ 2 ^ 15) (low : level.natAbs ≤ 255) :
    (value * level).natAbs < 2 ^ 31 := by
  rw [Int.natAbs_mul]
  have product := Nat.mul_le_mul range low
  omega

/-- Levels up to 255 are applied exactly. -/
theorem signalOf_adjustFrame {level : Nat} (bound : level ≤ 255) (frame : Frame samplesPerFrame) :
    signalOf (adjustFrame level frame) = fun k => leveled level (signalOf frame k) := by
  funext k
  have range := signalOf_inRange frame k
  unfold adjustFrame leveled
  by_cases normal : (level : Int) = normalLevel
  · rw [if_neg (not_not_intro normal), normal, mul_normalLevel_div, clip_of_inRange range]
  · rw [if_pos normal]
    have product : i32 ((frame k).toInt * level) = signalOf frame k * level := by
      apply i32_of_fits
      unfold InRange minLevel maxLevel at range
      exact mul_fits (show (signalOf frame k).natAbs ≤ 2 ^ 15 by omega) (by omega)
    unfold signalOf at product ⊢
    dsimp only
    rw [product, toInt_clip]

/-- The frames of a slot have its signals. -/
theorem map_framesFrom {tick : Tick samplesPerFrame} (levels : tick.WithinLevels)
    (sink slot : Nat) : (tick.framesFrom sink slot).map signalOf = tick.signalsFrom sink slot := by
  unfold Tick.framesFrom Tick.signalsFrom
  split
  · next port frame atSlot _ =>
    split
    · rfl
    · rw [map_map]
      apply map_congr_left
      intro target member
      have inside : target.2 < port.listenerSlots.length := by
        have within := snd_lt_of_mem_zipIdx (mem_of_mem_filter member)
        omega
      have bound := levels.connection slot port atSlot target.2 inside
      rw [comp_apply, signalOf_adjustFrame bound, signalOf_adjustFrame (levels.rx slot)]
      rfl
  · rfl

theorem map_framesTo {tick : Tick samplesPerFrame} (levels : tick.WithinLevels) (sink : Nat) :
    (tick.framesTo sink).map signalOf = tick.sources sink := by
  unfold Tick.framesTo Tick.sources
  rw [map_flatMap]
  congr 1
  funext slot
  exact map_framesFrom levels sink slot

/-! ## The tick -/

section Tick
variable {tick : Tick samplesPerFrame} {sink : Nat} {listener : ConfPort}

/-- The transmitters of a listener. -/
theorem transmitters_of_some (atSink : tick.conf.ports sink = some listener) :
    tick.conf.transmitters sink = listener.transmitterCnt := by
  unfold Conf.transmitters
  rw [atSink]
  rfl

/-- The mix of a listener is that of its frames. -/
theorem mixed_eq_foldl (atSink : tick.conf.ports sink = some listener)
    (enabled : listener.txSetting = .enable) (heard : listener.transmitterCnt ≠ 0) :
    mixed tick sink =
      (tick.framesTo sink).foldl (addFrame listener.transmitterCnt)
        { mixBuf := fun _ => 0, mixAdj := normalLevel } := by
  have reset : resetMix tick.conf tick.mixes sink =
      { mixBuf := fun _ => 0, mixAdj := normalLevel } := by
    apply if_pos
    rw [transmitters_of_some atSink]
    exact heard
  unfold mixed
  rw [foldl_addSource atSink enabled, flatMap_visited, reset]

theorem addFrame_eq_mixSamples {transmitterCnt : Int} (several : 1 < transmitterCnt) :
    addFrame transmitterCnt =
      (mixSamples : Mix samplesPerFrame → Frame samplesPerFrame → Mix samplesPerFrame) := by
  funext mix frame
  exact if_pos several

/-- The mix of a listener: the sum of its sources, and the smallest factor of the running sums. -/
theorem mixed_apply (atSink : tick.conf.ports sink = some listener)
    (enabled : listener.txSetting = .enable) (heard : listener.transmitterCnt ≠ 0)
    (fits : ∀ sums ∈ runningSums 0 ((tick.framesTo sink).map signalOf), Fits sums) :
    mixed tick sink =
      { mixBuf := ((tick.framesTo sink).map signalOf).sum
        mixAdj := factor ((tick.framesTo sink).map signalOf) } := by
  have length := length_framesTo tick sink
  rw [transmitters_of_some atSink] at length
  rw [mixed_eq_foldl atSink enabled heard]
  by_cases several : 1 < listener.transmitterCnt
  · rw [addFrame_eq_mixSamples several, foldl_mixSamples (Int.le_refl _) fits]
    congr 1
    exact zero_add _
  · cases frames : tick.framesTo sink with
    | nil => rfl
    | cons frame rest =>
      rw [frames, length_cons] at length
      have only : rest = [] := eq_nil_of_length_eq_zero (by omega)
      subst only
      have alone : factor [signalOf frame] = normalLevel := by
        apply (factor_eq_iff _).mpr
        intro sums member k
        rw [mem_singleton.mp member, zero_add]
        exact signalOf_inRange frame k
      rw [map_singleton, alone, sum_singleton, foldl_cons, foldl_nil, addFrame,
        if_neg several]
      rfl

/-- What a listener is handed. -/
theorem mem_getFrame (inside : sink < tick.conf.maxPorts)
    (atSink : tick.conf.ports sink = some listener) (handed : Handed samplesPerFrame) :
    (sink, handed) ∈ getFrame tick ↔
      handed = writePort listener (tick.txAdjLevel sink) (mixed tick sink) := by
  unfold getFrame
  rw [mem_filterMap]
  constructor
  · rintro ⟨slot, _, found⟩
    have ⟨port, atSlot, pair⟩ := Option.map_eq_some_iff.mp found
    cases pair
    rw [atSink] at atSlot
    cases atSlot
    rfl
  · rintro rfl
    exact ⟨sink, mem_visited tick.linked inside atSink, by rw [atSink]; rfl⟩

end Tick

/-- The level of the samples that a listener is handed. -/
def Tick.gain (tick : Tick samplesPerFrame) (sink : Nat) : Int :=
  tick.txAdjLevel sink * factor (tick.sources sink) / 128

/-- A listener is handed the exact sum of its sources at its level, clipped: no running sum
overflows, and at the normal level nothing is clipped. -/
structure Saturates (tick : Tick samplesPerFrame) (sink : Nat) : Prop where
  sums : ∀ sums ∈ runningSums 0 (tick.sources sink), Fits sums
  handed : ∃ frame, (sink, Handed.audio frame) ∈ getFrame tick
  exact : ∀ frame, (sink, Handed.audio frame) ∈ getFrame tick → ∀ k : Fin samplesPerFrame,
    (frame k).toInt = clip ((tick.sources sink).sum k * tick.gain sink / 128)
  unclipped : (tick.txAdjLevel sink : Int) = normalLevel → ∀ k : Fin samplesPerFrame,
    InRange ((tick.sources sink).sum k * tick.gain sink / 128)

section Gain
variable {tick : Tick samplesPerFrame} {sink : Nat}

theorem gain_bounds (levels : tick.WithinLevels) :
    0 ≤ tick.gain sink ∧ tick.gain sink * 128 ≤ 255 * factor (tick.sources sink) ∧
      tick.gain sink ≤ 255 := by
  have level := levels.tx sink
  have low := factor_nonneg (tick.sources sink)
  have high := factor_le (tick.sources sink)
  have product : tick.txAdjLevel sink * factor (tick.sources sink) ≤
      255 * factor (tick.sources sink) := Int.mul_le_mul_of_nonneg_right (by omega) low
  have nonneg := Int.mul_nonneg (Int.natCast_nonneg (tick.txAdjLevel sink)) low
  unfold Tick.gain
  unfold normalLevel at high
  omega

/-- The sum at its level fits an `int`. -/
theorem sum_mul_gain_lt (levels : tick.WithinLevels) (k : Fin samplesPerFrame) :
    ((tick.sources sink).sum k * tick.gain sink).natAbs < 2 ^ 31 := by
  have ⟨nonneg, gain, _⟩ := @gain_bounds _ tick sink levels
  have sum := sum_mul_factor_bound (tick.sources sink) k
  have scaled : ((tick.sources sink).sum k).natAbs * (tick.gain sink * 128) ≤
      ((tick.sources sink).sum k).natAbs * (255 * factor (tick.sources sink)) :=
    Int.mul_le_mul_of_nonneg_left gain (Int.natCast_nonneg _)
  rw [← Int.mul_assoc, Int.mul_left_comm] at scaled
  have product : ((((tick.sources sink).sum k * tick.gain sink).natAbs : Nat) : Int) =
      ((tick.sources sink).sum k).natAbs * tick.gain sink := by
    rw [Int.natAbs_mul, Int.natCast_mul, Int.natAbs_of_nonneg nonneg]
  omega

/-- A sum out of range, at the normal level, is below twice the range. -/
theorem sum_lt_of_gain_eq (levels : tick.WithinLevels) (normal : tick.gain sink = normalLevel)
    (k : Fin samplesPerFrame) : ((tick.sources sink).sum k).natAbs < 2 ^ 16 - 1 := by
  have ⟨_, gain, _⟩ := @gain_bounds _ tick sink levels
  have sum := sum_mul_factor_bound (tick.sources sink) k
  rw [normal] at gain
  unfold normalLevel at gain
  have scaled : ((tick.sources sink).sum k).natAbs * 65 ≤
      ((tick.sources sink).sum k).natAbs * factor (tick.sources sink) :=
    Int.mul_le_mul_of_nonneg_left (by omega) (Int.natCast_nonneg _)
  omega

end Gain

/-- The conversion of a mixed sample is exact, unless a sample out of range has the normal level. -/
theorem toInt_convertSample_iff {gain sum : Int} (product : (sum * gain).natAbs < 2 ^ 31)
    (small : gain = normalLevel → sum.natAbs < 2 ^ 16 - 1) :
    (convertSample gain sum).toInt = clip (sum * gain / 128) ↔
      gain ≠ normalLevel ∨ InRange sum := by
  unfold convertSample
  by_cases normal : gain = normalLevel
  · have bound := small normal
    rw [if_neg (not_not_intro normal), normal, mul_normalLevel_div, Int16.toInt_ofInt,
      Int.bmod_def]
    unfold clip InRange minLevel maxLevel
    have size : ((Int16.size : Nat) : Int) = 65536 := rfl
    rw [size]
    omega
  · rw [if_pos normal, i32_of_fits product, toInt_clip]
    exact iff_of_true rfl (.inl normal)

/-- A port is handed its mixed samples at the level of the port and the factor of the mix. -/
theorem writePort_audio {listener : ConfPort} (enabled : listener.txSetting = .enable)
    (heard : listener.transmitterCnt ≠ 0) {txAdjLevel : Nat} (level : txAdjLevel ≤ 255)
    {mix : Mix samplesPerFrame} (nonneg : 0 ≤ mix.mixAdj) (adj : mix.mixAdj ≤ normalLevel)
    (fits : Fits mix.mixBuf) :
    writePort listener txAdjLevel mix =
      .audio fun k => convertSample (txAdjLevel * mix.mixAdj / 128) (mix.mixBuf k) := by
  have product : txAdjLevel * mix.mixAdj ≤ 255 * normalLevel := by
    calc (txAdjLevel : Int) * mix.mixAdj ≤ 255 * mix.mixAdj :=
          Int.mul_le_mul_of_nonneg_right (by omega) nonneg
      _ ≤ 255 * normalLevel := Int.mul_le_mul_of_nonneg_left adj (by decide)
  have positive := Int.mul_nonneg (Int.natCast_nonneg txAdjLevel) nonneg
  have wide : i32 (txAdjLevel * mix.mixAdj) = txAdjLevel * mix.mixAdj := by
    apply i32_of_fits
    unfold normalLevel at product
    omega
  unfold writePort
  rw [if_neg, if_neg (not_not_intro enabled)]
  swap
  · rw [enabled]
    exact fun h => h.elim nofun heard
  dsimp only
  rw [wide]
  congr 1
  funext k
  exact convertInPlace_halves _ fits k

/-- The sum fits an `int` if the running sums do. -/
theorem sum_fits {sources : List (Signal samplesPerFrame)}
    (fits : ∀ sums ∈ runningSums 0 sources, Fits sums) : Fits sources.sum := by
  by_cases none : sources = []
  · subst none
    exact fun _ => (by decide : (0 : Int).natAbs < 2 ^ 31)
  · have member := sum_mem_runningSums none 0
    rw [zero_add] at member
    exact fits _ member

/-- For every tick and every enabled port with transmitters, the mix saturates if and only if no
running sum overflows, and either the level of the port and the smallest factor do not make the
normal level or the sum of the sources is in range. -/
theorem getFrame_saturates_iff {tick : Tick samplesPerFrame} (levels : tick.WithinLevels)
    {sink : Nat} {listener : ConfPort} (inside : sink < tick.conf.maxPorts)
    (atSink : tick.conf.ports sink = some listener) (enabled : listener.txSetting = .enable)
    (heard : listener.transmitterCnt ≠ 0) :
    Saturates tick sink ↔
      (∀ sums ∈ runningSums 0 (tick.sources sink), Fits sums) ∧
        (tick.gain sink ≠ normalLevel ∨ ∀ k, InRange ((tick.sources sink).sum k)) := by
  have converted : (∀ sums ∈ runningSums 0 (tick.sources sink), Fits sums) →
      ∀ handed, (sink, handed) ∈ getFrame tick ↔
        handed = .audio fun k => convertSample (tick.gain sink) ((tick.sources sink).sum k) := by
    intro fits handed
    rw [mem_getFrame inside atSink handed]
    have mix := mixed_apply atSink enabled heard (by rwa [map_framesTo levels sink])
    rw [map_framesTo levels sink] at mix
    have audio := @writePort_audio _ listener enabled heard _ (levels.tx sink)
      (mixed tick sink) (by rw [mix]; exact factor_nonneg _) (by rw [mix]; exact factor_le _)
      (by rw [mix]; exact sum_fits fits)
    rw [audio, mix]
    rfl
  have samples : (∀ k : Fin samplesPerFrame,
      (convertSample (tick.gain sink) ((tick.sources sink).sum k)).toInt =
        clip ((tick.sources sink).sum k * tick.gain sink / 128)) ↔
      (tick.gain sink ≠ normalLevel ∨ ∀ k, InRange ((tick.sources sink).sum k)) := by
    rw [← forall_or_left]
    exact forall_congr' fun k => toInt_convertSample_iff (sum_mul_gain_lt levels k)
      fun normal => sum_lt_of_gain_eq levels normal k
  constructor
  · intro saturates
    have handed := converted saturates.sums
    refine ⟨saturates.sums, samples.mp ?_⟩
    exact saturates.exact _ ((handed _).mpr rfl)
  · rintro ⟨fits, condition⟩
    have handed := converted fits
    refine ⟨fits, ⟨_, (handed _).mpr rfl⟩, ?_, ?_⟩
    swap
    · intro normal k
      have gain : tick.gain sink = factor (tick.sources sink) := by
        unfold Tick.gain
        rw [normal, Int.mul_comm]
        exact mul_normalLevel_div _
      rw [gain]
      exact sum_mul_factor_inRange _ k
    intro frame member k
    cases (handed _).mp member
    exact samples.mpr condition k

/-! ## Two transmitters -/

/-- A bridge with the ports 1 and 2 connected to port 0. -/
def switchboard : Conf :=
  [Op.addPort ⟨8000, 1, 20000⟩, .addPort ⟨8000, 1, 20000⟩, .connect 1 0 0, .connect 2 0 0].foldl
    next telephone

/-- A tick of the bridge with one sample a frame. -/
def conversation (txAdjLevel : Nat) (first second : Int) : Tick 1 where
  conf := switchboard
  linked := foldl_next_linked createConf_telephone _
  rxAdjLevel _ := 128
  txAdjLevel _ := txAdjLevel
  frames slot := some fun _ => if slot = 1 then Int16.ofInt first else Int16.ofInt second
  mixes _ := { mixBuf := fun _ => 0, mixAdj := 128 }

theorem conversation_withinLevels {txAdjLevel : Nat} (level : txAdjLevel ≤ 255)
    (first second : Int) : (conversation txAdjLevel first second).WithinLevels where
  rx _ := (by decide : 128 ≤ 255)
  tx _ := level
  connection slot port atSlot index inside := by
    have ports : ∀ slot port, switchboard.ports slot = some port →
        port.listenerSlots.length ≤ 1 ∧ port.listenerAdjLevel 0 ≤ 255 := by
      intro slot port atSlot
      match slot with
      | 0 => cases atSlot; decide
      | 1 => cases atSlot; decide
      | 2 => cases atSlot; decide
      | slot + 3 => cases atSlot
    have ⟨single, bound⟩ := ports slot port atSlot
    have first : index = 0 := by omega
    rw [first]
    exact bound

/-- A conversation in range is mixed exactly at every level. -/
theorem getFrame_saturates_conversation : Saturates (conversation 200 3000 (-2000)) 0 := by
  have decided : (∀ sums ∈ runningSums 0 ((conversation 200 3000 (-2000)).sources 0), Fits sums) ∧
      ((conversation 200 3000 (-2000)).gain 0 ≠ normalLevel ∨
        ∀ k, InRange (((conversation 200 3000 (-2000)).sources 0).sum k)) := by
    decide +kernel
  exact (getFrame_saturates_iff (conversation_withinLevels (by decide) 3000 (-2000)) (by decide)
    rfl rfl (by decide)).mpr decided

/-- Two loud transmitters at level 200: the gain of 82 makes it the normal level, and the sum of
51000 is handed out as -14536. -/
theorem getFrame_wraps_conversation :
    (∃ frame : Frame 1, (0, Handed.audio frame) ∈ getFrame (conversation 200 30000 21000) ∧
      (frame 0).toInt = -14536) ∧
    (conversation 200 30000 21000).gain 0 = 128 ∧
    ((conversation 200 30000 21000).sources 0).sum 0 = 51000 ∧
    ¬Saturates (conversation 200 30000 21000) 0 := by
  have member : ∃ frame : Frame 1,
      (0, Handed.audio frame) ∈ getFrame (conversation 200 30000 21000) ∧
        (frame 0).toInt = -14536 := by
    refine ⟨_, mem_cons_self, ?_⟩
    decide +kernel
  have gain : (conversation 200 30000 21000).gain 0 = 128 := by decide +kernel
  have sum : ((conversation 200 30000 21000).sources 0).sum 0 = 51000 := by decide +kernel
  refine ⟨member, gain, sum, ?_⟩
  intro saturates
  have ⟨frame, handed, wrapped⟩ := member
  have exact := saturates.exact frame handed 0
  rw [wrapped, sum, gain] at exact
  exact absurd exact (by decide)

/-! ## Runs -/

/-- A call on a bridge, or the setting of a port. -/
inductive Call
  | op (op : Op)
  | configure (slot : Nat) (tx rx : Option PortOp)

/-- The bridge after a call. -/
def nextCall (conf : Conf) : Call → Conf
  | .op op => next conf op
  | .configure slot tx rx => configurePort conf slot tx rx

end Pjmedia.Conference.Mixer
