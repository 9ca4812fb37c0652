import Pjproject.Jbuf.Room

/-!
# The bounds of the adaptive levels

The effective level stays between zero and four fifths of the capacity, the prefetch between zero
and its maximum, and a frame that the progressive algorithm discards is in the window. What breaks
the bounds is a prefetch that is no `int`. A buffer with a capacity that is none never takes a
frame: `pjmedia_jbuf_put_frame3` removes frames from the empty list without an end, where the model
gives up after two rounds.
-/

namespace Pjmedia.JitterBuffer
open Pj

/-- The bound of the effective level: four fifths of the capacity. -/
def levelCap (jb : Jbuf) : Nat := jb.jbMaxCount * 4 / 5

/-- The levels and settings are in their ranges. -/
structure LevelRange (jb : Jbuf) : Prop where
  eff : 0 ≤ jb.jbEffLevel ∧ jb.jbEffLevel ≤ levelCap jb
  prefetch : 0 ≤ jb.jbPrefetch ∧ jb.jbPrefetch ≤ jb.jbMaxPrefetch
  settings : 0 ≤ jb.jbMinPrefetch ∧ jb.jbMinPrefetch ≤ jb.jbMaxPrefetch ∧
    jb.jbMaxPrefetch ≤ jb.jbMaxCount
  history : 0 ≤ jb.jbMaxHistLevel

/-- What all calls keep of the levels, as long as the numbers fit. -/
structure Leveled (jb : Jbuf) : Prop extends LevelRange jb where
  level : 0 ≤ jb.jbLevel
  /-- There is no history of a stable level before there is a level. -/
  fresh : jb.jbStatus = .initializing → jb.jbStableHist = 0

/-- The second buffer differs from the first one in nothing that the levels depend on. -/
structure SameLevels (jb jb' : Jbuf) : Prop where
  maxCount : jb'.jbMaxCount = jb.jbMaxCount
  minPrefetch : jb'.jbMinPrefetch = jb.jbMinPrefetch
  maxPrefetch : jb'.jbMaxPrefetch = jb.jbMaxPrefetch
  maxBurst : jb'.jbMaxBurst = jb.jbMaxBurst
  level : jb'.jbLevel = jb.jbLevel
  maxHistLevel : jb'.jbMaxHistLevel = jb.jbMaxHistLevel
  stableHist : jb'.jbStableHist = jb.jbStableHist
  lastOp : jb'.jbLastOp = jb.jbLastOp
  effLevel : jb'.jbEffLevel = jb.jbEffLevel
  prefetch : jb'.jbPrefetch = jb.jbPrefetch
  status : jb'.jbStatus = jb.jbStatus
  initCycleCnt : jb'.jbInitCycleCnt = jb.jbInitCycleCnt

theorem SameLevels.refl (jb : Jbuf) : SameLevels jb jb := by
  constructor <;> rfl

variable {jb' : Jbuf}

theorem SameLevels.trans {jb jb'' : Jbuf} (h : SameLevels jb jb') (h' : SameLevels jb' jb'') :
    SameLevels jb jb'' where
  maxCount := h'.maxCount.trans h.maxCount
  minPrefetch := h'.minPrefetch.trans h.minPrefetch
  maxPrefetch := h'.maxPrefetch.trans h.maxPrefetch
  maxBurst := h'.maxBurst.trans h.maxBurst
  level := h'.level.trans h.level
  maxHistLevel := h'.maxHistLevel.trans h.maxHistLevel
  stableHist := h'.stableHist.trans h.stableHist
  lastOp := h'.lastOp.trans h.lastOp
  effLevel := h'.effLevel.trans h.effLevel
  prefetch := h'.prefetch.trans h.prefetch
  status := h'.status.trans h.status
  initCycleCnt := h'.initCycleCnt.trans h.initCycleCnt

theorem LevelRange.same {jb : Jbuf} (h : LevelRange jb) (same : SameLevels jb jb') :
    LevelRange jb' := by
  constructor
  · rw [same.effLevel, levelCap, same.maxCount]
    exact h.eff
  · rw [same.prefetch, same.maxPrefetch]
    exact h.prefetch
  · rw [same.minPrefetch, same.maxPrefetch, same.maxCount]
    exact h.settings
  · rw [same.maxHistLevel]
    exact h.history

theorem Leveled.same {jb : Jbuf} (h : Leveled jb) (same : SameLevels jb jb') : Leveled jb' where
  toLevelRange := h.toLevelRange.same same
  level := by
    rw [same.level]
    exact h.level
  fresh := by
    rw [same.status, same.stableHist]
    exact h.fresh

/-- Storing a frame leaves the levels. -/
theorem SameLevels.store (jb : Jbuf) (frame : Frame) : SameLevels jb (jbufStore jb frame).1 := by
  have looped : ∀ fuel (put : Jbuf × Status), SameLevels jb put.1 →
      SameLevels jb (putWhileFull frame fuel put).1 := by
    intro fuel
    induction fuel with
    | zero => exact fun put same => same
    | succ fuel ih =>
      intro put same
      simp only [putWhileFull]
      split
      · exact ih _ (same.trans (by constructor <;> rfl))
      · exact same
  exact looped 2 (putAt jb frame) (by constructor <;> rfl)

theorem SameLevels.take (jb : Jbuf) (size : Option Nat) : SameLevels jb (jbufTake jb size).1 := by
  simp only [jbufTake]
  split
  · constructor <;> rfl
  · split <;> constructor <;> rfl

/-- The discard algorithms leave the levels. -/
theorem SameLevels.discardStatic (jb : Jbuf) : SameLevels jb (jbufDiscardStatic jb) := by
  simp only [jbufDiscardStatic]
  split
  · split <;> split <;> constructor <;> rfl
  · exact SameLevels.refl jb

theorem SameLevels.discardProgressive (jb : Jbuf) : SameLevels jb (jbufDiscardProgressive jb) := by
  simp only [jbufDiscardProgressive]
  split
  · exact SameLevels.refl jb
  · split
    · constructor <;> rfl
    · split <;> constructor <;> rfl

/-! ## The calculation -/

section
variable {jb : Jbuf} (h : LevelRange jb)
include h

theorem LevelRange.prefetchLowered : LevelRange (prefetchLowered jb) := by
  have ⟨low, _⟩ := h.eff
  have settings := h.settings
  unfold JitterBuffer.prefetchLowered
  split
  · have prefetch : 0 ≤ min (max jb.jbEffLevel jb.jbMinPrefetch) jb.jbMaxPrefetch ∧
        min (max jb.jbEffLevel jb.jbMinPrefetch) jb.jbMaxPrefetch ≤ jb.jbMaxPrefetch := by omega
    exact ⟨h.eff, prefetch, settings, h.history⟩
  · exact h

theorem LevelRange.prefetchRaised : LevelRange (prefetchRaised jb) := by
  have ⟨low, _⟩ := h.eff
  have settings := h.settings
  unfold JitterBuffer.prefetchRaised
  split
  · have prefetch : 0 ≤ max (min jb.jbEffLevel jb.jbMaxPrefetch) jb.jbMinPrefetch ∧
        max (min jb.jbEffLevel jb.jbMaxPrefetch) jb.jbMinPrefetch ≤ jb.jbMaxPrefetch := by omega
    exact ⟨h.eff, prefetch, settings, h.history⟩
  · exact h

/-- A level above the effective one raises it, as far as the capacity allows; one below it lowers
it, by a third of the difference to the highest level at most. -/
theorem LevelRange.calculateJitter (level : 0 ≤ jb.jbLevel ∨ jb.jbStableHist = 0)
    (fits : jb.jbEffLevel < jb.jbLevel → levelCap jb < 2 ^ 31) :
    LevelRange (jbufCalculateJitter jb) := by
  have ⟨low, high⟩ := h.eff
  have history : 0 ≤ max jb.jbMaxHistLevel jb.jbLevel := le_max_of_le_left h.history
  simp only [jbufCalculateJitter]
  by_cases falling : jb.jbLevel < jb.jbEffLevel
  · rw [if_pos falling]
    by_cases stable : stableHistoryLimit < jb.jbStableHist + 1
    · rw [if_pos stable]
      have positive : 0 < jb.jbEffLevel := by
        unfold stableHistoryLimit at stable
        omega
      obtain ⟨diff, third⟩ : ∃ diff : Int,
          max ((jb.jbEffLevel - max jb.jbMaxHistLevel jb.jbLevel).tdiv 3) 1 = diff := ⟨_, rfl⟩
      have smaller : 1 ≤ diff ∧ diff ≤ jb.jbEffLevel := by
        have most : (jb.jbEffLevel - max jb.jbMaxHistLevel jb.jbLevel).tdiv 3 ≤
            jb.jbEffLevel.tdiv 3 := Int.tdiv_le_tdiv (by decide) (by omega)
        rw [Int.tdiv_eq_ediv_of_nonneg low] at most
        omega
      rw [third]
      have lowered : LevelRange
          { jb with
            jbMaxHistLevel := max jb.jbMaxHistLevel jb.jbLevel
            jbStableHist := jb.jbStableHist + 1
            jbEffLevel := jb.jbEffLevel - diff } :=
        ⟨⟨by dsimp only; omega, by dsimp only [levelCap] at high ⊢; omega⟩, h.prefetch, h.settings,
          history⟩
      have updated := lowered.prefetchLowered
      exact ⟨updated.eff, updated.prefetch, updated.settings, Int.le_refl 0⟩
    · rw [if_neg stable]
      exact ⟨h.eff, h.prefetch, h.settings, history⟩
  · rw [if_neg falling]
    by_cases rising : jb.jbEffLevel < jb.jbLevel
    · rw [if_pos rising]
      have cap : i32 (jb.jbMaxCount * 4 / 5 : Nat) = levelCap jb := i32_natCast (fits rising)
      rw [cap]
      have raised : LevelRange
          { jb with
            jbMaxHistLevel := max jb.jbMaxHistLevel jb.jbLevel
            jbEffLevel := min (max jb.jbMaxHistLevel jb.jbLevel) (levelCap jb) } :=
        ⟨⟨by dsimp only; omega, Int.min_le_right _ _⟩, h.prefetch, h.settings, history⟩
      have updated := raised.prefetchRaised
      exact ⟨updated.eff, updated.prefetch, updated.settings, updated.history⟩
    · rw [if_neg rising]
      exact ⟨h.eff, h.prefetch, h.settings, history⟩

end

/-! ## The update -/

/-- A get in this state raises the effective level: it ends a burst of puts that is longer than the
level, and not longer than the longest that counts. -/
def RaisesLevel (jb : Jbuf) : Prop :=
  jb.jbLastOp ≠ .get ∧
    (jb.jbStatus = .processing ∧ jb.jbLevel ≤ jb.jbMaxBurst ∧ jb.jbEffLevel < jb.jbLevel ∨
      jb.jbStatus = .initializing ∧ initCycle ≤ jb.jbInitCycleCnt + 1 ∧
        jb.jbEffLevel < min jb.jbLevel jb.jbMaxBurst)

instance (jb : Jbuf) : Decidable (RaisesLevel jb) := by
  unfold RaisesLevel
  infer_instance

theorem RaisesLevel.same {jb : Jbuf} (same : SameLevels jb jb') :
    RaisesLevel jb' ↔ RaisesLevel jb := by
  simp only [RaisesLevel, same.lastOp, same.status, same.level, same.maxBurst, same.effLevel,
    same.initCycleCnt]

theorem jbufCalculateJitter_status (jb : Jbuf) :
    (jbufCalculateJitter jb).jbStatus = jb.jbStatus := by
  simp only [jbufCalculateJitter]
  split
  · split
    · simp only [prefetchLowered]
      split <;> rfl
    · rfl
  · split
    · simp only [prefetchRaised]
      split <;> rfl
    · rfl

/-- The two ways a switch of the operation goes on: without a level, or with the calculation. -/
theorem jbufSwitchOp_cases {jb : Jbuf} {oper : JbOp} (switched : jb.jbLastOp ≠ oper) :
    (∃ count : Nat, jb.jbStatus = .initializing ∧ ¬(initCycle ≤ count ∧ oper = .get) ∧
      count = jb.jbInitCycleCnt + 1 ∧
      jbufSwitchOp jb oper =
        { jb with jbLastOp := oper, jbInitCycleCnt := count, jbLevel := 0 }) ∨
    ∃ (level : Int) (count : Nat),
      (jb.jbStatus = .processing ∧ level = jb.jbLevel ∨
        jb.jbStatus = .initializing ∧ (initCycle ≤ jb.jbInitCycleCnt + 1 ∧ oper = .get) ∧
          level = min jb.jbLevel jb.jbMaxBurst) ∧
      jbufSwitchOp jb oper =
        { jbufBurst
            { jb with
              jbLastOp := oper, jbInitCycleCnt := count, jbLevel := level
              jbStatus := .processing } oper with
          jbLevel := 0 } := by
  simp only [jbufSwitchOp]
  rw [if_neg switched]
  unfold jbufInitCycle
  by_cases initializing : jb.jbStatus = .initializing
  · rw [if_pos initializing]
    by_cases done : initCycle ≤ jb.jbInitCycleCnt + 1 ∧ oper = .get
    · rw [if_pos done]
      have processing : JbStatus.processing ≠ .initializing := by decide
      exact .inr ⟨_, _, .inr ⟨initializing, done, rfl⟩, if_neg processing⟩
    · rw [if_neg done]
      exact .inl ⟨_, initializing, done, rfl, if_pos initializing⟩
  · have processing : jb.jbStatus = .processing := by
      cases status : jb.jbStatus with
      | initializing => exact absurd status initializing
      | processing => rfl
    rw [if_neg initializing, if_neg initializing]
    refine .inr ⟨jb.jbLevel, jb.jbInitCycleCnt, .inl ⟨processing, rfl⟩, ?_⟩
    rw [← processing]

/-- A switch of the operation keeps the levels in their ranges. -/
theorem Leveled.switchOp {jb : Jbuf} (h : Leveled jb) (oper : JbOp)
    (fits : oper = .get → RaisesLevel jb → levelCap jb < 2 ^ 31) :
    Leveled (jbufSwitchOp jb oper) := by
  by_cases switched : jb.jbLastOp = oper
  · simp only [jbufSwitchOp]
    rw [if_pos switched]
    exact h
  rcases jbufSwitchOp_cases switched with ⟨count, _, _, _, result⟩ | ⟨level, count, start, result⟩
  · rw [result]
    exact ⟨⟨h.eff, h.prefetch, h.settings, h.history⟩, Int.le_refl 0, h.fresh⟩
  · rw [result]
    unfold jbufBurst
    by_cases counts : oper = .get ∧ level ≤ jb.jbMaxBurst
    · rw [if_pos counts]
      obtain ⟨rfl, short⟩ := counts
      have calculated := @LevelRange.calculateJitter
        { jb with
          jbLastOp := .get, jbInitCycleCnt := count, jbLevel := level, jbStatus := .processing }
        ⟨h.eff, h.prefetch, h.settings, h.history⟩
        (by
          rcases start with ⟨_, rfl⟩ | ⟨initializing, _⟩
          · exact .inl h.level
          · exact .inr (h.fresh initializing))
        (by
          intro rising
          refine fits rfl ⟨switched, ?_⟩
          rcases start with ⟨processing, rfl⟩ | ⟨initializing, done, rfl⟩
          · exact .inl ⟨processing, short, rising⟩
          · exact .inr ⟨initializing, done.1, rising⟩)
      refine ⟨⟨calculated.eff, calculated.prefetch, calculated.settings, calculated.history⟩,
        Int.le_refl 0, ?_⟩
      intro initializing
      rw [jbufCalculateJitter_status] at initializing
      contradiction
    · rw [if_neg counts]
      exact ⟨⟨h.eff, h.prefetch, h.settings, h.history⟩, Int.le_refl 0, by simp⟩

theorem SameLevels.updated (jb : Jbuf) (oper : JbOp) :
    SameLevels (jbufSwitchOp jb oper) (jbufUpdate jb oper) := by
  simp only [jbufUpdate]
  split
  · cases (jbufSwitchOp jb oper).jbDiscardAlgo with
    | none => exact SameLevels.refl _
    | static => exact SameLevels.discardStatic _
    | progressive => exact SameLevels.discardProgressive _
  · exact SameLevels.refl _

theorem Leveled.update {jb : Jbuf} (h : Leveled jb) (oper : JbOp)
    (fits : oper = .get → RaisesLevel jb → levelCap jb < 2 ^ 31) : Leveled (jbufUpdate jb oper) :=
  (h.switchOp oper fits).same (SameLevels.updated jb oper)

/-! ## The frame discarded -/

/-- Where the put of a frame makes the progressive algorithm compute a distance, its divisor is at
least one, and a frame it discards is in the window, so that `jb_framelist_discard` accepts it. -/
def DiscardsInside (jb : Jbuf) (frame : Frame) : Prop :=
  let updated := putUpdated jb frame
  let seq := discardSeq (progressivePlan updated)
  (jbufStore jb frame).2 = .success → updated.jbStatus = .processing →
    updated.jbDiscardAlgo = .progressive →
    progressiveBurstLevel updated < jbFramelistEffSize updated.jbFramelist →
      1 ≤ jbFramelistEffSize updated.jbFramelist - progressiveBurstLevel updated ∧
      (ProgressiveDue updated →
        updated.jbFramelist.origin ≤ seq ∧
          seq < updated.jbFramelist.origin + updated.jbFramelist.size ∧
          (jbFramelistDiscard updated.jbFramelist seq).2 = .success)

/-- A list into which a frame was stored is not empty. -/
theorem Put.size_pos {fl fl' : JbFramelist} {distance : Nat} {slot : Slot}
    (put : Put fl fl' distance slot) : 0 < fl'.size := by
  have stored := put.stored
  rw [← fl'.length_window]
  generalize fl'.window = window at stored ⊢
  cases stored with
  | filled free =>
    have ⟨_, found, _⟩ := free
    have ⟨within, _⟩ := List.getElem?_eq_some_iff.mp found
    rw [List.length_set]
    exact Nat.zero_lt_of_lt within
  | appended =>
    rw [List.length_append]
    exact Nat.add_pos_right _ (Nat.zero_lt_one)

theorem putAt_size_pos {jb : Jbuf} (h : jb.jbFramelist.Shape) {frame : Frame}
    (stored : (putAt jb frame).2 = .success) : 0 < (putAt jb frame).1.jbFramelist.size := by
  have outcome : PutOutcome jb.jbFramelist frame.seq frame.payload
      (min frame.payload.length jb.jbFrameSize) frame.bitInfo frame.ts
      ((putAt jb frame).1.jbFramelist, (putAt jb frame).2) := jbFramelistPutAt_spec h ..
  rw [stored] at outcome
  generalize (putAt jb frame).1.jbFramelist = fl' at outcome ⊢
  cases outcome with
  | stored _ _ put => exact put.size_pos
  | storedFar _ _ _ put => exact put.size_pos

section
variable {frameSize maxCount : Nat} {jb : Jbuf} (h : Settled frameSize maxCount jb)
include h

theorem jbufStore_size_pos {frame : Frame} (stored : (jbufStore jb frame).2 = .success) :
    0 < (jbufStore jb frame).1.jbFramelist.size := by
  have looped : ∀ fuel (put : Jbuf × Status), Settled frameSize maxCount put.1 →
      (put.2 = .success → 0 < put.1.jbFramelist.size) →
      (putWhileFull frame fuel put).2 = .success →
      0 < (putWhileFull frame fuel put).1.jbFramelist.size := by
    intro fuel
    induction fuel with
    | zero => exact fun put _ sized => sized
    | succ fuel ih =>
      intro put settled sized
      simp only [putWhileFull]
      split
      · have room := settled.makeRoom frame
        exact ih _ (room.putAt frame) (putAt_size_pos room.shape)
      · exact sized
  exact looped 2 _ (h.putAt frame) (putAt_size_pos h.shape) stored

theorem Settled.discardsInside (frame : Frame) : DiscardsInside jb frame := by
  unfold DiscardsInside
  intro updated seq stored _ _ above
  refine ⟨by omega, ?_⟩
  intro due
  have some : 0 < updated.jbFramelist.size := by
    have same := (Retimed.switchOp (jbufCountPut (jbufStore jb frame).1
      (i32 (jbFramelistEffSize jb.jbFramelist))) .put).framelist
    change updated.jbFramelist = _ at same
    rw [same]
    exact jbufStore_size_pos h stored
  have inside : updated.jbFramelist.origin ≤ seq ∧
      seq < updated.jbFramelist.origin + updated.jbFramelist.size := by
    have ⟨_, _, reach⟩ := due
    have last : lastSeq updated =
        updated.jbFramelist.origin + updated.jbFramelist.size - 1 := rfl
    have number : seq = max ((progressivePlan updated).jbDiscardRef +
        (progressivePlan updated).jbDiscardDist) updated.jbFramelist.origin := rfl
    omega
  refine ⟨inside.1, inside.2, ?_⟩
  unfold jbFramelistDiscard
  rw [if_pos inside]

end

/-! ## Runs -/

/-- A natural number that is no `int` is read as a negative one. -/
theorem i32_neg {value : Nat} (wide : 2 ^ 31 ≤ value) (bound : value < 2 ^ 32) : i32 value < 0 := by
  rw [i32_eq, Int.bmod_def]
  split <;> omega

/-- The bounds of the levels, and that the next put discards inside the window. -/
structure LevelBounds (maxCount : Nat) (jb : Jbuf) : Prop where
  eff : 0 ≤ jb.jbEffLevel ∧ jb.jbEffLevel ≤ (4 * maxCount / 5 : Nat)
  prefetch : 0 ≤ jb.jbPrefetch ∧ jb.jbPrefetch ≤ jb.jbMaxPrefetch ∧ jb.jbMaxPrefetch ≤ maxCount
  discards : ∀ frame, DiscardsInside jb frame

/-- The prefetch that the call sets fits into an `int`. -/
def LevelsFit (jb : Jbuf) : Call → Prop
  | .setFixed prefetch => prefetch ≤ jb.jbMaxCount → prefetch < 2 ^ 31
  | .setAdaptive prefetch minPrefetch maxPrefetch =>
    minPrefetch ≤ maxPrefetch ∧ prefetch ≤ maxPrefetch ∧ maxPrefetch ≤ jb.jbMaxCount →
      maxPrefetch < 2 ^ 31
  | _ => True

instance (jb : Jbuf) (c : Call) : Decidable (LevelsFit jb c) :=
  match c with
  | .setFixed _ | .setAdaptive .. => by
    unfold LevelsFit
    infer_instance
  | .putFrame3 _ | .getFrame3 _ | .peekFrame _ | .removeFrame _ | .reset | .setPtime _
  | .setDiscard _ => instDecidableTrue

/-- A buffer that was never put into. -/
structure Unused (jb : Jbuf) : Prop where
  empty : jb.jbFramelist.size = 0
  lastOp : jb.jbLastOp ≠ .put
  status : jb.jbStatus = .initializing
  first : jb.jbLastOp = .init → jb.jbInitCycleCnt = 0

theorem Unused.same {jb : Jbuf} (h : Unused jb) (empty : jb'.jbFramelist.size = 0)
    (same : SameLevels jb jb') : Unused jb' where
  empty := empty
  lastOp := by
    rw [same.lastOp]
    exact h.lastOp
  status := same.status.trans h.status
  first := by
    rw [same.lastOp, same.initCycleCnt]
    exact h.first

/-- No burst was counted in an unused buffer. -/
theorem Unused.not_raises {jb : Jbuf} (h : Unused jb) : ¬RaisesLevel jb := by
  rintro ⟨notGet, ⟨processing, _⟩ | ⟨_, cycles, _⟩⟩
  · rw [h.status] at processing
    contradiction
  · have init : jb.jbLastOp = .init := by
      cases last : jb.jbLastOp with
      | init => rfl
      | put => exact absurd last h.lastOp
      | get => exact absurd last notGet
    rw [h.first init] at cycles
    contradiction

/-- An empty list stays as it is when frames are removed. -/
theorem jbFramelistRemoveHead_empty {fl : JbFramelist} (empty : fl.size = 0) (count : Nat) :
    jbFramelistRemoveHead fl count = (fl, 0) := by
  have none : (if fl.size < count then fl.size else count) = 0 := by
    split <;> omega
  simp [jbFramelistRemoveHead, none]

/-- An empty list of a capacity that is no `int` takes no frame. -/
theorem putAt_unused {jb : Jbuf} (empty : jb.jbFramelist.size = 0)
    (wide : i32 jb.jbFramelist.maxCount < 0) (frame : Frame) :
    (putAt jb frame).2 ≠ .success ∧ (putAt jb frame).1.jbFramelist.size = 0 := by
  unfold putAt jbFramelistPutAt
  split
  · exact ⟨nofun, empty⟩
  · have spec := rebase_spec jb.jbFramelist frame.seq
    cases found : rebase jb.jbFramelist frame.seq with
    | none => exact ⟨nofun, empty⟩
    | some rebased =>
      rw [found] at spec
      have ⟨fl, distance⟩ := rebased
      have listed : distance = 0 ∧ fl.size = 0 ∧ fl.maxCount = jb.jbFramelist.maxCount := by
        cases spec with
        | same some => exact absurd empty some
        | restarted some => exact absurd empty some
        | empty => exact ⟨rfl, empty, rfl⟩
        | emptied => exact ⟨rfl, rfl, rfl⟩
      obtain ⟨rfl, size, count⟩ := listed
      dsimp only
      rw [count, if_pos (Int.le_of_lt wide), if_neg (by decide)]
      exact ⟨nofun, size⟩

theorem Unused.store {frameSize maxCount : Nat} {jb : Jbuf} (h : Unused jb)
    (settled : Settled frameSize maxCount jb) (wide : i32 maxCount < 0) (frame : Frame) :
    (jbufStore jb frame).2 ≠ .success ∧ Unused (jbufStore jb frame).1 := by
  have put : ∀ jb : Jbuf, Settled frameSize maxCount jb → jb.jbFramelist.size = 0 →
      (putAt jb frame).2 ≠ .success ∧ (putAt jb frame).1.jbFramelist.size = 0 :=
    fun jb settled empty => putAt_unused empty (settled.listCount ▸ wide) frame
  have looped : ∀ fuel (put : Jbuf × Status), Settled frameSize maxCount put.1 →
      put.2 ≠ .success ∧ put.1.jbFramelist.size = 0 →
      (putWhileFull frame fuel put).2 ≠ .success ∧
        (putWhileFull frame fuel put).1.jbFramelist.size = 0 := by
    intro fuel
    induction fuel with
    | zero => exact fun _ _ refused => refused
    | succ fuel ih =>
      intro tried settled refused
      simp only [putWhileFull]
      split
      · have room := settled.makeRoom frame
        have empty : (makeRoom tried.1 frame).jbFramelist.size = 0 := by
          simp only [makeRoom, jbFramelistRemoveHead_empty refused.2]
          exact refused.2
        exact ih _ (room.putAt frame) (put _ room empty)
      · exact refused
  obtain ⟨refused, empty⟩ := looped 2 _ (settled.putAt frame) (put jb settled h.empty)
  exact ⟨refused, h.same empty (SameLevels.store jb frame)⟩

/-- What the calls keep: the sizes, the levels, and an unused buffer where the capacity is no
`int`. -/
structure LevelState (frameSize maxCount : Nat) (jb : Jbuf) : Prop where
  settled : Settled frameSize maxCount jb
  leveled : Leveled jb
  unused : 2 ^ 31 ≤ maxCount → Unused jb

section LevelState
variable {frameSize maxCount : Nat} {jb : Jbuf}

theorem LevelState.bounds (h : LevelState frameSize maxCount jb) : LevelBounds maxCount jb := by
  have eff := h.leveled.eff
  have settings := h.leveled.settings
  rw [levelCap, h.settled.bufferCount, Nat.mul_comm] at eff
  rw [h.settled.bufferCount] at settings
  have prefetch := h.leveled.prefetch
  exact ⟨eff, ⟨prefetch.1, prefetch.2, settings.2.2⟩, h.settled.discardsInside⟩

/-- A get counts on the levels as they are before it takes a frame. -/
theorem SameLevels.countGet (jb : Jbuf) (size : Option Nat) :
    SameLevels (jbufCountGet jb) (jbufCountGet (jbufTake jb size).1) :=
  have taken := SameLevels.take jb size
  ⟨taken.maxCount, taken.minPrefetch, taken.maxPrefetch, taken.maxBurst,
    congrArg (· + 1) taken.level, taken.maxHistLevel, taken.stableHist, taken.lastOp,
    taken.effLevel, taken.prefetch, taken.status, taken.initCycleCnt⟩

/-- A put counts at least one frame. -/
theorem Leveled.countPut (h : Leveled jb) (curSize : Int) : Leveled (jbufCountPut jb curSize) := by
  have level := h.level
  refine ⟨⟨h.eff, h.prefetch, h.settings, h.history⟩, ?_, h.fresh⟩
  simp only [jbufCountPut]
  split <;> omega

theorem Leveled.countGet (h : Leveled jb) : Leveled (jbufCountGet jb) := by
  have level : 0 ≤ jb.jbLevel + 1 := Int.add_nonneg h.level (by decide)
  exact ⟨⟨h.eff, h.prefetch, h.settings, h.history⟩, level, h.fresh⟩

/-- Settings that fit. -/
theorem Leveled.setPrefetch (h : Leveled jb) {prefetch minPrefetch maxPrefetch : Nat}
    (first : minPrefetch ≤ maxPrefetch) (second : prefetch ≤ maxPrefetch)
    (third : maxPrefetch ≤ jb.jbMaxCount) (fits : maxPrefetch < 2 ^ 31) :
    Leveled (setPrefetch jb (i32 prefetch) (i32 minPrefetch) (i32 maxPrefetch)) := by
  rw [i32_natCast fits, i32_natCast (Nat.lt_of_le_of_lt first fits),
    i32_natCast (Nat.lt_of_le_of_lt second fits)]
  have prefetches : (0 : Int) ≤ prefetch ∧ (prefetch : Int) ≤ maxPrefetch := by omega
  have settings : (0 : Int) ≤ minPrefetch ∧ (minPrefetch : Int) ≤ maxPrefetch ∧
      (maxPrefetch : Int) ≤ jb.jbMaxCount := by omega
  exact ⟨⟨h.eff, prefetches, settings, h.history⟩, h.level, h.fresh⟩

/-- The cap of the effective level is an `int`, where it matters. -/
theorem LevelState.cap (h : LevelState frameSize maxCount jb)
    (raises : RaisesLevel (jbufCountGet jb)) : levelCap jb < 2 ^ 31 := by
  by_cases wide : 2 ^ 31 ≤ maxCount
  · have unused := h.unused wide
    have counted : Unused (jbufCountGet jb) :=
      ⟨unused.empty, unused.lastOp, unused.status, unused.first⟩
    exact absurd raises counted.not_raises
  · rw [levelCap, h.settled.bufferCount]
    omega

variable {c : Call}

theorem Leveled.call (h : LevelState frameSize maxCount jb) (fits : LevelsFit jb c) :
    Leveled (call jb c) := by
  have leveled := h.leveled
  cases c with
  | putFrame3 frame =>
    have stored := leveled.same (SameLevels.store jb frame)
    simp only [JitterBuffer.call, jbufPutFrame3]
    split
    · exact (stored.countPut _).update .put (fun get => absurd get (by decide))
    · exact stored.same (by constructor <;> rfl)
  | getFrame3 size =>
    have counted := leveled.countGet.same (SameLevels.countGet jb size)
    refine counted.update .get fun _ raises => ?_
    rw [RaisesLevel.same (SameLevels.countGet jb size)] at raises
    rw [levelCap, (SameLevels.countGet jb size).maxCount]
    exact h.cap raises
  | peekFrame offset => exact leveled
  | removeFrame frameCnt => exact leveled.same (by constructor <;> rfl)
  | reset =>
    exact ⟨⟨leveled.eff, leveled.prefetch, leveled.settings, Int.le_refl 0⟩, Int.le_refl 0,
      fun _ => rfl⟩
  | setPtime ptime =>
    exact ⟨⟨leveled.eff, leveled.prefetch, leveled.settings, leveled.history⟩, leveled.level,
      leveled.fresh⟩
  | setFixed prefetch =>
    simp only [JitterBuffer.call, jbufSetFixed]
    split
    · exact leveled
    · next room =>
      have most := Nat.le_of_not_lt room
      have set := leveled.setPrefetch (Nat.le_refl prefetch) (Nat.le_refl prefetch) most (fits most)
      exact set.same (by constructor <;> rfl)
  | setAdaptive prefetch minPrefetch maxPrefetch =>
    simp only [JitterBuffer.call, jbufSetAdaptive]
    split
    · next ordered =>
      exact leveled.setPrefetch ordered.1 ordered.2.1 ordered.2.2 (fits ordered)
    · exact leveled
  | setDiscard algo => exact leveled.same (by constructor <;> rfl)

/-- Without a frame, gets do not end the initialization. -/
theorem Unused.getFrame3 (h : Unused jb) (size : Option Nat) :
    Unused (jbufGetFrame3 jb size).1 := by
  have taken : Unused (jbufTake jb size).1 := by
    refine h.same ?_ (SameLevels.take jb size)
    simp only [jbufTake, jbFramelistGet, h.empty]
    split <;> exact h.empty
  have counted : Unused (jbufCountGet (jbufTake jb size).1) :=
    ⟨taken.empty, taken.lastOp, taken.status, taken.first⟩
  show Unused (jbufUpdate (jbufCountGet (jbufTake jb size).1) .get)
  generalize jbufCountGet (jbufTake jb size).1 = jb at counted
  have switched : Unused (jbufSwitchOp jb .get) := by
    by_cases again : jb.jbLastOp = .get
    · simp only [jbufSwitchOp]
      rw [if_pos again]
      exact counted
    · have init : jb.jbLastOp = .init := by
        cases last : jb.jbLastOp with
        | init => rfl
        | put => exact absurd last counted.lastOp
        | get => exact absurd last again
      rcases jbufSwitchOp_cases again with ⟨_, _, _, _, result⟩ | ⟨_, _, start, _⟩
      · rw [result]
        exact ⟨counted.empty, by simp, counted.status, by simp⟩
      · rcases start with ⟨processing, _⟩ | ⟨_, ⟨cycles, _⟩, _⟩
        · rw [counted.status] at processing
          contradiction
        · rw [counted.first init] at cycles
          contradiction
  simp only [jbufUpdate]
  rw [if_neg (by rw [switched.status]; decide)]
  exact switched

section
variable (h : LevelState frameSize maxCount jb)
include h

theorem Unused.call (bound : maxCount < 2 ^ 32) (wide : 2 ^ 31 ≤ maxCount) (c : Call) :
    Unused (call jb c) := by
  have unused := h.unused wide
  cases c with
  | putFrame3 frame =>
    obtain ⟨refused, stored⟩ := unused.store h.settled (i32_neg wide bound) frame
    simp only [JitterBuffer.call, jbufPutFrame3]
    rw [if_neg refused]
    exact ⟨stored.empty, stored.lastOp, stored.status, stored.first⟩
  | getFrame3 size => exact unused.getFrame3 size
  | peekFrame offset => exact unused
  | removeFrame frameCnt =>
    refine unused.same ?_ (by constructor <;> rfl)
    simp only [JitterBuffer.call, jbufRemoveFrame, jbFramelistRemoveHead_empty unused.empty,
      removeMore, Nat.lt_irrefl, if_false]
    exact unused.empty
  | reset => exact ⟨rfl, (by decide : JbOp.init ≠ .put), rfl, fun _ => rfl⟩
  | setPtime ptime => exact ⟨unused.empty, unused.lastOp, unused.status, unused.first⟩
  | setFixed prefetch =>
    simp only [JitterBuffer.call, jbufSetFixed]
    split <;> exact ⟨unused.empty, unused.lastOp, unused.status, unused.first⟩
  | setAdaptive prefetch minPrefetch maxPrefetch =>
    simp only [JitterBuffer.call, jbufSetAdaptive]
    split <;> exact ⟨unused.empty, unused.lastOp, unused.status, unused.first⟩
  | setDiscard algo => exact unused.same unused.empty (by constructor <;> rfl)

theorem LevelState.call (bound : maxCount < 2 ^ 32) (fits : LevelsFit jb c) :
    LevelState frameSize maxCount (call jb c) :=
  ⟨h.settled.call c, Leveled.call h fits, fun wide => Unused.call h bound wide c⟩

/-- A call whose prefetch does not fit breaks a bound. -/
theorem LevelState.call_broken (bound : maxCount < 2 ^ 32) (wide : ¬LevelsFit jb c) :
    ¬LevelBounds maxCount (JitterBuffer.call jb c) := by
  intro bounds
  have count := h.settled.bufferCount
  cases c with
  | setFixed prefetch =>
    simp only [LevelsFit, not_forall, not_lt] at wide
    obtain ⟨most, wide⟩ := wide
    have negative := i32_neg wide (by omega)
    have prefetched : (JitterBuffer.call jb (.setFixed prefetch)).jbPrefetch = i32 prefetch := by
      simp only [JitterBuffer.call, jbufSetFixed]
      rw [if_neg (Nat.not_lt.mpr most)]
      rfl
    have low := bounds.prefetch.1
    omega
  | setAdaptive prefetch minPrefetch maxPrefetch =>
    simp only [LevelsFit, not_forall, not_lt] at wide
    obtain ⟨ordered, wide⟩ := wide
    have negative := i32_neg wide (by omega)
    have limit : (JitterBuffer.call jb
        (.setAdaptive prefetch minPrefetch maxPrefetch)).jbMaxPrefetch = i32 maxPrefetch := by
      simp only [JitterBuffer.call, jbufSetAdaptive]
      rw [if_pos ordered]
      rfl
    obtain ⟨low, high, _⟩ := bounds.prefetch
    omega
  | _ => exact wide trivial

end

end LevelState

theorem jbufCreate_levelState (memory : Nat → Slot) (frameSize ptime : Nat) {maxCount : Nat}
    (positive : 1 ≤ maxCount) (bound : maxCount < 2 ^ 32) :
    LevelState frameSize maxCount (jbufCreate memory frameSize ptime maxCount) := by
  have wrapped : u32 (maxCount * 4 : Nat) ≤ maxCount * 4 ∧ u32 (maxCount * 4 : Nat) < 2 ^ 32 := by
    rw [u32_eq]
    omega
  have limit : i32 (u32 (maxCount * 4 : Nat) / 5 : Nat) = (u32 (maxCount * 4 : Nat) / 5 : Nat) :=
    i32_natCast (by omega)
  have first : i32 (min defaultInitDelay (u32 (maxCount * 4 : Nat) / 5) : Nat) =
      (min defaultInitDelay (u32 (maxCount * 4 : Nat) / 5) : Nat) := i32_natCast (by omega)
  refine ⟨jbufCreate_settled memory frameSize ptime positive, ⟨⟨?_, ?_, ?_, ?_⟩, ?_, fun _ => rfl⟩,
    fun _ => ⟨rfl, nofun, rfl, fun _ => rfl⟩⟩
  · exact ⟨Int.le_refl 0, Int.natCast_nonneg _⟩
  · show 0 ≤ i32 _ ∧ i32 _ ≤ i32 _
    omega
  · show (0 : Int) ≤ 0 ∧ 0 ≤ i32 _ ∧ i32 _ ≤ (maxCount : Int)
    omega
  · exact Int.le_refl 0
  · exact Int.le_refl 0

/-- The bounds hold in every state of a run if and only if every prefetch that it sets fits into an
`int`. -/
theorem levelBounds_iff (memory : Nat → Slot) (frameSize ptime maxCount : Nat)
    (positive : 1 ≤ maxCount) (bound : maxCount < 2 ^ 32) (calls : List Call) :
    Run.Always call (LevelBounds maxCount) (jbufCreate memory frameSize ptime maxCount) calls ↔
      Run.Meets call LevelsFit (jbufCreate memory frameSize ptime maxCount) calls :=
  Run.always_iff (fun _ _ (h : LevelState frameSize maxCount _) fits => h.call bound fits)
    (fun _ h => h.bounds) (fun _ _ h wide => h.call_broken bound wide)
    (jbufCreate_levelState memory frameSize ptime positive bound)

/-- A fixed prefetch of `2 ^ 31` frames is negative. -/
theorem levelBounds_broken :
    let created := jbufCreate (fun _ => ⟨[], .missing, 0, 0, 0⟩) 1 20 (2 ^ 31)
    (jbufSetFixed created (2 ^ 31)).2 = .success ∧
      (jbufSetFixed created (2 ^ 31)).1.jbPrefetch = -2 ^ 31 ∧
      ¬Run.Always call (LevelBounds (2 ^ 31)) created [.setFixed (2 ^ 31)] := by
  intro created
  have negative : (jbufSetFixed created (2 ^ 31)).1.jbPrefetch = -2 ^ 31 := by decide +kernel
  refine ⟨by decide +kernel, negative, ?_⟩
  intro always
  have low := always.last.prefetch.1
  change 0 ≤ (jbufSetFixed created (2 ^ 31)).1.jbPrefetch at low
  contradiction

/-- Five frames, each followed by a get, in a buffer of fifty frames with a fixed prefetch. -/
theorem levelBounds_iff_fifty :
    Run.Always call (LevelBounds 50) (jbufCreate (fun _ => ⟨[], .missing, 0, 0, 0⟩) 1 20 50)
      (.setFixed 50 :: discardedFifthCalls) :=
  (levelBounds_iff (fun _ => ⟨[], .missing, 0, 0, 0⟩) 1 20 50 (by decide) (by decide)
    (.setFixed 50 :: discardedFifthCalls)).mpr (by decide +kernel)

end Pjmedia.JitterBuffer
