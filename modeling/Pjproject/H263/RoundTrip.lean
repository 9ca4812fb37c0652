import Mathlib.Data.List.TakeDrop
import Pjproject.H263.Packetizer
import Pjproject.Lib.Consecutive

/-!
# The round trip of an H.263 picture

The calls of the packetizer divide a picture into consecutive stretches. A payload carries its
stretch, with the mark of a synchronization point replaced by a flag of the header. It carries
nothing but the header when the mark is followed at once by the zero octets at which the payload
is cut, and the unpacketizer rejects such a payload.
-/

namespace Pjmedia.H263
open Option List Consecutive

theorem syncAt_drop (data : List UInt8) (offset p : Nat) :
    syncAt (data.drop offset) p = syncAt data (offset + p) := by
  simp only [syncAt, getElem?_drop, Nat.add_assoc]

variable {p : Nat} {data : List UInt8}

theorem syncAt_take {count : Nat} (inside : p + 1 < count) :
    syncAt (data.take count) p = syncAt data p := by
  simp [syncAt, inside, (by omega : p < count)]

/-- A synchronization point is two zero octets. -/
theorem eq_of_syncAt (h : syncAt data 0) : data = 0 :: 0 :: data.drop 2 := by
  match data, h with
  | [], h => cases h
  | [_], h => simp [syncAt] at h
  | _ :: _ :: _, h =>
    simp only [syncAt, getElem?_cons_zero, getElem?_cons_succ, Bool.and_eq_true,
      decide_eq_true_eq, Option.some.injEq] at h
    rw [h.1, h.2]
    rfl

/-! ## Where a payload is cut -/

variable {mtu : Nat}

theorem findSyncPointRevFrom_le (data : List UInt8) (p : Nat) (bound : p ≤ data.length) :
    findSyncPointRevFrom data p ≤ data.length := by
  induction p with
  | zero => exact Nat.le_refl _
  | succ p ih =>
    rw [findSyncPointRevFrom]
    split
    · omega
    · exact ih (by omega)

/-- The reversed search ends at the start if and only if the only synchronization point is there. -/
theorem findSyncPointRevFrom_eq_zero (bound : p < data.length) :
    findSyncPointRevFrom data p = 0 ↔
      0 < p ∧ syncAt data 0 ∧ ∀ i < p, 0 < i → syncAt data i = false := by
  induction p with
  | zero =>
    rw [findSyncPointRevFrom]
    omega
  | succ p ih =>
    rw [findSyncPointRevFrom]
    split
    · next mark =>
      constructor
      · rintro rfl
        exact ⟨by omega, mark, fun i below above => by omega⟩
      · intro only
        by_contra positive
        have unmarked := only.2.2 p (by omega) (by omega)
        rw [mark] at unmarked
        cases unmarked
    · next unmarked =>
      rw [ih (by omega)]
      constructor
      · intro only
        refine ⟨by omega, only.2.1, fun i below above => ?_⟩
        by_cases last : i = p
        · rw [last]
          exact Bool.not_eq_true _ ▸ unmarked
        · exact only.2.2 i (by omega) above
      · intro only
        have positive : 0 < p := by
          by_contra zero
          have start : p = 0 := by omega
          rw [start] at unmarked
          exact unmarked only.2.1
        exact ⟨positive, only.2.1, fun i below above => only.2.2 i (by omega) above⟩

/-- How many bytes a payload takes of what follows its header. -/
def bodyLength (mtu : Nat) (rest : List UInt8) : Nat :=
  if rest.length + 2 > mtu then findSyncPointRev (rest.take (mtu - 2)) else rest.length

theorem bodyLength_le (mtu : Nat) (rest : List UInt8) : bodyLength mtu rest ≤ rest.length := by
  have searched := findSyncPointRevFrom_le (rest.take (mtu - 2)) _ (Nat.sub_le _ 1)
  rw [length_take] at searched
  unfold bodyLength findSyncPointRev
  split
  · rw [length_take]
    omega
  · exact Nat.le_refl _

/-- A payload is not longer than the MTU. -/
theorem bodyLength_mtu (large : 5 ≤ mtu) (rest : List UInt8) :
    bodyLength mtu rest + 2 ≤ mtu := by
  have searched := findSyncPointRevFrom_le (rest.take (mtu - 2)) _ (Nat.sub_le _ 1)
  rw [length_take] at searched
  unfold bodyLength findSyncPointRev
  split
  · rw [length_take]
    omega
  · omega

/-- A payload is cut right behind its header. -/
theorem bodyLength_eq_zero (large : 5 ≤ mtu) {rest : List UInt8} (some : rest ≠ []) :
    bodyLength mtu rest = 0 ↔ mtu < rest.length + 2 ∧ syncAt rest 0 ∧
      ∀ i < mtu - 3, 0 < i → syncAt rest i = false := by
  have positive := length_pos_iff.mpr some
  unfold bodyLength
  split
  · next long =>
    have length : (rest.take (mtu - 2)).length = mtu - 2 := by
      rw [length_take]
      omega
    have same : ∀ i < mtu - 3, syncAt (rest.take (mtu - 2)) i = syncAt rest i :=
      fun i below => syncAt_take (by omega)
    rw [findSyncPointRev, findSyncPointRevFrom_eq_zero (by omega), length, same 0 (by omega)]
    constructor
    · intro only
      refine ⟨by omega, only.2.1, fun i below above => ?_⟩
      rw [← same i below]
      exact only.2.2 i (by omega) above
    · intro only
      refine ⟨by omega, only.2.1, fun i below above => ?_⟩
      rw [same i (by omega)]
      exact only.2.2 i (by omega) above
  · omega

/-! ## What a payload carries -/

variable {bits stream : List UInt8} {pos : Nat} {pktz : Packetizer}

/-- The header goes over the two octets at a position. -/
theorem drop_header (inside : p + 2 ≤ bits.length) (first second : UInt8) :
    ((bits.set p first).set (p + 1) second).drop p = first :: second :: bits.drop (p + 2) := by
  induction p generalizing bits with
  | zero =>
    match bits, inside with
    | _ :: _ :: _, _ => rfl
  | succ p ih =>
    cases bits with
    | nil => simp at inside
    | cons byte bits =>
      simp only [length_cons] at inside
      simpa using ih (by omega)

/-- The payload behind a header. -/
theorem takePayload_spec (pktz : Packetizer) {rest : List UInt8} {first second : UInt8}
    (header : bits.drop p = first :: second :: rest) :
    takePayload pktz bits p = {
      bits := bits
      payload := first :: second :: rest.take (bodyLength pktz.mtu rest)
      pos := p + 2 + bodyLength pktz.mtu rest } := by
  have length : bits.length - p = rest.length + 2 := by
    rw [← length_drop, header]
    rfl
  have behind : bits.drop (p + 2) = rest := by
    rw [← drop_drop, header]
    rfl
  have stop : (if bits.length - p > pktz.mtu then
      p + 2 + findSyncPointRev ((bits.drop (p + 2)).take (pktz.mtu - 2)) else bits.length) =
        p + 2 + bodyLength pktz.mtu rest := by
    rw [length, behind, bodyLength]
    split
    · rfl
    · omega
  have taken : p + 2 + bodyLength pktz.mtu rest - p = bodyLength pktz.mtu rest + 2 := by omega
  simp only [takePayload, stop, header, taken, take_succ_cons]

/-- A mark with more than the MTU from it on, directly behind which stand the last two zero octets
that a payload of this length could reach. -/
def MarkOnly (mtu : Nat) (rest : List UInt8) : Prop :=
  mtu < rest.length ∧ syncAt rest 0 ∧ syncAt rest 2 ∧
    ∀ i < mtu - 1, 2 < i → syncAt rest i = false

instance (mtu : Nat) (rest : List UInt8) : Decidable (MarkOnly mtu rest) :=
  inferInstanceAs (Decidable (_ ∧ _ ∧ _ ∧ _))

/-- The stretch of a picture that a call takes. -/
def Call.stretch (call : Call) (stream : List UInt8) : List UInt8 :=
  (stream.drop call.start).take (call.packet.pos - call.start)

/-- The payload of a call carries its stretch: with the mark at its start replaced by the flag, or
behind a plain header. -/
def Carries (mtu : Nat) (stream : List UInt8) (call : Call) : Prop :=
  ∃ body, if syncAt stream call.start ∧ call.start + 2 < stream.length then
      call.packet.payload = 0x04 :: 0 :: body ∧ call.stretch stream = 0 :: 0 :: body ∧
        (body = [] ↔ MarkOnly mtu (stream.drop call.start))
    else
      call.packet.payload = 0 :: 0 :: body ∧ call.stretch stream = body ∧ body ≠ []

/-- The bitstream of the sender in the course of the calls: what is ahead is as it was. -/
structure Ahead (stream bits : List UInt8) (pos : Nat) : Prop where
  length : bits.length = stream.length
  same : bits.drop pos = stream.drop pos
  header : pos < 2 → pos = 0 ∧ syncAt stream 0 ∧ 2 < stream.length

/-- A mark that a call starts at, and what is behind it. -/
theorem bodyLength_markOnly (large : 5 ≤ mtu) {rest : List UInt8} (long : 2 < rest.length)
    (mark : syncAt rest 0) :
    bodyLength mtu (rest.drop 2) = 0 ↔ MarkOnly mtu rest := by
  have length : (rest.drop 2).length = rest.length - 2 := length_drop
  have some : rest.drop 2 ≠ [] := ne_nil_of_length_pos (by omega)
  rw [bodyLength_eq_zero large some, syncAt_drop, length, MarkOnly]
  constructor
  · rintro ⟨cut, next, last⟩
    refine ⟨by omega, mark, next, fun i below above => ?_⟩
    have behind := last (i - 2) (by omega) (by omega)
    rwa [syncAt_drop, Nat.add_sub_cancel' (by omega)] at behind
  · rintro ⟨cut, -, next, last⟩
    refine ⟨by omega, next, fun i below above => ?_⟩
    rw [syncAt_drop]
    exact last (2 + i) (by omega) (by omega)

/-- What a call of the packetizer does. -/
structure Packetizes (pktz : Packetizer) (stream bits : List UInt8) (pos : Nat) (packet : Packet) :
    Prop where
  call : pjmediaH263Packetize pktz bits pos = some packet
  ahead : Ahead stream packet.bits packet.pos
  progress : pos < packet.pos
  inside : packet.pos ≤ stream.length
  size : packet.payload.length ≤ pktz.mtu
  carries : Carries pktz.mtu stream ⟨pos, packet⟩

/-- A call at a synchronization point. -/
theorem Ahead.callMark (h : Ahead stream bits pos) (large : 5 ≤ pktz.mtu)
    (mark : syncAt stream pos) (long : pos + 2 < stream.length) :
    ∃ packet, Packetizes pktz stream bits pos packet := by
  have length := h.length
  have marked : syncAt bits pos := by
    have same := syncAt_drop bits pos 0
    rw [h.same, syncAt_drop] at same
    exact same.symm.trans mark
  have here : stream.drop pos = 0 :: 0 :: stream.drop (pos + 2) := by
    have start : stream.drop pos = 0 :: 0 :: (stream.drop pos).drop 2 :=
      eq_of_syncAt (by rwa [syncAt_drop])
    rwa [drop_drop] at start
  have behind : bits.drop (pos + 2) = stream.drop (pos + 2) := by
    rw [← drop_drop, h.same, drop_drop]
  have header : ((bits.set pos 0x04).set (pos + 1) 0).drop pos =
      0x04 :: 0 :: stream.drop (pos + 2) := by
    rw [drop_header (by omega), behind]
  have call : pjmediaH263Packetize pktz bits pos =
      some (takePayload pktz ((bits.set pos 0x04).set (pos + 1) 0) pos) :=
    if_pos ⟨by omega, marked⟩
  have cut := bodyLength_le pktz.mtu (stream.drop (pos + 2))
  have size := bodyLength_mtu large (stream.drop (pos + 2))
  have only : bodyLength pktz.mtu ((stream.drop pos).drop 2) = 0 ↔
      MarkOnly pktz.mtu (stream.drop pos) :=
    bodyLength_markOnly large (by rw [length_drop]; omega) (by rwa [syncAt_drop])
  rw [drop_drop] at only
  rw [takePayload_spec pktz header] at call
  generalize bodyLength pktz.mtu (stream.drop (pos + 2)) = n at call cut size only
  rw [length_drop] at cut
  have next : ((bits.set pos 0x04).set (pos + 1) 0).drop (pos + 2 + n) =
      stream.drop (pos + 2 + n) := by
    rw [Nat.add_assoc, ← drop_drop, header, ← drop_drop]
    change (stream.drop (pos + 2)).drop n = _
    rw [drop_drop, Nat.add_assoc]
  have stretch : (stream.drop pos).take (pos + 2 + n - pos) =
      0 :: 0 :: (stream.drop (pos + 2)).take n := by
    have taken : pos + 2 + n - pos = n + 2 := by omega
    rw [here, taken]
    rfl
  have empty : (stream.drop (pos + 2)).take n = [] ↔ MarkOnly pktz.mtu (stream.drop pos) := by
    rw [← only, ← length_eq_zero_iff, length_take, length_drop]
    omega
  constructor
  constructor
  · exact call
  · exact ⟨by simp only [length_set, length], next, fun low => absurd low (by dsimp only; omega)⟩
  · dsimp only
    omega
  · dsimp only
    omega
  · simp only [length_cons, length_take]
    omega
  · exact ⟨_, by rw [if_pos ⟨mark, long⟩]; exact ⟨rfl, stretch, empty⟩⟩

/-- A call elsewhere. -/
theorem Ahead.callPlain (h : Ahead stream bits pos) (large : 5 ≤ pktz.mtu)
    (more : pos < stream.length) (plain : ¬(syncAt stream pos ∧ pos + 2 < stream.length)) :
    ∃ packet, Packetizes pktz stream bits pos packet := by
  have length := h.length
  have room : 2 ≤ pos := by
    by_contra low
    have start := h.header (by omega)
    rw [start.1] at plain
    exact plain ⟨start.2.1, start.2.2⟩
  have unmarked : ¬(bits.length - pos > 2 ∧ syncAt bits pos) := by
    rintro ⟨long, marked⟩
    have same := syncAt_drop bits pos 0
    rw [h.same, syncAt_drop] at same
    exact plain ⟨same.trans marked, by omega⟩
  have header : ((bits.set (pos - 2) 0).set (pos - 2 + 1) 0).drop (pos - 2) =
      0 :: 0 :: stream.drop pos := by
    have back : pos - 2 + 2 = pos := by omega
    rw [drop_header (by omega), back, h.same]
  have call : pjmediaH263Packetize pktz bits pos =
      some (takePayload pktz ((bits.set (pos - 2) 0).set (pos - 2 + 1) 0) (pos - 2)) := by
    rw [pjmediaH263Packetize, if_neg unmarked, if_neg (by omega)]
  have some : stream.drop pos ≠ [] :=
    ne_nil_of_length_pos (by rw [length_drop]; omega)
  have cut := bodyLength_le pktz.mtu (stream.drop pos)
  have size := bodyLength_mtu large (stream.drop pos)
  have positive : bodyLength pktz.mtu (stream.drop pos) ≠ 0 := by
    intro zero
    have only := (bodyLength_eq_zero large some).mp zero
    rw [length_drop, syncAt_drop] at only
    exact plain ⟨only.2.1, by omega⟩
  rw [takePayload_spec pktz header] at call
  generalize bodyLength pktz.mtu (stream.drop pos) = n at call cut size positive
  rw [length_drop] at cut
  have next : ((bits.set (pos - 2) 0).set (pos - 2 + 1) 0).drop (pos - 2 + 2 + n) =
      stream.drop (pos - 2 + 2 + n) := by
    have back : pos - 2 + 2 + n = pos + n := by omega
    rw [Nat.add_assoc, ← drop_drop, header, ← Nat.add_assoc, back, ← drop_drop]
    change (stream.drop pos).drop n = _
    rw [drop_drop]
  have stretch : (stream.drop pos).take (pos - 2 + 2 + n - pos) = (stream.drop pos).take n := by
    congr 1
    omega
  have nonempty : (stream.drop pos).take n ≠ [] :=
    ne_nil_of_length_pos (by rw [length_take, length_drop]; omega)
  constructor
  constructor
  · exact call
  · exact ⟨by simp only [length_set, length], next, fun low => absurd low (by dsimp only; omega)⟩
  · dsimp only
    omega
  · dsimp only
    omega
  · simp only [length_cons, length_take]
    omega
  · exact ⟨_, by rw [if_neg plain]; exact ⟨rfl, stretch, nonempty⟩⟩

theorem Ahead.call (h : Ahead stream bits pos) (large : 5 ≤ pktz.mtu) (more : pos < stream.length) :
    ∃ packet, Packetizes pktz stream bits pos packet := by
  by_cases mark : syncAt stream pos ∧ pos + 2 < stream.length
  · exact h.callMark large mark.1 mark.2
  · exact h.callPlain large more mark

/-- The calls divide the picture. -/
theorem packetizeFrom_spec (large : 5 ≤ pktz.mtu) (fuel : Nat) (h : Ahead stream bits pos)
    (inside : pos ≤ stream.length) (enough : stream.length - pos < fuel) :
    ∃ calls, packetizeFrom pktz fuel bits pos = some calls ∧
      Chain Call.start (fun call => call.packet.pos) pos stream.length calls ∧
      ∀ call ∈ calls, call.packet.payload.length ≤ pktz.mtu ∧ Carries pktz.mtu stream call := by
  induction fuel generalizing bits pos with
  | zero => exact absurd enough (Nat.not_lt_zero _)
  | succ fuel ih =>
    rw [packetizeFrom, h.length]
    by_cases more : pos < stream.length
    · have ⟨packet, made⟩ := h.call large more
      have progress := made.progress
      have ⟨calls, rest, chain, carry⟩ := ih made.ahead made.inside (by omega)
      rw [if_pos more, made.call, bind_eq_bind, bind_some, rest]
      apply Exists.intro (⟨pos, packet⟩ :: calls)
      refine ⟨rfl, ⟨rfl, progress, chain⟩, fun call among => ?_⟩
      cases among with
      | head => exact ⟨made.size, made.carries⟩
      | tail _ among => exact carry call among
    · rw [if_neg more]
      exact ⟨[], rfl, by rw [chain_nil]; omega, by simp⟩

/-! ## What the receiver makes of it -/

variable {payload : List UInt8}

/-- A payload is appended where there is room for it. -/
theorem appendPayload_plain (pktz : Packetizer) (room : pos + payload.length ≤ bits.length) :
    ∃ after, appendPayload pktz false bits pos payload = some {
        status := .success
        pktz := { pktz with unpackPrevLost := false }
        bits := after
        pos := pos + payload.length } ∧
      after.length = bits.length ∧
      after.take (pos + payload.length) = bits.take pos ++ payload := by
  have write := Buffer.write_inside room
  apply Exists.intro
  constructor
  · simp only [appendPayload, write, bind_eq_bind, bind_some]
    rfl
  · exact ⟨Buffer.length_write write, Buffer.take_write write⟩

/-- A payload that starts at a synchronization point gets back its mark. -/
theorem appendPayload_sync (pktz : Packetizer) (room : pos + 2 + payload.length ≤ bits.length) :
    ∃ after, appendPayload pktz true bits pos payload = some {
        status := .success
        pktz := { pktz with unpackLastSyncPos := pos, unpackPrevLost := false }
        bits := after
        pos := pos + 2 + payload.length } ∧
      after.length = bits.length ∧
      after.take (pos + 2 + payload.length) = bits.take pos ++ 0 :: 0 :: payload := by
  obtain ⟨marked, mark⟩ : ∃ marked, Buffer.write bits pos [0, 0] = some marked :=
    ⟨_, Buffer.write_inside (by rw [length_cons, length_singleton]; omega)⟩
  have length := Buffer.length_write mark
  have front := Buffer.take_write mark
  rw [← length] at room
  have write := Buffer.write_inside room
  apply Exists.intro
  constructor
  · simp only [appendPayload, mark, write, bind_eq_bind, bind_some]
    rfl
  · have taken : marked.take (pos + 2) = bits.take pos ++ [0, 0] := front
    apply And.intro ((Buffer.length_write write).trans length)
    rw [Buffer.take_write write, taken, append_assoc]
    rfl

/-- A payload behind the flag of a synchronization point. -/
theorem unpacketize_sync (pktz : Packetizer) (body : List UInt8) (bits : List UInt8) (pos : Nat) :
    pjmediaH263Unpacketize pktz (some (0x04 :: 0 :: body)) bits pos =
      let fresh := { pktz with unpackLastSyncPos := if pos = 0 then 0 else pktz.unpackLastSyncPos }
      if body = [] then
        some ⟨.einval, { fresh with unpackPrevLost := true }, bits, pos⟩
      else if bits.length < pos + body.length + 2 then
        some ⟨.etoosmall, { fresh with unpackPrevLost := true }, bits, pos⟩
      else appendPayload fresh true bits pos body := by
  cases body with
  | nil => rfl
  | cons first rest => rfl

/-- A payload behind a plain header, when nothing is lost. -/
theorem unpacketize_plain (complete : pktz.unpackPrevLost = false) {body : List UInt8}
    (some : body ≠ []) (started : pos ≠ 0) (room : pos + body.length + 2 ≤ bits.length) :
    pjmediaH263Unpacketize pktz (.some (0 :: 0 :: body)) bits pos =
      appendPayload pktz false bits pos body := by
  have fits : ¬bits.length < pos + body.length + 2 := by omega
  cases body with
  | nil => exact absurd rfl some
  | cons first rest =>
    have read : pjmediaH263Unpacketize pktz (.some (0 :: 0 :: first :: rest)) bits pos =
        if bits.length < pos + (first :: rest).length + 2 then _
        else appendContinuation
          { pktz with unpackLastSyncPos := if pos = 0 then 0 else pktz.unpackLastSyncPos } bits pos []
          (first :: rest) := rfl
    rw [read, if_neg fits, appendContinuation, if_neg started, if_neg started, if_neg]
    rw [complete]
    exact Bool.false_ne_true

/-- The receiver, when it has the front of the picture. -/
structure Received (stream bits : List UInt8) (pos : Nat) (pktz : Packetizer) : Prop where
  room : stream.length + 2 ≤ bits.length
  front : bits.take pos = stream.take pos
  complete : pos ≠ 0 → pktz.unpackPrevLost = false

/-- A call whose payload carries more than a header brings the receiver forward. -/
theorem Received.call {call : Call} (h : Received stream bits call.start pktz)
    (start : syncAt stream 0) (long : 2 < stream.length) (progress : call.start < call.packet.pos)
    (inside : call.packet.pos ≤ stream.length) (carries : Carries mtu stream call)
    (filled : ¬MarkOnly mtu (stream.drop call.start)) :
    ∃ unpacked, pjmediaH263Unpacketize pktz (some call.packet.payload) bits call.start =
        some unpacked ∧
      unpacked.status = .success ∧ unpacked.pos = call.packet.pos ∧
      Received stream unpacked.bits unpacked.pos unpacked.pktz := by
  have room := h.room
  have joined : stream.take call.packet.pos = stream.take call.start ++ call.stretch stream := by
    have split : call.packet.pos = call.start + (call.packet.pos - call.start) := by omega
    rw [Call.stretch, ← take_add, ← split]
  have length : (call.stretch stream).length = call.packet.pos - call.start := by
    rw [Call.stretch, length_take, length_drop]
    omega
  have ⟨body, carried⟩ := carries
  by_cases mark : syncAt stream call.start ∧ call.start + 2 < stream.length
  · rw [if_pos mark] at carried
    have ⟨payload, stretch, empty⟩ := carried
    rw [stretch, length_cons, length_cons] at length
    have some : body ≠ [] := fun none => filled (empty.mp none)
    have fits : call.start + 2 + body.length ≤ bits.length := by omega
    have last : call.start + 2 + body.length = call.packet.pos := by omega
    have ⟨after, append, same, front⟩ := appendPayload_sync { pktz with
      unpackLastSyncPos := if call.start = 0 then 0 else pktz.unpackLastSyncPos } fits
    rw [payload, unpacketize_sync, if_neg some, if_neg (by omega), append]
    apply Exists.intro
    refine ⟨rfl, rfl, last, ⟨by dsimp only; omega, ?_, fun _ => rfl⟩⟩
    rw [front, last, joined, stretch, h.front]
  · rw [if_neg mark] at carried
    obtain ⟨payload, stretch, some⟩ := carried
    have started : call.start ≠ 0 := by
      intro first
      rw [first] at mark
      exact mark ⟨start, by omega⟩
    rw [stretch] at length
    have fits : call.start + body.length ≤ bits.length := by omega
    have last : call.start + body.length = call.packet.pos := by omega
    have ⟨after, append, same, front⟩ := appendPayload_plain pktz fits
    rw [payload, unpacketize_plain (h.complete started) some started (by omega), append]
    apply Exists.intro
    refine ⟨rfl, rfl, last, ⟨by dsimp only; omega, ?_, fun _ => rfl⟩⟩
    dsimp only
    rw [front, last, joined, stretch, h.front]

/-- The payloads of consecutive calls, none of which is a bare header. -/
theorem Received.calls (start : syncAt stream 0) (long : 2 < stream.length) {calls : List Call}
    (h : Received stream bits pos pktz)
    (chain : Chain Call.start (fun call => call.packet.pos) pos stream.length calls)
    (carry : ∀ call ∈ calls, Carries mtu stream call)
    (filled : ∀ call ∈ calls, ¬MarkOnly mtu (stream.drop call.start)) :
    ∃ statuses after stop,
      unpacketizeFrom pktz bits pos (calls.map fun call => call.packet.payload) =
        some (statuses, after, stop) ∧
      (∀ status ∈ statuses, status = .success) ∧ after.take stop = stream := by
  induction calls generalizing bits pos pktz with
  | nil =>
    refine ⟨[], bits, pos, rfl, by simp, ?_⟩
    rw [h.front, chain, take_length]
  | cons call rest ih =>
    have ⟨first, progress, later⟩ := chain
    subst first
    have ⟨unpacked, taken, success, next, received⟩ := h.call start long progress later.le
      (carry call mem_cons_self) (filled call mem_cons_self)
    rw [next] at received
    have ⟨statuses, after, stop, fed, all, whole⟩ := ih received later
      (fun call among => carry call (mem_cons_of_mem _ among))
      (fun call among => filled call (mem_cons_of_mem _ among))
    refine ⟨.success :: statuses, after, stop, ?_, ?_, whole⟩
    · rw [map_cons, unpacketizeFrom, taken, bind_eq_bind, bind_some, next, fed,
        success]
      rfl
    · intro status among
      cases among with
      | head => rfl
      | tail _ among => exact all status among

/-- A bare header is rejected, whatever the receiver has. -/
theorem unpacketizeFrom_rejects {payloads : List (List UInt8)} (bare : [0x04, 0] ∈ payloads)
    {after : List UInt8} {stop : Nat} {statuses : List Status}
    (fed : unpacketizeFrom pktz bits pos payloads = some (statuses, after, stop)) :
    .einval ∈ statuses := by
  induction payloads generalizing pktz bits pos statuses with
  | nil => cases bare
  | cons payload rest ih =>
    simp only [unpacketizeFrom, bind_eq_bind, bind_eq_some_iff, Option.pure_def,
      Option.some.injEq] at fed
    have ⟨unpacked, taken, ⟨others, last⟩, feed, same⟩ := fed
    cases same
    cases bare with
    | head =>
      cases taken
      exact mem_cons_self
    | tail _ bare => exact mem_cons_of_mem _ (ih bare feed)

/-- A receiver accepts all payloads of the calls, and has the picture then. -/
def Reproduces (receiver : Packetizer) (out : List UInt8) (calls : List Call)
    (stream : List UInt8) : Prop :=
  ∃ statuses bits pos,
    unpacketizeAll receiver out (calls.map fun call => call.packet.payload) =
      some (statuses, bits, pos) ∧
    (∀ status ∈ statuses, status = .success) ∧ bits.take pos = stream

/-- Packetizing a picture that starts with a synchronization point succeeds and makes progress on
every call, and no payload is longer than the MTU. The unpacketizer accepts all payloads and
reproduces the picture if and only if no call starts at a mark that makes a bare header. -/
theorem h263_round_trip_iff (sender receiver : Packetizer) (large : 5 ≤ sender.mtu)
    (stream : List UInt8) (long : 3 ≤ stream.length) (start : stream.take 2 = [0, 0])
    (out : List UInt8) (room : stream.length + 2 ≤ out.length) :
    ∃ calls, packetizeAll sender stream = some calls ∧
      Chain Call.start (fun call => call.packet.pos) 0 stream.length calls ∧
      (∀ call ∈ calls, call.packet.payload.length ≤ sender.mtu) ∧
      (Reproduces receiver out calls stream ↔
        ∀ call ∈ calls, ¬MarkOnly sender.mtu (stream.drop call.start)) := by
  have mark : syncAt stream 0 := by
    match stream, start with
    | _ :: _ :: _, start =>
      cases start
      rfl
  have ahead : Ahead stream stream 0 := ⟨rfl, rfl, fun _ => ⟨rfl, mark, long⟩⟩
  have ⟨calls, made, chain, carry⟩ :=
    packetizeFrom_spec large (stream.length + 1) ahead (Nat.zero_le _) (by omega)
  refine ⟨calls, made, chain, fun call among => (carry call among).1, ?_⟩
  constructor
  · rintro ⟨statuses, bits, pos, fed, all, -⟩ call among only
    have ⟨body, carried⟩ := (carry call among).2
    have cut := only.1
    rw [length_drop] at cut
    have marked : syncAt stream call.start ∧ call.start + 2 < stream.length := by
      have here := only.2.1
      rw [syncAt_drop] at here
      exact ⟨here, by omega⟩
    rw [if_pos marked] at carried
    have ⟨payload, _, empty⟩ := carried
    rw [empty.mpr only] at payload
    have bare : [0x04, 0] ∈ calls.map fun call => call.packet.payload :=
      mem_map.mpr ⟨call, among, payload⟩
    cases all _ (unpacketizeFrom_rejects bare fed)
  · intro filled
    have received : Received stream out 0 receiver := ⟨room, rfl, fun none => absurd rfl none⟩
    exact received.calls mark (by omega) chain (fun call among => (carry call among).2) filled

/-- A picture of two payloads. -/
theorem h263_round_trip_iff_two :
    ∃ calls, packetizeAll ⟨5, 0, false⟩ [0, 0, 1, 2, 3, 4] = some calls ∧
      Reproduces ⟨5, 0, false⟩ (List.replicate 8 9) calls [0, 0, 1, 2, 3, 4] := by
  have ⟨calls, made, _, _, same⟩ := h263_round_trip_iff ⟨5, 0, false⟩ ⟨5, 0, false⟩ (by decide)
    [0, 0, 1, 2, 3, 4] (by decide) rfl (List.replicate 8 9) (by decide)
  have filled : ∀ call ∈ calls, ¬MarkOnly 5 (([0, 0, 1, 2, 3, 4] : List UInt8).drop call.start) := by
    have all : (packetizeAll ⟨5, 0, false⟩ [0, 0, 1, 2, 3, 4]).all fun calls => calls.all fun call =>
        !MarkOnly 5 (([0, 0, 1, 2, 3, 4] : List UInt8).drop call.start) := by decide
    rw [made] at all
    simpa using all
  exact ⟨calls, made, same.mpr filled⟩

/-- Four zero octets, and the MTU does not reach the end: the first payload is a bare header, and
the receiver rejects it. -/
theorem h263_round_trip_fails :
    ∃ calls, packetizeAll ⟨5, 0, false⟩ [0, 0, 0, 0, 1, 1, 1] = some calls ∧
      ¬Reproduces ⟨5, 0, false⟩ (List.replicate 9 9) calls [0, 0, 0, 0, 1, 1, 1] := by
  apply Exists.intro
  apply And.intro rfl
  rintro ⟨statuses, bits, pos, fed, all, -⟩
  have rejected : .einval ∈ statuses := by
    cases fed
    decide
  cases all _ rejected

end Pjmedia.H263
