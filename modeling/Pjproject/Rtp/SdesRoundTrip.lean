import Pjproject.Rtp.RtcpSdes

/-!
# RTCP SDES round trip

The parser of a packet that has been built stores the items one behind the other, and leaves out
one that would reach the end of its buffer.
-/

namespace Pjmedia.Rtp
open List Pj Traced

variable {mem : Nat → UInt8}

/-! ## Storing items -/

variable {values : List (List UInt8)}

/-- The items that are recovered, behind `used` bytes of others: an item that does not fit is
empty. -/
def recovered (used : Nat) : List (List UInt8) → List (List UInt8)
  | [] => []
  | value :: rest =>
    if used + value.length < rtcpRxSdesBufLen then value :: recovered (used + value.length) rest
    else [] :: recovered used rest

/-- All the items are recovered, if there is room for all of them. -/
theorem recovered_of_room {used : Nat}
    (room : used + (values.map List.length).sum < rtcpRxSdesBufLen) :
    recovered used values = values := by
  induction values generalizing used with
  | nil => rfl
  | cons value rest ih =>
    rw [map_cons, sum_cons, ← Nat.add_assoc] at room
    rw [recovered, if_pos (Nat.lt_of_le_of_lt (Nat.le_add_right _ _) room), ih room]

/-- The peer SDES buffer with some bytes at the index `b`. -/
def storeAt (buf : Nat → UInt8) (b : Nat) (value : List UInt8) : Nat → UInt8 :=
  fun i => if b ≤ i ∧ i < b + value.length then value.getD (i - b) 0 else buf i

/-- The parser stores items with their types, behind `b` bytes of others. -/
def storeItems (b : Nat) (peer : PeerSdes) : List (List UInt8 × Nat) → PeerSdes
  | [] => peer
  | (value, type) :: rest =>
    if value = [] then storeItems b peer rest
    else if b + value.length < rtcpRxSdesBufLen then
      storeItems (b + value.length)
        { sdes := peer.sdes.set type { ptr := b, slen := value.length }
          buf := storeAt peer.buf b value } rest
    else storeItems b peer rest

/-- A string before the bytes that are stored stays as it is. -/
theorem content_storeAt {slot : SdesSlot} {b : Nat} (before : slot.ptr + slot.slen ≤ b)
    (buf : Nat → UInt8) (value : List UInt8) :
    slot.content (storeAt buf b value) = slot.content buf := by
  refine map_congr_left fun i member => ?_
  have below := mem_range.mp member
  exact if_neg (by omega)

/-- The string that is stored. -/
theorem content_stored (buf : Nat → UInt8) (b : Nat) (value : List UInt8) :
    SdesSlot.content { ptr := b, slen := value.length } (storeAt buf b value) = value := by
  apply ext_getElem
  · simp [SdesSlot.content]
  · intro i below inside
    have here : b ≤ b + i ∧ b + i < b + value.length := by omega
    simp only [SdesSlot.content, storeAt, getElem_map, getElem_range, if_pos here,
      Nat.add_sub_cancel_left, getD_eq_getElem?_getD, getElem?_eq_getElem inside,
      Option.getD_some]

theorem toList_set {α : Type} (sdes : RtcpSdes α) {type : Nat} (known : 1 ≤ type ∧ type ≤ 7)
    (value : α) : (sdes.set type value).toList = sdes.toList.set (type - 1) value :=
  match type, known with
  | 1, _ | 2, _ | 3, _ | 4, _ | 5, _ | 6, _ | 7, _ => rfl

theorem length_toList {α : Type} (sdes : RtcpSdes α) : sdes.toList.length = 7 := rfl

/-- Storing the values of the last types, after those of the types before have been stored. -/
theorem storeItems_values :
    ∀ {stored : List SdesSlot} {b : Nat} {peer : PeerSdes},
      peer.sdes.toList = stored ++ List.replicate values.length SdesSlot.zero →
      (∀ slot ∈ stored, slot.ptr + slot.slen ≤ b) →
        (storeItems b peer (values.zipIdx (stored.length + 1))).values =
          stored.map (SdesSlot.content · peer.buf) ++ recovered b values := by
  induction values with
  | nil =>
    intro stored b peer slots _
    rw [length_nil, replicate_zero, append_nil] at slots
    rw [zipIdx_nil, storeItems, recovered, append_nil, PeerSdes.values, slots]
  | cons value rest ih =>
    intro stored b peer slots before
    have count : stored.length + 1 + rest.length = 7 := by
      have whole := congrArg List.length slots
      rw [length_toList, length_append, length_replicate, length_cons] at whole
      omega
    rw [length_cons, replicate_succ] at slots
    rw [zipIdx_cons, storeItems, recovered]
    have skipped : (storeItems b peer (rest.zipIdx (stored.length + 1 + 1))).values =
        stored.map (SdesSlot.content · peer.buf) ++ [] :: recovered b rest := by
      have appended : peer.sdes.toList =
          (stored ++ [SdesSlot.zero]) ++ List.replicate rest.length SdesSlot.zero := by
        rw [slots, append_assoc, singleton_append]
      have later := ih appended fun slot member => by
        rcases mem_append.mp member with member | member
        · exact before slot member
        · rw [mem_singleton.mp member]
          exact Nat.zero_le b
      rw [length_append, length_singleton, map_append, append_assoc] at later
      exact later
    by_cases empty : value = []
    · rw [if_pos empty, skipped, empty, length_nil, Nat.add_zero, ite_self]
    rw [if_neg empty]
    by_cases fits : b + value.length < rtcpRxSdesBufLen
    · rw [if_pos fits, if_pos fits]
      have appended : (peer.sdes.set (stored.length + 1)
            { ptr := b, slen := value.length }).toList =
          (stored ++ [{ ptr := b, slen := value.length }]) ++
            List.replicate rest.length SdesSlot.zero := by
        rw [toList_set _ ⟨by omega, by omega⟩, slots, Nat.add_sub_cancel,
          set_append_right _ _ (Nat.le_refl _), Nat.sub_self, set_cons_zero,
          append_assoc, singleton_append]
      have later := @ih _ (b + value.length) ⟨_, storeAt peer.buf b value⟩ appended
        fun slot member => by
          rcases mem_append.mp member with member | member
          · exact Nat.le_add_right_of_le (before slot member)
          · cases mem_singleton.mp member
            exact Nat.le_refl _
      have kept : stored.map (SdesSlot.content · (storeAt peer.buf b value)) =
          stored.map (SdesSlot.content · peer.buf) :=
        map_congr_left fun slot member => content_storeAt (before slot member) _ _
      rw [length_append, length_singleton, map_append, append_assoc, kept,
        map_singleton, content_stored, singleton_append] at later
      exact later
    · rw [if_neg fits, if_neg fits]
      exact skipped

/-! ## Parsing what is built -/

/-- The bytes of items with their types. -/
def itemsBytes (items : List (List UInt8 × Nat)) : List UInt8 :=
  items.flatMap fun item => buildSdesItem item.1 item.2

/-- Copying a value that the memory holds. -/
theorem copyToSdesBuf_result {p : Nat} {value : List UInt8} (holds : Holds mem p value)
    (buf : Nat → UInt8) (b : Nat) :
    (copyToSdesBuf mem buf b p value.length).result = .ok (storeAt buf b value) := by
  refine congrArg Except.ok (funext fun i => ?_)
  unfold storeAt
  by_cases inside : b ≤ i ∧ i < b + value.length
  · have below : i - b < value.length := by omega
    have bytes : ((List.range value.length).map fun offset => mem (p + offset))[i - b]? =
        value[i - b]? := by
      rw [holds.map_range]
    rw [getElem?_map, getElem?_range below, getElem?_eq_getElem below] at bytes
    rw [if_pos inside, if_pos inside, getD_eq_getElem?_getD, getElem?_eq_getElem below]
    exact Option.some.inj bytes
  · rw [if_neg inside, if_neg inside]

/-- The parser stores items up to the null termination. -/
theorem sdesItems_result {pEnd : Nat} {items : List (List UInt8 × Nat)}
    (proper : ∀ item ∈ items, item.1.length < 256 ∧ 0 < item.2 ∧ item.2 < 256) :
    ∀ {p b : Nat} {peer : PeerSdes}, Holds mem p (itemsBytes items ++ [0]) →
      p + (itemsBytes items).length < pEnd →
        (sdesItems mem pEnd p b peer).result = .ok (storeItems b peer items) := by
  induction items with
  | nil =>
    intro p b peer holds inside
    have null : mem p = 0 := holds.1
    have below : p < pEnd := inside
    rw [sdesItems, if_pos below, result_bind_of_ok (result_access _ _), null]
    rfl
  | cons item rest ih =>
    intro p b peer holds inside
    have ⟨value, type⟩ := item
    have ih := @ih fun item member => proper item (mem_cons_of_mem _ member)
    have ⟨short, low, high⟩ := proper _ mem_cons_self
    rw [itemsBytes, flatMap_cons, ← itemsBytes] at holds inside
    dsimp only at holds inside
    rw [storeItems]
    by_cases empty : value = []
    · rw [buildSdesItem, if_pos empty, nil_append] at holds inside
      rw [if_pos empty]
      exact ih holds inside
    · rw [buildSdesItem, if_neg empty] at holds inside
      rw [length_append, length_cons, length_cons] at inside
      have ⟨first, second, later⟩ := holds
      rw [append_eq, append_eq, append_assoc, holds_append] at later
      have ⟨stored, later⟩ := later
      have type_eq : (mem p).toNat = type := by
        rw [first, UInt8.toNat_ofNat']
        exact Nat.mod_eq_of_lt high
      have length_eq : (mem (p + 1)).toNat = value.length := by
        rw [second, UInt8.toNat_ofNat']
        exact Nat.mod_eq_of_lt short
      rw [sdesItems, if_pos (by omega), result_bind_of_ok (result_access _ _), type_eq,
        if_neg (by omega), result_bind_of_ok (result_access _ _), length_eq, if_neg (by omega),
        if_neg empty]
      by_cases fits : b + value.length < rtcpRxSdesBufLen
      · rw [if_pos fits, if_pos fits, result_bind_of_ok (copyToSdesBuf_result stored _ _)]
        exact ih later (by omega)
      · rw [if_neg fits, if_neg fits]
        exact ih later (by omega)

/-! ## What is built -/

theorem buildSdesItem_length (value : List UInt8) (type : Nat) :
    (buildSdesItem value type).length = sdesItemLen value := by
  unfold buildSdesItem sdesItemLen
  split <;> rfl

/-- The items of a source description, by their types. -/
theorem itemsBytes_toList (sdes : RtcpSdes (List UInt8)) :
    itemsBytes (sdes.toList.zipIdx 1) =
      buildSdesItem sdes.cname 1 ++ buildSdesItem sdes.name 2 ++ buildSdesItem sdes.email 3 ++
        buildSdesItem sdes.phone 4 ++ buildSdesItem sdes.loc 5 ++ buildSdesItem sdes.tool 6 ++
        buildSdesItem sdes.note 7 := by
  simp [itemsBytes, RtcpSdes.toList, zipIdx_cons, zipIdx_nil, flatMap_cons, flatMap_nil]

theorem itemsBytes_length (sdes : RtcpSdes (List UInt8)) :
    (itemsBytes (sdes.toList.zipIdx 1)).length = (sdes.toList.map sdesItemLen).sum := by
  rw [itemsBytes_toList]
  simp only [length_append, buildSdesItem_length, RtcpSdes.toList, map_cons,
    map_nil, sum_cons, sum_nil]
  omega

/-- Items of at most 255 bytes. -/
theorem itemLens_le (short : ∀ value ∈ values, value.length < 256) :
    (values.map sdesItemLen).sum ≤ 257 * values.length := by
  induction values with
  | nil => exact Nat.le_refl _
  | cons value rest ih =>
    have later := ih fun value member => short value (mem_cons_of_mem _ member)
    have first := short value mem_cons_self
    have item : sdesItemLen value ≤ 257 := by
      unfold sdesItemLen
      split <;> omega
    rw [map_cons, sum_cons, length_cons]
    omega

/-- What holds of a packet that has been built: the header says its length in words, and the items
and the null termination are behind the header. -/
structure SdesBuilt (mem : Nat → UInt8) (address len : Nat) (items : List (List UInt8 × Nat)) :
    Prop where
  words : len % 4 = 0
  field : len = 4 * (lengthField mem address + 1)
  inside : 8 + (itemsBytes items).length < len
  items : Holds mem (address + 8) (itemsBytes items ++ [0])

theorem rtcpBuildRtcpSdes_built {order : ByteOrder} {session : RtcpSession}
    {buf packet : List UInt8} {sdes : RtcpSdes (List UInt8)} {len : Nat}
    (built : rtcpBuildRtcpSdes order session buf sdes = .ok (packet, len)) {address : Nat}
    (holds : Holds mem address packet) :
    (∀ value ∈ sdes.toList, value.length < 256) ∧
      SdesBuilt mem address len (sdes.toList.zipIdx 1) := by
  unfold rtcpBuildRtcpSdes at built
  by_cases long : (sdes.toList.any fun value => 255 < value.length) = true
  · rw [if_pos long] at built
    cases built
  rw [if_neg long, ← itemsBytes_toList] at built
  have short : ∀ value ∈ sdes.toList, value.length < 256 := by
    intro value member
    by_contra tall
    exact long (any_eq_true.mpr ⟨value, member, decide_eq_true (by omega)⟩)
  have total := itemLens_le short
  have length := itemsBytes_length sdes
  rw [length_toList] at total
  refine ⟨short, ?_⟩
  generalize (sdes.toList.map sdesItemLen).sum = sum at built total length
  by_cases small : (8 + sum + 1 + 3) / 4 * 4 > buf.length
  · rw [if_pos small] at built
    cases built
  rw [if_neg small] at built
  cases built
  unfold overwrite padTo32Bit at holds
  rw [holds_append, holds_append, holds_append, RtcpCommon.length_bytes] at holds
  have ⟨⟨⟨⟨_, _, rest⟩, items⟩, _⟩, _⟩ := holds
  have field := (holds_append.mp rest).1
  refine ⟨by omega, ?_, by omega, items⟩
  rw [lengthField, netWord_of_holds field, toNat_ofInt16]
  omega

/-- The length that is returned is the one the header says, in whole words, and what is parsed of
the packet are the items: each one that fits into the buffer behind those before it, and all of
them if there is room for all. -/
theorem rtcpSdes_roundTrip (order : ByteOrder) (session : RtcpSession) {buf packet : List UInt8}
    {sdes : RtcpSdes (List UInt8)} {len : Nat}
    (built : rtcpBuildRtcpSdes order session buf sdes = .ok (packet, len)) {address : Nat}
    (holds : Holds mem address packet) (peer : PeerSdes) :
    len % 4 = 0 ∧ len = 4 * (lengthField mem address + 1) ∧
      ∃ parsed, (parseRtcpSdes mem address len peer).result = .ok parsed ∧
        parsed.values = recovered 0 sdes.toList ∧
          ((sdes.toList.map List.length).sum < rtcpRxSdesBufLen →
            parsed.values = sdes.toList) := by
  have ⟨short, words, field, inside, items⟩ := rtcpBuildRtcpSdes_built built holds
  have proper : ∀ item ∈ sdes.toList.zipIdx 1,
      item.1.length < 256 ∧ 0 < item.2 ∧ item.2 < 256 := by
    intro item member
    have ⟨low, high, value⟩ := mem_zipIdx member
    rw [length_toList] at high
    refine ⟨?_, by omega, by omega⟩
    rw [value]
    exact short _ (getElem_mem _)
  have result : (parseRtcpSdes mem address len peer).result =
      .ok (storeItems 0 { peer with sdes := RtcpSdes.zero } (sdes.toList.zipIdx 1)) :=
    sdesItems_result proper items (by omega)
  have values := @storeItems_values sdes.toList [] 0 { peer with sdes := RtcpSdes.zero } rfl nofun
  rw [map_nil, nil_append, length_nil, Nat.zero_add] at values
  refine ⟨words, field, _, result, values, fun room => ?_⟩
  rw [values]
  apply recovered_of_room
  rwa [Nat.zero_add]

/-- A packet with a CNAME of one byte. -/
def sampleSdes : List UInt8 := [0x81, 202, 0, 2, 0, 0, 0, 1, 1, 1, 97, 0]

theorem rtcpSdes_roundTrip_sample :
    12 % 4 = 0 ∧ 12 = 4 * (lengthField (fun address => sampleSdes.getD address 0) 0 + 1) ∧
      ∃ parsed,
        (parseRtcpSdes (fun address => sampleSdes.getD address 0) 0 12
          ⟨RtcpSdes.zero, fun _ => 0⟩).result = .ok parsed ∧
        parsed.values = recovered 0 [[97], [], [], [], [], [], []] ∧
          (([[97], [], [], [], [], [], []].map fun value : List UInt8 => value.length).sum <
              rtcpRxSdesBufLen →
            parsed.values = [[97], [], [], [], [], [], []]) := by
  have built : rtcpBuildRtcpSdes .big sampleSession (List.replicate 12 0)
      ⟨[97], [], [], [], [], [], []⟩ = .ok (sampleSdes, 12) := by rfl
  exact rtcpSdes_roundTrip .big sampleSession built (holds_getD [] sampleSdes) _

end Pjmedia.Rtp
