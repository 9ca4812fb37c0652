import Pjproject.Stun.Msg

/-!
# Where the attributes of a packet are

What `pj_stun_msg_decode` accepts, in terms of the attributes that lie one behind the other in the
packet.
-/

namespace Pjnath.Stun
open Pj Traced

variable (mem : Nat → UInt8) (hdr : MsgHdr)

/-- The exclusive or depends on the transaction ID only. -/
theorem xorSockaddr_congr {hdr there : MsgHdr} (same : there.tsxId = hdr.tsxId) (sockaddr : Sockaddr) :
    xorSockaddr there sockaddr = xorSockaddr hdr sockaddr := by
  cases sockaddr with
  | inet port addr => rfl
  | inet6 port addr => rw [xorSockaddr, xorSockaddr, same]

/-- The attribute is at a position. -/
structure At (p : Nat) (attr : Attr) : Prop where
  type : load16 .big mem p = attr.type
  length : load16 .big mem (p + 2) = attr.length
  value : match findAttrDesc attr.type with
    | some desc => (decodeValue mem hdr p attr.length desc.kind).result = .ok attr.value
    | none => ¬attr.type ≤ 0x7FFF ∧ attr.value = .binary (bytesAt mem (p + 4) attr.length.toNat)

theorem pad4_ge (length : Nat) : length ≤ pad4 length := by
  unfold pad4
  omega

/-- How far it is to the attribute behind one. -/
def Attr.extent (attr : Attr) : Nat := pad4 attr.length.toNat + 4

/-- The attributes lie one behind the other, from a position on to the end. -/
inductive Laid (stop : Nat) : Nat → List Attr → Prop
  | done {p : Nat} (reached : stop ≤ p) : Laid stop p []
  | cons {p : Nat} {attr : Attr} {rest : List Attr} (header : p + 4 ≤ stop)
      (fits : p + pad4 attr.length.toNat ≤ stop) (here : At mem hdr p attr)
      (behind : Laid stop (p + attr.extent) rest) : Laid stop p (attr :: rest)

/-- A decoded attribute is accepted, if its place among the others allows it. -/
def accept (parsed : Parsed) (attr : Attr) : Option Parsed :=
  if parsed.attr.length ≥ pjStunMaxAttr then none
  else
    match findAttrDesc attr.type with
    | none => some { parsed with attr := parsed.attr ++ [attr] }
    | some _ =>
      match checkPosition parsed attr.type with
      | .error _ => none
      | .ok checked => some { checked with attr := checked.attr ++ [attr] }

/-- All attributes are accepted, one after the other. -/
def acceptAll : Parsed → List Attr → Option Parsed
  | parsed, [] => some parsed
  | parsed, attr :: rest =>
    match accept parsed attr with
    | none => none
    | some parsed => acceptAll parsed rest

theorem acceptAll_append (parsed : Parsed) (left right : List Attr) :
    acceptAll parsed (left ++ right) = (acceptAll parsed left).bind (acceptAll · right) := by
  induction left generalizing parsed with
  | nil => rfl
  | cons attr rest ih =>
    rw [List.cons_append, acceptAll, acceptAll]
    cases accept parsed attr with
    | none => rfl
    | some parsed => exact ih parsed

variable {parsed : Parsed}

/-- The check of a position leaves the attributes alone. -/
theorem checkPosition_attr {checked : Parsed} {attrType : UInt16}
    (h : checkPosition parsed attrType = .ok checked) : checked.attr = parsed.attr := by
  unfold checkPosition at h
  split at h
  · split at h
    · cases h
    · cases h
      rfl
  · split at h
    · split at h
      · cases h
      · cases h
        rfl
    · split at h
      · cases h
      · cases h
        rfl

variable {after : Parsed}

variable {attr : Attr}

theorem accept_attr (h : accept parsed attr = some after) :
    after.attr = parsed.attr ++ [attr] := by
  unfold accept at h
  split at h
  · cases h
  · split at h
    · cases h
      rfl
    · split at h
      · cases h
      · next checked found =>
        cases h
        exact congrArg (· ++ [attr]) (checkPosition_attr found)

theorem acceptAll_attr {attrs : List Attr} (h : acceptAll parsed attrs = some after) :
    after.attr = parsed.attr ++ attrs := by
  induction attrs generalizing parsed with
  | nil =>
    cases h
    exact (List.append_nil _).symm
  | cons attr rest ih =>
    unfold acceptAll at h
    split at h
    · cases h
    · next between found =>
      rw [ih h, accept_attr found, List.append_assoc]
      rfl

/-! ## The decoder -/

variable {p : Nat}

variable {mem hdr}

/-- There is one attribute at most at a position. -/
theorem At.unique {first second : Attr} (h : At mem hdr p first) (k : At mem hdr p second) :
    first = second := by
  have type : first.type = second.type := h.type.symm.trans k.type
  have length : first.length = second.length := h.length.symm.trans k.length
  have left := h.value
  have right := k.value
  rw [type, length] at left
  cases known : findAttrDesc second.type with
  | some desc =>
    rw [known] at left right
    have value := left.symm.trans right
    cases first
    cases second
    cases type
    cases length
    cases value
    rfl
  | none =>
    rw [known] at left right
    have value := left.2.trans right.2.symm
    cases first
    cases second
    cases type
    cases length
    cases value
    rfl

theorem decodeAttr_result_iff {desc : AttrDesc} :
    (decodeAttr mem hdr p desc).result = .ok attr ↔
      load16 .big mem p = attr.type ∧ load16 .big mem (p + 2) = attr.length ∧
        (decodeValue mem hdr p attr.length desc.kind).result = .ok attr.value := by
  rw [decodeAttr, result_bind_of_ok (getAttrHdr_result mem p), result_bind_eq_ok]
  constructor
  · intro decoded
    have ⟨value, found, same⟩ := decoded
    cases same
    exact ⟨rfl, rfl, found⟩
  · intro fields
    cases attr with
    | mk type length value =>
      obtain ⟨rfl, rfl, found⟩ := fields
      exact ⟨value, found, rfl⟩

theorem addAttr_result_iff {desc : AttrDesc} (known : findAttrDesc attr.type = some desc) :
    (match checkPosition parsed attr.type with
      | .error status => throw status
      | .ok checked => addAttr checked attr : Decoder Parsed).result = .ok after ↔
      accept parsed attr = some after := by
  rw [accept, known]
  cases found : checkPosition parsed attr.type with
  | error status =>
    rw [ite_self]
    exact iff_of_false nofun nofun
  | ok checked =>
    dsimp only
    rw [addAttr, checkPosition_attr found]
    by_cases full : parsed.attr.length ≥ pjStunMaxAttr
    · rw [if_pos full, if_pos full]
      exact iff_of_false nofun nofun
    · rw [if_neg full, if_neg full, storeAttr, result_access, Except.ok.injEq, Option.some.injEq,
        checkPosition_attr found]

/-- A turn of the loop takes the attribute that is there. -/
theorem parseAttr_result_iff :
    (parseAttr mem hdr p (load16 .big mem p) parsed).result = .ok after ↔
      ∃ attr, At mem hdr p attr ∧ accept parsed attr = some after := by
  unfold parseAttr
  cases known : findAttrDesc (load16 .big mem p) with
  | some desc =>
    rw [result_bind_eq_ok]
    apply exists_congr
    intro attr
    rw [decodeAttr_result_iff]
    constructor
    · intro ⟨⟨type, length, value⟩, stored⟩
      rw [type] at known stored
      exact ⟨⟨type, length, by rw [known]; exact value⟩, (addAttr_result_iff known).mp stored⟩
    · intro ⟨here, accepted⟩
      have type := here.type
      rw [type] at known ⊢
      have value := here.value
      rw [known] at value
      exact ⟨⟨rfl, here.length, value⟩, (addAttr_result_iff known).mpr accepted⟩
  | none =>
    by_cases mandatory : load16 .big mem p ≤ 0x7FFF
    · rw [if_pos mandatory]
      apply iff_of_false
      · exact nofun
      · intro ⟨attr, here, _⟩
        have type := here.type
        have value := here.value
        rw [← type, known] at value
        exact value.1 mandatory
    · rw [if_neg mandatory]
      have stored : (do
          let length ← getval16h mem (p + 2)
          let data ← getValue mem (p + 4) length.toNat
          storeAttr parsed ⟨load16 .big mem p, length, .binary data⟩ : Decoder Parsed).result = .ok
            { parsed with attr := parsed.attr ++ [⟨load16 .big mem p, load16 .big mem (p + 2),
              .binary (bytesAt mem (p + 4) (load16 .big mem (p + 2)).toNat)⟩] } := rfl
      have there : At mem hdr p ⟨load16 .big mem p, load16 .big mem (p + 2),
          .binary (bytesAt mem (p + 4) (load16 .big mem (p + 2)).toNat)⟩ :=
        ⟨rfl, rfl, by dsimp only; rw [known]; exact ⟨mandatory, rfl⟩⟩
      by_cases full : parsed.attr.length ≥ pjStunMaxAttr
      · rw [if_pos full]
        apply iff_of_false
        · exact nofun
        · intro ⟨attr, _, accepted⟩
          rw [accept, if_pos full] at accepted
          cases accepted
      · rw [if_neg full, stored, Except.ok.injEq]
        constructor
        · intro same
          refine ⟨_, there, ?_⟩
          rw [accept, if_neg full, known, ← same]
        · intro ⟨attr, here, accepted⟩
          rw [here.unique there, accept, if_neg full, known] at accepted
          exact Option.some.inj accepted

/-- The loop takes the attributes that lie one behind the other, and comes to the end. -/
theorem parseAttrs_result_iff (fuel : Nat) {pduLen : Nat} (enough : pduLen ≤ fuel) :
    (parseAttrs mem hdr fuel p pduLen parsed).result = .ok (0, after) ↔
      ∃ attrs, Laid mem hdr (p + pduLen) p attrs ∧ acceptAll parsed attrs = some after := by
  have none : ∀ {p pduLen parsed}, pduLen < 4 → ((pure (pduLen, parsed) : Decoder (Nat × Parsed)).result = .ok (0, after) ↔
      ∃ attrs, Laid mem hdr (p + pduLen) p attrs ∧ acceptAll parsed attrs = some after) := by
    intro p pduLen parsed short
    rw [result_pure, Except.ok.injEq, Prod.mk.injEq]
    constructor
    · intro ⟨zero, same⟩
      exact ⟨[], .done (by omega), congrArg some same⟩
    · intro ⟨attrs, laid, accepted⟩
      cases laid with
      | done reached => exact ⟨by omega, Option.some.inj accepted⟩
      | cons header => omega
  induction fuel generalizing p pduLen parsed with
  | zero =>
    exact none (by omega)
  | succ fuel ih =>
    rw [parseAttrs]
    by_cases short : pduLen < 4
    · rw [if_pos short]
      exact none short
    · rw [if_neg short, result_bind_of_ok (getval16h_result mem _),
        result_bind_of_ok (getval16h_result mem _)]
      by_cases long : pduLen < pad4 (load16 .big mem (p + 2)).toNat
      · rw [if_pos long]
        apply iff_of_false
        · exact nofun
        · intro ⟨attrs, laid, _⟩
          cases laid with
          | done reached => omega
          | cons header fits here behind =>
            rw [here.length] at long
            omega
      · rw [if_neg long, result_bind_eq_ok]
        -- The attributes behind are those of the turns that are left.
        have behind : ∀ attr between, At mem hdr p attr →
            ((if pad4 (load16 .big mem (p + 2)).toNat + 4 ≥ pduLen then pure (0, between)
              else parseAttrs mem hdr fuel (p + (pad4 (load16 .big mem (p + 2)).toNat + 4))
                (pduLen - (pad4 (load16 .big mem (p + 2)).toNat + 4)) between :
                Decoder (Nat × Parsed)).result = .ok (0, after) ↔
              ∃ rest, Laid mem hdr (p + pduLen) (p + attr.extent) rest ∧
                acceptAll between rest = some after) := by
          intro attr between here
          rw [here.length, ← Attr.extent]
          by_cases last : attr.extent ≥ pduLen
          · rw [if_pos last, result_pure, Except.ok.injEq, Prod.mk.injEq, and_iff_right rfl]
            constructor
            · intro same
              exact ⟨[], .done (by omega), congrArg some same⟩
            · intro ⟨rest, laid, accepted⟩
              cases laid with
              | done reached => exact Option.some.inj accepted
              | cons header => omega
          · have stop : p + pduLen = p + attr.extent + (pduLen - attr.extent) := by omega
            have turn : pduLen - attr.extent ≤ fuel := by
              unfold Attr.extent
              omega
            rw [if_neg last, stop]
            exact ih turn
        constructor
        · intro ⟨between, turn, rest⟩
          have ⟨attr, here, accepted⟩ := parseAttr_result_iff.mp turn
          have ⟨attrs, laid, all⟩ := (behind attr between here).mp rest
          have fits : p + pad4 attr.length.toNat ≤ p + pduLen := by
            rw [← here.length]
            omega
          refine ⟨attr :: attrs, .cons (by omega) fits here laid, ?_⟩
          rw [acceptAll, accepted]
          exact all
        · intro ⟨attrs, laid, all⟩
          cases laid with
          | done reached => omega
          | cons header fits here laid =>
            rename_i attr rest
            cases accepted : accept parsed attr with
            | none =>
              rw [acceptAll, accepted] at all
              cases all
            | some between =>
              rw [acceptAll, accepted] at all
              have turn := parseAttr_result_iff.mpr ⟨attr, here, accepted⟩
              exact ⟨between, turn, (behind attr between here).mpr ⟨rest, laid, all⟩⟩

/-- What the decoder accepts. -/
theorem decodeMsg_result_iff {msg : Msg} :
    (decodeMsg mem).result = .ok msg ↔
      msg.hdr = msgHdrAt mem ∧ Laid mem msg.hdr (20 + msg.hdr.length.toNat) 20 msg.attr ∧
        (acceptAll ⟨[], false, false⟩ msg.attr).isSome := by
  rw [decodeMsg, result_bind_of_ok (getMsgHdr_result mem), result_bind_eq_ok]
  constructor
  · intro ⟨⟨pduLen, parsed⟩, loop, returned⟩
    dsimp only at returned
    by_cases left : pduLen > 0
    · rw [if_pos left] at returned
      cases returned
    · rw [if_neg left] at returned
      cases returned
      have zero : pduLen = 0 := Nat.eq_zero_of_not_pos left
      rw [zero] at loop
      have ⟨attrs, laid, all⟩ := (parseAttrs_result_iff _ (Nat.le_refl _)).mp loop
      have same : parsed.attr = attrs := acceptAll_attr all
      rw [same]
      exact ⟨rfl, laid, Option.isSome_iff_exists.mpr ⟨parsed, all⟩⟩
  · intro ⟨hdr, laid, accepted⟩
    have ⟨parsed, all⟩ := Option.isSome_iff_exists.mp accepted
    have same : parsed.attr = msg.attr := acceptAll_attr all
    rw [hdr] at laid
    have loop := (parseAttrs_result_iff _ (Nat.le_refl _)).mpr ⟨msg.attr, laid, all⟩
    refine ⟨(0, parsed), loop, ?_⟩
    dsimp only
    rw [if_neg (Nat.lt_irrefl 0), result_pure, same, ← hdr]

end Pjnath.Stun
