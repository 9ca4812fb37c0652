import Mathlib.Data.List.Find
import Pjproject.Srtp.Setting

/-!
# The agreement on keys

An offer lists suites with keys, the answerer takes the first one that its setting has, and the offerer
finds its own crypto by the name of that suite. The first crypto of an offer with a name is the first
one of the setting, so both ends have the same two keys, or none of them has policies.
-/

namespace Pjmedia.Srtp
open Option List Pj Pj.Base64 Pjmedia.Sdp Pjnath.Stun

variable {srtp srtp' : TransportSrtp} {mLoc mLoc' mRem : SdpMedia} {status : Int}

/-! ## Reachable settings -/

variable {opt : SrtpSetting}

/-- A setting that the arrays have room for, with proper cryptos. -/
structure Settled (srtp : TransportSrtp) : Prop where
  proper : ProperSetting srtp.crypto
  few : srtp.crypto.length ≤ maxCryptos

theorem length_mapM {α β ε : Type} {f : α → Except ε β} {inputs : List α} {outputs : List β}
    (done : inputs.mapM f = .ok outputs) : outputs.length = inputs.length := by
  induction inputs generalizing outputs with
  | nil =>
    cases done
    rfl
  | cons input rest ih =>
    rw [mapM_cons] at done
    cases first : f input with
    | error status =>
      rw [first] at done
      cases done
    | ok output =>
      cases later : rest.mapM f with
      | error status =>
        rw [first, later] at done
        cases done
      | ok others =>
        rw [first, later] at done
        cases done
        exact congrArg Nat.succ (ih later)

theorem settled_create (created : pjmediaTransportSrtpCreate opt = .ok srtp) :
    Settled srtp := by
  refine ⟨proper_create created, ?_⟩
  have default : pjmediaSrtpEnumCrypto.length ≤ maxCryptos := length_take_le _ _
  unfold pjmediaTransportSrtpCreate at created
  by_cases disabled : opt.use = .disabled
  · rw [if_pos disabled] at created
    cases created
    split
    · exact default
    · exact Nat.zero_le _
  · rw [if_neg disabled] at created
    cases reset : opt.crypto.mapM resetCrypto with
    | error status =>
      rw [reset] at created
      cases created
    | ok crypto =>
      rw [reset] at created
      cases created
      split
      · exact default
      · rw [length_mapM reset]
        exact opt.fits

theorem SameSuites.length {before after : List SrtpCrypto} (same : SameSuites before after) :
    after.length = before.length := by
  have names := congrArg List.length same.1
  rwa [length_map, length_map] at names

theorem settled_step {event : Event} (settled : Settled srtp) (done : step srtp event = some srtp') :
    Settled srtp' := by
  have lasting := lasting_step settled.proper done
  refine ⟨lasting.proper, ?_⟩
  rw [lasting.suites.length]
  exact settled.few

/-- The setting of a transport in every state that it reaches. -/
theorem settled_reaches (created : pjmediaTransportSrtpCreate opt = .ok srtp)
    (reached : Run.Reaches next (some srtp) (some srtp')) : Settled srtp' := by
  have kept : ∀ (state : Option TransportSrtp) (event : Event), (∀ srtp ∈ state, Settled srtp) →
      ∀ srtp ∈ next state event, Settled srtp := by
    intro state event before srtp member
    have ⟨old, here, done⟩ := bind_eq_some_iff.mp member
    exact settled_step (before old here) done
  have start : ∀ srtp' ∈ some srtp, Settled srtp' := by
    intro srtp' member
    cases member
    exact settled_create created
  have always := reached.of_always fun events => Run.always_of_forall kept start
  exact always srtp' rfl

/-! ## Media lines -/

variable {choice : Choice}

variable {setting : List SrtpCrypto} {attrs : List SdpAttr}

/-- A media line without an attribute of crypto. -/
def Plain (m : SdpMedia) : Prop := ∀ attr ∈ m.attr, isCrypto attr = false

theorem pjStricmpEq_refl (str : Str) : pjStricmpEq str str = true := by
  simp [pjStricmpEq]

theorem isCrypto_own (value : Str) : isCrypto ⟨idCrypto, value⟩ = true :=
  pjStricmpEq_refl idCrypto

section
variable {rest : List SdpAttr} (plain : ∀ attr ∈ attrs, isCrypto attr = false)
include plain

/-- The loop over an offer passes by the attributes that are not of crypto. -/
theorem chooseCrypto_plain :
    chooseCrypto setting (attrs ++ rest) choice = chooseCrypto setting rest choice := by
  induction attrs with
  | nil => rfl
  | cons attr later ih =>
    have ⟨first, others⟩ := forall_mem_cons.mp plain
    rw [cons_append, chooseCrypto, if_pos (by simp [first])]
    exact ih others

/-- So does the loop over an answer. -/
theorem readAnswer_plain {locCrypto : List SrtpCrypto} {count : Int} {hasCryptoAttr : Bool} :
    readAnswer locCrypto count (attrs ++ rest) srtp hasCryptoAttr =
      readAnswer locCrypto count rest srtp hasCryptoAttr := by
  induction attrs with
  | nil => rfl
  | cons attr later ih =>
    have ⟨first, others⟩ := forall_mem_cons.mp plain
    rw [cons_append, readAnswer, if_pos (by simp [first])]
    exact ih others

end

/-! ## The match of an offer -/

/-- A match stays. -/
theorem chooseCrypto_matched {choice' : Choice} {refusal : Option Refusal}
    {matched : Nat × SrtpCrypto × Int}
    (chosen : chooseCrypto setting attrs choice = some (choice', refusal))
    (before : choice.matched = some matched) : choice'.matched = some matched := by
  induction attrs generalizing choice with
  | nil =>
    cases chosen
    exact before
  | cons attr rest ih =>
    rcases chooseCrypto_cons chosen with ⟨_, later⟩ | ⟨_, same, _⟩ |
      ⟨_, crypto, tag, _, choice₁, later, matched₁⟩
    · exact ih later before
    · exact same.trans before
    · apply ih later
      rw [matched₁, before]
      rfl

/-- The match of an offer is its first crypto with the name of a suite in the setting. -/
theorem chooseCrypto_offer {offered : List SrtpCrypto} {choice' : Choice}
    (keyed : ∀ crypto ∈ offered, crypto.Keyed) {tag : Nat} (positive : 0 < tag)
    (small : tag + offered.length < 2 ^ 31)
    (chosen : chooseCrypto setting ((offerValues tag offered).map fun value => ⟨idCrypto, value⟩)
      choice = some (choice', none)) (before : choice.matched = none) {place : Nat}
    {crypto : SrtpCrypto} {tag' : Int} (matched : choice'.matched = some (place, crypto, tag')) :
    ∃ own ∈ offered, crypto = ⟨own.key, own.name, 0⟩ ∧
      (offered.find? fun other => pjStricmpEq own.name other.name) = some own ∧
      (setting.findIdx? fun other => pjStricmpEq own.name other.name) = some place ∧
      ∃ number : Nat, tag' = number ∧ 0 < number ∧ number < 2 ^ 31 := by
  induction offered generalizing tag choice with
  | nil =>
    cases chosen
    rw [before] at matched
    cases matched
  | cons first rest ih =>
    have ⟨own, others⟩ := forall_mem_cons.mp keyed
    rw [length_cons] at small
    have ⟨suite, member, name, length⟩ := own
    have parsed : parseAttrCrypto ⟨idCrypto, cryptoText tag first.name (encodeFrom first.key)⟩ =
        .ok (⟨first.key, first.name, 0⟩, (tag : Int)) := by
      rw [name]
      exact parse_cryptoText member length positive (by omega)
    rcases chooseCrypto_cons chosen with ⟨other, _⟩ | ⟨_, _, _, refused, _⟩ |
      ⟨_, crypto₁, tag₁, parsed₁, choice₁, later, matched₁⟩
    · cases other
    · cases refused
    · cases parsed.symm.trans parsed₁
      rw [before, none_or] at matched₁
      cases found : setting.findIdx? fun other => pjStricmpEq first.name other.name with
      | some place₁ =>
        rw [found] at matched₁
        have same := (chooseCrypto_matched later matched₁).symm.trans matched
        cases same
        refine ⟨first, mem_cons_self, rfl, ?_, found, tag, rfl, positive, by omega⟩
        apply find?_cons_of_pos
        exact pjStricmpEq_refl first.name
      | none =>
        rw [found] at matched₁
        have ⟨own, inside, crypto_eq, firstOwn, placeOwn, number⟩ :=
          ih others (Nat.succ_pos tag) (by omega) later matched₁
        refine ⟨own, mem_cons_of_mem _ inside, crypto_eq, ?_, placeOwn, number⟩
        rw [find?_cons_of_neg, firstOwn]
        intro same
        -- A crypto with the name of the first one would not have been matched either.
        have names := name_eq (others own inside).proper (keyed first mem_cons_self).proper same
        rw [names, found] at placeOwn
        cases placeOwn

/-- The first crypto of an offer with a name is the first one of the setting. -/
theorem find_offered {txName : Str} (proper : ProperSetting setting) {own : SrtpCrypto}
    (member : own ∈ offeredCryptos txName setting)
    (first : (offeredCryptos txName setting).find? (fun other => pjStricmpEq own.name other.name) =
      some own) :
    (setting.find? fun other => pjStricmpEq own.name other.name) = some own := by
  have ⟨inside, offered⟩ := mem_filter.mp member
  rw [offeredCryptos, find?_filter] at first
  rw [← first]
  apply find?_congr
  intro other member'
  cases same : pjStricmpEq own.name other.name with
  | false => simp
  | true =>
    have names := name_eq (proper own inside) (proper other member') same
    rw [names] at offered
    exact (decide_eq_true ⟨offered, rfl⟩).symm

/-! ## The three calls -/

variable {lib : Libsrtp}

variable {member : Int}

/-- Nothing is negotiated. -/
def Unkeyed (srtp : TransportSrtp) : Prop := srtp.txPolicyNeg = .zero ∧ srtp.rxPolicyNeg = .zero

section
variable {source : KeySource} (proper : ProperSetting srtp.crypto) (plain : Plain mLoc)
include proper plain

/-- A successful offer: the line is plain, or it offers the cryptos of the setting. -/
theorem offer_cases {offer : SdpMedia}
    (offered : transportEncodeSdp source srtp member mLoc none = some (srtp', offer, pjSuccess)) :
    Unkeyed srtp' ∧ srtp'.offererSide = true ∧
      (Plain offer ∨
        srtp'.keying = true ∧ srtp'.use ≠ .disabled ∧ ProperSetting srtp'.crypto ∧
          SameSuites srtp.crypto srtp'.crypto ∧
          (∀ crypto ∈ offeredCryptos srtp.txPolicy.name srtp'.crypto, crypto.Keyed) ∧
          offer.attr = mLoc.attr ++ (offerValues 1 (offeredCryptos srtp.txPolicy.name srtp'.crypto)).map
            fun value => ⟨idCrypto, value⟩) := by
  have ⟨before, began, ended⟩ := encodeSdp_cases offered
  rcases ended with ⟨same, line, _⟩ | ⟨after, _, active, encoded, ⟨bypass, keying, same, _, kept⟩, done⟩
  · rw [same, line, began]
    exact ⟨⟨rfl, rfl⟩, rfl, .inl plain⟩
  · have proper' : ProperSetting before.crypto := by
      rw [began]
      exact proper
    have result : sdesEncodeOffer source before mLoc = (after, offer, _) := some.inj encoded
    rcases @encodeOffer_cases before mLoc source proper' with
      ⟨line, _, offered, attrs, _⟩ | ⟨setting, transport, offered, properAfter, keyed, suites, able⟩
    · cases offered.symm.trans result
      rw [same, began]
      refine ⟨⟨rfl, rfl⟩, rfl, .inl ?_⟩
      unfold Plain
      rw [attrs]
      exact plain
    · cases offered.symm.trans result
      have active' := kept done.symm able
      rw [same, active']
      rw [began] at *
      exact ⟨⟨rfl, rfl⟩, rfl, .inr ⟨active, able, properAfter, suites, keyed, rfl⟩⟩

/-- A successful answer: nothing is negotiated, or a crypto of the offer with one of the setting. -/
theorem answer_cases {answer : SdpMedia}
    (answered : transportEncodeSdp source srtp member mLoc (some mRem) = some
    (srtp', answer, pjSuccess)) :
    (Unkeyed srtp' ∧ Plain answer) ∨
      ∃ choice place crypto tag key, chooseCrypto srtp.crypto mRem.attr .start = some (choice, none) ∧
        choice.matched = some (place, crypto, tag) ∧ place < srtp.crypto.length ∧
        srtp'.rxPolicyNeg = crypto ∧
        srtp'.txPolicyNeg = { srtp.crypto.getD place .zero with key := key } ∧
        ((srtp.crypto.getD place .zero).name = nullName ∨
          SrtpCrypto.Keyed { srtp.crypto.getD place .zero with key := key } ∧
            answer.attr = mLoc.attr ++
              [⟨idCrypto, cryptoText tag (srtp.crypto.getD place .zero).name (encodeFrom key)⟩]) := by
  have ⟨before, began, ended⟩ := encodeSdp_cases answered
  have setting : before.crypto = srtp.crypto := by
    rw [began]
    rfl
  rcases ended with ⟨same, line, _⟩ | ⟨after, _, _, encoded, ⟨bypass, keying, same, _⟩, done⟩
  · rw [same, line, began]
    exact .inl ⟨⟨rfl, rfl⟩, plain⟩
  · rw [← done] at encoded
    rcases encodeAnswer_cases encoded with ⟨_, unchanged⟩ |
      ⟨choice, place, crypto, tag, chosen, matched, inside, result⟩
    · have ⟨same', attrs⟩ := unchanged rfl
      rw [same, same', began]
      refine .inl ⟨⟨rfl, rfl⟩, ?_⟩
      unfold Plain
      rw [attrs]
      exact plain
    · have proper' : ProperSetting before.crypto := by
        rw [setting]
        exact proper
      have ⟨key, value, generated, keyed⟩ :=
        @answerCrypto_proper { before with rxPolicyNeg := crypto } mLoc mRem source proper' place inside tag
      cases result.trans generated
      rw [← getD_eq inside, setting] at keyed
      rw [setting] at chosen inside
      have tx : srtp'.txPolicyNeg = { srtp.crypto.getD place .zero with key := key } := by
        rw [same, getD_eq inside]
        simp only [setting]
      have rx : srtp'.rxPolicyNeg = crypto := by rw [same]
      refine .inr ⟨choice, place, crypto, tag, key, chosen, matched, inside, rx, tx, ?_⟩
      rcases keyed with ⟨null, _⟩ | ⟨full, text⟩
      · exact .inl null
      · refine .inr ⟨full, ?_⟩
        have some' : value ≠ [] := by
          rw [text]
          simp [cryptoText]
        rw [← text]
        exact if_neg some'

end

/-- The end of a successful start of the keying of an offerer. -/
theorem mediaStart_success (offerer : srtp.offererSide = true)
    (done : sdesMediaStart srtp mLoc mRem = some (srtp', mLoc', pjSuccess)) :
    (srtp.use = .disabled ∧ ∃ peerUse, srtp' = { srtp with peerUse := peerUse }) ∨
      ∃ peerUse locCrypto count hasCryptoAttr,
        readAnswer locCrypto count mRem.attr { srtp with peerUse := peerUse } false =
          (srtp', hasCryptoAttr, none) := by
  unfold sdesMediaStart at done
  dsimp only at done
  generalize (if transportProto mRem.transport = .rtpSavp then SrtpUse.mandatory else .optional) =
    peerUse at done
  split at done
  · cases done
  · split at done
    · rename_i disabled
      split at done
      · cases done
      · cases done
        exact .inl ⟨disabled, peerUse, rfl⟩
    · split at done
      · cases done
      · have ⟨⟨locCrypto, count⟩, _, done⟩ := bind_eq_some_iff.mp done
        split at done
        · rename_i refusal found
          have wrong := readAnswer_refusal locCrypto count mRem.attr _ false (congrArg (·.2.2) found)
          have success : refusal.status = pjSuccess := congrArg (·.2.2) (some.inj done)
          exact absurd success.symm wrong
        · rename_i found
          split at done
          · cases done
          · cases done
            exact .inr ⟨peerUse, locCrypto, count, _, found⟩

/-- A successful start of an offerer: its policies stay, or are those that the loop over the answer
has taken. -/
theorem start_cases (offerer : srtp.offererSide = true)
    (started : transportMediaStart lib srtp member mLoc mRem = some (srtp', mLoc', pjSuccess)) :
    ((srtp.keying = false ∨ srtp.use = .disabled) ∧ srtp'.txPolicyNeg = srtp.txPolicyNeg ∧
        srtp'.rxPolicyNeg = srtp.rxPolicyNeg) ∨
      ∃ peerUse locCrypto count hasCryptoAttr after,
        readAnswer locCrypto count mRem.attr { srtp with started := true, peerUse := peerUse } false =
          (after, hasCryptoAttr, none) ∧
        srtp'.txPolicyNeg = after.txPolicyNeg ∧ srtp'.rxPolicyNeg = after.rxPolicyNeg := by
  rcases transportMediaStart_cases started with ⟨same, idle⟩ | ⟨after, status, _, _, keyed, ended⟩
  · rw [same]
    exact .inl ⟨.inl (idle rfl), rfl, rfl⟩
  · rcases ended with ⟨failed, _, same⟩ | ⟨success, result⟩
    · exact absurd same.symm failed
    · rw [success] at keyed
      have kept := sameSetting_startSrtp lib after
      rw [← result] at kept
      have offerer' : TransportSrtp.offererSide { srtp with started := true } = true := offerer
      rcases mediaStart_success offerer' keyed with ⟨disabled, peerUse, same⟩ |
        ⟨peerUse, locCrypto, count, hasCryptoAttr, found⟩
      · rw [same] at kept
        exact .inl ⟨.inr disabled, kept.tx, kept.rx⟩
      · exact .inr ⟨peerUse, locCrypto, count, hasCryptoAttr, after, found, kept.tx, kept.rx⟩

/-! ## Agreement -/

/-- One of the policies that are negotiated is empty, so that SRTP is started with a bypass. -/
structure Bypasses (srtp : TransportSrtp) : Prop where
  policy : srtpCryptoEmpty srtp.txPolicyNeg = true ∨ srtpCryptoEmpty srtp.rxPolicyNeg = true
  start : ∀ lib, (startSrtp lib srtp).1.bypassSrtp = true

/-- Both ends have the same suite and the same key in each direction. -/
structure KeysAgree (offerer answerer : TransportSrtp) : Prop where
  sentName : offerer.txPolicyNeg.name = answerer.rxPolicyNeg.name
  sentKey : offerer.txPolicyNeg.key = answerer.rxPolicyNeg.key
  receivedName : offerer.rxPolicyNeg.name = answerer.txPolicyNeg.name
  receivedKey : offerer.rxPolicyNeg.key = answerer.txPolicyNeg.key

theorem Unkeyed.bypasses (unkeyed : Unkeyed srtp) : Bypasses srtp := by
  have none : srtpCryptoEmpty srtp.txPolicyNeg = true := by
    rw [unkeyed.1]
    rfl
  refine ⟨.inl none, fun lib => ?_⟩
  unfold startSrtp
  rw [if_pos (by rw [none, Bool.true_or]), stop_bypass]

/-- A plain answer leaves an offerer without policies. -/
theorem unkeyed_plain (unkeyed : Unkeyed srtp) (offerer : srtp.offererSide = true)
    (plain : Plain mRem)
    (started : transportMediaStart lib srtp member mLoc mRem = some (srtp', mLoc', pjSuccess)) :
    Unkeyed srtp' := by
  rcases start_cases offerer started with ⟨_, tx, rx⟩ | ⟨_, _, _, _, after, read, tx, rx⟩
  · exact ⟨tx.trans unkeyed.1, rx.trans unkeyed.2⟩
  · rw [← append_nil mRem.attr, readAnswer_plain plain] at read
    cases read
    exact ⟨tx.trans unkeyed.1, rx.trans unkeyed.2⟩

/-- The policies of an offerer whose crypto has been answered. -/
theorem start_answered (offerer : srtp.offererSide = true) (active : srtp.keying = true)
    (able : srtp.use ≠ .disabled) (plain : ∀ attr ∈ attrs, isCrypto attr = false)
    {suite : CryptoSuite} (inTable : suite ∈ cryptoSuites.tail) {key : Str}
    (length : key.length = suite.cipherKeyLen) {tag : Nat} (positive : 0 < tag)
    (small : tag < 2 ^ 31)
    (answer : mRem.attr = attrs ++ [⟨idCrypto, cryptoText tag suite.name (encodeFrom key)⟩])
    {own : SrtpCrypto}
    (found : (srtp.crypto.find? fun other => pjStricmpEq suite.name other.name) = some own)
    (started : transportMediaStart lib srtp member mLoc mRem = some (srtp', mLoc', pjSuccess)) :
    srtp'.txPolicyNeg = own ∧ srtp'.rxPolicyNeg = ⟨key, suite.name, 0⟩ := by
  rcases start_cases offerer started with ⟨idle, _⟩ | ⟨peerUse, loc, count, has, after, read, tx, rx⟩
  · rcases idle with idle | disabled
    · rw [active] at idle
      cases idle
    · exact absurd disabled able
  · rw [answer, readAnswer_plain plain, readAnswer, isCrypto_own,
      parse_cryptoText inTable length positive small] at read
    simp only [not_true_eq_false, if_false, Bool.false_eq_true] at read
    split at read
    · cases read
    · cases read
      rw [tx, rx]
      refine ⟨?_, rfl⟩
      change (srtp.crypto.find? fun other => pjStricmpEq suite.name other.name).getD _ = _
      rw [found]
      rfl

/-- An offer and its answer between two transports in any states that they reach, which are those of a
first offer and of every later one from either side: if the three calls succeed, either both ends
bypass SRTP, or they have the same suites and keys. -/
theorem sdes_keysAgree {optA optB : SrtpSetting} {startA startB a b a₁ a₂ b₁ : TransportSrtp}
    (createdA : pjmediaTransportSrtpCreate optA = .ok startA)
    (createdB : pjmediaTransportSrtpCreate optB = .ok startB)
    (reachedA : Run.Reaches next (some startA) (some a))
    (reachedB : Run.Reaches next (some startB) (some b))
    {sourceA sourceB : KeySource} {memberA memberB memberStart : Int} {lib : Libsrtp}
    {mLocA mLocB offer answer mLoc : SdpMedia} (plainA : Plain mLocA) (plainB : Plain mLocB)
    (offered : transportEncodeSdp sourceA a memberA mLocA none = some (a₁, offer, pjSuccess))
    (answered : transportEncodeSdp sourceB b memberB mLocB (some offer) = some (b₁, answer, pjSuccess))
    (started : transportMediaStart lib a₁ memberStart offer answer = some (a₂, mLoc, pjSuccess)) :
    (Bypasses a₂ ∧ Bypasses b₁) ∨ KeysAgree a₂ b₁ := by
  have settledA := settled_reaches createdA reachedA
  have settledB := settled_reaches createdB reachedB
  have ⟨unkeyed, offerer, line⟩ := offer_cases settledA.proper plainA offered
  rcases answer_cases settledB.proper plainB answered with ⟨unkeyedB, plain⟩ |
    ⟨choice, place, crypto, tag, key, chosen, matched, inside, rx, tx, full⟩
  · exact .inl ⟨(unkeyed_plain unkeyed offerer plain started).bypasses, unkeyedB.bypasses⟩
  · right
    rcases line with plain | ⟨active, able, properA, suites, keyed, attrs⟩
    · -- There is no match in a plain offer.
      rw [← append_nil offer.attr, chooseCrypto_plain plain] at chosen
      cases chosen
      cases matched
    · rw [attrs, chooseCrypto_plain plainA] at chosen
      have few : (offeredCryptos a.txPolicy.name a₁.crypto).length ≤ maxCryptos := by
        apply Nat.le_trans (length_filter_le _ _)
        rw [suites.length]
        exact settledA.few
      have small : 1 + (offeredCryptos a.txPolicy.name a₁.crypto).length < 2 ^ 31 := by
        unfold maxCryptos at few
        omega
      have ⟨own, member, crypto_eq, first, found, number, tag_eq, positive, number_lt⟩ :=
        chooseCrypto_offer keyed Nat.one_pos small chosen rfl matched
      have firstOwn := find_offered properA member first
      have ownKeyed := keyed own member
      have ⟨here, sameName, _⟩ := findIdx?_eq_some_iff_getElem.mp found
      rw [← getD_eq here] at sameName
      have inB : (b.crypto.getD place .zero).Proper := by
        rw [getD_eq here]
        exact settledB.proper _ (getElem_mem here)
      have names := name_eq ownKeyed.proper inB sameName
      rcases full with null | ⟨⟨suite, inTable, name, length⟩, answerAttrs⟩
      · exact absurd (names.trans null) ownKeyed.name_ne
      · rw [name, tag_eq] at answerAttrs
        rw [names, name] at firstOwn
        have ⟨txA, rxA⟩ := start_answered offerer active able plainB inTable length positive
          number_lt answerAttrs firstOwn started
        refine ⟨?_, ?_, ?_, ?_⟩
        · rw [txA, rx, crypto_eq]
        · rw [txA, rx, crypto_eq]
        · rw [rxA, tx]
          exact name.symm
        · rw [rxA, tx]

/-- A generator whose keys have one letter. -/
def letterSource (letter : UInt8) (nonzero : letter ≠ 0) : KeySource where
  key _ length := List.replicate length letter
  length_key _ _ := length_replicate
  nonzero _ _ member := nonzero (eq_of_mem_replicate member).symm

/-- A library whose functions succeed and leave the packets as they are. -/
def plainLibsrtp : Libsrtp where
  create _ := srtpErrStatusOk
  protect pkt := (srtpErrStatusOk, pkt)
  protectRtcp pkt := (srtpErrStatusOk, pkt)
  unprotect _ pkt := (srtpErrStatusOk, pkt)
  unprotectRtcp pkt := (srtpErrStatusOk, pkt)

/-- A line of audio. -/
def audioLine : SdpMedia where
  media := ofChars "audio".toList
  port := 4000
  portCount := 1
  transport := idRtpAvp
  fmt := [[48]]
  conn := none
  bandw := []
  attr := []

/-- A setting with one suite. -/
def oneSuite (use : SrtpUse) : SrtpSetting where
  use := use
  crypto := [⟨[], ofChars "AES_CM_128_HMAC_SHA1_80".toList, 0⟩]
  fits := by decide

/-- A setting with two suites, the second one with a key. -/
def twoSuites : SrtpSetting where
  use := .optional
  crypto := [⟨[], ofChars "AES_256_CM_HMAC_SHA1_80".toList, 0⟩,
    ⟨List.replicate 30 75, ofChars "AES_CM_128_HMAC_SHA1_80".toList, 0⟩]
  fits := by decide

set_option maxRecDepth 10000 in
theorem sdes_keysAgree_sample : ∃ offerer answerer : TransportSrtp,
    srtpCryptoEmpty offerer.txPolicyNeg = false ∧
      ((Bypasses offerer ∧ Bypasses answerer) ∨ KeysAgree offerer answerer) := by
  have call : ∃ start srtp offered offer answering srtp' answerer answer end' mLoc,
      pjmediaTransportSrtpCreate (oneSuite .optional) = .ok start ∧
      next (some start) (.mediaCreate 0 none) = some srtp ∧
      transportEncodeSdp (letterSource 65 (by decide)) srtp 0 audioLine none =
        some (offered, offer, pjSuccess) ∧
      pjmediaTransportSrtpCreate twoSuites = .ok answering ∧
      next (some answering) (.mediaCreate 0 (some audioLine)) = some srtp' ∧
      transportEncodeSdp (letterSource 66 (by decide)) srtp' 0 audioLine (some offer) =
        some (answerer, answer, pjSuccess) ∧
      transportMediaStart plainLibsrtp offered 0 offer answer = some (end', mLoc, pjSuccess) ∧
      srtpCryptoEmpty end'.txPolicyNeg = false :=
    ⟨_, _, _, _, _, _, _, _, _, _, rfl, rfl, rfl, rfl, rfl, rfl, rfl, rfl⟩
  obtain ⟨start, srtp, offered, offer, answering, srtp', answerer, answer, end', mLoc, created, made,
    called, created', made', answered, started, full⟩ := call
  have plain : Plain audioLine := forall_mem_nil _
  refine ⟨end', answerer, full, ?_⟩
  exact sdes_keysAgree created created' ⟨[.mediaCreate 0 none], made⟩
    ⟨[.mediaCreate 0 (some audioLine)], made'⟩ plain plain called answered started

/-- Whatever is called or received, a transport keeps the use, the suites and the flags that it was
created with, and every key that it puts into its setting has the length of its suite. -/
theorem setting_lasts {opt : SrtpSetting} {srtp srtp' : TransportSrtp}
    (created : pjmediaTransportSrtpCreate opt = .ok srtp)
    (reached : Run.Reaches next (some srtp) (some srtp')) : Lasting srtp srtp' := by
  have kept : ∀ (state : Option TransportSrtp) (event : Event), (∀ now ∈ state, Lasting srtp now) →
      ∀ now ∈ next state event, Lasting srtp now := by
    intro state event before now member
    have ⟨old, here, done⟩ := bind_eq_some_iff.mp member
    have lasting := before old here
    have step := lasting_step lasting.proper done
    exact ⟨step.use.trans lasting.use, step.proper, step.suites.1.trans lasting.suites.1,
      step.suites.2.trans lasting.suites.2⟩
  have start : ∀ now ∈ some srtp, Lasting srtp now := by
    intro now member
    cases member
    exact ⟨rfl, proper_create created, sameSuites_refl _⟩
  have always := reached.of_always fun events => Run.always_of_forall kept start
  exact always srtp' rfl

set_option maxRecDepth 10000 in
theorem setting_lasts_offer : ∃ srtp offered, pjmediaTransportSrtpCreate twoSuites = .ok srtp ∧
    next (some srtp) (.encodeSdp (letterSource 65 (by decide)) 0 audioLine none) = some offered ∧
    Lasting srtp offered :=
  ⟨_, _, rfl, rfl, @setting_lasts twoSuites _ _ rfl
    ⟨[.encodeSdp (letterSource 65 (by decide)) 0 audioLine none], rfl⟩⟩

end Pjmedia.Srtp
