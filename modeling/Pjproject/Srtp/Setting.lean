import Pjproject.Lib.Run
import Pjproject.Srtp.Transport

/-!
# The cryptos of a transport

Each crypto of a transport is one of the table, with a key of its length or none. What happens to the
transport keeps it so: a key is only put where there was none.
-/

namespace Pjmedia.Srtp
open Option List Pj Pj.Base64 Pjmedia.Sdp Pjnath.Stun

/-- A crypto with a suite of the table, and a key of its length or none. -/
def SrtpCrypto.Proper (crypto : SrtpCrypto) : Prop :=
  ∃ suite ∈ cryptoSuites, crypto.name = suite.name ∧
    (crypto.key = [] ∨ crypto.key.length = suite.cipherKeyLen)

/-- A crypto with a suite that ciphers, and a key. -/
def SrtpCrypto.Keyed (crypto : SrtpCrypto) : Prop :=
  ∃ suite ∈ cryptoSuites.tail, crypto.name = suite.name ∧ crypto.key.length = suite.cipherKeyLen

/-- The name `NULL`. -/
def nullName : Str := (cryptoSuite 0).name

/-! ## The table -/

variable {suite : CryptoSuite}

variable {crypto : SrtpCrypto}

theorem getCryptoIdx_suite (member : suite ∈ cryptoSuites) :
    ∃ idx, getCryptoIdx suite.name = some idx ∧ cryptoSuite idx = suite ∧
      (idx = 0 ↔ suite.name = nullName) := by
  have each : ∀ suite ∈ cryptoSuites, ∃ idx ∈ List.range 5, getCryptoIdx suite.name = some idx ∧
      cryptoSuite idx = suite ∧ (idx = 0 ↔ suite.name = nullName) := by decide
  have ⟨idx, _, found⟩ := each suite member
  exact ⟨idx, found⟩

/-- The index of a name is that of the name in the table. -/
theorem getCryptoIdx_some {name : Str} {idx : Nat} (found : getCryptoIdx name = some idx) :
    cryptoSuite idx ∈ cryptoSuites ∧ getCryptoIdx (cryptoSuite idx).name = some idx := by
  have small : idx < 5 := by
    rw [getCryptoIdx] at found
    split at found
    · cases found
      decide
    · exact (findIdx?_eq_some_iff_getElem.mp found).1
  have each : ∀ idx < 5, cryptoSuite idx ∈ cryptoSuites ∧
      getCryptoIdx (cryptoSuite idx).name = some idx := by decide
  exact each idx small

/-- The names of two suites that differ by the case of letters only are equal. -/
theorem name_eq {one other : SrtpCrypto} (proper : one.Proper) (proper' : other.Proper)
    (same : pjStricmpEq one.name other.name = true) : one.name = other.name := by
  have ⟨suite, member, name, _⟩ := proper
  have ⟨suite', member', name', _⟩ := proper'
  have each : ∀ suite ∈ cryptoSuites, ∀ suite' ∈ cryptoSuites,
      pjStricmpEq suite.name suite'.name = true → suite.name = suite'.name := by decide
  rw [name, name'] at same ⊢
  exact each suite member suite' member' same

theorem SrtpCrypto.Keyed.proper (keyed : crypto.Keyed) : crypto.Proper := by
  have ⟨suite, member, name, length⟩ := keyed
  exact ⟨suite, mem_of_mem_tail member, name, .inr length⟩

/-- The suites behind the first one are those with another name. -/
theorem mem_tail_of_ne (member : suite ∈ cryptoSuites) (ciphers : suite.name ≠ nullName) :
    suite ∈ cryptoSuites.tail := by
  have each : ∀ suite ∈ cryptoSuites, suite.name ≠ nullName → suite ∈ cryptoSuites.tail := by decide
  exact each suite member ciphers

theorem SrtpCrypto.Keyed.name_ne (keyed : crypto.Keyed) :
    crypto.name ≠ nullName := by
  have ⟨suite, member, name, _⟩ := keyed
  have each : ∀ suite ∈ cryptoSuites.tail, suite.name ≠ nullName := by decide
  rw [name]
  exact each suite member

/-! ## Generating -/

theorem length_utoaDigits (fuel val : Nat) : (utoaDigits fuel val).length ≤ fuel := by
  induction fuel generalizing val with
  | zero => exact Nat.le_refl 0
  | succ fuel ih =>
    rw [utoaDigits, length_cons]
    split
    · exact Nat.succ_le_succ (Nat.zero_le fuel)
    · exact Nat.succ_le_succ (ih _)

theorem length_printTag (tag : Int) : (printTag tag).length ≤ 21 := by
  have few : ∀ val, (pjUtoa val).length ≤ 20 := by
    intro val
    rw [pjUtoa, length_reverse, length_map]
    exact length_utoaDigits 20 val
  unfold printTag
  split
  · exact Nat.succ_le_succ (few _)
  · exact Nat.le_succ_of_le (few _)

/-- A suite that ciphers gets an attribute with its key, and `NULL` gets none. -/
theorem SrtpCrypto.Proper.generate (proper : crypto.Proper) (source : KeySource) (place : Nat)
    (tag : Int) :
    (crypto.name = nullName ∧ generateCryptoAttrValue source place crypto tag = (crypto, .ok [])) ∨
      ∃ key, SrtpCrypto.Keyed { crypto with key := key } ∧
        generateCryptoAttrValue source place crypto tag =
          ({ crypto with key := key }, .ok (cryptoText tag crypto.name (encodeFrom key))) := by
  have ⟨suite, member, name, key⟩ := proper
  have ⟨idx, found, entry, null⟩ := getCryptoIdx_suite member
  rw [← name] at found null
  cases idx with
  | zero =>
    left
    refine ⟨null.mp rfl, ?_⟩
    unfold generateCryptoAttrValue
    rw [found]
    rfl
  | succ idx =>
    have ciphers : crypto.name ≠ nullName := fun same => Nat.succ_ne_zero idx (null.mpr same)
    have tail : suite ∈ cryptoSuites.tail := by
      rw [name] at ciphers
      exact mem_tail_of_ne member ciphers
    have short := (suite_name tail).2.2.1
    let full := if crypto.key = [] then source.key place suite.cipherKeyLen else crypto.key
    have length : full.length = suite.cipherKeyLen := by
      unfold full
      split
      · exact source.length_key place _
      · exact key.resolve_left ‹_›
    have nameShort : suite.name.length ≤ 23 := by
      have each : ∀ suite ∈ cryptoSuites, suite.name.length ≤ 23 := by decide
      exact each suite member
    have textLength := length_encodeFrom full
    have tagLength := length_printTag tag
    have encoded : pjBase64Encode full (pjBase256ToBase64Len maxKeyLen + 1) =
        some (encodeFrom full, ((encodeFrom full).length : Int)) := by
      have fits := pjBase256ToBase64Len_le full.length
      have room : pjBase256ToBase64Len (maxKeyLen : Nat) + 1 = 174 := by decide
      rw [pjBase64Encode, room, if_pos (by omega), i32_natCast (by omega)]
    have valueLength : (cryptoText tag suite.name (encodeFrom full)).length < 512 := by
      have inline : (ofChars "inline:".toList).length = 7 := rfl
      simp only [cryptoText, length_append, length_singleton, inline]
      omega
    right
    refine ⟨full, ⟨suite, tail, name, length⟩, ?_⟩
    have whole : (if crypto.key = [] then { crypto with key := source.key place suite.cipherKeyLen }
        else crypto) = { crypto with key := full } := by
      unfold full
      split
      · rfl
      · rfl
    unfold generateCryptoAttrValue
    rw [found]
    simp only [entry, whole]
    rw [if_neg (not_not_intro length), encoded]
    simp only
    rw [if_neg (by rw [name]; omega), if_neg (Nat.not_le.mpr valueLength), name]

/-! ## Offering -/

variable {setting : List SrtpCrypto}

/-- The cryptos of an offer: those of the active suite, if there is one, without `NULL`. -/
def offeredCryptos (txName : Str) (setting : List SrtpCrypto) : List SrtpCrypto :=
  setting.filter fun crypto =>
    (txName = [] || pjStricmpEq txName crypto.name) && crypto.name ≠ nullName

/-- The values of their attributes. -/
def offerValues : Int → List SrtpCrypto → List Str
  | _, [] => []
  | tag, crypto :: rest =>
    cryptoText tag crypto.name (encodeFrom crypto.key) :: offerValues (tag + 1) rest

/-- Two settings with the same suites. -/
def SameSuites (before after : List SrtpCrypto) : Prop :=
  after.map SrtpCrypto.name = before.map SrtpCrypto.name ∧
    after.map SrtpCrypto.flags = before.map SrtpCrypto.flags

/-- An offer has the attributes of its cryptos, which then have keys. -/
theorem offerCrypto_proper (source : KeySource) (txName : Str)
    (proper : ∀ crypto ∈ setting, crypto.Proper) (place : Nat) (tag : Int) :
    ∃ after, offerCrypto source txName place tag setting =
        (after, offerValues tag (offeredCryptos txName after), pjSuccess) ∧
      (∀ crypto ∈ after, crypto.Proper) ∧
      (∀ crypto ∈ offeredCryptos txName after, crypto.Keyed) ∧ SameSuites setting after := by
  induction setting generalizing place tag with
  | nil => exact ⟨[], rfl, forall_mem_nil _, forall_mem_nil _, rfl, rfl⟩
  | cons crypto rest ih =>
    have own := proper crypto mem_cons_self
    have others := ih fun other member => proper other (mem_cons_of_mem _ member)
    rw [offerCrypto]
    by_cases skipped : txName ≠ [] ∧ ¬pjStricmpEq txName crypto.name
    · have ⟨after, offered, properAfter, keyed, names, flags⟩ := others (place + 1) tag
      have left : offeredCryptos txName (crypto :: after) = offeredCryptos txName after := by
        apply filter_cons_of_neg
        simp [skipped.1, skipped.2]
      rw [if_pos skipped, offered]
      refine ⟨crypto :: after, ?_, ?_, ?_, ?_, ?_⟩
      · rw [left]
      · exact forall_mem_cons.mpr ⟨own, properAfter⟩
      · rw [left]
        exact keyed
      · exact congrArg (crypto.name :: ·) names
      · exact congrArg (crypto.flags :: ·) flags
    · have wanted : (decide (txName = []) || pjStricmpEq txName crypto.name) = true := by
        by_contra unwanted
        apply skipped
        simpa using unwanted
      rw [if_neg skipped]
      rcases own.generate source place tag with ⟨null, generated⟩ | ⟨key, full, generated⟩
      · have ⟨after, offered, properAfter, keyed, names, flags⟩ := others (place + 1) tag
        have left : offeredCryptos txName (crypto :: after) = offeredCryptos txName after := by
          apply filter_cons_of_neg
          simp [null]
        rw [generated]
        simp only [if_true, offered]
        refine ⟨crypto :: after, ?_, ?_, ?_, ?_, ?_⟩
        · rw [left]
        · exact forall_mem_cons.mpr ⟨own, properAfter⟩
        · rw [left]
          exact keyed
        · exact congrArg (crypto.name :: ·) names
        · exact congrArg (crypto.flags :: ·) flags
      · have ⟨after, offered, properAfter, keyed, names, flags⟩ := others (place + 1) (tag + 1)
        have ciphers : crypto.name ≠ nullName := full.name_ne
        have text : cryptoText tag crypto.name (encodeFrom key) ≠ [] := by
          simp [cryptoText]
        have taken : offeredCryptos txName ({ crypto with key := key } :: after) =
            { crypto with key := key } :: offeredCryptos txName after := by
          apply filter_cons_of_pos
          rw [Bool.and_eq_true]
          exact ⟨wanted, decide_eq_true ciphers⟩
        rw [generated]
        simp only [if_neg text, offered]
        refine ⟨{ crypto with key := key } :: after, ?_, ?_, ?_, ?_, ?_⟩
        · rw [taken, offerValues]
        · exact forall_mem_cons.mpr ⟨full.proper, properAfter⟩
        · rw [taken]
          exact forall_mem_cons.mpr ⟨full, keyed⟩
        · exact congrArg (crypto.name :: ·) names
        · exact congrArg (crypto.flags :: ·) flags

/-! ## What changes the setting -/

variable {refusal : Option Refusal}

variable {source : KeySource}

/-- All cryptos of a setting are proper. -/
def ProperSetting (setting : List SrtpCrypto) : Prop := ∀ crypto ∈ setting, crypto.Proper

/-- What the keying leaves of a transport: it puts keys into the setting, and takes a policy from it. -/
structure Keying (srtp srtp' : TransportSrtp) : Prop where
  use : srtp'.use = srtp.use
  bypass : srtp'.bypassSrtp = srtp.bypassSrtp
  session : srtp'.sessionInited = srtp.sessionInited
  txPolicy : srtp'.txPolicy = srtp.txPolicy
  proper : ProperSetting srtp'.crypto
  suites : SameSuites srtp.crypto srtp'.crypto
  txNeg : srtp'.txPolicyNeg = srtp.txPolicyNeg ∨ srtp'.txPolicyNeg ∈ srtp'.crypto

theorem sameSuites_refl (setting : List SrtpCrypto) : SameSuites setting setting := ⟨rfl, rfl⟩

theorem keying_refl {srtp : TransportSrtp} (proper : ProperSetting srtp.crypto) : Keying srtp srtp :=
  ⟨rfl, rfl, rfl, rfl, proper, sameSuites_refl _, .inl rfl⟩

variable {srtp srtp' : TransportSrtp} {mLoc mLoc' mRem : SdpMedia} {status : Int}

/-- An offerer leaves its setting and the attributes as they are, or offers its cryptos. -/
theorem encodeOffer_cases (source : KeySource) (proper : ProperSetting srtp.crypto) :
    (∃ mLoc' status, sdesEncodeOffer source srtp mLoc = (srtp, mLoc', status) ∧
      mLoc'.attr = mLoc.attr ∧
      (status = pjSuccess → srtp.use = .disabled ∨ hasAttr mLoc idCrypto = true)) ∨
    ∃ after transport, sdesEncodeOffer source srtp mLoc =
        ({ srtp with crypto := after },
          { mLoc with
            transport := transport
            attr := mLoc.attr ++ (offerValues 1 (offeredCryptos srtp.txPolicy.name after)).map
              fun value => ⟨idCrypto, value⟩ }, pjSuccess) ∧
      ProperSetting after ∧ (∀ crypto ∈ offeredCryptos srtp.txPolicy.name after, crypto.Keyed) ∧
      SameSuites srtp.crypto after ∧ srtp.use ≠ .disabled := by
  unfold sdesEncodeOffer
  by_cases proto : transportProto mLoc.transport = .other
  · rw [if_pos proto]
    exact .inl ⟨mLoc, _, rfl, rfl, fun success => absurd success (by decide)⟩
  · rw [if_neg proto]
    by_cases disabled : srtp.use = .disabled
    · rw [if_pos disabled]
      exact .inl ⟨mLoc, _, rfl, rfl, fun _ => .inl disabled⟩
    · rw [if_neg disabled]
      dsimp only
      generalize (if srtp.use = .mandatory ∨ srtp.peerUse = .mandatory then idRtpSavp else idRtpAvp) =
        transport
      by_cases has : hasAttr { mLoc with transport := transport } idCrypto = true
      · rw [if_pos has]
        exact .inl ⟨_, _, rfl, rfl, fun _ => .inr has⟩
      · rw [if_neg has]
        have ⟨after, offered, properAfter, keyed, same⟩ :=
          offerCrypto_proper source srtp.txPolicy.name proper 0 1
        rw [offered]
        exact .inr ⟨after, transport, rfl, properAfter, keyed, same, disabled⟩

theorem keying_encodeOffer (source : KeySource) (proper : ProperSetting srtp.crypto) :
    Keying srtp (sdesEncodeOffer source srtp mLoc).1 := by
  have cases := @encodeOffer_cases _ mLoc source proper
  rcases cases with ⟨_, _, result, _⟩ | ⟨after, _, result, properAfter, _, same, _⟩
  · rw [result]
    exact keying_refl proper
  · rw [result]
    exact ⟨rfl, rfl, rfl, rfl, properAfter, same, .inl rfl⟩

/-- The errors of an attribute. -/
theorem parseAttrCrypto_error {attr : SdpAttr} (failed : parseAttrCrypto attr = .error status) :
    status ≠ pjSuccess := by
  have key : ∀ token, parseKey token = .error status → status ≠ pjSuccess := by
    intro token failed
    rw [parseKey] at failed
    split at failed
    · cases failed
      decide
    · split at failed
      · cases failed
        decide
      · cases failed
  unfold parseAttrCrypto at failed
  dsimp only at failed
  split at failed
  · cases failed
    decide
  · split at failed
    · cases failed
      decide
    · split at failed
      · cases failed
        decide
      · split at failed
        · cases failed
          decide
        · split at failed
          · cases failed
            decide
          · split at failed
            · cases failed
              decide
            · split at failed
              · cases failed
                decide
              · cases parsed : parseKey _ with
                | error other =>
                  rw [parsed] at failed
                  cases failed
                  exact key _ parsed
                | ok found =>
                  rw [parsed] at failed
                  cases failed

/-- One turn of the loop over an offer: an attribute of another kind, a refusal, or a crypto, which is
the match if there was none and the setting has its suite. -/
theorem chooseCrypto_cons {attr : SdpAttr} {rest : List SdpAttr} {choice choice' : Choice}
    (chosen : chooseCrypto setting (attr :: rest) choice = some (choice', refusal)) :
    (isCrypto attr = false ∧ chooseCrypto setting rest choice = some (choice', refusal)) ∨
    (isCrypto attr = true ∧ choice'.matched = choice.matched ∧
      ∃ reason, refusal = some reason ∧ reason.status ≠ pjSuccess) ∨
    (isCrypto attr = true ∧ ∃ crypto tag, parseAttrCrypto attr = .ok (crypto, tag) ∧
      ∃ choice₁, chooseCrypto setting rest choice₁ = some (choice', refusal) ∧
        choice₁.matched = choice.matched.or ((setting.findIdx? fun other =>
          pjStricmpEq crypto.name other.name).map fun place => (place, crypto, tag))) := by
  rw [chooseCrypto] at chosen
  by_cases other : ¬isCrypto attr
  · rw [if_pos other] at chosen
    exact .inl ⟨by simpa using other, chosen⟩
  · have own : isCrypto attr = true := not_not.mp other
    rw [if_neg other] at chosen
    right
    split at chosen
    · cases chosen
    · dsimp only at chosen
      split at chosen
      · rename_i status failed
        cases chosen
        exact .inl ⟨own, rfl, _, rfl, parseAttrCrypto_error failed⟩
      · rename_i crypto tag parsed
        split at chosen
        · cases chosen
          exact .inl ⟨own, rfl, _, rfl, by decide⟩
        · split at chosen
          · rename_i place none found
            split at chosen
            · cases chosen
              exact .inl ⟨own, rfl, _, rfl, by decide⟩
            · split at chosen
              · cases chosen
                exact .inl ⟨own, rfl, _, rfl, by decide⟩
              · refine .inr ⟨own, crypto, tag, parsed, _, chosen, ?_⟩
                rw [none, found]
                rfl
          · rename_i unmatched
            refine .inr ⟨own, crypto, tag, parsed, _, chosen, ?_⟩
            cases before : choice.matched with
            | some matched => rfl
            | none =>
              cases found : setting.findIdx? fun other => pjStricmpEq crypto.name other.name with
              | none => rfl
              | some place => exact absurd found (unmatched place before)

/-- A crypto that is matched has a place in the setting, and a refusal is an error. -/
theorem chooseCrypto_place {attrs : List SdpAttr} {choice choice' : Choice}
    (chosen : chooseCrypto setting attrs choice = some (choice', refusal))
    (before : ∀ matched ∈ choice.matched, matched.1 < setting.length) :
    (∀ matched ∈ choice'.matched, matched.1 < setting.length) ∧
      ∀ reason ∈ refusal, reason.status ≠ pjSuccess := by
  induction attrs generalizing choice with
  | nil =>
    cases chosen
    exact ⟨before, fun _ none => nomatch none⟩
  | cons attr rest ih =>
    rcases chooseCrypto_cons chosen with ⟨_, later⟩ | ⟨_, same, reason, refused, wrong⟩ |
      ⟨_, crypto, tag, _, choice₁, later, matched₁⟩
    · exact ih later before
    · rw [same, refused]
      refine ⟨before, ?_⟩
      intro other member
      cases member
      exact wrong
    · apply ih later
      intro matched member
      rw [matched₁] at member
      cases held : choice.matched with
      | some old =>
        rw [held] at member
        exact before matched (held.trans member)
      | none =>
        rw [held] at member
        have ⟨place, found, same⟩ := map_eq_some_iff.mp member
        rw [← same]
        exact (findIdx?_eq_some_iff_getElem.mp found).1

theorem getD_eq {place : Nat} (inside : place < setting.length) :
    setting.getD place .zero = setting[place] := by
  rw [getD_eq_getElem?_getD, getElem?_eq_getElem inside, getD_some]

/-- A key is put into a place of the setting. -/
theorem sameSuites_set {place : Nat} (inside : place < setting.length) (key : Str) :
    SameSuites setting (setting.set place { setting.getD place .zero with key := key }) := by
  rw [getD_eq inside]
  constructor
  · rw [map_set]
    apply ext_getElem (by simp)
    intro other _ _
    rw [getElem_set]
    split
    · rename_i same
      subst same
      simp
    · rfl
  · rw [map_set]
    apply ext_getElem (by simp)
    intro other _ _
    rw [getElem_set]
    split
    · rename_i same
      subst same
      simp
    · rfl

theorem properSetting_set (proper : ProperSetting setting) (place : Nat) (own : crypto.Proper) :
    ProperSetting (setting.set place crypto) := by
  intro other member
  rcases mem_or_eq_of_mem_set member with before | now
  · exact proper other before
  · rw [now]
    exact own

/-- An answer with the crypto of a place. -/
theorem answerCrypto_proper (source : KeySource) (proper : ProperSetting srtp.crypto) {place : Nat}
    (inside : place < srtp.crypto.length) (tag : Int) :
    ∃ key value, (answerCrypto source srtp mLoc mRem place tag) =
        ({ srtp with
            crypto := srtp.crypto.set place { srtp.crypto[place] with key := key }
            txPolicyNeg := { srtp.crypto[place] with key := key } },
          { mLoc with
            attr := if value = [] then mLoc.attr else mLoc.attr ++ [⟨idCrypto, value⟩]
            transport := mRem.transport }, pjSuccess) ∧
      ((srtp.crypto[place].name = nullName ∧ srtp.crypto[place].key = key ∧ value = []) ∨
        (SrtpCrypto.Keyed { srtp.crypto[place] with key := key } ∧
          value = cryptoText tag srtp.crypto[place].name (encodeFrom key))) := by
  have own := proper srtp.crypto[place] (getElem_mem inside)
  unfold answerCrypto
  rw [getD_eq inside]
  rcases own.generate source place tag with ⟨null, generated⟩ | ⟨key, full, generated⟩
  · simp only [generated]
    exact ⟨srtp.crypto[place].key, [], rfl, .inl ⟨null, rfl, rfl⟩⟩
  · simp only [generated]
    exact ⟨key, _, rfl, .inr ⟨full, rfl⟩⟩

/-- An answerer leaves its setting as it is, and on success its policies and the attributes too, or
answers with the crypto that it has chosen. -/
theorem encodeAnswer_cases
    (done : sdesEncodeAnswer source srtp mLoc mRem = some (srtp', mLoc', status)) :
    ((∃ rxPolicyNeg, srtp' = { srtp with rxPolicyNeg := rxPolicyNeg }) ∧
      (status = pjSuccess → srtp' = srtp ∧ mLoc'.attr = mLoc.attr)) ∨
    ∃ choice place crypto tag, chooseCrypto srtp.crypto mRem.attr .start = some (choice, none) ∧
      choice.matched = some (place, crypto, tag) ∧ place < srtp.crypto.length ∧
      (srtp', mLoc', status) =
        answerCrypto source { srtp with rxPolicyNeg := crypto } mLoc mRem place tag := by
  unfold sdesEncodeAnswer at done
  dsimp only at done
  split at done
  · cases done
    exact .inl ⟨⟨_, rfl⟩, fun _ => ⟨rfl, rfl⟩⟩
  · split at done
    · cases done
      exact .inl ⟨⟨_, rfl⟩, fun _ => ⟨rfl, rfl⟩⟩
    · split at done
      · cases done
        exact .inl ⟨⟨_, rfl⟩, fun _ => ⟨rfl, rfl⟩⟩
      · split at done
        · cases done
          exact .inl ⟨⟨_, rfl⟩, fun _ => ⟨rfl, rfl⟩⟩
        · have ⟨⟨choice, refusal⟩, chosen, done⟩ := bind_eq_some_iff.mp done
          have ⟨place, wrong⟩ := chooseCrypto_place chosen fun _ none => nomatch none
          cases refusal with
          | some reason =>
            cases done
            refine .inl ⟨⟨_, rfl⟩, fun success => ?_⟩
            exact absurd success (wrong reason rfl)
          | none =>
            cases matched : choice.matched with
            | some found =>
              have ⟨at', crypto, tag⟩ := found
              rw [matched] at done
              exact .inr ⟨choice, at', crypto, tag, chosen, matched, place _ matched,
                (some.inj done).symm⟩
            | none =>
              rw [matched] at done
              dsimp only at done
              split at done
              · cases done
                exact .inl ⟨⟨_, rfl⟩, fun _ => ⟨rfl, rfl⟩⟩
              · cases done
                refine .inl ⟨⟨_, rfl⟩, fun success => ?_⟩
                split at success
                · exact absurd success (by decide)
                · exact absurd success (by decide)

theorem keying_encodeAnswer (proper : ProperSetting srtp.crypto)
    (done : sdesEncodeAnswer source srtp mLoc mRem = some (srtp', mLoc', status)) :
    Keying srtp srtp' := by
  rcases encodeAnswer_cases done with ⟨⟨_, same⟩, _⟩ | ⟨_, place, crypto, tag, _, _, inside, answered⟩
  · rw [same]
    exact ⟨rfl, rfl, rfl, rfl, proper, sameSuites_refl _, .inl rfl⟩
  · have ⟨key, value, result, keyed⟩ := @answerCrypto_proper { srtp with rxPolicyNeg := crypto }
      mLoc mRem
      source proper _ inside tag
    rw [result] at answered
    have same : srtp' = _ := congrArg Prod.fst answered
    have own : SrtpCrypto.Proper { srtp.crypto[place] with key := key } := by
      rcases keyed with ⟨_, old, _⟩ | ⟨full, _⟩
      · rw [← old]
        exact proper _ (getElem_mem inside)
      · exact full.proper
    have suites := sameSuites_set inside key
    rw [getD_eq inside] at suites
    rw [same]
    refine ⟨rfl, rfl, rfl, rfl, properSetting_set proper place own, suites, .inr ?_⟩
    exact mem_set inside _

/-- A refusal of an answer is an error. -/
theorem readAnswer_refusal (locCrypto : List SrtpCrypto) (count : Int) (attrs : List SdpAttr)
    (srtp : TransportSrtp) (hasCryptoAttr : Bool) {refusal : Refusal}
    (refused : (readAnswer locCrypto count attrs srtp hasCryptoAttr).2.2 = some refusal) :
    pjSuccess ≠ refusal.status := by
  induction attrs generalizing srtp hasCryptoAttr with
  | nil => cases refused
  | cons attr rest ih =>
    rw [readAnswer] at refused
    split at refused
    · exact ih srtp hasCryptoAttr refused
    · split at refused
      · cases refused
        decide
      · split at refused
        · rename_i status failed
          cases refused
          exact (parseAttrCrypto_error failed).symm
        · rename_i crypto tag _
          split at refused
          · rename_i reason wrong
            cases refused
            unfold answerRefusal at wrong
            split at wrong
            · cases wrong
              decide
            · split at wrong
              · cases wrong
                decide
              · cases wrong
          · exact ih (takeAnswer srtp crypto) true refused

/-- The loop over an answer takes policies. -/
theorem readAnswer_policies (locCrypto : List SrtpCrypto) (count : Int) (attrs : List SdpAttr)
    (srtp : TransportSrtp) (hasCryptoAttr : Bool) :
    ∃ tx rx, (readAnswer locCrypto count attrs srtp hasCryptoAttr).1 =
        { srtp with txPolicyNeg := tx, rxPolicyNeg := rx } ∧
      (tx = srtp.txPolicyNeg ∨ tx ∈ srtp.crypto) := by
  induction attrs generalizing srtp hasCryptoAttr with
  | nil => exact ⟨_, _, rfl, .inl rfl⟩
  | cons attr rest ih =>
    rw [readAnswer]
    split
    · exact ih srtp hasCryptoAttr
    · split
      · exact ⟨_, _, rfl, .inl rfl⟩
      · split
        · exact ⟨_, _, rfl, .inl rfl⟩
        · rename_i crypto tag _
          split
          · exact ⟨_, _, rfl, .inl rfl⟩
          · have ⟨tx, rx, same, taken⟩ := ih (takeAnswer srtp crypto) true
            refine ⟨tx, rx, same, ?_⟩
            rcases taken with old | inside
            · rw [old]
              change ((srtp.crypto.find? _).getD srtp.txPolicyNeg) = _ ∨
                ((srtp.crypto.find? _).getD srtp.txPolicyNeg) ∈ _
              cases found : srtp.crypto.find? fun other => pjStricmpEq crypto.name other.name with
              | none => exact .inl rfl
              | some other => exact .inr (mem_of_find?_eq_some found)
            · exact .inr inside

/-- The start of media takes policies. -/
theorem mediaStart_policies (done : sdesMediaStart srtp mLoc mRem = some (srtp', mLoc', status)) :
    ∃ peerUse tx rx,
      srtp' = { srtp with peerUse := peerUse, txPolicyNeg := tx, rxPolicyNeg := rx } ∧
        (tx = srtp.txPolicyNeg ∨ tx ∈ srtp.crypto) := by
  unfold sdesMediaStart at done
  dsimp only at done
  generalize (if transportProto mRem.transport = .rtpSavp then SrtpUse.mandatory else .optional) =
    peerUse at done
  split at done
  · cases done
    exact ⟨_, _, _, rfl, .inl rfl⟩
  · split at done
    · cases done
      exact ⟨_, _, _, rfl, .inl rfl⟩
    · split at done
      · split at done
        · cases done
          exact ⟨_, _, _, rfl, .inl rfl⟩
        · cases done
          exact ⟨_, _, _, rfl, .inl rfl⟩
      · split at done
        · cases done
          exact ⟨_, _, _, rfl, .inl rfl⟩
        · have ⟨⟨locCrypto, count⟩, _, done⟩ := bind_eq_some_iff.mp done
          have ⟨tx, rx, same, taken⟩ := readAnswer_policies locCrypto count mRem.attr
            { srtp with peerUse := peerUse } false
          have result : srtp' = (readAnswer locCrypto count mRem.attr
              { srtp with peerUse := peerUse } false).1 := by
            split at done
            · rename_i found
              rw [found]
              cases done
              rfl
            · rename_i found
              rw [found]
              split at done
              · cases done
                rfl
              · cases done
                rfl
          exact ⟨_, tx, rx, result.trans same, taken⟩

theorem keying_mediaStart (proper : ProperSetting srtp.crypto)
    (done : sdesMediaStart srtp mLoc mRem = some (srtp', mLoc', status)) : Keying srtp srtp' := by
  have ⟨peerUse, tx, rx, same, taken⟩ := mediaStart_policies done
  rw [same]
  exact ⟨rfl, rfl, rfl, rfl, proper, sameSuites_refl _, taken⟩

theorem keying_encodeSdp {mRem : Option SdpMedia} (proper : ProperSetting srtp.crypto)
    (done : sdesEncodeSdp source srtp mLoc mRem = some (srtp', mLoc', status)) :
    Keying srtp srtp' := by
  cases mRem with
  | none =>
    have kept := @keying_encodeOffer _ mLoc source proper
    rw [show sdesEncodeOffer source srtp mLoc = (srtp', mLoc', status) from some.inj done] at kept
    exact kept
  | some mRem => exact keying_encodeAnswer proper done

/-! ## Runs -/

/-- The results of a function on a list, if it fails on none. -/
theorem mapM_mem {α β ε : Type} {f : α → Except ε β} {inputs : List α} {outputs : List β}
    (done : inputs.mapM f = .ok outputs) : ∀ output ∈ outputs, ∃ input ∈ inputs, f input = .ok output := by
  induction inputs generalizing outputs with
  | nil =>
    cases done
    exact forall_mem_nil _
  | cons input rest ih =>
    rw [mapM_cons] at done
    cases first : f input with
    | error status =>
      rw [first] at done
      cases done
    | ok output =>
      cases later : rest.mapM f with
      | error status =>
        rw [first, later] at done
        cases done
      | ok others =>
        rw [first, later] at done
        cases done
        refine forall_mem_cons.mpr ⟨?_, ?_⟩
        · exact ⟨input, mem_cons_self, first⟩
        · intro other member
          have ⟨before, inside, same⟩ := ih later other member
          exact ⟨before, mem_cons_of_mem _ inside, same⟩

theorem proper_resetCrypto {reset : SrtpCrypto} (done : resetCrypto crypto = .ok reset) :
    reset.Proper := by
  unfold resetCrypto checkCrypto at done
  cases found : getCryptoIdx crypto.name with
  | none =>
    rw [found] at done
    cases done
  | some idx =>
    rw [found] at done
    dsimp only at done
    split at done
    · cases done
    · rename_i long
      cases done
      refine ⟨cryptoSuite idx, (getCryptoIdx_some found).1, rfl, ?_⟩
      by_cases none : crypto.key = []
      · left
        change crypto.key.take _ = []
        rw [none, take_nil]
      · right
        exact length_take_of_le (Nat.le_of_not_lt fun short => long ⟨none, short⟩)

/-- The setting of a transport that is created. -/
theorem proper_create {opt : SrtpSetting} (created : pjmediaTransportSrtpCreate opt = .ok srtp) :
    ProperSetting srtp.crypto := by
  have default : ProperSetting pjmediaSrtpEnumCrypto := by
    intro crypto member
    have ⟨suite, inside, same⟩ := mem_map.mp (mem_of_mem_take member)
    rw [← same]
    exact ⟨suite, mem_of_mem_tail inside, rfl, .inl rfl⟩
  unfold pjmediaTransportSrtpCreate at created
  by_cases disabled : opt.use = .disabled
  · rw [if_pos disabled] at created
    cases created
    split
    · exact default
    · exact forall_mem_nil _
  · rw [if_neg disabled] at created
    cases reset : opt.crypto.mapM resetCrypto with
    | error status =>
      rw [reset] at created
      cases created
    | ok crypto =>
      rw [reset] at created
      cases created
      split
      · exact default
      · intro other member
        have ⟨_, _, made⟩ := mapM_mem reset other member
        exact proper_resetCrypto made

/-- The session does not change the setting or the policies that are negotiated. -/
structure SameSetting (srtp srtp' : TransportSrtp) : Prop where
  use : srtp'.use = srtp.use
  crypto : srtp'.crypto = srtp.crypto
  tx : srtp'.txPolicyNeg = srtp.txPolicyNeg
  rx : srtp'.rxPolicyNeg = srtp.rxPolicyNeg

theorem SameSetting.trans {srtp'' : TransportSrtp} (one : SameSetting srtp srtp')
    (other : SameSetting srtp' srtp'') : SameSetting srtp srtp'' :=
  ⟨other.use.trans one.use, other.crypto.trans one.crypto, other.tx.trans one.tx,
    other.rx.trans one.rx⟩

theorem sameSetting_stop (srtp : TransportSrtp) : SameSetting srtp (pjmediaTransportSrtpStop srtp) := by
  unfold pjmediaTransportSrtpStop
  split
  · exact ⟨rfl, rfl, rfl, rfl⟩
  · exact ⟨rfl, rfl, rfl, rfl⟩

theorem stop_bypass (srtp : TransportSrtp) :
    (pjmediaTransportSrtpStop srtp).bypassSrtp = srtp.bypassSrtp := by
  unfold pjmediaTransportSrtpStop
  split
  · rfl
  · rfl

theorem sameSetting_createContexts (lib : Libsrtp) (srtp : TransportSrtp) (tx rx : SrtpCrypto) :
    SameSetting srtp (createContexts lib srtp tx rx).1 := by
  unfold createContexts
  split
  · exact ⟨rfl, rfl, rfl, rfl⟩
  · split
    · exact ⟨rfl, rfl, rfl, rfl⟩
    · exact ⟨rfl, rfl, rfl, rfl⟩

theorem sameSetting_start (lib : Libsrtp) (srtp : TransportSrtp) (tx rx : SrtpCrypto) :
    SameSetting srtp (pjmediaTransportSrtpStart lib srtp tx rx).1 := by
  have stopped := sameSetting_stop srtp
  unfold pjmediaTransportSrtpStart
  dsimp only
  split
  · split
    · exact ⟨stopped.use, stopped.crypto, stopped.tx, stopped.rx⟩
    · split
      · exact stopped
      · exact stopped.trans (sameSetting_createContexts ..)
  · exact stopped

theorem sameSetting_startSrtp (lib : Libsrtp) (srtp : TransportSrtp) :
    SameSetting srtp (startSrtp lib srtp).1 := by
  unfold startSrtp
  split
  · have stopped := sameSetting_stop { srtp with bypassSrtp := true, peerUse := .disabled }
    exact ⟨stopped.use, stopped.crypto, stopped.tx, stopped.rx⟩
  · dsimp only
    split
    · exact ⟨rfl, rfl, rfl, rfl⟩
    · have started := sameSetting_start lib { srtp with probationCnt := probationCntInit }
        srtp.txPolicyNeg srtp.rxPolicyNeg
      split
      · exact ⟨started.use, started.crypto, started.tx, started.rx⟩
      · exact ⟨started.use, started.crypto, started.tx, started.rx⟩

theorem sameSetting_rtpCb (lib : Libsrtp) (srtp : TransportSrtp) (pkt : Except Int Str) :
    SameSetting srtp (srtpRtpCb lib srtp pkt).1 := by
  unfold srtpRtpCb
  split
  · exact ⟨rfl, rfl, rfl, rfl⟩
  · split
    · exact ⟨rfl, rfl, rfl, rfl⟩
    · dsimp only
      split
      · exact ⟨rfl, rfl, rfl, rfl⟩
      · split
        · exact ⟨rfl, rfl, rfl, rfl⟩
        · split
          · have started := sameSetting_start lib { srtp with probationCnt := srtp.probationCnt - 1 }
              srtp.txPolicy srtp.rxPolicy
            split
            · exact ⟨started.use, started.crypto, started.tx, started.rx⟩
            · exact ⟨started.use, started.crypto, started.tx, started.rx⟩
          · exact ⟨rfl, rfl, rfl, rfl⟩

/-- What the keying does in the calls of the transport. -/
theorem encodeSdp_cases {member : Int} {mRem : Option SdpMedia}
    (done : transportEncodeSdp source srtp member mLoc mRem = some (srtp', mLoc', status)) :
    ∃ before : TransportSrtp, before = { srtp.clearNeg with
        offererSide := mRem.isNone
        keying := srtp.keying || (!mRem.isNone && srtp.started) } ∧
      ((srtp' = before ∧ mLoc' = mLoc ∧ (status = pjSuccess → before.keying = false)) ∨
        ∃ after status', before.keying = true ∧
          sdesEncodeSdp source before mLoc mRem = some (after, mLoc', status') ∧
          (∃ bypass keying, srtp' = { after with bypassSrtp := bypass, keying := keying } ∧
            (after.use ≠ .disabled → bypass = after.bypassSrtp) ∧
            (status' = pjSuccess → after.use ≠ .disabled → keying = after.keying)) ∧
          status = status') := by
  refine ⟨_, rfl, ?_⟩
  unfold transportEncodeSdp at done
  dsimp only [TransportSrtp.clearNeg] at done ⊢
  split at done
  · rename_i failed
    cases done
    exact .inl ⟨rfl, rfl, fun success => absurd success failed⟩
  · split at done
    · rename_i idle
      cases done
      exact .inl ⟨rfl, rfl, fun _ => by simpa using idle⟩
    · rename_i active
      have ⟨⟨after, mLoc₁, status₁⟩, encoded, rest⟩ := map_eq_some_iff.mp done
      refine .inr ⟨after, status₁, not_not.mp active, ?_⟩
      split at rest
      · rename_i failed
        cases rest
        exact ⟨encoded, ⟨_, _, rfl, fun _ => rfl, fun success => absurd success failed⟩, rfl⟩
      · rename_i success
        split at rest
        · rename_i disabled
          cases rest
          exact ⟨encoded, ⟨_, _, rfl, fun able => absurd disabled able,
            fun _ able => absurd disabled able⟩, (not_not.mp success).symm⟩
        · cases rest
          exact ⟨encoded, ⟨_, _, rfl, fun _ => rfl, fun _ _ => rfl⟩, (not_not.mp success).symm⟩

theorem transportMediaStart_cases {lib : Libsrtp} {member : Int}
    (done : transportMediaStart lib srtp member mLoc mRem = some (srtp', mLoc', status)) :
    (srtp' = { srtp with started := true } ∧ (status = pjSuccess → srtp.keying = false)) ∨
      ∃ after status', member = pjSuccess ∧ srtp.keying = true ∧
        sdesMediaStart { srtp with started := true } mLoc mRem = some (after, mLoc', status') ∧
        ((status' ≠ pjSuccess ∧ srtp' = { after with keying := false } ∧ status = status') ∨
          (status' = pjSuccess ∧ (srtp', status) = startSrtp lib after)) := by
  unfold transportMediaStart at done
  dsimp only at done
  split at done
  · rename_i failed
    cases done
    exact .inl ⟨rfl, fun success => absurd success failed⟩
  · rename_i success
    split at done
    · rename_i idle
      cases done
      exact .inl ⟨rfl, fun _ => by simpa using idle⟩
    · rename_i active
      have ⟨⟨after, mLoc₁, status₁⟩, started, rest⟩ := map_eq_some_iff.mp done
      refine .inr ⟨after, status₁, not_not.mp success, not_not.mp active, ?_⟩
      split at rest
      · rename_i failed
        cases rest
        exact ⟨started, .inl ⟨failed, rfl, rfl⟩⟩
      · rename_i started'
        cases rest
        exact ⟨started, .inr ⟨not_not.mp started', rfl⟩⟩

/-- What a step leaves of the setting. -/
structure Lasting (srtp srtp' : TransportSrtp) : Prop where
  use : srtp'.use = srtp.use
  proper : ProperSetting srtp'.crypto
  suites : SameSuites srtp.crypto srtp'.crypto

theorem SameSetting.lasting (same : SameSetting srtp srtp') (proper : ProperSetting srtp.crypto) :
    Lasting srtp srtp' where
  use := same.use
  proper := by
    rw [same.crypto]
    exact proper
  suites := by
    rw [same.crypto]
    exact sameSuites_refl _

theorem sameSetting_mediaCreate (member : Int) (mRem : Option SdpMedia) :
    (transportMediaCreate srtp member mRem).1.use = srtp.use ∧
      (transportMediaCreate srtp member mRem).1.crypto = srtp.crypto := by
  unfold transportMediaCreate
  dsimp only [TransportSrtp.clearNeg]
  split
  · exact ⟨rfl, rfl⟩
  · split
    · exact ⟨rfl, rfl⟩
    · split
      · exact ⟨rfl, rfl⟩
      · split
        · exact ⟨rfl, rfl⟩
        · exact ⟨rfl, rfl⟩

theorem lasting_step {event : Event} (proper : ProperSetting srtp.crypto)
    (done : step srtp event = some srtp') : Lasting srtp srtp' := by
  cases event with
  | attach useRtcpMux =>
    cases done
    exact ⟨rfl, proper, sameSuites_refl _⟩
  | mediaCreate member mRem =>
    have same := @sameSetting_mediaCreate srtp member mRem
    cases done
    refine ⟨same.1, ?_, ?_⟩
    · rw [same.2]
      exact proper
    · rw [same.2]
      exact sameSuites_refl _
  | encodeSdp source member mLoc mRem =>
    have ⟨⟨srtp₁, mLoc₁, status₁⟩, encoded, same⟩ := map_eq_some_iff.mp done
    cases same
    have ⟨before, began, ended⟩ := encodeSdp_cases encoded
    have properBefore : ProperSetting before.crypto := by
      rw [began]
      exact proper
    rcases ended with ⟨same, _⟩ | ⟨after, _, _, keyed, ⟨_, _, same, _⟩, _⟩
    · rw [same, began]
      exact ⟨rfl, proper, sameSuites_refl _⟩
    · have kept := keying_encodeSdp properBefore keyed
      have use := kept.use
      have suites := kept.suites
      rw [same]
      rw [began] at use suites
      exact ⟨use, kept.proper, suites⟩
  | mediaStart lib member mLoc mRem =>
    have ⟨⟨srtp₁, mLoc₁, status₁⟩, started, same⟩ := map_eq_some_iff.mp done
    cases same
    rcases transportMediaStart_cases started with ⟨same, _⟩ | ⟨after, _, _, _, keyed, ended⟩
    · rw [same]
      exact ⟨rfl, proper, sameSuites_refl _⟩
    · have kept := @keying_mediaStart { srtp with started := true } _ _ _ _ _ proper keyed
      rcases ended with ⟨_, same, _⟩ | ⟨_, same⟩
      · rw [same]
        exact ⟨kept.use, kept.proper, kept.suites⟩
      · have setting := sameSetting_startSrtp lib after
        rw [← same] at setting
        have last := setting.lasting kept.proper
        refine ⟨setting.use.trans kept.use, last.proper, ?_⟩
        rw [setting.crypto]
        exact kept.suites
  | mediaStop =>
    have stopped := sameSetting_stop { srtp with started := false }
    cases done
    exact SameSetting.lasting ⟨stopped.use, stopped.crypto, stopped.tx, stopped.rx⟩ proper
  | rtp lib pkt =>
    have same := sameSetting_rtpCb lib srtp pkt
    cases done
    exact same.lasting proper

end Pjmedia.Srtp
