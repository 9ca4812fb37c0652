import Pjproject.SdpNeg.AnswerShape

/-!
# New offers of an active session

The loop that keeps the order of the old media finds for each of them the first line of its type
that is left, and inserts a deactivated clone if there is none. It does not look at the size of
the array of media.
-/

namespace Pjmedia.SdpNeg
open Option List Pj Sdp Heap

/-- The line that is added for one of the old media. -/
abbrev deactivated (localSdp : SdpSession) (om : SdpMedia) : SdpMedia :=
  sdpMediaCloneDeactivate om om localSdp

/-- An offer fits in the array of media, has a line of the same type for each of the old media, and
has the lines of the new session and deactivated clones for some of the old ones. -/
structure Reoffers (active localSdp offer : SdpSession) : Prop where
  fits : offer.media.length ≤ maxSdpMedia
  aligned : ∀ (i : Nat) (om : SdpMedia), active.media[i]? = some om →
    ∃ nm : SdpMedia, offer.media[i]? = some nm ∧ nm.media = om.media
  lines : ∃ missing : List SdpMedia, missing.Sublist active.media ∧
    offer.media.Perm (localSdp.media ++ missing.map (deactivated localSdp)) ∧
      ∀ om ∈ missing, (deactivated localSdp om).port = 0

variable (localSdp : SdpSession)

/-- A line is put behind the placed ones: one of its type that is left, or a deactivated clone. -/
theorem placeMedia_spec (placed rest : List SdpMedia) (om : SdpMedia) :
    ∃ nm left, placeMedia localSdp (placed ++ rest) placed.length om = placed ++ nm :: left ∧
      nm.media = om.media ∧
        ((om.media ∈ mediaTypes rest ∧ (nm :: left).Perm rest ∧
            mediaTypes left = (mediaTypes rest).erase om.media) ∨
          (om.media ∉ mediaTypes rest ∧ nm = deactivated localSdp om ∧ left = rest)) := by
  unfold placeMedia
  rw [drop_left, take_left]
  cases found : rest.find? fun nm => nm.media = om.media with
  | some nm =>
    have found' := find?_some found
    have same : nm.media = om.media := of_decide_eq_true found'
    have member : nm ∈ rest := mem_of_find?_eq_some found
    refine ⟨nm, _, rfl, same, Or.inl ⟨?_, ?_, ?_⟩⟩
    · rw [← same]
      exact mem_map_of_mem member
    · obtain ⟨_, before, after, rfl, others⟩ := find?_eq_some_iff_append.mp found
      have skipped : ∀ other ∈ before, ¬decide (other.media = om.media) = true := by
        intro other among equal
        have differs := others other among
        rw [equal] at differs
        exact absurd differs (by decide)
      have first : (nm :: after).eraseP (fun nm => decide (nm.media = om.media)) = after :=
        eraseP_cons_of_pos found'
      rw [eraseP_append_right _ skipped, first]
      exact perm_middle.symm
    · unfold mediaTypes
      rw [erase_eq_eraseP', eraseP_map]
      exact congrArg (fun test => (rest.eraseP test).map SdpMedia.media)
        (funext fun nm => (beq_eq_decide nm.media om.media).symm)
  | none =>
    refine ⟨deactivated localSdp om, rest, rfl, ?_, Or.inr ⟨?_, rfl, rfl⟩⟩
    · exact sdpMediaCloneDeactivate_media om om localSdp
    · intro among
      have ⟨nm, member, same⟩ := mem_map.mp among
      have absent := find?_eq_none.mp found nm member
      exact absent (decide_eq_true same)

/-- The loop puts a line of the right type for each of the old media behind the placed ones, and
adds as many as the types of the old media have more of than those of the lines that are left. -/
theorem placeMedias_spec (olds : List SdpMedia) :
    ∀ placed rest : List SdpMedia, ∃ lines missing : List SdpMedia,
      placeMedias localSdp (placed ++ rest) placed.length olds = placed ++ lines ∧
        mediaTypes olds <+: mediaTypes lines ∧ missing.Sublist olds ∧
          lines.Perm (rest ++ missing.map (deactivated localSdp)) ∧
            missing.length = ((mediaTypes olds).diff (mediaTypes rest)).length := by
  induction olds with
  | nil =>
    intro placed rest
    refine ⟨rest, [], rfl, nil_prefix, List.Sublist.refl _, ?_, ?_⟩
    · rw [map_nil, append_nil]
    · unfold mediaTypes
      rw [map_nil, nil_diff, length_nil, length_nil]
  | cons om olds ih =>
    intro placed rest
    have ⟨nm, left, placedLine, type, cases⟩ := placeMedia_spec localSdp placed rest om
    have ⟨lines, missing, result, types, sublist, perm, count⟩ := ih (placed ++ [nm]) left
    rw [length_append, length_singleton, append_assoc, append_assoc,
      singleton_append, singleton_append] at result
    rw [placeMedias, placedLine]
    have prefixed : mediaTypes (om :: olds) <+: mediaTypes (nm :: lines) := by
      unfold mediaTypes at types ⊢
      rw [map_cons, map_cons, type]
      exact cons_prefix_cons.mpr ⟨rfl, types⟩
    rcases cases with ⟨among, found, erased⟩ | ⟨absent, rfl, rfl⟩
    · refine ⟨nm :: lines, missing, result, prefixed, sublist.cons _, ?_, ?_⟩
      · exact (perm.cons nm).trans (found.append_right _)
      · have later := cons_diff_of_mem among (mediaTypes olds)
        rw [count, erased, ← later]
        rfl
    · refine ⟨_ :: lines, om :: missing, result, prefixed, sublist.cons_cons _, ?_, ?_⟩
      · exact (perm.cons _).trans perm_middle.symm
      · have later := cons_diff_of_not_mem absent (mediaTypes olds)
        rw [length_cons, count, ← length_cons, ← later]
        rfl

/-- The lines of the new offer, and how many there are. -/
theorem offeredMedia_spec (active : SdpSession) :
    ∃ missing : List SdpMedia,
      mediaTypes active.media <+: mediaTypes (offeredMedia false localSdp active) ∧
        missing.Sublist active.media ∧
          (offeredMedia false localSdp active).Perm
              (localSdp.media ++ missing.map (deactivated localSdp)) ∧
            (offeredMedia false localSdp active).length = localSdp.media.length +
              ((mediaTypes active.media).diff (mediaTypes localSdp.media)).length := by
  have ⟨lines, missing, result, types, sublist, perm, count⟩ :=
    placeMedias_spec localSdp active.media [] localSdp.media
  have made : offeredMedia false localSdp active = lines := result
  refine ⟨missing, by rwa [made], sublist, by rwa [made], ?_⟩
  rw [made, perm.length_eq, length_append, length_map, count]

/-- A call in the final state with a valid session makes an offer. It has the old types in their
places, each line of the session once, and else only deactivated clones; it fits in the array of
media exactly if the session has room for the old media that it has no line of the type for. -/
theorem modifyLocalOffer2_reoffers_iff {mem : Memory} {localSdp active : SdpSession}
    (done : mem.neg.state = .done) (valid : pjmediaSdpValidate localSdp = .success)
    (known : read mem.sessions mem.neg.activeLocalSdp = some active) :
    ∃ after offer, modifyLocalOffer2 mem false localSdp = some (after, { status := .success }) ∧
      read after.sessions after.neg.negLocalSdp = some offer ∧
        (Reoffers active localSdp offer ↔
          localSdp.media.length +
              ((mediaTypes active.media).diff (mediaTypes localSdp.media)).length ≤
            maxSdpMedia) := by
  unfold modifyLocalOffer2
  rw [if_neg (not_not.mpr done), if_neg (not_not.mpr valid), known]
  refine ⟨_, modifiedOffer false localSdp active, rfl, ?_, ?_⟩
  · unfold Heap.read fresh alloc
    rw [bind_some, getElem?_concat_length]
  have ⟨missing, types, sublist, perm, count⟩ := offeredMedia_spec localSdp active
  constructor
  · intro reoffers
    have fits : (offeredMedia false localSdp active).length ≤ maxSdpMedia := reoffers.fits
    rwa [count] at fits
  · intro room
    refine ⟨?_, fun i om old => ?_, missing, sublist, perm, ?_⟩
    · change (offeredMedia false localSdp active).length ≤ maxSdpMedia
      rwa [count]
    · have type : (mediaTypes active.media)[i]? = some om.media := by
        rw [mediaTypes, getElem?_map, old, map_some]
      have ⟨extra, same⟩ := types
      have short : i < (mediaTypes active.media).length := (List.getElem?_eq_some_iff.mp type).1
      have placed : (mediaTypes (offeredMedia false localSdp active))[i]? = some om.media := by
        rw [← same, getElem?_append_left short, type]
      unfold mediaTypes at placed
      rw [getElem?_map] at placed
      exact map_eq_some_iff.mp placed
    · exact fun om _ => sdpMediaCloneDeactivate_port om om localSdp

/-- A negotiator with an active local SDP. -/
def activeMemory (active : SdpSession) : Memory :=
  { sessions := [active], neg := { Negotiator.zero .done with activeLocalSdp := some 0 } }

/-- An audio line that is offered again with a video line. -/
theorem modifyLocalOffer2_reoffers_video :
    ∃ after offer, modifyLocalOffer2 (activeMemory (rtpSession 1 [pcmuMedia])) false
          (rtpSession 2 [h261Media, pcmuMedia]) = some (after, { status := .success }) ∧
      read after.sessions after.neg.negLocalSdp = some offer ∧
        (Reoffers (rtpSession 1 [pcmuMedia]) (rtpSession 2 [h261Media, pcmuMedia]) offer ↔
          2 + ((mediaTypes [pcmuMedia]).diff (mediaTypes [h261Media, pcmuMedia])).length ≤
            maxSdpMedia) :=
  modifyLocalOffer2_reoffers_iff rfl (by decide) rfl

/-- Nine video lines that are offered for nine audio lines: the offer has 18 lines. -/
theorem modifyLocalOffer2_outgrows :
    pjmediaSdpValidate (rtpSession 2 (List.replicate 9 h261Media)) = .success ∧
      ∃ after offer, modifyLocalOffer2 (activeMemory (rtpSession 1 (List.replicate 9 pcmuMedia)))
            false (rtpSession 2 (List.replicate 9 h261Media)) =
          some (after, { status := .success }) ∧
        read after.sessions after.neg.negLocalSdp = some offer ∧
          ¬Reoffers (rtpSession 1 (List.replicate 9 pcmuMedia))
            (rtpSession 2 (List.replicate 9 h261Media)) offer := by
  have valid : pjmediaSdpValidate (rtpSession 2 (List.replicate 9 h261Media)) = .success := by
    decide
  have done : (activeMemory (rtpSession 1 (List.replicate 9 pcmuMedia))).neg.state = .done := rfl
  refine ⟨valid, ?_⟩
  unfold modifyLocalOffer2
  refine ⟨_, _, rfl, rfl, fun reoffers => ?_⟩
  exact absurd reoffers.fits (by decide)

end Pjmedia.SdpNeg
