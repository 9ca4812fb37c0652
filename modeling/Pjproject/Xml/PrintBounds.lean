import Pjproject.Xml.Print

/-!
# What XML printing writes

`pj_xml_print` stays inside its buffer. What it returns is not negative exactly if the document is
written, unless the buffer has no byte, or has room for the prolog but not for the node behind it:
the `-1` of the node is then added to the length of the prolog.
-/

namespace Pj.Xml
open CheckedWriter

/-- The end of `pj_xml_print`, behind what is written before the node. -/
def addNewline (len : Nat) (start : Str) (out : Bool × Str) : Int × Str :=
  let printed : Int := (if out.1 then (out.2.length : Int) else -1) + start.length
  let written := start ++ out.2
  if 0 < printed ∧ 1 ≤ u32 (len - printed) then
    (printed + 1, written.take printed.toNat ++ 10 :: written.drop (printed.toNat + 1))
  else (printed, written)

/-- `pj_xml_print`: what it returns, and what it has written to the buffer. -/
def pjXmlPrintTo (node : XmlNode) (len : Nat) (includeProlog : Bool) : Int × Str :=
  if len = 0 then (0, [])
  else if includeProlog ∧ i32 len < prologText.length then (-1, [])
  else addNewline len (prolog includeProlog)
    (run fits (len - (prolog includeProlog).length) (nodeOps node 0))

/-! ## Guards -/

theorem guarded_attrsOps (attrs : List XmlAttr) : Guarded 0 (attrsOps attrs) := by
  induction attrs with
  | nil => trivial
  | cons attr attrs ih =>
    have value : (valueText attr.value).length ≤ attr.value.length + 3 := by
      rw [valueText]
      split <;> simp
    refine ⟨by simp [text, attrText], ?_, ih.mono (Nat.zero_le _)⟩
    simp only [attrText, List.length_cons, List.length_append]
    omega

mutual

theorem guarded_nodeOps (node : XmlNode) (indent : Nat) : Guarded 0 (nodeOps node indent) := by
  have ⟨name, attrs, nodes, content⟩ := node
  have tag : (spaces indent).length = indent := List.length_replicate
  have nested := guarded_nodesOps nodes indent
  apply Guarded.append
  · refine ⟨by simp [text], ?_, (guarded_attrsOps attrs).mono (Nat.zero_le _)⟩
    simp only [List.length_append, List.length_cons, tag]
    omega
  · split
    · simp [Guarded, text]
    · apply Guarded.append
      · exact ⟨by simp [text], by simp, nested.mono (Nat.zero_le _)⟩
      · apply Guarded.append
        · by_cases plain : content = [] <;> simp [Guarded, text, plain]
        · by_cases leaf : nodes = []
          · simp [Guarded, text, leaf]
          · simp [Guarded, text, leaf, tag]
            omega

theorem guarded_nodesOps (nodes : List XmlNode) (indent : Nat) :
    Guarded 0 (nodesOps nodes indent) := by
  cases nodes with
  | nil =>
    trivial
  | cons node nodes =>
    apply Guarded.append _ (guarded_nodesOps nodes indent)
    refine ⟨by simp [text], ?_, (guarded_nodeOps node (indent + 1)).mono (Nat.zero_le _)⟩
    simp

end

/-! ## Documents -/

/-- The document. -/
def document (node : XmlNode) (includeProlog : Bool) : Str := prolog includeProlog ++ nodeText node 0

/-- All that is written is inside the buffer, and the length that is returned is not negative exactly
if the document is written. -/
def Honest (node : XmlNode) (len : UInt32) (includeProlog : Bool) : Prop :=
  let (returned, written) := pjXmlPrintTo node len.toNat includeProlog
  written.length ≤ len.toNat ∧ (0 ≤ returned ↔ document node includeProlog <+: written)

/-- The prolog is written, and there is no room for the node behind it. -/
def OnlyProlog (node : XmlNode) (len : UInt32) : Prop :=
  prologText.length ≤ i32 len.toNat ∧ len.toNat < prologText.length + room (nodeOps node 0)

variable {node : XmlNode} {len : UInt32} {includeProlog : Bool}

theorem fits_sound {left : Int} {count : Nat} (nonneg : 0 ≤ left) (h : fits left count = true) :
    count ≤ left := by
  obtain ⟨room, rfl⟩ := Int.eq_ofNat_of_zero_le nonneg
  have less := i32_natCast_le room
  simp only [fits, decide_eq_true_eq] at h
  omega

/-- The steps put the document behind the prolog. -/
theorem text_document (node : XmlNode) (includeProlog : Bool) :
    document node includeProlog = prolog includeProlog ++ text (nodeOps node 0) := by
  rw [document, text_nodeOps]
  rfl

theorem document_long {written : Str}
    (short : written.length < (prolog includeProlog).length + (text (nodeOps node 0)).length) :
    ¬document node includeProlog <+: written := by
  intro whole
  have length := whole.length_le
  rw [text_document, List.length_append] at length
  omega

theorem addNewline_done {start written : Str} {size : Nat} (bound : size < 2 ^ 32)
    (inside : start.length + written.length ≤ size) :
    let out := addNewline size start (true, written)
    out.2.length ≤ size ∧ 0 ≤ out.1 ∧ start ++ written <+: out.2 := by
  have left := u32_sub inside bound
  have length : ((written.length : Int) + start.length).toNat = (start ++ written).length := by
    rw [List.length_append]
    omega
  rw [Int.natCast_add, Int.add_comm] at left
  simp only [addNewline, if_true, left, length, List.take_length]
  rw [List.drop_eq_nil_of_le (Nat.le_succ _)]
  split
  · next more =>
    refine ⟨?_, by dsimp only; omega, List.prefix_append _ _⟩
    simp only [List.length_append, List.length_singleton]
    omega
  · refine ⟨?_, by dsimp only; omega, List.prefix_refl _⟩
    rw [List.length_append]
    omega

/-- The prolog alone counts as a document. -/
theorem addNewline_stopped (size : Nat) (written : Str) :
    let out := addNewline size prologText (false, written)
    0 ≤ out.1 ∧ out.2.length = prologText.length + written.length := by
  have whole : (-1 + prologText.length : Int) = 38 := rfl
  have long : prologText.length = 39 := rfl
  simp only [addNewline, Bool.false_eq_true, if_false, whole]
  split
  · refine ⟨Int.natCast_nonneg 39, ?_⟩
    simp only [List.length_append, List.length_cons, List.length_take, List.length_drop, long]
    omega
  · exact ⟨Int.natCast_nonneg 38, List.length_append⟩

/-- Behind the first checks all is well without a prolog, and with one if the node fits. -/
theorem honest_iff_run (some : len.toNat ≠ 0)
    (fits' : ¬(includeProlog = true ∧ i32 len.toNat < prologText.length)) :
    Honest node len includeProlog ↔ (includeProlog = true →
      (run fits (len.toNat - (prolog includeProlog).length) (nodeOps node 0)).1 = true) := by
  have bound := len.toNat_lt
  have small := i32_natCast_le len.toNat
  have start : (prolog includeProlog).length ≤ len.toNat := by
    cases includeProlog with
    | false => exact Nat.zero_le _
    | true =>
      have enough : ¬i32 len.toNat < prologText.length := fun less => fits' ⟨rfl, less⟩
      exact (by omega : prologText.length ≤ len.toNat)
  have guarded := guarded_nodeOps node 0
  have inside := run_inside guarded
    (by omega : _ ≤ (len.toNat : Int) - (prolog includeProlog).length) fun _ _ => fits_sound
  rw [Honest, pjXmlPrintTo, if_neg some, if_neg fits']
  cases made : run fits (len.toNat - (prolog includeProlog).length) (nodeOps node 0) with
  | mk done written =>
    rw [made] at inside
    cases done with
    | true =>
      have whole := run_done (congrArg Prod.fst made)
      rw [made] at whole
      have good := addNewline_done bound (by dsimp only at inside; omega :
        (prolog includeProlog).length + written.length ≤ len.toNat)
      rw [text_document, ← whole]
      exact iff_of_true ⟨good.1, iff_of_true good.2.1 good.2.2⟩ fun _ => rfl
    | false =>
      have short := run_short guarded (congrArg Prod.fst made)
      rw [made] at short
      cases includeProlog with
      | false =>
        have nothing : addNewline len.toNat (prolog false) (false, written) = (-1, written) := by
          simp [addNewline, prolog]
        rw [nothing]
        refine iff_of_true ⟨?_, iff_of_false (by decide) (document_long ?_)⟩ nofun
        · dsimp only at inside ⊢
          omega
        · dsimp only at short ⊢
          omega
      | true =>
        refine iff_of_false (fun honest => ?_) fun ends => Bool.noConfusion (ends rfl)
        have ⟨returned, length⟩ := addNewline_stopped len.toNat written
        have whole : document node true <+: (addNewline len.toNat prologText (false, written)).2 :=
          honest.2.mp returned
        refine document_long ?_ whole
        rw [length]
        exact Nat.add_lt_add_left short _

/-- The room that is left for the node behind the prolog. -/
theorem run_iff_room (enough : prologText.length ≤ i32 len.toNat) :
    (run fits (len.toNat - (prolog true).length) (nodeOps node 0)).1 = true ↔
      ¬OnlyProlog node len := by
  have bound := len.toNat_lt
  have less := i32_natCast_le len.toNat
  have whole : (prolog true).length = prologText.length := rfl
  have int : (len.toNat : Int) < 2 ^ 31 := by
    by_contra large
    rw [i32_eq, Int.bmod_def] at enough
    omega
  have decides : ∀ (left : Int) (count : Nat), 0 ≤ left →
      left ≤ (len.toNat : Int) - (prolog true).length → (fits left count = true ↔ count ≤ left) := by
    intro left count nonneg le
    have same : i32 left = left := by
      rw [i32_eq, Int.bmod_def]
      omega
    simp [fits, same]
  rw [run_done_iff (guarded_nodeOps node 0) (by omega) decides, OnlyProlog, and_iff_right enough]
  omega

/-- Printing is honest exactly if the buffer is not empty, and the node fits behind a prolog that
does. -/
theorem xml_print_honest_iff (node : XmlNode) (len : UInt32) (includeProlog : Bool) :
    Honest node len includeProlog ↔
      len ≠ 0 ∧ (includeProlog = true → ¬OnlyProlog node len) := by
  by_cases some : len.toNat = 0
  · obtain rfl : len = 0 := UInt32.toNat_inj.mp some
    refine iff_of_false (fun honest => ?_) fun both => both.1 rfl
    have ⟨name, attrs, nodes, content⟩ := node
    have nothing : document (.mk name attrs nodes content) includeProlog <+: [] :=
      honest.2.mp (Int.le_refl 0)
    simp [document, nodeText] at nothing
  · have nonzero : len ≠ 0 := fun zero => some (zero ▸ rfl)
    rw [and_iff_right nonzero]
    by_cases refused : includeProlog = true ∧ i32 len.toNat < prologText.length
    · have small : ¬OnlyProlog node len := fun only => by
        have enough := only.1
        omega
      refine iff_of_true ?_ fun _ => small
      rw [Honest, pjXmlPrintTo, if_neg some, if_pos refused]
      refine ⟨Nat.zero_le _, iff_of_false (by decide) (document_long ?_)⟩
      rw [refused.1]
      exact Nat.lt_of_lt_of_le (by decide : 0 < prologText.length) (Nat.le_add_right _ _)
    · rw [honest_iff_run some refused]
      refine forall_congr' fun prologed => ?_
      subst prologed
      exact run_iff_room (Int.not_lt.mp fun less => refused ⟨rfl, less⟩)

/-- A buffer of 39 bytes takes the prolog, whose length is returned without the node. -/
theorem xml_print_dishonest : ¬Honest (.mk [97] [] [] []) 39 true := by
  intro honest
  have nothing := (honest.2.mp (by decide)).length_le
  exact absurd nothing (by decide)

end Pj.Xml
