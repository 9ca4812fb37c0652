import Pjproject.Dns.Parse

/-!
# The two passes over a DNS name

`get_name_len` sizes what `get_name` copies. Both are compared with the labels that the packet has
for a name. They leave a dot behind the last label where a pointer to an empty name follows it,
since they look for the end of the name at the byte of the pointer.
-/

namespace Pj.Dns
open Traced

/-- Labels joined by dots. -/
def joinDots : List Str → Str
  | [] => []
  | [label] => label
  | label :: rest => label ++ 46 :: joinDots rest

/-- What is put between a label and the others. -/
theorem joinDots_cons (label : Str) (rest : List Str) :
    joinDots (label :: rest) = label ++ if rest = [] then [] else 46 :: joinDots rest := by
  cases rest with
  | nil => exact (List.append_nil label).symm
  | cons next rest => rfl

/-- A name as it is in a packet: its labels, whether a pointer to an empty name follows the last
one, and the bytes that it takes where it begins. -/
structure PacketName where
  labels : List Str
  emptyPointer : Bool
  taken : Nat
  labelled : labels = [] → emptyPointer = false

/-- The name with its dots. -/
def PacketName.text (name : PacketName) : Str :=
  joinDots name.labels ++ if name.emptyPointer then [46] else []

/-- The end of a name. -/
def PacketName.root : PacketName := ⟨[], false, 1, fun _ => rfl⟩

/-- A label in front, with the byte that follows it. -/
def PacketName.cons (label : Str) (next : UInt8) (rest : PacketName) : PacketName where
  labels := label :: rest.labels
  emptyPointer := rest.emptyPointer || (rest.labels = [] && next ≠ 0)
  taken := label.length + 1 + rest.taken
  labelled := nofun

variable (mem : Nat → UInt8) (size : Nat)

/-- The label at a position. -/
def labelAt (p : Nat) : Str := (List.range (mem p).toNat).map fun i => mem (p + 1 + i)

theorem length_labelAt (p : Nat) : (labelAt mem p).length = (mem p).toNat := by
  simp [labelAt]

/-- The labels from a position on, where a pointer leads to another name. -/
def readLabels (target : Nat → Except Status PacketName) (p : Nat) : Except Status PacketName :=
  if mem p = 0 then .ok .root
  else if isPointer (mem p) then
    if size ≤ offset mem p then .error .inNamePtr
    else (target (offset mem p)).map fun name => { name with taken := 2 }
  else if size < (mem p).toNat then .error .inNamePtr
  else if p + ((mem p).toNat + 1) < size then
    (readLabels target (p + ((mem p).toNat + 1))).map fun rest =>
      rest.cons (labelAt mem p) (mem (p + ((mem p).toNat + 1)))
  else .error .inSize
termination_by size - p

/-- The name at a position, with the pointers that may be followed, and one more. -/
def readName : Nat → Nat → Except Status PacketName
  | 0, _ => .error .inNamePtr
  | levels + 1, start => readLabels mem size (readName levels) start

theorem PacketName.text_cons (label : Str) {next : UInt8} {rest : PacketName}
    (zero : next = 0 → rest.labels = []) :
    (rest.cons label next).text = label ++ (if next ≠ 0 then [46] else []) ++ rest.text := by
  by_cases last : rest.labels = []
  · have first := rest.labelled last
    by_cases ends : next = 0 <;> simp [text, cons, joinDots, last, first, ends]
  · have goesOn : next ≠ 0 := fun ends => last (zero ends)
    simp [text, cons, joinDots_cons, last, goesOn]

variable {mem size}

variable {target : Nat → Except Status PacketName}

/-- What is behind a label that a zero byte follows. -/
theorem readLabels_zero {p : Nat} {rest : PacketName}
    (read : readLabels mem size target p = .ok rest) (zero : mem p = 0) : rest.labels = [] := by
  rw [readLabels, if_pos zero] at read
  cases read
  rfl

/-- The length pass. -/
theorem labelsLen_result {jump : Nat → Parser (Nat × Nat)}
    (jumps : ∀ p, (jump p).result = (target p).map fun name => (name.taken, name.text.length))
    (p : Nat) : (labelsLen mem size jump p).result =
      (readLabels mem size target p).map fun name => (name.taken, name.text.length) := by
  fun_induction readLabels mem size target p with
  | case1 p zero =>
    rw [labelsLen, result_bind_of_ok (readByte_result mem p), if_pos zero]
    rfl
  | case2 p visible pointer outside =>
    rw [labelsLen, result_bind_of_ok (readByte_result mem p), if_neg visible, if_pos pointer,
      result_bind_of_ok (read16_result mem p), if_pos outside]
    rfl
  | case3 p visible pointer inside =>
    rw [labelsLen, result_bind_of_ok (readByte_result mem p), if_neg visible, if_pos pointer,
      result_bind_of_ok (read16_result mem p), if_neg inside, result_bind, jumps]
    cases target (offset mem p) <;> rfl
  | case4 p visible direct long =>
    rw [labelsLen, result_bind_of_ok (readByte_result mem p), if_neg visible, if_neg direct,
      if_pos long]
    rfl
  | case5 p visible direct short inside ih =>
    rw [labelsLen, result_bind_of_ok (readByte_result mem p), if_neg visible, if_neg direct,
      if_neg short, result_bind_of_ok (readByte_result mem _), dif_pos inside, result_bind, ih]
    cases read : readLabels mem size target (p + ((mem p).toNat + 1)) with
    | error status => rfl
    | ok rest =>
      have text := congrArg List.length (rest.text_cons (labelAt mem p) (readLabels_zero read))
      rw [List.length_append, List.length_append, length_labelAt] at text
      refine congrArg Except.ok (Prod.ext ?_ ?_)
      · exact congrArg (· + 1 + rest.taken) (length_labelAt mem p).symm
      · refine Eq.trans ?_ text.symm
        split <;> rfl
  | case6 p visible direct short outside =>
    rw [labelsLen, result_bind_of_ok (readByte_result mem p), if_neg visible, if_neg direct,
      if_neg short, result_bind_of_ok (readByte_result mem _), dif_neg outside]
    rfl

/-- The copying pass. -/
theorem labels_result {jump : Nat → Nat → Parser Str}
    (jumps : ∀ slen p, (jump slen p).result = (target p).map PacketName.text)
    (allocated slen p : Nat) :
    (labels mem size jump allocated slen p).result =
      (readLabels mem size target p).map PacketName.text := by
  fun_induction readLabels mem size target p generalizing slen with
  | case1 p zero =>
    rw [labels, result_bind_of_ok (readByte_result mem p), if_pos zero]
    rfl
  | case2 p visible pointer outside =>
    rw [labels, result_bind_of_ok (readByte_result mem p), if_neg visible, if_pos pointer,
      result_bind_of_ok (read16_result mem p), if_pos outside]
    rfl
  | case3 p visible pointer inside =>
    rw [labels, result_bind_of_ok (readByte_result mem p), if_neg visible, if_pos pointer,
      result_bind_of_ok (read16_result mem p), if_neg inside, jumps]
    cases target (offset mem p) <;> rfl
  | case4 p visible direct long =>
    rw [labels, result_bind_of_ok (readByte_result mem p), if_neg visible, if_neg direct,
      if_pos long]
    rfl
  | case5 p visible direct short inside ih =>
    rw [labels, result_bind_of_ok (readByte_result mem p), if_neg visible, if_neg direct,
      if_neg short, result_bind_of_ok (readBytes_result mem _ _),
      result_bind_of_ok (writeName_result _ _ _), result_bind_of_ok (readByte_result mem _),
      result_bind_of_ok (writeName_result _ _ _), dif_pos inside, result_bind, ih]
    cases read : readLabels mem size target (p + ((mem p).toNat + 1)) with
    | error status => rfl
    | ok rest =>
      exact congrArg Except.ok (rest.text_cons (labelAt mem p) (readLabels_zero read)).symm
  | case6 p visible direct short outside =>
    rw [labels, result_bind_of_ok (readByte_result mem p), if_neg visible, if_neg direct,
      if_neg short, result_bind_of_ok (readBytes_result mem _ _),
      result_bind_of_ok (writeName_result _ _ _), result_bind_of_ok (readByte_result mem _),
      result_bind_of_ok (writeName_result _ _ _), dif_neg outside]
    rfl

theorem getNameLen_result (levels p : Nat) : (getNameLen mem size levels p).result =
    (readName mem size levels p).map fun name => (name.taken, name.text.length) := by
  induction levels generalizing p with
  | zero => rfl
  | succ levels ih => exact labelsLen_result ih p

theorem getName_result (allocated levels slen p : Nat) :
    (getName mem size allocated levels slen p).result =
      (readName mem size levels p).map PacketName.text := by
  induction levels generalizing slen p with
  | zero => rfl
  | succ levels ih => exact labels_result ih allocated slen p

theorem parseName_result (extra p : Nat) : (parseName mem size extra p).result =
    (readName mem size maxLevels p).map fun name => (name.text, name.taken) := by
  rw [parseName, result_bind, getNameLen_result]
  cases read : readName mem size maxLevels p with
  | error status => rfl
  | ok name =>
    have copied : (getName mem size (name.text.length + extra) maxLevels 0 p).result =
        (readName mem size maxLevels p).map PacketName.text := getName_result _ _ _ _
    rw [read] at copied
    exact result_bind_of_ok copied _

/-! ## Agreement -/

theorem PacketName.text_eq_iff (name : PacketName) :
    name.text = joinDots name.labels ↔ name.emptyPointer = false := by
  rw [text]
  cases name.emptyPointer <;> simp

variable (mem size)

/-- The two passes fail alike, or the second one appends as many characters as the first one counts,
which are the labels of the name with single dots between them, and `parsed_len` is what the name
takes. -/
def PassesAgree (start : Nat) : Prop :=
  match (getNameLen mem size maxLevels start).result with
  | .error status => ∀ allocated slen,
    (getName mem size allocated maxLevels slen start).result = .error status
  | .ok (parsedLen, nameLen) => ∃ name, readName mem size maxLevels start = .ok name ∧
    parsedLen = name.taken ∧ nameLen = (joinDots name.labels).length ∧
      ∀ allocated slen, (getName mem size allocated maxLevels slen start).result =
        .ok (joinDots name.labels)

theorem PassesAgree.direct {start : Nat} (h : PassesAgree mem size start) {name : PacketName}
    (read : readName mem size maxLevels start = .ok name) : name.emptyPointer = false := by
  rw [PassesAgree, getNameLen_result, read] at h
  have ⟨name', same, _, _, copied⟩ := h
  cases same
  have text := copied 0 0
  rw [getName_result, read] at text
  exact name.text_eq_iff.mp (Except.ok.inj text)

/-- The passes agree exactly on the names without a pointer to an empty name behind a label. -/
theorem passes_agree_iff (start : Nat) : PassesAgree mem size start ↔
    ∀ name, readName mem size maxLevels start = .ok name → name.emptyPointer = false := by
  refine ⟨fun agree name => agree.direct mem size, fun direct => ?_⟩
  rw [PassesAgree, getNameLen_result]
  simp only [getName_result]
  cases read : readName mem size maxLevels start with
  | error status => exact fun _ _ => rfl
  | ok name =>
    have text := name.text_eq_iff.mpr (direct name read)
    exact ⟨name, rfl, rfl, congrArg List.length text, fun _ _ => congrArg Except.ok text⟩

/-- A label and a pointer to the end of a name, which are read as the label and a dot. -/
theorem passes_disagree :
    ¬PassesAgree (fun p => ([1, 97, 0xc0, 4, 0] : Str).getD p 0) 5 0 := by
  intro agree
  have read : readName (fun p => ([1, 97, 0xc0, 4, 0] : Str).getD p 0) 5 maxLevels 0 =
      .ok ⟨[[97]], true, 4, nofun⟩ := by
    rw [maxLevels, readName, readLabels, if_neg (by decide), if_neg (by decide), if_neg (by decide),
      if_pos (by decide), readLabels, if_neg (by decide), if_pos (by decide), if_neg (by decide),
      readName, readLabels, if_pos (by decide)]
    rfl
  exact Bool.noConfusion (agree.direct _ _ read)

end Pj.Dns
