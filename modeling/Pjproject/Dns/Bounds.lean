import Mathlib.Logic.Relation
import Mathlib.Order.Basic
import Pjproject.Dns.Names

/-!
# Memory safety of the DNS parser

The parser reads a name before it knows that the name is inside the packet: the first byte, the
byte behind a label and the second byte of a pointer are not checked, nor are the fields of a query
and the fixed data of a record. It stays inside the packet exactly if all the positions that it
comes to are inside.
-/

namespace Pj.Dns
open List Traced

variable (mem : Nat → UInt8) (size : Nat)

/-! ## Where the parser comes to -/

/-- The parser comes from one place of a name to the next one, with the levels of recursion that
are left. -/
inductive Next : Nat × Nat → Nat × Nat → Prop
  | label {levels p : Nat} (inside : p < size) (visible : mem p ≠ 0)
      (direct : isPointer (mem p) = false) (valid : (mem p).toNat ≤ size) :
      Next (levels, p) (levels, p + ((mem p).toNat + 1))
  | pointer {levels p : Nat} (inside : p + 1 < size) (jumps : isPointer (mem p) = true)
      (valid : offset mem p < size) : Next (levels + 1, p) (levels, offset mem p)

/-- Every place that a name comes to is inside the packet, and so is the second byte of a
pointer. -/
def NameInside (levels p : Nat) : Prop :=
  ∀ place, Relation.ReflTransGen (Next mem size) (levels, p) place → 0 < place.1 →
    place.2 < size ∧ (isPointer (mem place.2) = true → place.2 + 1 < size)

/-- A name that is accepted, from its first byte to the byte behind it. -/
inductive Name : Nat → Nat → Nat → Prop
  | root {levels p : Nat} (inside : p < size) (last : mem p = 0) : Name (levels + 1) p (p + 1)
  | pointer {levels p stop : Nat} (inside : p + 1 < size) (jumps : isPointer (mem p) = true)
      (valid : offset mem p < size) (name : Name levels (offset mem p) stop) :
      Name (levels + 1) p (p + 2)
  | label {levels p stop : Nat} (visible : mem p ≠ 0) (direct : isPointer (mem p) = false)
      (valid : (mem p).toNat ≤ size) (inside : p + ((mem p).toNat + 1) < size)
      (name : Name (levels + 1) (p + ((mem p).toNat + 1)) stop) : Name (levels + 1) p stop

/-- The fields of a query are inside, if its name is accepted. -/
def QueryInside (start : Nat) : Prop :=
  NameInside mem size maxLevels start ∧
    ∀ p, Name mem size maxLevels start p → p + 4 ≤ size

/-- A query that is accepted. -/
def Query (start stop : Nat) : Prop :=
  ∃ p, Name mem size maxLevels start p ∧ stop = p + 4

/-- The data of a record is inside: the bytes of an address, a name. -/
def RdataInside (type : UInt16) (p : Nat) : Prop :=
  if type = typeA then p + 4 ≤ size
  else if type = typeAaaa then p + 16 ≤ size
  else if hasName type then NameInside mem size maxLevels p
  else if type = typeSrv then NameInside mem size maxLevels (p + 6)
  else True

/-- The data of a record, as the parser takes it. -/
def RdataEnds (type : UInt16) (rdlength p stop : Nat) : Prop :=
  if type = typeA then stop = p + 4
  else if type = typeAaaa then stop = p + 16
  else if hasName type then Name mem size maxLevels p stop
  else if type = typeSrv then Name mem size maxLevels (p + 6) stop
  else stop = p + rdlength

/-- The checks before the data of a record. -/
def Fixed (p : Nat) : Prop :=
  p + 10 ≤ size ∧ (isKnown (word16 mem p) = true → word16 mem (p + 2) = 1) ∧
    p + 10 + (word16 mem (p + 8)).toNat ≤ size

/-- The data of a record is inside, if its name is accepted and it passes the checks. -/
def RrInside (start : Nat) : Prop :=
  NameInside mem size maxLevels start ∧
    ∀ p, Name mem size maxLevels start p → Fixed mem size p →
      RdataInside mem size (word16 mem p) (p + 10)

/-- A record that is accepted. -/
def Rr (start stop : Nat) : Prop :=
  ∃ p, Name mem size maxLevels start p ∧ Fixed mem size p ∧
    RdataEnds mem size (word16 mem p) (word16 mem (p + 8)).toNat (p + 10) stop

/-- So many records are inside, each where the one before it ends, and what is after them. -/
def Follow (inside : Nat → Prop) (accepted : Nat → Nat → Prop) (after : Nat → Prop) :
    Nat → Nat → Prop
  | 0, start => after start
  | count + 1, start =>
    inside start ∧ ∀ stop, accepted start stop → Follow inside accepted after count stop

/-- The records of a section are inside. -/
def SectionInside (count : Nat) (after : Nat → Prop) (start : Nat) : Prop :=
  Follow (RrInside mem size) (Rr mem size) after count start

/-- The packet is shorter than its header, or all of its queries and records are inside, up to the
first one that is rejected. -/
def PacketInside : Prop :=
  12 ≤ size → Follow (QueryInside mem size) (Query mem size)
    (SectionInside mem size (word16 mem 6).toNat <|
      SectionInside mem size (word16 mem 8).toNat <|
        SectionInside mem size (word16 mem 10).toNat fun _ => True) (word16 mem 4).toNat 12


/-! ## Bounds -/

variable {inside' : Prop}

/-- The read is inside the packet. -/
def Access.ReadInside : Access → Prop
  | .read position => position < size
  | _ => True

/-- The read is inside the packet, the write inside what is allocated for the name, and what is
consumed is inside the packet. -/
def Access.Inside : Access → Prop
  | .read position => position < size
  | .write index allocated => index < allocated
  | .consume _ stop => stop ≤ size

/-- A run makes no access outside if this holds, and else it reads outside of the packet. -/
def Bounded {α : Type} (run : Parser α) (inside : Prop) : Prop :=
  (run.All (Access.ReadInside size) → inside) ∧ (inside → run.All (Access.Inside size))

variable {size} {α β : Type}

theorem Bounded.congr {run : Parser α} {inside : Prop} (h : Bounded size run inside)
    (same : inside ↔ inside') : Bounded size run inside' := by
  rwa [← same]

theorem Bounded.pure (value : α) : Bounded size (pure value : Parser α) True :=
  ⟨fun _ => trivial, fun _ => all_pure value⟩

theorem Bounded.throw (error : Status) : Bounded size (Traced.throw error : Parser α) True :=
  ⟨fun _ => trivial, fun _ => all_throw error⟩

section
variable {first : Parser α} {next : α → Parser β} {inside : Prop} (h : Bounded size first inside)
include h

/-- The second part is bounded where it is reached without leaving the packet. -/
theorem Bounded.bind {inside' : α → Prop}
    (h' : ∀ value, inside → first.result = .ok value → Bounded size (next value) (inside' value)) :
    Bounded size (first >>= next)
      (inside ∧ ∀ value, first.result = .ok value → inside' value) := by
  constructor
  · intro all
    have ⟨before, after⟩ := all_bind.mp all
    have holds := h.1 before
    exact ⟨holds, fun value returned => (h' value holds returned).1 (after value returned)⟩
  · rintro ⟨holds, later⟩
    exact all_bind.mpr ⟨h.2 holds, fun value returned =>
      (h' value holds returned).2 (later value returned)⟩

/-- A part that returns a value. -/
theorem Bounded.then {value : α} (returned : first.result = .ok value)
    (h' : inside → Bounded size (next value) inside') :
    Bounded size (first >>= next) (inside ∧ inside') := by
  constructor
  · intro all
    have ⟨before, after⟩ := (all_bind_of_ok returned next).mp all
    have holds := h.1 before
    exact ⟨holds, (h' holds).1 after⟩
  · rintro ⟨holds, later⟩
    exact (all_bind_of_ok returned next).mpr ⟨h.2 holds, (h' holds).2 later⟩

end

theorem Bounded.ite {condition : Prop} [Decidable condition] {first second : Parser α}
    {inside : Prop} (h : condition → Bounded size first inside)
    (h' : ¬condition → Bounded size second inside') :
    Bounded size (if condition then first else second)
      ((condition → inside) ∧ (¬condition → inside')) := by
  by_cases met : condition
  · rw [if_pos met]
    exact (h met).congr (by simp [met])
  · rw [if_neg met]
    exact (h' met).congr (by simp [met])

theorem Bounded.dite {condition : Prop} [Decidable condition] {first : condition → Parser α}
    {second : ¬condition → Parser α} {inside : Prop}
    (h : ∀ met : condition, Bounded size (first met) inside)
    (h' : ∀ unmet : ¬condition, Bounded size (second unmet) inside') :
    Bounded size (if met : condition then first met else second met)
      ((condition → inside) ∧ (¬condition → inside')) := by
  by_cases met : condition
  · rw [dif_pos met]
    exact (h met).congr (by simp [met])
  · rw [dif_neg met]
    exact (h' met).congr (by simp [met])

/-- Reads up to a position. -/
theorem Bounded.reads (positions : List Nat) {last : Nat} (member : last ∈ positions)
    (most : ∀ position ∈ positions, position ≤ last) (value : α) :
    Bounded size (access (positions.map .read) value : Parser α) (last < size) := by
  constructor
  · intro all
    exact all (.read last) (mem_map.mpr ⟨last, member, rfl⟩)
  · intro inside made logged
    obtain ⟨position, read, rfl⟩ := mem_map.mp logged
    exact Nat.lt_of_le_of_lt (most position read) inside

theorem readByte_bounded (p : Nat) : Bounded size (readByte mem p) (p < size) :=
  Bounded.reads [p] mem_cons_self (by simp) _

theorem read16_bounded (p : Nat) : Bounded size (read16 mem p) (p + 1 < size) :=
  Bounded.reads [p, p + 1] (by simp) (by simp) _

theorem read32_bounded (p : Nat) : Bounded size (read32 mem p) (p + 3 < size) :=
  Bounded.reads [p, p + 1, p + 2, p + 3] (by simp) (by simp) _

/-! ## Names -/

variable {allocated slen : Nat}

variable {p : Nat}

/-- Where the parser comes to from a place. -/
theorem nameInside_succ (levels p : Nat) :
    NameInside mem size (levels + 1) p ↔
      p < size ∧ (isPointer (mem p) = true → p + 1 < size ∧
        (offset mem p < size → NameInside mem size levels (offset mem p))) ∧
      (mem p ≠ 0 → isPointer (mem p) = false → (mem p).toNat ≤ size →
        NameInside mem size (levels + 1) (p + ((mem p).toNat + 1))) := by
  constructor
  · intro inside
    have ⟨first, second⟩ := inside _ .refl (Nat.succ_pos levels)
    refine ⟨first, fun jumps => ⟨second jumps, fun valid place reached => ?_⟩,
      fun visible direct valid place reached => ?_⟩
    · exact inside place (reached.head (.pointer (second jumps) jumps valid))
    · exact inside place (reached.head (.label first visible direct valid))
  · rintro ⟨first, pointer, label⟩ place reached
    rcases reached.cases_head with rfl | ⟨between, next, reached⟩
    · exact fun _ => ⟨first, fun jumps => (pointer jumps).1⟩
    · cases next with
      | label _ visible direct valid => exact label visible direct valid place reached
      | pointer _ jumps valid => exact (pointer jumps).2 valid place reached

theorem NameInside.start {levels p : Nat} (h : NameInside mem size (levels + 1) p) : p < size :=
  (h (levels + 1, p) .refl (Nat.succ_pos levels)).1

theorem isPointer_visible {byte : UInt8} (h : isPointer byte = true) : byte ≠ 0 := by
  rintro rfl
  exact absurd h (by decide)

theorem labelsLen_bounded {jump : Nat → Parser (Nat × Nat)} {levels : Nat}
    (jumps : ∀ p, Bounded size (jump p) (NameInside mem size levels p)) (p : Nat) :
    Bounded size (labelsLen mem size jump p) (NameInside mem size (levels + 1) p) := by
  induction left : size - p using Nat.strongRecOn generalizing p with
  | ind left ih =>
    rw [labelsLen]
    refine ((readByte_bounded mem p).then rfl fun first => .ite (fun _ => .pure _) fun visible =>
      .ite (fun pointer => (read16_bounded mem p).then rfl fun second => .ite (fun _ => .throw _)
        fun valid => (jumps _).bind fun _ _ _ => .pure _) fun direct => .ite (fun _ => .throw _)
          fun valid => (readByte_bounded mem _).then rfl fun inside => .dite
            (fun inside => (ih _ ?_ _ rfl).bind fun _ _ _ => .pure _) fun _ => .throw _).congr ?_
    · omega
    · refine Iff.trans ?_ (nameInside_succ mem levels p).symm
      simp only [implies_true, and_true, true_and, Nat.not_lt, Nat.not_le, Bool.not_eq_true]
      refine and_congr_right fun _ => ⟨fun body => ⟨fun pointer => ?_, fun visible direct => ?_⟩,
        fun both visible => ⟨both.1, fun direct valid => ?_⟩⟩
      · exact (body (isPointer_visible pointer)).1 pointer
      · exact fun valid => by
          obtain ⟨inside, later⟩ := (body visible).2 direct valid
          exact later inside
      · have later := both.2 visible direct valid
        exact ⟨later.start, fun _ => later⟩

/-- No level is left in a place that is reached without one. -/
theorem levels_of_reached {start place : Nat × Nat}
    (reached : Relation.ReflTransGen (Next mem size) start place) : place.1 ≤ start.1 := by
  induction reached with
  | refl => exact Nat.le_refl _
  | tail _ next ih =>
    cases next with
    | label => exact ih
    | pointer => exact Nat.le_of_succ_le ih

theorem getNameLen_bounded (levels p : Nat) :
    Bounded size (getNameLen mem size levels p) (NameInside mem size levels p) := by
  induction levels generalizing p with
  | zero =>
    refine (Bounded.throw _).congr ⟨fun _ place reached some => ?_, fun _ => trivial⟩
    exact absurd (levels_of_reached mem reached) (Nat.not_le.mpr some)
  | succ levels ih => exact labelsLen_bounded mem ih p

/-- A name that is accepted is read. -/
theorem Name.read {levels stop : Nat} (h : Name mem size levels p stop) :
    ∃ name, readName mem size levels p = .ok name ∧ stop = p + name.taken := by
  induction h with
  | root _ zero =>
    rw [readName, readLabels, if_pos zero]
    exact ⟨_, rfl, rfl⟩
  | pointer _ jumps valid _ ih =>
    obtain ⟨name, read, _⟩ := ih
    rw [readName, readLabels, if_neg (isPointer_visible jumps), if_pos jumps,
      if_neg (Nat.not_le.mpr valid), read]
    exact ⟨_, rfl, rfl⟩
  | @label _ p _ visible direct valid inside _ ih =>
    obtain ⟨name, read, rfl⟩ := ih
    rw [readName, readLabels, if_neg visible, direct, if_neg Bool.false_ne_true,
      if_neg (Nat.not_lt.mpr valid), if_pos inside, ← readName, read]
    refine ⟨_, rfl, ?_⟩
    have length := length_labelAt mem p
    simp only [PacketName.cons]
    omega

theorem readLabels_name {levels : Nat}
    (targets : ∀ {p name}, NameInside mem size levels p → readName mem size levels p = .ok name →
      Name mem size levels p (p + name.taken)) {name : PacketName}
    (inside : NameInside mem size (levels + 1) p)
    (read : readLabels mem size (readName mem size levels) p = .ok name) :
    Name mem size (levels + 1) p (p + name.taken) := by
  fun_induction readLabels mem size (readName mem size levels) p generalizing name with
  | case1 p zero =>
    cases read
    exact .root inside.start zero
  | case2 | case4 | case6 => cases read
  | case3 p visible jumps valid =>
    obtain ⟨second, target⟩ := ((nameInside_succ mem levels p).mp inside).2.1 jumps
    have valid := Nat.not_le.mp valid
    cases found : readName mem size levels (offset mem p) with
    | error status =>
      rw [found] at read
      cases read
    | ok target' =>
      rw [found] at read
      cases read
      exact .pointer second jumps valid (targets (target valid) found)
  | case5 p visible direct valid room ih =>
    have direct : isPointer (mem p) = false := by simpa using direct
    have valid := Nat.not_lt.mp valid
    have later := ((nameInside_succ mem levels p).mp inside).2.2 visible direct valid
    cases found : readLabels mem size (readName mem size levels) (p + ((mem p).toNat + 1)) with
    | error status =>
      rw [found] at read
      cases read
    | ok rest =>
      rw [found] at read
      cases read
      have name := Name.label visible direct valid room (ih later found)
      rwa [Nat.add_assoc, ← length_labelAt mem p] at name

/-- A name that is read is accepted. -/
theorem readName_name (levels : Nat) {name : PacketName} (inside : NameInside mem size levels p)
    (read : readName mem size levels p = .ok name) : Name mem size levels p (p + name.taken) := by
  induction levels generalizing p name with
  | zero => cases read
  | succ levels ih => exact readLabels_name mem ih inside read

theorem readBytes_inside {count : Nat} (inside : p + count ≤ size) :
    (readBytes mem p count).All (Access.Inside size) := by
  intro made logged
  obtain ⟨i, below, rfl⟩ := mem_map.mp logged
  have less := mem_range.mp below
  exact (by omega : p + i < size)

theorem writeName_inside {text : Str} (room : slen + text.length ≤ allocated) :
    (writeName allocated slen text).All (Access.Inside size) := by
  intro made logged
  obtain ⟨i, below, rfl⟩ := mem_map.mp logged
  have less := mem_range.mp below
  exact (by omega : slen + i < allocated)

/-- A name is copied into a buffer of its length. -/
theorem labels_inside {jump : Nat → Nat → Parser Str} {levels : Nat}
    (jumps : ∀ {slen p name}, NameInside mem size levels p → readName mem size levels p = .ok name →
      slen + name.text.length ≤ allocated → (jump slen p).All (Access.Inside size))
    {name : PacketName} (inside : NameInside mem size (levels + 1) p)
    (read : readLabels mem size (readName mem size levels) p = .ok name)
    (room : slen + name.text.length ≤ allocated) :
    (labels mem size jump allocated slen p).All (Access.Inside size) := by
  fun_induction readLabels mem size (readName mem size levels) p generalizing name slen with
  | case1 p zero =>
    rw [labels, all_bind_of_ok (readByte_result mem p), if_pos zero]
    exact ⟨(readByte_bounded mem p).2 inside.start, all_pure _⟩
  | case2 | case4 | case6 => cases read
  | case3 p visible pointer valid =>
    obtain ⟨second, target⟩ := ((nameInside_succ mem levels p).mp inside).2.1 pointer
    rw [labels, all_bind_of_ok (readByte_result mem p), if_neg visible, if_pos pointer,
      all_bind_of_ok (read16_result mem p), if_neg valid]
    cases found : readName mem size levels (offset mem p) with
    | error status =>
      rw [found] at read
      cases read
    | ok target' =>
      rw [found] at read
      cases read
      exact ⟨(readByte_bounded mem p).2 inside.start, (read16_bounded mem p).2 second,
        jumps (target (Nat.not_le.mp valid)) found room⟩
  | case5 p visible direct valid next ih =>
    have later := ((nameInside_succ mem levels p).mp inside).2.2 visible (by simpa using direct)
      (Nat.not_lt.mp valid)
    cases found : readLabels mem size (readName mem size levels) (p + ((mem p).toNat + 1)) with
    | error status =>
      rw [found] at read
      cases read
    | ok rest =>
      rw [found] at read
      cases read
      have length := congrArg List.length (rest.text_cons (labelAt mem p) (readLabels_zero found))
      have label := length_labelAt mem p
      rw [length_append, length_append] at length
      dsimp only at room
      rw [labels, all_bind_of_ok (readByte_result mem p), if_neg visible, if_neg direct,
        if_neg valid, all_bind_of_ok (readBytes_result mem _ _),
        all_bind_of_ok (writeName_result _ _ _), all_bind_of_ok (readByte_result mem _),
        all_bind_of_ok (writeName_result _ _ _), dif_pos next, all_bind]
      refine ⟨(readByte_bounded mem p).2 inside.start, readBytes_inside mem (by omega),
        writeName_inside ?_, (readByte_bounded mem _).2 next, writeName_inside (by omega),
        ih later found (by omega), fun _ _ => all_pure _⟩
      exact (by omega : slen + (labelAt mem p).length ≤ allocated)

theorem getName_inside (levels : Nat) {name : PacketName} (inside : NameInside mem size levels p)
    (read : readName mem size levels p = .ok name) (room : slen + name.text.length ≤ allocated) :
    (getName mem size allocated levels slen p).All (Access.Inside size) := by
  induction levels generalizing slen p name with
  | zero => cases read
  | succ levels ih => exact labels_inside mem ih inside read room

theorem parseName_bounded (extra p : Nat) :
    Bounded size (parseName mem size extra p) (NameInside mem size maxLevels p) := by
  refine ((getNameLen_bounded mem maxLevels p).bind fun value inside measured => ?_).congr
    (and_iff_left fun _ _ => trivial)
  refine ⟨fun _ => trivial, fun _ => all_bind.mpr ⟨?_, fun _ _ => all_pure _⟩⟩
  rw [getNameLen_result] at measured
  cases read : readName mem size maxLevels p with
  | error status =>
    rw [read] at measured
    cases measured
  | ok name =>
    rw [read] at measured
    cases measured
    have room : 0 + name.text.length ≤ name.text.length + extra := by omega
    exact getName_inside mem maxLevels inside read room

theorem parseName_accepts (extra : Nat) (inside : NameInside mem size maxLevels p) (stop : Nat) :
    (∃ name part, (parseName mem size extra p).result = .ok (name, part) ∧ stop = p + part) ↔
      Name mem size maxLevels p stop := by
  rw [parseName_result]
  constructor
  · rintro ⟨name, part, returned, rfl⟩
    cases read : readName mem size maxLevels p with
    | error status =>
      rw [read] at returned
      cases returned
    | ok name =>
      rw [read] at returned
      cases returned
      exact readName_name mem maxLevels inside read
  · intro name
    obtain ⟨name, read, rfl⟩ := name.read
    rw [read]
    exact ⟨_, _, rfl, rfl⟩

/-! ## Queries and records -/

/-- What is parsed after a name. -/
theorem Bounded.name {extra start : Nat} {next : Str × Nat → Parser β} (after : Nat → Prop)
    (h : ∀ name part, Name mem size maxLevels start (start + part) →
      Bounded size (next (name, part)) (after (start + part))) :
    Bounded size (parseName mem size extra start >>= next)
      (NameInside mem size maxLevels start ∧
        ∀ stop, Name mem size maxLevels start stop → after stop) := by
  have later : ∀ value : Str × Nat, NameInside mem size maxLevels start →
      (parseName mem size extra start).result = .ok value →
        Bounded size (next value) (after (start + value.2)) := by
    rintro ⟨name, part⟩ inside returned
    exact h name part ((parseName_accepts mem extra inside _).mp ⟨name, part, returned, rfl⟩)
  refine ((parseName_bounded mem extra start).bind later).congr (and_congr_right fun inside => ?_)
  simp only [← parseName_accepts mem extra inside]
  constructor
  · rintro all _ ⟨name, part, returned, rfl⟩
    exact all (name, part) returned
  · rintro all ⟨name, part⟩ returned
    exact all _ ⟨name, part, returned, rfl⟩

theorem parseQuery_bounded (start : Nat) :
    Bounded size (parseQuery mem size start) (QueryInside mem size start) := by
  refine Bounded.name mem (· + 4 ≤ size) fun name part _ => ?_
  refine ((read16_bounded mem _).then (read16_result mem _) fun _ =>
    (read16_bounded mem _).then (read16_result mem _) fun _ => .pure _).congr ?_
  simp only [and_true]
  omega

theorem parseQuery_result {start : Nat} (inside : QueryInside mem size start) (stop : Nat) :
    (∃ query len, (parseQuery mem size start).result = .ok (query, len) ∧ stop = start + len) ↔
      Query mem size start stop := by
  rw [Query]
  simp only [← parseName_accepts mem 4 inside.1]
  constructor
  · rintro ⟨query, len, returned, rfl⟩
    have ⟨⟨name, part⟩, named, fields⟩ := result_bind_eq_ok.mp returned
    obtain ⟨_, rfl⟩ := Prod.mk.inj (Except.ok.inj fields)
    exact ⟨_, ⟨name, part, named, rfl⟩, rfl⟩
  · rintro ⟨_, ⟨name, part, named, rfl⟩, rfl⟩
    exact ⟨_, part + 4, result_bind_eq_ok.mpr ⟨_, named, rfl⟩, rfl⟩

theorem readBytes_bounded (p : Nat) {count : Nat} (some : 0 < count) :
    Bounded size (readBytes mem p count) (p + count ≤ size) := by
  refine ⟨fun all => ?_, readBytes_inside mem⟩
  have last : p + (count - 1) < size :=
    all _ (mem_map.mpr ⟨count - 1, mem_range.mpr (by omega), rfl⟩)
  omega

theorem parseRdata_bounded (type : UInt16) {rdlength : Nat} (fits : p + rdlength ≤ size) :
    Bounded size (parseRdata mem size type rdlength p) (RdataInside mem size type p) := by
  unfold parseRdata RdataInside
  split
  · exact ((readBytes_bounded mem p (by decide)).then (readBytes_result mem _ _)
      fun _ => .pure _).congr (and_iff_left trivial)
  · split
    · exact ((readBytes_bounded mem p (by decide)).then (readBytes_result mem _ _)
        fun _ => .pure _).congr (and_iff_left trivial)
    · split
      · refine (Bounded.name mem (fun _ => True) fun name part _ => ?_).congr ?_
        · exact .pure (Rdata.name name, part)
        · simp
      · split
        · refine ((read16_bounded mem p).then (read16_result mem _) fun _ =>
            (read16_bounded mem _).then (read16_result mem _) fun _ =>
              (read16_bounded mem _).then (read16_result mem _) fun _ =>
                Bounded.name mem (fun _ => True) fun target part _ => ?_).congr ?_
          · exact .pure _
          · simp only [implies_true, and_true]
            refine ⟨fun all => all.2.2.2, fun inside => ?_⟩
            have first := inside.start
            exact ⟨by omega, by omega, by omega, inside⟩
        · exact ⟨fun _ => trivial, fun _ => (all_bind_of_ok (readBytes_result mem _ _) _).mpr
            ⟨readBytes_inside mem fits, all_pure _⟩⟩

/-- A name at the end of what is parsed. -/
theorem parseName_last (extra : Nat) (inside : NameInside mem size maxLevels p) (make : Str → α)
    {before : Nat} (start stop : Nat) (same : start + before = p) :
    (∃ made len, (parseName mem size extra p >>= fun named =>
      pure (make named.1, before + named.2)).result = .ok (made, len) ∧ stop = start + len) ↔
        Name mem size maxLevels p stop := by
  rw [← parseName_accepts mem extra inside stop]
  constructor
  · rintro ⟨_, _, returned, rfl⟩
    have ⟨⟨name, part⟩, named, made⟩ := result_bind_eq_ok.mp returned
    obtain ⟨_, rfl⟩ := Prod.mk.inj (Except.ok.inj made)
    exact ⟨name, part, named, by omega⟩
  · rintro ⟨name, part, named, rfl⟩
    exact ⟨_, _, result_bind_eq_ok.mpr ⟨(name, part), named, rfl⟩, by omega⟩

theorem parseRdata_result (type : UInt16) (rdlength : Nat) (inside : RdataInside mem size type p)
    (stop : Nat) :
    (∃ rdata len, (parseRdata mem size type rdlength p).result = .ok (rdata, len) ∧
      stop = p + len) ↔ RdataEnds mem size type rdlength p stop := by
  have fixed : ∀ {first : Parser Str} {value : Str} {data : Str → Rdata} {count : Nat},
      first.result = .ok value →
        ((∃ rdata len, (first >>= fun value => pure (data value, count)).result = .ok (rdata, len) ∧
          stop = p + len) ↔ stop = p + count) := by
    intro first value data count returned
    rw [result_bind_of_ok returned]
    exact ⟨fun ⟨_, _, same, stop⟩ => (Prod.mk.inj (Except.ok.inj same)).2 ▸ stop,
      fun stop => ⟨_, _, rfl, stop⟩⟩
  unfold parseRdata RdataEnds
  unfold RdataInside at inside
  split
  · exact fixed (readBytes_result mem _ _)
  · next notA =>
    rw [if_neg notA] at inside
    split
    · exact fixed (readBytes_result mem _ _)
    · next notAaaa =>
      rw [if_neg notAaaa] at inside
      split
      · next named =>
        rw [if_pos named] at inside
        have last := parseName_last mem 0 inside Rdata.name p stop (Nat.add_zero p)
        simpa only [Nat.zero_add] using last
      · next unnamed =>
        rw [if_neg unnamed] at inside
        split
        · next srv =>
          rw [if_pos srv] at inside
          exact parseName_last mem 0 inside _ p stop rfl
        · exact fixed (readBytes_result mem _ _)

theorem parseRr_bounded (start : Nat) :
    Bounded size (parseRr mem size start) (RrInside mem size start) := by
  refine Bounded.name mem (fun p => Fixed mem size p →
    RdataInside mem size (word16 mem p) (p + 10)) fun name part _ => ?_
  have fixed : Fixed mem size (start + part) ↔ ¬size < start + part + 10 ∧
      ¬(word16 mem (start + part + 2) ≠ 1 ∧ isKnown (word16 mem (start + part)) = true) ∧
        ¬size < start + part + 10 + (word16 mem (start + part + 8)).toNat := by
    rw [Fixed, Nat.not_lt, Nat.not_lt, not_and', not_not]
  rw [fixed]
  refine (Bounded.ite (fun _ => .throw _) fun long => (read16_bounded mem _).then
    (read16_result mem _) fun _ => (read16_bounded mem _).then (read16_result mem _) fun _ =>
      .ite (fun _ => .throw _) fun known => (read32_bounded mem _).then (read32_result mem _)
        fun _ => (read16_bounded mem _).then (read16_result mem _) fun _ =>
          .ite (fun _ => .throw _) fun fits => (parseRdata_bounded mem _ (Nat.not_lt.mp fits)).bind
            fun _ _ _ => .pure _).congr ?_
  simp only [implies_true, and_true, true_and, and_imp]
  constructor
  · intro all long known fits
    exact (((all long).2.2 known).2.2 fits)
  · intro inside long
    refine ⟨by omega, by omega, fun known => ⟨by omega, by omega, fun fits => ?_⟩⟩
    exact inside long known fits

/-- The result of a record that passes the checks. -/
theorem parseRr_result {start : Nat} (inside : RrInside mem size start) (stop : Nat) :
    (∃ rr len, (parseRr mem size start).result = .ok (rr, len) ∧ stop = start + len) ↔
      Rr mem size start stop := by
  rw [Rr]
  simp only [← parseName_accepts mem 4 inside.1]
  constructor
  · rintro ⟨rr, len, returned, rfl⟩
    have ⟨⟨name, part⟩, named, fields⟩ := result_bind_eq_ok.mp returned
    refine ⟨start + part, ⟨name, part, named, rfl⟩, ?_⟩
    simp only at fields
    split at fields
    · exact nomatch fields
    · next long =>
      simp only [result_bind_of_ok (read16_result mem _)] at fields
      split at fields
      · exact nomatch fields
      · next known =>
        simp only [result_bind_of_ok (read16_result mem _),
          result_bind_of_ok (read32_result mem _)] at fields
        split at fields
        · exact nomatch fields
        · next fits =>
          have fixed : Fixed mem size (start + part) := ⟨Nat.not_lt.mp long,
            fun type => by_contra fun other => known ⟨other, type⟩, Nat.not_lt.mp fits⟩
          have data := inside.2 _ ((parseName_accepts mem 4 inside.1 _).mp ⟨name, part, named, rfl⟩)
            fixed
          have ⟨⟨rdata, len'⟩, parsed, made⟩ := result_bind_eq_ok.mp fields
          obtain ⟨_, rfl⟩ := Prod.mk.inj (Except.ok.inj made)
          exact ⟨fixed, (parseRdata_result mem _ _ data _).mp ⟨rdata, len', parsed, by omega⟩⟩
  · rintro ⟨_, ⟨name, part, named, rfl⟩, fixed, ends⟩
    have data := inside.2 _ ((parseName_accepts mem 4 inside.1 _).mp ⟨name, part, named, rfl⟩) fixed
    obtain ⟨rdata, len, parsed, rfl⟩ := (parseRdata_result mem _ _ data stop).mpr ends
    have ⟨long, known, fits⟩ := fixed
    have accepted : ¬(word16 mem (start + part + 2) ≠ 1 ∧ isKnown (word16 mem (start + part))) :=
      fun ⟨other, type⟩ => other (known type)
    refine ⟨⟨name, word16 mem (start + part), word16 mem (start + part + 2),
      word32 mem (start + part + 4), word16 mem (start + part + 8), rdata⟩, part + 10 + len,
      result_bind_eq_ok.mpr ⟨(name, part), named, ?_⟩, by omega⟩
    simp only [if_neg (Nat.not_lt.mpr long), result_bind_of_ok (read16_result mem _),
      if_neg accepted, result_bind_of_ok (read32_result mem _), if_neg (Nat.not_lt.mpr fits),
      result_bind_of_ok parsed]
    rfl

/-! ## Packets -/

theorem Name.stop_le {levels stop : Nat} (h : Name mem size levels p stop) : stop ≤ size := by
  induction h with
  | root inside _ => exact inside
  | pointer inside => exact inside
  | label _ _ _ _ _ ih => exact ih

theorem Query.stop_le {start stop : Nat} (inside : QueryInside mem size start)
    (h : Query mem size start stop) : stop ≤ size := by
  obtain ⟨p, name, rfl⟩ := h
  exact inside.2 p name

theorem Rr.stop_le {start stop : Nat} (inside : RrInside mem size start)
    (h : Rr mem size start stop) : stop ≤ size := by
  have ⟨p, name, fixed, ends⟩ := h
  have data := inside.2 p name fixed
  have raw := fixed.2.2
  unfold RdataInside at data
  unfold RdataEnds at ends
  split at ends
  · next a =>
    rw [if_pos a] at data
    omega
  · next notA =>
    rw [if_neg notA] at data
    split at ends
    · next aaaa =>
      rw [if_pos aaaa] at data
      omega
    · split at ends
      · exact ends.stop_le
      · split at ends
        · exact ends.stop_le
        · omega

/-- The records of a section and what is parsed after them. -/
theorem parseAll_bounded {parse : Nat → Parser (α × Nat)} {inside : Nat → Prop}
    {accepted : Nat → Nat → Prop} (bounded : ∀ p, Bounded size (parse p) (inside p))
    (result : ∀ {p}, inside p → ∀ stop,
      (∃ record len, (parse p).result = .ok (record, len) ∧ stop = p + len) ↔ accepted p stop)
    (ends : ∀ {p stop}, inside p → accepted p stop → stop ≤ size) {after : Nat → Prop}
    {next : List α × Nat → Parser β} (last : ∀ found, Bounded size (next found) (after found.2))
    (count start : Nat) :
    Bounded size (parseAll parse count start >>= next)
      (Follow inside accepted after count start) := by
  induction count generalizing start next with
  | zero =>
    have nothing : parseAll parse 0 start >>= next = next ([], start) := pure_then _ next
    exact last ([], start)
  | succ count ih =>
    have parts : parseAll parse (count + 1) start >>= next = parse start >>= fun first =>
        access [.consume start (start + first.2)] () >>= fun _ =>
          parseAll parse count (start + first.2) >>= fun rest => next (first.1 :: rest.1, rest.2) := by
      rw [parseAll]
      simp only [bind_bind, pure_then]
    have later : ∀ first : α × Nat, inside start → (parse start).result = .ok first →
        Bounded size (access [.consume start (start + first.2)] () >>= fun _ =>
          parseAll parse count (start + first.2) >>= fun rest => next (first.1 :: rest.1, rest.2))
            (Follow inside accepted after count (start + first.2)) := by
      rintro ⟨record, len⟩ holds returned
      have accept := (result holds (start + len)).mp ⟨record, len, returned, rfl⟩
      have consumed : Bounded size (access [.consume start (start + len)] () : Parser Unit) True :=
        ⟨fun _ => trivial, fun _ => forall_mem_singleton.mpr (ends holds accept)⟩
      exact (consumed.then rfl fun _ => ih (fun found => last (record :: found.1, found.2))
        (start + len)).congr (and_iff_right trivial)
    rw [parts]
    refine ((bounded start).bind later).congr (and_congr_right fun holds => ?_)
    simp only [← result holds]
    constructor
    · rintro all _ ⟨record, len, returned, rfl⟩
      exact all (record, len) returned
    · rintro all ⟨record, len⟩ returned
      exact all _ ⟨record, len, returned, rfl⟩

theorem readHdr_bounded : Bounded size (readHdr mem) (12 ≤ size) := by
  refine ((read16_bounded mem _).then (read16_result mem _) fun _ => (read16_bounded mem _).then
    (read16_result mem _) fun _ => (read16_bounded mem _).then (read16_result mem _) fun _ =>
      (read16_bounded mem _).then (read16_result mem _) fun _ => (read16_bounded mem _).then
        (read16_result mem _) fun _ => (read16_bounded mem _).then (read16_result mem _)
          fun _ => .pure _).congr ?_
  simp only [and_true]
  omega

theorem parseSections_bounded (hdr : Hdr) :
    Bounded size (parseSections mem size hdr) (Follow (QueryInside mem size) (Query mem size)
      (SectionInside mem size hdr.anscount.toNat <| SectionInside mem size hdr.nscount.toNat <|
        SectionInside mem size hdr.arcount.toNat fun _ => True) hdr.qdcount.toNat 12) := by
  have records : ∀ {after : Nat → Prop} {β : Type} {next : List ParsedRr × Nat → Parser β},
      (∀ found, Bounded size (next found) (after found.2)) → ∀ count start,
        Bounded size (parseAll (parseRr mem size) count start >>= next)
          (SectionInside mem size count after start) := fun last =>
    parseAll_bounded (parseRr_bounded mem) (parseRr_result mem) (Rr.stop_le mem) last
  refine parseAll_bounded (parseQuery_bounded mem) (parseQuery_result mem) (Query.stop_le mem)
    (fun ⟨q, start⟩ => ?_) _ _
  refine records (fun ⟨ans, start⟩ => ?_) _ _
  refine records (fun ⟨ns, start⟩ => ?_) _ _
  exact records (fun ⟨arr, start⟩ => .pure _) _ _

theorem pjDnsParsePacket_bounded :
    Bounded size (pjDnsParsePacket mem size) (PacketInside mem size) := by
  refine (Bounded.ite (fun _ => .throw _) fun _ => (readHdr_bounded mem).then (readHdr_result mem)
    fun _ => parseSections_bounded mem _).congr ?_
  simp only [implies_true, true_and, Nat.not_lt]
  exact ⟨fun all long => (all long).2, fun all long => ⟨long, all long⟩⟩

variable (size)

/-- The parser reads only the packet, writes names only where they are allocated, and where it
succeeds all queries and records that it consumes are inside the packet. -/
structure Safe : Prop where
  reads : ∀ p, .read p ∈ (pjDnsParsePacket mem size).log → p < size
  writes : ∀ index allocated, .write index allocated ∈ (pjDnsParsePacket mem size).log →
    index < allocated
  consumes : ∀ packet, (pjDnsParsePacket mem size).result = .ok packet → ∀ start stop,
    .consume start stop ∈ (pjDnsParsePacket mem size).log → stop ≤ size

theorem Safe.inside (h : Safe mem size) : PacketInside mem size := by
  have bounded : Bounded size (pjDnsParsePacket mem size) (PacketInside mem size) :=
    pjDnsParsePacket_bounded mem
  refine bounded.1 fun made logged => ?_
  cases made with
  | read p => exact h.reads p logged
  | write | consume => trivial

theorem PacketInside.safe (h : PacketInside mem size) : Safe mem size := by
  have all := (pjDnsParsePacket_bounded mem).2 h
  exact { reads := fun p logged => all (.read p) logged,
          writes := fun index allocated logged => all (.write index allocated) logged,
          consumes := fun _ _ start stop logged => all (.consume start stop) logged }

/-- The parser is safe exactly for the packets in which it comes to no place outside. -/
theorem dns_parse_safe_iff : Safe mem size ↔ PacketInside mem size :=
  ⟨Safe.inside mem size, PacketInside.safe mem size⟩

/-- The first query of a packet begins behind the header, and is inside if the parser is safe. -/
theorem Safe.first (h : Safe mem size) (long : 12 ≤ size) {count : Nat}
    (some : (word16 mem 4).toNat = count + 1) : QueryInside mem size 12 := by
  have packet := h.inside mem size long
  rw [some] at packet
  exact packet.1

/-- The parser reads the byte behind a header that announces a query. -/
theorem dns_parse_unsafe :
    let mem : Nat → UInt8 := fun p => if p = 5 then 1 else 0
    ¬Safe mem 12 := by
  intro mem safe
  have count : (word16 mem 4).toNat = 0 + 1 := by decide
  have query := safe.first mem 12 (Nat.le_refl 12) count
  exact Nat.lt_irrefl 12 query.1.start

end Pj.Dns
