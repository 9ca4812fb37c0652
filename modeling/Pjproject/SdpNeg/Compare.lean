import Pjproject.Lib.Checks
import Pjproject.SdpNeg.Renaming

/-!
# Comparing session descriptions

`sdp_cmp.c`. The order of the checks is the one of the source, and an array is compared with
another one of the same length from front to back.
-/

namespace Pjmedia.SdpNeg
open List Pj Sdp Checks

/-- The errors of the comparison. -/
inductive CmpError
  | econnnotequal
  | edirnotequal
  | efmtpnotequal
  | ertpmapnotequal
  | emedianotequal
  | eportnotequal
  | etportnotequal
  | eformatnotequal
  | eoriginnotequal
  | enamenotequal
  | etimenotequal
deriving DecidableEq, Repr

/-- `compare_conn`. -/
def compareConn (c1 c2 : SdpConn) : Except CmpError Unit := do
  check (c1.netType = c2.netType) .econnnotequal
  check (c1.addrType = c2.addrType) .econnnotequal
  check (c1.addr = c2.addr) .econnnotequal

/-- The names of the direction attributes. -/
def directions : List Str :=
  [ofChars ['i', 'n', 'a', 'c', 't', 'i', 'v', 'e'],
    ofChars ['s', 'e', 'n', 'd', 'r', 'e', 'c', 'v'],
    ofChars ['s', 'e', 'n', 'd', 'o', 'n', 'l', 'y'],
    ofChars ['r', 'e', 'c', 'v', 'o', 'n', 'l', 'y']]

/-- `pjmedia_sdp_attr_get_rtpmap`, if it succeeds. -/
def attrRtpmap (attr : SdpAttr) : Option SdpRtpmap := do
  let (pt, scanner) ← pjScanGet csToken (pjScanInit attr.value true)
  let (encName, scanner) ← pjScanGet csToken scanner
  let (slash, scanner) ← pjScanGetChar scanner
  guard (slash = 47)
  let (token, scanner) ← pjScanGet csDigit scanner
  return {
    pt := pt, encName := encName, clockRate := payloadType token
    param :=
      if scanner.peek 0 = 47 then (pjScanGetChar scanner).elim [] fun next => next.2.rest else [] }

/-- The body of the loop of `compare_attr_imp`. -/
def compareAttrTo (attr2 : List SdpAttr) (a1 : SdpAttr) : Except CmpError Unit :=
  if a1.name ∈ directions then check (∃ a2 ∈ attr2, a2.name = a1.name) .edirnotequal
  else if a1.name = fmtp then do
    let fmtp1 ← found (pjmediaSdpAttrGetFmtp a1) .efmtpnotequal
    let a2 ← found (pjmediaSdpAttrFind attr2 a1.name fmtp1.1) .efmtpnotequal
    let fmtp2 ← found (pjmediaSdpAttrGetFmtp a2) .efmtpnotequal
    check (fmtp1.2 = fmtp2.2) .efmtpnotequal
  else if a1.name = rtpmap then do
    let r1 ← found (attrRtpmap a1) .ertpmapnotequal
    let a2 ← found (pjmediaSdpAttrFind attr2 a1.name r1.pt) .ertpmapnotequal
    let r2 ← found (attrRtpmap a2) .ertpmapnotequal
    check (r1.pt = r2.pt) .ertpmapnotequal
    check (r1.encName = r2.encName) .ertpmapnotequal
    check (r1.clockRate = r2.clockRate) .ertpmapnotequal
    check (r1.param = r2.param) .ertpmapnotequal
  else .ok ()

/-- `compare_attr_imp`. -/
def compareAttrImp (attr1 attr2 : List SdpAttr) : Except CmpError Unit :=
  each (compareAttrTo attr2) attr1

/-- `compare_attr`. -/
def compareAttr (attr1 attr2 : List SdpAttr) : Except CmpError Unit := do
  compareAttrImp attr1 attr2
  compareAttrImp attr2 attr1

/-- `pjmedia_sdp_media_cmp`. -/
def pjmediaSdpMediaCmp (sd1 sd2 : SdpMedia) : Except CmpError Unit := do
  check (sd1.media = sd2.media) .emedianotequal
  check (sd1.port = sd2.port) .eportnotequal
  check (sd1.portCount = sd2.portCount) .eportnotequal
  check (sd1.transport = sd2.transport) .etportnotequal
  if sd1.port = 0 then .ok ()
  else do
    check (sd1.fmt.length = sd2.fmt.length) .eformatnotequal
    each (fun fmt => check (fmt.1 = fmt.2) .eformatnotequal) (sd1.fmt.zip sd2.fmt)
    -- The status of `compare_conn` is overwritten by the one of `compare_attr`.
    check (sd1.conn.isSome = sd2.conn.isSome) .emedianotequal
    compareAttr sd1.attr sd2.attr

/-- The comparison of the connections of two sessions. -/
def compareSessionConn (conn1 conn2 : Option SdpConn) : Except CmpError Unit :=
  match conn1, conn2 with
  | some c1, some c2 => compareConn c1 c2
  | none, none => .ok ()
  | _, _ => .error .econnnotequal

/-- `pjmedia_sdp_session_cmp`. -/
def pjmediaSdpSessionCmp (sd1 sd2 : SdpSession) : Except CmpError Unit := do
  check (sd1.origin.user = sd2.origin.user) .eoriginnotequal
  check (sd1.origin.id = sd2.origin.id) .eoriginnotequal
  check (sd1.origin.version = sd2.origin.version) .eoriginnotequal
  check (sd1.origin.netType = sd2.origin.netType) .eoriginnotequal
  check (sd1.origin.addrType = sd2.origin.addrType) .eoriginnotequal
  check (sd1.origin.addr = sd2.origin.addr) .eoriginnotequal
  check (sd1.name = sd2.name) .enamenotequal
  compareSessionConn sd1.conn sd2.conn
  check (sd1.start = sd2.start) .etimenotequal
  check (sd1.stop = sd2.stop) .etimenotequal
  compareAttr sd1.attr sd2.attr
  check (sd1.media.length = sd2.media.length) .emedianotequal
  each (fun pair => pjmediaSdpMediaCmp pair.1 pair.2) (sd1.media.zip sd2.media)

/-! ## Equal descriptions -/

/-- One of the attributes is this rtpmap. -/
def HasRtpmap (attr : List SdpAttr) (r : SdpRtpmap) : Prop :=
  ∃ a ∈ attr, a.name = rtpmap ∧ attrRtpmap a = some r

/-- One of the attributes gives these parameters for a payload type. -/
def HasFmtp (attr : List SdpAttr) (pt : Nat) (fmtParam : Str) : Prop :=
  ∃ a ∈ attr, a.name = fmtp ∧
    ∃ fmt, pjmediaSdpAttrGetFmtp a = some (fmt, fmtParam) ∧ payloadType fmt = pt

/-- The same direction, and the same rtpmap and `fmtp` for each payload type. -/
structure SameAttrs (attr1 attr2 : List SdpAttr) : Prop where
  direction : ∀ name ∈ directions,
    (∃ a ∈ attr1, SdpAttr.name a = name) ↔ ∃ a ∈ attr2, SdpAttr.name a = name
  rtpmap : ∀ r, HasRtpmap attr1 r ↔ HasRtpmap attr2 r
  fmtp : ∀ pt fmtParam, HasFmtp attr1 pt fmtParam ↔ HasFmtp attr2 pt fmtParam

/-- Two media lines are the same. With port zero only the line itself counts. -/
structure SameLine (m1 m2 : SdpMedia) : Prop where
  media : m1.media = m2.media
  port : m1.port = m2.port
  portCount : m1.portCount = m2.portCount
  transport : m1.transport = m2.transport
  active : m1.port ≠ 0 → m1.fmt = m2.fmt ∧ m1.conn = m2.conn ∧ SameAttrs m1.attr m2.attr

/-- Two sessions are the same. -/
structure SameSession (s1 s2 : SdpSession) : Prop where
  origin : s1.origin = s2.origin
  name : s1.name = s2.name
  time : s1.start = s2.start ∧ s1.stop = s2.stop
  conn : s1.conn = s2.conn
  count : s1.media.length = s2.media.length
  lines : ∀ (i : Nat) (m1 m2 : SdpMedia), s1.media[i]? = some m1 → s2.media[i]? = some m2 →
    SameLine m1 m2

/-! ## What is compared -/

variable {conn1 conn2 : Option SdpConn}

/-- Two media lines agree in what is compared. -/
structure AlikeLine (m1 m2 : SdpMedia) : Prop where
  media : m1.media = m2.media
  port : m1.port = m2.port
  portCount : m1.portCount = m2.portCount
  transport : m1.transport = m2.transport
  active : m1.port ≠ 0 → m1.fmt = m2.fmt ∧ m1.conn.isSome = m2.conn.isSome ∧
    compareAttr m1.attr m2.attr = .ok ()

/-- Two sessions agree in what is compared. -/
structure AlikeSession (s1 s2 : SdpSession) : Prop where
  origin : s1.origin = s2.origin
  name : s1.name = s2.name
  conn : s1.conn = s2.conn
  time : s1.start = s2.start ∧ s1.stop = s2.stop
  attr : compareAttr s1.attr s2.attr = .ok ()
  count : s1.media.length = s2.media.length
  lines : ∀ (i : Nat) (m1 m2 : SdpMedia), s1.media[i]? = some m1 → s2.media[i]? = some m2 →
    AlikeLine m1 m2

/-- Lines with a port that both have a connection have the same one. -/
def ConnsAgree (s1 s2 : SdpSession) : Prop :=
  ∀ (i : Nat) (m1 m2 : SdpMedia), s1.media[i]? = some m1 → s2.media[i]? = some m2 → m1.port ≠ 0 →
    ∀ c1 ∈ m1.conn, ∀ c2 ∈ m2.conn, c1 = c2

/-- Comparing lists of the same length compares their elements. -/
theorem each_zip_ok {α : Type} {test : α × α → Except CmpError Unit} {left right : List α} :
    each test (left.zip right) = .ok () ↔
      ∀ (i : Nat) (a b : α), left[i]? = some a → right[i]? = some b → test (a, b) = .ok () := by
  rw [each_ok]
  constructor
  · intro all i a b first second
    refine all (a, b) (mem_of_getElem? (i := i) ?_)
    rw [getElem?_zip_eq_some]
    exact ⟨first, second⟩
  · intro all pair member
    have ⟨i, found⟩ := getElem?_of_mem member
    have ⟨first, second⟩ := getElem?_zip_eq_some.mp found
    exact all i _ _ first second

/-- Formats of the same number that are equal in order. -/
theorem formats_ok {left right : List Str} :
    left.length = right.length ∧
        each (fun fmt => check (fmt.1 = fmt.2) CmpError.eformatnotequal) (left.zip right) = .ok () ↔
      left = right := by
  rw [each_zip_ok]
  simp only [check_ok]
  constructor
  · rintro ⟨length, same⟩
    refine ext_getElem length fun i first second => ?_
    exact same i _ _ (getElem?_eq_getElem first) (getElem?_eq_getElem second)
  · rintro rfl
    exact ⟨rfl, fun i a b first second => Option.some.inj (first.symm.trans second)⟩

theorem mediaCmp_ok {m1 m2 : SdpMedia} :
    pjmediaSdpMediaCmp m1 m2 = .ok () ↔ AlikeLine m1 m2 := by
  unfold pjmediaSdpMediaCmp
  simp only [then_ok, check_ok]
  constructor
  · rintro ⟨media, port, portCount, transport, rest⟩
    refine ⟨media, port, portCount, transport, fun active => ?_⟩
    rw [if_neg active] at rest
    simp only [then_ok, check_ok] at rest
    obtain ⟨length, formats, conn, attr⟩ := rest
    exact ⟨formats_ok.mp ⟨length, formats⟩, conn, attr⟩
  · intro alike
    refine ⟨alike.media, alike.port, alike.portCount, alike.transport, ?_⟩
    by_cases inactive : m1.port = 0
    · rw [if_pos inactive]
    · obtain ⟨fmt, conn, attr⟩ := alike.active inactive
      obtain ⟨length, formats⟩ := formats_ok.mpr fmt
      rw [if_neg inactive]
      simp only [then_ok, check_ok]
      exact ⟨length, formats, conn, attr⟩

theorem compareConn_ok {c1 c2 : SdpConn} : compareConn c1 c2 = .ok () ↔ c1 = c2 := by
  unfold compareConn
  simp only [then_ok, check_ok]
  constructor
  · rintro ⟨netType, addrType, addr⟩
    cases c1
    cases c2
    exact congr (congr (congrArg SdpConn.mk netType) addrType) addr
  · rintro rfl
    exact ⟨rfl, rfl, rfl⟩

theorem compareSessionConn_ok :
    compareSessionConn conn1 conn2 = .ok () ↔ conn1 = conn2 := by
  cases conn1 with
  | none =>
    cases conn2 with
    | none => exact iff_of_true rfl rfl
    | some c2 => exact iff_of_false nofun nofun
  | some c1 =>
    cases conn2 with
    | none => exact iff_of_false nofun nofun
    | some c2 => exact compareConn_ok.trans (Option.some_inj).symm

/-- The comparison succeeds exactly if all that it compares agrees. -/
theorem sessionCmp_ok {s1 s2 : SdpSession} :
    pjmediaSdpSessionCmp s1 s2 = .ok () ↔ AlikeSession s1 s2 := by
  unfold pjmediaSdpSessionCmp
  simp only [then_ok, check_ok, compareSessionConn_ok, each_zip_ok, mediaCmp_ok]
  constructor
  · rintro ⟨user, id, version, netType, addrType, addr, name, conn, start, stop, attr, count, lines⟩
    have origin : s1.origin = s2.origin := by
      generalize s1.origin = origin1 at *
      generalize s2.origin = origin2 at *
      cases origin1
      cases origin2
      simp only [SdpOrigin.mk.injEq]
      exact ⟨user, id, version, netType, addrType, addr⟩
    exact ⟨origin, name, conn, ⟨start, stop⟩, attr, count, lines⟩
  · intro alike
    rw [alike.origin]
    exact ⟨rfl, rfl, rfl, rfl, rfl, rfl, alike.name, alike.conn, alike.time.1, alike.time.2,
      alike.attr, alike.count, alike.lines⟩

/-! ## Attributes -/

variable {attr1 : List SdpAttr}

variable {attr2 : List SdpAttr}

/-- The payload type that a value begins with is the one of its format. -/
theorem getFmtp_payloadType {a : SdpAttr} {fmt fmtParam : Str}
    (parsed : pjmediaSdpAttrGetFmtp a = some (fmt, fmtParam)) :
    payloadType a.value = payloadType fmt := by
  unfold pjmediaSdpAttrGetFmtp at parsed
  by_cases empty : a.value.takeWhile pjIsdigit = []
  · rw [if_pos empty] at parsed
    cases parsed
  rw [if_neg empty] at parsed
  have ⟨rest, whole⟩ := takeWhile_prefix pjIsdigit (l := a.value)
  generalize a.value.takeWhile pjIsdigit = token at whole parsed
  rw [← whole, drop_left] at parsed
  rw [← whole]
  split at parsed
  · cases parsed
    exact payloadType_space _ _
  · cases parsed

section
variable {a1 : SdpAttr} (compared : compareAttrTo attr2 a1 = .ok ())
include compared

/-- What the loop establishes of a direction. -/
theorem compareAttrTo_direction (direction : a1.name ∈ directions) :
    ∃ a2 ∈ attr2, SdpAttr.name a2 = a1.name := by
  unfold compareAttrTo at compared
  rw [if_pos direction, check_ok] at compared
  exact compared

/-- What the loop establishes of an `fmtp`. -/
theorem compareAttrTo_fmtp {fmt fmtParam : Str} (name : a1.name = fmtp)
    (parsed : pjmediaSdpAttrGetFmtp a1 = some (fmt, fmtParam)) :
    HasFmtp attr2 (payloadType fmt) fmtParam := by
  have other : a1.name ∉ directions := by
    rw [name]
    decide
  unfold compareAttrTo at compared
  rw [if_neg other, if_pos name] at compared
  simp only [bind_ok, found_ok, check_ok] at compared
  obtain ⟨fmtp1, parsed1, a2, found2, fmtp2, parsed2, same⟩ := compared
  obtain rfl := Option.some.inj (parsed.symm.trans parsed1)
  dsimp only at found2 same
  have matched := attrMatches_iff.mp (find?_some found2)
  refine ⟨a2, mem_of_find?_eq_some found2, matched.1.trans name, fmtp2.1, ?_, ?_⟩
  · rw [parsed2, same]
  · rw [← getFmtp_payloadType parsed2]
    exact matched.2

/-- What the loop establishes of an rtpmap. -/
theorem compareAttrTo_rtpmap {r : SdpRtpmap} (name : a1.name = rtpmap)
    (parsed : attrRtpmap a1 = some r) : HasRtpmap attr2 r := by
  have other : a1.name ∉ directions ∧ a1.name ≠ fmtp := by
    rw [name]
    decide
  unfold compareAttrTo at compared
  rw [if_neg other.1, if_neg other.2, if_pos name] at compared
  simp only [bind_ok, found_ok, check_ok] at compared
  obtain ⟨r1, parsed1, a2, found2, r2, parsed2, _, pt, _, encName, _, clockRate, param⟩ := compared
  obtain rfl := Option.some.inj (parsed.symm.trans parsed1)
  have same : r = r2 := by
    cases r
    cases r2
    simp only [SdpRtpmap.mk.injEq]
    exact ⟨pt, encName, clockRate, param⟩
  have matched := attrMatches_iff.mp (find?_some found2)
  refine ⟨a2, mem_of_find?_eq_some found2, matched.1.trans name, ?_⟩
  rw [parsed2, same]

end

/-- Attributes that the loop has compared are found in the other array. -/
theorem compareAttrImp_sub (compared : compareAttrImp attr1 attr2 = .ok ()) :
    (∀ name ∈ directions, (∃ a ∈ attr1, SdpAttr.name a = name) → ∃ a ∈ attr2, SdpAttr.name a = name) ∧
      (∀ r, HasRtpmap attr1 r → HasRtpmap attr2 r) ∧
        ∀ pt fmtParam, HasFmtp attr1 pt fmtParam → HasFmtp attr2 pt fmtParam := by
  have each := each_ok.mp compared
  refine ⟨?_, ?_, ?_⟩
  · rintro name direction ⟨a1, member, rfl⟩
    exact compareAttrTo_direction (each a1 member) direction
  · rintro r ⟨a1, member, name, parsed⟩
    exact compareAttrTo_rtpmap (each a1 member) name parsed
  · rintro pt fmtParam ⟨a1, member, name, fmt, parsed, rfl⟩
    exact compareAttrTo_fmtp (each a1 member) name parsed

theorem compareAttr_same (compared : compareAttr attr1 attr2 = .ok ()) :
    SameAttrs attr1 attr2 := by
  have ⟨there, back⟩ := then_ok.mp compared
  have ⟨direction, rtpmap, fmtp⟩ := compareAttrImp_sub there
  have ⟨direction', rtpmap', fmtp'⟩ := compareAttrImp_sub back
  exact ⟨fun name member => ⟨direction name member, direction' name member⟩,
    fun r => ⟨rtpmap r, rtpmap' r⟩, fun pt fmtParam => ⟨fmtp pt fmtParam, fmtp' pt fmtParam⟩⟩

/-! ## Soundness -/

/-- Connections that are both there or both missing are equal if those that are there are. -/
theorem conn_eq (both : conn1.isSome = conn2.isSome) (agree : ∀ c1 ∈ conn1, ∀ c2 ∈ conn2, c1 = c2) :
    conn1 = conn2 := by
  cases conn1 with
  | none =>
    cases conn2 with
    | none => rfl
    | some c2 => cases both
  | some c1 =>
    cases conn2 with
    | none => cases both
    | some c2 => exact congrArg some (agree c1 rfl c2 rfl)

/-- Sessions that compare equal are the same exactly if their connections agree, which is not
compared. -/
theorem sessionCmp_sound_iff (s1 s2 : SdpSession) :
    (pjmediaSdpSessionCmp s1 s2 = .ok () → SameSession s1 s2) ↔
      (AlikeSession s1 s2 → ConnsAgree s1 s2) := by
  rw [sessionCmp_ok]
  refine forall_congr' fun alike => ?_
  constructor
  · intro same i m1 m2 first second active c1 there c2 back
    have ⟨_, conn, _⟩ := (same.lines i m1 m2 first second).active active
    exact Option.some.inj (there.symm.trans (conn.trans back))
  · intro agree
    refine ⟨alike.origin, alike.name, alike.time, alike.conn, alike.count, ?_⟩
    intro i m1 m2 first second
    have line := alike.lines i m1 m2 first second
    refine ⟨line.media, line.port, line.portCount, line.transport, fun active => ?_⟩
    have ⟨fmt, both, attr⟩ := line.active active
    exact ⟨fmt, conn_eq both (agree i m1 m2 first second active), compareAttr_same attr⟩

/-- A session whose audio line has a connection. -/
def connSession (addr : Str) : SdpSession :=
  rtpSession 1
    [{ pcmuMedia with conn := some { netType := netTypeIn, addrType := ip4, addr := addr } }]

/-- Sessions with different addresses in their media lines compare equal. -/
theorem sessionCmp_conn_ignored :
    pjmediaSdpSessionCmp (connSession (ofChars ['a'])) (connSession (ofChars ['b'])) = .ok () ∧
      ¬SameSession (connSession (ofChars ['a'])) (connSession (ofChars ['b'])) := by
  refine ⟨rfl, fun same => ?_⟩
  have ⟨_, conn, _⟩ := (same.lines 0 _ _ rfl rfl).active (by decide)
  exact absurd conn (by decide)

end Pjmedia.SdpNeg
