import Pjproject.Stun.Encode

/-!
# STUN authentication

`stun_auth.c`: the keys, `pj_stun_authenticate_request` and `pj_stun_authenticate_response`, over the
memory from the first byte of a packet on and the message that has been decoded from it. A rejection
has its code and its text; the response that may be made of them is left out.
-/

namespace Pjnath.Stun
open Pj

/-- `pj_stun_passwd_type`. -/
inductive PasswdType
  | plain
  | hashed
deriving DecidableEq, Repr

/-- A static credential. -/
structure StaticCred where
  realm : Str
  username : Str
  dataType : PasswdType
  data : Str
  nonce : Str
deriving DecidableEq, Repr

/-- The callbacks of a dynamic credential. -/
structure DynCred where
  getAuth : Except Int (Str × Str)
  getPassword : Msg → Option Str → Str → Except Int (PasswdType × Str)
  verifyNonce : Option (Msg → Option Str → Str → Str → Bool)

/-- `pj_stun_auth_cred`. -/
inductive AuthCred
  | static (cred : StaticCred)
  | dynamic (cred : DynCred)

/-- `pj_stun_req_cred_info`. -/
structure ReqCredInfo where
  realm : Str
  username : Str
  nonce : Str
  authKey : Str
deriving DecidableEq, Repr

/-- Why a request is not authenticated: the status of a callback, or a code and a text. -/
inductive Rejection
  | status (status : Int)
  | challenge (errCode : Int) (errText : String)
deriving DecidableEq, Repr

/-- `REMOVE_QUOTE`. -/
def removeQuote (str : Str) : Str :=
  let str := if str.head? = some 34 then str.tail else str
  if str.getLast? = some 34 then str.dropLast else str

/-- `calc_md5_key`, with `pj_md5`. -/
def calcMd5Key (md5 : Str → Str) (realm username passwd : Str) : Str :=
  md5 (removeQuote username ++ [58] ++ removeQuote realm ++ [58] ++ passwd)

/-- `pj_stun_create_key`, of a realm that may be empty. -/
def pjStunCreateKey (md5 : Str → Str) (realm username : Str) (dataType : PasswdType) (data : Str) : Str :=
  if realm ≠ [] ∧ dataType = .plain then calcMd5Key md5 realm username data else data

/-- The loop that looks for MESSAGE-INTEGRITY while counting the position: the attribute, what stands
before it, and whether there is something behind it. -/
def locateMsgint : List Attr → Option Attr → Nat → Option Attr × Nat × Bool
  | [], amsgi, amsgiPos => (amsgi, amsgiPos, false)
  | attr :: rest, amsgi, amsgiPos =>
    if attr.type = attrMessageIntegrity then locateMsgint rest (some attr) amsgiPos
    else if amsgi.isSome then (amsgi, amsgiPos, true)
    else locateMsgint rest none (amsgiPos + (pad4 attr.length.toNat + 4))

/-- The bytes that the HMAC is calculated of. -/
def signedBytes (pkt : Nat → UInt8) (amsgiPos : Nat) (hasAttrBeyondMi : Bool) : Str :=
  let hdr := bytesAt pkt 0 20
  (if hasAttrBeyondMi then setLength hdr (UInt16.ofNat (amsgiPos + 24)) else hdr) ++
    bytesAt pkt 20 amsgiPos

/-- The value of a string attribute. Decoded attributes of the types that it is asked of have no other
kind. -/
def Attr.str (attr : Attr) : Str :=
  match attr.value with
  | .string value => value
  | _ => []

/-- The value of the first attribute of a string type. -/
def findStr (msg : Msg) (attrType : UInt16) : Option Str := (pjStunMsgFindAttr msg attrType).map Attr.str

variable (pkt : Nat → UInt8) (hmac : Str → Str → Vector UInt8 20) (md5 : Str → Str)

/-- `pj_stun_authenticate_response`, with `pj_hmac_sha1`. -/
def pjStunAuthenticateResponse (msg : Msg) (key : Str) : Except Int Unit :=
  match pjStunMsgFindAttr msg attrMessageIntegrity with
  | none => .error (pjStatusFromStunCode 401)
  | some _ =>
    if msg.hdr.length < 24 then .error pjnathEinstunmsglen
    else
      match locateMsgint msg.attr none 0 with
      | (none, _) => .error (pjStatusFromStunCode 400)
      | (some amsgi, amsgiPos, hasAttrBeyondMi) =>
        if amsgi.value ≠ .msgint (hmac key (signedBytes pkt amsgiPos hasAttrBeyondMi)) then
          .error (pjStatusFromStunCode 401)
        else .ok ()

/-- The realm and the nonce of a credential. -/
def AuthCred.getAuth : AuthCred → Except Rejection (Str × Str)
  | .static cred => .ok (cred.realm, cred.nonce)
  | .dynamic cred => cred.getAuth.mapError .status

/-- The username matches, and yields a key. -/
def AuthCred.getKey (cred : AuthCred) (msg : Msg) (realm : Str) (arealm : Option Str) (auser : Str) :
    Except Rejection (Str × Str) :=
  match cred with
  | .static cred =>
    if auser = cred.username then
      .ok (cred.username, pjStunCreateKey md5 realm auser cred.dataType cred.data)
    else .error (.challenge 401 "")
  | .dynamic cred =>
    match cred.getPassword msg arealm auser with
    | .ok (dataType, password) =>
      .ok (auser, pjStunCreateKey md5 (arealm.getD []) auser dataType password)
    | .error _ => .error (.challenge 401 "")

/-- The requirements of long term and of short term credentials. -/
def checkTerm (realm nonce : Str) (arealm anonce : Option Str) : Except Rejection Unit :=
  match arealm with
  | none =>
    if realm ≠ [] then .error (.challenge 400 "Missing REALM")
    else if nonce ≠ [] then .error (.challenge 401 "NONCE required")
    else .ok ()
  | some value =>
    if realm = [] then .ok ()
    else if anonce.isNone ∧ nonce ≠ [] then .error (.challenge 400 "Missing NONCE")
    else if !pjStricmpEq value realm then .error (.challenge 401 "Invalid REALM")
    else .ok ()

/-- The validity of a nonce. -/
def AuthCred.nonceOk (cred : AuthCred) (msg : Msg) (nonce : Str) (arealm : Option Str)
    (auser anonce : Str) : Bool :=
  match cred with
  | .static _ => nonce = [] ∨ anonce = nonce
  | .dynamic cred =>
    match cred.verifyNonce with
    | some verify => verify msg arealm auser anonce
    | none => true

/-- `pj_stun_authenticate_request`, with `pj_md5` and `pj_hmac_sha1`. -/
def pjStunAuthenticateRequest (msg : Msg) (cred : AuthCred) : Except Rejection ReqCredInfo := do
  let (realm, nonce) ← cred.getAuth
  match locateMsgint msg.attr none 0 with
  | (none, _) => throw (.challenge (if realm ≠ [] then 401 else 400) "")
  | (some amsgi, amsgiPos, hasAttrBeyondMi) =>
    match findStr msg attrUsername with
    | none => throw (.challenge 400 "Missing USERNAME")
    | some auser =>
      let arealm := findStr msg attrRealm
      if realm ≠ [] ∧ arealm = none then throw (.challenge 400 "Missing REALM")
      else
        let (username, authKey) ← cred.getKey md5 msg realm arealm auser
        let anonce := findStr msg attrNonce
        checkTerm realm nonce arealm anonce
        if !(anonce.all (cred.nonceOk msg nonce arealm auser)) then throw (.challenge 438 "")
        else if amsgi.value ≠ .msgint (hmac authKey (signedBytes pkt amsgiPos hasAttrBeyondMi)) then
          throw (.challenge 401 "MESSAGE-INTEGRITY mismatch")
        else return { realm := realm, username := username, nonce := nonce, authKey := authKey }

end Pjnath.Stun
