import Mathlib.Tactic.Ring

/-!
# The errors of pjnath

The statuses of `errno.h` that the STUN modules return.
-/

namespace Pjnath.Stun

/-- `PJ_SUCCESS`. -/
def pjSuccess : Int := 0

/-- `PJ_EINVAL`. -/
def pjEinval : Int := 70004

/-- `PJ_EBUSY`. -/
def pjEbusy : Int := 70011

/-- `PJ_EINVALIDOP`. -/
def pjEinvalidop : Int := 70013

/-- `PJNATH_ERRNO_START`. -/
def pjnathErrnoStart : Int := 370000

/-- `PJ_STATUS_FROM_STUN_CODE`. -/
def pjStatusFromStunCode (code : Int) : Int := pjnathErrnoStart + code

/-- `PJ_ETOOMANY`. -/
def pjEtoomany : Int := 70010

/-- `PJ_ETOOSMALL`. -/
def pjEtoosmall : Int := 70019

/-- `PJNATH_EINSTUNMSGLEN`. -/
def pjnathEinstunmsglen : Int := pjnathErrnoStart + 2

/-- `PJNATH_EINSTUNMSGTYPE`. -/
def pjnathEinstunmsgtype : Int := pjnathErrnoStart + 3

/-- `PJNATH_ESTUNTIMEDOUT`. -/
def pjnathEstuntimedout : Int := pjnathErrnoStart + 4

/-- `PJNATH_ESTUNTOOMANYATTR`. -/
def pjnathEstuntoomanyattr : Int := pjnathErrnoStart + 21

/-- `PJNATH_ESTUNINATTRLEN`. -/
def pjnathEstuninattrlen : Int := pjnathErrnoStart + 22

/-- `PJNATH_ESTUNDUPATTR`. -/
def pjnathEstundupattr : Int := pjnathErrnoStart + 23

/-- `PJNATH_ESTUNFINGERPRINT`. -/
def pjnathEstunfingerprint : Int := pjnathErrnoStart + 30

/-- `PJNATH_ESTUNMSGINTPOS`. -/
def pjnathEstunmsgintpos : Int := pjnathErrnoStart + 31

/-- `PJNATH_ESTUNFINGERPOS`. -/
def pjnathEstunfingerpos : Int := pjnathErrnoStart + 33

/-- `PJNATH_EINVAF`. -/
def pjnathEinvaf : Int := pjnathErrnoStart + 42

/-- `PJNATH_ESTUNDESTROYED`. -/
def pjnathEstundestroyed : Int := pjnathErrnoStart + 60

end Pjnath.Stun
