/-
The status update time.

A `time_t` holds the seconds in its upper forty bits and the microseconds in its
lower twenty-four.  An older process writes plain seconds, which
`normalizeStatusLastUpdateTime` recognises by being below `basis`, the start of
the 365-day year in which the comparing process first asked.  The comparison
drops the microseconds.
-/
import Mathlib.Data.BitVec

namespace Chm

/-- `struct timespec`. -/
@[ext] structure Timespec where
  sec : Int
  nsec : Int
  deriving DecidableEq, Repr

/-- `time_t`, a signed 64-bit integer. -/
abbrev TimeT := BitVec 64

def statusUpdateTimeHiMask : TimeT := 0xffffffffff000000#64
def statusUpdateTimeLowMask : TimeT := 0x0000000000ffffff#64

/-- The value `get_basis_update_time` keeps from its first call at second `sec`. -/
def getBasisUpdateTime (sec : TimeT) : TimeT :=
  ((sec.sdiv (365 * 24 * 60 * 60) * (365 * 24 * 60 * 60)) <<< 24) &&& statusUpdateTimeHiMask

/-- `GetStatusLastUpdateTime` when the clock shows `sec` and `nsec`. -/
def getStatusLastUpdateTime (sec nsec : TimeT) : TimeT :=
  ((sec <<< 24) &&& statusUpdateTimeHiMask) ||| (nsec.sdiv 1000 &&& statusUpdateTimeLowMask)

def normalizeStatusLastUpdateTime (basis base : TimeT) : TimeT :=
  if basis.sle base then base else (base <<< 24) &&& statusUpdateTimeHiMask

/-- `CompareStatusUpdateTime`: `-1`, `0` or `1`. -/
def compareStatusUpdateTime (basis src1 src2 : TimeT) : Int :=
  let result := (normalizeStatusLastUpdateTime basis src1 &&& statusUpdateTimeHiMask) -
    (normalizeStatusLastUpdateTime basis src2 &&& statusUpdateTimeHiMask)
  if result.slt 0 then -1 else if (0 : TimeT).slt result then 1 else 0

end Chm
