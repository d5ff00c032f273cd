/-
The chmpx status word.

A status is a 64-bit word of five fields: LIVE (up or down), RING (slave, service
out, service in), ACTION (none, add, delete), OPERATE (nothing, pending, doing,
done) and SUSPEND (no client process joined).  The macros of `chmstructure.h`
test and overwrite one field at a time, and three predicates list whole words:
`isSafe` the words a node may hold, `isBaseHash` those of the servers that own a
base hash, `isPendingHash` those of the servers that own a pending hash.

The three predicates compare whole words with the SUSPEND bit cleared, so a fact
about every safe status is a fact about thirty-four words.  `forall_safe` is the
rule the other files use for it.
-/
import Mathlib.Data.BitVec

namespace Chm

/-- `chmpxsts_t`. -/
abbrev ChmpxSts := BitVec 64

namespace ChmpxSts

/-! ## Masks and field values -/

def maskLive : ChmpxSts := 0x1#64
def maskRing : ChmpxSts := 0x30#64
def maskAction : ChmpxSts := 0x300#64
def maskOperate : ChmpxSts := 0x3000#64
def maskSuspend : ChmpxSts := 0x10000#64
def maskAll : ChmpxSts := maskLive ||| maskRing ||| maskAction ||| maskOperate ||| maskSuspend

def valDown : ChmpxSts := 0x0#64
def valUp : ChmpxSts := 0x1#64
def valSlave : ChmpxSts := 0x00#64
def valSrvout : ChmpxSts := 0x10#64
def valSrvin : ChmpxSts := 0x20#64
def valNoact : ChmpxSts := 0x000#64
def valAdd : ChmpxSts := 0x100#64
def valDelete : ChmpxSts := 0x200#64
def valNothing : ChmpxSts := 0x0000#64
def valPending : ChmpxSts := 0x1000#64
def valDoing : ChmpxSts := 0x2000#64
def valDone : ChmpxSts := 0x3000#64
def valNosup : ChmpxSts := 0x00000#64
def valSuspend : ChmpxSts := 0x10000#64

/-! ## The named words -/

def slaveUpNormal : ChmpxSts := valUp ||| valSlave ||| valNoact ||| valNothing
def slaveDownNormal : ChmpxSts := valDown ||| valSlave ||| valNoact ||| valNothing
def srvoutUpNormal : ChmpxSts := valUp ||| valSrvout ||| valNoact ||| valNothing
def srvoutDownNormal : ChmpxSts := valDown ||| valSrvout ||| valNoact ||| valNothing
def srvinUpNormal : ChmpxSts := valUp ||| valSrvin ||| valNoact ||| valNothing
def srvinUpPending : ChmpxSts := valUp ||| valSrvin ||| valNoact ||| valPending
def srvinUpMerging : ChmpxSts := valUp ||| valSrvin ||| valNoact ||| valDoing
def srvinUpMerged : ChmpxSts := valUp ||| valSrvin ||| valNoact ||| valDone
def srvinUpAddpending : ChmpxSts := valUp ||| valSrvin ||| valAdd ||| valPending
def srvinUpAdding : ChmpxSts := valUp ||| valSrvin ||| valAdd ||| valDoing
def srvinUpAdded : ChmpxSts := valUp ||| valSrvin ||| valAdd ||| valDone
def srvinUpDelpending : ChmpxSts := valUp ||| valSrvin ||| valDelete ||| valPending
def srvinUpDeleting : ChmpxSts := valUp ||| valSrvin ||| valDelete ||| valDoing
def srvinUpDeleted : ChmpxSts := valUp ||| valSrvin ||| valDelete ||| valDone
def srvinDownNormal : ChmpxSts := valDown ||| valSrvin ||| valNoact ||| valNothing
def srvinDownDelpending : ChmpxSts := valDown ||| valSrvin ||| valDelete ||| valPending
def srvinDownDeleted : ChmpxSts := valDown ||| valSrvin ||| valDelete ||| valDone

/-! ## Field tests -/

/-- The field of `mask` holds `val`: the shape every `IS_CHMPXSTS_*` test has. -/
def has (mask val status : ChmpxSts) : Bool := val == (status &&& mask)

def isDown (status : ChmpxSts) : Bool := has maskLive valDown status
def isUp (status : ChmpxSts) : Bool := has maskLive valUp status
def isSlave (status : ChmpxSts) : Bool := has maskRing valSlave status
def isSrvout (status : ChmpxSts) : Bool := has maskRing valSrvout status
def isSrvin (status : ChmpxSts) : Bool := has maskRing valSrvin status
def isServer (status : ChmpxSts) : Bool := isSrvout status || isSrvin status
def isNoact (status : ChmpxSts) : Bool := has maskAction valNoact status
def isAdd (status : ChmpxSts) : Bool := has maskAction valAdd status
def isDelete (status : ChmpxSts) : Bool := has maskAction valDelete status
def isNothing (status : ChmpxSts) : Bool := has maskOperate valNothing status
def isPending (status : ChmpxSts) : Bool := has maskOperate valPending status
def isDoing (status : ChmpxSts) : Bool := has maskOperate valDoing status
def isDone (status : ChmpxSts) : Bool := has maskOperate valDone status
def isNosup (status : ChmpxSts) : Bool := has maskSuspend valNosup status
def isSuspend (status : ChmpxSts) : Bool := has maskSuspend valSuspend status
def isOperating (status : ChmpxSts) : Bool := isDoing status || isDone status

/-! ## Field writes -/

/-- Overwrite the field of `mask` by `val`: the shape of every `SET_CHMPXSTS_*`. -/
def put (mask val status : ChmpxSts) : ChmpxSts := (status &&& ~~~mask) ||| val

def setNoact (status : ChmpxSts) : ChmpxSts := put maskAction valNoact status
def setNothing (status : ChmpxSts) : ChmpxSts := put maskOperate valNothing status
def setPending (status : ChmpxSts) : ChmpxSts := put maskOperate valPending status
def setDoing (status : ChmpxSts) : ChmpxSts := put maskOperate valDoing status
def setDone (status : ChmpxSts) : ChmpxSts := put maskOperate valDone status
def setNosup (status : ChmpxSts) : ChmpxSts := put maskSuspend valNosup status
def setSuspend (status : ChmpxSts) : ChmpxSts := put maskSuspend valSuspend status

/-! ## Tests on whole words -/

/-- The words of `IS_SAFE_CHMPXSTS_EX`, in the order of the macro. -/
def safeWords : List ChmpxSts :=
  [slaveUpNormal, slaveDownNormal, srvinUpNormal, srvinUpPending, srvinUpMerging, srvinUpMerged,
    srvinUpAddpending, srvinUpAdding, srvinUpAdded, srvinUpDelpending, srvinUpDeleting,
    srvinUpDeleted, srvinDownNormal, srvinDownDelpending, srvinDownDeleted, srvoutUpNormal,
    srvoutDownNormal]

/-- The words of `IS_CHMPXSTS_BASEHASH`. -/
def baseHashWords : List ChmpxSts :=
  [srvinUpNormal, srvinUpPending, srvinUpMerging, srvinUpMerged, srvinUpDelpending,
    srvinUpDeleting, srvinUpDeleted, srvinDownNormal, srvinDownDelpending, srvinDownDeleted]

/-- The words of `IS_CHMPXSTS_PENDINGHASH`. -/
def pendingHashWords : List ChmpxSts :=
  [srvinUpNormal, srvinUpPending, srvinUpMerging, srvinUpMerged, srvinUpAddpending,
    srvinUpAdding, srvinUpAdded, srvinDownNormal]

/-- The words of `IS_CHMPXSTS_SERVICING`. -/
def servicingWords : List ChmpxSts := [srvinUpNormal, srvinUpDelpending, srvinUpDeleting]

def isSafe (status : ChmpxSts) : Bool :=
  (0#64 == (status &&& ~~~maskAll)) && safeWords.contains (status &&& ~~~maskSuspend)

def isServicing (status : ChmpxSts) : Bool := servicingWords.contains (status &&& ~~~maskSuspend)
def isBaseHash (status : ChmpxSts) : Bool := baseHashWords.contains (status &&& ~~~maskSuspend)
def isPendingHash (status : ChmpxSts) : Bool :=
  pendingHashWords.contains (status &&& ~~~maskSuspend)

/-- A word of `IS_SAFE_CHMPXSTS` whose SUSPEND flag is set only while the server is up. -/
def isSettled (status : ChmpxSts) : Bool :=
  isSafe status && !(isDown status && isSuspend status)

/-! ## The CHANGE macros -/

/-- `CHANGE_CHMPXSTS_SUSPEND_FLAG`. -/
def changeSuspendFlag (status : ChmpxSts) (isSuspend : Bool) : ChmpxSts :=
  if isDown status || isSlave status then setNosup status
  else if isSuspend then setSuspend status
  else setNosup status

/-- `CHANGE_CHMPXSTS_TO_DOWN`. -/
def changeToDown (status : ChmpxSts) : ChmpxSts :=
  if isSrvin status then
    if isUp status then
      if isNoact status then srvinDownNormal
      else if isAdd status then srvoutDownNormal
      else if isDelete status then
        if isOperating status then srvinDownDeleted else srvinDownDelpending
      else status
    else if isDown status then
      if isDelete status then srvinDownDelpending else srvinDownNormal
    else status
  else if isSrvout status then srvoutDownNormal
  else status

/-- `CHANGE_CHMPXSTS_TO_SRVOUT`.  The macro tests the SUSPEND flag after it has
overwritten the whole word, so the flag it tests is the new word's. -/
def changeToSrvout (status : ChmpxSts) : ChmpxSts :=
  if isSrvin status then
    if isUp status then
      if isNoact status then
        if !isOperating status then
          changeSuspendFlag srvinUpDelpending (!isNosup srvinUpDelpending)
        else status
      else if isAdd status then
        if !isOperating status then
          changeSuspendFlag srvoutUpNormal (!isNosup srvoutUpNormal)
        else status
      else status
    else if isDown status then
      if isNoact status then srvinDownDelpending else status
    else status
  else status

/-- `CHANGE_CHMPXSTS_TO_SRVIN`. -/
def changeToSrvin (status : ChmpxSts) : ChmpxSts :=
  if isSrvin status then
    if isUp status && isDelete status && isPending status then
      if isNosup status then srvinUpPending else changeSuspendFlag srvinUpNormal true
    else status
  else if isSrvout status then
    if isUp status && isNoact status && isNosup status then srvinUpAddpending else status
  else status

/-! ## Facts about every safe status -/

/-- The safe words with the SUSPEND bit clear and with it set. -/
def safeStatuses : List ChmpxSts := safeWords ++ safeWords.map (· ||| maskSuspend)

theorem and_maskSuspend (status : ChmpxSts) :
    status &&& maskSuspend = 0#64 ∨ status &&& maskSuspend = maskSuspend := by
  have h : status &&& BitVec.twoPow 64 16 =
      if status.getLsbD 16 then BitVec.twoPow 64 16 else 0#64 := BitVec.and_twoPow status 16
  have hm : maskSuspend = BitVec.twoPow 64 16 := by decide
  rw [hm, h]
  by_cases hb : status.getLsbD 16
  · exact Or.inr (if_pos hb)
  · exact Or.inl (if_neg hb)

theorem eq_or_maskSuspend (status mask : ChmpxSts) :
    status = (status &&& ~~~mask) ||| (status &&& mask) := by
  ext i hi
  simp only [BitVec.getElem_or, BitVec.getElem_and, BitVec.getElem_not]
  cases status[i] <;> cases mask[i] <;> rfl

/-- A write reads back. -/
theorem put_and_self (mask val status : ChmpxSts) (h : val &&& mask = val) :
    put mask val status &&& mask = val := by
  rw [put]
  ext i hi
  have hv : (val &&& mask)[i] = val[i] := by rw [h]
  simp only [BitVec.getElem_or, BitVec.getElem_and, BitVec.getElem_not] at hv ⊢
  cases hm : mask[i] <;> simp_all

/-- A write leaves the other fields. -/
theorem put_and_other (mask val status : ChmpxSts) {other : ChmpxSts}
    (h : mask &&& other = 0#64) (hval : val &&& mask = val) :
    put mask val status &&& other = status &&& other := by
  rw [put]
  ext i hi
  have hv : (val &&& mask)[i] = val[i] := by rw [hval]
  have ho : (mask &&& other)[i] = (0#64)[i] := by rw [h]
  simp only [BitVec.getElem_or, BitVec.getElem_and, BitVec.getElem_not, BitVec.getElem_zero]
    at hv ho ⊢
  cases hm : mask[i] <;> simp_all

/-- A down word has no SUSPEND flag once the flag has been brought in line. -/
theorem changeSuspendFlag_isSettled (status : ChmpxSts) (b : Bool)
    (h : isSafe (changeSuspendFlag status b) = true) :
    isSettled (changeSuspendFlag status b) = true := by
  rw [isSettled, h, Bool.true_and]
  by_cases hd : isDown status = true ∨ isSlave status = true
  · have hs : changeSuspendFlag status b = setNosup status := by
      rw [changeSuspendFlag, if_pos (by simpa using hd)]
    have hno : isSuspend (setNosup status) = false := by
      rw [isSuspend, has, setNosup, put_and_self _ _ _ (by decide)]
      decide
    rw [hs, hno, Bool.and_false]
    rfl
  · have hdown : isDown (changeSuspendFlag status b) = isDown status := by
      rw [changeSuspendFlag, if_neg (by simpa using hd)]
      have hput : ∀ val, val &&& maskSuspend = val →
          isDown (put maskSuspend val status) = isDown status := by
        intro val hval
        rw [isDown, isDown, has, has, put_and_other _ _ _ (by decide) hval]
      split
      · exact hput valSuspend (by decide)
      · exact hput valNosup (by decide)
    have hup : isDown status = false := by
      cases hst : isDown status
      · rfl
      · exact absurd (Or.inl hst) hd
    rw [hdown, hup]
    rfl

/-- A safe status is one of the thirty-four safe words. -/
theorem mem_safeStatuses {status : ChmpxSts} (h : isSafe status = true) :
    status ∈ safeStatuses := by
  rw [isSafe, Bool.and_eq_true] at h
  have hw : (status &&& ~~~maskSuspend) ∈ safeWords := List.contains_iff_mem.mp h.2
  rw [safeStatuses, List.mem_append, List.mem_map]
  rcases and_maskSuspend status with hs | hs
  · left
    have he := eq_or_maskSuspend status maskSuspend
    rw [hs, BitVec.or_zero] at he
    rw [he]
    exact hw
  · right
    refine ⟨status &&& ~~~maskSuspend, hw, ?_⟩
    have he := eq_or_maskSuspend status maskSuspend
    rw [hs] at he
    exact he.symm

/-- A property that holds of the thirty-four safe words holds of every safe
status. -/
theorem forall_safe {p : ChmpxSts → Prop} (hp : ∀ status ∈ safeStatuses, p status)
    {status : ChmpxSts} (h : isSafe status = true) : p status :=
  hp status (mem_safeStatuses h)

end ChmpxSts
end Chm
