/-
Serial numbers and the composed msgid.

What goes through a message queue is one number: the serial number of the message and two
flags of an ACK in the upper 32 bits, the offset of the sender's msgid in the lower ones.
The serial number keeps off the flags because it wraps below them; only a start value that
is taken from `time` can be above.
-/
import Chm.MqRuns

namespace Chm

/-! ## The upper word -/

def mqAckTypeMask : Nat := 0x80000000
def mqAckCodeMask : Nat := 0x40000000
def mqAckMask : Nat := mqAckTypeMask ||| mqAckCodeMask
def mqAckSuccess : Nat := mqAckTypeMask
def mqAckFailure : Nat := mqAckTypeMask ||| mqAckCodeMask
def minMqSerialNumber : Nat := 0
def maxMqSerialNumber : Nat := 0x3FFFFFFF

def isMqAck (val : Nat) : Bool := low32 val &&& mqAckTypeMask = mqAckTypeMask

def isMqAckSuccess (val : Nat) : Bool := low32 val &&& mqAckMask = mqAckSuccess

/-- The mask is the complement in 64 bits. -/
def getMqSerialNumber (val : Nat) : Nat := low32 val &&& (2 ^ 64 - 1 - mqAckMask)

/-- `COMPOSEDMSGID`. -/
structure ComposedMsgid where
  msgid : Nat
  number : Nat
  isAck : Bool
  isAckSuccess : Bool
  deriving DecidableEq, Repr

namespace ChmEventMq

/-- `GetSerialNumber`: the number, and the next one. -/
def getSerialNumber (serialNum : Nat) : Nat × Nat :=
  let next := (serialNum + 1) % 2 ^ 64
  (serialNum, if maxMqSerialNumber < next then minMqSerialNumber else next)

/-- The member `serial_num` after a number of calls. -/
def serialNumAfter (seed : Nat) : Nat → Nat
  | 0 => seed
  | calls + 1 => (getSerialNumber (serialNumAfter seed calls)).2

/-- The flags of an ACK. -/
def ackBits (isAck ackSuccess : Bool) : Nat :=
  if isAck then (if ackSuccess then mqAckSuccess else mqAckFailure) else 0

/-- `ComposeSerialMsgid` with the base of the msgids, which an empty object has none of. -/
def composeSerialMsgid (base : Option Nat) (msgid serial : Nat) (isAck ackSuccess : Bool) : Nat :=
  match base with
  | none => chmInvalidMsgId
  | some base =>
    compose64 (serial ||| ackBits isAck ackSuccess) ((msgid - base : Int) % 2 ^ 64).toNat

/-- `DecomposeSerialMsgid`. -/
def decomposeSerialMsgid (base : Option Nat) (msgid : Nat) : Option ComposedMsgid :=
  match base with
  | none => none
  | some base =>
    if msgid = chmInvalidMsgId then none
    else
      let tmp := msgid / 2 ^ 32
      some
        { msgid := (base + low32 msgid) % 2 ^ 64
          number := getMqSerialNumber tmp
          isAck := isMqAck tmp
          isAckSuccess := isMqAck tmp && isMqAckSuccess tmp }

/-! ## The flags beside the serial number -/

variable {serial seed calls base offset : Nat} {isAck ackSuccess : Bool}

/-- A conjunction goes through the two parts of a word. -/
theorem and_parts {i a b c d : Nat} (hb : b < 2 ^ i) (hd : d < 2 ^ i) :
    (2 ^ i * a + b) &&& (2 ^ i * c + d) = 2 ^ i * (a &&& c) + (b &&& d) := by
  have hbd : b &&& d < 2 ^ i := Nat.and_lt_two_pow b hd
  apply Nat.eq_of_testBit_eq
  intro j
  rw [Nat.testBit_and, Nat.testBit_two_pow_mul_add _ hb, Nat.testBit_two_pow_mul_add _ hd,
    Nat.testBit_two_pow_mul_add _ hbd]
  by_cases hj : j < i
  · simp [hj]
  · simp [hj]

/-- The flags as a number of two bits. -/
def ackCode (isAck ackSuccess : Bool) : Nat :=
  if isAck then (if ackSuccess then 2 else 3) else 0

theorem ackCode_lt (isAck ackSuccess : Bool) : ackCode isAck ackSuccess < 4 := by
  cases isAck <;> cases ackSuccess <;> decide

theorem or_ackBits (hserial : serial ≤ maxMqSerialNumber) :
    serial ||| ackBits isAck ackSuccess = 2 ^ 30 * ackCode isAck ackSuccess + serial := by
  have hlt : serial < 2 ^ 30 := Nat.lt_succ_of_le hserial
  have hbits : ackBits isAck ackSuccess = 2 ^ 30 * ackCode isAck ackSuccess := by
    cases isAck <;> cases ackSuccess <;> decide
  rw [hbits, Nat.or_comm, Nat.two_pow_add_eq_or_of_lt hlt]

section Word

variable (hserial : serial ≤ maxMqSerialNumber)

include hserial

theorem word_lt : 2 ^ 30 * ackCode isAck ackSuccess + serial < 2 ^ 32 := by
  have hcode := ackCode_lt isAck ackSuccess
  have hle : serial ≤ 0x3FFFFFFF := hserial
  omega

theorem low32_word :
    low32 (2 ^ 30 * ackCode isAck ackSuccess + serial) =
      2 ^ 30 * ackCode isAck ackSuccess + serial :=
  Nat.mod_eq_of_lt (word_lt hserial)

/-- The upper two bits of the word are those of the flags. -/
theorem word_and (c : Nat) :
    (2 ^ 30 * ackCode isAck ackSuccess + serial) &&& 2 ^ 30 * c =
      2 ^ 30 * (ackCode isAck ackSuccess &&& c) := by
  have h := and_parts (a := ackCode isAck ackSuccess) (c := c)
    (Nat.lt_succ_of_le hserial) (Nat.two_pow_pos 30)
  simpa using h

theorem isMqAck_word : isMqAck (2 ^ 30 * ackCode isAck ackSuccess + serial) = isAck := by
  have hmask : mqAckTypeMask = 2 ^ 30 * 2 := by decide
  rw [isMqAck, low32_word hserial, hmask, word_and hserial]
  cases isAck <;> cases ackSuccess <;> decide

theorem isMqAckSuccess_word :
    isMqAckSuccess (2 ^ 30 * ackCode isAck ackSuccess + serial) = (isAck && ackSuccess) := by
  have hmask : mqAckMask = 2 ^ 30 * 3 := by decide
  rw [isMqAckSuccess, low32_word hserial, hmask, word_and hserial]
  cases isAck <;> cases ackSuccess <;> decide

theorem getMqSerialNumber_word :
    getMqSerialNumber (2 ^ 30 * ackCode isAck ackSuccess + serial) = serial := by
  have hlt : serial < 2 ^ 30 := Nat.lt_succ_of_le hserial
  have hmask : 2 ^ 64 - 1 - mqAckMask = 2 ^ 30 * (2 ^ 34 - 4) + (2 ^ 30 - 1) := by decide
  have hcode : ackCode isAck ackSuccess &&& (2 ^ 34 - 4) = 0 := by
    cases isAck <;> cases ackSuccess <;> decide
  rw [getMqSerialNumber, low32_word hserial, hmask, and_parts hlt (by decide), hcode,
    Nat.and_two_pow_sub_one_eq_mod, Nat.mod_eq_of_lt hlt]
  omega

end Word

/-- The serial number of a word is what its flags leave of it. -/
theorem getMqSerialNumber_le (val : Nat) : getMqSerialNumber val ≤ maxMqSerialNumber := by
  have hmask : 2 ^ 64 - 1 - mqAckMask = 2 ^ 30 * (2 ^ 34 - 4) + (2 ^ 30 - 1) := by decide
  have hlow : low32 val = 2 ^ 30 * (low32 val / 2 ^ 30) + low32 val % 2 ^ 30 :=
    (Nat.div_add_mod ..).symm
  have hmod : low32 val % 2 ^ 30 < 2 ^ 30 := Nat.mod_lt _ (by decide)
  have hcode : low32 val / 2 ^ 30 &&& (2 ^ 34 - 4) = 0 := by
    have hsmall : ∀ a < 4, a &&& (2 ^ 34 - 4) = 0 := by decide
    refine hsmall _ ?_
    rw [low32]
    omega
  rw [getMqSerialNumber, hlow, hmask, and_parts hmod (by decide), hcode,
    Nat.and_two_pow_sub_one_eq_mod, maxMqSerialNumber]
  omega

/-- The msgid that is composed is found again, also beside a serial number out of range. -/
theorem msgid_of_decompose {composed : ComposedMsgid} (hoffset : offset < 2 ^ 32)
    (hbase : base + offset < 2 ^ 64)
    (h : decomposeSerialMsgid (some base)
      (composeSerialMsgid (some base) (base + offset) serial isAck ackSuccess) = some composed) :
    composed.msgid = base + offset ∧ composed.number ≤ maxMqSerialNumber := by
  have hsub : (((base + offset : Nat) - base : Int) % 2 ^ 64).toNat = offset := by omega
  have hlow : low32 offset = offset := Nat.mod_eq_of_lt hoffset
  rw [composeSerialMsgid, hsub, compose64, hlow, decomposeSerialMsgid] at h
  dsimp only at h
  split at h
  · cases h
  · obtain rfl := Option.some.inj h
    refine ⟨?_, getMqSerialNumber_le _⟩
    dsimp only
    generalize low32 (serial ||| ackBits isAck ackSuccess) = w
    have hback : low32 (w * 2 ^ 32 + offset) = offset := by
      rw [low32]
      omega
    rw [hback, Nat.mod_eq_of_lt hbase]

/-- What is composed is not the invalid msgid and is taken apart into its members, as long
as the serial number keeps off the flags and the offset of the msgid fits. -/
theorem decompose_compose (hserial : serial ≤ maxMqSerialNumber)
    (hoffset : offset < 2 ^ 32 - 1) (hbase : base + offset < 2 ^ 64) :
    decomposeSerialMsgid (some base)
        (composeSerialMsgid (some base) (base + offset) serial isAck ackSuccess) =
      some ⟨base + offset, serial, isAck, isAck && ackSuccess⟩ := by
  have hword : 2 ^ 30 * ackCode isAck ackSuccess + serial < 2 ^ 32 := word_lt hserial
  have hsub : (((base + offset : Nat) - base : Int) % 2 ^ 64).toNat = offset := by omega
  have hlow : low32 offset = offset := Nat.mod_eq_of_lt (by omega)
  rw [composeSerialMsgid, hsub, or_ackBits hserial, compose64, low32_word hserial, hlow]
  have hne : (2 ^ 30 * ackCode isAck ackSuccess + serial) * 2 ^ 32 + offset ≠ chmInvalidMsgId := by
    rw [chmInvalidMsgId]
    omega
  have hhi : ((2 ^ 30 * ackCode isAck ackSuccess + serial) * 2 ^ 32 + offset) / 2 ^ 32 =
      2 ^ 30 * ackCode isAck ackSuccess + serial := by omega
  have hlo : low32 ((2 ^ 30 * ackCode isAck ackSuccess + serial) * 2 ^ 32 + offset) = offset := by
    rw [low32]
    omega
  rw [decomposeSerialMsgid]
  dsimp only
  rw [if_neg hne, hhi, hlo, isMqAck_word hserial, isMqAckSuccess_word hserial,
    getMqSerialNumber_word hserial, Nat.mod_eq_of_lt hbase]
  cases isAck <;> rfl

/-! ## The serial numbers of a run -/

/-- The numbers go around below the flags; a seed above the range comes once, before them. -/
theorem serialNumAfter_eq (hseed : seed < 2 ^ 64) (calls : Nat) :
    serialNumAfter seed (calls + 1) =
      ((if seed ≤ maxMqSerialNumber then seed else maxMqSerialNumber) + (calls + 1)) % 2 ^ 30 := by
  rw [maxMqSerialNumber]
  induction calls with
  | zero =>
    rw [serialNumAfter, serialNumAfter, getSerialNumber, maxMqSerialNumber, minMqSerialNumber]
    dsimp only
    split <;> split <;> omega
  | succ calls ih =>
    rw [serialNumAfter, ih, getSerialNumber, maxMqSerialNumber, minMqSerialNumber]
    dsimp only
    split <;> split <;> omega

/-- A number does not come again before all the others have come. -/
theorem serialNumAfter_ne (hseed : seed < 2 ^ 64) {calls' : Nat} (hlt : calls < calls')
    (hnear : calls' ≤ calls + maxMqSerialNumber) :
    serialNumAfter seed calls ≠ serialNumAfter seed calls' := by
  rw [maxMqSerialNumber] at hnear
  obtain ⟨n', rfl⟩ := Nat.exists_eq_succ_of_ne_zero (Nat.ne_of_gt (Nat.zero_lt_of_lt hlt))
  rw [Nat.succ_eq_add_one, serialNumAfter_eq hseed n', maxMqSerialNumber]
  cases calls with
  | zero =>
    rw [serialNumAfter]
    split <;> omega
  | succ n =>
    rw [serialNumAfter_eq hseed n, maxMqSerialNumber]
    split <;> omega

section Area

variable {env : Env} {cfg : InfoCfg} {outside : Links Ptr × (Ptr → MqMsgHead)} {m : MsgInfo}
  {ops : List MsgInfo.MsgOp} {bootNsec : Option Nat} {time p : Nat}

end Area

end ChmEventMq
end Chm
