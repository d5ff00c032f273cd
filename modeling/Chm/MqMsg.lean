/-
The message queue heads of the shared area: the flag word of a head, the four lists that
the heads are linked in, and the operations of `chminfo_lap` that hand a head out, take it
back, and activate or disactivate it.

A head is the index of its `MQMSGHEADLIST` in the area, whose size is fixed when the area
is made.  Memory behind the area reads as more heads with contents of its own, so that an
operation that leaves the area shows it.
-/
import Chm.ChmpxList

namespace Chm

def chmInvalidMsgId : Nat := 2 ^ 64 - 1
def chmInvalidPid : Nat := 0
def maxMqueueCount : Int := 32768
def maxServerMqCount : Int := 128
def maxClientMqCount : Int := maxMqueueCount - maxServerMqCount

/-- `msgflag_t`. -/
abbrev MsgFlag := BitVec 8

namespace MsgFlag

/-! ## The flag word -/

def valAssigned : MsgFlag := 0x1#8
def valActivated : MsgFlag := 0x2#8
def valChmpxproc : MsgFlag := 0x4#8
def valClientproc : MsgFlag := 0x8#8

def maskAssigned : MsgFlag := valAssigned
def maskActivated : MsgFlag := valActivated
def maskKind : MsgFlag := valChmpxproc ||| valClientproc
def maskStatus : MsgFlag := maskAssigned ||| maskActivated

def initialized : MsgFlag := 0x0#8

def setActivated (flag : MsgFlag) : MsgFlag :=
  flag &&& ~~~maskStatus ||| valAssigned ||| valActivated

/-- `SET_MQFLAG_DISACTIVATED` is `SET_MQFLAG_ASSIGNED`. -/
def setDisactivated (flag : MsgFlag) : MsgFlag := flag &&& ~~~maskStatus ||| valAssigned

def setChmpxproc (flag : MsgFlag) : MsgFlag := flag &&& ~~~maskKind ||| valChmpxproc

def setClientproc (flag : MsgFlag) : MsgFlag := flag &&& ~~~maskKind ||| valClientproc

def isAssigned (flag : MsgFlag) : Bool := flag &&& maskAssigned = valAssigned

def isNotAssigned (flag : MsgFlag) : Bool := flag &&& maskAssigned = 0x0#8

def isActivated (flag : MsgFlag) : Bool := flag &&& maskActivated = valActivated

def isDisactivated (flag : MsgFlag) : Bool := flag &&& maskActivated ≠ valActivated

def isChmpxproc (flag : MsgFlag) : Bool := flag &&& maskKind = valChmpxproc

def isClientproc (flag : MsgFlag) : Bool := flag &&& maskKind = valClientproc

end MsgFlag

/-- `MQMSGHEAD`. -/
structure MqMsgHead where
  msgid : Nat
  flag : MsgFlag
  pid : Nat
  deriving DecidableEq

namespace MqMsgHead

/-- `NotAccountMqFlag`. -/
def notAccountMqFlag (h : MqMsgHead) : MqMsgHead :=
  { h with flag := MsgFlag.initialized, pid := chmInvalidPid }

/-- `InitializeMqFlag` by a process.  A head of the chmpx process is always activated. -/
def initializeMqFlag (self : Nat) (isChmpx isActivated : Bool) (h : MqMsgHead) : MqMsgHead :=
  let flag := if isChmpx then h.flag.setChmpxproc else h.flag.setClientproc
  let flag := if isChmpx || isActivated then flag.setActivated else flag.setDisactivated
  { h with flag := flag, pid := self }

/-- `SetMqFlagStatus` of a head that stays assigned. -/
def setMqFlagStatus (self : Nat) (isActivated : Bool) (h : MqMsgHead) : Option MqMsgHead :=
  if !h.flag.isChmpxproc && !h.flag.isClientproc then none
  else
    let isActivated := h.flag.isChmpxproc || isActivated
    if !isActivated then
      let flag := if h.flag.isAssigned && h.flag.isDisactivated then h.flag
        else h.flag.setDisactivated
      some { h with flag := flag, pid := self }
    else
      let flag := if h.flag.isAssigned && h.flag.isActivated then h.flag else h.flag.setActivated
      some { h with flag := flag, pid := self }

end MqMsgHead

/-- The members of `CHMINFO` about message queues, and the area they point to. -/
structure MsgInfo where
  maxMqueue : Int
  baseMsgid : Nat
  chmpxMsgCount : Int
  chmpxMsgs : Option Ptr
  activatedMsgCount : Int
  activatedMsgs : Option Ptr
  assignedMsgCount : Int
  assignedMsgs : Option Ptr
  freeMsgCount : Int
  freeMsgs : Option Ptr
  lastMsgidChmpx : Nat
  lastMsgidActivated : Nat
  lastMsgidAssigned : Nat
  /-- The number of `MQMSGHEADLIST` in the area. -/
  areaCount : Nat
  links : Links Ptr
  msghead : Ptr → MqMsgHead

namespace MsgInfo

/-! ## Writing members -/

def setLinks (m : MsgInfo) (links : Links Ptr) : MsgInfo := { m with links := links }

def setHead (m : MsgInfo) (p : Ptr) (h : MqMsgHead) : MsgInfo :=
  { m with msghead := Function.update m.msghead p h }

def setChmpxMsgs (m : MsgInfo) (count : Int) (head : Option Ptr) : MsgInfo :=
  { m with chmpxMsgCount := count, chmpxMsgs := head }

def setActivatedMsgs (m : MsgInfo) (count : Int) (head : Option Ptr) : MsgInfo :=
  { m with activatedMsgCount := count, activatedMsgs := head }

def setAssignedMsgs (m : MsgInfo) (count : Int) (head : Option Ptr) : MsgInfo :=
  { m with assignedMsgCount := count, assignedMsgs := head }

def setFreeMsgs (m : MsgInfo) (count : Int) (head : Option Ptr) : MsgInfo :=
  { m with freeMsgCount := count, freeMsgs := head }

/-! ## `mqmsgheadlist_lap` -/

/-- Where `ToFirst` leaves a cursor. -/
def first (m : MsgInfo) (p : Ptr) : Ptr := m.links.first m.areaCount p

/-- `GetFirstPtr`. -/
def getFirstPtr (m : MsgInfo) : Cursor → Cursor
  | none => none
  | some p => some (m.first p)

/-- `ToNext(true)`: to the next head, at the end to the first. -/
def toNext (m : MsgInfo) (p : Ptr) : Ptr := (m.links.next p).getD (m.first p)

/-- `Push`: before the head at the cursor.  The cursor goes to the new head. -/
def push (m : MsgInfo) (cur : Cursor) (p : Ptr) : Cursor × MsgInfo :=
  match cur with
  | none => (some p, m.setLinks ((m.links.setPrev p none).setNext p none))
  | some cur => (some p, m.setLinks (m.links.linkBefore cur p))

/-- `PopFront`: the first head, and the cursor of the rest. -/
def popFront (m : MsgInfo) : Cursor → Option Ptr × Cursor × MsgInfo
  | none => (none, none, m)
  | some cur =>
    let first := m.first cur
    let next := m.links.next first
    (some first, next, m.setLinks ((m.links.setPrev? next none).setNext first none))

/-- `Retrieve(void)`: the head at the cursor leaves its list, and the cursor goes to the
next one, else to the one before. -/
def retrieve (m : MsgInfo) (p : Ptr) : Cursor × MsgInfo :=
  ((m.links.next p).or (m.links.prev p), m.setLinks (m.links.unlink p))

/-! ## `mqmsgheadarr_lap` -/

/-- The head that `Find` reads for a msgid in the range of the array. -/
def findIndex (m : MsgInfo) (msgid : Nat) : Option Ptr :=
  let base := (m.msghead 0).msgid
  if msgid < base ∨ ((base + m.maxMqueue) % 2 ^ 64).toNat ≤ msgid then none
  else some (msgid - base)

/-- `Find`. -/
def find (m : MsgInfo) (msgid : Nat) : Option Ptr :=
  (m.findIndex msgid).filter fun p => (m.msghead p).msgid = msgid

/-! ## `chminfo_lap` -/

/-- `IsMsgidActivated`. -/
def isMsgidActivated (m : MsgInfo) (msgid : Nat) : Bool :=
  if msgid = chmInvalidMsgId then false
  else
    match m.find msgid with
    | none => false
    | some p => (m.msghead p).flag.isActivated

/-- Put an assigned head in front of its list. -/
def addMsg (isChmpx isActivated : Bool) (p : Ptr) (m : MsgInfo) : MsgInfo :=
  let base := if isChmpx then m.chmpxMsgs
    else if !isActivated then m.assignedMsgs else m.activatedMsgs
  let (cur, m) := m.push base p
  let head := m.getFirstPtr cur
  if isChmpx then m.setChmpxMsgs (m.chmpxMsgCount + 1) head
  else if !isActivated then m.setAssignedMsgs (m.assignedMsgCount + 1) head
  else m.setActivatedMsgs (m.activatedMsgCount + 1) head

/-- `AssignMsg` by a process. -/
def assignMsg (self : Nat) (isChmpx isActivated : Bool) (m : MsgInfo) : Nat × MsgInfo :=
  match m.popFront m.freeMsgs with
  | (none, _, m) => (chmInvalidMsgId, m)
  | (some p, freed, m) =>
    let m := m.setFreeMsgs (m.freeMsgCount - 1) (m.getFirstPtr freed)
    let m := m.setLinks ((m.links.setPrev p none).setNext p none)
    let h := (m.msghead p).notAccountMqFlag.initializeMqFlag self isChmpx isActivated
    (h.msgid, (m.setHead p h).addMsg isChmpx isActivated p)

/-- A counter that is not taken below zero. -/
def decrement (count : Int) : Int := if 0 < count then count - 1 else count

/-- Forget a msgid that is about to be freed. -/
def clearLast (m : MsgInfo) (msgid : Nat) : MsgInfo :=
  let clear := fun last : Nat => if msgid = last then chmInvalidMsgId else last
  { m with
    lastMsgidChmpx := clear m.lastMsgidChmpx
    lastMsgidActivated := clear m.lastMsgidActivated
    lastMsgidAssigned := clear m.lastMsgidAssigned }

/-- Put a retrieved head to the free list. -/
def pushFree (m : MsgInfo) (p : Ptr) : MsgInfo :=
  let m := m.setHead p (m.msghead p).notAccountMqFlag
  let (cur, m) := m.push m.freeMsgs p
  m.setFreeMsgs (m.freeMsgCount + 1) (m.getFirstPtr cur)

/-- `FreeMsg`. -/
def freeMsg (msgid : Nat) (m : MsgInfo) : Bool × MsgInfo :=
  if msgid = chmInvalidMsgId then (false, m)
  else
    let m := m.clearLast msgid
    match m.find msgid with
    | none => (false, m)
    | some p =>
      let flag := (m.msghead p).flag
      if flag.isNotAssigned then (true, m)
      else if flag.isChmpxproc then
        let (cur, m) := m.retrieve p
        let m := m.setChmpxMsgs (decrement m.chmpxMsgCount) (m.getFirstPtr cur)
        (true, m.pushFree p)
      else if flag.isClientproc then
        if flag.isAssigned && !flag.isActivated then
          let (cur, m) := m.retrieve p
          let m := m.setAssignedMsgs (decrement m.assignedMsgCount) (m.getFirstPtr cur)
          (true, m.pushFree p)
        else if flag.isAssigned && flag.isActivated then
          let (cur, m) := m.retrieve p
          let m := m.setActivatedMsgs (decrement m.activatedMsgCount) (m.getFirstPtr cur)
          (true, m.pushFree p)
        else (false, m)
      else (true, m)

/-- The heads that `FreeMsg` may read or write: the first of the array and the one that
`Find` reads; when that one is taken out of its list, the one after it, the ones before it
and the free list's first. -/
def freeMsgReach (m : MsgInfo) (msgid : Nat) : List Ptr :=
  0 :: match m.findIndex msgid with
    | none => []
    | some p =>
      p :: (m.links.next p).toList ++ Links.follow m.links.prev m.areaCount (m.links.prev p) ++
        Links.follow m.links.prev m.areaCount m.freeMsgs

/-- `SetMqFlagStatus`. -/
def setMqFlagStatus (self : Nat) (msgid : Nat) (isAssigned isActivated : Bool) (m : MsgInfo) :
    Bool × MsgInfo :=
  if msgid = chmInvalidMsgId ∨ (!isAssigned && isActivated) then (false, m)
  else if !isAssigned && !isActivated then m.freeMsg msgid
  else
    match m.find msgid with
    | none => (false, m)
    | some p =>
      let h := m.msghead p
      if h.flag.isChmpxproc then
        if !isActivated then (false, m)
        else
          match h.setMqFlagStatus self true with
          | none => (false, m)
          | some h => (true, m.setHead p h)
      else if h.flag.isClientproc then
        if !isActivated then
          if !h.flag.isActivated then (true, m)
          else
            match h.setMqFlagStatus self false with
            | none => (false, m)
            | some h =>
              let (cur, m) := (m.setHead p h).retrieve p
              let count := decrement m.activatedMsgCount
              let m := m.setActivatedMsgs count (if 0 < count then m.getFirstPtr cur else none)
              let (cur, m) := m.push m.assignedMsgs p
              (true, m.setAssignedMsgs (m.assignedMsgCount + 1) (m.getFirstPtr cur))
        else
          if h.flag.isActivated then (true, m)
          else
            match h.setMqFlagStatus self true with
            | none => (false, m)
            | some h =>
              let (cur, m) := (m.setHead p h).retrieve p
              let count := decrement m.assignedMsgCount
              let m := m.setAssignedMsgs count (if 0 < count then m.getFirstPtr cur else none)
              let (cur, m) := m.push m.activatedMsgs p
              (true, m.setActivatedMsgs (m.activatedMsgCount + 1) (m.getFirstPtr cur))
      else (false, m)

/-- `SetMqActivated`. -/
def setMqActivated (self : Nat) (msgid : Nat) (m : MsgInfo) : Bool × MsgInfo :=
  m.setMqFlagStatus self msgid true true

/-- `SetMqDisactivated`. -/
def setMqDisactivated (self : Nat) (msgid : Nat) (m : MsgInfo) : Bool × MsgInfo :=
  m.setMqFlagStatus self msgid true false

/-- The msgid that `GetRandomMsgId` handed out last. -/
def lastMsgid (m : MsgInfo) (isChmpx isActivated : Bool) : Nat :=
  if isChmpx then m.lastMsgidChmpx
  else if isActivated then m.lastMsgidActivated
  else if m.lastMsgidActivated = chmInvalidMsgId ∨ m.lastMsgidAssigned < m.lastMsgidActivated then
    m.lastMsgidAssigned
  else m.lastMsgidActivated

/-- The list that `GetRandomMsgId` starts with when it has no last msgid. -/
def baseMsgs (m : MsgInfo) (isChmpx isActivated : Bool) : Option Ptr :=
  let chmpx := if m.chmpxMsgCount = 0 then none else m.chmpxMsgs
  let activated := if m.activatedMsgCount = 0 then none else m.activatedMsgs
  let assigned := if m.assignedMsgCount = 0 then none else m.assignedMsgs
  if isChmpx then chmpx else if isActivated then activated else assigned.or activated

def setLastMsgid (m : MsgInfo) (isChmpx isActivated : Bool) (msgid : Nat) : MsgInfo :=
  if isChmpx then { m with lastMsgidChmpx := msgid }
  else if isActivated then { m with lastMsgidActivated := msgid }
  else { m with lastMsgidAssigned := msgid }

/-- The msgid of the head after the last one handed out, in the list where that one is. -/
def nextMsgid (m : MsgInfo) (last : Nat) : Nat :=
  if last = chmInvalidMsgId then chmInvalidMsgId
  else
    match m.find last with
    | none => chmInvalidMsgId
    | some p => (m.msghead (m.toNext p)).msgid

/-- `GetRandomMsgId`. -/
def getRandomMsgId (isChmpx isActivated : Bool) (m : MsgInfo) : Nat × MsgInfo :=
  let msgid := m.nextMsgid (m.lastMsgid isChmpx isActivated)
  if msgid ≠ chmInvalidMsgId then (msgid, m.setLastMsgid isChmpx isActivated msgid)
  else
    match m.baseMsgs isChmpx isActivated with
    | none => (chmInvalidMsgId, m)
    | some p =>
      let msgid := (m.msghead p).msgid
      (msgid, m.setLastMsgid isChmpx isActivated msgid)

/-! ## Start-up -/

/-- What `InitializeShmEx` leaves in the area for the queues of the configuration and what
`chminfo_lap::Initialize` makes of it: one free list, with msgids from the base on.
`outside` is the memory behind the area. -/
def initializeMsgs (base : Nat) (maxServerMqCnt maxClientMqCnt : Int)
    (outside : Links Ptr × (Ptr → MqMsgHead)) : Option MsgInfo :=
  let total := maxServerMqCnt + maxClientMqCnt
  if maxServerMqCount < maxServerMqCnt ∨ maxClientMqCount < maxClientMqCnt ∨ maxMqueueCount < total
  then none
  else
    let n := total.toNat
    some
      { maxMqueue := total
        baseMsgid := base
        chmpxMsgCount := 0
        chmpxMsgs := none
        activatedMsgCount := 0
        activatedMsgs := none
        assignedMsgCount := 0
        assignedMsgs := none
        freeMsgCount := total
        freeMsgs := some 0
        lastMsgidChmpx := chmInvalidMsgId
        lastMsgidActivated := chmInvalidMsgId
        lastMsgidAssigned := chmInvalidMsgId
        areaCount := n
        links :=
          { next p := if p < n then (if p + 1 < n then some (p + 1) else none)
              else outside.1.next p
            prev p := if p < n then (if 0 < p then some (p - 1) else none)
              else outside.1.prev p }
        msghead p := if p < n then ⟨base + p, MsgFlag.initialized, chmInvalidPid⟩
          else outside.2 p }

end MsgInfo

/-- `MakeBaseMsgId`. -/
def makeBaseMsgId (env : Env) (group : CStr) (type : ChmpxIdSeedType) (hostname : CStr)
    (ctlport : Int) (cuk ctleps custom : CStr) : Nat :=
  if group = [] then 0
  else
    match makeBaseSeed env group type hostname ctlport cuk ctleps custom with
    | none => 0
    | some seed => compose64 (env.hash seed) 0

end Chm
