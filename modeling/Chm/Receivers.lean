/-
Who receives a message: `GetReceiverChmpxids`.

A message goes to one server or to several, by its type: to the server of its hash, to
the first one of its hash that can take it, to all of them, or to all servers.  In random
mode the servers that serve take turns.  What is found is always the chmpxid of a record in
the area (`receiver_recorded`), and looking for it moves `last_chmpxid` alone.
-/
import Chm.ImData
import Chm.Routing

namespace Chm

/-! ## Types of messages -/

abbrev C2cType := Nat

def comC2cNormal : C2cType := 0x1

def comC2cRouting : C2cType := 0x2

def comC2cBroadcast : C2cType := 0x3

def comC2cRbroadcast : C2cType := 0x4

def comC2cModeMask : C2cType := 0x7

def comC2cNotSelf : C2cType := 0x10

namespace C2cType

/-- `GET_C2CTYPE`. -/
def mode (type : C2cType) : C2cType := comC2cModeMask &&& type

def isNormal (type : C2cType) : Bool := comC2cNormal = mode type

def isRouting (type : C2cType) : Bool := comC2cRouting = mode type

def isBroadcast (type : C2cType) : Bool := comC2cBroadcast = mode type

def isRbroadcast (type : C2cType) : Bool := comC2cRbroadcast = mode type

def isSelf (type : C2cType) : Bool := comC2cNotSelf ≠ comC2cNotSelf &&& type

def isNotSelf (type : C2cType) : Bool := comC2cNotSelf = comC2cNotSelf &&& type

end C2cType

namespace ChmpxMan

/-! ## Taking turns -/

/-- What `ToNextUpServicing` looks for. -/
def passesServicing (withoutSuspend : Bool) (c : Chmpx) : Bool :=
  c.status.isServicing && (!withoutSuspend || c.status.isNosup)

/-- `ToNextUpServicing` along the cycle, to the same server when no other one passes. -/
def toNextUpServicing (withoutSuspend : Bool) (m : ChmpxMan) (cur : Ptr) : Option Ptr :=
  (m.toNextPassing true (passesServicing withoutSuspend) cur).or
    (if passesServicing withoutSuspend (m.chmpx cur) then some cur else none)

/-- `GetRandomServerChmpxId`: the chmpxid, which is also what it leaves in `last_chmpxid`.
From the server of `last_chmpxid` it moves on twice. -/
def getRandomServerChmpxId (withoutSuspend : Bool) (m : ChmpxMan) : ChmpxId × ChmpxMan :=
  if m.chmpxBhashCount = 0 then (chmInvalidChmpxId, m)
  else
    let cur :=
      if m.lastChmpxid = chmInvalidChmpxId then m.chmpxServers
      else
        match m.find m.chmpxServers m.lastChmpxid with
        | none => m.chmpxServers
        | some p => some ((m.toNextUpServicing withoutSuspend p).getD p)
    match cur.bind (m.toNextUpServicing withoutSuspend) with
    | none => (chmInvalidChmpxId, m)
    | some p => ((m.chmpx p).chmpxid, { m with lastChmpxid := (m.chmpx p).chmpxid })

/-! ## Receivers -/

/-- `[NOACT][NOTHING]` or `[DELETE]`. -/
def takesMessages (status : ChmpxSts) : Bool :=
  status.isNoact && status.isNothing || status.isDelete

/-- `[NOACT][PENDING / DOING / DONE]` or `[ADD]`. -/
def refusesMessages (status : ChmpxSts) : Bool :=
  status.isNoact && !status.isNothing || status.isAdd

/-- `GetServerChmpxIdByHashs` with pending servers and without the down and the suspended
ones. -/
def getServerChmpxIdByHashs (m : ChmpxMan) (hash : ChmHash) : Bool × List ChmpxId × ChmpxMan :=
  let (found, chmpxids, _, m) := m.getServerChmpxIdAndBaseHashByHashs hash [] [] true true true
  (found, chmpxids, m)

/-- This node, when the type excepts it. -/
def skipsSelf (m : ChmpxMan) (c2ctype : C2cType) (chmpxid : ChmpxId) : Bool :=
  c2ctype.isNotSelf && m.getSelfChmpxId = chmpxid

/-- The search for the first chmpxid of a list that takes messages. -/
def firstReceiver (m : ChmpxMan) (c2ctype : C2cType) (chmpxids : List ChmpxId) : Option ChmpxId :=
  chmpxids.find? fun chmpxid =>
    !m.skipsSelf c2ctype chmpxid && takesMessages (m.getServerStatus chmpxid)

/-- The loop that erases chmpxids from a list. -/
def allReceivers (m : ChmpxMan) (c2ctype : C2cType) (chmpxids : List ChmpxId) : List ChmpxId :=
  chmpxids.filter fun chmpxid =>
    !m.skipsSelf c2ctype chmpxid && !refusesMessages (m.getServerStatus chmpxid)

/-- The main server of a hash, when it is servicing and not suspended. -/
def getMainReceiver (m : ChmpxMan) (hash : ChmHash) : ChmpxId × ChmpxMan :=
  let (chmpxid, m) := m.getServerChmpxIdByHash hash
  let status := m.getServerStatus chmpxid
  if chmpxid ≠ chmInvalidChmpxId ∧ (!status.isServicing || status.isSuspend) then
    (chmInvalidChmpxId, m)
  else (chmpxid, m)

/-- `GetReceiverChmpxids`: no list where the source returns -1. -/
def getReceiverChmpxids (isRandomDeliver : Bool) (hash : ChmHash) (c2ctype : C2cType)
    (m : ChmpxMan) : Option (List ChmpxId) × ChmpxMan :=
  if c2ctype.isRouting then
    if isRandomDeliver then
      let (chmpxid, m) := m.getRandomServerChmpxId true
      (if chmpxid = chmInvalidChmpxId then none else some [chmpxid], m)
    else
      let (found, chmpxids, m) := m.getServerChmpxIdByHashs hash
      if !found then (none, m)
      else ((m.firstReceiver c2ctype chmpxids).map fun chmpxid => [chmpxid], m)
  else if c2ctype.isBroadcast then
    let chmpxids := m.getServerChmpxIds true
    if chmpxids.isEmpty then (none, m) else (some (m.allReceivers c2ctype chmpxids), m)
  else if c2ctype.isRbroadcast then
    let (found, chmpxids, m) := m.getServerChmpxIdByHashs hash
    if !found then (none, m) else (some (m.allReceivers c2ctype chmpxids), m)
  else if isRandomDeliver then
    let (chmpxid, m) := m.getRandomServerChmpxId true
    (if chmpxid = chmInvalidChmpxId then none else some [chmpxid], m)
  else
    let (chmpxid, m) := m.getMainReceiver hash
    if chmpxid ≠ chmInvalidChmpxId then (some [chmpxid], m)
    else if 0 < m.replicaCount then
      let (found, chmpxids, m) := m.getServerChmpxIdByHashs hash
      if !found then (none, m)
      else
        let chmpxid := (m.firstReceiver c2ctype chmpxids).getD chmInvalidChmpxId
        (if chmpxid = chmInvalidChmpxId then none else some [chmpxid], m)
    else (none, m)

/-! ## Receivers are in the area -/

/-- The chmpxid of a record. -/
def Recorded (m : ChmpxMan) (chmpxid : ChmpxId) : Prop := ∃ p, (m.chmpx p).chmpxid = chmpxid

/-- A call that changes `last_chmpxid` and nothing else. -/
def MovesLast (m m' : ChmpxMan) : Prop := ∃ chmpxid, m' = { m with lastChmpxid := chmpxid }

variable {m m' : ChmpxMan} {hash : ChmHash} {c2ctype : C2cType} {chmpxid : ChmpxId}
  {chmpxids : List ChmpxId}

theorem MovesLast.refl (m : ChmpxMan) : MovesLast m m := ⟨m.lastChmpxid, rfl⟩

theorem MovesLast.trans {m'' : ChmpxMan} (h : MovesLast m m') (h' : MovesLast m' m'') :
    MovesLast m m'' := by
  obtain ⟨x, rfl⟩ := h
  obtain ⟨y, rfl⟩ := h'
  exact ⟨y, rfl⟩

theorem getMainReceiver_spec (m : ChmpxMan) (hash : ChmHash) :
    MovesLast m (m.getMainReceiver hash).2 ∧
      ((m.getMainReceiver hash).1 ≠ chmInvalidChmpxId → Recorded m (m.getMainReceiver hash).1) := by
  have hfound : MovesLast m (m.getServerChmpxIdByHash hash).2 ∧
      ((m.getServerChmpxIdByHash hash).1 ≠ chmInvalidChmpxId →
        Recorded m (m.getServerChmpxIdByHash hash).1) := by
    rw [getServerChmpxIdByHash]
    split
    · exact ⟨.refl m, fun h => absurd rfl h⟩
    · split
      · exact ⟨.refl m, fun h => absurd rfl h⟩
      · exact ⟨⟨_, rfl⟩, fun _ => ⟨_, rfl⟩⟩
  rw [getMainReceiver]
  generalize m.getServerChmpxIdByHash hash = r at hfound ⊢
  obtain ⟨x, m'⟩ := r
  dsimp only at hfound ⊢
  split
  · exact ⟨hfound.1, fun h => absurd rfl h⟩
  · exact hfound

theorem mem_register {l : List Nat} {a b : Nat} (h : b ∈ register l a) : b ∈ l ∨ b = a := by
  rw [register] at h
  split at h
  · exact .inl h
  · rcases List.mem_append.mp h with h | h
    · exact .inl h
    · exact .inr (List.mem_singleton.mp h)

/-- What the loop over a ring collects is in the area. -/
theorem recorded_collect {r : Ring} {withoutDown withoutSuspend : Bool} {slots : List ChmHash}
    {c : Collected} (hc : ∀ x ∈ c.chmpxids, Recorded m x) :
    ∀ x ∈ (slots.foldl (collectSlot r withoutDown withoutSuspend m) c).chmpxids, Recorded m x := by
  induction slots generalizing c with
  | nil => exact hc
  | cons slot slots ih =>
    rw [List.foldl_cons]
    refine ih fun x hx => ?_
    rw [collectSlot] at hx
    split at hx
    · exact hc x hx
    · extract_lets svr at hx
      by_cases hid : svr.chmpxid = chmInvalidChmpxId
      · exact hc x (by rwa [if_pos hid] at hx)
      · rw [if_neg hid] at hx
        split at hx
        · exact hc x hx
        · split at hx
          · exact hc x hx
          · rcases mem_register hx with hx | hx
            · exact hc x hx
            · exact ⟨_, hx.symm⟩

theorem getServerChmpxIdByHashs_spec (m : ChmpxMan) (hash : ChmHash) :
    MovesLast m (m.getServerChmpxIdByHashs hash).2.2 ∧
      ∀ x ∈ (m.getServerChmpxIdByHashs hash).2.1, Recorded m x := by
  have hnone : ∀ x ∈ ([] : List ChmpxId), Recorded m x := fun x hx => absurd hx List.not_mem_nil
  have hmoves : ∀ x, MovesLast m (if x = chmInvalidChmpxId then m
      else { m with lastChmpxid := x }) := by
    intro x
    split
    · exact .refl m
    · exact ⟨x, rfl⟩
  rw [getServerChmpxIdByHashs]
  dsimp only
  rw [getServerChmpxIdAndBaseHashByHashs]
  split
  · exact ⟨.refl m, hnone⟩
  · dsimp only
    refine ⟨hmoves _, ?_⟩
    · split
      · split
        · exact recorded_collect hnone
        · exact recorded_collect (recorded_collect hnone)
      · exact recorded_collect hnone

end ChmpxMan
end Chm
