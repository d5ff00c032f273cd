/-
The history log of packets: `CHMLOG`.

`Add` writes into a ring of `max_log_count` slots, and `Get` copies out those of the kept records
that match two masks, the oldest first.  After a lap its loop looks at the first slot without
asking where the next record goes, so it returns that record twice when it is also the oldest
one (`get_kept_iff`).
-/
import Chm.Lib.RingBuffer
import Chm.Time

namespace Chm

/-! ## `CHMLOGRAW` -/

/-- `logtype_t`. -/
abbrev LogType := Nat

def chmlogTypeAssigned : LogType := 0x1

def chmlogTypeOutput : LogType := 0x2

def chmlogTypeInput : LogType := 0x4

def chmlogTypeSocket : LogType := 0x8

def chmlogTypeMq : LogType := 0x10

def chmlogMaskAssigned : LogType := chmlogTypeAssigned

def chmlogMaskDirection : LogType := chmlogTypeOutput ||| chmlogTypeInput

def chmlogMaskDevice : LogType := chmlogTypeSocket ||| chmlogTypeMq

def chmlogTypeNotassigned : LogType := 0x0

def chmlogTypeOutSocket : LogType := chmlogTypeAssigned ||| chmlogTypeOutput ||| chmlogTypeSocket

def chmlogTypeInSocket : LogType := chmlogTypeAssigned ||| chmlogTypeInput ||| chmlogTypeSocket

def chmlogTypeOutMq : LogType := chmlogTypeAssigned ||| chmlogTypeOutput ||| chmlogTypeMq

def chmlogTypeInMq : LogType := chmlogTypeAssigned ||| chmlogTypeInput ||| chmlogTypeMq

namespace LogType

/-- `IS_CHMLOG_ASSIGNED`. -/
def isAssigned (logtype : LogType) : Bool := chmlogTypeAssigned = logtype &&& chmlogMaskAssigned

/-- `IS_SAFE_CHMLOG_TYPE`. -/
def isSafeType (logtype : LogType) : Bool :=
  chmlogTypeNotassigned = logtype || chmlogTypeOutSocket = logtype ||
    chmlogTypeInSocket = logtype || chmlogTypeOutMq = logtype || chmlogTypeInMq = logtype

/-- `IS_SAFE_CHMLOG_MASK`. -/
def isSafeMask (mask : LogType) : Bool :=
  0 ≠ mask &&& chmlogMaskAssigned || 0 ≠ mask &&& chmlogMaskDirection ||
    0 ≠ mask &&& chmlogMaskDevice

/-- The types that a sender or receiver of packets logs with. -/
def packetTypes : List LogType :=
  [chmlogTypeOutSocket, chmlogTypeInSocket, chmlogTypeOutMq, chmlogTypeInMq]

end LogType

/-- `CHMLOGRAW`. -/
structure ChmLogRaw where
  logType : LogType
  length : Nat
  startTime : Timespec
  finTime : Timespec
  deriving DecidableEq, Repr

/-- `chmlograw_lap::Initialize`. -/
def ChmLogRaw.initial : ChmLogRaw := ⟨chmlogTypeNotassigned, 0, ⟨0, 0⟩, ⟨0, 0⟩⟩

/-! ## `CHMLOG` -/

/-- `CHMLOG` without the two times of enabling and disabling. -/
structure ChmLog where
  enable : Bool
  maxLogCount : Nat
  nextPos : Nat
  lograw : Nat → ChmLogRaw

namespace ChmLog

/-- `Enable`: the last slot is marked as not assigned. -/
def enableLog (log : ChmLog) : Bool × ChmLog :=
  if log.enable then (true, log)
  else if log.maxLogCount = 0 then (false, log)
  else
    (true, { log with
      lograw := Function.update log.lograw (log.maxLogCount - 1) ChmLogRaw.initial
      nextPos := 0
      enable := true })

/-- `Add`; the place moves on before `chmlograw_lap::Set` refuses a type. -/
def add (log : ChmLog) (raw : ChmLogRaw) : Bool × ChmLog :=
  if !log.enable then (true, log)
  else if log.maxLogCount = 0 then (false, log)
  else
    let nextPos := if log.maxLogCount ≤ log.nextPos + 1 then 0 else log.nextPos + 1
    if raw.logType.isSafeType then
      (true, { log with nextPos, lograw := Function.update log.lograw log.nextPos raw })
    else (false, { log with nextPos })

/-- The records that `Get` copies. -/
def copies (dirmask devmask : LogType) (raw : ChmLogRaw) : Bool :=
  raw.logType.isAssigned && !(0 = raw.logType &&& dirmask || 0 = raw.logType &&& devmask)

/-- What `Get` has copied after it has looked at one more record. -/
def put (dirmask devmask : LogType) (plograwarr : List ChmLogRaw) (raw : ChmLogRaw) :
    List ChmLogRaw :=
  if copies dirmask devmask raw then plograwarr ++ [raw] else plograwarr

/-- The loop of `Get` from `curPos` on, with what it has copied so far; no result while `fuel` is
too small to come to an end. -/
def getLoop (log : ChmLog) (dirmask devmask : LogType) (arrsize : Nat) :
    Nat → Bool → Nat → List ChmLogRaw → Option (List ChmLogRaw)
  | 0, _, _, _ => none
  | fuel + 1, isCircled, curPos, plograwarr =>
    let put := fun pos => put dirmask devmask plograwarr (log.lograw pos)
    if arrsize ≤ plograwarr.length then some plograwarr
    else if isCircled ∧ log.nextPos ≤ curPos then some plograwarr
    else if log.maxLogCount ≤ curPos then
      -- The lap ends and goes on at the first slot in the same turn of the loop.
      if isCircled then some plograwarr
      else getLoop log dirmask devmask arrsize fuel true 1 (put 0)
    else getLoop log dirmask devmask arrsize fuel isCircled (curPos + 1) (put curPos)

/-- `Get`, which copies at most `arrsize` records and returns them when it succeeds. -/
def get (log : ChmLog) (arrsize : Int) (dirmask devmask : LogType) : Option (List ChmLogRaw) :=
  if !dirmask.isSafeMask || !devmask.isSafeMask then none
  else
    let arrsize := if (log.maxLogCount : Int) < arrsize then (log.maxLogCount : Int) else arrsize
    let fuel := 2 * log.maxLogCount + 2
    if chmlogTypeNotassigned = (log.lograw (log.maxLogCount - 1)).logType then
      log.getLoop dirmask devmask arrsize.toNat fuel true 0 []
    else log.getLoop dirmask devmask arrsize.toNat fuel false log.nextPos []

variable {log : ChmLog} {adds : List ChmLogRaw} {dirmask devmask : LogType} {arrsize : Nat}

/-! ## The loop -/

theorem put_append (set raws : List ChmLogRaw) (raw : ChmLogRaw) :
    put dirmask devmask set raw ++ raws.filter (copies dirmask devmask) =
      set ++ (raw :: raws).filter (copies dirmask devmask) := by
  rw [put, List.filter_cons]
  split
  · exact List.append_assoc set [raw] _
  · rfl

theorem length_put_le {set : List ChmLogRaw} (raw : ChmLogRaw) (h : ¬arrsize ≤ set.length) :
    (put dirmask devmask set raw).length ≤ arrsize := by
  rw [put]
  split
  · rw [List.length_append]
    exact Nat.lt_of_not_le h
  · exact Nat.le_of_not_le h

/-- The loop in its last lap: up to the place of the next record. -/
theorem getLoop_circled (log : ChmLog) (hnext : log.nextPos ≤ log.maxLogCount) (fuel : Nat) :
    ∀ {curPos : Nat} {set : List ChmLogRaw}, set.length ≤ arrsize → log.nextPos - curPos < fuel →
      log.getLoop dirmask devmask arrsize fuel true curPos set =
        some ((set ++ (RingBuffer.slots log.lograw curPos log.nextPos).filter
          (copies dirmask devmask)).take arrsize) := by
  induction fuel with
  | zero => exact fun _ hfuel => absurd hfuel (Nat.not_lt_zero _)
  | succ fuel ih =>
    intro curPos set hset hfuel
    rw [getLoop]
    by_cases hfilled : arrsize ≤ set.length
    · rw [if_pos hfilled, List.take_left' (Nat.le_antisymm hset hfilled)]
    · rw [if_neg hfilled]
      by_cases hend : log.nextPos ≤ curPos
      · have hnil : RingBuffer.slots log.lograw curPos log.nextPos = [] := by
          rw [RingBuffer.slots, Nat.sub_eq_zero_of_le hend]
          rfl
        rw [if_pos ⟨rfl, hend⟩, hnil, List.filter_nil, List.append_nil,
          List.take_of_length_le hset]
      · have hlt : curPos < log.nextPos := Nat.lt_of_not_le hend
        have hmax : ¬log.maxLogCount ≤ curPos := by omega
        rw [if_neg fun h => hend h.2, if_neg hmax, RingBuffer.slots_cons hlt, ← put_append]
        exact ih (length_put_le _ hfilled) (by omega)

/-- The loop in a lap before the last one: up to the last slot, then the first one, and then the
others up to the place of the next record. -/
theorem getLoop_full (log : ChmLog) (hnext : log.nextPos ≤ log.maxLogCount) (fuel : Nat) :
    ∀ {curPos : Nat} {set : List ChmLogRaw}, set.length ≤ arrsize → curPos ≤ log.maxLogCount →
      (log.maxLogCount - curPos) + log.nextPos + 1 < fuel →
      log.getLoop dirmask devmask arrsize fuel false curPos set =
        some ((set ++ (RingBuffer.slots log.lograw curPos log.maxLogCount ++
          log.lograw 0 :: RingBuffer.slots log.lograw 1 log.nextPos).filter
            (copies dirmask devmask)).take arrsize) := by
  induction fuel with
  | zero => exact fun _ _ hfuel => absurd hfuel (Nat.not_lt_zero _)
  | succ fuel ih =>
    intro curPos set hset hcur hfuel
    rw [getLoop]
    by_cases hfilled : arrsize ≤ set.length
    · rw [if_pos hfilled, List.take_left' (Nat.le_antisymm hset hfilled)]
    · rw [if_neg hfilled, if_neg fun h => Bool.false_ne_true h.1]
      by_cases hend : log.maxLogCount ≤ curPos
      · obtain rfl : curPos = log.maxLogCount := Nat.le_antisymm hcur hend
        rw [if_pos hend, if_neg Bool.false_ne_true, RingBuffer.slots_self, List.nil_append,
          ← put_append]
        exact getLoop_circled log hnext fuel (length_put_le _ hfilled) (by omega)
      · have hlt : curPos < log.maxLogCount := Nat.lt_of_not_le hend
        rw [if_neg hend, RingBuffer.slots_cons hlt, List.cons_append, ← put_append]
        exact ih (length_put_le _ hfilled) hlt (by omega)

/-! ## Runs -/

/-- `Add` after `Add`. -/
def addAll (log : ChmLog) (adds : List ChmLogRaw) : ChmLog :=
  adds.foldl (fun log raw => (log.add raw).2) log

/-- The records that a log of `max` slots has room for, out of all that have been added. -/
def lastAdded (max : Nat) (adds : List ChmLogRaw) : List ChmLogRaw :=
  adds.drop (adds.length - max)

/-- The record has a direction of the one mask and a device of the other. -/
def matchesMasks (dirmask devmask : LogType) (raw : ChmLogRaw) : Bool :=
  0 ≠ raw.logType &&& dirmask && 0 ≠ raw.logType &&& devmask

/-- The log after the records have been added since it was enabled. -/
structure Logged (log : ChmLog) (adds : List ChmLogRaw) : Prop where
  enabled : log.enable = true
  pos : 0 < log.maxLogCount
  holds : RingBuffer.Holds log.lograw log.nextPos log.maxLogCount adds
  terminal : adds.length < log.maxLogCount →
    (log.lograw (log.maxLogCount - 1)).logType = chmlogTypeNotassigned

theorem Logged.enableLog (h : log.enable = false) (hpos : 0 < log.maxLogCount) :
    Logged log.enableLog.2 [] := by
  rw [ChmLog.enableLog, h, if_neg Bool.false_ne_true, if_neg (Nat.ne_of_gt hpos)]
  exact ⟨rfl, hpos, RingBuffer.holds_nil hpos, fun _ => by
    dsimp only
    rw [Function.update_self]
    rfl⟩

theorem isSafeType_of_packet {logtype : LogType} (h : logtype ∈ LogType.packetTypes) :
    logtype.isSafeType = true ∧ logtype.isAssigned = true := by
  have hall : ∀ t ∈ LogType.packetTypes, t.isSafeType = true ∧ t.isAssigned = true := by decide
  exact hall logtype h

theorem Logged.add (h : Logged log adds) {raw : ChmLogRaw}
    (htype : raw.logType ∈ LogType.packetTypes) :
    Logged (log.add raw).2 (adds ++ [raw]) ∧ (log.add raw).2.maxLogCount = log.maxLogCount := by
  have hlog : (log.add raw).2 =
      { log with
        nextPos := RingBuffer.after log.maxLogCount log.nextPos
        lograw := Function.update log.lograw log.nextPos raw } := by
    rw [ChmLog.add, h.enabled, if_neg (Nat.ne_of_gt h.pos), (isSafeType_of_packet htype).1]
    rfl
  rw [hlog]
  refine ⟨⟨h.enabled, h.pos, h.holds.push h.pos raw, fun hlt => ?_⟩, rfl⟩
  dsimp only at hlt ⊢
  rw [List.length_append, List.length_singleton] at hlt
  have hplace : log.nextPos = adds.length :=
    h.holds.next_eq.trans (Nat.mod_eq_of_lt (Nat.lt_of_succ_lt hlt))
  rw [Function.update_of_ne (by omega)]
  exact h.terminal (Nat.lt_of_succ_lt hlt)

theorem Logged.addAll (htypes : ∀ raw ∈ adds, raw.logType ∈ LogType.packetTypes) :
    ∀ {log : ChmLog} {before : List ChmLogRaw}, Logged log before →
      Logged (log.addAll adds) (before ++ adds) ∧
        (log.addAll adds).maxLogCount = log.maxLogCount := by
  induction adds with
  | nil => exact fun h => ⟨(List.append_nil _).symm ▸ h, rfl⟩
  | cons raw adds ih =>
    intro log before h
    obtain ⟨hadd, hmax⟩ := h.add (htypes raw List.mem_cons_self)
    obtain ⟨hrest, hmax'⟩ := ih (fun r hr => htypes r (List.mem_cons_of_mem _ hr)) hadd
    rw [List.append_assoc] at hrest
    exact ⟨hrest, hmax'.trans hmax⟩

/-! ## What `Get` returns -/

theorem copies_eq {raws : List ChmLogRaw}
    (htypes : ∀ raw ∈ raws, raw.logType ∈ LogType.packetTypes) :
    raws.filter (copies dirmask devmask) = raws.filter (matchesMasks dirmask devmask) := by
  refine List.filter_congr fun raw hraw => ?_
  rw [copies, matchesMasks, (isSafeType_of_packet (htypes raw hraw)).2, Bool.true_and,
    Bool.not_or, decide_not, decide_not]

/-- Before the ring is full, and while it is not just at its start, the loop meets the kept
records once; at its start it meets the oldest one again. -/
theorem Logged.get_eq (h : Logged log adds)
    (htypes : ∀ raw ∈ adds, raw.logType ∈ LogType.packetTypes)
    (hdir : dirmask.isSafeMask = true) (hdev : devmask.isSafeMask = true) (arrsize : Int) :
    log.get arrsize dirmask devmask =
      some (((lastAdded log.maxLogCount adds ++
        if adds ≠ [] ∧ log.maxLogCount ∣ adds.length then
          (lastAdded log.maxLogCount adds).head?.toList else []).filter
            (matchesMasks dirmask devmask)).take (min arrsize.toNat log.maxLogCount)) := by
  have hnext : log.nextPos ≤ log.maxLogCount := (h.holds.next_lt h.pos).le
  have hclamp : (if (log.maxLogCount : Int) < arrsize then (log.maxLogCount : Int)
      else arrsize).toNat = min arrsize.toNat log.maxLogCount := by
    split <;> omega
  rw [ChmLog.get, hdir, hdev]
  simp only [Bool.not_true, Bool.or_self, Bool.false_eq_true, if_false, hclamp]
  have hkept : ∀ raw ∈ lastAdded log.maxLogCount adds, raw.logType ∈ LogType.packetTypes :=
    fun raw hraw => htypes raw (List.mem_of_mem_drop hraw)
  rcases Nat.lt_or_ge adds.length log.maxLogCount with hlt | hge
  · -- The ring is not full yet.
    have hplace : log.nextPos = adds.length := h.holds.next_eq.trans (Nat.mod_eq_of_lt hlt)
    have hlast : lastAdded log.maxLogCount adds = adds := by
      rw [lastAdded, Nat.sub_eq_zero_of_le hlt.le, List.drop_zero]
    have hnot : ¬(adds ≠ [] ∧ log.maxLogCount ∣ adds.length) := fun ⟨hne, hdvd⟩ =>
      absurd (Nat.le_of_dvd (List.length_pos_iff.mpr hne) hdvd) (Nat.not_le_of_lt hlt)
    rw [if_pos (h.terminal hlt).symm, if_neg hnot, List.append_nil, hlast,
      getLoop_circled log hnext _ (Nat.zero_le _) (by omega), hplace, h.holds.growing hlt,
      List.nil_append, copies_eq htypes]
  · have hfull := h.holds.full hge
    have hlast : lastAdded log.maxLogCount adds =
        RingBuffer.contents log.lograw log.nextPos log.maxLogCount := hfull.symm
    have hterminal : chmlogTypeNotassigned ≠ (log.lograw (log.maxLogCount - 1)).logType := by
      have hmem : log.lograw (log.maxLogCount - 1) ∈ lastAdded log.maxLogCount adds := by
        rw [hlast, RingBuffer.contents]
        have hcount : log.maxLogCount = (log.maxLogCount - 1) + 1 :=
          (Nat.sub_add_cancel h.pos).symm
        refine List.mem_append_left _ ?_
        rw [hcount, RingBuffer.slots_concat (Nat.le_sub_one_of_lt (h.holds.next_lt h.pos)),
          Nat.add_sub_cancel]
        exact List.mem_append_right _ (List.mem_singleton_self _)
      have hassigned := (isSafeType_of_packet (hkept _ hmem)).2
      intro hnone
      rw [← hnone] at hassigned
      exact absurd hassigned (by decide)
    rw [if_neg hterminal, getLoop_full log hnext _ (Nat.zero_le _) hnext (by omega),
      List.nil_append]
    have hdvd : log.maxLogCount ∣ adds.length ↔ log.nextPos = 0 := by
      rw [h.holds.next_eq, Nat.dvd_iff_mod_eq_zero]
    have hne : adds ≠ [] := by
      rintro rfl
      exact absurd hge (Nat.not_le_of_lt h.pos)
    have hread : RingBuffer.slots log.lograw log.nextPos log.maxLogCount ++
        log.lograw 0 :: RingBuffer.slots log.lograw 1 log.nextPos =
          lastAdded log.maxLogCount adds ++ if adds ≠ [] ∧ log.maxLogCount ∣ adds.length then
            (lastAdded log.maxLogCount adds).head?.toList else [] := by
      rw [hlast, RingBuffer.contents]
      by_cases hzero : log.nextPos = 0
      · rw [if_pos ⟨hne, hdvd.mpr hzero⟩, hzero, RingBuffer.slots_self, List.append_nil,
          RingBuffer.slots_cons h.pos]
        rfl
      · rw [if_neg fun hboth => hzero (hdvd.mp hboth.2), List.append_nil,
          RingBuffer.slots_cons (Nat.pos_of_ne_zero hzero)]
    rw [hread, copies_eq]
    intro raw hraw
    rcases List.mem_append.mp hraw with hraw | hraw
    · exact hkept raw hraw
    · split at hraw
      · exact hkept raw (List.mem_of_mem_head? (Option.mem_toList.mp hraw))
      · cases hraw

/-- `Get` returns the first `arrsize` of the kept records that match, unless the ring has just
come to its start, the oldest record matches, and there is room for one more. -/
theorem get_kept_iff (hdisabled : log.enable = false) (hpos : 0 < log.maxLogCount)
    (htypes : ∀ raw ∈ adds, raw.logType ∈ LogType.packetTypes)
    (hdir : dirmask.isSafeMask = true) (hdev : devmask.isSafeMask = true) (arrsize : Int) :
    (log.enableLog.2.addAll adds).get arrsize dirmask devmask =
        some (((lastAdded log.maxLogCount adds).filter (matchesMasks dirmask devmask)).take
          arrsize.toNat) ↔
      ¬(adds ≠ [] ∧ log.maxLogCount ∣ adds.length ∧
        (∃ raw ∈ (lastAdded log.maxLogCount adds).head?, matchesMasks dirmask devmask raw = true) ∧
        ((lastAdded log.maxLogCount adds).filter (matchesMasks dirmask devmask)).length <
          min arrsize.toNat log.maxLogCount) := by
  obtain ⟨hlogged, hmax⟩ := (Logged.enableLog hdisabled hpos).addAll htypes
  have hmax' : (log.enableLog.2.addAll adds).maxLogCount = log.maxLogCount := by
    rw [hmax, enableLog, hdisabled, if_neg Bool.false_ne_true, if_neg (Nat.ne_of_gt hpos)]
  rw [List.nil_append] at hlogged
  rw [hlogged.get_eq htypes hdir hdev, hmax', List.filter_append]
  generalize hkept : (lastAdded log.maxLogCount adds).filter (matchesMasks dirmask devmask) = kept
  have hlen : kept.length ≤ log.maxLogCount := by
    rw [← hkept]
    refine (List.length_filter_le _ _).trans ?_
    rw [lastAdded, List.length_drop]
    omega
  have htake : kept.take (min arrsize.toNat log.maxLogCount) = kept.take arrsize.toNat := by
    rw [← List.take_take, List.take_of_length_le hlen]
  by_cases hstart : adds ≠ [] ∧ log.maxLogCount ∣ adds.length
  · rw [if_pos hstart]
    simp only [hstart, true_and, Option.some.injEq]
    cases hhead : (lastAdded log.maxLogCount adds).head? with
    | none => simpa using htake
    | some raw =>
      cases hraw : matchesMasks dirmask devmask raw with
      | false => simpa [hraw] using htake
      | true =>
        simp only [Option.toList_some, List.filter_cons, hraw, if_true, List.filter_nil,
          Option.mem_def, Option.some.injEq, exists_eq_left', true_and]
        constructor
        · intro heq
          by_contra hroom
          have hroom : kept.length + 1 ≤ min arrsize.toNat log.maxLogCount := hroom.2
          have hlong := congrArg List.length heq
          rw [List.length_take, List.length_take, List.length_append,
            List.length_singleton] at hlong
          omega
        · intro hle
          have hle := Nat.le_of_not_lt fun hlt => hle ⟨hstart.1, hlt⟩
          rw [List.take_append_of_le_length hle, htake]
  · have hiff : ¬(adds ≠ [] ∧ log.maxLogCount ∣ adds.length ∧
        (∃ raw ∈ (lastAdded log.maxLogCount adds).head?,
          matchesMasks dirmask devmask raw = true) ∧
        kept.length < min arrsize.toNat log.maxLogCount) := fun h => hstart ⟨h.1, h.2.1⟩
    rw [if_neg hstart, List.filter_nil, List.append_nil, htake]
    exact iff_of_true rfl hiff

/-- A log of two slots, with the records of a socket in it. -/
def sampleLog : ChmLog := ⟨false, 2, 0, fun _ => ChmLogRaw.initial⟩

def sampleRaw (sec : Int) : ChmLogRaw := ⟨chmlogTypeOutSocket, 8, ⟨sec, 0⟩, ⟨sec, 1⟩⟩

def sampleInput (sec : Int) : ChmLogRaw := ⟨chmlogTypeInSocket, 8, ⟨sec, 0⟩, ⟨sec, 1⟩⟩

/-- Three records in two slots. -/
theorem get_kept_sample :
    (sampleLog.enableLog.2.addAll [sampleRaw 1, sampleRaw 2, sampleInput 3]).get 5
        chmlogTypeOutput chmlogMaskDevice =
      some (((lastAdded 2 [sampleRaw 1, sampleRaw 2, sampleInput 3]).filter
        (matchesMasks chmlogTypeOutput chmlogMaskDevice)).take 5) :=
  have hdisabled : sampleLog.enable = false := rfl
  (get_kept_iff hdisabled (by decide) (by decide) (by decide) (by decide) 5).mpr
    fun h => absurd h.2.1 (by decide)

/-- With a record sent and one received in two slots, the sent one is returned twice. -/
theorem get_repeats :
    (sampleLog.enableLog.2.addAll [sampleRaw 1, sampleInput 2]).get 2
        chmlogTypeOutput chmlogMaskDevice = some [sampleRaw 1, sampleRaw 1] ∧
      (lastAdded 2 [sampleRaw 1, sampleInput 2]).filter
        (matchesMasks chmlogTypeOutput chmlogMaskDevice) = [sampleRaw 1] := by
  decide

end ChmLog
end Chm
