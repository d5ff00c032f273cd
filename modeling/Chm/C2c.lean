/-
A message from a client on its way to the receivers: `Processing` of `COM_C2C`.

The receivers are the one that the packet names, or those that `GetReceiverChmpxids` finds.
The loop takes them one after the other.  Each but the last gets a duplicate of the packet
and the last one the packet itself, of which `RawSend` converts the head in place.  A
receiver that cannot be reached ends the loop.

The area may change between two turns, and what malloc, the sockets and the queue do is
from outside.  `processing_spec` is what this file is for: the receivers in front of the
first one that fails get one packet each, which says what the packet of the client said.
-/
import Chm.Circulation
import Chm.Placed
import Chm.RawSock
import Chm.Receivers
import Chm.Serial

namespace Chm
namespace Wire
namespace C2c

open Windows

/-! ## The packet in memory -/

/-- `COM_C2C`. -/
def comC2c : Nat := 1

/-! Where the members of the head are, of eight bytes each. -/

def c2ctypeAt : Nat := 16

def deptIdsAt : Nat := 24

def termIdsAt : Nat := 40

def peerDeptMsgidAt : Nat := 56

def peerTermMsgidAt : Nat := 64

def mqSerialNumAt : Nat := 72

def hashAt : Nat := 80

def reqtimeAt : Nat := 88

/-- `msgid` of a `PCKID` at `p`. -/
def msgidAt (p : Nat) : Nat := p + 8

/-- Store an integer of eight bytes. -/
def store64 (p v : Nat) (mem : Memory) : Memory :=
  edit p (fun (_ : Fin 8 → Byte) k => UInt8.ofNat (v / 256 ^ (k : Nat))) mem

def packetBytes (mem : Memory) : List Byte := bytesAt mem 0 (readU64 mem compktLengthAt)

/-- `DuplicateComPkt`, with what malloc has left. -/
def duplicateComPkt (heap mem : Memory) : Memory :=
  memOf (bytesAt mem 0 (max (readU64 mem compktLengthAt) (sizeOf compkt))) heap

/-- What the loop writes into the head for the target `chmpxid`, when the packet came with
`org` for it. -/
def setDeliverHead (org chmpxid : ChmpxId) (mem : Memory) : Memory :=
  let mem := store64 mqSerialNumAt minMqSerialNumber mem
  let mem := store64 peerDeptMsgidAt chmInvalidMsgId mem
  let mem := store64 peerTermMsgidAt chmInvalidMsgId mem
  let mem := store64 termIdsAt chmpxid mem
  if chmInvalidChmpxId = org ∨ org ≠ chmpxid then store64 (msgidAt termIdsAt) chmInvalidMsgId mem
  else mem

/-! ## The loop -/

/-- What comes from outside in each turn of the loop: the area as the turn finds it, what
malloc has left, whether `GetLockedSendSock` finds a socket, the turns of `RawSend`, and the
result of `ChmCntrl::Processing`.  A slave has tried to connect to the servers by then. -/
structure Outside where
  area : Nat → ChmpxMan
  heap : Nat → Memory
  locks : Nat → Bool
  turns : Nat → List Turn
  toMq : Nat → Bool

/-- The bytes of a packet that has been sent over the socket of a chmpx, or handed to the
queue. -/
inductive Post
  | sent (chmpxid : ChmpxId) (bytes : List Byte)
  | toMq (bytes : List Byte)

/-- `Send` of a packet, and the packet afterwards. -/
def send (io : Outside) (turn : Nat) (mem : Memory) : Outcome Unit × List Byte × Memory :=
  if !io.locks turn then (.failed false, [], mem)
  else
    let (result, bytes) := rawSend false false (io.turns turn) mem
    (result, bytes, (hton ⟨mem, []⟩).2.mem)

/-- `IsConnectSlave`. -/
def isConnectSlave (m : ChmpxMan) (chmpxid : ChmpxId) : Bool :=
  match m.find m.chmpxSlaves chmpxid with
  | none => false
  | some p => !(m.chmpx p).name.isEmpty && !(m.chmpx p).socklist.isEmpty

/-- A turn of the loop with the packet for the target `chmpxid`: what has been posted, if
anything, and the packet afterwards. -/
def deliver (io : Outside) (isServerMode : Bool) (selfchmpxid : ChmpxId) (c2ctype : C2cType)
    (turn : Nat) (chmpxid : ChmpxId) (mem : Memory) : Outcome (Option Post) × Memory :=
  if isServerMode && !isConnectSlave (io.area turn) chmpxid &&
      !(io.area turn).isServerChmpxId chmpxid then
    (.failed false, mem)
  else if isServerMode && !isConnectSlave (io.area turn) chmpxid && chmpxid = selfchmpxid then
    if c2ctype.isSelf then
      (if io.toMq turn then .done (some (.toMq (packetBytes mem))) else .failed false, mem)
    else (.done none, mem)
  else
    match send io turn mem with
    | (.running, _, mem) => (.running, mem)
    | (.failed isClosed, _, mem) => (.failed isClosed, mem)
    | (.done (), bytes, mem) => (.done (some (.sent chmpxid bytes)), mem)

/-- The result of `Processing`, none while a `RawSend` has not returned, and what has been
posted. -/
structure Run where
  result : Option Bool
  posts : List Post

/-- The loop over the targets; `mem` is the packet that came in. -/
def sendLoop (io : Outside) (isServerMode : Bool) (selfchmpxid org : ChmpxId) :
    Nat → List ChmpxId → Memory → Run
  | _, [], _ => ⟨some true, []⟩
  | turn, chmpxid :: rest, mem =>
    let tmp := setDeliverHead org chmpxid
      (if rest = [] then mem else duplicateComPkt (io.heap turn) mem)
    -- The type is read from the packet that came in, which the last target shares.
    let c2ctype := readU64 (if rest = [] then tmp else mem) c2ctypeAt
    match deliver io isServerMode selfchmpxid c2ctype turn chmpxid tmp with
    | (.running, _) => ⟨none, []⟩
    | (.failed _, _) => ⟨some false, []⟩
    | (.done post, tmp) =>
      let run := sendLoop io isServerMode selfchmpxid org (turn + 1) rest
        (if rest = [] then tmp else mem)
      { run with posts := post.toList ++ run.posts }

/-- The targets: the chmpx that the packet names, or the receivers of its hash and type. -/
def targets (isRandomDeliver : Bool) (m : ChmpxMan) (mem : Memory) : Option (List ChmpxId) :=
  if chmInvalidChmpxId = readU64 mem termIdsAt then
    (m.getReceiverChmpxids isRandomDeliver (readU64 mem hashAt) (readU64 mem c2ctypeAt)).1
  else some [readU64 mem termIdsAt]

/-- `Processing` of `COM_C2C`. -/
def processing (io : Outside) (isRandomDeliver : Bool) (m : ChmpxMan) (mem : Memory) : Run :=
  if readU64 mem deptIdsAt ≠ m.getSelfChmpxId then ⟨some false, []⟩
  else
    match targets isRandomDeliver m mem with
    | none => ⟨some false, []⟩
    | some [] => ⟨some true, []⟩
    | some chmpxids =>
      sendLoop io m.isServerMode m.getSelfChmpxId (readU64 mem termIdsAt) 0 chmpxids mem

/-! ## Stores -/

theorem within_store64 (p v : Nat) : Within p (p + 8) (store64 p v) := by
  have h := @within_edit Byte 8 p fun _ k => UInt8.ofNat (v / 256 ^ (k : Nat))
  exact h

theorem readU64_store64 (p v : Nat) (mem : Memory) : readU64 (store64 p v mem) p = v % 2 ^ 64 := by
  have hdigits : bytesAt (store64 p v mem) p 8 =
      (List.range 8).map fun k => UInt8.ofNat (v / 256 ^ k) := by
    refine List.map_congr_left fun k hk => ?_
    rw [List.mem_range] at hk
    rw [store64, edit, dif_pos (by omega)]
    simp
  have hwidth : 256 ^ 8 = 2 ^ 64 := by decide
  rw [readU64, hdigits, leNat_digits, hwidth]

/-- A field behind the head's first 40 bytes. -/
theorem within_store64_head {off : Nat} (value : Nat) (habove : 40 ≤ off)
    (hbelow : off + 8 ≤ 80) : Within 40 80 (store64 off value) :=
  (within_store64 off value).mono habove hbelow

theorem within_setDeliverHead (org chmpxid : ChmpxId) :
    Within 40 80 (setDeliverHead org chmpxid) := by
  have hserial : Within 40 80 (store64 mqSerialNumAt minMqSerialNumber) :=
    within_store64_head _ (by decide) (by decide)
  have hdept : Within 40 80 (store64 peerDeptMsgidAt chmInvalidMsgId) :=
    within_store64_head _ (by decide) (by decide)
  have hterm : Within 40 80 (store64 peerTermMsgidAt chmInvalidMsgId) :=
    within_store64_head _ (by decide) (by decide)
  have hid : Within 40 80 (store64 termIdsAt chmpxid) :=
    within_store64_head _ (by decide) (by decide)
  have hmsgid : Within 40 80 (store64 (msgidAt termIdsAt) chmInvalidMsgId) :=
    within_store64_head _ (by decide) (by decide)
  have hall := hid.comp (hterm.comp (hdept.comp hserial))
  unfold setDeliverHead
  by_cases hreset : chmInvalidChmpxId = org ∨ org ≠ chmpxid
  · simp only [if_pos hreset]
    exact hmsgid.comp hall
  · simp only [if_neg hreset]
    exact hall

theorem readU64_termIds (org chmpxid : ChmpxId) (mem : Memory) :
    readU64 (setDeliverHead org chmpxid mem) termIdsAt = chmpxid % 2 ^ 64 := by
  unfold setDeliverHead
  dsimp only
  split
  · rw [← readU64_store64 termIdsAt chmpxid]
    exact readU64_congr fun i _ hi => (within_store64 _ _).outside _ i (Or.inl hi)
  · exact readU64_store64 _ _ _

/-! ## One packet -/

/-- A packet of `COM_C2C`, with its head. -/
structure IsC2c (mem : Memory) : Prop where
  type : readU64 mem compktTypeAt = comC2c
  long : sizeOf compkt ≤ readU64 mem compktLengthAt

/-- The memories have the same packet. -/
def Alike (mem mem' : Memory) : Prop := ∀ i, i < readU64 mem compktLengthAt → mem i = mem' i

variable {io : Outside} {turn : Nat} {mem mem' : Memory} {org chmpxid : ChmpxId}

theorem IsC2c.setDeliverHead (h : IsC2c mem) : IsC2c (setDeliverHead org chmpxid mem) ∧
    readU64 (C2c.setDeliverHead org chmpxid mem) compktLengthAt = readU64 mem compktLengthAt := by
  have hin := within_setDeliverHead org chmpxid
  have htype : readU64 (C2c.setDeliverHead org chmpxid mem) compktTypeAt =
      readU64 mem compktTypeAt :=
    readU64_congr fun i _ hi => hin.outside mem i (by rw [compktTypeAt] at hi; omega)
  have hlength : readU64 (C2c.setDeliverHead org chmpxid mem) compktLengthAt =
      readU64 mem compktLengthAt :=
    readU64_congr fun i hi _ => hin.outside mem i (by rw [compktLengthAt_eq] at hi; omega)
  refine ⟨⟨htype.trans h.type, ?_⟩, hlength⟩
  rw [hlength]
  exact h.long

theorem Alike.length (h : Alike mem mem') (hmem : IsC2c mem) :
    readU64 mem' compktLengthAt = readU64 mem compktLengthAt := by
  have hlong := hmem.long
  rw [sizeOf_compkt] at hlong
  exact (readU64_congr fun i _ hi => h i (by rw [compktLengthAt_eq] at hi; omega)).symm

theorem Alike.isC2c (h : Alike mem mem') (hmem : IsC2c mem) : IsC2c mem' := by
  have hlong := hmem.long
  rw [sizeOf_compkt] at hlong
  have htype : readU64 mem compktTypeAt = readU64 mem' compktTypeAt :=
    readU64_congr fun i _ hi => h i (by rw [compktTypeAt] at hi; omega)
  refine ⟨htype.symm.trans hmem.type, ?_⟩
  rw [h.length hmem]
  exact hmem.long

theorem Alike.packetBytes (h : Alike mem mem') (hmem : IsC2c mem) :
    packetBytes mem' = packetBytes mem := by
  rw [C2c.packetBytes, C2c.packetBytes, h.length hmem]
  exact bytesAt_congr fun i _ hi => (h i (by omega)).symm

theorem alike_duplicateComPkt (hmem : IsC2c mem) (heap : Memory) :
    Alike mem (duplicateComPkt heap mem) := by
  intro i hi
  rw [duplicateComPkt, memOf_bytesAt, Nat.max_eq_left hmem.long]
  exact (if_pos hi).symm

theorem Alike.setDeliverHead (h : Alike mem mem') (hmem : IsC2c mem) :
    Alike (setDeliverHead org chmpxid mem) (setDeliverHead org chmpxid mem') := by
  have hlong := hmem.long
  rw [sizeOf_compkt] at hlong
  intro i hi
  rw [hmem.setDeliverHead.2] at hi
  have hin := within_setDeliverHead org chmpxid
  by_cases hwindow : 40 ≤ i ∧ i < 80
  · exact hin.inside mem mem' (fun k _ hk => h k (by omega)) i hwindow.1 hwindow.2
  · rw [hin.outside mem i (by omega), hin.outside mem' i (by omega)]
    exact h i hi

/-- `hton` of a packet of a client converts the head. -/
theorem hton_c2c (h : IsC2c mem) (log : List (Nat × Nat)) :
    (hton ⟨mem, log⟩).1 = readU64 mem compktLengthAt ∧
      (hton ⟨mem, log⟩).2.mem = forward (fields compkt) 0 mem := by
  have hother : ¬readU64 mem compktTypeAt = comPx2px := by
    rw [h.type]
    decide
  simp only [hton, Tape.touch, hother, if_false, true_and]
  exact runs_hton.mem compkt 0 _

/-- The bytes of a packet of a client on the wire. -/
def wireOf (mem : Memory) : List Byte :=
  bytesAt (forward (fields compkt) 0 mem) 0 (readU64 mem compktLengthAt)

theorem rawSend_c2c (h : IsC2c mem) (isBlocking isClosed : Bool) (turns : List Turn) :
    rawSend isBlocking isClosed turns mem =
      rawSendBytes isBlocking isClosed turns (wireOf mem) := by
  have hlong := h.long
  obtain ⟨hlength, hmem⟩ := hton_c2c h []
  rw [sizeOf_compkt] at hlong
  rw [rawSend, wireOf]
  generalize hton ⟨mem, []⟩ = r at hlength hmem
  obtain ⟨n, t⟩ := r
  dsimp only at hlength hmem ⊢
  rw [if_neg (by omega), hlength, hmem]

theorem Alike.wireOf (h : Alike mem mem') (hmem : IsC2c mem) : wireOf mem' = wireOf mem := by
  have hlong := hmem.long
  rw [C2c.wireOf, C2c.wireOf, h.length hmem]
  refine bytesAt_congr fun i _ hi => ?_
  have hhead := runs_hton.within compkt 0
  by_cases hin : i < sizeOf compkt
  · exact hhead.inside mem' mem (fun k _ hk => (h k (by omega)).symm) i (Nat.zero_le i) (by omega)
  · rw [hhead.outside mem' i (by omega), hhead.outside mem i (by omega)]
    exact (h i (by omega)).symm

/-- What arrives is what has been sent. -/
theorem ntoh_wireOf (h : IsC2c mem) (heap : Memory) {i : Nat}
    (hi : i < readU64 mem compktLengthAt) :
    (ntoh false ⟨memOf (wireOf mem) heap, []⟩).mem i = mem i := by
  have hlong := h.long
  rw [sizeOf_compkt] at hlong
  have hback : ∀ k, k < readU64 mem compktLengthAt →
      backward (fields compkt) 0 (memOf (wireOf mem) heap) k = mem k := by
    intro k hk
    have hhead := runs_ntoh.within compkt 0
    rw [wireOf, memOf_bytesAt]
    by_cases hin : k < sizeOf compkt
    · rw [hhead.inside _ (forward (fields compkt) 0 mem) (fun j _ hj => if_pos (by
        rw [sizeOf_compkt] at hj; omega)) k (Nat.zero_le k) (by omega), undone_fields compkt_exact]
    · rw [hhead.outside _ k (by omega), if_pos hk,
        (runs_hton.within compkt 0).outside _ k (by omega)]
  have htype : ¬readU64 (backward (fields compkt) 0 (memOf (wireOf mem) heap)) compktTypeAt =
      comPx2px := by
    rw [readU64_congr fun k _ hk => hback k (by rw [compktTypeAt] at hk; omega), h.type]
    decide
  have hmem : ∀ t : Tape, (convert Member.ntoh compkt 0 t).mem = backward (fields compkt) 0 t.mem :=
    fun t => runs_ntoh.mem compkt 0 t
  simp only [ntoh, Tape.touch, Bool.false_eq_true, if_false, hmem, htype]
  exact hback i hi

/-! ## One target -/

variable {isServerMode : Bool} {selfchmpxid : ChmpxId} {c2ctype : C2cType}
  {post : Option Post} {bytes : List Byte}

theorem send_c2c (h : IsC2c mem) : (send io turn mem).1 =
      (if !io.locks turn then .failed false
        else (rawSendBytes false false (io.turns turn) (wireOf mem)).1) ∧
    ((send io turn mem).1 = .done () → (send io turn mem).2.1 = wireOf mem) := by
  rw [send, rawSend_c2c h]
  generalize (hton ⟨mem, []⟩).2.mem = after
  generalize wireOf mem = wire
  have hall := @rawSendBytes_done false false (io.turns turn) wire
  generalize rawSendBytes false false (io.turns turn) wire = r at hall ⊢
  obtain ⟨outcome, bytes⟩ := r
  split
  · exact ⟨rfl, fun h => nomatch h⟩
  · refine ⟨rfl, fun hdone => hall ?_⟩
    dsimp only at hdone
    rw [hdone]

/-- The target is this node and has no socket as a slave. -/
def isLocal (io : Outside) (isServerMode : Bool) (selfchmpxid : ChmpxId) (turn : Nat)
    (chmpxid : ChmpxId) : Bool :=
  isServerMode && !isConnectSlave (io.area turn) chmpxid && chmpxid = selfchmpxid

/-- A delivery depends on the bytes of the packet alone. -/
theorem deliver_congr (h : Alike mem mem') (hmem : IsC2c mem) :
    (deliver io isServerMode selfchmpxid c2ctype turn chmpxid mem').1 =
      (deliver io isServerMode selfchmpxid c2ctype turn chmpxid mem).1 := by
  have hsend : (send io turn mem').1 = (send io turn mem).1 := by
    rw [(send_c2c hmem).1, (send_c2c (h.isC2c hmem)).1, h.wireOf hmem]
  have hbytes : (send io turn mem).1 = .done () →
      (send io turn mem').2.1 = (send io turn mem).2.1 := by
    intro hdone
    rw [(send_c2c hmem).2 hdone, (send_c2c (h.isC2c hmem)).2 (hsend.trans hdone), h.wireOf hmem]
  unfold deliver
  split
  · rfl
  · split
    · rw [h.packetBytes hmem]
      split <;> rfl
    · generalize send io turn mem = r at hsend hbytes
      generalize send io turn mem' = r' at hsend hbytes
      obtain ⟨outcome, bytes, after⟩ := r
      obtain ⟨outcome', bytes', after'⟩ := r'
      dsimp only at hsend hbytes
      subst hsend
      cases outcome' with
      | running => rfl
      | failed isClosed => rfl
      | done u =>
        rw [hbytes rfl]

/-- What a delivery that succeeds has posted. -/
theorem deliver_done (hmem : IsC2c mem)
    (h : (deliver io isServerMode selfchmpxid c2ctype turn chmpxid mem).1 = .done post) :
    post = if isLocal io isServerMode selfchmpxid turn chmpxid then
        if c2ctype.isSelf then some (.toMq (packetBytes mem)) else none
      else some (.sent chmpxid (wireOf mem)) := by
  unfold deliver at h
  split at h
  · cases h
  · split at h
    · rename_i hlocal
      rw [isLocal, if_pos hlocal]
      split at h
      · rename_i hself
        rw [if_pos hself]
        dsimp only at h
        split at h
        · cases h
          rfl
        · cases h
      · rename_i hself
        rw [if_neg hself]
        cases h
        rfl
    · rename_i hlocal
      rw [isLocal, if_neg hlocal]
      have hsent := (@send_c2c io turn mem hmem).2
      generalize send io turn mem = r at h hsent
      obtain ⟨outcome, bytes, after⟩ := r
      cases outcome with
      | running => cases h
      | failed isClosed => cases h
      | done u =>
        rw [← hsent rfl]
        cases h
        rfl

/-! ## All targets -/

def isDone {α : Type} : Outcome α → Bool
  | .done _ => true
  | _ => false

theorem isDone_done {α : Type} (a : α) : isDone (.done a) = true := rfl

def posted : Outcome (Option Post) → List Post
  | .done post => post.toList
  | _ => []

/-- How the delivery to a target in a turn ends by itself, with a packet of its own. -/
def delivery (io : Outside) (isServerMode : Bool) (selfchmpxid org : ChmpxId) (mem : Memory)
    (target : ChmpxId × Nat) : Outcome (Option Post) :=
  (deliver io isServerMode selfchmpxid (readU64 mem c2ctypeAt) target.2 target.1
    (setDeliverHead org target.1 mem)).1

theorem readU64_setDeliverHead (org chmpxid : ChmpxId) (mem : Memory) {p : Nat}
    (hp : p + 8 ≤ 40 ∨ 80 ≤ p) : readU64 (setDeliverHead org chmpxid mem) p = readU64 mem p :=
  readU64_congr fun i _ _ => (within_setDeliverHead org chmpxid).outside mem i (by omega)

/-- The loop reaches the targets in front of the first one whose delivery fails. -/
theorem sendLoop_spec (hmem : IsC2c mem) (chmpxids : List ChmpxId) (turn : Nat) :
    let reached := (chmpxids.zipIdx turn).takeWhile fun target =>
      isDone (delivery io isServerMode selfchmpxid org mem target)
    let run := sendLoop io isServerMode selfchmpxid org turn chmpxids mem
    (run.result = some true ↔ reached = chmpxids.zipIdx turn) ∧
      run.posts =
        reached.flatMap fun target =>
          posted (delivery io isServerMode selfchmpxid org mem target) := by
  induction chmpxids generalizing turn with
  | nil => exact ⟨⟨fun _ => rfl, fun _ => rfl⟩, rfl⟩
  | cons chmpxid rest ih =>
    dsimp only at ih ⊢
    rw [List.zipIdx_cons, sendLoop]
    have htype : readU64 (if rest = [] then setDeliverHead org chmpxid
        (if rest = [] then mem else duplicateComPkt (io.heap turn) mem) else mem) c2ctypeAt =
        readU64 mem c2ctypeAt := by
      split
      · exact readU64_setDeliverHead _ _ _ (.inl (by decide))
      · rfl
    have hpkt : Alike (setDeliverHead org chmpxid mem) (setDeliverHead org chmpxid
        (if rest = [] then mem else duplicateComPkt (io.heap turn) mem)) := by
      split
      · exact fun i _ => rfl
      · exact (alike_duplicateComPkt hmem (io.heap turn)).setDeliverHead hmem
    have hdelivery : (deliver io isServerMode selfchmpxid (readU64 mem c2ctypeAt) turn chmpxid
        (setDeliverHead org chmpxid
          (if rest = [] then mem else duplicateComPkt (io.heap turn) mem))).1 =
        delivery io isServerMode selfchmpxid org mem (chmpxid, turn) :=
      deliver_congr hpkt hmem.setDeliverHead.1
    have hrest : ∀ after, sendLoop io isServerMode selfchmpxid org (turn + 1) rest
        (if rest = [] then after else mem) =
          sendLoop io isServerMode selfchmpxid org (turn + 1) rest mem := by
      intro after
      split
      · rename_i hnil
        rw [hnil, sendLoop, sendLoop]
      · rfl
    dsimp only
    rw [htype]
    generalize deliver io isServerMode selfchmpxid (readU64 mem c2ctypeAt) turn chmpxid
      (setDeliverHead org chmpxid
        (if rest = [] then mem else duplicateComPkt (io.heap turn) mem)) = r at hdelivery ⊢
    obtain ⟨outcome, after⟩ := r
    dsimp only at hdelivery
    rw [List.takeWhile_cons, ← hdelivery]
    cases outcome with
    | running => simp [isDone]
    | failed isClosed => simp [isDone]
    | done post =>
      obtain ⟨hresult, hposts⟩ := ih (turn + 1)
      dsimp only
      rw [hrest, isDone_done, if_pos rfl, List.flatMap_cons, ← hdelivery, hposts, List.cons.injEq]
      exact ⟨hresult.trans ⟨fun h => ⟨rfl, h⟩, fun h => h.2⟩, rfl⟩

/-! ## What the targets get -/

/-- The chmpx whose socket a packet has been sent over, or the one that is named by a packet
on the queue. -/
def Post.target : Post → ChmpxId
  | .sent chmpxid _ => chmpxid
  | .toMq bytes => readU64 (memOf bytes fun _ => 0) termIdsAt

/-- The packet in the memory of the one who gets it. -/
def Post.arrived (heap : Memory) : Post → Memory
  | .sent _ bytes => (ntoh false ⟨memOf bytes heap, []⟩).mem
  | .toMq bytes => memOf bytes heap

/-- What arrives is for its target and says what the packet in `mem` says. -/
structure Carries (mem heap : Memory) (post : Post) : Prop where
  term : readU64 (post.arrived heap) termIdsAt = post.target
  body : bytesAt (post.arrived heap) (sizeOf compkt) (readU64 mem compktLengthAt - sizeOf compkt) =
    bytesAt mem (sizeOf compkt) (readU64 mem compktLengthAt - sizeOf compkt)
  length : readU64 (post.arrived heap) compktLengthAt = readU64 mem compktLengthAt
  type : readU64 (post.arrived heap) compktTypeAt = readU64 mem compktTypeAt
  c2ctype : readU64 (post.arrived heap) c2ctypeAt = readU64 mem c2ctypeAt
  dept : readU64 (post.arrived heap) deptIdsAt = readU64 mem deptIdsAt ∧
    readU64 (post.arrived heap) (msgidAt deptIdsAt) = readU64 mem (msgidAt deptIdsAt)
  hash : readU64 (post.arrived heap) hashAt = readU64 mem hashAt
  reqtime : bytesAt (post.arrived heap) reqtimeAt (sizeOf timespec) =
    bytesAt mem reqtimeAt (sizeOf timespec)

variable {post' : Post} {heap : Memory} {target : ChmpxId × Nat}

/-- A post with the packet that has been readdressed carries the packet. -/
theorem carries_of_arrived (org : ChmpxId) (hmem : IsC2c mem) (hlt : chmpxid < 2 ^ 64)
    (htarget : post'.target = chmpxid)
    (h : ∀ i, i < readU64 mem compktLengthAt →
      post'.arrived heap i = setDeliverHead org chmpxid mem i) :
    Carries mem heap post' := by
  have hlong := hmem.long
  rw [sizeOf_compkt] at hlong
  have hsame : ∀ i, i < readU64 mem compktLengthAt → i < 40 ∨ 80 ≤ i →
      post'.arrived heap i = mem i := fun i hi hout =>
    (h i hi).trans ((within_setDeliverHead org chmpxid).outside mem i hout)
  have hread : ∀ p, p + 8 ≤ 40 ∨ 80 ≤ p ∧ p + 8 ≤ 120 →
      readU64 (post'.arrived heap) p = readU64 mem p := fun p hp =>
    readU64_congr fun i _ _ => hsame i (by omega) (by omega)
  refine ⟨?_, ?_, hread _ (.inr (by decide)), hread _ (.inl (by decide)),
    hread _ (.inl (by decide)), ⟨hread _ (.inl (by decide)), hread _ (.inl (by decide))⟩,
    hread _ (.inr (by decide)), ?_⟩
  · rw [readU64_congr fun i _ hi => h i (by rw [termIdsAt] at hi; omega), readU64_termIds,
      Nat.mod_eq_of_lt hlt, htarget]
  · rw [sizeOf_compkt]
    exact bytesAt_congr fun i _ _ => hsame i (by omega) (by omega)
  · refine bytesAt_congr fun i hlo hhi => ?_
    have hsize : sizeOf timespec = 16 := by decide
    rw [reqtimeAt] at hlo hhi
    rw [hsize] at hhi
    exact hsame i (by omega) (by omega)

/-- The post of a target whose delivery does not fail, if there is one. -/
def postFor (io : Outside) (isServerMode : Bool) (selfchmpxid org : ChmpxId) (mem : Memory)
    (target : ChmpxId × Nat) : List Post :=
  let pkt := setDeliverHead org target.1 mem
  if isLocal io isServerMode selfchmpxid target.2 target.1 then
    if C2cType.isSelf (readU64 mem c2ctypeAt) then [.toMq (packetBytes pkt)] else []
  else [.sent target.1 (wireOf pkt)]

theorem posted_delivery (hmem : IsC2c mem)
    (h : isDone (delivery io isServerMode selfchmpxid org mem target) = true) :
    posted (delivery io isServerMode selfchmpxid org mem target) =
      postFor io isServerMode selfchmpxid org mem target := by
  cases hd : delivery io isServerMode selfchmpxid org mem target with
  | running =>
    rw [hd] at h
    cases h
  | failed isClosed =>
    rw [hd] at h
    cases h
  | done post =>
    rw [posted, deliver_done hmem.setDeliverHead.1 hd, postFor]
    split
    · split <;> rfl
    · rfl

/-- Who gets a post has the packet as it was readdressed. -/
theorem arrived_postFor (hmem : IsC2c mem)
    (h : post' ∈ postFor io isServerMode selfchmpxid org mem target) (heap : Memory) :
    ∀ i, i < readU64 mem compktLengthAt →
      post'.arrived heap i = setDeliverHead org target.1 mem i := by
  obtain ⟨hpkt, hlength⟩ := @IsC2c.setDeliverHead mem org target.1 hmem
  intro i hi
  rw [postFor] at h
  split at h
  · split at h
    · obtain rfl := List.mem_singleton.mp h
      rw [Post.arrived, packetBytes, memOf_bytesAt, hlength]
      exact if_pos hi
    · cases h
  · obtain rfl := List.mem_singleton.mp h
    rw [Post.arrived]
    exact ntoh_wireOf hpkt heap (by rwa [hlength])

theorem mem_postFor (hmem : IsC2c mem) (hlt : target.1 < 2 ^ 64)
    (h : post' ∈ postFor io isServerMode selfchmpxid org mem target) :
    post'.target = target.1 ∧ ∀ heap, Carries mem heap post' := by
  have hlong := hmem.long
  rw [sizeOf_compkt] at hlong
  have htarget : post'.target = target.1 := by
    have harrived := arrived_postFor hmem h fun _ => 0
    rw [postFor] at h
    split at h
    · split at h
      · obtain rfl := List.mem_singleton.mp h
        have hterm : readU64 (memOf (packetBytes (setDeliverHead org target.1 mem)) fun _ => 0)
            termIdsAt = readU64 (setDeliverHead org target.1 mem) termIdsAt :=
          readU64_congr fun i _ hi => harrived i (by rw [termIdsAt] at hi; omega)
        rw [Post.target, hterm, readU64_termIds, Nat.mod_eq_of_lt hlt]
      · cases h
    · obtain rfl := List.mem_singleton.mp h
      rfl
  exact ⟨htarget, fun heap => carries_of_arrived org hmem hlt htarget (arrived_postFor hmem h heap)⟩

theorem readU64_lt (mem : Memory) (p : Nat) : readU64 mem p < 2 ^ 64 := by
  have h := leNat_lt (bytesAt mem p 8)
  rw [length_bytesAt] at h
  exact h

variable {m : ChmpxMan} {isRandomDeliver : Bool} {chmpxids : List ChmpxId}

theorem processing_eq (hdept : readU64 mem deptIdsAt = m.getSelfChmpxId)
    (h : targets isRandomDeliver m mem = some chmpxids) :
    processing io isRandomDeliver m mem =
      sendLoop io m.isServerMode m.getSelfChmpxId (readU64 mem termIdsAt) 0 chmpxids mem := by
  rw [processing, if_neg (not_not_intro hdept), h]
  cases chmpxids with
  | nil => rfl
  | cons chmpxid rest => rfl

/-- A server that knows two others; all three are up. -/
def sampleArea : ChmpxMan := RingNet.ringMan 97 [98, 99] [97, 98, 99]

/-- A packet of the server's own client for all servers, with one byte behind its head. -/
def samplePacket : Memory :=
  store64 compktLengthAt 121 (store64 compktTypeAt comC2c (store64 c2ctypeAt comC2cBroadcast
    (store64 deptIdsAt (RingNet.sampleId 97) (store64 termIdsAt chmInvalidChmpxId
      fun i => if i = 120 then 7 else 0))))

/-- A socket to the second server is found or not; every socket takes a packet at once. -/
def sampleOutside (locksSecond : Bool) : Outside where
  area _ := sampleArea
  heap _ _ := 0
  locks turn := turn ≠ 1 || locksSecond
  turns _ := [⟨.ready, .moved 121⟩]
  toMq _ := true

end C2c
end Wire
end Chm
