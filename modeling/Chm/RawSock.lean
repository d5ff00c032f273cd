/-
Packets over a socket.

`RawSend` converts a packet in place and sends its bytes in as many turns as it takes.
`RawReceive` reads the head first, takes the length from it, and reads the rest behind the
head.  A call of `send` or `recv` moves a prefix of what it is asked for, or nothing, so
the bytes in the stream are the ones of the packets in order, and every packet begins where
the one before it ends.
-/
import Chm.WireRound

namespace Chm
namespace Wire

open Windows

/-- The result of `WaitForReady`: 0, `ETIMEDOUT` or another error. -/
inductive Ready
  | ready
  | timedout
  | error
  deriving DecidableEq, Repr

/-- The result of `send` or `recv`: so many bytes, an interruption or `EAGAIN`, an error of
a socket that is closed, or another one. -/
inductive Io
  | moved (n : Nat)
  | again
  | closing
  | failed
  deriving DecidableEq, Repr

/-- A turn of the loop; a blocking socket does not wait. -/
structure Turn where
  ready : Ready
  io : Io
  deriving DecidableEq, Repr

/-- A call that has not returned yet, has returned false, or has returned true with what
it gives. -/
inductive Outcome (α : Type)
  | running
  | failed (isClosed : Bool)
  | done (a : α)
  deriving DecidableEq, Repr

/-- `RawSend` of bytes, from the ones that are still to be sent, with the bytes that it has
put into the stream. -/
def rawSendBytes (isBlocking isClosed : Bool) : List Turn → List Byte → Outcome Unit × List Byte
  | _, [] => (.done (), [])
  | [], _ :: _ => (.running, [])
  | t :: turns, b :: rest =>
    if !isBlocking && t.ready ≠ .ready then (.failed (isClosed || t.ready ≠ .timedout), [])
    else
      match t.io with
      | .moved n =>
        let (result, sent) := rawSendBytes isBlocking isClosed turns ((b :: rest).drop n)
        (result, (b :: rest).take n ++ sent)
      | .again => rawSendBytes isBlocking isClosed turns (b :: rest)
      | .closing => (.failed true, [])
      | .failed => (.failed isClosed, [])

/-- `RawSend` of a packet in memory. -/
def rawSend (isBlocking isClosed : Bool) (turns : List Turn) (mem : Memory) :
    Outcome Unit × List Byte :=
  let (length, t) := hton ⟨mem, []⟩
  if length = 0 then (.failed isClosed, [])
  else rawSendBytes isBlocking isClosed turns (bytesAt t.mem 0 length)

/-- What a call of the receiver leaves: the turns and the stream that are left over. -/
structure Receipt (α : Type) where
  outcome : Outcome α
  turns : List Turn
  stream : List Byte

/-- The loop of `RawReceiveByte` for `length` bytes more.  A `recv` that moves nothing
means that the socket is closed. -/
def rawReceiveLoop (isBlocking : Bool) : List Turn → Nat → List Byte → Receipt (List Byte)
  | turns, 0, stream => ⟨.done [], turns, stream⟩
  | [], _ + 1, stream => ⟨.running, [], stream⟩
  | t :: turns, length + 1, stream =>
    if !isBlocking && t.ready ≠ .ready then
      ⟨.failed (t.ready ≠ .timedout), turns, stream⟩
    else
      match t.io with
      | .moved n =>
        let got := stream.take (min n (length + 1))
        if got = [] then ⟨.failed true, turns, stream⟩
        else
          let r := rawReceiveLoop isBlocking turns (length + 1 - got.length)
            (stream.drop got.length)
          match r.outcome with
          | .done bytes => { r with outcome := .done (got ++ bytes) }
          | _ => r
      | .again => rawReceiveLoop isBlocking turns (length + 1) stream
      | .closing => ⟨.failed true, turns, stream⟩
      | .failed => ⟨.failed true, turns, stream⟩

/-- `RawReceiveByte`. -/
def rawReceiveByte (isBlocking : Bool) (turns : List Turn) (length : Nat) (stream : List Byte) :
    Receipt (List Byte) :=
  if length = 0 then ⟨.failed false, turns, stream⟩
  else rawReceiveLoop isBlocking turns length stream

/-- A buffer with bytes at its front. -/
def memOf (bytes : List Byte) (heap : Memory) : Memory := fun i => bytes[i]?.getD (heap i)

/-- `RawReceive` into memory of its own or into a buffer of `pktlength` bytes, with the
length of the packet and what has been read, written or converted in its memory. -/
def rawReceive (isBlocking : Bool) (heap : Memory) (pktlength : Option Nat) (turns : List Turn)
    (stream : List Byte) : Receipt (Nat × Tape) :=
  let r := rawReceiveByte isBlocking turns (sizeOf compkt) stream
  match r.outcome with
  | .running => ⟨.running, r.turns, r.stream⟩
  | .failed isClosed => ⟨.failed isClosed, r.turns, r.stream⟩
  | .done head =>
    let head := bytesAt (convert Member.ntoh compkt 0 ⟨memOf head heap, []⟩).mem 0 (sizeOf compkt)
    let length := readU64 (memOf head heap) compktLengthAt
    if length < sizeOf compkt then ⟨.failed false, r.turns, r.stream⟩
    else if pktlength.any fun n => n < length then ⟨.failed false, r.turns, r.stream⟩
    else
      let rest := rawReceiveByte isBlocking r.turns (length - sizeOf compkt) r.stream
      match rest.outcome with
      | .running => ⟨.running, rest.turns, rest.stream⟩
      | .failed isClosed => ⟨.failed isClosed, rest.turns, rest.stream⟩
      | .done body =>
        let buffer : Tape := ⟨memOf (head ++ body) heap,
          [(0, sizeOf compkt), (sizeOf compkt, length - sizeOf compkt)]⟩
        ⟨.done (length, ntoh true buffer), rest.turns, rest.stream⟩

/-! ## The loops -/

variable {isBlocking isClosed : Bool} {turns : List Turn} {stream : List Byte} {length : Nat}

/-- A call that succeeds has sent every byte. -/
theorem rawSendBytes_done {rest sent : List Byte}
    (h : rawSendBytes isBlocking isClosed turns rest = (.done (), sent)) : sent = rest := by
  induction turns generalizing rest sent with
  | nil =>
    cases rest with
    | nil => cases h; rfl
    | cons b rest => cases h
  | cons t turns ih =>
    cases rest with
    | nil => cases h; rfl
    | cons b rest =>
      rw [rawSendBytes] at h
      split at h
      · cases h
      · cases hio : t.io with
        | moved n =>
          cases hr : rawSendBytes isBlocking isClosed turns ((b :: rest).drop n) with
          | mk result later =>
            rw [hio] at h
            dsimp only at h
            rw [hr] at h
            obtain ⟨rfl, rfl⟩ := Prod.mk.inj h
            rw [ih hr]
            exact List.take_append_drop n (b :: rest)
        | again =>
          rw [hio] at h
          exact ih h
        | closing =>
          rw [hio] at h
          cases h
        | failed =>
          rw [hio] at h
          cases h

/-- A call that succeeds has read as many bytes as it was asked for. -/
theorem rawReceiveLoop_done {bytes : List Byte}
    (h : (rawReceiveLoop isBlocking turns length stream).outcome = .done bytes) :
    bytes = stream.take length ∧ length ≤ stream.length ∧
      (rawReceiveLoop isBlocking turns length stream).stream = stream.drop length := by
  induction turns generalizing length stream bytes with
  | nil =>
    cases length with
    | zero =>
      cases h
      exact ⟨rfl, Nat.zero_le _, rfl⟩
    | succ length => cases h
  | cons t turns ih =>
    cases length with
    | zero =>
      cases h
      exact ⟨rfl, Nat.zero_le _, rfl⟩
    | succ length =>
      rw [rawReceiveLoop] at h ⊢
      split at h
      · cases h
      · rename_i hready
        rw [if_neg hready]
        cases hio : t.io with
        | moved n =>
          rw [hio] at h
          dsimp only at h ⊢
          have hlen : (stream.take (min n (length + 1))).length ≤ length + 1 := by
            rw [List.length_take]
            omega
          have hle : (stream.take (min n (length + 1))).length ≤ stream.length :=
            List.length_take_le' _ _
          have hgot : stream.take (min n (length + 1)) =
              stream.take (stream.take (min n (length + 1))).length := by
            rw [List.length_take, List.take_eq_take_min]
          generalize stream.take (min n (length + 1)) = got at h hlen hle hgot ⊢
          split at h
          · cases h
          · rename_i hne
            rw [if_neg hne]
            have hrec := @ih (stream.drop got.length) (length + 1 - got.length)
            cases hr : rawReceiveLoop isBlocking turns (length + 1 - got.length)
                (stream.drop got.length) with
            | mk outcome turns' stream' =>
              rw [hr] at h hrec
              cases outcome with
              | running => cases h
              | failed isClosed => cases h
              | done later =>
                obtain ⟨hlater, hlong, hstream⟩ := hrec rfl
                rw [List.length_drop] at hlong
                have hsum : got.length + (length + 1 - got.length) = length + 1 := by omega
                refine ⟨?_, by omega, ?_⟩
                · cases h
                  rw [← hsum, List.take_add, ← hgot, hlater]
                · refine hstream.trans ?_
                  rw [List.drop_drop, hsum]
        | again =>
          rw [hio] at h
          exact ih h
        | closing =>
          rw [hio] at h
          cases h
        | failed =>
          rw [hio] at h
          cases h

theorem rawReceiveByte_done {bytes : List Byte}
    (h : (rawReceiveByte isBlocking turns length stream).outcome = .done bytes) :
    0 < length ∧ bytes = stream.take length ∧ length ≤ stream.length ∧
      (rawReceiveByte isBlocking turns length stream).stream = stream.drop length := by
  rw [rawReceiveByte] at h ⊢
  split at h
  · cases h
  · rename_i hne
    rw [if_neg hne]
    exact ⟨Nat.pos_of_ne_zero hne, rawReceiveLoop_done h⟩

/-! ## Packets as bytes -/

theorem memOf_lt {bytes : List Byte} {i : Nat} (h : i < bytes.length) (heap heap' : Memory) :
    memOf bytes heap i = memOf bytes heap' i := by
  rw [memOf, memOf, List.getElem?_eq_getElem h]
  rfl

theorem bytesAt_memOf (bytes : List Byte) (heap : Memory) :
    bytesAt (memOf bytes heap) 0 bytes.length = bytes := by
  refine List.ext_getElem (by simp [bytesAt]) fun i hi hi' => ?_
  simp [bytesAt, memOf, hi']

/-- Memory that is given by its first bytes. -/
theorem memOf_bytesAt (mem heap : Memory) (n : Nat) :
    memOf (bytesAt mem 0 n) heap = fun i => if i < n then mem i else heap i := by
  funext i
  by_cases hi : i < n
  · simp [memOf, bytesAt, hi]
  · simp [memOf, bytesAt, hi]

/-- The memory of a packet that has been received, with its head converted. -/
def received (stream : List Byte) (length : Nat) (heap : Memory) : Memory :=
  backward (fields compkt) 0 (memOf (stream.take length) heap)

theorem length_bytesAt (mem : Memory) (p n : Nat) : (bytesAt mem p n).length = n := by
  simp [bytesAt]

variable {heap : Memory}

theorem received_head {n : Nat} (hn : sizeOf compkt ≤ n) (hlt : sizeOf compkt ≤ length) {i : Nat}
    (hi : i < sizeOf compkt) : received stream n heap i = received stream length heap i := by
  refine (runs_ntoh.within compkt 0).inside _ _ (fun k _ hk => ?_) i (Nat.zero_le i) (by omega)
  rw [memOf, memOf, List.getElem?_take_of_lt (by omega), List.getElem?_take_of_lt (by omega)]

/-- The head is converted before the rest is put behind it. -/
theorem memOf_received (hlt : sizeOf compkt ≤ length) (hle : length ≤ stream.length) :
    memOf (bytesAt (convert Member.ntoh compkt 0 ⟨memOf (stream.take (sizeOf compkt)) heap, []⟩).mem
      0 (sizeOf compkt) ++ (stream.drop (sizeOf compkt)).take (length - sizeOf compkt)) heap =
      received stream length heap := by
  funext i
  by_cases hi : i < sizeOf compkt
  · rw [← received_head (Nat.le_refl _) hlt hi, received, memOf,
      List.getElem?_append_left (by rwa [length_bytesAt]), runs_ntoh.mem]
    simp [bytesAt, hi]
  · rw [received, memOf, (runs_ntoh.within compkt 0).outside _ i (by omega), memOf,
      List.getElem?_append_right (by rw [length_bytesAt]; omega), length_bytesAt]
    by_cases hin : i < length
    · have hsum : sizeOf compkt + (i - sizeOf compkt) = i := by omega
      rw [List.getElem?_take_of_lt (by omega), List.getElem?_drop, List.getElem?_take_of_lt hin,
        hsum]
    · rw [List.getElem?_eq_none (by rw [List.length_take, List.length_drop]; omega),
        List.getElem?_eq_none (by rw [List.length_take]; omega)]

/-- The length that the head announces. -/
theorem length_head (hlt : sizeOf compkt ≤ length) :
    readU64 (memOf (bytesAt
      (convert Member.ntoh compkt 0 ⟨memOf (stream.take (sizeOf compkt)) heap, []⟩).mem 0
        (sizeOf compkt)) heap) compktLengthAt =
      readU64 (received stream length heap) compktLengthAt := by
  refine readU64_congr fun i _ hi => ?_
  have hin : i < sizeOf compkt := by
    rw [compktLengthAt_eq] at hi
    rw [sizeOf_compkt]
    omega
  rw [← received_head (Nat.le_refl _) hlt hin, received, memOf, runs_ntoh.mem]
  simp [bytesAt, hin]

/-- A receiver that succeeds has read as many bytes as the head announces. -/
theorem rawReceive_spec {pktlength : Option Nat} {t : Tape}
    (h : (rawReceive isBlocking heap pktlength turns stream).outcome = .done (length, t)) :
    sizeOf compkt < length ∧ length ≤ stream.length ∧
      readU64 (received stream length heap) compktLengthAt = length ∧
      t = ntoh true ⟨received stream length heap,
        [(0, sizeOf compkt), (sizeOf compkt, length - sizeOf compkt)]⟩ ∧
      (rawReceive isBlocking heap pktlength turns stream).stream = stream.drop length := by
  rw [rawReceive] at h ⊢
  have hfirst := @rawReceiveByte_done isBlocking turns stream (sizeOf compkt)
  generalize rawReceiveByte isBlocking turns (sizeOf compkt) stream = first at h hfirst ⊢
  obtain ⟨outcome, turns', stream'⟩ := first
  cases outcome with
  | running => cases h
  | failed isClosed => cases h
  | done head =>
    obtain ⟨-, hhead, hlong, hstream⟩ := hfirst rfl
    dsimp only at h hstream ⊢
    subst hhead hstream
    split at h
    · cases h
    · rename_i hshort
      rw [if_neg hshort]
      split at h
      · cases h
      · rename_i hbuffer
        rw [if_neg hbuffer]
        generalize hn : readU64 _ compktLengthAt = n at h hshort ⊢
        have hrest := @rawReceiveByte_done isBlocking turns' (stream.drop (sizeOf compkt))
          (n - sizeOf compkt)
        generalize rawReceiveByte isBlocking turns' (n - sizeOf compkt)
          (stream.drop (sizeOf compkt)) = rest at h hrest ⊢
        obtain ⟨outcome, turns'', stream''⟩ := rest
        cases outcome with
        | running => cases h
        | failed isClosed => cases h
        | done body =>
          obtain ⟨hpos, hbody, hle, hstream⟩ := hrest rfl
          dsimp only at h hstream ⊢
          subst hbody hstream
          rw [List.length_drop] at hle
          rw [memOf_received (by omega) (by omega)] at h
          cases h
          have hlt : sizeOf compkt < length := by omega
          refine ⟨hlt, by omega, (length_head (Nat.le_of_lt hlt)).symm.trans hn, rfl, ?_⟩
          rw [List.drop_drop, Nat.add_sub_of_le (Nat.le_of_lt hlt)]

/-- The bytes of a packet: longer than the head, as long as the head says, and well formed
when they are of `COM_PX2PX`. -/
structure Packet where
  bytes : List Byte
  length : readU64 (memOf bytes fun _ => 0) compktLengthAt = bytes.length
  long : sizeOf compkt < bytes.length
  contents : readU64 (memOf bytes fun _ => 0) compktTypeAt = comPx2px →
    ∃ type, WellFormed (memOf bytes fun _ => 0) type

/-- A packet in memory. -/
def Packet.mem (pkt : Packet) (heap : Memory) : Memory := memOf pkt.bytes heap

/-- The ports of the pairs are 0 or -1 in a packet that has such pairs. -/
def Packet.Plain (pkt : Packet) : Prop :=
  ∀ type, WellFormed (memOf pkt.bytes fun _ => 0) type →
    PortsPlain (memOf pkt.bytes fun _ => 0) type

variable {mem mem' : Memory} {type : PxcomType} {pkt : Packet} {heap heap' : Memory}

/-- What a packet says depends on its bytes alone. -/
theorem WellFormed.congr (h : WellFormed mem type)
    (he : ∀ i, i < readU64 mem compktLengthAt → mem i = mem' i) :
    WellFormed mem' type ∧ contentsAt mem' = contentsAt mem ∧
      recordsOf mem' (contentsAt mem) type.contents.list =
        recordsOf mem (contentsAt mem) type.contents.list ∧
      recordsAt mem' (contentsAt mem) type.contents.list =
        recordsAt mem (contentsAt mem) type.contents.list := by
  have hbehind := h.behind
  have hinside := h.inside
  rw [sizeOf_compkt] at hbehind
  obtain ⟨⟨ms, hms⟩, -⟩ := contents_members type
  have hpos : 8 ≤ sizeOf type.contents.members := by
    rw [hms]
    exact Nat.le_add_right 8 (sizeOf ms)
  have hlength : readU64 mem' compktLengthAt = readU64 mem compktLengthAt :=
    (readU64_congr fun i _ hi => he i (by rw [compktLengthAt_eq] at hi; omega)).symm
  have htype : readU64 mem' compktTypeAt = readU64 mem compktTypeAt :=
    (readU64_congr fun i _ hi => he i (by rw [compktTypeAt] at hi; omega)).symm
  have hat : contentsAt mem' = contentsAt mem := by
    rw [contentsAt, contentsAt,
      readI64_congr fun i _ hi => he i (by rw [compktOffsetAt_eq] at hi; omega)]
  have hcode : readU64 mem' (contentsAt mem) = readU64 mem (contentsAt mem) :=
    (readU64_congr fun i _ hi => he i (by omega)).symm
  obtain ⟨hof, hrec⟩ := recordsOf_congr (WellFormed.list_inside type (contentsAt mem))
    fun i _ hi => (he i (by omega) : mem i = mem' i)
  refine ⟨⟨htype.trans h.isPx2px, ?_, ?_, ?_, fun hne => ?_⟩, hat, hof.symm, hrec.symm⟩
  · rw [hat, hcode]
    exact h.isType
  · rw [hat]
    exact h.behind
  · rw [hat, hlength]
    exact hinside
  · rw [hat, hlength, ← hof, ← hrec]
    exact h.records hne

theorem Packet.mem_eq (pkt : Packet) (heap heap' : Memory) :
    ∀ i, i < pkt.bytes.length → pkt.mem heap i = pkt.mem heap' i := fun _ hi =>
  memOf_lt hi heap heap'

theorem Packet.mem_read (pkt : Packet) (heap : Memory) {p : Nat} (hp : p + 8 ≤ 120) :
    readU64 (pkt.mem heap) p = readU64 (memOf pkt.bytes fun _ => 0) p := by
  have hlong := pkt.long
  rw [sizeOf_compkt] at hlong
  exact readU64_congr fun i _ hi => pkt.mem_eq heap (fun _ => 0) i (by omega)

/-- What becomes of the bytes behind the head of a packet: `out` is what is sent of them and
`back` what arrives. -/
structure Converts (pkt : Packet) (out back : Memory → Memory) : Prop where
  outWithin : Within 120 pkt.bytes.length out
  backWithin : Within 120 pkt.bytes.length back
  hton : ∀ heap log, (hton ⟨pkt.mem heap, log⟩).1 = pkt.bytes.length ∧
    (Wire.hton ⟨pkt.mem heap, log⟩).2.mem = forward (fields compkt) 0 (out (pkt.mem heap))
  ntoh : ∀ heap t, t.mem = out (pkt.mem heap) → (ntoh true t).mem = back (pkt.mem heap)
  plain : ∀ heap, back (pkt.mem heap) = pkt.mem heap ↔ pkt.Plain

theorem Packet.converts (pkt : Packet) : ∃ out back, Converts pkt out back := by
  have hlength : ∀ heap, readU64 (pkt.mem heap) compktLengthAt = pkt.bytes.length := fun heap =>
    (pkt.mem_read heap (by decide)).trans pkt.length
  by_cases hpx : readU64 (memOf pkt.bytes fun _ => 0) compktTypeAt = comPx2px
  · obtain ⟨type, h⟩ := pkt.contents hpx
    have hbehind := h.behind
    have hinside := h.inside
    obtain ⟨hbase, hend⟩ := h.records_inside
    rw [sizeOf_compkt] at hbehind hbase
    rw [pkt.length] at hinside hend
    have hstruct := (runs_hton.within type.contents.members
      (contentsAt (memOf pkt.bytes fun _ => 0))).mono hbehind hinside
    have hrecords := (runs_hton.within
      (recordsOf (memOf pkt.bytes fun _ => 0) (contentsAt (memOf pkt.bytes fun _ => 0))
        type.contents.list)
      (recordsAt (memOf pkt.bytes fun _ => 0) (contentsAt (memOf pkt.bytes fun _ => 0))
        type.contents.list)).mono hbase hend
    have hback := ((runs_ntoh.within type.contents.members
      (contentsAt (memOf pkt.bytes fun _ => 0))).mono hbehind hinside).comp hstruct
    have hhead := runs_hton.within compkt 0
    -- Each memory with the packet has the structure and the records in the same place.
    have hplace := fun heap => @WellFormed.congr _ (pkt.mem heap) type h fun i hi =>
      pkt.mem_eq (fun _ => 0) heap i (by rwa [pkt.length] at hi)
    refine ⟨_, _, hstruct.comp hrecords, hback, fun heap log => ?_, fun heap t ht => ?_,
      fun heap => ?_⟩
    · obtain ⟨hwf, hat, hof, hrec⟩ := hplace heap
      obtain ⟨hlen, hmem⟩ := hwf.hton_mem log
      rw [hat, hof, hrec] at hmem
      refine ⟨hlen.trans (hlength heap), hmem.trans ?_⟩
      rw [hhead.comm hstruct (Or.inl (Nat.le_refl 120)),
        hhead.comm hrecords (Or.inl (Nat.le_refl 120))]
    · obtain ⟨hwf, hat, hof, hrec⟩ := hplace heap
      have hnt := hwf.ntoh_mem (t := t)
      rw [hat, hof, hrec] at hnt
      exact hnt ht
    · have hiff := backward_forward_contents type (memOf pkt.bytes fun _ => 0)
      refine (hback.fixed_iff fun i _ hi => pkt.mem_eq heap (fun _ => 0) i hi).trans
        (hiff.trans ⟨fun hp type' h' => ?_, fun hp => hp type h⟩)
      have hsame : type' = type := Option.some.inj (h'.isType.symm.trans h.isType)
      exact hsame ▸ hp
  · have hother : ∀ heap, ¬readU64 (pkt.mem heap) compktTypeAt = comPx2px := fun heap he =>
      hpx ((pkt.mem_read heap (by decide)).symm.trans he)
    refine ⟨fun mem => mem, fun mem => mem, Within.id _ _, Within.id _ _, fun heap log => ?_,
      fun heap t ht => ?_, fun heap => ⟨fun _ type h => absurd h.isPx2px hpx, fun _ => rfl⟩⟩
    · simp only [Wire.hton, Tape.touch, hother heap, if_false, hlength heap, true_and]
      exact runs_hton.mem compkt 0 _
    · have hother' : ¬readU64 t.mem compktTypeAt = comPx2px := ht ▸ hother heap
      simp only [Wire.ntoh, Tape.touch, hother', if_true, if_false]
      exact ht

/-! ## One packet -/

/-- The bytes behind the packet are the ones that were there. -/
theorem Converts.out_heap {out back : Memory → Memory} (hc : Converts pkt out back)
    (heap heap' : Memory) : out (pkt.mem heap') = fun i =>
      if i < pkt.bytes.length then out (pkt.mem heap) i else heap' i := by
  funext i
  by_cases hi : i < pkt.bytes.length
  · rw [if_pos hi]
    by_cases hhead : i < 120
    · rw [hc.outWithin.outside _ i (Or.inl hhead), hc.outWithin.outside _ i (Or.inl hhead)]
      exact pkt.mem_eq heap' heap i hi
    · exact hc.outWithin.inside _ _ (fun k _ hk => pkt.mem_eq heap' heap k hk) i (by omega) hi
  · rw [if_neg hi, hc.outWithin.outside _ i (Or.inr (by omega)), Packet.mem, memOf,
      List.getElem?_eq_none (by omega)]
    rfl

/-- The bytes of a packet on the wire. -/
def wireBytes (pkt : Packet) (out : Memory → Memory) (heap : Memory) : List Byte :=
  bytesAt (forward (fields compkt) 0 (out (pkt.mem heap))) 0 pkt.bytes.length

variable {out back : Memory → Memory} {sent later : List Byte} {t : Tape}

theorem rawSend_done (hc : Converts pkt out back)
    (h : rawSend isBlocking isClosed turns (pkt.mem heap) = (.done (), sent)) :
    sent = wireBytes pkt out heap := by
  obtain ⟨hlength, hmem⟩ := hc.hton heap []
  rw [rawSend] at h
  generalize Wire.hton ⟨pkt.mem heap, []⟩ = r at h hlength hmem
  obtain ⟨n, t⟩ := r
  dsimp only at h hlength hmem
  split at h
  · cases h
  · rw [rawSendBytes_done h, wireBytes, hlength, hmem]

/-- What has been received of a packet on the wire, before its contents are converted. -/
theorem received_wire (hc : Converts pkt out back) (heap heap' : Memory) :
    received (wireBytes pkt out heap ++ later) pkt.bytes.length heap' = out (pkt.mem heap') := by
  have hwire : memOf (wireBytes pkt out heap) heap' =
      forward (fields compkt) 0 (out (pkt.mem heap')) := by
    have hlong := pkt.long
    rw [wireBytes, memOf_bytesAt]
    funext i
    have hhead := runs_hton.within compkt 0
    by_cases hi : i < 120
    · rw [if_pos (by rw [sizeOf_compkt] at hlong; omega)]
      refine hhead.inside _ _ (fun k _ hk => ?_) i (Nat.zero_le i) (by rwa [sizeOf_compkt])
      rw [sizeOf_compkt] at hk hlong
      rw [hc.out_heap heap heap']
      exact (if_pos (by omega)).symm
    · rw [hhead.outside _ i (Or.inr (by rw [sizeOf_compkt]; omega)),
        hhead.outside _ i (Or.inr (by rw [sizeOf_compkt]; omega)), hc.out_heap heap heap']
  have hlen : (wireBytes pkt out heap).length = pkt.bytes.length := length_bytesAt _ _ _
  rw [received, List.take_left' hlen, hwire, undone_fields compkt_exact]

/-- The length in the head on the wire. -/
theorem length_wire (hc : Converts pkt out back) (heap heap' : Memory)
    (hlt : sizeOf compkt ≤ length) :
    readU64 (received (wireBytes pkt out heap ++ later) length heap') compktLengthAt =
      pkt.bytes.length := by
  refine Eq.trans (readU64_congr fun i _ hi => ?_) ((pkt.mem_read heap' (by decide)).trans
    pkt.length)
  rw [compktLengthAt_eq] at hi
  rw [received_head hlt (Nat.le_of_lt pkt.long) (by rw [sizeOf_compkt]; omega),
    received_wire hc heap heap']
  exact hc.outWithin.outside _ i (Or.inl (by omega))

/-- A receiver that succeeds at the front of a packet gets the packet, and leaves the stream
behind it. -/
theorem rawReceive_done {pktlength : Option Nat} (hc : Converts pkt out back)
    (h : (rawReceive isBlocking heap' pktlength turns
      (wireBytes pkt out heap ++ later)).outcome = .done (length, t)) :
    length = pkt.bytes.length ∧ t.mem = back (pkt.mem heap') ∧
      (rawReceive isBlocking heap' pktlength turns
        (wireBytes pkt out heap ++ later)).stream = later := by
  obtain ⟨hlt, hle, hlength, ht, hstream⟩ := rawReceive_spec h
  have hlen : (wireBytes pkt out heap).length = pkt.bytes.length := length_bytesAt _ _ _
  have hsame := hlength.symm.trans (length_wire hc heap heap' (Nat.le_of_lt hlt))
  subst hsame
  refine ⟨rfl, ?_, hstream.trans (List.drop_left' hlen)⟩
  rw [ht]
  exact hc.ntoh heap' _ (received_wire hc heap heap')

/-- The bytes of a packet come back exactly when its pairs do. -/
theorem Converts.bytes_iff (hc : Converts pkt out back) (heap : Memory) :
    bytesAt (back (pkt.mem heap)) 0 pkt.bytes.length = pkt.bytes ↔ pkt.Plain := by
  rw [← hc.plain heap]
  have hbytes : bytesAt (pkt.mem heap) 0 pkt.bytes.length = pkt.bytes :=
    bytesAt_memOf pkt.bytes heap
  constructor
  · intro h
    funext i
    by_cases hi : i < pkt.bytes.length
    · have hsame := congrArg (fun l => l[i]?) (h.trans hbytes.symm)
      simpa [bytesAt, hi] using hsame
    · exact hc.backWithin.outside _ i (by omega)
  · intro h
    rw [h, hbytes]

/-! ## A connection -/

/-- A call of `RawSend` with a packet. -/
structure SendCall where
  isBlocking : Bool
  isClosed : Bool
  turns : List Turn
  heap : Memory
  pkt : Packet

/-- A call of `RawReceive`. -/
structure ReceiveCall where
  isBlocking : Bool
  turns : List Turn
  heap : Memory
  pktlength : Option Nat

/-- What is in the stream after calls that all succeed. -/
def sendAll : List SendCall → Option (List Byte)
  | [] => some []
  | c :: calls =>
    match rawSend c.isBlocking c.isClosed c.turns (c.pkt.mem c.heap) with
    | (.done (), sent) => (sendAll calls).map (sent ++ ·)
    | _ => none

/-- The packets of calls that all succeed. -/
def receiveAll : List ReceiveCall → List Byte → Option (List (List Byte))
  | [], _ => some []
  | c :: calls, stream =>
    let r := rawReceive c.isBlocking c.heap c.pktlength c.turns stream
    match r.outcome with
    | .done (length, t) => (receiveAll calls r.stream).map (bytesAt t.mem 0 length :: ·)
    | _ => none

theorem sendAll_cons {c : SendCall} {calls : List SendCall}
    (h : sendAll (c :: calls) = some stream) (hc : Converts c.pkt out back) :
    ∃ later, sendAll calls = some later ∧ stream = wireBytes c.pkt out c.heap ++ later := by
  rw [sendAll] at h
  split at h
  · rename_i sent hsent
    obtain ⟨later, hlater, hstream⟩ := Option.map_eq_some_iff.mp h
    exact ⟨later, hlater, by rw [← hstream, rawSend_done hc hsent]⟩
  · cases h

theorem receiveAll_cons {c : ReceiveCall} {calls : List ReceiveCall} {received : List (List Byte)}
    (hc : Converts pkt out back)
    (h : receiveAll (c :: calls) (wireBytes pkt out heap ++ later) = some received) :
    ∃ others, receiveAll calls later = some others ∧
      received = bytesAt (back (pkt.mem c.heap)) 0 pkt.bytes.length :: others := by
  rw [receiveAll] at h
  split at h
  · rename_i length t hdone
    obtain ⟨hlength, hmem, hstream⟩ := rawReceive_done hc hdone
    rw [hstream, hlength, hmem] at h
    obtain ⟨others, hothers, hreceived⟩ := Option.map_eq_some_iff.mp h
    exact ⟨others, hothers, hreceived.symm⟩
  · cases h

/-- The packets that are received are the ones that were sent exactly when the ports of
their pairs are 0 or -1. -/
theorem receiveAll_sendAll_iff {sends : List SendCall} {receives : List ReceiveCall}
    {received : List (List Byte)} (hs : sendAll sends = some stream)
    (hr : receiveAll receives stream = some received) (hlen : receives.length = sends.length) :
    received = sends.map (·.pkt.bytes) ↔ ∀ c ∈ sends, c.pkt.Plain := by
  induction sends generalizing receives stream received with
  | nil =>
    rw [List.length_eq_zero_iff.mp hlen] at hr
    cases hr
    exact iff_of_true rfl fun c hc => absurd hc List.not_mem_nil
  | cons c sends ih =>
    cases receives with
    | nil => cases hlen
    | cons r receives =>
      obtain ⟨out, back, hc⟩ := c.pkt.converts
      obtain ⟨later, hlater, rfl⟩ := sendAll_cons hs hc
      obtain ⟨others, hothers, rfl⟩ := receiveAll_cons hc hr
      rw [List.map_cons, List.cons.injEq, hc.bytes_iff, ih hlater hothers (Nat.succ.inj hlen),
        List.forall_mem_cons]

/-! ## A socket that moves everything at once -/

/-- A turn that moves up to `n` bytes. -/
def readyTurn (n : Nat) : Turn := ⟨.ready, .moved n⟩

theorem rawSendBytes_ready {rest : List Byte} {n : Nat} (hn : rest.length ≤ n) :
    rawSendBytes isBlocking isClosed [readyTurn n] rest = (.done (), rest) := by
  cases rest with
  | nil => rfl
  | cons b rest =>
    have hdrop : (b :: rest).drop n = [] := List.drop_eq_nil_of_le hn
    simp [rawSendBytes, readyTurn, hdrop, List.take_of_length_le hn]

theorem rawReceiveByte_ready {n : Nat} (hpos : 0 < length) (hn : length ≤ n)
    (hle : length ≤ stream.length) :
    rawReceiveByte isBlocking (readyTurn n :: turns) length stream =
      ⟨.done (stream.take length), turns, stream.drop length⟩ := by
  obtain ⟨k, rfl⟩ := Nat.exists_eq_succ_of_ne_zero (Nat.ne_of_gt hpos)
  have hgot : (stream.take (k + 1)).length = k + 1 := by
    rw [List.length_take]
    omega
  have hne : stream.take (k + 1) ≠ [] := List.ne_nil_of_length_pos (by omega)
  have hmin : min n (k + 1) = k + 1 := by omega
  simp [rawReceiveByte, rawReceiveLoop, readyTurn, hmin, hgot, hne]

theorem rawSend_ready {n : Nat} (hc : Converts pkt out back) (hn : pkt.bytes.length ≤ n) :
    rawSend isBlocking isClosed [readyTurn n] (pkt.mem heap) =
      (.done (), wireBytes pkt out heap) := by
  obtain ⟨hlength, hmem⟩ := hc.hton heap []
  have hlong := pkt.long
  rw [rawSend]
  generalize Wire.hton ⟨pkt.mem heap, []⟩ = r at hlength hmem ⊢
  obtain ⟨k, t⟩ := r
  dsimp only at hlength hmem ⊢
  rw [if_neg (by omega), hlength, hmem, wireBytes, rawSendBytes_ready]
  rwa [length_bytesAt]

theorem rawReceive_ready {n : Nat} (hlt : sizeOf compkt < length) (hle : length ≤ stream.length)
    (hlength : readU64 (received stream length heap) compktLengthAt = length) (hn : length ≤ n) :
    ∃ t, (rawReceive isBlocking heap none [readyTurn n, readyTurn n] stream).outcome =
      .done (length, t) := by
  have hpos : 0 < sizeOf compkt := by decide
  rw [rawReceive, rawReceiveByte_ready hpos (by omega) (by omega)]
  dsimp only
  rw [length_head (Nat.le_of_lt hlt), hlength, if_neg (by omega),
    rawReceiveByte_ready (by omega) (by omega) (by rw [List.length_drop]; omega)]
  exact ⟨_, rfl⟩

/-- A packet that is well formed in memory. -/
def Packet.ofMemory (mem : Memory) (type : PxcomType) (h : WellFormed mem type) : Packet :=
  have hcongr := @WellFormed.congr mem
    (memOf (bytesAt mem 0 (readU64 mem compktLengthAt)) fun _ => 0) type h fun i hi => by
      rw [memOf_bytesAt]
      exact (if_pos hi).symm
  have hend : 120 + 8 ≤ readU64 mem compktLengthAt := by
    have hbehind := h.behind
    have hinside := h.inside
    obtain ⟨⟨ms, hms⟩, -⟩ := contents_members type
    have hsize : sizeOf (int64 :: ms) = 8 + sizeOf ms := rfl
    rw [hms, hsize] at hinside
    rw [sizeOf_compkt] at hbehind
    omega
  { bytes := bytesAt mem 0 (readU64 mem compktLengthAt)
    length := by
      rw [length_bytesAt, memOf_bytesAt]
      refine readU64_congr fun i _ hi => ?_
      rw [compktLengthAt_eq] at hi
      exact if_pos (by omega)
    long := by
      rw [length_bytesAt, sizeOf_compkt]
      omega
    contents := fun _ => ⟨type, hcongr.1⟩ }

theorem Packet.ofMemory_plain (h : WellFormed mem type) (hp : (ofMemory mem type h).Plain) :
    PortsPlain mem type := by
  obtain ⟨hwf, hat, -⟩ := @WellFormed.congr mem (memOf (ofMemory mem type h).bytes fun _ => 0)
    type h fun i hi => by
      rw [ofMemory, memOf_bytesAt]
      exact (if_pos hi).symm
  intro hty q hq
  have hport := hp type hwf hty q (by rwa [hat])
  obtain ⟨hle, hle'⟩ : contentsAt mem ≤ q ∧ q + 2 ≤ readU64 mem compktLengthAt := by
    have hinside := h.inside
    have hin := pairPorts_inside hq
    rw [hty] at hinside
    exact ⟨hin.1, Nat.le_trans hin.2 hinside⟩
  have hread : bytesAt (memOf (ofMemory mem type h).bytes fun _ => 0) q 2 = bytesAt mem q 2 := by
    refine bytesAt_congr fun i _ hi => ?_
    rw [ofMemory, memOf_bytesAt]
    exact if_pos (by omega)
  rwa [readI16, hread] at hport

/-- A packet that is sent at once and received at once. -/
theorem receiveAll_once (pkt : Packet) : ∃ sends receives stream received,
    sendAll sends = some stream ∧ receiveAll receives stream = some received ∧
      receives.length = sends.length ∧ (received = sends.map (·.pkt.bytes) → pkt.Plain) := by
  obtain ⟨out, back, hc⟩ := pkt.converts
  let n := pkt.bytes.length
  have hlength := @length_wire n pkt out back [] hc (fun _ => 0) (fun _ => 0)
    (Nat.le_of_lt pkt.long)
  have hlen : n ≤ (wireBytes pkt out (fun _ => 0) ++ []).length := by
    rw [List.length_append, wireBytes, length_bytesAt]
    omega
  obtain ⟨t, ht⟩ := @rawReceive_ready true _ n (fun _ => 0) n pkt.long hlen hlength
    (Nat.le_refl n)
  have hs : sendAll [⟨true, false, [readyTurn n], fun _ => 0, pkt⟩] =
      some (wireBytes pkt out (fun _ => 0) ++ []) := by
    simp only [sendAll, rawSend_ready hc (Nat.le_refl n), Option.map_some]
  obtain ⟨received, hr⟩ : ∃ received, receiveAll
      [⟨true, [readyTurn n, readyTurn n], fun _ => 0, none⟩]
      (wireBytes pkt out (fun _ => 0) ++ []) = some received := by
    simp only [receiveAll, ht, Option.map_some]
    exact ⟨_, rfl⟩
  refine ⟨_, _, _, received, hs, hr, rfl, fun h => ?_⟩
  obtain ⟨others, -, rfl⟩ := receiveAll_cons hc hr
  exact (hc.bytes_iff _).mp (List.cons.inj h).1

def samplePkt : Packet := .ofMemory (samplePacket 12 152) .serverDown samplePacket_wellFormed

/-- The packet goes in three pieces and comes in four, with an interruption on each side. -/
def sampleSends : List SendCall :=
  [⟨false, false, [⟨.ready, .moved 7⟩, ⟨.ready, .again⟩, ⟨.ready, .moved 130⟩, ⟨.ready, .moved 90⟩],
    fun _ => 0, samplePkt⟩]

def sampleReceives : List ReceiveCall :=
  [⟨false, [⟨.ready, .moved 100⟩, ⟨.ready, .moved 90⟩, ⟨.ready, .again⟩, ⟨.ready, .moved 1⟩,
    ⟨.ready, .moved 99⟩], fun _ => 1, none⟩]

theorem receiveAll_sendAll_sample : ∃ stream received, sendAll sampleSends = some stream ∧
    receiveAll sampleReceives stream = some received ∧
      received = sampleSends.map (·.pkt.bytes) := by
  have hs : sendAll sampleSends = some ((sendAll sampleSends).getD []) := by decide +kernel
  have hr : receiveAll sampleReceives ((sendAll sampleSends).getD []) =
      some ((receiveAll sampleReceives ((sendAll sampleSends).getD [])).getD []) := by
    decide +kernel
  refine ⟨_, _, hs, hr, (receiveAll_sendAll_iff hs hr rfl).mpr fun c hc type h => ?_⟩
  cases List.mem_singleton.mp hc
  have htype : PxcomType.ofCode (readU64 (memOf samplePkt.bytes fun _ => 0)
      (contentsAt (memOf samplePkt.bytes fun _ => 0))) = some .serverDown := by decide +kernel
  have hsame : type = .serverDown := Option.some.inj (h.isType.symm.trans htype)
  intro hne
  rw [hsame] at hne
  cases hne

/-- A request comes with the port 0 in place of 85. -/
theorem receiveAll_losesPort : ¬∀ sends receives stream received, sendAll sends = some stream →
    receiveAll receives stream = some received → receives.length = sends.length →
      received = sends.map (·.pkt.bytes) := by
  intro hall
  obtain ⟨sends, receives, stream, received, hs, hr, hlen, hplain⟩ :=
    receiveAll_once (.ofMemory coninitPacket .n2ConinitReq coninitPacket_wellFormed)
  have hports := Packet.ofMemory_plain coninitPacket_wellFormed
    (hplain (hall sends receives stream received hs hr hlen))
  exact absurd (hports rfl 6300 (by decide +kernel)) (by decide +kernel)

end Wire
end Chm
