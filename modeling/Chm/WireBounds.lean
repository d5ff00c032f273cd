/-
What the receiver touches of a packet.

`ntoh` takes the place of the structure after the head, the place of its records and their
number from the packet, and looks at the length of the packet for none of them.  It stays
within the packet exactly when the structure and every record that its loop comes to end
there.
-/
import Chm.RawSock

namespace Chm
namespace Wire

open Windows

variable {mem : Memory} {t : Tape} {p w L k fuel countAt base : Nat} {ms record : List Member}

/-- What has been read or converted is below `L`. -/
def Tape.Inside (L : Nat) (t : Tape) : Prop := ∀ e ∈ t.log, e.1 + e.2 ≤ L

theorem Tape.touch_inside : (t.touch p w).Inside L ↔ t.Inside L ∧ p + w ≤ L := by
  simp only [Inside, touch, List.forall_mem_append, List.forall_mem_singleton]

theorem Tape.convertMember_inside (conv : Conv) :
    (t.convertMember conv w p).Inside L ↔ t.Inside L ∧ (conv ≠ .keep → p + w ≤ L) := by
  cases conv with
  | keep => exact ⟨fun h => ⟨h, fun hne => absurd rfl hne⟩, And.left⟩
  | swap width =>
    have hlog : (t.convertMember (.swap width) w p).Inside L ↔ (t.touch p w).Inside L := Iff.rfl
    rw [hlog, touch_inside]
    exact and_congr_right fun _ => ⟨fun h _ => h, fun h => h Conv.noConfusion⟩

/-! ## Structures -/

/-- The end of the last member that `ntoh` converts. -/
def reach : List Member → Nat
  | [] => 0
  | m :: ms =>
    if reach ms = 0 then if m.ntoh = .keep then 0 else m.width
    else m.width + reach ms

theorem convert_inside (hpos : ∀ m ∈ ms, 0 < m.width) :
    (convert Member.ntoh ms p t).Inside L ↔ t.Inside L ∧ (0 < reach ms → p + reach ms ≤ L) := by
  induction ms generalizing p t with
  | nil => exact ⟨fun h => ⟨h, fun h0 => absurd h0 (Nat.lt_irrefl 0)⟩, And.left⟩
  | cons m ms ih =>
    have hm := hpos m List.mem_cons_self
    rw [convert, ih fun m' hm' => hpos m' (List.mem_cons_of_mem m hm'), Tape.convertMember_inside,
      reach, and_assoc]
    refine and_congr_right fun _ => ?_
    by_cases hrest : reach ms = 0
    · rw [if_pos hrest]
      by_cases hkeep : m.ntoh = .keep
      · simp [hkeep, hrest]
      · simp [hkeep, hrest, hm]
    · rw [if_neg hrest]
      have hlt : 0 < reach ms := Nat.pos_of_ne_zero hrest
      constructor
      · intro h _
        have := h.2 hlt
        omega
      · intro h
        have := h (by omega)
        exact ⟨fun _ => by omega, fun _ => by omega⟩

/-! ## Records -/

/-- The loop comes from the record `k` to the record `k + i`: the number of records is above
each on the way, once the ones before it have been converted. -/
def Reaches (record : List Member) (countAt base : Nat) (mem : Memory) (k i : Nat) : Prop :=
  ∀ j, j ≤ i → ((k + j : Nat) : Int) <
    readI64 (backward (fields (List.replicate j record).flatten) (base + k * sizeOf record) mem)
      countAt

theorem reaches_zero :
    Reaches record countAt base mem k 0 ↔ (k : Int) < readI64 mem countAt := by
  constructor
  · intro h
    exact h 0 (Nat.le_refl 0)
  · intro h j hj
    rw [Nat.le_zero.mp hj]
    exact h

theorem reaches_succ {i : Nat} : Reaches record countAt base mem k (i + 1) ↔
    (k : Int) < readI64 mem countAt ∧
      Reaches record countAt base (backward (fields record) (base + k * sizeOf record) mem)
        (k + 1) i := by
  have hstep : ∀ j, backward (fields (List.replicate (j + 1) record).flatten)
      (base + k * sizeOf record) mem =
        backward (fields (List.replicate j record).flatten) (base + (k + 1) * sizeOf record)
          (backward (fields record) (base + k * sizeOf record) mem) := by
    intro j
    rw [List.replicate_succ, List.flatten_cons, runs_ntoh.append, Nat.succ_mul, Nat.add_assoc]
  constructor
  · intro h
    refine ⟨h 0 (Nat.zero_le _), fun j hj => ?_⟩
    have hj' := h (j + 1) (Nat.succ_le_succ hj)
    rw [hstep] at hj'
    rwa [Nat.add_right_comm]
  · rintro ⟨h0, h⟩ j hj
    cases j with
    | zero => exact h0
    | succ j =>
      have hj' := h j (Nat.le_of_succ_le_succ hj)
      rw [hstep]
      rwa [Nat.add_right_comm] at hj'

/-- Records behind their own number do not change it. -/
theorem reaches_iff {i : Nat} (hout : countAt + 8 ≤ base) :
    Reaches record countAt base mem k i ↔ ((k + i : Nat) : Int) < readI64 mem countAt := by
  have hsame : ∀ j, readI64 (backward (fields (List.replicate j record).flatten)
      (base + k * sizeOf record) mem) countAt = readI64 mem countAt := fun j =>
    readI64_congr fun a _ ha => (runs_ntoh.within _ _).outside mem a (by omega)
  constructor
  · intro h
    exact hsame i ▸ h i (Nat.le_refl i)
  · intro h j hj
    rw [hsame]
    omega

theorem convertRecords_inside (hpos : ∀ m ∈ record, 0 < m.width)
    (hreach : reach record = sizeOf record) (hsize : 0 < sizeOf record) (hcount : countAt + 8 ≤ L) :
    (convertRecords Member.ntoh record countAt base fuel k t).Inside L ↔ t.Inside L ∧
      ∀ i, i < fuel → Reaches record countAt base t.mem k i →
        base + (k + i + 1) * sizeOf record ≤ L := by
  induction fuel generalizing k t with
  | zero => exact ⟨fun h => ⟨h, fun i hi => absurd hi (Nat.not_lt_zero i)⟩, And.left⟩
  | succ fuel ih =>
    rw [convertRecords]
    have hmem : (t.touch countAt 8).mem = t.mem := rfl
    have htouch : (t.touch countAt 8).Inside L ↔ t.Inside L := by
      rw [Tape.touch_inside]
      exact and_iff_left hcount
    by_cases hk : (k : Int) < readI64 t.mem countAt
    · rw [hmem, if_pos hk, ih, convert_inside hpos, htouch, and_assoc]
      refine and_congr_right fun _ => ?_
      have hconv : (convert Member.ntoh record (base + k * sizeOf record) (t.touch countAt 8)).mem =
          backward (fields record) (base + k * sizeOf record) t.mem := runs_ntoh.mem _ _ _
      have hend : base + k * sizeOf record + sizeOf record = base + (k + 1) * sizeOf record := by
        rw [Nat.succ_mul, Nat.add_assoc]
      rw [hconv, hreach, hend]
      constructor
      · rintro ⟨hfirst, hrest⟩ i hi hr
        cases i with
        | zero => exact hfirst hsize
        | succ i =>
          have hi' := hrest i (by omega) (reaches_succ.mp hr).2
          rwa [Nat.add_right_comm k 1 i] at hi'
      · intro h
        refine ⟨fun _ => h 0 (Nat.succ_pos fuel) (reaches_zero.mpr hk), fun i hi hr => ?_⟩
        rw [Nat.add_right_comm k 1 i]
        exact h (i + 1) (by omega) (reaches_succ.mpr ⟨hk, hr⟩)
    · rw [hmem, if_neg hk, htouch]
      refine ⟨fun h => ⟨h, fun i _ hr => ?_⟩, And.left⟩
      exact absurd (hr 0 (Nat.zero_le i)) hk

/-! ## Packets -/

/-- What there is to know of the layouts. -/
theorem contents_layout (type : PxcomType) :
    (∀ m ∈ type.contents.members, 0 < m.width) ∧ 8 ≤ reach type.contents.members ∧
      ∀ l, type.contents.list = some l → l.countAt + 8 ≤ reach type.contents.members ∧
        l.offsetAt + 8 ≤ reach type.contents.members ∧ (∀ m ∈ l.record, 0 < m.width) ∧
          reach l.record = sizeOf l.record ∧ 0 < sizeOf l.record := by
  cases type <;> refine ⟨by decide, by decide, fun l hl => ?_⟩ <;> cases hl <;> decide

/-- The records that the loop comes to end below `L`.  `mem` has the structure at `p` in the
order of the host. -/
def RecordsInside (L : Nat) (mem : Memory) (p : Nat) (list : Option RecordList) : Prop :=
  ∀ l, list = some l → ∀ k, Reaches l.record (p + l.countAt) (recordsAt mem p list) mem 0 k →
    recordsAt mem p list + (k + 1) * sizeOf l.record ≤ L

/-- The structure in a received packet and its records end below `L`. -/
def ContentsInside (L : Nat) (mem : Memory) : Prop :=
  readU64 mem compktTypeAt = comPx2px → contentsAt mem + 8 ≤ L ∧
    ∀ type, PxcomType.ofCode (readBe64 mem (contentsAt mem)) = some type →
      contentsAt mem + reach type.contents.members ≤ L ∧
        RecordsInside L (backward (fields type.contents.members) (contentsAt mem) mem)
          (contentsAt mem) type.contents.list

theorem convertList_inside {list : Option RecordList}
    (hlist : ∀ l, list = some l → p + l.countAt + 8 ≤ L ∧ p + l.offsetAt + 8 ≤ L ∧
      (∀ m ∈ l.record, 0 < m.width) ∧ reach l.record = sizeOf l.record ∧ 0 < sizeOf l.record) :
    (convertList Member.ntoh list p t).Inside L ↔ t.Inside L ∧ RecordsInside L t.mem p list := by
  cases list with
  | none => exact ⟨fun h => ⟨h, fun l hl => by cases hl⟩, And.left⟩
  | some l =>
    obtain ⟨hcount, hoffset, hpos, hreach, hsize⟩ := hlist l rfl
    have htouch : (t.touch (p + l.offsetAt) 8).Inside L ↔ t.Inside L := by
      rw [Tape.touch_inside]
      exact and_iff_left hoffset
    rw [convertList, convertRecords_inside hpos hreach hsize hcount, htouch]
    refine and_congr_right fun _ => ?_
    constructor
    · intro h l' hl' k hr
      cases hl'
      have hk := (hr k (Nat.le_refl k)).trans (readI64_lt _ _)
      have hend := h k (by omega) hr
      rwa [Nat.zero_add] at hend
    · intro h i _ hr
      rw [Nat.zero_add]
      exact h l rfl i hr

/-- What the loop has touched includes what was touched before. -/
theorem inside_of_convertRecords (hpos : ∀ m ∈ record, 0 < m.width)
    (h : (convertRecords Member.ntoh record countAt base fuel k t).Inside L) : t.Inside L := by
  induction fuel generalizing k t with
  | zero => exact h
  | succ fuel ih =>
    rw [convertRecords] at h
    split at h
    · exact (Tape.touch_inside.mp ((convert_inside hpos).mp (ih h)).1).1
    · exact (Tape.touch_inside.mp h).1

theorem inside_of_convertList {list : Option RecordList}
    (hpos : ∀ l, list = some l → ∀ m ∈ l.record, 0 < m.width)
    (h : (convertList Member.ntoh list p t).Inside L) : t.Inside L := by
  cases list with
  | none => exact h
  | some l => exact (Tape.touch_inside.mp (inside_of_convertRecords (hpos l rfl) h)).1

theorem ntoh_inside (hL : sizeOf compkt ≤ L) :
    (ntoh true t).Inside L ↔ t.Inside L ∧ ContentsInside L t.mem := by
  rw [sizeOf_compkt] at hL
  have htype : (t.touch compktTypeAt 8).Inside L ↔ t.Inside L := by
    rw [Tape.touch_inside, compktTypeAt]
    exact and_iff_left (by omega)
  by_cases hpx : readU64 t.mem compktTypeAt = comPx2px
  · have hcontents : chmOffset 0 (readI64 t.mem compktOffsetAt) = contentsAt t.mem := rfl
    let t' := ((t.touch compktTypeAt 8).touch compktOffsetAt 8).touch (contentsAt t.mem) 8
    have hcode : t'.Inside L ↔ t.Inside L ∧ contentsAt t.mem + 8 ≤ L := by
      rw [Tape.touch_inside, Tape.touch_inside, htype, compktOffsetAt_eq, and_iff_left hL]
    rw [ContentsInside, forall_prop_of_true hpx]
    cases hty : PxcomType.ofCode (readBe64 t.mem (contentsAt t.mem)) with
    | none =>
      have hrun : ntoh true t = t' := by
        simp only [ntoh, if_true, Tape.touch, hpx, hcontents, hty, t']
      rw [hrun, hcode]
      exact and_congr_right fun _ => (and_iff_left fun type h => by cases h).symm
    | some type =>
      obtain ⟨hpos, hlong, hlist⟩ := contents_layout type
      have hrun : ntoh true t = convertList Member.ntoh type.contents.list (contentsAt t.mem)
          (convert Member.ntoh type.contents.members (contentsAt t.mem) t') := by
        simp only [ntoh, if_true, Tape.touch, hpx, hcontents, hty, t']
      have hmem : (convert Member.ntoh type.contents.members (contentsAt t.mem) t').mem =
          backward (fields type.contents.members) (contentsAt t.mem) t.mem := runs_ntoh.mem _ _ _
      have hstruct := @convert_inside t' (contentsAt t.mem) L _ hpos
      rw [hrun]
      by_cases hend : contentsAt t.mem + reach type.contents.members ≤ L
      · rw [convertList_inside fun l hl => ?_, hstruct, hcode, hmem, and_assoc, and_assoc]
        · refine and_congr_right fun _ => and_congr_right fun _ => ?_
          constructor
          · rintro ⟨-, hrecords⟩ type' he
            cases he
            exact ⟨hend, hrecords⟩
          · intro h
            exact ⟨fun _ => hend, (h type rfl).2⟩
        · obtain ⟨hcount, hoffset, hrecord⟩ := hlist l hl
          exact ⟨by omega, by omega, hrecord⟩
      · refine iff_of_false (fun h => hend ?_) fun h => hend (h.2.2 type rfl).1
        have hbefore := inside_of_convertList (fun l hl => (hlist l hl).2.2.1) h
        exact (hstruct.mp hbefore).2 (by omega)
  · have hrun : ntoh true t = t.touch compktTypeAt 8 := by
      simp only [ntoh, if_true, Tape.touch, hpx, if_false]
    rw [hrun, htype]
    exact (and_iff_left fun h => absurd h hpx).symm

variable {isBlocking : Bool} {heap : Memory} {pktlength : Option Nat} {turns : List Turn}
variable {stream : List Byte} {length : Nat}

/-- A packet is received without a look beyond its length exactly when its structure and the
records that the loop comes to are within it. -/
theorem rawReceive_inside_iff
    (h : (rawReceive isBlocking heap pktlength turns stream).outcome = .done (length, t)) :
    (∀ e ∈ t.log, e.1 + e.2 ≤ length) ↔ ContentsInside length (received stream length heap) := by
  obtain ⟨hlt, -, -, ht, -⟩ := rawReceive_spec h
  have hbuffer : Tape.Inside length ⟨received stream length heap,
      [(0, sizeOf compkt), (sizeOf compkt, length - sizeOf compkt)]⟩ := by
    rw [Tape.Inside, List.forall_mem_cons, List.forall_mem_singleton]
    omega
  have hinside : (∀ e ∈ t.log, e.1 + e.2 ≤ length) ↔ t.Inside length := Iff.rfl
  rw [hinside, ht, ntoh_inside (Nat.le_of_lt hlt)]
  exact and_iff_right hbuffer

/-- The bytes of a packet on the wire, by their offsets. -/
def sampleStream (length : Nat) (values : List (Nat × Byte)) : List Byte :=
  (List.range length).map fun i => (values.lookup i).getD 0

/-- A `PXCOM_REQ_UPDATEDATA` with one record. -/
def updatedataStream : List Byte :=
  sampleStream 241 [(15, 2), (111, 241), (119, 120), (127, 13), (216, 1), (224, 105)]

theorem rawReceive_inside_sample : ∃ t,
    (rawReceive true (fun _ => 0) none [readyTurn 241, readyTurn 241] updatedataStream).outcome =
      .done (241, t) ∧ ∀ e ∈ t.log, e.1 + e.2 ≤ 241 := by
  obtain ⟨t, ht⟩ := @rawReceive_ready true updatedataStream 241 (fun _ => 0) 241
    (by decide +kernel) (by decide +kernel) (by decide +kernel) (Nat.le_refl 241)
  refine ⟨t, ht, (rawReceive_inside_iff ht).mpr fun _ => ⟨by decide +kernel, fun type hty => ?_⟩⟩
  have hcode : PxcomType.ofCode (readBe64 (received updatedataStream 241 fun _ => 0)
      (contentsAt (received updatedataStream 241 fun _ => 0))) = some .reqUpdatedata := by
    decide +kernel
  cases hcode.symm.trans hty
  refine ⟨by decide +kernel, fun l hl k hr => ?_⟩
  cases hl
  rw [reaches_iff (by decide +kernel), Nat.zero_add] at hr
  have hone : (k : Int) < 1 := hr.trans_le (by decide +kernel)
  have hk : k = 0 := by omega
  rw [hk]
  decide +kernel

/-- The structure of a packet of 128 bytes is looked for at the offset 4096. -/
theorem rawReceive_readsBehind : ¬∀ isBlocking heap pktlength turns stream length t,
    (rawReceive isBlocking heap pktlength turns stream).outcome = .done (length, t) →
      ∀ e ∈ t.log, e.1 + e.2 ≤ length := by
  intro hall
  let stream := sampleStream 128 [(15, 2), (111, 128), (118, 16)]
  obtain ⟨t, ht⟩ := @rawReceive_ready true stream 128 (fun _ => 0) 128
    (by decide +kernel) (by decide +kernel) (by decide +kernel) (Nat.le_refl 128)
  have hin : t.Inside 128 := hall _ _ _ _ _ _ _ ht
  obtain ⟨hlt, -, -, he, -⟩ := rawReceive_spec ht
  rw [he, ntoh_inside (Nat.le_of_lt hlt)] at hin
  have hcontents : ContentsInside 128 (received stream 128 fun _ => 0) := hin.2
  exact absurd (hcontents (by decide +kernel)).1 (by decide +kernel)

end Wire
end Chm
