/-
A packet that has been converted for the network and back.

Every structure is given back but one: the ports of the pairs in `PXCOM_N2_CONINIT_REQ`
are converted back by a macro for eight bytes, which leaves the sign of what is on the
wire.
-/
import Chm.Wire

namespace Chm
namespace Wire

open Windows

variable {mem mem' : Memory} {t : Tape} {p q n : Nat} {m : Member} {ms ms' : List Member}
variable {type : PxcomType} {log : List (Nat × Nat)}

/-! ## Layouts -/

def Member.field (m : Member) : Windows.Field Byte :=
  ⟨m.width, m.hton.run m.width, m.ntoh.run m.width⟩

def fields (ms : List Member) : List (Windows.Field Byte) := ms.map Member.field

@[simp] theorem size_fields (ms : List Member) : size (fields ms) = sizeOf ms := by
  simp [size, fields, sizeOf, Member.field, Function.comp_def]

@[simp] theorem fields_append (ms ms' : List Member) :
    fields (ms ++ ms') = fields ms ++ fields ms' := by simp [fields]

theorem sizeOf_append (ms ms' : List Member) : sizeOf (ms ++ ms') = sizeOf ms + sizeOf ms' := by
  simp [sizeOf]

theorem sizeOf_replicate (n : Nat) (ms : List Member) :
    sizeOf (List.replicate n ms).flatten = n * sizeOf ms := by
  induction n with
  | zero => simp [sizeOf]
  | succ n ih =>
    rw [List.replicate_succ, List.flatten_cons, sizeOf_append, ih, Nat.succ_mul, Nat.add_comm]

theorem edit_keep (w p : Nat) (mem : Memory) : edit p (Conv.run w .keep) mem = mem := edit_of_eq rfl

/-- What a macro does to the memory: the edits of the members, one behind the other. -/
structure Runs (conv : Member → Conv) (run : List Member → Nat → Memory → Memory) : Prop where
  mem : ∀ ms p t, (convert conv ms p t).mem = run ms p t.mem
  nil : ∀ p mem, run [] p mem = mem
  append : ∀ ms ms' p mem, run (ms ++ ms') p mem = run ms' (p + sizeOf ms) (run ms p mem)
  within : ∀ ms p, Within p (p + sizeOf ms) (run ms p)

theorem convertMember_mem (conv : Conv) (w p : Nat) (t : Tape) :
    (t.convertMember conv w p).mem = edit p (conv.run w) t.mem := by
  cases conv with
  | keep => exact (edit_keep w p t.mem).symm
  | swap width => rfl

theorem runs_hton : Runs Member.hton fun ms => forward (fields ms) where
  mem ms p t := by
    induction ms generalizing p t with
    | nil => rfl
    | cons m ms ih =>
      rw [convert, ih, convertMember_mem]
      rfl
  nil _ _ := rfl
  append ms ms' p mem := by rw [fields_append, forward_append, size_fields]
  within ms p := size_fields ms ▸ within_forward (fields ms) p

theorem runs_ntoh : Runs Member.ntoh fun ms => backward (fields ms) where
  mem ms p t := by
    induction ms generalizing p t with
    | nil => rfl
    | cons m ms ih =>
      rw [convert, ih, convertMember_mem]
      rfl
  nil _ _ := rfl
  append ms ms' p mem := by rw [fields_append, backward_append, size_fields]
  within ms p := size_fields ms ▸ within_backward (fields ms) p

/-! ## Integers -/

theorem bytesAt_congr (h : ∀ i, p ≤ i → i < p + n → mem i = mem' i) :
    bytesAt mem p n = bytesAt mem' p n := by
  refine List.map_congr_left fun k hk => ?_
  rw [List.mem_range] at hk
  exact h (p + k) (by omega) (by omega)

theorem readU64_congr (h : ∀ i, p ≤ i → i < p + 8 → mem i = mem' i) :
    readU64 mem p = readU64 mem' p := by
  rw [readU64, readU64, bytesAt_congr h]

theorem readI64_congr (h : ∀ i, p ≤ i → i < p + 8 → mem i = mem' i) :
    readI64 mem p = readI64 mem' p := by
  rw [readI64, readI64, readU64_congr h]

theorem leNat_lt (bytes : List Byte) : leNat bytes < 256 ^ bytes.length := by
  induction bytes with
  | nil => decide
  | cons b bytes ih =>
    have hb := b.toNat_lt
    rw [leNat, List.length_cons, Nat.pow_succ]
    omega

theorem leNat_digits (v n : Nat) :
    leNat ((List.range n).map fun k => UInt8.ofNat (v / 256 ^ k)) = v % 256 ^ n := by
  induction n generalizing v with
  | zero => exact (Nat.mod_one v).symm
  | succ n ih =>
    have hrest : (fun k => UInt8.ofNat (v / 256 ^ k)) ∘ Nat.succ =
        fun k => UInt8.ofNat (v / 256 / 256 ^ k) := by
      funext k
      show UInt8.ofNat (v / 256 ^ (k + 1)) = _
      rw [Nat.pow_succ', Nat.div_div_eq_div_mul]
    rw [List.range_succ_eq_map, List.map_cons, List.map_map, hrest, leNat, ih, Nat.pow_zero,
      Nat.div_one, Nat.pow_succ', Nat.mod_mul]
    show v % 256 + _ = _
    rfl

theorem readI64_lt (mem : Memory) (p : Nat) : readI64 mem p < longEnd := by
  have h := leNat_lt (bytesAt mem p 8)
  have hlen : (bytesAt mem p 8).length = 8 := by simp [bytesAt]
  rw [hlen] at h
  rw [readI64, longEnd]
  split
  · omega
  · have hu : readU64 mem p < 2 ^ 64 := h
    omega

/-! ## Records -/

variable {conv : Member → Conv} {run : List Member → Nat → Memory → Memory}

/-- The loop converts as many records as there are, unless the records reach over their
own number. -/
theorem convertRecords_mem (h : Runs conv run) {record : List Member} {countAt base : Nat}
    {fuel k n : Nat} (hn : (readI64 t.mem countAt).toNat = n)
    (hout : countAt + 8 ≤ base ∨ base + n * sizeOf record ≤ countAt) (hk : k ≤ n)
    (hfuel : n ≤ fuel + k) :
    (convertRecords conv record countAt base fuel k t).mem =
      run (List.replicate (n - k) record).flatten (base + k * sizeOf record) t.mem := by
  induction fuel generalizing k t with
  | zero =>
    have hzero : n - k = 0 := by omega
    rw [hzero, convertRecords, List.replicate_zero, List.flatten_nil, h.nil]
  | succ fuel ih =>
    rw [convertRecords]
    by_cases hlt : k < n
    · have hstep : (k + 1) * sizeOf record ≤ n * sizeOf record := Nat.mul_le_mul_right _ hlt
      rw [Nat.succ_mul] at hstep
      have hw := h.within record (base + k * sizeOf record)
      have hsame : readI64 (convert conv record (base + k * sizeOf record) (t.touch countAt 8)).mem
          countAt = readI64 t.mem countAt := by
        rw [h.mem]
        exact readI64_congr fun i hi hi' => hw.outside _ i (by omega)
      have hsucc : n - k = (n - (k + 1)) + 1 := by omega
      rw [if_pos (by show (k : Int) < readI64 t.mem countAt; omega),
        ih (by rw [hsame]; exact hn) hlt (by omega), hsucc, List.replicate_succ, List.flatten_cons,
        h.append, h.mem, Nat.succ_mul, Nat.add_assoc]
      rfl
    · have hzero : n - k = 0 := by omega
      have hstop : ¬(k : Int) < readI64 (t.touch countAt 8).mem countAt := by
        show ¬(k : Int) < readI64 t.mem countAt
        omega
      rw [if_neg hstop, hzero, List.replicate_zero, List.flatten_nil, h.nil]
      rfl

/-! ## Packets -/

/-- Where the structure after the head is. -/
def contentsAt (mem : Memory) : Nat := chmOffset 0 (readI64 mem compktOffsetAt)

/-- The records that come with a structure, and where they are. -/
def recordsOf (mem : Memory) (p : Nat) : Option RecordList → List Member
  | none => []
  | some l => (List.replicate (readI64 mem (p + l.countAt)).toNat l.record).flatten

def recordsAt (mem : Memory) (p : Nat) : Option RecordList → Nat
  | none => p
  | some l => chmOffset p (readI64 mem (p + l.offsetAt))

/-- A packet of a type that is converted: the head, the structure behind it and the records
behind the structure are inside the packet. -/
structure WellFormed (mem : Memory) (type : PxcomType) : Prop where
  isPx2px : readU64 mem compktTypeAt = comPx2px
  isType : PxcomType.ofCode (readU64 mem (contentsAt mem)) = some type
  behind : sizeOf compkt ≤ contentsAt mem
  inside : contentsAt mem + sizeOf type.contents.members ≤ readU64 mem compktLengthAt
  records : type.contents.list ≠ none →
    contentsAt mem + sizeOf type.contents.members ≤
        recordsAt mem (contentsAt mem) type.contents.list ∧
      recordsAt mem (contentsAt mem) type.contents.list +
          sizeOf (recordsOf mem (contentsAt mem) type.contents.list) ≤
        readU64 mem compktLengthAt

/-- Every structure starts with its type, and has the number of its records and their offset
in it. -/
theorem contents_members (type : PxcomType) :
    (∃ ms, type.contents.members = int64 :: ms) ∧ ∀ l, type.contents.list = some l →
      l.countAt + 8 ≤ sizeOf type.contents.members ∧
        l.offsetAt + 8 ≤ sizeOf type.contents.members := by
  cases type <;> refine ⟨⟨_, rfl⟩, fun l hl => ?_⟩ <;> cases hl <;> decide

theorem convertList_mem (h : Runs conv run) {list : Option RecordList}
    (hout : ∀ l, list = some l → p + l.countAt + 8 ≤ recordsAt t.mem p list) :
    (convertList conv list p t).mem =
      run (recordsOf t.mem p list) (recordsAt t.mem p list) t.mem := by
  cases list with
  | none => exact (h.nil p t.mem).symm
  | some l =>
    have hlt := readI64_lt t.mem (p + l.countAt)
    have hfuel : (readI64 t.mem (p + l.countAt)).toNat ≤ longEnd + 0 := by omega
    have hrun := @convertRecords_mem (t.touch (p + l.offsetAt) 8) conv run h l.record
      (p + l.countAt) (chmOffset p (readI64 t.mem (p + l.offsetAt))) longEnd 0 _ rfl
      (Or.inl (hout l rfl)) (Nat.zero_le _) hfuel
    rw [Nat.zero_mul, Nat.sub_zero, Nat.add_zero] at hrun
    exact hrun

/-! ## Members that are given back -/

/-- Both macros leave the member, or both convert it by its width. -/
def Member.Exact (m : Member) : Prop :=
  m.hton = m.ntoh ∧ (m.hton = .keep ∨ m.hton = .swap m.width)

instance (m : Member) : Decidable m.Exact := inferInstanceAs (Decidable (_ ∧ _))

theorem run_swap_swap (w : Nat) (v : Fin w → Byte) :
    Conv.run w (.swap w) (Conv.run w (.swap w) v) = v := by
  funext k
  have hk := k.isLt
  have hback : w - 1 - (w - 1 - (k : Nat)) = k := by omega
  have hout : w - 1 - (k : Nat) < w := by omega
  simp only [Conv.run, extend, if_pos hk, if_pos hout, dif_pos hout, hback, dif_pos hk]

theorem Member.Exact.undone (h : m.Exact) (mem : Memory) (q : Nat) : m.field.Undone mem q := by
  obtain ⟨hsame, hconv⟩ := h
  show m.ntoh.run m.width (m.hton.run m.width (cell m.width mem q)) = cell m.width mem q
  rw [← hsame]
  rcases hconv with hk | hw
  · rw [hk]
    rfl
  · rw [hw]
    exact run_swap_swap m.width _

theorem placed_fields {f : Windows.Field Byte} (h : (q, f) ∈ placed (fields ms) p) :
    ∃ m ∈ ms, f = m.field := by
  induction ms generalizing p with
  | nil => cases h
  | cons m ms ih =>
    rcases List.mem_cons.mp h with he | h
    · cases he
      exact ⟨m, List.mem_cons_self, rfl⟩
    · obtain ⟨m', hm', hf⟩ := ih h
      exact ⟨m', List.mem_cons_of_mem _ hm', hf⟩

theorem undone_fields (h : ∀ m ∈ ms, m.Exact) (p : Nat) (mem : Memory) :
    backward (fields ms) p (forward (fields ms) p mem) = mem := by
  refine (backward_forward_iff _ _ _).mpr fun q f hf => ?_
  obtain ⟨m, hm, rfl⟩ := placed_fields hf
  exact (h m hm).undone mem q

theorem compkt_exact : ∀ m ∈ compkt, m.Exact := by decide

theorem contents_exact (type : PxcomType) (h : type ≠ .n2ConinitReq) :
    (∀ m ∈ type.contents.members, m.Exact) ∧
      ∀ l, type.contents.list = some l → ∀ m ∈ l.record, m.Exact := by
  cases type <;> first
    | exact absurd rfl h
    | exact ⟨by decide, fun l hl => by cases hl <;> decide⟩

/-! ## The ports of `PXCOM_N2_CONINIT_REQ` -/

def readI16 (mem : Memory) (p : Nat) : Int :=
  if leNat (bytesAt mem p 2) < 2 ^ 15 then leNat (bytesAt mem p 2)
  else leNat (bytesAt mem p 2) - 2 ^ 16

/-- The addresses of the ports of pairs in a structure at `p`. -/
def pairPorts : List Member → Nat → List Nat
  | [], _ => []
  | m :: ms, p => if m = coninitPort then p :: pairPorts ms (p + m.width)
    else pairPorts ms (p + m.width)

theorem pairPorts_inside (h : q ∈ pairPorts ms p) : p ≤ q ∧ q + 2 ≤ p + sizeOf ms := by
  induction ms generalizing p with
  | nil => cases h
  | cons m ms ih =>
    have hsize : sizeOf (m :: ms) = m.width + sizeOf ms := rfl
    rw [hsize]
    rw [pairPorts] at h
    split at h
    · rename_i hm
      have hw : m.width = 2 := by rw [hm]; rfl
      rcases List.mem_cons.mp h with rfl | h
      · omega
      · have := ih h
        omega
    · have := ih h
      omega

/-- What comes back is the sign of the low byte, twice. -/
theorem coninitPort_undone : coninitPort.field.Undone mem q ↔
    readI16 mem q = 0 ∨ readI16 mem q = -1 := by
  have hback : ∀ k : Fin 2, Conv.run 2 (.swap 8) (Conv.run 2 (.swap 2) (cell 2 mem q)) k =
      if 128 ≤ mem q then 255 else 0 := by
    intro k
    have hk := k.isLt
    have hout : ¬7 - (k : Nat) < 2 := by omega
    simp [Conv.run, extend, cell, hout, show (k : Nat) < 8 by omega]
  have hread : leNat (bytesAt mem q 2) = (mem q).toNat + 256 * (mem (q + 1)).toNat := by
    simp [bytesAt, leNat, List.range_succ]
  have h0 := (mem q).toNat_lt
  have h1 := (mem (q + 1)).toNat_lt
  have hiff : coninitPort.field.Undone mem q ↔
      (if 128 ≤ mem q then (255 : Byte) else 0) = mem q ∧
        (if 128 ≤ mem q then (255 : Byte) else 0) = mem (q + 1) := by
    constructor
    · intro h
      have hu : ∀ k : Fin 2, _ = _ := fun k => (hback k).symm.trans (congrFun h k)
      exact ⟨hu 0, hu 1⟩
    · intro h
      have hall : ∀ k : Fin 2, (if 128 ≤ mem q then (255 : Byte) else 0) = cell 2 mem q k :=
        Fin.forall_fin_two.mpr h
      exact funext fun k => (hback k).trans (hall k)
  rw [hiff, readI16, hread]
  simp only [← UInt8.toNat_inj, UInt8.le_iff_toNat_le]
  by_cases hsign : (128 : Byte).toNat ≤ (mem q).toNat
  · rw [if_pos hsign]
    have h255 : (255 : Byte).toNat = 255 := rfl
    have h128 : (128 : Byte).toNat = 128 := rfl
    split <;> omega
  · rw [if_neg hsign]
    have hzero : (0 : Byte).toNat = 0 := rfl
    have h128 : (128 : Byte).toNat = 128 := rfl
    split <;> omega

theorem coninitPort_not_exact : ¬coninitPort.Exact := by decide

theorem undone_pairs_iff (h : ∀ m ∈ ms, m.Exact ∨ m = coninitPort) (p : Nat) (mem : Memory) :
    backward (fields ms) p (forward (fields ms) p mem) = mem ↔
      ∀ q ∈ pairPorts ms p, readI16 mem q = 0 ∨ readI16 mem q = -1 := by
  rw [backward_forward_iff]
  induction ms generalizing p with
  | nil =>
    constructor
    · intro _ q hq
      cases hq
    · intro _ q f hf
      cases hf
  | cons m ms ih =>
    have hrest := ih (fun m' hm' => h m' (List.mem_cons_of_mem _ hm')) (p + m.width)
    have hcons : (∀ q f, (q, f) ∈ placed (fields (m :: ms)) p → f.Undone mem q) ↔
        m.field.Undone mem p ∧
          ∀ q f, (q, f) ∈ placed (fields ms) (p + m.width) → f.Undone mem q := by
      constructor
      · intro hall
        exact ⟨hall p m.field List.mem_cons_self,
          fun q f hf => hall q f (List.mem_cons_of_mem _ hf)⟩
      · intro hall q f hf
        rcases List.mem_cons.mp hf with he | hf
        · cases he
          exact hall.1
        · exact hall.2 q f hf
    rw [hcons, hrest, pairPorts]
    by_cases hm : m = coninitPort
    · subst hm
      rw [if_pos rfl, coninitPort_undone, List.forall_mem_cons]
    · rw [if_neg hm]
      have hexact := (h m List.mem_cons_self).resolve_right hm
      exact and_iff_right (hexact.undone mem p)

/-! ## Packets there and back -/

theorem recordsOf_congr {list : Option RecordList} {e : Nat}
    (hlist : ∀ l, list = some l → p + l.countAt + 8 ≤ e ∧ p + l.offsetAt + 8 ≤ e)
    (h : ∀ i, p ≤ i → i < e → mem i = mem' i) :
    recordsOf mem p list = recordsOf mem' p list ∧
      recordsAt mem p list = recordsAt mem' p list := by
  cases list with
  | none => exact ⟨rfl, rfl⟩
  | some l =>
    obtain ⟨hcount, hoffset⟩ := hlist l rfl
    have hc : readI64 mem (p + l.countAt) = readI64 mem' (p + l.countAt) :=
      readI64_congr fun i hi hi' => h i (by omega) (by omega)
    have ho : readI64 mem (p + l.offsetAt) = readI64 mem' (p + l.offsetAt) :=
      readI64_congr fun i hi hi' => h i (by omega) (by omega)
    rw [recordsOf, recordsOf, recordsAt, recordsAt, hc, ho]
    exact ⟨rfl, rfl⟩

theorem sizeOf_compkt : sizeOf compkt = 120 := by decide

theorem compktOffsetAt_eq : compktOffsetAt = 112 := by decide

theorem compktLengthAt_eq : compktLengthAt = 104 := by decide

namespace WellFormed

theorem list_inside (type : PxcomType) (p : Nat) : ∀ l, type.contents.list = some l →
    p + l.countAt + 8 ≤ p + sizeOf type.contents.members ∧
      p + l.offsetAt + 8 ≤ p + sizeOf type.contents.members := by
  intro l hl
  obtain ⟨hcount, hoffset⟩ := (contents_members type).2 l hl
  omega

/-- The records are behind the structure; without a list there are none. -/
theorem records_behind (h : WellFormed mem type) :
    recordsOf mem (contentsAt mem) type.contents.list = [] ∨
      contentsAt mem + sizeOf type.contents.members ≤
        recordsAt mem (contentsAt mem) type.contents.list := by
  cases hl : type.contents.list with
  | none => exact Or.inl rfl
  | some l =>
    have hr := (h.records (by rw [hl]; exact Option.some_ne_none l)).1
    rw [hl] at hr
    exact Or.inr hr

theorem records_inside (h : WellFormed mem type) :
    sizeOf compkt ≤ recordsAt mem (contentsAt mem) type.contents.list ∧
      recordsAt mem (contentsAt mem) type.contents.list +
          sizeOf (recordsOf mem (contentsAt mem) type.contents.list) ≤
        readU64 mem compktLengthAt := by
  have hbehind := h.behind
  have hinside := h.inside
  cases hl : type.contents.list with
  | none =>
    have hzero : sizeOf [] = 0 := rfl
    rw [recordsOf, recordsAt, hzero]
    omega
  | some l =>
    have hr := h.records (by rw [hl]; exact Option.some_ne_none l)
    rw [hl] at hr
    omega

/-- `hton` converts the head, the records and the structure. -/
theorem hton_mem (h : WellFormed mem type) (log : List (Nat × Nat)) :
    (hton ⟨mem, log⟩).1 = readU64 mem compktLengthAt ∧ (hton ⟨mem, log⟩).2.mem =
      forward (fields type.contents.members) (contentsAt mem)
        (forward (fields (recordsOf mem (contentsAt mem) type.contents.list))
          (recordsAt mem (contentsAt mem) type.contents.list)
          (forward (fields compkt) 0 mem)) := by
  have hbehind := h.behind
  have hhead : ∀ i, contentsAt mem ≤ i → forward (fields compkt) 0 mem i = mem i := fun i hi =>
    (runs_hton.within compkt 0).outside mem i (by omega)
  have htype : readU64 (forward (fields compkt) 0 mem) (contentsAt mem) =
      readU64 mem (contentsAt mem) := readU64_congr fun i hi _ => hhead i hi
  obtain ⟨hof, hat⟩ := recordsOf_congr (WellFormed.list_inside type (contentsAt mem))
    fun i hi _ => hhead i hi
  have hlist : ∀ l, type.contents.list = some l → contentsAt mem + l.countAt + 8 ≤
      recordsAt (forward (fields compkt) 0 mem) (contentsAt mem) type.contents.list := by
    intro l hl
    have hr := (h.records (by rw [hl]; exact Option.some_ne_none l)).1
    have hc := (list_inside type (contentsAt mem) l hl).1
    rw [hat]
    omega
  have hmem : ∀ log, (convert Member.hton compkt 0 ⟨mem, log⟩).mem =
      forward (fields compkt) 0 mem :=
    fun log => runs_hton.mem compkt 0 ⟨mem, log⟩
  have hcontents : chmOffset 0 (readI64 mem compktOffsetAt) = contentsAt mem := rfl
  simp only [hton, Tape.touch, h.isPx2px, if_true, hmem, hcontents, htype, h.isType]
  have hrecords : ∀ log, (convertList Member.hton type.contents.list (contentsAt mem)
      ⟨forward (fields compkt) 0 mem, log⟩).mem = _ := fun log =>
    convertList_mem (t := ⟨forward (fields compkt) 0 mem, log⟩) runs_hton hlist
  refine ⟨trivial, ?_⟩
  rw [runs_hton.mem, hrecords, hof, hat]

/-- The bytes of the type on the wire are the ones in memory in the other order. -/
theorem readBe64_forward (ms : List Member) (p : Nat) (mem : Memory) :
    readBe64 (forward (fields (int64 :: ms)) p mem) p = readU64 mem p := by
  have hbyte : ∀ k, k < 8 → forward (fields (int64 :: ms)) p mem (p + k) = mem (p + (7 - k)) := by
    intro k hk
    have hrest := (runs_hton.within ms (p + 8)).outside (edit p (Conv.run 8 (.swap 8)) mem) (p + k)
      (by omega)
    have hout : 7 - k < 8 := by omega
    refine hrest.trans ?_
    rw [edit, dif_pos (by omega)]
    simp [Conv.run, extend, cell, hk, hout]
  have hzero := hbyte 0 (by omega)
  rw [Nat.add_zero] at hzero
  rw [readBe64, readU64]
  congr 1
  simp [bytesAt, List.range_succ, hbyte, hzero]

/-- `ntoh` of the structure and the records that `hton` has converted. -/
theorem ntoh_mem (h : WellFormed mem type)
    (ht : t.mem = forward (fields type.contents.members) (contentsAt mem)
      (forward (fields (recordsOf mem (contentsAt mem) type.contents.list))
        (recordsAt mem (contentsAt mem) type.contents.list) mem)) :
    (ntoh true t).mem = backward (fields type.contents.members) (contentsAt mem)
      (forward (fields type.contents.members) (contentsAt mem) mem) := by
  have hbehind := h.behind
  rw [sizeOf_compkt] at hbehind
  have hrecords : ∀ i, i < contentsAt mem + sizeOf type.contents.members →
      forward (fields (recordsOf mem (contentsAt mem) type.contents.list))
        (recordsAt mem (contentsAt mem) type.contents.list) mem i = mem i := by
    intro i hi
    rcases h.records_behind with hnil | hle
    · rw [hnil]
      rfl
    · exact (runs_hton.within _ _).outside mem i (by omega)
  have hhead : ∀ i, i < 120 → t.mem i = mem i := by
    intro i hi
    have hs := (runs_hton.within type.contents.members (contentsAt mem)).outside
      (forward (fields (recordsOf mem (contentsAt mem) type.contents.list))
        (recordsAt mem (contentsAt mem) type.contents.list) mem) i (by omega)
    rw [ht, hs]
    exact hrecords i (by omega)
  have hpx : readU64 t.mem compktTypeAt = comPx2px := by
    rw [← h.isPx2px]
    exact readU64_congr fun i _ hi => hhead i (by rw [compktTypeAt] at hi; omega)
  have hcontents : chmOffset 0 (readI64 t.mem compktOffsetAt) = contentsAt mem := by
    rw [contentsAt, readI64_congr fun i _ hi => hhead i (by rw [compktOffsetAt_eq] at hi; omega)]
  have htype : PxcomType.ofCode (readBe64 t.mem (contentsAt mem)) = some type := by
    obtain ⟨⟨ms, hms⟩, -⟩ := contents_members type
    rw [ht, hms, readBe64_forward, ← h.isType]
    refine congrArg _ (readU64_congr fun i _ hi => hrecords i ?_)
    have hsize : sizeOf (int64 :: ms) = 8 + sizeOf ms := rfl
    rw [hms, hsize]
    omega
  simp only [ntoh, if_true, Tape.touch, hpx, hcontents, htype]
  -- The structure is converted before its list is looked at.
  cases hl : type.contents.list with
  | none =>
    rw [hl] at ht
    rw [convertList, runs_ntoh.mem, ht]
    rfl
  | some l =>
    have hne : type ≠ .n2ConinitReq := by
      rintro rfl
      cases hl
    obtain ⟨hmembers, hrecord⟩ := contents_exact type hne
    have hall : ∀ m ∈ recordsOf mem (contentsAt mem) (some l), m.Exact := by
      intro m hm
      obtain ⟨record, hrep, hin⟩ := List.mem_flatten.mp hm
      rw [(List.mem_replicate.mp hrep).2] at hin
      exact hrecord l hl m hin
    have hstruct : ∀ log, (convert Member.ntoh type.contents.members (contentsAt mem)
        ⟨t.mem, log⟩).mem = forward (fields (recordsOf mem (contentsAt mem) (some l)))
          (recordsAt mem (contentsAt mem) (some l)) mem := by
      intro log
      rw [runs_ntoh.mem, ht, hl]
      exact undone_fields hmembers _ _
    have hinside := list_inside type (contentsAt mem)
    rw [hl] at hinside hrecords
    obtain ⟨hof, hat⟩ := recordsOf_congr hinside fun i _ hi => hrecords i hi
    have hbase := (h.records (by rw [hl]; exact Option.some_ne_none l)).1
    rw [hl] at hbase
    rw [convertList_mem runs_ntoh, hstruct, hof, hat, undone_fields hall, undone_fields hmembers]
    intro l' hl'
    rw [hstruct, hat]
    have hcount := (hinside l' hl').1
    omega

theorem ntoh_false (t : Tape) :
    ntoh false t = ntoh true (convert Member.ntoh compkt 0 t) := by
  simp only [ntoh, Bool.false_eq_true, if_false, if_true]

/-- The head is converted back before anything else. -/
theorem ntoh_hton_mem (h : WellFormed mem type) (log : List (Nat × Nat)) :
    (ntoh false (hton ⟨mem, log⟩).2).mem =
      backward (fields type.contents.members) (contentsAt mem)
        (forward (fields type.contents.members) (contentsAt mem) mem) := by
  have hbehind := h.behind
  obtain ⟨-, hton⟩ := h.hton_mem log
  generalize (Wire.hton ⟨mem, log⟩).2 = t at hton
  rw [ntoh_false]
  refine h.ntoh_mem ?_
  have hback := runs_ntoh.within compkt 0
  have hstruct := runs_hton.within type.contents.members (contentsAt mem)
  have hrecords := runs_hton.within (recordsOf mem (contentsAt mem) type.contents.list)
    (recordsAt mem (contentsAt mem) type.contents.list)
  rw [runs_ntoh.mem, hton, hback.comm hstruct (by omega)]
  rcases h.records_behind with hnil | hle
  · rw [hnil]
    exact congrArg _ (undone_fields compkt_exact 0 mem)
  · rw [hback.comm hrecords (by omega), undone_fields compkt_exact]

end WellFormed

/-- The ports of the pairs are 0 or -1 in a packet that has such pairs. -/
def PortsPlain (mem : Memory) (type : PxcomType) : Prop :=
  type = .n2ConinitReq → ∀ q ∈ pairPorts pxcomN2ConinitReq (contentsAt mem),
    readI16 mem q = 0 ∨ readI16 mem q = -1

theorem backward_forward_contents (type : PxcomType) (mem : Memory) :
    backward (fields type.contents.members) (contentsAt mem)
        (forward (fields type.contents.members) (contentsAt mem) mem) = mem ↔
      PortsPlain mem type := by
  by_cases hty : type = .n2ConinitReq
  · subst hty
    have hall : ∀ m ∈ pxcomN2ConinitReq, m.Exact ∨ m = coninitPort := by decide
    exact (undone_pairs_iff hall (contentsAt mem) mem).trans ⟨fun h _ => h, fun h => h rfl⟩
  · refine ⟨fun _ hne => absurd hne hty, fun _ => ?_⟩
    exact undone_fields (contents_exact type hty).1 _ _

theorem WellFormed.restored (h : WellFormed mem type) (log : List (Nat × Nat)) :
    (∀ i, i < readU64 mem compktLengthAt → (ntoh false (hton ⟨mem, log⟩).2).mem i = mem i) ↔
      (ntoh false (hton ⟨mem, log⟩).2).mem = mem := by
  rw [h.ntoh_hton_mem log]
  have hin : Within (contentsAt mem) (contentsAt mem + sizeOf type.contents.members) fun mem' =>
      backward (fields type.contents.members) (contentsAt mem)
        (forward (fields type.contents.members) (contentsAt mem) mem') :=
    (runs_ntoh.within _ _).comp (runs_hton.within _ _)
  constructor
  · intro hall
    funext i
    by_cases hi : i < readU64 mem compktLengthAt
    · exact hall i hi
    · have hinside := h.inside
      exact hin.outside mem i (by omega)
  · intro he i _
    rw [he]

/-- A packet comes back exactly when the ports of its pairs are 0 or -1. -/
theorem ntoh_hton_iff (h : WellFormed mem type) (log : List (Nat × Nat)) :
    (∀ i, i < readU64 mem compktLengthAt → (ntoh false (hton ⟨mem, log⟩).2).mem i = mem i) ↔
      PortsPlain mem type := by
  rw [h.restored log, h.ntoh_hton_mem log, backward_forward_contents type mem]

/-- A packet of the type `code`, with nothing else in it. -/
def samplePacket (code length : Nat) : Memory := fun i =>
  if i = compktTypeAt then UInt8.ofNat comPx2px
  else if i = compktLengthAt then UInt8.ofNat length
  else if i = compktLengthAt + 1 then UInt8.ofNat (length / 256)
  else if i = compktOffsetAt then 120
  else if i = 120 then UInt8.ofNat code
  else 0

theorem samplePacket_wellFormed : WellFormed (samplePacket 12 152) .serverDown :=
  ⟨by decide +kernel, by decide +kernel, by decide +kernel, by decide +kernel,
    fun hne => absurd rfl hne⟩

theorem ntoh_hton_sample : WellFormed (samplePacket 12 152) .serverDown ∧
    ∀ i, i < readU64 (samplePacket 12 152) compktLengthAt →
      (ntoh false (hton ⟨samplePacket 12 152, []⟩).2).mem i = samplePacket 12 152 i :=
  ⟨samplePacket_wellFormed,
    (ntoh_hton_iff samplePacket_wellFormed []).mpr fun hty => absurd hty (by decide)⟩

/-- A `PXCOM_N2_CONINIT_REQ` with the port 85 for its first end point. -/
def coninitPacket : Memory := Function.update (samplePacket 24 21707) 6300 85

theorem coninitPacket_wellFormed : WellFormed coninitPacket .n2ConinitReq :=
  ⟨by decide +kernel, by decide +kernel, by decide +kernel, by decide +kernel,
    fun hne => absurd rfl hne⟩

/-- The port comes back as 0. -/
theorem ntoh_losesPort :
    ¬∀ mem type log, WellFormed mem type → ∀ i, i < readU64 mem compktLengthAt →
      (ntoh false (hton ⟨mem, log⟩).2).mem i = mem i := by
  intro h
  have hwf := coninitPacket_wellFormed
  have hback := (hwf.restored []).mp (h coninitPacket .n2ConinitReq [] hwf)
  rw [hwf.ntoh_hton_mem, backward_forward_contents] at hback
  exact absurd (hback rfl 6300 (by decide +kernel)) (by decide +kernel)

end Wire
end Chm
