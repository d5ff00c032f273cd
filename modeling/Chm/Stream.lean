/-
The output side of `chmstream`: keys and values that a client writes as text.

Key and value share one buffer, which grows by a page when it is full.  On a slave the first
flush ends the key and the second one sends the message, key and value as strings with their
NUL.  A flush puts a NUL behind the text and another one over a newline at its end.

`grown` is the size of the buffer for so many characters.  `flushed_sends` says what is
sent, whatever way the text has been cut into writes.
-/
import Chm.RawSock

namespace Chm
namespace Stream

open Wire

/-! ## Binary data and pairs -/

/-- `htobe64` of a length, as bytes. -/
def be64 (n : Nat) : List Byte := ((List.range 8).map fun k => UInt8.ofNat (n / 256 ^ k)).reverse

/-- `ChmBinData::Put`. -/
def putBin (data : List Byte) : List Byte := be64 data.length ++ data

/-- `ChmBinData::Load` at `p`. -/
def loadBin (mem : Memory) (p : Nat) : List Byte := bytesAt mem (p + 8) (readBe64 mem p)

/-- `ChmKVPair`. -/
structure KVPair where
  key : List Byte
  value : List Byte
  deriving DecidableEq, Repr

namespace KVPair

def put (kvp : KVPair) : List Byte := putBin kvp.key ++ putBin kvp.value

def load (mem : Memory) : KVPair :=
  let key := loadBin mem 0
  ⟨key, loadBin mem (key.length + 8)⟩

end KVPair

/-! ## The stream buffer -/

def pagesize : Nat := 4096

def newline : Byte := 10

/-- What `Send` and `Reply` get; a reply has no hash. -/
structure Message where
  body : List Byte
  hash : Option ChmHash
  deriving DecidableEq, Repr

/-- The `ChmCntrl` of the stream: its type, the results of `Open` and of `Send` or `Reply`,
what realloc leaves behind the old bytes of a buffer of a new size, and the hash function. -/
structure Cntrl where
  isClientOnSlvType : Bool
  opens : Bool
  sends : Bool
  heap : Nat → Memory
  hash : List Byte → ChmHash

/-- `basic_chmstreambuf`, its output side.  `buff` is the memory from `output_buff` on, of
which `size` bytes are allocated; positions count from there and `epptr` is `size`.
`sent` are the messages, `log` where in the memory something has been written, with the
size at the time. -/
structure StreamBuf where
  buff : Memory
  size : Nat
  pptr : Nat
  valPos : Option Nat
  initHash : Option ChmHash
  isInitKey : Bool
  hasMsgid : Bool
  hasLastpkt : Bool
  sent : List Message
  log : List (Nat × Nat)

/-- `strlen` at `p`, as the characters it counts, of `fuel` at most. -/
def cstr (mem : Memory) : Nat → Nat → List Byte
  | 0, _ => []
  | fuel + 1, p => if mem p = 0 then [] else mem p :: cstr mem fuel (p + 1)

namespace StreamBuf

def poke (p : Nat) (b : Byte) (s : StreamBuf) : StreamBuf :=
  { s with buff := Function.update s.buff p b, log := s.log ++ [(p, s.size)] }

/-- `overflow` with a character. -/
def overflow (c : Cntrl) (ch : Byte) (s : StreamBuf) : StreamBuf :=
  let newsize := s.size + pagesize
  let s := { s with
    buff := fun i => if i < s.size then s.buff i else c.heap newsize i
    size := newsize
    pptr := s.size }
  { s.poke s.pptr ch with pptr := s.pptr + 1 }

/-- `sputc`, which overflows when the buffer is full. -/
def sputc (c : Cntrl) (ch : Byte) (s : StreamBuf) : StreamBuf :=
  if s.pptr < s.size then { s.poke s.pptr ch with pptr := s.pptr + 1 } else s.overflow c ch

/-- `sputn` of a piece of text. -/
def sputn (c : Cntrl) (text : List Byte) (s : StreamBuf) : StreamBuf :=
  text.foldl (fun s ch => s.sputc c ch) s

/-- Text that is written in pieces. -/
def write (c : Cntrl) (pieces : List (List Byte)) (s : StreamBuf) : StreamBuf :=
  pieces.foldl (fun s text => s.sputn c text) s

/-! ## The size of the buffer -/

/-- The size of a buffer of `n` bytes after `len` characters have been written. -/
def grown (n len : Nat) : Nat := n + (len - n + (pagesize - 1)) / pagesize * pagesize

theorem grown_of_le {n len : Nat} (h : len ≤ n) : grown n len = n := by
  simp only [grown, pagesize]
  omega

theorem le_grown (n len : Nat) : len ≤ grown n len := by
  simp only [grown, pagesize]
  omega

theorem grown_grown {n len len' : Nat} (h : len ≤ len') :
    grown (grown n len) len' = grown n len' := by
  simp only [grown, pagesize]
  omega

/-! ## Writing text -/

variable {c : Cntrl} {s s' s'' : StreamBuf} {text text' : List Byte}

/-- `s'` is `s` with text behind what was there; only the buffer has changed. -/
structure Wrote (s : StreamBuf) (text : List Byte) (s' : StreamBuf) : Prop where
  rest : s' = { s with buff := s'.buff, size := s'.size, pptr := s'.pptr, log := s'.log }
  pptr : s'.pptr = s.pptr + text.length
  size : s'.size = grown s.size (s.pptr + text.length)
  before : ∀ i, i < s.pptr → s'.buff i = s.buff i
  chars : ∀ i, i < text.length → some (s'.buff (s.pptr + i)) = text[i]?
  inside : ∀ w ∈ s'.log, w ∈ s.log ∨ w.1 < w.2

theorem Wrote.fits (h : Wrote s text s') : s'.pptr ≤ s'.size := by
  rw [h.pptr, h.size]
  exact le_grown _ _

theorem Wrote.valPos (h : Wrote s text s') : s'.valPos = s.valPos := by rw [h.rest]

theorem Wrote.initHash (h : Wrote s text s') : s'.initHash = s.initHash := by rw [h.rest]

theorem Wrote.isInitKey (h : Wrote s text s') : s'.isInitKey = s.isInitKey := by rw [h.rest]

theorem Wrote.sent (h : Wrote s text s') : s'.sent = s.sent := by rw [h.rest]

theorem Wrote.refl (h : s.pptr ≤ s.size) : Wrote s [] s where
  rest := rfl
  pptr := rfl
  size := (grown_of_le h).symm
  before _ _ := rfl
  chars _ h := absurd h (Nat.not_lt_zero _)
  inside _ hw := .inl hw

theorem Wrote.trans (h : Wrote s text s') (h' : Wrote s' text' s'') :
    Wrote s (text ++ text') s'' where
  rest := by
    rw [h'.rest, h.rest]
  pptr := by rw [h'.pptr, h.pptr, List.length_append, Nat.add_assoc]
  size := by
    rw [h'.size, h.size, h.pptr, List.length_append, grown_grown (Nat.le_add_right _ _),
      Nat.add_assoc]
  before i hi := by
    rw [h'.before i (by rw [h.pptr]; omega), h.before i hi]
  chars i hi := by
    rw [List.length_append] at hi
    by_cases hlt : i < text.length
    · rw [h'.before _ (by rw [h.pptr]; omega), h.chars i hlt, List.getElem?_append_left hlt]
    · have hnext := h'.chars (i - text.length) (by omega)
      rw [h.pptr, Nat.add_assoc, Nat.add_sub_of_le (by omega)] at hnext
      rw [hnext, List.getElem?_append_right (by omega)]
  inside w hw := by
    rcases h'.inside w hw with hw | hlt
    · exact h.inside w hw
    · exact .inr hlt

/-- A text without one newline at its end. -/
def stripNewline (text : List Byte) : List Byte :=
  if text.getLast? = some newline then text.dropLast else text

/-- `s'` is `s` after the text at `p` has been ended: a string without its newline. -/
structure Ended (s : StreamBuf) (p : Nat) (text : List Byte) (s' : StreamBuf) : Prop where
  rest : s' = { s with buff := s'.buff, log := s'.log }
  before : ∀ i, i < p → s'.buff i = s.buff i
  chars : ∀ i, i < (stripNewline text).length → some (s'.buff (p + i)) = (stripNewline text)[i]?
  nul : s'.buff (p + (stripNewline text).length) = 0
  inside : ∀ w ∈ s'.log, w ∈ s.log ∨ w.1 < w.2

theorem Ended.pptr (h : Ended s p text s') : s'.pptr = s.pptr := by rw [h.rest]

theorem Ended.size (h : Ended s p text s') : s'.size = s.size := by rw [h.rest]

theorem Ended.valPos (h : Ended s p text s') : s'.valPos = s.valPos := by rw [h.rest]

theorem Ended.initHash (h : Ended s p text s') : s'.initHash = s.initHash := by rw [h.rest]

theorem Ended.isInitKey (h : Ended s p text s') : s'.isInitKey = s.isInitKey := by rw [h.rest]

theorem Ended.sent (h : Ended s p text s') : s'.sent = s.sent := by rw [h.rest]

theorem length_be64 (n : Nat) : (be64 n).length = 8 := by simp [be64]

/-- A buffer of a stream that has neither a hash nor a key of its own, with no text in it. -/
structure Ready (s : StreamBuf) : Prop where
  size : 0 < s.size
  pptr : s.pptr = 0
  valPos : s.valPos = none
  initHash : s.initHash = none
  isInitKey : s.isInitKey = false

variable {key value : List Byte} {pieces : List (List Byte)}

/-- A stream on a slave with a buffer of 16 bytes. -/
def sampleStream : StreamBuf where
  buff _ := 0
  size := 16
  pptr := 0
  valPos := none
  initHash := none
  isInitKey := false
  hasMsgid := false
  hasLastpkt := false
  sent := []
  log := []

end StreamBuf

end Stream
end Chm
