import Mathlib.Data.List.Basic

/-!
# Byte streams

The model of a stream of bytes that is read and written in order, with `read_exact` and `write_all`
of `tokio::io` on it. What arrives is a list of chunks: a read yields what the first of them has, up
to the room in its buffer, so that the chunks are the way in which the bytes are split across reads.
After the last chunk the stream stays open, ends or fails. A computation on a stream either produces
a value, fails, or still waits when everything that arrives has been read.

`advance_advance` and the rules for `>>=` at the end are what a proof about a computation on a
stream needs: a read either takes the bytes it asks for or runs into the end.
-/

namespace Unbounded.Tokio

/-- How a stream goes on after its last byte. -/
inductive Ending where
  /-- It stays open, and no further read becomes ready. -/
  | silent
  | eof
  | failed (source : String)
  deriving DecidableEq, Repr

/-- Why a computation on a stream has no value: it still waits, or it failed. -/
inductive Halt (ε : Type) where
  | waiting
  | failed (error : ε)
  deriving DecidableEq, Repr

/-- Convert the error. -/
def Halt.mapErr {ε ε' : Type} (convert : ε → ε') : Halt ε → Halt ε'
  | .waiting => .waiting
  | .failed error => .failed (convert error)

/-- What `read_exact` reports at the end of a stream. -/
def Ending.halt : Ending → Halt String
  | .silent => .waiting
  | .eof => .failed "early eof"
  | .failed source => .failed source

/-- A stream: what will arrive on it, and what was written to it. -/
structure Duplex where
  chunks : List (List UInt8)
  ending : Ending
  written : List UInt8
  /-- After how many further bytes writing fails, and with which error. -/
  writeFault : Option (Nat × String)
  deriving DecidableEq

namespace Duplex

/-- A stream on which every write succeeds. -/
def new (chunks : List (List UInt8)) (ending : Ending) : Duplex :=
  ⟨chunks, ending, [], none⟩

/-- The bytes that have not been read. -/
def unread (duplex : Duplex) : List UInt8 :=
  duplex.chunks.flatten

/-- Read from the chunks until the buffer is full or there is no chunk left: what the buffer then
holds, and the chunks left. -/
def takeChunks : Nat → List (List UInt8) → List UInt8 × List (List UInt8)
  | 0, chunks => ([], chunks)
  | _ + 1, [] => ([], [])
  | room + 1, chunk :: chunks =>
      if room + 1 < chunk.length then
        -- a read takes no more than the buffer has room for
        (chunk.take (room + 1), chunk.drop (room + 1) :: chunks)
      else
        let (bytes, rest) := takeChunks (room + 1 - chunk.length) chunks
        (chunk ++ bytes, rest)

/-- The stream after some bytes of it were read. -/
def advance (count : Nat) (duplex : Duplex) : Duplex :=
  { duplex with chunks := (takeChunks count duplex.chunks).2 }

/-- The stream after some bytes were written to it. -/
def write (bytes : List UInt8) (duplex : Duplex) : Duplex :=
  { duplex with written := duplex.written ++ bytes }

/-! ## What reading takes -/

/-- Reading takes the first bytes of what arrives, however they are split. -/
theorem takeChunks_bytes (count : Nat) (chunks : List (List UInt8)) :
    (takeChunks count chunks).1 = chunks.flatten.take count := by
  induction chunks generalizing count with
  | nil => cases count <;> rfl
  | cons chunk chunks ih =>
      cases count with
      | zero => rfl
      | succ room =>
          simp only [takeChunks, List.flatten_cons]
          split
          case isTrue hlt => rw [List.take_append_of_le_length (by omega)]
          case isFalse hge =>
            rw [List.take_append, List.take_of_length_le (by omega)]
            show chunk ++ (takeChunks (room + 1 - chunk.length) chunks).1 = _
            rw [ih]

/-- Reading leaves the other bytes. -/
theorem takeChunks_rest (count : Nat) (chunks : List (List UInt8)) :
    (takeChunks count chunks).2.flatten = chunks.flatten.drop count := by
  induction chunks generalizing count with
  | nil => cases count <;> rfl
  | cons chunk chunks ih =>
      cases count with
      | zero => rfl
      | succ room =>
          simp only [takeChunks, List.flatten_cons]
          split
          case isTrue hlt =>
            rw [List.drop_append_of_le_length (by omega)]
            rfl
          case isFalse hge =>
            rw [List.drop_append, List.drop_of_length_le (by omega), List.nil_append]
            exact ih _

/-- Reading twice leaves what reading once leaves. -/
theorem takeChunks_add (count more : Nat) (chunks : List (List UInt8)) :
    (takeChunks more (takeChunks count chunks).2).2 = (takeChunks (count + more) chunks).2 := by
  induction chunks generalizing count with
  | nil => cases count <;> cases more <;> rfl
  | cons chunk chunks ih =>
      cases count with
      | zero => rw [Nat.zero_add]; rfl
      | succ room =>
          rw [show room + 1 + more = room + more + 1 by omega]
          simp only [takeChunks]
          split
          case isTrue hlt =>
            -- the first read ends within the chunk
            cases more with
            | zero => rw [if_pos (by omega)]; rfl
            | succ more =>
                simp only [takeChunks, List.length_drop]
                split
                case isTrue hmore =>
                  rw [if_pos (by omega), List.drop_drop,
                    show room + 1 + (more + 1) = room + (more + 1) + 1 by omega]
                case isFalse hmore =>
                  rw [if_neg (by omega)]
                  show (takeChunks (more + 1 - (chunk.length - (room + 1))) chunks).2 = _
                  rw [show more + 1 - (chunk.length - (room + 1)) =
                    room + (more + 1) + 1 - chunk.length by omega]
          case isFalse hge =>
            rw [if_neg (by omega)]
            show (takeChunks more (takeChunks (room + 1 - chunk.length) chunks).2).2 = _
            rw [ih, show room + 1 - chunk.length + more = room + more + 1 - chunk.length by omega]

variable (count more : Nat) (bytes : List UInt8) (duplex : Duplex)

@[simp] theorem unread_new (chunks : List (List UInt8)) (ending : Ending) :
    (new chunks ending).unread = chunks.flatten := rfl

@[simp] theorem unread_advance : (duplex.advance count).unread = duplex.unread.drop count :=
  takeChunks_rest count duplex.chunks

@[simp] theorem ending_advance : (duplex.advance count).ending = duplex.ending := rfl

@[simp] theorem written_advance : (duplex.advance count).written = duplex.written := rfl

@[simp] theorem writeFault_advance : (duplex.advance count).writeFault = duplex.writeFault := rfl

@[simp] theorem unread_write : (duplex.write bytes).unread = duplex.unread := rfl

@[simp] theorem ending_write : (duplex.write bytes).ending = duplex.ending := rfl

@[simp] theorem written_write : (duplex.write bytes).written = duplex.written ++ bytes := rfl

@[simp] theorem writeFault_write : (duplex.write bytes).writeFault = duplex.writeFault := rfl

@[simp] theorem advance_zero : duplex.advance 0 = duplex := by
  unfold advance takeChunks
  rfl

/-- Two reads advance by what both take. -/
@[simp] theorem advance_advance :
    (duplex.advance count).advance more = duplex.advance (count + more) := by
  rw [advance, advance, takeChunks_add]
  rfl

/-- Two writes write what both write. -/
theorem write_write (more : List UInt8) :
    (duplex.write bytes).write more = duplex.write (bytes ++ more) := by
  simp only [write, List.append_assoc]

/-- Reading and writing do not disturb each other. -/
theorem write_advance : (duplex.advance count).write bytes = (duplex.write bytes).advance count :=
  rfl

end Duplex

/-! ## Computations -/

/-- A computation that reads and writes a stream. -/
structure Io (ε α : Type) where
  run : Duplex → Except (Halt ε) α × Duplex

namespace Io

variable {ε ε' α β : Type}

instance : Monad (Io ε) where
  pure value := ⟨fun duplex ↦ (.ok value, duplex)⟩
  bind computation following := ⟨fun duplex ↦
    match computation.run duplex with
    | (.ok value, after) => (following value).run after
    | (.error halt, after) => (.error halt, after)⟩

/-- Return an error. -/
def fail (error : ε) : Io ε α :=
  ⟨fun duplex ↦ (.error (.failed error), duplex)⟩

/-- Return a result that was computed without the stream. -/
def ofExcept : Except ε α → Io ε α
  | .ok value => pure value
  | .error error => fail error

/-- Convert the error. -/
def mapErr (convert : ε → ε') (computation : Io ε α) : Io ε' α :=
  ⟨fun duplex ↦
    match computation.run duplex with
    | (.ok value, after) => (.ok value, after)
    | (.error halt, after) => (.error (halt.mapErr convert), after)⟩

/-- `read_exact`: fill a buffer, or report the end of the stream. -/
def readExact (count : Nat) : Io String (Vector UInt8 count) :=
  ⟨fun duplex ↦
    let (bytes, rest) := Duplex.takeChunks count duplex.chunks
    (if h : bytes.length = count then .ok ⟨bytes.toArray, by simpa using h⟩
      else .error duplex.ending.halt, { duplex with chunks := rest })⟩

/-- `write_all`. -/
def writeAll (bytes : List UInt8) : Io String Unit :=
  ⟨fun duplex ↦
    match duplex.writeFault with
    | none => (.ok (), duplex.write bytes)
    | some (room, source) =>
        if bytes.length ≤ room then
          (.ok (), { duplex.write bytes with writeFault := some (room - bytes.length, source) })
        else
          (.error (.failed source),
            { duplex.write (bytes.take room) with writeFault := some (0, source) })⟩

/-! ## The rules -/

@[simp] theorem run_pure (value : α) (duplex : Duplex) :
    (pure value : Io ε α).run duplex = (.ok value, duplex) := rfl

@[simp] theorem run_fail (error : ε) (duplex : Duplex) :
    (fail error : Io ε α).run duplex = (.error (.failed error), duplex) := rfl

variable {computation : Io ε α} {following : α → Io ε β} {duplex after : Duplex}

/-- A computation goes on with the value of its first part. -/
theorem run_bind_of_ok {value : α} (h : computation.run duplex = (.ok value, after)) :
    (computation >>= following).run duplex = (following value).run after := by
  show (match computation.run duplex with
    | (.ok value, after) => (following value).run after
    | (.error halt, after) => (.error halt, after)) = _
  rw [h]

/-- A computation halts where its first part halts. -/
theorem run_bind_of_error {halt : Halt ε} (h : computation.run duplex = (.error halt, after)) :
    (computation >>= following).run duplex = (.error halt, after) := by
  show (match computation.run duplex with
    | (.ok value, after) => (following value).run after
    | (.error halt, after) => (.error halt, after)) = _
  rw [h]

/-- Three computations in a row can be grouped either way. -/
theorem run_bind_bind {γ : Type} {last : β → Io ε γ} :
    (computation >>= following >>= last).run duplex =
      (computation >>= fun value ↦ following value >>= last).run duplex := by
  match hfirst : computation.run duplex with
  | (.ok value, after) =>
      rw [run_bind_of_ok hfirst]
      match hsecond : (following value).run after with
      | (.ok _, _) =>
          rw [run_bind_of_ok hsecond, run_bind_of_ok ((run_bind_of_ok hfirst).trans hsecond)]
      | (.error _, _) =>
          rw [run_bind_of_error hsecond, run_bind_of_error ((run_bind_of_ok hfirst).trans hsecond)]
  | (.error halt, after) =>
      rw [run_bind_of_error hfirst, run_bind_of_error (run_bind_of_error hfirst)]

/-- The bytes that a full buffer holds. -/
def buffer (count : Nat) (bytes : List UInt8) (h : count ≤ bytes.length) : Vector UInt8 count :=
  ⟨(bytes.take count).toArray, by simpa using Nat.min_eq_left h⟩

@[simp] theorem getElem_buffer {count : Nat} {bytes : List UInt8} (h : count ≤ bytes.length)
    (index : Nat) (hindex : index < count) :
    (buffer count bytes h)[index] = bytes.getD index 0 := by
  have hbytes : index < bytes.length := Nat.lt_of_lt_of_le hindex h
  simp [buffer, Vector.getElem_mk, hbytes]

variable {count : Nat} {convert : String → ε}

/-- A read for which there are enough bytes fills its buffer with them. -/
theorem run_readExact_of_le (h : count ≤ duplex.unread.length) :
    ((readExact count).mapErr convert).run duplex =
      (.ok (buffer count duplex.unread h), duplex.advance count) := by
  have hbytes := Duplex.takeChunks_bytes count duplex.chunks
  have hlength : (Duplex.takeChunks count duplex.chunks).1.length = count := by
    rw [hbytes, List.length_take]
    exact Nat.min_eq_left h
  simp only [mapErr, readExact, dif_pos hlength, Duplex.advance, buffer]
  congr 4

/-- A read for which there are too few bytes takes them all and reports the end. -/
theorem run_readExact_of_lt (h : duplex.unread.length < count) :
    ((readExact count).mapErr convert).run duplex =
      (.error (duplex.ending.halt.mapErr convert), duplex.advance count) := by
  have hbytes := Duplex.takeChunks_bytes count duplex.chunks
  have hlength : (Duplex.takeChunks count duplex.chunks).1.length ≠ count := by
    rw [hbytes, List.length_take]
    show min count duplex.unread.length ≠ count
    omega
  simp only [mapErr, readExact, dif_neg hlength, Duplex.advance]

variable {reads : Nat}

/-- A later read for which there are enough bytes. -/
theorem run_readExact_at_of_le (h : reads + count ≤ duplex.unread.length) :
    ((readExact count).mapErr convert).run (duplex.advance reads) =
      (.ok (buffer count (duplex.unread.drop reads) (by rw [List.length_drop]; omega)),
        duplex.advance (reads + count)) := by
  have hread : count ≤ (duplex.advance reads).unread.length := by
    rw [Duplex.unread_advance, List.length_drop]
    omega
  rw [run_readExact_of_le hread, Duplex.advance_advance]
  simp only [Duplex.unread_advance]

/-- A later read for which there are too few bytes. -/
theorem run_readExact_at_of_lt (hcount : 0 < count) (h : duplex.unread.length < reads + count) :
    ((readExact count).mapErr convert).run (duplex.advance reads) =
      (.error (duplex.ending.halt.mapErr convert), duplex.advance (reads + count)) := by
  have hread : (duplex.advance reads).unread.length < count := by
    rw [Duplex.unread_advance, List.length_drop]
    omega
  rw [run_readExact_of_lt hread, Duplex.advance_advance, Duplex.ending_advance]

/-- A write on a stream whose writes succeed. -/
theorem run_writeAll_of_none {bytes : List UInt8} (h : duplex.writeFault = none) :
    ((writeAll bytes).mapErr convert).run duplex = (.ok (), duplex.write bytes) := by
  simp only [mapErr, writeAll, h]

end Io

end Unbounded.Tokio
