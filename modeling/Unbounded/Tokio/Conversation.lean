import Unbounded.Execution.Machine
import Unbounded.Tokio.Duplex

/-!
# Conversations on a byte stream

A future that talks over a stream waits at every read and write, goes on with as many bytes as the
stream takes or delivers, and may be dropped while it waits. `Script` is such a future as a tree of
its `read_exact`s and `write_all`s. It has two meanings: `Script.toIo` runs it in one go on a
stream that is known in advance, and `Conversation.next` runs it byte by byte as the stream becomes
ready.

`resume_of_exec` relates the two. Wherever a conversation stands, the script would have got there
on a stream that delivers what was read so far, and would go on from there. So a conversation that
is over has the result of the script (`run_of_finished`), and one that was dropped has written no
more than the script would (`writes_prefix`).
-/

namespace Unbounded.Tokio

open Execution (Exec Log Next)

variable {ε α : Type}

/-- Computations that run alike are the same. -/
theorem Io.ext {first second : Io ε α} (h : ∀ duplex, first.run duplex = second.run duplex) :
    first = second := by
  cases first
  cases second
  exact congrArg Io.mk (funext h)

/-- Computations in a row may be grouped either way. -/
theorem Io.bind_assoc {β γ : Type} (first : Io ε α) (second : α → Io ε β) (last : β → Io ε γ) :
    first >>= second >>= last = first >>= fun value ↦ second value >>= last :=
  Io.ext fun _ ↦ Io.run_bind_bind

/-- What follows a computation sees a stream only through it. -/
theorem Io.run_bind_congr {β : Type} {computation : Io ε α} {following : α → Io ε β}
    {first second : Duplex} (h : computation.run first = computation.run second) :
    (computation >>= following).run first = (computation >>= following).run second := by
  rcases hrun : computation.run second with ⟨halt | value, after⟩
  · rw [run_bind_of_error (h.trans hrun), run_bind_of_error hrun]
  · rw [run_bind_of_ok (h.trans hrun), run_bind_of_ok hrun]

/-- What a future on a stream does next. -/
inductive Script (ε α : Type) where
  | done (result : Except ε α)
  /-- `read_exact`. -/
  | read (count : Nat) (following : Vector UInt8 count → Script ε α)
  /-- `write_all`. -/
  | write (bytes : List UInt8) (following : Script ε α)

/-- Run a script in one go. The errors of the stream are converted. -/
def Script.toIo (convert : String → ε) : Script ε α → Io ε α
  | .done result => Io.ofExcept result
  | .read count following => do
      let buffer ← (Io.readExact count).mapErr convert
      (following buffer).toIo convert
  | .write bytes following => do
      (Io.writeAll bytes).mapErr convert
      following.toIo convert

/-- A script that branches runs as a computation that branches alike, in any context. -/
theorem Script.toIo_ite {β : Type} {convert : String → ε} {check : Prop} [Decidable check]
    {first second : Script ε α} {one other : Io ε β} (context : Io ε β → Io ε α)
    (hfirst : first.toIo convert = context one) (hsecond : second.toIo convert = context other) :
    (if check then first else second).toIo convert = context (if check then one else other) := by
  by_cases hcheck : check
  · rw [if_pos hcheck, if_pos hcheck, hfirst]
  · rw [if_neg hcheck, if_neg hcheck, hsecond]

/-- A future between two polls. -/
inductive Conversation (ε α : Type) where
  /-- In a `read_exact` whose buffer is not full. -/
  | reading (count : Nat) (following : Vector UInt8 count → Script ε α) (buffer : List UInt8)
      (room : buffer.length < count)
  /-- In a `write_all` with bytes left. -/
  | writing (bytes : List UInt8) (following : Script ε α) (left : bytes ≠ [])
  | finished (result : Except ε α)

/-- Run to the first place where the future waits for its stream. -/
def Script.start : Script ε α → Conversation ε α
  | .done result => .finished result
  | .read count following =>
      if h : count = 0 then (following ⟨#[], h.symm⟩).start
      else .reading count following [] (Nat.pos_of_ne_zero h)
  | .write bytes following =>
      if h : bytes = [] then following.start else .writing bytes following h

namespace Conversation

/-- What the stream does for the future that polls it. -/
inductive Input where
  /-- `poll_read` puts bytes into the buffer. -/
  | delivers (bytes : List UInt8)
  /-- `poll_read` puts nothing into the buffer. -/
  | ends
  /-- `poll_write` takes some bytes. -/
  | accepts (count : Nat)
  | fails (source : String)
  deriving DecidableEq

/-- What goes over the stream in a step. -/
inductive Transfer where
  | read (bytes : List UInt8)
  | wrote (bytes : List UInt8)
  | nothing
  deriving DecidableEq

/-- One step of a conversation. -/
def next (convert : String → ε) : Next (Conversation ε α) Input Transfer
  | .reading count following buffer _, .delivers bytes =>
      if bytes = [] then none
      else if hlt : (buffer ++ bytes).length < count then
        some (.read bytes, .reading count following (buffer ++ bytes) hlt)
      else if heq : (buffer ++ bytes).length = count then
        some (.read bytes, (following ⟨(buffer ++ bytes).toArray, by simpa using heq⟩).start)
      else none
  | .reading _ _ _ _, .ends => some (.nothing, .finished (.error (convert "early eof")))
  | .reading _ _ _ _, .fails source => some (.nothing, .finished (.error (convert source)))
  | .writing bytes following _, .accepts count =>
      if count = 0 then none
      else if hlt : count < bytes.length then
        some (.wrote (bytes.take count), .writing (bytes.drop count) following
          (by rw [ne_eq, List.drop_eq_nil_iff]; omega))
      else if count = bytes.length then some (.wrote bytes, following.start)
      else none
  | .writing _ _ _, .fails source => some (.nothing, .finished (.error (convert source)))
  | _, _ => none

/-- The bytes that a step reads, as a chunk. -/
def Transfer.chunk : Transfer → List (List UInt8)
  | .read bytes => [bytes]
  | .wrote _ | .nothing => []

/-- The bytes that a step writes. -/
def Transfer.bytes : Transfer → List UInt8
  | .wrote bytes => bytes
  | .read _ | .nothing => []

/-- What was read in some steps, newest first, in the chunks in which it was read. -/
def reads : List Transfer → List (List UInt8)
  | [] => []
  | transfer :: earlier => reads earlier ++ transfer.chunk

/-- What was written in some steps, newest first. -/
def writes : List Transfer → List UInt8
  | [] => []
  | transfer :: earlier => writes earlier ++ transfer.bytes

/-- A step in which the stream did not break. -/
def Input.intact : Input → Bool
  | .delivers _ | .accepts _ => true
  | .ends | .fails _ => false

/-! ## The two meanings -/

/-- What is left to do, in one go. -/
def resume (convert : String → ε) : Conversation ε α → Io ε α
  | .reading count following buffer _ => ⟨fun duplex ↦
      ((Script.read count following).toIo convert).run
        { duplex with chunks := buffer :: duplex.chunks }⟩
  | .writing bytes following _ => (Script.write bytes following).toIo convert
  | .finished result => Io.ofExcept result

section

variable {count : Nat} {first second : List UInt8} {chunks : List (List UInt8)}

/-- An empty chunk is not noticed by a read. -/
theorem takeChunks_nil (h : 0 < count) :
    Duplex.takeChunks count ([] :: chunks) = Duplex.takeChunks count chunks := by
  cases count with
  | zero => simp at h
  | succ room => simp [Duplex.takeChunks]

/-- A read does not notice where two chunks meet that it takes whole. -/
theorem takeChunks_append (hfirst : first.length < count)
    (h : (first ++ second).length ≤ count) :
    Duplex.takeChunks count (first :: second :: chunks) =
      Duplex.takeChunks count ((first ++ second) :: chunks) := by
  rw [List.length_append] at h
  obtain ⟨room, rfl⟩ : ∃ room, count = room + 1 := ⟨count - 1, by omega⟩
  obtain ⟨left, hleft⟩ : ∃ left, room + 1 - first.length = left + 1 :=
    ⟨room - first.length, by omega⟩
  have hrest : left + 1 - second.length = room + 1 - (first.length + second.length) := by omega
  simp only [Duplex.takeChunks, List.length_append]
  rw [if_neg (by omega), if_neg (by omega), hleft]
  simp only [Duplex.takeChunks]
  rw [if_neg (by omega), hrest, List.append_assoc]

/-- A read takes a chunk that fills its buffer. -/
theorem takeChunks_full (hpos : 0 < count) (h : first.length = count) :
    Duplex.takeChunks count (first :: chunks) = (first, chunks) := by
  obtain ⟨room, rfl⟩ : ∃ room, count = room + 1 := ⟨count - 1, by omega⟩
  simp only [Duplex.takeChunks]
  rw [if_neg (by omega), h, Nat.sub_self]
  simp [Duplex.takeChunks]

end

variable {convert : String → ε}

/-- A read that fills its buffer goes on with the bytes in it. -/
theorem run_read {count : Nat} {following : Vector UInt8 count → Script ε α} {duplex : Duplex}
    {bytes : List UInt8} {rest : List (List UInt8)}
    (htake : Duplex.takeChunks count duplex.chunks = (bytes, rest)) (h : bytes.length = count) :
    ((Script.read count following).toIo convert).run duplex =
      ((following ⟨bytes.toArray, by simpa using h⟩).toIo convert).run
        { duplex with chunks := rest } := by
  have hread : ((Io.readExact count).mapErr convert).run duplex =
      (.ok ⟨bytes.toArray, by simpa using h⟩, { duplex with chunks := rest }) := by
    simp only [Io.mapErr, Io.readExact, htake, dif_pos h]
  rw [Script.toIo, Io.run_bind_of_ok hread]

/-- A read does not look further than its buffer. -/
theorem run_read_congr {count : Nat} {following : Vector UInt8 count → Script ε α}
    {duplex : Duplex} {chunks other : List (List UInt8)}
    (h : Duplex.takeChunks count chunks = Duplex.takeChunks count other) :
    ((Script.read count following).toIo convert).run { duplex with chunks := chunks } =
      ((Script.read count following).toIo convert).run { duplex with chunks := other } := by
  have hread : ((Io.readExact count).mapErr convert).run { duplex with chunks := chunks } =
      ((Io.readExact count).mapErr convert).run { duplex with chunks := other } := by
    simp only [Io.mapErr, Io.readExact, h]
  rw [Script.toIo]
  exact Io.run_bind_congr hread

/-- A write on a stream whose writes succeed. -/
theorem run_write {bytes : List UInt8} {following : Script ε α} {duplex : Duplex}
    (h : duplex.writeFault = none) :
    ((Script.write bytes following).toIo convert).run duplex =
      (following.toIo convert).run (duplex.write bytes) := by
  rw [Script.toIo, Io.run_bind_of_ok (Io.run_writeAll_of_none h)]

variable {script : Script ε α} {conversation following : Conversation ε α} {duplex : Duplex}

/-- A future that is polled for the first time has everything left to do. -/
theorem resume_start (script : Script ε α) (h : duplex.writeFault = none) :
    (script.start.resume convert).run duplex = (script.toIo convert).run duplex := by
  induction script generalizing duplex with
  | done result => rfl
  | read count following ih =>
      by_cases hzero : count = 0
      · subst hzero
        rw [Script.start, dif_pos rfl, ih _ h]
        have htake : Duplex.takeChunks 0 duplex.chunks = ([], duplex.chunks) := by
          simp [Duplex.takeChunks]
        exact (run_read htake rfl).symm
      · rw [Script.start, dif_neg hzero]
        exact run_read_congr (takeChunks_nil (Nat.pos_of_ne_zero hzero))
  | write bytes following ih =>
      by_cases hempty : bytes = []
      · subst hempty
        rw [Script.start, dif_pos rfl, ih h, run_write h, Duplex.write, List.append_nil]
      · rw [Script.start, dif_neg hempty]
        rfl

/-- Everything a step can be. -/
inductive Change (convert : String → ε) :
    Conversation ε α → Input → Transfer → Conversation ε α → Prop where
  | fill {count following buffer room bytes} (hlt : (buffer ++ bytes).length < count) :
      Change convert (.reading count following buffer room) (.delivers bytes) (.read bytes)
        (.reading count following (buffer ++ bytes) hlt)
  | full {count following buffer room bytes} (heq : (buffer ++ bytes).length = count) :
      Change convert (.reading count following buffer room) (.delivers bytes) (.read bytes)
        (following ⟨(buffer ++ bytes).toArray, by simpa using heq⟩).start
  | accept {bytes following left count} (hlt : count < bytes.length)
      (hleft : bytes.drop count ≠ []) :
      Change convert (.writing bytes following left) (.accepts count) (.wrote (bytes.take count))
        (.writing (bytes.drop count) following hleft)
  | flush {bytes following left count} :
      Change convert (.writing bytes following left) (.accepts count) (.wrote bytes)
        following.start
  | broken {conversation input source} (hinput : input.intact = false) :
      Change convert conversation input .nothing (.finished (.error (convert source)))

/-- Every step of a conversation is a `Change`. -/
theorem change_of_next {input : Input} {transfer : Transfer}
    (h : next convert conversation input = some (transfer, following)) :
    Change convert conversation input transfer following := by
  unfold next at h
  split at h
  case h_1 =>
    split at h
    case isTrue => simp at h
    case isFalse =>
      split at h
      case isTrue hlt =>
        simp only [Option.some.injEq, Prod.mk.injEq] at h
        obtain ⟨rfl, rfl⟩ := h
        exact .fill hlt
      case isFalse =>
        split at h
        case isFalse => simp at h
        case isTrue heq =>
          simp only [Option.some.injEq, Prod.mk.injEq] at h
          obtain ⟨rfl, rfl⟩ := h
          exact .full heq
  case h_4 =>
    split at h
    case isTrue => simp at h
    case isFalse =>
      split at h
      case isTrue hlt =>
        simp only [Option.some.injEq, Prod.mk.injEq] at h
        obtain ⟨rfl, rfl⟩ := h
        exact .accept hlt _
      case isFalse =>
        split at h
        case isFalse => simp at h
        case isTrue =>
          simp only [Option.some.injEq, Prod.mk.injEq] at h
          obtain ⟨rfl, rfl⟩ := h
          exact .flush
  case h_6 => simp at h
  all_goals
    simp only [Option.some.injEq, Prod.mk.injEq] at h
    obtain ⟨rfl, rfl⟩ := h
    exact .broken rfl

/-- A step reads a chunk from the front of the stream or appends to what was written, and the rest
of the future goes on from there. -/
theorem Change.resume {input : Input} {transfer : Transfer}
    (h : Change convert conversation input transfer following) (hintact : input.intact = true)
    (rest : List (List UInt8)) (ending : Ending) (written : List UInt8) :
    (conversation.resume convert).run ⟨transfer.chunk ++ rest, ending, written, none⟩ =
      (following.resume convert).run ⟨rest, ending, written ++ transfer.bytes, none⟩ := by
  cases h with
  | @fill count script buffer room bytes hlt =>
      have hsame : ((Script.read count script).toIo convert).run
          { (⟨[], ending, written, none⟩ : Duplex) with chunks := buffer :: bytes :: rest } = _ :=
        run_read_congr (takeChunks_append room (Nat.le_of_lt hlt))
      rw [Transfer.bytes, List.append_nil]
      exact hsame
  | @full count script buffer room bytes heq =>
      have htake : Duplex.takeChunks count (buffer :: bytes :: rest) = (buffer ++ bytes, rest) := by
        rw [takeChunks_append room (Nat.le_of_eq heq)]
        exact takeChunks_full (by omega) heq
      have hread : ((Script.read count script).toIo convert).run
          ⟨buffer :: bytes :: rest, ending, written, none⟩ = _ := run_read htake heq
      rw [Transfer.bytes, List.append_nil, resume_start _ rfl]
      exact hread
  | accept =>
      simp only [Conversation.resume, Transfer.bytes, Transfer.chunk, List.nil_append]
      rw [run_write rfl, run_write rfl, Duplex.write, Duplex.write]
      simp only [List.append_assoc, List.take_append_drop]
  | flush =>
      rw [resume_start _ rfl]
      exact run_write rfl
  | broken hinput => simp [hinput] at hintact

/-! ## Whole conversations -/

variable {log : Log Input Transfer}

/-- What goes over the stream in a run, newest first. -/
def transfers (log : Log Input Transfer) : List Transfer :=
  log.map Prod.snd

/-- Wherever a conversation stands on a stream that did not break, the script gets there on a
stream that delivers what was read, and goes on from there. -/
theorem resume_of_exec (h : Exec (next convert) script.start log conversation)
    (hintact : ∀ entry ∈ log, entry.1.intact = true) (rest : List (List UInt8))
    (ending : Ending) :
    (script.toIo convert).run ⟨reads (transfers log) ++ rest, ending, [], none⟩ =
      (conversation.resume convert).run ⟨rest, ending, writes (transfers log), none⟩ := by
  induction h generalizing rest with
  | refl => exact (resume_start script rfl).symm
  | @snoc log conversation following input transfer _ hnext ih =>
      have hearlier := fun entry hentry ↦ hintact entry (List.mem_cons_of_mem _ hentry)
      have hstep := (change_of_next hnext).resume (hintact _ List.mem_cons_self) rest ending
        (writes (transfers log))
      have hreads : reads (transfers ((input, transfer) :: log)) ++ rest =
          reads (transfers log) ++ (transfer.chunk ++ rest) := by
        simp [transfers, reads]
      rw [hreads, ih hearlier, hstep]
      rfl

/-- A stream that breaks ends the conversation. -/
theorem intact_of_exec (h : Exec (next convert) script.start log conversation) :
    (∀ entry ∈ log, entry.1.intact = true) ∨
      ∃ input earlier previous source, log = (input, .nothing) :: earlier ∧
        Exec (next convert) script.start earlier previous ∧
        (∀ entry ∈ earlier, entry.1.intact = true) ∧
        conversation = .finished (.error (convert source)) := by
  induction h with
  | refl => exact .inl (by simp)
  | @snoc log previous following input transfer hexec hnext ih =>
      rcases ih with hintact | ⟨_, _, _, _, _, _, _, rfl⟩
      · cases hinput : input.intact with
        | true =>
            refine .inl fun entry hentry ↦ ?_
            rcases List.mem_cons.mp hentry with rfl | hold
            · exact hinput
            · exact hintact entry hold
        | false =>
            cases change_of_next hnext with
            | broken => exact .inr ⟨_, _, _, _, rfl, hexec, hintact, rfl⟩
            | _ => simp [Input.intact] at hinput
      · simp [next] at hnext

/-- A conversation that is over on a stream that did not break has the result of the script on what
was read, whatever comes after that. -/
theorem run_of_finished {result : Except ε α}
    (h : Exec (next convert) script.start log (.finished result))
    (hintact : ∀ entry ∈ log, entry.1.intact = true) (rest : List (List UInt8))
    (ending : Ending) :
    (script.toIo convert).run ⟨reads (transfers log) ++ rest, ending, [], none⟩ =
      ((Io.ofExcept result).run ⟨rest, ending, writes (transfers log), none⟩) :=
  resume_of_exec h hintact rest ending

/-- A script only appends to what was written. -/
theorem written_prefix_toIo (script : Script ε α) (h : duplex.writeFault = none) :
    duplex.written <+: ((script.toIo convert).run duplex).2.written := by
  induction script generalizing duplex with
  | done result => cases result <;> exact List.prefix_rfl
  | read count following ih =>
      match htake : Duplex.takeChunks count duplex.chunks with
      | (bytes, rest) =>
          by_cases hlength : bytes.length = count
          · rw [run_read htake hlength]
            have hrest : ({ duplex with chunks := rest } : Duplex).writeFault = none := h
            exact ih _ hrest
          · have hread : ((Io.readExact count).mapErr convert).run duplex =
                (.error (duplex.ending.halt.mapErr convert), { duplex with chunks := rest }) := by
              simp only [Io.mapErr, Io.readExact, htake, dif_neg hlength]
            have hrun : ((Script.read count following).toIo convert).run duplex =
                (_, { duplex with chunks := rest }) := Io.run_bind_of_error hread
            exact hrun ▸ List.prefix_rfl
  | write bytes following ih =>
      rw [run_write h]
      have hwritten : (duplex.write bytes).writeFault = none := h
      exact (List.prefix_append _ _).trans (ih hwritten)

/-- What is left to do only appends to what was written. -/
theorem written_prefix_resume (conversation : Conversation ε α) (duplex : Duplex)
    (h : duplex.writeFault = none) :
    duplex.written <+: ((conversation.resume convert).run duplex).2.written := by
  cases conversation with
  | reading count following buffer room =>
      have hbuffered : ({ duplex with chunks := buffer :: duplex.chunks } : Duplex).writeFault =
        none := h
      exact written_prefix_toIo (.read count following) hbuffered
  | writing => exact written_prefix_toIo _ h
  | finished result => cases result <;> exact List.prefix_rfl

/-- Wherever a conversation stands, it has written no more than the script would on a stream that
delivers what was read, and anything after that. -/
theorem writes_prefix (h : Exec (next convert) script.start log conversation)
    (rest : List (List UInt8)) (ending : Ending) :
    writes (transfers log) <+:
      ((script.toIo convert).run ⟨reads (transfers log) ++ rest, ending, [], none⟩).2.written := by
  rcases intact_of_exec h with hall | ⟨input, earlier, _, _, rfl, hearlier, hall, _⟩
  · rw [resume_of_exec h hall]
    exact written_prefix_resume conversation ⟨rest, ending, _, none⟩ rfl
  · -- the step that breaks the stream transfers nothing
    have hsame : writes (transfers ((input, .nothing) :: earlier)) = writes (transfers earlier) ∧
        reads (transfers ((input, .nothing) :: earlier)) = reads (transfers earlier) := by
      simp [transfers, writes, reads, Transfer.bytes, Transfer.chunk]
    rw [hsame.1, hsame.2, resume_of_exec hearlier hall]
    exact written_prefix_resume _ ⟨rest, ending, _, none⟩ rfl

end Conversation

end Unbounded.Tokio
