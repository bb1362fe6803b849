import Unbounded.Execution.Machine
import Unbounded.Signaling.Signaler

/-!
# The stream of advertisements

`AdvertisementStream::next` of `src/signaling.rs` as a machine. The response yields the body of the
stream in chunks, and a call of `next` waits for a chunk only when the buffer has no whole line. The
call keeps nothing of its own across that await, and it may be dropped there.

`frames` says what the stream means: the body split at each newline, without the blank segments,
each read as one message. `framing` says that the results of the calls are exactly that, for every
way in which the body is cut into chunks and calls are dropped and made again.
-/

namespace Unbounded.Signaling

open Execution (Next restrict)

/-- `u8::is_ascii_whitespace`. -/
def isAsciiWhitespace (byte : UInt8) : Bool :=
  byte == 32 || byte == 9 || byte == 10 || byte == 12 || byte == 13

/-- Where a call of `next` is. -/
inductive Call where
  /-- There is no call. -/
  | none
  /-- At the top of the loop. -/
  | looping
  /-- `self.response.chunk().await`. -/
  | awaiting
  deriving DecidableEq, Repr

/-- `AdvertisementStream`, with the chunks that the response has yet to yield and the call that is
being made. -/
structure AdvertisementStream where
  buffered : Bytes
  body : List Bytes
  call : Call

namespace AdvertisementStream

/-- A stream whose response has a body in chunks. -/
def new (chunks : List Bytes) : AdvertisementStream :=
  ⟨[], chunks, .none⟩

/-- What can happen to a stream. -/
inductive Op where
  /-- `next` is called. -/
  | next
  /-- The loop goes on from its top. -/
  | iterate
  /-- The response yields a chunk, or the end of the body. -/
  | chunk
  | chunkFailed (source : String)
  /-- The pending call is dropped. -/
  | dropCall
  deriving DecidableEq, Repr

/-- The bytes before the first newline, and those after it. -/
def takeLine (buffered : Bytes) : Option (Bytes × Bytes) :=
  (buffered.findIdx? (· == 10)).map fun newline ↦
    (buffered.take newline, buffered.drop (newline + 1))

/-- One message of the stream, where `parse` is `serde_json::from_slice`. -/
def message (parse : Bytes → Except String SignalMessage) (line : Bytes) : Reply :=
  match parse line with
  | .ok message => .ok (some message)
  | .error error => .error (.decode error)

/-- One step of a stream, with the result of a call that returns. -/
def next (parse : Bytes → Except String SignalMessage) :
    Next AdvertisementStream Op (Option Reply)
  | ⟨buffered, body, .none⟩, .next => some (none, ⟨buffered, body, .looping⟩)
  | ⟨buffered, body, .looping⟩, .iterate =>
      match takeLine buffered with
      | some (line, rest) =>
          if line.all isAsciiWhitespace then some (none, ⟨rest, body, .looping⟩)
          else some (some (message parse line), ⟨rest, body, .none⟩)
      | none => some (none, ⟨buffered, body, .awaiting⟩)
  | ⟨buffered, chunk :: body, .awaiting⟩, .chunk =>
      some (none, ⟨buffered ++ chunk, body, .looping⟩)
  | ⟨buffered, [], .awaiting⟩, .chunk =>
      -- the response keeps yielding the end of its body
      if buffered.all isAsciiWhitespace then some (some (.ok none), ⟨buffered, [], .none⟩)
      else some (some (message parse buffered), ⟨[], [], .none⟩)
  | ⟨buffered, body, .awaiting⟩, .chunkFailed source =>
      some (some (.error (.nativeTransport source)), ⟨buffered, body, .none⟩)
  | ⟨buffered, body, .awaiting⟩, .dropCall => some (none, ⟨buffered, body, .none⟩)
  | _, _ => none

/-- A log of a stream. -/
abbrev Log := Execution.Log Op (Option Reply)

/-- What the calls of a log returned, newest first. -/
def results (log : Log) : List Reply :=
  log.filterMap Prod.snd

/-- The response yields its whole body. -/
def delivers (_ : AdvertisementStream) : Op → Bool
  | .chunkFailed _ => false
  | _ => true

/-- The response yields its whole body, and a caller goes on with every call it has made. -/
def persists (_ : AdvertisementStream) : Op → Bool
  | .chunkFailed _ | .dropCall => false
  | _ => true

/-! ## What a stream means -/

/-- The results that a body of advertisements stands for. -/
def frames (parse : Bytes → Except String SignalMessage) (body : Bytes) : List Reply :=
  ((body.splitOn 10).filter fun segment ↦ !segment.all isAsciiWhitespace).map (message parse)

variable {parse : Bytes → Except String SignalMessage} {line rest buffered : Bytes}

/-- A line is split off at its newline. -/
theorem takeLine_eq_some (h : takeLine buffered = some (line, rest)) :
    buffered = line ++ 10 :: rest ∧ 10 ∉ line := by
  simp only [takeLine, Option.map_eq_some_iff, Prod.mk.injEq] at h
  obtain ⟨newline, hnewline, rfl, rfl⟩ := h
  obtain ⟨hlt, hbyte, hbefore⟩ := List.findIdx?_eq_some_iff_getElem.mp hnewline
  constructor
  · have hten : buffered[newline] = 10 := by simpa using hbyte
    rw [← hten, List.getElem_cons_drop, List.take_append_drop]
  · intro hmem
    obtain ⟨index, hindex, hten⟩ := List.mem_iff_getElem.mp hmem
    rw [List.length_take] at hindex
    refine hbefore index (by omega) ?_
    rw [List.getElem_take] at hten
    simp [hten]

/-- There is no line without a newline. -/
theorem takeLine_eq_none (h : takeLine buffered = none) : 10 ∉ buffered := by
  simp only [takeLine, Option.map_eq_none_iff, List.findIdx?_eq_none_iff, beq_eq_false_iff_ne] at h
  exact fun hmem ↦ h 10 hmem rfl

/-- A blank line means nothing. -/
theorem frames_blank (hline : 10 ∉ line) (hblank : line.all isAsciiWhitespace = true) :
    frames parse (line ++ 10 :: rest) = frames parse rest := by
  rw [frames, List.splitOn_append_cons_self_of_not_mem hline,
    List.filter_cons_of_neg (by simp [hblank])]
  rfl

/-- A line that is not blank is a message. -/
theorem frames_line (hline : 10 ∉ line) (hblank : line.all isAsciiWhitespace = false) :
    frames parse (line ++ 10 :: rest) = message parse line :: frames parse rest := by
  rw [frames, List.splitOn_append_cons_self_of_not_mem hline,
    List.filter_cons_of_pos (by simp [hblank])]
  rfl

/-- A blank rest means nothing. -/
theorem frames_blank_rest (hline : 10 ∉ line) (hblank : line.all isAsciiWhitespace = true) :
    frames parse line = [] := by
  simp [frames, List.splitOn_eq_singleton hline, hblank]

/-- A rest without a newline is a message. -/
theorem frames_rest (hline : 10 ∉ line) (hblank : line.all isAsciiWhitespace = false) :
    frames parse line = [message parse line] := by
  simp [frames, List.splitOn_eq_singleton hline, hblank]

/-! ## Steps -/

/-- The bytes that a stream has yet to return messages of. -/
def unread (stream : AdvertisementStream) : Bytes :=
  stream.buffered ++ stream.body.flatten

/-- A bound on the steps of calls that are not dropped. -/
def work (stream : AdvertisementStream) : Nat :=
  3 * (stream.unread.length + stream.body.length) +
    match stream.call with
    | .none => 2
    | .looping => 1
    | .awaiting => 0

/-- What a step makes of a stream: it goes on, or a call returns. -/
inductive Change (parse : Bytes → Except String SignalMessage) :
    AdvertisementStream → Op → Option Reply → AdvertisementStream → Prop where
  | call {buffered : Bytes} {body : List Bytes} :
      Change parse ⟨buffered, body, .none⟩ .next none ⟨buffered, body, .looping⟩
  | skip {line rest : Bytes} {body : List Bytes} (hline : 10 ∉ line)
      (hblank : line.all isAsciiWhitespace = true) :
      Change parse ⟨line ++ 10 :: rest, body, .looping⟩ .iterate none ⟨rest, body, .looping⟩
  | line {line rest : Bytes} {body : List Bytes} (hline : 10 ∉ line)
      (hblank : line.all isAsciiWhitespace = false) :
      Change parse ⟨line ++ 10 :: rest, body, .looping⟩ .iterate (some (message parse line))
        ⟨rest, body, .none⟩
  | wait {buffered : Bytes} {body : List Bytes} (hline : 10 ∉ buffered) :
      Change parse ⟨buffered, body, .looping⟩ .iterate none ⟨buffered, body, .awaiting⟩
  | chunk {buffered chunk : Bytes} {body : List Bytes} :
      Change parse ⟨buffered, chunk :: body, .awaiting⟩ .chunk none
        ⟨buffered ++ chunk, body, .looping⟩
  | finish {buffered : Bytes} (hblank : buffered.all isAsciiWhitespace = true) :
      Change parse ⟨buffered, [], .awaiting⟩ .chunk (some (.ok none)) ⟨buffered, [], .none⟩
  | last {buffered : Bytes} (hblank : buffered.all isAsciiWhitespace = false) :
      Change parse ⟨buffered, [], .awaiting⟩ .chunk (some (message parse buffered))
        ⟨[], [], .none⟩
  | chunkFailed {buffered : Bytes} {body : List Bytes} {source : String} :
      Change parse ⟨buffered, body, .awaiting⟩ (.chunkFailed source)
        (some (.error (.nativeTransport source))) ⟨buffered, body, .none⟩
  | dropCall {buffered : Bytes} {body : List Bytes} :
      Change parse ⟨buffered, body, .awaiting⟩ .dropCall none ⟨buffered, body, .none⟩

variable {stream following : AdvertisementStream} {op : Op} {out : Option Reply} {log : Log}

/-- Every step of a stream of advertisements is a `Change`. -/
theorem change_of_next (h : next parse stream op = some (out, following)) :
    Change parse stream op out following := by
  unfold next at h
  split at h
  case h_1 =>
    simp only [Option.some.injEq, Prod.mk.injEq] at h
    obtain ⟨rfl, rfl⟩ := h
    exact .call
  case h_2 buffered body =>
    split at h
    case h_1 line rest hline =>
      obtain ⟨rfl, hnot⟩ := takeLine_eq_some hline
      split at h
      case isTrue hblank =>
        simp only [Option.some.injEq, Prod.mk.injEq] at h
        obtain ⟨rfl, rfl⟩ := h
        exact .skip hnot hblank
      case isFalse hblank =>
        simp only [Option.some.injEq, Prod.mk.injEq] at h
        obtain ⟨rfl, rfl⟩ := h
        exact .line hnot (by simpa using hblank)
    case h_2 hline =>
      simp only [Option.some.injEq, Prod.mk.injEq] at h
      obtain ⟨rfl, rfl⟩ := h
      exact .wait (takeLine_eq_none hline)
  case h_3 =>
    simp only [Option.some.injEq, Prod.mk.injEq] at h
    obtain ⟨rfl, rfl⟩ := h
    exact .chunk
  case h_4 buffered =>
    split at h
    case isTrue hblank =>
      simp only [Option.some.injEq, Prod.mk.injEq] at h
      obtain ⟨rfl, rfl⟩ := h
      exact .finish hblank
    case isFalse hblank =>
      simp only [Option.some.injEq, Prod.mk.injEq] at h
      obtain ⟨rfl, rfl⟩ := h
      exact .last (by simpa using hblank)
  case h_5 =>
    simp only [Option.some.injEq, Prod.mk.injEq] at h
    obtain ⟨rfl, rfl⟩ := h
    exact .chunkFailed
  case h_6 =>
    simp only [Option.some.injEq, Prod.mk.injEq] at h
    obtain ⟨rfl, rfl⟩ := h
    exact .dropCall
  case h_7 => simp at h

/-! ## Runs -/

/-- The results of a log with one more step. -/
theorem results_cons : results ((op, out) :: log) = out.toList ++ results log := by
  cases out <;> rfl

/-- A stream against what its calls have returned: messages, and then the end of the stream as often
as it was asked for. -/
structure Framed (parse : Bytes → Except String SignalMessage) (whole : Bytes) (log : Log)
    (stream : AdvertisementStream) : Prop where
  waiting : stream.call = .awaiting → 10 ∉ stream.buffered
  results : ∃ items count, (results log).reverse = items ++ List.replicate count (.ok none) ∧
    items ++ frames parse stream.unread = frames parse whole ∧
    (0 < count → frames parse stream.unread = [])

/-- Every step of a stream that is delivered whole leaves the calls with the messages of the stream.
-/
theorem Framed.step {whole : Bytes} (h : Framed parse whole log stream)
    (hdelivers : delivers stream op = true) (hchange : Change parse stream op out following) :
    Framed parse whole ((op, out) :: log) following := by
  obtain ⟨hwaiting, items, count, hresults, hframes, hend⟩ := h
  -- a step that returns nothing and keeps the meaning of what is unread
  have hsilent : ∀ {following : AdvertisementStream},
      (following.call = .awaiting → 10 ∉ following.buffered) →
      frames parse following.unread = frames parse stream.unread →
      Framed parse whole ((op, none) :: log) following := by
    intro following hcall hsame
    refine ⟨hcall, items, count, hresults, ?_, ?_⟩
    · rw [hsame, hframes]
    · rw [hsame]
      exact hend
  -- a step that returns the next message
  have hmessage : ∀ {following : AdvertisementStream} {reply : Reply},
      following.call = .none →
      frames parse stream.unread = reply :: frames parse following.unread →
      Framed parse whole ((op, some reply) :: log) following := by
    intro following reply hcall hnext
    have hzero : count = 0 := by
      rcases Nat.eq_zero_or_pos count with hzero | hpos
      · exact hzero
      · rw [hend hpos] at hnext
        simp at hnext
    subst hzero
    refine ⟨by simp [hcall], items ++ [reply], 0, ?_, ?_, by simp⟩
    · rw [results_cons, List.reverse_append, hresults]
      simp
    · rw [List.append_assoc, List.singleton_append, ← hnext, hframes]
  cases hchange with
  | call => exact hsilent (by simp) rfl
  | skip hline hblank =>
      refine hsilent (by simp) ?_
      show frames parse (_ ++ _) = frames parse (_ ++ _)
      rw [List.append_assoc, List.cons_append, frames_blank hline hblank]
  | line hline hblank =>
      refine hmessage rfl ?_
      show frames parse (_ ++ _) = _ :: frames parse (_ ++ _)
      rw [List.append_assoc, List.cons_append, frames_line hline hblank]
  | wait hline => exact hsilent (fun _ ↦ hline) rfl
  | chunk =>
      refine hsilent (by simp) ?_
      simp [unread]
  | @finish buffered hblank =>
      have hempty : frames parse (unread ⟨buffered, [], .none⟩) = [] := by
        rw [unread, List.flatten_nil, List.append_nil]
        exact frames_blank_rest (hwaiting rfl) hblank
      refine ⟨by simp, items, count + 1, ?_, hframes, fun _ ↦ hempty⟩
      rw [results_cons, List.reverse_append, hresults, List.replicate_succ']
      simp
  | @last buffered hblank =>
      refine hmessage rfl ?_
      rw [unread, List.flatten_nil, List.append_nil, frames_rest (hwaiting rfl) hblank]
      rfl
  | chunkFailed => simp [delivers] at hdelivers
  | dropCall => exact hsilent (by simp) rfl

/-- The results of every run in which the stream is delivered whole. -/
theorem Exec.framed {chunks : List Bytes}
    (h : Execution.Exec (restrict delivers (next parse)) (.new chunks) log stream) :
    Framed parse chunks.flatten log stream := by
  induction h with
  | refl => exact ⟨by simp [new], [], 0, rfl, rfl, by simp⟩
  | snoc _ hnext ih =>
      obtain ⟨hdelivers, hstep⟩ := Execution.next_of_restrict hnext
      exact ih.step hdelivers (change_of_next hstep)

/-! ## The end of the stream -/

/-- A caller that persists always has a step, and it returns the end of the stream or leaves less
work. -/
theorem progress (parse : Bytes → Except String SignalMessage) (stream : AdvertisementStream) :
    ∃ op out following, restrict persists (next parse) stream op = some (out, following) ∧
      (out = some (.ok none) ∨ following.work < stream.work) := by
  obtain ⟨buffered, body, call⟩ := stream
  cases call with
  | none => exact ⟨.next, none, ⟨buffered, body, .looping⟩, rfl, .inr (by simp [work, unread])⟩
  | looping =>
      cases hline : takeLine buffered with
      | none =>
          refine ⟨.iterate, none, ⟨buffered, body, .awaiting⟩, ?_, .inr (by simp [work, unread])⟩
          simp [restrict, persists, next, hline]
      | some taken =>
          obtain ⟨line, rest⟩ := taken
          obtain ⟨rfl, _⟩ := takeLine_eq_some hline
          cases hblank : line.all isAsciiWhitespace with
          | true =>
              refine ⟨.iterate, none, ⟨rest, body, .looping⟩, ?_, .inr ?_⟩
              · simp only [restrict, persists, next, hline, hblank, if_true]
              · simp [work, unread]
                omega
          | false =>
              refine ⟨.iterate, some (message parse line), ⟨rest, body, .none⟩, ?_, .inr ?_⟩
              · simp only [restrict, persists, next, hline, hblank, if_true, Bool.false_eq_true,
                  if_false]
              · simp [work, unread]
                omega
  | awaiting =>
      cases body with
      | cons chunk body =>
          refine ⟨.chunk, none, ⟨buffered ++ chunk, body, .looping⟩, rfl, .inr ?_⟩
          simp [work, unread]
          omega
      | nil =>
          cases hblank : buffered.all isAsciiWhitespace with
          | true =>
              refine ⟨.chunk, some (.ok none), ⟨buffered, [], .none⟩, ?_, .inl rfl⟩
              simp only [restrict, persists, next, hblank, if_true]
          | false =>
              refine ⟨.chunk, some (message parse buffered), ⟨[], [], .none⟩, ?_, .inr ?_⟩
              · simp only [restrict, persists, next, hblank, if_true, Bool.false_eq_true, if_false]
              · have hlength : 0 < buffered.length := by
                  cases buffered with
                  | nil => simp at hblank
                  | cons byte rest => exact Nat.succ_pos _
                simp [work, unread]
                omega

/-- A caller that persists gets to the end of the stream, in a bounded number of steps. -/
theorem ends (parse : Bytes → Except String SignalMessage) (stream : AdvertisementStream) :
    ∃ later final, Execution.Exec (restrict persists (next parse)) stream later final ∧
      .ok none ∈ results later ∧ later.length ≤ stream.work + 1 := by
  induction hwork : stream.work using Nat.strongRecOn generalizing stream with
  | ind work ih =>
      obtain ⟨op, out, following, hnext, rfl | hless⟩ := progress parse stream
      · exact ⟨_, following, Execution.Exec.refl.snoc hnext, List.mem_singleton_self _, by simp⟩
      · rw [hwork] at hless
        obtain ⟨later, final, hlater, hend, hlength⟩ := ih following.work hless following rfl
        refine ⟨later ++ [(op, out)], final, (Execution.Exec.refl.snoc hnext).trans hlater, ?_, ?_⟩
        · rw [results, List.filterMap_append, List.mem_append]
          exact .inl hend
        · rw [List.length_append, List.length_singleton]
          omega

/-- For every body, every way of cutting it into chunks and every choice of pending calls that are
dropped: what the calls return is a prefix of the frames of the body, followed by the end of the
stream once all of them have been returned and as often as it is asked for. A caller that goes on
with its calls always gets there. -/
theorem framing {chunks : List Bytes}
    (h : Execution.Exec (restrict delivers (next parse)) (.new chunks) log stream) :
    (∃ items rest count, (results log).reverse = items ++ List.replicate count (.ok none) ∧
      items ++ rest = frames parse chunks.flatten ∧ (0 < count → rest = [])) ∧
    ∃ later final, Execution.Exec (restrict persists (next parse)) stream later final ∧
      .ok none ∈ results later ∧ later.length ≤ stream.work + 1 := by
  obtain ⟨_, items, count, hresults, hframes, hend⟩ := Exec.framed h
  exact ⟨⟨items, frames parse stream.unread, count, hresults, hframes, hend⟩, ends parse stream⟩

/-- A body of two messages in three chunks, where a call is dropped as it waits inside a line, and
the second message is not valid and has no newline. -/
theorem framing_of_dropped_call :
    ∃ log stream, Execution.Exec (restrict delivers
      (next fun line ↦ if line = [123, 125] then .ok ⟨"r", .genesis, ""⟩ else .error "invalid"))
        (.new [[123], [125, 10, 32, 10], [91]]) log stream ∧
      (results log).reverse =
        [.ok (some ⟨"r", .genesis, ""⟩), .error (.decode "invalid"), .ok none] ∧
      ∃ items rest count, (results log).reverse = items ++ List.replicate count (.ok none) ∧
        items ++ rest = frames (fun line ↦ if line = [123, 125] then .ok ⟨"r", .genesis, ""⟩
          else .error "invalid") [123, 125, 10, 32, 10, 91] ∧ (0 < count → rest = []) := by
  have hrun : Execution.run (restrict delivers
      (next fun line ↦ if line = [123, 125] then .ok ⟨"r", .genesis, ""⟩ else .error "invalid"))
      [.next, .iterate, .chunk, .iterate, .dropCall, .next, .iterate, .chunk, .iterate,
        .next, .iterate, .iterate, .dropCall, .next, .iterate, .chunk, .iterate, .chunk,
        .next, .iterate, .chunk] ([], .new [[123], [125, 10, 32, 10], [91]]) = some (_, _) := rfl
  have hexec := Execution.exec_of_run hrun
  exact ⟨_, _, hexec, rfl, (framing hexec).1⟩

end AdvertisementStream

end Unbounded.Signaling
