import Unbounded.Consumer.SelectGenesis
import Unbounded.Signaling.Http

/-!
# Discovering a peer proxy over HTTP

`select_genesis` on top of the stream that `FreddieClient::advertisements` opens. A poll of the
function polls the pending call of the stream, which goes on inside the poll until it needs a chunk
or returns. What the call returns is what the function goes on with.

The output of a step says which steps the two parts took, so that each part has its own execution
(`Exec.parts`). `discovery` composes what is known of the two and of the bytes: the function chooses
among the Genesis messages that the server wrote, and finds none only if there is none.
-/

namespace Unbounded.Consumer

open Execution (Next restrict)
open Signaling (AdvertisementStream Reply SignalingError)

/-- The function and its stream. -/
structure Discovery where
  control : SelectGenesis.Control
  stream : Option AdvertisementStream

namespace Discovery

/-- The steps of the two. -/
inductive Op where
  /-- A poll of the function in which the stream has nothing for it, or the choice. -/
  | select (op : SelectGenesis.Op)
  /-- The stream is opened, or is not. -/
  | subscribe
  /-- The pending call of the stream goes on, inside a poll of the function. -/
  | drive (op : AdvertisementStream.Op)
  /-- The pending call returns. -/
  | deliver (op : AdvertisementStream.Op)
  deriving DecidableEq

/-- What the two parts did in a step. -/
structure Output where
  select : Option (SelectGenesis.Op × SelectGenesis.Branch)
  stream : Option (AdvertisementStream.Op × Option Reply)

/-- A poll that gets nothing from the stream. -/
def empty : SelectGenesis.Op → Bool
  | .pollSubscribe _ (.ready _) | .pollFirst _ (.ready _) | .pollMore _ _ (.ready _) => false
  | _ => true

/-- The poll in which the function gets a result of the stream. The cancellation and the timer are
looked at first. -/
def receive : SelectGenesis.Control → Reply → SelectGenesis.Op
  | .collecting _, reply => .pollMore false false (.ready reply)
  | _, reply => .pollFirst false (.ready reply)

/-- One step, where `subscription` is what `FreddieClient::advertisements` returns. -/
def next (parse : Bytes → Except String SignalMessage)
    (subscription : Except SignalingError AdvertisementStream) : Next Discovery Op Output
  | ⟨control, stream⟩, .select op =>
      if empty op then
        (SelectGenesis.next control op).map fun (branch, control) ↦
          (⟨some (op, branch), none⟩, ⟨control, stream⟩)
      else none
  | ⟨control, none⟩, .subscribe =>
      let op := .pollSubscribe false (.ready (subscription.map fun _ ↦ ()))
      (SelectGenesis.next control op).map fun (branch, control) ↦
        (⟨some (op, branch), none⟩, ⟨control, subscription.toOption⟩)
  | ⟨control, some stream⟩, .drive op =>
      match AdvertisementStream.next parse stream op with
      | some (none, stream) => some (⟨none, some (op, none)⟩, ⟨control, some stream⟩)
      | _ => none
  | ⟨control, some stream⟩, .deliver op =>
      match AdvertisementStream.next parse stream op with
      | some (some reply, stream) =>
          (SelectGenesis.next control (receive control reply)).map fun (branch, following) ↦
            (⟨some (receive control reply, branch), some (op, some reply)⟩,
              ⟨following, some stream⟩)
      | _ => none
  | _, _ => none

/-- A log of the two. -/
abbrev Log := Execution.Log Op Output

/-- The steps of the function. -/
def selectLog (log : Log) : SelectGenesis.Log :=
  log.filterMap fun entry ↦ entry.2.select

/-- The steps of the stream. -/
def streamLog (log : Log) : AdvertisementStream.Log :=
  log.filterMap fun entry ↦ entry.2.stream

/-- The result of the stream that a branch is taken for. -/
def replyOf : SelectGenesis.Branch → Option Reply
  | .advertised reply => some reply
  | _ => none

/-- What the stream delivered to the function, newest first. -/
def delivered (log : SelectGenesis.Log) : List Reply :=
  log.filterMap fun entry ↦ replyOf entry.2

/-- The response yields its whole body. -/
def delivers (_ : Discovery) : Op → Bool
  | .drive op | .deliver op => AdvertisementStream.delivers (.new []) op
  | _ => true

variable {parse : Bytes → Except String SignalMessage}
  {subscription : Except SignalingError AdvertisementStream} {system following : Discovery}
  {op : Op} {out : Output} {log : Log}

/-! ## The executions of the parts -/

/-- A branch that a poll takes because of the stream. -/
def fromStream : SelectGenesis.Branch → Bool
  | .subscribed _ | .advertised _ => true
  | _ => false

/-- What a step makes of the two parts: the function takes a step, the stream does, or both do. -/
inductive Change (parse : Bytes → Except String SignalMessage)
    (subscription : Except SignalingError AdvertisementStream) :
    Discovery → Op → Output → Discovery → Prop where
  | select {control after : SelectGenesis.Control} {stream : Option AdvertisementStream}
      {op : SelectGenesis.Op} {branch : SelectGenesis.Branch}
      (hnext : SelectGenesis.next control op = some (branch, after))
      (hbranch : fromStream branch = false) :
      Change parse subscription ⟨control, stream⟩ (.select op) ⟨some (op, branch), none⟩
        ⟨after, stream⟩
  | subscribe {control after : SelectGenesis.Control} {op : SelectGenesis.Op}
      (hnext : SelectGenesis.next control op =
        some (.subscribed (subscription.map fun _ ↦ ()), after)) :
      Change parse subscription ⟨control, none⟩ .subscribe
        ⟨some (op, .subscribed (subscription.map fun _ ↦ ())), none⟩
        ⟨after, subscription.toOption⟩
  | drive {control : SelectGenesis.Control} {stream after : AdvertisementStream}
      {op : AdvertisementStream.Op}
      (hnext : AdvertisementStream.next parse stream op = some (none, after)) :
      Change parse subscription ⟨control, some stream⟩ (.drive op) ⟨none, some (op, none)⟩
        ⟨control, some after⟩
  | deliver {control after : SelectGenesis.Control} {stream rest : AdvertisementStream}
      {op : AdvertisementStream.Op} {poll : SelectGenesis.Op} {reply : Reply}
      (hstream : AdvertisementStream.next parse stream op = some (some reply, rest))
      (hselect : SelectGenesis.next control poll = some (.advertised reply, after)) :
      Change parse subscription ⟨control, some stream⟩ (.deliver op)
        ⟨some (poll, .advertised reply), some (op, some reply)⟩ ⟨after, some rest⟩

/-- A poll that gets nothing from the stream takes no branch because of it. -/
theorem not_fromStream {control after : SelectGenesis.Control} {poll : SelectGenesis.Op}
    {branch : SelectGenesis.Branch} (hempty : empty poll = true)
    (h : SelectGenesis.next control poll = some (branch, after)) : fromStream branch = false := by
  simp only [SelectGenesis.next, Option.map_eq_some_iff, Prod.mk.injEq] at h
  obtain ⟨taken, hbranch, rfl, -⟩ := h
  unfold SelectGenesis.branch at hbranch
  split at hbranch <;> simp only [Option.some.injEq, reduceCtorEq] at hbranch <;> subst hbranch
  case h_1 cancelled opened =>
    cases cancelled <;> cases opened <;> first | rfl | cases hempty
  case h_2 cancelled message =>
    cases cancelled <;> cases message <;> first | rfl | cases hempty
  case h_3 candidates cancelled elapsed message =>
    cases cancelled <;> cases elapsed <;> cases message <;> first | rfl | cases hempty
  case h_4 => rfl

/-- A step of the function adds what the stream delivered in it. -/
theorem delivered_cons (poll : SelectGenesis.Op) (branch : SelectGenesis.Branch)
    (log : SelectGenesis.Log) :
    delivered ((poll, branch) :: log) = (replyOf branch).toList ++ delivered log := by
  cases h : replyOf branch <;> simp [delivered, h]

/-- A branch that is not taken because of the stream delivers nothing. -/
theorem replyOf_eq_none {branch : SelectGenesis.Branch} (h : fromStream branch = false) :
    replyOf branch = none := by
  cases branch with
  | advertised reply => cases h
  | _ => rfl

/-- A function that gets a result of the stream goes on with it. -/
theorem advertised_of_receive {control after : SelectGenesis.Control} {reply : Reply}
    {branch : SelectGenesis.Branch}
    (h : SelectGenesis.next control (receive control reply) = some (branch, after)) :
    branch = .advertised reply := by
  simp only [SelectGenesis.next, Option.map_eq_some_iff, Prod.mk.injEq] at h
  obtain ⟨taken, hbranch, rfl, -⟩ := h
  cases control <;> first | cases hbranch; rfl | cases hbranch

/-- Every step of the function, its stream and the server is a `Change`. -/
theorem change_of_next (h : next parse subscription system op = some (out, following)) :
    Change parse subscription system op out following := by
  unfold next at h
  split at h
  case h_1 control stream op =>
    split at h
    case isTrue hempty =>
      simp only [Option.map_eq_some_iff, Prod.mk.injEq] at h
      obtain ⟨⟨branch, after⟩, hnext, rfl, rfl⟩ := h
      exact .select hnext (not_fromStream hempty hnext)
    case isFalse => cases h
  case h_2 control =>
    simp only [Option.map_eq_some_iff, Prod.mk.injEq] at h
    obtain ⟨⟨branch, after⟩, hnext, rfl, rfl⟩ := h
    have hbranch : branch = .subscribed (subscription.map fun _ ↦ ()) := by
      simp only [SelectGenesis.next, Option.map_eq_some_iff, Prod.mk.injEq] at hnext
      obtain ⟨taken, hbranch, rfl, -⟩ := hnext
      cases control <;> first | cases hbranch; rfl | cases hbranch
    subst hbranch
    exact .subscribe hnext
  case h_3 control stream op =>
    split at h
    case h_1 after hnext =>
      cases h
      exact .drive hnext
    case h_2 => cases h
  case h_4 control stream op =>
    split at h
    case h_1 reply rest hstream =>
      simp only [Option.map_eq_some_iff, Prod.mk.injEq] at h
      obtain ⟨⟨branch, after⟩, hnext, rfl, rfl⟩ := h
      obtain rfl := advertised_of_receive hnext
      exact .deliver hstream hnext
    case h_2 => cases h
  case h_5 => cases h

/-- What the parts have done: the function is where its own steps lead, the stream is where its own
steps lead from the one that was opened, and what the one delivered is what the other returned. -/
structure Parts (parse : Bytes → Except String SignalMessage)
    (subscription : Except SignalingError AdvertisementStream) (log : Log) (system : Discovery) :
    Prop where
  selects : SelectGenesis.Exec (selectLog log) system.control
  subscribed : ∀ result, .subscribed result ∈ SelectGenesis.branches (selectLog log) →
    result = subscription.map fun _ ↦ ()
  closed : system.stream = none → streamLog log = []
  streams : ∀ stream, system.stream = some stream → ∃ opened, subscription = .ok opened ∧
    Execution.Exec (restrict AdvertisementStream.delivers (AdvertisementStream.next parse))
      opened (streamLog log) stream
  agree : delivered (selectLog log) = AdvertisementStream.results (streamLog log)

/-- Every step keeps the executions of the parts. -/
theorem Parts.step (h : Parts parse subscription log system)
    (hdelivers : delivers system op = true)
    (hchange : Change parse subscription system op out following) :
    Parts parse subscription ((op, out) :: log) following := by
  obtain ⟨hselects, hsubscribed, hclosed, hstreams, hdelivered⟩ := h
  cases hchange with
  | select hnext hbranch =>
      refine ⟨hselects.snoc hnext, ?_, hclosed, hstreams, ?_⟩
      · intro result hmem
        rcases List.mem_cons.mp hmem with rfl | hbefore
        · cases hbranch
        · exact hsubscribed result hbefore
      · show delivered ((_, _) :: selectLog log) = _
        rw [delivered_cons, replyOf_eq_none hbranch]
        exact hdelivered
  | subscribe hnext =>
      refine ⟨hselects.snoc hnext, ?_, fun _ ↦ hclosed rfl, ?_, hdelivered⟩
      · intro result hmem
        rcases List.mem_cons.mp hmem with heq | hbefore
        · exact SelectGenesis.Branch.subscribed.inj heq
        · exact hsubscribed result hbefore
      · intro stream hstream
        have hlog : streamLog log = [] := hclosed rfl
        cases subscription with
        | error => cases hstream
        | ok opened =>
            cases hstream
            refine ⟨_, rfl, ?_⟩
            show Execution.Exec _ _ (streamLog log) _
            rw [hlog]
            exact .refl
  | drive hnext =>
      refine ⟨hselects, hsubscribed, nofun, ?_, hdelivered⟩
      rintro _ ⟨⟩
      obtain ⟨opened, hopened, hexec⟩ := hstreams _ rfl
      exact ⟨opened, hopened, hexec.snoc ((if_pos hdelivers).trans hnext)⟩
  | deliver hstream hselect =>
      refine ⟨hselects.snoc hselect, ?_, nofun, ?_, ?_⟩
      · intro result hmem
        rcases List.mem_cons.mp hmem with heq | hbefore
        · cases heq
        · exact hsubscribed result hbefore
      · rintro _ ⟨⟩
        obtain ⟨opened, hopened, hexec⟩ := hstreams _ rfl
        exact ⟨opened, hopened, hexec.snoc ((if_pos hdelivers).trans hstream)⟩
      · exact congrArg (_ :: ·) hdelivered

/-- The parts of every run in which the stream is delivered whole. -/
theorem Exec.parts (h : Execution.Exec (restrict delivers (next parse subscription))
    ⟨.subscribing, none⟩ log system) : Parts parse subscription log system := by
  induction h with
  | refl => exact ⟨.refl, nofun, fun _ ↦ rfl, nofun, rfl⟩
  | snoc _ hnext ih =>
      obtain ⟨hdelivers, hstep⟩ := Execution.next_of_restrict hnext
      exact ih.step hdelivers (change_of_next hstep)

/-! ## From the bytes to the choice -/

/-- The Genesis that a result of the stream is. -/
def genesisOf : Reply → Option SignalMessage
  | .ok (some message) => if message.kind = .genesis then some message else none
  | _ => none

/-- The result of the stream that a message is. -/
def found (message : SignalMessage) : Reply :=
  .ok (some message)

/-- A step of the function adds the Genesis that it got, if it got one. -/
theorem genesis_cons (poll : SelectGenesis.Op) (branch : SelectGenesis.Branch)
    (log : SelectGenesis.Log) : SelectGenesis.genesis ((poll, branch) :: log) =
      SelectGenesis.genesis log ++ ((replyOf branch).bind genesisOf).toList := by
  cases branch with
  | advertised reply =>
      rcases reply with error | _ | message
      · simp [SelectGenesis.genesis, replyOf, genesisOf]
      · simp [SelectGenesis.genesis, replyOf, genesisOf]
      · by_cases hkind : message.kind = .genesis <;>
          simp [SelectGenesis.genesis, replyOf, genesisOf, hkind]
  | _ => simp [SelectGenesis.genesis, replyOf]

/-- The Genesis messages that the function got are those that the stream delivered. -/
theorem genesis_eq_delivered (log : SelectGenesis.Log) :
    SelectGenesis.genesis log = (delivered log).reverse.filterMap genesisOf := by
  induction log with
  | nil => rfl
  | cons entry log ih =>
      obtain ⟨poll, branch⟩ := entry
      rw [genesis_cons, ih, delivered_cons, List.reverse_append, List.filterMap_append]
      congr 1
      cases replyOf branch with
      | none => rfl
      | some reply => cases hgenesis : genesisOf reply <;> simp [hgenesis]

/-- Of the results that messages stand for, the Genesis messages are kept. -/
theorem filterMap_genesisOf (messages : List SignalMessage) (count : Nat) :
    (messages.map found ++ List.replicate count (.ok none : Reply)).filterMap genesisOf =
        messages.filter fun message ↦ message.kind = .genesis := by
  have hnone : (List.replicate count (.ok none : Reply)).filterMap genesisOf = [] := by
    rw [List.filterMap_eq_nil_iff]
    intro reply hreply
    rw [List.eq_of_mem_replicate hreply]
    rfl
  rw [List.filterMap_append, hnone, List.append_nil, List.filterMap_map]
  induction messages with
  | nil => rfl
  | cons message messages ih =>
      by_cases hkind : message.kind = .genesis <;> simp [found, genesisOf, hkind, ih]

open Signaling (FreddieClient Request Response advertised)
open Wire (decodeSignal)

variable {quote : Bytes → Bytes} {entries : List (Option SignalMessage)} {chunks : List Bytes}

/-- How far the function has read what a server wrote: it got messages from the front of it, and
then the end of the stream. -/
theorem Parts.read (h : Parts decodeSignal (.ok (.new chunks)) log system)
    (hquote : Json.Inverted quote) (hline : Json.OneLine quote)
    (hchunks : chunks.flatten = advertised quote entries) :
    ∃ read unread count, read ++ unread = entries.reduceOption ∧
      (delivered (selectLog log)).reverse = read.map found ++ List.replicate count (.ok none) ∧
      (0 < count → unread = []) := by
  cases hstream : system.stream with
  | none =>
      refine ⟨[], entries.reduceOption, 0, rfl, ?_, nofun⟩
      rw [h.agree, h.closed hstream]
      rfl
  | some stream =>
      obtain ⟨_, ⟨⟩, hexec⟩ := h.streams stream hstream
      obtain ⟨_, items, count, hresults, hframes, hend⟩ := AdvertisementStream.Exec.framed hexec
      rw [hchunks, Signaling.frames_advertised hquote hline] at hframes
      obtain ⟨read, unread, hread, rfl, hunread⟩ := List.map_eq_append_iff.mp hframes.symm
      refine ⟨read, unread, count, hread.symm, ?_, ?_⟩
      · rw [h.agree, hresults]
        rfl
      · intro hcount
        rw [hend hcount] at hunread
        exact List.map_eq_nil_iff.mp hunread

/-- What the function took a branch for was delivered. -/
theorem mem_delivered {polls : SelectGenesis.Log} {reply : Reply}
    (h : .advertised reply ∈ SelectGenesis.branches polls) : reply ∈ delivered polls := by
  obtain ⟨⟨poll, branch⟩, hentry, rfl⟩ := List.mem_map.mp h
  exact List.mem_filterMap.mpr ⟨_, hentry, rfl⟩

/-- Whatever Freddie advertises, however the response is cut into chunks, and whenever the patience
ends or the wait is cancelled: the candidates are the Genesis messages among the first messages that
the server wrote, in their order. The result is one of them. If the server wrote a Genesis, the
function never returns `NoGenesis`, and a stream that is delivered whole never makes it fail. -/
theorem discovery (hquote : Json.Inverted quote) (hline : Json.OneLine quote)
    (hchunks : chunks.flatten = advertised quote entries) {client : FreddieClient}
    {transport : Request → Except String Response}
    (hopen : client.advertisements transport = .ok (.new chunks))
    (h : Execution.Exec (restrict delivers (next decodeSignal (client.advertisements transport)))
      ⟨.subscribing, none⟩ log system) :
    (∀ candidates, system.control = .collecting candidates ∨ system.control = .choosing candidates →
      ∃ read, read <+: entries.reduceOption ∧
        candidates = read.filter fun message ↦ message.kind = .genesis) ∧
    (∀ message, system.control = .returned (.ok message) →
      some message ∈ entries ∧ message.kind = .genesis) ∧
    (system.control = .returned (.error .noGenesis) →
      ∀ message, some message ∈ entries → message.kind ≠ .genesis) ∧
    ∀ error, system.control = .returned (.error error) →
      error = .noGenesis ∨ error = .cancelled := by
  rw [hopen] at h
  have hparts := Exec.parts h
  have hstory := hparts.selects.story
  obtain ⟨read, unread, count, hmessages, hdelivered, hend⟩ := hparts.read hquote hline hchunks
  have hgenesis : SelectGenesis.genesis (selectLog log) =
      read.filter fun message ↦ message.kind = .genesis := by
    rw [genesis_eq_delivered, hdelivered, filterMap_genesisOf]
  -- what a poll got is a message that was read, or the end of the stream
  have hgot : ∀ reply, .advertised reply ∈ SelectGenesis.branches (selectLog log) →
      (∃ message ∈ read, reply = .ok (some message)) ∨ reply = .ok none ∧ 0 < count := by
    intro reply hmem
    have hreply := List.mem_reverse.mpr (mem_delivered hmem)
    rw [hdelivered, List.mem_append] at hreply
    rcases hreply with hfound | hnone
    · obtain ⟨message, hread, rfl⟩ := List.mem_map.mp hfound
      exact .inl ⟨message, hread, rfl⟩
    · obtain ⟨hcount, hnone⟩ := List.mem_replicate.mp hnone
      exact .inr ⟨hnone, Nat.pos_of_ne_zero hcount⟩
  refine ⟨?_, ?_, ?_, ?_⟩
  · rintro candidates (hcontrol | hcontrol)
    · rw [hcontrol] at hstory
      exact ⟨read, ⟨unread, hmessages⟩, hstory.collecting_candidates.trans hgenesis⟩
    · rw [hcontrol] at hstory
      exact ⟨read, ⟨unread, hmessages⟩, hstory.choosing_candidates.2.trans hgenesis⟩
  · intro message hcontrol
    rw [hcontrol] at hstory
    obtain ⟨hkind, later, poll, earlier, hlog, _⟩ := hstory.timely
    have hbranch : .advertised (.ok (some message)) ∈ SelectGenesis.branches (selectLog log) := by
      rw [hlog]
      simp [SelectGenesis.branches]
    rcases hgot _ hbranch with ⟨other, hread, heq⟩ | ⟨heq, _⟩
    · cases heq
      refine ⟨List.reduceOption_mem_iff.mp ?_, hkind⟩
      rw [← hmessages]
      exact List.mem_append_left _ hread
    · cases heq
  · intro hcontrol message hmessage hkind
    obtain ⟨hstop, hnone, _⟩ := hstory.noGenesis_iff.mp hcontrol
    rcases hgot _ hstop with ⟨_, _, heq⟩ | ⟨_, hcount⟩
    · cases heq
    · rw [hend hcount, List.append_nil] at hmessages
      rw [hgenesis, hmessages, List.filter_eq_nil_iff] at hnone
      exact hnone message (List.reduceOption_mem_iff.mpr hmessage) (by simpa using hkind)
  · intro error hcontrol
    rw [hcontrol] at hstory
    generalize hpolls : selectLog log = polls at hstory
    cases hstory with
    | waiting _ hwaiting => cases hwaiting.in_select
    | noGenesis => exact .inl rfl
    | cancelled => exact .inr rfl
    | refused =>
        have hresult := hparts.subscribed (.error _) (by rw [hpolls]; exact List.mem_cons_self)
        cases hresult
    | failed =>
        have hreply := hgot (.error _) (by rw [hpolls]; exact List.mem_cons_self)
        rcases hreply with ⟨_, _, heq⟩ | ⟨heq, _⟩
        · cases heq
        · cases heq

/-- A body with an Offer, an empty line and two Genesis messages. -/
def sampleEntries : List (Option SignalMessage) :=
  [some ⟨"a", .offer, ""⟩, none, some ⟨"b", .genesis, "\n"⟩, some ⟨"c", .genesis, ""⟩]

/-- The body, cut inside the second message. -/
def sampleChunks : List Bytes :=
  [(advertised Json.serdeQuote sampleEntries).take 50,
    (advertised Json.serdeQuote sampleEntries).drop 50]

/-- The patience ends when one of two Genesis messages has been read. -/
theorem discovery_of_patience :
    ∃ log system,
      Execution.Exec (restrict delivers (next decodeSignal (FreddieClient.advertisements
        (fun _ ↦ .ok ⟨200, sampleChunks, none⟩) ⟨"http://localhost/v1/signal", protocolVersion⟩)))
        ⟨.subscribing, none⟩ log system ∧
      system.control = .returned (.ok ⟨"b", .genesis, "\n"⟩) ∧
      some ⟨"b", .genesis, "\n"⟩ ∈ sampleEntries := by
  have hrun : (Execution.run (restrict delivers (next decodeSignal (FreddieClient.advertisements
      (fun _ ↦ .ok ⟨200, sampleChunks, none⟩) ⟨"http://localhost/v1/signal", protocolVersion⟩)))
      [.subscribe, .drive .next, .drive .iterate, .drive .chunk, .deliver .iterate,
        .drive .next, .drive .iterate, .drive .iterate, .drive .chunk, .deliver .iterate,
        .select (.pollMore false true .pending), .select (.choose 5)]
      ([], ⟨.subscribing, none⟩)).any (fun reached ↦
        reached.2.control = .returned (.ok ⟨"b", .genesis, "\n"⟩)) = true := by decide +kernel
  obtain ⟨⟨log, system⟩, hreached, htest⟩ := (Option.any_eq_true _ _).mp hrun
  have hcontrol : system.control = .returned (.ok ⟨"b", .genesis, "\n"⟩) := by simpa using htest
  have hexec := Execution.exec_of_run hreached
  have hchunks : sampleChunks.flatten = advertised Json.serdeQuote sampleEntries := by
    simp [sampleChunks]
  have hdiscovery := discovery Json.inverted_serdeQuote Json.oneLine_serdeQuote hchunks rfl hexec
  exact ⟨log, system, hexec, hcontrol, (hdiscovery.2.1 _ hcontrol).1⟩

end Discovery

end Unbounded.Consumer
