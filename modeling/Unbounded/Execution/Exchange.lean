import Unbounded.Execution.Slots
import Unbounded.Execution.Machine

/-!
# Requests and replies through a server

A server keeps every message that was posted. Posting a message is also a request: the server gives
it an ID that it has not given before, and a message that is sent to that ID may answer the request,
once. `Exec.sound` says what follows for every run of the server: IDs are not shared, a message
answers the request whose ID it is sent to, and a request has at most one answer.
-/

namespace Unbounded.Execution.Exchange

universe u v

/-- A message that was posted, with the ID of the request that it made. -/
structure Post (Owner : Type u) (Body : Type v) where
  id : String
  owner : Owner
  sendTo : String
  body : Body

/-- The messages posted so far, and the requests among them that have no answer yet. -/
structure Server (Owner : Type u) (Body : Type v) where
  posts : List (Post Owner Body)
  pending : List Nat

/-- What a server does. -/
inductive Op (Owner : Type u) (Body : Type v) where
  | post (post : Post Owner Body)
  /-- A message answers a request. Both are named by their place in the posts. -/
  | answer (request message : Nat)

variable {Owner : Type u} {Body : Type v}

/-- A server to which nothing was posted. -/
def Server.new : Server Owner Body :=
  ⟨[], []⟩

/-- One step of a server, which never gives the reserved ID. -/
def next (reserved : String) : Next (Server Owner Body) (Op Owner Body) Unit
  | server, .post post =>
      if post.id = reserved ∨ post.id ∈ server.posts.map Post.id then none
      else some ((), ⟨server.posts ++ [post], server.posts.length :: server.pending⟩)
  | server, .answer index message =>
      server.posts[index]?.bind fun request ↦ server.posts[message]?.bind fun posted ↦
        if index ∈ server.pending ∧ posted.sendTo = request.id then
          some ((), { server with pending := server.pending.filter (· ≠ index) })
        else none

/-- Executions of a server. -/
abbrev Exec (reserved : String) :
    Server Owner Body → Log (Op Owner Body) Unit → Server Owner Body → Prop :=
  Execution.Exec (next reserved)

/-- The message answered the request. -/
def Answered (log : Log (Op Owner Body) Unit) (index message : Nat) : Prop :=
  (.answer index message, ()) ∈ log

variable {reserved : String} {log : Log (Op Owner Body) Unit} {server following : Server Owner Body}

/-- An answer is one of the operations that the server was given. -/
theorem answered_iff_mem_ops {index message : Nat} :
    Answered log index message ↔ .answer index message ∈ log.map Prod.fst := by
  refine ⟨fun hmem ↦ List.mem_map.mpr ⟨_, hmem, rfl⟩, fun hmem ↦ ?_⟩
  obtain ⟨⟨op, out⟩, hentry, rfl⟩ := List.mem_map.mp hmem
  exact hentry

/-- What holds of a server after every run. -/
structure Sound (reserved : String) (log : Log (Op Owner Body) Unit)
    (server : Server Owner Body) : Prop where
  nodup : (server.posts.map Post.id).Nodup
  unreserved : ∀ post ∈ server.posts, post.id ≠ reserved
  unanswered : ∀ index ∈ server.pending,
    index < server.posts.length ∧ ∀ message, ¬ Answered log index message
  answered : ∀ index message, Answered log index message → ∃ request posted,
    server.posts[index]? = some request ∧ server.posts[message]? = some posted ∧
      posted.sendTo = request.id
  once : ∀ index message other, Answered log index message → Answered log index other →
    message = other

/-- Everything a step of a server can be. -/
inductive Change (reserved : String) (server : Server Owner Body) :
    Op Owner Body → Server Owner Body → Prop where
  | post {post} (hreserved : post.id ≠ reserved) (hfresh : post.id ∉ server.posts.map Post.id) :
      Change reserved server (.post post)
        ⟨server.posts ++ [post], server.posts.length :: server.pending⟩
  | answer {index message request posted} (hrequest : server.posts[index]? = some request)
      (hposted : server.posts[message]? = some posted) (hpending : index ∈ server.pending)
      (hsendTo : posted.sendTo = request.id) :
      Change reserved server (.answer index message)
        { server with pending := server.pending.filter (· ≠ index) }

/-- Every step of the server is a `Change`. -/
theorem change_of_next {op : Op Owner Body} {out : Unit}
    (h : next reserved server op = some (out, following)) :
    Change reserved server op following := by
  cases op with
  | post post =>
      simp only [next] at h
      split at h
      case isTrue => simp at h
      case isFalse hfresh =>
        simp only [Option.some.injEq, Prod.mk.injEq] at h
        obtain ⟨_, rfl⟩ := h
        obtain ⟨hreserved, hid⟩ := not_or.mp hfresh
        exact .post hreserved hid
  | answer index message =>
      simp only [next, Option.bind_eq_some_iff] at h
      obtain ⟨request, hrequest, posted, hposted, hanswer⟩ := h
      split at hanswer
      case isFalse => simp at hanswer
      case isTrue hpending =>
        simp only [Option.some.injEq, Prod.mk.injEq] at hanswer
        obtain ⟨_, rfl⟩ := hanswer
        exact .answer hrequest hposted hpending.1 hpending.2

/-- The message that an operation posts. -/
def Op.posted : Op Owner Body → Option (Post Owner Body)
  | .post message => some message
  | .answer _ _ => none

/-- Nothing that was posted is lost or changed. -/
theorem posts_of_run {ops : List (Op Owner Body)} {finalLog : Log (Op Owner Body) Unit}
    (h : run (next reserved) ops (log, server) = some (finalLog, following)) :
    following.posts = server.posts ++ ops.filterMap Op.posted := by
  induction ops generalizing log server with
  | nil =>
      simp only [run, Option.some.injEq, Prod.mk.injEq] at h
      simp [h.2]
  | cons op ops ih =>
      simp only [run, Option.bind_eq_some_iff] at h
      obtain ⟨⟨out, moved⟩, hnext, hrest⟩ := h
      rw [ih hrest]
      cases change_of_next hnext with
      | post => simp [Op.posted]
      | answer => rfl

/-- A step keeps a server sound. -/
theorem Sound.step {op : Op Owner Body} (h : Sound reserved log server)
    (hchange : Change reserved server op following) :
    Sound reserved ((op, ()) :: log) following := by
  cases hchange with
  | @post post hreserved hfresh =>
      have hanswered : ∀ index message, Answered ((.post post, ()) :: log) index message →
          Answered log index message := by
        intro index message hmem
        simpa [Answered] using hmem
      refine ⟨?_, ?_, ?_, ?_, ?_⟩
      · rw [List.map_append, List.nodup_append]
        refine ⟨h.nodup, by simp, ?_⟩
        intro id hid other hother
        obtain rfl : other = post.id := by simpa using hother
        exact fun heq ↦ hfresh (heq ▸ hid)
      · intro other hother
        rcases List.mem_append.mp hother with hold | hnew
        · exact h.unreserved other hold
        · obtain rfl : other = post := by simpa using hnew
          exact hreserved
      · intro index hindex
        simp only [List.length_append, List.length_singleton]
        rcases List.mem_cons.mp hindex with rfl | hindex
        · -- a request that did not exist has no answer
          refine ⟨by omega, fun message hmem ↦ ?_⟩
          obtain ⟨request, _, hrequest, _⟩ := h.answered _ _ (hanswered _ _ hmem)
          simp at hrequest
        · obtain ⟨hlt, hnone⟩ := h.unanswered index hindex
          exact ⟨by omega, fun message hmem ↦ hnone message (hanswered _ _ hmem)⟩
      · intro index message hmem
        obtain ⟨request, posted, hrequest, hposted, hsendTo⟩ :=
          h.answered index message (hanswered _ _ hmem)
        exact ⟨request, posted, getElem?_append_of_some hrequest post,
          getElem?_append_of_some hposted post, hsendTo⟩
      · intro index message other hmem hother
        exact h.once index message other (hanswered _ _ hmem) (hanswered _ _ hother)
  | @answer index message request posted hrequest hposted hpending hsendTo =>
      have hanswered : ∀ place sent, Answered ((.answer index message, ()) :: log) place sent →
          (place = index ∧ sent = message) ∨ Answered log place sent := by
        intro place sent hmem
        simpa [Answered] using hmem
      have hnone := (h.unanswered index hpending).2
      refine ⟨h.nodup, h.unreserved, ?_, ?_, ?_⟩
      · intro place hplace
        obtain ⟨hplace, hne⟩ := List.mem_filter.mp hplace
        obtain ⟨hlt, hunanswered⟩ := h.unanswered place hplace
        refine ⟨hlt, fun sent hmem ↦ ?_⟩
        rcases hanswered place sent hmem with ⟨rfl, _⟩ | hold
        · simp at hne
        · exact hunanswered sent hold
      · intro place sent hmem
        rcases hanswered place sent hmem with ⟨rfl, rfl⟩ | hold
        · exact ⟨request, posted, hrequest, hposted, hsendTo⟩
        · exact h.answered place sent hold
      · intro place sent other hmem hother
        rcases hanswered place sent hmem with ⟨rfl, rfl⟩ | hold
        · rcases hanswered place other hother with ⟨_, rfl⟩ | hold
          · rfl
          · exact absurd hold (hnone other)
        · rcases hanswered place other hother with ⟨rfl, _⟩ | hother
          · exact absurd hold (hnone sent)
          · exact h.once place sent other hold hother

/-- Every run of a server is sound. -/
theorem Exec.sound (h : Exec reserved .new log server) : Sound reserved log server := by
  induction h with
  | refl => exact ⟨by simp [Server.new], by simp [Server.new], by simp [Server.new],
      by simp [Answered], by simp [Answered]⟩
  | snoc _ hnext ih => exact ih.step (change_of_next hnext)

/-- Two posts with one ID are one post. -/
theorem Sound.eq_of_id (h : Sound reserved log server) {first second : Nat}
    {one two : Post Owner Body} (hone : server.posts[first]? = some one)
    (htwo : server.posts[second]? = some two) (hid : one.id = two.id) : first = second := by
  obtain ⟨hfirst, _⟩ := List.getElem?_eq_some_iff.mp hone
  refine (List.getElem?_inj (by simpa using hfirst) h.nodup).mp ?_
  rw [List.getElem?_map, List.getElem?_map, hone, htwo]
  exact congrArg some hid

/-- A message that answered a request was sent to it. -/
theorem Sound.request_of_answered (h : Sound reserved log server) {index message : Nat}
    {posted : Post Owner Body} (hanswered : Answered log index message)
    (hposted : server.posts[message]? = some posted) :
    ∃ request, server.posts[index]? = some request ∧ request.id = posted.sendTo := by
  obtain ⟨request, found, hrequest, hfound, hsendTo⟩ := h.answered index message hanswered
  obtain rfl := Option.some.inj (hfound.symm.trans hposted)
  exact ⟨request, hrequest, hsendTo.symm⟩

end Unbounded.Execution.Exchange
