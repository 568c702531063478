import LoggerAnalyzer.Session.Durable
import LoggerAnalyzer.Session.ResultSize

/-!
# What waits to be written

A frame that is sent is put at the end of `writes_`, and libuv takes it from the front when it is
written. `Queues` says that what is put there is what was sent, and each callback but that of a
write keeps to it. So the queue is at any time the end of what was sent (`queued_run`), and all of
it as long as no write is done (`writes_eq`).

Nothing limits the queue. A client that does not read, and goes on asking for what is answered,
makes the session keep one answer for each time: `unread_length`.
-/

namespace LoggerAnalyzer

open Incremental FrameDecoder

private theorem length_of_helloFields {payload name : Bytes} (h : helloFields payload = some name) :
    name.length ≤ 0xFFFF := by
  rw [helloFields] at h
  split at h
  · rename_i hname
    cases h
    exact PayloadReader.length_of_str16 hname
  · cases h

/-- Frames as they are put into the queue. -/
def serialized (frames : List (MsgType × Bytes)) : List Bytes :=
  frames.map fun m ↦ serializeFrame m.1 m.2

theorem serialized_append (frames frames' : List (MsgType × Bytes)) :
    serialized (frames ++ frames') = serialized frames ++ serialized frames' := List.map_append

namespace TcpSession

open Conversation

variable {D : Type}

/-- On the way from `s` to `s'` what is sent is put at the end of the queue. The name of the client
keeps within the length of its field. -/
structure Queues (s s' : TcpSession D) : Prop where
  clientName : s.clientName.length ≤ 0xFFFF → s'.clientName.length ≤ 0xFFFF
  writes : ∃ happenings, s'.timeline = s.timeline ++ happenings ∧
    s'.writes = s.writes ++ serialized (sentFrames happenings)

namespace Queues

variable {s s' s'' : TcpSession D}

theorem refl (s : TcpSession D) : Queues s s :=
  ⟨id, [], (List.append_nil _).symm, (List.append_nil _).symm⟩

theorem trans (h : Queues s s') (h' : Queues s' s'') : Queues s s'' := by
  obtain ⟨hname, added, htimeline, hwrites⟩ := h
  obtain ⟨hname', added', htimeline', hwrites'⟩ := h'
  refine ⟨hname' ∘ hname, added ++ added', ?_, ?_⟩
  · rw [htimeline', htimeline, List.append_assoc]
  · rw [hwrites', hwrites, sentFrames_append, serialized_append, List.append_assoc]

/-- Something else in the session changes. -/
theorem congr (h : Queues s s') (clientName : s''.clientName = s'.clientName)
    (timeline : s''.timeline = s'.timeline) (writes : s''.writes = s'.writes) : Queues s s'' := by
  obtain ⟨hname, added, htimeline, hwrites⟩ := h
  exact ⟨fun hlen ↦ clientName ▸ hname hlen, added, timeline.trans htimeline, writes.trans hwrites⟩

theorem note (h : Queues s s') {happening : Happening}
    (hne : ∀ type payload, happening ≠ .sent type payload) : Queues s (s'.note happening) := by
  have hnone : sentFrames [happening] = [] := sentFrames_other [] hne
  refine h.trans ⟨id, [happening], rfl, ?_⟩
  rw [hnone]
  exact (List.append_nil _).symm

theorem enter (h : Queues s s') (state : SessionState) : Queues s (s'.enter state) := by
  have hset : Queues s { s' with state := state } := h.congr rfl rfl rfl
  exact hset.note (by simp)

theorem closeHandles (h : Queues s s') : Queues s s'.closeHandles := by
  have hstopped : Queues s { s' with timer := none } := h.congr rfl rfl rfl
  have hclosing : Queues s { s' with
      timer := none, handlesClosing := true, pendingClose := s'.pendingClose + 2 } :=
    h.congr rfl rfl rfl
  rw [TcpSession.closeHandles]
  dsimp only
  split_ifs
  · exact hstopped.note (by simp)
  · exact hstopped
  · exact hclosing.note (by simp)
  · exact hclosing

theorem onHandleClosed (h : Queues s s') : Queues s s'.onHandleClosed := by
  have hcounted : Queues s { s' with pendingClose := s'.pendingClose - 1 } := h.congr rfl rfl rfl
  rw [TcpSession.onHandleClosed]
  dsimp only
  split_ifs
  · exact hcounted
  · exact hcounted.note (by simp)

variable [DoubleOps D]

theorem reportPartialUpload (h : Queues s s') (headline : Bytes) :
    Queues s (s'.reportPartialUpload headline).2 := by
  rw [TcpSession.reportPartialUpload]
  dsimp only
  split_ifs
  · exact h.congr rfl rfl rfl
  · exact h.congr rfl rfl rfl

theorem close (h : Queues s s') : Queues s s'.close := by
  rw [TcpSession.close]
  split_ifs
  · exact h
  · exact ((h.enter .closing).reportPartialUpload _).closeHandles
  · exact (h.enter .closing).closeHandles

theorem durable (s : TcpSession D) : Durable (Queues s) where
  congr h clientName timeline writes _ _ _ := h.congr clientName timeline writes
  note h hsent _ := h.note hsent
  enter h _ := h.enter _
  -- the one field of a client that is kept as it came
  named {s' payload name} h hfields := by
    obtain ⟨-, added, htimeline, hwrites⟩ := h
    exact ⟨fun _ ↦ length_of_helloFields hfields, added, htimeline, hwrites⟩
  queued type payload h := h.trans ⟨id, [.sent type payload], rfl, rfl⟩
  close h := h.close

/-- A write that is done takes its frame from the front. What it leads to queues nothing. -/
theorem onWrite (s : TcpSession D) (ok : Bool) :
    Queues { s with writes := s.writes.tail } (s.onWrite ok) :=
  (durable _).onWrite (refl _) ok

/-- A callback other than that of a write. -/
theorem step (s : TcpSession D) {event : Event} (hother : ∀ ok, event ≠ .written ok) :
    Queues s (s.step event) :=
  (durable s).step (refl s) (fun ok heq ↦ absurd heq (hother ok)) fun _ ↦ (refl s).onHandleClosed

end Queues

/-! ## Runs -/

variable [DoubleOps D]

/-- The queue is the end of what was sent, and the client's name is not too long. -/
structure Queued (s : TcpSession D) : Prop where
  clientName : s.clientName.length ≤ 0xFFFF
  writes : s.writes <:+ serialized (sentFrames s.timeline)

omit [DoubleOps D] in
theorem Queued.queues {s s' : TcpSession D} (h : Queued s) (hq : Queues s s') : Queued s' := by
  obtain ⟨hname, added, htimeline, hwrites⟩ := hq
  refine ⟨hname h.clientName, ?_⟩
  obtain ⟨done, hdone⟩ := h.writes
  refine ⟨done, ?_⟩
  rw [hwrites, htimeline, sentFrames_append, serialized_append, ← hdone, List.append_assoc]

theorem Queued.step {s : TcpSession D} (h : Queued s) (event : Event) : Queued (s.step event) := by
  by_cases hwritten : ∃ ok, event = .written ok
  · obtain ⟨ok, rfl⟩ := hwritten
    have hdone : Queued { s with writes := s.writes.tail } :=
      ⟨h.clientName, (List.tail_suffix _).trans h.writes⟩
    exact hdone.queues (.onWrite s ok)
  · exact h.queues (.step s fun ok hok ↦ hwritten ⟨ok, hok⟩)

/-- **The queue is the end of what was sent** in every run. -/
theorem queued_run (config : SessionConfig) (env : Env) (events : List Event) :
    Queued ((start (D := D) config env).run events) := by
  have hall : ∀ s : TcpSession D, Queued s → Queued (s.run events) := by
    induction events with
    | nil => exact fun _ h ↦ h
    | cons event events ih => exact fun s h ↦ ih _ (h.step event)
  exact hall _ ⟨Nat.zero_le _, List.suffix_refl _⟩

/-- As long as no write is done, everything that was sent is still there. -/
theorem writes_eq (config : SessionConfig) (env : Env) {events : List Event}
    (hunread : ∀ ok, .written ok ∉ events) :
    ((start (D := D) config env).run events).writes
      = serialized (sentFrames ((start (D := D) config env).run events).timeline) := by
  have hall : ∀ s : TcpSession D, s.writes = serialized (sentFrames s.timeline) →
      (s.run events).writes = serialized (sentFrames (s.run events).timeline) := by
    induction events with
    | nil => exact fun _ h ↦ h
    | cons event events ih =>
      intro s h
      obtain ⟨-, added, htimeline, hwrites⟩ :=
        Queues.step s fun ok (hok : event = .written ok) ↦ hunread ok (hok ▸ List.mem_cons_self)
      refine ih (fun ok hmem ↦ hunread ok (List.mem_cons_of_mem _ hmem)) _ ?_
      rw [hwrites, htimeline, sentFrames_append, serialized_append, h]
  exact hall _ rfl

/-! ## A client that does not read -/

/-- A greeting, and then the beginning of an empty upload, `n` times. -/
def askingFrames (version : UInt16) (client name : Bytes) (n : ℕ) : List (MsgType × Bytes) :=
  (.hello, helloPayload version client)
    :: List.replicate n (.uploadBegin, uploadBeginPayload 0 name)

private theorem run_asking (last : Option (List Bytes)) (name : Bytes) (n : ℕ) :
    (service D).run (.idle last) (List.replicate n (.uploadBegin, uploadBeginPayload 0 name))
      = some (.idle last) := by
  have hfields := uploadBeginFields_of (Nat.two_pow_pos 64) name
  have hnext : (service D).next (.idle last) (.uploadBegin, uploadBeginPayload 0 name)
      = some (.idle last) := Phase.next_of_empty last hfields
  induction n with
  | zero => rfl
  | succ n ih => rw [List.replicate_succ, Machine.run_cons _ hnext, ih]

/-- Each time it is turned away. -/
theorem length_of_asking {last : Option (List Bytes)} {name : Bytes} {n : ℕ} {phase : Phase}
    {replies : List (MsgType × Bytes)} (h : (service D).Answered (.idle last)
      (List.replicate n (.uploadBegin, uploadBeginPayload 0 name)) phase replies) :
    replies.length = n := by
  have hfields := uploadBeginFields_of (Nat.two_pow_pos 64) name
  have hnext : (service D).next (.idle last) (.uploadBegin, uploadBeginPayload 0 name)
      = some (.idle last) := Phase.next_of_empty last hfields
  induction n generalizing replies with
  | zero =>
    obtain ⟨-, rfl⟩ := Machine.Answered.nil_iff.mp h
    rfl
  | succ n ih =>
    rw [List.replicate_succ] at h
    obtain ⟨phase₁, reply, replies₁, hnext₁, hans, hrest, rfl⟩ := h.cons
    cases hnext.symm.trans hnext₁
    have hone : reply.length = 1 := by
      cases hans with
      | begun => rfl
      | turnedAway => rfl
    rw [List.length_append, hone, ih hrest, Nat.add_comm]

/-- **Nothing limits the queue**: a client that does not read, and asks `n` times for an empty
upload, leaves `n + 1` frames in it, in whatever reads its bytes arrive. -/
theorem unread_length (config : SessionConfig) {env : Env}
    (henv : ∀ n, env.uvWrite.get n = true) (version : UInt16) (client name : Bytes) (n : ℕ)
    {events : List Event} (hreads : ∀ event ∈ events, ∃ data, event = .read data)
    (hbytes : events.flatMap Event.bytes = wire (askingFrames version client name n)) :
    ((start (D := D) config env).run events).writes.length = n + 1 := by
  have hsmooth : ∀ event ∈ events, event.smooth = true := fun event hmem ↦ by
    obtain ⟨data, rfl⟩ := hreads event hmem
    rfl
  have hunread : ∀ ok, .written ok ∉ events := fun ok hmem ↦ by
    obtain ⟨data, hdata⟩ := hreads _ hmem
    cases hdata
  have hsmall : ∀ f ∈ askingFrames version client name n, f.2.length ≤ kMaxPayload := by
    rw [askingFrames, List.forall_mem_cons]
    refine ⟨length_helloPayload_le version client, fun f hf ↦ ?_⟩
    rw [List.eq_of_mem_replicate hf]
    exact length_uploadBeginPayload_le 0 name
  have hhello : (service D).next .awaitHello (.hello, helloPayload version client)
      = some (.idle none) := Phase.next_of_hello (helloFields_of version client)
  have hrun : (service D).run .awaitHello (askingFrames version client name n)
      = some (.idle none) := by
    rw [askingFrames, Machine.run_cons _ hhello, run_asking]
  obtain ⟨replies, hans, hserving, -⟩ := serves_run hsmall hrun hsmooth hbytes
    FrameDecoder.at_new (serving_start config henv)
  have hsent : sentFrames ((start (D := D) config env).run events).timeline = replies :=
    hserving.sent
  -- one frame answers the HELLO, and one each of the others
  obtain ⟨phase₁, reply, replies₁, hnext, hgreeted, hrest, rfl⟩ := hans.cons
  cases hhello.symm.trans hnext
  have hone : reply.length = 1 := by
    cases hgreeted with
    | greeted => rfl
  rw [writes_eq config env hunread, hsent, serialized, List.length_map, List.length_append, hone,
    length_of_asking hrest, Nat.add_comm]

/-- Three times, in one read. -/
theorem unread_length_three :
    ((start (D := ℚ) plainConfig calmEnv).run
      [.read (wire (askingFrames 1 (ascii "client") (ascii "log.txt") 3))]).writes.length = 4 :=
  unread_length plainConfig (fun _ ↦ rfl) 1 (ascii "client") (ascii "log.txt") 3 (by simp)
    (by simp [Event.bytes])

end TcpSession

end LoggerAnalyzer
