import LoggerAnalyzer.Client.Link

/-!
# What sending and receiving come to

A link is any behaviour of the outside. `Link.Laws` says what is known about one: how its state
moves while it takes some bytes and gives others, and what has to be so when it fails. From that
follows what the loops of the clients come to, with the record of the endpoint in full.
-/

namespace LoggerAnalyzer

open Program

variable {σ κ : Type}

/-- `Moves sent received s s'` says how a link goes from `s` to `s'` while it takes the bytes `sent`
and gives the bytes `received`; `Down e s` holds where it failed with `e`. -/
structure Link.Laws (link : Link σ) (Moves : Bytes → Bytes → σ → σ → Prop)
    (Down : Failure → σ → Prop) : Prop where
  refl : ∀ s, Moves [] [] s s
  trans : ∀ {sent received sent' received' s s' s''}, Moves sent received s s' →
    Moves sent' received' s' s'' → Moves (sent ++ sent') (received ++ received') s s''
  flag : ∀ site s, Moves [] [] s (link.flag site s).2
  flag_true : ∀ site s, (link.flag site s).1 = true → Down .cancelled (link.flag site s).2
  pauses : ∀ s, Moves [] [] s (link.pauses s).2
  readable : ∀ s, Moves [] [] s (link.readable s).2
  now : ∀ s, Moves [] [] s (link.now s).2
  took : ∀ {data s more}, data ≠ [] → (link.send data s).1 = .took more →
    Moves (data.take (more + 1)) [] s (link.send data s).2
  stalled : ∀ {data s}, data ≠ [] → (link.send data s).1 = .stalled →
    Moves [] [] s (link.send data s).2 ∧ ∀ ms, Down (.stalled ms) (link.send data s).2
  sendFailed : ∀ {data s why}, data ≠ [] → (link.send data s).1 = .failed why →
    Moves [] [] s (link.send data s).2 ∧ Down (.sendFailed why) (link.send data s).2
  got : ∀ {n s first more}, 0 < n → (link.recv n s).1 = .got first more →
    Moves [] ((first :: more).take n) s (link.recv n s).2
  closed : ∀ {n s}, 0 < n → (link.recv n s).1 = .closed →
    Moves [] [] s (link.recv n s).2 ∧ ∀ got len, Down (.closed got len) (link.recv n s).2
  idle : ∀ {n s}, 0 < n → (link.recv n s).1 = .idle →
    Moves [] [] s (link.recv n s).2 ∧ ∀ ms, Down (.idle ms) (link.recv n s).2
  recvFailed : ∀ {n s why}, 0 < n → (link.recv n s).1 = .failed why →
    Moves [] [] s (link.recv n s).2 ∧ Down (.recvFailed why) (link.recv n s).2

namespace Endpoint

/-- The link is in another state. -/
def onto (s : σ) (e : Endpoint σ κ) : Endpoint σ κ := { e with outside := s }

/-- A call failed. If it did because the flag was seen, that is noted. -/
def fallen (f : Failure) (e : Endpoint σ κ) : Endpoint σ κ :=
  if f = .cancelled then e.notice else e

@[simp] theorem onto_outside (s : σ) (e : Endpoint σ κ) : (e.onto s).outside = s := rfl

@[simp] theorem onto_onto (s s' : σ) (e : Endpoint σ κ) : (e.onto s).onto s' = e.onto s' := rfl

@[simp] theorem wrote_nil (e : Endpoint σ κ) : e.wrote [] = e := by
  rw [wrote, List.append_nil]

@[simp] theorem wrote_wrote (data data' : Bytes) (e : Endpoint σ κ) :
    (e.wrote data).wrote data' = e.wrote (data ++ data') := by
  rw [wrote, wrote, wrote, List.append_assoc]

theorem wrote_onto (s : σ) (data : Bytes) (e : Endpoint σ κ) :
    (e.wrote data).onto s = (e.onto s).wrote data := rfl

end Endpoint

namespace Act

variable {link : Link σ} {Moves : Bytes → Bytes → σ → σ → Prop} {Down : Failure → σ → Prop}

/-! ## The flag -/

theorem yields_load (laws : link.Laws Moves Down) (e : Endpoint σ κ) :
    Yields (load link) e
      (fun seen e' ↦ ∃ s, Moves [] [] e.outside s ∧ (seen = false ∧ e' = e.onto s ∨
        seen = true ∧ Down .cancelled s ∧ e' = (e.onto s).notice))
      fun _ _ ↦ False := by
  refine Yields.bind (Yields.modifyGet (Q := fun seen e' ↦ seen = (link.flag e.here e.outside).1 ∧
    e' = e.onto (link.flag e.here e.outside).2) ⟨rfl, rfl⟩) ?_
  rintro seen e' ⟨rfl, rfl⟩
  cases hseen : (link.flag e.here e.outside).1 with
  | false => exact ⟨_, laws.flag e.here e.outside, .inl ⟨rfl, rfl⟩⟩
  | true => exact ⟨_, laws.flag e.here e.outside, .inr ⟨rfl, laws.flag_true _ _ hseen, rfl⟩⟩

/-- The flag was looked at, and the call gave up or not. -/
def Passed (Moves : Bytes → Bytes → σ → σ → Prop) (e e' : Endpoint σ κ) : Prop :=
  ∃ s, Moves [] [] e.outside s ∧ e' = e.onto s

/-- The call gave up because the flag was seen. -/
def Stopped (Moves : Bytes → Bytes → σ → σ → Prop) (Down : Failure → σ → Prop) (heeds : Bool)
    (e : Endpoint σ κ) (f : Failure) (e' : Endpoint σ κ) : Prop :=
  f = .cancelled ∧ heeds = true ∧
    ∃ s, Moves [] [] e.outside s ∧ Down .cancelled s ∧ e' = (e.onto s).notice

theorem yields_check (laws : link.Laws Moves Down) (heeds : Bool) (e : Endpoint σ κ) :
    Yields (check link heeds) e (fun _ e' ↦ Passed Moves e e') (Stopped Moves Down heeds e) := by
  cases heeds with
  | false => exact ⟨e.outside, laws.refl _, rfl⟩
  | true =>
    refine Yields.bind ((yields_load laws e).mono (fun _ _ h ↦ h) fun _ _ h ↦ h.elim) ?_
    rintro seen e' ⟨s, hmoves, ⟨rfl, rfl⟩ | ⟨rfl, hdown, rfl⟩⟩
    · exact ⟨s, hmoves, rfl⟩
    · exact ⟨rfl, rfl, s, hmoves, hdown, rfl⟩

theorem yields_rounds (laws : link.Laws Moves Down) (heeds : Bool) (n : ℕ) (e : Endpoint σ κ) :
    Yields (rounds link heeds n) e (fun _ e' ↦ Passed Moves e e') (Stopped Moves Down heeds e) := by
  induction n generalizing e with
  | zero => exact yields_check laws heeds e
  | succ n ih =>
    refine Yields.bind (yields_check laws heeds e) ?_
    rintro _ _ ⟨s, hmoves, rfl⟩
    refine (ih (e.onto s)).mono ?_ ?_
    · rintro _ _ ⟨s', hmoves', rfl⟩
      exact ⟨s', laws.trans hmoves hmoves', rfl⟩
    · rintro f _ ⟨rfl, hheeds, s', hmoves', hdown, rfl⟩
      exact ⟨rfl, hheeds, s', laws.trans hmoves hmoves', hdown, rfl⟩

theorem yields_pause (laws : link.Laws Moves Down) (heeds : Bool) (e : Endpoint σ κ) :
    Yields (pause link heeds) e (fun _ e' ↦ Passed Moves e e') (Stopped Moves Down heeds e) := by
  refine Yields.bind (Yields.modifyGet (Q := fun _ e' ↦ e' = e.onto (link.pauses e.outside).2) rfl)
    ?_
  rintro n _ rfl
  refine (yields_rounds laws heeds n _).mono ?_ ?_
  · rintro _ _ ⟨s, hmoves, rfl⟩
    exact ⟨s, laws.trans (laws.pauses e.outside) hmoves, rfl⟩
  · rintro f _ ⟨rfl, hheeds, s, hmoves, hdown, rfl⟩
    exact ⟨rfl, hheeds, s, laws.trans (laws.pauses e.outside) hmoves, hdown, rfl⟩

/-! ## Sending -/

/-- All of the data was sent. -/
def Sent (Moves : Bytes → Bytes → σ → σ → Prop) (data : Bytes) (e e' : Endpoint σ κ) : Prop :=
  ∃ s, Moves data [] e.outside s ∧ e' = (e.onto s).wrote data

/-- Part of the data was sent before the call failed. -/
def SentPart (Moves : Bytes → Bytes → σ → σ → Prop) (Down : Failure → σ → Prop) (heeds : Bool)
    (data : Bytes) (e : Endpoint σ κ) (f : Failure) (e' : Endpoint σ κ) : Prop :=
  (f = .cancelled → heeds = true) ∧ ∃ n s, n < data.length ∧
    Moves (data.take n) [] e.outside s ∧ Down f s ∧ e' = ((e.onto s).wrote (data.take n)).fallen f

theorem SentPart.of_stopped {heeds : Bool} {data : Bytes} (hdata : data ≠ []) {e e' : Endpoint σ κ}
    {f : Failure} (h : Stopped Moves Down heeds e f e') :
    SentPart Moves Down heeds data e f e' := by
  obtain ⟨rfl, hheeds, s, hmoves, hdown, rfl⟩ := h
  refine ⟨fun _ ↦ hheeds, 0, s, List.length_pos_iff.mpr hdata, hmoves, hdown, ?_⟩
  rw [List.take_zero, Endpoint.wrote_nil, Endpoint.fallen, if_pos rfl]

theorem yields_sendLoop (laws : link.Laws Moves Down) (heeds : Bool) (stallMs : ℕ) {fuel : ℕ}
    {data : Bytes} (hfuel : data.length ≤ fuel) (e : Endpoint σ κ) :
    Yields (sendLoop link heeds stallMs fuel data) e (fun _ e' ↦ Sent Moves data e e')
      (SentPart Moves Down heeds data e) := by
  -- each turn the socket takes a byte at least, so there is fuel for all of `data`
  induction fuel generalizing data e with
  | zero =>
    obtain rfl := List.length_eq_zero_iff.mp (Nat.le_zero.mp hfuel)
    exact ⟨e.outside, laws.refl _, (Endpoint.wrote_nil e).symm⟩
  | succ fuel ih =>
    rw [sendLoop]
    refine Yields.ite (fun hnil ↦ ?_) fun hne ↦ ?_
    · subst hnil
      exact ⟨e.outside, laws.refl _, (Endpoint.wrote_nil e).symm⟩
    -- before each call the flag is looked at, if this call heeds it
    refine Yields.bind ((yields_pause laws heeds e).mono (fun _ _ h ↦ h) fun _ _ h ↦
      .of_stopped hne h) ?_
    rintro _ _ ⟨s, hmoves, rfl⟩
    refine Yields.bind (Yields.modifyGet (Q := fun answer e' ↦ answer = (link.send data s).1 ∧
      e' = e.onto (link.send data s).2) ⟨rfl, rfl⟩) ?_
    rintro answer _ ⟨rfl, rfl⟩
    cases hanswer : (link.send data s).1 with
    | took more =>
      have hstep := laws.trans hmoves (laws.took hne hanswer)
      have hlen : (data.drop (more + 1)).length ≤ fuel := by
        rw [List.length_drop]
        omega
      refine Yields.bind (Yields.modify rfl : Yields _ _ (fun _ e' ↦ e' = _) _) ?_
      rintro _ _ rfl
      refine (ih hlen _).mono ?_ ?_
      · rintro _ _ ⟨s', hmoves', rfl⟩
        refine ⟨s', ?_, ?_⟩
        · have hall := laws.trans hstep hmoves'
          rwa [List.nil_append, List.nil_append, List.take_append_drop] at hall
        · rw [Endpoint.wrote_onto, Endpoint.wrote_wrote, List.take_append_drop, Endpoint.onto_onto]
      · rintro f _ ⟨hheeds, n, s', hn, hmoves', hdown, rfl⟩
        rw [List.length_drop] at hn
        have htake : data.take (more + 1) ++ (data.drop (more + 1)).take n
            = data.take (more + 1 + n) := (List.take_add ..).symm
        refine ⟨hheeds, more + 1 + n, s', by omega, ?_, hdown, ?_⟩
        · have hall := laws.trans hstep hmoves'
          rwa [List.nil_append, List.nil_append, htake] at hall
        · rw [Endpoint.wrote_onto, Endpoint.wrote_wrote, htake, Endpoint.onto_onto]
    | stalled =>
      obtain ⟨hstep, hdown⟩ := laws.stalled hne hanswer
      refine ⟨nofun, 0, _, List.length_pos_iff.mpr hne, laws.trans hmoves hstep, hdown stallMs, ?_⟩
      rw [List.take_zero, Endpoint.wrote_nil]
      rfl
    | failed why =>
      obtain ⟨hstep, hdown⟩ := laws.sendFailed hne hanswer
      refine ⟨nofun, 0, _, List.length_pos_iff.mpr hne, laws.trans hmoves hstep, hdown, ?_⟩
      rw [List.take_zero, Endpoint.wrote_nil]
      rfl

theorem yields_sendAll (laws : link.Laws Moves Down) (heeds : Bool) (stallMs : ℕ) (data : Bytes)
    (e : Endpoint σ κ) :
    Yields (sendAll link heeds stallMs data) e (fun _ e' ↦ Sent Moves data e e')
      (SentPart Moves Down heeds data e) := yields_sendLoop laws heeds stallMs (Nat.le_refl _) e

/-- The ways in which a send fails. -/
def FailsSending : Failure → Prop
  | .cancelled | .stalled _ | .sendFailed _ => True
  | _ => False

theorem failsSending_sendAll (link : Link σ) (heeds : Bool) (stallMs : ℕ) (data : Bytes)
    (e : Endpoint σ κ) :
    Yields (sendAll link heeds stallMs data) e (fun _ _ ↦ True) fun f _ ↦ FailsSending f := by
  -- from the inside out: one look, the looks before a call, and the loop of the calls
  have hload : ∀ e : Endpoint σ κ, Yields (load link) e (fun _ _ ↦ True) fun f _ ↦ FailsSending f :=
    fun e ↦ .bind (Yields.modifyGet (Q := fun _ _ ↦ True) trivial) fun _ _ _ ↦
      .ite (fun _ ↦ .bind (Yields.modify (Q := fun _ _ ↦ True) trivial) fun _ _ _ ↦ .pure trivial)
        fun _ ↦ .pure trivial
  have hcheck : ∀ e : Endpoint σ κ,
      Yields (check link heeds) e (fun _ _ ↦ True) fun f _ ↦ FailsSending f :=
    fun e ↦ .ite (fun _ ↦ .bind (hload e) fun _ _ _ ↦ .ite (fun _ ↦ .throw trivial) fun _ ↦
      .pure trivial) fun _ ↦ .pure trivial
  have hrounds : ∀ (n : ℕ) (e : Endpoint σ κ),
      Yields (rounds link heeds n) e (fun _ _ ↦ True) fun f _ ↦ FailsSending f := by
    intro n
    induction n with
    | zero => exact hcheck
    | succ n ih => exact fun e ↦ .bind (hcheck e) fun _ e' _ ↦ ih e'
  have hloop : ∀ (fuel : ℕ) (data : Bytes) (e : Endpoint σ κ),
      Yields (sendLoop link heeds stallMs fuel data) e (fun _ _ ↦ True)
        fun f _ ↦ FailsSending f := by
    intro fuel
    induction fuel with
    | zero => exact fun _ _ ↦ .pure trivial
    | succ fuel ih =>
      intro data e
      rw [sendLoop]
      refine .ite (fun _ ↦ .pure trivial) ?_
      intro _
      refine .bind (.bind (Yields.modifyGet (Q := fun _ _ ↦ True) trivial) fun n e' _ ↦
        hrounds n e') fun _ e' _ ↦ ?_
      refine .bind (Yields.modifyGet (Q := fun _ _ ↦ True) trivial) ?_
      intro answer e'' _
      cases answer with
      | took more =>
        exact .bind (Yields.modify (Q := fun _ _ ↦ True) trivial) fun _ e₃ _ ↦ ih _ e₃
      | stalled => exact .throw trivial
      | failed why => exact .throw trivial
  exact hloop _ data e

/-! ## Receiving -/

/-- The bytes were received. -/
def Received (Moves : Bytes → Bytes → σ → σ → Prop) (bytes : Bytes) (e e' : Endpoint σ κ) : Prop :=
  ∃ s, Moves [] bytes e.outside s ∧ e' = e.onto s

/-- Some bytes were received before the call failed. -/
def ReceivedPart (Moves : Bytes → Bytes → σ → σ → Prop) (Down : Failure → σ → Prop) (heeds : Bool)
    (bytes : Bytes) (e : Endpoint σ κ) (f : Failure) (e' : Endpoint σ κ) : Prop :=
  (f = .cancelled → heeds = true) ∧ ∃ s, Moves [] bytes e.outside s ∧ Down f s ∧
    e' = (e.onto s).fallen f

theorem yields_recvLoop (laws : link.Laws Moves Down) (heeds : Bool) (idleMs len : ℕ) {fuel : ℕ}
    (before : Bytes) (hfuel : len ≤ before.length + fuel) (hle : before.length ≤ len)
    (e : Endpoint σ κ) :
    Yields (recvLoop link heeds idleMs len fuel before) e
      (fun all e' ↦ all.length = len ∧ ∃ bytes, all = before ++ bytes ∧ Received Moves bytes e e')
      fun f e' ↦ ∃ bytes, before.length + bytes.length < len ∧
        ReceivedPart Moves Down heeds bytes e f e' := by
  -- each turn brings a byte at least, so there is fuel for all that is missing
  induction fuel generalizing before e with
  | zero =>
    exact ⟨by omega, [], (List.append_nil _).symm, e.outside, laws.refl _, rfl⟩
  | succ fuel ih =>
    rw [recvLoop]
    refine Yields.ite (fun hall ↦ ?_) fun hfew ↦ ?_
    · exact ⟨by omega, [], (List.append_nil _).symm, e.outside, laws.refl _, rfl⟩
    have hpos : 0 < len - before.length := by omega
    -- before each call the flag is looked at, if this call heeds it
    refine Yields.bind ((yields_pause laws heeds e).mono (fun _ _ h ↦ h) ?_) ?_
    · rintro f e' ⟨rfl, hheeds, s, hmoves, hdown, rfl⟩
      refine ⟨[], by simpa using Nat.not_le.mp hfew, fun _ ↦ hheeds, s, hmoves, hdown, ?_⟩
      rw [Endpoint.fallen, if_pos rfl]
    rintro _ _ ⟨s, hmoves, rfl⟩
    refine Yields.bind (Yields.modifyGet (Q := fun answer e' ↦
      answer = (link.recv (len - before.length) s).1 ∧
      e' = e.onto (link.recv (len - before.length) s).2) ⟨rfl, rfl⟩) ?_
    rintro answer _ ⟨rfl, rfl⟩
    cases hanswer : (link.recv (len - before.length) s).1 with
    | got first more =>
      have hstep := laws.trans hmoves (laws.got hpos hanswer)
      set bytes := (first :: more).take (len - before.length) with hbytes
      have hlen : 0 < bytes.length ∧ bytes.length ≤ len - before.length := by
        rw [hbytes, List.length_take, List.length_cons]
        omega
      refine (ih (before ++ bytes) ?_ ?_ _).mono ?_ ?_
      · rw [List.length_append]
        omega
      · rw [List.length_append]
        omega
      · rintro all _ ⟨hall, bytes', rfl, s', hmoves', rfl⟩
        refine ⟨hall, bytes ++ bytes', List.append_assoc .., s', ?_, rfl⟩
        exact laws.trans hstep hmoves'
      · rintro f _ ⟨bytes', hfew', hheeds, s', hmoves', hdown, rfl⟩
        rw [List.length_append] at hfew'
        refine ⟨bytes ++ bytes', by rw [List.length_append]; omega, hheeds, s', ?_, hdown, rfl⟩
        exact laws.trans hstep hmoves'
    | closed =>
      obtain ⟨hstep, hdown⟩ := laws.closed hpos hanswer
      exact
        ⟨[], by simpa using Nat.not_le.mp hfew, nofun, _, laws.trans hmoves hstep, hdown .., rfl⟩
    | idle =>
      obtain ⟨hstep, hdown⟩ := laws.idle hpos hanswer
      exact ⟨[], by simpa using Nat.not_le.mp hfew, nofun, _, laws.trans hmoves hstep, hdown _, rfl⟩
    | failed why =>
      obtain ⟨hstep, hdown⟩ := laws.recvFailed hpos hanswer
      exact ⟨[], by simpa using Nat.not_le.mp hfew, nofun, _, laws.trans hmoves hstep, hdown, rfl⟩

theorem yields_recvExactly (laws : link.Laws Moves Down) (heeds : Bool) (idleMs len : ℕ)
    (e : Endpoint σ κ) :
    Yields (recvExactly link heeds idleMs len) e
      (fun bytes e' ↦ bytes.length = len ∧ Received Moves bytes e e')
      fun f e' ↦ ∃ bytes, bytes.length < len ∧ ReceivedPart Moves Down heeds bytes e f e' := by
  refine (yields_recvLoop laws heeds idleMs len [] (by simp) (Nat.zero_le _) e).mono
    ?_ ?_
  · rintro _ _ ⟨hlen, bytes, rfl, hreceived⟩
    exact ⟨hlen, hreceived⟩
  · rintro f _ ⟨bytes, hlen, hpart⟩
    exact ⟨bytes, by simpa using hlen, hpart⟩

/-! ## Frames -/

/-- A frame was read. -/
def ReadFrame (Moves : Bytes → Bytes → σ → σ → Prop) (refuse : FrameHeader → Option Failure)
    (e : Endpoint σ κ) (f : Frame) (e' : Endpoint σ κ) : Prop :=
  ∃ head, head.length = kHeaderSize ∧ f.header = decodeHeader head ∧ refuse f.header = none ∧
    f.payload.length = f.header.payloadLen.toNat ∧ Received Moves (head ++ f.payload) e e'

/-- A header was refused. -/
def Refused (Moves : Bytes → Bytes → σ → σ → Prop) (refuse : FrameHeader → Option Failure)
    (e : Endpoint σ κ) (f : Failure) (e' : Endpoint σ κ) : Prop :=
  ∃ head, head.length = kHeaderSize ∧ refuse (decodeHeader head) = some f ∧
    Received Moves head e e'

/-- The bytes are the beginning of a frame, and not all of it. -/
def Begun (refuse : FrameHeader → Option Failure) (bytes : Bytes) : Prop :=
  bytes.length < kHeaderSize ∨
    kHeaderSize ≤ bytes.length ∧ refuse (decodeHeader (bytes.take kHeaderSize)) = none ∧
      bytes.length < kHeaderSize + (decodeHeader (bytes.take kHeaderSize)).payloadLen.toNat

theorem yields_readFrameWith (laws : link.Laws Moves Down) (refuse : FrameHeader → Option Failure)
    (heeds : Bool) (idleMs idleMs' : ℕ) (e : Endpoint σ κ) :
    Yields (readFrameWith refuse (recvExactly link heeds idleMs) (recvExactly link heeds idleMs'))
      e (ReadFrame Moves refuse e)
      fun f e' ↦ Refused Moves refuse e f e' ∨
        ∃ bytes, Begun refuse bytes ∧ ReceivedPart Moves Down heeds bytes e f e' := by
  refine Yields.bind ((yields_recvExactly laws heeds idleMs kHeaderSize e).mono (fun _ _ h ↦ h) ?_)
    ?_
  · rintro f e' ⟨bytes, hlen, hpart⟩
    exact .inr ⟨bytes, .inl hlen, hpart⟩
  rintro head _ ⟨hhead, s, hmoves, rfl⟩
  dsimp only
  cases hrefuse : refuse (decodeHeader head) with
  | some f => exact .inl ⟨head, hhead, hrefuse, s, hmoves, rfl⟩
  | none =>
    refine Yields.bind ((yields_recvExactly laws heeds idleMs' _ _).mono (fun _ _ h ↦ h) ?_) ?_
    · rintro f _ ⟨bytes, hlen, hheeds, s', hmoves', hdown, rfl⟩
      refine .inr ⟨head ++ bytes, .inr ?_, hheeds, s', laws.trans hmoves hmoves', hdown, rfl⟩
      rw [List.length_append, List.take_left' hhead]
      exact ⟨by omega, hrefuse, by omega⟩
    · rintro payload _ ⟨hlen, s', hmoves', rfl⟩
      exact ⟨head, hhead, rfl, hrefuse, hlen, s', laws.trans hmoves hmoves', rfl⟩

end Act

end LoggerAnalyzer
