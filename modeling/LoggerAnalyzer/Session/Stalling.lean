import LoggerAnalyzer.Session.Says
import LoggerAnalyzer.Session.Transport
import LoggerAnalyzer.Stream.System

/-!
# Giving up an upload

A session that is in an upload gives up when no bytes arrive for too long. The timer divides the
time it allows into `kStallTicks` equal slices, and every read starts it anew; the session closes at
the last tick in a row.

## Time

`Timed` puts a session on a clock. The timer fires no earlier than it was started for: once after
its timeout and then, if it repeats, not before another period for each time that it fired already.
How late it fires, and what happens in between, is not limited.

## The remainder

The slices are whole milliseconds. Where the allowance is not a multiple of their number, they do
not add up to it, and the session closes up to two milliseconds early. `patient_iff` says that this
is the only reason.
-/

namespace LoggerAnalyzer

open Conversation

/-- A session and the clock of its loop, in milliseconds: when the timer was started last and how
often it has fired since, and when bytes arrived last. -/
structure Timed (D : Type) where
  session : TcpSession D
  now : ℕ
  armedAt : ℕ
  fired : ℕ
  heardAt : ℕ

namespace Timed

variable {D : Type}

/-- The time before which the timer does not fire, if it is active. -/
def due (x : Timed D) : Option ℕ :=
  match x.session.timer with
  | none => none
  | some (timeout, period) =>
    if x.fired = 0 then some (x.armedAt + timeout)
    else if period = 0 then none
    else some (x.armedAt + timeout + x.fired * period)

/-- What can happen next: a read brings bytes, and the timer fires when it is due. -/
def Offers (x : Timed D) (e : ℕ × TcpSession.Event) : Prop :=
  x.now ≤ e.1 ∧ match e.2 with
    | .read data => data ≠ []
    | .idleTimeout => ∃ time, x.due = some time ∧ time ≤ e.1
    | _ => True

variable [DoubleOps D]

/-- Something happens at a time. A read starts the timer, unless the session is closing. -/
def step (x : Timed D) (e : ℕ × TcpSession.Event) : Timed D :=
  let session := x.session.step e.2
  match e.2 with
  | .read _ =>
    if session.state = .closing then { x with session := session, now := e.1, heardAt := e.1 }
    else { session := session, now := e.1, armedAt := e.1, fired := 0, heardAt := e.1 }
  | .idleTimeout => { x with session := session, now := e.1, fired := x.fired + 1 }
  | _ => { x with session := session, now := e.1 }

/-- A session that was started at time `0`. -/
def start (config : SessionConfig) (env : Env) : Timed D :=
  { session := .start config env, now := 0, armedAt := 0, fired := 0, heardAt := 0 }

/-- The session and its clock. -/
def system (D : Type) [DoubleOps D] (config : SessionConfig) (env : Env) :
    System (Timed D) (ℕ × TcpSession.Event) where
  start := .start config env
  step := step
  offers := Offers

end Timed

/-- A tick of the timer closes the upload for a stall. -/
def TcpSession.Stalls {D : Type} [DoubleOps D] (s : TcpSession D) : Prop :=
  s.state = .uploading ∧ (s.step .idleTimeout).state = .closing

/-- **An upload is not given up early**: in every run, when a tick closes it, no bytes have arrived
for as long as the configuration allows. -/
def Patient (D : Type) [DoubleOps D] (config : SessionConfig) : Prop :=
  ∀ env x, (Timed.system D config env).Reaches x → ∀ time,
    (Timed.system D config env).offers x (time, .idleTimeout) → x.session.Stalls →
    x.heardAt + config.uploadStallTimeoutMs ≤ time

/-! ## What a callback does to the timer -/

namespace TcpSession

variable {D : Type}

/-- The length of a slice. -/
def slice (config : SessionConfig) : ℕ := config.uploadStallTimeoutMs / kStallTicks

private theorem touchIdle_uploading {s : TcpSession D} (h : s.touchIdle.state = .uploading) :
    s.touchIdle.timer = some (slice s.touchIdle.config, slice s.touchIdle.config) ∧
      s.touchIdle.stallTicks = 0 := by
  rw [touchIdle] at h ⊢
  split_ifs at h ⊢ with hclosing hother
  · exact absurd (hclosing.symm.trans h) (by decide)
  · exact absurd h hother
  · exact ⟨rfl, rfl⟩

variable [DoubleOps D]

private theorem run_singleton (s : TcpSession D) (event : Event) :
    s.run [event] = s.step event := rfl

theorem state_close (s : TcpSession D) : s.close.state = .closing := (closes_close s).state

/-- The callbacks that neither read nor fire leave an upload and its timer alone, or end it. -/
theorem step_other {s : TcpSession D} {event : Event} (hread : ∀ data, event ≠ .read data)
    (htick : event ≠ .idleTimeout) (h : (s.step event).state = .uploading) :
    s.state = .uploading ∧ (s.step event).timer = s.timer ∧
      (s.step event).stallTicks = s.stallTicks := by
  have hclose : ∀ {s' : TcpSession D}, s'.close.state ≠ .uploading := fun {s'} ↦ by
    rw [state_close]
    decide
  cases event with
  | read data => exact absurd rfl (hread data)
  | idleTimeout => exact absurd rfl htick
  | readEof => exact absurd h hclose
  | readError => exact absurd h hclose
  | written ok =>
    rw [step, onWrite] at h ⊢
    dsimp only at h ⊢
    split_ifs at h ⊢
    · exact absurd h hclose
    · exact absurd h hclose
    · exact ⟨h, rfl, rfl⟩
  | handleClosed =>
    rw [step, onHandleClosed] at h ⊢
    dsimp only at h ⊢
    split_ifs at h ⊢
    · exact ⟨h, rfl, rfl⟩
    · exact ⟨h, rfl, rfl⟩

/-- A tick in an upload is counted, or it is the last one. -/
theorem onIdleTimeout_uploading {s : TcpSession D} (h : s.state = .uploading) :
    s.onIdleTimeout = { s with stallTicks := s.stallTicks + 1 } ∧ s.stallTicks + 1 < kStallTicks ∨
      s.onIdleTimeout.state = .closing ∧ kStallTicks ≤ s.stallTicks + 1 := by
  rw [onIdleTimeout, if_pos h]
  dsimp only
  split_ifs with hticks
  · exact .inl ⟨rfl, hticks⟩
  · exact .inr ⟨state_close _, Nat.not_lt.mp hticks⟩

end TcpSession

/-! ## The invariant -/

open TcpSession

variable {D : Type} [DoubleOps D] {config : SessionConfig} {env : Env} {x : Timed D}

/-- In an upload the timer runs in slices since the last read, and its ticks were counted. -/
structure Timed.Watched (config : SessionConfig) (x : Timed D) : Prop where
  configured : x.session.config = config
  timer : x.session.state = .uploading → x.session.timer = some (slice config, slice config)
  ticks : x.session.state = .uploading → x.session.stallTicks = x.fired
  armedAt : x.session.state = .uploading → x.armedAt = x.heardAt

namespace Timed

private theorem watched_start : (Timed.start (D := D) config env).Watched config := by
  have hnever : SessionState.awaitHello ≠ .uploading := by decide
  exact ⟨rfl, fun hup ↦ absurd hup hnever, fun hup ↦ absurd hup hnever,
    fun hup ↦ absurd hup hnever⟩

private theorem step_read {data : Bytes} (hopen : (x.session.step (.read data)).state ≠ .closing)
    (time : ℕ) :
    x.step (time, .read data) = ⟨x.session.step (.read data), time, time, 0, time⟩ := by
  rw [Timed.step]
  exact if_neg hopen

theorem Watched.read (h : x.Watched config) (time : ℕ) (data : Bytes) :
    (x.step (time, .read data)).Watched config := by
  have hconfig : (x.session.step (.read data)).config = config :=
    ((Says.refl x.session).step (.read data)).config.trans h.configured
  have harmed : (x.session.step (.read data)).state = .uploading →
      (x.session.step (.read data)).timer = some (slice config, slice config) ∧
        (x.session.step (.read data)).stallTicks = 0 := by
    intro hup
    have htouched : (x.session.step (.read data)).timer
        = some (slice (x.session.step (.read data)).config,
          slice (x.session.step (.read data)).config)
        ∧ (x.session.step (.read data)).stallTicks = 0 := touchIdle_uploading hup
    rwa [hconfig] at htouched
  rw [Timed.step]
  dsimp only
  split_ifs with hclosing
  · have hnever : (x.session.step (.read data)).state ≠ .uploading := by
      rw [hclosing]
      decide
    exact ⟨hconfig, fun hup ↦ absurd hup hnever, fun hup ↦ absurd hup hnever,
      fun hup ↦ absurd hup hnever⟩
  · exact ⟨hconfig, fun hup ↦ (harmed hup).1, fun hup ↦ (harmed hup).2, fun _ ↦ rfl⟩

theorem Watched.tick (h : x.Watched config) (time : ℕ) :
    (x.step (time, .idleTimeout)).Watched config := by
  have hconfig : (x.session.step .idleTimeout).config = config :=
    ((Says.refl x.session).step .idleTimeout).config.trans h.configured
  by_cases hup : x.session.state = .uploading
  · rcases onIdleTimeout_uploading hup with ⟨hticked, -⟩ | ⟨hclosed, -⟩
    · have hsession : (x.step (time, .idleTimeout)).session
          = { x.session with stallTicks := x.session.stallTicks + 1 } := hticked
      refine ⟨hconfig, fun _ ↦ ?_, fun _ ↦ ?_, fun _ ↦ h.armedAt hup⟩
      · rw [hsession]
        exact h.timer hup
      · rw [hsession]
        exact congrArg (· + 1) (h.ticks hup)
    · have hnever : (x.session.step .idleTimeout).state ≠ .uploading := by
        rw [TcpSession.step, hclosed]
        decide
      exact ⟨hconfig, fun hup ↦ absurd hup hnever, fun hup ↦ absurd hup hnever,
        fun hup ↦ absurd hup hnever⟩
  · -- elsewhere a tick does not lead into an upload
    have hnever : (x.session.step .idleTimeout).state ≠ .uploading := by
      rw [TcpSession.step, onIdleTimeout, if_neg hup]
      rcases (sends_send .error _ x.session).state with hsame | hclosed
      · exact fun hstate ↦ hup (hsame.symm.trans hstate)
      · exact fun hstate ↦ absurd (hclosed.symm.trans hstate) (by decide)
    exact ⟨hconfig, fun hup ↦ absurd hup hnever, fun hup ↦ absurd hup hnever,
      fun hup ↦ absurd hup hnever⟩

theorem Watched.other (h : x.Watched config) (time : ℕ) {event : Event}
    (hread : ∀ data, event ≠ .read data) (htick : event ≠ .idleTimeout) :
    (x.step (time, event)).Watched config := by
  have hconfig : (x.session.step event).config = config :=
    ((Says.refl x.session).step event).config.trans h.configured
  have hstep : x.step (time, event) = { x with session := x.session.step event, now := time } := by
    cases event with
    | read data => exact absurd rfl (hread data)
    | idleTimeout => exact absurd rfl htick
    | readEof | readError | written | handleClosed => rfl
  rw [hstep]
  refine ⟨hconfig, fun hup ↦ ?_, fun hup ↦ ?_, fun hup ↦ ?_⟩
  · obtain ⟨hbefore, htimer, -⟩ := step_other hread htick hup
    exact htimer.trans (h.timer hbefore)
  · obtain ⟨hbefore, -, hticks⟩ := step_other hread htick hup
    exact hticks.trans (h.ticks hbefore)
  · exact h.armedAt (step_other hread htick hup).1

/-- **What one event does.** -/
theorem Watched.step (h : x.Watched config) (e : ℕ × Event) : (x.step e).Watched config := by
  obtain ⟨time, event⟩ := e
  cases event with
  | read data => exact h.read time data
  | idleTimeout => exact h.tick time
  | readEof | readError | written ok | handleClosed => exact h.other time (by simp) (by simp)

/-- **What a whole run does.** -/
theorem watched_of_reaches (h : (system D config env).Reaches x) : x.Watched config :=
  h.invariant watched_start fun _ hwatched _ ↦ hwatched.step _

omit [DoubleOps D] in
/-- When the timer of an upload is due: after as many slices as it fired, and one more. -/
theorem Watched.due_eq (h : x.Watched config) (hup : x.session.state = .uploading) :
    x.due = if x.fired ≠ 0 ∧ slice config = 0 then none
      else some (x.heardAt + (x.fired + 1) * slice config) := by
  have hadd : x.heardAt + slice config + x.fired * slice config
      = x.heardAt + (x.fired + 1) * slice config := by
    rw [Nat.succ_mul]
    omega
  rw [Timed.due, h.timer hup, h.armedAt hup]
  dsimp only
  by_cases hfirst : x.fired = 0
  · rw [if_pos hfirst, if_neg fun hnever ↦ hnever.1 hfirst, ← hadd, hfirst, Nat.zero_mul,
      Nat.add_zero]
  · rw [if_neg hfirst, hadd]
    exact if_congr (and_iff_right hfirst).symm rfl rfl

/-- A tick closes an upload if it is the last one. -/
theorem Watched.stalls_iff (h : x.Watched config) (hup : x.session.state = .uploading) :
    x.session.Stalls ↔ kStallTicks ≤ x.fired + 1 := by
  rw [← h.ticks hup, Stalls, TcpSession.step]
  rcases onIdleTimeout_uploading hup with ⟨hticked, hlt⟩ | ⟨hclosed, hle⟩
  · refine ⟨fun hstalls ↦ ?_, fun hle ↦ absurd hlt (Nat.not_lt.mpr hle)⟩
    rw [hticked] at hstalls
    exact absurd (hup.symm.trans hstalls.2) (by decide)
  · exact ⟨fun _ ↦ hle, fun _ ↦ ⟨hup, hclosed⟩⟩

/-- **When an upload is given up**, no bytes have arrived for all of the slices. -/
theorem Watched.slices_le (h : x.Watched config) {time : ℕ}
    (hoffers : x.Offers (time, .idleTimeout))
    (hstalls : x.session.Stalls) : x.heardAt + kStallTicks * slice config ≤ time := by
  have hticks := (h.stalls_iff hstalls.1).mp hstalls
  obtain ⟨-, due, hdue, hle⟩ := hoffers
  rw [h.due_eq hstalls.1] at hdue
  split_ifs at hdue
  obtain rfl := Option.some.inj hdue
  exact Nat.le_trans (Nat.add_le_add_left (Nat.mul_le_mul_right _ hticks) _) hle

/-! ## The earliest end -/

/-- A client that begins an upload. -/
def beginFrames : List (MsgType × Bytes) :=
  [(.hello, helloPayload 1 (ascii "client")),
    (.uploadBegin, uploadBeginPayload 1 (ascii "log.txt"))]

/-- After one read the upload has begun. -/
theorem state_begun (D : Type) [DoubleOps D] (config : SessionConfig) :
    ((Timed.start (D := D) config calmEnv).session.step (.read (wire beginFrames))).state
      = .uploading := by
  have hrun : (service D).run .awaitHello beginFrames = some (.uploading 1 []) := rfl
  have hsmooth : ∀ event ∈ [Event.read (wire beginFrames)], event.smooth = true := by
    simp [Event.smooth]
  have hbytes : [Event.read (wire beginFrames)].flatMap Event.bytes = wire beginFrames := by
    simp [Event.bytes]
  have hserving :
    Serving .awaitHello [] [] (TcpSession.start (D := D) config calmEnv).conversation :=
    serving_start config fun _ ↦ rfl
  obtain ⟨_, -, hserving, -⟩ :=
    serves_run (by decide) hrun hsmooth hbytes FrameDecoder.at_new hserving
  rw [Timed.start, ← run_singleton]
  generalize (TcpSession.start (D := D) config calmEnv).run [.read (wire beginFrames)] = s
    at hserving ⊢
  exact hserving.state_uploading.1

private theorem reaches_read (h : (system D config env).Reaches x) {time : ℕ} (hle : x.now ≤ time)
    {data : Bytes} (hdata : data ≠ []) :
    (system D config env).Reaches (x.step (time, .read data)) :=
  .step (e := (time, Event.read data)) h ⟨hle, hdata⟩

private theorem step_begun {data : Bytes} (hup : (x.session.step (.read data)).state = .uploading)
    (time : ℕ) : (x.step (time, .read data)).session.state = .uploading ∧
      (x.step (time, .read data)).fired = 0 ∧ (x.step (time, .read data)).heardAt = time ∧
      (x.step (time, .read data)).now = time := by
  have hopen : (x.session.step (.read data)).state ≠ .closing := by
    rw [hup]
    decide
  rw [step_read hopen]
  exact ⟨hup, rfl, rfl, rfl⟩

/-- An upload begins, and then each tick comes as early as it can. -/
theorem exists_ticked (config : SessionConfig) (hslice : 0 < slice config) {n : ℕ}
    (hn : n < kStallTicks) : ∃ x, (system D config calmEnv).Reaches x ∧
      x.session.state = .uploading ∧ x.fired = n ∧ x.heardAt = 0 ∧ x.now = n * slice config := by
  induction n with
  | zero =>
    have hdata : wire beginFrames ≠ [] := by decide
    have hstart : (system D config calmEnv).Reaches (Timed.start config calmEnv) := .start
    have hreaches := reaches_read hstart (Nat.le_refl 0) hdata
    obtain ⟨hup, hfired, hheard, hnow⟩ := step_begun (state_begun D config) 0
    exact ⟨_, hreaches, hup, hfired, hheard, hnow.trans (Nat.zero_mul _).symm⟩
  | succ n ih =>
    obtain ⟨x, hreaches, hup, rfl, hheard, hnow⟩ := ih (Nat.lt_of_succ_lt hn)
    have hwatched := watched_of_reaches hreaches
    have hdue := hwatched.due_eq hup
    rw [if_neg fun hnever ↦ Nat.ne_of_gt hslice hnever.2, hheard, Nat.zero_add] at hdue
    have hoffers : x.Offers ((x.fired + 1) * slice config, .idleTimeout) :=
      ⟨hnow ▸ Nat.mul_le_mul_right _ (Nat.le_succ _), _, hdue, Nat.le_refl _⟩
    refine ⟨_, .step hreaches hoffers, ?_, rfl, hheard, rfl⟩
    rcases onIdleTimeout_uploading hup with ⟨hticked, -⟩ | ⟨-, hlast⟩
    · exact (congrArg TcpSession.state hticked).trans hup
    · rw [hwatched.ticks hup] at hlast
      exact absurd hn (Nat.not_lt.mpr hlast)

/-- **The earliest end of an upload** is right after its slices. -/
theorem exists_stall (D : Type) [DoubleOps D] (config : SessionConfig) (hslice : 0 < slice config) :
    ∃ x, (system D config calmEnv).Reaches x ∧ x.heardAt = 0 ∧ x.session.Stalls ∧
      (system D config calmEnv).offers x (kStallTicks * slice config, .idleTimeout) := by
  obtain ⟨x, hreaches, hup, hfired, hheard, hnow⟩ :=
    exists_ticked (D := D) config hslice (n := 2) (by decide)
  have hwatched := watched_of_reaches hreaches
  have hdue := hwatched.due_eq hup
  rw [if_neg fun hnever ↦ Nat.ne_of_gt hslice hnever.2, hheard, hfired, Nat.zero_add] at hdue
  refine ⟨x, hreaches, hheard, (hwatched.stalls_iff hup).mpr (by rw [hfired]; decide), ?_, _, hdue,
    Nat.le_refl _⟩
  rw [hnow]
  exact Nat.mul_le_mul_right _ (by decide)

end Timed

/-- The values of `--upload-timeout` that `parse_args` accepts. -/
def UploadTimeoutInRange (ms : ℕ) : Prop := 1000 ≤ ms ∧ ms ≤ 600000

/-- **No upload is given up early exactly if the allowance is a multiple of three.** -/
theorem patient_iff (D : Type) [DoubleOps D] (config : SessionConfig)
    (hrange : UploadTimeoutInRange config.uploadStallTimeoutMs) :
    Patient D config ↔ 3 ∣ config.uploadStallTimeoutMs := by
  constructor
  · intro h
    have hslice : 0 < slice config := Nat.div_pos (Nat.le_trans (by decide) hrange.1) (by decide)
    obtain ⟨x, hreaches, hheard, hstalls, hoffers⟩ := Timed.exists_stall D config hslice
    have hle := h calmEnv x hreaches _ hoffers hstalls
    rw [hheard, Nat.zero_add] at hle
    exact ⟨slice config, Nat.le_antisymm hle (Nat.mul_div_le _ _)⟩
  · intro hdvd env x hreaches time hoffers hstalls
    have hall := (Timed.watched_of_reaches hreaches).slices_le hoffers hstalls
    rwa [slice, kStallTicks, Nat.mul_div_cancel' hdvd] at hall

/-- With half a minute, no upload is given up early. -/
theorem patient_plain : Patient ℚ plainConfig :=
  (patient_iff ℚ plainConfig ⟨by decide, by decide⟩).mpr (by decide)

/-- With one second, an upload is given up after 999 milliseconds. -/
theorem not_patient_second :
    ¬ ∀ config : SessionConfig, UploadTimeoutInRange config.uploadStallTimeoutMs →
      Patient ℚ config := by
  intro h
  have hslice : 0 < slice { plainConfig with uploadStallTimeoutMs := 1000 } := by decide
  obtain ⟨x, hreaches, hheard, hstalls, hoffers⟩ := Timed.exists_stall ℚ _ hslice
  have hle := h _ ⟨Nat.le_refl 1000, by decide⟩ calmEnv x hreaches _ hoffers hstalls
  rw [hheard] at hle
  exact absurd hle (by decide)

end LoggerAnalyzer
