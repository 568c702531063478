import LoggerAnalyzer.Client.CommandQueue
import LoggerAnalyzer.Client.Handshake
import LoggerAnalyzer.Session.Goodbye

/-!
# A whole session of the C++ client

The worker of the C++ client is greeted, takes one command after another from the queue, looks in
between at what the server sends unasked, and says BYE in the end. `runSession` is what it does on a
connection that is made; what it finds in the queue, each time it looks, is a list.

On a net where nothing goes wrong and nobody cancels, `Steady` carries the proof from one command to
the next: it holds when the client was greeted, each upload of a file that can be read brings it
back, and so does a look at a socket on which nothing has arrived.
-/

namespace LoggerAnalyzer

open Program TcpSession Conversation Act

namespace TransferClient

/-- What the worker finds in the queue when it looks: nothing, once the slice has run out. -/
inductive Found where
  | nothing
  | disconnect
  | upload (file : LocalFile)

section Worker

variable {σ : Type} (link : Link σ)

/-- A frame that is read between two commands. -/
def readIdleFrame : Act σ TransferClient Frame :=
  tryCatch (readFrame link 5000) fun e ↦
    throw (.refused 0 (ascii "connection lost: " ++ e.text))

/-- The loop over what has arrived between two commands. -/
def readIdle : ℕ → Act σ TransferClient Unit
  | 0 => throw .spent
  | fuel + 1 => do
    let readable ← ask link.readable
    if readable then do
      let f ← readIdleFrame link
      if f.header.type = .error then throw (.refused 0 (serverErrorText f.payload))
      else readIdle fuel
    else pure ()

/-- Between two commands. It gives whether the connection is alive. -/
def idle (fuel : ℕ) : Act σ TransferClient Bool :=
  tryCatch (do
    readIdle link fuel
    pure true) fun e ↦
      if e = .spent then throw e
      else do
        keep (fail e.text)
        pure false

/-- The loop over the commands. It gives whether it goes on. -/
def commandLoop (fuel : ℕ) : List Found → Act σ TransferClient Bool
  | [] => pure true
  | .disconnect :: _ => do
    tryCatch (sendEmptyFrameNeverCancel link .bye) fun _ ↦ pure ()
    pure false
  | .upload file :: found => do
    let alive ← doUpload link fuel file
    if alive then commandLoop fuel found else pure false
  | .nothing :: found => do
    let alive ← idle link fuel
    if alive then commandLoop fuel found else pure false

/-- The handshake, and what is shown after it. It gives whether it went well. -/
def greeting (clientName : Bytes) : Act σ TransferClient Bool :=
  tryCatch (do
    let _ ← handshake link clientName
    keep greet
    pure true) fun e ↦ do
      keep (fail e.text)
      pure false

/-- `run_session`, from the handshake on. It gives whether the worker still waits for commands once
it has found these. -/
def runSession (fuel : ℕ) (clientName : Bytes) (found : List Found) :
    Act σ TransferClient Bool := do
  let greeted ← greeting link clientName
  if greeted then do
    let alive ← commandLoop link fuel found
    if alive then pure true
    else do
      keep leave
      pure false
  else pure false

end Worker

end TransferClient

/-! ## The server's end -/

variable {D : Type} [DoubleOps D]

/-- Nothing that is neither sent nor read changes a net between two uploads. -/
theorem Steady.passes {s s' : Net D} (h : Steady s) (hmoves : Net.Moves [] [] s s') :
    Steady s' := by
  obtain ⟨hstarted, ⟨last, hrests⟩, hcalm⟩ := h
  obtain ⟨hserver, hclient⟩ := hmoves.given hrests.toServer
  have hnone : s'.toClient = [] := hclient.symm.trans hrests.toClient
  have hproper : Proper D (.idle last) [] := ⟨fun _ hf ↦ absurd hf List.not_mem_nil, rfl⟩
  obtain ⟨phase, replies, hans, hrests'⟩ := complete_moves hrests hproper hmoves hserver hnone
  obtain ⟨rfl, -⟩ := Machine.Answered.nil_iff.mp hans
  exact ⟨hmoves.started hstarted, ⟨last, hrests'⟩, hmoves.calm hcalm⟩

/-- A BYE was sent between two uploads, and nothing after it. -/
def Parting (s : Net D) : Prop :=
  ∃ s₀, Steady s₀ ∧ Net.Moves (serializeFrame .bye []) [] s₀ s

/-- **A session that gets a BYE closes**, once it has read it, and says nothing to it. -/
theorem Parting.closing {s s' : Net D} (h : Parting s) {bytes : Bytes}
    (hmoves : Net.Moves [] bytes s s') (hserver : s'.toServer = []) :
    s'.session.state = .closing ∧ bytes = [] ∧ s'.toClient = [] := by
  obtain ⟨s₀, ⟨-, ⟨last, hrests⟩, -⟩, hsent⟩ := h
  have hall := hsent.trans hmoves
  rw [List.append_nil, List.nil_append] at hall
  obtain ⟨⟨events, hsmooth, -, hsession, hbytes⟩, ⟨new, houtput, hnew⟩, -, -, -⟩ := hall
  rw [hrests.toServer, hserver, List.nil_append, List.append_nil] at hbytes
  obtain ⟨hclosing, hframes⟩ := closing_of_bye hsmooth hbytes.symm hrests.holds hrests.serving
  rw [← hsession] at hclosing hframes
  have hnone : new = [] := by
    rw [TcpSession.output, TcpSession.output, hframes] at houtput
    exact List.append_right_eq_self.mp houtput.symm
  rw [hnone, hrests.toClient] at hnew
  obtain ⟨hread, hclient⟩ := List.append_eq_nil_iff.mp hnew.symm
  exact ⟨hclosing, hread, hclient⟩

namespace TransferClient

variable {e : Endpoint (Net D) TransferClient}
  {E : Failure → Endpoint (Net D) TransferClient → Prop}

/-! ## One command -/

/-- Nothing has arrived on a net between two uploads. -/
theorem yields_readable (hsteady : Steady e.outside) :
    Yields (ask (Net.link D).readable) e
      (fun readable e' ↦ readable = false ∧ e'.own = e.own ∧ Steady e'.outside) E := by
  refine Yields.modifyGet ?_
  have hpass := hsteady.passes (Net.moves_pass e.outside)
  have hsame : Net.Moves [] [] e.outside ((Net.link D).readable e.outside).2 :=
    Net.laws.readable e.outside
  refine ⟨?_, rfl, hsteady.passes hsame⟩
  obtain ⟨last, hrests⟩ := hpass.rests
  have hnone : decide (e.outside.pass.toClient ≠ []) = false := by simp [hrests.toClient]
  show (e.outside.pass.arrived.head && decide (e.outside.pass.toClient ≠ [])) = false
  rw [hnone, Bool.and_false]

/-- **The worker finds nothing**, and nothing happens. -/
theorem settles_idle (hsteady : Steady e.outside) :
    Settles (fun fuel ↦ idle (Net.link D) fuel) e
      (fun alive e' ↦ alive = true ∧ e'.own = e.own ∧ Steady e'.outside) E := by
  refine Settles.unfailing ?_
  refine Settles.bind (Q := fun _ e' ↦ e'.own = e.own ∧ Steady e'.outside) ?_ ?_
  · refine Settles.succ (fun _ ↦ rfl) ?_
    refine Settles.bind (.of_yields (yields_readable hsteady)) ?_
    rintro _ e' ⟨rfl, hown, hsteady'⟩
    refine Settles.ite (fun hno ↦ absurd hno (by decide)) ?_
    intro _
    exact .of_yields (.pure ⟨hown, hsteady'⟩)
  · rintro _ e' ⟨hown, hsteady'⟩
    exact .of_yields (.pure ⟨rfl, hown, hsteady'⟩)

/-- What is shown once the worker is done with an upload of this file. -/
inductive Shows (D : Type) [DoubleOps D] (file : LocalFile) (c : TransferClient) : Prop where
  | missing (gone : file.size = none) (phase : c.state.phase = .connected) (csv : c.csv = [])
  | report {bytes} (holds : file.Holds bytes) (phase : c.state.phase = .done)
    (reports : Reports D bytes c.csv)

/-- The file is not there, or it can be read to its end. -/
def Unchanging (file : LocalFile) : Prop := file.size = none ∨ ∃ bytes, file.Holds bytes

/-- **The worker finds an upload**, and carries it out. -/
theorem settles_doUpload_shows {file : LocalFile} (hfile : Unchanging file)
    (hsteady : Steady e.outside) :
    Settles (fun fuel ↦ doUpload (Net.link D) fuel file) e
      (fun alive e' ↦ alive = true ∧ Shows D file e'.own ∧ Steady e'.outside) E := by
  rcases hfile with hgone | ⟨bytes, hholds⟩
  · refine Settles.bind (.of_yields (Yields.modify rfl : Yields _ _ (fun _ e' ↦ e' = _) _)) ?_
    rintro _ _ rfl
    rw [hgone]
    refine Settles.bind (.of_yields (Yields.modify rfl : Yields _ _ (fun _ e' ↦ e' = _) _)) ?_
    rintro _ _ rfl
    exact .of_yields <| .pure ⟨rfl, .missing hgone rfl rfl, hsteady⟩
  · refine (settles_doUpload_holds hholds hsteady).mono ?_ fun _ _ h ↦ h
    rintro _ e' ⟨rfl, hphase, hreports, hsteady'⟩
    exact ⟨rfl, .report hholds hphase hreports, hsteady'⟩

/-! ## All of them -/

/-- What the worker finds is no end of the session, and its uploads are of files that can be read.
-/
def Found.Fair : Found → Prop
  | .nothing => True
  | .disconnect => False
  | .upload file => Unchanging file

/-- The upload that was found last. -/
def lastUpload (found : List Found) : Option LocalFile :=
  (found.filterMap fun
    | .upload file => some file
    | _ => none).getLast?

/-- What is shown of the last upload, or what was shown before. -/
def ShowsLast (D : Type) [DoubleOps D] (found : List Found)
    (before after : TransferClient) : Prop :=
  match lastUpload found with
  | none => after = before
  | some file => Shows D file after

private theorem lastUpload_upload (file : LocalFile) (found : List Found) :
    lastUpload (.upload file :: found) = some ((lastUpload found).getD file) := by
  rw [lastUpload, List.filterMap_cons]
  exact List.getLast?_cons

/-- **The worker goes through what it finds.** -/
theorem settles_commandLoop {found : List Found} (hfair : ∀ f ∈ found, f.Fair)
    (hsteady : Steady e.outside) :
    Settles (fun fuel ↦ commandLoop (Net.link D) fuel found) e
      (fun alive e' ↦ alive = true ∧ ShowsLast D found e.own e'.own ∧ Steady e'.outside) E := by
  induction found generalizing e with
  | nil => exact .of_yields (.pure ⟨rfl, rfl, hsteady⟩)
  | cons f found ih =>
    rw [List.forall_mem_cons] at hfair
    obtain ⟨hf, hfair⟩ := hfair
    cases f with
    | nothing =>
      refine Settles.bind (settles_idle hsteady) ?_
      rintro _ e₁ ⟨rfl, hown₁, hsteady₁⟩
      refine Settles.ite (fun _ ↦ ?_) fun hno ↦ absurd rfl hno
      refine (ih hfair hsteady₁).mono ?_ fun _ _ h ↦ h
      rintro _ e' ⟨rfl, hshows, hsteady'⟩
      exact ⟨rfl, hown₁ ▸ hshows, hsteady'⟩
    | disconnect => exact hf.elim
    | upload file =>
      refine Settles.bind (settles_doUpload_shows hf hsteady) ?_
      rintro _ e₁ ⟨rfl, hshows₁, hsteady₁⟩
      refine Settles.ite (fun _ ↦ ?_) fun hno ↦ absurd rfl hno
      refine (ih hfair hsteady₁).mono ?_ fun _ _ h ↦ h
      rintro _ e' ⟨rfl, hshows, hsteady'⟩
      refine ⟨rfl, ?_, hsteady'⟩
      rw [ShowsLast, lastUpload_upload]
      rw [ShowsLast] at hshows
      -- the upload that was found last is this one if there is no other
      cases hlast : lastUpload found with
      | none =>
        rw [hlast] at hshows
        have hsame : e'.own = e₁.own := hshows
        exact hsame ▸ hshows₁
      | some other =>
        rw [hlast] at hshows
        exact hshows

/-- The loop over the commands goes on where it was. -/
theorem commandLoop_append {σ : Type} (link : Link σ) (fuel : ℕ) (found more : List Found) :
    commandLoop link fuel (found ++ more) = commandLoop link fuel found >>= fun alive ↦
      if alive then commandLoop link fuel more else pure false := by
  induction found with
  | nil => rfl
  | cons f found ih =>
    have hrest : ∀ alive,
        (if alive = true then commandLoop link fuel (found ++ more) else pure false)
        = (if alive = true then commandLoop link fuel found else pure false) >>= fun alive ↦
          if alive then commandLoop link fuel more else pure false := by
      intro alive
      cases alive with
      | false => rfl
      | true => exact ih
    cases f with
    | nothing =>
      rw [List.cons_append, commandLoop, commandLoop, bind_assoc]
      exact bind_congr hrest
    | disconnect =>
      rw [List.cons_append, commandLoop, commandLoop, bind_assoc]
      rfl
    | upload file =>
      rw [List.cons_append, commandLoop, commandLoop, bind_assoc]
      exact bind_congr hrest

/-- **A BYE is sent** between two uploads, and the loop over the commands is left. -/
theorem settles_disconnect (hsteady : Steady e.outside) (more : List Found) :
    Settles (fun fuel ↦ commandLoop (Net.link D) fuel (.disconnect :: more)) e
      (fun alive e' ↦ alive = false ∧ e'.own = e.own ∧ Parting e'.outside) E := by
  refine .of_yields (Yields.bind (Q := fun _ e' ↦ e'.own = e.own ∧ Parting e'.outside) ?_ ?_)
  · refine Yields.unfailing ?_
    refine (yields_sendEmptyFrameNeverCancel .bye e).mono ?_ fun _ _ h ↦ h
    rintro _ _ ⟨⟨s, hmoves, rfl⟩, hown, -⟩
    exact ⟨hown, e.outside, hsteady, hmoves⟩
  · rintro _ e' ⟨hown, hparting⟩
    exact .pure ⟨rfl, hown, hparting⟩

variable {config : SessionConfig} {env : Env} {clientName : Bytes} {found : List Found}

/-- The client was greeted, and shows that it is connected. -/
theorem yields_greeting (hfresh : Fresh config env e.outside) :
    Yields (greeting (Net.link D) clientName) e
      (fun greeted e' ↦ greeted = true ∧ e'.own.state.phase = .connected ∧
        e'.own.state.connected = true ∧ Steady e'.outside) E := by
  refine Yields.unfailing ?_
  refine Yields.bind (yields_handshake hfresh) ?_
  rintro _ e₁ ⟨-, hsteady₁⟩
  refine Yields.bind (Yields.modify rfl : Yields _ _ (fun _ e' ↦ e' = _) _) ?_
  rintro _ _ rfl
  exact .pure ⟨rfl, rfl, rfl, hsteady₁⟩

/-- **A session of the C++ client.** With a server that was just started for it, on a net where
nothing goes wrong, every upload that the worker finds is reported as what the file holds. -/
theorem settles_runSession (hfresh : Fresh config env e.outside) (hfair : ∀ f ∈ found, f.Fair) :
    Settles (fun fuel ↦ runSession (Net.link D) fuel clientName found) e
      (fun alive e' ↦ alive = true ∧ Steady e'.outside ∧ ∃ shown : TransferClient,
        shown.state.phase = .connected ∧ shown.state.connected = true ∧
        ShowsLast D found shown e'.own) fun _ _ ↦ False := by
  refine Settles.bind (.of_yields (yields_greeting hfresh)) ?_
  rintro _ e₁ ⟨rfl, hphase, hconnected, hsteady₁⟩
  refine Settles.ite (fun _ ↦ ?_) fun hno ↦ absurd rfl hno
  refine Settles.bind (settles_commandLoop hfair hsteady₁) ?_
  rintro _ e₂ ⟨rfl, hshows, hsteady₂⟩
  refine Settles.ite (fun _ ↦ ?_) fun hno ↦ absurd rfl hno
  exact .of_yields (.pure ⟨rfl, hsteady₂, e₁.own, hphase, hconnected, hshows⟩)

theorem holds_plainFile : plainFile.Holds (ascii "a\n") := by
  refine ⟨rfl, by decide, by decide, rfl, fun i hi ↦ ?_⟩
  obtain rfl : i = 0 := by
    have hlen : (ascii "a\n").length = 2 := rfl
    rw [hlen, kDefaultMaxChunk] at hi
    omega
  exact ⟨rfl, List.prefix_refl _⟩

/-- A client that is connected and has not said anything. -/
def unmetClient : Endpoint (Net ℚ) TransferClient := { outside := unmet, own := ⟨{}, []⟩ }

theorem fair_plainFile : ∀ f ∈ [Found.nothing, .upload plainFile, .nothing], f.Fair := by
  have hupload : (Found.upload plainFile).Fair := .inr ⟨_, holds_plainFile⟩
  simpa using ⟨trivial, hupload, trivial⟩

theorem settles_runSession_one :
    Settles (fun fuel ↦ runSession (Net.link ℚ) fuel (ascii "client")
        [.nothing, .upload plainFile, .nothing]) unmetClient
      (fun alive e' ↦ alive = true ∧ Steady e'.outside ∧ ∃ shown : TransferClient,
        shown.state.phase = .connected ∧ shown.state.connected = true ∧
        ShowsLast ℚ [.nothing, .upload plainFile, .nothing] shown e'.own) fun _ _ ↦ False :=
  settles_runSession (e := unmetClient) fresh_unmet fair_plainFile

/-- The client shows no failure after its last upload. -/
theorem ShowsLast.phase_ne {before after : TransferClient} (h : ShowsLast D found before after)
    (hbefore : before.state.phase ≠ .failed) : after.state.phase ≠ .failed := by
  rw [ShowsLast] at h
  cases hlast : lastUpload found with
  | none =>
    rw [hlast] at h
    exact h ▸ hbefore
  | some file =>
    rw [hlast] at h
    cases h with
    | missing _ hphase => simp [hphase]
    | report _ hphase => simp [hphase]

/-- What is shown at the end of a session that did not fail. -/
theorem leave_of_unfailed {c : TransferClient} (h : c.state.phase ≠ .failed) :
    c.leave = (c.setConnected false).setPhase .idle := if_neg h

/-- **A session of the C++ client that is ended**: the client is idle, it still has the report of
the last upload, and the server's session closes once it has read what is on its way. -/
theorem settles_runSession_disconnect (hfresh : Fresh config env e.outside)
    (hfair : ∀ f ∈ found, f.Fair) (more : List Found) :
    Settles (fun fuel ↦ runSession (Net.link D) fuel clientName (found ++ .disconnect :: more)) e
      (fun alive e' ↦ alive = false ∧ e'.own.state.phase = .idle ∧ e'.own.state.connected = false ∧
        (∀ file, lastUpload found = some file →
          file.size = none ∨ ∃ bytes, file.Holds bytes ∧ Reports D bytes e'.own.csv) ∧
        ∀ bytes s, Net.Moves [] bytes e'.outside s → s.toServer = [] →
          s.session.state = .closing ∧ s.toClient = []) fun _ _ ↦ False := by
  refine Settles.bind (.of_yields (yields_greeting hfresh)) ?_
  rintro _ e₁ ⟨rfl, hphase, hconnected, hsteady₁⟩
  refine Settles.ite (fun _ ↦ ?_) fun hno ↦ absurd rfl hno
  refine Settles.bind (Q := fun alive e' ↦ alive = false ∧ ShowsLast D found e₁.own e'.own ∧
    Parting e'.outside) ?_ ?_
  · -- the uploads before the `disconnect` first, as in a session that is not ended
    refine Settles.of_eq (fun fuel ↦ congrFun (commandLoop_append _ fuel found _) e₁) ?_
    refine Settles.bind (settles_commandLoop hfair hsteady₁) ?_
    rintro _ e₂ ⟨rfl, hshows, hsteady₂⟩
    refine Settles.ite (fun _ ↦ ?_) fun hno ↦ absurd rfl hno
    refine (settles_disconnect hsteady₂ more).mono ?_ fun _ _ h ↦ h
    rintro _ e₃ ⟨rfl, hown, hparting⟩
    exact ⟨rfl, hown ▸ hshows, hparting⟩
  rintro _ e₃ ⟨rfl, hshows, hparting⟩
  refine Settles.ite (fun hno ↦ absurd hno (by decide)) ?_
  intro _
  refine Settles.bind (.of_yields (Yields.modify rfl : Yields _ _ (fun _ e' ↦ e' = _) _)) ?_
  rintro _ _ rfl
  -- the worker has left its loop, and nothing failed
  have hleft := leave_of_unfailed (hshows.phase_ne (by simp [hphase]))
  refine .of_yields (.pure ⟨rfl, ?_, ?_, fun file hlast ↦ ?_, fun bytes s hmoves hserver ↦ ?_⟩)
  · exact congrArg (·.state.phase) hleft
  · exact congrArg (·.state.connected) hleft
  · rw [ShowsLast, hlast] at hshows
    have hcsv : e₃.own.leave.csv = e₃.own.csv := congrArg (·.csv) hleft
    cases hshows with
    | missing hgone => exact .inl hgone
    | report hholds _ hreports => exact .inr ⟨_, hholds, hcsv.symm ▸ hreports⟩
  · obtain ⟨hclosing, -, hclient⟩ := hparting.closing hmoves hserver
    exact ⟨hclosing, hclient⟩

theorem settles_runSession_disconnect_one :
    Settles (fun fuel ↦ runSession (Net.link ℚ) fuel (ascii "client")
        ([.nothing, .upload plainFile, .nothing] ++ .disconnect :: [.nothing])) unmetClient
      (fun alive e' ↦ alive = false ∧ e'.own.state.phase = .idle ∧ e'.own.state.connected = false ∧
        (∀ file, lastUpload [.nothing, .upload plainFile, .nothing] = some file →
          file.size = none ∨ ∃ bytes, file.Holds bytes ∧ Reports ℚ bytes e'.own.csv) ∧
        ∀ bytes s, Net.Moves [] bytes e'.outside s → s.toServer = [] →
          s.session.state = .closing ∧ s.toClient = []) fun _ _ ↦ False :=
  settles_runSession_disconnect (e := unmetClient) fresh_unmet fair_plainFile [.nothing]

end TransferClient

end LoggerAnalyzer
