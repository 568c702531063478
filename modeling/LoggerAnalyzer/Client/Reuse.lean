import LoggerAnalyzer.Client.RunSession

/-!
# A connection of the C# client

The C# client is greeted when it connects, uploads files over the connection, one after another, and
says BYE before it disposes of it. An upload that fails would end this with an exception; none does,
as long as nothing goes wrong on the net and the files can be read.
-/

namespace LoggerAnalyzer

open Program TcpSession Conversation Act

namespace ServerConnection

section Frames

variable {σ : Type} (link : Link σ)

/-- `ConnectAsync`, once the socket is connected. A connection that is not greeted is disposed of.
-/
def connectAsync (clientName : Bytes) : Act σ ServerConnection HelloInfo :=
  tryCatch (handshakeAsync link clientName) fun e ↦ do
    dispose
    throw e

/-- `TrySendByeAsync`. A failure is ignored. -/
def trySendByeAsync : Act σ ServerConnection Unit :=
  tryCatch (sendFrameAsync link true .bye []) fun _ ↦ pure ()

/-- Files are uploaded one after another. -/
def uploadEach (fuel : ℕ) : List LocalFile → Act σ ServerConnection (List AnalyzeResult)
  | [] => pure []
  | file :: files => do
    let result ← uploadAsync link fuel file
    let results ← uploadEach fuel files
    pure (result :: results)

/-- `DisconnectAsync`, as far as it is about the connection. -/
def disconnectAsync : Act σ ServerConnection Unit := do
  trySendByeAsync link
  dispose

/-- A connection from its beginning to its end. -/
def useConnection (fuel : ℕ) (clientName : Bytes) (files : List LocalFile) :
    Act σ ServerConnection (HelloInfo × List AnalyzeResult) := do
  let hello ← connectAsync link clientName
  let results ← uploadEach link fuel files
  disconnectAsync link
  pure (hello, results)

end Frames

variable {D : Type} [DoubleOps D] [PrintsNumbers D] {e : Endpoint (Net D) ServerConnection}
  {E : Failure → Endpoint (Net D) ServerConnection → Prop}

/-- The caller was given the report of these bytes. -/
def Reported (D : Type) [DoubleOps D] (bytes : Bytes) (result : AnalyzeResult) : Prop :=
  ∃ csv, Reports D bytes csv ∧ result.csv = getString csv

/-- **One upload after another**: each is of its own file, whatever was uploaded before. -/
theorem settles_uploadEach {files : List LocalFile} {contents : List Bytes}
    (hholds : List.Forall₂ LocalFile.Holds files contents) (husable : e.own.disposed = false)
    (hsteady : Steady e.outside) :
    Settles (fun fuel ↦ uploadEach (Net.link D) fuel files) e
      (fun results e' ↦ List.Forall₂ (Reported D) contents results ∧ e'.own.disposed = false ∧
        Steady e'.outside) E := by
  induction hholds generalizing e with
  | nil => exact .of_yields (.pure ⟨.nil, husable, hsteady⟩)
  | cons hfile _ ih =>
    refine Settles.bind (settles_uploadAsync_holds hfile husable hsteady) ?_
    rintro result e₁ ⟨hreported, husable₁, hsteady₁⟩
    refine Settles.bind (ih husable₁ hsteady₁) ?_
    rintro results e₂ ⟨hall, husable₂, hsteady₂⟩
    exact .of_yields (.pure ⟨.cons hreported hall, husable₂, hsteady₂⟩)

omit [PrintsNumbers D] in
/-- A BYE is sent, and the connection is disposed of. -/
theorem yields_disconnectAsync (husable : e.own.disposed = false) (hsteady : Steady e.outside) :
    Yields (disconnectAsync (Net.link D)) e
      (fun _ e' ↦ e'.own.disposed = true ∧ Parting e'.outside) E := by
  refine Yields.bind (Q := fun _ e' ↦ Parting e'.outside) ?_ ?_
  · refine Yields.unfailing ?_
    refine (yields_sendFrameAsync husable true .bye []).mono ?_ ?_
    · rintro _ _ ⟨⟨s, hmoves, rfl⟩, -⟩
      exact ⟨e.outside, hsteady, hmoves⟩
    · rintro failure e' (hstop | ⟨-, -, s, hmoves, hset, rfl⟩)
      · exact hstop.of_calm hsteady.calm
      · exact absurd ((hmoves.calm hsteady.calm).symm.trans hset) (by simp)
  · intro _ e' hparting
    exact Yields.modify ⟨rfl, hparting⟩

variable {config : SessionConfig} {env : Env} {clientName : Bytes}

/-- **A connection of the C# client.** The caller knows the session and gets the report of each
file, in order, and the server's session closes once it has read what is on its way. -/
theorem settles_useConnection {files : List LocalFile} {contents : List Bytes}
    (hfresh : Fresh config env e.outside) (husable : e.own.disposed = false)
    (hholds : List.Forall₂ LocalFile.Holds files contents) :
    Settles (fun fuel ↦ useConnection (Net.link D) fuel clientName files) e
      (fun r e' ↦ r.1 = (introduction config).decoded ∧
        List.Forall₂ (Reported D) contents r.2 ∧ e'.own.disposed = true ∧
        ∀ bytes s, Net.Moves [] bytes e'.outside s → s.toServer = [] →
          s.session.state = .closing ∧ s.toClient = []) fun _ _ ↦ False := by
  refine Settles.bind (Q := fun hello e' ↦ hello = (introduction config).decoded ∧
    e'.own.disposed = false ∧ Steady e'.outside) ?_ ?_
  · refine .of_yields (.unfailing ?_)
    exact yields_handshakeAsync hfresh husable
  rintro _ e₁ ⟨rfl, husable₁, hsteady₁⟩
  refine Settles.bind (settles_uploadEach hholds husable₁ hsteady₁) ?_
  rintro results e₂ ⟨hall, husable₂, hsteady₂⟩
  refine Settles.bind (.of_yields (yields_disconnectAsync husable₂ hsteady₂)) ?_
  rintro _ e₃ ⟨hdisposed, hparting⟩
  refine .of_yields (.pure ⟨rfl, hall, hdisposed, fun bytes s hmoves hserver ↦ ?_⟩)
  obtain ⟨hclosing, -, hclient⟩ := hparting.closing hmoves hserver
  exact ⟨hclosing, hclient⟩

/-- A connection that is made, on which nothing was said. -/
def unmetConnection : Endpoint (Net ℚ) ServerConnection := { outside := unmet, own := ⟨{}, false⟩ }

theorem settles_useConnection_twice :
    Settles (fun fuel ↦ useConnection (Net.link ℚ) fuel (ascii "client")
        [TransferClient.plainFile, TransferClient.plainFile]) unmetConnection
      (fun r e' ↦ r.1 = (introduction plainConfig).decoded ∧
        List.Forall₂ (Reported ℚ) [ascii "a\n", ascii "a\n"] r.2 ∧ e'.own.disposed = true ∧
        ∀ bytes s, Net.Moves [] bytes e'.outside s → s.toServer = [] →
          s.session.state = .closing ∧ s.toClient = []) fun _ _ ↦ False :=
  settles_useConnection (e := unmetConnection) fresh_unmet rfl
    (.cons TransferClient.holds_plainFile (.cons TransferClient.holds_plainFile .nil))

end ServerConnection

end LoggerAnalyzer
