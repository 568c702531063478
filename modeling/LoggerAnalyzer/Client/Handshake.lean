import LoggerAnalyzer.Client.Reporting

/-!
# The handshake

A client that is connected sends a HELLO and reads a HELLO_ACK, and then it knows the session by its
number, the largest chunk, its own address as the server sees it, and the server's version. Both
clients do this before anything else.
-/

namespace LoggerAnalyzer

open Program TcpSession Conversation Act

/-- `kClientProtocolVersion`, `Wire.ClientProtocolVersion`. -/
def kClientProtocolVersion : UInt16 := 1

/-- `HelloInfo`, `HelloAck`. -/
structure HelloInfo where
  sessionId : UInt32
  maxChunk : UInt32
  observedPeer : Bytes
  serverVersion : Bytes
deriving DecidableEq, Repr

namespace TransferClient

def helloAckFields : Fields HelloInfo := do
  let sessionId ← field Client.PayloadReader.u32
  let maxChunk ← field Client.PayloadReader.u32
  let observedPeer ← field Client.PayloadReader.str16
  let serverVersion ← field Client.PayloadReader.str16
  pure ⟨sessionId, maxChunk, observedPeer, serverVersion⟩

/-- `handshake`. What the client shows of the HELLO_ACK is what is given back. -/
def handshake {σ : Type} (link : Link σ) (clientName : Bytes) : Act σ TransferClient HelloInfo := do
  keep (setPhase .handshaking)
  sendFrame link .hello (Client.PayloadWriter.u16 kClientProtocolVersion
    ++ Client.PayloadWriter.str16 clientName)
  let f ← readFrame link kIdleTimeoutMs
  if f.header.type = .error then throw (.refused 0 (serverErrorText f.payload))
  if f.header.type ≠ .helloAck then
    throw (.refused 0 (ascii "expected HELLO_ACK but received " ++ msgName f.header.type))
  match helloAckFields (.new f.payload) with
  | none => throw (.refused 0 (ascii "malformed HELLO_ACK payload"))
  | some (hello, _) => do
    keep fun c ↦ { c with state := { c.state with helloValid := true } }
    pure hello

end TransferClient

namespace ServerConnection

def helloAckFields : Fields HelloInfo := do
  let sessionId ← field PayloadReader.u32
  let maxChunk ← field PayloadReader.u32
  let observedPeer ← field str16
  let serverVersion ← field str16
  pure ⟨sessionId, maxChunk, observedPeer, serverVersion⟩

/-- `HandshakeAsync`. -/
def handshakeAsync {σ : Type} (link : Link σ) (clientName : Bytes) :
    Act σ ServerConnection HelloInfo := do
  sendFrameAsync link true .hello (PayloadWriter.u16 kClientProtocolVersion
    ++ PayloadWriter.str16 clientName)
  let f ← readFrameAsync link true
  if f.header.type = .error then throw (serverError f.payload)
  if f.header.type ≠ .helloAck then
    throw (.refused 0 (ascii "expected HELLO_ACK but received " ++ wireName f.header.type))
  match helloAckFields (.new f.payload) with
  | none => throw (.refused 0 (ascii "malformed HELLO_ACK payload"))
  | some (hello, _) => pure hello

end ServerConnection

/-! ## What the session says of itself -/

/-- How the server names itself. -/
def serverName (config : SessionConfig) : Bytes :=
  ascii "Zhenyu_LoggerAnalyzer/" ++ kServerVersion ++ ascii " libuv " ++ config.uvVersion

/-- What a client is to know of the session. A text is cut where its length does not fit. -/
def introduction (config : SessionConfig) : HelloInfo :=
  ⟨config.id, .ofNat kDefaultMaxChunk, config.peer.take 0xFFFF, (serverName config).take 0xFFFF⟩

theorem helloAckPayload_eq {D : Type} (s : TcpSession D) :
    s.helloAckPayload = PayloadWriter.u32 (introduction s.config).sessionId
      ++ (PayloadWriter.u32 (introduction s.config).maxChunk
        ++ (PayloadWriter.str16 (introduction s.config).observedPeer
          ++ (PayloadWriter.str16 (introduction s.config).serverVersion ++ []))) := by
  simp only [TcpSession.helloAckPayload, introduction, serverName, ← str16_take, List.append_assoc,
    List.append_nil]

theorem length_observedPeer_le (config : SessionConfig) :
    (introduction config).observedPeer.length ≤ 0xFFFF := List.length_take_le ..

theorem length_serverVersion_le (config : SessionConfig) :
    (introduction config).serverVersion.length ≤ 0xFFFF := List.length_take_le ..

/-- **A HELLO_ACK is read as it was written.** -/
theorem TransferClient.helloAckFields_eq {D : Type} (s : TcpSession D) :
    ∃ r, TransferClient.helloAckFields (.new s.helloAckPayload) = some (introduction s.config, r) ∧
      r.remaining = 0 := by
  have hgets : Gets Client.PayloadReader.Faces TransferClient.helloAckFields s.helloAckPayload
      (introduction s.config) := by
    rw [helloAckPayload_eq]
    iterate 2 refine (gets_field (Client.PayloadReader.takes_u32 _)).bind ?_
    refine (gets_field (Client.PayloadReader.takes_str16 (length_observedPeer_le _))).bind ?_
    refine (gets_field (Client.PayloadReader.takes_str16 (length_serverVersion_le _))).bind ?_
    exact Gets.pure _
  obtain ⟨r, hr, hat⟩ := hgets.whole (Client.PayloadReader.faces_new _)
  exact ⟨r, hr, hat.remaining⟩

/-- What a text becomes that the C# client reads. -/
theorem ServerConnection.takes_str16_getString {s : Bytes} (hlen : s.length ≤ 0xFFFF) :
    Takes PayloadReader.Faces ServerConnection.str16 (PayloadWriter.str16 s) (getString s) := by
  intro r tail hat
  obtain ⟨r', hr', hat'⟩ := PayloadReader.takes_str16 hlen r tail hat
  exact ⟨r', by rw [str16, hr']; rfl, hat'⟩

/-- What the C# client makes of the texts. -/
def HelloInfo.decoded (hello : HelloInfo) : HelloInfo :=
  { hello with
    observedPeer := getString hello.observedPeer
    serverVersion := getString hello.serverVersion }

theorem ServerConnection.helloAckFields_eq {D : Type} (s : TcpSession D) :
    ∃ r, ServerConnection.helloAckFields (.new s.helloAckPayload)
      = some ((introduction s.config).decoded, r) ∧ r.remaining = 0 := by
  have hgets : Gets PayloadReader.Faces ServerConnection.helloAckFields s.helloAckPayload
      (introduction s.config).decoded := by
    rw [helloAckPayload_eq]
    iterate 2 refine (gets_field (PayloadReader.takes_u32 _)).bind ?_
    refine (gets_field (takes_str16_getString (length_observedPeer_le _))).bind ?_
    refine (gets_field (takes_str16_getString (length_serverVersion_le _))).bind ?_
    exact Gets.pure _
  obtain ⟨r, hr, hat⟩ := hgets.whole (PayloadReader.faces_new _)
  exact ⟨r, hr, hat.remaining⟩

/-! ## The answer -/

variable {D : Type} [DoubleOps D]

/-- A session was just started for a client, which nobody cancels. -/
structure Fresh (config : SessionConfig) (env : Env) (s : Net D) : Prop where
  session : s.session = start config env
  toServer : s.toServer = []
  toClient : s.toClient = []
  calm : s.cancelAfter = none
  fits : env.Fits
  writes : ∀ n, env.uvWrite.get n = true

namespace Fresh

variable {config : SessionConfig} {env : Env} {s : Net D}

theorem started (h : Fresh config env s) : Started s.session :=
  ⟨config, env, [], h.fits, h.writes, fun _ hmem ↦ absurd hmem List.not_mem_nil, h.session⟩

theorem rests (h : Fresh config env s) : Rests .awaitHello s := by
  have hserving := serving_start (D := D) config h.writes
  refine ⟨h.toServer, h.toClient, ?_, ?_⟩
  · rw [h.session]
    exact FrameDecoder.at_new
  · rw [h.session]
    exact ⟨hserving.stands, hserving.writable, hserving.unflagged, rfl⟩

theorem config_eq (h : Fresh config env s) : s.session.config = config := by
  rw [h.session]
  rfl

end Fresh

/-- A session of which nothing is known yet. -/
def unmet : Net ℚ := { greeted with session := start plainConfig (stoppedEnv noon) }

theorem fresh_unmet : Fresh plainConfig (stoppedEnv noon) unmet :=
  ⟨rfl, rfl, rfl, rfl, fits_stoppedEnv noon, fun _ ↦ rfl⟩

/-- The HELLO of a client. -/
def helloFrame (clientName : Bytes) : MsgType × Bytes :=
  (.hello, helloPayload kClientProtocolVersion clientName)

theorem proper_hello (clientName : Bytes) : Proper D .awaitHello [helloFrame clientName] where
  small := by
    intro f hf
    obtain rfl := List.mem_singleton.mp hf
    exact length_helloPayload_le kClientProtocolVersion clientName
  run := by
    have hnext : (service D).next .awaitHello (helloFrame clientName) = some (.idle none) :=
      Phase.next_of_hello (helloFields_of kClientProtocolVersion clientName)
    rw [Machine.run_cons _ hnext, Machine.run_nil]
    rfl

/-- The only thing that comes back for a HELLO is a HELLO_ACK. -/
theorem read_hello {clientName : Bytes} {s₀ s : Net D} (hrests : Rests .awaitHello s₀)
    {type : MsgType} {payload : Bytes}
    (htalk : Talk s₀ [helloFrame clientName] [(type, payload)] s) :
    (∃ t : TcpSession D, t.config = s₀.session.config ∧ type = .helloAck ∧
      payload = t.helloAckPayload) ∧ Rests (.idle none) s := by
  have hproper := proper_hello (D := D) clientName
  have hnext : (service D).next .awaitHello (helloFrame clientName) = some (.idle none) :=
    Phase.next_of_hello (helloFields_of kClientProtocolVersion clientName)
  obtain ⟨hframes, hans, hserving, holds, hahead, hfront, hgiven, hsayable⟩ :=
    served hrests hproper.small hproper.run htalk.moves
  obtain ⟨pending, hall, hpending⟩ :=
    append_of_wire htalk.small (fun f hf ↦ (hsayable f hf).length) hgiven
  rename_i done rest phase replies part q p
  -- a session that has not taken the HELLO has said nothing
  obtain _ | ⟨f, done⟩ := done
  · obtain ⟨-, rfl⟩ := Machine.Answered.nil_iff.mp hans
    obtain rfl : _ = rest := hframes
    cases hfront with
    | frame _ acks =>
      have hnone : part = [] := acks
      rw [hnone] at hall
      cases hall
  · obtain ⟨rfl, hrest⟩ := List.cons.inj hframes
    obtain ⟨rfl, rfl⟩ := List.append_eq_nil_iff.mp hrest.symm
    cases hfront
    obtain ⟨hnext', hanswers⟩ := hans.singleton
    obtain rfl := Option.some.inj (hnext.symm.trans hnext')
    generalize hf : helloFrame clientName = f at hanswers
    obtain @⟨payload', reply⟩ := hanswers
    rw [List.append_nil] at hall hserving
    obtain ⟨hfirst, hnone⟩ := List.cons.inj hall
    obtain ⟨rfl, rfl⟩ := Prod.mk.inj hfirst
    obtain rfl := hnone
    obtain ⟨t, hconfig, hpayload⟩ := (hsayable (.helloAck, reply) (by simp)).helloAck rfl
    obtain ⟨-, hserver⟩ := List.append_eq_nil_iff.mp hahead
    exact ⟨⟨t, hconfig, rfl, hpayload⟩, hserver, hpending, holds, hserving.stands,
      hserving.writable, hserving.unflagged, rfl⟩

/-- Once the session has read a HELLO, there is something to read. -/
theorem awaited_hello {clientName : Bytes} {s₀ s : Net D} (hrests : Rests .awaitHello s₀)
    (htalk : Talk s₀ [helloFrame clientName] [] s) (hserver : s.toServer = []) :
    s.toClient ≠ [] := by
  intro hclient
  have hproper := proper_hello (D := D) clientName
  obtain ⟨phase, replies, hans, -, -, hwire, -⟩ :=
    (served hrests hproper.small hproper.run htalk.moves).complete hproper.small hserver
  rw [hclient] at hwire
  obtain rfl := wire_eq_nil hwire.symm
  generalize hf : helloFrame clientName = f at hans
  obtain ⟨-, hanswers⟩ := hans.singleton
  cases hanswers

/-- **A HELLO is answered**, whatever reader the client has. -/
theorem yields_readHelloAck {κ : Type} {refuse : FrameHeader → Option Failure}
    (hlenient : Lenient refuse) (heeds : Bool) (idleMs idleMs' : ℕ) {clientName : Bytes}
    {e₀ e : Endpoint (Net D) κ} (hrests : Rests .awaitHello e₀.outside)
    (hcalm : e₀.outside.cancelAfter = none) (h : Along e₀ [helloFrame clientName] [] [] e)
    {E : Failure → Endpoint (Net D) κ → Prop} :
    Yields (readFrameWith refuse (recvExactly (Net.link D) heeds idleMs)
        (recvExactly (Net.link D) heeds idleMs')) e
      (fun f e' ↦ ∃ (t : TcpSession D) (s : Net D), t.config = e₀.outside.session.config ∧
        f = ⟨frameHeader .helloAck t.helloAckPayload, t.helloAckPayload⟩ ∧ e' = e.onto s ∧
        Talk e₀.outside [helloFrame clientName] [(.helloAck, t.helloAckPayload)] s ∧
        Rests (.idle none) s) E := by
  have hproper := proper_hello (D := D) clientName
  refine (yields_readFrame hlenient heeds idleMs idleMs' hrests hproper.small hproper.run
    h.talk).mono ?_ ?_
  · rintro f _ ⟨type, payload, s, rfl, rfl, htalk, -⟩
    obtain ⟨⟨t, hconfig, rfl, rfl⟩, hrests'⟩ := read_hello hrests htalk
    exact ⟨t, s, hconfig, rfl, rfl, htalk, hrests'⟩
  · rintro failure e' (hint | ⟨ms, s, rfl, rfl, hmoves, hserver, hclient⟩)
    · obtain ⟨-, -, n, hseen⟩ := h.seen_of_interrupted hint.interrupted
      exact absurd hcalm hseen.set
    · exact absurd hclient (awaited_hello hrests (h.passes hmoves).talk hserver)

variable {config : SessionConfig} {env : Env} {clientName : Bytes}

/-- **The C++ client is greeted**, and knows the session. -/
theorem TransferClient.yields_handshake {e : Endpoint (Net D) TransferClient}
    (hfresh : Fresh config env e.outside) {E : Failure → Endpoint (Net D) TransferClient → Prop} :
    Yields (handshake (Net.link D) clientName) e
      (fun hello e' ↦ hello = introduction config ∧ Steady e'.outside) E := by
  have hcalm := hfresh.calm
  refine Yields.bind ((Along.refl e).keep (setPhase .handshaking)) ?_
  rintro _ e₁ ⟨h₁, -, -⟩
  rw [Client.PayloadWriter.str16_eq]
  refine Yields.bind ((yields_sendFrame _ _ _).mono (fun _ _ h ↦ h) fun failure e' hstop ↦ ?_) ?_
  · obtain ⟨-, -, n, hseen⟩ := h₁.seen_of_sendStopped hstop
    exact absurd hcalm hseen.set
  rintro _ e₂ ⟨hsent, -⟩
  have h₂ : Along e [helloFrame clientName] [] [] e₂ := h₁.sentFrame hsent
  refine Yields.bind (yields_readHelloAck lenient_refuse true _ _ hfresh.rests hcalm h₂) ?_
  rintro f _ ⟨t, s, hconfig, rfl, rfl, htalk, hrests⟩
  have herror : MsgType.helloAck ≠ .error := by decide
  refine Yields.failIf (fun hbad ↦ absurd hbad herror) ?_
  intro _
  refine Yields.failIf (fun hbad ↦ absurd rfl hbad) ?_
  intro _
  obtain ⟨r, hfields, -⟩ := helloAckFields_eq t
  rw [hconfig, hfresh.config_eq] at hfields
  simp only [hfields]
  refine Yields.bind (Yields.modify rfl : Yields _ _ (fun _ e' ↦ e' = _) _) ?_
  rintro _ _ rfl
  exact ⟨rfl, htalk.moves.started hfresh.started, ⟨_, hrests⟩, htalk.moves.calm hcalm⟩

/-- **The C# client is greeted**, and knows the session. -/
theorem ServerConnection.yields_handshakeAsync {e : Endpoint (Net D) ServerConnection}
    (hfresh : Fresh config env e.outside) (husable : e.own.disposed = false)
    {E : Failure → Endpoint (Net D) ServerConnection → Prop} :
    Yields (handshakeAsync (Net.link D) clientName) e
      (fun hello e' ↦ hello = (introduction config).decoded ∧ e'.own.disposed = false ∧
        Steady e'.outside) E := by
  have hcalm := hfresh.calm
  refine Yields.bind ((yields_sendFrameAsync_true husable (.refl e) _ _).mono (fun _ _ h ↦ h)
    fun failure e' hstop ↦ ?_) ?_
  · obtain ⟨-, -, part, hsevered⟩ := hstop
    exact absurd hcalm hsevered.set
  rintro _ e₁ ⟨h₁, hown₁⟩
  have h₁ : Along e [helloFrame clientName] [] [] e₁ := h₁
  have husable₁ : e₁.own.disposed = false := hown₁ ▸ husable
  refine Yields.bind (Q := fun f e' ↦ ∃ (t : TcpSession D) (s : Net D),
    t.config = e.outside.session.config ∧
    f = ⟨frameHeader .helloAck t.helloAckPayload, t.helloAckPayload⟩ ∧ e' = e₁.onto s ∧
    Talk e.outside [helloFrame clientName] [(.helloAck, t.helloAckPayload)] s ∧
    Rests (.idle none) s) ?_ ?_
  · rw [Yields, readFrameAsync_eq (Net.link D) true husable₁]
    exact yields_readHelloAck lenient_refuse true _ _ hfresh.rests hcalm h₁
  rintro f _ ⟨t, s, hconfig, rfl, rfl, htalk, hrests⟩
  have herror : MsgType.helloAck ≠ .error := by decide
  refine Yields.failIf (fun hbad ↦ absurd hbad herror) ?_
  intro _
  refine Yields.failIf (fun hbad ↦ absurd rfl hbad) ?_
  intro _
  obtain ⟨r, hfields, -⟩ := helloAckFields_eq t
  rw [hconfig, hfresh.config_eq] at hfields
  simp only [hfields]
  exact Yields.pure ⟨rfl, husable₁, htalk.moves.started hfresh.started, ⟨_, hrests⟩,
    htalk.moves.calm hcalm⟩

end LoggerAnalyzer
