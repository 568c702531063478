import LoggerAnalyzer.Client.TransferClient
import LoggerAnalyzer.Stream.Paired

/-!
# The client on two links

`LinksFollow` says of two links that each thing a client asks of them, and each thing it does of its
own, follows. Then a whole upload on the one follows the upload on the other. The proof goes along
the text of the client, and knows nothing of the links and of how the endpoints are related.
-/

namespace LoggerAnalyzer

open Program

variable {σ σ' κ : Type}

/-- Whatever a client does on the one link, it does on the other, or the two have parted. -/
structure LinksFollow (R S : Endpoint σ κ → Endpoint σ' κ → Prop) (link : Link σ)
    (link' : Link σ') : Prop where
  load : Follows R S (Act.load link) (Act.load link')
  pauses : Follows R S (Act.ask link.pauses) (Act.ask link'.pauses)
  send : ∀ data, Follows R S (Act.ask (link.send data)) (Act.ask (link'.send data))
  recv : ∀ n, Follows R S (Act.ask (link.recv n)) (Act.ask (link'.recv n))
  readable : Follows R S (Act.ask link.readable) (Act.ask link'.readable)
  now : Follows R S (Act.ask link.now) (Act.ask link'.now)
  keep : ∀ f, Follows R S (Act.keep f) (Act.keep f)
  mark : ∀ site, Follows R S (Act.mark site) (Act.mark site)
  wrote : ∀ data, Follows R S (modify (.wrote data) : Act σ κ PUnit) (modify (.wrote data))
  complete : ∀ type payload, Follows R S (modify (.complete type payload) : Act σ κ PUnit)
    (modify (.complete type payload))

namespace LinksFollow

variable {R S : Endpoint σ κ → Endpoint σ' κ → Prop} {link : Link σ} {link' : Link σ'}

/-! ## Sending and receiving -/

section Calls

variable (h : LinksFollow R S link link') (heeds : Bool)
include h

theorem check : Follows R S (Act.check link heeds) (Act.check link' heeds) :=
  .ite (fun _ ↦ .bind h.load fun _ ↦ .ite (fun _ ↦ .throw _) fun _ ↦ .pure _) fun _ ↦ .pure _

theorem rounds (n : ℕ) : Follows R S (Act.rounds link heeds n) (Act.rounds link' heeds n) := by
  induction n with
  | zero => exact h.check heeds
  | succ n ih => exact .bind (h.check heeds) fun _ ↦ ih

theorem pause : Follows R S (Act.pause link heeds) (Act.pause link' heeds) :=
  .bind h.pauses fun n ↦ h.rounds heeds n

theorem sendLoop (stallMs fuel : ℕ) (data : Bytes) :
    Follows R S (Act.sendLoop link heeds stallMs fuel data)
      (Act.sendLoop link' heeds stallMs fuel data) := by
  induction fuel generalizing data with
  | zero => exact .pure _
  | succ fuel ih =>
    rw [Act.sendLoop, Act.sendLoop]
    refine .ite (fun _ ↦ .pure _) fun _ ↦ .bind (h.pause heeds) fun _ ↦ .bind (h.send data) ?_
    rintro (more | _ | why)
    · exact .bind (h.wrote _) fun _ ↦ ih _
    · exact .throw _
    · exact .throw _

theorem sendAll (stallMs : ℕ) (data : Bytes) :
    Follows R S (Act.sendAll link heeds stallMs data) (Act.sendAll link' heeds stallMs data) :=
  h.sendLoop heeds stallMs data.length data

theorem recvLoop (idleMs len fuel : ℕ) (got : Bytes) :
    Follows R S (Act.recvLoop link heeds idleMs len fuel got)
      (Act.recvLoop link' heeds idleMs len fuel got) := by
  induction fuel generalizing got with
  | zero => exact .pure _
  | succ fuel ih =>
    rw [Act.recvLoop, Act.recvLoop]
    refine .ite (fun _ ↦ .pure _) fun _ ↦ .bind (h.pause heeds) fun _ ↦ .bind (h.recv _) ?_
    rintro (⟨first, more⟩ | _ | _ | why)
    · exact ih _
    · exact .throw _
    · exact .throw _
    · exact .throw _

theorem readFrameWith (refuse : FrameHeader → Option Failure) (idleMs idleMs' : ℕ) :
    Follows R S
      (Act.readFrameWith refuse (Act.recvExactly link heeds idleMs)
        (Act.recvExactly link heeds idleMs'))
      (Act.readFrameWith refuse (Act.recvExactly link' heeds idleMs)
        (Act.recvExactly link' heeds idleMs')) := by
  refine .bind (h.recvLoop heeds idleMs kHeaderSize kHeaderSize []) ?_
  intro head
  dsimp only
  cases refuse (decodeHeader head) with
  | some e => exact .throw _
  | none => exact .bind (h.recvLoop heeds idleMs' _ _ []) fun _ ↦ .pure _

end Calls

end LinksFollow

namespace TransferClient

variable {R S : Endpoint σ TransferClient → Endpoint σ' TransferClient → Prop} {link : Link σ}
  {link' : Link σ'} (h : LinksFollow R S link link')
include h

/-! ## Frames -/

theorem follows_sendFrame (type : MsgType) (payload : Bytes) :
    Follows R S (sendFrame link type payload) (sendFrame link' type payload) := by
  refine .bind (h.sendAll true _ _) fun _ ↦ .ite (fun _ ↦ ?_) fun _ ↦ h.complete type payload
  exact .bind (h.sendAll true _ _) fun _ ↦ h.complete type payload

theorem follows_readFrame (idleMs : ℕ) :
    Follows R S (readFrame link idleMs) (readFrame link' idleMs) :=
  h.readFrameWith true _ _ _

/-! ## Cancelling -/

theorem follows_awaitCancelAck (deadline fuel : ℕ) :
    Follows R S (awaitCancelAck link deadline fuel) (awaitCancelAck link' deadline fuel) := by
  induction fuel with
  | zero => exact .throw _
  | succ fuel ih =>
    refine .bind h.now fun now ↦ .ite (fun _ ↦ .bind h.now fun left ↦ ?_) fun _ ↦ .pure _
    exact .bind (h.readFrameWith false _ _ _) fun f ↦ .ite (fun _ ↦ .pure _) fun _ ↦ ih

theorem follows_sendCancelAndWait (fuel : ℕ) :
    Follows R S (sendCancelAndWait link fuel) (sendCancelAndWait link' fuel) := by
  refine .tryCatch (.bind (.bind (h.sendAll false _ _) fun _ ↦ h.complete _ _) fun _ ↦
    .bind h.now fun now ↦ follows_awaitCancelAck h _ fuel) fun e ↦ ?_
  exact .ite (fun _ ↦ .throw _) fun _ ↦ .pure _

theorem follows_cancelUpload (fuel : ℕ) :
    Follows R S (cancelUpload link fuel) (cancelUpload link' fuel) :=
  .bind (follows_sendCancelAndWait h fuel) fun _ ↦ h.keep _

/-! ## The upload -/

theorem follows_drain (fuel : ℕ) : Follows R S (drain link fuel) (drain link' fuel) := by
  induction fuel with
  | zero => exact .throw _
  | succ fuel ih =>
    refine .bind h.readable fun readable ↦ .ite (fun _ ↦ ?_) fun _ ↦ .pure _
    refine .bind (h.mark _) fun _ ↦ .bind (follows_readFrame h _) fun f ↦ ?_
    refine .ite (fun _ ↦ .bind (h.keep _) fun _ ↦ ih) ?_
    intro _
    exact .ite (fun _ ↦ .bind (.throw _) fun _ ↦ ih) fun _ ↦ ih

theorem follows_sendChunk (fuel : ℕ) (bytes : Bytes) :
    Follows R S (sendChunk link fuel bytes) (sendChunk link' fuel bytes) := by
  refine .tryCatch (.bind (h.sendAll true _ _) fun _ ↦ .bind (h.complete _ _) fun _ ↦ .pure _)
    fun e ↦ .bind h.load fun cancel ↦ .ite (fun _ ↦ ?_) fun _ ↦ .throw _
  exact .bind (follows_cancelUpload h fuel) fun _ ↦ .pure _

theorem follows_chunkLoop (total chunkSize fuel : ℕ) (file : InputFile) (sent : ℕ) :
    Follows R S (chunkLoop link total chunkSize fuel file sent)
      (chunkLoop link' total chunkSize fuel file sent) := by
  induction fuel generalizing file sent with
  | zero => exact .throw _
  | succ fuel ih =>
    refine .bind (h.mark _) fun _ ↦ .bind h.load fun cancel ↦
      .ite (fun _ ↦ .bind (follows_cancelUpload h fuel) fun _ ↦ .pure _) fun _ ↦
        .ite (fun _ ↦ .pure _) fun _ ↦ ?_
    generalize file.read (min chunkSize (total - sent)) = r
    obtain ⟨bytes, file⟩ := r
    refine .ite (fun _ ↦ .pure _) fun _ ↦ .bind (h.mark _) fun _ ↦
      .bind (follows_sendChunk h fuel bytes) fun done ↦ .ite (fun _ ↦ ?_) fun _ ↦ .pure _
    exact .bind (follows_drain h fuel) fun _ ↦ .bind (h.keep _) fun _ ↦ ih _ _

theorem follows_awaitAnalysis (fuel : ℕ) :
    Follows R S (awaitAnalysis link fuel) (awaitAnalysis link' fuel) := by
  induction fuel with
  | zero => exact .throw _
  | succ fuel ih =>
    refine .bind (h.mark _) fun _ ↦ .bind h.load fun cancel ↦
      .ite (fun _ ↦ .bind (follows_cancelUpload h fuel) fun _ ↦ .pure _) fun _ ↦ ?_
    refine .bind (h.mark _) fun _ ↦ .bind (follows_readFrame h _) fun f ↦ ?_
    refine .ite (fun _ ↦ .bind (h.keep _) fun _ ↦ ih) fun _ ↦ .ite (fun _ ↦ .throw _) fun _ ↦
      .ite (fun _ ↦ ?_) fun _ ↦ .throw _
    cases analyzeDoneFields (.new f.payload) with
    | none => exact .throw _
    | some d => exact .bind (h.keep _) fun _ ↦ .pure _

theorem follows_receiveChunks (declared fuel : ℕ) (csv : Bytes) :
    Follows R S (receiveChunks link declared fuel csv)
      (receiveChunks link' declared fuel csv) := by
  induction fuel generalizing csv with
  | zero => exact .throw _
  | succ fuel ih =>
    refine .bind (follows_readFrame h _) fun f ↦ .ite (fun _ ↦ ?_) fun _ ↦
      .ite (fun _ ↦ .pure _) fun _ ↦ .ite (fun _ ↦ .throw _) fun _ ↦ .throw _
    exact .ite (fun _ ↦ .throw _) fun _ ↦ ih _

theorem follows_receiveResult (fuel : ℕ) (expectedSize : UInt64) :
    Follows R S (receiveResult link fuel expectedSize) (receiveResult link' fuel expectedSize) := by
  rw [receiveResult, receiveResult]
  refine .failIf ?_
  refine .bind (follows_readFrame h _) ?_
  intro begin
  refine .failIf ?_
  refine .failIf ?_
  cases (Client.PayloadReader.new begin.payload).u64.1 with
  | none => exact .throw _
  | some declared =>
    refine .failIf ?_
    refine .bind (follows_receiveChunks h _ fuel []) ?_
    intro csv
    refine .failIf ?_
    exact h.keep _

theorem follows_beginUpload (total : UInt64) (name : Bytes) :
    Follows R S (beginUpload link total name) (beginUpload link' total name) := by
  refine .bind (h.mark _) fun _ ↦ .bind (follows_sendFrame h _ _) fun _ ↦ .bind (h.mark _) fun _ ↦
    .bind (follows_readFrame h _) fun ack ↦ ?_
  refine .failIf ?_
  refine .failIf ?_
  cases beginAckFields (.new ack.payload) with
  | none => exact .throw _
  | some fields => exact .pure _

theorem follows_upload (fuel : ℕ) (file : LocalFile) (total : UInt64) :
    Follows R S (upload link fuel file total) (upload link' fuel file total) := by
  refine .bind (follows_beginUpload h total file.name) fun ⟨chunkSize, names⟩ ↦
    .bind (h.keep _) fun _ ↦ .failIf ?_
  refine .bind (follows_chunkLoop h _ chunkSize fuel _ 0) ?_
  intro r
  cases r with
  | cancelled => exact .pure _
  | ended sent bad =>
    refine .ite (fun _ ↦ .bind (follows_sendCancelAndWait h fuel) fun _ ↦
      .bind (h.keep _) fun _ ↦ .pure _) fun _ ↦ ?_
    refine .bind (h.mark _) fun _ ↦ .bind (follows_sendFrame h _ _) fun _ ↦
      .bind (h.keep _) fun _ ↦ .bind (follows_awaitAnalysis h fuel) fun r ↦ ?_
    cases r with
    | none => exact .pure _
    | some csvSize =>
      exact .bind (h.keep _) fun _ ↦ .bind (h.mark _) fun _ ↦
        .bind (follows_receiveResult h fuel csvSize) fun _ ↦ .bind (h.keep _) fun _ ↦ .pure _

/-- **An upload on the one link follows the upload on the other.** -/
theorem follows_doUpload (fuel : ℕ) (file : LocalFile) :
    Follows R S (doUpload link fuel file) (doUpload link' fuel file) := by
  refine .bind (h.keep _) ?_
  intro _
  cases file.size with
  | none => exact .bind (h.keep _) fun _ ↦ .pure _
  | some total =>
    refine .tryCatch (follows_upload h fuel file total) ?_
    intro e
    exact .ite (fun _ ↦ .throw _) fun _ ↦ .bind (h.keep _) fun _ ↦ .pure _

end TransferClient

end LoggerAnalyzer
