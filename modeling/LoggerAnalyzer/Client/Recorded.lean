import LoggerAnalyzer.Client.Paired

/-!
# What the outside answers

`Link.recorded` is a link that writes down what it answers: whether the flag is set, and whether the
socket takes all of what it is offered. The client does on it what it does on the link itself, which
is `doUpload_recorded`. So the list says what happened to the client; the client knows nothing of
it.

`Unbroken` is about such a list: whenever the socket has taken a part of what it was offered, it
also takes the rest, before the flag is seen and before a call fails.
-/

namespace LoggerAnalyzer

open Program

variable {σ κ : Type}

/-! ## Links that write down what they answer -/

/-- The flag is set or not; the socket takes all of what it is offered or a part of it, or the call
fails. -/
inductive Answer where
  | flag (seen : Bool)
  | took (all : Bool)
  | refused
deriving DecidableEq, Repr

/-- What is written down when the socket is offered `data`. -/
def SendAnswer.toAnswer (data : Bytes) : SendAnswer → Answer
  | took more => .took (decide (data.length ≤ more + 1))
  | stalled => .refused
  | failed _ => .refused

/-- The same outside, with what it answers written down. -/
def Link.recorded (link : Link σ) : Link (σ × List Answer) where
  flag site s :=
    let answer := link.flag site s.1
    (answer.1, answer.2, s.2 ++ [.flag answer.1])
  pauses s := ((link.pauses s.1).1, (link.pauses s.1).2, s.2)
  send data s :=
    let answer := link.send data s.1
    (answer.1, answer.2, s.2 ++ [answer.1.toAnswer data])
  recv n s := ((link.recv n s.1).1, (link.recv n s.1).2, s.2)
  readable s := ((link.readable s.1).1, (link.readable s.1).2, s.2)
  now s := ((link.now s.1).1, (link.now s.1).2, s.2)

namespace Endpoint

/-- The endpoint on a link that has written down `answers`. -/
def recording (answers : List Answer) (e : Endpoint σ κ) : Endpoint (σ × List Answer) κ where
  outside := (e.outside, answers)
  own := e.own
  here := e.here
  written := e.written
  sent := e.sent
  noticed := e.noticed

/-- The endpoint `e'` is `e`, but for what was written down. -/
def Recorded (e : Endpoint σ κ) (e' : Endpoint (σ × List Answer) κ) : Prop :=
  e' = e.recording e'.outside.2

end Endpoint

/-- **Writing the answers down changes nothing.** -/
theorem linksFollow_recorded (link : Link σ) :
    LinksFollow (κ := κ) Endpoint.Recorded (fun _ _ ↦ False) link link.recorded where
  load := by
    refine .bind (.modifyGet ?_ (fun _ _ ↦ id) fun _ _ ↦ id) fun seen ↦ .ite (fun _ ↦ ?_) fun _ ↦
      .pure _
    · intro e e' h
      rw [h]
      exact ⟨rfl, rfl⟩
    · refine .bind (.modify ?_ (fun _ _ ↦ id) fun _ _ ↦ id) fun _ ↦ .pure _
      intro e e' h
      rw [h]
      rfl
  pauses := .modifyGet (fun e e' h ↦ by rw [h]; exact ⟨rfl, rfl⟩) (fun _ _ ↦ id) fun _ _ ↦ id
  send _ := .modifyGet (fun e e' h ↦ by rw [h]; exact ⟨rfl, rfl⟩) (fun _ _ ↦ id) fun _ _ ↦ id
  recv _ := .modifyGet (fun e e' h ↦ by rw [h]; exact ⟨rfl, rfl⟩) (fun _ _ ↦ id) fun _ _ ↦ id
  readable := .modifyGet (fun e e' h ↦ by rw [h]; exact ⟨rfl, rfl⟩) (fun _ _ ↦ id) fun _ _ ↦ id
  now := .modifyGet (fun e e' h ↦ by rw [h]; exact ⟨rfl, rfl⟩) (fun _ _ ↦ id) fun _ _ ↦ id
  keep _ := .modify (fun e e' h ↦ by rw [h]; rfl) (fun _ _ ↦ id) fun _ _ ↦ id
  mark _ := .modify (fun e e' h ↦ by rw [h]; rfl) (fun _ _ ↦ id) fun _ _ ↦ id
  wrote _ := .modify (fun e e' h ↦ by rw [h]; rfl) (fun _ _ ↦ id) fun _ _ ↦ id
  complete _ _ := .modify (fun e e' h ↦ by rw [h]; rfl) (fun _ _ ↦ id) fun _ _ ↦ id

/-- The upload on a link is the upload on the link that writes its answers down. -/
theorem TransferClient.doUpload_recorded (link : Link σ) {fuel : ℕ} {file : LocalFile}
    {e e' : Endpoint σ TransferClient} {kept : Bool}
    (hrun : doUpload link fuel file e = .ok kept e') :
    ∃ answers, doUpload link.recorded fuel file (e.recording [])
      = .ok kept (e'.recording answers) := by
  have hagree := (follows_doUpload (linksFollow_recorded link) fuel file).agree e
    (e.recording []) rfl
  rw [hrun] at hagree
  cases hrun' : doUpload link.recorded fuel file (e.recording []) with
  | ok kept' t =>
    rw [hrun'] at hagree
    obtain ⟨rfl, ht⟩ | hnever := hagree
    · exact ⟨t.outside.2, congrArg _ ht⟩
    · exact hnever.elim
  | error f t =>
    rw [hrun'] at hagree
    exact hagree.elim

/-! ## Frames that are taken to their end -/

/-- What the answers leave of the frame that is being sent: nothing, a part after which the rest may
still come, or a part after which it does not. -/
inductive Standing where
  | whole
  | torn
  | broken
deriving DecidableEq, Repr

namespace Standing

def after : Standing → Answer → Standing
  | whole, .took false => torn
  | torn, .took true => whole
  | torn, .flag true => broken
  | torn, .refused => broken
  | standing, _ => standing

/-- The rest of the frame was taken. -/
def finished : Standing → Standing
  | broken => broken
  | _ => whole

/-- The frame was given up, after `part` of what was left of it. -/
def givenUp (part : Bytes) : Standing → Standing
  | whole => if part = [] then whole else broken
  | _ => broken

theorem after_unseen (standing : Standing) : standing.after (.flag false) = standing := by
  cases standing <;> rfl

theorem after_seen (standing : Standing) :
    standing.after (.flag true) = standing.givenUp [] := by
  cases standing <;> rfl

theorem after_refused (standing : Standing) : standing.after .refused = standing.givenUp [] := by
  cases standing <;> rfl

theorem after_took_all (standing : Standing) :
    standing.after (.took true) = standing.finished := by
  cases standing <;> rfl

theorem finished_finished (standing : Standing) :
    standing.finished.finished = standing.finished := by
  cases standing <;> rfl

theorem finished_after_took (standing : Standing) (all : Bool) :
    (standing.after (.took all)).finished = standing.finished := by
  cases standing <;> cases all <;> rfl

/-- A part was taken, so that the frame cannot be given up any more. -/
theorem givenUp_after_took (standing : Standing) (part : Bytes) {piece : Bytes} (h : piece ≠ []) :
    (standing.after (.took false)).givenUp part = standing.givenUp (piece ++ part) := by
  cases standing with
  | whole =>
    have hne : piece ++ part ≠ [] := fun hnil ↦ h (List.append_eq_nil_iff.mp hnil).1
    exact (if_neg hne).symm
  | torn => rfl
  | broken => rfl

end Standing

/-- Whenever a part was taken, the rest is taken before the flag is seen or a call fails. -/
def Unbroken (answers : List Answer) : Prop := answers.foldl Standing.after .whole ≠ .broken

instance (answers : List Answer) : Decidable (Unbroken answers) :=
  inferInstanceAs (Decidable (_ ≠ _))

end LoggerAnalyzer
