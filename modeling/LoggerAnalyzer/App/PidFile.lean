import LoggerAnalyzer.App.Config
import LoggerAnalyzer.Stream.System

/-!
# The pid file

A daemon takes a lock on its pid file and writes its pid into it, so that no second one is started.
`PidFiles` are the processes of a machine that do this with one path, and the file system as far as
they see it; each step is one system call of one of them, in any order.

The lock is on the file that was opened, and not on the path. A daemon that ends removes the path
before it gives the lock back, and another may have opened the file just before: it then gets the
lock of a file that is no longer there, and a third one finds no file and makes its own. `exclusive`
says that this is all that can go wrong, and `twoHold` that it does.

A process that is turned away reads a pid out of the file. `named` says that it is the pid of one
that had the lock, if not of one that has it.
-/

namespace LoggerAnalyzer

/-- Where a process is with the file, and which file it is. -/
inductive Stage where
  | out
  | opened (inode : ℕ)
  | locked (inode : ℕ)
  | cleared (inode : ℕ)
  | holding (inode : ℕ)
  | unlinked (inode : ℕ)
  | busy (inode : ℕ)
  | refused (err : Bytes)
deriving DecidableEq, Repr

namespace Stage

/-- The file that the process has a lock on. -/
def lock : Stage → Option ℕ
  | locked i | cleared i | holding i | unlinked i => some i
  | out | opened _ | busy _ | refused _ => none

/-- The file that the process has open. -/
def file : Stage → Option ℕ
  | opened i | locked i | cleared i | holding i | unlinked i | busy i => some i
  | out | refused _ => none

/-- The file that an instance runs on: it has acquired it and not begun to give it back. -/
def runsOn : Stage → Option ℕ
  | locked i | cleared i | holding i => some i
  | out | opened _ | unlinked _ | busy _ | refused _ => none

/-- The file that a process counts on to be the one at the path. -/
def needs : Stage → Option ℕ
  | opened i | locked i | cleared i | holding i => some i
  | out | unlinked _ | busy _ | refused _ => none

private theorem needs_cases {stage : Stage} {i : ℕ} (h : stage.needs = some i) :
    stage = opened i ∨ stage.runsOn = some i ∧ stage.lock = some i := by
  cases stage with
  | opened j => exact .inl (congrArg opened (Option.some.inj h))
  | locked j => exact .inr ⟨h, h⟩
  | cleared j => exact .inr ⟨h, h⟩
  | holding j => exact .inr ⟨h, h⟩
  | out => exact absurd h (by simp [needs])
  | unlinked j => exact absurd h (by simp [needs])
  | busy j => exact absurd h (by simp [needs])
  | refused err => exact absurd h (by simp [needs])

private theorem needs_of_runsOn {stage : Stage} {i : ℕ} (h : stage.runsOn = some i) :
    stage.needs = some i ∧ stage.lock = some i := by
  cases stage with
  | locked j => exact ⟨h, h⟩
  | cleared j => exact ⟨h, h⟩
  | holding j => exact ⟨h, h⟩
  | out => exact absurd h (by simp [runsOn])
  | opened j => exact absurd h (by simp [runsOn])
  | unlinked j => exact absurd h (by simp [runsOn])
  | busy j => exact absurd h (by simp [runsOn])
  | refused err => exact absurd h (by simp [runsOn])

end Stage

/-- The path of the pid file, the files that were ever there, and the processes. The processes that
wrote their pid are recorded, for what is said of a run; no code looks at them. -/
structure PidFiles where
  name : Bytes
  path : Option ℕ
  next : ℕ
  content : ℕ → Bytes
  lockedBy : ℕ → Option ℕ
  stage : ℕ → Stage
  recorded : List ℕ

namespace PidFiles

/-- A process goes on. -/
def enter (p : ℕ) (stage : Stage) (s : PidFiles) : PidFiles :=
  { s with stage := Function.update s.stage p stage }

/-- What is written into the file. -/
def pidLine (p : ℕ) : Bytes := decimal p ++ [newline]

/-- The error of `acquire` when the file is locked, and what is in it. -/
def alreadyRunning (name content : Bytes) : Bytes :=
  let other := (strtol (cStr (content.take 31))).1
  ascii "another instance is already running" ++
    if content ≠ [] ∧ 0 < other then
      ascii " (pid " ++ decimal other.toNat ++ ascii ", " ++ name ++ ascii ")"
    else []

/-- The system calls, and what becomes of them. -/
inductive Event where
  | openFile (p : ℕ) (failure : Option Bytes)
  | flock (p : ℕ) (failed : Bool)
  | read (p : ℕ) (ok : Bool)
  | ftruncate (p : ℕ) (ok : Bool)
  | write (p : ℕ) (written : ℕ)
  | fork (p child : ℕ)
  | unlink (p : ℕ) (ok : Bool)
  | close (p : ℕ)
  | die (p : ℕ)

/-- `open` in `acquire`. -/
def onOpen (p : ℕ) (failure : Option Bytes) (s : PidFiles) : PidFiles :=
  match failure, s.path with
  | some why, _ => s.enter p (.refused (ascii "pid file " ++ s.name ++ ascii ": " ++ why))
  | none, some i => s.enter p (.opened i)
  | none, none =>
    { s with
      path := some s.next, next := s.next + 1
      content := Function.update s.content s.next [] }.enter p (.opened s.next)

/-- `flock` in `acquire`. -/
def onFlock (p i : ℕ) (failed : Bool) (s : PidFiles) : PidFiles :=
  if !failed && s.lockedBy i = none then
    { s with lockedBy := Function.update s.lockedBy i (some p) }.enter p (.locked i)
  else s.enter p (.busy i)

/-- `read` in `acquire`. If it fails it is as if the file were empty. -/
def onRead (p i : ℕ) (ok : Bool) (s : PidFiles) : PidFiles :=
  s.enter p (.refused (alreadyRunning s.name (if ok then s.content i else [])))

/-- `ftruncate` and `lseek` in `record_pid`. -/
def onFtruncate (p i : ℕ) (ok : Bool) (s : PidFiles) : PidFiles :=
  if ok then { s with content := Function.update s.content i [] }.enter p (.cleared i)
  else s.enter p (.holding i)

/-- `write` in `record_pid`. -/
def onWrite (p i written : ℕ) (s : PidFiles) : PidFiles :=
  { s with
    content := Function.update s.content i ((pidLine p).take written)
    recorded := s.recorded ++ [p] }.enter p (.holding i)

/-- `fork` in `daemonize`: the child has the lock, and the parent is gone. -/
def onFork (p child i : ℕ) (s : PidFiles) : PidFiles :=
  ({ s with lockedBy := Function.update s.lockedBy i (some child) }.enter p .out).enter child
    (.holding i)

/-- `unlink` in the destructor, which does not ask whether it went well. -/
def onUnlink (p i : ℕ) (ok : Bool) (s : PidFiles) : PidFiles :=
  if ok then { s with path := none }.enter p (.unlinked i) else s.enter p (.unlinked i)

/-- A process does not have the file open any more. -/
def leave (p : ℕ) (s : PidFiles) : PidFiles :=
  match (s.stage p).lock with
  | some i => { s with lockedBy := Function.update s.lockedBy i none }.enter p .out
  | none => s.enter p .out

/-- A system call. A process makes only those that come next in its code; `record_pid` is called in
`acquire` and again after `daemonize`. -/
def step (s : PidFiles) : Event → PidFiles
  | .openFile p failure =>
    match s.stage p with
    | .out => s.onOpen p failure
    | _ => s
  | .flock p failed =>
    match s.stage p with
    | .opened i => s.onFlock p i failed
    | _ => s
  | .read p ok =>
    match s.stage p with
    | .busy i => s.onRead p i ok
    | _ => s
  | .ftruncate p ok =>
    match s.stage p with
    | .locked i | .holding i => s.onFtruncate p i ok
    | _ => s
  | .write p written =>
    match s.stage p with
    | .cleared i => s.onWrite p i written
    | _ => s
  | .fork p child =>
    match s.stage p, s.stage child with
    | .holding i, .out => s.onFork p child i
    | _, _ => s
  | .unlink p ok =>
    match s.stage p with
    | .holding i => s.onUnlink p i ok
    | _ => s
  | .close p =>
    match s.stage p with
    | .unlinked _ => s.leave p
    | _ => s
  | .die p => s.leave p

/-- A machine on which no instance runs, with what an earlier one may have left in the file. -/
def initial (name : Bytes) (left : Option Bytes) : PidFiles where
  name := name
  path := left.map fun _ ↦ 0
  next := 1
  content := fun _ ↦ left.getD []
  lockedBy := fun _ ↦ none
  stage := fun _ ↦ .out
  recorded := []

/-- The processes take turns in any order. A pid is a `pid_t`. -/
def Promised (_ : PidFiles) : Event → Prop
  | .fork _ child => child < 2 ^ 31
  | .openFile p _ => p < 2 ^ 31
  | _ => True

/-- The machine. -/
def system (name : Bytes) (left : Option Bytes) : System PidFiles Event :=
  ⟨initial name left, step, Promised⟩

/-- **What a system call does**, and where the process is then. -/
inductive Acts (s : PidFiles) : Event → PidFiles → Prop where
  | idle {event} : Acts s event s
  | openFile {p failure} (out : s.stage p = .out) :
      Acts s (.openFile p failure) (s.onOpen p failure)
  | flock {p i failed} (opened : s.stage p = .opened i) :
      Acts s (.flock p failed) (s.onFlock p i failed)
  | read {p i ok} (busy : s.stage p = .busy i) : Acts s (.read p ok) (s.onRead p i ok)
  | ftruncate {p i ok} (locked : s.stage p = .locked i ∨ s.stage p = .holding i) :
      Acts s (.ftruncate p ok) (s.onFtruncate p i ok)
  | write {p i written} (cleared : s.stage p = .cleared i) :
      Acts s (.write p written) (s.onWrite p i written)
  | fork {p child i} (holding : s.stage p = .holding i) (out : s.stage child = .out) :
      Acts s (.fork p child) (s.onFork p child i)
  | unlink {p i ok} (holding : s.stage p = .holding i) :
      Acts s (.unlink p ok) (s.onUnlink p i ok)
  | close {p i} (unlinked : s.stage p = .unlinked i) : Acts s (.close p) (s.leave p)
  | die {p} : Acts s (.die p) (s.leave p)

theorem acts_step (s : PidFiles) (event : Event) : Acts s event (s.step event) := by
  cases event with
  | openFile p failure =>
    rw [step]
    split
    · exact .openFile ‹_›
    · exact .idle
  | flock p failed =>
    rw [step]
    split
    · exact .flock ‹_›
    · exact .idle
  | read p ok =>
    rw [step]
    split
    · exact .read ‹_›
    · exact .idle
  | ftruncate p ok =>
    rw [step]
    split
    · exact .ftruncate (.inl ‹_›)
    · exact .ftruncate (.inr ‹_›)
    · exact .idle
  | write p written =>
    rw [step]
    split
    · exact .write ‹_›
    · exact .idle
  | fork p child =>
    rw [step]
    split
    · exact .fork ‹_› ‹_›
    · exact .idle
  | unlink p ok =>
    rw [step]
    split
    · exact .unlink ‹_›
    · exact .idle
  | close p =>
    rw [step]
    split
    · exact .close ‹_›
    · exact .idle
  | die p => exact .die

/-! ## The locks -/

/-- What is so in every run: the locks are with the processes that have them, and a new file is one
that nobody has open. -/
structure Sound (s : PidFiles) : Prop where
  lock : ∀ i p, s.lockedBy i = some p ↔ (s.stage p).lock = some i
  file : ∀ p i, (s.stage p).file = some i → i < s.next
  path : ∀ i, s.path = some i → i < s.next

namespace Sound

variable {s : PidFiles} {p i : ℕ} {stage : Stage}

/-- A process goes on with the lock that it has. -/
theorem enter (h : Sound s) (lock : stage.lock = (s.stage p).lock)
    (file : ∀ i, stage.file = some i → i < s.next) : Sound (s.enter p stage) := by
  refine ⟨fun i q ↦ ?_, fun q i hfile ↦ ?_, h.path⟩
  · rw [PidFiles.enter]
    dsimp only
    rw [h.lock, Function.update_apply]
    split_ifs with heq
    · rw [heq, lock]
    · rfl
  · rw [PidFiles.enter] at hfile
    dsimp only at hfile
    rw [Function.update_apply] at hfile
    split_ifs at hfile
    · exact file i hfile
    · exact h.file q i hfile

/-- The content of the files does not matter. -/
theorem write (h : Sound s) (content : ℕ → Bytes) (recorded : List ℕ) :
    Sound { s with content := content, recorded := recorded } := ⟨h.lock, h.file, h.path⟩

/-- A process gets a lock that nobody has. -/
theorem take (h : Sound s) (hfree : s.lockedBy i = none) (hnone : (s.stage p).lock = none)
    (lock : stage.lock = some i) (file : stage.file = some i) (hi : i < s.next) :
    Sound ({ s with lockedBy := Function.update s.lockedBy i (some p) }.enter p stage) := by
  refine ⟨fun j q ↦ ?_, fun q j hfile ↦ ?_, h.path⟩
  · show Function.update s.lockedBy i (some p) j = some q ↔
      (Function.update s.stage p stage q).lock = some j
    rw [Function.update_apply, Function.update_apply]
    split_ifs with hj hq hq
    · rw [hj, hq, lock]
      exact iff_of_true rfl rfl
    · rw [hj, ← h.lock, hfree]
      simp [Ne.symm hq]
    · rw [h.lock, lock, hq, hnone]
      simp [Ne.symm hj]
    · exact h.lock j q
  · have hfile : (Function.update s.stage p stage q).file = some j := hfile
    rw [Function.update_apply] at hfile
    split_ifs at hfile
    · rw [← Option.some.inj (file.symm.trans hfile)]
      exact hi
    · exact h.file q j hfile

/-- A process gives back what it has. -/
theorem leave (h : Sound s) (p : ℕ) : Sound (s.leave p) := by
  rw [PidFiles.leave]
  split
  · rename_i i hlock
    refine ⟨fun j q ↦ ?_, fun q j hfile ↦ ?_, h.path⟩
    · show Function.update s.lockedBy i none j = some q ↔
        (Function.update s.stage p .out q).lock = some j
      rw [Function.update_apply, Function.update_apply]
      split_ifs with hj hq hq
      · simp [Stage.lock]
      · rw [hj, ← h.lock, (h.lock i p).mpr hlock]
        simp [Ne.symm hq]
      · rw [h.lock, hq, hlock]
        simp [Ne.symm hj, Stage.lock]
      · exact h.lock j q
    · have hfile : (Function.update s.stage p .out q).file = some j := hfile
      rw [Function.update_apply] at hfile
      split_ifs at hfile
      · exact absurd hfile (by simp [Stage.file])
      · exact h.file q j hfile
  · rename_i hlock
    exact h.enter hlock.symm (by simp [Stage.file])

theorem onOpen (h : Sound s) (hout : s.stage p = .out) (failure : Option Bytes) :
    Sound (s.onOpen p failure) := by
  have hlock : (s.stage p).lock = none := by rw [hout]; rfl
  rw [PidFiles.onOpen.eq_def]
  split
  · exact h.enter hlock.symm (by simp [Stage.file])
  · rename_i i hpath
    refine h.enter hlock.symm ?_
    intro j hj
    rw [← Option.some.inj hj]
    exact h.path i hpath
  · have hnew : Sound { s with
        path := some s.next, next := s.next + 1
        content := Function.update s.content s.next [] } := by
      refine ⟨h.lock, fun q i hfile ↦ Nat.lt_succ_of_lt (h.file q i hfile), fun i hi ↦ ?_⟩
      rw [← Option.some.inj hi]
      exact Nat.lt_succ_self _
    refine hnew.enter hlock.symm ?_
    intro j hj
    rw [← Option.some.inj hj]
    exact Nat.lt_succ_self _

theorem onFlock (h : Sound s) (hopened : s.stage p = .opened i) (failed : Bool) :
    Sound (s.onFlock p i failed) := by
  have hlock : (s.stage p).lock = none := by rw [hopened]; rfl
  have hi : i < s.next := h.file p i (by rw [hopened]; rfl)
  rw [PidFiles.onFlock]
  split_ifs with hfree
  · rw [Bool.and_eq_true, decide_eq_true_eq] at hfree
    exact h.take hfree.2 hlock rfl rfl hi
  · refine h.enter hlock.symm ?_
    intro j hj
    rw [← Option.some.inj hj]
    exact hi

/-- A fork is a process that leaves, and another that has its lock. -/
theorem onFork_eq (hholding : s.stage p = .holding i) (child : ℕ) : s.onFork p child i
    = { s.leave p with lockedBy := Function.update (s.leave p).lockedBy i (some child) }.enter child
        (.holding i) := by
  rw [PidFiles.leave, hholding]
  dsimp only [Stage.lock, PidFiles.onFork, PidFiles.enter]
  rw [Function.update_idem]

theorem onFork (h : Sound s) (hholding : s.stage p = .holding i) {child : ℕ}
    (hout : s.stage child = .out) : Sound (s.onFork p child i) := by
  have hlock : (s.stage p).lock = some i := by rw [hholding]; rfl
  have hi : i < s.next := h.file p i (by rw [hholding]; rfl)
  have hne : child ≠ p := fun heq ↦ absurd ((heq ▸ hout).symm.trans hholding) (by simp)
  rw [onFork_eq hholding]
  refine (h.leave p).take ?_ ?_ rfl rfl ?_
  · rw [PidFiles.leave, hlock]
    exact Function.update_self _ _ _
  · rw [PidFiles.leave, hlock]
    show (Function.update s.stage p .out child).lock = none
    rw [Function.update_of_ne hne, hout]
    rfl
  · rw [PidFiles.leave, hlock]
    exact hi

/-- **Every system call** keeps to it. -/
theorem acts {event : Event} {s' : PidFiles} (h : Sound s) (ha : Acts s event s') : Sound s' := by
  have hsame : ∀ {t : PidFiles} {p i : ℕ} {stage : Stage}, Sound t → (t.stage p).file = some i →
      stage.lock = (t.stage p).lock → (∀ j, stage.file = some j → j = i) →
      Sound (t.enter p stage) :=
    fun ht hfile hlock hstage ↦ ht.enter hlock fun j hj ↦ hstage j hj ▸ ht.file _ _ hfile
  cases ha with
  | idle => exact h
  | openFile hout => exact h.onOpen hout _
  | flock hopened => exact h.onFlock hopened _
  | @read p i ok hbusy =>
    refine hsame (i := i) h ?_ ?_ (by simp [Stage.file])
    · rw [hbusy]; rfl
    · rw [hbusy]; rfl
  | @ftruncate p i ok hlocked =>
    have hfile : (s.stage p).file = some i := by
      rcases hlocked with hlocked | hlocked
      all_goals rw [hlocked]; rfl
    have hlock : (s.stage p).lock = some i := by
      rcases hlocked with hlocked | hlocked
      all_goals rw [hlocked]; rfl
    rw [PidFiles.onFtruncate]
    split_ifs
    · exact hsame (h.write _ s.recorded) hfile hlock.symm fun j hj ↦ (Option.some.inj hj).symm
    · exact hsame h hfile hlock.symm fun j hj ↦ (Option.some.inj hj).symm
  | @write p i written hcleared =>
    refine hsame (i := i) (h.write _ _) ?_ ?_ fun j hj ↦ (Option.some.inj hj).symm
    · show (s.stage p).file = some i
      rw [hcleared]; rfl
    · show _ = (s.stage p).lock
      rw [hcleared]; rfl
  | fork hholding hout => exact h.onFork hholding hout
  | @unlink p i ok hholding =>
    have hgone : Sound { s with path := none } := ⟨h.lock, h.file, by simp⟩
    have hfile : (s.stage p).file = some i := by rw [hholding]; rfl
    have hlock : (s.stage p).lock = some i := by rw [hholding]; rfl
    rw [PidFiles.onUnlink]
    split_ifs
    · exact hsame hgone hfile hlock.symm fun j hj ↦ (Option.some.inj hj).symm
    · exact hsame h hfile hlock.symm fun j hj ↦ (Option.some.inj hj).symm
  | close => exact h.leave _
  | die => exact h.leave _

end Sound

/-! ## One instance -/

/-- The path is not removed while another process has just opened the file and not tried to lock
it. -/
def Undisturbed (s : PidFiles) : Event → Prop
  | .unlink _ ok => ok = true → ∀ q i, s.stage q ≠ .opened i
  | _ => True

/-- The files that the processes count on are at the path. -/
def Here (s : PidFiles) : Prop := ∀ p i, (s.stage p).needs = some i → s.path = some i

namespace Here

variable {s : PidFiles} {p i : ℕ}

theorem enter {stage : Stage} (h : ∀ q ≠ p, ∀ i, (s.stage q).needs = some i → s.path = some i)
    (hstage : ∀ i, stage.needs = some i → s.path = some i) : Here (s.enter p stage) := by
  intro q i hneeds
  have hneeds : (Function.update s.stage p stage q).needs = some i := hneeds
  rw [Function.update_apply] at hneeds
  split_ifs at hneeds with heq
  · exact hstage i hneeds
  · exact h q heq i hneeds

theorem leave (h : Here s) (p : ℕ) : Here (s.leave p) := by
  rw [PidFiles.leave]
  split
  · exact enter (fun q _ ↦ h q) (by simp [Stage.needs])
  · exact enter (fun q _ ↦ h q) (by simp [Stage.needs])

/-- A process that runs on a file is the only one that counts on any. -/
theorem sole (h : Here s) (hsound : Sound s) (hholding : s.stage p = .holding i)
    (hquiet : ∀ q i, s.stage q ≠ .opened i) {q j : ℕ} (hneeds : (s.stage q).needs = some j) :
    q = p := by
  have hlock : (s.stage p).lock = some i := by rw [hholding]; rfl
  have hpath : s.path = some i := h p i (by rw [hholding]; rfl)
  obtain hopened | ⟨-, hlock'⟩ := Stage.needs_cases hneeds
  · exact absurd hopened (hquiet q j)
  · obtain rfl := Option.some.inj ((h q j hneeds).symm.trans hpath)
    have hp := (hsound.lock j p).mpr hlock
    exact Option.some.inj (((hsound.lock j q).mpr hlock').symm.trans hp)

theorem acts {event : Event} {s' : PidFiles} (h : Here s) (hsound : Sound s)
    (hquiet : s.Undisturbed event) (ha : Acts s event s') : Here s' := by
  cases ha with
  | idle => exact h
  | @openFile p failure out =>
    rw [PidFiles.onOpen.eq_def]
    split
    · exact enter (fun q _ ↦ h q) (by simp [Stage.needs])
    · rename_i i hpath
      exact enter (fun q _ ↦ h q) fun j hj ↦ hpath.trans hj
    · rename_i hpath
      refine enter (fun q _ j hj ↦ ?_) fun j hj ↦ hj
      exact absurd (hpath.symm.trans (h q j hj)) (by simp)
  | @flock p i failed opened =>
    have hpath : s.path = some i := h p i (by rw [opened]; rfl)
    rw [PidFiles.onFlock]
    split_ifs
    · exact enter (fun q _ ↦ h q) fun j hj ↦ hpath.trans hj
    · exact enter (fun q _ ↦ h q) (by simp [Stage.needs])
  | read busy => exact enter (fun q _ ↦ h q) (by simp [Stage.needs])
  | @ftruncate p i ok locked =>
    have hpath : s.path = some i := by
      rcases locked with locked | locked
      · exact h p i (by rw [locked]; rfl)
      · exact h p i (by rw [locked]; rfl)
    rw [PidFiles.onFtruncate]
    split_ifs
    · exact enter (fun q _ ↦ h q) fun j hj ↦ hpath.trans hj
    · exact enter (fun q _ ↦ h q) fun j hj ↦ hpath.trans hj
  | @write p i written cleared =>
    have hpath : s.path = some i := h p i (by rw [cleared]; rfl)
    exact enter (fun q _ ↦ h q) fun j hj ↦ hpath.trans hj
  | @fork p child i holding out =>
    have hpath : s.path = some i := h p i (by rw [holding]; rfl)
    have hleft :
      Here ({ s with lockedBy := Function.update s.lockedBy i (some child) }.enter p .out) :=
      enter (fun q _ ↦ h q) (by simp [Stage.needs])
    exact enter (fun q _ ↦ hleft q) fun j hj ↦ hpath.trans hj
  | @unlink p i ok holding =>
    rw [PidFiles.onUnlink]
    split_ifs with hok
    · refine enter (fun q hne j hj ↦ ?_) (by simp [Stage.needs])
      exact absurd (h.sole hsound holding (hquiet hok) hj) hne
    · exact enter (fun q _ ↦ h q) (by simp [Stage.needs])
  | close => exact h.leave _
  | die => exact h.leave _

end Here

/-- An instance runs: it has acquired the file and not begun to give it back. -/
def Runs (s : PidFiles) (p : ℕ) : Prop := ∃ i, (s.stage p).runsOn = some i

private theorem sound_initial (name : Bytes) (left : Option Bytes) : Sound (initial name left) := by
  refine ⟨fun i p ↦ iff_of_false (by simp [initial]) (by simp [initial, Stage.lock]),
    fun p i hfile ↦ absurd hfile (by simp [initial, Stage.file]), fun i hpath ↦ ?_⟩
  cases left with
  | none => exact absurd hpath (by simp [initial])
  | some content =>
    rw [← Option.some.inj hpath]
    exact Nat.one_pos

/-- **One instance runs**, in every run in which the path is not removed between another's `open`
and `flock`. -/
theorem exclusive (name : Bytes) (left : Option Bytes) {s : PidFiles}
    (h : ((system name left).under Undisturbed).Reaches s) : {p | s.Runs p}.Subsingleton := by
  have hboth : Sound s ∧ Here s := by
    refine h.invariant (P := fun s ↦ Sound s ∧ Here s)
      ⟨sound_initial name left, fun p i hneeds ↦ ?_⟩ fun {s event} _ hs offered ↦ ?_
    · exact absurd hneeds (by simp [initial, system, System.under, Stage.needs])
    · exact ⟨hs.1.acts (acts_step s event), hs.2.acts hs.1 offered.2 (acts_step s event)⟩
  obtain ⟨hsound, hhere⟩ := hboth
  rintro p ⟨i, hi⟩ q ⟨j, hj⟩
  obtain ⟨hneeds, hlock⟩ := Stage.needs_of_runsOn hi
  obtain ⟨hneeds', hlock'⟩ := Stage.needs_of_runsOn hj
  obtain rfl := Option.some.inj ((hhere p i hneeds).symm.trans (hhere q j hneeds'))
  exact Option.some.inj (((hsound.lock i p).mpr hlock).symm.trans ((hsound.lock i q).mpr hlock'))

/-- An instance ends and another is started. -/
theorem exclusive_second_start :
    {p | ((system (ascii "pid") none).run (initial (ascii "pid") none)
      [.openFile 1 none, .flock 1 false, .ftruncate 1 true, .write 1 2, .unlink 1 true, .close 1,
        .openFile 2 none, .flock 2 false]).Runs p}.Subsingleton := by
  have hquiet : ∀ q i, ((system (ascii "pid") none).run (initial (ascii "pid") none)
      [.openFile 1 none, .flock 1 false, .ftruncate 1 true, .write 1 2]).stage q ≠ .opened i := by
    intro q i
    change Function.update (Function.update (Function.update (Function.update (fun _ ↦ Stage.out)
      1 _) 1 _) 1 _) 1 (Stage.holding 1) q ≠ _
    simp only [Function.update_idem, Function.update_apply]
    split_ifs <;> simp
  refine exclusive (ascii "pid") none (.run (S := (system (ascii "pid") none).under Undisturbed)
    .start ?_)
  exact ⟨⟨by simp [system, Promised], trivial⟩, ⟨trivial, trivial⟩, ⟨trivial, trivial⟩,
    ⟨trivial, trivial⟩, ⟨trivial, fun _ ↦ hquiet⟩, ⟨trivial, trivial⟩,
    ⟨by simp [system, Promised], trivial⟩, ⟨trivial, trivial⟩, trivial⟩

/-- The first instance ends while the second has the file open, and a third is started. -/
def overtaking : List Event :=
  [.openFile 1 none, .flock 1 false, .ftruncate 1 true, .write 1 2, .openFile 2 none,
    .unlink 1 true, .close 1, .flock 2 false, .openFile 3 none, .flock 3 false]

/-- **Two instances run** if it is. -/
theorem twoHold : (system (ascii "pid") none).Offers (initial (ascii "pid") none) overtaking ∧
    ((system (ascii "pid") none).run (initial (ascii "pid") none) overtaking).Runs 2 ∧
    ((system (ascii "pid") none).run (initial (ascii "pid") none) overtaking).Runs 3 := by
  refine ⟨⟨by simp [system, Promised], trivial, trivial, trivial, by simp [system, Promised],
    trivial, trivial, trivial, by simp [system, Promised], trivial, trivial⟩, ⟨1, rfl⟩, ⟨2, rfl⟩⟩

/-! ## Who is named -/

/-- The whole line is written. -/
def Whole (_ : PidFiles) : Event → Prop
  | .write p written => (pidLine p).length ≤ written
  | _ => True

/-- What a process that is turned away may say: that the file could not be opened, or that there is
another instance, and perhaps that it is one of some processes. -/
def Says (name : Bytes) (known : List ℕ) (err : Bytes) : Prop :=
  (∃ why, err = ascii "pid file " ++ name ++ ascii ": " ++ why) ∨
    err = ascii "another instance is already running" ∨
    ∃ q ∈ known, err = ascii "another instance is already running" ++
      (ascii " (pid " ++ decimal q ++ ascii ", " ++ name ++ ascii ")")

theorem Says.mono {name err : Bytes} {known known' : List ℕ} (h : Says name known err)
    (hsub : ∀ q ∈ known, q ∈ known') : Says name known' err :=
  h.imp_right fun h ↦ h.imp_right fun ⟨q, hq, heq⟩ ↦ ⟨q, hsub q hq, heq⟩

private theorem length_pidLine_le {q : ℕ} (hq : q < 2 ^ 31) : (pidLine q).length ≤ 31 := by
  have hdigits : (decimal q).length ≤ 10 := by
    rw [decimal, List.length_map, Nat.length_toDigits_le_iff (by decide) (by decide)]
    omega
  rw [pidLine, List.length_append, List.length_singleton]
  omega

/-- The pid is read back. -/
theorem strtol_pidLine {q : ℕ} (hq : q < 2 ^ 31) :
    strtol (cStr ((pidLine q).take 31)) = ((q : ℤ), false, [newline]) := by
  have hdigits : ∀ c ∈ decimal q, isDigit c = true := fun c hc ↦ isDigit_of_mem_decimal hc
  have hzero : ∀ c ∈ pidLine q, decide (c ≠ 0) = true := by
    intro c hc
    refine decide_eq_true ?_
    intro hc0
    rcases List.mem_append.mp hc with hc | hc
    · exact absurd (hdigits c hc) (by rw [hc0]; decide)
    · exact absurd ((List.mem_singleton.mp hc).symm.trans hc0) (by decide)
  have hne : decimal q ≠ [] := by
    rw [decimal, Ne, List.map_eq_nil_iff]
    exact Nat.toDigits_ne_nil
  have hnumeral : IntNumeral (decimal q) q := by
    have hof : IntNumeral ([] ++ ([] ++ decimal q)) (signedValue false (decimal q)) :=
      .of (by simp) .none hne hdigits
    rwa [signedValue, ExactDouble.natOfDigits_decimal] at hof
  rw [List.take_of_length_le (length_pidLine_le hq), cStr, List.takeWhile_eq_self_iff.mpr hzero]
  refine hnumeral.strtol (by omega) ?_
  intro c hc
  rw [← Option.some.inj hc]
  decide

/-- What is said of a file that was written by one of some processes. -/
theorem says_alreadyRunning {name content : Bytes} {known : List ℕ}
    (h : content = [] ∨ ∃ q ∈ known, q < 2 ^ 31 ∧ content = pidLine q) :
    Says name known (alreadyRunning name content) := by
  rw [alreadyRunning]
  split_ifs with hother
  · obtain ⟨hne, hpos⟩ := hother
    obtain ⟨q, hq, hlt, rfl⟩ := h.resolve_left hne
    rw [strtol_pidLine hlt]
    exact .inr (.inr ⟨q, hq, rfl⟩)
  · exact .inr (.inl (List.append_nil _))

/-- What is so of the files and of those that were turned away, when the lines are written whole. -/
structure Honest (name : Bytes) (s : PidFiles) : Prop where
  named : s.name = name
  content : ∀ i, s.content i = [] ∨ ∃ q ∈ s.recorded, q < 2 ^ 31 ∧ s.content i = pidLine q
  pid : ∀ p, s.stage p ≠ .out → p < 2 ^ 31
  refused : ∀ p err, s.stage p = .refused err → Says name s.recorded err

namespace Honest

variable {name : Bytes} {s : PidFiles} {p i : ℕ}

theorem enter (h : Honest name s) {stage : Stage} (hpid : stage ≠ .out → p < 2 ^ 31)
    (hsaid : ∀ err, stage = .refused err → Says name s.recorded err) :
    Honest name (s.enter p stage) := by
  refine ⟨h.named, h.content, fun q hq ↦ ?_, fun q err hq ↦ ?_⟩
  · have hq : Function.update s.stage p stage q ≠ .out := hq
    rw [Function.update_apply] at hq
    split_ifs at hq with heq
    · exact heq ▸ hpid hq
    · exact h.pid q hq
  · have hq : Function.update s.stage p stage q = .refused err := hq
    rw [Function.update_apply] at hq
    split_ifs at hq
    · exact hsaid err hq
    · exact h.refused q err hq

/-- The locks do not matter. -/
theorem relock (h : Honest name s) (lockedBy : ℕ → Option ℕ) :
    Honest name { s with lockedBy := lockedBy } := ⟨h.named, h.content, h.pid, h.refused⟩

theorem leave (h : Honest name s) (p : ℕ) : Honest name (s.leave p) := by
  rw [PidFiles.leave]
  split
  · exact (h.relock _).enter (fun hne ↦ absurd rfl hne) (by simp)
  · exact h.enter (fun hne ↦ absurd rfl hne) (by simp)

/-- A file is emptied. -/
theorem clear (h : Honest name s) (i : ℕ) :
    Honest name { s with content := Function.update s.content i [] } := by
  refine ⟨h.named, fun j ↦ ?_, h.pid, h.refused⟩
  dsimp only
  rw [Function.update_apply]
  split_ifs
  · exact .inl rfl
  · exact h.content j

/-- A pid is written. -/
theorem record (h : Honest name s) (hp : p < 2 ^ 31) (i : ℕ) {written : ℕ}
    (hwhole : (pidLine p).length ≤ written) : Honest name { s with
      content := Function.update s.content i ((pidLine p).take written)
      recorded := s.recorded ++ [p] } := by
  have hsub : ∀ q ∈ s.recorded, q ∈ s.recorded ++ [p] := fun q ↦ List.mem_append_left _
  refine ⟨h.named, fun j ↦ ?_, h.pid, fun q err hq ↦ (h.refused q err hq).mono hsub⟩
  dsimp only
  rw [Function.update_apply, List.take_of_length_le hwhole]
  split_ifs
  · exact .inr ⟨p, List.mem_append_right _ (List.mem_singleton_self p), hp, rfl⟩
  · exact (h.content j).imp_right fun ⟨q, hq, hlt, heq⟩ ↦ ⟨q, hsub q hq, hlt, heq⟩

theorem acts {event : Event} {s' : PidFiles} (h : Honest name s) (promised : s.Promised event)
    (whole : s.Whole event) (ha : Acts s event s') : Honest name s' := by
  have hpid : ∀ {p : ℕ} {stage : Stage}, s.stage p = stage → stage ≠ .out → p < 2 ^ 31 :=
    fun hstage hne ↦ h.pid _ (hstage ▸ hne)
  cases ha with
  | idle => exact h
  | @openFile p failure out =>
    have hp : p < 2 ^ 31 := promised
    rw [PidFiles.onOpen.eq_def]
    split
    · rename_i why
      refine h.enter (fun _ ↦ hp) ?_
      intro err herr
      rw [← Stage.refused.inj herr]
      exact .inl ⟨why, by rw [h.named]⟩
    · exact h.enter (fun _ ↦ hp) (by simp)
    · have hnew : Honest name { s with
          path := some s.next, next := s.next + 1
          content := Function.update s.content s.next [] } :=
        ⟨h.named, (h.clear s.next).content, h.pid, h.refused⟩
      exact hnew.enter (fun _ ↦ hp) (by simp)
  | @flock p i failed opened =>
    have hp := hpid opened (by simp)
    rw [PidFiles.onFlock]
    split_ifs
    · exact (h.relock _).enter (fun _ ↦ hp) (by simp)
    · exact h.enter (fun _ ↦ hp) (by simp)
  | @read p i ok busy =>
    refine h.enter (fun _ ↦ hpid busy (by simp)) ?_
    intro err herr
    rw [← Stage.refused.inj herr, h.named]
    refine says_alreadyRunning ?_
    split_ifs
    · exact h.content i
    · exact .inl rfl
  | @ftruncate p i ok locked =>
    have hp : p < 2 ^ 31 := by
      rcases locked with locked | locked
      · exact hpid locked (by simp)
      · exact hpid locked (by simp)
    rw [PidFiles.onFtruncate]
    split_ifs
    · exact (h.clear i).enter (fun _ ↦ hp) (by simp)
    · exact h.enter (fun _ ↦ hp) (by simp)
  | @write p i written cleared =>
    have hp := hpid cleared (by simp)
    exact (h.record hp i whole).enter (fun _ ↦ hp) (by simp)
  | @fork p child i holding out =>
    have hout : Stage.out ≠ .out → p < 2 ^ 31 := fun hne ↦ absurd rfl hne
    have hleft := (h.relock (Function.update s.lockedBy i (some child))).enter hout (by simp)
    exact hleft.enter (fun _ ↦ promised) (by simp)
  | @unlink p i ok holding =>
    have hgone : Honest name { s with path := none } := ⟨h.named, h.content, h.pid, h.refused⟩
    rw [PidFiles.onUnlink]
    split_ifs
    · exact hgone.enter (fun _ ↦ hpid holding (by simp)) (by simp)
    · exact h.enter (fun _ ↦ hpid holding (by simp)) (by simp)
  | close => exact h.leave _
  | die => exact h.leave _

end Honest

/-- **Who is named.** Where no instance left anything in the file, and the lines are written whole,
a process that is turned away names no process, or one that wrote its pid while it had the lock. -/
theorem named (name : Bytes) {left : Option Bytes} (hleft : left.getD [] = []) {s : PidFiles}
    (h : ((system name left).under Whole).Reaches s) {p : ℕ} {err : Bytes}
    (hrefused : s.stage p = .refused err) : Says name s.recorded err := by
  have hhonest : Honest name s := by
    refine h.invariant (P := Honest name) ?_ fun {s event} _ hs offered ↦ ?_
    · exact ⟨rfl, fun i ↦ .inl hleft, fun p hp ↦ absurd rfl hp, fun p err hp ↦ absurd hp (by
        simp [initial, system, System.under])⟩
    · exact hs.acts offered.1 offered.2 (acts_step s event)
  exact hhonest.refused p err hrefused

theorem named_second_start : Says (ascii "pid") [1]
    (ascii "another instance is already running (pid 1, pid)") := by
  have hwhole : (pidLine 1).length ≤ 2 := by decide
  have hreach : ((system (ascii "pid") none).under Whole).Reaches
      ((system (ascii "pid") none).run (initial (ascii "pid") none)
        [.openFile 1 none, .flock 1 false, .ftruncate 1 true, .write 1 2, .openFile 2 none,
          .flock 2 false, .read 2 true]) :=
    .run (S := (system (ascii "pid") none).under Whole) .start
      ⟨⟨by simp [system, Promised], trivial⟩, ⟨trivial, trivial⟩, ⟨trivial, trivial⟩,
        ⟨trivial, hwhole⟩, ⟨by simp [system, Promised], trivial⟩, ⟨trivial, trivial⟩,
        ⟨trivial, trivial⟩, trivial⟩
  have hrefused : ((system (ascii "pid") none).run (initial (ascii "pid") none) [.openFile 1 none,
      .flock 1 false, .ftruncate 1 true, .write 1 2, .openFile 2 none, .flock 2 false,
      .read 2 true]).stage 2
        = .refused (ascii "another instance is already running (pid 1, pid)") := by
    decide
  exact named (ascii "pid") rfl hreach hrefused

end PidFiles

end LoggerAnalyzer
