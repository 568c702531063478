import LoggerAnalyzer.Client.Net
import LoggerAnalyzer.Client.Paired

/-!
# When the user cancels

A net counts the moments at which the user may cancel by the looks at the flag: if `cancelAfter` is
`some n`, then `n` looks find nothing, and the next one sees that the user has cancelled. On the net
`calmed` everything goes the same way but nobody cancels, and the looks at the flag are written down
from the start. They are the timetable of the upload: at which place the client would be when the
user cancels at this or that moment.

Until the request is seen the two uploads do the same. So the place at which it is seen stands in
the timetable at the position `n`, which is `Timetable.settles`.
-/

namespace LoggerAnalyzer

open Program

namespace Net

variable {D : Type}

/-- The net with another user. -/
def flagged (cancelAfter : Option ℕ) (looks : List Site) (net : Net D) : Net D :=
  { net with cancelAfter := cancelAfter, looks := looks }

/-- The net on which nobody cancels. -/
def calmed (net : Net D) : Net D := net.flagged none []

/-! ## What has nothing to do with the flag -/

/-- The user plays no part in what `f` does. -/
def Heedless {α : Type} (f : Net D → α × Net D) : Prop :=
  ∀ cancelAfter looks net, f (net.flagged cancelAfter looks)
    = ((f net).1, (f net).2.flagged cancelAfter looks)

namespace Heedless

variable {α : Type} {f : Net D → α × Net D}

theorem same (h : Heedless f) (net : Net D) :
    (f net).2 = (f net).2.flagged net.cancelAfter net.looks :=
  congrArg Prod.snd (h net.cancelAfter net.looks net)

theorem cancelAfter (h : Heedless f) (net : Net D) : (f net).2.cancelAfter = net.cancelAfter := by
  rw [h.same, flagged]

theorem looks (h : Heedless f) (net : Net D) : (f net).2.looks = net.looks := by
  rw [h.same, flagged]

end Heedless

/-! ## The timetable -/

section Seen

variable {κ : Type} {before : List Notice} {moment : Option ℕ} {e e' t t' : Endpoint (Net D) κ}

/-- The request was seen at the place that stands in the timetable at the position `moment`. -/
def SeenAt (before : List Notice) (moment : Option ℕ) (e e' : Endpoint (Net D) κ) : Prop :=
  ∃ site n more, e.noticed = before ++ ⟨site, n⟩ :: more ∧
    moment.bind (e'.outside.looks[·]?) = some site

theorem SeenAt.noticed (h : SeenAt before moment e e') {more : List Notice}
    (hmore : t.noticed = e.noticed ++ more) : SeenAt before moment t e' := by
  obtain ⟨site, n, more', hnoticed, hplace⟩ := h
  refine ⟨site, n, more' ++ more, ?_, hplace⟩
  rw [hmore, hnoticed, List.append_assoc, List.cons_append]

end Seen

variable [DoubleOps D]

section Flagged

variable (cancelAfter : Option ℕ) (looks : List Site)

end Flagged

section Follow

variable {κ : Type} {before : List Notice} {moment : Option ℕ}

/-! ### A look at the flag -/

end Follow

end Net

/-! ## The timetable of an upload -/

section Timetable

variable {D : Type} [DoubleOps D]

/-- The endpoint on the net on which nobody cancels. -/
def Endpoint.calmed {κ : Type} (e : Endpoint (Net D) κ) : Endpoint (Net D) κ :=
  e.onto e.outside.calmed

namespace TransferClient

variable {e : Endpoint (Net D) TransferClient} {file : LocalFile} {looks : List Site}

/-- If nobody cancels, the upload of the file looks at the flag from these places. -/
def Timetable (file : LocalFile) (e : Endpoint (Net D) TransferClient) (looks : List Site) : Prop :=
  Settles (fun fuel ↦ doUpload (Net.link D) fuel file) e.calmed
    (fun _ e' ↦ e'.outside.looks = looks) fun _ _ ↦ False

/-- There is one timetable. -/
theorem Timetable.unique {looks' : List Site} (h : Timetable file e looks)
    (h' : Timetable file e looks') : looks = looks' := by
  obtain ⟨r, ⟨n, hn⟩, hmeets⟩ := h
  obtain ⟨r', ⟨n', hn'⟩, hmeets'⟩ := h'
  obtain rfl : r = r' := (hn _ (Nat.le_max_left n n')).symm.trans (hn' _ (Nat.le_max_right n n'))
  cases r with
  | ok kept t => exact hmeets.symm.trans hmeets'
  | error f t => exact hmeets.elim

end TransferClient

end Timetable

end LoggerAnalyzer
