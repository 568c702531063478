import LoggerAnalyzer.Client.Exchange
import LoggerAnalyzer.Session.Transport

/-!
# What a client hears during an upload

The frames of an upload up to some chunk are `uploadStart`. What comes back for them is an
UPLOAD_BEGIN_ACK and then UPLOAD_ACKs, as far as the server has got.
-/

namespace LoggerAnalyzer

open Program Incremental FrameDecoder TcpSession Conversation

variable {D : Type} [DoubleOps D]

/-- An UPLOAD_BEGIN and some chunks. -/
def uploadStart (announcement : Bytes) (chunks : List Bytes) : List (MsgType × Bytes) :=
  (.uploadBegin, announcement) :: chunks.map fun chunk ↦ (.uploadChunk, chunk)

theorem uploadStart_snoc (announcement : Bytes) (chunks : List Bytes) (chunk : Bytes) :
    uploadStart announcement (chunks ++ [chunk])
      = uploadStart announcement chunks ++ [(.uploadChunk, chunk)] := by
  rw [uploadStart, List.map_append]
  rfl

/-- A file of `total` bytes is announced, and the chunks may be sent. -/
structure Underway (announcement : Bytes) (total : ℕ) (chunks : List Bytes) : Prop where
  fields : ∃ name, uploadBeginFields announcement = some (total, name)
  small : announcement.length ≤ kMaxPayload
  pos : total ≠ 0
  sendable : Sendable chunks
  fits : chunks.flatten.length ≤ total

namespace Underway

variable {announcement : Bytes} {total : ℕ} {chunks : List Bytes}

theorem snoc (h : Underway announcement total chunks) {chunk : Bytes} (hne : chunk ≠ [])
    (hmax : chunk.length ≤ kDefaultMaxChunk)
    (hfits : chunks.flatten.length + chunk.length ≤ total) :
    Underway announcement total (chunks ++ [chunk]) where
  fields := h.fields
  small := h.small
  pos := h.pos
  sendable := List.forall_mem_append.mpr ⟨h.sendable, by simpa using ⟨hne, hmax⟩⟩
  fits := by
    rw [List.flatten_append, List.flatten_singleton, List.length_append]
    exact hfits

theorem length_le (h : Underway announcement total chunks) :
    ∀ f ∈ uploadStart announcement chunks, f.2.length ≤ kMaxPayload := by
  rw [uploadStart, List.forall_mem_cons, List.forall_mem_map]
  exact ⟨h.small, fun chunk hmem ↦ Nat.le_trans (h.sendable chunk hmem).2 (by decide)⟩

/-- What is announced is not empty. -/
theorem fields_ne (h : Underway announcement total chunks) (name : Bytes) :
    uploadBeginFields announcement ≠ some (0, name) := by
  obtain ⟨name', hfields⟩ := h.fields
  intro hzero
  obtain ⟨rfl, -⟩ := Prod.mk.inj (Option.some.inj (hfields.symm.trans hzero))
  exact h.pos rfl

theorem next (h : Underway announcement total chunks) (last : Option (List Bytes)) :
    (service D).next (.idle last) (.uploadBegin, announcement) = some (.uploading total []) := by
  obtain ⟨name, hfields⟩ := h.fields
  exact Phase.next_of_uploadBegin last hfields h.pos

/-- The frames are in order. -/
theorem run (h : Underway announcement total chunks) (last : Option (List Bytes)) :
    (service D).run (.idle last) (uploadStart announcement chunks)
      = some (.uploading total chunks) := by
  rw [uploadStart, Machine.run_cons _ (h.next last),
    run_chunks D h.sendable (by simpa using h.fits),
    List.nil_append]

/-- The first frame of an upload is answered, or it is still to come. -/
theorem answers (h : Underway announcement total chunks) {last : Option (List Bytes)}
    {phase : Phase}
    {frames done rest replies part : List (MsgType × Bytes)} {p q : Bytes} {streaming : Bool}
    (hframes : (.uploadBegin, announcement) :: frames = done ++ rest)
    (hans : (service D).Answered (.idle last) done phase replies)
    (hfront : Front rest p q part streaming) :
    (done = [] ∧ replies ++ part = []) ∨
      ∃ reply done' replies', frames = done' ++ rest ∧
      replies = (.uploadBeginAck, reply) :: replies' ∧
        (service D).Answered (.uploading total []) done' phase replies' := by
  obtain _ | ⟨f, done⟩ := done
  · obtain ⟨-, rfl⟩ := Machine.Answered.nil_iff.mp hans
    obtain rfl : _ = rest := hframes
    cases hfront with
    | frame _ acks => exact .inl ⟨rfl, acks⟩
  · obtain ⟨rfl, hleft⟩ := List.cons.inj hframes
    obtain ⟨phase₁, output, replies', hnext, hans₁, hrest, rfl⟩ := hans.cons
    cases (h.next last).symm.trans hnext
    cases hans₁ with
    | begun => exact .inr ⟨_, done, replies', hleft, rfl, hrest⟩
    | turnedAway fields => exact absurd fields (h.fields_ne _)

end Underway

/-- Chunks, or some of them, are answered by acknowledgements. -/
theorem acks_of_chunks {declared : ℕ} {before chunks : List Bytes} {phase : Phase}
    {done rest replies part : List (MsgType × Bytes)} {p q : Bytes} {streaming : Bool}
    (hframes : chunks.map (fun chunk ↦ (MsgType.uploadChunk, chunk)) = done ++ rest)
    (hans : (service D).Answered (.uploading declared before) done phase replies)
    (hfront : Front rest p q part streaming) : ∀ m ∈ replies ++ part, m.1 = MsgType.uploadAck := by
  obtain ⟨chunks₁, chunks₂, rfl, rfl, rfl⟩ := List.map_eq_append_iff.mp hframes
  rw [List.forall_mem_append]
  refine ⟨answers_chunks hans, ?_⟩
  obtain _ | ⟨chunk, chunks₂⟩ := chunks₂
  · cases hfront
    simp
  · cases hfront with
    | frame _ acks => exact acks

/-- **What comes back for the beginning of an upload.** -/
theorem Underway.replies {announcement : Bytes} {total : ℕ} {chunks : List Bytes}
    (h : Underway announcement total chunks) {last : Option (List Bytes)} {s₀ s : Net D}
    {bytes : Bytes}
    (hrests : Rests (.idle last) s₀)
    (hmoves : Net.Moves (wire (uploadStart announcement chunks)) bytes s₀ s) :
    ∃ replies, bytes ++ s.toClient = wire replies ∧
    (∀ f ∈ replies, Sayable D s₀.session.config f.1 f.2) ∧
      (replies = [] ∧ s.toServer ≠ [] ∨ ∃ reply acks, replies = (.uploadBeginAck, reply) :: acks ∧
        ∀ m ∈ acks, m.1 = MsgType.uploadAck) := by
  have hserved := served hrests h.length_le (by rw [h.run]; rfl) hmoves
  obtain ⟨hframes, hans, -, -, -, hfront, hgiven, hsayable⟩ := hserved
  refine ⟨_, hgiven, hsayable, ?_⟩
  rcases h.answers hframes hans hfront with
    ⟨-, hnone⟩ | ⟨reply, done', replies', hframes', rfl, hans'⟩
  · refine .inl ⟨hnone, fun hserver ↦ ?_⟩
    obtain ⟨_, replies, hall, -, -, hwire, -⟩ := (served hrests h.length_le (by rw [h.run]; rfl)
      hmoves).complete h.length_le hserver
    rw [hgiven, hnone] at hwire
    obtain ⟨_, output, replies', -, hbegun, -, rfl⟩ := hall.cons
    cases hbegun with
    | begun => exact absurd (wire_eq_nil hwire.symm) (List.cons_ne_nil _ _)
    | turnedAway fields => exact absurd fields (h.fields_ne _)
  · rw [List.cons_append]
    exact .inr ⟨reply, _, rfl, acks_of_chunks hframes' hans' hfront⟩

namespace Underway

variable {announcement : Bytes} {total : ℕ} {chunks : List Bytes} {last : Option (List Bytes)}
  {s₀ s : Net D} {read : List (MsgType × Bytes)}

/-- The next frame is the UPLOAD_BEGIN_ACK or, after that, an UPLOAD_ACK. -/
theorem read_next (h : Underway announcement total chunks) (hrests : Rests (.idle last) s₀)
    {type : MsgType} {payload : Bytes}
    (htalk : Talk s₀ (uploadStart announcement chunks) (read ++ [(type, payload)]) s) :
    Sayable D s₀.session.config type payload ∧
    type = if read = [] then .uploadBeginAck else .uploadAck := by
  obtain ⟨replies, hwire, hsayable, hreplies⟩ := h.replies hrests htalk.moves
  obtain ⟨pending, rfl, -⟩ := append_of_wire htalk.small (fun f hf ↦ (hsayable f hf).length) hwire
  have hmem : (type, payload) ∈ read ++ [(type, payload)] ++ pending := by simp
  refine ⟨hsayable _ hmem, ?_⟩
  rcases hreplies with ⟨hnil, -⟩ | ⟨reply, acks, hcons, hacks⟩
  · simp at hnil
  · obtain _ | ⟨f, read⟩ := read
    · exact congrArg Prod.fst (List.cons.inj hcons).1
    · rw [if_neg (List.cons_ne_nil _ _)]
      refine hacks (type, payload) ?_
      rw [← (List.cons.inj hcons).2]
      simp

/-- Once the server has read everything, there is something to read. -/
theorem read_ne_nil (h : Underway announcement total chunks) (hrests : Rests (.idle last) s₀)
    (htalk : Talk s₀ (uploadStart announcement chunks) read s) (hserver : s.toServer = [])
    (hclient : s.toClient = []) : read ≠ [] := by
  obtain ⟨replies, hwire, hsayable, hreplies⟩ := h.replies hrests htalk.moves
  rw [hclient] at hwire
  obtain ⟨pending, rfl, hpending⟩ := append_of_wire htalk.small
    (fun f hf ↦ (hsayable f hf).length) hwire
  obtain rfl := wire_eq_nil hpending.symm
  rw [List.append_nil] at hreplies
  rcases hreplies with ⟨-, hne⟩ | ⟨reply, acks, rfl, -⟩
  · exact absurd hserver hne
  · exact List.cons_ne_nil _ _

section Reading

variable {κ : Type} {refuse : FrameHeader → Option Failure} {e : Endpoint (Net D) κ}

/-- The UPLOAD_BEGIN_ACK is read. -/
theorem yields_readAck (h : Underway announcement total []) (hrests : Rests (.idle last) s₀)
    (hlenient : Lenient refuse) (heeds : Bool) (idleMs idleMs' : ℕ)
    (htalk : Talk s₀ (uploadStart announcement []) [] e.outside) :
    Yields (Act.readFrameWith refuse (Act.recvExactly (Net.link D) heeds idleMs)
        (Act.recvExactly (Net.link D) heeds idleMs')) e
      (fun f e' ↦ ∃ (t : TcpSession D) (s : Net D),
        f = ⟨frameHeader .uploadBeginAck t.uploadBeginAckPayload, t.uploadBeginAckPayload⟩ ∧
        e' = e.onto s ∧
        Talk s₀ (uploadStart announcement []) [(.uploadBeginAck, t.uploadBeginAckPayload)] s)
      (Midway refuse heeds e) := by
  refine (yields_readFrame hlenient heeds idleMs idleMs' hrests h.length_le (by rw [h.run]; rfl)
    htalk).mono ?_ ?_
  · rintro f _ ⟨type, payload, s, rfl, rfl, htalk', -⟩
    obtain ⟨hsayable, rfl⟩ := h.read_next hrests htalk'
    obtain ⟨t, rfl⟩ := hsayable.beginAck rfl
    exact ⟨t, s, rfl, rfl, htalk'⟩
  · rintro failure e' (hstopped | ⟨ms, s, rfl, rfl, hmoves, hserver, hclient⟩)
    · exact hstopped
    · have htalk' := htalk.moves.trans hmoves
      rw [List.append_nil, List.append_nil] at htalk'
      exact absurd rfl (h.read_ne_nil hrests ⟨htalk', htalk.small⟩ hserver hclient)

/-- An UPLOAD_ACK that has arrived is read. -/
theorem yields_readUploadAck (h : Underway announcement total chunks)
    (hrests : Rests (.idle last) s₀) (hlenient : Lenient refuse) (heeds : Bool)
    (idleMs idleMs' : ℕ) (htalk : Talk s₀ (uploadStart announcement chunks) read e.outside)
    (hread : read ≠ []) (harrived : e.outside.toClient ≠ []) :
    Yields (Act.readFrameWith refuse (Act.recvExactly (Net.link D) heeds idleMs)
        (Act.recvExactly (Net.link D) heeds idleMs')) e
      (fun f e' ↦ ∃ payload s, f = ⟨frameHeader .uploadAck payload, payload⟩ ∧ e' = e.onto s ∧
        Talk s₀ (uploadStart announcement chunks) (read ++ [(.uploadAck, payload)]) s ∧
        s.Shorter e.outside)
      (Interrupted heeds e) := by
  refine (yields_readFrame hlenient heeds idleMs idleMs' hrests h.length_le (by rw [h.run]; rfl)
    htalk).mono ?_ ?_
  · rintro f _ ⟨type, payload, s, rfl, rfl, htalk', hshorter⟩
    obtain ⟨-, htype⟩ := h.read_next hrests htalk'
    rw [if_neg hread] at htype
    subst htype
    exact ⟨payload, s, rfl, rfl, htalk', hshorter⟩
  · rintro failure e' (hstopped | ⟨ms, s, rfl, rfl, hmoves, -, hclient⟩)
    · exact hstopped.interrupted
    · obtain ⟨new, -, hnew⟩ := hmoves.answered
      rw [hclient] at hnew
      exact absurd (List.append_eq_nil_iff.mp hnew).1 harrived

end Reading

end Underway

end LoggerAnalyzer
