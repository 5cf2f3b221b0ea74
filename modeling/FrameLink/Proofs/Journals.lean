import FrameLink.Proofs.Coherence
import FrameLink.Proofs.Sending

/-! What is on the sink of a link, told by calls and answers alone. A journal keeps account of the open transaction, of
compression, and of the packets for which the owner of a transaction has ended it: what such a packet is does not
change any more once its sending has begun. The sink holds what the journal tells, packet by packet, and a packet that
has failed has left the start of its frame. -/

namespace FrameLink

namespace Packet

/-- The frame of a packet does not depend on what the frame held before. -/
theorem encode_eq_encodeInto (frame : Bytes) (sequence : Int32) (payload : Bytes) (threshold : Int32) (level : Nat) :
    encode sequence payload threshold level = match encodeInto frame sequence payload threshold level with
      | (.ok h, frame') => .ok (h, frame')
      | (.error e, _) => .error e := by
  unfold encode encodeInto
  cases length? payload.length with
  | none => rfl
  | some rawLength => rfl

/-- The header and the frame of a packet. -/
def Job.encode (j : Job) : Except LinkError (Header × Bytes) :=
  Packet.encode j.sequence j.payload j.threshold j.level

end Packet

/-- A packet for which a transaction has been ended, and what this was answered. -/
structure Posting where
  job : Packet.Job
  answer : Except LinkError Reply

/-- The bytes that a posting leaves on the sink: the frame of the packet if it has succeeded, the start of the frame if
it has failed, and nothing if no frame can be made. -/
def Posting.Leaves (e : Posting) (piece : Bytes) : Prop :=
  match e.job.encode with
  | .ok (_, frame) => piece <+: frame ∧ ∀ reply, e.answer = .ok reply → piece = frame
  | .error cause => piece = [] ∧ e.answer = .error cause

/-- What has been told of compression. -/
structure Tuning where
  policy : Policy
  level : Nat
  threshold : Int32 := -1

/-- What an attempt at a call tells. The policy is asked whenever compression is switched on. -/
def Tuning.note (s : Tuning) (c : Call) (r : Attempt LinkError Reply) : Tuning :=
  match c, r with
  | .enableCompression, .ok _ =>
    match s.policy.ask with
    | (answer, policy) => { s with policy := policy, threshold := if 0 < answer then answer else -1 }
  | .disableCompression, .ok _ => { s with threshold := -1 }
  | _, _ => s

theorem Tuning.note_of_ne {s : Tuning} {c : Call} (henable : c ≠ .enableCompression)
    (hdisable : c ≠ .disableCompression) (r : Attempt LinkError Reply) : s.note c r = s := by
  unfold note
  split
  · exact absurd rfl henable
  · exact absurd rfl hdisable
  · rfl

/-- What has been told of the writing side, with the packets that have been put on the sink and the one that is being
sent. -/
structure Journal where
  tuning : Tuning
  writings : Writings := {}
  posted : List Posting := []
  sending : Option Packet.Job := none

namespace Journal

/-- The packet that an attempt of a thread at a call puts on the sink, or goes on putting there. -/
def job? (s : Journal) (me : Thread) (c : Call) : Option Packet.Job :=
  match c, s.writings.current with
  | .endWrite, some (owner, m) =>
    if owner = me ∧ m.payload ≠ [] then some (s.sending.getD (m.job s.tuning.threshold s.tuning.level)) else none
  | _, _ => none

/-- What an attempt at a call tells. -/
def note (s : Journal) (t : Trial Call Reply) : Journal where
  tuning := s.tuning.note t.call t.result
  writings := s.writings.noteAttempt t.thread t.call t.result
  posted := match s.job? t.thread t.call, t.result.result? with
    | some j, some answer => s.posted ++ [⟨j, answer⟩]
    | _, _ => s.posted
  sending := match s.job? t.thread t.call, t.result.result? with
    | some j, none => some j
    | some _, some _ => none
    | none, _ => s.sending

/-- What attempts at calls tell of a link that is new before them. -/
def ofTrials (settings : Settings) (trials : List (Trial Call Reply)) : Journal :=
  trials.foldl note { tuning := ⟨settings.policy, settings.level, -1⟩ }

section

variable {s : Journal} {me : Thread} {c : Call} {t : Trial Call Reply}

theorem ofTrials_concat (settings : Settings) (trials : List (Trial Call Reply)) (t : Trial Call Reply) :
    ofTrials settings (trials ++ [t]) = (ofTrials settings trials).note t := by
  rw [ofTrials, List.foldl_append]
  rfl

theorem job?_of_ne (hc : c ≠ .endWrite) : s.job? me c = none := by
  unfold job?
  split
  · exact absurd rfl hc
  · rfl

theorem job?_of_payload {m : Message} (hcurrent : s.writings.current = some (me, m)) (hpayload : m.payload ≠ []) :
    s.job? me .endWrite = some (s.sending.getD (m.job s.tuning.threshold s.tuning.level)) := by
  simp only [job?, hcurrent]
  exact if_pos ⟨trivial, hpayload⟩

theorem job?_of_empty {m : Message} (hcurrent : s.writings.current = some (me, m)) (hpayload : m.payload = []) :
    s.job? me .endWrite = none := by
  simp only [job?, hcurrent]
  exact if_neg fun h => h.2 hpayload

theorem job?_of_not_owner (howner : ∀ owner m, s.writings.current = some (owner, m) → owner ≠ me) :
    s.job? me c = none := by
  unfold job?
  split
  · exact if_neg fun h => howner _ _ (by assumption) h.1
  · rfl

theorem note_posted_of_none (h : s.job? t.thread t.call = none) : (s.note t).posted = s.posted := by
  simp only [note, h]

theorem note_sending_of_none (h : s.job? t.thread t.call = none) : (s.note t).sending = s.sending := by
  simp only [note, h]

end

end Journal

namespace Writings

theorem note_endWrite {s : Writings} {me : Thread} {m : Message} (hcurrent : s.current = some (me, m))
    (answer : Except LinkError Reply) : (s.note me .endWrite answer).current = none := by
  cases answer <;> simp only [note, hcurrent, if_true]

theorem note_write {s : Writings} {me : Thread} {m : Message} (hcurrent : s.current = some (me, m)) (bs : Bytes) :
    (s.note me (.write bs) (.ok .done)).current = some (me, { m with payload := m.payload ++ bs }) := by
  simp only [note, hcurrent, if_true]

theorem note_restartWrite {s : Writings} {me : Thread} {m : Message} (hcurrent : s.current = some (me, m)) :
    (s.note me .restartWrite (.ok .done)).current = some (me, { m with payload := [] }) := by
  simp only [note, hcurrent, if_true]

theorem note_cancelWrite {s : Writings} {me : Thread} {m : Message} (hcurrent : s.current = some (me, m)) :
    (s.note me .cancelWrite (.ok .done)).current = none := by
  simp only [note, hcurrent, if_true]

theorem noteAttempt_of_error {s : Writings} {me : Thread} {c : Call} (hc : c ≠ .endWrite) (e : LinkError) :
    s.noteAttempt me c (.error e) = s := by
  show s.note me c (.error e) = s
  unfold note
  split
  all_goals first
    | rfl
    | exact absurd rfl hc
    | contradiction

end Writings

namespace Outbound

/-- What a call that waits for the sink has put there of the packet being sent, and what is left to send. -/
inductive Pending : Option Bytes → Option Packet.Job → Bytes → Prop where
  | idle : Pending none none []
  | sending {j : Packet.Job} {h : Header} {last rest : Bytes} (hencode : j.encode = .ok (h, last ++ rest)) :
      Pending (some rest) (some j) last

theorem Pending.of_idle {sending : Option Packet.Job} {last : Bytes} (h : Pending none sending last) :
    sending = none ∧ last = [] := by
  cases h with
  | idle => exact ⟨rfl, rfl⟩

theorem Pending.exists_job {rest last : Bytes} {sending : Option Packet.Job} (h : Pending (some rest) sending last) :
    ∃ j header, sending = some j ∧ j.encode = .ok (header, last ++ rest) := by
  cases h with
  | sending hencode => exact ⟨_, _, rfl, hencode⟩

/-- The writing side is as the journal tells, with `start` on the sink before. -/
structure Records (start : Bytes) (o : Outbound) (s : Journal) : Prop where
  holder : o.lock.holder = s.writings.current.map Prod.fst
  message : ∀ me m, s.writings.current = some (me, m) → o.sequence = m.sequence ∧ o.buffer = m.payload
  written : ∃ pieces last, o.sink.written = start ++ pieces.flatten ++ last ∧
    List.Forall₂ Posting.Leaves s.posted pieces ∧ Pending o.sending s.sending last
  busy : o.sending ≠ none → o.buffer ≠ []
  frame : o.sending = none → (∀ e ∈ s.posted, e.job.Fits) → o.frame = []

section

variable {start : Bytes} {threshold : Int32} {level : Nat} {o o' : Outbound} {s : Journal} {me : Thread} {c : Call}
  {r : Attempt LinkError Unit} {j : Packet.Job}

theorem Records.owner (h : o.Records start s) (hholder : o.lock.holder = some me) :
    ∃ m, s.writings.current = some (me, m) :=
  Writings.exists_current h.holder hholder

theorem Records.not_owner (h : o.Records start s) (hholder : o.lock.holder ≠ some me) :
    ∀ owner m, s.writings.current = some (owner, m) → owner ≠ me :=
  Writings.ne_of_current h.holder hholder

/-- Nothing is put on the sink by an attempt that has no packet. -/
theorem Records.of_no_job (h : o.Records start s) {t : Trial Call Reply} (hjob : s.job? t.thread t.call = none)
    (hsink : o'.sink.written = o.sink.written) (hsending : o'.sending = o.sending) (hframe : o'.frame = o.frame)
    (hholder : o'.lock.holder = (s.note t).writings.current.map Prod.fst)
    (hmessage : ∀ you m, (s.note t).writings.current = some (you, m) → o'.sequence = m.sequence ∧ o'.buffer = m.payload)
    (hbusy : o.sending ≠ none → o'.buffer = o.buffer) : o'.Records start (s.note t) := by
  refine ⟨hholder, hmessage, ?_, ?_, ?_⟩
  · rw [hsink, hsending, Journal.note_posted_of_none hjob, Journal.note_sending_of_none hjob]
    exact h.written
  · rw [hsending]
    intro hsome
    rw [hbusy hsome]
    exact h.busy hsome
  · rw [hsending, hframe, Journal.note_posted_of_none hjob]
    exact h.frame

/-- Nothing changes with an attempt that tells nothing and has no packet. -/
theorem Records.of_unchanged (h : o.Records start s) {t : Trial Call Reply} (hjob : s.job? t.thread t.call = none)
    (hnote : s.writings.noteAttempt t.thread t.call t.result = s.writings) {lock : Lock}
    (hholder : lock.holder = o.lock.holder) : ({ o with lock := lock } : Outbound).Records start (s.note t) := by
  have hwritings : (s.note t).writings = s.writings := hnote
  refine h.of_no_job hjob rfl rfl rfl ?_ ?_ fun _ => rfl
  · rw [hwritings]
    exact hholder.trans h.holder
  · rw [hwritings]
    exact h.message

/-- The packet of a transaction that is ended while no call waits for the sink is what has been written in it. -/
theorem Records.job?_anew (h : o.Records start s) {m : Message} (hcurrent : s.writings.current = some (me, m))
    (hidle : o.sending = none) (hbuffer : o.buffer ≠ []) :
    s.job? me .endWrite = some (m.job s.tuning.threshold s.tuning.level) := by
  obtain ⟨_, _, -, -, hpending⟩ := h.written
  rw [hidle] at hpending
  rw [Journal.job?_of_payload hcurrent ((h.message me m hcurrent).2 ▸ hbuffer), hpending.of_idle.1, Option.getD_none]

/-- What encoding the packet in the buffer comes to, the packet of the journal comes to. -/
theorem Records.encode_eq (h : o.Records start s) {m : Message} (hcurrent : s.writings.current = some (me, m))
    (threshold : Int32) (level : Nat) : (m.job threshold level).encode =
      match Packet.encodeInto o.frame o.sequence o.buffer threshold level with
      | (.ok header, frame) => .ok (header, frame)
      | (.error e, _) => .error e := by
  obtain ⟨hsequence, hbuffer⟩ := h.message me m hcurrent
  rw [hsequence, hbuffer, Packet.Job.encode, Packet.encode_eq_encodeInto o.frame]
  rfl

/-- What an attempt posts is what is left of the frame of its packet. -/
theorem Records.posts (h : o.Records start s) (hholder : o.lock.holder = some me) {left : Bytes}
    (hposts : Posts false s.tuning.threshold s.tuning.level o left) :
    ∃ j header pieces last, s.job? me .endWrite = some j ∧ j.encode = .ok (header, last ++ left) ∧
      o.sink.written = start ++ pieces.flatten ++ last ∧ List.Forall₂ Posting.Leaves s.posted pieces := by
  obtain ⟨m, hcurrent⟩ := h.owner hholder
  obtain ⟨pieces, last, hwritten, hleaves, hpending⟩ := h.written
  cases hposts with
  | anew hopen hidle hne hencode =>
      rename_i header
      rw [hidle] at hpending
      obtain ⟨-, rfl⟩ := hpending.of_idle
      refine ⟨m.job s.tuning.threshold s.tuning.level, header, pieces, [], h.job?_anew hcurrent hidle hne, ?_, hwritten,
        hleaves⟩
      rw [h.encode_eq hcurrent, hencode]
      rfl
  | again hsending =>
      have hne := h.busy (by rw [hsending]; exact nofun)
      rw [hsending] at hpending
      obtain ⟨j, header, hjob, hencode⟩ := hpending.exists_job
      refine ⟨j, header, pieces, last, ?_, hencode, hwritten, hleaves⟩
      rw [Journal.job?_of_payload hcurrent ((h.message me m hcurrent).2 ▸ hne), hjob, Option.getD_some]

/-- A packet whose sending is over leaves its piece on the sink. -/
theorem Records.of_posted (hjob : s.job? me .endWrite = some j) {answer : Except LinkError Reply}
    (hcurrent : ∃ m, s.writings.current = some (me, m)) {r : Attempt LinkError Reply} (hr : r.result? = some answer)
    {pieces : List Bytes} {piece : Bytes} (hwritten : o'.sink.written = start ++ pieces.flatten ++ piece)
    (hpieces : List.Forall₂ Posting.Leaves s.posted pieces) (hpiece : Posting.Leaves ⟨j, answer⟩ piece)
    (hholder : o'.lock.holder = none) (hidle : o'.sending = none) (hframe : j.Fits → o'.frame = []) :
    o'.Records start (s.note ⟨me, .endWrite, r⟩) := by
  have hposted : (s.note ⟨me, .endWrite, r⟩).posted = s.posted ++ [⟨j, answer⟩] := by
    simp only [Journal.note, hjob, hr]
  have hsending : (s.note ⟨me, .endWrite, r⟩).sending = none := by
    simp only [Journal.note, hjob, hr]
  have hover : (s.note ⟨me, .endWrite, r⟩).writings.current = none := by
    obtain ⟨m, hcurrent⟩ := hcurrent
    simp only [Journal.note, Writings.noteAttempt, hr]
    exact Writings.note_endWrite hcurrent answer
  refine ⟨?_, ?_, ⟨pieces ++ [piece], [], ?_, ?_, ?_⟩, fun hsome => absurd hidle hsome, fun _ hfits => ?_⟩
  · rw [hholder, hover]
    rfl
  · intro you m hsome
    rw [hover] at hsome
    cases hsome
  · rw [hwritten, List.flatten_append, List.flatten_singleton, List.append_nil, List.append_assoc]
  · rw [hposted]
    exact List.rel_append hpieces (.cons hpiece .nil)
  · rw [hidle, hsending]
    exact .idle
  · rw [hposted] at hfits
    exact hframe (hfits _ (List.mem_append_right _ List.mem_cons_self))

theorem Records.begun (h : o.Records start s) (hidle : o.sending = none) (n : Int32) :
    ({ o with lock := o.lock.taken me, sequence := n, buffer := [] } : Outbound).Records start
      (s.note ⟨me, .beginWrite n, .ok .done⟩) := by
  refine h.of_no_job (Journal.job?_of_ne (by simp)) rfl rfl rfl rfl ?_ (absurd hidle)
  intro you m hcurrent
  obtain ⟨-, rfl⟩ := Prod.mk.inj (Option.some.inj hcurrent)
  exact ⟨rfl, rfl⟩

/-- The owner of a transaction in which nothing is being sent changes the payload. -/
theorem Records.rewritten (h : o.Records start s) (hholder : o.lock.holder = some me) (hidle : o.sending = none)
    (hc : c ≠ .endWrite) {f : Bytes → Bytes} (hnote : ∀ m, s.writings.current = some (me, m) →
      (s.note ⟨me, c, .ok .done⟩).writings.current = some (me, { m with payload := f m.payload })) :
    ({ o with buffer := f o.buffer } : Outbound).Records start (s.note ⟨me, c, .ok .done⟩) := by
  obtain ⟨m, hcurrent⟩ := h.owner hholder
  obtain ⟨hsequence, hbuffer⟩ := h.message me m hcurrent
  have hnow := hnote m hcurrent
  refine h.of_no_job (Journal.job?_of_ne hc) rfl rfl rfl (hholder.trans ?_) ?_ (absurd hidle)
  · exact (congrArg (Option.map Prod.fst) hnow).symm
  · intro you m' hcurrent'
    obtain ⟨-, rfl⟩ := Prod.mk.inj (Option.some.inj (hnow.symm.trans hcurrent'))
    exact ⟨hsequence, congrArg f hbuffer⟩

/-- A transaction that ends without a packet leaves nothing on the sink. -/
theorem Records.dropped (h : o.Records start s) (hholder : o.lock.holder = some me) (hidle : o.sending = none)
    (hc : c = .cancelWrite ∨ c = .endWrite ∧ o.buffer = []) :
    ({ o with buffer := [], lock := o.lock.vacated me } : Outbound).Records start (s.note ⟨me, c, .ok .done⟩) := by
  obtain ⟨m, hcurrent⟩ := h.owner hholder
  have hjob : s.job? me c = none := by
    rcases hc with rfl | ⟨rfl, hempty⟩
    · exact Journal.job?_of_ne (by simp)
    · exact Journal.job?_of_empty hcurrent ((h.message me m hcurrent).2.symm.trans hempty)
  have hover : (s.note ⟨me, c, .ok .done⟩).writings.current = none := by
    rcases hc with rfl | ⟨rfl, -⟩
    · exact Writings.note_cancelWrite hcurrent
    · exact Writings.note_endWrite hcurrent _
  refine h.of_no_job hjob rfl rfl rfl (congrArg (Option.map Prod.fst) hover).symm ?_ (absurd hidle)
  intro you m' hcurrent'
  cases hover.symm.trans hcurrent'

/-- A packet that cannot be made leaves nothing on the sink. -/
theorem Records.unfit (h : o.Records start s) (hholder : o.lock.holder = some me) (hidle : o.sending = none)
    (hbuffer : o.buffer ≠ []) {e : LinkError} {frame : Bytes}
    (hencode : Packet.encodeInto o.frame o.sequence o.buffer s.tuning.threshold s.tuning.level = (.error e, frame)) :
    ({ o with buffer := [], frame := frame, lock := o.lock.vacated me } : Outbound).Records start
      (s.note ⟨me, .endWrite, .error e⟩) := by
  obtain ⟨m, hcurrent⟩ := h.owner hholder
  obtain ⟨hsequence, hpayload⟩ := h.message me m hcurrent
  obtain ⟨pieces, last, hwritten, hleaves, hpending⟩ := h.written
  rw [hidle] at hpending
  obtain ⟨-, rfl⟩ := hpending.of_idle
  have herror : (m.job s.tuning.threshold s.tuning.level).encode = .error e := by
    rw [h.encode_eq hcurrent, hencode]
  refine Records.of_posted (h.job?_anew hcurrent hidle hbuffer) ⟨m, hcurrent⟩ rfl hwritten hleaves ?_ rfl hidle
    fun hfits => ?_
  · simp only [Posting.Leaves, herror]
    exact ⟨trivial, trivial⟩
  · -- A packet that fits is encoded without failure.
    have hok := Packet.Job.encodeInto_eq hfits o.frame
    rw [Packet.Job.encodeInto] at hok
    rw [hsequence, hpayload] at hencode
    cases hok.symm.trans hencode

/-- A packet of which the sink has taken a part is still the one that the journal is sending. -/
theorem Records.waits (h : o.Records start s) (hholder : o.lock.holder = some me) {left rest : Bytes} {sink : Sink}
    (hposts : Posts false s.tuning.threshold s.tuning.level o left) (htakes : o.sink.Takes left rest sink)
    (frame : Bytes) : ({ o with sink := sink, frame := frame, sending := some rest } : Outbound).Records start
      (s.note ⟨me, .endWrite, .waiting⟩) := by
  obtain ⟨j, header, pieces, last, hjob, hencode, hwritten, hleaves⟩ := h.posts hholder hposts
  obtain ⟨taken, rfl, hsink⟩ := htakes
  have hbuffer : o.buffer ≠ [] := by
    cases hposts with
    | anew _ _ hne _ => exact hne
    | again hsending => exact h.busy (by simp [hsending])
  refine ⟨h.holder, h.message, ⟨pieces, last ++ taken, ?_, ?_, ?_⟩, fun _ => hbuffer, by simp⟩
  · rw [hsink, hwritten, List.append_assoc]
  · simp only [Journal.note, hjob, Attempt.result?]
    exact hleaves
  · simp only [Journal.note, hjob, Attempt.result?]
    rw [← List.append_assoc] at hencode
    exact .sending hencode

/-- A packet that has been sent leaves its frame on the sink, one that has failed the start of it. -/
theorem Records.sent (h : o.Records start s) (hholder : o.lock.holder = some me) {left rest : Bytes} {sink : Sink}
    (hposts : Posts false s.tuning.threshold s.tuning.level o left) (htakes : o.sink.Takes left rest sink)
    (hr : r = .ok () ∧ rest = [] ∨ ∃ io, r = .error (.stream io)) (present : Bool) :
    (⟨sink, o.lock.vacated me, present, o.sequence, [], [], none⟩ : Outbound).Records start
      (s.note ⟨me, .endWrite, r.map fun _ => .done⟩) := by
  obtain ⟨j, header, pieces, last, hjob, hencode, hwritten, hleaves⟩ := h.posts hholder hposts
  obtain ⟨taken, rfl, hsink⟩ := htakes
  have hpiece : sink.written = start ++ pieces.flatten ++ (last ++ taken) := by
    rw [hsink, hwritten, List.append_assoc]
  have hstart : last ++ taken <+: last ++ (taken ++ rest) := ⟨rest, List.append_assoc ..⟩
  rcases hr with ⟨rfl, rfl⟩ | ⟨io, rfl⟩
  · refine Records.of_posted hjob (h.owner hholder) rfl hpiece hleaves ?_ rfl rfl fun _ => rfl
    simp only [Posting.Leaves, hencode]
    exact ⟨hstart, fun _ _ => by rw [List.append_nil]⟩
  · refine Records.of_posted hjob (h.owner hholder) rfl hpiece hleaves ?_ rfl rfl fun _ => rfl
    simp only [Posting.Leaves, hencode]
    exact ⟨hstart, nofun⟩

/-- Whatever a call on an open link comes to, the writing side is as the journal tells. -/
theorem Outcome.records (ho : Outcome false s.tuning.threshold s.tuning.level me c o r o') (h : o.Records start s) :
    o'.Records start (s.note ⟨me, c, r.map fun _ => .done⟩) := by
  cases ho with
  | queued hc hholder hfree hqueue => exact h.of_unchanged (Journal.job?_of_ne (by simp [hc])) rfl rfl
  | reentrant hc hopen hholder =>
      subst hc
      rename_i n operation
      have hnote : s.writings.noteAttempt me (.beginWrite n) (.error (.reentrancy operation)) = s.writings :=
        Writings.noteAttempt_of_error (by simp) _
      exact h.of_unchanged (t := ⟨me, .beginWrite n, _⟩) (Journal.job?_of_ne (by simp)) hnote rfl
  | unowned hc hopen hholder =>
      have howner := h.not_owner hholder
      rename_i operation
      have hnote : s.writings.noteAttempt me c (.error (.protocolState operation "write")) = s.writings :=
        Writings.note_of_not_owner hc howner _
      exact h.of_unchanged (t := ⟨me, c, _⟩) (Journal.job?_of_not_owner howner) hnote rfl
  | shut hclosed hholder hqueue => cases hclosed
  | expelled hclosed hmine hidle => cases hclosed
  | begun hc hopen hnone hidle => exact hc ▸ h.begun hidle _
  | added hc hopen hholder hidle =>
      subst hc
      rename_i bs
      exact h.rewritten hholder hidle (by simp) (f := fun payload => payload ++ bs)
        fun m hcurrent => Writings.note_write hcurrent bs
  | restarted hc hopen hholder hidle =>
      subst hc
      exact h.rewritten hholder hidle (by simp) (f := fun _ => []) fun m hcurrent => Writings.note_restartWrite hcurrent
  | dropped hc hopen hholder hidle => exact h.dropped hholder hidle hc
  | unfit hc hopen hholder hidle hbuffer hencode => exact hc ▸ h.unfit hholder hidle hbuffer hencode
  | waits hc hholder hposts htakes => exact hc ▸ h.waits hholder hposts htakes _
  | sent hc hholder hposts htakes hr => exact hc ▸ h.sent hholder hposts htakes hr _

end

end Outbound

namespace Link

/-- The link is as the journal tells, with `start` on the sink before. -/
structure Records (start : Bytes) (l : Link) (s : Journal) : Prop where
  tuning : s.tuning = ⟨l.settings.policy, l.settings.level, l.threshold⟩
  outbound : l.outbound.Records start s

section

variable {start : Bytes} {l l' : Link} {s : Journal} {me : Thread} {c : Call} {r : Attempt LinkError Reply}

/-- A call that is not about the writing side tells nothing of it. -/
theorem Records.of_not_writes (h : Records start l s) (hwrites : c.writes = false)
    (houtbound : l'.outbound = l.outbound)
    (htuning : s.tuning.note c r = ⟨l'.settings.policy, l'.settings.level, l'.threshold⟩) :
    Records start l' (s.note ⟨me, c, r⟩) := by
  have hne : c ≠ .endWrite := fun heq => by subst heq; cases hwrites
  refine ⟨htuning, ?_⟩
  rw [houtbound]
  exact h.outbound.of_unchanged (t := ⟨me, c, r⟩) (Journal.job?_of_ne hne)
    (Writings.noteAttempt_of_not_writes hwrites s.writings me r) rfl

/-- Whatever a call comes to that does not close the link, the link is as the journal tells. -/
theorem Outcome.records (ho : Outcome me c l r l') (hopen : l.closed = false) (hc : c ≠ .close)
    (h : Records start l s) : Records start l' (s.note ⟨me, c, r⟩) := by
  cases ho with
  | inward hinward ho =>
      refine h.of_not_writes (writes_eq_false_of_isInward hinward) rfl ?_
      rw [Tuning.note_of_ne (by rintro rfl; cases hinward) (by rintro rfl; cases hinward)]
      exact h.tuning
  | outward hwrites ho =>
      refine ⟨?_, ?_⟩
      · show s.tuning.note c _ = _
        rw [Tuning.note_of_ne (by rintro rfl; cases hwrites) (by rintro rfl; cases hwrites)]
        exact h.tuning
      · have hthreshold : l.threshold = s.tuning.threshold := by rw [h.tuning]
        have hlevel : l.settings.level = s.tuning.level := by rw [h.tuning]
        rw [hopen, hthreshold, hlevel] at ho
        exact ho.records h.outbound
  | enabled henable _ hthreshold =>
      subst henable hthreshold
      refine h.of_not_writes rfl rfl ?_
      simp only [Tuning.note, h.tuning]
      rfl
  | disabled hdisable _ =>
      subst hdisable
      refine h.of_not_writes rfl rfl ?_
      simp only [Tuning.note, h.tuning]
  | barred _ hclosed => rw [hopen] at hclosed; cases hclosed
  | closes hclose _ _ => exact absurd hclose hc
  | closedBefore hclose _ => exact absurd hclose hc
  | asked hask =>
      rcases hask with rfl | rfl
      · exact h.of_not_writes rfl rfl h.tuning
      · exact h.of_not_writes rfl rfl h.tuning

theorem Records.stir (h : Records start l s) (hstirs : Stirs l l') : Records start l' s := by
  obtain ⟨htuning, hholder, hmessage, hwritten, hbusy, hframe⟩ := h
  cases hstirs with
  | source src => exact ⟨htuning, hholder, hmessage, hwritten, hbusy, hframe⟩
  | sink replies flushes broken passes => exact ⟨htuning, hholder, hmessage, hwritten, hbusy, hframe⟩
  | favour me => exact ⟨htuning, (Lock.favour_holder _ me).trans hholder, hmessage, hwritten, hbusy, hframe⟩

theorem records_new (settings : Settings) (hook : Hook) (src : Source) (sink : Sink) :
    Records sink.written (new settings hook src sink) { tuning := ⟨settings.policy, settings.level, -1⟩ } := by
  refine ⟨rfl, rfl, nofun, ⟨[], [], ?_, .nil, .idle⟩, absurd rfl, fun _ _ => rfl⟩
  show sink.written = sink.written ++ [] ++ []
  rw [List.append_nil, List.append_nil]

/-- In every state that threads can bring a link into before they close it, the link is as the journal tells. -/
theorem Course.records {settings : Settings} {hook : Hook} {src : Source} {sink : Sink}
    {trials : List (Trial Call Reply)} {p : Play Link Call Reply}
    (h : Course { world := new settings hook src sink } trials p) (hopen : p.world.closed = false) :
    Records sink.written p.world (Journal.ofTrials settings trials) := by
  have hkeeps := h.keeps
    (I := fun trials q => IsCoherent q ∧
      (q.world.closed = false → Records sink.written q.world (Journal.ofTrials settings trials)))
    (fun trials q me c hq hallows => ?_) (fun trials q l hq hstirs => ?_)
    ⟨isCoherent_new settings hook src sink, fun _ => records_new settings hook src sink⟩
  · exact hkeeps.2 hopen
  · refine ⟨hq.1.attempt hallows, fun hopen' => ?_⟩
    rw [Play.attempt_world] at hopen' ⊢
    have hbefore : q.world.closed = false := by
      by_contra hclosed
      rw [Bool.not_eq_false] at hclosed
      exact Bool.noConfusion (hopen'.symm.trans (closed_call hclosed me c))
    have hc : c ≠ .close := by
      rintro rfl
      exact Bool.noConfusion (hopen'.symm.trans (closed_close me q.world))
    rw [Journal.ofTrials_concat]
    exact (hq.1.call_outcome hallows).records hbefore hc (hq.2 hbefore)
  · exact ⟨hq.1.stir hstirs, fun hopen' => (hq.2 (hstirs.closed.symm.trans hopen')).stir hstirs⟩

end

end Link

end FrameLink
