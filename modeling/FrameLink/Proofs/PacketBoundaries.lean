import FrameLink.Proofs.Alignment

/-! Threads that read from a link over a source of packets. Whatever the payloads are worth, in whatever pieces they
come and however often the source is interrupted, the packets are opened one after the other, and none is lost by
how the reading of those before it went. -/

namespace FrameLink

/-! What an aligned reading side answers. Beginning to read answers the sequence number of the next packet, as soon
as the lock is free; within a transaction, what remains is what has not been read of the payload, and if the
payload is sound nothing fails but a request for more than remains. -/

namespace Inbound

/-- What beginning to read answers when `n` of the parcels have been begun and nobody is in the way. -/
def nextAnswer (live : Bool) (ps : List Parcel) (n : Nat) : Attempt LinkError Int32 :=
  match ps[n]? with
  | some p => .ok p.header.sequence
  | none => if live then .waiting else .error Header.shortError

section

variable {limit : Option Nat} {live : Bool} {ps : List Parcel} {held : Thread → Option Call} {i : Inbound}
  {seen : Readings} {me : Thread}

theorem openPacket_answer {behind ahead : List Parcel} (hsound : ∀ p ∈ behind ++ ahead, p.IsSound limit)
    (hsmooth : i.source.IsSmooth) (hholder : i.lock.holder = some me) (hdata : i.source.data = Parcel.wires ahead) :
    (i.openPacket false limit me []).1 = nextAnswer i.source.live (behind ++ ahead) behind.length := by
  cases ahead with
  | nil =>
      obtain ⟨src, heq, -⟩ := openPacket_nil limit hsmooth hdata hholder
      rw [heq, nextAnswer, List.append_nil, List.getElem?_eq_none (Nat.le_refl _)]
      cases i.source.live <;> rfl
  | cons p ahead =>
      obtain ⟨src, heq, -⟩ :=
        openPacket_wire me (hsound p (List.mem_append_right _ List.mem_cons_self)) hsmooth hdata
      rw [heq, nextAnswer, List.getElem?_append_right (Nat.le_refl _), Nat.sub_self]
      rfl

/-- Beginning to read outside a transaction answers the next packet, or waits behind other threads. If nothing can
be waited for but the lock, only those wait that have queued up for it; and some thread never waits behind
others. -/
theorem IsAligned.begin_answer (h : IsAligned limit live ps held i seen) (hcurrent : seen.current = none) :
    (∀ me, (i.begin false limit me).1 = nextAnswer live ps seen.begun.length ∨
      (i.begin false limit me).1 = .waiting) ∧
    (∀ me, live = false → i.lock.isAwaitedBy me = false →
      (i.begin false limit me).1 = nextAnswer live ps seen.begun.length) ∧
    ∃ me, (i.begin false limit me).1 = nextAnswer live ps seen.begun.length := by
  obtain ⟨hsound, hsmooth, hlive, hstanding⟩ := h
  have hbegun : ∀ {behind}, List.Forall₂ Parcel.IsToldBy behind seen.finished → seen.begun.length = behind.length := by
    intro behind htold
    rw [Readings.begun, hcurrent, htold.length_eq]
    exact congrArg List.length (List.append_nil _)
  cases hstanding with
  | within _ _ hsome _ _ _ _ _ => rw [hsome] at hcurrent; cases hcurrent
  | between hps htold hnone hholder hinput hdata =>
      rename_i behind ahead
      subst hps
      have hfree : ∀ me, i.lock.isFreeFor me = true →
          (i.begin false limit me).1 = nextAnswer live (behind ++ ahead) seen.begun.length := by
        intro me hme
        rw [begin_of_isFreeFor hme, hbegun htold, ← hlive]
        exact openPacket_answer (i := { i with lock := i.lock.taken me }) hsound hsmooth rfl hdata
      -- The lock is free, so only those who have queued up behind others have to wait.
      refine ⟨fun me => ?_, fun me _ hme => hfree me (Lock.isFreeFor_of_not_awaited hholder hme), ?_⟩
      · cases hme : i.lock.isFreeFor me with
        | true => exact .inl (hfree me hme)
        | false => exact .inr (begin_of_not_isFreeFor (fun hsome => by cases hholder.symm.trans hsome) hme)
      · obtain ⟨me, hme⟩ := Lock.exists_isFreeFor hholder
        exact ⟨me, hfree me hme⟩
  | opening hps htold hnone hholder hheld hinput hdata hmore =>
      rename_i behind ahead owner
      subst hps
      have howner : (i.begin false limit owner).1 = nextAnswer live (behind ++ ahead) seen.begun.length := by
        rw [begin_of_opening hholder hinput, hbegun htold, ← hlive]
        exact openPacket_answer hsound hsmooth hholder hdata
      have htaken : ∀ me, i.lock.isFreeFor me = false := by
        intro me
        refine Bool.eq_false_iff.2 fun hfree => ?_
        cases (Lock.holder_of_isFreeFor hfree).symm.trans hholder
      refine ⟨fun me => ?_, fun me hnot => ?_, owner, howner⟩
      · by_cases hme : owner = me
        · exact .inl (hme ▸ howner)
        · exact .inr (begin_of_not_isFreeFor (fun hsome => hme (Option.some.inj (hholder.symm.trans hsome))) (htaken me))
      · rw [← hlive, hmore] at hnot
        cases hnot

/-- An open transaction is about the parcel that follows those whose transactions are over. -/
theorem IsAligned.current (h : IsAligned limit live ps held i seen) {d : Delivery}
    (hcurrent : seen.current = some (me, d)) :
    ∃ p c, ps[seen.finished.length]? = some p ∧ p.IsSound limit ∧ i.lock.holder = some me ∧ i.input = .reading c ∧
      Cursor.Stands p.header p.body d.bytes c i.source := by
  cases h.standing with
  | between _ _ hnone _ _ _ => rw [hnone] at hcurrent; cases hcurrent
  | opening _ _ hnone _ _ _ _ _ => rw [hnone] at hcurrent; cases hcurrent
  | within hps htold hsome hsequence hholder hinput hstands hdata =>
      rename_i behind ahead owner p d' c
      rw [hsome, Option.some.injEq, Prod.mk.injEq] at hcurrent
      obtain ⟨rfl, rfl⟩ := hcurrent
      have hget : ps[seen.finished.length]? = some p := by
        rw [hps, ← htold.length_eq, List.getElem?_append_right (Nat.le_refl _), Nat.sub_self]
        rfl
      exact ⟨p, c, hget, h.sound p (List.mem_of_getElem? hget), hholder, hinput, hstands⟩

theorem IsAligned.remaining_answer (h : IsAligned limit live ps held i seen) {d : Delivery}
    (hcurrent : seen.current = some (me, d)) :
    ∃ p, ps[seen.finished.length]? = some p ∧ d.bytes.length ≤ p.header.payloadLength ∧
      i.remaining false me = (.ok (p.header.payloadLength - d.bytes.length), i) := by
  obtain ⟨p, c, hget, hsound, hholder, hinput, hstands⟩ := h.current hcurrent
  have hremaining := hstands.remaining
  refine ⟨p, hget, by omega, ?_⟩
  rw [← hremaining, Nat.add_sub_cancel_left]
  simp only [remaining, refusal?, Lock.isHeldBy_iff.2 hholder, hinput, Bool.false_eq_true, if_false, if_true]

section

variable {p : Parcel} {payload : Bytes} {d : Delivery}

theorem length_of_payload? (hsound : p.IsSound limit) (hpayload : p.payload? = some payload) :
    payload.length = p.header.payloadLength := by
  obtain ⟨-, -, ⟨hraw, rfl⟩ | ⟨-, -, hlength⟩⟩ := Frame.payload?_eq_some_iff.1 hpayload
  · rw [hsound.length, Header.payloadLength, hraw, if_neg Bool.false_ne_true]
  · exact hlength

/-- In a transaction behind a parcel that stands for a payload, a read answers bytes, and at least one if any are
asked for; or it is refused, because it asks for more than remains. -/
theorem IsAligned.read_answer (h : IsAligned limit live ps held i seen) (hcurrent : seen.current = some (me, d))
    (hget : ps[seen.finished.length]? = some p) (hpayload : p.payload? = some payload) (n : Nat) :
    (n ≤ payload.length - d.bytes.length ∧ ∃ bs, (i.read false me n).1 = .ok bs ∧ (0 < n → bs ≠ [])) ∨
      (payload.length - d.bytes.length < n ∧
        (i.read false me n).1 = .error (.overread n (payload.length - d.bytes.length))) := by
  obtain ⟨p', c, hget', hsound, hholder, hinput, hstands⟩ := h.current hcurrent
  obtain rfl : p' = p := Option.some.inj (hget'.symm.trans hget)
  have hremaining := hstands.remaining
  rw [← length_of_payload? hsound hpayload] at hremaining
  rw [← hremaining, Nat.add_sub_cancel_left, read_of_holder hholder hinput]
  rcases hread : c.read i.source n with ⟨q, c', src⟩
  cases Cursor.read_outcome hread hstands with
  | bytes hne hn hlength hstands' => exact .inl ⟨hn, _, by simp only [fetch, hread], hne⟩
  | refused hn => exact .inr ⟨hn, by simp only [fetch, hread, LinkError.isOverread, if_true]⟩
  | failed hn he hbad => exact absurd hpayload (hbad payload)

theorem IsAligned.finish_answer (h : IsAligned limit live ps held i seen) (hcurrent : seen.current = some (me, d))
    (hget : ps[seen.finished.length]? = some p) (hpayload : p.payload? = some payload) :
    (i.finish false me).1 = .ok () := by
  obtain ⟨p', c, hget', hsound, hholder, hinput, hstands⟩ := h.current hcurrent
  obtain rfl : p' = p := Option.some.inj (hget'.symm.trans hget)
  have hwhole := hstands.whole
  rw [← Cursor.close_segment] at hwhole
  obtain ⟨-, src, hskip, -⟩ := skip_of_whole hholder hwhole
  rw [finish_of_holder hholder hinput, hskip]
  rcases hclose : c.close.run i.source with ⟨r, closing, src'⟩
  exact Cursor.run_eq_ok hstands hpayload hclose

end

end

end Inbound

end FrameLink

namespace FrameLink.Link

def arena : Arena Link Call Reply where
  call me c l := l.call me c
  favour me l := l.favour me

/-- A play on an open link whose reading side stands aligned to the parcels, according to what has been told. -/
structure Reads (limit : Option Nat) (live : Bool) (ps : List Parcel) (p : Play Link Call Reply) : Prop where
  isOpen : p.world.closed = false
  limit_eq : p.world.settings.limit = limit
  aligned : p.world.inbound.IsAligned limit live ps p.held (Readings.ofHistory p.history)

theorem holds_after {ω : Type} (p : Play ω Call Reply) (me : Thread) (c : Call) (r : Attempt LinkError Reply)
    (w : ω) : Inbound.Holds p.held (p.after me c r w).held me c r where
  self hr := by rw [Play.after_held_self, hr]
  others _ hyou := Play.after_held_of_ne hyou

theorem run_reads {l : Link} {src : Source} {ps : List Parcel} {turns : List (Turn Call)} (hopen : l.closed = false)
    (hinbound : l.inbound = { source := src }) (hsmooth : src.IsSmooth) (hdata : src.data = Parcel.wires ps)
    (hsound : ∀ p ∈ ps, p.IsSound l.settings.limit) (hturns : ∀ me, .call me .close ∉ turns) :
    Reads l.settings.limit src.live ps (Play.run arena l turns) := by
  refine Play.run_induction (C := (· ≠ .close)) ?_ ?_ ?_ fun me c hc heq => hturns me (heq ▸ hc)
  · refine ⟨hopen, rfl, hsound, hinbound ▸ hsmooth, hinbound ▸ rfl, ?_⟩
    exact .between (List.nil_append ps).symm .nil rfl (hinbound ▸ rfl) (hinbound ▸ rfl) (hinbound ▸ hdata)
  · rintro p me c ⟨hp, hlimit, haligned⟩ hc hme
    obtain ⟨hclosed, hlimit', -, -⟩ := call_frame p.world me hc
    refine ⟨?_, ?_, ?_⟩
    · rw [Play.after_world]
      exact hclosed.trans hp
    · rw [Play.after_world]
      exact hlimit'.trans hlimit
    · rw [Play.after_world, Play.after_history, Readings.ofHistory_told, ← hlimit]
      rw [← hlimit] at haligned
      exact call_isAligned hp hc haligned hme (holds_after p me c _ _)
  · rintro p me ⟨hp, hlimit, haligned⟩
    exact ⟨hp, hlimit, haligned.congr rfl rfl (Lock.favour_holder _ _) fun _ _ _ => rfl⟩

/-- Packets are opened in order whatever their payloads are worth. In every state that threads can bring a link into
without closing it, the transactions so far began with the first packets of the source; in an open one,
what remains is the length its header declares without what has been read; and outside of one, beginning to read
answers the next packet, or that the stream has ended if there is none, as soon as nobody else is in the way. -/
theorem begun_in_order (l : Link) (src : Source) (ps : List Parcel) (turns : List (Turn Call))
    (hopen : l.closed = false) (hinbound : l.inbound = { source := src }) (hsmooth : src.IsSmooth)
    (hended : src.live = false) (hdata : src.data = Parcel.wires ps) (hsound : ∀ p ∈ ps, p.IsSound l.settings.limit)
    (hturns : ∀ me, .call me .close ∉ turns) :
    let play := Play.run arena l turns
    let seen := Readings.ofHistory play.history
    let next : Attempt LinkError Reply := match ps[seen.begun.length]? with
      | some p => .ok (.sequence p.header.sequence)
      | none => .error Header.shortError
    seen.begun.map Delivery.sequence = (ps.take seen.begun.length).map (·.header.sequence) ∧
    (∀ me d, seen.current = some (me, d) → ∃ p, ps[seen.finished.length]? = some p ∧
      d.bytes.length ≤ p.header.payloadLength ∧
      (play.world.call me .remaining).1 = .ok (.count (p.header.payloadLength - d.bytes.length))) ∧
    (seen.current = none → ∀ me,
      ((play.world.call me .beginRead).1 = next ∨ (play.world.call me .beginRead).1 = .waiting) ∧
      (play.world.inbound.lock.isAwaitedBy me = false → (play.world.call me .beginRead).1 = next)) := by
  intro play seen next
  obtain ⟨hclosed, hlimit, haligned⟩ := run_reads hopen hinbound hsmooth hdata hsound hturns
  rw [hended] at haligned
  have hnext : (Inbound.nextAnswer false ps seen.begun.length).map Reply.sequence = next := by
    simp only [Inbound.nextAnswer, next]
    cases ps[seen.begun.length]? <;> rfl
  refine ⟨?_, fun me d hcurrent => ?_, fun hcurrent me => ?_⟩
  · exact haligned.standing.sequences
  · obtain ⟨p, hget, hle, hanswer⟩ := haligned.remaining_answer hcurrent
    refine ⟨p, hget, hle, ?_⟩
    rw [call_remaining_fst hclosed, hanswer]
    rfl
  · obtain ⟨hall, hfree, -⟩ := haligned.begin_answer hcurrent
    rw [call_beginRead_fst hclosed, hlimit]
    refine ⟨(hall me).imp (fun h => ?_) (fun h => ?_), fun hnot => ?_⟩
    · rw [h, hnext]
    · rw [h]
      rfl
    · rw [hfree me rfl hnot, hnext]

/-- A packet that does not inflate and one behind it, with an interruption in the first header. The second thread
queues up, and gets the second packet when the first thread's read has failed. -/
theorem begun_in_order_past_corrupt_packet :
    let ps : List Parcel := [⟨⟨1, 3, 2⟩, [0xff, 0, 0]⟩, ⟨⟨2, 1, 0⟩, [0x61]⟩]
    let src : Source :=
      { items := [.data [0, 0, 0, 1, 0], .failure ⟨.interrupted, "again"⟩, .data [0, 0, 3, 0, 0, 0, 2, 0xff],
          .data [0, 0, 0, 0, 0, 2, 0, 0, 0, 1, 0, 0, 0, 0, 0x61]] }
    let turns : List (Turn Call) := [.call 0 .beginRead, .call 1 .beginRead, .call 0 (.read 1), .call 1 .beginRead]
    let play := Play.run arena { inbound := { source := src }, outbound := {} } turns
    src.IsSmooth ∧ src.data = Parcel.wires ps ∧
      (Readings.ofHistory play.history).begun.map Delivery.sequence = [1, 2] ∧
      (play.world.call 1 .remaining).1 = .ok (.count 1) := by
  intro ps src turns play
  have hsmooth : src.IsSmooth := by decide
  have hdata : src.data = Parcel.wires ps := by decide
  have hsound : ∀ p ∈ ps, p.IsSound none := by
    intro p hp
    simp only [ps, List.mem_cons, List.not_mem_nil, or_false] at hp
    rcases hp with rfl | rfl
    · exact ⟨⟨by decide, by decide, fun _ h => nomatch h⟩, by decide⟩
    · exact ⟨⟨by decide, by decide, fun _ h => nomatch h⟩, by decide⟩
  obtain ⟨hbegun, hleft, -⟩ := begun_in_order { inbound := { source := src }, outbound := {} } src ps turns rfl rfl
    hsmooth rfl hdata hsound (by simp [turns])
  obtain ⟨p, hget, -, hremaining⟩ := hleft 1 ⟨2, []⟩ (by decide +kernel)
  have hp : ps[1]? = some p := by
    rw [← hget]
    exact congrArg (ps[·]?) (by decide +kernel)
  obtain rfl : (⟨⟨2, 1, 0⟩, [0x61]⟩ : Parcel) = p := Option.some.inj hp
  exact ⟨hsmooth, hdata, hbegun.trans (by decide +kernel), hremaining⟩

end FrameLink.Link
