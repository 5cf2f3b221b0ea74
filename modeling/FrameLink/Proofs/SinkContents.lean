import FrameLink.Proofs.Joining
import FrameLink.Proofs.Journals
import FrameLink.View

/-! What the sink of a link holds as long as the link is open, over any sink: the frames of the packets for which the
owner of a transaction has ended it, in order, each as far as the sink has taken it. Nothing else gets there, and the
end of a transaction leaves nothing behind for the next. -/

namespace FrameLink

namespace OutputView

/-- Writing through the view of the packet is a write of the same thread. -/
theorem write_eq (v : OutputView) (bs : Bytes) :
    (v.write bs).1 =
        ((v.stack.base.call v.thread (.write bs)).1.mapError LinkError.toIoError).map (fun _ => bs.length) ∧
      (v.write bs).2.stack.base = (v.stack.base.call v.thread (.write bs)).2 := by
  rw [write, Stack.call_of_ne_close v.stack v.thread (c := .write bs) (by simp)]
  exact ⟨rfl, Stack.base_modifyBase _ _⟩

end OutputView

namespace Outbound

section

variable {start : Bytes} {threshold : Int32} {level : Nat} {o o' : Outbound} {s : Journal} {me : Thread} {c : Call}
  {r : Attempt LinkError Unit}

theorem sink_close (me : Thread) (o : Outbound) : (o.close me).sink = o.sink := by
  unfold Outbound.close
  split <;> rfl

/-- What has been sent of a packet is the start of its frame. -/
theorem Pending.starts {rest : Option Bytes} {sending : Option Packet.Job} {last : Bytes}
    (h : Pending rest sending last) : (sending = none → last = []) ∧
      ∀ j, sending = some j → ∃ header frame, j.encode = .ok (header, frame) ∧ last <+: frame := by
  cases h with
  | idle => exact ⟨fun _ => rfl, nofun⟩
  | sending hencode =>
      refine ⟨nofun, fun j hj => ?_⟩
      obtain rfl := Option.some.inj hj
      exact ⟨_, _, hencode, List.prefix_append _ _⟩

/-- An attempt that has no packet sends nothing. -/
theorem Outcome.written_eq (ho : Outcome false s.tuning.threshold s.tuning.level me c o r o') (h : o.Records start s)
    (hjob : s.job? me c = none) : o'.sink.written = o.sink.written := by
  cases ho with
  | waits hc hholder hposts _ =>
      obtain ⟨j, _, _, _, hsome, _⟩ := h.posts hholder hposts
      cases hjob.symm.trans (hc ▸ hsome)
  | sent hc hholder hposts _ _ =>
      obtain ⟨j, _, _, _, hsome, _⟩ := h.posts hholder hposts
      cases hjob.symm.trans (hc ▸ hsome)
  | _ => rfl

/-- The owner's call to end the transaction gives up the lock and empties the buffer once it is answered. -/
theorem Outcome.ended (ho : Outcome false threshold level me .endWrite o r o') (hholder : o.lock.holder = some me)
    (hwait : r ≠ .waiting) : o'.lock.holder = none ∧ o'.buffer = [] ∧ o'.sending = none := by
  cases ho with
  | queued hc _ _ _ => cases hc
  | reentrant hc _ _ => cases hc
  | unowned _ _ hnot => exact absurd hholder hnot
  | shut hclosed _ _ => cases hclosed
  | expelled hclosed _ _ => cases hclosed
  | begun hc _ _ _ => cases hc
  | added hc _ _ _ => cases hc
  | restarted hc _ _ _ => cases hc
  | dropped _ _ _ hidle => exact ⟨rfl, rfl, hidle⟩
  | unfit _ _ _ hidle _ _ => exact ⟨rfl, rfl, hidle⟩
  | waits _ _ _ _ => exact absurd rfl hwait
  | sent _ _ _ _ _ => exact ⟨rfl, rfl, rfl⟩

end

end Outbound

namespace Link

section

variable {start : Bytes} {l l' : Link} {s : Journal} {me : Thread} {c : Call} {r : Attempt LinkError Reply}

theorem Outcome.written_eq (ho : Outcome me c l r l') (hopen : l.closed = false) (h : Records start l s)
    (hjob : s.job? me c = none) : l'.outbound.sink.written = l.outbound.sink.written := by
  cases ho with
  | outward hwrites ho =>
      have hthreshold : l.threshold = s.tuning.threshold := by rw [h.tuning]
      have hlevel : l.settings.level = s.tuning.level := by rw [h.tuning]
      rw [hopen, hthreshold, hlevel] at ho
      exact ho.written_eq h.outbound hjob
  | closes _ _ _ => exact congrArg Sink.written (Outbound.sink_close me l.outbound)
  | _ => rfl

theorem Outcome.ended (ho : Outcome me .endWrite l r l') (hopen : l.closed = false)
    (hholder : l.outbound.lock.holder = some me) (hwait : r ≠ .waiting) :
    l'.outbound.lock.holder = none ∧ l'.outbound.buffer = [] ∧ l'.outbound.sending = none := by
  cases ho with
  | inward hc _ => cases hc
  | outward _ ho =>
      rw [hopen] at ho
      refine ho.ended hholder ?_
      rintro rfl
      exact hwait rfl
  | enabled hc _ _ => cases hc
  | disabled hc _ => cases hc
  | barred hc _ => rcases hc with hc | hc <;> cases hc
  | closes hc _ _ => cases hc
  | closedBefore hc _ => cases hc
  | asked hc => rcases hc with hc | hc <;> cases hc

/-- The writing side refines a journal. In every state that threads can bring a link into before they close it, over
any sink and whatever becomes of it, the sink has taken what the journal tells: the frames of the packets posted so far,
whole where this has been answered with success and otherwise the start, followed by the start of the frame that is
being sent. The owner of the open transaction holds the lock. An attempt that has no packet sends nothing. When the
owner's call to end the transaction is answered, the lock is free and the buffer empty, and so is the frame, provided
that the lengths of all packets have fitted into their headers. A write through the view of the packet is a write. -/
theorem written_as_posted (settings : Settings) (hook : Hook) (src : Source) (sink : Sink)
    (trials : List (Trial Call Reply)) (p : Play Link Call Reply)
    (hcourse : Course { world := new settings hook src sink } trials p) (hopen : p.world.closed = false) :
    let s := Journal.ofTrials settings trials
    (∃ pieces last, p.world.outbound.sink.written = sink.written ++ pieces.flatten ++ last ∧
      List.Forall₂ Posting.Leaves s.posted pieces ∧ (s.sending = none → last = []) ∧
      ∀ j, s.sending = some j → ∃ header frame, j.encode = .ok (header, frame) ∧ last <+: frame) ∧
    p.world.outbound.lock.holder = s.writings.current.map Prod.fst ∧
    (∀ me c, p.Allows me c → s.job? me c = none →
      (p.world.call me c).2.outbound.sink.written = p.world.outbound.sink.written) ∧
    (∀ me, p.Allows me .endWrite → p.world.outbound.lock.holder = some me →
      (p.world.call me .endWrite).1 ≠ .waiting →
      let o := (p.world.call me .endWrite).2.outbound
      o.lock.holder = none ∧ o.buffer = [] ∧
        ((∀ e ∈ (s.note ⟨me, .endWrite, (p.world.call me .endWrite).1⟩).posted, e.job.Fits) → o.frame = [])) ∧
    ∀ (v : OutputView) (bs : Bytes), v.stack.base = p.world →
      (v.write bs).2.stack.base = (p.world.call v.thread (.write bs)).2 ∧
      (v.write bs).1 =
        ((p.world.call v.thread (.write bs)).1.mapError LinkError.toIoError).map (fun _ => bs.length) := by
  intro s
  have hcoherent := hcourse.isCoherent (isCoherent_new settings hook src sink)
  have hrecords := hcourse.records hopen
  refine ⟨?_, hrecords.outbound.holder, fun me c hallows hjob => ?_, fun me hallows hholder hwait => ?_,
    fun v bs hbase => hbase ▸ (v.write_eq bs).symm⟩
  · obtain ⟨pieces, last, hwritten, hleaves, hpending⟩ := hrecords.outbound.written
    exact ⟨pieces, last, hwritten, hleaves, hpending.starts⟩
  · exact (hcoherent.call_outcome hallows).written_eq hopen hrecords hjob
  · have ho := hcoherent.call_outcome hallows
    obtain ⟨hnone, hbuffer, hidle⟩ := ho.ended hopen hholder hwait
    exact ⟨hnone, hbuffer, (ho.records hopen (by simp) hrecords).outbound.frame hidle⟩

/-- The first packet fails when the sink has taken five of its bytes, the second is sent, and of the third the sink has
taken three bytes so far. -/
theorem written_as_posted_over_failing_sink :
    let sink : Sink :=
      { replies := [.takes (some 5), .failure ⟨.brokenPipe, "gone"⟩, .takes none, .takes (some 3), .gate] }
    let turns : List (Turn Call) :=
      [.call 0 (.beginWrite 7), .call 0 (.write [1, 2]), .call 0 .endWrite, .call 1 (.beginWrite 8),
        .call 1 (.write [9]), .call 1 .restartWrite, .call 1 (.write [3]), .call 1 .endWrite, .call 0 (.beginWrite 9),
        .call 0 (.write [4]), .call 0 .endWrite]
    let l := new {} {} { items := [] } sink
    let p := Play.run arena l turns
    let s := Journal.ofTrials {} (Play.trials arena { world := l } turns)
    p.world.outbound.sink.written =
        [0, 0, 0, 7, 0] ++ [0, 0, 0, 8, 0, 0, 0, 1, 0, 0, 0, 0, 3] ++ [0, 0, 0] ∧
      s.posted.map (fun e => e.job.payload) = [[1, 2], [3]] ∧
      ∃ pieces last, List.Forall₂ Posting.Leaves s.posted pieces ∧
        p.world.outbound.sink.written = [] ++ pieces.flatten ++ last := by
  intro sink turns l p s
  obtain ⟨⟨pieces, last, hwritten, hleaves, -⟩, -⟩ :=
    written_as_posted {} {} { items := [] } sink _ p (course_run l turns) (by decide +kernel)
  exact ⟨by decide +kernel, by decide +kernel, pieces, last, hleaves, hwritten⟩

end

end Link

end FrameLink
