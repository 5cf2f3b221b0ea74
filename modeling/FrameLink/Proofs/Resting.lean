import FrameLink.Proofs.Journals

/-! An open link at rest. As long as nobody closes a link, its input is always found where it belongs, whatever has
failed before: in place while the lock of the reading side is free, and in the hands of a cursor while a thread holds
it. So nobody is ever told of an open link that it is closed. -/

namespace FrameLink

/-- No call of a kind that holds a thread up is at work as the owner of a lock. -/
def Lock.RestsFrom (l : Lock) (kind : Call → Bool) (held : Thread → Option Call) : Prop :=
  ∀ me c, held me = some c → kind c = true → l.holder ≠ some me

theorem Lock.RestsFrom.held_ne {l : Lock} {kind : Call → Bool} {held : Thread → Option Call}
    (h : l.RestsFrom kind held) {owner : Thread} (hholder : l.holder = some owner) (c : Call) :
    Play.heldAmong kind held owner ≠ some c := by
  intro hheld
  obtain ⟨hcall, hkind⟩ := Play.heldAmong_eq_some_iff.1 hheld
  exact h owner c hcall hkind hholder

namespace Inbound

section

variable {closed : Bool} {held : Thread → Option Call} {i i' : Inbound} {me : Thread} {c : Call}
  {r : Attempt LinkError Reply}

/-- With no call at work on it, the reading side is free or owned. -/
theorem IsCoherent.at_rest (h : i.IsCoherent closed (Play.heldAmong Call.isInward held))
    (hrest : i.lock.RestsFrom Call.isInward held) :
    i.lock.holder = none ∧ i.input = .leave closed .ready ∨
      ∃ owner cursor, i.lock.holder = some owner ∧ i.input = .leave closed (.reading cursor) := by
  cases h.stance with
  | free hholder hinput => exact .inl ⟨hholder, hinput⟩
  | owned hholder _ hinput => exact .inr ⟨_, _, hholder, hinput⟩
  | working hholder hheld _ => exact absurd hheld (hrest.held_ne hholder _)

theorem Outcome.ne_closed (ho : Outcome false me c i r i') : r ≠ .error .closed := by
  cases ho with
  | shut hclosed _ _ => cases hclosed
  | expelled hclosed _ _ => cases hclosed
  | ends _ _ _ hr =>
      intro heq
      have hcause := hr .closed heq
      rw [if_neg (fun h => Bool.false_ne_true h.2)] at hcause
      cases hcause
  | _ => simp

end

end Inbound

namespace Outbound

section

variable {closed : Bool} {threshold : Int32} {level : Nat} {held : Thread → Option Call} {o o' : Outbound} {me : Thread}
  {c : Call} {r : Attempt LinkError Unit}

theorem IsCoherent.at_rest (h : o.IsCoherent closed (Play.heldAmong Call.writes held))
    (hrest : o.lock.RestsFrom Call.writes held) :
    o.sending = none ∧ (o.lock.holder = none → o.buffer = []) := by
  cases h.stance with
  | free _ hidle hbuffer => exact ⟨hidle, fun _ => hbuffer⟩
  | owned hholder _ hidle =>
      refine ⟨hidle, fun hnone => ?_⟩
      rw [hholder] at hnone
      cases hnone
  | working hholder hheld _ => exact absurd hheld (hrest.held_ne hholder _)

theorem encodeInto_isBreach {frame frame' : Bytes} {sequence : Int32} {payload : Bytes} {e : LinkError}
    (h : Packet.encodeInto frame sequence payload threshold level = (.error e, frame')) : e.isBreach = true := by
  unfold Packet.encodeInto at h
  split at h
  · cases h
    rfl
  · split at h
    · simp only at h
      split at h
      · cases h
        rfl
      · cases h
    · cases h

theorem Outcome.ne_closed (ho : Outcome false threshold level me c o r o') : r ≠ .error .closed := by
  cases ho with
  | shut hclosed _ _ => cases hclosed
  | expelled hclosed _ _ => cases hclosed
  | unfit _ _ _ _ _ hencode =>
      intro heq
      cases heq
      cases encodeInto_isBreach hencode
  | sent _ _ _ _ hr => rcases hr with ⟨rfl, -⟩ | ⟨io, rfl⟩ <;> simp
  | _ => simp

end

end Outbound

theorem Hook.ne_closed_of_run {h h' : Hook} {r : Except LinkError Unit} (hrun : h.run = (r, h')) :
    r ≠ .error .closed := by
  unfold Hook.run at hrun
  split at hrun
  · obtain ⟨rfl, -⟩ := Prod.mk.inj hrun
    cases h.failure <;> simp
  · obtain ⟨rfl, -⟩ := Prod.mk.inj hrun
    simp

namespace Link

theorem Outcome.ne_closed {me : Thread} {c : Call} {l l' : Link} {r : Attempt LinkError Reply}
    (ho : Outcome me c l r l') (hopen : l.closed = false) : r ≠ .error .closed := by
  cases ho with
  | inward _ ho =>
      rw [hopen] at ho
      exact ho.ne_closed
  | outward hwrites ho =>
      rename_i q o
      rw [hopen] at ho
      have hne := ho.ne_closed
      cases q with
      | error e => exact fun heq => hne (congrArg _ (Attempt.error.inj heq))
      | _ => exact nofun
  | barred _ hclosed => rw [hopen] at hclosed; cases hclosed
  | closes hc hopen' hhook =>
      rename_i q hook
      have hne := Hook.ne_closed_of_run hhook
      cases q with
      | error e => exact fun heq => hne (congrArg _ (Attempt.error.inj heq))
      | ok _ => exact nofun
  | _ => exact nofun

/-- An open link is as it should be whenever nobody is at work on it. In every state that threads can bring a link into
before they close it, whatever fails on the way: with no call at work on the reading side, either its lock is free and
the input in place, or its lock is held and a cursor has the input. With no call at work on the writing side, the sink
is there and nothing is left to send; and if its lock is free, the buffer is empty, and so is the frame, provided that
the lengths of all packets have fitted into their headers. The threshold is -1 or positive. No call that is answered is
told that the link is closed. -/
theorem open_at_rest (settings : Settings) (hook : Hook) (src : Source) (sink : Sink) (trials : List (Trial Call Reply))
    (p : Play Link Call Reply) (hcourse : Course { world := new settings hook src sink } trials p)
    (hopen : p.world.closed = false) :
    let i := p.world.inbound
    let o := p.world.outbound
    (i.lock.RestsFrom Call.isInward p.held →
      i.lock.holder = none ∧ i.input = .ready ∨
        ∃ owner cursor, i.lock.holder = some owner ∧ i.input = .reading cursor) ∧
    (o.lock.RestsFrom Call.writes p.held → o.present = true ∧ o.sending = none ∧
      (o.lock.holder = none → o.buffer = [] ∧
        ((∀ e ∈ (Journal.ofTrials settings trials).posted, e.job.Fits) → o.frame = []))) ∧
    (p.world.threshold = -1 ∨ 0 < p.world.threshold) ∧
    ∀ me c, p.Allows me c → (p.world.call me c).1 ≠ .error .closed := by
  intro i o
  have hcoherent := hcourse.isCoherent (isCoherent_new settings hook src sink)
  have hinbound := hcoherent.inbound
  have houtbound := hcoherent.outbound
  rw [hopen] at hinbound houtbound
  refine ⟨hinbound.at_rest, fun hrest => ?_, hcoherent.threshold, fun me c hallows => ?_⟩
  · obtain ⟨hidle, hbuffer⟩ := houtbound.at_rest hrest
    refine ⟨?_, hidle, fun hnone => ⟨hbuffer hnone, (hcourse.records hopen).outbound.frame hidle⟩⟩
    rw [show o.present = _ from houtbound.present]
    rfl
  · exact (hcoherent.call_outcome hallows).ne_closed hopen

/-- The source fails in the first header and in the payload behind the second, and the sink fails in the first packet.
Both sides are in order for the next thread. -/
theorem open_at_rest_after_failures :
    let src : Source :=
      { items := [.data [0, 0], .failure ⟨.connectionReset, "reset"⟩, .data [0, 0, 0, 1, 0, 0, 0, 2, 0, 0, 0, 0, 5],
          .failure ⟨.connectionReset, "reset"⟩, .data [6]] }
    let sink : Sink := { replies := [.takes (some 5), .failure ⟨.brokenPipe, "gone"⟩] }
    let turns : List (Turn Call) :=
      [.call 0 .beginRead, .call 0 .beginRead, .call 0 (.read 1), .call 0 (.read 1), .call 1 (.beginWrite 7),
        .call 1 (.write [1, 2]), .call 1 .endWrite]
    let p := Play.run arena (new {} {} src sink) turns
    (p.history.map fun e => match e.answer with
      | .ok _ => true
      | .error _ => false) = [false, true, true, false, true, true, false] ∧
    p.world.inbound.lock.holder = none ∧ p.world.inbound.input = .ready ∧
    p.world.outbound.lock.holder = none ∧ p.world.outbound.present = true ∧ p.world.outbound.buffer = [] ∧
    (p.world.call 2 .beginRead).1 ≠ .error .closed := by
  intro src sink turns p
  have hread : p.world.inbound.lock.holder = none := by decide +kernel
  have hwrite : p.world.outbound.lock.holder = none := by decide +kernel
  obtain ⟨hinput, hsink, -, hanswers⟩ :=
    open_at_rest {} {} src sink _ p (course_run _ turns) (by decide +kernel)
  obtain ⟨-, hready⟩ | ⟨owner, cursor, hsome, -⟩ := hinput fun me c _ _ => by rw [hread]; exact nofun
  · obtain ⟨hpresent, -, hempty⟩ := hsink fun me c _ _ => by rw [hwrite]; exact nofun
    exact ⟨by decide +kernel, hread, hready, hwrite, hpresent, (hempty hwrite).1,
      hanswers 2 .beginRead (.of_none (by decide +kernel) _)⟩
  · cases hread.symm.trans hsome

end Link

end FrameLink
