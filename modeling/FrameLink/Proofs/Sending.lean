import FrameLink.Link
import FrameLink.Proofs.Histories
import FrameLink.Proofs.Locks
import FrameLink.Proofs.PacketStreams
import Mathlib.Data.List.Forall2

/-! The writing side of a link whose sink takes everything. What its calls have answered tells who owns the transaction
and what the payload is; a transaction that ends with a payload puts one parcel on the sink, which carries what has
been told, and nothing else ever puts anything there. -/

namespace FrameLink

/-- The parcel stands for the message. -/
structure Parcel.Carries (p : Parcel) (m : Message) : Prop where
  sound : p.IsSound none
  sequence : p.header.sequence = m.sequence
  payload : p.payload? = some m.payload

/-- The packet that the owner of a transaction sends. -/
def Message.job (m : Message) (threshold : Int32) (level : Nat) : Packet.Job :=
  ⟨m.sequence, m.payload, threshold, level⟩

theorem Sink.writeAll_of_plain (bs : Bytes) :
    ∃ s, ({} : Sink).writeAll bs = (.ok (), [], s) ∧ s.written = bs ∧ s.flushes = [] := by
  cases bs with
  | nil => exact ⟨{}, rfl, rfl, rfl⟩
  | cons b bs =>
      have hwrite : ({} : Sink).write (b :: bs) =
          (.ok (bs.length + 1), { written := b :: bs, writeCalls := 1 }) := by
        simp only [write, beginWrite, writeReplies, take, List.length_cons, Nat.min_self, Bool.false_eq_true, if_false,
          List.nil_append, Nat.zero_add]
        rw [← List.length_cons (a := b), List.take_length]
      refine ⟨{ written := b :: bs, writeCalls := 1 }, ?_, rfl, rfl⟩
      simp only [writeAll, List.length_cons, writeSome, hwrite, List.isEmpty_cons, Bool.false_eq_true, if_false,
        List.drop_succ_cons, List.drop_length]
      rfl

/-- Nothing can be put on a sink that is broken for good. -/
theorem Sink.writeAll_of_broken {cause : IoError} (hlasts : cause.isInterruption = false) {bs : Bytes} (hne : bs ≠ []) :
    ∃ s, ({ broken := some cause } : Sink).writeAll bs = (.error cause, bs, s) ∧ s.written = [] := by
  have hempty : bs.isEmpty = false := List.isEmpty_eq_false_iff.2 hne
  refine ⟨{ broken := some cause, writeCalls := 1 }, ?_, rfl⟩
  simp only [writeAll, writeSome, write, beginWrite, writeReplies, hempty, hlasts, Bool.false_eq_true, if_false]

namespace Writings

/-- Whoever holds the lock owns the open transaction, if the lock is as has been told. -/
theorem exists_current {s : Writings} {holder : Option Thread} (h : holder = s.current.map Prod.fst) {me : Thread}
    (hholder : holder = some me) : ∃ m, s.current = some (me, m) := by
  obtain ⟨⟨owner, m⟩, hcurrent, rfl⟩ := Option.map_eq_some_iff.1 (h.symm.trans hholder)
  exact ⟨m, hcurrent⟩

theorem ne_of_current {s : Writings} {holder : Option Thread} (h : holder = s.current.map Prod.fst) {me : Thread}
    (hholder : holder ≠ some me) : ∀ owner m, s.current = some (owner, m) → owner ≠ me := by
  rintro owner m hcurrent rfl
  apply hholder
  rw [h, hcurrent]
  rfl

/-- A thread that owns no transaction tells of none unless it begins one. -/
theorem note_of_not_owner {s : Writings} {me : Thread} {c : Call} (hbegin : ∀ n, c ≠ .beginWrite n)
    (howner : ∀ owner m, s.current = some (owner, m) → owner ≠ me) (answer : Except LinkError Reply) :
    s.note me c answer = s := by
  unfold note
  split
  · exact absurd rfl (hbegin _)
  all_goals first | rfl | exact if_neg (howner _ _ (by assumption))

end Writings

namespace Outbound

/-- The writing side is as has been told of it, and no call waits for its sink. -/
structure Follows (o : Outbound) (w : Writings) : Prop where
  idle : o.sending = none
  present : o.present = true
  holder : o.lock.holder = w.current.map Prod.fst
  message : ∀ me m, w.current = some (me, m) → o.sequence = m.sequence ∧ o.buffer = m.payload

/-- After a call that has told `w'`, the sink has taken what carries the messages that have been sent since `w`. -/
structure Sends (w : Writings) (o' : Outbound) (w' : Writings) : Prop where
  sent : ∃ ps ms, o'.sink.written = Parcel.wires ps ∧ w'.sent = w.sent ++ ms ∧ List.Forall₂ Parcel.Carries ps ms
  follows : o'.Follows w'

section

variable {o o' : Outbound} {w w' : Writings} {me : Thread}

/-- Nothing has been sent. -/
theorem Follows.sends (h : o'.Follows w') (hwritten : o'.sink.written = []) (hsent : w'.sent = w.sent) :
    Sends w o' w' :=
  ⟨⟨[], [], hwritten, by rw [hsent, List.append_nil], .nil⟩, h⟩

theorem Follows.owner (h : o.Follows w) (hholder : o.lock.holder = some me) : ∃ m, w.current = some (me, m) :=
  Writings.exists_current h.holder hholder

theorem Follows.holder_of_current (h : o.Follows w) {m : Message} (hcurrent : w.current = some (me, m)) :
    o.lock.holder = some me := by
  rw [h.holder, hcurrent]
  rfl

theorem Follows.not_owner (h : o.Follows w) (hholder : o.lock.holder ≠ some me) :
    ∀ owner m, w.current = some (owner, m) → owner ≠ me :=
  Writings.ne_of_current h.holder hholder

/-- Who queues up for the lock does not matter, nor what the sink has taken. -/
theorem Follows.congr (h : o.Follows w) (hsending : o'.sending = o.sending) (hpresent : o'.present = o.present)
    (hholder : o'.lock.holder = o.lock.holder) (hsequence : o'.sequence = o.sequence) (hbuffer : o'.buffer = o.buffer) :
    o'.Follows w := by
  refine ⟨hsending.trans h.idle, hpresent.trans h.present, hholder.trans h.holder, ?_⟩
  intro owner m hcurrent
  rw [hsequence, hbuffer]
  exact h.message owner m hcurrent

theorem refusal?_of_holder (hholder : o.lock.holder = some me) (operation : String) :
    o.refusal? false me operation = none := by
  simp only [refusal?, Lock.isHeldBy_iff.2 hholder, Bool.false_eq_true, if_false, if_true]

theorem refusal?_of_not_holder (hholder : o.lock.holder ≠ some me) (operation : String) :
    o.refusal? false me operation = some (.protocolState operation "write", o) := by
  simp only [refusal?, Lock.isHeldBy_eq_false_iff.2 hholder, Bool.false_eq_true, if_false]

theorem leave_of_holder (hholder : o.lock.holder = some me) (hpresent : o.present = true) :
    o.leave false me =
      { o with buffer := [], sending := none, present := true, lock := { o.lock with holder := none } } := by
  simp only [leave, release, Lock.release_of_holder hholder, hpresent, Bool.false_eq_true, if_false, Bool.not_false,
    Bool.and_self]

theorem follows_leave (hholder : o.lock.holder = some me) (hpresent : o.present = true) (hcurrent : w.current = none) :
    (o.leave false me).Follows w := by
  rw [leave_of_holder hholder hpresent]
  refine ⟨rfl, rfl, ?_, ?_⟩
  · rw [hcurrent]
    rfl
  · intro owner m hsome
    rw [hcurrent] at hsome
    cases hsome

theorem written_of_plain {s : Sink} (h : s = {}) : s.written = [] := by
  rw [h]

theorem Follows.begin (h : o.Follows w) (hwritten : o.sink.written = []) {n : Int32} {r : Attempt LinkError Unit}
    (hr : o.begin false me n = (r, o')) : Sends w o' (w.noteAttempt me (.beginWrite n) (r.map fun _ => .done)) := by
  rcases hacquire : o.lock.acquire me "begin_write" with ⟨q, lock⟩
  simp only [Outbound.begin, Bool.false_and, Bool.false_eq_true, if_false, hacquire, enter] at hr
  cases Lock.acquire_outcome hacquire with
  | reentrant _ =>
      obtain ⟨rfl, rfl⟩ := Prod.mk.inj hr
      exact h.sends hwritten rfl
  | taken hfree =>
      obtain ⟨rfl, rfl⟩ := Prod.mk.inj hr
      refine Follows.sends ⟨h.idle, h.present, rfl, ?_⟩ hwritten rfl
      intro owner m hcurrent
      obtain ⟨-, rfl⟩ := Prod.mk.inj (Option.some.inj hcurrent)
      exact ⟨rfl, rfl⟩
  | queued hholder hfree =>
      obtain ⟨rfl, rfl⟩ := Prod.mk.inj hr
      exact Follows.sends (h.congr rfl rfl rfl rfl rfl) hwritten rfl

theorem Follows.refused (h : o.Follows w) (hwritten : o.sink.written = []) (hholder : o.lock.holder ≠ some me) {c : Call}
    (hc : ∀ n, c ≠ .beginWrite n) (e : LinkError) : Sends w o (w.noteAttempt me c (.error e)) := by
  have hnote : w.noteAttempt me c (.error e) = w := Writings.note_of_not_owner hc (h.not_owner hholder) (.error e)
  rw [hnote]
  exact h.sends hwritten rfl

theorem Follows.write (h : o.Follows w) (hwritten : o.sink.written = []) {bs : Bytes} {r : Attempt LinkError Unit}
    (hr : o.write false me bs = (r, o')) : Sends w o' (w.noteAttempt me (.write bs) (r.map fun _ => .done)) := by
  unfold Outbound.write at hr
  by_cases hholder : o.lock.holder = some me
  · rw [refusal?_of_holder hholder] at hr
    obtain ⟨rfl, rfl⟩ := Prod.mk.inj hr
    obtain ⟨m, hcurrent⟩ := h.owner hholder
    obtain ⟨hsequence, hbuffer⟩ := h.message me m hcurrent
    simp only [Attempt.map, Writings.noteAttempt, Attempt.result?, Writings.note, hcurrent, if_true]
    refine Follows.sends ⟨h.idle, h.present, hholder, ?_⟩ hwritten rfl
    intro owner m' hcurrent'
    obtain ⟨-, rfl⟩ := Prod.mk.inj (Option.some.inj hcurrent')
    exact ⟨hsequence, congrArg (· ++ bs) hbuffer⟩
  · rw [refusal?_of_not_holder hholder] at hr
    obtain ⟨rfl, rfl⟩ := Prod.mk.inj hr
    exact h.refused hwritten hholder (c := .write bs) (fun n hc => by cases hc) _

theorem Follows.restart (h : o.Follows w) (hwritten : o.sink.written = []) {r : Attempt LinkError Unit}
    (hr : o.restart false me = (r, o')) : Sends w o' (w.noteAttempt me .restartWrite (r.map fun _ => .done)) := by
  unfold Outbound.restart at hr
  by_cases hholder : o.lock.holder = some me
  · rw [refusal?_of_holder hholder] at hr
    obtain ⟨rfl, rfl⟩ := Prod.mk.inj hr
    obtain ⟨m, hcurrent⟩ := h.owner hholder
    simp only [Attempt.map, Writings.noteAttempt, Attempt.result?, Writings.note, hcurrent, if_true]
    refine Follows.sends ⟨h.idle, h.present, hholder, ?_⟩ hwritten rfl
    intro owner m' hcurrent'
    obtain ⟨-, rfl⟩ := Prod.mk.inj (Option.some.inj hcurrent')
    exact ⟨(h.message me m hcurrent).1, rfl⟩
  · rw [refusal?_of_not_holder hholder] at hr
    obtain ⟨rfl, rfl⟩ := Prod.mk.inj hr
    exact h.refused hwritten hholder (c := .restartWrite) (fun n hc => by cases hc) _

theorem Follows.cancel (h : o.Follows w) (hwritten : o.sink.written = []) {r : Attempt LinkError Unit}
    (hr : o.cancel false me = (r, o')) : Sends w o' (w.noteAttempt me .cancelWrite (r.map fun _ => .done)) := by
  unfold Outbound.cancel at hr
  by_cases hholder : o.lock.holder = some me
  · rw [refusal?_of_holder hholder] at hr
    obtain ⟨rfl, rfl⟩ := Prod.mk.inj hr
    obtain ⟨m, hcurrent⟩ := h.owner hholder
    simp only [Attempt.map, Writings.noteAttempt, Attempt.result?, Writings.note, hcurrent, if_true]
    exact Follows.sends (follows_leave hholder h.present rfl) hwritten rfl
  · rw [refusal?_of_not_holder hholder] at hr
    obtain ⟨rfl, rfl⟩ := Prod.mk.inj hr
    exact h.refused hwritten hholder (c := .cancelWrite) (fun n hc => by cases hc) _

/-- To end a transaction with a payload, the frame is put together before anything is sent. -/
theorem Follows.finish_of_frame (h : o.Follows w) {m : Message} (hcurrent : w.current = some (me, m))
    (hpayload : m.payload ≠ []) {threshold : Int32} {level : Nat} {q : Except LinkError Header} {frame : Bytes}
    (hq : (Message.job m threshold level).encodeInto o.frame = (q, frame)) :
    o.finish false threshold level me = match q with
      | .error e => (.error e, { o with frame := frame }.leave false me)
      | .ok _ => transmit false me frame { o with frame := frame } := by
  obtain ⟨hsequence, hbuffer⟩ := h.message me m hcurrent
  have hne : o.buffer.isEmpty = false := by rwa [hbuffer, List.isEmpty_eq_false_iff]
  have hencode : Packet.encodeInto o.frame o.sequence o.buffer threshold level = (q, frame) := by
    rw [hsequence, hbuffer]
    exact hq
  have hholder := h.holder_of_current hcurrent
  simp only [finish, Lock.isHeldBy_iff.2 hholder, h.idle, refusal?_of_holder hholder, hne, h.present, hencode,
    Bool.false_eq_true, if_false, Bool.not_true]
  cases q <;> rfl

/-- What ending a transaction with a payload comes to: the parcel is on the sink if its lengths fit, and nothing is
if they do not. -/
theorem Follows.finish_of_payload (h : o.Follows w) (hsink : o.sink = {}) {m : Message}
    (hcurrent : w.current = some (me, m)) (hpayload : m.payload ≠ []) (threshold : Int32) (level : Nat) :
    ((Message.job m threshold level).Fits → ∃ o', o.finish false threshold level me = (.ok (), o') ∧
      o'.sink.written = (Message.job m threshold level).parcel.wire ∧ o'.Follows { w with current := none }) ∧
    (¬ (Message.job m threshold level).Fits → ∃ e o', o.finish false threshold level me = (.error e, o') ∧
      o'.sink.written = [] ∧ o'.Follows { w with current := none }) := by
  have hholder := h.holder_of_current hcurrent
  refine ⟨fun hfits => ?_, fun hfits => ?_⟩
  · obtain ⟨s, hwrite, hwritten, hflushes⟩ := Sink.writeAll_of_plain (Message.job m threshold level).parcel.wire
    rw [h.finish_of_frame hcurrent hpayload (Packet.Job.encodeInto_eq hfits o.frame)]
    simp only [transmit, hsink, hwrite, Sink.flush, hflushes]
    exact ⟨_, rfl, hwritten, follows_leave hholder h.present rfl⟩
  · obtain ⟨e, frame, herror⟩ := Packet.Job.encodeInto_error hfits o.frame
    rw [h.finish_of_frame hcurrent hpayload herror]
    exact ⟨e, _, rfl, written_of_plain hsink, follows_leave hholder h.present rfl⟩

/-- Over a broken sink it fails, by the failure of the sink if the lengths fit. -/
theorem Follows.finish_of_broken (h : o.Follows w) {cause : IoError} (hsink : o.sink = { broken := some cause })
    (hlasts : cause.isInterruption = false) {m : Message} (hcurrent : w.current = some (me, m)) (hpayload : m.payload ≠ [])
    (threshold : Int32) (level : Nat) :
    ∃ e o', o.finish false threshold level me = (.error e, o') ∧ o'.sink.written = [] ∧
      o'.Follows { w with current := none } ∧ ((Message.job m threshold level).Fits → e = .stream cause) := by
  have hholder := h.holder_of_current hcurrent
  by_cases hfits : (Message.job m threshold level).Fits
  · obtain ⟨s, hwrite, hwritten⟩ := Sink.writeAll_of_broken hlasts (Message.job m threshold level).parcel.wire_ne_nil
    rw [h.finish_of_frame hcurrent hpayload (Packet.Job.encodeInto_eq hfits o.frame)]
    simp only [transmit, hsink, hwrite]
    exact ⟨_, _, rfl, hwritten, follows_leave hholder h.present rfl, fun _ => rfl⟩
  · obtain ⟨e, frame, herror⟩ := Packet.Job.encodeInto_error hfits o.frame
    rw [h.finish_of_frame hcurrent hpayload herror]
    refine ⟨e, _, rfl, ?_, follows_leave hholder h.present rfl, fun h => absurd h hfits⟩
    show o.sink.written = []
    rw [hsink]

/-- Ending a transaction tells what has been put on the sink, if it does so where there is a payload. -/
theorem Follows.finish_of (h : o.Follows w) (hwritten : o.sink.written = []) {threshold : Int32} {level : Nat}
    (hpayload : ∀ m, w.current = some (me, m) → m.payload ≠ [] → Sends w (o.finish false threshold level me).2
      (w.noteAttempt me .endWrite ((o.finish false threshold level me).1.map fun _ => .done))) :
    Sends w (o.finish false threshold level me).2
      (w.noteAttempt me .endWrite ((o.finish false threshold level me).1.map fun _ => .done)) := by
  by_cases hholder : o.lock.holder = some me
  · obtain ⟨m, hcurrent⟩ := h.owner hholder
    by_cases hempty : m.payload = []
    · have hbuffer : o.buffer.isEmpty = true := by rw [(h.message me m hcurrent).2, hempty]; rfl
      simp only [Outbound.finish, Lock.isHeldBy_iff.2 hholder, h.idle, refusal?_of_holder hholder, hbuffer, if_true]
      simp only [Attempt.map, Writings.noteAttempt, Attempt.result?, Writings.note, hcurrent, hempty, if_true]
      exact Follows.sends (follows_leave hholder h.present rfl) hwritten rfl
    · exact hpayload m hcurrent hempty
  · have hrefused : o.finish false threshold level me = (.error (.protocolState "end_write" "write"), o) := by
      simp only [Outbound.finish, Lock.isHeldBy_eq_false_iff.2 hholder, refusal?_of_not_holder hholder]
    rw [hrefused]
    exact h.refused hwritten hholder (c := .endWrite) (fun n hc => by cases hc) _

/-- Ending a transaction sends what carries its message, if it has a payload. -/
theorem Follows.finish (h : o.Follows w) (hsink : o.sink = {}) {threshold : Int32} {level : Nat} :
    Sends w (o.finish false threshold level me).2
      (w.noteAttempt me .endWrite ((o.finish false threshold level me).1.map fun _ => .done)) := by
  refine h.finish_of (written_of_plain hsink) fun m hcurrent hpayload => ?_
  obtain ⟨hsent, hfailed⟩ := h.finish_of_payload hsink hcurrent hpayload threshold level
  by_cases hfits : (Message.job m threshold level).Fits
  · obtain ⟨o₁, hfinish, hwritten, hfollows⟩ := hsent hfits
    rw [hfinish]
    simp only [Attempt.map, Writings.noteAttempt, Attempt.result?, Writings.note, hcurrent, hpayload, if_true, if_false]
    have hcarries : (Message.job m threshold level).parcel.Carries m :=
      ⟨Packet.Job.parcel_isSound hfits, Packet.Job.parcel_sequence, Packet.Job.parcel_payload? hfits⟩
    refine ⟨⟨[(Message.job m threshold level).parcel], [m], ?_, rfl, .cons hcarries .nil⟩, ?_⟩
    · rw [hwritten, Parcel.wires, List.flatMap_singleton]
    · exact ⟨hfollows.idle, hfollows.present, hfollows.holder, hfollows.message⟩
  · obtain ⟨e, o₁, hfinish, hwritten, hfollows⟩ := hfailed hfits
    rw [hfinish]
    simp only [Attempt.map, Writings.noteAttempt, Attempt.result?, Writings.note, hcurrent, if_true]
    exact hfollows.sends hwritten rfl

/-- Over a broken sink it sends nothing. -/
theorem Follows.finish_broken (h : o.Follows w) {cause : IoError} (hsink : o.sink = { broken := some cause })
    (hlasts : cause.isInterruption = false) {threshold : Int32} {level : Nat} :
    Sends w (o.finish false threshold level me).2
      (w.noteAttempt me .endWrite ((o.finish false threshold level me).1.map fun _ => .done)) := by
  refine h.finish_of (by rw [hsink]) fun m hcurrent hpayload => ?_
  obtain ⟨e, o₁, hfinish, hwritten, hfollows, -⟩ := h.finish_of_broken hsink hlasts hcurrent hpayload threshold level
  rw [hfinish]
  simp only [Attempt.map, Writings.noteAttempt, Attempt.result?, Writings.note, hcurrent, if_true]
  exact hfollows.sends hwritten rfl

end

end Outbound

namespace Link

theorem call_outbound (l : Link) (me : Thread) {c : Call} (hc : c ≠ .close) (hwrites : c.writes = false) :
    (l.call me c).2.outbound = l.outbound := by
  cases c with
  | close => exact absurd rfl hc
  | beginWrite n => cases hwrites
  | write bs => cases hwrites
  | restartWrite => cases hwrites
  | cancelWrite => cases hwrites
  | endWrite => cases hwrites
  | enableCompression =>
      simp only [call, enableCompression]
      split <;> rfl
  | disableCompression =>
      simp only [call, disableCompression]
      split <;> rfl
  | _ => rfl

section

variable (me : Thread) {l : Link} {w : Writings} {c : Call} (hclosed : l.closed = false) (hc : c ≠ .close)
  (h : l.outbound.Follows w)

include hclosed hc h

/-- A call on an open link that does not close it sends what it tells to have been sent, if ending a transaction does. -/
theorem call_sends_of (hwritten : l.outbound.sink.written = [])
    (hfinish : Outbound.Sends w (l.outbound.finish false l.threshold l.settings.level me).2
      (w.noteAttempt me .endWrite ((l.outbound.finish false l.threshold l.settings.level me).1.map fun _ => .done))) :
    Outbound.Sends w (l.call me c).2.outbound (w.noteAttempt me c (l.call me c).1) := by
  cases c with
  | close => exact absurd rfl hc
  | beginWrite n =>
      simp only [call, withOutbound, hclosed]
      exact h.begin hwritten rfl
  | write bs =>
      simp only [call, withOutbound, hclosed]
      exact h.write hwritten rfl
  | restartWrite =>
      simp only [call, withOutbound, hclosed]
      exact h.restart hwritten rfl
  | endWrite =>
      simp only [call, withOutbound, hclosed]
      exact hfinish
  | cancelWrite =>
      simp only [call, withOutbound, hclosed]
      exact h.cancel hwritten rfl
  | _ =>
      rw [call_outbound l me hc rfl, Writings.noteAttempt_of_not_writes rfl]
      exact h.sends hwritten rfl

theorem call_sends (hsink : l.outbound.sink = {}) :
    Outbound.Sends w (l.call me c).2.outbound (w.noteAttempt me c (l.call me c).1) :=
  call_sends_of me hclosed hc h (Outbound.written_of_plain hsink) (h.finish hsink)

theorem call_sends_broken {cause : IoError} (hsink : l.outbound.sink = { broken := some cause })
    (hlasts : cause.isInterruption = false) :
    Outbound.Sends w (l.call me c).2.outbound (w.noteAttempt me c (l.call me c).1) :=
  call_sends_of me hclosed hc h (by rw [hsink]) (h.finish_broken hsink hlasts)

end

end Link

end FrameLink
