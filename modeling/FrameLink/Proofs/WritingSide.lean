import FrameLink.Proofs.Courses

/-! The writing side of a link, open or closed, over any sink. Its lock is free and its buffer empty, or a thread holds
the lock and collects a payload, or the holder is at work in sending a frame that the sink has not taken whole. A call
of a thread comes to one of a few things, which say all that it can do to the lock, to the buffers and to the sink;
from these follows that the writing side keeps such a stance. -/

namespace FrameLink

namespace Sink

/-- The sink has taken the bytes but for a rest, and nothing else. -/
def Takes (s : Sink) (bs rest : Bytes) (s' : Sink) : Prop :=
  ∃ taken, bs = taken ++ rest ∧ s'.written = s.written ++ taken

section

variable {s s' : Sink} {bs rest : Bytes}

theorem Takes.refl (s : Sink) (bs : Bytes) : s.Takes bs bs s :=
  ⟨[], rfl, (List.append_nil _).symm⟩

theorem Takes.trans {t : Sink} {left : Bytes} (h : s.Takes bs left t) (k : t.Takes left rest s') :
    s.Takes bs rest s' := by
  obtain ⟨taken, rfl, hs⟩ := h
  obtain ⟨taken', rfl, ht⟩ := k
  exact ⟨taken ++ taken', (List.append_assoc ..).symm, by rw [ht, hs, List.append_assoc]⟩

@[simp] theorem written_beginWrite (s : Sink) : s.beginWrite.written = s.written := by
  unfold beginWrite
  split <;> rfl

/-- What a write answers is how many of the bytes have been taken; a write that fails or waits takes none. -/
theorem writeReplies_takes (s : Sink) (bs : Bytes) (replies : List Reply) (passes : Nat) {r : Attempt IoError Nat}
    (h : writeReplies s bs replies passes = (r, s')) :
    (∀ n, r = .ok n → s.Takes bs (bs.drop n) s') ∧ ((∀ n, r ≠ .ok n) → s'.written = s.written) := by
  have htake : ∀ (t : Sink) n, t.written = s.written → t.take bs n = (r, s') →
      (∀ n, r = .ok n → s.Takes bs (bs.drop n) s') ∧ ((∀ n, r ≠ .ok n) → s'.written = s.written) := by
    intro t n hwritten ht
    obtain ⟨rfl, rfl⟩ := Prod.mk.inj ht
    refine ⟨fun m hm => ⟨bs.take n, ?_, congrArg (· ++ bs.take n) hwritten⟩, fun hnot => absurd rfl (hnot _)⟩
    obtain rfl := Attempt.ok.inj hm
    rcases Nat.le_total n bs.length with hle | hle
    · rw [Nat.min_eq_left hle, List.take_append_drop]
    · rw [Nat.min_eq_right hle, List.drop_length, List.append_nil, List.take_of_length_le hle]
  induction replies generalizing passes with
  | nil =>
      simp only [writeReplies] at h
      split at h
      · exact htake { s with replies := [], passes := passes } _ rfl h
      · obtain ⟨rfl, rfl⟩ := Prod.mk.inj h
        exact ⟨nofun, fun _ => rfl⟩
  | cons reply replies ih =>
      cases reply with
      | takes most =>
          cases most with
          | none => exact htake { s with replies := replies, passes := passes } _ rfl h
          | some n => exact htake { s with replies := replies, passes := passes } _ rfl h
      | failure e =>
          obtain ⟨rfl, rfl⟩ := Prod.mk.inj h
          exact ⟨nofun, fun _ => rfl⟩
      | gate =>
          cases passes with
          | zero =>
              obtain ⟨rfl, rfl⟩ := Prod.mk.inj h
              exact ⟨nofun, fun _ => rfl⟩
          | succ passes => exact ih passes h

theorem write_takes {r : Attempt IoError Nat} (h : s.write bs = (r, s')) :
    (∀ n, r = .ok n → s.Takes bs (bs.drop n) s') ∧ ((∀ n, r ≠ .ok n) → s.Takes bs bs s') := by
  obtain ⟨htaken, hsame⟩ := writeReplies_takes _ bs _ _ h
  rw [written_beginWrite] at hsame
  refine ⟨fun n hn => ?_, fun hnot => ⟨[], rfl, by rw [hsame hnot, List.append_nil]⟩⟩
  obtain ⟨taken, hbs, hwritten⟩ := htaken n hn
  exact ⟨taken, hbs, by rw [hwritten, written_beginWrite]⟩

/-- Whatever writing comes to, the sink has taken the bytes up to those that are left, and all if it succeeds. -/
theorem writeSome_takes {writes : Nat} {r : Attempt IoError Unit} (h : writeSome writes bs s = (r, rest, s')) :
    s.Takes bs rest s' ∧ (r = .ok () → rest = []) := by
  induction writes generalizing bs s with
  | zero =>
      simp only [writeSome, Prod.mk.injEq] at h
      obtain ⟨rfl, rfl, rfl⟩ := h
      exact ⟨.refl s bs, nofun⟩
  | succ writes ih =>
      simp only [writeSome] at h
      split at h
      · rename_i hempty
        simp only [Prod.mk.injEq] at h
        obtain ⟨rfl, rfl, rfl⟩ := h
        rw [List.isEmpty_iff.1 hempty]
        exact ⟨.refl s [], fun _ => rfl⟩
      · rcases hwrite : s.write bs with ⟨q, t⟩
        obtain ⟨htaken, hsame⟩ := write_takes hwrite
        rw [hwrite] at h
        split at h
        · rename_i heq
          obtain ⟨rfl, rfl⟩ := Prod.mk.inj heq
          simp only [Prod.mk.injEq] at h
          obtain ⟨rfl, rfl, rfl⟩ := h
          exact ⟨htaken 0 rfl, nofun⟩
        · rename_i n _ _ heq
          obtain ⟨rfl, rfl⟩ := Prod.mk.inj heq
          obtain ⟨hrest, hok⟩ := ih h
          exact ⟨(htaken n rfl).trans hrest, hok⟩
        · rename_i heq
          obtain ⟨rfl, rfl⟩ := Prod.mk.inj heq
          split at h
          · obtain ⟨hrest, hok⟩ := ih h
            exact ⟨(hsame nofun).trans hrest, hok⟩
          · simp only [Prod.mk.injEq] at h
            obtain ⟨rfl, rfl, rfl⟩ := h
            exact ⟨hsame nofun, nofun⟩
        · rename_i heq
          obtain ⟨rfl, rfl⟩ := Prod.mk.inj heq
          simp only [Prod.mk.injEq] at h
          obtain ⟨rfl, rfl, rfl⟩ := h
          exact ⟨hsame nofun, nofun⟩

@[simp] theorem written_flush (s : Sink) : s.flush.2.written = s.written := by
  unfold flush
  split <;> rfl

end

end Sink

namespace Outbound

/-- Where the writing side stands while these calls about it hold threads up. -/
inductive Stance (closed : Bool) (held : Thread → Option Call) (o : Outbound) : Prop where
  | free (hholder : o.lock.holder = none) (hidle : o.sending = none) (hbuffer : o.buffer = [])
  | owned {owner : Thread} (hholder : o.lock.holder = some owner) (hheld : held owner = none) (hidle : o.sending = none)
  | working {owner : Thread} {rest : Bytes} (hholder : o.lock.holder = some owner)
      (hheld : held owner = some .endWrite) (hsending : o.sending = some rest)

/-- The writing side keeps to a stance. Its sink is there as long as the link is open or a call is at work on it, and
what a closed link leaves behind is empty. Only those queue up for the lock who wait to begin. -/
structure IsCoherent (closed : Bool) (held : Thread → Option Call) (o : Outbound) : Prop where
  stance : Stance closed held o
  present : o.present = (!closed || o.sending.isSome)
  discarded : closed = true → o.sending = none → o.buffer = [] ∧ o.frame = []
  orderly : o.lock.IsOrderly fun you => ∃ n, held you = some (.beginWrite n)

/-- What ending a transaction has to put on the sink: the frame of the packet, or what is left of it. -/
inductive Posts (closed : Bool) (threshold : Int32) (level : Nat) (o : Outbound) (left : Bytes) : Prop where
  | anew {h : Header} (hopen : closed = false) (hidle : o.sending = none) (hbuffer : o.buffer ≠ [])
      (hencode : Packet.encodeInto o.frame o.sequence o.buffer threshold level = (.ok h, left))
  | again (hsending : o.sending = some left)

/-- What an attempt of a thread at a call about the writing side comes to. -/
inductive Outcome (closed : Bool) (threshold : Int32) (level : Nat) (me : Thread) (c : Call) (o : Outbound) :
    Attempt LinkError Unit → Outbound → Prop where
  | queued {n : Int32} (hc : c = .beginWrite n) (hholder : o.lock.holder ≠ some me)
      (hfree : o.lock.isFreeFor me = false) (hqueue : closed = true → me ∈ o.lock.queue) :
      Outcome closed threshold level me c o .waiting { o with lock := ⟨o.lock.holder, (o.lock.enqueue me).queue⟩ }
  | reentrant {n : Int32} {operation : String} (hc : c = .beginWrite n) (hopen : closed = false)
      (hholder : o.lock.holder = some me) :
      Outcome closed threshold level me c o (.error (.reentrancy operation)) o
  | unowned {operation : String} (hc : ∀ n, c ≠ .beginWrite n) (hopen : closed = false)
      (hholder : o.lock.holder ≠ some me) :
      Outcome closed threshold level me c o (.error (.protocolState operation "write")) o
  /-- The link has been closed, and the thread has nothing to lose. -/
  | shut (hclosed : closed = true) (hholder : o.lock.holder ≠ some me) (hqueue : me ∉ o.lock.queue) :
      Outcome closed threshold level me c o (.error .closed) o
  /-- The link has been closed, and the thread does not get the lock or loses it. -/
  | expelled (hclosed : closed = true) (hmine : o.lock.holder = some me ∨ o.lock.holder = none)
      (hidle : o.sending = none) :
      Outcome closed threshold level me c o (.error .closed) { o with lock := o.lock.vacated me }
  | begun {n : Int32} (hc : c = .beginWrite n) (hopen : closed = false) (hnone : o.lock.holder = none)
      (hidle : o.sending = none) :
      Outcome closed threshold level me c o (.ok ())
        { o with lock := o.lock.taken me, sequence := n, buffer := [] }
  | added {bs : Bytes} (hc : c = .write bs) (hopen : closed = false) (hholder : o.lock.holder = some me)
      (hidle : o.sending = none) :
      Outcome closed threshold level me c o (.ok ()) { o with buffer := o.buffer ++ bs }
  | restarted (hc : c = .restartWrite) (hopen : closed = false) (hholder : o.lock.holder = some me)
      (hidle : o.sending = none) :
      Outcome closed threshold level me c o (.ok ()) { o with buffer := [] }
  /-- The transaction ends with nothing to send. -/
  | dropped (hc : c = .cancelWrite ∨ c = .endWrite ∧ o.buffer = []) (hopen : closed = false)
      (hholder : o.lock.holder = some me) (hidle : o.sending = none) :
      Outcome closed threshold level me c o (.ok ()) { o with buffer := [], lock := o.lock.vacated me }
  /-- The transaction ends with a payload of which no packet can be made. -/
  | unfit {e : LinkError} {frame : Bytes} (hc : c = .endWrite) (hopen : closed = false)
      (hholder : o.lock.holder = some me) (hidle : o.sending = none) (hbuffer : o.buffer ≠ [])
      (hencode : Packet.encodeInto o.frame o.sequence o.buffer threshold level = (.error e, frame)) :
      Outcome closed threshold level me c o (.error e)
        { o with buffer := [], frame := frame, lock := o.lock.vacated me }
  | waits {left rest frame : Bytes} {sink : Sink} (hc : c = .endWrite) (hholder : o.lock.holder = some me)
      (hposts : Posts closed threshold level o left) (htakes : o.sink.Takes left rest sink) :
      Outcome closed threshold level me c o .waiting { o with sink := sink, frame := frame, sending := some rest }
  /-- The transaction ends with the frame sent, or with a failure of the sink. -/
  | sent {left rest : Bytes} {sink : Sink} {r : Attempt LinkError Unit} (hc : c = .endWrite)
      (hholder : o.lock.holder = some me) (hposts : Posts closed threshold level o left)
      (htakes : o.sink.Takes left rest sink) (hr : r = .ok () ∧ rest = [] ∨ ∃ io, r = .error (.stream io)) :
      Outcome closed threshold level me c o r
        ⟨sink, o.lock.vacated me, o.present && !closed, o.sequence, [], [], none⟩

section

variable {closed : Bool} {threshold : Int32} {level : Nat} {held : Thread → Option Call} {o o' : Outbound} {me : Thread}

theorem leave_eq (hholder : o.lock.holder = some me) (hqueue : me ∉ o.lock.queue) :
    o.leave closed me = ⟨o.sink, o.lock.vacated me, o.present && !closed, o.sequence, [],
      if closed then [] else o.frame, none⟩ := by
  simp only [leave, release, Lock.release_eq_vacated (.inl hholder) hqueue]

/-- The owner of the lock sends what is left of a frame. -/
theorem transmit_outcome (hholder : o.lock.holder = some me) (hqueue : me ∉ o.lock.queue) {left : Bytes}
    (hposts : Posts closed threshold level o left) (frame : Bytes) {r : Attempt LinkError Unit}
    (h : { o with frame := frame }.transmit closed me left = (r, o')) :
    Outcome closed threshold level me .endWrite o r o' := by
  rcases hwrite : o.sink.writeAll left with ⟨q, rest, sink⟩
  obtain ⟨htakes, hall⟩ := Sink.writeSome_takes hwrite
  have hleave : ∀ s : Sink, ({ o with sink := s, frame := [] } : Outbound).leave closed me =
      ⟨s, o.lock.vacated me, o.present && !closed, o.sequence, [], [], none⟩ := by
    intro s
    rw [leave_eq (o := { o with sink := s, frame := [] }) hholder hqueue]
    cases closed <;> rfl
  simp only [transmit, hwrite, hleave] at h
  cases q with
  | waiting =>
      obtain ⟨rfl, rfl⟩ := Prod.mk.inj h
      exact .waits rfl hholder hposts htakes
  | error e =>
      obtain ⟨rfl, rfl⟩ := Prod.mk.inj h
      exact .sent rfl hholder hposts htakes (.inr ⟨e, rfl⟩)
  | ok _ =>
      -- What a flush answers does not change what the sink has taken.
      obtain ⟨rfl, rfl⟩ := Prod.mk.inj h
      have hflushed : o.sink.Takes left rest sink.flush.2 := by
        obtain ⟨taken, hleft, hwritten⟩ := htakes
        exact ⟨taken, hleft, (Sink.written_flush sink).trans hwritten⟩
      refine .sent rfl hholder hposts hflushed ?_
      cases sink.flush.1 with
      | ok _ => exact .inl ⟨rfl, hall rfl⟩
      | error e => exact .inr ⟨e, rfl⟩

/-- A thread that owns the lock, or might take it, and does not go on with sending finds nothing being sent. -/
theorem IsCoherent.idle (h : o.IsCoherent closed held) {c : Call} (hme : held me = none ∨ held me = some c)
    (hc : c ≠ .endWrite) (hmine : o.lock.holder = some me ∨ o.lock.holder = none) : o.sending = none := by
  cases h.stance with
  | free _ hidle _ => exact hidle
  | owned _ _ hidle => exact hidle
  | working hholder hheld _ =>
      rcases hmine with hsome | hnone
      · obtain rfl := Option.some.inj (hholder.symm.trans hsome)
        rcases hme with hnone | hsame
        · rw [hnone] at hheld; cases hheld
        · exact absurd (Option.some.inj (hsame.symm.trans hheld)) hc
      · rw [hholder] at hnone; cases hnone

/-- Only a thread that is held up in beginning a transaction queues up for the lock. -/
theorem IsCoherent.not_mem_queue (h : o.IsCoherent closed held) {c : Call} (hme : held me = none ∨ held me = some c)
    (hc : ∀ n, c ≠ .beginWrite n) : me ∉ o.lock.queue := by
  intro hmem
  obtain ⟨n, hbegin⟩ := h.orderly.waits me hmem
  rcases hme with hnone | hsome
  · rw [hnone] at hbegin; cases hbegin
  · exact hc n (Option.some.inj (hsome.symm.trans hbegin))

/-- A link that has been closed turns a thread away, and takes the lock from it if it sends nothing. -/
theorem IsCoherent.turnedAway (c : Call) (hqueue : me ∉ o.lock.queue)
    (hidle : o.lock.holder = some me → o.sending = none) :
    Outcome true threshold level me c o (.error .closed) (o.release me) := by
  by_cases hholder : o.lock.holder = some me
  · have hrelease : o.release me = { o with lock := o.lock.vacated me } := by
      rw [release, Lock.release_eq_vacated (.inl hholder) hqueue]
    rw [hrelease]
    exact .expelled rfl (.inl hholder) (hidle hholder)
  · have hrelease : o.release me = o := by rw [release, Lock.release_of_not_holder hholder]
    rw [hrelease]
    exact .shut rfl hholder hqueue

theorem IsCoherent.begin_outcome (h : o.IsCoherent closed held) {n : Int32}
    (hme : held me = none ∨ held me = some (.beginWrite n)) {r : Attempt LinkError Unit}
    (hr : o.begin closed me n = (r, o')) : Outcome closed threshold level me (.beginWrite n) o r o' := by
  unfold Outbound.begin at hr
  split at hr
  · rename_i hshut
    rw [Bool.and_eq_true, Bool.not_eq_true', Lock.isAwaitedBy_eq_false_iff] at hshut
    obtain ⟨rfl, hqueue⟩ := hshut
    obtain ⟨rfl, rfl⟩ := Prod.mk.inj hr
    exact IsCoherent.turnedAway _ hqueue fun hholder => h.idle hme (by simp) (.inl hholder)
  · rename_i hadmitted
    have hqueue : closed = true → me ∈ o.lock.queue := Lock.mem_queue_of_admitted hadmitted
    rcases hacquire : o.lock.acquire me "begin_write" with ⟨q, lock⟩
    rw [hacquire] at hr
    cases Lock.acquire_outcome hacquire with
    | reentrant hholder =>
        obtain ⟨rfl, rfl⟩ := Prod.mk.inj hr
        have hopen : closed = false :=
          Bool.eq_false_iff.2 fun hclosed => h.orderly.not_mem_of_holder hholder (hqueue hclosed)
        exact .reentrant rfl hopen hholder
    | queued hholder hfree =>
        obtain ⟨rfl, rfl⟩ := Prod.mk.inj hr
        exact .queued rfl hholder hfree hqueue
    | taken hfree =>
        have hnone := Lock.holder_of_isFreeFor hfree
        cases closed with
        | false =>
            obtain ⟨rfl, rfl⟩ := Prod.mk.inj hr
            exact .begun rfl rfl hnone (h.idle hme (by simp) (.inr hnone))
        | true =>
            obtain ⟨rfl, rfl⟩ := Prod.mk.inj hr
            have hrelease : ({ o with lock := o.lock.taken me } : Outbound).release me =
                { o with lock := o.lock.vacated me } := by
              rw [release, Lock.release_taken]
            refine hrelease.symm ▸ ?_
            exact .expelled rfl (.inr hnone) (h.idle hme (by simp) (.inr hnone))

theorem IsCoherent.refusal_outcome (h : o.IsCoherent closed held) {c : Call} (hme : held me = none ∨ held me = some c)
    (hc : ∀ n, c ≠ .beginWrite n) (hidle : o.lock.holder = some me → o.sending = none) {operation : String}
    {e : LinkError} (hr : o.refusal? closed me operation = some (e, o')) :
    Outcome closed threshold level me c o (.error e) o' := by
  unfold refusal? at hr
  split at hr
  · rename_i hclosed
    obtain ⟨rfl, rfl⟩ := Prod.mk.inj (Option.some.inj hr)
    subst hclosed
    exact IsCoherent.turnedAway c (h.not_mem_queue hme hc) hidle
  · rename_i hopen
    split at hr
    · cases hr
    · rename_i hholder
      obtain ⟨rfl, rfl⟩ := Prod.mk.inj (Option.some.inj hr)
      exact .unowned hc (Bool.eq_false_iff.2 hopen) (fun hme => hholder (Lock.isHeldBy_iff.2 hme))

theorem holder_of_refusal_eq_none {operation : String} (hr : o.refusal? closed me operation = none) :
    closed = false ∧ o.lock.holder = some me := by
  unfold refusal? at hr
  split at hr
  · cases hr
  · rename_i hopen
    split at hr
    · rename_i hholder
      exact ⟨Bool.eq_false_iff.2 hopen, Lock.isHeldBy_iff.1 hholder⟩
    · cases hr

theorem IsCoherent.write_outcome (h : o.IsCoherent closed held) {bs : Bytes}
    (hme : held me = none ∨ held me = some (.write bs)) {r : Attempt LinkError Unit}
    (hr : o.write closed me bs = (r, o')) : Outcome closed threshold level me (.write bs) o r o' := by
  have hidle : o.lock.holder = some me → o.sending = none := fun hholder => h.idle hme (by simp) (.inl hholder)
  unfold Outbound.write at hr
  split at hr
  · rename_i hrefusal
    obtain ⟨rfl, rfl⟩ := Prod.mk.inj hr
    exact h.refusal_outcome hme (by simp) hidle hrefusal
  · rename_i hrefusal
    obtain ⟨hopen, hholder⟩ := holder_of_refusal_eq_none hrefusal
    obtain ⟨rfl, rfl⟩ := Prod.mk.inj hr
    exact .added rfl hopen hholder (hidle hholder)

theorem IsCoherent.restart_outcome (h : o.IsCoherent closed held) (hme : held me = none ∨ held me = some .restartWrite)
    {r : Attempt LinkError Unit} (hr : o.restart closed me = (r, o')) :
    Outcome closed threshold level me .restartWrite o r o' := by
  have hidle : o.lock.holder = some me → o.sending = none := fun hholder => h.idle hme (by simp) (.inl hholder)
  unfold Outbound.restart at hr
  split at hr
  · rename_i hrefusal
    obtain ⟨rfl, rfl⟩ := Prod.mk.inj hr
    exact h.refusal_outcome hme (by simp) hidle hrefusal
  · rename_i hrefusal
    obtain ⟨hopen, hholder⟩ := holder_of_refusal_eq_none hrefusal
    obtain ⟨rfl, rfl⟩ := Prod.mk.inj hr
    exact .restarted rfl hopen hholder (hidle hholder)

/-- What the end of a transaction with nothing to send leaves behind on an open link. -/
theorem leave_of_idle (hholder : o.lock.holder = some me) (hqueue : me ∉ o.lock.queue) (hidle : o.sending = none)
    (hopen : closed = false) : o.leave closed me = { o with buffer := [], lock := o.lock.vacated me } := by
  subst hopen
  rw [leave_eq hholder hqueue, ← hidle, Bool.not_false, Bool.and_true, if_neg Bool.false_ne_true]

theorem IsCoherent.cancel_outcome (h : o.IsCoherent closed held) (hme : held me = none ∨ held me = some .cancelWrite)
    {r : Attempt LinkError Unit} (hr : o.cancel closed me = (r, o')) :
    Outcome closed threshold level me .cancelWrite o r o' := by
  have hidle : o.lock.holder = some me → o.sending = none := fun hholder => h.idle hme (by simp) (.inl hholder)
  unfold Outbound.cancel at hr
  split at hr
  · rename_i hrefusal
    obtain ⟨rfl, rfl⟩ := Prod.mk.inj hr
    exact h.refusal_outcome hme (by simp) hidle hrefusal
  · rename_i hrefusal
    obtain ⟨hopen, hholder⟩ := holder_of_refusal_eq_none hrefusal
    obtain ⟨rfl, rfl⟩ := Prod.mk.inj hr
    rw [leave_of_idle hholder (h.orderly.not_mem_of_holder hholder) (hidle hholder) hopen]
    exact .dropped (.inl rfl) hopen hholder (hidle hholder)

theorem IsCoherent.finish_outcome (h : o.IsCoherent closed held) (hme : held me = none ∨ held me = some .endWrite)
    {r : Attempt LinkError Unit} (hr : o.finish closed threshold level me = (r, o')) :
    Outcome closed threshold level me .endWrite o r o' := by
  unfold Outbound.finish at hr
  split at hr
  · rename_i rest hheld hsending
    have hholder := Lock.isHeldBy_iff.1 hheld
    exact transmit_outcome hholder (h.orderly.not_mem_of_holder hholder) (.again hsending) o.frame hr
  · rename_i hnot
    have hidle : o.lock.holder = some me → o.sending = none := by
      intro hholder
      cases hsending : o.sending with
      | none => rfl
      | some rest => exact (hnot rest (Lock.isHeldBy_iff.2 hholder) hsending).elim
    split at hr
    · rename_i hrefusal
      obtain ⟨rfl, rfl⟩ := Prod.mk.inj hr
      exact h.refusal_outcome hme (by simp) hidle hrefusal
    · rename_i hrefusal
      obtain ⟨hopen, hholder⟩ := holder_of_refusal_eq_none hrefusal
      have hqueue := h.orderly.not_mem_of_holder hholder
      have hpresent : o.present = true := by rw [h.present, hopen]; rfl
      split at hr
      · rename_i hempty
        obtain ⟨rfl, rfl⟩ := Prod.mk.inj hr
        rw [leave_of_idle hholder hqueue (hidle hholder) hopen]
        exact .dropped (.inr ⟨rfl, List.isEmpty_iff.1 hempty⟩) hopen hholder (hidle hholder)
      · rename_i hbuffer
        rw [List.isEmpty_iff] at hbuffer
        have hnot : ¬ (!o.present) = true := by rw [hpresent]; exact Bool.false_ne_true
        rw [if_neg hnot] at hr
        split at hr
        · rename_i e frame hencode
          obtain ⟨rfl, rfl⟩ := Prod.mk.inj hr
          rw [leave_of_idle (o := { o with frame := frame }) hholder hqueue (hidle hholder) hopen]
          exact .unfit rfl hopen hholder (hidle hholder) hbuffer hencode
        · rename_i header frame hencode
          exact transmit_outcome hholder hqueue (.anew hopen (hidle hholder) hbuffer hencode) frame hr

/-- What another thread does that leaves holder, buffer and sending alone does not disturb a stance. -/
theorem Stance.of_not_holder {held' : Thread → Option Call} (h : Stance closed held o)
    (hholder : o.lock.holder ≠ some me) (hothers : ∀ you, you ≠ me → held' you = held you)
    (hholder' : o'.lock.holder = o.lock.holder) (hsending' : o'.sending = o.sending)
    (hbuffer' : o'.buffer = o.buffer) : Stance closed held' o' := by
  have howner : ∀ {owner}, o.lock.holder = some owner → held' owner = held owner :=
    fun hsome => hothers _ fun heq => hholder (heq ▸ hsome)
  cases h with
  | free hnone hidle hbuffer =>
      exact .free (hholder'.trans hnone) (hsending'.trans hidle) (hbuffer'.trans hbuffer)
  | owned hsome hheld hidle =>
      exact .owned (hholder'.trans hsome) ((howner hsome).trans hheld) (hsending'.trans hidle)
  | working hsome hheld hsending =>
      exact .working (hholder'.trans hsome) ((howner hsome).trans hheld) (hsending'.trans hsending)

/-- Whatever a call comes to, the writing side is as it should be afterwards. -/
theorem Outcome.isCoherent {c : Call} {r : Attempt LinkError Unit} (ho : Outcome closed threshold level me c o r o')
    (h : o.IsCoherent closed held) (hme : held me = none ∨ held me = some c) :
    o'.IsCoherent closed (Function.update held me (Play.heldBy c r)) := by
  have hothers : ∀ you, you ≠ me → Function.update held me (Play.heldBy c r) you = held you :=
    fun you hyou => Function.update_of_ne hyou _ _
  have hbegins : ∀ you, you ≠ me → (∃ n, held you = some (.beginWrite n)) →
      ∃ n, Function.update held me (Play.heldBy c r) you = some (.beginWrite n) :=
    fun you hyou ⟨n, hbegin⟩ => ⟨n, (hothers you hyou).trans hbegin⟩
  have hanswered : r ≠ .waiting → Function.update held me (Play.heldBy c r) me = none := by
    intro hwait
    rw [Function.update_self]
    cases r with
    | waiting => exact absurd rfl hwait
    | _ => rfl
  have hthere : closed = false → o.sending = none → o.present = true := by
    intro hopen hidle
    rw [h.present, hopen]
    rfl
  cases ho with
  | queued hc hholder hfree hqueue =>
      rename_i n
      refine ⟨h.stance.of_not_holder hholder hothers rfl rfl rfl, h.present, h.discarded,
        h.orderly.enqueue hholder ⟨n, ?_⟩ hbegins⟩
      rw [Function.update_self, hc]
      rfl
  | reentrant hc hopen hholder =>
      have hidle := h.idle hme (by simp [hc]) (.inl hholder)
      exact ⟨.owned hholder (hanswered nofun) hidle, h.present, h.discarded,
        h.orderly.of_not_mem (h.orderly.not_mem_of_holder hholder) hbegins⟩
  | unowned hc hopen hholder =>
      exact ⟨h.stance.of_not_holder hholder hothers rfl rfl rfl, h.present, h.discarded,
        h.orderly.of_not_mem (h.not_mem_queue hme hc) hbegins⟩
  | shut hclosed hholder hqueue =>
      exact ⟨h.stance.of_not_holder hholder hothers rfl rfl rfl, h.present, h.discarded,
        h.orderly.of_not_mem hqueue hbegins⟩
  | expelled hclosed hmine hidle =>
      exact ⟨.free rfl hidle (h.discarded hclosed hidle).1, h.present, h.discarded, h.orderly.vacated hbegins⟩
  | begun hc hopen hnone hidle =>
      subst hopen
      exact ⟨.owned rfl (hanswered nofun) hidle, h.present, nofun, h.orderly.taken hbegins⟩
  | added hc hopen hholder hidle =>
      subst hopen
      exact ⟨.owned hholder (hanswered nofun) hidle, h.present, nofun,
        h.orderly.of_not_mem (h.orderly.not_mem_of_holder hholder) hbegins⟩
  | restarted hc hopen hholder hidle =>
      subst hopen
      exact ⟨.owned hholder (hanswered nofun) hidle, h.present, nofun,
        h.orderly.of_not_mem (h.orderly.not_mem_of_holder hholder) hbegins⟩
  | dropped hc hopen hholder hidle =>
      subst hopen
      exact ⟨.free rfl hidle rfl, h.present, nofun, h.orderly.vacated hbegins⟩
  | unfit hc hopen hholder hidle hbuffer hencode =>
      subst hopen
      exact ⟨.free rfl hidle rfl, h.present, nofun, h.orderly.vacated hbegins⟩
  | waits hc hholder hposts htakes =>
      have hpresent : o.present = true := by
        cases hposts with
        | anew hopen hidle _ _ => exact hthere hopen hidle
        | again hsending => rw [h.present, hsending, Option.isSome_some, Bool.or_true]
      refine ⟨.working hholder ?_ rfl, ?_, nofun, h.orderly.of_not_mem (h.orderly.not_mem_of_holder hholder) hbegins⟩
      · rw [Function.update_self, hc]
        rfl
      · rw [Option.isSome_some, Bool.or_true]
        exact hpresent
  | sent hc hholder hposts htakes hr =>
      refine ⟨.free rfl rfl rfl, ?_, fun _ _ => ⟨rfl, rfl⟩, h.orderly.vacated hbegins⟩
      show (o.present && !closed) = (!closed || false)
      cases hclosed : closed with
      | true => rw [Bool.not_true, Bool.and_false]; rfl
      | false => rw [h.present, hclosed]; rfl

/-- So it is when a thread that is in no call about it closes the link. -/
theorem IsCoherent.close (h : o.IsCoherent closed held) (hme : held me = none) :
    (o.close me).IsCoherent true held := by
  cases hsending : o.sending with
  | none =>
      have heq : o.close me =
          { o with present := false, buffer := [], frame := [], lock := (o.lock.release me).2 } := by
        simp only [Outbound.close, hsending, Option.isSome_none, Bool.false_eq_true, if_false, release]
      rw [heq]
      refine ⟨?_, ?_, fun _ _ => ⟨rfl, rfl⟩, h.orderly.release me⟩
      · cases h.stance with
        | free hholder _ _ =>
            refine .free ?_ hsending rfl
            exact (congrArg Lock.holder (Lock.release_of_free hholder me)).trans hholder
        | working _ _ hsome => rw [hsending] at hsome; cases hsome
        | owned hholder hheld hidle =>
            rename_i owner
            by_cases howner : owner = me
            · subst howner
              exact .free (congrArg Lock.holder (Lock.release_of_holder hholder)) hsending rfl
            · have hnot : o.lock.holder ≠ some me := fun hsome => howner (Option.some.inj (hholder.symm.trans hsome))
              refine .owned ?_ hheld hsending
              exact (congrArg Lock.holder (Lock.release_of_not_holder hnot)).trans hholder
      · show false = (!true || o.sending.isSome)
        rw [hsending]
        rfl
  | some rest =>
      have heq : o.close me = o.release me := by
        simp only [Outbound.close, hsending, Option.isSome_some, if_true]
      have hnot : o.lock.holder ≠ some me := by
        intro hsome
        cases h.stance with
        | free hnone _ _ => rw [hnone] at hsome; cases hsome
        | owned _ _ hidle => rw [hsending] at hidle; cases hidle
        | working hholder hheld _ =>
            rw [hholder, Option.some.injEq] at hsome
            rw [hsome, hme] at hheld
            cases hheld
      have hsame : o.release me = o := by rw [release, Lock.release_of_not_holder hnot]
      rw [heq, hsame]
      refine ⟨?_, ?_, fun _ hidle => ?_, h.orderly⟩
      · cases h.stance with
        | free _ hidle _ => rw [hsending] at hidle; cases hidle
        | owned _ _ hidle => rw [hsending] at hidle; cases hidle
        | working hholder hheld hsome => exact .working hholder hheld hsome
      · rw [h.present, hsending, Option.isSome_some, Bool.or_true, Bool.or_true]
      · rw [hsending] at hidle
        cases hidle

/-- How the sink replies does not matter, nor in which order threads queue up. -/
theorem IsCoherent.congr (h : o.IsCoherent closed held) (sink : Sink) {lock : Lock}
    (hholder : lock.holder = o.lock.holder) (horderly : lock.IsOrderly fun you => ∃ n, held you = some (.beginWrite n)) :
    ({ o with sink := sink, lock := lock } : Outbound).IsCoherent closed held := by
  refine ⟨?_, h.present, h.discarded, horderly⟩
  cases h.stance with
  | free hnone hidle hbuffer => exact .free (hholder.trans hnone) hidle hbuffer
  | owned hsome hheld hidle => exact .owned (hholder.trans hsome) hheld hidle
  | working hsome hheld hsending => exact .working (hholder.trans hsome) hheld hsending

end

end Outbound

end FrameLink
