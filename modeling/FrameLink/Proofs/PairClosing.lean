import FrameLink.Proofs.Draining
import FrameLink.Proofs.PairDelivery

/-! Threads on both sides of a pair of which one side is closed. Closing shuts both pipes, and what is in them stays: so
everything that the closed side has sent is still read on the other side, and then the stream has ended. A transaction
that was open on the closed side sends nothing, and what the other side sends fails. -/

namespace FrameLink

theorem Stack.base_call (s : Stack) (me : Thread) (c : Call) : (s.call me c).2.base = (s.base.call me c).2 := by
  induction s with
  | link l => rfl
  | layer y inner ih =>
      simp only [call]
      split <;> exact ih

/-- A link that has been closed does not run its hook again. -/
theorem Link.hook_call_of_closed {l : Link} (hclosed : l.closed = true) (me : Thread) (c : Call) :
    (l.call me c).2.hook = l.hook := by
  by_cases hc : c = .close
  · subst hc
    simp only [call, Link.close, hclosed, if_true]
  · exact (call_frame l me hc).2.2.2

namespace Pipe

theorem sink_of_closed {q : Pipe} (h : q.closed = true) : q.sink = { broken := some closedError } := by
  rw [sink, if_pos h]

theorem written_sink (q : Pipe) : q.sink.written = [] :=
  rfl

theorem afterReading_source (q : Pipe) : q.afterReading q.source = q := by
  rw [afterReading, data_source]

end Pipe

namespace Pair

section

variable {p : Pair} {side : Side} {me : Thread} {c : Call}

/-- What a side that has run its hook leaves behind. -/
structure Shut (p : Pair) (side : Side) (l : Link) (q : Pair) : Prop where
  base : (q.stack side).base = l
  other : (q.stack side.other).base =
    { (p.stack side.other).base with settings := (p.stack side.other).base.settings.withPolicy l.settings.policy }
  incoming : q.incoming side = ((p.incoming side).afterReading l.inbound.source).close
  outgoing : q.incoming side.other = ((p.incoming side.other).afterWriting l.outbound.sink).close

theorem shut_unplug (p : Pair) (side : Side) {s : Stack} (hhook : 0 < s.base.hook.calls) :
    Shut p side s.base (p.unplug side s) := by
  cases side <;> constructor <;> simp only [unplug, if_pos hhook] <;> first | rfl | exact Stack.base_modifyBase _ _

theorem shut_call (hhook : 0 < ((p.plugged side).call me c).2.hook.calls) :
    Shut p side ((p.plugged side).call me c).2 (p.call side me c).2 := by
  have hbase : (((p.stack side).modifyBase (plug (p.incoming side) (p.incoming side.other))).call me c).2.base =
      ((p.plugged side).call me c).2 := by
    rw [Stack.base_call, Stack.base_modifyBase]
    rfl
  rw [← hbase] at hhook ⊢
  exact shut_unplug p side hhook

/-- A side that has run its hook goes on with what it left in its pipes. -/
theorem Shut.plugged_self {l : Link} {q : Pair} (h : Shut p side l q) :
    q.plugged side = plug ((p.incoming side).afterReading l.inbound.source).close
      ((p.incoming side.other).afterWriting l.outbound.sink).close l := by
  rw [plugged, h.base, h.incoming, h.outgoing]

theorem Shut.plugged_other {l : Link} {q : Pair} (h : Shut p side l q) :
    q.plugged side.other = plug ((p.incoming side.other).afterWriting l.outbound.sink).close
      ((p.incoming side).afterReading l.inbound.source).close
      { p.plugged side.other with
        settings := (p.plugged side.other).settings.withPolicy l.settings.policy } := by
  rw [plugged, other_other, h.other, h.incoming, h.outgoing]
  rfl

theorem Shut.closed {l : Link} {q : Pair} (h : Shut p side l q) (you : Side) : (q.incoming you).closed = true := by
  rcases eq_or_eq_other side you with rfl | rfl
  · rw [h.incoming]
    rfl
  · rw [h.outgoing]
    rfl

end

/-- A side that is open, and what will come in there if nothing more is sent: the parcels that carry the messages which
have been sent on the other side. -/
structure Survives (level : Nat) (ps : List Parcel) (sent : List Message) (p : Play Pair (Side × Call) Reply)
    (side : Side) : Prop where
  isOpen : (p.world.plugged side).closed = false
  limit : (p.world.plugged side).settings.limit = none
  level : (p.world.plugged side).settings.level = level
  hook : (p.world.plugged side).hook.calls = 0
  drains : { (p.world.plugged side).inbound with source := (p.world.incoming side).close.source }.Drains none ps
    (heldOn side p.held) (Readings.ofHistory (historyOn side p.history))
  follows : (p.world.plugged side).outbound.Follows (Writings.ofHistory (historyOn side p.history))
  carried : List.Forall₂ Parcel.Carries ps sent

/-- A side that has been closed, having sent these messages. -/
structure Gone (sent : List Message) (p : Play Pair (Side × Call) Reply) (side : Side) : Prop where
  isClosed : (p.world.plugged side).closed = true
  hook : 0 < (p.world.plugged side).hook.calls
  idle : (p.world.plugged side).outbound.sending = none
  sent : (Writings.ofHistory (historyOn side p.history)).sent = sent

/-- A pair of which one side has been closed, and with it both pipes. -/
structure Parted (level : Nat) (ps : List Parcel) (sent : List Message) (side : Side) (p : Play Pair (Side × Call) Reply) :
    Prop where
  pipes : ∀ you, (p.world.incoming you).closed = true
  survives : Survives level ps sent p side
  gone : Gone sent p side.other

section

variable {level : Nat} {ps : List Parcel} {sent : List Message} {p : Play Pair (Side × Call) Reply} {me : Thread}
  {side : Side} {c : Call}

theorem world_attempt (p : Play Pair (Side × Call) Reply) (me : Thread) (side : Side) (c : Call) :
    (p.attempt arena me (side, c)).world = (p.world.call side me c).2 :=
  Play.attempt_world me (side, c)

theorem shut_attempt (hhook : 0 < ((p.world.plugged side).call me c).2.hook.calls) :
    Shut p.world side ((p.world.plugged side).call me c).2 (p.attempt arena me (side, c)).world := by
  rw [world_attempt]
  exact shut_call hhook

theorem Stands.survives {ps : Side → List Parcel} (h : Stands level ps p side) :
    Survives level (ps side) (Writings.ofHistory (historyOn side.other p.history)).sent p side :=
  ⟨h.isOpen, h.limit, h.level, h.hook, h.aligned.drains (Pipe.smooth_source _) rfl rfl, h.follows, h.carried⟩

/-- Once the pipes are shut, the source of the side is as if nothing more were sent. -/
theorem Parted.drains (h : Parted level ps sent side p) :
    (p.world.plugged side).inbound.Drains none ps (heldOn side p.held)
      (Readings.ofHistory (historyOn side p.history)) := by
  have hclose : (p.world.incoming side).close = p.world.incoming side := by
    rw [Pipe.close, ← h.pipes side]
  have hdrains := h.survives.drains
  rw [hclose] at hdrains
  exact hdrains

theorem Parted.sink (h : Parted level ps sent side p) (you : Side) :
    (p.world.plugged you).outbound.sink = { broken := some Pipe.closedError } :=
  Pipe.sink_of_closed (h.pipes you.other)

/-- What the other side does does not matter, if it sends nothing and has run its hook. -/
theorem Survives.call_other (h : Survives level ps sent p side.other) (hme : p.Allows me (side, c))
    (hhook : 0 < ((p.world.plugged side).call me c).2.hook.calls)
    (hwritten : ((p.world.plugged side).call me c).2.outbound.sink.written = []) :
    Survives level ps sent (p.attempt arena me (side, c)) side.other := by
  have hshut := shut_attempt hhook
  have hplugged := hshut.plugged_other
  have hhistory : historyOn side.other (p.attempt arena me (side, c)).history = historyOn side.other p.history :=
    historyOn_after_other (other_ne side)
  refine ⟨?_, ?_, ?_, ?_, ?_, ?_, h.carried⟩
  · exact (congrArg Link.closed hplugged).trans h.isOpen
  · exact (congrArg (·.settings.limit) hplugged).trans h.limit
  · exact (congrArg (·.settings.level) hplugged).trans h.level
  · exact (congrArg (·.hook.calls) hplugged).trans h.hook
  · rw [hhistory, hplugged, hshut.outgoing]
    refine (h.drains.of_source (Pipe.smooth_source _) rfl ?_).congr rfl rfl rfl fun owner hholder hinput => ?_
    · show (_ ++ ((p.world.plugged side).call me c).2.outbound.sink.written) ++ [] = _
      rw [hwritten, List.append_nil]
      rfl
    · -- A thread that waits for a header on this side has not made a call on the other one.
      have hnot : owner ≠ me := by
        rintro rfl
        have hheld := heldOn_eq_some_iff.1 (h.drains.held_of_opening hholder hinput)
        exact other_ne side (Prod.mk.inj (hme _ hheld)).1
      rw [heldOn, heldOn, Play.attempt, Play.after_held_of_ne hnot]
  · rw [hhistory, hplugged]
    exact h.follows.congr rfl rfl rfl rfl rfl

/-- A call on the open side that does not close it keeps that, whatever it takes out of its pipe. -/
theorem Parted.call_open (h : Parted level ps sent side p) (hc : c ≠ .close) (hme : p.Allows me (side, c)) :
    Parted level ps sent side (p.attempt arena me (side, c)) := by
  have hs := h.survives
  obtain ⟨hclosed, hlimit, hlevel, hhook⟩ := Link.call_frame (p.world.plugged side) me hc
  have hworld := world_attempt p me side c
  have hplugged := plugged_call_self me hc hs.hook
  have hother := plugged_call_other me hc hs.hook
  have hunplugged := unplugged_call me hc hs.hook
  rw [← hworld] at hplugged hother hunplugged
  have hsends := Link.call_sends_broken me hs.isOpen hc hs.follows (h.sink side) rfl
  have hholds : Inbound.Holds (heldOn side p.held) (heldOn side (p.attempt arena me (side, c)).held) me c
    (p.world.call side me c).1 := holds_after
  rw [call_fst hc] at hholds
  have hdrains := h.drains
  rw [← hs.limit] at hdrains
  have hread := Link.call_drains hs.isOpen hc hdrains
    (fun c' hheld => (Prod.mk.inj (hme _ (heldOn_eq_some_iff.1 hheld))).2) hholds
  rw [hs.limit, ← call_fst hc] at hread
  refine ⟨fun you => ?_, ⟨?_, ?_, ?_, ?_, ?_, ?_, hs.carried⟩, ⟨?_, ?_, ?_, ?_⟩⟩
  · rcases eq_or_eq_other side you with rfl | rfl
    · exact (congrArg Pipe.closed hunplugged.incoming).trans (h.pipes _)
    · exact (congrArg Pipe.closed hunplugged.outgoing).trans (h.pipes _)
  · exact (congrArg Link.closed hplugged).trans (hclosed.trans hs.isOpen)
  · exact (congrArg (·.settings.limit) hplugged).trans (hlimit.trans hs.limit)
  · exact (congrArg (·.settings.level) hplugged).trans (hlevel.trans hs.level)
  · exact (congrArg (·.hook.calls) hplugged).trans ((congrArg Hook.calls hhook).trans hs.hook)
  · rw [hplugged, hunplugged.incoming, Stack.base_modifyBase, Play.attempt, readings_after]
    refine hread.of_source (Pipe.smooth_source _) ?_ ?_
    · rfl
    · exact Pipe.data_source _
  · rw [hplugged, Play.attempt, writings_after, show arena.call me (side, c) p.world = p.world.call side me c from rfl,
      call_fst hc]
    exact hsends.follows.congr rfl rfl rfl rfl rfl
  · exact (congrArg Link.closed hother).trans h.gone.isClosed
  · rw [hother]
    exact h.gone.hook
  · exact (congrArg (·.outbound.sending) hother).trans h.gone.idle
  · rw [Play.attempt, historyOn_after_other (other_ne side)]
    exact h.gone.sent

/-- So does any call on the side that has been closed: it puts nothing into a pipe. -/
theorem Parted.call_closed (h : Parted level ps sent side p) (hme : p.Allows me (side.other, c)) :
    Parted level ps sent side (p.attempt arena me (side.other, c)) := by
  have hhook := Link.hook_call_of_closed h.gone.isClosed me c
  obtain ⟨hidle, hsink, hwrites⟩ := Link.call_outbound_of_closed me c h.gone.isClosed h.gone.idle
  have hrun : 0 < ((p.world.plugged side.other).call me c).2.hook.calls := by
    rw [hhook]
    exact h.gone.hook
  have hshut := shut_attempt hrun
  have hplugged := hshut.plugged_self
  refine ⟨hshut.closed, ?_, ⟨?_, ?_, ?_, ?_⟩⟩
  · have hsurvives := h.survives
    rw [← other_other side] at hsurvives
    have hafter := hsurvives.call_other hme hrun (by rw [hsink, h.sink])
    rwa [other_other] at hafter
  · exact (congrArg Link.closed hplugged).trans (Link.closed_call h.gone.isClosed me c)
  · rw [hplugged]
    exact hrun
  · exact (congrArg (·.outbound.sending) hplugged).trans hidle
  · rw [Play.attempt, writings_after, ← h.gone.sent]
    cases hc : c.writes with
    | false => rw [Writings.noteAttempt_of_not_writes hc]
    | true =>
        have hclose : c ≠ .close := by
          rintro rfl
          cases hc
        rw [show arena.call me (side.other, c) p.world = p.world.call side.other me c from rfl, call_fst hclose]
        exact Writings.sent_noteAttempt (hwrites hc)

theorem Parted.favour (h : Parted level ps sent side p) (me : Thread) :
    Parted level ps sent side { p with world := arena.favour me p.world } := by
  have hincoming := incoming_favour me p.world
  have hplugged := plugged_favour me p.world
  refine ⟨fun you => ?_, ⟨?_, ?_, ?_, ?_, ?_, ?_, h.survives.carried⟩, ⟨?_, ?_, ?_, h.gone.sent⟩⟩
  · rw [hincoming]
    exact h.pipes you
  · rw [hplugged]
    exact h.survives.isOpen
  · rw [hplugged]
    exact h.survives.limit
  · rw [hplugged]
    exact h.survives.level
  · rw [hplugged]
    exact h.survives.hook
  · rw [hplugged, hincoming]
    exact h.survives.drains.congr rfl rfl (Lock.favour_holder _ _) fun _ _ _ => rfl
  · rw [hplugged]
    exact h.survives.follows.congr rfl rfl (Lock.favour_holder _ _) rfl rfl
  · rw [hplugged]
    exact h.gone.isClosed
  · rw [hplugged]
    exact h.gone.hook
  · rw [hplugged]
    exact h.gone.idle

/-- As long as nobody closes a side, the hooks wait for somebody to do so. -/
theorem run_hook (settings : Settings) {turns : List (Turn (Side × Call))}
    (hturns : ∀ me side, .call me (side, .close) ∉ turns) (side : Side) :
    ((Play.run arena (Pair.new settings) turns).world.plugged side).hook = { attached := true } := by
  suffices h : ∀ side, ((Play.run arena (Pair.new settings) turns).world.plugged side).hook = { attached := true } from
    h side
  refine Play.run_induction (C := fun c : Side × Call => c.2 ≠ .close)
    (I := fun p : Play Pair (Side × Call) Reply => ∀ side, (p.world.plugged side).hook = { attached := true })
    (fun side => by cases side <;> rfl) ?_ (fun p me hp side => ?_) ?_
  · rintro p me ⟨side, c⟩ hp hc - you
    have hhook : (p.world.plugged side).hook.calls = 0 := by rw [hp]
    rw [Play.after_world]
    rcases eq_or_eq_other side you with rfl | rfl
    · exact (congrArg Link.hook (plugged_call_self me hc hhook)).trans
        ((Link.call_frame (p.world.plugged you) me hc).2.2.2.trans (hp you))
    · exact (congrArg Link.hook (plugged_call_other me hc hhook)).trans (hp side.other)
  · rw [plugged_favour]
    exact hp side
  · rintro me ⟨side, c⟩ hturn rfl
    exact hturns me side hturn

/-- When one side is closed, the other one keeps what is on its way. -/
theorem Stands.close {ps : Side → List Parcel} (h : ∀ you, Stands level ps p you) (hme : p.held me = none)
    (hhook : (p.world.plugged side.other).hook = { attached := true }) :
    Parted level (ps side) (Writings.ofHistory (historyOn side.other p.history)).sent side
      (p.attempt arena me (side.other, .close)) := by
  have hopen := (h side.other).isOpen
  have hidle := (h side.other).follows.idle
  have hrun : 0 < ((p.world.plugged side.other).call me .close).2.hook.calls := by
    rw [show ((p.world.plugged side.other).call me .close).2 = ((p.world.plugged side.other).close me).2 from rfl,
      Link.close, hopen, hhook]
    exact Nat.one_pos
  have houtbound : ((p.world.plugged side.other).call me .close).2.outbound =
      { (p.world.plugged side.other).outbound with present := false, buffer := [], frame := [] }.release me := by
    simp only [Link.call, Link.close, hopen, Bool.false_eq_true, if_false, Outbound.close, hidle, Option.isSome_none]
  have hshut := shut_attempt hrun
  have hplugged := hshut.plugged_self
  refine ⟨hshut.closed, ?_, ⟨?_, ?_, ?_, ?_⟩⟩
  · have hsurvives := (h side).survives
    rw [← other_other side] at hsurvives
    have hafter := hsurvives.call_other (.of_none hme _) hrun (by rw [houtbound]; exact Pipe.written_sink _)
    rwa [other_other] at hafter
  · exact (congrArg Link.closed hplugged).trans (Link.closed_close me _)
  · rw [hplugged]
    exact hrun
  · exact (congrArg (·.outbound.sending) hplugged).trans ((congrArg Outbound.sending houtbound).trans hidle)
  · rw [Play.attempt, writings_after, Writings.noteAttempt_of_not_writes rfl]

/-- From then on, whatever is done on both sides, as long as the other one is not closed. -/
theorem run_parted {settings : Settings} (hlimit : settings.limit = none) {before after : List (Turn (Side × Call))}
    {closer : Thread} (hbefore : ∀ me you, .call me (you, .close) ∉ before)
    (hcloser : (Play.run arena (Pair.new settings) before).held closer = none)
    (hafter : ∀ me, .call me (side, .close) ∉ after) :
    ∃ ps, Parted settings.level ps
      (Writings.ofHistory (historyOn side.other (Play.run arena (Pair.new settings) before).history)).sent side
      (Play.run arena (Pair.new settings) (before ++ .call closer (side.other, .close) :: after)) := by
  obtain ⟨ps, hps⟩ := run_delivers hlimit hbefore
  refine ⟨ps side, ?_⟩
  have hstart : Parted settings.level (ps side) _ side (Play.attempt arena _ closer (side.other, .close)) :=
    Stands.close hps hcloser (run_hook settings hbefore side.other)
  have hheld : ∀ me c, (Play.run arena (Pair.new settings) before).held me = some c → c.1 = side → c.2 ≠ .close := by
    refine Play.held_run (C := fun c : Side × Call => c.1 = side → c.2 ≠ .close) ?_
    rintro me ⟨you, c⟩ hturn - rfl
    exact hbefore me you hturn
  rw [Play.run_append]
  have hstep : Play.step arena (Play.run arena (Pair.new settings) before) (.call closer (side.other, .close)) =
      (Play.run arena (Pair.new settings) before).attempt arena closer (side.other, .close) := by
    rw [Play.step, hcloser]
    rfl
  rw [List.foldl_cons, hstep]
  refine Play.steps_induction (C := fun c : Side × Call => c.1 = side → c.2 ≠ .close) hstart ?_ ?_ ?_ ?_
  · intro me c hc
    exact Play.held_after hheld (fun heq => absurd heq (other_ne side)) hc
  · rintro p me ⟨you, c⟩ hp hc hme
    rcases eq_or_eq_other side you with rfl | rfl
    · exact hp.call_open (hc rfl) hme
    · exact hp.call_closed hme
  · exact fun p me hp => hp.favour me
  · rintro me ⟨you, c⟩ hturn rfl rfl
    exact hafter me hturn

/-- What the owner of a transaction is answered on a side that is open and aligned to what has been sent. -/
theorem current_answers {p : Pair} {live : Bool} {held : Thread → Option Call} {seen : Readings} {d : Delivery}
    (hopen : (p.plugged side).closed = false) (h : (p.plugged side).inbound.IsAligned none live ps held seen)
    (hcarried : List.Forall₂ Parcel.Carries ps sent) (hcurrent : seen.current = some (me, d)) :
    ∃ m, sent[seen.finished.length]? = some m ∧
      (p.call side me .remaining).1 = .ok (.count (m.payload.length - d.bytes.length)) ∧
      (∀ n, (n ≤ m.payload.length - d.bytes.length ∧
          ∃ bs, (p.call side me (.read n)).1 = .ok (.bytes bs) ∧ (0 < n → bs ≠ [])) ∨
        (m.payload.length - d.bytes.length < n ∧
          (p.call side me (.read n)).1 = .error (.overread n (m.payload.length - d.bytes.length)))) ∧
      (p.call side me .endRead).1 = .ok .done := by
  obtain ⟨q, hq, -, hremaining⟩ := h.remaining_answer hcurrent
  obtain ⟨m, hm, hcarries⟩ := getElem?_of_forall₂ hcarried hq
  have hlength := Inbound.length_of_payload? hcarries.sound hcarries.payload
  refine ⟨m, hm, ?_, fun n => ?_, ?_⟩
  · rw [call_fst (c := .remaining) (by simp), Link.call_remaining_fst hopen, hremaining, hlength]
    rfl
  · rw [call_fst (c := .read n) (by simp), Link.call_read_fst hopen]
    rcases h.read_answer hcurrent hq hcarries.payload n with ⟨hn, bs, hbs, hne⟩ | ⟨hn, hrefused⟩
    · exact .inl ⟨hn, bs, by rw [hbs]; rfl, hne⟩
    · exact .inr ⟨hn, by rw [hrefused]; rfl⟩
  · rw [call_fst (c := .endRead) (by simp), Link.call_endRead_fst hopen,
      h.finish_answer hcurrent hq hcarries.payload]
    rfl

/-- What a thread is answered that begins to read outside of a transaction. -/
theorem Parted.beginRead_answer (h : Parted level ps sent side p)
    (hcurrent : (Readings.ofHistory (historyOn side p.history)).current = none)
    (hturn : (p.world.plugged side).inbound.HasTurn me) :
    (p.world.call side me .beginRead).1 =
        (match sent[(Readings.ofHistory (historyOn side p.history)).begun.length]? with
          | some m => .ok (.sequence m.sequence)
          | none => .error Header.shortError) ∧
      ∀ e, (p.world.call side me .beginRead).1 = .error e →
        ((p.world.call side me .beginRead).2.plugged side).inbound.lock.holder = none := by
  obtain ⟨hanswer, hfrees⟩ := h.drains.begin_answer hcurrent hturn
  have hcall : (p.world.call side me .beginRead).1 =
      ((p.world.plugged side).inbound.begin false none me).1.map Reply.sequence := by
    rw [call_fst (c := .beginRead) (by simp), Link.call_beginRead_fst h.survives.isOpen, h.survives.limit]
  refine ⟨?_, fun e he => ?_⟩
  · rw [hcall, hanswer]
    exact nextAnswer_of_carried h.survives.carried false _
  · rw [plugged_call_self (c := .beginRead) me (by simp) h.survives.hook]
    simp only [Link.call, Link.withInbound, h.survives.isOpen, h.survives.limit]
    rw [hcall] at he
    cases hbegin : ((p.world.plugged side).inbound.begin false none me).1 with
    | error e' => exact hfrees e' hbegin
    | _ => rw [hbegin] at he; cases he

/-- What is sent on the side that is open fails, and the reading side is as before. -/
theorem Parted.endWrite_answer (h : Parted level ps sent side p) {m : Message}
    (hcurrent : (Writings.ofHistory (historyOn side p.history)).current = some (me, m)) (hpayload : m.payload ≠ []) :
    (∃ e, (p.world.call side me .endWrite).1 = .error e ∧
      ((m.job (p.world.stack side).base.threshold level).Fits → e = .stream Pipe.closedError)) ∧
      ((p.world.call side me .endWrite).2.plugged side).inbound = (p.world.plugged side).inbound := by
  constructor
  · obtain ⟨e, o, hfinish, -, -, he⟩ := h.survives.follows.finish_of_broken (h.sink side) rfl hcurrent hpayload
      (p.world.stack side).base.threshold level
    refine ⟨e, ?_, he⟩
    rw [call_fst (c := .endWrite) (by simp)]
    simp only [Link.call, Link.withOutbound]
    rw [h.survives.isOpen, h.survives.level]
    exact congrArg (fun r => r.1.map fun _ => Reply.done) hfinish
  · have hinbound : ((p.world.plugged side).call me .endWrite).2.inbound = (p.world.plugged side).inbound := rfl
    have hpipe : (p.world.incoming side).afterReading (p.world.plugged side).inbound.source = p.world.incoming side :=
      Pipe.afterReading_source _
    rw [plugged_call_self (c := .endWrite) me (by simp) h.survives.hook, plug, hinbound, hpipe]
    rfl

end

/-- Closing a side loses nothing that has been sent. Let threads bring a new pair into any state without closing a side;
let one of them close a side then, and let them go on in any way without closing the other side. The packets begun to be
read there are the first of those sent before the other side was closed, each with its sequence number, and what has been
read of each is a prefix of its payload; nothing else is sent on the closed side. In an open transaction, what remains is
the rest of the payload, a read answers bytes or is refused for asking too much, and the transaction can be ended.
Outside of one, a thread that begins to read gets on if it is held up in this already, or if nobody is and it has come
to the front; then it gets the next packet, or is told the end of the stream if there is none, and gives the lock up.
The side stays open; but ending a transaction with a payload fails there, which does not disturb the reading. -/
theorem sent_outlives_close (settings : Settings) (before after : List (Turn (Side × Call))) (closer : Thread)
    (side : Side) (hlimit : settings.limit = none) (hbefore : ∀ me you, .call me (you, .close) ∉ before)
    (hcloser : (Play.run arena (Pair.new settings) before).held closer = none)
    (hafter : ∀ me, .call me (side, .close) ∉ after) :
    let start := Play.run arena (Pair.new settings) before
    let play := Play.run arena (Pair.new settings) (before ++ .call closer (side.other, .close) :: after)
    let sent := (Writings.ofHistory (historyOn side.other start.history)).sent
    let seen := Readings.ofHistory (historyOn side play.history)
    let next : Attempt LinkError Reply := match sent[seen.begun.length]? with
      | some m => .ok (.sequence m.sequence)
      | none => .error Header.shortError
    (Writings.ofHistory (historyOn side.other play.history)).sent = sent ∧
    (∀ (k : Nat) (d : Delivery), seen.begun[k]? = some d →
      ∃ m : Message, sent[k]? = some m ∧ d.sequence = m.sequence ∧ d.bytes <+: m.payload) ∧
    (∀ me d, seen.current = some (me, d) → ∃ m, sent[seen.finished.length]? = some m ∧
      (play.world.call side me .remaining).1 = .ok (.count (m.payload.length - d.bytes.length)) ∧
      (∀ n, (n ≤ m.payload.length - d.bytes.length ∧
          ∃ bs, (play.world.call side me (.read n)).1 = .ok (.bytes bs) ∧ (0 < n → bs ≠ [])) ∨
        (m.payload.length - d.bytes.length < n ∧
          (play.world.call side me (.read n)).1 = .error (.overread n (m.payload.length - d.bytes.length)))) ∧
      (play.world.call side me .endRead).1 = .ok .done) ∧
    (seen.current = none →
      (∀ owner, (play.world.plugged side).inbound.lock.holder = some owner →
        play.held owner = some (side, .beginRead)) ∧
      ∀ me, ((play.world.plugged side).inbound.HasTurn me → (play.world.call side me .beginRead).1 = next ∧
          ∀ e, (play.world.call side me .beginRead).1 = .error e →
            ((play.world.call side me .beginRead).2.plugged side).inbound.lock.holder = none) ∧
        (¬ (play.world.plugged side).inbound.HasTurn me → (play.world.call side me .beginRead).1 = .waiting)) ∧
    (∀ me, (play.world.call side me .isClosed).1 = .ok (.flag false)) ∧
    ∀ me m, (Writings.ofHistory (historyOn side play.history)).current = some (me, m) → m.payload ≠ [] →
      (∃ e, (play.world.call side me .endWrite).1 = .error e ∧
        ((m.job (play.world.stack side).base.threshold settings.level).Fits → e = .stream Pipe.closedError)) ∧
      ((play.world.call side me .endWrite).2.plugged side).inbound = (play.world.plugged side).inbound := by
  intro start play sent seen next
  obtain ⟨ps, hparted⟩ := run_parted hlimit hbefore hcloser hafter
  have hs := hparted.survives
  refine ⟨hparted.gone.sent, fun k d => begun_of_carried hparted.drains.told hs.carried, fun me d hcurrent => ?_,
    fun hcurrent => ⟨fun owner hholder => ?_, fun me => ⟨hparted.beginRead_answer hcurrent, fun hturn => ?_⟩⟩,
    fun me => ?_, fun me m => hparted.endWrite_answer⟩
  · exact current_answers hs.isOpen (hparted.drains.aligned_of_current hcurrent) hs.carried hcurrent
  · rcases hparted.drains.holder_of_current hcurrent with hnone | ⟨you, hyou, hheld⟩
    · cases hnone.symm.trans hholder
    · obtain rfl := Option.some.inj (hyou.symm.trans hholder)
      exact heldOn_eq_some_iff.1 hheld
  · rw [call_fst (c := .beginRead) (by simp), Link.call_beginRead_fst hs.isOpen, hs.limit,
      Inbound.begin_of_not_hasTurn hturn]
    rfl
  · rw [call_fst (c := .isClosed) (by simp)]
    exact congrArg (fun closed => Attempt.ok (Reply.flag closed)) hs.isOpen

/-- A packet is sent to a thread that waits for one, and another one has been begun when the side is closed. The reader
goes on and gets the first packet; whoever reads next is told the end of the stream. -/
theorem sent_outlives_close_behind_waiting_reader :
    let settings : Settings := { level := 0, policy := .threshold 4 }
    let before : List (Turn (Side × Call)) :=
      [.call 1 (.right, .beginRead), .call 2 (.right, .beginRead), .call 3 (.right, .beginWrite 5),
        .call 3 (.right, .write [6]), .call 0 (.left, .enableCompression), .call 0 (.left, .beginWrite 7),
        .call 0 (.left, .write [1, 1, 2, 3]), .call 0 (.left, .endWrite), .call 0 (.left, .beginWrite 8),
        .call 0 (.left, .write [9])]
    let after : List (Turn (Side × Call)) :=
      [.call 1 (.right, .beginRead), .call 1 (.right, .read 4), .call 1 (.right, .endRead)]
    let play := Play.run arena (Pair.new settings) (before ++ .call 4 (.left, .close) :: after)
    (Writings.ofHistory (historyOn .left play.history)).sent = [⟨7, [1, 1, 2, 3]⟩] ∧
      (Readings.ofHistory (historyOn .right play.history)).begun = [⟨7, [1, 1, 2, 3]⟩] ∧
      (play.world.call .right 2 .beginRead).1 = .error Header.shortError ∧
      ((play.world.call .right 2 .beginRead).2.plugged .right).inbound.lock.holder = none ∧
      (play.world.call .right 3 .endWrite).1 = .error (.stream Pipe.closedError) := by
  intro settings before after play
  have hstart : (Writings.ofHistory (historyOn Side.right.other
      (Play.run arena (Pair.new settings) before).history)).sent = [⟨7, [1, 1, 2, 3]⟩] := by decide +kernel
  have hplay : Play.run arena (Pair.new settings) (before ++ .call 4 (Side.right.other, .close) :: after) = play := rfl
  have hbegun : (Readings.ofHistory (historyOn .right play.history)).begun = [⟨7, [1, 1, 2, 3]⟩] := by decide +kernel
  have hcurrent : (Readings.ofHistory (historyOn .right play.history)).current = none := by decide +kernel
  have hfree : (play.world.plugged .right).inbound.lock.isFreeFor 2 = true := by decide +kernel
  have hwriting : (Writings.ofHistory (historyOn .right play.history)).current = some (3, ⟨5, [6]⟩) := by decide +kernel
  have hfits : ((⟨5, [6]⟩ : Message).job (play.world.stack .right).base.threshold settings.level).Fits := by
    decide +kernel
  have h := sent_outlives_close settings before after 4 .right rfl (by simp [before]) (by decide +kernel)
    (by simp [after])
  simp only [hstart, hplay, hbegun] at h
  clear_value play
  obtain ⟨hsent, -, -, hidle, -, hwrites⟩ := h
  obtain ⟨hnext, hfrees⟩ := ((hidle hcurrent).2 2).1 (.inr hfree)
  obtain ⟨⟨e, he, hcause⟩, -⟩ := hwrites 3 _ hwriting (by simp)
  exact ⟨hsent, hbegun, hnext, hfrees _ hnext, hcause hfits ▸ he⟩

end Pair

end FrameLink
