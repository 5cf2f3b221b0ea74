import FrameLink.Proofs.Joining
import FrameLink.Proofs.PacketBoundaries
import FrameLink.Proofs.Sending

/-! Threads on both sides of a pair. As long as nobody closes a side, what is sent on one side is begun to be read on
the other in the same order, each packet with its sequence number and its payload, whatever the threads do and
however their calls interleave. -/

namespace FrameLink

namespace Pair

/-- A pair with threads that make calls on both sides. -/
def arena : Arena Pair (Side × Call) Reply where
  call me c p := p.call c.1 me c.2
  favour me p :=
    { p with left := p.left.modifyBase fun l => l.favour me, right := p.right.modifyBase fun l => l.favour me }

/-- What has been answered on a side. -/
def historyOn (side : Side) (h : List (Event (Side × Call) Reply)) : List (Event Call Reply) :=
  h.filterMap fun e => if e.call.1 = side then some ⟨e.thread, e.call.2, e.answer⟩ else none

/-- The calls that hold threads up on a side. -/
def heldOn (side : Side) (held : Thread → Option (Side × Call)) : Thread → Option Call :=
  fun me => (held me).bind fun c => if c.1 = side then some c.2 else none

section

variable {side you : Side} {me : Thread} {c : Call} {r : Attempt LinkError Reply}

theorem heldOn_eq_some_iff {held : Thread → Option (Side × Call)} :
    heldOn side held me = some c ↔ held me = some (side, c) := by
  simp only [heldOn, Option.bind_eq_some_iff, Option.ite_none_right_eq_some, Option.some.injEq, Prod.exists]
  constructor
  · rintro ⟨s, c', hheld, rfl, rfl⟩
    exact hheld
  · intro hheld
    exact ⟨side, c, hheld, rfl, rfl⟩

variable {p : Play Pair (Side × Call) Reply} {w : Pair}

theorem historyOn_after_self :
    historyOn side (p.after me (side, c) r w).history = historyOn side p.history ++ Play.told me c r := by
  rw [Play.after_history, historyOn, List.filterMap_append, Play.told, Play.told]
  cases r.result? with
  | none => rfl
  | some answer => exact congrArg (historyOn side p.history ++ ·) (List.filterMap_cons_some (if_pos rfl))

theorem historyOn_after_other (hne : you ≠ side) :
    historyOn you (p.after me (side, c) r w).history = historyOn you p.history := by
  rw [Play.after_history, historyOn, List.filterMap_append, Play.told]
  cases r.result? with
  | none => exact List.append_nil _
  | some answer =>
      refine Eq.trans (congrArg (historyOn you p.history ++ ·) ?_) (List.append_nil _)
      exact List.filterMap_cons_none (if_neg (Ne.symm hne))

theorem readings_after : Readings.ofHistory (historyOn side (p.after me (side, c) r w).history) =
    (Readings.ofHistory (historyOn side p.history)).noteAttempt me c r := by
  rw [historyOn_after_self, Readings.ofHistory_told]

theorem writings_after : Writings.ofHistory (historyOn side (p.after me (side, c) r w).history) =
    (Writings.ofHistory (historyOn side p.history)).noteAttempt me c r := by
  rw [historyOn_after_self, Writings.ofHistory_told]

theorem holds_after : Inbound.Holds (heldOn side p.held) (heldOn side (p.after me (side, c) r w).held) me c r where
  self hr := by
    rw [heldOn_eq_some_iff, Play.after_held_self, hr]
  others them hthem := by
    rw [heldOn, heldOn, Play.after_held_of_ne hthem]

end

/-- A side of a pair that nobody has closed, and what comes in there. -/
structure Stands (level : Nat) (ps : Side → List Parcel) (p : Play Pair (Side × Call) Reply) (side : Side) : Prop where
  isOpen : (p.world.plugged side).closed = false
  limit : (p.world.plugged side).settings.limit = none
  level : (p.world.plugged side).settings.level = level
  hook : (p.world.plugged side).hook.calls = 0
  pipe : (p.world.incoming side).closed = false
  aligned : (p.world.plugged side).inbound.IsAligned none true (ps side) (heldOn side p.held)
    (Readings.ofHistory (historyOn side p.history))
  follows : (p.world.plugged side).outbound.Follows (Writings.ofHistory (historyOn side p.history))
  carried : List.Forall₂ Parcel.Carries (ps side) (Writings.ofHistory (historyOn side.other p.history)).sent

section

variable {level : Nat} {ps : Side → List Parcel} {p : Play Pair (Side × Call) Reply} {me : Thread} {side : Side}

theorem other_ne (side : Side) : side.other ≠ side := by
  cases side <;> decide

theorem eq_or_eq_other (side you : Side) : you = side ∨ you = side.other := by
  cases side <;> cases you <;> decide

theorem Stands.sink (h : Stands level ps p side.other) : (p.world.plugged side).outbound.sink = {} := by
  show (p.world.incoming side.other).sink = {}
  simp only [Pipe.sink, h.pipe, Bool.false_eq_true, if_false]

theorem getElem?_of_forall₂ {α β : Type} {R : α → β → Prop} {as : List α} {bs : List β} (h : List.Forall₂ R as bs)
    {k : Nat} {a : α} (ha : as[k]? = some a) : ∃ b, bs[k]? = some b ∧ R a b := by
  induction h generalizing k with
  | nil => cases ha
  | cons hab _ ih =>
      cases k with
      | zero =>
          obtain rfl := Option.some.inj ha
          exact ⟨_, rfl, hab⟩
      | succ k => exact ih ha

/-- The side on which a call has been made. -/
theorem Stands.call_self (h : ∀ you, Stands level ps p you) {c : Call} (hc : c ≠ .close)
    (hme : ∀ c', p.held me = some c' → c' = (side, c)) {ps' : Side → List Parcel} (hps' : ps' side = ps side) :
    Stands level ps' (p.after me (side, c) (p.world.call side me c).1 (p.world.call side me c).2) side := by
  have hs := h side
  obtain ⟨hclosed, hlimit, hlevel, hhook⟩ := Link.call_frame (p.world.plugged side) me hc
  have hplugged := plugged_call_self me hc hs.hook
  have hunplugged := unplugged_call me hc hs.hook
  have hsends := Link.call_sends me hs.isOpen hc hs.follows (h side.other).sink
  have haligned := hs.aligned
  rw [← hs.limit] at haligned
  have hholds : Inbound.Holds (heldOn side p.held) (heldOn side (p.after me (side, c) (p.world.call side me c).1
    (p.world.call side me c).2).held) me c (p.world.call side me c).1 := holds_after
  rw [call_fst hc] at hholds
  have hread := Link.call_isAligned hs.isOpen hc haligned
    (fun c' hheld => (Prod.mk.inj (hme _ (heldOn_eq_some_iff.1 hheld))).2) hholds
  rw [hs.limit] at hread
  refine ⟨?_, ?_, ?_, ?_, ?_, ?_, ?_, ?_⟩
  · rw [Play.after_world, hplugged]
    exact hclosed.trans hs.isOpen
  · rw [Play.after_world, hplugged]
    exact hlimit.trans hs.limit
  · rw [Play.after_world, hplugged]
    exact hlevel.trans hs.level
  · rw [Play.after_world, hplugged]
    exact (congrArg Hook.calls hhook).trans hs.hook
  · rw [Play.after_world, hunplugged.incoming]
    exact hs.pipe
  · rw [Play.after_world, hplugged, readings_after, hps', call_fst hc]
    -- Nothing new comes in on the side that made the call.
    have hextend := hread.extend [] (Pipe.smooth_source ((p.world.incoming side).afterReading
      ((p.world.plugged side).call me c).2.inbound.source)) (by
        show (!(p.world.incoming side).closed) = true
        rw [hs.pipe]
        rfl) (fun q hq => nomatch hq) (by rw [Pipe.data_source]; exact (List.append_nil _).symm)
    rwa [List.append_nil] at hextend
  · rw [Play.after_world, hplugged, writings_after, call_fst hc]
    exact hsends.follows.congr rfl rfl rfl rfl rfl
  · rw [historyOn_after_other (other_ne side), hps']
    exact hs.carried

/-- The other side, where what has been sent comes in. -/
theorem Stands.call_other (h : ∀ you, Stands level ps p you) {c : Call} (hc : c ≠ .close)
    (hme : ∀ c', p.held me = some c' → c' = (side, c)) {more : List Parcel}
    (hwritten : ((p.world.plugged side).call me c).2.outbound.sink.written = Parcel.wires more) {ms : List Message}
    (hsent : ((Writings.ofHistory (historyOn side p.history)).noteAttempt me c
      ((p.world.plugged side).call me c).1).sent = (Writings.ofHistory (historyOn side p.history)).sent ++ ms)
    (hcarries : List.Forall₂ Parcel.Carries more ms) {ps' : Side → List Parcel}
    (hps' : ps' side.other = ps side.other ++ more) :
    Stands level ps' (p.after me (side, c) (p.world.call side me c).1 (p.world.call side me c).2) side.other := by
  have ho := h side.other
  have hhook := (h side).hook
  have hplugged := plugged_call_other me hc hhook
  have hunplugged := unplugged_call me hc hhook
  refine ⟨?_, ?_, ?_, ?_, ?_, ?_, ?_, ?_⟩
  · rw [Play.after_world, hplugged]
    exact ho.isOpen
  · rw [Play.after_world, hplugged]
    exact ho.limit
  · rw [Play.after_world, hplugged]
    exact ho.level
  · rw [Play.after_world, hplugged]
    exact ho.hook
  · rw [Play.after_world, hunplugged.outgoing]
    exact ho.pipe
  · rw [Play.after_world, hplugged, historyOn_after_other (other_ne side), hps']
    -- A thread that waits for a header on this side has not made a call on the other one.
    have hheld : ∀ owner, (p.world.plugged side.other).inbound.lock.holder = some owner →
        (p.world.plugged side.other).inbound.input = .opening [] →
        heldOn side.other (p.after me (side, c) (p.world.call side me c).1 (p.world.call side me c).2).held owner =
          heldOn side.other p.held owner := by
      intro owner howner hinput
      have hnot : owner ≠ me := by
        rintro rfl
        have hheld := heldOn_eq_some_iff.1 (ho.aligned.held_of_opening howner hinput)
        exact other_ne side (Prod.mk.inj (hme _ hheld)).1
      rw [heldOn, heldOn, Play.after_held_of_ne hnot]
    refine (ho.aligned.congr rfl rfl rfl hheld).extend more (Pipe.smooth_source _) ?_ (fun q hq => ?_) ?_
    · show (!(p.world.incoming side.other).closed) = true
      rw [ho.pipe]
      rfl
    · obtain ⟨k, hk⟩ := List.mem_iff_getElem?.1 hq
      obtain ⟨m, -, hcarried⟩ := getElem?_of_forall₂ hcarries hk
      exact hcarried.sound
    · rw [Pipe.data_source, ← hwritten]
      exact congrArg (· ++ _) (Pipe.data_source (p.world.incoming side.other)).symm
  · rw [Play.after_world, hplugged, historyOn_after_other (other_ne side)]
    exact ho.follows.congr rfl rfl rfl rfl rfl
  · rw [other_other, writings_after, hps', call_fst hc, hsent]
    have hcarried := ho.carried
    rw [other_other] at hcarried
    exact List.rel_append hcarried hcarries

theorem plugged_favour (me : Thread) (w : Pair) (side : Side) :
    (arena.favour me w).plugged side = (w.plugged side).favour me := by
  cases side <;> exact congrArg (plug _ _) (Stack.base_modifyBase _ _)

theorem incoming_favour (me : Thread) (w : Pair) (side : Side) :
    (arena.favour me w).incoming side = w.incoming side := by
  cases side <;> rfl

/-- Both sides stand as what has been told of them, with some parcels that carry what has been sent. -/
def Delivers (level : Nat) (p : Play Pair (Side × Call) Reply) : Prop :=
  ∃ ps : Side → List Parcel, ∀ side, Stands level ps p side

theorem Delivers.call (h : Delivers level p) {c : Call} (hc : c ≠ .close)
    (hme : ∀ c', p.held me = some c' → c' = (side, c)) :
    Delivers level (p.after me (side, c) (p.world.call side me c).1 (p.world.call side me c).2) := by
  obtain ⟨ps, hps⟩ := h
  have hsends := Link.call_sends me (hps side).isOpen hc (hps side).follows (hps side.other).sink
  obtain ⟨more, ms, hwritten, hsent, hcarries⟩ := hsends.sent
  refine ⟨fun you => if you = side then ps you else ps you ++ more, fun you => ?_⟩
  rcases eq_or_eq_other side you with rfl | rfl
  · exact Stands.call_self hps hc hme (if_pos rfl)
  · exact Stands.call_other hps hc hme hwritten hsent hcarries (if_neg (other_ne side))

theorem Delivers.favour (h : Delivers level p) (me : Thread) :
    Delivers level { p with world := arena.favour me p.world } := by
  obtain ⟨ps, hps⟩ := h
  refine ⟨ps, fun side => ?_⟩
  have hplugged := plugged_favour me p.world side
  have hincoming := incoming_favour me p.world side
  obtain ⟨hclosed, hlimit, hlevel, hhook, hpipe, haligned, hfollows, hcarried⟩ := hps side
  refine ⟨?_, ?_, ?_, ?_, hincoming ▸ hpipe, ?_, ?_, hcarried⟩
  · rw [hplugged]
    exact hclosed
  · rw [hplugged]
    exact hlimit
  · rw [hplugged]
    exact hlevel
  · rw [hplugged]
    exact hhook
  · rw [hplugged]
    exact haligned.congr rfl rfl (Lock.favour_holder _ _) fun _ _ _ => rfl
  · rw [hplugged]
    exact hfollows.congr rfl rfl (Lock.favour_holder _ _) rfl rfl

theorem delivers_new {settings : Settings} (hlimit : settings.limit = none) :
    Delivers settings.level { world := Pair.new settings } := by
  refine ⟨fun _ => [], fun side => ?_⟩
  cases side
  all_goals
    refine ⟨rfl, hlimit, rfl, rfl, rfl, ?_, ?_, .nil⟩
    · refine ⟨fun q hq => (nomatch hq), Pipe.smooth_source {}, rfl, ?_⟩
      exact .between (List.nil_append []).symm .nil rfl rfl rfl rfl
    · exact ⟨rfl, rfl, rfl, fun _ _ hcurrent => nomatch hcurrent⟩

theorem run_delivers {settings : Settings} (hlimit : settings.limit = none) {turns : List (Turn (Side × Call))}
    (hturns : ∀ me side, .call me (side, .close) ∉ turns) :
    Delivers settings.level (Play.run arena (Pair.new settings) turns) := by
  refine Play.run_induction (C := fun c => c.2 ≠ .close) (delivers_new hlimit) ?_ ?_ ?_
  · rintro p me ⟨side, c⟩ hp hc hme
    exact hp.call hc hme
  · intro p me hp
    exact hp.favour me
  · rintro me ⟨side, c⟩ hturn rfl
    exact hturns me side hturn

end

section

variable {level : Nat} {ps : Side → List Parcel} {p : Play Pair (Side × Call) Reply} {side : Side}

/-- What has been begun to be read is what has been sent in its place, as far as it has been read. -/
theorem begun_of_carried {ps : List Parcel} {sent : List Message} {seen : Readings}
    (htold : List.Forall₂ Parcel.IsToldBy (ps.take seen.begun.length) seen.begun)
    (hcarried : List.Forall₂ Parcel.Carries ps sent) {k : Nat} {d : Delivery} (hd : seen.begun[k]? = some d) :
    ∃ m : Message, sent[k]? = some m ∧ d.sequence = m.sequence ∧ d.bytes <+: m.payload := by
  obtain ⟨q, hq, htold⟩ := getElem?_of_forall₂ htold.flip hd
  rw [List.getElem?_take] at hq
  split at hq
  · obtain ⟨m, hm, hcarries⟩ := getElem?_of_forall₂ hcarried hq
    exact ⟨m, hm, htold.sequence.trans hcarries.sequence, htold.isPrefix _ hcarries.payload⟩
  · cases hq

/-- What begins to be read next answers, when so many packets have been begun and nobody is in the way. -/
theorem nextAnswer_of_carried {ps : List Parcel} {sent : List Message} (hcarried : List.Forall₂ Parcel.Carries ps sent)
    (live : Bool) (n : Nat) : (Inbound.nextAnswer live ps n).map Reply.sequence =
      match sent[n]? with
      | some m => .ok (.sequence m.sequence)
      | none => if live then .waiting else .error Header.shortError := by
  rw [Inbound.nextAnswer]
  cases hget : ps[n]? with
  | some q =>
      obtain ⟨m, hm, hcarries⟩ := getElem?_of_forall₂ hcarried hget
      rw [hm]
      exact congrArg (fun n => Attempt.ok (Reply.sequence n)) hcarries.sequence
  | none =>
      have hle := List.getElem?_eq_none_iff.1 hget
      rw [hcarried.length_eq] at hle
      rw [List.getElem?_eq_none hle]
      cases live <;> rfl

theorem Stands.begun (h : Stands level ps p side) {k : Nat} {d : Delivery}
    (hd : (Readings.ofHistory (historyOn side p.history)).begun[k]? = some d) :
    ∃ m : Message, (Writings.ofHistory (historyOn side.other p.history)).sent[k]? = some m ∧
      d.sequence = m.sequence ∧ d.bytes <+: m.payload :=
  begun_of_carried h.aligned.standing.told h.carried hd

theorem Stands.nextAnswer (h : Stands level ps p side) (n : Nat) :
    (Inbound.nextAnswer true (ps side) n).map Reply.sequence =
      match (Writings.ofHistory (historyOn side.other p.history)).sent[n]? with
      | some m => .ok (.sequence m.sequence)
      | none => .waiting :=
  nextAnswer_of_carried h.carried true n

theorem Stands.endWrite_answer (h : ∀ you, Stands level ps p you) {me : Thread} {m : Message}
    (hcurrent : (Writings.ofHistory (historyOn side p.history)).current = some (me, m)) (hpayload : m.payload ≠ [])
    (hfits : (m.job (p.world.stack side).base.threshold level).Fits) :
    (p.world.call side me .endWrite).1 = .ok .done := by
  obtain ⟨hsent, -⟩ := (h side).follows.finish_of_payload (h side.other).sink hcurrent hpayload
    (p.world.stack side).base.threshold level
  obtain ⟨o', hfinish, -⟩ := hsent hfits
  rw [call_fst (c := .endWrite) (by simp)]
  simp only [Link.call, Link.withOutbound]
  rw [(h side).isOpen, (h side).level]
  exact congrArg (fun r => r.1.map fun _ => Reply.done) hfinish

end

/-- What is sent on one side is read on the other in the same order. In every state that threads can bring a new pair
into without closing a side: the packets begun to be read are the first of those sent, each with its sequence
number, and what has been read of each is a prefix of its payload. In an open transaction, what remains is the rest of
the payload, a read answers bytes or is refused for asking too much, and the transaction can be ended. Outside of one,
beginning to read answers the next packet or waits, and somebody gets it if there is one. Sending a payload whose
lengths fit into a header succeeds. -/
theorem delivered_in_order (settings : Settings) (turns : List (Turn (Side × Call))) (hlimit : settings.limit = none)
    (hturns : ∀ me side, .call me (side, .close) ∉ turns) :
    let play := Play.run arena (Pair.new settings) turns
    ∀ side : Side,
      let sent := (Writings.ofHistory (historyOn side.other play.history)).sent
      let seen := Readings.ofHistory (historyOn side play.history)
      let next : Attempt LinkError Reply := match sent[seen.begun.length]? with
        | some m => .ok (.sequence m.sequence)
        | none => .waiting
      (∀ (k : Nat) (d : Delivery), seen.begun[k]? = some d →
        ∃ m : Message, sent[k]? = some m ∧ d.sequence = m.sequence ∧ d.bytes <+: m.payload) ∧
      (∀ me d, seen.current = some (me, d) → ∃ m, sent[seen.finished.length]? = some m ∧
        (play.world.call side me .remaining).1 = .ok (.count (m.payload.length - d.bytes.length)) ∧
        ((play.world.call side me .remaining).1 = .ok (.count 0) → d.bytes = m.payload) ∧
        (∀ n, (n ≤ m.payload.length - d.bytes.length ∧
            ∃ bs, (play.world.call side me (.read n)).1 = .ok (.bytes bs) ∧ (0 < n → bs ≠ [])) ∨
          (m.payload.length - d.bytes.length < n ∧ (play.world.call side me (.read n)).1 =
            .error (.overread n (m.payload.length - d.bytes.length)))) ∧
        (play.world.call side me .endRead).1 = .ok .done) ∧
      (seen.current = none →
        (∀ me, (play.world.call side me .beginRead).1 = next ∨ (play.world.call side me .beginRead).1 = .waiting) ∧
        ∃ me, (play.world.call side me .beginRead).1 = next) ∧
      ∀ me m, (Writings.ofHistory (historyOn side play.history)).current = some (me, m) → m.payload ≠ [] →
        (m.job (play.world.stack side).base.threshold settings.level).Fits →
          (play.world.call side me .endWrite).1 = .ok .done := by
  intro play side sent seen next
  obtain ⟨ps, hps⟩ := run_delivers hlimit hturns
  have hs := hps side
  have haligned := hs.aligned
  refine ⟨fun k d hd => hs.begun hd, ?_, ?_, ?_⟩
  · intro me d hcurrent
    obtain ⟨q, hq, hle, hremaining⟩ := haligned.remaining_answer hcurrent
    obtain ⟨m, hm, hcarries⟩ := getElem?_of_forall₂ hs.carried hq
    have hlength := Inbound.length_of_payload? hcarries.sound hcarries.payload
    have hanswer : (play.world.call side me .remaining).1 = .ok (.count (m.payload.length - d.bytes.length)) := by
      rw [call_fst (c := .remaining) (by simp), Link.call_remaining_fst hs.isOpen, hremaining, hlength]
      rfl
    refine ⟨m, hm, hanswer, ?_, ?_, ?_⟩
    · intro hzero
      rw [hanswer, Attempt.ok.injEq, Reply.count.injEq] at hzero
      have hlast : seen.begun[seen.finished.length]? = some d := by
        rw [Readings.begun, hcurrent, List.getElem?_append_right (Nat.le_refl _), Nat.sub_self]
        rfl
      obtain ⟨m', hm', -, hprefix⟩ := hs.begun hlast
      obtain rfl : m' = m := Option.some.inj (hm'.symm.trans hm)
      exact hprefix.eq_of_length (by omega)
    · intro n
      rw [call_fst (c := .read n) (by simp), Link.call_read_fst hs.isOpen]
      rcases haligned.read_answer hcurrent hq hcarries.payload n with ⟨hn, bs, hbs, hne⟩ | ⟨hn, hrefused⟩
      · exact .inl ⟨hn, bs, by rw [hbs]; rfl, hne⟩
      · exact .inr ⟨hn, by rw [hrefused]; rfl⟩
    · rw [call_fst (c := .endRead) (by simp), Link.call_endRead_fst hs.isOpen,
        haligned.finish_answer hcurrent hq hcarries.payload]
      rfl
  · intro hcurrent
    obtain ⟨hall, -, me, hnext⟩ := haligned.begin_answer hcurrent
    have hcall : ∀ me, (play.world.call side me .beginRead).1 =
        ((play.world.plugged side).inbound.begin false none me).1.map Reply.sequence := by
      intro me
      rw [call_fst (c := .beginRead) (by simp), Link.call_beginRead_fst hs.isOpen, hs.limit]
    refine ⟨?_, me, ?_⟩
    · intro you
      rw [hcall]
      rcases hall you with h | h
      · left
        rw [h]
        exact hs.nextAnswer _
      · right
        rw [h]
        rfl
    · rw [hcall, hnext]
      exact hs.nextAnswer _
  · intro me m hcurrent hpayload hfits
    exact Stands.endWrite_answer hps hcurrent hpayload hfits

/-- A reader that has waited, been refused and read some of a compressed packet, behind one that was cancelled. -/
theorem delivered_in_order_compressed :
    let settings : Settings := { level := 0, policy := .threshold 4 }
    let turns : List (Turn (Side × Call)) :=
      [.call 1 (.right, .beginRead), .call 0 (.left, .enableCompression), .call 0 (.left, .beginWrite 6),
        .call 2 (.left, .beginWrite 7), .call 0 (.left, .write [9]), .call 0 (.left, .cancelWrite),
        .call 2 (.left, .beginWrite 7), .call 2 (.left, .write [1, 1]), .call 2 (.left, .write [2, 3]),
        .call 2 (.left, .endWrite), .call 1 (.right, .beginRead), .call 1 (.right, .read 5), .call 1 (.right, .read 3)]
    let play := Play.run arena (Pair.new settings) turns
    (Writings.ofHistory (historyOn .left play.history)).sent = [⟨7, [1, 1, 2, 3]⟩] ∧
      (Readings.ofHistory (historyOn .right play.history)).begun = [⟨7, [1, 1, 2]⟩] ∧
      (play.world.call .right 1 .remaining).1 = .ok (.count 1) ∧
      (play.world.call .right 1 .endRead).1 = .ok .done := by
  intro settings turns play
  have hsent : (Writings.ofHistory (historyOn .left play.history)).sent = [⟨7, [1, 1, 2, 3]⟩] := by decide +kernel
  have hcurrent : (Readings.ofHistory (historyOn .right play.history)).current = some (1, ⟨7, [1, 1, 2]⟩) := by
    decide +kernel
  have hbegun : (Readings.ofHistory (historyOn .right play.history)).begun = [⟨7, [1, 1, 2]⟩] := by decide +kernel
  obtain ⟨-, hopen, -⟩ := delivered_in_order settings turns rfl (by simp [turns]) .right
  obtain ⟨m, hm, hremaining, -, -, hend⟩ := hopen 1 _ hcurrent
  have hleft : (Writings.ofHistory (historyOn Side.right.other play.history)).sent = [⟨7, [1, 1, 2, 3]⟩] := hsent
  have hover : (Readings.ofHistory (historyOn .right play.history)).finished.length = 0 := by decide +kernel
  rw [hleft, hover] at hm
  obtain rfl := Option.some.inj hm
  exact ⟨hsent, hbegun, hremaining, hend⟩

end Pair

end FrameLink
