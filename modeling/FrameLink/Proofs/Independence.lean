import FrameLink.Proofs.Courses
import FrameLink.Proofs.ReadingSide

/-! The two directions of a link are independent. A call about one of them neither sees nor changes what belongs to
the other, so that calls about different sides may change places, and each side answers in any interleaving what it
answers by itself. This is so in every state of a link, for calls that fail or have to wait as for others. -/

namespace FrameLink

/-- Whether a call is about packets that are sent, or whether they are compressed. -/
def Call.isOutward : Call → Bool
  | .beginWrite _ | .write _ | .restartWrite | .endWrite | .cancelWrite => true
  | .enableCompression | .disableCompression | .isCompressionEnabled => true
  | _ => false

namespace Link

/-- Two links differ in nothing that is seen by calls about the packets that are read. -/
structure SameInward (l l' : Link) : Prop where
  closed : l.closed = l'.closed
  limit : l.settings.limit = l'.settings.limit
  inbound : l.inbound = l'.inbound

/-- Two links differ in nothing that is seen by calls about the packets that are sent. -/
structure SameOutward (l l' : Link) : Prop where
  closed : l.closed = l'.closed
  settings : l.settings = l'.settings
  threshold : l.threshold = l'.threshold
  outbound : l.outbound = l'.outbound

section

variable {l l' l'' : Link} {me you : Thread} {c a b : Call}

theorem SameInward.refl (l : Link) : SameInward l l :=
  ⟨rfl, rfl, rfl⟩

theorem SameInward.symm (h : SameInward l l') : SameInward l' l :=
  ⟨h.closed.symm, h.limit.symm, h.inbound.symm⟩

theorem SameInward.trans (h : SameInward l l') (h' : SameInward l' l'') : SameInward l l'' :=
  ⟨h.closed.trans h'.closed, h.limit.trans h'.limit, h.inbound.trans h'.inbound⟩

theorem SameOutward.refl (l : Link) : SameOutward l l :=
  ⟨rfl, rfl, rfl, rfl⟩

theorem SameOutward.symm (h : SameOutward l l') : SameOutward l' l :=
  ⟨h.closed.symm, h.settings.symm, h.threshold.symm, h.outbound.symm⟩

theorem SameOutward.trans (h : SameOutward l l') (h' : SameOutward l' l'') : SameOutward l l'' :=
  ⟨h.closed.trans h'.closed, h.settings.trans h'.settings, h.threshold.trans h'.threshold,
    h.outbound.trans h'.outbound⟩

/-- A link is what its two sides see of it, and its hook. -/
theorem eq_of_same (hin : SameInward l l') (hout : SameOutward l l') (hhook : l.hook = l'.hook) : l = l' := by
  cases l
  cases l'
  obtain ⟨rfl, -, rfl⟩ := hin
  obtain ⟨-, rfl, rfl, rfl⟩ := hout
  obtain rfl := hhook
  rfl

/-- A call about what is read goes by the reading side alone. -/
theorem SameInward.call (h : SameInward l l') (me : Thread) (hc : c.isInward = true) :
    (l.call me c).1 = (l'.call me c).1 ∧ SameInward (l.call me c).2 (l'.call me c).2 := by
  cases c with
  | beginRead | read n | remaining | endRead =>
      simp only [Link.call, withInbound, h.closed, h.limit, h.inbound]
      exact ⟨trivial, rfl, h.limit, rfl⟩
  | _ => cases hc

/-- A call about what is sent goes by the writing side alone. -/
theorem SameOutward.call (h : SameOutward l l') (me : Thread) (hc : c.isOutward = true) :
    (l.call me c).1 = (l'.call me c).1 ∧ SameOutward (l.call me c).2 (l'.call me c).2 := by
  cases c with
  | beginWrite n | write bs | restartWrite | endWrite | cancelWrite =>
      simp only [Link.call, withOutbound, h.closed, h.settings, h.threshold, h.outbound]
      exact ⟨trivial, rfl, rfl, rfl, rfl⟩
  | enableCompression =>
      simp only [Link.call, enableCompression, h.closed, h.settings]
      split
      · exact ⟨rfl, h⟩
      · exact ⟨rfl, rfl, rfl, rfl, h.outbound⟩
  | disableCompression =>
      simp only [Link.call, disableCompression, h.closed]
      split
      · exact ⟨rfl, h⟩
      · exact ⟨rfl, rfl, h.settings, rfl, h.outbound⟩
  | isCompressionEnabled =>
      simp only [Link.call, isCompressing, h.threshold]
      exact ⟨trivial, h⟩
  | _ => cases hc

theorem sameOutward_call (l : Link) (me : Thread) (hc : c.isInward = true) : SameOutward (l.call me c).2 l := by
  cases c with
  | beginRead | read n | remaining | endRead => exact ⟨rfl, rfl, rfl, rfl⟩
  | _ => cases hc

theorem sameInward_call (l : Link) (me : Thread) (hc : c.isOutward = true) : SameInward (l.call me c).2 l := by
  cases c with
  | beginWrite n | write bs | restartWrite | endWrite | cancelWrite | isCompressionEnabled => exact ⟨rfl, rfl, rfl⟩
  | enableCompression =>
      simp only [Link.call, enableCompression]
      split <;> exact ⟨rfl, rfl, rfl⟩
  | disableCompression =>
      simp only [Link.call, disableCompression]
      split <;> exact ⟨rfl, rfl, rfl⟩
  | _ => cases hc

theorem ne_close_of_isInward (hc : c.isInward = true) : c ≠ .close := by
  rintro rfl
  cases hc

theorem ne_close_of_isOutward (hc : c.isOutward = true) : c ≠ .close := by
  rintro rfl
  cases hc

/-- Calls about different sides may change places. -/
theorem call_comm (l : Link) (me you : Thread) (ha : a.isInward = true) (hb : b.isOutward = true) :
    ((l.call you b).2.call me a).1 = (l.call me a).1 ∧ ((l.call me a).2.call you b).1 = (l.call you b).1 ∧
      ((l.call me a).2.call you b).2 = ((l.call you b).2.call me a).2 := by
  obtain ⟨hanswer, hin⟩ := (sameInward_call l you hb).call me ha
  obtain ⟨hanswer', hout⟩ := (sameOutward_call l me ha).call you hb
  refine ⟨hanswer, hanswer', eq_of_same ?_ ?_ ?_⟩
  · exact (sameInward_call _ you hb).trans hin.symm
  · exact hout.trans (sameOutward_call _ me ha).symm
  · rw [(call_frame _ _ (ne_close_of_isOutward hb)).2.2.2, (call_frame _ _ (ne_close_of_isInward ha)).2.2.2,
      (call_frame _ _ (ne_close_of_isInward ha)).2.2.2, (call_frame _ _ (ne_close_of_isOutward hb)).2.2.2]

end

/-- What may happen to a link: a thread attempts a call, its source or its sink changes by itself, or a thread comes
to the front of the queues that it stands in. -/
inductive Move where
  | attempt (me : Thread) (c : Call)
  | source (src : Source)
  | sink (replies : List Sink.Reply) (flushes : List (Option IoError)) (broken : Option IoError) (passes : Nat)
  | favour (me : Thread)

namespace Move

def isInward : Move → Bool
  | .attempt _ c => c.isInward
  | .source _ | .favour _ => true
  | .sink _ _ _ _ => false

def isOutward : Move → Bool
  | .attempt _ c => c.isOutward
  | .sink _ _ _ _ | .favour _ => true
  | .source _ => false

/-- The attempt that a move is, if it is one, and the link afterwards. -/
def apply : Move → Link → List (Trial Call Reply) × Link
  | .attempt me c, l => ([⟨me, c, (l.call me c).1⟩], (l.call me c).2)
  | .source src, l => ([], { l with inbound := { l.inbound with source := src } })
  | .sink replies flushes broken passes, l =>
    ([], { l with outbound := { l.outbound with sink :=
      { l.outbound.sink with replies := replies, flushes := flushes, broken := broken, passes := passes } } })
  | .favour me, l => ([], l.favour me)

end Move

/-- The attempts among moves that are made one after the other, and the link after all of them. -/
def moves : List Move → Link → List (Trial Call Reply) × Link
  | [], l => ([], l)
  | m :: ms, l => ((m.apply l).1 ++ (moves ms (m.apply l).2).1, (moves ms (m.apply l).2).2)

section

variable {l l' : Link} {m : Move}

theorem SameInward.apply (h : SameInward l l') (hm : m.isInward = true) :
    (m.apply l).1 = (m.apply l').1 ∧ SameInward (m.apply l).2 (m.apply l').2 := by
  cases m with
  | attempt me c =>
      obtain ⟨hanswer, hnext⟩ := h.call me hm
      exact ⟨by rw [Move.apply, Move.apply, hanswer], hnext⟩
  | source src => exact ⟨rfl, h.closed, h.limit, congrArg (fun i => { i with source := src }) h.inbound⟩
  | sink replies flushes broken passes => cases hm
  | favour me =>
      exact ⟨rfl, h.closed, h.limit, congrArg (fun i => { i with lock := i.lock.favour me }) h.inbound⟩

theorem SameOutward.apply (h : SameOutward l l') (hm : m.isOutward = true) :
    (m.apply l).1 = (m.apply l').1 ∧ SameOutward (m.apply l).2 (m.apply l').2 := by
  cases m with
  | attempt me c =>
      obtain ⟨hanswer, hnext⟩ := h.call me hm
      exact ⟨by rw [Move.apply, Move.apply, hanswer], hnext⟩
  | source src => cases hm
  | sink replies flushes broken passes =>
      exact ⟨rfl, h.closed, h.settings, h.threshold, congrArg (fun o => { o with sink :=
        { o.sink with replies := replies, flushes := flushes, broken := broken, passes := passes } }) h.outbound⟩
  | favour me =>
      exact ⟨rfl, h.closed, h.settings, h.threshold,
        congrArg (fun o => { o with lock := o.lock.favour me }) h.outbound⟩

/-- A move that is of the other side alone leaves a side as it is. -/
theorem sameInward_apply (l : Link) (hm : m.isOutward = true) (hnot : m.isInward = false) :
    SameInward (m.apply l).2 l := by
  cases m with
  | attempt me c => exact sameInward_call l me hm
  | sink replies flushes broken passes => exact ⟨rfl, rfl, rfl⟩
  | source src => cases hm
  | favour me => cases hnot

theorem sameOutward_apply (l : Link) (hm : m.isInward = true) (hnot : m.isOutward = false) :
    SameOutward (m.apply l).2 l := by
  cases m with
  | attempt me c => exact sameOutward_call l me hm
  | source src => exact ⟨rfl, rfl, rfl, rfl⟩
  | sink replies flushes broken passes => cases hm
  | favour me => cases hnot

/-- Moves that are none of a side's may be left out, if the side does not see them and answers by what it sees. -/
theorem moves_filter (asks : Trial Call Reply → Bool) {same : Link → Link → Prop} {mine : Move → Bool}
    {other : Move → Prop} (hasks : ∀ me c r, asks ⟨me, c, r⟩ = mine (.attempt me c))
    (hmine : ∀ {l l' m}, same l l' → mine m = true →
      (m.apply l).1 = (m.apply l').1 ∧ same (m.apply l).2 (m.apply l').2)
    (hother : ∀ {l l' m}, same l l' → other m → mine m = false → same (m.apply l).2 l')
    (ms : List Move) (hms : ∀ m ∈ ms, mine m = true ∨ other m) {l l' : Link} (h : same l l') :
    (moves ms l).1.filter asks = (moves (ms.filter mine) l').1 ∧
      same (moves ms l).2 (moves (ms.filter mine) l').2 := by
  induction ms generalizing l l' with
  | nil => exact ⟨rfl, h⟩
  | cons m ms ih =>
      have hrest := fun m' hm' => hms m' (List.mem_cons_of_mem m hm')
      have hfilter : (m.apply l).1.filter asks = if mine m = true then (m.apply l).1 else [] := by
        cases m with
        | attempt me c => simp only [Move.apply, List.filter_singleton, hasks, cond_eq_ite]
        | _ => simp only [Move.apply, List.filter_nil, ite_self]
      cases hm : mine m with
      | true =>
          obtain ⟨hanswer, hnext⟩ := hmine h hm
          obtain ⟨htrials, hlast⟩ := ih hrest hnext
          rw [List.filter_cons_of_pos hm]
          refine ⟨?_, hlast⟩
          rw [moves, moves, List.filter_append, htrials, hfilter, if_pos hm, hanswer]
      | false =>
          have hm' : ¬ mine m = true := Bool.eq_false_iff.1 hm
          have hnext := hother h ((hms m List.mem_cons_self).resolve_left hm') hm
          obtain ⟨htrials, hlast⟩ := ih hrest hnext
          rw [List.filter_cons_of_neg hm']
          refine ⟨?_, hlast⟩
          rw [moves, List.filter_append, htrials, hfilter, if_neg hm', List.nil_append]

/-- No move of the two sides closes a link or touches its hook. -/
theorem moves_frame (ms : List Move) (hms : ∀ m ∈ ms, m.isInward = true ∨ m.isOutward = true) (l : Link) :
    (moves ms l).2.closed = l.closed ∧ (moves ms l).2.hook = l.hook := by
  induction ms generalizing l with
  | nil => exact ⟨rfl, rfl⟩
  | cons m ms ih =>
      have hfirst : (m.apply l).2.closed = l.closed ∧ (m.apply l).2.hook = l.hook := by
        cases m with
        | attempt me c =>
            have hc : c ≠ .close :=
              (hms (.attempt me c) List.mem_cons_self).elim ne_close_of_isInward ne_close_of_isOutward
            exact ⟨(call_frame l me hc).1, (call_frame l me hc).2.2.2⟩
        | _ => exact ⟨rfl, rfl⟩
      obtain ⟨hclosed, hhook⟩ := ih (fun m' hm' => hms m' (List.mem_cons_of_mem m hm')) (m.apply l).2
      exact ⟨hclosed.trans hfirst.1, hhook.trans hfirst.2⟩

end

/-- The two directions of a link are independent. Two calls about different sides may change places: neither answer
changes, and the link is the same after both. When moves of both sides are made in any order, each side answers as in
its own moves alone, and the link is put together from what these alone make of its sides: the same bytes have been
taken and sent. -/
theorem sides_independent (l : Link) :
    (∀ me you a b, a.isInward = true → b.isOutward = true →
      ((l.call you b).2.call me a).1 = (l.call me a).1 ∧ ((l.call me a).2.call you b).1 = (l.call you b).1 ∧
        ((l.call me a).2.call you b).2 = ((l.call you b).2.call me a).2) ∧
    ∀ ms : List Move, (∀ m ∈ ms, m.isInward = true ∨ m.isOutward = true) →
      (moves ms l).1.filter (·.call.isInward) = (moves (ms.filter Move.isInward) l).1 ∧
      (moves ms l).1.filter (·.call.isOutward) = (moves (ms.filter Move.isOutward) l).1 ∧
      (moves ms l).2 = { (moves (ms.filter Move.isOutward) l).2 with
        inbound := (moves (ms.filter Move.isInward) l).2.inbound } := by
  refine ⟨fun me you a b => call_comm l me you, fun ms hms => ?_⟩
  obtain ⟨hin, hinside⟩ := moves_filter (·.call.isInward) (fun _ _ _ => rfl) SameInward.apply
    (fun h hout hnot => (sameInward_apply _ hout hnot).trans h) ms hms (.refl l)
  obtain ⟨hout, houtside⟩ := moves_filter (·.call.isOutward) (fun _ _ _ => rfl) SameOutward.apply
    (fun h hin hnot => (sameOutward_apply _ hin hnot).trans h) ms (fun m hm => (hms m hm).symm) (.refl l)
  refine ⟨hin, hout, eq_of_same ⟨houtside.closed, ?_, hinside.inbound⟩ ?_ ?_⟩
  · exact congrArg Settings.limit houtside.settings
  · exact ⟨houtside.closed, houtside.settings, houtside.threshold, houtside.outbound⟩
  · have houtward : ∀ m ∈ ms.filter Move.isOutward, m.isInward = true ∨ m.isOutward = true :=
      fun m hm => .inr (List.mem_filter.1 hm).2
    exact (moves_frame ms hms l).2.trans (moves_frame _ houtward l).2.symm

/-- One thread reads a packet while another sends one. -/
theorem sides_independent_packet_each_way :
    let l := new {} {} ⟨[.data (Header.encode ⟨7, 1, 0⟩), .data [0xAA]], 0, false⟩ {}
    let ms : List Move := [.attempt 0 .beginRead, .attempt 1 (.beginWrite 5), .attempt 0 (.read 1),
      .attempt 1 (.write [0xBB]), .attempt 1 .endWrite, .attempt 0 .endRead]
    (∀ m ∈ ms, m.isInward = true ∨ m.isOutward = true) ∧
      ((moves ms l).1.filter (·.call.isInward)).map Trial.result =
        [.ok (.sequence 7), .ok (.bytes [0xAA]), .ok .done] ∧
      ((l.call 1 (.beginWrite 5)).2.call 0 .beginRead).1 = .ok (.sequence 7) := by
  intro l ms
  have hms : ∀ m ∈ ms, m.isInward = true ∨ m.isOutward = true := by
    decide +kernel
  refine ⟨hms, ?_, ?_⟩
  · rw [((sides_independent l).2 ms hms).1]
    decide +kernel
  · rw [((sides_independent l).1 0 1 .beginRead (.beginWrite 5) rfl rfl).1]
    decide +kernel

end Link

end FrameLink
