import FrameLink.Proofs.ReadingSide
import FrameLink.Proofs.WritingSide

/-! A link as a whole. A call is about one of its sides or about neither, and what it comes to on that side is all that
it comes to; only closing the link is about both. So whatever threads do and whatever happens to the byte streams, both
sides stay as they should be, and a link that has been closed stays closed. -/

namespace FrameLink.Link

/-- Both sides are as they should be while these calls hold threads up, and the threshold is one that can be set. -/
structure IsCoherent (p : Play Link Call Reply) : Prop where
  inbound : p.world.inbound.IsCoherent p.world.closed (Play.heldAmong Call.isInward p.held)
  outbound : p.world.outbound.IsCoherent p.world.closed (Play.heldAmong Call.writes p.held)
  threshold : p.world.threshold = -1 ∨ 0 < p.world.threshold

/-- What an attempt of a thread at a call comes to. -/
inductive Outcome (me : Thread) (c : Call) (l : Link) : Attempt LinkError Reply → Link → Prop where
  | inward {r : Attempt LinkError Reply} {i : Inbound} (hc : c.isInward = true)
      (ho : Inbound.Outcome l.closed me c l.inbound r i) : Outcome me c l r { l with inbound := i }
  | outward {r : Attempt LinkError Unit} {o : Outbound} (hc : c.writes = true)
      (ho : Outbound.Outcome l.closed l.threshold l.settings.level me c l.outbound r o) :
      Outcome me c l (r.map fun _ => .done) { l with outbound := o }
  | enabled {threshold : Int32} (hc : c = .enableCompression) (hopen : l.closed = false)
      (hthreshold : threshold = if 0 < l.settings.policy.ask.1 then l.settings.policy.ask.1 else -1) :
      Outcome me c l (.ok (.flag (0 < threshold)))
        { l with threshold := threshold, settings := l.settings.withPolicy l.settings.policy.ask.2 }
  | disabled (hc : c = .disableCompression) (hopen : l.closed = false) :
      Outcome me c l (.ok .done) { l with threshold := -1 }
  /-- The link has been closed, and compression does not change any more. -/
  | barred (hc : c = .enableCompression ∨ c = .disableCompression) (hclosed : l.closed = true) :
      Outcome me c l (.error .closed) l
  | closes {r : Except LinkError Unit} {hook : Hook} (hc : c = .close) (hopen : l.closed = false)
      (hhook : l.hook.run = (r, hook)) :
      Outcome me c l ((Attempt.ofExcept r).map fun _ => .done)
        { l with
          hook := hook, closed := true, inbound := l.inbound.close me, outbound := l.outbound.close me }
  | closedBefore (hc : c = .close) (hclosed : l.closed = true) : Outcome me c l (.ok .done) l
  | asked {flag : Bool} (hc : c = .isCompressionEnabled ∨ c = .isClosed) : Outcome me c l (.ok (.flag flag)) l

section

variable {p q : Play Link Call Reply} {me : Thread} {c : Call} {trials : List (Trial Call Reply)}

theorem close_outcome (me : Thread) (l : Link) : Outcome me .close l (l.call me .close).1 (l.call me .close).2 := by
  cases hclosed : l.closed with
  | false =>
      have hcall : l.call me .close = ((Attempt.ofExcept l.hook.run.1).map fun _ => .done,
          { l with
            hook := l.hook.run.2, closed := true, inbound := l.inbound.close me
            outbound := l.outbound.close me }) := by
        simp only [call, Link.close, hclosed, Bool.false_eq_true, if_false]
      rw [hcall]
      exact .closes rfl hclosed rfl
  | true =>
      have hcall : l.call me .close = (.ok .done, l) := by
        simp only [call, Link.close, hclosed, if_true, Attempt.map]
      rw [hcall]
      exact .closedBefore rfl hclosed

theorem enable_outcome (me : Thread) (l : Link) :
    Outcome me .enableCompression l (l.call me .enableCompression).1 (l.call me .enableCompression).2 := by
  cases hclosed : l.closed with
  | false =>
      simp only [call, enableCompression, hclosed, Bool.false_eq_true, if_false, Attempt.map]
      exact hclosed ▸ .enabled rfl hclosed rfl
  | true =>
      simp only [call, enableCompression, hclosed, if_true, Attempt.map]
      exact .barred (.inl rfl) hclosed

theorem disable_outcome (me : Thread) (l : Link) :
    Outcome me .disableCompression l (l.call me .disableCompression).1 (l.call me .disableCompression).2 := by
  cases hclosed : l.closed with
  | false =>
      simp only [call, disableCompression, hclosed, Bool.false_eq_true, if_false, Attempt.map]
      exact hclosed ▸ .disabled rfl hclosed
  | true =>
      simp only [call, disableCompression, hclosed, if_true, Attempt.map]
      exact .barred (.inr rfl) hclosed

theorem IsCoherent.call_outcome (h : IsCoherent p) (hallows : p.Allows me c) :
    Outcome me c p.world (p.world.call me c).1 (p.world.call me c).2 := by
  have hinward := hallows.heldAmong Call.isInward
  have houtward := hallows.heldAmong Call.writes
  cases c with
  | beginRead => exact .inward rfl (h.inbound.begin_outcome hinward rfl)
  | read n => exact .inward rfl (h.inbound.read_outcome hinward rfl)
  | remaining => exact .inward rfl (h.inbound.remaining_outcome hinward rfl)
  | endRead => exact .inward rfl (h.inbound.finish_outcome hinward rfl)
  | beginWrite n => exact .outward rfl (h.outbound.begin_outcome houtward rfl)
  | write bs => exact .outward rfl (h.outbound.write_outcome houtward rfl)
  | restartWrite => exact .outward rfl (h.outbound.restart_outcome houtward rfl)
  | endWrite => exact .outward rfl (h.outbound.finish_outcome houtward rfl)
  | cancelWrite => exact .outward rfl (h.outbound.cancel_outcome houtward rfl)
  | enableCompression => exact enable_outcome me p.world
  | disableCompression => exact disable_outcome me p.world
  | isCompressionEnabled => exact .asked (.inl rfl)
  | close => exact close_outcome me p.world
  | isClosed => exact .asked (.inr rfl)

theorem isInward_eq_false_of_writes (hc : c.writes = true) : c.isInward = false := by
  cases c <;> first | rfl | cases hc

theorem writes_eq_false_of_isInward (hc : c.isInward = true) : c.writes = false := by
  cases c <;> first | rfl | cases hc

theorem threshold_of_answer (answer : Int32) :
    (if 0 < answer then answer else -1) = -1 ∨ 0 < if 0 < answer then answer else -1 := by
  split
  · rename_i hpos
    exact .inr hpos
  · exact .inl rfl

/-- Whatever a call comes to, both sides are as they should be afterwards. -/
theorem IsCoherent.attempt (h : IsCoherent p) (hallows : p.Allows me c) : IsCoherent (p.attempt arena me c) := by
  have ho := h.call_outcome hallows
  rw [Play.attempt]
  show IsCoherent (p.after me c (p.world.call me c).1 (p.world.call me c).2)
  revert ho
  generalize (p.world.call me c).1 = r
  generalize (p.world.call me c).2 = l
  intro ho
  have hother : ∀ {kind : Call → Bool}, kind c = false →
      Play.heldAmong kind (p.after me c r l).held = Play.heldAmong kind p.held := Play.heldAmong_after_of_not hallows
  -- A call about neither side leaves the calls about them that are held up.
  have hneither : c.isInward = false → c.writes = false → l.inbound = p.world.inbound → l.outbound = p.world.outbound →
      l.closed = p.world.closed → (l.threshold = -1 ∨ 0 < l.threshold) → IsCoherent (p.after me c r l) := by
    intro hinward hwrites hinbound houtbound hclosed hthreshold
    refine ⟨?_, ?_, ?_⟩ <;> rw [Play.after_world]
    · rw [hother hinward, hinbound, hclosed]
      exact h.inbound
    · rw [hother hwrites, houtbound, hclosed]
      exact h.outbound
    · exact hthreshold
  cases ho with
  | inward hc ho =>
      refine ⟨?_, ?_, ?_⟩ <;> rw [Play.after_world]
      · rw [Play.heldAmong_after hc]
        exact ho.isCoherent h.inbound (hallows.heldAmong Call.isInward)
      · rw [hother (writes_eq_false_of_isInward hc)]
        exact h.outbound
      · exact h.threshold
  | outward hc ho =>
      refine ⟨?_, ?_, ?_⟩ <;> rw [Play.after_world]
      · rw [hother (isInward_eq_false_of_writes hc)]
        exact h.inbound
      · rw [Play.heldAmong_after hc, Play.heldBy_map]
        exact ho.isCoherent h.outbound (hallows.heldAmong Call.writes)
      · exact h.threshold
  | enabled hc hopen hthreshold =>
      subst hc hthreshold
      refine hneither rfl rfl rfl rfl rfl ?_
      exact threshold_of_answer _
  | disabled hc hopen =>
      subst hc
      exact hneither rfl rfl rfl rfl rfl (.inl rfl)
  | barred hc hclosed =>
      rcases hc with rfl | rfl
      · exact hneither rfl rfl rfl rfl rfl h.threshold
      · exact hneither rfl rfl rfl rfl rfl h.threshold
  | closes hc hopen hhook =>
      subst hc
      refine ⟨?_, ?_, ?_⟩ <;> rw [Play.after_world]
      · rw [hother rfl]
        exact h.inbound.close (hallows.heldAmong_eq_none rfl)
      · rw [hother rfl]
        exact h.outbound.close (hallows.heldAmong_eq_none rfl)
      · exact h.threshold
  | closedBefore hc hclosed =>
      subst hc
      exact hneither rfl rfl rfl rfl rfl h.threshold
  | asked hc =>
      rcases hc with rfl | rfl
      · exact hneither rfl rfl rfl rfl rfl h.threshold
      · exact hneither rfl rfl rfl rfl rfl h.threshold

/-- Whatever happens to the byte streams, and whoever comes to the front, both sides are as they should be. -/
theorem IsCoherent.stir (h : IsCoherent p) {l : Link} (hstirs : Stirs p.world l) :
    IsCoherent { p with world := l } := by
  cases hstirs with
  | source src => exact ⟨h.inbound.congr rfl rfl h.inbound.orderly, h.outbound, h.threshold⟩
  | sink replies flushes broken passes => exact ⟨h.inbound, h.outbound.congr _ rfl h.outbound.orderly, h.threshold⟩
  | favour me =>
      refine ⟨h.inbound.congr rfl ?_ ?_, h.outbound.congr _ ?_ ?_, h.threshold⟩
      · exact Lock.favour_holder _ me
      · exact h.inbound.orderly.favour me
      · exact Lock.favour_holder _ me
      · exact h.outbound.orderly.favour me

theorem isCoherent_new (settings : Settings) (hook : Hook) (src : Source) (sink : Sink) :
    IsCoherent { world := new settings hook src sink } where
  inbound := ⟨.free rfl rfl, ⟨.nil, nofun, nofun⟩⟩
  outbound := ⟨.free rfl rfl rfl, rfl, nofun, ⟨.nil, nofun, nofun⟩⟩
  threshold := .inl rfl

theorem Course.isCoherent (h : Course p trials q) (hp : IsCoherent p) : IsCoherent q :=
  h.keeps (I := fun _ q => IsCoherent q) (fun _ _ _ _ hq hallows => hq.attempt hallows)
    (fun _ _ _ hq hstirs => hq.stir hstirs) hp

theorem Stirs.closed {l l' : Link} (h : Stirs l l') : l'.closed = l.closed := by
  cases h <;> rfl

theorem closed_call {l : Link} (h : l.closed = true) (me : Thread) (c : Call) : (l.call me c).2.closed = true := by
  by_cases hc : c = .close
  · subst hc
    simp only [call, Link.close, h, if_true]
  · exact (call_frame l me hc).1.trans h

theorem closed_close (me : Thread) (l : Link) : (l.call me .close).2.closed = true := by
  simp only [call, Link.close]
  split
  · assumption
  · rfl

/-- A link that has been closed stays closed. -/
theorem Course.closed (h : Course p trials q) (hp : p.world.closed = true) : q.world.closed = true :=
  h.keeps (I := fun _ q => q.world.closed = true)
    (fun _ _ me c hq _ => (congrArg Link.closed (Play.attempt_world me c)).trans (closed_call hq me c))
    (fun _ _ _ hq hstirs => hstirs.closed.trans hq) hp

end

end FrameLink.Link
