import FrameLink.Proofs.Discarding
import FrameLink.Proofs.Joining
import FrameLink.View

/-! Misuse leaves a link as it was. A call fails recoverably if it begins a transaction within another one, needs one
that its thread has not begun, or asks for more of a payload than is left. It is told so at once, whatever holds other
threads up, and nothing is changed by it: neither locks nor cursors, neither buffers nor byte streams. -/

namespace FrameLink

theorem LinkError.isRecoverable_of_isBreach {e : LinkError} (h : e.isBreach = true) : e.isRecoverable = false := by
  cases e <;> first | rfl | cases h

theorem LinkError.kind_toIoError (e : LinkError) : e.toIoError.kind = e.ioKind := by
  cases e <;> rfl

namespace Inbound

section

variable {closed : Bool} {held : Thread → Option Call} {i i' : Inbound} {me : Thread} {c : Call} {n : Nat}
  {r : Attempt LinkError Reply} {e : LinkError}

/-- A thread that owns the lock, and finds nobody at work on the input, is in no call about this side. -/
theorem IsCoherent.held_of_idle (h : i.IsCoherent closed held) (hholder : i.lock.holder = some me)
    (hidle : i.input.isBusy = false) : held me = none := by
  cases h.stance with
  | free hnone => cases hnone.symm.trans hholder
  | owned howner hheld =>
      obtain rfl := Option.some.inj (howner.symm.trans hholder)
      exact hheld
  | working _ _ hworks => cases hidle.symm.trans hworks.isBusy

/-- A call that fails recoverably changes nothing, and its thread has not been held up in it. -/
theorem Outcome.unchanged (ho : Outcome closed me c i r i') (h : i.IsCoherent closed held)
    (hme : held me = none ∨ held me = some c) (hr : r = .error e) (he : e.isRecoverable = true) :
    i' = i ∧ e.ioKind = .invalidInput ∧ (held me = none ∨ me ∉ i.lock.queue ∧ i.lock.holder ≠ some me) := by
  cases ho with
  | queued => cases hr
  | reentrant _ _ hholder hidle =>
      cases hr
      exact ⟨rfl, rfl, .inl (h.held_of_idle hholder hidle)⟩
  | unowned hc _ hholder =>
      cases hr
      exact ⟨rfl, rfl, .inr ⟨h.not_mem_queue hme hc, hholder⟩⟩
  | shut => cases hr; cases he
  | expelled => cases hr; cases he
  | waits => cases hr
  | stays => cases hr
  | overreads _ _ hholder hinput =>
      cases hr
      exact ⟨rfl, rfl, .inl (h.held_of_idle hholder (hinput ▸ rfl))⟩
  | ends _ _ _ hend =>
      have hcause := hend e hr
      split at hcause
      · subst hcause; cases he
      · rw [LinkError.isRecoverable_of_isBreach hcause] at he; cases he

/-- A read that fails as a misuse does, by the kind of its failure, changes nothing either. -/
theorem Outcome.unchanged_of_kind (ho : Outcome closed me (.read n) i r i') (hr : r = .error e)
    (he : e.ioKind = .invalidInput) : i' = i := by
  cases ho with
  | queued => cases hr
  | reentrant => rfl
  | unowned => rfl
  | shut => rfl
  | expelled => cases hr; cases he
  | waits => cases hr
  | stays => cases hr
  | overreads => rfl
  | ends _ _ _ _ hread =>
      have hfault := hread n e rfl hr
      cases e with
      | stream io => exact absurd he (of_decide_eq_true hfault)
      | codec => cases he
      | _ => cases hfault

/-- A thread that is kept waiting queues up for the lock or owns it. -/
theorem Outcome.attended_of_waiting (ho : Outcome closed me c i .waiting i') :
    me ∈ i'.lock.queue ∨ i'.lock.holder = some me := by
  cases ho with
  | queued => exact .inl (Lock.mem_enqueue.2 (.inr rfl))
  | waits => exact .inr rfl
  | ends _ hwait => exact absurd rfl hwait

/-- No call takes another thread out of the queue. -/
theorem Outcome.mem_queue (ho : Outcome closed me c i r i') {you : Thread} (hyou : you ≠ me)
    (hqueue : you ∈ i.lock.queue) : you ∈ i'.lock.queue := by
  cases ho with
  | queued => exact Lock.mem_enqueue.2 (.inl hqueue)
  | expelled => exact (List.mem_erase_of_ne hyou).2 hqueue
  | waits => exact (List.mem_erase_of_ne hyou).2 hqueue
  | stays => exact (List.mem_erase_of_ne hyou).2 hqueue
  | ends => exact (List.mem_erase_of_ne hyou).2 hqueue
  | _ => exact hqueue

theorem remaining_unchanged {q : Attempt LinkError Nat} (h : i.remaining closed me = (q, i'))
    (hq : ∀ e, q = .error e → e.ioKind = .invalidInput) : i' = i := by
  unfold Inbound.remaining refusal? at h
  split at h
  · rename_i hrefusal
    obtain ⟨rfl, rfl⟩ := Prod.mk.inj h
    split at hrefusal
    · cases hrefusal
      cases hq _ rfl
    · split at hrefusal
      · cases hrefusal
      · cases hrefusal
        rfl
  · exact (Prod.mk.inj h).2.symm
  · exact (Prod.mk.inj h).2.symm

/-- A thread that goes on with a read goes on with what it has asked for at first. -/
theorem read_of_isReading (hreading : i.isReading me = true) (n m : Nat) :
    i.read closed me n = i.read closed me m := by
  unfold isReading at hreading
  split at hreading
  · rename_i hheld hinput
    simp only [Inbound.read, hheld, hinput]
  · rename_i hheld hinput
    simp only [Inbound.read, hheld, hinput]
  · cases hreading

end

end Inbound

namespace Outbound

section

variable {closed : Bool} {threshold : Int32} {level : Nat} {held : Thread → Option Call} {o o' : Outbound} {me : Thread}
  {c : Call} {r : Attempt LinkError Unit} {e : LinkError}

theorem Outcome.unchanged (ho : Outcome closed threshold level me c o r o') (h : o.IsCoherent closed held)
    (hme : held me = none ∨ held me = some c) (hr : r = .error e) (he : e.isRecoverable = true) :
    o' = o ∧ e.ioKind = .invalidInput ∧ (held me = none ∨ me ∉ o.lock.queue ∧ o.lock.holder ≠ some me) := by
  cases ho with
  | reentrant hc _ hholder =>
      cases hr
      refine ⟨rfl, rfl, ?_⟩
      cases h.stance with
      | free hnone => cases hnone.symm.trans hholder
      | owned howner hheld =>
          obtain rfl := Option.some.inj (howner.symm.trans hholder)
          exact .inl hheld
      | working howner hheld =>
          obtain rfl := Option.some.inj (howner.symm.trans hholder)
          rcases hme with hnone | hsame
          · exact .inl hnone
          · cases hc.symm.trans (Option.some.inj (hsame.symm.trans hheld))
  | unowned hc _ hholder =>
      cases hr
      exact ⟨rfl, rfl, .inr ⟨h.not_mem_queue hme hc, hholder⟩⟩
  | shut => cases hr; cases he
  | expelled => cases hr; cases he
  | unfit _ _ _ _ _ hencode =>
      cases hr
      rw [LinkError.isRecoverable_of_isBreach (encodeInto_isBreach hencode)] at he
      cases he
  | sent _ _ _ _ hend =>
      rcases hend with ⟨rfl, -⟩ | ⟨io, rfl⟩
      · cases hr
      · cases hr; cases he
  | _ => cases hr

theorem Outcome.attended_of_waiting (ho : Outcome closed threshold level me c o .waiting o') :
    me ∈ o'.lock.queue ∨ o'.lock.holder = some me := by
  cases ho with
  | queued => exact .inl (Lock.mem_enqueue.2 (.inr rfl))
  | waits _ hholder => exact .inr hholder
  | sent _ _ _ _ hend => rcases hend with ⟨hend, -⟩ | ⟨io, hend⟩ <;> cases hend

theorem Outcome.mem_queue (ho : Outcome closed threshold level me c o r o') {you : Thread} (hyou : you ≠ me)
    (hqueue : you ∈ o.lock.queue) : you ∈ o'.lock.queue := by
  cases ho with
  | queued => exact Lock.mem_enqueue.2 (.inl hqueue)
  | expelled => exact (List.mem_erase_of_ne hyou).2 hqueue
  | begun => exact (List.mem_erase_of_ne hyou).2 hqueue
  | dropped => exact (List.mem_erase_of_ne hyou).2 hqueue
  | unfit => exact (List.mem_erase_of_ne hyou).2 hqueue
  | sent => exact (List.mem_erase_of_ne hyou).2 hqueue
  | _ => exact hqueue

theorem write_unchanged {bs : Bytes} (h : o.write closed me bs = (r, o')) (hr : r = .error e)
    (he : e.ioKind = .invalidInput) : o' = o := by
  unfold Outbound.write refusal? at h
  split at h
  · rename_i hrefusal
    obtain ⟨rfl, rfl⟩ := Prod.mk.inj h
    cases hr
    split at hrefusal
    · cases hrefusal
      cases he
    · split at hrefusal
      · cases hrefusal
      · cases hrefusal
        rfl
  · obtain ⟨rfl, -⟩ := Prod.mk.inj h
    cases hr

end

end Outbound

namespace Play

variable {ω κ ρ : Type} {a : Arena ω κ ρ} {stirs : ω → ω → Prop} {p q : Play ω κ ρ} {trials : List (Trial κ ρ)}

/-- What has been told before does not matter for how a play goes on. -/
theorem Course.forget (h : Course a stirs p trials q) (history : List (Event κ ρ)) :
    ∃ told, Course a stirs { p with history := history } trials { q with history := told } := by
  induction h with
  | start => exact ⟨history, .start⟩
  | @attempt trials q me c _ hallows ih =>
      obtain ⟨told, h⟩ := ih
      have hnext := h.attempt me c hallows
      refine ⟨(({ q with history := told } : Play ω κ ρ).attempt a me c).history, ?_⟩
      have hsame : { q.attempt a me c with history := (({ q with history := told } : Play ω κ ρ).attempt a me c).history } =
          ({ q with history := told } : Play ω κ ρ).attempt a me c := by
        simp only [Play.attempt, Play.after]
        cases (a.call me c q.world).1 <;> rfl
      rw [hsame]
      exact hnext
  | stir _ hstirs ih =>
      obtain ⟨told, h⟩ := ih
      exact ⟨told, h.stir hstirs⟩

end Play

namespace Link

section

variable {p q : Play Link Call Reply} {me you : Thread} {c : Call} {r : Attempt LinkError Reply} {l l' : Link}
  {e : LinkError} {way : Way} {trials : List (Trial Call Reply)}

/-- Whoever is held up is so in a call about one of the sides, and queues up for its lock or owns it. -/
def IsAttended (p : Play Link Call Reply) : Prop :=
  ∀ you c, p.held you = some c →
    ∃ way, c.way? = some way ∧ (you ∈ (p.world.lock way).queue ∨ (p.world.lock way).holder = some you)

theorem Outcome.attended_of_waiting (ho : Outcome me c l .waiting l') :
    ∃ way, c.way? = some way ∧ (me ∈ (l'.lock way).queue ∨ (l'.lock way).holder = some me) := by
  generalize hr : (.waiting : Attempt LinkError Reply) = r at ho
  cases ho with
  | inward hc ho =>
      subst hr
      exact ⟨.reading, Call.way?_of_isInward hc, ho.attended_of_waiting⟩
  | outward hc ho =>
      rename_i r o
      cases r with
      | waiting => exact ⟨.writing, Call.way?_of_writes hc, ho.attended_of_waiting⟩
      | _ => cases hr
  | @closes q hook _ _ _ => cases q <;> cases hr
  | _ => cases hr

theorem Outcome.mem_queue (ho : Outcome me c l r l') (hyou : you ≠ me) (hqueue : you ∈ (l.lock way).queue) :
    you ∈ (l'.lock way).queue := by
  cases ho with
  | inward hc ho =>
      cases way with
      | reading => exact ho.mem_queue hyou hqueue
      | writing => exact hqueue
  | outward hc ho =>
      cases way with
      | reading => exact hqueue
      | writing => exact ho.mem_queue hyou hqueue
  | closes hc hopen hhook =>
      subst hc
      have hrun : (l.call me .close).2 = { l with
          hook := l.hook.run.2, closed := true, inbound := l.inbound.close me, outbound := l.outbound.close me } := by
        simp only [call, Link.close, hopen, Bool.false_eq_true, if_false]
      rw [← Lock.queue_release (l.lock way) me, ← lock_close me hopen way, hrun] at hqueue
      cases way <;> exact hqueue
  | enabled => cases way <;> exact hqueue
  | disabled => cases way <;> exact hqueue
  | _ => exact hqueue

theorem unchanged_of_kind {n : Nat} (ho : Outcome me (.read n) l r l') (hr : r = .error e)
    (he : e.ioKind = .invalidInput) : l' = l := by
  cases ho with
  | inward hc ho => rw [ho.unchanged_of_kind hr he]
  | outward hc => cases hc
  | enabled hc => cases hc
  | disabled hc => cases hc
  | barred hc => rcases hc with hc | hc <;> cases hc
  | closes hc => cases hc
  | closedBefore hc => cases hc
  | asked hc => rcases hc with hc | hc <;> cases hc

theorem IsAttended.attempt (h : IsAttended p) (hp : IsCoherent p) (hallows : p.Allows me c) :
    IsAttended (p.attempt arena me c) := by
  have ho := hp.call_outcome hallows
  intro you c' hyou
  rw [Play.attempt_world]
  rw [Play.attempt, Play.after_held] at hyou
  show ∃ way, c'.way? = some way ∧ (you ∈ ((p.world.call me c).2.lock way).queue ∨
    ((p.world.call me c).2.lock way).holder = some you)
  by_cases hsame : you = me
  · subst hsame
    rw [Function.update_self] at hyou
    change Play.heldBy c (p.world.call you c).1 = some c' at hyou
    revert ho hyou
    generalize (p.world.call you c).1 = r
    intro ho hyou
    cases r with
    | waiting =>
        obtain rfl := Option.some.inj hyou
        exact ho.attended_of_waiting
    | _ => cases hyou
  · obtain ⟨way, hway, hattended⟩ := h you c' ((Function.update_of_ne hsame ..).symm.trans hyou)
    refine ⟨way, hway, hattended.imp (ho.mem_queue hsame) fun hholder => ?_⟩
    exact (hp.holder_call_iff hallows hsame way).2 hholder

theorem IsAttended.stir (h : IsAttended p) (hstirs : Stirs p.world l) : IsAttended { p with world := l } := by
  intro you c hyou
  obtain ⟨way, hway, hattended⟩ := h you c hyou
  refine ⟨way, hway, hattended.imp (fun hqueue => ?_) fun hholder => (hstirs.holder_lock way).trans hholder⟩
  cases hstirs with
  | source => cases way <;> exact hqueue
  | sink => cases way <;> exact hqueue
  | favour => cases way <;> exact Lock.mem_favour.2 hqueue

theorem Course.isAttended (h : Course p trials q) (hp : IsCoherent p) (hattended : IsAttended p) : IsAttended q := by
  have hall := h.keeps (I := fun _ q => IsCoherent q ∧ IsAttended q)
    (fun _ _ _ _ ⟨hq, hattended⟩ hallows => ⟨hq.attempt hallows, hattended.attempt hq hallows⟩)
    (fun _ _ _ ⟨hq, hattended⟩ hstirs => ⟨hq.stir hstirs, hattended.stir hstirs⟩) ⟨hp, hattended⟩
  exact hall.2

theorem held_eq_none (h : IsAttended p) (hallows : p.Allows me c) (hway : c.way? = some way)
    (hnot : p.held me ≠ some c ∨ me ∉ (p.world.lock way).queue ∧ (p.world.lock way).holder ≠ some me) :
    p.held me = none := by
  cases hheld : p.held me with
  | none => rfl
  | some c' =>
      obtain rfl := hallows c' hheld
      obtain ⟨hqueue, hholder⟩ := hnot.resolve_left (absurd hheld)
      obtain ⟨way', hway', hattended⟩ := h me c' hheld
      obtain rfl := Option.some.inj (hway.symm.trans hway')
      exact absurd hattended (not_or_intro hqueue hholder)

/-- A call that fails recoverably changes nothing, and its thread has not been held up in it. -/
theorem Outcome.unchanged (ho : Outcome me c l r l') (h : IsCoherent p) (hattended : IsAttended p)
    (hallows : p.Allows me c) (hl : l = p.world) (hr : r = .error e) (he : e.isRecoverable = true) :
    l' = l ∧ e.ioKind = .invalidInput ∧ p.held me = none := by
  subst hl
  cases ho with
  | inward hc ho =>
      obtain ⟨rfl, hkind, hheld⟩ := ho.unchanged h.inbound (hallows.heldAmong _) hr he
      refine ⟨rfl, hkind, held_eq_none hattended hallows (Call.way?_of_isInward hc) (hheld.imp_left fun hnone => ?_)⟩
      exact fun hsome => by cases hnone.symm.trans (Play.heldAmong_eq_some_iff.2 ⟨hsome, hc⟩)
  | @outward r o hc ho =>
      cases r with
      | error e' =>
          cases hr
          obtain ⟨rfl, hkind, hheld⟩ := ho.unchanged h.outbound (hallows.heldAmong _) rfl he
          refine ⟨rfl, hkind, held_eq_none hattended hallows (Call.way?_of_writes hc) (hheld.imp_left fun hnone => ?_)⟩
          exact fun hsome => by cases hnone.symm.trans (Play.heldAmong_eq_some_iff.2 ⟨hsome, hc⟩)
      | _ => cases hr
  | enabled => cases hr
  | disabled => cases hr
  | barred => cases hr; cases he
  | @closes q _ _ _ hhook =>
      unfold Hook.run at hhook
      split at hhook
      · obtain ⟨rfl, -⟩ := Prod.mk.inj hhook
        split at hr <;> cases hr
        cases he
      · obtain ⟨rfl, -⟩ := Prod.mk.inj hhook
        cases hr
  | closedBefore => cases hr
  | asked => cases hr

/-- A thread that is held up in a read of the payload goes on with it when it reads again. -/
theorem isReading_of_held (h : IsCoherent p) (hattended : IsAttended p) {k : Nat} (hheld : p.held me = some (.read k)) :
    p.world.inbound.isReading me = true := by
  have hme : Play.heldAmong Call.isInward p.held me = some (.read k) := Play.heldAmong_eq_some_iff.2 ⟨hheld, rfl⟩
  obtain ⟨way, hway, hqueue | hholder⟩ := hattended me _ hheld <;> cases hway
  · exact absurd hqueue (h.inbound.not_mem_queue (.inr hme) nofun)
  · have hbusy : p.world.inbound.input.isBusy = true := by
      by_contra hidle
      rw [Bool.not_eq_true] at hidle
      cases (h.inbound.held_of_idle hholder hidle).symm.trans hme
    have hworks := h.inbound.worksAt (.inr hme) hholder hbusy
    have hmine : p.world.inbound.lock.isHeldBy me = true := Lock.isHeldBy_iff.2 hholder
    unfold Inbound.isReading
    rw [hmine]
    revert hworks
    generalize p.world.inbound.input = input
    intro hworks
    cases hworks <;> rfl

/-- A read that fails as a misuse does, by the kind of its failure, changes nothing. -/
theorem IsCoherent.read_unchanged (h : IsCoherent p) (hattended : IsAttended p)
    (hreads : ∀ c, p.held me = some c → ∃ k, c = .read k) (n : Nat) (hr : (p.world.call me (.read n)).1 = .error e)
    (he : e.ioKind = .invalidInput) : (p.world.call me (.read n)).2 = p.world := by
  cases hheld : p.held me with
  | none => exact unchanged_of_kind (h.call_outcome (.of_none hheld _)) hr he
  | some c =>
      obtain ⟨k, rfl⟩ := hreads c hheld
      -- The link goes on with the read that it has been asked for before.
      have hsame : p.world.call me (.read n) = p.world.call me (.read k) := by
        simp only [call, Inbound.read_of_isReading (isReading_of_held h hattended hheld) n k]
      rw [hsame] at hr ⊢
      exact unchanged_of_kind (h.call_outcome (.of_some hheld)) hr he

theorem remaining_unchanged (l : Link) (me : Thread)
    (hr : ∀ e, (l.call me .remaining).1 = .error e → e.ioKind = .invalidInput) : (l.call me .remaining).2 = l := by
  rcases hremaining : l.inbound.remaining l.closed me with ⟨q, i⟩
  simp only [call, withInbound, hremaining] at hr ⊢
  rw [Inbound.remaining_unchanged hremaining fun e he => hr e (he ▸ rfl)]

theorem write_unchanged (l : Link) (me : Thread) (bs : Bytes) (hr : (l.call me (.write bs)).1 = .error e)
    (he : e.ioKind = .invalidInput) : (l.call me (.write bs)).2 = l := by
  rcases hwrite : l.outbound.write l.closed me bs with ⟨q, o⟩
  simp only [call, withOutbound, hwrite] at hr ⊢
  cases q with
  | error e' =>
      obtain rfl := Attempt.error.inj hr
      rw [Outbound.write_unchanged hwrite rfl he]
  | _ => cases hr

end

end Link

namespace Stack

variable {s : Stack} {me : Thread} {c : Call}

theorem modifyBase_base (s : Stack) : (s.modifyBase fun _ => s.base) = s := by
  induction s with
  | link l => rfl
  | layer y inner ih => exact congrArg (Stack.layer y) ih

/-- A call that leaves the link alone leaves its layers alone. -/
theorem call_unchanged (hc : c ≠ .close) (h : (s.base.call me c).2 = s.base) :
    s.call me c = ((s.base.call me c).1, s) := by
  rw [call_of_ne_close s me hc, h, modifyBase_base]

end Stack

/-- A failure that a view passes on is one of the link, of the same kind. -/
theorem exists_of_toIoError {α β : Type} {r : Attempt LinkError α} {f : α → β} {io : IoError}
    (h : (r.mapError LinkError.toIoError).map f = .error io) : ∃ e, r = .error e ∧ e.ioKind = io.kind := by
  cases r with
  | error e =>
      cases h
      exact ⟨e, rfl, e.kind_toIoError.symm⟩
  | _ => cases h

section

variable {p : Play Link Call Reply} {s : Stack} {me : Thread} {io : IoError}

theorem InputView.fetch_unchanged (h : Link.IsCoherent p) (hattended : Link.IsAttended p) (hs : s.base = p.world)
    (hreads : ∀ c, p.held me = some c → ∃ k, c = .read k) (n : Nat)
    (hr : ((⟨me, s⟩ : InputView).fetch n).1 = .error io) (hio : io.kind = .invalidInput) :
    ((⟨me, s⟩ : InputView).fetch n).2 = ⟨me, s⟩ := by
  have hcall := s.call_of_ne_close me (c := .read n) nofun
  simp only [fetch, hcall] at hr ⊢
  obtain ⟨e, he, hkind⟩ := exists_of_toIoError hr
  rw [hs] at he
  rw [hs, h.read_unchanged hattended hreads n he (hkind.trans hio), ← hs, Stack.modifyBase_base]

/-- So does a read of the packet as a byte stream that fails as a misuse does. -/
theorem InputView.read_unchanged (h : Link.IsCoherent p) (hattended : Link.IsAttended p) (hs : s.base = p.world)
    (hreads : ∀ c, p.held me = some c → ∃ k, c = .read k) (n : Nat)
    (hr : ((⟨me, s⟩ : InputView).read n).1 = .error io) (hio : io.kind = .invalidInput) :
    ((⟨me, s⟩ : InputView).read n).2 = ⟨me, s⟩ := by
  by_cases hreading : s.base.inbound.isReading me = true
  · simp only [InputView.read, if_pos hreading] at hr ⊢
    exact fetch_unchanged h hattended hs hreads n hr hio
  · -- To ask how much is left changes nothing, unless the link has been closed; and then the failure is of another kind.
    have hremaining := Link.remaining_unchanged s.base me
    rcases hq : s.base.call me .remaining with ⟨q, l⟩
    rw [hq] at hremaining
    have hcall : l = s.base → s.call me .remaining = (q, s) := fun heq => by
      rw [Stack.call_unchanged (c := .remaining) nofun (by rw [hq]; exact heq), hq]
    have hcall' := s.call_of_ne_close me (c := .remaining) nofun
    rw [hq] at hcall'
    cases q with
    | waiting =>
        simp only [InputView.read, if_neg hreading, hcall'] at hr
        cases hr
    | error e =>
        simp only [InputView.read, if_neg hreading, hcall'] at hr
        obtain ⟨e', he, hkind⟩ := exists_of_toIoError hr
        cases he
        simp only [InputView.read, if_neg hreading, hcall (hremaining fun _ he => by cases he; exact hkind.trans hio)]
    | ok reply =>
        simp only [InputView.read, if_neg hreading, hcall (hremaining nofun)] at hr ⊢
        cases reply with
        | count left =>
            simp only at hr ⊢
            split at hr
            · cases hr
            · rename_i hsome
              rw [if_neg hsome]
              exact fetch_unchanged h hattended hs hreads _ hr hio
        | _ => cases hr

theorem OutputView.write_unchanged (bs : Bytes) (hr : (OutputView.write ⟨me, s⟩ bs).1 = .error io)
    (hio : io.kind = .invalidInput) : (OutputView.write ⟨me, s⟩ bs).2 = ⟨me, s⟩ := by
  have hcall := s.call_of_ne_close me (c := .write bs) nofun
  simp only [OutputView.write, hcall] at hr ⊢
  obtain ⟨e, he, hkind⟩ := exists_of_toIoError hr
  rw [Link.write_unchanged s.base me bs he (hkind.trans hio), Stack.modifyBase_base]

end

namespace Link

/-- Misuse changes nothing. In every state that threads can bring a link into, whatever happens to its byte streams, let
a thread attempt a call. If this fails recoverably, the link is what it was before, and so are the calls that hold threads
up; the thread has not been kept waiting; and the ways in which threads may go on, with all that they are told, are those
in which they might have gone on without the call. The same holds for the packets as byte streams: a read or a write of
one that fails by the kind that such failures have changes nothing, in the link or in the layers around it. -/
theorem misuse_changes_nothing (settings : Settings) (hook : Hook) (src : Source) (sink : Sink)
    (trials : List (Trial Call Reply)) (p : Play Link Call Reply) (me : Thread)
    (hcourse : Course { world := new settings hook src sink } trials p) :
    (∀ c e, p.Allows me c → (p.world.call me c).1 = .error e → e.isRecoverable = true →
      (p.world.call me c).2 = p.world ∧ p.held me = none ∧ e.toIoError.kind = .invalidInput ∧
        (p.attempt arena me c).held = p.held ∧
        ∀ after l held, (∃ told, Course (p.attempt arena me c) after ⟨l, held, told⟩) ↔
          ∃ told, Course p after ⟨l, held, told⟩) ∧
    ∀ s : Stack, s.base = p.world →
      (∀ n io, (∀ c, p.held me = some c → ∃ k, c = .read k) → ((⟨me, s⟩ : InputView).read n).1 = .error io →
        io.kind = .invalidInput → ((⟨me, s⟩ : InputView).read n).2 = ⟨me, s⟩) ∧
      ∀ bs io, (OutputView.write ⟨me, s⟩ bs).1 = .error io → io.kind = .invalidInput →
        (OutputView.write ⟨me, s⟩ bs).2 = ⟨me, s⟩ := by
  have hcoherent := hcourse.isCoherent (isCoherent_new settings hook src sink)
  have hattended : IsAttended p := hcourse.isAttended (isCoherent_new settings hook src sink) fun _ _ => nofun
  refine ⟨fun c e hallows hr he => ?_, fun s hs => ⟨fun n io hreads => ?_, fun bs io => OutputView.write_unchanged bs⟩⟩
  · obtain ⟨hsame, hkind, hme⟩ := (hcoherent.call_outcome hallows).unchanged hcoherent hattended hallows rfl hr he
    have hattempt : p.attempt arena me c = { p with history := p.history ++ [⟨me, c, .error e⟩] } := by
      rw [Play.attempt_of_error hr]
      show (⟨(p.world.call me c).2, _, _⟩ : Play Link Call Reply) = _
      rw [hsame, ← hme, Function.update_eq_self]
    rw [hattempt]
    refine ⟨hsame, hme, e.kind_toIoError.trans hkind, rfl, fun after l held => ⟨fun ⟨told, h⟩ => ?_, fun ⟨told, h⟩ => ?_⟩⟩
    · exact Play.Course.forget h p.history
    · exact Play.Course.forget h _
  · exact InputView.read_unchanged hcoherent hattended hs hreads n

/-- Thread 0 has read one byte of a compressed packet and asks for more than are left, with another thread in the queue
behind it; thread 2, which is in the middle of a packet of its own, begins another one, and reads from a packet that it
has not begun. Thread 0 then reads the rest. -/
theorem misuse_changes_nothing_in_packet :
    let src : Source :=
      { items := [.data [0, 0, 0, 7, 0, 0, 0, 9, 0, 0, 0, 4, 1, 4, 0, 251, 255, 1, 1, 2, 3]] }
    let p := Play.run arena (new {} {} src {})
      [.call 0 .beginRead, .call 0 (.read 1), .call 1 .beginRead, .call 2 (.beginWrite 5), .call 2 (.write [9])]
    p.held 1 = some .beginRead ∧
      p.world.call 0 (.read 4) = (.error (.overread 4 3), p.world) ∧
      p.world.call 2 (.beginWrite 6) = (.error (.reentrancy "begin_write"), p.world) ∧
      (InputView.read ⟨2, .link p.world⟩ 1).2 = ⟨2, .link p.world⟩ ∧
      ((p.attempt arena 0 (.read 4)).world.call 0 (.read 3)).1 = .ok (.bytes [1, 2, 3]) := by
  intro src p
  have hcourse : Course { world := new {} {} src {} } _ p := course_run (new {} {} src {}) _
  have hheld : p.held 0 = none ∧ p.held 1 = some .beginRead ∧ p.held 2 = none := by decide +kernel
  have hover : (p.world.call 0 (.read 4)).1 = .error (.overread 4 3) := by decide +kernel
  have hnested : (p.world.call 2 (.beginWrite 6)).1 = .error (.reentrancy "begin_write") := by decide +kernel
  have hidle : ((⟨2, .link p.world⟩ : InputView).read 1).1 =
      .error (LinkError.protocolState "remaining" "read").toIoError := by decide +kernel
  have hrest : ((p.attempt arena 0 (.read 4)).world.call 0 (.read 3)).1 = .ok (.bytes [1, 2, 3]) := by decide +kernel
  clear_value p
  obtain ⟨hreader, hwaiter, hwriter⟩ := hheld
  obtain ⟨hread, -⟩ := misuse_changes_nothing {} {} src {} _ p 0 hcourse
  obtain ⟨hwrite, hview⟩ := misuse_changes_nothing {} {} src {} _ p 2 hcourse
  refine ⟨hwaiter, Prod.ext hover (hread (.read 4) _ (.of_none hreader _) hover rfl).1,
    Prod.ext hnested (hwrite (.beginWrite 6) _ (.of_none hwriter _) hnested rfl).1, ?_, hrest⟩
  exact (hview (.link p.world) rfl).1 1 _ (fun c hc => nomatch hwriter.symm.trans hc) hidle rfl

end Link

end FrameLink
