import FrameLink.Proofs.Coherence
import FrameLink.Proofs.Joining
import FrameLink.Proofs.Sending

/-! A reading side whose source gets nothing more. A thread that waited for a header when the source ended is held up in
the middle of opening a packet until it goes on; everybody else queues up behind it, and all that was in the source is
still there. On the other end there is a link that has been closed, which sends nothing any more. -/

namespace FrameLink

theorem Readings.noteAttempt_of_idle {s : Readings} {me : Thread} {c : Call} {r : Attempt LinkError Reply}
    (hcurrent : s.current = none) (hc : c = .beginRead → r = .waiting) : s.noteAttempt me c r = s := by
  cases r with
  | waiting => rfl
  | error e => cases c <;> simp only [noteAttempt, Attempt.result?, note, hcurrent]
  | ok reply =>
      cases c with
      | beginRead => cases hc rfl
      | read n => cases reply <;> simp only [noteAttempt, Attempt.result?, note, hcurrent]
      | _ => simp only [noteAttempt, Attempt.result?, note, hcurrent]

theorem Writings.sent_noteAttempt {s : Writings} {me : Thread} {c : Call} {r : Attempt LinkError Reply}
    (hr : ∀ reply, r ≠ .ok reply) : (s.noteAttempt me c r).sent = s.sent := by
  cases r with
  | ok reply => exact absurd rfl (hr reply)
  | waiting => rfl
  | error e =>
      cases hcurrent : s.current with
      | none => cases c <;> simp only [noteAttempt, Attempt.result?, note, hcurrent]
      | some current =>
          cases c with
          | endWrite =>
              simp only [noteAttempt, Attempt.result?, note, hcurrent]
              split <;> rfl
          | _ => simp only [noteAttempt, Attempt.result?, note]

namespace Inbound

/-- The reading side has been given all of these parcels, and its source has ended since: it stands aligned to them, or a
thread is still held up that waited for a header. -/
inductive Drains (limit : Option Nat) (ps : List Parcel) (held : Thread → Option Call) (i : Inbound) (seen : Readings) :
    Prop where
  | aligned (h : i.IsAligned limit false ps held seen)
  | stranded {behind ahead : List Parcel} {owner : Thread} (hsound : ∀ p ∈ ps, p.IsSound limit)
      (hsmooth : i.source.IsSmooth) (hended : i.source.live = false) (hps : ps = behind ++ ahead)
      (htold : List.Forall₂ Parcel.IsToldBy behind seen.finished) (hcurrent : seen.current = none)
      (hholder : i.lock.holder = some owner) (hheld : held owner = some .beginRead) (hinput : i.input = .opening [])
      (hdata : i.source.data = Parcel.wires ahead)

/-- Whether a thread that begins to read gets on: it has the lock, or may take it. -/
def HasTurn (i : Inbound) (me : Thread) : Prop :=
  i.lock.holder = some me ∨ i.lock.isFreeFor me = true

section

variable {limit : Option Nat} {ps : List Parcel} {held held' : Thread → Option Call} {i i' : Inbound}
  {seen : Readings} {me owner : Thread}

/-- Who does not get on waits for the lock. -/
theorem begin_of_not_hasTurn (hturn : ¬ i.HasTurn me) : (i.begin false limit me).1 = .waiting := by
  obtain ⟨hholder, hfree⟩ := not_or.1 hturn
  exact begin_of_not_isFreeFor hholder (Bool.eq_false_iff.2 hfree)

/-- When its source ends, an aligned reading side keeps what is in it. -/
theorem IsAligned.drains {live : Bool} (h : IsAligned limit live ps held i seen) {src : Source} (hsmooth : src.IsSmooth)
    (hended : src.live = false) (hdata : src.data = i.source.data) :
    Drains limit ps held { i with source := src } seen := by
  cases h.standing with
  | between hps htold hcurrent hholder hinput hahead =>
      exact .aligned ⟨h.sound, hsmooth, hended, .between hps htold hcurrent hholder hinput (hdata.trans hahead)⟩
  | opening hps htold hcurrent hholder hheld hinput hahead _ =>
      exact .stranded h.sound hsmooth hended hps htold hcurrent hholder hheld hinput (hdata.trans hahead)
  | within hps htold hcurrent hsequence hholder hinput hstands hahead =>
      have hnothing : src.data = i.source.data ++ [] := hdata.trans (List.append_nil _).symm
      refine .aligned ⟨h.sound, hsmooth, hended, .within hps htold hcurrent hsequence hholder hinput
        (hstands.extend hsmooth hnothing) ?_⟩
      show src.data.drop _ = _
      rw [hdata, hahead]

namespace Drains

theorem of_source (h : Drains limit ps held i seen) {src : Source} (hsmooth : src.IsSmooth) (hended : src.live = false)
    (hdata : src.data = i.source.data) : Drains limit ps held { i with source := src } seen := by
  cases h with
  | aligned h => exact h.drains hsmooth hended hdata
  | stranded hsound _ _ hps htold hcurrent hholder hheld hinput hahead =>
      exact .stranded hsound hsmooth hended hps htold hcurrent hholder hheld hinput (hdata.trans hahead)

theorem congr (h : Drains limit ps held i seen) (hsource : i'.source = i.source) (hinput' : i'.input = i.input)
    (hholder' : i'.lock.holder = i.lock.holder)
    (hheld' : ∀ owner, i.lock.holder = some owner → i.input = .opening [] → held' owner = held owner) :
    Drains limit ps held' i' seen := by
  cases h with
  | aligned h => exact .aligned (h.congr hsource hinput' hholder' hheld')
  | stranded hsound hsmooth hended hps htold hcurrent hholder hheld hinput hdata =>
      exact .stranded hsound (hsource ▸ hsmooth) (hsource ▸ hended) hps htold hcurrent (hholder'.trans hholder)
        ((hheld' _ hholder hinput).trans hheld) (hinput'.trans hinput) (hsource ▸ hdata)

theorem held_of_opening (h : Drains limit ps held i seen) (hholder : i.lock.holder = some owner)
    (hinput : i.input = .opening []) : held owner = some .beginRead := by
  cases h with
  | aligned h => exact h.held_of_opening hholder hinput
  | stranded _ _ _ _ _ _ howner hheld _ _ =>
      obtain rfl := Option.some.inj (howner.symm.trans hholder)
      exact hheld

/-- A thread that has an open transaction finds everything aligned. -/
theorem aligned_of_current (h : Drains limit ps held i seen) {d : Delivery} (hcurrent : seen.current = some (me, d)) :
    i.IsAligned limit false ps held seen := by
  cases h with
  | aligned h => exact h
  | stranded _ _ _ _ _ hnone => cases hnone.symm.trans hcurrent

theorem told (h : Drains limit ps held i seen) :
    List.Forall₂ Parcel.IsToldBy (ps.take seen.begun.length) seen.begun := by
  cases h with
  | aligned h => exact h.standing.told
  | stranded _ _ _ hps htold hcurrent => exact hps ▸ told_of_idle htold hcurrent

/-- Outside of a transaction, whoever has got on begins where the parcels stand that have not been opened. -/
theorem begin_of_hasTurn (h : Drains limit ps held i seen) (hcurrent : seen.current = none) (hturn : i.HasTurn me) :
    ∃ (lock : Lock) (behind ahead : List Parcel),
      i.begin false limit me = { i with lock := lock }.openPacket false limit me [] ∧ lock.holder = some me ∧
      i.source.IsSmooth ∧ i.source.live = false ∧ (∀ p ∈ ps, p.IsSound limit) ∧ ps = behind ++ ahead ∧
      behind.length = seen.begun.length ∧ i.source.data = Parcel.wires ahead := by
  have hbegun : seen.begun = seen.finished := by
    rw [Readings.begun, hcurrent]
    exact List.append_nil _
  rw [hbegun]
  cases h with
  | aligned h =>
      cases h.standing with
      | within _ _ hsome => cases hsome.symm.trans hcurrent
      | opening _ _ _ _ _ _ _ hmore => cases h.live.symm.trans hmore
      | between hps htold _ hholder hinput hdata =>
          have hfree : i.lock.isFreeFor me = true := hturn.resolve_left fun hme => by cases hholder.symm.trans hme
          exact ⟨i.lock.taken me, _, _, begin_of_isFreeFor hfree, rfl, h.smooth, h.live, h.sound, hps, htold.length_eq,
            hdata⟩
  | @stranded behind ahead owner hsound hsmooth hended hps htold _ hholder hheld hinput hdata =>
      have hme : i.lock.holder = some me := hturn.resolve_right fun hfree => by
        cases hholder.symm.trans (Lock.holder_of_isFreeFor hfree)
      exact ⟨i.lock, behind, ahead, begin_of_opening hme hinput, hme, hsmooth, hended, hsound, hps, htold.length_eq, hdata⟩

/-- Whoever gets on is answered the next packet, or told the end of the stream and rid of the lock. -/
theorem begin_answer (h : Drains limit ps held i seen) (hcurrent : seen.current = none) (hturn : i.HasTurn me) :
    (i.begin false limit me).1 = nextAnswer false ps seen.begun.length ∧
      ∀ e, (i.begin false limit me).1 = .error e → (i.begin false limit me).2.lock.holder = none := by
  obtain ⟨lock, behind, ahead, hbegin, hholder, hsmooth, hended, hsound, rfl, hbehind, hdata⟩ :=
    h.begin_of_hasTurn hcurrent hturn
  have hanswer := openPacket_answer (i := { i with lock := lock }) hsound hsmooth hholder hdata
  rw [hended, hbehind] at hanswer
  rw [hbegin]
  refine ⟨hanswer, fun e he => ?_⟩
  cases ahead with
  | nil =>
      obtain ⟨src, heq, -⟩ := openPacket_nil (i := { i with lock := lock }) limit hsmooth hdata hholder
      rw [heq, if_neg (by rw [hended]; exact Bool.false_ne_true)]
  | cons p ahead =>
      obtain ⟨src, heq, -⟩ := openPacket_wire (i := { i with lock := lock }) me
        (hsound p (List.mem_append_right _ List.mem_cons_self)) hsmooth hdata
      rw [heq] at he
      cases he

/-- Outside of a transaction the lock is free, or its owner is held up in beginning one. -/
theorem holder_of_current (h : Drains limit ps held i seen) (hcurrent : seen.current = none) :
    i.lock.holder = none ∨ ∃ owner, i.lock.holder = some owner ∧ held owner = some .beginRead := by
  cases h with
  | aligned h =>
      cases h.standing with
      | within _ _ hsome => cases hsome.symm.trans hcurrent
      | opening _ _ _ _ _ _ _ hmore => cases h.live.symm.trans hmore
      | between _ _ _ hholder => exact .inl hholder
  | stranded _ _ _ _ _ _ hholder hheld => exact .inr ⟨_, hholder, hheld⟩

end Drains

end

end Inbound

namespace Link

section

variable {l : Link} {me owner : Thread} {c : Call}

/-- On an open link, a call beside the owner of the lock leaves the reading side alone, but for the queue. -/
theorem call_beside (hclosed : l.closed = false) (hc : c ≠ .close) (hholder : l.inbound.lock.holder = some owner)
    (hme : owner ≠ me) :
    (∃ lock, (l.call me c).2.inbound = { l.inbound with lock := lock } ∧ lock.holder = some owner) ∧
      (c = .beginRead → (l.call me c).1 = .waiting) := by
  have hnot : l.inbound.lock.holder ≠ some me := fun h => hme (Option.some.inj (hholder.symm.trans h))
  have hacquire : l.inbound.lock.acquire me "begin_read" = _ := Lock.acquire_of_other hholder hme
  have hbegin : l.inbound.begin false l.settings.limit me = _ :=
    Inbound.begin_of_acquire (fun h => absurd h hnot) hacquire
  constructor
  · cases c with
    | close => exact absurd rfl hc
    | beginRead =>
        simp only [call, withInbound, hclosed, hbegin]
        exact ⟨_, rfl, hholder⟩
    | read n =>
        simp only [call, withInbound, hclosed, Inbound.read_of_not_holder hnot]
        exact ⟨_, rfl, hholder⟩
    | endRead =>
        simp only [call, withInbound, hclosed, Inbound.finish_of_not_holder hnot]
        exact ⟨_, rfl, hholder⟩
    | _ =>
        rw [call_inbound hclosed hc rfl]
        exact ⟨_, rfl, hholder⟩
  · rintro rfl
    rw [call_beginRead_fst hclosed, hbegin]
    rfl

/-- A call on an open link that does not close it leaves what is in its source there, or takes it from there in order. -/
theorem call_drains {ps : List Parcel} {held held' : Thread → Option Call} {seen : Readings} (hclosed : l.closed = false)
    (hc : c ≠ .close) (h : l.inbound.Drains l.settings.limit ps held seen) (hme : ∀ c', held me = some c' → c' = c)
    (hholds : Inbound.Holds held held' me c (l.call me c).1) :
    (l.call me c).2.inbound.Drains l.settings.limit ps held' (seen.noteAttempt me c (l.call me c).1) := by
  cases h with
  | aligned h => exact .aligned (call_isAligned hclosed hc h hme hholds)
  | stranded hsound hsmooth hended hps htold hcurrent hholder hheld hinput hdata =>
      rename_i behind ahead owner
      by_cases howner : owner = me
      · subst howner
        obtain rfl := hme _ hheld
        simp only [call, withInbound, hclosed, Inbound.begin_of_opening hholder hinput] at hholds ⊢
        subst hps
        exact .aligned (Inbound.IsAligned.openPacket hsound hsmooth hended htold hcurrent hholder hdata rfl
          fun hr => hholds.self (by rw [hr]; rfl))
      · obtain ⟨⟨lock, hinbound, hlock⟩, hwaits⟩ := call_beside hclosed hc hholder howner
        rw [Readings.noteAttempt_of_idle hcurrent hwaits, hinbound]
        exact .stranded hsound hsmooth hended hps htold hcurrent hlock ((hholds.others owner howner).trans hheld) hinput
          hdata

/-- A closed link that is not sending sends nothing any more, and tells of nothing sent. -/
theorem call_outbound_of_closed (me : Thread) (c : Call) (hclosed : l.closed = true) (hidle : l.outbound.sending = none) :
    (l.call me c).2.outbound.sending = none ∧ (l.call me c).2.outbound.sink = l.outbound.sink ∧
      (c.writes = true → ∀ reply, (l.call me c).1 ≠ .ok reply) := by
  have hrefused : ∀ operation, l.outbound.refusal? true me operation = some (.closed, l.outbound.release me) :=
    fun _ => rfl
  cases c with
  | close =>
      simp only [call, Link.close, hclosed, if_true]
      exact ⟨hidle, trivial, fun h => by cases h⟩
  | beginWrite n =>
      simp only [call, withOutbound, hclosed, Outbound.begin, Bool.true_and]
      split
      · exact ⟨hidle, rfl, fun _ _ h => by cases h⟩
      · rcases l.outbound.lock.acquire me "begin_write" with ⟨q, lock⟩
        cases q <;> exact ⟨hidle, rfl, fun _ _ h => by cases h⟩
  | write bs =>
      simp only [call, withOutbound, hclosed, Outbound.write, hrefused]
      exact ⟨hidle, rfl, fun _ _ h => by cases h⟩
  | restartWrite =>
      simp only [call, withOutbound, hclosed, Outbound.restart, hrefused]
      exact ⟨hidle, rfl, fun _ _ h => by cases h⟩
  | cancelWrite =>
      simp only [call, withOutbound, hclosed, Outbound.cancel, hrefused]
      exact ⟨hidle, rfl, fun _ _ h => by cases h⟩
  | endWrite =>
      have hfinish : l.outbound.finish true l.threshold l.settings.level me = (.error .closed, l.outbound.release me) := by
        simp only [Outbound.finish, hidle, hrefused]
        cases l.outbound.lock.isHeldBy me <;> rfl
      simp only [call, withOutbound, hclosed, hfinish]
      exact ⟨hidle, rfl, fun _ _ h => by cases h⟩
  | _ =>
      rw [call_outbound l me (by simp) rfl]
      exact ⟨hidle, rfl, fun h => by cases h⟩

end

end Link

end FrameLink
