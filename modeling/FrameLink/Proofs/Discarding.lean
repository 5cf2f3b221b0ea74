import FrameLink.Proofs.Ownership
import FrameLink.Proofs.Resting

/-! What is left of a link that has been closed. Closing waits for nobody: a call that is at work on one side keeps this
side until it is answered, and throws it away then, whatever the byte streams do meanwhile. A thread that was about to
begin is told that the link is closed, and so is every call that is made later, which touches neither the byte streams
nor, in the end, any lock. -/

namespace FrameLink

/-- Whether the call begins a transaction. -/
def Call.begins : Call → Bool
  | .beginRead | .beginWrite _ => true
  | _ => false

theorem Call.eq_beginRead {c : Call} (hc : c.begins = true) (hinward : c.isInward = true) : c = .beginRead := by
  cases c with
  | beginRead => rfl
  | beginWrite n => cases hinward
  | _ => cases hc

theorem Call.exists_eq_beginWrite {c : Call} (hc : c.begins = true) (hwrites : c.writes = true) :
    ∃ n, c = .beginWrite n := by
  cases c with
  | beginWrite n => exact ⟨n, rfl⟩
  | beginRead => cases hwrites
  | _ => cases hc

namespace Inbound

section

variable {held : Thread → Option Call} {i i' : Inbound} {me : Thread} {c : Call} {r : Attempt LinkError Reply}

/-- On a closed link nobody begins to read: who is not kept waiting is told so, and does not keep the lock. -/
theorem Outcome.begin_of_closed (ho : Outcome true me .beginRead i r i') :
    (r = .waiting ∨ r = .error .closed ∧ i'.lock.holder ≠ some me) ∧
      (i.lock.isFreeFor me = true → r = .error .closed ∧ i'.lock.holder = none) := by
  cases ho with
  | queued _ _ hfree _ => exact ⟨.inl rfl, fun hnot => absurd (hfree.symm.trans hnot) Bool.false_ne_true⟩
  | reentrant _ hopen _ _ => cases hopen
  | unowned hc _ _ => exact absurd rfl hc
  | shut _ hholder _ => exact ⟨.inr ⟨rfl, hholder⟩, fun hfree => ⟨rfl, Lock.holder_of_isFreeFor hfree⟩⟩
  | expelled _ _ _ => exact ⟨.inr ⟨rfl, nofun⟩, fun _ => ⟨rfl, rfl⟩⟩
  | waits hmine _ =>
      refine ⟨.inl rfl, fun hfree => ?_⟩
      cases hmine with
      | owner hholder _ => cases (Lock.holder_of_isFreeFor hfree).symm.trans hholder
      | begins _ hopen _ => cases hopen
  | stays _ _ hopen => cases hopen rfl
  | overreads hc => cases hc
  | ends _ hwait hc hr =>
      have hclosed : r = .error .closed := by
        cases r with
        | ok reply => cases hc reply rfl
        | error e => exact congrArg _ ((if_pos ⟨rfl, rfl⟩).mp (hr e rfl))
        | waiting => exact absurd rfl hwait
      exact ⟨.inr ⟨hclosed, nofun⟩, fun _ => ⟨hclosed, rfl⟩⟩

/-- Whatever the source delivers of the header, it is not opened once the link is closed. -/
theorem begin_of_received (limit : Option Nat) (hholder : i.lock.holder = some me) {got : Bytes}
    (hinput : i.input = .opening got) (hreceived : (Header.receive limit got i.source).1 ≠ .waiting) :
    (i.begin true limit me).1 = .error .closed := by
  simp only [Inbound.begin, Lock.isHeldBy_iff.2 hholder, hinput]
  rcases hreceive : Header.receive limit got i.source with ⟨q, got', src⟩
  rw [hreceive] at hreceived
  cases q with
  | ok header => simp only [openPacket, hreceive, if_true]
  | error e => simp only [openPacket, hreceive, if_true]
  | waiting => exact absurd rfl hreceived

/-- A thread that is in no call about a closed link's reading side does not go on there. -/
theorem IsCoherent.not_engages (h : i.IsCoherent true held) (hme : held me = none) : ¬ i.Engages true me c := by
  rintro (⟨hholder, hworks⟩ | ⟨_, hopen, _⟩)
  · cases h.stance with
    | free hnone _ => cases hnone.symm.trans hholder
    | owned _ _ hinput =>
        have hbusy := (hworks rfl).isBusy
        rw [hinput] at hbusy
        cases hbusy
    | working howner hheld _ =>
        obtain rfl := Option.some.inj (howner.symm.trans hholder)
        cases hheld.symm.trans hme
  · cases hopen

theorem Outcome.fresh_of_closed (ho : Outcome true me c i r i') (h : i.IsCoherent true held) (hme : held me = none) :
    r = .error .closed ∧ i'.lock.holder ≠ some me ∧ i'.source = i.source := by
  cases ho with
  | queued _ _ _ hqueue => cases (h.orderly.waits me (hqueue rfl)).symm.trans hme
  | reentrant _ hopen _ _ => cases hopen
  | unowned _ hopen _ => cases hopen
  | shut _ hholder _ => exact ⟨rfl, hholder, rfl⟩
  | expelled _ _ _ => exact ⟨rfl, nofun, rfl⟩
  | waits hmine _ => exact absurd hmine (h.not_engages hme)
  | stays hmine _ _ => exact absurd hmine (h.not_engages hme)
  | overreads _ hopen => cases hopen
  | ends hmine _ _ _ => exact absurd hmine (h.not_engages hme)

/-- The input of a closed link is gone, unless a call is at work on it. -/
theorem IsCoherent.gone_or_busy (h : i.IsCoherent true held) : i.input = .gone ∨ i.input.isBusy = true := by
  cases h.stance with
  | free _ hinput => exact .inl hinput
  | owned _ _ hinput => exact .inl hinput
  | working _ _ hworks => exact .inr hworks.isBusy

end

end Inbound

namespace Outbound

section

variable {threshold : Int32} {level : Nat} {held : Thread → Option Call} {o o' : Outbound} {me : Thread} {c : Call}
  {r : Attempt LinkError Unit}

/-- On a closed link nobody begins to write. -/
theorem Outcome.begin_of_closed {n : Int32} (ho : Outcome true threshold level me (.beginWrite n) o r o') :
    (r = .waiting ∨ r = .error .closed ∧ o'.lock.holder ≠ some me) ∧
      (o.lock.isFreeFor me = true → r = .error .closed ∧ o'.lock.holder = none) := by
  cases ho with
  | queued _ _ hfree _ => exact ⟨.inl rfl, fun hnot => absurd (hfree.symm.trans hnot) Bool.false_ne_true⟩
  | reentrant _ hopen _ => cases hopen
  | unowned hc _ _ => exact absurd rfl (hc n)
  | shut _ hholder _ => exact ⟨.inr ⟨rfl, hholder⟩, fun hfree => ⟨rfl, Lock.holder_of_isFreeFor hfree⟩⟩
  | expelled _ _ _ => exact ⟨.inr ⟨rfl, nofun⟩, fun _ => ⟨rfl, rfl⟩⟩
  | begun _ hopen _ _ => cases hopen
  | added hc _ _ _ => cases hc
  | restarted hc _ _ _ => cases hc
  | dropped hc _ _ _ => rcases hc with hc | ⟨hc, -⟩ <;> cases hc
  | unfit hc _ _ _ _ _ => cases hc
  | waits hc _ _ _ => cases hc
  | sent hc _ _ _ _ => cases hc

/-- A thread that is in no call about a closed link's writing side has nothing to send. -/
theorem IsCoherent.not_posts (h : o.IsCoherent true held) (hme : held me = none) (hholder : o.lock.holder = some me)
    (left : Bytes) : ¬ Posts true threshold level o left := by
  rintro (⟨hopen, _, _, _⟩ | hsending)
  · cases hopen
  · cases h.stance with
    | free hnone _ _ => cases hnone.symm.trans hholder
    | owned _ _ hidle => cases hidle.symm.trans hsending
    | working howner hheld _ =>
        obtain rfl := Option.some.inj (howner.symm.trans hholder)
        cases hheld.symm.trans hme

theorem Outcome.fresh_of_closed (ho : Outcome true threshold level me c o r o') (h : o.IsCoherent true held)
    (hme : held me = none) : r = .error .closed ∧ o'.lock.holder ≠ some me ∧ o'.sink = o.sink := by
  cases ho with
  | queued _ _ _ hqueue =>
      obtain ⟨n, hbegin⟩ := h.orderly.waits me (hqueue rfl)
      cases hbegin.symm.trans hme
  | reentrant _ hopen _ => cases hopen
  | unowned _ hopen _ => cases hopen
  | shut _ hholder _ => exact ⟨rfl, hholder, rfl⟩
  | expelled _ _ _ => exact ⟨rfl, nofun, rfl⟩
  | begun _ hopen _ _ => cases hopen
  | added _ hopen _ _ => cases hopen
  | restarted _ hopen _ _ => cases hopen
  | dropped _ hopen _ _ => cases hopen
  | unfit _ hopen _ _ _ _ => cases hopen
  | waits _ hholder hposts _ => exact absurd hposts (h.not_posts hme hholder _)
  | sent _ hholder hposts _ _ => exact absurd hposts (h.not_posts hme hholder _)

/-- With no call at work on it, nothing is left of the writing side of a closed link. -/
theorem IsCoherent.discarded_at_rest (h : o.IsCoherent true (Play.heldAmong Call.writes held))
    (hrest : o.lock.RestsFrom Call.writes held) : o.present = false ∧ o.buffer = [] ∧ o.frame = [] := by
  have hidle := (h.at_rest hrest).1
  refine ⟨?_, h.discarded rfl hidle⟩
  rw [h.present, hidle]
  rfl

end

end Outbound

namespace Link

section

variable {p q : Play Link Call Reply} {me : Thread} {c : Call} {r : Attempt LinkError Reply} {l l' : Link}
  {trials : List (Trial Call Reply)}

/-- A call that is made on a closed link is told so, keeps no lock and touches neither byte stream. -/
theorem IsCoherent.fresh_of_closed (h : IsCoherent p) (hclosed : p.world.closed = true) (hme : p.held me = none)
    (hclose : c ≠ .close) (hasked : c ≠ .isClosed ∧ c ≠ .isCompressionEnabled) :
    (p.world.call me c).1 = .error .closed ∧
      (∀ way, c.way? = some way → ((p.world.call me c).2.lock way).holder ≠ some me) ∧
      (p.world.call me c).2.inbound.source = p.world.inbound.source ∧
      (p.world.call me c).2.outbound.sink = p.world.outbound.sink := by
  have ho := h.call_outcome (.of_none hme c)
  have hnone : ∀ kind, Play.heldAmong kind p.held me = none := fun kind => Play.heldAmong_of_none kind hme
  have hinbound := h.inbound
  have houtbound := h.outbound
  rw [hclosed] at hinbound houtbound
  revert ho
  generalize (p.world.call me c).1 = r
  generalize (p.world.call me c).2 = l'
  intro ho
  cases ho with
  | inward hc ho =>
      rw [hclosed] at ho
      obtain ⟨hr, hholder, hsource⟩ := ho.fresh_of_closed hinbound (hnone _)
      refine ⟨hr, fun way hway => ?_, hsource, rfl⟩
      obtain rfl := Option.some.inj ((Call.way?_of_isInward hc).symm.trans hway)
      exact hholder
  | outward hc ho =>
      rw [hclosed] at ho
      obtain ⟨rfl, hholder, hsink⟩ := ho.fresh_of_closed houtbound (hnone _)
      refine ⟨rfl, fun way hway => ?_, rfl, hsink⟩
      obtain rfl := Option.some.inj ((Call.way?_of_writes hc).symm.trans hway)
      exact hholder
  | enabled _ hopen _ => cases hclosed.symm.trans hopen
  | disabled _ hopen => cases hclosed.symm.trans hopen
  | barred hc _ =>
      refine ⟨rfl, fun way hway => ?_, rfl, rfl⟩
      rcases hc with rfl | rfl <;> cases hway
  | closes hc _ _ => exact absurd hc hclose
  | closedBefore hc _ => exact absurd hc hclose
  | asked hc => exact (hc.elim hasked.2 hasked.1).elim

theorem Outcome.begin_of_closed (ho : Outcome me c l r l') (hclosed : l.closed = true) (hc : c.begins = true)
    {way : Way} (hway : c.way? = some way) : (r = .waiting ∨ r = .error .closed ∧ (l'.lock way).holder ≠ some me) ∧
      ((l.lock way).isFreeFor me = true → r = .error .closed ∧ (l'.lock way).holder = none) := by
  cases ho with
  | inward hinward ho =>
      obtain rfl := Option.some.inj ((Call.way?_of_isInward hinward).symm.trans hway)
      rw [hclosed, Call.eq_beginRead hc hinward] at ho
      exact ho.begin_of_closed
  | outward hwrites ho =>
      rename_i q o
      obtain rfl := Option.some.inj ((Call.way?_of_writes hwrites).symm.trans hway)
      obtain ⟨n, rfl⟩ := Call.exists_eq_beginWrite hc hwrites
      rw [hclosed] at ho
      obtain ⟨hkept, hfree⟩ := ho.begin_of_closed
      refine ⟨?_, fun hlock => ?_⟩
      · rcases hkept with rfl | ⟨rfl, hholder⟩
        · exact .inl rfl
        · exact .inr ⟨rfl, hholder⟩
      · obtain ⟨rfl, hholder⟩ := hfree hlock
        exact ⟨rfl, hholder⟩
  | enabled henable _ _ => subst henable; cases hway
  | disabled hdisable _ => subst hdisable; cases hway
  | barred hbarred _ => rcases hbarred with rfl | rfl <;> cases hway
  | closes hclose _ _ => subst hclose; cases hway
  | closedBefore hclose _ => subst hclose; cases hway
  | asked hask => rcases hask with rfl | rfl <;> cases hway

/-- What is done to the byte streams when a link is closed is done once. -/
theorem Course.hook {hook : Hook} (h : Course p trials q)
    (hp : p.world.hook = if p.world.closed then hook.run.2 else hook) :
    q.world.hook = if q.world.closed then hook.run.2 else hook := by
  refine h.keeps (I := fun _ q => q.world.hook = if q.world.closed then hook.run.2 else hook) ?_ ?_ hp
  · intro _ q me c hq _
    rw [Play.attempt_world]
    show (q.world.call me c).2.hook = if (q.world.call me c).2.closed then _ else _
    by_cases hc : c = .close
    · subst hc
      cases hclosed : q.world.closed with
      | true => simpa only [call, Link.close, hclosed, if_true] using hq
      | false =>
          simp only [hclosed, Bool.false_eq_true, if_false] at hq
          simp only [call, Link.close, hclosed, Bool.false_eq_true, if_false, if_true, hq]
    · obtain ⟨hclosed, -, -, hhook⟩ := call_frame q.world me hc
      rw [hclosed, hhook]
      exact hq
  · intro _ q l hq hstirs
    cases hstirs <;> exact hq

/-- Closing discards a link once, whoever is in a call. Let threads bring a link into any state, with any calls held up,
let one of them close it then, and let them and the byte streams go on in any way. The link is closed, and what is done
to the byte streams at closing has been done once. A call to begin that is held up, in the header or before the lock, is
kept waiting or told that the link is closed, and does not keep the lock; it is told so as soon as the lock is free for
it, or as soon as the source has delivered the header or failed. The input is gone unless a call is at work on it, and no
such call brings it back; with no call at work, the input, the sink and what both buffers held are gone. Every other call
made then is told that the link is closed, does not leave its thread with the lock, and touches neither byte stream.
Closing again succeeds and changes nothing. -/
theorem discarded_once_closed (settings : Settings) (hook : Hook) (src : Source) (sink : Sink)
    (trials after : List (Trial Call Reply)) (p q : Play Link Call Reply) (closer : Thread)
    (hcourse : Course { world := new settings hook src sink } trials p) (hallows : p.Allows closer .close)
    (hafter : Course (p.attempt arena closer .close) after q) :
    let l := q.world
    (l.closed = true ∧ l.hook = hook.run.2) ∧
    (∀ you c way, q.held you = some c → c.begins = true → c.way? = some way →
      let r := l.call you c
      (r.1 = .waiting ∨ r.1 = .error .closed ∧ (r.2.lock way).holder ≠ some you) ∧
        ((l.lock way).isFreeFor you = true → r.1 = .error .closed ∧ (r.2.lock way).holder = none)) ∧
    (∀ you got, l.inbound.lock.holder = some you → l.inbound.input = .opening got →
      (Header.receive l.settings.limit got l.inbound.source).1 ≠ .waiting →
      (l.call you .beginRead).1 = .error .closed) ∧
    ((l.inbound.input = .gone ∨ l.inbound.input.isBusy = true) ∧
      (l.inbound.lock.RestsFrom Call.isInward q.held → l.inbound.input = .gone) ∧
      (l.outbound.lock.RestsFrom Call.writes q.held →
        l.outbound.present = false ∧ l.outbound.buffer = [] ∧ l.outbound.frame = [])) ∧
    (∀ you c, q.held you = none → c ≠ .close → c ≠ .isClosed ∧ c ≠ .isCompressionEnabled →
      (l.call you c).1 = .error .closed ∧
        (∀ way, c.way? = some way → ((l.call you c).2.lock way).holder ≠ some you) ∧
        (l.call you c).2.inbound.source = l.inbound.source ∧ (l.call you c).2.outbound.sink = l.outbound.sink) ∧
    ∀ you, l.call you .close = (.ok .done, l) := by
  intro l
  have hbefore := hcourse.isCoherent (isCoherent_new settings hook src sink)
  have hcoherent : IsCoherent q := hafter.isCoherent (hbefore.attempt hallows)
  have hclosed : l.closed = true :=
    hafter.closed ((congrArg Link.closed (Play.attempt_world closer Call.close)).trans (closed_close closer p.world))
  have hinbound := hcoherent.inbound
  have houtbound := hcoherent.outbound
  rw [hclosed] at hinbound houtbound
  refine ⟨⟨hclosed, ?_⟩, fun you c way hyou hc hway => ?_, fun you got hholder hinput hreceived => ?_,
    ⟨hinbound.gone_or_busy, fun hrest => ?_, houtbound.discarded_at_rest⟩,
    fun you c hyou hclose hasked => hcoherent.fresh_of_closed hclosed hyou hclose hasked, fun you => ?_⟩
  · have hrun : q.world.hook = if q.world.closed then hook.run.2 else hook :=
      Course.hook hafter (Course.hook (hcourse.attempt closer Call.close hallows) rfl)
    rwa [if_pos hclosed] at hrun
  · exact (hcoherent.call_outcome (.of_some hyou)).begin_of_closed hclosed hc hway
  · simp only [call, withInbound, hclosed, Inbound.begin_of_received _ hholder hinput hreceived, Attempt.map]
  · rcases hinbound.at_rest hrest with ⟨-, hinput⟩ | ⟨_, _, -, hinput⟩ <;> exact hinput
  · simp only [call, Link.close, hclosed, if_true, Attempt.map]

/-- Thread 0 waits in a header, thread 2 for the sink, and 1 and 3 for their locks, when thread 4 closes the link. Then
the rest of the header comes. -/
theorem discarded_once_closed_with_calls_in_progress :
    let turns : List (Turn Call) :=
      [.call 0 .beginRead, .call 1 .beginRead, .call 2 (.beginWrite 7), .call 2 (.write [1]), .call 2 .endWrite,
        .call 3 (.beginWrite 8)]
    let p := Play.run arena
      (new {} { attached := true } { items := [.data [0, 0]], live := true } { replies := [.gate] }) turns
    let closed := (p.attempt arena 4 .close).world
    let l : Link :=
      { closed with inbound := { closed.inbound with source := .ofBytes [0, 1, 0, 0, 0, 0, 0, 0, 0, 0] } }
    p.held 0 = some .beginRead ∧ p.held 1 = some .beginRead ∧ p.held 2 = some .endWrite ∧
      p.held 3 = some (.beginWrite 8) ∧ l.hook.calls = 1 ∧ (l.call 0 .beginRead).1 = .error .closed ∧
      (l.call 0 .beginRead).2.inbound.lock.holder ≠ some 0 ∧ (l.call 5 (.beginWrite 9)).1 = .error .closed ∧
      l.call 5 .close = (.ok .done, l) := by
  intro turns p closed l
  have hheld : p.held 0 = some .beginRead := by decide +kernel
  have hhook : ({ attached := true } : Hook).run.2.calls = 1 := rfl
  let q : Play Link Call Reply := { p.attempt arena 4 .close with world := l }
  have hafter : Course (p.attempt arena 4 .close) [] q := Play.Course.start.stir (.source _)
  obtain ⟨⟨-, hrun⟩, hbegins, -, -, hfresh, hagain⟩ := discarded_once_closed {} { attached := true } _ _ _ [] p q 4
    (course_run _ turns) (.of_none (by decide +kernel) _) hafter
  obtain ⟨hkept, -⟩ := hbegins 0 .beginRead .reading (by decide +kernel) rfl rfl
  have hanswered : (l.call 0 .beginRead).1 ≠ .waiting := by decide +kernel
  obtain ⟨hclosed, hholder⟩ := hkept.resolve_left hanswered
  exact ⟨hheld, by decide +kernel, by decide +kernel, by decide +kernel, (congrArg Hook.calls hrun).trans hhook,
    hclosed, hholder, (hfresh 5 (.beginWrite 9) (by decide +kernel) (by simp) (by simp)).1, hagain 5⟩

end

end Link

end FrameLink
