import FrameLink.Proofs.Coherence

/-! Who owns the locks of a link after a call. The answer alone tells whether the thread that made the call owns the
lock of the side that the call was about, whatever other threads have done while the call had to wait; and no call
takes a lock from another thread or gives it one. -/

namespace FrameLink

/-- The two sides of a link. -/
inductive Way where
  | reading
  | writing

namespace Call

/-- The side that a call is about, if it is about one of them. -/
def way? : Call → Option Way
  | .beginRead | .read _ | .remaining | .endRead => some .reading
  | .beginWrite _ | .write _ | .restartWrite | .endWrite | .cancelWrite => some .writing
  | _ => none

/-- Whether the call ends a transaction. -/
def isTerminal : Call → Bool
  | .endRead | .endWrite | .cancelWrite => true
  | _ => false

variable {c : Call}

theorem way?_of_isInward (hc : c.isInward = true) : c.way? = some .reading := by
  cases c <;> first | rfl | cases hc

theorem way?_of_writes (hc : c.writes = true) : c.way? = some .writing := by
  cases c <;> first | rfl | cases hc

theorem isTerminal_of_isInward (hc : c.isInward = true) (hne : c ≠ .endRead) : c.isTerminal = false := by
  cases c with
  | endRead => exact absurd rfl hne
  | _ => first | rfl | cases hc

end Call

/-- Whether a failure refuses a call to the owner of a transaction and lets the transaction go on. -/
def LinkError.isRefusal : LinkError → Bool
  | .reentrancy _ | .overread _ _ => true
  | _ => false

theorem LinkError.isRefusal_of_isBreach {e : LinkError} (h : e.isBreach = true) : e.isRefusal = false := by
  cases e <;> first | rfl | cases h

namespace Lock

/-- What an attempt of a thread at a call does to the lock of the side that the call is about. -/
structure Settles {ρ : Type} (me : Thread) (c : Call) (r : Attempt LinkError ρ) (l l' : Lock) : Prop where
  answered : c.isTerminal = false → ∀ answer, r = .ok answer → l'.holder = some me
  failed : c.isTerminal = false → ∀ e, r = .error e → (l'.holder = some me ↔ e.isRefusal = true)
  ended : c.isTerminal = true → r ≠ .waiting → l'.holder ≠ some me
  others : ∀ you, you ≠ me → (l'.holder = some you ↔ l.holder = some you)

section

variable {ρ σ : Type} {me you : Thread} {c : Call} {r : Attempt LinkError ρ} {l l' : Lock}

theorem settles_of_waiting (hothers : ∀ you, you ≠ me → (l'.holder = some you ↔ l.holder = some you)) :
    Settles me c (.waiting : Attempt LinkError ρ) l l' where
  answered _ _ := nofun
  failed _ _ := nofun
  ended _ hwait := absurd rfl hwait
  others := hothers

theorem Settles.map (h : Settles me c r l l') (f : ρ → σ) : Settles me c (r.map f) l l' := by
  obtain ⟨hanswered, hfailed, hended, hothers⟩ := h
  cases r with
  | ok answer => exact ⟨fun hc _ _ => hanswered hc answer rfl, fun _ _ => nofun, fun hc _ => hended hc nofun, hothers⟩
  | error e =>
      refine ⟨fun _ _ => nofun, fun hc e' he' => ?_, fun hc _ => hended hc nofun, hothers⟩
      exact hfailed hc e' (congrArg _ (Attempt.error.inj he'))
  | waiting => exact settles_of_waiting hothers

/-- Neither this thread nor anybody else owned the lock if it was this thread's or nobody's. -/
theorem holder_ne_of_mine (hmine : l.holder = some me ∨ l.holder = none) (hyou : you ≠ me) : l.holder ≠ some you := by
  rcases hmine with hholder | hholder <;> rw [hholder]
  · exact fun heq => hyou (Option.some.inj heq).symm
  · exact nofun

theorem holder_taken_iff (hmine : l.holder = some me ∨ l.holder = none) (hyou : you ≠ me) :
    (l.taken me).holder = some you ↔ l.holder = some you :=
  iff_of_false (fun heq => hyou (Option.some.inj heq).symm) (holder_ne_of_mine hmine hyou)

theorem holder_vacated_iff (hmine : l.holder = some me ∨ l.holder = none) (hyou : you ≠ me) :
    (l.vacated me).holder = some you ↔ l.holder = some you :=
  iff_of_false nofun (holder_ne_of_mine hmine hyou)

/-- A thread that loses the lock of a closed link, or does not get it. -/
theorem settles_vacated_of_closed (hmine : l.holder = some me ∨ l.holder = none) :
    Settles me c (.error .closed : Attempt LinkError ρ) l (l.vacated me) where
  answered _ _ := nofun
  failed _ e he := iff_of_false nofun (by cases he; exact Bool.false_ne_true)
  ended _ _ := nofun
  others _ hyou := holder_vacated_iff hmine hyou

/-- A call that fails without the thread having the lock. -/
theorem settles_of_not_holder (hholder : l.holder ≠ some me) {e : LinkError} (he : e.isRefusal = false) :
    Settles me c (.error e : Attempt LinkError ρ) l l where
  answered _ _ := nofun
  failed _ e' he' := iff_of_false hholder (by cases he'; rw [he]; exact Bool.false_ne_true)
  ended _ _ := hholder
  others _ _ := Iff.rfl

theorem settles_vacated_of_terminal (hmine : l.holder = some me ∨ l.holder = none) (hc : c.isTerminal = true) :
    Settles me c r l (l.vacated me) where
  answered hnot := absurd (hnot.symm.trans hc) Bool.false_ne_true
  failed hnot := absurd (hnot.symm.trans hc) Bool.false_ne_true
  ended _ _ := nofun
  others _ hyou := holder_vacated_iff hmine hyou

end

end Lock

namespace Inbound

variable {closed : Bool} {i i' : Inbound} {me : Thread} {c : Call} {r : Attempt LinkError Reply}

theorem Engages.mine (h : i.Engages closed me c) : i.lock.holder = some me ∨ i.lock.holder = none := by
  cases h with
  | owner hholder _ => exact .inl hholder
  | begins _ _ hholder => exact .inr hholder

theorem Outcome.settles (ho : Outcome closed me c i r i') (hc : c.isInward = true) :
    Lock.Settles me c r i.lock i'.lock := by
  cases ho with
  | queued hbegin hholder hfree hqueue => exact Lock.settles_of_waiting fun _ _ => Iff.rfl
  | reentrant hbegin hopen hholder hidle =>
      subst hbegin
      refine ⟨fun _ _ => nofun, fun _ e he => ?_, nofun, fun _ _ => Iff.rfl⟩
      cases he
      exact iff_of_true hholder rfl
  | unowned hbegin hopen hholder => exact Lock.settles_of_not_holder hholder rfl
  | shut hclosed hholder hqueue => exact Lock.settles_of_not_holder hholder rfl
  | expelled hclosed hmine hinput => exact Lock.settles_vacated_of_closed hmine
  | waits hmine hworks => exact Lock.settles_of_waiting fun _ hyou => Lock.holder_taken_iff hmine.mine hyou
  | stays hmine hend hopen =>
      have hterminal := Call.isTerminal_of_isInward hc hend
      refine ⟨fun _ _ _ => rfl, fun _ _ => nofun, fun hnot => ?_, fun _ hyou => Lock.holder_taken_iff hmine.mine hyou⟩
      rw [hterminal] at hnot
      cases hnot
  | overreads hread hopen hholder hinput hlt =>
      subst hread
      refine ⟨fun _ _ => nofun, fun _ e he => ?_, nofun, fun _ _ => Iff.rfl⟩
      cases he
      exact iff_of_true hholder rfl
  | ends hmine hwait hend hr =>
      refine ⟨fun hnot answer hok => ?_, fun _ e he => iff_of_false nofun ?_, fun _ _ => nofun,
        fun _ hyou => Lock.holder_vacated_iff hmine.mine hyou⟩
      · rw [hend answer hok] at hnot; cases hnot
      · have hcause := hr e he
        split at hcause
        · rw [hcause]; exact Bool.false_ne_true
        · rw [LinkError.isRefusal_of_isBreach hcause]; exact Bool.false_ne_true

end Inbound

namespace Outbound

variable {closed : Bool} {threshold : Int32} {level : Nat} {o o' : Outbound} {me : Thread} {c : Call}
  {r : Attempt LinkError Unit}

theorem Outcome.settles (ho : Outcome closed threshold level me c o r o') : Lock.Settles me c r o.lock o'.lock := by
  cases ho with
  | queued hbegin hholder hfree hqueue => exact Lock.settles_of_waiting fun _ _ => Iff.rfl
  | reentrant hbegin hopen hholder =>
      subst hbegin
      refine ⟨fun _ _ => nofun, fun _ e he => ?_, nofun, fun _ _ => Iff.rfl⟩
      cases he
      exact iff_of_true hholder rfl
  | unowned hbegin hopen hholder => exact Lock.settles_of_not_holder hholder rfl
  | shut hclosed hholder hqueue => exact Lock.settles_of_not_holder hholder rfl
  | expelled hclosed hmine hidle => exact Lock.settles_vacated_of_closed hmine
  | begun hbegin hopen hnone hidle =>
      subst hbegin
      exact ⟨fun _ _ _ => rfl, fun _ _ => nofun, nofun, fun _ hyou => Lock.holder_taken_iff (.inr hnone) hyou⟩
  | added hwrite hopen hholder hidle =>
      subst hwrite
      exact ⟨fun _ _ _ => hholder, fun _ _ => nofun, nofun, fun _ _ => Iff.rfl⟩
  | restarted hrestart hopen hholder hidle =>
      subst hrestart
      exact ⟨fun _ _ _ => hholder, fun _ _ => nofun, nofun, fun _ _ => Iff.rfl⟩
  | dropped hend hopen hholder hidle =>
      refine Lock.settles_vacated_of_terminal (.inl hholder) ?_
      rcases hend with rfl | ⟨rfl, -⟩ <;> rfl
  | unfit hend hopen hholder hidle hbuffer hencode =>
      subst hend
      exact Lock.settles_vacated_of_terminal (.inl hholder) rfl
  | waits hend hholder hposts htakes => exact Lock.settles_of_waiting fun _ _ => Iff.rfl
  | sent hend hholder hposts htakes hr =>
      subst hend
      exact Lock.settles_vacated_of_terminal (.inl hholder) rfl

end Outbound

namespace Link

/-- The lock of a side. -/
def lock (l : Link) : Way → Lock
  | .reading => l.inbound.lock
  | .writing => l.outbound.lock

section

variable {p : Play Link Call Reply} {me : Thread} {c : Call} {r : Attempt LinkError Reply} {l l' : Link}

theorem Stirs.holder_lock (h : Stirs l l') (way : Way) : (l'.lock way).holder = (l.lock way).holder := by
  cases h with
  | source src => cases way <;> rfl
  | sink replies flushes broken passes => cases way <;> rfl
  | favour me => cases way <;> exact Lock.favour_holder _ me

theorem Outcome.settles (ho : Outcome me c l r l') {way : Way} (hway : c.way? = some way) :
    Lock.Settles me c r (l.lock way) (l'.lock way) := by
  cases ho with
  | inward hc ho =>
      obtain rfl := Option.some.inj ((Call.way?_of_isInward hc).symm.trans hway)
      exact ho.settles hc
  | outward hc ho =>
      obtain rfl := Option.some.inj ((Call.way?_of_writes hc).symm.trans hway)
      exact ho.settles.map _
  | enabled hc _ _ => subst hc; cases hway
  | disabled hc _ => subst hc; cases hway
  | barred hc _ => rcases hc with rfl | rfl <;> cases hway
  | closes hc _ _ => subst hc; cases hway
  | closedBefore hc _ => subst hc; cases hway
  | asked hc => rcases hc with rfl | rfl <;> cases hway

/-- A call about one side, or about neither, leaves the lock of the other alone. -/
theorem Outcome.lock_eq (ho : Outcome me c l r l') {way : Way} (hway : c.way? ≠ some way)
    (hclose : ¬ (c = .close ∧ l.closed = false)) : l'.lock way = l.lock way := by
  cases ho with
  | inward hc ho =>
      cases way with
      | reading => exact absurd (Call.way?_of_isInward hc) hway
      | writing => rfl
  | outward hc ho =>
      cases way with
      | reading => rfl
      | writing => exact absurd (Call.way?_of_writes hc) hway
  | enabled _ _ _ => cases way <;> rfl
  | disabled _ _ => cases way <;> rfl
  | barred _ _ => rfl
  | closes hc hopen _ => exact absurd ⟨hc, hopen⟩ hclose
  | closedBefore _ _ => rfl
  | asked _ => rfl

theorem lock_close (me : Thread) {l : Link} (hopen : l.closed = false) (way : Way) :
    ((l.call me .close).2.lock way) = ((l.lock way).release me).2 := by
  simp only [call, Link.close, hopen, Bool.false_eq_true, if_false]
  cases way with
  | reading => rfl
  | writing =>
      show (Outbound.close me l.outbound).lock = _
      unfold Outbound.close
      split <;> rfl

/-- What other threads own does not change. -/
theorem IsCoherent.holder_call_iff (h : IsCoherent p) (hallows : p.Allows me c) {you : Thread} (hyou : you ≠ me)
    (way : Way) : ((p.world.call me c).2.lock way).holder = some you ↔ (p.world.lock way).holder = some you := by
  have ho := h.call_outcome hallows
  by_cases hway : c.way? = some way
  · exact (ho.settles hway).others you hyou
  · by_cases hclose : c = .close ∧ p.world.closed = false
    · obtain ⟨rfl, hopen⟩ := hclose
      rw [lock_close me hopen way]
      exact Lock.holder_release_iff hyou
    · rw [ho.lock_eq hway hclose]

/-- Ownership after any call. In every state that threads can bring a link into, whatever happens to its byte streams,
let a thread attempt a call, be it a new one or one for which it has been waiting. If a call within a transaction or one
that begins it is answered with success, the thread owns the lock of this side; if it fails, the thread owns the lock
exactly if the failure is a refusal, for reentrancy or for asking too much. After a call that ends a transaction, the
thread does not own the lock; after closing an open link it owns neither. Any other lock is left as it is, and what
other threads own does not change, nor does anything when no thread is at work. -/
theorem owners_after_call (settings : Settings) (hook : Hook) (src : Source) (sink : Sink)
    (trials : List (Trial Call Reply)) (p : Play Link Call Reply) (me : Thread) (c : Call)
    (hcourse : Course { world := new settings hook src sink } trials p) (hallows : p.Allows me c) :
    let r := (p.world.call me c).1
    let l := (p.world.call me c).2
    (∀ way, c.way? = some way → c.isTerminal = false →
      (∀ reply, r = .ok reply → (l.lock way).holder = some me) ∧
      (∀ e, r = .error e → ((l.lock way).holder = some me ↔ e.isRefusal = true))) ∧
    (∀ way, c.way? = some way → c.isTerminal = true → r ≠ .waiting → (l.lock way).holder ≠ some me) ∧
    (c = .close → p.world.closed = false → ∀ way, (l.lock way).holder ≠ some me) ∧
    (∀ way, c.way? ≠ some way → ¬ (c = .close ∧ p.world.closed = false) → l.lock way = p.world.lock way) ∧
    (∀ way you, you ≠ me → ((l.lock way).holder = some you ↔ (p.world.lock way).holder = some you)) ∧
    (∀ l', Stirs p.world l' → ∀ way, (l'.lock way).holder = (p.world.lock way).holder) ∧
    (∀ way you them, (l.lock way).holder = some you → (l.lock way).holder = some them → you = them) := by
  intro r l
  have hcoherent := hcourse.isCoherent (isCoherent_new settings hook src sink)
  have ho : Outcome me c p.world r l := hcoherent.call_outcome hallows
  have hclosed : c = .close → p.world.closed = false → ∀ way, l.lock way = ((p.world.lock way).release me).2 := by
    intro hc hopen way
    subst hc
    exact lock_close me hopen way
  refine ⟨fun way hway hc => ?_, fun way hway hc => (ho.settles hway).ended hc, fun hc hopen way => ?_,
    fun way => ho.lock_eq, fun way you hyou => hcoherent.holder_call_iff hallows hyou way,
    fun l' hstirs => hstirs.holder_lock, fun way you them hyou hthem => ?_⟩
  · exact ⟨(ho.settles hway).answered hc, (ho.settles hway).failed hc⟩
  · rw [hclosed hc hopen way]
    exact Lock.holder_release_ne _ me
  · exact Option.some.inj (hyou.symm.trans hthem)

/-- A thread waits in a header while another one queues up behind it and a third closes the link. When the header comes
the first thread has lost the lock, and none of the others has got it. -/
theorem owners_after_call_closed_meanwhile :
    ∃ p : Play Link Call Reply, p.held 0 = some .beginRead ∧ p.held 1 = some .beginRead ∧
      (p.world.lock .reading).holder = some 0 ∧ p.world.closed = true ∧
      (p.world.call 0 .beginRead).1 = .error .closed ∧
      ((p.world.call 0 .beginRead).2.lock .reading).holder ≠ some 0 ∧
      ((p.world.call 0 .beginRead).2.lock .reading).holder ≠ some 1 := by
  let turns : List (Turn Call) := [.call 0 .beginRead, .call 1 .beginRead, .call 2 .close]
  let l := new {} {} { items := [.data [0, 0, 0, 1]], live := true } {}
  let more : Source := .ofBytes [0, 0, 0, 0, 0, 0, 0, 0]
  have hmore := (course_run l turns).stir (.source more)
  let p : Play Link Call Reply :=
    { Play.run arena l turns with
      world := { (Play.run arena l turns).world with
        inbound := { (Play.run arena l turns).world.inbound with source := more } } }
  have hheld : p.held 0 = some .beginRead := by decide +kernel
  have hanswer : (p.world.call 0 .beginRead).1 = .error .closed := by decide +kernel
  have hothers : (p.world.lock .reading).holder ≠ some 1 := by decide +kernel
  obtain ⟨hstays, -, -, -, hkept, -⟩ := owners_after_call {} {} _ {} _ p 0 .beginRead hmore (.of_some hheld)
  refine ⟨p, hheld, by decide +kernel, by decide +kernel, by decide +kernel, hanswer, ?_, ?_⟩
  · exact fun hholder => nomatch ((hstays .reading rfl rfl).2 _ hanswer).1 hholder
  · exact fun hholder => hothers ((hkept .reading 1 (by decide)).1 hholder)

end

end Link

end FrameLink
