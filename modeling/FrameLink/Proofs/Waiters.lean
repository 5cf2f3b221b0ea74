import FrameLink.Proofs.Discarding

/-! Threads that wait for the lock of a side when a link is closed. Closing gives up the locks of the thread that
closes, and whoever waits for them is told that the link is closed. But a lock can be given up only by its owner. So
long as another thread has a transaction open and makes no call, its lock stays held, and those who wait for it go on
waiting; with its next call about that side it loses the lock, and they are told in turn. -/

namespace FrameLink

/-- A thread that is held up comes to the front of the queues that it stands in, and goes on with its call. -/
def Play.goOn {ω κ ρ : Type} (a : Arena ω κ ρ) (p : Play ω κ ρ) (me : Thread) : Play ω κ ρ :=
  match p.held me with
  | none => p
  | some c => ({ p with world := a.favour me p.world } : Play ω κ ρ).attempt a me c

theorem Lock.vacated_favour (l : Lock) (me : Thread) (hqueue : me ∈ l.queue) :
    (l.favour me).vacated me = l.vacated me := by
  rw [favour, if_pos (isAwaitedBy_iff.2 hqueue), vacated, vacated, List.erase_cons_head]

theorem Lock.acquire_of_waiting {l : Lock} {me owner : Thread} {operation : String} (hholder : l.holder = some owner)
    (hqueue : me ∈ l.queue) (howner : owner ≠ me) : l.acquire me operation = (.waiting, l) := by
  rw [acquire_of_other hholder howner, enqueue, if_pos (isAwaitedBy_iff.2 hqueue)]

namespace Inbound

section

variable {closed : Bool} {limit : Option Nat} {held : Thread → Option Call} {i i' : Inbound} {me you owner : Thread}
  {c : Call} {r : Attempt LinkError Reply}

/-- Nobody gets the lock of a closed link who has not had it before. -/
theorem Outcome.holder_of_closed (ho : Outcome true me c i r i') (hyou : i'.lock.holder = some you) :
    i.lock.holder = some you := by
  have hmine : i.Engages true me c → (i.lock.taken me).holder = some you → i.lock.holder = some you := by
    rintro (⟨hholder, _⟩ | ⟨_, hopen, _⟩) hyou
    · exact hholder.trans hyou
    · cases hopen
  cases ho with
  | queued => exact hyou
  | reentrant => exact hyou
  | unowned => exact hyou
  | shut => exact hyou
  | expelled => cases hyou
  | waits hengages => exact hmine hengages hyou
  | stays hengages => exact hmine hengages hyou
  | overreads => exact hyou
  | ends => cases hyou

/-- The owner of a closed link's lock that is in no call about this side loses it with the next one. -/
theorem Outcome.expels (ho : Outcome true me c i r i') (h : i.IsCoherent true held) (hme : held me = none)
    (hholder : i.lock.holder = some me) : r = .error .closed ∧ i'.lock = i.lock.vacated me := by
  cases ho with
  | queued _ hnot => exact absurd hholder hnot
  | reentrant _ hopen => cases hopen
  | unowned _ hopen => cases hopen
  | shut _ hnot => exact absurd hholder hnot
  | expelled => exact ⟨rfl, rfl⟩
  | waits hengages => exact absurd hengages (h.not_engages hme)
  | stays hengages => exact absurd hengages (h.not_engages hme)
  | overreads _ hopen => cases hopen
  | ends hengages => exact absurd hengages (h.not_engages hme)

theorem begin_of_waiting (hholder : i.lock.holder = some owner) (hqueue : me ∈ i.lock.queue) (howner : owner ≠ me) :
    i.begin closed limit me = (.waiting, i) := by
  have hnot : i.lock.isHeldBy me = false := by
    rw [Lock.isHeldBy_eq_false_iff, hholder]
    exact fun heq => howner (Option.some.inj heq)
  simp only [Inbound.begin, hnot, Lock.isAwaitedBy_iff.2 hqueue, Bool.not_true, Bool.and_false, Bool.false_eq_true,
    if_false, Lock.acquire_of_waiting hholder hqueue howner]

theorem begin_of_turn (hfree : i.lock.isFreeFor me = true) (hqueue : me ∈ i.lock.queue) :
    i.begin true limit me = (.error .closed, { i with lock := i.lock.vacated me }) := by
  have hnot : i.lock.isHeldBy me = false := by
    rw [Lock.isHeldBy_eq_false_iff, Lock.holder_of_isFreeFor hfree]
    exact nofun
  simp only [Inbound.begin, hnot, Lock.isAwaitedBy_iff.2 hqueue, Bool.not_true, Bool.and_false, Bool.false_eq_true,
    if_false, Lock.acquire_of_isFreeFor hfree, enter, if_true, release, Lock.release_taken]

end

end Inbound

namespace Outbound

section

variable {closed : Bool} {threshold : Int32} {level : Nat} {held : Thread → Option Call} {o o' : Outbound}
  {me you owner : Thread} {c : Call} {r : Attempt LinkError Unit}

theorem Outcome.holder_of_closed (ho : Outcome true threshold level me c o r o') (hyou : o'.lock.holder = some you) :
    o.lock.holder = some you := by
  cases ho with
  | begun _ hopen => cases hopen
  | expelled => cases hyou
  | dropped => cases hyou
  | unfit => cases hyou
  | sent => cases hyou
  | _ => exact hyou

theorem Outcome.expels (ho : Outcome true threshold level me c o r o') (h : o.IsCoherent true held)
    (hme : held me = none) (hholder : o.lock.holder = some me) : r = .error .closed ∧ o'.lock = o.lock.vacated me := by
  cases ho with
  | queued _ hnot => exact absurd hholder hnot
  | shut _ hnot => exact absurd hholder hnot
  | expelled => exact ⟨rfl, rfl⟩
  | waits _ _ hposts => exact absurd hposts (h.not_posts hme hholder _)
  | sent _ _ hposts => exact absurd hposts (h.not_posts hme hholder _)
  | reentrant _ hopen => cases hopen
  | unowned _ hopen => cases hopen
  | begun _ hopen => cases hopen
  | added _ hopen => cases hopen
  | restarted _ hopen => cases hopen
  | dropped _ hopen => cases hopen
  | unfit _ hopen => cases hopen

theorem begin_of_waiting (n : Int32) (hholder : o.lock.holder = some owner) (hqueue : me ∈ o.lock.queue)
    (howner : owner ≠ me) : o.begin closed me n = (.waiting, o) := by
  simp only [Outbound.begin, Lock.isAwaitedBy_iff.2 hqueue, Bool.not_true, Bool.and_false, Bool.false_eq_true,
    if_false, Lock.acquire_of_waiting hholder hqueue howner]

theorem begin_of_turn (n : Int32) (hfree : o.lock.isFreeFor me = true) (hqueue : me ∈ o.lock.queue) :
    o.begin true me n = (.error .closed, { o with lock := o.lock.vacated me }) := by
  simp only [Outbound.begin, Lock.isAwaitedBy_iff.2 hqueue, Bool.not_true, Bool.and_false, Bool.false_eq_true,
    if_false, Lock.acquire_of_isFreeFor hfree, enter, if_true, release, Lock.release_taken]

end

end Outbound

namespace Link

section

variable {p q : Play Link Call Reply} {me you owner : Thread} {c : Call} {r : Attempt LinkError Reply} {l l' : Link}
  {way : Way} {trials : List (Trial Call Reply)}

theorem Outcome.holder_of_closed (ho : Outcome me c l r l') (hclosed : l.closed = true)
    (hyou : (l'.lock way).holder = some you) : (l.lock way).holder = some you := by
  by_cases hway : c.way? = some way
  · cases ho with
    | inward hc ho =>
        obtain rfl := Option.some.inj ((Call.way?_of_isInward hc).symm.trans hway)
        rw [hclosed] at ho
        exact ho.holder_of_closed hyou
    | outward hc ho =>
        obtain rfl := Option.some.inj ((Call.way?_of_writes hc).symm.trans hway)
        rw [hclosed] at ho
        exact ho.holder_of_closed hyou
    | enabled _ hopen => cases hclosed.symm.trans hopen
    | disabled _ hopen => cases hclosed.symm.trans hopen
    | barred => exact hyou
    | closes _ hopen => cases hclosed.symm.trans hopen
    | closedBefore => exact hyou
    | asked => exact hyou
  · rwa [ho.lock_eq hway fun hclose => Bool.noConfusion (hclosed.symm.trans hclose.2)] at hyou

theorem Course.holder_of_closed (h : Course p trials q) (hp : IsCoherent p) (hclosed : p.world.closed = true)
    (hyou : (q.world.lock way).holder = some you) : (p.world.lock way).holder = some you := by
  suffices hall : (IsCoherent q ∧ q.world.closed = true) ∧ ∀ you, (q.world.lock way).holder = some you →
      (p.world.lock way).holder = some you from hall.2 you hyou
  refine h.keeps (I := fun _ q => (IsCoherent q ∧ q.world.closed = true) ∧ ∀ you, (q.world.lock way).holder = some you →
    (p.world.lock way).holder = some you) ?_ ?_ ⟨⟨hp, hclosed⟩, fun _ hyou => hyou⟩
  · intro _ q me c ⟨⟨hq, hqclosed⟩, hholder⟩ hallows
    refine ⟨⟨hq.attempt hallows, ?_⟩, fun you hyou => hholder you ?_⟩
    · rw [Play.attempt_world]
      exact closed_call hqclosed me c
    · rw [Play.attempt_world] at hyou
      exact (hq.call_outcome hallows).holder_of_closed hqclosed hyou
  · intro _ q w ⟨⟨hq, hqclosed⟩, hholder⟩ hstirs
    exact ⟨⟨hq.stir hstirs, hstirs.closed.trans hqclosed⟩, fun you hyou => hholder you (hstirs.holder_lock way ▸ hyou)⟩

/-- Those who queue up for the lock of a side are held up in a call about this side. -/
theorem IsCoherent.orderly_lock (h : IsCoherent p) (way : Way) :
    (p.world.lock way).IsOrderly fun you => ∃ c, p.held you = some c ∧ c.way? = some way := by
  cases way with
  | reading =>
      have horderly := h.inbound.orderly
      refine ⟨horderly.nodup, fun you hyou => ?_, horderly.holder⟩
      exact ⟨_, (Play.heldAmong_eq_some_iff.1 (horderly.waits you hyou)).1, rfl⟩
  | writing =>
      have horderly := h.outbound.orderly
      refine ⟨horderly.nodup, fun you hyou => ?_, horderly.holder⟩
      obtain ⟨n, hheld⟩ := horderly.waits you hyou
      exact ⟨_, (Play.heldAmong_eq_some_iff.1 hheld).1, rfl⟩

/-- The owner of the lock of a closed link's side that is in no call loses it with the next call about this side. -/
theorem IsCoherent.expelled_of_closed (h : IsCoherent p) (hclosed : p.world.closed = true) (hme : p.held me = none)
    (hway : c.way? = some way) (hholder : (p.world.lock way).holder = some me) :
    (p.world.call me c).1 = .error .closed ∧ (p.world.call me c).2.lock way = (p.world.lock way).vacated me := by
  have ho := h.call_outcome (.of_none hme c)
  have hnone : ∀ kind, Play.heldAmong kind p.held me = none := fun kind => Play.heldAmong_of_none kind hme
  have hinbound := h.inbound
  have houtbound := h.outbound
  rw [hclosed] at hinbound houtbound
  revert ho
  generalize (p.world.call me c).1 = r
  generalize (p.world.call me c).2 = l'
  intro ho
  cases ho with
  | inward hc ho =>
      obtain rfl := Option.some.inj ((Call.way?_of_isInward hc).symm.trans hway)
      rw [hclosed] at ho
      exact ho.expels hinbound (hnone _) hholder
  | outward hc ho =>
      obtain rfl := Option.some.inj ((Call.way?_of_writes hc).symm.trans hway)
      rw [hclosed] at ho
      obtain ⟨rfl, hlock⟩ := ho.expels houtbound (hnone _) hholder
      exact ⟨rfl, hlock⟩
  | enabled _ hopen => cases hclosed.symm.trans hopen
  | disabled _ hopen => cases hclosed.symm.trans hopen
  | barred hc => rcases hc with rfl | rfl <;> cases hway
  | closes _ hopen => cases hclosed.symm.trans hopen
  | closedBefore hc => subst hc; cases hway
  | asked hc => rcases hc with rfl | rfl <;> cases hway

theorem call_of_waiting (hc : c.begins = true) (hway : c.way? = some way) (hholder : (l.lock way).holder = some owner)
    (hqueue : me ∈ (l.lock way).queue) (howner : owner ≠ me) : l.call me c = (.waiting, l) := by
  cases c with
  | beginRead =>
      cases hway
      simp only [call, withInbound, Inbound.begin_of_waiting hholder hqueue howner, Attempt.map]
  | beginWrite n =>
      cases hway
      simp only [call, withOutbound, Outbound.begin_of_waiting n hholder hqueue howner, Attempt.map]
  | _ => cases hc

theorem call_of_turn (hclosed : l.closed = true) (hc : c.begins = true) (hway : c.way? = some way)
    (hfree : (l.lock way).isFreeFor me = true) (hqueue : me ∈ (l.lock way).queue) :
    (l.call me c).1 = .error .closed ∧ (l.call me c).2.lock way = (l.lock way).vacated me := by
  cases c with
  | beginRead =>
      cases hway
      simp only [call, withInbound, hclosed, Inbound.begin_of_turn hfree hqueue, Attempt.map]
      exact ⟨trivial, rfl⟩
  | beginWrite n =>
      cases hway
      simp only [call, withOutbound, hclosed, Outbound.begin_of_turn n hfree hqueue, Attempt.map]
      exact ⟨trivial, rfl⟩
  | _ => cases hc

theorem lock_favour (l : Link) (me : Thread) (way : Way) : (l.favour me).lock way = (l.lock way).favour me := by
  cases way <;> rfl

/-- The link has been closed, and the calls about a side that hold threads up wait for its lock. -/
structure Awaits (p : Play Link Call Reply) (way : Way) : Prop where
  coherent : IsCoherent p
  closed : p.world.closed = true
  waits : ∀ you c, p.held you = some c → c.way? = some way → c.begins = true ∧ you ∈ (p.world.lock way).queue

/-- In whatever order those who wait for the lock of a side go on, each is told that the link is closed; and then nobody
is left who waits for it or holds it. -/
def LetsGo (p : Play Link Call Reply) (way : Way) : Prop :=
  ∀ order : List Thread, order.Perm (p.world.lock way).queue →
    let q := order.foldl (Play.goOn arena) p
    q.history = p.history ++ (order.flatMap fun you => (p.held you).toList.map fun c => ⟨you, c, .error .closed⟩) ∧
      q.world.lock way = {} ∧ ∀ you c, q.held you = some c → c.way? ≠ some way

namespace Awaits

/-- The owner of the lock is in no call about this side. -/
theorem idle (h : Awaits p way) (hholder : (p.world.lock way).holder = some owner) (hc : c.way? = some way) :
    p.held owner ≠ some c :=
  fun hheld => (h.coherent.orderly_lock way).holder owner (h.waits owner c hheld hc).2 hholder

/-- When a thread is told that the link is closed and has left the lock to nobody, all others wait on. -/
theorem attempt (h : Awaits p way) (hallows : p.Allows me c) (hcall : (p.world.call me c).1 = .error .closed)
    (hlock : (p.world.call me c).2.lock way = (p.world.lock way).vacated me) : Awaits (p.attempt arena me c) way where
  coherent := h.coherent.attempt hallows
  closed := (congrArg Link.closed (Play.attempt_world me c)).trans (closed_call h.closed me c)
  waits you c' hyou hway := by
    rw [Play.attempt_of_error hcall] at hyou ⊢
    by_cases hsame : you = me
    · subst hsame
      cases (Function.update_self ..).symm.trans hyou
    · obtain ⟨hbegins, hqueue⟩ := h.waits you c' ((Function.update_of_ne hsame ..).symm.trans hyou) hway
      refine ⟨hbegins, ?_⟩
      show you ∈ ((p.world.call me c).2.lock way).queue
      rw [hlock]
      exact (List.mem_erase_of_ne hsame).2 hqueue

theorem favour (h : Awaits p way) (me : Thread) : Awaits { p with world := p.world.favour me } way where
  coherent := h.coherent.stir (.favour me)
  closed := h.closed
  waits you c hyou hway := by
    obtain ⟨hbegins, hqueue⟩ := h.waits you c hyou hway
    refine ⟨hbegins, ?_⟩
    rw [lock_favour]
    exact Lock.mem_favour.2 hqueue

/-- While nobody holds the lock, a thread that waits for it and goes on is told that the link is closed, and leaves the
lock to the others. -/
theorem goOn (h : Awaits p way) (hfree : (p.world.lock way).holder = none) (hme : me ∈ (p.world.lock way).queue) :
    Awaits (p.goOn arena me) way ∧ (p.goOn arena me).world.lock way = (p.world.lock way).vacated me ∧
      (p.goOn arena me).held = Function.update p.held me none ∧
      (p.goOn arena me).history = p.history ++ (p.held me).toList.map fun c => ⟨me, c, .error .closed⟩ := by
  obtain ⟨c, hheld, hway⟩ := (h.coherent.orderly_lock way).waits me hme
  have hgoOn : p.goOn arena me = ({ p with world := p.world.favour me } : Play Link Call Reply).attempt arena me c := by
    rw [Play.goOn, hheld]
    rfl
  have hfront := h.favour me
  have hlock := lock_favour p.world me way
  obtain ⟨hcall, hvacated⟩ := call_of_turn (l := p.world.favour me) h.closed (h.waits me c hheld hway).1 hway
    (hlock ▸ Lock.isFreeFor_favour hfree) (hlock ▸ Lock.mem_favour.2 hme)
  rw [hlock, Lock.vacated_favour _ _ hme] at hvacated
  refine ⟨hgoOn ▸ hfront.attempt (.of_some hheld) hcall ?_, ?_, ?_, ?_⟩
  · rw [hvacated, hlock, Lock.vacated_favour _ _ hme]
  · rw [hgoOn, Play.attempt_of_error hcall]
    exact hvacated
  · rw [hgoOn, Play.attempt_of_error hcall]
  · rw [hgoOn, Play.attempt_of_error hcall, hheld]
    rfl

/-- Once nobody holds the lock, all who wait for it are told. -/
theorem letsGo (h : Awaits p way) (hfree : (p.world.lock way).holder = none) : LetsGo p way := by
  intro order horder
  induction order generalizing p with
  | nil =>
      have hempty := List.perm_nil.1 horder.symm
      refine ⟨(List.append_nil _).symm, ?_, fun you c hyou hway => ?_⟩
      · show p.world.lock way = ⟨none, []⟩
        rw [← hfree, ← hempty]
      · have hqueue := (h.waits you c hyou hway).2
        rw [hempty] at hqueue
        cases hqueue
  | cons me order ih =>
      have hme : me ∈ (p.world.lock way).queue := horder.subset List.mem_cons_self
      obtain ⟨hawaits, hlock, hheld, hhistory⟩ := h.goOn hfree hme
      have hrest : order.Perm ((p.goOn arena me).world.lock way).queue := by
        rw [hlock]
        exact (List.cons_perm_iff_perm_erase.1 horder).2
      obtain ⟨htold, hend⟩ := ih hawaits (by rw [hlock]; rfl) hrest
      refine ⟨htold.trans ?_, hend⟩
      have hfresh : me ∉ order := (List.nodup_cons.1 (horder.nodup_iff.2 (h.coherent.orderly_lock way).nodup)).1
      have hothers : ∀ you ∈ order, Function.update p.held me none you = p.held you :=
        fun you hyou => Function.update_of_ne (fun heq => hfresh (by rwa [heq] at hyou)) _ _
      rw [hhistory, hheld, List.flatMap_congr fun you hyou => by rw [hothers you hyou], List.append_assoc,
        List.flatMap_cons]

end Awaits

/-- What becomes of threads that wait for a lock when the link is closed. Let threads bring a link into any state, let
one of them close it then, and let them and the byte streams go on in any way until nobody is at work in a call but those
who wait for the lock of one of the sides. If nobody holds the lock of a side, those who wait for it are told, in
whatever order they go on, that the link is closed, and the lock is left free. If somebody holds it, this is not the
thread that has closed the link; it has held the lock since before; and those who wait for it keep waiting, and change
nothing, until it makes a call about this side. This call is told that the link is closed, and then they all are. -/
theorem waiters_told_once_unowned (settings : Settings) (hook : Hook) (src : Source) (sink : Sink)
    (trials after : List (Trial Call Reply)) (p q : Play Link Call Reply) (closer : Thread)
    (hcourse : Course { world := new settings hook src sink } trials p) (hopen : p.world.closed = false)
    (hallows : p.Allows closer .close) (hafter : Course (p.attempt arena closer .close) after q) (way : Way)
    (hrest : ∀ you c, q.held you = some c → c.way? = some way → c.begins = true ∧ you ∈ (q.world.lock way).queue) :
    ((q.world.lock way).holder = none → LetsGo q way) ∧
    ∀ owner, (q.world.lock way).holder = some owner →
      (owner ≠ closer ∧ (p.world.lock way).holder = some owner ∧ ∀ c, c.way? = some way → q.held owner ≠ some c) ∧
      (∀ you c, q.held you = some c → c.way? = some way → q.world.call you c = (.waiting, q.world)) ∧
      ∀ c, c.way? = some way → q.Allows owner c →
        (q.world.call owner c).1 = .error .closed ∧ LetsGo (q.attempt arena owner c) way := by
  have hbefore := hcourse.isCoherent (isCoherent_new settings hook src sink)
  have hstart := hbefore.attempt hallows
  have hclosed : (p.attempt arena closer .close).world.closed = true :=
    (congrArg Link.closed (Play.attempt_world closer Call.close)).trans (closed_close closer p.world)
  have hawaits : Awaits q way := ⟨hafter.isCoherent hstart, hafter.closed hclosed, hrest⟩
  refine ⟨hawaits.letsGo, fun owner hholder => ⟨?_, fun you c hheld hway => ?_, fun c hway hc => ?_⟩⟩
  · have hheld := hafter.holder_of_closed hstart hclosed hholder
    rw [Play.attempt_world, show arena.call closer Call.close p.world = p.world.call closer .close from rfl,
      lock_close closer hopen way] at hheld
    have hne : owner ≠ closer := fun heq => Lock.holder_release_ne (p.world.lock way) closer (heq ▸ hheld)
    exact ⟨hne, (Lock.holder_release_iff hne).1 hheld, fun c hc => hawaits.idle hholder hc⟩
  · obtain ⟨hbegins, hqueue⟩ := hrest you c hheld hway
    refine call_of_waiting hbegins hway hholder hqueue fun heq => ?_
    exact hawaits.idle hholder hway (heq ▸ hheld)
  · have hme : q.held owner = none := by
      cases hheld : q.held owner with
      | none => rfl
      | some c' => exact absurd hheld (hc c' hheld ▸ hawaits.idle hholder hway)
    obtain ⟨hcall, hlock⟩ := hawaits.coherent.expelled_of_closed hawaits.closed hme hway hholder
    refine ⟨hcall, (hawaits.attempt hc hcall hlock).letsGo ?_⟩
    rw [Play.attempt_world]
    exact congrArg Lock.holder hlock

/-- A link on which thread 0 is in the middle of a packet, and threads 1 and 2 wait to begin one. -/
def waitersBefore : Play Link Call Reply :=
  Play.run arena (new {} {} { items := [] } {}) [.call 0 (.beginWrite 5), .call 1 (.beginWrite 6), .call 2 (.beginWrite 7)]

/-- The same when thread 3 has closed it. -/
def waitersLeft : Play Link Call Reply :=
  waitersBefore.attempt arena 3 .close

theorem held_waitersLeft (hyou : waitersLeft.held you = some c) :
    (you = 1 ∧ c = .beginWrite 6) ∨ (you = 2 ∧ c = .beginWrite 7) := by
  have hheld : waitersLeft.held = Function.update (Function.update (Function.update (Function.update (fun _ => none)
      0 none) 1 (some (.beginWrite 6))) 2 (some (.beginWrite 7))) 3 none := rfl
  rw [hheld] at hyou
  by_cases h2 : you = 2
  · subst h2
    exact .inr ⟨rfl, (Option.some.inj hyou).symm⟩
  · by_cases h1 : you = 1
    · subst h1
      exact .inl ⟨rfl, (Option.some.inj hyou).symm⟩
    · simp [Function.update_apply, h1, h2] at hyou

theorem begins_waitersLeft (hyou : waitersLeft.held you = some c) :
    c.begins = true ∧ c.way? = some .writing ∧ you ∈ (waitersLeft.world.lock .writing).queue := by
  rcases held_waitersLeft hyou with ⟨rfl, rfl⟩ | ⟨rfl, rfl⟩
  · exact ⟨rfl, rfl, by decide +kernel⟩
  · exact ⟨rfl, rfl, by decide +kernel⟩

/-- The threads that wait go on waiting until thread 0 goes on, and are told then. -/
theorem waiters_told_once_unowned_by_writer :
    waitersLeft.world.call 1 (.beginWrite 6) = (.waiting, waitersLeft.world) ∧
      (waitersLeft.world.call 0 (.write [1])).1 = .error .closed ∧
      LetsGo (waitersLeft.attempt arena 0 (.write [1])) .writing ∧
      (waitersLeft.attempt arena 0 (.write [1])).world.outbound.lock.queue = [1, 2] := by
  obtain ⟨-, howned⟩ := waiters_told_once_unowned {} {} { items := [] } {} _ [] waitersBefore waitersLeft 3
    (course_run _ _) rfl (.of_none rfl _) .start .writing fun you c hyou hway =>
      ⟨(begins_waitersLeft hyou).1, (begins_waitersLeft hyou).2.2⟩
  obtain ⟨-, hwaits, hfrees⟩ := howned 0 rfl
  obtain ⟨hclosed, hgo⟩ := hfrees (.write [1]) rfl (.of_none rfl _)
  exact ⟨hwaits 1 (.beginWrite 6) rfl rfl, hclosed, hgo, by decide +kernel⟩

/-- So closing does not by itself let everybody go on who waits for a lock. -/
theorem waiters_not_told_while_owned :
    ¬ ∀ (settings : Settings) (hook : Hook) (src : Source) (sink : Sink) (trials : List (Trial Call Reply))
        (p : Play Link Call Reply), Course { world := new settings hook src sink } trials p → p.world.closed = true →
      (∀ you c, p.held you = some c → c.begins = true ∧ (∀ way, c.way? = some way → you ∈ (p.world.lock way).queue) ∧
        p.world.call you c = (.waiting, p.world)) →
      ∀ you, p.held you = none := by
  intro hall
  have hcourse := (course_run (new {} {} { items := [] } {})
    [.call 0 (.beginWrite 5), .call 1 (.beginWrite 6), .call 2 (.beginWrite 7)]).attempt 3 .close (.of_none rfl _)
  have hnobody := hall {} {} { items := [] } {} _ waitersLeft hcourse rfl (fun you c hyou => ?_) 1
  · cases hnobody
  · obtain ⟨hbegins, hway, hqueue⟩ := begins_waitersLeft hyou
    refine ⟨hbegins, fun way hc => by cases hway.symm.trans hc; exact hqueue, ?_⟩
    exact call_of_waiting hbegins hway (show _ = some 0 from rfl) hqueue fun heq => by
      rcases held_waitersLeft hyou with ⟨rfl, -⟩ | ⟨rfl, -⟩ <;> cases heq

end

end Link

end FrameLink
