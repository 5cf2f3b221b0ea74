import FrameLink.Proofs.Courses
import FrameLink.Proofs.Locks

/-! A lock from close by. `Lock` takes a call for it as one step. In fact its holder is kept under a mutex, and threads
that have to wait sleep at a condition: a call is made of sections under the mutex, a release wakes a sleeper only
after it has let go of the mutex, sleepers may wake up by themselves, and a thread that has been woken has to look
again whether anybody has been quicker. Here threads move section by section, in any order. The lock still has one
holder, nobody is left asleep beside a free lock, and what is told is what `Lock` tells. -/

namespace FrameLink

/-- Where a thread stands with a lock: in no call, asleep in an acquisition, awake again in one and yet to look at the
holder, or in a release that has cleared the holder and is yet to wake a sleeper. -/
inductive Place where
  | outside
  | parked
  | woken
  | leaving
  deriving DecidableEq

/-- What a thread does with a lock at one go. It makes a call and is through with its first section; awake again, it
looks at the holder; it wakes up, though nobody has woken it; or at the end of a release it wakes a sleeper, if there
is one. -/
inductive Move where
  | call (request : Lock.Request)
  | retry
  | stir
  | notify (woken : Option Thread)

/-- Whether a move may end an acquisition. -/
def Move.acquires : Move → Bool
  | .call (.acquire _) | .retry => true
  | _ => false

/-- A lock whose threads are watched inside their calls. -/
structure Monitor where
  holder : Option Thread := none
  place : Thread → Place := fun _ => .outside

namespace Monitor

def put (m : Monitor) (me : Thread) (place : Place) : Monitor :=
  { m with place := Function.update m.place me place }

/-- The head of the loop that acquisitions wait in: the thread takes the lock if nobody holds it, and goes to sleep
otherwise. -/
def contend (m : Monitor) (me : Thread) : Attempt LinkError Reply × Monitor :=
  if m.holder.isSome then (.waiting, m.put me .parked)
  else (.ok .done, { m.put me .outside with holder := some me })

/-- The first section of a call. -/
def enter (m : Monitor) (me : Thread) : Lock.Request → Attempt LinkError Reply × Monitor
  | .acquire operation =>
    if m.holder = some me then (.error (.reentrancy operation), m) else m.contend me
  | .release =>
    if m.holder = some me then (.waiting, { m.put me .leaving with holder := none }) else (.ok (.flag false), m)
  | .isHeld => (.ok (.flag (m.holder = some me)), m)

/-- What a move comes to. -/
def next (m : Monitor) (me : Thread) : Move → Attempt LinkError Reply × Monitor
  | .call request => m.enter me request
  | .retry => m.contend me
  | .stir => (.waiting, m.put me .woken)
  | .notify none => (.ok (.flag true), m.put me .outside)
  | .notify (some you) => (.ok (.flag true), (m.put me .outside).put you .woken)

/-- Whether a thread may make a move where it stands. A release wakes some sleeper, whichever it is, unless there is
none. -/
def Enables (m : Monitor) (me : Thread) : Move → Prop
  | .call _ => m.place me = .outside
  | .retry => m.place me = .woken
  | .stir => m.place me = .parked
  | .notify none => m.place me = .leaving ∧ ∀ you, m.place you ≠ .parked
  | .notify (some you) => m.place me = .leaving ∧ m.place you = .parked

def Step (m : Monitor) (me : Thread) (move : Move) (r : Attempt LinkError Reply) (m' : Monitor) : Prop :=
  m.Enables me move ∧ m.next me move = (r, m')

end Monitor

/-- The moves of any number of threads in any order, and what they come to. -/
inductive Moves {σ : Type} (step : σ → Thread → Move → Attempt LinkError Reply → σ → Prop) :
    σ → List (Trial Move Reply) → σ → Prop where
  | done (s : σ) : Moves step s [] s
  | move {s t u : σ} {me : Thread} {move : Move} {r : Attempt LinkError Reply} {trials : List (Trial Move Reply)}
      (hstep : step s me move r t) (h : Moves step t trials u) : Moves step s (⟨me, move, r⟩ :: trials) u

theorem Moves.split {σ : Type} {step : σ → Thread → Move → Attempt LinkError Reply → σ → Prop} {s u : σ}
    {before after : List (Trial Move Reply)} (h : Moves step s (before ++ after) u) :
    ∃ t, Moves step s before t ∧ Moves step t after u := by
  induction before generalizing s with
  | nil => exact ⟨s, .done s, h⟩
  | cons t before ih =>
      cases h with
      | move hstep h =>
          obtain ⟨v, hbefore, hafter⟩ := ih h
          exact ⟨v, .move hstep hbefore, hafter⟩

namespace Monitor

/-- The holder is in no call; and if threads sleep beside a free lock, one that is awake is about to look at the holder
or to wake somebody. -/
structure IsSound (m : Monitor) : Prop where
  outside : ∀ me, m.holder = some me → m.place me = .outside
  awake : m.holder = none → ∀ me, m.place me = .parked → ∃ you, m.place you = .woken ∨ m.place you = .leaving

/-- Every way in which a move may end. -/
inductive Outcome (m : Monitor) (me : Thread) : Move → Attempt LinkError Reply → Monitor → Prop where
  | refused {operation : String} (hplace : m.place me = .outside) (hholder : m.holder = some me) :
      Outcome m me (.call (.acquire operation)) (.error (.reentrancy operation)) m
  | taken {move : Move} (hmove : move.acquires = true) (henables : m.Enables me move) (hholder : m.holder = none) :
      Outcome m me move (.ok .done) { m.put me .outside with holder := some me }
  | parked {move : Move} {you : Thread} (hmove : move.acquires = true) (henables : m.Enables me move)
      (hholder : m.holder = some you) (hyou : you ≠ me) :
      Outcome m me move .waiting (m.put me .parked)
  | left (hplace : m.place me = .outside) (hholder : m.holder = some me) :
      Outcome m me (.call .release) .waiting { m.put me .leaving with holder := none }
  | kept (hplace : m.place me = .outside) (hholder : m.holder ≠ some me) :
      Outcome m me (.call .release) (.ok (.flag false)) m
  | told (hplace : m.place me = .outside) :
      Outcome m me (.call .isHeld) (.ok (.flag (m.holder = some me))) m
  | stirred (hplace : m.place me = .parked) : Outcome m me .stir .waiting (m.put me .woken)
  | unheard (hplace : m.place me = .leaving) (hnone : ∀ you, m.place you ≠ .parked) :
      Outcome m me (.notify none) (.ok (.flag true)) (m.put me .outside)
  | notified {you : Thread} (hplace : m.place me = .leaving) (hyou : m.place you = .parked) :
      Outcome m me (.notify (some you)) (.ok (.flag true)) ((m.put me .outside).put you .woken)

section

variable {m m' : Monitor} {me : Thread} {move : Move} {r : Attempt LinkError Reply} {place : Place}

theorem put_place_self : (m.put me place).place me = place :=
  Function.update_self _ _ _

theorem put_place_of_ne {you : Thread} (hyou : you ≠ me) : (m.put me place).place you = m.place you :=
  Function.update_of_ne hyou _ _

theorem contend_outcome (hmove : move.acquires = true) (henables : m.Enables me move) (hme : m.holder ≠ some me) :
    Outcome m me move (m.contend me).1 (m.contend me).2 := by
  cases hholder : m.holder with
  | none =>
      rw [contend, hholder, Option.isSome_none, if_neg Bool.false_ne_true]
      exact .taken hmove henables hholder
  | some you =>
      rw [contend, hholder, Option.isSome_some, if_pos rfl]
      exact .parked hmove henables hholder fun heq => hme (heq ▸ hholder)

theorem enter_outcome (request : Lock.Request) (hplace : m.place me = .outside) :
    Outcome m me (.call request) (m.enter me request).1 (m.enter me request).2 := by
  cases request with
  | acquire operation =>
      by_cases hholder : m.holder = some me
      · rw [enter, if_pos hholder]
        exact .refused hplace hholder
      · rw [enter, if_neg hholder]
        exact contend_outcome rfl hplace hholder
  | release =>
      by_cases hholder : m.holder = some me
      · rw [enter, if_pos hholder]
        exact .left hplace hholder
      · rw [enter, if_neg hholder]
        exact .kept hplace hholder
  | isHeld => exact .told hplace

/-- A thread that is in a call is not the holder. -/
theorem IsSound.ne_of_place (h : m.IsSound) {you : Thread} (hholder : m.holder = some you)
    (hplace : m.place me ≠ .outside) : you ≠ me :=
  fun heq => hplace (heq ▸ h.outside you hholder)

theorem IsSound.outcome (h : m.IsSound) (hstep : m.Step me move r m') : Outcome m me move r m' := by
  obtain ⟨henables, hnext⟩ := hstep
  obtain ⟨rfl, rfl⟩ : (m.next me move).1 = r ∧ (m.next me move).2 = m' := by rw [hnext]; exact ⟨rfl, rfl⟩
  cases move with
  | call request => exact enter_outcome request henables
  | retry =>
      refine contend_outcome rfl henables fun hholder => ?_
      exact h.ne_of_place hholder (henables ▸ nofun) rfl
  | stir => exact .stirred henables
  | notify woken =>
      cases woken with
      | none => exact .unheard henables.1 henables.2
      | some you => exact .notified henables.1 henables.2

/-- A move that leaves the holder as it is, and its place too, keeps it outside. -/
theorem IsSound.outside_of_kept (h : m.IsSound) (hholder : m'.holder = m.holder)
    (hplaces : ∀ you, m.holder = some you → m'.place you = m.place you) (you : Thread) (hyou : m'.holder = some you) :
    m'.place you = .outside := by
  rw [hholder] at hyou
  exact (hplaces you hyou).trans (h.outside you hyou)

theorem IsSound.step (h : m.IsSound) (hstep : m.Step me move r m') : m'.IsSound := by
  cases h.outcome hstep with
  | refused => exact h
  | kept => exact h
  | told => exact h
  | taken hmove henables hholder =>
      refine ⟨fun you hyou => ?_, nofun⟩
      cases hyou
      exact put_place_self
  | @parked _ you hmove henables hholder hyou =>
      refine ⟨h.outside_of_kept rfl fun other hother => ?_, fun hnone => ?_⟩
      · cases hholder.symm.trans hother
        exact put_place_of_ne hyou
      · cases hholder.symm.trans hnone
  | left => exact ⟨nofun, fun _ _ _ => ⟨me, .inr put_place_self⟩⟩
  | stirred hplace =>
      refine ⟨h.outside_of_kept rfl fun you hyou => ?_, fun _ _ _ => ⟨me, .inl put_place_self⟩⟩
      exact put_place_of_ne (h.ne_of_place hyou (hplace ▸ nofun))
  | unheard hplace hnone =>
      refine ⟨h.outside_of_kept rfl fun you hyou => ?_, fun _ you hyou => ?_⟩
      · exact put_place_of_ne (h.ne_of_place hyou (hplace ▸ nofun))
      · -- Nobody sleeps, and the thread itself does not begin to.
        by_cases hsame : you = me
        · subst hsame
          cases put_place_self.symm.trans hyou
        · exact absurd ((put_place_of_ne hsame).symm.trans hyou) (hnone you)
  | @notified other hplace hother =>
      refine ⟨h.outside_of_kept rfl fun you hyou => ?_, fun _ _ _ => ⟨other, .inl put_place_self⟩⟩
      rw [put_place_of_ne (h.ne_of_place hyou (hother ▸ nofun)), put_place_of_ne (h.ne_of_place hyou (hplace ▸ nofun))]

end

section

variable {m m' : Monitor} {me you : Thread} {move : Move} {r : Attempt LinkError Reply}
  {trials after : List (Trial Move Reply)}

theorem isSound_new : IsSound {} :=
  ⟨nofun, fun _ _ => nofun⟩

theorem IsSound.moves (h : m.IsSound) (hmoves : Moves Step m trials m') : m'.IsSound := by
  induction hmoves with
  | done => exact h
  | move hstep _ ih => exact ih (h.step hstep)

theorem enables_ne_leaving (hmove : move.acquires = true) (henables : m.Enables me move) : m.place me ≠ .leaving := by
  cases move with
  | call => exact henables ▸ nofun
  | retry => exact henables ▸ nofun
  | stir => cases hmove
  | notify => cases hmove

theorem IsSound.holder_of_acquired (h : m.IsSound) {reply : Reply} (hstep : m.Step me move (.ok reply) m')
    (hmove : move.acquires = true) : m.holder = none ∧ m'.holder = some me := by
  cases h.outcome hstep with
  | taken _ _ hholder => exact ⟨hholder, rfl⟩
  | kept => cases hmove
  | told => cases hmove
  | unheard => cases hmove
  | notified => cases hmove

/-- Whoever holds the lock holds it on unless it gives it up, and nobody takes it meanwhile. -/
theorem IsSound.step_of_holder (h : m.IsSound) (hstep : m.Step me move r m') (hholder : m.holder = some you)
    (hkeeps : me = you → move ≠ .call .release) :
    m'.holder = some you ∧ (move.acquires = true → ∀ reply, r ≠ .ok reply) := by
  cases h.outcome hstep with
  | refused => exact ⟨hholder, fun _ _ => nofun⟩
  | taken _ _ hnone => cases hnone.symm.trans hholder
  | parked => exact ⟨hholder, fun _ _ => nofun⟩
  | left _ hme => exact absurd rfl (hkeeps (Option.some.inj (hme.symm.trans hholder)))
  | kept => exact ⟨hholder, nofun⟩
  | told => exact ⟨hholder, nofun⟩
  | stirred => exact ⟨hholder, nofun⟩
  | unheard => exact ⟨hholder, nofun⟩
  | notified => exact ⟨hholder, nofun⟩

theorem IsSound.moves_of_holder (h : m.IsSound) (hmoves : Moves Step m after m') (hholder : m.holder = some you)
    (hkeeps : ∀ t ∈ after, t.thread = you → t.call ≠ .call .release) :
    m'.holder = some you ∧ ∀ t ∈ after, t.call.acquires = true → ∀ reply, t.result ≠ .ok reply := by
  induction hmoves with
  | done => exact ⟨hholder, fun _ ht => nomatch ht⟩
  | move hstep _ ih =>
      obtain ⟨hstill, hfirst⟩ := h.step_of_holder hstep hholder (hkeeps _ List.mem_cons_self)
      obtain ⟨hend, hnobody⟩ := ih (h.step hstep) hstill fun t ht => hkeeps t (List.mem_cons_of_mem _ ht)
      exact ⟨hend, List.forall_mem_cons.2 ⟨hfirst, hnobody⟩⟩

theorem leaving_of_put {place : Place} (hyou : (m.put me place).place you = .leaving) (hplace : place ≠ .leaving) :
    me ≠ you ∧ m.place you = .leaving := by
  by_cases hsame : you = me
  · subst hsame
    exact absurd (put_place_self.symm.trans hyou) hplace
  · exact ⟨fun heq => hsame heq.symm, (put_place_of_ne hsame).symm.trans hyou⟩

theorem IsSound.leaving_of_step (h : m.IsSound) (hstep : m.Step me move r m') (hyou : m'.place you = .leaving) :
    (me ≠ you ∧ m.place you = .leaving) ∨
      (me = you ∧ move = .call .release ∧ r = .waiting ∧ m.holder = some you) := by
  have hother (hplace : m.place me = .outside) (hyou : m.place you = .leaving) : me ≠ you ∧ m.place you = .leaving := by
    refine ⟨fun heq => ?_, hyou⟩
    subst heq
    cases hplace.symm.trans hyou
  cases h.outcome hstep with
  | refused hplace => exact .inl (hother hplace hyou)
  | kept hplace => exact .inl (hother hplace hyou)
  | told hplace => exact .inl (hother hplace hyou)
  | taken => exact .inl (leaving_of_put hyou (by decide))
  | parked => exact .inl (leaving_of_put hyou (by decide))
  | stirred => exact .inl (leaving_of_put hyou (by decide))
  | unheard => exact .inl (leaving_of_put hyou (by decide))
  | notified => exact .inl (leaving_of_put (leaving_of_put hyou (by decide)).2 (by decide))
  | left _ hholder =>
      by_cases hsame : you = me
      · exact .inr ⟨hsame.symm, rfl, rfl, hsame ▸ hholder⟩
      · exact .inl ⟨fun heq => hsame heq.symm, (put_place_of_ne hsame).symm.trans hyou⟩

/-- A thread comes to wake a sleeper only by giving up the lock that it holds. -/
theorem IsSound.released_of_leaving (h : m.IsSound) (hmoves : Moves Step m trials m') (hme : m'.place me = .leaving) :
    (m.place me = .leaving ∧ ∀ t ∈ trials, t.thread ≠ me) ∨
      ∃ before after n, trials = before ++ ⟨me, .call .release, .waiting⟩ :: after ∧ (∀ t ∈ after, t.thread ≠ me) ∧
        Moves Step m before n ∧ n.holder = some me := by
  induction hmoves with
  | done => exact .inl ⟨hme, List.forall_mem_nil _⟩
  | @move m n m' you move r trials hstep hmoves ih =>
      rcases ih (h.step hstep) hme with ⟨hplace, hothers⟩ | ⟨before, after, n', rfl, hafter, hbefore, hholder⟩
      · rcases h.leaving_of_step hstep hplace with ⟨hne, hplace⟩ | ⟨rfl, rfl, rfl, hholder⟩
        · exact .inl ⟨hplace, List.forall_mem_cons.2 ⟨hne, hothers⟩⟩
        · exact .inr ⟨[], trials, m, rfl, hothers, .done m, hholder⟩
      · exact .inr ⟨_ :: before, after, n', rfl, hafter, .move hstep hbefore, hholder⟩

end

end Monitor

/-- What a lock does at one go when a thread moves. A thread that looks at the holder again has come to the front. -/
inductive Lock.Makes (l : Lock) (me : Thread) : Move → Attempt LinkError Reply → Lock → Prop where
  | acquire (operation : String) :
      Makes l me (.call (.acquire operation)) ((l.acquire me operation).1.map fun _ => .done)
        (l.acquire me operation).2
  | retry (operation : String) :
      Makes l me .retry (((l.favour me).acquire me operation).1.map fun _ => .done)
        ((l.favour me).acquire me operation).2
  | release :
      Makes l me (.call .release) (if (l.release me).1 then .waiting else .ok (.flag false)) (l.release me).2
  | isHeld : Makes l me (.call .isHeld) (.ok (.flag (l.isHeldBy me))) l
  | stir : Makes l me .stir .waiting l
  | notify (woken : Option Thread) : Makes l me (.notify woken) (.ok (.flag true)) l

namespace Monitor

/-- Whether a thread is in the middle of an acquisition. -/
def Awaits (m : Monitor) (me : Thread) : Prop :=
  m.place me = .parked ∨ m.place me = .woken

/-- What a lock shows of its threads: the holder, and those in the middle of an acquisition in its queue. -/
structure Shows (m : Monitor) (l : Lock) : Prop where
  holder : l.holder = m.holder
  orderly : l.IsOrderly m.Awaits
  awaited : ∀ you, m.Awaits you → you ∈ l.queue

section

variable {m m' : Monitor} {l : Lock} {me you : Thread} {move : Move} {r : Attempt LinkError Reply} {place : Place}

theorem shows_new : Shows {} {} :=
  ⟨rfl, ⟨.nil, nofun, nofun⟩, fun _ h => h.elim nofun nofun⟩

theorem awaits_put_of_ne (hyou : you ≠ me) : (m.put me place).Awaits you ↔ m.Awaits you := by
  rw [Awaits, Awaits, put_place_of_ne hyou]

theorem awaits_put_self : (m.put me place).Awaits me ↔ place = .parked ∨ place = .woken := by
  rw [Awaits, put_place_self]

namespace Shows

theorem not_mem_of_outside (h : m.Shows l) (hplace : m.place me = .outside) : me ∉ l.queue :=
  fun hmem => (h.orderly.waits me hmem).elim (hplace ▸ nofun) (hplace ▸ nofun)

theorem put (h : m.Shows l) (hawaits : place = .parked ∨ place = .woken ↔ m.Awaits me) : (m.put me place).Shows l := by
  have hsame : (m.put me place).Awaits = m.Awaits := by
    funext you
    by_cases hyou : you = me
    · rw [hyou, awaits_put_self, hawaits]
    · rw [awaits_put_of_ne hyou]
  exact ⟨h.holder, hsame ▸ h.orderly, hsame ▸ h.awaited⟩

theorem taken (h : m.Shows l) : { m.put me .outside with holder := some me }.Shows (l.taken me) where
  holder := rfl
  orderly := h.orderly.taken fun _ hyou => (awaits_put_of_ne hyou).2
  awaited you hyou := by
    by_cases hsame : you = me
    · subst hsame
      exact (awaits_put_self.1 hyou).elim nofun nofun
    · exact (List.mem_erase_of_ne hsame).2 (h.awaited you ((awaits_put_of_ne hsame).1 hyou))

theorem parked (h : m.Shows l) (hme : l.holder ≠ some me) :
    (m.put me .parked).Shows ⟨l.holder, (l.enqueue me).queue⟩ where
  holder := h.holder
  orderly := h.orderly.enqueue hme (awaits_put_self.2 (.inl rfl)) fun _ hyou => (awaits_put_of_ne hyou).2
  awaited you hyou := by
    rw [Lock.mem_enqueue]
    by_cases hsame : you = me
    · exact .inr hsame
    · exact .inl (h.awaited you ((awaits_put_of_ne hsame).1 hyou))

theorem left (h : m.Shows l) (hplace : m.place me = .outside) :
    { m.put me .leaving with holder := none }.Shows { l with holder := none } := by
  have hput : (m.put me .leaving).Shows l :=
    h.put (iff_of_false (fun hor => hor.elim nofun nofun) fun hor => hor.elim (hplace ▸ nofun) (hplace ▸ nofun))
  exact ⟨rfl, ⟨hput.orderly.nodup, hput.orderly.waits, fun _ _ => nofun⟩, hput.awaited⟩

theorem favour (h : m.Shows l) (you : Thread) : m.Shows (l.favour you) where
  holder := (l.favour_holder you).trans h.holder
  orderly := h.orderly.favour you
  awaited other hother := Lock.mem_favour.2 (h.awaited other hother)

/-- A thread that looks at the holder finds itself in front of all others. -/
theorem front (h : m.Shows l) (hmove : move.acquires = true) (henables : m.Enables me move) :
    ∃ l₀ operation, m.Shows l₀ ∧ (m.holder = none → l₀.isFreeFor me = true) ∧
      l.Makes me move ((l₀.acquire me operation).1.map fun _ => .done) (l₀.acquire me operation).2 := by
  cases move with
  | call request =>
      cases request with
      | acquire operation =>
          refine ⟨l, operation, h, fun hnone => ?_, .acquire operation⟩
          exact Lock.isFreeFor_of_not_awaited (h.holder.trans hnone)
            (Lock.isAwaitedBy_eq_false_iff.2 (h.not_mem_of_outside henables))
      | release => cases hmove
      | isHeld => cases hmove
  | retry =>
      refine ⟨l.favour me, "", h.favour me, fun hnone => ?_, .retry ""⟩
      exact Lock.isFreeFor_favour (h.holder.trans hnone)
  | stir => cases hmove
  | notify => cases hmove

/-- Whatever a thread does, the lock has a step that tells the same and shows what has become of the threads. -/
theorem step (h : m.Shows l) (hsound : m.IsSound) (hstep : m.Step me move r m') :
    ∃ l', l.Makes me move r l' ∧ m'.Shows l' := by
  cases hsound.outcome hstep with
  | @refused operation _ hholder =>
      have hmakes := @Lock.Makes.acquire l me operation
      rw [Lock.acquire_of_holder (h.holder.trans hholder)] at hmakes
      exact ⟨l, hmakes, h⟩
  | taken hmove henables hholder =>
      obtain ⟨l₀, operation, hl₀, hfree, hmakes⟩ := h.front hmove henables
      rw [Lock.acquire_of_isFreeFor (hfree hholder)] at hmakes
      exact ⟨l₀.taken me, hmakes, hl₀.taken⟩
  | @parked _ you hmove henables hholder hyou =>
      obtain ⟨l₀, operation, hl₀, _, hmakes⟩ := h.front hmove henables
      rw [Lock.acquire_of_other (hl₀.holder.trans hholder) hyou] at hmakes
      refine ⟨_, hmakes, hl₀.parked fun heq => hyou ?_⟩
      exact Option.some.inj ((hl₀.holder.trans hholder).symm.trans heq)
  | left hplace hholder =>
      have hmakes := @Lock.Makes.release l me
      rw [Lock.release, if_pos (Lock.isHeldBy_iff.2 (h.holder.trans hholder))] at hmakes
      exact ⟨_, hmakes, h.left hplace⟩
  | kept _ hholder =>
      have hmakes := @Lock.Makes.release l me
      rw [Lock.release, if_neg fun hheld => hholder (h.holder ▸ Lock.isHeldBy_iff.1 hheld)] at hmakes
      exact ⟨l, hmakes, h⟩
  | told =>
      have hmakes := @Lock.Makes.isHeld l me
      rw [Lock.isHeldBy, h.holder] at hmakes
      exact ⟨l, hmakes, h⟩
  | stirred hplace => exact ⟨l, .stir, h.put (iff_of_true (.inr rfl) (.inl hplace))⟩
  | unheard hplace => exact ⟨l, .notify none, h.put (iff_of_false (by decide) (by rw [Awaits, hplace]; decide))⟩
  | @notified you hplace hyou =>
      have hput : (m.put me .outside).Shows l := h.put (iff_of_false (by decide) (by rw [Awaits, hplace]; decide))
      refine ⟨l, .notify (some you), hput.put (iff_of_true (.inr rfl) ?_)⟩
      rw [awaits_put_of_ne fun heq => by cases (heq ▸ hplace).symm.trans hyou]
      exact .inl hyou

end Shows

theorem Shows.moves (h : m.Shows l) (hsound : m.IsSound) {trials : List (Trial Move Reply)}
    (hmoves : Moves Step m trials m') : ∃ l', Moves Lock.Makes l trials l' ∧ m'.Shows l' := by
  induction hmoves generalizing l with
  | done => exact ⟨l, .done l, h⟩
  | move hstep _ ih =>
      obtain ⟨l', hmakes, hl'⟩ := h.step hsound hstep
      obtain ⟨l'', hmoves, hl''⟩ := ih hl' (hsound.step hstep)
      exact ⟨l'', .move hmakes hmoves, hl''⟩

end

/-- Threads move section by section in any order, sleepers wake up by themselves, and a release wakes any one of them.

An acquisition succeeds only while nobody holds the lock, and its thread then does; it is refused exactly to the holder,
and changes nothing then. A release by the holder frees the lock and in the end tells that it did; any other release
tells that it did not, and changes nothing; and only what has given up the lock comes to tell that it did. Between an
acquisition and the release by the same thread no other acquisition succeeds. While threads sleep beside a free lock,
one that is awake is about to look at the holder, or about to wake one of them. All that is told is what a `Lock` tells
whose queue is made of the threads in the middle of an acquisition. -/
theorem exclusive_and_wakeful {trials : List (Trial Move Reply)} {m : Monitor} (h : Moves Step {} trials m) :
    (∀ me move r m', m.Step me move r m' → move.acquires = true →
      (∀ reply, r = .ok reply → m.holder = none ∧ m'.holder = some me) ∧
      ((∃ cause, r = .error cause) ↔ m.holder = some me) ∧
      (∀ cause, r = .error cause → m' = m ∧ ∃ operation, move = .call (.acquire operation) ∧
        cause = .reentrancy operation)) ∧
    (∀ me r m', m.Step me (.call .release) r m' →
      (m.holder = some me → r = .waiting ∧ m'.holder = none ∧ m'.place me = .leaving) ∧
      (m.holder ≠ some me → r = .ok (.flag false) ∧ m' = m)) ∧
    (∀ me move r m', m.Step me move r m' → m.place me = .leaving →
      r = .ok (.flag true) ∧ m'.holder = m.holder ∧
      ∃ before after n, trials = before ++ ⟨me, .call .release, .waiting⟩ :: after ∧ (∀ t ∈ after, t.thread ≠ me) ∧
        Moves Step {} before n ∧ n.holder = some me) ∧
    (∀ before t after reply, trials = before ++ t :: after → t.call.acquires = true → t.result = .ok reply →
      (∀ t' ∈ after, t'.thread = t.thread → t'.call ≠ .call .release) →
      m.holder = some t.thread ∧ ∀ t' ∈ after, t'.call.acquires = true → ∀ reply', t'.result ≠ .ok reply') ∧
    (m.holder = none → ∀ me, m.place me = .parked → ∃ you, m.place you = .woken ∨ m.place you = .leaving) ∧
    ∃ l, Moves Lock.Makes {} trials l ∧ m.Shows l := by
  have hsound := isSound_new.moves h
  refine ⟨fun me move r m' hstep hmove => ?_, fun me r m' hstep => ⟨fun hme => ?_, fun hme => ?_⟩,
    fun me move r m' hstep hplace => ?_, ?_, hsound.awake, shows_new.moves isSound_new h⟩
  · cases hsound.outcome hstep with
    | refused _ hholder =>
        refine ⟨fun _ hok => (nomatch hok), iff_of_true ⟨_, rfl⟩ hholder, fun cause hcause => ⟨rfl, _, rfl, ?_⟩⟩
        cases hcause
        rfl
    | taken _ _ hholder =>
        refine ⟨fun _ _ => ⟨hholder, rfl⟩, iff_of_false (fun ⟨_, hcause⟩ => nomatch hcause) ?_,
          fun _ hcause => nomatch hcause⟩
        rw [hholder]
        exact nofun
    | parked _ _ hholder hyou =>
        refine ⟨fun _ hok => (nomatch hok), iff_of_false (fun ⟨_, hcause⟩ => nomatch hcause) fun hme => ?_,
          fun _ hcause => nomatch hcause⟩
        exact hyou (Option.some.inj (hholder.symm.trans hme))
    | left => cases hmove
    | kept => cases hmove
    | told => cases hmove
    | stirred => cases hmove
    | unheard => cases hmove
    | notified => cases hmove
  · cases hsound.outcome hstep with
    | taken hmove => cases hmove
    | parked hmove => cases hmove
    | left => exact ⟨rfl, rfl, put_place_self⟩
    | kept _ hholder => exact absurd hme hholder
  · cases hsound.outcome hstep with
    | taken hmove => cases hmove
    | parked hmove => cases hmove
    | left _ hholder => exact absurd hholder hme
    | kept => exact ⟨rfl, rfl⟩
  · have hreleased := (isSound_new.released_of_leaving h hplace).resolve_left fun hnew => by cases hnew.1
    cases hsound.outcome hstep with
    | unheard => exact ⟨rfl, rfl, hreleased⟩
    | notified => exact ⟨rfl, rfl, hreleased⟩
    | refused houtside => cases houtside.symm.trans hplace
    | left houtside => cases houtside.symm.trans hplace
    | kept houtside => cases houtside.symm.trans hplace
    | told houtside => cases houtside.symm.trans hplace
    | stirred hparked => cases hparked.symm.trans hplace
    | @taken move hmove henables =>
        exact absurd hplace (enables_ne_leaving hmove henables)
    | @parked move _ hmove henables =>
        exact absurd hplace (enables_ne_leaving hmove henables)
  · rintro before t after reply rfl hacquires hresult hkeeps
    obtain ⟨n, hbefore, hrest⟩ := h.split
    cases hrest with
    | @move _ n' _ me move r _ hstep hafter =>
        have hn := isSound_new.moves hbefore
        cases hresult
        obtain ⟨_, hholder⟩ := hn.holder_of_acquired hstep hacquires
        exact (hn.step hstep).moves_of_holder hafter hholder hkeeps

/-- Thread 1 sleeps behind thread 0. Thread 2 is quicker than this sleeper, which thread 0 has woken, and has just
freed the lock again. -/
def overtaking : List (Trial Move Reply) :=
  [⟨0, .call (.acquire "begin_write"), .ok .done⟩, ⟨1, .call (.acquire "begin_write"), .waiting⟩,
    ⟨0, .call .release, .waiting⟩, ⟨2, .call (.acquire "begin_write"), .ok .done⟩,
    ⟨0, .notify (some 1), .ok (.flag true)⟩, ⟨1, .retry, .waiting⟩, ⟨2, .call .release, .waiting⟩]

theorem exclusive_and_wakeful_overtaken :
    ∃ m, Moves Step {} overtaking m ∧ m.holder = none ∧ m.place 1 = .parked ∧
      ∃ you, m.place you = .woken ∨ m.place you = .leaving := by
  have hmoves : Moves Step {} overtaking _ := .move ⟨rfl, rfl⟩ <| .move ⟨rfl, rfl⟩ <| .move ⟨rfl, rfl⟩ <|
    .move ⟨rfl, rfl⟩ <| .move ⟨⟨rfl, rfl⟩, rfl⟩ <| .move ⟨rfl, rfl⟩ <| .move ⟨rfl, rfl⟩ <| .done _
  refine ⟨_, hmoves, rfl, rfl, ?_⟩
  obtain ⟨_, _, _, _, hawake, _⟩ := exclusive_and_wakeful hmoves
  exact hawake rfl 1 rfl

end Monitor
end FrameLink
