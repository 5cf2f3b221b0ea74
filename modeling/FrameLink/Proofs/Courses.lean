import FrameLink.Proofs.PacketBoundaries

/-! Courses of events in surroundings that change by themselves. Threads attempt calls in any order, each call as often
as it takes to be answered; and between two attempts the shared thing may change without any thread's doing. For a
link this means that anything may happen to its byte streams: whatever its source comes to hold, however its sink
comes to reply, and whichever of the threads that queue up for a lock comes to the front. -/

namespace FrameLink

/-- An attempt of a thread at a call. A call that has to wait is attempted again. -/
structure Trial (κ ρ : Type) where
  thread : Thread
  call : κ
  result : Attempt LinkError ρ

namespace Play

variable {ω κ ρ : Type}

/-- Whether a thread may attempt a call: if it is held up, it goes on with the call that holds it up. -/
def Allows (p : Play ω κ ρ) (me : Thread) (c : κ) : Prop :=
  ∀ c', p.held me = some c' → c' = c

/-- The play after a thread has attempted a call. -/
def attempt (a : Arena ω κ ρ) (p : Play ω κ ρ) (me : Thread) (c : κ) : Play ω κ ρ :=
  p.after me c (a.call me c p.world).1 (a.call me c p.world).2

/-- The attempts that are made when threads take turns. -/
def trials (a : Arena ω κ ρ) : Play ω κ ρ → List (Turn κ) → List (Trial κ ρ)
  | _, [] => []
  | p, t :: turns =>
    (match t with
      | .call me c => [⟨me, (p.held me).getD c, (a.call me ((p.held me).getD c) p.world).1⟩]
      | .favour _ => []) ++ trials a (p.step a t) turns

/-- How a play may go on, with the attempts that are made on the way. In between the shared thing changes as `stirs`
allows. -/
inductive Course (a : Arena ω κ ρ) (stirs : ω → ω → Prop) (p : Play ω κ ρ) : List (Trial κ ρ) → Play ω κ ρ → Prop where
  | start : Course a stirs p [] p
  | attempt {trials : List (Trial κ ρ)} {q : Play ω κ ρ} (me : Thread) (c : κ) (h : Course a stirs p trials q)
      (hallows : q.Allows me c) :
      Course a stirs p (trials ++ [⟨me, c, (a.call me c q.world).1⟩]) (q.attempt a me c)
  | stir {trials : List (Trial κ ρ)} {q : Play ω κ ρ} {w : ω} (h : Course a stirs p trials q)
      (hstirs : stirs q.world w) : Course a stirs p trials { q with world := w }

section

variable {a : Arena ω κ ρ} {stirs : ω → ω → Prop} {p q : Play ω κ ρ} {trials : List (Trial κ ρ)}

/-- What is kept by every attempt that is allowed and by every change of the surroundings is kept on any course. -/
theorem Course.keeps {I : List (Trial κ ρ) → Play ω κ ρ → Prop} (h : Course a stirs p trials q)
    (hattempt : ∀ trials (q : Play ω κ ρ) me c, I trials q → q.Allows me c →
      I (trials ++ [⟨me, c, (a.call me c q.world).1⟩]) (q.attempt a me c))
    (hstir : ∀ trials (q : Play ω κ ρ) w, I trials q → stirs q.world w → I trials { q with world := w })
    (hp : I [] p) : I trials q := by
  induction h with
  | start => exact hp
  | attempt me c _ hallows ih => exact hattempt _ _ me c ih hallows
  | stir _ hstirs ih => exact hstir _ _ _ ih hstirs

theorem attempt_of_error {me : Thread} {c : κ} {e : LinkError} (h : (a.call me c p.world).1 = .error e) :
    p.attempt a me c =
      ⟨(a.call me c p.world).2, Function.update p.held me none, p.history ++ [⟨me, c, .error e⟩]⟩ := by
  rw [attempt, h]
  rfl

@[simp] theorem attempt_world (me : Thread) (c : κ) : (p.attempt a me c).world = (a.call me c p.world).2 :=
  after_world

end

/-- The calls of a kind that hold threads up. -/
def heldAmong (kind : κ → Bool) (held : Thread → Option κ) : Thread → Option κ :=
  fun me => (held me).filter kind

/-- The call that holds a thread up after an attempt at it, if it does. -/
def heldBy (c : κ) : Attempt LinkError ρ → Option κ
  | .waiting => some c
  | _ => none

theorem heldBy_map {σ : Type} (c : κ) (f : ρ → σ) (r : Attempt LinkError ρ) : heldBy c (r.map f) = heldBy c r := by
  cases r <;> rfl

section

variable {p : Play ω κ ρ} {kind : κ → Bool} {me : Thread} {c : κ} {r : Attempt LinkError ρ} {w : ω}

theorem after_held : (p.after me c r w).held = Function.update p.held me (heldBy c r) := by
  funext you
  by_cases hyou : you = me
  · subst hyou
    rw [after_held_self, Function.update_self]
    cases r <;> rfl
  · rw [after_held_of_ne hyou, Function.update_of_ne hyou]

theorem Allows.of_none (h : p.held me = none) (c : κ) : p.Allows me c :=
  fun _ hc => nomatch h.symm.trans hc

theorem Allows.of_some (h : p.held me = some c) : p.Allows me c :=
  fun _ hc => Option.some.inj (hc.symm.trans h)

theorem heldAmong_eq_some_iff {held : Thread → Option κ} :
    heldAmong kind held me = some c ↔ held me = some c ∧ kind c = true :=
  Option.filter_eq_some_iff

theorem heldAmong_of_none {held : Thread → Option κ} (kind : κ → Bool) (h : held me = none) :
    heldAmong kind held me = none := by
  rw [heldAmong, h]
  rfl

/-- Before an attempt at a call of a kind, its thread is held up by no other call of this kind. -/
theorem Allows.heldAmong (h : p.Allows me c) (kind : κ → Bool) :
    Play.heldAmong kind p.held me = none ∨ Play.heldAmong kind p.held me = some c := by
  cases hme : Play.heldAmong kind p.held me with
  | none => exact .inl rfl
  | some c' => exact .inr (congrArg some (h c' (heldAmong_eq_some_iff.1 hme).1))

theorem Allows.heldAmong_eq_none (h : p.Allows me c) (hkind : kind c = false) : Play.heldAmong kind p.held me = none := by
  rcases h.heldAmong kind with hnone | hsome
  · exact hnone
  · rw [(heldAmong_eq_some_iff.1 hsome).2] at hkind
    cases hkind

/-- An attempt at a call of another kind holds nobody up among the calls of a kind. -/
theorem heldAmong_after_of_not (h : p.Allows me c) (hkind : kind c = false) :
    heldAmong kind (p.after me c r w).held = heldAmong kind p.held := by
  funext you
  by_cases hyou : you = me
  · subst hyou
    rw [h.heldAmong_eq_none hkind, heldAmong, after_held, Function.update_self]
    cases r with
    | waiting => exact Option.filter_some_neg hkind
    | _ => rfl
  · rw [heldAmong, heldAmong, after_held_of_ne hyou]

theorem heldAmong_after (hkind : kind c = true) :
    heldAmong kind (p.after me c r w).held = Function.update (heldAmong kind p.held) me (heldBy c r) := by
  funext you
  by_cases hyou : you = me
  · subst hyou
    rw [heldAmong, after_held, Function.update_self, Function.update_self]
    cases r with
    | waiting => exact Option.filter_some_pos hkind
    | _ => rfl
  · rw [heldAmong, after_held_of_ne hyou, Function.update_of_ne hyou]
    rfl

end

end Play

namespace Link

/-- A new link over a source and a sink. -/
def new (settings : Settings) (hook : Hook) (src : Source) (sink : Sink) : Link :=
  { settings := settings, hook := hook, inbound := { source := src }, outbound := { sink := sink } }

/-- What may happen to a link while no thread is at work on it: its source comes to hold anything else, its sink to
reply in any other way, or a thread to the front of the queues that it stands in. What has been written to the sink
stays. -/
inductive Stirs (l : Link) : Link → Prop where
  | source (src : Source) : Stirs l { l with inbound := { l.inbound with source := src } }
  | sink (replies : List Sink.Reply) (flushes : List (Option IoError)) (broken : Option IoError) (passes : Nat) :
      Stirs l { l with outbound := { l.outbound with sink :=
        { l.outbound.sink with replies := replies, flushes := flushes, broken := broken, passes := passes } } }
  | favour (me : Thread) : Stirs l (l.favour me)

/-- The ways in which threads that share a link may go on, whatever happens to its byte streams. -/
abbrev Course : Play Link Call Reply → List (Trial Call Reply) → Play Link Call Reply → Prop :=
  Play.Course arena Stirs

/-- Turns that threads take one after the other are a course. -/
theorem course_run (l : Link) (turns : List (Turn Call)) :
    Course { world := l } (Play.trials arena { world := l } turns) (Play.run arena l turns) := by
  suffices h : ∀ (turns : List (Turn Call)) {before q}, Course { world := l } before q →
      Course { world := l } (before ++ Play.trials arena q turns) (turns.foldl (Play.step arena) q) from h turns .start
  intro turns
  induction turns with
  | nil =>
      intro before q h
      show Course { world := l } (before ++ []) q
      rw [List.append_nil]
      exact h
  | cons t turns ih =>
      intro before q h
      cases t with
      | favour me => exact ih (h.stir (.favour me))
      | call me c =>
          show Course { world := l } (before ++ ([_] ++ _)) _
          rw [← List.append_assoc]
          refine ih (h.attempt me ((q.held me).getD c) fun c' hc' => ?_)
          rw [hc', Option.getD_some]

end Link

end FrameLink
