import FrameLink.Reader

/-! Loops that nothing bounds. What reads on a link makes at most so many rounds and would stop at that; here is what it
stands for, a loop that goes on for as long as its rounds say so. Where something gets less with every round that goes
on, the loop comes to an answer, and a function that is allowed as many rounds comes to the same one. -/

namespace FrameLink

/-- What one round of a loop comes to. -/
inductive Round (σ α : Type) where
  | ends (answer : α)
  | goesOn (next : σ)

/-- The answer of the round, or that of going on. -/
def Round.resume {σ α : Type} (rest : σ → α) : Round σ α → α
  | .ends a => a
  | .goesOn t => rest t

/-- The loop comes from a state to an answer, in so many rounds that go on and a last one that does not. -/
inductive Loop {σ α : Type} (round : σ → Round σ α) : Nat → σ → α → Prop where
  | ends {s : σ} {a : α} (h : round s = .ends a) : Loop round 0 s a
  | goesOn {k : Nat} {s t : σ} {a : α} (h : round s = .goesOn t) (hrest : Loop round k t a) : Loop round (k + 1) s a

/-- The function makes the rounds of the loop, and only so many of them that go on as it is allowed. -/
structure Runs {σ α : Type} (round : σ → Round σ α) (run : Nat → σ → α) : Prop where
  ends : ∀ {s : σ} {a : α} (rounds : Nat), round s = .ends a → run rounds s = a
  goesOn : ∀ {s t : σ} (rounds : Nat), round s = .goesOn t → run (rounds + 1) s = run rounds t

section

variable {σ α : Type} {round : σ → Round σ α} {run : Nat → σ → α} {k rounds : Nat} {s : σ} {a : α}

theorem Runs.eq_of_loop (hruns : Runs round run) (h : Loop round k s a) (hrounds : k ≤ rounds) : run rounds s = a := by
  induction h generalizing rounds with
  | ends h => exact hruns.ends rounds h
  | goesOn h _ ih =>
      obtain ⟨rounds, rfl⟩ := Nat.exists_eq_add_of_le' hrounds
      rw [← Nat.add_assoc, hruns.goesOn _ h]
      exact ih (Nat.le_add_left _ _)

theorem Runs.of_succ (run : Nat → σ → α) (h : ∀ rounds s, run (rounds + 1) s = (round s).resume (run rounds)) :
    Runs round fun rounds => run (rounds + 1) where
  ends rounds hround := by rw [h, hround, Round.resume]
  goesOn rounds hround := by rw [h, hround, Round.resume]

/-- What holds from one round to the next holds when the last one begins. -/
theorem Loop.keeps {I : σ → Prop} (hstep : ∀ {s t}, I s → round s = .goesOn t → I t) (h : Loop round k s a)
    (hs : I s) : ∃ u, I u ∧ round u = .ends a := by
  induction h with
  | ends h => exact ⟨_, hs, h⟩
  | goesOn h _ ih => exact ih (hstep hs h)

/-- A loop with a measure that every round lowers comes to an answer. The condition `I` holds from one round to the
next. -/
theorem Loop.exists_of_measure {I : σ → Prop} (measure : σ → Nat)
    (hstep : ∀ {s t}, I s → round s = .goesOn t → I t ∧ measure t < measure s) (hs : I s) :
    ∃ k a, Loop round k s a ∧ k ≤ measure s := by
  induction hm : measure s using Nat.strongRecOn generalizing s with
  | ind m ih =>
      cases hround : round s with
      | ends a => exact ⟨0, a, .ends hround, Nat.zero_le m⟩
      | goesOn t =>
          obtain ⟨ht, hlt⟩ := hstep hs hround
          obtain ⟨k, a, hloop, hk⟩ := ih (measure t) (hm ▸ hlt) ht rfl
          exact ⟨k + 1, a, .goesOn hround hloop, by omega⟩

/-- So a function that is allowed that many rounds is not cut short. -/
theorem Runs.loop (hruns : Runs round run) (measure : σ → Nat)
    (hstep : ∀ {s t}, round s = .goesOn t → measure t < measure s) (hrounds : measure s ≤ rounds) :
    ∃ k, Loop round k s (run rounds s) ∧ k ≤ measure s := by
  obtain ⟨k, a, hloop, hk⟩ := Loop.exists_of_measure (I := fun _ => True) measure (fun _ h => ⟨trivial, hstep h⟩) trivial
  rw [hruns.eq_of_loop hloop (Nat.le_trans hk hrounds)]
  exact ⟨k, hloop, hk⟩

end

namespace Reader

variable {σ : Type} [Reader σ]

/-- One try of a read that is tried again when interrupted. -/
def tryRound (n : Nat) (s : σ) : Round σ (Attempt IoError Bytes × σ) :=
  match read s n with
  | (.error e, t) => if e.isInterruption then .goesOn t else .ends (.error e, t)
  | r => .ends r

/-- One read of a reader that is read to its end, by a user who has got some bytes and asks for as many more as they see
fit. -/
def gatherRound (want : Array UInt8 → Nat) :
    Array UInt8 × σ → Round (Array UInt8 × σ) (Attempt IoError Unit × Array UInt8 × σ)
  | (got, s) =>
    match read s (want got) with
    | (.ok [], t) => .ends (.ok (), got, t)
    | (.ok bs, t) => .goesOn (got ++ bs, t)
    | (.error e, t) => if e.isInterruption then .goesOn (got, t) else .ends (.error e, got, t)
    | (.waiting, t) => .ends (.waiting, got, t)

section

variable {n : Nat} {s t : σ} {a : Attempt IoError Bytes × σ}

theorem read_of_goesOn (h : tryRound n s = .goesOn t) :
    ∃ e, read s n = (.error e, t) ∧ e.isInterruption = true := by
  rcases hr : (read s n : Attempt IoError Bytes × σ) with ⟨r, u⟩
  simp only [tryRound, hr] at h
  cases r with
  | error e =>
      simp only at h
      split at h
      · rename_i he
        cases h
        exact ⟨e, rfl, he⟩
      · cases h
  | _ => cases h

theorem read_of_ends (h : tryRound n s = .ends a) :
    read s n = a ∧ ∀ e, a.1 = .error e → e.isInterruption = false := by
  rcases hr : (read s n : Attempt IoError Bytes × σ) with ⟨r, u⟩
  simp only [tryRound, hr] at h
  cases r with
  | error e =>
      simp only at h
      split at h
      · cases h
      · rename_i he
        cases h
        refine ⟨rfl, fun e' he' => ?_⟩
        rw [← Attempt.error.inj he']
        exact Bool.eq_false_iff.2 he
  | _ =>
      cases h
      exact ⟨rfl, nofun⟩

end

theorem readRetrying_runs (n : Nat) :
    Runs (tryRound n) (readRetrying n : Nat → σ → Attempt IoError Bytes × σ) where
  ends {s a} rounds h := by
    obtain ⟨rfl, hstops⟩ := read_of_ends h
    cases rounds with
    | zero => rfl
    | succ rounds =>
        rcases hr : (read s n : Attempt IoError Bytes × σ) with ⟨r, t⟩
        cases r with
        | error e => simp only [readRetrying, hr, hstops e (by rw [hr]), Bool.false_eq_true, if_false]
        | _ => simp only [readRetrying, hr]
  goesOn {s t} rounds h := by
    obtain ⟨e, hr, he⟩ := read_of_goesOn h
    simp only [readRetrying, hr, he, if_true]

section

variable {want : Array UInt8 → Nat} {got got' : Array UInt8} {s t : σ}

theorem read_of_gather_goesOn (h : gatherRound want (got, s) = .goesOn (got', t)) :
    (∃ bs, bs ≠ [] ∧ read s (want got) = (.ok bs, t) ∧ got' = got ++ bs) ∨
      ∃ e, e.isInterruption = true ∧ read s (want got) = (.error e, t) ∧ got' = got := by
  rcases hr : (read s (want got) : Attempt IoError Bytes × σ) with ⟨r, u⟩
  simp only [gatherRound, hr] at h
  cases r with
  | waiting => cases h
  | ok bs =>
      cases bs with
      | nil => cases h
      | cons b bs =>
          cases h
          exact .inl ⟨_, List.cons_ne_nil b bs, rfl, rfl⟩
  | error e =>
      simp only at h
      split at h
      · rename_i he
        cases h
        exact .inr ⟨e, he, rfl, rfl⟩
      · cases h

theorem read_of_gather_ends {r : Attempt IoError Unit} (h : gatherRound want (got, s) = .ends (r, got', t)) :
    got' = got ∧ ((r = .ok () ∧ read s (want got) = (.ok [], t)) ∨
      (∃ e, r = .error e ∧ e.isInterruption = false ∧ read s (want got) = (.error e, t)) ∨
      r = .waiting ∧ read s (want got) = (.waiting, t)) := by
  rcases hr : (read s (want got) : Attempt IoError Bytes × σ) with ⟨q, u⟩
  simp only [gatherRound, hr] at h
  cases q with
  | waiting =>
      cases h
      exact ⟨rfl, .inr (.inr ⟨rfl, rfl⟩)⟩
  | ok bs =>
      cases bs with
      | nil =>
          cases h
          exact ⟨rfl, .inl ⟨rfl, rfl⟩⟩
      | cons b bs => cases h
  | error e =>
      simp only at h
      split at h
      · cases h
      · rename_i he
        cases h
        exact ⟨rfl, .inr (.inl ⟨e, rfl, Bool.eq_false_iff.2 he, rfl⟩)⟩

end

/-- To read all, in pieces of one size, is such a loop. -/
theorem readAll_runs (piece : Nat) :
    Runs (gatherRound fun _ => piece) fun rounds (g : Array UInt8 × σ) => readAll piece (rounds + 1) g.1 g.2 := by
  refine Runs.of_succ (fun rounds (g : Array UInt8 × σ) => readAll piece rounds g.1 g.2) ?_
  rintro rounds ⟨got, s⟩
  rcases hr : (read s piece : Attempt IoError Bytes × σ) with ⟨r, t⟩
  simp only [readAll, gatherRound, hr]
  cases r with
  | ok bs => cases bs <;> rfl
  | waiting => rfl
  | error e =>
      simp only
      split <;> rfl

end Reader

end FrameLink
