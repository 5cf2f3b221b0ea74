import FrameLink.Proofs.Loops
import FrameLink.Proofs.Passing

/-! Where interruptions come from. A reader is interrupted only where the source beneath it is, however many readers there
are between them, and each interruption of the source is met once. So a read that is tried again for as long as it is
interrupted comes to an answer, after one more try for every interruption that has gone. -/

namespace FrameLink

/-- An answer counts as an interruption, or as none. -/
def Attempt.interruptions {α : Type} : Attempt IoError α → Nat
  | .error e => if e.isInterruption then 1 else 0
  | _ => 0

namespace Source

def Item.isInterruption : Item → Bool
  | .failure e => e.isInterruption
  | _ => false

/-- How often a source will still interrupt its reader. -/
def interruptions (s : Source) : Nat :=
  s.items.countP Item.isInterruption

/-- The source `s` has served a reader above it, which answers `r`, and become `t`. The reader has been interrupted just
where the source has, and it waits for no source that never keeps its reader waiting. -/
structure Serves {α : Type} (s : Source) (r : Attempt IoError α) (t : Source) : Prop where
  gives : ∃ bs, s.Gives bs t
  interruptions : t.interruptions + r.interruptions = s.interruptions
  prompt : s.IsPrompt → r ≠ .waiting

theorem interruptions_le_failures (s : Source) : s.interruptions ≤ s.failures := by
  refine List.countP_mono_left fun i _ hi => ?_
  cases i with
  | failure e => rfl
  | data bs => cases hi
  | gate => cases hi

section

variable {α β : Type} {s t u : Source} {r : Attempt IoError α} {q : Attempt IoError β}

theorem Serves.refl (s : Source) (answer : α) : s.Serves (.ok answer) s :=
  ⟨⟨[], .refl s⟩, rfl, fun _ => nofun⟩

/-- Nothing else of the answer matters. -/
theorem Serves.congr (h : s.Serves r t) (hinterruptions : q.interruptions = r.interruptions)
    (hwaits : q = .waiting → r = .waiting) : s.Serves q t :=
  ⟨h.gives, hinterruptions ▸ h.interruptions, fun hprompt hq => h.prompt hprompt (hwaits hq)⟩

/-- The answer to a reader that goes on after a read is that of going on. -/
theorem Serves.trans {answer : α} (h : s.Serves (.ok answer) t) (k : t.Serves q u) : s.Serves q u := by
  obtain ⟨bs, hbs⟩ := h.gives
  obtain ⟨cs, hcs⟩ := k.gives
  exact ⟨⟨bs ++ cs, hbs.trans hcs⟩, k.interruptions.trans h.interruptions, fun hprompt => k.prompt (hbs.prompt hprompt)⟩

theorem Serves.ok {answer : α} (h : s.Serves (.ok answer) t) (other : β) : s.Serves (.ok other) t :=
  h.congr rfl nofun

theorem Serves.error {answer : α} (h : s.Serves (.ok answer) t) {e : IoError} (he : e.isInterruption = false) :
    s.Serves (.error e : Attempt IoError β) t :=
  h.congr (by rw [Attempt.interruptions, he]; rfl) nofun

/-- A failure is passed on as it is. -/
theorem Serves.failed {e : IoError} (h : s.Serves (.error e : Attempt IoError α) t) :
    s.Serves (.error e : Attempt IoError β) t :=
  h.congr rfl nofun

theorem Serves.waits (h : s.Serves (.waiting : Attempt IoError α) t) : s.Serves (.waiting : Attempt IoError β) t :=
  h.congr rfl fun _ => rfl

end

theorem readItems_interruptions (live : Bool) (n : Nat) (items : List Item) (passes : Nat) :
    (readItems live n items passes).2.interruptions + (readItems live n items passes).1.interruptions =
      items.countP Item.isInterruption := by
  induction items generalizing passes with
  | nil => cases live <;> rfl
  | cons i rest ih =>
      cases i with
      | data bs =>
          cases bs with
          | nil => exact ih passes
          | cons b bs => rfl
      | failure e =>
          rw [List.countP_cons]
          rfl
      | gate =>
          cases passes with
          | zero => rfl
          | succ passes => exact ih passes

end Source

namespace Reader

/-- All that the reads of a reader do to the source beneath it is what serves them. -/
def DrawsOn {σ : Type} [Reader σ] (below : σ → Source) : Prop :=
  ∀ s n, (below s).Serves (read s n).1 (below (read s n).2)

end Reader

theorem Source.drawsOn : Reader.DrawsOn (id : Source → Source) := by
  intro s n
  have hcount := readItems_interruptions s.live n s.items s.passes
  rcases hr : (Reader.read s n : Attempt IoError Bytes × Source) with ⟨r, t⟩
  rw [show readItems s.live n s.items s.passes = (r, t) from hr] at hcount
  cases read_outcome hr with
  | bytes _ _ hgives => exact ⟨⟨_, hgives⟩, hcount, fun _ => nofun⟩
  | ended _ _ hgives => exact ⟨⟨_, hgives⟩, hcount, fun _ => nofun⟩
  | failed hgives _ _ => exact ⟨⟨_, hgives⟩, hcount, fun _ => nofun⟩
  | waits hgives _ hnot => exact ⟨⟨_, hgives⟩, hcount, fun hprompt => absurd hprompt hnot⟩

section

variable {σ : Type} [Reader σ] {below : σ → Source}

/-- A reader of a limited number of bytes is interrupted where the reader beneath it is. -/
theorem serves_cappedRead (hdraws : Reader.DrawsOn below) {short : IoKind} (hshort : short ≠ .interrupted)
    {n left left' : Nat} {s t : σ} {r : Attempt IoError Bytes} (h : cappedRead short left s n = (r, left', t)) :
    (below s).Serves r (below t) := by
  have hserves : ∀ {q u}, Reader.read s (min n left) = (q, u) → (below s).Serves q (below u) := by
    intro q u hread
    have hs := hdraws s (min n left)
    rwa [hread] at hs
  cases cappedRead_outcome h with
  | nothing _ => exact .refl _ _
  | short _ hread he =>
      refine (hserves hread).error (decide_eq_false fun hi => hshort ?_)
      rw [← he, hi]
  | bytes _ hread _ => exact hserves hread
  | failed _ hread => exact hserves hread
  | waits _ hread => exact hserves hread

theorem Window.drawsOn (hdraws : Reader.DrawsOn below) : Reader.DrawsOn fun s : Window × σ => below s.2 := by
  rintro ⟨w, s⟩ n
  rcases hr : cappedRead .invalidData w.left s n with ⟨r, left, t⟩
  have hread : Reader.read (w, s) n = (r, { w with left := left }, t) := by
    simp only [Reader.read, read, hr]
  rw [hread]
  exact serves_cappedRead hdraws (by decide) hr

theorem Segment.drawsOn : Reader.DrawsOn fun s : Segment × Source => s.2 := by
  rintro ⟨seg, src⟩ n
  rcases hr : cappedRead .unexpectedEof seg.left src n with ⟨r, left, t⟩
  have hread : Reader.read (seg, src) n = (r, { seg with left := left }, t) := by
    simp only [Reader.read, read, hr]
  rw [hread]
  exact serves_cappedRead Source.drawsOn (by decide) hr

end

namespace Inflater

theorem fill_serves {f g : Inflater} {a b : Segment × Source} {r : Attempt IoError Bool} (h : f.fill a = (r, g, b)) :
    a.2.Serves r b.2 := by
  unfold fill at h
  split at h
  · have hserves := Segment.drawsOn a inflatePiece
    rcases hr : (Reader.read a inflatePiece : Attempt IoError Bytes × Segment × Source) with ⟨q, c⟩
    rw [hr] at hserves
    simp only [hr] at h
    cases q with
    | ok bs =>
        cases h
        exact hserves.ok _
    | error e =>
        cases h
        exact hserves.failed
    | waiting =>
        cases h
        exact hserves.waits
  · cases h
    exact .refl _ _

theorem pull_counts {n pieces : Nat} {f g : Inflater} {a b : Segment × Source} {r : Attempt IoError Bytes}
    (h : pull n pieces f a = (r, g, b)) : a.2.Serves r b.2 := by
  induction pieces generalizing f a with
  | zero =>
      cases h
      exact .refl _ _
  | succ pieces ih =>
      cases piece_outcome h with
      | failed hfill => exact (fill_serves hfill).failed
      | waits hfill => exact (fill_serves hfill).waits
      | corrupt hfill _ _ => exact (fill_serves hfill).error rfl
      | finished hfill _ _ => exact (fill_serves hfill).ok _
      | bytes hfill _ _ => exact (fill_serves hfill).ok _
      | incomplete hfill _ _ => exact (fill_serves hfill).error rfl
      | goesOn hfill _ _ hrest => exact (fill_serves hfill).trans (ih hrest)

theorem drawsOn : Reader.DrawsOn fun s : Inflater × Segment × Source => s.2.2 :=
  fun _ _ => pull_counts rfl

end Inflater

namespace Reader

variable {σ : Type} [Reader σ] {below : σ → Source} {n : Nat} {s : σ}

/-- A read that is tried again for as long as it is interrupted comes to its answer, in a loop that nothing bounds. It is
tried once more for every interruption that the source loses. -/
structure Retries (below : σ → Source) (s : σ) (n : Nat) : Prop where
  loop : ∃ k, Loop (tryRound n) k s (readThrough s n) ∧
    k + (below (readThrough s n).2).interruptions = (below s).interruptions
  prompt : (below s).IsPrompt → (readThrough s n).1 ≠ .waiting

theorem DrawsOn.interrupted (hdraws : DrawsOn below) {t : σ} (h : tryRound n s = .goesOn t) :
    (below t).interruptions + 1 = (below s).interruptions ∧ ∃ bs, (below s).Gives bs (below t) := by
  obtain ⟨e, hr, he⟩ := read_of_goesOn h
  have hserves := hdraws s n
  simp only [hr] at hserves
  have hcount := hserves.interruptions
  rw [Attempt.interruptions, if_pos he] at hcount
  exact ⟨hcount, hserves.gives⟩

theorem DrawsOn.of_loop (hdraws : DrawsOn below) {k : Nat} {a : Attempt IoError Bytes × σ}
    (h : Loop (tryRound n) k s a) : k + (below a.2).interruptions = (below s).interruptions ∧
      ((below s).IsPrompt → a.1 ≠ .waiting) := by
  induction h with
  | @ends s a h =>
      obtain ⟨rfl, hstops⟩ := read_of_ends h
      have hserves := hdraws s n
      have hnone : (read s n).1.interruptions = 0 := by
        cases ha : (read s n).1 with
        | error e => rw [Attempt.interruptions, hstops e ha]; rfl
        | _ => rfl
      have hcount := hserves.interruptions
      exact ⟨by omega, hserves.prompt⟩
  | goesOn h _ ih =>
      obtain ⟨hcount, bs, hbs⟩ := hdraws.interrupted h
      exact ⟨by omega, fun hprompt => ih.2 (hbs.prompt hprompt)⟩

theorem DrawsOn.retries (hdraws : DrawsOn below) (hcount : ∀ s, (below s).interruptions ≤ Reader.interruptions s)
    (s : σ) (n : Nat) : Retries below s n := by
  obtain ⟨k, hloop, -⟩ := (readRetrying_runs n).loop (fun s => (below s).interruptions)
    (fun h => Nat.lt_of_lt_of_eq (Nat.lt_succ_self _) (hdraws.interrupted h).1) (hcount s)
  obtain ⟨hk, hprompt⟩ := hdraws.of_loop hloop
  exact ⟨⟨k, hloop, hk⟩, hprompt⟩

end Reader

end FrameLink
