import FrameLink.Packet
import FrameLink.Proofs.Inflating

/-! Whatever is done with a cursor, its source is used only through the segment of its payload. Reads that
succeed, reads that fail and the closing of the cursor all take bytes of that segment and no others; and when
the cursor has been closed, however it was used before and whether or not the closing fails, a segment that is
filled has passed and the source stands at what follows it. -/

namespace FrameLink

namespace Segment

variable {σ : Type} [Reader σ] {feed : σ → Segment × Source} {n : Nat}

/-- If every read of a reader is served by a segment, so is a read that is tried again when interrupted. -/
theorem Serves.readThrough (feed : σ → Segment × Source)
    (hread : ∀ s : σ, Serves (feed s) (Reader.read s n).1 (feed (Reader.read s n).2))
    (hinterruptions : ∀ s : σ, Reader.interruptions s = (feed s).2.failures) (s : σ) :
    Serves (feed s) (Reader.readThrough s n).1 (feed (Reader.readThrough s n).2) := by
  have hstep : ∀ t e u, (∃ bs, Gives (feed s) bs (feed t)) → Reader.read t n = (.error e, u) →
      e.isInterruption = true →
      (∃ bs, Gives (feed s) bs (feed u)) ∧ Reader.interruptions u < Reader.interruptions t := by
    rintro t e u ⟨bs, hbs⟩ hr he
    have hserves := hread t
    rw [hr] at hserves
    obtain ⟨cs, hcs⟩ := hserves.gives
    rw [hinterruptions, hinterruptions]
    exact ⟨⟨bs ++ cs, hbs.trans hcs⟩, hserves.retry e rfl he⟩
  obtain ⟨t, ⟨bs, hbs⟩, heq, -⟩ := Reader.readThrough_eq_read hstep ⟨[], Gives.refl (feed s)⟩
  rw [heq]
  exact hbs.trans_serves (hread t)

theorem read_serves (a : Segment × Source) (n : Nat) :
    Serves a (Reader.read a n).1 (Reader.read a n).2 := by
  rcases hr : (Reader.read a n : Attempt IoError Bytes × Segment × Source) with ⟨r, b⟩
  cases read_outcome hr with
  | bytes _ _ hgives => exact hgives.serves_ok _
  | failed hgives hretry _ =>
      exact ⟨⟨[], hgives⟩, fun e he hi => hretry (Attempt.error.inj he ▸ hi), fun _ h => nomatch h⟩
  | waits hgives hclear => exact ⟨⟨[], hgives⟩, fun e he => (nomatch he), fun h => absurd h hclear⟩

end Segment

theorem Inflater.readThrough_serves {n : Nat} {f g : Inflater} {a b : Segment × Source} {r : Attempt IoError Bytes}
    (hr : Reader.readThrough (f, a) n = (r, g, b)) : Segment.Serves a r b := by
  have hserves := Segment.Serves.readThrough (fun s : Inflater × Segment × Source => s.2) (n := n)
    (fun s => Inflater.pull_serves rfl) (fun _ => rfl) (f, a)
  rwa [hr] at hserves

theorem Window.read_serves (s : Window × Inflater × Segment × Source) (n : Nat) :
    Segment.Serves s.2.2 (Reader.read s n).1 (Reader.read s n).2.2.2 := by
  obtain ⟨w, f, a⟩ := s
  change Segment.Serves a (w.read (f, a) n).1 (w.read (f, a) n).2.2.2
  by_cases hzero : w.left = 0 ∨ n = 0
  · simp only [Window.read, cappedRead, if_pos hzero]
    exact (Segment.Gives.refl a).serves_ok _
  · rcases hr : (Reader.read (f, a) (min n w.left) : Attempt IoError Bytes × Inflater × Segment × Source)
      with ⟨r, g, b⟩
    have hserves : Segment.Serves a r b := Inflater.pull_serves hr
    obtain ⟨bs, hbs⟩ := hserves.gives
    simp only [Window.read, cappedRead, if_neg hzero, hr]
    cases r with
    | ok cs =>
        cases cs with
        | nil => exact hbs.serves_error rfl
        | cons c cs => exact hbs.serves_ok _
    | error e => exact hserves
    | waiting => exact ⟨⟨bs, hbs⟩, fun e he => (by cases he), hserves.clear⟩

namespace Cursor

def segment : Cursor → Segment
  | .raw segment => segment
  | .deflated _ _ segment => segment

theorem ofHeader_segment (h : Header) : (ofHeader h).segment = ⟨extendWord h.packetLength, false⟩ := by
  unfold ofHeader
  split <;> rfl

def Closing.segment : Closing → Segment
  | .ending _ segment => segment
  | .draining _ segment => segment

/-- A call that uses the segment and its source `a` and answers `r` leaves `b`: it has taken bytes, and it does
not wait if nothing keeps a reader of the segment waiting. -/
structure Uses {α : Type} (a : Segment × Source) (r : Attempt LinkError α) (b : Segment × Source) : Prop where
  gives : ∃ bs, Segment.Gives a bs b
  clear : Segment.IsClear a → r ≠ .waiting

theorem Uses.prepend {α : Type} {a b c : Segment × Source} {bs : Bytes} {r : Attempt LinkError α} (h : Uses b r c)
    (hgives : Segment.Gives a bs b) : Uses a r c := by
  obtain ⟨cs, hcs⟩ := h.gives
  exact ⟨⟨bs ++ cs, hgives.trans hcs⟩, fun hc => h.clear (hgives.clear hc)⟩

theorem uses_of_serves {α : Type} {a b : Segment × Source} {r : Attempt IoError α}
    (h : Segment.Serves a r b) (f : IoError → LinkError) : Uses a (r.mapError f) b := by
  refine ⟨h.gives, fun hc hr => h.clear hc ?_⟩
  cases r with
  | waiting => rfl
  | ok _ => cases hr
  | error _ => cases hr

/-- A bounded read is served by the segment below if every read of the reader is. -/
theorem uses_readBounded {σ : Type} [BoundedReader σ] (feed : σ → Segment × Source) {n : Nat}
    (hread : ∀ s : σ, Segment.Serves (feed s) (Reader.read s n).1 (feed (Reader.read s n).2))
    (hinterruptions : ∀ s : σ, Reader.interruptions s = (feed s).2.failures) (s : σ) :
    Uses (feed s) (BoundedReader.readBounded s n).1 (feed (BoundedReader.readBounded s n).2) := by
  unfold BoundedReader.readBounded
  split
  · exact ⟨⟨[], .refl _⟩, fun _ h => nomatch h⟩
  · split
    · exact ⟨⟨[], .refl _⟩, fun _ h => nomatch h⟩
    · exact uses_of_serves (Segment.Serves.readThrough feed hread hinterruptions s) _

theorem read_uses {c d : Cursor} {src src' : Source} {n : Nat} {r : Attempt LinkError Bytes}
    (h : c.read src n = (r, d, src')) : Uses (c.segment, src) r (d.segment, src') := by
  cases c with
  | raw seg =>
      have huses := uses_readBounded id (n := n) (fun a => Segment.read_serves a n)
        (fun _ => rfl) (seg, src)
      simp only [read, Prod.mk.injEq] at h
      obtain ⟨rfl, rfl, rfl⟩ := h
      exact huses
  | deflated w f seg =>
      have huses := uses_readBounded (fun s : Window × Inflater × Segment × Source => s.2.2) (n := n)
        (fun s => Window.read_serves s n) (fun _ => rfl) (w, f, seg, src)
      simp only [read, Prod.mk.injEq] at h
      obtain ⟨rfl, rfl, rfl⟩ := h
      exact huses

theorem close_segment (c : Cursor) : c.close.segment = c.segment := by
  cases c with
  | raw seg => rfl
  | deflated w f seg =>
      simp only [close]
      split <;> rfl

namespace Closing

/-- What going on with the closing of a cursor comes to: it uses the segment, its answer is success only when the
segment has been drained, and a segment that is filled is drained whatever the answer is. -/
structure Outcome (a : Segment × Source) (r : Attempt LinkError Unit) (b : Segment × Source) : Prop where
  uses : Uses a r b
  drained : r = .ok () → b.1.left = 0
  passed : Segment.IsFilled a → r ≠ .waiting → b.1.left = 0

/-- Draining succeeds only if the verdict does, and above a segment that is filled it comes to the verdict. -/
theorem drain_outcome {verdict : Except LinkError Unit} {seg : Segment} {src src' : Source} {d : Closing}
    {r : Attempt LinkError Unit} (h : drain verdict seg src = (r, d, src')) :
    Outcome (seg, src) r (d.segment, src') ∧ (r = .ok () → verdict = .ok ()) ∧
      (Segment.IsFilled (seg, src) → r ≠ .waiting → r = Attempt.ofExcept verdict) := by
  obtain ⟨bs, hgives, hzero, hfails, hwaits⟩ := Segment.drain_outcome seg src
  rcases hd : seg.drain src with ⟨q, seg₁, src₁⟩
  rw [hd] at hgives hzero hfails hwaits
  cases q with
  | ok u =>
      simp only [drain, hd, Prod.mk.injEq] at h
      obtain ⟨rfl, rfl, rfl⟩ := h
      refine ⟨⟨⟨⟨bs, hgives⟩, fun _ hr => ?_⟩, fun _ => hzero rfl, fun _ _ => hzero rfl⟩, fun hr => ?_,
        fun _ _ => rfl⟩
      · cases verdict <;> cases hr
      · cases verdict <;> cases hr
        rfl
  | error e =>
      simp only [drain, hd, Prod.mk.injEq] at h
      obtain ⟨rfl, rfl, rfl⟩ := h
      refine ⟨⟨⟨⟨bs, hgives⟩, fun _ hr => ?_⟩, fun hr => ?_, fun hf => absurd rfl (hfails hf e)⟩, fun hr => ?_,
        fun hf => absurd rfl (hfails hf e)⟩
      all_goals cases verdict <;> cases hr
  | waiting =>
      simp only [drain, hd, Prod.mk.injEq] at h
      obtain ⟨rfl, rfl, rfl⟩ := h
      exact ⟨⟨⟨⟨bs, hgives⟩, fun hc => absurd rfl (hwaits hc)⟩, nofun, fun _ hr => absurd rfl hr⟩, nofun,
        fun _ hr => absurd rfl hr⟩

/-- Bytes taken before do not change what the closing comes to. -/
theorem Outcome.prepend {a b c : Segment × Source} {bs : Bytes} {r : Attempt LinkError Unit}
    (h : Outcome b r c) (hgives : Segment.Gives a bs b) : Outcome a r c :=
  ⟨h.uses.prepend hgives, h.drained, fun hf => h.passed (hgives.filled hf)⟩

/-- What the read behind the declared end of a compressed payload says of it, unless it waits. -/
def verdict? : Attempt IoError Bytes → Option (Except LinkError Unit)
  | .ok [] => some (.ok ())
  | .ok (_ :: _) => some (.error tooLong)
  | .error e => some (.error (.ofPayloadError e))
  | .waiting => none

theorem eq_waiting_of_verdict? {q : Attempt IoError Bytes} (h : verdict? q = none) : q = .waiting := by
  match q with
  | .ok [] => cases h
  | .ok (_ :: _) => cases h
  | .error _ => cases h
  | .waiting => rfl

/-- What is known of the payload is its verdict, under which the rest of the segment is drained. -/
theorem run_ending {f g : Inflater} {seg : Segment} {src : Source} {q : Attempt IoError Bytes} {b : Segment × Source}
    (hr : Reader.readThrough (f, seg, src) 1 = (q, g, b)) : (ending f seg).run src =
      match verdict? q with
      | some verdict => drain verdict b.1 b.2
      | none => (.waiting, .ending g b.1, b.2) := by
  match q, hr with
  | .ok [], hr => simp only [run, hr, verdict?]
  | .ok (_ :: _), hr => simp only [run, hr, verdict?]
  | .error _, hr => simp only [run, hr, verdict?]
  | .waiting, hr => simp only [run, hr, verdict?]

theorem run_outcome {c d : Closing} {src src' : Source} {r : Attempt LinkError Unit}
    (h : c.run src = (r, d, src')) : Outcome (c.segment, src) r (d.segment, src') := by
  cases c with
  | draining verdict seg => exact (drain_outcome h).1
  | ending f seg =>
      rcases hr : (Reader.readThrough (f, seg, src) 1 :
        Attempt IoError Bytes × Inflater × Segment × Source) with ⟨q, g, b⟩
      have hserves := Inflater.readThrough_serves hr
      obtain ⟨bs, hbs⟩ := hserves.gives
      rw [run_ending hr] at h
      cases hverdict : verdict? q with
      | some verdict =>
          simp only [hverdict] at h
          exact (drain_outcome h).1.prepend hbs
      | none =>
          simp only [hverdict, Prod.mk.injEq] at h
          obtain ⟨rfl, rfl, rfl⟩ := h
          have hwaiting := eq_waiting_of_verdict? hverdict
          exact ⟨⟨⟨bs, hbs⟩, fun hc => absurd hwaiting (hserves.clear hc)⟩, nofun, fun _ hr => absurd rfl hr⟩

/-- The closing of a cursor over a segment that is whole does not wait and leaves the source at what follows
the segment, whatever it answers. -/
theorem run_passes {c d : Closing} {src src' : Source} {r : Attempt LinkError Unit}
    (h : c.run src = (r, d, src')) (hwhole : Segment.IsWhole (c.segment, src)) :
    r ≠ .waiting ∧ src'.IsSmooth ∧ src'.live = src.live ∧ src'.data = src.data.drop c.segment.left := by
  have houtcome := run_outcome h
  have hwait := houtcome.uses.clear hwhole.clear
  obtain ⟨bs, hbs⟩ := houtcome.uses.gives
  exact ⟨hwait, hbs.source.smooth hwhole.smooth, hbs.source.live,
    hbs.data_of_left_eq_zero (houtcome.passed hwhole.filled hwait)⟩

end Closing

end Cursor

end FrameLink
