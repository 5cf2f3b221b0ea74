import FrameLink.Proofs.Loops
import FrameLink.Proofs.Reading

/-! Segments never take more from their source than they give out. Whatever is read from a segment, what is
left of it and of the source shrinks by the same bytes; so once a segment has been drained its source stands
at the first byte behind it. A segment that is filled, all of its bytes being there and nothing but interruptions
and gates between them, never fails; one that is whole, without gates, can be drained in any state. -/

namespace FrameLink

/-- What a read of at most `left` bytes answers, and how many bytes are left after it. Unless there is nothing to read, it
is the answer of the reader beneath, but for an early end. -/
inductive CappedOutcome {σ : Type} [Reader σ] (short : IoKind) (left n : Nat) (s : σ) :
    Attempt IoError Bytes → Nat → σ → Prop where
  | nothing (hzero : left = 0 ∨ n = 0) : CappedOutcome short left n s (.ok []) left s
  | short {e : IoError} {t : σ} (hpos : 0 < left ∧ 0 < n) (hread : Reader.read s (min n left) = (.ok [], t))
      (he : e.kind = short) : CappedOutcome short left n s (.error e) left t
  | bytes {bs : Bytes} {t : σ} (hpos : 0 < left ∧ 0 < n) (hread : Reader.read s (min n left) = (.ok bs, t))
      (hbs : bs ≠ []) : CappedOutcome short left n s (.ok bs) (left - bs.length) t
  | failed {e : IoError} {t : σ} (hpos : 0 < left ∧ 0 < n) (hread : Reader.read s (min n left) = (.error e, t)) :
      CappedOutcome short left n s (.error e) left t
  | waits {t : σ} (hpos : 0 < left ∧ 0 < n) (hread : Reader.read s (min n left) = (.waiting, t)) :
      CappedOutcome short left n s .waiting left t

theorem cappedRead_outcome {σ : Type} [Reader σ] {short : IoKind} {left left' n : Nat} {s t : σ}
    {r : Attempt IoError Bytes} (h : cappedRead short left s n = (r, left', t)) :
    CappedOutcome short left n s r left' t := by
  by_cases hzero : left = 0 ∨ n = 0
  · simp only [cappedRead, if_pos hzero, Prod.mk.injEq] at h
    obtain ⟨rfl, rfl, rfl⟩ := h
    exact .nothing hzero
  · have hpos : 0 < left ∧ 0 < n := by omega
    rcases hread : (Reader.read s (min n left) : Attempt IoError Bytes × σ) with ⟨q, u⟩
    match q, hread with
    | .ok [], hread =>
        simp only [cappedRead, if_neg hzero, hread, Prod.mk.injEq] at h
        obtain ⟨rfl, rfl, rfl⟩ := h
        exact .short hpos hread rfl
    | .ok (_ :: _), hread =>
        simp only [cappedRead, if_neg hzero, hread, Prod.mk.injEq] at h
        obtain ⟨rfl, rfl, rfl⟩ := h
        exact .bytes hpos hread (List.cons_ne_nil _ _)
    | .error e, hread =>
        simp only [cappedRead, if_neg hzero, hread, Prod.mk.injEq] at h
        obtain ⟨rfl, rfl, rfl⟩ := h
        exact .failed hpos hread
    | .waiting, hread =>
        simp only [cappedRead, if_neg hzero, hread, Prod.mk.injEq] at h
        obtain ⟨rfl, rfl, rfl⟩ := h
        exact .waits hpos hread

namespace Segment

/-- The segment and its source `a` have given out the bytes `bs` and become `b`. -/
structure Gives (a : Segment × Source) (bs : Bytes) (b : Segment × Source) : Prop where
  source : a.2.Gives bs b.2
  left : a.1.left = bs.length + b.1.left
  closed : b.1.closed = a.1.closed

theorem Gives.refl (a : Segment × Source) : Gives a [] a :=
  ⟨Source.Gives.refl _, (Nat.zero_add _).symm, rfl⟩

theorem Gives.trans {a b c : Segment × Source} {bs cs : Bytes} (h : Gives a bs b) (k : Gives b cs c) :
    Gives a (bs ++ cs) c where
  source := h.source.trans k.source
  left := by rw [h.left, k.left, List.length_append, Nat.add_assoc]
  closed := k.closed.trans h.closed

/-- All bytes of the segment are in the source, with nothing but interruptions between them. -/
structure IsWhole (a : Segment × Source) : Prop where
  smooth : a.2.IsSmooth
  left_le : a.1.left ≤ a.2.data.length

/-- Nothing keeps a reader of the segment waiting. -/
def IsClear (a : Segment × Source) : Prop :=
  IsWhole a ∨ a.2.IsPrompt

theorem IsWhole.clear {a : Segment × Source} (h : IsWhole a) : IsClear a :=
  .inl h

/-- All bytes of the segment are in the source, which may hold its reader up but does not fail. -/
structure IsFilled (a : Segment × Source) : Prop where
  faultless : a.2.IsFaultless
  left_le : a.1.left ≤ a.2.data.length

theorem IsWhole.filled {a : Segment × Source} (h : IsWhole a) : IsFilled a :=
  ⟨h.smooth.faultless, h.left_le⟩

theorem Gives.left_le_iff {a b : Segment × Source} {bs : Bytes} (h : Gives a bs b) :
    b.1.left ≤ b.2.data.length ↔ a.1.left ≤ a.2.data.length := by
  have hlength := h.source.length
  have hleft := h.left
  omega

theorem Gives.whole {a b : Segment × Source} {bs : Bytes} (h : Gives a bs b) (ha : IsWhole a) : IsWhole b :=
  ⟨h.source.smooth ha.smooth, h.left_le_iff.2 ha.left_le⟩

theorem Gives.clear {a b : Segment × Source} {bs : Bytes} (h : Gives a bs b) (ha : IsClear a) : IsClear b :=
  ha.imp h.whole h.source.prompt

theorem Gives.filled {a b : Segment × Source} {bs : Bytes} (h : Gives a bs b) (ha : IsFilled a) : IsFilled b :=
  ⟨h.source.faultless ha.faultless, h.left_le_iff.2 ha.left_le⟩

theorem Gives.drop_data {a b : Segment × Source} {bs : Bytes} (h : Gives a bs b) :
    b.2.data.drop b.1.left = a.2.data.drop a.1.left := by
  rw [h.source.data, h.left, List.drop_append]
  have hdrop : bs.drop (bs.length + b.1.left) = [] := List.drop_eq_nil_of_le (Nat.le_add_right _ _)
  rw [hdrop, Nat.add_sub_cancel_left, List.nil_append]

theorem Gives.take_data {a b : Segment × Source} {bs : Bytes} (h : Gives a bs b) :
    a.2.data.take a.1.left = bs ++ b.2.data.take b.1.left := by
  rw [h.source.data, h.left, List.take_append]
  have htake : bs.take (bs.length + b.1.left) = bs := List.take_of_length_le (Nat.le_add_right _ _)
  rw [htake, Nat.add_sub_cancel_left]

/-- What one read of a segment answers, and what it leaves behind. -/
inductive ReadOutcome (n : Nat) (a : Segment × Source) :
    Attempt IoError Bytes → Segment × Source → Prop where
  | bytes {bs : Bytes} {b : Segment × Source} (hbs : bs = [] → n = 0 ∨ a.1.left = 0) (hn : bs.length ≤ n)
      (hgives : Gives a bs b) : ReadOutcome n a (.ok bs) b
  | failed {e : IoError} {b : Segment × Source} (hgives : Gives a [] b)
      (hretry : e.isInterruption = true → b.2.failures < a.2.failures)
      (hfilled : IsFilled a → e.isInterruption = true) : ReadOutcome n a (.error e) b
  | waits {b : Segment × Source} (hgives : Gives a [] b) (hclear : ¬ IsClear a) : ReadOutcome n a .waiting b

/-- A read answers no bytes at once if none are asked for or none are left. -/
theorem read_of_eq_zero {seg : Segment} {src : Source} {n : Nat} (h : seg.left = 0 ∨ n = 0) :
    seg.read src n = (.ok [], seg, src) := by
  simp only [read, cappedRead, if_pos h]

/-- A read of a source that is capped comes to this whatever kind of failure an early end is taken for. -/
theorem capped_outcome {short : IoKind} (hshort : short ≠ .interrupted) {seg : Segment} {src t : Source} {n left : Nat}
    {r : Attempt IoError Bytes} (h : cappedRead short seg.left src n = (r, left, t)) :
    ReadOutcome n (seg, src) r ({ seg with left := left }, t) := by
  have hstay : ∀ {t : Source}, src.Gives [] t → Gives (seg, src) [] ({ seg with left := seg.left }, t) :=
    fun k => ⟨k, (Nat.zero_add _).symm, rfl⟩
  have hfilled : 0 < seg.left → IsFilled (seg, src) → src.data ≠ [] := by
    intro hleft hf hdata
    have hle := hf.left_le
    simp only [hdata, List.length_nil] at hle
    omega
  cases cappedRead_outcome h with
  | nothing hzero => exact .bytes (fun _ => hzero.symm) (Nat.zero_le _) (hstay (.refl _))
  | short hpos hread he =>
      rename_i e
      have hnot : ¬ e.isInterruption = true := fun hi => hshort (he.symm.trans (of_decide_eq_true hi))
      cases Source.read_outcome hread with
      | bytes hbs _ _ => exact absurd rfl (hbs (by omega))
      | ended hdata _ hgives =>
          exact .failed (hstay hgives) (fun hi => absurd hi hnot) fun hf => absurd hdata (hfilled hpos.1 hf)
  | bytes hpos hread hbs =>
      rename_i bs
      cases Source.read_outcome hread with
      | bytes _ hmin hgives =>
          refine .bytes (fun hnil => absurd hnil hbs) (by omega) ⟨hgives, ?_, rfl⟩
          change seg.left = bs.length + (seg.left - bs.length)
          omega
      | ended _ _ _ => exact absurd rfl hbs
  | failed _ hread =>
      cases Source.read_outcome hread with
      | failed hgives hlt he => exact .failed (hstay hgives) (fun _ => hlt) fun hf => he hf.faultless
  | waits hpos hread =>
      cases Source.read_outcome hread with
      | waits hgives hw hprompt =>
          refine .waits (hstay hgives) fun hclear => hclear.elim (fun hwhole => ?_) hprompt
          exact hfilled hpos.1 hwhole.filled (hw hwhole.smooth).1

theorem read_outcome {a b : Segment × Source} {n : Nat} {r : Attempt IoError Bytes}
    (h : Reader.read a n = (r, b)) : ReadOutcome n a r b := by
  obtain ⟨seg, src⟩ := a
  rcases hr : cappedRead .unexpectedEof seg.left src n with ⟨q, left, t⟩
  have hread : Reader.read (seg, src) n = (q, { seg with left := left }, t) := by
    simp only [Reader.read, read, hr]
  obtain ⟨rfl, rfl⟩ := Prod.mk.inj (hread.symm.trans h)
  exact capped_outcome (by decide) hr

/-- The segment and its source `a` have served a reader above it, which answers `r`, and become `b`. If the
reader is interrupted then the source has been, and where nothing keeps a reader of the segment waiting, it does not
wait. -/
structure Serves {α : Type} (a : Segment × Source) (r : Attempt IoError α) (b : Segment × Source) : Prop where
  gives : ∃ bs, Gives a bs b
  retry : ∀ e, r = .error e → e.isInterruption = true → b.2.failures < a.2.failures
  clear : IsClear a → r ≠ .waiting

section

variable {α β : Type} {a b c : Segment × Source} {bs : Bytes}

theorem Gives.serves_ok (h : Gives a bs b) (answer : α) : Serves a (.ok answer) b :=
  ⟨⟨bs, h⟩, fun _ he => (nomatch he), fun _ hr => nomatch hr⟩

theorem Gives.serves_error (h : Gives a bs b) {e : IoError} (he : e.isInterruption = false) :
    Serves a (.error e : Attempt IoError α) b := by
  refine ⟨⟨bs, h⟩, fun e' he' hi => ?_, fun _ hr => nomatch hr⟩
  rw [← Attempt.error.inj he', he] at hi
  cases hi

theorem Gives.trans_serves {r : Attempt IoError α} (h : Gives a bs b) (k : Serves b r c) : Serves a r c := by
  obtain ⟨cs, hcs⟩ := k.gives
  exact ⟨⟨bs ++ cs, h.trans hcs⟩, fun e he hi => Nat.lt_of_lt_of_le (k.retry e he hi) h.source.failures,
    fun ha => k.clear (h.clear ha)⟩

end

section

variable {σ : Type} {seen : σ → Segment × Source}

/-- What it comes to that a segment, or a reader that reads like one, is read to its end by a user who has got some bytes
before. -/
structure GatherOutcome (seen : σ → Segment × Source) (g : Array UInt8 × σ)
    (a : Attempt IoError Unit × Array UInt8 × σ) : Prop where
  gives : ∃ bs, a.2.1.toList = g.1.toList ++ bs ∧ Gives (seen g.2) bs (seen a.2.2)
  ended : a.1 = .ok () → (seen a.2.2).1.left = 0
  filled : IsFilled (seen g.2) → ∀ e, a.1 ≠ .error e
  clear : IsClear (seen g.2) → a.1 ≠ .waiting

theorem GatherOutcome.prepend {g g' : Array UInt8 × σ} {a : Attempt IoError Unit × Array UInt8 × σ} {bs : Bytes}
    (h : GatherOutcome seen g' a) (hgot : g'.1.toList = g.1.toList ++ bs) (hgives : Gives (seen g.2) bs (seen g'.2)) :
    GatherOutcome seen g a := by
  obtain ⟨cs, hcs, hrest⟩ := h.gives
  refine ⟨⟨bs ++ cs, ?_, hgives.trans hrest⟩, h.ended, fun hf => h.filled (hgives.filled hf),
    fun hc => h.clear (hgives.clear hc)⟩
  rw [hcs, hgot, List.append_assoc]

variable [Reader σ]
  (hread : ∀ (s : σ) (n : Nat), ReadOutcome n (seen s) (Reader.read s n).1 (seen (Reader.read s n).2))
  {want : Array UInt8 → Nat} {g g' : Array UInt8 × σ}

include hread

/-- A read after which reading goes on takes a byte of the segment, or meets a failure that will not come again. -/
theorem gather_goesOn (h : Reader.gatherRound want g = .goesOn g') :
    ∃ bs, g'.1.toList = g.1.toList ++ bs ∧ Gives (seen g.2) bs (seen g'.2) ∧
      (seen g'.2).1.left + (seen g'.2).2.failures < (seen g.2).1.left + (seen g.2).2.failures := by
  obtain ⟨got, s⟩ := g
  obtain ⟨got', t⟩ := g'
  have houtcome := hread s (want got)
  rcases Reader.read_of_gather_goesOn h with ⟨bs, hne, hr, rfl⟩ | ⟨e, he, hr, rfl⟩
  · simp only [hr] at houtcome
    cases houtcome with
    | bytes _ _ hgives =>
        have hleft := hgives.left
        have hfailures := hgives.source.failures
        have hpos := List.length_pos_iff.2 hne
        exact ⟨bs, Array.toList_appendList, hgives, by simp only; omega⟩
  · simp only [hr] at houtcome
    cases houtcome with
    | failed hgives hretry _ =>
        have hleft := hgives.left
        have hlt := hretry he
        rw [List.length_nil] at hleft
        exact ⟨[], (List.append_nil _).symm, hgives, by simp only; omega⟩

theorem gather_ends {a : Attempt IoError Unit × Array UInt8 × σ} (hwant : 0 < want g.1)
    (h : Reader.gatherRound want g = .ends a) : GatherOutcome seen g a := by
  obtain ⟨got, s⟩ := g
  obtain ⟨r, got', t⟩ := a
  have houtcome := hread s (want got)
  obtain ⟨rfl, hcase⟩ := Reader.read_of_gather_ends h
  have hnone : got'.toList = got'.toList ++ [] := (List.append_nil _).symm
  rcases hcase with ⟨rfl, hr⟩ | ⟨e, rfl, he, hr⟩ | ⟨rfl, hr⟩
  · simp only [hr] at houtcome
    cases houtcome with
    | bytes hbs _ hgives =>
        have hzero := (hbs rfl).resolve_left (Nat.pos_iff_ne_zero.1 hwant)
        have hleft := hgives.left
        rw [hzero] at hleft
        exact ⟨⟨[], hnone, hgives⟩, fun _ => (Nat.eq_zero_of_add_eq_zero hleft.symm).2, fun _ _ => nofun, fun _ => nofun⟩
  · simp only [hr] at houtcome
    cases houtcome with
    | failed hgives _ hfilled =>
        refine ⟨⟨[], hnone, hgives⟩, nofun, fun hf => ?_, fun _ => nofun⟩
        rw [hfilled hf] at he
        cases he
  · simp only [hr] at houtcome
    cases houtcome with
    | waits hgives hclear => exact ⟨⟨[], hnone, hgives⟩, nofun, fun _ _ => nofun, fun hc => absurd hc hclear⟩

/-- So it is with all the reads together, however much is asked for each time, as long as it is something. -/
theorem gather_outcome {k : Nat} {a : Attempt IoError Unit × Array UInt8 × σ} (hwant : ∀ got, 0 < want got)
    (h : Loop (Reader.gatherRound want) k g a) : GatherOutcome seen g a := by
  induction h with
  | ends h => exact gather_ends hread (hwant _) h
  | goesOn h _ ih =>
      obtain ⟨bs, hgot, hgives, -⟩ := gather_goesOn hread h
      exact ih.prepend hgot hgives

theorem readAll_outcome {piece reads : Nat} {got : Array UInt8} {s : σ} (hpiece : 0 < piece)
    (hreads : (seen s).1.left + (seen s).2.failures < reads) :
    GatherOutcome seen (got, s) (Reader.readAll piece reads got s) := by
  obtain ⟨rounds, rfl⟩ := Nat.exists_eq_add_of_lt hreads
  let measure (g : Array UInt8 × σ) : Nat := (seen g.2).1.left + (seen g.2).2.failures
  have hstep : ∀ {g g' : Array UInt8 × σ}, Reader.gatherRound (fun _ => piece) g = .goesOn g' → measure g' < measure g := by
    intro g g' h
    obtain ⟨-, -, -, hlt⟩ := gather_goesOn hread h
    exact hlt
  obtain ⟨k, hloop, -⟩ := (Reader.readAll_runs piece).loop (s := (got, s)) measure hstep (Nat.le_add_right _ rounds)
  exact gather_outcome hread (fun _ => hpiece) hloop

end

/-- Draining gives out the rest of the segment, and all of it if it succeeds. It does not fail where the segment is
filled, nor wait where nothing keeps it waiting. -/
theorem drain_outcome (seg : Segment) (src : Source) :
    ∃ bs, Gives (seg, src) bs (seg.drain src).2 ∧
      ((seg.drain src).1 = .ok () → (seg.drain src).2.1.left = 0) ∧
      (IsFilled (seg, src) → ∀ e, (seg.drain src).1 ≠ .error e) ∧
      (IsClear (seg, src) → (seg.drain src).1 ≠ .waiting) := by
  have houtcome : GatherOutcome id (#[], seg, src)
      (Reader.readAll pieceSize (seg.left + src.failures + 1) #[] (seg, src)) :=
    readAll_outcome (fun _ _ => read_outcome rfl) (by decide) (Nat.lt_succ_self _)
  obtain ⟨⟨bs, -, hgives⟩, hended, hfilled, hclear⟩ := houtcome
  exact ⟨bs, hgives, hended, hfilled, hclear⟩

/-- Once a segment is drained, its source stands at what follows it. -/
theorem Gives.data_of_left_eq_zero {a b : Segment × Source} {bs : Bytes} (h : Gives a bs b)
    (hb : b.1.left = 0) : b.2.data = a.2.data.drop a.1.left := by
  rw [← h.drop_data, hb, List.drop_zero]

end Segment

end FrameLink
