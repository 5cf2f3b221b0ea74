import FrameLink.Proofs.SegmentClosing

/-! What a reader of a limited number of bytes takes from the source beneath it. Of a window that is just what its
user gets. Of a segment it is what its user gets and, where it is closed for the first time, what the closing throws
away. In either case it is never more than the limit, and once it is the limit nothing that is asked of the reader
depends on the source any more or changes it. -/

namespace FrameLink

namespace Window

/-- A window on a source, seen as the segment of it that it gives out. -/
def asSegment (s : Window × Source) : Segment × Source :=
  ({ left := s.1.left, closed := s.1.closed }, s.2)

/-- A plain read tells a window from a segment only by the kind of failure that it takes an early end for. -/
theorem read_outcome (s : Window × Source) (n : Nat) :
    Segment.ReadOutcome n (asSegment s) (Reader.read s n).1 (asSegment (Reader.read s n).2) := by
  obtain ⟨w, src⟩ := s
  rcases hr : cappedRead .invalidData w.left src n with ⟨r, left, t⟩
  have hread : Reader.read (w, src) n = (r, { w with left := left }, t) := by
    simp only [Reader.read, read, hr]
  have houtcome : Segment.ReadOutcome n (asSegment (w, src)) r ({ (asSegment (w, src)).1 with left := left }, t) :=
    Segment.capped_outcome (by decide) hr
  rw [hread]
  exact houtcome

end Window

namespace Quota

/-- The bytes that have been given out in answer to what has been asked. -/
def given (asked : List (Request × Answer)) : Bytes :=
  asked.flatMap fun p => p.2.given

/-- The bytes that have been given out, and between them, where a closing was first asked for, those that it has
discarded. -/
def spent (discarded : Bytes) : List (Request × Answer) → Bytes
  | [] => []
  | (.close, _) :: asked => discarded ++ given asked
  | (_, a) :: asked => a.given ++ spent discarded asked

theorem spent_cons {discarded : Bytes} {request : Request} {a : Answer} {asked : List (Request × Answer)}
    (hrequest : request ≠ .close) : spent discarded ((request, a) :: asked) = a.given ++ spent discarded asked := by
  cases request with
  | close => exact absurd rfl hrequest
  | _ => rfl

/-- What a reader answers that has nothing left: it gives out nothing, and refuses only to be asked for more. -/
def Request.endAnswer : Request → Answer
  | .readBounded 0 => ⟨[], .ok ()⟩
  | .readBounded n => ⟨[], .error (.inr (.overread n 0))⟩
  | _ => ⟨[], .ok ()⟩

section

variable {ρ τ : Type} [Quota (ρ × τ)] {gives : τ → Bytes → τ → Prop} {s t u : ρ × τ} {bs cs : Bytes}

/-- Between `s` and `t` a reader has been given the bytes `bs` by what is beneath it, and they count as no longer
left. -/
structure Takes (gives : τ → Bytes → τ → Prop) (s : ρ × τ) (bs : Bytes) (t : ρ × τ) : Prop where
  beneath : gives s.2 bs t.2
  left : left s = bs.length + left t

theorem Takes.refl [Reader τ] (htracks : Reader.Tracks gives) (s : ρ × τ) : Takes gives s [] s :=
  ⟨htracks.refl s.2, (Nat.zero_add _).symm⟩

theorem Takes.trans [Reader τ] (htracks : Reader.Tracks gives) (h : Takes gives s bs t) (k : Takes gives t cs u) :
    Takes gives s (bs ++ cs) u where
  beneath := htracks.trans h.beneath k.beneath
  left := by rw [h.left, k.left, List.length_append, Nat.add_assoc]

/-- If each request takes what is given out in answer to it, then so do all of them. The condition `I` holds from one
request to the next. -/
theorem serveAll_takes [Reader τ] (htracks : Reader.Tracks gives) {I : ρ × τ → Prop}
    (hstep : ∀ s, I s → ∀ request,
      Takes gives s (serve s request).1.given (serve s request).2 ∧ I (serve s request).2)
    (requests : List Request) (hs : I s) : Takes gives s (given (serveAll requests s).1) (serveAll requests s).2 := by
  induction requests generalizing s with
  | nil => exact .refl htracks s
  | cons request requests ih =>
      obtain ⟨htakes, hnext⟩ := hstep s hs request
      exact htakes.trans htracks (ih hnext)

/-- What has been asked of a reader with a limit over `beneath` has taken the bytes `taken` from it and left it to
`s`. -/
structure Isolates (gives : τ → Bytes → τ → Prop) (limit : Nat) (beneath : τ) (taken : Bytes) (s : ρ × τ) : Prop where
  takes : gives beneath taken s.2
  within : taken.length + left s = limit
  next : ∀ request, request ≠ .close → gives s.2 (serve s request).1.given (serve s request).2.2
  /-- Once all has been taken, nothing that is asked later meets what is beneath, whatever that is. -/
  untouched : taken.length = limit → ∀ later, ∃ r, ∀ other : τ,
    serveAll later (s.1, other) = (later.map fun request => (request, request.endAnswer), r, other)

/-- A reader with nothing left, of which nothing remains either, answers all but a closing without its source. -/
theorem serve_exhausted {σ : Type} [Quota σ] {s : σ} {request : Request} (hread : ∀ n, Reader.read s n = (.ok [], s))
    (hremaining : BoundedReader.remaining s = 0) (hrequest : request ≠ .close) :
    serve s request = (request.endAnswer, s) := by
  cases request with
  | read n =>
      simp only [serve, hread, Attempt.map, Attempt.mapError, Attempt.given, Request.endAnswer]
  | readBounded n =>
      cases n with
      | zero => simp only [serve, Cursor.readBounded_zero, Attempt.map, Attempt.mapError, Attempt.given, Request.endAnswer]
      | succ n =>
          have hlt : BoundedReader.remaining s < n + 1 := hremaining ▸ Nat.succ_pos n
          simp only [serve, Cursor.readBounded_of_lt hlt, hremaining, Attempt.map, Attempt.mapError, Attempt.given,
            Request.endAnswer]
  | readToEnd =>
      have hnone : readToEnd s = (.ok (), #[], s) := by
        simp only [readToEnd, Reader.readAll, hread]
      simp only [serve, hnone, Attempt.mapError, Request.endAnswer]
  | close => exact absurd rfl hrequest

/-- A reader that has nothing left once it has no business with its source. -/
theorem serveAll_exhausted {P : ρ → Prop}
    (hstep : ∀ r, P r → ∀ request, ∃ r', P r' ∧ ∀ other : τ, serve (r, other) request = (request.endAnswer, r', other))
    (later : List Request) {r : ρ} (hr : P r) : ∃ r', ∀ other : τ,
      serveAll later (r, other) = (later.map fun request => (request, request.endAnswer), r', other) := by
  induction later generalizing r with
  | nil => exact ⟨r, fun _ => rfl⟩
  | cons request later ih =>
      obtain ⟨r', hr', hserve⟩ := hstep r hr request
      obtain ⟨r'', hserveAll⟩ := ih hr'
      exact ⟨r'', fun other => by simp only [serveAll, hserve, hserveAll, List.map_cons]⟩

theorem Takes.isolates {P : ρ → Prop} {r : ρ} {beneath : τ} {taken : Bytes} (h : Takes gives (r, beneath) taken s)
    (hnext : ∀ request, request ≠ .close → Takes gives s (serve s request).1.given (serve s request).2)
    (hspent : Quota.left s = 0 → P s.1)
    (hstep : ∀ r, P r → ∀ request, ∃ r', P r' ∧
      ∀ other : τ, serve (r, other) request = (request.endAnswer, r', other)) :
    Isolates gives (Quota.left (r, beneath)) beneath taken s where
  takes := h.beneath
  within := h.left.symm
  next request hrequest := (hnext request hrequest).beneath
  untouched hall later := by
    have hzero : Quota.left s = 0 := by
      have hleft := h.left
      omega
    exact serveAll_exhausted hstep later (hspent hzero)

end

/-- Read to its end, the reader gives out the bytes `bs`, however much is asked for each time. -/
def ReadsAll {σ : Type} [Reader σ] (s : σ) (bs : Bytes) : Prop :=
  ∀ want : Array UInt8 → Nat, (∀ got, 0 < want got) →
    ∃ k t, Loop (Reader.gatherRound want) k (#[], s) (.ok (), bs.toArray, t)

section

variable {σ : Type} {s : σ} {seen : σ → Segment × Source}

theorem gathered_whole {a : Attempt IoError Unit × Array UInt8 × σ} (h : Segment.GatherOutcome seen (#[], s) a)
    (hwhole : Segment.IsWhole (seen s)) :
    a.1 = .ok () ∧ a.2.1.toList = (seen s).2.data.take (seen s).1.left := by
  have hok : a.1 = .ok () := by
    cases ha : a.1 with
    | ok u => rfl
    | error e => exact absurd ha (h.filled hwhole.filled e)
    | waiting => exact absurd ha (h.clear hwhole.clear)
  obtain ⟨bs, hgot, hgives⟩ := h.gives
  have htake := hgives.take_data
  rw [h.ended hok, List.take_zero, List.append_nil] at htake
  exact ⟨hok, hgot.trans htake.symm⟩

/-- What reads like a segment that is whole gives out all of it. -/
theorem readsAll_whole [Reader σ]
    (hread : ∀ (s : σ) (n : Nat), Segment.ReadOutcome n (seen s) (Reader.read s n).1 (seen (Reader.read s n).2))
    (hwhole : Segment.IsWhole (seen s)) : ReadsAll s ((seen s).2.data.take (seen s).1.left) := by
  intro want hwant
  have hstep : ∀ {g g' : Array UInt8 × σ}, True → Reader.gatherRound want g = .goesOn g' → True ∧
      (seen g'.2).1.left + (seen g'.2).2.failures < (seen g.2).1.left + (seen g.2).2.failures := by
    intro g g' _ h
    obtain ⟨-, -, -, hlt⟩ := Segment.gather_goesOn hread h
    exact ⟨trivial, hlt⟩
  obtain ⟨k, ⟨r, got, t⟩, hloop, -⟩ := Loop.exists_of_measure (s := (#[], s)) _ hstep trivial
  obtain ⟨rfl, hgot⟩ := gathered_whole (Segment.gather_outcome hread hwant hloop) hwhole
  exact ⟨k, t, hgot ▸ hloop⟩

theorem readToEnd_whole [Quota σ]
    (hread : ∀ (s : σ) (n : Nat), Segment.ReadOutcome n (seen s) (Reader.read s n).1 (seen (Reader.read s n).2))
    (hreads : (seen s).1.left + (seen s).2.failures ≤ left s + Reader.interruptions s)
    (hwhole : Segment.IsWhole (seen s)) :
    (serve s .readToEnd).1 = ⟨(seen s).2.data.take (seen s).1.left, .ok ()⟩ := by
  have houtcome : Segment.GatherOutcome seen (#[], s) (readToEnd s) :=
    Segment.readAll_outcome hread (by decide) (Nat.lt_succ_of_le hreads)
  obtain ⟨hok, hgot⟩ := gathered_whole houtcome hwhole
  simp only [serve, hok, hgot, Attempt.mapError]

end

section

variable {s : Segment × Source}

theorem segment_takes {request : Request} (hrequest : request ≠ .close) :
    Takes Source.Gives s (serve s request).1.given (serve s request).2 :=
  have hgives := serve_gives (s := s) Segment.tracks hrequest
  ⟨hgives.source, hgives.left⟩

/-- A segment that has been closed takes from its source what it still gives out, and nothing more by being closed
again. -/
theorem closed_segment_takes (requests : List Request) (hclosed : s.1.closed = true) :
    Takes Source.Gives s (given (serveAll requests s).1) (serveAll requests s).2 := by
  refine serveAll_takes Source.tracks (I := fun s => s.1.closed = true) (fun s hs request => ?_) requests hclosed
  by_cases hrequest : request = .close
  · have hagain : serve s .close = (⟨[], .ok ()⟩, s) := by
      simp only [serve, close, Segment.close, if_pos hs, Attempt.mapError]
    rw [hrequest, hagain]
    exact ⟨.refl Source.tracks s, hs⟩
  · exact ⟨segment_takes hrequest, (serve_gives (s := s) Segment.tracks hrequest).closed.trans hs⟩

theorem segment_takes_spent (requests : List Request) (s : Segment × Source) :
    ∃ discarded, Takes Source.Gives s (spent discarded (serveAll requests s).1) (serveAll requests s).2 := by
  induction requests generalizing s with
  | nil => exact ⟨[], .refl Source.tracks s⟩
  | cons request requests ih =>
      by_cases hrequest : request = .close
      · subst hrequest
        have houtcome := Segment.close_outcome (rfl : s.1.close s.2 = _)
        obtain ⟨discarded, hgives, hleft⟩ := houtcome.taken
        have htakes : Takes Source.Gives s discarded (serve s .close).2 := ⟨hgives, hleft⟩
        exact ⟨discarded, htakes.trans Source.tracks (closed_segment_takes requests houtcome.closed)⟩
      · obtain ⟨discarded, htakes⟩ := ih (serve s request).2
        refine ⟨discarded, ?_⟩
        change Takes Source.Gives s (spent discarded ((request, _) :: _)) _
        rw [spent_cons hrequest]
        exact (segment_takes hrequest).trans Source.tracks htakes

theorem segment_exhausted (seg : Segment) (hseg : seg.left = 0) (request : Request) : ∃ seg' : Segment, seg'.left = 0 ∧
    ∀ other : Source, serve (seg, other) request = (request.endAnswer, seg', other) := by
  have hread : ∀ seg : Segment, seg.left = 0 → ∀ (other : Source) (n : Nat),
      Reader.read (seg, other) n = (.ok [], seg, other) :=
    fun _ hseg _ _ => Segment.read_of_eq_zero (.inl hseg)
  by_cases hrequest : request = .close
  · refine ⟨{ seg with closed := true }, hseg, fun other => ?_⟩
    have hclose : seg.close other = (.ok (), { seg with closed := true }, other) := by
      by_cases hclosed : seg.closed = true
      · rw [Segment.close, if_pos hclosed, ← hclosed]
      · simp only [Segment.close, if_neg hclosed, Segment.drain, Reader.readAll,
          hread { seg with closed := true } hseg, Attempt.mapError]
    rw [hrequest]
    simp only [serve, close, hclose, Attempt.mapError, Request.endAnswer]
  · exact ⟨seg, hseg, fun other => serve_exhausted (hread seg hseg other) hseg hrequest⟩

theorem segment_isolates (limit : Nat) (src : Source) (requests : List Request) :
    ∃ discarded, Isolates Source.Gives limit src
      (spent discarded (serveAll requests (({ left := limit } : Segment), src)).1)
      (serveAll requests (({ left := limit } : Segment), src)).2 := by
  obtain ⟨discarded, htakes⟩ := segment_takes_spent requests ({ left := limit }, src)
  exact ⟨discarded, htakes.isolates (fun _ => segment_takes) id segment_exhausted⟩

end

section

variable {τ : Type} [Reader τ] {gives : τ → Bytes → τ → Prop}

theorem tracks_takes_window (hmodest : Reader.IsModest τ) (htracks : Reader.Tracks gives) :
    Reader.Tracks (Takes gives : Window × τ → Bytes → Window × τ → Prop) where
  refl := .refl htracks
  trans := .trans htracks
  read := by
    rintro ⟨w, s⟩ ⟨w', t⟩ n r hr
    refine ⟨?_, ((Window.tracks hmodest).read hr).left⟩
    rcases hcapped : cappedRead .invalidData w.left s n with ⟨q, left, u⟩
    simp only [Reader.read, Window.read, hcapped, Prod.mk.injEq] at hr
    obtain ⟨rfl, -, rfl⟩ := hr
    cases cappedRead_outcome hcapped with
    | nothing _ => exact htracks.refl s
    | short _ hread _ =>
        have hgives : gives s [] u := htracks.read hread
        exact hgives
    | bytes _ hread _ => exact htracks.read hread
    | failed _ hread => exact htracks.read hread
    | waits _ hread => exact htracks.read hread

theorem window_takes (hmodest : Reader.IsModest τ) (htracks : Reader.Tracks gives) (s : Window × τ) (request : Request) :
    Takes gives s (serve s request).1.given (serve s request).2 := by
  by_cases hrequest : request = .close
  · subst hrequest
    exact ⟨htracks.refl s.2, (Nat.zero_add _).symm⟩
  · exact serve_gives (tracks_takes_window hmodest htracks) hrequest

theorem window_exhausted (w : Window) (hw : w.left = 0) (request : Request) : ∃ w' : Window, w'.left = 0 ∧
    ∀ other : τ, serve (w, other) request = (request.endAnswer, w', other) := by
  by_cases hrequest : request = .close
  · exact ⟨w.close, hw, fun other => by rw [hrequest]; rfl⟩
  · refine ⟨w, hw, fun other => serve_exhausted (fun n => ?_) ?_ hrequest⟩
    · simp only [Reader.read, Window.read, cappedRead, if_pos (Or.inl hw)]
    · change w.remaining = 0
      simp only [Window.remaining, hw, ite_self]

theorem window_isolates (hmodest : Reader.IsModest τ) (htracks : Reader.Tracks gives) (limit : Nat) (beneath : τ)
    (requests : List Request) :
    Isolates gives limit beneath (given (serveAll requests (({ left := limit } : Window), beneath)).1)
      (serveAll requests (({ left := limit } : Window), beneath)).2 := by
  have htakes := serveAll_takes htracks (I := fun _ => True) (s := (({ left := limit } : Window), beneath))
    (fun s _ request => ⟨window_takes hmodest htracks s request, trivial⟩) requests trivial
  exact htakes.isolates (fun request _ => window_takes hmodest htracks _ request) id window_exhausted

end

/-- Whatever is asked of a reader of a limited number of bytes, in any order and also after it has been closed, it takes
no other bytes from what is beneath than it gives out, but for those that the first closing of a segment discards; it
never takes more than the limit, and leaves what is beneath alone once it has taken that many. If a source holds so many
and nothing but interruptions between them, a user who reads to the end gets them, however much they ask for each time. -/
theorem isolated {τ : Type} [Reader τ] {gives : τ → Bytes → τ → Prop} (hmodest : Reader.IsModest τ)
    (htracks : Reader.Tracks gives) (limit : Nat) (src : Source) (beneath : τ) (requests : List Request) :
    (∀ asked s, serveAll requests (({ left := limit } : Segment), src) = (asked, s) →
      (∃ discarded, Isolates Source.Gives limit src (spent discarded asked) s) ∧ (serve s .close).1.given = []) ∧
    (∀ asked s, serveAll requests (({ left := limit } : Window), beneath) = (asked, s) →
      Isolates gives limit beneath (given asked) s ∧ (serve s .close).1.given = [] ∧ (serve s .close).2.2 = s.2) ∧
    (src.IsSmooth → limit ≤ src.data.length →
      (serve (({ left := limit } : Segment), src) .readToEnd).1 = ⟨src.data.take limit, .ok ()⟩ ∧
        (serve (({ left := limit } : Window), src) .readToEnd).1 = ⟨src.data.take limit, .ok ()⟩ ∧
        ReadsAll (({ left := limit } : Segment), src) (src.data.take limit) ∧
        ReadsAll (({ left := limit } : Window), src) (src.data.take limit)) := by
  refine ⟨?_, ?_, fun hsmooth hlimit => ?_⟩
  · intro asked s hasked
    have hisolates := segment_isolates limit src requests
    rw [hasked] at hisolates
    exact ⟨hisolates, serve_close_given⟩
  · intro asked s hasked
    have hisolates := window_isolates hmodest htracks limit beneath requests
    rw [hasked] at hisolates
    exact ⟨hisolates, serve_close_given, rfl⟩
  · have hwhole : Segment.IsWhole (({ left := limit } : Segment), src) := ⟨hsmooth, hlimit⟩
    have hread : ∀ (s : Segment × Source) (n : Nat), Segment.ReadOutcome n (id s) (Reader.read s n).1
        (id (Reader.read s n).2) := fun _ _ => Segment.read_outcome rfl
    exact ⟨readToEnd_whole hread (Nat.le_refl _) hwhole, readToEnd_whole Window.read_outcome (Nat.le_refl _) hwhole,
      readsAll_whole hread hwhole, readsAll_whole Window.read_outcome hwhole⟩

/-- Five bytes of a source that is interrupted, and fails when three of them have been taken: what the closing of a
segment discards before it fails stands between what is read before it and after it, and a window gives out all five. -/
theorem isolated_cut_off :
    let src : Source := { items := [.data [1, 2], .failure ⟨.interrupted, "again"⟩, .data [3],
      .failure ⟨.timedOut, "late"⟩, .data [4, 5, 6]] }
    let whole : Source := { items := [.data [1, 2], .failure ⟨.interrupted, "again"⟩, .data [3, 4, 5, 6]] }
    let asked := serveAll [.read 1, .close, .readToEnd, .close] (({ left := 5 } : Segment), src)
    let seen := serveAll [.readToEnd, .close, .readToEnd] (({ left := 5 } : Window), src)
    asked.1.map (fun p => p.2.given) = [[1], [], [4, 5], []] ∧ seen.1.map (fun p => p.2.given) = [[1, 2, 3], [], [4, 5]] ∧
      Reader.IsModest Source ∧ Reader.Tracks Source.Gives ∧
      (∃ discarded, Isolates Source.Gives 5 src (spent discarded asked.1) asked.2) ∧
      Isolates Source.Gives 5 src (given seen.1) seen.2 ∧ whole.IsSmooth ∧ 5 ≤ whole.data.length ∧
      (serve (({ left := 5 } : Window), whole) .readToEnd).1 = ⟨[1, 2, 3, 4, 5], .ok ()⟩ := by
  intro src whole asked seen
  have hsmooth : whole.IsSmooth := by decide
  have hlength : 5 ≤ whole.data.length := by decide
  have hisolated := isolated Source.isModest Source.tracks 5 src src
  refine ⟨by decide +kernel, by decide +kernel, Source.isModest, Source.tracks, ?_, ?_, hsmooth, hlength, ?_⟩
  · exact ((hisolated _).1 _ _ (Prod.eta asked).symm).1
  · exact ((hisolated _).2.1 _ _ (Prod.eta seen).symm).1
  · exact ((isolated Source.isModest Source.tracks 5 whole whole []).2.2 hsmooth hlength).2.1

end Quota

end FrameLink
