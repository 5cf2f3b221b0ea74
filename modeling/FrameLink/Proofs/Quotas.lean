import FrameLink.Proofs.Cursors

/-! Readers limited to a number of bytes, in the hands of a user who reads from them in any way and closes them at any
time. What is left of such a reader shrinks by just the bytes that it gives out, and only the closing of a segment
takes from it what nobody gets. What it says remains is what is left, but for a window that has been closed: then
nothing remains, though plain reads still give out what is left. -/

namespace FrameLink

/-- The bytes that a read gives out. -/
def Attempt.given {ε : Type} : Attempt ε Bytes → Bytes
  | .ok bs => bs
  | .error _ => []
  | .waiting => []

@[simp] theorem Attempt.given_mapError {ε δ : Type} (f : ε → δ) (r : Attempt ε Bytes) :
    (r.mapError f).given = r.given := by
  cases r <;> rfl

namespace Reader

/-- A read gives out no more than it is asked for. -/
def IsModest (σ : Type) [Reader σ] : Prop :=
  ∀ (s t : σ) (n : Nat) (bs : Bytes), read s n = (.ok bs, t) → bs.length ≤ n

variable {σ : Type} [Reader σ]

/-- The relation `gives s bs t`, that a reader has given out the bytes `bs` between `s` and `t`, is true of what reads
give out. -/
structure Tracks (gives : σ → Bytes → σ → Prop) : Prop where
  refl : ∀ s, gives s [] s
  trans : ∀ {s t u bs cs}, gives s bs t → gives t cs u → gives s (bs ++ cs) u
  read : ∀ {s t : σ} {n : Nat} {r : Attempt IoError Bytes}, Reader.read s n = (r, t) → gives s r.given t

section

variable {gives : σ → Bytes → σ → Prop} {n : Nat} {s t : σ}

theorem Tracks.readThrough (h : Tracks gives) {r : Attempt IoError Bytes} (hr : Reader.readThrough s n = (r, t)) :
    gives s r.given t := by
  suffices hretry : ∀ tries (s : σ), readRetrying n tries s = (r, t) → gives s r.given t from hretry _ s hr
  intro tries
  induction tries with
  | zero => exact fun s hs => h.read hs
  | succ tries ih =>
      intro s hs
      rcases hread : (Reader.read s n : Attempt IoError Bytes × σ) with ⟨q, u⟩
      have hgives := h.read hread
      simp only [readRetrying, hread] at hs
      cases q with
      | ok bs =>
          obtain ⟨rfl, rfl⟩ := Prod.mk.inj hs
          exact hgives
      | waiting =>
          obtain ⟨rfl, rfl⟩ := Prod.mk.inj hs
          exact hgives
      | error e =>
          simp only at hs
          split at hs
          · exact h.trans hgives (ih u hs)
          · obtain ⟨rfl, rfl⟩ := Prod.mk.inj hs
            exact hgives

theorem Tracks.readAll (h : Tracks gives) {piece reads : Nat} {got got' : Array UInt8} {r : Attempt IoError Unit}
    (hr : Reader.readAll piece reads got s = (r, got', t)) : ∃ bs, got'.toList = got.toList ++ bs ∧ gives s bs t := by
  have hstay : ∀ {u}, gives s [] u → ∃ bs, got.toList = got.toList ++ bs ∧ gives s bs u :=
    fun hu => ⟨[], (List.append_nil _).symm, hu⟩
  induction reads generalizing got s with
  | zero =>
      simp only [Reader.readAll, Prod.mk.injEq] at hr
      obtain ⟨-, rfl, rfl⟩ := hr
      exact hstay (h.refl s)
  | succ reads ih =>
      rcases hread : (Reader.read s piece : Attempt IoError Bytes × σ) with ⟨q, u⟩
      have hgives := h.read hread
      simp only [Reader.readAll, hread] at hr
      cases q with
      | ok bs =>
          cases bs with
          | nil =>
              simp only [Prod.mk.injEq] at hr
              obtain ⟨-, rfl, rfl⟩ := hr
              exact hstay hgives
          | cons b bs =>
              obtain ⟨cs, hcs, hrest⟩ := ih hr fun hu => ⟨[], (List.append_nil _).symm, hu⟩
              refine ⟨(b :: bs) ++ cs, ?_, h.trans hgives hrest⟩
              rw [hcs, Array.toList_appendList, List.append_assoc]
      | error e =>
          simp only at hr
          split at hr
          · obtain ⟨cs, hcs, hrest⟩ := ih hr fun hu => ⟨[], (List.append_nil _).symm, hu⟩
            exact ⟨cs, hcs, h.trans hgives hrest⟩
          · simp only [Prod.mk.injEq] at hr
            obtain ⟨-, rfl, rfl⟩ := hr
            exact hstay hgives
      | waiting =>
          simp only [Prod.mk.injEq] at hr
          obtain ⟨-, rfl, rfl⟩ := hr
          exact hstay hgives

end

end Reader

/-- A bounded read gives out what the reads in it do, and no more than remains. -/
theorem Reader.Tracks.readBounded {σ : Type} [BoundedReader σ] {gives : σ → Bytes → σ → Prop} (h : Reader.Tracks gives)
    {n : Nat} {s t : σ} {r : Attempt LinkError Bytes} (hr : BoundedReader.readBounded s n = (r, t)) :
    gives s r.given t := by
  unfold BoundedReader.readBounded at hr
  split at hr
  · obtain ⟨rfl, rfl⟩ := Prod.mk.inj hr
    exact h.refl s
  · split at hr
    · obtain ⟨rfl, rfl⟩ := Prod.mk.inj hr
      exact h.refl s
    · obtain ⟨rfl, rfl⟩ := Prod.mk.inj hr
      rw [Attempt.given_mapError]
      exact h.readThrough rfl

theorem Source.isModest : Reader.IsModest Source := by
  intro s t n bs hr
  cases Source.read_outcome hr with
  | bytes _ hn _ => exact hn
  | ended _ _ _ => exact Nat.zero_le n

/-- What a source gives out is what its data lose. -/
theorem Source.tracks : Reader.Tracks Source.Gives where
  refl := .refl
  trans := .trans
  read hr := by
    cases Source.read_outcome hr with
    | bytes _ _ hgives => exact hgives
    | ended _ _ hgives => exact hgives
    | failed hgives _ _ => exact hgives
    | waits hgives _ _ => exact hgives

theorem Segment.ReadOutcome.gives {n : Nat} {a b : Segment × Source} {r : Attempt IoError Bytes}
    (h : Segment.ReadOutcome n a r b) : Segment.Gives a r.given b := by
  cases h with
  | bytes _ _ hgives => exact hgives
  | failed hgives _ _ => exact hgives
  | waits hgives _ => exact hgives

/-- What a segment gives out is what it takes from its source. -/
theorem Segment.tracks : Reader.Tracks Segment.Gives where
  refl := .refl
  trans := .trans
  read hr := (Segment.read_outcome hr).gives

namespace Window

/-- The window `a` has given out the bytes `bs` and become `b`, whatever has become of the reader beneath. -/
structure Gives {σ : Type} (a : Window × σ) (bs : Bytes) (b : Window × σ) : Prop where
  left : a.1.left = bs.length + b.1.left
  closed : b.1.closed = a.1.closed

theorem tracks {σ : Type} [Reader σ] (hmodest : Reader.IsModest σ) :
    Reader.Tracks (Gives : Window × σ → Bytes → Window × σ → Prop) where
  refl a := ⟨(Nat.zero_add _).symm, rfl⟩
  trans h k := ⟨by rw [h.left, k.left, List.length_append, Nat.add_assoc], k.closed.trans h.closed⟩
  read := by
    rintro ⟨w, s⟩ ⟨w', t⟩ n r hr
    rcases hcapped : cappedRead .invalidData w.left s n with ⟨q, left, u⟩
    simp only [Reader.read, read, hcapped, Prod.mk.injEq] at hr
    obtain ⟨rfl, rfl, rfl⟩ := hr
    refine ⟨?_, rfl⟩
    change w.left = q.given.length + left
    cases cappedRead_outcome hcapped with
    | bytes _ hread _ =>
        have hle := hmodest _ _ _ _ hread
        simp only [Attempt.given]
        omega
    | _ => exact (Nat.zero_add _).symm

/-- A closed window gives nothing to a bounded read, since nothing is said to remain. -/
theorem given_of_closed {σ : Type} [Reader σ] {w : Window} {s : σ} {n : Nat} {r : Attempt LinkError Bytes}
    {t : Window × σ} (hclosed : w.closed = true) (hr : BoundedReader.readBounded (w, s) n = (r, t)) : r.given = [] := by
  rcases Nat.eq_zero_or_pos n with rfl | hn
  · rw [Cursor.readBounded_zero] at hr
    obtain ⟨rfl, -⟩ := Prod.mk.inj hr
    rfl
  · have hremaining : BoundedReader.remaining (w, s) = 0 := if_pos hclosed
    rw [Cursor.readBounded_of_lt (hremaining ▸ hn)] at hr
    obtain ⟨rfl, -⟩ := Prod.mk.inj hr
    rfl

end Window

/-- A reader of a limited number of bytes that can be closed, with how many of them plain reads may still give out. -/
class Quota (σ : Type) extends BoundedReader σ where
  left : σ → Nat
  close : σ → Attempt LinkError Unit × σ

instance segmentQuota : Quota (Segment × Source) where
  left s := s.1.left
  close s := s.1.close s.2

instance windowQuota {σ : Type} [Reader σ] : Quota (Window × σ) where
  left s := s.1.left
  close s := (.ok (), s.1.close, s.2)

namespace Quota

/-- What is asked of a reader of a limited number of bytes. -/
inductive Request where
  | read (n : Nat)
  | readBounded (n : Nat)
  | readToEnd
  | close
  deriving DecidableEq

/-- Plain reads do not look at what remains. -/
def Request.IsPlain : Request → Prop
  | .read _ | .readToEnd => True
  | .readBounded _ | .close => False

/-- What comes of a request: the bytes that are given out, and whether it succeeds. -/
structure Answer where
  given : Bytes
  result : Attempt (IoError ⊕ LinkError) Unit
  deriving DecidableEq

variable {σ : Type} [Quota σ]

/-- Reads until there are no more bytes, at most once for each byte that is left and each interruption, and once more.
What has been read before a failure is given out. -/
def readToEnd (s : σ) : Attempt IoError Unit × Array UInt8 × σ :=
  Reader.readAll pieceSize (left s + Reader.interruptions s + 1) #[] s

def serve (s : σ) : Request → Answer × σ
  | .read n =>
    match Reader.read s n with
    | (r, t) => (⟨r.given, (r.map fun _ => ()).mapError .inl⟩, t)
  | .readBounded n =>
    match BoundedReader.readBounded s n with
    | (r, t) => (⟨r.given, (r.map fun _ => ()).mapError .inr⟩, t)
  | .readToEnd =>
    match readToEnd s with
    | (r, got, t) => (⟨got.toList, r.mapError .inl⟩, t)
  | .close =>
    match close s with
    | (r, t) => (⟨[], r.mapError .inr⟩, t)

/-- One request after the other, with what comes of each. -/
def serveAll : List Request → σ → List (Request × Answer) × σ
  | [], s => ([], s)
  | request :: requests, s =>
    match serve s request with
    | (a, t) =>
      match serveAll requests t with
      | (as, u) => ((request, a) :: as, u)

/-- The answer to a request is accounted for in what is said to remain: it gives out no more than that, and if nothing
is closed it lowers that by as much. -/
structure IsAccounted (s : σ) (request : Request) : Prop where
  given_le : (serve s request).1.given.length ≤ BoundedReader.remaining s
  lowered : request ≠ .close →
    (serve s request).1.given.length + BoundedReader.remaining (serve s request).2 = BoundedReader.remaining s

section

variable {s : σ} {request : Request}

/-- Whatever is asked but to close, what is given out is tracked. -/
theorem serve_gives {gives : σ → Bytes → σ → Prop} (h : Reader.Tracks gives) (hrequest : request ≠ .close) :
    gives s (serve s request).1.given (serve s request).2 := by
  cases request with
  | read n => exact h.read rfl
  | readBounded n => exact h.readBounded rfl
  | readToEnd =>
      obtain ⟨bs, hbs, hgives⟩ := h.readAll (rfl : readToEnd s = _)
      obtain rfl := hbs
      exact hgives
  | close => exact absurd rfl hrequest

theorem serve_close_given : (serve s .close).1.given = [] :=
  rfl

/-- Reads that are tracked by what remains are accounted for. -/
theorem isAccounted_of_remaining (h : request ≠ .close → (serve s request).1.given.length +
    BoundedReader.remaining (serve s request).2 = BoundedReader.remaining s) : IsAccounted s request := by
  refine ⟨?_, h⟩
  by_cases hclose : request = .close
  · rw [hclose, serve_close_given]
    exact Nat.zero_le _
  · exact h hclose ▸ Nat.le_add_right _ _

end

theorem serveAll_cons (request : Request) (requests : List Request) (s : σ) :
    (serveAll (request :: requests) s).2 = (serveAll requests (serve s request).2).2 :=
  rfl

/-- Whatever is asked of a segment, what remains is what is left. -/
theorem segment_isAccounted (s : Segment × Source) (request : Request) : IsAccounted s request :=
  isAccounted_of_remaining fun hrequest => (serve_gives Segment.tracks hrequest).left.symm

section

variable {τ : Type} [Reader τ] {s : Window × τ} {request : Request}

theorem window_isAccounted (hmodest : Reader.IsModest τ) (hopen : s.1.closed = false) : IsAccounted s request := by
  refine isAccounted_of_remaining fun hrequest => ?_
  have hgives := serve_gives (s := s) (Window.tracks hmodest) hrequest
  have hremaining : ∀ {u : Window × τ}, u.1.closed = false → BoundedReader.remaining u = u.1.left :=
    fun hu => if_neg (by rw [hu]; exact Bool.false_ne_true)
  rw [hremaining hopen, hremaining (hgives.closed.trans hopen), hgives.left]

/-- Closing a window marks it and gives out nothing; nothing else marks it. -/
theorem window_closed (hmodest : Reader.IsModest τ) (requests : List Request) (s : Window × τ) :
    (serveAll requests s).2.1.closed = true ↔ s.1.closed = true ∨ .close ∈ requests := by
  induction requests generalizing s with
  | nil => simp [serveAll]
  | cons request requests ih =>
      rw [serveAll_cons, ih, List.mem_cons]
      by_cases hrequest : request = .close
      · subst hrequest
        simp [serve, close, Window.close]
      · rw [(serve_gives (Window.tracks hmodest) hrequest).closed]
        simp [Ne.symm hrequest]

theorem window_left_le (hmodest : Reader.IsModest τ) (requests : List Request) (s : Window × τ) :
    (serveAll requests s).2.1.left ≤ s.1.left := by
  induction requests generalizing s with
  | nil => exact Nat.le_refl _
  | cons request requests ih =>
      rw [serveAll_cons]
      refine Nat.le_trans (ih _) ?_
      by_cases hrequest : request = .close
      · subst hrequest
        exact Nat.le_refl _
      · rw [(serve_gives (s := s) (Window.tracks hmodest) hrequest).left]
        exact Nat.le_add_left _ _

/-- Once a window is closed nothing is said to remain. Plain reads still give out what is left, and nothing else gives
out anything. -/
theorem window_shut (hmodest : Reader.IsModest τ) (request : Request) (hclosed : s.1.closed = true) :
    BoundedReader.remaining s = 0 ∧ BoundedReader.remaining (serve s request).2 = 0 ∧
      (serve s request).1.given.length + (serve s request).2.1.left = s.1.left ∧
      (¬ request.IsPlain → (serve s request).1.given = []) := by
  have hzero : ∀ {u : Window × τ}, u.1.closed = true → BoundedReader.remaining u = 0 := fun hu => if_pos hu
  refine ⟨hzero hclosed, ?_⟩
  by_cases hrequest : request = .close
  · subst hrequest
    exact ⟨hzero rfl, Nat.zero_add _, fun _ => rfl⟩
  · have hgives := serve_gives (s := s) (Window.tracks hmodest) hrequest
    refine ⟨hzero (hgives.closed.trans hclosed), hgives.left.symm, fun hplain => ?_⟩
    cases request with
    | read n => exact absurd trivial hplain
    | readToEnd => exact absurd trivial hplain
    | close => exact absurd rfl hrequest
    | readBounded n => exact Window.given_of_closed hclosed rfl

end

/-- Whatever has been asked of a reader of a limited number of bytes before, the next answer is accounted for in what is
said to remain, unless the reader is a window that has been closed. Of such a window nothing is said to remain, while
plain reads still give out what is left of it. -/
theorem remaining_accounted {τ : Type} [Reader τ] (hmodest : Reader.IsModest τ) (limit : Nat) (src : Source) (t : τ)
    (requests : List Request) (request : Request) :
    IsAccounted (serveAll requests (({ left := limit } : Segment), src)).2 request ∧
      (.close ∉ requests → IsAccounted (serveAll requests (({ left := limit } : Window), t)).2 request) ∧
      (.close ∈ requests → ∀ s, (serveAll requests (({ left := limit } : Window), t)).2 = s →
        BoundedReader.remaining s = 0 ∧ BoundedReader.remaining (serve s request).2 = 0 ∧
          (serve s request).1.given.length + (serve s request).2.1.left = s.1.left ∧ s.1.left ≤ limit ∧
          (¬ request.IsPlain → (serve s request).1.given = [])) := by
  have hwindow := window_closed hmodest requests (({ left := limit } : Window), t)
  refine ⟨segment_isAccounted _ _, fun hnever => window_isAccounted hmodest ?_, ?_⟩
  · rw [Bool.eq_false_iff, Ne, hwindow]
    rintro (hclosed | hclosed)
    · cases hclosed
    · exact hnever hclosed
  · rintro hclose s rfl
    obtain ⟨hbefore, hafter, hleft, hgiven⟩ := window_shut hmodest request (hwindow.2 (.inr hclose))
    exact ⟨hbefore, hafter, hleft, window_left_le hmodest requests _, hgiven⟩

/-- Five bytes of a source that fails after two of them: one is read, and all the rest is asked for. The same is asked
once more after the window has been closed. -/
theorem remaining_accounted_cut_off :
    let src : Source := { items := [.data [1, 2], .failure ⟨.timedOut, "late"⟩, .data [3, 4, 5, 6]] }
    let asked (requests : List Request) := (serveAll requests (({ left := 5 } : Window), src)).2
    Reader.IsModest Source ∧
      ((.close : Request) ∉ [Request.read 1] ∧ IsAccounted (asked [.read 1]) .readToEnd ∧
        (serve (asked [.read 1]) .readToEnd).1 = ⟨[2], .error (.inl ⟨.timedOut, "late"⟩)⟩) ∧
      ((.close : Request) ∈ [Request.read 1, .readToEnd, .close] ∧
        BoundedReader.remaining (asked [.read 1, .readToEnd, .close]) = 0 ∧
        (serve (asked [.read 1, .readToEnd, .close]) .readToEnd).1 = ⟨[3, 4, 5], .ok ()⟩) := by
  intro src asked
  have h := remaining_accounted Source.isModest 5 src src
  refine ⟨Source.isModest, ⟨by decide, (h [.read 1] .readToEnd).2.1 (by decide), by decide +kernel⟩, by decide, ?_,
    by decide +kernel⟩
  exact ((h [.read 1, .readToEnd, .close] .readToEnd).2.2 (by decide) _ rfl).1

/-- So what a closed window says remains is not what can still be read. -/
theorem not_accounted_once_closed :
    ¬ ∀ (limit : Nat) (src : Source) (requests : List Request) (request : Request),
      IsAccounted (serveAll requests (({ left := limit } : Window), src)).2 request := by
  intro hall
  have hle := (hall 4 (.ofBytes [0x61, 0x62, 0x63, 0x64]) [.close] (.read 2)).given_le
  revert hle
  decide +kernel

end Quota

end FrameLink
