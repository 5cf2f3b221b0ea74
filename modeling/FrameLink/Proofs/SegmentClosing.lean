import FrameLink.Proofs.Quotas

/-! What it means that a segment has been closed. The first closing drains the segment, and if it succeeds the source
stands at what follows. The segment counts as closed from then on, whether or not the draining came to its end; so a
closing after one that failed succeeds too, and leaves the source in the middle of the segment. -/

namespace FrameLink

namespace Segment

/-- What the closing of the segment `a` answers, and what it leaves behind. -/
inductive CloseOutcome (a : Segment × Source) : Attempt LinkError Unit → Segment × Source → Prop where
  | again (hclosed : a.1.closed = true) : CloseOutcome a (.ok ()) a
  | drained {bs : Bytes} {b : Segment × Source} (hgives : Gives ({ a.1 with closed := true }, a.2) bs b)
      (hleft : b.1.left = 0) : CloseOutcome a (.ok ()) b
  | failed {bs : Bytes} {cause : IoError} {b : Segment × Source}
      (hgives : Gives ({ a.1 with closed := true }, a.2) bs b) : CloseOutcome a (.error (.stream cause)) b
  | waits {bs : Bytes} {b : Segment × Source} (hgives : Gives ({ a.1 with closed := true }, a.2) bs b) :
      CloseOutcome a .waiting b

theorem close_outcome {a b : Segment × Source} {r : Attempt LinkError Unit} (h : a.1.close a.2 = (r, b)) :
    CloseOutcome a r b := by
  obtain ⟨seg, src⟩ := a
  by_cases hclosed : seg.closed = true
  · simp only [close, if_pos hclosed, Prod.mk.injEq] at h
    obtain ⟨rfl, rfl⟩ := h
    exact .again hclosed
  · obtain ⟨bs, hgives, hzero, -, -⟩ := drain_outcome { seg with closed := true } src
    rcases hr : drain { seg with closed := true } src with ⟨q, c⟩
    rw [hr] at hgives hzero
    simp only [close, if_neg hclosed, hr, Prod.mk.injEq] at h
    obtain ⟨rfl, rfl⟩ := h
    cases q with
    | ok u => exact .drained hgives (hzero rfl)
    | error e => exact .failed hgives
    | waiting => exact .waits hgives

section

variable {a b : Segment × Source} {r : Attempt LinkError Unit}

/-- Whatever comes of the closing, what it takes from the source is no longer left of the segment. -/
theorem CloseOutcome.taken (h : CloseOutcome a r b) : ∃ bs, a.2.Gives bs b.2 ∧ a.1.left = bs.length + b.1.left := by
  cases h with
  | again _ => exact ⟨[], .refl _, (Nat.zero_add _).symm⟩
  | drained hgives _ => exact ⟨_, hgives.source, hgives.left⟩
  | failed hgives => exact ⟨_, hgives.source, hgives.left⟩
  | waits hgives => exact ⟨_, hgives.source, hgives.left⟩

theorem CloseOutcome.closed (h : CloseOutcome a r b) : b.1.closed = true := by
  cases h with
  | again hclosed => exact hclosed
  | drained hgives _ => exact hgives.closed
  | failed hgives => exact hgives.closed
  | waits hgives => exact hgives.closed

end

end Segment

namespace Quota

/-- What has been asked of a segment made over the source `src`, and answered, has taken bytes from the source up to the
limit; and if every closing has succeeded, nothing is left of a closed segment. -/
structure Drains (limit : Nat) (src : Source) (asked : List (Request × Answer)) (s : Segment × Source) : Prop where
  taken : ∃ bs, src.Gives bs s.2 ∧ bs.length + s.1.left = limit
  aligned : s.1.closed = true → (∀ a, (Request.close, a) ∈ asked → a.result = .ok ()) → s.1.left = 0
  closed : Request.close ∈ asked.map Prod.fst → s.1.closed = true

variable {limit : Nat} {src : Source} {asked : List (Request × Answer)} {s t : Segment × Source} {request : Request}
  {a : Answer}

theorem Drains.init (limit : Nat) (src : Source) : Drains limit src [] ({ left := limit }, src) where
  taken := ⟨[], .refl _, Nat.zero_add _⟩
  aligned := nofun
  closed := nofun

theorem Drains.trans_taken (h : Drains limit src asked s)
    (ht : ∃ bs, s.2.Gives bs t.2 ∧ s.1.left = bs.length + t.1.left) :
    ∃ bs, src.Gives bs t.2 ∧ bs.length + t.1.left = limit := by
  obtain ⟨bs, hbs, hlimit⟩ := h.taken
  obtain ⟨cs, hcs, hleft⟩ := ht
  exact ⟨bs ++ cs, hbs.trans hcs, by rw [List.length_append, Nat.add_assoc, ← hleft, hlimit]⟩

theorem Drains.serve (h : Drains limit src asked s) (ht : Quota.serve s request = (a, t)) :
    Drains limit src (asked ++ [(request, a)]) t := by
  by_cases hrequest : request = .close
  · subst hrequest
    rcases hr : s.1.close s.2 with ⟨r, u⟩
    have hserve : Quota.serve s .close = (⟨[], r.mapError .inr⟩, u) := by
      simp only [Quota.serve, close, hr]
    rw [hserve] at ht
    obtain ⟨rfl, rfl⟩ := Prod.mk.inj ht
    have houtcome := Segment.close_outcome hr
    refine ⟨h.trans_taken houtcome.taken, fun _ hall => ?_, fun _ => houtcome.closed⟩
    have hok := hall _ (List.mem_append_right _ List.mem_cons_self)
    cases houtcome with
    | again hclosed => exact h.aligned hclosed fun a ha => hall a (List.mem_append_left _ ha)
    | drained _ hleft => exact hleft
    | failed _ => cases hok
    | waits _ => cases hok
  · have hgives : Segment.Gives s a.given t := by
      have htracked := serve_gives (s := s) Segment.tracks hrequest
      rwa [ht] at htracked
    have hclose : ∀ {p : Request × Answer}, p ∈ asked ++ [(request, a)] → p.1 = .close → p ∈ asked := by
      intro p hp hfst
      rcases List.mem_append.1 hp with hp | hp
      · exact hp
      · cases List.mem_singleton.1 hp
        exact absurd hfst hrequest
    refine ⟨h.trans_taken ⟨_, hgives.source, hgives.left⟩, fun hclosed hall => ?_, fun hmem => ?_⟩
    · have hzero := h.aligned (hgives.closed ▸ hclosed) fun b hb => hall b (List.mem_append_left _ hb)
      have hleft := hgives.left
      omega
    · obtain ⟨p, hp, hfst⟩ := List.mem_map.1 hmem
      rw [hgives.closed]
      exact h.closed (List.mem_map.2 ⟨p, hclose hp hfst, hfst⟩)

theorem Drains.serveAll (requests : List Request) (h : Drains limit src asked s) :
    Drains limit src (asked ++ (Quota.serveAll requests s).1) (Quota.serveAll requests s).2 := by
  induction requests generalizing asked s with
  | nil =>
      rw [Quota.serveAll, List.append_nil]
      exact h
  | cons request requests ih =>
      have hstep := ih (h.serve (rfl : Quota.serve s request = _))
      rwa [List.append_assoc, List.singleton_append] at hstep

/-- A closing that succeeds, whatever has been asked of the segment before, has taken from the source all that is no longer
left of the segment. Nothing is left of it, and the source stands at the first byte behind it, unless an earlier closing
has not succeeded; then this one does nothing. -/
theorem segment_close_past {s' : Segment × Source} {requests : List Request}
    (hasked : Quota.serveAll requests (({ left := limit } : Segment), src) = (asked, s))
    (hclose : Quota.serve s .close = (⟨[], .ok ()⟩, s')) :
    (∃ taken, src.Gives taken s'.2 ∧ taken.length + s'.1.left = limit) ∧
      (s'.1.left = 0 → limit ≤ src.data.length ∧ s'.2.data = src.data.drop limit) ∧
      (s'.1.left = 0 ∨ s' = s ∧ ∃ a, (Request.close, a) ∈ asked ∧ a.result ≠ .ok ()) := by
  have hbefore : Drains limit src asked s := by
    have hrun := (Drains.init limit src).serveAll requests
    rwa [hasked] at hrun
  have hafter := hbefore.serve hclose
  obtain ⟨taken, hgives, hlimit⟩ := hafter.taken
  refine ⟨⟨taken, hgives, hlimit⟩, fun hzero => ?_, ?_⟩
  · have htaken : taken.length = limit := by omega
    have hlength := hgives.length
    refine ⟨by omega, ?_⟩
    rw [hgives.data, ← htaken, List.drop_left]
  · by_cases hall : ∀ a, (Request.close, a) ∈ asked → a.result = .ok ()
    · have hclosed := hafter.closed (List.mem_map.2 ⟨_, List.mem_append_right _ List.mem_cons_self, rfl⟩)
      refine .inl (hafter.aligned hclosed fun a ha => ?_)
      rcases List.mem_append.1 ha with ha | ha
      · exact hall a ha
      · cases List.mem_singleton.1 ha
        rfl
    · simp only [Classical.not_forall] at hall
      obtain ⟨a, hmem, hresult⟩ := hall
      have hclosed : s.1.closed = true := hbefore.closed (List.mem_map.2 ⟨_, hmem, rfl⟩)
      have hagain : Quota.serve s .close = (⟨[], .ok ()⟩, s) := by
        simp only [Quota.serve, close, Segment.close, if_pos hclosed, Attempt.mapError]
      rw [hagain] at hclose
      exact .inr ⟨(Prod.mk.inj hclose).2.symm, a, hmem, hresult⟩

/-- Three bytes of a source that is interrupted after two of them and fails later: one byte is read, and the closing
takes the other two. -/
theorem segment_close_past_interrupted :
    let src : Source :=
      { items := [.data [1, 2], .failure ⟨.interrupted, "again"⟩, .data [3, 4], .failure ⟨.timedOut, "late"⟩] }
    let s := Quota.serveAll [.readBounded 1] (({ left := 3 } : Segment), src)
    Quota.serve s.2 .close = (⟨[], .ok ()⟩, (Quota.serve s.2 .close).2) ∧
      (Quota.serve s.2 .close).2.1.left = 0 ∧ (Quota.serve s.2 .close).2.2.data = [4] := by
  intro src s
  have hok : (Quota.serve s.2 .close).1 = ⟨[], .ok ()⟩ := by decide +kernel
  have hclose : Quota.serve s.2 .close = (⟨[], .ok ()⟩, (Quota.serve s.2 .close).2) := by
    rw [← hok]
  obtain ⟨-, hpast, hzero | ⟨-, a, hmem, -⟩⟩ := segment_close_past (Prod.eta s).symm hclose
  · have hrest : src.data.drop 3 = [4] := by decide
    exact ⟨hclose, hzero, (hpast hzero).2.trans hrest⟩
  · have hnever : Request.close ∉ s.1.map Prod.fst := by decide +kernel
    exact absurd (List.mem_map.2 ⟨_, hmem, rfl⟩) hnever

/-- So a closing that succeeds after one that failed may leave the source in the middle of the segment. -/
theorem not_past_once_failed :
    ¬ ∀ (limit : Nat) (src : Source) (requests : List Request) (asked : List (Request × Answer))
      (s s' : Segment × Source), Quota.serveAll requests (({ left := limit } : Segment), src) = (asked, s) →
        Quota.serve s .close = (⟨[], .ok ()⟩, s') → s'.1.left = 0 := by
  intro hall
  let src : Source := { items := [.data [0x61], .failure ⟨.timedOut, "late"⟩, .data [0x62, 0x63]] }
  let s := Quota.serveAll [.close] (({ left := 3 } : Segment), src)
  have hok : (Quota.serve s.2 .close).1 = ⟨[], .ok ()⟩ := by decide +kernel
  have hclose : Quota.serve s.2 .close = (⟨[], .ok ()⟩, (Quota.serve s.2 .close).2) := by
    rw [← hok]
  have hzero := hall 3 src [.close] s.1 s.2 _ rfl hclose
  have hleft : (Quota.serve s.2 .close).2.1.left = 2 := by decide +kernel
  rw [hleft] at hzero
  cases hzero

end Quota

end FrameLink
