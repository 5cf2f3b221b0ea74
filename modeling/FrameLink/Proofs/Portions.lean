import FrameLink.Proofs.Cursors

/-! A payload read in portions. However its source is cut into pieces, wherever it fails or ends, and whatever is asked
for, the bytes given out so far are the first ones of what the bytes under the header come to, and what remains is the
rest of the declared length. So how a payload is asked for does not change what it is. -/

namespace FrameLink.Cursor

/-- Reads again and again, each time up to so many bytes, whatever the reads before have answered. -/
def readEach : List Nat → Cursor → Source → List (Attempt LinkError Bytes) × Cursor × Source
  | [], c, src => ([], c, src)
  | n :: ns, c, src =>
    match c.read src n with
    | (r, c', src') =>
      match readEach ns c' src' with
      | (rs, c'', src'') => (r :: rs, c'', src'')

/-- What a read has given out. -/
def portion : Attempt LinkError Bytes → Bytes
  | .ok bs => bs
  | .error _ => []
  | .waiting => []

/-- What reads have given out, one after the other. -/
def portions (rs : List (Attempt LinkError Bytes)) : Bytes :=
  rs.flatMap portion

section

variable {h : Header} {body got : Bytes} {c d : Cursor} {src src' : Source} {ns : List Nat}
  {rs : List (Attempt LinkError Bytes)}

theorem readEach_cons {n : Nat} (hr : readEach (n :: ns) c src = (rs, d, src')) :
    ∃ r c₁ src₁ rs', c.read src n = (r, c₁, src₁) ∧ readEach ns c₁ src₁ = (rs', d, src') ∧ rs = r :: rs' := by
  rcases hread : c.read src n with ⟨r, c₁, src₁⟩
  rcases heach : readEach ns c₁ src₁ with ⟨rs', d', src''⟩
  simp only [readEach, hread, heach, Prod.mk.injEq] at hr
  obtain ⟨rfl, rfl, rfl⟩ := hr
  exact ⟨r, c₁, src₁, rs', rfl, heach, rfl⟩

theorem Follows.afterRead {n : Nat} {r : Attempt LinkError Bytes} (hf : Follows h body got c src)
    (hr : c.read src n = (r, d, src')) : Follows h body (got ++ portion r) d src' := by
  cases hf.reading hr with
  | bytes _ _ _ hfollows => exact hfollows
  | refused _ => rwa [portion, List.append_nil]
  | failed _ _ hfollows => rwa [portion, List.append_nil]
  | waits _ _ hfollows => rwa [portion, List.append_nil]

theorem Follows.afterReads (hf : Follows h body got c src) (hr : readEach ns c src = (rs, d, src')) :
    Follows h body (got ++ portions rs) d src' := by
  induction ns generalizing got c src rs with
  | nil =>
      simp only [readEach, Prod.mk.injEq] at hr
      obtain ⟨rfl, rfl, rfl⟩ := hr
      rwa [portions, List.flatMap_nil, List.append_nil]
  | cons n ns ih =>
      obtain ⟨r, c₁, src₁, rs', hread, heach, rfl⟩ := readEach_cons hr
      rw [portions, List.flatMap_cons, ← List.append_assoc]
      exact ih (hf.afterRead hread) heach

theorem readEach_gives (hr : readEach ns c src = (rs, d, src')) :
    ∃ bs, Segment.Gives (c.segment, src) bs (d.segment, src') := by
  induction ns generalizing c src rs with
  | nil =>
      simp only [readEach, Prod.mk.injEq] at hr
      obtain ⟨-, rfl, rfl⟩ := hr
      exact ⟨[], .refl _⟩
  | cons n ns ih =>
      obtain ⟨r, c₁, src₁, rs', hread, heach, -⟩ := readEach_cons hr
      obtain ⟨bs, hbs⟩ := (read_uses hread).gives
      obtain ⟨cs, hcs⟩ := ih heach
      exact ⟨bs ++ cs, hbs.trans hcs⟩

/-- Every read answers, unless the source holds its reader up. -/
theorem waiting_not_mem (hclear : Segment.IsClear (c.segment, src)) (hr : readEach ns c src = (rs, d, src')) :
    .waiting ∉ rs := by
  induction ns generalizing c src rs with
  | nil =>
      simp only [readEach, Prod.mk.injEq] at hr
      obtain ⟨rfl, -⟩ := hr
      exact List.not_mem_nil
  | cons n ns ih =>
      obtain ⟨r, c₁, src₁, rs', hread, heach, rfl⟩ := readEach_cons hr
      obtain ⟨⟨bs, hbs⟩, hanswers⟩ := read_uses hread
      exact List.not_mem_cons_of_ne_of_not_mem (hanswers hclear).symm (ih (hbs.clear hclear) heach)

/-- Over a segment that is filled, a read that is not refused fails only by a fault of the payload. -/
theorem Follows.faults (hf : Follows h body got c src) (hfilled : Segment.IsFilled (c.segment, src))
    (hr : readEach ns c src = (rs, d, src')) {e : LinkError} (he : .error e ∈ rs) (hover : e.isOverread = false) :
    h.isCompressed = true ∧ Fault h body e ∧ ∃ cause, e = .ofPayloadError cause := by
  induction ns generalizing got c src rs with
  | nil =>
      simp only [readEach, Prod.mk.injEq] at hr
      obtain ⟨rfl, -⟩ := hr
      cases he
  | cons n ns ih =>
      obtain ⟨r, c₁, src₁, rs', hread, heach, rfl⟩ := readEach_cons hr
      obtain ⟨bs, hbs⟩ := (read_uses hread).gives
      rcases List.mem_cons.1 he with rfl | hmem
      · cases hf.reading hread with
        | refused _ => cases hover
        | failed _ hfault _ =>
            obtain ⟨hcompressed, hfault⟩ := hfault hfilled
            exact ⟨hcompressed, hfault, _, rfl⟩
      · exact ih (hf.afterRead hread) (hbs.filled hfilled) heach hmem

/-- What is known of a cursor over a payload whose bytes are `body`, when its reads have given out `got`: how much
remains, and how each further read comes out. Just those reads are refused as overreads that ask for more than
remains, and one that gives out bytes gives out some if any were asked for. -/
structure Accounted (h : Header) (body got : Bytes) (c : Cursor) (src : Source) : Prop where
  isPrefix : got <+: contents h body
  remaining : got.length + c.remaining = h.payloadLength
  refused : ∀ n, c.remaining < n → c.read src n = (.error (.overread n c.remaining), c, src)
  accepted : ∀ n, n ≤ c.remaining → ∀ e, (c.read src n).1 = .error e → e.isOverread = false
  progress : ∀ n bs, (c.read src n).1 = .ok bs → bs.length ≤ n ∧ (0 < n → bs ≠ [])

theorem Follows.accounted (hf : Follows h body got c src) : Accounted h body got c src where
  isPrefix := hf.isPrefix
  remaining := hf.remaining
  refused n hlt := read_of_lt hlt
  accepted n hle e he := by
    rcases hread : c.read src n with ⟨r, d, src'⟩
    rw [hread] at he
    obtain rfl : r = .error e := he
    cases hf.reading hread with
    | refused hlt => exact absurd hle (Nat.not_le_of_lt hlt)
    | failed _ _ _ => exact isOverread_ofPayloadError _
  progress n bs hbs := by
    rcases hread : c.read src n with ⟨r, d, src'⟩
    rw [hread] at hbs
    obtain rfl : r = .ok bs := hbs
    cases hf.reading hread with
    | bytes hne _ hlength _ => exact ⟨hlength, hne⟩

end

/-- All bytes of the declared length are the first ones of what is there, so they do not depend on how they were asked
for. -/
theorem Accounted.eq_take {h : Header} {body got : Bytes} {c : Cursor} {src : Source}
    (ha : Accounted h body got c src) (hend : c.remaining = 0) : got = (contents h body).take h.payloadLength := by
  have hlength := ha.remaining
  rw [hend, Nat.add_zero] at hlength
  rw [← hlength]
  exact List.prefix_iff_eq_take.1 ha.isPrefix

section

variable {h : Header} {c c' : Cursor} {src src' s s' : Source} {ns ns' : List Nat}
  {rs rs' : List (Attempt LinkError Bytes)}

/-- Reads of whatever sizes, from whatever source, are accounted for to the byte, also after reads that have failed; and
when nothing remains, the bytes given out are the same as by any other reads from a source with the same bytes. -/
theorem readEach_accounted (hr : (ofHeader h).readEach ns src = (rs, c, s))
    (hr' : (ofHeader h).readEach ns' src' = (rs', c', s'))
    (hsame : src'.data.take (extendWord h.packetLength) = src.data.take (extendWord h.packetLength)) :
    Accounted h (src.data.take (extendWord h.packetLength)) (portions rs) c s ∧ (src.IsPrompt → .waiting ∉ rs) ∧
      (c.remaining = 0 → c'.remaining = 0 → portions rs' = portions rs) := by
  have hf := (follows_ofHeader h src).afterReads hr
  have hf' := (follows_ofHeader h src').afterReads hr'
  rw [List.nil_append] at hf hf'
  refine ⟨hf.accounted, fun hprompt => waiting_not_mem (.inr hprompt) hr, fun hend hend' => ?_⟩
  rw [hf.accounted.eq_take hend, hf'.accounted.eq_take hend', hsame]

end

/-- A compressed payload, once in pieces with failures between them and in portions, once at a stroke. -/
theorem readEach_accounted_in_pieces :
    let h : Header := ⟨1, 10, 5⟩
    let src : Source :=
      { items := [.data [1, 5, 0], .failure ⟨.timedOut, "late"⟩, .data [250, 255, 0x68, 0x65],
          .failure ⟨.interrupted, "again"⟩, .data [0x6c, 0x6c, 0x6f, 9, 9]] }
    let src' := Source.ofBytes [1, 5, 0, 250, 255, 0x68, 0x65, 0x6c, 0x6c, 0x6f]
    ((ofHeader h).readEach [6, 2, 2, 0, 3] src).1 =
        [.error (.overread 6 5), .error (.stream ⟨.timedOut, "late"⟩), .ok [0x68, 0x65], .ok [],
          .ok [0x6c, 0x6c, 0x6f]] ∧
      portions ((ofHeader h).readEach [5] src').1 = portions ((ofHeader h).readEach [6, 2, 2, 0, 3] src).1 := by
  intro h src src'
  have hrun : ∀ ns src, (ofHeader h).readEach ns src =
      (((ofHeader h).readEach ns src).1, ((ofHeader h).readEach ns src).2.1, ((ofHeader h).readEach ns src).2.2) :=
    fun _ _ => rfl
  obtain ⟨-, -, hall⟩ := readEach_accounted (hrun [6, 2, 2, 0, 3] src) (hrun [5] src') (by decide)
  exact ⟨by decide +kernel, hall (by decide +kernel) (by decide +kernel)⟩

end FrameLink.Cursor
