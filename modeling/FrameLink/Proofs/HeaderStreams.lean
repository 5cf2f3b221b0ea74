import FrameLink.Proofs.HeaderReading

/-! Headers read one after the other. A header and the twelve bytes that encode it determine each other, and every
reading takes the next twelve bytes of its source, however these are cut into pieces and however often the source is
interrupted, and whether the header passes or is refused. So each of any number of readings is about the header that
stands at its place in the source, until less than a header is left. -/

namespace FrameLink.Header

/-- So many headers read one after the other, with what each reading answers. A reading that fails ends nothing. -/
def receiveEach (limit : Option Nat) : Nat → Source → List (Attempt LinkError Header) × Source
  | 0, s => ([], s)
  | times + 1, s =>
    match receive limit [] s with
    | (r, _, t) =>
      match receiveEach limit times t with
      | (rs, u) => (r :: rs, u)

/-- The bytes of a stream at the place of the header with this number, the first one being number 0. -/
def blockAt (k : Nat) (bs : Bytes) : Bytes :=
  (bs.drop (size * k)).take size

/-- What a reading answers where the bytes `block` stand. -/
inductive Verdict (limit : Option Nat) (block : Bytes) : Attempt LinkError Header → Prop where
  | passed (hlength : block.length = size) (hvalid : (decode block).IsValid limit) :
      Verdict limit block (.ok (decode block))
  | refused {reason : String} (hlength : block.length = size) (hvalid : ¬ (decode block).IsValid limit) :
      Verdict limit block (.error (.codec reason none))
  | short (hlength : block.length < size) : Verdict limit block (.error shortError)

section

variable {limit : Option Nat} {s t : Source}

/-- One reading takes the bytes of one header, or all that is left, and its answer follows from them. -/
theorem receive_verdict {got : Bytes} {r : Attempt LinkError Header} (hsmooth : s.IsSmooth) (hended : s.live = false)
    (hr : receive limit [] s = (r, got, t)) : Verdict limit (s.data.take size) r ∧ s.Gives (s.data.take size) t := by
  have hwhole : ∀ {bs : Bytes}, bs.length = size → s.Gives bs t → s.data.take size = bs := by
    intro bs hlength hgives
    rw [hgives.data, ← hlength, List.take_left]
  cases receive_outcome hr (Nat.zero_le _) with
  | passed hlength hgives hvalid =>
      rw [List.nil_append] at hlength hvalid ⊢
      rw [hwhole hlength hgives]
      exact ⟨.passed hlength hvalid, hgives⟩
  | refused hlength hgives hvalid =>
      rw [List.nil_append] at hlength hvalid
      rw [hwhole hlength hgives]
      exact ⟨.refused hlength hvalid, hgives⟩
  | short hlength hgives hdata _ =>
      rw [List.nil_append] at hlength
      have hall := hgives.data
      rw [hdata, List.append_nil] at hall
      rw [hall, List.take_of_length_le (Nat.le_of_lt hlength)]
      exact ⟨.short hlength, hgives⟩
  | failed _ hnot => exact absurd hsmooth hnot
  | waits _ _ hwait _ =>
      rw [(hwait hsmooth).2] at hended
      cases hended

theorem receiveEach_succ {times : Nat} {r : Attempt LinkError Header} {got : Bytes}
    (hr : receive limit [] s = (r, got, t)) :
    receiveEach limit (times + 1) s = (r :: (receiveEach limit times t).1, (receiveEach limit times t).2) := by
  simp only [receiveEach, hr]

theorem blockAt_succ (k : Nat) (bs : Bytes) : blockAt (k + 1) bs = blockAt k (bs.drop size) := by
  rw [blockAt, blockAt, List.drop_drop, Nat.mul_succ, Nat.add_comm size]

/-- Any number of readings take so many times the bytes of a header, or all there are. -/
theorem receiveEach_gives (times : Nat) (hsmooth : s.IsSmooth) (hended : s.live = false) :
    s.Gives (s.data.take (size * times)) (receiveEach limit times s).2 := by
  induction times generalizing s with
  | zero =>
      rw [Nat.mul_zero, List.take_zero]
      exact .refl s
  | succ times ih =>
      rcases hr : (receive limit [] s : Attempt LinkError Header × Bytes × Source) with ⟨r, got, t⟩
      obtain ⟨-, hgives⟩ := receive_verdict hsmooth hended hr
      have hrest := ih (hgives.smooth hsmooth) (hgives.live.trans hended)
      have htake : s.data.take (size * (times + 1)) = s.data.take size ++ t.data.take (size * times) := by
        rw [Nat.mul_succ, Nat.add_comm, List.take_add, hgives.data_eq_drop]
      rw [receiveEach_succ hr, htake]
      exact hgives.trans hrest

/-- The answer of each reading follows from the bytes at its place. -/
theorem receiveEach_verdict {times k : Nat} {r : Attempt LinkError Header} (hsmooth : s.IsSmooth)
    (hended : s.live = false) (hk : (receiveEach limit times s).1[k]? = some r) :
    Verdict limit (blockAt k s.data) r := by
  induction times generalizing s k with
  | zero => cases hk
  | succ times ih =>
      rcases hr : (receive limit [] s : Attempt LinkError Header × Bytes × Source) with ⟨r₁, got, t⟩
      obtain ⟨hverdict, hgives⟩ := receive_verdict hsmooth hended hr
      rw [receiveEach_succ hr] at hk
      cases k with
      | zero =>
          rw [List.getElem?_cons_zero] at hk
          cases hk
          exact hverdict
      | succ k =>
          rw [List.getElem?_cons_succ] at hk
          rw [blockAt_succ, ← hgives.data_eq_drop]
          exact ih (hgives.smooth hsmooth) (hgives.live.trans hended) hk

theorem receiveEach_length (times : Nat) (s : Source) : (receiveEach limit times s).1.length = times := by
  induction times generalizing s with
  | zero => rfl
  | succ times ih => exact congrArg Nat.succ (ih _)

end

/-- Headers and strings of twelve bytes determine each other. Any number of readings take so many times twelve bytes from
the source, or all there are, and each answers for the twelve bytes at its place. -/
theorem received_in_blocks (limit : Option Nat) (src : Source) (hsmooth : src.IsSmooth) (hended : src.live = false)
    (times : Nat) :
    (∀ h : Header, h.encode.length = size ∧ decode h.encode = h) ∧
      (∀ bs : Bytes, bs.length = size → (decode bs).encode = bs) ∧
      src.Gives (src.data.take (size * times)) (receiveEach limit times src).2 ∧
      (receiveEach limit times src).1.length = times ∧
      ∀ k r, (receiveEach limit times src).1[k]? = some r → Verdict limit (blockAt k src.data) r := by
  refine ⟨fun h => ⟨encode_length h, ?_⟩, fun bs hbs => ?_, receiveEach_gives times hsmooth hended,
    receiveEach_length times src, fun k r => receiveEach_verdict hsmooth hended⟩
  · rw [← List.append_nil h.encode, decode_encode_append]
  · rw [encode_decode (Nat.le_of_eq hbs.symm), ← hbs, List.take_length]

/-- A header that passes, one with a negative length and five bytes more, in pieces with interruptions between them. -/
theorem received_in_blocks_past_refusal :
    let src : Source :=
      { items := [.data [0, 0, 0, 7, 0, 0, 0], .failure ⟨.interrupted, "again"⟩,
          .data [4, 0, 0, 0, 0, 0, 0, 0, 8, 255, 255, 255, 255], .failure ⟨.interrupted, "again"⟩,
          .data [0, 0, 0, 0, 9, 9, 9, 9, 9]] }
    src.IsSmooth ∧ src.live = false ∧
      (receiveEach (some 16) 3 src).1 =
        [.ok ⟨7, 4, 0⟩, .error (.codec "negative packet length -1" none), .error shortError] ∧
      Verdict (some 16) (blockAt 1 src.data) (.error (.codec "negative packet length -1" none)) ∧
      (receiveEach (some 16) 2 src).2.data = [9, 9, 9, 9, 9] ∧ (receiveEach (some 16) 3 src).2.data = [] := by
  intro src
  have hsmooth : src.IsSmooth := by decide
  have hblocks := received_in_blocks (some 16) src hsmooth rfl
  have hanswers : (receiveEach (some 16) 3 src).1 =
      [.ok ⟨7, 4, 0⟩, .error (.codec "negative packet length -1" none), .error shortError] := by decide +kernel
  have hrest : ∀ times, (receiveEach (some 16) times src).2.data = src.data.drop (size * times) :=
    fun times => (hblocks times).2.2.1.data_eq_drop
  exact ⟨hsmooth, rfl, hanswers, (hblocks 3).2.2.2.2 1 _ (by rw [hanswers]; rfl), (hrest 2).trans (by decide),
    (hrest 3).trans (by decide)⟩

end FrameLink.Header
