import FrameLink.Frame
import FrameLink.Proofs.Cursors
import FrameLink.Proofs.HeaderReading

/-! What a cursor reads from a payload whose bytes are all there. The bytes given out are the beginning of what
the bytes under the header stand for, in whatever portions they are asked for; the closing of a cursor that has
been read to its end succeeds only if they are all of it. If header and bytes fit together, nothing but a request
for more than remains ever fails. -/

namespace FrameLink

open Deflate

namespace Frame

/-- What a header and the bytes under it stand for, case by case. -/
theorem payload?_eq_some_iff {h : Header} {body payload : Bytes} :
    payload? h body = some payload ↔
      0 ≤ h.packetLength.toInt ∧ 0 ≤ h.uncompressedLength.toInt ∧
        (h.isCompressed = false ∧ body = payload ∨
          h.isCompressed = true ∧ inflate? body = some payload ∧ payload.length = h.payloadLength) := by
  have hneg : ∀ i : Int32, i < 0 ↔ ¬ 0 ≤ i.toInt := by
    intro i
    rw [Int32.lt_iff_toInt_lt, Int32.toInt_zero, Int.not_le]
  unfold payload?
  by_cases hnegative : h.packetLength < 0 ∨ h.uncompressedLength < 0
  · rw [if_pos hnegative]
    rw [hneg, hneg] at hnegative
    exact ⟨fun k => (nomatch k), fun k => (hnegative.elim (· k.1) (· k.2.1)).elim⟩
  · rw [if_neg hnegative]
    rw [hneg, hneg, not_or, Decidable.not_not, Decidable.not_not] at hnegative
    cases hc : h.isCompressed with
    | true => simp [hnegative, Option.filter_eq_some_iff]
    | false => simp [hnegative]

end Frame

namespace Cursor

/-- The cursor stands in the payload that `body` stands for under the header `h` and has given out `got` of it.
All bytes of `body` that have not been taken are in the source. -/
structure Stands (h : Header) (body got : Bytes) (c : Cursor) (src : Source) : Prop where
  follows : Follows h body got c src
  whole : Segment.IsWhole (c.segment, src)

section

variable {h : Header} {body got : Bytes} {c : Cursor} {src src' : Source}

theorem stands_ofHeader (hsmooth : src.IsSmooth) (hlength : extendWord h.packetLength ≤ src.data.length) :
    Stands h (src.data.take (extendWord h.packetLength)) [] (ofHeader h) src where
  follows := follows_ofHeader h src
  whole := by
    rw [ofHeader_segment]
    exact ⟨hsmooth, hlength⟩

theorem Stands.remaining (hs : Stands h body got c src) : got.length + c.remaining = h.payloadLength :=
  hs.follows.remaining

/-- A payload with a fault is none. -/
theorem Fault.payload?_ne_some {e : LinkError} (hfault : Fault h body e) (hcompressed : h.isCompressed = true)
    (payload : Bytes) : Frame.payload? h body ≠ some payload := by
  intro hp
  obtain ⟨-, -, hcase⟩ := Frame.payload?_eq_some_iff.1 hp
  rcases hcase with ⟨hraw, -⟩ | ⟨-, hinflate, hlength⟩
  · rw [hcompressed] at hraw
    cases hraw
  · obtain ⟨hdone, hout⟩ := inflate?_eq_some_iff.1 hinflate
    rw [← hout, Array.length_toList] at hlength
    cases hfault with
    | corrupt hcorrupt =>
        rw [hcorrupt] at hdone
        cases hdone
    | incomplete hstopped =>
        rw [Decoder.hasStopped_of_done hdone] at hstopped
        cases hstopped
    | short w _ hsize => omega
    | long hsize => omega

/-- What one read of up to `n` bytes answers: bytes that come next, a refusal because fewer remain, or, if header
and body do not fit together, that they do not. -/
inductive ReadOutcome (h : Header) (body got : Bytes) (n : Nat) (c : Cursor) (src : Source) :
    Attempt LinkError Bytes → Cursor → Source → Prop where
  | bytes {bs : Bytes} {d : Cursor} {src' : Source} (hne : 0 < n → bs ≠ []) (hn : n ≤ c.remaining)
      (hlength : bs.length ≤ n) (hstands : Stands h body (got ++ bs) d src') :
      ReadOutcome h body got n c src (.ok bs) d src'
  | refused (hn : c.remaining < n) : ReadOutcome h body got n c src (.error (.overread n c.remaining)) c src
  | failed {e : LinkError} {d : Cursor} {src' : Source} (hn : n ≤ c.remaining) (he : e.isOverread = false)
      (hbad : ∀ payload, Frame.payload? h body ≠ some payload) :
      ReadOutcome h body got n c src (.error e) d src'

theorem read_outcome {d : Cursor} {n : Nat} {r : Attempt LinkError Bytes} (hr : c.read src n = (r, d, src'))
    (hs : Stands h body got c src) : ReadOutcome h body got n c src r d src' := by
  obtain ⟨bs, hgives⟩ := (read_uses hr).gives
  cases hs.follows.reading hr with
  | bytes hne hn hlength hfollows => exact .bytes hne hn hlength ⟨hfollows, hgives.whole hs.whole⟩
  | refused hn => exact .refused hn
  | failed hn hfault _ =>
      obtain ⟨hcompressed, hfault⟩ := hfault hs.whole.filled
      exact .failed hn (isOverread_ofPayloadError _) (hfault.payload?_ne_some hcompressed)
  | waits _ hclear _ => exact absurd hs.whole.clear hclear

section

variable {d : Closing}

/-- A cursor that has been read to its end is closed without fault only if header and body fit together and the
bytes given out are the payload. -/
theorem payload?_of_run_eq_ok (hs : Stands h body got c src) (hpacket : 0 ≤ h.packetLength.toInt)
    (huncompressed : 0 ≤ h.uncompressedLength.toInt) (hend : c.remaining = 0)
    (hr : c.close.run src = (.ok (), d, src')) : Frame.payload? h body = some got := by
  have hlength := hs.remaining
  rw [hend, Nat.add_zero] at hlength
  rw [Frame.payload?_eq_some_iff]
  refine ⟨hpacket, huncompressed, ?_⟩
  cases hcompressed : h.isCompressed with
  | true => exact .inr ⟨rfl, (hs.follows.closing hr).1 rfl hcompressed hend, hlength⟩
  | false =>
      refine .inl ⟨rfl, ?_⟩
      cases hs.follows with
      | raw hraw hleft hbody =>
          rename_i seg
          rw [hbody, show seg.left = 0 from hend, List.take_zero, List.append_nil]
      | deflated hdeflated _ _ _ _ =>
          rw [hcompressed] at hdeflated
          cases hdeflated
      | corrupt hdeflated _ _ _ _ _ =>
          rw [hcompressed] at hdeflated
          cases hdeflated

/-- If header and body fit together, a cursor is closed without fault however much of it has been read. -/
theorem run_eq_ok {r : Attempt LinkError Unit} {payload : Bytes} (hs : Stands h body got c src)
    (hp : Frame.payload? h body = some payload) (hr : c.close.run src = (r, d, src')) : r = .ok () := by
  have hclear := (Closing.run_outcome hr).uses.clear
  rw [close_segment] at hclear
  cases r with
  | ok u => rfl
  | error e =>
      obtain ⟨hcompressed, -, hfault⟩ := (hs.follows.closing hr).2 hs.whole.filled e rfl
      exact absurd hp (hfault.payload?_ne_some hcompressed payload)
  | waiting => exact absurd rfl (hclear hs.whole.clear)

end

theorem contents_eq_of_payload? {payload : Bytes} (hp : Frame.payload? h body = some payload) :
    contents h body = payload := by
  unfold contents
  obtain ⟨-, -, ⟨hraw, rfl⟩ | ⟨hcompressed, hinflate, -⟩⟩ := Frame.payload?_eq_some_iff.1 hp
  · rw [hraw, if_neg Bool.false_ne_true]
  · rw [if_pos hcompressed, (inflate?_eq_some_iff.1 hinflate).2]

/-- The bytes given out are the beginning of the payload, if there is one. -/
theorem Stands.isPrefix {payload : Bytes} (hs : Stands h body got c src)
    (hp : Frame.payload? h body = some payload) : got <+: payload :=
  contents_eq_of_payload? hp ▸ hs.follows.isPrefix

end

end Cursor

end FrameLink
