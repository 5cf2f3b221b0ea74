import FrameLink.Proofs.Cursors
import Mathlib.Data.List.Infix

/-! A payload that arrives while it is read. A cursor stands in its packet with respect to all bytes that the source
has come to hold since the payload began; what arrives behind them makes more of the payload known and leaves the cursor
where it stands. -/

namespace FrameLink

namespace Deflate

theorem decoded_append (body more : Bytes) : decoded (body ++ more) = (decoded body).feedAll (bitsOfAll more) := by
  rw [decoded, bitsOfAll_append, Decoder.feedAll_append, decoded]

end Deflate

open Deflate

/-- What the source holds of the segment does not matter to the bits that an inflating reader has taken off it. -/
theorem Inflater.Stands.of_source {f : Inflater} {seg : Segment} {src : Source} {taken : Bytes}
    (hs : f.Stands (taken ++ src.data.take seg.left) (seg, src)) (src' : Source) :
    f.Stands (taken ++ src'.data.take seg.left) (seg, src') := by
  obtain ⟨fed, hbits, hdecoder⟩ := hs.fed
  have htaken : bitsOfAll taken ++ bitsOfAll (src.data.take seg.left) =
      (fed ++ (f.spare ++ bitsOfAll f.input)) ++ bitsOfAll (src.data.take seg.left) := by
    simpa only [bitsOfAll_append, List.append_assoc] using hbits
  refine ⟨⟨fed, ?_, hdecoder⟩, hs.given_le, hs.ready_le, fun hexhausted => ?_⟩
  · rw [bitsOfAll_append, List.append_cancel_right htaken]
    simp only [List.append_assoc]
  · obtain ⟨hstopped, hinput, hnone⟩ := hs.exhausted hexhausted
    have hzero : seg.left = 0 := hnone
    rw [hzero, List.take_zero] at hstopped ⊢
    exact ⟨hstopped, hinput, rfl⟩

namespace Cursor

section

variable {h : Header} {got more taken : Bytes} {c : Cursor} {src src' : Source} {n : Nat}

/-- What arrives behind the bytes of a source does not disturb a cursor: it may belong to the rest of the payload, or
come behind that. -/
theorem Follows.extend (hf : Follows h (taken ++ src.data.take n) got c src) (hn : c.segment.left = n)
    (hdata : src'.data = src.data ++ more) : Follows h (taken ++ src'.data.take n) got c src' := by
  have hprefix : src.data <+: src'.data := hdata ▸ List.prefix_append _ _
  obtain ⟨extra, hextra⟩ := hprefix.take n
  cases hf with
  | raw hraw hleft hbody =>
      obtain rfl := hn
      rw [List.append_cancel_right hbody]
      exact .raw hraw hleft rfl
  | @deflated w f seg _ hcompressed hstands hopen hleft hgot =>
      obtain rfl : seg.left = n := hn
      have hstands' := hstands.of_source src'
      refine .deflated hcompressed hstands' hopen hleft ?_
      have hle : f.given ≤ f.decoder.out.toList.length :=
        Array.length_toList ▸ Nat.le_trans hstands.given_le hstands.ready_le
      obtain ⟨rest, hrest⟩ := hstands.out_prefix
      obtain ⟨rest', hrest'⟩ := hstands'.out_prefix
      rw [hgot, ← hrest, ← hrest', List.take_append_of_le_length hle, List.take_append_of_le_length hle]
  | corrupt hcompressed hphase hcorrupt hopen hleft hgot =>
      have hsame : decoded (taken ++ src'.data.take n) = decoded (taken ++ src.data.take n) := by
        rw [← hextra, ← List.append_assoc, decoded_append]
        exact Decoder.feedAll_of_hasStopped (Inflater.hasStopped_iff.2 (.inr hcorrupt)) _
      exact .corrupt hcompressed hphase (hsame ▸ hcorrupt) hopen hleft (hsame ▸ hgot)

end

end Cursor

namespace Segment

/-- The source holds the last of the bytes `whole`, of whose first `length` bytes the segment has so many left. -/
def Amid (whole : Bytes) (length : Nat) (a : Segment × Source) : Prop :=
  ∃ taken, whole = taken ++ a.2.data ∧ taken.length + a.1.left = length

section

variable {whole bs : Bytes} {length : Nat} {a b : Segment × Source}

theorem Amid.gives (h : Amid whole length a) (hgives : Gives a bs b) : Amid whole length b := by
  obtain ⟨taken, hwhole, hlength⟩ := h
  have hleft := hgives.left
  refine ⟨taken ++ bs, by rw [hwhole, hgives.source.data, List.append_assoc], ?_⟩
  rw [List.length_append]
  omega

theorem Amid.data_eq_drop (h : Amid whole length a) : ∃ k ≤ length, a.2.data = whole.drop k := by
  obtain ⟨taken, hwhole, hlength⟩ := h
  exact ⟨taken.length, hlength ▸ Nat.le_add_right _ _, by rw [hwhole, List.drop_left]⟩

/-- When all of the segment has been taken, the source stands at the first byte behind it. -/
theorem Amid.data_of_left_eq_zero (h : Amid whole length a) (hleft : a.1.left = 0) : a.2.data = whole.drop length := by
  obtain ⟨taken, hwhole, hlength⟩ := h
  rw [hleft, Nat.add_zero] at hlength
  rw [hwhole, ← hlength, List.drop_left]

end

end Segment

namespace Cursor

/-- The payload of a packet with this header, where `whole` are the bytes behind the header. -/
def payload (h : Header) (whole : Bytes) : Bytes :=
  (contents h (whole.take (extendWord h.packetLength))).take h.payloadLength

/-- The cursor has given out `got` of the packet whose payload begins where the bytes `whole` do, and has taken none of
those behind the packet. -/
structure StandsIn (h : Header) (whole got : Bytes) (c : Cursor) (src : Source) : Prop where
  follows : Follows h (whole.take (extendWord h.packetLength)) got c src
  amid : Segment.Amid whole (extendWord h.packetLength) (c.segment, src)

section

variable {h : Header} {whole got : Bytes} {c d : Cursor} {src src' : Source}

theorem standsIn_ofHeader (h : Header) (src : Source) : StandsIn h src.data [] (ofHeader h) src :=
  ⟨follows_ofHeader h src, [], rfl, by rw [ofHeader_segment, List.length_nil, Nat.zero_add]⟩

theorem StandsIn.extend {more : Bytes} (hs : StandsIn h whole got c src) (hdata : src'.data = src.data ++ more) :
    StandsIn h (whole ++ more) got c src' := by
  obtain ⟨hfollows, taken, hwhole, hlength⟩ := hs
  have htake : ∀ bs : Bytes, (taken ++ bs).take (extendWord h.packetLength) = taken ++ bs.take c.segment.left := by
    intro bs
    rw [← hlength, List.take_length_add_append]
  have hwhole' : whole ++ more = taken ++ src'.data := by rw [hwhole, hdata, List.append_assoc]
  rw [hwhole, htake] at hfollows
  refine ⟨?_, taken, hwhole', hlength⟩
  rw [hwhole', htake]
  exact hfollows.extend rfl hdata

theorem StandsIn.prefix_payload (hs : StandsIn h whole got c src) : got <+: payload h whole :=
  List.prefix_take_iff.2 ⟨hs.follows.isPrefix, hs.follows.remaining ▸ Nat.le_add_right _ _⟩

/-- When nothing remains, all of the payload has been given out. -/
theorem StandsIn.eq_payload (hs : StandsIn h whole got c src) (hend : got.length = h.payloadLength) :
    got = payload h whole := by
  refine hs.prefix_payload.eq_of_length_le ?_
  rw [hend]
  exact List.length_take_le _ _

end

end Cursor

end FrameLink
