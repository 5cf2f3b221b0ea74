import FrameLink.Packet
import FrameLink.Proofs.HeaderReading
import FrameLink.Proofs.Payload

/-! The grammar of packets on the wire, and that taking a packet off a source accepts exactly it. A packet is the
twelve bytes of a header whose lengths are neither negative nor above the limit, and behind it as many bytes as
the header announces: the payload itself, or a deflate stream of the declared length, which other bytes may
follow up to the end of the packet. -/

namespace FrameLink

/-! Packets as they stand on the wire, whatever their payloads are worth: a header that passes, and as many bytes
as it announces. Reading a header where such packets stand opens the first of them. -/

/-- A header and the bytes under it. -/
structure Parcel where
  header : Header
  body : Bytes

namespace Parcel

/-- The bytes of a parcel on the wire. -/
def wire (p : Parcel) : Bytes :=
  p.header.encode ++ p.body

theorem wire_ne_nil (p : Parcel) : p.wire ≠ [] := by
  intro h
  have hlength := congrArg List.length (List.append_eq_nil_iff.1 h).1
  rw [Header.encode_length] at hlength
  cases hlength

/-- The bytes of parcels, one after the other. -/
def wires (ps : List Parcel) : Bytes :=
  ps.flatMap wire

/-- The header passes, and the body is as long as it says. -/
structure IsSound (limit : Option Nat) (p : Parcel) : Prop where
  valid : p.header.IsValid limit
  length : p.body.length = extendWord p.header.packetLength

/-- The payload that a parcel stands for, unless header and body do not fit together. -/
def payload? (p : Parcel) : Option Bytes :=
  Frame.payload? p.header p.body

end Parcel

end FrameLink

namespace FrameLink

open Deflate

theorem extendWord_eq_toNat {i : Int32} (h : 0 ≤ i.toInt) : extendWord i = i.toInt.toNat := by
  have hextend := extendWord_of_nonneg h
  omega

namespace Packet

/-- The bytes `body` stand for `payload` under the header `h`: they are the payload if no inflated length is
declared, and else they begin with a whole deflate stream that inflates to the payload, of the length
declared. -/
def StandsFor (h : Header) (body payload : Bytes) : Prop :=
  h.uncompressedLength.toInt = 0 ∧ payload = body ∨
    0 < h.uncompressedLength.toInt ∧ inflate? body = some payload ∧
      payload.length = h.uncompressedLength.toInt

/-- The string of bytes `wire` begins with a packet of the header `h` and the payload `payload`. -/
structure Begins (limit : Option Nat) (wire : Bytes) (h : Header) (payload : Bytes) : Prop where
  header : wire.take Header.size = h.encode
  valid : h.IsValid limit
  length_le : Header.size + h.packetLength.toInt.toNat ≤ wire.length
  payload : StandsFor h ((wire.drop Header.size).take h.packetLength.toInt.toNat) payload

theorem payload?_eq_some_iff {limit : Option Nat} {h : Header} (hvalid : h.IsValid limit) {body payload : Bytes} :
    Frame.payload? h body = some payload ↔ StandsFor h body payload := by
  have hnonneg := hvalid.uncompressedLength
  rw [Frame.payload?_eq_some_iff, StandsFor]
  constructor
  · rintro ⟨-, -, ⟨hraw, rfl⟩ | ⟨hcompressed, hinflate, hlength⟩⟩
    · rw [Bool.eq_false_iff, Ne, Header.isCompressed_iff] at hraw
      exact .inl ⟨by omega, rfl⟩
    · refine .inr ⟨Header.isCompressed_iff.1 hcompressed, hinflate, ?_⟩
      rw [hlength, Header.payloadLength, if_pos hcompressed, extendWord_of_nonneg hnonneg]
  · rintro (⟨hzero, rfl⟩ | ⟨hpos, hinflate, hlength⟩)
    · refine ⟨hvalid.packetLength, hnonneg, .inl ⟨?_, rfl⟩⟩
      rw [Bool.eq_false_iff, Ne, Header.isCompressed_iff]
      omega
    · have hcompressed := Header.isCompressed_iff.2 hpos
      refine ⟨hvalid.packetLength, hnonneg, .inr ⟨hcompressed, hinflate, ?_⟩⟩
      rw [Header.payloadLength, if_pos hcompressed, extendWord_eq_toNat hnonneg]
      omega

section

variable {h : Header} {body : Bytes}

theorem pieceSize_pos : 0 < pieceSize := by decide

/-- Collecting a payload whose bytes are all there reads it to its end, or finds that it does not fit its
header. -/
theorem collect_outcome {reads : Nat} {got got' : Array UInt8} {c d : Cursor} {src src' : Source}
    {r : Attempt LinkError Unit} (hs : Cursor.Stands h body got.toList c src) (hreads : c.remaining < reads)
    (hr : collect reads got c src = (r, got', d, src')) :
    r = .ok () ∧ d.remaining = 0 ∧ Cursor.Stands h body got'.toList d src' ∨
      (∃ e, r = .error e) ∧ ∀ payload, Frame.payload? h body ≠ some payload := by
  induction reads generalizing got c src with
  | zero => omega
  | succ reads ih =>
      by_cases hend : c.remaining = 0
      · simp only [collect, if_pos hend, Prod.mk.injEq] at hr
        obtain ⟨rfl, rfl, rfl, rfl⟩ := hr
        exact .inl ⟨rfl, hend, hs⟩
      · have hpiece := pieceSize_pos
        rcases hread : c.read src (min c.remaining pieceSize) with ⟨q, c₁, src₁⟩
        have hremaining := hs.remaining
        cases Cursor.read_outcome hread hs with
        | bytes hne hn hlength hstands =>
            rename_i bs
            simp only [collect, if_neg hend, hread] at hr
            have hpos := List.length_pos_iff.2 (hne (by omega))
            have hremaining₁ := hstands.remaining
            rw [List.length_append] at hremaining₁
            exact ih (by rwa [Array.toList_appendList]) (by omega) hr
        | refused hn => omega
        | failed hn he hbad =>
            simp only [collect, if_neg hend, hread, Prod.mk.injEq] at hr
            obtain ⟨rfl, -⟩ := hr
            exact .inr ⟨⟨_, rfl⟩, hbad⟩

theorem collect_uses {reads : Nat} {got got' : Array UInt8} {c d : Cursor} {src src' : Source}
    {r : Attempt LinkError Unit} (hr : collect reads got c src = (r, got', d, src')) :
    Cursor.Uses (c.segment, src) r (d.segment, src') := by
  induction reads generalizing got c src with
  | zero =>
      simp only [collect, Prod.mk.injEq] at hr
      obtain ⟨rfl, -, rfl, rfl⟩ := hr
      exact ⟨⟨[], .refl _⟩, fun _ => nofun⟩
  | succ reads ih =>
      by_cases hend : c.remaining = 0
      · simp only [collect, if_pos hend, Prod.mk.injEq] at hr
        obtain ⟨rfl, -, rfl, rfl⟩ := hr
        exact ⟨⟨[], .refl _⟩, fun _ => nofun⟩
      · rcases hread : c.read src (min c.remaining pieceSize) with ⟨q, c₁, src₁⟩
        obtain ⟨⟨bs, hbs⟩, hclear⟩ := Cursor.read_uses hread
        cases q with
        | ok cs =>
            simp only [collect, if_neg hend, hread] at hr
            exact (ih hr).prepend hbs
        | error e =>
            simp only [collect, if_neg hend, hread, Prod.mk.injEq] at hr
            obtain ⟨rfl, -, rfl, rfl⟩ := hr
            exact ⟨⟨bs, hbs⟩, fun _ => nofun⟩
        | waiting =>
            simp only [collect, if_neg hend, hread, Prod.mk.injEq] at hr
            obtain ⟨rfl, -, rfl, rfl⟩ := hr
            exact ⟨⟨bs, hbs⟩, fun hc => absurd rfl (hclear hc)⟩

end

theorem receivePayload_gives (h : Header) (src : Source) : ∃ bs, src.Gives bs (receivePayload h src).2 := by
  rcases hcollect : collect (h.payloadLength + 1) #[] (Cursor.ofHeader h) src with ⟨q, got, c, src₁⟩
  obtain ⟨bs, hbs⟩ := (collect_uses hcollect).gives
  cases q with
  | ok _ =>
      rcases hclose : c.close.run src₁ with ⟨r, d, src₂⟩
      obtain ⟨cs, hcs⟩ := (Cursor.Closing.run_outcome hclose).uses.gives
      simp only [receivePayload, hcollect, Cursor.finish, hclose]
      rw [Cursor.close_segment] at hcs
      exact ⟨bs ++ cs, hbs.source.trans hcs.source⟩
  | error e =>
      simp only [receivePayload, hcollect]
      exact ⟨bs, hbs.source⟩
  | waiting =>
      simp only [receivePayload, hcollect]
      exact ⟨bs, hbs.source⟩

theorem eq_ok_of_receivePayload_eq_ok {h : Header} (h' : Header) (payload : Bytes) {got : Array UInt8} {c : Cursor}
    {src src₁ src₂ : Source} {q r : Attempt LinkError Unit}
    (hcollect : collect (h.payloadLength + 1) #[] (Cursor.ofHeader h) src = (q, got, c, src₁))
    (hfinish : c.finish src₁ = (r, src₂)) (hok : (receivePayload h src).1 = .ok (h', payload)) :
    q = .ok () ∧ r = .ok () ∧ h' = h ∧ got.toList = payload ∧ (receivePayload h src).2 = src₂ := by
  cases q with
  | error e => simp only [receivePayload, hcollect, reduceCtorEq] at hok
  | waiting => simp only [receivePayload, hcollect, reduceCtorEq] at hok
  | ok _ =>
      simp only [receivePayload, hcollect, hfinish] at hok ⊢
      cases r with
      | error e => cases hok
      | waiting => cases hok
      | ok _ =>
          simp only [Attempt.map, Attempt.ok.injEq, Prod.mk.injEq] at hok
          exact ⟨trivial, rfl, hok.1.symm, hok.2, trivial⟩

/-- A payload is taken off a source exactly if all its bytes are there and fit its header. Then the source stands
at what follows. -/
theorem receivePayload_eq_ok_iff {limit : Option Nat} {h : Header} {src : Source} (h' : Header) (payload : Bytes)
    (hvalid : h.IsValid limit) (hsmooth : src.IsSmooth) :
    ((receivePayload h src).1 = .ok (h', payload) ↔
      h' = h ∧ extendWord h.packetLength ≤ src.data.length ∧
        StandsFor h (src.data.take (extendWord h.packetLength)) payload) ∧
    ((receivePayload h src).1 = .ok (h', payload) →
      (receivePayload h src).2.data = src.data.drop (extendWord h.packetLength)) := by
  rcases hcollect : collect (h.payloadLength + 1) #[] (Cursor.ofHeader h) src with ⟨q, got, c, src₁⟩
  rcases hclose : c.close.run src₁ with ⟨r, d, src₂⟩
  have hfinish : c.finish src₁ = (r, src₂) := by simp only [Cursor.finish, hclose]
  obtain ⟨bs, hgives⟩ := (collect_uses hcollect).gives
  rw [Cursor.ofHeader_segment] at hgives
  have hrun := Cursor.Closing.run_outcome hclose
  rw [Cursor.close_segment] at hrun
  have hreceive := eq_ok_of_receivePayload_eq_ok h' payload hcollect hfinish
  by_cases hlength : extendWord h.packetLength ≤ src.data.length
  · have hstands := Cursor.stands_ofHeader (h := h) hsmooth hlength
    have hremaining := hstands.remaining
    rw [List.length_nil, Nat.zero_add] at hremaining
    have houtcome := collect_outcome (show Cursor.Stands h _ (#[] : Array UInt8).toList _ _ from hstands) (by omega)
      hcollect
    refine ⟨⟨fun hok => ?_, fun hk => ?_⟩, fun hok => ?_⟩
    · obtain ⟨rfl, rfl, rfl, rfl, -⟩ := hreceive hok
      obtain ⟨-, hend, hstands'⟩ := houtcome.resolve_right fun k => by
        obtain ⟨⟨e, he⟩, -⟩ := k
        cases he
      refine ⟨rfl, hlength, (payload?_eq_some_iff hvalid).1 ?_⟩
      exact Cursor.payload?_of_run_eq_ok hstands' hvalid.packetLength hvalid.uncompressedLength hend hclose
    · obtain ⟨rfl, -, hpayload⟩ := hk
      have hp := (payload?_eq_some_iff hvalid).2 hpayload
      obtain ⟨rfl, hend, hstands'⟩ := houtcome.resolve_right fun k => k.2 payload hp
      obtain rfl := Cursor.run_eq_ok hstands' hp hclose
      have hgot := Cursor.payload?_of_run_eq_ok hstands' hvalid.packetLength hvalid.uncompressedLength
        hend hclose
      rw [hp, Option.some.injEq] at hgot
      simp only [receivePayload, hcollect, hfinish, Attempt.map, hgot]
    · obtain ⟨rfl, rfl, rfl, rfl, heq⟩ := hreceive hok
      obtain ⟨cs, hcs⟩ := hrun.uses.gives
      rw [heq]
      exact (hgives.trans hcs).data_of_left_eq_zero (hrun.drained rfl)
  · -- The segment is not whole, and so it cannot be drained.
    have hnot : (receivePayload h src).1 ≠ .ok (h', payload) := by
      intro hok
      obtain ⟨-, rfl, -⟩ := hreceive hok
      obtain ⟨cs, hcs⟩ := hrun.uses.gives
      have hle := (hgives.trans hcs).left_le_iff.1 (by rw [hrun.drained rfl]; exact Nat.zero_le _)
      exact hlength hle
    exact ⟨⟨fun hok => absurd hok hnot, fun hk => absurd hk.2.1 hlength⟩, fun hok => absurd hok hnot⟩

theorem receive_gives (limit : Option Nat) (src : Source) : ∃ bs, src.Gives bs (receive limit src).2 := by
  rcases hheader : Header.receive limit [] src with ⟨q, got, src₁⟩
  obtain ⟨bs, hbs⟩ := Header.receive_gives hheader (Nat.zero_le _)
  cases q with
  | ok h =>
      obtain ⟨cs, hcs⟩ := receivePayload_gives h src₁
      simp only [receive, hheader]
      exact ⟨bs ++ cs, hbs.trans hcs⟩
  | error e =>
      simp only [receive, hheader]
      exact ⟨bs, hbs⟩
  | waiting =>
      simp only [receive, hheader]
      exact ⟨bs, hbs⟩

theorem receivePayload_ne_waiting (h : Header) {src : Source} (hprompt : src.IsPrompt) :
    (receivePayload h src).1 ≠ .waiting := by
  rcases hcollect : collect (h.payloadLength + 1) #[] (Cursor.ofHeader h) src with ⟨q, got, c, src₁⟩
  obtain ⟨⟨bs, hbs⟩, hclear⟩ := collect_uses hcollect
  cases q with
  | ok _ =>
      rcases hclose : c.close.run src₁ with ⟨r, d, src₂⟩
      have hanswer := (Cursor.Closing.run_outcome hclose).uses.clear (.inr (hbs.source.prompt hprompt))
      simp only [receivePayload, hcollect, Cursor.finish, hclose]
      cases r with
      | ok _ => nofun
      | error e => nofun
      | waiting => exact absurd rfl hanswer
  | error e =>
      simp only [receivePayload, hcollect]
      nofun
  | waiting => exact absurd rfl (hclear (.inr hprompt))

/-- A source that never keeps its reader waiting has an answer for who takes a packet off it. -/
theorem receive_ne_waiting (limit : Option Nat) {src : Source} (hprompt : src.IsPrompt) :
    (receive limit src).1 ≠ .waiting := by
  rcases hheader : Header.receive limit [] src with ⟨q, got, src₁⟩
  obtain ⟨bs, hbs⟩ := Header.receive_gives hheader (Nat.zero_le _)
  cases q with
  | ok h =>
      simp only [receive, hheader]
      exact receivePayload_ne_waiting h (hbs.prompt hprompt)
  | error e =>
      simp only [receive, hheader]
      nofun
  | waiting =>
      cases Header.receive_outcome hheader (Nat.zero_le _) with
      | waits _ _ _ hnot => exact absurd hprompt hnot

section

variable {limit : Option Nat} {src : Source} {h : Header} {payload : Bytes}

/-- The twelve bytes of a header that passes, as seen from the source that they are read from. -/
theorem header_of_gives {bs : Bytes} {t : Source} (hlength : bs.length = Header.size) (hgives : src.Gives bs t) :
    src.data.take Header.size = bs ∧ src.data.drop Header.size = t.data := by
  rw [hgives.data]
  exact ⟨List.take_left' hlength, List.drop_left' hlength⟩

/-- What is taken off a source as a packet is one, and just this packet is gone. -/
theorem begins_of_receive_eq_ok (hsmooth : src.IsSmooth) (hok : (receive limit src).1 = .ok (h, payload)) :
    Begins limit src.data h payload ∧
      (receive limit src).2.data = src.data.drop (Header.size + h.packetLength.toInt.toNat) := by
  rcases hheader : Header.receive limit [] src with ⟨q, got, src₁⟩
  cases q with
  | error e => simp only [receive, hheader, reduceCtorEq] at hok
  | waiting => simp only [receive, hheader, reduceCtorEq] at hok
  | ok h₀ =>
      have hreceive : receive limit src = receivePayload h₀ src₁ := by simp only [receive, hheader]
      rw [hreceive] at hok ⊢
      cases Header.receive_outcome hheader (Nat.zero_le _) with
      | passed hlength hgives hvalid =>
          rename_i bs
          simp only [List.nil_append] at hlength hvalid hok ⊢
          obtain ⟨htake, hdrop⟩ := header_of_gives hlength hgives
          obtain ⟨hiff, hrest⟩ :=
            receivePayload_eq_ok_iff h payload hvalid (hgives.smooth hsmooth)
          have hdata := hrest hok
          obtain ⟨rfl, hle, hpayload⟩ := hiff.1 hok
          have htotal := hgives.length
          rw [extendWord_eq_toNat hvalid.packetLength, ← hdrop] at hle hpayload hdata
          rw [List.length_drop] at hle
          refine ⟨⟨?_, hvalid, ?_, hpayload⟩, by rw [hdata, List.drop_drop]⟩
          · rw [htake, Header.encode_decode (Nat.le_of_eq hlength.symm), ← hlength, List.take_length]
          · omega

theorem receive_of_begins (hsmooth : src.IsSmooth) (hbegins : Begins limit src.data h payload) :
    (receive limit src).1 = .ok (h, payload) := by
  have hdata : src.data = h.encode ++ src.data.drop Header.size := by
    rw [← hbegins.header, List.take_append_drop]
  rcases hheader : Header.receive limit [] src with ⟨q, got, src₁⟩
  obtain ⟨rfl, hgives⟩ := Header.receive_encode hheader hsmooth hbegins.valid hdata
  obtain ⟨-, hdrop⟩ := header_of_gives (Header.encode_length h) hgives
  have hle := hbegins.length_le
  have hpayload := hbegins.payload
  rw [hdrop] at hpayload
  have htotal := hgives.length
  rw [Header.encode_length] at htotal
  simp only [receive, hheader]
  refine (receivePayload_eq_ok_iff h payload hbegins.valid (hgives.smooth hsmooth)).1.2 ?_
  rw [extendWord_eq_toNat hbegins.valid.packetLength]
  exact ⟨rfl, by omega, hpayload⟩

end

end Packet

end FrameLink
