import FrameLink.Proofs.Deflate.RoundTrip
import FrameLink.Proofs.PacketGrammar

/-! Whole streams of packets. Packets that are encoded one after the other, all into one frame that is used again, are
taken off a source again with the payloads that went into them, and what follows them stays on the source. -/

namespace FrameLink

/-! What encoding a packet puts on the wire: a parcel that stands for the payload, whatever the frame held before,
provided that the lengths fit into the words of a header. -/

open Deflate

theorem Int32.toInt_ofNat_of_lt {n : Nat} (h : n < 2 ^ 31) : (Int32.ofNat n).toInt = n := by
  have hsize : Int32.size = 2 ^ 32 := rfl
  rw [Int32.toInt_ofNat']
  exact Int.bmod_eq_of_le (by omega) (by omega)

namespace Packet

/-- A packet to be encoded. -/
structure Job where
  sequence : Int32
  payload : Bytes
  threshold : Int32
  level : Nat

namespace Job

/-- Whether the payload is to be compressed. -/
def isCompressed (j : Job) : Bool :=
  isCompressible j.threshold j.payload.length

theorem isCompressed_iff {j : Job} :
    j.isCompressed = true ↔ 0 < j.threshold.toInt ∧ j.threshold.toInt ≤ j.payload.length := by
  rw [isCompressed, isCompressible, Bool.and_eq_true, decide_eq_true_iff, decide_eq_true_iff, Int32.lt_iff_toInt_lt,
    Int32.toInt_zero]

/-- The lengths that the header has to tell fit into its words. -/
structure Fits (j : Job) : Prop where
  payload : j.payload.length < 2 ^ 31
  deflated : j.isCompressed = true → (deflate j.level j.payload).length < 2 ^ 31

instance (j : Job) : Decidable j.Fits :=
  decidable_of_iff (j.payload.length < 2 ^ 31 ∧ (j.isCompressed = true → (deflate j.level j.payload).length < 2 ^ 31))
    ⟨fun h => ⟨h.1, h.2⟩, fun h => ⟨h.1, h.2⟩⟩

/-- Encodes the packet into a frame. -/
def encodeInto (j : Job) (frame : Bytes) : Except LinkError Header × Bytes :=
  Packet.encodeInto frame j.sequence j.payload j.threshold j.level

/-- What the packet is on the wire. -/
def parcel (j : Job) : Parcel :=
  if j.isCompressed then
    ⟨.compressed j.sequence (Int32.ofNat (deflate j.level j.payload).length) (Int32.ofNat j.payload.length),
      deflate j.level j.payload⟩
  else
    ⟨.raw j.sequence (Int32.ofNat j.payload.length), j.payload⟩

section

variable {j : Job}

theorem length?_of_lt {n : Nat} (h : n < 2 ^ 31) : length? n = some (Int32.ofNat n) :=
  if_pos h

theorem length?_of_not_lt {n : Nat} (h : ¬ n < 2 ^ 31) : length? n = none :=
  if_neg h

theorem encodeInto_eq (hfits : j.Fits) (frame : Bytes) : j.encodeInto frame = (.ok j.parcel.header, j.parcel.wire) := by
  rw [encodeInto, Packet.encodeInto, length?_of_lt hfits.payload, parcel]
  have hdrop : ∀ bs : Bytes, (List.replicate Header.size 0 ++ bs).drop Header.size = bs :=
    fun bs => List.drop_left' (List.length_replicate)
  cases hcompressed : j.isCompressed with
  | true =>
      have hlength : (List.replicate Header.size 0 ++ deflate j.level j.payload).length - Header.size =
          (deflate j.level j.payload).length := by
        rw [List.length_append, List.length_replicate, Nat.add_sub_cancel_left]
      have hcompressible : isCompressible j.threshold j.payload.length = true := hcompressed
      simp only [hcompressible, if_true, hlength, length?_of_lt (hfits.deflated hcompressed), hdrop]
      rfl
  | false =>
      have hcompressible : isCompressible j.threshold j.payload.length = false := hcompressed
      simp only [hcompressible, Bool.false_eq_true, if_false, hdrop]
      rfl

theorem encodeInto_error (hfits : ¬ j.Fits) (frame : Bytes) : ∃ e frame', j.encodeInto frame = (.error e, frame') := by
  rw [encodeInto, Packet.encodeInto]
  by_cases hpayload : j.payload.length < 2 ^ 31
  · rw [length?_of_lt hpayload]
    cases hcompressed : j.isCompressed with
    | true =>
        have hlength : (List.replicate Header.size 0 ++ deflate j.level j.payload).length - Header.size =
            (deflate j.level j.payload).length := by
          rw [List.length_append, List.length_replicate, Nat.add_sub_cancel_left]
        have hcompressible : isCompressible j.threshold j.payload.length = true := hcompressed
        have hdeflated : ¬ (deflate j.level j.payload).length < 2 ^ 31 := fun h => hfits ⟨hpayload, fun _ => h⟩
        simp only [hcompressible, if_true, hlength, length?_of_not_lt hdeflated]
        exact ⟨_, _, rfl⟩
    | false => exact absurd ⟨hpayload, fun h => absurd h (by rw [hcompressed]; decide)⟩ hfits
  · rw [length?_of_not_lt hpayload]
    exact ⟨_, _, rfl⟩

theorem parcel_sequence : j.parcel.header.sequence = j.sequence := by
  rw [parcel]
  split <;> rfl

theorem parcel_isSound (hfits : j.Fits) : j.parcel.IsSound none := by
  rw [parcel]
  cases hcompressed : j.isCompressed with
  | true =>
      have hpacket := Int32.toInt_ofNat_of_lt (hfits.deflated hcompressed)
      have hraw := Int32.toInt_ofNat_of_lt hfits.payload
      refine ⟨⟨?_, ?_, fun most hmost => (nomatch hmost)⟩, ?_⟩
      · show 0 ≤ (Int32.ofNat (deflate j.level j.payload).length).toInt
        omega
      · show 0 ≤ (Int32.ofNat j.payload.length).toInt
        omega
      · show (deflate j.level j.payload).length = extendWord (Int32.ofNat (deflate j.level j.payload).length)
        rw [extendWord_eq_toNat (by omega)]
        omega
  | false =>
      have hraw := Int32.toInt_ofNat_of_lt hfits.payload
      refine ⟨⟨?_, Int.le_refl 0, fun most hmost => (nomatch hmost)⟩, ?_⟩
      · show 0 ≤ (Int32.ofNat j.payload.length).toInt
        omega
      · show j.payload.length = extendWord (Int32.ofNat j.payload.length)
        rw [extendWord_eq_toNat (by omega)]
        omega

theorem parcel_payload? (hfits : j.Fits) : j.parcel.payload? = some j.payload := by
  rw [Parcel.payload?, payload?_eq_some_iff (parcel_isSound hfits).valid, parcel]
  cases hcompressed : j.isCompressed with
  | true =>
      have hraw := Int32.toInt_ofNat_of_lt hfits.payload
      obtain ⟨hpos, hle⟩ := isCompressed_iff.1 hcompressed
      refine .inr ⟨?_, inflate?_deflate j.level j.payload, hraw.symm⟩
      show 0 < (Int32.ofNat j.payload.length).toInt
      omega
  | false => exact .inl ⟨rfl, rfl⟩

end

end Job

end Packet

/-- A parcel that stands for a payload, with anything behind it, begins with a packet. -/
theorem Parcel.IsSound.begins {limit : Option Nat} {p : Parcel} (hp : p.IsSound limit) {payload : Bytes}
    (hpayload : p.payload? = some payload) (rest : Bytes) : Packet.Begins limit (p.wire ++ rest) p.header payload := by
  have hlength := hp.length
  rw [extendWord_eq_toNat hp.valid.packetLength] at hlength
  have hbody : ((p.wire ++ rest).drop Header.size).take p.header.packetLength.toInt.toNat = p.body := by
    rw [wire, List.append_assoc, List.drop_left' (Header.encode_length p.header), List.take_left' hlength]
  refine ⟨?_, hp.valid, ?_, ?_⟩
  · rw [wire, List.append_assoc, List.take_left' (Header.encode_length p.header)]
  · rw [wire, List.length_append, List.length_append, Header.encode_length, hlength]
    exact Nat.le_add_right _ _
  · rw [hbody]
    exact (Packet.payload?_eq_some_iff hp.valid).1 hpayload

theorem Parcel.IsSound.wire_length {limit : Option Nat} {p : Parcel} (hp : p.IsSound limit) :
    p.wire.length = Header.size + p.header.packetLength.toInt.toNat := by
  have hlength := hp.length
  rw [extendWord_eq_toNat hp.valid.packetLength] at hlength
  rw [wire, List.length_append, Header.encode_length, hlength]

end FrameLink

namespace FrameLink.Packet

/-- Encodes packets one after the other into the same frame, and answers what comes of each. -/
def encodeAll : Bytes → List Job → List (Except LinkError Header × Bytes)
  | _, [] => []
  | frame, j :: js => j.encodeInto frame :: encodeAll (j.encodeInto frame).2 js

/-- Takes so many packets off a source. -/
def receiveAll (limit : Option Nat) : Nat → Source → List (Attempt LinkError (Header × Bytes)) × Source
  | 0, src => ([], src)
  | packets + 1, src =>
    let first := receive limit src
    let rest := receiveAll limit packets first.2
    (first.1 :: rest.1, rest.2)

/-- What a packet has to be on the wire: the header carries the sequence number and the length of the body, and
declares an inflated length exactly if the payload reaches a positive threshold. -/
structure Job.IsSentAs (j : Job) (h : Header) (body : Bytes) : Prop where
  sequence : h.sequence = j.sequence
  length : h.packetLength.toInt = body.length
  compressed : 0 < j.threshold.toInt → j.threshold.toInt ≤ j.payload.length →
    h.uncompressedLength.toInt = j.payload.length
  raw : ¬ (0 < j.threshold.toInt ∧ j.threshold.toInt ≤ j.payload.length) →
    h.uncompressedLength.toInt = 0 ∧ h.packetLength.toInt = j.payload.length

theorem Job.isSentAs_parcel {j : Job} (hfits : j.Fits) : j.IsSentAs j.parcel.header j.parcel.body := by
  have hpayload := Int32.toInt_ofNat_of_lt hfits.payload
  rw [parcel]
  cases hcompressed : j.isCompressed with
  | true =>
      refine ⟨rfl, Int32.toInt_ofNat_of_lt (hfits.deflated hcompressed), fun _ _ => hpayload, ?_⟩
      intro hnot
      exact absurd (isCompressed_iff.1 hcompressed) hnot
  | false =>
      refine ⟨rfl, hpayload, ?_, fun _ => ⟨rfl, hpayload⟩⟩
      intro hpos hle
      rw [isCompressed_iff.2 ⟨hpos, hle⟩] at hcompressed
      cases hcompressed

theorem encodeAll_eq {js : List Job} (hfits : ∀ j ∈ js, j.Fits) (frame : Bytes) :
    encodeAll frame js = js.map fun j => (.ok j.parcel.header, j.parcel.wire) := by
  induction js generalizing frame with
  | nil => rfl
  | cons j js ih =>
      rw [encodeAll, List.map_cons, Job.encodeInto_eq (hfits j List.mem_cons_self),
        ih fun j' hj' => hfits j' (List.mem_cons_of_mem _ hj')]

theorem receiveAll_parcels {js : List Job} (hfits : ∀ j ∈ js, j.Fits) {rest : Bytes} {src : Source}
    (hsmooth : src.IsSmooth) (hdata : src.data = (js.flatMap fun j => j.parcel.wire) ++ rest) :
    (receiveAll none js.length src).1 = js.map (fun j => .ok (j.parcel.header, j.payload)) ∧
      (receiveAll none js.length src).2.data = rest := by
  induction js generalizing src with
  | nil => exact ⟨rfl, hdata⟩
  | cons j js ih =>
      have hj := hfits j List.mem_cons_self
      have hsound := Job.parcel_isSound hj
      rw [List.flatMap_cons, List.append_assoc] at hdata
      have hbegins := hsound.begins (Job.parcel_payload? hj) ((js.flatMap fun j => j.parcel.wire) ++ rest)
      rw [← hdata] at hbegins
      have hok := receive_of_begins hsmooth hbegins
      obtain ⟨-, hleft⟩ := begins_of_receive_eq_ok hsmooth hok
      obtain ⟨bs, hgives⟩ := receive_gives none src
      rw [hdata, List.drop_left' hsound.wire_length] at hleft
      obtain ⟨hanswers, hlast⟩ := ih (fun j' hj' => hfits j' (List.mem_cons_of_mem _ hj')) (hgives.smooth hsmooth) hleft
      simp only [receiveAll, List.length_cons, List.map_cons, hok, hanswers, hlast, and_self]

/-- Encoding succeeds for every packet whose lengths fit, and makes the same frame whatever the buffer held before.
Taking as many packets off a source that holds the frames and something behind them, in whatever pieces, answers
the headers and the payloads in order, and leaves what is behind them. -/
theorem receiveAll_encodeAll (js : List Job) (hfits : ∀ j ∈ js, j.Fits) :
    (∀ j ∈ js, ∃ h body, (∀ frame, j.encodeInto frame = (.ok h, h.encode ++ body)) ∧ j.IsSentAs h body) ∧
    ∀ frame, ∃ hs : List Header, (encodeAll frame js).map Prod.fst = hs.map .ok ∧
      ∀ (rest : Bytes) (src : Source), src.IsSmooth →
        src.data = (encodeAll frame js).flatMap Prod.snd ++ rest →
          (receiveAll none js.length src).1 = (hs.zip (js.map Job.payload)).map .ok ∧
            (receiveAll none js.length src).2.data = rest := by
  refine ⟨?_, ?_⟩
  · intro j hj
    exact ⟨_, _, Job.encodeInto_eq (hfits j hj), Job.isSentAs_parcel (hfits j hj)⟩
  · intro frame
    refine ⟨js.map fun j => j.parcel.header, ?_, ?_⟩
    · rw [encodeAll_eq hfits, List.map_map, List.map_map]
      rfl
    · intro rest src hsmooth hdata
      rw [encodeAll_eq hfits, List.flatMap_map] at hdata
      rw [List.zip_map', List.map_map]
      exact receiveAll_parcels hfits hsmooth hdata

/-- A compressed packet, an empty one under a positive threshold, and one without a threshold, into a frame that was in
use before; the source is cut in the midst of the first header and interrupted there. -/
theorem receiveAll_encodeAll_reused :
    let js : List Job := [⟨7, [1, 1, 1, 1], 4, 0⟩, ⟨-1, [], 1, 1⟩, ⟨8, [2, 3], 0, 6⟩]
    let wire := (encodeAll [9, 9] js).flatMap Prod.snd
    let src : Source :=
      { items := [.data (wire.take 5), .failure ⟨.interrupted, "again"⟩, .data (wire.drop 5), .data [0x55]] }
    (∀ j ∈ js, j.Fits) ∧ src.IsSmooth ∧ src.data = wire ++ [0x55] ∧
      (∃ hs : List Header, (receiveAll none 3 src).1 = (hs.zip [[1, 1, 1, 1], [], [2, 3]]).map .ok) ∧
        (receiveAll none 3 src).2.data = [0x55] := by
  intro js wire src
  have hfits : ∀ j ∈ js, j.Fits := by decide +kernel
  have hsmooth : src.IsSmooth := by
    intro i hi
    simp only [src, List.mem_cons, List.not_mem_nil, or_false] at hi
    rcases hi with rfl | rfl | rfl | rfl <;> decide
  have hdata : src.data = wire ++ [0x55] := by
    show wire.take 5 ++ ([] ++ (wire.drop 5 ++ ([0x55] ++ []))) = wire ++ [0x55]
    rw [List.nil_append, List.append_nil, ← List.append_assoc, List.take_append_drop]
  obtain ⟨-, hall⟩ := receiveAll_encodeAll js hfits
  obtain ⟨hs, -, hreceive⟩ := hall [9, 9]
  obtain ⟨hanswers, hlast⟩ := hreceive [0x55] src hsmooth hdata
  exact ⟨hfits, hsmooth, hdata, ⟨hs, hanswers⟩, hlast⟩

end FrameLink.Packet
