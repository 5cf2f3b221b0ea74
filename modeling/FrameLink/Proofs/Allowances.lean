import FrameLink.Proofs.PacketGrammar
import FrameLink.Proofs.Quotas

/-! What a peer can make of a packet's reader. The header that passes has its two lengths within the limit, and from then
on both are counted down: that of the segment by the bytes that are taken from the source, and that of the payload by the
bytes that are given out. So neither comes to more than the limit, whatever the bytes are, wherever the source fails and
however the reading ends. -/

namespace FrameLink

/-- The longest payload that passes under a limit, if there is one. -/
def longest (limit : Option Nat) : Nat :=
  limit.getD 0x7fffffff

namespace Header

/-- Neither length is negative or above `most`, and widening them leaves them what they are. -/
structure IsWithin (most : Nat) (h : Header) : Prop where
  packetLength : 0 ≤ h.packetLength.toInt ∧ h.packetLength.toInt ≤ most
  uncompressedLength : 0 ≤ h.uncompressedLength.toInt ∧ h.uncompressedLength.toInt ≤ most
  packetLength_extends : (extendWord h.packetLength : Int) = h.packetLength.toInt
  uncompressedLength_extends : (extendWord h.uncompressedLength : Int) = h.uncompressedLength.toInt

theorem toInt_le_longest {limit : Option Nat} {i : Int32} (h : ∀ most, limit = some most → i.toInt ≤ most) :
    i.toInt ≤ longest limit := by
  cases limit with
  | none =>
      have hlt := i.toInt_lt
      change i.toInt ≤ (0x7fffffff : Nat)
      omega
  | some most => exact h most rfl

section

variable {limit : Option Nat} {most : Nat} {h : Header}

theorem IsValid.isWithin (hvalid : h.IsValid limit) : h.IsWithin (longest limit) where
  packetLength := ⟨hvalid.packetLength, toInt_le_longest fun most hmost => (hvalid.within most hmost).1⟩
  uncompressedLength := ⟨hvalid.uncompressedLength, toInt_le_longest fun most hmost => (hvalid.within most hmost).2⟩
  packetLength_extends := extendWord_of_nonneg hvalid.packetLength
  uncompressedLength_extends := extendWord_of_nonneg hvalid.uncompressedLength

theorem IsWithin.extendWord_le (hwithin : h.IsWithin most) : extendWord h.packetLength ≤ most := by
  have hextends := hwithin.packetLength_extends
  have hle := hwithin.packetLength.2
  omega

theorem IsWithin.payloadLength_le (hwithin : h.IsWithin most) : h.payloadLength ≤ most := by
  rw [payloadLength]
  split
  · have hextends := hwithin.uncompressedLength_extends
    have hle := hwithin.uncompressedLength.2
    omega
  · exact hwithin.extendWord_le

end

/-- Collecting a header takes bytes only for it. -/
theorem collect_gives {reads : Nat} {got got' : Bytes} {s t : Source} {r : Attempt IoError Unit}
    (h : collect reads got s = (r, got', t)) :
    ∃ bs, s.Gives bs t ∧ bs.length + (size - got'.length) ≤ size - got.length := by
  have hnothing : ∀ {u : Source}, s.Gives [] u →
      ∃ bs, s.Gives bs u ∧ bs.length + (size - got.length) ≤ size - got.length :=
    fun hu => ⟨[], hu, Nat.le_of_eq (Nat.zero_add _)⟩
  induction reads generalizing got s with
  | zero =>
      simp only [collect, Prod.mk.injEq] at h
      obtain ⟨-, rfl, rfl⟩ := h
      exact hnothing (.refl s)
  | succ reads ih =>
      by_cases hfull : size ≤ got.length
      · simp only [collect, if_pos hfull, Prod.mk.injEq] at h
        obtain ⟨-, rfl, rfl⟩ := h
        exact hnothing (.refl s)
      · rcases hr : (Reader.read s (size - got.length) : Attempt IoError Bytes × Source) with ⟨q, u⟩
        cases Source.read_outcome hr with
        | @bytes bs _ hbs hn hgives =>
            obtain ⟨c, cs, rfl⟩ := List.exists_cons_of_ne_nil (hbs (by omega))
            simp only [collect, if_neg hfull, hr] at h
            obtain ⟨ds, hds, hle⟩ := ih h fun hu => ⟨[], hu, Nat.le_of_eq (Nat.zero_add _)⟩
            refine ⟨(c :: cs) ++ ds, hgives.trans hds, ?_⟩
            rw [List.length_append] at hle ⊢
            omega
        | ended _ _ hgives =>
            simp only [collect, if_neg hfull, hr, Prod.mk.injEq] at h
            obtain ⟨-, rfl, rfl⟩ := h
            exact hnothing hgives
        | @failed e _ hgives _ _ =>
            simp only [collect, if_neg hfull, hr] at h
            split at h
            · obtain ⟨ds, hds, hle⟩ := ih h fun hu => ⟨[], hu, Nat.le_of_eq (Nat.zero_add _)⟩
              exact ⟨ds, hgives.trans hds, hle⟩
            · simp only [Prod.mk.injEq] at h
              obtain ⟨-, rfl, rfl⟩ := h
              exact hnothing hgives
        | waits hgives _ _ =>
            simp only [collect, if_neg hfull, hr, Prod.mk.injEq] at h
            obtain ⟨-, rfl, rfl⟩ := h
            exact hnothing hgives

section

variable {limit : Option Nat} {got got' : Bytes} {s t : Source}

/-- Whether the header passes or not, reading it takes no more than is missing of it. -/
theorem receive_takes {r : Attempt LinkError Header} (h : receive limit got s = (r, got', t)) :
    ∃ bs, s.Gives bs t ∧ bs.length + (size - got'.length) ≤ size - got.length := by
  rcases hc : (collect (size + Reader.interruptions s + 1) got s : Attempt IoError Unit × Bytes × Source)
    with ⟨q, got₁, u⟩
  have hgives := collect_gives hc
  cases q <;>
  · simp only [receive, hc, Prod.mk.injEq] at h
    obtain ⟨-, rfl, rfl⟩ := h
    exact hgives

theorem isValid_of_receive {h : Header} (hr : receive limit got s = (.ok h, got', t)) : h.IsValid limit := by
  rcases hc : (collect (size + Reader.interruptions s + 1) got s : Attempt IoError Unit × Bytes × Source)
    with ⟨q, got₁, u⟩
  cases q with
  | error e => simp only [receive, hc, Prod.mk.injEq, reduceCtorEq, false_and] at hr
  | waiting => simp only [receive, hc, Prod.mk.injEq, reduceCtorEq, false_and] at hr
  | ok _ =>
      simp only [receive, hc, Prod.mk.injEq] at hr
      obtain ⟨hpassed, -, -⟩ := hr
      cases hvalid : validate limit (decode got₁) with
      | error e => rw [hvalid] at hpassed; cases hpassed
      | ok u =>
          rw [hvalid] at hpassed
          cases hpassed
          exact validate_eq_ok_iff.1 hvalid

end

end Header

theorem Segment.Gives.length_le {a b : Segment × Source} {bs : Bytes} (h : Segment.Gives a bs b) :
    bs.length ≤ a.1.left :=
  h.left ▸ Nat.le_add_right _ _

namespace Inflater

variable {f g : Inflater} {n : Nat} {bs : Bytes}

theorem give_length_le (f : Inflater) (n : Nat) : (f.give n).1.length ≤ n := by
  simp only [give, Array.length_toList, Array.size_extract]
  omega

theorem decodeWindows_length_le (ended : Bool) (windows n : Nat) (f : Inflater) :
    (decodeWindows ended windows n f).1.length ≤ n := by
  induction windows generalizing n f with
  | zero => exact Nat.zero_le n
  | succ windows ih =>
      rcases hgive : (f.decode ended).give n with ⟨bs, g⟩
      have hfirst : bs.length ≤ n := by
        have hle := give_length_le (f.decode ended) n
        rwa [hgive] at hle
      simp only [decodeWindows, hgive]
      split
      · have hrest := ih (n - bs.length) g
        rw [List.length_append]
        omega
      · exact hfirst

theorem advance_length_le (f : Inflater) (ended : Bool) (n : Nat) : (f.advance ended n).1.length ≤ n := by
  unfold advance
  split
  · exact Nat.zero_le n
  · split
    · exact give_length_le f n
    · exact decodeWindows_length_le ended _ n f

theorem pull_length_le {pieces : Nat} {a b : Segment × Source}
    (h : pull n pieces f a = (.ok bs, g, b)) : bs.length ≤ n := by
  induction pieces generalizing f a with
  | zero =>
      simp only [pull, Prod.mk.injEq, Attempt.ok.injEq] at h
      obtain ⟨rfl, -⟩ := h
      exact Nat.zero_le n
  | succ pieces ih =>
      rcases hfill : f.fill a with ⟨q, f₁, a₁⟩
      cases q with
      | error e => simp only [pull, hfill, Prod.mk.injEq, reduceCtorEq, false_and] at h
      | waiting => simp only [pull, hfill, Prod.mk.injEq, reduceCtorEq, false_and] at h
      | ok ended =>
          have hle := advance_length_le f₁ ended n
          rcases hadvance : f₁.advance ended n with ⟨cs, f₂⟩
          rw [hadvance] at hle
          simp only [pull, hfill, hadvance] at h
          split at h
          · cases h
          · cases h
            exact hle
          · cases h
            exact hle
          · split at h
            · cases h
            · exact ih h

theorem isModest : Reader.IsModest (Inflater × Segment × Source) :=
  fun _ _ _ _ h => pull_length_le h

end Inflater

namespace Cursor

/-- The cursor and its source `a` have given out the bytes `bs` and become `b`, taking bytes from the segment, which are
those given out if the payload is raw. -/
structure Gives (a : Cursor × Source) (bs : Bytes) (b : Cursor × Source) : Prop where
  remaining : a.1.remaining = bs.length + b.1.remaining
  taken : ∃ taken, Segment.Gives (a.1.segment, a.2) taken (b.1.segment, b.2) ∧
    ∀ seg, a.1 = .raw seg → taken = bs ∧ ∃ seg', b.1 = .raw seg'

theorem Gives.refl (a : Cursor × Source) : Gives a [] a :=
  ⟨(Nat.zero_add _).symm, [], .refl _, fun seg ha => ⟨rfl, seg, ha⟩⟩

theorem Gives.trans {a b c : Cursor × Source} {bs cs : Bytes} (h : Gives a bs b) (k : Gives b cs c) :
    Gives a (bs ++ cs) c where
  remaining := by rw [h.remaining, k.remaining, List.length_append, Nat.add_assoc]
  taken := by
    obtain ⟨first, hfirst, hraw⟩ := h.taken
    obtain ⟨second, hsecond, hraw'⟩ := k.taken
    refine ⟨first ++ second, hfirst.trans hsecond, fun seg ha => ?_⟩
    obtain ⟨rfl, seg', hb⟩ := hraw seg ha
    obtain ⟨rfl, hc⟩ := hraw' seg' hb
    exact ⟨rfl, hc⟩

theorem ofHeader_remaining (h : Header) : (ofHeader h).remaining = h.payloadLength := by
  have hremaining := (follows_ofHeader h (.ofBytes [])).remaining
  rwa [List.length_nil, Nat.zero_add] at hremaining

section

variable {c c' : Cursor} {src src' : Source} {n : Nat} {r : Attempt LinkError Bytes}

theorem remaining_of_readBounded {w w' : Window} {σ : Type} [Reader σ] {s t : σ}
    (hmodest : Reader.IsModest σ) (h : BoundedReader.readBounded (w, s) n = (r, w', t)) :
    w.remaining = r.given.length + w'.remaining := by
  obtain ⟨hleft, hclosed⟩ := (Window.tracks hmodest).readBounded h
  cases hw : w.closed with
  | false =>
      have hw' : w'.closed = false := hclosed.trans hw
      simp only [Window.remaining, hw, hw', Bool.false_eq_true, if_false]
      exact hleft
  | true =>
      have hw' : w'.closed = true := hclosed.trans hw
      simp only [Window.remaining, hw, hw', if_true, Window.given_of_closed hw h, List.length_nil]

/-- Whatever a read comes to, what it gives out no longer remains. -/
theorem read_gives (h : c.read src n = (r, c', src')) : Gives (c, src) r.given (c', src') := by
  cases c with
  | raw seg =>
      rcases hr : (BoundedReader.readBounded (seg, src) n) with ⟨q, seg₁, src₁⟩
      have hgives := Segment.tracks.readBounded hr
      simp only [read, hr, Prod.mk.injEq] at h
      obtain ⟨rfl, rfl, rfl⟩ := h
      exact ⟨hgives.left, q.given, hgives, fun _ _ => ⟨rfl, seg₁, rfl⟩⟩
  | deflated w f seg =>
      obtain ⟨taken, htaken⟩ := (read_uses h).gives
      rcases hr : (BoundedReader.readBounded (w, f, seg, src) n) with ⟨q, w₁, s₁⟩
      have hremaining := remaining_of_readBounded Inflater.isModest hr
      simp only [read, hr, Prod.mk.injEq] at h
      obtain ⟨rfl, rfl, rfl⟩ := h
      refine ⟨hremaining, taken, htaken, fun _ hraw => ?_⟩
      cases hraw

end

end Cursor

namespace Packet

section

variable {reads : Nat} {got got' : Array UInt8} {c d : Cursor} {src src' : Source} {q : Attempt LinkError Unit}

/-- Whatever collecting a payload comes to, what has been collected is what the cursor has given out. -/
theorem collect_gives (hr : collect reads got c src = (q, got', d, src')) :
    ∃ bs, got'.toList = got.toList ++ bs ∧ Cursor.Gives (c, src) bs (d, src') := by
  have hnothing : ∀ {u : Cursor × Source}, Cursor.Gives (c, src) [] u →
      ∃ bs, got.toList = got.toList ++ bs ∧ Cursor.Gives (c, src) bs u :=
    fun hu => ⟨[], (List.append_nil _).symm, hu⟩
  induction reads generalizing got c src with
  | zero =>
      simp only [collect, Prod.mk.injEq] at hr
      obtain ⟨-, rfl, rfl, rfl⟩ := hr
      exact hnothing (.refl _)
  | succ reads ih =>
      by_cases hend : c.remaining = 0
      · simp only [collect, if_pos hend, Prod.mk.injEq] at hr
        obtain ⟨-, rfl, rfl, rfl⟩ := hr
        exact hnothing (.refl _)
      · rcases hread : c.read src (min c.remaining pieceSize) with ⟨r, c₁, src₁⟩
        have hgives := Cursor.read_gives hread
        cases r with
        | ok bs =>
            simp only [collect, if_neg hend, hread] at hr
            obtain ⟨cs, hcs, hrest⟩ := ih hr fun hu => ⟨[], (List.append_nil _).symm, hu⟩
            refine ⟨bs ++ cs, ?_, hgives.trans hrest⟩
            rw [hcs, Array.toList_appendList, List.append_assoc]
        | error e =>
            simp only [collect, if_neg hend, hread, Prod.mk.injEq] at hr
            obtain ⟨-, rfl, rfl, rfl⟩ := hr
            exact hnothing hgives
        | waiting =>
            simp only [collect, if_neg hend, hread, Prod.mk.injEq] at hr
            obtain ⟨-, rfl, rfl, rfl⟩ := hr
            exact hnothing hgives

/-- Collecting that succeeds comes to the end of the payload, if there are reads enough for one byte each. -/
theorem collect_end {h : Header} {body : Bytes} (hf : Cursor.Follows h body got.toList c src)
    (hreads : c.remaining < reads) (hr : collect reads got c src = (.ok (), got', d, src')) : d.remaining = 0 := by
  induction reads generalizing got c src with
  | zero => omega
  | succ reads ih =>
      by_cases hend : c.remaining = 0
      · simp only [collect, if_pos hend, Prod.mk.injEq] at hr
        obtain ⟨-, -, rfl, -⟩ := hr
        exact hend
      · have hpiece := pieceSize_pos
        rcases hread : c.read src (min c.remaining pieceSize) with ⟨r, c₁, src₁⟩
        have hremaining := hf.remaining
        cases hf.reading hread with
        | @bytes bs _ _ hne hn hlength hfollows =>
            simp only [collect, if_neg hend, hread] at hr
            have hpos := List.length_pos_iff.2 (hne (by omega))
            have hremaining₁ := hfollows.remaining
            rw [List.length_append] at hremaining₁
            exact ih (by rwa [Array.toList_appendList]) (by omega) hr
        | refused hn => omega
        | failed => simp only [collect, if_neg hend, hread, Prod.mk.injEq, reduceCtorEq, false_and] at hr
        | waits => simp only [collect, if_neg hend, hread, Prod.mk.injEq, reduceCtorEq, false_and] at hr

end

/-- However taking a payload off a source ends, it takes no more than the segment that the header announces. -/
theorem receivePayload_takes (h : Header) (src : Source) :
    ∃ bs, src.Gives bs (receivePayload h src).2 ∧ bs.length ≤ extendWord h.packetLength := by
  rcases hcollect : collect (h.payloadLength + 1) #[] (Cursor.ofHeader h) src with ⟨q, got, c, src₁⟩
  obtain ⟨bs, hbs⟩ := (collect_uses hcollect).gives
  rw [Cursor.ofHeader_segment] at hbs
  cases q with
  | error e =>
      simp only [receivePayload, hcollect]
      exact ⟨bs, hbs.source, hbs.length_le⟩
  | waiting =>
      simp only [receivePayload, hcollect]
      exact ⟨bs, hbs.source, hbs.length_le⟩
  | ok _ =>
      rcases hclose : c.close.run src₁ with ⟨r, d, src₂⟩
      obtain ⟨cs, hcs⟩ := (Cursor.Closing.run_outcome hclose).uses.gives
      rw [Cursor.close_segment] at hcs
      simp only [receivePayload, hcollect, Cursor.finish, hclose]
      exact ⟨bs ++ cs, (hbs.trans hcs).source, (hbs.trans hcs).length_le⟩

section

variable {limit : Option Nat} {src : Source}

/-- However taking a packet off a source ends, it takes no more than a header and the longest payload. -/
theorem receive_takes (limit : Option Nat) (src : Source) :
    ∃ bs, src.Gives bs (receive limit src).2 ∧ bs.length ≤ Header.size + longest limit := by
  rcases hheader : Header.receive limit [] src with ⟨q, got, src₁⟩
  obtain ⟨bs, hbs, hle⟩ := Header.receive_takes hheader
  rw [List.length_nil, Nat.sub_zero] at hle
  cases q with
  | error e =>
      simp only [receive, hheader]
      exact ⟨bs, hbs, by omega⟩
  | waiting =>
      simp only [receive, hheader]
      exact ⟨bs, hbs, by omega⟩
  | ok h =>
      have hwithin := (Header.isValid_of_receive hheader).isWithin.extendWord_le
      obtain ⟨cs, hcs, hpacket⟩ := receivePayload_takes h src₁
      simp only [receive, hheader]
      refine ⟨bs ++ cs, hbs.trans hcs, ?_⟩
      rw [List.length_append]
      omega

/-- A packet that is taken off a source has a payload of just the length that its header declares. -/
theorem length_of_receive_eq_ok {h : Header} {payload : Bytes} (hok : (receive limit src).1 = .ok (h, payload)) :
    payload.length = h.payloadLength ∧ h.IsWithin (longest limit) := by
  rcases hheader : Header.receive limit [] src with ⟨q, got, src₁⟩
  cases q with
  | error e => simp only [receive, hheader, reduceCtorEq] at hok
  | waiting => simp only [receive, hheader, reduceCtorEq] at hok
  | ok h₀ =>
      simp only [receive, hheader] at hok
      rcases hcollect : collect (h₀.payloadLength + 1) #[] (Cursor.ofHeader h₀) src₁ with ⟨q, got, c, src₂⟩
      rcases hfinish : c.finish src₂ with ⟨r, src₃⟩
      obtain ⟨rfl, -, rfl, rfl, -⟩ := eq_ok_of_receivePayload_eq_ok h payload hcollect hfinish hok
      have hremaining := Cursor.ofHeader_remaining h
      have hend := collect_end (Cursor.follows_ofHeader h src₁) (by omega) hcollect
      obtain ⟨bs, hbs, hgives⟩ := collect_gives hcollect
      have hgiven := hgives.remaining
      simp only [hend, hremaining, Nat.add_zero] at hgiven
      rw [hbs, List.nil_append]
      exact ⟨hgiven.symm, (Header.isValid_of_receive hheader).isWithin⟩

end

/-- What the limit bounds when a packet is taken off the source `src`, however that ends. -/
structure Contained (limit : Option Nat) (src : Source) : Prop where
  taken : ∃ bs, src.Gives bs (receive limit src).2 ∧ bs.length ≤ Header.size + longest limit
  given : ∀ h payload, (receive limit src).1 = .ok (h, payload) →
    payload.length = h.payloadLength ∧ payload.length ≤ longest limit
  opened : ∀ h got src₁, Header.receive limit [] src = (.ok h, got, src₁) → h.IsWithin (longest limit)
  /-- After any number of rounds, the payload that has been collected is no longer than what has arrived of it, or, if it
  is compressed, than it is declared to be. -/
  collected : ∀ h got src₁, Header.receive limit [] src = (.ok h, got, src₁) →
    ∀ rounds q payload c src₂, collect rounds #[] (Cursor.ofHeader h) src₁ = (q, payload, c, src₂) →
      c.remaining ≤ longest limit ∧ ∃ bs, src₁.Gives bs src₂ ∧ (h.isCompressed = false → payload.toList = bs) ∧
        (h.isCompressed = true → payload.size ≤ h.uncompressedLength.toInt)

theorem contained (limit : Option Nat) (src : Source) : Contained limit src where
  taken := receive_takes limit src
  given h payload hok := by
    obtain ⟨hlength, hwithin⟩ := length_of_receive_eq_ok hok
    exact ⟨hlength, hlength ▸ hwithin.payloadLength_le⟩
  opened h got src₁ hheader := (Header.isValid_of_receive hheader).isWithin
  collected h got src₁ hheader rounds q payload c src₂ hcollect := by
    have hwithin := (Header.isValid_of_receive hheader).isWithin
    obtain ⟨bs, hbs, hgives⟩ := collect_gives hcollect
    obtain ⟨taken, htaken, hraw⟩ := hgives.taken
    have hremaining := hgives.remaining
    simp only [Cursor.ofHeader_remaining] at hremaining
    have hpayload := hwithin.payloadLength_le
    rw [List.nil_append] at hbs
    refine ⟨by omega, taken, htaken.source, fun hnot => ?_, fun hcompressed => ?_⟩
    · have hopen : Cursor.ofHeader h = .raw ⟨extendWord h.packetLength, false⟩ := by
        rw [Cursor.ofHeader, hnot, if_neg Bool.false_ne_true]
      rw [hbs, (hraw _ hopen).1]
    · have hextends := hwithin.uncompressedLength_extends
      rw [Header.payloadLength, if_pos hcompressed] at hremaining
      rw [← Array.length_toList, hbs]
      omega

end Packet

end FrameLink
