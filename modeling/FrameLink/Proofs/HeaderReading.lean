import FrameLink.Frame
import FrameLink.Proofs.Reading
import Mathlib.Algebra.Group.Nat.Defs

/-! The words of a header and the bytes that spell them determine each other: twelve bytes are the encoding of
exactly one header. A length that is not negative stands for the number that it is. -/

namespace FrameLink

namespace Bytes

theorem toNat_four (a b c d : UInt8) :
    toNat [a, b, c, d] = ((a.toNat * 256 + b.toNat) * 256 + c.toNat) * 256 + d.toNat := by
  simp only [toNat, List.foldl_cons, List.foldl_nil, Nat.zero_mul, Nat.zero_add]

theorem toNat_ofWord {n : Nat} (h : n < 2 ^ 32) : toNat (ofWord n) = n := by
  simp only [ofWord, toNat_four, Nat.toUInt8_eq, UInt8.toNat_ofNat']
  omega

theorem ofWord_toNat_four (a b c d : UInt8) : ofWord (toNat [a, b, c, d]) = [a, b, c, d] := by
  have ha := a.toNat_lt
  have hb := b.toNat_lt
  have hc := c.toNat_lt
  have hd := d.toNat_lt
  simp only [ofWord, toNat_four, List.cons.injEq, and_true, ← UInt8.toNat_inj, Nat.toUInt8_eq,
    UInt8.toNat_ofNat']
  omega

theorem toNat_four_lt (a b c d : UInt8) : toNat [a, b, c, d] < 2 ^ 32 := by
  have ha := a.toNat_lt
  have hb := b.toNat_lt
  have hc := c.toNat_lt
  have hd := d.toNat_lt
  rw [toNat_four]
  omega

theorem ofInt32_length (i : Int32) : (ofInt32 i).length = 4 :=
  rfl

theorem toInt32_ofInt32 (i : Int32) : toInt32 (ofInt32 i) = i := by
  rw [toInt32, ofInt32, toNat_ofWord i.toUInt32.toNat_lt, UInt32.ofNat_toNat, Int32.toInt32_toUInt32]

theorem ofInt32_toInt32 {bs : Bytes} (h : bs.length = 4) : ofInt32 (toInt32 bs) = bs := by
  match bs, h with
  | [a, b, c, d], _ =>
    rw [ofInt32, toInt32, UInt32.toUInt32_toInt32, UInt32.toNat_ofNat_of_lt' (toNat_four_lt a b c d),
      ofWord_toNat_four]

end Bytes

theorem extendWord_of_nonneg {i : Int32} (h : 0 ≤ i.toInt) : (extendWord i : Int) = i.toInt := by
  have hlt := i.toInt_lt
  rw [extendWord, Int.emod_eq_of_lt h (by omega), Int.toNat_of_nonneg h]

namespace Header

theorem encode_length (h : Header) : h.encode.length = size :=
  rfl

theorem decode_encode_append (h : Header) (rest : Bytes) : decode (h.encode ++ rest) = h := by
  have htake : ∀ (i : Int32) (bs : Bytes), (Bytes.ofInt32 i ++ bs).take 4 = Bytes.ofInt32 i :=
    fun i bs => List.take_left' (Bytes.ofInt32_length i)
  have hdrop : ∀ (i : Int32) (bs : Bytes), (Bytes.ofInt32 i ++ bs).drop 4 = bs :=
    fun i bs => List.drop_left' (Bytes.ofInt32_length i)
  rw [encode, decode, List.append_assoc, List.append_assoc, show 8 = 4 + 4 from rfl, ← List.drop_drop, hdrop,
    hdrop, htake, htake, htake]
  simp only [Bytes.toInt32_ofInt32]

theorem encode_decode {bs : Bytes} (h : size ≤ bs.length) : (decode bs).encode = bs.take size := by
  simp only [size] at h
  rw [encode, decode, Bytes.ofInt32_toInt32, Bytes.ofInt32_toInt32, Bytes.ofInt32_toInt32,
    show size = 4 + 4 + 4 from rfl, List.take_add, List.take_add]
  all_goals
    simp only [List.length_take, List.length_drop]
    omega

/-- What a header is checked for: no length is negative, and none exceeds the limit. -/
structure IsValid (limit : Option Nat) (h : Header) : Prop where
  packetLength : 0 ≤ h.packetLength.toInt
  uncompressedLength : 0 ≤ h.uncompressedLength.toInt
  within : ∀ most, limit = some most → h.packetLength.toInt ≤ most ∧ h.uncompressedLength.toInt ≤ most

theorem validate_eq_ok_iff {limit : Option Nat} {h : Header} : h.validate limit = .ok () ↔ h.IsValid limit := by
  unfold validate
  split
  · rename_i hneg
    refine ⟨fun k => (nomatch k), fun k => ?_⟩
    have hlt := Int32.lt_iff_toInt_lt.1 hneg
    have hle := k.packetLength
    simp only [Int32.toInt_zero] at hlt
    omega
  · rename_i hpos
    have hpacket : 0 ≤ h.packetLength.toInt := by
      rw [Int32.lt_iff_toInt_lt] at hpos
      simpa using hpos
    split
    · rename_i hneg
      refine ⟨fun k => (nomatch k), fun k => ?_⟩
      have hlt := Int32.lt_iff_toInt_lt.1 hneg
      have hle := k.uncompressedLength
      simp only [Int32.toInt_zero] at hlt
      omega
    · rename_i hpos
      have huncompressed : 0 ≤ h.uncompressedLength.toInt := by
        rw [Int32.lt_iff_toInt_lt] at hpos
        simpa using hpos
      cases limit with
      | none => exact ⟨fun _ => ⟨hpacket, huncompressed, fun _ k => nomatch k⟩, fun _ => rfl⟩
      | some most =>
          have hlargest : h.largest = max h.packetLength.toInt h.uncompressedLength.toInt := rfl
          by_cases hmost : (most : Int) < h.largest
          · simp only [hmost, if_true]
            refine ⟨fun k => (nomatch k), fun k => ?_⟩
            have hle := k.within most rfl
            omega
          · simp only [hmost, if_false]
            refine ⟨fun _ => ⟨hpacket, huncompressed, fun m hm => ?_⟩, fun _ => trivial⟩
            cases hm
            omega

/-- A header that does not pass is refused as malformed. -/
theorem exists_reason_of_validate {limit : Option Nat} {h : Header} {e : LinkError} (herror : h.validate limit = .error e) :
    ∃ reason, e = .codec reason none := by
  unfold validate at herror
  split at herror
  · cases herror
    exact ⟨_, rfl⟩
  · split at herror
    · cases herror
      exact ⟨_, rfl⟩
    · split at herror
      · cases herror
      · split at herror
        · cases herror
          exact ⟨_, rfl⟩
        · cases herror

theorem isCompressed_iff {h : Header} : h.isCompressed = true ↔ 0 < h.uncompressedLength.toInt := by
  rw [isCompressed, decide_eq_true_iff, Int32.lt_iff_toInt_lt, Int32.toInt_zero]

end Header

end FrameLink

/-! Reading a header takes exactly the twelve bytes of it, in whatever pieces they come and however often the
source is interrupted, whether the header passes or not. With fewer than twelve bytes left the reading takes
all of them and fails or waits. -/

namespace FrameLink.Header

/-- What collecting a header answers when `got` has been read of it before. -/
inductive CollectOutcome (got : Bytes) (s : Source) : Attempt IoError Unit → Bytes → Source → Prop where
  | whole {bs : Bytes} {t : Source} (hlength : (got ++ bs).length = size) (hgives : s.Gives bs t) :
      CollectOutcome got s (.ok ()) (got ++ bs) t
  | short {bs : Bytes} {t : Source} (hlength : (got ++ bs).length < size) (hgives : s.Gives bs t)
      (hdata : t.data = []) (hlive : s.live = false) :
      CollectOutcome got s (.error ⟨.unexpectedEof, "failed to fill whole buffer"⟩) (got ++ bs) t
  | failed {e : IoError} {bs : Bytes} {t : Source} (hgives : s.Gives bs t) (hsmooth : ¬ s.IsSmooth) :
      CollectOutcome got s (.error e) (got ++ bs) t
  | waits {bs : Bytes} {t : Source} (hlength : (got ++ bs).length < size) (hgives : s.Gives bs t)
      (hsmooth : s.IsSmooth → t.data = [] ∧ s.live = true) (hprompt : ¬ s.IsPrompt) :
      CollectOutcome got s .waiting (got ++ bs) t

theorem CollectOutcome.prepend {got bs cs : Bytes} {s t u : Source} {r : Attempt IoError Unit}
    (h : CollectOutcome (got ++ bs) t r cs u) (hgives : s.Gives bs t) : CollectOutcome got s r cs u := by
  cases h with
  | whole hlength k =>
      rw [List.append_assoc] at hlength ⊢
      exact .whole hlength (hgives.trans k)
  | short hlength k hdata hlive =>
      rw [List.append_assoc] at hlength ⊢
      exact .short hlength (hgives.trans k) hdata (hgives.live ▸ hlive)
  | failed k hsmooth =>
      rw [List.append_assoc]
      exact .failed (hgives.trans k) (hsmooth ∘ hgives.smooth)
  | waits hlength k hsmooth hprompt =>
      rw [List.append_assoc] at hlength ⊢
      exact .waits hlength (hgives.trans k) (fun hs => hgives.live ▸ hsmooth (hgives.smooth hs))
        (hprompt ∘ hgives.prompt)

theorem collect_outcome {reads : Nat} {got got' : Bytes} {s t : Source} {r : Attempt IoError Unit}
    (h : collect reads got s = (r, got', t)) (hgot : got.length ≤ size)
    (hreads : size - got.length + s.failures < reads) : CollectOutcome got s r got' t := by
  induction reads generalizing got s with
  | zero => omega
  | succ reads ih =>
      have hstay : ∀ {q : Attempt IoError Unit} {u : Source},
          CollectOutcome got s q (got ++ []) u → CollectOutcome got s q got u := by
        intro q u k
        rwa [List.append_nil] at k
      have hlength : size ≤ got.length ∨ (got ++ []).length < size := by
        rw [List.append_nil]
        omega
      by_cases hfull : size ≤ got.length
      · simp only [collect, if_pos hfull, Prod.mk.injEq] at h
        obtain ⟨rfl, rfl, rfl⟩ := h
        exact hstay (.whole (by rw [List.append_nil]; omega) (Source.Gives.refl _))
      · replace hlength := hlength.resolve_left hfull
        rcases hr : (Reader.read s (size - got.length) : Attempt IoError Bytes × Source) with ⟨q, u⟩
        cases Source.read_outcome hr with
        | bytes hbs hn hgives =>
            rename_i bs
            cases bs with
            | nil => exact absurd rfl (hbs (by omega))
            | cons c cs =>
                simp only [collect, if_neg hfull, hr] at h
                have hfailures := hgives.failures
                simp only [List.length_cons] at hn
                exact (ih h (by simp only [List.length_append, List.length_cons]; omega)
                  (by simp only [List.length_append, List.length_cons]; omega)).prepend hgives
        | ended hdata hlive hgives =>
            simp only [collect, if_neg hfull, hr, Prod.mk.injEq] at h
            obtain ⟨rfl, rfl, rfl⟩ := h
            exact hstay (.short hlength hgives (by rw [← hdata, hgives.data, List.nil_append]) hlive)
        | failed hgives hlt he =>
            rename_i e
            cases hi : e.isInterruption with
            | true =>
                simp only [collect, if_neg hfull, hr, hi, if_true] at h
                rw [← List.append_nil got] at h
                exact (ih h (Nat.le_of_lt hlength) (by rw [List.append_nil]; omega)).prepend hgives
            | false =>
                simp only [collect, if_neg hfull, hr, hi, Bool.false_eq_true, if_false, Prod.mk.injEq] at h
                obtain ⟨rfl, rfl, rfl⟩ := h
                refine hstay (.failed hgives fun hsmooth => ?_)
                rw [he hsmooth.faultless] at hi
                cases hi
        | waits hgives hsmooth hprompt =>
            simp only [collect, if_neg hfull, hr, Prod.mk.injEq] at h
            obtain ⟨rfl, rfl, rfl⟩ := h
            refine hstay (.waits hlength hgives (fun hs => ⟨?_, (hsmooth hs).2⟩) hprompt)
            rw [← (hsmooth hs).1, hgives.data, List.nil_append]

/-- The failure of a source that ends within a header. -/
def shortError : LinkError :=
  .stream ⟨.unexpectedEof, s!"expected {size} header bytes, stream ended"⟩

/-- What reading a header answers when `got` has been read of it before. -/
inductive ReceiveOutcome (limit : Option Nat) (got : Bytes) (s : Source) :
    Attempt LinkError Header → Bytes → Source → Prop where
  | passed {bs : Bytes} {t : Source} (hlength : (got ++ bs).length = size) (hgives : s.Gives bs t)
      (hvalid : (decode (got ++ bs)).IsValid limit) :
      ReceiveOutcome limit got s (.ok (decode (got ++ bs))) (got ++ bs) t
  | refused {reason : String} {bs : Bytes} {t : Source} (hlength : (got ++ bs).length = size)
      (hgives : s.Gives bs t) (hvalid : ¬ (decode (got ++ bs)).IsValid limit) :
      ReceiveOutcome limit got s (.error (.codec reason none)) (got ++ bs) t
  | short {bs : Bytes} {t : Source} (hlength : (got ++ bs).length < size) (hgives : s.Gives bs t)
      (hdata : t.data = []) (hlive : s.live = false) :
      ReceiveOutcome limit got s (.error shortError) (got ++ bs) t
  | failed {e : LinkError} {bs : Bytes} {t : Source} (hgives : s.Gives bs t) (hsmooth : ¬ s.IsSmooth) :
      ReceiveOutcome limit got s (.error e) (got ++ bs) t
  | waits {bs : Bytes} {t : Source} (hlength : (got ++ bs).length < size) (hgives : s.Gives bs t)
      (hsmooth : s.IsSmooth → t.data = [] ∧ s.live = true) (hprompt : ¬ s.IsPrompt) :
      ReceiveOutcome limit got s .waiting (got ++ bs) t

theorem receive_outcome {limit : Option Nat} {got got' : Bytes} {s t : Source} {r : Attempt LinkError Header}
    (h : receive limit got s = (r, got', t)) (hgot : got.length ≤ size) :
    ReceiveOutcome limit got s r got' t := by
  rcases hc : (collect (size + Reader.interruptions s + 1) got s : Attempt IoError Unit × Bytes × Source)
    with ⟨q, got₁, u⟩
  have hreads : size - got.length + s.failures < size + Reader.interruptions s + 1 := by
    change _ < size + s.failures + 1
    omega
  have hcollect := collect_outcome hc hgot hreads
  cases hcollect with
  | whole hlength hgives =>
      rename_i bs
      simp only [receive, hc, Prod.mk.injEq] at h
      obtain ⟨rfl, rfl, rfl⟩ := h
      cases hv : validate limit (decode (got ++ bs)) with
      | ok v => exact .passed hlength hgives (validate_eq_ok_iff.1 hv)
      | error e =>
          obtain ⟨reason, rfl⟩ := exists_reason_of_validate hv
          refine .refused hlength hgives fun hvalid => ?_
          rw [validate_eq_ok_iff.2 hvalid] at hv
          cases hv
  | short hlength hgives hdata hlive =>
      simp only [receive, hc, Prod.mk.injEq] at h
      obtain ⟨rfl, rfl, rfl⟩ := h
      exact .short hlength hgives hdata hlive
  | failed hgives hsmooth =>
      simp only [receive, hc, Prod.mk.injEq] at h
      obtain ⟨rfl, rfl, rfl⟩ := h
      exact .failed hgives hsmooth
  | waits hlength hgives hsmooth hprompt =>
      simp only [receive, hc, Prod.mk.injEq] at h
      obtain ⟨rfl, rfl, rfl⟩ := h
      exact .waits hlength hgives hsmooth hprompt

section

variable {limit : Option Nat} {got : Bytes} {s t : Source} {r : Attempt LinkError Header}

/-- Where the encoding of a header stands that passes, the header is read. -/
theorem receive_encode {h : Header} {rest : Bytes} (hr : receive limit [] s = (r, got, t)) (hsmooth : s.IsSmooth)
    (hvalid : h.IsValid limit) (hdata : s.data = h.encode ++ rest) : r = .ok h ∧ s.Gives h.encode t := by
  have hlength : h.encode.length = size := encode_length h
  have hdecode : ∀ {bs : Bytes}, bs.length = size → s.Gives bs t → bs = h.encode := by
    intro bs hbs hgives
    exact List.append_inj_left (hgives.data.symm.trans hdata) (hbs.trans hlength.symm)
  have htotal : s.data.length = size + rest.length := by rw [hdata, List.length_append, hlength]
  cases receive_outcome hr (Nat.zero_le _) with
  | passed hbs hgives _ =>
      obtain rfl := hdecode hbs hgives
      rw [List.nil_append]
      exact ⟨by rw [← List.append_nil h.encode, decode_encode_append], hgives⟩
  | refused hbs hgives hnot =>
      obtain rfl := hdecode hbs hgives
      rw [List.nil_append, ← List.append_nil h.encode, decode_encode_append] at hnot
      exact absurd hvalid hnot
  | short hbs hgives hnone _ =>
      have hlen := hgives.length
      simp only [List.nil_append, hnone, List.length_nil] at hbs hlen
      omega
  | failed _ hnot => exact absurd hsmooth hnot
  | waits hbs hgives hwait =>
      have hlen := hgives.length
      simp only [List.nil_append, (hwait hsmooth).1, List.length_nil] at hbs hlen
      omega

/-- Where nothing stands, reading a header waits if more may come and is cut short if not. -/
theorem receive_nil (hr : receive limit [] s = (r, got, t)) (hsmooth : s.IsSmooth) (hdata : s.data = []) :
    r = (if s.live then .waiting else .error shortError) ∧ got = [] ∧ s.Gives [] t := by
  have hnone : ∀ {bs : Bytes}, s.Gives bs t → bs = [] := by
    intro bs hgives
    exact (List.append_eq_nil_iff.1 (hgives.data.symm.trans hdata)).1
  cases receive_outcome hr (Nat.zero_le _) with
  | passed hbs hgives _ =>
      obtain rfl := hnone hgives
      cases hbs
  | refused hbs hgives _ =>
      obtain rfl := hnone hgives
      cases hbs
  | short hbs hgives _ hlive =>
      obtain rfl := hnone hgives
      exact ⟨by rw [hlive]; rfl, rfl, hgives⟩
  | failed _ hnot => exact absurd hsmooth hnot
  | waits hbs hgives hwait =>
      obtain rfl := hnone hgives
      exact ⟨by rw [(hwait hsmooth).2]; rfl, rfl, hgives⟩

end

theorem receive_gives {limit : Option Nat} {got got' : Bytes} {s t : Source} {r : Attempt LinkError Header}
    (h : receive limit got s = (r, got', t)) (hgot : got.length ≤ size) : ∃ bs, s.Gives bs t := by
  cases receive_outcome h hgot with
  | passed _ hgives _ => exact ⟨_, hgives⟩
  | refused _ hgives _ => exact ⟨_, hgives⟩
  | short _ hgives _ _ => exact ⟨_, hgives⟩
  | failed hgives _ => exact ⟨_, hgives⟩
  | waits _ hgives _ _ => exact ⟨_, hgives⟩

end FrameLink.Header
