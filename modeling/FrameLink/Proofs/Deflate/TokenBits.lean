import FrameLink.Proofs.Deflate.Reaching
import Mathlib.Data.List.Chain

/-! Tokens can be read. The entries of the length and distance tables cover their range without gaps, so the place of
a value and its extra bits tell the value; and a token's bits bring a decoder that stands at a literal back to a
literal, with the token applied to its output. -/

namespace FrameLink.Deflate

/-- Neighbouring entries of a table: the values of the first reach at least up to the second. -/
def Follows (a b : Nat × Nat) : Prop :=
  a.1 < b.1 ∧ b.1 ≤ a.1 + 2 ^ a.2

instance (a b : Nat × Nat) : Decidable (Follows a b) :=
  inferInstanceAs (Decidable (_ ∧ _))

theorem countP_eq_zero_of_isChain {a : Nat × Nat} {table : List (Nat × Nat)} (hchain : (a :: table).IsChain Follows)
    {v : Nat} (hv : v < a.1) : (a :: table).countP (fun entry => entry.1 ≤ v) = 0 := by
  induction table generalizing a with
  | nil => simp [Nat.not_le.2 hv]
  | cons b table ih =>
      obtain ⟨hab, hrest⟩ := List.isChain_cons_cons.1 hchain
      rw [List.countP_cons, ih hrest (Nat.lt_trans hv hab.1)]
      simp [Nat.not_le.2 hv]

theorem exists_entry {a : Nat × Nat} {table : List (Nat × Nat)} (hchain : (a :: table).IsChain Follows) {v : Nat}
    (hfirst : a.1 ≤ v) (hlast : ∀ b, (a :: table).getLast? = some b → v < b.1 + 2 ^ b.2) :
    ∃ entry, (a :: table)[(a :: table).countP (fun entry => entry.1 ≤ v) - 1]? = some entry ∧ entry.1 ≤ v ∧
      v < entry.1 + 2 ^ entry.2 := by
  induction table generalizing a with
  | nil =>
      refine ⟨a, ?_, hfirst, hlast a rfl⟩
      simp [hfirst]
  | cons b table ih =>
      obtain ⟨hab, hrest⟩ := List.isChain_cons_cons.1 hchain
      have hcount : (a :: b :: table).countP (fun entry => decide (entry.1 ≤ v)) =
          (b :: table).countP (fun entry => decide (entry.1 ≤ v)) + 1 := by
        rw [List.countP_cons, if_pos (decide_eq_true hfirst)]
      rw [hcount, Nat.add_sub_cancel]
      by_cases hb : b.1 ≤ v
      · obtain ⟨entry, hget, hentry⟩ := ih hrest hb fun c hc => hlast c (by rwa [List.getLast?_cons_cons])
        refine ⟨entry, ?_, hentry⟩
        have hpos : 0 < (b :: table).countP fun entry => decide (entry.1 ≤ v) := by
          rw [List.countP_cons, if_pos (decide_eq_true hb)]
          exact Nat.succ_pos _
        obtain ⟨k, hk⟩ := Nat.exists_eq_succ_of_ne_zero (Nat.ne_of_gt hpos)
        rw [hk] at hget ⊢
        rwa [List.getElem?_cons_succ]
      · rw [countP_eq_zero_of_isChain hrest (Nat.lt_of_not_le hb)]
        exact ⟨a, rfl, hfirst, Nat.lt_of_lt_of_le (Nat.lt_of_not_le hb) hab.2⟩

theorem exists_length {length : Nat} (hle : 3 ≤ length) (hlt : length ≤ 258) :
    ∃ entry, lengthBases[placeOf lengthBases length]? = some entry ∧ entry.1 ≤ length ∧
      length < entry.1 + 2 ^ entry.2 := by
  have hchain : lengthBases.toList.IsChain Follows := by decide
  rw [placeOf, ← Array.getElem?_toList]
  apply exists_entry hchain hle
  intro b hb
  obtain rfl : (258, 0) = b := Option.some.inj hb
  show length < 258 + 2 ^ 0
  omega

theorem exists_distance {distance : Nat} (hle : 1 ≤ distance) (hlt : distance ≤ windowSize) :
    ∃ entry, distanceBases[placeOf distanceBases distance]? = some entry ∧ entry.1 ≤ distance ∧
      distance < entry.1 + 2 ^ entry.2 := by
  have hchain : distanceBases.toList.IsChain Follows := by decide
  rw [placeOf, ← Array.getElem?_toList]
  apply exists_entry hchain hle
  intro b hb
  obtain rfl : (24577, 13) = b := Option.some.inj hb
  show distance < 24577 + 2 ^ 13
  exact Nat.lt_of_le_of_lt hlt (by decide)

theorem extraBits_eq {table : Array (Nat × Nat)} {value : Nat} {entry : Nat × Nat}
    (h : table[placeOf table value]? = some entry) : extraBits table value = lowFirst entry.2 (value - entry.1) := by
  simp only [extraBits, Array.getD_eq_getD_getElem?, h, Option.getD_some]

/-- A copy that can be told: it is not too short or long, and does not go too far back. -/
def Token.IsSound : Token → Prop
  | .literal _ => True
  | .copy length distance => 3 ≤ length ∧ length ≤ 258 ∧ 1 ≤ distance ∧ distance ≤ windowSize

/-- The words of a token's symbols lead a reader to them. -/
structure Words.Serve (w : Words) (codes : Codes) (t : Token) : Prop where
  literal : codes.literals.Reads (w.literal t.literalSymbol) t.literalSymbol
  distance : ∀ s, t.distanceSymbol? = some s → codes.distances.Reads (w.distance s) s

namespace Decoder

theorem strip_congr {d e : Decoder} (hphase : d.phase = e.phase) (hfinal : d.final = e.final)
    (hoffset : d.offset = e.offset) (hout : d.out = e.out) : d.strip = e.strip := by
  obtain ⟨p, final, offset, k, out⟩ := d
  obtain ⟨q, final', offset', l, out'⟩ := e
  simp only at hphase hfinal hoffset hout
  subst hphase hfinal hoffset hout
  rfl

section

variable {d : Decoder} {codes : Codes} {w : Words}

theorem reaches_copyLength {length distance : Nat} (hle : 3 ≤ length) (hlt : length ≤ 258)
    (hword : codes.literals.Reads (w.literal (Token.copy length distance).literalSymbol)
      (Token.copy length distance).literalSymbol) :
    (d.symbols codes).Reaches (w.literal (Token.copy length distance).literalSymbol ++ extraBits lengthBases length)
      ((d.advance ((w.literal (Token.copy length distance).literalSymbol).length +
        (extraBits lengthBases length).length)).withLength codes length) := by
  obtain ⟨⟨base, bits⟩, hget, hbase, hbits⟩ := exists_length hle hlt
  rw [extraBits_eq hget, lowFirst_length]
  have hsymbol := reaches_literal (d := d.symbols codes) rfl hword.leads hword.ne_nil
  have hplace : (Token.copy length distance).literalSymbol - 257 = placeOf lengthBases length :=
    Nat.add_sub_cancel_left _ _
  have hge : ¬ (Token.copy length distance).literalSymbol < endOfBlock := by
    show ¬ 257 + _ < 256
    omega
  have hne : (Token.copy length distance).literalSymbol ≠ endOfBlock := by
    show 257 + _ ≠ 256
    omega
  simp only [onLiteral, if_neg hge, if_neg hne, hplace, hget] at hsymbol
  cases bits with
  | zero =>
      obtain rfl : base = length := by simp only [Nat.pow_zero] at hbits; omega
      rw [Nat.sub_self]
      exact hsymbol.trans (.refl _)
  | succ bits =>
      refine hsymbol.trans ?_
      have hnumber := reaches_lowFirst (d := ((d.symbols codes).advance
        (w.literal (Token.copy length distance).literalSymbol).length).expect (.length codes base) (bits + 1))
        (length - base) rfl (Nat.succ_pos _) (by simp only at hbits hbase; omega)
      refine hnumber.congr ?_
      have hlength : base + (0 + 1 * (length - base)) = length := by simp only at hbase; omega
      apply strip_congr
      · simp only [onNumber, withLength, hlength]
      · rfl
      · show ((d.offset + _) % 8 + (bits + 1)) % 8 = (d.offset + (_ + (bits + 1))) % 8
        omega
      · rfl

/-- The bits of a distance bring a decoder that knows the length of a copy to the next literal, with the copy carried
out. -/
theorem reaches_copyDistance {length distance : Nat} (hle : 1 ≤ distance) (hlt : distance ≤ windowSize)
    (hword : codes.distances.Reads (w.distance (placeOf distanceBases distance)) (placeOf distanceBases distance)) :
    (d.withLength codes length).Reaches
      (w.distance (placeOf distanceBases distance) ++ extraBits distanceBases distance)
      ((d.advance ((w.distance (placeOf distanceBases distance)).length +
        (extraBits distanceBases distance).length)).copy codes length distance) := by
  obtain ⟨⟨base, bits⟩, hget, hbase, hbits⟩ := exists_distance hle hlt
  rw [extraBits_eq hget, lowFirst_length]
  have hsymbol := reaches_distance (d := d.withLength codes length) rfl hword.leads hword.ne_nil
  simp only [onDistanceSymbol, hget] at hsymbol
  cases bits with
  | zero =>
      obtain rfl : base = distance := by simp only [Nat.pow_zero] at hbits; omega
      rw [Nat.sub_self]
      exact hsymbol.trans (.refl _)
  | succ bits =>
      refine hsymbol.trans ?_
      have hnumber := reaches_lowFirst (d := ((d.withLength codes length).advance
        (w.distance (placeOf distanceBases distance)).length).expect (.distance codes length base) (bits + 1))
        (distance - base) rfl (Nat.succ_pos _) (by simp only at hbits hbase; omega)
      refine hnumber.congr ?_
      have hdistance : base + (0 + 1 * (distance - base)) = distance := by simp only at hbase; omega
      simp only [onNumber, hdistance]
      apply strip_congr
      · rfl
      · rfl
      · show ((d.offset + _) % 8 + (bits + 1)) % 8 = (d.offset + (_ + (bits + 1))) % 8
        omega
      · rfl

def applied (d : Decoder) (t : Token) : Decoder :=
  { d with out := t.apply d.out }

theorem reaches_token {t : Token} (ht : t.IsSound) (hw : w.Serve codes t) :
    (d.symbols codes).Reaches (t.bits w) (((d.advance (t.bits w).length).applied t).symbols codes) := by
  cases t with
  | literal b =>
      have hsymbol := reaches_literal (d := d.symbols codes) rfl hw.literal.leads hw.literal.ne_nil
      have hlt : (Token.literal b).literalSymbol < endOfBlock := b.toNat_lt
      rw [onLiteral, if_pos hlt] at hsymbol
      refine hsymbol.congr ?_
      have hbyte : ((Token.literal b).literalSymbol).toUInt8 = b := UInt8.ofNat_toNat
      rw [hbyte]
      rfl
  | copy length distance =>
      obtain ⟨hmin, hmax, hnear, hfar⟩ := ht
      refine ((reaches_copyLength hmin hmax hw.literal).trans
        (reaches_copyDistance hnear hfar (hw.distance _ rfl))).congr ?_
      rw [advance_advance]
      apply strip_congr
      · rfl
      · rfl
      · show (d.offset + _) % 8 = (d.offset + _) % 8
        simp only [Token.bits, List.length_append]
      · rfl

def appliedAll (d : Decoder) (ts : List Token) : Decoder :=
  { d with out := ts.foldl Token.apply d.out }

theorem tokenBits_cons (w : Words) (t : Token) (ts : List Token) :
    tokenBits w (t :: ts) = t.bits w ++ tokenBits w ts := by
  rw [tokenBits, tokenBits, List.flatMap_cons, List.append_assoc]

/-- The bits of some tokens and of the end of their block bring a decoder behind the block, with the tokens applied. -/
theorem reaches_tokenBits {ts : List Token} (hts : ∀ t ∈ ts, t.IsSound ∧ w.Serve codes t)
    (hend : codes.literals.Reads (w.literal endOfBlock) endOfBlock) :
    (d.symbols codes).Reaches (tokenBits w ts)
      ((d.advance (tokenBits w ts).length).appliedAll ts).endBlock := by
  induction ts generalizing d with
  | nil =>
      have hsymbol := reaches_literal (d := d.symbols codes) rfl hend.leads hend.ne_nil
      rw [onLiteral, if_neg (Nat.lt_irrefl _), if_pos rfl] at hsymbol
      exact hsymbol.congr strip_endBlock
  | cons t ts ih =>
      obtain ⟨hsound, hserve⟩ := hts t List.mem_cons_self
      rw [tokenBits_cons]
      refine (reaches_token hsound hserve).trans ?_
      refine (ih fun t' ht' => hts t' (List.mem_cons_of_mem _ ht')).congr ?_
      have hoffset : ((d.offset + (t.bits w).length) % 8 + (tokenBits w ts).length) % 8 =
          (d.offset + (t.bits w ++ tokenBits w ts).length) % 8 := by
        rw [List.length_append]
        omega
      simp only [advance, applied, appliedAll, hoffset, List.foldl_cons]

end

end Decoder

end FrameLink.Deflate
