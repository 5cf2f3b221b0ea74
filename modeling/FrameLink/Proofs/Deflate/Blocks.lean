import FrameLink.Proofs.Deflate.CodeLengths

/-! Blocks can be read. Whatever block is chosen for a part of the data, its bits bring a decoder that expects a block
behind it, with the bytes of the part put out; so the blocks of all parts bring a new decoder to its end. -/

namespace FrameLink.Deflate

theorem Token.IsSound.literalSymbol_lt {t : Token} (h : t.IsSound) : t.literalSymbol < 286 := by
  cases t with
  | literal b => exact Nat.lt_of_lt_of_le b.toNat_lt (by decide)
  | copy length distance =>
      obtain ⟨entry, hget, -⟩ := exists_length h.1 h.2.1
      have hlt : placeOf lengthBases length < 29 := (Array.getElem?_eq_some_iff.1 hget).1
      show 257 + placeOf lengthBases length < 286
      omega

theorem Token.IsSound.distanceSymbol_lt {t : Token} (h : t.IsSound) {s : Nat} (hs : t.distanceSymbol? = some s) :
    s < 30 := by
  cases t with
  | literal b => cases hs
  | copy length distance =>
      obtain rfl := Option.some.inj hs
      obtain ⟨entry, hget, -⟩ := exists_distance h.2.2.1 h.2.2.2
      exact (Array.getElem?_eq_some_iff.1 hget).1

/-- What the codeword lengths of a code have to be like for its words to be read. -/
structure IsReadable (lengths : List Nat) : Prop where
  leaves_le : leaves lengths ≤ 2 ^ maxLength
  le : ∀ n ∈ lengths, n ≤ maxLength

theorem IsReadable.reads {lengths : List Nat} (h : IsReadable lengths) {symbol : Nat}
    (hpos : 0 < lengths.getD symbol 0) :
    (Tree.ofLengths lengths).Reads ((wordTable lengths).getD symbol []) symbol :=
  reads_wordTable h.leaves_le h.le hpos

theorem isReadable_fixedLiterals : IsReadable fixedLiteralLengths :=
  ⟨by decide +kernel, by decide +kernel⟩

theorem isReadable_fixedDistances : IsReadable fixedDistanceLengths :=
  ⟨by decide +kernel, by decide +kernel⟩

theorem Words.serve_ofLengths {left right : List Nat} (hleft : IsReadable left) (hright : IsReadable right) {t : Token}
    (hliteral : 0 < left.getD t.literalSymbol 0)
    (hdistance : ∀ s, t.distanceSymbol? = some s → 0 < right.getD s 0) :
    (Words.ofLengths left right).Serve ⟨Tree.ofLengths left, Tree.ofLengths right⟩ t :=
  ⟨hleft.reads hliteral, fun s hs => hright.reads (hdistance s hs)⟩

theorem Words.reads_end {left : List Nat} (right : List Nat) (hleft : IsReadable left)
    (hpos : 0 < left.getD endOfBlock 0) :
    (Codes.mk (Tree.ofLengths left) (Tree.ofLengths right)).literals.Reads
      ((Words.ofLengths left right).literal endOfBlock)
      endOfBlock :=
  hleft.reads hpos

theorem getD_pos {lengths : List Nat} (hpos : ∀ n ∈ lengths, 0 < n) {symbol : Nat} (hlt : symbol < lengths.length) :
    0 < lengths.getD symbol 0 := by
  rw [List.getD_eq_getElem?_getD, List.getElem?_eq_getElem hlt]
  exact hpos _ (List.getElem_mem hlt)

theorem fixedLiteral_pos {symbol : Nat} (hlt : symbol < 288) : 0 < fixedLiteralLengths.getD symbol 0 :=
  getD_pos (by decide +kernel) (Nat.lt_of_lt_of_eq hlt (by decide +kernel))

theorem Words.serve_fixed {t : Token} (ht : t.IsSound) : Words.fixed.Serve fixedCodes t := by
  apply serve_ofLengths isReadable_fixedLiterals isReadable_fixedDistances
  · exact fixedLiteral_pos (Nat.lt_trans ht.literalSymbol_lt (by decide))
  · intro s hs
    have hlt : s < fixedDistanceLengths.length := Nat.lt_trans (ht.distanceSymbol_lt hs) (by decide)
    exact getD_pos (by decide) hlt

namespace Decoder

/-- The decoder behind a block of these bits, with that much put out. -/
def beyond (d : Decoder) (final : Bool) (bits : List Bool) (out : Array UInt8) : Decoder :=
  endBlock { d with final := final, offset := (d.offset + bits.length) % 8, out := out }

section

variable {d : Decoder} (final : Bool) {ts : List Token}

theorem reaches_kind (d : Decoder) (low high : Bool) :
    (d.expect .block 3).Reaches [final, low, high]
      ((d.advance 3).onNumber (final.toNat + 2 * low.toNat + 4 * high.toNat) .block) := by
  have hbits : [final, low, high] = lowFirst 3 (final.toNat + 2 * low.toNat + 4 * high.toNat) := by
    cases final <;> cases low <;> cases high <;> rfl
  rw [hbits]
  refine (reaches_lowFirst (d := d.expect .block 3) _ rfl (by decide) ?_).congr ?_
  · cases final <;> cases low <;> cases high <;> decide
  · rw [Nat.zero_add, Nat.one_mul]
    exact strip_onNumber _ _

theorem reaches_fixedBlock (hts : ∀ t ∈ ts, t.IsSound) :
    (d.expect .block 3).Reaches (final :: fixedBlock ts)
      (d.beyond final (final :: fixedBlock ts) (ts.foldl Token.apply d.out)) := by
  have hkind := reaches_kind final d true false
  have hcodes : (d.advance 3).onNumber (final.toNat + 2 * true.toNat + 4 * false.toNat) .block =
      symbols { d.advance 3 with final := final } fixedCodes := by
    cases final <;> simp [onNumber]
  rw [hcodes] at hkind
  have hend : fixedCodes.literals.Reads (Words.fixed.literal endOfBlock) endOfBlock :=
    Words.reads_end fixedDistanceLengths isReadable_fixedLiterals (fixedLiteral_pos (by decide))
  have htokens := reaches_tokenBits (d := { d.advance 3 with final := final })
    (fun t ht => ⟨hts t ht, Words.serve_fixed (hts t ht)⟩) hend
  refine (hkind.trans htokens).congr ?_
  have hoffset : ((d.offset + 3) % 8 + (tokenBits Words.fixed ts).length) % 8 =
      (d.offset + (final :: fixedBlock ts).length) % 8 := by
    simp only [fixedBlock, List.length_cons]
    omega
  simp only [beyond, advance, appliedAll, hoffset]

theorem reaches_dynamicBlock (hts : ∀ t ∈ ts, t.IsSound) {bits : List Bool} (h : dynamicBlock? ts = some bits) :
    (d.expect .block 3).Reaches (final :: bits) (d.beyond final (final :: bits) (ts.foldl Token.apply d.out)) := by
  simp only [dynamicBlock?, Option.bind_eq_bind, Option.bind_eq_some_iff] at h
  obtain ⟨literals, hliterals, distances, hdistances, header, hheader, hbits⟩ := h
  obtain rfl := Option.some.inj hbits
  have hsuitsLeft := suits_of_suitable? hliterals
  have hsuitsRight := suits_of_suitable? hdistances
  generalize hleft : trimZeros 257 literals = left at hheader ⊢
  generalize hright : trimZeros 1 distances = right at hheader ⊢
  have husable : isUsable left = true ∧ isUsable right = true := by
    rw [← hleft, ← hright, isUsable_trimZeros, isUsable_trimZeros]
    exact ⟨hsuitsLeft.isTaken, hsuitsRight.isTaken⟩
  have hle : (∀ n ∈ left, n ≤ maxLength) ∧ ∀ n ∈ right, n ≤ maxLength := by
    rw [← hleft, ← hright]
    exact ⟨fun n hn => hsuitsLeft.le n (mem_of_mem_trimZeros hn),
      fun n hn => hsuitsRight.le n (mem_of_mem_trimZeros hn)⟩
  have hreadableLeft : IsReadable left := ⟨leaves_le_of_isUsable husable.1, hle.1⟩
  have hreadableRight : IsReadable right := ⟨leaves_le_of_isUsable husable.2, hle.2⟩
  have hliteral : ∀ s ∈ ts.map Token.literalSymbol ++ [endOfBlock], 0 < left.getD s 0 := by
    intro s hs
    rw [← hleft, getD_trimZeros]
    exact hsuitsLeft.pos s hs
  have hserve : ∀ t ∈ ts, (Words.ofLengths left right).Serve ⟨Tree.ofLengths left, Tree.ofLengths right⟩ t := by
    intro t ht
    apply Words.serve_ofLengths hreadableLeft hreadableRight
    · exact hliteral _ (List.mem_append_left _ (List.mem_map_of_mem ht))
    · intro s hs
      rw [← hright, getD_trimZeros]
      exact hsuitsRight.pos s (List.mem_filterMap.2 ⟨t, ht, hs⟩)
  have hlengthLeft : 257 ≤ left.length ∧ left.length ≤ 286 := by
    rw [← hleft, ← hsuitsLeft.length]
    exact ⟨le_length_trimZeros (by rw [hsuitsLeft.length]; decide), length_trimZeros_le 257 literals⟩
  have hlengthRight : 1 ≤ right.length ∧ right.length ≤ 30 := by
    rw [← hright, ← hsuitsRight.length]
    exact ⟨le_length_trimZeros (by rw [hsuitsRight.length]; decide), length_trimZeros_le 1 distances⟩
  have hkind := reaches_kind final d false true
  have hsizes : (d.advance 3).onNumber (final.toNat + 2 * false.toNat + 4 * true.toNat) .block =
      expect { d.advance 3 with final := final } .sizes 14 := by
    cases final <;> simp [onNumber]
  rw [hsizes] at hkind
  have hcodes := reaches_codesHeader (d := { d.advance 3 with final := final }) hheader hlengthLeft hlengthRight
    (fun n hn => (List.mem_append.1 hn).elim (hle.1 n) (hle.2 n)) husable
  have hend := Words.reads_end right hreadableLeft (hliteral _ (List.mem_append_right _ List.mem_cons_self))
  have htokens := reaches_tokenBits (d := advance { d.advance 3 with final := final } header.length)
    (fun t ht => ⟨hts t ht, hserve t ht⟩) hend
  have hall := (hkind.trans hcodes).trans htokens
  rw [List.append_assoc] at hall
  refine hall.congr ?_
  have hoffset : (((d.offset + 3) % 8 + header.length) % 8 + (tokenBits (Words.ofLengths left right) ts).length) % 8 =
      (d.offset + (final :: false :: true :: (header ++ tokenBits (Words.ofLengths left right) ts)).length) % 8 := by
    simp only [List.length_cons, List.length_append]
    omega
  simp only [beyond, advance, appliedAll, hoffset]

/-- The rest of a byte brings a decoder to the length of a stored block. -/
theorem reaches_padding {n : Nat} (hphase : d.phase = .padding) (hoffset : d.offset + n + 1 = 8) :
    d.Reaches (List.replicate (n + 1) false) (expect { d with offset := 0 } .storedLength 32) := by
  induction n generalizing d with
  | zero =>
      have hrunning : d.hasStopped = false := by rw [hasStopped, hphase]
      have hzero : (d.offset + 1) % 8 = 0 := by omega
      rw [Reaches, List.replicate_one, feedAll_cons, feed_of_not_hasStopped hrunning]
      simp only [onBit, advance, hphase, hzero]
      rfl
  | succ n ih =>
      have hrunning : d.hasStopped = false := by rw [hasStopped, hphase]
      have hnext : (d.offset + 1) % 8 = d.offset + 1 := by omega
      have hne : d.offset + 1 ≠ 0 := Nat.succ_ne_zero _
      rw [Reaches, List.replicate_succ, feedAll_cons, feed_of_not_hasStopped hrunning]
      simp only [onBit, advance, hphase, hnext, if_neg hne]
      have hrest := ih (d := { d with phase := .padding, offset := d.offset + 1, depth := d.depth + 1 }) rfl
        (by show d.offset + 1 + n + 1 = 8; omega)
      exact Eq.trans hrest rfl

theorem reaches_storedBytes (bytes : List UInt8) (hoffset : d.offset < 8) :
    (d.stored bytes.length).Reaches (bitsOfAll bytes) (endBlock { d with out := d.out ++ bytes.toArray }) := by
  induction bytes generalizing d with
  | nil =>
      rw [List.length_nil, stored, if_pos rfl]
      exact .refl _
  | cons b bytes ih =>
      rw [bitsOfAll_cons, List.length_cons, stored, if_neg (Nat.succ_ne_zero _)]
      have hbyte := reaches_lowFirst (d := d.expect (.storedByte (bytes.length + 1)) 8) b.toNat rfl (by decide) b.toNat_lt
      have hnext : (onNumber ((d.expect (.storedByte (bytes.length + 1)) 8).advance 8) (0 + 1 * b.toNat)
          (.storedByte (bytes.length + 1))).strip = (stored { d with out := d.out.push b } bytes.length).strip := by
        have hsame : (d.offset + 8) % 8 = d.offset := by omega
        have hb : b.toNat.toUInt8 = b := UInt8.ofNat_toNat
        rw [Nat.zero_add, Nat.one_mul]
        simp only [onNumber, expect, advance, hsame, hb, Nat.add_sub_cancel]
        exact strip_stored bytes.length
      refine (hbyte.congr hnext).trans ?_
      have hout : d.out.push b ++ bytes.toArray = d.out ++ (b :: bytes).toArray := by
        rw [Array.push_eq_append, Array.append_assoc]
        simp
      rw [← hout]
      exact ih (d := { d with out := d.out.push b }) hoffset

theorem reaches_storedBlock {offset : Nat} (hoffset : offset = (d.offset + 1) % 8) {bytes : List UInt8}
    (hlt : bytes.length < 65536) :
    (d.expect .block 3).Reaches (final :: storedBlock offset bytes)
      (d.beyond final (final :: storedBlock offset bytes) (d.out ++ bytes.toArray)) := by
  have hkind := reaches_kind final d false false
  have hpadding : ((d.advance 3).onNumber (final.toNat + 2 * false.toNat + 4 * false.toNat) .block).Reaches
      (List.replicate ((14 - offset) % 8) false)
      (expect { d with final := final, offset := 0 } .storedLength 32) := by
    have hvalue : (d.advance 3).onNumber (final.toNat + 2 * false.toNat + 4 * false.toNat) .block =
        if (d.offset + 3) % 8 = 0 then expect { d.advance 3 with final := final } .storedLength 32
        else { d.advance 3 with final := final, phase := .padding } := by
      cases final <;> simp [onNumber, advance]
    rw [hvalue]
    by_cases hzero : (d.offset + 3) % 8 = 0
    · have hnone : (14 - offset) % 8 = 0 := by omega
      rw [if_pos hzero, hnone, advance, hzero]
      exact .refl _
    · obtain ⟨n, hn⟩ := Nat.exists_eq_succ_of_ne_zero (n := (14 - offset) % 8) (by omega)
      rw [if_neg hzero, hn]
      apply reaches_padding (d := { d.advance 3 with final := final, phase := .padding }) rfl
      show (d.offset + 3) % 8 + n + 1 = 8
      omega
  have hlength : (expect { d with final := final, offset := 0 } .storedLength 32).Reaches
      (lowFirst 16 bytes.length ++ lowFirst 16 (65535 - bytes.length))
      (stored { d with final := final, offset := 0 } bytes.length) := by
    rw [lowFirst_append 16 16 _ hlt]
    refine (reaches_lowFirst (d := expect { d with final := final, offset := 0 } .storedLength 32) _ rfl (by decide)
      (by omega)).congr ?_
    have hlow : (bytes.length + 2 ^ 16 * (65535 - bytes.length)) % 0x10000 = bytes.length := by omega
    have hhigh : (bytes.length + 2 ^ 16 * (65535 - bytes.length)) / 0x10000 = 65535 - bytes.length := by omega
    have hflipped : bytes.length + (65535 - bytes.length) = 0xffff := by omega
    rw [Nat.zero_add, Nat.one_mul]
    simp only [onNumber, expect, advance, hlow, hhigh, if_pos hflipped]
    exact strip_stored bytes.length
  have hbytes := reaches_storedBytes (d := { d with final := final, offset := 0 }) bytes
    (Nat.zero_lt_succ 7)
  have hall := ((hkind.trans hpadding).trans hlength).trans hbytes
  have hbits : [final, false, false] ++ List.replicate ((14 - offset) % 8) false ++
      (lowFirst 16 bytes.length ++ lowFirst 16 (65535 - bytes.length)) ++ bitsOfAll bytes =
        final :: storedBlock offset bytes := by
    simp only [storedBlock, List.cons_append, List.nil_append, List.append_assoc]
  rw [hbits] at hall
  refine hall.congr ?_
  have hround : (d.offset + (final :: storedBlock offset bytes).length) % 8 = 0 := by
    simp only [storedBlock, List.length_cons, List.length_append, List.length_replicate, lowFirst_length,
      bitsOfAll_length]
    omega
  simp only [beyond, hround]

end

end Decoder

/-- What a part has to be like after what has been put out: its tokens say its bytes, and it is short enough to be
stored if it may be. -/
structure Part.IsSound (p : Part) (out : Array UInt8) : Prop where
  tokens : ∀ t ∈ p.tokens, t.IsSound
  tells : p.tokens.foldl Token.apply out = out ++ p.bytes.toArray
  short : p.storable = true → p.bytes.length < 65536

/-- The parts that follow each other after what has been put out. -/
def Part.AreSound : Array UInt8 → List Part → Prop
  | _, [] => True
  | out, p :: ps => p.IsSound out ∧ Part.AreSound (out ++ p.bytes.toArray) ps

namespace Decoder

section

variable {d : Decoder}

theorem reaches_compressed {p : Part} (hp : p.IsSound d.out) (final : Bool) :
    (d.expect .block 3).Reaches (final :: p.compressed)
      (d.beyond final (final :: p.compressed) (d.out ++ p.bytes.toArray)) := by
  have hfixed := reaches_fixedBlock (d := d) final hp.tokens
  rw [hp.tells] at hfixed
  unfold Part.compressed
  split
  · exact hfixed
  · cases hdynamic : dynamicBlock? p.tokens with
    | none => exact hfixed
    | some bits =>
        have h := reaches_dynamicBlock (d := d) final hp.tokens hdynamic
        rwa [hp.tells] at h

theorem reaches_partBlock {p : Part} (hp : p.IsSound d.out) (final : Bool) :
    (d.expect .block 3).Reaches (p.block final d.offset)
      (d.beyond final (p.block final d.offset) (d.out ++ p.bytes.toArray)) := by
  simp only [Part.block]
  split
  case isTrue hstored =>
    exact reaches_storedBlock final rfl (hp.short (Bool.and_eq_true_iff.1 hstored).1)
  case isFalse => exact reaches_compressed hp final

/-- The blocks of all parts bring a decoder to its end. -/
theorem reaches_blocks {ps : List Part} (hps : ps ≠ []) (hsound : Part.AreSound d.out ps) :
    ∃ e, (d.expect .block 3).Reaches (Part.blocks d.offset ps) e ∧ e.phase = .done ∧
      e.out = d.out ++ (ps.flatMap Part.bytes).toArray := by
  induction ps generalizing d with
  | nil => exact absurd rfl hps
  | cons p ps ih =>
      obtain ⟨hp, hrest⟩ := hsound
      cases ps with
      | nil =>
          refine ⟨_, reaches_partBlock hp true, rfl, ?_⟩
          rw [List.flatMap_singleton]
          rfl
      | cons q ps =>
          obtain ⟨e, hreaches, hdone, hout⟩ := ih (d := { d with
            final := false, offset := (d.offset + (p.block false d.offset).length) % 8, out := d.out ++ p.bytes.toArray })
            (List.cons_ne_nil q ps) hrest
          refine ⟨e, (reaches_partBlock hp false).trans hreaches, hdone, ?_⟩
          have hall : ((p :: q :: ps).flatMap Part.bytes).toArray =
              p.bytes.toArray ++ ((q :: ps).flatMap Part.bytes).toArray := by
            rw [List.flatMap_cons, List.append_toArray]
          rw [hout, hall, ← Array.append_assoc]

end

end Decoder

end FrameLink.Deflate
