import FrameLink.Deflate.Encoder
import FrameLink.Proofs.Deflate.Parts

/-! What is deflated inflates to itself, at every level. -/

namespace FrameLink.Deflate

def spelled (bits : List Bool) : Nat :=
  bits.foldr (fun (b : Bool) n => 2 * n + b.toNat) 0

theorem spelled_lt (bits : List Bool) : spelled bits < 2 ^ bits.length := by
  induction bits with
  | nil => decide
  | cons b bits ih =>
      have hb : b.toNat ≤ 1 := Bool.toNat_le b
      show 2 * spelled bits + b.toNat < 2 ^ (bits.length + 1)
      rw [Nat.pow_succ]
      omega

theorem lowFirst_spelled {n : Nat} {bits : List Bool} (h : bits.length ≤ n) :
    lowFirst n (spelled bits) = bits ++ List.replicate (n - bits.length) false := by
  induction n generalizing bits with
  | zero =>
      obtain rfl := List.length_eq_zero_iff.1 (Nat.le_zero.1 h)
      rfl
  | succ n ih =>
      cases bits with
      | nil =>
          have hrest : lowFirst n (spelled []) = List.replicate n false := ih (Nat.zero_le n)
          rw [List.nil_append, List.length_nil, Nat.sub_zero, List.replicate_succ, ← hrest]
          rfl
      | cons b bits =>
          have hlow : (2 * spelled bits + b.toNat).testBit 0 = b := by
            cases b <;> simp [Nat.testBit_zero]
          have hhigh : (2 * spelled bits + b.toNat) / 2 = spelled bits := by
            have hb : b.toNat ≤ 1 := Bool.toNat_le b
            omega
          show lowFirst (n + 1) (2 * spelled bits + b.toNat) = _
          rw [lowFirst, hlow, hhigh, ih (Nat.le_of_succ_le_succ h), List.length_cons, Nat.succ_sub_succ, List.cons_append]

theorem bitsOf_byteOf {bits : List Bool} (h : bits.length ≤ 8) :
    bitsOf (byteOf bits) = bits ++ List.replicate (8 - bits.length) false := by
  have hlt : spelled bits < 2 ^ 8 := Nat.lt_of_lt_of_le (spelled_lt bits) (Nat.pow_le_pow_right (by decide) h)
  have hbyte : (byteOf bits).toNat = spelled bits := Nat.mod_eq_of_lt hlt
  rw [bitsOf, hbyte, lowFirst_spelled h]

/-- The packed bytes spell the bits, and zeros after them. -/
theorem bitsOfAll_packInto (out : Array UInt8) (bits : List Bool) :
    ∃ n, bitsOfAll (packInto out bits).toList = bitsOfAll out.toList ++ bits ++ List.replicate n false := by
  fun_induction packInto out bits with
  | case1 out =>
      refine ⟨0, ?_⟩
      rw [List.append_nil, List.replicate_zero, List.append_nil]
  | case2 out a b c d e f g h rest ih =>
      obtain ⟨n, hn⟩ := ih
      refine ⟨n, ?_⟩
      rw [hn, Array.toList_push, bitsOfAll_append, bitsOfAll_cons, 
        bitsOf_byteOf (show [a, b, c, d, e, f, g, h].length ≤ 8 from Nat.le_refl 8)]
      simp [bitsOfAll]
  | case3 out a rest hshort =>
      have hle : (a :: rest).length ≤ 8 := by
        match rest with
        | [] | [_] | [_, _] | [_, _, _] | [_, _, _, _] | [_, _, _, _, _] | [_, _, _, _, _, _]
        | [_, _, _, _, _, _, _] => simp
        | b :: c :: d :: e :: f :: g :: h :: i :: rest => exact absurd rfl (hshort b c d e f g h (i :: rest))
      refine ⟨8 - (a :: rest).length, ?_⟩
      rw [Array.toList_push, bitsOfAll_append, bitsOfAll_cons, bitsOf_byteOf hle]
      simp [bitsOfAll]

/-- Bits that bring a new decoder to its end inflate to what it has put out then, packed into bytes. -/
theorem inflate?_packInto {bits : List Bool} {e : Decoder} (h : ({} : Decoder).Reaches bits e)
    (hdone : e.phase = .done) : inflate? (packInto #[] bits).toList = some e.out.toList := by
  obtain ⟨n, hn⟩ := bitsOfAll_packInto #[] bits
  have hphase : (({} : Decoder).feedAll bits).phase = .done := h.phase_eq.trans hdone
  have hall : decoded (packInto #[] bits).toList = ({} : Decoder).feedAll bits := by
    rw [decoded, hn, Decoder.feedAll_append]
    exact Decoder.feedAll_of_hasStopped (Decoder.hasStopped_of_done hphase) _
  rw [inflate?_eq_some_iff, hall, h.out_eq]
  exact ⟨hphase, rfl⟩

theorem storedBlock_length (bytes : List UInt8) : (storedBlock 1 bytes).length = 39 + 8 * bytes.length := by
  simp only [storedBlock, List.length_cons, List.length_append, List.length_replicate, lowFirst_length, bitsOfAll_length]
  omega

theorem reaches_storedParts (parts : Nat) {bytes : List UInt8} (hparts : bytes.length < (parts + 1) * storedPiece)
    {d : Decoder} (hoffset : d.offset = 0) :
    ∃ e, (d.expect .block 3).Reaches (storedParts parts bytes) e ∧ e.phase = .done ∧ e.out = d.out ++ bytes.toArray := by
  have hpiece : storedPiece = 31745 := rfl
  induction parts generalizing bytes d with
  | zero =>
      have hone : 1 = (d.offset + 1) % 8 := by rw [hoffset]
      exact ⟨_, Decoder.reaches_storedBlock _ hone (by omega), rfl, rfl⟩
  | succ parts ih =>
      have hone : 1 = (d.offset + 1) % 8 := by rw [hoffset]
      rw [storedParts]
      by_cases hshort : bytes.length < storedPiece
      · rw [if_pos hshort]
        exact ⟨_, Decoder.reaches_storedBlock _ hone (by omega), rfl, rfl⟩
      · rw [if_neg hshort]
        have htake : (bytes.take storedPiece).length = storedPiece := by
          rw [List.length_take]
          exact Nat.min_eq_left (Nat.le_of_not_lt hshort)
        have hdrop : (bytes.drop storedPiece).length < (parts + 1) * storedPiece := by
          rw [List.length_drop]
          rw [Nat.succ_mul] at hparts
          omega
        have hlt : (bytes.take storedPiece).length < 65536 := by omega
        have hfirst := Decoder.reaches_storedBlock false hone hlt
        have hround : (d.offset + (false :: storedBlock 1 (bytes.take storedPiece)).length) % 8 = 0 := by
          rw [List.length_cons, storedBlock_length, htake, hoffset, hpiece]
        obtain ⟨e, hreaches, hdone, hout⟩ := ih hdrop (d := { d with
          final := false, offset := (d.offset + (false :: storedBlock 1 (bytes.take storedPiece)).length) % 8,
          out := d.out ++ (bytes.take storedPiece).toArray }) hround
        refine ⟨e, hfirst.trans hreaches, hdone, ?_⟩
        have hbytes : (bytes.take storedPiece).toArray ++ (bytes.drop storedPiece).toArray = bytes.toArray := by
          rw [List.append_toArray, List.take_append_drop]
        rw [hout, Array.append_assoc, hbytes]

theorem inflate?_deflate (level : Nat) (bytes : List UInt8) : inflate? (deflate level bytes) = some bytes := by
  have hreaches : ∃ e, ({} : Decoder).Reaches (if level = 0 then storedParts (bytes.length / storedPiece) bytes
      else Part.blocks 0 (cut level bytes.toArray)) e ∧ e.phase = .done ∧ e.out = bytes.toArray := by
    by_cases hlevel : level = 0
    · rw [if_pos hlevel]
      have hparts : bytes.length < (bytes.length / storedPiece + 1) * storedPiece := by
        rw [Nat.add_mul, Nat.one_mul]
        exact Nat.lt_div_mul_add (by decide)
      obtain ⟨e, hreaches, hdone, hout⟩ := reaches_storedParts (d := {}) _ hparts rfl
      exact ⟨e, hreaches, hdone, by rw [hout]; exact Array.empty_append⟩
    · rw [if_neg hlevel]
      have hwhole := isWhole_cut level bytes.toArray
      obtain ⟨e, hreaches, hdone, hout⟩ := Decoder.reaches_blocks (d := {}) hwhole.ne_nil hwhole.sound
      refine ⟨e, hreaches, hdone, ?_⟩
      rw [hout, hwhole.bytes]
      exact Array.empty_append
  obtain ⟨e, hreaches, hdone, hout⟩ := hreaches
  have hinflate := inflate?_packInto hreaches hdone
  rwa [hout] at hinflate

end FrameLink.Deflate
