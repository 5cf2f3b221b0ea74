import FrameLink.Proofs.Deflate.Cuts

/-! The parts of the data follow each other without a gap. A draft holds the tokens from where its part begins up to
where they end; finishing it adds a part to those that are done, and at the end of the data nothing is held back. -/

namespace FrameLink.Deflate

/-- The tokens of a draft say what the data says from its start on. -/
structure Draft.IsSound (d : Draft) (data : Array UInt8) : Prop where
  tokens : ∀ t ∈ d.tokens, t.IsSound
  applied : d.tokens.reverse.foldl Token.apply (data.extract 0 d.start) = data.extract 0 (d.start + d.size)
  fits : d.start + d.size ≤ data.size

/-- The parts that are done, the last one first, say what the data says up to a place. -/
structure IsCut (data : Array UInt8) (done : List Part) (upTo : Nat) : Prop where
  sound : Part.AreSound #[] done.reverse
  bytes : (done.reverse.flatMap Part.bytes).toArray = data.extract 0 upTo

section

variable {data : Array UInt8}

theorem Draft.isSound_start {start : Nat} (h : start ≤ data.size) : Draft.IsSound { start := start } data :=
  ⟨fun _ ht => (nomatch ht), rfl, h⟩

theorem Draft.IsSound.add {d : Draft} (h : d.IsSound data) {t : Token} (ht : t.Continues data (d.start + d.size)) :
    (d.add t).IsSound data := by
  refine ⟨?_, ?_, ?_⟩
  · intro t' ht'
    rcases List.mem_cons.1 ht' with rfl | ht'
    · exact ht.sound
    · exact h.tokens t' ht'
  · show (t :: d.tokens).reverse.foldl Token.apply (data.extract 0 d.start) =
      data.extract 0 (d.start + (d.size + t.size))
    rw [List.reverse_cons, List.foldl_append, h.applied, ← Nat.add_assoc]
    exact ht.applied
  · show d.start + (d.size + t.size) ≤ data.size
    rw [← Nat.add_assoc]
    exact ht.fits

theorem Draft.foldl_add_start (d : Draft) (ts : List Token) : (ts.foldl Draft.add d).start = d.start := by
  induction ts generalizing d with
  | nil => rfl
  | cons t ts ih => exact ih (d.add t)

theorem Draft.foldl_add_size (d : Draft) (ts : List Token) :
    (ts.foldl Draft.add d).size = d.size + (ts.map Token.size).sum := by
  induction ts generalizing d with
  | nil => rfl
  | cons t ts ih =>
      rw [List.foldl_cons, ih (d.add t), List.map_cons, List.sum_cons, ← Nat.add_assoc]
      rfl

theorem Draft.IsSound.addAll {d : Draft} (h : d.IsSound data) {ts : List Token}
    (hts : Token.Continue data (d.start + d.size) ts) : (ts.foldl Draft.add d).IsSound data := by
  induction ts generalizing d with
  | nil => exact h
  | cons t ts ih =>
      refine ih (h.add hts.1) ?_
      show Token.Continue data (d.start + (d.size + t.size)) ts
      rw [← Nat.add_assoc]
      exact hts.2

theorem areSound_concat {out : Array UInt8} {ps : List Part} {p : Part} (hps : Part.AreSound out ps)
    (hp : p.IsSound (out ++ (ps.flatMap Part.bytes).toArray)) : Part.AreSound out (ps ++ [p]) := by
  induction ps generalizing out with
  | nil =>
      rw [List.flatMap_nil, Array.append_empty] at hp
      exact ⟨hp, trivial⟩
  | cons q ps ih =>
      refine ⟨hps.1, ih hps.2 ?_⟩
      rwa [List.flatMap_cons, ← List.append_toArray, ← Array.append_assoc] at hp

theorem Draft.finish_bytes {d : Draft} (hfits : d.start + d.size ≤ data.size) (i hand : Nat) :
    (d.finish data i hand).bytes.toArray = data.extract d.start (d.start + d.size) ∧
      (d.finish data i hand).bytes.length = d.size := by
  refine ⟨rfl, ?_⟩
  show (data.extract d.start (d.start + d.size)).toList.length = d.size
  rw [Array.length_toList, Array.size_extract_of_le hfits, Nat.add_sub_cancel_left]

/-- Finishing a draft adds its part to those that are done. The bytes at hand are few enough to be stored. -/
theorem IsCut.finish {done : List Part} {d : Draft} (h : IsCut data done d.start) (hd : d.IsSound data) {i hand : Nat}
    (hi : d.start + d.size ≤ i) (hhand : hand < 65536) :
    IsCut data (d.finish data i hand :: done) (d.start + d.size) := by
  obtain ⟨hbytes, hlength⟩ := Draft.finish_bytes hd.fits i hand
  have hjoin : data.extract 0 d.start ++ data.extract d.start (d.start + d.size) =
      data.extract 0 (d.start + d.size) := by
    rw [Array.extract_append_extract, Nat.zero_min, Nat.max_eq_right (Nat.le_add_right _ _)]
  refine ⟨?_, ?_⟩
  · rw [List.reverse_cons]
    apply areSound_concat h.sound
    rw [h.bytes, Array.empty_append]
    refine ⟨?_, ?_, ?_⟩
    · intro t ht
      exact hd.tokens t (List.mem_reverse.1 ht)
    · rw [hbytes, hjoin]
      exact hd.applied
    · intro hstorable
      have hle : i - d.start ≤ hand := of_decide_eq_true hstorable
      omega
  · rw [List.reverse_cons, List.flatMap_append, List.flatMap_singleton, ← List.append_toArray, h.bytes, hbytes, hjoin]

theorem Token.IsSound.size_pos {t : Token} (h : t.IsSound) : 1 ≤ t.size := by
  cases t with
  | literal b => exact Nat.le_refl 1
  | copy length distance => exact Nat.le_trans (by decide) h.1

/-- What a cutting ends with: sound parts that say all of the data. -/
structure IsWhole (data : Array UInt8) (ps : List Part) : Prop where
  ne_nil : ps ≠ []
  sound : Part.AreSound #[] ps
  bytes : (ps.flatMap Part.bytes).toArray = data

theorem IsCut.isWhole {p : Part} {done : List Part} (h : IsCut data (p :: done) data.size) :
    IsWhole data (p :: done).reverse := by
  refine ⟨?_, h.sound, ?_⟩
  · rw [List.reverse_cons]
    exact List.concat_ne_nil _ _
  · rw [h.bytes, Array.extract_size]

theorem Held.le_of_bridges {held : Option Held} {upTo i : Nat} (h : Held.Bridges data upTo i held) : upTo ≤ i := by
  cases held with
  | none => exact Nat.le_of_eq h
  | some held => exact Nat.le_of_succ_le (Nat.le_of_eq h.1)

/-- Where everything has been looked at, no echo is held back: it would reach beyond the end. -/
theorem Held.eq_of_bridges {held : Option Held} {upTo i : Nat} (h : Held.Bridges data upTo i held)
    (hi : data.size ≤ i) : upTo = i := by
  cases held with
  | none => exact h
  | some held =>
      obtain ⟨rfl, -, htrue⟩ := h
      have hlong := htrue.long
      have hfits := htrue.fits
      omega

theorem isWhole_end {i : Nat} {held : Option Held} {draft : Draft} {done : List Part} (hi : i ≤ data.size)
    (hsize : data.size ≤ i) (hdone : IsCut data done draft.start) (hdraft : draft.IsSound data)
    (hheld : Held.Bridges data (draft.start + draft.size) i held) :
    IsWhole data (draft.finish data i (min i windowSize) :: done).reverse := by
  have hall : draft.start + draft.size = i := Held.eq_of_bridges hheld hsize
  have hhand : min i windowSize < 65536 := Nat.lt_of_le_of_lt (Nat.min_le_right _ _) (by decide)
  obtain rfl : i = data.size := Nat.le_antisymm hi hsize
  have hfinish := hdone.finish hdraft (Nat.le_of_eq hall) hhand
  rw [hall] at hfinish
  exact hfinish.isWhole

theorem isWhole_cutThoroughly (level : Nat) (steps : Nat) {i : Nat} (trail : Trail) {held : Option Held} {draft : Draft}
    {done : List Part} (hi : i ≤ data.size) (hsteps : data.size ≤ i + steps) (hdone : IsCut data done draft.start)
    (hdraft : draft.IsSound data) (hheld : Held.Bridges data (draft.start + draft.size) i held) :
    IsWhole data (cutThoroughly data level steps i trail held draft done) := by
  induction steps generalizing i trail held draft done with
  | zero => exact isWhole_end hi hsteps hdone hdraft hheld
  | succ steps ih =>
      rw [cutThoroughly]
      by_cases hlt : i < data.size
      · rw [if_pos hlt]
        dsimp only
        generalize trail.enter data (i + min maxCopy (data.size - i) - 2 - trail.entered) = trail'
        have hstep := goesOn_chooseTokens level trail' hlt hheld
        generalize chooseTokens data level i trail' held = step at hstep ⊢
        obtain ⟨tokens, n, held'⟩ := step
        have hdraft' := hdraft.addAll hstep.tokens
        have hstart := draft.foldl_add_start tokens
        have hheld' := hstep.held
        rw [Nat.add_assoc, ← draft.foldl_add_size, ← hstart] at hheld'
        have hpos : 1 ≤ n := hstep.pos
        have hshort : n ≤ 258 := hstep.short
        have hfits : i + n ≤ data.size := hstep.fits
        dsimp only
        generalize tokens.foldl Draft.add draft = draft' at hdraft' hstart hheld' ⊢
        rw [← hstart] at hdone
        by_cases hfull : (draft'.isFull || draft'.isPoor) = true
        · rw [if_pos hfull]
          -- What is at hand to be stored is a window and the last token.
          have hhand : min i (windowSize - min maxCopy (data.size - i)) + n < 65536 := by
            have hwindow : windowSize = 32768 := rfl
            omega
          exact ih trail' hfits (by omega) (hdone.finish hdraft' (Held.le_of_bridges hheld') hhand)
            (Draft.isSound_start hdraft'.fits) hheld'
        · rw [if_neg hfull]
          exact ih trail' hfits (by omega) hdone hdraft' hheld'
      · rw [if_neg hlt]
        exact isWhole_end hi (Nat.le_of_not_lt hlt) hdone hdraft hheld

theorem continues_hastyToken {i stop reach : Nat} {place : UInt16} (hi : i < data.size) (hstop : i + 4 ≤ stop)
    (hreach : reach ≤ i) (hnear : reach ≤ windowSize) : (hastyToken data i stop reach place).Continues data i := by
  simp only [hastyToken]
  generalize hdistance : backTo i place = distance
  generalize hn : (if distance = 0 ∨ reach < distance then 0 else agreement data i (i - distance) maxCopy) = n
  by_cases hshort : n < 3 ∨ n = 3 ∧ 8192 ≤ distance
  · rw [if_pos hshort]
    exact continues_literal hi
  · rw [if_neg hshort]
    have hlong : 3 ≤ n := Nat.le_of_not_lt (not_or.1 hshort).1
    by_cases hnowhere : distance = 0 ∨ reach < distance
    · rw [if_pos hnowhere] at hn
      omega
    · rw [if_neg hnowhere] at hn
      obtain ⟨hne, hreached⟩ := not_or.1 hnowhere
      have hle : distance ≤ reach := Nat.le_of_not_lt hreached
      have htrue : (Echo.mk (min n (stop - i)) distance).IsTrue data i := by
        apply isTrue_of_agreement (by omega) _ (Nat.le_refl maxCopy) (Nat.le_trans hle hnear)
          (Nat.le_trans hle hreach) hne
        rw [hn]
        exact Nat.min_le_left _ _
      exact htrue.continues

theorem isWhole_cutHastily (steps : Nat) {i : Nat} (last : Array UInt16) {draft : Draft} {done : List Part}
    (hi : i ≤ data.size) (hsteps : data.size ≤ i + steps) (hdone : IsCut data done draft.start)
    (hdraft : draft.IsSound data) (hall : draft.start + draft.size = i) :
    IsWhole data (cutHastily data steps i last draft done) := by
  induction steps generalizing i last draft done with
  | zero => exact isWhole_end hi hsteps hdone hdraft (show Held.Bridges data _ i none from hall)
  | succ steps ih =>
      rw [cutHastily]
      by_cases hlt : i < data.size
      · rw [if_pos hlt]
        dsimp only
        have hbefore : i / hastyPiece * hastyPiece ≤ i := Nat.div_mul_le_self i hastyPiece
        have hafter : i < i / hastyPiece * hastyPiece + hastyPiece := Nat.lt_div_mul_add (by decide)
        generalize i / hastyPiece * hastyPiece = start at hbefore hafter ⊢
        generalize hstop : min (start + hastyPiece) data.size = stop
        generalize hreach : min start (windowSize - (stop - start)) + (i - start) = reach
        have hpiece : hastyPiece = 4096 := rfl
        have hwindow : windowSize = 32768 := rfl
        have htoken : (if stop < i + 4 then Token.literal (data.getD i 0)
            else hastyToken data i stop reach (last.getD (hastyMix data i) 0)).Continues data i := by
          by_cases hnear : stop < i + 4
          · rw [if_pos hnear]
            exact continues_literal hlt
          · rw [if_neg hnear]
            exact continues_hastyToken hlt (Nat.le_of_not_lt hnear) (by omega) (by omega)
        generalize (if stop < i + 4 then Token.literal (data.getD i 0)
            else hastyToken data i stop reach (last.getD (hastyMix data i) 0)) = token at htoken ⊢
        generalize (if stop < i + 4 then last
            else last.setIfInBounds (hastyMix data i) i.toUInt16) = last'
        have hpos : 1 ≤ token.size := htoken.sound.size_pos
        have hdraft' : (draft.add token).IsSound data := hdraft.add (by rw [hall]; exact htoken)
        have hall' : (draft.add token).start + (draft.add token).size = i + token.size := by
          show draft.start + (draft.size + token.size) = i + token.size
          omega
        have hdone' : IsCut data done (draft.add token).start := hdone
        by_cases hfull : (draft.add token).isFull = true
        · rw [if_pos hfull]
          have hhand : min (reach + token.size) windowSize < 65536 :=
            Nat.lt_of_le_of_lt (Nat.min_le_right _ _) (by decide)
          exact ih last' htoken.fits (by omega) (hdone'.finish hdraft' (Nat.le_of_eq hall') hhand)
            (Draft.isSound_start hdraft'.fits) hall'
        · rw [if_neg hfull]
          exact ih last' htoken.fits (by omega) hdone' hdraft' hall'
      · rw [if_neg hlt]
        exact isWhole_end hi (Nat.le_of_not_lt hlt) hdone hdraft (show Held.Bridges data _ i none from hall)

/-- However the data is cut, it is cut into parts that say all of it. -/
theorem isWhole_cut (level : Nat) (data : Array UInt8) : IsWhole data (cut level data) := by
  have hnone : IsCut data [] 0 := ⟨trivial, by rw [Array.extract_zero]; rfl⟩
  have hstart : Draft.IsSound { start := 0 } data := Draft.isSound_start (Nat.zero_le _)
  have hsteps : data.size ≤ 0 + data.size := Nat.le_of_eq (Nat.zero_add _).symm
  unfold cut
  split
  · exact isWhole_cutHastily data.size _ (Nat.zero_le _) hsteps hnone hstart rfl
  · exact isWhole_cutThoroughly level data.size {} (Nat.zero_le _) hsteps hnone hstart rfl

end

end FrameLink.Deflate
