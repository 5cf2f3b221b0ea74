import FrameLink.Proofs.Deflate.Codes
import FrameLink.Proofs.Deflate.Feeding

/-! Where bits bring a decoder. Numbers bring it to the action on the number, and codewords to the action on their
symbol. How many bits of the current item have been taken makes no difference to what is decoded, and what an
action makes of a decoder depends on nothing but its output, its place in the byte and whether the block is the
last one. -/

namespace FrameLink.Deflate.Decoder

/-- The decoder but for the count of bits of the current item. -/
def strip (d : Decoder) : Decoder :=
  { d with depth := 0 }

section

variable {p q : Phase} {final : Bool} {offset k l : Nat} {out : Array UInt8}

theorem strip_endBlock : (endBlock ⟨p, final, offset, k, out⟩).strip = (endBlock ⟨q, final, offset, l, out⟩).strip := by
  cases final <;> rfl

theorem strip_stored (left : Nat) :
    (stored ⟨p, final, offset, k, out⟩ left).strip = (stored ⟨q, final, offset, l, out⟩ left).strip := by
  unfold stored
  split
  · exact strip_endBlock
  · rfl

theorem strip_withLengths (first : Tree) (literals total : Nat) (lengths : Array Nat) :
    (withLengths ⟨p, final, offset, k, out⟩ first literals total lengths).strip =
      (withLengths ⟨q, final, offset, l, out⟩ first literals total lengths).strip := by
  simp only [withLengths]
  split
  · rfl
  · split
    · split <;> rfl
    · rfl

theorem strip_onLengthSymbol (first : Tree) (literals total : Nat) (lengths : Array Nat) (symbol : Nat) :
    (onLengthSymbol ⟨p, final, offset, k, out⟩ first literals total lengths symbol).strip =
      (onLengthSymbol ⟨q, final, offset, l, out⟩ first literals total lengths symbol).strip := by
  unfold onLengthSymbol
  split
  · exact strip_withLengths first literals total _
  · split
    · split <;> rfl
    · split <;> rfl

theorem strip_onLiteral (codes : Codes) (symbol : Nat) :
    (onLiteral ⟨p, final, offset, k, out⟩ codes symbol).strip =
      (onLiteral ⟨q, final, offset, l, out⟩ codes symbol).strip := by
  unfold onLiteral
  split
  · rfl
  · split
    · exact strip_endBlock
    · split <;> rfl

theorem strip_onDistanceSymbol (codes : Codes) (length symbol : Nat) :
    (onDistanceSymbol ⟨p, final, offset, k, out⟩ codes length symbol).strip =
      (onDistanceSymbol ⟨q, final, offset, l, out⟩ codes length symbol).strip := by
  unfold onDistanceSymbol
  split <;> rfl

theorem strip_onNumber (value : Nat) (field : Field) :
    (onNumber ⟨p, final, offset, k, out⟩ value field).strip =
      (onNumber ⟨q, final, offset, l, out⟩ value field).strip := by
  cases field with
  | block =>
      simp only [onNumber]
      split
      · split <;> rfl
      all_goals rfl
  | storedLength =>
      simp only [onNumber]
      split
      · exact strip_stored _
      · rfl
  | storedByte left => exact strip_stored (left - 1)
  | sizes =>
      simp only [onNumber]
      split <;> rfl
  | firstLength literals distances places known =>
      simp only [onNumber]
      split
      · rfl
      · split
        · exact strip_withLengths _ _ _ _
        · rfl
      · rfl
  | repeats first literals total lengths length least => exact strip_withLengths first literals total _
  | length codes base => rfl
  | distance codes length base => rfl

end

theorem strip_onBit (p : Phase) (final : Bool) (offset k l : Nat) (out : Array UInt8) (bit : Bool) :
    (onBit ⟨p, final, offset, k, out⟩ bit).strip = (onBit ⟨p, final, offset, l, out⟩ bit).strip := by
  cases p with
  | number field missing value weight =>
      simp only [onBit]
      split
      · exact strip_onNumber _ field
      · rfl
  | padding =>
      simp only [onBit]
      split <;> rfl
  | lengthSymbol here first literals total lengths =>
      simp only [onBit]
      split
      · exact strip_onLengthSymbol first literals total lengths _
      all_goals rfl
  | literal here codes =>
      simp only [onBit]
      split
      · exact strip_onLiteral codes _
      all_goals rfl
  | distanceSymbol here codes length =>
      simp only [onBit]
      split
      · exact strip_onDistanceSymbol codes length _
      all_goals rfl
  | done => rfl
  | corrupt => rfl

theorem strip_feed (d : Decoder) (bit : Bool) : (d.feed bit).strip = (d.strip.feed bit).strip := by
  obtain ⟨p, final, offset, k, out⟩ := d
  have hstopped : (strip ⟨p, final, offset, k, out⟩).hasStopped = hasStopped ⟨p, final, offset, k, out⟩ := rfl
  rw [feed, feed, hstopped]
  split
  · rfl
  · exact strip_onBit p final _ _ _ out bit

theorem strip_feedAll (d : Decoder) (bits : List Bool) : (d.feedAll bits).strip = (d.strip.feedAll bits).strip := by
  induction bits generalizing d with
  | nil => rfl
  | cons b bits ih => rw [feedAll_cons, feedAll_cons, ih (d.feed b), strip_feed, ← ih (d.strip.feed b)]

/-- The bits bring the decoder `d` to `e`, but for the count of bits of the current item. -/
def Reaches (d : Decoder) (bits : List Bool) (e : Decoder) : Prop :=
  (d.feedAll bits).strip = e.strip

theorem Reaches.refl (d : Decoder) : Reaches d [] d :=
  rfl

theorem Reaches.trans {d e f : Decoder} {bits bits' : List Bool} (h : Reaches d bits e) (k : Reaches e bits' f) :
    Reaches d (bits ++ bits') f := by
  rw [Reaches, feedAll_append, strip_feedAll, h, ← strip_feedAll]
  exact k

theorem Reaches.congr {d e f : Decoder} {bits : List Bool} (h : Reaches d bits e) (k : e.strip = f.strip) :
    Reaches d bits f :=
  Eq.trans h k

theorem Reaches.phase_eq {d e : Decoder} {bits : List Bool} (h : Reaches d bits e) :
    (d.feedAll bits).phase = e.phase := by
  change (d.feedAll bits).strip = e.strip at h
  show (d.feedAll bits).strip.phase = e.strip.phase
  rw [h]

theorem Reaches.out_eq {d e : Decoder} {bits : List Bool} (h : Reaches d bits e) : (d.feedAll bits).out = e.out := by
  change (d.feedAll bits).strip = e.strip at h
  show (d.feedAll bits).strip.out = e.strip.out
  rw [h]

/-- The decoder some bits further on in its byte. -/
def advance (d : Decoder) (n : Nat) : Decoder :=
  { d with offset := (d.offset + n) % 8 }

theorem advance_advance (d : Decoder) (n m : Nat) : (d.advance n).advance m = d.advance (n + m) := by
  unfold advance
  congr 1
  show ((d.offset + n) % 8 + m) % 8 = (d.offset + (n + m)) % 8
  omega

theorem feed_of_not_hasStopped {d : Decoder} (h : d.hasStopped = false) (bit : Bool) :
    d.feed bit = onBit { d.advance 1 with depth := d.depth + 1 } bit := by
  rw [feed, h]
  rfl

/-- The bits of a number, lowest first, bring a decoder that reads it to the action on the number. -/
theorem reaches_lowFirst {d : Decoder} {field : Field} {n value weight : Nat} (v : Nat)
    (hphase : d.phase = .number field n value weight) (hn : 0 < n) (hv : v < 2 ^ n) :
    d.Reaches (lowFirst n v) ((d.advance n).onNumber (value + weight * v) field) := by
  induction n generalizing d value weight v with
  | zero => omega
  | succ n ih =>
      have hrunning : d.hasStopped = false := by rw [hasStopped, hphase]
      have hbit : (if v.testBit 0 then value + weight else value) = value + weight * (v % 2) := by
        rcases Nat.mod_two_eq_zero_or_one v with hmod | hmod <;> simp [Nat.testBit_zero, hmod]
      have hstep : d.feed (v.testBit 0) = if n = 0 then
            onNumber { d.advance 1 with depth := d.depth + 1 } (value + weight * (v % 2)) field
          else
            { d.advance 1 with
              phase := .number field n (value + weight * (v % 2)) (weight * 2), depth := d.depth + 1 } := by
        rw [feed_of_not_hasStopped hrunning]
        simp only [onBit, advance, hphase, hbit]
        by_cases hzero : n = 0
        · rw [if_pos (by omega), if_pos hzero]
        · rw [if_neg (by omega), if_neg hzero]
          rfl
      rw [lowFirst, Reaches, feedAll_cons, hstep]
      by_cases hzero : n = 0
      · subst hzero
        rw [if_pos rfl, Nat.mod_eq_of_lt (by omega : v < 2)]
        exact strip_onNumber _ field
      · rw [if_neg hzero]
        have hrest := ih (d := { d.advance 1 with
          phase := .number field n (value + weight * (v % 2)) (weight * 2), depth := d.depth + 1 }) (v / 2) rfl
          (Nat.pos_of_ne_zero hzero) (by rw [Nat.pow_succ] at hv; omega)
        have hvalue : value + weight * (v % 2) + weight * 2 * (v / 2) = value + weight * v := by
          calc value + weight * (v % 2) + weight * 2 * (v / 2) = value + weight * (v % 2 + 2 * (v / 2)) := by ring
            _ = value + weight * v := by rw [Nat.mod_add_div]
        rw [hvalue] at hrest
        refine Eq.trans hrest ?_
        have hoffset : ((d.offset + 1) % 8 + n) % 8 = (d.offset + (n + 1)) % 8 := by omega
        simp only [advance, hoffset]
        exact strip_onNumber _ field

/-- The bits of a word bring a decoder that walks down a tree to the action on the symbol that they lead to. -/
theorem reaches_word (walking : Tree → Phase) (act : Decoder → Nat → Decoder)
    (hrunning : ∀ (d : Decoder) t, d.phase = walking t → d.hasStopped = false)
    (hbit : ∀ (d : Decoder) t b, d.phase = walking t → d.onBit b = match t.child b with
      | .leaf s => act d s
      | .node zero one => { d with phase := walking (.node zero one) }
      | .none => d.fail)
    (hact : ∀ p q final offset k l out s,
      (act ⟨p, final, offset, k, out⟩ s).strip = (act ⟨q, final, offset, l, out⟩ s).strip)
    {d : Decoder} {t : Tree} {w : List Bool} {symbol : Nat} (hphase : d.phase = walking t)
    (hleads : t.Leads w symbol) (hw : w ≠ []) : d.Reaches w (act (d.advance w.length) symbol) := by
  induction w generalizing d t with
  | nil => exact absurd rfl hw
  | cons b w ih =>
      cases t with
      | none => cases hleads
      | leaf s => cases hleads
      | node zero one =>
          have hchild : (Tree.node zero one).child b = if b then one else zero := rfl
          have hleads' : Tree.Leads (if b then one else zero) w symbol := hleads
          rw [Reaches, feedAll_cons, feed_of_not_hasStopped (hrunning d _ hphase),
            hbit _ (.node zero one) b (by exact hphase), hchild]
          generalize (if b then one else zero) = next at hleads'
          cases w with
          | nil =>
              cases next with
              | none => cases hleads'
              | node _ _ => cases hleads'
              | leaf s =>
                  obtain rfl : s = symbol := hleads'
                  exact hact _ _ _ _ _ _ _ s
          | cons c w =>
              cases next with
              | none => cases hleads'
              | leaf _ => cases hleads'
              | node zero' one' =>
                  have hrest := ih (d := { d.advance 1 with phase := walking (.node zero' one'), depth := d.depth + 1 })
                    rfl hleads' (List.cons_ne_nil c w)
                  refine Eq.trans hrest ?_
                  have hoffset : ((d.offset + 1) % 8 + (c :: w).length) % 8 = (d.offset + (b :: c :: w).length) % 8 := by
                    simp only [List.length_cons]
                    omega
                  simp only [advance, hoffset]
                  exact hact _ _ _ _ _ _ _ symbol

section

variable {d : Decoder} {t : Tree} {codes : Codes} {w : List Bool} {symbol : Nat}

theorem reaches_literal (hphase : d.phase = .literal t codes) (hleads : t.Leads w symbol) (hw : w ≠ []) :
    d.Reaches w ((d.advance w.length).onLiteral codes symbol) := by
  apply reaches_word (fun t => .literal t codes) (fun d s => d.onLiteral codes s) _ _ _ hphase hleads hw
  · intro d t hphase
    rw [hasStopped, hphase]
  · rintro ⟨_, _, _, _, _⟩ t b rfl
    rfl
  · intro p q final offset k l out s
    exact strip_onLiteral codes s

theorem reaches_distance {length : Nat} (hphase : d.phase = .distanceSymbol t codes length)
    (hleads : t.Leads w symbol) (hw : w ≠ []) :
    d.Reaches w ((d.advance w.length).onDistanceSymbol codes length symbol) := by
  apply reaches_word (fun t => .distanceSymbol t codes length) (fun d s => d.onDistanceSymbol codes length s) _ _ _
    hphase hleads hw
  · intro d t hphase
    rw [hasStopped, hphase]
  · rintro ⟨_, _, _, _, _⟩ t b rfl
    rfl
  · intro p q final offset k l out s
    exact strip_onDistanceSymbol codes length s

theorem reaches_length {first : Tree} {literals total : Nat} {lengths : Array Nat}
    (hphase : d.phase = .lengthSymbol t first literals total lengths) (hleads : t.Leads w symbol) (hw : w ≠ []) :
    d.Reaches w ((d.advance w.length).onLengthSymbol first literals total lengths symbol) := by
  apply reaches_word (fun t => .lengthSymbol t first literals total lengths)
    (fun d s => d.onLengthSymbol first literals total lengths s) _ _ _ hphase hleads hw
  · intro d t hphase
    rw [hasStopped, hphase]
  · rintro ⟨_, _, _, _, _⟩ t b rfl
    rfl
  · intro p q final offset k l out s
    exact strip_onLengthSymbol first literals total lengths s

end

end FrameLink.Deflate.Decoder
