import FrameLink.Deflate.Decoder

/-! The decoder as a machine that bits are fed to. Bits may be fed in any pieces, a decoder that has stopped
ignores them, and what has been decoded is never taken back: what a decoder puts out for the beginning of some
bits is the beginning of what it puts out for all of them. -/

namespace FrameLink.Deflate

theorem bitsOfAll_append (bs cs : List UInt8) : bitsOfAll (bs ++ cs) = bitsOfAll bs ++ bitsOfAll cs :=
  List.flatMap_append

theorem bitsOfAll_cons (b : UInt8) (bs : List UInt8) : bitsOfAll (b :: bs) = bitsOf b ++ bitsOfAll bs :=
  List.flatMap_cons

theorem lowFirst_length (n v : Nat) : (lowFirst n v).length = n := by
  induction n generalizing v with
  | zero => rfl
  | succ n ih => rw [lowFirst, List.length_cons, ih]

theorem bitsOf_length (b : UInt8) : (bitsOf b).length = 8 :=
  lowFirst_length 8 b.toNat

theorem bitsOfAll_length (bs : List UInt8) : (bitsOfAll bs).length = 8 * bs.length := by
  induction bs with
  | nil => rfl
  | cons b bs ih =>
      rw [bitsOfAll_cons, List.length_append, bitsOf_length, ih, List.length_cons]
      omega

namespace Decoder

theorem feedAll_append (d : Decoder) (bs cs : List Bool) : d.feedAll (bs ++ cs) = (d.feedAll bs).feedAll cs :=
  List.foldl_append

theorem feedAll_cons (d : Decoder) (b : Bool) (bs : List Bool) : d.feedAll (b :: bs) = (d.feed b).feedAll bs :=
  rfl

theorem feed_of_hasStopped {d : Decoder} (h : d.hasStopped = true) (b : Bool) : d.feed b = d := by
  rw [feed, if_pos h]

theorem feedAll_of_hasStopped {d : Decoder} (h : d.hasStopped = true) (bs : List Bool) : d.feedAll bs = d := by
  induction bs with
  | nil => rfl
  | cons b bs ih => rw [feedAll_cons, feed_of_hasStopped h, ih]

theorem hasStopped_of_done {d : Decoder} (h : d.phase = .done) : d.hasStopped = true := by
  rw [hasStopped, h]

/-- The decoder `e` has put out all that `d` has, and perhaps more. -/
def Extends (d e : Decoder) : Prop :=
  d.out.toList <+: e.out.toList

theorem Extends.refl (d : Decoder) : Extends d d :=
  List.prefix_refl _

theorem Extends.trans {d e f : Decoder} (h : Extends d e) (k : Extends e f) : Extends d f :=
  List.IsPrefix.trans h k

theorem Extends.of_out_eq {d e : Decoder} (h : e.out = d.out) : Extends d e :=
  ⟨[], by rw [List.append_nil, h]⟩

@[simp] theorem endBlock_out (d : Decoder) : d.endBlock.out = d.out := by
  unfold endBlock
  split <;> rfl

@[simp] theorem stored_out (d : Decoder) (left : Nat) : (d.stored left).out = d.out := by
  unfold stored
  split
  · exact endBlock_out d
  · rfl

@[simp] theorem withLengths_out (d : Decoder) (first : Tree) (literals total : Nat) (lengths : Array Nat) :
    (d.withLengths first literals total lengths).out = d.out := by
  simp only [withLengths]
  split
  · rfl
  · split
    · split <;> rfl
    · rfl

@[simp] theorem onLengthSymbol_out (d : Decoder) (first : Tree) (literals total : Nat) (lengths : Array Nat)
    (symbol : Nat) : (d.onLengthSymbol first literals total lengths symbol).out = d.out := by
  unfold onLengthSymbol
  split
  · exact withLengths_out _ _ _ _ _
  · split
    · split <;> rfl
    · split <;> rfl

theorem copyBack_prefix (distance n : Nat) (out : Array UInt8) :
    out.toList <+: (copyBack distance n out).toList := by
  induction n generalizing out with
  | zero => exact List.prefix_refl _
  | succ n ih =>
      refine List.IsPrefix.trans ?_ (ih _)
      rw [Array.toList_push]
      exact List.prefix_append _ _

theorem extends_copy (d : Decoder) (codes : Codes) (length distance : Nat) :
    Extends d (d.copy codes length distance) :=
  copyBack_prefix distance length d.out

theorem extends_push (d : Decoder) (b : UInt8) : Extends d { d with out := d.out.push b } := by
  rw [Extends, Array.toList_push]
  exact List.prefix_append _ _

theorem extends_onLiteral (d : Decoder) (codes : Codes) (symbol : Nat) :
    Extends d (d.onLiteral codes symbol) := by
  unfold onLiteral
  split
  · exact extends_push d _
  · split
    · exact .of_out_eq (endBlock_out d)
    · split <;> exact .refl d

theorem extends_onDistanceSymbol (d : Decoder) (codes : Codes) (length symbol : Nat) :
    Extends d (d.onDistanceSymbol codes length symbol) := by
  unfold onDistanceSymbol
  split
  · exact extends_copy d codes length _
  · exact .refl d
  · exact .refl d

theorem extends_onNumber (d : Decoder) (value : Nat) (field : Field) : Extends d (d.onNumber value field) := by
  cases field with
  | block =>
      simp only [onNumber]
      split
      · split <;> exact .refl d
      all_goals exact .refl d
  | storedLength =>
      simp only [onNumber]
      split
      · exact .of_out_eq (stored_out d _)
      · exact .refl d
  | storedByte left =>
      refine .trans (extends_push d value.toUInt8) ?_
      exact .of_out_eq (stored_out { d with out := d.out.push value.toUInt8 } (left - 1))
  | sizes =>
      simp only [onNumber]
      split <;> exact .refl d
  | firstLength literals distances places known =>
      simp only [onNumber]
      split
      · exact .refl d
      · split
        · exact .of_out_eq (withLengths_out d _ _ _ _)
        · exact .refl d
      · exact .refl d
  | repeats first literals total lengths length least => exact .of_out_eq (withLengths_out d _ _ _ _)
  | length codes base => exact .refl d
  | distance codes length base => exact extends_copy d codes length _

theorem extends_onBit (d : Decoder) (bit : Bool) : Extends d (d.onBit bit) := by
  unfold onBit
  split
  · simp only
    split
    · exact extends_onNumber d _ _
    · exact .refl d
  · split <;> exact .refl d
  · split
    · exact .of_out_eq (onLengthSymbol_out d _ _ _ _ _)
    all_goals exact .refl d
  · split
    · exact extends_onLiteral d _ _
    all_goals exact .refl d
  · split
    · exact extends_onDistanceSymbol d _ _ _
    all_goals exact .refl d
  all_goals exact .refl d

theorem extends_feed (d : Decoder) (bit : Bool) : Extends d (d.feed bit) := by
  unfold feed
  split
  · exact .refl d
  · exact extends_onBit { d with offset := (d.offset + 1) % 8, depth := d.depth + 1 } bit

/-- What has been decoded is never taken back. -/
theorem extends_feedAll (d : Decoder) (bits : List Bool) : Extends d (d.feedAll bits) := by
  induction bits generalizing d with
  | nil => exact .refl d
  | cons b bs ih => exact (extends_feed d b).trans (ih (d.feed b))

end Decoder

/-- The decoder after all bits of a string of bytes. -/
def decoded (body : List UInt8) : Decoder :=
  ({} : Decoder).feedAll (bitsOfAll body)

theorem inflate?_eq_some_iff {body payload : List UInt8} :
    inflate? body = some payload ↔ (decoded body).phase = .done ∧ (decoded body).out.toList = payload := by
  simp only [inflate?]
  split
  case h_1 h => rw [decoded, h, Option.some.injEq, eq_self, true_and]
  case h_2 h => exact ⟨fun k => (by cases k), fun k => absurd k.1 h⟩

end FrameLink.Deflate
