import FrameLink.Deflate.Encoder
import FrameLink.Proofs.Deflate.TokenBits

/-! The codes of a dynamic block reach the decoder. What the items for some lengths say is those lengths, whatever came
before them; the lengths of the first code are known once its places have been read, as only zeros are left out; and
cutting off zeros changes nothing about a code. -/

namespace FrameLink.Deflate

namespace LengthItem

/-- What an item makes of the lengths before it. -/
inductive Tells : List Nat → LengthItem → List Nat → Prop
  | length {before : List Nat} {n : Nat} (hle : n ≤ maxLength) : Tells before ⟨n, []⟩ (before ++ [n])
  | again {before : List Nat} {last n : Nat} (hlast : before.getLast? = some last) (hlt : n < 4) :
      Tells before ⟨16, lowFirst 2 n⟩ (before ++ List.replicate (n + 3) last)
  | zeros {before : List Nat} {n : Nat} (hlt : n < 8) :
      Tells before ⟨17, lowFirst 3 n⟩ (before ++ List.replicate (n + 3) 0)
  | manyZeros {before : List Nat} {n : Nat} (hlt : n < 128) :
      Tells before ⟨18, lowFirst 7 n⟩ (before ++ List.replicate (n + 11) 0)

/-- What items make of the lengths before them. -/
inductive TellAll : List Nat → List LengthItem → List Nat → Prop
  | nil {before : List Nat} : TellAll before [] before
  | cons {before between after : List Nat} {item : LengthItem} {items : List LengthItem}
      (hitem : Tells before item between) (hitems : TellAll between items after) : TellAll before (item :: items) after

theorem TellAll.append {before between after : List Nat} {items items' : List LengthItem}
    (h : TellAll before items between) (k : TellAll between items' after) : TellAll before (items ++ items') after := by
  induction h with
  | nil => exact k
  | cons hitem _ ih => exact .cons hitem (ih k)

theorem TellAll.single {before after : List Nat} {item : LengthItem} (h : Tells before item after) :
    TellAll before [item] after :=
  .cons h .nil

theorem tellAll_replicate {item : LengthItem} (unit : Nat) {value : Nat}
    (P : List Nat → Prop) (hstep : ∀ before, P before → Tells before item (before ++ List.replicate unit value))
    (hkeep : ∀ before, P before → P (before ++ List.replicate unit value)) (before : List Nat) (hbefore : P before)
    (times : Nat) :
    TellAll before (List.replicate times item) (before ++ List.replicate (times * unit) value) := by
  induction times generalizing before with
  | zero =>
      rw [Nat.zero_mul, List.replicate_zero, List.replicate_zero, List.append_nil]
      exact .nil
  | succ times ih =>
      rw [List.replicate_succ, Nat.succ_mul, Nat.add_comm, List.replicate_add, ← List.append_assoc]
      exact .cons (hstep before hbefore) (ih _ (hkeep before hbefore))

theorem tellAll_fewZeros (before : List Nat) {n : Nat} (hn : n < 138) :
    TellAll before (fewZeros n) (before ++ List.replicate n 0) := by
  unfold fewZeros
  split
  · have h := tellAll_replicate 1 (fun _ => True) (fun _ _ => Tells.length (Nat.zero_le _))
      (fun _ _ => trivial) before trivial n
    rwa [Nat.mul_one] at h
  · split
    · have h : Tells before ⟨17, lowFirst 3 (n - 3)⟩ _ := .zeros (by omega)
      rw [Nat.sub_add_cancel (by omega)] at h
      exact .single h
    · have h : Tells before ⟨18, lowFirst 7 (n - 11)⟩ _ := .manyZeros (by omega)
      rw [Nat.sub_add_cancel (by omega)] at h
      exact .single h

theorem tellAll_fewRepetitions {before : List Nat} {length n : Nat} (hle : length ≤ maxLength)
    (hlast : before.getLast? = some length) (hn : n < 6) :
    TellAll before (fewRepetitions length n) (before ++ List.replicate n length) := by
  unfold fewRepetitions
  split
  · have h := tellAll_replicate 1 (fun _ => True) (fun _ _ => Tells.length hle)
      (fun _ _ => trivial) before trivial n
    rwa [Nat.mul_one] at h
  · have h := Tells.again (n := n - 3) hlast (by omega)
    rw [Nat.sub_add_cancel (by omega)] at h
    exact .single h

theorem tellAll_ofRun (before : List Nat) {length n : Nat} (hle : length ≤ maxLength) (hn : 0 < n) :
    TellAll before (ofRun length n) (before ++ List.replicate n length) := by
  unfold ofRun
  split
  case isTrue hzero =>
    subst hzero
    have hmany := tellAll_replicate 138 (fun _ => True) (fun _ _ => Tells.manyZeros (n := 127) (by decide))
      (fun _ _ => trivial) before trivial (n / 138)
    have h := hmany.append (tellAll_fewZeros _ (Nat.mod_lt n (by decide)))
    rwa [List.append_assoc, ← List.replicate_add, Nat.div_add_mod'] at h
  case isFalse =>
    have hlast : ∀ {b : List Nat}, b.getLast? = some length →
        (b ++ List.replicate 6 length).getLast? = some length := by
      intro b _
      rw [List.getLast?_append, List.getLast?_replicate]
      rfl
    have hfirst : (before ++ [length]).getLast? = some length := List.getLast?_concat
    have hmany := tellAll_replicate 6 (fun b => b.getLast? = some length)
      (fun _ hb => Tells.again (n := 3) hb (by decide)) (fun _ hb => hlast hb) _ hfirst ((n - 1) / 6)
    have hafter : ∀ k, (before ++ [length] ++ List.replicate k length).getLast? = some length := by
      intro k
      rw [List.append_assoc, ← List.replicate_one, ← List.replicate_add, List.getLast?_append,
        List.getLast?_replicate, if_neg (by omega)]
      rfl
    have h := hmany.append (tellAll_fewRepetitions hle (hafter _) (Nat.mod_lt (n - 1) (by decide)))
    have hall : before ++ [length] ++ List.replicate ((n - 1) / 6 * 6) length ++
        List.replicate ((n - 1) % 6) length = before ++ List.replicate n length := by
      rw [List.append_assoc, List.append_assoc, ← List.replicate_add, Nat.div_add_mod', ← List.replicate_one,
        ← List.replicate_add, Nat.add_sub_cancel' hn]
    rw [hall] at h
    exact .cons (.length hle) h

theorem tellAll_ofLengthsAfter (before : List Nat) {length n : Nat} {rest : List Nat}
    (hle : ∀ l ∈ length :: rest, l ≤ maxLength) (hn : 0 < n) :
    TellAll before (ofLengthsAfter length n rest) (before ++ List.replicate n length ++ rest) := by
  induction rest generalizing before length n with
  | nil =>
      rw [List.append_nil]
      exact tellAll_ofRun before (hle length List.mem_cons_self) hn
  | cons next rest ih =>
      rw [ofLengthsAfter]
      by_cases hnext : next = length
      · subst hnext
        have h := ih before (fun l hl => hle l (List.mem_cons_of_mem _ hl)) (Nat.succ_pos n)
        rw [if_pos rfl]
        rwa [List.replicate_succ', ← List.append_assoc, List.append_assoc _ [next]] at h
      · rw [if_neg hnext]
        have h := ih (before ++ List.replicate n length) (fun l hl => hle l (List.mem_cons_of_mem _ hl)) Nat.one_pos
        rw [List.replicate_one, List.append_assoc _ [next]] at h
        exact (tellAll_ofRun before (hle length List.mem_cons_self) hn).append h

/-- The items for some lengths say these lengths. -/
theorem tellAll_ofLengths {lengths : List Nat} (hle : ∀ l ∈ lengths, l ≤ maxLength) :
    TellAll [] (ofLengths lengths) lengths := by
  cases lengths with
  | nil => exact .nil
  | cons length rest => exact tellAll_ofLengthsAfter [] hle Nat.one_pos

theorem Tells.length_lt {before after : List Nat} {item : LengthItem} (h : Tells before item after) :
    before.length < after.length := by
  cases h <;> simp only [List.length_append, List.length_replicate, List.length_singleton] <;> omega

theorem TellAll.length_le {before after : List Nat} {items : List LengthItem} (h : TellAll before items after) :
    before.length ≤ after.length := by
  induction h with
  | nil => exact Nat.le_refl _
  | cons hitem _ ih => exact Nat.le_trans (Nat.le_of_lt hitem.length_lt) ih

end LengthItem

theorem lowFirst_append (n m : Nat) {a : Nat} (b : Nat) (ha : a < 2 ^ n) :
    lowFirst n a ++ lowFirst m b = lowFirst (n + m) (a + 2 ^ n * b) := by
  induction n generalizing a with
  | zero =>
      rw [Nat.zero_add, Nat.pow_zero, Nat.one_mul, Nat.lt_one_iff.1 ha, Nat.zero_add]
      rfl
  | succ n ih =>
      have hpow : 2 ^ (n + 1) * b = 2 * (2 ^ n * b) := by rw [Nat.pow_succ, Nat.mul_comm _ 2, Nat.mul_assoc]
      have hlow : (a + 2 ^ (n + 1) * b).testBit 0 = a.testBit 0 := by
        rw [hpow, Nat.testBit_zero, Nat.testBit_zero, Nat.add_mul_mod_self_left]
      have hhigh : (a + 2 ^ (n + 1) * b) / 2 = a / 2 + 2 ^ n * b := by
        rw [hpow]
        omega
      rw [Nat.add_right_comm, lowFirst, lowFirst, List.cons_append, ih (by rw [Nat.pow_succ] at ha; omega), hlow, hhigh]

theorem trimZeros_append (least : Nat) (lengths : List Nat) :
    ∃ k, trimZeros least lengths ++ List.replicate k 0 = lengths := by
  have hzeros : ∀ n ∈ (lengths.drop least).reverse.takeWhile (· = 0), n = 0 := by
    intro n hn
    exact of_decide_eq_true (List.all_eq_true.1 List.all_takeWhile n hn)
  have hsplit : ((lengths.drop least).reverse.dropWhile (· = 0)).reverse ++
      ((lengths.drop least).reverse.takeWhile (· = 0)).reverse = lengths.drop least := by
    rw [← List.reverse_append, List.takeWhile_append_dropWhile, List.reverse_reverse]
  refine ⟨((lengths.drop least).reverse.takeWhile (· = 0)).length, ?_⟩
  rw [trimZeros, List.append_assoc, ← List.reverse_replicate, ← List.eq_replicate_of_mem hzeros, hsplit,
    List.take_append_drop]

theorem le_length_trimZeros {least : Nat} {lengths : List Nat} (h : least ≤ lengths.length) :
    least ≤ (trimZeros least lengths).length := by
  rw [trimZeros, List.length_append, List.length_take, Nat.min_eq_left h]
  exact Nat.le_add_right _ _

theorem length_trimZeros_le (least : Nat) (lengths : List Nat) : (trimZeros least lengths).length ≤ lengths.length := by
  obtain ⟨k, hk⟩ := trimZeros_append least lengths
  conv => rhs; rw [← hk, List.length_append]
  exact Nat.le_add_right _ _

theorem mem_of_mem_trimZeros {least n : Nat} {lengths : List Nat} (h : n ∈ trimZeros least lengths) : n ∈ lengths := by
  obtain ⟨k, hk⟩ := trimZeros_append least lengths
  rw [← hk]
  exact List.mem_append_left _ h

theorem getD_append_zeros (lengths : List Nat) (k symbol : Nat) :
    (lengths ++ List.replicate k 0).getD symbol 0 = lengths.getD symbol 0 := by
  simp only [List.getD_eq_getElem?_getD]
  by_cases h : symbol < lengths.length
  · rw [List.getElem?_append_left h]
  · rw [List.getElem?_append_right (Nat.le_of_not_lt h), List.getElem?_eq_none (Nat.le_of_not_lt h),
      List.getElem?_replicate]
    split <;> rfl

theorem getD_trimZeros (least : Nat) (lengths : List Nat) (symbol : Nat) :
    (trimZeros least lengths).getD symbol 0 = lengths.getD symbol 0 := by
  obtain ⟨k, hk⟩ := trimZeros_append least lengths
  conv => rhs; rw [← hk, getD_append_zeros]

theorem isUsable_append_zeros (lengths : List Nat) (k : Nat) :
    Decoder.isUsable (lengths ++ List.replicate k 0) = Decoder.isUsable lengths := by
  have hleaves : leaves (lengths ++ List.replicate k 0) = leaves lengths := by
    rw [leaves, leaves, List.foldr_append]
    congr 1
    induction k with
    | zero => rfl
    | succ k ih => rw [List.replicate_succ, List.foldr_cons, ih, if_pos rfl]
  have hused : used (lengths ++ List.replicate k 0) = used lengths := by
    simp [used, List.countP_replicate]
  have hall : (lengths ++ List.replicate k 0).all (· ≤ 1) = lengths.all (· ≤ 1) := by
    simp
  rw [Decoder.isUsable, Decoder.isUsable, isComplete, isComplete, hleaves, hused, hall]

theorem isUsable_trimZeros (least : Nat) (lengths : List Nat) :
    Decoder.isUsable (trimZeros least lengths) = Decoder.isUsable lengths := by
  obtain ⟨k, hk⟩ := trimZeros_append least lengths
  conv => rhs; rw [← hk, isUsable_append_zeros]

theorem length_frequency_count (size : Nat) (symbols : List Nat) : (Frequency.count size symbols).length = size := by
  have hsize : ∀ counts : Array Nat,
      (symbols.foldl (fun counts s => counts.modify s (· + 1)) counts).size = counts.size := by
    induction symbols with
    | nil => exact fun _ => rfl
    | cons s symbols ih =>
        intro counts
        rw [List.foldl_cons, ih, Array.size_modify]
  rw [Frequency.count, Array.length_toList, hsize, Array.size_replicate]

theorem length_frequency_lengths (limit : Nat) (counts : List Nat) :
    (Frequency.lengths limit counts).length = counts.length := by
  have hsize : ∀ (cs : List ((Nat × Nat) × Nat)) (out : Array Nat),
      (cs.foldl (fun out c => out.setIfInBounds c.1.2 c.2) out).size = out.size := by
    intro cs
    induction cs with
    | nil => exact fun _ => rfl
    | cons c cs ih =>
        intro out
        rw [List.foldl_cons, ih, Array.size_setIfInBounds]
  rw [Frequency.lengths, Array.length_toList, hsize, Array.size_replicate]

/-- What is known of codeword lengths that were given out. -/
structure Suits (limit size : Nat) (isTaken : List Nat → Bool) (symbols lengths : List Nat) : Prop where
  isTaken : isTaken lengths = true
  le : ∀ n ∈ lengths, n ≤ limit
  pos : ∀ s ∈ symbols, 0 < lengths.getD s 0
  length : lengths.length = size

theorem suits_of_suitable? {limit size : Nat} {isTaken : List Nat → Bool} {symbols lengths : List Nat}
    (h : suitable? limit size isTaken symbols = some lengths) : Suits limit size isTaken symbols lengths := by
  simp only [suitable?] at h
  split at h
  case isTrue hsuits =>
    obtain rfl := Option.some.inj h
    simp only [Bool.and_eq_true, List.all_eq_true, decide_eq_true_eq] at hsuits
    obtain ⟨⟨htaken, hle⟩, hpos⟩ := hsuits
    refine ⟨htaken, hle, ?_, ?_⟩
    · intro s hs
      have hlength := hpos s hs
      rwa [Array.getD_eq_getD_getElem?, List.getElem?_toArray, ← List.getD_eq_getElem?_getD] at hlength
    · rw [length_frequency_lengths, length_frequency_count]
  case isFalse => cases h

namespace Decoder

theorem strip_withLengths_congr {d e : Decoder} (hfinal : d.final = e.final) (hoffset : d.offset = e.offset)
    (hout : d.out = e.out) (first : Tree) (literals total : Nat) (lengths : Array Nat) :
    (d.withLengths first literals total lengths).strip = (e.withLengths first literals total lengths).strip := by
  obtain ⟨p, final, offset, k, out⟩ := d
  obtain ⟨q, final', offset', l, out'⟩ := e
  simp only at hfinal hoffset hout
  subst hfinal hoffset hout
  exact strip_withLengths first literals total lengths

section

variable {d : Decoder} {first : Tree} {literals : Nat} {words : Array (List Bool)}

/-- Where a word brings a decoder to a number of repetitions, the word and the number bring it to the lengths after
them. -/
theorem reaches_repeats {e : Decoder} {w : List Bool} {total value least bits n : Nat} {before : List Nat}
    (hsymbol : e.Reaches w ((d.advance w.length).expect (.repeats first literals total before.toArray value least) bits))
    (hbits : 0 < bits) (hn : n < 2 ^ bits) :
    e.Reaches (w ++ lowFirst bits n) ((d.advance (w ++ lowFirst bits n).length).withLengths first literals total
      (before ++ List.replicate (n + least) value).toArray) := by
  have hnumber := reaches_lowFirst (d := (d.advance w.length).expect
    (.repeats first literals total before.toArray value least) bits) n rfl hbits hn
  refine (hsymbol.trans hnumber).congr ?_
  simp only [onNumber, Nat.zero_add, Nat.one_mul, List.toArray_appendList, List.length_append, lowFirst_length]
  apply strip_withLengths_congr
  · rfl
  · show ((d.offset + w.length) % 8 + bits) % 8 = (d.offset + (w.length + bits)) % 8
    omega
  · rfl

theorem reaches_item {total : Nat} {before after : List Nat} {item : LengthItem} (htells : item.Tells before after)
    (hword : first.Reads (words.getD item.symbol []) item.symbol) (hlt : before.length < total) :
    (d.withLengths first literals total before.toArray).Reaches (words.getD item.symbol [] ++ item.extra)
      ((d.advance (words.getD item.symbol [] ++ item.extra).length).withLengths first literals total
        after.toArray) := by
  have hwaits : d.withLengths first literals total before.toArray =
      { d with phase := .lengthSymbol first first literals total before.toArray, depth := 0 } := by
    rw [withLengths, if_pos (by rwa [List.size_toArray])]
  have hsymbol := reaches_length (d := d.withLengths first literals total before.toArray) (by rw [hwaits]) hword.leads
    hword.ne_nil
  rw [hwaits] at hsymbol ⊢
  cases htells with
  | length hle =>
      dsimp only at hsymbol ⊢
      rw [onLengthSymbol, if_pos hle, List.push_toArray] at hsymbol
      rw [List.append_nil]
      apply hsymbol.congr
      apply strip_withLengths_congr <;> rfl
  | again hlast hlt =>
      dsimp only at hsymbol ⊢
      rw [onLengthSymbol, if_neg (by decide), if_pos rfl, List.back?_toArray, hlast] at hsymbol
      refine (reaches_repeats hsymbol (by decide) hlt).congr ?_
      apply strip_withLengths_congr <;> rfl
  | zeros hlt =>
      dsimp only at hsymbol ⊢
      rw [onLengthSymbol, if_neg (by decide), if_neg (by decide), if_pos rfl] at hsymbol
      refine (reaches_repeats hsymbol (by decide) hlt).congr ?_
      apply strip_withLengths_congr <;> rfl
  | manyZeros hlt =>
      dsimp only at hsymbol ⊢
      rw [onLengthSymbol, if_neg (by decide), if_neg (by decide), if_neg (by decide)] at hsymbol
      refine (reaches_repeats hsymbol (by decide) hlt).congr ?_
      apply strip_withLengths_congr <;> rfl

theorem reaches_items (literals : Nat) {before after : List Nat} {items : List LengthItem}
    (htell : LengthItem.TellAll before items after)
    (hwords : ∀ item ∈ items, first.Reads (words.getD item.symbol []) item.symbol) (hoffset : d.offset < 8) :
    (d.withLengths first literals after.length before.toArray).Reaches
      (items.flatMap fun item => words.getD item.symbol [] ++ item.extra)
      ((d.advance (items.flatMap fun item => words.getD item.symbol [] ++ item.extra).length).withLengths first
        literals after.length after.toArray) := by
  induction htell generalizing d with
  | nil =>
      apply strip_withLengths_congr
      · rfl
      · exact (Nat.mod_eq_of_lt hoffset).symm
      · rfl
  | cons hitem hitems ih =>
      rw [List.flatMap_cons]
      have hlt := Nat.lt_of_lt_of_le hitem.length_lt hitems.length_le
      refine (reaches_item hitem (hwords _ List.mem_cons_self) hlt).trans ?_
      refine (ih (fun item h => hwords item (List.mem_cons_of_mem _ h)) (Nat.mod_lt _ (by decide))).congr ?_
      rw [advance_advance, ← List.length_append]

/-- The lengths of the first code bring a decoder to the lengths of the other two. -/
theorem reaches_firstLengths (literals distances : Nat) {f : Nat → Nat} (hf : ∀ place, f place < 8) {places : List Nat}
    (hplaces : places ≠ []) {known : List (Nat × Nat)} {lengths : List Nat}
    (hknown : (List.range 19).map (lengthAt ((places.map fun p => (p, f p)).reverse ++ known)) = lengths)
    (hcomplete : isComplete lengths = true) :
    (d.expect (.firstLength literals distances places known) 3).Reaches (places.flatMap fun p => lowFirst 3 (f p))
      ((d.advance (places.flatMap fun p => lowFirst 3 (f p)).length).withLengths (Tree.ofLengths lengths) literals
        (literals + distances) #[]) := by
  induction places generalizing d known with
  | nil => exact absurd rfl hplaces
  | cons place places ih =>
      have hnumber := reaches_lowFirst (d := d.expect (.firstLength literals distances (place :: places) known) 3)
        (f place) rfl (by decide) (hf place)
      rw [Nat.zero_add, Nat.one_mul] at hnumber
      rw [List.flatMap_cons]
      cases places with
      | nil =>
          simp only [onNumber] at hnumber
          have hlast : (List.range 19).map (lengthAt ((place, f place) :: known)) = lengths := hknown
          rw [hlast, if_pos hcomplete] at hnumber
          rw [List.flatMap_nil, List.append_nil, lowFirst_length]
          apply hnumber.congr
          apply strip_withLengths_congr <;> rfl
      | cons next places =>
          refine hnumber.trans ?_
          rw [List.map_cons, List.reverse_cons, List.append_assoc, List.singleton_append] at hknown
          have hrest := ih (d := (d.expect (.firstLength literals distances (place :: next :: places) known) 3).advance 3)
            (List.cons_ne_nil _ _) hknown
          refine hrest.congr ?_
          rw [List.length_append, lowFirst_length]
          apply strip_withLengths_congr
          · rfl
          · show ((d.offset + 3) % 8 + _) % 8 = (d.offset + (3 + _)) % 8
            omega
          · rfl

theorem lengthAt_eq {known : List (Nat × Nat)} {f : Nat → Nat} (htrue : ∀ c ∈ known, c.2 = f c.1) {place : Nat}
    (hall : f place = 0 ∨ place ∈ known.map Prod.fst) : lengthAt known place = f place := by
  rw [lengthAt]
  cases hlookup : known.lookup place with
  | some n =>
      obtain ⟨front, back, rfl, -⟩ := List.lookup_eq_some_iff.1 hlookup
      exact htrue (place, n) (List.mem_append_right _ List.mem_cons_self)
  | none =>
      rcases hall with hzero | hmem
      · rw [hzero]
        rfl
      · obtain ⟨c, hc, rfl⟩ := List.mem_map.1 hmem
        have hne := List.lookup_eq_none_iff.1 hlookup c hc
        simp at hne

theorem mem_lengthOrder {place : Nat} (h : place < 19) : place ∈ lengthOrder := by
  revert place
  decide

/-- The places whose lengths are sent tell all lengths of the first code, since those left out are zero. -/
theorem map_lengthAt_sent {lengths : List Nat} (hlength : lengths.length = 19) (n : Nat)
    (hsent : ∀ place ∈ lengthOrder.drop n, lengths.getD place 0 = 0) :
    (List.range 19).map (lengthAt (((lengthOrder.take n).map fun place => (place, lengths.getD place 0)).reverse ++ [])) =
      lengths := by
  have hat : ∀ place ∈ List.range 19, lengthAt (((lengthOrder.take n).map fun place =>
      (place, lengths.getD place 0)).reverse ++ []) place = lengths.getD place 0 := by
    intro place hplace
    rw [List.append_nil]
    apply lengthAt_eq
    · intro c hc
      obtain ⟨place', -, rfl⟩ := List.mem_map.1 (List.mem_reverse.1 hc)
      rfl
    · have hmem := mem_lengthOrder (List.mem_range.1 hplace)
      rw [← List.take_append_drop n lengthOrder] at hmem
      rcases List.mem_append.1 hmem with htake | hdrop
      · right
        rw [List.map_reverse, List.mem_reverse, List.map_map]
        exact List.mem_map.2 ⟨place, htake, rfl⟩
      · exact .inl (hsent place hdrop)
  rw [List.map_congr_left hat]
  apply List.ext_getElem
  · rw [List.length_map, List.length_range, hlength]
  · intro place h h'
    rw [List.getElem_map, List.getElem_range, List.getD_eq_getElem?_getD, List.getElem?_eq_getElem h', Option.getD_some]

theorem reaches_sizes {left right sent : Nat} (hleft : 257 ≤ left ∧ left ≤ 286) (hright : 1 ≤ right ∧ right ≤ 30)
    (hsent : 4 ≤ sent ∧ sent ≤ 19) :
    (d.expect .sizes 14).Reaches (lowFirst 5 (left - 257) ++ lowFirst 5 (right - 1) ++ lowFirst 4 (sent - 4))
      ((d.advance 14).expect (.firstLength left right (lengthOrder.take sent) []) 3) := by
  rw [lowFirst_append 5 5 _ (by omega), lowFirst_append 10 4 _ (by omega)]
  refine (reaches_lowFirst (d := d.expect .sizes 14) _ rfl (by decide) (by omega)).congr ?_
  have hvalue : 0 + 1 * (left - 257 + 2 ^ 5 * (right - 1) + 2 ^ 10 * (sent - 4)) =
      (left - 257) + 32 * (right - 1) + 1024 * (sent - 4) := by omega
  rw [hvalue]
  simp only [onNumber]
  have hfirst : ((left - 257) + 32 * (right - 1) + 1024 * (sent - 4)) % 32 + 257 = left := by omega
  have hsecond : ((left - 257) + 32 * (right - 1) + 1024 * (sent - 4)) / 32 % 32 + 1 = right := by omega
  have hthird : ((left - 257) + 32 * (right - 1) + 1024 * (sent - 4)) / 1024 + 4 = sent := by omega
  rw [hfirst, hsecond, hthird, if_pos ⟨hleft.2, hright.2⟩]
  rfl

/-- The beginning of a dynamic block brings a decoder to its symbols. -/
theorem reaches_codesHeader {left right : List Nat} {header : List Bool} (h : codesHeader? left right = some header)
    (hleft : 257 ≤ left.length ∧ left.length ≤ 286) (hright : 1 ≤ right.length ∧ right.length ≤ 30)
    (hle : ∀ n ∈ left ++ right, n ≤ maxLength) (husable : isUsable left = true ∧ isUsable right = true) :
    (d.expect .sizes 14).Reaches header
      ((d.advance header.length).symbols ⟨Tree.ofLengths left, Tree.ofLengths right⟩) := by
  simp only [codesHeader?] at h
  split at h
  case h_1 => cases h
  case h_2 first hfirst =>
    obtain rfl := Option.some.inj h
    have hsuits := suits_of_suitable? hfirst
    generalize hsent : trimZeros 4 (lengthOrder.map fun place => first.getD place 0) = sent
    have hsize : 4 ≤ sent.length ∧ sent.length ≤ 19 := by
      rw [← hsent]
      have hlength : (lengthOrder.map fun place => first.getD place 0).length = 19 := List.length_map _
      exact ⟨le_length_trimZeros (by omega), Nat.le_trans (length_trimZeros_le 4 _) (Nat.le_of_eq hlength)⟩
    obtain ⟨k, hk⟩ := trimZeros_append 4 (lengthOrder.map fun place => first.getD place 0)
    rw [hsent] at hk
    have htake : (lengthOrder.take sent.length).map (fun place => first.getD place 0) = sent := by
      rw [List.map_take, ← hk, List.take_left]
    have hdrop : ∀ place ∈ lengthOrder.drop sent.length, first.getD place 0 = 0 := by
      intro place hplace
      have hmem := List.mem_map_of_mem (f := fun place => first.getD place 0) hplace
      rw [List.map_drop, ← hk, List.drop_left] at hmem
      exact List.eq_of_mem_replicate hmem
    have hshort : ∀ place, first.getD place 0 < 8 := by
      intro place
      rw [List.getD_eq_getElem?_getD]
      cases hget : first[place]? with
      | none => exact Nat.zero_lt_succ _
      | some n => exact Nat.lt_succ_of_le (hsuits.le n (List.mem_of_getElem? hget))
    have hplaces : lengthOrder.take sent.length ≠ [] := by
      intro hnil
      have hlength := congrArg List.length hnil
      rw [List.length_take, List.length_nil] at hlength
      have hnineteen : lengthOrder.length = 19 := rfl
      omega
    have hwords : ∀ item ∈ LengthItem.ofLengths (left ++ right),
        (Tree.ofLengths first).Reads ((wordTable first).getD item.symbol []) item.symbol := by
      intro item hitem
      apply reads_wordTable
      · exact Nat.le_of_eq (of_decide_eq_true hsuits.isTaken)
      · exact fun n hn => Nat.le_trans (hsuits.le n hn) (by decide)
      · exact hsuits.pos _ (List.mem_map_of_mem hitem)
    have hfirsts := reaches_firstLengths (d := d.advance 14) left.length right.length hshort hplaces
      (map_lengthAt_sent hsuits.length sent.length hdrop) hsuits.isTaken
    rw [← List.flatMap_map, htake, ← List.length_append] at hfirsts
    have hitems := reaches_items (d := (d.advance 14).advance (sent.flatMap (lowFirst 3)).length)
      left.length (LengthItem.tellAll_ofLengths hle) hwords (Nat.mod_lt _ (by decide))
    have hall := ((reaches_sizes (d := d) hleft hright hsize).trans hfirsts).trans hitems
    refine hall.congr ?_
    rw [withLengths, if_neg (by rw [List.size_toArray]; exact Nat.lt_irrefl _), if_pos List.size_toArray]
    simp only [List.take_left, List.drop_left, husable.1, husable.2, Bool.and_self, if_true]
    have hcount : ∀ a b, 14 + (a + b) = 5 + 5 + 4 + a + b := by omega
    rw [advance_advance, advance_advance, hcount]
    simp only [List.length_append, lowFirst_length]

end

end Decoder

end FrameLink.Deflate
