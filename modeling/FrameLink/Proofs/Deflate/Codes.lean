import FrameLink.Deflate.Cutting
import Mathlib.Algebra.BigOperators.Group.List.Basic
import Mathlib.Data.List.Basic
import Mathlib.Data.Nat.Bitwise
import Mathlib.Tactic.Ring

/-! Canonical codes can be read. A codeword of length `n` stands for the next `2 ^ (15 - n)` leaves, so as long as
there are leaves enough no codeword begins another one; and a tree that incomparable words are inserted into
leads each of them to its own symbol. -/

namespace FrameLink.Deflate

theorem highFirst_length (n v : Nat) : (highFirst n v).length = n := by
  induction n with
  | zero => rfl
  | succ n ih => rw [highFirst, List.length_cons, ih]

theorem highFirst_add (n k v : Nat) : highFirst (n + k) v = highFirst n (v / 2 ^ k) ++ highFirst k v := by
  induction n with
  | zero => rw [Nat.zero_add]; rfl
  | succ n ih =>
      rw [Nat.add_right_comm, highFirst, highFirst, ih, List.cons_append, Nat.testBit_div_two_pow, Nat.add_comm n k]

theorem mod_eq_of_highFirst_eq {n v w : Nat} (h : highFirst n v = highFirst n w) : v % 2 ^ n = w % 2 ^ n := by
  have hbits : ∀ i, i < n → v.testBit i = w.testBit i := by
    induction n with
    | zero => intro i hi; omega
    | succ n ih =>
        intro i hi
        rw [highFirst, highFirst, List.cons.injEq] at h
        rcases Nat.lt_succ_iff_lt_or_eq.1 hi with hlt | rfl
        · exact ih h.2 i hlt
        · exact h.1
  apply Nat.eq_of_testBit_eq
  intro i
  rw [Nat.testBit_mod_two_pow, Nat.testBit_mod_two_pow]
  by_cases hi : i < n
  · rw [hbits i hi]
  · simp only [hi, decide_false, Bool.false_and]

def Incomparable (v w : List Bool) : Prop :=
  ¬ v <+: w ∧ ¬ w <+: v

namespace Tree

/-- The bits of a word lead from a tree down to the leaf of a symbol, and not before they end. -/
def Leads : Tree → List Bool → Nat → Prop
  | .leaf s, [], symbol => s = symbol
  | .node zero one, bit :: bits, symbol => Leads (if bit then one else zero) bits symbol
  | _, _, _ => False

theorem leads_insert_self (t : Tree) (symbol : Nat) (w : List Bool) : (t.insert symbol w).Leads w symbol := by
  induction w generalizing t with
  | nil => rfl
  | cons b w ih =>
      cases t <;> cases b <;> exact ih _

theorem leads_insert_of_incomparable {t : Tree} {v w : List Bool} {s : Nat} (symbol : Nat) (h : t.Leads v s)
    (hvw : Incomparable v w) : (t.insert symbol w).Leads v s := by
  induction v generalizing t w with
  | nil => exact absurd List.nil_prefix hvw.1
  | cons b v ih =>
      cases w with
      | nil => exact absurd List.nil_prefix hvw.2
      | cons c w =>
          cases t with
          | none => cases h
          | leaf s' => cases h
          | node zero one =>
              have hrest : b = c → Incomparable v w := by
                rintro rfl
                exact ⟨fun k => hvw.1 (List.cons_prefix_cons.2 ⟨rfl, k⟩),
                  fun k => hvw.2 (List.cons_prefix_cons.2 ⟨rfl, k⟩)⟩
              cases b <;> cases c
              · exact ih h (hrest rfl)
              · exact h
              · exact h
              · exact ih h (hrest rfl)

theorem leads_foldl_of_incomparable {t : Tree} {v : List Bool} {s : Nat} {cs : List (Nat × List Bool)}
    (h : t.Leads v s) (hcs : ∀ c ∈ cs, Incomparable v c.2) :
    (cs.foldl (fun t c => t.insert c.1 c.2) t).Leads v s := by
  induction cs generalizing t with
  | nil => exact h
  | cons c cs ih =>
      apply ih (leads_insert_of_incomparable c.1 h (hcs c List.mem_cons_self))
      intro c' hc'
      exact hcs c' (List.mem_cons_of_mem _ hc')

theorem leads_foldl {t : Tree} {cs : List (Nat × List Bool)} (hcs : cs.Pairwise fun a b => Incomparable a.2 b.2)
    {c : Nat × List Bool} (hc : c ∈ cs) : (cs.foldl (fun t c => t.insert c.1 c.2) t).Leads c.2 c.1 := by
  induction cs generalizing t with
  | nil => cases hc
  | cons c' cs ih =>
      obtain ⟨hhead, htail⟩ := List.pairwise_cons.1 hcs
      rcases List.mem_cons.1 hc with rfl | hc
      · exact leads_foldl_of_incomparable (t := t.insert c.1 c.2) (leads_insert_self t c.1 c.2) hhead
      · exact ih htail hc

end Tree

theorem span_eq (n : Nat) : span n = 2 ^ (maxLength - n) :=
  Nat.one_shiftLeft _

theorem span_pos (n : Nat) : 0 < span n :=
  span_eq n ▸ Nat.two_pow_pos _

/-- Handing out codewords from `leaf` on, every word is the path to the first of its own leaves. -/
theorem mem_assign {leaf : Nat} {l : List (Nat × Nat)} {c : Nat × List Bool} (h : c ∈ assign leaf l) :
    ∃ n first, (c.1, n) ∈ l ∧ c.2 = highFirst n (first / span n) ∧ leaf ≤ first ∧
      first + span n ≤ leaf + (l.map fun p => span p.2).sum := by
  induction l generalizing leaf with
  | nil => cases h
  | cons p l ih =>
      obtain ⟨symbol, n⟩ := p
      rcases List.mem_cons.1 h with rfl | h
      · refine ⟨n, leaf, List.mem_cons_self, rfl, Nat.le_refl _, ?_⟩
        rw [List.map_cons, List.sum_cons]
        dsimp only
        omega
      · obtain ⟨n', first, hmem, hword, hle, hend⟩ := ih h
        refine ⟨n', first, List.mem_cons_of_mem _ hmem, hword, ?_, ?_⟩
        · exact Nat.le_trans (Nat.le_add_right _ _) hle
        · rw [List.map_cons, List.sum_cons]
          dsimp only at hend ⊢
          omega

/-- Words that stand for different leaves, the first of them no longer than the second, are incomparable. -/
theorem incomparable_highFirst {n m a b : Nat} (hnm : n ≤ m) (hm : m ≤ maxLength) (hab : a + span n ≤ b)
    (hb : b + span m ≤ 2 ^ maxLength) : Incomparable (highFirst n (a / span n)) (highFirst m (b / span m)) := by
  have hspan := span_pos n
  have hspan' := span_pos m
  have hpow : 2 ^ n * span n = 2 ^ maxLength := by
    rw [span_eq, ← Nat.pow_add]
    congr 1
    omega
  have hle : a / span n + 1 ≤ b / span n := by
    rw [← Nat.add_div_right a hspan]
    exact Nat.div_le_div_right hab
  have hlt : b / span n < 2 ^ n := by
    rw [Nat.div_lt_iff_lt_mul hspan, hpow]
    omega
  have hne : highFirst n (a / span n) ≠ highFirst n (b / span n) := by
    intro heq
    have hmod := mod_eq_of_highFirst_eq heq
    rw [Nat.mod_eq_of_lt hlt, Nat.mod_eq_of_lt (by omega)] at hmod
    omega
  -- At the depth of the shorter word the two paths already differ.
  have hsplit : highFirst m (b / span m) = highFirst n (b / span n) ++ highFirst (m - n) (b / span m) := by
    have hdiv : b / span m / 2 ^ (m - n) = b / span n := by
      rw [Nat.div_div_eq_div_mul, span_eq, span_eq, ← Nat.pow_add]
      congr 2
      omega
    rw [← hdiv, ← highFirst_add]
    congr 1
    omega
  have hfirst : ¬ highFirst n (a / span n) <+: highFirst m (b / span m) := by
    intro h
    rw [hsplit] at h
    apply hne
    exact List.prefix_of_prefix_length_le h (List.prefix_append _ _) (by rw [highFirst_length, highFirst_length])
      |>.eq_of_length (by rw [highFirst_length, highFirst_length])
  refine ⟨hfirst, fun h => hfirst ?_⟩
  have hlength := h.length_le
  rw [highFirst_length, highFirst_length] at hlength
  have heq := h.eq_of_length (by rw [highFirst_length, highFirst_length]; omega)
  exact heq ▸ List.prefix_refl _

theorem pairwise_assign {leaf : Nat} {l : List (Nat × Nat)} (hsorted : l.Pairwise fun a b => a.2 ≤ b.2)
    (hle : ∀ p ∈ l, p.2 ≤ maxLength) (hfit : leaf + (l.map fun p => span p.2).sum ≤ 2 ^ maxLength) :
    (assign leaf l).Pairwise fun a b => Incomparable a.2 b.2 := by
  induction l generalizing leaf with
  | nil => exact List.Pairwise.nil
  | cons p l ih =>
      obtain ⟨symbol, n⟩ := p
      obtain ⟨hhead, htail⟩ := List.pairwise_cons.1 hsorted
      rw [List.map_cons, List.sum_cons] at hfit
      dsimp only at hfit
      have hfit' : leaf + span n + (l.map fun p => span p.2).sum ≤ 2 ^ maxLength := by omega
      apply List.Pairwise.cons
      · intro c hc
        obtain ⟨m, first, hmem, hword, hfirst, hend⟩ := mem_assign hc
        rw [hword]
        exact incomparable_highFirst (hhead _ hmem) (hle _ (List.mem_cons_of_mem _ hmem)) hfirst
          (Nat.le_trans hend hfit')
      · exact ih htail (fun p hp => hle p (List.mem_cons_of_mem _ hp)) hfit'

section

variable {lengths : List Nat}

theorem mem_ordered {symbol n : Nat} :
    (symbol, n) ∈ ordered lengths ↔ lengths[symbol]? = some n ∧ 0 < n ∧ n ≤ maxLength := by
  simp only [ordered, List.mem_flatMap, List.mem_range'_1, List.mem_map, List.mem_filter, decide_eq_true_eq,
    Prod.mk.injEq, Prod.exists, List.mem_zipIdx_iff_getElem?, maxLength]
  constructor
  · rintro ⟨m, hm, n', s', ⟨hget, rfl⟩, rfl, rfl⟩
    exact ⟨hget, by omega, by omega⟩
  · rintro ⟨hget, hpos, hle⟩
    exact ⟨n, ⟨by omega, by omega⟩, n, symbol, ⟨hget, rfl⟩, rfl, rfl⟩

theorem pairwise_ordered (lengths : List Nat) :
    (ordered lengths).Pairwise fun a b => a.1 ≠ b.1 ∧ a.2 ≤ b.2 := by
  rw [ordered, List.pairwise_flatMap]
  constructor
  · intro n _
    rw [List.pairwise_map]
    have hindex : lengths.zipIdx.Pairwise fun a b => a.2 < b.2 := by
      rw [← List.pairwise_map (f := Prod.snd), List.zipIdx_map_snd]
      exact List.pairwise_lt_range'
    apply (List.Pairwise.and_mem.1 (hindex.filter fun p => decide (p.1 = n))).imp
    rintro a b ⟨ha, hb, hlt⟩
    simp only [List.mem_filter, decide_eq_true_eq] at ha hb
    exact ⟨Nat.ne_of_lt hlt, Nat.le_of_eq (ha.2.trans hb.2.symm)⟩
  · apply (List.pairwise_lt_range' (s := 1) (n := maxLength)).imp
    intro n m hnm p hp q hq
    simp only [List.mem_map, List.mem_filter, decide_eq_true_eq, Prod.exists, List.mem_zipIdx_iff_getElem?] at hp hq
    obtain ⟨n', s, ⟨hs, rfl⟩, rfl⟩ := hp
    obtain ⟨m', t, ⟨ht, rfl⟩, rfl⟩ := hq
    refine ⟨?_, Nat.le_of_lt hnm⟩
    rintro rfl
    have heq := Option.some.inj (hs.symm.trans ht)
    omega

theorem sum_map_single {l : List Nat} (hl : l.Nodup) (x : Nat) (f : Nat → Nat) :
    (l.map fun n => if x = n then f n else 0).sum = if x ∈ l then f x else 0 := by
  induction l with
  | nil => rfl
  | cons m l ih =>
      obtain ⟨hm, hl⟩ := List.nodup_cons.1 hl
      rw [List.map_cons, List.sum_cons, ih hl]
      by_cases hx : x = m
      · subst hx
        rw [if_pos rfl, if_neg hm, if_pos List.mem_cons_self, Nat.add_zero]
      · rw [if_neg hx, Nat.zero_add]
        simp only [List.mem_cons, hx, false_or]

/-- The codewords handed out take no more leaves than the lengths ask for. -/
theorem sum_ordered_le (lengths : List Nat) : ((ordered lengths).map fun p => span p.2).sum ≤ leaves lengths := by
  have hcount : ((ordered lengths).map fun p => span p.2).sum =
      ((List.range' 1 maxLength).map fun n => lengths.count n * span n).sum := by
    rw [ordered, List.map_flatMap, List.flatMap_def, List.sum_flatten, List.map_map]
    congr 2
    funext n
    have hconst : ∀ q ∈ (lengths.zipIdx.filter fun p => decide (p.1 = n)).map fun p => span p.1, q = span n := by
      intro q hq
      simp only [List.mem_map, List.mem_filter, decide_eq_true_eq] at hq
      obtain ⟨p, ⟨-, hp⟩, rfl⟩ := hq
      rw [hp]
    have hlength : (lengths.zipIdx.filter fun p => decide (p.1 = n)).length = lengths.count n := by
      conv => rhs; rw [← List.zipIdx_map_fst 0 lengths]
      rw [List.count, List.countP_map, List.countP_eq_length_filter]
      rfl
    rw [Function.comp_apply, List.map_map]
    refine (congrArg List.sum (List.eq_replicate_of_mem hconst)).trans ?_
    rw [List.sum_replicate_nat, List.length_map, hlength]
  rw [hcount]
  clear hcount
  induction lengths with
  | nil => simp only [List.count_nil, Nat.zero_mul, List.map_const', List.sum_replicate_nat, Nat.mul_zero,
      leaves, List.foldr_nil, Nat.le_refl]
  | cons x lengths ih =>
      have hsplit : ((List.range' 1 maxLength).map fun n => (x :: lengths).count n * span n).sum =
          ((List.range' 1 maxLength).map fun n => lengths.count n * span n).sum +
            ((List.range' 1 maxLength).map fun n => if x = n then span n else 0).sum := by
        rw [← List.sum_map_add]
        congr 2
        funext n
        rw [List.count_cons, Nat.add_mul]
        by_cases hx : x = n <;> simp [hx]
      rw [hsplit, sum_map_single List.nodup_range', leaves, List.foldr_cons]
      have hsingle : (if x ∈ List.range' 1 maxLength then span x else 0) ≤ if x = 0 then 0 else span x := by
        by_cases hx : x = 0
        · subst hx
          rw [if_neg (by simp), if_pos rfl]
        · rw [if_neg hx]
          split
          · exact Nat.le_refl _
          · exact Nat.zero_le _
      rw [leaves] at ih
      omega

/-- A code that a decoder takes asks for no more leaves than there are. -/
theorem leaves_le_of_isUsable (h : Decoder.isUsable lengths = true) : leaves lengths ≤ 2 ^ maxLength := by
  simp only [Decoder.isUsable, isComplete, used, Bool.or_eq_true, Bool.and_eq_true, decide_eq_true_eq,
    List.all_eq_true] at h
  rcases h with hcomplete | ⟨hused, -⟩
  · exact Nat.le_of_eq hcomplete
  · have hle : leaves lengths ≤ lengths.countP (0 < ·) * 2 ^ (maxLength - 1) := by
      clear hused
      induction lengths with
      | nil => exact Nat.le_refl _
      | cons n lengths ih =>
          rw [leaves, List.foldr_cons, List.countP_cons, Nat.add_mul, Nat.add_comm]
          apply Nat.add_le_add ih
          by_cases hn : n = 0
          · rw [if_pos hn]
            exact Nat.zero_le _
          · have hpow : span n ≤ 2 ^ (maxLength - 1) := span_eq n ▸ Nat.pow_le_pow_right (by decide) (by omega)
            simpa [hn, Nat.pos_of_ne_zero hn] using hpow
    calc leaves lengths ≤ lengths.countP (0 < ·) * 2 ^ (maxLength - 1) := hle
      _ ≤ 1 * 2 ^ (maxLength - 1) := Nat.mul_le_mul_right _ (of_decide_eq_true hused)
      _ ≤ 2 ^ maxLength := by decide

theorem getD_foldl_setIfInBounds {cs : List (Nat × List Bool)} (hcs : cs.Pairwise fun a b => a.1 ≠ b.1)
    {c : Nat × List Bool} (hc : c ∈ cs) {t : Array (List Bool)} (hlt : c.1 < t.size) :
    (cs.foldl (fun t c => t.setIfInBounds c.1 c.2) t).getD c.1 [] = c.2 := by
  have hkeep : ∀ {cs : List (Nat × List Bool)} {t : Array (List Bool)}, (∀ c' ∈ cs, c.1 ≠ c'.1) →
      (cs.foldl (fun t c => t.setIfInBounds c.1 c.2) t).getD c.1 [] = t.getD c.1 [] := by
    intro cs
    induction cs with
    | nil => exact fun _ => rfl
    | cons c' cs ih =>
        intro t hne
        rw [List.foldl_cons, ih fun c'' hc'' => hne c'' (List.mem_cons_of_mem _ hc'')]
        have hne' := hne c' List.mem_cons_self
        simp only [Array.getD_eq_getD_getElem?, Array.getElem?_setIfInBounds_ne (Ne.symm hne')]
  induction cs generalizing t with
  | nil => cases hc
  | cons c' cs ih =>
      obtain ⟨hhead, htail⟩ := List.pairwise_cons.1 hcs
      rw [List.foldl_cons]
      rcases List.mem_cons.1 hc with rfl | hc
      · rw [hkeep hhead]
        simp only [Array.getD_eq_getD_getElem?, Array.getElem?_setIfInBounds_self_of_lt hlt, Option.getD_some]
      · exact ih htail hc (by rwa [Array.size_setIfInBounds])

theorem map_fst_assign (leaf : Nat) (l : List (Nat × Nat)) : (assign leaf l).map Prod.fst = l.map Prod.fst := by
  induction l generalizing leaf with
  | nil => rfl
  | cons p l ih =>
      obtain ⟨symbol, n⟩ := p
      rw [assign, List.map_cons, List.map_cons, ih]

/-- A symbol has a word that leads from the root of a tree to it. -/
structure Tree.Reads (t : Tree) (w : List Bool) (symbol : Nat) : Prop where
  leads : t.Leads w symbol
  ne_nil : w ≠ []

/-- In a code with leaves enough every symbol with a length has a word. -/
theorem reads_wordTable (hleaves : leaves lengths ≤ 2 ^ maxLength) (hle : ∀ n ∈ lengths, n ≤ maxLength)
    {symbol : Nat} (hpos : 0 < lengths.getD symbol 0) :
    (Tree.ofLengths lengths).Reads ((wordTable lengths).getD symbol []) symbol := by
  obtain ⟨n, hget⟩ : ∃ n, lengths[symbol]? = some n := by
    cases hget : lengths[symbol]? with
    | none =>
        rw [List.getD_eq_getElem?_getD, hget] at hpos
        exact absurd hpos (Nat.lt_irrefl 0)
    | some n => exact ⟨n, rfl⟩
  rw [List.getD_eq_getElem?_getD, hget, Option.getD_some] at hpos
  have hordered : (symbol, n) ∈ ordered lengths :=
    mem_ordered.2 ⟨hget, hpos, hle n (List.mem_of_getElem? hget)⟩
  have hmem : symbol ∈ (codewords lengths).map Prod.fst := by
    rw [codewords, map_fst_assign]
    exact List.mem_map.2 ⟨(symbol, n), hordered, rfl⟩
  obtain ⟨⟨s, w⟩, hc, rfl⟩ := List.mem_map.1 hmem
  have hpairwise : (codewords lengths).Pairwise fun a b => Incomparable a.2 b.2 := by
    apply pairwise_assign ((pairwise_ordered lengths).imp And.right)
    · rintro ⟨s', m⟩ hm
      exact (mem_ordered.1 hm).2.2
    · rw [Nat.zero_add]
      exact Nat.le_trans (sum_ordered_le lengths) hleaves
  have hdistinct : (codewords lengths).Pairwise fun a b => a.1 ≠ b.1 := by
    rw [← List.pairwise_map (f := Prod.fst) (R := (· ≠ ·)), codewords, map_fst_assign, List.pairwise_map]
    exact (pairwise_ordered lengths).imp And.left
  have hlt : s < lengths.length := (List.getElem?_eq_some_iff.1 hget).1
  rw [wordTable, getD_foldl_setIfInBounds hdistinct hc (by rwa [Array.size_replicate])]
  refine ⟨Tree.leads_foldl hpairwise hc, ?_⟩
  obtain ⟨m, first, hm, hword, -⟩ := mem_assign hc
  rintro rfl
  have hlength := congrArg List.length hword
  rw [highFirst_length, List.length_nil] at hlength
  have hmpos := (mem_ordered.1 hm).2.1
  omega

end

end FrameLink.Deflate
