import FrameLink.Proofs.Deflate.Blocks

/-! Data is cut without loss. Whatever trail a search follows, the echo that it finds is one, since it is compared byte
by byte; so every token continues the data from where the tokens before it end, also where an echo is held back. The
trail decides only how short the parts come out. -/

namespace FrameLink.Deflate

/-- An echo of the data from `i` on that a copy can tell. -/
structure Echo.IsTrue (e : Echo) (data : Array UInt8) (i : Nat) : Prop where
  long : 3 ≤ e.length
  short : e.length ≤ maxCopy
  behind : 1 ≤ e.distance
  near : e.distance ≤ windowSize
  within : e.distance ≤ i
  fits : i + e.length ≤ data.size
  same : ∀ k < e.length, data.getD (i + k) 0 = data.getD (i + k - e.distance) 0

/-- The token says what the data says from `i` on. -/
structure Token.Continues (t : Token) (data : Array UInt8) (i : Nat) : Prop where
  sound : t.IsSound
  fits : i + t.size ≤ data.size
  applied : t.apply (data.extract 0 i) = data.extract 0 (i + t.size)

section

variable {data : Array UInt8} {i : Nat}

theorem extract_push_getD (hi : i < data.size) :
    (data.extract 0 i).push (data.getD i 0) = data.extract 0 (i + 1) := by
  rw [Array.getD_eq_getD_getElem?, Array.getElem?_eq_getElem hi, Option.getD_some, Array.push_extract_getElem hi,
    Nat.zero_min]

theorem byteBack_extract {distance : Nat} (hnear : 1 ≤ distance) (hfar : distance ≤ i) (hi : i ≤ data.size) :
    Decoder.byteBack distance (data.extract 0 i) = data.getD (i - distance) 0 := by
  have hsize : (data.extract 0 i).size = i := by rw [Array.size_extract_of_le hi, Nat.sub_zero]
  rw [Decoder.byteBack, hsize, if_pos hfar, Array.getD_eq_getD_getElem?, Array.getD_eq_getD_getElem?,
    Array.getElem?_extract, if_pos (by omega), Nat.zero_add]

theorem copyBack_extract {distance n : Nat} (hnear : 1 ≤ distance) (hfar : distance ≤ i) (hfits : i + n ≤ data.size)
    (hsame : ∀ k < n, data.getD (i + k) 0 = data.getD (i + k - distance) 0) :
    Decoder.copyBack distance n (data.extract 0 i) = data.extract 0 (i + n) := by
  induction n generalizing i with
  | zero => rfl
  | succ n ih =>
      have hfirst := hsame 0 (Nat.succ_pos n)
      rw [Nat.add_zero] at hfirst
      rw [Decoder.copyBack, byteBack_extract hnear hfar (by omega), ← hfirst, extract_push_getD (by omega),
        ih (Nat.le_succ_of_le hfar) (by omega), Nat.succ_add]
      · rfl
      intro k hk
      have hnext := hsame (k + 1) (Nat.succ_lt_succ hk)
      rwa [Nat.add_comm k 1, ← Nat.add_assoc] at hnext

theorem continues_literal (hi : i < data.size) : (Token.literal (data.getD i 0)).Continues data i :=
  ⟨trivial, hi, extract_push_getD hi⟩

theorem Echo.IsTrue.continues {e : Echo} (h : e.IsTrue data i) :
    (Token.copy e.length e.distance).Continues data i :=
  ⟨⟨h.long, h.short, h.behind, h.near⟩, h.fits, copyBack_extract h.behind h.within h.fits h.same⟩

theorem agreement_le (data : Array UInt8) (i j most : Nat) : agreement data i j most ≤ most := by
  induction most generalizing i j with
  | zero => exact Nat.le_refl 0
  | succ most ih =>
      rw [agreement]
      split
      · exact Nat.succ_le_succ (ih (i + 1) (j + 1))
      · exact Nat.zero_le _

theorem agreement_same {j most k : Nat} (h : k < agreement data i j most) :
    i + k < data.size ∧ data.getD (i + k) 0 = data.getD (j + k) 0 := by
  induction most generalizing i j k with
  | zero => exact absurd h (Nat.not_lt_zero k)
  | succ most ih =>
      rw [agreement] at h
      split at h
      case isTrue hfirst =>
        cases k with
        | zero => exact hfirst
        | succ k =>
            have hrest := ih (Nat.lt_of_succ_lt_succ h)
            rwa [Nat.add_assoc, Nat.add_assoc, Nat.add_comm 1 k] at hrest
      case isFalse => exact absurd h (Nat.not_lt_zero k)

theorem guarded_agreement_le (i j most : Nat) :
    (if sameTwo data i j then agreement data i j most else 0) ≤ agreement data i j most := by
  split
  · exact Nat.le_refl _
  · exact Nat.zero_le _

theorem isTrue_of_agreement {distance most n : Nat} (hlong : 3 ≤ n) (hn : n ≤ agreement data i (i - distance) most)
    (hmost : most ≤ maxCopy) (hnear : distance ≤ windowSize) (hwithin : distance ≤ i) (hne : distance ≠ 0) :
    (Echo.mk n distance).IsTrue data i := by
  have hshort := Nat.le_trans hn (agreement_le data i (i - distance) most)
  refine ⟨hlong, Nat.le_trans hshort hmost, Nat.pos_of_ne_zero hne, hnear, hwithin, ?_, ?_⟩
  · have hlast := (agreement_same (k := n - 1) (by omega : n - 1 < agreement data i (i - distance) most)).1
    show i + n ≤ data.size
    omega
  · intro k hk
    have hsame := (agreement_same (Nat.lt_of_lt_of_le hk hn)).2
    rwa [← Nat.sub_add_comm hwithin] at hsame

/-- The answer of a search: what was known before it, or a longer echo. -/
def Echo.Improves (e best : Echo) (data : Array UInt8) (i : Nat) : Prop :=
  e = best ∨ best.length < e.length ∧ e.IsTrue data i

theorem Echo.Improves.of_longer {e better best : Echo} (h : e.Improves better data i)
    (hlonger : best.length < better.length) (htrue : better.IsTrue data i) : e.Improves best data i := by
  rcases h with rfl | ⟨hlt, he⟩
  · exact .inr ⟨hlonger, htrue⟩
  · exact .inr ⟨Nat.lt_trans hlonger hlt, he⟩

theorem improves_search (t : Trail) {reach most : Nat} (hmost : most ≤ maxCopy) (hreach : reach ≤ i)
    (hnear : reach ≤ windowSize) (places place : Nat) {best : Echo} (hbest : 2 ≤ best.length) :
    (t.search data i reach most places place best).Improves best data i := by
  fun_induction Trail.search data t i reach most places place best with
  | case1 => exact .inl rfl
  | case2 => exact .inl rfl
  | case3 _ _ _ _ _ _ _ _ _ ih => exact ih hbest
  | case4 => exact .inl rfl
  | case5 _ _ _ _ _ _ _ _ _ _ _ _ ih => exact ih hbest
  | case6 _ best _ _ distance hreached j _ hne n hlonger _ =>
      have hdistance : distance ≤ reach := Nat.le_of_not_lt (not_or.1 hreached).2
      have hn : n ≤ agreement data i j most := guarded_agreement_le i j most
      exact .inr ⟨Nat.lt_of_not_le hlonger, isTrue_of_agreement (by omega) hn hmost (Nat.le_trans hdistance hnear)
        (Nat.le_trans hdistance hreach) hne⟩
  | case7 _ best _ _ distance hreached _ j _ hne n hlonger _ ih =>
      have hdistance : distance ≤ reach := Nat.le_of_not_lt (not_or.1 hreached).2
      have hn : n ≤ agreement data i j most := guarded_agreement_le i j most
      have hlong : best.length < n := Nat.lt_of_not_le hlonger
      refine (ih (show 2 ≤ n by omega)).of_longer hlong ?_
      exact isTrue_of_agreement (by omega) hn hmost (Nat.le_trans hdistance hnear) (Nat.le_trans hdistance hreach) hne

theorem improves_find (data : Array UInt8) (i : Nat) (t : Trail) (level : Nat) {length : Nat} (hlength : 2 ≤ length) :
    (t.find data level i length).Improves ⟨length, 0⟩ data i := by
  simp only [Trail.find]
  split
  · exact .inl rfl
  · apply improves_search t (Nat.min_le_left _ _) (Nat.min_le_left _ _) _ _ _ hlength
    exact Nat.le_trans (Nat.min_le_right _ _) (Nat.sub_le _ _)

/-- The tokens say what the data says from `i` on, one after the other. -/
def Token.Continue (data : Array UInt8) : Nat → List Token → Prop
  | _, [] => True
  | i, t :: ts => t.Continues data i ∧ Token.Continue data (i + t.size) ts

/-- What stands between the end of the tokens so far and the place up to which the data has been looked at: nothing, or
the first byte of the echo that is held back. -/
def Held.Bridges (data : Array UInt8) (upTo i : Nat) : Option Held → Prop
  | none => upTo = i
  | some h => upTo + 1 = i ∧ h.byte = data.getD upTo 0 ∧ h.echo.IsTrue data upTo

/-- A step of cutting: tokens that go on from `upTo`, while the data is looked at from `i` on. -/
structure GoesOn (data : Array UInt8) (upTo i : Nat) (step : List Token × Nat × Option Held) : Prop where
  tokens : Token.Continue data upTo step.1
  pos : 1 ≤ step.2.1
  short : step.2.1 ≤ maxCopy
  fits : i + step.2.1 ≤ data.size
  held : Held.Bridges data (upTo + (step.1.map Token.size).sum) (i + step.2.1) step.2.2

/-- An echo that has been looked for, unless it is of no use: none that is longer, or a true one. -/
theorem longer_of_useful {found best : Echo} (h : found.Improves best data i) {echo : Echo}
    (hecho : (if found.isUseless i then ⟨0, 0⟩ else found) = echo) :
    echo = ⟨0, 0⟩ ∨ echo = best ∨ best.length < echo.length ∧ echo.IsTrue data i := by
  split at hecho
  · exact .inl hecho.symm
  · subst hecho
    exact .inr h

theorem one_le_maxCopy : 1 ≤ maxCopy := by decide

namespace GoesOn

variable {n : Nat} {echo : Echo} {held : Option Held} {tokens : List Token}

theorem literal (hi : i < data.size) : GoesOn data i i ([.literal (data.getD i 0)], 1, none) :=
  ⟨⟨continues_literal hi, trivial⟩, Nat.le_refl 1, one_le_maxCopy, hi, rfl⟩

theorem copy (htrue : echo.IsTrue data i) :
    GoesOn data i i ([.copy echo.length echo.distance], echo.length, none) :=
  ⟨⟨htrue.continues, trivial⟩, Nat.le_trans (by decide) htrue.long, htrue.short, htrue.fits, rfl⟩

theorem hold (hi : i < data.size) (htrue : echo.IsTrue data i) :
    GoesOn data i i ([], 1, some ⟨data.getD i 0, echo⟩) :=
  ⟨trivial, Nat.le_refl 1, one_le_maxCopy, hi, rfl, rfl, htrue⟩

/-- An echo that was held back is told, and the data has been looked at from one byte further on. -/
theorem release (hkept : echo.IsTrue data i) :
    GoesOn data i (i + 1) ([.copy echo.length echo.distance], echo.length - 1, none) := by
  have hlong : 3 ≤ echo.length := hkept.long
  have hfits : i + echo.length ≤ data.size := hkept.fits
  have hshort : echo.length ≤ 258 := hkept.short
  refine ⟨⟨hkept.continues, trivial⟩, ?_, ?_, ?_, ?_⟩
  · show 1 ≤ echo.length - 1
    omega
  · show echo.length - 1 ≤ 258
    omega
  · show i + 1 + (echo.length - 1) ≤ data.size
    omega
  · show i + (echo.length + 0) = i + 1 + (echo.length - 1)
    omega

/-- Of an echo that was held back only the first byte is told before what goes on behind it. -/
theorem after_literal (hi : i < data.size) (h : GoesOn data (i + 1) (i + 1) (tokens, n, held)) :
    GoesOn data i (i + 1) (.literal (data.getD i 0) :: tokens, n, held) := by
  refine ⟨⟨continues_literal hi, h.tokens⟩, h.pos, h.short, h.fits, ?_⟩
  have hheld : Held.Bridges data (i + 1 + (tokens.map Token.size).sum) (i + 1 + n) held := h.held
  rwa [Nat.add_assoc] at hheld

end GoesOn

theorem goesOn_chooseTokens (level : Nat) (trail : Trail) {held : Option Held} {upTo : Nat} (hi : i < data.size)
    (hheld : Held.Bridges data upTo i held) : GoesOn data upTo i (chooseTokens data level i trail held) := by
  cases held with
  | none =>
      obtain rfl : upTo = i := hheld
      have hfind := improves_find data upTo trail level (Nat.le_refl 2)
      simp only [chooseTokens]
      generalize hecho : (if (trail.find data level upTo 2).isUseless upTo then ⟨0, 0⟩
        else trail.find data level upTo 2) = echo
      by_cases hnone : echo.distance = 0
      · rw [if_pos hnone]
        exact .literal hi
      · have htrue : echo.IsTrue data upTo := by
          rcases longer_of_useful hfind hecho with rfl | rfl | ⟨-, htrue⟩
          · exact absurd rfl hnone
          · exact absurd rfl hnone
          · exact htrue
        rw [if_neg hnone]
        by_cases hgreedy : level ≤ 3 ∨ 128 ≤ echo.length
        · rw [if_pos hgreedy]
          exact .copy htrue
        · rw [if_neg hgreedy]
          exact .hold hi htrue
  | some h =>
      obtain ⟨earlier, kept⟩ := h
      obtain ⟨rfl, hbyte, hkept⟩ := hheld
      obtain rfl : earlier = data.getD upTo 0 := hbyte
      have hfind := improves_find data (upTo + 1) trail level (Nat.le_of_succ_le hkept.long)
      simp only [chooseTokens]
      generalize hecho : (if (trail.find data level (upTo + 1) kept.length).isUseless (upTo + 1) then ⟨0, 0⟩
        else trail.find data level (upTo + 1) kept.length) = echo
      -- The echo held back is told unless a longer one follows; then only its first byte is.
      by_cases hshorter : echo.length ≤ kept.length
      · rw [if_pos hshorter]
        exact .release hkept
      · have htrue : echo.IsTrue data (upTo + 1) := by
          rcases longer_of_useful hfind hecho with rfl | rfl | ⟨-, htrue⟩
          · exact absurd (Nat.zero_le _) hshorter
          · exact absurd (Nat.le_refl _) hshorter
          · exact htrue
        have hearlier : upTo < data.size := Nat.lt_of_succ_lt hi
        rw [if_neg hshorter]
        by_cases hvery : 128 ≤ echo.length
        · rw [if_pos hvery]
          exact .after_literal hearlier (.copy htrue)
        · rw [if_neg hvery]
          exact .after_literal hearlier (.hold hi htrue)

end

end FrameLink.Deflate
