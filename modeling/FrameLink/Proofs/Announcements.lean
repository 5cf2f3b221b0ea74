import FrameLink.Host
import Mathlib.Data.List.DropRight

/-! An announcement is read where its three lines stand, and the address made of it names one host and one
port. What a line is, what it reads and which port it spells is said here apart from the reader. -/

namespace FrameLink

namespace Endpoint

/-- The text spells a port: decimal digits, with one plus sign before them or none. -/
def SpellsPort (s : String) (port : Nat) : Prop :=
  ∃ digits, (s.toList = digits ∨ s.toList = '+' :: digits) ∧ digits ≠ [] ∧ (∀ c ∈ digits, c.isDigit) ∧
    Nat.ofDigitChars 10 digits 0 = port ∧ port < 65536

theorem digitsValue_eq (cs : List Char) : digitsValue cs = Nat.ofDigitChars 10 cs 0 := by
  simp only [digitsValue, Nat.ofDigitChars_eq_foldl, Nat.mul_comm]

theorem port?_eq_some_iff {s : String} {port : Nat} : port? s = some port ↔ SpellsPort s port := by
  have hread : ∀ digits, (if digits ≠ [] ∧ digits.all Char.isDigit ∧ digitsValue digits < 65536 then
      some (digitsValue digits) else none) = some port ↔ digits ≠ [] ∧ (∀ c ∈ digits, c.isDigit) ∧
        Nat.ofDigitChars 10 digits 0 = port ∧ port < 65536 := by
    intro digits
    rw [Option.ite_none_right_eq_some, Option.some.injEq, List.all_eq_true, digitsValue_eq]
    constructor
    · rintro ⟨⟨hne, hdigits, hlt⟩, rfl⟩
      exact ⟨hne, hdigits, rfl, hlt⟩
    · rintro ⟨hne, hdigits, rfl, hlt⟩
      exact ⟨⟨hne, hdigits, hlt⟩, rfl⟩
  unfold port? SpellsPort
  generalize s.toList = cs
  dsimp only
  rw [hread]
  split
  · rename_i digits
    constructor
    · exact fun h => ⟨digits, .inr rfl, h⟩
    · rintro ⟨_, rfl | h, hne, hdigits, hvalue⟩
      · -- A plus sign is no digit.
        exact absurd (hdigits '+' List.mem_cons_self) (by decide)
      · rw [List.cons.injEq] at h
        rw [h.2]
        exact ⟨hne, hdigits, hvalue⟩
  · rename_i hplus
    constructor
    · exact fun h => ⟨cs, .inl rfl, h⟩
    · rintro ⟨digits, rfl | h, hne, hdigits, hvalue⟩
      · exact ⟨hne, hdigits, hvalue⟩
      · exact absurd h (hplus digits)

theorem digits_toString (n : Nat) : (toString n).toList = Nat.toDigits 10 n := by
  rw [Nat.toString_eq_ofList_toDigits, String.toList_ofList]

theorem isDigit_of_mem_toString {n : Nat} {c : Char} (h : c ∈ (toString n).toList) : c.isDigit := by
  rw [digits_toString] at h
  exact Nat.isDigit_of_mem_toDigits (by decide) (by decide) h

theorem toString_injective : Function.Injective (toString : Nat → String) := by
  intro m n h
  have hdigits : Nat.toDigits 10 m = Nat.toDigits 10 n := by
    rw [← digits_toString, ← digits_toString, h]
  rw [← Nat.ofDigitChars_ten_toDigits (n := m), hdigits, Nat.ofDigitChars_ten_toDigits]

theorem spellsPort_toString {port : Nat} (h : port < 65536) : SpellsPort (toString port) port := by
  refine ⟨_, .inl rfl, ?_, fun _ => isDigit_of_mem_toString, ?_, h⟩
  · rw [digits_toString]
    exact Nat.toDigits_ne_nil
  · rw [digits_toString, Nat.ofDigitChars_ten_toDigits]

theorem splitLast_append {before after : List Char} (h : ':' ∉ after) :
    splitLast (before ++ ':' :: after) = some (before, after) := by
  have hnone : splitLast after = none := by
    induction after with
    | nil => rfl
    | cons c cs ih =>
        rw [List.mem_cons, not_or] at h
        rw [splitLast, ih h.2]
        exact if_neg fun hc => h.1 hc.symm
  induction before with
  | nil => simp only [List.nil_append, splitLast, hnone, if_true]
  | cons c cs ih => simp only [List.cons_append, splitLast, ih]

end Endpoint

namespace Announcement

/-- The bytes of a text. -/
def encoded (s : String) : Bytes :=
  s.toList.flatMap String.utf8EncodeChar

theorem encoded_append (s t : String) : encoded (s ++ t) = encoded s ++ encoded t := by
  rw [encoded, String.toList_append, List.flatMap_append, encoded, encoded]

theorem toByteArray_encoded (s : String) : (encoded s).toByteArray = s.toUTF8 := by
  rw [String.toUTF8_eq_toByteArray, ← String.utf8Encode_toList]
  rfl

theorem toList_toUTF8 (s : String) : s.toUTF8.data.toList = encoded s := by
  rw [← toByteArray_encoded, List.data_toByteArray]

theorem text?_eq_some_iff {bs : Bytes} {s : String} : text? bs = some s ↔ bs = encoded s := by
  rw [text?, String.fromUTF8?]
  constructor
  · intro h
    split at h
    · rw [Option.some.injEq] at h
      subst h
      rw [← toList_toUTF8]
      exact (congrArg Array.toList List.data_toByteArray).symm
    · contradiction
  · rintro rfl
    rw [toByteArray_encoded, String.toUTF8_eq_toByteArray, dif_pos s.isValidUTF8]
    rfl

theorem newline_mem_utf8EncodeChar {c : Char} : (10 : UInt8) ∈ String.utf8EncodeChar c ↔ c = '\n' := by
  have hnewline : c = '\n' ↔ c.val.toNat = 10 := by
    rw [← Char.toNat_inj]
    rfl
  have hlt : c.val.toNat < 0x110000 := by
    have := c.valid
    rcases this with h | h <;> omega
  rw [hnewline, String.utf8EncodeChar]
  split_ifs <;>
    simp only [List.mem_cons, List.not_mem_nil, or_false, ← UInt8.toNat_inj, UInt8.toNat_ofNat', UInt8.reduceToNat] <;>
      omega

theorem newline_mem_encoded {s : String} : (10 : UInt8) ∈ encoded s ↔ '\n' ∈ s.toList := by
  simp only [encoded, List.mem_flatMap, newline_mem_utf8EncodeChar, exists_eq_right]

theorem newline_mem_dropLast_cons {b : UInt8} {line : Bytes} (hb : b ≠ 10) :
    10 ∈ (b :: line).dropLast ↔ 10 ∈ line.dropLast := by
  cases line with
  | nil => rfl
  | cons c cs => rw [List.dropLast_cons_cons, List.mem_cons, or_iff_right hb.symm]

theorem getLast?_cons_eq_newline {b : UInt8} {line : Bytes} (hb : b ≠ 10) :
    (b :: line).getLast? = some 10 ↔ line.getLast? = some 10 := by
  cases line with
  | nil => simp [hb]
  | cons c cs => rw [List.getLast?_cons_cons]

theorem takeLine_eq_iff {bs line rest : Bytes} :
    takeLine bs = (line, rest) ↔
      bs = line ++ rest ∧ 10 ∉ line.dropLast ∧ (line.getLast? = some 10 ∨ rest = []) := by
  induction bs generalizing line with
  | nil =>
      rw [takeLine, Prod.mk.injEq, List.nil_eq_append_iff]
      constructor
      · rintro ⟨rfl, rfl⟩
        exact ⟨⟨rfl, rfl⟩, List.not_mem_nil, .inr rfl⟩
      · rintro ⟨⟨rfl, rfl⟩, -⟩
        exact ⟨rfl, rfl⟩
  | cons b bs ih =>
      by_cases hb : b = 10
      · rw [takeLine, if_pos hb, Prod.mk.injEq]
        constructor
        · rintro ⟨rfl, rfl⟩
          exact ⟨rfl, List.not_mem_nil, .inl (congrArg some hb)⟩
        · rintro ⟨happend, hnewline, hended⟩
          rcases List.append_eq_cons_iff.1 happend.symm with ⟨rfl, rfl⟩ | ⟨line, rfl, rfl⟩
          · simp at hended
          · cases line with
            | nil => exact ⟨rfl, rfl⟩
            | cons c cs =>
                rw [List.dropLast_cons_cons, List.mem_cons, not_or] at hnewline
                exact absurd hb.symm hnewline.1
      · have hstep : takeLine (b :: bs) = (b :: (takeLine bs).1, (takeLine bs).2) := by
          rw [takeLine, if_neg hb]
        rw [hstep, Prod.mk.injEq]
        constructor
        · rintro ⟨rfl, rfl⟩
          rw [newline_mem_dropLast_cons hb, getLast?_cons_eq_newline hb]
          obtain ⟨happend, hline⟩ := ih.1 rfl
          exact ⟨congrArg (b :: ·) happend, hline⟩
        · rintro ⟨happend, hline⟩
          rcases List.append_eq_cons_iff.1 happend.symm with ⟨rfl, rfl⟩ | ⟨line, rfl, rfl⟩
          · simp at hline
          · rw [newline_mem_dropLast_cons hb, getLast?_cons_eq_newline hb] at hline
            rw [ih.2 ⟨rfl, hline⟩]
            exact ⟨rfl, rfl⟩

/-- The text `t` is what is left of `s` when all the line ends at its end are taken away. -/
def Trims (s t : String) : Prop :=
  (∃ ends, s.toList = t.toList ++ ends ∧ ∀ c ∈ ends, c = '\r' ∨ c = '\n') ∧
    ∀ c ∈ t.toList.getLast?, c ≠ '\r' ∧ c ≠ '\n'

theorem isLineEnd_iff {c : Char} : isLineEnd c = true ↔ c = '\r' ∨ c = '\n' := by
  simp only [isLineEnd, Bool.or_eq_true, decide_eq_true_eq]

theorem trimmed_eq_iff {s t : String} : trimmed s = t ↔ Trims s t := by
  have htrimmed : (trimmed s).toList = s.toList.rdropWhile isLineEnd := String.toList_ofList
  rw [← String.toList_inj, htrimmed]
  constructor
  · intro h
    refine ⟨⟨s.toList.rtakeWhile isLineEnd, ?_, fun c hc => isLineEnd_iff.1 (List.mem_rtakeWhile_imp hc)⟩, ?_⟩
    · rw [← h, List.rdropWhile_append_rtakeWhile]
    · intro c hc
      rw [← h] at hc
      obtain ⟨hne, rfl⟩ := List.mem_getLast?_eq_getLast hc
      rw [← not_or, ← isLineEnd_iff]
      exact List.rdropWhile_last_not isLineEnd s.toList hne
  · rintro ⟨⟨ends, hs, hends⟩, hlast⟩
    have hdrop : s.toList.rdropWhile isLineEnd = t.toList.rdropWhile isLineEnd := by
      rw [hs, List.rdropWhile, List.reverse_append, List.dropWhile_append_of_pos, List.rdropWhile]
      intro c hc
      exact isLineEnd_iff.2 (hends c (List.mem_reverse.1 hc))
    rw [hdrop, List.rdropWhile_eq_self_iff]
    intro hne
    rw [isLineEnd_iff, not_or]
    exact hlast _ (List.getLast_mem_getLast? hne)

/-- The bytes `line`, which `rest` follows, are a line that reads `t`: they spell a text, which is `t` but for
the line ends at its end. A newline can only be the last of them, and it is unless nothing follows. -/
structure IsLine (line : Bytes) (t : String) (rest : Bytes) : Prop where
  ne_nil : line ≠ []
  newline : 10 ∉ line.dropLast
  ended : line.getLast? = some 10 ∨ rest = []
  spells : ∃ s, line = encoded s ∧ Trims s t

theorem readLine_eq_ok_iff {what t : String} {bs rest : Bytes} :
    readLine what bs = .ok (t, rest) ↔ ∃ line, bs = line ++ rest ∧ IsLine line t rest := by
  constructor
  · intro h
    unfold readLine at h
    split at h
    · cases h
    · rename_i line rest' hne htake
      obtain ⟨rfl, hnewline, hended⟩ := takeLine_eq_iff.1 htake
      split at h
      · rename_i s hs
        simp only [Except.ok.injEq, Prod.mk.injEq] at h
        obtain ⟨htrim, rfl⟩ := h
        exact ⟨line, rfl, hne, hnewline, hended, s, text?_eq_some_iff.1 hs,
          trimmed_eq_iff.1 htrim⟩
      · cases h
  · rintro ⟨line, rfl, hne, hnewline, hended, s, hs, htrim⟩
    have htake : takeLine (line ++ rest) = (line, rest) := takeLine_eq_iff.2 ⟨rfl, hnewline, hended⟩
    unfold readLine
    split
    · rename_i hnil
      rw [htake] at hnil
      exact absurd (congrArg Prod.fst hnil) hne
    · rename_i line' rest' _ htake'
      rw [htake, Prod.mk.injEq] at htake'
      obtain ⟨rfl, rfl⟩ := htake'
      simp only [text?_eq_some_iff.2 hs, trimmed_eq_iff.2 htrim]

theorem readLine_error {what : String} {bs : Bytes} {e : LinkError} (h : readLine what bs = .error e) :
    ∃ reason source, e = .startupFailed reason source := by
  unfold readLine at h
  split at h
  · exact ⟨_, _, (Except.error.inj h).symm⟩
  · split at h
    · cases h
    · exact ⟨_, _, (Except.error.inj h).symm⟩

/-- The bytes announce `a`: three lines read the marker, its host and its port, and anything follows. -/
def Announces (bs : Bytes) (a : Announcement) : Prop :=
  ∃ first second third rest port, bs = first ++ (second ++ (third ++ rest)) ∧
    IsLine first marker (second ++ (third ++ rest)) ∧ IsLine second a.host (third ++ rest) ∧
    IsLine third port rest ∧ Endpoint.SpellsPort port a.port

theorem read_eq_ok_iff {bs : Bytes} {a : Announcement} : read bs = .ok a ↔ Announces bs a := by
  constructor
  · intro h
    unfold read at h
    rcases hfirst : readLine "startup marker" bs with e | ⟨m, rest₁⟩ <;>
      simp only [hfirst, bind, Except.bind] at h
    · cases h
    split at h
    · cases h
    · rename_i hmarker
      rw [ne_eq, not_not] at hmarker
      subst hmarker
      rcases hsecond : readLine "host" rest₁ with e | ⟨host, rest₂⟩ <;>
        simp only [hsecond, pure, Except.pure] at h
      · cases h
      rcases hthird : readLine "port" rest₂ with e | ⟨last, rest⟩ <;> simp only [hthird] at h
      · cases h
      split at h
      · rename_i port hport
        cases h
        obtain ⟨first, rfl, first_line⟩ := readLine_eq_ok_iff.1 hfirst
        obtain ⟨second, rfl, second_line⟩ := readLine_eq_ok_iff.1 hsecond
        obtain ⟨third, rfl, third_line⟩ := readLine_eq_ok_iff.1 hthird
        exact ⟨first, second, third, rest, last, rfl, first_line, second_line, third_line,
          Endpoint.port?_eq_some_iff.1 hport⟩
      · cases h
  · rintro ⟨first, second, third, rest, port, rfl, hfirst, hsecond, hthird, hport⟩
    unfold read
    simp only [readLine_eq_ok_iff.2 ⟨first, rfl, hfirst⟩, readLine_eq_ok_iff.2 ⟨second, rfl, hsecond⟩,
      readLine_eq_ok_iff.2 ⟨third, rfl, hthird⟩, Endpoint.port?_eq_some_iff.2 hport, bind, Except.bind, pure,
      Except.pure, ne_eq, not_true, if_false]

theorem read_error {bs : Bytes} {e : LinkError} (h : read bs = .error e) :
    ∃ reason source, e = .startupFailed reason source := by
  unfold read at h
  rcases hfirst : readLine "startup marker" bs with e' | ⟨m, rest₁⟩ <;>
    simp only [hfirst, bind, Except.bind] at h
  · cases h
    exact readLine_error hfirst
  split at h
  · exact ⟨_, _, (Except.error.inj h).symm⟩
  rcases hsecond : readLine "host" rest₁ with e' | ⟨host, rest₂⟩ <;>
    simp only [hsecond, pure, Except.pure] at h
  · cases h
    exact readLine_error hsecond
  rcases hthird : readLine "port" rest₂ with e' | ⟨last, rest⟩ <;> simp only [hthird] at h
  · cases h
    exact readLine_error hthird
  split at h
  · cases h
  · exact ⟨_, _, (Except.error.inj h).symm⟩

theorem isLine_printed {t returns : String} (rest : Bytes) (hreturns : ∀ c ∈ returns.toList, c = '\r')
    (hnewline : '\n' ∉ t.toList) (hlast : t.toList.getLast? ≠ some '\r') :
    IsLine (encoded (t ++ (returns ++ "\n"))) t rest := by
  have hbytes : encoded (t ++ (returns ++ "\n")) = encoded (t ++ returns) ++ [10] := by
    rw [← String.append_assoc, encoded_append]
    rfl
  refine ⟨?_, ?_, ?_, _, rfl, ⟨(returns ++ "\n").toList, String.toList_append, ?_⟩, ?_⟩
  · rw [hbytes]
    exact List.concat_ne_nil _ _
  · rw [hbytes, List.dropLast_concat, newline_mem_encoded, String.toList_append, List.mem_append, not_or]
    exact ⟨hnewline, fun h => absurd (hreturns _ h) (by decide)⟩
  · rw [hbytes, List.getLast?_concat]
    exact .inl rfl
  · intro c hc
    rw [String.toList_append, List.mem_append] at hc
    exact hc.imp (hreturns c) List.mem_singleton.1
  · rintro c hc
    exact ⟨fun h => hlast (h ▸ hc), fun h => hnewline (h ▸ List.mem_of_getLast? hc)⟩

theorem announces_printed {a : Announcement} {returns : String} (rest : Bytes)
    (hreturns : ∀ c ∈ returns.toList, c = '\r') (hnewline : '\n' ∉ a.host.toList)
    (hlast : a.host.toList.getLast? ≠ some '\r') (hport : a.port < 65536) :
    Announces (encoded (a.print (returns ++ "\n")) ++ rest) a := by
  have hprint : a.print (returns ++ "\n") = marker ++ (returns ++ "\n") ++
      (a.host ++ (returns ++ "\n")) ++ (toString a.port ++ (returns ++ "\n")) := by
    simp only [print, List.map_cons, List.map_nil, String.join_cons, String.join_nil, String.append_empty,
      String.append_assoc]
  have hdigit : ∀ c ∈ (toString a.port).toList, c ≠ '\n' ∧ c ≠ '\r' := by
    intro c hc
    have hc := Endpoint.isDigit_of_mem_toString hc
    constructor <;>
      · rintro rfl
        exact absurd hc (by decide)
  rw [hprint, encoded_append, encoded_append, List.append_assoc, List.append_assoc]
  exact ⟨_, _, _, rest, toString a.port, rfl, isLine_printed _ hreturns (by decide) (by decide),
    isLine_printed _ hreturns hnewline hlast,
    isLine_printed _ hreturns (fun h => (hdigit _ h).1 rfl) (fun h => (hdigit _ (List.mem_of_getLast? h)).2 rfl),
    Endpoint.spellsPort_toString hport⟩

theorem splitLast_address (a : Announcement) :
    Endpoint.splitLast a.address.toList =
      some (if ':' ∈ a.host.toList then '[' :: (a.host.toList ++ [']']) else a.host.toList,
        (toString a.port).toList) := by
  have hport : ':' ∉ (toString a.port).toList := fun h =>
    absurd (Endpoint.isDigit_of_mem_toString h) (by decide)
  rw [address]
  by_cases hcolon : ':' ∈ a.host.toList
  · rw [if_pos (List.contains_iff_mem.2 hcolon), if_pos hcolon, ← Endpoint.splitLast_append hport]
    simp
  · rw [if_neg (fun h => hcolon (List.contains_iff_mem.1 h)), if_neg hcolon, ← Endpoint.splitLast_append hport]
    simp

theorem address_injective : Function.Injective address := by
  intro a b h
  have hsplit := splitLast_address a
  rw [h, splitLast_address b, Option.some.injEq, Prod.mk.injEq, String.toList_inj] at hsplit
  obtain ⟨hhost, hport⟩ := hsplit
  have hhost : a.host = b.host := by
    rw [← String.toList_inj]
    split_ifs at hhost with hb ha ha
    · simpa using hhost.symm
    · -- A host in brackets has a colon in it, one without has none.
      exact absurd (hhost ▸ by simp [hb]) ha
    · exact absurd (hhost ▸ by simp [ha]) hb
    · exact hhost.symm
  cases a
  cases b
  exact congrArg₂ mk hhost (Endpoint.toString_injective hport.symm)

/-- A reader accepts what announces a host and a port, and nothing else: everything else fails to start the
peer. What is printed for a host is among it, and the address made of it names that host and port alone. -/
theorem reads_announcements_only :
    (∀ bs a, read bs = .ok a ↔ Announces bs a) ∧
    (∀ bs, (∀ a, ¬ Announces bs a) → ∃ reason source, read bs = .error (.startupFailed reason source)) ∧
    (∀ (a : Announcement) (returns : String) (rest : Bytes), (∀ c ∈ returns.toList, c = '\r') →
      '\n' ∉ a.host.toList → a.host.toList.getLast? ≠ some '\r' → a.port < 65536 →
      read ((a.print (returns ++ "\n")).toUTF8.data.toList ++ rest) = .ok a) ∧
    Function.Injective address := by
  refine ⟨fun _ _ => read_eq_ok_iff, fun bs hnone => ?_, ?_, address_injective⟩
  · cases hread : read bs with
    | ok a => exact absurd (read_eq_ok_iff.1 hread) (hnone a)
    | error e =>
        obtain ⟨reason, source, rfl⟩ := read_error hread
        exact ⟨reason, source, rfl⟩
  · intro a returns rest hreturns hnewline hlast hport
    rw [toList_toUTF8]
    exact read_eq_ok_iff.2 (announces_printed rest hreturns hnewline hlast hport)

theorem reads_announcements_only_localhost :
    read ((print ⟨"localhost", 17100⟩ ("\r" ++ "\n")).toUTF8.data.toList ++ [0xFF]) = .ok ⟨"localhost", 17100⟩ ∧
    ∃ reason source, read [] = .error (.startupFailed reason source) :=
  ⟨reads_announcements_only.2.2.1 ⟨"localhost", 17100⟩ "\r" [0xFF] (by simp) (by simp) (by simp) (by decide),
    reads_announcements_only.2.1 [] fun a h => nomatch (reads_announcements_only.1 [] a).2 h⟩

end Announcement

end FrameLink
