import FrameLink.Inflater
import FrameLink.Proofs.Deflate.Feeding
import FrameLink.Proofs.Segments

/-! Inflating piece by piece gives what inflating at once gives. Whatever pieces the compressed bytes come in,
however far decoding runs ahead and whatever its user asks for, an inflating reader has fed its decoder the
first bits of the segment, gives out the bytes decoded from the whole segment in order, and comes to a proper
end if and only if the segment begins with a whole deflate stream. -/

namespace FrameLink.Inflater

open Deflate

variable {limit n : Nat} {ended : Bool}

theorem decodeBits_spec {input : Bytes} {l l' : Lead} {d d' : Decoder} {spare spare' : List Bool}
    (h : decodeBits limit input l d spare = (l', d', spare')) :
    ∃ fed, spare = fed ++ spare' ∧ d' = d.feedAll fed ∧ (spare' = [] ∨ rests limit l' d' = true) := by
  induction spare generalizing l d with
  | nil =>
      simp only [decodeBits, Prod.mk.injEq] at h
      obtain ⟨-, rfl, rfl⟩ := h
      exact ⟨[], rfl, rfl, .inl rfl⟩
  | cons b bits ih =>
      simp only [decodeBits] at h
      split at h
      · rename_i hrests
        simp only [Prod.mk.injEq] at h
        obtain ⟨rfl, rfl, rfl⟩ := h
        exact ⟨[], rfl, rfl, .inr hrests⟩
      · obtain ⟨fed, hbits, hd, hend⟩ := ih h
        refine ⟨b :: fed, ?_, hd, hend⟩
        rw [hbits, List.cons_append]

theorem decodeBytes_spec {input input' : Bytes} {l l' : Lead} {d d' : Decoder} {spare spare' : List Bool}
    (h : decodeBytes limit l d spare input = (l', d', spare', input')) :
    ∃ fed, spare ++ bitsOfAll input = fed ++ (spare' ++ bitsOfAll input') ∧ d' = d.feedAll fed ∧
      (spare' = [] ∧ input' = [] ∨ rests limit l' d' = true) := by
  induction input generalizing l d spare with
  | nil =>
      rcases hb : decodeBits limit [] l d spare with ⟨l₁, d₁, spare₁⟩
      simp only [decodeBytes, hb, Prod.mk.injEq] at h
      obtain ⟨rfl, rfl, rfl, rfl⟩ := h
      obtain ⟨fed, hbits, hd, hend⟩ := decodeBits_spec hb
      exact ⟨fed, by rw [hbits, List.append_assoc], hd, hend.imp (⟨·, rfl⟩) id⟩
  | cons b bytes ih =>
      rcases hb : decodeBits limit (b :: bytes) l d spare with ⟨l₁, d₁, spare₁⟩
      obtain ⟨fed, hbits, hd, hend⟩ := decodeBits_spec hb
      cases spare₁ with
      | cons c cs =>
          simp only [decodeBytes, hb, Prod.mk.injEq] at h
          obtain ⟨rfl, rfl, rfl, rfl⟩ := h
          exact ⟨fed, by rw [hbits, List.append_assoc], hd, .inr (hend.resolve_left (List.cons_ne_nil c cs))⟩
      | nil =>
          simp only [decodeBytes, hb] at h
          rw [List.append_nil] at hbits
          split at h
          · rename_i hrests
            simp only [Prod.mk.injEq] at h
            obtain ⟨rfl, rfl, rfl, rfl⟩ := h
            exact ⟨fed, by rw [hbits, List.nil_append], hd, .inr hrests⟩
          · obtain ⟨fed', hbits', hd', hend'⟩ := ih h
            refine ⟨fed ++ fed', ?_, by rw [hd', hd, Decoder.feedAll_append], hend'⟩
            rw [hbits, bitsOfAll_cons, hbits', List.append_assoc]

/-- The reader has fed its decoder the first bits of `body`; the others are at hand or still in the segment.
It has given out no more than is ready, and ready is only what has been decoded. -/
structure Stands (body : Bytes) (f : Inflater) (feed : Segment × Source) : Prop where
  fed : ∃ fed, bitsOfAll body =
      fed ++ (f.spare ++ (bitsOfAll f.input ++ bitsOfAll (feed.2.data.take feed.1.left))) ∧
    f.decoder = ({} : Decoder).feedAll fed
  given_le : f.given ≤ f.ready
  ready_le : f.ready ≤ f.decoder.out.size
  exhausted : f.exhausted = true →
    (decoded body).hasStopped = false ∧ f.input = [] ∧ feed.1.left = 0

section

variable {body : Bytes} {f : Inflater} {feed : Segment × Source}

theorem stands_new (feed : Segment × Source) : Stands (feed.2.data.take feed.1.left) {} feed where
  fed := ⟨[], rfl, rfl⟩
  given_le := Nat.le_refl _
  ready_le := Nat.le_refl _
  exhausted h := nomatch h

/-- What the decoder has put out is the beginning of what the whole body inflates to. -/
theorem Stands.out_prefix (h : Stands body f feed) :
    f.decoder.out.toList <+: (decoded body).out.toList := by
  obtain ⟨fed, hbits, hd⟩ := h.fed
  rw [decoded, hbits, Decoder.feedAll_append, ← hd]
  exact Decoder.extends_feedAll _ _

/-- A decoder that has stopped is where the whole body leads. -/
theorem Stands.decoded_eq (h : Stands body f feed) (hstopped : f.decoder.hasStopped = true) :
    decoded body = f.decoder := by
  obtain ⟨fed, hbits, hd⟩ := h.fed
  rw [decoded, hbits, Decoder.feedAll_append, ← hd, Decoder.feedAll_of_hasStopped hstopped]

/-- Bytes between what has been given out and what is ready are the next ones of the whole. -/
theorem Stands.extract_eq (h : Stands body f feed) {k : Nat} (hk : f.given + k ≤ f.ready) :
    (f.decoder.out.extract f.given (f.given + k)).toList =
      ((decoded body).out.toList.drop f.given).take k := by
  obtain ⟨more, hmore⟩ := h.out_prefix
  have hready := h.ready_le
  have hlength : f.decoder.out.toList.length = f.decoder.out.size := Array.length_toList
  rw [Array.toList_extract, List.extract_eq_take_drop, ← hmore, Nat.add_sub_cancel_left,
    List.drop_append_of_le_length (by omega), List.take_append_of_le_length]
  rw [List.length_drop]
  omega

theorem given_lt_windowEnd (f : Inflater) : f.given < f.windowEnd := by
  have hdiv := Nat.div_add_mod f.given windowSize
  have hmod := Nat.mod_lt f.given (show 0 < windowSize by decide)
  simp only [windowEnd, windowSize] at hdiv hmod ⊢
  omega

/-- Nothing more can be decoded for now: the decoder has put out no more than has been given out, and it has
stopped or has been fed all that was at hand. -/
structure Stalls (ended : Bool) (f : Inflater) : Prop where
  ready_eq : f.given = f.ready
  size_eq : f.given = f.decoder.out.size
  starved : f.decoder.hasStopped = false → f.spare = [] ∧ f.input = [] ∧ f.exhausted = ended

/-- The reader `g` has come from `f` by decoding the bits `fed` of those at hand: all of them, unless its decoder rests
with `l` of its input taken ahead. -/
structure Decodes (ended : Bool) (fed : List Bool) (l : Lead) (f g : Inflater) : Prop where
  bits : f.spare ++ bitsOfAll f.input = fed ++ (g.spare ++ bitsOfAll g.input)
  decoder : g.decoder = f.decoder.feedAll fed
  used : g.spare = [] ∧ g.input = [] ∨ rests f.windowEnd l g.decoder = true
  input : f.input = [] → g.input = []
  given : g.given = f.given
  ready : g.ready = min g.decoder.out.size f.windowEnd
  exhausted : g.exhausted = (ended && !rests f.windowEnd l g.decoder)

theorem decodes_decode (ended : Bool) (f : Inflater) : ∃ fed l, Decodes ended fed l f (f.decode ended) := by
  rcases hdecode : decodeBytes f.windowEnd
    (({} : Lead).prepare (f.windowEnd - f.decoder.out.size) f.decoder f.spare f.input) f.decoder f.spare
    f.input with ⟨l, d, spare, input⟩
  obtain ⟨fed, hbits, hd, hused⟩ := decodeBytes_spec hdecode
  have hinput : f.input = [] → input = [] := by
    intro hnil
    rw [hnil] at hdecode
    simp only [decodeBytes, Prod.mk.injEq] at hdecode
    exact hdecode.2.2.2.symm
  simp only [Inflater.decode, hdecode]
  exact ⟨fed, l, hbits, hd, hused, hinput, rfl, rfl, rfl⟩

theorem rests_eq_false {l : Lead} {d : Decoder} (hstopped : d.hasStopped = false) (hroom : d.out.size < limit) :
    rests limit l d = false := by
  rw [rests, isFull, hstopped, Bool.false_or, Bool.or_eq_false_iff, Bool.and_eq_false_iff, Bool.and_eq_false_iff]
  exact ⟨decide_eq_false (by omega), .inl (.inl (decide_eq_false (by omega)))⟩

namespace Decodes

variable {fed : List Bool} {l : Lead} {g : Inflater}

theorem starved_of_rests_eq_false (h : Decodes ended fed l f g) (hrests : rests f.windowEnd l g.decoder = false) :
    g.spare = [] ∧ g.input = [] :=
  h.used.resolve_right fun hyes => by cases hrests.symm.trans hyes

/-- Decoding makes something ready, or the reader stalls. -/
theorem ready_or_stalls (h : Decodes ended fed l f g) (hgiven : f.given ≤ g.decoder.out.size) :
    f.given < g.ready ∨ Stalls ended g := by
  have hlimit := f.given_lt_windowEnd
  have hready := h.ready
  by_cases hlt : f.given < g.ready
  · exact .inl hlt
  · have hsize : f.given = g.decoder.out.size := by omega
    refine .inr ⟨by rw [h.given]; omega, by rw [h.given, hsize], fun hstopped => ?_⟩
    have hrests : rests f.windowEnd l g.decoder = false := rests_eq_false hstopped (by omega)
    obtain ⟨hspare, hinput⟩ := h.starved_of_rests_eq_false hrests
    refine ⟨hspare, hinput, ?_⟩
    rw [h.exhausted, hrests, Bool.not_false, Bool.and_true]

theorem stands (h : Decodes ended fed l f g) (hstands : Stands body f feed)
    (hended : ended = true → feed.1.left = 0 ∧ f.input = []) : Stands body g feed := by
  obtain ⟨fed₀, hbits₀, hd₀⟩ := hstands.fed
  have hall : bitsOfAll body = (fed₀ ++ fed) ++
      (g.spare ++ (bitsOfAll g.input ++ bitsOfAll (feed.2.data.take feed.1.left))) := by
    rw [hbits₀, ← List.append_assoc f.spare, h.bits]
    simp only [List.append_assoc]
  have hdecoder : g.decoder = ({} : Decoder).feedAll (fed₀ ++ fed) := by rw [h.decoder, hd₀, Decoder.feedAll_append]
  have hsize : f.decoder.out.size ≤ g.decoder.out.size := by
    have hle := (h.decoder ▸ Decoder.extends_feedAll f.decoder fed :
      f.decoder.out.toList <+: g.decoder.out.toList).length_le
    rwa [Array.length_toList, Array.length_toList] at hle
  have hlimit := f.given_lt_windowEnd
  have hgiven := hstands.given_le
  have hready := hstands.ready_le
  refine ⟨⟨fed₀ ++ fed, hall, hdecoder⟩, ?_, ?_, ?_⟩
  · rw [h.given, h.ready]
    omega
  · rw [h.ready]
    exact Nat.min_le_left _ _
  · intro hexhausted
    rw [h.exhausted, Bool.and_eq_true, Bool.not_eq_true'] at hexhausted
    obtain ⟨rfl, hrests⟩ := hexhausted
    have hstopped : g.decoder.hasStopped = false := (Bool.or_eq_false_iff.1 hrests).1
    obtain ⟨hspare, hinput⟩ := h.starved_of_rests_eq_false hrests
    have hleft := (hended rfl).1
    refine ⟨?_, hinput, hleft⟩
    rw [hspare, hinput, hleft, List.take_zero] at hall
    rw [decoded, hall]
    simpa only [bitsOfAll, List.flatMap_nil, List.append_nil, ← hdecoder] using hstopped

end Decodes

/-- Decoding goes on from where the reader stands. It makes something ready, or the reader stalls. -/
theorem Stands.decode (h : Stands body f feed) (hended : ended = true → feed.1.left = 0 ∧ f.input = []) :
    Stands body (f.decode ended) feed ∧ (f.decode ended).given = f.given ∧
      (ended = true → (f.decode ended).input = []) ∧
      (f.given < (f.decode ended).ready ∨ Stalls ended (f.decode ended)) := by
  obtain ⟨fed, l, hdecodes⟩ := decodes_decode ended f
  have hstands := hdecodes.stands h hended
  have hgiven : f.given ≤ (f.decode ended).decoder.out.size :=
    hdecodes.given ▸ Nat.le_trans hstands.given_le hstands.ready_le
  exact ⟨hstands, hdecodes.given, fun he => hdecodes.input (hended he).2, hdecodes.ready_or_stalls hgiven⟩

/-- The reader `g` has come from `f` by giving out the bytes `bs`, at most `n` of them. -/
structure GivesOut (body : Bytes) (n : Nat) (f : Inflater) (bs : Bytes) (g : Inflater) : Prop where
  bytes : bs = ((decoded body).out.toList.drop f.given).take bs.length
  length_le : bs.length ≤ n
  given : g.given = f.given + bs.length

theorem GivesOut.nothing (body : Bytes) (n : Nat) {f g : Inflater} (h : g.given = f.given) :
    GivesOut body n f [] g :=
  ⟨rfl, Nat.zero_le n, h⟩

theorem GivesOut.append {m : Nat} {g k : Inflater} {bs cs : Bytes} (h : GivesOut body n f bs g)
    (hk : GivesOut body m g cs k) (hm : m + bs.length ≤ n) : GivesOut body n f (bs ++ cs) k where
  bytes := by
    conv => lhs; rw [h.bytes, hk.bytes]
    rw [h.given, ← List.drop_drop, List.length_append, List.take_add]
  length_le := by
    rw [List.length_append]
    have := hk.length_le
    omega
  given := by rw [hk.given, h.given, List.length_append, Nat.add_assoc]

theorem Stands.give (h : Stands body f feed) (n : Nat) :
    Stands body (f.give n).2 feed ∧ GivesOut body n f (f.give n).1 (f.give n).2 ∧
      (f.give n).1.length = min n (f.ready - f.given) := by
  have hgiven := h.given_le
  have hready := h.ready_le
  have hextract := h.extract_eq (k := min n (f.ready - f.given)) (by omega)
  have hlength : (f.give n).1.length = min n (f.ready - f.given) := by
    change (f.decoder.out.extract f.given (f.given + min n (f.ready - f.given))).toList.length = _
    rw [Array.length_toList, Array.size_extract]
    omega
  refine ⟨⟨h.fed, ?_, h.ready_le, h.exhausted⟩, ⟨?_, ?_, ?_⟩, hlength⟩
  · change f.given + min n (f.ready - f.given) ≤ f.ready
    omega
  · rw [hlength]
    exact hextract
  · omega
  · rw [hlength]
    rfl

theorem Stalls.goesOn_eq_false {g : Inflater} (h : Stalls ended g) : g.goesOn ended = false := by
  cases hstopped : g.decoder.hasStopped with
  | true => simp only [goesOn, hstopped, Bool.not_true, Bool.and_false, Bool.false_and]
  | false =>
      obtain ⟨-, hinput, hexhausted⟩ := h.starved hstopped
      cases ended <;> simp [goesOn, hinput, hexhausted]

theorem give_of_ready_eq {g : Inflater} (h : g.given = g.ready) (n : Nat) : (g.give n).2 = g := by
  simp only [Inflater.give, h, Nat.sub_self, Nat.min_zero, Nat.add_zero]
  cases g
  cases h
  rfl

/-- Window by window, the reader gives out the next bytes of the whole; it gives out none only if it stalls. -/
theorem Stands.decodeWindows (windows : Nat) (h : Stands body f feed)
    (hended : ended = true → feed.1.left = 0 ∧ f.input = []) :
    Stands body (decodeWindows ended windows n f).2 feed ∧
      GivesOut body n f (decodeWindows ended windows n f).1 (decodeWindows ended windows n f).2 ∧
      (0 < windows → 0 < n → (decodeWindows ended windows n f).1 = [] →
        Stalls ended (decodeWindows ended windows n f).2) := by
  induction windows generalizing f n with
  | zero => exact ⟨h, .nothing body n rfl, fun h => absurd h (Nat.lt_irrefl 0)⟩
  | succ windows ih =>
      obtain ⟨hdecode, hgiven, hinput, hstall⟩ := h.decode hended
      obtain ⟨hgive, hout, hlength⟩ := hdecode.give n
      have hout' : GivesOut body n f ((f.decode ended).give n).1 ((f.decode ended).give n).2 :=
        ⟨hgiven ▸ hout.bytes, hout.length_le, hgiven ▸ hout.given⟩
      -- Nothing is given out only if nothing has been made ready.
      have hnone : 0 < n → ((f.decode ended).give n).1 = [] → Stalls ended ((f.decode ended).give n).2 := by
        intro hn hnil
        rw [hnil, List.length_nil] at hlength
        have hstalls : Stalls ended (f.decode ended) := hstall.resolve_left (by omega)
        rwa [give_of_ready_eq hstalls.ready_eq]
      rcases hb : (f.decode ended).give n with ⟨bs, g⟩
      simp only [hb] at hgive hout' hnone
      simp only [Inflater.decodeWindows, hb]
      split
      · rename_i hgoes
        simp only [Bool.and_eq_true, decide_eq_true_eq] at hgoes
        have hg : ended = true → feed.1.left = 0 ∧ g.input = [] := fun he =>
          ⟨(hended he).1, by rw [← hinput he, show g = ((f.decode ended).give n).2 by rw [hb]]; rfl⟩
        obtain ⟨hmore, hmout, -⟩ := ih (n := n - bs.length) hgive hg
        refine ⟨hmore, hout'.append hmout (by omega), fun _ hn hnil => ?_⟩
        have hbs : bs = [] := (List.append_eq_nil_iff.1 hnil).1
        have hfalse := (hnone hn hbs).goesOn_eq_false
        rw [hgoes.1] at hfalse
        cases hfalse
      · exact ⟨hgive, hout', fun _ => hnone⟩

/-- With the bytes at hand the reader gives out the next bytes of the whole. It gives out none only if it is
corrupt, has been exhausted before, or stalls. -/
theorem Stands.advance (ended : Bool) (h : Stands body f feed) (hended : ended = true → feed.1.left = 0 ∧ f.input = [])
    (hn : 0 < n) :
    Stands body (f.advance ended n).2 feed ∧ GivesOut body n f (f.advance ended n).1 (f.advance ended n).2 ∧
      ((f.advance ended n).1 = [] →
        (f.advance ended n).2 = f ∧ (f.isCorrupt = true ∨ f.exhausted = true) ∨
          Stalls ended (f.advance ended n).2) := by
  unfold Inflater.advance
  split
  · rename_i hstop
    exact ⟨h, .nothing body n rfl, fun _ => .inl ⟨rfl, Bool.or_eq_true_iff.1 hstop⟩⟩
  · split
    · rename_i hready
      obtain ⟨hgive, hout, hlength⟩ := h.give n
      refine ⟨hgive, hout, fun hnil => ?_⟩
      rw [hnil, List.length_nil] at hlength
      omega
    · obtain ⟨hwindows, hout, hstall⟩ := h.decodeWindows (n := n) (n / windowSize + 2) hended
      exact ⟨hwindows, hout, fun hnil => .inr (hstall (Nat.succ_pos _) hn hnil)⟩

end

theorem isDone_iff {f : Inflater} : f.isDone = true ↔ f.decoder.phase = .done := by
  unfold isDone
  split
  · rename_i h
    simp only [h]
  · rename_i h
    exact ⟨fun k => (nomatch k), fun k => absurd k h⟩

theorem isCorrupt_iff {f : Inflater} : f.isCorrupt = true ↔ f.decoder.phase = .corrupt := by
  unfold isCorrupt
  split
  · rename_i h
    simp only [h]
  · rename_i h
    exact ⟨fun k => (nomatch k), fun k => absurd k h⟩

theorem progress_eq_corrupt {f : Inflater} (h : f.progress = .corrupt) : f.decoder.phase = .corrupt := by
  unfold progress at h
  split at h
  · rename_i hcorrupt
    exact isCorrupt_iff.1 hcorrupt
  · split at h <;> cases h

theorem progress_eq_finished {f : Inflater} (h : f.progress = .finished) :
    f.decoder.phase = .done ∧ f.given = f.ready := by
  unfold progress at h
  split at h
  · cases h
  · split at h
    · rename_i hdone
      exact ⟨isDone_iff.1 hdone.1, hdone.2⟩
    · cases h

theorem progress_eq_more {f : Inflater} (h : f.progress = .more) :
    f.decoder.phase ≠ .corrupt ∧ ¬ (f.decoder.phase = .done ∧ f.given = f.ready) := by
  unfold progress at h
  split at h
  · cases h
  · rename_i hcorrupt
    split at h
    · cases h
    · rename_i hdone
      exact ⟨hcorrupt ∘ isCorrupt_iff.2, fun k => hdone ⟨isDone_iff.2 k.1, k.2⟩⟩

theorem hasStopped_iff {d : Decoder} : d.hasStopped = true ↔ d.phase = .done ∨ d.phase = .corrupt := by
  unfold Decoder.hasStopped
  split
  · rename_i h
    simp only [h, true_or]
  · rename_i h
    simp only [h, or_true]
  · rename_i h₁ h₂
    exact ⟨fun k => (nomatch k), fun k => (k.elim h₁ h₂).elim⟩

/-- Filling takes bytes from the segment only when none are at hand. It answers that there are none left only
where the segment ends. -/
inductive FillOutcome (f : Inflater) (a : Segment × Source) :
    Attempt IoError Bool → Inflater → Segment × Source → Prop where
  | filled {bs : Bytes} {b : Segment × Source} {ended : Bool} (hinput : f.input = [])
      (hended : ended = true ↔ bs = []) (hbs : bs = [] → a.1.left = 0) (hgives : Segment.Gives a bs b) :
      FillOutcome f a (.ok ended) { f with input := bs } b
  | atHand (hinput : f.input ≠ []) : FillOutcome f a (.ok false) f a
  | failed {e : IoError} {b : Segment × Source} (hgives : Segment.Gives a [] b)
      (hretry : e.isInterruption = true → b.2.failures < a.2.failures)
      (hfilled : Segment.IsFilled a → e.isInterruption = true) : FillOutcome f a (.error e) f b
  | waits {b : Segment × Source} (hgives : Segment.Gives a [] b) (hclear : ¬ Segment.IsClear a) :
      FillOutcome f a .waiting f b

theorem fill_outcome {f g : Inflater} {a b : Segment × Source} {r : Attempt IoError Bool}
    (h : f.fill a = (r, g, b)) : FillOutcome f a r g b := by
  unfold fill at h
  cases hinput : f.input with
  | cons c cs =>
      simp only [hinput, List.isEmpty_cons, Bool.false_eq_true, if_false, Prod.mk.injEq] at h
      obtain ⟨rfl, rfl, rfl⟩ := h
      exact .atHand (by rw [hinput]; exact List.cons_ne_nil c cs)
  | nil =>
      rcases hr : (Reader.read a inflatePiece : Attempt IoError Bytes × Segment × Source) with ⟨q, c⟩
      simp only [hinput, List.isEmpty_nil, if_true, hr] at h
      cases Segment.read_outcome hr with
      | bytes hbs hn hgives =>
          simp only [Prod.mk.injEq] at h
          obtain ⟨rfl, rfl, rfl⟩ := h
          exact .filled hinput List.isEmpty_iff (fun hnil => (hbs hnil).resolve_left (by decide)) hgives
      | failed hgives hretry hfilled =>
          simp only [Prod.mk.injEq] at h
          obtain ⟨rfl, rfl, rfl⟩ := h
          exact .failed hgives hretry hfilled
      | waits hgives hclear =>
          simp only [Prod.mk.injEq] at h
          obtain ⟨rfl, rfl, rfl⟩ := h
          exact .waits hgives hclear

/-- Bytes that have been moved from the segment into the reader are still to come. -/
theorem Stands.fill {body : Bytes} {f g : Inflater} {a b : Segment × Source} {r : Attempt IoError Bool}
    (h : Stands body f a) (hfill : FillOutcome f a r g b) :
    Stands body g b ∧ g.given = f.given ∧ (r = .ok true → b.1.left = 0 ∧ g.input = []) := by
  obtain ⟨⟨fed, hbits, hd⟩, hgiven, hready, hexhausted⟩ := h
  have hstay : ∀ {b : Segment × Source}, Segment.Gives a [] b → Stands body f b := by
    intro b hgives
    have htake := hgives.take_data
    have hleft := hgives.left
    rw [List.nil_append] at htake
    rw [List.length_nil, Nat.zero_add] at hleft
    exact ⟨⟨fed, htake ▸ hbits, hd⟩, hgiven, hready, hleft ▸ hexhausted⟩
  cases hfill with
  | filled hinput hended hbs hgives =>
      rename_i bs ended
      have hleft := hgives.left
      refine ⟨⟨⟨fed, ?_, hd⟩, hgiven, hready, fun hex => ?_⟩, rfl, fun hr => ?_⟩
      · rw [hbits, hinput, hgives.take_data, bitsOfAll_append]
        rfl
      · obtain ⟨hstopped, -, hzero⟩ := hexhausted hex
        have hnil : bs = [] := List.eq_nil_of_length_eq_zero (by omega)
        exact ⟨hstopped, hnil, by omega⟩
      · have hnil : bs = [] := hended.1 (Attempt.ok.inj hr)
        have hzero := hbs hnil
        exact ⟨by omega, hnil⟩
  | atHand hinput => exact ⟨⟨⟨fed, hbits, hd⟩, hgiven, hready, hexhausted⟩, rfl, fun hr => nomatch hr⟩
  | failed hgives _ _ => exact ⟨hstay hgives, rfl, fun hr => nomatch hr⟩
  | waits hgives _ => exact ⟨hstay hgives, rfl, fun hr => nomatch hr⟩

theorem FillOutcome.gives {f g : Inflater} {a b : Segment × Source} {r : Attempt IoError Bool}
    (h : FillOutcome f a r g b) : ∃ bs, Segment.Gives a bs b := by
  cases h with
  | filled _ _ _ hgives => exact ⟨_, hgives⟩
  | atHand _ => exact ⟨[], .refl a⟩
  | failed hgives _ _ => exact ⟨[], hgives⟩
  | waits hgives _ => exact ⟨[], hgives⟩

/-- Unless the segment ends, there are bytes at hand after filling, and what has been taken for it counts. -/
theorem FillOutcome.input_ne_nil {f g : Inflater} {a b : Segment × Source}
    (h : FillOutcome f a (.ok false) g b) :
    g.input ≠ [] ∧ b.1.left + 1 ≤ a.1.left + (if f.input = [] then 0 else 1) := by
  cases h with
  | filled hinput hended hbs hgives =>
      rename_i bs
      have hne : bs ≠ [] := fun hnil => absurd (hended.2 hnil) Bool.false_ne_true
      have hleft := hgives.left
      have hpos := List.length_pos_iff.2 hne
      rw [if_pos hinput]
      exact ⟨hne, by omega⟩
  | atHand hinput =>
      rw [if_neg hinput]
      exact ⟨hinput, Nat.le_refl _⟩

/-- What the next piece of compressed bytes does for a read of `n` inflated bytes: it ends the read, or it gives out
nothing and leaves the read to the pieces after it. -/
inductive PieceOutcome (n pieces : Nat) (f : Inflater) (a : Segment × Source) :
    Attempt IoError Bytes → Inflater → Segment × Source → Prop where
  | failed {e : IoError} {g : Inflater} {b : Segment × Source} (hfill : f.fill a = (.error e, g, b)) :
      PieceOutcome n pieces f a (.error e) g b
  | waits {g : Inflater} {b : Segment × Source} (hfill : f.fill a = (.waiting, g, b)) :
      PieceOutcome n pieces f a .waiting g b
  | corrupt {ended : Bool} {bs : Bytes} {f₁ g : Inflater} {b : Segment × Source} (hfill : f.fill a = (.ok ended, f₁, b))
      (hadvance : f₁.advance ended n = (bs, g)) (hprogress : g.progress = .corrupt) :
      PieceOutcome n pieces f a (.error corruptError) g b
  | finished {ended : Bool} {bs : Bytes} {f₁ g : Inflater} {b : Segment × Source} (hfill : f.fill a = (.ok ended, f₁, b))
      (hadvance : f₁.advance ended n = (bs, g)) (hprogress : g.progress = .finished) :
      PieceOutcome n pieces f a (.ok bs) g b
  | bytes {ended : Bool} {bs : Bytes} {f₁ g : Inflater} {b : Segment × Source} (hfill : f.fill a = (.ok ended, f₁, b))
      (hadvance : f₁.advance ended n = (bs, g)) (hbs : bs ≠ []) : PieceOutcome n pieces f a (.ok bs) g b
  | incomplete {f₁ g : Inflater} {b : Segment × Source} (hfill : f.fill a = (.ok true, f₁, b))
      (hadvance : f₁.advance true n = ([], g)) (hprogress : g.progress = .more) :
      PieceOutcome n pieces f a (.error incompleteError) g b
  | goesOn {f₁ f₂ g : Inflater} {a₁ b : Segment × Source} {r : Attempt IoError Bytes}
      (hfill : f.fill a = (.ok false, f₁, a₁)) (hadvance : f₁.advance false n = ([], f₂))
      (hprogress : f₂.progress = .more) (hrest : pull n pieces f₂ a₁ = (r, g, b)) : PieceOutcome n pieces f a r g b

theorem piece_outcome {pieces : Nat} {f g : Inflater} {a b : Segment × Source} {r : Attempt IoError Bytes}
    (h : pull n (pieces + 1) f a = (r, g, b)) : PieceOutcome n pieces f a r g b := by
  rcases hfill : f.fill a with ⟨q, f₁, a₁⟩
  simp only [pull, hfill] at h
  cases q with
  | error e =>
      cases h
      exact .failed hfill
  | waiting =>
      cases h
      exact .waits hfill
  | ok ended =>
      rcases hadvance : f₁.advance ended n with ⟨bs, f₂⟩
      simp only [hadvance] at h
      cases hprogress : f₂.progress with
      | corrupt =>
          simp only [hprogress] at h
          cases h
          exact .corrupt hfill hadvance hprogress
      | finished =>
          simp only [hprogress] at h
          cases h
          exact .finished hfill hadvance hprogress
      | more =>
          cases bs with
          | cons c cs =>
              simp only [hprogress] at h
              cases h
              exact .bytes hfill hadvance (List.cons_ne_nil c cs)
          | nil =>
              simp only [hprogress] at h
              cases ended with
              | true =>
                  cases h
                  exact .incomplete hfill hadvance hprogress
              | false => exact .goesOn hfill hadvance hprogress h

/-- Whatever a read of inflated bytes answers, the segment has served it. -/
theorem pull_serves {pieces : Nat} {f g : Inflater} {a b : Segment × Source} {r : Attempt IoError Bytes}
    (h : pull n pieces f a = (r, g, b)) : Segment.Serves a r b := by
  induction pieces generalizing f a with
  | zero =>
      cases h
      exact (Segment.Gives.refl _).serves_ok _
  | succ pieces ih =>
      cases piece_outcome h with
      | failed hfill =>
          cases fill_outcome hfill with
          | failed hgives hretry _ =>
              exact ⟨⟨[], hgives⟩, fun e he hi => hretry (Attempt.error.inj he ▸ hi), fun _ hr => nomatch hr⟩
      | waits hfill =>
          cases fill_outcome hfill with
          | waits hgives hclear =>
              exact ⟨⟨[], hgives⟩, fun e he => (nomatch he), fun hc => absurd hc hclear⟩
      | corrupt hfill _ _ =>
          obtain ⟨cs, hcs⟩ := (fill_outcome hfill).gives
          exact hcs.serves_error rfl
      | finished hfill _ _ =>
          obtain ⟨cs, hcs⟩ := (fill_outcome hfill).gives
          exact hcs.serves_ok _
      | bytes hfill _ _ =>
          obtain ⟨cs, hcs⟩ := (fill_outcome hfill).gives
          exact hcs.serves_ok _
      | incomplete hfill _ _ =>
          obtain ⟨cs, hcs⟩ := (fill_outcome hfill).gives
          exact hcs.serves_error rfl
      | goesOn hfill _ _ hrest =>
          obtain ⟨cs, hcs⟩ := (fill_outcome hfill).gives
          exact hcs.trans_serves (ih hrest)

/-- What one read of `n` inflated bytes answers: the next bytes of what the body inflates to, or its end, or why it has
none; or the source fails or holds its reader up. The reader stands in the body as before, unless the body is corrupt:
then what it has decoded last is lost, and it stays where it is. -/
inductive ReadOutcome (body : Bytes) (n : Nat) (f : Inflater) (a : Segment × Source) :
    Attempt IoError Bytes → Inflater → Segment × Source → Prop where
  | bytes {bs : Bytes} {g : Inflater} {b : Segment × Source} (hbs : bs ≠ []) (hout : GivesOut body n f bs g)
      (hstands : Stands body g b) : ReadOutcome body n f a (.ok bs) g b
  | ended {g : Inflater} {b : Segment × Source} (hdone : (decoded body).phase = .done)
      (hgiven : f.given = (decoded body).out.size) (hsame : g.given = f.given) (hstands : Stands body g b) :
      ReadOutcome body n f a (.ok []) g b
  | corrupt {g : Inflater} {b : Segment × Source} (hcorrupt : (decoded body).phase = .corrupt)
      (hphase : g.decoder.phase = .corrupt) : ReadOutcome body n f a (.error corruptError) g b
  | incomplete {g : Inflater} {b : Segment × Source} (hstopped : (decoded body).hasStopped = false)
      (hsame : g.given = f.given) (hstands : Stands body g b) : ReadOutcome body n f a (.error incompleteError) g b
  | failed {e : IoError} {g : Inflater} {b : Segment × Source} (hfilled : Segment.IsFilled a → e.isInterruption = true)
      (hsame : g.given = f.given) (hstands : Stands body g b) : ReadOutcome body n f a (.error e) g b
  | waits {g : Inflater} {b : Segment × Source} (hclear : ¬ Segment.IsClear a) (hsame : g.given = f.given)
      (hstands : Stands body g b) : ReadOutcome body n f a .waiting g b

/-- Only how much has been given out before matters for what comes next, and what has been taken from the segment for it
does not. -/
theorem ReadOutcome.prepend {body : Bytes} {f f' g : Inflater} {a a' b : Segment × Source}
    {r : Attempt IoError Bytes} (h : ReadOutcome body n f' a' r g b) (hgiven : f'.given = f.given)
    (hgives : ∃ bs, Segment.Gives a bs a') : ReadOutcome body n f a r g b := by
  obtain ⟨bs, hgives⟩ := hgives
  cases h with
  | bytes hbs hout hstands =>
      exact .bytes hbs ⟨hgiven ▸ hout.bytes, hout.length_le, hgiven ▸ hout.given⟩ hstands
  | ended hdone hsize hsame hstands => exact .ended hdone (hgiven ▸ hsize) (hgiven ▸ hsame) hstands
  | corrupt hcorrupt hphase => exact .corrupt hcorrupt hphase
  | incomplete hstopped hsame hstands => exact .incomplete hstopped (hgiven ▸ hsame) hstands
  | failed hfilled hsame hstands => exact .failed (hfilled ∘ hgives.filled) (hgiven ▸ hsame) hstands
  | waits hclear hsame hstands => exact .waits (hclear ∘ hgives.clear) (hgiven ▸ hsame) hstands

/-- A reader that gives out nothing and yet may have more to come had been exhausted before, or it has been fed
all that was at hand. -/
theorem Stands.starved {body : Bytes} {f g : Inflater} {a : Segment × Source} (h : Stands body f a)
    (hprogress : g.progress = .more)
    (hnone : g = f ∧ (f.isCorrupt = true ∨ f.exhausted = true) ∨ Stalls ended g) :
    (decoded body).hasStopped = false ∧ f.input = [] ∧ a.1.left = 0 ∨
      g.input = [] ∧ g.exhausted = ended := by
  obtain ⟨hcorrupt, hdone⟩ := progress_eq_more hprogress
  rcases hnone with ⟨rfl, hc | hexhausted⟩ | hstalls
  · exact absurd (isCorrupt_iff.1 hc) hcorrupt
  · exact .inl (h.exhausted hexhausted)
  · have hstopped : g.decoder.hasStopped = false := by
      rw [Bool.eq_false_iff]
      intro hs
      rcases hasStopped_iff.1 hs with hphase | hphase
      · exact hdone ⟨hphase, hstalls.ready_eq⟩
      · exact hcorrupt hphase
    exact .inr (hstalls.starved hstopped).2

section

variable {body bs : Bytes} {f f₁ g : Inflater} {a b : Segment × Source}

theorem Stands.corrupted (h : Stands body g b) (hprogress : g.progress = .corrupt) :
    ReadOutcome body n f a (.error corruptError) g b := by
  have hphase := progress_eq_corrupt hprogress
  exact .corrupt (h.decoded_eq (hasStopped_iff.2 (.inr hphase)) ▸ hphase) hphase

/-- At the end of the deflate stream there are the last of its bytes, or none: then all of them have been given out. -/
theorem Stands.finished (h : Stands body f a) (hended : ended = true → a.1.left = 0 ∧ f.input = []) (hn : 0 < n)
    (hadvance : f.advance ended n = (bs, g)) (hprogress : g.progress = .finished) :
    ReadOutcome body n f a (.ok bs) g a := by
  obtain ⟨hstands, hout, hnone⟩ := h.advance ended hended hn
  rw [hadvance] at hstands hout hnone
  obtain ⟨hphase, -⟩ := progress_eq_finished hprogress
  have hdecoded := hstands.decoded_eq (hasStopped_iff.2 (.inl hphase))
  by_cases hbs : bs = []
  · subst hbs
    have hsame : g.given = f.given := hout.given
    refine .ended (hdecoded ▸ hphase) ?_ hsame hstands
    rcases hnone rfl with ⟨rfl, hcorrupt | hexhausted⟩ | hstalls
    · rw [isCorrupt_iff.1 hcorrupt] at hphase
      cases hphase
    · have hstopped := (hstands.exhausted hexhausted).1
      rw [hdecoded, hasStopped_iff.2 (.inl hphase)] at hstopped
      cases hstopped
    · rw [hdecoded, ← hsame, hstalls.size_eq]
  · exact .bytes hbs hout hstands

/-- Where the segment ends with nothing more to give out and no end of the deflate stream, the stream was cut off. -/
theorem Stands.incomplete (h : Stands body f a) (hended : a.1.left = 0 ∧ f.input = []) (hn : 0 < n)
    (hadvance : f.advance true n = ([], g)) (hprogress : g.progress = .more) :
    ReadOutcome body n f a (.error incompleteError) g a := by
  obtain ⟨hstands, hout, hnone⟩ := h.advance true (fun _ => hended) hn
  rw [hadvance] at hstands hout hnone
  rcases h.starved hprogress (hnone rfl) with hstarved | hstarved
  · exact .incomplete hstarved.1 hout.given hstands
  · exact .incomplete (hstands.exhausted hstarved.2).1 hout.given hstands

/-- A piece that gives out nothing has used up the bytes at hand, or taken some from the segment and used them up. -/
theorem Stands.goesOn (h : Stands body f a) (hfill : FillOutcome f a (.ok false) f₁ b) (hn : 0 < n)
    (hadvance : f₁.advance false n = ([], g)) (hprogress : g.progress = .more) :
    Stands body g b ∧ g.given = f.given ∧
      b.1.left + (if g.input = [] then 0 else 1) < a.1.left + (if f.input = [] then 0 else 1) := by
  obtain ⟨hstands₁, hgiven₁, -⟩ := h.fill hfill
  obtain ⟨hstands, hout, hnone⟩ := hstands₁.advance (n := n) false nofun hn
  rw [hadvance] at hstands hout hnone
  have hsame : g.given = f₁.given := hout.given
  obtain ⟨hinput, hless⟩ := hfill.input_ne_nil
  have hnil := ((hstands₁.starved hprogress (hnone rfl)).resolve_left fun k => hinput k.2.1).1
  rw [if_pos hnil]
  exact ⟨hstands, hsame.trans hgiven₁, by omega⟩

/-- Enough pieces are one for each byte in the segment, one for the bytes at hand and a last one. -/
theorem pull_outcome {pieces : Nat} {r : Attempt IoError Bytes} (h : pull n pieces f a = (r, g, b))
    (hstands : Stands body f a) (hn : 0 < n) (hpieces : a.1.left + (if f.input = [] then 0 else 1) < pieces) :
    ReadOutcome body n f a r g b := by
  -- Every piece that gives out nothing lowers what is bounded by the number of pieces.
  induction pieces generalizing f a with
  | zero => omega
  | succ pieces ih =>
      cases piece_outcome h with
      | failed hfill =>
          obtain ⟨hstands₁, hgiven₁, -⟩ := hstands.fill (fill_outcome hfill)
          cases fill_outcome hfill with
          | failed _ _ hfilled => exact .failed hfilled hgiven₁ hstands₁
      | waits hfill =>
          obtain ⟨hstands₁, hgiven₁, -⟩ := hstands.fill (fill_outcome hfill)
          cases fill_outcome hfill with
          | waits _ hclear => exact .waits hclear hgiven₁ hstands₁
      | corrupt hfill hadvance hprogress =>
          obtain ⟨hstands₁, -, hended⟩ := hstands.fill (fill_outcome hfill)
          have hstands₂ := (hstands₁.advance _ (fun he => hended (he ▸ rfl)) hn).1
          rw [hadvance] at hstands₂
          exact hstands₂.corrupted hprogress
      | finished hfill hadvance hprogress =>
          obtain ⟨hstands₁, hgiven₁, hended⟩ := hstands.fill (fill_outcome hfill)
          exact (hstands₁.finished (fun he => hended (he ▸ rfl)) hn hadvance hprogress).prepend hgiven₁
            (fill_outcome hfill).gives
      | bytes hfill hadvance hbs =>
          obtain ⟨hstands₁, hgiven₁, hended⟩ := hstands.fill (fill_outcome hfill)
          obtain ⟨hstands₂, hout, -⟩ := hstands₁.advance _ (fun he => hended (he ▸ rfl)) hn
          rw [hadvance] at hstands₂ hout
          exact (ReadOutcome.bytes hbs hout hstands₂).prepend hgiven₁ (fill_outcome hfill).gives
      | incomplete hfill hadvance hprogress =>
          obtain ⟨hstands₁, hgiven₁, hended⟩ := hstands.fill (fill_outcome hfill)
          exact (hstands₁.incomplete (hended rfl) hn hadvance hprogress).prepend hgiven₁ (fill_outcome hfill).gives
      | goesOn hfill hadvance hprogress hrest =>
          obtain ⟨hstands₂, hgiven₂, hless⟩ := hstands.goesOn (fill_outcome hfill) hn hadvance hprogress
          exact (ih hrest hstands₂ (by omega)).prepend hgiven₂ (fill_outcome hfill).gives

end

theorem read_outcome {body : Bytes} {f g : Inflater} {a b : Segment × Source} {r : Attempt IoError Bytes}
    (h : f.read a n = (r, g, b)) (hstands : Stands body f a) (hn : 0 < n) : ReadOutcome body n f a r g b := by
  refine pull_outcome h hstands hn ?_
  split <;> omega

end FrameLink.Inflater
