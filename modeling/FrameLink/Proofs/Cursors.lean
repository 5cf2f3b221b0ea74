import FrameLink.Proofs.Passing

/-! What a cursor gives out over any source, however its reads come out. The bytes given out are the beginning of what
the bytes under the header stand for, as far as the source holds them, and what remains is the rest of the declared
length; a read that fails or waits gives out nothing and leaves it at that. Where all bytes under the header are there
and the source does not fail, only a fault of the deflate stream makes a read fail, and the closing of a cursor that has
been read to its end fails if there is such a fault. -/

namespace FrameLink

open Deflate

namespace Segment

variable {n : Nat} {a a' b : Segment × Source} {r : Attempt IoError Bytes}

theorem ReadOutcome.prepend (h : ReadOutcome n a' r b) (hgives : Gives a [] a') : ReadOutcome n a r b := by
  have hleft : a.1.left = a'.1.left := by rw [hgives.left, List.length_nil, Nat.zero_add]
  cases h with
  | bytes hbs hn k => exact .bytes (fun h => hleft ▸ hbs h) hn (hgives.trans k)
  | failed k hretry hfilled =>
      exact .failed (hgives.trans k) (fun he => Nat.lt_of_lt_of_le (hretry he) hgives.source.failures)
        (hfilled ∘ hgives.filled)
  | waits k hclear => exact .waits (hgives.trans k) (hclear ∘ hgives.clear)

/-- A read of a segment that is tried again when interrupted comes to what one read comes to, but not to an
interruption. -/
theorem readThrough_outcome (hr : Reader.readThrough a n = (r, b)) :
    ReadOutcome n a r b ∧ ∀ e, r = .error e → e.isInterruption = false := by
  have hstep : ∀ s e t, Gives a [] s → Reader.read s n = (.error e, t) → e.isInterruption = true →
      Gives a [] t ∧ Reader.interruptions t < Reader.interruptions s := by
    intro s e t hs hread he
    cases read_outcome hread with
    | failed hgives hretry _ => exact ⟨hs.trans hgives, hretry he⟩
  obtain ⟨t, ht, heq, hne⟩ := Reader.readThrough_eq_read hstep (Gives.refl a)
  rw [heq] at hr
  rw [hr] at hne
  exact ⟨(read_outcome hr).prepend ht, hne⟩

end Segment

namespace Inflater

variable {n : Nat} {body : Bytes} {f g : Inflater} {a b : Segment × Source} {r : Attempt IoError Bytes}

/-- So does a read of inflated bytes. -/
theorem readThrough_outcome (hr : Reader.readThrough (f, a) n = (r, g, b)) (hstands : f.Stands body a) (hn : 0 < n) :
    ReadOutcome body n f a r g b ∧ ∀ e, r = .error e → e.isInterruption = false := by
  have hstep : ∀ s e t, ((∃ bs, Segment.Gives a bs s.2) ∧ Inflater.Stands body s.1 s.2 ∧ s.1.given = f.given) →
      (Reader.read s n : Attempt IoError Bytes × Inflater × Segment × Source) = (.error e, t) →
      e.isInterruption = true →
      ((∃ bs, Segment.Gives a bs t.2) ∧ Inflater.Stands body t.1 t.2 ∧ t.1.given = f.given) ∧
        Reader.interruptions t < Reader.interruptions s := by
    rintro ⟨f₁, a₁⟩ e ⟨f₂, a₂⟩ ⟨⟨bs, hbs⟩, hs, hg⟩ hread he
    have hserves : Segment.Serves a₁ (.error e) a₂ := pull_serves hread
    obtain ⟨cs, hcs⟩ := hserves.gives
    refine ⟨⟨⟨bs ++ cs, hbs.trans hcs⟩, ?_⟩, hserves.retry e rfl he⟩
    cases read_outcome hread hs hn with
    | corrupt _ _ => cases he
    | incomplete _ _ _ => cases he
    | failed _ hsame hstands₂ => exact ⟨hstands₂, hsame.trans hg⟩
  obtain ⟨⟨f₁, a₁⟩, ⟨hgives, hs, hg⟩, heq, hne⟩ := Reader.readThrough_eq_read hstep (s := (f, a))
    ⟨⟨[], .refl a⟩, hstands, rfl⟩
  rw [heq] at hr
  rw [hr] at hne
  exact ⟨(read_outcome hr hs hn).prepend hg hgives, hne⟩

/-- A reader that has met a corrupt stream decodes nothing any more, whatever is at hand. -/
theorem progress_of_corrupt (n : Nat) (ended : Bool) (hphase : f.decoder.phase = .corrupt) :
    f.advance ended n = ([], f) ∧ f.progress = .corrupt := by
  have hcorrupt : f.isCorrupt = true := isCorrupt_iff.2 hphase
  constructor
  · rw [advance, hcorrupt, Bool.true_or, if_pos rfl]
  · rw [progress, hcorrupt, if_pos rfl]

/-- So it gives out nothing either, and all that it tells of a segment that does not fail is that the stream is
corrupt. -/
theorem pull_of_corrupt {pieces : Nat} (h : pull n (pieces + 1) f a = (r, g, b)) (hphase : f.decoder.phase = .corrupt) :
    g.decoder.phase = .corrupt ∧ (∀ bs, r ≠ .ok bs) ∧
      (Segment.IsFilled a → ∀ e, r = .error e → e = corruptError ∨ e.isInterruption = true) := by
  rcases hf : f.fill a with ⟨q, f₁, a₁⟩
  have hphase₁ : f₁.decoder.phase = .corrupt := by
    cases fill_outcome hf <;> exact hphase
  cases q with
  | ok ended =>
      obtain ⟨hadvance, hprogress⟩ := progress_of_corrupt n ended hphase₁
      simp only [pull, hf, hadvance, hprogress, Prod.mk.injEq] at h
      obtain ⟨rfl, rfl, rfl⟩ := h
      exact ⟨hphase₁, by simp, fun _ e he => .inl (Attempt.error.inj he).symm⟩
  | error e =>
      simp only [pull, hf, Prod.mk.injEq] at h
      obtain ⟨rfl, rfl, rfl⟩ := h
      cases fill_outcome hf with
      | failed _ _ hfilled => exact ⟨hphase, by simp, fun ha e he => .inr (Attempt.error.inj he ▸ hfilled ha)⟩
  | waiting =>
      simp only [pull, hf, Prod.mk.injEq] at h
      obtain ⟨rfl, rfl, rfl⟩ := h
      exact ⟨hphase₁, by simp, by simp⟩

theorem readThrough_of_corrupt (hr : Reader.readThrough (f, a) n = (r, g, b)) (hphase : f.decoder.phase = .corrupt) :
    g.decoder.phase = .corrupt ∧ (∀ bs, r ≠ .ok bs) ∧ (Segment.IsFilled a → ∀ e, r = .error e → e = corruptError) := by
  have hstep : ∀ s e t, ((∃ bs, Segment.Gives a bs s.2) ∧ s.1.decoder.phase = .corrupt) →
      (Reader.read s n : Attempt IoError Bytes × Inflater × Segment × Source) = (.error e, t) →
      e.isInterruption = true →
      ((∃ bs, Segment.Gives a bs t.2) ∧ t.1.decoder.phase = .corrupt) ∧
        Reader.interruptions t < Reader.interruptions s := by
    rintro ⟨f₁, a₁⟩ e ⟨f₂, a₂⟩ ⟨⟨bs, hbs⟩, hs⟩ hread he
    have hserves : Segment.Serves a₁ (.error e) a₂ := pull_serves hread
    obtain ⟨cs, hcs⟩ := hserves.gives
    exact ⟨⟨⟨bs ++ cs, hbs.trans hcs⟩, (pull_of_corrupt hread hs).1⟩, hserves.retry e rfl he⟩
  obtain ⟨⟨f₁, a₁⟩, ⟨⟨bs, hbs⟩, hs⟩, heq, hne⟩ := Reader.readThrough_eq_read hstep (s := (f, a)) ⟨⟨[], .refl a⟩, hphase⟩
  rw [heq] at hr
  rw [hr] at hne
  obtain ⟨hg, hok, htold⟩ := pull_of_corrupt hr hs
  refine ⟨hg, hok, fun ha e he => (htold (hbs.filled ha) e he).resolve_right fun hi => ?_⟩
  rw [hne e he] at hi
  cases hi

end Inflater

namespace Cursor

/-- What the bytes `body` under a header come to: themselves, or whatever comes out of them as a deflate stream. -/
def contents (h : Header) (body : Bytes) : Bytes :=
  if h.isCompressed then (decoded body).out.toList else body

/-- The failure of a window whose reader ends early. -/
def shortError (w : Window) : IoError :=
  ⟨.invalidData, s!"source ended with {w.left} bytes still expected"⟩

/-- What can be wrong with a compressed payload of which all bytes are there, and what its reader is told: it is no
deflate stream, ends inside one, or comes to less or more than the declared length. -/
inductive Fault (h : Header) (body : Bytes) : LinkError → Prop where
  | corrupt (hphase : (decoded body).phase = .corrupt) : Fault h body (.ofPayloadError Inflater.corruptError)
  | incomplete (hstopped : (decoded body).hasStopped = false) : Fault h body (.ofPayloadError Inflater.incompleteError)
  | short (w : Window) (hdone : (decoded body).phase = .done) (hsize : (decoded body).out.size < h.payloadLength) :
      Fault h body (.ofPayloadError (shortError w))
  | long (hsize : h.payloadLength < (decoded body).out.size) : Fault h body tooLong

/-- The cursor has been opened over a payload under the header `h`, of which the source held the bytes `body`, and has
given out `got` of what they come to. -/
inductive Follows (h : Header) (body got : Bytes) : Cursor → Source → Prop where
  | raw {seg : Segment} {src : Source} (hraw : h.isCompressed = false)
      (hleft : got.length + seg.left = h.payloadLength) (hbody : body = got ++ src.data.take seg.left) :
      Follows h body got (.raw seg) src
  | deflated {w : Window} {f : Inflater} {seg : Segment} {src : Source} (hcompressed : h.isCompressed = true)
      (hstands : f.Stands body (seg, src)) (hopen : w.closed = false)
      (hleft : f.given + w.left = h.payloadLength) (hgot : got = (decoded body).out.toList.take f.given) :
      Follows h body got (.deflated w f seg) src
  /-- The deflate stream has turned out to be corrupt; what had been decoded with it is lost. -/
  | corrupt {w : Window} {f : Inflater} {seg : Segment} {src : Source} (hcompressed : h.isCompressed = true)
      (hphase : f.decoder.phase = .corrupt) (hcorrupt : (decoded body).phase = .corrupt) (hopen : w.closed = false)
      (hleft : got.length + w.left = h.payloadLength) (hgot : got <+: (decoded body).out.toList) :
      Follows h body got (.deflated w f seg) src

section

variable {h : Header} {body got : Bytes} {c : Cursor} {src : Source}

theorem length_got {f : Inflater} {feed : Segment × Source} (hf : f.Stands body feed)
    (hgot : got = (decoded body).out.toList.take f.given) : got.length = f.given := by
  have hprefix := hf.out_prefix.length_le
  have hgiven := hf.given_le
  have hready := hf.ready_le
  rw [Array.length_toList] at hprefix
  rw [hgot, List.length_take]
  omega

theorem remaining_deflated {w : Window} {f : Inflater} {seg : Segment} (hopen : w.closed = false) :
    (Cursor.deflated w f seg).remaining = w.left := by
  simp only [Cursor.remaining, Window.remaining, hopen, Bool.false_eq_true, if_false]

theorem follows_ofHeader (h : Header) (src : Source) :
    Follows h (src.data.take (extendWord h.packetLength)) [] (ofHeader h) src := by
  unfold ofHeader
  split
  · rename_i hc
    refine .deflated hc (Inflater.stands_new (⟨extendWord h.packetLength, false⟩, src)) rfl ?_ List.take_zero.symm
    rw [Header.payloadLength, if_pos hc]
    exact Nat.zero_add _
  · rename_i hc
    refine .raw (Bool.eq_false_iff.2 hc) ?_ rfl
    rw [Header.payloadLength, if_neg hc, List.length_nil, Nat.zero_add]

/-- The bytes given out and those that remain make up the declared length. -/
theorem Follows.remaining (hf : Follows h body got c src) : got.length + c.remaining = h.payloadLength := by
  cases hf with
  | raw _ hleft _ => exact hleft
  | deflated _ hstands hopen hleft hgot => rw [length_got hstands hgot, remaining_deflated hopen, hleft]
  | corrupt _ _ _ hopen hleft _ => rw [remaining_deflated hopen, hleft]

/-- The bytes given out are the first ones of what there is. -/
theorem Follows.isPrefix (hf : Follows h body got c src) : got <+: contents h body := by
  unfold contents
  cases hf with
  | raw hraw _ hbody =>
      rw [hraw, if_neg Bool.false_ne_true, hbody]
      exact List.prefix_append _ _
  | deflated hcompressed _ _ _ hgot =>
      rw [if_pos hcompressed, hgot]
      exact List.take_prefix _ _
  | corrupt hcompressed _ _ _ _ hgot => rwa [if_pos hcompressed]

/-- What one read of up to `n` bytes answers: bytes that come next, a refusal because fewer remain, or a failure; or it
waits for the source. -/
inductive Reading (h : Header) (body got : Bytes) (n : Nat) (c : Cursor) (src : Source) :
    Attempt LinkError Bytes → Cursor → Source → Prop where
  | bytes {bs : Bytes} {d : Cursor} {src' : Source} (hne : 0 < n → bs ≠ []) (hn : n ≤ c.remaining)
      (hlength : bs.length ≤ n) (hfollows : Follows h body (got ++ bs) d src') :
      Reading h body got n c src (.ok bs) d src'
  | refused (hn : c.remaining < n) : Reading h body got n c src (.error (.overread n c.remaining)) c src
  | failed {cause : IoError} {d : Cursor} {src' : Source} (hn : n ≤ c.remaining)
      (hfault : Segment.IsFilled (c.segment, src) → h.isCompressed = true ∧ Fault h body (.ofPayloadError cause))
      (hfollows : Follows h body got d src') : Reading h body got n c src (.error (.ofPayloadError cause)) d src'
  | waits {d : Cursor} {src' : Source} (hn : n ≤ c.remaining) (hclear : ¬ Segment.IsClear (c.segment, src))
      (hfollows : Follows h body got d src') : Reading h body got n c src .waiting d src'

theorem isOverread_ofPayloadError (e : IoError) : (LinkError.ofPayloadError e).isOverread = false := by
  unfold LinkError.ofPayloadError
  split <;> rfl

/-- What a read answers through a window that is no smaller than the request. -/
def throughWindow {σ : Type} (w : Window) : Attempt IoError Bytes × σ → Attempt IoError Bytes × Window × σ
  | (.ok [], s) => (.error (shortError w), w, s)
  | (.ok (b :: bs), s) => (.ok (b :: bs), { w with left := w.left - (b :: bs).length }, s)
  | (.error e, s) => (.error e, w, s)
  | (.waiting, s) => (.waiting, w, s)

theorem read_window {σ : Type} [Reader σ] {w : Window} {n : Nat} (hn : 0 < n) (hle : n ≤ w.left) (s : σ) :
    Reader.read (w, s) n = throughWindow w (Reader.read s n) := by
  have hzero : ¬ (w.left = 0 ∨ n = 0) := by omega
  change w.read s n = _
  rcases hr : Reader.read s n with ⟨r, t⟩
  have hr' : Reader.read s (min n w.left) = (r, t) := by rw [Nat.min_eq_left hle, hr]
  match r, hr' with
  | .ok [], hr' => simp only [Window.read, cappedRead, if_neg hzero, hr', throughWindow, shortError]
  | .ok (b :: bs), hr' => simp only [Window.read, cappedRead, if_neg hzero, hr', throughWindow]
  | .error e, hr' => simp only [Window.read, cappedRead, if_neg hzero, hr', throughWindow]
  | .waiting, hr' => simp only [Window.read, cappedRead, if_neg hzero, hr', throughWindow]

/-- Trying again through a window is trying again beneath it. -/
theorem readThrough_window {σ : Type} [Reader σ] {w : Window} {n : Nat} (hn : 0 < n) (hle : n ≤ w.left)
    (s : σ) : Reader.readThrough (w, s) n = throughWindow w (Reader.readThrough s n) := by
  have h : ∀ tries (s : σ), Reader.readRetrying n tries (w, s) = throughWindow w (Reader.readRetrying n tries s) := by
    intro tries
    induction tries with
    | zero => exact read_window hn hle
    | succ tries ih =>
        intro s
        have hwindow := read_window hn hle s
        rcases hr : Reader.read s n with ⟨r, t⟩
        rw [hr] at hwindow
        match r, hr, hwindow with
        | .ok [], hr, hwindow =>
            simp only [throughWindow] at hwindow
            simp only [Reader.readRetrying, hr, hwindow, throughWindow]
            rfl
        | .ok (b :: bs), hr, hwindow =>
            simp only [throughWindow] at hwindow
            simp only [Reader.readRetrying, hr, hwindow, throughWindow]
        | .error e, hr, hwindow =>
            simp only [throughWindow] at hwindow
            simp only [Reader.readRetrying, hr, hwindow]
            split
            · exact ih t
            · rfl
        | .waiting, hr, hwindow =>
            simp only [throughWindow] at hwindow
            simp only [Reader.readRetrying, hr, hwindow, throughWindow]
  exact h _ s

theorem readBounded_of_le {σ : Type} [BoundedReader σ] {s : σ} {n : Nat} (hn : 0 < n)
    (hle : n ≤ BoundedReader.remaining s) :
    BoundedReader.readBounded s n =
      ((Reader.readThrough s n).1.mapError LinkError.ofPayloadError, (Reader.readThrough s n).2) := by
  rw [BoundedReader.readBounded, if_neg (by omega), if_neg (by omega)]

theorem readBounded_zero {σ : Type} [BoundedReader σ] (s : σ) : BoundedReader.readBounded s 0 = (.ok [], s) := by
  rw [BoundedReader.readBounded, if_neg (Nat.not_lt_zero _), if_pos rfl]

theorem readBounded_of_lt {σ : Type} [BoundedReader σ] {s : σ} {n : Nat} (hlt : BoundedReader.remaining s < n) :
    BoundedReader.readBounded s n = (.error (.overread n (BoundedReader.remaining s)), s) := by
  rw [BoundedReader.readBounded, if_pos hlt]

/-- A read that asks for too much or for nothing leaves the cursor alone. -/
theorem read_of_lt {n : Nat} (hlt : c.remaining < n) :
    c.read src n = (.error (.overread n c.remaining), c, src) := by
  cases c with
  | raw seg => simp only [read, readBounded_of_lt (s := (seg, src)) hlt]; rfl
  | deflated w f seg => simp only [read, readBounded_of_lt (s := (w, f, seg, src)) hlt]; rfl

theorem read_zero (c : Cursor) (src : Source) : c.read src 0 = (.ok [], c, src) := by
  cases c with
  | raw seg => simp only [read, readBounded_zero]
  | deflated w f seg => simp only [read, readBounded_zero]

section

variable {n : Nat} {seg : Segment} {w : Window} {f : Inflater} {d : Cursor} {src' : Source}
  {r : Attempt LinkError Bytes}

theorem reading_raw (hr : (Cursor.raw seg).read src n = (r, d, src')) (hn : 0 < n) (hle : n ≤ seg.left)
    (hraw : h.isCompressed = false) (hleft : got.length + seg.left = h.payloadLength)
    (hbody : body = got ++ src.data.take seg.left) : Reading h body got n (.raw seg) src r d src' := by
  rcases ht : (Reader.readThrough (seg, src) n : Attempt IoError Bytes × Segment × Source) with ⟨q, b⟩
  obtain ⟨houtcome, hnever⟩ := Segment.readThrough_outcome ht
  simp only [read, readBounded_of_le (s := (seg, src)) hn hle, ht, Prod.mk.injEq] at hr
  obtain ⟨rfl, rfl, rfl⟩ := hr
  cases houtcome with
  | bytes hbs hlength hgives =>
      rename_i bs
      have hshrunk : seg.left = bs.length + b.1.left := hgives.left
      refine .bytes (fun _ hnil => ?_) hle hlength (.raw hraw ?_ ?_)
      · have hnone : n = 0 ∨ seg.left = 0 := hbs hnil
        omega
      · rw [List.length_append]
        omega
      · rw [hbody, hgives.take_data, List.append_assoc]
  | failed hgives _ hfilled =>
      have hsame := hgives.left
      rw [List.length_nil, Nat.zero_add] at hsame
      refine .failed hle (fun hf => ?_) (.raw hraw (hsame ▸ hleft) ?_)
      · have hfalse := hnever _ rfl
        rw [hfilled hf] at hfalse
        cases hfalse
      · rw [hbody, hgives.take_data, List.nil_append]
  | waits hgives hclear =>
      have hsame := hgives.left
      rw [List.length_nil, Nat.zero_add] at hsame
      refine .waits hle hclear (.raw hraw (hsame ▸ hleft) ?_)
      rw [hbody, hgives.take_data, List.nil_append]

/-- A read of a compressed payload is one of the inflating reader, seen through the window. -/
theorem read_deflated (hr : (Cursor.deflated w f seg).read src n = (r, d, src')) (hn : 0 < n) (hle : n ≤ w.left)
    (hopen : w.closed = false) :
    ∃ q g b w', throughWindow w (Reader.readThrough (f, seg, src) n) = (q, w', g, b) ∧
      r = q.mapError .ofPayloadError ∧ d = .deflated w' g b.1 ∧ src' = b.2 := by
  have hremaining : (Cursor.deflated w f seg).remaining = w.left := remaining_deflated hopen
  have hle' : n ≤ BoundedReader.remaining (w, f, seg, src) := Nat.le_trans hle (Nat.le_of_eq hremaining.symm)
  have hread := readBounded_of_le (s := (w, f, seg, src)) hn hle'
  rw [readThrough_window hn hle] at hread
  rcases ht : throughWindow w (Reader.readThrough (f, seg, src) n) with ⟨q, w', g, b⟩
  simp only [read, hread, ht, Prod.mk.injEq] at hr
  obtain ⟨rfl, rfl, rfl⟩ := hr
  exact ⟨q, g, b, w', rfl, rfl, rfl, rfl⟩

theorem reading_deflated (hr : (Cursor.deflated w f seg).read src n = (r, d, src')) (hn : 0 < n) (hle : n ≤ w.left)
    (hcompressed : h.isCompressed = true) (hstands : f.Stands body (seg, src)) (hopen : w.closed = false)
    (hleft : f.given + w.left = h.payloadLength) (hgot : got = (decoded body).out.toList.take f.given) :
    Reading h body got n (.deflated w f seg) src r d src' := by
  have hle' : n ≤ (Cursor.deflated w f seg).remaining := by rwa [remaining_deflated hopen]
  -- As long as nothing is given out, the window and the count of bytes stay as they are.
  have hstay : ∀ {g : Inflater} {b : Segment × Source}, g.given = f.given → g.Stands body b →
      Follows h body got (.deflated w g b.1) b.2 :=
    fun hsame hs => .deflated hcompressed hs hopen (hsame ▸ hleft) (hsame ▸ hgot)
  obtain ⟨q', g, b, w', ht, rfl, rfl, rfl⟩ := read_deflated hr hn hle hopen
  rcases hthrough : (Reader.readThrough (f, seg, src) n :
    Attempt IoError Bytes × Inflater × Segment × Source) with ⟨q, g', b'⟩
  rw [hthrough] at ht
  obtain ⟨houtcome, hnever⟩ := Inflater.readThrough_outcome hthrough hstands hn
  cases houtcome with
  | bytes hbs hout hstands' =>
      rename_i bs
      obtain ⟨x, xs, rfl⟩ := List.exists_cons_of_ne_nil hbs
      simp only [throughWindow, Prod.mk.injEq] at ht
      obtain ⟨rfl, rfl, rfl, rfl⟩ := ht
      have hlength := hout.length_le
      refine .bytes (fun _ => hbs) hle' hlength (.deflated hcompressed hstands' hopen ?_ ?_)
      · rw [hout.given]
        simp only
        omega
      · rw [hout.given, List.take_add, ← hgot, ← hout.bytes]
  | ended hdone hgiven hsame hstands' =>
      simp only [throughWindow, Prod.mk.injEq] at ht
      obtain ⟨rfl, rfl, rfl, rfl⟩ := ht
      exact .failed hle' (fun _ => ⟨hcompressed, .short w hdone (by omega)⟩) (hstay hsame hstands')
  | corrupt hcorrupt hphase =>
      simp only [throughWindow, Prod.mk.injEq] at ht
      obtain ⟨rfl, rfl, rfl, rfl⟩ := ht
      refine .failed hle' (fun _ => ⟨hcompressed, .corrupt hcorrupt⟩)
        (.corrupt hcompressed hphase hcorrupt hopen ?_ ?_)
      · rw [length_got hstands hgot, hleft]
      · rw [hgot]
        exact List.take_prefix _ _
  | incomplete hstopped hsame hstands' =>
      simp only [throughWindow, Prod.mk.injEq] at ht
      obtain ⟨rfl, rfl, rfl, rfl⟩ := ht
      exact .failed hle' (fun _ => ⟨hcompressed, .incomplete hstopped⟩) (hstay hsame hstands')
  | failed hfilled hsame hstands' =>
      simp only [throughWindow, Prod.mk.injEq] at ht
      obtain ⟨rfl, rfl, rfl, rfl⟩ := ht
      refine .failed hle' (fun hf => ?_) (hstay hsame hstands')
      have hfalse := hnever _ rfl
      rw [hfilled hf] at hfalse
      cases hfalse
  | waits hclear hsame hstands' =>
      simp only [throughWindow, Prod.mk.injEq] at ht
      obtain ⟨rfl, rfl, rfl, rfl⟩ := ht
      exact .waits hle' hclear (hstay hsame hstands')

theorem reading_corrupt (hr : (Cursor.deflated w f seg).read src n = (r, d, src')) (hn : 0 < n) (hle : n ≤ w.left)
    (hcompressed : h.isCompressed = true) (hphase : f.decoder.phase = .corrupt)
    (hcorrupt : (decoded body).phase = .corrupt) (hopen : w.closed = false)
    (hleft : got.length + w.left = h.payloadLength) (hgot : got <+: (decoded body).out.toList) :
    Reading h body got n (.deflated w f seg) src r d src' := by
  have hle' : n ≤ (Cursor.deflated w f seg).remaining := by rwa [remaining_deflated hopen]
  obtain ⟨q', g, b, w', ht, rfl, rfl, rfl⟩ := read_deflated hr hn hle hopen
  rcases hthrough : (Reader.readThrough (f, seg, src) n :
    Attempt IoError Bytes × Inflater × Segment × Source) with ⟨q, g', b'⟩
  rw [hthrough] at ht
  obtain ⟨hphase', hok, htold⟩ := Inflater.readThrough_of_corrupt hthrough hphase
  have hserves := Inflater.readThrough_serves hthrough
  have hstay : Follows h body got (.deflated w g' b'.1) b'.2 := .corrupt hcompressed hphase' hcorrupt hopen hleft hgot
  cases q with
  | ok bs => exact absurd rfl (hok bs)
  | error e =>
      simp only [throughWindow, Prod.mk.injEq] at ht
      obtain ⟨rfl, rfl, rfl, rfl⟩ := ht
      refine .failed hle' (fun hf => ⟨hcompressed, ?_⟩) hstay
      rw [htold hf e rfl]
      exact .corrupt hcorrupt
  | waiting =>
      simp only [throughWindow, Prod.mk.injEq] at ht
      obtain ⟨rfl, rfl, rfl, rfl⟩ := ht
      exact .waits hle' (fun hc => hserves.clear hc rfl) hstay

theorem Follows.reading (hf : Follows h body got c src) (hr : c.read src n = (r, d, src')) :
    Reading h body got n c src r d src' := by
  by_cases hlt : c.remaining < n
  · rw [read_of_lt hlt] at hr
    simp only [Prod.mk.injEq] at hr
    obtain ⟨rfl, rfl, rfl⟩ := hr
    exact .refused hlt
  have hle : n ≤ c.remaining := Nat.le_of_not_lt hlt
  rcases Nat.eq_zero_or_pos n with rfl | hn
  · rw [read_zero] at hr
    simp only [Prod.mk.injEq] at hr
    obtain ⟨rfl, rfl, rfl⟩ := hr
    exact .bytes (fun h => absurd h (Nat.lt_irrefl 0)) hle (Nat.le_refl _) (by rwa [List.append_nil])
  cases hf with
  | raw hraw hleft hbody => exact reading_raw hr hn hle hraw hleft hbody
  | deflated hcompressed hstands hopen hleft hgot =>
      rw [remaining_deflated hopen] at hle
      exact reading_deflated hr hn hle hcompressed hstands hopen hleft hgot
  | corrupt hcompressed hphase hcorrupt hopen hleft hgot =>
      rw [remaining_deflated hopen] at hle
      exact reading_corrupt hr hn hle hcompressed hphase hcorrupt hopen hleft hgot

end

section

variable {f : Inflater} {seg : Segment} {d : Closing} {src' : Source} {r : Attempt LinkError Unit}

theorem verdict_of_drain {verdict : Except LinkError Unit} {seg' : Segment} {src₁ : Source} {bs : Bytes}
    (hr : Closing.drain verdict seg' src₁ = (r, d, src')) (hgives : Segment.Gives (seg, src) bs (seg', src₁)) :
    (r = .ok () → verdict = .ok ()) ∧
      (Segment.IsFilled (seg, src) → ∀ e, r = .error e → verdict = .error e) := by
  obtain ⟨-, hok, hall⟩ := Closing.drain_outcome hr
  refine ⟨hok, fun hfilled e he => ?_⟩
  have hverdict := hall (hgives.filled hfilled) (by rw [he]; nofun)
  rw [he] at hverdict
  cases verdict with
  | ok u => cases hverdict
  | error e' => rw [Attempt.error.inj hverdict]

theorem verdict?_of_run {q : Attempt IoError Bytes} {g : Inflater} {b : Segment × Source}
    (ht : Reader.readThrough (f, seg, src) 1 = (q, g, b)) (hr : (Closing.ending f seg).run src = (r, d, src')) :
    (r = .ok () → Closing.verdict? q = some (.ok ())) ∧
      (Segment.IsFilled (seg, src) → ∀ e, r = .error e → Closing.verdict? q = some (.error e)) := by
  obtain ⟨bs, hbs⟩ := (Inflater.readThrough_serves ht).gives
  rw [Closing.run_ending ht] at hr
  cases hverdict : Closing.verdict? q with
  | some verdict =>
      simp only [hverdict] at hr
      obtain ⟨hok, hfault⟩ := verdict_of_drain hr hbs
      exact ⟨fun h => congrArg some (hok h), fun hfilled e he => congrArg some (hfault hfilled e he)⟩
  | none =>
      simp only [hverdict, Prod.mk.injEq] at hr
      obtain ⟨rfl, rfl, rfl⟩ := hr
      exact ⟨by simp, by simp⟩

/-- Going on to the end of a compressed payload that has been read to its declared length: success means that the
deflate stream ends there, and what is told of a segment that is filled is what is wrong with the payload. -/
theorem ending_verdict (hr : (Closing.ending f seg).run src = (r, d, src')) (hstands : f.Stands body (seg, src))
    (hgiven : f.given = h.payloadLength) :
    (r = .ok () → (decoded body).phase = .done ∧ (decoded body).out.size = f.given) ∧
      (Segment.IsFilled (seg, src) → ∀ e, r = .error e → Fault h body e) := by
  rcases ht : (Reader.readThrough (f, seg, src) 1 :
    Attempt IoError Bytes × Inflater × Segment × Source) with ⟨q, g, b⟩
  obtain ⟨houtcome, hnever⟩ := Inflater.readThrough_outcome ht hstands Nat.one_pos
  obtain ⟨hok, hfault⟩ := verdict?_of_run ht hr
  cases houtcome with
  | bytes hbs hout _ =>
      rename_i bs
      obtain ⟨x, xs, rfl⟩ := List.exists_cons_of_ne_nil hbs
      refine ⟨fun h => (by cases hok h), fun hfilled e he => ?_⟩
      cases hfault hfilled e he
      refine .long (Nat.lt_of_not_le fun hle => ?_)
      have hnone : (decoded body).out.toList.drop f.given = [] := by
        rw [List.drop_eq_nil_iff, Array.length_toList, hgiven]
        exact hle
      have hnil := hout.bytes
      rw [hnone, List.take_nil] at hnil
      cases hnil
  | ended hdone hsize _ _ =>
      exact ⟨fun _ => ⟨hdone, hsize.symm⟩, fun hfilled e he => (by cases hfault hfilled e he)⟩
  | corrupt hcorrupt _ =>
      refine ⟨fun h => (by cases hok h), fun hfilled e he => ?_⟩
      cases hfault hfilled e he
      exact .corrupt hcorrupt
  | incomplete hstopped _ _ =>
      refine ⟨fun h => (by cases hok h), fun hfilled e he => ?_⟩
      cases hfault hfilled e he
      exact .incomplete hstopped
  | failed hinterrupted _ _ =>
      refine ⟨fun h => (by cases hok h), fun hfilled e he => ?_⟩
      have hfalse := hnever _ rfl
      rw [hinterrupted hfilled] at hfalse
      cases hfalse
  | waits _ _ _ => exact ⟨fun h => (by cases hok h), fun hfilled e he => (by cases hfault hfilled e he)⟩

theorem ending_verdict_of_corrupt (hr : (Closing.ending f seg).run src = (r, d, src'))
    (hphase : f.decoder.phase = .corrupt) (hcorrupt : (decoded body).phase = .corrupt) :
    r ≠ .ok () ∧ (Segment.IsFilled (seg, src) → ∀ e, r = .error e → Fault h body e) := by
  rcases ht : (Reader.readThrough (f, seg, src) 1 :
    Attempt IoError Bytes × Inflater × Segment × Source) with ⟨q, g, b⟩
  obtain ⟨-, hnone, htold⟩ := Inflater.readThrough_of_corrupt ht hphase
  obtain ⟨hok, hfault⟩ := verdict?_of_run ht hr
  cases q with
  | ok bs => exact absurd rfl (hnone bs)
  | error e₁ =>
      refine ⟨fun h => (by cases hok h), fun hfilled e he => ?_⟩
      cases hfault hfilled e he
      rw [htold hfilled e₁ rfl]
      exact .corrupt hcorrupt
  | waiting => exact ⟨fun h => (by cases hok h), fun hfilled e he => (by cases hfault hfilled e he)⟩

/-- A cursor that is not at the end of a compressed payload is only drained. -/
theorem Follows.close_eq (hf : Follows h body got c src) (hnot : ¬ (h.isCompressed = true ∧ c.remaining = 0)) :
    c.close = .draining (.ok ()) c.segment := by
  cases hf with
  | raw _ _ _ => rfl
  | deflated hcompressed _ _ _ _ => exact if_neg fun hend => hnot ⟨hcompressed, hend⟩
  | corrupt hcompressed _ _ _ _ _ => exact if_neg fun hend => hnot ⟨hcompressed, hend⟩

/-- The closing of a cursor, over any source. If it succeeds at the end of a compressed payload, the deflate stream ends
there, with the bytes that have been given out; and what it tells of a segment that is filled is what is wrong with a
compressed payload that has been read to its end. -/
theorem Follows.closing (hf : Follows h body got c src) (hr : c.close.run src = (r, d, src')) :
    (r = .ok () → h.isCompressed = true → c.remaining = 0 → inflate? body = some got) ∧
      (Segment.IsFilled (c.segment, src) → ∀ e, r = .error e →
        h.isCompressed = true ∧ c.remaining = 0 ∧ Fault h body e) := by
  by_cases hnot : ¬ (h.isCompressed = true ∧ c.remaining = 0)
  · rw [hf.close_eq hnot] at hr
    refine ⟨fun _ hcompressed hzero => absurd ⟨hcompressed, hzero⟩ hnot, fun hfilled e he => ?_⟩
    cases (verdict_of_drain hr (.refl (c.segment, src))).2 hfilled e he
  obtain ⟨hdeflated, hzero⟩ := Decidable.not_not.1 hnot
  cases hf with
  | raw hraw _ _ =>
      rw [hraw] at hdeflated
      cases hdeflated
  | deflated hcompressed hstands hopen hleft hgot =>
      rename_i w f seg
      have hclose : (Cursor.deflated w f seg).close = .ending f seg := if_pos hzero
      rw [hclose] at hr
      have hgiven : f.given = h.payloadLength := by
        rw [remaining_deflated hopen] at hzero
        omega
      obtain ⟨hok, hfault⟩ := ending_verdict hr hstands hgiven
      refine ⟨fun h _ _ => ?_, fun hfilled e he => ⟨hcompressed, hzero, hfault hfilled e he⟩⟩
      obtain ⟨hdone, hsize⟩ := hok h
      rw [hgot, ← hsize, ← Array.length_toList, List.take_length]
      exact inflate?_eq_some_iff.2 ⟨hdone, rfl⟩
  | corrupt hcompressed hphase hcorrupt hopen hleft hgot =>
      rename_i w f seg
      have hclose : (Cursor.deflated w f seg).close = .ending f seg := if_pos hzero
      rw [hclose] at hr
      obtain ⟨hok, hfault⟩ := ending_verdict_of_corrupt hr hphase hcorrupt
      exact ⟨fun h => absurd h hok, fun hfilled e he => ⟨hcompressed, hzero, hfault hfilled e he⟩⟩

end

end

end Cursor

end FrameLink
