import FrameLink.Proofs.Portions

/-! What finishing a payload comes to after reads of any kind. Success means that the source stands at what follows the
payload, and that a compressed payload which has been read to its end also ends there. Over a source that does not fail,
the source stands there whatever has been answered; and what has been answered tells what is wrong with the payload. -/

namespace FrameLink.Cursor

open Deflate

section

variable {h : Header} {body got : Bytes} {c : Cursor} {src src' : Source} {r : Attempt LinkError Unit}

theorem finish_run (hr : c.finish src = (r, src')) : ∃ d, c.close.run src = (r, d, src') := by
  rcases hrun : c.close.run src with ⟨q, d, t⟩
  simp only [finish, hrun, Prod.mk.injEq] at hr
  obtain ⟨rfl, rfl⟩ := hr
  exact ⟨d, rfl⟩

/-- Finishing takes the source no further than to the end of the segment, and there if it succeeds or if the segment is
filled. -/
theorem finish_gives (hr : c.finish src = (r, src')) :
    ∃ bs seg, Segment.Gives (c.segment, src) bs (seg, src') ∧ (r = .ok () → seg.left = 0) ∧
      (Segment.IsFilled (c.segment, src) → r ≠ .waiting → seg.left = 0) ∧
      (Segment.IsClear (c.segment, src) → r ≠ .waiting) := by
  obtain ⟨d, hrun⟩ := finish_run hr
  obtain ⟨⟨⟨bs, hbs⟩, hclear⟩, hdrained, hpassed⟩ := Closing.run_outcome hrun
  rw [close_segment] at hbs hclear hpassed
  exact ⟨bs, d.segment, hbs, hdrained, hpassed, hclear⟩

theorem tooLong_ne_ofPayloadError (cause : IoError) : tooLong ≠ .ofPayloadError cause := by
  unfold tooLong LinkError.ofPayloadError
  split <;> simp

/-- Nothing is wrong with the bytes as far as they go, but they end inside their deflate stream. -/
def EndsInside (body : Bytes) : Prop :=
  (decoded body).hasStopped = false

/-- What is told of a fault: the payload is to blame, unless its bytes end inside the deflate stream. Then the byte
stream is. -/
theorem Fault.blame {e : LinkError} (hfault : Fault h body e) :
    (∃ reason cause, e = .codec reason cause) ∨ e = .stream Inflater.incompleteError ∧ EndsInside body := by
  cases hfault with
  | corrupt _ => exact .inl ⟨_, _, rfl⟩
  | incomplete hstopped => exact .inr ⟨rfl, hstopped⟩
  | short w _ _ => exact .inl ⟨_, _, rfl⟩
  | long _ => exact .inl ⟨_, _, rfl⟩

/-- A read does not look beyond the declared length, so of a stream that is cut off it tells just that. -/
theorem Fault.eq_incomplete {e : LinkError} {cause : IoError} (hfault : Fault h body e) (he : e = .ofPayloadError cause)
    (hinside : EndsInside body) : e = .stream Inflater.incompleteError := by
  unfold EndsInside at hinside
  cases hfault with
  | corrupt hphase =>
      rw [Decoder.hasStopped, hphase] at hinside
      cases hinside
  | incomplete _ => rfl
  | short w hdone _ =>
      rw [Decoder.hasStopped_of_done hdone] at hinside
      cases hinside
  | long _ => exact absurd he (tooLong_ne_ofPayloadError cause)

end

section

variable {h : Header} {c : Cursor} {src s t : Source} {ns : List Nat} {rs : List (Attempt LinkError Bytes)}
  {r : Attempt LinkError Unit}

/-- From the opening of a cursor to its finish, whatever is asked for in between and however it comes out, the source
gives out its next bytes and no more of them than the header says: all of them if finishing succeeds, and also if
nothing but interruptions ever failed. A success says of a compressed payload that has been read to its end that its
deflate stream ends there. -/
theorem finish_sound (hr : (ofHeader h).readEach ns src = (rs, c, s)) (hfinish : c.finish s = (r, t)) :
    ∃ taken, src.data = taken ++ t.data ∧ taken.length ≤ extendWord h.packetLength ∧
      (r = .ok () → taken.length = extendWord h.packetLength ∧
        (h.isCompressed = true → c.remaining = 0 →
          inflate? taken = some (portions rs) ∧ (portions rs).length = h.payloadLength)) ∧
      (src.IsFaultless → extendWord h.packetLength ≤ src.data.length → r ≠ .waiting →
        taken.length = extendWord h.packetLength) ∧
      (src.IsPrompt ∨ src.IsSmooth ∧ extendWord h.packetLength ≤ src.data.length → r ≠ .waiting) := by
  have hf := (follows_ofHeader h src).afterReads hr
  rw [List.nil_append] at hf
  obtain ⟨bs, hbs⟩ := readEach_gives hr
  obtain ⟨cs, seg, hcs, hdrained, hpassed, hclear⟩ := finish_gives hfinish
  rw [ofHeader_segment] at hbs
  have htaken := hbs.trans hcs
  have hleft : extendWord h.packetLength = (bs ++ cs).length + seg.left := htaken.left
  refine ⟨bs ++ cs, htaken.source.data, by omega, fun hok => ?_, fun hfaultless hlength hanswer => ?_, fun hc => ?_⟩
  · have hzero := hdrained hok
    refine ⟨by omega, fun hcompressed hend => ?_⟩
    have hbody : src.data.take (extendWord h.packetLength) = bs ++ cs := by
      rw [hleft, hzero, Nat.add_zero, htaken.source.data, List.take_left]
    obtain ⟨d, hrun⟩ := finish_run hfinish
    have hlength := hf.remaining
    rw [hend, Nat.add_zero] at hlength
    exact ⟨hbody ▸ (hf.closing hrun).1 hok hcompressed hend, hlength⟩
  · have hzero := hpassed (hbs.filled ⟨hfaultless, hlength⟩) hanswer
    omega
  · exact hclear (hbs.clear (hc.elim .inr fun hwhole => .inl ⟨hwhole.1, hwhole.2⟩))

/-- A compressed payload behind whose deflate stream the segment goes on, in two pieces: all of the segment is gone when
finishing succeeds. With a smaller length declared finishing fails, and all of it is gone as well. -/
theorem finish_sound_in_pieces :
    let src : Source :=
      { items := [.data [1, 5, 0, 250, 255, 0x68, 0x65], .failure ⟨.interrupted, "again"⟩,
          .data [0x6c, 0x6c, 0x6f, 9, 9, 0, 0]] }
    let finished := fun (length : Int32) (ns : List Nat) =>
      ((ofHeader ⟨1, 12, length⟩).readEach ns src).2.1.finish ((ofHeader ⟨1, 12, length⟩).readEach ns src).2.2
    ((finished 5 [2, 3]).1 = .ok () ∧ inflate? (src.data.take 12) = some [0x68, 0x65, 0x6c, 0x6c, 0x6f] ∧
        (finished 5 [2, 3]).2.data = [0, 0]) ∧
      (finished 3 [2, 1]).1 = .error tooLong ∧ (finished 3 [2, 1]).2.data = [0, 0] := by
  intro src finished
  have hrun : ∀ (h : Header) (ns : List Nat), (ofHeader h).readEach ns src =
      (((ofHeader h).readEach ns src).1, ((ofHeader h).readEach ns src).2.1, ((ofHeader h).readEach ns src).2.2) :=
    fun _ _ => rfl
  have hfaultless : src.IsFaultless := by decide
  have hok : (finished 5 [2, 3]).1 = .ok () := by decide +kernel
  have hfault : (finished 3 [2, 1]).1 = .error tooLong := by decide +kernel
  obtain ⟨taken, hdata, -, hsuccess, -, -⟩ := finish_sound (hrun ⟨1, 12, 5⟩ [2, 3]) (Prod.eta _).symm
  obtain ⟨hlength, hend⟩ := hsuccess hok
  obtain ⟨hinflate, -⟩ := hend (by decide) (by decide +kernel)
  obtain ⟨taken', hdata', -, -, hpassed, -⟩ := finish_sound (hrun ⟨1, 12, 3⟩ [2, 1]) (Prod.eta _).symm
  have hlength' := hpassed hfaultless (by decide) (by change (finished 3 [2, 1]).1 ≠ _; rw [hfault]; nofun)
  have htaken : src.data.take 12 = taken := by
    rw [hdata]
    exact List.take_left' hlength
  have hdrop : src.data.drop 12 = (finished 5 [2, 3]).2.data := by
    rw [hdata]
    exact List.drop_left' hlength
  have hdrop' : src.data.drop 12 = (finished 3 [2, 1]).2.data := by
    rw [hdata']
    exact List.drop_left' hlength'
  refine ⟨⟨hok, ?_, hdrop ▸ by decide⟩, hfault, hdrop' ▸ by decide⟩
  rw [htaken, hinflate]
  exact congrArg some (by decide +kernel)

/-- Whatever is asked for, over a source that has all bytes of a payload and does not fail, all that is told apart from
refusals is that a compressed payload is to blame; or that the byte stream is, if the bytes end inside the deflate
stream. Of such bytes a read tells nothing else. -/
theorem faults_told (hr : (ofHeader h).readEach ns src = (rs, c, s)) (hfinish : c.finish s = (r, t))
    (hfaultless : src.IsFaultless) (hlength : extendWord h.packetLength ≤ src.data.length) :
    (∀ e, .error e ∈ rs ∨ r = .error e → e.isOverread = false →
      h.isCompressed = true ∧ ((∃ reason cause, e = .codec reason cause) ∨
        e = .stream Inflater.incompleteError ∧ EndsInside (src.data.take (extendWord h.packetLength)))) ∧
    (∀ e, .error e ∈ rs → e.isOverread = false → EndsInside (src.data.take (extendWord h.packetLength)) →
      e = .stream Inflater.incompleteError) := by
  have hopen := follows_ofHeader h src
  have hfilled : Segment.IsFilled ((ofHeader h).segment, src) := by
    rw [ofHeader_segment]
    exact ⟨hfaultless, hlength⟩
  refine ⟨fun e he hover => ?_, fun e he hover hinside => ?_⟩
  · rcases he with he | rfl
    · obtain ⟨hcompressed, hfault, -⟩ := hopen.faults hfilled hr he hover
      exact ⟨hcompressed, hfault.blame⟩
    · obtain ⟨bs, hbs⟩ := readEach_gives hr
      obtain ⟨d, hrun⟩ := finish_run hfinish
      obtain ⟨hcompressed, -, hfault⟩ := ((hopen.afterReads hr).closing hrun).2 (hbs.filled hfilled) e rfl
      exact ⟨hcompressed, hfault.blame⟩
  · obtain ⟨-, hfault, cause, hcause⟩ := hopen.faults hfilled hr he hover
    exact hfault.eq_incomplete hcause hinside

end

/-- A stored block of five bytes of which the last three are missing: the two that are there are given out, and then it
is the byte stream that is blamed. -/
theorem faults_told_cut_off :
    let h : Header := ⟨1, 7, 5⟩
    let src := Source.ofBytes [1, 5, 0, 250, 255, 0x68, 0x65]
    ((ofHeader h).readEach [2, 3] src).1 = [.ok [0x68, 0x65], .error (.stream Inflater.incompleteError)] ∧
      EndsInside (src.data.take (extendWord h.packetLength)) := by
  intro h src
  have hrs : ((ofHeader h).readEach [2, 3] src).1 = [.ok [0x68, 0x65], .error (.stream Inflater.incompleteError)] := by
    decide +kernel
  have hrun : ∀ ns, (ofHeader h).readEach ns src =
      (((ofHeader h).readEach ns src).1, ((ofHeader h).readEach ns src).2.1, ((ofHeader h).readEach ns src).2.2) :=
    fun _ => rfl
  obtain ⟨htold, -⟩ := faults_told (hrun [2, 3]) (Prod.eta _).symm (by decide) (by decide)
  have hmem : .error (.stream Inflater.incompleteError) ∈ ((ofHeader h).readEach [2, 3] src).1 := by
    rw [hrs]
    exact List.mem_cons_of_mem _ List.mem_cons_self
  obtain ⟨-, ⟨reason, cause, he⟩ | ⟨-, hinside⟩⟩ := htold _ (.inl hmem) rfl
  · cases he
  · exact ⟨hrs, hinside⟩

/-- So not every fault of a compressed payload that has arrived completely is told as one of the payload. -/
theorem not_only_payload_blamed :
    ¬ ∀ (h : Header) (src : Source) (ns : List Nat), 0 ≤ h.packetLength.toInt → 0 < h.uncompressedLength.toInt →
      src.IsSmooth → src.data.length = extendWord h.packetLength →
        ∀ e, .error e ∈ ((ofHeader h).readEach ns src).1 → e.isOverread = false →
          ∃ reason cause, e = .codec reason cause := by
  intro hall
  have he : .error (.stream Inflater.incompleteError) ∈
      ((ofHeader ⟨1, 7, 5⟩).readEach [2, 3] (.ofBytes [1, 5, 0, 250, 255, 0x68, 0x65])).1 := by decide +kernel
  obtain ⟨reason, cause, hcodec⟩ := hall ⟨1, 7, 5⟩ (.ofBytes [1, 5, 0, 250, 255, 0x68, 0x65]) [2, 3] (by decide)
    (by decide) (by decide) (by decide) _ he rfl
  cases hcodec

end FrameLink.Cursor
