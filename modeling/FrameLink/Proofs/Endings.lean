import FrameLink.Proofs.Interruptions
import FrameLink.Proofs.Metering
import FrameLink.Proofs.Portions
import FrameLink.Proofs.Viewing

/-! Every reading comes to an end. Each loop that reads, from the one that tries an interrupted read again to the one of a
user who reads a packet through the view, lowers something with every round that goes on: what is left of a segment, what
remains of a payload, or the interruptions that the source still holds. So none of the loops that a link runs is cut short
by the number of rounds that it is allowed. -/

namespace FrameLink

/-- A read of some bytes that succeeds lowers what remains. -/
def BoundedReader.IsLowered {σ : Type} [BoundedReader σ] (s : σ) : Prop :=
  ∀ n bs t, 0 < n → readBounded s n = (.ok bs, t) → remaining t < remaining s

theorem BoundedReader.readThrough_of_ok {σ : Type} [BoundedReader σ] {s t : σ} {n : Nat} {bs : Bytes}
    (h : readBounded s n = (.ok bs, t)) (hn : 0 < n) :
    n ≤ remaining s ∧ Reader.readThrough s n = (.ok bs, t) := by
  by_cases hlt : remaining s < n
  · rw [Cursor.readBounded_of_lt hlt] at h
    cases h
  · have hle := Nat.le_of_not_lt hlt
    rw [Cursor.readBounded_of_le hn hle] at h
    refine ⟨hle, ?_⟩
    rcases hr : (Reader.readThrough s n : Attempt IoError Bytes × σ) with ⟨r, u⟩
    rw [hr] at h
    cases r <;> cases h
    rfl

theorem Segment.isLowered (s : Segment × Source) : BoundedReader.IsLowered s := by
  intro n bs t hn h
  obtain ⟨hle, hr⟩ := BoundedReader.readThrough_of_ok h hn
  have hleft : n ≤ s.1.left := hle
  cases (Segment.readThrough_outcome hr).1 with
  | bytes hbs _ hgives =>
      have hne : bs ≠ [] := fun hnil => by
        have hnone := hbs hnil
        omega
      have hpos := List.length_pos_iff.2 hne
      have hshrunk := hgives.left
      change t.1.left < s.1.left
      omega

theorem Window.isLowered {τ : Type} [Reader τ] (s : Window × τ) : BoundedReader.IsLowered s := by
  obtain ⟨w, s⟩ := s
  intro n bs t hn h
  obtain ⟨hle, hr⟩ := BoundedReader.readThrough_of_ok h hn
  have hopen : w.closed = false := by
    cases hclosed : w.closed with
    | false => rfl
    | true =>
        have hzero : BoundedReader.remaining (w, s) = 0 := if_pos hclosed
        omega
  have hremaining : ∀ {left : Nat} {u : τ}, BoundedReader.remaining ({ w with left := left }, u) = left :=
    fun {left u} => if_neg (by rw [hopen]; exact Bool.false_ne_true)
  have hleft : n ≤ w.left := Nat.le_trans hle (Nat.le_of_eq hremaining)
  rw [Cursor.readThrough_window hn hleft] at hr
  rcases hbelow : (Reader.readThrough s n : Attempt IoError Bytes × τ) with ⟨q, u⟩
  rw [hbelow] at hr
  match q, hr with
  | .ok [], hr => cases hr
  | .error _, hr => cases hr
  | .waiting, hr => cases hr
  | .ok (c :: cs), hr =>
      cases hr
      change BoundedReader.remaining (({ w with left := w.left - (c :: cs).length } : Window), u) <
        BoundedReader.remaining (({ w with left := w.left } : Window), s)
      rw [hremaining, hremaining, List.length_cons]
      omega

/-- So does one of a payload, whatever state its cursor is in. -/
theorem Cursor.remaining_lt {c d : Cursor} {src src' : Source} {n : Nat} {bs : Bytes} (hn : 0 < n)
    (h : c.read src n = (.ok bs, d, src')) : d.remaining < c.remaining := by
  cases c with
  | raw seg =>
      rcases hr : BoundedReader.readBounded (seg, src) n with ⟨r, seg', u⟩
      simp only [read, hr, Prod.mk.injEq] at h
      obtain ⟨rfl, rfl, rfl⟩ := h
      exact Segment.isLowered (seg, src) n bs _ hn hr
  | deflated w f seg =>
      rcases hr : BoundedReader.readBounded (w, f, seg, src) n with ⟨r, w', f', seg', u⟩
      simp only [read, hr, Prod.mk.injEq] at h
      obtain ⟨rfl, rfl, rfl⟩ := h
      exact Window.isLowered (w, f, seg, src) n bs _ hn hr

/-- One read of a header of which some bytes may have been read before. -/
def Header.collectRound {σ : Type} [Reader σ] : Bytes × σ → Round (Bytes × σ) (Attempt IoError Unit × Bytes × σ)
  | (got, s) =>
    if size ≤ got.length then
      .ends (.ok (), got, s)
    else
      match Reader.read s (size - got.length) with
      | (.ok [], t) => .ends (.error ⟨.unexpectedEof, "failed to fill whole buffer"⟩, got, t)
      | (.ok bs, t) => .goesOn (got ++ bs, t)
      | (.error e, t) => if e.isInterruption then .goesOn (got, t) else .ends (.error e, got, t)
      | (.waiting, t) => .ends (.waiting, got, t)

theorem Header.collect_runs {σ : Type} [Reader σ] :
    Runs collectRound fun rounds (g : Bytes × σ) => collect (rounds + 1) g.1 g.2 := by
  refine Runs.of_succ (fun rounds (g : Bytes × σ) => collect rounds g.1 g.2) ?_
  rintro rounds ⟨got, s⟩
  simp only [collect, collectRound]
  split
  · rfl
  · rcases (Reader.read s (size - got.length) : Attempt IoError Bytes × σ) with ⟨r, t⟩
    cases r with
    | ok bs => cases bs <;> rfl
    | waiting => rfl
    | error e =>
        simp only
        split <;> rfl

/-- One bounded read of a payload that is read to its end. -/
def Packet.collectRound : Array UInt8 × Cursor × Source →
    Round (Array UInt8 × Cursor × Source) (Attempt LinkError Unit × Array UInt8 × Cursor × Source)
  | (got, c, src) =>
    if c.remaining = 0 then
      .ends (.ok (), got, c, src)
    else
      match c.read src (min c.remaining pieceSize) with
      | (.ok bs, c', src') => .goesOn (got ++ bs, c', src')
      | (.error e, c', src') => .ends (.error e, got, c', src')
      | (.waiting, c', src') => .ends (.waiting, got, c', src')

theorem Packet.collect_runs :
    Runs collectRound fun rounds (g : Array UInt8 × Cursor × Source) => collect (rounds + 1) g.1 g.2.1 g.2.2 := by
  refine Runs.of_succ (fun rounds (g : Array UInt8 × Cursor × Source) => collect rounds g.1 g.2.1 g.2.2) ?_
  rintro rounds ⟨got, c, src⟩
  simp only [collect, collectRound]
  split
  · rfl
  · rcases c.read src (min c.remaining pieceSize) with ⟨r, c', src'⟩
    cases r <;> rfl

/-- One piece of compressed bytes that an inflating reader decodes, of whom `n` bytes are asked. -/
def Inflater.pullRound (n : Nat) : Inflater × Segment × Source →
    Round (Inflater × Segment × Source) (Attempt IoError Bytes × Inflater × Segment × Source)
  | (f, feed) =>
    match f.fill feed with
    | (.error e, f', feed') => .ends (.error e, f', feed')
    | (.waiting, f', feed') => .ends (.waiting, f', feed')
    | (.ok ended, f', feed') =>
      match f'.advance ended n with
      | (bs, f'') =>
        match f''.progress, bs with
        | .corrupt, _ => .ends (.error corruptError, f'', feed')
        | .finished, _ => .ends (.ok bs, f'', feed')
        | .more, _ :: _ => .ends (.ok bs, f'', feed')
        | .more, [] => if ended then .ends (.error incompleteError, f'', feed') else .goesOn (f'', feed')

theorem Inflater.pull_runs (n : Nat) :
    Runs (pullRound n) fun rounds (s : Inflater × Segment × Source) => pull n (rounds + 1) s.1 s.2 := by
  refine Runs.of_succ (fun rounds (s : Inflater × Segment × Source) => pull n rounds s.1 s.2) ?_
  rintro rounds ⟨f, feed⟩
  simp only [pull, pullRound]
  rcases f.fill feed with ⟨q, f', feed'⟩
  cases q with
  | error e => rfl
  | waiting => rfl
  | ok ended =>
      simp only
      rcases f'.advance ended n with ⟨bs, f''⟩
      cases f''.progress with
      | corrupt => rfl
      | finished => rfl
      | more =>
          cases bs with
          | cons b bs => rfl
          | nil =>
              simp only
              split <;> rfl

/-- A read of a segment after which its draining goes on takes a byte of it, or an interruption of the source. -/
theorem Segment.drain_goesOn {want : Array UInt8 → Nat} {got got' : Array UInt8} {s t : Segment × Source}
    (h : Reader.gatherRound want (got, s) = .goesOn (got', t)) :
    t.1.left + t.2.interruptions < s.1.left + s.2.interruptions := by
  have hserves := Segment.drawsOn s (want got)
  rcases Reader.read_of_gather_goesOn h with ⟨bs, hne, hr, -⟩ | ⟨e, he, hr, -⟩
  · simp only [hr] at hserves
    have hcount : t.2.interruptions + 0 = s.2.interruptions := hserves.interruptions
    have hpos := List.length_pos_iff.2 hne
    cases Segment.read_outcome hr with
    | bytes _ _ hgives =>
        have hleft := hgives.left
        omega
  · simp only [hr] at hserves
    have hcount := hserves.interruptions
    rw [Attempt.interruptions, if_pos he] at hcount
    cases Segment.read_outcome hr with
    | failed hgives _ _ =>
        have hleft := hgives.left
        rw [List.length_nil] at hleft
        omega

/-- The draining of a segment is a loop that nothing bounds. -/
theorem Segment.drain_loop (seg : Segment) (src : Source) :
    ∃ k a, Loop (Reader.gatherRound fun _ => pieceSize) k (#[], seg, src) a ∧ seg.drain src = (a.1, a.2.2) ∧
      k ≤ seg.left + src.interruptions := by
  let measure (g : Array UInt8 × Segment × Source) : Nat := g.2.1.left + g.2.2.interruptions
  have hstep : ∀ {g g' : Array UInt8 × Segment × Source}, Reader.gatherRound (fun _ => pieceSize) g = .goesOn g' →
      measure g' < measure g :=
    fun h => Segment.drain_goesOn h
  have hrounds : measure (#[], seg, src) ≤ seg.left + src.failures :=
    Nat.add_le_add_left src.interruptions_le_failures _
  obtain ⟨k, hloop, hk⟩ := (Reader.readAll_runs pieceSize).loop measure hstep hrounds
  exact ⟨k, _, hloop, rfl, hk⟩

/-- A read after which a header is not yet read either gets some of what it lacks, or is interrupted. -/
theorem Header.collect_goesOn {got got' : Bytes} {s t : Source} (h : collectRound (got, s) = .goesOn (got', t)) :
    size - got'.length + t.interruptions < size - got.length + s.interruptions := by
  simp only [collectRound] at h
  split at h
  · cases h
  · rename_i hless
    have hserves := Source.drawsOn s (size - got.length)
    rcases hr : (Reader.read s (size - got.length) : Attempt IoError Bytes × Source) with ⟨r, u⟩
    simp only [hr] at hserves h
    have hcount := hserves.interruptions
    cases r with
    | waiting => cases h
    | ok bs =>
        cases bs with
        | nil => cases h
        | cons b bs =>
            cases h
            simp only [Attempt.interruptions, id] at hcount
            simp only [List.length_append, List.length_cons]
            omega
    | error e =>
        simp only at h
        split at h
        · rename_i he
          cases h
          rw [Attempt.interruptions, if_pos he] at hcount
          simp only [id] at hcount
          omega
        · cases h

/-- So is the reading of a header. -/
theorem Header.collect_loop (src : Source) :
    ∃ k, Loop collectRound k ([], src) (collect (size + Reader.interruptions src + 1) [] src) ∧
      k ≤ size + src.interruptions := by
  let measure (g : Bytes × Source) : Nat := size - g.1.length + g.2.interruptions
  have hstep : ∀ {g g' : Bytes × Source}, collectRound g = .goesOn g' → measure g' < measure g :=
    fun h => Header.collect_goesOn h
  have hrounds : measure ([], src) ≤ size + Reader.interruptions src :=
    Nat.add_le_add_left src.interruptions_le_failures _
  exact collect_runs.loop measure hstep hrounds

/-- A read of a payload after which its reading goes on lowers what remains of it. -/
theorem Packet.collect_goesOn {got got' : Array UInt8} {c d : Cursor} {s t : Source}
    (h : collectRound (got, c, s) = .goesOn (got', d, t)) : d.remaining < c.remaining := by
  simp only [collectRound] at h
  split at h
  · cases h
  · rename_i hpos
    rcases hr : c.read s (min c.remaining pieceSize) with ⟨r, c', s'⟩
    simp only [hr] at h
    cases r with
    | ok bs =>
        cases h
        have hn : 0 < min c.remaining pieceSize := Nat.lt_min.2 ⟨Nat.pos_of_ne_zero hpos, by decide⟩
        exact Cursor.remaining_lt hn hr
    | error e => cases h
    | waiting => cases h

/-- And so is the reading of a payload. Each of its rounds makes at most one read, and no more go on than the payload has
bytes. -/
theorem Packet.collect_loop (h : Header) (src : Source) :
    ∃ k, Loop collectRound k (#[], Cursor.ofHeader h, src)
      (collect (h.payloadLength + 1) #[] (Cursor.ofHeader h) src) ∧ k ≤ h.payloadLength := by
  have hstep : ∀ {g g' : Array UInt8 × Cursor × Source}, collectRound g = .goesOn g' →
      g'.2.1.remaining < g.2.1.remaining :=
    fun h => Packet.collect_goesOn h
  have hremaining := Cursor.ofHeader_remaining h
  obtain ⟨k, hloop, hk⟩ := collect_runs.loop (s := (#[], Cursor.ofHeader h, src)) (fun g => g.2.1.remaining) hstep
    (Nat.le_of_eq hremaining)
  exact ⟨k, hloop, Nat.le_trans hk (Nat.le_of_eq hremaining)⟩

namespace Inflater

/-- What a reader of compressed bytes can be while it reads the segment that `body` is read from. -/
def IsSound (body : Bytes) (s : Inflater × Segment × Source) : Prop :=
  Stands body s.1 s.2 ∨ s.1.decoder.phase = .corrupt

theorem pullRound_goesOn {n : Nat} {f g : Inflater} {a b : Segment × Source}
    (h : pullRound n (f, a) = .goesOn (g, b)) :
    ∃ f₁, FillOutcome f a (.ok false) f₁ b ∧ f₁.advance false n = ([], g) ∧ g.progress = .more := by
  rcases hf : f.fill a with ⟨q, f₁, a₁⟩
  have hfill := fill_outcome hf
  simp only [pullRound, hf] at h
  cases q with
  | error e => cases h
  | waiting => cases h
  | ok ended =>
      rcases hadvance : f₁.advance ended n with ⟨bs, f₂⟩
      simp only [hadvance] at h
      split at h
      · cases h
      · cases h
      · cases h
      · rename_i hprogress
        split at h
        · cases h
        · rename_i hended
          cases h
          obtain rfl := Bool.eq_false_iff.2 hended
          exact ⟨f₁, hfill, hadvance, hprogress⟩

theorem IsSound.goesOn {body : Bytes} {n : Nat} {s t : Inflater × Segment × Source} (hsound : IsSound body s) (hn : 0 < n)
    (h : pullRound n s = .goesOn t) : IsSound body t ∧
      t.2.1.left + (if t.1.input = [] then 0 else 1) < s.2.1.left + (if s.1.input = [] then 0 else 1) := by
  obtain ⟨f, a⟩ := s
  obtain ⟨g, b⟩ := t
  obtain ⟨f₁, hfill, hadvance, hprogress⟩ := pullRound_goesOn h
  rcases hsound with hstands | hphase
  · obtain ⟨hstands₂, -, hless⟩ := hstands.goesOn hfill hn hadvance hprogress
    exact ⟨.inl hstands₂, hless⟩
  · have hphase₁ : f₁.decoder.phase = .corrupt := by cases hfill <;> exact hphase
    obtain ⟨hsame, hcorrupt⟩ := progress_of_corrupt n false hphase₁
    obtain ⟨-, hg⟩ := Prod.mk.inj (hadvance.symm.trans hsame)
    rw [hg, hcorrupt] at hprogress
    cases hprogress

/-- So a read of inflated bytes is not cut short by the number of pieces that it may take. -/
theorem read_loop {body : Bytes} {n : Nat} {s : Inflater × Segment × Source} (hsound : IsSound body s) (hn : 0 < n) :
    ∃ k, Loop (pullRound n) k s (Reader.read s n) ∧ k ≤ s.2.1.left + 1 := by
  let measure (s : Inflater × Segment × Source) : Nat := s.2.1.left + (if s.1.input = [] then 0 else 1)
  have hmeasure : measure s ≤ s.2.1.left + 1 := by
    simp only [measure]
    split <;> omega
  obtain ⟨k, a, hloop, hk⟩ := Loop.exists_of_measure measure (fun hs h => hs.goesOn hn h) hsound
  have heq : Reader.read s n = a := (pull_runs n).eq_of_loop hloop (Nat.le_trans hk hmeasure)
  rw [heq]
  exact ⟨k, hloop, Nat.le_trans hk hmeasure⟩

end Inflater

theorem Input.left_of_cursor {input : Input} {c : Cursor} (h : input.cursor? = some c) : input.left = c.remaining := by
  cases input <;> cases h <;> rfl

theorem Input.Passes.left {input : Input} {segment : Segment} (h : input.Passes segment) : input.left = 0 := by
  cases h with
  | passed closed => cases closed <;> rfl
  | _ => rfl

namespace Inbound

variable {limit : Option Nat} {c : Call} {i i' : Inbound} {r : Attempt LinkError Reply}

theorem Proceeds.gives (h : Proceeds limit c i r i') : ∃ bs, i.source.Gives bs i'.source := by
  cases h with
  | rests hsource _ _ => exact ⟨[], hsource ▸ .refl _⟩
  | opens _ _ hgives _ _ => exact ⟨_, hgives⟩
  | reads _ hgives _ =>
      obtain ⟨taken, htaken, -⟩ := hgives.taken
      exact ⟨taken, htaken.source⟩
  | passes _ hgives _ _ => exact ⟨_, hgives.source⟩

/-- What a call in a transaction gives out no longer remains of the packet. -/
theorem Proceeds.left_le (h : Proceeds limit c i r i') (hc : c ≠ .beginRead) :
    r.payload.length + i'.input.left ≤ i.input.left := by
  cases h with
  | rests _ hinput hr =>
      rw [hr, List.length_nil, Nat.zero_add]
      rcases hinput with hsame | hgone
      · rw [hsame]
      · rw [hgone]
        exact Nat.zero_le _
  | opens hbegin _ _ _ _ => exact absurd hbegin hc
  | reads hcursor hgives hinput =>
      have hremaining := hgives.remaining
      rw [Input.left_of_cursor hcursor]
      rcases hinput with hcursor' | hgone
      · rw [Input.left_of_cursor hcursor']
        exact Nat.le_of_eq hremaining.symm
      · rw [hgone]
        exact Nat.le_trans (Nat.le_add_right _ _) (Nat.le_of_eq hremaining.symm)
  | passes _ _ hinput hr =>
      rw [hr, hinput.left]
      exact Nat.zero_le _

variable {closed : Bool} {me : Thread}

theorem abort_ne_waiting {cause : LinkError} {closing : Cursor.Closing} (hprompt : i.source.IsPrompt) :
    (i.abort closed me cause closing).1 ≠ .waiting := by
  rcases hrun : closing.run i.source with ⟨r, closing', src⟩
  have hanswer := (Cursor.Closing.run_outcome hrun).uses.clear (.inr hprompt)
  simp only [abort, hrun]
  intro hwaits
  cases r with
  | waiting => exact hanswer rfl
  | _ => cases hwaits

theorem fetch_ne_waiting {n : Nat} {cursor : Cursor} (hprompt : i.source.IsPrompt) :
    (i.fetch closed me n cursor).1 ≠ .waiting := by
  rcases hread : cursor.read i.source n with ⟨r, cursor', src⟩
  obtain ⟨⟨bs, hbs⟩, hanswer⟩ := Cursor.read_uses hread
  simp only [fetch, hread]
  intro hwaits
  cases r with
  | ok got => cases hwaits
  | waiting => exact hanswer (.inr hprompt) rfl
  | error e =>
      simp only at hwaits
      split at hwaits
      · cases hwaits
      · exact abort_ne_waiting (hbs.source.prompt hprompt) hwaits

theorem read_ne_waiting {n : Nat} (hprompt : i.source.IsPrompt) : (i.read closed me n).1 ≠ .waiting := by
  unfold read
  split
  · exact fetch_ne_waiting hprompt
  · exact abort_ne_waiting hprompt
  · split
    · nofun
    · exact fetch_ne_waiting hprompt
    · nofun

theorem remaining_ne_waiting : (i.remaining closed me).1 ≠ .waiting := by
  unfold remaining
  split <;> nofun

end Inbound

namespace InputView

def source (v : InputView) : Source :=
  v.stack.base.inbound.source

/-- Number of payload bytes left to read. -/
def left (v : InputView) : Nat :=
  v.stack.base.inbound.input.left

/-- Between `v` and `v'` the view has answered `r`, and what it has given out no longer remains of the packet. It waits
for no source that never keeps its reader waiting. -/
structure Advances (v : InputView) (r : Attempt IoError Bytes) (v' : InputView) : Prop where
  gives : ∃ bs, v.source.Gives bs v'.source
  left_le : r.given.length + v'.left ≤ v.left
  prompt : v.source.IsPrompt → r ≠ .waiting

theorem Advances.trans {v v₁ v₂ : InputView} {q r : Attempt IoError Bytes} (h : Advances v q v₁) (k : Advances v₁ r v₂) :
    Advances v r v₂ := by
  obtain ⟨bs, hbs⟩ := h.gives
  obtain ⟨cs, hcs⟩ := k.gives
  refine ⟨⟨bs ++ cs, hbs.trans hcs⟩, ?_, fun hprompt => k.prompt (hbs.prompt hprompt)⟩
  exact Nat.le_trans k.left_le (Nat.le_trans (Nat.le_add_left _ _) h.left_le)

theorem given_answer (r : Attempt LinkError Reply) : (answer r).given = r.payload := by
  cases r with
  | ok reply => cases reply <;> rfl
  | _ => rfl

theorem advances_call (me : Thread) (s : Stack) {c : Call} (hclose : c ≠ .close) (hbegin : c ≠ .beginRead)
    (hwaits : s.base.inbound.source.IsPrompt → (s.base.call me c).1 ≠ .waiting) :
    Advances ⟨me, s⟩ (answer (s.call me c).1) ⟨me, (s.call me c).2⟩ := by
  have hproceeds := s.base.call_proceeds me c
  rw [s.call_of_ne_close me hclose]
  have hbase : (s.modifyBase fun _ => (s.base.call me c).2).base = (s.base.call me c).2 := Stack.base_modifyBase _ _
  refine ⟨?_, ?_, fun hprompt hr => hwaits hprompt ?_⟩
  · simp only [source, hbase]
    exact hproceeds.gives
  · simp only [left, hbase, given_answer]
    exact hproceeds.left_le hbegin
  · cases hanswer : (s.base.call me c).1 with
    | waiting => rfl
    | _ =>
        rw [hanswer] at hr
        cases hr

theorem fetch_advances (v : InputView) (n : Nat) : Advances v (v.fetch n).1 (v.fetch n).2 := by
  refine advances_call v.thread v.stack (c := .read n) nofun nofun fun hprompt hr => ?_
  have hanswer : (v.stack.base.inbound.read v.stack.base.closed v.thread n).1 ≠ .waiting :=
    Inbound.read_ne_waiting hprompt
  simp only [Link.call, Link.withInbound] at hr
  cases hread : (v.stack.base.inbound.read v.stack.base.closed v.thread n).1 with
  | waiting => exact hanswer hread
  | _ =>
      rw [hread] at hr
      cases hr

theorem read_advances (v : InputView) (n : Nat) : Advances v (v.read n).1 (v.read n).2 := by
  unfold read
  split
  · exact v.fetch_advances n
  · have hremaining : Advances v (answer (v.stack.call v.thread .remaining).1)
        ⟨v.thread, (v.stack.call v.thread .remaining).2⟩ := by
      refine advances_call v.thread v.stack nofun nofun fun _ hr => ?_
      have hanswer : (v.stack.base.inbound.remaining v.stack.base.closed v.thread).1 ≠ .waiting :=
        Inbound.remaining_ne_waiting
      simp only [Link.call, Link.withInbound] at hr
      cases hremains : (v.stack.base.inbound.remaining v.stack.base.closed v.thread).1 with
      | waiting => exact hanswer hremains
      | _ =>
          rw [hremains] at hr
          cases hr
    split
    · rename_i left stack hcall
      rw [hcall] at hremaining
      split
      · exact hremaining
      · exact hremaining.trans (fetch_advances _ _)
    · rename_i r stack hcount hcall
      rw [hcall] at hremaining
      exact hremaining

/-- One read of a packet that is read through the view to its end, by a user who has got some portions of it and asks for
as much as they see fit. -/
def viewRound (want : List Bytes → Nat) :
    List Bytes × InputView → Round (List Bytes × InputView) (Attempt IoError (List Bytes) × InputView)
  | (got, v) =>
    match v.read (want got) with
    | (.ok [], v') => .ends (.ok got, v')
    | (.ok bs, v') => .goesOn (got ++ [bs], v')
    | (.error e, v') => .ends (.error e, v')
    | (.waiting, v') => .ends (.waiting, v')

theorem viewRound_goesOn {want : List Bytes → Nat} {g g' : List Bytes × InputView} (h : viewRound want g = .goesOn g') :
    g'.2.left < g.2.left ∧ ∃ bs, g.2.source.Gives bs g'.2.source := by
  obtain ⟨got, v⟩ := g
  have hadvances := v.read_advances (want got)
  rcases hr : v.read (want got) with ⟨r, v'⟩
  simp only [hr] at hadvances
  simp only [viewRound, hr] at h
  match r, h with
  | .ok [], h => cases h
  | .error _, h => cases h
  | .waiting, h => cases h
  | .ok (b :: bs), h =>
      cases h
      have hleft := hadvances.left_le
      simp only [Attempt.given, List.length_cons] at hleft
      refine ⟨?_, hadvances.gives⟩
      change v'.left < v.left
      omega

theorem viewRound_ends {want : List Bytes → Nat} {g : List Bytes × InputView}
    {a : Attempt IoError (List Bytes) × InputView} (h : viewRound want g = .ends a) (hprompt : g.2.source.IsPrompt) :
    a.1 ≠ .waiting := by
  obtain ⟨got, v⟩ := g
  have hanswers := (v.read_advances (want got)).prompt hprompt
  rcases hr : v.read (want got) with ⟨r, v'⟩
  simp only [hr] at hanswers
  simp only [viewRound, hr] at h
  match r, h with
  | .ok [], h =>
      cases h
      nofun
  | .ok (_ :: _), h => cases h
  | .error _, h =>
      cases h
      nofun
  | .waiting, _ => exact absurd rfl hanswers

/-- Reading through the view to the end of the packet, or to a failure, makes no more reads that give something than the
packet has bytes. -/
theorem view_loop (want : List Bytes → Nat) (v : InputView) :
    ∃ k a, Loop (viewRound want) k ([], v) a ∧ k ≤ v.left ∧ (v.source.IsPrompt → a.1 ≠ .waiting) := by
  have hloops : ∃ k a, Loop (viewRound want) k ([], v) a ∧ k ≤ v.left :=
    Loop.exists_of_measure (I := fun _ => True) (fun g => g.2.left) (fun _ h => ⟨trivial, (viewRound_goesOn h).1⟩) trivial
  obtain ⟨k, a, hloop, hk⟩ := hloops
  refine ⟨k, a, hloop, hk, fun hprompt => ?_⟩
  have hstep : ∀ {g g' : List Bytes × InputView}, g.2.source.IsPrompt → viewRound want g = .goesOn g' →
      g'.2.source.IsPrompt := by
    intro g g' hg h
    obtain ⟨-, bs, hbs⟩ := viewRound_goesOn h
    exact hbs.prompt hg
  obtain ⟨u, hu, hends⟩ := hloop.keeps hstep hprompt
  exact viewRound_ends hends hu

end InputView

namespace Source

/-- Whoever reads from a source, in whatever state the readers between it and them are, comes to an end. Bounded reads
of a segment, of a window and of a window on inflated bytes are tried again once for each interruption that they meet,
and so is the read behind the declared end of a compressed payload. The loops in which bytes are inflated, a segment
is drained, and a header and a payload are read come to the answers that a link computes, though nothing bounds them,
and make no more rounds than they say. The taking of a whole packet is made of these loops. Through the view on a link
in any state, a packet is read in portions of any sizes until there is no more or a read fails. On a source that never
keeps its reader waiting the answer is there at once. -/
structure EndsReading (src : Source) : Prop where
  segment (seg : Segment) : BoundedReader.IsLowered (seg, src) ∧
    ∀ n, Reader.Retries (fun s : Segment × Source => s.2) (seg, src) n
  window (w : Window) : BoundedReader.IsLowered (w, src) ∧
    ∀ n, Reader.Retries (fun s : Window × Source => s.2) (w, src) n
  inflatedWindow (w : Window) (f : Inflater) (seg : Segment) : BoundedReader.IsLowered (w, f, seg, src) ∧
    ∀ n, Reader.Retries (fun s : Window × Inflater × Segment × Source => s.2.2.2) (w, f, seg, src) n
  inflated (f : Inflater) (seg : Segment) (n : Nat) :
    Reader.Retries (fun s : Inflater × Segment × Source => s.2.2) (f, seg, src) n
  /-- One read of inflated bytes in any payload, after any reads of it: taking compressed bytes until there is something to
  give out. -/
  inflating (h : Header) (ns : List Nat) {rs : List (Attempt LinkError Bytes)} {w : Window} {f : Inflater} {seg : Segment}
    {src' : Source} (hr : (Cursor.ofHeader h).readEach ns src = (rs, .deflated w f seg, src')) {n : Nat} (hn : 0 < n) :
    ∃ k, Loop (Inflater.pullRound n) k (f, seg, src') (f.read (seg, src') n) ∧ k ≤ seg.left + 1
  drain (seg : Segment) : ∃ k a, Loop (Reader.gatherRound fun _ => pieceSize) k (#[], seg, src) a ∧
    seg.drain src = (a.1, a.2.2) ∧ k ≤ seg.left + src.interruptions ∧ (src.IsPrompt → a.1 ≠ .waiting)
  header : ∃ k a, Loop Header.collectRound k ([], src) a ∧
    Header.collect (Header.size + Reader.interruptions src + 1) [] src = a ∧ k ≤ Header.size + src.interruptions ∧
    (src.IsPrompt → a.1 ≠ .waiting)
  /-- The reading of a payload to its declared end, whatever its header declares. Each round makes one bounded read, and as
  many of them succeed as rounds go on. -/
  payload (h : Header) : ∃ k a, Loop Packet.collectRound k (#[], Cursor.ofHeader h, src) a ∧
    Packet.collect (h.payloadLength + 1) #[] (Cursor.ofHeader h) src = a ∧ k ≤ h.payloadLength ∧
    (src.IsPrompt → a.1 ≠ .waiting)
  packet (limit : Option Nat) : src.IsPrompt → (Packet.receive limit src).1 ≠ .waiting
  view (want : List Bytes → Nat) (v : InputView) (hsource : v.source = src) :
    ∃ k a, Loop (InputView.viewRound want) k ([], v) a ∧ k ≤ v.left ∧ (src.IsPrompt → a.1 ≠ .waiting)

/-- Every loop that reads from a source ends, whatever the source holds. -/
theorem reading_ends (src : Source) : src.EndsReading where
  segment seg :=
    ⟨Segment.isLowered _, Segment.drawsOn.retries (fun s => s.2.interruptions_le_failures) _⟩
  window w :=
    ⟨Window.isLowered _, (Window.drawsOn Source.drawsOn).retries (fun s => s.2.interruptions_le_failures) _⟩
  inflatedWindow w f seg :=
    ⟨Window.isLowered _, (Window.drawsOn Inflater.drawsOn).retries (fun s => s.2.2.2.interruptions_le_failures) _⟩
  inflated f seg n := Inflater.drawsOn.retries (fun s => s.2.2.interruptions_le_failures) _ n
  inflating h ns _ _ f seg src' hr _ hn := by
    have hsound : Inflater.IsSound (src.data.take (extendWord h.packetLength)) (f, seg, src') := by
      cases (Cursor.follows_ofHeader h src).afterReads hr with
      | deflated _ hstands _ _ _ => exact .inl hstands
      | corrupt _ hphase _ _ _ _ => exact .inr hphase
    exact Inflater.read_loop hsound hn
  drain seg := by
    obtain ⟨k, a, hloop, hdrain, hk⟩ := seg.drain_loop src
    obtain ⟨-, -, -, -, hwaits⟩ := seg.drain_outcome src
    rw [hdrain] at hwaits
    exact ⟨k, a, hloop, hdrain, hk, fun hprompt => hwaits (.inr hprompt)⟩
  header := by
    obtain ⟨k, hloop, hk⟩ := Header.collect_loop src
    rcases hr : (Header.collect (Header.size + Reader.interruptions src + 1) [] src :
      Attempt IoError Unit × Bytes × Source) with ⟨r, got, t⟩
    rw [hr] at hloop
    refine ⟨k, _, hloop, rfl, hk, fun hprompt hwaits => ?_⟩
    obtain rfl : r = .waiting := hwaits
    cases Header.collect_outcome hr (Nat.zero_le _) (Nat.lt_succ_self _) with
    | waits _ _ _ hnot => exact hnot hprompt
  payload h := by
    obtain ⟨k, hloop, hk⟩ := Packet.collect_loop h src
    have huses := Packet.collect_uses (Prod.eta (Packet.collect (h.payloadLength + 1) #[] (Cursor.ofHeader h) src)).symm
    exact ⟨k, _, hloop, rfl, hk, fun hprompt => huses.clear (.inr hprompt)⟩
  packet limit hprompt := Packet.receive_ne_waiting limit hprompt
  view want v hsource := by
    obtain ⟨k, a, hloop, hk, hprompt⟩ := v.view_loop want
    exact ⟨k, a, hloop, hk, hsource ▸ hprompt⟩

/-- A header that declares the longest payload there can be, and deflate blocks that yield nothing. -/
theorem reading_ends_hostile :
    let h : Header := ⟨1, 0x7fffffff, 0x7fffffff⟩
    let src : Source :=
      { items := [.data [0, 0, 0, 255, 255], .failure ⟨.interrupted, "again"⟩, .data [0, 0, 0, 255, 255]] }
    src.IsPrompt ∧ h.payloadLength = 0x7fffffff ∧ ∃ k a, Loop Packet.collectRound k (#[], Cursor.ofHeader h, src) a ∧
      Packet.collect (h.payloadLength + 1) #[] (Cursor.ofHeader h) src = a ∧ k ≤ h.payloadLength ∧ a.1 ≠ .waiting := by
  intro h src
  have hprompt : src.IsPrompt := by decide
  obtain ⟨k, a, hloop, hcollect, hk, hanswers⟩ := (reading_ends src).payload h
  exact ⟨hprompt, by decide, k, a, hloop, hcollect, hk, hanswers hprompt⟩

end Source

end FrameLink
