import FrameLink.Proofs.Courses

/-! The reading side of a link, open or closed, over any source. It rests, with the lock free and the input in place
or with the lock held and a cursor in the input's place, or the owner of the lock is at work in a call that has not
been answered. A call of a thread comes to one of a few things, which say all that it can do to the lock and to the
input; from these follows that the reading side keeps such a stance. -/

namespace FrameLink

/-- Whether a failure is one of the byte stream or of what it carries. -/
def LinkError.isBreach : LinkError → Bool
  | .codec _ _ | .stream _ => true
  | _ => false

/-- Whether a failure is a fault of a payload, or of the byte stream while one is read. No such failure passes for a
misuse of the link, by its kind. -/
def LinkError.isFault : LinkError → Bool
  | .codec _ _ => true
  | .stream io => io.kind ≠ .invalidInput
  | _ => false

theorem LinkError.isBreach_of_isFault {e : LinkError} (h : e.isFault = true) : e.isBreach = true := by
  cases e <;> first | rfl | cases h

theorem LinkError.isOverread_of_isFault {e : LinkError} (h : e.isFault = true) : e.isOverread = false := by
  cases e <;> first | rfl | cases h

/-- The calls about the reading side. -/
def Call.isInward : Call → Bool
  | .beginRead | .read _ | .remaining | .endRead => true
  | _ => false

namespace Cursor

theorem isFault_ofPayloadError (e : IoError) : (LinkError.ofPayloadError e).isFault = true := by
  unfold LinkError.ofPayloadError
  split
  · rfl
  · rename_i hkind
    exact decide_eq_true fun heq => hkind (.inr heq)

theorem isBreach_ofPayloadError (e : IoError) : (LinkError.ofPayloadError e).isBreach = true :=
  LinkError.isBreach_of_isFault (isFault_ofPayloadError e)

/-- What a read does not give out remains, if that is so for each single attempt. -/
theorem remaining_of_readThrough {σ : Type} [BoundedReader σ]
    (hread : ∀ (s t : σ) n r, Reader.read s n = (r, t) → (∀ bs, r ≠ .ok bs) →
      BoundedReader.remaining t = BoundedReader.remaining s)
    {s t : σ} {n : Nat} (h : Reader.readThrough s n = (.waiting, t)) :
    BoundedReader.remaining t = BoundedReader.remaining s := by
  suffices hretry : ∀ tries (s : σ), Reader.readRetrying n tries s = (.waiting, t) →
      BoundedReader.remaining t = BoundedReader.remaining s from hretry _ s h
  intro tries
  induction tries with
  | zero => exact fun s h => hread s t n .waiting h (by simp)
  | succ tries ih =>
      intro s h
      rcases hr : (Reader.read s n : Attempt IoError Bytes × σ) with ⟨r, s'⟩
      simp only [Reader.readRetrying, hr] at h
      cases r with
      | ok bs => cases h
      | waiting =>
          obtain ⟨-, rfl⟩ := Prod.mk.inj h
          exact hread s s' n _ hr (by simp)
      | error e =>
          simp only at h
          split at h
          · exact (ih s' h).trans (hread s s' n _ hr (by simp))
          · cases h

theorem cappedRead_left {σ : Type} [Reader σ] {short : IoKind} {left left' n : Nat} {s s' : σ}
    {r : Attempt IoError Bytes} (h : cappedRead short left s n = (r, left', s')) (hnone : ∀ bs, r ≠ .ok bs) :
    left' = left := by
  unfold cappedRead at h
  split at h
  · exact absurd (Prod.mk.inj h).1.symm (hnone [])
  · split at h
    · exact (Prod.mk.inj (Prod.mk.inj h).2).1.symm
    · exact absurd (Prod.mk.inj h).1.symm (hnone _)
    · exact (Prod.mk.inj (Prod.mk.inj h).2).1.symm
    · exact (Prod.mk.inj (Prod.mk.inj h).2).1.symm

theorem segment_left_of_read (s t : Segment × Source) (n : Nat) (r : Attempt IoError Bytes)
    (h : Reader.read s n = (r, t)) (hnone : ∀ bs, r ≠ .ok bs) : t.1.left = s.1.left := by
  rcases hr : cappedRead .unexpectedEof s.1.left s.2 n with ⟨q, left, src⟩
  have hread : (Reader.read s n : Attempt IoError Bytes × Segment × Source) = (q, { s.1 with left := left }, src) := by
    simp only [Reader.read, Segment.read, hr]
  obtain ⟨rfl, rfl⟩ := Prod.mk.inj (hread.symm.trans h)
  exact cappedRead_left hr hnone

theorem window_remaining_of_read {σ : Type} [Reader σ] (s t : Window × σ) (n : Nat) (r : Attempt IoError Bytes)
    (h : Reader.read s n = (r, t)) (hnone : ∀ bs, r ≠ .ok bs) : t.1.remaining = s.1.remaining := by
  rcases hr : cappedRead .invalidData s.1.left s.2 n with ⟨q, left, u⟩
  have hread : (Reader.read s n : Attempt IoError Bytes × Window × σ) = (q, { s.1 with left := left }, u) := by
    simp only [Reader.read, Window.read, hr]
  obtain ⟨rfl, rfl⟩ := Prod.mk.inj (hread.symm.trans h)
  rw [Window.remaining, Window.remaining, cappedRead_left hr hnone]

/-- What a read that is not refused comes to. -/
theorem readBounded_cases {σ : Type} [BoundedReader σ]
    (hread : ∀ (s t : σ) n r, Reader.read s n = (r, t) → (∀ bs, r ≠ .ok bs) →
      BoundedReader.remaining t = BoundedReader.remaining s)
    {s t : σ} {n : Nat} {r : Attempt LinkError Bytes} (h : BoundedReader.readBounded s n = (r, t))
    (hle : n ≤ BoundedReader.remaining s) :
    (∀ e, r = .error e → e.isFault = true) ∧
      (r = .waiting → BoundedReader.remaining t = BoundedReader.remaining s) := by
  rcases Nat.eq_zero_or_pos n with rfl | hn
  · rw [readBounded_zero] at h
    obtain ⟨rfl, rfl⟩ := Prod.mk.inj h
    exact ⟨nofun, nofun⟩
  · rcases hthrough : Reader.readThrough s n with ⟨q, t'⟩
    rw [readBounded_of_le hn hle, hthrough] at h
    obtain ⟨rfl, rfl⟩ := Prod.mk.inj h
    cases q with
    | ok bs => exact ⟨nofun, nofun⟩
    | error io => exact ⟨fun e he => Attempt.error.inj he ▸ isFault_ofPayloadError io, nofun⟩
    | waiting => exact ⟨nofun, fun _ => remaining_of_readThrough hread hthrough⟩

/-- A read is refused if it asks for too much, and leaves everything alone then. Otherwise it fails by a fault of the
payload or of the stream, and as long as it waits nothing is taken from what remains. -/
theorem read_cases {c c' : Cursor} {src src' : Source} {n : Nat} {r : Attempt LinkError Bytes}
    (h : c.read src n = (r, c', src')) :
    (c.remaining < n ∧ r = .error (.overread n c.remaining) ∧ c' = c ∧ src' = src) ∨
      n ≤ c.remaining ∧ (∀ e, r = .error e → e.isFault = true) ∧ (r = .waiting → c'.remaining = c.remaining) := by
  rcases Nat.lt_or_ge c.remaining n with hlt | hle
  · rw [read_of_lt hlt] at h
    simp only [Prod.mk.injEq] at h
    obtain ⟨rfl, rfl, rfl⟩ := h
    exact .inl ⟨hlt, rfl, rfl, rfl⟩
  · refine .inr ⟨hle, ?_⟩
    cases c with
    | raw segment =>
        rcases hr : BoundedReader.readBounded (segment, src) n with ⟨q, s⟩
        simp only [read, hr, Prod.mk.injEq] at h
        obtain ⟨rfl, rfl, rfl⟩ := h
        exact readBounded_cases segment_left_of_read hr hle
    | deflated window inflater segment =>
        rcases hr : BoundedReader.readBounded (window, inflater, segment, src) n with ⟨q, s⟩
        simp only [read, hr, Prod.mk.injEq] at h
        obtain ⟨rfl, rfl, rfl⟩ := h
        exact readBounded_cases window_remaining_of_read hr hle

/-- The verdict that a cursor on its way to being closed may carry. -/
def Closing.IsFair : Closing → Prop
  | .draining (.error e) _ => e.isBreach = true
  | _ => True

theorem isFair_close (c : Cursor) : c.close.IsFair := by
  cases c with
  | raw segment => trivial
  | deflated window inflater segment =>
      simp only [close]
      split <;> trivial

namespace Closing

variable {c d : Closing} {src src' : Source} {r : Attempt LinkError Unit} {e : LinkError}

theorem drain_isBreach {verdict : Except LinkError Unit} {segment : Segment}
    (hverdict : ∀ e, verdict = .error e → e.isBreach = true) (h : drain verdict segment src = (.error e, d, src')) :
    e.isBreach = true := by
  unfold drain at h
  split at h
  · obtain ⟨heq, -⟩ := Prod.mk.inj h
    cases verdict with
    | ok _ => cases heq
    | error e' => cases heq; exact hverdict e rfl
  · obtain ⟨heq, -⟩ := Prod.mk.inj h
    cases verdict with
    | ok _ => cases heq; rfl
    | error e' => cases heq; exact hverdict e rfl
  · cases h

theorem drain_isFair {verdict : Except LinkError Unit} {segment : Segment}
    (hverdict : ∀ e, verdict = .error e → e.isBreach = true) (h : drain verdict segment src = (.waiting, d, src')) :
    d.IsFair := by
  unfold drain at h
  split at h
  · cases verdict <;> cases h
  · cases verdict <;> cases h
  · obtain ⟨-, heq⟩ := Prod.mk.inj h
    obtain ⟨rfl, -⟩ := Prod.mk.inj heq
    cases verdict with
    | ok _ => trivial
    | error e => exact hverdict e rfl

/-- What a closing comes to is about the stream or what it carries, and so is its verdict while it waits. -/
theorem run_fair (hfair : c.IsFair) (h : c.run src = (r, d, src')) :
    (∀ e, r = .error e → e.isBreach = true) ∧ (r = .waiting → d.IsFair) := by
  have hdrain : ∀ verdict {segment src₁}, (∀ e, verdict = .error e → e.isBreach = true) →
      drain verdict segment src₁ = (r, d, src') → (∀ e, r = .error e → e.isBreach = true) ∧ (r = .waiting → d.IsFair) :=
    fun verdict _ _ hverdict hr =>
      ⟨fun e he => drain_isBreach hverdict (he ▸ hr), fun he => drain_isFair hverdict (he ▸ hr)⟩
  cases c with
  | draining verdict segment =>
      refine hdrain verdict (fun e he => ?_) h
      subst he
      exact hfair
  | ending inflater segment =>
      rcases hr : (Reader.readThrough (inflater, segment, src) 1 :
        Attempt IoError Bytes × Inflater × Segment × Source) with ⟨q, g, b⟩
      rw [run_ending hr] at h
      match q, h with
      | .ok [], h => exact hdrain (.ok ()) (by simp) h
      | .ok (x :: xs), h => exact hdrain (.error tooLong) (fun e he => Except.error.inj he ▸ rfl) h
      | .error io, h =>
          exact hdrain (.error (.ofPayloadError io)) (fun e he => Except.error.inj he ▸ isBreach_ofPayloadError io) h
      | .waiting, h =>
          simp only [verdict?, Prod.mk.injEq] at h
          obtain ⟨rfl, rfl, rfl⟩ := h
          exact ⟨by simp, fun _ => trivial⟩

end Closing

end Cursor

namespace Input

/-- The input shows how far such a call has got. -/
inductive WorksAt : Call → Input → Prop where
  | opening (got : Bytes) : WorksAt .beginRead (.opening got)
  | fetching (cursor : Cursor) (n : Nat) (hroom : n ≤ cursor.remaining) : WorksAt (.read n) (.fetching cursor n)
  | aborting (n : Nat) {cause : LinkError} (closing : Cursor.Closing) (hcause : cause.isFault = true) :
      WorksAt (.read n) (.aborting cause closing)
  | ending {closing : Cursor.Closing} (hfair : closing.IsFair) : WorksAt .endRead (.ending closing)

theorem WorksAt.isBusy {c : Call} {input : Input} (h : input.WorksAt c) : input.isBusy = true := by
  cases h <;> rfl

theorem isBusy_leave_ready (closed : Bool) : (leave closed .ready).isBusy = false := by
  cases closed <;> rfl

theorem isBusy_leave_reading (closed : Bool) (cursor : Cursor) : (leave closed (.reading cursor)).isBusy = false := by
  cases closed <;> rfl

end Input

namespace Inbound

/-- Where the reading side stands while these calls about it hold threads up. -/
inductive Stance (closed : Bool) (held : Thread → Option Call) (i : Inbound) : Prop where
  | free (hholder : i.lock.holder = none) (hinput : i.input = .leave closed .ready)
  | owned {owner : Thread} {cursor : Cursor} (hholder : i.lock.holder = some owner) (hheld : held owner = none)
      (hinput : i.input = .leave closed (.reading cursor))
  | working {owner : Thread} {c : Call} (hholder : i.lock.holder = some owner) (hheld : held owner = some c)
      (hworks : i.input.WorksAt c)

/-- The reading side keeps to a stance, and only those queue up for its lock who wait to begin. -/
structure IsCoherent (closed : Bool) (held : Thread → Option Call) (i : Inbound) : Prop where
  stance : Stance closed held i
  orderly : i.lock.IsOrderly fun you => held you = some .beginRead

/-- The thread is at work on the input as the owner of the lock, or takes the lock to begin. On a closed link only a
call goes on that was at work before. -/
inductive Engages (closed : Bool) (me : Thread) (c : Call) (i : Inbound) : Prop where
  | owner (hholder : i.lock.holder = some me) (hworks : closed = true → i.input.WorksAt c)
  | begins (hc : c = .beginRead) (hopen : closed = false) (hholder : i.lock.holder = none)

/-- What an attempt of a thread at a call about the reading side comes to. -/
inductive Outcome (closed : Bool) (me : Thread) (c : Call) (i : Inbound) :
    Attempt LinkError Reply → Inbound → Prop where
  | queued (hc : c = .beginRead) (hholder : i.lock.holder ≠ some me) (hfree : i.lock.isFreeFor me = false)
      (hqueue : closed = true → me ∈ i.lock.queue) :
      Outcome closed me c i .waiting { i with lock := ⟨i.lock.holder, (i.lock.enqueue me).queue⟩ }
  | reentrant {operation : String} (hc : c = .beginRead) (hopen : closed = false) (hholder : i.lock.holder = some me)
      (hidle : i.input.isBusy = false) :
      Outcome closed me c i (.error (.reentrancy operation)) i
  | unowned {operation : String} (hc : c ≠ .beginRead) (hopen : closed = false) (hholder : i.lock.holder ≠ some me) :
      Outcome closed me c i (.error (.protocolState operation "read")) i
  /-- The link has been closed, and the thread has nothing to lose. -/
  | shut (hclosed : closed = true) (hholder : i.lock.holder ≠ some me) (hqueue : me ∉ i.lock.queue) :
      Outcome closed me c i (.error .closed) i
  /-- The link has been closed, and the thread does not get the lock or loses it. -/
  | expelled (hclosed : closed = true) (hmine : i.lock.holder = some me ∨ i.lock.holder = none)
      (hinput : i.input = .leave closed .ready) :
      Outcome closed me c i (.error .closed) { i with lock := i.lock.vacated me }
  | waits {src : Source} {input : Input} (hmine : i.Engages closed me c) (hworks : input.WorksAt c) :
      Outcome closed me c i .waiting ⟨src, i.lock.taken me, input⟩
  /-- The call succeeds and leaves the transaction open. -/
  | stays {src : Source} {cursor : Cursor} {reply : Reply} (hmine : i.Engages closed me c)
      (hc : c ≠ .endRead) (hopen : c = .beginRead → closed = false) :
      Outcome closed me c i (.ok reply) ⟨src, i.lock.taken me, .leave closed (.reading cursor)⟩
  /-- The call asks for more of the payload than is left. -/
  | overreads {n : Nat} {cursor : Cursor} (hc : c = .read n) (hopen : closed = false)
      (hholder : i.lock.holder = some me) (hinput : i.input = .reading cursor) (hlt : cursor.remaining < n) :
      Outcome closed me c i (.error (.overread n cursor.remaining)) i
  | ends {src : Source} {r : Attempt LinkError Reply} (hmine : i.Engages closed me c) (hwait : r ≠ .waiting)
      (hc : ∀ reply, r = .ok reply → c = .endRead)
      (hr : ∀ e, r = .error e → if c = .beginRead ∧ closed = true then e = .closed else e.isBreach = true)
      (hread : ∀ n e, c = .read n → r = .error e → e.isFault = true) :
      Outcome closed me c i r ⟨src, i.lock.vacated me, .leave closed .ready⟩

section

variable {closed : Bool} {limit : Option Nat} {held : Thread → Option Call} {i i' : Inbound} {me : Thread}

theorem Engages.of_open {c : Call} (hopen : closed = false) (hholder : i.lock.holder = some me) :
    i.Engages closed me c :=
  .owner hholder fun hclosed => Bool.noConfusion (hopen.symm.trans hclosed)

/-- A call that fails and ends the transaction. -/
theorem Outcome.fails {c : Call} (hmine : i.Engages closed me c) (src : Source) {e : LinkError}
    (he : if c = .beginRead ∧ closed = true then e = .closed else e.isBreach = true)
    (hread : ∀ n, c = .read n → e.isFault = true) :
    Outcome closed me c i (.error e) ⟨src, i.lock.vacated me, .leave closed .ready⟩ :=
  .ends hmine (by simp) (by simp) (fun _ he' => Attempt.error.inj he' ▸ he)
    fun n _ hc he' => Attempt.error.inj he' ▸ hread n hc

theorem release_taken (src : Source) (l : Lock) (input : Input) :
    (⟨src, l.taken me, input⟩ : Inbound).release me = ⟨src, l.vacated me, input⟩ :=
  congrArg (Inbound.mk src · input) (l.release_taken me)

theorem isBreach_ofReadError (e : IoError) : (Header.ofReadError e).isBreach = true := by
  unfold Header.ofReadError
  split <;> rfl

theorem validate_isBreach {h : Header} {e : LinkError} (herror : h.validate limit = .error e) : e.isBreach = true := by
  obtain ⟨reason, rfl⟩ := Header.exists_reason_of_validate herror
  rfl

theorem receive_isBreach {got got' : Bytes} {src src' : Source} {e : LinkError}
    (h : Header.receive limit got src = (.error e, got', src')) : e.isBreach = true := by
  unfold Header.receive at h
  split at h
  · rename_i got₁ src₁ _
    obtain ⟨heq, -⟩ := Prod.mk.inj h
    cases hvalid : Header.validate limit (Header.decode got₁) with
    | ok _ => rw [hvalid] at heq; cases heq
    | error e' =>
        rw [hvalid] at heq
        cases heq
        exact validate_isBreach hvalid
  · obtain ⟨heq, -⟩ := Prod.mk.inj h
    cases heq
    exact isBreach_ofReadError _
  · cases h

/-- The owner of the lock reads the next header. -/
theorem openPacket_outcome (hmine : i.Engages closed me .beginRead) (got : Bytes)
    {r : Attempt LinkError Int32}
    (h : { i with lock := i.lock.taken me }.openPacket closed limit me got = (r, i')) :
    Outcome closed me .beginRead i (r.map .sequence) i' := by
  rcases hreceive : Header.receive limit got i.source with ⟨q, got', src⟩
  simp only [openPacket, hreceive] at h
  cases q with
  | waiting =>
      obtain ⟨rfl, rfl⟩ := Prod.mk.inj h
      exact .waits hmine (.opening got')
  | error e =>
      obtain ⟨rfl, rfl⟩ := Prod.mk.inj h
      rw [release_taken]
      refine .fails hmine src ?_ (by simp)
      cases closed with
      | false => exact receive_isBreach hreceive
      | true => rfl
  | ok header =>
      cases closed with
      | false =>
          obtain ⟨rfl, rfl⟩ := Prod.mk.inj h
          exact .stays hmine (by simp) fun _ => rfl
      | true =>
          simp only [if_true] at h
          obtain ⟨rfl, rfl⟩ := Prod.mk.inj h
          rw [release_taken]
          exact .fails hmine src rfl (by simp)

/-- The owner of the lock lets the rest of a failed payload pass. -/
theorem abort_outcome {n : Nat} (hmine : i.Engages closed me (.read n)) {cause : LinkError}
    (hcause : cause.isFault = true) (src : Source) (closing : Cursor.Closing) {r : Attempt LinkError Bytes}
    (h : (⟨src, i.lock.taken me, i.input⟩ : Inbound).abort closed me cause closing = (r, i')) :
    Outcome closed me (.read n) i (r.map .bytes) i' := by
  rcases hrun : closing.run src with ⟨q, closing', src'⟩
  have hover : Outcome closed me (.read n) i (.error cause) ⟨src', i.lock.vacated me, .leave closed .ready⟩ :=
    .fails hmine src' (LinkError.isBreach_of_isFault hcause) fun _ _ => hcause
  cases q with
  | waiting =>
      simp only [abort, hrun] at h
      obtain ⟨rfl, rfl⟩ := Prod.mk.inj h
      exact .waits hmine (.aborting n closing' hcause)
  | ok _ =>
      simp only [abort, hrun, release_taken] at h
      obtain ⟨rfl, rfl⟩ := Prod.mk.inj h
      exact hover
  | error _ =>
      simp only [abort, hrun, release_taken] at h
      obtain ⟨rfl, rfl⟩ := Prod.mk.inj h
      exact hover

/-- The owner of the lock reads from the payload. If a call goes on with this, it has not asked for too much. -/
theorem fetch_outcome {n : Nat} (hmine : i.Engages closed me (.read n)) {cursor : Cursor}
    (hstart : n ≤ cursor.remaining ∨ closed = false ∧ i.lock.holder = some me ∧ i.input = .reading cursor)
    (hqueue : me ∉ i.lock.queue) {r : Attempt LinkError Bytes}
    (h : { i with lock := i.lock.taken me }.fetch closed me n cursor = (r, i')) :
    Outcome closed me (.read n) i (r.map .bytes) i' := by
  rcases hread : cursor.read i.source n with ⟨q, cursor', src⟩
  simp only [fetch, hread] at h
  rcases Cursor.read_cases hread with ⟨hlt, rfl, rfl, rfl⟩ | ⟨hle, hfault, hwait⟩
  · obtain ⟨hopen, hholder, hinput⟩ := hstart.resolve_left (Nat.not_le.2 hlt)
    have hsame : (⟨i.source, i.lock.taken me, Input.leave closed (.reading cursor')⟩ : Inbound) = i := by
      rw [Lock.taken_of_holder hholder hqueue, Input.leave, hopen, if_neg Bool.false_ne_true, ← hinput]
    simp only [LinkError.isOverread, if_true, hsame] at h
    obtain ⟨rfl, rfl⟩ := Prod.mk.inj h
    exact .overreads rfl hopen hholder hinput hlt
  · cases q with
    | waiting =>
        obtain ⟨rfl, rfl⟩ := Prod.mk.inj h
        exact .waits hmine (.fetching cursor' n (hwait rfl ▸ hle))
    | ok bs =>
        obtain ⟨rfl, rfl⟩ := Prod.mk.inj h
        exact .stays hmine (by simp) (by simp)
    | error e =>
        have hcause := hfault e rfl
        simp only [LinkError.isOverread_of_isFault hcause, Bool.false_eq_true, if_false] at h
        exact abort_outcome hmine hcause src _ h

/-- The owner of the lock lets the rest of the payload pass. -/
theorem skip_outcome (hmine : i.Engages closed me .endRead) {closing : Cursor.Closing}
    (hfair : closing.IsFair) {r : Attempt LinkError Unit}
    (h : { i with lock := i.lock.taken me }.skip closed me closing = (r, i')) :
    Outcome closed me .endRead i (r.map fun _ => .done) i' := by
  rcases hrun : closing.run i.source with ⟨q, closing', src⟩
  obtain ⟨hbreach, hwait⟩ := Cursor.Closing.run_fair hfair hrun
  cases q with
  | waiting =>
      simp only [skip, hrun] at h
      obtain ⟨rfl, rfl⟩ := Prod.mk.inj h
      exact .waits hmine (.ending (hwait rfl))
  | ok _ =>
      simp only [skip, hrun, release_taken] at h
      obtain ⟨rfl, rfl⟩ := Prod.mk.inj h
      refine .ends hmine (fun hwait => ?_) (fun _ _ => rfl) (fun e hr => ?_) (by simp)
      · cases hwait
      · cases hr
  | error e =>
      simp only [skip, hrun, release_taken] at h
      obtain ⟨rfl, rfl⟩ := Prod.mk.inj h
      exact .fails hmine src (hbreach e rfl) (by simp)

/-- The owner of the lock finds the input as the call it goes on with has left it. -/
theorem IsCoherent.worksAt (h : i.IsCoherent closed held) {c : Call} (hme : held me = none ∨ held me = some c)
    (hholder : i.lock.holder = some me) (hbusy : i.input.isBusy = true) : i.input.WorksAt c := by
  cases h.stance with
  | free hnone _ => rw [hnone] at hholder; cases hholder
  | owned _ _ hinput =>
      rw [hinput, Input.isBusy_leave_reading] at hbusy
      cases hbusy
  | working howner hheld hworks =>
      obtain rfl := Option.some.inj (howner.symm.trans hholder)
      rcases hme with hnone | hsome
      · rw [hnone] at hheld; cases hheld
      · exact Option.some.inj (hheld.symm.trans hsome) ▸ hworks

theorem IsCoherent.idle_of_not_works (h : i.IsCoherent closed held) {c : Call} (hme : held me = none ∨ held me = some c)
    (hnot : i.lock.holder = some me → ¬ i.input.WorksAt c) : i.lock.holder = some me → i.input.isBusy = false := by
  intro hholder
  by_contra hbusy
  exact hnot hholder (h.worksAt hme hholder (by simpa using hbusy))

/-- A thread that owns the lock, or might take it, and goes on with no call finds nobody at work on the input. -/
theorem IsCoherent.idle (h : i.IsCoherent closed held) (hmine : i.lock.holder = some me ∨ i.lock.holder = none)
    (hidle : i.lock.holder = some me → i.input.isBusy = false) :
    i.lock.holder = none ∧ i.input = .leave closed .ready ∨
      ∃ cursor, i.lock.holder = some me ∧ i.input = .leave closed (.reading cursor) := by
  cases h.stance with
  | free hholder hinput => exact .inl ⟨hholder, hinput⟩
  | owned hholder _ hinput =>
      rcases hmine with hme | hnone
      · exact .inr ⟨_, hme, hinput⟩
      · rw [hholder] at hnone; cases hnone
  | working hholder _ hworks =>
      rcases hmine with hme | hnone
      · exact absurd hworks.isBusy (by rw [hidle hme]; exact Bool.false_ne_true)
      · rw [hholder] at hnone; cases hnone

/-- Only a thread that is held up in beginning a transaction queues up for the lock. -/
theorem IsCoherent.not_mem_queue (h : i.IsCoherent closed held) {c : Call} (hme : held me = none ∨ held me = some c)
    (hc : c ≠ .beginRead) : me ∉ i.lock.queue := by
  intro hmem
  have hbegin := h.orderly.waits me hmem
  rcases hme with hnone | hsome
  · rw [hnone] at hbegin; cases hbegin
  · exact hc (Option.some.inj (hsome.symm.trans hbegin))

theorem IsCoherent.lock_taken (h : i.IsCoherent closed held) (hholder : i.lock.holder = some me) :
    { i with lock := i.lock.taken me } = i := by
  rw [Lock.taken_of_holder hholder (h.orderly.not_mem_of_holder hholder)]

/-- A link that has been closed turns a thread away, and takes the lock from it if it goes on with no call. -/
theorem IsCoherent.turnedAway (h : i.IsCoherent true held) (c : Call) (hqueue : me ∉ i.lock.queue)
    (hidle : i.lock.holder = some me → i.input.isBusy = false) :
    Outcome true me c i (.error .closed) (i.release me) := by
  by_cases hholder : i.lock.holder = some me
  · have hgone : i.input = .leave true .ready := by
      rcases h.idle (.inl hholder) hidle with ⟨-, hinput⟩ | ⟨cursor, -, hinput⟩
      · exact hinput
      · exact hinput
    have hrelease : i.release me = { i with lock := i.lock.vacated me } := by
      rw [release, Lock.release_eq_vacated (.inl hholder) hqueue]
    rw [hrelease]
    exact .expelled rfl (.inl hholder) hgone
  · have hrelease : i.release me = i := by rw [release, Lock.release_of_not_holder hholder]
    rw [hrelease]
    exact .shut rfl hholder hqueue

theorem IsCoherent.begin_outcome (h : i.IsCoherent closed held) (hme : held me = none ∨ held me = some .beginRead)
    {r : Attempt LinkError Int32} (hr : i.begin closed limit me = (r, i')) :
    Outcome closed me .beginRead i (r.map .sequence) i' := by
  unfold Inbound.begin at hr
  split at hr
  · rename_i got hheld hinput
    have hholder := Lock.isHeldBy_iff.1 hheld
    have hworks := h.worksAt hme hholder (by rw [hinput]; rfl)
    exact openPacket_outcome (.owner hholder fun _ => hworks) got (by rwa [h.lock_taken hholder])
  · rename_i hnot
    have hidle : i.lock.holder = some me → i.input.isBusy = false := by
      refine h.idle_of_not_works hme fun hholder hworks => ?_
      generalize hinput : i.input = input at hworks
      cases hworks with
      | opening got => exact hnot got (Lock.isHeldBy_iff.2 hholder) hinput
    split at hr
    · rename_i hshut
      rw [Bool.and_eq_true, Bool.not_eq_true', Lock.isAwaitedBy_eq_false_iff] at hshut
      obtain ⟨rfl, hqueue⟩ := hshut
      obtain ⟨rfl, rfl⟩ := Prod.mk.inj hr
      exact h.turnedAway .beginRead hqueue hidle
    · rename_i hadmitted
      have hqueue : closed = true → me ∈ i.lock.queue := Lock.mem_queue_of_admitted hadmitted
      rcases hacquire : i.lock.acquire me "begin_read" with ⟨q, lock⟩
      rw [hacquire] at hr
      cases Lock.acquire_outcome hacquire with
      | reentrant hholder =>
          obtain ⟨rfl, rfl⟩ := Prod.mk.inj hr
          have hopen : closed = false :=
            Bool.eq_false_iff.2 fun hclosed => h.orderly.not_mem_of_holder hholder (hqueue hclosed)
          exact .reentrant rfl hopen hholder (hidle hholder)
      | queued hholder hfree =>
          obtain ⟨rfl, rfl⟩ := Prod.mk.inj hr
          exact .queued rfl hholder hfree hqueue
      | taken hfree =>
          have hnone := Lock.holder_of_isFreeFor hfree
          cases closed with
          | false => exact openPacket_outcome (.begins rfl rfl hnone) [] hr
          | true =>
              -- The thread has waited for the lock of a link that was closed meanwhile, and gives it up again.
              have hgone : i.input = .leave true .ready := by
                rcases h.idle (.inr hnone) hidle with ⟨-, hinput⟩ | ⟨cursor, hholder, -⟩
                · exact hinput
                · rw [hnone] at hholder; cases hholder
              obtain ⟨rfl, rfl⟩ := Prod.mk.inj hr
              refine (release_taken i.source i.lock _).symm ▸ ?_
              exact .expelled rfl (.inr hnone) hgone

theorem IsCoherent.refusal_outcome (h : i.IsCoherent closed held) {c : Call} (hme : held me = none ∨ held me = some c)
    (hc : c ≠ .beginRead) (hidle : i.lock.holder = some me → i.input.isBusy = false) {operation : String}
    {e : LinkError} (hr : i.refusal? closed me operation = some (e, i')) : Outcome closed me c i (.error e) i' := by
  unfold refusal? at hr
  split at hr
  · rename_i hclosed
    obtain ⟨rfl, rfl⟩ := Prod.mk.inj (Option.some.inj hr)
    subst hclosed
    exact h.turnedAway c (h.not_mem_queue hme hc) hidle
  · rename_i hopen
    split at hr
    · cases hr
    · rename_i hholder
      obtain ⟨rfl, rfl⟩ := Prod.mk.inj (Option.some.inj hr)
      exact .unowned hc (Bool.eq_false_iff.2 hopen) (fun hme => hholder (Lock.isHeldBy_iff.2 hme))

theorem holder_of_refusal_eq_none {operation : String} (hr : i.refusal? closed me operation = none) :
    closed = false ∧ i.lock.holder = some me := by
  unfold refusal? at hr
  split at hr
  · cases hr
  · rename_i hopen
    split at hr
    · rename_i hholder
      exact ⟨Bool.eq_false_iff.2 hopen, Lock.isHeldBy_iff.1 hholder⟩
    · cases hr

/-- In an open transaction on which nobody is at work there is a cursor. -/
theorem IsCoherent.exists_cursor (h : i.IsCoherent closed held) (hopen : closed = false)
    (hholder : i.lock.holder = some me) (hidle : i.lock.holder = some me → i.input.isBusy = false) :
    ∃ cursor, i.input = .reading cursor := by
  rcases h.idle (.inl hholder) hidle with ⟨hnone, -⟩ | ⟨cursor, -, hinput⟩
  · rw [hnone] at hholder; cases hholder
  · subst hopen
    exact ⟨cursor, hinput⟩

theorem IsCoherent.read_outcome (h : i.IsCoherent closed held) {n : Nat}
    (hme : held me = none ∨ held me = some (.read n)) {r : Attempt LinkError Bytes} (hr : i.read closed me n = (r, i')) :
    Outcome closed me (.read n) i (r.map .bytes) i' := by
  unfold Inbound.read at hr
  split at hr
  · rename_i cursor m hheld hinput
    have hholder := Lock.isHeldBy_iff.1 hheld
    have hworks := h.worksAt hme hholder (by rw [hinput]; rfl)
    have hmine : i.Engages closed me (.read n) := .owner hholder fun _ => hworks
    rw [hinput] at hworks
    cases hworks with
    | fetching _ _ hroom =>
        exact fetch_outcome hmine (.inl hroom) (h.orderly.not_mem_of_holder hholder) (by rwa [h.lock_taken hholder])
  · rename_i cause closing hheld hinput
    have hholder := Lock.isHeldBy_iff.1 hheld
    have hworks := h.worksAt hme hholder (by rw [hinput]; rfl)
    have hmine : i.Engages closed me (.read n) := .owner hholder fun _ => hworks
    rw [hinput] at hworks
    cases hworks with
    | aborting _ _ hcause =>
        refine abort_outcome hmine hcause i.source closing ?_
        exact (congrArg (abort closed me cause closing) (h.lock_taken hholder)).trans hr
  · rename_i hfetching haborting
    have hidle : i.lock.holder = some me → i.input.isBusy = false := by
      refine h.idle_of_not_works hme fun hholder hworks => ?_
      generalize hinput : i.input = input at hworks
      cases hworks with
      | fetching cursor m hroom => exact hfetching cursor n (Lock.isHeldBy_iff.2 hholder) hinput
      | aborting m closing hcause => exact haborting _ closing (Lock.isHeldBy_iff.2 hholder) hinput
    split at hr
    · rename_i hrefusal
      obtain ⟨rfl, rfl⟩ := Prod.mk.inj hr
      exact h.refusal_outcome hme (by simp) hidle hrefusal
    · rename_i cursor hrefusal hinput
      obtain ⟨hopen, hholder⟩ := holder_of_refusal_eq_none hrefusal
      exact fetch_outcome (.of_open hopen hholder) (.inr ⟨hopen, hholder, hinput⟩) (h.orderly.not_mem_of_holder hholder)
        (by rwa [h.lock_taken hholder])
    · rename_i hrefusal hnot
      obtain ⟨hopen, hholder⟩ := holder_of_refusal_eq_none hrefusal
      obtain ⟨cursor, hinput⟩ := h.exists_cursor hopen hholder hidle
      exact absurd hinput (hnot cursor)

theorem IsCoherent.remaining_outcome (h : i.IsCoherent closed held) (hme : held me = none ∨ held me = some .remaining)
    {r : Attempt LinkError Nat} (hr : i.remaining closed me = (r, i')) :
    Outcome closed me .remaining i (r.map .count) i' := by
  have hidle : i.lock.holder = some me → i.input.isBusy = false := by
    refine h.idle_of_not_works hme fun hholder hworks => ?_
    generalize i.input = input at hworks
    cases hworks
  unfold Inbound.remaining at hr
  split at hr
  · rename_i hrefusal
    obtain ⟨rfl, rfl⟩ := Prod.mk.inj hr
    exact h.refusal_outcome hme (by simp) hidle hrefusal
  · rename_i cursor hrefusal hinput
    obtain ⟨rfl, hholder⟩ := holder_of_refusal_eq_none hrefusal
    obtain ⟨rfl, rfl⟩ := Prod.mk.inj hr
    have hsame : (⟨i.source, i.lock.taken me, .leave false (.reading cursor)⟩ : Inbound) = i := by
      rw [Input.leave, if_neg Bool.false_ne_true, ← hinput]
      exact h.lock_taken hholder
    have hstays : Outcome false me .remaining i (.ok (.count cursor.remaining))
        ⟨i.source, i.lock.taken me, .leave false (.reading cursor)⟩ :=
      .stays (.of_open rfl hholder) (by simp) (by simp)
    rwa [hsame] at hstays
  · rename_i hrefusal hnot
    obtain ⟨hopen, hholder⟩ := holder_of_refusal_eq_none hrefusal
    obtain ⟨cursor, hinput⟩ := h.exists_cursor hopen hholder hidle
    exact absurd hinput (hnot cursor)

theorem IsCoherent.finish_outcome (h : i.IsCoherent closed held) (hme : held me = none ∨ held me = some .endRead)
    {r : Attempt LinkError Unit} (hr : i.finish closed me = (r, i')) :
    Outcome closed me .endRead i (r.map fun _ => .done) i' := by
  unfold Inbound.finish at hr
  split at hr
  · rename_i closing hheld hinput
    have hholder := Lock.isHeldBy_iff.1 hheld
    have hworks := h.worksAt hme hholder (by rw [hinput]; rfl)
    have hmine : i.Engages closed me .endRead := .owner hholder fun _ => hworks
    rw [hinput] at hworks
    cases hworks with
    | ending hfair => exact skip_outcome hmine hfair (by rwa [h.lock_taken hholder])
  · rename_i hending
    have hidle : i.lock.holder = some me → i.input.isBusy = false := by
      refine h.idle_of_not_works hme fun hholder hworks => ?_
      generalize hinput : i.input = input at hworks
      cases hworks with
      | ending hfair => exact hending _ (Lock.isHeldBy_iff.2 hholder) hinput
    split at hr
    · rename_i hrefusal
      obtain ⟨rfl, rfl⟩ := Prod.mk.inj hr
      exact h.refusal_outcome hme (by simp) hidle hrefusal
    · rename_i cursor hrefusal hinput
      obtain ⟨hopen, hholder⟩ := holder_of_refusal_eq_none hrefusal
      exact skip_outcome (.of_open hopen hholder) cursor.isFair_close (by rwa [h.lock_taken hholder])
    · rename_i hrefusal hnot
      obtain ⟨hopen, hholder⟩ := holder_of_refusal_eq_none hrefusal
      obtain ⟨cursor, hinput⟩ := h.exists_cursor hopen hholder hidle
      exact absurd hinput (hnot cursor)

/-- What another thread does that leaves holder and input alone does not disturb a stance. -/
theorem Stance.of_not_holder {held' : Thread → Option Call} (h : Stance closed held i)
    (hholder : i.lock.holder ≠ some me) (hothers : ∀ you, you ≠ me → held' you = held you)
    (hholder' : i'.lock.holder = i.lock.holder) (hinput' : i'.input = i.input) : Stance closed held' i' := by
  have howner : ∀ {owner}, i.lock.holder = some owner → held' owner = held owner :=
    fun hsome => hothers _ fun heq => hholder (heq ▸ hsome)
  cases h with
  | free hnone hinput => exact .free (hholder'.trans hnone) (hinput'.trans hinput)
  | owned hsome hheld hinput =>
      exact .owned (hholder'.trans hsome) ((howner hsome).trans hheld) (hinput'.trans hinput)
  | working hsome hheld hworks =>
      exact .working (hholder'.trans hsome) ((howner hsome).trans hheld) (hinput' ▸ hworks)

/-- Whatever a call comes to, the reading side is as it should be afterwards. -/
theorem Outcome.isCoherent {c : Call} {r : Attempt LinkError Reply} (ho : Outcome closed me c i r i')
    (h : i.IsCoherent closed held) (hme : held me = none ∨ held me = some c) :
    i'.IsCoherent closed (Function.update held me (Play.heldBy c r)) := by
  have hothers : ∀ you, you ≠ me → Function.update held me (Play.heldBy c r) you = held you :=
    fun you hyou => Function.update_of_ne hyou _ _
  have hbegins : ∀ you, you ≠ me → held you = some .beginRead →
      Function.update held me (Play.heldBy c r) you = some .beginRead :=
    fun you hyou hbegin => (hothers you hyou).trans hbegin
  have hanswered : r ≠ .waiting → Function.update held me (Play.heldBy c r) me = none := by
    intro hwait
    rw [Function.update_self]
    cases r with
    | waiting => exact absurd rfl hwait
    | _ => rfl
  cases ho with
  | queued hc hholder hfree hqueue =>
      refine ⟨h.stance.of_not_holder hholder hothers rfl rfl, h.orderly.enqueue hholder ?_ hbegins⟩
      rw [Function.update_self, hc]
      rfl
  | reentrant hc hopen hholder hidle =>
      refine ⟨?_, h.orderly.of_not_mem (h.orderly.not_mem_of_holder hholder) hbegins⟩
      rcases h.idle (.inl hholder) (fun _ => hidle) with ⟨hnone, -⟩ | ⟨cursor, -, hinput⟩
      · rw [hnone] at hholder; cases hholder
      · exact .owned hholder (hanswered nofun) hinput
  | unowned hc hopen hholder =>
      exact ⟨h.stance.of_not_holder hholder hothers rfl rfl, h.orderly.of_not_mem (h.not_mem_queue hme hc) hbegins⟩
  | shut hclosed hholder hqueue =>
      exact ⟨h.stance.of_not_holder hholder hothers rfl rfl, h.orderly.of_not_mem hqueue hbegins⟩
  | expelled hclosed hmine hinput => exact ⟨.free rfl hinput, h.orderly.vacated hbegins⟩
  | waits hmine hworks => exact ⟨.working rfl (Function.update_self ..) hworks, h.orderly.taken hbegins⟩
  | stays hmine hc hopen => exact ⟨.owned rfl (hanswered nofun) rfl, h.orderly.taken hbegins⟩
  | @overreads n cursor hc hopen hholder hinput hlt =>
      refine ⟨@Stance.owned _ _ _ _ cursor hholder (hanswered nofun) ?_,
        h.orderly.of_not_mem (h.orderly.not_mem_of_holder hholder) hbegins⟩
      rw [hinput, Input.leave, hopen, if_neg Bool.false_ne_true]
  | ends hmine hwait hc hr => exact ⟨.free rfl rfl, h.orderly.vacated hbegins⟩

/-- So it is when a thread that is in no call about it closes the link. -/
theorem IsCoherent.close (h : i.IsCoherent closed held) (hme : held me = none) :
    (i.close me).IsCoherent true held := by
  refine ⟨?_, h.orderly.release me⟩
  have hidle : i.input.isBusy = false → (i.close me).input = .gone := fun hidle => by
    simp only [Inbound.close, release, hidle, Bool.false_eq_true, if_false]
  cases h.stance with
  | free hholder hinput =>
      refine .free ?_ (hidle (hinput ▸ Input.isBusy_leave_ready closed))
      exact (congrArg Lock.holder (Lock.release_of_free hholder me)).trans hholder
  | owned hholder hheld hinput =>
      rename_i owner cursor
      have hgone := hidle (hinput ▸ Input.isBusy_leave_reading closed cursor)
      by_cases howner : owner = me
      · subst howner
        exact .free (congrArg Lock.holder (Lock.release_of_holder hholder)) hgone
      · have hnot : i.lock.holder ≠ some me := fun hsome => howner (Option.some.inj (hholder.symm.trans hsome))
        refine .owned ?_ hheld (hgone.trans (rfl : _ = Input.leave true (.reading cursor)))
        exact (congrArg Lock.holder (Lock.release_of_not_holder hnot)).trans hholder
  | working hholder hheld hworks =>
      have hnot : i.lock.holder ≠ some me := by
        intro hsome
        rw [hholder, Option.some.injEq] at hsome
        rw [hsome, hme] at hheld
        cases hheld
      refine .working ?_ hheld ?_
      · exact (congrArg Lock.holder (Lock.release_of_not_holder hnot)).trans hholder
      · simp only [Inbound.close, release, hworks.isBusy, if_true]
        exact hworks

/-- What the source holds does not matter, nor in which order threads queue up. -/
theorem IsCoherent.congr (h : i.IsCoherent closed held) (hinput : i'.input = i.input)
    (hholder : i'.lock.holder = i.lock.holder) (horderly : i'.lock.IsOrderly fun you => held you = some .beginRead) :
    i'.IsCoherent closed held := by
  refine ⟨?_, horderly⟩
  cases h.stance with
  | free hnone hready => exact .free (hholder.trans hnone) (hinput.trans hready)
  | owned hsome hheld hreading => exact .owned (hholder.trans hsome) hheld (hinput.trans hreading)
  | working hsome hheld hworks => exact .working (hholder.trans hsome) hheld (hinput ▸ hworks)

end

end Inbound

end FrameLink
