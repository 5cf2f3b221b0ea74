import FrameLink.Proofs.Allowances
import FrameLink.Proofs.Courses

/-! What reading costs on a link that threads share. A meter beside the link counts, for the packet that is being read or
was the last to be, the bytes that have been taken from the source and those that threads have been given. A call about
the reading side does one of four things to the input, and each takes what it adds to the meter from what the input may
still come to; so the meter never shows more than a header and the longest payload. -/

namespace FrameLink

/-- The payload bytes that an answer brings. -/
def Attempt.payload : Attempt LinkError Reply → Bytes
  | .ok (.bytes bs) => bs
  | _ => []

theorem Attempt.payload_done {α : Type} (r : Attempt LinkError α) : (r.map fun _ => Reply.done).payload = [] := by
  cases r <;> rfl

namespace Input

/-- The cursor in the payload, if there is one. -/
def cursor? : Input → Option Cursor
  | .reading c | .fetching c _ => some c
  | _ => none

/-- What is left of the packet in the source, once its header has been read. -/
def segment? : Input → Option Segment
  | .reading c | .fetching c _ => some c.segment
  | .aborting _ closing | .ending closing => some closing.segment
  | _ => none

/-- How many bytes may still be taken from the source for this packet, if `most` is the longest payload. -/
def due (most : Nat) : Input → Nat
  | .opening got => Header.size - got.length + most
  | .reading c | .fetching c _ => c.segment.left
  | .aborting _ closing | .ending closing => closing.segment.left
  | .ready | .gone => 0

/-- How many bytes of this packet may still be given to threads. -/
def yet (most : Nat) : Input → Nat
  | .opening _ => most
  | .reading c | .fetching c _ => c.remaining
  | _ => 0

/-- The input once `got` has been read of a header, after an attempt that answers `r`. -/
inductive Opens (limit : Option Nat) (got : Bytes) : Attempt LinkError Reply → Input → Prop where
  | waits : Opens limit got .waiting (.opening got)
  | fails (closed : Bool) (e : LinkError) : Opens limit got (.error e) (.leave closed .ready)
  | opened {h : Header} (hvalid : h.IsValid limit) :
      Opens limit got (.ok (.sequence h.sequence)) (.reading (Cursor.ofHeader h))

/-- The input while the rest of the payload passes, of which `segment` is left, and when it has passed. -/
inductive Passes (segment : Segment) : Input → Prop where
  | passed (closed : Bool) : Passes segment (.leave closed .ready)
  | aborting (cause : LinkError) {closing : Cursor.Closing} (hsegment : closing.segment = segment) :
      Passes segment (.aborting cause closing)
  | ending {closing : Cursor.Closing} (hsegment : closing.segment = segment) : Passes segment (.ending closing)

section

variable (most : Nat) {input : Input} {c : Cursor} {segment : Segment}

theorem cost_of_cursor (h : input.cursor? = some c) :
    input.due most = c.segment.left ∧ input.yet most = c.remaining ∧ input.segment? = some c.segment := by
  cases input <;> cases h <;> exact ⟨rfl, rfl, rfl⟩

theorem due_of_segment (h : input.segment? = some segment) : input.due most = segment.left := by
  cases input <;> cases h <;> rfl

theorem cost_leave_ready (closed : Bool) :
    (leave closed .ready).due most = 0 ∧ (leave closed .ready).yet most = 0 ∧ (leave closed .ready).cursor? = none := by
  cases closed <;> exact ⟨rfl, rfl, rfl⟩

theorem Passes.cost (h : input.Passes segment) :
    input.due most ≤ segment.left ∧ input.yet most = 0 ∧ input.cursor? = none := by
  cases h with
  | passed closed =>
      obtain ⟨hdue, hyet, hcursor⟩ := cost_leave_ready most closed
      exact ⟨hdue ▸ Nat.zero_le _, hyet, hcursor⟩
  | aborting cause hsegment => exact ⟨Nat.le_of_eq (congrArg Segment.left hsegment), rfl, rfl⟩
  | ending hsegment => exact ⟨Nat.le_of_eq (congrArg Segment.left hsegment), rfl, rfl⟩

theorem Opens.cost {limit : Option Nat} {got : Bytes} {r : Attempt LinkError Reply} (h : input.Opens limit got r) :
    r.payload = [] ∧ input.due (longest limit) ≤ Header.size - got.length + longest limit ∧
      input.yet (longest limit) ≤ longest limit := by
  cases h with
  | waits => exact ⟨rfl, Nat.le_refl _, Nat.le_refl _⟩
  | fails closed e =>
      obtain ⟨hdue, hyet, -⟩ := cost_leave_ready (longest limit) closed
      exact ⟨rfl, hdue ▸ Nat.zero_le _, hyet ▸ Nat.zero_le _⟩
  | @opened h hvalid =>
      have hwithin := hvalid.isWithin
      refine ⟨rfl, ?_, ?_⟩
      · have hle : (Cursor.ofHeader h).segment.left ≤ longest limit := by
          rw [Cursor.ofHeader_segment]
          exact hwithin.extendWord_le
        exact Nat.le_trans hle (Nat.le_add_left _ _)
      · exact Nat.le_trans (Nat.le_of_eq (Cursor.ofHeader_remaining h)) hwithin.payloadLength_le

end

end Input

namespace Inbound

/-- What an attempt at a call that answers `r` does to the input: it leaves it alone or throws it away, reads on in the
header, reads in the payload, or lets the rest of it pass. A header is begun only while nobody holds the lock. -/
inductive Proceeds (limit : Option Nat) (c : Call) (i : Inbound) (r : Attempt LinkError Reply) (i' : Inbound) :
    Prop where
  | rests (hsource : i'.source = i.source) (hinput : i'.input = i.input ∨ i'.input = .gone) (hr : r.payload = [])
  | opens {got got' bs : Bytes} (hc : c = .beginRead)
      (hgot : i.input = .opening got ∨ got = [] ∧ i.lock.holder = none) (hgives : i.source.Gives bs i'.source)
      (hlength : bs.length + (Header.size - got'.length) ≤ Header.size - got.length)
      (hinput : i'.input.Opens limit got' r)
  | reads {cursor cursor' : Cursor} (hcursor : i.input.cursor? = some cursor)
      (hgives : Cursor.Gives (cursor, i.source) r.payload (cursor', i'.source))
      (hinput : i'.input.cursor? = some cursor' ∨ i'.input = .gone)
  | passes {segment segment' : Segment} {bs : Bytes} (hsegment : i.input.segment? = some segment)
      (hgives : Segment.Gives (segment, i.source) bs (segment', i'.source)) (hinput : i'.input.Passes segment')
      (hr : r.payload = [])

section

variable {closed : Bool} {limit : Option Nat} {me : Thread} {call : Call} {i i' : Inbound}

theorem openPacket_proceeds {got : Bytes} {lock : Lock} {r : Attempt LinkError Int32}
    (hgot : i.input = .opening got ∨ got = [] ∧ i.lock.holder = none)
    (h : { i with lock := lock }.openPacket closed limit me got = (r, i')) :
    Proceeds limit .beginRead i (r.map .sequence) i' := by
  rcases hreceive : Header.receive limit got i.source with ⟨q, got', src⟩
  obtain ⟨bs, hgives, hlength⟩ := Header.receive_takes hreceive
  simp only [openPacket, hreceive] at h
  cases q with
  | waiting =>
      obtain ⟨rfl, rfl⟩ := Prod.mk.inj h
      exact .opens rfl hgot hgives hlength .waits
  | error e =>
      obtain ⟨rfl, rfl⟩ := Prod.mk.inj h
      exact .opens rfl hgot hgives hlength (.fails closed _)
  | ok header =>
      cases closed with
      | true =>
          simp only [if_true] at h
          obtain ⟨rfl, rfl⟩ := Prod.mk.inj h
          exact .opens rfl hgot hgives hlength (.fails true _)
      | false =>
          simp only [Bool.false_eq_true, if_false] at h
          obtain ⟨rfl, rfl⟩ := Prod.mk.inj h
          exact .opens rfl hgot hgives hlength (.opened (Header.isValid_of_receive hreceive))

theorem begin_proceeds {r : Attempt LinkError Int32} (h : i.begin closed limit me = (r, i')) :
    Proceeds limit .beginRead i (r.map .sequence) i' := by
  unfold begin at h
  split at h
  · rename_i got _ hinput
    exact openPacket_proceeds (.inl hinput) h
  · split at h
    · obtain ⟨rfl, rfl⟩ := Prod.mk.inj h
      exact .rests rfl (.inl rfl) rfl
    · rcases hacquire : i.lock.acquire me "begin_read" with ⟨q, lock⟩
      simp only [hacquire] at h
      cases Lock.acquire_outcome hacquire with
      | reentrant =>
          obtain ⟨rfl, rfl⟩ := Prod.mk.inj h
          exact .rests rfl (.inl rfl) rfl
      | queued =>
          obtain ⟨rfl, rfl⟩ := Prod.mk.inj h
          exact .rests rfl (.inl rfl) rfl
      | taken hfree =>
          simp only [enter] at h
          split at h
          · obtain ⟨rfl, rfl⟩ := Prod.mk.inj h
            exact .rests rfl (.inl rfl) rfl
          · exact openPacket_proceeds (.inr ⟨rfl, Lock.holder_of_isFreeFor hfree⟩) h

theorem abort_proceeds {segment : Segment} {closing : Cursor.Closing} {bs : Bytes} {src : Source} {cause : LinkError}
    {r : Attempt LinkError Bytes} (hsegment : i.input.segment? = some segment)
    (hgives : Segment.Gives (segment, i.source) bs (closing.segment, src))
    (h : { i with source := src }.abort closed me cause closing = (r, i')) :
    Proceeds limit call i (r.map .bytes) i' := by
  rcases hrun : closing.run src with ⟨q, closing', src'⟩
  obtain ⟨cs, hcs⟩ := (Cursor.Closing.run_outcome hrun).uses.gives
  have hall := hgives.trans hcs
  cases q with
  | waiting =>
      simp only [abort, hrun, Prod.mk.injEq] at h
      obtain ⟨rfl, rfl⟩ := h
      exact .passes hsegment hall (.aborting cause rfl) rfl
  | ok _ =>
      simp only [abort, hrun, Prod.mk.injEq] at h
      obtain ⟨rfl, rfl⟩ := h
      exact .passes hsegment hall (.passed closed) rfl
  | error _ =>
      simp only [abort, hrun, Prod.mk.injEq] at h
      obtain ⟨rfl, rfl⟩ := h
      exact .passes hsegment hall (.passed closed) rfl

theorem skip_proceeds {closing : Cursor.Closing} {r : Attempt LinkError Unit}
    (hsegment : i.input.segment? = some closing.segment) (h : i.skip closed me closing = (r, i')) :
    Proceeds limit call i (r.map fun _ => .done) i' := by
  rcases hrun : closing.run i.source with ⟨q, closing', src'⟩
  obtain ⟨cs, hcs⟩ := (Cursor.Closing.run_outcome hrun).uses.gives
  cases q with
  | waiting =>
      simp only [skip, hrun, Prod.mk.injEq] at h
      obtain ⟨rfl, rfl⟩ := h
      exact .passes hsegment hcs (.ending rfl) rfl
  | ok _ =>
      simp only [skip, hrun, Prod.mk.injEq] at h
      obtain ⟨rfl, rfl⟩ := h
      exact .passes hsegment hcs (.passed closed) rfl
  | error _ =>
      simp only [skip, hrun, Prod.mk.injEq] at h
      obtain ⟨rfl, rfl⟩ := h
      exact .passes hsegment hcs (.passed closed) rfl

theorem fetch_proceeds {c : Cursor} {n : Nat} {r : Attempt LinkError Bytes} (hcursor : i.input.cursor? = some c)
    (h : i.fetch closed me n c = (r, i')) : Proceeds limit call i (r.map .bytes) i' := by
  rcases hread : c.read i.source n with ⟨q, c', src⟩
  have hgives := Cursor.read_gives hread
  have hleave : (Input.leave closed (.reading c')).cursor? = some c' ∨ Input.leave closed (.reading c') = .gone := by
    cases closed
    · exact .inl rfl
    · exact .inr rfl
  simp only [fetch, hread] at h
  cases q with
  | waiting =>
      obtain ⟨rfl, rfl⟩ := Prod.mk.inj h
      exact .reads hcursor hgives (.inl rfl)
  | ok bs =>
      obtain ⟨rfl, rfl⟩ := Prod.mk.inj h
      exact .reads hcursor hgives hleave
  | error e =>
      simp only at h
      split at h
      · obtain ⟨rfl, rfl⟩ := Prod.mk.inj h
        exact .reads hcursor hgives hleave
      · obtain ⟨taken, htaken, -⟩ := hgives.taken
        rw [← Cursor.close_segment c'] at htaken
        exact abort_proceeds (Input.cost_of_cursor 0 hcursor).2.2 htaken h

theorem refusal_proceeds {operation : String} {e : LinkError} (h : i.refusal? closed me operation = some (e, i')) :
    i'.source = i.source ∧ i'.input = i.input := by
  unfold refusal? at h
  split at h
  · obtain ⟨-, rfl⟩ := Prod.mk.inj (Option.some.inj h)
    exact ⟨rfl, rfl⟩
  · split at h
    · cases h
    · obtain ⟨-, rfl⟩ := Prod.mk.inj (Option.some.inj h)
      exact ⟨rfl, rfl⟩

theorem read_proceeds {n : Nat} {r : Attempt LinkError Bytes} (h : i.read closed me n = (r, i')) :
    Proceeds limit call i (r.map .bytes) i' := by
  unfold read at h
  split at h
  · rename_i c m _ hinput
    exact fetch_proceeds (by rw [hinput]; rfl) h
  · rename_i cause closing _ hinput
    exact abort_proceeds (by rw [hinput]; rfl) (.refl _) h
  · split at h
    · rename_i e i₁ _ hrefusal
      obtain ⟨rfl, rfl⟩ := Prod.mk.inj h
      obtain ⟨hsource, hinput⟩ := refusal_proceeds hrefusal
      exact .rests hsource (.inl hinput) rfl
    · rename_i c _ hinput
      exact fetch_proceeds (by rw [hinput]; rfl) h
    · obtain ⟨rfl, rfl⟩ := Prod.mk.inj h
      exact .rests rfl (.inl rfl) rfl

theorem remaining_proceeds {r : Attempt LinkError Nat} (h : i.remaining closed me = (r, i')) :
    Proceeds limit call i (r.map .count) i' := by
  unfold remaining at h
  split at h
  · rename_i e i₁ _ hrefusal
    obtain ⟨rfl, rfl⟩ := Prod.mk.inj h
    obtain ⟨hsource, hinput⟩ := refusal_proceeds hrefusal
    exact .rests hsource (.inl hinput) rfl
  · obtain ⟨rfl, rfl⟩ := Prod.mk.inj h
    exact .rests rfl (.inl rfl) rfl
  · obtain ⟨rfl, rfl⟩ := Prod.mk.inj h
    exact .rests rfl (.inl rfl) rfl

theorem finish_proceeds {r : Attempt LinkError Unit} (h : i.finish closed me = (r, i')) :
    Proceeds limit call i (r.map fun _ => .done) i' := by
  unfold finish at h
  split at h
  · rename_i closing _ hinput
    exact skip_proceeds (by rw [hinput]; rfl) h
  · split at h
    · rename_i e i₁ _ hrefusal
      obtain ⟨rfl, rfl⟩ := Prod.mk.inj h
      obtain ⟨hsource, hinput⟩ := refusal_proceeds hrefusal
      exact .rests hsource (.inl hinput) rfl
    · rename_i c _ hinput
      refine skip_proceeds ?_ h
      rw [hinput, Cursor.close_segment]
      rfl
    · obtain ⟨rfl, rfl⟩ := Prod.mk.inj h
      exact .rests rfl (.inl rfl) rfl

theorem close_proceeds (me : Thread) {r : Attempt LinkError Reply} (hr : r.payload = []) :
    Proceeds limit call i r (i.close me) := by
  refine .rests rfl ?_ hr
  change (if i.input.isBusy then i.input else .gone) = i.input ∨ (if i.input.isBusy then i.input else .gone) = .gone
  split
  · exact .inl rfl
  · exact .inr rfl

end

end Inbound

namespace Link

/-- Whatever a thread calls for, it does one of these things to the input. -/
theorem call_proceeds (l : Link) (me : Thread) (c : Call) :
    Inbound.Proceeds l.settings.limit c l.inbound (l.call me c).1 (l.call me c).2.inbound := by
  cases c with
  | beginRead => exact Inbound.begin_proceeds rfl
  | read n => exact Inbound.read_proceeds rfl
  | remaining => exact Inbound.remaining_proceeds rfl
  | endRead => exact Inbound.finish_proceeds rfl
  | enableCompression =>
      simp only [call, enableCompression]
      split <;> exact .rests rfl (.inl rfl) rfl
  | disableCompression =>
      simp only [call, disableCompression]
      split <;> exact .rests rfl (.inl rfl) rfl
  | isCompressionEnabled => exact .rests rfl (.inl rfl) rfl
  | isClosed => exact .rests rfl (.inl rfl) rfl
  | close =>
      simp only [call, Link.close]
      split
      · exact .rests rfl (.inl rfl) rfl
      · exact Inbound.close_proceeds me (Attempt.payload_done _)
  | beginWrite n => exact .rests rfl (.inl rfl) (Attempt.payload_done _)
  | write bs => exact .rests rfl (.inl rfl) (Attempt.payload_done _)
  | restartWrite => exact .rests rfl (.inl rfl) (Attempt.payload_done _)
  | endWrite => exact .rests rfl (.inl rfl) (Attempt.payload_done _)
  | cancelWrite => exact .rests rfl (.inl rfl) (Attempt.payload_done _)

theorem call_limit (l : Link) (me : Thread) (c : Call) : (l.call me c).2.settings.limit = l.settings.limit := by
  by_cases hc : c = .close
  · subst hc
    simp only [call, Link.close]
    split <;> rfl
  · exact (call_frame l me hc).2.1

end Link

/-- What has been counted for a packet: the bytes taken from the source, and those given to threads. -/
structure Meter where
  taken : Nat := 0
  given : Nat := 0

namespace Meter

/-- The meter before an attempt at a call. It starts anew when a thread is to begin a transaction while nobody has one. -/
def before (k : Meter) (l : Link) (c : Call) : Meter :=
  if c = .beginRead ∧ l.inbound.lock.holder = none then {} else k

/-- The meter after an attempt that answers `r` and leaves the link `l'`. -/
def after (k : Meter) (l : Link) (c : Call) (r : Attempt LinkError Reply) (l' : Link) : Meter where
  taken := (k.before l c).taken + (l.inbound.source.data.length - l'.inbound.source.data.length)
  given := (k.before l c).given + r.payload.length

/-- With what may still come, the meter does not go beyond a header and a payload of `most` bytes. -/
structure Fits (most : Nat) (k : Meter) (i : Inbound) : Prop where
  taken : k.taken + i.input.due most ≤ Header.size + most
  given : k.given + i.input.yet most ≤ most

section

variable {most : Nat} {k : Meter} {i : Inbound} {l l' : Link} {c : Call} {r : Attempt LinkError Reply}

theorem fits_of_ready (h : i.input = .ready) : ({} : Meter).Fits most i := by
  refine ⟨?_, ?_⟩ <;> rw [h] <;> exact Nat.zero_le _

theorem before_given_le : (k.before l c).given ≤ k.given ∧ (k.before l c).taken ≤ k.taken := by
  unfold before
  split
  · exact ⟨Nat.zero_le _, Nat.zero_le _⟩
  · exact ⟨Nat.le_refl _, Nat.le_refl _⟩

theorem Fits.before (h : k.Fits most i) : (k.before l c).Fits most i := by
  obtain ⟨hgiven, htaken⟩ := before_given_le (k := k) (l := l) (c := c)
  exact ⟨Nat.le_trans (Nat.add_le_add_right htaken _) h.taken, Nat.le_trans (Nat.add_le_add_right hgiven _) h.given⟩

/-- What an attempt takes and gives is no longer to come. -/
theorem Fits.after (h : k.Fits (longest l.settings.limit) l.inbound)
    (hproceeds : Inbound.Proceeds l.settings.limit c l.inbound r l'.inbound) :
    (k.after l c r l').Fits (longest l.settings.limit) l'.inbound := by
  obtain ⟨htaken, hgiven⟩ := h.before (l := l) (c := c)
  cases hproceeds with
  | rests hsource hinput hr =>
      have hcost : l'.inbound.input.due (longest l.settings.limit) ≤ l.inbound.input.due (longest l.settings.limit) ∧
          l'.inbound.input.yet (longest l.settings.limit) ≤ l.inbound.input.yet (longest l.settings.limit) := by
        rcases hinput with hsame | hgone
        · rw [hsame]
          exact ⟨Nat.le_refl _, Nat.le_refl _⟩
        · rw [hgone]
          exact ⟨Nat.zero_le _, Nat.zero_le _⟩
      refine ⟨?_, ?_⟩
      · simp only [Meter.after, hsource, Nat.sub_self]
        omega
      · simp only [Meter.after, hr, List.length_nil]
        omega
  | @opens got got' bs hc hgot hgives hlength hinput =>
      have hsource := hgives.length
      obtain ⟨hr, hdue, hyet⟩ := hinput.cost
      have hbefore : (k.before l c).taken + (Header.size - got.length) ≤ Header.size ∧ (k.before l c).given = 0 := by
        rcases hgot with hopening | ⟨rfl, hfree⟩
        · rw [hopening] at htaken hgiven
          simp only [Input.due, Input.yet] at htaken hgiven
          omega
        · rw [Meter.before, if_pos ⟨hc, hfree⟩]
          exact ⟨Nat.le_of_eq (Nat.zero_add _), rfl⟩
      refine ⟨?_, ?_⟩
      · simp only [Meter.after]
        omega
      · simp only [Meter.after, hr, List.length_nil]
        omega
  | @reads cursor cursor' hcursor hgives hinput =>
      obtain ⟨hdue, hyet, -⟩ := Input.cost_of_cursor (longest l.settings.limit) hcursor
      obtain ⟨bs, hbs, -⟩ := hgives.taken
      have hsource := hbs.source.length
      have hleft := hbs.left
      have hremaining := hgives.remaining
      have hcost : l'.inbound.input.due (longest l.settings.limit) ≤ cursor'.segment.left ∧
          l'.inbound.input.yet (longest l.settings.limit) ≤ cursor'.remaining := by
        rcases hinput with hsome | hgone
        · obtain ⟨hdue', hyet', -⟩ := Input.cost_of_cursor (longest l.settings.limit) hsome
          exact ⟨Nat.le_of_eq hdue', Nat.le_of_eq hyet'⟩
        · rw [hgone]
          exact ⟨Nat.zero_le _, Nat.zero_le _⟩
      simp only at hsource hleft hremaining
      refine ⟨?_, ?_⟩
      · simp only [Meter.after]
        omega
      · simp only [Meter.after]
        omega
  | @passes segment segment' bs hsegment hgives hinput hr =>
      have hdue := Input.due_of_segment (longest l.settings.limit) hsegment
      have hsource := hgives.source.length
      have hleft := hgives.left
      obtain ⟨hdue', hyet', -⟩ := hinput.cost (longest l.settings.limit)
      simp only at hsource hleft
      refine ⟨?_, ?_⟩
      · simp only [Meter.after]
        omega
      · simp only [Meter.after, hr, hyet', List.length_nil]
        omega

end

end Meter

namespace Link

/-- A link with a meter beside it. -/
def metered : Arena (Link × Meter) Call Reply where
  call me c w := ((w.1.call me c).1, (w.1.call me c).2, w.2.after w.1 c (w.1.call me c).1 (w.1.call me c).2)
  favour me w := (w.1.favour me, w.2)

/-- The ways in which threads that share a link with a meter may go on. -/
abbrev MeteredCourse :
    Play (Link × Meter) Call Reply → List (Trial Call Reply) → Play (Link × Meter) Call Reply → Prop :=
  Play.Course metered fun w w' => Stirs w.1 w'.1 ∧ w'.2 = w.2

/-- Any course can be metered. -/
theorem Course.metered {l : Link} {trials : List (Trial Call Reply)} {q : Play Link Call Reply}
    (h : Course { world := l } trials q) :
    ∃ k, MeteredCourse { world := (l, {}) } trials ⟨(q.world, k), q.held, q.history⟩ := by
  induction h with
  | start => exact ⟨{}, .start⟩
  | @attempt trials q me c _ hallows ih =>
      obtain ⟨k, hk⟩ := ih
      have hafter : ∀ r (l' : Link) (k' : Meter),
          (⟨(q.world, k), q.held, q.history⟩ : Play (Link × Meter) Call Reply).after me c r (l', k') =
            ⟨((q.after me c r l').world, k'), (q.after me c r l').held, (q.after me c r l').history⟩ := by
        intro r l' k'
        cases r <;> rfl
      refine ⟨k.after q.world c (q.world.call me c).1 (q.world.call me c).2, ?_⟩
      rw [Play.attempt, ← hafter]
      exact hk.attempt me c hallows
  | stir _ hstirs ih =>
      obtain ⟨k, hk⟩ := ih
      exact ⟨k, hk.stir ⟨hstirs, rfl⟩⟩

/-- What the limit bounds when threads read packets through a link, whose meter stands at `k`. -/
structure Contained (limit : Option Nat) (l : Link) (k : Meter) : Prop where
  opened : ∀ me c cursor, l.inbound.input.cursor? = none → (l.call me c).2.inbound.input.cursor? = some cursor →
    c = .beginRead ∧ ∃ h : Header, h.IsWithin (longest limit) ∧ cursor = Cursor.ofHeader h ∧
      (l.call me c).1 = .ok (.sequence h.sequence)
  remaining : ∀ cursor, l.inbound.input.cursor? = some cursor → cursor.remaining ≤ longest limit
  told : ∀ me n, (l.call me .remaining).1 = .ok (.count n) → n ≤ longest limit
  given : k.given ≤ longest limit
  taken : k.taken ≤ Header.size + longest limit

section

variable {limit : Option Nat} {l : Link} {me : Thread} {c : Call}

theorem opened_of_call {cursor : Cursor} (hnone : l.inbound.input.cursor? = none)
    (hsome : (l.call me c).2.inbound.input.cursor? = some cursor) :
    c = .beginRead ∧ ∃ h : Header, h.IsWithin (longest l.settings.limit) ∧ cursor = Cursor.ofHeader h ∧
      (l.call me c).1 = .ok (.sequence h.sequence) := by
  have hproceeds := l.call_proceeds me c
  revert hproceeds hsome
  generalize (l.call me c).1 = r
  generalize (l.call me c).2.inbound = i
  intro hsome hproceeds
  cases hproceeds with
  | rests _ hinput _ =>
      rcases hinput with hinput | hinput
      · rw [hinput, hnone] at hsome
        cases hsome
      · rw [hinput] at hsome
        cases hsome
  | opens hc _ _ _ hinput =>
      refine ⟨hc, ?_⟩
      revert hinput hsome
      generalize i.input = input
      intro hsome hinput
      cases hinput with
      | waits => cases hsome
      | fails closed e =>
          rw [(Input.cost_leave_ready 0 closed).2.2] at hsome
          cases hsome
      | opened hvalid =>
          cases hsome
          exact ⟨_, hvalid.isWithin, rfl, rfl⟩
  | reads hcursor _ _ =>
      rw [hnone] at hcursor
      cases hcursor
  | passes _ _ hinput _ =>
      rw [(hinput.cost 0).2.2] at hsome
      cases hsome

theorem cursor_of_remaining {n : Nat} (h : (l.call me .remaining).1 = .ok (.count n)) :
    ∃ cursor, l.inbound.input.cursor? = some cursor ∧ cursor.remaining = n := by
  have hcall : (l.call me .remaining).1 = (l.inbound.remaining l.closed me).1.map .count := rfl
  rw [hcall] at h
  unfold Inbound.remaining at h
  split at h
  · cases h
  · rename_i cursor _ hinput
    cases h
    exact ⟨cursor, by rw [hinput]; rfl, rfl⟩
  · cases h

theorem contained_of_fits {k : Meter} (hlimit : l.settings.limit = limit) (h : k.Fits (longest limit) l.inbound) :
    Contained limit l k := by
  have hremaining : ∀ cursor, l.inbound.input.cursor? = some cursor → cursor.remaining ≤ longest limit := by
    intro cursor hcursor
    have hyet := (Input.cost_of_cursor (longest limit) hcursor).2.1
    have hgiven := h.given
    omega
  refine ⟨fun me c cursor hnone hsome => ?_, hremaining, fun me n hn => ?_,
    Nat.le_trans (Nat.le_add_right _ _) h.given, Nat.le_trans (Nat.le_add_right _ _) h.taken⟩
  · rw [← hlimit]
    exact opened_of_call hnone hsome
  · obtain ⟨cursor, hcursor, rfl⟩ := cursor_of_remaining hn
    exact hremaining cursor hcursor

theorem Stirs.inward {l' : Link} (h : Stirs l l') :
    l'.inbound.input = l.inbound.input ∧ l'.settings.limit = l.settings.limit := by
  cases h <;> exact ⟨rfl, rfl⟩

end

theorem MeteredCourse.fits {l : Link} {trials : List (Trial Call Reply)} {q : Play (Link × Meter) Call Reply}
    (h : MeteredCourse { world := (l, {}) } trials q) (hready : l.inbound.input = .ready) :
    q.world.1.settings.limit = l.settings.limit ∧ q.world.2.Fits (longest l.settings.limit) q.world.1.inbound := by
  refine h.keeps (I := fun _ q => q.world.1.settings.limit = l.settings.limit ∧
    q.world.2.Fits (longest l.settings.limit) q.world.1.inbound) ?_ ?_ ⟨rfl, ?_⟩
  · rintro _ q me c ⟨hlimit, hfits⟩ -
    rw [Play.attempt_world]
    rw [← hlimit] at hfits ⊢
    exact ⟨call_limit _ me c, hfits.after (call_proceeds _ me c)⟩
  · rintro _ q ⟨l', k⟩ ⟨hlimit, hfits⟩ ⟨hstirs, hmeter⟩
    obtain ⟨hinput, hsame⟩ := hstirs.inward
    cases hmeter
    refine ⟨hsame.trans hlimit, ?_, ?_⟩
    · rw [hinput]
      exact hfits.taken
    · rw [hinput]
      exact hfits.given
  · exact Meter.fits_of_ready hready

/-- The longest payload that passes bounds all that a peer can make a reader do, whatever the peer sends and wherever the
byte stream fails: on a link that threads share, at any time, for the packet that is read or was the last to be; and when
a packet is taken off a source in one go. -/
theorem reading_contained (settings : Settings) (hook : Hook) (src : Source) (sink : Sink)
    {trials : List (Trial Call Reply)} {q : Play (Link × Meter) Call Reply}
    (h : MeteredCourse { world := (new settings hook src sink, {}) } trials q) :
    Contained settings.limit q.world.1 q.world.2 ∧
      ∀ (limit : Option Nat) (wire : Source), Packet.Contained limit wire := by
  obtain ⟨hlimit, hfits⟩ := MeteredCourse.fits h rfl
  exact ⟨contained_of_fits hlimit hfits, Packet.contained⟩

/-- A compressed packet of the longest length, all of which has been taken when its one byte is read, and no byte behind
it. -/
theorem reading_contained_ahead :
    let settings : Settings := { limit := some 4 }
    let src : Source := { items := [.data [0, 0, 0, 7, 0, 0], .data [0, 4, 0, 0, 0, 1, 0x4b], .data [4, 0, 0x77, 0x99]] }
    ∃ trials q, MeteredCourse { world := (new settings {} src {}, {}) } trials q ∧
      (q.world.2.taken = 16 ∧ q.world.2.given = 1) ∧ Contained (some 4) q.world.1 q.world.2 := by
  intro settings src
  let start : Play (Link × Meter) Call Reply := { world := (new settings {} src {}, {}) }
  have hstart : MeteredCourse start [] start := .start
  have hbegun := hstart.attempt 0 .beginRead (.of_none rfl _)
  have hread := hbegun.attempt 0 (.read 1) (.of_none rfl _)
  exact ⟨_, _, hread, by decide +kernel, (reading_contained settings {} src {} hread).1⟩

end Link

end FrameLink
