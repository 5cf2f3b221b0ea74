import FrameLink.Proofs.Alignment
import FrameLink.Proofs.PacketGrammar

/-! Taking a packet in a transaction. A thread that begins a transaction, reads the payload piece by piece and ends the
transaction comes to what taking the packet off the source at a stroke comes to: the same packet, or the same failure at
the same stage. Only when a read of the payload fails does the transaction take more from the source, since it lets the
rest of the payload pass. -/

namespace FrameLink

/-- How far the taking of a packet comes. -/
inductive Stage where
  | header
  | payload
  | closing
  deriving DecidableEq

namespace Packet

/-- How far taking a payload off a source comes: to its end, or to where it fails or waits. -/
def payloadStage (h : Header) (src : Source) : Stage :=
  match collect (h.payloadLength + 1) #[] (Cursor.ofHeader h) src with
  | (.ok (), _, _, _) => .closing
  | _ => .payload

/-- How far taking a packet off a source comes. -/
def stage (limit : Option Nat) (src : Source) : Stage :=
  match Header.receive limit [] src with
  | (.ok h, _, src') => payloadStage h src'
  | _ => .header

/-- What is told of a packet in a transaction. -/
def told (packet : Header × Bytes) : Int32 × Bytes :=
  (packet.1.sequence, packet.2)

end Packet

namespace Link

/-- What a thread comes to that takes a packet in a transaction: how far, with what answer, and what link it leaves. -/
structure Taking (α : Type) where
  stage : Stage
  answer : Attempt LinkError α
  link : Link

/-- One round of a thread in a transaction in which it has read `got`: if some of the payload remains it reads a piece
of it, and otherwise it ends the transaction. It stops there, or where a call fails or waits. -/
def round (me : Thread) (got : Bytes) (l : Link) : (Bytes × Link) ⊕ Taking Bytes :=
  match l.call me .remaining with
  | (.ok (.count 0), l') =>
    match l'.call me .endRead with
    | (r, l'') => .inr ⟨.closing, r.map fun _ => got, l''⟩
  | (.ok (.count n), l') =>
    match l'.call me (.read (min n pieceSize)) with
    | (.ok (.bytes bs), l'') => .inl (got ++ bs, l'')
    | (r, l'') => .inr ⟨.payload, r.map fun _ => got, l''⟩
  | (r, l') => .inr ⟨.payload, r.map fun _ => got, l'⟩

/-- The thread goes round until it stops. -/
inductive TakesRest (me : Thread) : Bytes → Link → Taking Bytes → Prop where
  | stops {got : Bytes} {l : Link} {t : Taking Bytes} (h : round me got l = .inr t) : TakesRest me got l t
  | goesOn {got got' : Bytes} {l l' : Link} {t : Taking Bytes} (h : round me got l = .inl (got', l'))
      (hrest : TakesRest me got' l' t) : TakesRest me got l t

/-- The thread begins a transaction and, if it can, takes the packet. -/
inductive Takes (me : Thread) (l : Link) : Taking (Int32 × Bytes) → Prop where
  | begins {n : Int32} {l' : Link} {t : Taking Bytes} (h : l.call me .beginRead = (.ok (.sequence n), l'))
      (hrest : TakesRest me [] l' t) : Takes me l ⟨t.stage, t.answer.map fun payload => (n, payload), t.link⟩
  | stops {r : Attempt LinkError Reply} {l' : Link} (h : l.call me .beginRead = (r, l'))
      (hr : ∀ n, r ≠ .ok (.sequence n)) : Takes me l ⟨.header, r.map fun _ => (0, []), l'⟩

section

variable {me : Thread} {l : Link} {got : Bytes}

theorem TakesRest.unique {t t' : Taking Bytes} (h : TakesRest me got l t) (h' : TakesRest me got l t') : t' = t := by
  induction h with
  | stops h =>
      cases h' with
      | stops h' => exact Sum.inr.inj (h'.symm.trans h)
      | goesOn h' _ => cases h'.symm.trans h
  | goesOn h _ ih =>
      cases h' with
      | stops h' => cases h'.symm.trans h
      | goesOn h' hrest' =>
          obtain ⟨rfl, rfl⟩ := Prod.mk.inj (Sum.inl.inj (h'.symm.trans h))
          exact ih hrest'

theorem Takes.unique {t t' : Taking (Int32 × Bytes)} (h : Takes me l t) (h' : Takes me l t') : t' = t := by
  cases h with
  | begins h hrest =>
      cases h' with
      | begins h' hrest' =>
          obtain ⟨hn, rfl⟩ := Prod.mk.inj (h'.symm.trans h)
          obtain rfl := Reply.sequence.inj (Attempt.ok.inj hn)
          rw [hrest.unique hrest']
      | stops h' hr' => exact absurd (Prod.mk.inj (h'.symm.trans h)).1 (hr' _)
  | stops h hr =>
      cases h' with
      | begins h' _ => exact absurd (Prod.mk.inj (h'.symm.trans h)).1.symm (hr _)
      | stops h' _ =>
          obtain ⟨rfl, rfl⟩ := Prod.mk.inj (h'.symm.trans h)
          rfl

end

/-- The link is open, and the thread is in a transaction in which the cursor stands in the payload. -/
structure Within (me : Thread) (c : Cursor) (l : Link) : Prop where
  opened : l.closed = false
  holder : l.inbound.lock.holder = some me
  input : l.inbound.input = .reading c

section

variable {me : Thread} {c : Cursor} {l : Link} {n : Nat}

theorem Within.remaining (h : Within me c l) : l.call me .remaining = (.ok (.count c.remaining), l) := by
  have hanswer : l.inbound.remaining l.closed me = (.ok c.remaining, l.inbound) := by
    simp only [Inbound.remaining, Inbound.refusal?, h.opened, Lock.isHeldBy_iff.2 h.holder, h.input, Bool.false_eq_true,
      if_false, if_true]
  simp only [call, withInbound, hanswer, Attempt.map]

theorem Within.read (h : Within me c l) :
    l.call me (.read n) = l.withInbound .bytes (l.inbound.fetch false me n c) := by
  simp only [call, h.opened, Inbound.read_of_holder h.holder h.input]

theorem Within.endRead (h : Within me c l) :
    l.call me .endRead = l.withInbound (fun _ => .done) (l.inbound.skip false me c.close) := by
  simp only [call, h.opened, Inbound.finish_of_holder h.holder h.input]

end

/-- A read has failed with `e` and left the source `src`. The thread is told so when the rest of the payload has
passed. -/
inductive Fails (src : Source) (e : LinkError) : Attempt LinkError Reply → Link → Prop where
  | told {l : Link} (hgives : ∃ bs, src.Gives bs l.inbound.source) : Fails src e (.error e) l
  | drains {l : Link} {closing : Cursor.Closing} (hgives : ∃ bs, src.Gives bs l.inbound.source)
      (hinput : l.inbound.input = .aborting e closing) (hprompt : ¬ src.IsPrompt) : Fails src e .waiting l

section

variable {me : Thread} {c d : Cursor} {l : Link} {n : Nat} {src : Source}

theorem Within.read_of_ok {bs : Bytes} (h : Within me c l) (hread : c.read l.inbound.source n = (.ok bs, d, src)) :
    ∃ l', l.call me (.read n) = (.ok (.bytes bs), l') ∧ Within me d l' ∧ l'.inbound.source = src := by
  rw [h.read]
  simp only [Inbound.fetch, hread, withInbound, Attempt.map]
  exact ⟨_, rfl, ⟨h.opened, h.holder, rfl⟩, rfl⟩

theorem Within.read_of_waiting (h : Within me c l) (hread : c.read l.inbound.source n = (.waiting, d, src)) :
    ∃ l', l.call me (.read n) = (.waiting, l') ∧ l'.inbound.source = src := by
  rw [h.read]
  simp only [Inbound.fetch, hread, withInbound, Attempt.map]
  exact ⟨_, rfl, rfl⟩

theorem Within.read_of_error {e : LinkError} (h : Within me c l)
    (hread : c.read l.inbound.source n = (.error e, d, src)) (he : e.isOverread = false) :
    ∃ r l', l.call me (.read n) = (r, l') ∧ Fails src e r l' := by
  rcases hrun : d.close.run src with ⟨q, closing, src'⟩
  obtain ⟨⟨bs, hbs⟩, hclear⟩ := (Cursor.Closing.run_outcome hrun).uses
  rw [h.read]
  simp only [Inbound.fetch, hread, he, Bool.false_eq_true, if_false, Inbound.abort, hrun, withInbound]
  cases q with
  | ok u => exact ⟨_, _, rfl, .told ⟨bs, hbs.source⟩⟩
  | error e' => exact ⟨_, _, rfl, .told ⟨bs, hbs.source⟩⟩
  | waiting => exact ⟨_, _, rfl, .drains ⟨bs, hbs.source⟩ rfl fun hprompt => hclear (.inr hprompt) rfl⟩

theorem Within.endRead_of_finish {r : Attempt LinkError Unit} (h : Within me c l)
    (hfinish : c.finish l.inbound.source = (r, src)) :
    ∃ l', l.call me .endRead = (r.map fun _ => .done, l') ∧ l'.inbound.source = src := by
  rcases hrun : c.close.run l.inbound.source with ⟨q, closing, src'⟩
  simp only [Cursor.finish, hrun, Prod.mk.injEq] at hfinish
  obtain ⟨rfl, rfl⟩ := hfinish
  rw [h.endRead]
  simp only [Inbound.skip, hrun, withInbound]
  cases q <;> exact ⟨_, rfl, rfl⟩

end

/-- What collecting the rest of a payload comes to in a transaction in which the thread has read `got`, where collecting
it from the source answers `q` and leaves the cursor `d` and the source `src` behind, with `got'` read. -/
inductive Collects (me : Thread) (got : Bytes) (l : Link) (got' : Bytes) (d : Cursor) (src : Source) :
    Attempt LinkError Unit → Prop where
  | whole {l' : Link} (hwithin : Within me d l') (hsource : l'.inbound.source = src) (hend : d.remaining = 0)
      (hrest : ∀ t, TakesRest me got' l' t → TakesRest me got l t) : Collects me got l got' d src (.ok ())
  | failed {e : LinkError} {r : Attempt LinkError Reply} {l' : Link} (hfails : Fails src e r l')
      (htakes : TakesRest me got l ⟨.payload, r.map fun _ => got', l'⟩) : Collects me got l got' d src (.error e)
  | waits {l' : Link} (hsource : l'.inbound.source = src) (htakes : TakesRest me got l ⟨.payload, .waiting, l'⟩) :
      Collects me got l got' d src .waiting

section

variable {me : Thread} {c d : Cursor} {l : Link} {got got' : Bytes} {src : Source}

theorem Collects.goesOn {got₁ : Bytes} {l₁ : Link} {q : Attempt LinkError Unit}
    (h : Collects me got₁ l₁ got' d src q) (hround : round me got l = .inl (got₁, l₁)) :
    Collects me got l got' d src q := by
  cases h with
  | whole hwithin hsource hend hrest => exact .whole hwithin hsource hend fun t ht => .goesOn hround (hrest t ht)
  | failed hfails htakes => exact .failed hfails (.goesOn hround htakes)
  | waits hsource htakes => exact .waits hsource (.goesOn hround htakes)

theorem Within.round_of_remaining (h : Within me c l) (got : Bytes) (hpos : 0 < c.remaining) : round me got l =
    match l.call me (.read (min c.remaining pieceSize)) with
    | (.ok (.bytes bs), l') => .inl (got ++ bs, l')
    | (r, l') => .inr ⟨.payload, r.map fun _ => got, l'⟩ := by
  obtain ⟨n, hn⟩ := Nat.exists_eq_add_of_lt hpos
  rw [Nat.zero_add] at hn
  simp only [round, h.remaining, hn]

/-- A payload is collected in a transaction as it is collected from the source. -/
theorem Within.collects {h : Header} {body : Bytes} {reads : Nat} {got got' : Array UInt8} {q : Attempt LinkError Unit}
    (hwithin : Within me c l) (hf : Cursor.Follows h body got.toList c l.inbound.source) (hreads : c.remaining < reads)
    (hcollect : Packet.collect reads got c l.inbound.source = (q, got', d, src)) :
    Collects me got.toList l got'.toList d src q := by
  induction reads generalizing got c l with
  | zero => omega
  | succ reads ih =>
      by_cases hend : c.remaining = 0
      · simp only [Packet.collect, if_pos hend, Prod.mk.injEq] at hcollect
        obtain ⟨rfl, rfl, rfl, rfl⟩ := hcollect
        exact .whole hwithin rfl hend fun _ ht => ht
      · have hpiece := Packet.pieceSize_pos
        have hround := hwithin.round_of_remaining got.toList (Nat.pos_of_ne_zero hend)
        have hremaining := hf.remaining
        rcases hread : c.read l.inbound.source (min c.remaining pieceSize) with ⟨r, c₁, src₁⟩
        cases hf.reading hread with
        | bytes hne hn hlength hfollows =>
            rename_i bs
            obtain ⟨l₁, hcall, hwithin₁, hsource⟩ := hwithin.read_of_ok hread
            simp only [hcall] at hround
            simp only [Packet.collect, if_neg hend, hread] at hcollect
            have hpos := List.length_pos_iff.2 (hne (by omega))
            have hremaining₁ := hfollows.remaining
            rw [List.length_append] at hremaining₁
            subst hsource
            rw [← Array.toList_appendList] at hround hfollows
            exact (ih hwithin₁ hfollows (by omega) hcollect).goesOn hround
        | refused hn => omega
        | failed hn _ _ =>
            obtain ⟨r, l', hcall, hfails⟩ := hwithin.read_of_error hread (Cursor.isOverread_ofPayloadError _)
            simp only [Packet.collect, if_neg hend, hread, Prod.mk.injEq] at hcollect
            obtain ⟨rfl, rfl, rfl, rfl⟩ := hcollect
            simp only [hcall] at hround
            refine .failed hfails (.stops ?_)
            rw [hround]
            cases hfails <;> rfl
        | waits hn _ _ =>
            obtain ⟨l', hcall, hsource⟩ := hwithin.read_of_waiting hread
            simp only [Packet.collect, if_neg hend, hread, Prod.mk.injEq] at hcollect
            obtain ⟨rfl, rfl, rfl, rfl⟩ := hcollect
            simp only [hcall] at hround
            exact .waits hsource (.stops hround)

end

/-- What a thread comes to in a transaction agrees with what taking the packet off the source comes to, which is the
answer `r` at the stage `stage`, with the source `src` behind it: it is the same answer at the same stage, and the same
source but for what the thread lets pass when a read has failed. If the source holds it up at that, it has no answer
yet. -/
inductive Agrees {α : Type} (stage : Stage) (r : Attempt LinkError α) (src : Source) (t : Taking α) : Prop where
  | told (hstage : t.stage = stage) (hanswer : t.answer = r) (hgives : ∃ bs, src.Gives bs t.link.inbound.source)
      (hsource : stage ≠ .payload → t.link.inbound.source = src)
  | drains {e : LinkError} {closing : Cursor.Closing} (hstage : t.stage = .payload ∧ stage = .payload)
      (hanswer : t.answer = .waiting) (hfailed : r = .error e) (hinput : t.link.inbound.input = .aborting e closing)
      (hprompt : ¬ src.IsPrompt)

theorem Agrees.same {α : Type} {stage : Stage} {r : Attempt LinkError α} {src : Source} {t : Taking α}
    (hstage : t.stage = stage) (hanswer : t.answer = r) (hsource : t.link.inbound.source = src) :
    Agrees stage r src t :=
  .told hstage hanswer ⟨[], hsource ▸ .refl _⟩ fun _ => hsource

section

variable {me : Thread} {l : Link}

/-- Behind the header of a packet the thread comes to what taking the payload off the source comes to. -/
theorem Within.takesRest {h : Header} (hwithin : Within me (Cursor.ofHeader h) l) :
    ∃ t, TakesRest me [] l t ∧ Agrees (Packet.payloadStage h l.inbound.source)
      ((Packet.receivePayload h l.inbound.source).1.map Packet.told) (Packet.receivePayload h l.inbound.source).2
      ⟨t.stage, t.answer.map fun payload => (h.sequence, payload), t.link⟩ := by
  have hf : Cursor.Follows h _ (#[] : Array UInt8).toList _ _ := Cursor.follows_ofHeader h l.inbound.source
  have hremaining := hf.remaining
  rw [Array.toList_empty, List.length_nil, Nat.zero_add] at hremaining
  rcases hcollect : Packet.collect (h.payloadLength + 1) #[] (Cursor.ofHeader h) l.inbound.source with ⟨q, got, d, src⟩
  have hcollects := hwithin.collects hf (by omega) hcollect
  cases hcollects with
  | whole hwithin' hsource hend hrest =>
      rename_i l'
      rcases hfinish : d.finish src with ⟨r, src'⟩
      obtain ⟨l'', hcall, hsource'⟩ := hwithin'.endRead_of_finish (hsource ▸ hfinish)
      have hround : round me got.toList l' =
          .inr ⟨.closing, (r.map fun _ => Reply.done).map fun _ => got.toList, l''⟩ := by
        simp only [round, hwithin'.remaining, hend, hcall]
      refine ⟨_, hrest _ (.stops hround), ?_⟩
      simp only [Packet.payloadStage, Packet.receivePayload, hcollect, hfinish]
      refine .same rfl ?_ hsource'
      cases r <;> rfl
  | failed hfails htakes =>
      refine ⟨_, htakes, ?_⟩
      simp only [Packet.payloadStage, Packet.receivePayload, hcollect]
      cases hfails with
      | told hgives => exact .told rfl rfl hgives fun hnot => absurd rfl hnot
      | drains _ hinput hprompt => exact .drains ⟨rfl, rfl⟩ rfl rfl hinput hprompt
  | waits hsource htakes =>
      refine ⟨_, htakes, ?_⟩
      simp only [Packet.payloadStage, Packet.receivePayload, hcollect]
      exact .same rfl rfl hsource

theorem call_beginRead (hopen : l.closed = false) (hready : l.inbound.input = .ready)
    (hfree : l.inbound.lock.isFreeFor me = true) : l.call me .beginRead = l.withInbound .sequence
      ({ l.inbound with lock := l.inbound.lock.taken me }.openPacket false l.settings.limit me []) := by
  have hbegin : l.inbound.begin false l.settings.limit me = _ :=
    Inbound.begin_of_acquire (fun _ got hgot => by rw [hready] at hgot; cases hgot) (Lock.acquire_of_isFreeFor hfree)
  simp only [call, hopen, hbegin]

theorem takes_agrees (hopen : l.closed = false) (hready : l.inbound.input = .ready)
    (hfree : l.inbound.lock.isFreeFor me = true) :
    ∃ t, Takes me l t ∧ Agrees (Packet.stage l.settings.limit l.inbound.source)
      ((Packet.receive l.settings.limit l.inbound.source).1.map Packet.told)
      (Packet.receive l.settings.limit l.inbound.source).2 t := by
  have hbegin := call_beginRead hopen hready hfree
  rcases hheader : Header.receive l.settings.limit [] l.inbound.source with ⟨q, got, src⟩
  simp only [Inbound.openPacket, hheader] at hbegin
  simp only [Packet.stage, Packet.receive, hheader]
  cases q with
  | ok h =>
      have hwithin : Within me (Cursor.ofHeader h)
          (l.withInbound .sequence (.ok h.sequence, { l.inbound with
            source := src, lock := l.inbound.lock.taken me, input := .reading (Cursor.ofHeader h) })).2 :=
        ⟨hopen, rfl, rfl⟩
      obtain ⟨t, hrest, hagrees⟩ := hwithin.takesRest
      exact ⟨_, .begins hbegin hrest, hagrees⟩
  | error e => exact ⟨_, .stops hbegin (fun _ h => by cases h), .same rfl rfl rfl⟩
  | waiting => exact ⟨_, .stops hbegin (fun _ h => by cases h), .same rfl rfl rfl⟩

/-- A thread that takes a packet in a transaction, on an open link which nobody is reading from, comes to exactly one
end; and this agrees with taking the packet off the source of the link. Unless the source holds it up, it gets an
answer. -/
theorem takes_like_receive (hopen : l.closed = false) (hready : l.inbound.input = .ready)
    (hfree : l.inbound.lock.isFreeFor me = true) :
    ∃ t, Takes me l t ∧ (∀ t', Takes me l t' → t' = t) ∧
      Agrees (Packet.stage l.settings.limit l.inbound.source)
        ((Packet.receive l.settings.limit l.inbound.source).1.map Packet.told)
        (Packet.receive l.settings.limit l.inbound.source).2 t ∧
      (l.inbound.source.IsPrompt → t.answer ≠ .waiting) := by
  obtain ⟨t, htakes, hagrees⟩ := takes_agrees hopen hready hfree
  refine ⟨t, htakes, fun t' => htakes.unique, hagrees, fun hprompt => ?_⟩
  cases hagrees with
  | told _ hanswer _ _ =>
      have hreceived := Packet.receive_ne_waiting l.settings.limit hprompt
      rw [hanswer]
      cases hr : (Packet.receive l.settings.limit l.inbound.source).1 with
      | ok packet => nofun
      | error e => nofun
      | waiting => exact absurd hr hreceived
  | drains _ _ _ _ hnot =>
      obtain ⟨bs, hgives⟩ := Packet.receive_gives l.settings.limit l.inbound.source
      exact absurd (hgives.prompt hprompt) hnot

end

/-- A compressed packet in pieces, with an interruption between them, and a packet inside whose payload the source
fails: what a thread comes to in a transaction. -/
theorem takes_like_receive_in_pieces :
    let whole : Source :=
      { items := [.data [0, 0, 0, 7, 0, 0], .failure ⟨.interrupted, "again"⟩, .data [0, 7, 0, 0, 0, 1, 1, 1, 0],
          .data [254, 255, 0x61, 0x77, 0x99]] }
    let broken : Source :=
      { items := [.data [0, 0, 0, 8, 0, 0, 0, 3, 0, 0, 0, 0, 1], .failure ⟨.timedOut, "late"⟩, .data [2, 3, 0x99]] }
    let linked := fun src : Source => ({ inbound := { source := src }, outbound := {} } : Link)
    (∃ t, Takes 3 (linked whole) t ∧ t.stage = .closing ∧ t.answer = .ok (7, [0x61]) ∧
        t.link.inbound.source.data = [0x99]) ∧
      ∃ t, Takes 3 (linked broken) t ∧ t.stage = .payload ∧ t.answer = .error (.stream ⟨.timedOut, "late"⟩) := by
  intro whole broken linked
  have hboth : ∀ src : Source, src.IsPrompt → ∃ t, Takes 3 (linked src) t ∧ t.stage = Packet.stage none src ∧
      t.answer = (Packet.receive none src).1.map Packet.told ∧
        (Packet.stage none src ≠ .payload → t.link.inbound.source = (Packet.receive none src).2) := by
    intro src hprompt
    obtain ⟨t, htakes, -, hagrees, hanswer⟩ := takes_like_receive (l := linked src) rfl rfl rfl
    cases hagrees with
    | told hstage htold _ hsource => exact ⟨t, htakes, hstage, htold, hsource⟩
    | drains _ hwaiting _ _ _ => exact absurd hwaiting (hanswer hprompt)
  obtain ⟨t, htakes, hstage, htold, hsource⟩ := hboth whole (by decide)
  obtain ⟨t', htakes', hstage', htold', -⟩ := hboth broken (by decide)
  have hclosing : Packet.stage none whole = .closing := by decide +kernel
  refine ⟨⟨t, htakes, hstage.trans hclosing, htold.trans (by decide +kernel), ?_⟩, t', htakes',
    hstage'.trans (by decide +kernel), htold'.trans (by decide +kernel)⟩
  rw [hsource (by rw [hclosing]; nofun)]
  decide +kernel

end Link

end FrameLink
