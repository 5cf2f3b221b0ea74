import FrameLink.Proofs.Arrivals
import FrameLink.Proofs.Draining
import FrameLink.Proofs.Takings

/-! What becomes of a transaction between the calls of its thread. A thread in a transaction keeps it whatever other
threads do and whatever arrives, be it waiting in a read or not; and a thread that has none does not come by one unless
it begins it. A read that the thread waits for comes to what it was asked for, or it fails and the transaction is
over. -/

namespace FrameLink

namespace Inbound

section

variable {closed : Bool} {limit : Option Nat} {me you : Thread} {i : Inbound}

theorem holder_release_iff (hyou : you ≠ me) : (i.release me).lock.holder = some you ↔ i.lock.holder = some you :=
  Lock.holder_release_iff hyou

theorem holder_openPacket_iff (hyou : you ≠ me) (got : Bytes) :
    (i.openPacket closed limit me got).2.lock.holder = some you ↔ i.lock.holder = some you := by
  unfold openPacket
  split
  · rfl
  · exact holder_release_iff hyou
  · split
    · exact holder_release_iff hyou
    · rfl

theorem holder_begin_iff (hyou : you ≠ me) :
    (i.begin closed limit me).2.lock.holder = some you ↔ i.lock.holder = some you := by
  unfold begin
  split
  · exact holder_openPacket_iff hyou _
  · split
    · exact holder_release_iff hyou
    · rcases hacquire : i.lock.acquire me "begin_read" with ⟨q, lock⟩
      cases Lock.acquire_outcome hacquire with
      | reentrant _ => rfl
      | queued _ _ => rfl
      | taken hfree =>
          have hnot : (some me = some you) ↔ i.lock.holder = some you := by
            rw [Lock.holder_of_isFreeFor hfree]
            exact iff_of_false (fun heq => hyou (Option.some.inj heq).symm) nofun
          refine Iff.trans ?_ hnot
          simp only [enter]
          split
          · exact holder_release_iff hyou
          · exact holder_openPacket_iff hyou _

theorem openPacket_of_ok {got : Bytes} {k : Int32} {i' : Inbound} (h : i.openPacket closed limit me got = (.ok k, i')) :
    closed = false ∧ i'.lock = i.lock ∧ ∃ header : Header, header.sequence = k ∧
      i'.input = .reading (.ofHeader header) := by
  unfold openPacket at h
  split at h
  · cases h
  · cases h
  · rename_i header _ _ _
    split at h
    · cases h
    · rename_i hopen
      cases h
      exact ⟨Bool.eq_false_iff.2 hopen, rfl, header, rfl, rfl⟩

/-- A thread that has begun a transaction owns the lock, and a cursor stands at the beginning of the payload. -/
theorem begin_of_ok {k : Int32} {i' : Inbound} (h : i.begin closed limit me = (.ok k, i')) :
    closed = false ∧ i'.lock.holder = some me ∧ ∃ header : Header, header.sequence = k ∧
      i'.input = .reading (.ofHeader header) := by
  unfold begin at h
  split at h
  · rename_i hheld _
    obtain ⟨hopen, hlock, header⟩ := openPacket_of_ok h
    exact ⟨hopen, hlock ▸ Lock.isHeldBy_iff.1 hheld, header⟩
  · split at h
    · cases h
    · rcases hacquire : i.lock.acquire me "begin_read" with ⟨q, lock⟩
      rw [hacquire] at h
      cases Lock.acquire_outcome hacquire with
      | reentrant _ => cases h
      | queued _ _ => cases h
      | taken _ =>
          simp only [enter] at h
          split at h
          · cases h
          · obtain ⟨hopen, hlock, header⟩ := openPacket_of_ok h
            exact ⟨hopen, hlock ▸ rfl, header⟩

/-- Whoever fails to open a packet gives the lock up. -/
theorem openPacket_of_not_ok {got : Bytes} (hnot : ∀ k, (i.openPacket closed limit me got).1 ≠ .ok k) :
    (i.openPacket closed limit me got).2.lock.holder ≠ some me ∨
      (i.openPacket closed limit me got).1 = .waiting ∧
        ∃ got', (i.openPacket closed limit me got).2.input = .opening got' := by
  rcases hreceive : Header.receive limit got i.source with ⟨q, got', src⟩
  simp only [openPacket, hreceive] at hnot ⊢
  cases q with
  | waiting => exact .inr ⟨rfl, got', rfl⟩
  | error e => exact .inl (Lock.holder_release_ne _ me)
  | ok header =>
      cases closed with
      | true => exact .inl (Lock.holder_release_ne _ me)
      | false => exact absurd rfl (hnot header.sequence)

theorem holder_abort_iff (hyou : you ≠ me) (e : LinkError) (closing : Cursor.Closing) :
    (i.abort closed me e closing).2.lock.holder = some you ↔ i.lock.holder = some you := by
  unfold abort
  split
  · rfl
  · exact holder_release_iff hyou

theorem holder_fetch_iff (hyou : you ≠ me) (n : Nat) (c : Cursor) :
    (i.fetch closed me n c).2.lock.holder = some you ↔ i.lock.holder = some you := by
  unfold fetch
  split
  · rfl
  · rfl
  · split
    · rfl
    · exact holder_abort_iff hyou _ _

theorem holder_skip_iff (hyou : you ≠ me) (closing : Cursor.Closing) :
    (i.skip closed me closing).2.lock.holder = some you ↔ i.lock.holder = some you := by
  unfold skip
  split
  · rfl
  · exact holder_release_iff hyou

theorem holder_of_refusal {operation : String} {e : LinkError} {i' : Inbound} (hyou : you ≠ me)
    (h : i.refusal? closed me operation = some (e, i')) : i'.lock.holder = some you ↔ i.lock.holder = some you := by
  unfold refusal? at h
  split at h
  · cases h
    exact holder_release_iff hyou
  · split at h
    · cases h
    · cases h
      rfl

theorem holder_read_iff (hyou : you ≠ me) (n : Nat) :
    (i.read closed me n).2.lock.holder = some you ↔ i.lock.holder = some you := by
  unfold read
  split
  · exact holder_fetch_iff hyou _ _
  · exact holder_abort_iff hyou _ _
  · split
    · rename_i hrefusal
      exact holder_of_refusal hyou hrefusal
    · exact holder_fetch_iff hyou _ _
    · exact holder_release_iff hyou

theorem holder_remaining_iff (hyou : you ≠ me) :
    (i.remaining closed me).2.lock.holder = some you ↔ i.lock.holder = some you := by
  unfold remaining
  split
  · rename_i hrefusal
    exact holder_of_refusal hyou hrefusal
  · rfl
  · rfl

theorem holder_finish_iff (hyou : you ≠ me) :
    (i.finish closed me).2.lock.holder = some you ↔ i.lock.holder = some you := by
  unfold finish
  split
  · exact holder_skip_iff hyou _
  · split
    · rename_i hrefusal
      exact holder_of_refusal hyou hrefusal
    · exact holder_skip_iff hyou _
    · exact holder_release_iff hyou

end

end Inbound

namespace Link

section

variable {l l' : Link} {me you : Thread} {c : Call}

/-- No call makes another thread the owner of the reading side, nor takes that from it. -/
theorem holder_call_iff (hyou : you ≠ me) (c : Call) :
    (l.call me c).2.inbound.lock.holder = some you ↔ l.inbound.lock.holder = some you := by
  cases c with
  | beginRead => exact Inbound.holder_begin_iff hyou
  | read n => exact Inbound.holder_read_iff hyou n
  | remaining => exact Inbound.holder_remaining_iff hyou
  | endRead => exact Inbound.holder_finish_iff hyou
  | close =>
      simp only [call, Link.close]
      split
      · rfl
      · exact Inbound.holder_release_iff hyou
  | enableCompression =>
      simp only [call, enableCompression]
      split <;> rfl
  | disableCompression =>
      simp only [call, disableCompression]
      split <;> rfl
  | _ => rfl

/-- On an open link, a thread in a transaction keeps it whatever other threads do, and whatever it does itself that is
not about reading. -/
theorem call_spares (hopen : l.closed = false) (hc : c ≠ .close) (hyou : you = me → c.reads = false)
    (hholder : l.inbound.lock.holder = some me) :
    ∃ lock, (l.call you c).2.inbound = { l.inbound with lock := lock } ∧ lock.holder = some me := by
  by_cases hme : you = me
  · exact ⟨l.inbound.lock, call_inbound hopen hc (hyou hme), hholder⟩
  · exact (call_beside hopen hc hholder fun heq => hme heq.symm).1

theorem holder_call_ne (hopen : l.closed = false) (hc : c ≠ .close) (hyou : you = me → c.reads = false)
    (hholder : l.inbound.lock.holder ≠ some me) : (l.call you c).2.inbound.lock.holder ≠ some me := by
  by_cases hme : you = me
  · rwa [call_inbound hopen hc (hyou hme)]
  · rwa [Ne, holder_call_iff fun heq => hme heq.symm]

theorem Stirs.spares (h : Stirs l l') :
    l'.inbound.lock.holder = l.inbound.lock.holder ∧ l'.inbound.input = l.inbound.input := by
  cases h with
  | source src => exact ⟨rfl, rfl⟩
  | sink replies flushes broken passes => exact ⟨rfl, rfl⟩
  | favour me => exact ⟨Lock.favour_holder _ me, rfl⟩

end

/-- What becomes of a link while a thread does nothing about reading, and nobody closes it; and the bytes that arrive
meanwhile. Whatever the source holds may also be cut into other pieces, and fail or hold up its reader elsewhere. -/
inductive Meanwhile (me : Thread) (l : Link) : Bytes → Link → Prop where
  | start : Meanwhile me l [] l
  | call {more : Bytes} {l' : Link} (you : Thread) (c : Call) (h : Meanwhile me l more l') (hc : c ≠ .close)
      (hyou : you = me → c.reads = false) : Meanwhile me l more (l'.call you c).2
  | stirs {more new : Bytes} {l' l'' : Link} (h : Meanwhile me l more l') (hstirs : Stirs l' l'')
      (hdata : l''.inbound.source.data = l'.inbound.source.data ++ new) : Meanwhile me l (more ++ new) l''

section

variable {me : Thread} {l l' : Link} {more : Bytes}

theorem Meanwhile.spares (h : Meanwhile me l more l') (hopen : l.closed = false)
    (hholder : l.inbound.lock.holder = some me) :
    l'.closed = false ∧ l'.inbound.lock.holder = some me ∧ l'.inbound.input = l.inbound.input ∧
      l'.inbound.source.data = l.inbound.source.data ++ more := by
  induction h with
  | start => exact ⟨hopen, hholder, rfl, (List.append_nil _).symm⟩
  | call you c _ hc hyou ih =>
      obtain ⟨hopen', hholder', hinput, hdata⟩ := ih
      obtain ⟨lock, hinbound, hlock⟩ := call_spares hopen' hc hyou hholder'
      rw [hinbound]
      exact ⟨(call_frame _ you hc).1.trans hopen', hlock, hinput, hdata⟩
  | stirs _ hstirs hmore ih =>
      obtain ⟨hopen', hholder', hinput, hdata⟩ := ih
      obtain ⟨hlock, hsame⟩ := hstirs.spares
      exact ⟨hstirs.closed.trans hopen', hlock.trans hholder', hsame.trans hinput,
        by rw [hmore, hdata, List.append_assoc]⟩

theorem Meanwhile.holder_ne (h : Meanwhile me l more l') (hopen : l.closed = false)
    (hholder : l.inbound.lock.holder ≠ some me) : l'.closed = false ∧ l'.inbound.lock.holder ≠ some me := by
  induction h with
  | start => exact ⟨hopen, hholder⟩
  | call you c _ hc hyou ih =>
      exact ⟨(call_frame _ you hc).1.trans ih.1, holder_call_ne ih.1 hc hyou ih.2⟩
  | stirs _ hstirs _ ih =>
      exact ⟨hstirs.closed.trans ih.1, hstirs.spares.1 ▸ ih.2⟩

end

/-- On an open link, the thread stands in a transaction in which it has been given `got` of the packet behind whose
header the bytes `whole` come. -/
def Reading (me : Thread) (h : Header) (whole got : Bytes) (l : Link) : Prop :=
  ∃ c, Within me c l ∧ Cursor.StandsIn h whole got c l.inbound.source

/-- On an open link, the thread waits in a read of up to `n` bytes of such a packet, or in one that has failed. -/
inductive Asking (me : Thread) (h : Header) (whole got : Bytes) (n : Nat) (l : Link) : Prop where
  | fetching {c : Cursor} (hopen : l.closed = false) (hholder : l.inbound.lock.holder = some me)
      (hinput : l.inbound.input = .fetching c n) (hn : 0 < n) (hle : n ≤ c.remaining)
      (hstands : Cursor.StandsIn h whole got c l.inbound.source) : Asking me h whole got n l
  | aborting {e : LinkError} {closing : Cursor.Closing} (hopen : l.closed = false)
      (hholder : l.inbound.lock.holder = some me) (hinput : l.inbound.input = .aborting e closing)
      (hfault : e.isFault = true) : Asking me h whole got n l

/-- What an attempt at such a read comes to, where the source was `src` before it. -/
inductive Fetched (me : Thread) (h : Header) (whole got : Bytes) (n : Nat) (src : Source) :
    Attempt LinkError Reply → Link → Prop where
  | bytes {bs : Bytes} {l : Link} (hne : bs ≠ []) (hle : bs.length ≤ n) (hreading : Reading me h whole (got ++ bs) l) :
      Fetched me h whole got n src (.ok (.bytes bs)) l
  | failed {e : LinkError} {l : Link} (hfault : e.isFault = true) (hopen : l.closed = false)
      (hholder : l.inbound.lock.holder ≠ some me) : Fetched me h whole got n src (.error e) l
  | waits {l : Link} (hasking : Asking me h whole got n l) (hprompt : ¬ src.IsPrompt) :
      Fetched me h whole got n src .waiting l

section

variable {me : Thread} {h : Header} {whole got more : Bytes} {c : Cursor} {n : Nat} {l l' : Link} {src : Source}

theorem Reading.meanwhile (hr : Reading me h whole got l) (hm : Meanwhile me l more l') :
    Reading me h (whole ++ more) got l' := by
  obtain ⟨c, hwithin, hstands⟩ := hr
  obtain ⟨hopen, hholder, hinput, hdata⟩ := hm.spares hwithin.opened hwithin.holder
  exact ⟨c, ⟨hopen, hholder, hinput.trans hwithin.input⟩, hstands.extend hdata⟩

theorem Asking.meanwhile (ha : Asking me h whole got n l) (hm : Meanwhile me l more l') :
    Asking me h (whole ++ more) got n l' := by
  cases ha with
  | fetching hopen hholder hinput hn hle hstands =>
      obtain ⟨hopen', hholder', hsame, hdata⟩ := hm.spares hopen hholder
      exact .fetching hopen' hholder' (hsame.trans hinput) hn hle (hstands.extend hdata)
  | aborting hopen hholder hinput hfault =>
      obtain ⟨hopen', hholder', hsame, -⟩ := hm.spares hopen hholder
      exact .aborting hopen' hholder' (hsame.trans hinput) hfault

theorem fetched_abort {i : Inbound} {e : LinkError} (closing : Cursor.Closing) (hopen : l.closed = false)
    (hholder : i.lock.holder = some me) (hfault : e.isFault = true) (hprompt : src.IsPrompt → i.source.IsPrompt) :
    Fetched me h whole got n src (l.withInbound .bytes (i.abort false me e closing)).1
      (l.withInbound .bytes (i.abort false me e closing)).2 := by
  rcases hrun : closing.run i.source with ⟨q, closing', src'⟩
  have hclear := (Cursor.Closing.run_outcome hrun).uses.clear
  have hreleased : ∀ lock : Lock, ((lock.release me).2).holder ≠ some me := fun lock => lock.holder_release_ne me
  simp only [Inbound.abort, hrun, withInbound]
  cases q with
  | ok u => exact .failed hfault hopen (hreleased _)
  | error e' => exact .failed hfault hopen (hreleased _)
  | waiting => exact .waits (.aborting hopen hholder rfl hfault) fun hp => hclear (.inr (hprompt hp)) rfl

theorem fetched_fetch (hopen : l.closed = false) (hholder : l.inbound.lock.holder = some me)
    (hstands : Cursor.StandsIn h whole got c l.inbound.source) (hn : 0 < n) (hle : n ≤ c.remaining) :
    Fetched me h whole got n l.inbound.source (l.withInbound .bytes (l.inbound.fetch false me n c)).1
      (l.withInbound .bytes (l.inbound.fetch false me n c)).2 := by
  rcases hread : c.read l.inbound.source n with ⟨q, d, src'⟩
  obtain ⟨⟨bs, hgives⟩, -⟩ := Cursor.read_uses hread
  cases hstands.follows.reading hread with
  | bytes hne _ hlength hfollows =>
      simp only [Inbound.fetch, hread, withInbound, Attempt.map]
      exact .bytes (hne hn) hlength ⟨d, ⟨hopen, hholder, rfl⟩, hfollows, hstands.amid.gives hgives⟩
  | refused hlt => omega
  | failed _ _ _ =>
      simp only [Inbound.fetch, hread, Cursor.isOverread_ofPayloadError, Bool.false_eq_true, if_false]
      exact fetched_abort _ hopen hholder (Cursor.isFault_ofPayloadError _) hgives.source.prompt
  | waits _ hclear hfollows =>
      have hsame : d.remaining = c.remaining := by
        have hremaining := hfollows.remaining
        have hremaining' := hstands.follows.remaining
        omega
      simp only [Inbound.fetch, hread, withInbound, Attempt.map]
      exact .waits (.fetching hopen hholder rfl hn (hsame ▸ hle) ⟨hfollows, hstands.amid.gives hgives⟩) fun hp =>
        hclear (.inr hp)

/-- A read that asks for nothing, or for too much, leaves the link alone. -/
theorem Within.read_of_same {a : Attempt LinkError Bytes} (hwithin : Within me c l)
    (hread : c.read l.inbound.source n = (a, c, l.inbound.source)) (ha : a ≠ .waiting)
    (hover : ∀ e, a = .error e → e.isOverread = true) : l.call me (.read n) = (a.map .bytes, l) := by
  have hsame : ({ l.inbound with input := .reading c } : Inbound) = l.inbound := by rw [← hwithin.input]
  rw [hwithin.read]
  cases a with
  | waiting => exact absurd rfl ha
  | ok bs =>
      simp only [Inbound.fetch, hread, withInbound, Input.leave, Bool.false_eq_true, if_false]
      exact congrArg (fun i => (_, { l with inbound := i })) hsame
  | error e =>
      simp only [Inbound.fetch, hread, hover e rfl, if_true, withInbound, Input.leave, Bool.false_eq_true, if_false]
      exact congrArg (fun i => (_, { l with inbound := i })) hsame

theorem Within.read_zero (hwithin : Within me c l) : l.call me (.read 0) = (.ok (.bytes []), l) :=
  hwithin.read_of_same (Cursor.read_zero c _) (by simp) (by simp)

theorem Within.read_of_lt (hwithin : Within me c l) (hlt : c.remaining < n) :
    l.call me (.read n) = (.error (.overread n c.remaining), l) :=
  hwithin.read_of_same (Cursor.read_of_lt hlt) (by simp) (by simp [LinkError.isOverread])

theorem Within.fetched (hwithin : Within me c l) (hstands : Cursor.StandsIn h whole got c l.inbound.source)
    (hn : 0 < n) (hle : n ≤ c.remaining) :
    Fetched me h whole got n l.inbound.source (l.call me (.read n)).1 (l.call me (.read n)).2 := by
  rw [hwithin.read]
  exact fetched_fetch hwithin.opened hwithin.holder hstands hn hle

/-- A thread that waits goes on with the read that it has asked for before. -/
theorem Asking.fetched (ha : Asking me h whole got n l) (k : Nat) :
    Fetched me h whole got n l.inbound.source (l.call me (.read k)).1 (l.call me (.read k)).2 := by
  cases ha with
  | fetching hopen hholder hinput hn hle hstands =>
      simp only [call, hopen, Inbound.read, Lock.isHeldBy_iff.2 hholder, hinput]
      exact fetched_fetch hopen hholder hstands hn hle
  | aborting hopen hholder hinput hfault =>
      simp only [call, hopen, Inbound.read, Lock.isHeldBy_iff.2 hholder, hinput]
      exact fetched_abort _ hopen hholder hfault id

/-- What ending the transaction comes to: it takes no byte behind the packet, and every byte of it if it succeeds. -/
theorem Reading.endRead (hr : Reading me h whole got l) :
    (∃ k ≤ extendWord h.packetLength, (l.call me .endRead).2.inbound.source.data = whole.drop k) ∧
      ∀ reply, (l.call me .endRead).1 = .ok reply →
        (l.call me .endRead).2.inbound.source.data = whole.drop (extendWord h.packetLength) := by
  obtain ⟨c, hwithin, hstands⟩ := hr
  rcases hrun : c.close.run l.inbound.source with ⟨q, closing, src⟩
  have houtcome := Cursor.Closing.run_outcome hrun
  obtain ⟨⟨bs, hgives⟩, -⟩ := houtcome.uses
  rw [Cursor.close_segment] at hgives
  have hamid := hstands.amid.gives hgives
  rw [hwithin.endRead]
  simp only [Inbound.skip, hrun, withInbound]
  cases q with
  | ok u => exact ⟨hamid.data_eq_drop, fun _ _ => hamid.data_of_left_eq_zero (houtcome.drained rfl)⟩
  | error e => exact ⟨hamid.data_eq_drop, fun _ hok => by cases hok⟩
  | waiting => exact ⟨hamid.data_eq_drop, fun _ hok => by cases hok⟩

theorem Reading.prefix_payload (hr : Reading me h whole got l) : got <+: Cursor.payload h whole := by
  obtain ⟨c, -, hstands⟩ := hr
  exact hstands.prefix_payload

theorem Reading.eq_payload (hr : Reading me h whole got l) (hend : got.length = h.payloadLength) :
    got = Cursor.payload h whole := by
  obtain ⟨c, -, hstands⟩ := hr
  exact hstands.eq_payload hend

theorem Reading.data_eq_drop (hr : Reading me h whole got l) :
    ∃ k ≤ extendWord h.packetLength, l.inbound.source.data = whole.drop k := by
  obtain ⟨c, -, hstands⟩ := hr
  exact hstands.amid.data_eq_drop

theorem Reading.remaining (hr : Reading me h whole got l) :
    got.length ≤ h.payloadLength ∧ l.call me .remaining = (.ok (.count (h.payloadLength - got.length)), l) := by
  obtain ⟨c, hwithin, hstands⟩ := hr
  have hremaining := hstands.follows.remaining
  refine ⟨by omega, ?_⟩
  rw [hwithin.remaining, ← hremaining, Nat.add_sub_cancel_left]

/-- A thread whose call to begin a transaction is answered stands at the beginning of a packet. -/
theorem reading_of_beginRead {k : Int32} (hbegin : l.call me .beginRead = (.ok (.sequence k), l')) :
    ∃ h : Header, h.sequence = k ∧ l'.inbound.input = .reading (.ofHeader h) ∧
      Reading me h l'.inbound.source.data [] l' := by
  rcases hr : l.inbound.begin l.closed l.settings.limit me with ⟨q, i⟩
  simp only [call, withInbound, hr, Prod.mk.injEq] at hbegin
  obtain ⟨hq, rfl⟩ := hbegin
  cases q with
  | ok k' =>
      cases hq
      obtain ⟨hopen, hholder, header, hsequence, hinput⟩ := Inbound.begin_of_ok hr
      exact ⟨header, hsequence, hinput, _, ⟨hopen, hholder, hinput⟩, Cursor.standsIn_ofHeader header i.source⟩
  | _ => cases hq

end

section

variable {me you : Thread} {c : Call} {l l' : Link}

theorem call_of_not_holder (hopen : l.closed = false) (hholder : l.inbound.lock.holder ≠ some me) (hc : c ≠ .close)
    (hbegin : c ≠ .beginRead) : (l.call me c).2.inbound = l.inbound := by
  cases c with
  | close => exact absurd rfl hc
  | beginRead => exact absurd rfl hbegin
  | read n => simp only [call, withInbound, hopen, Inbound.read_of_not_holder hholder]
  | endRead => simp only [call, withInbound, hopen, Inbound.finish_of_not_holder hholder]
  | _ => exact call_inbound hopen hc rfl

/-- An attempt to begin a transaction that is not answered with success leaves the thread without one. It may wait, in
the middle of a header or for the lock. -/
theorem beginRead_of_not_ok (hopen : l.closed = false)
    (hl : l.inbound.lock.holder ≠ some me ∨ ∃ got, l.inbound.input = .opening got)
    (hnot : ∀ reply, (l.call me .beginRead).1 ≠ .ok reply) :
    (l.call me .beginRead).2.inbound.lock.holder ≠ some me ∨
      (l.call me .beginRead).1 = .waiting ∧ ∃ got, (l.call me .beginRead).2.inbound.input = .opening got := by
  have hopens : ∀ (i : Inbound) (got : Bytes),
      l.inbound.begin false l.settings.limit me = i.openPacket false l.settings.limit me got →
      (l.call me .beginRead).2.inbound.lock.holder ≠ some me ∨
        (l.call me .beginRead).1 = .waiting ∧ ∃ got', (l.call me .beginRead).2.inbound.input = .opening got' := by
    intro i got heq
    simp only [call, withInbound, hopen, heq] at hnot ⊢
    refine (Inbound.openPacket_of_not_ok fun k hk => hnot (.sequence k) (by rw [hk]; rfl)).imp_right fun hwaits => ?_
    rw [hwaits.1]
    exact ⟨rfl, hwaits.2⟩
  by_cases hholder : l.inbound.lock.holder = some me
  · obtain ⟨got, hinput⟩ := hl.resolve_left fun hne => hne hholder
    exact hopens l.inbound got (Inbound.begin_of_opening hholder hinput)
  · rcases hacquire : l.inbound.lock.acquire me "begin_read" with ⟨q, lock⟩
    have hbegin : l.inbound.begin false l.settings.limit me = _ :=
      Inbound.begin_of_acquire (fun hme => absurd hme hholder) hacquire
    cases Lock.acquire_outcome hacquire with
    | reentrant hme => exact absurd hme hholder
    | taken _ => exact hopens _ [] hbegin
    | queued hne _ =>
        simp only [call, withInbound, hopen, hbegin]
        exact .inl hne

/-- A thread is in no transaction: it does not own the lock, or it is held up in beginning one, or the link is closed. -/
inductive Outside (me : Thread) (p : Play Link Call Reply) : Prop where
  | closed (hclosed : p.world.closed = true) : Outside me p
  | unowned (hholder : p.world.inbound.lock.holder ≠ some me) : Outside me p
  | opening (got : Bytes) (hheld : p.held me = some .beginRead) (hinput : p.world.inbound.input = .opening got) :
      Outside me p

variable {p q : Play Link Call Reply} {trials : List (Trial Call Reply)}

theorem Outside.attempt_of_own (h : Outside me p) (hopen : p.world.closed = false) (hc : c ≠ .close)
    (hallows : p.Allows me c) (hnot : c = .beginRead → ∀ reply, (p.world.call me c).1 ≠ .ok reply) :
    Outside me (p.attempt arena me c) := by
  have hworld : (p.attempt arena me c).world = (p.world.call me c).2 := Play.attempt_world me c
  by_cases hbegin : c = .beginRead
  · subst hbegin
    have hl : p.world.inbound.lock.holder ≠ some me ∨ ∃ got, p.world.inbound.input = .opening got := by
      cases h with
      | closed hclosed => cases hopen.symm.trans hclosed
      | unowned hholder => exact .inl hholder
      | opening got _ hinput => exact .inr ⟨got, hinput⟩
    rcases beginRead_of_not_ok hopen hl (hnot rfl) with hholder | ⟨hwaits, got, hinput⟩
    · exact .unowned (hworld ▸ hholder)
    · refine .opening got ?_ (hworld ▸ hinput)
      show (p.after me .beginRead (p.world.call me .beginRead).1 _).held me = _
      rw [Play.after_held_self, hwaits]
  · cases h with
    | closed hclosed => cases hopen.symm.trans hclosed
    | unowned hholder => exact .unowned (hworld ▸ call_of_not_holder hopen hholder hc hbegin ▸ hholder)
    | opening _ hheld _ => exact absurd (hallows _ hheld).symm hbegin

theorem Outside.attempt_of_other (h : Outside me p) (hopen : p.world.closed = false) (hc : c ≠ .close) (hme : me ≠ you) :
    Outside me (p.attempt arena you c) := by
  have hworld : (p.attempt arena you c).world = (p.world.call you c).2 := Play.attempt_world you c
  by_cases hholder : p.world.inbound.lock.holder = some me
  · cases h with
    | closed hclosed => cases hopen.symm.trans hclosed
    | unowned hnone => exact absurd hholder hnone
    | opening got hheld hinput =>
        obtain ⟨⟨lock, hinbound, -⟩, -⟩ := call_beside hopen hc hholder hme
        refine .opening got ((Play.after_held_of_ne hme).trans hheld) ?_
        rw [hworld, hinbound]
        exact hinput
  · exact .unowned (hworld ▸ fun hsome => hholder ((holder_call_iff hme c).1 hsome))

theorem Outside.attempt (h : Outside me p) (hallows : p.Allows you c)
    (hnot : you = me → c = .beginRead → ∀ reply, (p.world.call you c).1 ≠ .ok reply) :
    Outside me (p.attempt arena you c) := by
  have hworld : (p.attempt arena you c).world = (p.world.call you c).2 := Play.attempt_world you c
  cases hclosed : p.world.closed with
  | true => exact .closed (hworld ▸ closed_call hclosed you c)
  | false =>
      by_cases hc : c = .close
      · exact .closed (hworld ▸ hc ▸ closed_close you p.world)
      by_cases hme : me = you
      · subst hme
        exact h.attempt_of_own hclosed hc hallows (hnot rfl)
      · exact h.attempt_of_other hclosed hc hme

/-- A thread that is in no transaction stays so, whatever threads do and whatever happens to the byte streams, as long
as no call of its own to begin one succeeds. -/
theorem Course.outside (hcourse : Course p trials q) (h : Outside me p)
    (hnot : ∀ t ∈ trials, t.thread = me → t.call = .beginRead → ∀ reply, t.result ≠ .ok reply) : Outside me q := by
  refine hcourse.keeps (I := fun trials q =>
    (∀ t ∈ trials, t.thread = me → t.call = .beginRead → ∀ reply, t.result ≠ .ok reply) → Outside me q)
    (fun trials q you c ih hallows hnot => ?_) (fun trials q l ih hstirs hnot => ?_) (fun _ => h) hnot
  · have hlast := hnot _ (List.mem_append_right trials List.mem_cons_self)
    exact (ih fun t ht => hnot t (List.mem_append_left _ ht)).attempt hallows hlast
  · obtain ⟨hholder, hinput⟩ := hstirs.spares
    cases ih hnot with
    | closed hshut => exact .closed (hstirs.closed.trans hshut)
    | unowned hne => exact .unowned (hholder ▸ hne)
    | opening got hheld hopening => exact .opening got hheld (hinput.trans hopening)

end

end Link

end FrameLink
