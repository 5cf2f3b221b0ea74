import FrameLink.Proofs.Meanwhile
import FrameLink.Proofs.Misuse

/-! The packet that a thread is reading, seen as a byte stream. In any transaction the reads through the view and those
of the link itself give out one payload in order, however they are mixed, however much each of them asks for, and
whatever happens in between. The view tells the end where no byte of the payload remains and nowhere else; it never asks
for too much, and once a read has failed it tells of a misuse until the thread begins another transaction. -/

namespace FrameLink

/-- A read of up to so many bytes of a packet, through the view or of the link itself. -/
inductive PacketRead where
  | viewed (n : Nat)
  | direct (n : Nat)

namespace PacketRead

def size : PacketRead → Nat
  | .viewed n | .direct n => n

/-- The read once attempted, and what it leaves behind. -/
def attempt (me : Thread) (q : PacketRead) (s : Stack) : Attempt IoError Bytes × InputView :=
  match q with
  | .viewed n => (InputView.mk me s).read n
  | .direct n => (InputView.mk me s).fetch n

/-- What a read answers in the end, with the bytes that arrive meanwhile. A read that waits is attempted again. -/
inductive Answers (me : Thread) (q : PacketRead) : Stack → Bytes → Except IoError Bytes → Stack → Prop where
  | told {s : Stack} {r : Except IoError Bytes} (h : (q.attempt me s).1.result? = some r) :
      Answers me q s [] r (q.attempt me s).2.stack
  | again {s s' : Stack} {more new : Bytes} {l : Link} {r : Except IoError Bytes}
      (h : (q.attempt me s).1 = .waiting) (hmeanwhile : Link.Meanwhile me (q.attempt me s).2.stack.base more l)
      (hrest : Answers me q ((q.attempt me s).2.stack.modifyBase fun _ => l) new r s') :
      Answers me q s (more ++ new) r s'

/-- Any number of reads one after the other, each with its answer, and the bytes that arrive meanwhile. -/
inductive Reads (me : Thread) (s : Stack) : List (PacketRead × Except IoError Bytes) → Bytes → Stack → Prop where
  | start : Reads me s [] [] s
  | meanwhile {rs : List (PacketRead × Except IoError Bytes)} {more new : Bytes} {s' : Stack} {l : Link}
      (h : Reads me s rs more s') (hmeanwhile : Link.Meanwhile me s'.base new l) :
      Reads me s rs (more ++ new) (s'.modifyBase fun _ => l)
  | read {rs : List (PacketRead × Except IoError Bytes)} {more new : Bytes} {s' s'' : Stack} {q : PacketRead}
      {r : Except IoError Bytes} (h : Reads me s rs more s') (hanswers : q.Answers me s' new r s'') :
      Reads me s (rs ++ [(q, r)]) (more ++ new) s''

/-- The bytes that an answer gives. -/
def gain : Except IoError Bytes → Bytes
  | .ok bs => bs
  | .error _ => []

/-- All bytes that the answers give. -/
def gained (rs : List (PacketRead × Except IoError Bytes)) : Bytes :=
  rs.flatMap fun r => gain r.2

/-- A read through the view that asked for bytes has been told that there are no more. -/
def ToldEnd (rs : List (PacketRead × Except IoError Bytes)) : Prop :=
  ∃ n, 0 < n ∧ (viewed n, .ok []) ∈ rs

section

variable {rs : List (PacketRead × Except IoError Bytes)} {q : PacketRead} {r : Except IoError Bytes}

theorem gained_concat : gained (rs ++ [(q, r)]) = gained rs ++ gain r := by
  simp only [gained, List.flatMap_append, List.flatMap_singleton]

theorem toldEnd_concat_iff : ToldEnd (rs ++ [(q, r)]) ↔ ToldEnd rs ∨ ∃ n, 0 < n ∧ q = viewed n ∧ r = .ok [] := by
  simp only [ToldEnd, List.mem_append, List.mem_singleton, Prod.mk.injEq, and_or_left, exists_or]
  simp only [eq_comm]

end

/-- What a read in a transaction answers, in which the thread has been given `got` of the packet, and where the thread
is then. -/
inductive Answered (me : Thread) (h : Header) (whole got : Bytes) (q : PacketRead) :
    Except IoError Bytes → Link → Prop where
  | bytes {bs : Bytes} {l : Link} (hend : bs = [] → q.size = 0 ∨ got.length = h.payloadLength)
      (hle : bs.length ≤ q.size) (hreading : Link.Reading me h whole (got ++ bs) l) :
      Answered me h whole got q (.ok bs) l
  /-- A read of the link itself has asked for too much. -/
  | refused {n : Nat} {io : IoError} {l : Link} (hq : q = .direct n) (hreading : Link.Reading me h whole got l) :
      Answered me h whole got q (.error io) l
  | failed {io : IoError} {l : Link} (hleft : got.length < h.payloadLength) (hkind : io.kind ≠ .invalidInput)
      (hopen : l.closed = false) (hholder : l.inbound.lock.holder ≠ some me) : Answered me h whole got q (.error io) l

/-- What one attempt comes to. -/
inductive Attempted (me : Thread) (h : Header) (whole got : Bytes) (q : PacketRead) (src : Source) :
    Attempt IoError Bytes → Link → Prop where
  | answered {a : Attempt IoError Bytes} {r : Except IoError Bytes} {l : Link} (hr : a.result? = some r)
      (hanswered : Answered me h whole got q r l) : Attempted me h whole got q src a l
  | waits {n : Nat} {l : Link} (hn : n ≤ q.size) (hleft : got.length < h.payloadLength)
      (hasking : Link.Asking me h whole got n l) (hprompt : ¬ src.IsPrompt) : Attempted me h whole got q src .waiting l

end PacketRead

/-- No fault of a payload passes for a misuse by its kind. -/
theorem LinkError.kind_ne_of_isFault {e : LinkError} (h : e.isFault = true) : e.toIoError.kind ≠ .invalidInput := by
  cases e with
  | codec reason source => exact IoKind.noConfusion
  | stream io => exact of_decide_eq_true h
  | _ => cases h

namespace InputView

variable {me : Thread} {s : Stack} {h : Header} {whole got : Bytes} {n : Nat}

theorem fetch_eq (me : Thread) (s : Stack) (n : Nat) : (InputView.mk me s).fetch n =
    (answer (s.base.call me (.read n)).1, ⟨me, s.modifyBase fun _ => (s.base.call me (.read n)).2⟩) := by
  simp only [fetch, s.call_of_ne_close me (c := .read n) (by simp)]

theorem remaining_of_reading (hr : Link.Reading me h whole got s.base) :
    s.call me .remaining = (.ok (.count (h.payloadLength - got.length)), s) := by
  obtain ⟨-, hremaining⟩ := hr.remaining
  have hcall : s.call me .remaining = ((s.base.call me .remaining).1, s) :=
    Stack.call_unchanged (by simp) (by rw [hremaining])
  rwa [hremaining] at hcall

/-- In a transaction, a read through the view is one of the link for no more than remains, if this is anything. -/
theorem read_of_reading (hr : Link.Reading me h whole got s.base) (n : Nat) : (InputView.mk me s).read n =
    if min n (h.payloadLength - got.length) = 0 then (.ok [], ⟨me, s⟩)
    else (InputView.mk me s).fetch (min n (h.payloadLength - got.length)) := by
  have hremaining := remaining_of_reading hr
  obtain ⟨c, hwithin, -⟩ := hr
  have hidle : s.base.inbound.isReading me = false := by
    simp only [Inbound.isReading, hwithin.input, Lock.isHeldBy_iff.2 hwithin.holder]
  simp only [read, hidle, Bool.false_eq_true, if_false, hremaining]

theorem remaining_of_not_holder (hopen : s.base.closed = false) (hholder : s.base.inbound.lock.holder ≠ some me) :
    s.call me .remaining = (.error (.protocolState "remaining" "read"), s) := by
  have hanswer : s.base.inbound.remaining s.base.closed me =
      (.error (.protocolState "remaining" "read"), s.base.inbound) := by
    simp only [Inbound.remaining, Inbound.refusal?, hopen, Lock.isHeldBy_eq_false_iff.2 hholder, Bool.false_eq_true,
      if_false]
  have hremaining : s.base.call me .remaining = (.error (.protocolState "remaining" "read"), s.base) := by
    simp only [Link.call, Link.withInbound, hanswer, Attempt.map]
  have hcall : s.call me .remaining = ((s.base.call me .remaining).1, s) :=
    Stack.call_unchanged (by simp) (by rw [hremaining])
  rwa [hremaining] at hcall

/-- Without a transaction, a read through the view is a misuse. -/
theorem read_of_not_holder (hopen : s.base.closed = false) (hholder : s.base.inbound.lock.holder ≠ some me) (n : Nat) :
    (InputView.mk me s).read n =
      (.error ⟨.invalidInput, (LinkError.protocolState "remaining" "read").message⟩, ⟨me, s⟩) := by
  have hidle : s.base.inbound.isReading me = false := by
    simp only [Inbound.isReading, Lock.isHeldBy_eq_false_iff.2 hholder]
  simp only [read, hidle, Bool.false_eq_true, if_false, remaining_of_not_holder hopen hholder]
  rfl

/-- A thread that waits in a read goes on with it. -/
theorem read_of_asking (ha : Link.Asking me h whole got n s.base) (k : Nat) :
    (InputView.mk me s).read k = (InputView.mk me s).fetch k := by
  have hbusy : s.base.inbound.isReading me = true := by
    cases ha with
    | fetching _ hholder hinput _ _ _ => simp only [Inbound.isReading, hinput, Lock.isHeldBy_iff.2 hholder]
    | aborting _ hholder hinput _ => simp only [Inbound.isReading, hinput, Lock.isHeldBy_iff.2 hholder]
  simp only [read, hbusy, if_true]

end InputView

namespace PacketRead

variable {me : Thread} {s s' : Stack} {h : Header} {whole got more : Bytes} {n : Nat} {q : PacketRead}
  {r : Except IoError Bytes}

theorem Attempted.of_fetched {src : Source} {a : Attempt LinkError Reply} {l : Link}
    (hf : Link.Fetched me h whole got n src a l) (hn : n ≤ q.size) (hleft : got.length < h.payloadLength) :
    Attempted me h whole got q src (InputView.answer a) l := by
  cases hf with
  | bytes hne hle hreading =>
      exact .answered rfl (.bytes (fun hnil => absurd hnil hne) (Nat.le_trans hle hn) hreading)
  | failed hfault hopen hholder =>
      exact .answered rfl (.failed hleft (LinkError.kind_ne_of_isFault hfault) hopen hholder)
  | waits hasking hprompt => exact .waits hn hleft hasking hprompt

theorem attempted_of_asking (ha : Link.Asking me h whole got n s.base) (hn : n ≤ q.size)
    (hleft : got.length < h.payloadLength) :
    Attempted me h whole got q s.base.inbound.source (q.attempt me s).1 (q.attempt me s).2.stack.base := by
  have hattempt : ∀ k, Attempted me h whole got q s.base.inbound.source ((InputView.mk me s).fetch k).1
      ((InputView.mk me s).fetch k).2.stack.base := by
    intro k
    rw [InputView.fetch_eq, Stack.base_modifyBase]
    exact .of_fetched (ha.fetched k) hn hleft
  cases q with
  | viewed k =>
      rw [attempt, InputView.read_of_asking ha]
      exact hattempt k
  | direct k => exact hattempt k

theorem attempted_of_reading (hr : Link.Reading me h whole got s.base) :
    Attempted me h whole got q s.base.inbound.source (q.attempt me s).1 (q.attempt me s).2.stack.base := by
  obtain ⟨c, hwithin, hstands⟩ := hr
  have hremaining := hstands.follows.remaining
  have hfetch : ∀ k, 0 < k → k ≤ h.payloadLength - got.length → k ≤ q.size →
      Attempted me h whole got q s.base.inbound.source ((InputView.mk me s).fetch k).1
        ((InputView.mk me s).fetch k).2.stack.base := by
    intro k hk hle hsize
    rw [InputView.fetch_eq, Stack.base_modifyBase]
    exact .of_fetched (hwithin.fetched hstands hk (by omega)) hsize (by omega)
  have hnothing : q.size = 0 ∨ got.length = h.payloadLength → Attempted me h whole got q s.base.inbound.source
      (.ok []) s.base := by
    intro hend
    refine .answered (r := .ok []) rfl (.bytes (fun _ => hend) (Nat.zero_le _) ?_)
    rw [List.append_nil]
    exact ⟨c, hwithin, hstands⟩
  cases q with
  | viewed k =>
      rw [attempt, InputView.read_of_reading ⟨c, hwithin, hstands⟩]
      by_cases hzero : min k (h.payloadLength - got.length) = 0
      · rw [if_pos hzero]
        exact hnothing (by simp only [size]; omega)
      · rw [if_neg hzero]
        exact hfetch _ (Nat.pos_of_ne_zero hzero) (Nat.min_le_right _ _) (Nat.min_le_left _ _)
  | direct k =>
      -- What the link itself is asked for may be nothing, or too much.
      have hread := InputView.fetch_eq me s k
      rcases Nat.eq_zero_or_pos k with rfl | hk
      · rw [hwithin.read_zero, Stack.modifyBase_base] at hread
        rw [attempt, hread]
        exact hnothing (.inl rfl)
      · by_cases hlt : c.remaining < k
        · rw [hwithin.read_of_lt hlt, Stack.modifyBase_base] at hread
          rw [attempt, hread]
          exact .answered rfl (.refused rfl ⟨c, hwithin, hstands⟩)
        · exact hfetch k hk (by omega) (Nat.le_refl k)

/-- Where a thread is that makes a read in a transaction: at its beginning, or waiting in it. -/
inductive Underway (me : Thread) (h : Header) (whole got : Bytes) (q : PacketRead) (l : Link) : Prop where
  | begins (hreading : Link.Reading me h whole got l) : Underway me h whole got q l
  | waits {n : Nat} (hn : n ≤ q.size) (hleft : got.length < h.payloadLength)
      (hasking : Link.Asking me h whole got n l) : Underway me h whole got q l

theorem Underway.attempted (hu : Underway me h whole got q s.base) :
    Attempted me h whole got q s.base.inbound.source (q.attempt me s).1 (q.attempt me s).2.stack.base := by
  cases hu with
  | begins hreading => exact attempted_of_reading hreading
  | waits hn hleft hasking => exact attempted_of_asking hasking hn hleft

theorem Answers.answered (ha : q.Answers me s more r s') (hu : Underway me h whole got q s.base) :
    Answered me h (whole ++ more) got q r s'.base := by
  induction ha generalizing whole with
  | @told s r hr =>
      rw [List.append_nil]
      have hattempted := hu.attempted
      generalize q.attempt me s = av at hr hattempted ⊢
      obtain ⟨a, v⟩ := av
      cases hattempted with
      | answered hr' hanswered =>
          obtain rfl := Option.some.inj (hr'.symm.trans hr)
          exact hanswered
      | waits _ _ _ _ => cases hr
  | @again s s' more new l r hwaits hmeanwhile _ ih =>
      rw [← List.append_assoc]
      have hattempted := hu.attempted
      generalize q.attempt me s = av at hwaits hmeanwhile ih hattempted
      obtain ⟨a, v⟩ := av
      obtain rfl : a = .waiting := hwaits
      cases hattempted with
      | answered hr' _ => cases hr'
      | waits hn hleft hasking _ =>
          refine ih (.waits hn hleft ?_)
          rw [Stack.base_modifyBase]
          exact hasking.meanwhile hmeanwhile

/-- A thread that has no transaction is told of a misuse by any read. -/
theorem attempt_of_not_holder (hopen : s.base.closed = false) (hholder : s.base.inbound.lock.holder ≠ some me) :
    ∃ io, q.attempt me s = (.error io, ⟨me, s⟩) := by
  cases q with
  | viewed n => exact ⟨_, InputView.read_of_not_holder hopen hholder n⟩
  | direct n =>
      have hread : s.base.call me (.read n) = (.error (.protocolState "read" "read"), s.base) := by
        have hanswer : s.base.inbound.read s.base.closed me n =
            (.error (.protocolState "read" "read"), s.base.inbound) := hopen ▸ Inbound.read_of_not_holder hholder
        simp only [Link.call, Link.withInbound, hanswer, Attempt.map]
      refine ⟨(LinkError.protocolState "read" "read").toIoError, ?_⟩
      rw [attempt, InputView.fetch_eq, hread, Stack.modifyBase_base]
      rfl

theorem Answers.of_not_holder (ha : q.Answers me s more r s') (hopen : s.base.closed = false)
    (hholder : s.base.inbound.lock.holder ≠ some me) : s' = s ∧ ∃ io, r = .error io := by
  obtain ⟨io, hattempt⟩ := attempt_of_not_holder (q := q) hopen hholder
  cases ha with
  | told hr =>
      rw [hattempt] at hr ⊢
      exact ⟨rfl, io, (Option.some.inj hr).symm⟩
  | again hwaits _ _ =>
      rw [hattempt] at hwaits
      cases hwaits

variable {rs : List (PacketRead × Except IoError Bytes)}

/-- After any number of reads the thread stands in the payload behind all that they have given, and at its end if it has
been told so; or a read has failed, and the transaction is over. -/
theorem Reads.reading (hreads : Reads me s rs more s') (hr : Link.Reading me h whole got s.base) :
    Link.Reading me h (whole ++ more) (got ++ gained rs) s'.base ∧
        (ToldEnd rs → (got ++ gained rs).length = h.payloadLength) ∨
      s'.base.closed = false ∧ s'.base.inbound.lock.holder ≠ some me ∧ ¬ ToldEnd rs := by
  induction hreads with
  | start =>
      rw [List.append_nil, gained, List.flatMap_nil, List.append_nil]
      exact .inl ⟨hr, fun ⟨_, _, hmem⟩ => by cases hmem⟩
  | meanwhile _ hmeanwhile ih =>
      rw [Stack.base_modifyBase, ← List.append_assoc]
      rcases ih with ⟨hreading, hend⟩ | ⟨hopen, hholder, hend⟩
      · exact .inl ⟨hreading.meanwhile hmeanwhile, hend⟩
      · obtain ⟨hopen', hholder'⟩ := hmeanwhile.holder_ne hopen hholder
        exact .inr ⟨hopen', hholder', hend⟩
  | @read rs more new s' s'' q r _ hanswers ih =>
      rw [← List.append_assoc, gained_concat, ← List.append_assoc, toldEnd_concat_iff]
      rcases ih with ⟨hreading, hend⟩ | ⟨hopen, hholder, hend⟩
      · cases hanswers.answered (.begins hreading) with
        | @bytes bs _ hnil hle hreading' =>
            refine .inl ⟨hreading', ?_⟩
            obtain ⟨hlength, -⟩ := hreading'.remaining
            rw [gain, List.length_append]
            rw [List.length_append] at hlength
            rintro (htold | ⟨n, hn, rfl, hbs⟩)
            · have hall := hend htold
              omega
            · obtain rfl : bs = [] := Except.ok.inj hbs
              have hall := (hnil rfl).resolve_left (Nat.pos_iff_ne_zero.1 hn)
              rw [hall]
              rfl
        | refused hq hreading' =>
            rw [gain, List.append_nil]
            exact .inl ⟨hreading', fun htold => hend (htold.resolve_right fun ⟨_, _, _, hr⟩ => by cases hr)⟩
        | failed hleft _ hopen hholder =>
            refine .inr ⟨hopen, hholder, ?_⟩
            rintro (htold | ⟨_, _, _, hr⟩)
            · exact absurd (hend htold) (Nat.ne_of_lt hleft)
            · cases hr
      · obtain ⟨rfl, io, rfl⟩ := hanswers.of_not_holder hopen hholder
        refine .inr ⟨hopen, hholder, ?_⟩
        rintro (htold | ⟨_, _, _, hr⟩)
        · exact hend htold
        · cases hr

theorem Reads.reading_of_remaining {left : Nat} (hreads : Reads me s rs more s')
    (hr : Link.Reading me h whole got s.base) (hleft : (s'.call me .remaining).1 = .ok (.count left)) :
    Link.Reading me h (whole ++ more) (got ++ gained rs) s'.base ∧
      (got ++ gained rs).length + left = h.payloadLength := by
  rcases hreads.reading hr with ⟨hreading, -⟩ | ⟨hopen, hholder, -⟩
  · rw [InputView.remaining_of_reading hreading] at hleft
    obtain rfl := Reply.count.inj (Attempt.ok.inj hleft)
    exact ⟨hreading, Nat.add_sub_of_le hreading.remaining.1⟩
  · rw [InputView.remaining_of_not_holder hopen hholder] at hleft
    cases hleft

/-- The reads have come to the end of the payload. -/
theorem Reads.reading_of_end (hreads : Reads me s rs more s') (hr : Link.Reading me h whole got s.base)
    (hend : ToldEnd rs ∨ (s'.call me .remaining).1 = .ok (.count 0)) :
    Link.Reading me h (whole ++ more) (got ++ gained rs) s'.base ∧ (got ++ gained rs).length = h.payloadLength := by
  rcases hend with htold | hzero
  · rcases hreads.reading hr with ⟨hreading, hlength⟩ | ⟨_, _, hnot⟩
    · exact ⟨hreading, hlength htold⟩
    · exact absurd htold hnot
  · exact hreads.reading_of_remaining hr hzero

end PacketRead

namespace InputView

open PacketRead

/-- The thread has no packet to read: whatever threads do from here on and whatever happens to the byte streams, as long
as the link stays open and the thread has begun no other transaction, its reads through the view are misuses that change
nothing. -/
def IsOver (me : Thread) (l : Link) : Prop :=
  ∀ held trials p, Link.Course { world := l, held := held } trials p →
    (∀ t ∈ trials, t.thread = me → t.call = .beginRead → ∀ reply, t.result ≠ .ok reply) →
    p.held me = none → p.world.closed = false → ∀ s : Stack, s.base = p.world → ∀ n,
      (InputView.mk me s).read n =
        (.error ⟨.invalidInput, (LinkError.protocolState "remaining" "read").message⟩, ⟨me, s⟩)

theorem isOver_of_not_holder {me : Thread} {l : Link} (hholder : l.inbound.lock.holder ≠ some me) : IsOver me l := by
  intro held trials p hcourse hnot hidle hopen s hs n
  cases hcourse.outside (.unowned hholder) hnot with
  | closed hclosed => cases hopen.symm.trans hclosed
  | unowned hne => exact read_of_not_holder (hs ▸ hopen) (hs ▸ hne) n
  | opening _ hheld _ => cases hidle.symm.trans hheld

section

variable {me : Thread} {s s' : Stack} {h : Header} {whole got more bs : Bytes} {n : Nat} {io : IoError}
  {rs : List (PacketRead × Except IoError Bytes)}

theorem read_ne_waiting (hr : Link.Reading me h whole got s.base) (hprompt : s.base.inbound.source.IsPrompt) (n : Nat) :
    ((InputView.mk me s).read n).1 ≠ .waiting := by
  have hattempted : Attempted me h whole got (.viewed n) s.base.inbound.source ((InputView.mk me s).read n).1
      ((InputView.mk me s).read n).2.stack.base := attempted_of_reading hr
  intro hwaits
  rw [hwaits] at hattempted
  cases hattempted with
  | answered hanswer _ => cases hanswer
  | waits _ _ _ hnot => exact hnot hprompt

/-- What a read through the view gives is no more than it asked for and no more than remains, and it is nothing only if
nothing was asked for or nothing remains. -/
theorem bytes_of_answers (hr : Link.Reading me h whole got s.base)
    (hanswers : (viewed n).Answers me s more (.ok bs) s') :
    bs.length ≤ min n (h.payloadLength - got.length) ∧ (0 < n → (bs = [] ↔ h.payloadLength - got.length = 0)) ∧
      (s'.call me .remaining).1 = .ok (.count (h.payloadLength - got.length - bs.length)) := by
  cases hanswers.answered (.begins hr) with
  | bytes hend hle hreading =>
      obtain ⟨hlength, -⟩ := hreading.remaining
      rw [List.length_append] at hlength
      simp only [size] at hend hle
      refine ⟨by omega, fun hn => ⟨fun hnil => ?_, fun hzero => ?_⟩, ?_⟩
      · have hall := (hend hnil).resolve_left (Nat.pos_iff_ne_zero.1 hn)
        omega
      · exact List.eq_nil_of_length_eq_zero (by omega)
      · rw [remaining_of_reading hreading, List.length_append, Nat.sub_sub]

theorem isOver_of_answers (hr : Link.Reading me h whole got s.base)
    (hanswers : (viewed n).Answers me s more (.error io) s') :
    io.kind ≠ .invalidInput ∧ s'.base.inbound.lock.holder ≠ some me ∧ IsOver me s'.base := by
  cases hanswers.answered (.begins hr) with
  | refused hq _ => cases hq
  | failed _ hkind _ hholder => exact ⟨hkind, hholder, isOver_of_not_holder hholder⟩

/-- The view is closed as the transaction is ended, and no byte behind the packet is taken with that. -/
theorem close_of_reading (hr : Link.Reading me h whole got s.base) :
    let closed := (InputView.mk me s).close
    closed = ((s.call me .endRead).1.map fun _ => (), ⟨me, (s.call me .endRead).2⟩) ∧
      (∃ k ≤ extendWord h.packetLength, closed.2.stack.base.inbound.source.data = whole.drop k) ∧
      (closed.1 = .ok () → closed.2.stack.base.inbound.source.data = whole.drop (extendWord h.packetLength)) := by
  intro closed
  have hcall := s.call_of_ne_close me (c := .endRead) (by simp)
  have hbase : closed.2.stack.base = (s.base.call me .endRead).2 := by
    show (s.call me .endRead).2.base = _
    rw [hcall, Stack.base_modifyBase]
  obtain ⟨hwithin, hdone⟩ := hr.endRead
  rw [hbase]
  refine ⟨rfl, hwithin, fun hok => ?_⟩
  have hanswer : (s.base.call me .endRead).1.map (fun _ => ()) = .ok () := by
    rw [← hok]
    show _ = (s.call me .endRead).1.map _
    rw [hcall]
  cases hend : (s.base.call me .endRead).1 with
  | ok reply => exact hdone reply hend
  | error e =>
      rw [hend] at hanswer
      cases hanswer
  | waiting =>
      rw [hend] at hanswer
      cases hanswer

/-- Reads that come to the end of the payload have given its rest, and left what follows the packet alone. -/
theorem gained_of_end (hr : Link.Reading me h whole got s.base) (hreads : Reads me s rs more s')
    (hend : ToldEnd rs ∨ (s'.call me .remaining).1 = .ok (.count 0)) :
    gained rs = (Cursor.payload h (whole ++ more)).drop got.length ∧
      (gained rs).length = h.payloadLength - got.length ∧ (s'.call me .remaining).1 = .ok (.count 0) := by
  obtain ⟨hreading, hlength⟩ := hreads.reading_of_end hr hend
  refine ⟨?_, ?_, ?_⟩
  · rw [← hreading.eq_payload hlength, List.drop_left]
  · rw [List.length_append] at hlength
    omega
  · rw [remaining_of_reading hreading, hlength, Nat.sub_self]

end

/-- The view reads exactly the packet. Let a thread have begun a transaction on a link in any layers, in any state, and
have made any reads since, through the view or of the link itself, while anything happened in between that left the link
open; and let so many bytes of the payload remain by what the link tells. What has been given so far is the beginning of
the payload, and the rest of it remains. A read through the view that asks for nothing, or finds nothing left, gives
nothing. Any other one gives some bytes, no more than it asked for and no more than remain, which then remain no longer;
or it fails, though never as a misuse does, and then the transaction is over. It waits only for a source that keeps it
waiting. Reads of whatever kind that go on to the end, as the view or the link tells it, have given just the rest of the
payload; the transaction is still open then, nothing behind the packet has been taken, and to close the view is to end
the transaction, which takes nothing behind the packet either. -/
theorem reads_packet (me : Thread) (k : Int32) (s s₀ : Stack)
    (hbegin : s.call me .beginRead = (.ok (.sequence k), s₀)) :
    ∃ h : Header, h.sequence = k ∧ s₀.base.inbound.input = .reading (.ofHeader h) ∧
      ∀ rs more s₁ left, Reads me s₀ rs more s₁ → (s₁.call me .remaining).1 = .ok (.count left) →
        gained rs <+: Cursor.payload h (s₀.base.inbound.source.data ++ more) ∧
        (gained rs).length + left = h.payloadLength ∧
        (s₁.base.inbound.source.IsPrompt → ∀ n, ((InputView.mk me s₁).read n).1 ≠ .waiting) ∧
        (∀ n, min n left = 0 → (InputView.mk me s₁).read n = (.ok [], ⟨me, s₁⟩)) ∧
        (∀ n new bs s₂, (viewed n).Answers me s₁ new (.ok bs) s₂ →
          bs.length ≤ min n left ∧ (0 < n → (bs = [] ↔ left = 0)) ∧
          (s₂.call me .remaining).1 = .ok (.count (left - bs.length))) ∧
        (∀ n new io s₂, (viewed n).Answers me s₁ new (.error io) s₂ →
          io.kind ≠ .invalidInput ∧ s₂.base.inbound.lock.holder ≠ some me ∧ IsOver me s₂.base) ∧
        ∀ rs' new s₂, Reads me s₁ rs' new s₂ → ToldEnd rs' ∨ (s₂.call me .remaining).1 = .ok (.count 0) →
          let whole := s₀.base.inbound.source.data ++ (more ++ new)
          let closed := (InputView.mk me s₂).close
          gained rs' = (Cursor.payload h whole).drop (gained rs).length ∧
          (gained rs').length = left ∧
          (s₂.call me .remaining).1 = .ok (.count 0) ∧
          (∃ j ≤ extendWord h.packetLength, s₂.base.inbound.source.data = whole.drop j) ∧
          closed = ((s₂.call me .endRead).1.map fun _ => (), ⟨me, (s₂.call me .endRead).2⟩) ∧
          (∃ j ≤ extendWord h.packetLength, closed.2.stack.base.inbound.source.data = whole.drop j) ∧
          (closed.1 = .ok () → closed.2.stack.base.inbound.source.data = whole.drop (extendWord h.packetLength)) := by
  have hcall : s.call me .beginRead = _ := s.call_of_ne_close me (by simp)
  rw [hbegin, Prod.mk.injEq] at hcall
  obtain ⟨hanswer, hs₀⟩ := hcall
  have hbase : s₀.base = (s.base.call me .beginRead).2 := by rw [hs₀, Stack.base_modifyBase]
  obtain ⟨h, hsequence, hinput, hstart⟩ := Link.reading_of_beginRead (Prod.ext hanswer.symm hbase.symm)
  refine ⟨h, hsequence, hinput, fun rs more s₁ left hreads hleft => ?_⟩
  obtain ⟨hr, hlength⟩ := hreads.reading_of_remaining hstart hleft
  rw [List.nil_append] at hr hlength
  obtain rfl : left = h.payloadLength - (gained rs).length := by omega
  refine ⟨hr.prefix_payload, hlength, fun hprompt => read_ne_waiting hr hprompt, fun n hzero => ?_,
    fun n new bs s₂ => bytes_of_answers hr, fun n new io s₂ => isOver_of_answers hr, fun rs' new s₂ hreads' hend => ?_⟩
  · rw [read_of_reading hr, if_pos hzero]
  · obtain ⟨hr', hlength'⟩ := hreads'.reading_of_end hr hend
    obtain ⟨hgained, hcount, hzero⟩ := gained_of_end hr hreads' hend
    rw [List.append_assoc] at hr' hgained
    exact ⟨hgained, hcount, hzero, hr'.data_eq_drop, close_of_reading hr'⟩

/-- The first bytes of a compressed packet are there, and the others arrive while a read waits for them. -/
theorem reads_packet_as_it_arrives :
    let src : Source := { items := [.data [0, 0, 0, 7, 0, 0, 0, 9, 0, 0, 0, 4, 1, 4, 0, 251, 255, 1]], live := true }
    let s : Stack := .link { inbound := { source := src }, outbound := {} }
    let s₀ := (s.call 3 .beginRead).2
    (s.call 3 .beginRead).1 = .ok (.sequence 7) ∧
      ∃ rs s₂, Reads 3 s₀ rs [1, 2, 3, 0x99] s₂ ∧
        rs = [(.viewed 3, .ok [1]), (.viewed 8, .ok [1, 2, 3]), (.viewed 8, .ok [])] ∧
        (s₂.call 3 .remaining).1 = .ok (.count 0) ∧
        ∃ h : Header, h.sequence = 7 ∧
          Cursor.payload h (s₀.base.inbound.source.data ++ [1, 2, 3, 0x99]) = [1, 1, 2, 3] := by
  intro src s s₀
  have hbegin : (s.call 3 .beginRead).1 = .ok (.sequence 7) := by decide +kernel
  obtain ⟨h, hsequence, -, hall⟩ := reads_packet 3 7 s s₀ (Prod.ext hbegin rfl)
  have hfull : (s₀.call 3 .remaining).1 = .ok (.count 4) := by decide +kernel
  let s₁ := ((viewed 3).attempt 3 s₀).2.stack
  let held := ((viewed 8).attempt 3 s₁).2.stack
  let arrived : Link :=
    { held.base with inbound := { held.base.inbound with source := { items := [.data [1, 2, 3, 0x99]] } } }
  let s₂ := ((viewed 8).attempt 3 (held.modifyBase fun _ => arrived)).2.stack
  have hfirst : ((viewed 3).attempt 3 s₀).1 = .ok [1] := by decide +kernel
  have hwaits : ((viewed 8).attempt 3 s₁).1 = .waiting := by decide +kernel
  have hdata : arrived.inbound.source.data = held.base.inbound.source.data ++ [1, 2, 3, 0x99] := by decide +kernel
  have hsecond : ((viewed 8).attempt 3 (held.modifyBase fun _ => arrived)).1 = .ok [1, 2, 3] := by decide +kernel
  have hthird : ((viewed 8).attempt 3 s₂).1 = .ok [] := by decide +kernel
  clear_value s₀
  obtain ⟨-, -, -, -, -, -, hend⟩ := hall [] [] s₀ 4 .start hfull
  have hmeanwhile : Link.Meanwhile 3 held.base [1, 2, 3, 0x99] arrived := .stirs .start (.source _) hdata
  have hreads : Reads 3 s₀ [(.viewed 3, .ok [1]), (.viewed 8, .ok [1, 2, 3]), (.viewed 8, .ok [])] [1, 2, 3, 0x99]
      ((viewed 8).attempt 3 s₂).2.stack :=
    ((Reads.start.read (.told (congrArg Attempt.result? hfirst))).read
      (.again hwaits hmeanwhile (.told (congrArg Attempt.result? hsecond)))).read
        (.told (congrArg Attempt.result? hthird))
  obtain ⟨hgained, -, hzero, -⟩ := hend _ _ _ hreads (.inl ⟨8, by decide, by simp⟩)
  have hnone : gained [] = [] := rfl
  rw [hnone, List.length_nil, List.drop_zero, List.nil_append] at hgained
  exact ⟨hbegin, _, _, hreads, rfl, hzero, h, hsequence, hgained.symm⟩

end InputView

end FrameLink
