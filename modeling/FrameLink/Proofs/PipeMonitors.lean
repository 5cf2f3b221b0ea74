import FrameLink.PipeEnds
import FrameLink.Threads
import Mathlib.Logic.Function.Basic

/-! A pipe from close by. Its buffer is kept under a mutex, and readers that find it empty and open sleep at a condition.
A write and a closing change the pipe in one section, and wake all sleepers only after they have let go of the mutex;
sleepers may wake up by themselves, and a reader that is awake again has to look whether the pipe is still empty. Here
threads move section by section, in any order. No byte is lost or overtaken, an end is told only where there is one, and
no reader is left asleep beside a pipe that has something to tell. -/

namespace FrameLink

/-- As a byte source, the end of a pipe that is read from gives what the pipe gives, and leaves what it leaves. -/
theorem Pipe.read_source {p : Pipe} {n : Nat} (hn : 0 < n) :
    (p.source.read n).1 = (p.read n).1 ∧ p.afterReading (p.source.read n).2 = (p.read n).2 := by
  obtain ⟨buffer, closed⟩ := p
  have hzero : n ≠ 0 := Nat.ne_of_gt hn
  cases buffer with
  | nil => cases closed <;> simp [Pipe.read, Source.read, Source.readItems, source, afterReading, Source.data, hzero]
  | cons b bs =>
      simp [Pipe.read, Source.read, Source.readItems, source, afterReading, Source.data, Source.Item.bytes, hzero]

namespace PipeMonitor

/-- What a thread asks of a pipe. Dropping an end of it and shutting it down are ways to close it. -/
inductive Request where
  | read (n : Nat)
  | write (bytes : Bytes)
  | close

/-- Where a thread stands with a pipe: in no call, asleep in a read of up to `n` bytes, awake again in one and yet to
look at the buffer, or in a call that has changed the pipe and is yet to wake the sleepers and to answer. -/
inductive Place where
  | outside
  | parked (n : Nat)
  | woken (n : Nat)
  | telling (reply : Reply)

/-- What a thread does with a pipe at one go. It makes a call and is through with its first section; awake again, it
looks at the buffer; it wakes up, though nobody has woken it; or at the end of a write or a closing it wakes all
sleepers. -/
inductive Move where
  | call (request : Request)
  | retry
  | stir
  | notify

structure Event where
  thread : Thread
  move : Move
  result : Attempt IoError Reply

end PipeMonitor

/-- A pipe whose threads are watched inside their calls. -/
structure PipeMonitor where
  pipe : Pipe := {}
  place : Thread → PipeMonitor.Place := fun _ => .outside

namespace PipeMonitor

def put (m : PipeMonitor) (me : Thread) (place : Place) : PipeMonitor :=
  { m with place := Function.update m.place me place }

/-- Everybody asleep is woken. -/
def wakeAll (m : PipeMonitor) : PipeMonitor :=
  { m with place := fun you => match m.place you with
      | .parked n => .woken n
      | place => place }

/-- The head of the loop that reads wait in. -/
def fetch (m : PipeMonitor) (me : Thread) (n : Nat) : Attempt IoError Reply × PipeMonitor :=
  match m.pipe.read n with
  | (.ok bs, p) => (.ok (.bytes bs), { m.put me .outside with pipe := p })
  | (.error e, p) => (.error e, { m.put me .outside with pipe := p })
  | (.waiting, p) => (.waiting, { m.put me (.parked n) with pipe := p })

/-- The first section of a call. -/
def enter (m : PipeMonitor) (me : Thread) : Request → Attempt IoError Reply × PipeMonitor
  | .read n => m.fetch me n
  | .write bs =>
    match m.pipe.write bs with
    | (.ok n, p) => (.waiting, { m.put me (.telling (.count n)) with pipe := p })
    | (.error e, p) => (.error e, { m with pipe := p })
  | .close => (.waiting, { m.put me (.telling .done) with pipe := m.pipe.close })

/-- What a move comes to, if the thread may make it where it stands. -/
def next (m : PipeMonitor) (me : Thread) (move : Move) : Option (Attempt IoError Reply × PipeMonitor) :=
  match move, m.place me with
  | .call request, .outside => some (m.enter me request)
  | .retry, .woken n => some (m.fetch me n)
  | .stir, .parked n => some (.waiting, m.put me (.woken n))
  | .notify, .telling reply => some (.ok reply, (m.put me .outside).wakeAll)
  | _, _ => none

def Step (m : PipeMonitor) (me : Thread) (move : Move) (r : Attempt IoError Reply) (m' : PipeMonitor) : Prop :=
  m.next me move = some (r, m')

/-- The moves of any number of threads in any order, and what they come to. -/
inductive Run : PipeMonitor → List Event → PipeMonitor → Prop where
  | done (m : PipeMonitor) : Run m [] m
  | move {m n m' : PipeMonitor} {me : Thread} {move : Move} {r : Attempt IoError Reply} {events : List Event}
      (hstep : m.Step me move r n) (h : Run n events m') : Run m (⟨me, move, r⟩ :: events) m'

/-- The bytes that a move gives to its thread, which is reading. -/
def Event.given : Event → Bytes
  | ⟨_, .call (.read _), .ok (.bytes bs)⟩ => bs
  | ⟨_, .retry, .ok (.bytes bs)⟩ => bs
  | _ => []

/-- The bytes that a move puts into the pipe: those of a write that is not refused. -/
def Event.letIn : Event → Bytes
  | ⟨_, .call (.write bs), .waiting⟩ => bs
  | _ => []

/-- Whether a thread looks for up to `n` bytes when it makes a move. -/
def Fetches (m : PipeMonitor) (me : Thread) (move : Move) (n : Nat) : Prop :=
  (move = .call (.read n) ∧ m.place me = .outside) ∨ (move = .retry ∧ m.place me = .woken n)

/-- Every way in which a move may end. -/
inductive Outcome (m : PipeMonitor) (me : Thread) : Move → Attempt IoError Reply → PipeMonitor → Prop where
  | given {move : Move} {n : Nat} (hfetches : m.Fetches me move n)
      (hready : n = 0 ∨ m.pipe.buffer ≠ [] ∨ m.pipe.closed = true) :
      Outcome m me move (.ok (.bytes (m.pipe.buffer.take n)))
        { m.put me .outside with pipe := { m.pipe with buffer := m.pipe.buffer.drop n } }
  | parked {move : Move} {n : Nat} (hfetches : m.Fetches me move n) (hn : 0 < n) (hempty : m.pipe.buffer = [])
      (hopen : m.pipe.closed = false) : Outcome m me move .waiting (m.put me (.parked n))
  | refused {bs : Bytes} (hplace : m.place me = .outside) (hclosed : m.pipe.closed = true) :
      Outcome m me (.call (.write bs)) (.error Pipe.closedError) m
  | letIn {bs : Bytes} (hplace : m.place me = .outside) (hopen : m.pipe.closed = false) :
      Outcome m me (.call (.write bs)) .waiting
        { m.put me (.telling (.count bs.length)) with pipe := { m.pipe with buffer := m.pipe.buffer ++ bs } }
  | shut (hplace : m.place me = .outside) :
      Outcome m me (.call .close) .waiting { m.put me (.telling .done) with pipe := m.pipe.close }
  | stirred {n : Nat} (hplace : m.place me = .parked n) : Outcome m me .stir .waiting (m.put me (.woken n))
  | told {reply : Reply} (hplace : m.place me = .telling reply) :
      Outcome m me .notify (.ok reply) (m.put me .outside).wakeAll

section

variable {m m' : PipeMonitor} {me you : Thread} {move : Move} {r : Attempt IoError Reply} {place : Place} {n : Nat}
  {reply : Reply}

theorem put_place_self : (m.put me place).place me = place :=
  Function.update_self _ _ _

theorem put_place_of_ne (hyou : you ≠ me) : (m.put me place).place you = m.place you :=
  Function.update_of_ne hyou _ _

theorem fetch_outcome (hfetches : m.Fetches me move n) : Outcome m me move (m.fetch me n).1 (m.fetch me n).2 := by
  by_cases hn : n = 0
  · subst hn
    have hread : m.pipe.read 0 = (.ok (m.pipe.buffer.take 0), { m.pipe with buffer := m.pipe.buffer.drop 0 }) := rfl
    rw [fetch, hread]
    exact .given hfetches (.inl rfl)
  by_cases hwait : m.pipe.buffer = [] ∧ m.pipe.closed = false
  · have hread : m.pipe.read n = (.waiting, m.pipe) := by
      rw [Pipe.read, if_neg hn, if_pos (by rw [hwait.1, hwait.2]; rfl)]
    rw [fetch, hread]
    exact .parked hfetches (Nat.pos_of_ne_zero hn) hwait.1 hwait.2
  · have hready : (m.pipe.buffer.isEmpty && !m.pipe.closed) ≠ true := by
      simpa [List.isEmpty_iff] using hwait
    have hread : m.pipe.read n = (.ok (m.pipe.buffer.take n), { m.pipe with buffer := m.pipe.buffer.drop n }) := by
      rw [Pipe.read, if_neg hn, if_neg hready]
    rw [fetch, hread]
    refine .given hfetches (.inr ?_)
    rw [← Bool.not_eq_false, ← Classical.not_and_iff_not_or_not]
    exact hwait

theorem enter_outcome (request : Request) (hplace : m.place me = .outside) :
    Outcome m me (.call request) (m.enter me request).1 (m.enter me request).2 := by
  cases request with
  | read n => exact fetch_outcome (.inl ⟨rfl, hplace⟩)
  | write bs =>
      cases hclosed : m.pipe.closed with
      | true =>
          have hwrite : m.pipe.write bs = (.error Pipe.closedError, m.pipe) := if_pos hclosed
          rw [enter, hwrite]
          exact .refused hplace hclosed
      | false =>
          have hwrite : m.pipe.write bs = (.ok bs.length, { m.pipe with buffer := m.pipe.buffer ++ bs }) :=
            if_neg (by rw [hclosed]; exact Bool.false_ne_true)
          rw [enter, hwrite]
          exact .letIn hplace hclosed
  | close => exact .shut hplace

theorem Step.outcome (hstep : m.Step me move r m') : Outcome m me move r m' := by
  unfold Step next at hstep
  split at hstep
  · rename_i request hplace
    obtain ⟨rfl, rfl⟩ := Prod.mk.inj (Option.some.inj hstep)
    exact enter_outcome request hplace
  · rename_i n hplace
    obtain ⟨rfl, rfl⟩ := Prod.mk.inj (Option.some.inj hstep)
    exact fetch_outcome (.inr ⟨rfl, hplace⟩)
  · rename_i n hplace
    obtain ⟨rfl, rfl⟩ := Prod.mk.inj (Option.some.inj hstep)
    exact .stirred hplace
  · rename_i reply hplace
    obtain ⟨rfl, rfl⟩ := Prod.mk.inj (Option.some.inj hstep)
    exact .told hplace
  · cases hstep

/-- If a reader sleeps beside a pipe that has something to tell, whoever has changed the pipe is yet to wake it. -/
def IsWakeful (m : PipeMonitor) : Prop :=
  ∀ me n, m.place me = .parked n →
    0 < n ∧ ((m.pipe.buffer = [] ∧ m.pipe.closed = false) ∨ ∃ you reply, m.place you = .telling reply)

theorem Fetches.not_write {bs : Bytes} : ¬ m.Fetches me (.call (.write bs)) n := by
  rintro (⟨hmove, -⟩ | ⟨hmove, -⟩) <;> cases hmove

theorem Fetches.not_close : ¬ m.Fetches me (.call .close) n := by
  rintro (⟨hmove, -⟩ | ⟨hmove, -⟩) <;> cases hmove

theorem Fetches.not_telling (hfetches : m.Fetches me move n) : m.place me ≠ .telling reply := by
  rcases hfetches with ⟨-, hplace⟩ | ⟨-, hplace⟩ <;> exact hplace ▸ nofun

/-- What a thread does that is about to wake nobody keeps others asleep, with somebody to wake them, or puts it to sleep
beside an empty pipe. -/
theorem IsWakeful.put (h : m.IsWakeful) {p : Pipe} (hme : ∀ reply, m.place me ≠ .telling reply)
    (hplace : ∀ n, place = .parked n → 0 < n ∧ p.buffer = [] ∧ p.closed = false)
    (hpipe : m.pipe.buffer = [] → m.pipe.closed = false → p.buffer = [] ∧ p.closed = false) :
    IsWakeful { m.put me place with pipe := p } := by
  intro you n hyou
  by_cases hsame : you = me
  · subst hsame
    obtain ⟨hn, hempty⟩ := hplace n (put_place_self.symm.trans hyou)
    exact ⟨hn, .inl hempty⟩
  · obtain ⟨hn, ⟨hempty, hopen⟩ | ⟨other, reply, hother⟩⟩ := h you n ((put_place_of_ne hsame).symm.trans hyou)
    · exact ⟨hn, .inl (hpipe hempty hopen)⟩
    · have hne : other ≠ me := fun heq => hme reply (heq ▸ hother)
      exact ⟨hn, .inr ⟨other, reply, (put_place_of_ne hne).trans hother⟩⟩

/-- A thread that has changed the pipe is about to wake all sleepers, whatever it has done. -/
theorem IsWakeful.put_telling (h : m.IsWakeful) (hme : ∀ n, m.place me ≠ .parked n) (p : Pipe) :
    IsWakeful { m.put me (.telling reply) with pipe := p } := by
  intro you n hyou
  have hne : you ≠ me := by
    rintro rfl
    cases put_place_self.symm.trans hyou
  exact ⟨(h you n ((put_place_of_ne hne).symm.trans hyou)).1, .inr ⟨me, reply, put_place_self⟩⟩

theorem wakeAll_place_of_parked (hyou : m.place you = .parked n) : m.wakeAll.place you = .woken n := by
  simp only [wakeAll, hyou]

theorem wakeAll_not_parked : m.wakeAll.place you ≠ .parked n := by
  intro hparked
  cases hplace : m.place you with
  | parked k => cases (wakeAll_place_of_parked hplace).symm.trans hparked
  | outside => simp only [wakeAll, hplace, reduceCtorEq] at hparked
  | woken k => simp only [wakeAll, hplace, reduceCtorEq] at hparked
  | telling reply => simp only [wakeAll, hplace, reduceCtorEq] at hparked

theorem wakeAll_place_telling : m.wakeAll.place you = .telling reply ↔ m.place you = .telling reply := by
  cases hplace : m.place you <;> simp [wakeAll, hplace]

theorem IsWakeful.step (h : m.IsWakeful) (hstep : m.Step me move r m') : m'.IsWakeful := by
  cases hstep.outcome with
  | given hfetches hready =>
      refine h.put (fun _ => hfetches.not_telling) nofun fun hempty hopen => ⟨?_, hopen⟩
      rw [hempty, List.drop_nil]
  | parked hfetches hn hempty hopen =>
      refine h.put (fun _ => hfetches.not_telling) (fun k hk => ?_) fun hempty hopen => ⟨hempty, hopen⟩
      cases hk
      exact ⟨hn, hempty, hopen⟩
  | refused => exact h
  | letIn hplace => exact h.put_telling (fun _ => hplace ▸ nofun) _
  | shut hplace => exact h.put_telling (fun _ => hplace ▸ nofun) _
  | stirred hplace =>
      exact h.put (fun _ => hplace ▸ nofun) nofun fun hempty hopen => ⟨hempty, hopen⟩
  | told => exact fun _ _ hparked => absurd hparked wakeAll_not_parked

theorem IsWakeful.run (h : m.IsWakeful) {events : List Event} (hrun : Run m events m') : m'.IsWakeful := by
  induction hrun with
  | done => exact h
  | move hstep _ ih => exact ih (h.step hstep)

/-- What a move gives to its thread leaves the front of the buffer, and what it lets in goes to its end. -/
theorem Step.balance (hstep : m.Step me move r m') :
    m.pipe.buffer ++ Event.letIn ⟨me, move, r⟩ = Event.given ⟨me, move, r⟩ ++ m'.pipe.buffer := by
  cases hstep.outcome with
  | given hfetches _ =>
      rcases hfetches with ⟨rfl, -⟩ | ⟨rfl, -⟩ <;>
        exact (List.append_nil _).trans (List.take_append_drop _ _).symm
  | parked hfetches _ _ _ =>
      rcases hfetches with ⟨rfl, -⟩ | ⟨rfl, -⟩ <;> exact List.append_nil _
  | refused => exact List.append_nil _
  | letIn => rfl
  | shut => exact List.append_nil _
  | stirred => exact List.append_nil _
  | told => exact List.append_nil _

theorem Run.balance {events : List Event} (hrun : Run m events m') :
    m.pipe.buffer ++ events.flatMap Event.letIn = events.flatMap Event.given ++ m'.pipe.buffer := by
  induction hrun with
  | done => exact List.append_nil _
  | move hstep _ ih =>
      rw [List.flatMap_cons, List.flatMap_cons, ← List.append_assoc, hstep.balance, List.append_assoc, ih,
        List.append_assoc]

theorem Step.closed (hstep : m.Step me move r m') (hclosed : m.pipe.closed = true) : m'.pipe.closed = true := by
  cases hstep.outcome with
  | given => exact hclosed
  | parked => exact hclosed
  | refused => exact hclosed
  | letIn => exact hclosed
  | shut => rfl
  | stirred => exact hclosed
  | told => exact hclosed

theorem Run.closed {events : List Event} (hrun : Run m events m') (hclosed : m.pipe.closed = true) :
    m'.pipe.closed = true := by
  induction hrun with
  | done => exact hclosed
  | move hstep _ ih => exact ih (hstep.closed hclosed)

/-- A thread that is about to answer does so with its next move, and nobody else's move changes that. -/
theorem Step.telling (hstep : m.Step me move r m') (hyou : m.place you = .telling reply) :
    (me ≠ you ∧ m'.place you = .telling reply) ∨ (me = you ∧ move = .notify ∧ r = .ok reply) := by
  have hother {place : Place} (hme : m.place me ≠ .telling reply) :
      me ≠ you ∧ (m.put me place).place you = .telling reply := by
    have hne : you ≠ me := fun heq => hme (heq ▸ hyou)
    exact ⟨hne.symm, (put_place_of_ne hne).trans hyou⟩
  cases hstep.outcome with
  | given hfetches => exact .inl (hother hfetches.not_telling)
  | parked hfetches => exact .inl (hother hfetches.not_telling)
  | refused hplace => exact .inl ⟨fun heq => (by cases (heq ▸ hplace).symm.trans hyou), hyou⟩
  | letIn hplace => exact .inl (hother (hplace ▸ nofun))
  | shut hplace => exact .inl (hother (hplace ▸ nofun))
  | stirred hplace => exact .inl (hother (hplace ▸ nofun))
  | told hplace =>
      by_cases hsame : me = you
      · subst hsame
        cases hplace.symm.trans hyou
        exact .inr ⟨rfl, rfl, rfl⟩
      · exact .inl ⟨hsame, wakeAll_place_telling.2 ((put_place_of_ne (Ne.symm hsame)).trans hyou)⟩

theorem Run.telling {events : List Event} (hrun : Run m events m') (hme : m.place me = .telling reply) :
    ((∀ e ∈ events, e.thread ≠ me) ∧ m'.place me = .telling reply) ∨
      ∃ mid rest, events = mid ++ ⟨me, .notify, .ok reply⟩ :: rest ∧ ∀ e ∈ mid, e.thread ≠ me := by
  induction hrun with
  | done => exact .inl ⟨List.forall_mem_nil _, hme⟩
  | @move _ _ _ you move r events hstep _ ih =>
      rcases hstep.telling hme with ⟨hne, hstill⟩ | ⟨rfl, rfl, rfl⟩
      · rcases ih hstill with ⟨hothers, hend⟩ | ⟨mid, rest, rfl, hmid⟩
        · exact .inl ⟨List.forall_mem_cons.2 ⟨hne, hothers⟩, hend⟩
        · exact .inr ⟨_ :: mid, rest, rfl, List.forall_mem_cons.2 ⟨hne, hmid⟩⟩
      · exact .inr ⟨[], events, rfl, List.forall_mem_nil _⟩

theorem Run.split {before after : List Event} (hrun : Run m (before ++ after) m') :
    ∃ n, Run m before n ∧ Run n after m' := by
  induction before generalizing m with
  | nil => exact ⟨m, .done m, hrun⟩
  | cons e before ih =>
      cases hrun with
      | move hstep hrun =>
          obtain ⟨n, hbefore, hafter⟩ := ih hrun
          exact ⟨n, .move hstep hbefore, hafter⟩

end

/-- What a read of up to `n` bytes may answer, and what it may leave of the pipe. It takes as much as there is from the
front of the buffer, tells of the end exactly when the pipe is closed and drained, and waits exactly when the pipe is
open and empty. -/
structure Reads (p : Pipe) (n : Nat) (r : Attempt IoError Reply) (p' : Pipe) : Prop where
  waits : r = .waiting ↔ 0 < n ∧ p.buffer = [] ∧ p.closed = false
  kept : r = .waiting → p' = p
  given : r ≠ .waiting → ∃ bs, r = .ok (.bytes bs) ∧ bs.length = min n p.buffer.length ∧
    p' = { p with buffer := p'.buffer } ∧ p.buffer = bs ++ p'.buffer
  ended : 0 < n → (r = .ok (.bytes []) ↔ p.buffer = [] ∧ p.closed = true)

/-- What a write may come to: all of the bytes go to the end of the buffer, or, if the pipe is closed, none. -/
structure Writes (m : PipeMonitor) (me : Thread) (bs : Bytes) (r : Attempt IoError Reply) (m' : PipeMonitor) : Prop where
  letIn : m.pipe.closed = false → r = .waiting ∧ m'.place me = .telling (.count bs.length) ∧
    m'.pipe = { m.pipe with buffer := m.pipe.buffer ++ bs }
  refused : m.pipe.closed = true → r = .error Pipe.closedError ∧ m' = m

section

variable {m m' : PipeMonitor} {me : Thread} {move : Move} {r : Attempt IoError Reply} {n : Nat} {bs : Bytes}

theorem Fetches.unique {k : Nat} (h : m.Fetches me move n) (hk : m.Fetches me move k) : k = n := by
  rcases h with ⟨rfl, -⟩ | ⟨rfl, hplace⟩
  · rcases hk with ⟨hmove, -⟩ | ⟨hmove, -⟩ <;> cases hmove
    rfl
  · rcases hk with ⟨hmove, -⟩ | ⟨-, hk⟩
    · cases hmove
    · cases hplace.symm.trans hk
      rfl

theorem Step.reads (hstep : m.Step me move r m') (hfetches : m.Fetches me move n) : Reads m.pipe n r m'.pipe := by
  cases hstep.outcome with
  | given hk hready =>
      cases hfetches.unique hk
      refine ⟨iff_of_false nofun fun ⟨hn, hempty, hopen⟩ => ?_, nofun, fun _ => ⟨_, rfl, List.length_take, rfl, ?_⟩,
        fun hn => ?_⟩
      · rcases hready with rfl | hbuffer | hclosed
        · exact absurd hn (Nat.lt_irrefl 0)
        · exact hbuffer hempty
        · cases hclosed.symm.trans hopen
      · exact (List.take_append_drop _ _).symm
      · simp only [Attempt.ok.injEq, Reply.bytes.injEq, List.take_eq_nil_iff, Nat.ne_of_gt hn, false_or]
        refine ⟨fun hempty => ⟨hempty, ?_⟩, fun h => h.1⟩
        rcases hready with rfl | hbuffer | hclosed
        · exact absurd hn (Nat.lt_irrefl 0)
        · exact absurd hempty hbuffer
        · exact hclosed
  | parked hk hn hempty hopen =>
      cases hfetches.unique hk
      refine ⟨iff_of_true rfl ⟨hn, hempty, hopen⟩, fun _ => rfl, fun h => absurd rfl h, fun _ => ?_⟩
      refine iff_of_false nofun fun ⟨_, hclosed⟩ => ?_
      cases hclosed.symm.trans hopen
  | refused => exact absurd hfetches Fetches.not_write
  | letIn => exact absurd hfetches Fetches.not_write
  | shut => exact absurd hfetches Fetches.not_close
  | stirred => rcases hfetches with ⟨hmove, -⟩ | ⟨hmove, -⟩ <;> cases hmove
  | told => rcases hfetches with ⟨hmove, -⟩ | ⟨hmove, -⟩ <;> cases hmove

theorem Step.writes (hstep : m.Step me (.call (.write bs)) r m') : Writes m me bs r m' := by
  cases hstep.outcome with
  | given hfetches => exact absurd hfetches Fetches.not_write
  | parked hfetches => exact absurd hfetches Fetches.not_write
  | refused _ hclosed => exact ⟨fun hopen => (by cases hclosed.symm.trans hopen), fun _ => ⟨rfl, rfl⟩⟩
  | letIn _ hopen => exact ⟨fun _ => ⟨rfl, put_place_self, rfl⟩, fun hclosed => (by cases hclosed.symm.trans hopen)⟩

theorem Step.closes (hstep : m.Step me (.call .close) r m') :
    r = .waiting ∧ m'.pipe = m.pipe.close ∧ m'.place me = .telling .done := by
  cases hstep.outcome with
  | given hfetches => exact absurd hfetches Fetches.not_close
  | parked hfetches => exact absurd hfetches Fetches.not_close
  | shut => exact ⟨rfl, rfl, put_place_self⟩

/-- Whoever is about to answer can do so at once, and then nobody is asleep. -/
theorem notify_step {reply : Reply} (hme : m.place me = .telling reply) :
    ∃ m', m.Step me .notify (.ok reply) m' ∧ m'.pipe = m.pipe ∧ (∀ you k, m'.place you ≠ .parked k) ∧
      ∀ you k, m.place you = .parked k → m'.place you = .woken k := by
  refine ⟨(m.put me .outside).wakeAll, ?_, rfl, fun _ _ => wakeAll_not_parked, fun you k hyou => ?_⟩
  · simp only [Step, next, hme]
  · have hne : you ≠ me := by
      rintro rfl
      cases hme.symm.trans hyou
    exact wakeAll_place_of_parked ((put_place_of_ne hne).trans hyou)

end

theorem isWakeful_new : IsWakeful {} :=
  nofun

/-- Threads read from a pipe, write to it and close it, section by section in any order.

What has been given to readers, followed by what is still in the pipe, is what has been let in, in that order. A write is
let in with all of its bytes unless the pipe is closed, when it is refused and changes nothing; and once let in its
thread's next move, which nothing keeps it from, answers with the number of bytes. A closed pipe stays closed. A reader
that finds bytes gets as many as there are up to those that it asks for; it is told of the end exactly when the pipe is
closed and drained, and falls asleep exactly when the pipe is open and empty; a read of nothing does not. If a reader is
asleep beside a pipe that is neither, whoever has changed the pipe is about to answer, and that wakes everybody. -/
theorem lossless_and_wakeful {events : List Event} {m : PipeMonitor} (h : Run {} events m) :
    events.flatMap Event.given ++ m.pipe.buffer = events.flatMap Event.letIn ∧
    (∀ before me bs after, events = before ++ ⟨me, .call (.write bs), .waiting⟩ :: after →
      ((∀ e ∈ after, e.thread ≠ me) ∧ m.place me = .telling (.count bs.length)) ∨
        ∃ mid rest, after = mid ++ ⟨me, .notify, .ok (.count bs.length)⟩ :: rest ∧ ∀ e ∈ mid, e.thread ≠ me) ∧
    (∀ me bs r m', m.Step me (.call (.write bs)) r m' → Writes m me bs r m') ∧
    (∀ me r m', m.Step me (.call .close) r m' →
      r = .waiting ∧ m'.pipe = m.pipe.close ∧ m'.place me = .telling .done) ∧
    (∀ later m', Run m later m' → m.pipe.closed = true → m'.pipe.closed = true) ∧
    (∀ me move n r m', m.Fetches me move n → m.Step me move r m' → Reads m.pipe n r m'.pipe) ∧
    (∀ me n, m.place me = .parked n →
      0 < n ∧ ((m.pipe.buffer = [] ∧ m.pipe.closed = false) ∨ ∃ you reply, m.place you = .telling reply)) ∧
    (∀ me reply, m.place me = .telling reply → ∃ m', m.Step me .notify (.ok reply) m' ∧ m'.pipe = m.pipe ∧
      (∀ you n, m'.place you ≠ .parked n) ∧ ∀ you n, m.place you = .parked n → m'.place you = .woken n) := by
  refine ⟨h.balance.symm, ?_, fun _ _ _ _ => Step.writes, fun _ _ _ => Step.closes, fun _ _ => Run.closed,
    fun _ _ _ _ _ hfetches hstep => hstep.reads hfetches, isWakeful_new.run h, fun _ _ => notify_step⟩
  rintro before me bs after rfl
  obtain ⟨n, -, hrest⟩ := h.split
  cases hrest with
  | move hstep hafter =>
      refine hafter.telling ?_
      cases hstep.outcome with
      | letIn => exact put_place_self
      | parked hfetches => exact absurd hfetches Fetches.not_write

/-- Thread 2 is quicker than the reader whom thread 1 has yet to wake. That reader gets the rest, and has fallen asleep
again when thread 3 closes the pipe. -/
def outrun : List Event :=
  [⟨0, .call (.read 2), .waiting⟩, ⟨1, .call (.write [1, 2, 3]), .waiting⟩, ⟨2, .call (.read 2), .ok (.bytes [1, 2])⟩,
    ⟨1, .notify, .ok (.count 3)⟩, ⟨0, .retry, .ok (.bytes [3])⟩, ⟨0, .call (.read 1), .waiting⟩,
    ⟨3, .call .close, .waiting⟩, ⟨4, .call (.write [4]), .error Pipe.closedError⟩]

theorem lossless_and_wakeful_outrun :
    ∃ m, Run {} outrun m ∧ outrun.flatMap Event.given ++ m.pipe.buffer = [1, 2, 3] ∧ m.place 0 = .parked 1 ∧
      m.pipe.closed = true ∧ ∃ you reply, m.place you = .telling reply := by
  have hrun : Run {} outrun _ :=
    .move rfl <| .move rfl <| .move rfl <| .move rfl <| .move rfl <| .move rfl <| .move rfl <| .move rfl <| .done _
  obtain ⟨hgiven, -, -, -, -, -, hparked, -⟩ := lossless_and_wakeful hrun
  refine ⟨_, hrun, hgiven, rfl, rfl, (hparked 0 1 rfl).2.resolve_left ?_⟩
  exact fun hopen => by cases hopen.2

end PipeMonitor

end FrameLink
