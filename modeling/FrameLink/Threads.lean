import FrameLink.Attempt
import FrameLink.Stream

/-! Threads that share something: how they work on it side by side, what they ask of a link, and the locks that keep
them apart. A thread does its tasks one after the other: a task runs until it has a result or has to wait, and the
thread's later tasks wait behind it. Whenever something has happened, the tasks that wait are run again to see whether
they can go on, those that began first before the others. -/

namespace FrameLink

abbrev Thread := Nat

/-- How a task of a thread runs: to a result, if it need not wait, and to what is left of the task. -/
abbrev Work (ω τ ρ : Type) := Thread → τ → ω → Option ρ × τ × ω

/-- A task that has been given to a thread, and whether its result will still be asked for. -/
structure Job (τ ρ : Type) where
  thread : Thread
  task : τ
  result : Option ρ := none
  wanted : Bool := true

/-- Something shared, and the tasks given to threads that are unfinished or whose results will be asked
for. -/
structure Schedule (ω τ ρ : Type) where
  world : ω
  jobs : List (Job τ ρ) := []

namespace Schedule

variable {ω τ ρ : Type}

/-- Runs every unfinished task once, except those of threads that are busy with an earlier one. -/
def runJobs (work : Work ω τ ρ) : List Thread → List (Job τ ρ) → ω → List (Job τ ρ) × ω
  | _, [], w => ([], w)
  | busy, j :: js, w =>
    if j.result.isSome || busy.contains j.thread then
      match runJobs work busy js w with
      | (js', w') => (j :: js', w')
    else
      match work j.thread j.task w with
      | (r, t, w') =>
        match runJobs work (if r.isSome then busy else j.thread :: busy) js w' with
        | (js', w'') => ({ j with task := t, result := r } :: js', w'')

def runRounds (work : Work ω τ ρ) : Nat → Schedule ω τ ρ → Schedule ω τ ρ
  | 0, s => s
  | rounds + 1, s =>
    match runJobs work [] s.jobs s.world with
    | (jobs, w) => runRounds work rounds ⟨w, jobs⟩

/-- Forgets the tasks that are finished and whose results nobody will ask for. -/
def forget (s : Schedule ω τ ρ) : Schedule ω τ ρ :=
  { s with jobs := s.jobs.filter fun j => j.wanted || j.result.isNone }

/-- Lets the tasks that wait go on as far as they can. A task can be held up twice, by a lock and by a
stream, and each may depend on another task. -/
def settle (work : Work ω τ ρ) (s : Schedule ω τ ρ) : Schedule ω τ ρ :=
  (runRounds work (2 * s.jobs.length + 1) s).forget

def start (work : Work ω τ ρ) (me : Thread) (task : τ) (s : Schedule ω τ ρ) : Schedule ω τ ρ :=
  settle work { s with jobs := s.jobs ++ [{ thread := me, task := task }] }

def modify (work : Work ω τ ρ) (f : ω → ω) (s : Schedule ω τ ρ) : Schedule ω τ ρ :=
  settle work { s with world := f s.world }

/-- Takes the result of the first of the tasks for which a condition holds, if it has one. If it has none,
it will not be asked for again. -/
def takeFirst (p : Job τ ρ → Bool) : List (Job τ ρ) → Option ρ × List (Job τ ρ)
  | [] => (none, [])
  | j :: js =>
    if p j then
      match j.result with
      | some r => (some r, js)
      | none => (none, { j with wanted := false } :: js)
    else
      match takeFirst p js with
      | (r, js') => (r, j :: js')

/-- Takes the result of the first task of a thread whose result will be asked for. -/
def take (me : Thread) (s : Schedule ω τ ρ) : Option ρ × Schedule ω τ ρ :=
  match takeFirst (fun j => j.wanted && j.thread = me) s.jobs with
  | (r, jobs) => (r, { s with jobs := jobs })

/-- Takes the result of the task that was given last. -/
def takeNewest (s : Schedule ω τ ρ) : Option ρ × Schedule ω τ ρ :=
  match takeFirst (fun _ => true) s.jobs.reverse with
  | (r, jobs) => (r, { s with jobs := jobs.reverse })

/-- Gives a task to a thread and takes its result. A task that has to wait goes on, but its result will not
be asked for. -/
def perform (work : Work ω τ ρ) (me : Thread) (task : τ) (s : Schedule ω τ ρ) :
    Option ρ × Schedule ω τ ρ :=
  (s.start work me task).takeNewest

def isIdle (s : Schedule ω τ ρ) : Bool :=
  s.jobs.all fun j => !j.wanted

end Schedule

/-! The calls that threads make on a link, and what the link answers. -/

/-- A call on a link, in a transaction that reads or writes a packet or outside of one. -/
inductive Call where
  | beginRead
  | read (n : Nat)
  | remaining
  | endRead
  | beginWrite (sequence : Int32)
  | write (bytes : Bytes)
  | restartWrite
  | endWrite
  | cancelWrite
  | enableCompression
  | disableCompression
  | isCompressionEnabled
  | close
  | isClosed
  deriving DecidableEq

inductive Reply where
  | done
  | sequence (n : Int32)
  | bytes (bytes : Bytes)
  | count (n : Nat)
  | flag (b : Bool)
  deriving DecidableEq

/-! Locks that belong to threads. A transaction spans several calls, so its lock is held by the thread that
began it. Other threads queue up for it; the holder itself is refused. -/

/-- A lock: who holds it, and who waits for it in the order of arrival. -/
structure Lock where
  holder : Option Thread := none
  queue : List Thread := []
  deriving DecidableEq

namespace Lock

def isHeld (l : Lock) : Bool :=
  l.holder.isSome

def isHeldBy (l : Lock) (me : Thread) : Bool :=
  l.holder = some me

def isAwaitedBy (l : Lock) (me : Thread) : Bool :=
  l.queue.contains me

/-- Whether this thread may take the lock: nobody holds it, and a thread that has queued up has come to the
front. -/
def isFreeFor (l : Lock) (me : Thread) : Bool :=
  !l.isHeld && (!l.isAwaitedBy me || l.queue.head? = some me)

def enqueue (l : Lock) (me : Thread) : Lock :=
  if l.isAwaitedBy me then l else { l with queue := l.queue ++ [me] }

/-- Takes the lock for a thread, or queues the thread up for it. The holder is refused. -/
def acquire (l : Lock) (me : Thread) (operation : String) : Attempt LinkError Unit × Lock :=
  if l.isHeldBy me then (.error (.reentrancy operation), l)
  else if l.isFreeFor me then (.ok (), ⟨some me, l.queue.erase me⟩)
  else (.waiting, l.enqueue me)

/-- Gives the lock up if this thread holds it, and tells whether it did. -/
def release (l : Lock) (me : Thread) : Bool × Lock :=
  if l.isHeldBy me then (true, { l with holder := none }) else (false, l)

inductive Request where
  | acquire (operation : String)
  | release
  | isHeld

def serving : Work Lock Request (Except LinkError Reply) :=
  fun me request l =>
    match request with
    | .acquire operation =>
      match l.acquire me operation with
      | (r, l') => ((r.map fun _ => Reply.done).result?, request, l')
    | .release =>
      match l.release me with
      | (released, l') => (some (.ok (.flag released)), request, l')
    | .isHeld => (some (.ok (.flag (l.isHeldBy me))), request, l)

end Lock

end FrameLink
