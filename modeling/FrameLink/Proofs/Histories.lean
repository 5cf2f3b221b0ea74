import FrameLink.Attempt
import FrameLink.Threads
import Mathlib.Logic.Function.Basic

/-! Interleavings of calls. Threads take turns on something that they share. A call that has to wait holds its
thread up: whatever the thread is asked for, it goes on with that call until it is answered. Any thread may get
the next turn; and of the threads that queue up for a lock any may be favoured, so nothing depends on the order
in which locks are given away. What has been answered makes up the history. -/

namespace FrameLink

/-- Something shared that threads make calls on, and that can bring a thread to the front wherever it queues up. -/
structure Arena (ω κ ρ : Type) where
  call : Thread → κ → ω → Attempt LinkError ρ × ω
  favour : Thread → ω → ω

/-- What happens next: a thread makes a call, or goes on with the one that holds it up, or it comes to the front of
the queues that it stands in. -/
inductive Turn (κ : Type) where
  | call (thread : Thread) (call : κ)
  | favour (thread : Thread)

/-- A call that has been answered. -/
structure Event (κ ρ : Type) where
  thread : Thread
  call : κ
  answer : Except LinkError ρ

/-- What is shared, the calls that hold threads up, and what has been answered so far. -/
structure Play (ω κ ρ : Type) where
  world : ω
  held : Thread → Option κ := fun _ => none
  history : List (Event κ ρ) := []

namespace Play

variable {ω κ ρ : Type}

/-- What an attempt of a thread at a call adds to a history, which is nothing while it waits. -/
def told (me : Thread) (c : κ) (r : Attempt LinkError ρ) : List (Event κ ρ) :=
  (r.result?.map fun answer => ⟨me, c, answer⟩).toList

/-- The play after an attempt of a thread at a call, which has left the world so. -/
def after (p : Play ω κ ρ) (me : Thread) (c : κ) (r : Attempt LinkError ρ) (w : ω) : Play ω κ ρ :=
  match r.result? with
  | none => { p with world := w, held := Function.update p.held me (some c) }
  | some answer =>
    { world := w, held := Function.update p.held me none, history := p.history ++ [⟨me, c, answer⟩] }

section

variable {p : Play ω κ ρ} {me you : Thread} {c c' : κ} {r : Attempt LinkError ρ} {w : ω}

@[simp] theorem after_world : (p.after me c r w).world = w := by
  unfold after
  split <;> rfl

theorem after_held_of_ne (h : you ≠ me) : (p.after me c r w).held you = p.held you := by
  unfold after
  split <;> exact Function.update_of_ne h _ _

theorem after_held_self :
    (p.after me c r w).held me = match r with
      | .waiting => some c
      | _ => none := by
  cases r <;> exact Function.update_self _ _ _

theorem held_after {C : κ → Prop} (hheld : ∀ me c, p.held me = some c → C c) (hc : C c)
    (h : (p.after me c r w).held you = some c') : C c' := by
  by_cases hsame : you = me
  · subst hsame
    rw [after_held_self] at h
    split at h
    · exact Option.some.inj h ▸ hc
    · cases h
  · exact hheld you c' ((after_held_of_ne hsame).symm.trans h)

theorem after_history : (p.after me c r w).history = p.history ++ told me c r := by
  rw [after, told]
  cases r.result? with
  | none => exact (List.append_nil _).symm
  | some answer => rfl

end

def step (a : Arena ω κ ρ) (p : Play ω κ ρ) : Turn κ → Play ω κ ρ
  | .favour me => { p with world := a.favour me p.world }
  | .call me c =>
    let c := (p.held me).getD c
    match a.call me c p.world with
    | (r, w) => p.after me c r w

/-- Any number of turns, one after the other. -/
def run (a : Arena ω κ ρ) (w : ω) (turns : List (Turn κ)) : Play ω κ ρ :=
  turns.foldl (step a) { world := w }

/-- What holds in a play and is kept by every attempt at a call and by every favour holds after any number of further
turns. Only such calls are made, and hold threads up at first, that `C` holds for; and a thread that is held up makes no
other call. -/
theorem steps_induction {a : Arena ω κ ρ} {I : Play ω κ ρ → Prop} {C : κ → Prop} {turns : List (Turn κ)} {p : Play ω κ ρ}
    (hinit : I p) (hheld : ∀ me c, p.held me = some c → C c)
    (hcall : ∀ (p : Play ω κ ρ) me c, I p → C c → (∀ c', p.held me = some c' → c' = c) →
      I (p.after me c (a.call me c p.world).1 (a.call me c p.world).2))
    (hfavour : ∀ (p : Play ω κ ρ) me, I p → I { p with world := a.favour me p.world })
    (hturns : ∀ me c, .call me c ∈ turns → C c) : I (turns.foldl (step a) p) := by
  -- A turn of a thread that is held up goes on with its old call, so `C` has to be known of the calls held up as well.
  induction turns generalizing p with
  | nil => exact hinit
  | cons t turns ih =>
      have hrest : ∀ me c, .call me c ∈ turns → C c := fun me c hc => hturns me c (List.mem_cons_of_mem _ hc)
      cases t with
      | favour me => exact ih (hfavour p me hinit) hheld hrest
      | call me c =>
          have hC : C ((p.held me).getD c) := by
            cases hme : p.held me with
            | none => exact hturns me c List.mem_cons_self
            | some c' => exact hheld me c' hme
          refine ih (hcall p me _ hinit hC fun c' hme => ?_) (fun you c' hyou => held_after hheld hC hyou) hrest
          rw [hme, Option.getD_some]

/-- What holds at first and is kept holds after any number of turns. -/
theorem run_induction {a : Arena ω κ ρ} {I : Play ω κ ρ → Prop} {C : κ → Prop} {w : ω} {turns : List (Turn κ)}
    (hinit : I { world := w })
    (hcall : ∀ (p : Play ω κ ρ) me c, I p → C c → (∀ c', p.held me = some c' → c' = c) →
      I (p.after me c (a.call me c p.world).1 (a.call me c p.world).2))
    (hfavour : ∀ (p : Play ω κ ρ) me, I p → I { p with world := a.favour me p.world })
    (hturns : ∀ me c, .call me c ∈ turns → C c) : I (run a w turns) :=
  steps_induction hinit (fun _ _ hheld => nomatch hheld) hcall hfavour hturns

/-- Only calls that are made hold threads up. -/
theorem held_run {a : Arena ω κ ρ} {C : κ → Prop} {w : ω} {turns : List (Turn κ)}
    (hturns : ∀ me c, .call me c ∈ turns → C c) : ∀ me c, (run a w turns).held me = some c → C c :=
  run_induction (I := fun p => ∀ me c, p.held me = some c → C c) (fun _ _ hheld => nomatch hheld)
    (fun _ _ _ hp hc _ _ _ hyou => held_after hp hc hyou) (fun _ _ hp => hp) hturns

theorem run_append (a : Arena ω κ ρ) (w : ω) (before after : List (Turn κ)) :
    run a w (before ++ after) = after.foldl (step a) (run a w before) :=
  List.foldl_append

end Play

/-! What a history tells of the transactions on a link. Only calls and answers count here: a transaction belongs
to the thread whose call to begin it was answered with success, its packet is what this thread has read or written
since, and it lasts until the same thread's call ends it. Nothing is assumed about the link behind the answers. -/

/-- The calls by which a thread reads a packet. -/
def Call.reads : Call → Bool
  | .beginRead | .read _ | .endRead => true
  | _ => false

/-- The calls by which a thread writes a packet. -/
def Call.writes : Call → Bool
  | .beginWrite _ | .write _ | .restartWrite | .cancelWrite | .endWrite => true
  | _ => false

/-- A packet as far as it has been read: its number, and what the reads have answered, put together. -/
structure Delivery where
  sequence : Int32
  bytes : Bytes := []
  deriving DecidableEq

/-- What has been told of the reading side: the packets whose transactions are over, in the order in which those
began, and the open transaction with its owner. -/
structure Readings where
  finished : List Delivery := []
  current : Option (Thread × Delivery) := none

namespace Readings

/-- All packets that have been begun to be read, in order. -/
def begun (s : Readings) : List Delivery :=
  s.finished ++ (s.current.map Prod.snd).toList

/-- The readings once the open transaction is over. -/
def close (s : Readings) : Readings :=
  ⟨s.begun, none⟩

/-- What an answer to a call of a thread tells. A read that fails ends the transaction unless it has been refused
for asking too much. -/
def note (s : Readings) (me : Thread) (c : Call) (answer : Except LinkError Reply) : Readings :=
  match c, answer, s.current with
  | .beginRead, .ok (.sequence n), _ => ⟨s.begun, some (me, ⟨n, []⟩)⟩
  | .read _, .ok (.bytes bs), some (owner, d) =>
    if owner = me then { s with current := some (me, { d with bytes := d.bytes ++ bs }) } else s
  | .read _, .error e, some (owner, _) => if owner = me ∧ e.isOverread = false then s.close else s
  | .endRead, _, some (owner, _) => if owner = me then s.close else s
  | _, _, _ => s

/-- What an attempt at a call tells, which is nothing while it waits. -/
def noteAttempt (s : Readings) (me : Thread) (c : Call) (r : Attempt LinkError Reply) : Readings :=
  match r.result? with
  | none => s
  | some answer => s.note me c answer

/-- What a whole history tells. -/
def ofHistory (h : List (Event Call Reply)) : Readings :=
  h.foldl (fun s e => s.note e.thread e.call e.answer) {}

theorem ofHistory_told (h : List (Event Call Reply)) (me : Thread) (c : Call) (r : Attempt LinkError Reply) :
    ofHistory (h ++ Play.told me c r) = (ofHistory h).noteAttempt me c r := by
  rw [ofHistory, List.foldl_append, Play.told, noteAttempt]
  cases r.result? <;> rfl

theorem noteAttempt_of_not_reads {c : Call} (hc : c.reads = false) (s : Readings) (me : Thread)
    (r : Attempt LinkError Reply) : s.noteAttempt me c r = s := by
  unfold noteAttempt note
  cases c with
  | beginRead => cases hc
  | read n => cases hc
  | endRead => cases hc
  | _ => split <;> rfl

end Readings

structure Message where
  sequence : Int32
  payload : Bytes := []
  deriving DecidableEq

/-- What has been told of the writing side: the packets sent, in the order in which their transactions ended, and the
open transaction with its owner. -/
structure Writings where
  sent : List Message := []
  current : Option (Thread × Message) := none

namespace Writings

/-- What an answer to a call of a thread tells. A transaction that ends with an empty payload sends nothing. -/
def note (s : Writings) (me : Thread) (c : Call) (answer : Except LinkError Reply) : Writings :=
  match c, answer, s.current with
  | .beginWrite n, .ok _, _ => { s with current := some (me, ⟨n, []⟩) }
  | .write bs, .ok _, some (owner, m) =>
    if owner = me then { s with current := some (me, { m with payload := m.payload ++ bs }) } else s
  | .restartWrite, .ok _, some (owner, m) =>
    if owner = me then { s with current := some (me, { m with payload := [] }) } else s
  | .cancelWrite, .ok _, some (owner, _) => if owner = me then { s with current := none } else s
  | .endWrite, .ok _, some (owner, m) =>
    if owner = me then ⟨if m.payload = [] then s.sent else s.sent ++ [m], none⟩ else s
  | .endWrite, .error _, some (owner, _) => if owner = me then { s with current := none } else s
  | _, _, _ => s

/-- What an attempt at a call tells, which is nothing while it waits. -/
def noteAttempt (s : Writings) (me : Thread) (c : Call) (r : Attempt LinkError Reply) : Writings :=
  match r.result? with
  | none => s
  | some answer => s.note me c answer

/-- What a whole history tells. -/
def ofHistory (h : List (Event Call Reply)) : Writings :=
  h.foldl (fun s e => s.note e.thread e.call e.answer) {}

theorem ofHistory_told (h : List (Event Call Reply)) (me : Thread) (c : Call) (r : Attempt LinkError Reply) :
    ofHistory (h ++ Play.told me c r) = (ofHistory h).noteAttempt me c r := by
  rw [ofHistory, List.foldl_append, Play.told, noteAttempt]
  cases r.result? <;> rfl

theorem noteAttempt_of_not_writes {c : Call} (hc : c.writes = false) (s : Writings) (me : Thread)
    (r : Attempt LinkError Reply) : s.noteAttempt me c r = s := by
  unfold noteAttempt note
  cases c with
  | beginWrite n => cases hc
  | write bs => cases hc
  | restartWrite => cases hc
  | cancelWrite => cases hc
  | endWrite => cases hc
  | _ => split <;> rfl

end Writings

end FrameLink
