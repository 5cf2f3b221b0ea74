import FrameLink.Threads
import Mathlib.Data.List.Nodup

/-! What becomes of a lock. Only its holder can give it up, and a thread gets it only while nobody holds it. -/

namespace FrameLink.Lock

theorem isHeldBy_iff {l : Lock} {me : Thread} : l.isHeldBy me = true ↔ l.holder = some me :=
  decide_eq_true_iff

theorem isHeldBy_eq_false_iff {l : Lock} {me : Thread} : l.isHeldBy me = false ↔ l.holder ≠ some me :=
  decide_eq_false_iff_not

theorem release_of_holder {l : Lock} {me : Thread} (h : l.holder = some me) :
    (l.release me).2 = { l with holder := none } := by
  rw [release, if_pos (isHeldBy_iff.2 h)]

theorem holder_of_isFreeFor {l : Lock} {me : Thread} (h : l.isFreeFor me = true) : l.holder = none := by
  simp only [isFreeFor, isHeld, Bool.and_eq_true, Bool.not_eq_true'] at h
  exact Option.isSome_eq_false_iff.1 h.1 |> Option.isNone_iff_eq_none.1

/-- A lock that nobody holds is free for everybody who does not queue up for it. -/
theorem isFreeFor_of_not_awaited {l : Lock} {me : Thread} (h : l.holder = none) (hme : l.isAwaitedBy me = false) :
    l.isFreeFor me = true := by
  simp only [isFreeFor, isHeld, h, hme, Option.isSome_none, Bool.not_false, Bool.true_or, Bool.and_self]

theorem exists_isFreeFor {l : Lock} (h : l.holder = none) : ∃ me, l.isFreeFor me = true := by
  cases hqueue : l.queue with
  | nil => exact ⟨0, isFreeFor_of_not_awaited h (by rw [isAwaitedBy, hqueue]; rfl)⟩
  | cons me queue => exact ⟨me, by simp [isFreeFor, isHeld, h, hqueue]⟩

/-- What an attempt to take a lock comes to. -/
inductive AcquireOutcome (l : Lock) (me : Thread) (operation : String) :
    Attempt LinkError Unit → Lock → Prop where
  | reentrant (hholder : l.holder = some me) : AcquireOutcome l me operation (.error (.reentrancy operation)) l
  | taken (hfree : l.isFreeFor me = true) :
      AcquireOutcome l me operation (.ok ()) ⟨some me, l.queue.erase me⟩
  | queued (hholder : l.holder ≠ some me) (hfree : l.isFreeFor me = false) :
      AcquireOutcome l me operation .waiting ⟨l.holder, (l.enqueue me).queue⟩

theorem acquire_outcome {l l' : Lock} {me : Thread} {operation : String} {r : Attempt LinkError Unit}
    (h : l.acquire me operation = (r, l')) : AcquireOutcome l me operation r l' := by
  unfold acquire at h
  split at h
  · rename_i hheld
    simp only [Prod.mk.injEq] at h
    obtain ⟨rfl, rfl⟩ := h
    exact .reentrant (isHeldBy_iff.1 hheld)
  · rename_i hheld
    split at h
    · rename_i hfree
      simp only [Prod.mk.injEq] at h
      obtain ⟨rfl, rfl⟩ := h
      exact .taken hfree
    · rename_i hfree
      simp only [Prod.mk.injEq] at h
      obtain ⟨rfl, rfl⟩ := h
      have hqueue : l.enqueue me = ⟨l.holder, (l.enqueue me).queue⟩ := by
        unfold enqueue
        split <;> rfl
      rw [hqueue]
      exact .queued (isHeldBy_eq_false_iff.1 (Bool.eq_false_iff.2 hheld)) (Bool.eq_false_iff.2 hfree)

/-- The lock with a thread that waits for it in front of all others. -/
def favour (l : Lock) (me : Thread) : Lock :=
  if l.isAwaitedBy me then { l with queue := me :: l.queue.erase me } else l

@[simp] theorem favour_holder (l : Lock) (me : Thread) : (l.favour me).holder = l.holder := by
  unfold favour
  split <;> rfl

/-- The lock in the hands of a thread, which no longer queues up for it. -/
def taken (l : Lock) (me : Thread) : Lock :=
  ⟨some me, l.queue.erase me⟩

/-- The lock after this thread has given it up. -/
def vacated (l : Lock) (me : Thread) : Lock :=
  ⟨none, l.queue.erase me⟩

section

variable {l : Lock} {me : Thread} {operation : String}

theorem acquire_of_holder (hholder : l.holder = some me) :
    l.acquire me operation = (.error (.reentrancy operation), l) := by
  rw [acquire, if_pos (isHeldBy_iff.2 hholder)]

theorem acquire_of_isFreeFor (hfree : l.isFreeFor me = true) : l.acquire me operation = (.ok (), l.taken me) := by
  rw [acquire, if_neg (by rw [isHeldBy_iff, holder_of_isFreeFor hfree]; exact nofun), if_pos hfree, taken]

theorem acquire_of_other {you : Thread} (hholder : l.holder = some you) (hyou : you ≠ me) :
    l.acquire me operation = (.waiting, ⟨l.holder, (l.enqueue me).queue⟩) := by
  cases hacquire : l.acquire me operation with
  | mk r l' =>
      cases acquire_outcome hacquire with
      | reentrant hme => exact absurd (Option.some.inj (hholder.symm.trans hme)) hyou
      | taken hfree => cases (holder_of_isFreeFor hfree).symm.trans hholder
      | queued => rfl

theorem isAwaitedBy_iff : l.isAwaitedBy me = true ↔ me ∈ l.queue :=
  List.contains_iff_mem

theorem isAwaitedBy_eq_false_iff : l.isAwaitedBy me = false ↔ me ∉ l.queue := by
  rw [← isAwaitedBy_iff, Bool.not_eq_true]

/-- The first in the queue for a lock that nobody holds may take it. -/
theorem isFreeFor_favour (hholder : l.holder = none) : (l.favour me).isFreeFor me = true := by
  cases hawaited : l.isAwaitedBy me with
  | true => simp [favour, isFreeFor, isHeld, hholder, hawaited]
  | false =>
      rw [favour, if_neg (by rw [hawaited]; exact nofun)]
      exact isFreeFor_of_not_awaited hholder hawaited

/-- A thread that a closed link does not turn away at once has queued up before. -/
theorem mem_queue_of_admitted {closed : Bool} (h : ¬ (closed && !l.isAwaitedBy me) = true) (hclosed : closed = true) :
    me ∈ l.queue := by
  rw [hclosed, Bool.true_and, Bool.not_eq_true', isAwaitedBy_eq_false_iff, not_not] at h
  exact h

theorem release_taken (l : Lock) (me : Thread) : ((l.taken me).release me).2 = l.vacated me :=
  release_of_holder rfl

theorem taken_of_holder (hholder : l.holder = some me) (hqueue : me ∉ l.queue) : l.taken me = l := by
  rw [taken, List.erase_of_not_mem hqueue, ← hholder]

theorem release_of_not_holder (hholder : l.holder ≠ some me) : (l.release me).2 = l := by
  rw [release, if_neg (by rw [isHeldBy_iff]; exact hholder)]

theorem release_of_free (hholder : l.holder = none) (me : Thread) : (l.release me).2 = l :=
  release_of_not_holder (by rw [hholder]; exact nofun)

theorem queue_release (l : Lock) (me : Thread) : ((l.release me).2).queue = l.queue := by
  unfold release
  split <;> rfl

theorem holder_release_ne (l : Lock) (me : Thread) : ((l.release me).2).holder ≠ some me := by
  by_cases hholder : l.holder = some me
  · rw [release_of_holder hholder]
    exact nofun
  · rwa [release_of_not_holder hholder]

theorem holder_release_iff {you : Thread} (hyou : you ≠ me) :
    ((l.release me).2).holder = some you ↔ l.holder = some you := by
  by_cases hholder : l.holder = some me
  · rw [release_of_holder hholder, hholder]
    exact iff_of_false nofun fun heq => hyou (Option.some.inj heq).symm
  · rw [release_of_not_holder hholder]

/-- A lock that its thread gives up, or that nobody holds, is vacated. -/
theorem release_eq_vacated (hmine : l.holder = some me ∨ l.holder = none) (hqueue : me ∉ l.queue) :
    (l.release me).2 = l.vacated me := by
  rw [vacated, List.erase_of_not_mem hqueue]
  rcases hmine with hholder | hholder
  · exact release_of_holder hholder
  · rw [release_of_free hholder, ← hholder]

theorem mem_enqueue {you : Thread} : you ∈ (l.enqueue me).queue ↔ you ∈ l.queue ∨ you = me := by
  unfold enqueue
  split
  · rename_i hawaited
    rw [isAwaitedBy_iff] at hawaited
    exact ⟨.inl, fun h => h.elim id fun heq => heq ▸ hawaited⟩
  · rw [List.mem_append, List.mem_singleton]

theorem mem_favour {you : Thread} : you ∈ (l.favour me).queue ↔ you ∈ l.queue := by
  unfold favour
  split
  · rename_i hawaited
    rw [isAwaitedBy_iff] at hawaited
    exact (List.perm_cons_erase hawaited).symm.mem_iff
  · rfl

end

/-- Threads queue up once each, none of them for what it holds, and `waits` says which ones may. -/
structure IsOrderly (l : Lock) (waits : Thread → Prop) : Prop where
  nodup : l.queue.Nodup
  waits : ∀ you ∈ l.queue, waits you
  holder : ∀ you ∈ l.queue, l.holder ≠ some you

namespace IsOrderly

variable {l : Lock} {waits waits' : Thread → Prop} {me : Thread}

theorem not_mem_of_holder (h : l.IsOrderly waits) (hholder : l.holder = some me) : me ∉ l.queue :=
  fun hmem => h.holder me hmem hholder

/-- A thread that leaves the queue, if it stood there, leaves the others as they are. -/
theorem mem_erase (h : l.IsOrderly waits) {you : Thread} (hyou : you ∈ l.queue.erase me) : you ≠ me ∧ you ∈ l.queue :=
  (h.nodup.mem_erase_iff).1 hyou

theorem taken (h : l.IsOrderly waits) (hothers : ∀ you, you ≠ me → waits you → waits' you) :
    (l.taken me).IsOrderly waits' where
  nodup := h.nodup.erase me
  waits you hyou := hothers you (h.mem_erase hyou).1 (h.waits you (h.mem_erase hyou).2)
  holder _ hyou heq := (h.mem_erase hyou).1 (Option.some.inj heq).symm

theorem vacated (h : l.IsOrderly waits) (hothers : ∀ you, you ≠ me → waits you → waits' you) :
    (l.vacated me).IsOrderly waits' where
  nodup := h.nodup.erase me
  waits you hyou := hothers you (h.mem_erase hyou).1 (h.waits you (h.mem_erase hyou).2)
  holder _ _ := nofun

theorem enqueue (h : l.IsOrderly waits) (hholder : l.holder ≠ some me) (hme : waits' me)
    (hothers : ∀ you, you ≠ me → waits you → waits' you) :
    (⟨l.holder, (l.enqueue me).queue⟩ : Lock).IsOrderly waits' where
  nodup := by
    unfold Lock.enqueue
    split
    · exact h.nodup
    · rename_i hnot
      rw [isAwaitedBy_iff] at hnot
      exact h.nodup.append (List.nodup_singleton me) (List.disjoint_singleton.2 hnot)
  waits you hyou := by
    by_cases hsame : you = me
    · exact hsame ▸ hme
    · exact hothers you hsame (h.waits you ((mem_enqueue.1 hyou).resolve_right hsame))
  holder you hyou := by
    rcases mem_enqueue.1 hyou with hmem | rfl
    · exact h.holder you hmem
    · exact hholder

theorem of_not_mem (h : l.IsOrderly waits) (hme : me ∉ l.queue) (hothers : ∀ you, you ≠ me → waits you → waits' you) :
    l.IsOrderly waits' where
  nodup := h.nodup
  waits you hyou := hothers you (fun heq => hme (heq ▸ hyou)) (h.waits you hyou)
  holder := h.holder

theorem release (h : l.IsOrderly waits) (me : Thread) : ((l.release me).2).IsOrderly waits := by
  by_cases hholder : l.holder = some me
  · rw [release_of_holder hholder]
    exact ⟨h.nodup, h.waits, fun _ _ => nofun⟩
  · rw [release_of_not_holder hholder]
    exact h

theorem favour (h : l.IsOrderly waits) (me : Thread) : (l.favour me).IsOrderly waits where
  nodup := by
    unfold Lock.favour
    split
    · rename_i hawaited
      rw [isAwaitedBy_iff] at hawaited
      exact (List.perm_cons_erase hawaited).nodup_iff.1 h.nodup
    · exact h.nodup
  waits you hyou := h.waits you (mem_favour.1 hyou)
  holder you hyou := by
    rw [favour_holder]
    exact h.holder you (mem_favour.1 hyou)

end IsOrderly

end FrameLink.Lock
