import FrameLink.Link
import FrameLink.Proofs.Histories
import FrameLink.Proofs.Locks
import FrameLink.Proofs.PacketGrammar
import Mathlib.Data.List.Forall2

/-! The reading side of a link stays aligned to packets. As long as nobody closes it, the source stands at a header
between transactions, and within one at some byte of a payload of which everything is there; whatever the calls
of its threads are and whatever the payload is worth, the end of a transaction leaves the source at the next
header. What the calls have answered agrees with the packets that have been opened. -/

namespace FrameLink

/-- What has been told of reading a parcel. The bytes count only if header and body fit together. -/
structure Parcel.IsToldBy (p : Parcel) (d : Delivery) : Prop where
  sequence : d.sequence = p.header.sequence
  isPrefix : ∀ payload, p.payload? = some payload → d.bytes <+: payload

namespace Inbound

/-- The reading side has been given the parcels `ps`, and `seen` tells of it. The parcels that have not been opened
are still whole in its source. Only a thread that is held up in beginning a transaction waits for a header. -/
inductive Standing (ps : List Parcel) (held : Thread → Option Call) (i : Inbound) (seen : Readings) : Prop where
  | between {behind ahead : List Parcel} (hps : ps = behind ++ ahead)
      (htold : List.Forall₂ Parcel.IsToldBy behind seen.finished) (hcurrent : seen.current = none)
      (hholder : i.lock.holder = none) (hinput : i.input = .ready) (hdata : i.source.data = Parcel.wires ahead)
  | opening {behind ahead : List Parcel} {owner : Thread} (hps : ps = behind ++ ahead)
      (htold : List.Forall₂ Parcel.IsToldBy behind seen.finished) (hcurrent : seen.current = none)
      (hholder : i.lock.holder = some owner) (hheld : held owner = some .beginRead) (hinput : i.input = .opening [])
      (hdata : i.source.data = Parcel.wires ahead) (hlive : i.source.live = true)
  | within {behind ahead : List Parcel} {owner : Thread} {p : Parcel} {d : Delivery} {c : Cursor}
      (hps : ps = behind ++ p :: ahead) (htold : List.Forall₂ Parcel.IsToldBy behind seen.finished)
      (hcurrent : seen.current = some (owner, d)) (hsequence : d.sequence = p.header.sequence)
      (hholder : i.lock.holder = some owner) (hinput : i.input = .reading c)
      (hstands : Cursor.Stands p.header p.body d.bytes c i.source)
      (hdata : i.source.data.drop c.segment.left = Parcel.wires ahead)

/-- The reading side has been given sound parcels without obstacles that last, and stands aligned to them. -/
structure IsAligned (limit : Option Nat) (live : Bool) (ps : List Parcel) (held : Thread → Option Call)
    (i : Inbound) (seen : Readings) : Prop where
  sound : ∀ p ∈ ps, p.IsSound limit
  smooth : i.source.IsSmooth
  live : i.source.live = live
  standing : Standing ps held i seen

/-- What an attempt of a thread at a call makes of the calls that hold threads up. -/
structure Holds (held held' : Thread → Option Call) (me : Thread) (c : Call) (r : Attempt LinkError Reply) :
    Prop where
  self : r = .waiting → held' me = some c
  others : ∀ you, you ≠ me → held' you = held you

section

variable {limit : Option Nat} {live : Bool} {ps : List Parcel} {held held' : Thread → Option Call} {i i' : Inbound}
  {seen : Readings} {me : Thread}

/-- Who queues up for the lock does not matter, nor who is held up beside its holder. -/
theorem IsAligned.congr (h : IsAligned limit live ps held i seen) (hsource : i'.source = i.source)
    (hinput' : i'.input = i.input) (hholder' : i'.lock.holder = i.lock.holder)
    (hheld' : ∀ owner, i.lock.holder = some owner → i.input = .opening [] → held' owner = held owner) :
    IsAligned limit live ps held' i' seen := by
  refine ⟨h.sound, hsource ▸ h.smooth, hsource ▸ h.live, ?_⟩
  cases h.standing with
  | between hps htold hcurrent hholder hinput hdata =>
      exact .between hps htold hcurrent (hholder'.trans hholder) (hinput'.trans hinput) (hsource ▸ hdata)
  | opening hps htold hcurrent hholder hheld hinput hdata hlive =>
      exact .opening hps htold hcurrent (hholder'.trans hholder) ((hheld' _ hholder hinput).trans hheld)
        (hinput'.trans hinput) (hsource ▸ hdata) (hsource ▸ hlive)
  | within hps htold hcurrent hsequence hholder hinput hstands hdata =>
      exact .within hps htold hcurrent hsequence (hholder'.trans hholder) (hinput'.trans hinput)
        (hsource ▸ hstands) (hsource ▸ hdata)

/-- Outside of a transaction, what has been told agrees with the parcels that have been opened. -/
theorem told_of_idle {behind ahead : List Parcel} (htold : List.Forall₂ Parcel.IsToldBy behind seen.finished)
    (hcurrent : seen.current = none) :
    List.Forall₂ Parcel.IsToldBy ((behind ++ ahead).take seen.begun.length) seen.begun := by
  rw [Readings.begun, hcurrent]
  simp only [Option.map_none, Option.toList_none, List.append_nil, ← htold.length_eq, List.take_left']
  exact htold

/-- All that has been told agrees with the parcels it is about. -/
theorem Standing.told (h : Standing ps held i seen) :
    List.Forall₂ Parcel.IsToldBy (ps.take seen.begun.length) seen.begun := by
  cases h with
  | between hps htold hcurrent hholder hinput hdata => exact hps ▸ told_of_idle htold hcurrent
  | opening hps htold hcurrent hholder hheld hinput hdata hlive => exact hps ▸ told_of_idle htold hcurrent
  | within hps htold hcurrent hsequence hholder hinput hstands hdata =>
      rename_i behind ahead owner p d c
      have hlast : p.IsToldBy d := ⟨hsequence, fun _ hp => hstands.isPrefix hp⟩
      have hall := List.rel_append htold (.cons hlast .nil)
      rw [Readings.begun, hcurrent, hps, List.append_cons]
      simp only [Option.map_some, Option.toList_some]
      rwa [← hall.length_eq, List.take_left' rfl]

theorem Standing.sequences (h : Standing ps held i seen) :
    seen.begun.map Delivery.sequence = (ps.take seen.begun.length).map fun p => p.header.sequence := by
  rw [← List.forall₂_eq_eq_eq, List.forall₂_map_left_iff, List.forall₂_map_right_iff]
  exact (h.told.imp fun _ _ htold => htold.sequence).flip

/-- Where a parcel stands, opening a packet begins a transaction with it. -/
theorem openPacket_wire (me : Thread) {p : Parcel} {rest : Bytes} (hsound : p.IsSound limit)
    (hsmooth : i.source.IsSmooth) (hdata : i.source.data = p.wire ++ rest) :
    ∃ src, i.openPacket false limit me [] = (.ok p.header.sequence,
        { i with source := src, input := .reading (Cursor.ofHeader p.header) }) ∧
      i.source.Gives p.header.encode src := by
  rcases hr : Header.receive limit [] i.source with ⟨q, got, src⟩
  rw [Parcel.wire, List.append_assoc] at hdata
  obtain ⟨rfl, hgives⟩ := Header.receive_encode hr hsmooth hsound.valid hdata
  exact ⟨src, by simp only [openPacket, hr, Bool.false_eq_true, if_false], hgives⟩

/-- Where nothing stands, opening a packet waits if more may come, and else fails and gives the lock up. -/
theorem openPacket_nil (limit : Option Nat) (hsmooth : i.source.IsSmooth) (hdata : i.source.data = [])
    (hholder : i.lock.holder = some me) :
    ∃ src, i.openPacket false limit me [] = (if i.source.live then
        (.waiting, { i with source := src, input := .opening [] })
      else
        (.error Header.shortError,
          { i with source := src, input := .ready, lock := { i.lock with holder := none } })) ∧
      i.source.Gives [] src := by
  rcases hr : Header.receive limit [] i.source with ⟨q, got, src⟩
  obtain ⟨rfl, rfl, hgives⟩ := Header.receive_nil hr hsmooth hdata
  refine ⟨src, ?_, hgives⟩
  cases hlive : i.source.live with
  | true =>
      rw [hlive] at hr
      simp only [openPacket, hr, if_true]
  | false =>
      rw [hlive] at hr
      simp only [openPacket, hr, Bool.false_eq_true, if_false, Input.leave, release,
        Lock.release_of_holder hholder]

theorem IsAligned.openPacket {behind ahead : List Parcel} {r : Attempt LinkError Int32}
    (hsound : ∀ p ∈ behind ++ ahead, p.IsSound limit) (hsmooth : i.source.IsSmooth)
    (hlive : i.source.live = live) (htold : List.Forall₂ Parcel.IsToldBy behind seen.finished)
    (hcurrent : seen.current = none) (hholder : i.lock.holder = some me)
    (hdata : i.source.data = Parcel.wires ahead) (hr : i.openPacket false limit me [] = (r, i'))
    (hheld : r = .waiting → held' me = some .beginRead) :
    IsAligned limit live (behind ++ ahead) held' i' (seen.noteAttempt me .beginRead (r.map .sequence)) := by
  cases ahead with
  | nil =>
      obtain ⟨src, heq, hgives⟩ := openPacket_nil limit hsmooth hdata hholder
      rw [heq] at hr
      have hsrc : src.data = Parcel.wires [] := hgives.data.symm.trans hdata
      split at hr
      · rename_i hmore
        obtain ⟨rfl, rfl⟩ := Prod.mk.inj hr
        exact ⟨hsound, hgives.smooth hsmooth, hgives.live.trans hlive,
          .opening rfl htold hcurrent hholder (hheld rfl) rfl hsrc (hgives.live.trans hmore)⟩
      · obtain ⟨rfl, rfl⟩ := Prod.mk.inj hr
        exact ⟨hsound, hgives.smooth hsmooth, hgives.live.trans hlive, .between rfl htold hcurrent rfl rfl hsrc⟩
  | cons p ahead =>
      have hp := hsound p (List.mem_append_right _ List.mem_cons_self)
      obtain ⟨src, heq, hgives⟩ := openPacket_wire me hp hsmooth hdata
      rw [heq] at hr
      obtain ⟨rfl, rfl⟩ := Prod.mk.inj hr
      have hsrc : src.data = p.body ++ Parcel.wires ahead := by
        have hboth := hgives.data.symm.trans hdata
        rw [Parcel.wires, List.flatMap_cons, Parcel.wire, List.append_assoc] at hboth
        exact List.append_cancel_left hboth
      have hlength := hp.length
      have hstands := Cursor.stands_ofHeader (h := p.header) (hgives.smooth hsmooth)
        (by rw [hsrc, List.length_append]; omega)
      rw [hsrc, List.take_left' hlength] at hstands
      have hbegun : List.Forall₂ Parcel.IsToldBy behind seen.begun := by
        rw [Readings.begun, hcurrent]
        exact (List.append_nil seen.finished).symm ▸ htold
      refine ⟨hsound, hgives.smooth hsmooth, hgives.live.trans hlive,
        .within rfl hbegun rfl rfl hholder rfl hstands ?_⟩
      rw [hsrc, Cursor.ofHeader_segment, List.drop_left' hlength]

/-- A thread that is not in the middle of opening a packet first has to get the lock. -/
theorem begin_of_acquire {q : Attempt LinkError Unit} {lock : Lock}
    (hnot : i.lock.holder = some me → ∀ got, i.input ≠ .opening got) :
    i.lock.acquire me "begin_read" = (q, lock) → i.begin false limit me = match q with
      | .ok () => { i with lock := lock }.openPacket false limit me []
      | .error e => (.error e, { i with lock := lock })
      | .waiting => (.waiting, { i with lock := lock }) := by
  intro hacquire
  unfold begin
  split
  · rename_i got hheld hinput
    exact absurd hinput (hnot (Lock.isHeldBy_iff.1 hheld) got)
  · simp only [Bool.false_and, Bool.false_eq_true, if_false, hacquire, enter]
    cases q <;> rfl

/-- The owner that waits for a header goes on with it. -/
theorem begin_of_opening {got : Bytes} (hholder : i.lock.holder = some me) (hinput : i.input = .opening got) :
    i.begin false limit me = i.openPacket false limit me got := by
  simp only [Inbound.begin, Lock.isHeldBy_iff.2 hholder, hinput]

theorem begin_of_isFreeFor (hfree : i.lock.isFreeFor me = true) :
    i.begin false limit me = { i with lock := i.lock.taken me }.openPacket false limit me [] := by
  have hnone := Lock.holder_of_isFreeFor hfree
  exact begin_of_acquire (fun hme => by cases hnone.symm.trans hme) (Lock.acquire_of_isFreeFor hfree)

theorem begin_of_not_isFreeFor (hholder : i.lock.holder ≠ some me) (hfree : i.lock.isFreeFor me = false) :
    (i.begin false limit me).1 = .waiting := by
  rcases hacquire : i.lock.acquire me "begin_read" with ⟨q, lock⟩
  rw [begin_of_acquire (fun hme => absurd hme hholder) hacquire]
  cases Lock.acquire_outcome hacquire with
  | reentrant hme => exact absurd hme hholder
  | taken hfree' => cases hfree.symm.trans hfree'
  | queued => rfl

theorem IsAligned.begin (h : IsAligned limit live ps held i seen) {r : Attempt LinkError Int32}
    (hr : i.begin false limit me = (r, i')) (hholds : Holds held held' me .beginRead (r.map .sequence)) :
    IsAligned limit live ps held' i' (seen.noteAttempt me .beginRead (r.map .sequence)) := by
  obtain ⟨hsound, hsmooth, hlive, hstanding⟩ := h
  have hwait : r = .waiting → held' me = some .beginRead := fun hr => hholds.self (by rw [hr]; rfl)
  -- The owner that waits for a header goes on with it; everybody else asks for the lock first.
  by_cases hopening : i.lock.holder = some me ∧ i.input = .opening []
  · obtain ⟨hme, hinput⟩ := hopening
    rw [begin_of_opening hme hinput] at hr
    cases hstanding with
    | between _ _ _ hholder _ _ => rw [hholder] at hme; cases hme
    | within _ _ _ _ _ hinput' _ _ => rw [hinput'] at hinput; cases hinput
    | opening hps htold hcurrent _ _ _ hdata _ =>
        subst hps
        exact IsAligned.openPacket hsound hsmooth hlive htold hcurrent hme hdata hr hwait
  · have hnot : i.lock.holder = some me → ∀ got, i.input ≠ .opening got := by
      intro hme got hinput
      cases hstanding with
      | between _ _ _ hholder _ _ => rw [hholder] at hme; cases hme
      | within _ _ _ _ _ hinput' _ _ => rw [hinput'] at hinput; cases hinput
      | opening _ _ _ _ _ hinput' _ _ => exact hopening ⟨hme, hinput'⟩
    rcases hacquire : i.lock.acquire me "begin_read" with ⟨q, lock⟩
    rw [begin_of_acquire hnot hacquire] at hr
    cases Lock.acquire_outcome hacquire with
    | reentrant hme =>
        obtain ⟨rfl, rfl⟩ := Prod.mk.inj hr
        refine IsAligned.congr ⟨hsound, hsmooth, hlive, hstanding⟩ rfl rfl rfl fun owner howner hinput => ?_
        rw [hme, Option.some.injEq] at howner
        exact absurd hinput (hnot hme [])
    | taken hfree =>
        have hnone := Lock.holder_of_isFreeFor hfree
        cases hstanding with
        | between hps htold hcurrent _ _ hdata =>
            subst hps
            dsimp only at hr
            exact IsAligned.openPacket (i := { i with lock := ⟨some me, _⟩ }) hsound hsmooth hlive htold hcurrent rfl
              hdata hr hwait
        | opening _ _ _ hholder _ _ _ _ => rw [hholder] at hnone; cases hnone
        | within _ _ _ _ hholder _ _ _ => rw [hholder] at hnone; cases hnone
    | queued hme hfree =>
        obtain ⟨rfl, rfl⟩ := Prod.mk.inj hr
        refine IsAligned.congr ⟨hsound, hsmooth, hlive, hstanding⟩ rfl rfl rfl fun owner howner _ => ?_
        exact hholds.others owner fun heq => hme (heq ▸ howner)

/-- The end of a transaction whose parcel has passed. -/
theorem Standing.close {behind ahead : List Parcel} {p : Parcel} {d : Delivery} {c : Cursor} {src src' : Source}
    {lock : Lock} (hps : ps = behind ++ p :: ahead) (htold : List.Forall₂ Parcel.IsToldBy behind seen.finished)
    (hcurrent : seen.current = some (me, d)) (hsequence : d.sequence = p.header.sequence)
    (hstands : Cursor.Stands p.header p.body d.bytes c src) (hdata : src'.data = Parcel.wires ahead)
    (hholder : lock.holder = none) : Standing ps held' ⟨src', lock, .ready⟩ seen.close := by
  have hlast : p.IsToldBy d := ⟨hsequence, fun _ hp => hstands.isPrefix hp⟩
  refine .between (hps.trans (List.append_cons _ _ _)) ?_ rfl hholder rfl hdata
  rw [Readings.close, Readings.begun, hcurrent]
  exact List.rel_append htold (.cons hlast .nil)

theorem read_of_not_holder {n : Nat} (h : i.lock.holder ≠ some me) :
    i.read false me n = (.error (.protocolState "read" "read"), i) := by
  simp only [Inbound.read, Lock.isHeldBy_eq_false_iff.2 h, refusal?, Bool.false_eq_true, if_false]

theorem read_of_holder {n : Nat} {c : Cursor} (h : i.lock.holder = some me) (hinput : i.input = .reading c) :
    i.read false me n = i.fetch false me n c := by
  simp only [Inbound.read, Lock.isHeldBy_iff.2 h, hinput, refusal?, Bool.false_eq_true, if_false, if_true]

theorem finish_of_not_holder (h : i.lock.holder ≠ some me) :
    i.finish false me = (.error (.protocolState "end_read" "read"), i) := by
  simp only [finish, Lock.isHeldBy_eq_false_iff.2 h, refusal?, Bool.false_eq_true, if_false]

theorem finish_of_holder {c : Cursor} (h : i.lock.holder = some me) (hinput : i.input = .reading c) :
    i.finish false me = i.skip false me c.close := by
  simp only [finish, Lock.isHeldBy_iff.2 h, hinput, refusal?, Bool.false_eq_true, if_false, if_true]

/-- A failed transaction behind a segment that is whole ends at what follows the segment. -/
theorem abort_of_whole {closing : Cursor.Closing} (e : LinkError) (hholder : i.lock.holder = some me)
    (hwhole : Segment.IsWhole (closing.segment, i.source)) :
    ∃ src, i.abort false me e closing =
        (.error e, { i with source := src, input := .ready, lock := { i.lock with holder := none } }) ∧
      src.IsSmooth ∧ src.live = i.source.live ∧ src.data = i.source.data.drop closing.segment.left := by
  rcases hclose : closing.run i.source with ⟨q, closing', src⟩
  obtain ⟨hwait, hpasses⟩ := Cursor.Closing.run_passes hclose hwhole
  refine ⟨src, ?_, hpasses⟩
  cases q with
  | waiting => exact absurd rfl hwait
  | ok _ =>
      simp only [abort, hclose, Input.leave, Bool.false_eq_true, if_false, release, Lock.release_of_holder hholder]
  | error _ =>
      simp only [abort, hclose, Input.leave, Bool.false_eq_true, if_false, release, Lock.release_of_holder hholder]

/-- So does a transaction that its owner ends; its result is that of the closing. -/
theorem skip_of_whole {closing : Cursor.Closing} (hholder : i.lock.holder = some me)
    (hwhole : Segment.IsWhole (closing.segment, i.source)) :
    (closing.run i.source).1 ≠ .waiting ∧ ∃ src, i.skip false me closing = ((closing.run i.source).1,
        { i with source := src, input := .ready, lock := { i.lock with holder := none } }) ∧
      src.IsSmooth ∧ src.live = i.source.live ∧ src.data = i.source.data.drop closing.segment.left := by
  rcases hclose : closing.run i.source with ⟨q, closing', src⟩
  obtain ⟨hwait, hpasses⟩ := Cursor.Closing.run_passes hclose hwhole
  refine ⟨hwait, src, ?_, hpasses⟩
  cases q with
  | waiting => exact absurd rfl hwait
  | ok _ =>
      simp only [skip, hclose, Input.leave, Bool.false_eq_true, if_false, release, Lock.release_of_holder hholder]
  | error _ =>
      simp only [skip, hclose, Input.leave, Bool.false_eq_true, if_false, release, Lock.release_of_holder hholder]

theorem remaining_snd : (i.remaining false me).2 = i := by
  unfold remaining refusal?
  simp only [Bool.false_eq_true, if_false]
  split
  · rename_i h
    split at h
    · cases h
    · cases h
      rfl
  · rfl
  · rfl

/-- A call of a thread that does not hold the lock leaves the reading side as it is. -/
theorem IsAligned.of_not_holder (h : IsAligned limit live ps held i seen) {c : Call}
    {r : Attempt LinkError Reply} (hholder : i.lock.holder ≠ some me) (hholds : Holds held held' me c r) :
    IsAligned limit live ps held' i seen :=
  h.congr rfl rfl rfl fun owner howner _ => hholds.others owner fun heq => hholder (heq ▸ howner)

/-- Nothing is told by a thread that owns no transaction and makes no call to begin one. -/
theorem Standing.note_of_not_holder (h : Standing ps held i seen) {c : Call} (hholder : i.lock.holder ≠ some me)
    (hc : c ≠ .beginRead) (answer : Except LinkError Reply) : seen.note me c answer = seen := by
  have howner : ∀ owner d, seen.current = some (owner, d) → owner ≠ me := by
    intro owner d hcurrent heq
    cases h with
    | between _ _ hnone _ _ _ => rw [hnone] at hcurrent; cases hcurrent
    | opening _ _ hnone _ _ _ _ _ => rw [hnone] at hcurrent; cases hcurrent
    | within _ _ hsome _ howner _ _ _ =>
        rw [hsome, Option.some.injEq, Prod.mk.injEq] at hcurrent
        exact hholder (howner.trans (congrArg some (hcurrent.1.trans heq)))
  unfold Readings.note
  split
  · exact absurd rfl hc
  · rename_i hcurrent
    rw [if_neg (howner _ _ hcurrent)]
  · rename_i hcurrent
    rw [if_neg fun k => howner _ _ hcurrent k.1]
  · rename_i hcurrent
    rw [if_neg (howner _ _ hcurrent)]
  · rfl

theorem IsAligned.read (h : IsAligned limit live ps held i seen) {n : Nat} {r : Attempt LinkError Bytes}
    (hr : i.read false me n = (r, i')) (hme : ∀ c, held me = some c → c = .read n)
    (hholds : Holds held held' me (.read n) (r.map .bytes)) :
    IsAligned limit live ps held' i' (seen.noteAttempt me (.read n) (r.map .bytes)) := by
  by_cases hholder : i.lock.holder = some me
  · obtain ⟨hsound, hsmooth, hlive, hstanding⟩ := h
    cases hstanding with
    | between _ _ _ hnone _ _ => rw [hnone] at hholder; cases hholder
    | opening _ _ _ howner hheld _ _ _ =>
        rw [howner, Option.some.injEq] at hholder
        cases hme _ (hholder ▸ hheld)
    | within hps htold hcurrent hsequence howner hinput hstands hdata =>
        rename_i behind ahead owner p d c
        obtain rfl : owner = me := Option.some.inj (howner.symm.trans hholder)
        rw [read_of_holder hholder hinput] at hr
        rcases hread : c.read i.source n with ⟨q, c', src⟩
        obtain ⟨bs, hgives⟩ := (Cursor.read_uses hread).gives
        cases Cursor.read_outcome hread hstands with
        | bytes hne hn hlength hstands' =>
            simp only [fetch, hread, Input.leave, Bool.false_eq_true, if_false, Prod.mk.injEq] at hr
            obtain ⟨rfl, rfl⟩ := hr
            simp only [Attempt.map, Readings.noteAttempt, Attempt.result?, Readings.note, hcurrent, if_true]
            exact ⟨hsound, hgives.source.smooth hsmooth, hgives.source.live.trans hlive,
              .within hps htold rfl hsequence hholder rfl hstands' (hgives.drop_data.trans hdata)⟩
        | refused hn =>
            simp only [fetch, hread, LinkError.isOverread, if_true, Input.leave, Bool.false_eq_true, if_false,
              Prod.mk.injEq] at hr
            obtain ⟨rfl, rfl⟩ := hr
            simp only [Attempt.map, Readings.noteAttempt, Attempt.result?, Readings.note, hcurrent,
              LinkError.isOverread, Bool.true_eq_false, and_false, if_false]
            exact ⟨hsound, hsmooth, hlive, .within hps htold hcurrent hsequence hholder rfl hstands hdata⟩
        | failed hn he hbad =>
            -- Whatever is wrong with the payload, the rest of its segment passes.
            rename_i e
            have hwhole := hgives.whole hstands.whole
            rw [← Cursor.close_segment] at hwhole
            obtain ⟨src', habort, hsmooth', hlive', hpassed⟩ :=
              abort_of_whole e (i := { i with source := src }) hholder hwhole
            rw [Cursor.close_segment, hgives.drop_data, hdata] at hpassed
            simp only [fetch, hread, he, Bool.false_eq_true, if_false] at hr
            rw [habort] at hr
            obtain ⟨rfl, rfl⟩ := Prod.mk.inj hr
            simp only [Attempt.map, Readings.noteAttempt, Attempt.result?, Readings.note, hcurrent, he, and_self,
              if_true]
            exact ⟨hsound, hsmooth', hlive'.trans (hgives.source.live.trans hlive),
              .close hps htold hcurrent hsequence hstands hpassed rfl⟩
  · rw [read_of_not_holder hholder] at hr
    obtain ⟨rfl, rfl⟩ := Prod.mk.inj hr
    simp only [Attempt.map, Readings.noteAttempt, Attempt.result?,
      h.standing.note_of_not_holder hholder (by simp : Call.read n ≠ .beginRead)]
    exact h.of_not_holder hholder hholds

theorem IsAligned.finish (h : IsAligned limit live ps held i seen) {r : Attempt LinkError Unit}
    (hr : i.finish false me = (r, i')) (hme : ∀ c, held me = some c → c = .endRead)
    (hholds : Holds held held' me .endRead (r.map fun _ => .done)) :
    IsAligned limit live ps held' i' (seen.noteAttempt me .endRead (r.map fun _ => .done)) := by
  by_cases hholder : i.lock.holder = some me
  · obtain ⟨hsound, hsmooth, hlive, hstanding⟩ := h
    cases hstanding with
    | between _ _ _ hnone _ _ => rw [hnone] at hholder; cases hholder
    | opening _ _ _ howner hheld _ _ _ =>
        rw [howner, Option.some.injEq] at hholder
        cases hme _ (hholder ▸ hheld)
    | within hps htold hcurrent hsequence howner hinput hstands hdata =>
        rename_i behind ahead owner p d c
        obtain rfl : owner = me := Option.some.inj (howner.symm.trans hholder)
        have hwhole := hstands.whole
        rw [← Cursor.close_segment] at hwhole
        obtain ⟨hwait, src, hskip, hsmooth', hlive', hpassed⟩ := skip_of_whole hholder hwhole
        rw [Cursor.close_segment, hdata] at hpassed
        rw [finish_of_holder hholder hinput, hskip] at hr
        obtain ⟨hq, rfl⟩ := Prod.mk.inj hr
        have hnote : seen.noteAttempt owner .endRead (r.map fun _ => .done) = seen.close := by
          rw [hq] at hwait
          cases r with
          | waiting => exact absurd rfl hwait
          | ok _ => simp only [Attempt.map, Readings.noteAttempt, Attempt.result?, Readings.note, hcurrent, if_true]
          | error _ =>
              simp only [Attempt.map, Readings.noteAttempt, Attempt.result?, Readings.note, hcurrent, if_true]
        rw [hnote]
        exact ⟨hsound, hsmooth', hlive'.trans hlive, .close hps htold hcurrent hsequence hstands hpassed rfl⟩
  · rw [finish_of_not_holder hholder] at hr
    obtain ⟨rfl, rfl⟩ := Prod.mk.inj hr
    simp only [Attempt.map, Readings.noteAttempt, Attempt.result?,
      h.standing.note_of_not_holder hholder (by simp : Call.endRead ≠ .beginRead)]
    exact h.of_not_holder hholder hholds

/-- A call that is not about reading does not disturb it: a thread held up in opening a packet makes no other. -/
theorem IsAligned.of_not_reads (h : IsAligned limit live ps held i seen) {c : Call} {r : Attempt LinkError Reply}
    (hreads : c.reads = false) (hme : ∀ c', held me = some c' → c' = c) (hholds : Holds held held' me c r) :
    IsAligned limit live ps held' i (seen.noteAttempt me c r) := by
  rw [Readings.noteAttempt_of_not_reads hreads]
  refine h.congr rfl rfl rfl fun owner howner hinput => hholds.others owner ?_
  rintro rfl
  cases h.standing with
  | between _ _ _ _ hready _ => rw [hready] at hinput; cases hinput
  | within _ _ _ _ _ hreading _ _ => rw [hreading] at hinput; cases hinput
  | opening _ _ _ hholder hheld _ _ _ =>
      rw [hholder, Option.some.injEq] at howner
      rw [← hme _ (howner ▸ hheld)] at hreads
      cases hreads

end

end Inbound

namespace Link

/-- The link with a thread in front of all others wherever it queues up. -/
def favour (l : Link) (me : Thread) : Link :=
  { l with
    inbound := { l.inbound with lock := l.inbound.lock.favour me }
    outbound := { l.outbound with lock := l.outbound.lock.favour me } }

/-- What no call but closing changes. -/
theorem call_frame (l : Link) (me : Thread) {c : Call} (hc : c ≠ .close) :
    (l.call me c).2.closed = l.closed ∧ (l.call me c).2.settings.limit = l.settings.limit ∧
      (l.call me c).2.settings.level = l.settings.level ∧ (l.call me c).2.hook = l.hook := by
  cases c with
  | close => exact absurd rfl hc
  | enableCompression =>
      simp only [call, enableCompression]
      split <;> exact ⟨rfl, rfl, rfl, rfl⟩
  | disableCompression =>
      simp only [call, disableCompression]
      split <;> exact ⟨rfl, rfl, rfl, rfl⟩
  | _ => exact ⟨rfl, rfl, rfl, rfl⟩

theorem call_inbound {l : Link} {me : Thread} {c : Call} (hclosed : l.closed = false) (hc : c ≠ .close)
    (hreads : c.reads = false) : (l.call me c).2.inbound = l.inbound := by
  cases c with
  | close => exact absurd rfl hc
  | beginRead => cases hreads
  | read n => cases hreads
  | endRead => cases hreads
  | remaining => simp only [call, withInbound, hclosed, Inbound.remaining_snd]
  | enableCompression =>
      simp only [call, enableCompression]
      split <;> rfl
  | disableCompression =>
      simp only [call, disableCompression]
      split <;> rfl
  | _ => rfl

section

variable {l : Link} (hclosed : l.closed = false) (me : Thread)

include hclosed

theorem call_beginRead_fst :
    (l.call me .beginRead).1 = (l.inbound.begin false l.settings.limit me).1.map .sequence := by
  simp only [call, withInbound, hclosed]

theorem call_read_fst (n : Nat) : (l.call me (.read n)).1 = (l.inbound.read false me n).1.map .bytes := by
  simp only [call, withInbound, hclosed]

theorem call_remaining_fst : (l.call me .remaining).1 = (l.inbound.remaining false me).1.map .count := by
  simp only [call, withInbound, hclosed]

theorem call_endRead_fst : (l.call me .endRead).1 = (l.inbound.finish false me).1.map fun _ => .done := by
  simp only [call, withInbound, hclosed]

end

/-- A call on an open link that does not close it keeps the reading side aligned. -/
theorem call_isAligned {l : Link} {live : Bool} {ps : List Parcel} {held held' : Thread → Option Call}
    {seen : Readings} {me : Thread} {c : Call} (hclosed : l.closed = false) (hc : c ≠ .close)
    (h : l.inbound.IsAligned l.settings.limit live ps held seen) (hme : ∀ c', held me = some c' → c' = c)
    (hholds : Inbound.Holds held held' me c (l.call me c).1) :
    (l.call me c).2.inbound.IsAligned l.settings.limit live ps held' (seen.noteAttempt me c (l.call me c).1) := by
  cases c with
  | close => exact absurd rfl hc
  | beginRead =>
      simp only [call, withInbound, hclosed] at hholds ⊢
      exact h.begin rfl hholds
  | read n =>
      simp only [call, withInbound, hclosed] at hholds ⊢
      exact h.read rfl hme hholds
  | endRead =>
      simp only [call, withInbound, hclosed] at hholds ⊢
      exact h.finish rfl hme hholds
  | _ =>
      rw [call_inbound hclosed hc rfl]
      exact h.of_not_reads rfl hme hholds

end Link

end FrameLink
