import FrameLink.Proofs.Alignment
import FrameLink.Session

/-! Links joined by pipes. What comes into a pipe behind what its reader stands at does not disturb the reader; and a
call on one side of a pair is a call on a link that is joined to its ends of the pipes. -/

namespace FrameLink

section

variable {src src' : Source} {extra : Bytes}

theorem take_data_of_append {n : Nat} (hle : n ≤ src.data.length) (hdata : src'.data = src.data ++ extra) :
    src'.data.take n = src.data.take n := by
  rw [hdata, List.take_append_of_le_length hle]

theorem Segment.IsWhole.extend {seg : Segment} (h : Segment.IsWhole (seg, src)) (hsmooth : src'.IsSmooth)
    (hdata : src'.data = src.data ++ extra) : Segment.IsWhole (seg, src') := by
  refine ⟨hsmooth, ?_⟩
  show seg.left ≤ src'.data.length
  rw [hdata, List.length_append]
  exact Nat.le_trans h.left_le (Nat.le_add_right _ _)

/-- A cursor whose payload is all there stands as before when more comes behind it. -/
theorem Cursor.Stands.extend {h : Header} {body got : Bytes} {c : Cursor} (hs : Cursor.Stands h body got c src)
    (hsmooth : src'.IsSmooth) (hdata : src'.data = src.data ++ extra) : Cursor.Stands h body got c src' := by
  have htake := take_data_of_append hs.whole.left_le hdata
  refine ⟨?_, hs.whole.extend hsmooth hdata⟩
  cases hs.follows with
  | raw hraw hleft hbody => exact .raw hraw hleft (htake ▸ hbody)
  | deflated hcompressed hf hopen hleft hgot =>
      refine .deflated hcompressed ⟨?_, hf.given_le, hf.ready_le, hf.exhausted⟩ hopen hleft hgot
      obtain ⟨fed, hbits, hdecoder⟩ := hf.fed
      refine ⟨fed, ?_, hdecoder⟩
      rw [hbits]
      exact congrArg (fun bs => fed ++ (_ ++ (_ ++ Deflate.bitsOfAll bs))) htake.symm
  | corrupt hcompressed hphase hcorrupt hopen hleft hgot =>
      exact .corrupt hcompressed hphase hcorrupt hopen hleft hgot

end

namespace Inbound

section

variable {limit : Option Nat} {ps : List Parcel} {held : Thread → Option Call} {i : Inbound} {seen : Readings}

/-- More parcels may come in behind those that are there. -/
theorem IsAligned.extend (h : IsAligned limit true ps held i seen) {src : Source} (more : List Parcel)
    (hsmooth : src.IsSmooth) (hlive : src.live = true) (hmore : ∀ p ∈ more, p.IsSound limit)
    (hdata : src.data = i.source.data ++ Parcel.wires more) :
    IsAligned limit true (ps ++ more) held { i with source := src } seen := by
  have hwires : ∀ ahead : List Parcel, Parcel.wires ahead ++ Parcel.wires more = Parcel.wires (ahead ++ more) :=
    fun ahead => List.flatMap_append.symm
  refine ⟨?_, hsmooth, hlive, ?_⟩
  · intro p hp
    rcases List.mem_append.1 hp with hp | hp
    · exact h.sound p hp
    · exact hmore p hp
  cases h.standing with
  | between hps htold hcurrent hholder hinput hahead =>
      refine .between (by rw [hps, List.append_assoc]) htold hcurrent hholder hinput ?_
      rw [← hwires, ← hahead]
      exact hdata
  | opening hps htold hcurrent hholder hheld hinput hahead _ =>
      refine .opening (by rw [hps, List.append_assoc]) htold hcurrent hholder hheld hinput ?_ hlive
      rw [← hwires, ← hahead]
      exact hdata
  | within hps htold hcurrent hsequence hholder hinput hstands hahead =>
      refine .within (by rw [hps, List.append_assoc, List.cons_append]) htold hcurrent hsequence hholder hinput
        (hstands.extend hsmooth hdata) ?_
      rw [← hwires, ← hahead]
      show src.data.drop _ = _
      rw [hdata, List.drop_append_of_le_length hstands.whole.left_le]

/-- Only a thread that is held up in beginning a transaction waits for a header. -/
theorem IsAligned.held_of_opening {live : Bool} (h : IsAligned limit live ps held i seen) {owner : Thread}
    (hholder : i.lock.holder = some owner) (hinput : i.input = .opening []) : held owner = some .beginRead := by
  cases h.standing with
  | between _ _ _ hnone _ _ => rw [hnone] at hholder; cases hholder
  | within _ _ _ _ _ hreading _ _ => rw [hreading] at hinput; cases hinput
  | opening _ _ _ howner hheld _ _ _ =>
      rw [howner, Option.some.injEq] at hholder
      exact hholder ▸ hheld

end

end Inbound

namespace Pipe

theorem data_source (q : Pipe) : q.source.data = q.buffer :=
  List.append_nil q.buffer

theorem smooth_source (q : Pipe) : q.source.IsSmooth := by
  intro i hi
  obtain rfl := List.mem_singleton.1 hi
  rfl

end Pipe

namespace Stack

@[simp] theorem base_modifyBase (f : Link → Link) (s : Stack) : (s.modifyBase f).base = f s.base := by
  induction s with
  | link l => rfl
  | layer y inner ih => exact ih

theorem modifyBase_modifyBase (f g : Link → Link) (s : Stack) :
    (s.modifyBase f).modifyBase g = s.modifyBase fun l => g (f l) := by
  induction s with
  | link l => rfl
  | layer y inner ih => exact congrArg (Stack.layer y) ih

/-- Layers pass on every call that does not close the link. -/
theorem call_of_ne_close (s : Stack) (me : Thread) {c : Call} (hc : c ≠ .close) :
    s.call me c = ((s.base.call me c).1, s.modifyBase fun _ => (s.base.call me c).2) := by
  induction s with
  | link l => rfl
  | layer y inner ih =>
      simp only [call, ih, hc, false_and, if_false]
      rfl

end Stack

namespace Pair

/-- The link on a side, joined to its ends of the pipes. -/
def plugged (p : Pair) (side : Side) : Link :=
  plug (p.incoming side) (p.incoming side.other) (p.stack side).base

section

variable {p : Pair} {side : Side} {me : Thread} {c : Call}

theorem other_other (side : Side) : side.other.other = side := by
  cases side <;> rfl

/-- A call on a side is answered by the link that is joined there. -/
theorem call_fst (hc : c ≠ .close) : (p.call side me c).1 = ((p.plugged side).call me c).1 := by
  simp only [call, use, Stack.call_of_ne_close _ me hc, Stack.base_modifyBase]
  rfl

theorem call_snd (hc : c ≠ .close) : (p.call side me c).2 =
    p.unplug side ((p.stack side).modifyBase fun _ => ((p.plugged side).call me c).2) := by
  simp only [call, use, Stack.call_of_ne_close _ me hc, Stack.base_modifyBase, Stack.modifyBase_modifyBase]
  rfl

/-- What a side that has not run its hook leaves behind. -/
structure Unplugged (p : Pair) (side : Side) (s : Stack) (q : Pair) : Prop where
  stack : q.stack side = s
  other : q.stack side.other =
    (p.stack side.other).modifyBase fun k => { k with settings := k.settings.withPolicy s.base.settings.policy }
  incoming : q.incoming side = (p.incoming side).afterReading s.base.inbound.source
  outgoing : q.incoming side.other = (p.incoming side.other).afterWriting s.base.outbound.sink

theorem unplugged_unplug (p : Pair) (side : Side) {s : Stack} (hhook : s.base.hook.calls = 0) :
    Unplugged p side s (p.unplug side s) := by
  have hnot : ¬ 0 < s.base.hook.calls := by omega
  cases side <;> constructor <;> simp only [unplug, if_neg hnot] <;> rfl

section

variable (me) (hc : c ≠ .close) (hhook : (p.plugged side).hook.calls = 0)

include hc hhook

theorem unplugged_call : Unplugged p side ((p.stack side).modifyBase fun _ => ((p.plugged side).call me c).2)
    (p.call side me c).2 := by
  rw [call_snd hc]
  apply unplugged_unplug
  rw [Stack.base_modifyBase]
  obtain ⟨-, -, -, hsame⟩ := Link.call_frame (p.plugged side) me hc
  rw [hsame, hhook]

/-- The side that was used goes on with what it left in its pipes. -/
theorem plugged_call_self : (p.call side me c).2.plugged side =
    plug ((p.incoming side).afterReading ((p.plugged side).call me c).2.inbound.source)
      ((p.incoming side.other).afterWriting ((p.plugged side).call me c).2.outbound.sink)
      ((p.plugged side).call me c).2 := by
  have h := unplugged_call me hc hhook
  rw [plugged, h.stack, h.incoming, h.outgoing, Stack.base_modifyBase]

/-- The other side finds in its pipes what was left there, and asks the policy as it is then. -/
theorem plugged_call_other : (p.call side me c).2.plugged side.other =
    plug ((p.incoming side.other).afterWriting ((p.plugged side).call me c).2.outbound.sink)
      ((p.incoming side).afterReading ((p.plugged side).call me c).2.inbound.source)
      { p.plugged side.other with
        settings := (p.plugged side.other).settings.withPolicy ((p.plugged side).call me c).2.settings.policy } := by
  have h := unplugged_call me hc hhook
  rw [plugged, other_other, h.other, h.incoming, h.outgoing, Stack.base_modifyBase, Stack.base_modifyBase]
  rfl

end

end

end Pair

end FrameLink
