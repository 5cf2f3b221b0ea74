import FrameLink.Reader

/-! What reading does to a source. The bytes that a read gives out are the next ones of the source, and
nothing else of it changes but the obstacles that have been passed. A source is smooth if its only obstacles
are interruptions; a read that is tried again when interrupted then comes to an end, since every interruption
happens once. A source is faultless if interruptions are its only failures, though it may hold its reader up; and it
is prompt if it never holds its reader up, though it may fail. -/

namespace FrameLink

namespace Source

/-- An obstacle of this kind makes a reader try again at most. -/
def Item.isHarmless : Item → Bool
  | .data _ => true
  | .failure e => e.isInterruption
  | .gate => false

/-- Nothing but interruptions comes between the bytes of the source. -/
def IsSmooth (s : Source) : Prop :=
  ∀ i ∈ s.items, i.isHarmless = true

instance (s : Source) : Decidable s.IsSmooth :=
  inferInstanceAs (Decidable (∀ i ∈ s.items, i.isHarmless = true))

/-- An item of this kind does not make a read fail for good. -/
def Item.isFaultless : Item → Bool
  | .failure e => e.isInterruption
  | _ => true

/-- The source never fails but by interruptions. -/
def IsFaultless (s : Source) : Prop :=
  ∀ i ∈ s.items, i.isFaultless = true

instance (s : Source) : Decidable s.IsFaultless :=
  inferInstanceAs (Decidable (∀ i ∈ s.items, i.isFaultless = true))

theorem IsSmooth.faultless {s : Source} (h : s.IsSmooth) : s.IsFaultless := by
  intro i hi
  cases i with
  | failure e => exact h (.failure e) hi
  | _ => rfl

/-- An item of this kind does not keep a read waiting. -/
def Item.isPrompt : Item → Bool
  | .gate => false
  | _ => true

/-- The source never keeps its reader waiting: it has no gates, and no more will arrive after its last item. -/
structure IsPrompt (s : Source) : Prop where
  ended : s.live = false
  items : ∀ i ∈ s.items, i.isPrompt = true

instance (s : Source) : Decidable s.IsPrompt :=
  decidable_of_iff (s.live = false ∧ ∀ i ∈ s.items, i.isPrompt = true)
    ⟨fun h => ⟨h.1, h.2⟩, fun h => ⟨h.ended, h.items⟩⟩

/-- The source `s` has given out the bytes `bs` and become `t`. -/
structure Gives (s : Source) (bs : Bytes) (t : Source) : Prop where
  data : s.data = bs ++ t.data
  live : t.live = s.live
  failures : t.failures ≤ s.failures
  items : ∀ i ∈ t.items, i ∈ s.items ∨ ∃ left, i = .data left

theorem Gives.refl (s : Source) : s.Gives [] s :=
  ⟨rfl, rfl, Nat.le_refl _, fun _ => .inl⟩

theorem Gives.trans {s t u : Source} {bs cs : Bytes} (h : s.Gives bs t) (k : t.Gives cs u) :
    s.Gives (bs ++ cs) u where
  data := by rw [h.data, k.data, List.append_assoc]
  live := k.live.trans h.live
  failures := Nat.le_trans k.failures h.failures
  items i hi := (k.items i hi).elim (h.items i) .inr

section

variable {s t : Source} {bs : Bytes}

/-- What holds of data and of the items of a source holds of the items that it still has later. -/
theorem Gives.forall_items {P : Item → Prop} (h : s.Gives bs t) (hdata : ∀ left, P (.data left))
    (hs : ∀ i ∈ s.items, P i) : ∀ i ∈ t.items, P i := by
  intro i hi
  rcases h.items i hi with hmem | ⟨left, rfl⟩
  · exact hs i hmem
  · exact hdata left

theorem Gives.smooth (h : s.Gives bs t) (hs : s.IsSmooth) : t.IsSmooth :=
  h.forall_items (fun _ => rfl) hs

theorem Gives.faultless (h : s.Gives bs t) (hs : s.IsFaultless) : t.IsFaultless :=
  h.forall_items (fun _ => rfl) hs

theorem Gives.prompt (h : s.Gives bs t) (hs : s.IsPrompt) : t.IsPrompt :=
  ⟨h.live.trans hs.ended, h.forall_items (fun _ => rfl) hs.items⟩

end

theorem Gives.length {s t : Source} {bs : Bytes} (h : s.Gives bs t) :
    s.data.length = bs.length + t.data.length := by
  rw [h.data, List.length_append]

/-- A source that has given out its first bytes holds the others. -/
theorem Gives.data_eq_drop {s t : Source} {n : Nat} (h : s.Gives (s.data.take n) t) : t.data = s.data.drop n :=
  List.append_cancel_left (h.data.symm.trans (List.take_append_drop n s.data).symm)

/-- What one read answers, and the source after it, in terms of the source before it. -/
inductive ReadOutcome (n : Nat) (s : Source) : Attempt IoError Bytes → Source → Prop where
  | bytes {bs : Bytes} {t : Source} (hbs : 0 < n → bs ≠ []) (hn : bs.length ≤ n) (hgives : s.Gives bs t) :
      ReadOutcome n s (.ok bs) t
  | ended {t : Source} (hdata : s.data = []) (hlive : s.live = false) (hgives : s.Gives [] t) :
      ReadOutcome n s (.ok []) t
  | failed {e : IoError} {t : Source} (hgives : s.Gives [] t) (hfailures : t.failures < s.failures)
      (he : s.IsFaultless → e.isInterruption = true) : ReadOutcome n s (.error e) t
  | waits {t : Source} (hgives : s.Gives [] t) (hsmooth : s.IsSmooth → s.data = [] ∧ s.live = true)
      (hprompt : ¬ s.IsPrompt) : ReadOutcome n s .waiting t

theorem ReadOutcome.skip {n : Nat} {live : Bool} {i : Item} {items : List Item} {passes passes' : Nat}
    {r : Attempt IoError Bytes} {t : Source} (hi : i.bytes = []) (hf : i.isFailure = false)
    (h : ReadOutcome n ⟨items, passes', live⟩ r t) : ReadOutcome n ⟨i :: items, passes, live⟩ r t := by
  have hdata : data ⟨i :: items, passes, live⟩ = data ⟨items, passes', live⟩ := by
    simp only [data, List.flatMap_cons, hi, List.nil_append]
  have hfailures : failures ⟨i :: items, passes, live⟩ = failures ⟨items, passes', live⟩ := by
    simp only [failures, List.countP_cons, hf, Bool.false_eq_true, if_false, Nat.add_zero]
  have hsmooth : IsSmooth ⟨i :: items, passes, live⟩ → IsSmooth ⟨items, passes', live⟩ :=
    fun h j hj => h j (List.mem_cons_of_mem _ hj)
  have hfaultless : IsFaultless ⟨i :: items, passes, live⟩ → IsFaultless ⟨items, passes', live⟩ :=
    fun h j hj => h j (List.mem_cons_of_mem _ hj)
  have hprompt : IsPrompt ⟨i :: items, passes, live⟩ → IsPrompt ⟨items, passes', live⟩ :=
    fun h => ⟨h.ended, fun j hj => h.items j (List.mem_cons_of_mem _ hj)⟩
  have hgives : ∀ bs, Gives ⟨items, passes', live⟩ bs t → Gives ⟨i :: items, passes, live⟩ bs t :=
    fun bs k => ⟨hdata.trans k.data, k.live, hfailures ▸ k.failures,
      fun j hj => (k.items j hj).imp_left (List.mem_cons_of_mem _)⟩
  cases h with
  | bytes hbs hn k => exact .bytes hbs hn (hgives _ k)
  | ended hd hl k => exact .ended (hdata.trans hd) hl (hgives _ k)
  | failed k hlt he => exact .failed (hgives _ k) (hfailures ▸ hlt) (he ∘ hfaultless)
  | waits k hw hp => exact .waits (hgives _ k) (fun hs => hdata ▸ hw (hsmooth hs)) (hp ∘ hprompt)

theorem readItems_outcome (live : Bool) (n : Nat) (items : List Item) (passes : Nat) :
    ReadOutcome n ⟨items, passes, live⟩ (readItems live n items passes).1
      (readItems live n items passes).2 := by
  induction items generalizing passes with
  | nil =>
      cases live with
      | true => exact .waits (Gives.refl _) (fun _ => ⟨rfl, rfl⟩) fun h => Bool.noConfusion h.ended
      | false => exact .ended rfl rfl (Gives.refl _)
  | cons i rest ih =>
      cases i with
      | data bs =>
          cases bs with
          | nil => exact (ih passes).skip rfl rfl
          | cons b bs =>
              refine .bytes (fun hn h => ?_) (List.length_take_le _ _) ⟨?_, rfl, Nat.le_refl _, fun i hi => ?_⟩
              · cases n with
                | zero => exact absurd hn (Nat.lt_irrefl 0)
                | succ n => cases h
              · simp only [readItems, data, List.flatMap_cons, Item.bytes]
                rw [← List.append_assoc, List.take_append_drop]
              · rcases List.mem_cons.1 hi with rfl | hi
                · exact .inr ⟨_, rfl⟩
                · exact .inl (List.mem_cons_of_mem _ hi)
      | failure e =>
          refine .failed ⟨rfl, rfl, ?_, fun i hi => .inl (List.mem_cons_of_mem _ hi)⟩ ?_ ?_
          · simp [readItems, failures, List.countP_cons, Item.isFailure]
          · simp [readItems, failures, List.countP_cons, Item.isFailure]
          · exact fun h => h (.failure e) List.mem_cons_self
      | gate =>
          cases passes with
          | zero =>
              refine .waits (Gives.refl _) (fun h => ?_) fun h => ?_
              · exact absurd (h .gate List.mem_cons_self) Bool.false_ne_true
              · exact absurd (h.items .gate List.mem_cons_self) Bool.false_ne_true
          | succ passes => exact (ih passes).skip rfl rfl

theorem read_outcome {s t : Source} {n : Nat} {r : Attempt IoError Bytes} (h : s.read n = (r, t)) :
    ReadOutcome n s r t := by
  have houtcome := readItems_outcome s.live n s.items s.passes
  rw [show readItems s.live n s.items s.passes = (r, t) from h] at houtcome
  exact houtcome

end Source

namespace Reader

variable {σ : Type} [Reader σ]

/-- A read that is tried again when interrupted answers as one read does that is not interrupted, if every
interruption uses up one of those still to come. The condition `I` holds from one try to the next. -/
theorem readThrough_eq_read {I : σ → Prop} {n : Nat}
    (hstep : ∀ s e t, I s → Reader.read s n = (.error e, t) → e.isInterruption = true →
      I t ∧ Reader.interruptions t < Reader.interruptions s) {s : σ} (hs : I s) :
    ∃ t, I t ∧ readThrough s n = Reader.read t n ∧
      ∀ e, (Reader.read t n).1 = .error e → e.isInterruption = false := by
  suffices h : ∀ tries s, I s → Reader.interruptions s ≤ tries →
      ∃ t, I t ∧ readRetrying n tries s = Reader.read t n ∧
        ∀ e, (Reader.read t n).1 = .error e → e.isInterruption = false from
    h _ s hs (Nat.le_refl _)
  intro tries
  induction tries with
  | zero =>
      intro s hs hle
      refine ⟨s, hs, rfl, fun e he => ?_⟩
      cases hi : e.isInterruption with
      | false => rfl
      | true =>
          have hlt := (hstep s e (Reader.read s n).2 hs (Prod.ext he rfl) hi).2
          omega
  | succ tries ih =>
      intro s hs hle
      cases hr : Reader.read s n with
      | mk r t =>
          cases r with
          | ok bs => exact ⟨s, hs, by simp only [readRetrying, hr], by simp [hr]⟩
          | waiting => exact ⟨s, hs, by simp only [readRetrying, hr], by simp [hr]⟩
          | error e =>
              by_cases he : e.isInterruption = true
              · obtain ⟨ht, hlt⟩ := hstep s e t hs hr he
                obtain ⟨u, hu, heq, hne⟩ := ih t ht (by omega)
                exact ⟨u, hu, by simp only [readRetrying, hr, he, if_true, heq], hne⟩
              · refine ⟨s, hs, by simp only [readRetrying, hr, he]; rfl, fun e' he' => ?_⟩
                simp only [hr, Attempt.error.injEq] at he'
                rw [← he']
                simpa using he

end Reader

end FrameLink
