import FrameLink.Proofs.Misuse
import Mathlib.Data.List.Induction

/-! Links in any number of layers, each of which does anything of its own after closing that leaves the link
alone. The layers are numbered from the inside, and the link itself is at level zero. A call may be made at
any level. -/

namespace FrameLink

/-- What a layer that is told of a failure by `Layer.failure` does after closing. -/
def Layer.own (y : Layer) (_ : Unit) : Except LinkError Unit × Layer × Unit :=
  (match y.failure with
    | none => .ok ()
    | some e => .error e,
   { y with runs := y.runs + 1 }, ())

namespace Stack

/-- The layers, from the innermost to the outermost. -/
def layers : Stack → List Layer
  | .link _ => []
  | .layer y inner => inner.layers ++ [y]

/-- A link in layers, given from the innermost to the outermost. -/
def wrap (l : Link) (ys : List Layer) : Stack :=
  ys.foldl (fun s y => .layer y s) (.link l)

/-- The answer of something done after closing. -/
def told (r : Except LinkError Unit) : Attempt LinkError Reply :=
  (Attempt.ofExcept r).map fun _ => .done

/-- The first of several answers that is a failure. -/
def firstFailure : List (Attempt LinkError Reply) → Attempt LinkError Reply
  | [] => .ok .done
  | .ok _ :: rs => firstFailure rs
  | r :: _ => r

theorem firstFailure_concat (rs : List (Attempt LinkError Reply)) (own : Except LinkError Unit) :
    firstFailure (rs ++ [told own]) = firstFailure [firstFailure rs, told own] := by
  induction rs with
  | nil => cases own <;> rfl
  | cons r rs ih =>
      cases r with
      | ok a => exact ih
      | _ => rfl

@[simp] theorem wrap_concat (l : Link) (ys : List Layer) (y : Layer) : wrap l (ys ++ [y]) = .layer y (wrap l ys) := by
  rw [wrap, List.foldl_append]
  rfl

@[simp] theorem base_wrap (l : Link) (ys : List Layer) : (wrap l ys).base = l := by
  induction ys using List.reverseRecOn with
  | nil => rfl
  | append_singleton ys y ih => rwa [wrap_concat]

@[simp] theorem layers_wrap (l : Link) (ys : List Layer) : (wrap l ys).layers = ys := by
  induction ys using List.reverseRecOn with
  | nil => rfl
  | append_singleton ys y ih => rw [wrap_concat, layers, ih]

@[simp] theorem modifyBase_wrap (f : Link → Link) (l : Link) (ys : List Layer) :
    (wrap l ys).modifyBase f = wrap (f l) ys := by
  induction ys using List.reverseRecOn with
  | nil => rfl
  | append_singleton ys y ih => rw [wrap_concat, wrap_concat, modifyBase, ih]

@[simp] theorem layers_modifyBase (f : Link → Link) (s : Stack) : (s.modifyBase f).layers = s.layers := by
  induction s with
  | link l => rfl
  | layer y inner ih => exact congrArg (· ++ [y]) ih

section

variable {ω : Type} (after : Layer → ω → Except LinkError Unit × Layer × ω)

/-- What layers do one after the other in surroundings that they may change: the outcomes, and the layers and
the surroundings afterwards. -/
def doAll : List Layer → ω → List (Except LinkError Unit) × List Layer × ω
  | [], w => ([], [], w)
  | y :: ys, w =>
    match after y w with
    | (r, y', w') =>
      match doAll ys w' with
      | (rs, ys', w'') => (r :: rs, y' :: ys', w'')

/-- A call by a thread on the outermost layer, where `after` is what a layer does after closing. -/
def callIn (me : Thread) (c : Call) : Stack → ω → Attempt LinkError Reply × Stack × ω
  | .link l, w =>
    match l.call me c with
    | (r, l') => (r, .link l', w)
  | .layer y inner, w =>
    match inner.callIn me c w with
    | (r, inner', w') =>
      if c = .close ∧ inner.base.closed = false then
        match after y w' with
        | (own, y', w'') => (firstFailure [r, told own], .layer y' inner', w'')
      else
        (r, .layer y inner', w')

/-- A call on the layer at a level. -/
def callAt (level : Nat) (me : Thread) (c : Call) : Stack → ω → Attempt LinkError Reply × Stack × ω
  | .link l, w => callIn after me c (.link l) w
  | .layer y inner, w =>
    if inner.layers.length < level then
      callIn after me c (.layer y inner) w
    else
      match inner.callAt level me c w with
      | (r, inner', w') => (r, .layer y inner', w')

end

/-- A call by a thread at a level, and what has happened around the link since the call before. -/
structure Issue where
  level : Nat
  thread : Thread
  call : Call
  around : Link → Link := id
  keeps : ∀ l, (around l).closed = l.closed := by exact fun _ => rfl

section

variable {ω : Type} (after : Layer → ω → Except LinkError Unit × Layer × ω)

/-- The answers to calls that are made one after the other. -/
def run : List Issue → Stack → ω → List (Attempt LinkError Reply) × Stack × ω
  | [], s, w => ([], s, w)
  | i :: issues, s, w =>
    match (s.modifyBase i.around).callAt after i.level i.thread i.call w with
    | (r, s', w') =>
      match run issues s' w' with
      | (rs, s'', w'') => (r :: rs, s'', w'')

end

/-- The answers to the same calls when all of them are made on the link itself. -/
def runBase : List Issue → Link → List (Attempt LinkError Reply) × Link
  | [], l => ([], l)
  | i :: issues, l =>
    match (i.around l).call i.thread i.call with
    | (r, l') =>
      match runBase issues l' with
      | (rs, l'') => (r :: rs, l'')

section

variable {ω : Type} {after : Layer → ω → Except LinkError Unit × Layer × ω} {s : Stack} {me : Thread} {c : Call}

theorem doAll_concat (ys : List Layer) (y : Layer) (w : ω) :
    doAll after (ys ++ [y]) w =
      ((doAll after ys w).1 ++ [(after y (doAll after ys w).2.2).1],
        (doAll after ys w).2.1 ++ [(after y (doAll after ys w).2.2).2.1],
        (after y (doAll after ys w).2.2).2.2) := by
  induction ys generalizing w with
  | nil => rfl
  | cons x xs ih => simp only [List.cons_append, doAll, ih]

/-- A call that does not close an open link is passed on by all layers. -/
theorem callIn_of_quiet (h : c ≠ .close ∨ s.base.closed = true) (w : ω) :
    callIn after me c s w = ((s.base.call me c).1, s.modifyBase fun _ => (s.base.call me c).2, w) := by
  induction s with
  | link l => rfl
  | layer y inner ih =>
      have hquiet : ¬ (c = .close ∧ inner.base.closed = false) := by
        rintro ⟨hc, hopen⟩
        exact h.elim (· hc) fun hclosed => nomatch hopen.symm.trans hclosed
      simp only [callIn, ih h, if_neg hquiet]
      rfl

/-- Closing an open link closes it and lets every layer do what it does then, from the inside. -/
theorem callIn_close (hopen : s.base.closed = false) (w : ω) :
    callIn after me .close s w =
      (firstFailure ((s.base.call me .close).1 :: (doAll after s.layers w).1.map told),
        wrap (s.base.call me .close).2 (doAll after s.layers w).2.1, (doAll after s.layers w).2.2) := by
  induction s with
  | link l =>
      have hclose : firstFailure [(l.call me .close).1] = (l.call me .close).1 := by
        simp only [Link.call, Link.close]
        split
        · rfl
        · cases l.hook.run.1 <;> rfl
      exact congrArg (·, Stack.link (l.call me .close).2, w) hclose.symm
  | layer y inner ih =>
      have hopen : inner.base.closed = false := hopen
      simp only [callIn, ih hopen, hopen, and_self, if_true, layers, doAll_concat, List.map_append, List.map_cons,
        List.map_nil, wrap_concat, ← List.cons_append, firstFailure_concat]
      rfl

theorem callAt_of_quiet (level : Nat) (h : c ≠ .close ∨ s.base.closed = true) (w : ω) :
    callAt after level me c s w = ((s.base.call me c).1, s.modifyBase fun _ => (s.base.call me c).2, w) := by
  induction s with
  | link l => exact callIn_of_quiet h w
  | layer y inner ih =>
      rw [callAt]
      split
      · exact callIn_of_quiet h w
      · rw [ih h]
        rfl

theorem callAt_close (level : Nat) (hopen : s.base.closed = false) (w : ω) :
    callAt after level me .close s w =
      (firstFailure ((s.base.call me .close).1 :: (doAll after (s.layers.take level) w).1.map told),
        wrap (s.base.call me .close).2 ((doAll after (s.layers.take level) w).2.1 ++ s.layers.drop level),
        (doAll after (s.layers.take level) w).2.2) := by
  induction s with
  | link l =>
      rw [callAt, callIn_close hopen, layers, List.take_nil, List.drop_nil, List.append_nil]
  | layer y inner ih =>
      rw [callAt]
      split
      · rename_i hlevel
        have hall : (Stack.layer y inner).layers.length ≤ level := by
          rw [layers, List.length_append]
          exact hlevel
        rw [callIn_close hopen, List.take_of_length_le hall, List.drop_of_length_le hall, List.append_nil]
      · rename_i hlevel
        have hlevel : level ≤ inner.layers.length := Nat.le_of_not_lt hlevel
        rw [ih hopen, layers, List.take_append_of_le_length hlevel, List.drop_append_of_le_length hlevel,
          ← List.append_assoc, wrap_concat]
        rfl

theorem callAt_layers_length (s : Stack) (w : ω) :
    callAt after s.layers.length me c s w = callIn after me c s w := by
  cases s with
  | link l => rfl
  | layer y inner =>
      rw [callAt, if_pos]
      rw [layers, List.length_append]
      exact Nat.lt_succ_self _

theorem afterClose_eq (y : Layer) (r : Attempt LinkError Reply) :
    y.afterClose r = (firstFailure [r, told (y.own ()).1], (y.own ()).2.1) := by
  unfold Layer.afterClose Layer.own
  cases r <;> cases y.failure <;> rfl

/-- In a call that is run, every layer does what it does of its own. -/
theorem callIn_own (s : Stack) (me : Thread) (c : Call) :
    callIn Layer.own me c s () = ((s.call me c).1, (s.call me c).2, ()) := by
  induction s with
  | link l => rfl
  | layer y inner ih =>
      simp only [callIn, ih, call, afterClose_eq]
      split <;> rfl

theorem base_callAt (level : Nat) (s : Stack) (w : ω) :
    (callAt after level me c s w).2.1.base = (s.base.call me c).2 := by
  by_cases h : c ≠ .close ∨ s.base.closed = true
  · rw [callAt_of_quiet level h, base_modifyBase]
  · rw [not_or, not_not, Bool.not_eq_true] at h
    obtain ⟨rfl, hopen⟩ := h
    rw [callAt_close level hopen, base_wrap]

theorem base_run (issues : List Issue) (s : Stack) (w : ω) :
    (run after issues s w).2.1.base = (runBase issues s.base).2 := by
  induction issues generalizing s w with
  | nil => rfl
  | cons i issues ih =>
      simp only [run, runBase, ih, base_callAt, base_modifyBase]

theorem run_answer (issues : List Issue) (s : Stack) (w : ω) {n : Nat} {i : Issue} (hi : issues[n]? = some i)
    (hc : i.call ≠ .close) : (run after issues s w).1[n]? = (runBase issues s.base).1[n]? := by
  induction issues generalizing s w n with
  | nil => cases hi
  | cons j issues ih =>
      cases n with
      | zero =>
          obtain rfl : j = i := Option.some.inj hi
          simp only [run, runBase, callAt_of_quiet j.level (.inl hc), base_modifyBase, List.getElem?_cons_zero]
      | succ n =>
          simp only [run, runBase, List.getElem?_cons_succ, ih _ _ hi, base_callAt, base_modifyBase]

/-- As long as nobody closes an open link, no layer does anything. -/
theorem run_of_quiet (issues : List Issue) (w : ω) (h : s.base.closed = true ∨ ∀ i ∈ issues, i.call ≠ .close) :
    run after issues s w =
      ((runBase issues s.base).1, s.modifyBase fun _ => (runBase issues s.base).2, w) := by
  induction issues generalizing s with
  | nil => rw [run, runBase, modifyBase_base]
  | cons i issues ih =>
      have hquiet : i.call ≠ .close ∨ (s.modifyBase i.around).base.closed = true := by
        rw [base_modifyBase, i.keeps]
        exact h.symm.imp_left fun h => h i List.mem_cons_self
      have hnext : ((s.modifyBase i.around).base.call i.thread i.call).2.closed = true ∨
          ∀ j ∈ issues, j.call ≠ .close := by
        refine h.imp (fun hclosed => ?_) fun h j hj => h j (List.mem_cons_of_mem _ hj)
        refine Link.closed_call ?_ _ _
        rw [base_modifyBase, i.keeps, hclosed]
      simp only [run, runBase, callAt_of_quiet i.level hquiet, base_modifyBase, modifyBase_modifyBase] at hnext ⊢
      rw [ih (by rwa [base_modifyBase]), base_modifyBase, modifyBase_modifyBase]

theorem run_append (before issues : List Issue) (s : Stack) (w : ω) :
    run after (before ++ issues) s w =
      ((run after before s w).1 ++ (run after issues (run after before s w).2.1 (run after before s w).2.2).1,
        (run after issues (run after before s w).2.1 (run after before s w).2.2).2) := by
  induction before generalizing s w with
  | nil => rfl
  | cons i before ih => simp only [List.cons_append, run, ih]

theorem length_runBase (issues : List Issue) (l : Link) : (runBase issues l).1.length = issues.length := by
  induction issues generalizing l with
  | nil => rfl
  | cons i issues ih => exact congrArg (· + 1) (ih _)

theorem closed_around (i : Issue) {l : Link} (hclosed : l.closed = true) :
    ((i.around l).call i.thread i.call).2.closed = true :=
  Link.closed_call ((i.keeps l).trans hclosed) _ _

theorem closed_runBase_of_ne_close (issues : List Issue) (l : Link) (h : ∀ i ∈ issues, i.call ≠ .close) :
    (runBase issues l).2.closed = l.closed := by
  induction issues generalizing l with
  | nil => rfl
  | cons i issues ih =>
      rw [← i.keeps l, ← (Link.call_frame (i.around l) i.thread (h i List.mem_cons_self)).1]
      exact ih _ fun j hj => h j (List.mem_cons_of_mem _ hj)

/-- To close a link that has been closed is answered, and does nothing. -/
theorem runBase_close (issues : List Issue) {l : Link} (hclosed : l.closed = true) {n : Nat} {i : Issue}
    (hi : issues[n]? = some i) (hc : i.call = .close) : (runBase issues l).1[n]? = some (.ok .done) := by
  induction issues generalizing l n with
  | nil => cases hi
  | cons j issues ih =>
      cases n with
      | zero =>
          obtain rfl : j = i := Option.some.inj hi
          have haround : (j.around l).closed = true := (j.keeps l).trans hclosed
          simp only [runBase, hc, Link.call, Link.close, haround, if_true, List.getElem?_cons_zero]
          rfl
      | succ n => exact ih (closed_around j hclosed) hi

/-- The first close of an open link closes it and lets the layers up to its level do what they do then. -/
theorem run_close {before rest : List Issue} {i : Issue} (w : ω) (hopen : s.base.closed = false)
    (hbefore : ∀ j ∈ before, j.call ≠ .close) (hi : i.call = .close) :
    let closing := (i.around (runBase before s.base).2).call i.thread .close
    let done := doAll after (s.layers.take i.level) w
    run after (before ++ i :: rest) s w =
      ((runBase before s.base).1 ++ firstFailure (closing.1 :: done.1.map told) :: (runBase rest closing.2).1,
        wrap (runBase rest closing.2).2 (done.2.1 ++ s.layers.drop i.level), done.2.2) := by
  intro closing done
  have hopen : (i.around (runBase before s.base).2).closed = false := by
    rw [i.keeps, closed_runBase_of_ne_close before s.base hbefore, hopen]
  have hrest : ∀ ys w', run after rest (wrap closing.2 ys) w' =
      ((runBase rest closing.2).1, wrap (runBase rest closing.2).2 ys, w') := by
    intro ys w'
    have hclosed : (wrap closing.2 ys).base.closed = true := by
      rw [base_wrap]
      exact Link.closed_close i.thread _
    rw [run_of_quiet rest w' (.inl hclosed), base_wrap, modifyBase_wrap]
  rw [run_append, run_of_quiet before w (.inr hbefore), run, hi, callAt_close i.level, base_modifyBase,
    base_modifyBase, layers_modifyBase, layers_modifyBase]
  · simp only [hrest, closing, done]
  · rw [base_modifyBase, base_modifyBase, hopen]

/-- Layers pass on every call but the one that closes the link, and leave it as it would be without them. When an
open link is closed at a level, the link is closed and the layers up to that level do what they do after that, each
once and from the inside, whatever comes of it; the first failure among these is the answer. Nothing is done when it
is closed again. What is run is the call on the outermost layer with what the layers do of their own. -/
theorem run_transparent (after : Layer → ω → Except LinkError Unit × Layer × ω) (s : Stack) (w : ω) :
    (∀ me c, callAt Layer.own s.layers.length me c s () = ((s.call me c).1, (s.call me c).2, ())) ∧
    (∀ issues, (run after issues s w).2.1.base = (runBase issues s.base).2) ∧
    (∀ (issues : List Issue) (n : Nat) (i : Issue), issues[n]? = some i → i.call ≠ .close →
      (run after issues s w).1[n]? = (runBase issues s.base).1[n]?) ∧
    (∀ issues : List Issue, (∀ i ∈ issues, i.call ≠ .close) →
      (run after issues s w).2.1.layers = s.layers ∧ (run after issues s w).2.2 = w) ∧
    (∀ issues : List Issue, s.base.closed = true →
      (run after issues s w).2.1.layers = s.layers ∧ (run after issues s w).2.2 = w ∧
      ∀ (n : Nat) (i : Issue), issues[n]? = some i → i.call = .close →
        (run after issues s w).1[n]? = some (.ok .done)) ∧
    ∀ (before : List Issue) (i : Issue) (rest : List Issue), s.base.closed = false → (∀ j ∈ before, j.call ≠ .close) →
      i.call = .close →
      let closing := (i.around (runBase before s.base).2).call i.thread .close
      let done := doAll after (s.layers.take i.level) w
      let ran := run after (before ++ i :: rest) s w
      closing.2.closed = true ∧
      ran.1[before.length]? = some (firstFailure (closing.1 :: done.1.map told)) ∧
      ran.2.1.layers = done.2.1 ++ s.layers.drop i.level ∧ ran.2.2 = done.2.2 ∧
      ∀ (n : Nat) (j : Issue), rest[n]? = some j → j.call = .close →
        ran.1[before.length + 1 + n]? = some (.ok .done) := by
  refine ⟨fun me c => ?_, fun issues => base_run issues s w, fun issues n i => run_answer issues s w,
    fun issues h => ?_, fun issues hclosed => ?_, ?_⟩
  · rw [callAt_layers_length, callIn_own]
  · rw [run_of_quiet issues w (.inr h)]
    exact ⟨layers_modifyBase _ _, rfl⟩
  · rw [run_of_quiet issues w (.inl hclosed)]
    exact ⟨layers_modifyBase _ _, rfl, fun n i hi hc => runBase_close issues hclosed hi hc⟩
  · intro before i rest hopen hbefore hi closing done ran
    have hran : ran = _ := run_close w hopen hbefore hi
    have hlength : (runBase before s.base).1.length = before.length := length_runBase _ _
    rw [hran]
    refine ⟨Link.closed_close _ _, ?_, layers_wrap _ _, rfl, fun n j hj hc => ?_⟩
    · rw [← hlength, List.getElem?_append_right (Nat.le_refl _), Nat.sub_self, List.getElem?_cons_zero]
    · rw [← hlength, List.append_cons, List.getElem?_append_right (by simp)]
      simpa using runBase_close rest (Link.closed_close i.thread _) hj hc

/-- Two layers note that they are told, of which the inner one fails. A thread that is writing closes the outer one. -/
theorem run_transparent_two_layers :
    let inner : Layer := { name := "inner", failure := some (.codec "inner" none) }
    let outer : Layer := { name := "outer" }
    let note (y : Layer) (names : List String) : Except LinkError Unit × Layer × List String :=
      ((y.own ()).1, (y.own ()).2.1, names ++ [y.name])
    let s := wrap (Link.new {} {} ⟨[], 0, false⟩ {}) [inner, outer]
    let ran := run note ([⟨2, 0, .beginWrite 1, id, fun _ => rfl⟩] ++ ⟨2, 0, .close, id, fun _ => rfl⟩ ::
      [⟨0, 1, .close, id, fun _ => rfl⟩]) s []
    s.base.closed = false ∧ ran.1[1]? = some (.error (.codec "inner" none)) ∧ ran.2.2 = ["inner", "outer"] ∧
      ran.1[1 + 1 + 0]? = some (.ok .done) := by
  intro inner outer note s ran
  have hclosing := (run_transparent note s []).2.2.2.2.2 [⟨2, 0, .beginWrite 1, id, fun _ => rfl⟩]
    ⟨2, 0, .close, id, fun _ => rfl⟩ [⟨0, 1, .close, id, fun _ => rfl⟩] rfl (by simp) rfl
  exact ⟨rfl, hclosing.2.1, hclosing.2.2.2.1, hclosing.2.2.2.2 0 _ rfl rfl⟩

end

end Stack

end FrameLink
