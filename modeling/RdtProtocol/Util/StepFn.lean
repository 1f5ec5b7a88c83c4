/-!
This module contains the runs of a guarded step function, that is one which is undefined on an event
that is not enabled, together with the induction principle for what holds along all of its runs.
-/

namespace StepFn

variable {σ ε : Type} {step : σ → ε → Option σ} {cond : σ → ε → Prop} {init : σ}

def run (step : σ → ε → Option σ) (s : σ) (es : List ε) : Option σ :=
  es.foldlM step s

/--
`cond` is asked of each event in the state that the event is performed in.
-/
inductive ReachableWhen (step : σ → ε → Option σ) (cond : σ → ε → Prop) (init : σ) : σ → Prop where
  | init : ReachableWhen step cond init init
  | step {s s' : σ} {e : ε}
      : ReachableWhen step cond init s → cond s e → step s e = some s'
          → ReachableWhen step cond init s'

abbrev Reachable (step : σ → ε → Option σ) (init : σ) : σ → Prop :=
  ReachableWhen step (fun _ _ => True) init

theorem ReachableWhen.invariant {P : σ → Prop} (hinit : P init)
    (hstep : ∀ s e s', P s → cond s e → step s e = some s' → P s')
    {s : σ} (h : ReachableWhen step cond init s)
    : P s := by
  induction h with
  | init => exact hinit
  | step _ hc hs ih => exact hstep _ _ _ ih hc hs

theorem Reachable.invariant {P : σ → Prop} (hinit : P init)
    (hstep : ∀ s e s', P s → step s e = some s' → P s')
    {s : σ} (h : Reachable step init s)
    : P s :=
  ReachableWhen.invariant hinit (fun s e s' hp _ => hstep s e s' hp) h

theorem ReachableWhen.reachable {s : σ} (h : ReachableWhen step cond init s)
    : Reachable step init s := by
  induction h with
  | init => exact .init
  | step _ _ hs ih => exact .step ih trivial hs

theorem run_cons (s : σ) (e : ε) (es : List ε)
    : run step s (e :: es) = (step s e).bind (run step · es) := by
  rfl

theorem run_concat (s : σ) (es : List ε) (e : ε)
    : run step s (es ++ [e]) = (run step s es).bind (step · e) := by
  induction es generalizing s with
  | nil =>
    rw [List.nil_append, run_cons]
    cases h : step s e <;> simp [run, h]
  | cons e' es ih =>
    rw [List.cons_append, run_cons, run_cons, Option.bind_assoc]
    congr
    funext s'
    exact ih s'

theorem run_invariant {P : σ → Prop} {Q : ε → Prop}
    (hstep : ∀ s e s', P s → Q e → step s e = some s' → P s')
    {s s' : σ} (es : List ε) (hes : ∀ e ∈ es, Q e) (hs : P s) (h : run step s es = some s')
    : P s' := by
  induction es generalizing s with
  | nil =>
    have : s = s' := Option.some.inj h
    exact this ▸ hs
  | cons e es ih =>
    rw [run_cons, Option.bind_eq_some_iff] at h
    obtain ⟨s1, hse, h⟩ := h
    apply ih _ _ h
    . intro e' he'
      exact hes e' (List.mem_cons_of_mem e he')
    . exact hstep s e s1 hs (hes e List.mem_cons_self) hse

theorem run_history {P : List ε → σ → Prop}
    (hstep : ∀ es s e s', P es s → step s e = some s' → P (es ++ [e]) s')
    {s s' : σ} {es1 : List ε} (es2 : List ε) (hs : P es1 s) (h : run step s es2 = some s')
    : P (es1 ++ es2) s' := by
  induction es2 generalizing s es1 with
  | nil =>
    have heq : s = s' := Option.some.inj h
    rw [List.append_nil]
    exact heq ▸ hs
  | cons e es2 ih =>
    rw [run_cons, Option.bind_eq_some_iff] at h
    obtain ⟨s1, hse, h⟩ := h
    rw [List.append_cons]
    exact ih (hstep es1 s e s1 hs hse) h

theorem exists_run_replicate {P : σ → Prop} {f : σ → Nat} {e : ε}
    (hstep : ∀ s s', P s → step s e = some s' → P s' ∧ f s' < f s) {s : σ} (hs : P s)
    : ∃ n ≤ f s, ∃ s', run step s (List.replicate n e) = some s' ∧ step s' e = none := by
  generalize hk : f s = k
  induction k using Nat.strongRecOn generalizing s with
  | ind k ih =>
    cases hse : step s e with
    | none => exact ⟨0, Nat.zero_le k, s, rfl, hse⟩
    | some s1 =>
      obtain ⟨hs1, hlt⟩ := hstep s s1 hs hse
      rw [hk] at hlt
      obtain ⟨n, hn, s', hrun, hend⟩ := ih (f s1) hlt hs1 rfl
      refine ⟨n + 1, Nat.lt_of_le_of_lt hn hlt, s', ?_, hend⟩
      rw [List.replicate_succ, run_cons, hse]
      exact hrun

theorem reachable_of_run {s s' : σ} (es : List ε) (hs : Reachable step init s)
    (h : run step s es = some s')
    : Reachable step init s' :=
  run_invariant (Q := fun _ => True) (fun _ _ _ hs _ hstep => .step hs trivial hstep) es
    (fun _ _ => trivial) hs h

/--
`P` holds of every step of the run that `es` describes.
-/
def Along (step : σ → ε → Option σ) (P : σ → ε → σ → Prop) (s : σ) (es : List ε) : Prop :=
  ∀ es1 e es2 s1 s2, es = es1 ++ e :: es2 → run step s es1 = some s1 → step s1 e = some s2
    → P s1 e s2

theorem along_congr {P Q : σ → ε → σ → Prop}
    (h : ∀ s e s', Reachable step init s → step s e = some s' → (P s e s' ↔ Q s e s'))
    (es : List ε)
    : Along step P init es ↔ Along step Q init es := by
  constructor
  . intro hP es1 e es2 s1 s2 hes hrun hstep
    apply (h s1 e s2 (reachable_of_run es1 .init hrun) hstep).mp
    exact hP es1 e es2 s1 s2 hes hrun hstep
  . intro hQ es1 e es2 s1 s2 hes hrun hstep
    apply (h s1 e s2 (reachable_of_run es1 .init hrun) hstep).mpr
    exact hQ es1 e es2 s1 s2 hes hrun hstep

theorem Along.left {P : σ → ε → σ → Prop} {s : σ} {es1 es2 : List ε}
    (h : Along step P s (es1 ++ es2))
    : Along step P s es1 := by
  intro es3 e es4 s1 s2 hes
  apply h es3 e (es4 ++ es2)
  rw [hes, List.append_assoc, List.cons_append]

def Throughout (step : σ → ε → Option σ) (cond : σ → ε → Prop) (s : σ) (es : List ε) : Prop :=
  ∀ es1 e es2 s1, es = es1 ++ e :: es2 → run step s es1 = some s1 → cond s1 e

theorem throughout_nil (s : σ) : Throughout step cond s [] := by
  intro es1 e es2 s1 hes
  simp at hes

theorem throughout_cons {s : σ} {e : ε} {es : List ε}
    : Throughout step cond s (e :: es)
        ↔ cond s e ∧ ∀ s1, step s e = some s1 → Throughout step cond s1 es := by
  constructor
  . intro h
    constructor
    . exact h [] e es s rfl rfl
    . intro s1 hstep es1 e1 es2 s2 hes hrun
      apply h (e :: es1) e1 es2 s2
      . rw [hes, List.cons_append]
      . rw [run_cons, hstep]
        exact hrun
  . intro ⟨hc, h⟩ es1 e1 es2 s2 hes hrun
    cases es1 with
    | nil =>
      injection hes with he _
      have hs : s = s2 := Option.some.inj hrun
      rw [← he, ← hs]
      exact hc
    | cons e' es1 =>
      injection hes with he hes
      rw [← he, run_cons, Option.bind_eq_some_iff] at hrun
      obtain ⟨s1, hstep, hrun⟩ := hrun
      exact h s1 hstep es1 e1 es2 s2 hes hrun

theorem run_isSome_iff {P : σ → Prop} (hstep : ∀ s e s', P s → step s e = some s' → P s')
    (hiff : ∀ s e, P s → ((step s e).isSome = true ↔ cond s e)) {s : σ} (hs : P s) (es : List ε)
    : (run step s es).isSome = true ↔ Throughout step cond s es := by
  induction es generalizing s with
  | nil => exact iff_of_true rfl (throughout_nil s)
  | cons e es ih =>
    rw [throughout_cons, ← hiff s e hs, run_cons]
    cases h : step s e with
    | none => simp
    | some s1 =>
      rw [Option.bind_some, ih (hstep s e s1 hs h)]
      simp

theorem reachableWhen_of_along {s s' : σ} (es : List ε) (hs : ReachableWhen step cond init s)
    (hcond : Along step (fun s e _ => cond s e) s es) (h : run step s es = some s')
    : ReachableWhen step cond init s' := by
  induction es generalizing s with
  | nil =>
    have : s = s' := Option.some.inj h
    exact this ▸ hs
  | cons e es ih =>
    rw [run_cons, Option.bind_eq_some_iff] at h
    obtain ⟨s1, hstep, h⟩ := h
    apply ih (.step hs (hcond [] e es s s1 rfl rfl hstep) hstep) _ h
    intro es1 e1 es2 s2 s3 hes hrun
    apply hcond (e :: es1) e1 es2 s2 s3
    . rw [hes, List.cons_append]
    . rw [run_cons, hstep]
      exact hrun

theorem reachable_get_run (es : List ε) (h : (run step init es).isSome)
    : Reachable step init ((run step init es).get h) :=
  reachable_of_run es .init (Option.some_get h).symm

def guarded (step : σ → ε → Option σ) (cond : σ → ε → Prop) [∀ s e, Decidable (cond s e)] (s : σ)
    (e : ε)
    : Option σ :=
  if cond s e then step s e else none

theorem reachableWhen_of_guarded [∀ s e, Decidable (cond s e)] {s : σ}
    (h : Reachable (guarded step cond) init s)
    : ReachableWhen step cond init s := by
  apply Reachable.invariant .init _ h
  intro s e s' hs hstep
  simp only [guarded, Option.ite_none_right_eq_some] at hstep
  exact .step hs hstep.1 hstep.2

theorem run_rel {τ : Type} {step' : τ → ε → Option τ} {R : σ → τ → Prop} {Q : ε → Prop}
    (hstep : ∀ s t e, R s t → Q e → Option.Rel R (step s e) (step' t e)) {s : σ} {t : τ}
    (es : List ε) (hes : ∀ e ∈ es, Q e) (h : R s t)
    : Option.Rel R (run step s es) (run step' t es) := by
  induction es generalizing s t with
  | nil => exact .some h
  | cons e es ih =>
    have hrel := hstep s t e h (hes e List.mem_cons_self)
    rw [run_cons, run_cons]
    cases hs : step s e with
    | none =>
      rw [hs] at hrel
      cases ht : step' t e with
      | none => exact .none
      | some t' =>
        rw [ht] at hrel
        cases hrel
    | some s' =>
      rw [hs] at hrel
      cases ht : step' t e with
      | none =>
        rw [ht] at hrel
        cases hrel
      | some t' =>
        rw [ht] at hrel
        cases hrel with
        | some hrel => exact ih (fun e' he' => hes e' (List.mem_cons_of_mem e he')) hrel

theorem run_append (s : σ) (es1 es2 : List ε)
    : run step s (es1 ++ es2) = (run step s es1).bind (run step · es2) := by
  induction es1 generalizing s with
  | nil => rfl
  | cons e es1 ih =>
    rw [List.cons_append, run_cons, run_cons, Option.bind_assoc]
    congr
    funext s'
    exact ih s'

def CanReach (step : σ → ε → Option σ) (s : σ) (Q : σ → Prop) : Prop :=
  ∃ es s', run step s es = some s' ∧ Q s'

namespace CanReach

variable {P Q : σ → Prop} {s s' : σ} {e : ε}

theorem refl (h : Q s) : CanReach step s Q :=
  ⟨[], s, rfl, h⟩

theorem of_step (hstep : step s e = some s') (h : CanReach step s' Q) : CanReach step s Q := by
  obtain ⟨es, s'', hrun, hq⟩ := h
  refine ⟨e :: es, s'', ?_, hq⟩
  rw [run_cons, hstep]
  exact hrun

theorem trans (h : CanReach step s P) (hP : ∀ s', P s' → CanReach step s' Q) : CanReach step s Q := by
  obtain ⟨es1, s1, hrun1, hp⟩ := h
  obtain ⟨es2, s2, hrun2, hq⟩ := hP s1 hp
  refine ⟨es1 ++ es2, s2, ?_, hq⟩
  rw [run_append, hrun1]
  exact hrun2

theorem of_progress {f : σ → Nat}
    (hstep : ∀ s, P s → ¬ Q s → CanReach step s (fun s' => P s' ∧ f s' < f s)) (hs : P s)
    : CanReach step s (fun s' => P s' ∧ Q s') := by
  generalize hk : f s = k
  induction k using Nat.strongRecOn generalizing s with
  | ind k ih =>
    by_cases hq : Q s
    . exact refl ⟨hs, hq⟩
    . apply (hstep s hs hq).trans
      intro s' hs'
      exact ih (f s') (hk ▸ hs'.2) hs'.1 rfl

theorem imp (h : CanReach step s P) (hPQ : ∀ s', P s' → Q s') : CanReach step s Q := by
  obtain ⟨es, s', hrun, hp⟩ := h
  exact ⟨es, s', hrun, hPQ s' hp⟩

theorem follow {τ ε' : Type} {step' : τ → ε' → Option τ} {R : σ → τ → Prop}
    (hstep : ∀ s t e t', R s t → step' t e = some t' → CanReach step s (R · t')) {t t' : τ}
    (es : List ε') (hrun : run step' t es = some t') (hs : R s t)
    : CanReach step s (R · t') := by
  induction es generalizing s t with
  | nil =>
    have heq : t = t' := Option.some.inj hrun
    exact refl (heq ▸ hs)
  | cons e es ih =>
    rw [run_cons, Option.bind_eq_some_iff] at hrun
    obtain ⟨t1, hte, hrun⟩ := hrun
    apply (hstep s t e t1 hs hte).trans
    intro s1 hs1
    exact ih hrun hs1

theorem not_of_invariant (hstep : ∀ s e s', P s → step s e = some s' → P s')
    (hPQ : ∀ s, P s → ¬ Q s) (hs : P s)
    : ¬ CanReach step s Q := by
  intro ⟨es, s', hrun, hq⟩
  have hs' : P s' :=
    run_invariant (Q := fun _ => True) (fun s e s' hs _ => hstep s e s' hs) es (fun _ _ => trivial) hs
      hrun
  exact hPQ s' hs' hq

end CanReach

theorem ReachableWhen.simulation {τ ε' : Type} {step' : τ → ε' → Option τ} {init' : τ}
    {R : σ → τ → Prop} (hinit : R init init')
    (hstep : ∀ s e s' t, R s t → Reachable step' init' t → cond s e → step s e = some s'
      → CanReach step' t (R s'))
    {s : σ} (h : ReachableWhen step cond init s)
    : ∃ t, Reachable step' init' t ∧ R s t := by
  apply h.invariant (P := fun s => ∃ t, Reachable step' init' t ∧ R s t)
  . exact ⟨init', .init, hinit⟩
  . intro s e s' hs hcond hse
    obtain ⟨t, ht, hrel⟩ := hs
    obtain ⟨es, t', hrun, hrel'⟩ := hstep s e s' t hrel ht hcond hse
    exact ⟨t', reachable_of_run es ht hrun, hrel'⟩

end StepFn
