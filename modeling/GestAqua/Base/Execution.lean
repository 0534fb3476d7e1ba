import Mathlib.Algebra.Ring.Nat
import Mathlib.Data.List.Basic

/-!
Executions of a labelled machine given by a partial step function.

A machine is `step : σ → ε → Option σ`: the label says which party moves and
carries every choice the environment makes, `none` says that the label is not
enabled. A run is the list of its labels, so a concrete run is evaluated and a
claim about all runs is a claim about all lists.

Three judgments are used about a run. `exec` is the state it ends in, `Meets`
says that every label was taken in a state that satisfies a guard, and `Always`
says that a predicate held in every state on the way. `exec_invariant` and
`always_of_guarded` are the two induction rules, and `exec_reaches` the rule for
what a run can be made to reach; `exec_simulates` finds the runs of a machine among
those of another, and `always_iff_meets` characterises the runs along which a
predicate survives by the guard that protects it.
-/

namespace GestAqua.Execution

variable {σ ε : Type*}

/-- The state reached by taking the labels of a run in order. -/
def exec (step : σ → ε → Option σ) : σ → List ε → Option σ
  | s, [] => some s
  | s, e :: es => (step s e).bind fun t => exec step t es

/-- Every label of the run is taken in a state that satisfies `G`. -/
def Meets (step : σ → ε → Option σ) (G : σ → ε → Prop) : σ → List ε → Prop
  | _, [] => True
  | s, e :: es => G s e ∧ match step s e with
    | some t => Meets step G t es
    | none => True

instance Meets.decidable (step : σ → ε → Option σ) (G : σ → ε → Prop)
    [∀ s e, Decidable (G s e)] : ∀ s es, Decidable (Meets step G s es)
  | _, [] => isTrue trivial
  | s, e :: es =>
    have : Decidable (match step s e with
        | some t => Meets step G t es
        | none => True) :=
      match step s e with
      | some t => Meets.decidable step G t es
      | none => isTrue trivial
    inferInstanceAs (Decidable (_ ∧ _))

/-- Every state the run goes through, the first and the last included,
satisfies `P`. -/
def Always (step : σ → ε → Option σ) (P : σ → Prop) : σ → List ε → Prop
  | s, [] => P s
  | s, e :: es => P s ∧ match step s e with
    | some t => Always step P t es
    | none => True

variable {step : σ → ε → Option σ}

@[simp] theorem exec_nil (s : σ) : exec step s [] = some s := rfl

theorem exec_cons_eq_some {s u : σ} {e : ε} {es : List ε} :
    exec step s (e :: es) = some u ↔ ∃ t, step s e = some t ∧ exec step t es = some u := by
  simp [exec, Option.bind_eq_some_iff]

theorem exec_append (s : σ) (es fs : List ε) :
    exec step s (es ++ fs) = (exec step s es).bind fun t => exec step t fs := by
  induction es generalizing s with
  | nil => rfl
  | cons e es ih => simp [exec, Option.bind_assoc, ih]

theorem exec_append_eq_some {s u : σ} {es fs : List ε} :
    exec step s (es ++ fs) = some u ↔
      ∃ t, exec step s es = some t ∧ exec step t fs = some u := by
  rw [exec_append, Option.bind_eq_some_iff]

theorem exec_concat {s t u : σ} {e : ε} {es : List ε} (h : exec step s es = some t)
    (he : step t e = some u) : exec step s (es ++ [e]) = some u :=
  exec_append_eq_some.mpr ⟨t, h, exec_cons_eq_some.mpr ⟨u, he, rfl⟩⟩

theorem meets_cons_of_step {G : σ → ε → Prop} {s t : σ} {e : ε} {es : List ε}
    (h : step s e = some t) :
    Meets step G s (e :: es) ↔ G s e ∧ Meets step G t es := by
  simp [Meets, h]

theorem always_cons_of_step {P : σ → Prop} {s t : σ} {e : ε} {es : List ε}
    (h : step s e = some t) :
    Always step P s (e :: es) ↔ P s ∧ Always step P t es := by
  simp [Always, h]

theorem exec_of_total (h : ∀ s e, ∃ t, step s e = some t) (s : σ) (es : List ε) :
    ∃ t, exec step s es = some t := by
  induction es generalizing s with
  | nil => exact ⟨s, rfl⟩
  | cons e es ih =>
      obtain ⟨r, hr⟩ := h s e
      obtain ⟨t, ht⟩ := ih r
      exact ⟨t, exec_cons_eq_some.mpr ⟨r, hr, ht⟩⟩

theorem Always.first {P : σ → Prop} {s : σ} {es : List ε} (h : Always step P s es) : P s := by
  cases es with
  | nil => exact h
  | cons e es => exact h.1

theorem Always.last {P : σ → Prop} {s t : σ} {es : List ε} (h : Always step P s es)
    (hes : exec step s es = some t) : P t := by
  induction es generalizing s with
  | nil =>
      obtain rfl : s = t := by simpa using hes
      exact h
  | cons e es ih =>
      obtain ⟨r, hr, hes⟩ := exec_cons_eq_some.mp hes
      exact ih ((always_cons_of_step hr).mp h).2 hes

theorem Always.get {P : σ → Prop} {s : σ} {es : List ε} (h : Always step P s es)
    (hes : (exec step s es).isSome = true) : P ((exec step s es).get hes) :=
  h.last (Option.some_get hes).symm

theorem meets_true (s : σ) (es : List ε) : Meets step (fun _ _ => True) s es := by
  induction es generalizing s with
  | nil => trivial
  | cons e es ih =>
      refine ⟨trivial, ?_⟩
      cases step s e with
      | none => trivial
      | some t => exact ih t

theorem Meets.and {G H : σ → ε → Prop} {s : σ} {es : List ε} (hG : Meets step G s es)
    (hH : Meets step H s es) : Meets step (fun s e => G s e ∧ H s e) s es := by
  induction es generalizing s with
  | nil => trivial
  | cons e es ih =>
      refine ⟨⟨hG.1, hH.1⟩, ?_⟩
      have hG' := hG.2
      have hH' := hH.2
      cases hr : step s e with
      | none => trivial
      | some r =>
          rw [hr] at hG' hH'
          exact ih hG' hH'

/-! ### The induction rules -/

theorem exec_invariant {I : σ → Prop}
    (hstep : ∀ s e t, I s → step s e = some t → I t)
    {s t : σ} {es : List ε} (hs : I s) (h : exec step s es = some t) : I t := by
  induction es generalizing s with
  | nil =>
      obtain rfl : s = t := by simpa using h
      exact hs
  | cons e es ih =>
      obtain ⟨r, hr, hes⟩ := exec_cons_eq_some.mp h
      exact ih (hstep s e r hs hr) hes

/-- What the steps whose labels satisfy `G` keep, every run of such labels keeps. -/
theorem exec_invariant_of_labels {I : σ → Prop} {G : ε → Prop}
    (hstep : ∀ s e t, I s → G e → step s e = some t → I t)
    {s t : σ} {es : List ε} (hes : ∀ e ∈ es, G e) (hs : I s) (h : exec step s es = some t) :
    I t := by
  induction es generalizing s with
  | nil =>
      obtain rfl : s = t := by simpa using h
      exact hs
  | cons e es ih =>
      obtain ⟨r, hr, hrest⟩ := exec_cons_eq_some.mp h
      exact ih (fun e he => hes e (List.mem_cons_of_mem _ he))
        (hstep s e r hs (hes e List.mem_cons_self) hr) hrest

/-- An invariant that keeps an account of the weights of the labels: over a run the
account grows by their sum. -/
theorem exec_accumulates {I : ℕ → σ → Prop} (w : ε → ℕ)
    (hstep : ∀ n s e t, I n s → step s e = some t → I (n + w e) t)
    {n : ℕ} {s t : σ} {es : List ε} (hs : I n s) (h : exec step s es = some t) :
    I (n + (es.map w).sum) t := by
  induction es generalizing n s with
  | nil =>
      obtain rfl : s = t := by simpa using h
      exact hs
  | cons e es ih =>
      obtain ⟨r, hr, hes⟩ := exec_cons_eq_some.mp h
      rw [List.map_cons, List.sum_cons, ← Nat.add_assoc]
      exact ih (hstep n s e r hs hr) hes

/-- An invariant that the guarded steps keep holds in every state of a guarded
run, and so does what it implies. -/
theorem always_of_guarded {I P : σ → Prop} {G : σ → ε → Prop} (hI : ∀ s, I s → P s)
    (hstep : ∀ s e t, I s → G s e → step s e = some t → I t)
    {s : σ} {es : List ε} (hs : I s) (hG : Meets step G s es) : Always step P s es := by
  induction es generalizing s with
  | nil => exact hI s hs
  | cons e es ih =>
      refine ⟨hI s hs, ?_⟩
      have hrest := hG.2
      cases hr : step s e with
      | none => trivial
      | some r =>
          rw [hr] at hrest
          exact ih (hstep s e r hs hG.1 hr) hrest

/-- What the label `e₀` brings about in a guarded run, and the guarded steps keep, holds at the
end of every guarded run in which `e₀` occurs. -/
theorem exec_establishes {I J : σ → Prop} {G : σ → ε → Prop} {e₀ : ε}
    (hI : ∀ s e t, I s → G s e → step s e = some t → I t)
    (hJ₀ : ∀ s t, I s → G s e₀ → step s e₀ = some t → J t)
    (hJ : ∀ s e t, I s → J s → step s e = some t → J t)
    {s t : σ} {es : List ε} (hs : I s) (hG : Meets step G s es) (h : exec step s es = some t)
    (he₀ : e₀ ∈ es) : I t ∧ J t := by
  induction es generalizing s with
  | nil => cases he₀
  | cons e es ih =>
      obtain ⟨r, hr, hes⟩ := exec_cons_eq_some.mp h
      obtain ⟨hg, hrest⟩ := (meets_cons_of_step hr).mp hG
      rcases List.mem_cons.mp he₀ with rfl | he₀
      · have hA := always_of_guarded (I := fun s => I s ∧ J s) (P := fun s => I s ∧ J s)
          (fun _ h => h) (fun s e t h hg hr => ⟨hI s e t h.1 hg hr, hJ s e t h.1 h.2 hr⟩)
          ⟨hI s _ r hs hg hr, hJ₀ s r hs hg hr⟩ hrest
        exact hA.last hes
      · exact ih (hI s e r hs hg hr) hrest hes he₀

/-- What the invariant and the guard imply of every enabled step is met by every
step of a guarded run. -/
theorem meets_of_guarded {I : σ → Prop} {G H : σ → ε → Prop}
    (hstep : ∀ s e t, I s → G s e → step s e = some t → I t)
    (hH : ∀ s e t, I s → G s e → step s e = some t → H s e)
    {s t : σ} {es : List ε} (hs : I s) (hG : Meets step G s es)
    (h : exec step s es = some t) : Meets step H s es := by
  induction es generalizing s with
  | nil => trivial
  | cons e es ih =>
      obtain ⟨r, hr, hes⟩ := exec_cons_eq_some.mp h
      obtain ⟨hg, hG⟩ := (meets_cons_of_step hr).mp hG
      exact (meets_cons_of_step hr).mpr
        ⟨hH s e r hs hg hr, ih (hstep s e r hs hg hr) hG hes⟩

/-- Two guards that agree in the states of an invariant are met by the same runs,
when one of them keeps the invariant. -/
theorem meets_iff {I : σ → Prop} {G H : σ → ε → Prop}
    (hstep : ∀ s e t, I s → G s e → step s e = some t → I t)
    (hGH : ∀ s e t, I s → step s e = some t → (H s e ↔ G s e))
    {s t : σ} {es : List ε} (hs : I s) (h : exec step s es = some t) :
    Meets step H s es ↔ Meets step G s es := by
  constructor
  · intro hH
    exact meets_of_guarded (fun s e t hI hg hr => hstep s e t hI ((hGH s e t hI hr).mp hg) hr)
      (fun s e t hI hg hr => (hGH s e t hI hr).mp hg) hs hH h
  · intro hG
    exact meets_of_guarded hstep (fun s e t hI hg hr => (hGH s e t hI hr).mpr hg) hs hG h

/-- A state with `Q` is reached along a guarded run, no longer than the potential, when every
state without it has a guarded step that keeps `I` and pays for itself. -/
theorem exec_reaches_guarded {I Q : σ → Prop} {G : σ → ε → Prop} (Φ : σ → ℕ)
    (hstep : ∀ s, I s → ¬ Q s → ∃ e t, G s e ∧ step s e = some t ∧ I t ∧ Φ t < Φ s)
    {s : σ} (hs : I s) :
    ∃ es t, exec step s es = some t ∧ Meets step G s es ∧ es.length ≤ Φ s ∧ I t ∧ Q t := by
  induction hΦ : Φ s using Nat.strongRecOn generalizing s with
  | ind n ih =>
      by_cases hQ : Q s
      · exact ⟨[], s, rfl, trivial, Nat.zero_le _, hs, hQ⟩
      · obtain ⟨e, t, hg, he, ht, hlt⟩ := hstep s hs hQ
        obtain ⟨es, u, hes, hG, hle, hu⟩ := ih (Φ t) (hΦ ▸ hlt) ht rfl
        refine ⟨e :: es, u, exec_cons_eq_some.mpr ⟨t, he, hes⟩,
          (meets_cons_of_step he).mpr ⟨hg, hG⟩, ?_, hu⟩
        rw [List.length_cons]
        omega

/-- The same without a guard. -/
theorem exec_reaches {I Q : σ → Prop} (Φ : σ → ℕ)
    (hstep : ∀ s, I s → ¬ Q s → ∃ e t, step s e = some t ∧ I t ∧ Φ t < Φ s)
    {s : σ} (hs : I s) : ∃ es t, exec step s es = some t ∧ I t ∧ Q t := by
  obtain ⟨es, t, hes, -, -, ht⟩ := exec_reaches_guarded (G := fun _ _ => True) Φ
    (fun r hr hQ => by
      obtain ⟨e, t, he, ht⟩ := hstep r hr hQ
      exact ⟨e, t, trivial, he, ht⟩) hs
  exact ⟨es, t, hes, ht⟩

/-- A run of labels that all lower a potential is no longer than the potential. -/
theorem exec_length_le {I : σ → Prop} {G : ε → Prop} (Φ : σ → ℕ)
    (hstep : ∀ s e t, I s → G e → step s e = some t → I t ∧ Φ t < Φ s)
    {s t : σ} {es : List ε} (hes : ∀ e ∈ es, G e) (hs : I s) (h : exec step s es = some t) :
    I t ∧ es.length + Φ t ≤ Φ s := by
  induction es generalizing s with
  | nil =>
      obtain rfl : s = t := by simpa using h
      exact ⟨hs, by simp⟩
  | cons e es ih =>
      obtain ⟨r, hr, hrest⟩ := exec_cons_eq_some.mp h
      obtain ⟨hI, hlt⟩ := hstep s e r hs (hes e List.mem_cons_self) hr
      obtain ⟨ht, hle⟩ := ih (fun e he => hes e (List.mem_cons_of_mem _ he)) hI hrest
      refine ⟨ht, ?_⟩
      rw [List.length_cons]
      omega

/-- A machine each of whose steps is a run of another one, from related states to related
states, has its runs among those of the other. -/
theorem exec_simulates {τ δ : Type*} {step' : τ → δ → Option τ} {R : σ → τ → Prop}
    (hstep : ∀ s e s' t, R s t → step s e = some s' →
      ∃ ds t', exec step' t ds = some t' ∧ R s' t')
    {s s' : σ} {t : τ} {es : List ε} (hR : R s t) (h : exec step s es = some s') :
    ∃ ds t', exec step' t ds = some t' ∧ R s' t' := by
  induction es generalizing s t with
  | nil =>
      obtain rfl : s = s' := by simpa using h
      exact ⟨[], t, rfl, hR⟩
  | cons e es ih =>
      obtain ⟨r, hr, hes⟩ := exec_cons_eq_some.mp h
      obtain ⟨ds, u, hds, hu⟩ := hstep s e r t hR hr
      obtain ⟨fs, t', hfs, ht'⟩ := ih hu hes
      exact ⟨ds ++ fs, t', exec_append_eq_some.mpr ⟨u, hds, hfs⟩, ht'⟩

/-- Among the runs whose steps all satisfy `H`, those along which `P` holds throughout
are exactly those whose steps all satisfy `G`, once the two keep an invariant that
gives `P` and every enabled step outside `G` ends in a state without `P`. -/
theorem always_iff_meets_of_meets {I P : σ → Prop} {G H : σ → ε → Prop}
    (hI : ∀ s, I s → P s)
    (hgood : ∀ s e t, I s → H s e → G s e → step s e = some t → I t)
    (hbad : ∀ s e t, I s → ¬ G s e → step s e = some t → ¬ P t)
    {s t : σ} {es : List ε} (hs : I s) (hH : Meets step H s es)
    (h : exec step s es = some t) : Always step P s es ↔ Meets step G s es := by
  induction es generalizing s with
  | nil => exact ⟨fun _ => trivial, fun _ => hI s hs⟩
  | cons e es ih =>
      obtain ⟨r, hr, hes⟩ := exec_cons_eq_some.mp h
      obtain ⟨hHe, hH⟩ := (meets_cons_of_step hr).mp hH
      rw [always_cons_of_step hr, meets_cons_of_step hr]
      by_cases hg : G s e
      · have hrI := hgood s e r hs hHe hg hr
        rw [ih hrI hH hes]
        exact ⟨fun h => ⟨hg, h.2⟩, fun h => ⟨hI s hs, h.2⟩⟩
      · constructor
        · intro hA
          exact absurd hA.2.first (hbad s e r hs hg hr)
        · intro hM
          exact absurd hM.1 hg

/-- The runs along which `P` holds throughout are exactly those whose steps all
satisfy `G`, once `G` keeps an invariant that gives `P` and every enabled step
outside `G` ends in a state without `P`. -/
theorem always_iff_meets {I P : σ → Prop} {G : σ → ε → Prop}
    (hI : ∀ s, I s → P s)
    (hgood : ∀ s e t, I s → G s e → step s e = some t → I t)
    (hbad : ∀ s e t, I s → ¬ G s e → step s e = some t → ¬ P t)
    {s t : σ} {es : List ε} (hs : I s) (h : exec step s es = some t) :
    Always step P s es ↔ Meets step G s es :=
  always_iff_meets_of_meets hI (fun s e t hs _ => hgood s e t hs) hbad hs (meets_true s es) h

end GestAqua.Execution
