import GestAqua.Threads.Moves

/-!
The pipe that a thread watches.

As long as the owner creates no other pipe, the thread of an object waits on the
pipe of the object and on nothing else, so `select` returns readable exactly when
something has been written to it, and the loop then exits.
-/

namespace GestAqua.Fil

/-- The thread watches pipe `p`, the pipe of its object, from the moment at which
it prepares the set of descriptors. -/
def Surveille (o : CThread) (p : ℕ) (f : Fil) : Prop :=
  match f.pc with
  | .boucle | .arme | .expire | .action | .apres =>
    o.iIdPipe = some p ∧ f.n = p + 1 ∧ ∀ q ∈ f.rfds, q = p
  | .charge | .attend | .lisible =>
    o.iIdPipe = some p ∧ f.n = p + 1 ∧ (∀ q ∈ f.rfds, q = p) ∧ p ∈ f.rfds
  | .termine => True
  | _ => o.iIdPipe = some p

variable {o o' : CThread} {p k : ℕ} {f f' : Fil} {c : Choix}

theorem Surveille.congr (h : f.Surveille o p) (ho : o'.iIdPipe = o.iIdPipe) :
    f.Surveille o' p := by
  unfold Surveille at h ⊢
  rw [ho]
  exact h

theorem Surveille.iIdPipe_eq (h : f.Surveille o p) (hpc : f.pc ≠ .termine) :
    o.iIdPipe = some p := by
  unfold Surveille at h
  split at h
  case h_9 => exact absurd ‹_› hpc
  all_goals first | exact h | exact h.1

theorem Surveille.ecrit (h : f.Surveille o p) :
    f.pc.horsBoucle = true ∨ p ∈ o.ecrit.lisibles := by
  by_cases hpc : f.pc = .termine
  · exact .inl (Pc.horsBoucle_of_termine hpc)
  · refine .inr ?_
    rw [CThread.ecrit, h.iIdPipe_eq hpc]
    exact List.mem_cons_self

theorem mem_reste {q : ℕ} : q ∈ f.reste o ↔ q ∈ f.rfds ∧ (¬ q < f.n ∨ q ∈ o.lisibles) := by
  simp [reste]

/-- `select` reports the pipe exactly when it is readable. -/
theorem Surveille.pret_iff (h : f.Surveille o p) (hpc : f.pc = .attend) :
    o.pret f.n f.rfds = true ↔ p ∈ o.lisibles := by
  simp only [Surveille, hpc] at h
  obtain ⟨-, hn, hall, hmem⟩ := h
  simp only [CThread.pret, List.any_eq_true, Bool.and_eq_true, decide_eq_true_eq,
    List.contains_iff_mem]
  constructor
  · rintro ⟨q, hq, -, hread⟩
    rwa [← hall q hq]
  · intro hread
    exact ⟨p, hmem, by omega, hread⟩

theorem Surveille.mouvement (h : f.Surveille o p) (hm : f.Mouvement o k c o' f') :
    f'.Surveille o' p := by
  have hreste : ∀ q ∈ f.reste o, q ∈ f.rfds := fun q hq => (mem_reste.mp hq).1
  cases hm with
  | prepare hpc q hq =>
      simp only [Surveille, hpc] at h
      obtain rfl := Option.some.inj (hq.symm.trans h)
      exact ⟨h, rfl, by simp⟩
  | arme hpc =>
      simp only [Surveille, hpc] at h
      simp only [Surveille, h.1, Option.toList_some, List.singleton_append, List.mem_cons,
        forall_eq_or_imp, true_or, and_true, true_and]
      exact h.2
  | charge hpc =>
      simp only [Surveille, hpc] at h
      exact h
  | lisible hpc hp =>
      have hread := (h.pret_iff hpc).mp hp
      simp only [Surveille, hpc] at h
      exact ⟨h.1, h.2.1, fun q hq => h.2.2.1 q (hreste q hq),
        mem_reste.mpr ⟨h.2.2.2, .inr hread⟩⟩
  | expire hpc =>
      simp only [Surveille, hpc] at h
      exact ⟨h.1, h.2.1, fun q hq => h.2.2.1 q (hreste q hq)⟩
  | interrompu hpc | ignore hpc =>
      simp only [Surveille, hpc] at h
      exact ⟨h.1, h.2.1, h.2.2.1⟩
  | entre hpc | agit hpc | renonce hpc | action hpc | recommence hpc =>
      simp only [Surveille, hpc] at h
      exact h
  | drapeau hpc | oneshot hpc | erreur hpc | quitte hpc | prepareGarde hpc =>
      simp only [Surveille, hpc] at h
      first | exact h | exact h.1
  | initVerrou hpc | initPose hpc | initLibere hpc | entreeGarde hpc | entreeTimer hpc
  | entreeAutre hpc | sortieTimer hpc | sortieAutre hpc | finVerrou hpc | finPose hpc
  | finEcrit hpc | finLibere hpc =>
      simp only [Surveille, hpc] at h
      exact h
  | detruit hpc | termine hpc => trivial

/-- A thread that has seen its pipe readable leaves the loop at its next step. -/
theorem Surveille.not_ignore (h : f.Surveille o p) (hpc : f.pc = .lisible) :
    ∃ q ∈ o.iIdPipe, q ∈ f.rfds := by
  simp only [Surveille, hpc] at h
  exact ⟨p, h.1, h.2.2.2⟩

end GestAqua.Fil
