import GestAqua.Threads.Moves

/-!
Threads of a timer that relay each other.

`SingleRun` needs the earlier threads to be done with the object. For the callbacks
it is enough that they have left `CTimer::Thread`, and then `m_bStarted`, which the
last thread alone writes, tells where that one is: a `Start` that comes after the
last thread has begun finds every thread out of `CTimer::Thread`. Nothing is asked
of the duration here, which `SetDuree` can change at any moment.
-/

namespace GestAqua

def Appel.creation : Appel → Bool
  | .pipe _ | .pthreadCreate _ => true
  | _ => false

namespace Systeme

/-- At a `Start` that takes effect every earlier thread has begun. -/
def DemarreEnOrdre (s : Systeme) : EvtThread → Prop
  | .start ui64Usec _ => s.objet.timer.bStarted = false → ui64Usec ≠ 0 →
      ∀ f ∈ s.fils, f.pc.demarre = true
  | _ => True

instance (s : Systeme) : ∀ e, Decidable (s.DemarreEnOrdre e)
  | .start ui64Usec _ => inferInstanceAs (Decidable (s.objet.timer.bStarted = false →
      ui64Usec ≠ 0 → ∀ f ∈ s.fils, f.pc.demarre = true))
  | .create | .stop | .demande | .pipe _ | .pthreadCreate _ | .suite | .fil _ _ => isTrue trivial

theorem demarreEnOrdre_of_ne {s : Systeme} {e : EvtThread}
    (he : ∀ usec flag, e ≠ .start usec flag) : s.DemarreEnOrdre e := by
  cases e with
  | start usec flag => exact absurd rfl (he usec flag)
  | _ => trivial

def TousRevenus (s : Systeme) : Prop := ∀ pc ∈ s.pcs, pc.revenu = true

/-- `Thread` has returned in every earlier thread, and `m_bStarted` shows whether the
last one is in its body. -/
structure Relais (s : Systeme) (vieux : List Pc) (dernier : Option Pc) : Prop where
  pcs : s.pcs = vieux ++ dernier.toList
  classe : s.objet.classe = .cTimer
  revenus : ∀ pc ∈ vieux, pc.revenu = true
  started : ∀ pc ∈ dernier, s.objet.timer.bStarted = pc.enCorps
  repos : dernier = none → s.objet.timer.bStarted = false
  creation : s.appel.creation = true → dernier = none

variable {s s' : Systeme} {e : EvtThread} {vieux : List Pc} {dernier : Option Pc}

theorem Relais.neuf (arret : ℕ) (auto detache : Bool) :
    Relais (neuf .cTimer arret auto detache) [] none where
  pcs := rfl
  classe := rfl
  revenus := by simp
  started := by simp
  repos _ := rfl
  creation := by simp

/-- The relay depends on the class, on `m_bStarted` and on where the threads and the
owner are. -/
theorem Relais.congr (h : Relais s vieux dernier) (hpcs : s'.pcs = s.pcs)
    (hc : s'.objet.classe = s.objet.classe)
    (hb : s'.objet.timer.bStarted = s.objet.timer.bStarted)
    (ha : s'.appel.creation = true → s.appel.creation = true) : Relais s' vieux dernier where
  pcs := hpcs.trans h.pcs
  classe := hc.trans h.classe
  revenus := h.revenus
  started := by
    rw [hb]
    exact h.started
  repos := by
    rw [hb]
    exact h.repos
  creation := h.creation ∘ ha

/-- When the last thread has returned all have. -/
theorem Relais.tousRevenus (h : Relais s vieux dernier)
    (hd : ∀ pc ∈ dernier, pc.revenu = true) : TousRevenus s := by
  intro pc hpc
  rw [h.pcs, List.mem_append, Option.mem_toList] at hpc
  exact hpc.elim (h.revenus pc) (hd pc)

theorem Relais.joint (h : Relais s vieux dernier) (hj : s.joint = true) : TousRevenus s := by
  refine h.tousRevenus fun pc hpc => ?_
  obtain rfl := Option.mem_def.mp hpc
  have hlast : s.pcs.getLast? = some pc := by rw [h.pcs]; simp
  rw [Systeme.pcs, List.getLast?_map, Option.map_eq_some_iff] at hlast
  obtain ⟨f, hf, rfl⟩ := hlast
  simp only [Systeme.joint, hf, beq_iff_eq] at hj
  rw [hj]
  rfl

/-- A `Start` that takes effect in order finds every thread returned. -/
theorem Relais.demarre (h : Relais s vieux dernier) (hb : s.objet.timer.bStarted = false)
    (hd : ∀ f ∈ s.fils, f.pc.demarre = true) : TousRevenus s := by
  refine h.tousRevenus fun pc hpc => ?_
  have hmem : pc ∈ s.pcs := by
    rw [h.pcs, List.mem_append, Option.mem_toList]
    exact .inr hpc
  obtain ⟨f, hf, rfl⟩ := List.mem_map.mp hmem
  exact Pc.revenu_of_demarre (hd f hf) ((h.started _ hpc).symm.trans hb)

theorem Relais.mouvement (h : Relais s vieux dernier) {k : ℕ} {f f' : Fil} {c : Choix}
    {o' : CThread} (hk : s.fils[k]? = some f) (hm : f.Mouvement s.objet k c o' f') :
    ∃ vieux dernier, Relais { s with objet := o', fils := s.fils.set k f' } vieux dernier := by
  have hpcs : (s.fils.set k f').map (·.pc) = (vieux ++ dernier.toList).set k f'.pc := by
    rw [List.map_set, ← h.pcs, Systeme.pcs]
  have hpc : (vieux ++ dernier.toList)[k]? = some f.pc := by
    rw [← h.pcs, Systeme.pcs, List.getElem?_map, hk]
    rfl
  have hclasse := hm.constantes.1.trans h.classe
  by_cases hlt : k < vieux.length
  · -- an earlier thread leaves the timer alone
    rw [List.getElem?_append_left hlt] at hpc
    have hrev := h.revenus _ (List.mem_of_getElem? hpc)
    have htimer := hm.timer_of_revenu hrev
    refine ⟨vieux.set k f'.pc, dernier, ?_, hclasse, ?_, ?_, ?_, h.creation⟩
    · rw [Systeme.pcs, hpcs, List.set_append_left _ _ hlt]
    · intro pc hmem
      rcases List.mem_or_eq_of_mem_set hmem with hmem | rfl
      · exact h.revenus pc hmem
      · exact hm.revenu hrev
    · intro pc hpc
      show o'.timer.bStarted = _
      rw [htimer]
      exact h.started pc hpc
    · intro hnone
      show o'.timer.bStarted = false
      rw [htimer]
      exact h.repos hnone
  · rw [Nat.not_lt] at hlt
    rw [List.getElem?_append_right hlt] at hpc
    cases dernier with
    | none => cases hpc
    | some pc =>
        obtain ⟨hzero, rfl⟩ := getElem?_seul hpc
        refine ⟨vieux, some f'.pc, ?_, hclasse, h.revenus, ?_, fun hnone => ?_, fun ha => ?_⟩
        · rw [Systeme.pcs, hpcs, List.set_append_right _ _ hlt, hzero]
          rfl
        · rintro pc ⟨⟩
          exact hm.started h.classe (h.started _ rfl)
        · cases hnone
        · cases h.creation ha

theorem Relais.step (h : Relais s vieux dernier) (hg : s.DemarreEnOrdre e)
    (hs : s.step e = some s') : ∃ vieux dernier, Relais s' vieux dernier := by
  cases geste_of_step hs with
  | fil hk hm => exact h.mouvement hk hm
  | start ha hb hu =>
      exact ⟨s.pcs, none, by simp [Systeme.pcs], h.classe, h.demarre hb (hg hb hu),
        fun pc hpc => (Option.not_mem_none pc hpc).elim, fun _ => rfl, fun _ => rfl⟩
  | create _ hc => exact absurd h.classe hc
  | pipe ha =>
      obtain rfl := h.creation (by rw [ha]; rfl)
      exact ⟨vieux, none, { h with creation := fun _ => rfl }⟩
  | @pthreadCreate flag ha =>
      obtain rfl := h.creation (by rw [ha]; rfl)
      refine ⟨vieux, some .initVerrou, ?_, h.classe, h.revenus, ?_, fun hnone => ?_, fun ha => ?_⟩
      · rw [Systeme.pcs, List.map_append, ← Systeme.pcs, h.pcs]
        simp [Fil.cree]
      · rintro pc ⟨⟩
        exact h.repos rfl
      · cases hnone
      · cases ha
  | startVain => exact ⟨_, _, h⟩
  | stopEcrit ha =>
      exact ⟨_, _, h.congr (pcs_marque s) rfl rfl fun hc => (Bool.false_ne_true hc).elim⟩
  | demPose ha =>
      exact ⟨_, _, h.congr (pcs_marque s) rfl rfl fun hc => (Bool.false_ne_true hc).elim⟩
  | _ => exact ⟨_, _, h.congr rfl rfl rfl fun hc => (Bool.false_ne_true hc).elim⟩

/-! ### After the last thread -/

structure AuRepos (s : Systeme) : Prop where
  revenus : TousRevenus s
  creation : s.appel.creation = false

theorem TousRevenus.step (h : TousRevenus s) (ha : s.appel.creation = false)
    (hs : s.step e = some s') : TousRevenus s' := by
  cases geste_of_step hs with
  | @fil k f f' c o' hk hm =>
      intro pc hpc
      rw [Systeme.pcs, List.map_set] at hpc
      rcases List.mem_or_eq_of_mem_set hpc with hpc | rfl
      · exact h pc hpc
      · exact hm.revenu (h _ (List.mem_map_of_mem (List.mem_of_getElem? hk)))
  | pthreadCreate ha' =>
      rw [ha'] at ha
      cases ha
  | stopEcrit | demPose =>
      rw [TousRevenus, Systeme.pcs, pcs_marque]
      exact h
  | _ => exact h

/-- `Stop` on a joinable timer that is not auto-delete goes past its join when every
thread has returned. -/
theorem Relais.stopDetache (h : Relais s vieux dernier) (hn : s.Nature = (.cTimer, false, false))
    (hj : s.appel = .stopDetache → TousRevenus s) (hs : s.step e = some s')
    (ha' : s'.appel = .stopDetache) : TousRevenus s' := by
  cases geste_of_step hs with
  | fil =>
      have ha : s.appel = .stopDetache := ha'
      exact (hj ha).step (by rw [ha]; rfl) hs
  | startVain => exact hj ha'
  | joint _ hjoint => exact h.joint hjoint
  | stopLibre _ hlibre =>
      simp only [Nature, Prod.mk.injEq] at hn
      exact absurd hn.2 hlibre
  | _ => cases ha'

theorem AuRepos.step (h : AuRepos s) (hc : s.objet.classe = .cTimer)
    (he : ∀ usec flag, e ≠ .start usec flag) (hs : s.step e = some s') : AuRepos s' := by
  refine ⟨h.revenus.step h.creation hs, ?_⟩
  cases geste_of_step hs with
  | start => exact absurd rfl (he _ _)
  | create _ hc' => exact absurd hc hc'
  | pipe ha =>
      have hcreation := h.creation
      rw [ha] at hcreation
      cases hcreation
  | fil | startVain => exact h.creation
  | _ => rfl

theorem TousRevenus.ne_action (h : TousRevenus s) {k : ℕ} :
    s.fils[k]?.map (·.pc) ≠ some .action := by
  intro hk
  obtain ⟨f, hf, hpc⟩ := Option.map_eq_some_iff.mp hk
  have hrev := h _ (List.mem_map_of_mem (List.mem_of_getElem? hf))
  rw [hpc] at hrev
  cases hrev

end Systeme

end GestAqua
