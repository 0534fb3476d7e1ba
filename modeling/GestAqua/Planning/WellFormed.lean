import GestAqua.Base.Folds
import GestAqua.Planning.Heap

/-!
`BienForme`: what every operation of the main task keeps about addresses.

Addresses are fresh and never shared, a registered launcher is a launcher of its
key, and a stop timer refers to an instance of its own profile. These are the
facts that let an operation on one plan be ignored by the views of another.
-/

namespace GestAqua

open TimerTache

/-- Addresses are fresh and distinct, and references go where their type says. -/
structure BienForme (s : CMainTask) : Prop where
  suivant_pos : 0 < s.suivant
  adresse_lt : ∀ t ∈ s.timers, t.adresse < s.suivant
  adresse_inj : ∀ t ∈ s.timers, ∀ t' ∈ s.timers, t.adresse = t'.adresse → t = t'
  lanceur : ∀ n a, s.mLanceurProfil n = some a → a < s.suivant ∧
    ∀ t ∈ s.timers, t.adresse = a → t.timer.bStarted = true → t.lanceurDe n = true
  attache : ∀ t ∈ s.timers, t.timer.bStarted = true → t.timer.hObjetAttache ≠ none
  planif_ne_zero : ∀ t ∈ s.timers, ∀ q, t.timer.hObjetAttache = some (.fctStartProfil q) →
    q.ucNumeroPlanif ≠ 0
  profil_lt : ∀ i ∈ s.profils, i.adresse < s.suivant
  arret : ∀ t ∈ s.timers, ∀ q, t.timer.hObjetAttache = some (.fctStopProfil q) →
    0 < q.pProfil ∧ q.pProfil < s.suivant ∧
      ∀ i ∈ s.profils, i.adresse = q.pProfil → i.ucNumeroProfil = q.ucNumeroProfil

namespace BienForme

variable {env : Env} {s : CMainTask}

theorem construit (t : ℤ) : BienForme (CMainTask.construit t) where
  suivant_pos := Nat.one_pos
  adresse_lt := by simp [CMainTask.construit]
  adresse_inj := by simp [CMainTask.construit]
  lanceur := by simp [CMainTask.construit]
  attache := by simp [CMainTask.construit]
  planif_ne_zero := by simp [CMainTask.construit]
  profil_lt := by simp [CMainTask.construit]
  arret := by simp [CMainTask.construit]

theorem adresse_ne_of_lanceurDe (h : BienForme s) {m n : UInt8} {a : ℕ} (hmn : m ≠ n)
    (hm : s.mLanceurProfil m = some a) {t : TimerTache} (ht : t ∈ s.lanceurs n) :
    t.adresse ≠ a := by
  obtain ⟨ht, hn⟩ := CMainTask.mem_lanceurs.mp ht
  intro ha
  have hlm := (h.lanceur m a hm).2 t ht ha (lanceurDe_iff.mp hn).1
  exact hmn (lanceurDe_unique hlm hn)

theorem adresse_ne_of_arretDe (h : BienForme s) {m p : UInt8} {a : ℕ}
    (hm : s.mLanceurProfil m = some a) {t : TimerTache} (ht : t ∈ s.arrets p) :
    t.adresse ≠ a := by
  obtain ⟨ht, hp⟩ := CMainTask.mem_arrets.mp ht
  intro ha
  have hlm := (h.lanceur m a hm).2 t ht ha (arretDe_iff.mp hp).1
  simp [not_arretDe_of_lanceurDe hlm] at hp

theorem armes (h : BienForme s) {t : TimerTache} (ht : t ∈ s.timers)
    (hst : t.timer.bStarted = true) :
    (∃ n, t.lanceurDe n = true) ∨ ∃ p, t.arretDe p = true := by
  obtain ⟨r, hr⟩ := Option.ne_none_iff_exists'.mp (h.attache t ht hst)
  cases r with
  | fctStartProfil q =>
      exact .inl ⟨_, lanceurDe_iff.mpr ⟨hst, q, hr, rfl⟩⟩
  | fctStopProfil q =>
      exact .inr ⟨_, arretDe_iff.mpr ⟨hst, q, hr, rfl⟩⟩

/-! ### The operations keep the invariant -/

theorem surAdresse {f : TimerTache → Option TimerTache} (hf : Garde f) (h : BienForme s)
    (a : ℕ) : BienForme { s with timers := TimerTache.surAdresse a f s.timers } where
  suivant_pos := h.suivant_pos
  adresse_lt := by
    intro t' ht'
    rcases mem_surAdresse.mp ht' with ⟨ht, -⟩ | ⟨t, ht, -, hft⟩
    · exact h.adresse_lt t' ht
    · rw [(hf t t' hft).1]
      exact h.adresse_lt t ht
  adresse_inj := by
    intro t₁ h₁ t₂ h₂ heq
    rcases mem_surAdresse.mp h₁ with ⟨h₁, hne₁⟩ | ⟨u₁, h₁, ha₁, hf₁⟩ <;>
      rcases mem_surAdresse.mp h₂ with ⟨h₂, hne₂⟩ | ⟨u₂, h₂, ha₂, hf₂⟩
    · exact h.adresse_inj t₁ h₁ t₂ h₂ heq
    · exact absurd (heq.trans ((hf u₂ t₂ hf₂).1.trans ha₂)) hne₁
    · exact absurd (heq.symm.trans ((hf u₁ t₁ hf₁).1.trans ha₁)) hne₂
    · obtain rfl := h.adresse_inj u₁ h₁ u₂ h₂ (ha₁.trans ha₂.symm)
      exact Option.some.inj (hf₁.symm.trans hf₂)
  lanceur := by
    intro n b hb
    refine ⟨(h.lanceur n b hb).1, fun t' ht' hadr hst => ?_⟩
    rcases mem_surAdresse.mp ht' with ⟨ht, -⟩ | ⟨t, ht, -, hft⟩
    · exact (h.lanceur n b hb).2 t' ht hadr hst
    · simp [(hf t t' hft).2.1] at hst
  attache := by
    intro t' ht' hst
    rcases mem_surAdresse.mp ht' with ⟨ht, -⟩ | ⟨t, ht, -, hft⟩
    · exact h.attache t' ht hst
    · simp [(hf t t' hft).2.1] at hst
  planif_ne_zero := by
    intro t' ht' q hq
    rcases mem_surAdresse.mp ht' with ⟨ht, -⟩ | ⟨t, ht, -, hft⟩
    · exact h.planif_ne_zero t' ht q hq
    · exact h.planif_ne_zero t ht q ((hf t t' hft).2.2 _ hq)
  profil_lt := h.profil_lt
  arret := by
    intro t' ht' q hq
    rcases mem_surAdresse.mp ht' with ⟨ht, -⟩ | ⟨t, ht, -, hft⟩
    · exact h.arret t' ht q hq
    · exact h.arret t ht q ((hf t t' hft).2.2 _ hq)

theorem stop (h : BienForme s) (a : ℕ) : BienForme (s.stop a) := h.surAdresse garde_stop a

theorem finThread (h : BienForme s) (a : ℕ) : BienForme (s.finThread a) :=
  h.surAdresse garde_fini a

theorem effaceLanceur (h : BienForme s) (n : UInt8) : BienForme (s.effaceLanceur n) :=
  { h with
    lanceur := by
      intro m a hm
      by_cases hmn : m = n
      · subst hmn
        simp [CMainTask.effaceLanceur] at hm
      · exact h.lanceur m a (by simpa [CMainTask.effaceLanceur, hmn] using hm) }

theorem effaceStop (h : BienForme s) (p : UInt8) : BienForme (s.effaceStop p) := { h with }

theorem supprime (h : BienForme s) (b : ℕ) : BienForme (s.supprime b) := { h with }

theorem remplaceLanceur (h : BienForme s) (n : UInt8) : BienForme (s.remplaceLanceur n) := by
  unfold CMainTask.remplaceLanceur
  split
  · exact (h.stop _).effaceLanceur n
  · exact h

theorem adresse_inj_cons (h : BienForme s) {u : TimerTache} (hu : s.suivant ≤ u.adresse) :
    ∀ t ∈ u :: s.timers, ∀ t' ∈ u :: s.timers, t.adresse = t'.adresse → t = t' := by
  intro t ht t' ht' heq
  rcases List.mem_cons.mp ht with rfl | hs <;> rcases List.mem_cons.mp ht' with rfl | hs'
  · rfl
  · have := h.adresse_lt t' hs'
    omega
  · have := h.adresse_lt t hs
    omega
  · exact h.adresse_inj t hs t' hs' heq

theorem attache_cons (h : BienForme s) {u : TimerTache}
    (hu : u.timer.bStarted = true → u.timer.hObjetAttache ≠ none) :
    ∀ t ∈ u :: s.timers, t.timer.bStarted = true → t.timer.hObjetAttache ≠ none := by
  intro t ht hst
  rcases List.mem_cons.mp ht with rfl | ht
  · exact hu hst
  · exact h.attache t ht hst

theorem creeLanceur (h : BienForme s) {n : UInt8} (hn : n ≠ 0) (auto : Bool) (usec : ℕ) :
    BienForme (s.creeLanceur env toujours n auto usec) where
  suivant_pos := by simp [CMainTask.creeLanceur]
  adresse_lt := by
    intro t ht
    rcases List.mem_cons.mp ht with rfl | ht
    · simp [CMainTask.creeLanceur]
    · exact Nat.lt_trans (h.adresse_lt t ht) (by simp [CMainTask.creeLanceur])
  adresse_inj := h.adresse_inj_cons (by simp)
  lanceur := by
    intro m a hm
    by_cases hmn : m = n
    · subst hmn
      obtain rfl : s.suivant + 1 = a := by simpa [CMainTask.creeLanceur] using hm
      refine ⟨by simp [CMainTask.creeLanceur], fun t ht hadr hst => ?_⟩
      rcases List.mem_cons.mp ht with rfl | ht
      · rw [toujours_eq, start_nouveau] at hst ⊢
        split at hst
        · simp [nouveau, CTimer.init] at hst
        · rename_i hu
          simp [hu, arme, lanceurDe]
      · have := h.adresse_lt t ht
        omega
    · obtain ⟨hlt, hall⟩ := h.lanceur m a (by simpa [CMainTask.creeLanceur, hmn] using hm)
      refine ⟨Nat.lt_trans hlt (by simp [CMainTask.creeLanceur]), fun t ht hadr hst => ?_⟩
      rcases List.mem_cons.mp ht with rfl | ht
      · simp at hadr
        omega
      · exact hall t ht hadr hst
  attache := h.attache_cons start_nouveau_arme
  planif_ne_zero := by
    intro t ht q hq
    rcases List.mem_cons.mp ht with rfl | ht
    · obtain rfl := Rappel.fctStartProfil.inj (start_nouveau_attache hq)
      exact hn
    · exact h.planif_ne_zero t ht q hq
  profil_lt := fun i hi => Nat.lt_trans (h.profil_lt i hi) (by simp [CMainTask.creeLanceur])
  arret := by
    intro t ht q hq
    rcases List.mem_cons.mp ht with rfl | ht
    · exact absurd (start_nouveau_attache hq) (by simp)
    · obtain ⟨hpos, hlt, hall⟩ := h.arret t ht q hq
      exact ⟨hpos, Nat.lt_trans hlt (by simp [CMainTask.creeLanceur]), hall⟩

theorem planifieEntree (h : BienForme s) (off : ℤ) (e : DefPlanificationProfil) :
    BienForme (s.planifieEntree env toujours off e) := by
  unfold CMainTask.planifieEntree
  split
  · exact h
  · rename_i hn
    split
    · exact (h.remplaceLanceur _).creeLanceur hn true _
    · split
      · exact h.creeLanceur hn false 100
      · exact h

theorem iInitPlanification (h : BienForme s) (l : List DefPlanificationProfil) :
    BienForme (s.iInitPlanification env toujours (some l)).2 :=
  Folds.foldl_invariant (fun _ e _ hs => hs.planifieEntree _ e) h

theorem mem_profils_lanceProfil {e : DefPlanificationProfil} {i : CProfil}
    (hi : i ∈ (s.lanceProfil env toujours e).profils) :
    i = ⟨s.suivant, e.ucNumeroProfil, e.stPlanif.tDebut, e.stPlanif.tPeriod⟩ ∨
      i ∈ s.profils := by
  simp only [CMainTask.lanceProfil] at hi
  split at hi
  · exact List.mem_cons.mp hi
  · exact .inr hi

theorem lanceProfil (h : BienForme s) (e : DefPlanificationProfil) :
    BienForme (s.lanceProfil env toujours e) where
  suivant_pos := by simp [CMainTask.lanceProfil]
  adresse_lt := by
    intro t ht
    rcases List.mem_cons.mp ht with rfl | ht
    · simp [CMainTask.lanceProfil]
    · exact Nat.lt_trans (h.adresse_lt t ht) (by simp [CMainTask.lanceProfil])
  adresse_inj := h.adresse_inj_cons (by simp)
  lanceur := by
    intro m a hm
    obtain ⟨hlt, hall⟩ := h.lanceur m a hm
    refine ⟨Nat.lt_trans hlt (by simp [CMainTask.lanceProfil]), fun t ht hadr hst => ?_⟩
    rcases List.mem_cons.mp ht with rfl | ht
    · simp at hadr
      omega
    · exact hall t ht hadr hst
  attache := h.attache_cons start_nouveau_arme
  planif_ne_zero := by
    intro t ht q hq
    rcases List.mem_cons.mp ht with rfl | ht
    · exact absurd (start_nouveau_attache hq) (by simp)
    · exact h.planif_ne_zero t ht q hq
  profil_lt := by
    intro i hi
    rcases mem_profils_lanceProfil hi with rfl | hi'
    · simp [CMainTask.lanceProfil]
    · exact Nat.lt_trans (h.profil_lt i hi') (by simp [CMainTask.lanceProfil])
  arret := by
    intro t ht q hq
    rcases List.mem_cons.mp ht with rfl | ht
    · obtain rfl := Rappel.fctStopProfil.inj (start_nouveau_attache hq)
      refine ⟨h.suivant_pos, by simp [CMainTask.lanceProfil], fun i hi hadr => ?_⟩
      rcases mem_profils_lanceProfil hi with rfl | hi
      · rfl
      · have := h.profil_lt i hi
        simp at hadr
        omega
    · obtain ⟨hpos, hlt, hall⟩ := h.arret t ht q hq
      refine ⟨hpos, Nat.lt_trans hlt (by simp [CMainTask.lanceProfil]), fun i hi hadr => ?_⟩
      rcases mem_profils_lanceProfil hi with rfl | hi
      · simp at hadr
        omega
      · exact hall i hi hadr

theorem iStartProfil (h : BienForme s) (n : UInt8) :
    BienForme (s.iStartProfil env toujours n).2 := by
  unfold CMainTask.iStartProfil
  split
  · refine Folds.foldl_invariant (fun s e _ hs => ?_) (h.effaceLanceur n)
    split
    · exact hs.lanceProfil e
    · exact hs
  · exact h

theorem filtreProfils (h : BienForme s) (f : CProfil → Bool) :
    BienForme { s with profils := s.profils.filter f } :=
  { h with
    profil_lt := fun i hi => h.profil_lt i (List.mem_of_mem_filter hi)
    arret := fun t ht q hq =>
      ⟨(h.arret t ht q hq).1, (h.arret t ht q hq).2.1,
        fun i hi => (h.arret t ht q hq).2.2 i (List.mem_of_mem_filter hi)⟩ }

theorem iStopProfil (h : BienForme s) (p : UInt8) (a : ℕ) :
    BienForme (s.iStopProfil p a).2 := by
  unfold CMainTask.iStopProfil
  split
  · exact (h.effaceStop p).filtreProfils _
  · exact h

variable (env) in
theorem rappelle (h : BienForme s) (r : Option Rappel) :
    BienForme (s.rappelle env toujours r) := by
  unfold CMainTask.rappelle
  split
  · exact (h.iStartProfil _).supprime _
  · exact (h.iStopProfil _ _).supprime _
  · exact h

theorem expire (h : BienForme s) (t : TimerTache) : BienForme (s.expire env toujours t) :=
  (h.rappelle env _).finThread _

theorem jour (h : BienForme s) (d : ℤ) : BienForme { s with sLastDay := d } := { h with }

theorem testeJour (h : BienForme s) : BienForme (s.testeJour env toujours) := by
  unfold CMainTask.testeJour
  dsimp only
  split
  · exact (h.jour _).iInitPlanification _
  · exact h

end BienForme

end GestAqua
