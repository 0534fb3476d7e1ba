import GestAqua.Planning.Shutdown

/-!
The shutdown joins no thread.

The two loops make a timer auto-delete before they call `Stop` on it. No callback that
comes between takes this back: the address in hand is one that a registry holds, and a
launch allocates its timers at addresses that have not been used. So `Stop` finds nothing to
wait for, whatever the threads of the timers do, and the loops come to their end.
-/

namespace GestAqua

namespace CMainTask

open TimerTache

variable {env : Env} {s s' s'' : CMainTask}

/-- The registries hold addresses that have been used. -/
structure Bornes (s : CMainTask) : Prop where
  lanceur : ∀ n a, s.mLanceurProfil n = some a → a < s.suivant
  arret : ∀ p a, s.mStopProfil p = some a → a < s.suivant

/-- Between two states timers join at new addresses only, and a timer that is
auto-delete stays so. -/
structure Prolonge (s s' : CMainTask) : Prop where
  suivant_le : s.suivant ≤ s'.suivant
  anciens : ∀ t' ∈ s'.timers, t'.adresse < s.suivant →
    ∃ t ∈ s.timers, t.adresse = t'.adresse ∧ (t.cAutoDelete = true → t'.cAutoDelete = true)
  bornes : Bornes s → Bornes s'

namespace Prolonge

theorem refl (s : CMainTask) : Prolonge s s where
  suivant_le := Nat.le_refl _
  anciens t ht _ := ⟨t, ht, rfl, id⟩
  bornes := id

theorem trans (h : Prolonge s s') (h' : Prolonge s' s'') : Prolonge s s'' where
  suivant_le := Nat.le_trans h.suivant_le h'.suivant_le
  anciens := by
    intro t'' ht'' hlt
    obtain ⟨t', ht', hadr', hauto'⟩ := h'.anciens t'' ht'' (Nat.lt_of_lt_of_le hlt h.suivant_le)
    obtain ⟨t, ht, hadr, hauto⟩ := h.anciens t' ht' (hadr' ▸ hlt)
    exact ⟨t, ht, hadr.trans hadr', hauto' ∘ hauto⟩
  bornes := h'.bornes ∘ h.bornes

theorem foldl {α : Type} {f : CMainTask → α → CMainTask} (hf : ∀ r x, Prolonge r (f r x))
    (l : List α) : Prolonge s (l.foldl f s) :=
  Folds.foldl_invariant (I := Prolonge s) (fun r x _ h => h.trans (hf r x)) (refl s)

/-- Timers join at new addresses, and the registries change at one key at most. -/
theorem ajoute (hle : s.suivant ≤ s'.suivant)
    (htimers : ∀ t ∈ s'.timers, t ∈ s.timers ∨ s.suivant ≤ t.adresse)
    (hL : ∀ n a, s'.mLanceurProfil n = some a → s.mLanceurProfil n = some a ∨ a < s'.suivant)
    (hS : ∀ p a, s'.mStopProfil p = some a → s.mStopProfil p = some a ∨ a < s'.suivant) :
    Prolonge s s' where
  suivant_le := hle
  anciens := by
    intro t ht hlt
    rcases htimers t ht with hmem | hnew
    · exact ⟨t, hmem, rfl, id⟩
    · omega
  bornes := by
    rintro ⟨hlan, harr⟩
    constructor
    · intro n a ha
      rcases hL n a ha with hold | hnew
      · exact Nat.lt_of_lt_of_le (hlan n a hold) hle
      · exact hnew
    · intro p a ha
      rcases hS p a ha with hold | hnew
      · exact Nat.lt_of_lt_of_le (harr p a hold) hle
      · exact hnew

theorem of_update {f : UInt8 → Option ℕ} {k n : UInt8} {b : Option ℕ} {a : ℕ}
    (h : Function.update f k b n = some a) : f n = some a ∨ b = some a := by
  rw [Function.update_apply] at h
  split at h
  · exact .inr h
  · exact .inl h

/-! ### The operations -/

theorem surAdresse {f : TimerTache → Option TimerTache}
    (hf : ∀ t t', f t = some t' → t'.adresse = t.adresse ∧ t'.cAutoDelete = t.cAutoDelete)
    (a : ℕ) : Prolonge s { s with timers := TimerTache.surAdresse a f s.timers } where
  suivant_le := Nat.le_refl _
  anciens := by
    intro t' ht' _
    rcases mem_surAdresse.mp ht' with ⟨ht, -⟩ | ⟨t, ht, -, hft⟩
    · exact ⟨t', ht, rfl, id⟩
    · obtain ⟨hadr, hauto⟩ := hf t t' hft
      exact ⟨t, ht, hadr.symm, hauto.trans⟩
  bornes h := ⟨h.lanceur, h.arret⟩

theorem stop (a : ℕ) : Prolonge s (s.stop a) :=
  surAdresse (fun t t' h => ⟨(garde_stop t t' h).1, stop_cAutoDelete h⟩) a

theorem finThread (a : ℕ) : Prolonge s (s.finThread a) :=
  surAdresse (fun t t' h => ⟨(garde_fini t t' h).1, fini_cAutoDelete h⟩) a

theorem detache (a : ℕ) : Prolonge s (s.detache a) := by
  refine surAdresse (fun t t' h => ?_) a
  obtain rfl := Option.some.inj h
  exact ⟨rfl, rfl⟩

theorem setAutoDelete (a : ℕ) : Prolonge s (s.setAutoDelete a) where
  suivant_le := Nat.le_refl _
  anciens := by
    refine List.forall_mem_map.mpr fun t ht _ => ⟨t, ht, by simp, fun hauto => ?_⟩
    unfold TimerTache.setAutoDelete
    split
    · rfl
    · exact hauto
  bornes h := ⟨h.lanceur, h.arret⟩

theorem effaceLanceur (n : UInt8) : Prolonge s (s.effaceLanceur n) :=
  ajoute (Nat.le_refl _) (fun _ ht => .inl ht)
    (fun _ _ ha => (of_update ha).imp_right nofun) (fun _ _ ha => .inl ha)

theorem effaceStop (p : UInt8) : Prolonge s (s.effaceStop p) :=
  ajoute (Nat.le_refl _) (fun _ ht => .inl ht) (fun _ _ ha => .inl ha)
    (fun _ _ ha => (of_update ha).imp_right nofun)

theorem supprime (b : ℕ) : Prolonge s (s.supprime b) :=
  ajoute (Nat.le_refl _) (fun _ ht => .inl ht) (fun _ _ ha => .inl ha) (fun _ _ ha => .inl ha)

theorem armeLanceur (n : UInt8) (auto : Bool) (usec : ℕ) :
    Prolonge s (s.armeLanceur env toujours n auto usec) := by
  refine ajoute (Nat.le_add_right _ 2) (fun t ht => ?_) (fun _ _ ha => .inl ha)
    (fun _ _ ha => .inl ha)
  rcases List.mem_cons.mp ht with rfl | hmem
  · exact .inr (by simp)
  · exact .inl hmem

theorem insereLanceur {a : ℕ} (ha : a < s.suivant) (n : UInt8) :
    Prolonge s (s.insereLanceur n a) := by
  refine ajoute (Nat.le_refl _) (fun _ ht => .inl ht) (fun _ _ hb => ?_) (fun _ _ hb => .inl hb)
  refine (of_update hb).imp_right fun heq => ?_
  obtain rfl := Option.some.inj heq
  exact ha

theorem lanceProfil (e : DefPlanificationProfil) :
    Prolonge s (s.lanceProfil env toujours e) := by
  refine ajoute (Nat.le_add_right _ 3) (fun t ht => ?_) (fun _ _ ha => .inl ha) (fun _ _ ha => ?_)
  · rcases List.mem_cons.mp ht with rfl | hmem
    · exact .inr (by simp)
    · exact .inl hmem
  · refine (of_update ha).imp_right fun heq => ?_
    rw [← Option.some.inj heq, toujours_eq, start_nouveau_adresse]
    simp [CMainTask.lanceProfil]

theorem iStartProfil (n : UInt8) : Prolonge s (s.iStartProfil env toujours n).2 := by
  unfold CMainTask.iStartProfil
  split
  · refine (effaceLanceur n).trans (foldl (fun r e => ?_) _)
    split
    · exact lanceProfil e
    · exact refl r
  · exact refl s

theorem iStopProfil (p : UInt8) (a : ℕ) : Prolonge s (s.iStopProfil p a).2 := by
  unfold CMainTask.iStopProfil
  split
  · exact (effaceStop p).trans (ajoute (Nat.le_refl _) (fun _ ht => .inl ht)
      (fun _ _ ha => .inl ha) (fun _ _ ha => .inl ha))
  · exact refl s

theorem rappelle (r : Option Rappel) : Prolonge s (s.rappelle env toujours r) := by
  unfold CMainTask.rappelle
  split
  · exact (iStartProfil _).trans (supprime _)
  · exact (iStopProfil _ _).trans (supprime _)
  · exact refl s

theorem expire (t : TimerTache) : Prolonge s (s.expire env toujours t) :=
  (rappelle _).trans (finThread _)

end Prolonge

end CMainTask

open CMainTask (Bornes Prolonge)

namespace Course

variable {env : Env} {m m' : Course} {a : ℕ}

theorem prolonge_stop (hs : m.stop a = some m') :
    Prolonge m.tache m'.tache ∧ m'.etape = m.etape := by
  unfold Course.stop at hs
  split at hs
  · cases hs
    exact ⟨.refl _, rfl⟩
  · split at hs
    · cases hs
      exact ⟨.refl _, rfl⟩
    · cases hs
      exact ⟨.stop a, rfl⟩
    · split at hs
      · cases hs
        exact ⟨.detache a, rfl⟩
      · cases hs

def AttenteBornee (m : Course) : Prop := ∀ k ∈ m.etape.enAttente, k.2 < m.tache.suivant

theorem prolonge_pas (hatt : m.AttenteBornee) (hs : m.pas env = some m') :
    Prolonge m.tache m'.tache ∧ m'.AttenteBornee := by
  have hvide : ∀ {c : Course}, c.etape.enAttente = none → c.AttenteBornee := by
    intro c hc k hk
    rw [hc] at hk
    cases hk
  unfold Course.pas at hs
  cases het : m.etape with
  | repos =>
      rw [het] at hs
      cases hs
  | boucle off reste =>
      rw [het] at hs
      cases reste with
      | nil =>
          cases hs
          exact ⟨.refl _, hvide rfl⟩
      | cons e reste =>
          dsimp only at hs
          split at hs
          · cases hs
            exact ⟨.refl _, hvide rfl⟩
          · split at hs
            · split at hs <;>
              · cases hs
                exact ⟨.refl _, hvide rfl⟩
            · split at hs <;>
              · cases hs
                exact ⟨.refl _, hvide rfl⟩
  | stoppe off e reste a =>
      rw [het] at hs
      obtain ⟨r, hr, rfl⟩ := Option.map_eq_some_iff.mp hs
      exact ⟨(prolonge_stop hr).1, hvide rfl⟩
  | efface off e reste a =>
      rw [het] at hs
      cases hs
      exact ⟨.effaceLanceur _, hvide rfl⟩
  | demarre off e reste differe =>
      rw [het] at hs
      cases hs
      refine ⟨.armeLanceur _ _ _, fun k hk => ?_⟩
      obtain rfl := Option.some.inj hk
      exact Nat.lt_succ_self _
  | insere off e reste differe a =>
      rw [het] at hs
      cases hs
      exact ⟨.insereLanceur (hatt _ (by rw [het]; rfl)) _, hvide rfl⟩

theorem prolonge_step (hatt : m.AttenteBornee) {ev : EvtCourse} (hs : m.step env ev = some m') :
    Prolonge m.tache m'.tache ∧ m'.AttenteBornee ∧
      (ev ≠ .planifie → m.etape = .repos → m'.etape = .repos) := by
  rcases step_cases hs with ⟨rfl, -, rfl⟩ | ⟨rfl, hpas⟩ | ⟨t, -, rfl, -, -, rfl⟩ |
    ⟨t, -, rfl, -, -, -, rfl⟩ | ⟨t, -, rfl, -, -, rfl⟩ | ⟨t, rfl, -, rfl⟩
  · exact ⟨.refl _, nofun, fun hne => absurd rfl hne⟩
  · obtain ⟨hp, hatt'⟩ := prolonge_pas hatt hpas
    refine ⟨hp, hatt', fun _ hrepos => ?_⟩
    rw [Course.pas, hrepos] at hpas
    cases hpas
  · exact ⟨.refl _, hatt, fun _ => id⟩
  · exact ⟨.refl _, hatt, fun _ => id⟩
  · have hp : Prolonge m.tache (m.tache.expire env toujours t) := .expire t
    exact ⟨hp, fun k hk => Nat.lt_of_lt_of_le (hatt k hk) hp.suivant_le, fun _ => id⟩
  · exact ⟨.ajoute (Nat.le_refl _) (fun _ ht => .inl ht) (fun _ _ ha => .inl ha)
      (fun _ _ ha => .inl ha), hatt, fun _ => id⟩

end Course

namespace Fermeture

variable {env : Env} {m m' : Fermeture} {a : ℕ}

/-! ### The timer in hand -/

/-- The `Stop` that comes next, if one does, is on an auto-delete timer: it joins nobody. -/
def SansJoint (m : Fermeture) : Prop :=
  ∀ a ∈ aStopper m.arret, ∀ t ∈ m.course.tache.timers, t.adresse = a → t.cAutoDelete = true

/-- The timer in hand has an address that has been used, and it is auto-delete from
`SetAutoDelete` on. -/
structure Tenue (m : Fermeture) : Prop where
  repos : m.arret ≠ .tourne → m.course.etape = .repos
  bornes : m.course.tache.Bornes
  attente : m.course.AttenteBornee
  main : ∀ a ∈ enMain m.arret, a < m.course.tache.suivant
  sansJoint : m.SansJoint

theorem Tenue.depart (t0 : ℤ) : Tenue (depart t0) where
  repos h := absurd rfl h
  bornes := ⟨nofun, nofun⟩
  attente := nofun
  main := nofun
  sansJoint := nofun

theorem enMain_of_aStopper {e : EtapeArret} (h : a ∈ aStopper e) : a ∈ enMain e := by
  cases e <;> first | exact h | cases h

theorem Tenue.prolonge (h : Tenue m) {c : Course} (l : List ℕ)
    (hp : Prolonge m.course.tache c.tache) (hatt : c.AttenteBornee)
    (hrepos : m.arret ≠ .tourne → c.etape = .repos) :
    Tenue { m with course := c, blocsArret := l } where
  repos := hrepos
  bornes := hp.bornes h.bornes
  attente := hatt
  main a ha := Nat.lt_of_lt_of_le (h.main a ha) hp.suivant_le
  sansJoint := by
    rintro a ha t' ht' rfl
    have hlt := h.main _ (enMain_of_aStopper ha)
    obtain ⟨t, ht, hadr, hauto⟩ := hp.anciens t' ht' hlt
    exact hauto (h.sansJoint _ ha t ht hadr)

theorem Tenue.vers (h : Tenue m) (hp : Prolonge m.course.tache m'.course.tache)
    (hrepos : m'.course.etape = .repos)
    (hmain : ∀ a ∈ enMain m'.arret, a < m.course.tache.suivant) (hjoint : m'.SansJoint) :
    Tenue m' where
  repos _ := hrepos
  bornes := hp.bornes h.bornes
  attente k hk := by
    rw [hrepos] at hk
    cases hk
  main a ha := Nat.lt_of_lt_of_le (hmain a ha) hp.suivant_le
  sansJoint := hjoint

theorem enMain_premierLanceur {k : ℕ} (ha : a ∈ enMain (m.premierLanceur k)) :
    ∃ n, m.course.tache.mLanceurProfil n = some a := by
  unfold premierLanceur at ha
  split at ha
  · rename_i n b he
    obtain rfl := Option.some.inj ha
    exact ⟨n, (entree_eq_some he).1⟩
  · cases ha

theorem enMain_premierArret {k : ℕ} (ha : a ∈ enMain (m.premierArret k)) :
    ∃ p, m.course.tache.mStopProfil p = some a := by
  unfold premierArret at ha
  split at ha
  · rename_i p b he
    obtain rfl := Option.some.inj ha
    exact ⟨p, (entree_eq_some he).1⟩
  · cases ha

theorem aStopper_premierLanceur (k : ℕ) (m : Fermeture) :
    aStopper (m.premierLanceur k) = none := by
  unfold premierLanceur
  split <;> rfl

theorem aStopper_premierArret (k : ℕ) (m : Fermeture) : aStopper (m.premierArret k) = none := by
  unfold premierArret
  split <;> rfl

theorem sansJoint_of_none (h : aStopper m.arret = none) : m.SansJoint := by
  intro a ha
  rw [h] at ha
  cases ha

theorem setAutoDelete_sansJoint {s : CMainTask} {t : TimerTache}
    (ht : t ∈ (s.setAutoDelete a).timers) (hadr : t.adresse = a) : t.cAutoDelete = true := by
  obtain ⟨u, -, rfl⟩ := List.mem_map.mp ht
  rw [TimerTache.setAutoDelete_adresse] at hadr
  rw [TimerTache.setAutoDelete, if_pos hadr]

theorem stop_prolonge (hs : m.stop a = some m') :
    Prolonge m.course.tache m'.course.tache ∧ m'.course.etape = m.course.etape := by
  rcases stop_cases hs with ⟨rfl, -⟩ | ⟨l, rfl⟩
  · exact ⟨.refl _, rfl⟩
  · exact ⟨.stop a, rfl⟩

theorem Tenue.suite (h : Tenue m) (hs : m.suite = some m') : Tenue m' := by
  have hrepos := h.repos
  have hmain := h.main
  unfold Fermeture.suite at hs
  cases het : m.arret with
  | tourne =>
      simp only [het] at hs
      split at hs
      · cases hs
        refine h.vers (.refl _) ‹_› (fun a ha => ?_)
          (sansJoint_of_none (aStopper_premierLanceur 0 m))
        obtain ⟨n, hn⟩ := enMain_premierLanceur ha
        exact h.bornes.lanceur n a hn
      · cases hs
  | lanceurAuto n a | arretAuto n a =>
      simp only [het] at hs
      cases hs
      rw [het] at hrepos hmain
      refine h.vers (.setAutoDelete a) (hrepos nofun) hmain ?_
      intro b hb t ht hadr
      obtain rfl := Option.some.inj hb
      exact setAutoDelete_sansJoint ht hadr
  | lanceurStop n a | arretStop n a =>
      simp only [het] at hs
      obtain ⟨r, hr, rfl⟩ := Option.map_eq_some_iff.mp hs
      obtain ⟨hp, hetape⟩ := stop_prolonge hr
      exact h.vers hp (hetape.trans (hrepos (by simp [het]))) nofun (sansJoint_of_none rfl)
  | lanceurSuivant n =>
      simp only [het] at hs
      cases hs
      refine h.vers (.refl _) (hrepos (by simp [het])) (fun a ha => ?_)
        (sansJoint_of_none (aStopper_premierLanceur _ m))
      obtain ⟨k, hk⟩ := enMain_premierLanceur ha
      exact h.bornes.lanceur k a hk
  | videLanceurs =>
      simp only [het] at hs
      cases hs
      have hp : Prolonge m.course.tache m.course.tache.videLanceurs :=
        .ajoute (Nat.le_refl _) (fun _ ht => .inl ht) nofun (fun _ _ ha => .inl ha)
      refine h.vers hp (hrepos (by simp [het])) (fun a ha => ?_)
        (sansJoint_of_none (aStopper_premierArret 0 m))
      obtain ⟨p, hp⟩ := enMain_premierArret ha
      exact h.bornes.arret p a hp
  | arretSuivant p =>
      simp only [het] at hs
      cases hs
      refine h.vers (.refl _) (hrepos (by simp [het])) (fun a ha => ?_)
        (sansJoint_of_none (aStopper_premierArret _ m))
      obtain ⟨q, hq⟩ := enMain_premierArret ha
      exact h.bornes.arret q a hq
  | arretObjet p a =>
      simp only [het] at hs
      cases hs
      rw [het] at hrepos hmain
      refine h.vers (.refl _) (hrepos nofun) ?_ (sansJoint_of_none ?_) <;>
      · dsimp only
        split
        · first | exact hmain | rfl
        · first | exact hmain | rfl
  | arretDemande p a q =>
      simp only [het] at hs
      cases hs
      rw [het] at hrepos hmain
      exact h.vers (.ajoute (Nat.le_refl _) (fun _ ht => .inl ht) (fun _ _ ha => .inl ha)
        (fun _ _ ha => .inl ha)) (hrepos nofun) hmain (sansJoint_of_none rfl)
  | arretSupprime p a q =>
      simp only [het] at hs
      cases hs
      rw [het] at hrepos hmain
      exact h.vers (.supprime _) (hrepos nofun) hmain (sansJoint_of_none rfl)
  | videArrets =>
      simp only [het] at hs
      cases hs
      exact h.vers (.ajoute (Nat.le_refl _) (fun _ ht => .inl ht) (fun _ _ ha => .inl ha) nofun)
        (hrepos (by simp [het])) nofun (sansJoint_of_none rfl)
  | fini =>
      rw [het] at hs
      cases hs

theorem Tenue.step (h : Tenue m) {ev : EvtFermeture} (hs : m.step env ev = some m') :
    Tenue m' := by
  cases ev with
  | suite => exact h.suite hs
  | rappelleNul a =>
      simp only [Fermeture.step] at hs
      split at hs
      · cases hs
        exact { h with }
      · cases hs
  | course e =>
      simp only [Fermeture.step] at hs
      split at hs
      · cases hs
      · rename_i hplan
        obtain ⟨c, hc, rfl⟩ := Option.map_eq_some_iff.mp hs
        obtain ⟨hp, hatt, hrepos⟩ := Course.prolonge_step h.attente hc
        exact h.prolonge _ hp hatt fun hne => hrepos (fun he => hplan ⟨he, hne⟩) (h.repos hne)

/-! ### The two loops come to their end -/

end Fermeture

end GestAqua
