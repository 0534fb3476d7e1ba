import GestAqua.Planning.Delays
import GestAqua.Planning.Launch

/-!
The delays of the main task on the days on which the offset from UTC changes.

`tGetOffsetFromMidnight` is the local time of day on such a day too, and both
delays are differences of local times of day; but the timers count elapsed
seconds. A timer armed for a reading of the local clock is due at the instant that
`mktime` gives to this reading under the flag of the arming, and the reading is
there when the offset of that flag still is.
-/

namespace GestAqua

namespace Zone

variable (zone : Zone)

/-- Seconds of local civil time of a time of the local day of `t`. -/
def heureDuJour (t secondes : ℤ) : ℤ := 86400 * (zone.heureLocale t / 86400) + secondes

/-- The local clock shows the time at some instant of the local day of `t`; the
end of the day is the next midnight. -/
def Affiche (t secondes : ℤ) : Prop := ∃ u, zone.heureLocale u = zone.heureDuJour t secondes

/-- The instant that `mktime` gives to a time of the local day of `t`, with the
flag of `t`. -/
def instantPrevu (t secondes : ℤ) : ℤ :=
  zone.mktime { zone.localtime t with tmHour := 0, tmMin := 0, tmSec := secondes }

/-- The offset in force at `t` is in force at the instant at which it would make
the clock show the time. -/
def MemeDecalage (t secondes : ℤ) : Prop :=
  zone.decalage (zone.isdst (zone.instantPrevu t secondes)) = zone.decalage (zone.isdst t)

instance (t secondes : ℤ) : Decidable (zone.MemeDecalage t secondes) :=
  inferInstanceAs (Decidable (_ = _))

variable {zone}

theorem add_delai (t secondes : ℤ) :
    t + (secondes - tGetOffsetFromMidnight zone t) = zone.instantPrevu t secondes := by
  have hlocale : zone.heureLocale t = t + zone.decalage (zone.isdst t) := rfl
  rw [tGetOffsetFromMidnight_eq]
  simp only [instantPrevu, mktime, localtime]
  omega

/-- There the clock is off by the change of the offset. -/
theorem heureLocale_instantPrevu (t secondes : ℤ) :
    zone.heureLocale (zone.instantPrevu t secondes) =
      zone.heureDuJour t secondes +
        (zone.decalage (zone.isdst (zone.instantPrevu t secondes)) -
          zone.decalage (zone.isdst t)) := by
  have hmktime : zone.instantPrevu t secondes =
      zone.heureDuJour t secondes - zone.decalage (zone.isdst t) := by
    simp only [instantPrevu, mktime, localtime, heureDuJour]
    omega
  calc zone.heureLocale (zone.instantPrevu t secondes)
      = zone.instantPrevu t secondes +
          zone.decalage (zone.isdst (zone.instantPrevu t secondes)) := rfl
    _ = _ := by omega

theorem heureLocale_instantPrevu_iff (t secondes : ℤ) :
    zone.heureLocale (zone.instantPrevu t secondes) = zone.heureDuJour t secondes ↔
      zone.MemeDecalage t secondes := by
  rw [heureLocale_instantPrevu, MemeDecalage]
  omega

theorem memeDecalage_fixe (z t secondes : ℤ) : (Zone.fixe z).MemeDecalage t secondes := rfl

end Zone

/-- The timer, started at the instant `maintenant`, is armed and due when the local
clock shows a time of the day of its start, if the clock shows it. -/
structure TimerTache.SonneA (env : Env) (maintenant secondes : ℤ) (t : TimerTache) : Prop where
  arme : t.timer.bStarted = true
  heure : env.zone.Affiche (env.time maintenant) secondes →
    env.zone.heureLocale (env.time t.echeance) =
      env.zone.heureDuJour (env.time maintenant) secondes

open TimerTache

/-- An armed timer whose delay is the time left until the reading. -/
theorem sonneA_iff {env : Env} (hu : 0 < env.parSeconde) {maintenant secondes : ℤ}
    {t : TimerTache} (hst : t.timer.bStarted = true)
    (he : t.echeance = maintenant +
      (secondes - tGetOffsetFromMidnight env.zone (env.time maintenant)) * env.parSeconde) :
    t.SonneA env maintenant secondes ↔
      (env.zone.Affiche (env.time maintenant) secondes →
        env.zone.MemeDecalage (env.time maintenant) secondes) := by
  have htime : env.time t.echeance = env.zone.instantPrevu (env.time maintenant) secondes := by
    rw [he, Env.time_add hu, Zone.add_delai]
  rw [← Zone.heureLocale_instantPrevu_iff, ← htime]
  exact ⟨fun h => h.heure, fun h => ⟨hst, h⟩⟩

namespace CMainTask

variable {env : Env} {s : CMainTask} {e : DefPlanificationProfil}

/-- The timers that the two loops of the main task arm for an entry, each with the
reading it is for: the turn of the entry in the loop of `iInitPlanification` before
the window begins, and its turn in the loop of `iStartProfil` inside the window.
`s` is the state in which the function is called. -/
inductive ArmePour (env : Env) (e : DefPlanificationProfil) (s : CMainTask) :
    ℤ → TimerTache → Prop
  | lanceur {l l' : List DefPlanificationProfil} {r : CMainTask} {t : TimerTache}
      (table : env.stPlanifProfil = l ++ e :: l')
      (avant : s.tOffsetMidnight env < e.stPlanif.tDebut)
      (boucle : l.foldl (planifieEntree env toujours (s.tOffsetMidnight env)) s = r)
      (tour : (r.planifieEntree env toujours (s.tOffsetMidnight env) e).timers =
        t :: (r.remplaceLanceur e.ucNumeroPlanif).timers) :
      ArmePour env e s e.stPlanif.tDebut t
  | arret {l l' : List DefPlanificationProfil} {r : CMainTask} {t : TimerTache}
      (table : entrees env e.ucNumeroPlanif = l ++ e :: l')
      (dedans : e.stPlanif.tDebut ≤ s.tOffsetMidnight env ∧ s.tOffsetMidnight env < e.tFin)
      (boucle : l.foldl (lanceProfil env toujours) (s.effaceLanceur e.ucNumeroPlanif) = r)
      (tour : (r.lanceProfil env toujours e).timers = t :: r.timers) :
      ArmePour env e s e.tFin t

theorem maintenant_foldl_lanceProfil (l : List DefPlanificationProfil) (s : CMainTask) :
    (l.foldl (lanceProfil env toujours) s).maintenant = s.maintenant :=
  Folds.foldl_invariant (I := fun r : CMainTask => r.maintenant = s.maintenant)
    (f := lanceProfil env toujours) (fun _ _ _ hr => hr) rfl

theorem timers_planifieEntree_avant (hv : PlanValide e) {off : ℤ} (hoff : 0 ≤ off)
    (avant : off < e.stPlanif.tDebut) (r : CMainTask) :
    (r.planifieEntree env toujours off e).timers =
      (r.remplaceLanceur e.ucNumeroPlanif).nouveauLanceur env e.ucNumeroPlanif true
          ((e.stPlanif.tDebut - off).toNat * microSec) ::
        (r.remplaceLanceur e.ucNumeroPlanif).timers := by
  have hf := hv.fin_le
  have hdf := hv.debut_lt_fin
  rw [planifieEntree, if_neg hv.planif_ne_zero, if_pos avant,
    Env.usec_lancement (by omega) (by omega),
    timers_creeLanceur _ true (Env.usec_secondes_ne_zero (by omega))]

variable (env) in
theorem exists_lanceur_armePour (hv : PlanValide e) (he : e ∈ env.stPlanifProfil)
    (avant : s.tOffsetMidnight env < e.stPlanif.tDebut) :
    ∃ t, ArmePour env e s e.stPlanif.tDebut t := by
  obtain ⟨l, l', table⟩ := List.append_of_mem he
  exact ⟨_, .lanceur table avant rfl
    (timers_planifieEntree_avant hv (tGetOffsetFromMidnight_nonneg _ _) avant _)⟩

variable (env) in
theorem exists_arret_armePour (he : e ∈ env.stPlanifProfil)
    (dedans : e.stPlanif.tDebut ≤ s.tOffsetMidnight env ∧ s.tOffsetMidnight env < e.tFin) :
    ∃ t, ArmePour env e s e.tFin t := by
  have hentree : e ∈ entrees env e.ucNumeroPlanif := List.mem_filter.mpr ⟨he, by simp⟩
  obtain ⟨l, l', table⟩ := List.append_of_mem hentree
  exact ⟨_, .arret table dedans rfl (timers_lanceProfil_eq _ e)⟩

theorem ArmePour.timer (hv : PlanValide e) {secondes : ℤ} {t : TimerTache}
    (h : ArmePour env e s secondes t) :
    t.timer.bStarted = true ∧
      t.echeance = s.maintenant + (secondes - s.tOffsetMidnight env) * env.parSeconde := by
  have hd0 := hv.debut_nonneg
  have hf := hv.fin_le
  have hdf := hv.debut_lt_fin
  have hoff0 : 0 ≤ s.tOffsetMidnight env := tGetOffsetFromMidnight_nonneg _ _
  cases h with
  | @lanceur l _ r _ _ avant boucle tour =>
      have hnow : r.maintenant = s.maintenant := by
        rw [← boucle]
        exact maintenant_iInitPlanification toujours l
      rw [timers_planifieEntree_avant hv hoff0 avant] at tour
      obtain rfl := (List.cons.inj tour).1
      refine ⟨rfl, ?_⟩
      show (r.remplaceLanceur e.ucNumeroPlanif).maintenant + env.duree _ = _
      rw [maintenant_remplaceLanceur, hnow, Env.duree_secondes (by omega)]
  | @arret l _ r _ _ dedans boucle tour =>
      have hnow : r.maintenant = s.maintenant := by
        rw [← boucle, maintenant_foldl_lanceProfil]
        rfl
      have hoff : r.tOffsetMidnight env = s.tOffsetMidnight env := by
        rw [tOffsetMidnight, hnow, tOffsetMidnight]
      have hreste : (Lancement.mk r.suivant e).reste (s.tOffsetMidnight env) =
          e.tFin - s.tOffsetMidnight env := rfl
      have husec := Env.uint64_secondes (x := e.tFin - s.tOffsetMidnight env) (by omega) (by omega)
      have hne := Env.usec_secondes_ne_zero (x := e.tFin - s.tOffsetMidnight env) (by omega)
      rw [← husec, ← hreste] at hne
      rw [timers_lanceProfil_eq, hoff, Lancement.stopTacheprofil_of_ne hne] at tour
      obtain rfl := (List.cons.inj tour).1
      refine ⟨rfl, ?_⟩
      show r.maintenant + env.duree _ = _
      rw [hnow, hreste, husec, Env.duree_secondes (by omega)]

/-- A delay that the main task arms ends at its reading of the local clock exactly
when the offset in force at the arming is still in force there, or the clock never
shows the reading. -/
theorem sonneA_armePour_iff (hu : 0 < env.parSeconde) (hv : PlanValide e) {secondes : ℤ}
    {t : TimerTache} (h : ArmePour env e s secondes t) :
    t.SonneA env s.maintenant secondes ↔
      (env.zone.Affiche (env.time s.maintenant) secondes →
        env.zone.MemeDecalage (env.time s.maintenant) secondes) := by
  obtain ⟨hst, hech⟩ := h.timer hv
  exact sonneA_iff hu hst hech

/-- In a zone with a constant offset every delay ends at its reading. -/
theorem ArmePour.sonneA_fixe (hu : 0 < env.parSeconde) (hv : PlanValide e) {z : ℤ}
    (hz : env.zone = .fixe z) {secondes : ℤ} {t : TimerTache} (h : ArmePour env e s secondes t) :
    t.SonneA env s.maintenant secondes := by
  obtain ⟨hst, hech⟩ := h.timer hv
  refine (sonneA_iff hu hst hech).mpr fun _ => ?_
  rw [hz]
  exact Zone.memeDecalage_fixe _ _ _

/-- A zone one hour east of UTC whose clock is put forward by one hour at 1:00 UTC
of the second day. -/
def envHeureEte (l : List DefPlanificationProfil) : Env where
  parSeconde := 1
  zone := { decalage := fun tmIsdst => if tmIsdst then 7200 else 3600
            isdst := fun t => decide (90000 ≤ t) }
  tmYday d := d % 365
  stPlanifProfil := l

/-- Planned at 1:00 of the local clock on the day of the change, a window from 1:30
is launched before it. -/
theorem sonneA_avant_heure_ete :
    (arme (envHeureEte [.planifie 1 1 5400 3600]) 2 true 86400 1800000000
      (.fctStartProfil ⟨1, 1⟩)).SonneA (envHeureEte [.planifie 1 1 5400 3600]) 86400 5400 :=
  (sonneA_armePour_iff (s := construit 86400) (e := .planifie 1 1 5400 3600) (by decide)
    ⟨by decide, by decide, by decide, by decide⟩
    (.lanceur (l := []) rfl (by decide) rfl rfl)).mpr fun _ => by decide

/-- Planned then, the first plan of the shipped table, which begins at eight, is
launched at nine. -/
theorem lancement_en_retard_heure_ete :
    PlanValide (.planifie 1 1 (8 * heure) (12 * heure)) ∧
      ∃ t, ArmePour (envHeureEte sInitPlanification) (.planifie 1 1 (8 * heure) (12 * heure))
          (construit 86400) (8 * heure) t ∧
        (envHeureEte sInitPlanification).zone.Affiche 86400 (8 * heure) ∧
        (envHeureEte sInitPlanification).zone.heureLocale t.echeance = 86400 + 9 * heure ∧
        ¬ t.SonneA (envHeureEte sInitPlanification) 86400 (8 * heure) := by
  have haffiche : (envHeureEte sInitPlanification).zone.Affiche 86400 (8 * heure) :=
    ⟨108000, by decide⟩
  refine ⟨⟨by decide, by decide, by decide, by decide⟩, _,
    .lanceur (l := []) rfl (by decide) rfl rfl,
    haffiche, by decide, fun h => ?_⟩
  exact absurd (h.heure haffiche) (by decide)

/-! ### An ideal timer is never late -/

def SansRetard (s : CMainTask) : Prop :=
  ∀ t ∈ s.timers, t.timer.bStarted = true → s.maintenant ≤ t.echeance

namespace SansRetard

theorem surAdresse (h : SansRetard s) {f : TimerTache → Option TimerTache} (hf : Garde f)
    (a : ℕ) : SansRetard { s with timers := TimerTache.surAdresse a f s.timers } := by
  intro t ht hst
  rcases mem_surAdresse.mp ht with ⟨ht, -⟩ | ⟨u, -, -, hft⟩
  · exact h t ht hst
  · simp [(hf u t hft).2.1] at hst

theorem nouveau {a : ℕ} {auto : Bool} {usec : ℕ} {now : ℤ} {r : Rappel}
    (hst : ((TimerTache.nouveau a auto).start env true now usec r).timer.bStarted = true) :
    now ≤ ((TimerTache.nouveau a auto).start env true now usec r).echeance := by
  have hduree := env.duree_nonneg usec
  rw [start_nouveau] at hst ⊢
  split at hst
  · simp [TimerTache.nouveau, CTimer.init] at hst
  · rename_i hu
    rw [if_neg hu]
    show now ≤ now + env.duree usec
    omega

theorem creeLanceur (h : SansRetard s) (n : UInt8) (auto : Bool) (usec : ℕ) :
    SansRetard (s.creeLanceur env toujours n auto usec) := by
  intro t ht hst
  rcases List.mem_cons.mp ht with rfl | ht
  · exact nouveau hst
  · exact h t ht hst

theorem remplaceLanceur (h : SansRetard s) (n : UInt8) : SansRetard (s.remplaceLanceur n) := by
  unfold CMainTask.remplaceLanceur
  split
  · exact h.surAdresse garde_stop _
  · exact h

theorem planifieEntree (h : SansRetard s) (off : ℤ) (e : DefPlanificationProfil) :
    SansRetard (s.planifieEntree env toujours off e) := by
  unfold CMainTask.planifieEntree
  split
  · exact h
  · split
    · exact (h.remplaceLanceur _).creeLanceur _ true _
    · split
      · exact h.creeLanceur _ false 100
      · exact h

theorem testeJour (h : SansRetard s) : SansRetard (s.testeJour env toujours) := by
  unfold CMainTask.testeJour
  dsimp only
  split
  · exact Folds.foldl_invariant (fun _ e _ hs => hs.planifieEntree _ e) h
  · exact h

theorem lanceProfil (h : SansRetard s) (e : DefPlanificationProfil) :
    SansRetard (s.lanceProfil env toujours e) := by
  intro t ht hst
  rcases List.mem_cons.mp ht with rfl | ht
  · exact nouveau hst
  · exact h t ht hst

theorem rappelle (h : SansRetard s) (r : Option Rappel) :
    SansRetard (s.rappelle env toujours r) := by
  unfold CMainTask.rappelle
  split
  · show SansRetard (CMainTask.iStartProfil _ _ _ _).2
    unfold CMainTask.iStartProfil
    split
    · refine Folds.foldl_invariant (fun u e _ hu => ?_) h
      split
      · exact hu.lanceProfil e
      · exact hu
    · exact h
  · show SansRetard (CMainTask.iStopProfil _ _ _).2
    unfold CMainTask.iStopProfil
    split <;> exact h
  · exact h

theorem expire (h : SansRetard s) (t : TimerTache) : SansRetard (s.expire env toujours t) :=
  (h.rappelle _).surAdresse garde_fini _

end SansRetard

end CMainTask

namespace Ideal

variable {env : Env} {t0 : ℤ} {m : Ideal}

theorem sansRetard (hm : Atteint env t0 m) : m.tache.SansRetard := by
  refine hm.invariant (I := fun m => m.tache.SansRetard) (by simp [CMainTask.SansRetard, depart,
    CMainTask.construit]) fun m ev m' h hs => ?_
  rcases step_cases hs with ⟨-, -, rfl⟩ | ⟨t, -, -, -, -, rfl⟩ | ⟨-, -, hcalme, rfl⟩
  · exact h.testeJour
  · exact h.expire t
  · -- time passes an instant only when nothing is due at it
    exact hcalme

/-- In every run of the ideal machine a timer fires at the instant at which it is
due. -/
theorem maintenant_eq_echeance (hm : Atteint env t0 m) {a : ℕ} {t : TimerTache}
    (h : m.tache.echu a = some t) : m.tache.maintenant = t.echeance := by
  obtain ⟨ht, -, hst, hdue⟩ := CMainTask.echu_eq_some h
  exact le_antisymm (sansRetard hm t ht hst) hdue

end Ideal

end GestAqua
