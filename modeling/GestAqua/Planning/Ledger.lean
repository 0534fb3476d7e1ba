import GestAqua.Planning.Phases

/-!
The ledger of timers and parameter blocks.

A launch timer that planning arms for later is auto-delete: its thread deletes
it after the callback, which deletes the parameter block. No other timer is: an
immediate launcher and a stop timer stay allocated after they have fired, and no
registry leads to them any more. `SansFuite` is the exact condition on a run
under which the live timers are those of the registries; it is broken at the
latest by the first stop timer that fires.
-/

namespace GestAqua

namespace TimerTache

def bloc (t : TimerTache) : Option ℕ :=
  match t.timer.hObjetAttache with
  | some (.fctStartProfil pParam) => some pParam.bloc
  | some (.fctStopProfil pParam) => some pParam.bloc
  | none => none

/-- The key under which a timer is registered, by plan or by profile. -/
def cle (t : TimerTache) : Option (UInt8 ⊕ UInt8) :=
  match t.timer.hObjetAttache with
  | some (.fctStartProfil pParam) => some (.inl pParam.ucNumeroPlanif)
  | some (.fctStopProfil pParam) => some (.inr pParam.ucNumeroProfil)
  | none => none

theorem bloc_garde {f : TimerTache → Option TimerTache} (hf : Garde f) {t t' : TimerTache}
    (h : f t = some t') {b : ℕ} (hb : t'.bloc = some b) : t.bloc = some b := by
  cases hr : t'.timer.hObjetAttache with
  | none => simp [bloc, hr] at hb
  | some r =>
      rw [bloc, hr] at hb
      rw [bloc, (hf t t' h).2.2 r hr]
      exact hb

theorem lanceurDe_eq_true {t : TimerTache} {n : UInt8} (hst : t.timer.bStarted = true) :
    t.lanceurDe n = true ↔ t.cle = some (.inl n) := by
  rw [lanceurDe_iff]
  unfold cle
  split <;> simp_all

end TimerTache

namespace CMainTask

open TimerTache

variable {env : Env} {s s' : CMainTask}

def registre (s : CMainTask) : UInt8 ⊕ UInt8 → Option ℕ
  | .inl n => s.mLanceurProfil n
  | .inr p => s.mStopProfil p

/-- The ledger balances: every live timer is armed, the live timers are those
that the registries hold, every live parameter block belongs to a live timer, and
no block was deleted twice. -/
structure Bilan (s : CMainTask) : Prop where
  armes : ∀ t ∈ s.timers, t.timer.bStarted = true
  objets : ∀ a, (∃ t ∈ s.timers, t.adresse = a) ↔
    (∃ n, s.mLanceurProfil n = some a) ∨ ∃ p, s.mStopProfil p = some a
  blocs : ∀ b ∈ s.blocs, ∃ t ∈ s.timers, t.bloc = some b
  unique : s.doubleDelete = false

def Arme (off : ℤ) (e : DefPlanificationProfil) : Prop :=
  e.ucNumeroPlanif ≠ 0 ∧ (off < e.stPlanif.tDebut ∨ off < e.tFin)

instance (off : ℤ) : DecidablePred (Arme off) :=
  fun _ => inferInstanceAs (Decidable (_ ∧ _))

/-- Planning arms plans that have no registered launcher, each once, with delays
that are not zero in 64 bits. -/
def PlanificationLibre (env : Env) (s : CMainTask) : Prop :=
  Folds.Fresh (Arme (s.tOffsetMidnight env))
    (fun e => s.tOffsetMidnight env < e.stPlanif.tDebut →
      (e.stPlanif.tDebut - s.tOffsetMidnight env) % 2 ^ 58 ≠ 0)
    (·.ucNumeroPlanif) (fun r n => r.mLanceurProfil n ≠ none) env.stPlanifProfil s

/-- The launch made by a timer registers each of its profiles for the first time,
with delays that are not zero in 64 bits. -/
def ProfilsLibres (env : Env) (s : CMainTask) (t : TimerTache) : Prop :=
  Folds.Fresh (fun e => t.lanceurDe e.ucNumeroPlanif = true)
    (fun e => (e.tFin - s.tOffsetMidnight env) % 2 ^ 58 ≠ 0)
    (·.ucNumeroProfil) (fun r p => r.mStopProfil p ≠ none) env.stPlanifProfil s

/-- A planning finds its plans free; the timer that fires is an auto-delete
launcher, and its launch finds its profiles free. -/
def SansFuite (env : Env) (s : CMainTask) : EvtLibre → Prop
  | .planifie => PlanificationLibre env s
  | .expire a => ∀ t ∈ s.timers, t.adresse = a → t.cAutoDelete = true ∧ ProfilsLibres env s t
  | .avance _ => True

instance (env : Env) (s : CMainTask) : Decidable (PlanificationLibre env s) :=
  Folds.Fresh.decidable (Arme (s.tOffsetMidnight env)) _ _ _ _ _

instance (env : Env) (s : CMainTask) (t : TimerTache) : Decidable (ProfilsLibres env s t) :=
  Folds.Fresh.decidable (fun e : DefPlanificationProfil => t.lanceurDe e.ucNumeroPlanif = true)
    (fun e => (e.tFin - s.tOffsetMidnight env) % 2 ^ 58 ≠ 0) (·.ucNumeroProfil)
    (fun (r : CMainTask) p => r.mStopProfil p ≠ none) env.stPlanifProfil s

instance (env : Env) (s : CMainTask) : ∀ ev, Decidable (SansFuite env s ev)
  | .planifie => inferInstanceAs (Decidable (PlanificationLibre env s))
  | .expire a => inferInstanceAs (Decidable (∀ t ∈ s.timers, t.adresse = a →
      t.cAutoDelete = true ∧ ProfilsLibres env s t))
  | .avance _ => isTrue trivial

/-! ### The invariant

`Tenu hors s` is the balance in a form that every operation keeps, with at most
one timer, at the address `hors`, that has left the registries and whose callback
is in progress. -/

structure Tenu (hors : Option ℕ) (s : CMainTask) : Prop where
  forme : BienForme s
  armes : ∀ t ∈ s.timers, t.timer.bStarted = true
  objets : ∀ t ∈ s.timers, some t.adresse ≠ hors →
    ∃ k, t.cle = some k ∧ s.registre k = some t.adresse
  registres : ∀ k a, s.registre k = some a → some a ≠ hors ∧
    ∃ t ∈ s.timers, t.adresse = a ∧ t.cle = some k
  blocs : ∀ b ∈ s.blocs, ∃ t ∈ s.timers, t.bloc = some b
  vivants : ∀ t ∈ s.timers, ∀ b, t.bloc = some b → b ∈ s.blocs ∧ b < s.suivant
  bloc_inj : ∀ t ∈ s.timers, ∀ t' ∈ s.timers, t.bloc = t'.bloc → t = t'
  auto : ∀ t ∈ s.timers, t.cAutoDelete = true → ∃ n, t.cle = some (.inl n)
  unique : s.doubleDelete = false

theorem Tenu.construit (t : ℤ) : Tenu none (.construit t) where
  forme := .construit t
  armes := by simp [CMainTask.construit]
  objets := by simp [CMainTask.construit]
  registres k a h := by cases k <;> simp [CMainTask.construit, registre] at h
  blocs := by simp [CMainTask.construit]
  vivants := by simp [CMainTask.construit]
  bloc_inj := by simp [CMainTask.construit]
  auto := by simp [CMainTask.construit]
  unique := rfl

theorem Tenu.bilan (h : Tenu none s) : Bilan s where
  armes := h.armes
  objets a := by
    constructor
    · rintro ⟨t, ht, rfl⟩
      obtain ⟨k, -, hk⟩ := h.objets t ht (by simp)
      cases k with
      | inl n => exact .inl ⟨n, hk⟩
      | inr p => exact .inr ⟨p, hk⟩
    · rintro (⟨n, hn⟩ | ⟨p, hp⟩)
      · obtain ⟨-, t, ht, hadr, -⟩ := h.registres (.inl n) a hn
        exact ⟨t, ht, hadr⟩
      · obtain ⟨-, t, ht, hadr, -⟩ := h.registres (.inr p) a hp
        exact ⟨t, ht, hadr⟩
  blocs := h.blocs
  unique := h.unique

theorem Tenu.ajoute {hors : Option ℕ} (h : Tenu hors s) (hforme : BienForme s')
    {t : TimerTache} {b : ℕ} (k : UInt8 ⊕ UInt8) (htimers : s'.timers = t :: s.timers)
    (hblocs : s'.blocs = b :: s.blocs) (hdouble : s'.doubleDelete = s.doubleDelete)
    (hk : s.registre k = none)
    (hreg : s'.registre = Function.update s.registre k (some t.adresse))
    (hst : t.timer.bStarted = true) (hcle : t.cle = some k) (hbloc : t.bloc = some b)
    (hauto : t.cAutoDelete = true → ∃ n, k = .inl n) (hhors : ∀ a, hors = some a → a < s.suivant)
    (hadr : s.suivant ≤ t.adresse) (hb : s.suivant ≤ b) (hb' : b < s'.suivant) :
    Tenu hors s' := by
  have hautre : ∀ j a, j ≠ k → s'.registre j = some a → s.registre j = some a := by
    intro j a hj ha
    rwa [hreg, Function.update_of_ne hj] at ha
  have hneuf : ∀ u ∈ s.timers, u.bloc ≠ some b := by
    intro u hu hub
    have := (h.vivants u hu b hub).2
    omega
  refine ⟨hforme, ?_, ?_, ?_, ?_, ?_, ?_, ?_, hdouble.trans h.unique⟩
  · rw [htimers]
    exact List.forall_mem_cons.mpr ⟨hst, h.armes⟩
  · rw [htimers]
    refine List.forall_mem_cons.mpr ⟨fun _ => ⟨k, hcle, by rw [hreg, Function.update_self]⟩,
      fun u hu hne => ?_⟩
    obtain ⟨j, hj, hja⟩ := h.objets u hu hne
    refine ⟨j, hj, ?_⟩
    have hjk : j ≠ k := by
      rintro rfl
      rw [hk] at hja
      cases hja
    rw [hreg, Function.update_of_ne hjk, hja]
  · intro j a ha
    rw [htimers]
    by_cases hjk : j = k
    · subst hjk
      rw [hreg, Function.update_self] at ha
      obtain rfl := Option.some.inj ha
      refine ⟨fun hh => ?_, t, List.mem_cons_self, rfl, hcle⟩
      have := hhors t.adresse hh.symm
      omega
    · obtain ⟨hne, u, hu, hua, huk⟩ := h.registres j a (hautre j a hjk ha)
      exact ⟨hne, u, List.mem_cons_of_mem _ hu, hua, huk⟩
  · rw [htimers, hblocs]
    refine List.forall_mem_cons.mpr ⟨⟨t, List.mem_cons_self, hbloc⟩, fun c hc => ?_⟩
    obtain ⟨u, hu, huc⟩ := h.blocs c hc
    exact ⟨u, List.mem_cons_of_mem _ hu, huc⟩
  · rw [htimers, hblocs]
    refine List.forall_mem_cons.mpr ⟨fun c hc => ?_, fun u hu c hc => ?_⟩
    · obtain rfl : b = c := by simpa [hbloc] using hc
      exact ⟨List.mem_cons_self, hb'⟩
    · obtain ⟨hmem, hlt⟩ := h.vivants u hu c hc
      exact ⟨List.mem_cons_of_mem _ hmem, by omega⟩
  · rw [htimers]
    intro u hu v hv huv
    rcases List.mem_cons.mp hu with rfl | hu' <;> rcases List.mem_cons.mp hv with rfl | hv'
    · rfl
    · exact absurd (huv.symm.trans hbloc) (hneuf v hv')
    · exact absurd (huv.trans hbloc) (hneuf u hu')
    · exact h.bloc_inj u hu' v hv' huv
  · rw [htimers]
    refine List.forall_mem_cons.mpr ⟨fun ha => ?_, h.auto⟩
    obtain ⟨n, rfl⟩ := hauto ha
    exact ⟨n, hcle⟩

theorem registre_creeLanceur (n : UInt8) (auto : Bool) (usec : ℕ) :
    (s.creeLanceur env toujours n auto usec).registre =
      Function.update s.registre (.inl n) (some (s.suivant + 1)) := by
  funext k
  cases k with
  | inl m => by_cases hm : m = n <;> simp [registre, creeLanceur, hm]
  | inr p => simp [registre, creeLanceur]

theorem Tenu.creeLanceur (h : Tenu none s) {n : UInt8} (hn : n ≠ 0)
    (hlibre : s.mLanceurProfil n = none) (auto : Bool) {usec : ℕ} (hu : usec ≠ 0) :
    Tenu none (s.creeLanceur env toujours n auto usec) :=
  h.ajoute (h.forme.creeLanceur hn auto usec) (.inl n) (timers_creeLanceur n auto hu) rfl rfl hlibre
    (registre_creeLanceur n auto usec) rfl rfl rfl (fun _ => ⟨n, rfl⟩) (by simp)
    (Nat.le_succ _) le_rfl (Nat.lt_add_of_pos_right (by decide))

theorem registre_lanceProfil (e : DefPlanificationProfil) :
    (s.lanceProfil env toujours e).registre =
      Function.update s.registre (.inr e.ucNumeroProfil) (some (s.suivant + 2)) := by
  funext k
  cases k with
  | inl n => simp [registre, lanceProfil]
  | inr p =>
      by_cases hp : p = e.ucNumeroProfil <;>
        simp [registre, lanceProfil, hp]

theorem Tenu.lanceProfil {hors : Option ℕ} (h : Tenu hors s)
    (hhors : ∀ a, hors = some a → a < s.suivant) (e : DefPlanificationProfil)
    (hlibre : s.mStopProfil e.ucNumeroProfil = none) (hu : s.DelaiNonNul env e) :
    Tenu hors (s.lanceProfil env toujours e) :=
  h.ajoute (h.forme.lanceProfil e) (.inr e.ucNumeroProfil) (timers_lanceProfil e hu) rfl rfl hlibre
    (registre_lanceProfil e) rfl rfl rfl (by simp [nouvelArret, arme]) hhors
    (Nat.le_add_right _ _) (Nat.le_succ _) (Nat.add_lt_add_left (by decide) _)

/-! ### Leaks

A leak is for good: no planning and no launch takes it back. -/

/-- A live timer that is not armed, or that no registry holds. -/
def Perdu (u : TimerTache) (s : CMainTask) : Prop :=
  u ∈ s.timers ∧ (u.timer.bStarted = false ∨ ∀ k, s.registre k ≠ some u.adresse)

/-- A live block that belongs to no live timer. -/
def BlocPerdu (b : ℕ) (s : CMainTask) : Prop :=
  b ∈ s.blocs ∧ b < s.suivant ∧ ∀ t ∈ s.timers, t.bloc ≠ some b

theorem Perdu.not_bilan {u : TimerTache} (h : Perdu u s) : ¬ Bilan s := by
  intro hb
  obtain ⟨hu, hst | hreg⟩ := h
  · simp [hb.armes u hu] at hst
  · rcases (hb.objets u.adresse).mp ⟨u, hu, rfl⟩ with ⟨n, hn⟩ | ⟨p, hp⟩
    · exact hreg (.inl n) hn
    · exact hreg (.inr p) hp

theorem BlocPerdu.not_bilan {b : ℕ} (h : BlocPerdu b s) : ¬ Bilan s := by
  intro hb
  obtain ⟨t, ht, htb⟩ := hb.blocs b h.1
  exact h.2.2 t ht htb

theorem Perdu.ajoute {u : TimerTache} (h : Perdu u s) (hforme : BienForme s)
    (hsub : u ∈ s'.timers) {k : UInt8 ⊕ UInt8} {a : ℕ}
    (hreg : s'.registre = Function.update s.registre k (some a)) (ha : s.suivant ≤ a) :
    Perdu u s' := by
  refine ⟨hsub, h.2.imp id fun hne j => ?_⟩
  rw [hreg, Function.update_apply]
  split
  · have := hforme.adresse_lt u h.1
    intro heq
    have := Option.some.inj heq
    omega
  · exact hne j

theorem Perdu.creeLanceur {u : TimerTache} (h : Perdu u s) (hforme : BienForme s) (n : UInt8)
    (auto : Bool) (usec : ℕ) : Perdu u (s.creeLanceur env toujours n auto usec) :=
  h.ajoute hforme (List.mem_cons_of_mem _ h.1) (registre_creeLanceur n auto usec)
    (Nat.le_succ _)

theorem Perdu.lanceProfil {u : TimerTache} (h : Perdu u s) (hforme : BienForme s)
    (e : DefPlanificationProfil) : Perdu u (s.lanceProfil env toujours e) :=
  h.ajoute hforme (List.mem_cons_of_mem _ h.1) (registre_lanceProfil e) (Nat.le_add_right _ _)

/-- Replacing a launcher keeps the lost timers: it stops a registered one, and
stopping a timer that is not armed does nothing. -/
theorem Perdu.remplaceLanceur {u : TimerTache} (h : Perdu u s) (n : UInt8) :
    Perdu u (s.remplaceLanceur n) := by
  unfold CMainTask.remplaceLanceur
  cases hm : s.mLanceurProfil n with
  | none => exact h
  | some a =>
      refine ⟨mem_surAdresse.mpr ?_, h.2.imp id fun hne k => ?_⟩
      · by_cases hu : u.adresse = a
        · have hst : u.timer.bStarted = false :=
            h.2.resolve_right fun hne => hne (.inl n) (hu ▸ hm)
          exact .inr ⟨u, h.1, hu, by simp [TimerTache.stop, hst]⟩
        · exact .inl ⟨h.1, hu⟩
      · cases k with
        | inl m =>
            by_cases hmn : m = n
            · simp [registre, effaceLanceur, hmn]
            · simpa [registre, effaceLanceur, hmn, CMainTask.stop] using hne (.inl m)
        | inr p => exact hne (.inr p)

theorem bloc_start_nouveau {a : ℕ} {auto : Bool} {now : ℤ} {usec : ℕ} {r : Rappel} {b : ℕ}
    (h : ((nouveau a auto).start env true now usec r).bloc = some b) :
    (arme env a auto now usec r).bloc = some b := by
  rw [start_nouveau] at h
  split at h
  · cases h
  · exact h

theorem BlocPerdu.creeLanceur {b : ℕ} (h : BlocPerdu b s) (n : UInt8) (auto : Bool)
    (usec : ℕ) : BlocPerdu b (s.creeLanceur env toujours n auto usec) := by
  obtain ⟨hmem, hlt, hne⟩ := h
  refine ⟨List.mem_cons_of_mem _ hmem, Nat.lt_add_right _ hlt, fun t ht htb => ?_⟩
  rcases List.mem_cons.mp ht with rfl | ht
  · have : s.suivant = b := Option.some.inj (bloc_start_nouveau htb)
    omega
  · exact hne t ht htb

theorem BlocPerdu.remplaceLanceur {b : ℕ} (h : BlocPerdu b s) (n : UInt8) :
    BlocPerdu b (s.remplaceLanceur n) := by
  obtain ⟨hmem, hlt, hne⟩ := h
  unfold CMainTask.remplaceLanceur
  cases s.mLanceurProfil n with
  | none => exact ⟨hmem, hlt, hne⟩
  | some a =>
      refine ⟨hmem, hlt, fun t ht htb => ?_⟩
      rcases mem_surAdresse.mp ht with ⟨ht, -⟩ | ⟨u, hu, -, hstop⟩
      · exact hne t ht htb
      · exact hne u hu (bloc_garde garde_stop hstop htb)

/-! ### Planning -/

def Fuite (s : CMainTask) : Prop := BienForme s ∧ ((∃ u, Perdu u s) ∨ ∃ b, BlocPerdu b s)

theorem Fuite.not_bilan (h : Fuite s) : ¬ Bilan s := by
  obtain ⟨-, ⟨u, hu⟩ | ⟨b, hb⟩⟩ := h
  · exact hu.not_bilan
  · exact hb.not_bilan

theorem Fuite.planifieEntree (h : Fuite s) (off : ℤ) (e : DefPlanificationProfil) :
    Fuite (s.planifieEntree env toujours off e) := by
  obtain ⟨hforme, hfuite⟩ := h
  refine ⟨hforme.planifieEntree off e, ?_⟩
  have hforme' := hforme.remplaceLanceur e.ucNumeroPlanif
  unfold CMainTask.planifieEntree
  split
  · exact hfuite
  · split
    · rcases hfuite with ⟨u, hu⟩ | ⟨b, hb⟩
      · exact .inl ⟨u, (hu.remplaceLanceur _).creeLanceur hforme' _ _ _⟩
      · exact .inr ⟨b, (hb.remplaceLanceur _).creeLanceur _ _ _⟩
    · split
      · rcases hfuite with ⟨u, hu⟩ | ⟨b, hb⟩
        · exact .inl ⟨u, hu.creeLanceur hforme _ _ _⟩
        · exact .inr ⟨b, hb.creeLanceur _ _ _⟩
      · exact hfuite

theorem planifieEntree_of_not_arme {off : ℤ} {e : DefPlanificationProfil} (h : ¬ Arme off e) :
    s.planifieEntree env toujours off e = s := by
  unfold planifieEntree
  split
  · rfl
  · rename_i hn
    split
    · rename_i hoff
      exact absurd ⟨hn, .inl hoff⟩ h
    · split
      · rename_i hfin
        exact absurd ⟨hn, .inr hfin⟩ h
      · rfl

theorem planifieEntree_of_arme {off : ℤ} {e : DefPlanificationProfil} (h : Arme off e) :
    s.planifieEntree env toujours off e =
      if off < e.stPlanif.tDebut then
        (s.remplaceLanceur e.ucNumeroPlanif).creeLanceur env toujours e.ucNumeroPlanif true
          (uint64 ((e.stPlanif.tDebut - off) * microSec))
      else s.creeLanceur env toujours e.ucNumeroPlanif false 100 := by
  rw [planifieEntree, if_neg h.1, Env.uint64_mul]
  split
  · rfl
  · rename_i hoff
    exact if_pos (h.2.resolve_left hoff)

theorem Tenu.planifieEntree (h : Tenu none s) {off : ℤ} {e : DefPlanificationProfil}
    (ha : Arme off e) (hok : off < e.stPlanif.tDebut → (e.stPlanif.tDebut - off) % 2 ^ 58 ≠ 0)
    (hlibre : s.mLanceurProfil e.ucNumeroPlanif = none) :
    Tenu none (s.planifieEntree env toujours off e) ∧
      ∀ n, (s.planifieEntree env toujours off e).mLanceurProfil n ≠ none ↔
        s.mLanceurProfil n ≠ none ∨ n = e.ucNumeroPlanif := by
  have hsame : s.remplaceLanceur e.ucNumeroPlanif = s := by
    unfold remplaceLanceur
    rw [hlibre]
  have hreg : ∀ auto usec n, (s.creeLanceur env toujours e.ucNumeroPlanif auto
      usec).mLanceurProfil n ≠ none ↔ s.mLanceurProfil n ≠ none ∨ n = e.ucNumeroPlanif := by
    intro auto usec n
    by_cases hn : n = e.ucNumeroPlanif <;> simp [CMainTask.creeLanceur, hn]
  rw [planifieEntree_of_arme ha, hsame]
  split
  · rename_i hoff
    exact ⟨h.creeLanceur ha.1 hlibre true ((Env.usec_ne_zero_iff _).mpr (hok hoff)), hreg _ _⟩
  · exact ⟨h.creeLanceur ha.1 hlibre false (by decide), hreg _ _⟩

/-- Replacing the launcher of a plan loses its block, and the launcher itself
when it is an immediate one. -/
theorem Tenu.remplace_fuite (h : Tenu none s) {n : UInt8} {a : ℕ}
    (hn : s.mLanceurProfil n = some a) :
    (∃ u, Perdu u (s.remplaceLanceur n)) ∨ ∃ b, BlocPerdu b (s.remplaceLanceur n) := by
  obtain ⟨-, t, ht, rfl, hcle⟩ := h.registres (.inl n) a hn
  have hst := h.armes t ht
  have htimers : (s.remplaceLanceur n).timers =
      surAdresse t.adresse TimerTache.stop s.timers := by
    unfold remplaceLanceur
    rw [hn]
    rfl
  cases hauto : t.cAutoDelete with
  | false =>
      obtain ⟨u, hu⟩ : ∃ u, t.stop = some u := by simp [TimerTache.stop, hst, hauto]
      refine .inl ⟨u, ?_, .inl (stop_not_started hu)⟩
      rw [htimers]
      exact mem_surAdresse.mpr (.inr ⟨t, ht, rfl, hu⟩)
  | true =>
      right
      obtain ⟨r, hr⟩ := Option.ne_none_iff_exists'.mp (h.forme.attache t ht hst)
      obtain ⟨b, hb⟩ : ∃ b, t.bloc = some b := by cases r <;> simp [bloc, hr]
      obtain ⟨hmem, hlt⟩ := h.vivants t ht b hb
      refine ⟨b, ?_, ?_, fun u hu hub => ?_⟩
      · unfold remplaceLanceur
        rw [hn]
        exact hmem
      · unfold remplaceLanceur
        rw [hn]
        exact hlt
      · rw [htimers] at hu
        rcases mem_surAdresse.mp hu with ⟨hu, hne⟩ | ⟨v, hv, hadr, hstop⟩
        · exact hne (congrArg TimerTache.adresse (h.bloc_inj u hu t ht (hub.trans hb.symm)))
        · obtain rfl := h.forme.adresse_inj v hv t ht hadr
          simp [TimerTache.stop, hst, hauto] at hstop

theorem Tenu.planifie_fuite (h : Tenu none s) {off : ℤ} {e : DefPlanificationProfil}
    (ha : Arme off e)
    (hkey : ¬ ((off < e.stPlanif.tDebut → (e.stPlanif.tDebut - off) % 2 ^ 58 ≠ 0) ∧
      ¬ s.mLanceurProfil e.ucNumeroPlanif ≠ none)) :
    Fuite (s.planifieEntree env toujours off e) := by
  refine ⟨h.forme.planifieEntree off e, ?_⟩
  rw [planifieEntree_of_arme ha]
  have hforme' := h.forme.remplaceLanceur e.ucNumeroPlanif
  split
  · rename_i hoff
    cases hm : s.mLanceurProfil e.ucNumeroPlanif with
    | some a =>
        rcases h.remplace_fuite hm with ⟨u, hu⟩ | ⟨b, hb⟩
        · exact .inl ⟨u, hu.creeLanceur hforme' _ _ _⟩
        · exact .inr ⟨b, hb.creeLanceur _ _ _⟩
    | none =>
        -- the launcher is never started
        have hzero : uint64 ((e.stPlanif.tDebut - off) * microSec) = 0 := by
          by_contra hne
          exact hkey ⟨fun _ => (Env.usec_ne_zero_iff _).mp hne, by simp [hm]⟩
        rw [hzero]
        refine .inl ⟨nouveau ((s.remplaceLanceur e.ucNumeroPlanif).suivant + 1) true, ?_, .inl rfl⟩
        rw [timers_creeLanceur_zero]
        exact List.mem_cons_self
  · rename_i hoff
    cases hm : s.mLanceurProfil e.ucNumeroPlanif with
    | none => exact absurd ⟨fun h => absurd h hoff, by simp [hm]⟩ hkey
    | some a =>
        -- the older launcher is live, and no registry holds it
        obtain ⟨-, t, ht, rfl, hcle⟩ := h.registres (.inl e.ucNumeroPlanif) a hm
        refine .inl ⟨t, List.mem_cons_of_mem _ ht, .inr fun k hk => ?_⟩
        rw [registre_creeLanceur, Function.update_apply] at hk
        split at hk
        · have hlt := h.forme.adresse_lt t ht
          have := Option.some.inj hk
          omega
        · rename_i hne
          obtain ⟨-, u, hu, hadr, hcle'⟩ := h.registres k _ hk
          obtain rfl := h.forme.adresse_inj u hu t ht hadr
          exact hne (Option.some.inj (hcle'.symm.trans hcle))

theorem Tenu.iInitPlanification (h : Tenu none s) :
    (SansFuite env s .planifie →
        Tenu none (s.iInitPlanification env toujours (some env.stPlanifProfil)).2) ∧
      (¬ SansFuite env s .planifie →
        Fuite (s.iInitPlanification env toujours (some env.stPlanifProfil)).2) := by
  simp only [SansFuite, PlanificationLibre, CMainTask.iInitPlanification]
  apply Folds.foldl_fresh (Arme (s.tOffsetMidnight env)) _ _ _ (I := Tenu none) (B := Fuite)
    _ _ _ _ h
  · exact fun _ _ => planifieEntree_of_not_arme
  · exact fun _ _ hr ha hok hlibre => hr.planifieEntree ha hok (not_not.mp hlibre)
  · exact fun _ _ hr ha hkey => hr.planifie_fuite ha hkey
  · exact fun _ e hr => hr.planifieEntree _ e

/-! ### Launches -/

/-- The callback of a launcher begins by taking the launcher out of the registry. -/
theorem Tenu.effaceLanceur (h : Tenu none s) {t : TimerTache} (ht : t ∈ s.timers) {n : UInt8}
    (hcle : t.cle = some (.inl n)) : Tenu (some t.adresse) (s.effaceLanceur n) := by
  have hreg : (s.effaceLanceur n).registre = Function.update s.registre (.inl n) none := by
    funext k
    cases k with
    | inl m => by_cases hm : m = n <;> simp [registre, CMainTask.effaceLanceur, hm]
    | inr p => simp [registre, CMainTask.effaceLanceur]
  refine ⟨h.forme.effaceLanceur n, h.armes, fun u hu hne => ?_, fun k a hk => ?_, h.blocs,
    h.vivants, h.bloc_inj, h.auto, h.unique⟩
  · obtain ⟨k, hk, hka⟩ := h.objets u hu (by simp)
    refine ⟨k, hk, ?_⟩
    rw [hreg, Function.update_of_ne, hka]
    rintro rfl
    obtain ⟨k', hk', hka'⟩ := h.objets t ht (by simp)
    obtain rfl : Sum.inl n = k' := Option.some.inj (hcle.symm.trans hk')
    exact hne (hka.symm.trans hka')
  · rw [hreg, Function.update_apply] at hk
    split at hk
    · cases hk
    · rename_i hkn
      obtain ⟨-, u, hu, hadr, hcleu⟩ := h.registres k a hk
      refine ⟨fun heq => ?_, u, hu, hadr, hcleu⟩
      obtain rfl := h.forme.adresse_inj u hu t ht (hadr.trans (Option.some.inj heq))
      exact hkn (Option.some.inj (hcleu.symm.trans hcle))

theorem Tenu.termine {t : TimerTache} (h : Tenu (some t.adresse) s) (ht : t ∈ s.timers)
    (hauto : t.cAutoDelete = true) {b : ℕ} (hb : t.bloc = some b) :
    Tenu none ((s.supprime b).finThread t.adresse) := by
  have hmem : ∀ u, u ∈ ((s.supprime b).finThread t.adresse).timers ↔
      u ∈ s.timers ∧ u.adresse ≠ t.adresse := by
    intro u
    constructor
    · intro hu
      rcases mem_surAdresse.mp hu with hu | ⟨v, hv, hadr, hfini⟩
      · exact hu
      · obtain rfl := h.forme.adresse_inj v hv t ht hadr
        simp [fini, hauto] at hfini
    · exact fun hu => mem_surAdresse.mpr (.inl hu)
  have hautre : ∀ u ∈ s.timers, u.bloc ≠ some b → u.adresse ≠ t.adresse := by
    intro u hu hub hadr
    rw [h.forme.adresse_inj u hu t ht hadr] at hub
    exact hub hb
  refine ⟨(h.forme.supprime b).finThread _, fun u hu => h.armes u ((hmem u).mp hu).1,
    fun u hu _ => ?_, fun k a hk => ?_, fun c hc => ?_, fun u hu c hc => ?_,
    fun u hu v hv => h.bloc_inj u ((hmem u).mp hu).1 v ((hmem v).mp hv).1,
    fun u hu => h.auto u ((hmem u).mp hu).1, ?_⟩
  · obtain ⟨hu, hne⟩ := (hmem u).mp hu
    exact h.objets u hu fun heq => hne (Option.some.inj heq)
  · obtain ⟨hne, u, hu, rfl, hcle⟩ := h.registres k a hk
    exact ⟨by simp, u, (hmem u).mpr ⟨hu, fun heq => hne (congrArg some heq)⟩, rfl, hcle⟩
  · obtain ⟨hc, hcb⟩ := List.mem_filter.mp hc
    obtain ⟨u, hu, huc⟩ := h.blocs c hc
    refine ⟨u, (hmem u).mpr ⟨hu, hautre u hu ?_⟩, huc⟩
    rw [huc]
    simpa using hcb
  · obtain ⟨hu', hne⟩ := (hmem u).mp hu
    obtain ⟨hcm, hlt⟩ := h.vivants u hu' c hc
    refine ⟨List.mem_filter.mpr ⟨hcm, ?_⟩, hlt⟩
    have hcb : c ≠ b := by
      rintro rfl
      exact hne (congrArg adresse (h.bloc_inj u hu' t ht (hc.trans hb.symm)))
    simpa using hcb
  · have hbm := (h.vivants t ht b hb).1
    show (s.doubleDelete || !s.blocs.contains b) = false
    rw [h.unique]
    simpa using hbm

theorem Perdu.termine {u : TimerTache} (h : Perdu u s) {a : ℕ} (hne : u.adresse ≠ a) (b : ℕ) :
    Perdu u ((s.supprime b).finThread a) :=
  ⟨mem_surAdresse.mpr (.inl ⟨h.1, hne⟩), h.2⟩

theorem Tenu.lance {t : TimerTache} (h : Tenu (some t.adresse) s) (ht : t ∈ s.timers)
    (e : DefPlanificationProfil) :
    (s.DelaiNonNul env e ∧ s.mStopProfil e.ucNumeroProfil = none →
        Tenu (some t.adresse) (s.lanceProfil env toujours e)) ∧
      (¬ (s.DelaiNonNul env e ∧ s.mStopProfil e.ucNumeroProfil = none) →
        ∃ u, Perdu u (s.lanceProfil env toujours e) ∧ u.adresse ≠ t.adresse) := by
  have hlt := h.forme.adresse_lt t ht
  refine ⟨fun hok => h.lanceProfil (by rintro a ⟨⟩; exact hlt) e hok.2 hok.1, fun hkey => ?_⟩
  cases hm : s.mStopProfil e.ucNumeroProfil with
  | none =>
      -- the stop timer is never started
      have hdelai : ¬ s.DelaiNonNul env e := fun hd => hkey ⟨hd, hm⟩
      refine ⟨nouveau (s.suivant + 2) false, ⟨?_, .inl rfl⟩, ?_⟩
      · rw [timers_lanceProfil_zero e hdelai]
        exact List.mem_cons_self
      · show s.suivant + 2 ≠ t.adresse
        omega
  | some a =>
      -- the older stop timer is live, and no registry holds it
      obtain ⟨hne, u, hu, rfl, hcle⟩ := h.registres (.inr e.ucNumeroProfil) a hm
      refine ⟨u, ⟨List.mem_cons_of_mem _ hu, .inr fun k hk => ?_⟩,
        fun heq => hne (congrArg some heq)⟩
      rw [registre_lanceProfil, Function.update_apply] at hk
      split at hk
      · have hltu := h.forme.adresse_lt u hu
        have := Option.some.inj hk
        omega
      · rename_i hkn
        obtain ⟨-, v, hv, hadr, hcle'⟩ := h.registres k _ hk
        obtain rfl := h.forme.adresse_inj v hv u hu hadr
        exact hkn (Option.some.inj (hcle'.symm.trans hcle))

/-- The loop of `iStartProfil` over the entries of the plan of an armed launcher. When a
launch on a free profile keeps `I` and another breaks it for good, the loop keeps `I`
exactly when its entries are fresh. -/
theorem foldl_lance {t : TimerTache} (hst : t.timer.bStarted = true) {q : ParamCallbackStartProfil}
    (hq : t.timer.hObjetAttache = some (.fctStartProfil q)) (ok : DefPlanificationProfil → Prop)
    {I B : CMainTask → Prop}
    (hgood : ∀ r e, I r → ok e → r.mStopProfil e.ucNumeroProfil = none →
      I (r.lanceProfil env toujours e))
    (hbad : ∀ r e, I r → ¬ (ok e ∧ r.mStopProfil e.ucNumeroProfil = none) →
      B (r.lanceProfil env toujours e))
    (hstay : ∀ r e, B r → B (r.lanceProfil env toujours e)) (l : List DefPlanificationProfil)
    (hs : I s) :
    (Folds.Fresh (fun e => t.lanceurDe e.ucNumeroPlanif = true) ok (·.ucNumeroProfil)
        (fun (r : CMainTask) p => r.mStopProfil p ≠ none) l s →
      I (l.foldl (fun r e => if e.ucNumeroPlanif = q.ucNumeroPlanif then
        r.lanceProfil env toujours e else r) s)) ∧
      (¬ Folds.Fresh (fun e => t.lanceurDe e.ucNumeroPlanif = true) ok (·.ucNumeroProfil)
          (fun (r : CMainTask) p => r.mStopProfil p ≠ none) l s →
        B (l.foldl (fun r e => if e.ucNumeroPlanif = q.ucNumeroPlanif then
          r.lanceProfil env toujours e else r) s)) := by
  have hact := TimerTache.lanceurDe_iff_eq hst hq
  refine Folds.foldl_fresh (fun e : DefPlanificationProfil => t.lanceurDe e.ucNumeroPlanif = true)
    ok (·.ucNumeroProfil) (fun (r : CMainTask) p => r.mStopProfil p ≠ none) ?_ ?_ ?_ ?_ hs
  · intro r e hne
    exact if_neg fun heq => hne ((hact _).mpr heq)
  · intro r e hr ha hok hlibre
    rw [if_pos ((hact _).mp ha)]
    refine ⟨hgood r e hr hok (not_not.mp hlibre), fun p => ?_⟩
    by_cases hp : p = e.ucNumeroProfil <;> simp [CMainTask.lanceProfil, hp]
  · intro r e hr ha hkey
    rw [if_pos ((hact _).mp ha)]
    exact hbad r e hr fun hok => hkey ⟨hok.1, not_not.mpr hok.2⟩
  · intro r e hr
    split
    · exact hstay r e hr
    · exact hr

/-- The expiry of an auto-delete launcher keeps the balance exactly when its
profiles are free. -/
theorem Tenu.expire_auto (h : Tenu none s) {t : TimerTache} (ht : t ∈ s.timers)
    (hauto : t.cAutoDelete = true) :
    (ProfilsLibres env s t → Tenu none (s.expire env toujours t)) ∧
      (¬ ProfilsLibres env s t → ∃ u, Perdu u (s.expire env toujours t)) := by
  have hst := h.armes t ht
  obtain ⟨n, hcle⟩ := h.auto t ht hauto
  obtain ⟨-, q, hq, rfl⟩ := lanceurDe_iff.mp ((lanceurDe_eq_true hst).mpr hcle)
  have hoff : ∀ (r : CMainTask) (e : DefPlanificationProfil), r.maintenant = s.maintenant →
      (r.DelaiNonNul env e ↔ (e.tFin - s.tOffsetMidnight env) % 2 ^ 58 ≠ 0) := by
    intro r e hr
    rw [delaiNonNul_iff, tOffsetMidnight, tOffsetMidnight, hr]
  obtain ⟨hgood, hbad⟩ := foldl_lance hst hq
    (fun e => (e.tFin - s.tOffsetMidnight env) % 2 ^ 58 ≠ 0)
    (I := fun r => Tenu (some t.adresse) r ∧ t ∈ r.timers ∧ r.maintenant = s.maintenant)
    (B := fun r => BienForme r ∧ ∃ u, Perdu u r ∧ u.adresse ≠ t.adresse)
    (fun r e hr hok hlibre =>
      ⟨(hr.1.lance hr.2.1 e).1 ⟨(hoff r e hr.2.2).mpr hok, hlibre⟩,
        List.mem_cons_of_mem _ hr.2.1, hr.2.2⟩)
    (fun r e hr hkey =>
      ⟨hr.1.forme.lanceProfil e, (hr.1.lance hr.2.1 e).2 fun hok =>
        hkey ⟨(hoff r e hr.2.2).mp hok.1, hok.2⟩⟩)
    (fun r e ⟨hforme, u, hu, hne⟩ => ⟨hforme.lanceProfil e, u, hu.lanceProfil hforme e, hne⟩)
    env.stPlanifProfil ⟨h.effaceLanceur ht hcle, ht, rfl⟩
  have hexp := expire_lanceur_eq env h.forme ht hq
  rw [hexp]
  refine ⟨fun hfresh => ?_, fun hfresh => ?_⟩
  · obtain ⟨hr, hmem, -⟩ := hgood hfresh
    exact hr.termine hmem hauto (by rw [bloc, hq])
  · obtain ⟨-, u, hu, hne⟩ := hbad hfresh
    exact ⟨u, hu.termine hne _⟩

variable (env) in
/-- A timer that is not auto-delete stays after it has fired. -/
theorem perdu_expire {t : TimerTache} (ht : t ∈ s.timers) (hauto : t.cAutoDelete = false) :
    ∃ u, Perdu u (s.expire env toujours t) := by
  obtain ⟨u, hu⟩ : ∃ u, t.fini = some u := by simp [fini, hauto]
  have hmem := mem_timers_rappelle env ht t.timer.hObjetAttache
  exact ⟨u, mem_surAdresse.mpr (.inr ⟨t, hmem, rfl, hu⟩), .inl (fini_not_started hu)⟩

/-! ### Runs -/

theorem Tenu.step (h : Tenu none s) {ev : EvtLibre} (hlibre : SansFuite env s ev)
    (hs : s.stepLibre env ev = some s') : Tenu none s' := by
  rcases stepLibre_cases hs with ⟨rfl, rfl⟩ | ⟨t, ht, rfl, -, -, rfl⟩ | ⟨t, rfl, -, rfl⟩
  · exact h.iInitPlanification.1 hlibre
  · obtain ⟨hauto, hfresh⟩ := hlibre t ht rfl
    exact (h.expire_auto ht hauto).1 hfresh
  · exact ⟨{ h.forme with }, h.armes, h.objets, h.registres, h.blocs, h.vivants, h.bloc_inj,
      h.auto, h.unique⟩

theorem Tenu.not_bilan (h : Tenu none s) {ev : EvtLibre} (hlibre : ¬ SansFuite env s ev)
    (hs : s.stepLibre env ev = some s') : ¬ Bilan s' := by
  rcases stepLibre_cases hs with ⟨rfl, rfl⟩ | ⟨t, ht, rfl, -, -, rfl⟩ | ⟨t, rfl, -⟩
  · exact (h.iInitPlanification.2 hlibre).not_bilan
  · cases hauto : t.cAutoDelete with
    | false =>
        obtain ⟨u, hu⟩ := perdu_expire env ht hauto
        exact hu.not_bilan
    | true =>
        obtain ⟨u, hu⟩ := (h.expire_auto ht hauto).2 fun hfresh => hlibre fun u hu hadr => by
          obtain rfl := h.forme.adresse_inj u hu t ht hadr
          exact ⟨hauto, hfresh⟩
        exact hu.not_bilan
  · exact absurd trivial hlibre

/-- In a run from an empty state the ledger balances in every state if and only
if every step is without a leak. -/
theorem bilan_iff (env : Env) (t0 : ℤ) (es : List EvtLibre) (s : CMainTask)
    (h : Execution.exec (stepLibre env) (.construit t0) es = some s) :
    Execution.Always (stepLibre env) Bilan (.construit t0) es ↔
      Execution.Meets (stepLibre env) (SansFuite env) (.construit t0) es :=
  Execution.always_iff_meets (I := Tenu none) (fun _ h => h.bilan)
    (fun _ _ _ h hlibre hs => h.step hlibre hs)
    (fun _ _ _ h hlibre hs => h.not_bilan hlibre hs) (.construit t0) h

/-- A window that is planned before it begins, up to its launch. -/
theorem bilan_lancement :
    Execution.Always (stepLibre (.zoneFixe 1 0 [.planifie 1 1 50 100])) Bilan (.construit 0)
      [.planifie, .avance 50, .expire 2] :=
  (bilan_iff (.zoneFixe 1 0 [.planifie 1 1 50 100]) 0 _ _ (Option.some_get (by decide)).symm).mpr
    (by decide)

/-- The end of the same window: the stop timer has fired, no registry holds it,
and it is still allocated. -/
theorem arret_jamais_libere :
    ¬ Bilan ((Execution.exec (stepLibre (.zoneFixe 1 0 [.planifie 1 1 50 100])) (.construit 0)
        [.planifie, .avance 50, .expire 2, .avance 150, .expire 5]).get (by decide)) ∧
      (Execution.exec (stepLibre (.zoneFixe 1 0 [.planifie 1 1 50 100])) (.construit 0)
        [.planifie, .avance 50, .expire 2, .avance 150, .expire 5]).map
          (fun s => (s.timers.map (·.adresse), s.mLanceurProfil 1, s.mStopProfil 1)) =
        some ([5], none, none) := by
  refine ⟨fun h => ?_, by decide⟩
  exact absurd h.armes (by decide)

end CMainTask

end GestAqua
