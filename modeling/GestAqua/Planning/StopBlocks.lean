import GestAqua.Planning.Ledger

/-!
Who answers for a running profile and for its parameter block.

Each armed stop timer is the entry of its profile and owns a live block, and each
running profile has one. The shutdown loop breaks this for the timer it has in hand,
whose profile it asks to stop and whose block it deletes before it stops the timer,
and leaves behind it the entries of timers it has stopped. `ArretsTenus` is the
invariant with these exceptions: `k` bounds the entries that are done, `x` is the
timer whose block is gone and `y` the timer whose profile has been asked.
-/

namespace GestAqua.CMainTask

open TimerTache

def armes (s : CMainTask) : List TimerTache := s.timers.filter (·.timer.bStarted)

structure ArretsTenus (k : ℕ) (x y : Option ℕ) (l : List ℕ) (s : CMainTask) : Prop where
  registre : ∀ t ∈ s.armes, ∀ p, t.cle = some (.inr p) →
    k ≤ p.toNat ∧ p ≠ 0 ∧ s.mStopProfil p = some t.adresse
  entree : ∀ p a, k ≤ p.toNat → s.mStopProfil p = some a →
    ∃ t ∈ s.armes, t.adresse = a ∧ t.cle = some (.inr p)
  profils : ∀ i ∈ s.profils, ∃ t ∈ s.armes, some t.adresse ≠ y ∧ ∃ q,
    t.timer.hObjetAttache = some (.fctStopProfil q) ∧ q.pProfil = i.adresse
  bloc_lt : ∀ t ∈ s.armes, ∀ b, t.bloc = some b → b < s.suivant
  vivant : ∀ t ∈ s.armes, ∀ b, t.bloc = some b → (b ∈ s.blocs ↔ some t.adresse ≠ x)
  bloc_inj : ∀ t ∈ s.armes, ∀ u ∈ s.armes, ∀ b, t.bloc = some b → u.bloc = some b → t = u
  suivis : ∀ b ∈ l, b < s.suivant ∧
    (b ∈ s.blocs → ∃ t ∈ s.armes, ∃ p, t.cle = some (.inr p) ∧ t.bloc = some b)
  unique : s.doubleDelete = false

variable {env : Env} {s : CMainTask} {k : ℕ} {x y : Option ℕ} {l : List ℕ} {a b : ℕ}

theorem mem_armes {t : TimerTache} : t ∈ s.armes ↔ t ∈ s.timers ∧ t.timer.bStarted = true :=
  List.mem_filter

theorem cle_of_arret {t : TimerTache} {q : ParamCallbackStopProfil}
    (h : t.timer.hObjetAttache = some (.fctStopProfil q)) :
    t.cle = some (.inr q.ucNumeroProfil) ∧ t.bloc = some q.bloc := by
  simp [cle, bloc, h]

theorem armes_stop (a : ℕ) (s : CMainTask) :
    (s.stop a).armes = s.armes.filter (·.adresse ≠ a) :=
  filter_surAdresse garde_stop (q := (·.timer.bStarted)) (fun _ h => h) a s.timers

theorem armes_finThread (a : ℕ) (s : CMainTask) :
    (s.finThread a).armes = s.armes.filter (·.adresse ≠ a) :=
  filter_surAdresse garde_fini (q := (·.timer.bStarted)) (fun _ h => h) a s.timers

theorem arret_of_cle {t : TimerTache} {p : UInt8} (h : t.cle = some (.inr p)) :
    ∃ q, t.timer.hObjetAttache = some (.fctStopProfil q) := by
  unfold cle at h
  split at h
  · cases h
  · exact ⟨_, ‹_›⟩
  · cases h

theorem cle_of_lanceur {t : TimerTache} {q : ParamCallbackStartProfil}
    (h : t.timer.hObjetAttache = some (.fctStartProfil q)) :
    t.cle = some (.inl q.ucNumeroPlanif) ∧ t.bloc = some q.bloc := by
  simp [cle, bloc, h]

namespace ArretsTenus

theorem construit (t : ℤ) : ArretsTenus 0 none none [] (.construit t) where
  registre := by simp [CMainTask.construit, armes]
  entree := by simp [CMainTask.construit]
  profils := by simp [CMainTask.construit]
  bloc_lt := by simp [CMainTask.construit, armes]
  vivant := by simp [CMainTask.construit, armes]
  bloc_inj := by simp [CMainTask.construit, armes]
  suivis := by simp
  unique := rfl

theorem mono (h : ArretsTenus k x y l s) {l' : List ℕ} (hl : ∀ b ∈ l', b ∈ l) :
    ArretsTenus k x y l' s :=
  { h with suivis := fun b hb => h.suivis b (hl b hb) }

/-! ### Timers and blocks that the registry does not concern -/

theorem alloue (h : ArretsTenus k x y l s) {n : ℕ} (hb : s.suivant ≤ b) (hn : b < n) :
    ArretsTenus k x y l { s with blocs := b :: s.blocs, suivant := n } :=
  { h with
    bloc_lt := fun t ht c hc => by
      have := h.bloc_lt t ht c hc
      show c < n
      omega
    vivant := fun t ht c hc => by
      have hlt := h.bloc_lt t ht c hc
      have hne : c ≠ b := by omega
      rw [← h.vivant t ht c hc]
      simp [hne]
    suivis := fun c hc => by
      obtain ⟨hlt, hviv⟩ := h.suivis c hc
      refine ⟨show c < n by omega, fun hmem => hviv ?_⟩
      exact (List.mem_cons.mp hmem).resolve_left (by omega) }

theorem avecTimers (h : ArretsTenus k x y l s) {ts : List TimerTache}
    (harmes : ts.filter (·.timer.bStarted) = s.armes) :
    ArretsTenus k x y l { s with timers := ts } := by
  have heq : ({ s with timers := ts } : CMainTask).armes = s.armes := harmes
  refine ⟨?_, ?_, ?_, ?_, ?_, ?_, ?_, h.unique⟩ <;> rw [heq]
  · exact h.registre
  · exact h.entree
  · exact h.profils
  · exact h.bloc_lt
  · exact h.vivant
  · exact h.bloc_inj
  · exact h.suivis

theorem ajoute (h : ArretsTenus k x y l s) {t : TimerTache} {r : UInt8 → Option ℕ}
    {v : List CProfil} (hst : t.timer.bStarted = true) (hbloc : t.bloc = some b)
    (hlt : b < s.suivant) (hb : b ∈ s.blocs) (hneuf : ∀ u ∈ s.armes, u.bloc ≠ some b)
    (hx : some t.adresse ≠ x)
    (hregistre : ∀ u ∈ t :: s.armes, ∀ p, u.cle = some (.inr p) →
      k ≤ p.toNat ∧ p ≠ 0 ∧ r p = some u.adresse)
    (hentree : ∀ p a, k ≤ p.toNat → r p = some a →
      ∃ u ∈ t :: s.armes, u.adresse = a ∧ u.cle = some (.inr p))
    (hprofils : ∀ i ∈ v, ∃ u ∈ t :: s.armes, some u.adresse ≠ y ∧ ∃ q,
      u.timer.hObjetAttache = some (.fctStopProfil q) ∧ q.pProfil = i.adresse) :
    ArretsTenus k x y l { s with
      timers := t :: s.timers
      mStopProfil := r
      profils := v } := by
  have harmes : ({ s with
      timers := t :: s.timers
      mStopProfil := r
      profils := v } : CMainTask).armes = t :: s.armes := by
    simp [armes, hst]
  refine ⟨?_, ?_, ?_, ?_, ?_, ?_, ?_, h.unique⟩ <;> rw [harmes]
  · exact hregistre
  · exact hentree
  · exact hprofils
  · refine List.forall_mem_cons.mpr ⟨fun c hc => ?_, h.bloc_lt⟩
    obtain rfl := Option.some.inj (hbloc.symm.trans hc)
    exact hlt
  · refine List.forall_mem_cons.mpr ⟨fun c hc => ?_, h.vivant⟩
    obtain rfl := Option.some.inj (hbloc.symm.trans hc)
    exact iff_of_true hb hx
  · intro u hu w hw c huc hwc
    rcases List.mem_cons.mp hu with rfl | hu' <;> rcases List.mem_cons.mp hw with rfl | hw'
    · rfl
    · exact absurd (hwc.trans (huc.symm.trans hbloc)) (hneuf w hw')
    · exact absurd (huc.trans (hwc.symm.trans hbloc)) (hneuf u hu')
    · exact h.bloc_inj u hu' w hw' c huc hwc
  · intro c hc
    obtain ⟨hclt, hviv⟩ := h.suivis c hc
    refine ⟨hclt, fun hmem => ?_⟩
    obtain ⟨u, hu, huc⟩ := hviv hmem
    exact ⟨u, List.mem_cons_of_mem _ hu, huc⟩

theorem suit (h : ArretsTenus k x y l s) {t : TimerTache} (ht : t ∈ s.armes) {p : UInt8}
    (hcle : t.cle = some (.inr p)) (hbloc : t.bloc = some b) : ArretsTenus k x y (b :: l) s :=
  { h with
    suivis := List.forall_mem_cons.mpr
      ⟨⟨h.bloc_lt t ht b hbloc, fun _ => ⟨t, ht, p, hcle, hbloc⟩⟩, h.suivis⟩ }

/-- The timer at an address is no longer armed; it was not a stop timer. -/
theorem retire (h : ArretsTenus k x y l s) {ts : List TimerTache}
    (harmes : ts.filter (·.timer.bStarted) = s.armes.filter (·.adresse ≠ a))
    (ha : ∀ t ∈ s.armes, ∀ p, t.cle = some (.inr p) → t.adresse ≠ a) :
    ArretsTenus k x y l { s with timers := ts } := by
  have hmem : ∀ t, t ∈ ({ s with timers := ts } : CMainTask).armes ↔
      t ∈ s.armes ∧ t.adresse ≠ a := by
    intro t
    rw [show ({ s with timers := ts } : CMainTask).armes = _ from harmes, List.mem_filter]
    simp
  have hsub : ∀ t ∈ ({ s with timers := ts } : CMainTask).armes, t ∈ s.armes :=
    fun t ht => ((hmem t).mp ht).1
  refine ⟨fun t ht => h.registre t (hsub t ht), fun p c hk hc => ?_, fun i hi => ?_,
    fun t ht => h.bloc_lt t (hsub t ht), fun t ht => h.vivant t (hsub t ht),
    fun t ht u hu => h.bloc_inj t (hsub t ht) u (hsub u hu), fun c hc => ?_, h.unique⟩
  · obtain ⟨t, ht, hadr, hcle⟩ := h.entree p c hk hc
    exact ⟨t, (hmem t).mpr ⟨ht, ha t ht p hcle⟩, hadr, hcle⟩
  · obtain ⟨t, ht, hy, q, hq, hadr⟩ := h.profils i hi
    exact ⟨t, (hmem t).mpr ⟨ht, ha t ht _ (cle_of_arret hq).1⟩, hy, q, hq, hadr⟩
  · obtain ⟨hlt, hviv⟩ := h.suivis c hc
    refine ⟨hlt, fun hc => ?_⟩
    obtain ⟨t, ht, p, hcle, hbloc⟩ := hviv hc
    exact ⟨t, (hmem t).mpr ⟨ht, ha t ht p hcle⟩, p, hcle, hbloc⟩

theorem supprime (h : ArretsTenus k x y l s) (hb : b ∈ s.blocs)
    (hno : ∀ t ∈ s.armes, t.bloc ≠ some b) : ArretsTenus k x y l (s.supprime b) :=
  { h with
    vivant := fun t ht c hc => by
      have hne : c ≠ b := by
        rintro rfl
        exact hno t ht hc
      rw [← h.vivant t ht c hc]
      simp [CMainTask.supprime, hne]
    suivis := fun c hc => by
      obtain ⟨hlt, hviv⟩ := h.suivis c hc
      exact ⟨hlt, fun hmem => hviv (List.mem_of_mem_filter hmem)⟩
    unique := by simp [CMainTask.supprime, h.unique, hb] }

/-! ### A launch -/

theorem lanceProfil (h : ArretsTenus 0 none none l s) {e : DefPlanificationProfil}
    (hp : e.ucNumeroProfil ≠ 0)
    (hlibre : s.mStopProfil e.ucNumeroProfil = none) (hu : s.DelaiNonNul env e) :
    ArretsTenus 0 none none ((s.suivant + 1) :: l) (s.lanceProfil env toujours e) := by
  have hcle : (s.nouvelArret env e).cle = some (.inr e.ucNumeroProfil) := rfl
  have hmap : ∀ p, p ≠ e.ucNumeroProfil →
      (s.lanceProfil env toujours e).mStopProfil p = s.mStopProfil p := fun p hne => by
    simp [CMainTask.lanceProfil, hne]
  have hself : (s.lanceProfil env toujours e).mStopProfil e.ucNumeroProfil =
      some (s.suivant + 2) := by simp [CMainTask.lanceProfil]
  have hneuf : ∀ t ∈ s.armes, t.bloc ≠ some (s.suivant + 1) := by
    intro t ht hc
    have := h.bloc_lt t ht _ hc
    omega
  have hregistre : ∀ t ∈ s.nouvelArret env e :: s.armes, ∀ p, t.cle = some (.inr p) →
      0 ≤ p.toNat ∧ p ≠ 0 ∧ (s.lanceProfil env toujours e).mStopProfil p = some t.adresse := by
    refine List.forall_mem_cons.mpr ⟨fun p hp' => ?_, fun t ht p hp' => ?_⟩
    · obtain rfl : e.ucNumeroProfil = p := by simpa [hcle] using hp'
      exact ⟨Nat.zero_le _, hp, hself⟩
    · obtain ⟨hk, hne, hreg⟩ := h.registre t ht p hp'
      refine ⟨hk, hne, (hmap p ?_).trans hreg⟩
      rintro rfl
      rw [hlibre] at hreg
      cases hreg
  have hentree : ∀ p a, 0 ≤ p.toNat → (s.lanceProfil env toujours e).mStopProfil p = some a →
      ∃ t ∈ s.nouvelArret env e :: s.armes, t.adresse = a ∧ t.cle = some (.inr p) := by
    intro p a _ ha
    by_cases hpe : p = e.ucNumeroProfil
    · subst hpe
      obtain rfl := Option.some.inj (hself.symm.trans ha)
      exact ⟨_, List.mem_cons_self, rfl, hcle⟩
    · obtain ⟨t, ht, hadr⟩ := h.entree p a (Nat.zero_le _) ((hmap p hpe).symm.trans ha)
      exact ⟨t, List.mem_cons_of_mem _ ht, hadr⟩
  have hprofils : ∀ i ∈ (s.lanceProfil env toujours e).profils,
      ∃ t ∈ s.nouvelArret env e :: s.armes, some t.adresse ≠ none ∧ ∃ q,
        t.timer.hObjetAttache = some (.fctStopProfil q) ∧ q.pProfil = i.adresse := by
    intro i hi
    rcases BienForme.mem_profils_lanceProfil hi with rfl | hi
    · exact ⟨_, List.mem_cons_self, Option.some_ne_none _, _, rfl, rfl⟩
    · obtain ⟨t, ht, hty⟩ := h.profils i hi
      exact ⟨t, List.mem_cons_of_mem _ ht, hty⟩
  have hajoute := (h.alloue (n := s.suivant + 3) (Nat.le_add_right s.suivant 1) (by omega)).ajoute
    (t := s.nouvelArret env e) rfl rfl (Nat.add_lt_add_left (by decide) _) List.mem_cons_self hneuf
    (Option.some_ne_none _) hregistre hentree hprofils
  rw [← timers_lanceProfil e hu] at hajoute
  refine ArretsTenus.suit (s := s.lanceProfil env toujours e) hajoute ?_ hcle rfl
  rw [armes, timers_lanceProfil e hu]
  exact List.mem_cons_self

theorem termine (h : ArretsTenus k x y l s) (hforme : BienForme s) {t : TimerTache}
    (ht : t ∈ s.armes) {q : ParamCallbackStartProfil}
    (hq : t.timer.hObjetAttache = some (.fctStartProfil q)) (hx : some t.adresse ≠ x) :
    ArretsTenus k x y l ((s.supprime q.bloc).finThread t.adresse) := by
  obtain ⟨hcle, hbloc⟩ := cle_of_lanceur hq
  have harmes := s.armes_finThread t.adresse
  have hret : ArretsTenus k x y l (s.finThread t.adresse) :=
    h.retire harmes fun u hu p hp hadr => by
      rw [hforme.adresse_inj u (mem_armes.mp hu).1 t (mem_armes.mp ht).1 hadr, hcle] at hp
      cases hp
  refine hret.supprime ((h.vivant t ht _ hbloc).mpr hx) fun u hu hub => ?_
  rw [harmes, List.mem_filter] at hu
  obtain rfl := h.bloc_inj u hu.1 t ht _ hub hbloc
  simp at hu

end ArretsTenus

/-- The launch made by a timer registers each of its profiles, which have non-zero
numbers, where the registry has no entry, with delays that are not zero in 64 bits. -/
def LancementTenu (env : Env) (s : CMainTask) (t : TimerTache) : Prop :=
  Folds.Fresh (fun e => t.lanceurDe e.ucNumeroPlanif = true)
    (fun e => e.ucNumeroProfil ≠ 0 ∧ (e.tFin - s.tOffsetMidnight env) % 2 ^ 58 ≠ 0)
    (·.ucNumeroProfil) (fun r p => r.mStopProfil p ≠ none) env.stPlanifProfil s

instance (env : Env) (s : CMainTask) (t : TimerTache) : Decidable (LancementTenu env s t) :=
  Folds.Fresh.decidable (fun e : DefPlanificationProfil => t.lanceurDe e.ucNumeroPlanif = true)
    (fun e => e.ucNumeroProfil ≠ 0 ∧ (e.tFin - s.tOffsetMidnight env) % 2 ^ 58 ≠ 0)
    (·.ucNumeroProfil) (fun (r : CMainTask) p => r.mStopProfil p ≠ none) env.stPlanifProfil s

/-- The blocks that a step allocates and leaves. -/
def nouveauxBlocs (s s' : CMainTask) : List ℕ := s'.blocs.filter (· ∉ s.blocs)

namespace ArretsTenus

/-- What the loop of `iStartProfil` keeps, while the launcher `t` is in its
callback. -/
structure EnLancement (t : TimerTache) (l : List ℕ) (s r : CMainTask) : Prop where
  forme : BienForme r
  arme : t ∈ r.armes
  heure : r.maintenant = s.maintenant
  tenus : ∃ l', ArretsTenus 0 none none l' r ∧ (∀ b ∈ l, b ∈ l') ∧
    ∀ b ∈ r.blocs, b ∈ s.blocs ∨ b ∈ l'

theorem EnLancement.lance {t : TimerTache} {r : CMainTask} (h : EnLancement t l s r)
    {e : DefPlanificationProfil} (hp : e.ucNumeroProfil ≠ 0)
    (hdelai : (e.tFin - s.tOffsetMidnight env) % 2 ^ 58 ≠ 0)
    (hlibre : r.mStopProfil e.ucNumeroProfil = none) :
    EnLancement t l s (r.lanceProfil env toujours e) := by
  obtain ⟨l', htenu, hl, hblocs⟩ := h.tenus
  have hu : r.DelaiNonNul env e := by
    rw [delaiNonNul_iff, tOffsetMidnight, h.heure]
    exact hdelai
  refine ⟨h.forme.lanceProfil e, ?_, h.heure, _, htenu.lanceProfil hp hlibre hu,
    fun b hb => List.mem_cons_of_mem _ (hl b hb), fun b hb => ?_⟩
  · rw [armes, timers_lanceProfil e hu]
    exact List.mem_cons_of_mem _ h.arme
  · rcases List.mem_cons.mp hb with rfl | hb
    · exact .inr List.mem_cons_self
    · exact (hblocs b hb).imp_right (List.mem_cons_of_mem _)

theorem expire_lanceur (h : ArretsTenus 0 none none l s) (hforme : BienForme s) {t : TimerTache}
    (ht : t ∈ s.armes) {q : ParamCallbackStartProfil}
    (hq : t.timer.hObjetAttache = some (.fctStartProfil q)) (hlance : LancementTenu env s t) :
    ArretsTenus 0 none none (s.nouveauxBlocs (s.expire env toujours t) ++ l)
      (s.expire env toujours t) := by
  obtain ⟨hmem, hst⟩ := mem_armes.mp ht
  have hexp := expire_lanceur_eq env hforme hmem hq
  obtain ⟨hgood, -⟩ := foldl_lance hst hq
    (fun e => e.ucNumeroProfil ≠ 0 ∧ (e.tFin - s.tOffsetMidnight env) % 2 ^ 58 ≠ 0)
    (I := EnLancement t l s) (B := fun _ => True)
    (fun _ _ hr hok hlibre => hr.lance hok.1 hok.2 hlibre)
    (fun _ _ _ _ => trivial) (fun _ _ _ => trivial) env.stPlanifProfil
    (s := s.effaceLanceur q.ucNumeroPlanif)
    ⟨hforme.effaceLanceur _, ht, rfl, l, { h with }, fun _ hb => hb, fun _ hb => .inl hb⟩
  have hfold := hgood hlance
  rw [hexp]
  obtain ⟨l', htenu, hl, hblocs⟩ := hfold.tenus
  refine (htenu.termine hfold.forme hfold.arme hq (Option.some_ne_none _)).mono fun b hb => ?_
  rcases List.mem_append.mp hb with hb | hb
  · obtain ⟨hb, hnew⟩ := List.mem_filter.mp hb
    exact (hblocs b (List.mem_of_mem_filter hb)).resolve_left (by simpa using hnew)
  · exact hl b hb

/-! ### The stop timers -/

variable (env) in
theorem expire_arret_eq (h : ArretsTenus k x y l s) (hforme : BienForme s) {t : TimerTache}
    (ht : t ∈ s.armes) {q : ParamCallbackStopProfil}
    (hq : t.timer.hObjetAttache = some (.fctStopProfil q)) :
    s.expire env toujours t =
      (({ s.effaceStop q.ucNumeroProfil with
          profils := s.profils.filter (·.adresse ≠ q.pProfil) } : CMainTask).supprime
        q.bloc).finThread t.adresse := by
  have hrap : s.rappelle env toujours t.timer.hObjetAttache =
      (s.iStopProfil q.ucNumeroProfil q.pProfil).2.supprime q.bloc := by
    rw [hq]
    rfl
  rw [expire, hrap, iStopProfil, if_pos ⟨(h.registre t ht _ (cle_of_arret hq).1).2.1,
    (hforme.arret t (mem_armes.mp ht).1 q hq).1.ne'⟩]
  rfl

theorem mem_armes_expire_arret (h : ArretsTenus k x y l s) (hforme : BienForme s)
    {t : TimerTache} (ht : t ∈ s.armes) {q : ParamCallbackStopProfil}
    (hq : t.timer.hObjetAttache = some (.fctStopProfil q)) {u : TimerTache} :
    u ∈ (s.expire env toujours t).armes ↔ u ∈ s.armes ∧ u ≠ t := by
  have hfilter : (s.expire env toujours t).armes = s.armes.filter (·.adresse ≠ t.adresse) := by
    rw [h.expire_arret_eq env hforme ht hq]
    exact armes_finThread t.adresse s
  rw [hfilter, List.mem_filter]
  refine and_congr_right fun hu => ?_
  have hadr : u.adresse = t.adresse ↔ u = t :=
    ⟨hforme.adresse_inj u (mem_armes.mp hu).1 t (mem_armes.mp ht).1, congrArg _⟩
  simp [hadr]

theorem mStopProfil_expire_arret (h : ArretsTenus k x y l s) (hforme : BienForme s)
    {t : TimerTache} (ht : t ∈ s.armes) {q : ParamCallbackStopProfil}
    (hq : t.timer.hObjetAttache = some (.fctStopProfil q)) {p : UInt8} (hne : a ≠ t.adresse)
    (ha : s.mStopProfil p = some a) : (s.expire env toujours t).mStopProfil p = some a := by
  have hreg := (h.registre t ht _ (cle_of_arret hq).1).2.2
  have hpq : p ≠ q.ucNumeroProfil := by
    rintro rfl
    exact hne (Option.some.inj (ha.symm.trans hreg))
  rw [h.expire_arret_eq env hforme ht hq]
  exact (Function.update_of_ne hpq _ _).trans ha

theorem expire_arret (h : ArretsTenus k x y l s) (hforme : BienForme s) {t : TimerTache}
    (ht : t ∈ s.armes) {q : ParamCallbackStopProfil}
    (hq : t.timer.hObjetAttache = some (.fctStopProfil q)) (hx : some t.adresse ≠ x) :
    ArretsTenus k x y (s.nouveauxBlocs (s.expire env toujours t) ++ l)
      (s.expire env toujours t) := by
  obtain ⟨hmem, -⟩ := mem_armes.mp ht
  obtain ⟨hcle, hbloc⟩ := cle_of_arret hq
  have hviv := (h.vivant t ht _ hbloc).mpr hx
  have hexp := h.expire_arret_eq env hforme ht hq
  have harmes : ∀ u, u ∈ (s.expire env toujours t).armes ↔ u ∈ s.armes ∧ u ≠ t :=
    fun u => h.mem_armes_expire_arret hforme ht hq
  have hmap : (s.expire env toujours t).mStopProfil =
      Function.update s.mStopProfil q.ucNumeroProfil none := by
    rw [hexp]
    rfl
  have hblocs : (s.expire env toujours t).blocs = s.blocs.filter (· ≠ q.bloc) := by
    rw [hexp]
    rfl
  have hsuiv : (s.expire env toujours t).suivant = s.suivant := by
    rw [hexp]
    rfl
  refine (?_ : ArretsTenus k x y l _).mono fun b hb => ?_
  · refine ⟨fun u hu p hp => ?_, fun p a hk ha => ?_, fun i hi => ?_, fun u hu => ?_,
      fun u hu c hc => ?_, fun u hu v hv => ?_, fun c hc => ?_, ?_⟩
    · obtain ⟨hu, hut⟩ := (harmes u).mp hu
      obtain ⟨hk, hp0, hur⟩ := h.registre u hu p hp
      exact ⟨hk, hp0, h.mStopProfil_expire_arret hforme ht hq
        (fun heq => hut (hforme.adresse_inj u (mem_armes.mp hu).1 t hmem heq)) hur⟩
    · rw [hmap, Function.update_apply] at ha
      split at ha
      · cases ha
      · rename_i hpq
        obtain ⟨u, hu, hadr, hucle⟩ := h.entree p a hk ha
        refine ⟨u, (harmes u).mpr ⟨hu, ?_⟩, hadr, hucle⟩
        rintro rfl
        exact hpq (Sum.inr.inj (Option.some.inj (hucle.symm.trans hcle)))
    · rw [hexp] at hi
      obtain ⟨hi, hadr⟩ := List.mem_filter.mp hi
      obtain ⟨u, hu, huy, r, hr, hradr⟩ := h.profils i hi
      refine ⟨u, (harmes u).mpr ⟨hu, ?_⟩, huy, r, hr, hradr⟩
      rintro rfl
      obtain rfl := Rappel.fctStopProfil.inj (Option.some.inj (hr.symm.trans hq))
      simp [hradr] at hadr
    · rw [hsuiv]
      exact h.bloc_lt u ((harmes u).mp hu).1
    · obtain ⟨hu, hut⟩ := (harmes u).mp hu
      have hcq : c ≠ q.bloc := by
        rintro rfl
        exact hut (h.bloc_inj u hu t ht _ hc hbloc)
      rw [hblocs, ← h.vivant u hu c hc]
      simp [hcq]
    · exact h.bloc_inj u ((harmes u).mp hu).1 v ((harmes v).mp hv).1
    · obtain ⟨hlt, hsuivi⟩ := h.suivis c hc
      rw [hsuiv, hblocs]
      refine ⟨hlt, fun hc => ?_⟩
      obtain ⟨hc, hcq⟩ := List.mem_filter.mp hc
      obtain ⟨u, hu, p, hp, huc⟩ := hsuivi hc
      refine ⟨u, (harmes u).mpr ⟨hu, ?_⟩, p, hp, huc⟩
      rintro rfl
      simp [Option.some.inj (hbloc.symm.trans huc)] at hcq
    · rw [hexp]
      show (s.doubleDelete || !s.blocs.contains q.bloc) = false
      simp [h.unique, hviv]
  · refine (List.mem_append.mp hb).resolve_left fun hnew => ?_
    obtain ⟨hnew, hold⟩ := List.mem_filter.mp hnew
    rw [hblocs] at hnew
    simp [(List.mem_filter.mp hnew).1] at hold

/-! ### The steps of planning -/

variable (env) in
theorem creeLanceur (h : ArretsTenus k none y l s) (n : UInt8) (auto : Bool) (usec : ℕ) :
    ArretsTenus k none y l (s.creeLanceur env toujours n auto usec) := by
  have hneuf : ∀ t ∈ s.armes, t.bloc ≠ some s.suivant := by
    intro t ht hc
    exact Nat.lt_irrefl _ (h.bloc_lt t ht _ hc)
  have halloue := h.alloue (n := s.suivant + 2) (Nat.le_refl s.suivant) (by omega)
  by_cases hu : usec = 0
  · subst hu
    have htimers : (s.creeLanceur env toujours n auto 0).timers = _ :=
      timers_creeLanceur_zero n auto
    have harmes : (nouveau (s.suivant + 1) auto :: s.timers).filter (·.timer.bStarted) =
        s.armes := List.filter_cons_of_neg (by simp [nouveau, CTimer.init])
    rw [← htimers] at harmes
    exact { halloue.avecTimers harmes with }
  · have htimers : (s.creeLanceur env toujours n auto usec).timers = _ :=
      timers_creeLanceur n auto hu
    have hajoute := halloue.ajoute (t := s.nouveauLanceur env n auto usec) rfl rfl
      (Nat.lt_add_of_pos_right (by decide)) List.mem_cons_self hneuf (Option.some_ne_none _)
      (List.forall_mem_cons.mpr ⟨fun p hp => (by cases hp), h.registre⟩)
      (fun p a hk ha => by
        obtain ⟨u, hu, hadr⟩ := h.entree p a hk ha
        exact ⟨u, List.mem_cons_of_mem _ hu, hadr⟩)
      (fun i hi => by
        obtain ⟨u, hu, hadr⟩ := h.profils i hi
        exact ⟨u, List.mem_cons_of_mem _ hu, hadr⟩)
    have heq : s.creeLanceur env toujours n auto usec =
        { s with
          blocs := s.suivant :: s.blocs
          suivant := s.suivant + 2
          timers := s.nouveauLanceur env n auto usec :: s.timers
          mLanceurProfil := (s.creeLanceur env toujours n auto usec).mLanceurProfil } := by
      rw [← htimers]
      rfl
    rw [heq]
    exact { hajoute with }

theorem stopLanceur (h : ArretsTenus k x y l s) (hforme : BienForme s) {n : UInt8}
    (ha : s.mLanceurProfil n = some a) : ArretsTenus k x y l (s.stop a) := by
  refine h.retire (s.armes_stop a) fun t ht p hp => ?_
  obtain ⟨hmem, hst⟩ := mem_armes.mp ht
  obtain ⟨m, hm⟩ | ⟨r, hr⟩ := hforme.armes hmem hst
  · rw [(lanceurDe_eq_true hst).mp hm] at hp
    cases hp
  · exact hforme.adresse_ne_of_arretDe ha (mem_arrets.mpr ⟨hmem, hr⟩)

/-! ### The steps of the shutdown loop -/

theorem image (h : ArretsTenus k x y l s) {g : TimerTache → TimerTache}
    (hadr : ∀ t, (g t).adresse = t.adresse) (htimer : ∀ t, (g t).timer = t.timer) :
    ArretsTenus k x y l { s with timers := s.timers.map g } := by
  have hcle : ∀ t, (g t).cle = t.cle := fun t => by simp only [cle, htimer]
  have hbloc : ∀ t, (g t).bloc = t.bloc := fun t => by simp only [bloc, htimer]
  have harmes : ({ s with timers := s.timers.map g } : CMainTask).armes = s.armes.map g := by
    simp only [armes, List.filter_map]
    exact congrArg _ (List.filter_congr fun t _ => by simp [htimer])
  refine ⟨?_, fun p c hk hc => ?_, fun i hi => ?_, ?_, ?_, ?_, fun c hc => ?_, h.unique⟩
  · simpa only [harmes, List.forall_mem_map, hcle, hadr] using h.registre
  · obtain ⟨t, ht, hta, htcle⟩ := h.entree p c hk hc
    rw [harmes]
    exact ⟨g t, List.mem_map_of_mem ht, (hadr t).trans hta, (hcle t).trans htcle⟩
  · obtain ⟨t, ht, hty, q, hq, hqi⟩ := h.profils i hi
    rw [harmes]
    exact ⟨g t, List.mem_map_of_mem ht, by rwa [hadr], q, by rwa [htimer], hqi⟩
  · simpa only [harmes, List.forall_mem_map, hbloc] using h.bloc_lt
  · simpa only [harmes, List.forall_mem_map, hbloc, hadr] using h.vivant
  · rw [harmes]
    simp only [List.forall_mem_map, hbloc]
    exact fun t ht u hu c htc huc => congrArg g (h.bloc_inj t ht u hu c htc huc)
  · obtain ⟨hlt, hviv⟩ := h.suivis c hc
    refine ⟨hlt, fun hc => ?_⟩
    obtain ⟨t, ht, p, hp, htc⟩ := hviv hc
    rw [harmes]
    exact ⟨g t, List.mem_map_of_mem ht, p, (hcle t).trans hp, (hbloc t).trans htc⟩

theorem demande (h : ArretsTenus k x none l s) (hforme : BienForme s) {t : TimerTache}
    (ht : t ∈ s.armes) {q : ParamCallbackStopProfil}
    (hq : t.timer.hObjetAttache = some (.fctStopProfil q)) :
    ArretsTenus k x (some t.adresse) l
      { s with profils := s.profils.filter (·.adresse ≠ q.pProfil) } :=
  { h with
    profils := fun i hi => by
      obtain ⟨hi, hadr⟩ := List.mem_filter.mp hi
      obtain ⟨u, hu, -, r, hr, hradr⟩ := h.profils i hi
      refine ⟨u, hu, fun heq => ?_, r, hr, hradr⟩
      obtain rfl := hforme.adresse_inj u (mem_armes.mp hu).1 t (mem_armes.mp ht).1
        (Option.some.inj heq)
      obtain rfl := Rappel.fctStopProfil.inj (Option.some.inj (hr.symm.trans hq))
      simp [hradr] at hadr }

/-- The block of a stop timer is deleted while the timer is still armed. -/
theorem supprimeTenu (h : ArretsTenus k none y l s) (hforme : BienForme s) {t : TimerTache}
    (ht : t ∈ s.armes) (hb : t.bloc = some b) :
    ArretsTenus k (some t.adresse) y l (s.supprime b) :=
  { h with
    vivant := fun u hu c hc => by
      have hviv := (h.vivant u hu c hc).mpr nofun
      have hcb : c = b ↔ u.adresse = t.adresse := by
        constructor
        · rintro rfl
          rw [h.bloc_inj u hu t ht _ hc hb]
        · intro hadr
          rw [hforme.adresse_inj u (mem_armes.mp hu).1 t (mem_armes.mp ht).1 hadr] at hc
          exact Option.some.inj (hc.symm.trans hb)
      simp [CMainTask.supprime, hviv, hcb]
    suivis := fun c hc => by
      obtain ⟨hlt, hviv⟩ := h.suivis c hc
      exact ⟨hlt, fun hmem => hviv (List.mem_of_mem_filter hmem)⟩
    unique := by
      have hviv := (h.vivant t ht b hb).mpr nofun
      simp [CMainTask.supprime, h.unique, hviv] }

theorem arrete (h : ArretsTenus k (some a) (some a) l s) (hforme : BienForme s) {p : UInt8}
    (hp : p.toNat = k) (ha : s.mStopProfil p = some a) :
    ArretsTenus (k + 1) none none l (s.stop a) := by
  obtain ⟨t, ht, hta, htcle⟩ := h.entree p a hp.ge ha
  have hmem : ∀ u, u ∈ (s.stop a).armes ↔ u ∈ s.armes ∧ u.adresse ≠ a := by
    intro u
    rw [armes_stop, List.mem_filter]
    simp
  refine ⟨fun u hu r hr => ?_, fun r c hk hc => ?_, fun i hi => ?_,
    fun u hu => h.bloc_lt u ((hmem u).mp hu).1, fun u hu c hc => ?_,
    fun u hu v hv => h.bloc_inj u ((hmem u).mp hu).1 v ((hmem v).mp hv).1, fun c hc => ?_,
    h.unique⟩
  · obtain ⟨hu, hua⟩ := (hmem u).mp hu
    obtain ⟨hk, hr0, hreg⟩ := h.registre u hu r hr
    refine ⟨?_, hr0, hreg⟩
    have hrp : r.toNat ≠ p.toNat := by
      intro heq
      rw [UInt8.toNat_inj.mp heq, ha] at hreg
      exact hua (Option.some.inj hreg).symm
    omega
  · obtain ⟨u, hu, huc, hucle⟩ := h.entree r c (by omega) hc
    refine ⟨u, (hmem u).mpr ⟨hu, fun hua => ?_⟩, huc, hucle⟩
    rw [hforme.adresse_inj u (mem_armes.mp hu).1 t (mem_armes.mp ht).1 (hua.trans hta.symm),
      htcle] at hucle
    have : p = r := Sum.inr.inj (Option.some.inj hucle)
    subst this
    omega
  · obtain ⟨u, hu, huy, hq⟩ := h.profils i hi
    exact ⟨u, (hmem u).mpr ⟨hu, fun hua => huy (congrArg some hua)⟩, nofun, hq⟩
  · obtain ⟨hu, hua⟩ := (hmem u).mp hu
    exact iff_of_true ((h.vivant u hu c hc).mpr fun heq => hua (Option.some.inj heq)) nofun
  · obtain ⟨hlt, hviv⟩ := h.suivis c hc
    refine ⟨hlt, fun hc => ?_⟩
    obtain ⟨u, hu, r, hr, huc⟩ := hviv hc
    refine ⟨u, (hmem u).mpr ⟨hu, fun hua => ?_⟩, r, hr, huc⟩
    exact (h.vivant u hu c huc).mp hc (congrArg some hua)

theorem saute (h : ArretsTenus k x y l s) {k' : ℕ} (hk : k ≤ k')
    (hvide : ∀ p : UInt8, k ≤ p.toNat → p.toNat < k' → s.mStopProfil p = none) :
    ArretsTenus k' x y l s :=
  { h with
    registre := fun t ht p hp => by
      obtain ⟨hkp, hp0, hreg⟩ := h.registre t ht p hp
      refine ⟨Nat.le_of_not_lt fun hlt => ?_, hp0, hreg⟩
      rw [hvide p hkp hlt] at hreg
      cases hreg
    entree := fun p a hp => h.entree p a (hk.trans hp) }

/-- When all keys are done no profile runs and no block that is followed is live. -/
theorem rien (h : ArretsTenus 256 x y l s) : s.profils = [] ∧ ∀ b ∈ l, b ∉ s.blocs := by
  have hno : ∀ t ∈ s.armes, ∀ p, t.cle ≠ some (.inr p) := by
    intro t ht p hp
    have := (h.registre t ht p hp).1
    have := p.toNat_lt
    omega
  refine ⟨List.eq_nil_iff_forall_not_mem.mpr fun i hi => ?_, fun b hb hmem => ?_⟩
  · obtain ⟨t, ht, -, q, hq, -⟩ := h.profils i hi
    exact hno t ht _ (cle_of_arret hq).1
  · obtain ⟨t, ht, p, hp, -⟩ := (h.suivis b hb).2 hmem
    exact hno t ht p hp

theorem vide (h : ArretsTenus 256 x y l s) :
    ArretsTenus 256 x y l { s with mStopProfil := fun _ => none } :=
  { h with
    registre := fun t ht p hp => by
      have := (h.registre t ht p hp).1
      have := p.toNat_lt
      omega
    entree := fun p a hp => by
      have := p.toNat_lt
      omega }

end ArretsTenus

end GestAqua.CMainTask
