import GestAqua.Threads.Watch

/-!
One run at a time.

`CTimer::Start` is guarded by `m_bStarted`, which the new thread sets late and the
old one clears before its last accesses to the flag and the pipe. As long as no
`Start` falls into one of these two windows (`StartEnOrdre`), the threads of a
timer follow one another: at most one is in `CTimer::Thread`, a one-shot run makes
at most one callback, and a run ends by its own expiry, by an error of `select` or
on a request made since its `Start`.
-/

namespace GestAqua

def Pc.dansThread (pc : Pc) : Bool := pc == .entree || pc.enCorps

def Pc.enFin : Pc → Bool
  | .finVerrou | .finPose | .finEcrit | .finLibere => true
  | _ => false

def Pc.aEcrit : Pc → Bool
  | .finLibere | .destruction | .termine => true
  | _ => false

namespace Fil

def Acheve (o : CThread) (f : Fil) : Prop :=
  f.pc = .termine ∨ f.pc = .destruction ∧ o.cAutoDelete = false

/-- The run was ended by its own one-shot expiry, by an error of `select`, or on a
request made since its `Start`. -/
def FinLegitime (f : Fil) : Prop :=
  match f.cause with
  | none | some .erreur => True
  | some .oneshot => f.uiFlag &&& 0x1 = timeOneshot ∧ 0 < f.rappels
  | some .lisible | some .drapeau => f.demande = true
  | some .garde => False

/-- The actions that a one-shot run may have begun at a point of its program. -/
def bornee : Pc → ℕ
  | .apres | .sortie | .finVerrou | .finPose | .finEcrit | .finLibere | .destruction
  | .termine => 1
  | _ => 0

/-- A run of the timer as the only one that accesses the object. -/
structure Courant (o : CThread) (f : Fil) : Prop where
  pipe : ∃ p, f.Surveille o p ∧ (p ∈ o.lisibles → f.demande = true ∨ f.pc.aEcrit = true)
  started : o.timer.bStarted = f.pc.enCorps
  duree : o.timer.ui64TpsUsec ≠ 0
  flag : o.timer.uiFlagEvent = f.uiFlag
  drapeau : f.pc.entreDrapeaux = true → o.arretThread ≠ 0 → f.demande = true
  lisible : f.pc = .lisible → f.demande = true
  rappels : f.uiFlag &&& 0x1 = timeOneshot → f.rappels ≤ bornee f.pc
  engage : f.pc = .apres → 0 < f.rappels
  fin : FinLegitime f

variable {o o' : CThread} {k : ℕ} {f f' : Fil} {c : Choix}

theorem Mouvement.demande (h : f.Mouvement o k c o' f') : f'.demande = f.demande := by
  cases h <;> rfl

theorem Mouvement.uiFlag (h : f.Mouvement o k c o' f') : f'.uiFlag = f.uiFlag := by
  cases h <;> rfl

theorem Mouvement.descripteurs (h : f.Mouvement o k c o' f') : o'.ouverts = o.ouverts ∧
    (∀ q ∈ o'.lisibles, q ∈ o.lisibles ∨ o.iIdPipe = some q) ∧
    ∀ q, o'.iIdPipe = some q → o.iIdPipe = some q := by
  cases h with
  | finEcrit =>
      refine ⟨rfl, fun q hq => ?_, fun q hq => hq⟩
      rcases List.mem_append.mp hq with hq | hq
      · exact .inr (Option.mem_toList.mp hq)
      · exact .inl hq
  | detruit => exact ⟨rfl, fun q hq => .inl hq, fun q hq => nomatch hq⟩
  | _ => exact ⟨rfl, fun q hq => .inl hq, fun q hq => hq⟩

theorem Acheve.mouvement (h : f.Acheve o) (hm : f.Mouvement o k c o' f') :
    o' = o ∧ f' = { f with pc := .termine } := by
  cases hm with
  | termine => exact ⟨rfl, rfl⟩
  | detruit hpc ha =>
      rcases h with hpc' | ⟨-, ha'⟩
      · rw [hpc] at hpc'
        cases hpc'
      · rw [ha] at ha'
        cases ha'
  | _ hpc => rcases h with hpc' | ⟨hpc', -⟩ <;> rw [hpc] at hpc' <;> cases hpc'

theorem Courant.pipe_mouvement (h : f.Courant o) (hm : f.Mouvement o k c o' f') :
    ∃ p, f'.Surveille o' p ∧ (p ∈ o'.lisibles → f'.demande = true ∨ f'.pc.aEcrit = true) := by
  obtain ⟨p, hp, hread⟩ := h.pipe
  refine ⟨p, hp.mouvement hm, ?_⟩
  rw [hm.demande]
  cases hm with
  | finEcrit => exact fun _ => .inr rfl
  | finLibere | detruit | termine => exact fun _ => .inr rfl
  | _ hpc =>
      intro hmem
      rw [hpc] at hread
      exact .inl ((hread hmem).resolve_right Bool.false_ne_true)

theorem FinLegitime.mono (h : f.FinLegitime) (hcause : f'.cause = f.cause)
    (hflag : f'.uiFlag = f.uiFlag) (hdem : f.demande = true → f'.demande = true)
    (hrap : f.rappels ≤ f'.rappels) : f'.FinLegitime := by
  unfold FinLegitime at h ⊢
  rw [hcause, hflag]
  split at h
  case h_3 => exact ⟨h.1, Nat.lt_of_lt_of_le h.2 hrap⟩
  case h_4 | h_5 => exact hdem h
  case h_6 => exact h
  all_goals trivial

/-- The flag is raised by the owner alone once the thread has cleared it. -/
theorem Courant.drapeau_mouvement (h : f.Courant o) (hm : f.Mouvement o k c o' f')
    (hpc' : f'.pc.entreDrapeaux = true) (ha : o'.arretThread ≠ 0) : f'.demande = true := by
  rw [hm.demande]
  cases hm with
  | initPose => exact absurd rfl ha
  | initVerrou | entreeGarde | sortieTimer | sortieAutre | finVerrou | finPose | finEcrit
  | finLibere | detruit | termine => cases hpc'
  | _ hpc =>
      apply h.drapeau _ ha
      rw [hpc]
      rfl

/-- The pipe is written by the owner alone before the thread's last step. -/
theorem Courant.lisible_mouvement (h : f.Courant o) (hm : f.Mouvement o k c o' f')
    (hpc' : f'.pc = .lisible) : f'.demande = true := by
  cases hm with
  | lisible hpc hp =>
      obtain ⟨p, hsurv, hread⟩ := h.pipe
      have hor := hread ((hsurv.pret_iff hpc).mp hp)
      rw [hpc] at hor
      exact hor.resolve_right Bool.false_ne_true
  | _ => cases hpc'

/-- A one-shot run leaves the loop after its callback. -/
theorem Courant.rappels_mouvement (h : f.Courant o) (hc : o.classe = .cTimer)
    (hm : f.Mouvement o k c o' f') (hone : f.uiFlag &&& 0x1 = timeOneshot) :
    f'.rappels ≤ bornee f'.pc := by
  have hle := h.rappels hone
  cases hm with
  | action hpc =>
      rw [hpc] at hle
      exact Nat.succ_le_succ hle
  | recommence hpc hf =>
      have hone' := hf hc
      simp [CTimer.estOneshot, h.flag, hone] at hone'
  | _ hpc =>
      rw [hpc] at hle
      exact Nat.le_trans hle (Nat.le_of_ble_eq_true rfl)

theorem Courant.fin_mouvement (h : f.Courant o) (hm : f.Mouvement o k c o' f') :
    f'.FinLegitime := by
  cases hm with
  | entreeGarde _ _ hu => exact absurd hu h.duree
  | prepareGarde hpc hp =>
      obtain ⟨p, hsurv, -⟩ := h.pipe
      rw [hsurv.iIdPipe_eq (by simp [hpc])] at hp
      cases hp
  | drapeau hpc _ ha => exact h.drapeau (by simp [hpc, Pc.entreDrapeaux, Pc.enCorps]) ha
  | quitte hpc => exact h.lisible hpc
  | erreur => trivial
  | oneshot hpc hf =>
      rw [CTimer.estOneshot, h.flag, beq_iff_eq] at hf
      exact ⟨hf, h.engage hpc⟩
  | action => exact h.fin.mono rfl rfl id (Nat.le_succ _)
  | _ => exact h.fin

theorem Courant.mouvement (h : f.Courant o) (hc : o.classe = .cTimer)
    (hm : f.Mouvement o k c o' f') : f'.Courant o' := by
  obtain ⟨husec, hflag⟩ := hm.timer
  refine ⟨h.pipe_mouvement hm, hm.started hc h.started, ?_, ?_, h.drapeau_mouvement hm,
    h.lisible_mouvement hm, fun hone => h.rappels_mouvement hc hm (hm.uiFlag ▸ hone), ?_,
    h.fin_mouvement hm⟩
  · rw [husec]
    exact h.duree
  · rw [hflag, hm.uiFlag]
    exact h.flag
  · cases hm with
    | action => exact fun _ => Nat.succ_pos _
    | _ => exact fun hpc => nomatch hpc

theorem Courant.congr (h : f.Courant o) (hpipe : o'.iIdPipe = o.iIdPipe)
    (hlis : o'.lisibles = o.lisibles) (harret : o'.arretThread = o.arretThread)
    (hstarted : o'.timer.bStarted = o.timer.bStarted)
    (hduree : o'.timer.ui64TpsUsec = o.timer.ui64TpsUsec)
    (hflag : o'.timer.uiFlagEvent = o.timer.uiFlagEvent) : f.Courant o' where
  pipe := by
    obtain ⟨p, hsurv, hread⟩ := h.pipe
    exact ⟨p, hsurv.congr hpipe, hlis ▸ hread⟩
  started := hstarted.trans h.started
  duree := hduree ▸ h.duree
  flag := hflag.trans h.flag
  drapeau := harret ▸ h.drapeau
  lisible := h.lisible
  rappels := h.rappels
  engage := h.engage
  fin := h.fin

/-- A request of the owner: the run is marked, and may find the flag raised or the
pipe written. -/
theorem Courant.marque (h : f.Courant o) (hp : o'.iIdPipe = o.iIdPipe)
    (ht : o'.timer = o.timer) : ({ f with demande := true } : Fil).Courant o' := by
  obtain ⟨p, hsurv, -⟩ := h.pipe
  refine ⟨⟨p, hsurv.congr hp, fun _ => .inl rfl⟩, ?_, ?_, ?_, fun _ _ => rfl, fun _ => rfl,
    h.rappels, h.engage, h.fin.mono rfl rfl (fun _ => rfl) (Nat.le_refl _)⟩
  · rw [ht]
    exact h.started
  · rw [ht]
    exact h.duree
  · rw [ht]
    exact h.flag

theorem Courant.cree {flag p : ℕ} (hb : o.timer.bStarted = false) (hu : o.timer.ui64TpsUsec ≠ 0)
    (hf : o.timer.uiFlagEvent = flag) (hp : o.iIdPipe = some p) (hread : p ∉ o.lisibles) :
    (cree flag).Courant o where
  pipe := ⟨p, hp, fun hmem => absurd hmem hread⟩
  started := hb
  duree := hu
  flag := hf
  drapeau hpc := absurd hpc Bool.false_ne_true
  lisible hpc := nomatch hpc
  rappels _ := Nat.le_refl 0
  engage hpc := nomatch hpc
  fin := trivial

/-- Where a run that `m_bStarted` shows to be over can be, outside the two windows. -/
theorem Courant.acheve (h : f.Courant o) (hb : o.timer.bStarted = false)
    (hdem : f.pc.demarre = true) (hfin : f.pc.enFin = false)
    (hdes : f.pc = .destruction → o.cAutoDelete = false) : f.Acheve o := by
  have hcorps := h.started.symm.trans hb
  cases hpc : f.pc <;> rw [hpc] at hdem hfin hcorps
  case termine => exact .inl hpc
  case destruction => exact .inr ⟨hpc, hdes hpc⟩
  case initVerrou | initPose | initLibere | entree => cases hdem
  case finVerrou | finPose | finEcrit | finLibere => cases hfin
  all_goals cases hcorps

end Fil

namespace Systeme

/-- At a `Start` that takes effect no earlier thread is in start-up or in
wind-down, and the object is neither deleted nor about to be. -/
def StartEnOrdre (s : Systeme) : EvtThread → Prop
  | .start ui64Usec _ => s.objet.timer.bStarted = false → ui64Usec ≠ 0 →
      s.objet.detruit = false ∧ ∀ f ∈ s.fils, f.pc.demarre = true ∧ f.pc.enFin = false ∧
        (f.pc = .destruction → s.objet.cAutoDelete = false)
  | _ => True

instance (s : Systeme) : ∀ e, Decidable (s.StartEnOrdre e)
  | .start ui64Usec _ => inferInstanceAs (Decidable (s.objet.timer.bStarted = false →
      ui64Usec ≠ 0 → s.objet.detruit = false ∧ ∀ f ∈ s.fils, f.pc.demarre = true ∧
        f.pc.enFin = false ∧ (f.pc = .destruction → s.objet.cAutoDelete = false)))
  | .create | .stop | .demande | .pipe _ | .pthreadCreate _ | .suite | .fil _ _ => isTrue trivial

/-- The object carries one run at a time: one thread at most executes
`CTimer::Thread`, a one-shot run begins one callback at most, and a run ends only
by its own expiry, by an error of `select` or on a request made since its
`Start`. -/
structure UnSeulRun (s : Systeme) : Prop where
  exclusif : (s.fils.filter (·.pc.dansThread)).length ≤ 1
  oneshot : ∀ f ∈ s.fils, f.uiFlag &&& 0x1 = timeOneshot → f.rappels ≤ 1
  fin : ∀ f ∈ s.fils, f.FinLegitime

def AppelEnSuite (s : Systeme) (dernier : Option Fil) : Appel → Prop
  | .pipe uiFlag => dernier = none ∧ s.objet.timer.ui64TpsUsec ≠ 0 ∧
      s.objet.timer.uiFlagEvent = uiFlag
  | .pthreadCreate uiFlag => dernier = none ∧ s.objet.timer.ui64TpsUsec ≠ 0 ∧
      s.objet.timer.uiFlagEvent = uiFlag ∧
      ∃ p, s.objet.iIdPipe = some p ∧ p ∉ s.objet.lisibles
  | .demEcrit => ∀ f ∈ dernier, f.demande = true
  | _ => True

/-- The runs of a timer follow one another: the earlier ones are over, and the last
one is the only one that accesses the object. -/
structure Suite (s : Systeme) (vieux : List Fil) (dernier : Option Fil) : Prop where
  fils : s.fils = vieux ++ dernier.toList
  classe : s.objet.classe = .cTimer
  acheve : ∀ f ∈ vieux, f.Acheve s.objet
  oneshot : ∀ f ∈ vieux, f.uiFlag &&& 0x1 = timeOneshot → f.rappels ≤ 1
  fin : ∀ f ∈ vieux, f.FinLegitime
  courant : ∀ f ∈ dernier, f.Courant s.objet
  repos : dernier = none → s.objet.timer.bStarted = false
  lisibles : ∀ q ∈ s.objet.lisibles, q ∈ s.objet.ouverts
  pipe : ∀ q ∈ s.objet.iIdPipe, q ∈ s.objet.ouverts
  appel : AppelEnSuite s dernier s.appel

variable {s s' : Systeme} {e : EvtThread} {vieux : List Fil} {dernier : Option Fil}

theorem Suite.neuf (arret : ℕ) (auto detache : Bool) :
    Suite (neuf .cTimer arret auto detache) [] none where
  fils := rfl
  classe := rfl
  acheve := by simp
  oneshot := by simp
  fin := by simp
  courant := by simp
  repos _ := rfl
  lisibles := by simp [Systeme.neuf, CThread.construit]
  pipe := by simp [Systeme.neuf, CThread.construit]
  appel := trivial

theorem bornee_le_one (pc : Pc) : Fil.bornee pc ≤ 1 := by
  cases pc <;> decide

theorem Suite.unSeulRun (h : Suite s vieux dernier) : UnSeulRun s where
  exclusif := by
    have hvieux : vieux.filter (·.pc.dansThread) = [] := by
      rw [List.filter_eq_nil_iff]
      intro f hf
      rcases h.acheve f hf with hpc | ⟨hpc, -⟩ <;> rw [hpc] <;> decide
    rw [h.fils, List.filter_append, hvieux, List.nil_append]
    apply Nat.le_trans (List.length_filter_le _ _)
    cases dernier <;> simp
  oneshot := by
    intro f hf hone
    rw [h.fils, List.mem_append, Option.mem_toList] at hf
    rcases hf with hf | hf
    · exact h.oneshot f hf hone
    · exact Nat.le_trans ((h.courant f hf).rappels hone) (bornee_le_one _)
  fin := by
    intro f hf
    rw [h.fils, List.mem_append, Option.mem_toList] at hf
    rcases hf with hf | hf
    · exact h.fin f hf
    · exact (h.courant f hf).fin

/-! ### The steps -/

/-- A step of a thread that is done leaves the object to the last run. -/
theorem Suite.mouvement_acheve (h : Suite s vieux dernier) {k : ℕ} (hk : k < vieux.length)
    {c : Choix} {o' : CThread} {f' : Fil}
    (hm : (vieux.get ⟨k, hk⟩).Mouvement s.objet k c o' f') :
    Suite { s with objet := o', fils := s.fils.set k f' } (vieux.set k f') dernier := by
  have hmem : vieux.get ⟨k, hk⟩ ∈ vieux := List.get_mem _ _
  obtain ⟨rfl, hf'⟩ := (h.acheve _ hmem).mouvement hm
  refine { h with fils := ?_, acheve := ?_, oneshot := ?_, fin := ?_ }
  · show s.fils.set k f' = _
    rw [h.fils, List.set_append_left _ _ hk]
  · intro f hf
    rcases List.mem_or_eq_of_mem_set hf with hf | rfl
    · exact h.acheve f hf
    · exact .inl (by rw [hf'])
  · intro f hf hone
    rcases List.mem_or_eq_of_mem_set hf with hf | rfl
    · exact h.oneshot f hf hone
    · rw [hf'] at hone ⊢
      exact h.oneshot (vieux.get ⟨k, hk⟩) hmem hone
  · intro f hf
    rcases List.mem_or_eq_of_mem_set hf with hf | rfl
    · exact h.fin f hf
    · rw [hf']
      exact (h.fin _ hmem).mono rfl rfl id (Nat.le_refl _)

theorem Suite.mouvement_courant {g : Fil} (h : Suite s vieux (some g)) {k : ℕ}
    {c : Choix} {o' : CThread} {f' : Fil} (hm : g.Mouvement s.objet k c o' f') :
    Suite { s with objet := o', fils := vieux ++ [f'] } vieux (some f') := by
  have hg := h.courant g rfl
  obtain ⟨hclasse, hauto, -⟩ := hm.constantes
  obtain ⟨houv, hlis, hpipe⟩ := hm.descripteurs
  refine ⟨rfl, hclasse.trans h.classe, ?_, h.oneshot, h.fin, ?_, ?_, ?_, ?_, ?_⟩
  · intro f hf
    show f.Acheve o'
    rw [Fil.Acheve, hauto]
    exact h.acheve f hf
  · rintro f ⟨⟩
    exact hg.mouvement h.classe hm
  · intro hcon
    cases hcon
  · intro q hq
    show q ∈ o'.ouverts
    rw [houv]
    exact (hlis q hq).elim (h.lisibles q) (h.pipe q)
  · intro q hq
    show q ∈ o'.ouverts
    rw [houv]
    exact h.pipe q (hpipe q hq)
  · have happel := h.appel
    show AppelEnSuite _ _ s.appel
    cases ha : s.appel <;> rw [ha] at happel
    case pipe | pthreadCreate => cases happel.1
    case demEcrit =>
      rintro f ⟨⟩
      rw [hm.demande]
      exact happel g rfl
    all_goals trivial

theorem Suite.mouvement (h : Suite s vieux dernier) {k : ℕ} {f f' : Fil} {c : Choix}
    {o' : CThread} (hk : s.fils[k]? = some f) (hm : f.Mouvement s.objet k c o' f') :
    ∃ vieux dernier, Suite { s with objet := o', fils := s.fils.set k f' } vieux dernier := by
  rw [h.fils] at hk
  by_cases hlt : k < vieux.length
  · rw [List.getElem?_append_left hlt, List.getElem?_eq_getElem hlt] at hk
    obtain rfl := Option.some.inj hk
    exact ⟨_, _, h.mouvement_acheve hlt hm⟩
  · rw [Nat.not_lt] at hlt
    rw [List.getElem?_append_right hlt] at hk
    cases dernier with
    | none => cases hk
    | some g =>
        obtain ⟨hzero, rfl⟩ := getElem?_seul hk
        rw [h.fils, List.set_append_right _ _ hlt, hzero]
        exact ⟨_, _, h.mouvement_courant hm⟩

/-- A request of the owner reaches every run, and may raise the flag and write to
the pipe. -/
theorem Suite.marque (h : Suite s vieux dernier) {o' : CThread} {appel : Appel}
    (hclasse : o'.classe = s.objet.classe) (hauto : o'.cAutoDelete = s.objet.cAutoDelete)
    (htimer : o'.timer = s.objet.timer) (hpipe : o'.iIdPipe = s.objet.iIdPipe)
    (houv : o'.ouverts = s.objet.ouverts)
    (hlis : ∀ q ∈ o'.lisibles, q ∈ s.objet.lisibles ∨ s.objet.iIdPipe = some q)
    (happel : AppelEnSuite { s with objet := o' }
      (dernier.map fun f => { f with demande := true }) appel) :
    Suite { s with objet := o', fils := s.marque, appel := appel }
      (vieux.map fun f => { f with demande := true })
      (dernier.map fun f => { f with demande := true }) where
  fils := by
    show s.marque = _
    rw [Systeme.marque, h.fils, List.map_append]
    cases dernier <;> rfl
  classe := hclasse.trans h.classe
  acheve := by
    refine List.forall_mem_map.mpr fun f hf => ?_
    show Fil.Acheve o' _
    rw [Fil.Acheve, hauto]
    exact h.acheve f hf
  oneshot := List.forall_mem_map.mpr h.oneshot
  fin := List.forall_mem_map.mpr fun f hf =>
    (h.fin f hf).mono rfl rfl (fun _ => rfl) (Nat.le_refl _)
  courant := by
    intro f hf
    obtain ⟨g, hg, rfl⟩ := Option.map_eq_some_iff.mp hf
    exact (h.courant g hg).marque hpipe htimer
  repos := by
    intro hnone
    show o'.timer.bStarted = false
    rw [htimer]
    exact h.repos (Option.map_eq_none_iff.mp hnone)
  lisibles := by
    intro q hq
    show q ∈ o'.ouverts
    rw [houv]
    exact (hlis q hq).elim (h.lisibles q) (h.pipe q)
  pipe := by
    intro q hq
    show q ∈ o'.ouverts
    rw [houv]
    exact h.pipe q (hpipe ▸ hq)
  appel := happel

theorem ecrit_lisibles (o : CThread) :
    ∀ q ∈ o.ecrit.lisibles, q ∈ o.lisibles ∨ o.iIdPipe = some q := by
  intro q hq
  rcases List.mem_append.mp hq with hq | hq
  · exact .inr (Option.mem_toList.mp hq)
  · exact .inl hq

theorem Suite.step (h : Suite s vieux dernier) (hg : s.StartEnOrdre e)
    (hs : s.step e = some s') : ∃ vieux dernier, Suite s' vieux dernier := by
  have happel := h.appel
  cases geste_of_step hs with
  | fil hk hm => exact h.mouvement hk hm
  | startVain => exact ⟨_, _, h⟩
  | start ha hb hu =>
      -- every run is over: the threads so far become the earlier ones
      obtain ⟨-, hordre⟩ := hg hb hu
      have hrun := h.unSeulRun
      refine ⟨s.fils, none, (List.append_nil _).symm, h.classe, fun f hf => ?_, hrun.oneshot,
        hrun.fin, nofun, fun _ => rfl, h.lisibles, h.pipe, rfl, hu, rfl⟩
      obtain ⟨hdem, hfin, hdes⟩ := hordre f hf
      rw [h.fils, List.mem_append, Option.mem_toList] at hf
      rcases hf with hf | hf
      · exact h.acheve f hf
      · exact (h.courant f hf).acheve hb hdem hfin hdes
  | create _ hc => exact absurd h.classe hc
  | pipe ha hp =>
      rw [ha] at happel
      obtain ⟨rfl, hu, hflag⟩ := happel
      refine ⟨vieux, none, { h with
        courant := fun f hf => nomatch hf
        lisibles := fun q hq => List.mem_cons_of_mem _ (h.lisibles q hq)
        pipe := ?_
        appel := ⟨rfl, hu, hflag, _, rfl, fun hmem => hp (h.lisibles _ hmem)⟩ }⟩
      rintro q ⟨⟩
      exact List.mem_cons_self
  | sansPipe ha =>
      rw [ha] at happel
      obtain ⟨rfl, -⟩ := happel
      exact ⟨vieux, none, { h with
        courant := fun f hf => nomatch hf
        pipe := fun q hq => nomatch hq
        appel := trivial }⟩
  | @pthreadCreate flag ha =>
      rw [ha] at happel
      obtain ⟨rfl, hu, hflag, p, hp, hread⟩ := happel
      refine ⟨vieux, some (.cree flag), { h with
        fils := ?_
        courant := ?_
        repos := fun hcon => nomatch hcon
        appel := trivial }⟩
      · show s.fils ++ [.cree flag] = _
        rw [h.fils]
        simp
      · rintro f ⟨⟩
        exact .cree (h.repos rfl) hu hflag hp hread
  | sansFil ha => exact ⟨_, _, { h with appel := trivial }⟩
  | stopVain ha hb => exact ⟨_, _, { h with appel := trivial }⟩
  | stop ha hb => exact ⟨_, _, { h with appel := trivial }⟩
  | stopFini ha => exact ⟨_, _, { h with appel := trivial }⟩
  | stopDrapeau ha => exact ⟨_, _, { h with appel := trivial }⟩
  | stopFerme ha => exact ⟨_, _, { h with appel := trivial }⟩
  | stopEcrit ha =>
      exact ⟨_, _, h.marque rfl rfl rfl rfl rfl (ecrit_lisibles s.objet) trivial⟩
  | stopJoint ha => exact ⟨_, _, { h with appel := trivial }⟩
  | stopLibre ha => exact ⟨_, _, { h with appel := trivial }⟩
  | joint ha => exact ⟨_, _, { h with appel := trivial }⟩
  | stopDetache ha =>
      exact ⟨vieux, dernier, { h with
        courant := fun f hf => (h.courant f hf).congr rfl rfl rfl rfl rfl rfl
        appel := trivial }⟩
  | demande ha hm =>
      exact ⟨vieux, dernier, { h with
        courant := fun f hf => (h.courant f hf).congr rfl rfl rfl rfl rfl rfl
        appel := trivial }⟩
  | demPose ha =>
      refine ⟨_, _, h.marque rfl rfl rfl rfl rfl (fun q hq => .inl hq) ?_⟩
      intro f hf
      obtain ⟨g, -, rfl⟩ := Option.map_eq_some_iff.mp hf
      rfl
  | demEcrit ha =>
      rw [ha] at happel
      refine ⟨vieux, dernier, { h with courant := ?_, lisibles := ?_, appel := trivial }⟩
      · intro f hf
        have hmarque : ({ f with demande := true } : Fil) = f := by rw [← happel f hf]
        rw [← hmarque]
        exact (h.courant f hf).marque rfl rfl
      · intro q hq
        exact (ecrit_lisibles s.objet q hq).elim (h.lisibles q) (h.pipe q)
  | demLibere ha =>
      exact ⟨vieux, dernier, { h with
        courant := fun f hf => (h.courant f hf).congr rfl rfl rfl rfl rfl rfl
        appel := trivial }⟩

/-- As long as every `Start` that takes effect is in order, the object carries one
run at a time, in every state of every run of calls and steps. -/
theorem un_seul_run (arret : ℕ) (auto detache : Bool) (es : List EvtThread)
    (hordre : Execution.Meets step StartEnOrdre (neuf .cTimer arret auto detache) es) :
    Execution.Always step UnSeulRun (neuf .cTimer arret auto detache) es := by
  refine Execution.always_of_guarded (I := fun s => ∃ vieux dernier, Suite s vieux dernier)
    ?_ ?_ ⟨[], none, Suite.neuf arret auto detache⟩ hordre
  · rintro s ⟨vieux, dernier, h⟩
    exact h.unSeulRun
  · rintro s e s' ⟨vieux, dernier, h⟩ hg hs
    exact h.step hg hs

/-- A one-shot run that expires, and a second `Start` once the first thread has
made its `SetArretThread (2)`. -/
theorem un_seul_run_relance :
    Execution.Always step UnSeulRun (neuf .cTimer 7 false false)
      [.start 50 timeOneshot, .pipe (some 3), .pthreadCreate true, .pas, .pas, .pas, .pas, .pas,
        .pas, .pas, .pas, .fil 0 .expire, .pas, .pas, .pas, .pas, .pas, .pas, .pas, .pas,
        .start 80 timePeriodic, .pipe (some 5), .pthreadCreate true, .fil 1 .suite, .pas] :=
  un_seul_run 7 false false _ (by decide)

/-- A second `Start` before the first thread has set `m_bStarted`: both threads
enter `CTimer::Thread`. -/
theorem deux_runs_ensemble :
    ¬ Execution.Always step UnSeulRun (neuf .cTimer 0 false false)
      [.start 50 timeOneshot, .pipe (some 3), .pthreadCreate true, .start 50 timeOneshot,
        .pipe (some 5), .pthreadCreate true, .pas, .pas, .pas, .fil 1 .suite, .fil 1 .suite,
        .fil 1 .suite] := by
  intro h
  have hlast := h.get (by decide)
  exact absurd hlast.exclusif (by decide)

end Systeme

end GestAqua
