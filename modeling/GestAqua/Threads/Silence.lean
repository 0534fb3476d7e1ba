import GestAqua.Threads.Watch

/-!
What a returned `Stop` guarantees.

`CTimer::Stop` decides from `m_bStarted`, which the new thread sets late, and
speaks to the thread through the pipe only, which the thread reads in `select`. A
`Stop` that comes before the thread has begun does nothing, and one that comes
after `select` has timed out is too late unless it joins the thread. `StopEnOrdre`
excludes these two cases, and then a timer that has been stopped stays silent.
-/

namespace GestAqua.Systeme

def UnSeulStart (s : Systeme) : EvtThread → Prop
  | .start _ _ => s.fils = []
  | _ => True

/-- `Stop` is called when the thread has set `m_bStarted`; when it will not join
the thread, the pipe is written while the thread is not between a `select` that
timed out and the callback. -/
def StopEnOrdre (s : Systeme) : EvtThread → Prop
  | .stop => ∀ f ∈ s.fils, f.pc.demarre = true
  | .suite => s.appel = .stopEcrit → s.avant = true →
      (s.objet.cAutoDelete = true ∨ s.objet.cIsdetachstate = true) →
      ∀ f ∈ s.fils, f.pc ≠ .expire ∧ f.pc ≠ .action
  | _ => True

/-- No callback begins once a `Stop` that was issued before the callback began has
returned. -/
def Silencieux (s : Systeme) : EvtThread → Prop
  | .fil k _ => s.silence = true → ∀ f ∈ s.fils[k]?, f.pc ≠ .action
  | _ => True

instance (s : Systeme) : ∀ e, Decidable (s.UnSeulStart e)
  | .start _ _ => inferInstanceAs (Decidable (s.fils = []))
  | .create | .stop | .demande | .pipe _ | .pthreadCreate _ | .suite | .fil _ _ => isTrue trivial

instance (s : Systeme) : ∀ e, Decidable (s.StopEnOrdre e)
  | .stop => inferInstanceAs (Decidable (∀ f ∈ s.fils, f.pc.demarre = true))
  | .suite => inferInstanceAs (Decidable (s.appel = .stopEcrit → s.avant = true →
      (s.objet.cAutoDelete = true ∨ s.objet.cIsdetachstate = true) →
      ∀ f ∈ s.fils, f.pc ≠ .expire ∧ f.pc ≠ .action))
  | .start _ _ | .create | .demande | .pipe _ | .pthreadCreate _ | .fil _ _ => isTrue trivial

instance (s : Systeme) : ∀ e, Decidable (s.Silencieux e)
  | .fil k _ => inferInstanceAs (Decidable (s.silence = true → ∀ f ∈ s.fils[k]?, f.pc ≠ .action))
  | .start _ _ | .create | .stop | .demande | .pipe _ | .pthreadCreate _ | .suite =>
    isTrue trivial

/-! ### The invariant -/

/-- The thread begins no callback any more: it has left the loop, or `select` will
find the pipe readable. -/
def Muet (p : ℕ) (s : Systeme) : Prop :=
  s.fil.pc.horsBoucle = true ∨
    p ∈ s.objet.lisibles ∧ s.fil.pc.demarre = true ∧ s.fil.pc ≠ .expire ∧ s.fil.pc ≠ .action

/-- What the `Stop` in progress has established, if it was issued before the
callback began. -/
def StopAcquis (p : ℕ) (s : Systeme) : Appel → Prop
  | .pipe _ | .pthreadCreate _ => False
  | .stopDrapeau | .stopEcrit | .stopJoint => s.avant = true → s.fil.pc.demarre = true
  | .stopTeste => s.avant = true → s.fil.pc.demarre = true ∧
      ((s.objet.cAutoDelete = true ∨ s.objet.cIsdetachstate = true) → Muet p s)
  | .stopDetache => s.avant = true → Muet p s
  | .libre | .demPose | .demEcrit | .demLibere => True

structure SansFil (s : Systeme) : Prop where
  fils : s.fils = []
  classe : s.objet.classe = .cTimer
  started : s.objet.timer.bStarted = false
  silence : s.silence = false
  appel : s.appel = .libre ∨ (∃ flag, s.appel = .pipe flag) ∨
    (∃ flag p, s.appel = .pthreadCreate flag ∧ s.objet.iIdPipe = some p) ∨
    s.appel = .demPose ∨ s.appel = .demEcrit ∨ s.appel = .demLibere

structure UnFil (p : ℕ) (s : Systeme) : Prop where
  unique : s.fils = [s.fil]
  classe : s.objet.classe = .cTimer
  surveille : s.fil.Surveille s.objet p
  started : s.objet.timer.bStarted = s.fil.pc.enCorps
  arret : s.fil.pc.entreDrapeaux = true → s.objet.arretThread ≠ 2
  stop : StopAcquis p s s.appel
  silence : s.silence = true → Muet p s

variable {p : ℕ} {s s' : Systeme} {e : EvtThread}

theorem SansFil.neuf (arret : ℕ) (auto detache : Bool) :
    SansFil (neuf .cTimer arret auto detache) where
  fils := rfl
  classe := rfl
  started := rfl
  silence := rfl
  appel := .inl rfl

theorem Muet.mouvement (h : s.fil.Surveille s.objet p) (hm : Muet p s) {c : Choix}
    {o' : CThread} {f' : Fil} (hmove : s.fil.Mouvement s.objet 0 c o' f') :
    Muet p { s with objet := o', fils := [f'] } := by
  rcases hm with hout | ⟨hread, hdem, hexp, -⟩
  · exact .inl (hmove.horsBoucle hout)
  · have hpc : f'.pc ≠ .expire ∧ f'.pc ≠ .action := by
      cases hmove with
      | expire hpc hp =>
          rw [(h.pret_iff hpc).mpr hread] at hp
          cases hp
      | agit hpc => exact absurd hpc hexp
      | _ => simp [Fil.quitte]
    exact .inr ⟨hmove.lisibles hread, hmove.demarre hdem, hpc⟩

theorem UnFil.mouvement (h : UnFil p s) {c : Choix} {o' : CThread} {f' : Fil}
    (hm : s.fil.Mouvement s.objet 0 c o' f') :
    UnFil p { s with objet := o', fils := [f'] } := by
  obtain ⟨hclasse, hauto, hdetache⟩ := hm.constantes
  refine ⟨rfl, hclasse.trans h.classe, h.surveille.mouvement hm, hm.started h.classe h.started,
    hm.arret h.arret, ?_, fun hs => (h.silence hs).mouvement h.surveille hm⟩
  have hstop := h.stop
  show StopAcquis p _ s.appel
  cases ha : s.appel <;> rw [ha] at hstop
  case stopDrapeau | stopEcrit | stopJoint => exact fun havant => hm.demarre (hstop havant)
  case stopTeste =>
    intro havant
    obtain ⟨hdem, hmuet⟩ := hstop havant
    refine ⟨hm.demarre hdem, fun hlibre => Muet.mouvement h.surveille (hmuet ?_) hm⟩
    rw [← hauto, ← hdetache]
    exact hlibre
  case stopDetache => exact fun havant => (hstop havant).mouvement h.surveille hm
  case pipe | pthreadCreate => exact hstop
  case libre | demPose | demEcrit | demLibere => trivial

/-- `Stop` returns, having silenced the thread if it was called in time. -/
theorem UnFil.rendStop (h : UnFil p s) (hm : s.avant = true → Muet p s) :
    UnFil p s.rendStop := by
  refine ⟨h.unique, h.classe, h.surveille, h.started, h.arret, trivial, fun hs => ?_⟩
  rcases Bool.or_eq_true _ _ |>.mp hs with hs | havant
  · exact h.silence hs
  · exact hm havant

theorem horsBoucle_of_demarre {pc : Pc} (hd : pc.demarre = true) (hc : pc.enCorps = false) :
    pc.horsBoucle = true := by
  revert hd hc
  cases pc <;> decide

theorem UnFil.marque (h : UnFil p s) : s.marque = [{ s.fil with demande := true }] := by
  rw [Systeme.marque, h.unique]
  rfl

theorem Muet.ecrit (hm : Muet p s) (fils : List Fil) (appel : Appel)
    (hfils : (fils.headD (.cree 0)).pc = s.fil.pc) :
    Muet p { s with objet := s.objet.ecrit, fils := fils, appel := appel } := by
  have hpc : Systeme.fil { s with objet := s.objet.ecrit, fils := fils, appel := appel } =
      fils.headD (.cree 0) := rfl
  rw [Muet, hpc, hfils]
  exact hm.imp_right fun hm => ⟨List.mem_append_right _ hm.1, hm.2⟩

theorem UnFil.step (h : UnFil p s) (hseul : s.UnSeulStart e) (hordre : s.StopEnOrdre e)
    (hs : s.step e = some s') : UnFil p s' := by
  have hne : s.fils ≠ [] := by
    rw [h.unique]
    exact List.cons_ne_nil _ _
  have hmem : s.fil ∈ s.fils := by
    rw [h.unique]
    exact List.mem_singleton_self _
  have hstop := h.stop
  cases geste_of_step hs with
  | fil hk hm =>
      rw [h.unique] at hk ⊢
      obtain ⟨rfl, rfl⟩ := getElem?_seul hk
      exact h.mouvement hm
  | startVain | start => exact absurd hseul hne
  | create _ hc => exact absurd h.classe hc
  | pipe ha | sansPipe ha | pthreadCreate ha | sansFil ha =>
      rw [ha] at hstop
      exact hstop.elim
  | stopVain ha hb =>
      have hdem := hordre s.fil hmem
      refine UnFil.rendStop ⟨h.unique, h.classe, h.surveille, h.started, h.arret, ?_, h.silence⟩
        fun _ => .inl (horsBoucle_of_demarre hdem (h.started.symm.trans hb))
      show StopAcquis p _ s.appel
      rw [ha]
      trivial
  | stop ha hb =>
      exact ⟨h.unique, h.classe, h.surveille, h.started, h.arret, fun _ => hordre s.fil hmem,
        h.silence⟩
  | stopFini ha hf =>
      rw [ha] at hstop
      refine h.rendStop fun havant => .inl (horsBoucle_of_demarre (hstop havant) ?_)
      rw [← Bool.not_eq_true]
      intro hcorps
      exact h.arret (by simp [Pc.entreDrapeaux, hcorps]) hf
  | stopDrapeau ha =>
      rw [ha] at hstop
      exact ⟨h.unique, h.classe, h.surveille, h.started, h.arret, hstop, h.silence⟩
  | stopFerme ha hp =>
      refine h.rendStop fun _ => .inl (Pc.horsBoucle_of_termine ?_)
      by_contra hpc
      rw [h.surveille.iIdPipe_eq hpc] at hp
      cases hp
  | stopEcrit ha q hq =>
      rw [ha] at hstop
      rw [h.marque]
      refine ⟨rfl, h.classe, h.surveille, h.started, h.arret, fun havant => ⟨hstop havant, ?_⟩,
        fun hs => (h.silence hs).ecrit _ _ rfl⟩
      -- the thread has not reached its `select`, or it waits in it
      intro hlibre
      exact h.surveille.ecrit.imp_right fun hread =>
        ⟨hread, hstop havant, hordre ha havant hlibre s.fil hmem⟩
  | stopJoint ha hj =>
      rw [ha] at hstop
      exact ⟨h.unique, h.classe, h.surveille, h.started, h.arret,
        fun havant => (hstop havant).1, h.silence⟩
  | stopLibre ha hj =>
      rw [ha] at hstop
      refine ⟨h.unique, h.classe, h.surveille, h.started, h.arret,
        fun havant => (hstop havant).2 ?_, h.silence⟩
      rw [not_and_or] at hj
      simpa using hj
  | joint ha hj =>
      have hpc : s.fil.pc = .termine := by simpa [Systeme.joint, h.unique] using hj
      exact ⟨h.unique, h.classe, h.surveille, h.started, h.arret,
        fun _ => .inl (Pc.horsBoucle_of_termine hpc), h.silence⟩
  | stopDetache ha =>
      rw [ha] at hstop
      refine UnFil.rendStop ⟨h.unique, h.classe, h.surveille.congr rfl, h.started, h.arret, ?_,
        h.silence⟩ hstop
      show StopAcquis p _ s.appel
      rw [ha]
      exact hstop
  | demande ha hm =>
      exact ⟨h.unique, h.classe, h.surveille.congr rfl, h.started, h.arret, trivial, h.silence⟩
  | demPose ha =>
      rw [h.marque]
      exact ⟨rfl, h.classe, h.surveille, h.started, fun _ => Nat.succ_ne_self 1 |>.symm,
        trivial, h.silence⟩
  | demEcrit ha =>
      exact ⟨h.unique, h.classe, h.surveille.congr rfl, h.started, h.arret, trivial,
        fun hs => (h.silence hs).ecrit _ _ rfl⟩
  | demLibere ha =>
      exact ⟨h.unique, h.classe, h.surveille.congr rfl, h.started, h.arret, trivial, h.silence⟩

theorem SansFil.step (h : SansFil s) (hs : s.step e = some s') :
    SansFil s' ∨ ∃ p, UnFil p s' := by
  have happel := h.appel
  cases geste_of_step hs with
  | fil hk =>
      rw [h.fils] at hk
      cases hk
  | startVain => exact .inl h
  | start ha hb hu => exact .inl ⟨h.fils, h.classe, rfl, h.silence, .inr (.inl ⟨_, rfl⟩)⟩
  | create _ hc => exact absurd h.classe hc
  | pipe ha hp =>
      exact .inl ⟨h.fils, h.classe, h.started, h.silence, .inr (.inr (.inl ⟨_, _, rfl, rfl⟩))⟩
  | sansPipe ha => exact .inl ⟨h.fils, h.classe, h.started, h.silence, .inl rfl⟩
  | @pthreadCreate flag ha =>
      obtain ⟨p, hp⟩ : ∃ p, s.objet.iIdPipe = some p := by
        simp only [ha, reduceCtorEq, false_or, or_false, exists_false] at happel
        obtain ⟨-, p, -, hp⟩ := happel
        exact ⟨p, hp⟩
      refine .inr ⟨p, ?_⟩
      rw [h.fils, List.nil_append]
      exact ⟨rfl, h.classe, hp, h.started, fun hcon => absurd hcon Bool.false_ne_true, trivial,
        fun hsil => absurd (h.silence.symm.trans hsil) Bool.false_ne_true⟩
  | sansFil ha => exact .inl ⟨h.fils, h.classe, h.started, h.silence, .inl rfl⟩
  | stopVain ha hb =>
      refine .inl ⟨h.fils, h.classe, h.started, ?_, .inl rfl⟩
      simp [rendStop, avantAction, h.fils, h.silence]
  | stop ha hb =>
      rw [h.started] at hb
      cases hb
  | stopFini ha | stopDrapeau ha | stopFerme ha | stopEcrit ha | stopJoint ha | stopLibre ha
  | joint ha | stopDetache ha => simp [ha] at happel
  | demande ha hm =>
      exact .inl ⟨h.fils, h.classe, h.started, h.silence, .inr (.inr (.inr (.inl rfl)))⟩
  | demPose ha =>
      refine .inl ⟨?_, h.classe, h.started, h.silence, .inr (.inr (.inr (.inr (.inl rfl))))⟩
      simp [marque, h.fils]
  | demEcrit ha =>
      exact .inl ⟨h.fils, h.classe, h.started, h.silence, .inr (.inr (.inr (.inr (.inr rfl))))⟩
  | demLibere ha => exact .inl ⟨h.fils, h.classe, h.started, h.silence, .inl rfl⟩

theorem UnFil.silencieux (h : UnFil p s) (e : EvtThread) : s.Silencieux e := by
  cases e with
  | fil k c =>
      intro hs f hf
      rw [h.unique] at hf
      obtain ⟨rfl, rfl⟩ := getElem?_seul hf
      rcases h.silence hs with hout | ⟨-, -, -, hpc⟩
      · intro hpc
        rw [hpc] at hout
        cases hout
      · exact hpc
  | _ => trivial

/-- A timer is started once, and every `Stop` is in order: no callback begins after
the return of a `Stop` that was issued before the callback began. -/
theorem arret_silencieux (arret : ℕ) (auto detache : Bool) (es : List EvtThread) (s : Systeme)
    (h : Execution.exec step (neuf .cTimer arret auto detache) es = some s)
    (hseul : Execution.Meets step UnSeulStart (neuf .cTimer arret auto detache) es)
    (hordre : Execution.Meets step StopEnOrdre (neuf .cTimer arret auto detache) es) :
    Execution.Meets step Silencieux (neuf .cTimer arret auto detache) es := by
  refine Execution.meets_of_guarded (I := fun s => SansFil s ∨ ∃ p, UnFil p s) ?_ ?_
    (.inl (SansFil.neuf arret auto detache)) (hseul.and hordre) h
  · rintro s e s' (h | ⟨p, h⟩) ⟨hseul, hordre⟩ hs
    · exact h.step hs
    · exact .inr ⟨p, h.step hseul hordre hs⟩
  · rintro s e s' (h | ⟨p, h⟩) - -
    · cases e with
      | fil k c =>
          intro hs
          rw [h.silence] at hs
          cases hs
      | _ => trivial
    · exact h.silencieux e

/-- A joinable timer that is stopped while its thread waits in `select`. -/
theorem arret_silencieux_attente :
    Execution.Meets step Silencieux (neuf .cTimer 7 false false)
      [.start 50 timeOneshot, .pipe (some 3), .pthreadCreate true, .pas, .pas, .pas, .pas, .pas,
        .pas, .pas, .pas, .stop, .suite, .suite, .suite, .fil 0 .lisible, .pas, .pas, .pas, .pas,
        .pas, .pas, .pas, .suite, .suite] :=
  arret_silencieux 7 false false _ _ (Option.some_get (by decide)).symm (by decide) (by decide)

/-- A `Stop` issued as soon as `Start` has returned finds `m_bStarted` clear and
returns; the thread then runs, its `select` times out and the callback begins. -/
theorem rappel_apres_arret :
    Execution.Meets step UnSeulStart (neuf .cTimer 0 false false)
        [.start 50 timeOneshot, .pipe (some 3), .pthreadCreate true, .stop, .pas, .pas, .pas, .pas,
          .pas, .pas, .pas, .pas, .fil 0 .expire, .pas, .pas] ∧
      ¬ Execution.Meets step Silencieux (neuf .cTimer 0 false false)
        [.start 50 timeOneshot, .pipe (some 3), .pthreadCreate true, .stop, .pas, .pas, .pas, .pas,
          .pas, .pas, .pas, .pas, .fil 0 .expire, .pas, .pas] ∧
      (Execution.exec step (neuf .cTimer 0 false false)
        [.start 50 timeOneshot, .pipe (some 3), .pthreadCreate true, .stop, .pas, .pas, .pas, .pas,
          .pas, .pas, .pas, .pas, .fil 0 .expire, .pas, .pas]).map
            (fun s => (s.silence, s.fil.rappels)) = some (true, 1) := by
  decide

end GestAqua.Systeme
