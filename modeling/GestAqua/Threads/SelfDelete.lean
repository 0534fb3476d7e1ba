import GestAqua.Source.Owner
import GestAqua.Threads.Handshake

/-!
The owner of an object that deletes itself.

`SetArretThread` makes its accesses under the mutex, which the thread takes once
more before it deletes the object: a request whose lock is taken before the thread
has released its own for the last time is over before the deletion. `Stop` leaves
the mutex before it writes to the pipe and goes on reading the object, so that the
thread it wakes may delete the object first. `EnOrdre` excludes that, and a request
that comes too late.
-/

namespace GestAqua

def Acces.enStop : Acces → Bool
  | .stopVerrou | .stopArret | .stopLibere _ | .stopPipe | .stopEcrit | .stopAuto | .stopDetach
  | .stopJoint | .stopObjet => true
  | _ => false

def Acces.enDemande : Acces → Bool
  | .demPose | .demPipe | .demEcrit | .demLibere => true
  | _ => false

def Acces.tient : Acces → Bool
  | .stopArret | .stopLibere _ => true
  | a => a.enDemande

def Pc.aLibere : Pc → Bool
  | .destruction | .termine => true
  | _ => false

namespace Duo

/-- The object still exists when the owner accesses it. -/
def AccesVivant (d : Duo) : EvtDuo → Prop
  | .acces => d.objet.detruit = false
  | _ => True

/-- A call begins before the thread has ended, `SetArretThread` takes the mutex
before the thread has released it for the last time, and the thread does not come
to the deletion while the owner is in `Stop`. -/
def EnOrdre (d : Duo) : EvtDuo → Prop
  | .acces => (d.acces = .stopStarted ∨ d.acces = .profilAuto → d.fil.pc ≠ .termine) ∧
      (d.acces = .demVerrou → d.fil.pc.aLibere = false)
  | .fil _ => d.fil.pc = .destruction → d.acces.enStop = false
  | _ => True

instance (d : Duo) : ∀ e, Decidable (d.AccesVivant e)
  | .acces => inferInstanceAs (Decidable (d.objet.detruit = false))
  | .stop | .demande | .stopProfil | .fil _ => isTrue trivial

instance (d : Duo) : ∀ e, Decidable (d.EnOrdre e)
  | .acces => inferInstanceAs (Decidable
      ((d.acces = .stopStarted ∨ d.acces = .profilAuto → d.fil.pc ≠ .termine) ∧
        (d.acces = .demVerrou → d.fil.pc.aLibere = false)))
  | .fil _ => inferInstanceAs (Decidable (d.fil.pc = .destruction → d.acces.enStop = false))
  | .stop | .demande | .stopProfil => isTrue trivial

/-! ### The invariant -/

/-- Who holds the mutex, at a point of the thread and one of the owner. -/
def titulaire (pc : Pc) (acces : Acces) : Option Titulaire :=
  if pc.enSection then some (.fil 0) else if acces.tient then some .proprietaire else none

/-- The mutex excludes the two sides, the deletion is the last step of the thread,
and it falls neither into a request nor into a `Stop`. -/
structure Garde (d : Duo) : Prop where
  auto : d.objet.cAutoDelete = true
  mutex : d.objet.mutex = titulaire d.fil.pc d.acces
  exclusif : d.fil.pc.enSection = true → d.acces.tient = false
  detruit : d.objet.detruit = true ↔ d.fil.pc = .termine
  demande : d.acces.enDemande = true → d.fil.pc.aLibere = false
  stop : d.acces.enStop = true → d.fil.pc ≠ .termine

variable {d d' : Duo} {e : EvtDuo}

theorem Garde.lance (classe : Classe) (arret : ℕ) (detache : Bool) (timer : CTimer Unit) (p : ℕ) :
    Garde (lance classe arret detache timer p) where
  auto := rfl
  mutex := rfl
  exclusif _ := rfl
  detruit := by simp [Duo.lance, CThread.construit, Fil.cree]
  demande h := nomatch h
  stop h := nomatch h

theorem titulaire_eq_none {pc : Pc} {acces : Acces} (h : titulaire pc acces = none) :
    pc.enSection = false ∧ acces.tient = false := by
  unfold titulaire at h
  split at h
  · cases h
  · split at h
    · cases h
    · simp_all

theorem titulaire_congr {pc pc' : Pc} (h : pc'.enSection = pc.enSection) (acces : Acces) :
    titulaire pc' acces = titulaire pc acces := by
  rw [titulaire, titulaire, h]

theorem mouvement_detruit {o o' : CThread} {k : ℕ} {f f' : Fil} {c : Choix}
    (h : f.Mouvement o k c o' f') (ha : o.cAutoDelete = true) :
    (f.pc = .destruction ∧ o'.detruit = true ∧ f'.pc = .termine) ∨
      (o'.detruit = o.detruit ∧ f.pc ≠ .termine ∧ f'.pc ≠ .termine) := by
  cases h with
  | detruit hpc => exact .inl ⟨hpc, rfl, rfl⟩
  | termine hpc ha' =>
      rw [ha] at ha'
      cases ha'
  | _ hpc => exact .inr ⟨rfl, by rw [hpc]; nofun, nofun⟩

theorem mouvement_aLibere {o o' : CThread} {k : ℕ} {f f' : Fil} {c : Choix}
    (h : f.Mouvement o k c o' f') (hf' : f'.pc.aLibere = true) :
    f.pc.aLibere = true ∨ f.pc.enSection = true := by
  cases h with
  | finLibere hpc | detruit hpc | termine hpc =>
      rw [hpc]
      simp [Pc.aLibere, Pc.enSection]
  | _ => cases hf'

theorem tient_of_enDemande {a : Acces} (h : a.enDemande = true) : a.tient = true := by
  cases a <;> first | rfl | cases h

/-! ### The steps -/

theorem Garde.fil (h : Garde d) (hord : d.fil.pc = .destruction → d.acces.enStop = false)
    {c : Choix} {o' : CThread} {f' : Fil} (hm : d.fil.Mouvement d.objet 0 c o' f') :
    Garde { d with objet := o', fil := f' } := by
  have hmut : o'.mutex = titulaire f'.pc d.acces ∧
      (f'.pc.enSection = true → d.acces.tient = false) := by
    rcases hm.mutex_cases with ⟨hnone, hsome, -, hin⟩ | ⟨hnone, hin, hout⟩ | ⟨hsame, heq⟩
    · rw [h.mutex] at hnone
      exact ⟨by rw [hsome, titulaire, if_pos hin], fun _ => (titulaire_eq_none hnone).2⟩
    · refine ⟨?_, fun hcon => absurd (hout.symm.trans hcon) Bool.false_ne_true⟩
      rw [hnone, titulaire, hout, h.exclusif hin]
      rfl
    · refine ⟨?_, fun hsec => h.exclusif (heq ▸ hsec)⟩
      rw [hsame, h.mutex, titulaire_congr heq]
  have hdet := mouvement_detruit hm h.auto
  refine ⟨hm.constantes.2.1.trans h.auto, hmut.1, hmut.2, ?_, ?_, ?_⟩
  · rcases hdet with ⟨-, hd, hpc⟩ | ⟨hd, hpc, hpc'⟩
    · simp [hd, hpc]
    · rw [hd, h.detruit]
      exact iff_of_false hpc hpc'
  · intro hdem
    rw [← Bool.not_eq_true]
    intro hlib
    -- the owner holds the mutex, so the thread is not inside `SetArretThread`
    rcases mouvement_aLibere hm hlib with hlib | hsec
    · exact absurd ((h.demande hdem).symm.trans hlib) Bool.false_ne_true
    · have htient := h.exclusif hsec
      rw [tient_of_enDemande hdem] at htient
      cases htient
  · intro hstop
    rcases hdet with ⟨hpc, -⟩ | ⟨-, -, hpc'⟩
    · rw [hord hpc] at hstop
      cases hstop
    · exact hpc'

/-- What an access of the owner does to the object and to the call in progress. -/
structure Touche (d d' : Duo) : Prop where
  fil : d'.fil = d.fil
  detruit : d'.objet.detruit = d.objet.detruit
  auto : d.objet.cAutoDelete = true → d'.objet.cAutoDelete = true
  mutex : (d.objet.mutex = none ∧ d'.objet.mutex = some .proprietaire ∧ d'.acces.tient = true) ∨
    (d'.objet.mutex = none ∧ d.acces.tient = true ∧ d'.acces.tient = false) ∨
    (d'.objet.mutex = d.objet.mutex ∧ d'.acces.tient = d.acces.tient)
  demande : d'.acces.enDemande = true → d.acces.enDemande = true ∨ d.acces = .demVerrou
  stop : d'.acces.enStop = true → d.acces.enStop = true ∨ d.acces = .stopStarted

theorem touche_of_suite (h : d.suite = some d') : Touche d d' := by
  cases ha : d.acces <;> simp only [suite, ha] at h
  case libre => cases h
  case stopVerrou | demVerrou =>
    split at h
    · cases h
      exact ⟨rfl, rfl, id, .inl ⟨‹_›, rfl, rfl⟩, by simp [Acces.enDemande, ha],
        by simp [Acces.enStop, ha]⟩
    · cases h
  case stopLibere cRet =>
    cases h
    refine ⟨rfl, rfl, id, .inr (.inl ⟨rfl, by rw [ha]; rfl, ?_⟩), ?_, fun _ => .inl ?_⟩
    · dsimp only
      split <;> rfl
    · dsimp only
      split <;> exact fun hcon => nomatch hcon
    · rw [ha]
      rfl
  case demLibere =>
    cases h
    exact ⟨rfl, rfl, id, .inr (.inl ⟨rfl, by rw [ha]; rfl, rfl⟩), fun hcon => (nomatch hcon),
      fun hcon => (nomatch hcon)⟩
  case profilAuto =>
    cases h
    exact ⟨rfl, rfl, fun _ => rfl, .inr (.inr ⟨rfl, by rw [ha]; rfl⟩), fun hcon => (nomatch hcon),
      fun hcon => (nomatch hcon)⟩
  case stopJoint =>
    split at h
    · cases h
      exact ⟨rfl, rfl, id, .inr (.inr ⟨rfl, by rw [ha]; rfl⟩), fun hcon => (nomatch hcon),
        fun _ => .inl (by rw [ha]; rfl)⟩
    · cases h
  case stopStarted | stopPipe =>
    split at h
    all_goals
      cases h
      exact ⟨rfl, rfl, id, .inr (.inr ⟨rfl, by rw [ha]; rfl⟩), fun hcon => (nomatch hcon),
        fun _ => by simp [ha, Acces.enStop]⟩
  case stopArret | stopEcrit | stopObjet =>
    cases h
    exact ⟨rfl, rfl, id, .inr (.inr ⟨rfl, by rw [ha]; rfl⟩), fun hcon => (nomatch hcon),
      fun _ => .inl (by rw [ha]; rfl)⟩
  case stopAuto | stopDetach =>
    cases h
    refine ⟨rfl, rfl, id, .inr (.inr ⟨rfl, ?_⟩), ?_, fun _ => .inl (by rw [ha]; rfl)⟩
    all_goals
      dsimp only
      rw [ha]
      split
    all_goals first | rfl | exact fun hcon => nomatch hcon
  case demPose | demEcrit =>
    cases h
    exact ⟨rfl, rfl, id, .inr (.inr ⟨rfl, by rw [ha]; rfl⟩), fun _ => .inl (by rw [ha]; rfl),
      fun hcon => (nomatch hcon)⟩
  case demPipe =>
    cases h
    refine ⟨rfl, rfl, id, .inr (.inr ⟨rfl, ?_⟩), fun _ => .inl (by rw [ha]; rfl), ?_⟩
    all_goals
      dsimp only
      rw [ha]
      split
    all_goals first | rfl | exact fun hcon => nomatch hcon

theorem Garde.touche (h : Garde d)
    (hpremier : d.acces = .stopStarted ∨ d.acces = .profilAuto → d.fil.pc ≠ .termine)
    (hverrou : d.acces = .demVerrou → d.fil.pc.aLibere = false) (ht : Touche d d') :
    Garde d' := by
  have hmut : d'.objet.mutex = titulaire d'.fil.pc d'.acces ∧
      (d'.fil.pc.enSection = true → d'.acces.tient = false) := by
    rw [ht.fil]
    rcases ht.mutex with ⟨hnone, hsome, hin⟩ | ⟨hnone, hin, hout⟩ | ⟨hsame, heq⟩
    · rw [h.mutex] at hnone
      obtain ⟨hsec, -⟩ := titulaire_eq_none hnone
      exact ⟨by simp [hsome, titulaire, hsec, hin], fun hcon => by simp [hsec] at hcon⟩
    · refine ⟨?_, fun _ => hout⟩
      have hsec : d.fil.pc.enSection = false := by
        rw [← Bool.not_eq_true]
        intro hsec
        rw [h.exclusif hsec] at hin
        cases hin
      simp [hnone, titulaire, hsec, hout]
    · refine ⟨?_, fun hsec => heq ▸ h.exclusif hsec⟩
      rw [hsame, h.mutex, titulaire, titulaire, heq]
  refine ⟨ht.auto h.auto, hmut.1, hmut.2, ?_, fun hdem => ?_, fun hstop => ?_⟩
  · rw [ht.detruit, ht.fil]
    exact h.detruit
  · rw [ht.fil]
    exact (ht.demande hdem).elim h.demande hverrou
  · rw [ht.fil]
    exact (ht.stop hstop).elim h.stop fun ha => hpremier (.inl ha)

theorem Garde.appelle (h : Garde d) (ha : d.acces = .libre) {acces : Acces}
    (htient : acces.tient = false) (hstop : acces.enStop = false) :
    Garde { d with acces := acces } := by
  refine ⟨h.auto, ?_, fun _ => htient, h.detruit, fun hdem => ?_, fun hcon => ?_⟩
  · have hmut := h.mutex
    rw [ha] at hmut
    rw [hmut, titulaire, titulaire, htient]
    rfl
  · rw [tient_of_enDemande hdem] at htient
    cases htient
  · rw [hstop] at hcon
    cases hcon

theorem Garde.step (h : Garde d) (hord : d.EnOrdre e) (hs : d.step e = some d') : Garde d' := by
  cases e <;> simp only [Duo.step] at hs
  case stop | stopProfil =>
    split at hs
    · rename_i ha
      cases hs
      exact h.appelle ha.1 rfl rfl
    · cases hs
  case demande =>
    split at hs
    · cases hs
      exact h.appelle ‹_› rfl rfl
    · cases hs
  case acces => exact h.touche hord.1 hord.2 (touche_of_suite hs)
  case fil c =>
    obtain ⟨⟨o', f'⟩, hr, rfl⟩ := Option.map_eq_some_iff.mp hs
    exact h.fil hord (Fil.mouvement_of_step hr)

/-- An access made in order finds the object. -/
theorem Garde.accesVivant (h : Garde d) (hord : d.EnOrdre e) (hs : d.step e = some d') :
    d.AccesVivant e := by
  cases e with
  | acces =>
      show d.objet.detruit = false
      rw [← Bool.not_eq_true, h.detruit]
      intro hpc
      obtain ⟨hpremier, hverrou⟩ := hord
      have hdem := h.demande
      have hstop := h.stop
      rw [hpc] at hpremier hverrou hdem hstop
      cases ha : d.acces <;> rw [ha] at hpremier hverrou hdem hstop
      case libre => simp [Duo.step, suite, ha] at hs
      case stopStarted => exact hpremier (.inl rfl) rfl
      case profilAuto => exact hpremier (.inr rfl) rfl
      case demVerrou => cases hverrou rfl
      case demPose | demPipe | demEcrit | demLibere => cases hdem rfl
      all_goals exact hstop rfl rfl
  | _ => trivial

/-- Every access that the owner makes to an object that deletes itself precedes the
deletion, in every run whose steps are in order. -/
theorem acces_avant_destruction (classe : Classe) (arret : ℕ) (detache : Bool)
    (timer : CTimer Unit) (p : ℕ) (es : List EvtDuo) (d : Duo)
    (h : Execution.exec step (lance classe arret detache timer p) es = some d)
    (hord : Execution.Meets step EnOrdre (lance classe arret detache timer p) es) :
    Execution.Meets step AccesVivant (lance classe arret detache timer p) es :=
  Execution.meets_of_guarded (I := Garde) (fun _ _ _ h hord hs => h.step hord hs)
    (fun _ _ _ h hord hs => h.accesVivant hord hs) (Garde.lance classe arret detache timer p)
    hord h

/-- A request of the owner, and a `Stop` that returns before the thread ends. -/
theorem acces_avant_destruction_arret :
    Execution.Meets step AccesVivant (lance .cTimer 7 false ⟨false, 50, some (), timeOneshot⟩ 3)
      [.fil .suite, .fil .suite, .fil .suite, .fil .suite, .fil .suite, .fil .suite, .fil .suite,
        .fil .suite, .stop, .acces, .acces, .acces, .acces, .acces, .acces, .fil .lisible,
        .fil .suite, .acces, .acces, .demande, .acces, .acces, .acces, .acces, .acces, .fil .suite,
        .fil .suite, .fil .suite, .fil .suite, .fil .suite, .fil .suite] :=
  acces_avant_destruction .cTimer 7 false _ 3 _ _ (Option.some_get (by decide)).symm (by decide)

/-- `Stop` writes to the pipe, the thread wakes, deletes the object, and `Stop` reads
`cAutoDelete`. -/
theorem acces_apres_destruction :
    ¬ Execution.Meets step AccesVivant (lance .cTimer 0 false ⟨false, 50, some (), timeOneshot⟩ 3)
      [.fil .suite, .fil .suite, .fil .suite, .fil .suite, .fil .suite, .fil .suite, .fil .suite,
        .fil .suite, .stop, .acces, .acces, .acces, .acces, .acces, .acces, .fil .lisible,
        .fil .suite, .fil .suite, .fil .suite, .fil .suite, .fil .suite, .fil .suite, .fil .suite,
        .acces] := by
  decide

/-! ### The condition is exact -/

theorem not_meets_acces (hd : d.objet.detruit = true) (es : List EvtDuo) :
    ¬ Execution.Meets step AccesVivant d (.acces :: es) := by
  intro hm
  have hvivant : d.objet.detruit = false := hm.1
  rw [hd] at hvivant
  cases hvivant

theorem suite_isSome_of_enStop (hstop : d.acces.enStop = true) (hpc : d.fil.pc = .termine)
    (hm : d.acces = .stopVerrou → d.objet.mutex = none) : d.suite.isSome = true := by
  cases ha : d.acces <;> rw [ha] at hstop
  case stopVerrou => simp [suite, ha, hm ha]
  case stopPipe =>
    simp only [suite, ha]
    split <;> rfl
  case stopJoint => simp [suite, ha, hpc]
  case libre | stopStarted | profilAuto | demVerrou | demPose | demPipe | demEcrit | demLibere =>
    cases hstop
  all_goals simp [suite, ha]

theorem step_destruction (ha : d.objet.cAutoDelete = true) (hpc : d.fil.pc = .destruction) :
    d.step (.fil .suite) = some { d with
      objet := { d.objet with detruit := true, iIdPipe := none }
      fil := { d.fil with pc := .termine } } := by
  simp [Duo.step, Fil.step, hpc, ha]

/-- A request whose lock is taken just before the deletion. -/
theorem demande_tardive (ha : d.objet.cAutoDelete = true) (hpc : d.fil.pc = .destruction)
    (hpose : d.acces = .demPose) :
    ∃ t, Execution.exec step d [.fil .suite, .acces] = some t ∧
      ¬ Execution.Meets step AccesVivant d [.fil .suite, .acces] := by
  have hfil := step_destruction ha hpc
  have hacces : ∃ t, Execution.exec step d [.fil .suite, .acces] = some t := by
    simp [Execution.exec, Duo.step, suite, Fil.step, ha, hpc, hpose]
  obtain ⟨t, ht⟩ := hacces
  refine ⟨t, ht, fun hm => ?_⟩
  exact not_meets_acces rfl [] ((Execution.meets_cons_of_step hfil).mp hm).2

/-- After a step out of order, the owner can be led to access the deleted object. -/
theorem Garde.hors_ordre (h : Garde d) (hs : d.step e = some d') (hord : ¬ d.EnOrdre e) :
    ∃ es t, Execution.exec Duo.step d (e :: es) = some t ∧
      ¬ Execution.Meets Duo.step AccesVivant d (e :: es) := by
  cases e with
  | stop | demande | stopProfil => exact absurd trivial hord
  | fil c =>
      simp only [EnOrdre, Classical.not_imp, Bool.not_eq_false] at hord
      obtain ⟨hpc, hstop⟩ := hord
      have hc : c = .suite := by
        cases c with
        | suite => rfl
        | _ => simp [Duo.step, Fil.step, hpc] at hs
      subst hc
      obtain rfl := Option.some.inj (step_destruction h.auto hpc ▸ hs)
      have hmutex : d.acces = .stopVerrou → d.objet.mutex = none := by
        intro ha
        rw [h.mutex, hpc, ha]
        rfl
      obtain ⟨t, ht⟩ := Option.isSome_iff_exists.mp (suite_isSome_of_enStop
        (d := { d with
          objet := { d.objet with detruit := true, iIdPipe := none }
          fil := { d.fil with pc := .termine } }) hstop rfl hmutex)
      refine ⟨[.acces], t, Execution.exec_cons_eq_some.mpr ⟨_, hs,
        Execution.exec_cons_eq_some.mpr ⟨t, ht, rfl⟩⟩, fun hm => ?_⟩
      exact not_meets_acces rfl [] ((Execution.meets_cons_of_step hs).mp hm).2
  | acces =>
      by_cases hpc : d.fil.pc = .termine
      · exact ⟨[], d', Execution.exec_cons_eq_some.mpr ⟨d', hs, rfl⟩,
          not_meets_acces (h.detruit.mpr hpc) []⟩
      · -- the lock of a request is taken just before the deletion
        have hverrou : d.acces = .demVerrou ∧ d.fil.pc.aLibere = true := by
          simpa [EnOrdre, hpc] using hord
        have hdes : d.fil.pc = .destruction := by
          cases hp : d.fil.pc <;> rw [hp] at hverrou hpc
          case termine => exact absurd rfl hpc
          all_goals cases hverrou.2
        have hpose : d'.acces = .demPose ∧ d'.fil = d.fil ∧
            d'.objet.cAutoDelete = d.objet.cAutoDelete := by
          simp only [Duo.step, suite, hverrou.1] at hs
          split at hs
          · cases hs
            exact ⟨rfl, rfl, rfl⟩
          · cases hs
        obtain ⟨t, ht, hnot⟩ := demande_tardive (hpose.2.2.trans h.auto)
          (hpose.2.1 ▸ hdes) hpose.1
        exact ⟨_, t, Execution.exec_cons_eq_some.mpr ⟨d', hs, ht⟩,
          fun hm => hnot ((Execution.meets_cons_of_step hs).mp hm).2⟩

end Duo

end GestAqua
