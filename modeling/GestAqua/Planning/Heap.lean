import GestAqua.Source.MainTache

/-!
The timers of the main task, sorted by what they are armed for.

The registries of the source are keyed by plan and by profile, so the state is
read through one view per key: the armed launchers of a plan, the armed stop
timers of a profile and the running instances of a profile. This file computes
the effect of every operation on the views, and proves `BienForme`, the facts
about addresses that make the views of different keys independent.
-/

namespace GestAqua

/-- Every `pipe()` and `pthread_create()` succeeds. -/
def toujours : ℕ → Bool := fun _ => true

@[simp] theorem toujours_eq (a : ℕ) : toujours a = true := rfl

namespace TimerTache

/-- The timer is armed and will launch the plan. -/
def lanceurDe (ucNumeroPlanif : UInt8) (t : TimerTache) : Bool :=
  t.timer.bStarted && match t.timer.hObjetAttache with
    | some (.fctStartProfil pParam) => pParam.ucNumeroPlanif == ucNumeroPlanif
    | _ => false

/-- The timer is armed and will stop an instance of the profile. -/
def arretDe (ucNumeroProfil : UInt8) (t : TimerTache) : Bool :=
  t.timer.bStarted && match t.timer.hObjetAttache with
    | some (.fctStopProfil pParam) => pParam.ucNumeroProfil == ucNumeroProfil
    | _ => false

theorem lanceurDe_iff {n : UInt8} {t : TimerTache} :
    t.lanceurDe n = true ↔ t.timer.bStarted = true ∧
      ∃ pParam, t.timer.hObjetAttache = some (.fctStartProfil pParam) ∧
        pParam.ucNumeroPlanif = n := by
  unfold lanceurDe
  split <;> simp_all

theorem lanceurDe_iff_eq {t : TimerTache} (hst : t.timer.bStarted = true)
    {q : ParamCallbackStartProfil} (hq : t.timer.hObjetAttache = some (.fctStartProfil q))
    (n : UInt8) : t.lanceurDe n = true ↔ n = q.ucNumeroPlanif := by
  simp only [lanceurDe, hst, hq, Bool.true_and, beq_iff_eq]
  exact eq_comm

theorem arretDe_iff {p : UInt8} {t : TimerTache} :
    t.arretDe p = true ↔ t.timer.bStarted = true ∧
      ∃ pParam, t.timer.hObjetAttache = some (.fctStopProfil pParam) ∧
        pParam.ucNumeroProfil = p := by
  unfold arretDe
  split <;> simp_all

theorem lanceurDe_of_not_started {n : UInt8} {t : TimerTache} (h : t.timer.bStarted = false) :
    t.lanceurDe n = false := by
  simp [lanceurDe, h]

theorem arretDe_of_not_started {p : UInt8} {t : TimerTache} (h : t.timer.bStarted = false) :
    t.arretDe p = false := by
  simp [arretDe, h]

theorem lanceurDe_unique {m n : UInt8} {t : TimerTache} (hm : t.lanceurDe m = true)
    (hn : t.lanceurDe n = true) : m = n := by
  obtain ⟨-, p, hp, rfl⟩ := lanceurDe_iff.mp hm
  obtain ⟨-, q, hq, rfl⟩ := lanceurDe_iff.mp hn
  simp_all

theorem not_arretDe_of_lanceurDe {n p : UInt8} {t : TimerTache} (h : t.lanceurDe n = true) :
    t.arretDe p = false := by
  obtain ⟨-, q, hq, -⟩ := lanceurDe_iff.mp h
  simp [arretDe, hq]

/-- The timer armed by a `Start` that takes effect. -/
def arme (env : Env) (adresse : ℕ) (cAutoDelete : Bool) (maintenant : ℤ) (ui64Usec : ℕ)
    (hObjetAttache : Rappel) : TimerTache where
  adresse := adresse
  timer := ⟨true, ui64Usec, some hObjetAttache, timeOneshot⟩
  cAutoDelete := cAutoDelete
  echeance := maintenant + env.duree ui64Usec

theorem start_nouveau (env : Env) (a : ℕ) (auto : Bool) (now : ℤ) (usec : ℕ) (r : Rappel) :
    (nouveau a auto).start env true now usec r =
      if usec = 0 then nouveau a auto else arme env a auto now usec r := by
  by_cases h : usec = 0 <;> simp [start, nouveau, CTimer.start, CTimer.init, arme, h]

@[simp] theorem start_nouveau_adresse (env : Env) (a : ℕ) (auto : Bool) (now : ℤ) (usec : ℕ)
    (r : Rappel) : ((nouveau a auto).start env true now usec r).adresse = a := by
  rw [start_nouveau]
  split <;> rfl

theorem start_nouveau_attache {env : Env} {a : ℕ} {auto : Bool} {now : ℤ} {usec : ℕ}
    {r r' : Rappel}
    (h : ((nouveau a auto).start env true now usec r).timer.hObjetAttache = some r') :
    r' = r := by
  rw [start_nouveau] at h
  split at h
  · simp [nouveau, CTimer.init] at h
  · simpa [arme, eq_comm] using h

theorem start_nouveau_arme {env : Env} {a : ℕ} {auto : Bool} {now : ℤ} {usec : ℕ} {r : Rappel}
    (h : ((nouveau a auto).start env true now usec r).timer.bStarted = true) :
    ((nouveau a auto).start env true now usec r).timer.hObjetAttache ≠ none := by
  rw [start_nouveau] at h ⊢
  split at h
  · simp [nouveau, CTimer.init] at h
  · simp_all [arme]

/-! ### Ending the thread at an address -/

theorem stop_not_started {t t' : TimerTache} (h : t.stop = some t') :
    t'.timer.bStarted = false := by
  simp only [stop] at h
  split at h
  · simp_all
  · split at h <;> simp at h
    simp [← h]

theorem fini_not_started {t t' : TimerTache} (h : t.fini = some t') :
    t'.timer.bStarted = false := by
  simp only [fini] at h
  split at h <;> simp at h
  simp [← h]

theorem stop_cAutoDelete {t t' : TimerTache} (h : t.stop = some t') :
    t'.cAutoDelete = t.cAutoDelete := by
  simp only [stop] at h
  split at h
  · rw [Option.some.inj h]
  · split at h <;> simp at h
    simp [← h]

theorem fini_cAutoDelete {t t' : TimerTache} (h : t.fini = some t') :
    t'.cAutoDelete = t.cAutoDelete := by
  simp only [fini] at h
  split at h <;> simp at h
  simp [← h]

/-- What `stop` and `fini` may do to a timer: its address stays and it attaches
nothing new. -/
def Garde (f : TimerTache → Option TimerTache) : Prop :=
  ∀ t t', f t = some t' → t'.adresse = t.adresse ∧ t'.timer.bStarted = false ∧
    ∀ r, t'.timer.hObjetAttache = some r → t.timer.hObjetAttache = some r

theorem garde_stop : Garde stop := by
  intro t t' h
  refine ⟨?_, stop_not_started h, ?_⟩ <;>
  · simp only [stop] at h
    split at h
    · obtain rfl : t = t' := by simpa using h
      simp
    · split at h <;> simp at h
      simp [← h]

theorem garde_fini : Garde fini := by
  intro t t' h
  refine ⟨?_, fini_not_started h, ?_⟩ <;>
  · simp only [fini] at h
    split at h <;> simp at h
    simp [← h]

theorem mem_surAdresse {a : ℕ} {f : TimerTache → Option TimerTache} {l : List TimerTache}
    {t' : TimerTache} :
    t' ∈ surAdresse a f l ↔
      t' ∈ l ∧ t'.adresse ≠ a ∨ ∃ t ∈ l, t.adresse = a ∧ f t = some t' := by
  simp only [surAdresse, List.mem_filterMap]
  constructor
  · rintro ⟨t, ht, h⟩
    split at h
    · exact .inr ⟨t, ht, ‹_›, h⟩
    · obtain rfl : t = t' := by simpa using h
      exact .inl ⟨ht, ‹_›⟩
  · rintro (⟨ht, ha⟩ | ⟨t, ht, ha, h⟩)
    · exact ⟨t', ht, by simp [ha]⟩
    · exact ⟨t, ht, by simp [ha, h]⟩

/-- A view keeps the timers at the other addresses. -/
theorem filter_surAdresse {f : TimerTache → Option TimerTache} (hf : Garde f)
    {q : TimerTache → Bool} (hq : ∀ t : TimerTache, t.timer.bStarted = false → q t = false)
    (a : ℕ) (l : List TimerTache) :
    (surAdresse a f l).filter q = (l.filter q).filter (·.adresse ≠ a) := by
  induction l with
  | nil => rfl
  | cons t l ih =>
      rw [surAdresse, List.filterMap_cons]
      by_cases ha : t.adresse = a
      · have hhead : ((t :: l).filter q).filter (·.adresse ≠ a) =
            (l.filter q).filter (·.adresse ≠ a) := by
          by_cases hqt : q t = true <;> simp [hqt, ha]
        rw [hhead, ← ih, if_pos ha]
        cases h : f t with
        | none => rfl
        | some t' => simp [surAdresse, hq t' (hf t t' h).2.1]
      · rw [if_neg ha]
        have ih' := ih
        rw [surAdresse] at ih'
        by_cases hqt : q t = true <;> simp [hqt, ha, ih']

end TimerTache

namespace CMainTask

open TimerTache

def lanceurs (n : UInt8) (s : CMainTask) : List TimerTache := s.timers.filter (lanceurDe n)

def arrets (p : UInt8) (s : CMainTask) : List TimerTache := s.timers.filter (arretDe p)

def actifs (p : UInt8) (s : CMainTask) : List CProfil :=
  s.profils.filter (·.ucNumeroProfil = p)

theorem mem_lanceurs {n : UInt8} {s : CMainTask} {t : TimerTache} :
    t ∈ s.lanceurs n ↔ t ∈ s.timers ∧ t.lanceurDe n = true := List.mem_filter

theorem mem_arrets {p : UInt8} {s : CMainTask} {t : TimerTache} :
    t ∈ s.arrets p ↔ t ∈ s.timers ∧ t.arretDe p = true := List.mem_filter

theorem mem_actifs {p : UInt8} {s : CMainTask} {i : CProfil} :
    i ∈ s.actifs p ↔ i ∈ s.profils ∧ i.ucNumeroProfil = p := by
  simp [actifs, List.mem_filter]

@[simp] theorem lanceurs_stop (n : UInt8) (a : ℕ) (s : CMainTask) :
    (s.stop a).lanceurs n = (s.lanceurs n).filter (·.adresse ≠ a) :=
  filter_surAdresse garde_stop (fun _ => lanceurDe_of_not_started) a s.timers

@[simp] theorem arrets_stop (p : UInt8) (a : ℕ) (s : CMainTask) :
    (s.stop a).arrets p = (s.arrets p).filter (·.adresse ≠ a) :=
  filter_surAdresse garde_stop (fun _ => arretDe_of_not_started) a s.timers

@[simp] theorem lanceurs_finThread (n : UInt8) (a : ℕ) (s : CMainTask) :
    (s.finThread a).lanceurs n = (s.lanceurs n).filter (·.adresse ≠ a) :=
  filter_surAdresse garde_fini (fun _ => lanceurDe_of_not_started) a s.timers

@[simp] theorem arrets_finThread (p : UInt8) (a : ℕ) (s : CMainTask) :
    (s.finThread a).arrets p = (s.arrets p).filter (·.adresse ≠ a) :=
  filter_surAdresse garde_fini (fun _ => arretDe_of_not_started) a s.timers

end CMainTask

end GestAqua
