import GestAqua.Base.Execution
import GestAqua.Base.Folds
import GestAqua.Source.Profil
import GestAqua.Source.ProfilInit

/-!
Whose parameters the sun of a profile gets.

`iInit` copies the last entry of the table with the number of the profile, and says
nothing when there is none: `stParam` is then what the memory held. Nobody reads
the result of `iInit`; the test of `ucValide` in `iStartProfil` decides alone. An
entry whose `ucValide` is zero is a profile without a sun.
-/

namespace GestAqua.TacheProfil

variable {n : UInt8} {table : List ParamProfil} {pMain : Option (List ParamProfil)}
  {stParam : ParamProfil} {iIdPipe : Option ℕ} {dX : ℚ}

/-- The entries of the table with the number. -/
def entrees (n : UInt8) (table : List ParamProfil) : List ParamProfil :=
  table.filter (·.ucNumeroProfil = n)

theorem mem_entrees {x : ParamProfil} :
    x ∈ entrees n table ↔ x ∈ table ∧ x.ucNumeroProfil = n := by
  simp [entrees]

/-! ### The constructor -/

theorem iInit_sans_numero (h : n = 0 ∨ pMain = none) (stParam : ParamProfil) :
    (neuf n pMain stParam).iInit = (-1, neuf n pMain stParam) := by
  rcases h with rfl | rfl
  · cases pMain <;> rfl
  · rfl

theorem iInit_numero (hn : n ≠ 0) (table : List ParamProfil) (stParam : ParamProfil) :
    (neuf n (some table) stParam).iInit =
      (0, neuf n (some table) ((entrees n table).getLast?.getD stParam)) := by
  rw [entrees, ← Folds.foldl_overwrite ParamProfil.ucNumeroProfil]
  exact if_pos hn

theorem construit_numero (hn : n ≠ 0) (table : List ParamProfil) (stParam : ParamProfil) :
    construit n (some table) stParam =
      neuf n (some table) ((entrees n table).getLast?.getD stParam) := by
  rw [construit, iInit_numero hn]

theorem pSoleil_entre (n : UInt8) (pMain : Option (List ParamProfil)) (stParam : ParamProfil) :
    ((neuf n pMain stParam).entre iIdPipe dX).pSoleil =
      if iIdPipe ≠ none ∧ stParam.stParamSoleil.ucValide ≠ 0 then
        some (.construit stParam.stParamSoleil dX)
      else none := by
  cases iIdPipe with
  | none => simp [entre, neuf]
  | some p =>
      by_cases hv : stParam.stParamSoleil.ucValide = 0 <;> simp [entre, neuf, iStartProfil, hv]

/-- The sun of a profile whose number is in the table is that of the last entry with
it, when this one is valid. -/
theorem pSoleil_entre_construit (hn : n ≠ 0) (stParam : ParamProfil) {x : ParamProfil}
    (hx : (entrees n table).getLast? = some x) :
    ((construit n (some table) stParam).entre iIdPipe dX).pSoleil =
      if iIdPipe ≠ none ∧ x.stParamSoleil.ucValide ≠ 0 then
        some (.construit x.stParamSoleil dX)
      else none := by
  rw [construit_numero hn, hx, Option.getD_some, pSoleil_entre]

theorem exists_derniere (h : ∃ x ∈ table, x.ucNumeroProfil = n) :
    ∃ x, (entrees n table).getLast? = some x ∧ x ∈ table ∧ x.ucNumeroProfil = n := by
  obtain ⟨y, hy, hyn⟩ := h
  have hne : entrees n table ≠ [] := List.ne_nil_of_mem (mem_entrees.mpr ⟨hy, hyn⟩)
  obtain ⟨hmem, hnum⟩ := mem_entrees.mp (List.getLast_mem hne)
  exact ⟨_, List.getLast?_eq_some_getLast hne, hmem, hnum⟩

/-! ### The sun and the table -/

def EntreeValide (n : UInt8) (pMain : Option (List ParamProfil)) (x : ParamProfil) : Prop :=
  ∃ table, pMain = some table ∧ x ∈ table ∧ x.ucNumeroProfil = n ∧
    x.stParamSoleil.ucValide ≠ 0

/-- The profile drives the light with its own parameters only: its sun has those of
a valid entry of its number, and without such an entry `iInit` reports an error and
there is no sun. -/
structure SoleilPropre (n : UInt8) (pMain : Option (List ParamProfil)) (stParam : ParamProfil)
    (iIdPipe : Option ℕ) (dX : ℚ) : Prop where
  parametres : ∀ s, ((construit n pMain stParam).entre iIdPipe dX).pSoleil = some s →
    ∃ x, EntreeValide n pMain x ∧ s.stParam = x.stParamSoleil
  erreur : (n = 0 ∨ ∀ x, ¬ EntreeValide n pMain x) →
    (neuf n pMain stParam).iInit.1 ≠ 0 ∧
      ((construit n pMain stParam).entre iIdPipe dX).pSoleil = none

theorem parametres_numero (hn : n ≠ 0) (hnum : ∃ x ∈ table, x.ucNumeroProfil = n) {s : CSoleil}
    (hs : ((construit n (some table) stParam).entre iIdPipe dX).pSoleil = some s) :
    ∃ x, EntreeValide n (some table) x ∧ s.stParam = x.stParamSoleil := by
  obtain ⟨x, hlast, hx, hxn⟩ := exists_derniere hnum
  rw [pSoleil_entre_construit hn stParam hlast] at hs
  split at hs
  · rename_i hv
    cases hs
    exact ⟨x, ⟨table, rfl, hx, hxn, hv.2⟩, rfl⟩
  · cases hs

/-- What `iInit` and the thread do for a profile whose number is in the table: no
error is reported, the sun has the parameters of a valid entry, and without a valid
entry there is no sun. Without a number or a main task, `iInit` reports an error. -/
theorem soleil_du_profil (n : UInt8) (pMain : Option (List ParamProfil)) (stParam : ParamProfil)
    (iIdPipe : Option ℕ) (dX : ℚ) :
    (n = 0 ∨ pMain = none → (neuf n pMain stParam).iInit.1 ≠ 0) ∧
      ∀ table, pMain = some table → n ≠ 0 → (∃ x ∈ table, x.ucNumeroProfil = n) →
        (neuf n pMain stParam).iInit.1 = 0 ∧
        (∀ s, ((construit n pMain stParam).entre iIdPipe dX).pSoleil = some s →
          ∃ x, EntreeValide n pMain x ∧ s.stParam = x.stParamSoleil) ∧
        ((∀ x, ¬ EntreeValide n pMain x) →
          ((construit n pMain stParam).entre iIdPipe dX).pSoleil = none) := by
  refine ⟨fun h => by simp [iInit_sans_numero h], ?_⟩
  rintro table rfl hn hnum
  refine ⟨by rw [iInit_numero hn], fun s hs => parametres_numero hn hnum hs, fun h => ?_⟩
  refine Option.eq_none_iff_forall_ne_some.mpr fun s hs => ?_
  obtain ⟨x, hx, -⟩ := parametres_numero hn hnum hs
  exact h x hx

/-- The first profile of the shipped table. -/
theorem soleil_du_profil_un :
    (neuf 1 (some sInitProfil) ⟨"", 0, .vide⟩).iInit.1 = 0 ∧
      ∀ s, ((construit 1 (some sInitProfil) ⟨"", 0, .vide⟩).entre (some 3) 0).pSoleil = some s →
        ∃ x, EntreeValide 1 (some sInitProfil) x ∧ s.stParam = x.stParamSoleil := by
  have h := (soleil_du_profil 1 (some sInitProfil) ⟨"", 0, .vide⟩ (some 3) 0).2 sInitProfil rfl
    (by decide) ⟨_, List.mem_cons_self, rfl⟩
  exact ⟨h.1, h.2.1⟩

/-- The second profile of the shipped table is one without a sun, and `iInit` reports
no error. A profile that is not in the table gets, without an error, the sun that
the memory held. -/
theorem soleil_sans_entree :
    ¬ SoleilPropre 2 (some sInitProfil) ⟨"", 0, .vide⟩ (some 3) 0 ∧
      ¬ SoleilPropre 3 (some sInitProfil) ⟨"", 0, { ParamSoleil.vide with ucValide := 7 }⟩
        (some 3) 0 := by
  have hvalide : ∀ n : UInt8, n ≠ 1 → ∀ x, ¬ EntreeValide n (some sInitProfil) x := by
    rintro n hn x ⟨table, htable, hx, hnum, hv⟩
    cases htable
    rcases List.mem_cons.mp hx with rfl | hx
    · exact hn hnum.symm
    · obtain rfl := List.mem_singleton.mp hx
      exact hv rfl
  constructor
  · intro h
    exact (h.erreur (.inr (hvalide 2 (by decide)))).1 rfl
  · intro h
    exact Option.some_ne_none _ (h.erreur (.inr (hvalide 3 (by decide)))).2

/-- The property as a whole holds exactly for a number with a valid entry, and, when
there is no number or no main task, for a thread that is not started or a memory
that is not valid. -/
theorem soleilPropre_iff :
    SoleilPropre n pMain stParam iIdPipe dX ↔
      (n ≠ 0 ∧ ∃ x, EntreeValide n pMain x) ∨
        ((n = 0 ∨ pMain = none) ∧ (iIdPipe = none ∨ stParam.stParamSoleil.ucValide = 0)) := by
  by_cases hsans : n = 0 ∨ pMain = none
  · have hrien : n = 0 ∨ ∀ x, ¬ EntreeValide n pMain x := by
      refine hsans.imp id fun hnone x hx => ?_
      obtain ⟨table, htable, -⟩ := hx
      cases hnone.symm.trans htable
    have hsoleil : ((construit n pMain stParam).entre iIdPipe dX).pSoleil = none ↔
        iIdPipe = none ∨ stParam.stParamSoleil.ucValide = 0 := by
      rw [construit, iInit_sans_numero hsans, pSoleil_entre]
      by_cases hp : iIdPipe = none <;> by_cases hv : stParam.stParamSoleil.ucValide = 0 <;>
        simp [hp, hv]
    constructor
    · intro h
      exact .inr ⟨hsans, hsoleil.mp (h.erreur hrien).2⟩
    · rintro (⟨hn, x, hx⟩ | ⟨-, hmem⟩)
      · exact absurd hx (hrien.resolve_left hn x)
      · refine ⟨fun s hs => ?_, fun _ => ⟨by simp [iInit_sans_numero hsans], hsoleil.mpr hmem⟩⟩
        cases (hsoleil.mpr hmem).symm.trans hs
  · obtain ⟨hn, hmain⟩ := not_or.mp hsans
    obtain ⟨table, rfl⟩ := Option.ne_none_iff_exists'.mp hmain
    constructor
    · intro h
      by_contra hcon
      have hrien : ∀ x, ¬ EntreeValide n (some table) x := fun x hx => hcon (.inl ⟨hn, x, hx⟩)
      exact (h.erreur (.inr hrien)).1 (by rw [iInit_numero hn])
    · rintro (⟨-, x, hx⟩ | ⟨hcon, -⟩)
      · have hnum : ∃ x ∈ table, x.ucNumeroProfil = n := by
          obtain ⟨table, htable, hmem, hxn, -⟩ := hx
          cases htable
          exact ⟨x, hmem, hxn⟩
        exact ⟨fun s hs => parametres_numero hn hnum hs,
          fun h => absurd hx (h.resolve_left hn x)⟩
      · exact absurd hcon hsans

/-! ### In the runs of the threads -/

/-- A profile has a sun only if it had one or its `ucValide` is set, which stays as it
is. -/
def SoleilValide (d d' : Montage) : Prop :=
  d'.ucValide = d.ucValide ∧ (d'.pSoleil = true → d.pSoleil = true ∨ d.ucValide = true)

theorem SoleilValide.refl (d : Montage) : SoleilValide d d := ⟨rfl, .inl⟩

theorem SoleilValide.trans {d d₁ d₂ : Montage} (h₁ : SoleilValide d d₁)
    (h₂ : SoleilValide d₁ d₂) : SoleilValide d d₂ := by
  refine ⟨h₂.1.trans h₁.1, fun hs => ?_⟩
  rcases h₂.2 hs with hs₁ | hv
  · exact h₁.2 hs₁
  · exact .inr (h₁.1 ▸ hv)

/-- The end of `CProfil::Thread` creates no sun. -/
theorem soleilValide_of_ferme {d d' : Montage} {phase : Demontage}
    (he : d.stadeProfil = .ferme phase) (h : d.suiteProfil = some d') : SoleilValide d d' := by
  unfold Montage.suiteProfil at h
  cases phase <;> simp only [he] at h
  case joint | teste | supprime =>
    cases h
    exact .refl d
  case libere =>
    cases h
    exact ⟨rfl, nofun⟩
  case ecrit =>
    split at h <;>
    · cases h
      exact .refl d
  case demande | drapeau | attend =>
    split at h
    · cases h
      exact .refl d
    · cases h

theorem soleilValide_of_suiteProfil {d d' : Montage} (h : d.suiteProfil = some d') :
    SoleilValide d d' := by
  cases he : d.stadeProfil with
  | ferme phase => exact soleilValide_of_ferme he h
  | avant =>
      simp only [Montage.suiteProfil, he] at h
      split at h
      · obtain ⟨s, -, rfl⟩ := Option.map_eq_some_iff.mp h
        exact .refl d
      · split at h
        · -- `iStartProfil` creates the sun
          rename_i hv
          obtain ⟨s, -, rfl⟩ := Option.map_eq_some_iff.mp h
          exact ⟨rfl, fun _ => .inr hv⟩
        · cases h
          exact .refl d
  | ouvre =>
      simp only [Montage.suiteProfil, he] at h
      split at h
      · cases h
        exact .refl d
      · cases h
  | cours =>
      simp only [Montage.suiteProfil, he] at h
      split at h
      · obtain ⟨s, -, rfl⟩ := Option.map_eq_some_iff.mp h
        exact .refl d
      · cases h
        exact .refl d
  | rendu =>
      simp only [Montage.suiteProfil, he] at h
      cases h

theorem soleilValide_of_suiteSoleil {d d' : Montage} (h : d.suiteSoleil = some d') :
    SoleilValide d d' := by
  unfold Montage.suiteSoleil at h
  split at h
  · split at h <;>
    · obtain ⟨s, -, rfl⟩ := Option.map_eq_some_iff.mp h
      exact .refl d
  · split at h
    · cases h
      exact .refl d
    · cases h
  · obtain ⟨s, -, rfl⟩ := Option.map_eq_some_iff.mp h
    exact .refl d
  · split at h
    · cases h
      exact .refl d
    · cases h
  · cases h

theorem soleilValide_of_step {d d' : Montage} {e : EvtMontage} (h : d.step e = some d') :
    SoleilValide d d' := by
  cases e with
  | demande | suiteDemande | pwm c =>
      obtain ⟨s, -, rfl⟩ := Option.map_eq_some_iff.mp h
      exact .refl d
  | profil c =>
      simp only [Montage.step] at h
      split at h
      · cases h
      · split at h
        · obtain ⟨s, -, rfl⟩ := Option.map_eq_some_iff.mp h
          exact .refl d
        · split at h
          · exact soleilValide_of_suiteProfil h
          · cases h
  | soleil c =>
      simp only [Montage.step] at h
      split at h
      · cases h
      · cases h
      · split at h
        · obtain ⟨s, -, rfl⟩ := Option.map_eq_some_iff.mp h
          exact .refl d
        · split at h
          · exact soleilValide_of_suiteSoleil h
          · cases h
  | gere usec =>
      simp only [Montage.step] at h
      split at h
      · obtain ⟨s, -, rfl⟩ := Option.map_eq_some_iff.mp h
        cases usec <;> exact .refl d
      · cases h
  | appelSoleil e | appelPwm e =>
      simp only [Montage.step] at h
      split at h
      · obtain ⟨s, -, rfl⟩ := Option.map_eq_some_iff.mp h
        exact .refl d
      · cases h

theorem soleilValide_of_exec {es : List EvtMontage} {d d' : Montage}
    (h : Execution.exec Montage.step d es = some d') : SoleilValide d d' :=
  Execution.exec_invariant (I := SoleilValide d)
    (fun _ _ _ h₁ hs => h₁.trans (soleilValide_of_step hs)) (.refl d) h

/-- In every run of the threads of a profile whose number is in the table, a sun that
exists has the parameters of a valid entry. -/
theorem soleil_des_fils (hn : n ≠ 0) (hnum : ∃ x ∈ table, x.ucNumeroProfil = n)
    (arretProfil arretSoleil arretPwm p usec : ℕ) {es : List EvtMontage} {d : Montage}
    (h : Execution.exec Montage.step (.lance arretProfil arretSoleil arretPwm p
      (decide ((construit n (some table) stParam).stParam.stParamSoleil.ucValide ≠ 0)) usec) es =
        some d) (hs : d.pSoleil = true) :
    ∃ x, EntreeValide n (some table) x ∧
      (construit n (some table) stParam).stParam.stParamSoleil = x.stParamSoleil := by
  have hv : (construit n (some table) stParam).stParam.stParamSoleil.ucValide ≠ 0 := by
    rcases (soleilValide_of_exec h).2 hs with hcon | hv
    · cases hcon
    · exact of_decide_eq_true hv
  obtain ⟨x, hlast, hx, hxn⟩ := exists_derniere hnum
  rw [construit_numero hn, hlast] at hv ⊢
  exact ⟨x, ⟨table, rfl, hx, hxn, hv⟩, rfl⟩

end GestAqua.TacheProfil
