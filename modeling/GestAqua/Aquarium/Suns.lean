import GestAqua.Aquarium.Machine
import GestAqua.Planning.Launch
import GestAqua.Planning.Schedule

/-!
Which suns there are.

A step of the main task starts profiles at new addresses or stops some, so a sun
belongs to one profile for as long as it lives. `Rattache` is what every run keeps of
this, and `seul_suit_garde` and `seul_suit_neuf` say what becomes of the sun of one
profile.
-/

namespace GestAqua

theorem nodup_lancementsDe (a : ℕ) (l : List DefPlanificationProfil) :
    ((lancementsDe a l).map (·.adresse)).Nodup := by
  induction l generalizing a with
  | nil => exact .nil
  | cons e l ih =>
      refine List.nodup_cons.mpr ⟨fun h => ?_, ih (a + 3)⟩
      obtain ⟨x, hx, hadr⟩ := List.mem_map.mp h
      have := adresse_le hx
      simp only at hadr
      omega

namespace CMainTask

variable {env : Env} {s : CMainTask}

theorem profils_planifieEntree (cree : ℕ → Bool) (off : ℤ) (s : CMainTask)
    (e : DefPlanificationProfil) : (s.planifieEntree env cree off e).profils = s.profils := by
  unfold planifieEntree
  split
  · rfl
  · split
    · show (s.remplaceLanceur e.ucNumeroPlanif).profils = _
      unfold remplaceLanceur
      split <;> rfl
    · split <;> rfl

theorem profils_testeJour (cree : ℕ → Bool) : (s.testeJour env cree).profils = s.profils := by
  unfold testeJour
  dsimp only
  split
  · exact Folds.foldl_invariant (I := fun r : CMainTask => r.profils = s.profils)
      (fun r e _ hr => (profils_planifieEntree cree _ r e).trans hr) rfl
  · rfl

variable (env) in
theorem profils_expire (t : TimerTache) :
    (∃ l, (s.expire env toujours t).profils = l ++ s.profils ∧
        (∀ i ∈ l, s.suivant ≤ i.adresse) ∧ (l.map (·.adresse)).Nodup) ∨
      ∃ f, (s.expire env toujours t).profils = s.profils.filter f := by
  show (∃ l, (s.rappelle env toujours t.timer.hObjetAttache).profils = l ++ s.profils ∧ _ ∧ _) ∨
    ∃ f, (s.rappelle env toujours t.timer.hObjetAttache).profils = s.profils.filter f
  have hrien : ∃ f, s.profils = s.profils.filter f :=
    ⟨fun _ => true, (List.filter_true _).symm⟩
  cases t.timer.hObjetAttache with
  | none => exact .inr hrien
  | some r =>
      cases r with
      | fctStartProfil q =>
          by_cases hq : q.ucNumeroPlanif = 0
          · refine .inr ?_
            show ∃ f, (s.iStartProfil env toujours q.ucNumeroPlanif).2.profils = _
            rw [iStartProfil, if_neg (not_not.mpr hq)]
            exact hrien
          · have hprofils : (s.iStartProfil env toujours q.ucNumeroPlanif).2.profils =
                (((lancements env q.ucNumeroPlanif s).filter
                  (Lancement.demarre toujours)).map Lancement.profil).reverse ++ s.profils := by
              rw [iStartProfil_foldl hq]
              exact (foldl_lanceProfil env toujours _ _).1
            refine .inl ⟨_, hprofils, fun i hi => ?_, ?_⟩
            · obtain ⟨x, hx, rfl⟩ := List.mem_map.mp (List.mem_reverse.mp hi)
              exact adresse_le (List.mem_filter.mp hx).1
            · rw [List.map_reverse, List.nodup_reverse, List.map_map]
              exact (nodup_lancementsDe _ _).sublist (List.filter_sublist.map Lancement.adresse)
      | fctStopProfil q =>
          refine .inr ?_
          show ∃ f, (s.iStopProfil q.ucNumeroProfil q.pProfil).2.profils = _
          unfold iStopProfil
          split
          · exact ⟨_, rfl⟩
          · exact hrien

end CMainTask

variable {inst : Installation} {t0 : ℤ} {m m' : Aquarium}

theorem Ideal.profils_step {env : Env} {r r' : Ideal} {ev : EvtIdeal}
    (hs : r.step env ev = some r') :
    (∃ l, r'.tache.profils = l ++ r.tache.profils ∧
        (∀ i ∈ l, r.tache.suivant ≤ i.adresse) ∧ (l.map (·.adresse)).Nodup) ∨
      ∃ f, r'.tache.profils = r.tache.profils.filter f := by
  rcases step_cases hs with ⟨-, -, rfl⟩ | ⟨t, -, -, -, -, rfl⟩ | ⟨-, -, -, rfl⟩
  · exact .inl ⟨[], CMainTask.profils_testeJour toujours, by simp, .nil⟩
  · exact CMainTask.profils_expire env t
  · exact .inl ⟨[], rfl, by simp, .nil⟩

theorem Ideal.suivant_le_of_neuf {env : Env} {r r' : Ideal} {ev : EvtIdeal}
    (hs : r.step env ev = some r') {i : CProfil} (hi : i ∈ r'.tache.profils)
    (hneuf : i ∉ r.tache.profils) : r.tache.suivant ≤ i.adresse := by
  rcases profils_step hs with ⟨l, hl, hadr, -⟩ | ⟨f, hf⟩
  · rw [hl] at hi
    exact hadr i ((List.mem_append.mp hi).resolve_right hneuf)
  · rw [hf] at hi
    exact absurd (List.mem_of_mem_filter hi) hneuf

namespace Eclairage

theorem allume_pProfil {now : ℤ} {i : CProfil} {x : Eclairage} (h : allume inst now i = some x) :
    x.pProfil = i.adresse := by
  obtain ⟨s, -, rfl⟩ := Option.map_eq_some_iff.mp h
  rfl

theorem filter_allume (now : ℤ) (a : ℕ) (l : List CProfil) :
    (l.filterMap (allume inst now)).filter (·.pProfil = a) =
      (l.filter (·.adresse = a)).filterMap (allume inst now) := by
  rw [List.filter_filterMap, List.filterMap_filter]
  refine List.filterMap_congr fun i _ => ?_
  cases h : allume inst now i with
  | none => simp
  | some x => by_cases ha : i.adresse = a <;> simp [allume_pProfil h, ha, Option.filter]

end Eclairage

namespace Aquarium

/-! ### Suns and profiles -/

/-- The running profiles have distinct addresses, and every sun belongs to one. -/
structure Rattache (m : Aquarium) : Prop where
  forme : BienForme m.ideal.tache
  distincts : (m.ideal.tache.profils.map (·.adresse)).Nodup
  profil : ∀ x ∈ m.soleils, ∃ i ∈ m.ideal.tache.profils, i.adresse = x.pProfil

theorem distincts_step (h : Rattache m) {ev : EvtIdeal} {r : Ideal}
    (hs : m.ideal.step inst.env ev = some r) : (r.tache.profils.map (·.adresse)).Nodup := by
  rcases Ideal.profils_step hs with ⟨l, hl, hadr, hnd⟩ | ⟨f, hf⟩
  · rw [hl, List.map_append, List.nodup_append]
    refine ⟨hnd, h.distincts, fun a ha b hb hab => ?_⟩
    obtain ⟨i, hi, rfl⟩ := List.mem_map.mp ha
    obtain ⟨j, hj, rfl⟩ := List.mem_map.mp hb
    have := hadr i hi
    have := h.forme.profil_lt j hj
    omega
  · rw [hf]
    exact h.distincts.sublist (List.filter_sublist.map _)

theorem mem_suit {s s' : CMainTask} {l : List Eclairage} {x : Eclairage} :
    x ∈ suit inst s s' l ↔
      (∃ i ∈ s'.profils, i ∉ s.profils ∧ Eclairage.allume inst s'.maintenant i = some x) ∨
        x ∈ l ∧ ∃ i ∈ s'.profils, i.adresse = x.pProfil := by
  simp [suit, and_assoc]

theorem Rattache.step (h : Rattache m) {e : EvtAquarium} (hm : Ideal.Atteint inst.env t0 m'.ideal)
    (hs : m.step inst e = some m') : Rattache m' := by
  rcases step_cases hs with ⟨ev, r, -, hr, -, rfl⟩ | ⟨a, -, rfl⟩
  · refine ⟨hm.forme, distincts_step h hr, fun x hx => ?_⟩
    rcases mem_suit.mp hx with ⟨i, hi, -, hal⟩ | ⟨-, hi⟩
    · exact ⟨i, hi, (Eclairage.allume_pProfil hal).symm⟩
    · exact hi
  · refine ⟨h.forme, h.distincts, fun x hx => ?_⟩
    obtain ⟨y, hy, rfl⟩ := List.mem_map.mp hx
    obtain ⟨i, hi, hadr⟩ := h.profil y hy
    refine ⟨i, hi, hadr.trans ?_⟩
    split <;> rfl

theorem seul_suit_garde (h : Rattache m) {ev : EvtIdeal} {r : Ideal}
    (hs : m.ideal.step inst.env ev = some r) {i : CProfil} (hi : i ∈ m.ideal.tache.profils)
    (hi' : i ∈ r.tache.profils) :
    (suit inst m.ideal.tache r.tache m.soleils).filter (·.pProfil = i.adresse) =
      m.soleils.filter (·.pProfil = i.adresse) := by
  have hneuf : ((r.tache.profils.filter (· ∉ m.ideal.tache.profils)).filter
      (·.adresse = i.adresse)) = [] := by
    refine List.filter_eq_nil_iff.mpr fun j hj => ?_
    obtain ⟨hj, hjn⟩ := List.mem_filter.mp hj
    have hne : j ≠ i := by
      rintro rfl
      simp [hi] at hjn
    simpa using fun hadr => hne (List.inj_on_of_nodup_map (distincts_step h hs) hj hi' hadr)
  rw [suit, List.filter_append, Eclairage.filter_allume, hneuf, List.filterMap_nil,
    List.nil_append, List.filter_filter]
  refine List.filter_congr fun x _ => ?_
  by_cases hx : x.pProfil = i.adresse
  · simpa [hx] using ⟨i, hi', rfl⟩
  · simp [hx]

/-- A profile that has just been started has the sun that its thread creates. -/
theorem seul_suit_neuf (h : Rattache m) {ev : EvtIdeal} {r : Ideal}
    (hs : m.ideal.step inst.env ev = some r) {i : CProfil} (hi : i ∉ m.ideal.tache.profils)
    (hi' : i ∈ r.tache.profils) :
    (suit inst m.ideal.tache r.tache m.soleils).filter (·.pProfil = i.adresse) =
      (Eclairage.allume inst r.tache.maintenant i).toList := by
  have hvieux : (m.soleils.filter fun x => r.tache.profils.any (·.adresse = x.pProfil)).filter
      (·.pProfil = i.adresse) = [] := by
    refine List.filter_eq_nil_iff.mpr fun x hx => ?_
    obtain ⟨j, hj, hadr⟩ := h.profil x (List.mem_of_mem_filter hx)
    have := h.forme.profil_lt j hj
    have := Ideal.suivant_le_of_neuf hs hi' hi
    simp only [decide_eq_true_eq]
    omega
  have hnd := (distincts_step h hs).sublist
    ((List.filter_sublist (p := (· ∉ m.ideal.tache.profils))).map (·.adresse))
  rw [suit, List.filter_append, Eclairage.filter_allume, hvieux, List.append_nil,
    Folds.filter_key hnd (List.mem_filter.mpr ⟨hi', by simpa using hi⟩)]
  cases h : Eclairage.allume inst r.tache.maintenant i <;> simp [h]

end Aquarium

end GestAqua
