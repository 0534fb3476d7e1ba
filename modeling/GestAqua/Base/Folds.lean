import Mathlib.Data.List.Nodup
import Mathlib.Data.List.Perm.Subperm

/-!
Left folds over tables whose entries have distinct keys.

A loop that runs through a table and acts on one key is, for that key, the single
action on its entry: `foldl_select` when the other entries are skipped, and
`foldl_at` when they act but keep what is observed.
-/

namespace GestAqua.Folds

variable {σ α κ : Type*}

/-- A fold that acts only on the entries with one key acts once. -/
theorem foldl_select [DecidableEq κ] (key : α → κ) {g : σ → α → σ} {l : List α} {e : α}
    (hl : (l.map key).Nodup) (he : e ∈ l) (s : σ) :
    l.foldl (fun s x => if key x = key e then g s x else s) s = g s e := by
  have hskip : ∀ (l : List α) (s : σ), (∀ x ∈ l, key x ≠ key e) →
      l.foldl (fun s x => if key x = key e then g s x else s) s = s := by
    intro l
    induction l with
    | nil => exact fun s _ => rfl
    | cons x l ih =>
        intro s hx
        rw [List.foldl_cons, if_neg (hx x List.mem_cons_self)]
        exact ih s fun y hy => hx y (List.mem_cons_of_mem x hy)
  obtain ⟨l₁, l₂, rfl⟩ := List.append_of_mem he
  rw [List.map_append, List.map_cons, List.nodup_middle, List.nodup_cons] at hl
  rw [List.foldl_append, List.foldl_cons, hskip l₁ s, if_pos rfl, hskip l₂]
  · intro x hx h
    exact hl.1 (List.mem_append_right _ (h ▸ List.mem_map_of_mem hx))
  · intro x hx h
    exact hl.1 (List.mem_append_left _ (h ▸ List.mem_map_of_mem hx))

theorem foldl_select_none [DecidableEq κ] (key : α → κ) {g : σ → α → σ} {l : List α} {k : κ}
    (hl : ∀ x ∈ l, key x ≠ k) (s : σ) :
    l.foldl (fun s x => if key x = k then g s x else s) s = s := by
  induction l generalizing s with
  | nil => rfl
  | cons x l ih =>
      rw [List.foldl_cons, if_neg (hl x List.mem_cons_self)]
      exact ih (fun y hy => hl y (List.mem_cons_of_mem x hy)) s

theorem foldl_overwrite [DecidableEq κ] (key : α → κ) (k : κ) (l : List α) (s : α) :
    l.foldl (fun s x => if key x = k then x else s) s =
      (l.filter (key · = k)).getLast?.getD s := by
  induction l generalizing s with
  | nil => rfl
  | cons x l ih =>
      rw [List.foldl_cons, ih]
      by_cases hx : key x = k
      · rw [if_pos hx, List.filter_cons_of_pos (by simpa using hx), List.getLast?_cons]
        rfl
      · rw [if_neg hx, List.filter_cons_of_neg (by simpa using hx)]

/-- Among entries with distinct keys, those with the key of one of them are this one. -/
theorem filter_key [DecidableEq κ] {key : α → κ} {l : List α} (hl : (l.map key).Nodup) {e : α}
    (he : e ∈ l) : l.filter (key · = key e) = [e] := by
  obtain ⟨l₁, l₂, rfl⟩ := List.append_of_mem he
  rw [List.map_append, List.map_cons, List.nodup_middle, List.nodup_cons] at hl
  have hne : ∀ x ∈ l₁ ++ l₂, key x ≠ key e := fun x hx h =>
    hl.1 (by rw [← List.map_append, ← h]; exact List.mem_map_of_mem hx)
  have hnil : ∀ l' ⊆ l₁ ++ l₂, l'.filter (key · = key e) = [] := fun l' hl' =>
    List.filter_eq_nil_iff.mpr fun x hx => by simpa using hne x (hl' hx)
  rw [List.filter_append, List.filter_cons_of_pos (by simp),
    hnil l₁ (List.subset_append_left _ _), hnil l₂ (List.subset_append_right _ _), List.nil_append]

/-- A table in which a key takes `n` values has `n` entries at least. -/
theorem le_length_of_keys (key : α → κ) {f : ℕ → κ} (hf : Function.Injective f) {n : ℕ}
    {l : List α} (h : ∀ k < n, ∃ x ∈ l, key x = f k) : n ≤ l.length := by
  have hsub : (List.range n).map f ⊆ l.map key := by
    intro y hy
    obtain ⟨k, hk, rfl⟩ := List.mem_map.mp hy
    obtain ⟨x, hx, hkey⟩ := h k (List.mem_range.mp hk)
    exact hkey ▸ List.mem_map_of_mem hx
  simpa using ((List.nodup_range.map hf).subperm hsub).length_le

theorem countP_map_lt {p : α → Bool} {f : α → α} {l : List α}
    (hf : ∀ x ∈ l, p (f x) = true → p x = true) {x : α} (hx : x ∈ l) (hp : p x = true)
    (hfx : p (f x) = false) : (l.map f).countP p < l.countP p := by
  obtain ⟨l₁, l₂, rfl⟩ := List.append_of_mem hx
  have hle : ∀ l' ⊆ l₁ ++ x :: l₂, (l'.map f).countP p ≤ l'.countP p := fun l' hl' => by
    rw [List.countP_map]
    exact List.countP_mono_left fun y hy => hf y (hl' hy)
  have h₁ := hle l₁ (List.subset_append_left _ _)
  have h₂ := hle l₂ fun y hy => List.mem_append_right _ (List.mem_cons_of_mem _ hy)
  simp only [List.map_append, List.map_cons, List.countP_append,
    List.countP_cons_of_pos hp, List.countP_cons_of_neg (Bool.not_eq_true _ ▸ hfx)]
  omega

theorem foldl_invariant {I : σ → Prop} {f : σ → α → σ} {l : List α}
    (hf : ∀ s, ∀ x ∈ l, I s → I (f s x)) {s : σ} (hs : I s) : I (l.foldl f s) := by
  induction l generalizing s with
  | nil => exact hs
  | cons x l ih =>
      exact ih (fun s y hy => hf s y (List.mem_cons_of_mem x hy))
        (hf s x List.mem_cons_self hs)

/-- A measure that every step of a fold raises by one at most. -/
theorem foldl_le_add_length {μ : σ → ℕ} {f : σ → α → σ} {l : List α}
    (hf : ∀ s, ∀ x ∈ l, μ (f s x) ≤ μ s + 1) (s : σ) : μ (l.foldl f s) ≤ μ s + l.length := by
  induction l generalizing s with
  | nil => exact Nat.le_refl _
  | cons x l ih =>
      calc μ (l.foldl f (f s x))
          ≤ μ (f s x) + l.length := ih (fun s y hy => hf s y (List.mem_cons_of_mem x hy)) _
        _ ≤ μ s + 1 + l.length := Nat.add_le_add_right (hf s x List.mem_cons_self) _
        _ = μ s + (x :: l).length := by rw [List.length_cons, Nat.add_assoc, Nat.add_comm 1]

/-- When the entries of the other keys keep both `P` and `Q`, what the entry of
one key does to a state with `P` is what the whole fold does. -/
theorem foldl_at {key : α → κ} {f : σ → α → σ} {P Q : σ → Prop} {l : List α} {e : α}
    (hl : (l.map key).Nodup) (he : e ∈ l)
    (hP : ∀ s, ∀ x ∈ l, key x ≠ key e → P s → P (f s x))
    (hQ : ∀ s, ∀ x ∈ l, key x ≠ key e → Q s → Q (f s x))
    (hact : ∀ s, P s → Q (f s e)) {s : σ} (hs : P s) : Q (l.foldl f s) := by
  obtain ⟨l₁, l₂, rfl⟩ := List.append_of_mem he
  rw [List.map_append, List.map_cons, List.nodup_middle, List.nodup_cons] at hl
  rw [List.foldl_append, List.foldl_cons]
  refine foldl_invariant (fun s x hx => hQ s x (by simp [hx]) ?_) (hact _ ?_)
  · exact fun h => hl.1 (List.mem_append_right _ (h ▸ List.mem_map_of_mem hx))
  · refine foldl_invariant (fun s x hx => hP s x (by simp [hx]) ?_) hs
    exact fun h => hl.1 (List.mem_append_left _ (h ▸ List.mem_map_of_mem hx))

/-! ### Folds that register keys

Some entries of the table act, and each entry that acts registers its key. -/

section Fresh

variable (act ok : α → Prop) [DecidablePred act] (key : α → κ) (reg : σ → κ → Prop)

/-- The acting entries have distinct keys, none of them registered, and satisfy
`ok`. -/
def Fresh (l : List α) (s : σ) : Prop :=
  ((l.filter fun x => act x).map key).Nodup ∧ ∀ x ∈ l, act x → ok x ∧ ¬ reg s (key x)

instance Fresh.decidable [DecidableEq κ] [DecidablePred ok] [∀ s k, Decidable (reg s k)]
    (l : List α) (s : σ) : Decidable (Fresh act ok key reg l s) :=
  inferInstanceAs (Decidable (_ ∧ _))

/-- When the entries that act on a free key keep `I`, and the others break it for
good, the whole fold keeps `I` exactly on fresh entries. -/
theorem foldl_fresh {I B : σ → Prop} {f : σ → α → σ}
    (hskip : ∀ s x, ¬ act x → f s x = s)
    (hgood : ∀ s x, I s → act x → ok x → ¬ reg s (key x) →
      I (f s x) ∧ ∀ k, reg (f s x) k ↔ reg s k ∨ k = key x)
    (hbad : ∀ s x, I s → act x → ¬ (ok x ∧ ¬ reg s (key x)) → B (f s x))
    (hstay : ∀ s x, B s → B (f s x)) {l : List α} {s : σ} (hs : I s) :
    (Fresh act ok key reg l s → I (l.foldl f s)) ∧
      (¬ Fresh act ok key reg l s → B (l.foldl f s)) := by
  induction l generalizing s with
  | nil =>
      refine ⟨fun _ => hs, fun h => absurd ?_ h⟩
      simp [Fresh]
  | cons x l ih =>
      rw [List.foldl_cons]
      by_cases hx : act x
      · by_cases hkey : ok x ∧ ¬ reg s (key x)
        · obtain ⟨hI, hreg⟩ := hgood s x hs hx hkey.1 hkey.2
          have hiff : Fresh act ok key reg (x :: l) s ↔ Fresh act ok key reg l (f s x) := by
            have hmem : key x ∉ (l.filter fun y => act y).map key ↔
                ∀ y ∈ l, act y → key y ≠ key x := by
              simp only [List.mem_map, List.mem_filter, decide_eq_true_eq, not_exists, not_and,
                and_imp]
            simp only [Fresh, List.filter_cons, decide_eq_true hx, if_true, List.map_cons,
              List.nodup_cons, hmem, List.forall_mem_cons, hreg, not_or]
            constructor
            · rintro ⟨⟨hne, hnd⟩, -, hall⟩
              exact ⟨hnd, fun y hy ha => ⟨(hall y hy ha).1, (hall y hy ha).2, hne y hy ha⟩⟩
            · rintro ⟨hnd, hall⟩
              exact ⟨⟨fun y hy ha => (hall y hy ha).2.2, hnd⟩, fun _ => hkey,
                fun y hy ha => ⟨(hall y hy ha).1, (hall y hy ha).2.1⟩⟩
          rw [hiff]
          exact ih hI
        · refine ⟨fun h => absurd (h.2 x List.mem_cons_self hx) hkey, fun _ => ?_⟩
          exact foldl_invariant (fun s y _ => hstay s y) (hbad s x hs hx hkey)
      · have hiff : Fresh act ok key reg (x :: l) s ↔ Fresh act ok key reg l s := by
          simp [Fresh, hx]
        rw [hiff, hskip s x hx]
        exact ih hs

end Fresh

end GestAqua.Folds
