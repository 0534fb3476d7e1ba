import GestAqua.Base.Execution
import GestAqua.Base.SetClear
import GestAqua.Source.PwmGpio
import Mathlib.Tactic.IntervalCases

/-!
Modulations that share the registers.

Every modulation has its own thread, and no lock protects the registers. None is needed:
`gpio_output` and `GPIO_WRITE` never read a register, and the bits that they name belong
to one pin (`broches_ecrit`). Whatever the order in which the threads write, a pin is what
its own modulation has made it.
-/

namespace GestAqua

open SetClear

/-- The register block at `GPIO_BASE`. Each bank has a word of levels and a word of
directions, and for each of them a register that sets bits and one that clears them. -/
structure Pinctrl (σ : Type*) where
  bancs : ℕ
  ecrit : σ → Ecriture → σ
  dout : σ → Words
  doe : σ → Words
  dout_set : ∀ s b m, b < bancs →
    dout (ecrit s ⟨0x141 + 4 * b, m⟩) = (Command.set b m).apply (dout s) ∧
      doe (ecrit s ⟨0x141 + 4 * b, m⟩) = doe s
  dout_clear : ∀ s b m, b < bancs →
    dout (ecrit s ⟨0x142 + 4 * b, m⟩) = (Command.clear b m).apply (dout s) ∧
      doe (ecrit s ⟨0x142 + 4 * b, m⟩) = doe s
  doe_set : ∀ s b m, b < bancs →
    doe (ecrit s ⟨0x1C1 + 4 * b, m⟩) = (Command.set b m).apply (doe s) ∧
      dout (ecrit s ⟨0x1C1 + 4 * b, m⟩) = dout s
  doe_clear : ∀ s b m, b < bancs →
    doe (ecrit s ⟨0x1C2 + 4 * b, m⟩) = (Command.clear b m).apply (doe s) ∧
      dout (ecrit s ⟨0x1C2 + 4 * b, m⟩) = dout s

/-- Three banks, with the levels and the directions as their only state. -/
def Pinctrl.troisBancs : Pinctrl (Words × Words) where
  bancs := 3
  ecrit s e :=
    let b := e.registre % 0x40 / 4
    match e.registre / 0x40, e.registre % 4 with
    | 5, 1 => ((Command.set b e.mot).apply s.1, s.2)
    | 5, 2 => ((Command.clear b e.mot).apply s.1, s.2)
    | 7, 1 => (s.1, (Command.set b e.mot).apply s.2)
    | 7, 2 => (s.1, (Command.clear b e.mot).apply s.2)
    | _, _ => s
  dout s := s.1
  doe s := s.2
  dout_set s b m hb := by interval_cases b <;> simp
  dout_clear s b m hb := by interval_cases b <;> simp
  doe_set s b m hb := by interval_cases b <;> simp
  doe_clear s b m hb := by interval_cases b <;> simp

structure Broche where
  sortie : Bool
  niveau : Bool
  deriving DecidableEq, Repr

inductive AppelGpio
  | output (x : UInt8)
  | input (x : UInt8)
  | write (x : UInt8) (value : UInt8)
  deriving DecidableEq, Repr

namespace AppelGpio

def broche : AppelGpio → UInt8
  | output x | input x | write x _ => x

/-- The assignment that the call makes. -/
def ecriture : AppelGpio → Ecriture
  | output x => gpioOutput (gBank x) (gPin x)
  | input x => gpioInput (gBank x) (gPin x)
  | write x value => gpioWrite (gBank x) (gPin x) value

/-- What the call is for. -/
def effet : AppelGpio → Broche → Broche
  | output _, b => { b with sortie := true }
  | input _, b => { b with sortie := false }
  | write _ value, b => { b with niveau := decide (value ≠ 0) }

end AppelGpio

theorem pin_unique {x y : UInt8} : gBank x = gBank y ∧ gPin x = gPin y ↔ x = y := by
  refine ⟨fun ⟨hb, hp⟩ => UInt8.toNat_inj.mp ?_, fun h => h ▸ ⟨rfl, rfl⟩⟩
  have hmod : ∀ n : ℕ, n &&& 0x1f = n % 32 := fun n => Nat.and_two_pow_sub_one_eq_mod n 5
  simp only [gBank, gPin, Nat.shiftRight_eq_div_pow, hmod] at hb hp
  omega

namespace Pinctrl

variable {σ : Type*} (c : Pinctrl σ)

def broches (s : σ) (x : UInt8) : Broche where
  sortie := (c.doe s (gBank x)).testBit (gPin x)
  niveau := (c.dout s (gBank x)).testBit (gPin x)

def appel (f : UInt8 → Broche) (a : AppelGpio) : UInt8 → Broche :=
  Function.update f a.broche (a.effet (f a.broche))

variable {c} {s : σ}

theorem ecrit_write {x : UInt8} (h : gBank x < c.bancs) (value : UInt8) :
    c.dout (c.ecrit s (gpioWrite (gBank x) (gPin x) value)) =
        (Command.bit (gBank x) (gPin x) (decide (value ≠ 0))).apply (c.dout s) ∧
      c.doe (c.ecrit s (gpioWrite (gBank x) (gPin x) value)) = c.doe s := by
  have hreg : ∀ r, 0x140 + gBank x <<< 2 + r = 0x140 + r + 4 * gBank x := by
    intro r
    rw [Nat.shiftLeft_eq]
    omega
  by_cases hv : value = 0
  · subst hv
    simpa [gpioWrite, hreg, Command.bit] using c.dout_clear s (gBank x) (1 <<< gPin x) h
  · simpa [gpioWrite, hreg, Command.bit, hv] using c.dout_set s (gBank x) (1 <<< gPin x) h

/-- A call changes its own pin, as it is meant to, and no other. -/
theorem broches_ecrit {a : AppelGpio} (h : gBank a.broche < c.bancs) :
    c.broches (c.ecrit s a.ecriture) = appel (c.broches s) a := by
  have hbit : ∀ (w : Words) (x y : UInt8) (v : Bool),
      ((Command.bit (gBank x) (gPin x) v).apply w (gBank y)).testBit (gPin y) =
        if y = x then v else (w (gBank y)).testBit (gPin y) := by
    intro w x y v
    rw [Command.testBit_apply_bit]
    simp only [pin_unique]
  funext y
  cases a with
  | output x =>
      obtain ⟨hdoe, hdout⟩ := c.doe_set s (gBank x) (1 <<< gPin x) h
      rw [Nat.mul_comm] at hdoe hdout
      have hb := hbit (c.doe s) x y true
      rw [Command.bit, if_pos rfl] at hb
      simp only [broches, AppelGpio.ecriture, gpioOutput, hdoe, hdout, hb, appel, AppelGpio.broche,
        AppelGpio.effet, Function.update_apply]
      split <;> simp_all
  | input x =>
      obtain ⟨hdoe, hdout⟩ := c.doe_clear s (gBank x) (1 <<< gPin x) h
      rw [Nat.mul_comm] at hdoe hdout
      have hb := hbit (c.doe s) x y false
      rw [Command.bit, if_neg (by decide)] at hb
      simp only [broches, AppelGpio.ecriture, gpioInput, hdoe, hdout, hb, appel, AppelGpio.broche,
        AppelGpio.effet, Function.update_apply]
      split <;> simp_all
  | write x value =>
      obtain ⟨hdout, hdoe⟩ := ecrit_write (s := s) h value
      simp only [broches, AppelGpio.ecriture, AppelGpio.broche] at hdout hdoe ⊢
      simp only [hdout, hdoe, hbit, appel, AppelGpio.broche, AppelGpio.effet, Function.update_apply,
        broches]
      split <;> simp_all

/-- Any calls for any pins, one after the other. -/
theorem appels_raffinent (c : Pinctrl σ) (s : σ) (l : List AppelGpio)
    (hl : ∀ a ∈ l, gBank a.broche < c.bancs) :
    c.broches (l.foldl (fun s a => c.ecrit s a.ecriture) s) = l.foldl appel (c.broches s) := by
  induction l generalizing s with
  | nil => rfl
  | cons a l ih =>
      rw [List.foldl_cons, List.foldl_cons, ← broches_ecrit (hl a List.mem_cons_self)]
      exact ih _ fun b hb => hl b (List.mem_cons_of_mem a hb)

/-- The pin 16 as an output that is switched on and off, with the pin 17 beside it. -/
theorem appels_raffinent_deux_broches :
    let l : List AppelGpio := [.output 16, .write 16 1, .input 17, .write 17 1, .write 16 0]
    troisBancs.broches (l.foldl (fun s a => troisBancs.ecrit s a.ecriture)
      (fun _ => 0, fun _ => 0)) 17 = ⟨false, true⟩ :=
  (congrFun (appels_raffinent troisBancs (fun _ => 0, fun _ => 0)
    [.output 16, .write 16 1, .input 17, .write 17 1, .write 16 0] (by decide)) 17).trans
    (by decide)

/-- A pin after calls for it depends on what it was only. -/
theorem foldl_appel_congr {x : UInt8} {l : List AppelGpio} (hl : ∀ a ∈ l, a.broche = x)
    {f g : UInt8 → Broche} (h : f x = g x) : l.foldl appel f x = l.foldl appel g x := by
  induction l generalizing f g with
  | nil => exact h
  | cons a l ih =>
      have ha : a.broche = x := hl a List.mem_cons_self
      refine ih (fun a ha => hl a (List.mem_cons_of_mem _ ha)) ?_
      simp only [appel, ha, Function.update_self, h]

end Pinctrl

/-! ### The threads of the modulations -/

/-- Modulations, with the assignments to the registers that the thread of each has still
to make. An object is `none` before its constructor. -/
structure Partage (ι σ : Type*) where
  objets : ι → Option CPwmGpio
  restant : ι → List Ecriture
  bloc : σ

/-- `ecrit` is one assignment of a thread to a register. -/
inductive EvtPartage (ι : Type*)
  | init (i : ι) (uiFreq : ℕ) (dRapport : ℚ)
  | regle (i : ι) (dRapport : ℚ)
  | rappel (i : ι)
  | ecrit (i : ι)

namespace Partage

variable {ι σ : Type*} [DecidableEq ι]

def depart (bloc : σ) : Partage ι σ where
  objets _ := none
  restant _ := []
  bloc := bloc

def change (m : Partage ι σ) (i : ι) (r : CPwmGpio × List Ecriture) : Partage ι σ :=
  { m with
    objets := Function.update m.objets i (some r.1)
    restant := Function.update m.restant i r.2 }

/-- `gpio i` is the pin that the constructor of the modulation is given. -/
def step (c : Pinctrl σ) (gpio : ι → UInt8) (m : Partage ι σ) :
    EvtPartage ι → Option (Partage ι σ)
  | .init i uiFreq dRapport =>
    if m.restant i = [] then
      some (m.change i (((m.objets i).getD .vide).iInit (gpio i) uiFreq dRapport))
    else none
  | .regle i dRapport =>
    (m.objets i).map fun p => m.change i (p.setRapportCyclique dRapport, m.restant i)
  | .rappel i =>
    if m.restant i = [] then
      (m.objets i).map fun p => m.change i (p.callbackTimerPwmGpio (some ()))
    else none
  | .ecrit i =>
    match m.restant i with
    | [] => none
    | w :: ws => some { m with
        restant := Function.update m.restant i ws
        bloc := c.ecrit m.bloc w }

variable {c : Pinctrl σ} {gpio : ι → UInt8} {b0 : σ} {m m' : Partage ι σ}

/-- The pin of a modulation, as it will be when the assignments `restant` are made: an
output whose level is `ucEtat`. -/
def Tient (x : UInt8) (f : UInt8 → Broche) (objet : Option CPwmGpio)
    (restant : List Ecriture) : Prop :=
  ∃ l : List AppelGpio, restant = l.map AppelGpio.ecriture ∧ (∀ a ∈ l, a.broche = x) ∧
    ∀ p, objet = some p → p.ucGpio = x ∧
      l.foldl Pinctrl.appel f x = ⟨true, decide (p.ucEtat ≠ 0)⟩

structure EnOrdre (c : Pinctrl σ) (gpio : ι → UInt8) (b0 : σ) (m : Partage ι σ) : Prop where
  tient : ∀ i, Tient (gpio i) (c.broches m.bloc) (m.objets i) (m.restant i)
  autres : ∀ x, (∀ i, gpio i ≠ x) → c.broches m.bloc x = c.broches b0 x

theorem EnOrdre.change (h : EnOrdre c gpio b0 m) {i : ι} {r : CPwmGpio × List Ecriture}
    (hr : Tient (gpio i) (c.broches m.bloc) (some r.1) r.2) :
    EnOrdre c gpio b0 (m.change i r) := by
  refine ⟨fun j => ?_, h.autres⟩
  by_cases hj : j = i
  · subst hj
    simpa [Partage.change] using hr
  · simpa [Partage.change, hj] using h.tient j

theorem tient_iInit (f : UInt8 → Broche) (p : CPwmGpio) (x : UInt8) (uiFreq : ℕ)
    (dRapport : ℚ) : Tient x f (some (p.iInit x uiFreq dRapport).1)
      (p.iInit x uiFreq dRapport).2 := by
  refine ⟨[.output x, .write x 0], rfl, by simp [AppelGpio.broche], ?_⟩
  rintro q hq
  obtain rfl := Option.some.inj hq
  refine ⟨rfl, ?_⟩
  simp [Pinctrl.appel, AppelGpio.broche, AppelGpio.effet, CPwmGpio.iInit]

theorem Tient.regle {x : UInt8} {f : UInt8 → Broche} {p : CPwmGpio} {ws : List Ecriture}
    (h : Tient x f (some p) ws) (dRapport : ℚ) :
    Tient x f (some (p.setRapportCyclique dRapport)) ws := by
  obtain ⟨l, hl, hx, hp⟩ := h
  obtain ⟨hgpio, hetat⟩ := hp p rfl
  refine ⟨l, hl, hx, fun q hq => ?_⟩
  obtain rfl := Option.some.inj hq
  exact ⟨hgpio, hetat⟩

theorem Tient.rappel {x : UInt8} {f : UInt8 → Broche} {p : CPwmGpio}
    (h : Tient x f (some p) []) :
    Tient x f (some (p.callbackTimerPwmGpio (some ())).1)
      (p.callbackTimerPwmGpio (some ())).2 := by
  obtain ⟨l, hl, -, hp⟩ := h
  obtain rfl : l = [] := by simpa using hl.symm
  obtain ⟨rfl, hetat⟩ := hp p rfl
  refine ⟨[.write p.ucGpio p.gestionPwm.1.ucEtat], rfl, by simp [AppelGpio.broche], ?_⟩
  rintro q hq
  obtain rfl := Option.some.inj hq
  have hsortie : f p.ucGpio = ⟨true, decide (p.ucEtat ≠ 0)⟩ := hetat
  refine ⟨rfl, ?_⟩
  simp only [List.foldl_cons, List.foldl_nil, Pinctrl.appel, AppelGpio.broche, AppelGpio.effet,
    Function.update_self, hsortie, CPwmGpio.callbackTimerPwmGpio]
  rfl

theorem EnOrdre.ecrit (hinj : Function.Injective gpio) (hbanc : ∀ i, gBank (gpio i) < c.bancs)
    (h : EnOrdre c gpio b0 m) {i : ι} {w : Ecriture} {ws : List Ecriture}
    (hw : m.restant i = w :: ws) :
    EnOrdre c gpio b0 { m with
      restant := Function.update m.restant i ws
      bloc := c.ecrit m.bloc w } := by
  obtain ⟨l, hl, hx, hp⟩ := h.tient i
  rw [hw] at hl
  obtain ⟨a, l, rfl, rfl, rfl⟩ := List.map_eq_cons_iff.mp hl.symm
  have ha : a.broche = gpio i := hx a List.mem_cons_self
  have hbroches : c.broches (c.ecrit m.bloc a.ecriture) = Pinctrl.appel (c.broches m.bloc) a :=
    Pinctrl.broches_ecrit (by rw [ha]; exact hbanc i)
  have hreste : ∀ x, x ≠ gpio i → c.broches (c.ecrit m.bloc a.ecriture) x =
      c.broches m.bloc x := by
    intro x hxi
    rw [hbroches, Pinctrl.appel, ha, Function.update_of_ne hxi]
  refine ⟨fun j => ?_, fun x hno => (hreste x (hno i).symm).trans (h.autres x hno)⟩
  by_cases hj : j = i
  · subst hj
    refine ⟨l, by simp, fun b hb => hx b (List.mem_cons_of_mem a hb), fun p hpj => ?_⟩
    rw [hbroches]
    exact hp p hpj
  · obtain ⟨lj, hlj, hxj, hpj⟩ := h.tient j
    refine ⟨lj, by simpa [hj] using hlj, hxj, fun p hp => ?_⟩
    obtain ⟨hgpio, hetat⟩ := hpj p hp
    have hne : gpio j ≠ gpio i := fun heq => hj (hinj heq)
    exact ⟨hgpio, (Pinctrl.foldl_appel_congr hxj (hreste _ hne)).trans hetat⟩

theorem EnOrdre.step (hinj : Function.Injective gpio)
    (hbanc : ∀ i, gBank (gpio i) < c.bancs) (h : EnOrdre c gpio b0 m) {e : EvtPartage ι}
    (hs : m.step c gpio e = some m') : EnOrdre c gpio b0 m' := by
  cases e with
  | init i uiFreq dRapport =>
      simp only [Partage.step] at hs
      split at hs
      · cases hs
        exact h.change (tient_iInit _ _ _ _ _)
      · cases hs
  | regle i dRapport =>
      obtain ⟨p, hp, rfl⟩ := Option.map_eq_some_iff.mp hs
      exact h.change ((hp ▸ h.tient i).regle dRapport)
  | rappel i =>
      simp only [Partage.step] at hs
      split at hs
      · rename_i hvide
        obtain ⟨p, hp, rfl⟩ := Option.map_eq_some_iff.mp hs
        have hi := h.tient i
        rw [hp, hvide] at hi
        exact h.change hi.rappel
      · cases hs
  | ecrit i =>
      simp only [Partage.step] at hs
      split at hs
      · cases hs
      · rename_i w ws hw
        cases hs
        exact h.ecrit hinj hbanc hw

/-- Modulations on different pins, in every interleaving of their assignments to the
registers: when the thread of one has nothing left to write, its pin is an output at the
level of its `ucEtat`. The pins of no modulation are never touched. -/
theorem niveaux_propres (c : Pinctrl σ) (gpio : ι → UInt8) (hinj : Function.Injective gpio)
    (hbanc : ∀ i, gBank (gpio i) < c.bancs) (b0 : σ) (es : List (EvtPartage ι))
    (m : Partage ι σ) (hes : Execution.exec (step c gpio) (depart b0) es = some m) :
    (∀ i p, m.objets i = some p → m.restant i = [] →
        c.broches m.bloc (gpio i) = ⟨true, decide (p.ucEtat ≠ 0)⟩) ∧
      ∀ x, (∀ i, gpio i ≠ x) → c.broches m.bloc x = c.broches b0 x := by
  have h : EnOrdre c gpio b0 m :=
    Execution.exec_invariant (fun _ _ _ hI hs => hI.step hinj hbanc hs)
      ⟨fun i => ⟨[], rfl, by simp, by simp [depart]⟩, fun _ _ => rfl⟩ hes
  refine ⟨fun i p hp hvide => ?_, h.autres⟩
  obtain ⟨l, hl, -, hetat⟩ := h.tient i
  rw [hvide] at hl
  obtain rfl : l = [] := by simpa using hl.symm
  exact (hetat p hp).2

def deuxBroches (i : Bool) : UInt8 := if i then 17 else 16

/-- The pins 16 and 17, the second of which is written between the two assignments of the
first. -/
theorem niveaux_propres_deux_broches :
    let m := (Execution.exec (step .troisBancs deuxBroches) (depart (fun _ => 0, fun _ => 0))
      [.init false 1000 1, .init true 1000 50, .ecrit false, .ecrit true, .ecrit false,
        .ecrit true, .rappel true, .ecrit true]).get rfl
    (∀ i p, m.objets i = some p → m.restant i = [] →
        Pinctrl.troisBancs.broches m.bloc (deuxBroches i) = ⟨true, decide (p.ucEtat ≠ 0)⟩) ∧
      ∀ x, (∀ i, deuxBroches i ≠ x) →
        Pinctrl.troisBancs.broches m.bloc x =
          Pinctrl.troisBancs.broches (fun _ => 0, fun _ => 0) x :=
  niveaux_propres .troisBancs deuxBroches (by unfold Function.Injective; decide) (by decide) _ _ _
    (Option.some_get _).symm

end Partage

end GestAqua
