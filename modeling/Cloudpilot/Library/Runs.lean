import Mathlib.Tactic

/-! # Driving a machine until it stops

A machine is stepped for as long as it runs. It stops when every step makes a measure
smaller.
-/

namespace Cloudpilot.Library.Drive

variable {S : Type*} {step : S → S} {running : S → Bool} {s s' : S} {fuel : ℕ}

/-- The state in which the machine stops, if it does within so many steps. -/
def drive (step : S → S) (running : S → Bool) : ℕ → S → Option S
  | 0, _ => none
  | fuel + 1, s => if running s then drive step running fuel (step s) else some s

theorem drive_of_stopped (h : running s = false) : drive step running (fuel + 1) s = some s := by
  rw [drive, h]
  rfl

theorem drive_of_running (h : running s = true) :
    drive step running (fuel + 1) s = drive step running fuel (step s) := by
  rw [drive, if_pos h]

theorem eq_of_drive_of_stopped (hs : running s = false) (h : drive step running fuel s = some s') :
    s' = s := by
  cases fuel with
  | zero => cases h
  | succ fuel =>
    rw [drive_of_stopped hs] at h
    exact (Option.some.inj h).symm

/-- An invariant that every step keeps, with a measure that every step makes smaller, holds
where the machine stops. -/
theorem drive_ends {Inv : S → Prop} (measure : S → ℕ)
    (hstep : ∀ s, Inv s → running s = true → Inv (step s) ∧ measure (step s) < measure s)
    (h : Inv s) : ∃ fuel s', drive step running fuel s = some s' ∧ Inv s' ∧ running s' = false := by
  induction hn : measure s using Nat.strong_induction_on generalizing s with
  | _ n ih =>
    cases hrunning : running s with
    | false => exact ⟨1, s, drive_of_stopped hrunning, h, hrunning⟩
    | true =>
      obtain ⟨hinv, hlt⟩ := hstep s h hrunning
      obtain ⟨fuel, s', hdrive, hinv', hstopped⟩ := ih _ (hn ▸ hlt) hinv rfl
      exact ⟨fuel + 1, s', (drive_of_running hrunning).trans hdrive, hinv', hstopped⟩

end Cloudpilot.Library.Drive

namespace Cloudpilot.Library.PartialRun

universe u v

variable {σ : Type u} {α : Type v} {f : σ → α → Option σ} {s s' : σ}

theorem foldlM_cons_eq_some {a : α} {xs : List α} :
    (a :: xs).foldlM f s = some s' ↔ ∃ t, f s a = some t ∧ xs.foldlM f t = some s' := by
  exact Option.bind_eq_some_iff

theorem foldlM_rel {R : σ → σ → Prop} (refl : ∀ s, R s s) (trans : ∀ {a b c}, R a b → R b c → R a c)
    {xs : List α} (step : ∀ a ∈ xs, ∀ s s', f s a = some s' → R s s')
    (h : xs.foldlM f s = some s') : R s s' := by
  induction xs generalizing s with
  | nil => grind
  | cons a xs ih =>
    obtain ⟨t, hstep, hrest⟩ := foldlM_cons_eq_some.mp h
    apply trans (step a (List.mem_cons_self ..) s t hstep)
    exact ih (fun b hb => step b (List.mem_cons_of_mem a hb)) hrest

theorem foldlM_invariant {P : σ → Prop} {xs : List α}
    (step : ∀ a ∈ xs, ∀ s s', P s → f s a = some s' → P s') (hs : P s)
    (h : xs.foldlM f s = some s') : P s' := by
  apply foldlM_rel (R := fun a b => P a → P b) (fun _ h => h) (fun hab hbc ha => hbc (hab ha)) _ h hs
  intro a ha s s' hstep hP
  exact step a ha s s' hP hstep

def EveryStep (f : σ → α → Option σ) (P : σ → α → Prop) : σ → List α → Prop
  | _, [] => True
  | s, a :: xs => P s a ∧ ∀ s', f s a = some s' → EveryStep f P s' xs

theorem everyStep_congr {P Q : σ → α → Prop} (h : ∀ s a, P s a ↔ Q s a) {xs : List α} :
    EveryStep f P s xs ↔ EveryStep f Q s xs := by
  induction xs generalizing s with
  | nil => exact Iff.rfl
  | cons a xs ih =>
    simp only [EveryStep, h, ih]

/-- A condition on the steps that gives another one wherever an invariant holds, and keeps the
invariant. -/
theorem EveryStep.of_invariant {I : σ → Prop} {P Q : σ → α → Prop}
    (step : ∀ s a, I s → P s a → Q s a ∧ ∀ s', f s a = some s' → I s') (hs : I s) {xs : List α}
    (h : EveryStep f P s xs) : EveryStep f Q s xs := by
  induction xs generalizing s with
  | nil => trivial
  | cons a xs ih =>
    obtain ⟨hQ, hI⟩ := step s a hs h.1
    exact ⟨hQ, fun s' hstep => ih (hI s' hstep) (h.2 s' hstep)⟩

theorem EveryStep.reached {P : σ → α → Prop} {xs ys : List α} (h : EveryStep f P s (xs ++ ys))
    (hrun : xs.foldlM f s = some s') : EveryStep f P s' ys := by
  induction xs generalizing s with
  | nil => grind
  | cons a xs ih =>
    obtain ⟨t, hstep, hrest⟩ := foldlM_cons_eq_some.mp hrun
    exact ih (h.2 t hstep) hrest

instance decidableForallSome {P : σ → Prop} [DecidablePred P] :
    (r : Option σ) → Decidable (∀ s', r = some s' → P s')
  | some s => decidable_of_iff (P s) (by simp)
  | none => isTrue (by simp)

instance decidableExistsSome {P : σ → Prop} [DecidablePred P] :
    (r : Option σ) → Decidable (∃ s', r = some s' ∧ P s')
  | some s => decidable_of_iff (P s) (by simp)
  | none => isFalse (by simp)

instance decidableEveryStep {P : σ → α → Prop} [∀ s a, Decidable (P s a)] :
    (s : σ) → (xs : List α) → Decidable (EveryStep f P s xs)
  | _, [] => isTrue trivial
  | s, a :: xs =>
    have : DecidablePred fun s' => EveryStep f P s' xs := fun s' => decidableEveryStep s' xs
    have : Decidable (∀ s', f s a = some s' → EveryStep f P s' xs) := decidableForallSome (f s a)
    inferInstanceAs (Decidable (P s a ∧ ∀ s', f s a = some s' → EveryStep f P s' xs))

end Cloudpilot.Library.PartialRun

namespace Cloudpilot.Library

universe u v

variable {α β : Type u} {ε : Type v}

/-- The result satisfies the first condition, or the failure the second one. -/
def Ensures (r : Except ε α) (P : α → Prop) (E : ε → Prop) : Prop :=
  match r with
  | .ok a => P a
  | .error e => E e

namespace Ensures

variable {P Q : α → Prop} {E F : ε → Prop} {r : Except ε α}

theorem imp (h : Ensures r P E) (hP : ∀ a, P a → Q a) (hE : ∀ e, E e → F e) : Ensures r Q F := by
  cases r with
  | ok a => exact hP a h
  | error e => exact hE e h

theorem bind {R : β → Prop} {f : α → Except ε β} (h : Ensures r P E)
    (hf : ∀ a, P a → Ensures (f a) R E) : Ensures (r >>= f) R E := by
  cases r with
  | ok a => exact hf a h
  | error e => exact h

theorem of_ok {a : α} (h : Ensures r P E) (hr : r = .ok a) : P a := by
  subst hr
  exact h

theorem of_error {e : ε} (h : Ensures r P E) (hr : r = .error e) : E e := by
  subst hr
  exact h

theorem foldlM_range {σ : Type u} {body : σ → ℕ → Except ε σ} {n : ℕ} {I : ℕ → σ → Prop} {s : σ}
    (h : I 0 s) (hbody : ∀ i < n, ∀ s, I i s → Ensures (body s i) (I (i + 1)) E) :
    Ensures ((List.range n).foldlM body s) (I n) E := by
  induction n with
  | zero => exact h
  | succ n ih =>
    rw [List.range_succ, List.foldlM_append]
    apply (ih fun i hi => hbody i (by omega)).bind
    intro s hs
    simp only [List.foldlM_cons, List.foldlM_nil, bind_pure]
    exact hbody n (Nat.lt_succ_self n) s hs

end Ensures

/-- A loop in which every round makes a check of its own: it fails exactly if one of them does. -/
theorem foldlM_checked {σ ι : Type*} {body : σ → ι → Except ε σ} {f : σ → ι → σ} {I : σ → Prop}
    {P : ι → Prop} [DecidablePred P] {e : ε} {xs : List ι} {s : σ} (hs : I s)
    (hnext : ∀ s i, I s → I (f s i))
    (hbody : ∀ s i, I s → body s i = if P i then .ok (f s i) else .error e) :
    xs.foldlM body s = if ∀ i ∈ xs, P i then .ok (xs.foldl f s) else .error e := by
  induction xs generalizing s with
  | nil => simp [pure, Except.pure]
  | cons i xs ih =>
    rw [List.foldlM_cons, hbody s i hs]
    by_cases hi : P i
    · simp only [hi, if_true, List.forall_mem_cons, true_and, List.foldl_cons]
      exact ih (hnext s i hs)
    · simp only [hi, if_false, List.forall_mem_cons, false_and]
      rfl

theorem foldl_range {σ : Type u} {body : σ → ℕ → σ} {n : ℕ} {I : ℕ → σ → Prop} {s : σ} (h : I 0 s)
    (hbody : ∀ i < n, ∀ s, I i s → I (i + 1) (body s i)) : I n ((List.range n).foldl body s) := by
  induction n with
  | zero => exact h
  | succ n ih => grind [List.range_succ, List.foldl_append]

end Cloudpilot.Library
