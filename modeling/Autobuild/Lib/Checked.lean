/-
# Computations that may throw

A source function that can throw is a function into `Except`.  The lemmas here take such a
computation apart: a bind that returned had both halves return (`bind_eq_ok`), and a loop
whose body returns for every element returns (`mapM_ok`).  What the steps of a loop keep, or move
by themselves, so does the loop (`foldlM_keeps`, `foldlM_part`).  `Related` compares two
computations: they return related values or throw the same error.
-/
import Mathlib.Data.List.Basic

universe u v w x

namespace Checked

variable {ε : Type w} {α : Type u} {β : Type u}

/-- A bind that returned: the first half returned, and the second on its value. -/
theorem bind_eq_ok {x : Except ε α} {f : α → Except ε β} {r : β} :
    (x >>= f) = .ok r ↔ ∃ a, x = .ok a ∧ f a = .ok r := by
  cases x with
  | error e => simp [bind, Except.bind]
  | ok a => simp [bind, Except.bind]

theorem map_eq_ok {x : Except ε α} {f : α → β} {r : β} :
    x.map f = .ok r ↔ ∃ a, x = .ok a ∧ f a = r := by
  cases x <;> simp [Except.map]

@[simp] theorem ok_bind (a : α) (f : α → Except ε β) : (Except.ok a >>= f) = f a := rfl

@[simp] theorem error_bind (e : ε) (f : α → Except ε β) :
    ((Except.error e : Except ε α) >>= f) = .error e := rfl

@[simp] theorem pure_eq_ok (a : α) : (pure a : Except ε α) = .ok a := rfl

/-- A loop whose body returns for every element returns the list of the results. -/
theorem mapM_ok {γ : Type v} {f : γ → Except ε β} {g : γ → β} :
    ∀ {xs : List γ}, (∀ x ∈ xs, f x = .ok (g x)) → xs.mapM f = .ok (xs.map g)
  | [], _ => rfl
  | x :: xs, h => by
    have hx : f x = .ok (g x) := h x List.mem_cons_self
    have hxs : xs.mapM f = .ok (xs.map g) := mapM_ok fun y hy => h y (List.mem_cons_of_mem _ hy)
    rw [List.mapM_cons, hx, hxs]
    rfl

/-- A loop that returned had its body return for every element. -/
theorem ok_of_mapM_ok {γ : Type v} {f : γ → Except ε β} :
    ∀ {xs : List γ} {ys : List β}, xs.mapM f = .ok ys → ∀ x ∈ xs, ∃ y, f x = .ok y
  | [], _, _ => fun x hx => absurd hx (by simp)
  | x :: xs, ys, h => by
    rw [List.mapM_cons] at h
    obtain ⟨a, ha, h⟩ := bind_eq_ok.mp h
    obtain ⟨as, has, -⟩ := bind_eq_ok.mp h
    intro z hz
    rcases List.mem_cons.mp hz with rfl | hz
    · exact ⟨a, ha⟩
    · exact ok_of_mapM_ok has z hz

/-- A loop whose body returns the same for every element returns the same. -/
theorem mapM_ok_congr {γ : Type v} {f g : γ → Except ε β} :
    ∀ {xs : List γ} {ys : List β}, (∀ x ∈ xs, ∀ y, f x = .ok y → g x = .ok y) →
      xs.mapM f = .ok ys → xs.mapM g = .ok ys
  | [], _, _, h => h
  | x :: xs, ys, hfg, h => by
    rw [List.mapM_cons] at h ⊢
    obtain ⟨a, ha, h⟩ := bind_eq_ok.mp h
    obtain ⟨as, has, h⟩ := bind_eq_ok.mp h
    rw [hfg x List.mem_cons_self a ha,
      mapM_ok_congr (fun y hy => hfg y (List.mem_cons_of_mem _ hy)) has]
    exact h

/-- What a loop returned came from an element. -/
theorem mem_of_mapM_ok {γ : Type v} {f : γ → Except ε β} :
    ∀ {xs : List γ} {ys : List β}, xs.mapM f = .ok ys → ∀ y ∈ ys, ∃ x ∈ xs, f x = .ok y
  | [], ys, h => by
    rw [← Except.ok.inj h]
    exact fun y hy => absurd hy List.not_mem_nil
  | x :: xs, ys, h => by
    rw [List.mapM_cons] at h
    obtain ⟨a, ha, h⟩ := bind_eq_ok.mp h
    obtain ⟨as, has, h⟩ := bind_eq_ok.mp h
    rw [← Except.ok.inj h]
    intro y hy
    rcases List.mem_cons.mp hy with rfl | hy
    · exact ⟨x, List.mem_cons_self, ha⟩
    · obtain ⟨z, hz, hf⟩ := mem_of_mapM_ok has y hy
      exact ⟨z, List.mem_cons_of_mem _ hz, hf⟩

/-- What every step of a loop keeps, the loop keeps. -/
theorem foldlM_keeps {γ : Type v} {f : α → γ → Except ε α} {P : α → Prop}
    (hstep : ∀ {a b x}, f a x = .ok b → P a → P b) :
    ∀ {xs : List γ} {a b : α}, xs.foldlM f a = .ok b → P a → P b
  | [], a, b, h, ha => by
    rw [← Except.ok.inj h]
    exact ha
  | x :: xs, a, b, h, ha => by
    rw [List.foldlM_cons] at h
    obtain ⟨middle, hm, hr⟩ := bind_eq_ok.mp h
    exact foldlM_keeps hstep hr (hstep hm ha)

/-- A part of the state that every step of a loop moves by itself. -/
theorem foldlM_part {γ : Type v} {δ : Type x} {f : α → γ → Except ε α} {part : α → δ}
    {move : δ → γ → δ} (hstep : ∀ {a b x}, f a x = .ok b → part b = move (part a) x) :
    ∀ {xs : List γ} {a b : α}, xs.foldlM f a = .ok b → part b = xs.foldl move (part a)
  | [], a, b, h => by
    rw [← Except.ok.inj h]
    rfl
  | x :: xs, a, b, h => by
    rw [List.foldlM_cons] at h
    obtain ⟨middle, hm, hr⟩ := bind_eq_ok.mp h
    rw [foldlM_part hstep hr, hstep hm, List.foldl_cons]

/-! ## Two computations side by side -/

/-- Both return, with related values, or both throw the same error. -/
def Related {α : Type u} {β : Type v} (R : α → β → Prop) : Except ε α → Except ε β → Prop
  | .ok a, .ok b => R a b
  | .error e, .error f => e = f
  | _, _ => False

theorem Related.bind {α α' β β' : Type u} {R : α → α' → Prop} {S : β → β' → Prop}
    {x : Except ε α} {y : Except ε α'} {f : α → Except ε β} {g : α' → Except ε β'}
    (h : Related R x y) (hfg : ∀ a b, R a b → Related S (f a) (g b)) :
    Related S (x >>= f) (y >>= g) := by
  cases x with
  | error e =>
    cases y with
    | error e' => exact h
    | ok b => exact absurd h id
  | ok a =>
    cases y with
    | error e => exact absurd h id
    | ok b => exact hfg a b h

/-- A relation every step keeps is kept by the loop. -/
theorem Related.foldlM {γ : Type v} {R : α → β → Prop} {f : α → γ → Except ε α}
    {g : β → γ → Except ε β} :
    ∀ {xs : List γ}, (∀ x ∈ xs, ∀ a b, R a b → Related R (f a x) (g b x)) →
      ∀ {a b}, R a b → Related R (xs.foldlM f a) (xs.foldlM g b)
  | [], _, _, _, h => h
  | x :: xs, hstep, a, b, h => by
    rw [List.foldlM_cons, List.foldlM_cons]
    refine (hstep x List.mem_cons_self a b h).bind fun a' b' h' => ?_
    exact Related.foldlM (fun y hy => hstep y (List.mem_cons_of_mem x hy)) h'

theorem Related.ok_left {R : α → β → Prop} {a : α} {y : Except ε β}
    (h : Related R (.ok a) y) : ∃ b, y = .ok b ∧ R a b := by
  cases y with
  | error e => exact absurd h id
  | ok b => exact ⟨b, rfl, h⟩

end Checked
