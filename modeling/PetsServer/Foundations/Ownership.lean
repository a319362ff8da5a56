import Mathlib.Data.List.Nodup
import Mathlib.Tactic.Common

/-!
# Uses of owned resources

A program that owns resources releases them, and hands them out to others. `Use` is one such event
and `Safe dead uses` says that, the resources in `dead` having been released before, the `uses` in
order neither release a resource twice nor hand out one that is released. A part of a program is
verified by splitting its uses (`safe_append`).
-/

namespace Foundations

variable {α : Type*}

/-- What is done with a resource. -/
inductive Use (α : Type*)
  | release (a : α)
  | expose (a : α)
  deriving DecidableEq, Repr

/-- The resource that is used. -/
def Use.resource : Use α → α
  | .release a | .expose a => a

/-- The resources released by the uses. -/
def releases (uses : List (Use α)) : List α :=
  uses.filterMap fun
    | .release a => some a
    | .expose _ => none

/-- The resources handed out by the uses. -/
def exposures (uses : List (Use α)) : List α :=
  uses.filterMap fun
    | .release _ => none
    | .expose a => some a

/-- No resource is used after its release. -/
def Safe (dead : List α) : List (Use α) → Prop
  | [] => True
  | .release a :: uses => a ∉ dead ∧ Safe (dead ++ [a]) uses
  | .expose a :: uses => a ∉ dead ∧ Safe dead uses

instance decidableSafe [DecidableEq α] :
    ∀ (dead : List α) (uses : List (Use α)), Decidable (Safe dead uses)
  | _, [] => isTrue trivial
  | dead, .release a :: uses =>
    have := decidableSafe (dead ++ [a]) uses
    inferInstanceAs (Decidable (a ∉ dead ∧ Safe (dead ++ [a]) uses))
  | dead, .expose a :: uses =>
    have := decidableSafe dead uses
    inferInstanceAs (Decidable (a ∉ dead ∧ Safe dead uses))

@[simp] theorem releases_nil : releases ([] : List (Use α)) = [] := rfl

@[simp] theorem releases_release (a : α) (uses : List (Use α)) :
    releases (.release a :: uses) = a :: releases uses := rfl

@[simp] theorem releases_expose (a : α) (uses : List (Use α)) :
    releases (.expose a :: uses) = releases uses := rfl

@[simp] theorem releases_append (us vs : List (Use α)) :
    releases (us ++ vs) = releases us ++ releases vs :=
  List.filterMap_append

@[simp] theorem exposures_nil : exposures ([] : List (Use α)) = [] := rfl

@[simp] theorem exposures_expose (a : α) (uses : List (Use α)) :
    exposures (.expose a :: uses) = a :: exposures uses := rfl

@[simp] theorem exposures_append (us vs : List (Use α)) :
    exposures (us ++ vs) = exposures us ++ exposures vs :=
  List.filterMap_append

@[simp] theorem releases_map_release (as : List α) : releases (as.map .release) = as := by
  induction as with
  | nil => rfl
  | cons a as ih => rw [List.map_cons, releases_release, ih]

@[simp] theorem safe_nil (dead : List α) : Safe dead [] := trivial

/-- **The composition rule.** -/
theorem safe_append {dead : List α} {us vs : List (Use α)} :
    Safe dead (us ++ vs) ↔ Safe dead us ∧ Safe (dead ++ releases us) vs := by
  induction us generalizing dead with
  | nil => simp
  | cons u us ih =>
    cases u with
    | release a =>
      simp only [List.cons_append, Safe, ih, releases_release, List.append_assoc, List.nil_append,
        and_assoc]
    | expose a => simp only [List.cons_append, Safe, ih, releases_expose, and_assoc]

/-- Dead resources that are not used do not matter. -/
theorem safe_append_dead {dead dead' : List α} {us : List (Use α)}
    (h : ∀ u ∈ us, u.resource ∉ dead) : Safe (dead ++ dead') us ↔ Safe dead' us := by
  induction us generalizing dead' with
  | nil => exact Iff.rfl
  | cons u us ih =>
    obtain ⟨hu, hus⟩ := List.forall_mem_cons.mp h
    cases u with
    | release a =>
      have hmem : a ∉ dead ++ dead' ↔ a ∉ dead' := by
        rw [List.mem_append, not_or]
        exact and_iff_right hu
      simp only [Safe, hmem, List.append_assoc, ih hus]
    | expose a =>
      have hmem : a ∉ dead ++ dead' ↔ a ∉ dead' := by
        rw [List.mem_append, not_or]
        exact and_iff_right hu
      simp only [Safe, hmem, ih hus]

theorem mem_releases {a : α} {us : List (Use α)} : a ∈ releases us ↔ .release a ∈ us := by
  induction us with
  | nil => simp
  | cons u us ih => cases u <;> simp [ih]

/-- Exposing live resources is safe. -/
theorem safe_of_expose {dead : List α} {us : List (Use α)}
    (h : ∀ u ∈ us, ∃ a, u = .expose a ∧ a ∉ dead) : Safe dead us := by
  induction us with
  | nil => trivial
  | cons u us ih =>
    obtain ⟨⟨a, rfl, ha⟩, hus⟩ := List.forall_mem_cons.mp h
    exact ⟨ha, ih hus⟩

theorem releases_of_expose {us : List (Use α)} (h : ∀ u ∈ us, ∃ a, u = .expose a) :
    releases us = [] := by
  refine List.filterMap_eq_nil_iff.mpr fun u hu => ?_
  obtain ⟨a, rfl⟩ := h u hu
  rfl

/-- Releasing distinct live resources is safe. -/
theorem safe_map_release {dead as : List α} (hnodup : as.Nodup) (hlive : ∀ a ∈ as, a ∉ dead) :
    Safe dead (as.map .release) := by
  induction as generalizing dead with
  | nil => trivial
  | cons a as ih =>
    obtain ⟨ha, has⟩ := List.nodup_cons.mp hnodup
    refine ⟨hlive a List.mem_cons_self, ih has fun b hb => ?_⟩
    rw [List.mem_append, List.mem_singleton, not_or]
    exact ⟨hlive b (List.mem_cons_of_mem _ hb), fun heq => ha (heq ▸ hb)⟩

/-- Releasing a dead resource is not safe. -/
theorem not_safe_of_release {dead : List α} {uses : List (Use α)} {a : α} (ha : a ∈ dead)
    (hrel : .release a ∈ uses) : ¬ Safe dead uses := by
  obtain ⟨us, vs, rfl⟩ := List.mem_iff_append.mp hrel
  rw [safe_append]
  rintro ⟨-, hsafe⟩
  exact hsafe.1 (List.mem_append_left _ ha)

end Foundations
