/-
Stockroom.Data.Sum — sums over lists.

`sumOf f xs` adds up the integers `f x`, in whatever order they stand in the list, and
`natSumOf f xs` the natural numbers.
-/
namespace Stockroom

variable {α : Type}

/-! ## Integers -/

/-- The sum of `f` over a list. -/
def sumOf (f : α → Int) : List α → Int
  | [] => 0
  | x :: xs => f x + sumOf f xs

@[simp] theorem sumOf_nil (f : α → Int) : sumOf f [] = 0 := rfl

@[simp] theorem sumOf_cons (f : α → Int) (x : α) (xs : List α) :
    sumOf f (x :: xs) = f x + sumOf f xs := rfl

theorem sumOf_append (f : α → Int) (xs ys : List α) :
    sumOf f (xs ++ ys) = sumOf f xs + sumOf f ys := by
  induction xs with
  | nil => simp
  | cons x xs ih =>
    simp only [List.cons_append, sumOf_cons, ih]
    omega

theorem sumOf_map {β : Type} (f : β → Int) (g : α → β) (xs : List α) :
    sumOf f (xs.map g) = sumOf (fun x => f (g x)) xs := by
  induction xs with
  | nil => rfl
  | cons x xs ih => rw [List.map_cons, sumOf_cons, sumOf_cons, ih]

theorem sumOf_perm (f : α → Int) {xs ys : List α} (h : xs.Perm ys) : sumOf f xs = sumOf f ys := by
  induction h with
  | nil => rfl
  | cons x _ ih => rw [sumOf_cons, sumOf_cons, ih]
  | swap x y l =>
    simp only [sumOf_cons]
    omega
  | trans _ _ ih ih' => exact ih.trans ih'

theorem sumOf_congr {f g : α → Int} {xs : List α} (h : ∀ x ∈ xs, f x = g x) :
    sumOf f xs = sumOf g xs := by
  induction xs with
  | nil => rfl
  | cons x xs ih =>
    obtain ⟨hx, hxs⟩ := List.forall_mem_cons.mp h
    rw [sumOf_cons, sumOf_cons, hx, ih hxs]

/-- One for each element is the length. -/
theorem sumOf_one (xs : List α) : sumOf (fun _ => 1) xs = xs.length := by
  induction xs with
  | nil => rfl
  | cons x xs ih =>
    rw [sumOf_cons, ih, List.length_cons]
    omega

theorem sumOf_nonneg {f : α → Int} {xs : List α} (h : ∀ x ∈ xs, 0 ≤ f x) : 0 ≤ sumOf f xs := by
  induction xs with
  | nil => exact Int.le_refl 0
  | cons x xs ih =>
    obtain ⟨hx, hxs⟩ := List.forall_mem_cons.mp h
    exact Int.add_nonneg hx (ih hxs)

/-- A sum of terms that are not negative is no less than any of them. -/
theorem le_sumOf_of_mem {f : α → Int} {xs : List α} (h : ∀ x ∈ xs, 0 ≤ f x) {x : α}
    (hx : x ∈ xs) : f x ≤ sumOf f xs := by
  induction xs with
  | nil => cases hx
  | cons y xs ih =>
    obtain ⟨hy, hxs⟩ := List.forall_mem_cons.mp h
    have hrest := sumOf_nonneg hxs
    rw [sumOf_cons]
    rcases List.mem_cons.mp hx with rfl | hx
    · omega
    · have := ih hxs hx
      omega

/-- What passes `p` and what does not add up to the whole. -/
theorem sumOf_filter_add_filter_not (f : α → Int) (p : α → Bool) (xs : List α) :
    sumOf f (xs.filter p) + sumOf f (xs.filter (fun x => !p x)) = sumOf f xs := by
  rw [← sumOf_append]
  exact sumOf_perm f (List.filter_append_perm p xs)

/-- A sum is not negative if the part of each key is not. -/
theorem sumOf_nonneg_of_keys {κ : Type} [DecidableEq κ] (f : α → Int) (key : α → κ)
    {xs : List α} (h : ∀ k, 0 ≤ sumOf f (xs.filter (fun x => key x == k))) : 0 ≤ sumOf f xs := by
  -- by the length of the list: all elements with the key of the first one go at once
  induction hn : xs.length using Nat.strongRecOn generalizing xs with
  | ind n ih =>
    cases xs with
    | nil => exact Int.le_refl 0
    | cons x xs =>
      have hsplit := sumOf_filter_add_filter_not f (fun y => key y == key x) (x :: xs)
      have hhead : 0 ≤ sumOf f ((x :: xs).filter (fun y => key y == key x)) := h (key x)
      have hdrop : (x :: xs).filter (fun y => !(key y == key x)) =
          xs.filter (fun y => !(key y == key x)) := by simp
      rw [hdrop] at hsplit
      have hlt : (xs.filter (fun y => !(key y == key x))).length < n := by
        have hle := List.length_filter_le (fun y => !(key y == key x)) xs
        rw [List.length_cons] at hn
        omega
      have hrest : 0 ≤ sumOf f (xs.filter (fun y => !(key y == key x))) := by
        refine ih _ hlt (fun k => ?_) rfl
        rw [← hdrop, List.filter_filter]
        by_cases hk : k = key x
        · subst hk
          have hnone : ∀ y ∈ x :: xs, ¬ (key y == key x && !(key y == key x)) = true := by simp
          rw [List.filter_eq_nil_iff.mpr hnone]
          exact Int.le_refl 0
        · have hsame : ∀ y ∈ x :: xs, (key y == k && !(key y == key x)) = (key y == k) := by
            intro y _
            by_cases hy : key y = k
            · simp [hy, hk]
            · simp [hy]
          rw [List.filter_congr hsame]
          exact h k
      omega

/-! ## Natural numbers -/

/-- The sum of `f` over a list. -/
def natSumOf (f : α → Nat) : List α → Nat
  | [] => 0
  | x :: xs => f x + natSumOf f xs

@[simp] theorem natSumOf_nil (f : α → Nat) : natSumOf f [] = 0 := rfl

@[simp] theorem natSumOf_cons (f : α → Nat) (x : α) (xs : List α) :
    natSumOf f (x :: xs) = f x + natSumOf f xs := rfl

/-- Natural numbers may be added up as integers. -/
theorem natCast_natSumOf (f : α → Nat) (xs : List α) :
    (natSumOf f xs : Int) = sumOf (fun x => (f x : Int)) xs := by
  induction xs with
  | nil => rfl
  | cons x xs ih => rw [natSumOf_cons, sumOf_cons, ← ih, Int.natCast_add]

theorem natSumOf_perm (f : α → Nat) {xs ys : List α} (h : xs.Perm ys) :
    natSumOf f xs = natSumOf f ys := by
  have hsum := sumOf_perm (fun x => (f x : Int)) h
  rw [← natCast_natSumOf, ← natCast_natSumOf] at hsum
  exact Int.ofNat.inj hsum

/-- What is left out adds nothing. -/
theorem natSumOf_filterMap {β : Type} (f : β → Nat) (g : α → Option β) (xs : List α) :
    natSumOf f (xs.filterMap g) = natSumOf (fun x => ((g x).map f).getD 0) xs := by
  induction xs with
  | nil => rfl
  | cons x xs ih =>
    rw [natSumOf_cons, ← ih]
    cases h : g x with
    | none => rw [List.filterMap_cons_none h, Option.map_none, Option.getD_none, Nat.zero_add]
    | some y => rw [List.filterMap_cons_some h, natSumOf_cons, Option.map_some, Option.getD_some]

/-- A sum of terms that do not exceed `c` does not exceed `c` for each of them. -/
theorem natSumOf_le {f : α → Nat} {c : Nat} (h : ∀ x, f x ≤ c) (xs : List α) :
    natSumOf f xs ≤ c * xs.length := by
  induction xs with
  | nil => exact Nat.zero_le _
  | cons x xs ih =>
    rw [natSumOf_cons, List.length_cons, Nat.mul_succ, Nat.add_comm]
    exact Nat.add_le_add ih (h x)

end Stockroom
