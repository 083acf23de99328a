/-
Stockroom.Data.Sorting — stable sorting of a list by a Boolean order.

`sortBy le` inserts each element before the first one it does not exceed, so equal
elements keep the order in which they were listed. The statements say that the result
is a rearrangement (`sortBy_perm`), for a total order or a comparison ascending
(`pairwise_sortBy`, `pairwise_sortBy_isLE`), and stable (`filter_sortBy`); no other list is
all three (`eq_of_perm_of_filter_eq`). Distinct elements may be listed in any order
(`sortBy_eq_of_perm`), also to look them up by keys of their own (`find?_key_eq_of_perm`).
Sorted by numbers of their own they ascend strictly (`pairwise_lt_sortOn`), and a list that
does is determined by its members (`eq_of_pairwise_of_mem_iff`).
-/
namespace Stockroom

variable {α : Type}

/-- Puts `x` before the first element that it does not exceed. -/
def insertBy (le : α → α → Bool) (x : α) : List α → List α
  | [] => [x]
  | y :: ys => if le x y then x :: y :: ys else y :: insertBy le x ys

/-- The elements in ascending order; equal ones keep their order. -/
def sortBy (le : α → α → Bool) : List α → List α
  | [] => []
  | x :: xs => insertBy le x (sortBy le xs)

/-- The elements in ascending order of a key; equal keys keep their order. -/
def sortOn {κ : Type} [Ord κ] (key : α → κ) (xs : List α) : List α :=
  sortBy (fun a b => (compare (key a) (key b)).isLE) xs

theorem insertBy_perm (le : α → α → Bool) (x : α) (xs : List α) :
    (insertBy le x xs).Perm (x :: xs) := by
  induction xs with
  | nil => exact .refl _
  | cons y ys ih =>
    simp only [insertBy]
    split
    · exact .refl _
    · exact (ih.cons y).trans (.swap x y ys)

/-- Sorting rearranges: nothing is lost and nothing is added. -/
theorem sortBy_perm (le : α → α → Bool) (xs : List α) : (sortBy le xs).Perm xs := by
  induction xs with
  | nil => exact .refl _
  | cons x xs ih => exact (insertBy_perm le x _).trans (ih.cons x)

@[simp] theorem mem_sortBy {le : α → α → Bool} {xs : List α} {a : α} :
    a ∈ sortBy le xs ↔ a ∈ xs :=
  (sortBy_perm le xs).mem_iff

@[simp] theorem length_sortBy (le : α → α → Bool) (xs : List α) :
    (sortBy le xs).length = xs.length :=
  (sortBy_perm le xs).length_eq

theorem pairwise_insertBy {le : α → α → Bool}
    (trans : ∀ a b c, le a b = true → le b c = true → le a c = true)
    (total : ∀ a b, le a b = true ∨ le b a = true) (x : α) {xs : List α}
    (h : xs.Pairwise (fun a b => le a b = true)) :
    (insertBy le x xs).Pairwise (fun a b => le a b = true) := by
  induction xs with
  | nil => simp [insertBy]
  | cons y ys ih =>
    obtain ⟨hy, hys⟩ := List.pairwise_cons.1 h
    simp only [insertBy]
    split
    · next hxy =>
      refine List.pairwise_cons.2 ⟨fun b hb => ?_, h⟩
      rcases List.mem_cons.1 hb with rfl | hb
      · exact hxy
      · exact trans x y b hxy (hy b hb)
    · next hxy =>
      have hyx : le y x = true := (total x y).resolve_left hxy
      refine List.pairwise_cons.2 ⟨fun b hb => ?_, ih hys⟩
      rcases List.mem_cons.1 ((insertBy_perm le x ys).mem_iff.1 hb) with rfl | hb
      · exact hyx
      · exact hy b hb

/-- Sorting by a total preorder gives an ascending list. -/
theorem pairwise_sortBy {le : α → α → Bool}
    (trans : ∀ a b c, le a b = true → le b c = true → le a c = true)
    (total : ∀ a b, le a b = true ∨ le b a = true) (xs : List α) :
    (sortBy le xs).Pairwise (fun a b => le a b = true) := by
  induction xs with
  | nil => exact .nil
  | cons x xs ih => exact pairwise_insertBy trans total x ih

/-- Where no two elements are equal in the order, it does not matter how they were listed. -/
theorem sortBy_eq_of_perm {le : α → α → Bool}
    (trans : ∀ a b c, le a b = true → le b c = true → le a c = true)
    (total : ∀ a b, le a b = true ∨ le b a = true) {xs ys : List α}
    (antisymm : ∀ a ∈ xs, ∀ b ∈ xs, le a b = true → le b a = true → a = b) (h : xs.Perm ys) :
    sortBy le xs = sortBy le ys := by
  have hperm : (sortBy le xs).Perm (sortBy le ys) :=
    (sortBy_perm le xs).trans (h.trans (sortBy_perm le ys).symm)
  refine hperm.eq_of_pairwise (fun a b ha hb => ?_) (pairwise_sortBy trans total xs)
    (pairwise_sortBy trans total ys)
  exact antisymm a (mem_sortBy.mp ha) b (mem_sortBy.mp (hperm.mem_iff.mpr hb))

/-- Where each element has a key of its own, it does not matter for a look-up how they were
listed. -/
theorem find?_key_eq_of_perm {κ : Type} [BEq κ] [LawfulBEq κ] {key : α → κ} {xs ys : List α}
    (h : xs.Perm ys) (hone : (xs.map key).Nodup) (k : κ) :
    xs.find? (fun x => key x == k) = ys.find? (fun x => key x == k) := by
  induction h with
  | nil => rfl
  | cons x _ ih =>
    have hrest := (List.nodup_cons.mp hone).2
    rw [List.find?_cons, List.find?_cons, ih hrest]
  | swap x y rest =>
    have hne : key y ≠ key x := fun e => (List.nodup_cons.mp hone).1 (e ▸ List.mem_cons_self)
    by_cases hy : key y = k
    · have hx : key x ≠ k := fun e => hne (hy.trans e.symm)
      simp [hy, hx]
    · simp [List.find?_cons, hy]
  | trans hxy _ ihxy ihyz => exact (ihxy hone).trans (ihyz ((hxy.map key).nodup_iff.mp hone))

/-- An ascending list stays as it is. -/
theorem sortBy_of_pairwise {le : α → α → Bool} {xs : List α}
    (h : xs.Pairwise (fun a b => le a b = true)) : sortBy le xs = xs := by
  induction xs with
  | nil => rfl
  | cons x xs ih =>
    obtain ⟨hx, hxs⟩ := List.pairwise_cons.mp h
    rw [sortBy, ih hxs]
    cases xs with
    | nil => rfl
    | cons y ys => exact if_pos (hx y List.mem_cons_self)

/-- Of two elements one does not exceed the other. -/
theorem isLE_total (cmp : α → α → Ordering) [Std.OrientedCmp cmp] (a b : α) :
    (cmp a b).isLE = true ∨ (cmp b a).isLE = true := by
  have hswap : cmp b a = (cmp a b).swap := Std.OrientedCmp.eq_swap
  rw [hswap]
  cases cmp a b <;> decide

/-- Sorting by a comparison gives a list that ascends in it. -/
theorem pairwise_sortBy_isLE (cmp : α → α → Ordering) [Std.TransCmp cmp] (xs : List α) :
    (sortBy (fun a b => (cmp a b).isLE) xs).Pairwise (fun a b => (cmp a b).isLE = true) :=
  pairwise_sortBy (fun _ _ _ => Std.TransCmp.isLE_trans) (isLE_total cmp) xs

/-- To sort by a key again changes nothing. -/
theorem sortOn_sortOn {κ : Type} [Ord κ] [Std.TransOrd κ] (key : α → κ) (xs : List α) :
    sortOn key (sortOn key xs) = sortOn key xs :=
  sortBy_of_pairwise (pairwise_sortBy_isLE (compareOn key) xs)

/-- Elements with a number each ascend strictly once they are sorted by it. -/
theorem pairwise_lt_sortOn {key : α → Int} {xs : List α} (hone : (xs.map key).Nodup) :
    (sortOn key xs).Pairwise (fun a b => key a < key b) := by
  have hle : (sortOn key xs).Pairwise (fun a b => key a ≤ key b) := by
    refine (pairwise_sortBy ?_ ?_ xs).imp (fun h => Int.isLE_compare.mp h)
    · intro a b c
      simp only [Int.isLE_compare]
      omega
    · intro a b
      simp only [Int.isLE_compare]
      omega
  have hne : (sortOn key xs).Pairwise (fun a b => key a ≠ key b) :=
    List.pairwise_map.mp ((((sortBy_perm _ xs).map _).nodup_iff).mpr hone)
  exact (hle.and hne).imp (fun h => by omega)

/-- A list in a strict order is determined by its members. -/
theorem eq_of_pairwise_of_mem_iff {R : α → α → Prop} (asymm : ∀ a b, R a b → ¬ R b a)
    {xs ys : List α} (hxs : xs.Pairwise R) (hys : ys.Pairwise R) (h : ∀ a, a ∈ xs ↔ a ∈ ys) :
    xs = ys := by
  have hnodup {l : List α} (hl : l.Pairwise R) : l.Nodup := by
    rw [List.nodup_iff_pairwise_ne]
    refine hl.imp fun {a b} hab heq => ?_
    rw [heq] at hab
    exact asymm b b hab hab
  have hperm := (List.perm_ext_iff_of_nodup (hnodup hxs) (hnodup hys)).mpr h
  exact hperm.eq_of_pairwise (fun a b _ _ hab hba => absurd hba (asymm a b hab)) hxs hys

section Stable

variable {le : α → α → Bool} {p : α → Bool}

/-- Elements none of which exceeds another one keep their order when one is put in. -/
theorem filter_insertBy (h : ∀ a b, p a = true → p b = true → le a b = true) (x : α)
    (xs : List α) : (insertBy le x xs).filter p = (x :: xs).filter p := by
  induction xs with
  | nil => rfl
  | cons y ys ih =>
    simp only [insertBy]
    split
    · rfl
    · next hxy =>
      rw [List.filter_cons, ih]
      by_cases hx : p x = true
      · have hy : ¬ p y = true := fun hy => hxy (h x y hx hy)
        simp [hx, hy]
      · simp [List.filter_cons, hx]

/-- Sorting is stable: elements none of which exceeds another one keep their order. -/
theorem filter_sortBy (h : ∀ a b, p a = true → p b = true → le a b = true) (xs : List α) :
    (sortBy le xs).filter p = xs.filter p := by
  induction xs with
  | nil => rfl
  | cons x xs ih =>
    rw [sortBy, filter_insertBy h, List.filter_cons, List.filter_cons, ih]

/-- There is only one way to sort a list and keep the order of elements with the same key, if
elements that do not exceed each other have the same key. -/
theorem eq_of_perm_of_filter_eq {κ : Type} [BEq κ] [LawfulBEq κ] (key : α → κ)
    (refl : ∀ a, le a a = true)
    (same : ∀ a b, le a b = true → le b a = true → key a = key b) {xs ys : List α}
    (hperm : xs.Perm ys) (hxs : xs.Pairwise (fun a b => le a b = true))
    (hys : ys.Pairwise (fun a b => le a b = true))
    (hkeep : ∀ k, xs.filter (fun a => key a == k) = ys.filter (fun a => key a == k)) :
    xs = ys := by
  induction xs generalizing ys with
  | nil => exact (List.nil_perm.mp hperm).symm
  | cons x xs ih =>
    cases ys with
    | nil => exact absurd hperm List.not_perm_cons_nil
    | cons y ys =>
      obtain ⟨hx, hxs'⟩ := List.pairwise_cons.mp hxs
      obtain ⟨hy, hys'⟩ := List.pairwise_cons.mp hys
      have hxy : le x y = true := by
        rcases List.mem_cons.mp (hperm.mem_iff.mpr List.mem_cons_self) with rfl | hmem
        · exact refl y
        · exact hx y hmem
      have hyx : le y x = true := by
        rcases List.mem_cons.mp (hperm.mem_iff.mp List.mem_cons_self) with rfl | hmem
        · exact refl x
        · exact hy x hmem
      -- both heads are the first of the elements with their key
      have hkey : key y = key x := same y x hyx hxy
      have hhead := hkeep (key x)
      simp only [List.filter_cons, hkey, beq_self_eq_true, if_true] at hhead
      obtain rfl : x = y := (List.cons.inj hhead).1
      rw [ih hperm.cons_inv hxs' hys' fun k => ?_]
      have hk := hkeep k
      simp only [List.filter_cons] at hk
      split at hk
      · exact (List.cons.inj hk).2
      · exact hk

end Stable

section Map

variable {β : Type} {f : α → β} {le : α → α → Bool} {le' : β → β → Bool} {xs : List α}

theorem insertBy_map {x : α} (h : ∀ y ∈ xs, le' (f x) (f y) = le x y) :
    insertBy le' (f x) (xs.map f) = (insertBy le x xs).map f := by
  induction xs with
  | nil => rfl
  | cons y ys ih =>
    obtain ⟨hy, hys⟩ := List.forall_mem_cons.mp h
    simp only [List.map_cons, insertBy, hy, ih hys]
    split <;> rfl

/-- Sorting and what keeps the order can be done one after the other. -/
theorem sortBy_map (h : ∀ a ∈ xs, ∀ b ∈ xs, le' (f a) (f b) = le a b) :
    sortBy le' (xs.map f) = (sortBy le xs).map f := by
  induction xs with
  | nil => rfl
  | cons x xs ih =>
    have hxs : ∀ a ∈ xs, ∀ b ∈ xs, le' (f a) (f b) = le a b := fun a ha b hb =>
      h a (List.mem_cons_of_mem _ ha) b (List.mem_cons_of_mem _ hb)
    rw [List.map_cons, sortBy, sortBy, ih hxs]
    refine insertBy_map fun y hy => ?_
    exact h x List.mem_cons_self y (List.mem_cons_of_mem _ (mem_sortBy.mp hy))

end Map

end Stockroom
