/-
Stockroom.Data.OrderedMap — finite maps kept as association lists in strictly
ascending key order.

The order is part of the type, so two maps that agree on every look-up are the same
map (`OrderedMap.ext_get?`), and a listing needs no sorting step. Every change goes
through `alter`, whose effect on look-ups is `get?_alter`.
-/
import Stockroom.Data.Sorting

namespace Stockroom

/-- A finite map: pairs in strictly ascending order of their keys. -/
structure OrderedMap (κ υ : Type) [Ord κ] where
  /-- The bindings, ascending by key. -/
  toList : List (κ × υ)
  /-- Each key comes strictly before the next one. -/
  ascending : toList.Pairwise (fun a b => compare a.1 b.1 = .lt)

namespace OrderedMap

variable {κ υ : Type} [Ord κ]

instance [DecidableEq κ] [DecidableEq υ] : DecidableEq (OrderedMap κ υ) := fun a b =>
  if h : a.toList = b.toList then
    .isTrue (by cases a; cases b; cases h; rfl)
  else
    .isFalse (fun e => h (e ▸ rfl))

/-! ## Look-up -/

/-- The value bound to `k` in an ascending list. -/
def lookup (k : κ) : List (κ × υ) → Option υ
  | [] => none
  | (k', v) :: rest =>
    match compare k k' with
    | .lt => none
    | .eq => some v
    | .gt => lookup k rest

/-- The value bound to `k`, if any. -/
def get? (m : OrderedMap κ υ) (k : κ) : Option υ := lookup k m.toList

/-- The value bound to `k`, or `d`. -/
def getD (m : OrderedMap κ υ) (k : κ) (d : υ) : υ := (m.get? k).getD d

/-- Whether `k` is bound. -/
def contains (m : OrderedMap κ υ) (k : κ) : Bool := (m.get? k).isSome

/-- The bound keys, ascending. -/
def keys (m : OrderedMap κ υ) : List κ := m.toList.map (·.1)

/-- The values, in the order of their keys. -/
def values (m : OrderedMap κ υ) : List υ := m.toList.map (·.2)

/-- How many keys are bound. -/
def size (m : OrderedMap κ υ) : Nat := m.toList.length

/-- The map that binds nothing. -/
def empty : OrderedMap κ υ := ⟨[], .nil⟩

instance : EmptyCollection (OrderedMap κ υ) := ⟨empty⟩
instance : Inhabited (OrderedMap κ υ) := ⟨empty⟩

/-- The bindings whose key and value pass `p`. -/
def filter (m : OrderedMap κ υ) (p : κ → υ → Bool) : OrderedMap κ υ :=
  ⟨m.toList.filter (fun b => p b.1 b.2), m.ascending.filter _⟩

/-! ## Changing one key -/

/-- Rebinds `k` in an ascending list to what `f` makes of its present binding. -/
def alterList (k : κ) (f : Option υ → Option υ) : List (κ × υ) → List (κ × υ)
  | [] =>
    match f none with
    | none => []
    | some w => [(k, w)]
  | (k', v) :: rest =>
    match compare k k' with
    | .lt =>
      match f none with
      | none => (k', v) :: rest
      | some w => (k, w) :: (k', v) :: rest
    | .eq =>
      match f (some v) with
      | none => rest
      | some w => (k', w) :: rest
    | .gt => (k', v) :: alterList k f rest

/-- A key of the altered list is `k` or a key that was there. -/
theorem fst_mem_alterList {k : κ} {f : Option υ → Option υ} {l : List (κ × υ)} {b : κ × υ}
    (h : b ∈ alterList k f l) : b.1 = k ∨ ∃ b' ∈ l, b'.1 = b.1 := by
  induction l with
  | nil =>
    simp only [alterList] at h
    split at h <;> simp_all
  | cons a rest ih =>
    obtain ⟨k', v⟩ := a
    simp only [alterList] at h
    split at h
    · split at h
      · exact .inr ⟨b, h, rfl⟩
      · rcases List.mem_cons.1 h with rfl | h
        · exact .inl rfl
        · exact .inr ⟨b, h, rfl⟩
    · split at h
      · exact .inr ⟨b, List.mem_cons_of_mem _ h, rfl⟩
      · rcases List.mem_cons.1 h with rfl | h
        · exact .inr ⟨(k', v), List.mem_cons_self, rfl⟩
        · exact .inr ⟨b, List.mem_cons_of_mem _ h, rfl⟩
    · rcases List.mem_cons.1 h with rfl | h
      · exact .inr ⟨_, List.mem_cons_self, rfl⟩
      · rcases ih h with h | ⟨b', hb', e⟩
        · exact .inl h
        · exact .inr ⟨b', List.mem_cons_of_mem _ hb', e⟩

theorem pairwise_alterList [Std.TransOrd κ] (k : κ) (f : Option υ → Option υ)
    {l : List (κ × υ)} (h : l.Pairwise (fun a b => compare a.1 b.1 = .lt)) :
    (alterList k f l).Pairwise (fun a b => compare a.1 b.1 = .lt) := by
  induction l with
  | nil => simp only [alterList]; split <;> simp
  | cons a rest ih =>
    obtain ⟨k', v⟩ := a
    obtain ⟨hlt, hrest⟩ := List.pairwise_cons.1 h
    simp only [alterList]
    split
    · next hk =>
      split
      · exact h
      · refine List.pairwise_cons.2 ⟨fun b hb => ?_, h⟩
        rcases List.mem_cons.1 hb with rfl | hb
        · exact hk
        · exact Std.TransCmp.lt_trans hk (hlt b hb)
    · split
      · exact hrest
      · exact List.pairwise_cons.2 ⟨hlt, hrest⟩
    · next hk =>
      refine List.pairwise_cons.2 ⟨fun b hb => ?_, ih hrest⟩
      rcases fst_mem_alterList hb with e | ⟨b', hb', e⟩
      · rw [e]; exact Std.OrientedCmp.lt_of_gt hk
      · rw [← e]; exact hlt b' hb'

/-- Rebinds `k` to what `f` makes of its present binding; `none` unbinds it. -/
def alter [Std.TransOrd κ] (m : OrderedMap κ υ) (k : κ) (f : Option υ → Option υ) :
    OrderedMap κ υ :=
  ⟨alterList k f m.toList, pairwise_alterList k f m.ascending⟩

/-- Binds `k` to `v`, in place of any earlier binding. -/
def insert [Std.TransOrd κ] (m : OrderedMap κ υ) (k : κ) (v : υ) : OrderedMap κ υ :=
  m.alter k (fun _ => some v)

/-- The map of a list of pairs; of two pairs with one key the later counts. -/
def ofList [Std.TransOrd κ] (l : List (κ × υ)) : OrderedMap κ υ :=
  l.foldl (fun m b => m.insert b.1 b.2) empty

/-! ## What a change does to look-ups -/

theorem lookup_eq_none_of_lt [Std.TransOrd κ] {k : κ} {l : List (κ × υ)}
    (h : ∀ b ∈ l, compare k b.1 = .lt) : lookup k l = none := by
  cases l with
  | nil => rfl
  | cons a rest => simp [lookup, h a List.mem_cons_self]

theorem lookup_alterList [Std.TransOrd κ] [Std.LawfulEqOrd κ] (k j : κ)
    (f : Option υ → Option υ) {l : List (κ × υ)}
    (h : l.Pairwise (fun a b => compare a.1 b.1 = .lt)) :
    lookup j (alterList k f l) = if compare k j = .eq then f (lookup k l) else lookup j l := by
  induction l with
  | nil =>
    simp only [alterList, lookup]
    cases hf : f none with
    | none => simp [lookup]
    | some w =>
      by_cases hj : compare k j = .eq
      · simp [lookup, hj, Std.OrientedCmp.eq_symm hj]
      · have : compare j k ≠ .eq := fun e => hj (Std.OrientedCmp.eq_symm e)
        simp only [lookup, hj, if_false]
        split <;> simp_all
  | cons a rest ih =>
    obtain ⟨k', v⟩ := a
    obtain ⟨hlt, hrest⟩ := List.pairwise_cons.1 h
    have ih := ih hrest
    by_cases hj : compare k j = .eq
    · obtain rfl := Std.LawfulEqOrd.eq_of_compare hj
      have hkk : compare k k = .eq := Std.ReflCmp.compare_self
      simp only [hkk, if_true] at ih ⊢
      simp only [alterList, lookup]
      cases hc : compare k k' with
      | lt => cases hf : f none <;> simp [lookup, hc]
      | eq =>
        obtain rfl := Std.LawfulEqOrd.eq_of_compare hc
        cases hf : f (some v) with
        | none => simp [lookup_eq_none_of_lt hlt]
        | some w => simp [lookup]
      | gt => simp [lookup, hc, ih]
    · simp only [hj, if_false] at ih ⊢
      simp only [alterList]
      cases hc : compare k k' with
      | lt =>
        cases hf : f none with
        | none => rfl
        | some w =>
          have hne : compare j k ≠ .eq := fun e => hj (Std.OrientedCmp.eq_symm e)
          simp only [lookup]
          cases hjk : compare j k with
          | lt =>
            have : compare j k' = .lt := Std.TransCmp.lt_trans hjk hc
            simp [this]
          | eq => exact absurd hjk hne
          | gt => rfl
      | eq =>
        obtain rfl := Std.LawfulEqOrd.eq_of_compare hc
        have hne : compare j k ≠ .eq := fun e => hj (Std.OrientedCmp.eq_symm e)
        cases hf : f (some v) with
        | none =>
          simp only [lookup]
          cases hjk : compare j k with
          | lt =>
            exact lookup_eq_none_of_lt (fun b hb => Std.TransCmp.lt_trans hjk (hlt b hb))
          | eq => exact absurd hjk hne
          | gt => rfl
        | some w => simp only [lookup]; cases hjk : compare j k <;> simp_all
      | gt => simp only [lookup]; rw [ih]

theorem get?_alter [Std.TransOrd κ] [Std.LawfulEqOrd κ] [DecidableEq κ] (m : OrderedMap κ υ)
    (k j : κ) (f : Option υ → Option υ) :
    (m.alter k f).get? j = if k = j then f (m.get? k) else m.get? j := by
  have := lookup_alterList k j f m.ascending
  simp only [get?, alter, this, Std.LawfulEqOrd.compare_eq_iff_eq]

@[simp] theorem get?_empty (k : κ) : (empty : OrderedMap κ υ).get? k = none := rfl

theorem get?_insert [Std.TransOrd κ] [Std.LawfulEqOrd κ] [DecidableEq κ] (m : OrderedMap κ υ)
    (k j : κ) (v : υ) : (m.insert k v).get? j = if k = j then some v else m.get? j :=
  get?_alter m k j _

theorem contains_insert [Std.TransOrd κ] [Std.LawfulEqOrd κ] [DecidableEq κ]
    (m : OrderedMap κ υ) (k j : κ) (v : υ) :
    (m.insert k v).contains j = (decide (k = j) || m.contains j) := by
  rw [contains, contains, get?_insert]
  by_cases h : k = j <;> simp [h]

/-! ## Sizes -/

theorem length_alterList_some (k : κ) (v : υ) (l : List (κ × υ)) :
    (alterList k (fun _ => some v) l).length =
      if (lookup k l).isSome then l.length else l.length + 1 := by
  induction l with
  | nil => rfl
  | cons a rest ih =>
    obtain ⟨k', w⟩ := a
    cases hc : compare k k' with
    | lt => simp [alterList, lookup, hc]
    | eq => simp [alterList, lookup, hc]
    | gt =>
      simp only [alterList, lookup, hc, List.length_cons, ih]
      split <;> rfl

/-- To bind a new key makes the map greater by one. -/
theorem size_insert [Std.TransOrd κ] (m : OrderedMap κ υ) (k : κ) (v : υ) :
    (m.insert k v).size = if (m.get? k).isSome then m.size else m.size + 1 :=
  length_alterList_some k v m.toList

/-! ## Equality by look-ups -/

theorem mem_of_lookup [Std.LawfulEqOrd κ] {k : κ} {v : υ} {l : List (κ × υ)}
    (h : lookup k l = some v) : (k, v) ∈ l := by
  induction l with
  | nil => simp [lookup] at h
  | cons a rest ih =>
    obtain ⟨k', w⟩ := a
    simp only [lookup] at h
    cases hc : compare k k' with
    | lt => simp [hc] at h
    | eq =>
      obtain rfl := Std.LawfulEqOrd.eq_of_compare hc
      simp only [hc, Option.some.injEq] at h
      simp [h]
    | gt => exact List.mem_cons_of_mem _ (ih (by simpa [hc] using h))

theorem lookup_of_mem [Std.TransOrd κ] {k : κ} {v : υ} {l : List (κ × υ)}
    (hl : l.Pairwise (fun a b => compare a.1 b.1 = .lt)) (h : (k, v) ∈ l) :
    lookup k l = some v := by
  induction l with
  | nil => simp at h
  | cons a rest ih =>
    obtain ⟨hlt, hrest⟩ := List.pairwise_cons.1 hl
    rcases List.mem_cons.1 h with rfl | h
    · simp [lookup]
    · have : compare k a.1 = .gt := Std.OrientedCmp.gt_of_lt (hlt _ h)
      simp [lookup, this, ih hrest h]

/-- A binding is listed exactly if a look-up finds it. -/
theorem mem_toList_iff [Std.TransOrd κ] [Std.LawfulEqOrd κ] {m : OrderedMap κ υ} {k : κ}
    {v : υ} : (k, v) ∈ m.toList ↔ m.get? k = some v :=
  ⟨lookup_of_mem m.ascending, mem_of_lookup⟩

theorem eq_of_lookup_eq [Std.TransOrd κ] [Std.LawfulEqOrd κ] :
    {l l' : List (κ × υ)} → l.Pairwise (fun a b => compare a.1 b.1 = .lt) →
    l'.Pairwise (fun a b => compare a.1 b.1 = .lt) → (∀ k, lookup k l = lookup k l') → l = l'
  | [], [], _, _, _ => rfl
  | [], (k, v) :: rest, _, hl', h => by
    have := lookup_of_mem hl' (List.mem_cons_self : (k, v) ∈ (k, v) :: rest)
    rw [← h] at this
    simp [lookup] at this
  | (k, v) :: rest, [], hl, _, h => by
    have := lookup_of_mem hl (List.mem_cons_self : (k, v) ∈ (k, v) :: rest)
    rw [h] at this
    simp [lookup] at this
  | (k, v) :: rest, (k', v') :: rest', hl, hl', h => by
    have hk := lookup_of_mem hl (List.mem_cons_self : (k, v) ∈ (k, v) :: rest)
    have hk' := lookup_of_mem hl' (List.mem_cons_self : (k', v') ∈ (k', v') :: rest')
    obtain ⟨hlt, hrest⟩ := List.pairwise_cons.1 hl
    obtain ⟨hlt', hrest'⟩ := List.pairwise_cons.1 hl'
    have hmem := mem_of_lookup ((h k) ▸ hk)
    have hmem' := mem_of_lookup ((h k').symm ▸ hk')
    have hself : ∀ j : κ, compare j j = .eq := fun _ => Std.ReflCmp.compare_self
    have heq : k = k' := by
      rcases List.mem_cons.1 hmem with e | hm
      · exact congrArg (·.1) e
      · rcases List.mem_cons.1 hmem' with e | hm'
        · exact (congrArg (·.1) e).symm
        · have h1 := hlt' _ hm
          have h2 := hlt _ hm'
          have h3 : compare k k = .lt := Std.TransCmp.lt_trans h2 h1
          rw [hself] at h3
          exact absurd h3 (by decide)
    subst heq
    have hv : v = v' := by
      rw [h k, hk'] at hk
      exact (Option.some.inj hk).symm
    subst hv
    congr 1
    refine eq_of_lookup_eq hrest hrest' (fun j => ?_)
    have hj := h j
    simp only [lookup] at hj
    cases hc : compare j k with
    | lt =>
      rw [lookup_eq_none_of_lt (fun b hb => Std.TransCmp.lt_trans hc (hlt b hb)),
        lookup_eq_none_of_lt (fun b hb => Std.TransCmp.lt_trans hc (hlt' b hb))]
    | eq =>
      obtain rfl := Std.LawfulEqOrd.eq_of_compare hc
      rw [lookup_eq_none_of_lt hlt, lookup_eq_none_of_lt hlt']
    | gt => simpa [hc] using hj

/-- No key is bound twice. -/
theorem nodup_keys [Std.TransOrd κ] (m : OrderedMap κ υ) : m.keys.Nodup := by
  rw [keys, List.nodup_iff_pairwise_ne, List.pairwise_map]
  refine m.ascending.imp fun {a b} hlt heq => ?_
  have hself : compare b.1 b.1 = .eq := Std.ReflCmp.compare_self
  rw [heq, hself] at hlt
  exact absurd hlt (by decide)

/-- A key is bound exactly if it is listed. -/
theorem mem_keys_iff [Std.TransOrd κ] [Std.LawfulEqOrd κ] {m : OrderedMap κ υ} {k : κ} :
    k ∈ m.keys ↔ (m.get? k).isSome = true := by
  rw [keys, List.mem_map, Option.isSome_iff_exists]
  constructor
  · rintro ⟨⟨k, v⟩, hmem, rfl⟩
    exact ⟨v, mem_toList_iff.mp hmem⟩
  · rintro ⟨v, hv⟩
    exact ⟨(k, v), mem_toList_iff.mpr hv, rfl⟩

/-- The keys are listed in ascending order. -/
theorem pairwise_keys (m : OrderedMap κ υ) : m.keys.Pairwise (fun a b => compare a b = .lt) :=
  List.pairwise_map.mpr m.ascending

/-- Ascending lists of the same keys are equal. -/
theorem eq_of_pairwise_keys [Std.TransOrd κ] {ks js : List κ}
    (hks : ks.Pairwise (fun a b => compare a b = .lt))
    (hjs : js.Pairwise (fun a b => compare a b = .lt)) (h : ∀ k, k ∈ ks ↔ k ∈ js) : ks = js := by
  refine eq_of_pairwise_of_mem_iff (fun a b hab hba => ?_) hks hjs h
  have hself : compare a a = .eq := Std.ReflCmp.compare_self
  rw [Std.TransCmp.lt_trans hab hba] at hself
  cases hself

/-- Two maps that agree on every look-up are equal. -/
theorem ext_get? [Std.TransOrd κ] [Std.LawfulEqOrd κ] {m m' : OrderedMap κ υ}
    (h : ∀ k, m.get? k = m'.get? k) : m = m' := by
  obtain ⟨l, hl⟩ := m
  obtain ⟨l', hl'⟩ := m'
  have := eq_of_lookup_eq hl hl' h
  subst this
  rfl

/-- Binding a key to what it is bound to already changes nothing. -/
theorem insert_eq_self [Std.TransOrd κ] [Std.LawfulEqOrd κ] [DecidableEq κ] {m : OrderedMap κ υ}
    {k : κ} {v : υ} (h : m.get? k = some v) : m.insert k v = m := by
  apply ext_get?
  intro j
  rw [get?_insert]
  split
  · next hk => rw [← hk, h]
  · rfl

/-- A value is listed exactly if some key is bound to it. -/
theorem mem_values_iff [Std.TransOrd κ] [Std.LawfulEqOrd κ] {m : OrderedMap κ υ} {v : υ} :
    v ∈ m.values ↔ ∃ k, m.get? k = some v := by
  simp only [values, List.mem_map]
  constructor
  · rintro ⟨⟨k, _⟩, hmem, rfl⟩
    exact ⟨k, mem_toList_iff.mp hmem⟩
  · rintro ⟨k, h⟩
    exact ⟨(k, v), mem_toList_iff.mpr h, rfl⟩

/-! ## Filters and lists of pairs -/

theorem get?_filter [Std.TransOrd κ] [Std.LawfulEqOrd κ] (m : OrderedMap κ υ)
    (p : κ → υ → Bool) (k : κ) : (m.filter p).get? k = (m.get? k).filter (p k) := by
  ext v
  rw [Option.filter_eq_some_iff, ← mem_toList_iff, ← mem_toList_iff]
  exact List.mem_filter

section OfList

variable [Std.TransOrd κ] [Std.LawfulEqOrd κ] [DecidableEq κ] {l : List (κ × υ)} {k : κ}

theorem isSome_get?_foldl_insert (m : OrderedMap κ υ) :
    ((l.foldl (fun m b => m.insert b.1 b.2) m).get? k).isSome = true ↔
      k ∈ l.map (·.1) ∨ (m.get? k).isSome = true := by
  induction l generalizing m with
  | nil => simp
  | cons b rest ih =>
    rw [List.foldl_cons, ih, get?_insert, List.map_cons, List.mem_cons]
    by_cases hk : b.1 = k
    · simp [hk]
    · simp [hk, Ne.symm hk]

/-- The keys of a map are those of the pairs it is made of. -/
theorem isSome_get?_ofList : ((ofList l).get? k).isSome = true ↔ k ∈ l.map (·.1) := by
  rw [ofList, isSome_get?_foldl_insert]
  simp

theorem get?_foldl_insert_eq_some_iff (h : (l.map (·.1)).Nodup) (m : OrderedMap κ υ) {v : υ} :
    (l.foldl (fun m b => m.insert b.1 b.2) m).get? k = some v ↔
      (k, v) ∈ l ∨ k ∉ l.map (·.1) ∧ m.get? k = some v := by
  induction l generalizing m with
  | nil => simp
  | cons b rest ih =>
    obtain ⟨hapart, hrest⟩ := List.nodup_cons.mp h
    rw [List.foldl_cons, ih hrest, get?_insert, List.map_cons, List.mem_cons, List.mem_cons]
    by_cases hk : b.1 = k
    · subst hk
      have hout : (b.1, v) ∉ rest := fun hmem =>
        hapart (List.mem_map_of_mem (f := (·.1)) hmem)
      simp only [hout, hapart, if_pos, Prod.ext_iff, not_false_eq_true, true_and, false_or,
        or_false, not_true_eq_false, false_and, Option.some.injEq]
      exact eq_comm
    · simp [hk, Ne.symm hk, Prod.ext_iff]

/-- Where no key is listed twice, each is bound to what it is listed with. -/
theorem get?_ofList_eq_some_iff (h : (l.map (·.1)).Nodup) {v : υ} :
    (ofList l).get? k = some v ↔ (k, v) ∈ l := by
  rw [ofList, get?_foldl_insert_eq_some_iff h]
  simp

/-- An ascending list of pairs is the list of its map. -/
theorem ofList_eq_mk (h : l.Pairwise (fun a b => compare a.1 b.1 = .lt)) : ofList l = ⟨l, h⟩ := by
  have hnodup : (l.map (·.1)).Nodup := (⟨l, h⟩ : OrderedMap κ υ).nodup_keys
  apply ext_get?
  intro k
  ext v
  rw [get?_ofList_eq_some_iff hnodup, ← mem_toList_iff]

theorem mem_of_get?_foldl_insert {m : OrderedMap κ υ} {v : υ}
    (h : (l.foldl (fun m b => m.insert b.1 b.2) m).get? k = some v) :
    (k, v) ∈ l ∨ m.get? k = some v := by
  induction l generalizing m with
  | nil => exact .inr h
  | cons b rest ih =>
    rcases ih h with hmem | hm
    · exact .inl (List.mem_cons_of_mem _ hmem)
    · rw [get?_insert] at hm
      split at hm
      case isTrue hk =>
        obtain rfl := Option.some.inj hm
        exact .inl (hk ▸ List.mem_cons_self)
      case isFalse => exact .inr hm

/-- What a map lists was listed when it was made. -/
theorem mem_of_mem_toList_ofList {b : κ × υ} (h : b ∈ (ofList l).toList) : b ∈ l := by
  rcases mem_of_get?_foldl_insert (mem_toList_iff.mp h) with hmem | hempty
  · exact hmem
  · exact nomatch hempty

/-- Where no key is listed twice, a map lists all it was made of. -/
theorem toList_ofList_perm (h : (l.map (·.1)).Nodup) : (ofList l).toList.Perm l := by
  have hnodup {xs : List (κ × υ)} (hxs : (xs.map (·.1)).Nodup) : xs.Nodup :=
    (List.pairwise_map.mp hxs).imp fun hne heq => hne (congrArg (·.1) heq)
  refine (List.perm_ext_iff_of_nodup (hnodup (ofList l).nodup_keys) (hnodup h)).mpr fun b => ?_
  exact mem_toList_iff.trans (get?_ofList_eq_some_iff h)

/-- It does not matter in which order the pairs of a map are listed. -/
theorem ofList_eq_of_perm {m : OrderedMap κ υ} (h : l.Perm m.toList) : ofList l = m := by
  have hnodup : (l.map (·.1)).Nodup := ((h.map _).nodup_iff).mpr m.nodup_keys
  apply ext_get?
  intro k
  ext v
  rw [get?_ofList_eq_some_iff hnodup, ← mem_toList_iff, h.mem_iff]

end OfList

end OrderedMap

end Stockroom
