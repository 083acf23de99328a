/-
Stockroom.Proofs.Json.Order — values whose members stand in the order of their names.

* `Json.inOrder o j`: the value with its members as they were written, or in the order of their
  names. Both ways it is plain if it was plain (`isPlain_inOrder`).
* To put a value in order twice is the same as once (`sorted_sorted`).
* `Json.isUnmarked`: no member has the name that marks a value given as text. Such a value has
  no part to be resolved, and neither has it in order.
-/
import Stockroom.Proofs.Json.Text

namespace Stockroom

/-- The orders in which the members of objects may stand. -/
inductive MemberOrder where
  | asWritten
  | byName
  deriving DecidableEq

namespace Json

/-- The value with the members of its objects in an order. -/
def inOrder (o : MemberOrder) (j : Json) : Json :=
  match o with
  | .asWritten => j
  | .byName => j.sorted

section InOrder

variable {o : MemberOrder}

@[simp] theorem inOrder_null : null.inOrder o = null := by cases o <;> rfl

@[simp] theorem inOrder_bool (b : Bool) : (bool b).inOrder o = bool b := by cases o <;> rfl

@[simp] theorem inOrder_integer (n : Int) : (integer n).inOrder o = integer n := by cases o <;> rfl

@[simp] theorem inOrder_string (s : String) : (string s).inOrder o = string s := by cases o <;> rfl

theorem inOrder_ne_null {j : Json} (h : j ≠ null) : j.inOrder o ≠ null := by
  cases o with
  | asWritten => exact h
  | byName => cases j <;> first | exact absurd rfl h | exact fun e => nomatch e

end InOrder

/-! ## Items and members one by one -/

section Members

variable {d : Nat} {js : List Json} {ms : List (String × Json)}

theorem sortedItems_eq_map : sortedItems js = js.map sorted := by
  induction js with
  | nil => rfl
  | cons j rest ih => rw [sortedItems, ih, List.map_cons]

theorem sortedMembers_eq_map : sortedMembers ms = ms.map (fun m => (m.1, m.2.sorted)) := by
  induction ms with
  | nil => rfl
  | cons m rest ih => rw [sortedMembers, ih, List.map_cons]

theorem arePlain_iff : arePlain d js = true ↔ ∀ j ∈ js, j.isPlain d = true := by
  induction js with
  | nil => simp [arePlain]
  | cons j rest ih => simp [arePlain, ih]

theorem havePlain_iff : havePlain d ms = true ↔ ∀ m ∈ ms, m.2.isPlain d = true := by
  induction ms with
  | nil => simp [havePlain]
  | cons m rest ih => simp [havePlain, ih]

theorem inOrder_array {o : MemberOrder} : (array js).inOrder o = array (js.map (inOrder o)) := by
  cases o with
  | asWritten => exact congrArg array (List.map_id js).symm
  | byName => exact congrArg array sortedItems_eq_map

theorem sorted_object : (object ms).sorted =
    object (OrderedMap.ofList (ms.map (fun m => (m.1, m.2.sorted)))).toList := by
  rw [sorted, sortedMembers_eq_map]

end Members

/-! ## In order, a value stays plain -/

mutual

theorem isPlain_sorted : ∀ (j : Json) {d : Nat}, j.isPlain d = true → j.sorted.isPlain d = true
  | null, _, h => h
  | bool _, _, h => h
  | integer _, _, h => h
  | string _, _, h => h
  | array items, d, h => by
    simp only [isPlain, sorted, Bool.and_eq_true] at h ⊢
    exact ⟨h.1, arePlain_sortedItems items h.2⟩
  | object members, d, h => by
    simp only [isPlain, sorted, Bool.and_eq_true] at h ⊢
    refine ⟨h.1, havePlain_iff.mpr fun m hm => ?_⟩
    have hmembers := havePlain_sortedMembers members h.2
    exact havePlain_iff.mp hmembers m (OrderedMap.mem_of_mem_toList_ofList hm)

theorem arePlain_sortedItems : ∀ (js : List Json) {d : Nat}, arePlain d js = true →
    arePlain d (sortedItems js) = true
  | [], _, _ => rfl
  | j :: rest, _, h => by
    simp only [arePlain, sortedItems, Bool.and_eq_true] at h ⊢
    exact ⟨isPlain_sorted j h.1, arePlain_sortedItems rest h.2⟩

theorem havePlain_sortedMembers : ∀ (ms : List (String × Json)) {d : Nat}, havePlain d ms = true →
    havePlain d (sortedMembers ms) = true
  | [], _, _ => rfl
  | (_, j) :: rest, _, h => by
    simp only [havePlain, sortedMembers, Bool.and_eq_true] at h ⊢
    exact ⟨isPlain_sorted j h.1, havePlain_sortedMembers rest h.2⟩

end

theorem isPlain_inOrder {j : Json} {d : Nat} (h : j.isPlain d = true) (o : MemberOrder) :
    (j.inOrder o).isPlain d = true := by
  cases o with
  | asWritten => exact h
  | byName => exact isPlain_sorted j h

/-! ## To put a value in order twice -/

mutual

@[simp] theorem sorted_sorted : ∀ j : Json, j.sorted.sorted = j.sorted
  | null => rfl
  | bool _ => rfl
  | integer _ => rfl
  | decimal _ => rfl
  | string _ => rfl
  | unreadable => rfl
  | array items => by rw [sorted, sorted, sortedItems_eq_map, sortedItems_sortedItems items]
  | object members => by
    have hsame : ∀ m ∈ (OrderedMap.ofList (sortedMembers members)).toList,
        (m.1, m.2.sorted) = id m := fun m hm =>
      Prod.ext rfl
        (sorted_of_mem_sortedMembers members m (OrderedMap.mem_of_mem_toList_ofList hm))
    rw [sorted, sorted_object, List.map_congr_left hsame, List.map_id,
      OrderedMap.ofList_eq_mk (OrderedMap.ascending _)]

theorem sortedItems_sortedItems : ∀ js : List Json, (sortedItems js).map sorted = sortedItems js
  | [] => rfl
  | j :: rest => by
    rw [sortedItems, List.map_cons, sorted_sorted j, sortedItems_sortedItems rest]

theorem sorted_of_mem_sortedMembers : ∀ (ms : List (String × Json)),
    ∀ m ∈ sortedMembers ms, m.2.sorted = m.2
  | [], m, hm => nomatch hm
  | (n, j) :: rest, m, hm => by
    rcases List.mem_cons.mp hm with rfl | hm
    · exact sorted_sorted j
    · exact sorted_of_mem_sortedMembers rest m hm

end

/-! ## Values without parts given as text -/

mutual

/-- Whether no member of an object has the name that marks a value given as text. -/
def isUnmarked : Json → Bool
  | array items => areUnmarked items
  | object members => haveUnmarked members
  | _ => true

/-- Whether no member of an object in the values has the name that marks a value given as text. -/
def areUnmarked : List Json → Bool
  | [] => true
  | j :: rest => isUnmarked j && areUnmarked rest

/-- Whether none of the members, and of those in their values, has the name that marks a value
given as text. -/
def haveUnmarked : List (String × Json) → Bool
  | [] => true
  | (n, j) :: rest => n != embeddedName && (isUnmarked j && haveUnmarked rest)

end

theorem haveUnmarked_iff {ms : List (String × Json)} :
    haveUnmarked ms = true ↔ ∀ m ∈ ms, m.1 ≠ embeddedName ∧ m.2.isUnmarked = true := by
  induction ms with
  | nil => simp [haveUnmarked]
  | cons m rest ih => simp [haveUnmarked, ih, and_assoc]

mutual

theorem isUnmarked_sorted : ∀ j : Json, j.isUnmarked = true → j.sorted.isUnmarked = true
  | null, h => h
  | bool _, h => h
  | integer _, h => h
  | decimal _, h => h
  | string _, h => h
  | unreadable, h => h
  | array items, h => areUnmarked_sortedItems items h
  | object members, h => by
    refine haveUnmarked_iff.mpr fun m hm => ?_
    have hmembers := haveUnmarked_sortedMembers members h
    exact haveUnmarked_iff.mp hmembers m (OrderedMap.mem_of_mem_toList_ofList hm)

theorem areUnmarked_sortedItems : ∀ js : List Json, areUnmarked js = true →
    areUnmarked (sortedItems js) = true
  | [], _ => rfl
  | j :: rest, h => by
    simp only [areUnmarked, sortedItems, Bool.and_eq_true] at h ⊢
    exact ⟨isUnmarked_sorted j h.1, areUnmarked_sortedItems rest h.2⟩

theorem haveUnmarked_sortedMembers : ∀ ms : List (String × Json), haveUnmarked ms = true →
    haveUnmarked (sortedMembers ms) = true
  | [], _ => rfl
  | (_, j) :: rest, h => by
    simp only [haveUnmarked, sortedMembers, Bool.and_eq_true] at h ⊢
    exact ⟨h.1, isUnmarked_sorted j h.2.1, haveUnmarked_sortedMembers rest h.2.2⟩

end

theorem isEmbedding_of_haveUnmarked {ms : List (String × Json)} (h : haveUnmarked ms = true) :
    isEmbedding ms = false := by
  cases ms with
  | nil => rfl
  | cons m rest =>
    have hname := (haveUnmarked_iff.mp h m List.mem_cons_self).1
    simp [isEmbedding, hname]

section Resolve

variable (valueOf : String → Json)

mutual

theorem resolveWith_of_isUnmarked : ∀ j : Json, j.isUnmarked = true → j.resolveWith valueOf = j
  | null, _ => rfl
  | bool _, _ => rfl
  | integer _, _ => rfl
  | decimal _, _ => rfl
  | string _, _ => rfl
  | unreadable, _ => rfl
  | array items, h => by rw [resolveWith, resolveItems_of_areUnmarked items h]
  | object members, h => by
    rw [resolveWith, isEmbedding_of_haveUnmarked h, resolveMembers_of_haveUnmarked members h]
    rfl

theorem resolveItems_of_areUnmarked : ∀ js : List Json, areUnmarked js = true →
    resolveItems valueOf js = js
  | [], _ => rfl
  | j :: rest, h => by
    simp only [areUnmarked, Bool.and_eq_true] at h
    rw [resolveItems, resolveWith_of_isUnmarked j h.1, resolveItems_of_areUnmarked rest h.2]

theorem resolveMembers_of_haveUnmarked : ∀ ms : List (String × Json), haveUnmarked ms = true →
    resolveMembers valueOf ms = ms
  | [], _ => rfl
  | (_, j) :: rest, h => by
    simp only [haveUnmarked, Bool.and_eq_true] at h
    rw [resolveMembers, resolveWith_of_isUnmarked j h.2.1,
      resolveMembers_of_haveUnmarked rest h.2.2]

end

end Resolve

end Json

end Stockroom
