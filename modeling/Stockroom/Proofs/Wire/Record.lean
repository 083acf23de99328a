/-
Stockroom.Proofs.Wire.Record — records are read back from the objects they are written as.

* `InRange`: the numbers of a value lie in the ranges they are written in. Quantities have 64 bits
  with a sign, line numbers 32, counts 64 bits without one; a value without numbers is in range.
* `ReadsBack d a`: the JSON form of `a` is plain, with the depth `d`, and `a` is read back from it,
  in whichever order its members stand. `Faithful α d` says so of all values in range.
* `Holds j ms`: `j` is an object with the members `ms`, each with a name of its own, in some order.
  `Members.find?_cons` looks for one of them, so that `simp` can read a record that is written out.
* `ReadsBack.ofRecord`: what is left to show of a record is that each of its members is plain and
  that together they give the value again; `ReadsBack.ofTagged` is the same for tagged records.
  `mapOf?_ofMap` reads maps with text keys.
-/
import Mathlib.Data.List.Nodup
import Stockroom.Data.Sorting
import Stockroom.Proofs.Calendar
import Stockroom.Proofs.Json.Order
import Stockroom.Wire.Stock

namespace Stockroom

open Wire

/-- Types whose values may hold numbers. -/
class Ranged (α : Type) where
  /-- Whether the numbers of a value lie in the ranges they are written in. -/
  InRange : α → Prop

export Ranged (InRange)

/-- A value without numbers is in range. -/
instance (priority := low) Ranged.unbounded {α : Type} : Ranged α := ⟨fun _ => True⟩

instance instRangedList {α : Type} [Ranged α] : Ranged (List α) := ⟨fun as => ∀ a ∈ as, InRange a⟩

instance instRangedOption {α : Type} [Ranged α] : Ranged (Option α) := ⟨fun o => ∀ a ∈ o, InRange a⟩

section Unbounded

variable {α : Type}

@[simp] theorem inRange_unbounded (a : α) : Ranged.unbounded.InRange a := trivial

@[simp] theorem inRange_list_unbounded (as : List α) :
    (@instRangedList α Ranged.unbounded).InRange as := fun _ _ => trivial

@[simp] theorem inRange_option_unbounded (o : Option α) :
    (@instRangedOption α Ranged.unbounded).InRange o := fun _ _ => trivial

end Unbounded

/-- Whether a value is read back from its JSON form, in which arrays and objects are nested at most
`depth` deep, in whichever order its members stand. -/
def ReadsBack {α : Type} [JsonForm α] (depth : Nat) (a : α) : Prop :=
  (toJson a).isPlain depth = true ∧ ∀ o : MemberOrder, ofJson? ((toJson a).inOrder o) = some a

/-- Types whose values in range are read back from their JSON form. -/
class Faithful (α : Type) [JsonForm α] [Ranged α] (depth : outParam Nat) : Prop where
  readsBack : ∀ a : α, InRange a → ReadsBack depth a

/-- A type whose values are written as texts, from which they are read back. -/
theorem Faithful.ofText {α : Type} [JsonForm α] [Ranged α] {t : α → String}
    (read : String → Option α) (hwrite : ∀ a : α, toJson a = .string (t a))
    (hof : ∀ s, ofJson? (.string s) = (some s).bind read) (hread : ∀ a : α, read (t a) = some a) :
    Faithful α 0 := by
  refine ⟨fun a _ => ⟨?_, fun o => ?_⟩⟩
  · rw [hwrite]
    rfl
  · rw [hwrite, Json.inOrder_string, hof, Option.bind_some, hread]

/-- Types none of whose values is written as null, so that an optional value that is there is not
taken for one that is missing. -/
class NeverNull (α : Type) [JsonForm α] : Prop where
  toJson_ne_null : ∀ a : α, toJson a ≠ .null

theorem NeverNull.ofText {α : Type} [JsonForm α] {text : α → String}
    (hwrite : ∀ a : α, toJson a = .string (text a)) : NeverNull α where
  toJson_ne_null a h := by
    rw [hwrite] at h
    exact nomatch h

namespace Wire

/-! ## Looking for a member -/

section Look

variable {α : Type} {ms ms' : Members} {n name : String} {j : Json}

@[simp] theorem Members.find?_cons : Members.find? ((n, j) :: ms) name =
    if n = name then some j else Members.find? ms name := by
  unfold Members.find?
  rw [List.find?_cons]
  by_cases h : n = name
  · simp [h]
  · have hne : (n == name) = false := by simpa using h
    simp [hne, h]

@[simp] theorem Members.required_eq (read : Json → Option α) :
    ms.required name read = (ms.find? name).bind read := rfl

@[simp] theorem Members.get_eq [JsonForm α] :
    ms.get (α := α) name = (ms.find? name).bind ofJson? := rfl

/-- An optional member that is there is read as an optional value. -/
@[simp] theorem Members.get?_eq [JsonForm α] : ms.get? (α := α) name =
    ((ms.find? name).map (ofJson? (α := Option α))).getD (some none) := by
  unfold Members.get? Members.optional
  cases ms.find? name with
  | none => rfl
  | some j => cases j <;> rfl

theorem Members.find?_eq_of_perm (h : ms'.Perm ms) (hnodup : (ms.map (·.1)).Nodup)
    (name : String) : Members.find? ms' name = Members.find? ms name :=
  congrArg (Option.map Prod.snd) (find?_key_eq_of_perm h.symm hnodup name).symm

theorem Members.countOf_le_one (hnodup : (ms.map (·.1)).Nodup) : Members.countOf ms name ≤ 1 := by
  have hcount : Members.countOf ms name = (ms.map (·.1)).count name := by
    simp [Members.countOf, List.count, List.countP_map, Function.comp_def]
  rw [hcount]
  exact List.nodup_iff_count_le_one.mp hnodup name

end Look

/-! ## Plain values -/

section Plain

variable {d : Nat} {n : Int}

@[simp] theorem isPlain_string (s : String) : (Json.string s).isPlain d = true := rfl

@[simp] theorem isPlain_bool (b : Bool) : (Json.bool b).isPlain d = true := rfl

@[simp] theorem isPlain_signed64 (h : IntegerRange.signed64.contains n = true) :
    (Json.integer n).isPlain d = true := by simp [Json.isPlain, h]

@[simp] theorem isPlain_signed32 (h : IntegerRange.signed32.contains n = true) :
    (Json.integer n).isPlain d = true := by
  refine isPlain_signed64 ?_
  simp only [IntegerRange.contains_iff, IntegerRange.signed32, IntegerRange.signed64] at h ⊢
  omega

@[simp] theorem isPlain_ofCount {n : Nat} (h : IntegerRange.unsigned64.contains n = true) :
    (ofCount n).isPlain d = true := by simp [Json.isPlain, ofCount, h]

@[simp] theorem inOrder_ofCount {o : MemberOrder} (n : Nat) : (ofCount n).inOrder o = ofCount n :=
  Json.inOrder_integer n

@[simp] theorem int64?_integer (h : IntegerRange.signed64.contains n = true) :
    int64? (.integer n) = some n := by simp [int64?, integerIn?, h]

@[simp] theorem int32?_integer (h : IntegerRange.signed32.contains n = true) :
    int32? (.integer n) = some n := by simp [int32?, integerIn?, h]

@[simp] theorem count?_ofCount {n : Nat} (h : IntegerRange.unsigned64.contains n = true) :
    count? (ofCount n) = some n := by simp [count?, ofCount, integerIn?, h]

@[simp] theorem ofJson?_string (s : String) : ofJson? (Json.string s) = some s := rfl

@[simp] theorem ofJson?_bool (b : Bool) : ofJson? (Json.bool b) = some b := rfl

end Plain

/-! ## Records in any order -/

/-- Whether a value is an object with the given members, each with a name of its own, in whichever
order. -/
def Holds (j : Json) (ms : Members) : Prop :=
  (ms.map (·.1)).Nodup ∧ ∃ ms', j = .object ms' ∧ ms'.Perm ms

section Records

variable {β : Type} {names : List String} {ms : Members} {name tag : String} {j : Json}
  {o : MemberOrder}

theorem Holds.inOrder (hnodup : (ms.map (·.1)).Nodup) :
    Holds ((Json.object ms).inOrder o) (ms.map (fun m => (m.1, m.2.inOrder o))) := by
  have hnodup : ((ms.map (fun m => (m.1, m.2.inOrder o))).map (·.1)).Nodup := by
    rw [List.map_map]
    exact hnodup
  refine ⟨hnodup, ?_⟩
  cases o with
  | asWritten => exact ⟨ms, rfl, .of_eq (List.map_id ms).symm⟩
  | byName => exact ⟨_, Json.sorted_object, OrderedMap.toList_ofList_perm hnodup⟩

/-- In a record the same members are found as among those it holds. -/
theorem record?_bind {f : Members → Option β} {b : β} (hj : Holds j ms)
    (h : ∀ ms' : Members, (∀ name, ms'.find? name = ms.find? name) → f ms' = some b) :
    (record? names j >>= f) = some b := by
  obtain ⟨hnodup, ms', rfl, hperm⟩ := hj
  have hnodup' : (ms'.map (·.1)).Nodup := ((hperm.map _).nodup_iff).mpr hnodup
  have hms' : record? names (.object ms') = some ms' := by
    simp [record?, Members.countOf_le_one hnodup']
  rw [hms']
  exact h ms' (Members.find?_eq_of_perm hperm hnodup)

theorem isPlain_object {d : Nat} (h : ∀ m ∈ ms, m.2.isPlain d = true) :
    (Json.object ms).isPlain (d + 1) = true := by
  rw [Json.isPlain, Nat.add_sub_cancel, Json.havePlain_iff.mpr h]
  simp

/-- Without its tag, a tagged record is an object with the members written after the tag. -/
theorem tagged?_inOrder {d : Nat} (hplain : (tagged tag name ms).isPlain d = true)
    (hnodup : (tag :: ms.map (·.1)).Nodup) :
    ∃ j, Holds j (ms.map (fun m => (m.1, m.2.inOrder o))) ∧
      tagged? tag ((tagged tag name ms).inOrder o) = some (name, j) := by
  have hreadable := Json.isReadable_of_isPlain _ (Json.isPlain_inOrder hplain o)
  obtain ⟨hnodup, ms', hobject, hperm⟩ : Holds ((tagged tag name ms).inOrder o) _ :=
    Holds.inOrder hnodup
  rw [List.map_cons, Json.inOrder_string] at hnodup hperm
  obtain ⟨hfresh, hrest⟩ := List.nodup_cons.mp hnodup
  have htag : ∀ m ∈ ms.map (fun m => (m.1, m.2.inOrder o)), m.1 ≠ tag := fun m hm heq =>
    hfresh (List.mem_map.mpr ⟨m, hm, heq⟩)
  have hcount : Members.countOf ms' tag = 1 := by
    rw [Members.countOf, hperm.countP_eq, List.countP_cons_of_pos (by simp),
      List.countP_eq_zero.mpr (by simpa using htag)]
  have hname : Members.find? ms' tag = some (.string name) := by
    rw [Members.find?_eq_of_perm hperm hnodup, Members.find?_cons, if_pos rfl]
  refine ⟨.object (ms'.filter (fun m => m.1 != tag)), ⟨hrest, _, rfl, ?_⟩, ?_⟩
  -- no member behind the tag has its name, so the filter takes off the tag alone
  · refine (hperm.filter _).trans (.of_eq ?_)
    rw [List.filter_cons_of_neg (by simp), List.filter_eq_self.mpr (by simpa using htag)]
  · rw [tagged?, if_pos hreadable, hobject, split?]
    simp [hcount, hname]

end Records

section Faithful

variable {α : Type} [JsonForm α] [Ranged α] {depth : Nat} {a : α} {d : Nat} {o : MemberOrder}

@[simp] theorem isPlain_toJson [Faithful α depth] (h : InRange a) (hd : depth ≤ d) :
    (toJson a).isPlain d = true := Json.isPlain_mono hd _ (Faithful.readsBack a h).1

@[simp] theorem ofJson?_inOrder [Faithful α depth] (h : InRange a) :
    ofJson? ((toJson a).inOrder o) = some a :=
  (Faithful.readsBack a h).2 o

end Faithful

/-! ## Lists, optional values, maps -/

section Containers

variable {α : Type} [JsonForm α] [Ranged α] {depth : Nat} [Faithful α depth]

instance : Faithful (List α) (depth + 1) where
  readsBack as h := by
    constructor
    · have hitems : ∀ j ∈ as.map toJson, j.isPlain depth = true := by
        rw [List.forall_mem_map]
        exact fun a ha => isPlain_toJson (h a ha) (Nat.le_refl _)
      show Json.isPlain _ (.array (as.map toJson)) = true
      rw [Json.isPlain, Nat.add_sub_cancel, Json.arePlain_iff.mpr hitems]
      simp
    · intro o
      show ofJson? ((Json.array (as.map toJson)).inOrder o) = some as
      rw [Json.inOrder_array, List.map_map]
      show all? ofJson? (as.map (Json.inOrder o ∘ toJson)) = some as
      induction as with
      | nil => rfl
      | cons a rest ih =>
        obtain ⟨ha, hrest⟩ := List.forall_mem_cons.mp h
        simp [all?, ofJson?_inOrder ha, ih hrest]

instance [NeverNull α] : Faithful (Option α) depth where
  readsBack x h := by
    cases x with
    | none => exact ⟨rfl, fun o => congrArg ofJson? Json.inOrder_null⟩
    | some a =>
      refine ⟨(Faithful.readsBack a (h a rfl)).1, fun o => ?_⟩
      have hread : (ofJson? ((toJson a).inOrder o)).map some = some (some a) := by
        rw [ofJson?_inOrder (h a rfl), Option.map_some]
      have hne : (toJson a).inOrder o ≠ .null := Json.inOrder_ne_null (NeverNull.toJson_ne_null a)
      show ofJson? (α := Option α) ((toJson a).inOrder o) = some (some a)
      generalize (toJson a).inOrder o = j at hread hne
      cases j <;> first | exact absurd rfl hne | exact hread

end Containers

section Maps

variable {κ υ : Type} [Ord κ] {keyText : κ → String} {write : υ → Json}

theorem isPlain_ofMap {d : Nat} (m : OrderedMap κ υ)
    (hvalues : ∀ v ∈ m.values, (write v).isPlain d = true) :
    (ofMap keyText write m).isPlain (d + 1) = true := by
  refine isPlain_object fun b hb => ?_
  obtain ⟨c, hc, rfl⟩ := List.mem_map.mp hb
  exact hvalues c.2 (List.mem_map_of_mem hc)

theorem mapM_eq_some_filterMap {α β : Type} {f : α → Option β} {l : List α}
    (h : ∀ a ∈ l, (f a).isSome = true) : l.mapM f = some (l.filterMap f) := by
  induction l with
  | nil => rfl
  | cons a rest ih =>
    obtain ⟨ha, hrest⟩ := List.forall_mem_cons.mp h
    obtain ⟨b, hb⟩ := Option.isSome_iff_exists.mp ha
    simp [hb, ih hrest]

variable [Std.TransOrd κ] [Std.LawfulEqOrd κ] [DecidableEq κ] {key : String → Option κ}
  {read : Json → Option υ} {o : MemberOrder}

/-- A map is read back from its bindings, in whichever order they are listed. -/
theorem mapOf?_ofMap (hkey : ∀ k, key (keyText k) = some k) (m : OrderedMap κ υ)
    (hread : ∀ v ∈ m.values, read ((write v).inOrder o) = some v) :
    mapOf? key read ((ofMap keyText write m).inOrder o) = some m := by
  have hinjective : Function.Injective keyText := fun k k' h =>
    Option.some.inj ((hkey k).symm.trans ((congrArg key h).trans (hkey k')))
  have hnodup : ((m.toList.map (fun b => (keyText b.1, write b.2))).map (·.1)).Nodup := by
    have hkeys := m.nodup_keys.map hinjective
    rw [OrderedMap.keys, List.map_map] at hkeys
    rwa [List.map_map]
  obtain ⟨-, ms, hobject, hperm⟩ : Holds ((ofMap keyText write m).inOrder o) _ :=
    Holds.inOrder hnodup
  rw [List.map_map] at hperm
  -- each member gives the binding it was written for
  have hmember : ∀ b ∈ m.toList, (do
      let k ← key (keyText b.1)
      let v ← read ((write b.2).inOrder o)
      pure (k, v)) = some b := by
    intro b hb
    rw [hkey, hread b.2 (List.mem_map_of_mem hb)]
    rfl
  rw [hobject, mapOf?, mapM_eq_some_filterMap]
  · refine congrArg some (OrderedMap.ofList_eq_of_perm ((hperm.filterMap _).trans (.of_eq ?_)))
    rw [List.filterMap_map]
    exact (List.filterMap_congr hmember).trans List.filterMap_some
  · intro a ha
    obtain ⟨b, hb, rfl⟩ := List.mem_map.mp (hperm.mem_iff.mp ha)
    exact Option.isSome_iff_exists.mpr ⟨b, hmember b hb⟩

end Maps

end Wire

/-! ## What is left to show of a record -/

section ReadsBack

variable {α : Type} [JsonForm α] {depth : Nat} {a : α} {ms : Members}

/-- A value that is written as a record, from whose members it is made again. -/
theorem ReadsBack.ofRecord {names : List String} {make : Members → Option α}
    (hwrite : toJson a = .object ms) (hof : ∀ j, ofJson? j = record? names j >>= make)
    (hnodup : (ms.map (·.1)).Nodup) (hplain : ∀ m ∈ ms, m.2.isPlain depth = true)
    (hmake : ∀ (o : MemberOrder) (ms' : Members), (∀ name, ms'.find? name =
      Members.find? (ms.map (fun m => (m.1, m.2.inOrder o))) name) → make ms' = some a) :
    ReadsBack (depth + 1) a := by
  refine ⟨?_, fun o => ?_⟩
  · rw [hwrite]
    exact isPlain_object hplain
  · rw [hwrite, hof]
    exact record?_bind (.inOrder hnodup) (hmake o)

/-- A value that is written as a tagged record, from what follows whose tag it is made again. -/
theorem ReadsBack.ofTagged {tag name : String} {make : String × Json → Option α}
    (hwrite : toJson a = tagged tag name ms) (hof : ∀ j, ofJson? j = tagged? tag j >>= make)
    (hnodup : (tag :: ms.map (·.1)).Nodup) (hplain : ∀ m ∈ ms, m.2.isPlain depth = true)
    (hmake : ∀ (o : MemberOrder) (j : Json), Holds j (ms.map (fun m => (m.1, m.2.inOrder o))) →
      make (name, j) = some a) :
    ReadsBack (depth + 1) a := by
  have htagged : (tagged tag name ms).isPlain (depth + 1) = true :=
    isPlain_object (List.forall_mem_cons.mpr ⟨rfl, hplain⟩)
  refine ⟨hwrite ▸ htagged, fun o => ?_⟩
  obtain ⟨j, hj, hread⟩ := tagged?_inOrder htagged hnodup
  rw [hwrite, hof, hread]
  exact hmake o j hj

end ReadsBack

end Stockroom
