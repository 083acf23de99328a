/-
Stockroom.Proofs.Json.Text — values are read back from their text.

* `Json.isPlain depth`: a value without doubles and without unreadable parts, whose integers
  have 64 bits and whose arrays and objects are nested at most `depth` deep.
* `Json.Ends rest`: what follows a value and cannot be taken for a part of a number. Only the
  closing brackets, commas and the end of the text come behind a value.
* `Json.value?_chars` takes a value off the front of any such text. Its two companions do so for
  items and for members; two steps for each character are enough for all three.
-/
import Stockroom.Json.Embedded
import Stockroom.Proofs.Identity
import Stockroom.Proofs.Text

namespace Stockroom.Json

/-! ## Plain values -/

mutual

/-- Whether a value has neither doubles nor unreadable parts, integers of 64 bits only, and
arrays and objects at most `depth` deep. -/
def isPlain (depth : Nat) : Json → Bool
  | null => true
  | bool _ => true
  | integer n => IntegerRange.signed64.contains n || IntegerRange.unsigned64.contains n
  | decimal _ => false
  | string _ => true
  | array items => decide (0 < depth) && arePlain (depth - 1) items
  | object members => decide (0 < depth) && havePlain (depth - 1) members
  | unreadable => false

/-- Whether all values are plain. -/
def arePlain (depth : Nat) : List Json → Bool
  | [] => true
  | j :: rest => isPlain depth j && arePlain depth rest

/-- Whether the values of all members are plain. -/
def havePlain (depth : Nat) : List (String × Json) → Bool
  | [] => true
  | (_, j) :: rest => isPlain depth j && havePlain depth rest

end

mutual

theorem isPlain_mono {d e : Nat} (hde : d ≤ e) : ∀ j : Json, j.isPlain d = true → j.isPlain e = true
  | .null, h => h
  | .bool _, h => h
  | .integer _, h => h
  | .string _, h => h
  | .array items, h => by
    simp only [isPlain, Bool.and_eq_true, decide_eq_true_eq] at h ⊢
    exact ⟨by omega, arePlain_mono (by omega) items h.2⟩
  | .object members, h => by
    simp only [isPlain, Bool.and_eq_true, decide_eq_true_eq] at h ⊢
    exact ⟨by omega, havePlain_mono (by omega) members h.2⟩

theorem arePlain_mono {d e : Nat} (hde : d ≤ e) :
    ∀ js : List Json, arePlain d js = true → arePlain e js = true
  | [], _ => rfl
  | j :: rest, h => by
    simp only [arePlain, Bool.and_eq_true] at h ⊢
    exact ⟨isPlain_mono hde j h.1, arePlain_mono hde rest h.2⟩

theorem havePlain_mono {d e : Nat} (hde : d ≤ e) :
    ∀ ms : List (String × Json), havePlain d ms = true → havePlain e ms = true
  | [], _ => rfl
  | (_, j) :: rest, h => by
    simp only [havePlain, Bool.and_eq_true] at h ⊢
    exact ⟨isPlain_mono hde j h.1, havePlain_mono hde rest h.2⟩

end

mutual

/-- A plain value can be read. -/
theorem isReadable_of_isPlain : ∀ (j : Json) {d : Nat}, j.isPlain d = true → j.isReadable = true
  | .null, _, _ => rfl
  | .bool _, _, _ => rfl
  | .integer _, _, _ => rfl
  | .string _, _, _ => rfl
  | .array items, _, h => by
    simp only [isPlain, Bool.and_eq_true] at h
    exact areReadable_of_arePlain items h.2
  | .object members, _, h => by
    simp only [isPlain, Bool.and_eq_true] at h
    exact haveReadable_of_havePlain members h.2

theorem areReadable_of_arePlain :
    ∀ (js : List Json) {d : Nat}, arePlain d js = true → areReadable js = true
  | [], _, _ => rfl
  | j :: rest, _, h => by
    simp only [arePlain, Bool.and_eq_true] at h
    simp only [areReadable, Bool.and_eq_true]
    exact ⟨isReadable_of_isPlain j h.1, areReadable_of_arePlain rest h.2⟩

theorem haveReadable_of_havePlain :
    ∀ (ms : List (String × Json)) {d : Nat}, havePlain d ms = true → haveReadable ms = true
  | [], _, _ => rfl
  | (_, j) :: rest, _, h => by
    simp only [havePlain, Bool.and_eq_true] at h
    simp only [haveReadable, Bool.and_eq_true]
    exact ⟨isReadable_of_isPlain j h.1, haveReadable_of_havePlain rest h.2⟩

end

/-! ## Strings -/

/-- A character is written with a letter, with four digits, or as it is. -/
theorem escapeChar_cases (c : Char) :
    (∃ e, escapeChar c = ['\\', e] ∧ shortEscape? e = some c ∧ e ≠ 'u') ∨
    (escapeChar c = '\\' :: 'u' :: Uuid.hexDigits 4 c.toNat ∧ c.toNat < 32) ∨
    (escapeChar c = [c] ∧ c ≠ '"' ∧ c ≠ '\\' ∧ 32 ≤ c.toNat) := by
  unfold escapeChar
  split
  case isTrue h => exact .inl ⟨'"', rfl, by rw [h]; rfl, by decide⟩
  case isFalse hquote =>
  split
  case isTrue h => exact .inl ⟨'\\', rfl, by rw [h]; rfl, by decide⟩
  case isFalse hbackslash =>
  split
  case isTrue h => exact .inl ⟨'n', rfl, by rw [h]; rfl, by decide⟩
  split
  case isTrue h => exact .inl ⟨'r', rfl, by rw [h]; rfl, by decide⟩
  split
  case isTrue h => exact .inl ⟨'t', rfl, by rw [h]; rfl, by decide⟩
  split
  case isTrue h => exact .inl ⟨'b', rfl, by rw [h]; rfl, by decide⟩
  split
  case isTrue h => exact .inl ⟨'f', rfl, by rw [h]; rfl, by decide⟩
  split
  case isTrue h => exact .inr (.inl ⟨rfl, h⟩)
  case isFalse h => exact .inr (.inr ⟨rfl, hquote, hbackslash, Nat.le_of_not_lt h⟩)

/-- A written character gives its code point. -/
theorem stringCodes?_escapeChar (c : Char) (rest : List Char) :
    stringCodes? (escapeChar c ++ rest) =
      (stringCodes? rest).map (fun r => (c.toNat :: r.1, r.2)) := by
  obtain ⟨e, hescape, hshort, hu⟩ | ⟨hescape, hcontrol⟩ | ⟨hescape, hquote, hbackslash, hprinted⟩ :=
    escapeChar_cases c
  · rw [hescape]
    simp [stringCodes?, hshort, hu]
  · have hunit : Uuid.hexNumber? (Uuid.hexDigits 4 c.toNat) = some c.toNat := by
      rw [Uuid.hexNumber?_hexDigits, Nat.mod_eq_of_lt (by omega)]
    rw [hescape]
    simp only [Uuid.hexDigits, List.nil_append, List.cons_append] at hunit ⊢
    simp [stringCodes?, unit?, hunit]
  · rw [hescape]
    simp [stringCodes?, hbackslash, Nat.not_lt.mpr hprinted]

/-- The written characters are taken up to the closing quote. -/
theorem stringCodes?_flatMap (cs rest : List Char) :
    stringCodes? (cs.flatMap escapeChar ++ '"' :: rest) = some (cs.map Char.toNat, rest) := by
  induction cs with
  | nil => simp [stringCodes?]
  | cons c cs ih => rw [List.flatMap_cons, List.append_assoc, stringCodes?_escapeChar, ih]; rfl

/-- No character is half a surrogate pair. -/
theorem not_isHalf (c : Char) : isHighHalf c.toNat = false ∧ isLowHalf c.toNat = false := by
  have hvalid := c.valid
  have hnat : c.toNat = c.val.toNat := rfl
  simp only [UInt32.isValidChar, Nat.isValidChar] at hvalid
  simp only [isHighHalf, isLowHalf, hnat, Bool.and_eq_false_iff, decide_eq_false_iff_not]
  omega

theorem charsOfCodes?_map_toNat : ∀ cs : List Char, charsOfCodes? (cs.map Char.toNat) = some cs
  | [] => rfl
  | [c] => by simp [charsOfCodes?, not_isHalf c]
  | c :: d :: rest => by
    have ih := charsOfCodes?_map_toNat (d :: rest)
    rw [List.map_cons] at ih
    simp [charsOfCodes?, not_isHalf c, ih]

/-- The code points of a text stand for it. -/
theorem textOfCodes?_toList (s : String) : textOfCodes? (s.toList.map Char.toNat) = some s := by
  rw [textOfCodes?, charsOfCodes?_map_toNat, Option.map_some, String.ofList_toList]

theorem ofCodes_toList (s : String) : ofCodes (s.toList.map Char.toNat) = string s := by
  rw [ofCodes, textOfCodes?_toList]
  rfl

/-! ## Numbers -/

/-- Whether characters cannot be the continuation of a number. -/
def Ends (rest : List Char) : Prop :=
  ∀ c ∈ rest.head?, c.isDigit = false ∧ c ≠ '.' ∧ c ≠ 'e' ∧ c ≠ 'E'

theorem ends_nil : Ends [] := by simp [Ends]

theorem fraction?_of_ends {rest : List Char} (h : Ends rest) :
    fraction? rest = some ([], rest) := by
  cases rest with
  | nil => rfl
  | cons c rest =>
    obtain ⟨-, hpoint, -, -⟩ := h c rfl
    simp [fraction?, hpoint]

theorem exponent?_of_ends {rest : List Char} (h : Ends rest) :
    exponent? rest = some (none, rest) := by
  cases rest with
  | nil => rfl
  | cons c rest =>
    obtain ⟨-, -, hlower, hupper⟩ := h c rfl
    simp [exponent?, hlower, hupper]

/-- The digits of a number are taken up to what cannot be one. -/
theorem whole?_toDigits (n : Nat) {rest : List Char} (h : Ends rest) :
    whole? (Nat.toDigits 10 n ++ rest) = some (Nat.toDigits 10 n, rest) := by
  obtain rfl | hpos := Nat.eq_zero_or_pos n
  · have hdigit : (rest.head?.map Char.isDigit).getD false = false := by
      cases rest with
      | nil => rfl
      | cons c rest => exact (h c rfl).1
    simp [whole?, hdigit]
  · obtain ⟨d, ds, hdigits, hd⟩ := Text.head_toDigits_ne hpos
    have hrun : (Nat.toDigits 10 n ++ rest).takeWhile Char.isDigit = Nat.toDigits 10 n :=
      Text.takeWhile_isDigit_append (fun _ => Text.isDigit_of_mem_toDigits) fun c hc => (h c hc).1
    have htaken : digits1? (Nat.toDigits 10 n ++ rest) = some (Nat.toDigits 10 n, rest) := by
      simp [digits1?, hrun, Nat.toDigits_ne_nil]
    rw [hdigits, List.cons_append] at htaken ⊢
    unfold whole?
    split
    case h_1 hzero => exact absurd (List.cons.inj hzero).1 hd
    case h_2 => exact htaken

/-- A number without fraction and exponent is what its digits stand for. -/
theorem unsigned?_toDigits (negative : Bool) (n : Nat) {rest : List Char} (h : Ends rest) :
    unsigned? negative (Nat.toDigits 10 n ++ rest) =
      some (ofWhole negative (Nat.toDigits 10 n), rest) := by
  simp [unsigned?, whole?_toDigits n h, fraction?_of_ends h, exponent?_of_ends h]

theorem natOfDigits_toDigits (n : Nat) : natOfDigits (Nat.toDigits 10 n) = n :=
  Text.valueOf_toDigits n

/-! ## Values -/

theorem skipSpace_cons {c : Char} {rest : List Char} (h : isSpace c = false) :
    skipSpace (c :: rest) = c :: rest := by
  simp [skipSpace, h]

theorem not_isSpace_of_isDigit {c : Char} (h : c.isDigit = true) : isSpace c = false := by
  have hbounds : 48 ≤ c.toNat ∧ c.toNat ≤ 57 := Char.isDigit_iff_toNat.mp h
  simp only [isSpace, Bool.or_eq_false_iff, beq_eq_false_iff_ne, ne_eq]
  refine ⟨⟨⟨?_, ?_⟩, ?_⟩, ?_⟩ <;> rintro rfl <;> revert hbounds <;> decide

theorem integer_chars (n : Int) : (integer n).chars =
    (if n < 0 then ['-'] else []) ++ Nat.toDigits 10 n.natAbs := Text.toList_toString n

/-- The digits of an integer of 64 bits stand for it. -/
theorem ofWhole_toDigits {n : Int} (hn : (integer n).isPlain 0 = true) :
    ofWhole (decide (n < 0)) (Nat.toDigits 10 n.natAbs) = integer n := by
  have hplain : IntegerRange.signed64.contains n = true ∨
      IntegerRange.unsigned64.contains n = true := by simpa [isPlain] using hn
  have hrange : -9223372036854775808 ≤ n ∧ n ≤ 18446744073709551615 := by
    simp only [IntegerRange.contains_iff, IntegerRange.signed64, IntegerRange.unsigned64] at hplain
    omega
  unfold ofWhole
  rw [natOfDigits_toDigits]
  by_cases hneg : n < 0
  case pos =>
    have hopposite : -((n.natAbs : Nat) : Int) = n := by omega
    have hne : (n.natAbs : Int) ≠ 0 := by omega
    have hcontains : IntegerRange.signed64.contains n = true :=
      IntegerRange.contains_iff.mpr ⟨hrange.1, by show n ≤ 9223372036854775807; omega⟩
    simp only [hneg, decide_true, hopposite, hne, hcontains, ne_eq, not_false_eq_true, and_self,
      if_true]
  case neg =>
    have hsame : ((n.natAbs : Nat) : Int) = n := by omega
    have hcontains : IntegerRange.unsigned64.contains n = true :=
      IntegerRange.contains_iff.mpr ⟨Int.not_lt.mp hneg, hrange.2⟩
    simp only [hneg, decide_false, hsame, hcontains, Bool.false_eq_true, false_and,
      not_false_eq_true, and_self, if_false, if_true]

/-- An integer of 64 bits is taken from its digits. -/
theorem value?_integer {n : Int} (hn : (integer n).isPlain 0 = true) (fuel depth : Nat)
    {rest : List Char} (h : Ends rest) :
    value? (fuel + 1) depth ((integer n).chars ++ rest) = some (integer n, rest) := by
  have htaken := unsigned?_toDigits (decide (n < 0)) n.natAbs h
  rw [ofWhole_toDigits hn] at htaken
  rw [integer_chars]
  by_cases hneg : n < 0
  case pos =>
    simp only [hneg, decide_true] at htaken
    simp [hneg, value?, skipSpace_cons, isSpace, htaken]
  case neg =>
    simp only [hneg, decide_false] at htaken
    obtain ⟨d, ds, hdigits⟩ :=
      List.exists_cons_of_ne_nil (Nat.toDigits_ne_nil (b := 10) (n := n.natAbs))
    have hd : d.isDigit = true :=
      Text.isDigit_of_mem_toDigits (hdigits ▸ List.mem_cons_self)
    have hother {c : Char} (hc : c.isDigit = false) : d ≠ c := by
      rintro rfl
      simp [hd] at hc
    rw [hdigits, List.cons_append] at htaken
    simp only [hneg, if_false, List.nil_append, hdigits, List.cons_append, value?,
      skipSpace_cons (not_isSpace_of_isDigit hd)]
    simp [hother, htaken, Char.isDigit]

/-- A plain value begins with a character that is no blank and closes nothing. -/
theorem exists_chars_cons : ∀ (j : Json) {depth : Nat}, j.isPlain depth = true →
    ∃ c cs, j.chars = c :: cs ∧ isSpace c = false ∧ c ≠ ']'
  | .null, _, _ => ⟨'n', _, rfl, by decide⟩
  | .bool true, _, _ => ⟨'t', _, rfl, by decide⟩
  | .bool false, _, _ => ⟨'f', _, rfl, by decide⟩
  | .integer n, _, _ => by
    rw [integer_chars]
    split
    case isTrue => exact ⟨'-', _, rfl, by decide⟩
    case isFalse =>
      obtain ⟨d, ds, hdigits⟩ :=
        List.exists_cons_of_ne_nil (Nat.toDigits_ne_nil (b := 10) (n := n.natAbs))
      have hd : d.isDigit = true := Text.isDigit_of_mem_toDigits (hdigits ▸ List.mem_cons_self)
      refine ⟨d, ds, hdigits, not_isSpace_of_isDigit hd, ?_⟩
      rintro rfl
      exact absurd hd (by decide)
  | .string s, _, _ => ⟨'"', _, rfl, by decide⟩
  | .array [], _, _ => ⟨'[', _, rfl, by decide⟩
  | .array (_ :: _), _, _ => ⟨'[', _, by rw [chars], by decide⟩
  | .object [], _, _ => ⟨'\x7b', _, rfl, by decide⟩
  | .object (_ :: _), _, _ => ⟨'\x7b', _, by rw [chars], by decide⟩

/-! ### Items and members, one at a time -/

section Steps

variable {fuel depth : Nat} {cs cs' rest : List Char} {j : Json} {js : List Json} {s : String}
  {ms : List (List Nat × Json)}

theorem ends_cons {c : Char} (hc : c = ',' ∨ c = ']' ∨ c = '\x7d') : Ends (c :: rest) := by
  intro d hd
  obtain rfl : c = d := Option.some.inj hd
  obtain rfl | rfl | rfl := hc <;> decide

theorem items?_last (h : value? fuel depth cs = some (j, ']' :: rest)) :
    items? (fuel + 1) depth cs = some ([j], rest) := by
  simp [items?, h, skipSpace_cons, isSpace]

theorem items?_cons (h : value? fuel depth cs = some (j, ',' :: cs'))
    (h' : items? fuel depth cs' = some (js, rest)) :
    items? (fuel + 1) depth cs = some (j :: js, rest) := by
  simp [items?, h, h', skipSpace_cons, isSpace]

theorem members?_last (h : value? fuel depth cs = some (j, '\x7d' :: rest)) :
    members? (fuel + 1) depth (quoted s ++ ':' :: cs) =
      some ([(s.toList.map Char.toNat, j)], rest) := by
  simp [members?, quoted, stringCodes?_flatMap, h, skipSpace_cons, isSpace]

theorem members?_cons (h : value? fuel depth cs = some (j, ',' :: cs'))
    (h' : members? fuel depth cs' = some (ms, rest)) :
    members? (fuel + 1) depth (quoted s ++ ':' :: cs) =
      some ((s.toList.map Char.toNat, j) :: ms, rest) := by
  simp [members?, quoted, stringCodes?_flatMap, h, h', skipSpace_cons, isSpace]

theorem value?_string (s : String) :
    value? (fuel + 1) depth (quoted s ++ rest) = some (string s, rest) := by
  simp [value?, quoted, stringCodes?_flatMap, ofCodes_toList, skipSpace_cons, isSpace]

theorem value?_array (hj : j.isPlain depth = true)
    (h : items? fuel depth (j.chars ++ cs) = some (js, rest)) :
    value? (fuel + 1) (depth + 1) ('[' :: (j.chars ++ cs)) = some (array js, rest) := by
  obtain ⟨c, cs', hc, hspace, hclosing⟩ := exists_chars_cons j hj
  rw [hc, List.cons_append] at h ⊢
  simp [value?, skipSpace_cons, isSpace, skipSpace_cons hspace, hclosing, h, atDepth]

/-- The members of an object with the codes of their names. -/
def coded (members : List (String × Json)) : List (List Nat × Json) :=
  members.map (fun m => (m.1.toList.map Char.toNat, m.2))

theorem ofCoded_coded (members : List (String × Json)) :
    ofCoded (coded members) = object members := by
  have hnamed : (coded members).mapM
      (fun m => (textOfCodes? m.1).map (fun name => (name, m.2))) = some members := by
    induction members with
    | nil => rfl
    | cons m members ih =>
      rw [coded] at ih
      simp [coded, textOfCodes?_toList, ih]
  simp [ofCoded, hnamed]

theorem value?_object {members : List (String × Json)}
    (h : members? fuel depth (quoted s ++ cs) = some (coded members, rest)) :
    value? (fuel + 1) (depth + 1) ('\x7b' :: (quoted s ++ cs)) = some (object members, rest) := by
  obtain ⟨q, hq⟩ : ∃ q, quoted s = '"' :: q := ⟨_, rfl⟩
  rw [hq, List.cons_append] at h ⊢
  simp [value?, skipSpace_cons, isSpace, h, atDepth, ofCoded_coded]

end Steps

mutual

/-- A value is taken off the front of a text. -/
theorem value?_chars : ∀ (j : Json) {depth fuel : Nat} {rest : List Char}, j.isPlain depth = true →
    2 * j.chars.length ≤ fuel → Ends rest → value? fuel depth (j.chars ++ rest) = some (j, rest)
  | .null, _, fuel + 1, rest, _, _, _ => by simp [value?, chars, skipSpace_cons, isSpace, word?]
  | .bool true, _, fuel + 1, rest, _, _, _ => by
    simp [value?, chars, skipSpace_cons, isSpace, word?]
  | .bool false, _, fuel + 1, rest, _, _, _ => by
    simp [value?, chars, skipSpace_cons, isSpace, word?]
  | .integer n, depth, fuel + 1, rest, hplain, _, hends => value?_integer hplain fuel depth hends
  | .string s, _, fuel + 1, rest, _, _, _ => value?_string s
  | .array [], depth + 1, fuel + 1, rest, _, _, _ => by
    simp [value?, chars, skipSpace_cons, isSpace, atDepth]
  | .array (j :: items), depth + 1, fuel + 1, rest, hplain, hfuel, _ => by
    have hplain : j.isPlain depth = true ∧ arePlain depth items = true := by
      simpa [isPlain, arePlain] using hplain
    rw [chars] at hfuel ⊢
    rw [List.cons_append, List.append_assoc]
    refine value?_array hplain.1 (items?_chars j items hplain.1 hplain.2 ?_)
    rw [List.length_cons] at hfuel
    omega
  | .object [], depth + 1, fuel + 1, rest, _, _, _ => by
    simp [value?, chars, skipSpace_cons, isSpace, atDepth]
  | .object ((s, j) :: members), depth + 1, fuel + 1, rest, hplain, hfuel, _ => by
    have hplain : j.isPlain depth = true ∧ havePlain depth members = true := by
      simpa [isPlain, havePlain] using hplain
    rw [chars] at hfuel ⊢
    rw [List.cons_append, List.append_assoc, List.cons_append, List.append_assoc]
    refine value?_object (members?_chars s j members hplain.1 hplain.2 ?_)
    rw [List.length_cons] at hfuel
    omega
  | j, depth, 0, rest, hplain, hfuel, _ => by
    obtain ⟨c, cs, hc, -⟩ := exists_chars_cons j hplain
    simp [hc] at hfuel

/-- Items are taken up to their closing bracket. -/
theorem items?_chars : ∀ (j : Json) (items : List Json) {depth fuel : Nat} {rest : List Char},
    j.isPlain depth = true → arePlain depth items = true →
    2 * (j.chars ++ itemChars items).length ≤ fuel →
    items? fuel depth (j.chars ++ (itemChars items ++ rest)) = some (j :: items, rest)
  | j, [], depth, fuel + 1, rest, hplain, _, hfuel => by
    rw [itemChars, List.length_append, List.length_singleton] at hfuel
    exact items?_last (value?_chars j hplain (by omega) (ends_cons (.inr (.inl rfl))))
  | j, j' :: items, depth, fuel + 1, rest, hplain, hitems, hfuel => by
    have hitems : j'.isPlain depth = true ∧ arePlain depth items = true := by
      simpa [arePlain] using hitems
    rw [itemChars, List.length_append, List.length_cons] at hfuel
    rw [itemChars, List.cons_append, List.append_assoc]
    exact items?_cons (value?_chars j hplain (by omega) (ends_cons (.inl rfl)))
      (items?_chars j' items hitems.1 hitems.2 (by omega))
  | j, items, _, 0, _, hplain, _, hfuel => by
    obtain ⟨c, cs, hc, -⟩ := exists_chars_cons j hplain
    simp [hc] at hfuel

/-- Members are taken up to their closing brace. -/
theorem members?_chars : ∀ (s : String) (j : Json) (members : List (String × Json))
    {depth fuel : Nat} {rest : List Char}, j.isPlain depth = true →
    havePlain depth members = true →
    2 * (quoted s ++ ':' :: (j.chars ++ memberChars members)).length ≤ fuel →
    members? fuel depth (quoted s ++ ':' :: (j.chars ++ (memberChars members ++ rest))) =
      some (coded ((s, j) :: members), rest)
  | s, j, [], depth, fuel + 1, rest, hplain, _, hfuel => by
    rw [memberChars, List.length_append, List.length_cons, List.length_append] at hfuel
    exact members?_last (value?_chars j hplain (by omega) (ends_cons (.inr (.inr rfl))))
  | s, j, (s', j') :: members, depth, fuel + 1, rest, hplain, hmembers, hfuel => by
    have hmembers : j'.isPlain depth = true ∧ havePlain depth members = true := by
      simpa [havePlain] using hmembers
    rw [memberChars, List.length_append, List.length_cons, List.length_append,
      List.length_cons] at hfuel
    rw [memberChars, List.cons_append, List.append_assoc, List.cons_append, List.append_assoc]
    exact members?_cons (value?_chars j hplain (by omega) (ends_cons (.inl rfl)))
      (members?_chars s' j' members hmembers.1 hmembers.2 (by omega))
  | s, j, members, _, 0, _, _, _, hfuel => by
    simp [quoted] at hfuel

end

/-- A plain value is read back from its text. -/
theorem scan?_text {j : Json} (h : j.isPlain maxDepth = true) : scan? j.text = some j := by
  have htaken : value? (2 * j.chars.length + 1) maxDepth (j.chars ++ []) = some (j, []) :=
    value?_chars j h (by omega) ends_nil
  rw [List.append_nil] at htaken
  simp only [scan?, text, String.toList_ofList, htaken]
  rfl

end Stockroom.Json
