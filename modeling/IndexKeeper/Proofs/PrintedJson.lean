import Mathlib.Data.List.Basic
import IndexKeeper.Json.Printer
import IndexKeeper.Proofs.ManifestText

set_option autoImplicit false

namespace IndexKeeper.Json

mutual
def Value.Whole : Value → Prop
  | .null | .boolean _ | .integer _ | .text _ => True
  | .decimal _ | .brokenText => False
  | .array items => WholeItems items
  | .object fields => WholeFields fields
def WholeItems : List Value → Prop
  | [] => True
  | v :: rest => v.Whole ∧ WholeItems rest
def WholeFields : List (Option String × Value) → Prop
  | [] => True
  | (name, v) :: rest => name.isSome = true ∧ v.Whole ∧ WholeFields rest
end

def Closes (rest : List Char) : Prop := rest = [] ∨ ∃ c tail, rest = c :: tail ∧ c ∈ [',', ']', '\x7d']

section Numbers

theorem digits_leading_zero (n : Nat) (positive : 0 < n) : (Nat.toDigits 10 n).head? ≠ some '0' := by
  by_cases small : n < 10
  · rw [Nat.toDigits_of_lt_base small]
    simp only [List.head?_cons, ne_eq, Option.some.injEq, Nat.digitChar_eq_zero]
    omega
  · have fewer := digits_leading_zero (n / 10) (by omega)
    rw [Nat.toDigits_of_base_le (by decide) (by omega), List.head?_append]
    cases first : (Nat.toDigits 10 (n / 10)).head? with
    | none => simp [Nat.toDigits_ne_nil] at first
    | some c => rwa [first] at fewer
termination_by n
decreasing_by omega

theorem digits_front (ds rest : List Char) (all : ∀ c ∈ ds, c.isDigit = true) (closes : Closes rest) :
    digits (ds ++ rest) = ds := by
  rw [digits, List.takeWhile_append_of_pos all]
  rcases closes with rfl | ⟨c, tail, rfl, listed⟩
  · simp
  · have other : c.isDigit = false := by
      revert listed
      simp only [List.mem_cons, List.not_mem_nil, or_false]
      rintro (rfl | rfl | rfl) <;> rfl
    simp [other]

theorem closes_after (rest : List Char) (closes : Closes rest) :
    (fraction? rest).bind exponent? = some rest ∧ rest.head?.any Char.isDigit = false := by
  rcases closes with rfl | ⟨c, tail, rfl, listed⟩
  · exact ⟨rfl, rfl⟩
  · simp only [List.mem_cons, List.not_mem_nil, or_false] at listed
    rcases listed with rfl | rfl | rfl <;> exact ⟨rfl, rfl⟩

theorem numeral_digits (n : Nat) : numeral (Nat.toDigits 10 n) = n := by
  have value := Nat.ofDigitChars_toDigits (n := n) (by decide : 1 < 10) (by decide)
  rwa [Nat.ofDigitChars_eq_foldl] at value

theorem whole_digits (n : Nat) (rest : List Char) (closes : Closes rest) :
    (if (Nat.toDigits 10 n ++ rest).head? == some '0' then ['0'] else digits (Nat.toDigits 10 n ++ rest)) =
      Nat.toDigits 10 n := by
  have all : ∀ c ∈ Nat.toDigits 10 n, c.isDigit = true := fun c member =>
    Nat.isDigit_of_mem_toDigits (by decide) (by decide) member
  cases n with
  | zero => simp [Nat.toDigits_zero]
  | succ n =>
      have leading := digits_leading_zero (n + 1) (Nat.succ_pos n)
      have front : (Nat.toDigits 10 (n + 1) ++ rest).head? ≠ some '0' := by
        rw [List.head?_append]
        cases first : (Nat.toDigits 10 (n + 1)).head? with
        | none => simp [Nat.toDigits_ne_nil] at first
        | some c => rwa [first] at leading
      rw [if_neg (by simpa using front), digits_front _ _ all closes]

theorem not_zero_then_digit (ds rest : List Char) (closes : Closes rest) :
    ¬ (ds = ['0'] ∧ rest.head?.any Char.isDigit = true) := by
  rintro ⟨-, digit⟩
  rw [(closes_after rest closes).2] at digit
  cases digit

theorem number_natural (n : Nat) (rest : List Char) (closes : Closes rest) :
    number? (Nat.toDigits 10 n ++ rest) = some (.integer n, rest) := by
  have filled : Nat.toDigits 10 n ≠ [] := Nat.toDigits_ne_nil
  have positive : ((Nat.toDigits 10 n ++ rest).head? == some '-') = false := by
    cases written : Nat.toDigits 10 n with
    | nil => exact absurd written filled
    | cons c tail =>
        have digit : c.isDigit = true :=
          Nat.isDigit_of_mem_toDigits (by decide) (by decide) (written ▸ List.mem_cons_self)
        have other : c ≠ '-' := fun same => by simp [same] at digit
        simp [other]
  unfold number?
  simp only [positive, Bool.false_eq_true, if_false, whole_digits n rest closes, List.drop_left]
  rw [if_neg (by simp), if_neg (not_zero_then_digit _ rest closes), (closes_after rest closes).1]
  simp [numeral_digits]

theorem number_negative (n : Nat) (positive : 0 < n) (rest : List Char) (closes : Closes rest) :
    number? ('-' :: (Nat.toDigits 10 n ++ rest)) = some (.integer (-n), rest) := by
  unfold number?
  simp only [List.head?_cons, beq_self_eq_true, if_true, List.drop_one, List.tail_cons, whole_digits n rest closes,
    List.drop_left]
  rw [if_neg (by simp), if_neg (not_zero_then_digit _ rest closes), (closes_after rest closes).1]
  have other : n ≠ 0 := by omega
  simp [numeral_digits, other]

theorem number_integer (i : Int) (rest : List Char) (closes : Closes rest) :
    number? ((toString i).toList ++ rest) = some (.integer i, rest) := by
  have written : toString i = i.repr := rfl
  rw [written, Int.repr_eq_if]
  by_cases natural : 0 ≤ i
  · have value : ((i.toNat : Nat) : Int) = i := Int.toNat_of_nonneg natural
    rw [if_pos natural, Nat.repr, String.toList_ofList, number_natural _ _ closes, value]
  · have value : -(((-i).toNat : Nat) : Int) = i := by omega
    rw [if_neg natural, Nat.repr, String.toList_append, String.toList_ofList, String.toList_ofList, List.append_assoc,
      List.singleton_append, number_negative _ (by omega) rest closes, value]

theorem integer_text_injective (i j : Int) (same : i.repr = j.repr) : i = j := by
  have read := number_integer i [] (.inl rfl)
  rw [show toString i = toString j from same, number_integer j [] (.inl rfl)] at read
  simpa using read.symm

theorem natural_text_injective (n m : Nat) (same : n.repr = m.repr) : n = m :=
  Int.ofNat.inj (integer_text_injective n m same)

def Opens (c : Char) : Prop := c = '-' ∨ c.isDigit = true

theorem integer_start (i : Int) : ∃ c tail, (toString i).toList = c :: tail ∧ Opens c := by
  have written : toString i = i.repr := rfl
  rw [written, Int.repr_eq_if]
  by_cases natural : 0 ≤ i
  · rw [if_pos natural, Nat.repr, String.toList_ofList]
    cases digits : Nat.toDigits 10 i.toNat with
    | nil => exact absurd digits Nat.toDigits_ne_nil
    | cons c tail =>
        exact ⟨c, tail, rfl, .inr (Nat.isDigit_of_mem_toDigits (by decide) (by decide) (digits ▸ List.mem_cons_self))⟩
  · rw [if_neg natural, String.toList_append]
    exact ⟨'-', _, rfl, .inl rfl⟩

theorem skip_solid (c : Char) (text : List Char) (solid : isSpace c = false) : skipSpaces (c :: text) = c :: text := by
  simp [skipSpaces, solid]

theorem opens_ne (c d : Char) (opens : Opens c) (notDash : d ≠ '-') (noDigit : d.isDigit = false) : c ≠ d := by
  rintro rfl
  rcases opens with dash | digit
  · exact notDash dash
  · rw [noDigit] at digit
    cases digit

theorem opens_solid (c : Char) (opens : Opens c) : isSpace c = false := by
  simp [isSpace, opens_ne c ' ' opens (by decide) rfl, opens_ne c '\n' opens (by decide) rfl,
    opens_ne c '\t' opens (by decide) rfl, opens_ne c '\r' opens (by decide) rfl]

theorem value_of_number (fuel : Nat) (c : Char) (tail : List Char) (opens : Opens c) :
    value? (fuel + 1) (c :: tail) = number? (c :: tail) := by
  rw [value?, skip_solid c tail (opens_solid c opens)]
  split
  · next same => exact absurd (List.cons.inj same).1 (opens_ne c _ opens (by decide) rfl)
  · next same => exact absurd (List.cons.inj same).1 (opens_ne c _ opens (by decide) rfl)
  · next same => exact absurd (List.cons.inj same).1 (opens_ne c _ opens (by decide) rfl)
  · next same => exact absurd (List.cons.inj same).1 (opens_ne c _ opens (by decide) rfl)
  · next same => exact absurd (List.cons.inj same).1 (opens_ne c _ opens (by decide) rfl)
  · next same => exact absurd (List.cons.inj same).1 (opens_ne c _ opens (by decide) rfl)
  · rfl

theorem value_integer (fuel : Nat) (i : Int) (rest : List Char) (closes : Closes rest) :
    value? (fuel + 1) ((toString i).toList ++ rest) = some (.integer i, rest) := by
  obtain ⟨c, tail, written, opens⟩ := integer_start i
  rw [← number_integer i rest closes, written, List.cons_append, value_of_number fuel c _ opens]

end Numbers

theorem compact_start (v : Value) (whole : v.Whole) :
    ∃ c tail, (compact v).toList = c :: tail ∧ isSpace c = false ∧ c ≠ ']' := by
  cases v with
  | null => exact ⟨_, _, rfl, rfl, by decide⟩
  | boolean b => cases b <;> exact ⟨_, _, rfl, rfl, by decide⟩
  | integer i =>
      obtain ⟨c, tail, written, opens⟩ := integer_start i
      exact ⟨c, tail, written, opens_solid c opens, opens_ne c _ opens (by decide) rfl⟩
  | decimal => exact whole.elim
  | text s => exact ⟨'"', _, by rw [compact, quoted, String.toList_ofList, quotedChars], rfl, by decide⟩
  | brokenText => exact whole.elim
  | array items => exact ⟨'[', _, by rw [compact, String.toList_append, String.toList_append]; rfl, rfl, by decide⟩
  | object fields => exact ⟨'\x7b', _, by rw [compact, String.toList_append, String.toList_append]; rfl, rfl, by decide⟩

theorem items_start (items : List Value) (filled : items ≠ []) (whole : WholeItems items) :
    ∃ c tail, (compactItems items).toList = c :: tail ∧ isSpace c = false ∧ c ≠ ']' := by
  match items with
  | [] => exact absurd rfl filled
  | [v] => exact compact_start v whole.1
  | v :: next :: more =>
      obtain ⟨c, tail, written, starts⟩ := compact_start v whole.1
      refine ⟨c, tail ++ (',' :: (compactItems (next :: more)).toList), ?_, starts⟩
      rw [compactItems, String.toList_append, String.toList_append, written]
      · simp
      · simp

theorem quoted_chars (text : String) (rest : List Char) :
    (quoted text).toList ++ rest = '"' :: (text.toList.flatMap escaped ++ '"' :: rest) := by
  simp [quoted, quotedChars]

theorem text_printed (text : String) (rest : List Char) :
    text? (text.toList.flatMap escaped ++ '"' :: rest) = some (some text, rest) := by
  rw [text_quoted, String.ofList_toList]

theorem first_field (name : String) (v : Value) :
    (compactFields [(some name, v)]).toList = (quoted name).toList ++ ':' :: (compact v).toList := by
  simp [compactFields]

theorem next_field (name : String) (v : Value) (next : Option String × Value) (more : List (Option String × Value)) :
    (compactFields ((some name, v) :: next :: more)).toList =
      (quoted name).toList ++ ':' :: ((compact v).toList ++ ',' :: (compactFields (next :: more)).toList) := by
  rw [compactFields]
  · simp
  · simp

theorem fields_start (name : String) (v : Value) (fields : List (Option String × Value)) :
    ∃ tail, (compactFields ((some name, v) :: fields)).toList = '"' :: tail := by
  cases fields with
  | nil => exact ⟨_, (first_field name v).trans (quoted_chars name _)⟩
  | cons next more => exact ⟨_, (next_field name v next more).trans (quoted_chars name _)⟩

theorem closing (c : Char) (rest : List Char) (listed : c ∈ [',', ']', '\x7d']) : Closes (c :: rest) :=
  .inr ⟨c, rest, rfl, listed⟩

-- Every bracket and every item after the first takes a character, so twice the length is fuel enough.
def ReadBack (v : Value) : Prop :=
  ∀ fuel rest, Closes rest → 2 * (compact v).toList.length ≤ fuel → value? fuel ((compact v).toList ++ rest) = some (v, rest)

theorem items_compact (items : List Value) (filled : items ≠ []) (each : ∀ v ∈ items, ReadBack v) (fuel : Nat)
    (rest : List Char) (enough : 2 * (compactItems items).toList.length + 1 ≤ fuel) :
    items? fuel ((compactItems items).toList ++ ']' :: rest) = some (items, rest) := by
  induction items generalizing fuel with
  | nil => exact absurd rfl filled
  | cons v items ih =>
      obtain ⟨fuel, rfl⟩ := Nat.exists_eq_add_one.mpr (Nat.zero_lt_of_lt enough)
      have first := each v List.mem_cons_self
      cases items with
      | nil =>
          rw [compactItems] at enough
          have read := first fuel (']' :: rest) (closing _ _ (by simp)) (by omega)
          rw [compactItems, items?, read]
          simp [skip_solid ']' rest rfl]
      | cons next more =>
          have shape : (compactItems (v :: next :: more)).toList =
              (compact v).toList ++ ',' :: (compactItems (next :: more)).toList := by
            rw [compactItems]
            · simp
            · simp
          rw [shape, List.length_append, List.length_cons] at enough
          have read := first fuel (',' :: ((compactItems (next :: more)).toList ++ ']' :: rest)) (closing _ _ (by simp))
            (by omega)
          have later := ih (by simp) (fun v member => each v (List.mem_cons_of_mem _ member)) fuel (by omega)
          rw [shape, List.append_assoc, List.cons_append, items?, read]
          simp [skip_solid ',' _ rfl, later]

theorem fields_compact (fields : List (Option String × Value)) (filled : fields ≠ [])
    (each : ∀ field ∈ fields, field.1.isSome = true ∧ ReadBack field.2) (fuel : Nat) (rest : List Char)
    (enough : 2 * (compactFields fields).toList.length + 1 ≤ fuel) :
    fields? fuel ((compactFields fields).toList ++ '\x7d' :: rest) = some (fields, rest) := by
  induction fields generalizing fuel with
  | nil => exact absurd rfl filled
  | cons field fields ih =>
      obtain ⟨fuel, rfl⟩ := Nat.exists_eq_add_one.mpr (Nat.zero_lt_of_lt enough)
      obtain ⟨named, first⟩ := each field List.mem_cons_self
      obtain ⟨name, v⟩ := field
      obtain ⟨name, rfl⟩ := Option.isSome_iff_exists.mp named
      cases fields with
      | nil =>
          rw [first_field, List.length_append, List.length_cons] at enough
          have read := first fuel ('\x7d' :: rest) (closing _ _ (by simp)) (by dsimp only; omega)
          rw [first_field, List.append_assoc, quoted_chars, fields?, skip_solid '"' _ rfl]
          simp [text_printed, skip_solid ':' _ rfl, read, skip_solid '\x7d' _ rfl]
      | cons next more =>
          simp only [next_field, List.length_append, List.length_cons] at enough
          have read := first fuel (',' :: ((compactFields (next :: more)).toList ++ '\x7d' :: rest))
            (closing _ _ (by simp)) (by dsimp only; omega)
          have later := ih (by simp) (fun field member => each field (List.mem_cons_of_mem _ member)) fuel (by omega)
          rw [next_field, List.append_assoc, quoted_chars, fields?, skip_solid '"' _ rfl]
          simp [text_printed, skip_solid ':' _ rfl, read, skip_solid ',' _ rfl, later]

theorem whole_item (items : List Value) (whole : WholeItems items) (v : Value) (member : v ∈ items) : v.Whole := by
  induction items with
  | nil => cases member
  | cons first rest ih =>
      rcases List.mem_cons.mp member with rfl | later
      · exact whole.1
      · exact ih whole.2 later

theorem whole_field (fields : List (Option String × Value)) (whole : WholeFields fields)
    (field : Option String × Value) (member : field ∈ fields) : field.1.isSome = true ∧ field.2.Whole := by
  induction fields with
  | nil => cases member
  | cons first rest ih =>
      rcases List.mem_cons.mp member with rfl | later
      · exact ⟨whole.1, whole.2.1⟩
      · exact ih whole.2.2 later

theorem value_items (fuel : Nat) (c : Char) (tail : List Char) (solid : isSpace c = false) (notClosed : c ≠ ']') :
    value? (fuel + 1) ('[' :: c :: tail) = (items? fuel (c :: tail)).map fun (items, rest) => (.array items, rest) := by
  simp only [value?, skip_solid '[' _ rfl, skip_solid c tail solid]
  split
  · next same => exact absurd (List.cons.inj same).1 notClosed
  · rfl

theorem value_fields (fuel : Nat) (tail : List Char) :
    value? (fuel + 1) ('\x7b' :: '"' :: tail) =
      (fields? fuel ('"' :: tail)).map fun (fields, rest) => (.object fields, rest) := by
  simp [value?, skip_solid '\x7b' _ rfl, skip_solid '"' _ rfl]

theorem fuel_left (v : Value) (whole : v.Whole) (fuel : Nat) (enough : 2 * (compact v).toList.length ≤ fuel) :
    ∃ more, fuel = more + 1 := by
  obtain ⟨c, tail, written, -⟩ := compact_start v whole
  rw [written, List.length_cons] at enough
  exact Nat.exists_eq_add_one.mpr (by omega)

theorem array_compact (items : List Value) (whole : WholeItems items) (each : ∀ v ∈ items, ReadBack v) :
    ReadBack (.array items) := by
  intro fuel rest closes enough
  obtain ⟨fuel, rfl⟩ := fuel_left (.array items) whole fuel enough
  have shape : (compact (.array items)).toList = '[' :: ((compactItems items).toList ++ [']']) := by
    simp [compact]
  rw [shape, List.length_cons, List.length_append, List.length_singleton] at enough
  rw [shape, List.cons_append, List.append_assoc, List.singleton_append]
  cases items with
  | nil => simp [compactItems, value?, skip_solid '[' _ rfl, skip_solid ']' _ rfl]
  | cons v items =>
      obtain ⟨first, others, start, solid, notClosed⟩ := items_start (v :: items) (List.cons_ne_nil _ _) whole
      have read := items_compact (v :: items) (List.cons_ne_nil _ _) each fuel rest (by omega)
      rw [start, List.cons_append] at read ⊢
      rw [value_items fuel first _ solid notClosed, read]
      rfl

theorem object_compact (fields : List (Option String × Value)) (whole : WholeFields fields)
    (each : ∀ field ∈ fields, field.1.isSome = true ∧ ReadBack field.2) : ReadBack (.object fields) := by
  intro fuel rest closes enough
  obtain ⟨fuel, rfl⟩ := fuel_left (.object fields) whole fuel enough
  have shape : (compact (.object fields)).toList = '\x7b' :: ((compactFields fields).toList ++ ['\x7d']) := by
    simp [compact]
  rw [shape, List.length_cons, List.length_append, List.length_singleton] at enough
  rw [shape, List.cons_append, List.append_assoc, List.singleton_append]
  cases fields with
  | nil => simp [compactFields, value?, skip_solid '\x7b' _ rfl, skip_solid '\x7d' _ rfl]
  | cons field fields =>
      obtain ⟨name, v⟩ := field
      obtain ⟨name, rfl⟩ := Option.isSome_iff_exists.mp whole.1
      obtain ⟨others, start⟩ := fields_start name v fields
      have read := fields_compact ((some name, v) :: fields) (List.cons_ne_nil _ _) each fuel rest (by omega)
      rw [start, List.cons_append] at read ⊢
      rw [value_fields, read]
      rfl

theorem value_compact (v : Value) (whole : v.Whole) : ReadBack v := by
  match v with
  | .array items => exact array_compact items whole fun item member => value_compact item (whole_item _ whole item member)
  | .object fields =>
      exact object_compact fields whole fun field member =>
        ⟨(whole_field _ whole field member).1, value_compact field.2 (whole_field _ whole field member).2⟩
  | .decimal _ => exact whole.elim
  | .brokenText => exact whole.elim
  | .null =>
      intro fuel rest closes enough
      obtain ⟨fuel, rfl⟩ := fuel_left .null whole fuel enough
      simp [compact, value?, skip_solid 'n' _ rfl]
  | .boolean b =>
      intro fuel rest closes enough
      obtain ⟨fuel, rfl⟩ := fuel_left (.boolean b) whole fuel enough
      cases b with
      | true => simp [compact, value?, skip_solid 't' _ rfl]
      | false => simp [compact, value?, skip_solid 'f' _ rfl]
  | .integer i =>
      intro fuel rest closes enough
      obtain ⟨fuel, rfl⟩ := fuel_left (.integer i) whole fuel enough
      exact value_integer fuel i rest closes
  | .text s =>
      intro fuel rest closes enough
      obtain ⟨fuel, rfl⟩ := fuel_left (.text s) whole fuel enough
      rw [compact, quoted_chars, value?, skip_solid '"' _ rfl]
      simp [text_printed]
termination_by sizeOf v
decreasing_by
  · have smaller := List.sizeOf_lt_of_mem member
    simp only [Value.array.sizeOf_spec]
    omega
  · have smaller := List.sizeOf_lt_of_mem member
    obtain ⟨label, inner⟩ := field
    simp only [Value.object.sizeOf_spec, Prod.mk.sizeOf_spec] at smaller ⊢
    omega

theorem parse_compact (v : Value) (whole : v.Whole) : parse? (compact v) = some v := by
  have read := value_compact v whole (2 * (compact v).toList.length + 1) [] (.inl rfl) (Nat.le_succ _)
  rw [List.append_nil] at read
  simp [parse?, read, skipSpaces]

end IndexKeeper.Json
