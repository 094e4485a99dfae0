import IndexKeeper.Manifest

set_option autoImplicit false

namespace IndexKeeper

namespace NameMap

variable {α : Type}

theorem insert_entry_last (name : String) (value : α) (entries : List (String × α))
    (above : ∀ entry ∈ entries, entry.1 < name) :
    insertEntry name value entries = entries ++ [(name, value)] := by
  induction entries with
  | nil => rfl
  | cons entry rest ih =>
      have first := above entry List.mem_cons_self
      rw [insertEntry, if_neg (String.lt_asymm first), if_neg fun same => ?_,
        ih fun other member => above other (List.mem_cons_of_mem _ member)]
      · rfl
      · rw [same] at first
        exact String.lt_irrefl _ first

theorem fold_insert_sorted (m : NameMap α) (rest : List (String × α))
    (sorted : (m.entries ++ rest).Pairwise fun a b => a.1 < b.1) :
    (rest.foldl (fun m entry => m.insert entry.1 entry.2) m).entries = m.entries ++ rest := by
  induction rest generalizing m with
  | nil => simp
  | cons entry rest ih =>
      obtain ⟨_, _, apart⟩ := List.pairwise_append.mp sorted
      have last : (m.insert entry.1 entry.2).entries = m.entries ++ [entry] :=
        insert_entry_last entry.1 entry.2 m.entries fun other member =>
          apart other member entry List.mem_cons_self
      rw [List.foldl_cons, ih (m.insert entry.1 entry.2) (by simpa [last] using sorted), last]
      simp

theorem of_list_entries (m : NameMap α) : ofList m.entries = m := by
  have same : (ofList m.entries).entries = m.entries :=
    fold_insert_sorted empty m.entries (by simpa [empty] using m.sorted)
  cases m
  cases made : ofList _
  simp_all

end NameMap

namespace Json

theorem hex_value_digit (n : Nat) (small : n < 16) : hexValue? (hexDigit n) = some n := by
  have every : ∀ n : Fin 16, hexValue? (hexDigit n) = some n.val := by decide
  exact every ⟨n, small⟩

theorem hex_unit_control (n : Nat) (control : n < 0x20) (rest : List Char) :
    hexUnit? ('0' :: '0' :: hexDigit (n / 16) :: hexDigit (n % 16) :: rest) = some (n, rest) := by
  have zero : hexValue? '0' = some 0 := by decide
  have high := hex_value_digit (n / 16) (by omega)
  have low := hex_value_digit (n % 16) (by omega)
  simp only [hexUnit?, zero, high, low, Option.some.injEq, Prod.mk.injEq, and_true]
  omega

theorem escape_control (c : Char) (control : c.toNat < 0x20) (rest : List Char) :
    escape? ('u' :: '0' :: '0' :: hexDigit (c.toNat / 16) :: hexDigit (c.toNat % 16) :: rest) =
      some (some c, rest) := by
  have notHigh : isHigh c.toNat = false := by
    simp only [isHigh, Bool.and_eq_false_iff, decide_eq_false_iff_not]
    omega
  have notLow : isLow c.toNat = false := by
    simp only [isLow, Bool.and_eq_false_iff, decide_eq_false_iff_not]
    omega
  rw [escape?, hex_unit_control c.toNat control rest]
  simp [notHigh, notLow]

theorem escaped_cases (c : Char) (rest : List Char) :
    (escaped c = [c] ∧ c ≠ '"' ∧ c ≠ '\\' ∧ ¬ c.toNat < 0x20) ∨
      ∃ tail, escaped c = '\\' :: tail ∧ escape? (tail ++ rest) = some (some c, rest) := by
  unfold escaped
  by_cases quote : c = '"'
  · subst quote; exact .inr ⟨['"'], rfl, rfl⟩
  by_cases backslash : c = '\\'
  · subst backslash; exact .inr ⟨['\\'], rfl, rfl⟩
  by_cases newline : c = '\n'
  · subst newline; exact .inr ⟨['n'], rfl, rfl⟩
  by_cases carriage : c = '\r'
  · subst carriage; exact .inr ⟨['r'], rfl, rfl⟩
  by_cases tab : c = '\t'
  · subst tab; exact .inr ⟨['t'], rfl, rfl⟩
  by_cases bell : c = Char.ofNat 8
  · subst bell; exact .inr ⟨['b'], rfl, rfl⟩
  by_cases feed : c = Char.ofNat 12
  · subst feed; exact .inr ⟨['f'], rfl, rfl⟩
  rw [if_neg quote, if_neg backslash, if_neg newline, if_neg carriage, if_neg tab, if_neg bell, if_neg feed]
  by_cases control : c.toNat < 0x20
  · rw [if_pos control]
    exact .inr ⟨_, rfl, escape_control c control rest⟩
  · rw [if_neg control]
    exact .inl ⟨rfl, quote, backslash, control⟩

theorem text_body_plain (fuel : Nat) (read rest : List Char) (c : Char) (noQuote : c ≠ '"')
    (noBackslash : c ≠ '\\') (printable : ¬ c.toNat < 0x20) :
    textBody (fuel + 1) (some read) (c :: rest) = textBody fuel (some (c :: read)) rest := by
  rw [textBody]
  · rw [if_neg printable]
    rfl
  · exact noQuote
  · exact noBackslash

theorem text_body_quoted (fuel : Nat) (read text rest : List Char) (enough : text.length < fuel) :
    textBody fuel (some read) (text.flatMap escaped ++ '"' :: rest) =
      some (some (String.ofList (read.reverse ++ text)), rest) := by
  induction text generalizing fuel read with
  | nil =>
      obtain ⟨more, rfl⟩ := Nat.exists_eq_add_one.mpr enough
      simp [textBody]
  | cons c text ih =>
      obtain ⟨more, rfl⟩ := Nat.exists_eq_add_one.mpr (Nat.zero_lt_of_lt enough)
      have next := ih more (c :: read) (by simpa using enough)
      rw [List.reverse_cons, List.append_assoc] at next
      rw [List.flatMap_cons, List.append_assoc]
      rcases escaped_cases c (text.flatMap escaped ++ '"' :: rest) with
        ⟨plain, noQuote, noBackslash, printable⟩ | ⟨tail, shape, back⟩
      · rw [plain, List.singleton_append, text_body_plain more read _ c noQuote noBackslash printable]
        exact next
      · rw [shape, List.cons_append, textBody, back]
        exact next

theorem length_escaped (c : Char) : 1 ≤ (escaped c).length := by
  rcases escaped_cases c [] with ⟨plain, -⟩ | ⟨tail, shape, -⟩
  · simp [plain]
  · simp [shape]

theorem length_quoted (text : List Char) : text.length ≤ (text.flatMap escaped).length := by
  induction text with
  | nil => simp
  | cons c text ih =>
      have first := length_escaped c
      rw [List.flatMap_cons, List.length_append, List.length_cons]
      omega

theorem text_quoted (text rest : List Char) :
    text? (text.flatMap escaped ++ '"' :: rest) = some (some (String.ofList text), rest) := by
  have long := length_quoted text
  have body := text_body_quoted ((text.flatMap escaped ++ '"' :: rest).length + 1) [] text rest (by
    rw [List.length_append]
    omega)
  simpa [text?] using body

theorem value_quoted (fuel : Nat) (text rest : List Char) :
    value? (fuel + 1) (' ' :: (quotedChars text ++ rest)) = some (.text (String.ofList text), rest) := by
  have spaces : skipSpaces (' ' :: (quotedChars text ++ rest)) =
      '"' :: (text.flatMap escaped ++ '"' :: rest) := by
    simp [skipSpaces, isSpace, quotedChars]
  rw [value?, spaces]
  simp only [text_quoted, Option.map_some]

def textsRead (fields : List (String × String)) : List (Option String × Value) :=
  fields.map fun field => (some field.1, .text field.2)

section FirstField

variable (fuel : Nat) (field : String × String) (tail rest : List Char)

theorem skip_text_field : skipSpaces (textField field ++ tail) =
    '"' :: (field.1.toList.flatMap escaped ++ '"' :: (':' :: ' ' :: (quotedChars field.2.toList ++ tail))) := by
  simp [skipSpaces, isSpace, textField, quotedChars]

theorem skip_colon (text : List Char) : skipSpaces (':' :: text) = ':' :: text := by
  simp [skipSpaces, isSpace]

theorem fields_first_more (comma : skipSpaces tail = ',' :: rest) :
    fields? (fuel + 2) (textField field ++ tail) =
      (fields? (fuel + 1) rest).map fun (fs, rest) => ((some field.1, .text field.2) :: fs, rest) := by
  rw [fields?, skip_text_field]
  simp only [text_quoted, skip_colon, value_quoted, String.ofList_toList, comma]

theorem fields_first_last (brace : skipSpaces tail = '\x7d' :: rest) :
    fields? (fuel + 2) (textField field ++ tail) = some ([(some field.1, .text field.2)], rest) := by
  rw [fields?, skip_text_field]
  simp only [text_quoted, skip_colon, value_quoted, String.ofList_toList, brace]

end FirstField

theorem skip_newline (text : List Char) : skipSpaces ('\n' :: text) = skipSpaces text := by
  simp [skipSpaces, isSpace]

theorem fields_newline (fuel : Nat) (text : List Char) :
    fields? fuel ('\n' :: text) = fields? fuel text := by
  cases fuel with
  | zero => rfl
  | succ fuel => rw [fields?, fields?, skip_newline]

theorem fields_texts (fuel : Nat) (field : String × String) (fields : List (String × String))
    (rest : List Char) (enough : fields.length < fuel) :
    fields? (fuel + 1) (textFields (field :: fields) ++ '\n' :: '\x7d' :: rest) =
      some (textsRead (field :: fields), rest) := by
  induction fields generalizing fuel field with
  | nil =>
      obtain ⟨more, rfl⟩ := Nat.exists_eq_add_one.mpr enough
      have brace : skipSpaces ('\n' :: '\x7d' :: rest) = '\x7d' :: rest := by simp [skipSpaces, isSpace]
      rw [textFields, fields_first_last _ _ _ _ brace]
      rfl
  | cons other fields ih =>
      obtain ⟨more, rfl⟩ := Nat.exists_eq_add_one.mpr (Nat.zero_lt_of_lt enough)
      have next := ih more other (by simpa using enough)
      have comma (text : List Char) : skipSpaces (',' :: text) = ',' :: text := by simp [skipSpaces, isSpace]
      have begun := fields_first_more more field (',' :: '\n' :: (textFields (other :: fields) ++
        '\n' :: '\x7d' :: rest)) _ (comma _)
      rw [textFields, List.append_assoc, List.append_assoc, List.cons_append, List.cons_append,
        List.nil_append, begun, fields_newline, next]
      · rfl
      · simp

theorem skip_spaces_twice (text : List Char) : skipSpaces (skipSpaces text) = skipSpaces text := by
  induction text with
  | nil => rfl
  | cons c rest ih =>
      by_cases space : isSpace c = true
      · simpa [skipSpaces, space] using ih
      · simp [skipSpaces, space]

theorem fields_skipped (fuel : Nat) (text : List Char) :
    fields? fuel (skipSpaces text) = fields? fuel text := by
  cases fuel with
  | zero => rfl
  | succ fuel => rw [fields?, fields?, skip_spaces_twice]

theorem length_text_fields (field : String × String) (fields : List (String × String)) :
    (field :: fields).length ≤ (textFields (field :: fields)).length := by
  induction fields generalizing field with
  | nil => simp [textFields, textField]
  | cons other fields ih =>
      have next := ih other
      rw [textFields]
      · simp only [List.length_append, List.length_cons] at next ⊢
        omega
      · simp

theorem text_fields_start (field : String × String) (fields : List (String × String))
    (tail : List Char) : ∃ rest, skipSpaces (textFields (field :: fields) ++ tail) = '"' :: rest := by
  cases fields with
  | nil => exact ⟨_, by simp [textFields, textField, quotedChars, skipSpaces, isSpace]; rfl⟩
  | cons other fields =>
      exact ⟨_, by simp [textFields, textField, quotedChars, skipSpaces, isSpace]; rfl⟩

theorem parse_indented_texts (fields : List (String × String)) :
    parse? (indentedTexts fields) = some (.object (textsRead fields)) := by
  cases fields with
  | nil => rfl
  | cons field fields =>
      have long := length_text_fields field fields
      have chars : (indentedTexts (field :: fields)).toList =
          '\x7b' :: '\n' :: (textFields (field :: fields) ++ ['\n', '\x7d']) := by
        simp [indentedTexts]
      obtain ⟨rest, start⟩ := text_fields_start field fields ['\n', '\x7d']
      obtain ⟨fuel, size⟩ : ∃ fuel, 2 * (indentedTexts (field :: fields)).toList.length = fuel + 1 ∧
          fields.length < fuel := by
        refine ⟨2 * (textFields (field :: fields)).length + 7, ?_, ?_⟩
        · rw [chars]
          simp only [List.length_cons, List.length_append, List.length_nil]
          omega
        · rw [List.length_cons] at long
          omega
      have brace (text : List Char) : skipSpaces ('\x7b' :: text) = '\x7b' :: text := by
        simp [skipSpaces, isSpace]
      have inside := fields_texts fuel field fields [] size.2
      rw [← fields_skipped, start] at inside
      unfold parse?
      dsimp only
      rw [size.1, chars, value?, brace]
      simp only [skip_newline, start]
      simp [inside, skipSpaces]

end Json

theorem parse_rendered_manifest (keys : VersionKeys) :
    Manifest.parse? (Manifest.render keys) = some keys := by
  have entries : (Json.textsRead keys.entries).mapM Manifest.entry? = some keys.entries := by
    induction keys.entries with
    | nil => rfl
    | cons entry rest ih =>
        have shape : Json.textsRead (entry :: rest) =
            (some entry.1, Json.Value.text entry.2) :: Json.textsRead rest := rfl
        rw [shape, List.mapM_cons, ih]
        rfl
  rw [Manifest.parse?, Manifest.render, Bytes.to_text_of_text, Option.bind_some, Json.parse_indented_texts,
    Option.bind_some, Manifest.ofValue?, entries, Option.map_some, NameMap.of_list_entries]

end IndexKeeper
