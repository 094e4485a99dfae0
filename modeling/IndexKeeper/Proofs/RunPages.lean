import Mathlib.Data.List.Forall2
import IndexKeeper.Proofs.ManifestText
import IndexKeeper.Proofs.PrintedJson
import IndexKeeper.Proofs.Responses
import IndexKeeper.Provider.GitHub

set_option autoImplicit false

namespace IndexKeeper

namespace Json

structure HasField (fields : List (Option String × Value)) (name : String) (v : Value) : Prop where
  readable : ∀ f ∈ fields, f.1.isNone = false
  once : fields.filter (fun f => f.1 == some name) = [(some name, v)]

theorem has_field_read (fields : List (Option String × Value)) (name : String) (v : Value)
    (has : HasField fields name v) : Value.field? fields name = some (some v) := by
  rw [Value.field?, has.once]

theorem record_read (fields : List (Option String × Value)) (names : List String)
    (readable : ∀ f ∈ fields, f.1.isNone = false) :
    (Value.object fields).record? names = names.mapM (Value.field? fields) := by
  have none : (fields.any fun f => f.1.isNone) = false := by
    rw [List.any_eq_false]
    exact fun f member => by simp [readable f member]
  simp [Value.record?, none]

theorem items_told {α β : Type} (read : Value → Option β) (tells : Value → α → Prop) (gives : α → β)
    (each : ∀ v a, tells v a → read v = some (gives a)) (items : List Value) (told : List α)
    (tell : List.Forall₂ tells items told) : items.mapM read = some (told.map gives) := by
  induction tell with
  | nil => rfl
  | cons first rest ih => simp [each _ _ first, ih]

theorem body_listed {α : Type} (r : Http.Response) (name invalid : String) (read : Value → Option α)
    (fields : List (Option String × Value)) (items : List Value) (values : List α)
    (parsed : parse? r.text = some (.object fields)) (listed : HasField fields name (.array items))
    (each : items.mapM read = some values) : Provider.readBody (Value.listed? name read) invalid r = .ok values := by
  have record : (Value.object fields).record? [name] = some [some (.array items)] := by
    simp [record_read fields _ listed.readable, has_field_read fields _ _ listed]
  have found : Value.listed? name read (.object fields) = some values := by
    rw [Value.listed?, record]
    exact each
  rw [Provider.readBody, parsed, Option.bind_some, found]

end Json

namespace GitHub

-- Fields other than these do not matter.
inductive Describes : Json.Value → Run → Prop where
  | run (fields : List (Option String × Json.Value)) (id : Int) (event updated : String) (finishedAt : Instant)
      (fits : -9223372036854775808 ≤ id ∧ id < 9223372036854775808)
      (numbered : Json.HasField fields "id" (.integer id))
      (started : Json.HasField fields "event" (.text event))
      (ended : Json.HasField fields "updated_at" (.text updated))
      (time : Timestamp.parse? updated = some finishedAt) :
      Describes (.object fields) ⟨⟨id, finishedAt⟩, "pull_request".toList.isPrefixOf event.toList⟩

structure Shows (r : Http.Response) (runs : List Run) : Prop where
  success : r.status = 200
  body : ∃ fields items, Json.parse? r.text = some (.object fields) ∧
    Json.HasField fields "workflow_runs" (.array items) ∧ List.Forall₂ Describes items runs

def block (all : List Run) (perPage page : Nat) : List Run := (all.drop ((page - 1) * perPage)).take perPage

-- A server that offers runs in pages of the length asked for. Past the end its pages are empty.
def Offers (c : GitHub) (server : Http.Server) (all : List Run) (perPage : Nat) : Prop :=
  ∀ sent page, 0 < page → ∃ r, server sent (c.listRequest perPage page) = some r ∧ Shows r (block all perPage page)

theorem list_request_sendable (c : GitHub) (perPage other page next : Nat) :
    (c.listRequest perPage page).sendable = (c.listRequest other next).sendable := by
  simp [Http.Request.sendable, Http.Request.url?, listRequest]

namespace FullPage

open Json

def texts : List (String × String) := [("event", "push"), ("updated_at", "2024-06-01T08:00:00Z")]

def item (digit : Char) : List Char :=
  ['\x7b', '"', 'i', 'd', '"', ':', digit, ','] ++ textFields texts ++ ['\n', '\x7d']

def value (id : Int) : Json.Value := .object ((some "id", .integer id) :: textsRead texts)

def Numbers (digit : Char) (id : Int) : Prop :=
  ∀ fuel rest, value? (fuel + 1) (digit :: ',' :: rest) = some (.integer id, ',' :: rest)

theorem item_read (digit : Char) (id : Int) (numbers : Numbers digit id) (fuel : Nat) (rest : List Char) :
    value? (fuel + 5) (item digit ++ rest) = some (value id, rest) := by
  have skip (c : Char) (text : List Char) (solid : isSpace c = false) : skipSpaces (c :: text) = c :: text := by
    simp [skipSpaces, solid]
  have name (tail : List Char) : text? ('i' :: 'd' :: '"' :: tail) = some (some "id", tail) :=
    text_quoted ['i', 'd'] tail
  have others : fields? (fuel + 3) (textFields texts ++ '\n' :: '\x7d' :: rest) = some (textsRead texts, rest) :=
    fields_texts (fuel + 2) ("event", "push") [("updated_at", "2024-06-01T08:00:00Z")] rest (by simp)
  have fields : fields? (fuel + 4) ('"' :: 'i' :: 'd' :: '"' :: ':' :: digit :: ',' ::
      (textFields texts ++ '\n' :: '\x7d' :: rest)) = some ((some "id", .integer id) :: textsRead texts, rest) := by
    rw [fields?, skip _ _ rfl]
    simp only [name, skip ':' _ rfl, numbers (fuel + 2), skip ',' _ rfl, others]
    rfl
  rw [item, List.append_assoc, List.append_assoc]
  simp only [List.cons_append, List.nil_append]
  rw [value?]
  simp [skipSpaces, isSpace, fields, value]

theorem numbers (digit : Char) (listed : digit ∈ ['1', '2']) : Numbers digit (digit.toNat - 48) := by
  intro fuel rest
  rcases List.mem_pair.mp listed with rfl | rfl
  · simp [value?, skipSpaces, isSpace, number?, digits, fraction?, exponent?, numeral]
  · simp [value?, skipSpaces, isSpace, number?, digits, fraction?, exponent?, numeral]

def joined : List Char → List Char
  | [] => []
  | [digit] => item digit
  | digit :: rest => item digit ++ ',' :: joined rest

def values (ids : List Char) : List Json.Value := ids.map fun digit => value (digit.toNat - 48)

theorem items_read (digit : Char) (more : List Char) (listed : ∀ d ∈ digit :: more, d ∈ ['1', '2']) (fuel : Nat)
    (rest : List Char) : items? (more.length + fuel + 6) (joined (digit :: more) ++ ']' :: rest) =
      some (values (digit :: more), rest) := by
  induction more generalizing digit with
  | nil =>
      have read := item_read digit _ (numbers digit (listed digit (by simp))) fuel (']' :: rest)
      rw [joined, List.length_nil, Nat.zero_add, items?, read]
      simp [skipSpaces, isSpace, values]
  | cons next more ih =>
      have read := item_read digit _ (numbers digit (listed digit (by simp))) (more.length + fuel + 1)
        (',' :: (joined (next :: more) ++ ']' :: rest))
      have later := ih next fun d member => listed d (List.mem_cons_of_mem _ member)
      rw [joined, List.append_assoc, List.cons_append, List.length_cons, items?,
        show more.length + 1 + fuel + 5 = more.length + fuel + 1 + 5 by omega, read]
      · simp [skipSpaces, isSpace, values, later]
      · simp

theorem joined_brace (digit : Char) (more : List Char) : ∃ rest, joined (digit :: more) = '\x7b' :: rest := by
  cases more with
  | nil => exact ⟨_, rfl⟩
  | cons next more => exact ⟨_, rfl⟩

theorem joined_length (digit : Char) (more : List Char) : more.length ≤ (joined (digit :: more)).length := by
  induction more generalizing digit with
  | nil => simp
  | cons next more ih =>
      have later := ih next
      rw [joined, List.length_append, List.length_cons, List.length_cons]
      · omega
      · simp

theorem array_read (digits : List Char) (listed : ∀ d ∈ digits, d ∈ ['1', '2']) (fuel : Nat) (rest : List Char) :
    value? (digits.length + fuel + 6) ('[' :: (joined digits ++ ']' :: rest)) =
      some (.array (values digits), rest) := by
  cases digits with
  | nil => simp [value?, skipSpaces, isSpace, joined, values]
  | cons digit more =>
      obtain ⟨inside, brace⟩ := joined_brace digit more
      have items := items_read digit more listed fuel rest
      rw [brace, List.cons_append] at items
      rw [brace, List.length_cons, show more.length + 1 + fuel + 6 = more.length + fuel + 6 + 1 by omega, value?]
      simp [skipSpaces, isSpace, items]

def listing (digits : List Char) : List Char :=
  '\x7b' :: (quotedChars "workflow_runs".toList ++ ':' :: '[' :: (joined digits ++ [']', '\x7d']))

theorem listing_read (digits : List Char) (listed : ∀ d ∈ digits, d ∈ ['1', '2']) :
    parse? (String.ofList (listing digits)) = some (.object [(some "workflow_runs", .array (values digits))]) := by
  obtain ⟨fuel, size⟩ : ∃ fuel, 2 * (listing digits).length = digits.length + fuel + 7 := by
    refine ⟨2 * (listing digits).length - digits.length - 7, ?_⟩
    have long : digits.length ≤ (joined digits).length + 1 := by
      cases digits with
      | nil => simp
      | cons digit more => simpa using joined_length digit more
    simp only [listing, List.length_append, List.length_cons, List.length_nil]
    omega
  have name (tail : List Char) :
      text? ("workflow_runs".toList.flatMap escaped ++ '"' :: tail) = some (some "workflow_runs", tail) :=
    text_quoted "workflow_runs".toList tail
  have solid (c : Char) (text : List Char) (solid : isSpace c = false) : skipSpaces (c :: text) = c :: text := by
    simp [skipSpaces, solid]
  have fields : fields? (digits.length + fuel + 7) (quotedChars "workflow_runs".toList ++ ':' :: '[' ::
      (joined digits ++ [']', '\x7d'])) = some ([(some "workflow_runs", .array (values digits))], []) := by
    rw [quotedChars, List.cons_append, List.append_assoc, fields?, solid _ _ rfl]
    simp only [List.cons_append, List.nil_append, name, solid ':' _ rfl, array_read digits listed fuel ['\x7d'],
      solid '\x7d' _ rfl]
  unfold parse?
  dsimp only
  rw [String.toList_ofList, size, listing, value?, solid _ _ rfl]
  rw [quotedChars, List.cons_append] at fields ⊢
  generalize "workflow_runs".toList.flatMap escaped ++ ['"'] ++ ':' :: '[' :: (joined digits ++ [']', '\x7d']) =
    inside at fields ⊢
  simp [skipSpaces, isSpace, fields]

def ascii (text : List Char) : Bool := text.all fun c => c.toNat < 128

theorem joined_ascii (digits : List Char) (listed : ∀ d ∈ digits, d ∈ ['1', '2']) : ascii (joined digits) = true := by
  have each (digit : Char) (member : digit ∈ ['1', '2']) : ascii (item digit) = true := by
    rcases List.mem_pair.mp member with rfl | rfl <;> decide +kernel
  induction digits with
  | nil => rfl
  | cons digit more ih =>
      have first := each digit (listed digit List.mem_cons_self)
      have later := ih fun d member => listed d (List.mem_cons_of_mem _ member)
      cases more with
      | nil => exact first
      | cons next more =>
          rw [joined]
          · rw [ascii, List.all_append, List.all_cons, ← ascii, ← ascii, first, later]
            rfl
          · simp

theorem listing_ascii (digits : List Char) (listed : ∀ d ∈ digits, d ∈ ['1', '2']) :
    ascii (listing digits) = true := by
  have front : ascii ('\x7b' :: (quotedChars "workflow_runs".toList ++ [':', '['])) = true := by decide +kernel
  have inner := joined_ascii digits listed
  unfold ascii at *
  simp only [listing, List.all_cons, List.all_append] at front ⊢
  simp_all

def encoded (text : List Char) : Bytes := text.map fun c => UInt8.ofNat c.toNat

theorem decode_ascii (text : List Char) (small : ascii text = true) :
    Utf8.decodeLossy (encoded text) = String.ofList text := by
  have step (read : List Char) (c : Char) (small : c.toNat < 128) :
      Utf8.step ⟨read, none⟩ (UInt8.ofNat c.toNat) = ⟨c :: read, none⟩ := by
    have same : (UInt8.ofNat c.toNat).toNat = c.toNat := by simpa using by omega
    simp [Utf8.step, Utf8.start, same, small]
  have steps (read : List Char) : (encoded text).foldl Utf8.step ⟨read, none⟩ = ⟨text.reverse ++ read, none⟩ := by
    induction text generalizing read with
    | nil => rfl
    | cons c rest ih =>
        rw [ascii, List.all_cons, Bool.and_eq_true, decide_eq_true_iff] at small
        rw [encoded, List.map_cons, List.foldl_cons, step read c small.1, ← encoded, ih small.2]
        simp
  simp [Utf8.decodeLossy, steps]

def client : GitHub := ⟨"http://localhost:9000", "o", "r", "ci.yml", none⟩

def run (digit : Char) : Run := ⟨⟨digit.toNat - 48, ⟨1717228800, 0⟩⟩, false⟩

def response (digits : List Char) : Http.Response := ⟨200, [], encoded (listing digits)⟩

def digits : List Char := List.replicate 100 '2' ++ ['1']

def server : Http.Server := fun _ request =>
  some (if request = client.listRequest 100 1 then response (digits.take 100)
    else if request = client.listRequest 100 2 then response (digits.drop 100)
    else response [])

theorem value_describes (digit : Char) (listed : digit ∈ ['1', '2']) :
    Describes (value (digit.toNat - 48)) (run digit) := by
  have readable : ∀ f ∈ (some "id", Json.Value.integer (digit.toNat - 48)) :: textsRead texts, f.1.isNone = false := by
    simp [textsRead, texts]
  refine .run _ _ "push" "2024-06-01T08:00:00Z" _ ?_ ⟨readable, ?_⟩ ⟨readable, ?_⟩ ⟨readable, ?_⟩ (by decide +kernel)
  · rcases List.mem_pair.mp listed with rfl | rfl <;> decide
  · simp [textsRead, texts]
  · simp [textsRead, texts]
  · simp [textsRead, texts]

theorem response_shows (digits : List Char) (listed : ∀ d ∈ digits, d ∈ ['1', '2']) :
    Shows (response digits) (digits.map run) := by
  refine ⟨rfl, [(some "workflow_runs", .array (values digits))], values digits, ?_, ⟨by simp, rfl⟩, ?_⟩
  · rw [Http.Response.text, response, decode_ascii _ (listing_ascii digits listed)]
    exact listing_read digits listed
  · rw [values, List.forall₂_map_left_iff, List.forall₂_map_right_iff, List.forall₂_same]
    exact fun digit member => value_describes digit (listed digit member)

theorem request_page (page other : Nat) (same : client.listRequest 100 page = client.listRequest 100 other) :
    page = other := by
  have written : page.repr = other.repr := by simpa [listRequest] using same
  exact Json.natural_text_injective _ _ written

theorem offers : client.Offers server (digits.map run) 100 := by
  intro sent page counted
  refine ⟨_, rfl, ?_⟩
  have listed : ∀ d ∈ digits, d ∈ ['1', '2'] := by
    intro d member
    rcases List.mem_append.mp member with here | here
    · simp [List.eq_of_mem_replicate here]
    · simp [List.mem_singleton.mp here]
  have shown (part : List Char) (sub : part ⊆ digits) : Shows (response part) (part.map run) :=
    response_shows part fun d member => listed d (sub member)
  rw [block, ← List.map_drop, ← List.map_take]
  by_cases first : page = 1
  · subst first
    exact shown (digits.take 100) (List.take_subset _ _)
  · rw [if_neg fun same => first (request_page _ _ same)]
    by_cases second : page = 2
    · subst second
      rw [if_pos rfl, show ((digits.drop ((2 - 1) * 100)).take 100) = digits.drop 100 by decide +kernel]
      exact shown (digits.drop 100) (List.drop_subset _ _)
    · rw [if_neg fun same => second (request_page _ _ same)]
      have past : digits.drop ((page - 1) * 100) = [] := List.drop_eq_nil_of_le (by
        rw [show digits.length = 101 by decide +kernel]
        omega)
      rw [past]
      exact shown [] (List.nil_subset _)

end FullPage

end GitHub
end IndexKeeper
