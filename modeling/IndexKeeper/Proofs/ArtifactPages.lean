import IndexKeeper.Proofs.DecodedTexts
import IndexKeeper.Proofs.PrintedJson
import IndexKeeper.Proofs.RunPages
import IndexKeeper.Source.Scan

set_option autoImplicit false

namespace IndexKeeper.GitHub

structure Upload where
  id : Int
  name : String
  expired : Bool
deriving DecidableEq

def usable (uploads : List Upload) : List Artifact :=
  (uploads.filter fun u => !u.expired).map fun u => ⟨some u.id, u.name⟩

-- An artifact that does not say whether it has expired has not.
inductive DescribesUpload : Json.Value → Upload → Prop where
  | marked (fields : List (Option String × Json.Value)) (u : Upload)
      (fits : -9223372036854775808 ≤ u.id ∧ u.id < 9223372036854775808)
      (numbered : Json.HasField fields "id" (.integer u.id))
      (named : Json.HasField fields "name" (.text u.name))
      (kept : Json.HasField fields "expired" (.boolean u.expired)) : DescribesUpload (.object fields) u
  | unmarked (fields : List (Option String × Json.Value)) (u : Upload)
      (fits : -9223372036854775808 ≤ u.id ∧ u.id < 9223372036854775808)
      (numbered : Json.HasField fields "id" (.integer u.id))
      (named : Json.HasField fields "name" (.text u.name))
      (silent : ∀ f ∈ fields, f.1 ≠ some "expired") (kept : u.expired = false) : DescribesUpload (.object fields) u

structure ShowsUploads (r : Http.Response) (uploads : List Upload) : Prop where
  success : r.status = 200
  body : ∃ fields items, Json.parse? r.text = some (.object fields) ∧
    Json.HasField fields "artifacts" (.array items) ∧ List.Forall₂ DescribesUpload items uploads

def artifactPage (c : GitHub) (run : Run) (page : Option Nat) : Http.Request :=
  { c.artifactsRequest run with
    parameters := ("per_page", toString pageLimit) :: page.toList.map fun n => ("page", toString n) }

-- A server that offers the artifacts of a run in pages, counted from one. Past the end its pages are empty.
def OffersUploads (c : GitHub) (server : Http.Server) (run : Run) (all : List Upload) : Prop :=
  ∀ sent page, page ≠ some 0 → ∃ r, server sent (c.artifactPage run page) = some r ∧
    ShowsUploads r ((all.drop ((page.getD 1 - 1) * pageLimit)).take pageLimit)

def Upload.listed (u : Upload) : Option Artifact := if u.expired then none else some ⟨some u.id, u.name⟩

theorem filter_map_listed (uploads : List Upload) : (uploads.map Upload.listed).filterMap id = usable uploads := by
  rw [List.filterMap_map, Function.id_comp, usable]
  induction uploads with
  | nil => rfl
  | cons u rest ih => cases kept : u.expired <;> simp [Upload.listed, kept, ih]

theorem describes_upload_read (v : Json.Value) (u : Upload) (describes : DescribesUpload v u) :
    artifact? v = some u.listed := by
  cases describes with
  | marked fields u fits numbered named kept =>
      have record : (Json.Value.object fields).record? ["id", "name", "expired"] =
          some [some (.integer u.id), some (.text u.name), some (.boolean u.expired)] := by
        simp [Json.record_read fields _ numbered.readable, Json.has_field_read fields _ _ numbered,
          Json.has_field_read fields _ _ named, Json.has_field_read fields _ _ kept]
      simp [artifact?, record, Json.Value.integer?, Json.Value.text?, Json.Value.boolean?, fits, Upload.listed]
  | unmarked fields u fits numbered named silent kept =>
      have absent : Json.Value.field? fields "expired" = some none := by
        have none : fields.filter (fun f => f.1 == some "expired") = [] :=
          List.filter_eq_nil_iff.mpr fun f member => by simpa using silent f member
        rw [Json.Value.field?, none]
      have record : (Json.Value.object fields).record? ["id", "name", "expired"] =
          some [some (.integer u.id), some (.text u.name), none] := by
        simp [Json.record_read fields _ numbered.readable, Json.has_field_read fields _ _ numbered,
          Json.has_field_read fields _ _ named, absent]
      simp [artifact?, record, Json.Value.integer?, Json.Value.text?, fits, Upload.listed, kept]

theorem shown_uploads_read (r : Http.Response) (uploads : List Upload) (shows : ShowsUploads r uploads) :
    Provider.readBody (Json.Value.listed? "artifacts" artifact?) "Invalid artifact list response" r =
      .ok (uploads.map Upload.listed) := by
  obtain ⟨fields, items, parsed, listed, describe⟩ := shows.body
  exact Json.body_listed r _ _ artifact? fields items _ parsed listed
    (Json.items_told artifact? DescribesUpload Upload.listed describes_upload_read items uploads describe)

theorem first_page_listed (c : GitHub) (server : Http.Server) (run : Run) (all : List Upload)
    (sendable : (c.artifactsRequest run).sendable = true) (offers : c.OffersUploads server run all) :
    c.artifacts server run = (.ok (usable (all.take pageLimit)), [c.artifactsRequest run]) := by
  obtain ⟨r, answered, shows⟩ := offers [] none (by simp)
  have unnumbered : c.artifactPage run none = c.artifactsRequest run := rfl
  rw [unnumbered] at answered
  rw [Option.getD_none, Nat.sub_self, Nat.zero_mul, List.drop_zero] at shows
  unfold artifacts
  rw [Provider.send_answered server [] _ _ _ r sendable shows.success answered]
  dsimp only
  rw [shown_uploads_read r _ shows, Except.map, filter_map_listed, List.nil_append]

theorem usable_append (before after : List Upload) : usable (before ++ after) = usable before ++ usable after := by
  simp [usable]

theorem usable_nil_iff (uploads : List Upload) : usable uploads = [] ↔ ∀ u ∈ uploads, u.expired = true := by
  simp [usable]

def matching (name : String) (artifacts : List Artifact) : Nat := artifacts.countP fun a => a.name = name

theorem matching_usable_zero_iff (name : String) (uploads : List Upload) :
    matching name (usable uploads) = 0 ↔ ∀ u ∈ uploads, u.expired = true ∨ u.name ≠ name := by
  rw [matching, List.countP_eq_zero]
  constructor
  · intro other u member
    cases kept : u.expired with
    | true => exact .inl rfl
    | false =>
        have listed : (⟨some u.id, u.name⟩ : Artifact) ∈ usable uploads :=
          List.mem_map.mpr ⟨u, List.mem_filter.mpr ⟨member, by simp [kept]⟩, rfl⟩
        exact .inr (by simpa using other _ listed)
  · intro each a listed
    obtain ⟨u, kept, rfl⟩ := List.mem_map.mp listed
    obtain ⟨member, fresh⟩ := List.mem_filter.mp kept
    rcases each u member with gone | other
    · simp [gone] at fresh
    · simpa using other

theorem artifacts_complete_iff (c : GitHub) (server : Http.Server) (run : Run) (all : List Upload)
    (sendable : (c.artifactsRequest run).sendable = true) (offers : c.OffersUploads server run all) :
    (c.artifacts server run).2 = [c.artifactsRequest run] ∧
      ∃ listed, (c.artifacts server run).1 = .ok listed ∧
        listed = usable (all.take pageLimit) ∧
        (listed = usable all ↔ ∀ u ∈ all.drop pageLimit, u.expired = true) ∧
        ∀ name, matching name listed = matching name (usable all) ↔
          ∀ u ∈ all.drop pageLimit, u.expired = true ∨ u.name ≠ name := by
  have split : usable all = usable (all.take pageLimit) ++ usable (all.drop pageLimit) := by
    rw [← usable_append, List.take_append_drop]
  rw [first_page_listed c server run all sendable offers]
  refine ⟨rfl, _, rfl, rfl, ?_, fun name => ?_⟩
  · rw [split, List.self_eq_append_right, usable_nil_iff]
  · have sum : matching name (usable all) =
        matching name (usable (all.take pageLimit)) + matching name (usable (all.drop pageLimit)) := by
      rw [split, matching, List.countP_append, ← matching, ← matching]
    rw [sum, ← matching_usable_zero_iff]
    omega

theorem provider_artifacts (c : GitHub) (server : Http.Server) (asked : List Question) (run : Run)
    (listed : List Artifact) (given : (c.artifacts server run).1 = .ok listed) :
    (c.provider server).artifacts asked run = .gives listed := by
  unfold provider
  dsimp only
  rw [given]
  rfl

theorem unmatched_barren (rule : RunRule) (p : Provider) (visited : VisitedSet) (asked : List Question) (run : Run)
    (listed : List Artifact) (fresh : rule.passes visited run = false) (given : p.artifacts asked run = .gives listed)
    (unmatched : rule.choose listed = none) : (look rule p none visited asked run).1 = .gives .barren := by
  simp [look, fresh, given, Reply.mapError, unmatched]

namespace LatePage

def client : GitHub := ⟨"http://localhost:9000", "o", "r", "ci.yml", none⟩

def run : Run := ⟨⟨7, ⟨1717228800, 0⟩⟩, false⟩

def rule : RunRule := .workflow "complog" "build.complog"

def logs : List Upload := (List.range 100).map fun n => ⟨n + 1, "logs-" ++ toString n, false⟩

def uploads (expired : Bool) : List Upload := logs ++ [⟨101, "complog", expired⟩]

def value (u : Upload) : Json.Value :=
  .ofFields [("id", .integer u.id), ("name", .text u.name), ("expired", .boolean u.expired)]

def response (page : List Upload) : Http.Response :=
  ⟨200, [], Bytes.ofText (Json.compact (.ofFields [("artifacts", .array (page.map value))]))⟩

def server (all : List Upload) : Http.Server := fun _ request =>
  some (if request = client.artifactPage run none ∨ request = client.artifactPage run (some 1) then
      response (all.take pageLimit)
    else if request = client.artifactPage run (some 2) then response (all.drop pageLimit)
    else response [])

theorem values_whole (page : List Upload) : Json.WholeItems (page.map value) := by
  induction page with
  | nil => trivial
  | cons u rest ih => exact ⟨by simp [value, Json.Value.ofFields, Json.Value.Whole, Json.WholeFields], ih⟩

theorem value_describes (u : Upload) (fits : -9223372036854775808 ≤ u.id ∧ u.id < 9223372036854775808) :
    DescribesUpload (value u) u := by
  refine .marked _ u fits ⟨?_, ?_⟩ ⟨?_, ?_⟩ ⟨?_, ?_⟩ <;> simp

theorem response_shows (page : List Upload)
    (fit : ∀ u ∈ page, -9223372036854775808 ≤ u.id ∧ u.id < 9223372036854775808) :
    ShowsUploads (response page) page := by
  refine ⟨rfl, [(some "artifacts", .array (page.map value))], page.map value, ?_, ⟨by simp, rfl⟩, ?_⟩
  · rw [Http.Response.text, response, Utf8.decode_of_text, Json.parse_compact]
    · rfl
    · exact ⟨rfl, values_whole page, trivial⟩
  · rw [List.forall₂_map_left_iff, List.forall₂_same]
    exact fun u member => value_describes u (fit u member)

theorem page_number (page other : Option Nat)
    (same : client.artifactPage run page = client.artifactPage run other) : page = other := by
  have written : page.map Nat.repr = other.map Nat.repr := by
    cases page with
    | none => cases other <;> simp [artifactPage] at same ⊢
    | some n => cases other <;> simp [artifactPage] at same ⊢; exact same
  exact Option.map_injective Json.natural_text_injective written

theorem uploads_fit (expired : Bool) :
    ∀ u ∈ uploads expired, -9223372036854775808 ≤ u.id ∧ u.id < 9223372036854775808 := by
  cases expired <;> decide +kernel

theorem offers (expired : Bool) : client.OffersUploads (server (uploads expired)) run (uploads expired) := by
  intro sent page counted
  refine ⟨_, rfl, ?_⟩
  have shown (part : List Upload) (sub : part ⊆ uploads expired) : ShowsUploads (response part) part :=
    response_shows part fun u member => uploads_fit expired u (sub member)
  by_cases first : page = none ∨ page = some 1
  · rw [if_pos (first.imp (congrArg _) (congrArg _))]
    have start : page.getD 1 - 1 = 0 := by rcases first with rfl | rfl <;> rfl
    rw [start, Nat.zero_mul, List.drop_zero]
    exact shown _ (List.take_subset _ _)
  · rw [if_neg fun same => first (same.imp (page_number _ _) (page_number _ _))]
    by_cases second : page = some 2
    · subst second
      have rest : (((uploads expired).drop ((2 - 1) * pageLimit)).take pageLimit) = (uploads expired).drop pageLimit := by
        cases expired <;> decide +kernel
      rw [if_pos rfl, Option.getD_some, rest]
      exact shown _ (List.drop_subset _ _)
    · rw [if_neg fun same => second (page_number _ _ same)]
      have past : (uploads expired).drop ((page.getD 1 - 1) * pageLimit) = [] := List.drop_eq_nil_of_le (by
        have length : (uploads expired).length = 101 := by cases expired <;> decide +kernel
        obtain ⟨n, rfl⟩ := Option.ne_none_iff_exists'.mp (not_or.mp first).1
        have far : 3 ≤ n := by
          have one := (not_or.mp first).2
          simp only [ne_eq, Option.some.injEq] at counted one second
          omega
        rw [length, Option.getD_some, pageLimit]
        omega)
      rw [past]
      exact shown [] (List.nil_subset _)

end LatePage

open LatePage in
theorem expired_upload_after_page :
    client.OffersUploads (server (uploads true)) run (uploads true) ∧
      (client.artifacts (server (uploads true)) run).1 = .ok (usable (uploads true)) := by
  obtain ⟨-, listed, given, -, whole, -⟩ :=
    artifacts_complete_iff client (server (uploads true)) run (uploads true) (by decide +kernel) (offers true)
  exact ⟨offers true, given.trans (congrArg Except.ok (whole.mpr (by decide +kernel)))⟩

open LatePage in
theorem upload_after_page_missed :
    client.OffersUploads (server (uploads false)) run (uploads false) ∧
      (client.artifactsRequest run).sendable = true ∧
      (client.artifacts (server (uploads false)) run).1 ≠ .ok (usable (uploads false)) ∧
      matching "complog" (usable (uploads false)) = 1 ∧
      rule.choose (usable (uploads false)) = some ⟨some 101, "complog"⟩ ∧
      (look rule (client.provider (server (uploads false))) none (.empty 50) [] run).1 = .gives .barren := by
  have sendable : (client.artifactsRequest run).sendable = true := by decide +kernel
  have listed := first_page_listed client (server (uploads false)) run (uploads false) sendable (offers false)
  refine ⟨offers false, sendable, ?_, by decide +kernel, by decide +kernel, ?_⟩
  · rw [listed]
    decide +kernel
  · have answer := provider_artifacts client (server (uploads false)) [] run _ (congrArg Prod.fst listed)
    exact unmatched_barren rule _ (.empty 50) [] run _ (by decide +kernel) answer (by decide +kernel)

end IndexKeeper.GitHub
