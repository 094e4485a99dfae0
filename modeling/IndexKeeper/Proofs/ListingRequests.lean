import Mathlib.Algebra.Order.Floor.Div
import IndexKeeper.Proofs.BuildPages
import IndexKeeper.Proofs.RunPages

set_option autoImplicit false

namespace IndexKeeper

def Http.Server.Succeeds (server : Http.Server) : Prop :=
  ∀ sent request r, server sent request = some r → r.isSuccess = true

namespace Provider

section Listing

variable (server : Http.Server) (read : Http.Response → Except ProviderError (List Run))

def brought : List Http.Request → List Http.Request → List Run
  | _, [] => []
  | sent, request :: more =>
      (match (server sent request).map read with
        | some (.ok page) => page
        | _ => []) ++ brought (sent ++ [request]) more

def Readable : Prop := ∀ sent request, ∃ r page, server sent request = some r ∧ read r = .ok page

structure Listed (asks : List Run → Http.Request → Prop) (max : Nat) (sent : List Http.Request) (runs : List Run)
    (answer : Answer (List Run)) (more : List Http.Request) : Prop where
  asked : answer.2 = sent ++ more
  each : ∀ before request after, more = before ++ request :: after → asks (runs ++ brought server read sent before) request
  gives : ∀ listed, answer.1 = .ok listed → listed = (runs ++ brought server read sent more).take max
  ends : Readable server read → (∀ runs request, asks runs request → request.sendable = true) →
    ∃ listed, answer.1 = .ok listed

variable {server read} {asks : List Run → Http.Request → Prop} {max : Nat} {sent : List Http.Request} {runs : List Run}
  {request : Http.Request}

theorem listed_enough : Listed server read asks max sent runs (.ok (runs.take max), sent) [] where
  asked := (List.append_nil sent).symm
  each before request after split := by simp at split
  gives listed given := by simpa [brought] using (Except.ok.inj given).symm
  ends _ _ := ⟨_, rfl⟩

theorem listed_silent (e : ProviderError) (asking : asks runs request)
    (silent : request.sendable = false ∨ server sent request = none) :
    Listed server read asks max sent runs (.error e, sent) [] where
  asked := (List.append_nil sent).symm
  each before request after split := by simp at split
  gives listed given := by cases given
  ends readable sendable := by
    obtain ⟨r, page, answered, -⟩ := readable sent request
    have sends := sendable runs request asking
    simp [answered, sends] at silent

theorem listed_unread (r : Http.Response) (e : ProviderError) (asking : asks runs request)
    (answered : server sent request = some r) (unread : read r = .error e) :
    Listed server read asks max sent runs (.error e, sent ++ [request]) [request] where
  asked := rfl
  each before other after split := by
    cases before with
    | nil =>
        obtain ⟨rfl, -⟩ := List.cons.inj split
        simpa [brought] using asking
    | cons first before => simp at split
  gives listed given := by cases given
  ends readable sendable := by
    obtain ⟨other, page, same, given⟩ := readable sent request
    rw [answered, Option.some.injEq] at same
    rw [← same, unread] at given
    cases given

theorem listed_page (r : Http.Response) (page : List Run) (answer : Answer (List Run)) (more : List Http.Request)
    (asking : asks runs request) (answered : server sent request = some r) (given : read r = .ok page)
    (further : Listed server read asks max (sent ++ [request]) (runs ++ page) answer more) :
    Listed server read asks max sent runs answer (request :: more) where
  asked := by rw [further.asked, List.append_assoc, List.singleton_append]
  each before other after split := by
    cases before with
    | nil =>
        obtain ⟨rfl, -⟩ := List.cons.inj split
        simpa [brought] using asking
    | cons first before =>
        obtain ⟨rfl, later⟩ := List.cons.inj split
        have each := further.each before other after later
        rw [List.append_assoc] at each
        simpa [brought, answered, given] using each
  gives listed ok := by
    rw [further.gives listed ok, List.append_assoc]
    simp [brought, answered, given]
  ends := further.ends

end Listing
end Provider

open Provider (Listed Readable brought)

namespace AzureDevOps

def AsksRest (c : AzureDevOps) (max : Nat) (runs : List Run) (request : Http.Request) : Prop :=
  ∃ top continuation, request = c.listRequest top continuation ∧ 1 ≤ top ∧ top + runs.length = max

theorem list_from_listed (c : AzureDevOps) (server : Http.Server) (succeeds : server.Succeeds) (max : Nat)
    (sent : List Http.Request) (continuation : Option String) (runs : List Run) :
    ∃ more, Listed server readBuilds (c.AsksRest max) max sent runs (c.listFrom server max sent continuation runs) more ∧
      more.length ≤ max - runs.length := by
  rw [listFrom]
  by_cases wanted : runs.length < max
  · have asking : c.AsksRest max runs (c.listRequest (max - runs.length) continuation) :=
      ⟨_, continuation, rfl, by omega, by omega⟩
    rw [dif_pos wanted]
    unfold askPage
    generalize c.listRequest (max - runs.length) continuation = request at asking
    by_cases silent : request.sendable = false ∨ server sent request = none
    · rw [Provider.send_unanswered server sent request _ _ silent]
      exact ⟨[], Provider.listed_silent _ asking silent, Nat.zero_le _⟩
    · obtain ⟨sendable, answer⟩ := not_or.mp silent
      obtain ⟨r, answered⟩ := Option.ne_none_iff_exists'.mp answer
      rw [Provider.send_successful server sent request _ _ r (by simpa using sendable) answered
        (succeeds sent request r answered)]
      cases given : readBuilds r with
      | error e =>
          refine ⟨[request], ?_, by simp; omega⟩
          simpa [given, Except.map] using Provider.listed_unread r e asking answered given
      | ok page =>
          cases page with
          | nil =>
              refine ⟨[request], Provider.listed_page r [] _ [] asking answered given ?_, by simp; omega⟩
              simpa [given, Except.map] using Provider.listed_enough
          | cons run page =>
              cases next : continuation? r with
              | none =>
                  refine ⟨[request], Provider.listed_page r _ _ [] asking answered given ?_, by simp; omega⟩
                  simpa [given, Except.map, next] using Provider.listed_enough
              | some token =>
                  obtain ⟨more, listed, few⟩ := list_from_listed c server succeeds max (sent ++ [request]) (some token)
                    (runs ++ run :: page)
                  refine ⟨request :: more, Provider.listed_page r _ _ more asking answered given ?_, ?_⟩
                  · simpa [given, Except.map, next] using listed
                  · rw [List.length_append, List.length_cons] at few
                    rw [List.length_cons]
                    omega
  · rw [dif_neg wanted]
    exact ⟨[], Provider.listed_enough, Nat.zero_le _⟩
termination_by max - runs.length
decreasing_by
  rw [List.length_append, List.length_cons]
  omega

end AzureDevOps

namespace GitHub

def AsksPage (c : GitHub) (max : Nat) (runs : List Run) (request : Http.Request) : Prop :=
  runs.length < max ∧ ∃ page, request = c.listRequest (perPage max) page

theorem list_from_listed (c : GitHub) (server : Http.Server) (succeeds : server.Succeeds) (max : Nat)
    (sent : List Http.Request) (page : Nat) (runs : List Run) :
    ∃ more, Listed server readRuns (c.AsksPage max) max sent runs (c.listFrom server max sent page runs) more ∧
      ∀ full, more.length = full + 1 → full * perPage max + runs.length < max := by
  have pos := per_page_pos max
  rw [listFrom]
  by_cases wanted : runs.length < max
  · have asking : c.AsksPage max runs (c.listRequest (perPage max) page) := ⟨wanted, page, rfl⟩
    rw [dif_pos wanted]
    unfold askPage
    generalize c.listRequest (perPage max) page = request at asking
    by_cases silent : request.sendable = false ∨ server sent request = none
    · rw [Provider.send_unanswered server sent request _ _ silent]
      exact ⟨[], Provider.listed_silent _ asking silent, by simp⟩
    · obtain ⟨sendable, answer⟩ := not_or.mp silent
      obtain ⟨r, answered⟩ := Option.ne_none_iff_exists'.mp answer
      rw [Provider.send_successful server sent request _ _ r (by simpa using sendable) answered
        (succeeds sent request r answered)]
      have once : ∀ full, [request].length = full + 1 → full * perPage max + runs.length < max := by
        intro full one
        have none : full = 0 := (Nat.succ.inj one).symm
        rwa [none, Nat.zero_mul, Nat.zero_add]
      cases given : readRuns r with
      | error e =>
          refine ⟨[request], ?_, once⟩
          simpa [given] using Provider.listed_unread r e asking answered given
      | ok batch =>
          by_cases short : batch.length < perPage max
          · refine ⟨[request], Provider.listed_page r batch _ [] asking answered given ?_, once⟩
            simpa [given, short] using Provider.listed_enough
          · obtain ⟨more, listed, all⟩ := list_from_listed c server succeeds max (sent ++ [request]) (page + 1)
              (runs ++ batch)
            refine ⟨request :: more, Provider.listed_page r batch _ more asking answered given ?_, ?_⟩
            · simpa [given, short] using listed
            · intro full length
              cases full with
              | zero => rw [Nat.zero_mul, Nat.zero_add]; exact wanted
              | succ full =>
                  have fewer := all full (Nat.succ.inj length)
                  rw [List.length_append] at fewer
                  rw [Nat.succ_mul]
                  omega
  · rw [dif_neg wanted]
    exact ⟨[], Provider.listed_enough, by simp⟩
termination_by max - runs.length
decreasing_by
  rw [List.length_append]
  omega

end GitHub

namespace EndlessPages

def server (body : String) : Http.Server := fun _ _ =>
  some ⟨200, [("x-ms-continuationtoken", Bytes.ofText "again")], Bytes.ofText body⟩

def builds : Http.Server := server "\x7b\"value\": [\x7b\"id\": 8, \"finishTime\": \"2024-05-01T10:08:00Z\"\x7d]\x7d"

def runs : Http.Server :=
  server "\x7b\"workflow_runs\": [\x7b\"id\": 8, \"event\": \"push\", \"updated_at\": \"2024-05-01T10:08:00Z\"\x7d]\x7d"

def eighth : Run := ⟨⟨8, ⟨1714558080, 0⟩⟩, false⟩

theorem succeeds (body : String) : (server body).Succeeds := by
  rintro sent request r answered
  cases answered
  rfl

end EndlessPages

end IndexKeeper
