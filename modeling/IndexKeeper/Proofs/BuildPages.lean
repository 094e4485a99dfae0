import IndexKeeper.Proofs.Responses
import IndexKeeper.Provider.AzureDevOps

set_option autoImplicit false

namespace IndexKeeper

namespace AzureDevOps

-- A build without a finish time is no run.
structure Page where
  builds : List (Option Run)
  token : Option String
deriving DecidableEq

namespace Page

def finished (p : Page) : List Run := p.builds.filterMap id

def printable (byte : UInt8) : Bool := (0x20 ≤ byte && byte < 0x7f) || byte == 9

def followed (p : Page) : Bool :=
  !p.finished.isEmpty && p.token.any fun token => (Bytes.ofText token).all printable

def seen : List Page → List Page
  | [] => []
  | p :: rest => if p.followed then p :: seen rest else [p]

def unseen : List Page → List Page
  | [] => []
  | p :: rest => if p.followed then unseen rest else rest

theorem seen_append_unseen (pages : List Page) : seen pages ++ unseen pages = pages := by
  induction pages with
  | nil => rfl
  | cons p rest ih =>
      by_cases followed : p.followed = true
      · simp [seen, unseen, followed, ih]
      · simp [seen, unseen, followed]

end Page

structure Shows (r : Http.Response) (p : Page) : Prop where
  success : r.status = 200
  body : (Json.parse? r.text).bind (Json.Value.listed? "value" build?) = some p.builds
  token : (r.headers.lookup "x-ms-continuationtoken").filter (· ≠ []) = p.token.map Bytes.ofText

-- Each request is for the builds still missing, under the token of the page before.
inductive Chain (c : AzureDevOps) (server : Http.Server) (max : Nat) :
    List Http.Request → Option String → Nat → List Page → Prop where
  | enough (sent : List Http.Request) (continuation : Option String) (count : Nat) (pages : List Page)
      (full : max ≤ count) : Chain c server max sent continuation count pages
  | last (sent : List Http.Request) (continuation : Option String) (count : Nat) (p : Page) (r : Http.Response)
      (answered : server sent (c.listRequest (max - count) continuation) = some r) (shows : Shows r p)
      (ends : p.token = none) : Chain c server max sent continuation count [p]
  | next (sent : List Http.Request) (continuation : Option String) (count : Nat) (p : Page) (r : Http.Response)
      (token : String) (rest : List Page)
      (answered : server sent (c.listRequest (max - count) continuation) = some r) (shows : Shows r p)
      (linked : p.token = some token)
      (further : Chain c server max (sent ++ [c.listRequest (max - count) continuation]) (some token)
        (count + p.finished.length) rest) : Chain c server max sent continuation count (p :: rest)

theorem list_request_sendable (c : AzureDevOps) (top other : Nat) (continuation next : Option String) :
    (c.listRequest top continuation).sendable = (c.listRequest other next).sendable := by
  simp [Http.Request.sendable, Http.Request.url?, listRequest]

theorem shown_token (r : Http.Response) (p : Page) (shows : Shows r p) :
    continuation? r = p.token.filter fun token => (Bytes.ofText token).all Page.printable := by
  have header := shows.token
  unfold continuation? Http.Response.header?
  cases given : r.headers.lookup "x-ms-continuationtoken" with
  | none =>
      rw [given] at header
      have none : p.token = none := by simpa using header.symm
      simp [none]
  | some value =>
      rw [given] at header
      by_cases empty : value = []
      · rw [Option.filter_some, if_neg (by simp [empty])] at header
        have none : p.token = none := by simpa using header.symm
        have blank : Bytes.toText? [] = some "" := Bytes.to_text_of_text ""
        simp [none, empty, blank]
      · rw [Option.filter_some, if_pos (by simp [empty])] at header
        obtain ⟨token, linked, rfl⟩ := Option.map_eq_some_iff.mp header.symm
        have filled : token ≠ "" := fun same => empty (by rw [same]; rfl)
        rw [linked, Option.bind_some, Bytes.to_text_of_text, Option.filter_some]
        by_cases readable : (Bytes.ofText token).all Page.printable = true
        · have same := readable
          unfold Page.printable at same
          rw [if_pos same, if_pos readable, Option.filter_some, if_pos (by simpa using filled)]
        · have same := readable
          unfold Page.printable at same
          rw [if_neg same, if_neg readable, Option.filter_none]

theorem ask_shown (c : AzureDevOps) (server : Http.Server) (sent : List Http.Request) (top : Nat)
    (continuation : Option String) (p : Page) (r : Http.Response)
    (sendable : (c.listRequest top continuation).sendable = true)
    (answered : server sent (c.listRequest top continuation) = some r) (shows : Shows r p) :
    c.askPage server sent top continuation =
      (.ok (p.finished, continuation? r), sent ++ [c.listRequest top continuation]) := by
  have read : readBuilds r = .ok p.finished := by
    rw [readBuilds, Provider.readBody, shows.body]
    rfl
  unfold askPage
  rw [Provider.send_answered server sent _ _ _ r sendable shows.success answered]
  simp [read, Except.map]

theorem list_from_chain (c : AzureDevOps) (server : Http.Server) (max : Nat)
    (sendable : (c.listRequest 0 none).sendable = true) (sent : List Http.Request) (continuation : Option String)
    (count : Nat) (pages : List Page) (chain : Chain c server max sent continuation count pages) (runs : List Run)
    (collected : count = runs.length) :
    (c.listFrom server max sent continuation runs).1 =
      .ok ((runs ++ (Page.seen pages).flatMap Page.finished).take max) := by
  -- Each page of the chain ends the listing or is followed; the runs collected so far carry over.
  induction chain generalizing runs with
  | enough sent continuation count pages full =>
      rw [listFrom, dif_neg (by omega), List.take_append_of_le_length (by omega)]
  | last sent continuation count p r answered shows ends =>
      by_cases wanted : runs.length < max
      · have asked := ask_shown c server sent (max - runs.length) continuation p r
          ((list_request_sendable c _ _ _ _).trans sendable) (collected ▸ answered) shows
        rw [shown_token r p shows, ends] at asked
        rw [listFrom, dif_pos wanted, asked]
        cases finished : p.finished with
        | nil => simp [Page.seen, Page.followed, finished]
        | cons run more => simp [Page.seen, Page.followed, finished, ends]
      · rw [listFrom, dif_neg wanted, List.take_append_of_le_length (by omega)]
  | next sent continuation count p r token rest answered shows linked further ih =>
      by_cases wanted : runs.length < max
      · have asked := ask_shown c server sent (max - runs.length) continuation p r
          ((list_request_sendable c _ _ _ _).trans sendable) (collected ▸ answered) shows
        rw [shown_token r p shows, linked] at asked
        have later := ih (runs ++ p.finished) (by simp [collected])
        rw [listFrom, dif_pos wanted, asked]
        cases finished : p.finished with
        | nil => simp [Page.seen, Page.followed, finished]
        | cons run more =>
            rw [finished] at later
            by_cases readable : (Bytes.ofText token).all Page.printable = true
            · have followed : p.followed = true := by simp [Page.followed, finished, linked, readable]
              rw [Option.filter_some, if_pos readable]
              rw [collected] at later
              dsimp only
              rw [later, Page.seen, if_pos followed, List.flatMap_cons, finished, List.append_assoc]
            · have left : ¬ p.followed = true := by simp [Page.followed, linked, readable]
              rw [Option.filter_some, if_neg readable, Page.seen, if_neg left]
              simp [finished]
      · rw [listFrom, dif_neg wanted, List.take_append_of_le_length (by omega)]

theorem take_append_iff {α : Type} (n : Nat) (front rest : List α) :
    (front ++ rest).take n = front.take n ↔ n ≤ front.length ∨ rest = [] := by
  rw [List.take_append, List.append_right_eq_self, List.take_eq_nil_iff]
  exact or_congr_left Nat.sub_eq_zero_iff_le

theorem listing_complete_iff (c : AzureDevOps) (server : Http.Server) (max : Nat) (pages : List Page)
    (sendable : (c.listRequest 0 none).sendable = true) (chain : Chain c server max [] none 0 pages) :
    (c.runs server max).1 = .ok (((Page.seen pages).flatMap Page.finished).take max) ∧
      ((c.runs server max).1 = .ok ((pages.flatMap Page.finished).take max) ↔
        max ≤ ((Page.seen pages).flatMap Page.finished).length ∨
          (Page.unseen pages).flatMap Page.finished = []) := by
  have listed : (c.runs server max).1 = .ok (((Page.seen pages).flatMap Page.finished).take max) :=
    list_from_chain c server max sendable [] none 0 pages chain [] rfl
  refine ⟨listed, ?_⟩
  have whole : pages.flatMap Page.finished =
      (Page.seen pages).flatMap Page.finished ++ (Page.unseen pages).flatMap Page.finished := by
    rw [← List.flatMap_append, Page.seen_append_unseen]
  rw [listed, whole, Except.ok.injEq, eq_comm]
  exact take_append_iff max _ _

namespace TwoPages

def client : AzureDevOps := ⟨"http://localhost:9000", "org", "proj", 84, none⟩

def eighth : Run := ⟨⟨8, ⟨1714558080, 0⟩⟩, false⟩

def seventh : Run := ⟨⟨7, ⟨1714554000, 0⟩⟩, false⟩

def page (builds : List (Option Run)) : Page := ⟨builds, some "next"⟩

def ending : Page := ⟨[some seventh], none⟩

def runningBody : String := "\x7b\"value\": [\x7b\"id\": 9, \"status\": \"completed\"\x7d]\x7d"

def mixedBody : String :=
  "\x7b\"value\": [\x7b\"id\": 9\x7d, \x7b\"id\": 8, \"finishTime\": \"2024-05-01T10:08:00Z\"\x7d]\x7d"

def endingBody : String := "\x7b\"value\": [\x7b\"id\": 7, \"finishTime\": \"2024-05-01T09:00:00Z\"\x7d]\x7d"

def response (linked : Bool) (body : String) : Http.Response :=
  ⟨200, if linked then [("x-ms-continuationtoken", Bytes.ofText "next")] else [], Bytes.ofText body⟩

def server (body : String) : Http.Server := fun sent _ =>
  [response true body, response false endingBody][sent.length]?

theorem sendable : (client.listRequest 0 none).sendable = true := by decide +kernel

theorem shows_first (body : String) (builds : List (Option Run))
    (read : (Json.parse? (response true body).text).bind (Json.Value.listed? "value" build?) = some builds) :
    Shows (response true body) (page builds) := by
  have filled : Bytes.ofText "next" ≠ [] := by decide
  exact ⟨rfl, read, by simp [response, page, filled]⟩

theorem shows_ending : Shows (response false endingBody) ending :=
  ⟨rfl, by decide +kernel, by decide +kernel⟩

theorem chain (body : String) (builds : List (Option Run))
    (read : (Json.parse? (response true body).text).bind (Json.Value.listed? "value" build?) = some builds) :
    Chain client (server body) 5 [] none 0 [page builds, ending] :=
  .next [] none 0 (page builds) (response true body) "next" [ending] rfl (shows_first body builds read) rfl
    (.last _ (some "next") _ ending (response false endingBody) rfl shows_ending rfl)

end TwoPages

open TwoPages in
theorem two_pages_listed :
    Chain client (server mixedBody) 5 [] none 0 [page [none, some eighth], ending] ∧
      (client.runs (server mixedBody) 5).1 = .ok [eighth, seventh] := by
  have offered := chain mixedBody [none, some eighth] (by decide +kernel)
  exact ⟨offered, (listing_complete_iff client (server mixedBody) 5 _ sendable offered).2.mpr
    (.inr (by decide +kernel))⟩

open TwoPages in
theorem running_page_ends_listing :
    Chain client (server runningBody) 5 [] none 0 [page [none], ending] ∧
      (client.runs (server runningBody) 5).1 = .ok [] ∧
      ([page [none], ending].flatMap Page.finished).take 5 = [seventh] := by
  have offered := chain runningBody [none] (by decide +kernel)
  have listed := list_from_chain client (server runningBody) 5 sendable [] none 0 _ offered [] rfl
  exact ⟨offered, listed, by decide +kernel⟩

end AzureDevOps
end IndexKeeper
