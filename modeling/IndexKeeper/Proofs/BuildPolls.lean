import IndexKeeper.Proofs.ReachedRuns
import IndexKeeper.Proofs.SpentSources

set_option autoImplicit false

namespace IndexKeeper

-- A run that a scan leaves behind: remembered when the scan came to it, or inspected to the end without its file.
def Sight.LeftBehind (rule : RunRule) (p : Provider) (existing : Option String) (s : Sight) : Prop :=
  s.visited.contains s.run.attempt = true ∨ Inspected rule p existing s.asked s.run none s.more

theorem not_left_behind_of_found (rule : RunRule) (p : Provider) (existing : Option String) (s : Sight) (bytes : Bytes)
    (fresh : s.visited.contains s.run.attempt = false)
    (found : Inspected rule p existing s.asked s.run (some bytes) s.more) : ¬ s.LeftBehind rule p existing := by
  rintro (known | none)
  · cases fresh.symm.trans known
  · cases inspected_unique rule p existing s _ _ _ _ none found

inductive FrontEnd (w : RunWatch) (existing : Option String) (front : List Run) (seen : List Sight) : Prop where
  | passed (whole : seen.map Sight.run = front) (behind : ∀ s ∈ seen, s.LeftBehind w.rule w.provider existing)
      (reply : (w.tryIngest existing).1 = .gives .unchanged) : FrontEnd w existing front seen
  | stopped (earlier : List Sight) (last : Sight) (split : seen = earlier ++ [last])
      (placed : seen.map Sight.run <+: front) (behind : ∀ s ∈ earlier, s.LeftBehind w.rule w.provider existing)
      (stops : ¬ last.LeftBehind w.rule w.provider existing) (reply : (w.tryIngest existing).1 = last.outcome) :
      FrontEnd w existing front seen

section Early

variable (w : RunWatch) (existing : Option String) (early : w.rule.stopsEarly = true)

include early

theorem stored_iff (s : Sight) : s.Stored w.rule existing ↔ existing = some (w.rule.key s.run) :=
  and_iff_right early

theorem left_behind_iff (s : Sight) (made : s.Made w.rule w.provider existing) (going : ¬ s.Stored w.rule existing) :
    s.GoesOn ↔ s.LeftBehind w.rule w.provider existing := by
  rw [goes_on_iff w.rule w.provider existing s made, and_iff_right going, Sight.LookedInto, Sight.LeftBehind,
    w.rule.passes_early early]
  cases s.visited.contains s.run.attempt <;> simp

theorem take_front (seen : List Sight) (rest : List Run) (others : ∀ s ∈ seen, ¬ s.Stored w.rule existing) :
    (seen.map Sight.run ++ rest).takeWhile (fun run => existing ≠ some (w.rule.key run)) =
      seen.map Sight.run ++ rest.takeWhile (fun run => existing ≠ some (w.rule.key run)) :=
  List.takeWhile_append_of_pos (by simpa [stored_iff w existing early] using others)

theorem front_looks (runs : List Run) (listed : w.provider.runs w.rule.limit = .gives runs) :
    ∃ seen stop, w.sights existing = seen ++ stop ∧ (∀ s ∈ stop, s.Stored w.rule existing) ∧
      (∀ s ∈ seen, ¬ s.Stored w.rule existing) ∧
      FrontEnd w existing (runs.takeWhile fun run => existing ≠ some (w.rule.key run)) seen := by
  have made := (poll_threaded w existing runs listed).2
  have other (s : Sight) (member : s ∈ w.sights existing) (going : s.GoesOn) : ¬ s.Stored w.rule existing :=
    ((goes_on_iff w.rule w.provider existing s (made s member)).mp going).1
  have behind (s : Sight) (member : s ∈ w.sights existing) (going : s.GoesOn) :
      s.LeftBehind w.rule w.provider existing :=
    (left_behind_iff w existing early s (made s member) (other s member going)).mp going
  rcases poll_end w existing runs listed with
    ⟨going, all, reply⟩ | ⟨earlier, last, rest, split, going, ends, order, reply⟩
  · have others (s : Sight) (member : s ∈ w.sights existing) := other s member (going s member)
    have whole := take_front w existing early _ [] others
    rw [List.append_nil, List.takeWhile_nil, List.append_nil, all] at whole
    exact ⟨w.sights existing, [], (List.append_nil _).symm, nofun, others,
      .passed (all.trans whole.symm) (fun s member => behind s member (going s member)) reply⟩
  · have within (s : Sight) (member : s ∈ earlier) : s ∈ w.sights existing := by simp [split, member]
    have others (s : Sight) (member : s ∈ earlier) := other s (within s member) (going s member)
    have left (s : Sight) (member : s ∈ earlier) := behind s (within s member) (going s member)
    have here := made last (by simp [split])
    by_cases stored : last.Stored w.rule existing
    · have cut : existing = some (w.rule.key last.run) := (stored_iff w existing early last).mp stored
      have front := take_front w existing early earlier (last.run :: rest) others
      rw [← order, List.takeWhile_cons_of_neg (by simpa using cut), List.append_nil] at front
      rw [Sight.outcome, (of_stored w.rule w.provider existing last here stored).1] at reply
      exact ⟨earlier, [last], split, by simpa using stored, others, .passed front.symm left reply⟩
    · have all : ∀ s ∈ earlier ++ [last], ¬ s.Stored w.rule existing :=
        List.forall_mem_append.mpr ⟨others, by simpa using stored⟩
      have front := take_front w existing early (earlier ++ [last]) rest all
      rw [List.map_append, List.append_assoc, List.map_singleton, List.singleton_append, ← order] at front
      refine ⟨earlier ++ [last], [], by rw [split, List.append_nil], nofun, all,
        .stopped earlier last rfl ?_ left ?_ reply⟩
      · rw [front]
        simp
      · exact fun behind => ends ((left_behind_iff w existing early last here stored).mpr behind)

theorem unchanged_left_behind (s : Sight) (made : s.Made w.rule w.provider existing)
    (going : ¬ s.Stored w.rule existing) (unchanged : s.outcome = .gives .unchanged) :
    s.LeftBehind w.rule w.provider existing := by
  rw [← left_behind_iff w existing early s made going]
  unfold Sight.outcome at unchanged
  cases made_outcomes w.rule w.provider existing s made with
  | stored stored => exact absurd stored going
  | passed _ _ reply => exact .inl reply
  | reached _ _ same => exact absurd ⟨early, same⟩ going
  | inspected found _ _ reply =>
      cases found with
      | none => exact .inr reply
      | some bytes => rw [reply] at unchanged; cases unchanged
  | broken _ _ reply => exact absurd unchanged (bind_not_given _ _ reply _)

theorem front_changed_iff (front : List Run) (seen : List Sight)
    (made : ∀ s ∈ seen, s.Made w.rule w.provider existing) (others : ∀ s ∈ seen, ¬ s.Stored w.rule existing)
    (ends : FrontEnd w existing front seen) (key : String) (bytes : Bytes) :
    (w.tryIngest existing).1 = .gives (.changed key bytes) ↔
      ∃ earlier last, seen = earlier ++ [last] ∧ (∀ s ∈ earlier, s.LeftBehind w.rule w.provider existing) ∧
        last.visited.contains last.run.attempt = false ∧ key = w.rule.key last.run ∧
        Inspected w.rule w.provider existing last.asked last.run (some bytes) last.more := by
  cases ends with
  | passed _ behind reply =>
      rw [reply]
      refine ⟨nofun, ?_⟩
      rintro ⟨earlier, last, rfl, -, fresh, -, found⟩
      exact absurd (behind last (by simp)) (not_left_behind_of_found w.rule w.provider existing last bytes fresh found)
  | stopped earlier last split _ behind _ reply =>
      have member : last ∈ seen := by simp [split]
      rw [reply, outcome_changed_iff w.rule w.provider existing last (made last member),
        and_iff_right (others last member), Sight.LookedInto, w.rule.passes_early early]
      constructor
      · rintro ⟨named, fresh, found⟩
        exact ⟨earlier, last, split, behind, fresh, named, found⟩
      · rintro ⟨before, taken, same, -, fresh, named, found⟩
        obtain rfl : last = taken := (List.append_singleton_inj.mp (split.symm.trans same)).2
        exact ⟨named, fresh, found⟩

theorem front_unchanged_iff (front : List Run) (seen : List Sight)
    (made : ∀ s ∈ seen, s.Made w.rule w.provider existing) (others : ∀ s ∈ seen, ¬ s.Stored w.rule existing)
    (ends : FrontEnd w existing front seen) :
    (w.tryIngest existing).1 = .gives .unchanged ↔
      seen.map Sight.run = front ∧ ∀ s ∈ seen, s.LeftBehind w.rule w.provider existing := by
  cases ends with
  | passed whole behind reply => exact ⟨fun _ => ⟨whole, behind⟩, fun _ => reply⟩
  | stopped earlier last split _ _ stops reply =>
      have member : last ∈ seen := by simp [split]
      rw [reply]
      exact ⟨fun unchanged => absurd
          (unchanged_left_behind w existing early last (made last member) (others last member) unchanged) stops,
        fun all => absurd (all.2 last member) stops⟩

end Early

structure BuildsPolled (w : RunWatch) (existing : Option String) (front : List Run) (seen : List Sight) : Prop where
  placed : seen.map Sight.run <+: front
  threaded : Threaded w.visited [.runs w.rule.limit] seen
  silent : ∀ s ∈ seen, s.visited.contains s.run.attempt = true → s.more = []
  listed : ∀ s ∈ seen, s.visited.contains s.run.attempt = false → s.Asks
  entered : ∀ s ∈ seen, ∀ a, s.entered? = some a ↔ a = s.run.attempt ∧
    s.visited.contains s.run.attempt = false ∧ Inspected w.rule w.provider existing s.asked s.run none s.more
  asked : (w.tryIngest existing).2.2 = .runs w.rule.limit :: seen.flatMap Sight.more
  visited : (w.tryIngest existing).2.1.visited = (seen.filterMap Sight.entered?).foldl VisitedSet.insert w.visited
  changed : ∀ key bytes, (w.tryIngest existing).1 = .gives (.changed key bytes) ↔
    ∃ earlier last, seen = earlier ++ [last] ∧ (∀ s ∈ earlier, s.LeftBehind w.rule w.provider existing) ∧
      last.visited.contains last.run.attempt = false ∧ key = w.rule.key last.run ∧
      Inspected w.rule w.provider existing last.asked last.run (some bytes) last.more
  unchanged : (w.tryIngest existing).1 = .gives .unchanged ↔
    seen.map Sight.run = front ∧ ∀ s ∈ seen, s.LeftBehind w.rule w.provider existing
  confirmed : ∀ key bytes, (w.tryIngest existing).1 = .gives (.changed key bytes) →
    ∃ earlier last, seen = earlier ++ [last] ∧ (w.tryIngest existing).2.1.confirm.visited =
      (w.tryIngest existing).2.1.visited.insert last.run.attempt
  lapsed : (∀ key bytes, (w.tryIngest existing).1 ≠ .gives (.changed key bytes)) →
    (w.tryIngest existing).2.1.confirm.visited = (w.tryIngest existing).2.1.visited

theorem builds_polled (w : RunWatch) (existing : Option String) (organization project artifactName fileName : String)
    (builds : List Run) (pipeline : w.rule = .pipeline organization project artifactName fileName)
    (listed : w.provider.runs w.rule.limit = .gives builds) :
    ∃ seen, BuildsPolled w existing (builds.takeWhile fun build =>
      existing ≠ some (organization ++ "/" ++ project ++ "/" ++ toString build.attempt.id)) seen := by
  have early : w.rule.stopsEarly = true := by rw [pipeline]; rfl
  have key (build : Run) : w.rule.key build = organization ++ "/" ++ project ++ "/" ++ toString build.attempt.id := by
    rw [pipeline]
    rfl
  obtain ⟨seen, stop, split, stops, others, ends⟩ := front_looks w existing early builds listed
  simp only [key] at ends
  obtain ⟨threaded, made⟩ := poll_threaded w existing builds listed
  have accounted := poll_accounted w existing
  rw [split] at threaded made accounted
  have still (s : Sight) (member : s ∈ stop) :=
    of_stored w.rule w.provider existing s (made s (List.mem_append_right _ member)) (stops s member)
  have asks : stop.flatMap Sight.more = [] := List.flatMap_eq_nil_iff.mpr fun s member => (still s member).2
  have enters : stop.filterMap Sight.entered? = [] :=
    List.filterMap_eq_nil_iff.mpr fun s member => by simp [Sight.entered?, (still s member).1]
  have made (s : Sight) (member : s ∈ seen) := made s (List.mem_append_left _ member)
  have passes (s : Sight) := w.rule.passes_early early s.visited s.run
  refine ⟨seen, ?_, ?_, ?_, ?_, ?_, ?_, ?_, front_changed_iff w existing early _ seen made others ends,
    front_unchanged_iff w existing early _ seen made others ends, ?_, confirm_nothing w existing⟩
  · cases ends with
    | passed whole => exact whole ▸ List.prefix_refl _
    | stopped _ _ _ placed => exact placed
  · intro before s later same
    exact threaded before s (later ++ stop) (by simp [same])
  · intro s member known
    exact more_of_passes w.rule w.provider existing s (made s member) ((passes s).trans known)
  · intro s member fresh
    exact asks_of_fresh w.rule w.provider existing s (made s member) (others s member) ((passes s).trans fresh)
  · intro s member a
    rw [entered_iff w.rule w.provider existing s (made s member), and_iff_right (others s member), Sight.LookedInto,
      passes s]
  · rw [show (w.tryIngest existing).2.2 = _ from accounted.asked, List.flatMap_append, asks, List.append_nil]
    rfl
  · rw [show (w.tryIngest existing).2.1.visited = _ from accounted.visited, List.filterMap_append, enters,
      List.append_nil]
  · intro key bytes changed
    cases ends with
    | passed _ _ unchanged => cases changed.symm.trans unchanged
    | stopped earlier last same _ _ _ outcome =>
        exact ⟨earlier, last, same, confirm_found w existing last key bytes (by simp [split, same])
          ((outcome_found_iff last key bytes).mp (outcome.symm.trans changed))⟩

namespace ForgottenBuild

def rule : RunRule := .pipeline "org" "project" "complog" "build.complog"

def build (id : Int) : Run := ⟨⟨id, Instant.ofNanos id⟩, false⟩

def builds : List Run := [build 5, build 4, build 3, build 2, build 1]

def archive (build : Run) : Bytes :=
  if build.attempt.id = 3 then Archive.pack [{ name := "complog/build.complog", data := Bytes.ofText "3" }]
  else Archive.pack []

def provider : Provider where
  runs _ := .gives builds
  artifacts _ build := .gives (if build.attempt.id = 5 then [] else [⟨none, "complog"⟩])
  download _ build _ := .gives (archive build)

def watch : RunWatch := ⟨rule, provider, ⟨2, [(build 4).attempt, (build 1).attempt]⟩, none⟩

def front : List Run :=
  builds.takeWhile fun build =>
    some "org/project/2" ≠ some ("org" ++ "/" ++ "project" ++ "/" ++ toString build.attempt.id)

end ForgottenBuild

open ForgottenBuild in
theorem forgotten_build_polled :
    watch.rule = .pipeline "org" "project" "complog" "build.complog" ∧
      watch.provider.runs watch.rule.limit = .gives builds ∧ front = [build 5, build 4, build 3] ∧
      (watch.tryIngest (some "org/project/2")).1 = .gives (.changed "org/project/3" (Bytes.ofText "3")) ∧
      ∃ seen, BuildsPolled watch (some "org/project/2") front seen :=
  ⟨rfl, rfl, by decide +kernel, by decide +kernel,
    builds_polled watch (some "org/project/2") "org" "project" "complog" "build.complog" builds rfl rfl⟩

end IndexKeeper
