import IndexKeeper.Proofs.FinishedRuns

set_option autoImplicit false

namespace IndexKeeper

namespace RunRule

def Takes (rule : RunRule) (artifacts : List Artifact) (a : Artifact) : Prop :=
  match rule with
  | pipeline _ _ artifactName _ =>
      ∃ before after, artifacts = before ++ a :: after ∧ a.name = artifactName ∧ ∀ b ∈ before, b.name ≠ artifactName
  | workflow artifactName _ => artifacts.filter (fun b => b.name = artifactName) = [a]

theorem choose_iff (rule : RunRule) (artifacts : List Artifact) (a : Artifact) :
    rule.choose artifacts = some a ↔ rule.Takes artifacts a := by
  cases rule with
  | pipeline organization project artifactName fileName =>
      rw [choose, Takes, List.find?_eq_some_iff_append]
      simp only [decide_eq_true_eq, Bool.not_eq_true', decide_eq_false_iff_not]
      constructor
      · rintro ⟨named, before, after, split, others⟩
        exact ⟨before, after, split, named, others⟩
      · rintro ⟨before, after, split, named, others⟩
        exact ⟨named, before, after, split, others⟩
  | workflow artifactName fileName =>
      rw [choose, Takes]
      split
      · next one => rw [one, Option.some_inj, List.singleton_inj]
      · next several =>
          constructor
          · intro none
            cases none
          · intro one
            exact absurd one (several a)

theorem choose_none_iff (rule : RunRule) (artifacts : List Artifact) :
    rule.choose artifacts = none ↔ ∀ a, ¬ rule.Takes artifacts a := by
  rw [Option.eq_none_iff_forall_ne_some]
  exact forall_congr' fun a => not_congr (rule.choose_iff artifacts a)

end RunRule

inductive Inspected (rule : RunRule) (p : Provider) (existing : Option String) (asked : List Question) (run : Run) :
    Option Bytes → List Question → Prop where
  | bare (artifacts : List Artifact) (listed : p.artifacts asked run = .gives artifacts)
      (absent : ∀ a, ¬ rule.Takes artifacts a) : Inspected rule p existing asked run none [.artifacts run]
  | opened (artifacts : List Artifact) (a : Artifact) (archive : Bytes) (found : Option Bytes)
      (listed : p.artifacts asked run = .gives artifacts) (takes : rule.Takes artifacts a)
      (other : existing ≠ some (rule.key run))
      (downloaded : p.download (asked ++ [.artifacts run]) run a = .gives archive)
      (extracted : Archive.extract archive rule.entry = .ok found) :
      Inspected rule p existing asked run found [.artifacts run, .download run a]

namespace Sight

variable (rule : RunRule) (p : Provider) (existing : Option String) (s : Sight)

def Stored : Prop := rule.stopsEarly = true ∧ existing = some (rule.key s.run)

def LookedInto (found : Option Bytes) : Prop :=
  rule.passes s.visited s.run = false ∧ Inspected rule p existing s.asked s.run found s.more

def Asks : Prop := ∃ more, s.more = .artifacts s.run :: more ∧ ∀ question ∈ more, ∃ a, question = .download s.run a

inductive Outcomes : Prop where
  | stored (stored : s.Stored rule existing) (reply : s.reply = .gives .reached) (silent : s.more = [])
  | passed (going : ¬ s.Stored rule existing) (known : rule.passes s.visited s.run = true)
      (reply : s.reply = .gives .passed) (silent : s.more = [])
  | reached (going : ¬ s.Stored rule existing) (fresh : rule.passes s.visited s.run = false)
      (same : existing = some (rule.key s.run)) (reply : s.reply = .gives .reached) (listed : s.Asks)
      (unfound : ∀ found more, ¬ Inspected rule p existing s.asked s.run found more)
  | inspected (found : Option Bytes) (going : ¬ s.Stored rule existing) (looked : s.LookedInto rule p existing found)
      (reply : s.reply = .gives (rule.verdict s.run found))
  | broken (going : ¬ s.Stored rule existing) (fresh : rule.passes s.visited s.run = false)
      (reply : ∀ look, s.reply ≠ .gives look) (listed : s.Asks)
      (unfound : ∀ found more, ¬ Inspected rule p existing s.asked s.run found more)

end Sight

section Look

variable (rule : RunRule) (p : Provider) (existing : Option String) (s : Sight)

theorem inspected_asks (found : Option Bytes) (inspected : Inspected rule p existing s.asked s.run found s.more) :
    s.Asks := by
  generalize same : s.more = more at inspected
  cases inspected with
  | bare => exact ⟨[], same, nofun⟩
  | opened artifacts a => exact ⟨[.download s.run a], same, by simp⟩

theorem inspected_inspect (found : Option Bytes) (more : List Question)
    (inspected : Inspected rule p existing s.asked s.run found more) :
    rule.inspect p s.asked s.run = .gives found := by
  cases inspected with
  | bare artifacts listed absent =>
      simp [RunRule.inspect, listed, (rule.choose_none_iff artifacts).mpr absent, Reply.mapError, Reply.bind]
  | opened artifacts a archive found listed takes other downloaded extracted =>
      simp [RunRule.inspect, listed, (rule.choose_iff artifacts a).mpr takes, downloaded, extracted, Reply.mapError,
        Reply.bind, Reply.ofExcept]

theorem inspected_unique (found other : Option Bytes) (more rest : List Question)
    (inspected : Inspected rule p existing s.asked s.run found more)
    (again : Inspected rule p existing s.asked s.run other rest) : found = other :=
  Reply.gives.inj ((inspected_inspect rule p existing s found more inspected).symm.trans
    (inspected_inspect rule p existing s other rest again))

theorem unfound_of_inspect (broken : ∀ found, rule.inspect p s.asked s.run ≠ .gives found) (found : Option Bytes)
    (more : List Question) : ¬ Inspected rule p existing s.asked s.run found more :=
  fun inspected => broken found (inspected_inspect rule p existing s found more inspected)

theorem given_or_not {ε α : Type} (r : Reply ε α) : (∃ value, r = .gives value) ∨ ∀ value, r ≠ .gives value := by
  cases r with
  | gives value => exact .inl ⟨value, rfl⟩
  | _ => exact .inr nofun

theorem bind_given {ε δ α β : Type} (f : ε → δ) (r : Reply ε α) (next : α → Reply δ β) (last : β)
    (given : (r.mapError f).bind next = .gives last) : ∃ value, r = .gives value ∧ next value = .gives last := by
  cases r with
  | gives value => exact ⟨value, rfl, given⟩
  | _ => cases given

theorem bind_not_given {ε α β : Type} (r : Reply ε α) (next : α → Reply ε β) (none : ∀ value, r ≠ .gives value)
    (value : β) : r.bind next ≠ .gives value := by
  cases r with
  | gives given => exact absurd rfl (none given)
  | _ => nofun

theorem inspect_chosen (asked : List Question) (run : Run) (artifacts : List Artifact) (a : Artifact)
    (listed : p.artifacts asked run = .gives artifacts) (chosen : rule.choose artifacts = some a) :
    rule.inspect p asked run =
      ((p.download (asked ++ [.artifacts run]) run a).mapError PollError.provider).bind fun archive =>
        (Reply.ofExcept (Archive.extract archive rule.entry)).mapError PollError.archive := by
  rw [RunRule.inspect, listed]
  dsimp only [Reply.mapError, Reply.bind]
  rw [chosen]

theorem opened_of_inspect (artifacts : List Artifact) (a : Artifact) (found : Option Bytes)
    (listed : p.artifacts s.asked s.run = .gives artifacts) (chosen : rule.choose artifacts = some a)
    (other : existing ≠ some (rule.key s.run)) (inspect : rule.inspect p s.asked s.run = .gives found) :
    Inspected rule p existing s.asked s.run found [.artifacts s.run, .download s.run a] := by
  rw [inspect_chosen rule p s.asked s.run artifacts a listed chosen] at inspect
  obtain ⟨archive, downloaded, inside⟩ := bind_given PollError.provider _ _ found inspect
  refine .opened artifacts a archive found listed ((rule.choose_iff artifacts a).mp chosen) other downloaded ?_
  cases extracted : Archive.extract archive rule.entry with
  | ok file =>
      rw [extracted] at inside
      exact congrArg _ (Reply.gives.inj inside)
  | error e =>
      rw [extracted] at inside
      cases inside

theorem look_unlisted (visited : VisitedSet) (asked : List Question) (run : Run)
    (going : ¬ (rule.stopsEarly = true ∧ existing = some (rule.key run))) (fresh : rule.passes visited run = false)
    (unlisted : ∀ artifacts, p.artifacts asked run ≠ .gives artifacts) :
    (∀ found, (look rule p existing visited asked run).1 ≠ .gives found) ∧
      (look rule p existing visited asked run).2 = asked ++ [.artifacts run] := by
  unfold look
  rw [if_neg going, fresh, if_neg Bool.false_ne_true]
  cases listed : p.artifacts asked run with
  | gives artifacts => exact absurd listed (unlisted artifacts)
  | _ => exact ⟨nofun, rfl⟩

theorem look_listed (visited : VisitedSet) (asked : List Question) (run : Run)
    (going : ¬ (rule.stopsEarly = true ∧ existing = some (rule.key run))) (fresh : rule.passes visited run = false)
    (artifacts : List Artifact) (listed : p.artifacts asked run = .gives artifacts) :
    look rule p existing visited asked run = match rule.choose artifacts with
      | none => (.gives .barren, asked ++ [.artifacts run])
      | some a =>
          if existing = some (rule.key run) then (.gives .reached, asked ++ [.artifacts run])
          else ((rule.inspect p asked run).bind fun found => .gives (rule.verdict run found),
            asked ++ [.artifacts run, .download run a]) := by
  unfold look
  rw [if_neg going, fresh, if_neg Bool.false_ne_true, listed]
  dsimp only [Reply.mapError]
  cases chosen : rule.choose artifacts with
  | none => rfl
  | some a =>
      rw [inspect_chosen rule p asked run artifacts a listed chosen, bind_bind, funext (look_inside_verdict rule run)]
      simp only [List.append_assoc, List.singleton_append]
      rfl

theorem made_outcomes (made : s.Made rule p existing) : s.Outcomes rule p existing := by
  unfold Sight.Made at made
  by_cases stored : rule.stopsEarly = true ∧ existing = some (rule.key s.run)
  · rw [look, if_pos stored, Prod.mk.injEq, List.self_eq_append_right] at made
    exact .stored stored made.1.symm made.2
  cases known : rule.passes s.visited s.run with
  | true =>
      rw [look, if_neg stored, if_pos known, Prod.mk.injEq, List.self_eq_append_right] at made
      exact .passed stored known made.1.symm made.2
  | false =>
      rcases given_or_not (p.artifacts s.asked s.run) with ⟨artifacts, listed⟩ | unlisted
      · rw [look_listed rule p existing _ _ _ stored known artifacts listed] at made
        cases chosen : rule.choose artifacts with
        | none =>
            simp only [chosen, Prod.mk.injEq, List.append_cancel_left_eq] at made
            refine .inspected none stored ⟨known, ?_⟩ made.1.symm
            rw [← made.2]
            exact .bare artifacts listed ((rule.choose_none_iff artifacts).mp chosen)
        | some a =>
            simp only [chosen] at made
            by_cases same : existing = some (rule.key s.run)
            · rw [if_pos same, Prod.mk.injEq, List.append_cancel_left_eq] at made
              refine .reached stored known same made.1.symm ⟨[], made.2.symm, nofun⟩ fun found more inspected => ?_
              cases inspected with
              | bare others again absent =>
                  obtain rfl := Reply.gives.inj (listed.symm.trans again)
                  exact absent a ((rule.choose_iff artifacts a).mp chosen)
              | opened _ _ _ _ _ _ other => exact other same
            · rw [if_neg same, Prod.mk.injEq, List.append_cancel_left_eq] at made
              obtain ⟨reply, more⟩ := made
              rcases given_or_not (rule.inspect p s.asked s.run) with ⟨found, inspect⟩ | broken
              · rw [inspect] at reply
                refine .inspected found stored ⟨known, ?_⟩ reply.symm
                rw [← more]
                exact opened_of_inspect rule p existing s artifacts a found listed chosen same inspect
              · exact .broken stored known (fun look => reply ▸ bind_not_given _ _ broken look)
                  ⟨[.download s.run a], more.symm, by simp⟩ (unfound_of_inspect rule p existing s broken)
      · obtain ⟨reply, more⟩ := look_unlisted rule p existing _ _ _ stored known unlisted
        rw [made] at reply more
        rw [List.append_cancel_left_eq] at more
        refine .broken stored known reply ⟨[], more, nofun⟩
          (unfound_of_inspect rule p existing s fun found inspect => ?_)
        obtain ⟨artifacts, listed, -⟩ := bind_given PollError.provider _ _ found inspect
        exact unlisted artifacts listed

theorem passed_iff (made : s.Made rule p existing) : s.reply = .gives .passed ↔
    ¬ s.Stored rule existing ∧ rule.passes s.visited s.run = true := by
  cases made_outcomes rule p existing s made with
  | stored stored reply silent => simp [reply, stored]
  | passed going known reply silent => simp [reply, going, known]
  | reached going fresh same reply listed unfound => simp [reply, fresh]
  | inspected found going looked reply => cases found <;> simp [reply, looked.1, RunRule.verdict]
  | broken going fresh reply listed unfound => simp [reply, fresh]

theorem barren_iff (made : s.Made rule p existing) : s.reply = .gives .barren ↔
    ¬ s.Stored rule existing ∧ s.LookedInto rule p existing none := by
  unfold Sight.LookedInto
  cases made_outcomes rule p existing s made with
  | stored stored reply silent => simp [reply, stored]
  | passed going known reply silent => simp [reply, known]
  | reached going fresh same reply listed unfound => simp [reply, unfound]
  | inspected found going looked reply =>
      cases found with
      | none => simp [reply, going, looked.1, looked.2, RunRule.verdict]
      | some bytes =>
          have found : ¬ Inspected rule p existing s.asked s.run none s.more := by
            intro none
            cases inspected_unique rule p existing s _ _ _ _ none looked.2
          simp [reply, found, RunRule.verdict]
  | broken going fresh reply listed unfound => simp [reply, unfound]

theorem goes_on_iff (made : s.Made rule p existing) : s.GoesOn ↔
    ¬ s.Stored rule existing ∧ (rule.passes s.visited s.run = true ∨ s.LookedInto rule p existing none) := by
  rw [Sight.GoesOn, passed_iff rule p existing s made, barren_iff rule p existing s made, and_or_left]

theorem entered_iff (made : s.Made rule p existing) (a : Attempt) : s.entered? = some a ↔
    a = s.run.attempt ∧ ¬ s.Stored rule existing ∧ s.LookedInto rule p existing none := by
  rw [← barren_iff rule p existing s made]
  unfold Sight.entered?
  split
  · next reply => simp [reply, eq_comm]
  · next other => exact ⟨nofun, fun same => absurd same.2 other⟩

theorem outcome_changed_iff (made : s.Made rule p existing) (key : String) (bytes : Bytes) :
    s.outcome = .gives (.changed key bytes) ↔
      key = rule.key s.run ∧ ¬ s.Stored rule existing ∧ s.LookedInto rule p existing (some bytes) := by
  unfold Sight.outcome Sight.LookedInto
  cases made_outcomes rule p existing s made with
  | stored stored reply silent => simp [reply, stored, Reply.bind]
  | passed going known reply silent => simp [reply, known, Reply.bind]
  | reached going fresh same reply listed unfound => simp [reply, unfound, Reply.bind]
  | inspected found going looked reply =>
      have unique (other : Option Bytes) : Inspected rule p existing s.asked s.run other s.more ↔ other = found :=
        ⟨fun inspected => inspected_unique rule p existing s _ _ _ _ inspected looked.2, fun same => same ▸ looked.2⟩
      cases found with
      | none => simp [reply, unique, RunRule.verdict, Reply.bind]
      | some taken => simp [reply, going, looked.1, unique, RunRule.verdict, Reply.bind, eq_comm]
  | broken going fresh reply listed unfound =>
      simp [unfound, bind_not_given _ _ reply]

theorem more_of_passes (made : s.Made rule p existing) (known : rule.passes s.visited s.run = true) : s.more = [] := by
  cases made_outcomes rule p existing s made with
  | stored stored reply silent => exact silent
  | passed going passes reply silent => exact silent
  | reached going fresh => cases fresh.symm.trans known
  | inspected found going looked => cases looked.1.symm.trans known
  | broken going fresh => cases fresh.symm.trans known

theorem asks_of_fresh (made : s.Made rule p existing) (going : ¬ s.Stored rule existing)
    (fresh : rule.passes s.visited s.run = false) : s.Asks := by
  cases made_outcomes rule p existing s made with
  | stored stored => exact absurd stored going
  | passed _ known => cases fresh.symm.trans known
  | reached _ _ _ _ listed => exact listed
  | inspected found _ looked => exact inspected_asks rule p existing s found looked.2
  | broken _ _ _ listed => exact listed

theorem of_stored (made : s.Made rule p existing) (stored : s.Stored rule existing) :
    s.reply = .gives .reached ∧ s.more = [] := by
  cases made_outcomes rule p existing s made with
  | stored _ reply silent => exact ⟨reply, silent⟩
  | passed going => exact absurd stored going
  | reached going => exact absurd stored going
  | inspected found going => exact absurd stored going
  | broken going => exact absurd stored going

end Look

def Threaded (visited : VisitedSet) (asked : List Question) (seen : List Sight) : Prop :=
  ∀ before s later, seen = before ++ s :: later →
    s.visited = (before.filterMap Sight.entered?).foldl VisitedSet.insert visited ∧
      s.asked = asked ++ before.flatMap Sight.more

section Sights

variable (rule : RunRule) (p : Provider) (existing : Option String) (visited : VisitedSet) (asked : List Question)

theorem sights_threaded (runs : List Run) : Threaded visited asked (sights rule p existing visited asked runs) ∧
    ∀ s ∈ sights rule p existing visited asked runs, s.Made rule p existing := by
  have first (s : Sight) (later : List Sight) (rest : Threaded s.left (s.asked ++ s.more) later) :
      Threaded s.visited s.asked (s :: later) := by
    intro before other after split
    cases before with
    | nil =>
        obtain ⟨rfl, -⟩ := List.cons.inj split
        exact ⟨rfl, (List.append_nil _).symm⟩
    | cons head before =>
        obtain ⟨rfl, onward⟩ := List.cons.inj split
        obtain ⟨visited, asked⟩ := rest before other after onward
        rw [visited, asked, Sight.left, List.filterMap_cons, List.flatMap_cons, List.append_assoc]
        cases s.entered? <;> exact ⟨rfl, rfl⟩
  have none (visited : VisitedSet) (asked : List Question) : Threaded visited asked [] :=
    fun before _ _ split => absurd split (by simp)
  exact scan_keeps rule p existing
    (fun visited asked _ _ seen => Threaded visited asked seen ∧ ∀ s ∈ seen, s.Made rule p existing)
    (fun visited asked => ⟨none visited asked, List.forall_mem_nil _⟩)
    (fun s _ made _ => ⟨first s [] (none _ _), List.forall_mem_singleton.mpr made⟩)
    (fun s _ _ seen made _ rest => ⟨first s seen rest.1, List.forall_mem_cons.mpr ⟨made, rest.2⟩⟩) visited asked runs

theorem sights_end (runs : List Run) :
    ((∀ s ∈ sights rule p existing visited asked runs, s.GoesOn) ∧
      (sights rule p existing visited asked runs).map Sight.run = runs ∧
      (scan rule p existing visited asked runs).reply = .gives .unchanged) ∨
    ∃ earlier last rest, sights rule p existing visited asked runs = earlier ++ [last] ∧
      (∀ s ∈ earlier, s.GoesOn) ∧ ¬ last.GoesOn ∧ runs = earlier.map Sight.run ++ last.run :: rest ∧
      (scan rule p existing visited asked runs).reply = last.outcome := by
  refine scan_keeps rule p existing (fun _ _ runs done seen =>
    ((∀ s ∈ seen, s.GoesOn) ∧ seen.map Sight.run = runs ∧ done.reply = .gives .unchanged) ∨
    ∃ earlier last rest, seen = earlier ++ [last] ∧ (∀ s ∈ earlier, s.GoesOn) ∧ ¬ last.GoesOn ∧
      runs = earlier.map Sight.run ++ last.run :: rest ∧ done.reply = last.outcome)
    (fun _ _ => .inl ⟨nofun, rfl, rfl⟩) (fun s rest _ stops => .inr ⟨[], s, rest, rfl, nofun, stops, rfl, rfl⟩)
    (fun s rest done seen _ going onward => ?_) visited asked runs
  rcases onward with ⟨all, runs, unchanged⟩ | ⟨earlier, last, after, split, before, ends, listed, outcome⟩
  · exact .inl ⟨List.forall_mem_cons.mpr ⟨going, all⟩, by rw [List.map_cons, runs], unchanged⟩
  · refine .inr ⟨s :: earlier, last, after, by rw [split]; rfl, List.forall_mem_cons.mpr ⟨going, before⟩, ends, ?_,
      outcome⟩
    rw [List.map_cons, List.cons_append, ← listed]

end Sights

theorem poll_listed (w : RunWatch) (existing : Option String) (runs : List Run)
    (listed : w.provider.runs w.rule.limit = .gives runs) :
    w.sights existing = sights w.rule w.provider existing w.visited [.runs w.rule.limit] runs ∧
      scanListed w.rule w.provider existing w.visited =
        scan w.rule w.provider existing w.visited [.runs w.rule.limit] runs := by
  rw [RunWatch.sights, scanListed, listed]
  exact ⟨rfl, rfl⟩

theorem poll_threaded (w : RunWatch) (existing : Option String) (runs : List Run)
    (listed : w.provider.runs w.rule.limit = .gives runs) :
    Threaded w.visited [.runs w.rule.limit] (w.sights existing) ∧
      ∀ s ∈ w.sights existing, s.Made w.rule w.provider existing := by
  rw [(poll_listed w existing runs listed).1]
  exact sights_threaded w.rule w.provider existing w.visited [.runs w.rule.limit] runs

theorem poll_end (w : RunWatch) (existing : Option String) (runs : List Run)
    (listed : w.provider.runs w.rule.limit = .gives runs) :
    ((∀ s ∈ w.sights existing, s.GoesOn) ∧ (w.sights existing).map Sight.run = runs ∧
      (w.tryIngest existing).1 = .gives .unchanged) ∨
    ∃ earlier last rest, w.sights existing = earlier ++ [last] ∧ (∀ s ∈ earlier, s.GoesOn) ∧ ¬ last.GoesOn ∧
      runs = earlier.map Sight.run ++ last.run :: rest ∧ (w.tryIngest existing).1 = last.outcome := by
  obtain ⟨looks, scanned⟩ := poll_listed w existing runs listed
  rw [looks, show (w.tryIngest existing).1 = _ from congrArg ScanEnd.reply scanned]
  exact sights_end w.rule w.provider existing w.visited [.runs w.rule.limit] runs

theorem confirm_found (w : RunWatch) (existing : Option String) (s : Sight) (key : String) (bytes : Bytes)
    (looked : s ∈ w.sights existing) (found : s.reply = .gives (.found key bytes)) :
    (w.tryIngest existing).2.1.confirm.visited = (w.tryIngest existing).2.1.visited.insert s.run.attempt := by
  have offered : (w.tryIngest existing).2.1.offered = some s.run.attempt :=
    ((poll_within w existing s looked).found key bytes found).2
  rw [RunWatch.confirm, offered]

theorem confirm_nothing (w : RunWatch) (existing : Option String)
    (nothing : ∀ key bytes, (w.tryIngest existing).1 ≠ .gives (.changed key bytes)) :
    (w.tryIngest existing).2.1.confirm.visited = (w.tryIngest existing).2.1.visited := by
  have offered : (w.tryIngest existing).2.1.offered = none := by
    rw [show (w.tryIngest existing).2.1.offered = _ from (poll_accounted w existing).offered,
      List.findSome?_eq_none_iff]
    intro s looked
    unfold Sight.offered?
    split
    · next key bytes found =>
        exact absurd ((poll_within w existing s looked).found key bytes found).1 (nothing key bytes)
    · rfl
  rw [RunWatch.confirm, offered]

end IndexKeeper
