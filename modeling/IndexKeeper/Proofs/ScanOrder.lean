import IndexKeeper.Proofs.FinishedRuns
import IndexKeeper.Proofs.PrintedJson
import IndexKeeper.Proofs.SpentSources

set_option autoImplicit false

namespace IndexKeeper

namespace Instant

theorem before_of_not_before (a b c : Instant) (first : a.before b = true) (second : c.before b = false) :
    a.before c = true := by
  rw [← Bool.not_eq_true] at second
  rw [before_iff] at *
  omega

end Instant

namespace RunRule

variable (rule : RunRule)

theorem key_iff (run other : Run) : rule.key run = rule.key other ↔ run.attempt.id = other.attempt.id := by
  constructor
  · intro same
    cases rule with
    | pipeline organization project artifactName fileName =>
        have chars := congrArg String.toList same
        simp only [key, String.toList_append] at chars
        exact Json.integer_text_injective _ _ (String.toList_inj.mp (List.append_cancel_left chars))
    | workflow => exact Json.integer_text_injective _ _ same
  · intro same
    cases rule <;> simp only [key, same]

theorem look_reply (p : Provider) (existing : Option String) (visited : VisitedSet) (asked : List Question)
    (run : Run) : (look rule p existing visited asked run).1 =
      if rule.stopsEarly = true ∧ existing = some (rule.key run) then .gives .reached
      else if rule.passes visited run = true then .gives .passed
      else ((p.artifacts asked run).mapError PollError.provider).bind fun artifacts =>
        match rule.choose artifacts with
        | none => .gives .barren
        | some artifact =>
            if existing = some (rule.key run) then .gives .reached
            else ((p.download (asked ++ [.artifacts run]) run artifact).mapError PollError.provider).bind
              (lookInside rule run) := by
  unfold look
  split
  · rfl
  · split
    · rfl
    · cases (p.artifacts asked run).mapError PollError.provider with
      | gives artifacts =>
          dsimp only [Reply.bind]
          cases rule.choose artifacts with
          | none => rfl
          | some artifact =>
              dsimp only
              split <;> rfl
      | fails e => rfl
      | hangs => rfl
      | cancels => rfl

theorem look_other (p : Provider) (existing : Option String) (visited : VisitedSet) (asked : List Question) (run : Run)
    (other : existing ≠ some (rule.key run)) (fresh : rule.passes visited run = false) :
    (look rule p existing visited asked run).1 =
      (rule.inspect p asked run).bind fun found => .gives (rule.verdict run found) := by
  obtain ⟨more, -, looked⟩ := look_looked rule p existing visited asked run
  generalize (look rule p existing visited asked run).1 = reply at looked ⊢
  cases looked with
  | stopped _ stored => exact absurd stored other
  | reached _ stored => exact absurd stored other
  | passed known => cases fresh.symm.trans known
  | inspected => rfl

def through (p : Provider) (existing : Option String) :
    VisitedSet → List Question → List Run → Option (VisitedSet × List Question)
  | visited, asked, [] => some (visited, asked)
  | visited, asked, run :: rest =>
      match look rule p existing visited asked run with
      | (.gives .passed, asked) => through p existing visited asked rest
      | (.gives .barren, asked) => through p existing (visited.insert run.attempt) asked rest
      | _ => none

section Through

variable (p : Provider) (existing : Option String) (visited : VisitedSet) (asked : List Question)

theorem through_onward (s : Sight) (made : s.Made rule p existing) (going : s.GoesOn) (rest : List Run) :
    rule.through p existing s.visited s.asked (s.run :: rest) =
      rule.through p existing s.left (s.asked ++ s.more) rest := by
  rw [through, made, Sight.left, Sight.entered?]
  rcases going with passed | barren
  · rw [passed]
    rfl
  · rw [barren]
    rfl

theorem through_stops (s : Sight) (made : s.Made rule p existing) (stops : ¬ s.GoesOn) (rest : List Run) :
    rule.through p existing s.visited s.asked (s.run :: rest) = none := by
  rw [through, made]
  split
  · next same => exact absurd (.inl (Prod.mk.inj same).1) stops
  · next same => exact absurd (.inr (Prod.mk.inj same).1) stops
  · rfl

theorem through_append (before after : List Run) : rule.through p existing visited asked (before ++ after) =
    (rule.through p existing visited asked before).bind fun left => rule.through p existing left.1 left.2 after := by
  induction before generalizing visited asked with
  | nil => rfl
  | cons run rest ih =>
      obtain ⟨s, rfl, rfl, rfl, made⟩ := made_sight rule p existing visited asked run
      rw [List.cons_append]
      by_cases going : s.GoesOn
      · rw [rule.through_onward p existing s made going, rule.through_onward p existing s made going]
        exact ih s.left (s.asked ++ s.more)
      · rw [rule.through_stops p existing s made going, rule.through_stops p existing s made going]
        rfl

theorem scan_after_through (before after : List Run) (left : VisitedSet × List Question)
    (gone : rule.through p existing visited asked before = some left) :
    scan rule p existing visited asked (before ++ after) = scan rule p existing left.1 left.2 after := by
  induction before generalizing visited asked with
  | nil =>
      obtain rfl := Option.some.inj gone
      rfl
  | cons run rest ih =>
      obtain ⟨s, rfl, rfl, rfl, made⟩ := made_sight rule p existing visited asked run
      by_cases going : s.GoesOn
      · rw [rule.through_onward p existing s made going] at gone
        rw [List.cons_append, scan_onward rule p existing s made going]
        exact ih s.left (s.asked ++ s.more) gone
      · rw [rule.through_stops p existing s made going] at gone
        cases gone

theorem scan_ends (runs : List Run) : (∃ left, rule.through p existing visited asked runs = some left) ∨
    ∃ before run after left, runs = before ++ run :: after ∧
      rule.through p existing visited asked before = some left ∧
      (look rule p existing left.1 left.2 run).1 ≠ .gives .passed ∧
      (look rule p existing left.1 left.2 run).1 ≠ .gives .barren := by
  induction runs generalizing visited asked with
  | nil => exact .inl ⟨_, rfl⟩
  | cons run rest ih =>
      obtain ⟨s, rfl, rfl, rfl, made⟩ := made_sight rule p existing visited asked run
      by_cases going : s.GoesOn
      · have onward := rule.through_onward p existing s made going
        rcases ih s.left (s.asked ++ s.more) with ⟨left, gone⟩ | ⟨before, last, after, left, split, gone, ends⟩
        · exact .inl ⟨left, (onward rest).trans gone⟩
        · exact .inr ⟨s.run :: before, last, after, left, congrArg _ split, (onward before).trans gone, ends⟩
      · refine .inr ⟨[], s.run, rest, _, rfl, rfl, ?_⟩
        rw [made]
        exact not_or.mp going

theorem scan_decided (run : Run) (rest : List Run) (key : String) (bytes : Bytes)
    (notPassed : (look rule p existing visited asked run).1 ≠ .gives .passed)
    (notBarren : (look rule p existing visited asked run).1 ≠ .gives .barren) :
    (scan rule p existing visited asked (run :: rest)).reply = .gives (.changed key bytes) ↔
      (look rule p existing visited asked run).1 = .gives (.found key bytes) := by
  obtain ⟨s, rfl, rfl, rfl, made⟩ := made_sight rule p existing visited asked run
  rw [made] at notPassed notBarren ⊢
  rw [scan_stops rule p existing s made (not_or.mpr ⟨notPassed, notBarren⟩)]
  exact outcome_found_iff s key bytes

theorem scan_found (run : Run) (rest : List Run) (key : String) (bytes : Bytes)
    (found : (look rule p existing visited asked run).1 = .gives (.found key bytes)) :
    (scan rule p existing visited asked (run :: rest)).reply = .gives (.changed key bytes) ∧
      (scan rule p existing visited asked (run :: rest)).offered = some run.attempt := by
  obtain ⟨s, rfl, rfl, rfl, made⟩ := made_sight rule p existing visited asked run
  rw [made] at found
  obtain ⟨stops, offered⟩ := found_stops s key bytes found
  rw [scan_stops rule p existing s made stops]
  exact ⟨(outcome_found_iff s key bytes).mpr found, offered⟩

theorem entered_barren (s : Sight) (made : s.Made rule p existing) (a : Attempt) (entered : s.entered? = some a) :
    s.run.attempt = a ∧ rule.ignores s.run = false ∧ rule.inspect p s.asked s.run = .gives none := by
  have looked := made_looked rule p existing s made
  unfold Sight.entered? at entered
  split at entered
  · next barren =>
      refine ⟨Option.some.inj entered, ?_, (looked_barren looked barren).1⟩
      cases ignored : rule.ignores s.run with
      | false => rfl
      | true =>
          rcases (looked_remembered looked ((passes_iff rule s.visited s.run).mpr (.inl ignored))).1 with
            reached | passed
          · cases barren.symm.trans reached
          · cases barren.symm.trans passed
  · cases entered

theorem through_visited (runs : List Run) (left : VisitedSet × List Question)
    (gone : rule.through p existing visited asked runs = some left) (a : Attempt)
    (known : left.1.contains a = true) : visited.contains a = true ∨ ∃ run ∈ runs, run.attempt = a ∧
      rule.ignores run = false ∧ ∃ asked, rule.inspect p asked run = .gives none := by
  induction runs generalizing visited asked with
  | nil =>
      obtain rfl := Option.some.inj gone
      exact .inl known
  | cons run rest ih =>
      obtain ⟨s, rfl, rfl, rfl, made⟩ := made_sight rule p existing visited asked run
      by_cases going : s.GoesOn
      · rw [rule.through_onward p existing s made going] at gone
        rcases ih s.left (s.asked ++ s.more) gone with here | ⟨other, member, named, barren⟩
        · refine (left_remembers s a here).imp_right fun entered => ?_
          obtain ⟨same, counts, barren⟩ := rule.entered_barren p existing s made a entered
          exact ⟨s.run, List.mem_cons_self, same, counts, s.asked, barren⟩
        · exact .inr ⟨other, List.mem_cons_of_mem _ member, named, barren⟩
      · rw [rule.through_stops p existing s made going] at gone
        cases gone

theorem fresh_run_ends (runs : List Run) (left : VisitedSet × List Question)
    (gone : rule.through p existing visited asked runs = some left) (target : Run) (listed : target ∈ runs)
    (unvisited : visited.contains target.attempt = false) (counts : rule.ignores target = false)
    (yields : ∀ run ∈ runs, run.attempt = target.attempt → rule.ignores run = false →
      ∀ asked, ∃ bytes, rule.inspect p asked run = .gives (some bytes)) : False := by
  obtain ⟨before, after, rfl⟩ := List.append_of_mem listed
  rw [through_append] at gone
  obtain ⟨mid, reached, gone⟩ := Option.bind_eq_some_iff.mp gone
  obtain ⟨more, -, looked⟩ := look_looked rule p existing mid.1 mid.2 target
  have fresh : mid.1.contains target.attempt = false := by
    cases known : mid.1.contains target.attempt with
    | false => rfl
    | true =>
        rcases rule.through_visited p existing visited asked before mid reached _ known with
          old | ⟨run, member, same, counts, asked, barren⟩
        · cases unvisited.symm.trans old
        · obtain ⟨bytes, found⟩ := yields run (List.mem_append_left _ member) same counts asked
          cases barren.symm.trans found
  rw [through] at gone
  split at gone
  · next same =>
      rcases (passes_iff rule mid.1 target).mp (looked_passed looked (by rw [same])) with
        ignored | old
      · cases counts.symm.trans ignored
      · cases fresh.symm.trans old
  · next same =>
      obtain ⟨bytes, found⟩ := yields target listed rfl counts mid.2
      have barren := (looked_barren looked (by rw [same])).1
      cases barren.symm.trans found
  · cases gone

end Through

end RunRule

end IndexKeeper
