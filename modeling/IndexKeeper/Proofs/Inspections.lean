import IndexKeeper.Proofs.VisitedRoom
import IndexKeeper.Source

set_option autoImplicit false

namespace IndexKeeper

def Question.run? : Question → Option Run
  | runs _ => none
  | artifacts run => some run
  | download run _ => some run

namespace RunRule

def inspect (rule : RunRule) (p : Provider) (asked : List Question) (run : Run) :
    Reply PollError (Option Bytes) :=
  ((p.artifacts asked run).mapError PollError.provider).bind fun artifacts =>
    match rule.choose artifacts with
    | none => .gives none
    | some artifact =>
        ((p.download (asked ++ [.artifacts run]) run artifact).mapError PollError.provider).bind
          fun archive => (Reply.ofExcept (Archive.extract archive rule.entry)).mapError PollError.archive

def verdict (rule : RunRule) (run : Run) : Option Bytes → Look
  | none => .barren
  | some bytes => .found (rule.key run) bytes

end RunRule

-- All questions are about the run looked at, and they are asked only while it is not passed over.
inductive Looked (rule : RunRule) (p : Provider) (existing : Option String) (visited : VisitedSet)
    (asked : List Question) (run : Run) : Reply PollError Look → List Question → Prop where
  | stopped (early : rule.stopsEarly = true) (stored : existing = some (rule.key run)) :
      Looked rule p existing visited asked run (.gives .reached) []
  | reached (fresh : rule.passes visited run = false) (stored : existing = some (rule.key run)) :
      Looked rule p existing visited asked run (.gives .reached) [.artifacts run]
  | passed (known : rule.passes visited run = true) :
      Looked rule p existing visited asked run (.gives .passed) []
  | inspected (more : List Question) (fresh : rule.passes visited run = false)
      (own : ∀ question ∈ more, question.run? = some run) (listed : .artifacts run ∈ more) :
      Looked rule p existing visited asked run
        ((rule.inspect p asked run).bind fun found => .gives (rule.verdict run found)) more

section Look

variable (rule : RunRule) (p : Provider) (existing : Option String) (visited : VisitedSet)
  (asked : List Question) (run : Run)

theorem look_inside_verdict (archive : Bytes) :
    lookInside rule run archive =
      ((Reply.ofExcept (Archive.extract archive rule.entry)).mapError PollError.archive).bind
        fun found => .gives (rule.verdict run found) := by
  unfold lookInside
  cases Archive.extract archive rule.entry with
  | error => rfl
  | ok found => cases found <;> rfl

theorem bind_bind {ε α β γ : Type} (reply : Reply ε α) (next : α → Reply ε β) (last : β → Reply ε γ) :
    (reply.bind next).bind last = reply.bind fun value => (next value).bind last := by
  cases reply <;> rfl

theorem look_looked : ∃ more, (look rule p existing visited asked run).2 = asked ++ more ∧
    Looked rule p existing visited asked run (look rule p existing visited asked run).1 more := by
  unfold look
  by_cases early : rule.stopsEarly = true ∧ existing = some (rule.key run)
  · rw [if_pos early]
    exact ⟨[], by simp, .stopped early.1 early.2⟩
  · rw [if_neg early]
    cases known : rule.passes visited run with
    | true => exact ⟨[], by simp, .passed known⟩
    | false =>
        have own : ∀ question ∈ [Question.artifacts run], question.run? = some run := by
          simp [Question.run?]
        have inspected := @Looked.inspected rule p existing visited asked run [.artifacts run] known own
          (by simp)
        rw [RunRule.inspect] at inspected
        simp only [Bool.false_eq_true, if_false]
        cases listed : (p.artifacts asked run).mapError PollError.provider with
        | gives artifacts =>
            rw [listed] at inspected
            dsimp only
            cases chosen : rule.choose artifacts with
            | none =>
                refine ⟨[.artifacts run], rfl, ?_⟩
                rwa [Reply.bind, chosen] at inspected
            | some artifact =>
                dsimp only
                by_cases stored : existing = some (rule.key run)
                · rw [if_pos stored]
                  exact ⟨[.artifacts run], rfl, .reached known stored⟩
                · rw [if_neg stored]
                  have taken := @Looked.inspected rule p existing visited asked run
                    [.artifacts run, .download run artifact] known (by simp [Question.run?]) (by simp)
                  rw [RunRule.inspect, listed, bind_bind, Reply.bind] at taken
                  simp only [chosen, bind_bind] at taken
                  refine ⟨[.artifacts run, .download run artifact], by simp, ?_⟩
                  rwa [funext (look_inside_verdict rule run)]
        | fails error => exact ⟨[.artifacts run], rfl, by rwa [listed] at inspected⟩
        | hangs => exact ⟨[.artifacts run], rfl, by rwa [listed] at inspected⟩
        | cancels => exact ⟨[.artifacts run], rfl, by rwa [listed] at inspected⟩

variable {rule p existing visited asked run} {reply : Reply PollError Look} {more : List Question}

theorem looked_barren (looked : Looked rule p existing visited asked run reply more)
    (barren : reply = .gives .barren) :
    rule.inspect p asked run = .gives none ∧ .artifacts run ∈ more := by
  cases looked with
  | stopped => cases barren
  | reached => cases barren
  | passed => cases barren
  | inspected more fresh own listed =>
      refine ⟨?_, listed⟩
      cases inspected : rule.inspect p asked run with
      | gives found =>
          rw [inspected, Reply.bind, Reply.gives.injEq] at barren
          cases found with
          | none => rfl
          | some => cases barren
      | fails => rw [inspected] at barren; cases barren
      | hangs => rw [inspected] at barren; cases barren
      | cancels => rw [inspected] at barren; cases barren

theorem looked_found {key : String} {bytes : Bytes}
    (looked : Looked rule p existing visited asked run reply more)
    (found : reply = .gives (.found key bytes)) :
    rule.inspect p asked run = .gives (some bytes) ∧ key = rule.key run ∧ .artifacts run ∈ more := by
  cases looked with
  | stopped => cases found
  | reached => cases found
  | passed => cases found
  | inspected more fresh own listed =>
      cases inspected : rule.inspect p asked run with
      | gives outcome =>
          rw [inspected, Reply.bind, Reply.gives.injEq] at found
          cases outcome with
          | none => cases found
          | some taken =>
              cases found
              exact ⟨rfl, rfl, listed⟩
      | fails => rw [inspected] at found; cases found
      | hangs => rw [inspected] at found; cases found
      | cancels => rw [inspected] at found; cases found

theorem verdict_not_passed (found : Reply PollError (Option Bytes)) :
    (found.bind fun taken => .gives (rule.verdict run taken)) ≠ .gives .passed := by
  cases found with
  | gives taken => cases taken <;> simp [Reply.bind, RunRule.verdict]
  | _ => simp [Reply.bind]

theorem looked_passed (looked : Looked rule p existing visited asked run reply more)
    (passed : reply = .gives .passed) : rule.passes visited run = true := by
  cases looked with
  | stopped => cases passed
  | reached => cases passed
  | passed known => exact known
  | inspected more fresh => exact absurd passed (verdict_not_passed _)

theorem looked_remembered (looked : Looked rule p existing visited asked run reply more)
    (known : rule.passes visited run = true) :
    (reply = .gives .reached ∨ reply = .gives .passed) ∧ more = [] := by
  cases looked with
  | stopped => exact ⟨.inl rfl, rfl⟩
  | reached fresh => rw [known] at fresh; cases fresh
  | passed => exact ⟨.inr rfl, rfl⟩
  | inspected more fresh => rw [known] at fresh; cases fresh

theorem looked_fresh (looked : Looked rule p existing visited asked run reply more)
    (fresh : rule.passes visited run = false) :
    (rule.stopsEarly = true ∧ existing = some (rule.key run)) ∨ .artifacts run ∈ more := by
  cases looked with
  | stopped early stored => exact .inl ⟨early, stored⟩
  | reached => exact .inr List.mem_cons_self
  | passed known => rw [known] at fresh; cases fresh
  | inspected more fresh own listed => exact .inr listed

end Look

structure Sight where
  run : Run
  visited : VisitedSet
  asked : List Question
  reply : Reply PollError Look
  more : List Question

namespace Sight

def Made (rule : RunRule) (p : Provider) (existing : Option String) (s : Sight) : Prop :=
  look rule p existing s.visited s.asked s.run = (s.reply, s.asked ++ s.more)

def GoesOn (s : Sight) : Prop := s.reply = .gives .passed ∨ s.reply = .gives .barren

def entered? (s : Sight) : Option Attempt :=
  match s.reply with
  | .gives .barren => some s.run.attempt
  | _ => none

def offered? (s : Sight) : Option Attempt :=
  match s.reply with
  | .gives (.found _ _) => some s.run.attempt
  | _ => none

def outcome (s : Sight) : Reply PollError Outcome :=
  s.reply.bind fun
    | .found key bytes => .gives (.changed key bytes)
    | _ => .gives .unchanged

def left (s : Sight) : VisitedSet := s.entered?.toList.foldl VisitedSet.insert s.visited

def ending (s : Sight) : ScanEnd := ⟨s.outcome, s.left, s.offered?, s.asked ++ s.more⟩

end Sight

def sights (rule : RunRule) (p : Provider) (existing : Option String) :
    VisitedSet → List Question → List Run → List Sight
  | _, _, [] => []
  | visited, asked, run :: rest =>
      let (reply, after) := look rule p existing visited asked run
      ⟨run, visited, asked, reply, after.drop asked.length⟩ ::
        match reply with
        | .gives .passed => sights rule p existing visited after rest
        | .gives .barren => sights rule p existing (visited.insert run.attempt) after rest
        | _ => []

def RunWatch.sights (w : RunWatch) (existing : Option String) : List Sight :=
  match w.provider.runs w.rule.limit with
  | .gives runs => IndexKeeper.sights w.rule w.provider existing w.visited [.runs w.rule.limit] runs
  | _ => []

section Sights

variable (rule : RunRule) (p : Provider) (existing : Option String)

theorem made_sight (visited : VisitedSet) (asked : List Question) (run : Run) : ∃ s : Sight,
    s.run = run ∧ s.visited = visited ∧ s.asked = asked ∧ s.Made rule p existing := by
  obtain ⟨more, grown, -⟩ := look_looked rule p existing visited asked run
  exact ⟨⟨run, visited, asked, (look rule p existing visited asked run).1, more⟩, rfl, rfl, rfl, Prod.ext rfl grown⟩

theorem made_looked (s : Sight) (made : s.Made rule p existing) :
    Looked rule p existing s.visited s.asked s.run s.reply s.more := by
  obtain ⟨more, grown, looked⟩ := look_looked rule p existing s.visited s.asked s.run
  rw [made] at grown looked
  exact List.append_cancel_left grown ▸ looked

-- A look either hands on to the rest of the runs or ends the scan.
theorem scan_step (s : Sight) (made : s.Made rule p existing) (rest : List Run) :
    (s.GoesOn ∧
        scan rule p existing s.visited s.asked (s.run :: rest) = scan rule p existing s.left (s.asked ++ s.more) rest ∧
        sights rule p existing s.visited s.asked (s.run :: rest) =
          s :: sights rule p existing s.left (s.asked ++ s.more) rest) ∨
      ¬ s.GoesOn ∧ scan rule p existing s.visited s.asked (s.run :: rest) = s.ending ∧
        sights rule p existing s.visited s.asked (s.run :: rest) = [s] := by
  obtain ⟨run, visited, asked, reply, more⟩ := s
  have made : look rule p existing visited asked run = (reply, asked ++ more) := made
  dsimp only
  rw [scan, sights, made]
  dsimp only
  rw [List.drop_left]
  cases reply with
  | gives look =>
      cases look with
      | passed => exact .inl ⟨.inl rfl, rfl, rfl⟩
      | barren => exact .inl ⟨.inr rfl, rfl, rfl⟩
      | reached => exact .inr ⟨by simp [Sight.GoesOn], rfl, rfl⟩
      | found => exact .inr ⟨by simp [Sight.GoesOn], rfl, rfl⟩
  | fails => exact .inr ⟨by simp [Sight.GoesOn], rfl, rfl⟩
  | hangs => exact .inr ⟨by simp [Sight.GoesOn], rfl, rfl⟩
  | cancels => exact .inr ⟨by simp [Sight.GoesOn], rfl, rfl⟩

theorem scan_onward (s : Sight) (made : s.Made rule p existing) (going : s.GoesOn) (rest : List Run) :
    scan rule p existing s.visited s.asked (s.run :: rest) = scan rule p existing s.left (s.asked ++ s.more) rest :=
  ((scan_step rule p existing s made rest).resolve_right fun other => other.1 going).2.1

theorem scan_stops (s : Sight) (made : s.Made rule p existing) (stops : ¬ s.GoesOn) (rest : List Run) :
    scan rule p existing s.visited s.asked (s.run :: rest) = s.ending :=
  ((scan_step rule p existing s made rest).resolve_left fun other => stops other.1).2.1

-- Whatever holds of an end, and of a scan once it holds after its first look, holds of all scans with their looks.
theorem scan_keeps (holds : VisitedSet → List Question → List Run → ScanEnd → List Sight → Prop)
    (finished : ∀ visited asked, holds visited asked [] ⟨.gives .unchanged, visited, none, asked⟩ [])
    (ends : ∀ (s : Sight) rest, s.Made rule p existing → ¬ s.GoesOn →
      holds s.visited s.asked (s.run :: rest) s.ending [s])
    (goes : ∀ (s : Sight) rest done seen, s.Made rule p existing → s.GoesOn →
      holds s.left (s.asked ++ s.more) rest done seen → holds s.visited s.asked (s.run :: rest) done (s :: seen))
    (visited : VisitedSet) (asked : List Question) (runs : List Run) :
    holds visited asked runs (scan rule p existing visited asked runs) (sights rule p existing visited asked runs) := by
  induction runs generalizing visited asked with
  | nil => exact finished visited asked
  | cons run rest ih =>
      obtain ⟨s, rfl, rfl, rfl, made⟩ := made_sight rule p existing visited asked run
      rcases scan_step rule p existing s made rest with ⟨going, scanned, seen⟩ | ⟨stops, scanned, seen⟩
      · rw [scanned, seen]
        exact goes s rest _ _ made going (ih s.left (s.asked ++ s.more))
      · rw [scanned, seen]
        exact ends s rest made stops

theorem outcome_found_iff (s : Sight) (key : String) (bytes : Bytes) :
    s.outcome = .gives (.changed key bytes) ↔ s.reply = .gives (.found key bytes) := by
  unfold Sight.outcome
  cases s.reply with
  | gives look => cases look <;> simp [Reply.bind]
  | _ => simp [Reply.bind]

theorem outcome_unchanged_iff (s : Sight) (stops : ¬ s.GoesOn) :
    s.outcome = .gives .unchanged ↔ s.reply = .gives .reached := by
  unfold Sight.outcome
  unfold Sight.GoesOn at stops
  generalize s.reply = reply at stops ⊢
  cases reply with
  | gives look => cases look <;> simp_all [Reply.bind]
  | _ => simp [Reply.bind]

theorem found_stops (s : Sight) (key : String) (bytes : Bytes) (found : s.reply = .gives (.found key bytes)) :
    ¬ s.GoesOn ∧ s.offered? = some s.run.attempt := by
  simp [Sight.GoesOn, Sight.offered?, found]

theorem offers_nothing (s : Sight) (going : s.GoesOn) : s.offered? = none := by
  unfold Sight.offered?
  rcases going with passed | barren
  · rw [passed]
  · rw [barren]

theorem enters_nothing (s : Sight) (stops : ¬ s.GoesOn) : s.entered? = none := by
  unfold Sight.entered?
  split
  · next barren => exact absurd (.inr barren) stops
  · rfl

theorem left_of_stops (s : Sight) (stops : ¬ s.GoesOn) : s.left = s.visited := by
  rw [Sight.left, enters_nothing s stops]
  rfl

theorem left_remembers (s : Sight) (a : Attempt) (inside : s.left.contains a = true) :
    s.visited.contains a = true ∨ s.entered? = some a := by
  unfold Sight.left at inside
  cases entered : s.entered? with
  | none =>
      rw [entered] at inside
      exact .inl inside
  | some b =>
      rw [entered] at inside
      exact (s.visited.of_contains_insert b a inside).symm.imp id fun same => congrArg some same.symm

structure Accounted (visited : VisitedSet) (asked : List Question) (seen : List Sight) (done : ScanEnd) :
    Prop where
  asked : done.asked = asked ++ seen.flatMap Sight.more
  visited : done.visited = (seen.filterMap Sight.entered?).foldl VisitedSet.insert visited
  offered : done.offered = seen.findSome? Sight.offered?

theorem scan_accounted (visited : VisitedSet) (asked : List Question) (runs : List Run) :
    Accounted visited asked (sights rule p existing visited asked runs)
      (scan rule p existing visited asked runs) := by
  have entries (s : Sight) (seen : List Sight) :
      ((s :: seen).filterMap Sight.entered?).foldl VisitedSet.insert s.visited =
      (seen.filterMap Sight.entered?).foldl VisitedSet.insert s.left := by
    rw [Sight.left, List.filterMap_cons]
    cases s.entered? <;> rfl
  refine scan_keeps rule p existing (fun visited asked _ done seen => Accounted visited asked seen done)
    (fun _ _ => ⟨(List.append_nil _).symm, rfl, rfl⟩) (fun s _ _ _ => ?_) (fun s _ done seen _ going rest => ?_)
    visited asked runs
  · refine ⟨by simp [Sight.ending], (entries s []).symm, ?_⟩
    cases offered : s.offered? <;> simp [Sight.ending, offered]
  · refine ⟨by rw [rest.asked, List.flatMap_cons, List.append_assoc], rest.visited.trans (entries s seen).symm, ?_⟩
    rw [List.findSome?_cons, offers_nothing s going]
    exact rest.offered

structure Within (visited : VisitedSet) (done : ScanEnd) (seen : List Sight) (s : Sight) : Prop where
  looked : Looked rule p existing s.visited s.asked s.run s.reply s.more
  remembered : ∀ a, s.visited.contains a = true →
    visited.contains a = true ∨ ∃ earlier ∈ seen, earlier.entered? = some a
  last : s.reply ≠ .gives .passed → s.reply ≠ .gives .barren → done.visited = s.visited
  found : ∀ key bytes, s.reply = .gives (.found key bytes) →
    done.reply = .gives (.changed key bytes) ∧ done.offered = some s.run.attempt
  broken : (∀ found, s.reply ≠ .gives found) → ∀ outcome, done.reply ≠ .gives outcome

theorem ending_within (s : Sight) (made : s.Made rule p existing) (stops : ¬ s.GoesOn) :
    Within rule p existing s.visited s.ending [s] s := by
  refine ⟨made_looked rule p existing s made, fun _ => .inl, fun _ _ => left_of_stops s stops, fun key bytes found => ?_,
    fun broken outcome given => ?_⟩
  · simp [Sight.ending, Sight.outcome, Sight.offered?, found, Reply.bind]
  · unfold Sight.ending Sight.outcome at given
    cases reply : s.reply with
    | gives look => exact broken look reply
    | fails => rw [reply] at given; cases given
    | hangs => rw [reply] at given; cases given
    | cancels => rw [reply] at given; cases given

theorem going_within (s : Sight) (made : s.Made rule p existing) (going : s.GoesOn) (done : ScanEnd)
    (seen : List Sight) : Within rule p existing s.visited done (s :: seen) s := by
  refine ⟨made_looked rule p existing s made, fun _ => .inl, fun notPassed notBarren => ?_, fun key bytes found => ?_,
    fun broken => ?_⟩
  · exact absurd going (not_or.mpr ⟨notPassed, notBarren⟩)
  · simp [Sight.GoesOn, found] at going
  · exact absurd going (not_or.mpr ⟨broken _, broken _⟩)

theorem sight_within (visited : VisitedSet) (asked : List Question) (runs : List Run) :
    ∀ s ∈ sights rule p existing visited asked runs,
      Within rule p existing visited (scan rule p existing visited asked runs)
        (sights rule p existing visited asked runs) s := by
  refine scan_keeps rule p existing
    (fun visited _ _ done seen => ∀ s ∈ seen, Within rule p existing visited done seen s)
    (fun _ _ => nofun) (fun s _ made stops => ?_) (fun s _ done seen made going rest => ?_) visited asked runs
  · exact List.forall_mem_singleton.mpr (ending_within rule p existing s made stops)
  · refine List.forall_mem_cons.mpr ⟨going_within rule p existing s made going done seen, fun other later => ?_⟩
    obtain ⟨looked, remembered, last, found, broken⟩ := rest other later
    refine ⟨looked, fun a inside => ?_, last, found, broken⟩
    rcases remembered a inside with known | ⟨earlier, member, entered⟩
    · exact (left_remembers s a known).imp_right fun here => ⟨s, List.mem_cons_self, here⟩
    · exact .inr ⟨earlier, List.mem_cons_of_mem _ member, entered⟩

end Sights

theorem poll_accounted (w : RunWatch) (existing : Option String) :
    Accounted w.visited [.runs w.rule.limit] (w.sights existing)
      (scanListed w.rule w.provider existing w.visited) := by
  unfold RunWatch.sights scanListed
  cases w.provider.runs w.rule.limit with
  | gives runs => exact scan_accounted w.rule w.provider existing w.visited _ runs
  | fails => exact ⟨rfl, rfl, rfl⟩
  | hangs => exact ⟨rfl, rfl, rfl⟩
  | cancels => exact ⟨rfl, rfl, rfl⟩

theorem poll_within (w : RunWatch) (existing : Option String) :
    ∀ s ∈ w.sights existing, Within w.rule w.provider existing w.visited
      (scanListed w.rule w.provider existing w.visited) (w.sights existing) s := by
  unfold RunWatch.sights scanListed
  cases w.provider.runs w.rule.limit with
  | gives runs => exact sight_within w.rule w.provider existing w.visited _ runs
  | fails => exact fun s member => nomatch member
  | hangs => exact fun s member => nomatch member
  | cancels => exact fun s member => nomatch member

end IndexKeeper
