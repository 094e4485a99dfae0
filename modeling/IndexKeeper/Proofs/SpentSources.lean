import IndexKeeper.Proofs.FilePolls
import IndexKeeper.Proofs.Inspections
import IndexKeeper.Proofs.WorkflowPolls

set_option autoImplicit false

namespace IndexKeeper

-- Answers that stay the same, whatever was asked before in a poll, and that are the same for all runs listed
-- that are one attempt.
structure Provider.Unchanging (p : Provider) (limit : Nat) : Prop where
  steady : p.Steady
  alike : ∀ runs, p.runs limit = .gives runs → ∀ run ∈ runs, ∀ other ∈ runs, other.attempt = run.attempt →
    p.artifacts [] other = p.artifacts [] run ∧ p.download [] other = p.download [] run

namespace RunRule

def seek (rule : RunRule) (p : Provider) (existing : Option String) : List Run → Reply PollError Outcome
  | [] => .gives .unchanged
  | run :: rest =>
      if existing = some (rule.key run) then .gives .unchanged
      else match rule.inspect p [] run with
        | .gives none => rule.seek p existing rest
        | .gives (some bytes) => .gives (.changed (rule.key run) bytes)
        | .fails e => .fails e
        | .hangs => .hangs
        | .cancels => .cancels

-- Of the runs listed only those are remembered that yield nothing, or whose key is exempt.
def Harmless (rule : RunRule) (p : Provider) (exempt : Option String) (runs : List Run)
    (visited : VisitedSet) : Prop :=
  ∀ run ∈ runs, visited.contains run.attempt = true →
    exempt = some (rule.key run) ∨ rule.inspect p [] run = .gives none

section Seek

variable (rule : RunRule) (p : Provider)

theorem passes_early (early : rule.stopsEarly = true) (visited : VisitedSet) (run : Run) :
    rule.passes visited run = visited.contains run.attempt := by
  cases rule with
  | pipeline => rfl
  | workflow => cases early

theorem key_attempt (run other : Run) (same : other.attempt = run.attempt) : rule.key other = rule.key run := by
  unfold key
  rw [same]

theorem inspect_asked (steady : p.Steady) (asked : List Question) (run : Run) :
    rule.inspect p asked run = rule.inspect p [] run := by
  unfold inspect
  simp only [steady.1 asked, steady.2 (asked ++ [.artifacts run]), steady.2 ([] ++ [.artifacts run])]

theorem inspect_alike (steady : p.Steady) (run other : Run) (artifacts : p.artifacts [] other = p.artifacts [] run)
    (download : p.download [] other = p.download [] run) :
    rule.inspect p [] other = rule.inspect p [] run := by
  unfold inspect
  simp only [artifacts, steady.2 ([] ++ [.artifacts run]), steady.2 ([] ++ [.artifacts other]), download]

theorem harmless_empty (exempt : Option String) (runs : List Run) (max : Nat) :
    rule.Harmless p exempt runs (.empty max) := fun _ _ known => nomatch known

theorem harmless_any (exempt : Option String) (runs : List Run) (visited : VisitedSet)
    (harmless : rule.Harmless p none runs visited) : rule.Harmless p exempt runs visited :=
  fun run member known => .inr ((harmless run member known).resolve_left nofun)

theorem harmless_insert (exempt : Option String) (runs : List Run) (visited : VisitedSet) (run : Run)
    (harmless : rule.Harmless p exempt runs visited)
    (own : ∀ other ∈ runs, other.attempt = run.attempt →
      exempt = some (rule.key other) ∨ rule.inspect p [] other = .gives none) :
    rule.Harmless p exempt runs (visited.insert run.attempt) := by
  intro other member known
  rcases visited.of_contains_insert run.attempt other.attempt known with same | old
  · exact own other member same
  · exact harmless other member old

theorem look_early (early : rule.stopsEarly = true) (steady : p.Steady) (existing : Option String)
    (visited : VisitedSet) (asked : List Question) (run : Run) :
    (look rule p existing visited asked run).1 =
      if existing = some (rule.key run) then .gives .reached
      else if visited.contains run.attempt = true then .gives .passed
      else (rule.inspect p [] run).bind fun found => .gives (rule.verdict run found) := by
  by_cases stored : existing = some (rule.key run)
  · simp [look, early, stored]
  · have passes := rule.passes_early early visited run
    obtain ⟨more, -, looked⟩ := look_looked rule p existing visited asked run
    rw [if_neg stored]
    cases known : visited.contains run.attempt with
    | true => simp [look, stored, passes, known]
    | false =>
        rw [if_neg Bool.false_ne_true, ← rule.inspect_asked p steady asked run]
        generalize (look rule p existing visited asked run).1 = reply at looked ⊢
        cases looked with
        | stopped _ here => exact absurd here stored
        | reached _ here => exact absurd here stored
        | passed passed => rw [passes, known] at passed; cases passed
        | inspected => rfl

theorem scan_seeks (early : rule.stopsEarly = true) (unchanging : p.Unchanging rule.limit)
    (existing exempt : Option String) (within : exempt = none ∨ exempt = existing) (all runs : List Run)
    (listing : p.runs rule.limit = .gives all) (listed : ∀ run ∈ runs, run ∈ all) (visited : VisitedSet)
    (asked : List Question) (harmless : rule.Harmless p exempt all visited) :
    (scan rule p existing visited asked runs).reply = rule.seek p existing runs ∧
      rule.Harmless p exempt all (scan rule p existing visited asked runs).visited := by
  -- The memory changes on the way, but only barren runs enter it.
  induction runs generalizing visited asked with
  | nil => exact ⟨rfl, harmless⟩
  | cons run rest ih =>
      have here := listed run List.mem_cons_self
      have onward := ih fun other member => listed other (List.mem_cons_of_mem _ member)
      have looked := look_early rule p early unchanging.steady existing visited asked run
      rw [scan, seek]
      generalize look rule p existing visited asked run = answer at looked ⊢
      obtain ⟨reply, after⟩ := answer
      obtain rfl := looked
      by_cases stored : existing = some (rule.key run)
      · rw [if_pos stored, if_pos stored]
        exact ⟨rfl, harmless⟩
      · rw [if_neg stored, if_neg stored]
        cases known : visited.contains run.attempt with
        | true =>
            have barren : rule.inspect p [] run = .gives none := by
              refine (harmless run here known).resolve_left fun same => ?_
              rcases within with none | existing
              · rw [none] at same
                cases same
              · exact stored (existing.symm.trans same)
            rw [if_pos rfl, barren]
            exact onward visited after harmless
        | false =>
            rw [if_neg Bool.false_ne_true]
            cases inspected : rule.inspect p [] run with
            | gives found =>
                cases found with
                | none =>
                    refine onward (visited.insert run.attempt) after
                      (harmless_insert rule p exempt all visited run harmless fun other member same => .inr ?_)
                    obtain ⟨artifacts, download⟩ := unchanging.alike all listing run here other member same
                    rw [rule.inspect_alike p unchanging.steady run other artifacts download, inspected]
                | some bytes => exact ⟨rfl, harmless⟩
            | fails e => exact ⟨rfl, harmless⟩
            | hangs => exact ⟨rfl, harmless⟩
            | cancels => exact ⟨rfl, harmless⟩

theorem seek_again (existing : Option String) (runs : List Run) (key : String) (bytes : Bytes)
    (found : rule.seek p existing runs = .gives (.changed key bytes)) :
    rule.seek p (some key) runs = .gives .unchanged := by
  induction runs with
  | nil => cases found
  | cons run rest ih =>
      rw [seek] at found ⊢
      by_cases here : some key = some (rule.key run)
      · rw [if_pos here]
      · rw [if_neg here]
        split at found
        · cases found
        · split at found
          · exact ih found
          · next taken =>
              cases found
              exact absurd rfl here
          · cases found
          · cases found
          · cases found

theorem scan_offers (existing : Option String) (visited : VisitedSet) (asked : List Question) (runs : List Run)
    (key : String) (bytes : Bytes)
    (found : (scan rule p existing visited asked runs).reply = .gives (.changed key bytes)) :
    ∃ run ∈ runs, (scan rule p existing visited asked runs).offered = some run.attempt ∧ key = rule.key run := by
  refine scan_keeps rule p existing (fun _ _ runs done _ => done.reply = .gives (.changed key bytes) →
    ∃ run ∈ runs, done.offered = some run.attempt ∧ key = rule.key run) (fun _ _ => nofun)
    (fun s rest made _ found => ?_) (fun s rest done _ _ _ onward found => ?_) visited asked runs found
  · have found := (outcome_found_iff s key bytes).mp found
    exact ⟨s.run, List.mem_cons_self, (found_stops s key bytes found).2,
      (looked_found (made_looked rule p existing s made) found).2.1⟩
  · obtain ⟨run, member, offered⟩ := onward found
    exact ⟨run, List.mem_cons_of_mem _ member, offered⟩

end Seek

end RunRule

namespace RunWatch

def news (w : RunWatch) (existing : Option String) : Reply PollError Outcome :=
  ((w.provider.runs w.rule.limit).mapError PollError.provider).bind (w.rule.seek w.provider existing)

structure Watches (w : RunWatch) (exempt : Option String) : Prop where
  early : w.rule.stopsEarly = true
  unchanging : w.provider.Unchanging w.rule.limit
  harmless : ∀ runs, w.provider.runs w.rule.limit = .gives runs →
    w.rule.Harmless w.provider exempt runs w.visited

section Watch

variable (w : RunWatch) (existing : Option String)

theorem try_ingest_listed (runs : List Run) (listing : w.provider.runs w.rule.limit = .gives runs) :
    w.tryIngest existing = ((scan w.rule w.provider existing w.visited [.runs w.rule.limit] runs).reply,
      { w with visited := (scan w.rule w.provider existing w.visited [.runs w.rule.limit] runs).visited,
               offered := (scan w.rule w.provider existing w.visited [.runs w.rule.limit] runs).offered },
      (scan w.rule w.provider existing w.visited [.runs w.rule.limit] runs).asked) := by
  rw [tryIngest, scanListed, listing]

theorem poll_news (exempt : Option String) (within : exempt = none ∨ exempt = existing)
    (watches : w.Watches exempt) :
    (w.tryIngest existing).1 = w.news existing ∧ (w.tryIngest existing).2.1.Watches exempt := by
  cases listing : w.provider.runs w.rule.limit with
  | gives runs =>
      obtain ⟨reply, harmless⟩ := w.rule.scan_seeks w.provider watches.early watches.unchanging existing exempt
        within runs runs listing (fun _ member => member) w.visited [.runs w.rule.limit]
        (watches.harmless runs listing)
      rw [w.try_ingest_listed existing runs listing, news, listing]
      refine ⟨reply, watches.early, watches.unchanging, fun others again => ?_⟩
      obtain rfl := Reply.gives.inj (listing.symm.trans again)
      exact harmless
  | _ => exact ⟨by simp [tryIngest, scanListed, news, listing, Reply.mapError, Reply.bind],
      watches.early, watches.unchanging, fun runs again => by cases listing.symm.trans again⟩

theorem confirmed_watches (watches : w.Watches none) (key : String) (bytes : Bytes)
    (found : (w.tryIngest existing).1 = .gives (.changed key bytes)) :
    (w.tryIngest existing).2.1.confirm.Watches (some key) ∧
      (w.tryIngest existing).2.1.confirm.news (some key) = .gives .unchanged ∧
      w.news (some key) = .gives .unchanged ∧ ∃ run, key = w.rule.key run := by
  obtain ⟨reply, after⟩ := w.poll_news existing none (.inl rfl) watches
  rw [found, news] at reply
  cases listing : w.provider.runs w.rule.limit with
  | gives runs =>
      rw [listing] at reply
      rw [w.try_ingest_listed existing runs listing] at found after ⊢
      obtain ⟨run, -, offered, named⟩ := w.rule.scan_offers w.provider existing w.visited _ runs key bytes found
      have idle : w.news (some key) = .gives .unchanged := by
        rw [news, listing]
        exact w.rule.seek_again w.provider existing runs key bytes reply.symm
      unfold confirm
      simp only [offered]
      refine ⟨⟨watches.early, watches.unchanging, fun others again => ?_⟩, idle, idle, run, named⟩
      · refine w.rule.harmless_insert w.provider (some key) others _ run
          (w.rule.harmless_any w.provider _ others _ (after.harmless others again)) fun other _ same => .inl ?_
        rw [named]
        exact congrArg some (w.rule.key_attempt run other same).symm
  | _ => rw [listing] at reply; cases reply

end Watch

end RunWatch

namespace Source

-- Only a pipeline's scan stops early.
inductive Fresh : Source → Prop where
  | file (name path : String) : Fresh ⟨name, .filesystem path⟩
  | builds (name : String) (rule : RunRule) (p : Provider) (maxVisited : Nat) (early : rule.stopsEarly = true)
      (unchanging : p.Unchanging rule.limit) (trimmed : ∀ run, Text.trim (rule.key run) = rule.key run) :
      Fresh ⟨name, .runs (RunWatch.start rule p maxVisited)⟩

inductive Spent (t : FileTree) (stored : Option String) : Source → Prop where
  | file (name path : String)
      (same : ∀ bytes, t.read path = .ok bytes → stored = some (contentKey bytes)) :
      Spent t stored ⟨name, .filesystem path⟩
  | builds (name : String) (w : RunWatch) (watches : w.Watches stored)
      (stale : ∀ key bytes, w.news stored ≠ .gives (.changed key bytes)) : Spent t stored ⟨name, .runs w⟩

end Source

def Durable (key : String) : Prop := Text.allBlank key = false ∧ Text.trim key = key

theorem content_key_durable (bytes : Bytes) : Durable (Source.contentKey bytes) :=
  have solid := hex_text_solid _ (content_key_hex bytes)
  ⟨solid_filled _ solid, solid_trimmed _ solid⟩

theorem build_key_durable (rule : RunRule) (early : rule.stopsEarly = true) (run : Run)
    (trimmed : Text.trim (rule.key run) = rule.key run) : Durable (rule.key run) := by
  refine ⟨?_, trimmed⟩
  cases rule with
  | pipeline organization project artifactName fileName =>
      rw [Text.allBlank, List.all_eq_false]
      exact ⟨'/', by simp [RunRule.key], by decide⟩
  | workflow => cases early

theorem int_text_solid (n : Int) : Solid (toString n) := by
  have digits (m : Nat) : ∀ c ∈ m.repr.toList, Text.isBlank c = false := by
    intro c member
    rw [Nat.repr, String.toList_ofList] at member
    have digit := Nat.isDigit_of_mem_toDigits (by decide) (by decide) member
    simp only [Char.isDigit, Bool.and_eq_true, decide_eq_true_eq, ge_iff_le, UInt32.le_iff_toNat_le] at digit
    have low : 48 ≤ c.toNat := digit.1
    have high : c.toNat ≤ 57 := digit.2
    simp [Text.isBlank, Text.blankRanges]
    omega
  have filled (m : Nat) : m.repr ≠ "" := by
    intro empty
    have none := congrArg String.toList empty
    rw [Nat.repr, String.toList_ofList] at none
    exact Nat.toDigits_ne_nil none
  change Solid n.repr
  cases n with
  | ofNat m => exact ⟨filled m, digits m⟩
  | negSucc m =>
      refine ⟨fun empty => ?_, ?_⟩
      · have none := congrArg String.toList empty
        simp [Int.repr] at none
      · intro c member
        simp only [Int.repr, String.toList_append, List.mem_append] at member
        rcases member with sign | digit
        · obtain rfl : c = '-' := by simpa using sign
          decide
        · exact digits _ c digit

theorem build_key_solid (organization project artifactName fileName : String) (named : Solid organization)
    (placed : Solid project) (run : Run) :
    Solid (RunRule.key (.pipeline organization project artifactName fileName) run) := by
  have number := int_text_solid run.attempt.id
  refine ⟨fun empty => ?_, fun c member => ?_⟩
  · have none := congrArg String.toList empty
    simp [RunRule.key] at none
  · simp only [RunRule.key, String.toList_append, List.mem_append] at member
    have slash (c : Char) (member : c ∈ "/".toList) : Text.isBlank c = false := by
      obtain rfl : c = '/' := by simpa using member
      decide
    rcases member with (((here | here) | here) | here) | here
    · exact named.2 c here
    · exact slash c here
    · exact placed.2 c here
    · exact slash c here
    · exact number.2 c here
section Polled

variable (t : FileTree) (existing : Option String)

theorem fresh_polled (source : Source) (fresh : source.Fresh) (files : FileTree)
    (reads : ∀ path, source.kind = .filesystem path → files.read path = t.read path) :
    (∀ key bytes, (source.tryIngest files existing).1 = .gives (.changed key bytes) →
        Durable key ∧ (source.tryIngest files existing).2.1.confirm.Spent t (some key) ∧
          source.Spent t (some key)) ∧
      ((∀ key bytes, (source.tryIngest files existing).1 ≠ .gives (.changed key bytes)) →
        (source.tryIngest files existing).2.1.Spent t existing ∧ source.Spent t existing) := by
  cases fresh with
  | file name path =>
      have same := reads path rfl
      have both (stored : Option String) (known : ∀ bytes, t.read path = .ok bytes →
          stored = some (Source.contentKey bytes)) : Source.Spent t stored ⟨name, .filesystem path⟩ ∧
            Source.Spent t stored ⟨name, .filesystem path⟩ := ⟨.file name path known, .file name path known⟩
      rcases try_file_cases files path existing with ⟨failed, unread⟩ | ⟨idle, known⟩ | ⟨bytes, read, -, changed⟩
      · simp only [Source.tryIngest, failed]
        exact ⟨fun _ _ found => (by cases found), fun _ => both existing fun bytes there => absurd (same.trans there) (unread bytes)⟩
      · simp only [Source.tryIngest, idle]
        exact ⟨fun _ _ found => (by cases found), fun _ => both existing fun bytes there => known bytes (same.trans there)⟩
      · simp only [Source.tryIngest, changed]
        refine ⟨?_, fun stale => absurd rfl (stale _ _)⟩
        rintro key taken ⟨⟩
        refine ⟨content_key_durable _, both _ fun other there => ?_⟩
        obtain rfl := Except.ok.inj ((same.trans there).symm.trans read)
        rfl
  | builds name rule p maxVisited early unchanging trimmed =>
      have watches (exempt : Option String) : (RunWatch.start rule p maxVisited).Watches exempt :=
        ⟨early, unchanging, fun runs _ => rule.harmless_empty p exempt runs maxVisited⟩
      have same : (RunWatch.start rule p maxVisited).rule = rule := rfl
      generalize RunWatch.start rule p maxVisited = w at watches same ⊢
      obtain ⟨reply, after⟩ := w.poll_news existing none (.inl rfl) (watches none)
      constructor
      · intro key bytes found
        obtain ⟨still, idle, again, run, named⟩ := w.confirmed_watches existing (watches none) key bytes found
        rw [same] at named
        refine ⟨named ▸ build_key_durable rule early run (trimmed run), .builds name _ still ?_,
          .builds name _ (watches _) ?_⟩
        · exact fun other more found => by cases idle.symm.trans found
        · exact fun other more found => by cases again.symm.trans found
      · intro stale
        have none : ∀ key bytes, w.news existing ≠ .gives (.changed key bytes) := fun key bytes again =>
          stale key bytes (reply.trans again)
        refine ⟨.builds name _ ⟨after.early, after.unchanging, fun runs listing => ?_⟩ none,
          .builds name _ (watches _) none⟩
        exact RunRule.harmless_any _ _ existing runs _ (after.harmless runs listing)

theorem spent_polled (source : Source) (spent : source.Spent t existing) (files : FileTree)
    (reads : ∀ path, source.kind = .filesystem path → files.read path = t.read path) :
    (∀ key bytes, (source.tryIngest files existing).1 ≠ .gives (.changed key bytes)) ∧
      (source.tryIngest files existing).2.1.Spent t existing := by
  cases spent with
  | file name path known =>
      have same := reads path rfl
      rcases try_file_cases files path existing with ⟨failed, -⟩ | ⟨idle, -⟩ | ⟨bytes, read, other, -⟩
      · simp only [Source.tryIngest, failed]
        exact ⟨fun _ _ found => (by cases found), .file name path known⟩
      · simp only [Source.tryIngest, idle]
        exact ⟨fun _ _ found => (by cases found), .file name path known⟩
      · exact absurd (known bytes (same.symm.trans read)) other
  | builds name w watches stale =>
      obtain ⟨reply, after⟩ := w.poll_news existing existing (.inr rfl) watches
      exact ⟨fun key bytes found => stale key bytes (reply.symm.trans found), .builds name _ after stale⟩

end Polled

end IndexKeeper
