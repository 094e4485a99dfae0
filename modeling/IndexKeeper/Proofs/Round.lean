import IndexKeeper.Engine

set_option autoImplicit false

namespace IndexKeeper

def Event.isGeneration : Event → Bool
  | .asked _ _ => false
  | .generated _ _ => true

namespace Engine

def generatorCalls (e : Engine) : Nat := e.events.countP Event.isGeneration

def polled (e : Engine) : Engine × List Source × RoundOutcome :=
  { e with loop := { e.loop with firstRound := false } }.pollSources {} e.sources

theorem run_round_polled (e : Engine) :
    e.runRound = { e.polled.1 with sources := e.polled.2.1 }.finishRound e.polled.2.2
      (e.loop.firstRound && e.indexIsBehind) := rfl

structure PollFrame (e next : Engine) : Prop where
  sources : next.sources = e.sources
  publisher : next.publisher = e.publisher
  loop : next.loop = e.loop
  indexName : next.indexName = e.indexName
  generator : next.generator = e.generator
  generations : next.generations = e.generations
  interrupts : next.interrupts = e.interrupts
  calls : next.generatorCalls = e.generatorCalls

theorem poll_frame_refl (e : Engine) : PollFrame e e := ⟨rfl, rfl, rfl, rfl, rfl, rfl, rfl, rfl⟩

theorem poll_frame_trans (a b c : Engine) (first : PollFrame a b) (second : PollFrame b c) :
    PollFrame a c :=
  ⟨second.sources.trans first.sources, second.publisher.trans first.publisher,
    second.loop.trans first.loop, second.indexName.trans first.indexName,
    second.generator.trans first.generator, second.generations.trans first.generations,
    second.interrupts.trans first.interrupts, second.calls.trans first.calls⟩

theorem asked_no_generation (name : String) (asked : List Question) :
    (asked.map (Event.asked name)).countP Event.isGeneration = 0 := by
  rw [List.countP_map, List.countP_eq_zero]
  intro question _
  simp [Event.isGeneration]

theorem poll_source_frame (e : Engine) (s : Source) : PollFrame e (e.pollSource s).1 := by
  unfold pollSource
  split
  · exact poll_frame_refl e
  · have calls := asked_no_generation s.name (e.coordinator.ingestUntil e.disk s (e.interrupts s.name)).asked
    dsimp only
    split <;> exact ⟨rfl, rfl, rfl, rfl, rfl, rfl, rfl, by simp [generatorCalls, calls]⟩

theorem poll_sources_frame (e : Engine) (o : RoundOutcome) (sources : List Source) :
    PollFrame e (e.pollSources o sources).1 := by
  induction sources generalizing e o with
  | nil => exact poll_frame_refl e
  | cons s rest ih =>
      have here := poll_source_frame e s
      rw [pollSources]
      generalize e.pollSource s = answer at here ⊢
      obtain ⟨next, source, verdict⟩ := answer
      cases verdict with
      | cancelled => exact here
      | changed => exact poll_frame_trans _ _ _ here (ih next _)
      | unchanged => exact poll_frame_trans _ _ _ here (ih next _)
      | failed => exact poll_frame_trans _ _ _ here (ih next _)

structure GenerationFrame (e next : Engine) : Prop where
  sources : next.sources = e.sources
  coordinator : next.coordinator = e.coordinator
  loop : next.loop = e.loop
  indexName : next.indexName = e.indexName
  generator : next.generator = e.generator

theorem generation_frame_trans (a b c : Engine) (first : GenerationFrame a b)
    (second : GenerationFrame b c) : GenerationFrame a c :=
  ⟨second.sources.trans first.sources, second.coordinator.trans first.coordinator,
    second.loop.trans first.loop, second.indexName.trans first.indexName,
    second.generator.trans first.generator⟩

theorem run_generator_frame (e : Engine) (artifacts : List String) (index out : String) :
    GenerationFrame e (e.runGenerator artifacts index out).2 ∧
      (e.runGenerator artifacts index out).2.generatorCalls = e.generatorCalls + 1 := by
  unfold runGenerator
  generalize e.disk.generate (e.generator e.generations) artifacts out = answer
  obtain ⟨reply, disk⟩ := answer
  cases reply <;> exact ⟨⟨rfl, rfl, rfl, rfl, rfl⟩, by simp [generatorCalls, Event.isGeneration]⟩

theorem publish_generated_frame (e : Engine) (index : String) (keys : VersionKeys) :
    GenerationFrame e (e.publishGenerated index keys).2 ∧
      (e.publishGenerated index keys).2.generatorCalls = e.generatorCalls := by
  unfold publishGenerated
  generalize e.coordinator.store.writeManifest e.disk index keys = answer
  obtain ⟨written, disk⟩ := answer
  cases written <;> exact ⟨⟨rfl, rfl, rfl, rfl, rfl⟩, rfl⟩

theorem discard_frame (e : Engine) (out : String) :
    GenerationFrame e (e.discard out) ∧ (e.discard out).generatorCalls = e.generatorCalls := by
  unfold discard
  split <;> exact ⟨⟨rfl, rfl, rfl, rfl, rfl⟩, rfl⟩

theorem regenerate_frame (e : Engine) :
    GenerationFrame e e.regenerate.2 ∧
      e.regenerate.2.generatorCalls = if e.clock.cancelled then e.generatorCalls else e.generatorCalls + 1 := by
  unfold regenerate
  dsimp only
  cases cancelled : e.clock.cancelled with
  | true => exact discard_frame e _
  | false =>
      have ran := run_generator_frame e e.coordinator.snapshot.paths (e.indexName e.generations)
        (e.coordinator.store.indexDir (e.indexName e.generations))
      simp only [Bool.false_eq_true, if_false]
      generalize e.runGenerator e.coordinator.snapshot.paths (e.indexName e.generations)
        (e.coordinator.store.indexDir (e.indexName e.generations)) = answer at ran ⊢
      obtain ⟨result, next⟩ := answer
      cases result with
      | error error =>
          have thrown := discard_frame next (e.coordinator.store.indexDir (e.indexName e.generations))
          exact ⟨generation_frame_trans _ _ _ ran.1 thrown.1, thrown.2.trans ran.2⟩
      | ok done =>
          have published := publish_generated_frame next (e.indexName e.generations)
            e.coordinator.snapshot.versionKeys
          dsimp only
          generalize next.publishGenerated (e.indexName e.generations)
            e.coordinator.snapshot.versionKeys = answer at published ⊢
          obtain ⟨written, last⟩ := answer
          have both := generation_frame_trans _ _ _ ran.1 published.1
          cases written with
          | error error =>
              have thrown := discard_frame last (e.coordinator.store.indexDir (e.indexName e.generations))
              exact ⟨generation_frame_trans _ _ _ both thrown.1,
                thrown.2.trans (published.2.trans ran.2)⟩
          | ok => exact ⟨both, published.2.trans ran.2⟩

end Engine
end IndexKeeper
