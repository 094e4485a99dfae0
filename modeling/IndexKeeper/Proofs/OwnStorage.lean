import Mathlib.Data.List.Nodup
import IndexKeeper.Proofs.AcceptedConfigs
import IndexKeeper.Proofs.FilePolls

set_option autoImplicit false

namespace IndexKeeper

open Store (Indexed indexAt sourceAt)

inductive Step.Files : Step → List String → Prop where
  | makes (path : String) : Step.Files (.makeDirectories path) []
  | writes (path : String) (bytes : Bytes) : Step.Files (.write path bytes) [path]
  | moves (source target : String) : Step.Files (.rename source target) [source, target]

namespace Store

def Owned (s : Store) (name path : String) : Prop :=
  ∃ file, Path.Plain file ∧ path = Path.join (s.sourceDir name) file

section Owned

variable (s : Store) (name : String)

theorem replace_work_owned (file : String) (plain : Path.Plain file) (longer : Path.Plain (file ++ ".tmp"))
    (bytes : Bytes) :
    ∀ step ∈ replaceWork (Path.join (s.sourceDir name) file) bytes,
      ∃ paths, Step.Files step.1 paths ∧ ∀ path ∈ paths, s.Owned name path := by
  have target : s.Owned name (Path.join (s.sourceDir name) file) := ⟨file, plain, rfl⟩
  have beside : s.Owned name (temporary (Path.join (s.sourceDir name) file)) :=
    ⟨file ++ ".tmp", longer, temporary_join _ file plain longer⟩
  simp only [replaceWork, List.forall_mem_cons, List.not_mem_nil, false_implies, implies_true, and_true]
  exact ⟨⟨_, .writes _ _, by simp [beside]⟩, ⟨_, .moves _ _, by simp [beside, target]⟩⟩

theorem artifact_work_owned (key : String) (bytes : Bytes) :
    ∀ step ∈ s.artifactWork name key bytes,
      ∃ paths, Step.Files step.1 paths ∧ ∀ path ∈ paths, s.Owned name path := by
  rw [artifactWork]
  simp only [List.forall_mem_cons, List.forall_mem_append]
  exact ⟨⟨[], .makes _, by simp⟩, replace_work_owned s name "build.complog" (by decide) (by decide) bytes,
    replace_work_owned s name "version" (by decide) (by decide) _⟩

theorem owned_segments (plain : Path.Plain name) (path : String) (owned : s.Owned name path) :
    ∃ file, Path.segments path = Path.segments s.root ++ ["source", name, file] := by
  obtain ⟨file, filePlain, rfl⟩ := owned
  have source : Path.Plain "source" := by decide
  exact ⟨file, by simp [sourceDir, sourceRoot, filePlain, plain, source]⟩

end Owned

def GivenUp (s : Store) (root : Location) (d : Disk) (l : Location) : Prop :=
  ∃ index, s.indexDir index ∈ d.doomed ∧ indexAt root index <+: l

theorem given_up_standing (s : Store) (root : Location) (d : Disk) (place : s.InPlace root d.files)
    (doomed : s.Doomed [] d) : s.Standing root (s.GivenUp root d) d := by
  have apart (l : Location) (gone : s.GivenUp root d l) : Indexed root l := by
    obtain ⟨index, -, below⟩ := gone
    exact (List.prefix_append _ _).trans below
  refine ⟨place.formed, reaches_narrower _ _ _ _ _ place.reaches apart, place.source, apart, fun path member => ?_⟩
  obtain ⟨index, plain, -, rfl⟩ := doomed path member
  exact ⟨index, plain, rfl, fun l below => ⟨index, member, by simpa [indexAt, indexesAt] using below⟩⟩

structure Separates (s : Store) (name other : String) : Prop where
  work : ∀ key bytes, ∀ step ∈ s.artifactWork name key bytes,
    ∃ paths, Step.Files step.1 paths ∧ ∀ path ∈ paths, s.Owned name path
  inside : ∀ path, s.Owned name path →
    ∃ file, Path.segments path = Path.segments s.root ++ ["source", name, file]
  apart : ∀ path otherPath, s.Owned name path → s.Owned other otherPath →
    Path.segments path ≠ Path.segments otherPath
  outside : ∀ path, s.Owned name path → ¬ Path.segments s.indexRoot <+: Path.segments path
  changes : ∀ root d, s.InPlace root d.files → s.Doomed [] d → ∀ key bytes l,
    (s.writeArtifact d name key bytes).2.files.get? l ≠ d.files.get? l →
      (l = sourceAt root name ∧ d.files.get? l = none ∧
        (s.writeArtifact d name key bytes).2.files.get? l = some .directory) ∨
      (∃ file, l = sourceAt root name ++ [file]) ∨ s.GivenUp root d l
  others : ∀ root d, s.InPlace root d.files → s.Doomed [] d → ∀ key bytes tail,
    (s.writeArtifact d name key bytes).2.files.get? (sourceAt root other ++ tail) =
      d.files.get? (sourceAt root other ++ tail)

section Separation

variable (s : Store) (name other : String) (plain : Path.Plain name)
include plain

theorem writing_changes (root : Location) (d : Disk) (place : s.InPlace root d.files) (doomed : s.Doomed [] d)
    (key : String) (bytes : Bytes) (l : Location)
    (changed : (s.writeArtifact d name key bytes).2.files.get? l ≠ d.files.get? l) :
    (l = sourceAt root name ∧ d.files.get? l = none ∧
      (s.writeArtifact d name key bytes).2.files.get? l = some .directory) ∨
    (∃ file, l = sourceAt root name ++ [file]) ∨ s.GivenUp root d l := by
  have standing := s.given_up_standing root d place doomed
  obtain ⟨steps, directory, -⟩ := write_artifact s root _ d standing name plain key bytes
  by_cases gone : s.GivenUp root d l
  · exact .inr (.inr gone)
  · by_cases own : l = sourceAt root name
    · subst own
      exact .inl ⟨rfl, directory.resolve_left changed⟩
    · refine .inr (.inl (Classical.byContradiction fun elsewhere => changed ?_))
      exact steps.files.get l gone fun touched => touched.elim (own ·.1) elsewhere

theorem writing_leaves_others (apart : name ≠ other) (root : Location) (d : Disk) (place : s.InPlace root d.files)
    (doomed : s.Doomed [] d) (key : String) (bytes : Bytes) (tail : Location) :
    (s.writeArtifact d name key bytes).2.files.get? (sourceAt root other ++ tail) =
      d.files.get? (sourceAt root other ++ tail) := by
  refine Classical.byContradiction fun changed => ?_
  rcases writing_changes s name plain root d place doomed key bytes _ changed with ⟨same, -⟩ | ⟨file, same⟩ | gone
  · exact apart (by simp [sourceAt] at same; exact same.1.symm)
  · exact apart (by simp [sourceAt] at same; exact same.1.symm)
  · obtain ⟨index, -, below⟩ := gone
    exact source_at_not_indexed root other tail ((List.prefix_append _ _).trans below)

theorem separated (otherPlain : Path.Plain other) (apart : name ≠ other) : s.Separates name other := by
  have index : Path.Plain "index" := by decide
  constructor
  · exact artifact_work_owned s name
  · exact owned_segments s name plain
  · intro path otherPath owned otherOwned same
    obtain ⟨file, segments⟩ := owned_segments s name plain path owned
    obtain ⟨otherFile, otherSegments⟩ := owned_segments s other otherPlain otherPath otherOwned
    rw [segments, otherSegments] at same
    simp at same
    exact apart same.1
  · intro path owned below
    obtain ⟨file, segments⟩ := owned_segments s name plain path owned
    rw [segments, indexRoot, Path.segments_join _ _ index, List.prefix_append_right_inj] at below
    simp at below
  · exact writing_changes s name plain
  · exact writing_leaves_others s name other plain apart

end Separation

end Store

theorem proper_name_plain (name : String) (proper : Config.ProperName name) : Path.Plain name :=
  plain_of_check_name name ((Config.check_name_iff name).mpr proper)

theorem accepted_sources_stored_apart (document : String) (c : Config)
    (decoded : (Toml.parse? document).bind Config.ofFields? = some c) :
    (Config.parse document = .ok c ↔ c.Acceptable) ∧
      (Config.parse document = .ok c → ∀ source ∈ c.sources, ∀ other ∈ c.sources, source ≠ other →
        (Store.mk c.storageRoot).Separates source.name other.name) := by
  refine ⟨by simp [Config.parse_iff, decoded], fun accepted source listed other otherListed differs => ?_⟩
  obtain ⟨-, acceptable⟩ := (Config.parse_iff document c).mp accepted
  apply Store.separated
  · exact proper_name_plain _ (acceptable.named source listed)
  · exact proper_name_plain _ (acceptable.named other otherListed)
  · exact fun same => differs (List.inj_on_of_nodup_map acceptable.distinct listed otherListed same)

namespace NamedAsFiles

def document : String :=
  "[storage]\nroot = \"data\"\n[generator]\ncommand = \"scip\"\n" ++
  "[[sources]]\nname = \"version\"\nkind = \"filesystem\"\npath = \"a.log\"\n" ++
  "[[sources]]\nname = \"version.tmp\"\nkind = \"filesystem\"\npath = \"b.log\"\n"

def config : Config where
  storageRoot := "data"
  poll := {}
  generator := ⟨"scip", []⟩
  bind := Config.defaultBind
  tokens := {}
  sources := [⟨"version", .filesystem "a.log"⟩, ⟨"version.tmp", .filesystem "b.log"⟩]

theorem decoded : (Toml.parse? document).bind Config.ofFields? = some config := by decide +kernel

end NamedAsFiles

open NamedAsFiles in
theorem named_as_files_stored_apart :
    (Toml.parse? document).bind Config.ofFields? = some config ∧ Config.parse document = .ok config ∧
      config.Acceptable ∧ (Store.mk "data").Separates "version" "version.tmp" := by
  obtain ⟨accepts, apart⟩ := accepted_sources_stored_apart document config decoded
  have accepted : Config.parse document = .ok config := by
    rw [Config.parse, decoded]
    decide +kernel
  exact ⟨decoded, accepted, accepts.mp accepted,
    apart accepted ⟨"version", .filesystem "a.log"⟩ (by decide) ⟨"version.tmp", .filesystem "b.log"⟩ (by decide)
      (by decide)⟩

end IndexKeeper
